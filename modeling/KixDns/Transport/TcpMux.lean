import KixDns.Basic

/-!
# The TCP multiplexer (`TcpMuxClient`)

One `TcpMuxClient` carries the requests of many tasks over one TCP connection to an
upstream.  `send` rewrites the request's id to a fresh one (`rewrite_id`), files the
original id and a oneshot channel under it in `pending`, makes sure a connection is open
(`ensure_conn`, which also spawns the connection's reader) and writes the framed request.
The reader of a connection hands each frame to the pending request with the frame's id,
restoring the original id; when a read fails it fails every pending request and clears
the connection slot (`fail_all_async`, `reset_conn`).  A write error or a timeout of the
sender also clears the slot.

The slot `conn` holds the write half only.  Clearing it does not stop the reader of that
connection, which reads on until its own read fails.  Its failure then clears whatever
connection the slot holds by that time and fails every pending request, also those
written on that newer connection.

What does hold over every interleaving is `MuxInv`: a reader hands a frame only to the
request filed under the frame's id and restores that request's id, so every answer carries
the id of its own request, and a channel, once resolved, is never resolved again.

## Modelling choices

* Connections are numbered in the order they are opened; the number, and the connection
  a request was written on, are ghosts of the model.
* Each call of `send` is a process with its own counter (`SendPc`).  Its locks are held
  only within one event, so each event is one atomic update of the client.
* The semaphore of 128 permits and the timeout before `rewrite_id` are left out: they
  return an error before the client's state is touched.
* `fail_all_async` fails the requests pending when it runs, in one event.
-/

namespace KixDns

/-- A call of `TcpMuxClient::send`. -/
abbrev SendId := Nat

/-- `Pending`: the request's original id and the sender of its channel. -/
structure Pending where
  originalId : UInt16
  tx : SendId
deriving DecidableEq, Repr

/-- A oneshot channel, as its receiver finds it. -/
inductive Channel where
  /-- Nothing sent yet. -/
  | empty
  /-- `Ok(bytes)`, or an error. -/
  | sent (result : Option Bytes)
  /-- The sender was dropped without sending. -/
  | dropped
deriving DecidableEq, Repr

/-- Where a call of `send` is. -/
inductive SendPc where
  /-- `rewrite_id`. -/
  | rewrite
  /-- `self.pending.insert(new_id, …)`. -/
  | insert (newId : UInt16)
  /-- `ensure_conn`, inside the write timeout. -/
  | connect (newId : UInt16)
  /-- The framed write under the write lock and the connection lock. -/
  | write (newId : UInt16)
  /-- `timeout(final_remaining, rx)`. -/
  | await (newId : UInt16)
  /-- Returned; `none` is an error. -/
  | done (result : Option Bytes)
deriving DecidableEq, Repr

/-- A call of `send`: its packet, where it is, and the connection its frame was written
on. -/
structure Send where
  packet : Bytes
  pc : SendPc
  writtenOn : Option Nat
deriving DecidableEq, Repr

/-- A `TcpMuxClient`, its reader tasks and the calls of `send`. -/
structure MuxState where
  /-- `conn`: the connection whose write half the slot holds. -/
  conn : Option Nat
  /-- Connections opened so far. -/
  opened : Nat
  /-- `pending`: the entries by their key. -/
  pending : List (UInt16 × Pending)
  nextId : UInt16
  /-- The connections whose reader task still runs. -/
  readers : List Nat
  channels : SendId → Channel
  sends : SendId → Option Send

/-- `TcpMuxClient::new`: no connection, no request, `next_id` at `1`. -/
def MuxState.init : MuxState :=
  ⟨none, 0, [], 1, [], fun _ ↦ .empty, fun _ ↦ none⟩

/-- `pending.get(&id)`. -/
def lookupPending (pending : List (UInt16 × Pending)) (id : UInt16) : Option Pending :=
  (pending.find? (·.1 = id)).map (·.2)

/-- `pending.remove(&id)`. -/
def erasePending (pending : List (UInt16 × Pending)) (id : UInt16) : List (UInt16 × Pending) :=
  pending.filter (·.1 ≠ id)

/-- The loop of `rewrite_id`: candidates from `cand` on, `tries` taken so far.  It gives
up once 65536 candidates were in use, so 65536 rounds of fuel always suffice.  The result
is the new id and the next `next_id`. -/
def rewriteIdLoop (pending : List (UInt16 × Pending)) : Nat → UInt16 → Nat →
    Option (UInt16 × UInt16)
  | 0, _, _ => none
  | fuel + 1, cand, tries =>
    if (lookupPending pending cand).isNone then some (cand, cand + 1)
    else if tries + 1 > 65535 then none
    else rewriteIdLoop pending fuel (cand + 1) (tries + 1)

namespace MuxState

variable (s : MuxState)

/-- Replace call `j`. -/
def setSend (j : SendId) (snd : Send) : MuxState :=
  { s with sends := Function.update s.sends j (some snd) }

/-- `remove_pending`. -/
def removePending (id : UInt16) : MuxState :=
  { s with pending := erasePending s.pending id }

/-- `reset_conn`. -/
def resetConn : MuxState :=
  { s with conn := none }

/-- The `Err` arms of the write: the request leaves `pending`, the slot is cleared and the
call returns an error. -/
def writeFailed (j : SendId) (snd : Send) (newId : UInt16) : MuxState :=
  ((s.removePending newId).resetConn).setSend j { snd with pc := .done none }

/-- `fail_all_async` of a reader, and the end of that reader. -/
def failAllAsync (g : Nat) : MuxState :=
  { s with
    pending := []
    channels := fun j ↦ if s.pending.any (·.2.tx = j) then .sent none else s.channels j
    conn := none
    readers := s.readers.erase g }

end MuxState

/-- What can happen to a `TcpMuxClient`. -/
inductive MuxEvent where
  /-- `send` is called with `packet`. -/
  | call (j : SendId) (packet : Bytes)
  /-- Call `j` runs `rewrite_id`. -/
  | rewrite (j : SendId)
  /-- Call `j` files its request in `pending`. -/
  | insert (j : SendId)
  /-- Call `j` runs `ensure_conn`; `ok` tells whether a needed connect succeeds. -/
  | connect (j : SendId) (ok : Bool)
  /-- Call `j` writes its frame; `ok` tells whether the write succeeds. -/
  | write (j : SendId) (ok : Bool)
  /-- The timeout around `ensure_conn` and the write expires. -/
  | writeTimeout (j : SendId)
  /-- The budget is spent once the write is done. -/
  | lateAfterWrite (j : SendId)
  /-- Call `j` reads its channel. -/
  | receive (j : SendId)
  /-- The timeout on the channel expires. -/
  | responseTimeout (j : SendId)
  /-- The reader of connection `g` reads a frame. -/
  | frame (g : Nat) (bytes : Bytes)
  /-- The reader of connection `g` fails to read. -/
  | readFail (g : Nat)

/-- The client after an event; `none` when the event cannot happen. -/
def MuxEvent.apply : MuxEvent → MuxState → Option MuxState
  | .call j packet, s =>
    if (s.sends j).isSome then none
    else if packet.length < 2 then some (s.setSend j ⟨packet, .done none, none⟩)
    else some (s.setSend j ⟨packet, .rewrite, none⟩)
  | .rewrite j, s =>
    match s.sends j with
    | some snd@⟨_, .rewrite, _⟩ =>
      match rewriteIdLoop s.pending 65536 s.nextId 0 with
      | none => some (s.setSend j { snd with pc := .done none })
      | some (newId, next) => some ({ s with nextId := next }.setSend j { snd with pc := .insert newId })
    | _ => none
  | .insert j, s =>
    match s.sends j with
    | some snd@⟨packet, .insert newId, _⟩ =>
      -- `j` files a fresh channel; the entry it replaces is dropped with its sender.
      some ({ s with
        pending := (newId, ⟨ofBe16 (packet.getD 0 0) (packet.getD 1 0), j⟩) ::
          erasePending s.pending newId
        channels := fun k ↦
          if k = j then .empty
          else if (lookupPending s.pending newId).any (fun old : Pending ↦ old.tx = k) then .dropped
          else s.channels k }.setSend j { snd with pc := .connect newId })
    | _ => none
  | .connect j ok, s =>
    match s.sends j with
    | some snd@⟨_, .connect newId, _⟩ =>
      match s.conn with
      | some _ => some (s.setSend j { snd with pc := .write newId })
      | none =>
        if ok then
          some ({ s with
            conn := some (s.opened + 1)
            opened := s.opened + 1
            readers := s.readers ++ [s.opened + 1] }.setSend j { snd with pc := .write newId })
        else some (s.writeFailed j snd newId)
    | _ => none
  | .write j ok, s =>
    match s.sends j with
    | some snd@⟨_, .write newId, _⟩ =>
      match s.conn, ok with
      | some g, true => some (s.setSend j { snd with pc := .await newId, writtenOn := some g })
      | _, _ => some (s.writeFailed j snd newId)
    | _ => none
  | .writeTimeout j, s =>
    match s.sends j with
    | some snd@⟨_, .connect newId, _⟩ | some snd@⟨_, .write newId, _⟩ =>
      some (s.writeFailed j snd newId)
    | _ => none
  | .lateAfterWrite j, s =>
    match s.sends j with
    | some snd@⟨_, .await newId, _⟩ =>
      some ((s.removePending newId).setSend j { snd with pc := .done none })
    | _ => none
  | .receive j, s =>
    match s.sends j, s.channels j with
    | some snd@⟨_, .await _, _⟩, .sent result => some (s.setSend j { snd with pc := .done result })
    | some snd@⟨_, .await newId, _⟩, .dropped =>
      some ((s.removePending newId).setSend j { snd with pc := .done none })
    | _, _ => none
  | .responseTimeout j, s =>
    match s.sends j with
    | some snd@⟨_, .await newId, _⟩ =>
      some (((s.removePending newId).resetConn).setSend j { snd with pc := .done none })
    | _ => none
  | .frame g bytes, s =>
    if g ∉ s.readers then none
    else if bytes.length < 2 then some s
    else
      let respId := ofBe16 (bytes.getD 0 0) (bytes.getD 1 0)
      match lookupPending s.pending respId with
      | some p =>
        some { s with
          pending := erasePending s.pending respId
          channels := Function.update s.channels p.tx (.sent (some (setId p.originalId bytes))) }
      | none => some s
  | .readFail g, s =>
    if g ∉ s.readers then none else some (s.failAllAsync g)

/-- The client after a sequence of events, if each can happen. -/
def MuxEvent.run : List MuxEvent → MuxState → Option MuxState
  | [], s => some s
  | e :: es, s => (e.apply s).bind (run es)

/-- The states a fresh client reaches. -/
inductive MuxReachable : MuxState → Prop
  | init : MuxReachable MuxState.init
  | step {s s' : MuxState} (e : MuxEvent) : MuxReachable s → e.apply s = some s' →
      MuxReachable s'

theorem MuxReachable.run : ∀ {es : List MuxEvent} {s s' : MuxState}, MuxReachable s →
    MuxEvent.run es s = some s' → MuxReachable s'
  | [], _, _, hs, h => by cases h; exact hs
  | e :: es, s, s', hs, h => by
    simp only [MuxEvent.run, Option.bind_eq_some] at h
    obtain ⟨s₁, h₁, h₂⟩ := h
    exact MuxReachable.run (.step e hs h₁) h₂

theorem MuxEvent.run_append (es es' : List MuxEvent) (s : MuxState) :
    MuxEvent.run (es ++ es') s = (MuxEvent.run es s).bind (MuxEvent.run es') := by
  induction es generalizing s with
  | nil => rfl
  | cons e es ih =>
    simp only [List.cons_append, MuxEvent.run, Option.bind_assoc]
    cases e.apply s <;> simp [ih]

/-! ## The state after each kind of update -/

section Updates

variable (s : MuxState)

@[simp] theorem MuxState.setSend_pending (j : SendId) (snd : Send) :
    (s.setSend j snd).pending = s.pending := rfl

@[simp] theorem MuxState.setSend_channels (j : SendId) (snd : Send) :
    (s.setSend j snd).channels = s.channels := rfl

@[simp] theorem MuxState.setSend_sends (j : SendId) (snd : Send) :
    (s.setSend j snd).sends = Function.update s.sends j (some snd) := rfl

@[simp] theorem MuxState.setSend_nextId (j : SendId) (snd : Send) :
    (s.setSend j snd).nextId = s.nextId := rfl

@[simp] theorem MuxState.setSend_conn (j : SendId) (snd : Send) :
    (s.setSend j snd).conn = s.conn := rfl

theorem MuxState.sends_setSend_self (j : SendId) (snd : Send) :
    (s.setSend j snd).sends j = some snd :=
  Function.update_same _ _ _

@[simp] theorem MuxState.removePending_pending (id : UInt16) :
    (s.removePending id).pending = erasePending s.pending id := rfl

@[simp] theorem MuxState.removePending_channels (id : UInt16) :
    (s.removePending id).channels = s.channels := rfl

@[simp] theorem MuxState.removePending_sends (id : UInt16) :
    (s.removePending id).sends = s.sends := rfl

@[simp] theorem MuxState.resetConn_pending : s.resetConn.pending = s.pending := rfl

@[simp] theorem MuxState.resetConn_channels : s.resetConn.channels = s.channels := rfl

@[simp] theorem MuxState.resetConn_sends : s.resetConn.sends = s.sends := rfl

end Updates

theorem mem_of_lookupPending {l : List (UInt16 × Pending)} {id : UInt16} {p : Pending}
    (h : lookupPending l id = some p) : (id, p) ∈ l := by
  obtain ⟨⟨k, q⟩, hf, rfl⟩ := Option.map_eq_some'.mp h
  have hk : k = id := by simpa using List.find?_some hf
  subst hk
  exact List.mem_of_find?_eq_some hf

@[simp] theorem mem_erasePending {l : List (UInt16 × Pending)} {id : UInt16} {e : UInt16 × Pending} :
    e ∈ erasePending l id ↔ e ∈ l ∧ e.1 ≠ id := by
  simp [erasePending]

/-! ## One step of a call -/

section Steps

variable {s : MuxState} {j : SendId} {p : Bytes} {w : Option Nat}

/-- `rewrite_id` takes the first candidate when no entry holds it. -/
theorem rewriteIdLoop_free {pending : List (UInt16 × Pending)} {cand : UInt16}
    (h : lookupPending pending cand = none) (fuel tries : Nat) :
    rewriteIdLoop pending (fuel + 1) cand tries = some (cand, cand + 1) := by
  simp [rewriteIdLoop, h]

theorem MuxEvent.apply_call (hj : s.sends j = none) (hlen : 2 ≤ p.length) :
    (MuxEvent.call j p).apply s = some (s.setSend j ⟨p, .rewrite, none⟩) := by
  simp only [MuxEvent.apply, hj, Option.isSome_none, Bool.false_eq_true, if_false,
    if_neg (Nat.not_lt.mpr hlen)]

theorem MuxEvent.apply_rewrite_free (hj : s.sends j = some ⟨p, .rewrite, w⟩)
    (hfree : lookupPending s.pending s.nextId = none) :
    (MuxEvent.rewrite j).apply s =
      some ({ s with nextId := s.nextId + 1 }.setSend j ⟨p, .insert s.nextId, w⟩) := by
  simp only [MuxEvent.apply, hj, rewriteIdLoop_free hfree 65535 0]

theorem MuxEvent.apply_insert {id : UInt16} (hj : s.sends j = some ⟨p, .insert id, w⟩) :
    (MuxEvent.insert j).apply s = some ({ s with
      pending := (id, ⟨ofBe16 (p.getD 0 0) (p.getD 1 0), j⟩) :: erasePending s.pending id
      channels := fun k ↦
        if k = j then .empty
        else if (lookupPending s.pending id).any (fun old : Pending ↦ old.tx = k) then .dropped
        else s.channels k }.setSend j ⟨p, .connect id, w⟩) := by
  simp only [MuxEvent.apply, hj]

theorem MuxEvent.apply_connect_failed {id : UInt16} (hj : s.sends j = some ⟨p, .connect id, w⟩)
    (hconn : s.conn = none) :
    (MuxEvent.connect j false).apply s = some (s.writeFailed j ⟨p, .connect id, w⟩ id) := by
  simp only [MuxEvent.apply, hj, hconn, Bool.false_eq_true, if_false]

end Steps

/-! ## Every request is resolved once, with its own id -/

/-- The id of a call's request (`u16::from_be_bytes([packet[0], packet[1]])`). -/
def Send.originalId (snd : Send) : UInt16 :=
  ofBe16 (snd.packet.getD 0 0) (snd.packet.getD 1 0)

/-- The key a call has filed its request under, once it has. -/
def SendPc.filedUnder : SendPc → Option UInt16
  | .connect id | .write id | .await id => some id
  | _ => none

/-- A call that has not filed its request yet. -/
def SendPc.unfiled : SendPc → Bool
  | .rewrite | .insert _ => true
  | _ => false

/-- A call that has not filed its request is not one that has. -/
theorem MuxState.ne_of_unfiled_of_filed (s : MuxState) {k k' : SendId} {t t' : Send}
    (hk : s.sends k = some t) (hu : t.pc.unfiled = true) (hk' : s.sends k' = some t')
    (hf : t'.pc.filedUnder.isSome) : k ≠ k' := by
  rintro rfl
  rw [hk] at hk'
  cases hk'
  revert hu hf
  cases t.pc <;> simp [SendPc.unfiled, SendPc.filedUnder]

/-- What every reachable client satisfies: each pending entry belongs to a call that filed
it under its key, has its id and an empty channel; a call that has not filed yet, or does
not exist, has an empty channel; and every answer sent or returned carries the id of the
call's request. -/
structure MuxInv (s : MuxState) : Prop where
  filed : ∀ e ∈ s.pending, ∃ snd, s.sends e.2.tx = some snd ∧ snd.pc.filedUnder = some e.1 ∧
    e.2.originalId = snd.originalId ∧ s.channels e.2.tx = .empty
  unfiled : ∀ j snd, s.sends j = some snd → snd.pc.unfiled = true → s.channels j = .empty
  unsent : ∀ j, s.sends j = none → s.channels j = .empty
  sentId : ∀ j b, s.channels j = .sent (some b) →
    ∃ snd, s.sends j = some snd ∧ idOf b = some snd.originalId
  doneId : ∀ j snd b, s.sends j = some snd → snd.pc = .done (some b) →
    idOf b = some snd.originalId

namespace MuxInv

variable {s : MuxState}

theorem init : MuxInv MuxState.init :=
  ⟨nofun, fun _ _ h ↦ (nomatch h), fun _ _ ↦ rfl, fun _ _ h ↦ (nomatch h),
    fun _ _ _ h ↦ (nomatch h)⟩

/-- The invariant reads only the entries, the channels and the calls. -/
theorem of_eq (h : MuxInv s) {s' : MuxState} (hp : s'.pending = s.pending)
    (hc : s'.channels = s.channels) (hs : s'.sends = s.sends) : MuxInv s' := by
  obtain ⟨f, u, n, si, d⟩ := h
  exact ⟨hp ▸ hc ▸ hs ▸ f, hc ▸ hs ▸ u, hc ▸ hs ▸ n, hc ▸ hs ▸ si, hs ▸ d⟩

/-- The entries of a call are filed under the key its counter holds, with its id. -/
theorem key_of_tx (h : MuxInv s) {j : SendId} {snd : Send} (hj : s.sends j = some snd)
    {e : UInt16 × Pending} (he : e ∈ s.pending) (htx : e.2.tx = j) :
    snd.pc.filedUnder = some e.1 ∧ e.2.originalId = snd.originalId := by
  subst htx
  obtain ⟨t, ht, hf, ho, -⟩ := h.filed e he
  rw [hj] at ht
  cases ht
  exact ⟨hf, ho⟩

/-- Two entries of the same call are filed under the same key. -/
theorem key_eq_of_tx_eq (h : MuxInv s) {e e' : UInt16 × Pending} (he : e ∈ s.pending)
    (he' : e' ∈ s.pending) (htx : e.2.tx = e'.2.tx) : e.1 = e'.1 := by
  obtain ⟨snd, hs, -⟩ := h.filed e' he'
  exact Option.some.inj ((h.key_of_tx hs he htx).1.symm.trans (h.key_of_tx hs he' rfl).1)

/-- An answer sent to a call carries that call's id. -/
theorem idOf_sent (h : MuxInv s) {j : SendId} {snd : Send} (hj : s.sends j = some snd)
    {b : Bytes} (hb : s.channels j = .sent (some b)) : idOf b = some snd.originalId := by
  obtain ⟨t, ht, hb⟩ := h.sentId j b hb
  rw [hj] at ht
  cases ht
  exact hb

/-- A call that does not exist has no entry. -/
theorem tx_ne_of_unsent (h : MuxInv s) {j : SendId} (hj : s.sends j = none)
    {e : UInt16 × Pending} (he : e ∈ s.pending) : e.2.tx ≠ j := by
  rintro rfl
  obtain ⟨_, hs, -⟩ := h.filed e he
  rw [hj] at hs
  cases hs

/-- A call with a channel that is not empty has no entry. -/
theorem tx_ne_of_channel (h : MuxInv s) {j : SendId} (hj : s.channels j ≠ .empty)
    {e : UInt16 × Pending} (he : e ∈ s.pending) : e.2.tx ≠ j := by
  rintro rfl
  exact hj (h.filed e he).choose_spec.2.2.2

/-- Replacing call `j` keeps the invariant if the new call is filed under the keys of `j`'s
entries with their id, is unfiled only over an empty channel, and has the id of any answer
sent to `j` or returned. -/
theorem setSend {j : SendId} {snd : Send} (h : MuxInv s)
    (hfiled : ∀ e ∈ s.pending, e.2.tx = j →
      snd.pc.filedUnder = some e.1 ∧ e.2.originalId = snd.originalId)
    (hunfiled : snd.pc.unfiled = true → s.channels j = .empty)
    (hsent : ∀ b, s.channels j = .sent (some b) → idOf b = some snd.originalId)
    (hdone : ∀ b, snd.pc = .done (some b) → idOf b = some snd.originalId) :
    MuxInv (s.setSend j snd) := by
  refine ⟨fun e he ↦ ?_, fun k t hk hku ↦ ?_, fun k hk ↦ ?_, fun k b hk ↦ ?_, fun k t b hk hkd ↦ ?_⟩
  · obtain ⟨t, ht, htf, hto, hc⟩ := h.filed e he
    by_cases hkj : e.2.tx = j
    · exact ⟨snd, by simp [hkj], (hfiled e he hkj).1, (hfiled e he hkj).2, hc⟩
    · exact ⟨t, by simp [hkj, ht], htf, hto, hc⟩
  · simp only [MuxState.setSend_sends, Function.update_apply] at hk
    split_ifs at hk with hkj
    · cases hk
      exact hkj ▸ hunfiled hku
    · exact h.unfiled k t hk hku
  · simp only [MuxState.setSend_sends, Function.update_apply] at hk
    split_ifs at hk
    exact h.unsent k hk
  · by_cases hkj : k = j
    · subst hkj
      exact ⟨snd, by simp, hsent b hk⟩
    · obtain ⟨t, ht, hb⟩ := h.sentId k b hk
      exact ⟨t, by simp [hkj, ht], hb⟩
  · simp only [MuxState.setSend_sends, Function.update_apply] at hk
    split_ifs at hk
    · cases hk
      exact hdone b hkd
    · exact h.doneId k t b hk hkd

/-- A call moves on under the key it holds. -/
theorem setSend_same {j : SendId} {snd snd' : Send} (h : MuxInv s) (hj : s.sends j = some snd)
    (hp : snd'.packet = snd.packet) (hf : snd'.pc.filedUnder = snd.pc.filedUnder)
    (hu : snd'.pc.unfiled = true → snd.pc.unfiled = true)
    (hd : ∀ b, snd'.pc ≠ .done (some b)) : MuxInv (s.setSend j snd') := by
  have horig : snd'.originalId = snd.originalId := by simp only [Send.originalId, hp]
  refine h.setSend (fun e he htx ↦ ?_) (fun hu' ↦ h.unfiled j snd hj (hu hu'))
    (fun _ hb ↦ (h.idOf_sent hj hb).trans (congrArg some horig.symm))
    (fun b hb ↦ absurd hb (hd b))
  rw [hf, horig]
  exact h.key_of_tx hj he htx

/-- A call with no entry left returns an error. -/
theorem setSend_done_none {j : SendId} {snd : Send} (h : MuxInv s) (hj : s.sends j = some snd)
    (hno : ∀ e ∈ s.pending, e.2.tx ≠ j) : MuxInv (s.setSend j { snd with pc := .done none }) :=
  h.setSend (fun e he htx ↦ absurd htx (hno e he)) nofun (fun _ hb ↦ h.idOf_sent hj hb) nofun

theorem removePending (h : MuxInv s) (id : UInt16) : MuxInv (s.removePending id) :=
  ⟨fun e he ↦ h.filed e (mem_erasePending.mp he).1, h.unfiled, h.unsent, h.sentId, h.doneId⟩

/-- A call at `connect id`, `write id` or `await id` fails: its entries, all under `id`,
leave, and it returns an error. -/
theorem fail {j : SendId} {snd : Send} {id : UInt16} (h : MuxInv s) (hj : s.sends j = some snd)
    (hid : snd.pc.filedUnder = some id) :
    MuxInv ((s.removePending id).setSend j { snd with pc := .done none }) := by
  refine (h.removePending id).setSend_done_none hj fun e he htx ↦ ?_
  rw [MuxState.removePending_pending, mem_erasePending] at he
  exact he.2 (Option.some.inj ((h.key_of_tx hj he.1 htx).1.symm.trans hid))

theorem writeFailed {j : SendId} {snd : Send} {id : UInt16} (h : MuxInv s)
    (hj : s.sends j = some snd) (hid : snd.pc.filedUnder = some id) :
    MuxInv (s.writeFailed j snd id) :=
  (h.fail hj hid).of_eq rfl rfl rfl

/-- `insert`: call `j`, which has no entry, files its request under `newId`; the entry it
replaces has its channel dropped. -/
theorem insert {j : SendId} {snd : Send} {newId : UInt16} (h : MuxInv s)
    (hj : s.sends j = some snd) (hpc : snd.pc = .insert newId) :
    MuxInv ({ s with
      pending := (newId, ⟨ofBe16 (snd.packet.getD 0 0) (snd.packet.getD 1 0), j⟩) ::
        erasePending s.pending newId
      channels := fun k ↦
        if k = j then .empty
        else if (lookupPending s.pending newId).any (fun old : Pending ↦ old.tx = k) then .dropped
        else s.channels k }.setSend j { snd with pc := .connect newId }) := by
  have hno : ∀ e ∈ s.pending, e.2.tx ≠ j := fun e he htx ↦ by
    simpa [hpc, SendPc.filedUnder] using (h.key_of_tx hj he htx).1
  -- The dropped channel belongs to a call filed under `newId`, which has no other entry.
  have hold : ∀ k, (lookupPending s.pending newId).any (fun old : Pending ↦ old.tx = k) = true →
      ∃ t, s.sends k = some t ∧ t.pc.filedUnder = some newId ∧
        ∀ e ∈ s.pending, e.1 ≠ newId → e.2.tx ≠ k := fun k hk ↦ by
    obtain ⟨old, hl, rfl⟩ : ∃ old, lookupPending s.pending newId = some old ∧ old.tx = k := by
      revert hk
      cases lookupPending s.pending newId <;> simp
    have hm := mem_of_lookupPending hl
    obtain ⟨t, ht, htf, -⟩ := h.filed _ hm
    exact ⟨t, ht, htf, fun e he hne htx ↦ hne (h.key_eq_of_tx_eq he hm htx)⟩
  refine ⟨fun e he ↦ ?_, fun k t hk hku ↦ ?_, fun k hk ↦ ?_, fun k b hk ↦ ?_, fun k t b hk hkd ↦ ?_⟩
  · simp only [MuxState.setSend_pending, List.mem_cons, mem_erasePending] at he
    rcases he with rfl | ⟨he, hne⟩
    · exact ⟨{ snd with pc := .connect newId }, by simp, by simp [SendPc.filedUnder], rfl, by simp⟩
    · obtain ⟨t, ht, htf, hto, hc⟩ := h.filed e he
      refine ⟨t, by simp [hno e he, ht], htf, hto, ?_⟩
      simp only [MuxState.setSend_channels, hno e he, if_false]
      split_ifs with hd
      · exact absurd rfl ((hold _ hd).choose_spec.2.2 e he hne)
      · exact hc
  · simp only [MuxState.setSend_sends, Function.update_apply] at hk
    split_ifs at hk with hkj
    · cases hk
      cases hku
    simp only [MuxState.setSend_channels, hkj, if_false]
    split_ifs with hd
    · obtain ⟨t', ht', htf', -⟩ := hold k hd
      exact absurd rfl (s.ne_of_unfiled_of_filed hk hku ht' (by simp [htf']))
    · exact h.unfiled k t hk hku
  · simp only [MuxState.setSend_sends, Function.update_apply] at hk
    split_ifs at hk with hkj
    simp only [MuxState.setSend_channels, hkj, if_false]
    split_ifs with hd
    · obtain ⟨t', ht', -⟩ := hold k hd
      rw [hk] at ht'
      cases ht'
    · exact h.unsent k hk
  · simp only [MuxState.setSend_channels] at hk
    split_ifs at hk with hkj
    obtain ⟨t, ht, hb⟩ := h.sentId k b hk
    exact ⟨t, by simp [hkj, ht], hb⟩
  · simp only [MuxState.setSend_sends, Function.update_apply] at hk
    split_ifs at hk
    · cases hk
      cases hkd
    · exact h.doneId k t b hk hkd

/-- A frame under `respId` goes to the channel of the entry filed under it, with the entry's
original id restored. -/
theorem frame {respId : UInt16} {p : Pending} (bytes : Bytes) (hlen : 2 ≤ bytes.length)
    (h : MuxInv s) (hl : lookupPending s.pending respId = some p) :
    MuxInv { s with
      pending := erasePending s.pending respId
      channels := Function.update s.channels p.tx (.sent (some (setId p.originalId bytes))) } := by
  have hm := mem_of_lookupPending hl
  obtain ⟨t, ht, htf, hto, -⟩ := h.filed _ hm
  have hother : ∀ e ∈ s.pending, e.1 ≠ respId → e.2.tx ≠ p.tx :=
    fun e he hne htx ↦ hne (h.key_eq_of_tx_eq he hm htx)
  refine ⟨fun e he ↦ ?_, fun k u hk hku ↦ ?_, fun k hk ↦ ?_, fun k b hk ↦ ?_, h.doneId⟩
  · rw [mem_erasePending] at he
    obtain ⟨u, hu, huf, huo, hc⟩ := h.filed e he.1
    exact ⟨u, hu, huf, huo, by simp [hother e he.1 he.2, hc]⟩
  · have hkp : k ≠ p.tx := s.ne_of_unfiled_of_filed hk hku ht (by simp [htf])
    simpa [hkp] using h.unfiled k u hk hku
  · have hkp : k ≠ p.tx := by
      rintro rfl
      rw [hk] at ht
      cases ht
    simpa [hkp] using h.unsent k hk
  · simp only [Function.update_apply] at hk
    split_ifs at hk with hkp
    · cases hk
      exact ⟨t, hkp ▸ ht, (idOf_setId _ (by simpa using hlen)).trans (congrArg some hto)⟩
    · exact h.sentId k b hk

/-- `fail_all_async` sends an error to every pending entry and empties the map. -/
theorem failAllAsync (h : MuxInv s) (g : Nat) : MuxInv (s.failAllAsync g) := by
  have hany : ∀ k, s.pending.any (·.2.tx = k) = true → ∃ t, s.sends k = some t ∧
      t.pc.filedUnder.isSome := fun k hk ↦ by
    obtain ⟨e, he, hek⟩ := List.any_eq_true.mp hk
    obtain ⟨t, ht, htf, -⟩ := h.filed e he
    exact ⟨t, of_decide_eq_true hek ▸ ht, by simp [htf]⟩
  refine ⟨nofun, fun k t hk hku ↦ ?_, fun k hk ↦ ?_, fun k b hk ↦ ?_, h.doneId⟩
  · simp only [MuxState.failAllAsync]
    split
    · next ha =>
      obtain ⟨t', ht', htf⟩ := hany k ha
      exact absurd rfl (s.ne_of_unfiled_of_filed hk hku ht' htf)
    · exact h.unfiled k t hk hku
  · simp only [MuxState.failAllAsync]
    split
    · next ha =>
      obtain ⟨t', ht', -⟩ := hany k ha
      exact absurd (hk.symm.trans ht') nofun
    · exact h.unsent k hk
  · simp only [MuxState.failAllAsync] at hk
    split at hk
    · cases hk
    · exact h.sentId k b hk

/-- A call reads the answer or the error sent to its channel. -/
theorem receive {j : SendId} {snd : Send} {result : Option Bytes} (h : MuxInv s)
    (hj : s.sends j = some snd) (hc : s.channels j = .sent result) :
    MuxInv (s.setSend j { snd with pc := .done result }) := by
  refine h.setSend (fun e he htx ↦ absurd htx (h.tx_ne_of_channel (by simp [hc]) he)) nofun
    (fun _ hb ↦ h.idOf_sent hj hb) fun b hb ↦ h.idOf_sent hj ?_
  cases hb
  exact hc

/-- Every event keeps the invariant. -/
theorem step (h : MuxInv s) {e : MuxEvent} {s' : MuxState} (he : e.apply s = some s') :
    MuxInv s' := by
  cases e with
  | call j packet =>
    simp only [MuxEvent.apply] at he
    have hnew : ∀ pc : SendPc, (∀ b, pc ≠ .done (some b)) → s.sends j = none →
        MuxInv (s.setSend j ⟨packet, pc, none⟩) := fun pc hpc hj ↦
      h.setSend (fun e he htx ↦ absurd htx (h.tx_ne_of_unsent hj he)) (fun _ ↦ h.unsent j hj)
        (fun b hb ↦ by simp [h.unsent j hj] at hb) (fun b hb ↦ absurd hb (hpc b))
    split_ifs at he with hj <;> cases he <;> exact hnew _ nofun (by simpa using hj)
  | rewrite j =>
    simp only [MuxEvent.apply] at he
    split at he
    · next hj =>
      have hno : ∀ e ∈ s.pending, e.2.tx ≠ j := fun e he htx ↦ by
        simpa [SendPc.filedUnder] using (h.key_of_tx hj he htx).1
      split at he <;> cases he
      · exact h.setSend_done_none hj hno
      · refine MuxInv.setSend_same ?_ hj rfl rfl (fun _ ↦ rfl) nofun
        exact h.of_eq rfl rfl rfl
    · cases he
  | insert j =>
    simp only [MuxEvent.apply] at he
    split at he
    · next hj =>
      cases he
      have h' := h.insert hj rfl
      exact h'
    · cases he
  | connect j ok =>
    simp only [MuxEvent.apply] at he
    split at he
    · next hj =>
      split at he
      · cases he
        exact h.setSend_same hj rfl rfl nofun nofun
      · split_ifs at he <;> cases he
        · refine MuxInv.setSend_same ?_ hj rfl rfl nofun nofun
          exact h.of_eq rfl rfl rfl
        · exact h.writeFailed hj rfl
    · cases he
  | write j ok =>
    simp only [MuxEvent.apply] at he
    split at he
    · next hj =>
      split at he <;> cases he
      · exact h.setSend_same hj rfl rfl nofun nofun
      · exact h.writeFailed hj rfl
    · cases he
  | writeTimeout j =>
    simp only [MuxEvent.apply] at he
    split at he <;> cases he
    · next hj => exact h.writeFailed hj rfl
    · next hj => exact h.writeFailed hj rfl
  | lateAfterWrite j =>
    simp only [MuxEvent.apply] at he
    split at he <;> cases he
    next hj => exact h.fail hj rfl
  | receive j =>
    simp only [MuxEvent.apply] at he
    split at he <;> cases he
    · next hj hc => exact h.receive hj hc
    · next hj hc => exact h.fail hj rfl
  | responseTimeout j =>
    simp only [MuxEvent.apply] at he
    split at he <;> cases he
    next hj => exact (h.fail hj rfl).of_eq rfl rfl rfl
  | frame g bytes =>
    simp only [MuxEvent.apply] at he
    split_ifs at he with hg hlen
    · cases he
      exact h
    split at he <;> cases he
    · next hl => exact h.frame bytes (by omega) hl
    · exact h
  | readFail g =>
    simp only [MuxEvent.apply] at he
    split_ifs at he
    cases he
    exact h.failAllAsync g

end MuxInv

/-- Every reachable client satisfies the invariant. -/
theorem MuxReachable.muxInv {s : MuxState} (h : MuxReachable s) : MuxInv s := by
  induction h with
  | init => exact .init
  | step _ _ he ih => exact ih.step he

/-- What a step can do to a channel: it changes only the channel of a pending entry or of a
call that has not filed its request. -/
theorem channel_step {s s' : MuxState} {e : MuxEvent} (he : e.apply s = some s') (j : SendId) :
    s'.channels j = s.channels j ∨ (∃ p ∈ s.pending, p.2.tx = j) ∨
      ∃ t, s.sends j = some t ∧ t.pc.unfiled = true := by
  cases e <;> simp only [MuxEvent.apply] at he
  case insert k =>
    split at he
    · next hk =>
      cases he
      simp only [MuxState.setSend_channels]
      split_ifs with hjk hd
      · exact .inr (.inr ⟨_, hjk ▸ hk, by rfl⟩)
      · revert hd
        cases hl : lookupPending s.pending _ <;> simp only [Option.any_none, Option.any_some,
          decide_eq_true_eq, Bool.false_eq_true, false_imp_iff]
        rintro rfl
        exact .inr (.inl ⟨_, mem_of_lookupPending hl, rfl⟩)
      · exact .inl rfl
    · cases he
  case frame g bytes =>
    split_ifs at he
    · cases he
      exact .inl rfl
    split at he <;> cases he
    · next p hl =>
      by_cases hj : j = p.tx
      · exact .inr (.inl ⟨_, mem_of_lookupPending hl, hj.symm⟩)
      · simp [hj]
    all_goals exact .inl rfl
  case readFail g =>
    split_ifs at he
    cases he
    simp only [MuxState.failAllAsync]
    split_ifs with ha
    · obtain ⟨p, hp, hpj⟩ := List.any_eq_true.mp ha
      exact .inr (.inl ⟨p, hp, of_decide_eq_true hpj⟩)
    · exact .inl rfl
  all_goals
    repeat' split at he
    all_goals cases he
    all_goals exact .inl rfl

/-- A channel, once resolved, is never resolved again. -/
theorem MuxInv.channel_kept {s s' : MuxState} {e : MuxEvent} (h : MuxInv s)
    (he : e.apply s = some s') {j : SendId} (hj : s.channels j ≠ .empty) :
    s'.channels j = s.channels j := by
  rcases channel_step he j with hc | ⟨p, hp, rfl⟩ | ⟨t, ht, hu⟩
  · exact hc
  · exact absurd rfl (h.tx_ne_of_channel hj hp)
  · exact absurd (h.unfiled j t ht hu) hj

theorem tcpMux_answers_carry_request_id (s : MuxState) (h : MuxReachable s) :
    (∀ j b, s.channels j = .sent (some b) →
      ∃ snd, s.sends j = some snd ∧ idOf b = some snd.originalId) ∧
    (∀ j snd b, s.sends j = some snd → snd.pc = .done (some b) → idOf b = some snd.originalId) ∧
    (∀ (e : MuxEvent) s' j, e.apply s = some s' → s.channels j ≠ .empty →
      s'.channels j = s.channels j) :=
  have hi := h.muxInv
  ⟨hi.sentId, hi.doneId, fun _ _ _ he hj ↦ hi.channel_kept he hj⟩

/-! ## A reader that outlives its connection -/

/-- Call `0` is written on connection `1` and times out, which clears the slot; call `1`
then opens connection `2` and is written on it under id `2`, while the reader of connection
`1` still runs. -/
def staleReaderRun : List MuxEvent :=
  [.call 0 [0x12, 0x34], .rewrite 0, .insert 0, .connect 0 true, .write 0 true,
    .responseTimeout 0, .call 1 [0x56, 0x78], .rewrite 1, .insert 1, .connect 1 true,
    .write 1 true]

/-- The client at the end of `staleReaderRun`. -/
def staleReaderState : MuxState :=
  (MuxEvent.run staleReaderRun MuxState.init).getD MuxState.init

theorem staleReaderState_reachable : MuxReachable staleReaderState :=
  MuxReachable.run .init (rfl : MuxEvent.run staleReaderRun MuxState.init = some staleReaderState)

/-- The reader of connection `1` fails call `1`, written on connection `2`, and clears the
slot while it holds connection `2`; a frame it reads under id `2` completes call `1`. -/
theorem tcpMux_stale_reader_disturbs_new_connection :
    ∃ s₁ s₂, MuxReachable staleReaderState ∧ staleReaderState.conn = some 2 ∧
      1 ∈ staleReaderState.readers ∧ (staleReaderState.sends 1).bind Send.writtenOn = some 2 ∧
      (MuxEvent.readFail 1).apply staleReaderState = some s₁ ∧
      s₁.channels 1 = .sent none ∧ s₁.conn = none ∧
      (MuxEvent.frame 1 [0x00, 0x02, 0x81, 0x80]).apply staleReaderState = some s₂ ∧
      s₂.channels 1 = .sent (some [0x56, 0x78, 0x81, 0x80]) :=
  ⟨_, _, staleReaderState_reachable, rfl, by decide, rfl, rfl, rfl, rfl, rfl, rfl⟩

/-- The answers of the client at the end of `staleReaderRun` carry their request's id. -/
theorem staleReaderState_answers_carry_request_id :
    MuxReachable staleReaderState ∧
    (∀ j b, staleReaderState.channels j = .sent (some b) →
      ∃ snd, staleReaderState.sends j = some snd ∧ idOf b = some snd.originalId) ∧
    (∀ j snd b, staleReaderState.sends j = some snd → snd.pc = .done (some b) →
      idOf b = some snd.originalId) ∧
    (∀ (e : MuxEvent) s' j, e.apply staleReaderState = some s' →
      staleReaderState.channels j ≠ .empty → s'.channels j = staleReaderState.channels j) :=
  ⟨staleReaderState_reachable,
    tcpMux_answers_carry_request_id staleReaderState staleReaderState_reachable⟩

end KixDns
