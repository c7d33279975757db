import KixDns.Transport.TcpMux

/-!
# The UDP socket pool (`UdpClient`)

With a pool, `UdpClient::send` picks a socket and shares it with every other call that
picked it.  It takes an id from the socket's counter (`next_id.fetch_add`), retried while
`inflight` holds the candidate, at most 100 times; files the original id, the upstream
address and a oneshot sender under the new id in `inflight`; rewrites the packet's id and
sends it with `send_to`.  The receive task of the socket reads every datagram, takes the
entry filed under the datagram's id out of `inflight`, and, if the datagram came from that
entry's address, hands it to the waiting call with the original id restored.

## What holds, and what does not

The receive task removes the entry **before** it checks the source.  A datagram that
carries a live id from any other address takes the entry out and drops its sender, so the
waiting call returns `channel closed` and its true answer, arriving later, finds no entry
(`datagram_wrongSource`).

What does hold over every interleaving is `UdpInv`: a call returns an answer only after a
datagram from its own upstream carried the id the call filed its request under, and the
answer is that datagram with the call's original id restored
(`UdpReachable.answer_from_upstream`).

## Modelling choices

* One socket of the pool: calls that pick other sockets do not touch its state.
* `upstream.parse()` fails before the socket's state is touched, so a call is given its
  parsed address; a call is given the packet it sends.
* Each round of the free-id loop is two events, `fetch_add` and `contains_key`, and the
  insert is a third: other calls run between them.
* A datagram is given as the bytes `recv_from` leaves in the 4096-byte buffer; a receive
  error only sleeps.
* `received` and `filed` are ghosts: the datagrams read so far with their source, and the
  id a call filed its request under.
-/

namespace KixDns

/-- A socket address (`std::net::SocketAddr`). -/
structure SocketAddr where
  ip : IpAddr
  port : UInt16
deriving DecidableEq, Repr

/-- An entry of `inflight`: the original id, the upstream address, and the call that
holds the receiver. -/
structure Inflight where
  originalId : UInt16
  expected : SocketAddr
  tx : SendId
deriving DecidableEq, Repr

/-- What a call returns: `Ok(bytes)`, or an error with its message. -/
inductive UdpResult where
  | ok (bytes : Bytes)
  | err (msg : String)
deriving DecidableEq, Repr

/-- Where a call of the pool path of `UdpClient::send` is. -/
inductive UdpPc where
  /-- `state.next_id.fetch_add(1)`, with `attempts` ids found in use so far. -/
  | fetch (attempts : Nat)
  /-- `state.inflight.contains_key(&new_id)`. -/
  | check (newId : UInt16) (attempts : Nat)
  /-- `state.inflight.insert(new_id, (original_id, addr, tx))`. -/
  | insert (newId : UInt16)
  /-- `state.socket.send_to(&new_packet, addr)`. -/
  | sendTo (newId : UInt16)
  /-- `timeout(timeout_dur, rx)`. -/
  | await (newId : UInt16)
  /-- Returned. -/
  | done (result : UdpResult)
deriving DecidableEq, Repr

/-- A call of `send` on the socket. -/
structure UdpSend where
  packet : Bytes
  upstream : SocketAddr
  pc : UdpPc
  /-- The id the call filed its request under, once it has. -/
  filed : Option UInt16
deriving DecidableEq, Repr

/-- The id of a call's request (`u16::from_be_bytes([packet[0], packet[1]])`). -/
def UdpSend.originalId (snd : UdpSend) : UInt16 :=
  ofBe16 (snd.packet.getD 0 0) (snd.packet.getD 1 0)

/-- One socket of the pool: `inflight`, `next_id`, the channels and calls, and the datagrams
its receive task has read. -/
structure UdpState where
  inflight : List (UInt16 × Inflight)
  nextId : UInt16
  channels : SendId → Channel
  sends : SendId → Option UdpSend
  received : List (SocketAddr × Bytes)

/-- `UdpClient::new`: an empty map and `next_id` at `0`. -/
def UdpState.init : UdpState :=
  ⟨[], 0, fun _ ↦ .empty, fun _ ↦ none, []⟩

/-- `inflight.get(&id)`. -/
def lookupInflight (inflight : List (UInt16 × Inflight)) (id : UInt16) : Option Inflight :=
  (inflight.find? (·.1 = id)).map (·.2)

/-- `inflight.remove(&id)`. -/
def eraseInflight (inflight : List (UInt16 × Inflight)) (id : UInt16) :
    List (UInt16 × Inflight) :=
  inflight.filter (·.1 ≠ id)

namespace UdpState

variable (s : UdpState)

/-- Replace call `j`. -/
def setSend (j : SendId) (snd : UdpSend) : UdpState :=
  { s with sends := Function.update s.sends j (some snd) }

/-- `state.inflight.remove(&new_id)` of a call. -/
def removeInflight (id : UInt16) : UdpState :=
  { s with inflight := eraseInflight s.inflight id }

/-- `inflight.insert(new_id, e)` by call `j`: the entry filed under `newId` before, if any,
is dropped with its sender, and the fresh channel of `j` is empty. -/
def insertEntry (j : SendId) (newId : UInt16) (e : Inflight) : UdpState :=
  { s with
    inflight := (newId, e) :: eraseInflight s.inflight newId
    channels := fun k ↦
      if k = j then .empty
      else if (lookupInflight s.inflight newId).any (fun old : Inflight ↦ old.tx = k) then
        .dropped
      else s.channels k }

/-- The receive task hands a datagram from `src` to the entry `e` filed under its id `id`:
it removes the entry, and sends the datagram with the original id restored if `src` is the
entry's address, or drops the sender otherwise. -/
def dispatch (src : SocketAddr) (bytes : Bytes) (id : UInt16) (e : Inflight) : UdpState :=
  { s with
    inflight := eraseInflight s.inflight id
    channels := Function.update s.channels e.tx
      (if src = e.expected then .sent (some (setId e.originalId bytes)) else .dropped) }

end UdpState

/-- What can happen to the socket. -/
inductive UdpEvent where
  /-- `send` is called with `packet` for `upstream`. -/
  | call (j : SendId) (packet : Bytes) (upstream : SocketAddr)
  /-- Call `j` takes the next id. -/
  | fetch (j : SendId)
  /-- Call `j` checks its id against `inflight`. -/
  | check (j : SendId)
  /-- Call `j` files its request. -/
  | insert (j : SendId)
  /-- Call `j` sends; `error` is the error `send_to` returns, if any. -/
  | sendTo (j : SendId) (error : Option String)
  /-- The receive task reads a datagram from `src`. -/
  | datagram (src : SocketAddr) (bytes : Bytes)
  /-- Call `j` reads its channel. -/
  | receive (j : SendId)
  /-- The timeout on the channel expires. -/
  | timeout (j : SendId)

/-- The socket after an event; `none` when the event cannot happen. -/
def UdpEvent.apply : UdpEvent → UdpState → Option UdpState
  | .call j packet upstream, s =>
    if (s.sends j).isSome then none
    else if packet.length < 2 then
      some (s.setSend j ⟨packet, upstream, .done (.err "packet too short"), none⟩)
    else some (s.setSend j ⟨packet, upstream, .fetch 0, none⟩)
  | .fetch j, s =>
    match s.sends j with
    | some snd@⟨_, _, .fetch attempts, _⟩ =>
      some ({ s with nextId := s.nextId + 1 }.setSend j
        { snd with pc := .check s.nextId attempts })
    | _ => none
  | .check j, s =>
    match s.sends j with
    | some snd@⟨_, _, .check newId attempts, _⟩ =>
      if (lookupInflight s.inflight newId).isNone then
        some (s.setSend j { snd with pc := .insert newId })
      else if attempts + 1 > 100 then
        some (s.setSend j
          { snd with pc := .done (.err "udp pool exhausted (too many inflight requests)") })
      else some (s.setSend j { snd with pc := .fetch (attempts + 1) })
    | _ => none
  | .insert j, s =>
    match s.sends j with
    | some snd@⟨packet, upstream, .insert newId, _⟩ =>
      some ((s.insertEntry j newId ⟨ofBe16 (packet.getD 0 0) (packet.getD 1 0), upstream, j⟩).setSend
        j { snd with pc := .sendTo newId, filed := some newId })
    | _ => none
  | .sendTo j error, s =>
    match s.sends j with
    | some snd@⟨_, _, .sendTo newId, _⟩ =>
      match error with
      | none => some (s.setSend j { snd with pc := .await newId })
      | some msg => some ((s.removeInflight newId).setSend j { snd with pc := .done (.err msg) })
    | _ => none
  | .datagram src bytes, s =>
    if 4096 < bytes.length then none
    else
      let s := { s with received := s.received ++ [(src, bytes)] }
      if bytes.length < 2 then some s
      else
        let id := ofBe16 (bytes.getD 0 0) (bytes.getD 1 0)
        match lookupInflight s.inflight id with
        | some e => some (s.dispatch src bytes id e)
        | none => some s
  | .receive j, s =>
    match s.sends j, s.channels j with
    | some snd@⟨_, _, .await _, _⟩, .sent (some b) => some (s.setSend j { snd with pc := .done (.ok b) })
    | some snd@⟨_, _, .await _, _⟩, .dropped =>
      some (s.setSend j { snd with pc := .done (.err "channel closed") })
    | _, _ => none
  | .timeout j, s =>
    match s.sends j with
    | some snd@⟨_, _, .await newId, _⟩ =>
      some ((s.removeInflight newId).setSend j { snd with pc := .done (.err "upstream timeout") })
    | _ => none

/-- The socket after a sequence of events, if each can happen. -/
def UdpEvent.run : List UdpEvent → UdpState → Option UdpState
  | [], s => some s
  | e :: es, s => (e.apply s).bind (run es)

/-- The states a fresh socket reaches. -/
inductive UdpReachable : UdpState → Prop
  | init : UdpReachable UdpState.init
  | step {s s' : UdpState} (e : UdpEvent) : UdpReachable s → e.apply s = some s' →
      UdpReachable s'

theorem UdpReachable.run : ∀ {es : List UdpEvent} {s s' : UdpState}, UdpReachable s →
    UdpEvent.run es s = some s' → UdpReachable s'
  | [], _, _, hs, h => by cases h; exact hs
  | e :: es, s, s', hs, h => by
    simp only [UdpEvent.run, Option.bind_eq_some] at h
    obtain ⟨s₁, h₁, h₂⟩ := h
    exact UdpReachable.run (.step e hs h₁) h₂

theorem UdpEvent.run_append (es es' : List UdpEvent) (s : UdpState) :
    UdpEvent.run (es ++ es') s = (UdpEvent.run es s).bind (UdpEvent.run es') := by
  induction es generalizing s with
  | nil => rfl
  | cons e es ih =>
    simp only [List.cons_append, UdpEvent.run, Option.bind_assoc]
    cases e.apply s <;> simp [ih]

/-! ## The state after each kind of update -/

section Updates

variable (s : UdpState)

@[simp] theorem UdpState.setSend_inflight (j : SendId) (snd : UdpSend) :
    (s.setSend j snd).inflight = s.inflight := rfl

@[simp] theorem UdpState.setSend_channels (j : SendId) (snd : UdpSend) :
    (s.setSend j snd).channels = s.channels := rfl

@[simp] theorem UdpState.setSend_sends (j : SendId) (snd : UdpSend) :
    (s.setSend j snd).sends = Function.update s.sends j (some snd) := rfl

@[simp] theorem UdpState.setSend_received (j : SendId) (snd : UdpSend) :
    (s.setSend j snd).received = s.received := rfl

@[simp] theorem UdpState.setSend_nextId (j : SendId) (snd : UdpSend) :
    (s.setSend j snd).nextId = s.nextId := rfl

theorem UdpState.sends_setSend_self (j : SendId) (snd : UdpSend) :
    (s.setSend j snd).sends j = some snd :=
  Function.update_same _ _ _

@[simp] theorem UdpState.insertEntry_sends (j : SendId) (newId : UInt16) (e : Inflight) :
    (s.insertEntry j newId e).sends = s.sends := rfl

@[simp] theorem UdpState.insertEntry_received (j : SendId) (newId : UInt16) (e : Inflight) :
    (s.insertEntry j newId e).received = s.received := rfl

@[simp] theorem UdpState.insertEntry_inflight (j : SendId) (newId : UInt16) (e : Inflight) :
    (s.insertEntry j newId e).inflight = (newId, e) :: eraseInflight s.inflight newId := rfl

@[simp] theorem UdpState.removeInflight_inflight (id : UInt16) :
    (s.removeInflight id).inflight = eraseInflight s.inflight id := rfl

@[simp] theorem UdpState.removeInflight_channels (id : UInt16) :
    (s.removeInflight id).channels = s.channels := rfl

@[simp] theorem UdpState.removeInflight_sends (id : UInt16) :
    (s.removeInflight id).sends = s.sends := rfl

@[simp] theorem UdpState.removeInflight_received (id : UInt16) :
    (s.removeInflight id).received = s.received := rfl

end Updates

theorem mem_of_lookupInflight {l : List (UInt16 × Inflight)} {id : UInt16} {e : Inflight}
    (h : lookupInflight l id = some e) : (id, e) ∈ l := by
  obtain ⟨⟨k, q⟩, hf, rfl⟩ := Option.map_eq_some'.mp h
  have hk : k = id := by simpa using List.find?_some hf
  subst hk
  exact List.mem_of_find?_eq_some hf

@[simp] theorem mem_eraseInflight {l : List (UInt16 × Inflight)} {id : UInt16}
    {e : UInt16 × Inflight} : e ∈ eraseInflight l id ↔ e ∈ l ∧ e.1 ≠ id := by
  simp [eraseInflight]

@[simp] theorem lookupInflight_eraseInflight (l : List (UInt16 × Inflight)) (id : UInt16) :
    lookupInflight (eraseInflight l id) id = none := by
  simp [lookupInflight, eraseInflight, List.find?_filter]

/-! ## One step of a call -/

section Steps

variable {s : UdpState} {j : SendId} {p : Bytes} {u : SocketAddr} {f : Option UInt16}

theorem UdpEvent.apply_call (hj : s.sends j = none) (hlen : 2 ≤ p.length) :
    (UdpEvent.call j p u).apply s = some (s.setSend j ⟨p, u, .fetch 0, none⟩) := by
  simp only [UdpEvent.apply, hj, Option.isSome_none, Bool.false_eq_true, if_false,
    if_neg (Nat.not_lt.mpr hlen)]

theorem UdpEvent.apply_fetch {a : Nat} (hj : s.sends j = some ⟨p, u, .fetch a, f⟩) :
    (UdpEvent.fetch j).apply s =
      some ({ s with nextId := s.nextId + 1 }.setSend j ⟨p, u, .check s.nextId a, f⟩) := by
  simp only [UdpEvent.apply, hj]

theorem UdpEvent.apply_check_free {id : UInt16} {a : Nat}
    (hj : s.sends j = some ⟨p, u, .check id a, f⟩) (hfree : lookupInflight s.inflight id = none) :
    (UdpEvent.check j).apply s = some (s.setSend j ⟨p, u, .insert id, f⟩) := by
  simp only [UdpEvent.apply, hj, hfree, Option.isNone_none, if_true]

theorem UdpEvent.apply_insert {id : UInt16} (hj : s.sends j = some ⟨p, u, .insert id, f⟩) :
    (UdpEvent.insert j).apply s = some ((s.insertEntry j id
      ⟨ofBe16 (p.getD 0 0) (p.getD 1 0), u, j⟩).setSend j ⟨p, u, .sendTo id, some id⟩) := by
  simp only [UdpEvent.apply, hj]

theorem UdpEvent.apply_sendTo_error {id : UInt16} (hj : s.sends j = some ⟨p, u, .sendTo id, f⟩)
    (msg : String) :
    (UdpEvent.sendTo j (some msg)).apply s =
      some ((s.removeInflight id).setSend j ⟨p, u, .done (.err msg), f⟩) := by
  simp only [UdpEvent.apply, hj]

end Steps

theorem idOf_eq_ofBe16 {bytes : Bytes} (h : 2 ≤ bytes.length) :
    idOf bytes = some (ofBe16 (bytes.getD 0 0) (bytes.getD 1 0)) := by
  match bytes, h with
  | _ :: _ :: _, _ => rfl

/-! ## Every answer comes from the call's upstream -/

/-- `b` answers `snd`: a datagram from `snd`'s upstream carried the id `snd` filed its
request under, and `b` is that datagram with `snd`'s original id restored. -/
def Answered (received : List (SocketAddr × Bytes)) (snd : UdpSend) (b : Bytes) : Prop :=
  ∃ id d, snd.filed = some id ∧ (snd.upstream, d) ∈ received ∧ idOf d = some id ∧
    b = setId snd.originalId d

theorem Answered.mono {received received' : List (SocketAddr × Bytes)} {snd : UdpSend}
    {b : Bytes} (h : Answered received snd b) (hsub : received ⊆ received') :
    Answered received' snd b := by
  obtain ⟨id, d, hf, hd, hid, rfl⟩ := h
  exact ⟨id, d, hf, hsub hd, hid, rfl⟩

/-- An answer reads only the call's packet, upstream and filed id. -/
theorem Answered.congr {received : List (SocketAddr × Bytes)} {snd snd' : UdpSend} {b : Bytes}
    (h : Answered received snd b) (hp : snd'.packet = snd.packet)
    (hu : snd'.upstream = snd.upstream) (hf : snd'.filed = snd.filed) :
    Answered received snd' b := by
  obtain ⟨id, d, hfid, hd, hid, rfl⟩ := h
  exact ⟨id, d, hf.trans hfid, hu ▸ hd, hid, by simp only [UdpSend.originalId, hp]⟩

/-- A call before its insert. -/
def UdpPc.unfiled : UdpPc → Bool
  | .fetch _ | .check _ _ | .insert _ => true
  | _ => false

/-- What every reachable socket satisfies: each entry of `inflight` is filed under the id
its call holds, with that call's id and upstream; a call before its insert has filed
nothing; and every answer sent to a channel or returned answers its call. -/
structure UdpInv (s : UdpState) : Prop where
  filed : ∀ e ∈ s.inflight, ∃ snd, s.sends e.2.tx = some snd ∧ snd.filed = some e.1 ∧
    e.2.originalId = snd.originalId ∧ e.2.expected = snd.upstream
  unfiled : ∀ j snd, s.sends j = some snd → snd.pc.unfiled = true → snd.filed = none
  sent : ∀ j b, s.channels j = .sent (some b) →
    ∃ snd, s.sends j = some snd ∧ Answered s.received snd b
  done : ∀ j snd b, s.sends j = some snd → snd.pc = .done (.ok b) → Answered s.received snd b

namespace UdpInv

variable {s : UdpState}

theorem init : UdpInv UdpState.init :=
  ⟨nofun, fun _ _ h ↦ (nomatch h), fun _ _ h ↦ (nomatch h), fun _ _ _ h ↦ (nomatch h)⟩

/-- The invariant reads only the map, the channels, the calls and the datagrams. -/
theorem of_eq (h : UdpInv s) {s' : UdpState} (hi : s'.inflight = s.inflight)
    (hc : s'.channels = s.channels) (hs : s'.sends = s.sends) (hr : s'.received = s.received) :
    UdpInv s' := by
  obtain ⟨f, u, se, d⟩ := h
  exact ⟨hi ▸ hs ▸ f, hs ▸ u, hc ▸ hs ▸ hr ▸ se, hs ▸ hr ▸ d⟩

/-- The entries of a call are filed under the id it holds, with its id and upstream. -/
theorem key_of_tx (h : UdpInv s) {j : SendId} {snd : UdpSend} (hj : s.sends j = some snd)
    {e : UInt16 × Inflight} (he : e ∈ s.inflight) (htx : e.2.tx = j) :
    snd.filed = some e.1 ∧ e.2.originalId = snd.originalId ∧ e.2.expected = snd.upstream := by
  subst htx
  obtain ⟨t, ht, hf⟩ := h.filed e he
  rw [hj] at ht
  cases ht
  exact hf

/-- Replacing call `j` keeps the invariant if the new call holds the id, original id and
upstream of `j`'s entries, has filed nothing while unfiled, and is answered by any answer
sent to `j` or returned. -/
theorem setSend {j : SendId} {snd : UdpSend} (h : UdpInv s)
    (hfiled : ∀ e ∈ s.inflight, e.2.tx = j →
      snd.filed = some e.1 ∧ e.2.originalId = snd.originalId ∧ e.2.expected = snd.upstream)
    (hunfiled : snd.pc.unfiled = true → snd.filed = none)
    (hsent : ∀ b, s.channels j = .sent (some b) → Answered s.received snd b)
    (hdone : ∀ b, snd.pc = .done (.ok b) → Answered s.received snd b) :
    UdpInv (s.setSend j snd) := by
  refine ⟨fun e he ↦ ?_, fun k t hk hku ↦ ?_, fun k b hk ↦ ?_, fun k t b hk hkd ↦ ?_⟩
  · by_cases hkj : e.2.tx = j
    · exact ⟨snd, by simp [hkj], hfiled e he hkj⟩
    · obtain ⟨t, ht, hf⟩ := h.filed e he
      exact ⟨t, by simp [hkj, ht], hf⟩
  · simp only [UdpState.setSend_sends, Function.update_apply] at hk
    split_ifs at hk
    · cases hk
      exact hunfiled hku
    · exact h.unfiled k t hk hku
  · by_cases hkj : k = j
    · subst hkj
      exact ⟨snd, by simp, hsent b hk⟩
    · obtain ⟨t, ht, hb⟩ := h.sent k b hk
      exact ⟨t, by simp [hkj, ht], hb⟩
  · simp only [UdpState.setSend_sends, Function.update_apply] at hk
    split_ifs at hk
    · cases hk
      exact hdone b hkd
    · exact h.done k t b hk hkd

/-- A call moves on with the packet, upstream and filed id it holds. -/
theorem setSend_same {j : SendId} {snd snd' : UdpSend} (h : UdpInv s)
    (hj : s.sends j = some snd) (hp : snd'.packet = snd.packet) (hu : snd'.upstream = snd.upstream)
    (hf : snd'.filed = snd.filed) (hunf : snd'.pc.unfiled = true → snd.pc.unfiled = true)
    (hd : ∀ b, snd'.pc ≠ .done (.ok b)) : UdpInv (s.setSend j snd') := by
  have horig : snd'.originalId = snd.originalId := by simp only [UdpSend.originalId, hp]
  refine h.setSend (fun e he htx ↦ ?_) (fun hu' ↦ hf.trans (h.unfiled j snd hj (hunf hu')))
    (fun b hb ↦ ?_) (fun b hb ↦ absurd hb (hd b))
  · rw [hf, horig, hu]
    exact h.key_of_tx hj he htx
  · obtain ⟨t, ht, ha⟩ := h.sent j b hb
    rw [hj] at ht
    cases ht
    exact ha.congr hp hu hf

theorem removeInflight (h : UdpInv s) (id : UInt16) : UdpInv (s.removeInflight id) :=
  ⟨fun e he ↦ h.filed e (mem_eraseInflight.mp he).1, h.unfiled, h.sent, h.done⟩

/-- A call files its request under `newId`; the entry it replaces loses its channel. -/
theorem insert {j : SendId} {snd : UdpSend} {newId : UInt16} (h : UdpInv s)
    (hj : s.sends j = some snd) (hpc : snd.pc = .insert newId) :
    UdpInv ((s.insertEntry j newId ⟨snd.originalId, snd.upstream, j⟩).setSend j
      { snd with pc := .sendTo newId, filed := some newId }) := by
  have hnone : snd.filed = none := h.unfiled j snd hj (by simp [hpc, UdpPc.unfiled])
  have hnot : ∀ e ∈ s.inflight, e.2.tx ≠ j := fun e he htx ↦ by
    simpa [hnone] using (h.key_of_tx hj he htx).1
  refine ⟨fun e he ↦ ?_, fun k t hk hku ↦ ?_, fun k b hk ↦ ?_, fun k t b hk hkd ↦ ?_⟩
  · rcases List.mem_cons.mp he with rfl | he
    · exact ⟨{ snd with pc := .sendTo newId, filed := some newId }, by simp, rfl, rfl, rfl⟩
    · have he' := (mem_eraseInflight.mp he).1
      obtain ⟨t, ht, hf⟩ := h.filed e he'
      exact ⟨t, by simp [hnot e he', ht], hf⟩
  · simp only [UdpState.setSend_sends, Function.update_apply] at hk
    split_ifs at hk
    · cases hk
      simp [UdpPc.unfiled] at hku
    · exact h.unfiled k t hk hku
  · simp only [UdpState.setSend_channels, UdpState.insertEntry] at hk
    split_ifs at hk with hkj
    obtain ⟨t, ht, ha⟩ := h.sent k b hk
    exact ⟨t, by simp [hkj, ht], ha⟩
  · simp only [UdpState.setSend_sends, Function.update_apply] at hk
    split_ifs at hk
    · cases hk
      cases hkd
    · exact h.done k t b hk hkd

/-- The receive task reads a datagram: the datagrams read so far grow. -/
theorem read (h : UdpInv s) (src : SocketAddr) (bytes : Bytes) :
    UdpInv { s with received := s.received ++ [(src, bytes)] } := by
  have hsub : s.received ⊆ s.received ++ [(src, bytes)] := List.subset_append_left _ _
  exact ⟨h.filed, h.unfiled, fun j b hj ↦ (h.sent j b hj).imp fun _ ⟨ht, ha⟩ ↦ ⟨ht, ha.mono hsub⟩,
    fun j snd b hj hd ↦ (h.done j snd b hj hd).mono hsub⟩

/-- The receive task hands a datagram it has read to the entry under the datagram's id. -/
theorem dispatch {src : SocketAddr} {bytes : Bytes} {e : Inflight} (h : UdpInv s)
    (hread : (src, bytes) ∈ s.received) (hlen : 2 ≤ bytes.length)
    (he : lookupInflight s.inflight (ofBe16 (bytes.getD 0 0) (bytes.getD 1 0)) = some e) :
    UdpInv (s.dispatch src bytes (ofBe16 (bytes.getD 0 0) (bytes.getD 1 0)) e) := by
  have hm := mem_of_lookupInflight he
  obtain ⟨t, ht, hf, ho, hx⟩ := h.filed _ hm
  refine ⟨fun e' he' ↦ h.filed e' (mem_eraseInflight.mp he').1, h.unfiled,
    fun k b hk ↦ ?_, h.done⟩
  simp only [UdpState.dispatch, Function.update_apply] at hk
  split_ifs at hk with hkt hsrc
  · cases hk
    refine ⟨t, hkt ▸ ht, _, bytes, hf, ?_, idOf_eq_ofBe16 hlen, by rw [ho]⟩
    rw [← hx, ← hsrc]
    exact hread
  · exact h.sent k b hk

/-- Every event keeps the invariant. -/
theorem step (h : UdpInv s) {e : UdpEvent} {s' : UdpState} (he : e.apply s = some s') :
    UdpInv s' := by
  cases e with
  | call j packet upstream =>
    simp only [UdpEvent.apply] at he
    have hnew : ∀ pc : UdpPc, (∀ b, pc ≠ .done (.ok b)) → s.sends j = none →
        UdpInv (s.setSend j ⟨packet, upstream, pc, none⟩) := fun pc hpc hj ↦
      h.setSend (fun e he htx ↦ by obtain ⟨_, ht, -⟩ := h.filed e he; rw [htx, hj] at ht; cases ht)
        (fun _ ↦ rfl) (fun b hb ↦ by obtain ⟨_, ht, -⟩ := h.sent j b hb; rw [hj] at ht; cases ht)
        (fun b hb ↦ absurd hb (hpc b))
    split_ifs at he with hj <;> cases he <;> exact hnew _ nofun (by simpa using hj)
  | fetch j =>
    simp only [UdpEvent.apply] at he
    split at he <;> cases he
    next hj =>
      exact UdpInv.setSend_same (h.of_eq rfl rfl rfl rfl) hj rfl rfl rfl (fun _ ↦ rfl) nofun
  | check j =>
    simp only [UdpEvent.apply] at he
    split at he
    · next hj =>
      split_ifs at he <;> cases he <;>
        exact h.setSend_same hj rfl rfl rfl (fun _ ↦ rfl) nofun
    · cases he
  | insert j =>
    simp only [UdpEvent.apply] at he
    split at he
    · next hj =>
      cases he
      have hi := h.insert hj rfl
      exact hi
    · cases he
  | sendTo j error =>
    simp only [UdpEvent.apply] at he
    split at he
    · next hj =>
      split at he <;> cases he
      · exact h.setSend_same hj rfl rfl rfl nofun nofun
      · exact (h.removeInflight _).setSend_same hj rfl rfl rfl nofun nofun
    · cases he
  | datagram src bytes =>
    simp only [UdpEvent.apply] at he
    have hr := h.read src bytes
    split_ifs at he with hmax hlen
    · cases he
      exact hr
    · split at he <;> cases he
      · next hl =>
        exact hr.dispatch (List.mem_append_right _ (List.mem_singleton_self _)) (by omega) hl
      · exact hr
  | receive j =>
    simp only [UdpEvent.apply] at he
    split at he <;> cases he
    · next hj hc =>
      obtain ⟨t, ht, ha⟩ := h.sent j _ hc
      rw [hj] at ht
      cases ht
      exact h.setSend (fun e he htx ↦ h.key_of_tx hj he htx) nofun
        (fun b hb ↦ (h.sent j b hb).elim fun t ⟨ht, hb⟩ ↦ by rw [hj] at ht; cases ht; exact hb)
        (fun b hb ↦ by cases hb; exact ha)
    · next hj hc => exact h.setSend_same hj rfl rfl rfl nofun nofun
  | timeout j =>
    simp only [UdpEvent.apply] at he
    split at he <;> cases he
    next hj => exact (h.removeInflight _).setSend_same hj rfl rfl rfl nofun nofun

end UdpInv

/-- Every reachable socket satisfies the invariant. -/
theorem UdpReachable.udpInv {s : UdpState} (h : UdpReachable s) : UdpInv s := by
  induction h with
  | init => exact .init
  | step _ _ he ih => exact ih.step he

theorem two_le_length_of_idOf {d : Bytes} {id : UInt16} (h : idOf d = some id) : 2 ≤ d.length := by
  match d, h with
  | _ :: _ :: _, _ => simp

/-- **A call returns only its own answer**: one from its upstream, carrying the id it filed
its request under, with its original id restored. -/
theorem UdpReachable.answer_from_upstream {s : UdpState} (h : UdpReachable s) {j : SendId}
    {snd : UdpSend} {b : Bytes} (hj : s.sends j = some snd) (hdone : snd.pc = .done (.ok b)) :
    ∃ id d, snd.filed = some id ∧ (snd.upstream, d) ∈ s.received ∧ idOf d = some id ∧
      b = setId snd.originalId d ∧ idOf b = some snd.originalId := by
  obtain ⟨id, d, hf, hd, hid, rfl⟩ := h.udpInv.done j snd b hj hdone
  exact ⟨id, d, hf, hd, hid, rfl, idOf_setId _ (two_le_length_of_idOf hid)⟩

/-! ## A datagram from another address -/

/-- A datagram that carries the id of an entry from another address takes the entry out of
`inflight` and drops its sender, so the call waiting on it returns `channel closed`. -/
theorem datagram_wrongSource (s : UdpState) {src : SocketAddr} {bytes : Bytes} {e : Inflight}
    {snd : UdpSend} {newId : UInt16} (hlen : 2 ≤ bytes.length) (hmax : bytes.length ≤ 4096)
    (hid : idOf bytes = some newId) (he : lookupInflight s.inflight newId = some e)
    (hsrc : src ≠ e.expected) (hsnd : s.sends e.tx = some snd) (hpc : snd.pc = .await newId) :
    ∃ s' s'', (UdpEvent.datagram src bytes).apply s = some s' ∧
      lookupInflight s'.inflight newId = none ∧
      (UdpEvent.receive e.tx).apply s' = some s'' ∧
      s''.sends e.tx = some { snd with pc := .done (.err "channel closed") } := by
  have hnew : ofBe16 (bytes.getD 0 0) (bytes.getD 1 0) = newId :=
    Option.some.inj ((idOf_eq_ofBe16 hlen).symm.trans hid)
  subst hnew
  obtain ⟨packet, upstream, pc, filed⟩ := snd
  subst hpc
  let s' := ({ s with received := s.received ++ [(src, bytes)] }).dispatch src bytes
    (ofBe16 (bytes.getD 0 0) (bytes.getD 1 0)) e
  refine ⟨s', s'.setSend e.tx ⟨packet, upstream, .done (.err "channel closed"), filed⟩, ?_,
    lookupInflight_eraseInflight _ _, ?_, ?_⟩
  · simp only [UdpEvent.apply, if_neg (Nat.not_lt.mpr hmax), if_neg (Nat.not_lt.mpr hlen)]
    rw [he]
  · simp only [s', UdpEvent.apply, UdpState.dispatch, hsnd, Function.update_same, if_neg hsrc]
  · exact Function.update_same _ _ _

/-- An address of an upstream, `1.1.1.1:53`. -/
def upstreamAddr : SocketAddr := ⟨.v4 0x01010101, 53⟩

/-- A query header with id `0x1234`. -/
def headerQuery : Bytes := [0x12, 0x34, 0x01, 0x00, 0x00, 0x00, 0x00, 0x00, 0x00, 0x00, 0x00, 0x00]

/-- Call `0` sends `headerQuery` to `upstreamAddr` on a fresh socket and waits. -/
def pendingRun : List UdpEvent :=
  [.call 0 headerQuery upstreamAddr, .fetch 0, .check 0, .insert 0, .sendTo 0 none]

/-- Any datagram with a live id from another address fails the waiting call, and a fresh
socket reaches a call waiting on such an entry; a call returns an answer only from its
upstream, with the id it filed under and its original id restored. -/
theorem udpPool_wrongSource_fails_request :
    (∀ (s : UdpState) (src : SocketAddr) (bytes : Bytes) (e : Inflight) (snd : UdpSend)
        (newId : UInt16),
      2 ≤ bytes.length → bytes.length ≤ 4096 → idOf bytes = some newId →
      lookupInflight s.inflight newId = some e → src ≠ e.expected →
      s.sends e.tx = some snd → snd.pc = .await newId →
      ∃ s' s'', (UdpEvent.datagram src bytes).apply s = some s' ∧
        lookupInflight s'.inflight newId = none ∧
        (UdpEvent.receive e.tx).apply s' = some s'' ∧
        s''.sends e.tx = some { snd with pc := .done (.err "channel closed") }) ∧
    (∃ s snd, UdpReachable s ∧ s.sends 0 = some snd ∧ snd.pc = .await 0 ∧
      lookupInflight s.inflight 0 = some ⟨0x1234, upstreamAddr, 0⟩) ∧
    ∀ s, UdpReachable s → ∀ j snd b, s.sends j = some snd → snd.pc = .done (.ok b) →
      ∃ id d, snd.filed = some id ∧ (snd.upstream, d) ∈ s.received ∧ idOf d = some id ∧
        b = setId snd.originalId d ∧ idOf b = some snd.originalId :=
  ⟨fun s _ _ _ _ _ hlen hmax hid he hsrc hsnd hpc ↦
      datagram_wrongSource s hlen hmax hid he hsrc hsnd hpc,
    ⟨_, _, @UdpReachable.run pendingRun _ _ .init rfl, rfl, rfl, rfl⟩,
    fun _ hs _ _ _ hj hdone ↦ hs.answer_from_upstream hj hdone⟩

end KixDns
