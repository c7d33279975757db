import KixDns.Transport.UdpPool
import Mathlib.Data.String.Basic

/-!
# Upstream ids reused while live

Both clients take the new id of a request from a 16-bit counter, check it against the map
of live requests, and only later file the request under it.  `UdpClient::send` does so with
`next_id.fetch_add`, `contains_key` and `inflight.insert`; `TcpMuxClient::send` with
`rewrite_id` and `pending.insert`.  Nothing reserves the id in between.

## The run

A call takes id `x` and is preempted before its insert.  Meanwhile 65535 other calls each
take an id, file their request and fail to send it (`send_to` or the connect fails), which
removes the entry again.  The counter has then gone all the way round, and the next call
takes `x` as well.

* It files its request under `x`.  Then the first call resumes and its insert replaces that
  live entry, dropping the second call's sender.
* The second call's send then fails, and its error path removes the entry under `x`, which
  is now the first call's.  The first call is left with no entry, so its answer can never
  reach it.

`udp_idReusedWhileLive` and `tcp_idReusedWhileLive` build these runs from a fresh client.
The 65535 calls in between are one lemma each, by induction on their number
(`run_failedSends`, `run_failedWrites`).
-/

namespace KixDns

/-! ## The UDP pool -/

/-- Call `j` takes an id, files its request and fails to send it with `msg`. -/
def failedSend (j : SendId) (msg : String) : List UdpEvent :=
  [.call j headerQuery upstreamAddr, .fetch j, .check j, .insert j, .sendTo j (some msg)]

/-- Calls `base`, …, `base + n - 1`, one after another, each failing its send. -/
def failedSends (msg : String) : Nat → Nat → List UdpEvent
  | _, 0 => []
  | base, n + 1 => failedSend base msg ++ failedSends msg (base + 1) n

/-- A call that fails its send leaves `inflight` empty and the counter one further on. -/
theorem run_failedSend (s : UdpState) (j : SendId) (msg : String) (hj : s.sends j = none)
    (hin : s.inflight = []) :
    ∃ s', UdpEvent.run (failedSend j msg) s = some s' ∧ s'.inflight = [] ∧
      s'.nextId.toNat = (s.nextId.toNat + 1) % 65536 ∧
      ∀ k : Nat, k ≠ j → s'.sends k = s.sends k ∧ s'.channels k = s.channels k := by
  rw [failedSend, UdpEvent.run, UdpEvent.apply_call hj (by decide), Option.some_bind,
    UdpEvent.run, UdpEvent.apply_fetch (UdpState.sends_setSend_self _ _ _), Option.some_bind,
    UdpEvent.run, UdpEvent.apply_check_free (UdpState.sends_setSend_self _ _ _)
      (by simp [hin, lookupInflight]),
    Option.some_bind, UdpEvent.run, UdpEvent.apply_insert (UdpState.sends_setSend_self _ _ _),
    Option.some_bind, UdpEvent.run, UdpEvent.apply_sendTo_error (UdpState.sends_setSend_self _ _ _),
    Option.some_bind, UdpEvent.run]
  refine ⟨_, rfl, by simp [hin, eraseInflight], UInt16.toNat_add _ 1, fun k hk ↦ ⟨?_, ?_⟩⟩
  · simp [Function.update_noteq hk]
  · simp [UdpState.insertEntry, hk, hin, lookupInflight]

theorem run_failedSends (msg : String) : ∀ (n base : Nat) (s : UdpState), s.inflight = [] →
    (∀ i : Nat, i < n → s.sends (base + i) = none) →
    ∃ s', UdpEvent.run (failedSends msg base n) s = some s' ∧ s'.inflight = [] ∧
      s'.nextId.toNat = (s.nextId.toNat + n) % 65536 ∧
      ∀ k : Nat, (k < base ∨ base + n ≤ k) → s'.sends k = s.sends k ∧ s'.channels k = s.channels k
  | 0, _, s, hin, _ =>
    ⟨s, rfl, hin, (Nat.mod_eq_of_lt s.nextId.toNat_lt_size).symm, fun _ _ ↦ ⟨rfl, rfl⟩⟩
  | n + 1, base, s, hin, hfree => by
    obtain ⟨s₁, h₁, hin₁, hid₁, hk₁⟩ := run_failedSend s base msg (hfree 0 (Nat.zero_lt_succ _)) hin
    obtain ⟨s₂, h₂, hin₂, hid₂, hk₂⟩ := run_failedSends msg n (base + 1) s₁ hin₁ fun i hi ↦ by
      rw [(hk₁ (base + 1 + i) (by omega)).1, Nat.add_assoc]
      exact hfree (1 + i) (by omega)
    refine ⟨s₂, by rw [failedSends, UdpEvent.run_append, h₁, Option.some_bind, h₂], hin₂,
      by rw [hid₂, hid₁]; omega, fun k hk ↦ ?_⟩
    obtain ⟨hs₂, hc₂⟩ := hk₂ k (by omega)
    obtain ⟨hs₁, hc₁⟩ := hk₁ k (by omega)
    exact ⟨hs₂.trans hs₁, hc₂.trans hc₁⟩

/-- Call `0` takes id `0` on a fresh socket and is preempted before its insert. -/
def udpFirstTake : List UdpEvent :=
  [.call 0 headerQuery upstreamAddr, .fetch 0, .check 0]

/-- Call `65536` takes an id and files its request. -/
def udpSecondTake : List UdpEvent :=
  [.call 65536 headerQuery upstreamAddr, .fetch 65536, .check 65536, .insert 65536]

/-- After `udpFirstTake`, the 65535 failed sends of calls `1` to `65535` and `udpSecondTake`,
calls `0` and `65536` both hold id `0`; the insert of call `0` replaces the live entry of
call `65536`, and the failed send of call `65536` then removes the entry of call `0`. -/
theorem udp_idReusedWhileLive :
    ∃ s, UdpReachable s ∧
      (∃ a b, s.sends 0 = some a ∧ a.pc = .insert 0 ∧ s.sends 65536 = some b ∧ b.pc = .sendTo 0 ∧
        lookupInflight s.inflight 0 = some ⟨0x1234, upstreamAddr, 65536⟩) ∧
      ∃ s', (UdpEvent.insert 0).apply s = some s' ∧
        lookupInflight s'.inflight 0 = some ⟨0x1234, upstreamAddr, 0⟩ ∧
        s'.channels 65536 = .dropped ∧
        ∃ s'', (UdpEvent.sendTo 65536 (some "network unreachable")).apply s' = some s'' ∧
          lookupInflight s''.inflight 0 = none ∧ ∃ a', s''.sends 0 = some a' ∧ a'.pc = .sendTo 0 := by
  obtain ⟨sA, hA, hinA, hidA, hsA, hfreeA⟩ : ∃ sA, UdpEvent.run udpFirstTake .init = some sA ∧
      sA.inflight = [] ∧ sA.nextId = 1 ∧
      sA.sends 0 = some ⟨headerQuery, upstreamAddr, .insert 0, none⟩ ∧
      ∀ k : Nat, k ≠ 0 → sA.sends k = none ∧ sA.channels k = .empty :=
    ⟨_, rfl, rfl, rfl, rfl, fun k hk ↦
      ⟨by simp [UdpState.setSend, Function.update_noteq hk]; rfl, rfl⟩⟩
  obtain ⟨sC, hC, hinC, hidC, hkC⟩ := run_failedSends "network unreachable" 65535 1 sA hinA
    fun i _ ↦ (hfreeA _ (by omega)).1
  rw [hidA] at hidC
  have hnextC : sC.nextId = 0 := UInt16.toNat.inj hidC
  have hA0 : sC.sends 0 = some ⟨headerQuery, upstreamAddr, .insert 0, none⟩ :=
    (hkC 0 (.inl (by omega))).1.trans hsA
  obtain ⟨sB, hB, hsB0, hsB, hinB⟩ : ∃ sB, UdpEvent.run udpSecondTake sC = some sB ∧
      sB.sends 0 = some ⟨headerQuery, upstreamAddr, .insert 0, none⟩ ∧
      sB.sends 65536 = some ⟨headerQuery, upstreamAddr, .sendTo 0, some 0⟩ ∧
      sB.inflight = [(0, ⟨0x1234, upstreamAddr, 65536⟩)] := by
    have hfree : sC.sends 65536 = none :=
      (hkC 65536 (.inr (by omega))).1.trans (hfreeA 65536 (by omega)).1
    rw [udpSecondTake, UdpEvent.run, UdpEvent.apply_call hfree (by decide), Option.some_bind,
      UdpEvent.run, UdpEvent.apply_fetch (UdpState.sends_setSend_self _ _ _), Option.some_bind,
      UdpEvent.run, UdpEvent.apply_check_free (UdpState.sends_setSend_self _ _ _)
        (by simp [hinC, lookupInflight]),
      Option.some_bind, UdpEvent.run, UdpEvent.apply_insert (UdpState.sends_setSend_self _ _ _),
      Option.some_bind, UdpEvent.run]
    refine ⟨_, rfl, ?_, by simp [hnextC], by simp [hinC, hnextC, eraseInflight]; decide⟩
    simp only [UdpState.setSend_sends, UdpState.insertEntry_sends,
      Function.update_noteq (show (0 : Nat) ≠ 65536 by decide), hA0]
  have hreach : UdpReachable sB := UdpReachable.run .init (by
    rw [UdpEvent.run_append, UdpEvent.run_append, hA, Option.some_bind, hC, Option.some_bind, hB])
  obtain ⟨s', hins, hlook', hdrop, hB', hA'⟩ : ∃ s', (UdpEvent.insert 0).apply sB = some s' ∧
      lookupInflight s'.inflight 0 = some ⟨0x1234, upstreamAddr, 0⟩ ∧
      s'.channels 65536 = .dropped ∧
      s'.sends 65536 = some ⟨headerQuery, upstreamAddr, .sendTo 0, some 0⟩ ∧
      s'.sends 0 = some ⟨headerQuery, upstreamAddr, .sendTo 0, some 0⟩ := by
    refine ⟨_, UdpEvent.apply_insert hsB0, ?_, ?_, ?_, UdpState.sends_setSend_self _ _ _⟩
    · simp [hinB, lookupInflight]; decide
    · simp [UdpState.insertEntry, hinB, lookupInflight]
    · simp only [UdpState.setSend_sends, UdpState.insertEntry_sends]
      rw [Function.update_noteq (by decide), hsB]
  refine ⟨sB, hreach, ⟨_, _, hsB0, rfl, hsB, rfl, by simp [hinB, lookupInflight]⟩, s', hins,
    hlook', hdrop, _, UdpEvent.apply_sendTo_error hB' _, by simp [lookupInflight, eraseInflight],
    ⟨headerQuery, upstreamAddr, .sendTo 0, some 0⟩, ?_, rfl⟩
  simp only [UdpState.setSend_sends, UdpState.removeInflight_sends]
  rw [Function.update_noteq (by decide), hA']

/-! ## The TCP multiplexer -/

/-- Call `j` takes an id, files its request and fails to connect. -/
def failedWrite (j : SendId) : List MuxEvent :=
  [.call j headerQuery, .rewrite j, .insert j, .connect j false]

/-- Calls `base`, …, `base + n - 1`, one after another, each failing to connect. -/
def failedWrites : Nat → Nat → List MuxEvent
  | _, 0 => []
  | base, n + 1 => failedWrite base ++ failedWrites (base + 1) n

/-- With no connection, a call that fails to connect leaves `pending` empty, no connection,
and the counter one further on. -/
theorem run_failedWrite (s : MuxState) (j : SendId) (hj : s.sends j = none)
    (hp : s.pending = []) (hc : s.conn = none) :
    ∃ s', MuxEvent.run (failedWrite j) s = some s' ∧ s'.pending = [] ∧ s'.conn = none ∧
      s'.nextId.toNat = (s.nextId.toNat + 1) % 65536 ∧
      ∀ k : Nat, k ≠ j → s'.sends k = s.sends k ∧ s'.channels k = s.channels k := by
  rw [failedWrite, MuxEvent.run, MuxEvent.apply_call hj (by decide), Option.some_bind,
    MuxEvent.run, MuxEvent.apply_rewrite_free (MuxState.sends_setSend_self _ _ _)
      (by simp [hp, lookupPending]),
    Option.some_bind, MuxEvent.run, MuxEvent.apply_insert (MuxState.sends_setSend_self _ _ _),
    Option.some_bind, MuxEvent.run,
    MuxEvent.apply_connect_failed (MuxState.sends_setSend_self _ _ _) (by simpa using hc),
    Option.some_bind, MuxEvent.run]
  refine ⟨_, rfl, by simp [MuxState.writeFailed, hp, erasePending], rfl,
    UInt16.toNat_add _ 1, fun k hk ↦ ⟨?_, ?_⟩⟩
  · simp [MuxState.writeFailed, Function.update_noteq hk]
  · simp [MuxState.writeFailed, hk, hp, lookupPending]

theorem run_failedWrites : ∀ (n base : Nat) (s : MuxState), s.pending = [] → s.conn = none →
    (∀ i : Nat, i < n → s.sends (base + i) = none) →
    ∃ s', MuxEvent.run (failedWrites base n) s = some s' ∧ s'.pending = [] ∧ s'.conn = none ∧
      s'.nextId.toNat = (s.nextId.toNat + n) % 65536 ∧
      ∀ k : Nat, (k < base ∨ base + n ≤ k) → s'.sends k = s.sends k ∧ s'.channels k = s.channels k
  | 0, _, s, hp, hc, _ =>
    ⟨s, rfl, hp, hc, (Nat.mod_eq_of_lt s.nextId.toNat_lt_size).symm, fun _ _ ↦ ⟨rfl, rfl⟩⟩
  | n + 1, base, s, hp, hc, hfree => by
    obtain ⟨s₁, h₁, hp₁, hc₁, hid₁, hk₁⟩ := run_failedWrite s base (hfree 0 (Nat.zero_lt_succ _)) hp hc
    obtain ⟨s₂, h₂, hp₂, hc₂, hid₂, hk₂⟩ := run_failedWrites n (base + 1) s₁ hp₁ hc₁ fun i hi ↦ by
      rw [(hk₁ (base + 1 + i) (by omega)).1, Nat.add_assoc]
      exact hfree (1 + i) (by omega)
    refine ⟨s₂, by rw [failedWrites, MuxEvent.run_append, h₁, Option.some_bind, h₂], hp₂, hc₂,
      by rw [hid₂, hid₁]; omega, fun k hk ↦ ?_⟩
    obtain ⟨hs₂, hch₂⟩ := hk₂ k (by omega)
    obtain ⟨hs₁, hch₁⟩ := hk₁ k (by omega)
    exact ⟨hs₂.trans hs₁, hch₂.trans hch₁⟩

/-- Call `0` takes id `1` on a fresh client and is preempted before its insert. -/
def tcpFirstTake : List MuxEvent :=
  [.call 0 headerQuery, .rewrite 0]

/-- Call `65536` takes an id and files its request. -/
def tcpSecondTake : List MuxEvent :=
  [.call 65536 headerQuery, .rewrite 65536, .insert 65536]

/-- After `tcpFirstTake`, the 65535 failed connects of calls `1` to `65535` and
`tcpSecondTake`, calls `0` and `65536` both hold id `1`; the insert of call `0` replaces the
live entry of call `65536`, and the failed connect of call `65536` then removes the entry of
call `0`. -/
theorem tcp_idReusedWhileLive :
    ∃ s, MuxReachable s ∧
      (∃ a b, s.sends 0 = some a ∧ a.pc = .insert 1 ∧ s.sends 65536 = some b ∧ b.pc = .connect 1 ∧
        lookupPending s.pending 1 = some ⟨0x1234, 65536⟩) ∧
      ∃ s', (MuxEvent.insert 0).apply s = some s' ∧
        lookupPending s'.pending 1 = some ⟨0x1234, 0⟩ ∧ s'.channels 65536 = .dropped ∧
        ∃ s'', (MuxEvent.connect 65536 false).apply s' = some s'' ∧
          lookupPending s''.pending 1 = none ∧ ∃ a', s''.sends 0 = some a' ∧ a'.pc = .connect 1 := by
  obtain ⟨sA, hA, hpA, hcA, hidA, hsA, hfreeA⟩ : ∃ sA, MuxEvent.run tcpFirstTake .init = some sA ∧
      sA.pending = [] ∧ sA.conn = none ∧ sA.nextId = 2 ∧
      sA.sends 0 = some ⟨headerQuery, .insert 1, none⟩ ∧
      ∀ k : Nat, k ≠ 0 → sA.sends k = none ∧ sA.channels k = .empty :=
    ⟨_, rfl, rfl, rfl, rfl, rfl, fun k hk ↦
      ⟨by simp [MuxState.setSend, Function.update_noteq hk]; rfl, rfl⟩⟩
  obtain ⟨sC, hC, hpC, hcC, hidC, hkC⟩ := run_failedWrites 65535 1 sA hpA hcA
    fun i _ ↦ (hfreeA _ (by omega)).1
  rw [hidA] at hidC
  have hnextC : sC.nextId = 1 := UInt16.toNat.inj hidC
  have hA0 : sC.sends 0 = some ⟨headerQuery, .insert 1, none⟩ :=
    (hkC 0 (.inl (by omega))).1.trans hsA
  obtain ⟨sB, hB, hsB0, hsB, hpB, hcB⟩ : ∃ sB, MuxEvent.run tcpSecondTake sC = some sB ∧
      sB.sends 0 = some ⟨headerQuery, .insert 1, none⟩ ∧
      sB.sends 65536 = some ⟨headerQuery, .connect 1, none⟩ ∧
      sB.pending = [(1, ⟨0x1234, 65536⟩)] ∧ sB.conn = none := by
    have hfree : sC.sends 65536 = none :=
      (hkC 65536 (.inr (by omega))).1.trans (hfreeA 65536 (by omega)).1
    rw [tcpSecondTake, MuxEvent.run, MuxEvent.apply_call hfree (by decide), Option.some_bind,
      MuxEvent.run, MuxEvent.apply_rewrite_free (MuxState.sends_setSend_self _ _ _)
        (by simp [hpC, lookupPending]),
      Option.some_bind, MuxEvent.run, MuxEvent.apply_insert (MuxState.sends_setSend_self _ _ _),
      Option.some_bind, MuxEvent.run]
    refine ⟨_, rfl, ?_, by simp [hnextC], by simp [hpC, hnextC, erasePending]; decide, by simpa⟩
    simp only [MuxState.setSend_sends, Function.update_noteq (show (0 : Nat) ≠ 65536 by decide)]
    exact hA0
  have hreach : MuxReachable sB := MuxReachable.run .init (by
    rw [MuxEvent.run_append, MuxEvent.run_append, hA, Option.some_bind, hC, Option.some_bind, hB])
  obtain ⟨s', hins, hlook', hdrop, hB', hA', hc'⟩ : ∃ s', (MuxEvent.insert 0).apply sB = some s' ∧
      lookupPending s'.pending 1 = some ⟨0x1234, 0⟩ ∧ s'.channels 65536 = .dropped ∧
      s'.sends 65536 = some ⟨headerQuery, .connect 1, none⟩ ∧
      s'.sends 0 = some ⟨headerQuery, .connect 1, none⟩ ∧ s'.conn = none := by
    refine ⟨_, MuxEvent.apply_insert hsB0, ?_, ?_, ?_, MuxState.sends_setSend_self _ _ _, hcB⟩
    · simp [hpB, lookupPending]; decide
    · simp [hpB, lookupPending]
    · simp only [MuxState.setSend_sends]
      rw [Function.update_noteq (by decide), hsB]
  refine ⟨sB, hreach, ⟨_, _, hsB0, rfl, hsB, rfl, by simp [hpB, lookupPending]⟩, s', hins,
    hlook', hdrop, _, MuxEvent.apply_connect_failed hB' hc', ?_,
    ⟨headerQuery, .connect 1, none⟩, ?_, rfl⟩
  · simp [MuxState.writeFailed, lookupPending, erasePending]
  · simp only [MuxState.writeFailed, MuxState.setSend_sends, MuxState.resetConn_sends,
      MuxState.removePending_sends]
    rw [Function.update_noteq (by decide), hA']

/-! ## Both clients -/

/-- On one pooled UDP socket and on one TCP multiplexer alike, two calls come to hold the
same id at once: the later insert replaces the live entry of the other call, and that call's
error path then removes the entry of the first. -/
theorem upstreamIds_reused_while_live :
    (∃ s, UdpReachable s ∧
      (∃ a b, s.sends 0 = some a ∧ a.pc = .insert 0 ∧ s.sends 65536 = some b ∧ b.pc = .sendTo 0 ∧
        lookupInflight s.inflight 0 = some ⟨0x1234, upstreamAddr, 65536⟩) ∧
      ∃ s', (UdpEvent.insert 0).apply s = some s' ∧
        lookupInflight s'.inflight 0 = some ⟨0x1234, upstreamAddr, 0⟩ ∧
        s'.channels 65536 = .dropped ∧
        ∃ s'', (UdpEvent.sendTo 65536 (some "network unreachable")).apply s' = some s'' ∧
          lookupInflight s''.inflight 0 = none ∧ ∃ a', s''.sends 0 = some a' ∧ a'.pc = .sendTo 0) ∧
    (∃ s, MuxReachable s ∧
      (∃ a b, s.sends 0 = some a ∧ a.pc = .insert 1 ∧ s.sends 65536 = some b ∧ b.pc = .connect 1 ∧
        lookupPending s.pending 1 = some ⟨0x1234, 65536⟩) ∧
      ∃ s', (MuxEvent.insert 0).apply s = some s' ∧
        lookupPending s'.pending 1 = some ⟨0x1234, 0⟩ ∧ s'.channels 65536 = .dropped ∧
        ∃ s'', (MuxEvent.connect 65536 false).apply s' = some s'' ∧
          lookupPending s''.pending 1 = none ∧ ∃ a', s''.sends 0 = some a' ∧ a'.pc = .connect 1) :=
  ⟨udp_idReusedWhileLive, tcp_idReusedWhileLive⟩

end KixDns
