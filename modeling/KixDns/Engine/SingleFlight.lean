import KixDns.Engine.HandlePacket

/-!
# The single-flight protocol

A task that reaches a `Forward` decision looks up the hash of its fingerprint in `inflight`.
On a vacant entry it leads: it inserts a slot, forwards, and sends its response to the
slot's waiters when it notifies.  On an occupied entry it follows: it pushes its channel and
awaits what the leader sends.  The map is keyed by the 64-bit hash alone, and neither side
looks at the name behind it.

This module says once what a step of a task can do to the shared maps (`SharedStep`, and
`TaskStep` with one lemma per step function) and derives from it the invariant of the
protocol, `EngineInv`: a task listed as a waiter of a slot awaits its mailbox as a follower
under the slot's hash; a task's mailbox holds something only while it awaits it, and it is
no longer listed then; and every hash a task files under is the hash of its own request's
fingerprint in a pipeline it went through.  `Reachable.engineInv` lifts it to every
reachable engine, over every interleaving of the tasks.

The invariant says nothing about who owns a slot, and the module ends with the three ways
the code loses track of that: a slot may outlive its leader, a task may wait on itself, and
a guard may remove another leader's slot.
-/

namespace KixDns

/-! ## Fingerprints and the hashes a task files under -/

/-- The fingerprint `(pipeline id, lowercased qname, qtype)` that
`calculate_cache_hash_for_dedupe` hashes. -/
structure DedupeKey where
  pipelineId : String
  qname : String
  qtype : RecordType
deriving DecidableEq, Repr

/-- The 64-bit hash of a fingerprint. -/
def DedupeKey.hash (lib : Lib) (k : DedupeKey) : UInt64 :=
  lib.fxHash k.pipelineId k.qname k.qtype.code

/-- The fingerprint of a task's request in pipeline `p`. -/
def Task.fingerprintIn (t : Task) (p : String) : DedupeKey :=
  ⟨p, asciiLower t.req.qname, t.req.qtype⟩

/-- The fingerprint of a task's request in its current pipeline. -/
def Task.fingerprint (t : Task) : DedupeKey :=
  t.fingerprintIn t.vars.currentPipelineId

/-- `k` is the hash of the fingerprint of `t`'s request in a pipeline `t` hashed. -/
def Task.Keyed (lib : Lib) (t : Task) (k : UInt64) : Prop :=
  ∃ p ∈ t.hashedPipelines, (t.fingerprintIn p).hash lib = k

theorem Task.Keyed.mono {lib : Lib} {t t' : Task} {k : UInt64} (h : t.Keyed lib k)
    (hreq : t'.req = t.req) (hps : t.hashedPipelines ⊆ t'.hashedPipelines) : t'.Keyed lib k := by
  obtain ⟨p, hp, hk⟩ := h
  refine ⟨p, hps hp, ?_⟩
  rw [Task.fingerprintIn, hreq]
  exact hk

/-- The hash under which a task awaits its mailbox as a follower. -/
def Task.waitHash (t : Task) : Option UInt64 :=
  match t.jump, t.pc with
  | some (jv, .follower _), _ => some jv.dedupeHash
  | some _, _ => none
  | none, .follower _ => some t.vars.dedupeHash
  | none, _ => none

/-- The response a task returns and has committed to: it notifies its waiters with it, or
drops its guards before returning it. -/
def Task.computed (t : Task) : Option Bytes :=
  match t.jump, t.pc with
  | some (_, .notifyAll _ _ reply), _ => some reply
  | some (_, .dropGuards _ result), _ => result
  | some _, _ => none
  | none, .notify result => some result
  | none, .drop result => result
  | none, .done result .computed => result
  | none, _ => none

/-- The response a task returned without computing it: an L2 hit or its leader's. -/
def Task.reused (t : Task) : Option Bytes :=
  match t.pc with
  | .done result (.cache _) | .done result .follower => result
  | _ => none

/-- The hashes of a second frame are hashes `t` files under. -/
def JumpVars.Keyed (lib : Lib) (t : Task) (jv : JumpVars) : Prop :=
  t.Keyed lib jv.dedupeHash ∧ ∀ k ∈ jv.inflightHashes, t.Keyed lib k

/-- A pending notification of a second frame is under hashes `t` files under, with the
response the frame returns, up to the id. -/
def JumpPc.Keyed (lib : Lib) (t : Task) : JumpPc → Prop
  | .notifyAll hs sent reply => (∀ k ∈ hs, t.Keyed lib k) ∧ sent.drop 2 = reply.drop 2
  | _ => True

/-- The keys of a task: its dedupe hash is the hash of its fingerprint in its current
pipeline, which it hashed, and its second frame runs only while the first waits for it and
files only under hashes the task files under. -/
structure Task.Wf (lib : Lib) (t : Task) : Prop where
  hash : t.vars.dedupeHash = t.fingerprint.hash lib
  current : t.vars.currentPipelineId ∈ t.hashedPipelines
  jump : ∀ jv pc, t.jump = some (jv, pc) →
    (∃ d, t.pc = .inJump d) ∧ jv.Keyed lib t ∧ pc.Keyed lib t

theorem Task.Wf.keyed {lib : Lib} {t : Task} (hw : t.Wf lib) : t.Keyed lib t.vars.dedupeHash :=
  ⟨_, hw.current, hw.hash.symm⟩

/-- A task with the request, the ghost, the dedupe hash and the current pipeline of a
well-formed one, and no second frame, is well formed. -/
theorem Task.Wf.first {lib : Lib} {t t' : Task} (hw : t.Wf lib)
    (hk : t'.req = t.req ∧ t'.hashedPipelines = t.hashedPipelines ∧
      t'.vars.dedupeHash = t.vars.dedupeHash ∧
      t'.vars.currentPipelineId = t.vars.currentPipelineId)
    (hj : t'.jump = none) : t'.Wf lib := by
  obtain ⟨hreq, hps, hd, hc⟩ := hk
  refine ⟨?_, hps ▸ hc ▸ hw.current, fun _ _ h ↦ by simp [hj] at h⟩
  rw [hd, hw.hash, Task.fingerprint, Task.fingerprint, Task.fingerprintIn, Task.fingerprintIn,
    hreq, hc]

section Frames

variable {lib : Lib} {t : Task} {jv : JumpVars}

theorem JumpVars.Keyed.finish (h : jv.Keyed lib t) {sent reply : Bytes}
    (hd : sent.drop 2 = reply.drop 2) :
    (jv.finish sent reply).1.Keyed lib t ∧ (jv.finish sent reply).2.Keyed lib t :=
  ⟨h, h.2, hd⟩

theorem JumpVars.Keyed.servFail (h : jv.Keyed lib t) (lib' : Lib) :
    (jv.servFail lib').1.Keyed lib t ∧ (jv.servFail lib').2.Keyed lib t := by
  unfold JumpVars.servFail
  split
  · exact ⟨h, trivial⟩
  · exact h.finish rfl

/-- Registering under its current hash keeps the hashes of a second frame keyed. -/
theorem JumpVars.Keyed.register (h : jv.Keyed lib t) (gs : List CleanupGuard) :
    ({ jv with cleanupGuards := gs, inflightHashes := jv.inflightHashes ++ [jv.dedupeHash] } :
      JumpVars).Keyed lib t := by
  refine ⟨h.1, fun k hk ↦ ?_⟩
  rcases List.mem_append.mp hk with hk | hk
  · exact h.2 k hk
  · exact List.mem_singleton.mp hk ▸ h.1

end Frames

/-- An entry the cache returns is one it holds. -/
theorem DnsCache.eq_of_lookup {c : DnsCache} {now : Nat} {k : UInt64} {x : CacheEntry × Nat}
    (h : c.lookup now k = some x) : c k = some x := by
  unfold DnsCache.lookup at h
  revert h
  cases c k <;> simp [Option.filter]

/-! ## What a step of one task does to the shared maps -/

/-- `b` is `res` up to its first two bytes. -/
def Backs (res : Option Bytes) (b : Bytes) : Prop :=
  ∃ r, res = some r ∧ r.drop 2 = b.drop 2

/-- Task `i` is listed as a waiter of no slot. -/
def NotWaiting (i : TaskId) (s : EngineState) : Prop :=
  ∀ k slot, s.inflight k = some slot → i ∉ slot.waiters

/-- The shared maps of `X` differ from those of `s` only by what task `i` may do when it
files its response `res` under the hashes `key` and then awaits its mailbox under `wait`:
insert `res` in the cache under such a hash, join a slot as a waiter under `wait`, send
`res` to the waiters of a slot under such a hash, remove slots, and empty its mailbox.  A
task whose mailbox is filled is taken off the slot it waited on. -/
structure SharedStep (key : UInt64 → Prop) (res : Option Bytes) (wait : Option UInt64)
    (i : TaskId) (s X : EngineState) : Prop where
  tasks : X.tasks = s.tasks
  cache : ∀ k e t0, X.cache k = some (e, t0) →
    s.cache k = some (e, t0) ∨ key k ∧ Backs res e.bytes
  waiters : ∀ k slot, X.inflight k = some slot → ∀ w ∈ slot.waiters,
    (∃ slot₀, s.inflight k = some slot₀ ∧ w ∈ slot₀.waiters) ∨ w = i ∧ wait = some k
  mailbox : ∀ w m, X.mailbox w = some m → s.mailbox w = some m ∨
    w ≠ i ∧ ∃ k slot, s.inflight k = some slot ∧ w ∈ slot.waiters ∧
      (∀ slot', X.inflight k = some slot' → w ∉ slot'.waiters) ∧
      ∀ b, m = some b → key k ∧ Backs res b

namespace SharedStep

variable {key : UInt64 → Prop} {res : Option Bytes} {wait : Option UInt64} {i : TaskId}
  {s s₁ s₂ : EngineState}

theorem refl : SharedStep key res wait i s s :=
  ⟨rfl, fun _ _ _ h ↦ .inl h, fun _ _ h _ hw ↦ .inl ⟨_, h, hw⟩, fun _ _ h ↦ .inl h⟩

theorem trans (h₁ : SharedStep key res wait i s s₁) (h₂ : SharedStep key res wait i s₁ s₂) :
    SharedStep key res wait i s s₂ := by
  refine ⟨h₂.tasks.trans h₁.tasks, fun k e t0 hk ↦ (h₂.cache k e t0 hk).elim (h₁.cache k e t0) .inr,
    fun k slot hk w hw ↦ ?_, fun w m hw ↦ ?_⟩
  · rcases h₂.waiters k slot hk w hw with ⟨slot₁, h1, hw1⟩ | h
    · exact h₁.waiters k slot₁ h1 w hw1
    · exact .inr h
  · rcases h₂.mailbox w m hw with h | ⟨hwi, k, slot, hk, hws, hgone, hb⟩
    · rcases h₁.mailbox w m h with h | ⟨hwi, k, slot, hk, hws, hgone, hb⟩
      · exact .inl h
      refine .inr ⟨hwi, k, slot, hk, hws, fun slot' hk' hw' ↦ ?_, hb⟩
      rcases h₂.waiters k slot' hk' w hw' with ⟨slot₁, h1, hw1⟩ | ⟨rfl, -⟩
      · exact hgone slot₁ h1 hw1
      · exact hwi rfl
    · rcases h₁.waiters k slot hk w hws with ⟨slot₀, h0, hw0⟩ | ⟨rfl, -⟩
      · exact .inr ⟨hwi, k, slot₀, h0, hw0, hgone, hb⟩
      · exact absurd rfl hwi

theorem applyRulesFor {lib : Lib} {cfg : RuntimePipelineConfig} {p : RuntimePipeline}
    {r : Request} {skip : Option (List String)} {d : Decision}
    (h : s.applyRulesFor lib cfg p r skip = some (d, s₁)) : SharedStep key res wait i s s₁ := by
  obtain ⟨⟨d', c⟩, -, hs⟩ := Option.map_eq_some'.mp h
  cases hs
  exact ⟨rfl, fun _ _ _ h ↦ .inl h, fun _ _ h _ hw ↦ .inl ⟨_, h, hw⟩, fun _ _ h ↦ .inl h⟩

theorem insertCache {k : UInt64} {e : CacheEntry} (hk : key k) (he : Backs res e.bytes) :
    SharedStep key res wait i s (s.insertCache k e) := by
  refine ⟨rfl, fun k' e' t0 hk' ↦ ?_, fun _ _ h _ hw ↦ .inl ⟨_, h, hw⟩, fun _ _ h ↦ .inl h⟩
  simp only [EngineState.insertCache, DnsCache.insert, Function.update_apply] at hk'
  split_ifs at hk' with hkk
  · cases hk'
    exact .inr ⟨hkk ▸ hk, he⟩
  · exact .inl hk'

/-- The inserts under a minimum TTL. -/
theorem ite_insertCache {c : Prop} [Decidable c] {k : UInt64} {e : CacheEntry} (hk : key k)
    (he : Backs res e.bytes) : SharedStep key res wait i s (if c then s.insertCache k e else s) := by
  split
  · exact insertCache hk he
  · exact refl

/-- `inflight.entry` as the steps use it: a vacant entry gets a slot with no waiter, and an
occupied one gains `i`, which then awaits under `k`. -/
theorem of_entry {k : UInt64} {leader : Bool} (he : s.entry i k = (leader, s₁))
    (hw : leader = false → wait = some k) : SharedStep key res wait i s s₁ := by
  unfold EngineState.entry at he
  split at he <;> cases he <;>
    refine ⟨rfl, fun _ _ _ h ↦ .inl h, fun k' slot hk' w hws ↦ ?_, fun _ _ h ↦ .inl h⟩ <;>
    simp only [Function.update_apply] at hk' <;> split_ifs at hk' with hkk
  · cases hk'
    cases hws
  · exact .inl ⟨slot, hk', hws⟩
  · next slot₀ h0 =>
    cases hk'
    rcases List.mem_append.mp hws with hws | hws
    · exact .inl ⟨slot₀, hkk ▸ h0, hws⟩
    · exact .inr ⟨List.mem_singleton.mp hws, hkk ▸ hw rfl⟩
  · exact .inl ⟨slot, hk', hws⟩

/-- Taking a slot out sends `reply` to its waiters, and takes them off it. -/
theorem takeSlot {k : UInt64} {reply : Option Bytes} (hi : NotWaiting i s)
    (hb : ∀ b, reply = some b → key k ∧ Backs res b) :
    SharedStep key res wait i s (s.takeSlot k reply) := by
  unfold EngineState.takeSlot
  split
  · exact refl
  · next slot hk =>
    refine ⟨rfl, fun _ _ _ h ↦ .inl h, fun k' slot' hk' w hw ↦ ?_, fun w m hw ↦ ?_⟩
    · simp only [Function.update_apply] at hk'
      split_ifs at hk'
      exact .inl ⟨slot', hk', hw⟩
    · simp only at hw
      split_ifs at hw with hws
      · cases hw
        refine .inr ⟨fun hwi ↦ hi k slot hk (hwi ▸ hws), k, slot, hk, hws, fun slot' hk' ↦ ?_, hb⟩
        simp at hk'
      · exact .inl hw

theorem dropGuard (hi : NotWaiting i s) (g : CleanupGuard) :
    SharedStep key res wait i s (s.dropGuard g) := by
  unfold EngineState.dropGuard EngineState.removeSlot
  split
  · exact takeSlot hi nofun
  · exact refl

theorem takeMail : SharedStep key res wait i s (s.takeMail i) := by
  refine ⟨rfl, fun _ _ _ h ↦ .inl h, fun _ _ h _ hw ↦ .inl ⟨_, h, hw⟩, fun w m hw ↦ .inl ?_⟩
  simp only [EngineState.takeMail, Function.update_apply] at hw
  split_ifs at hw
  exact hw

end SharedStep

/-! ## A step of one task -/

/-- Where the response a task reused, if any, comes from: the entry of the cache under
`k`, or the mailbox of task `i`, which awaited it under `k`. -/
def ReusedFrom (s : EngineState) (wait : Option UInt64) (i : TaskId) (k : UInt64) :
    Option Bytes → Prop
  | none => True
  | some b => (∃ e t0, s.cache k = some (e, t0) ∧ e.bytes.drop 2 = b.drop 2) ∨
      ∃ b', s.mailbox i = some (some b') ∧ wait = some k ∧ b'.drop 2 = b.drop 2

/-- What task `i`, with request `req`, ghost `ps`, commitment `old` and awaiting under
`wait`, leaves after a step from `s`: shared maps `X` changed as `SharedStep` allows, and a
well-formed task on the same request, which kept its ghost and its commitment, whose reused
response comes from the cache or its mailbox in `s`, and which emptied its mailbox if it
awaited it. -/
structure StepResult (lib : Lib) (req : Request) (ps : List String) (old : Option Bytes)
    (wait : Option UInt64) (i : TaskId) (s X : EngineState) (t' : Task) : Prop where
  shared : SharedStep (t'.Keyed lib) t'.computed t'.waitHash i s X
  req : t'.req = req
  hashed : ps ⊆ t'.hashedPipelines
  wf : t'.Wf lib
  keep : ∀ r, old = some r → t'.computed = some r
  reused : ReusedFrom s wait i t'.vars.dedupeHash t'.reused
  took : wait ≠ none → X.mailbox i = none

/-- A step of task `i` from `s` to `s'`. -/
def TaskStep (lib : Lib) (req : Request) (ps : List String) (old : Option Bytes)
    (wait : Option UInt64) (i : TaskId) (s s' : EngineState) : Prop :=
  ∃ X t', s' = X.setTask i t' ∧ StepResult lib req ps old wait i s X t'

namespace TaskStep

variable {lib : Lib} {old : Option Bytes} {wait : Option UInt64} {i : TaskId}
  {s X : EngineState} {t t' : Task}

/-- A step that leaves the first frame running on the keys of `t`. -/
theorem first (hw : t.Wf lib) (hX : SharedStep (t'.Keyed lib) t'.computed t'.waitHash i s X)
    (hk : t'.req = t.req ∧ t'.hashedPipelines = t.hashedPipelines ∧
      t'.vars.dedupeHash = t.vars.dedupeHash ∧
      t'.vars.currentPipelineId = t.vars.currentPipelineId)
    (hj : t'.jump = none) (hkeep : ∀ r, old = some r → t'.computed = some r)
    (hre : ReusedFrom s wait i t'.vars.dedupeHash t'.reused)
    (htook : wait ≠ none → X.mailbox i = none) :
    TaskStep lib t.req t.hashedPipelines old wait i s (X.setTask i t') :=
  ⟨X, t', rfl, hX, hk.1, hk.2.1 ▸ List.Subset.refl _, hw.first hk hj, hkeep, hre, htook⟩

/-- A step of the first frame that touches no shared map and reuses nothing. -/
theorem quiet (hw : t.Wf lib)
    (hk : t'.req = t.req ∧ t'.hashedPipelines = t.hashedPipelines ∧
      t'.vars.dedupeHash = t.vars.dedupeHash ∧
      t'.vars.currentPipelineId = t.vars.currentPipelineId)
    (hj : t'.jump = none) (hre : t'.reused = none) :
    TaskStep lib t.req t.hashedPipelines none none i s (s.setTask i t') :=
  first hw .refl hk hj nofun (by rw [hre]; trivial) (absurd rfl)

/-- A step that leaves the second frame running, with the first frame of `t`. -/
theorem frame {fr : JumpVars × JumpPc} (hw : t.Wf lib)
    (hX : SharedStep (t'.Keyed lib) t'.computed t'.waitHash i s X)
    (hk : t'.req = t.req ∧ t.hashedPipelines ⊆ t'.hashedPipelines ∧ t'.vars = t.vars)
    (hin : ∃ d, t'.pc = .inJump d) (hj : t'.jump = some fr)
    (hfr : fr.1.Keyed lib t' ∧ fr.2.Keyed lib t') (hkeep : ∀ r, old = some r → t'.computed = some r)
    (htook : wait ≠ none → X.mailbox i = none) :
    TaskStep lib t.req t.hashedPipelines old wait i s (X.setTask i t') := by
  obtain ⟨hreq, hps, hv⟩ := hk
  obtain ⟨d, hd⟩ := hin
  refine ⟨X, t', rfl, hX, hreq, hps, ⟨?_, hv ▸ hps hw.current, fun jv pc h ↦ ?_⟩, hkeep,
    by simp [Task.reused, hd, ReusedFrom], htook⟩
  · rw [hv, hw.hash, Task.fingerprint, Task.fingerprint, Task.fingerprintIn, Task.fingerprintIn,
      hreq, hv]
  · rw [hj] at h
    cases h
    exact ⟨⟨d, hd⟩, hfr⟩

/-- A step of the second frame that touches no shared map and commits to nothing. -/
theorem quietFrame {fr : JumpVars × JumpPc} (hw : t.Wf lib) (hin : ∃ d, t.pc = .inJump d)
    (hfr : fr.1.Keyed lib (t.withJump fr) ∧ fr.2.Keyed lib (t.withJump fr)) :
    TaskStep lib t.req t.hashedPipelines none none i s (s.setTask i (t.withJump fr)) :=
  frame hw .refl ⟨rfl, List.Subset.refl _, rfl⟩ hin rfl hfr nofun (absurd rfl)

/-- A step taken by a task that had committed to nothing and awaited nothing. -/
theorem idle {req : Request} {ps : List String} {s' : EngineState}
    (h : TaskStep lib req ps none none i s s') (hold : old = none) (hwait : wait = none) :
    TaskStep lib req ps old wait i s s' := by
  subst hold hwait
  exact h

end TaskStep

/-! ## The steps of the first frame -/

section FirstFrame

variable (lib : Lib) (cfg : RuntimePipelineConfig) (inp : StepInput) {s : EngineState}
  {i : TaskId} {t : Task} (hw : t.Wf lib) (hj : t.jump = none)
include hw hj

theorem Task.startJump_taskStep (pipeline : String) (remaining : Nat) (defuse : Bool) :
    TaskStep lib t.req t.hashedPipelines none none i s (t.startJump lib s i pipeline remaining defuse) := by
  unfold Task.startJump
  split
  · exact .quiet hw ⟨rfl, rfl, rfl, rfl⟩ hj rfl
  · refine .frame hw .refl ⟨rfl, List.subset_cons_self _ _, rfl⟩ ⟨defuse, rfl⟩ rfl
      ⟨⟨⟨_, List.mem_cons_self _ _, rfl⟩, by simp⟩, trivial⟩ nofun (absurd rfl)

theorem Task.continueLoop_taskStep (f : ForwardDecision) (ctx : Option ResponseContext) :
    TaskStep lib t.req t.hashedPipelines none none i s (t.continueLoop lib cfg s i f ctx) := by
  unfold Task.continueLoop
  dsimp only
  split
  · exact .quiet hw ⟨rfl, rfl, rfl, rfl⟩ hj rfl
  · split
    · exact .quiet hw ⟨rfl, rfl, rfl, rfl⟩ hj rfl
    · next hs => exact .first hw (.applyRulesFor hs) ⟨rfl, rfl, rfl, rfl⟩ hj nofun trivial (absurd rfl)

theorem Task.upstreamOk_taskStep (f : ForwardDecision) (raw : Bytes) :
    TaskStep lib t.req t.hashedPipelines none none i s (t.upstreamOk lib cfg inp s i f raw) := by
  unfold Task.upstreamOk
  dsimp only
  repeat' split
  all_goals first
    | exact .quiet hw ⟨rfl, rfl, rfl, rfl⟩ hj rfl
    | exact t.startJump_taskStep lib hw hj _ _ _
    | exact t.continueLoop_taskStep lib cfg hw hj _ _
    | exact .first hw (.insertCache hw.keyed ⟨_, by simp [Task.computed, hj], rfl⟩)
        ⟨rfl, rfl, rfl, rfl⟩ hj nofun trivial (absurd rfl)

theorem Task.upstreamErr_taskStep (f : ForwardDecision) :
    TaskStep lib t.req t.hashedPipelines none none i s (t.upstreamErr lib cfg inp s i f) := by
  unfold Task.upstreamErr
  dsimp only
  repeat' split
  all_goals first
    | exact .quiet hw ⟨rfl, rfl, rfl, rfl⟩ hj rfl
    | exact .first hw (.insertCache hw.keyed ⟨_, by simp [Task.computed, hj], rfl⟩)
        ⟨rfl, rfl, rfl, rfl⟩ hj nofun trivial (absurd rfl)
    | exact t.startJump_taskStep lib hw hj _ _ _
    | exact t.continueLoop_taskStep lib cfg hw hj _ _

theorem Task.upstreamDone_taskStep (f : ForwardDecision) (result : Option Bytes) :
    TaskStep lib t.req t.hashedPipelines none none i s (t.upstreamDone lib cfg inp s i f result) := by
  cases result
  · exact t.upstreamErr_taskStep lib cfg inp hw hj f
  · exact t.upstreamOk_taskStep lib cfg inp hw hj f _

end FirstFrame

/-! ## Every step -/

section Steps

variable (lib : Lib) (cfg : RuntimePipelineConfig) (inp : StepInput) {s s' : EngineState}
  {i : TaskId} {t : Task}

theorem Task.stepHandle_taskStep (hw : t.Wf lib) (hj : t.jump = none) (hnw : NotWaiting i s)
    (h : t.stepHandle lib cfg inp s i = some s') :
    TaskStep lib t.req t.hashedPipelines t.computed t.waitHash i s s' := by
  unfold Task.stepHandle at h
  split at h
  · next hpc =>
    refine .idle ?_ (by simp [Task.computed, hj, hpc]) (by simp [Task.waitHash, hj, hpc])
    split at h
    · next hit t0 hl =>
      split_ifs at h <;> cases h
      · exact .first hw .refl ⟨rfl, rfl, rfl, rfl⟩ hj nofun
          (.inl ⟨hit, t0, DnsCache.eq_of_lookup hl, (setId_drop_two _ _).symm⟩) (absurd rfl)
      · exact .quiet hw ⟨rfl, rfl, rfl, rfl⟩ hj rfl
    · cases h
      exact .quiet hw ⟨rfl, rfl, rfl, rfl⟩ hj rfl
  · next hpc =>
    refine .idle ?_ (by simp [Task.computed, hj, hpc]) (by simp [Task.waitHash, hj, hpc])
    cases h
    exact .quiet hw ⟨rfl, rfl, rfl, rfl⟩ hj rfl
  · next hpc =>
    refine .idle ?_ (by simp [Task.computed, hj, hpc]) (by simp [Task.waitHash, hj, hpc])
    split at h <;> cases h
    · exact .quiet hw ⟨rfl, rfl, rfl, rfl⟩ hj rfl
    · next hs => exact .first hw (.applyRulesFor hs) ⟨rfl, rfl, rfl, rfl⟩ hj nofun trivial (absurd rfl)
  · next hpc =>
    refine .idle ?_ (by simp [Task.computed, hj, hpc]) (by simp [Task.waitHash, hj, hpc])
    split_ifs at h
    · cases h
      exact .quiet hw ⟨rfl, rfl, rfl, rfl⟩ hj rfl
    split at h
    · cases h
      exact .quiet hw ⟨rfl, rfl, rfl, rfl⟩ hj rfl
    -- The jump hashes the fingerprint of the target, which joins the ghost.
    have hw' : ∀ {t' : Task}, t'.req = t.req → t'.jump = none →
        t'.hashedPipelines = t'.vars.currentPipelineId :: t.hashedPipelines →
        t'.vars.dedupeHash = t'.fingerprint.hash lib → t'.Wf lib := fun hreq hj' hps hd ↦
      ⟨hd, hps ▸ List.mem_cons_self _ _, fun _ _ h ↦ by simp [hj'] at h⟩
    dsimp only at h
    split at h <;> cases h
    · exact ⟨_, _, rfl, .refl, rfl, List.subset_cons_self _ _, hw' rfl hj rfl rfl, nofun, trivial,
        absurd rfl⟩
    · next hs => exact ⟨_, _, rfl, .applyRulesFor hs, rfl, List.subset_cons_self _ _,
        hw' rfl hj rfl rfl, nofun, trivial, absurd rfl⟩
  · next hpc =>
    refine .idle ?_ (by simp [Task.computed, hj, hpc]) (by simp [Task.waitHash, hj, hpc])
    cases h
    exact .quiet hw ⟨rfl, rfl, rfl, rfl⟩ hj rfl
  · next hpc =>
    refine .idle ?_ (by simp [Task.computed, hj, hpc]) (by simp [Task.waitHash, hj, hpc])
    cases h
    exact .quiet hw ⟨rfl, rfl, rfl, rfl⟩ hj rfl
  · next hpc =>
    refine .idle ?_ (by simp [Task.computed, hj, hpc]) (by simp [Task.waitHash, hj, hpc])
    split at h <;> cases h
    · exact .quiet hw ⟨rfl, rfl, rfl, rfl⟩ hj rfl
    · exact .first hw (.ite_insertCache hw.keyed ⟨_, by simp [Task.computed, hj], rfl⟩)
        ⟨rfl, rfl, rfl, rfl⟩ hj nofun trivial (absurd rfl)
  · next hpc =>
    refine .idle ?_ (by simp [Task.computed, hj, hpc]) (by simp [Task.waitHash, hj, hpc])
    dsimp only at h
    split at h
    · cases h
      exact Task.upstreamDone_taskStep lib cfg inp (by exact hw.first ⟨rfl, rfl, rfl, rfl⟩ hj)
        (by exact hj) _ _
    split_ifs at h
    · cases h
      exact .quiet hw ⟨rfl, rfl, rfl, rfl⟩ hj rfl
    split at h <;> cases h
    · next he => exact .first hw (.of_entry he nofun) ⟨rfl, rfl, rfl, rfl⟩ hj nofun trivial (absurd rfl)
    · next he =>
      exact .first hw (.of_entry he fun _ ↦ by simp [Task.waitHash, hj]) ⟨rfl, rfl, rfl, rfl⟩ hj
        nofun trivial (absurd rfl)
  · next f hpc =>
    have hwait : t.waitHash = some t.vars.dedupeHash := by simp [Task.waitHash, hj, hpc]
    have hc : t.computed = none := by simp [Task.computed, hj, hpc]
    rw [hc, hwait]
    split at h <;> cases h
    · next hm =>
      exact .first hw .takeMail ⟨rfl, rfl, rfl, rfl⟩ hj nofun
        (.inr ⟨_, hm, rfl, (setId_drop_two _ _).symm⟩) fun _ ↦ by simp [EngineState.takeMail]
    · exact .first hw .takeMail ⟨rfl, rfl, rfl, rfl⟩ hj nofun trivial
        fun _ ↦ by simp [EngineState.takeMail]
  · next hpc =>
    refine .idle ?_ (by simp [Task.computed, hj, hpc]) (by simp [Task.waitHash, hj, hpc])
    cases h
    exact t.upstreamDone_taskStep lib cfg inp hw hj _ _
  · cases h
  · next result hpc =>
    have hc : t.computed = some result := by simp [Task.computed, hj, hpc]
    rw [hc, show t.waitHash = none by simp [Task.waitHash, hj, hpc]]
    cases h
    refine .first hw (.takeSlot hnw fun b hb ↦ ?_) ⟨rfl, rfl, rfl, rfl⟩ hj (fun r hr ↦ ?_) trivial
      (absurd rfl)
    · cases hb
      exact ⟨hw.keyed, _, by simp [Task.computed, hj], rfl⟩
    · cases hr
      simp [Task.computed, hj]
  · next result hpc =>
    have hc : t.computed = result := by simp [Task.computed, hj, hpc]
    rw [hc, show t.waitHash = none by simp [Task.waitHash, hj, hpc]]
    cases h
    refine .first hw ?_ ⟨rfl, rfl, rfl, rfl⟩ hj (fun r hr ↦ ?_) trivial (absurd rfl)
    · split
      · exact .dropGuard hnw _
      · exact .refl
    · simp [Task.computed, hj, hr]
  · cases h

theorem Task.jumpUpstreamOk_taskStep {jv : JumpVars} (hw : t.Wf lib)
    (hin : ∃ d, t.pc = .inJump d) (hjv : jv.Keyed lib t) (f : ForwardDecision) (raw : Bytes) :
    TaskStep lib t.req t.hashedPipelines none none i s (t.jumpUpstreamOk lib cfg inp s i jv f raw) := by
  unfold Task.jumpUpstreamOk
  dsimp only
  repeat' split
  all_goals first
    | exact .quietFrame hw hin ⟨hjv, trivial⟩
    | exact .quietFrame hw hin (hjv.finish rfl)
    | exact .frame hw (.insertCache hjv.1 ⟨_, rfl, rfl⟩) ⟨rfl, List.Subset.refl _, rfl⟩ hin rfl
        (hjv.finish rfl) nofun (absurd rfl)

theorem Task.stepJump_taskStep {jv : JumpVars} {pc : JumpPc} (hw : t.Wf lib) (hnw : NotWaiting i s)
    (hjump : t.jump = some (jv, pc)) (h : t.stepJump lib cfg inp s i jv pc = some s') :
    TaskStep lib t.req t.hashedPipelines t.computed t.waitHash i s s' := by
  obtain ⟨hin, hjv, hpcf⟩ := hw.jump jv pc hjump
  unfold Task.stepJump at h
  split at h
  · refine .idle ?_ (by simp [Task.computed, hjump]) (by simp [Task.waitHash, hjump])
    split at h
    · cases h
      exact .quietFrame hw hin (hjv.servFail lib)
    split at h
    · cases h
      exact .quietFrame hw hin (hjv.servFail lib)
    -- The head of the loop hashes the fingerprint of its pipeline, which joins the ghost.
    dsimp only at h
    have hjv' : ∀ {t' : Task}, t'.req = t.req →
        t'.hashedPipelines = jv.pipelineId :: t.hashedPipelines →
        t'.Keyed lib (calculateCacheHashForDedupe lib jv.pipelineId t.req.qname t.req.qtype) ∧
          ∀ k ∈ jv.inflightHashes, t'.Keyed lib k := fun hreq hps ↦
      ⟨⟨_, hps ▸ List.mem_cons_self _ _, by rw [Task.fingerprintIn, hreq]; rfl⟩,
        fun k hk ↦ (hjv.2 k hk).mono hreq (hps ▸ List.subset_cons_self _ _)⟩
    split at h <;> cases h
    all_goals refine TaskStep.frame hw ?_ ?_ ?_ rfl ?_ nofun (absurd rfl)
    all_goals first
      | exact .refl
      | exact .applyRulesFor ‹_›
      | exact ⟨rfl, List.subset_cons_self _ _, rfl⟩
      | exact hin
      | exact ⟨hjv' rfl rfl, trivial⟩
  · refine .idle ?_ (by simp [Task.computed, hjump]) (by simp [Task.waitHash, hjump])
    split at h
    · cases h
      exact .quietFrame hw hin (hjv.servFail lib)
    dsimp only at h
    split at h
    · cases h
      exact .quietFrame hw hin (JumpVars.Keyed.servFail (by exact hjv) lib)
    split at h <;> cases h
    · exact .quietFrame hw hin ⟨hjv, trivial⟩
    · next hs =>
      refine .frame hw (.applyRulesFor hs) ?_ ?_ rfl ⟨hjv, trivial⟩ nofun (absurd rfl)
      exacts [⟨rfl, List.Subset.refl _, rfl⟩, hin]
  · refine .idle ?_ (by simp [Task.computed, hjump]) (by simp [Task.waitHash, hjump])
    cases h
    exact .quietFrame hw hin ⟨hjv, trivial⟩
  · refine .idle ?_ (by simp [Task.computed, hjump]) (by simp [Task.waitHash, hjump])
    split at h <;> cases h
    · exact .quietFrame hw hin ⟨hjv, trivial⟩
    · exact .frame hw (.insertCache hjv.1 ⟨_, rfl, rfl⟩) ⟨rfl, List.Subset.refl _, rfl⟩ hin rfl (hjv.finish rfl) nofun
        (absurd rfl)
  · refine .idle ?_ (by simp [Task.computed, hjump]) (by simp [Task.waitHash, hjump])
    split at h
    · cases h
      exact t.jumpUpstreamOk_taskStep lib cfg inp hw hin (by exact hjv) _ _
    split at h <;> cases h
    · next he =>
      refine .frame hw (.of_entry he nofun) ?_ ?_ rfl ⟨hjv.register _, trivial⟩ nofun (absurd rfl)
      exacts [⟨rfl, List.Subset.refl _, rfl⟩, hin]
    · next he =>
      refine .frame hw (.of_entry he fun _ ↦ rfl) ?_ ?_ rfl ⟨hjv, trivial⟩ nofun (absurd rfl)
      exacts [⟨rfl, List.Subset.refl _, rfl⟩, hin]
  · refine .idle ?_ (by simp [Task.computed, hjump]) (by simp [Task.waitHash, hjump])
    dsimp only at h
    split at h <;> cases h <;>
      exact .quietFrame hw hin ⟨hjv, trivial⟩
  · rw [show t.computed = none by simp [Task.computed, hjump],
      show t.waitHash = some jv.dedupeHash by simp [Task.waitHash, hjump]]
    split at h <;> cases h
    · exact .frame hw .takeMail ⟨rfl, List.Subset.refl _, rfl⟩ hin rfl (hjv.finish (setId_drop_two _ _).symm) nofun
        fun _ ↦ by simp [EngineState.takeMail]
    · exact .frame hw .takeMail ⟨rfl, List.Subset.refl _, rfl⟩ hin rfl ⟨hjv, trivial⟩ nofun
        fun _ ↦ by simp [EngineState.takeMail]
  · refine .idle ?_ (by simp [Task.computed, hjump]) (by simp [Task.waitHash, hjump])
    split at h <;> cases h
    · exact t.jumpUpstreamOk_taskStep lib cfg inp hw hin hjv _ _
    · exact .quietFrame hw hin (hjv.servFail lib)
  · rw [show t.waitHash = none by simp [Task.waitHash, hjump]]
    cases h
    refine .frame hw .refl ⟨rfl, List.Subset.refl _, rfl⟩ hin rfl ⟨hjv, trivial⟩ (fun r hr ↦ ?_) (absurd rfl)
    simpa [Task.computed, Task.withJump, hjump] using hr
  · next k rest sent reply =>
    rw [show t.waitHash = none by simp [Task.waitHash, hjump]]
    cases h
    refine .frame hw (.takeSlot hnw fun b hb ↦ ⟨hpcf.1 k (List.mem_cons_self _ _), reply, rfl, ?_⟩)
      ⟨rfl, List.Subset.refl _, rfl⟩ hin rfl ⟨hjv, fun k' hk' ↦ hpcf.1 k' (List.mem_cons_of_mem _ hk'), hpcf.2⟩
      (fun r hr ↦ ?_) (absurd rfl)
    · cases hb
      exact hpcf.2.symm
    · simpa [Task.computed, Task.withJump, hjump] using hr
  · next g rest result =>
    rw [show t.waitHash = none by simp [Task.waitHash, hjump]]
    cases h
    refine .frame hw (.dropGuard hnw g) ⟨rfl, List.Subset.refl _, rfl⟩ hin rfl ⟨hjv, trivial⟩ (fun r hr ↦ ?_) (absurd rfl)
    simpa [Task.computed, Task.withJump, hjump] using hr
  · next result =>
    have hc : t.computed = result := by simp [Task.computed, hjump]
    rw [hc, show t.waitHash = none by simp [Task.waitHash, hjump]]
    split at h <;> cases h
    · next b defuse hin' =>
      refine .first hw .refl ⟨rfl, rfl, by cases defuse <;> rfl, by cases defuse <;> rfl⟩ rfl
        (fun r hr ↦ ?_) trivial (absurd rfl)
      cases hr
      rfl
    · next hne =>
      refine .first hw .refl ⟨rfl, rfl, rfl, rfl⟩ rfl (fun r hr ↦ ?_) trivial (absurd rfl)
      obtain ⟨d, hd⟩ := hin
      exact absurd hd (hne r d hr)

/-- A step of a task is a `TaskStep` of its request, ghost, commitment and wait. -/
theorem EngineState.stepTask_taskStep (hw : t.Wf lib) (hnw : NotWaiting i s)
    (ht : s.tasks i = some t) (h : s.stepTask lib cfg inp i = some s') :
    TaskStep lib t.req t.hashedPipelines t.computed t.waitHash i s s' := by
  unfold EngineState.stepTask at h
  rw [ht] at h
  dsimp only at h
  split at h
  · next jv pc hjump => exact t.stepJump_taskStep lib cfg inp hw hnw hjump h
  · next hjump => exact t.stepHandle_taskStep lib cfg inp hw hjump hnw h

/-- A follower takes a step only once its mailbox holds something. -/
theorem EngineState.stepTask_mailbox (ht : s.tasks i = some t)
    (h : s.stepTask lib cfg inp i = some s') (hwait : t.waitHash ≠ none) :
    (s.mailbox i).isSome := by
  cases hm : s.mailbox i with
  | some _ => rfl
  | none =>
    unfold Task.waitHash at hwait
    split at hwait <;> simp only [ne_eq, not_true_eq_false] at hwait <;>
      simp [EngineState.stepTask, ht, *, Task.stepJump, Task.stepHandle] at h

end Steps

/-! ## Arrivals -/

section Arrivals

variable {lib : Lib} {cfg : RuntimePipelineConfig} {label : String} {s : EngineState}
  {i : TaskId} {t : Task}

/-- A task that `newTask` starts hashed its fingerprint in the pipeline it selected. -/
theorem newTask_taskStep {packet : Bytes} {peer : IpAddr}
    (h : newTask lib cfg label packet peer = some t) :
    TaskStep lib t.req t.hashedPipelines none none i s (s.setTask i t) := by
  unfold newTask at h
  cases hp : parseRequest lib packet peer <;> simp only [hp] at h <;> cases h
  exact ⟨_, _, rfl, .refl, rfl, List.Subset.refl _,
    ⟨rfl, List.mem_singleton_self _, fun _ _ h ↦ nomatch h⟩, nofun, trivial, absurd rfl⟩

/-- A task that `handle_packet_fast` answers reuses only the entry of the cache under the hash
of its fingerprint. -/
theorem handlePacketFast_taskStep {packet : Bytes} {peer : IpAddr}
    (h : handlePacketFast lib cfg label s packet peer = some (some t)) :
    TaskStep lib t.req t.hashedPipelines none none i s (s.setTask i t) := by
  have hw : ∀ {t' : Task}, t'.jump = none → t'.hashedPipelines = [t'.vars.currentPipelineId] →
      t'.vars.dedupeHash = t'.fingerprint.hash lib → t'.Wf lib := fun hj hps hd ↦
    ⟨hd, hps ▸ List.mem_singleton_self _, fun _ _ h ↦ by simp [hj] at h⟩
  unfold handlePacketFast at h
  dsimp only at h
  repeat' split at h
  all_goals first
    | (cases h
       exact ⟨_, _, rfl, .refl, rfl, List.Subset.refl _, hw rfl rfl rfl, nofun,
        .inl ⟨_, _, DnsCache.eq_of_lookup ‹_›, (setId_drop_two _ _).symm⟩, absurd rfl⟩)
    | (obtain ⟨_, -, h⟩ := Option.map_eq_some'.mp h
       cases h
       exact ⟨_, _, rfl, .refl, rfl, List.Subset.refl _, hw rfl rfl rfl, nofun, trivial,
        absurd rfl⟩)
    | cases h

end Arrivals

/-! ## The invariant of the protocol -/

/-- What every reachable engine satisfies: its tasks are well formed, a task listed as a
waiter of a slot awaits its mailbox as a follower under the slot's hash, and a task whose
mailbox holds something awaits it and is off the slot it awaited. -/
structure EngineInv (lib : Lib) (s : EngineState) : Prop where
  wf : ∀ i t, s.tasks i = some t → t.Wf lib
  waiters : ∀ k slot, s.inflight k = some slot → ∀ w ∈ slot.waiters,
    ∃ t, s.tasks w = some t ∧ t.waitHash = some k
  mailbox : ∀ w m, s.mailbox w = some m → ∃ t k, s.tasks w = some t ∧ t.waitHash = some k ∧
    ∀ slot, s.inflight k = some slot → w ∉ slot.waiters

namespace EngineInv

variable {lib : Lib} {s s' : EngineState}

theorem init : EngineInv lib EngineState.init :=
  ⟨fun _ _ h ↦ (nomatch h), fun _ _ h ↦ (nomatch h), fun _ _ h ↦ (nomatch h)⟩

/-- A task that is about to take a step is listed as a waiter of no slot: either it awaits
nothing, or its mailbox holds something and it is off the slot. -/
theorem notWaiting (h : EngineInv lib s) {i : TaskId} {t : Task} (ht : s.tasks i = some t)
    (hready : t.waitHash ≠ none → (s.mailbox i).isSome) : NotWaiting i s := by
  intro k slot hk hi
  obtain ⟨t₁, ht₁, hw₁⟩ := h.waiters k slot hk i hi
  rw [ht] at ht₁
  cases ht₁
  obtain ⟨m, hm⟩ := Option.isSome_iff_exists.mp (hready (by simp [hw₁]))
  obtain ⟨t₂, k₂, ht₂, hw₂, hgone⟩ := h.mailbox i m hm
  rw [ht] at ht₂
  cases ht₂
  rw [hw₁] at hw₂
  cases hw₂
  exact hgone slot hk hi

/-- A task id with no task is listed as a waiter of no slot. -/
theorem notWaiting_of_none (h : EngineInv lib s) {i : TaskId} (hi : s.tasks i = none) :
    NotWaiting i s := fun k slot hk hw ↦ by
  obtain ⟨t, ht, -⟩ := h.waiters k slot hk i hw
  simp [hi] at ht

theorem of_taskStep {req : Request} {ps : List String} {old : Option Bytes}
    {wait : Option UInt64} {i : TaskId} (h : EngineInv lib s)
    (hold : ∀ tp, s.tasks i = some tp → tp.waitHash = wait) (hnw : NotWaiting i s)
    (hs : TaskStep lib req ps old wait i s s') : EngineInv lib s' := by
  obtain ⟨X, t', rfl, hr⟩ := hs
  have htasks : ∀ p, (X.setTask i t').tasks p = if p = i then some t' else s.tasks p := by
    intro p
    simp [EngineState.setTask, Function.update_apply, hr.shared.tasks]
  have hother : ∀ p, p ≠ i → (X.setTask i t').tasks p = s.tasks p := fun p hp ↦ by
    simp [htasks, hp]
  refine ⟨fun p tp hp ↦ ?_, fun k slot hk w hws ↦ ?_, fun w m hm ↦ ?_⟩
  · rw [htasks] at hp
    split_ifs at hp
    · cases hp
      exact hr.wf
    · exact h.wf p tp hp
  · rcases hr.shared.waiters k slot hk w hws with ⟨slot₀, h0, hw0⟩ | ⟨rfl, hwk⟩
    · have hwi : w ≠ i := fun hwi ↦ hnw k slot₀ h0 (hwi ▸ hw0)
      rw [hother w hwi]
      exact h.waiters k slot₀ h0 w hw0
    · exact ⟨t', by simp [htasks], hwk⟩
  · rcases hr.shared.mailbox w m hm with hm' | ⟨hwi, k, slot, hk, hws, hgone, -⟩
    · obtain ⟨tw, k, htw, hwk, hgone⟩ := h.mailbox w m hm'
      have hwi : w ≠ i := by
        rintro rfl
        have hm : X.mailbox w = some m := hm
        rw [hr.took (by simp [← hold tw htw, hwk])] at hm
        cases hm
      refine ⟨tw, k, by rw [hother w hwi, htw], hwk, fun slot' hk' hw' ↦ ?_⟩
      rcases hr.shared.waiters k slot' hk' w hw' with ⟨slot₀, h0, hw0⟩ | ⟨rfl, -⟩
      · exact hgone slot₀ h0 hw0
      · exact hwi rfl
    · obtain ⟨tw, htw, hwk⟩ := h.waiters k slot hk w hws
      exact ⟨tw, k, by rw [hother w hwi, htw], hwk, hgone⟩

/-- What an event does to an engine that keeps the invariant: a step of one task, listed as
a waiter of no slot, on the request `req` with ghost `ps`, commitment `old` and wait `wait`
if the task was there before; or a change that leaves the tasks, the slots and the
mailboxes alone and only drops entries from the response cache. -/
theorem apply_cases {cfg : RuntimePipelineConfig} {label : String} {e : Event}
    (h : EngineInv lib s) (he : e.apply lib cfg label s = some s') :
    (∃ i req ps old wait, NotWaiting i s ∧
      (∀ tp, s.tasks i = some tp →
        tp.req = req ∧ tp.hashedPipelines = ps ∧ tp.computed = old ∧ tp.waitHash = wait) ∧
      TaskStep lib req ps old wait i s s') ∨
    (s'.tasks = s.tasks ∧ s'.inflight = s.inflight ∧ s'.mailbox = s.mailbox ∧
      ∀ k x, s'.cache k = some x → s.cache k = some x) := by
  have hnew : ∀ i t ps, s.tasks i = none → TaskStep lib t.req ps none none i s (s.setTask i t) →
      ∃ j req ps old wait, NotWaiting j s ∧
        (∀ tp, s.tasks j = some tp →
          tp.req = req ∧ tp.hashedPipelines = ps ∧ tp.computed = old ∧ tp.waitHash = wait) ∧
        TaskStep lib req ps old wait j s (s.setTask i t) := fun i t ps hi ht ↦
    ⟨i, _, _, _, _, h.notWaiting_of_none hi, fun tp htp ↦ by simp [hi] at htp, ht⟩
  cases e with
  | udp i packet peer =>
    simp only [Event.apply] at he
    split_ifs at he with hi
    have hi : s.tasks i = none := by simpa using hi
    split at he
    · cases he
      exact .inr ⟨rfl, rfl, rfl, fun _ _ ↦ id⟩
    · next ht =>
      cases he
      exact .inl (hnew i _ _ hi (handlePacketFast_taskStep ht))
    · cases hn : newTask lib cfg label packet peer <;> simp only [hn, Option.elim] at he <;> cases he
      · exact .inr ⟨rfl, rfl, rfl, fun _ _ ↦ id⟩
      · exact .inl (hnew i _ _ hi (newTask_taskStep hn))
  | tcp i packet peer =>
    simp only [Event.apply] at he
    split_ifs at he with hi
    have hi : s.tasks i = none := by simpa using hi
    cases hn : newTask lib cfg label packet peer <;> simp only [hn, Option.elim] at he <;> cases he
    · exact .inr ⟨rfl, rfl, rfl, fun _ _ ↦ id⟩
    · exact .inl (hnew i _ _ hi (newTask_taskStep hn))
  | step i inp =>
    simp only [Event.apply] at he
    cases ht : s.tasks i with
    | none => simp [EngineState.stepTask, ht] at he
    | some t =>
      have hnw := h.notWaiting ht (EngineState.stepTask_mailbox lib cfg inp ht he)
      refine .inl ⟨i, _, _, _, _, hnw, fun tp htp ↦ ?_,
        EngineState.stepTask_taskStep lib cfg inp (h.wf i t ht) hnw ht he⟩
      rw [ht] at htp
      cases htp
      exact ⟨rfl, rfl, rfl, rfl⟩
  | tick d =>
    cases he
    exact .inr ⟨rfl, rfl, rfl, fun _ _ ↦ id⟩
  | evictCache k =>
    cases he
    refine .inr ⟨rfl, rfl, rfl, fun k' x hk ↦ ?_⟩
    simp only [Function.update_apply] at hk
    split_ifs at hk
    exact hk
  | evictRule k =>
    cases he
    exact .inr ⟨rfl, rfl, rfl, fun _ _ ↦ id⟩

/-- Every event keeps the invariant. -/
theorem apply {cfg : RuntimePipelineConfig} {label : String} {e : Event} (h : EngineInv lib s)
    (he : e.apply lib cfg label s = some s') : EngineInv lib s' := by
  rcases h.apply_cases he with ⟨i, req, ps, old, wait, hnw, hold, hs⟩ | ⟨ht, hf, hm, -⟩
  · exact h.of_taskStep (fun tp htp ↦ (hold tp htp).2.2.2) hnw hs
  · refine ⟨fun i t hi ↦ h.wf i t (ht ▸ hi), fun k slot hk ↦ ?_, fun w m hw ↦ ?_⟩
    · rw [ht]
      exact h.waiters k slot (hf ▸ hk)
    · rw [ht, hf]
      exact h.mailbox w m (hm ▸ hw)

end EngineInv

/-- **In every reachable engine, over every interleaving of its tasks, a task listed as a
waiter of a single-flight slot awaits its mailbox as a follower under the slot's hash, a
task whose mailbox holds something awaits it and is off the slot, and every hash a task
files under is the hash of its request's fingerprint in a pipeline it went through.** -/
theorem Reachable.engineInv {lib : Lib} {cfg : RuntimePipelineConfig} {label : String}
    {s : EngineState} (h : Reachable lib cfg label s) : EngineInv lib s := by
  induction h with
  | init => exact .init
  | step _ _ he ih => exact ih.apply he

/-! ## Who owns a slot

The single-flight map is meant to hold a hash only while the task that inserted it through
a vacant entry is still at work: that task, the leader, notifies the waiters and removes
the slot, or its guard removes it when it leaves early.  `EngineInv` does not say so, and
three paths break it.

* After a `Continue` result `handle_packet` defuses its guard without notifying ("waiters
  will be notified when the final decision is reached"), but a static decision returns
  without notifying: the slot outlives its leader, and every later request with the same
  hash waits on it.
* `process_response_jump` registers at every `Forward` it reaches, with no record of the
  slots it already holds; after a `Continue` it reaches the slot it holds and waits on
  itself.
* On an upstream error with `on_miss` actions `handle_packet` notifies, which removes the
  slot, and then returns with its guard still active, whose drop removes the slot again,
  by then another leader's. -/

/-- The task has returned. -/
def Task.returned (t : Task) : Bool :=
  match t.pc with
  | .done .. => true
  | _ => false

/-- Every slot belongs to a task that has not returned. -/
def SlotsOwned (s : EngineState) : Prop :=
  ∀ k slot, s.inflight k = some slot → ∃ t, s.tasks slot.owner = some t ∧ t.returned = false

/-- No task waits on a slot it owns. -/
def NoSelfWait (s : EngineState) : Prop :=
  ∀ k slot, s.inflight k = some slot → slot.owner ∉ slot.waiters

/-- The hash of the fingerprint of `sampleQuery` in pipeline `p`. -/
def sampleKey (p : String) : UInt64 :=
  calculateCacheHashForDedupe sampleLib p "a.example" RecordType.A

/-- Rule `f` forwards and continues when the answer matches; rule `deny` refuses. -/
def continueThenDenyConfig : RuntimePipelineConfig :=
  ⟨⟨0, "1.1.1.1:53", 2000, 10, 0, 0⟩, [],
    [⟨"p", [anyRule "f" [.Forward none none] [.Continue], anyRule "deny" [.Deny] []]⟩]⟩

/-- Task `0` leads on `p`, continues, and returns the refusal of `deny`; task `1`, the same
query from another client, then finds the slot and waits. -/
def orphanRun : List Event :=
  [.tcp 0 sampleQuery (.v4 0)] ++ List.replicate 4 (.step 0 noAnswer) ++
    [.step 0 sampleAnswered] ++ List.replicate 2 (.step 0 noAnswer) ++
    [.tcp 1 sampleQuery (.v4 1)] ++ List.replicate 4 (.step 1 noAnswer)

/-- `q1` forwards and jumps to `p2` when the answer matches; in `p2`, rule `g` forwards and
continues when the answer matches, and rule `h` forwards. -/
def continueInJumpConfig : RuntimePipelineConfig :=
  ⟨⟨0, "1.1.1.1:53", 2000, 10, 0, 0⟩, [],
    [⟨"q1", [anyRule "f1" [.Forward none none] [.JumpToPipeline "p2"]]⟩,
      ⟨"p2", [anyRule "g" [.Forward none none] [.Continue], anyRule "h" [.Forward none none] []]⟩]⟩

/-- Task `0` forwards in `q1`, jumps to `p2`, leads on `p2` for `g`, continues, and
registers on `p2` again for `h`. -/
def selfWaitRun : List Event :=
  [.tcp 0 sampleQuery (.v4 0)] ++ List.replicate 4 (.step 0 noAnswer) ++
    [.step 0 sampleAnswered] ++ List.replicate 3 (.step 0 noAnswer) ++
    [.step 0 sampleAnswered] ++ List.replicate 3 (.step 0 noAnswer)

/-- Rule `f` forwards, and refuses when the upstream fails. -/
def denyOnMissConfig : RuntimePipelineConfig :=
  ⟨⟨0, "1.1.1.1:53", 2000, 10, 0, 0⟩, [],
    [⟨"p", [⟨"f", .And, [⟨.And, .Any⟩], [.Forward none none], [], .And, [], [.Deny]⟩]⟩]⟩

/-- Task `0` leads on `p`, its upstream fails, and it notifies; task `1` then leads on
`p`. -/
def stolenSlotRun : List Event :=
  [.tcp 0 sampleQuery (.v4 0)] ++ List.replicate 6 (.step 0 noAnswer) ++
    [.tcp 1 sampleQuery (.v4 0)] ++ List.replicate 4 (.step 1 noAnswer)

theorem singleFlight_ownership_violations :
    (∃ s, Reachable sampleLib continueThenDenyConfig "" s ∧ ¬ SlotsOwned s ∧
      s.inflight (sampleKey "p") = some ⟨0, [1]⟩ ∧
      s.stepTask sampleLib continueThenDenyConfig noAnswer 1 = none) ∧
    (∃ s, Reachable sampleLib continueInJumpConfig "" s ∧ ¬ NoSelfWait s ∧
      s.inflight (sampleKey "p2") = some ⟨0, [0]⟩ ∧
      s.stepTask sampleLib continueInJumpConfig noAnswer 0 = none) ∧
    (∃ s s', Reachable sampleLib denyOnMissConfig "" s ∧ s.inflight (sampleKey "p") = some ⟨1, []⟩ ∧
      (Event.step 0 noAnswer).apply sampleLib denyOnMissConfig "" s = some s' ∧
      s'.inflight (sampleKey "p") = none) := by
  refine ⟨⟨_, @Reachable.run sampleLib continueThenDenyConfig "" orphanRun _ _ .init rfl,
      fun h ↦ ?_, rfl, rfl⟩,
    ⟨_, @Reachable.run sampleLib continueInJumpConfig "" selfWaitRun _ _ .init rfl,
      fun h ↦ h (sampleKey "p2") ⟨0, [0]⟩ rfl (by decide), rfl, rfl⟩,
    ⟨_, _, @Reachable.run sampleLib denyOnMissConfig "" stolenSlotRun _ _ .init rfl, rfl, rfl,
      rfl⟩⟩
  obtain ⟨t, ht, hr⟩ := h (sampleKey "p") ⟨0, [1]⟩ rfl
  cases ht
  exact absurd hr (by decide)

/-- The engine with an orphaned slot keeps the invariant of the protocol: task `1` waits
under the slot's hash, though its leader has returned. -/
theorem orphanRun_engineInv :
    ∃ s, Reachable sampleLib continueThenDenyConfig "" s ∧ EngineInv sampleLib s :=
  have hr := @Reachable.run sampleLib continueThenDenyConfig "" orphanRun _ _ .init rfl
  ⟨_, hr, Reachable.engineInv hr⟩

end KixDns
