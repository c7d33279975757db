import KixDns.Engine.SingleFlight

/-!
# Where a reused response comes from

Two paths answer a request with a response that another request produced: the L2 probes
of `handle_packet_fast` and `handle_packet`, and the single-flight follower path, which
takes what its leader sends.  Both look up the 64-bit hash of the fingerprint
`(pipeline, lowercased qname, qtype)`, so a reused response need not be the one the engine
would compute for the request it answers (`responseCache_serves_blocked_client`): the rules
may read the client address, the class or the EDNS presence, and the response echoes the
question's case and the RD flag, none of which the fingerprint holds.

What does hold is provenance.  Every reused response equals, except for its first two
bytes, a response that some task committed to, and that task hashed its own fingerprint in
some pipeline into the very hash the response was reused under.  So the two fingerprints
are the same, pipeline included, or they are two fingerprints that the 64-bit hash
collides, which every hash of unbounded names does for some pair.  The probes compare the
fields stored in the entry with the request, but the follower path compares nothing, so
that case is not excluded.

`ReuseInv` gives the provenance of every entry of the response cache, of every mailbox and
of every reused answer, on top of the invariant of the protocol.  Each step of a task
touches the shared maps only as `SharedStep` allows, which is what makes it inductive.
-/

namespace KixDns

/-- Some task committed to `b`, up to its first two bytes, and files under `k`. -/
def Backed (lib : Lib) (s : EngineState) (k : UInt64) (b : Bytes) : Prop :=
  ∃ p tp r, s.tasks p = some tp ∧ tp.Keyed lib k ∧ tp.computed = some r ∧ r.drop 2 = b.drop 2

theorem Backed.of_drop_eq {lib : Lib} {s : EngineState} {k : UInt64} {b b' : Bytes}
    (h : Backed lib s k b) (hb : b.drop 2 = b'.drop 2) : Backed lib s k b' := by
  obtain ⟨p, tp, r, hp, hk, hr, hrb⟩ := h
  exact ⟨p, tp, r, hp, hk, hr, hrb.trans hb⟩

/-- What every reachable engine satisfies: the invariant of the protocol, and every cache
entry, every response in a mailbox and every reused answer is backed by a committed
response under the hash it is filed, awaited or reused under. -/
structure ReuseInv (lib : Lib) (s : EngineState) : Prop where
  engine : EngineInv lib s
  cache : ∀ k e t0, s.cache k = some (e, t0) → Backed lib s k e.bytes
  mailbox : ∀ w b, s.mailbox w = some (some b) →
    ∃ t k, s.tasks w = some t ∧ t.waitHash = some k ∧ Backed lib s k b
  reused : ∀ i t b, s.tasks i = some t → t.reused = some b → Backed lib s t.vars.dedupeHash b

namespace ReuseInv

variable {lib : Lib} {s s' : EngineState}

theorem init : ReuseInv lib EngineState.init :=
  ⟨.init, fun _ _ _ h ↦ (nomatch h), fun _ _ h ↦ (nomatch h), fun _ _ _ h ↦ (nomatch h)⟩

/-- A step of task `i`, which held a task on `req` with ghost `ps`, commitment `old` and
wait `wait`, or none, keeps the invariant. -/
theorem of_taskStep {req : Request} {ps : List String} {old : Option Bytes}
    {wait : Option UInt64} {i : TaskId} (h : ReuseInv lib s)
    (hold : ∀ tp, s.tasks i = some tp →
      tp.req = req ∧ tp.hashedPipelines = ps ∧ tp.computed = old ∧ tp.waitHash = wait)
    (hnw : NotWaiting i s) (hs : TaskStep lib req ps old wait i s s') : ReuseInv lib s' := by
  have he := h.engine.of_taskStep (fun tp htp ↦ (hold tp htp).2.2.2) hnw hs
  obtain ⟨X, t', rfl, hr⟩ := hs
  have htasks : ∀ p, (X.setTask i t').tasks p = if p = i then some t' else s.tasks p := by
    intro p
    simp [EngineState.setTask, Function.update_apply, hr.shared.tasks]
  have hother : ∀ p, p ≠ i → (X.setTask i t').tasks p = s.tasks p := fun p hp ↦ by
    simp [htasks, hp]
  have hti : (X.setTask i t').tasks i = some t' := by simp [htasks]
  -- Every task keeps its request, its ghost and its commitment.
  have hmono : ∀ k b, Backed lib s k b → Backed lib (X.setTask i t') k b := by
    rintro k b ⟨p, tp, r, hp, hk, hr', hb⟩
    by_cases hpi : p = i
    · subst hpi
      obtain ⟨hq, hps, hc, -⟩ := hold tp hp
      exact ⟨p, t', r, hti, hk.mono (hr.req.trans hq.symm) (hps ▸ hr.hashed),
        hr.keep r (hc ▸ hr'), hb⟩
    · exact ⟨p, tp, r, by rw [hother p hpi, hp], hk, hr', hb⟩
  have hself : ∀ k b, t'.Keyed lib k → Backs t'.computed b → Backed lib (X.setTask i t') k b := by
    rintro k b hk ⟨r, hr', hb⟩
    exact ⟨i, t', r, hti, hk, hr', hb⟩
  refine ⟨he, fun k e t0 hk ↦ ?_, fun w b hm ↦ ?_, fun p tp b hp hb ↦ ?_⟩
  · rcases hr.shared.cache k e t0 hk with hk | ⟨hkk, hb⟩
    · exact hmono _ _ (h.cache k e t0 hk)
    · exact hself k _ hkk hb
  · rcases hr.shared.mailbox w (some b) hm with hm' | ⟨hwi, k, slot, hk, hws, -, hb⟩
    · obtain ⟨tw, k, htw, hwk, hback⟩ := h.mailbox w b hm'
      have hwi : w ≠ i := by
        rintro rfl
        have hm : X.mailbox w = some (some b) := hm
        rw [hr.took (by simp [← (hold tw htw).2.2.2, hwk])] at hm
        cases hm
      exact ⟨tw, k, by rw [hother w hwi, htw], hwk, hmono _ _ hback⟩
    · obtain ⟨tw, htw, hwk⟩ := h.engine.waiters k slot hk w hws
      obtain ⟨hkk, hbk⟩ := hb b rfl
      exact ⟨tw, k, by rw [hother w hwi, htw], hwk, hself k b hkk hbk⟩
  · by_cases hpi : p = i
    · subst hpi
      rw [hti] at hp
      cases hp
      have hre : ReusedFrom s wait p t'.vars.dedupeHash (some b) := hb ▸ hr.reused
      rcases hre with ⟨e, t0, hc, heb⟩ | ⟨b', hm, hwait, heb⟩
      · exact hmono _ _ ((h.cache _ e t0 hc).of_drop_eq heb)
      · obtain ⟨t₀, k₀, ht₀, hw₀, hback⟩ := h.mailbox p b' hm
        rw [(hold t₀ ht₀).2.2.2, hwait] at hw₀
        cases hw₀
        exact hmono _ _ (hback.of_drop_eq heb)
    · rw [hother p hpi] at hp
      exact hmono _ _ (h.reused p tp b hp hb)

/-- Every event keeps the invariant. -/
theorem apply {cfg : RuntimePipelineConfig} {label : String} {e : Event} (h : ReuseInv lib s)
    (he : e.apply lib cfg label s = some s') : ReuseInv lib s' := by
  rcases h.engine.apply_cases he with ⟨i, req, ps, old, wait, hnw, hold, hs⟩ | ⟨ht, hf, hm, hc⟩
  · exact h.of_taskStep hold hnw hs
  · have hback : ∀ k b, Backed lib s k b → Backed lib s' k b := by
      rintro k b ⟨p, tp, r, hp, hrest⟩
      exact ⟨p, tp, r, ht ▸ hp, hrest⟩
    refine ⟨h.engine.apply he, fun k e t0 hk ↦ hback _ _ (h.cache k e t0 (hc k _ hk)),
      fun w b hw ↦ ?_, fun i t b hi hb ↦ hback _ _ (h.reused i t b (ht ▸ hi) hb)⟩
    obtain ⟨tw, k, htw, hwk, hb⟩ := h.mailbox w b (hm ▸ hw)
    exact ⟨tw, k, ht ▸ htw, hwk, hback _ _ hb⟩

end ReuseInv

end KixDns
