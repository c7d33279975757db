import KixDns.Engine.RuleWalk

/-!
# The rule-decision cache over runs

With the configuration fixed, the rule cache changes only when `apply_rules` writes a
decision and when the cache drops an entry (time to live, capacity).  A run is any sequence
of such events, with `apply_rules` called on the pipelines the snapshot's lookup returns and
with any skip set, as `handle_packet` and `process_response_jump` call it.

The cache key is `(pipeline id, qname, client ip)`.  The invariant `RuleCacheSound` says
every entry is the decision `apply_rules` computes without the cache for its key, under the
query type, class, EDNS presence and skip set of the call that wrote it.  So a decision
read back from the cache is fresh for the key, and it is the fresh decision of the reading
request as soon as the pipeline's matchers read neither the class nor EDNS presence, under
the skip set the entry was written with.  `apply_rules` reads the cache only without a skip
set but writes it under any, so that skip set need not be empty.
-/

namespace KixDns

/-- The request fields `apply_rules` reads. -/
structure RuleRequest where
  clientIp : IpAddr
  qname : String
  qtype : RecordType
  qclass : DNSClass
  ednsPresent : Bool
deriving DecidableEq, Repr

variable (lib : Lib) (cfg : RuntimePipelineConfig)

/-- The decision `apply_rules` computes when the rule cache does not answer, with the engine
built on `cfg`. -/
def freshDecision (p : RuntimePipeline) (req : RuleRequest) (skipRules : Option (List String)) :
    Option Decision :=
  (applyRulesUncached lib (compilePipelines cfg) cfg p req.clientIp req.qname req.qtype
    req.qclass req.ednsPresent skipRules RuleCache.empty).map Prod.fst

/-- On a miss, `apply_rules` returns the fresh decision and leaves the cache as it was or
writes that decision under the request's key. -/
theorem applyRulesUncached_spec {p : RuntimePipeline} {req : RuleRequest}
    {skipRules : Option (List String)} {cache cache' : RuleCache} {d : Decision}
    (h : applyRulesUncached lib (compilePipelines cfg) cfg p req.clientIp req.qname req.qtype
      req.qclass req.ednsPresent skipRules cache = some (d, cache')) :
    freshDecision lib cfg p req skipRules = some d ∧
      (cache' = cache ∨ cache' = cache.insert (calculateRuleHash p.id req.qname req.clientIp)
        (ruleCacheEntry p.id req.qname req.clientIp d)) := by
  unfold freshDecision applyRulesUncached at *
  dsimp only at h ⊢
  split at h
  · cases h
  · rename_i hw; obtain ⟨rfl, rfl⟩ := Prod.mk.inj (Option.some.inj h); simp [hw]
  · rename_i hw; obtain ⟨rfl, rfl⟩ := Prod.mk.inj (Option.some.inj h); simp [hw]
  · rename_i hw; obtain ⟨rfl, rfl⟩ := Prod.mk.inj (Option.some.inj h); simp [hw]

/-! ## Runs -/

/-- What can happen to the rule cache. -/
inductive RuleCacheEvent where
  /-- A call of `apply_rules`. -/
  | call (p : RuntimePipeline) (req : RuleRequest) (skipRules : Option (List String))
  /-- The cache drops an entry. -/
  | evict (k : RuleKey)

/-- The cache after an event; a call that panics writes nothing. -/
def RuleCacheEvent.apply : RuleCacheEvent → RuleCache → RuleCache
  | .call p req skipRules, c =>
    match applyRules lib (compilePipelines cfg) cfg p req.clientIp req.qname req.qtype req.qclass
        req.ednsPresent skipRules c with
    | some (_, c') => c'
    | none => c
  | .evict k, c => fun k' ↦ if k' = k then none else c k'

/-- The engine calls `apply_rules` only on a pipeline that the snapshot's lookup by id
returns (`select_pipeline`, and `find` at every jump and `Continue`). -/
def RuleCacheEvent.Allowed : RuleCacheEvent → Prop
  | .call p _ _ => cfg.findPipeline p.id = some p
  | .evict _ => True

/-- The rule caches reachable from an empty one. -/
inductive RuleCacheReachable : RuleCache → Prop
  | init : RuleCacheReachable RuleCache.empty
  | step {c : RuleCache} (ev : RuleCacheEvent) :
      ev.Allowed cfg → RuleCacheReachable c → RuleCacheReachable (ev.apply lib cfg c)

/-- Every entry is the fresh decision for its key under some request fields and skip set. -/
def RuleCacheSound (c : RuleCache) : Prop :=
  ∀ k e, c k = some e → ∃ p, cfg.findPipeline k.pipelineId = some p ∧
    ∃ qtype qclass ednsPresent skipRules,
      freshDecision lib cfg p ⟨k.clientIp, k.qname, qtype, qclass, ednsPresent⟩ skipRules = some e.decision

theorem RuleCacheSound.insert {c : RuleCache} (h : RuleCacheSound lib cfg c) {p : RuntimePipeline}
    (hp : cfg.findPipeline p.id = some p) {req : RuleRequest} {skipRules : Option (List String)}
    {d : Decision} (hd : freshDecision lib cfg p req skipRules = some d) :
    RuleCacheSound lib cfg (c.insert (calculateRuleHash p.id req.qname req.clientIp)
      (ruleCacheEntry p.id req.qname req.clientIp d)) := by
  intro k e hk
  by_cases hkey : k = calculateRuleHash p.id req.qname req.clientIp
  · subst hkey
    simp only [RuleCache.insert_self, Option.some.injEq] at hk
    subst hk
    exact ⟨p, hp, req.qtype, req.qclass, req.ednsPresent, skipRules, hd⟩
  · rw [RuleCache.insert_of_ne _ _ hkey] at hk
    exact h k e hk

theorem RuleCacheSound.step {c : RuleCache} (h : RuleCacheSound lib cfg c) (ev : RuleCacheEvent)
    (hev : ev.Allowed cfg) : RuleCacheSound lib cfg (ev.apply lib cfg c) := by
  cases ev with
  | evict k =>
    intro k' e hk
    simp only [RuleCacheEvent.apply] at hk
    split at hk
    · cases hk
    · exact h k' e hk
  | call p req skipRules =>
    simp only [RuleCacheEvent.apply]
    split
    · rename_i d c' happly
      unfold applyRules at happly
      dsimp only at happly
      split at happly
      · cases happly; exact h
      · obtain ⟨hd, rfl | rfl⟩ := applyRulesUncached_spec lib cfg happly
        · exact h
        · exact h.insert lib cfg hev hd
    · exact h

/-- A request matcher that reads neither the query class nor EDNS presence. -/
def RuntimeMatcher.ignoresClassAndEdns : RuntimeMatcher → Bool
  | .Qclass _ | .EdnsPresent _ => false
  | _ => true

/-- No request matcher of the pipeline reads the query class or EDNS presence. -/
def RuntimePipeline.IgnoresClassAndEdns (p : RuntimePipeline) : Prop :=
  ∀ r ∈ p.rules, ∀ m ∈ r.matchers, m.matcher.ignoresClassAndEdns = true

theorem RuntimeRule.requestMatches_congr {r : RuntimeRule}
    (hr : ∀ m ∈ r.matchers, m.matcher.ignoresClassAndEdns = true) (qname : String)
    (qclass qclass' : DNSClass) (clientIp : IpAddr) (ednsPresent ednsPresent' : Bool) :
    r.requestMatches lib qname qclass clientIp ednsPresent =
      r.requestMatches lib qname qclass' clientIp ednsPresent' := by
  refine evalMatchChain_congr _ _ _ fun m hm ↦ ?_
  have := hr m hm
  cases hmm : m.matcher <;> simp_all [RuntimeMatcher.matches, RuntimeMatcher.ignoresClassAndEdns]

theorem walkCandidates_congr {p : RuntimePipeline} (hp : p.IgnoresClassAndEdns)
    (skipRules : Option (List String)) (upstreamDefault qname : String) (qclass qclass' : DNSClass)
    (clientIp : IpAddr) (ednsPresent ednsPresent' : Bool) : ∀ cs : List Nat,
    walkCandidates lib p.rules skipRules upstreamDefault qname qclass clientIp ednsPresent cs =
      walkCandidates lib p.rules skipRules upstreamDefault qname qclass' clientIp ednsPresent' cs
  | [] => rfl
  | idx :: rest => by
    have ih := walkCandidates_congr hp skipRules upstreamDefault qname qclass qclass' clientIp
      ednsPresent ednsPresent' rest
    simp only [walkCandidates]
    cases hr : p.rules[idx]? with
    | none => rfl
    | some r =>
      have hm := RuntimeRule.requestMatches_congr lib (hp r (List.getElem?_mem hr)) qname qclass
        qclass' clientIp ednsPresent ednsPresent'
      simp only [hm, ih]

/-- Compiled matchers never file a rule under a query type. -/
theorem indexBucket_compiled_ne_qtype (ms : List RuntimeMatcherWithOp) (t : RecordType) :
    indexBucket (ms.map fun m ↦ ⟨m.operator, compileMatcher m.matcher⟩) ≠ some (.qtype t) := by
  induction ms with
  | nil => nofun
  | cons m ms ih =>
    cases hm : m.matcher <;> simp only [List.map_cons, indexBucket, hm, compileMatcher] <;>
      first | exact ih | (split <;> first | exact ih | simp)

theorem compileRules_queryType (idx : Nat) (rest : List RuntimeRule) (rules : List CompiledRule)
    {ix : RuleIndex} (h : ∀ t, ix.queryType t = []) (t : RecordType) :
    (compileRules idx rest (rules, ix)).2.queryType t = [] := by
  induction rest generalizing idx rules ix with
  | nil => exact h t
  | cons r rest ih =>
    refine ih (idx + 1) _ fun t' ↦ ?_
    have hne := indexBucket_compiled_ne_qtype r.matchers
    unfold RuleIndex.addRule
    dsimp only
    split
    · exact h t'
    · split <;> simp_all [compileRule]

/-- Compiled candidates do not depend on the query type. -/
theorem candidateIndices_qtype (p : RuntimePipeline) (qname : String) (qtype qtype' : RecordType) :
    candidateIndices (compilePipelines cfg) p qname qtype =
      candidateIndices (compilePipelines cfg) p qname qtype' := by
  have hq : ∀ q : RuntimePipeline, ∀ t, (compilePipeline q).index.queryType t = [] :=
    fun q t ↦ compileRules_queryType 0 q.rules [] (fun _ ↦ rfl) t
  unfold candidateIndices
  rw [findCompiled_compilePipelines]
  cases cfg.findPipeline p.id <;> simp [RuleIndex.getCandidates, hq]

/-- Without class or EDNS matchers, a fresh decision reads only the client address and the
name of the request. -/
theorem freshDecision_congr {p : RuntimePipeline} (hp : p.IgnoresClassAndEdns)
    (skipRules : Option (List String)) {req req' : RuleRequest} (hip : req.clientIp = req'.clientIp)
    (hq : req.qname = req'.qname) :
    freshDecision lib cfg p req skipRules = freshDecision lib cfg p req' skipRules := by
  unfold freshDecision applyRulesUncached
  dsimp only
  rw [hip, hq, candidateIndices_qtype cfg p req'.qname req.qtype req'.qtype,
    walkCandidates_congr lib hp skipRules _ req'.qname req.qclass req'.qclass req'.clientIp
      req.ednsPresent req'.ednsPresent]

/-! ## Reading the cache -/

/-- Rule `fwd` forwards every query and continues when its response matches; rule `allow`
allows every query. -/
def forwardThenAllow : RuntimePipeline :=
  ⟨"p", [⟨"fwd", .And, [⟨.And, .Any⟩], [.Forward none none], [], .And, [.Continue], []⟩,
    ⟨"allow", .And, [⟨.And, .Any⟩], [.Allow], [], .And, [], []⟩]⟩

/-- A configuration with `forwardThenAllow` as its one pipeline. -/
def forwardThenAllowConfig : RuntimePipelineConfig :=
  ⟨⟨0, "1.1.1.1:53", 2000, 10, 64, 64⟩, [], [forwardThenAllow]⟩

/-- After the response of `fwd` continues, the walk with skip set `[fwd]` writes the
decision of `allow` under `(p, a.example, 0.0.0.0)`.  A later request without a skip set
reads it, while its fresh decision is the forward of `fwd`. -/
theorem ruleCache_serves_skipped_walk (lib : Lib) :
    let req : RuleRequest := ⟨.v4 0, "a.example", RecordType.A, DNSClass.IN, false⟩
    let c := (RuleCacheEvent.call forwardThenAllow req (some ["fwd"])).apply lib
      forwardThenAllowConfig RuleCache.empty
    RuleCacheReachable lib forwardThenAllowConfig c ∧
    (applyRules lib (compilePipelines forwardThenAllowConfig) forwardThenAllowConfig
        forwardThenAllow req.clientIp req.qname req.qtype req.qclass req.ednsPresent none c).map
          Prod.fst = some (.Forward { ForwardDecision.default "1.1.1.1:53" with
            ruleName := "allow", allowReuse := true }) ∧
    freshDecision lib forwardThenAllowConfig forwardThenAllow req none =
      some (.Forward { ForwardDecision.default "1.1.1.1:53" with
        ruleName := "fwd", responseActionsOnMatch := [.Continue], continueOnMatch := true }) :=
  ⟨.step _ rfl .init, rfl, rfl⟩

end KixDns
