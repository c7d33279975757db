import KixDns.Engine.ApplyRules

/-!
# The compiled index against the rule walk

Three facts connect the compiled pipeline to the runtime rules it was built from:
a compiled matcher holds exactly when its runtime matcher does, a precomputed action is
what the action loop of `apply_rules` decides for that rule, and every index the compiled
index hands out is a rule position.  From them: `apply_rules` cannot panic while the
compiled pipeline under its id is the compilation of the runtime pipeline, and the static
fast path agrees with `apply_rules` as long as every candidate whose chain holds carries a
precomputed action.

The fast path does not check that last condition, and the suffix index files a rule under
the literal text of its suffix while the matcher tests a plain string suffix: the two
failing inputs at the end of this file are those.
-/

namespace KixDns

variable (lib : Lib)

/-! ## Compiled matchers -/

theorem endsWith_empty (s : String) : endsWith s "" = true := by
  simp [endsWith]

/-- A compiled matcher tests what its runtime matcher tests; the query type is read only by
`QueryType`, which compilation never produces. -/
theorem compileMatcher_matches (qname : String) (qtype : RecordType) (qclass : DNSClass)
    (clientIp : IpAddr) (ednsPresent : Bool) (m : RuntimeMatcher) :
    (compileMatcher m).matches lib qname qtype qclass clientIp ednsPresent =
      m.matches lib qname qclass clientIp ednsPresent := by
  cases m with
  | DomainSuffix value =>
    by_cases h : value = ""
    · subst h; simp [compileMatcher, CompiledMatcher.matches, RuntimeMatcher.matches, endsWith_empty]
    · simp [compileMatcher, CompiledMatcher.matches, RuntimeMatcher.matches, h]
  | Qclass value => simp [compileMatcher, CompiledMatcher.matches, RuntimeMatcher.matches, eq_comm]
  | _ => rfl

theorem compileRule_requestMatches (rule : RuntimeRule) (idx : Nat) (qname : String)
    (qtype : RecordType) (qclass : DNSClass) (clientIp : IpAddr) (ednsPresent : Bool) :
    (compileRule rule idx).requestMatches lib qname qtype qclass clientIp ednsPresent =
      rule.requestMatches lib qname qclass clientIp ednsPresent := by
  simp only [CompiledRule.requestMatches, compileRule, evalMatchChain_map, RuntimeRule.requestMatches]
  congr 1
  funext m
  exact compileMatcher_matches lib qname qtype qclass clientIp ednsPresent m.matcher

/-- A precomputed action is the decision the action loop of `apply_rules` reaches, and that
decision is cached. -/
theorem ruleDecision_of_precomputeAction {rule : RuntimeRule} {pre : PrecomputedAction}
    (upstreamDefault qname : String) (h : precomputeAction rule = some pre) :
    ruleDecision lib upstreamDefault qname rule rule.actions = some (pre.decision lib qname, true) := by
  unfold precomputeAction at h
  match hacts : rule.actions, h with
  | .StaticResponse rcode :: _, h =>
    simp only [hacts, List.head?_cons, Option.map_eq_some'] at h
    obtain ⟨rc, hrc, rfl⟩ := h
    simp [ruleDecision, hrc, PrecomputedAction.decision]
  | .StaticIpResponse ip :: _, h =>
    simp only [hacts, List.head?_cons, Option.some.injEq] at h
    subst h; rfl
  | .Deny :: _, h =>
    simp only [hacts, List.head?_cons, Option.some.injEq] at h
    subst h; rfl

/-! ## Compiled rules sit at their positions -/

theorem compileRules_fst (idx : Nat) (rest : List RuntimeRule) (rules : List CompiledRule)
    (ix : RuleIndex) :
    (compileRules idx rest (rules, ix)).1 =
      rules ++ (rest.enumFrom idx).map fun p ↦ compileRule p.2 p.1 := by
  induction rest generalizing idx rules ix with
  | nil => simp [compileRules]
  | cons r rest ih => simp [compileRules, ih]

theorem compilePipeline_rules_getElem? (p : RuntimePipeline) (i : Nat) :
    (compilePipeline p).rules[i]? = p.rules[i]?.map (compileRule · i) := by
  simp only [compilePipeline, compileRules_fst, List.nil_append, List.getElem?_map,
    List.getElem?_enumFrom, Option.map_map, Nat.zero_add]
  rfl

@[simp] theorem compilePipeline_id (p : RuntimePipeline) : (compilePipeline p).id = p.id := rfl

/-- `compiled_for` on freshly compiled pipelines finds the compilation of the pipeline that
the snapshot's own lookup finds. -/
theorem findCompiled_compilePipelines (cfg : RuntimePipelineConfig) (pipelineId : String) :
    findCompiled (compilePipelines cfg) pipelineId = (cfg.findPipeline pipelineId).map compilePipeline := by
  simp only [findCompiled, compilePipelines, List.find?_map, RuntimePipelineConfig.findPipeline]
  rfl

/-! ## Every filed index is a rule position -/

/-- Every index filed in the index lies below `n`. -/
structure RuleIndex.Bounded (ix : RuleIndex) (n : Nat) : Prop where
  exact : ∀ k, ∀ i ∈ ix.domainExact k, i < n
  suffix : ∀ k, ∀ i ∈ ix.domainSuffix k, i < n
  qtype : ∀ k, ∀ i ∈ ix.queryType k, i < n
  always : ∀ i ∈ ix.alwaysCheck, i < n

theorem mem_pushAt {K : Type} [DecidableEq K] {m : K → List Nat} {key k : K} {idx i : Nat}
    (h : i ∈ pushAt m key idx k) : i ∈ m k ∨ i = idx := by
  unfold pushAt at h
  split at h <;> simp_all

theorem pushAt_lt {K : Type} [DecidableEq K] {m : K → List Nat} {key : K} {idx : Nat}
    (hm : ∀ k, ∀ i ∈ m k, i < idx) : ∀ k, ∀ i ∈ pushAt m key idx k, i < idx + 1 := by
  intro k i hi
  rcases mem_pushAt hi with h | rfl
  · exact Nat.lt_succ_of_lt (hm k i h)
  · exact Nat.lt_succ_self i

theorem RuleIndex.Bounded.mono {ix : RuleIndex} {n m : Nat} (h : ix.Bounded n) (hnm : n ≤ m) :
    ix.Bounded m :=
  ⟨fun k i hi ↦ Nat.lt_of_lt_of_le (h.exact k i hi) hnm,
   fun k i hi ↦ Nat.lt_of_lt_of_le (h.suffix k i hi) hnm,
   fun k i hi ↦ Nat.lt_of_lt_of_le (h.qtype k i hi) hnm,
   fun i hi ↦ Nat.lt_of_lt_of_le (h.always i hi) hnm⟩

theorem RuleIndex.Bounded.addRule {ix : RuleIndex} {n : Nat} (h : ix.Bounded n)
    (rule : CompiledRule) : (ix.addRule n rule).Bounded (n + 1) := by
  have h' := h.mono (Nat.le_succ n)
  have always : ∀ i ∈ ix.alwaysCheck ++ [n], i < n + 1 := by
    intro i hi
    rcases List.mem_append.mp hi with hi | hi
    · exact h'.always i hi
    · simp only [List.mem_singleton] at hi; omega
  unfold RuleIndex.addRule
  dsimp only
  split
  · exact { h' with always }
  · split
    · exact { h' with exact := pushAt_lt h.exact }
    · exact { h' with suffix := pushAt_lt h.suffix }
    · exact { h' with qtype := pushAt_lt h.qtype }
    · exact { h' with always }

theorem compileRules_bounded (idx : Nat) (rest : List RuntimeRule) (rules : List CompiledRule)
    {ix : RuleIndex} (h : ix.Bounded idx) :
    (compileRules idx rest (rules, ix)).2.Bounded (idx + rest.length) := by
  induction rest generalizing idx rules ix with
  | nil => simpa [compileRules] using h
  | cons r rest ih =>
    simpa [compileRules, Nat.add_assoc, Nat.add_comm 1] using ih (idx + 1) _ (h.addRule _)

theorem RuleIndex.new_bounded : RuleIndex.new.Bounded 0 :=
  ⟨by simp [RuleIndex.new], by simp [RuleIndex.new], by simp [RuleIndex.new], by simp [RuleIndex.new]⟩

theorem compilePipeline_index_bounded (p : RuntimePipeline) :
    (compilePipeline p).index.Bounded p.rules.length := by
  simpa [compilePipeline] using compileRules_bounded 0 p.rules [] RuleIndex.new_bounded

theorem mem_of_mem_sortDedup {l : List Nat} {i : Nat} (h : i ∈ sortDedup l) : i ∈ l :=
  (List.mem_insertionSort _).mp ((List.destutter_sublist _ _).subset h)

theorem RuleIndex.Bounded.getCandidates_lt {ix : RuleIndex} {n : Nat} (h : ix.Bounded n)
    (qname : String) (qtype : RecordType) : ∀ i ∈ ix.getCandidates qname qtype, i < n := by
  intro i hi
  have hmem := mem_of_mem_sortDedup hi
  simp only [List.mem_append, List.mem_flatMap] at hmem
  rcases hmem with ((h1 | h1) | ⟨s, -, h1⟩) | h1
  · exact h.always i h1
  · exact h.exact _ i h1
  · exact h.suffix s i h1
  · exact h.qtype _ i h1

/-- Every index filed in the fallback index lies below `n`. -/
structure RuntimeIndex.Bounded (ix : RuntimeIndex) (n : Nat) : Prop where
  suffix : ∀ k, ∀ i ∈ ix.domainSuffixIndex k, i < n
  always : ∀ i ∈ ix.alwaysCheckRules, i < n

theorem RuntimeIndex.Bounded.add {ix : RuntimeIndex} {n : Nat} (h : ix.Bounded n)
    (rule : RuntimeRule) : (ix.add n rule).Bounded (n + 1) := by
  have hs : ∀ k, ∀ i ∈ ix.domainSuffixIndex k, i < n + 1 :=
    fun k i hi ↦ Nat.lt_succ_of_lt (h.suffix k i hi)
  have ha : ∀ i ∈ ix.alwaysCheckRules, i < n + 1 := fun i hi ↦ Nat.lt_succ_of_lt (h.always i hi)
  unfold RuntimeIndex.add
  split
  · exact ⟨pushAt_lt h.suffix, ha⟩
  · refine ⟨hs, fun i hi ↦ ?_⟩
    rcases List.mem_append.mp hi with hi | hi
    · exact ha i hi
    · simp only [List.mem_singleton] at hi; omega

theorem RuntimeIndex.Bounded.addAll {ix : RuntimeIndex} {idx : Nat} (h : ix.Bounded idx)
    (rest : List RuntimeRule) : (ix.addAll idx rest).Bounded (idx + rest.length) := by
  induction rest generalizing idx ix with
  | nil => simpa [RuntimeIndex.addAll] using h
  | cons r rest ih =>
    simpa [RuntimeIndex.addAll, Nat.add_assoc, Nat.add_comm 1] using ih (h.add r)

theorem RuntimePipeline.runtimeIndex_bounded (p : RuntimePipeline) :
    p.runtimeIndex.Bounded p.rules.length := by
  have h0 : RuntimeIndex.Bounded ⟨fun _ ↦ [], []⟩ 0 := ⟨by simp, by simp⟩
  simpa [RuntimePipeline.runtimeIndex] using h0.addAll p.rules

/-- The candidates of `apply_rules` are rule positions when the compiled pipeline filed
under the pipeline's id, if any, indexes no position past the rules. -/
theorem candidateIndices_lt (compiled : List CompiledPipeline) (p : RuntimePipeline)
    (hc : ∀ c, findCompiled compiled p.id = some c → c.index.Bounded p.rules.length)
    (qname : String) (qtype : RecordType) :
    ∀ i ∈ candidateIndices compiled p qname qtype, i < p.rules.length := by
  have hfb : ∀ i ∈ sortDedup (p.runtimeIndex.alwaysCheckRules ++
      (searchNames qname).flatMap p.runtimeIndex.domainSuffixIndex), i < p.rules.length := by
    intro i hi
    have hmem := mem_of_mem_sortDedup hi
    simp only [List.mem_append, List.mem_flatMap] at hmem
    rcases hmem with h1 | ⟨s, -, h1⟩
    · exact p.runtimeIndex_bounded.always i h1
    · exact p.runtimeIndex_bounded.suffix s i h1
  unfold candidateIndices
  cases hfind : findCompiled compiled p.id with
  | none => simpa using hfb
  | some c =>
    dsimp only
    split
    · exact hfb
    · exact (hc c hfind).getCandidates_lt qname qtype

/-- The rule loop reaches no panic when every candidate is a rule position. -/
theorem walkCandidates_ne_panic (rules : List RuntimeRule) (skipRules : Option (List String))
    (upstreamDefault qname : String) (qclass : DNSClass) (clientIp : IpAddr) (ednsPresent : Bool) :
    ∀ cs : List Nat, (∀ i ∈ cs, i < rules.length) →
      walkCandidates lib rules skipRules upstreamDefault qname qclass clientIp ednsPresent cs ≠ .panic
  | [], _ => nofun
  | idx :: rest, h => by
    have ih := walkCandidates_ne_panic rules skipRules upstreamDefault qname qclass clientIp
      ednsPresent rest fun i hi ↦ h i (List.mem_cons_of_mem idx hi)
    have hlt : idx < rules.length := h idx (List.mem_cons_self _ _)
    simp only [walkCandidates, List.getElem?_eq_getElem hlt]
    split
    · exact ih
    · split
      · split <;> simp_all
      · exact ih

/-- `apply_rules` does not panic while the compiled pipeline filed under the pipeline's id,
if any, is the compilation of that runtime pipeline. -/
theorem applyRules_isSome (compiled : List CompiledPipeline) (cfg : RuntimePipelineConfig)
    (p : RuntimePipeline) (hc : ∀ c, findCompiled compiled p.id = some c → c = compilePipeline p)
    (clientIp : IpAddr) (qname : String) (qtype : RecordType) (qclass : DNSClass)
    (ednsPresent : Bool) (skipRules : Option (List String)) (cache : RuleCache) :
    (applyRules lib compiled cfg p clientIp qname qtype qclass ednsPresent skipRules cache).isSome := by
  have hne := walkCandidates_ne_panic lib p.rules skipRules cfg.settings.defaultUpstream qname
    qclass clientIp ednsPresent _ (candidateIndices_lt compiled p
      (fun c h ↦ hc c h ▸ compilePipeline_index_bounded p) qname qtype)
  unfold applyRules applyRulesUncached
  dsimp only
  split
  · rfl
  · split <;> simp_all

/-! ## The static fast path -/

@[simp] theorem compileRule_precomputed (rule : RuntimeRule) (idx : Nat) :
    (compileRule rule idx).precomputed = precomputeAction rule := rfl

@[simp] theorem ruleCacheHit_empty (pipelineId qname : String) (clientIp : IpAddr) :
    ruleCacheHit RuleCache.empty pipelineId qname clientIp = none := rfl

section FastPath

variable (p : RuntimePipeline) (qname : String) (qtype : RecordType) (qclass : DNSClass)
  (clientIp : IpAddr) (ednsPresent : Bool)

/-- Every candidate rule whose chain holds carries a precomputed action: the condition under
which passing over a rule without one, as `fast_static_match` does, is harmless. -/
def MatchedCandidatesPrecomputed (cs : List Nat) : Prop :=
  ∀ i ∈ cs, ∀ r, p.rules[i]? = some r →
    r.requestMatches lib qname qclass clientIp ednsPresent = true → (precomputeAction r).isSome

theorem fastStaticMatch.go_walk (upstreamDefault : String) :
    ∀ cs : List Nat, MatchedCandidatesPrecomputed lib p qname qclass clientIp ednsPresent cs →
      ∀ d, fastStaticMatch.go lib (compilePipeline p) qname qtype qclass clientIp ednsPresent cs = some d →
        walkCandidates lib p.rules none upstreamDefault qname qclass clientIp ednsPresent cs = .decided d true
  | [], _, d, h => by simp [fastStaticMatch.go] at h
  | idx :: rest, hpre, d, h => by
    simp only [fastStaticMatch.go, compilePipeline_rules_getElem?] at h
    cases hr : p.rules[idx]? with
    | none => simp [hr] at h
    | some r =>
      simp only [hr, Option.map_some', compileRule_requestMatches, compileRule_precomputed] at h
      simp only [walkCandidates, hr, Option.any_none, Bool.false_eq_true, if_false]
      cases hm : r.requestMatches lib qname qclass clientIp ednsPresent with
      | false =>
        simp only [hm, Bool.not_false, if_true, Bool.false_eq_true, if_false] at h ⊢
        exact fastStaticMatch.go_walk upstreamDefault rest
          (fun i hi ↦ hpre i (List.mem_cons_of_mem idx hi)) d h
      | true =>
        obtain ⟨pre, hpre'⟩ := Option.isSome_iff_exists.mp (hpre idx (List.mem_cons_self _ _) r hr hm)
        simp only [hm, hpre', Bool.not_true, Bool.false_eq_true, if_false, if_true,
          Option.some.injEq] at h ⊢
        rw [ruleDecision_of_precomputeAction lib upstreamDefault qname hpre', h]

/-- The static fast path refines the rule walk on every request for which each candidate
whose chain holds has a precomputed action: then `apply_rules`, with an empty rule cache and
no skip set, returns the fast path's static decision. -/
theorem applyRules_eq_of_fastStaticMatch {compiled : List CompiledPipeline}
    (cfg : RuntimePipelineConfig) (hc : findCompiled compiled p.id = some (compilePipeline p))
    (hpre : MatchedCandidatesPrecomputed lib p qname qclass clientIp ednsPresent
      ((compilePipeline p).index.getCandidates qname qtype))
    {d : Decision} (hfast : fastStaticMatch lib (compilePipeline p) qname qtype qclass clientIp ednsPresent = some d) :
    (applyRules lib compiled cfg p clientIp qname qtype qclass ednsPresent none RuleCache.empty).map
      Prod.fst = some d := by
  have hwalk := fastStaticMatch.go_walk lib p qname qtype qclass clientIp ednsPresent
    cfg.settings.defaultUpstream _ hpre d hfast
  have hne : ((compilePipeline p).index.getCandidates qname qtype).isEmpty = false := by
    cases hcs : (compilePipeline p).index.getCandidates qname qtype with
    | nil => simp [fastStaticMatch, hcs, fastStaticMatch.go] at hfast
    | cons _ _ => rfl
  have hcand : candidateIndices compiled p qname qtype = (compilePipeline p).index.getCandidates qname qtype := by
    simp [candidateIndices, hc, hne]
  simp [applyRules, applyRulesUncached, hcand, hwalk]

end FastPath

/-- One rule that refuses names ending in `example.com`. -/
def suffixDeny : RuntimePipeline :=
  ⟨"p", [⟨"deny", .And, [⟨.And, .DomainSuffix "example.com"⟩], [.Deny], [], .And, [], []⟩]⟩

/-- The fast path refuses `www.example.com` on `suffixDeny`, whose one rule has a
precomputed action, and `apply_rules` decides the same. -/
theorem applyRules_eq_of_fastStaticMatch_suffixDeny :
    findCompiled [compilePipeline suffixDeny] suffixDeny.id = some (compilePipeline suffixDeny) ∧
    MatchedCandidatesPrecomputed default suffixDeny "www.example.com" DNSClass.IN (.v4 0) false
      ((compilePipeline suffixDeny).index.getCandidates "www.example.com" RecordType.A) ∧
    fastStaticMatch default (compilePipeline suffixDeny) "www.example.com" RecordType.A DNSClass.IN
        (.v4 0) false = some (.Static ResponseCode.Refused []) ∧
    (applyRules default [compilePipeline suffixDeny] ⟨⟨0, "1.1.1.1:53", 2000, 10, 64, 64⟩, [],
        [suffixDeny]⟩ suffixDeny (.v4 0) "www.example.com" RecordType.A DNSClass.IN false none
        RuleCache.empty).map Prod.fst =
      some (.Static ResponseCode.Refused []) :=
  have hc : findCompiled [compilePipeline suffixDeny] suffixDeny.id =
      some (compilePipeline suffixDeny) := rfl
  have hpre : MatchedCandidatesPrecomputed default suffixDeny "www.example.com" DNSClass.IN (.v4 0)
      false ((compilePipeline suffixDeny).index.getCandidates "www.example.com" RecordType.A) := by
    intro i _ r hr _
    rw [List.mem_singleton.mp (List.getElem?_mem hr)]
    rfl
  ⟨hc, hpre, rfl, applyRules_eq_of_fastStaticMatch default suffixDeny "www.example.com"
    RecordType.A DNSClass.IN (.v4 0) false _ hc hpre rfl⟩

/-- A forwarding rule ahead of a denying rule, both matching every query. -/
def forwardThenDeny : RuntimePipeline :=
  ⟨"p", [⟨"fwd", .And, [⟨.And, .Any⟩], [.Forward none none], [], .And, [], []⟩,
    ⟨"deny", .And, [⟨.And, .Any⟩], [.Deny], [], .And, [], []⟩]⟩

/-- On `forwardThenDeny` the fast path answers `REFUSED` from the second rule, while the rule
walk forwards from the first. -/
theorem fastStaticMatch_answers_past_forwarding_rule (cfg : RuntimePipelineConfig) :
    fastStaticMatch lib (compilePipeline forwardThenDeny) "a.example" RecordType.A DNSClass.IN
        (.v4 0) false = some (.Static ResponseCode.Refused []) ∧
    (applyRules lib [compilePipeline forwardThenDeny] cfg forwardThenDeny (.v4 0) "a.example"
        RecordType.A DNSClass.IN false none RuleCache.empty).map Prod.fst =
      some (.Forward { ForwardDecision.default cfg.settings.defaultUpstream with ruleName := "fwd" }) :=
  ⟨rfl, rfl⟩

/-! ## The suffix index -/

/-- The unindexed rule walk: every rule of the pipeline in declaration order, those named in
the skip set passed over, with the action semantics of `apply_rules`, and the default
forward when no rule decides. -/
def referenceDecision (cfg : RuntimePipelineConfig) (p : RuntimePipeline) (clientIp : IpAddr)
    (qname : String) (qclass : DNSClass) (ednsPresent : Bool) (skipRules : Option (List String)) :
    Option Decision :=
  match walkCandidates lib p.rules skipRules cfg.settings.defaultUpstream qname qclass clientIp
      ednsPresent (List.range p.rules.length) with
  | .panic => none
  | .exhausted => some (.Forward (ForwardDecision.default cfg.settings.defaultUpstream))
  | .decided d _ => some d

theorem referenceDecision_isSome (cfg : RuntimePipelineConfig) (p : RuntimePipeline)
    (clientIp : IpAddr) (qname : String) (qclass : DNSClass) (ednsPresent : Bool)
    (skipRules : Option (List String)) :
    (referenceDecision lib cfg p clientIp qname qclass ednsPresent skipRules).isSome := by
  have := walkCandidates_ne_panic lib p.rules skipRules cfg.settings.defaultUpstream qname qclass
    clientIp ednsPresent (List.range p.rules.length) (fun i hi ↦ List.mem_range.mp hi)
  unfold referenceDecision
  split <;> simp_all

/-- `myexample.com` ends in `example.com`, so the rule walk refuses it; the index files the
rule under `example.com`, which is not one of the names `get_candidates` looks up for
`myexample.com`, and the fallback index files it the same way, so `apply_rules` forwards. -/
theorem applyRules_misses_unaligned_suffix (cfg : RuntimePipelineConfig) :
    referenceDecision lib cfg suffixDeny (.v4 0) "myexample.com" DNSClass.IN false none =
      some (.Static ResponseCode.Refused []) ∧
    (applyRules lib [compilePipeline suffixDeny] cfg suffixDeny (.v4 0) "myexample.com" RecordType.A
        DNSClass.IN false none RuleCache.empty).map Prod.fst =
      some (.Forward (ForwardDecision.default cfg.settings.defaultUpstream)) :=
  ⟨rfl, rfl⟩

end KixDns
