import KixDns.Engine.Candidates
import KixDns.Engine.Reload

/-!
# The compiled index against the walk over every rule

`apply_rules` walks only the candidates of a pipeline's compiled index, in increasing order,
and the runtime index when there are none.  What a pipeline means is the walk over all of
its rules in declaration order, `referenceDecision`.  The two agree as soon as every rule
that would decide the request is a candidate: a walk is decided by its first position that
decides (`walkCandidates_eq_findSome?`), and two increasing lists of positions with the same
deciding members have the same first one.

The compiled index holds every rule whose chain holds for a name, except where a suffix the
name ends with does not start at a label of the name, as `example.com` in `myexample.com`.
`applyRulesUncached_eq_referenceDecision` is the refinement for every request whose name has
no such suffix in the pipeline, and `applyRulesUncached_fallback_eq_referenceDecision` the
one of the fallback path, which needs more of the pipeline.  Since reloads leave the compiled
pipelines as they were built, `applyRulesUncached_after_reloads` carries both over every run
of reloads, for the pipelines unchanged since start and those under a new id.
-/

namespace KixDns

/-! ## A walk is decided by its first deciding position -/

section Walk

variable (lib : Lib) (rules : List RuntimeRule) (skipRules : Option (List String))
  (upstreamDefault qname : String) (qclass : DNSClass) (clientIp : IpAddr) (ednsPresent : Bool)

/-- What the rule at position `i` decides for the request, or `none` when the walk passes it
over: it is skipped, its chain fails, or its action loop falls through. -/
def ruleOutcome (i : Nat) : Option (Decision × Bool) :=
  match rules[i]? with
  | none => none
  | some rule =>
    if skipRules.any (·.contains rule.name) then none
    else if rule.requestMatches lib qname qclass clientIp ednsPresent then
      ruleDecision lib upstreamDefault qname rule rule.actions
    else none

theorem walkCandidates_eq_findSome? : ∀ cs : List Nat, (∀ i ∈ cs, i < rules.length) →
    walkCandidates lib rules skipRules upstreamDefault qname qclass clientIp ednsPresent cs =
      match cs.findSome? (ruleOutcome lib rules skipRules upstreamDefault qname qclass clientIp
          ednsPresent) with
      | some (d, c) => .decided d c
      | none => .exhausted
  | [], _ => rfl
  | idx :: rest, h => by
    have ih := walkCandidates_eq_findSome? rest fun i hi ↦ h i (List.mem_cons_of_mem idx hi)
    obtain ⟨rule, hr⟩ : ∃ rule, rules[idx]? = some rule :=
      ⟨_, List.getElem?_eq_getElem (h idx (List.mem_cons_self _ _))⟩
    rw [walkCandidates, List.findSome?_cons, ruleOutcome, hr]
    dsimp only
    split_ifs
    · exact ih
    · cases ruleDecision lib upstreamDefault qname rule rule.actions
      · exact ih
      · rfl
    · exact ih

theorem findSome?_filter_isSome {α β : Type} (f : α → Option β) :
    ∀ l : List α, (l.filter fun a ↦ (f a).isSome).findSome? f = l.findSome? f
  | [] => rfl
  | a :: l => by
    rw [List.filter_cons, List.findSome?_cons]
    cases h : f a
    · simpa using findSome?_filter_isSome f l
    · simp [h]

/-- Two increasing walks over rule positions with the same deciding members end alike. -/
theorem walkCandidates_eq_of_deciding {cs cs' : List Nat} (hs : cs.Sorted (· < ·))
    (hs' : cs'.Sorted (· < ·)) (hb : ∀ i ∈ cs, i < rules.length) (hb' : ∀ i ∈ cs', i < rules.length)
    (hmem : ∀ i, (ruleOutcome lib rules skipRules upstreamDefault qname qclass clientIp ednsPresent
      i).isSome → (i ∈ cs ↔ i ∈ cs')) :
    walkCandidates lib rules skipRules upstreamDefault qname qclass clientIp ednsPresent cs =
      walkCandidates lib rules skipRules upstreamDefault qname qclass clientIp ednsPresent cs' := by
  set f := ruleOutcome lib rules skipRules upstreamDefault qname qclass clientIp ednsPresent
  have hfilter : cs.filter (fun i ↦ (f i).isSome) = cs'.filter (fun i ↦ (f i).isSome) := by
    refine List.eq_of_perm_of_sorted ?_ (hs.filter _) (hs'.filter _)
    refine (List.perm_ext_iff_of_nodup (hs.filter _).nodup (hs'.filter _).nodup).mpr fun i ↦ ?_
    simp only [List.mem_filter]
    exact ⟨fun h ↦ ⟨(hmem i h.2).mp h.1, h.2⟩, fun h ↦ ⟨(hmem i h.2).mpr h.1, h.2⟩⟩
  rw [walkCandidates_eq_findSome? lib rules _ _ _ _ _ _ cs hb,
    walkCandidates_eq_findSome? lib rules _ _ _ _ _ _ cs' hb', ← findSome?_filter_isSome f cs,
    hfilter, findSome?_filter_isSome]

end Walk

theorem ruleOutcome_isSome {lib : Lib} {rules : List RuntimeRule} {skipRules : Option (List String)}
    {upstreamDefault qname : String} {qclass : DNSClass} {clientIp : IpAddr} {ednsPresent : Bool}
    {i : Nat} (h : (ruleOutcome lib rules skipRules upstreamDefault qname qclass clientIp ednsPresent
      i).isSome) :
    ∃ rule, rules[i]? = some rule ∧ rule.requestMatches lib qname qclass clientIp ednsPresent = true := by
  unfold ruleOutcome at h
  split at h
  · cases h
  · next rule hr =>
    split_ifs at h with hskip hm
    · simp at h
    · exact ⟨rule, hr, hm⟩
    · simp at h

/-! ## The compiled index holds every rule that can decide -/

/-- Every suffix that a rule of `p` tests and that `qname` ends with is one of the names
`get_candidates` looks up: `qname` itself or what follows one of its dots.  Empty suffixes,
which hold for every name and which the index never uses, are left aside. -/
def RuntimePipeline.suffixesAligned (p : RuntimePipeline) (qname : String) : Bool :=
  p.rules.all fun rule ↦ rule.matchers.all fun m ↦
    match m.matcher with
    | .DomainSuffix v => v == "" || !endsWith qname v || (searchNames qname).contains v
    | _ => true

theorem RuntimePipeline.suffixesAligned_mem {p : RuntimePipeline} {qname : String}
    (h : p.suffixesAligned qname = true) {rule : RuntimeRule} (hr : rule ∈ p.rules)
    {m : RuntimeMatcherWithOp} (hm : m ∈ rule.matchers) {v : String} (hv : m.matcher = .DomainSuffix v)
    (hne : v ≠ "") (hend : endsWith qname v = true) : v ∈ searchNames qname := by
  have := List.all_eq_true.mp (List.all_eq_true.mp h rule hr) m hm
  simp only [hv, beq_iff_eq, hne, hend, Bool.not_true, Bool.false_or, decide_False,
    List.elem_iff, List.contains] at this
  exact (by simpa using this : v = "" ∨ v ∈ searchNames qname).resolve_left hne

/-- Compilation indexes a rule only under the value of one of its non-empty suffix matchers. -/
theorem indexBucket_map_compileMatcher {b : IndexBucket} :
    ∀ ms : List RuntimeMatcherWithOp, indexBucket (ms.map fun m ↦ ⟨m.operator, compileMatcher m.matcher⟩) = some b →
      ∃ v, b = .suffix v ∧ v ≠ "" ∧ ∃ m ∈ ms, m.matcher = .DomainSuffix v
  | [], h => nomatch h
  | m :: ms, h => by
    have ih : indexBucket (ms.map fun m ↦ ⟨m.operator, compileMatcher m.matcher⟩) = some b →
        ∃ v, b = .suffix v ∧ v ≠ "" ∧ ∃ m' ∈ m :: ms, m'.matcher = .DomainSuffix v := fun h ↦ by
      obtain ⟨v, hb, hne, m', hm', hv⟩ := indexBucket_map_compileMatcher ms h
      exact ⟨v, hb, hne, m', List.mem_cons_of_mem m hm', hv⟩
    rw [List.map_cons, indexBucket] at h
    cases hm : m.matcher with
    | DomainSuffix v =>
      simp only [hm, compileMatcher] at h
      split_ifs at h with hv
      · exact ih h
      · cases h
        exact ⟨v, rfl, hv, m, List.mem_cons_self _ _, hm⟩
    | Any => simp only [hm, compileMatcher, if_pos rfl] at h; exact ih h
    | _ => simp only [hm, compileMatcher] at h; exact ih h

section Complete

variable (lib : Lib) {p : RuntimePipeline} {qname : String} (qclass : DNSClass) (clientIp : IpAddr)
  (ednsPresent : Bool)

/-- **The compiled index holds every rule that can decide.**  A rule whose chain holds for a
name with no unaligned suffix in the pipeline is among the candidates the compiled index
returns for that name, whatever the query type. -/
theorem mem_compilePipeline_getCandidates (halign : p.suffixesAligned qname = true)
    (qtype : RecordType) {i : Nat} {rule : RuntimeRule} (hr : p.rules[i]? = some rule)
    (hm : rule.requestMatches lib qname qclass clientIp ednsPresent = true) :
    i ∈ (compilePipeline p).index.getCandidates qname qtype := by
  have hc : (compilePipeline p).rules[i]? = some (compileRule rule i) := by
    rw [compilePipeline_rules_getElem?, hr]
    rfl
  rw [compilePipeline_index, mem_getCandidates]
  cases hb : (compileRule rule i).bucket with
  | none => exact .inl ((RuleIndex.mem_new_addRules_place _ none i).mpr ⟨_, hc, hb⟩)
  | some b =>
    have hin := (RuleIndex.mem_new_addRules_place _ (some b) i).mpr ⟨_, hc, hb⟩
    unfold CompiledRule.bucket at hb
    split_ifs at hb with hand
    obtain ⟨v, rfl, hne, m, hmem, hv⟩ := indexBucket_map_compileMatcher rule.matchers hb
    have hand' : ∀ x ∈ rule.matchers.drop 1, x.operator = .And := by
      simpa [compileRule, ← List.map_tail] using hand
    have hall := (evalMatchChain_of_and _ _ rule.matchers hand').symm.trans hm
    have hend : endsWith qname v = true := by
      simpa [RuntimeMatcher.matches, hv] using List.all_eq_true.mp hall m hmem
    have hs := RuntimePipeline.suffixesAligned_mem halign (List.getElem?_mem hr) hmem hv hne hend
    exact .inr (.inr (.inl ⟨v, mem_searchNames.mp hs, hin⟩))

theorem candidateIndices_sorted (compiled : List CompiledPipeline) (p : RuntimePipeline)
    (qname : String) (qtype : RecordType) : (candidateIndices compiled p qname qtype).Sorted (· < ·) := by
  unfold candidateIndices
  cases findCompiled compiled p.id <;> dsimp only <;> split_ifs
  all_goals first | exact sortDedup_sorted _ | exact getCandidates_sorted _ _ _ | exact List.sorted_nil

/-- `apply_rules` without its cache decides as the walk over every rule as soon as its
candidates are rule positions and hold every rule whose chain holds. -/
theorem applyRulesUncached_eq_of_mem {compiled : List CompiledPipeline} (cfg : RuntimePipelineConfig)
    (hb : ∀ c, findCompiled compiled p.id = some c → c.index.Bounded p.rules.length)
    (qtype : RecordType) (skipRules : Option (List String))
    (hmem : ∀ i rule, p.rules[i]? = some rule →
      rule.requestMatches lib qname qclass clientIp ednsPresent = true →
        i ∈ candidateIndices compiled p qname qtype)
    (cache : RuleCache) :
    (applyRulesUncached lib compiled cfg p clientIp qname qtype qclass ednsPresent skipRules
      cache).map Prod.fst = referenceDecision lib cfg p clientIp qname qclass ednsPresent skipRules := by
  have hwalk : walkCandidates lib p.rules skipRules cfg.settings.defaultUpstream qname qclass clientIp
      ednsPresent (candidateIndices compiled p qname qtype) =
      walkCandidates lib p.rules skipRules cfg.settings.defaultUpstream qname qclass clientIp
        ednsPresent (List.range p.rules.length) := by
    refine walkCandidates_eq_of_deciding lib p.rules skipRules _ qname qclass clientIp ednsPresent
      (candidateIndices_sorted compiled p qname qtype) (List.sorted_lt_range _)
      (candidateIndices_lt compiled p hb qname qtype) (fun i hi ↦ List.mem_range.mp hi) fun i hi ↦ ?_
    obtain ⟨rule, hr, hm⟩ := ruleOutcome_isSome hi
    have hlt : i < p.rules.length := (List.getElem?_eq_some_iff.mp hr).1
    exact ⟨fun _ ↦ List.mem_range.mpr hlt, fun _ ↦ hmem i rule hr hm⟩
  unfold applyRulesUncached referenceDecision
  dsimp only
  rw [hwalk]
  rcases walkCandidates lib p.rules skipRules _ qname qclass clientIp ednsPresent _ with
    _ | _ | ⟨d, _ | _⟩ <;> rfl

/-- While the compiled pipeline under its id is current, a rule whose chain holds for a name
with no unaligned suffix is among the candidates `apply_rules` walks. -/
theorem mem_candidateIndices_of_compiled {compiled : List CompiledPipeline}
    (hc : findCompiled compiled p.id = some (compilePipeline p))
    (halign : p.suffixesAligned qname = true) (qtype : RecordType) {i : Nat} {rule : RuntimeRule}
    (hr : p.rules[i]? = some rule) (hm : rule.requestMatches lib qname qclass clientIp ednsPresent = true) :
    i ∈ candidateIndices compiled p qname qtype := by
  have hmem := mem_compilePipeline_getCandidates lib qclass clientIp ednsPresent halign qtype hr hm
  cases hcs : (compilePipeline p).index.getCandidates qname qtype with
  | nil => simp [hcs] at hmem
  | cons _ _ => simpa [candidateIndices, hc, hcs] using hmem

/-- **The index path of `apply_rules` refines the walk over every rule.**  While the compiled
pipeline under a pipeline's id is its compilation, `apply_rules` without its cache decides
every request whose name has no unaligned suffix in the pipeline as the walk over all rules
in declaration order does, under every skip set. -/
theorem applyRulesUncached_eq_referenceDecision {compiled : List CompiledPipeline}
    (cfg : RuntimePipelineConfig) (hc : findCompiled compiled p.id = some (compilePipeline p))
    (halign : p.suffixesAligned qname = true) (qtype : RecordType)
    (skipRules : Option (List String)) (cache : RuleCache) :
    (applyRulesUncached lib compiled cfg p clientIp qname qtype qclass ednsPresent skipRules
      cache).map Prod.fst = referenceDecision lib cfg p clientIp qname qclass ednsPresent skipRules :=
  applyRulesUncached_eq_of_mem lib qclass clientIp ednsPresent cfg
    (fun _ h ↦ Option.some.inj (h.symm.trans hc) ▸ compilePipeline_index_bounded p) qtype skipRules
    (fun _ _ hr hm ↦ mem_candidateIndices_of_compiled lib qclass clientIp ednsPresent hc halign qtype hr hm)
    cache

end Complete

/-- Names under `ads.example` are refused, and a rule further down answers NXDOMAIN to names
under `example` and to every query with EDNS. -/
def adsPipeline : RuntimePipeline :=
  ⟨"p", [⟨"ads", .And, [⟨.And, .DomainSuffix "ads.example"⟩], [.Deny], [], .And, [], []⟩,
    ⟨"edns", .And, [⟨.And, .DomainSuffix "example"⟩, ⟨.Or, .EdnsPresent true⟩],
      [.StaticResponse "NXDOMAIN"], [], .And, [], []⟩]⟩

/-- A configuration with `adsPipeline` as its one pipeline. -/
def adsConfig : RuntimePipelineConfig :=
  ⟨⟨60, "1.1.1.1:53", 2000, 10, 0, 0⟩, [], [adsPipeline]⟩

theorem applyRulesUncached_eq_referenceDecision_ads :
    findCompiled (compilePipelines adsConfig) adsPipeline.id = some (compilePipeline adsPipeline) ∧
      adsPipeline.suffixesAligned "www.ads.example" = true ∧
      (applyRulesUncached default (compilePipelines adsConfig) adsConfig adsPipeline (.v4 0)
          "www.ads.example" RecordType.A DNSClass.IN false none RuleCache.empty).map Prod.fst =
        referenceDecision default adsConfig adsPipeline (.v4 0) "www.ads.example" DNSClass.IN false
          none :=
  have hc : findCompiled (compilePipelines adsConfig) adsPipeline.id = some (compilePipeline adsPipeline) :=
    rfl
  have ha : adsPipeline.suffixesAligned "www.ads.example" = true := by decide
  ⟨hc, ha, applyRulesUncached_eq_referenceDecision default DNSClass.IN (.v4 0) false adsConfig hc ha
    RecordType.A none RuleCache.empty⟩

/-! ## The fallback index of `from_config`

Without a compiled pipeline under its id, `apply_rules` walks the candidates of the
pipeline's own fallback index.  That index is always the one of the pipeline's rules, but it
files a rule under the value of its first suffix matcher whatever the operators of the
matchers after it, where the compiled index sends such a rule to `always_check`; and the
suffix loop never looks up the empty suffix of a name that does not end in a dot.  The
fallback path refines the walk over every rule where neither happens. -/

/-- A place of the fallback index: `always_check_rules` (`none`) or the bucket of a suffix. -/
def RuntimeIndex.place (ix : RuntimeIndex) : Option String → List Nat
  | none => ix.alwaysCheckRules
  | some v => ix.domainSuffixIndex v

/-- The body of the indexing loop adds its position to the place the rule's key names, and to
no other. -/
theorem RuntimeIndex.mem_add_place (ix : RuntimeIndex) (n : Nat) (r : RuntimeRule)
    (t : Option String) (i : Nat) :
    i ∈ (ix.add n r).place t ↔ i ∈ ix.place t ∨ (i = n ∧ r.suffixKey = t) := by
  unfold RuntimeIndex.add
  cases hk : r.suffixKey with
  | none => rcases t with _ | v <;> simp [RuntimeIndex.place]
  | some value =>
    rcases t with _ | v
    · simp [RuntimeIndex.place]
    · by_cases hv : v = value
      · simp [RuntimeIndex.place, hv, eq_comm]
      · simp [RuntimeIndex.place, hv, Ne.symm hv]

/-- After the loop, a place holds what it held before and the positions of the rules whose
key names it. -/
theorem RuntimeIndex.mem_addAll_place (t : Option String) (i : Nat) :
    ∀ (rules : List RuntimeRule) (ix : RuntimeIndex) (idx : Nat),
      i ∈ (ix.addAll idx rules).place t ↔
        i ∈ ix.place t ∨ ∃ k rule, i = idx + k ∧ rules[k]? = some rule ∧ rule.suffixKey = t
  | [], ix, idx => by simp [RuntimeIndex.addAll]
  | rule :: rest, ix, idx => by
    rw [RuntimeIndex.addAll, mem_addAll_place t i rest, mem_add_place, exists_getElem?_cons,
      or_assoc]

/-- A place of a pipeline's fallback index holds exactly the positions of the rules whose key
names it. -/
theorem RuntimePipeline.mem_runtimeIndex_place (p : RuntimePipeline) (t : Option String)
    (i : Nat) :
    i ∈ p.runtimeIndex.place t ↔ ∃ rule, p.rules[i]? = some rule ∧ rule.suffixKey = t := by
  rw [RuntimePipeline.runtimeIndex, RuntimeIndex.mem_addAll_place]
  rcases t with _ | _ <;> simp [RuntimeIndex.place]

/-- A rule whose chain holds, and whose matchers after the first are all `And`, holds for a
name that ends with its key. -/
theorem RuntimeRule.endsWith_suffixKey (lib : Lib) {rule : RuntimeRule} {qname v : String}
    {qclass : DNSClass} {clientIp : IpAddr} {ednsPresent : Bool} (hk : rule.suffixKey = some v)
    (hand : (rule.matchers.drop 1).all (·.operator == .And) = true)
    (hm : rule.requestMatches lib qname qclass clientIp ednsPresent = true) :
    endsWith qname v = true := by
  unfold RuntimeRule.suffixKey at hk
  split_ifs at hk
  obtain ⟨m, hmem, hv⟩ := List.exists_of_findSome?_eq_some hk
  have hall := (evalMatchChain_of_and _ _ rule.matchers (by simpa using hand)).symm.trans hm
  have hmatch := List.all_eq_true.mp hall m hmem
  cases hmm : m.matcher <;> simp only [hmm, Option.some.injEq, reduceCtorEq] at hv
  subst hv
  simpa [RuntimeMatcher.matches, hmm] using hmatch

/-- Every rule the fallback index files under a suffix has only `And` matchers after its
first, so that its chain needs the suffix, and the suffix, when `qname` ends with it, is one
of the names the suffix loop looks up. -/
def RuntimePipeline.fallbackAligned (p : RuntimePipeline) (qname : String) : Bool :=
  p.rules.all fun rule ↦
    match rule.suffixKey with
    | some v => (rule.matchers.drop 1).all (·.operator == .And) &&
        (!endsWith qname v || (searchNames qname).contains v)
    | none => true

section Fallback

variable (lib : Lib) {p : RuntimePipeline} {qname : String} (qclass : DNSClass) (clientIp : IpAddr)
  (ednsPresent : Bool)

/-- **The fallback index holds every rule that can decide**, for a name where the pipeline's
keys bind their rules. -/
theorem mem_runtimeCandidates (hfb : p.fallbackAligned qname = true) {i : Nat} {rule : RuntimeRule}
    (hr : p.rules[i]? = some rule) (hm : rule.requestMatches lib qname qclass clientIp ednsPresent = true) :
    i ∈ sortDedup (p.runtimeIndex.alwaysCheckRules ++
      (searchNames qname).flatMap p.runtimeIndex.domainSuffixIndex) := by
  rw [mem_sortDedup, List.mem_append, List.mem_flatMap]
  cases hk : rule.suffixKey with
  | none => exact .inl ((p.mem_runtimeIndex_place none i).mpr ⟨rule, hr, hk⟩)
  | some v =>
    have hcond := List.all_eq_true.mp hfb rule (List.getElem?_mem hr)
    simp only [hk, Bool.and_eq_true] at hcond
    have hend := RuntimeRule.endsWith_suffixKey lib hk hcond.1 hm
    have hs : v ∈ searchNames qname := by simpa [hend] using hcond.2
    exact .inr ⟨v, hs, (p.mem_runtimeIndex_place (some v) i).mpr ⟨rule, hr, hk⟩⟩

/-- Without a compiled pipeline under its id, a rule whose chain holds for a name the keys
bind is among the candidates `apply_rules` walks. -/
theorem mem_candidateIndices_of_none {compiled : List CompiledPipeline}
    (hc : findCompiled compiled p.id = none) (hfb : p.fallbackAligned qname = true)
    (qtype : RecordType) {i : Nat} {rule : RuntimeRule} (hr : p.rules[i]? = some rule)
    (hm : rule.requestMatches lib qname qclass clientIp ednsPresent = true) :
    i ∈ candidateIndices compiled p qname qtype := by
  simpa [candidateIndices, hc] using mem_runtimeCandidates lib qclass clientIp ednsPresent hfb hr hm

/-- **The fallback path of `apply_rules` refines the walk over every rule.**  When no
compiled pipeline is filed under a pipeline's id, `apply_rules` without its cache decides
every request whose name the pipeline's keys bind as the walk over all rules in declaration
order does, under every skip set. -/
theorem applyRulesUncached_fallback_eq_referenceDecision {compiled : List CompiledPipeline}
    (cfg : RuntimePipelineConfig) (hc : findCompiled compiled p.id = none)
    (hfb : p.fallbackAligned qname = true) (qtype : RecordType)
    (skipRules : Option (List String)) (cache : RuleCache) :
    (applyRulesUncached lib compiled cfg p clientIp qname qtype qclass ednsPresent skipRules
      cache).map Prod.fst = referenceDecision lib cfg p clientIp qname qclass ednsPresent skipRules :=
  applyRulesUncached_eq_of_mem lib qclass clientIp ednsPresent cfg (fun _ h ↦ by simp [hc] at h)
    qtype skipRules
    (fun _ _ hr hm ↦ mem_candidateIndices_of_none lib qclass clientIp ednsPresent hc hfb qtype hr hm)
    cache

end Fallback

/-- A pipeline added by a reload: it refuses names under `ads.example` of class `IN`, and
forwards the rest. -/
def blocklistPipeline : RuntimePipeline :=
  ⟨"blocklist", [⟨"ads", .And, [⟨.And, .DomainSuffix "ads.example"⟩, ⟨.And, .Qclass DNSClass.IN⟩],
      [.Deny], [], .And, [], []⟩,
    ⟨"rest", .Or, [⟨.Or, .Any⟩], [.Forward none none], [], .And, [], []⟩]⟩

theorem applyRulesUncached_fallback_eq_referenceDecision_blocklist :
    findCompiled (compilePipelines adsConfig) blocklistPipeline.id = none ∧
      blocklistPipeline.fallbackAligned "www.ads.example" = true ∧
      (applyRulesUncached default (compilePipelines adsConfig) adsConfig blocklistPipeline (.v4 0)
          "www.ads.example" RecordType.A DNSClass.IN false none RuleCache.empty).map Prod.fst =
        referenceDecision default adsConfig blocklistPipeline (.v4 0) "www.ads.example" DNSClass.IN
          false none :=
  have hc : findCompiled (compilePipelines adsConfig) blocklistPipeline.id = none := rfl
  have ha : blocklistPipeline.fallbackAligned "www.ads.example" = true := by decide
  ⟨hc, ha, applyRulesUncached_fallback_eq_referenceDecision default DNSClass.IN (.v4 0) false
    adsConfig hc ha RecordType.A none RuleCache.empty⟩

/- The alignment condition is needed: the fallback index files the rule `edns` of
`adsPipeline` under `example`, though its `Or` item makes its chain hold for every query with
EDNS.  Without a compiled pipeline, `apply_rules` forwards `other.org` asked with EDNS, which
the walk over every rule answers NXDOMAIN. -/
example (lib : Lib) (cfg : RuntimePipelineConfig) :
    referenceDecision lib cfg adsPipeline (.v4 0) "other.org" DNSClass.IN true none =
      some (.Static ResponseCode.NXDomain []) ∧
    (applyRules lib [] cfg adsPipeline (.v4 0) "other.org" RecordType.A DNSClass.IN true none
        RuleCache.empty).map Prod.fst =
      some (.Forward (ForwardDecision.default cfg.settings.defaultUpstream)) :=
  ⟨rfl, rfl⟩

/-! ## Across reloads

A reload publishes a new snapshot and leaves `compiled_pipelines` as `Engine::new` built
them.  A pipeline of the new snapshot is then walked through its compilation when its id
held the same pipeline at start, and through its fallback index when its id is new; only a
pipeline changed under an old id meets a stale compilation. -/

/-- Reloads never touch the compiled pipelines. -/
theorem ConfigState.Reachable.compiledPipelines_eq {cfg₀ : RuntimePipelineConfig} {s : ConfigState}
    (hs : s.Reachable cfg₀) : s.compiledPipelines = compilePipelines cfg₀ := by
  induction hs with
  | init => rfl
  | step e _ ih => cases e <;> exact ih

/-- **After any run of reloads, `apply_rules` without its cache refines the walk over every
rule** for a pipeline that its id held at start, on a name with no unaligned suffix, and for a
pipeline under a new id, on a name its keys bind; under every skip set. -/
theorem ConfigState.Reachable.applyRulesUncached_after_reloads (lib : Lib)
    {cfg₀ : RuntimePipelineConfig} {s : ConfigState} (hs : s.Reachable cfg₀) {p : RuntimePipeline}
    {qname : String}
    (hp : (cfg₀.findPipeline p.id = some p ∧ p.suffixesAligned qname = true) ∨
      (cfg₀.findPipeline p.id = none ∧ p.fallbackAligned qname = true))
    (clientIp : IpAddr) (qtype : RecordType) (qclass : DNSClass) (ednsPresent : Bool)
    (skipRules : Option (List String)) (cache : RuleCache) :
    (applyRulesUncached lib s.compiledPipelines s.pipeline p clientIp qname qtype qclass ednsPresent
        skipRules cache).map Prod.fst =
      referenceDecision lib s.pipeline p clientIp qname qclass ednsPresent skipRules := by
  rw [hs.compiledPipelines_eq]
  rcases hp with ⟨hp, halign⟩ | ⟨hp, hfb⟩
  · have hc : findCompiled (compilePipelines cfg₀) p.id = some (compilePipeline p) := by
      rw [findCompiled_compilePipelines, hp]
      rfl
    exact applyRulesUncached_eq_of_mem lib qclass clientIp ednsPresent s.pipeline
      (fun _ h ↦ Option.some.inj (h.symm.trans hc) ▸ compilePipeline_index_bounded p) qtype skipRules
      (fun _ _ hr hm ↦ mem_candidateIndices_of_compiled lib qclass clientIp ednsPresent hc halign
        qtype hr hm) cache
  · have hc : findCompiled (compilePipelines cfg₀) p.id = none := by
      rw [findCompiled_compilePipelines, hp]
      rfl
    exact applyRulesUncached_eq_of_mem lib qclass clientIp ednsPresent s.pipeline
      (fun _ h ↦ by simp [hc] at h) qtype skipRules
      (fun _ _ hr hm ↦ mem_candidateIndices_of_none lib qclass clientIp ednsPresent hc hfb qtype hr hm)
      cache

/-- `adsConfig` reloaded with `blocklistPipeline` added. -/
def adsBlocklistConfig : RuntimePipelineConfig :=
  ⟨adsConfig.settings, [], [adsPipeline, blocklistPipeline]⟩

/-- An engine started on `adsConfig` and reloaded with `adsBlocklistConfig` decides the new
pipeline through its fallback index. -/
theorem applyRulesUncached_after_reloads_blocklist :
    ConfigState.Reachable adsConfig ((ConfigEvent.reload adsBlocklistConfig).apply
        (ConfigState.new adsConfig)) ∧
      (adsConfig.findPipeline blocklistPipeline.id = none ∧
        blocklistPipeline.fallbackAligned "www.ads.example" = true) ∧
      (applyRulesUncached default ((ConfigEvent.reload adsBlocklistConfig).apply
          (ConfigState.new adsConfig)).compiledPipelines adsBlocklistConfig blocklistPipeline (.v4 0)
          "www.ads.example" RecordType.A DNSClass.IN false none RuleCache.empty).map Prod.fst =
        referenceDecision default adsBlocklistConfig blocklistPipeline (.v4 0) "www.ads.example"
          DNSClass.IN false none :=
  have hs : ConfigState.Reachable adsConfig ((ConfigEvent.reload adsBlocklistConfig).apply
      (ConfigState.new adsConfig)) := .step _ .init
  have hp : adsConfig.findPipeline blocklistPipeline.id = none ∧
      blocklistPipeline.fallbackAligned "www.ads.example" = true := ⟨rfl, by decide⟩
  ⟨hs, hp, hs.applyRulesUncached_after_reloads default (.inr hp) (.v4 0) RecordType.A DNSClass.IN
    false none RuleCache.empty⟩

end KixDns
