import KixDns.Engine.RuleCache
import KixDns.Engine.IndexRefinement

/-!
# `apply_rules`, cache included, against the walk over every rule

`apply_rules` answers from its rule cache when it can, and otherwise walks the candidates
of the compiled index.  This file puts the two levels together over whole runs of the
rule cache:

* **`RuleCachePlain`**: every entry is the decision computed without the cache and with
  nothing to skip, for its key.  Each call of `apply_rules` with no rule to skip, and each
  eviction, keeps it (`RuleCachePlain.step`), so it holds after every such run
  (`ruleCachePlain_after`).
* **`applyRules_eq_referenceDecision`**: after such a run, `apply_rules` decides every
  request as the walk over all rules in declaration order, on a pipeline whose matchers
  read neither the class nor EDNS presence, for a name with no unaligned suffix.

The three conditions are the ones the two levels need.  The cache key holds neither the
class nor EDNS presence; a skip set changes what the walk decides but not the key it writes;
and the compiled index misses the rules of an unaligned suffix.  Runs with a skip set are
those where a response action continues, so the result covers the configurations whose
response actions never do.
-/

namespace KixDns

/-! ## A skip set that names no rule -/

/-- A skip set that names no rule skips nothing. -/
theorem any_contains_of_all_isEmpty {skipRules : Option (List String)}
    (hs : skipRules.all List.isEmpty = true) (name : String) :
    skipRules.any (·.contains name) = false := by
  rcases skipRules with _ | l
  · rfl
  · obtain rfl : l = [] := List.isEmpty_iff.mp hs
    rfl

section Skip

variable (lib : Lib) (rules : List RuntimeRule) {skipRules : Option (List String)}
  (upstreamDefault qname : String) (qclass : DNSClass) (clientIp : IpAddr) (ednsPresent : Bool)

theorem walkCandidates_of_isEmpty (hs : skipRules.all List.isEmpty = true) :
    ∀ cs : List Nat,
      walkCandidates lib rules skipRules upstreamDefault qname qclass clientIp ednsPresent cs =
        walkCandidates lib rules none upstreamDefault qname qclass clientIp ednsPresent cs
  | [] => rfl
  | idx :: rest => by
    have ih := walkCandidates_of_isEmpty hs rest
    simp only [walkCandidates, any_contains_of_all_isEmpty hs, ih]
    rfl

end Skip

variable (lib : Lib) (cfg : RuntimePipelineConfig)

theorem freshDecision_of_isEmpty (p : RuntimePipeline) (req : RuleRequest)
    {skipRules : Option (List String)} (hs : skipRules.all List.isEmpty = true) :
    freshDecision lib cfg p req skipRules = freshDecision lib cfg p req none := by
  unfold freshDecision applyRulesUncached
  dsimp only
  rw [walkCandidates_of_isEmpty lib p.rules _ _ _ _ _ hs]

theorem referenceDecision_of_isEmpty (p : RuntimePipeline) (clientIp : IpAddr) (qname : String)
    (qclass : DNSClass) (ednsPresent : Bool) {skipRules : Option (List String)}
    (hs : skipRules.all List.isEmpty = true) :
    referenceDecision lib cfg p clientIp qname qclass ednsPresent skipRules =
      referenceDecision lib cfg p clientIp qname qclass ednsPresent none := by
  unfold referenceDecision
  rw [walkCandidates_of_isEmpty lib p.rules _ _ _ _ _ hs]

/-- With the engine built on `cfg`, `apply_rules` without its cache decides a request on a
pipeline of the snapshot as the walk over all its rules, for a name with no unaligned
suffix. -/
theorem applyRulesUncached_compilePipelines {p : RuntimePipeline}
    (hp : cfg.findPipeline p.id = some p) (req : RuleRequest)
    (halign : p.suffixesAligned req.qname = true) (skipRules : Option (List String))
    (cache : RuleCache) :
    (applyRulesUncached lib (compilePipelines cfg) cfg p req.clientIp req.qname req.qtype req.qclass
        req.ednsPresent skipRules cache).map Prod.fst =
      referenceDecision lib cfg p req.clientIp req.qname req.qclass req.ednsPresent skipRules := by
  have hc : findCompiled (compilePipelines cfg) p.id = some (compilePipeline p) := by
    rw [findCompiled_compilePipelines, hp]
    rfl
  exact applyRulesUncached_eq_of_mem lib req.qclass req.clientIp req.ednsPresent cfg
    (fun _ h ↦ Option.some.inj (h.symm.trans hc) ▸ compilePipeline_index_bounded p) req.qtype
    skipRules (fun _ _ hr hm ↦ mem_candidateIndices_of_compiled lib req.qclass req.clientIp
      req.ednsPresent hc halign req.qtype hr hm) cache

/-! ## Runs that skip nothing -/

/-- A call of `apply_rules` on a pipeline of the snapshot with no rule to skip, or an
eviction. -/
def RuleCacheEvent.Plain : RuleCacheEvent → Prop
  | .call p _ skipRules => cfg.findPipeline p.id = some p ∧ skipRules.all List.isEmpty = true
  | .evict _ => True

instance : DecidablePred (RuleCacheEvent.Plain cfg) := fun ev ↦ by
  cases ev <;> unfold RuleCacheEvent.Plain <;> infer_instance

/-- The rule cache after a run of events from an empty one. -/
def ruleCacheAfter (evs : List RuleCacheEvent) : RuleCache :=
  evs.foldl (fun c ev ↦ ev.apply lib cfg c) RuleCache.empty

/-- Every entry is the decision computed without the cache and with nothing to skip, for its
key, under some query type, class and EDNS presence. -/
def RuleCachePlain (c : RuleCache) : Prop :=
  ∀ k e, c k = some e → ∃ p, cfg.findPipeline k.pipelineId = some p ∧
    ∃ qtype qclass ednsPresent,
      freshDecision lib cfg p ⟨k.clientIp, k.qname, qtype, qclass, ednsPresent⟩ none = some e.decision

theorem RuleCachePlain.insert {c : RuleCache} (h : RuleCachePlain lib cfg c) {p : RuntimePipeline}
    (hp : cfg.findPipeline p.id = some p) {req : RuleRequest} {d : Decision}
    (hd : freshDecision lib cfg p req none = some d) :
    RuleCachePlain lib cfg (c.insert (calculateRuleHash p.id req.qname req.clientIp)
      (ruleCacheEntry p.id req.qname req.clientIp d)) := by
  intro k e hk
  by_cases hkey : k = calculateRuleHash p.id req.qname req.clientIp
  · subst hkey
    simp only [RuleCache.insert_self, Option.some.injEq] at hk
    subst hk
    exact ⟨p, hp, req.qtype, req.qclass, req.ednsPresent, hd⟩
  · rw [RuleCache.insert_of_ne _ _ hkey] at hk
    exact h k e hk

/-- One event of a run that skips nothing keeps every entry plain. -/
theorem RuleCachePlain.step {c : RuleCache} (h : RuleCachePlain lib cfg c) (ev : RuleCacheEvent)
    (hev : ev.Plain cfg) : RuleCachePlain lib cfg (ev.apply lib cfg c) := by
  cases ev with
  | evict k =>
    intro k' e hk
    simp only [RuleCacheEvent.apply] at hk
    split at hk
    · cases hk
    · exact h k' e hk
  | call p req skipRules =>
    obtain ⟨hp, hs⟩ := hev
    simp only [RuleCacheEvent.apply]
    split
    · rename_i d c' happly
      unfold applyRules at happly
      dsimp only at happly
      split at happly
      · cases happly
        exact h
      · obtain ⟨hd, rfl | rfl⟩ := applyRulesUncached_spec lib cfg happly
        · exact h
        · exact h.insert lib cfg hp ((freshDecision_of_isEmpty lib cfg p req hs).symm.trans hd)
    · exact h

theorem RuleCachePlain.run : ∀ (evs : List RuleCacheEvent) {c : RuleCache},
    RuleCachePlain lib cfg c → (∀ ev ∈ evs, ev.Plain cfg) →
      RuleCachePlain lib cfg (evs.foldl (fun c ev ↦ ev.apply lib cfg c) c)
  | [], _, h, _ => h
  | ev :: evs, _, h, hplain =>
    run evs (h.step lib cfg ev (hplain ev (List.mem_cons_self _ _)))
      fun ev' h' ↦ hplain ev' (List.mem_cons_of_mem _ h')

theorem ruleCachePlain_after (evs : List RuleCacheEvent) (hplain : ∀ ev ∈ evs, ev.Plain cfg) :
    RuleCachePlain lib cfg (ruleCacheAfter lib cfg evs) :=
  RuleCachePlain.run lib cfg evs (fun _ _ h ↦ nomatch h) hplain

/-! ## The refinement -/

/-- **`apply_rules` refines the walk over every rule, cache included.**  After any run of
calls of `apply_rules` that skip no rule, and of evictions, `apply_rules` decides every
request on a pipeline of the snapshot whose matchers read neither the class nor EDNS
presence, for a name with no unaligned suffix in the pipeline, as the walk over all its rules
in declaration order does, under every skip set. -/
theorem applyRules_eq_referenceDecision (evs : List RuleCacheEvent)
    (hplain : ∀ ev ∈ evs, ev.Plain cfg) {p : RuntimePipeline} (hp : cfg.findPipeline p.id = some p)
    (hign : p.IgnoresClassAndEdns) (req : RuleRequest) (halign : p.suffixesAligned req.qname = true)
    (skipRules : Option (List String)) :
    (applyRules lib (compilePipelines cfg) cfg p req.clientIp req.qname req.qtype req.qclass
        req.ednsPresent skipRules (ruleCacheAfter lib cfg evs)).map Prod.fst =
      referenceDecision lib cfg p req.clientIp req.qname req.qclass req.ednsPresent skipRules := by
  unfold applyRules
  dsimp only
  split
  · rename_i e hit
    split_ifs at hit with hs
    have hk := (Option.filter_eq_some.mp hit).1
    obtain ⟨p', hp', qtype, qclass, ednsPresent, hd⟩ := ruleCachePlain_after lib cfg evs hplain _ e hk
    simp only [calculateRuleHash, hp, Option.some.injEq] at hp'
    subst hp'
    calc some e.decision
        = freshDecision lib cfg p ⟨req.clientIp, req.qname, qtype, qclass, ednsPresent⟩ none := hd.symm
      _ = freshDecision lib cfg p req none := freshDecision_congr lib cfg hign none rfl rfl
      _ = referenceDecision lib cfg p req.clientIp req.qname req.qclass req.ednsPresent none :=
        applyRulesUncached_compilePipelines lib cfg hp req halign none RuleCache.empty
      _ = referenceDecision lib cfg p req.clientIp req.qname req.qclass req.ednsPresent skipRules :=
        (referenceDecision_of_isEmpty lib cfg p _ _ _ _ hs).symm
  · exact applyRulesUncached_compilePipelines lib cfg hp req halign skipRules _

/-- Names under `cdn.example` go to another upstream, and the rest of `example` is refused. -/
def cdnPipeline : RuntimePipeline :=
  ⟨"cdn", [⟨"cdn", .And, [⟨.And, .DomainSuffix "cdn.example"⟩], [.Forward (some "9.9.9.9:53") none],
      [], .And, [], []⟩,
    ⟨"block", .And, [⟨.And, .DomainSuffix "example"⟩], [.Deny], [], .And, [], []⟩]⟩

/-- A configuration with `cdnPipeline` as its one pipeline. -/
def cdnConfig : RuntimePipelineConfig :=
  ⟨⟨60, "1.1.1.1:53", 2000, 10, 0, 0⟩, [], [cdnPipeline]⟩

/-- Two calls and an eviction; the name is then read back from the cache for another type,
class and EDNS presence. -/
theorem applyRules_eq_referenceDecision_cdn :
    (∀ ev ∈ [.call cdnPipeline ⟨.v4 0, "a.cdn.example", RecordType.A, DNSClass.IN, false⟩ none,
        .evict ⟨"cdn", "b.example", .v4 0⟩,
        .call cdnPipeline ⟨.v4 0, "b.example", RecordType.AAAA, DNSClass.IN, true⟩ (some [])],
        RuleCacheEvent.Plain cdnConfig ev) ∧
      cdnConfig.findPipeline cdnPipeline.id = some cdnPipeline ∧ cdnPipeline.IgnoresClassAndEdns ∧
      cdnPipeline.suffixesAligned "a.cdn.example" = true ∧
      (applyRules default (compilePipelines cdnConfig) cdnConfig cdnPipeline (.v4 0) "a.cdn.example"
          RecordType.AAAA DNSClass.CH true none
          (ruleCacheAfter default cdnConfig
            [.call cdnPipeline ⟨.v4 0, "a.cdn.example", RecordType.A, DNSClass.IN, false⟩ none,
              .evict ⟨"cdn", "b.example", .v4 0⟩,
              .call cdnPipeline ⟨.v4 0, "b.example", RecordType.AAAA, DNSClass.IN, true⟩ (some [])])).map
          Prod.fst =
        referenceDecision default cdnConfig cdnPipeline (.v4 0) "a.cdn.example" DNSClass.CH true none :=
  have hplain : ∀ ev ∈ [.call cdnPipeline ⟨.v4 0, "a.cdn.example", RecordType.A, DNSClass.IN, false⟩ none,
      .evict ⟨"cdn", "b.example", .v4 0⟩,
      .call cdnPipeline ⟨.v4 0, "b.example", RecordType.AAAA, DNSClass.IN, true⟩ (some [])],
      RuleCacheEvent.Plain cdnConfig ev := by decide
  have hp : cdnConfig.findPipeline cdnPipeline.id = some cdnPipeline := rfl
  have hign : cdnPipeline.IgnoresClassAndEdns := by unfold RuntimePipeline.IgnoresClassAndEdns; decide
  have ha : cdnPipeline.suffixesAligned "a.cdn.example" = true := by decide
  ⟨hplain, hp, hign, ha, applyRules_eq_referenceDecision default cdnConfig _ hplain hp hign
    ⟨.v4 0, "a.cdn.example", RecordType.AAAA, DNSClass.CH, true⟩ ha none⟩

end KixDns
