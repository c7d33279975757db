import KixDns.AdvancedRule

/-!
# The request phase: `Engine::apply_rules` and `select_pipeline` (`src/engine.rs`)

`apply_rules` first reads the rule-decision cache (L1), unless a skip set is given; on a
miss it takes its candidates from the compiled index, or, when that yields nothing, from
the runtime fallback index, walks them in order, and writes the decision back to the
cache.

## Modelling choices

* The L1 cache is keyed by `calculate_rule_hash(pipeline_id, qname, client_ip)`, and its
  entries are validated by `RuleCacheEntry::matches`, which compares the pipeline id and
  the client address and, for the name, `fast_hash_str`.  The model keys the cache by the
  three fields themselves and stores the name in place of its hash, so hash collisions are
  not modelled.
* `&pipeline.rules[idx]` panics out of bounds; the model returns `none` for that panic.
* `Log` actions only emit a trace event, which the model omits.
-/

namespace KixDns

/-! ## The rule-decision cache -/

/-- The fields `calculate_rule_hash` hashes. -/
structure RuleKey where
  pipelineId : String
  qname : String
  clientIp : IpAddr
deriving DecidableEq, Repr

/-- `calculate_rule_hash`. -/
def calculateRuleHash (pipelineId qname : String) (clientIp : IpAddr) : RuleKey :=
  ⟨pipelineId, qname, clientIp⟩

/-- `RuleCacheEntry`; `qnameHash` holds the name that `fast_hash_str` hashes. -/
structure RuleCacheEntry where
  pipelineId : String
  qnameHash : String
  clientIp : IpAddr
  decision : Decision
deriving DecidableEq, Repr

/-- `RuleCacheEntry::matches`. -/
def RuleCacheEntry.matches (e : RuleCacheEntry) (pipelineId qname : String) (clientIp : IpAddr) :
    Bool :=
  e.clientIp == clientIp && e.pipelineId == pipelineId && e.qnameHash == qname

/-- `rule_cache`, a map from keys to entries. -/
abbrev RuleCache := RuleKey → Option RuleCacheEntry

/-- The empty rule cache. -/
def RuleCache.empty : RuleCache := fun _ ↦ none

/-- `rule_cache.insert(key, entry)`. -/
def RuleCache.insert (c : RuleCache) (k : RuleKey) (e : RuleCacheEntry) : RuleCache :=
  fun k' ↦ if k' = k then some e else c k'

@[simp] theorem RuleCache.insert_self (c : RuleCache) (k : RuleKey) (e : RuleCacheEntry) :
    c.insert k e k = some e := if_pos rfl

@[simp] theorem RuleCache.insert_of_ne (c : RuleCache) {k k' : RuleKey} (e : RuleCacheEntry)
    (h : k' ≠ k) : c.insert k e k' = c k' := if_neg h

/-- The entry `apply_rules` writes for a decision. -/
def ruleCacheEntry (pipelineId qname : String) (clientIp : IpAddr) (d : Decision) :
    RuleCacheEntry :=
  ⟨pipelineId, qname, clientIp, d⟩

/-- The lookup at the head of `apply_rules`, and step 3 of `handle_packet_fast`: the entry
under the key, if it validates. -/
def ruleCacheHit (c : RuleCache) (pipelineId qname : String) (clientIp : IpAddr) :
    Option RuleCacheEntry :=
  (c (calculateRuleHash pipelineId qname clientIp)).filter (·.matches pipelineId qname clientIp)

/-! ## Walking the candidates -/

/-- The `for action in &rule.actions` loop of `apply_rules` on a rule whose chain holds: the
decision it returns together with whether it writes it to the rule cache, or `none` when
it falls through to the next candidate, at a `Continue` or at the end of the actions.  The
`StaticIpResponse` arm inlines `make_static_ip_answer`. -/
def ruleDecision (lib : Lib) (upstreamDefault qname : String) (rule : RuntimeRule) :
    List Action → Option (Decision × Bool)
  | [] => none
  | .Log _ :: rest => ruleDecision lib upstreamDefault qname rule rest
  | .Continue :: _ => none
  | .StaticResponse rcode :: _ => some (.Static ((parseRcode rcode).getD ResponseCode.NXDomain) [], true)
  | .StaticIpResponse ip :: _ =>
    let (rcode, answers) := makeStaticIpAnswer lib qname ip
    some (.Static rcode answers, true)
  | .JumpToPipeline target :: _ => some (.Jump target, true)
  | .Allow :: _ =>
    some (.Forward { ForwardDecision.default upstreamDefault with
      ruleName := rule.name, allowReuse := true }, true)
  | .Deny :: _ => some (.Static ResponseCode.Refused [], true)
  | .Forward upstream transport :: _ =>
    let continueOnMatch := containsContinue rule.responseActionsOnMatch
    let continueOnMiss := containsContinue rule.responseActionsOnMiss
    some (.Forward
      { upstream := upstream.getD upstreamDefault
        responseMatchers := rule.responseMatchers
        responseMatcherOperator := rule.responseMatcherOperator
        responseActionsOnMatch := rule.responseActionsOnMatch
        responseActionsOnMiss := rule.responseActionsOnMiss
        ruleName := rule.name
        transport := transport.getD .Udp
        continueOnMatch := continueOnMatch
        continueOnMiss := continueOnMiss
        allowReuse := false }, !continueOnMatch && !continueOnMiss)

/-- How the rule loop of `apply_rules` ends. -/
inductive WalkResult where
  /-- A candidate index was out of bounds. -/
  | panic
  /-- No candidate decided. -/
  | exhausted
  /-- A candidate decided, and the decision is cached when the flag is set. -/
  | decided (d : Decision) (cache : Bool)
deriving DecidableEq, Repr

/-- The `'rules: for idx in candidate_indices` loop of `apply_rules`. -/
def walkCandidates (lib : Lib) (rules : List RuntimeRule) (skipRules : Option (List String))
    (upstreamDefault qname : String) (qclass : DNSClass) (clientIp : IpAddr)
    (ednsPresent : Bool) : List Nat → WalkResult
  | [] => .exhausted
  | idx :: rest =>
    match rules[idx]? with
    | none => .panic
    | some rule =>
      if skipRules.any (·.contains rule.name) then
        walkCandidates lib rules skipRules upstreamDefault qname qclass clientIp ednsPresent rest
      else if rule.requestMatches lib qname qclass clientIp ednsPresent then
        match ruleDecision lib upstreamDefault qname rule rule.actions with
        | some (d, c) => .decided d c
        | none => walkCandidates lib rules skipRules upstreamDefault qname qclass clientIp ednsPresent rest
      else walkCandidates lib rules skipRules upstreamDefault qname qclass clientIp ednsPresent rest

/-- Step 2 of `apply_rules`: the compiled candidates, or the runtime fallback when there
are none. -/
def candidateIndices (compiled : List CompiledPipeline) (pipeline : RuntimePipeline)
    (qname : String) (qtype : RecordType) : List Nat :=
  let fromIndex := match findCompiled compiled pipeline.id with
    | some c => c.index.getCandidates qname qtype
    | none => []
  if fromIndex.isEmpty then
    let ix := pipeline.runtimeIndex
    sortDedup (ix.alwaysCheckRules ++ (searchNames qname).flatMap ix.domainSuffixIndex)
  else fromIndex

/-- Steps 2 and 3 of `apply_rules`, with the cache write: what it does on a cache miss. -/
def applyRulesUncached (lib : Lib) (compiled : List CompiledPipeline) (cfg : RuntimePipelineConfig)
    (pipeline : RuntimePipeline) (clientIp : IpAddr) (qname : String) (qtype : RecordType)
    (qclass : DNSClass) (ednsPresent : Bool) (skipRules : Option (List String))
    (cache : RuleCache) : Option (Decision × RuleCache) :=
  let ruleHash := calculateRuleHash pipeline.id qname clientIp
  let upstreamDefault := cfg.settings.defaultUpstream
  match walkCandidates lib pipeline.rules skipRules upstreamDefault qname qclass clientIp ednsPresent
      (candidateIndices compiled pipeline qname qtype) with
  | .panic => none
  | .decided d false => some (d, cache)
  | .decided d true => some (d, cache.insert ruleHash (ruleCacheEntry pipeline.id qname clientIp d))
  | .exhausted =>
    let d := Decision.Forward (ForwardDecision.default upstreamDefault)
    some (d, cache.insert ruleHash (ruleCacheEntry pipeline.id qname clientIp d))

/-- `Engine::apply_rules`; the compiled pipelines and the rule cache are the engine state it
reads, and it returns the new cache.  The cache is read only without a skip set, or with an
empty one. -/
def applyRules (lib : Lib) (compiled : List CompiledPipeline) (cfg : RuntimePipelineConfig)
    (pipeline : RuntimePipeline) (clientIp : IpAddr) (qname : String) (qtype : RecordType)
    (qclass : DNSClass) (ednsPresent : Bool) (skipRules : Option (List String))
    (cache : RuleCache) : Option (Decision × RuleCache) :=
  let allowRuleCacheLookup := skipRules.all List.isEmpty
  match (if allowRuleCacheLookup then ruleCacheHit cache pipeline.id qname clientIp else none) with
  | some entry => some (entry.decision, cache)
  | none => applyRulesUncached lib compiled cfg pipeline clientIp qname qtype qclass ednsPresent skipRules cache

/-! ## Pipeline selection -/

/-- `select_pipeline`: the first selector whose chain holds and whose pipeline exists, else
the first pipeline, else none under the id `"default"`. -/
def selectPipeline (lib : Lib) (cfg : RuntimePipelineConfig) (qname : String) (clientIp : IpAddr)
    (qclass : DNSClass) (ednsPresent : Bool) (listenerLabel : String) :
    Option RuntimePipeline × String :=
  let chosen := cfg.pipelineSelect.findSome? fun rule ↦
    if evalMatchChain rule.matchers (·.operator)
        (fun m ↦ m.matcher.matches lib listenerLabel clientIp qname qclass ednsPresent) then
      cfg.findPipeline rule.pipeline
    else none
  match chosen with
  | some p => (some p, p.id)
  | none =>
    match cfg.pipelines.head? with
    | some p => (some p, p.id)
    | none => (none, "default")

end KixDns
