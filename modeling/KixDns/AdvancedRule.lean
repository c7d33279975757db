import KixDns.Decision
import Mathlib.Data.List.Sort
import Mathlib.Data.List.Destutter

/-!
# Compiled pipelines, the rule index and the static fast path (`src/advanced_rule.rs`)

`compile_pipeline` turns every runtime rule into a `CompiledRule` and files it in a
`RuleIndex`: a rule whose matchers after the first are all `And` goes into the bucket of
its first indexable matcher (a non-empty exact domain, a non-empty suffix, a query type),
every other rule into `always_check`.  `get_candidates` gathers the buckets a query can
reach and sorts them, and `fast_static_match` walks the candidates for a precomputed static
answer.

`compile_matcher` never produces `DomainExact` or `QueryType`, so only the suffix bucket is
ever filled; the model keeps all three, as the source does.
-/

namespace KixDns

/-- `CompiledMatcher`. -/
inductive CompiledMatcher where
  | DomainExact (domain : String)
  | DomainSuffix (suffix : String)
  | ClientIp (net : IpNet)
  | QueryType (qtype : RecordType)
  | Qclass (qclass : DNSClass)
  | Regex (regex : String)
  | Complex (matcher : RuntimeMatcher)
deriving DecidableEq, Repr

/-- `CompiledMatcherWithOp`. -/
structure CompiledMatcherWithOp where
  operator : MatchOperator
  matcher : CompiledMatcher
deriving DecidableEq, Repr

/-- `PrecomputedAction`. -/
inductive PrecomputedAction where
  | Static (rcode : ResponseCode)
  | StaticIp (ip : String)
deriving DecidableEq, Repr

/-- `CompiledRule`. -/
structure CompiledRule where
  ruleIdx : Nat
  matcherOperator : MatchOperator
  matchers : List CompiledMatcherWithOp
  precomputed : Option PrecomputedAction
deriving DecidableEq, Repr

/-! ## The index -/

/-- `RuleIndex`; a missing key of a `HashMap` reads as the empty list. -/
structure RuleIndex where
  domainExact : String → List Nat
  domainSuffix : String → List Nat
  queryType : RecordType → List Nat
  alwaysCheck : List Nat

/-- `RuleIndex::new`. -/
def RuleIndex.new : RuleIndex := ⟨fun _ ↦ [], fun _ ↦ [], fun _ ↦ [], []⟩

/-- The bucket a rule is filed under. -/
inductive IndexBucket where
  | exact (domain : String)
  | suffix (suffix : String)
  | qtype (qtype : RecordType)
deriving DecidableEq, Repr

/-- The `for m in &rule.matchers` loop of `add_rule`: the first matcher with an indexable
shape, skipping empty domains and suffixes. -/
def indexBucket : List CompiledMatcherWithOp → Option IndexBucket
  | [] => none
  | m :: rest =>
    match m.matcher with
    | .DomainExact domain => if domain = "" then indexBucket rest else some (.exact domain)
    | .DomainSuffix suffix => if suffix = "" then indexBucket rest else some (.suffix suffix)
    | .QueryType qtype => some (.qtype qtype)
    | _ => indexBucket rest

/-- `map.entry(key).or_default().push(idx)`. -/
def pushAt {K : Type} [DecidableEq K] (m : K → List Nat) (key : K) (idx : Nat) : K → List Nat :=
  fun k ↦ if k = key then m k ++ [idx] else m k

/-- `RuleIndex::add_rule`. -/
def RuleIndex.addRule (ix : RuleIndex) (ruleIdx : Nat) (rule : CompiledRule) : RuleIndex :=
  let andChain := (rule.matchers.drop 1).all fun m ↦ m.operator == .And
  if !andChain then { ix with alwaysCheck := ix.alwaysCheck ++ [ruleIdx] }
  else
    match indexBucket rule.matchers with
    | some (.exact domain) => { ix with domainExact := pushAt ix.domainExact domain ruleIdx }
    | some (.suffix suffix) => { ix with domainSuffix := pushAt ix.domainSuffix suffix ruleIdx }
    | some (.qtype qtype) => { ix with queryType := pushAt ix.queryType qtype ruleIdx }
    | none => { ix with alwaysCheck := ix.alwaysCheck ++ [ruleIdx] }

/-- `candidates.sort_unstable(); candidates.dedup()`. -/
def sortDedup (l : List Nat) : List Nat :=
  (l.insertionSort (· ≤ ·)).destutter (· ≠ ·)

/-- `RuleIndex::get_candidates`. -/
def RuleIndex.getCandidates (ix : RuleIndex) (qname : String) (qtype : RecordType) : List Nat :=
  sortDedup (ix.alwaysCheck ++ ix.domainExact qname ++ (searchNames qname).flatMap ix.domainSuffix ++
    ix.queryType qtype)

/-! ## Compilation -/

/-- `CompiledPipeline`. -/
structure CompiledPipeline where
  id : String
  rules : List CompiledRule
  index : RuleIndex

/-- `compile_matcher`. -/
def compileMatcher : RuntimeMatcher → CompiledMatcher
  | .Any => .DomainSuffix ""
  | .DomainSuffix value => .DomainSuffix value
  | .ClientIp net => .ClientIp net
  | .DomainRegex regex => .Regex regex
  | .Qclass value => .Qclass value
  | .EdnsPresent expect => .Complex (.EdnsPresent expect)

/-- `precompute_action`: a static answer when the first action is a static response with
a known rcode, a static IP, or `Deny`. -/
def precomputeAction (rule : RuntimeRule) : Option PrecomputedAction :=
  match rule.actions.head? with
  | some (.StaticResponse rcode) => (parseRcode rcode).map .Static
  | some (.StaticIpResponse ip) => some (.StaticIp ip)
  | some .Deny => some (.Static ResponseCode.Refused)
  | _ => none

/-- `compile_rule`. -/
def compileRule (rule : RuntimeRule) (ruleIdx : Nat) : CompiledRule where
  ruleIdx := ruleIdx
  matcherOperator := rule.matcherOperator
  matchers := rule.matchers.map fun m ↦ ⟨m.operator, compileMatcher m.matcher⟩
  precomputed := precomputeAction rule

/-- The loop of `compile_pipeline` from rule `idx` on. -/
def compileRules : Nat → List RuntimeRule → List CompiledRule × RuleIndex → List CompiledRule × RuleIndex
  | _, [], acc => acc
  | idx, rule :: rest, (rules, index) =>
    let compiled := compileRule rule idx
    compileRules (idx + 1) rest (rules ++ [compiled], index.addRule idx compiled)

/-- `compile_pipeline`. -/
def compilePipeline (p : RuntimePipeline) : CompiledPipeline :=
  let (rules, index) := compileRules 0 p.rules ([], RuleIndex.new)
  ⟨p.id, rules, index⟩

/-- `compile_pipelines`. -/
def compilePipelines (cfg : RuntimePipelineConfig) : List CompiledPipeline :=
  cfg.pipelines.map compilePipeline

/-- `compiled.iter().find(|p| p.id == pipeline_id)`, the lookup of `Engine::compiled_for`. -/
def findCompiled (compiled : List CompiledPipeline) (pipelineId : String) :
    Option CompiledPipeline :=
  compiled.find? fun p ↦ p.id == pipelineId

/-! ## The static fast path -/

/-- `compiled_matcher_matches`. -/
def CompiledMatcher.matches (lib : Lib) (qname : String) (qtype : RecordType) (qclass : DNSClass)
    (clientIp : IpAddr) (ednsPresent : Bool) : CompiledMatcher → Bool
  | .DomainExact domain => eqIgnoreAsciiCase qname domain
  | .DomainSuffix suffix => if suffix = "" then true else endsWith qname suffix
  | .ClientIp net => net.contains clientIp
  | .QueryType rt => rt == qtype
  | .Qclass cls => cls == qclass
  | .Regex regex => lib.regexIsMatch regex qname
  | .Complex (.Any) => true
  | .Complex (.DomainSuffix value) => endsWith qname value
  | .Complex (.ClientIp net) => net.contains clientIp
  | .Complex (.DomainRegex regex) => lib.regexIsMatch regex qname
  | .Complex (.Qclass value) => value == qclass
  | .Complex (.EdnsPresent expect) => expect == ednsPresent

/-- Whether a compiled rule's matcher chain holds for a request. -/
def CompiledRule.requestMatches (lib : Lib) (rule : CompiledRule) (qname : String)
    (qtype : RecordType) (qclass : DNSClass) (clientIp : IpAddr) (ednsPresent : Bool) : Bool :=
  evalMatchChain rule.matchers (·.operator) fun m ↦
    m.matcher.matches lib qname qtype qclass clientIp ednsPresent

/-- The static decision `fast_static_match` returns for a precomputed action. -/
def PrecomputedAction.decision (lib : Lib) (qname : String) : PrecomputedAction → Decision
  | .Static rcode => .Static rcode []
  | .StaticIp ip =>
    let (rcode, answers) := makeStaticIpAnswer lib qname ip
    .Static rcode answers

/-- `fast_static_match`: the candidates in order; a candidate whose chain holds and that
has a precomputed action answers, and one without is passed over. -/
def fastStaticMatch (lib : Lib) (pipeline : CompiledPipeline) (qname : String) (qtype : RecordType)
    (qclass : DNSClass) (clientIp : IpAddr) (ednsPresent : Bool) : Option Decision :=
  go (pipeline.index.getCandidates qname qtype)
where
  /-- The `for idx in candidates` loop. -/
  go : List Nat → Option Decision
    | [] => none
    | idx :: rest =>
      match pipeline.rules[idx]? with
      | none => none
      | some rule =>
        if !rule.requestMatches lib qname qtype qclass clientIp ednsPresent then go rest
        else
          match rule.precomputed with
          | some pre => some (pre.decision lib qname)
          | none => go rest

end KixDns
