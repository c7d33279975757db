import KixDns.Config

/-!
# Runtime matchers and the match-chain evaluator (`src/matcher.rs`)

The runtime form of a configuration, as `RuntimePipelineConfig::from_config` leaves it:
request matchers, pipeline-selector matchers and response matchers each carry their own
operator, and `eval_match_chain` folds a chain of them from left to right.

`from_config` also builds, for every pipeline, a fallback suffix index
(`domain_suffix_index` and `always_check_rules`).  Both are functions of the pipeline's
rules, so here they are computed from the rules (`RuntimePipeline.runtimeIndex`) rather
than stored: a pipeline cannot carry an index that disagrees with its rules.
-/

namespace KixDns

/-! ## The chain evaluator -/

/-- `eval_match_chain`: the first item seeds the accumulator, each later item combines
with it through its own operator, and an empty chain is `true`.  The predicate is not
called on an item whose operator cannot change the accumulator. -/
def evalMatchChain {T : Type} (entries : List T) (opOf : T → MatchOperator)
    (pred : T → Bool) : Bool :=
  match entries with
  | [] => true
  | first :: rest => loop (pred first) rest
where
  /-- The `for item in iter` loop over the items after the first. -/
  loop : Bool → List T → Bool
    | acc, [] => acc
    | acc, item :: rest =>
      match opOf item with
      | .And => if !acc then loop acc rest else loop (acc && pred item) rest
      | .Or => if acc then loop acc rest else loop (acc || pred item) rest
      | .AndNot => if !acc then loop acc rest else loop (acc && !pred item) rest
      | .OrNot => if acc then loop acc rest else loop (acc || !pred item) rest
      | .Not => if !acc then loop acc rest else loop (acc && !pred item) rest

section Chain

variable {T : Type} (opOf : T → MatchOperator) (pred : T → Bool)

@[simp] theorem evalMatchChain_nil : evalMatchChain ([] : List T) opOf pred = true := rfl

@[simp] theorem evalMatchChain_cons (first : T) (rest : List T) :
    evalMatchChain (first :: rest) opOf pred = evalMatchChain.loop opOf pred (pred first) rest :=
  rfl

/-- Once the accumulator is `false`, an all-`And` tail keeps it `false`. -/
theorem evalMatchChain.loop_false_of_and (rest : List T)
    (hand : ∀ x ∈ rest, opOf x = .And) : evalMatchChain.loop opOf pred false rest = false := by
  induction rest with
  | nil => rfl
  | cons x rest ih =>
    simp only [evalMatchChain.loop, hand x (List.mem_cons_self x rest)]
    exact ih fun y hy ↦ hand y (List.mem_cons_of_mem x hy)

/-- Over an all-`And` tail the chain is the conjunction of all predicates. -/
theorem evalMatchChain.loop_of_and (acc : Bool) (rest : List T)
    (hand : ∀ x ∈ rest, opOf x = .And) :
    evalMatchChain.loop opOf pred acc rest = (acc && rest.all pred) := by
  induction rest generalizing acc with
  | nil => simp [evalMatchChain.loop]
  | cons x rest ih =>
    have hrest : ∀ y ∈ rest, opOf y = .And := fun y hy ↦ hand y (List.mem_cons_of_mem x hy)
    cases acc <;> simp [evalMatchChain.loop, hand x (List.mem_cons_self x rest), ih _ hrest,
      loop_false_of_and opOf pred rest hrest]

/-- A chain whose items after the first are all `And` holds exactly when every predicate
holds. -/
theorem evalMatchChain_of_and (entries : List T) (hand : ∀ x ∈ entries.drop 1, opOf x = .And) :
    evalMatchChain entries opOf pred = entries.all pred := by
  cases entries with
  | nil => rfl
  | cons first rest => simp [evalMatchChain.loop_of_and opOf pred _ rest hand]

/-- Evaluating a chain of mapped items is evaluating the items through the map. -/
theorem evalMatchChain.loop_map {U : Type} (f : U → T) (acc : Bool) (l : List U) :
    evalMatchChain.loop opOf pred acc (l.map f) =
      evalMatchChain.loop (opOf ∘ f) (pred ∘ f) acc l := by
  induction l generalizing acc with
  | nil => rfl
  | cons x l ih =>
    simp only [List.map_cons, evalMatchChain.loop, Function.comp_apply]
    cases opOf (f x) <;> simp only [ih]

theorem evalMatchChain.loop_congr {pred' : T → Bool} (acc : Bool) (l : List T)
    (h : ∀ x ∈ l, pred x = pred' x) :
    evalMatchChain.loop opOf pred acc l = evalMatchChain.loop opOf pred' acc l := by
  induction l generalizing acc with
  | nil => rfl
  | cons x l ih =>
    have hl : ∀ y ∈ l, pred y = pred' y := fun y hy ↦ h y (List.mem_cons_of_mem x hy)
    simp only [evalMatchChain.loop, h x (List.mem_cons_self x l), fun acc ↦ ih acc hl]

/-- The chain reads the predicate only on its own items. -/
theorem evalMatchChain_congr {pred' : T → Bool} (l : List T) (h : ∀ x ∈ l, pred x = pred' x) :
    evalMatchChain l opOf pred = evalMatchChain l opOf pred' := by
  cases l with
  | nil => rfl
  | cons x l =>
    simp only [evalMatchChain_cons, h x (List.mem_cons_self x l)]
    exact evalMatchChain.loop_congr opOf pred _ l fun y hy ↦ h y (List.mem_cons_of_mem x hy)

theorem evalMatchChain_map {U : Type} (f : U → T) (l : List U) :
    evalMatchChain (l.map f) opOf pred = evalMatchChain l (opOf ∘ f) (pred ∘ f) := by
  cases l with
  | nil => rfl
  | cons x l => exact evalMatchChain.loop_map opOf pred f _ l

end Chain

/-! ## What the chain computes, and which predicates it calls

The loop skips an item whose operator cannot change the accumulator.  Skipping never
changes the result, so the chain is the plain left fold of the operators seeded by the
first item's predicate.  The predicates are `FnMut` closures, so which of them run is
observable: `evalMatchChainM` is the same loop with the predicate's calls as effects in
any monad, and running it with a predicate that logs its calls shows that an item's
predicate runs exactly when the fold's accumulator before the item does not fix the
result. -/

/-- One item of the chain without the short-circuit: `acc && p` under `And`, `acc || p`
under `Or`, `acc && !p` under `AndNot` and `Not`, `acc || !p` under `OrNot`. -/
def chainStep : MatchOperator → Bool → Bool → Bool
  | .And, acc, p => acc && p
  | .Or, acc, p => acc || p
  | .AndNot, acc, p => acc && !p
  | .OrNot, acc, p => acc || !p
  | .Not, acc, p => acc && !p

/-- Whether the accumulator already fixes an item's result: a `false` one under `And`,
`AndNot` and `Not`, a `true` one under `Or` and `OrNot`. -/
def chainFixed : MatchOperator → Bool → Bool
  | .And, acc | .AndNot, acc | .Not, acc => !acc
  | .Or, acc | .OrNot, acc => acc

/-- A fixed accumulator is what the step returns, whatever the predicate. -/
theorem chainStep_of_chainFixed {op : MatchOperator} {acc : Bool} (h : chainFixed op acc = true)
    (p : Bool) : chainStep op acc p = acc := by
  cases op <;> cases acc <;> simp_all [chainFixed, chainStep]

/-- `eval_match_chain` with the calls of `pred` as effects in `m`.  `op_of` stays a plain
function, as at every call site (`|m| m.operator`). -/
def evalMatchChainM {m : Type → Type} [Monad m] {T : Type} (entries : List T)
    (opOf : T → MatchOperator) (pred : T → m Bool) : m Bool :=
  match entries with
  | [] => pure true
  | first :: rest => pred first >>= fun acc ↦ loop acc rest
where
  /-- The `for item in iter` loop over the items after the first. -/
  loop : Bool → List T → m Bool
    | acc, [] => pure acc
    | acc, item :: rest =>
      match opOf item with
      | .And => if !acc then loop acc rest else pred item >>= fun p ↦ loop (acc && p) rest
      | .Or => if acc then loop acc rest else pred item >>= fun p ↦ loop (acc || p) rest
      | .AndNot => if !acc then loop acc rest else pred item >>= fun p ↦ loop (acc && !p) rest
      | .OrNot => if acc then loop acc rest else pred item >>= fun p ↦ loop (acc || !p) rest
      | .Not => if !acc then loop acc rest else pred item >>= fun p ↦ loop (acc && !p) rest

/-- A predicate that appends each item it is called on to a log. -/
def loggedPred {T : Type} (pred : T → Bool) (x : T) : StateM (List T) Bool :=
  modify (· ++ [x]) *> pure (pred x)

section Fold

variable {T : Type} (opOf : T → MatchOperator)

/-- One iteration of the loop: a fixed item is skipped, any other one is stepped. -/
theorem evalMatchChain.loop_cons_eq (pred : T → Bool) (acc : Bool) (x : T) (xs : List T) :
    evalMatchChain.loop opOf pred acc (x :: xs) =
      if chainFixed (opOf x) acc then evalMatchChain.loop opOf pred acc xs
      else evalMatchChain.loop opOf pred (chainStep (opOf x) acc (pred x)) xs := by
  simp only [evalMatchChain.loop]
  cases opOf x <;> cases acc <;> rfl

/-- One iteration of the effectful loop: the predicate runs on an item that is not
fixed, and only there. -/
theorem evalMatchChainM.loop_cons_eq {m : Type → Type} [Monad m] (pred : T → m Bool)
    (acc : Bool) (x : T) (xs : List T) :
    evalMatchChainM.loop opOf pred acc (x :: xs) =
      if chainFixed (opOf x) acc then evalMatchChainM.loop opOf pred acc xs
      else pred x >>= fun p ↦ evalMatchChainM.loop opOf pred (chainStep (opOf x) acc p) xs := by
  simp only [evalMatchChainM.loop]
  cases opOf x <;> cases acc <;> rfl

/-- The loop is the left fold of `chainStep`. -/
theorem evalMatchChain.loop_eq_foldl (pred : T → Bool) (acc : Bool) (rest : List T) :
    evalMatchChain.loop opOf pred acc rest =
      rest.foldl (fun a e ↦ chainStep (opOf e) a (pred e)) acc := by
  induction rest generalizing acc with
  | nil => rfl
  | cons x xs ih =>
    rw [evalMatchChain.loop_cons_eq, List.foldl_cons]
    split
    · next h => rw [chainStep_of_chainFixed h, ih]
    · exact ih _

/-- The effectful loop with a logging predicate returns the fold and logs each item
whose running accumulator does not fix it. -/
theorem evalMatchChainM.loop_logged (pred : T → Bool) (acc : Bool) (rest log : List T) :
    (evalMatchChainM.loop opOf (loggedPred pred) acc rest).run log =
      (rest.foldl (fun a e ↦ chainStep (opOf e) a (pred e)) acc,
        log ++ ((rest.zip (rest.scanl (fun a e ↦ chainStep (opOf e) a (pred e)) acc)).filter
          fun p ↦ !chainFixed (opOf p.1) p.2).map Prod.fst) := by
  induction rest generalizing acc log with
  | nil => simp [evalMatchChainM.loop]
  | cons x xs ih =>
    rw [evalMatchChainM.loop_cons_eq]
    by_cases h : chainFixed (opOf x) acc = true
    · simp [h, ih, chainStep_of_chainFixed h]
    · simp only [h, if_false]
      simpa [loggedPred, h] using ih (chainStep (opOf x) acc (pred x)) (log ++ [x])

theorem evalMatchChain_left_fold (pred : T → Bool) :
    evalMatchChain [] opOf pred = true ∧
    ∀ first rest,
      evalMatchChain (first :: rest) opOf pred =
        rest.foldl (fun acc e ↦ chainStep (opOf e) acc (pred e)) (pred first) ∧
      (evalMatchChainM (first :: rest) opOf (loggedPred pred)).run [] =
        (evalMatchChain (first :: rest) opOf pred,
          first :: ((rest.zip (rest.scanl (fun acc e ↦ chainStep (opOf e) acc (pred e))
            (pred first))).filter fun p ↦ !chainFixed (opOf p.1) p.2).map Prod.fst) := by
  refine ⟨rfl, fun first rest ↦ ⟨evalMatchChain.loop_eq_foldl opOf pred _ rest, ?_⟩⟩
  rw [evalMatchChain_cons, evalMatchChain.loop_eq_foldl]
  exact evalMatchChainM.loop_logged opOf pred (pred first) rest [first]

end Fold

/-! ## Request matchers -/

/-- `RuntimeMatcher`; a compiled regex is represented by its pattern. -/
inductive RuntimeMatcher where
  | Any
  | DomainSuffix (value : String)
  | ClientIp (net : IpNet)
  | DomainRegex (regex : String)
  | Qclass (value : DNSClass)
  | EdnsPresent (expect : Bool)
deriving DecidableEq, Repr

/-- `RuntimeMatcher::matches`. -/
def RuntimeMatcher.matches (lib : Lib) (qname : String) (qclass : DNSClass) (clientIp : IpAddr)
    (ednsPresent : Bool) : RuntimeMatcher → Bool
  | .Any => true
  | .DomainSuffix value => endsWith qname value
  | .ClientIp net => net.contains clientIp
  | .DomainRegex regex => lib.regexIsMatch regex qname
  | .Qclass value => qclass == value
  | .EdnsPresent expect => expect == ednsPresent

/-- `RuntimeMatcherWithOp`. -/
structure RuntimeMatcherWithOp where
  operator : MatchOperator
  matcher : RuntimeMatcher
deriving DecidableEq, Repr

/-! ## Pipeline-selector matchers -/

/-- `str::eq_ignore_ascii_case`. -/
def eqIgnoreAsciiCase (a b : String) : Bool :=
  a.toList.map Char.toLower == b.toList.map Char.toLower

/-- `RuntimePipelineSelectorMatcher`. -/
inductive RuntimePipelineSelectorMatcher where
  | ListenerLabel (value : String)
  | ClientIp (net : IpNet)
  | DomainSuffix (value : String)
  | DomainRegex (regex : String)
  | Any
  | Qclass (value : DNSClass)
  | EdnsPresent (expect : Bool)
deriving DecidableEq, Repr

/-- `RuntimePipelineSelectorMatcher::matches`. -/
def RuntimePipelineSelectorMatcher.matches (lib : Lib) (listenerLabel : String)
    (clientIp : IpAddr) (qname : String) (qclass : DNSClass) (ednsPresent : Bool) :
    RuntimePipelineSelectorMatcher → Bool
  | .ListenerLabel value => eqIgnoreAsciiCase value listenerLabel
  | .ClientIp net => net.contains clientIp
  | .DomainSuffix value => endsWith qname value
  | .DomainRegex regex => lib.regexIsMatch regex qname
  | .Any => true
  | .Qclass value => value == qclass
  | .EdnsPresent expect => expect == ednsPresent

/-- `RuntimePipelineSelectorMatcherWithOp`. -/
structure RuntimePipelineSelectorMatcherWithOp where
  operator : MatchOperator
  matcher : RuntimePipelineSelectorMatcher
deriving DecidableEq, Repr

/-! ## Response matchers -/

/-- `RuntimeResponseMatcher`. -/
inductive RuntimeResponseMatcher where
  | UpstreamEquals (value : String)
  | RequestDomainSuffix (value : String)
  | RequestDomainRegex (regex : String)
  | ResponseUpstreamIp (nets : List IpNet)
  | ResponseAnswerIp (nets : List IpNet)
  | ResponseType (value : String)
  | ResponseRcode (value : String)
  | ResponseQclass (value : DNSClass)
  | ResponseEdnsPresent (expect : Bool)
deriving DecidableEq, Repr

/-- `try_parse_upstream_ip`: a socket address, else a bare address. -/
def tryParseUpstreamIp (lib : Lib) (upstream : String) : Option IpAddr :=
  (lib.parseSocketAddrIp upstream).orElse fun _ ↦ lib.parseIpAddr upstream

/-- An A or AAAA record whose address lies in one of the networks. -/
def recordInNets (nets : List IpNet) (r : Record) : Bool :=
  match r.rdata with
  | .a v4 => nets.any fun net ↦ net.contains (.v4 v4)
  | .aaaa v6 => nets.any fun net ↦ net.contains (.v6 v6)
  | .other .. => false

/-- The names `ResponseRcode` compares against. -/
def rcodeName (rcode : ResponseCode) : String :=
  match rcode.code.toNat with
  | 0 => "NOERROR"
  | 1 => "FORMERR"
  | 2 => "SERVFAIL"
  | 3 => "NXDOMAIN"
  | 4 => "NOTIMP"
  | 5 => "REFUSED"
  | _ => "OTHER"

/-- `RuntimeResponseMatcher::matches`. -/
def RuntimeResponseMatcher.matches (lib : Lib) (upstream qname : String) (qtype : RecordType)
    (qclass : DNSClass) (msg : Message) : RuntimeResponseMatcher → Bool
  | .UpstreamEquals value => upstream == value
  | .RequestDomainSuffix value => endsWith qname value
  | .RequestDomainRegex regex => lib.regexIsMatch regex qname
  | .ResponseUpstreamIp nets =>
    match tryParseUpstreamIp lib upstream with
    | some ip => nets.any fun net ↦ net.contains ip
    | none => false
  | .ResponseAnswerIp nets => msg.answers.any (recordInNets nets) || msg.additionals.any (recordInNets nets)
  | .ResponseType value =>
    lib.recordTypeName ((msg.answers.head?.map Record.recordType).getD qtype) == value
  | .ResponseRcode value => rcodeName msg.responseCode == value
  | .ResponseQclass value => value == qclass
  | .ResponseEdnsPresent expect => msg.edns == expect

/-- `RuntimeResponseMatcherWithOp`. -/
structure RuntimeResponseMatcherWithOp where
  operator : MatchOperator
  matcher : RuntimeResponseMatcher
deriving DecidableEq, Repr

/-! ## Rules, pipelines and the configuration snapshot -/

/-- `RuntimeRule`. -/
structure RuntimeRule where
  name : String
  matcherOperator : MatchOperator
  matchers : List RuntimeMatcherWithOp
  actions : List Action
  responseMatchers : List RuntimeResponseMatcherWithOp
  responseMatcherOperator : MatchOperator
  responseActionsOnMatch : List Action
  responseActionsOnMiss : List Action
deriving DecidableEq, Repr

/-- `RuntimePipeline`, without its two index fields, which `runtimeIndex` computes. -/
structure RuntimePipeline where
  id : String
  rules : List RuntimeRule
deriving DecidableEq, Repr

/-- `RuntimePipelineSelectRule`. -/
structure RuntimePipelineSelectRule where
  pipeline : String
  matchers : List RuntimePipelineSelectorMatcherWithOp
  matcherOperator : MatchOperator
deriving DecidableEq, Repr

/-- `RuntimePipelineConfig`: one configuration snapshot. -/
structure RuntimePipelineConfig where
  settings : GlobalSettings
  pipelineSelect : List RuntimePipelineSelectRule
  pipelines : List RuntimePipeline
deriving DecidableEq, Repr

/-- `cfg.pipelines.iter().find(|p| p.id == id)`. -/
def RuntimePipelineConfig.findPipeline (cfg : RuntimePipelineConfig) (id : String) :
    Option RuntimePipeline :=
  cfg.pipelines.find? fun p ↦ p.id == id

/-- Whether a request rule's matcher chain holds for a request. -/
def RuntimeRule.requestMatches (lib : Lib) (rule : RuntimeRule) (qname : String)
    (qclass : DNSClass) (clientIp : IpAddr) (ednsPresent : Bool) : Bool :=
  evalMatchChain rule.matchers (·.operator) fun m ↦ m.matcher.matches lib qname qclass clientIp ednsPresent

/-! ## The fallback index of `from_config` -/

/-- The key under which `from_config` puts a rule into `domain_suffix_index`: when the
rule-level operator is `And`, the value of its first `DomainSuffix` matcher, whatever the
per-item operators are.  A rule without a key goes to `always_check_rules`. -/
def RuntimeRule.suffixKey (r : RuntimeRule) : Option String :=
  if r.matcherOperator = .And then
    r.matchers.findSome? fun m ↦ match m.matcher with
      | .DomainSuffix value => some value
      | _ => none
  else none

/-- `domain_suffix_index` and `always_check_rules` of a `RuntimePipeline`. -/
structure RuntimeIndex where
  domainSuffixIndex : String → List Nat
  alwaysCheckRules : List Nat

/-- The body of the indexing loop of `from_config` for rule `idx`. -/
def RuntimeIndex.add (ix : RuntimeIndex) (idx : Nat) (r : RuntimeRule) : RuntimeIndex :=
  match r.suffixKey with
  | some value =>
    { ix with domainSuffixIndex := fun k ↦
        if k = value then ix.domainSuffixIndex k ++ [idx] else ix.domainSuffixIndex k }
  | none => { ix with alwaysCheckRules := ix.alwaysCheckRules ++ [idx] }

/-- `for (idx, rule) in rules.iter().enumerate()`, from index `idx` on. -/
def RuntimeIndex.addAll : RuntimeIndex → Nat → List RuntimeRule → RuntimeIndex
  | ix, _, [] => ix
  | ix, idx, r :: rs => addAll (ix.add idx r) (idx + 1) rs

/-- The index `from_config` builds for a pipeline. -/
def RuntimePipeline.runtimeIndex (p : RuntimePipeline) : RuntimeIndex :=
  RuntimeIndex.addAll ⟨fun _ ↦ [], []⟩ 0 p.rules

/-! ## The operator normalisation of `from_config`

A rule-level operator (the legacy `matcher_operator`) is pushed onto the items of a
matcher list whose own operators are all the default `And`.  The configuration side is
given by the same records before normalisation: `RuntimeMatcher::from_config` converts
each matcher on its own and keeps its operator, so normalising after the conversion, as
the source does, is normalising the declared list.

The legacy meaning of a rule-level operator is `apply_match_operator`.  The normalised
chain keeps it under `And` and `Or` only: `eval_match_chain` takes the first item's result
as it is, whatever its operator, so under `AndNot`, `Not` and `OrNot` the first matcher is
never negated. -/

/-- `apply_match_operator`: a rule-level operator over the matchers' results in
declaration order. -/
def applyMatchOperator : MatchOperator → List Bool → Bool
  | .And, results => results.all id
  | .Or, results => results.any id
  | .AndNot, results => !results.any id
  | .OrNot, results => !results.all id
  | .Not, results => !results.any id

/-- The normalisation of one matcher list of `from_config`: when every item has the
default `And`, the list is not empty and the rule-level operator is not `And`, every item
takes the rule-level operator. -/
def normalizeOperators {W : Type} (operator : W → MatchOperator)
    (withOperator : W → MatchOperator → W) (ruleOp : MatchOperator) (items : List W) :
    List W :=
  if items.all (fun m ↦ operator m == .And) && !items.isEmpty && ruleOp != .And then
    items.map (withOperator · ruleOp)
  else items

/-- A request rule as `from_config` leaves it: its request matchers under
`matcher_operator`, its response matchers under `response_matcher_operator`. -/
def RuntimeRule.normalize (r : RuntimeRule) : RuntimeRule :=
  { r with
    matchers := normalizeOperators (·.operator) (fun m op ↦ { m with operator := op })
      r.matcherOperator r.matchers
    responseMatchers := normalizeOperators (·.operator) (fun m op ↦ { m with operator := op })
      r.responseMatcherOperator r.responseMatchers }

/-- A pipeline-select rule as `from_config` leaves it. -/
def RuntimePipelineSelectRule.normalize (r : RuntimePipelineSelectRule) :
    RuntimePipelineSelectRule :=
  { r with
    matchers := normalizeOperators (·.operator) (fun m op ↦ { m with operator := op })
      r.matcherOperator r.matchers }

/-- `RuntimePipelineConfig::from_config`, as far as the operators go. -/
def RuntimePipelineConfig.fromConfig (cfg : RuntimePipelineConfig) : RuntimePipelineConfig :=
  { cfg with
    pipelineSelect := cfg.pipelineSelect.map RuntimePipelineSelectRule.normalize
    pipelines := cfg.pipelines.map fun p ↦ { p with rules := p.rules.map RuntimeRule.normalize } }

/-- When the normalised chain still means what the legacy operator meant, by the results
of the matchers after the first: always under `And` and `Or`; under `AndNot` and `Not`
only when a later matcher holds, and under `OrNot` only when a later matcher fails. -/
def legacyKept : MatchOperator → List Bool → Bool
  | .And, _ | .Or, _ => true
  | .AndNot, later | .Not, later => later.any id
  | .OrNot, later => !later.all id

section Normalize

variable {M W : Type} (mk : MatchOperator → M → W) (operator : W → MatchOperator)
  (withOperator : W → MatchOperator → W)

/-- A non-empty list of default items, normalised, is the list with the rule-level
operator on every item. -/
theorem normalizeOperators_default (hop : ∀ o m, operator (mk o m) = o)
    (hwith : ∀ o o' m, withOperator (mk o m) o' = mk o' m) (op : MatchOperator) (first : M)
    (rest : List M) :
    normalizeOperators operator withOperator op ((first :: rest).map (mk .And)) =
      (first :: rest).map (mk op) := by
  unfold normalizeOperators
  cases op <;> simp [hop, hwith, Function.comp_def]

/-- The results of a list of matchers, conjoined (`List.all_map` of the core library is
stated for maps of a type into itself). -/
theorem all_map_id {T : Type} (f : T → Bool) (l : List T) : (l.map f).all id = l.all f := by
  induction l with
  | nil => rfl
  | cons x l ih => simp [ih]

theorem any_map_id {T : Type} (f : T → Bool) (l : List T) : (l.map f).any id = l.any f := by
  induction l with
  | nil => rfl
  | cons x l ih => simp [ih]

theorem foldl_and_eq_all {T : Type} (f : T → Bool) (b : Bool) (l : List T) :
    l.foldl (fun a e ↦ a && f e) b = (b && l.all f) := by
  induction l generalizing b with
  | nil => simp
  | cons x l ih => simp [ih, Bool.and_assoc]

theorem foldl_or_eq_any {T : Type} (f : T → Bool) (b : Bool) (l : List T) :
    l.foldl (fun a e ↦ a || f e) b = (b || l.any f) := by
  induction l generalizing b with
  | nil => simp
  | cons x l ih => simp [ih, Bool.or_assoc]

/-- A chain whose items after the first all carry `op`, against the legacy meaning of
`op`. -/
theorem evalMatchChain_const_iff {T : Type} (op : MatchOperator) (pred : T → Bool) (first : T)
    (rest : List T) :
    evalMatchChain (first :: rest) (fun _ ↦ op) pred =
        applyMatchOperator op ((first :: rest).map pred) ↔
      legacyKept op (rest.map pred) = true := by
  rw [evalMatchChain_cons, evalMatchChain.loop_eq_foldl]
  cases op <;> cases hf : pred first <;>
    simp [chainStep, applyMatchOperator, legacyKept, foldl_and_eq_all, foldl_or_eq_any, hf,
      all_map_id, any_map_id]

end Normalize

theorem fromConfig_operator_legacy_iff (lib : Lib) (op : MatchOperator) :
    (∀ (r : RuntimeRule) (first : RuntimeMatcher) (rest : List RuntimeMatcher) (qname : String)
        (qclass : DNSClass) (clientIp : IpAddr) (ednsPresent : Bool),
      let result := fun m : RuntimeMatcher ↦ m.matches lib qname qclass clientIp ednsPresent
      (RuntimeRule.normalize { r with
          matcherOperator := op
          matchers := (first :: rest).map (⟨.And, ·⟩) }).requestMatches lib qname qclass
          clientIp ednsPresent = applyMatchOperator op ((first :: rest).map result) ↔
        legacyKept op (rest.map result) = true) ∧
    (∀ (r : RuntimePipelineSelectRule) (first : RuntimePipelineSelectorMatcher)
        (rest : List RuntimePipelineSelectorMatcher) (listenerLabel : String) (clientIp : IpAddr)
        (qname : String) (qclass : DNSClass) (ednsPresent : Bool),
      let result := fun m : RuntimePipelineSelectorMatcher ↦
        m.matches lib listenerLabel clientIp qname qclass ednsPresent
      evalMatchChain (RuntimePipelineSelectRule.normalize { r with
          matcherOperator := op
          matchers := (first :: rest).map (⟨.And, ·⟩) }).matchers (·.operator)
          (fun m ↦ result m.matcher) = applyMatchOperator op ((first :: rest).map result) ↔
        legacyKept op (rest.map result) = true) ∧
    (∀ (r : RuntimeRule) (first : RuntimeResponseMatcher) (rest : List RuntimeResponseMatcher)
        (upstream qname : String) (qtype : RecordType) (qclass : DNSClass) (msg : Message),
      let result := fun m : RuntimeResponseMatcher ↦ m.matches lib upstream qname qtype qclass msg
      evalMatchChain (RuntimeRule.normalize { r with
          responseMatcherOperator := op
          responseMatchers := (first :: rest).map (⟨.And, ·⟩) }).responseMatchers (·.operator)
          (fun m ↦ result m.matcher) = applyMatchOperator op ((first :: rest).map result) ↔
        legacyKept op (rest.map result) = true) := by
  refine ⟨fun r first rest _ _ _ _ ↦ ?_, fun r first rest _ _ _ _ _ ↦ ?_,
    fun r first rest _ _ _ _ _ ↦ ?_⟩
  · simp only [RuntimeRule.normalize, RuntimeRule.requestMatches]
    rw [normalizeOperators_default RuntimeMatcherWithOp.mk _ _ (fun _ _ ↦ rfl)
      (fun _ _ _ ↦ rfl), evalMatchChain_map]
    exact evalMatchChain_const_iff op _ first rest
  · simp only [RuntimePipelineSelectRule.normalize]
    rw [normalizeOperators_default RuntimePipelineSelectorMatcherWithOp.mk _ _ (fun _ _ ↦ rfl)
      (fun _ _ _ ↦ rfl), evalMatchChain_map]
    exact evalMatchChain_const_iff op _ first rest
  · simp only [RuntimeRule.normalize]
    rw [normalizeOperators_default RuntimeResponseMatcherWithOp.mk _ _ (fun _ _ ↦ rfl)
      (fun _ _ _ ↦ rfl), evalMatchChain_map]
    exact evalMatchChain_const_iff op _ first rest

/-- A rule `and_not` of the one matcher `any` holds for every request; its legacy meaning
holds for none. -/
example (lib : Lib) :
    (RuntimeRule.normalize ⟨"r", .AndNot, [⟨.And, .Any⟩], [], [], .And, [], []⟩).requestMatches
      lib "a.example" DNSClass.IN (.v4 0) false = true ∧
    applyMatchOperator .AndNot [true] = false :=
  ⟨rfl, rfl⟩

end KixDns
