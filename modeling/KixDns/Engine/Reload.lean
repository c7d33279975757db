import KixDns.Engine.RuleWalk

/-!
# Configuration reloads and the compiled pipelines

`Engine::new` compiles the snapshot it is given once, into `compiled_pipelines`.  The
watcher (`watcher::run_watcher`) publishes each new snapshot by `pipeline.store`, and
nothing stores into `compiled_pipelines` again.  Requests read both handles and write
neither.

The invariant the engine needs is `ConfigState.CompiledCurrent`: the compiled pipeline
under every id is the compilation of the current pipeline with that id.  It holds for a
freshly built engine and gives `apply_rules` its bounds; a reload breaks it.
-/

namespace KixDns

/-- The configuration part of the engine state: the published snapshot (`pipeline`) and
`compiled_pipelines`. -/
structure ConfigState where
  pipeline : RuntimePipelineConfig
  compiledPipelines : List CompiledPipeline

/-- The two handles as `Engine::new` sets them up. -/
def ConfigState.new (cfg : RuntimePipelineConfig) : ConfigState :=
  ⟨cfg, compilePipelines cfg⟩

/-- What can happen to the two handles. -/
inductive ConfigEvent where
  /-- `run_watcher` publishes a new snapshot. -/
  | reload (cfg : RuntimePipelineConfig)
  /-- A request is handled; it only reads the handles. -/
  | request

/-- The effect of an event on the two handles. -/
def ConfigEvent.apply : ConfigEvent → ConfigState → ConfigState
  | .reload cfg, s => { s with pipeline := cfg }
  | .request, s => s

/-- The states an engine built on `cfg₀` can reach. -/
inductive ConfigState.Reachable (cfg₀ : RuntimePipelineConfig) : ConfigState → Prop
  | init : Reachable cfg₀ (ConfigState.new cfg₀)
  | step {s : ConfigState} (e : ConfigEvent) : Reachable cfg₀ s → Reachable cfg₀ (e.apply s)

/-- `Engine::compiled_for`. -/
def ConfigState.compiledFor (s : ConfigState) (pipelineId : String) : Option CompiledPipeline :=
  findCompiled s.compiledPipelines pipelineId

/-- The compiled pipeline under every id is the compilation of the current pipeline with
that id, and there is none for an id the snapshot lacks. -/
def ConfigState.CompiledCurrent (s : ConfigState) : Prop :=
  ∀ pipelineId, s.compiledFor pipelineId = (s.pipeline.findPipeline pipelineId).map compilePipeline

theorem ConfigState.new_compiledCurrent (cfg : RuntimePipelineConfig) :
    (ConfigState.new cfg).CompiledCurrent :=
  findCompiled_compilePipelines cfg

/-- A request keeps the invariant. -/
theorem ConfigState.CompiledCurrent.request {s : ConfigState} (h : s.CompiledCurrent) :
    (ConfigEvent.request.apply s).CompiledCurrent := h

/-- While the invariant holds, `apply_rules` on a pipeline of the snapshot cannot panic:
every candidate index is a position of the pipeline's rules. -/
theorem ConfigState.CompiledCurrent.applyRules_isSome (lib : Lib) {s : ConfigState}
    (h : s.CompiledCurrent) {p : RuntimePipeline} (hp : s.pipeline.findPipeline p.id = some p)
    (clientIp : IpAddr) (qname : String) (qtype : RecordType) (qclass : DNSClass)
    (ednsPresent : Bool) (skipRules : Option (List String)) (cache : RuleCache) :
    (applyRules lib s.compiledPipelines s.pipeline p clientIp qname qtype qclass ednsPresent
      skipRules cache).isSome := by
  refine KixDns.applyRules_isSome lib _ _ p (fun c hc ↦ ?_) _ _ _ _ _ _ _
  have := h p.id
  simp only [ConfigState.compiledFor, hp, Option.map_some'] at this
  rw [this] at hc
  exact (Option.some.inj hc).symm

/-! ## A reload that shortens a pipeline -/

/-- A rule that matches every query and allows it. -/
def allowAll (name : String) : RuntimeRule :=
  ⟨name, .And, [⟨.And, .Any⟩], [.Allow], [], .And, [], []⟩

/-- A rule that refuses queries of class `CH`. -/
def denyChaos : RuntimeRule :=
  ⟨"chaos", .And, [⟨.And, .Qclass DNSClass.CH⟩], [.Deny], [], .And, [], []⟩

/-- The configuration the engine starts from: pipeline `p` with two rules. -/
def twoRuleConfig (settings : GlobalSettings) : RuntimePipelineConfig :=
  ⟨settings, [], [⟨"p", [allowAll "a", allowAll "b"]⟩]⟩

/-- The configuration a reload publishes: pipeline `p` with one rule. -/
def oneRuleConfig (settings : GlobalSettings) : RuntimePipelineConfig :=
  ⟨settings, [], [⟨"p", [denyChaos]⟩]⟩

/-- After one reload the compiled pipeline under `p` still has the two old rules, and
`apply_rules` on the new `p` takes candidate `1` from the old index and panics at
`&pipeline.rules[1]`. -/
theorem reload_leaves_compiled_pipelines_stale (lib : Lib) (settings : GlobalSettings) :
    let s := (ConfigEvent.reload (oneRuleConfig settings)).apply (ConfigState.new (twoRuleConfig settings))
    s.Reachable (twoRuleConfig settings) ∧ ¬ s.CompiledCurrent ∧
      applyRules lib s.compiledPipelines s.pipeline ⟨"p", [denyChaos]⟩ (.v4 0) "a.example"
        RecordType.A DNSClass.IN false none RuleCache.empty = none := by
  refine ⟨.step _ .init, fun h ↦ ?_, rfl⟩
  have := congrArg (Option.map (·.rules.length)) (h "p")
  change some 2 = some 1 at this
  exact absurd (Option.some.inj this) (by decide)

end KixDns
