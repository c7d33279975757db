import KixDns.Engine.State

/-!
# The request tasks (`Engine::handle_packet`, `Engine::process_response_jump`)

A task takes one step at a time, and each step touches at most one shared map: the L2
probe, one call of `apply_rules`, one `inflight.entry`, one notification or guard drop,
or the processing of an awaited upstream answer up to its cache insert.  Between two
steps of a task, any other task or event may run.  The awaits of the source are where a
task stops until its input is there: a follower waits for its mailbox, and a forward for
the upstream outcome, which the step that resumes it receives as `StepInput`.

`apply_response_actions` runs inside the step that processes an answer: it touches no
shared map, so its own upstream calls are part of that step's input.

A `process_response_jump` in progress is the task's second frame (`Task.jump`); the first
frame waits in `HandlePc.inJump` until the second returns.  Both functions drop their
cleanup guards when they return, and the guard drop is a step of its own, since the
notification before it and the removal it makes are separate operations on the map.

A panic of `apply_rules` (an index past the rules) unwinds the task: it returns nothing
and its guards are dropped, as on an error.

The last part runs the machine on fixed requests: a chain of jumps past the budget, an
answer whose transaction id is zero, cache entries that outlive their lifetime or reach a
client the rules refuse, and a fingerprint under a pipeline the task never executed.  What
holds over every run, the protocol of the shared maps, is in `KixDns.Engine.SingleFlight`.
-/

namespace KixDns

/-- What the environment gives a step: the outcome of the `forward_upstream` the task
awaits, and the outcomes of the upstream calls `apply_response_actions` makes. -/
structure StepInput where
  upstream : Option Bytes
  actionAnswers : Nat → Option Bytes

section

variable (lib : Lib) (cfg : RuntimePipelineConfig) (inp : StepInput)

/-- `cfg.min_ttl()`, in seconds. -/
def minTtlSecs : Nat := cfg.settings.minTtl.toNat

/-- `cfg.settings.response_jump_limit as usize`. -/
def jumpLimit : Nat := cfg.settings.responseJumpLimit.toNat

/-- The response matcher chain of a forward on an upstream message. -/
def forwardMatches (req : Request) (f : ForwardDecision) (msg : Message) : Bool :=
  evalMatchChain f.responseMatchers (·.operator)
    fun m ↦ m.matcher.matches lib f.upstream req.qname req.qtype req.qclass msg

/-- The actions the response phase runs: `on_match` or `on_miss` by the matcher chain,
none when both lists are empty. -/
def actionsToRun (f : ForwardDecision) (respMatch : Bool) : List Action :=
  if !f.responseActionsOnMatch.isEmpty || !f.responseActionsOnMiss.isEmpty then
    if respMatch then f.responseActionsOnMatch else f.responseActionsOnMiss
  else []

/-! ## The first frame: `handle_packet` -/

namespace Task

variable (t : Task)

/-- Return an error: the guard is dropped on the way out. -/
def fail : Task := { t with pc := .drop none }

/-- The `'decision_loop` iteration after a `Continue` result: the guard is defused and
goes out of scope with the `Forward` arm, the answer is kept for reuse, the rule joins the
skip set, and the rules of the current pipeline run again with that skip set. -/
def continueLoop (s : EngineState) (i : TaskId) (f : ForwardDecision)
    (ctx : Option ResponseContext) : EngineState :=
  let vars := { t.vars with
    guard := none
    reusedResponse := ctx
    skipRules := t.vars.skipRules.insert f.ruleName }
  match cfg.findPipeline vars.currentPipelineId with
  | none => s.setTask i { t.fail with vars := vars }
  | some p =>
    match s.applyRulesFor lib cfg p t.req (some vars.skipRules) with
    | none => s.setTask i { t.fail with vars := vars }
    | some (d, s') => s'.setTask i { t with vars := vars, pc := .resolve d 0 }

/-- Start `process_response_jump` on the full request. -/
def startJump (s : EngineState) (i : TaskId) (pipeline : String) (remaining : Nat)
    (defuse : Bool) : EngineState :=
  match lib.messageFromBytes t.req.packet with
  | none => s.setTask i t.fail
  | some req =>
    s.setTask i { t with
      jump := some (⟨req, pipeline, remaining, [], none, [], [],
        calculateCacheHashForDedupe lib pipeline t.req.qname t.req.qtype⟩, .top true)
      pc := .inJump defuse
      hashedPipelines := pipeline :: t.hashedPipelines }

/-- The `Ok(raw)` arm of `match resp` in `handle_packet`. -/
def upstreamOk (s : EngineState) (i : TaskId) (f : ForwardDecision) (raw : Bytes) :
    EngineState :=
  let req := t.req
  let full := (lib.messageFromBytes raw).map fun msg ↦ (msg.responseCode, extractTtl msg, some msg)
  let parsed : Option (ResponseCode × Nat × Option Message) :=
    if f.responseMatchers.isEmpty && f.responseActionsOnMatch.isEmpty &&
        f.responseActionsOnMiss.isEmpty then
      match parseResponseQuick raw with
      | some qr => some (qr.rcode, qr.minTtl.toNat, none)
      | none => full
    else full
  match parsed with
  | none => s.setTask i t.fail
  | some (rcode, ttlSecs, msgOpt) =>
    let effectiveTtl := max ttlSecs (minTtlSecs cfg)
    let (respMatchOk, msg) := match msgOpt with
      | some m => (forwardMatches lib req f m, m)
      | none => (false, Message.new)
    let actions := actionsToRun f respMatchOk
    if actions.isEmpty then
      let s := if effectiveTtl > 0 then
        s.insertCache t.vars.dedupeHash
          ⟨raw, rcode, f.upstream, req.qname, t.vars.pipelineId, req.qtype.code⟩
      else s
      s.setTask i { t with vars := t.vars.defuse, pc := .notify raw }
    else
      let reqFull := (lib.messageFromBytes req.packet).getD Message.new
      match applyResponseActions lib inp.actionAnswers reqFull f.responseMatchers req.qname
          req.qtype req.qclass cfg.settings.defaultUpstream (jumpLimit cfg) actions 0
          (some ⟨raw, msg, f.upstream, f.transport⟩) with
      | none => s.setTask i t.fail
      | some (.Upstream ctx _) =>
        let s := if max (extractTtl ctx.msg) (minTtlSecs cfg) > 0 then
          s.insertCache t.vars.dedupeHash
            ⟨ctx.raw, ctx.msg.responseCode, ctx.upstream, req.qname, t.vars.pipelineId,
              req.qtype.code⟩
        else s
        s.setTask i { t with vars := t.vars.defuse, pc := .notify ctx.raw }
      | some (.Static bytes rcode source) =>
        let s := if minTtlSecs cfg > 0 then
          s.insertCache t.vars.dedupeHash
            ⟨bytes, rcode, source, req.qname, t.vars.currentPipelineId, req.qtype.code⟩
        else s
        s.setTask i { t with vars := t.vars.defuse, pc := .notify bytes }
      | some (.Jump pipeline remaining) => t.startJump lib s i pipeline remaining true
      | some (.Continue ctx) => t.continueLoop lib cfg s i f ctx

/-- The `Err(err)` arm of `match resp` in `handle_packet`.  With `on_miss` actions the
guard is defused only on `Continue`. -/
def upstreamErr (s : EngineState) (i : TaskId) (f : ForwardDecision) : EngineState :=
  let req := t.req
  if f.responseActionsOnMiss.isEmpty then
    match (lib.messageFromBytes req.packet).bind
        (fun r ↦ buildResponse lib r ResponseCode.ServFail []) with
    | none => s.setTask i t.fail
    | some resp => s.setTask i { t with vars := t.vars.defuse, pc := .notify resp }
  else
    match lib.messageFromBytes req.packet with
    | none => s.setTask i t.fail
    | some reqMsg =>
      match applyResponseActions lib inp.actionAnswers reqMsg f.responseMatchers req.qname
          req.qtype req.qclass cfg.settings.defaultUpstream (jumpLimit cfg)
          f.responseActionsOnMiss 0 none with
      | none => s.setTask i t.fail
      | some (.Upstream ctx respMatch) =>
        let s := if respMatch && max (extractTtl ctx.msg) (minTtlSecs cfg) > 0 then
          s.insertCache t.vars.dedupeHash
            ⟨ctx.raw, ctx.msg.responseCode, ctx.upstream, req.qname, t.vars.pipelineId,
              req.qtype.code⟩
        else s
        s.setTask i { t with pc := .notify ctx.raw }
      | some (.Static bytes _ _) => s.setTask i { t with pc := .notify bytes }
      | some (.Jump pipeline remaining) => t.startJump lib s i pipeline remaining false
      | some (.Continue ctx) => t.continueLoop lib cfg s i f ctx

/-- The answer of a forward, awaited or reused. -/
def upstreamDone (s : EngineState) (i : TaskId) (f : ForwardDecision) :
    Option Bytes → EngineState
  | some raw => t.upstreamOk lib cfg inp s i f raw
  | none => t.upstreamErr lib cfg inp s i f

/-- One step of the first frame. -/
def stepHandle (s : EngineState) (i : TaskId) : Option EngineState :=
  match t.pc with
  | .probe pipelineOpt =>
    match s.cache.lookup s.now t.vars.dedupeHash with
    | some (hit, t0) =>
      if hit.validFor t.req.qtype t.req.qname t.vars.pipelineId then
        some (s.setTask i { t with pc := .done (some (setId t.req.txId hit.bytes)) (.cache t0) })
      else some (s.setTask i { t with pc := .applyInitial pipelineOpt })
    | none => some (s.setTask i { t with pc := .applyInitial pipelineOpt })
  | .applyInitial none =>
    some (s.setTask i { t with
      pc := .resolve (.Forward (ForwardDecision.default cfg.settings.defaultUpstream)) 0 })
  | .applyInitial (some p) =>
    match s.applyRulesFor lib cfg p t.req none with
    | none => some (s.setTask i t.fail)
    | some (d, s') => some (s'.setTask i { t with pc := .resolve d 0 })
  | .resolve (.Jump target) jumpCount =>
    if jumpCount + 1 > jumpLimit cfg then
      some (s.setTask i { t with pc := .dispatch (.Static ResponseCode.ServFail []) })
    else
      match cfg.findPipeline target with
      | none => some (s.setTask i { t with pc := .dispatch (.Static ResponseCode.ServFail []) })
      | some p =>
        let t := { t with
          vars := { t.vars with
            currentPipelineId := target
            dedupeHash := calculateCacheHashForDedupe lib target t.req.qname t.req.qtype
            dedupeRegistered := false
            skipRules := [] }
          hashedPipelines := target :: t.hashedPipelines }
        match s.applyRulesFor lib cfg p t.req none with
        | none => some (s.setTask i t.fail)
        | some (d, s') =>
          some (s'.setTask i { t with
            pc := .resolve d (jumpCount + 1)
            transitions := t.transitions + 1 })
  | .resolve d _ => some (s.setTask i { t with pc := .dispatch d })
  | .dispatch (.Jump _) => some (s.setTask i t.fail)
  | .dispatch (.Static rcode answers) =>
    match (lib.messageFromBytes t.req.packet).bind (fun r ↦ buildResponse lib r rcode answers) with
    | none => some (s.setTask i t.fail)
    | some resp =>
      let s := if minTtlSecs cfg > 0 then
        s.insertCache t.vars.dedupeHash
          ⟨resp, rcode, "static", t.req.qname, t.vars.currentPipelineId, t.req.qtype.code⟩
      else s
      some (s.setTask i { t with pc := .done (some resp) .computed })
  | .dispatch (.Forward f) =>
    let t := { t with vars := { t.vars with guard := none } }
    match f.allowReuse, t.vars.reusedResponse with
    | true, some ctx =>
      some (upstreamDone lib cfg inp { t with vars := { t.vars with reusedResponse := none } }
        s i f (some ctx.raw))
    | _, _ =>
      if t.vars.dedupeRegistered then some (s.setTask i { t with pc := .upstream f })
      else
        match s.entry i t.vars.dedupeHash with
        | (true, s') =>
          some (s'.setTask i { t with
            vars := { t.vars with
              dedupeRegistered := true
              guard := some ⟨t.vars.dedupeHash, true⟩ }
            pc := .upstream f })
        | (false, s') => some (s'.setTask i { t with pc := .follower f })
  | .follower f =>
    match s.mailbox i with
    | none => none
    | some (some bytes) =>
      some ((s.takeMail i).setTask i { t with pc := .done (some (setId t.req.txId bytes)) .follower })
    | some none => some ((s.takeMail i).setTask i { t with pc := .upstream f })
  | .upstream f => some (upstreamDone lib cfg inp t s i f inp.upstream)
  | .inJump _ => none
  | .notify result =>
    some ((s.notifyInflightWaiters t.vars.dedupeHash result).setTask i
      { t with pc := .drop (some result) })
  | .drop result =>
    let s := match t.vars.guard with
      | some g => s.dropGuard g
      | none => s
    some (s.setTask i { t with vars := { t.vars with guard := none }, pc := .done result .computed })
  | .done _ _ => none

end Task

/-! ## The second frame: `process_response_jump` -/

namespace JumpVars

variable (jv : JumpVars)

/-- Defuse every guard, then notify every registered hash with `sent` and return
`reply`. -/
def finish (sent reply : Bytes) : JumpVars × JumpPc :=
  ({ jv with cleanupGuards := defuseAll jv.cleanupGuards }, .notifyAll jv.inflightHashes sent reply)

/-- Return an error: the guards are dropped on the way out. -/
def fail : JumpVars × JumpPc :=
  (jv, .dropGuards jv.cleanupGuards none)

/-- The `SERVFAIL` returns of the loop. -/
def servFail : JumpVars × JumpPc :=
  match buildResponse lib jv.req ResponseCode.ServFail [] with
  | none => jv.fail
  | some resp => jv.finish resp resp

end JumpVars

namespace Task

variable (t : Task)

/-- Set the second frame. -/
def withJump (frame : JumpVars × JumpPc) : Task :=
  { t with jump := some frame }

/-- The `Ok(raw)` arm of `match resp` in `process_response_jump`. -/
def jumpUpstreamOk (s : EngineState) (i : TaskId) (jv : JumpVars) (f : ForwardDecision)
    (raw : Bytes) : EngineState :=
  let req := t.req
  match lib.messageFromBytes raw with
  | none => s.setTask i (t.withJump jv.fail)
  | some msg =>
    let effectiveTtl := max (extractTtl msg) (minTtlSecs cfg)
    let respMatchOk := forwardMatches lib req f msg
    let actions := actionsToRun f respMatchOk
    if actions.isEmpty then
      let s := if respMatchOk && effectiveTtl > 0 then
        s.insertCache jv.dedupeHash
          ⟨raw, msg.responseCode, f.upstream, req.qname, jv.pipelineId, req.qtype.code⟩
      else s
      s.setTask i (t.withJump (jv.finish raw raw))
    else
      match applyResponseActions lib inp.actionAnswers jv.req f.responseMatchers req.qname
          req.qtype req.qclass cfg.settings.defaultUpstream jv.remainingJumps actions 0
          (some ⟨raw, msg, f.upstream, f.transport⟩) with
      | none => s.setTask i (t.withJump jv.fail)
      | some (.Upstream ctx respMatch) =>
        let s := if respMatch && max (extractTtl ctx.msg) (minTtlSecs cfg) > 0 then
          s.insertCache jv.dedupeHash
            ⟨ctx.raw, ctx.msg.responseCode, ctx.upstream, req.qname, jv.pipelineId,
              req.qtype.code⟩
        else s
        s.setTask i (t.withJump (jv.finish ctx.raw ctx.raw))
      | some (.Static bytes _ _) => s.setTask i (t.withJump (jv.finish bytes bytes))
      | some (.Jump pipeline remaining) =>
        s.setTask i (t.withJump ({ jv with pipelineId := pipeline, remainingJumps := remaining },
          .top true))
      | some (.Continue ctx) =>
        s.setTask i (t.withJump ({ jv with
          reusedResponse := ctx
          skipRules := jv.skipRules.insert f.ruleName }, .top false))

/-- One step of the second frame. -/
def stepJump (s : EngineState) (i : TaskId) (jv : JumpVars) : JumpPc → Option EngineState
  | .top viaJump =>
    if jv.remainingJumps = 0 then some (s.setTask i (t.withJump (jv.servFail lib)))
    else
      match cfg.findPipeline jv.pipelineId with
      | none => some (s.setTask i (t.withJump (jv.servFail lib)))
      | some p =>
        let jv := { jv with
          dedupeHash := calculateCacheHashForDedupe lib jv.pipelineId t.req.qname t.req.qtype }
        let t := { t with hashedPipelines := jv.pipelineId :: t.hashedPipelines }
        match s.applyRulesFor lib cfg p t.req
            (if jv.skipRules.isEmpty then none else some jv.skipRules) with
        | none => some (s.setTask i (t.withJump jv.fail))
        | some (d, s') =>
          some (s'.setTask i { t.withJump (jv, .resolve d jv.remainingJumps) with
            transitions := t.transitions + if viaJump then 1 else 0 })
  | .resolve (.Jump target) localJumps =>
    if localJumps = 0 then some (s.setTask i (t.withJump (jv.servFail lib)))
    else
      let jv := { jv with pipelineId := target }
      match cfg.findPipeline target with
      | none => some (s.setTask i (t.withJump (jv.servFail lib)))
      | some p =>
        let jv := { jv with skipRules := [] }
        match s.applyRulesFor lib cfg p t.req none with
        | none => some (s.setTask i (t.withJump jv.fail))
        | some (d, s') =>
          some (s'.setTask i { t.withJump (jv, .resolve d (localJumps - 1)) with
            transitions := t.transitions + 1 })
  | .resolve d localJumps =>
    some (s.setTask i (t.withJump ({ jv with remainingJumps := localJumps }, .dispatch d)))
  | .dispatch (.Static rcode answers) =>
    match buildResponse lib jv.req rcode answers with
    | none => some (s.setTask i (t.withJump jv.fail))
    | some resp =>
      some ((s.insertCache jv.dedupeHash
          ⟨resp, rcode, "static", t.req.qname, jv.pipelineId, t.req.qtype.code⟩).setTask i
        (t.withJump (jv.finish resp resp)))
  | .dispatch (.Forward f) =>
    match f.allowReuse, jv.reusedResponse with
    | true, some ctx => some (t.jumpUpstreamOk lib cfg inp s i { jv with reusedResponse := none } f ctx.raw)
    | _, _ =>
      match s.entry i jv.dedupeHash with
      | (true, s') =>
        some (s'.setTask i (t.withJump ({ jv with
          cleanupGuards := jv.cleanupGuards ++ [⟨jv.dedupeHash, true⟩]
          inflightHashes := jv.inflightHashes ++ [jv.dedupeHash] }, .upstream f)))
      | (false, s') => some (s'.setTask i (t.withJump (jv, .follower f)))
  | .dispatch (.Jump target) =>
    let jv := { jv with pipelineId := target }
    if jv.remainingJumps > 0 then
      some (s.setTask i (t.withJump ({ jv with remainingJumps := jv.remainingJumps - 1 }, .top true)))
    else
      some (s.setTask i (t.withJump
        (jv, .dropGuards jv.cleanupGuards (buildResponse lib jv.req ResponseCode.ServFail []))))
  | .follower f =>
    match s.mailbox i with
    | none => none
    | some (some bytes) =>
      some ((s.takeMail i).setTask i (t.withJump (jv.finish bytes (setId jv.req.id bytes))))
    | some none => some ((s.takeMail i).setTask i (t.withJump (jv, .upstream f)))
  | .upstream f =>
    match inp.upstream with
    | some raw => some (t.jumpUpstreamOk lib cfg inp s i jv f raw)
    | none => some (s.setTask i (t.withJump (jv.servFail lib)))
  | .notifyAll [] _ reply =>
    some (s.setTask i (t.withJump (jv, .dropGuards jv.cleanupGuards (some reply))))
  | .notifyAll (h :: rest) sent reply =>
    some ((s.notifyInflightWaiters h sent).setTask i (t.withJump (jv, .notifyAll rest sent reply)))
  | .dropGuards (g :: rest) result =>
    some ((s.dropGuard g).setTask i (t.withJump (jv, .dropGuards rest result)))
  | .dropGuards [] result =>
    match result, t.pc with
    | some b, .inJump defuse =>
      some (s.setTask i { t with
        jump := none
        vars := if defuse then t.vars.defuse else t.vars
        pc := .notify b })
    | _, _ => some (s.setTask i { t.fail with jump := none })

end Task

/-- One step of task `i`: of its second frame while it runs, else of its first. -/
def EngineState.stepTask (s : EngineState) (i : TaskId) : Option EngineState :=
  match s.tasks i with
  | none => none
  | some t =>
    match t.jump with
    | some (jv, pc) => t.stepJump lib cfg inp s i jv pc
    | none => t.stepHandle lib cfg inp s i

/-! ## Arrivals -/

variable (listenerLabel : String)

/-- A task for a request that reaches `handle_packet`: the lazy parse and
`select_pipeline`, up to the L2 probe.  A packet that does not parse gets no task. -/
def newTask (packet : Bytes) (peer : IpAddr) : Option Task := do
  let req ← parseRequest lib packet peer
  let (pipelineOpt, pipelineId) :=
    selectPipeline lib cfg req.qname req.clientIp req.qclass req.ednsPresent listenerLabel
  some ⟨req, HandleVars.init lib pipelineId req, .probe pipelineOpt, none, 0, [pipelineId]⟩

/-- `handle_packet_fast`: `none` is an error, `some none` sends the packet on to
`handle_packet`, and `some (some (t, …))` answers at once. -/
def handlePacketFast (s : EngineState) (packet : Bytes) (peer : IpAddr) : Option (Option Task) :=
  match parseQuick packet 256 with
  | none => some none
  | some q =>
    let req : Request := ⟨packet, peer, q.qname, ⟨q.qtype⟩, ⟨q.qclass⟩, q.txId, false⟩
    let (_, pipelineId) := selectPipeline lib cfg q.qname peer ⟨q.qclass⟩ false listenerLabel
    let vars := HandleVars.init lib pipelineId req
    let answer (bytes : Bytes) (served : Served) : Task :=
      ⟨req, vars, .done (some bytes) served, none, 0, [pipelineId]⟩
    let staticAnswer (rcode : ResponseCode) (answers : List Record) : Option (Option Task) :=
      (buildFastStaticResponse lib q.txId q.qname q.qtype q.qclass rcode answers).map
        fun resp ↦ some (answer resp .computed)
    let fromRuleCache : Option (Option Task) :=
      match ruleCacheHit s.ruleCache pipelineId q.qname peer with
      | some ⟨_, _, _, .Static rcode answers⟩ => staticAnswer rcode answers
      | _ => some none
    let fromCompiled : Option (Option Task) :=
      match findCompiled (compilePipelines cfg) pipelineId with
      | some compiled =>
        match fastStaticMatch lib compiled q.qname ⟨q.qtype⟩ ⟨q.qclass⟩ peer false with
        | some (.Static rcode answers) => staticAnswer rcode answers
        | _ => fromRuleCache
      | none => fromRuleCache
    match s.cache.lookup s.now vars.dedupeHash with
    | some (hit, t0) =>
      if hit.validFor ⟨q.qtype⟩ q.qname pipelineId then
        some (some (answer (setId q.txId hit.bytes) (.cache t0)))
      else fromCompiled
    | none => fromCompiled

end

/-! ## Runs -/

/-- What can happen to an engine. -/
inductive Event where
  /-- A datagram from `peer` (`run_udp`): `handle_packet_fast`, then a task if it says
  `Ok(None)`. -/
  | udp (i : TaskId) (packet : Bytes) (peer : IpAddr)
  /-- A message on a TCP connection from `peer` (`run_tcp`): a task. -/
  | tcp (i : TaskId) (packet : Bytes) (peer : IpAddr)
  /-- Task `i` takes a step. -/
  | step (i : TaskId) (inp : StepInput)
  /-- `d` seconds pass. -/
  | tick (d : Nat)
  /-- The response cache drops an entry (capacity). -/
  | evictCache (k : UInt64)
  /-- The rule cache drops an entry (time to live, capacity). -/
  | evictRule (k : RuleKey)

/-- The engine after an event; `none` when the event cannot happen. -/
def Event.apply (lib : Lib) (cfg : RuntimePipelineConfig) (listenerLabel : String) :
    Event → EngineState → Option EngineState
  | .udp i packet peer, s =>
    if (s.tasks i).isSome then none
    else
      match handlePacketFast lib cfg listenerLabel s packet peer with
      | none => some s
      | some (some t) => some (s.setTask i t)
      | some none => some ((newTask lib cfg listenerLabel packet peer).elim s (s.setTask i))
  | .tcp i packet peer, s =>
    if (s.tasks i).isSome then none
    else some ((newTask lib cfg listenerLabel packet peer).elim s (s.setTask i))
  | .step i inp, s => s.stepTask lib cfg inp i
  | .tick d, s => some { s with now := s.now + d }
  | .evictCache k, s => some { s with cache := Function.update s.cache k none }
  | .evictRule k, s => some { s with ruleCache := Function.update s.ruleCache k none }

/-- The engine after a sequence of events, if each can happen. -/
def run (lib : Lib) (cfg : RuntimePipelineConfig) (listenerLabel : String) :
    List Event → EngineState → Option EngineState
  | [], s => some s
  | e :: es, s => (e.apply lib cfg listenerLabel s).bind (run lib cfg listenerLabel es)

/-- The states an engine on `cfg` reaches from a fresh one. -/
inductive Reachable (lib : Lib) (cfg : RuntimePipelineConfig) (listenerLabel : String) :
    EngineState → Prop
  | init : Reachable lib cfg listenerLabel EngineState.init
  | step {s s' : EngineState} (e : Event) : Reachable lib cfg listenerLabel s →
      e.apply lib cfg listenerLabel s = some s' → Reachable lib cfg listenerLabel s'

theorem Reachable.run {lib : Lib} {cfg : RuntimePipelineConfig} {listenerLabel : String} :
    ∀ {es : List Event} {s s' : EngineState}, Reachable lib cfg listenerLabel s →
      KixDns.run lib cfg listenerLabel es s = some s' → Reachable lib cfg listenerLabel s'
  | [], _, _, hs, h => by cases h; exact hs
  | e :: es, s, s', hs, h => by
    simp only [KixDns.run, Option.bind_eq_some] at h
    obtain ⟨s₁, h₁, h₂⟩ := h
    exact Reachable.run (.step e hs h₁) h₂

/-! ## Concrete runs

The runs below use one query and one upstream answer.  `sampleLib` decodes them as
`hickory-proto` does, rejects every other packet, encodes a message as its header (the id,
then the flag and code byte), and hashes a fingerprint with `sampleHash`, under which the
fingerprints of the runs do not collide.  Its other functions are those of the default
library, which the runs do not call. -/

section Samples

/-- A query for `a.example`, type `A`, class `IN`, id `0x1234`, recursion desired. -/
def sampleQuery : Bytes :=
  [0x12, 0x34, 0x01, 0x00, 0x00, 0x01, 0x00, 0x00, 0x00, 0x00, 0x00, 0x00,
    1, 0x61, 7, 0x65, 0x78, 0x61, 0x6D, 0x70, 0x6C, 0x65, 0, 0x00, 0x01, 0x00, 0x01]

/-- The name `a.example.`. -/
def sampleName : Name := ⟨[[0x61], [0x65, 0x78, 0x61, 0x6D, 0x70, 0x6C, 0x65]], true⟩

/-- `sampleQuery` decoded. -/
def sampleQueryMsg : Message :=
  { Message.new with
    id := 0x1234
    recursionDesired := true
    queries := [⟨sampleName, RecordType.A, DNSClass.IN⟩] }

/-- An upstream answer to `sampleQuery` with no record. -/
def sampleAnswer : Bytes :=
  [0x12, 0x34, 0x81, 0x80, 0x00, 0x00, 0x00, 0x00, 0x00, 0x00, 0x00, 0x00]

/-- `sampleAnswer` decoded. -/
def sampleAnswerMsg : Message :=
  { Message.new with id := 0x1234, isResponse := true, recursionDesired := true }

/-- The header an encoder writes first: the id, then a flag byte and the response code. -/
def headerBytes (m : Message) : Bytes :=
  be16 m.id ++ [if m.isResponse then 0x80 else 0x00, m.responseCode.code.toUInt8]

/-- The hash of the concrete runs: the characters of the pipeline id, a `/` and the
characters of the name, folded by `h * 31 + c` from the type code. -/
def sampleHash (pipelineId qname : String) (qtype : UInt16) : UInt64 :=
  (pipelineId.toList ++ '/' :: qname.toList).foldl (fun h c ↦ h * 31 + c.toNat.toUInt64)
    qtype.toUInt64

/-- The library of the concrete runs. -/
def sampleLib : Lib :=
  { (default : Lib) with
    messageFromBytes := fun b ↦
      if b = sampleQuery then some sampleQueryMsg
      else if b = sampleAnswer then some sampleAnswerMsg
      else none
    messageEmit := fun m ↦ some (headerBytes m)
    fxHash := sampleHash }

/-- A rule that matches every query. -/
def anyRule (name : String) (actions onMatch : List Action) : RuntimeRule :=
  ⟨name, .And, [⟨.And, .Any⟩], actions, [], .And, onMatch, []⟩

/-- A step of the running task that receives no upstream answer. -/
def noAnswer : StepInput := ⟨none, fun _ ↦ none⟩

/-- A step of the running task that receives `sampleAnswer` from its forward. -/
def sampleAnswered : StepInput := ⟨some sampleAnswer, fun _ ↦ none⟩

end Samples

/-! ### The jump budget of a request

`settings.response_jump_limit` is meant to bound the pipeline transitions of one request.
The code keeps three budgets instead of one.  `handle_packet` counts rule-level jumps in
`jump_count`, which starts again at `0` at every iteration of `'decision_loop`.  A
response-level `JumpToPipeline` is handed the full limit by `handle_packet`, and the
`process_response_jump` it starts counts its own jumps down from that.

The run below has limit `2` and makes three transitions: `q1 → q2` by a rule, `q2 → r1`
by a response action, and `r1 → r2` by a rule inside `process_response_jump`. -/

/-- Limit `2`, minimum TTL `0`: `q1` jumps to `q2`, which forwards and jumps to `r1` when
the answer matches; `r1` jumps to `r2`, which refuses. -/
def budgetConfig : RuntimePipelineConfig :=
  ⟨⟨0, "1.1.1.1:53", 2000, 2, 0, 0⟩, [],
    [⟨"q1", [anyRule "j1" [.JumpToPipeline "q2"] []]⟩,
      ⟨"q2", [anyRule "f" [.Forward none none] [.JumpToPipeline "r1"]]⟩,
      ⟨"r1", [anyRule "j2" [.JumpToPipeline "r2"] []]⟩,
      ⟨"r2", [anyRule "deny" [.Deny] []]⟩]⟩

/-- `sampleQuery` over TCP, and its task run to the end; the forward of `q2` gets
`sampleAnswer`. -/
def budgetRun : List Event :=
  [.tcp 0 sampleQuery (.v4 0)] ++ List.replicate 5 (.step 0 noAnswer) ++
    [.step 0 sampleAnswered] ++ List.replicate 8 (.step 0 noAnswer)

theorem handlePacket_exceeds_jump_budget :
    ∃ s t, Reachable sampleLib budgetConfig "" s ∧ s.tasks 0 = some t ∧
      t.pc = .done (some [0x12, 0x34, 0x80, 5]) .computed ∧ t.transitions = 3 ∧
      jumpLimit budgetConfig = 2 :=
  ⟨_, _, @Reachable.run sampleLib budgetConfig "" budgetRun _ _ .init rfl, rfl, rfl, rfl, rfl⟩

/-! ### The transaction id of a response

Every path that answers a request copies its id into the first two bytes of the answer:
the two L2 probes and the follower path overwrite them, the upstream clients restore the
original id, and `build_response` copies the id of the decoded request.  The exception is
the response phase of `handle_packet`: it decodes the request again for the actions, and
when the full decoder rejects a packet that `parse_quick` accepted it goes on with
`Message::new()`, whose id is `0`.

A packet whose header announces two questions but which holds one is such a packet:
`parse_quick` reads the first question and ignores the count, while the full decoder
looks for a second question and fails. -/

/-- `sampleQuery` with a question count of two. -/
def twoQuestionQuery : Bytes :=
  [0x12, 0x34, 0x01, 0x00, 0x00, 0x02, 0x00, 0x00, 0x00, 0x00, 0x00, 0x00,
    1, 0x61, 7, 0x65, 0x78, 0x61, 0x6D, 0x70, 0x6C, 0x65, 0, 0x00, 0x01, 0x00, 0x01]

/-- One pipeline whose rule forwards every query and refuses it when the answer matches. -/
def denyOnAnswerConfig : RuntimePipelineConfig :=
  ⟨⟨0, "1.1.1.1:53", 2000, 10, 0, 0⟩, [], [⟨"p", [anyRule "f" [.Forward none none] [.Deny]]⟩]⟩

/-- `twoQuestionQuery` over TCP; its forward gets `sampleAnswer`. -/
def denyOnAnswerRun : List Event :=
  [.tcp 0 twoQuestionQuery (.v4 0)] ++ List.replicate 4 (.step 0 noAnswer) ++
    [.step 0 sampleAnswered] ++ List.replicate 2 (.step 0 noAnswer)

theorem handlePacket_answers_with_id_zero :
    ∃ s t, Reachable sampleLib denyOnAnswerConfig "" s ∧ s.tasks 0 = some t ∧
      t.pc = .done (some [0x00, 0x00, 0x80, 5]) .computed ∧ t.req.txId = 0x1234 ∧
      idOf twoQuestionQuery = some 0x1234 :=
  ⟨_, _, @Reachable.run sampleLib denyOnAnswerConfig "" denyOnAnswerRun _ _ .init rfl, rfl, rfl,
    rfl, rfl⟩

/-! ### Lifetimes and keys of the response cache

The response cache is built with one time to live for all entries, 300 s
(`new_cache(10_000, 300)`, whose comment says it "will be overridden by actual TTL").
Nothing overrides it: the effective TTL `max(min_ttl, least answer TTL)` only decides
whether an entry is inserted, and `process_response_jump` inserts its static responses
without even that test.  So a static response cached under `min_ttl = 60` is served for
300 s, and a static response reached by a response-level jump is cached under
`min_ttl = 0`.

The key of an entry is the hash of the fingerprint `(pipeline, lowercased qname, qtype)`
and the probes check the same fields, so an entry is served to every request with that
fingerprint, whatever its client address, class or EDNS presence, which the rules may
read.

The fingerprint a request uses does not always name the pipeline whose decision it
executes.  `process_response_jump` computes it at the head of each iteration of its loop
and keeps it through the nested rule-level jumps, so it registers the single-flight slot
and inserts the answer of the last pipeline under the fingerprint of the first; a follower
of that slot gets an answer forwarded by another pipeline's rule.  `handle_packet` keys its
inserts by the pipeline it jumped to but writes the pipeline it selected into the entry. -/

/-- Minimum TTL `60`; one pipeline, which refuses every query. -/
def refuseAllConfig : RuntimePipelineConfig :=
  ⟨⟨60, "1.1.1.1:53", 2000, 10, 0, 0⟩, [], [⟨"p", [anyRule "deny" [.Deny] []]⟩]⟩

/-- `sampleQuery` over TCP at time `0`, answered from the rules; then the same query at
time `100`. -/
def staleStaticRun : List Event :=
  [.tcp 0 sampleQuery (.v4 0)] ++ List.replicate 4 (.step 0 noAnswer) ++
    [.tick 100, .tcp 1 sampleQuery (.v4 0), .step 1 noAnswer]

/-- The static response inserted at time `0` under a minimum TTL of `60` is served at time
`100`; and `process_response_jump` caches a static response (`REFUSED` from `r2`, filed
under the key of `r1`, the pipeline its loop started from) under a minimum TTL of `0`. -/
theorem responseCache_outlives_effective_ttl :
    (∃ s t, Reachable sampleLib refuseAllConfig "" s ∧ s.now = 100 ∧ s.tasks 1 = some t ∧
      t.pc = .done (some [0x12, 0x34, 0x80, 5]) (.cache 0) ∧ minTtlSecs refuseAllConfig = 60) ∧
    (∃ s, Reachable sampleLib budgetConfig "" s ∧
      s.cache (calculateCacheHashForDedupe sampleLib "r1" "a.example" RecordType.A) =
        some (⟨[0x12, 0x34, 0x80, 5], ResponseCode.Refused, "static", "a.example", "r2", 1⟩, 0) ∧
      minTtlSecs budgetConfig = 0) :=
  ⟨⟨_, _, @Reachable.run sampleLib refuseAllConfig "" staleStaticRun _ _ .init rfl, rfl, rfl, rfl,
      rfl⟩,
    ⟨_, @Reachable.run sampleLib budgetConfig "" budgetRun _ _ .init rfl, rfl, rfl⟩⟩

/-- `10.0.0.0/8`. -/
def blockedNet : IpNet := .v4 0x0A000000 8

/-- A client in `blockedNet`. -/
def blockedClient : IpAddr := .v4 0x0A000001

/-- A client outside `blockedNet`. -/
def openClient : IpAddr := .v4 0xC0A80001

/-- Minimum TTL `60`.  In `a`, a client of `blockedNet` forwards and jumps to `r1` on the
answer, every other client jumps to `r1`; in `r1`, a client of `blockedNet` jumps to `r2`,
every other client forwards to the default upstream; `r2` forwards to `9.9.9.9:53`. -/
def laggingConfig : RuntimePipelineConfig :=
  ⟨⟨60, "1.1.1.1:53", 2000, 10, 0, 0⟩, [],
    [⟨"a", [⟨"fb", .And, [⟨.And, .ClientIp blockedNet⟩], [.Forward none none], [], .And,
        [.JumpToPipeline "r1"], []⟩, anyRule "jo" [.JumpToPipeline "r1"] []]⟩,
      ⟨"r1", [⟨"jb", .And, [⟨.And, .ClientIp blockedNet⟩], [.JumpToPipeline "r2"], [], .And,
        [], []⟩, anyRule "fo" [.Forward none none] []]⟩,
      ⟨"r2", [anyRule "f9" [.Forward (some "9.9.9.9:53") none] []]⟩]⟩

/-- `sampleQuery` from `blockedClient`: its forward in `a` gets `sampleAnswer`, and its
`process_response_jump` reaches the forward of `r2` and leads the slot; then `sampleQuery`
from `openClient` jumps to `r1` and follows that slot. -/
def laggingLeaderRun : List Event :=
  [.tcp 0 sampleQuery blockedClient] ++ List.replicate 4 (.step 0 noAnswer) ++
    [.step 0 sampleAnswered] ++ List.replicate 4 (.step 0 noAnswer) ++
    [.tcp 1 sampleQuery openClient] ++ List.replicate 5 (.step 1 noAnswer)

/-- `sampleQuery` from `openClient` alone: it jumps to `r1` and its forward gets
`sampleAnswer`. -/
def laggingDirectRun : List Event :=
  [.tcp 0 sampleQuery openClient] ++ List.replicate 5 (.step 0 noAnswer) ++
    [.step 0 sampleAnswered]

theorem fingerprint_differs_from_executed_pipeline :
    (∃ s t0 t1 jv f f1, Reachable sampleLib laggingConfig "" s ∧ s.tasks 0 = some t0 ∧
      t0.jump = some (jv, .upstream f) ∧ jv.pipelineId = "r2" ∧ f.upstream = "9.9.9.9:53" ∧
      jv.dedupeHash = calculateCacheHashForDedupe sampleLib "r1" "a.example" RecordType.A ∧
      s.tasks 1 = some t1 ∧ t1.vars.currentPipelineId = "r1" ∧ t1.pc = .follower f1 ∧
      f1.upstream = "1.1.1.1:53" ∧ (s.inflight jv.dedupeHash).map (·.waiters) = some [1] ∧
      ∃ s' t1', run sampleLib laggingConfig ""
          [.step 0 sampleAnswered, .step 0 noAnswer, .step 1 noAnswer] s = some s' ∧
        s'.tasks 1 = some t1' ∧ t1'.pc = .done (some sampleAnswer) .follower ∧
        s'.cache (calculateCacheHashForDedupe sampleLib "r1" "a.example" RecordType.A) =
          some (⟨sampleAnswer, ResponseCode.NoError, "9.9.9.9:53", "a.example", "r2", 1⟩, 0)) ∧
    ∃ s, Reachable sampleLib laggingConfig "" s ∧
      s.cache (calculateCacheHashForDedupe sampleLib "r1" "a.example" RecordType.A) =
        some (⟨sampleAnswer, ResponseCode.NoError, "1.1.1.1:53", "a.example", "a", 1⟩, 0) :=
  ⟨⟨_, _, _, _, _, _, @Reachable.run sampleLib laggingConfig "" laggingLeaderRun _ _ .init rfl,
      rfl, rfl, rfl, rfl, rfl, rfl, rfl, rfl, rfl, rfl, _, _, rfl, rfl, rfl, rfl⟩,
    _, @Reachable.run sampleLib laggingConfig "" laggingDirectRun _ _ .init rfl, rfl⟩

end KixDns
