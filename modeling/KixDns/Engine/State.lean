import KixDns.Engine.ApplyRules
import KixDns.Engine.ResponseActions
import KixDns.ProtoUtils

/-!
# The shared state of the request tasks

Every request that misses the synchronous fast path becomes a task running
`Engine::handle_packet`, and the tasks of one engine share three maps: the response cache
(L2), the rule cache (L1) and the single-flight map `inflight`.  This module holds those
maps, the local variables of a task, and the operations through which a task touches the
maps; `Engine.HandlePacket` strings them into the steps of a task.

## Modelling choices

* The response cache and the single-flight map are keyed, as in the source, by the 64-bit
  `FxHash` of the fingerprint `(pipeline id, lowercased qname, qtype)`, which `Lib.fxHash`
  supplies: the results hold for every hash, collisions included.  The validation fields
  stored in a cache entry are kept and checked as the source checks them.  The key of the
  rule cache, `calculate_rule_hash`, is the tuple it hashes.
* A task records the pipelines whose fingerprint it hashed into `dedupe_hash`.  The hash
  forgets them, and the source does not keep them: they are a ghost of the model, which the
  provenance of a reused response is stated with.
* Time is a count of seconds.  The response cache is a `moka` cache built with a time to
  live of 300 s: an entry inserted at `t0` is returned by `get` while `now < t0 + 300`.
  Capacity evictions, and every drop from the rule cache, are events of their own.
* A single-flight slot holds the waiting tasks in the order their channels were pushed.
  It also records the task that inserted it through a vacant entry: that owner is a ghost
  of the model, which the source does not store.
* A oneshot channel is the waiting task's mailbox: `some (some b)` once a leader sent `b`,
  `some none` once the sender was dropped.
-/

namespace KixDns

/-- `str::to_ascii_lowercase`. -/
def asciiLower (s : String) : String :=
  String.mk (s.toList.map Char.toLower)

/-- `Engine::calculate_cache_hash_for_dedupe`: `FxHasher` fed the pipeline id, the
lowercased qname and the `u16` of qtype. -/
def calculateCacheHashForDedupe (lib : Lib) (pipelineId qname : String) (qtype : RecordType) :
    UInt64 :=
  lib.fxHash pipelineId (asciiLower qname) qtype.code

/-- `CacheEntry` (`src/cache.rs`): the response bytes and the validation fields. -/
structure CacheEntry where
  bytes : Bytes
  rcode : ResponseCode
  source : String
  qname : String
  pipelineId : String
  qtype : UInt16
deriving DecidableEq, Repr

/-- The collision check both L2 probes make on a hit. -/
def CacheEntry.validFor (e : CacheEntry) (qtype : RecordType) (qname pipelineId : String) :
    Bool :=
  e.qtype == qtype.code && e.qname == qname && e.pipelineId == pipelineId

/-- The time to live of `new_cache(10_000, 300)`, in seconds. -/
def cacheTtl : Nat := 300

/-- The response cache: each entry with the second it was inserted. -/
abbrev DnsCache := UInt64 → Option (CacheEntry × Nat)

/-- `cache.get`: an entry younger than the cache's time to live, with its insertion time. -/
def DnsCache.lookup (c : DnsCache) (now : Nat) (k : UInt64) : Option (CacheEntry × Nat) :=
  (c k).filter fun (_, t0) ↦ now < t0 + cacheTtl

/-- `cache.insert`. -/
def DnsCache.insert (c : DnsCache) (now : Nat) (k : UInt64) (e : CacheEntry) : DnsCache :=
  Function.update c k (some (e, now))

/-! ## Tasks -/

/-- A request task. -/
abbrev TaskId := Nat

/-- A single-flight slot: the waiters' channels, and the task that inserted it. -/
structure Slot where
  owner : TaskId
  waiters : List TaskId
deriving DecidableEq, Repr

/-- `InflightCleanupGuard`: the slot it removes when dropped while active. -/
structure CleanupGuard where
  hash : UInt64
  active : Bool
deriving DecidableEq, Repr

/-- `defuse` on every guard of `process_response_jump`. -/
def defuseAll (gs : List CleanupGuard) : List CleanupGuard :=
  gs.map ({ · with active := false })

/-- The request as `handle_packet` reads it: the raw packet and the client address, and
the question fields of the lazy parse. -/
structure Request where
  packet : Bytes
  clientIp : IpAddr
  qname : String
  qtype : RecordType
  qclass : DNSClass
  txId : UInt16
  ednsPresent : Bool
deriving DecidableEq, Repr

/-- The lazy parse at the head of `handle_packet`: `parse_quick`, else the full decoder and
its first question. -/
def parseRequest (lib : Lib) (packet : Bytes) (clientIp : IpAddr) : Option Request :=
  match parseQuick packet 256 with
  | some q => some ⟨packet, clientIp, q.qname, ⟨q.qtype⟩, ⟨q.qclass⟩, q.txId, false⟩
  | none => do
    let req ← lib.messageFromBytes packet
    let question ← req.queries.head?
    some ⟨packet, clientIp, lib.nameToLowerString question.name, question.queryType,
      question.queryClass, req.id, req.edns⟩

/-- The mutable variables of `handle_packet` around its decision loop. -/
structure HandleVars where
  pipelineId : String
  currentPipelineId : String
  dedupeHash : UInt64
  dedupeRegistered : Bool
  reusedResponse : Option ResponseContext
  skipRules : List String
  /-- `cleanup_guard` of the `Decision::Forward` arm being run, if any. -/
  guard : Option CleanupGuard
deriving DecidableEq, Repr

/-- The variables once the pipeline is selected; they are declared after the L2 probe,
which reads only the first two. -/
def HandleVars.init (lib : Lib) (pipelineId : String) (req : Request) : HandleVars :=
  ⟨pipelineId, pipelineId, calculateCacheHashForDedupe lib pipelineId req.qname req.qtype, false,
    none, [], none⟩

/-- `defuse` on the guard of the `Forward` arm. -/
def HandleVars.defuse (v : HandleVars) : HandleVars :=
  { v with guard := v.guard.map ({ · with active := false }) }

/-- Where a response came from.  A ghost of the model: the engine does not record it. -/
inductive Served where
  /-- Computed by this request: rules, an upstream answer, response actions. -/
  | computed
  /-- A response-cache entry inserted at `insertedAt`. -/
  | cache (insertedAt : Nat)
  /-- Sent by a single-flight leader. -/
  | follower
deriving DecidableEq, Repr

/-- Where `handle_packet` is. -/
inductive HandlePc where
  /-- The L2 probe, after the parse and `select_pipeline`. -/
  | probe (pipeline : Option RuntimePipeline)
  /-- `let mut decision = match pipeline_opt { … }`. -/
  | applyInitial (pipeline : Option RuntimePipeline)
  /-- The jump loop at the head of an iteration of `'decision_loop`. -/
  | resolve (decision : Decision) (jumpCount : Nat)
  /-- `match decision`. -/
  | dispatch (decision : Decision)
  /-- Awaiting `rx` as a single-flight follower. -/
  | follower (f : ForwardDecision)
  /-- Awaiting `forward_upstream`. -/
  | upstream (f : ForwardDecision)
  /-- Awaiting `process_response_jump`; `defuse` tells whether the guard is defused on its
  return (the `Ok` branch) or not (the `Err` branch with `on_miss` actions). -/
  | inJump (defuse : Bool)
  /-- `notify_inflight_waiters(dedupe_hash, result)`, then return `result`. -/
  | notify (result : Bytes)
  /-- Return: the guard of the `Forward` arm is dropped; `none` is an error. -/
  | drop (result : Option Bytes)
  /-- Returned. -/
  | done (result : Option Bytes) (served : Served)
deriving DecidableEq, Repr

/-- The variables of `process_response_jump`. -/
structure JumpVars where
  req : Message
  pipelineId : String
  remainingJumps : Nat
  skipRules : List String
  reusedResponse : Option ResponseContext
  inflightHashes : List UInt64
  cleanupGuards : List CleanupGuard
  dedupeHash : UInt64
deriving DecidableEq, Repr

/-- Where `process_response_jump` is. -/
inductive JumpPc where
  /-- The head of its loop; `viaJump` when the pipeline was just jumped to. -/
  | top (viaJump : Bool)
  /-- The nested rule-level jump loop. -/
  | resolve (decision : Decision) (localJumps : Nat)
  /-- `match decision`. -/
  | dispatch (decision : Decision)
  /-- Awaiting `rx` as a single-flight follower. -/
  | follower (f : ForwardDecision)
  /-- Awaiting `forward_upstream`. -/
  | upstream (f : ForwardDecision)
  /-- Notify each of `hashes` with `sent`, then return `reply`. -/
  | notifyAll (hashes : List UInt64) (sent reply : Bytes)
  /-- Return `result` (`none`: an error); `guards` are dropped first. -/
  | dropGuards (guards : List CleanupGuard) (result : Option Bytes)
deriving DecidableEq, Repr

/-- A request task: `handle_packet`, and `process_response_jump` when it runs. -/
structure Task where
  req : Request
  vars : HandleVars
  pc : HandlePc
  jump : Option (JumpVars × JumpPc)
  /-- Pipeline transitions made so far: rules applied to a pipeline reached by a jump.  A
  ghost of the model. -/
  transitions : Nat
  /-- The pipelines whose fingerprint the task hashed into a `dedupe_hash`, the latest
  first.  A ghost of the model. -/
  hashedPipelines : List String
deriving DecidableEq, Repr

/-! ## The shared maps -/

/-- The engine's shared state, the clock and the tasks. -/
structure EngineState where
  now : Nat
  cache : DnsCache
  ruleCache : RuleCache
  inflight : UInt64 → Option Slot
  mailbox : TaskId → Option (Option Bytes)
  tasks : TaskId → Option Task

/-- A fresh engine at time `0`. -/
def EngineState.init : EngineState :=
  ⟨0, fun _ ↦ none, RuleCache.empty, fun _ ↦ none, fun _ ↦ none, fun _ ↦ none⟩

namespace EngineState

variable (s : EngineState)

/-- Replace task `i`. -/
def setTask (i : TaskId) (t : Task) : EngineState :=
  { s with tasks := Function.update s.tasks i (some t) }

/-- `self.cache.insert(hash, entry)`. -/
def insertCache (k : UInt64) (e : CacheEntry) : EngineState :=
  { s with cache := s.cache.insert s.now k e }

/-- `self.inflight.entry(hash)` for task `i`: a vacant entry is inserted with `i` as its
owner (`true`); an occupied one gets `i`'s channel pushed (`false`). -/
def entry (i : TaskId) (k : UInt64) : Bool × EngineState :=
  match s.inflight k with
  | none => (true, { s with inflight := Function.update s.inflight k (some ⟨i, []⟩) })
  | some slot =>
    (false, { s with inflight :=
      Function.update s.inflight k (some { slot with waiters := slot.waiters ++ [i] }) })

/-- Take the slot under `k` out of the map and put `reply` in each waiter's mailbox. -/
def takeSlot (k : UInt64) (reply : Option Bytes) : EngineState :=
  match s.inflight k with
  | none => s
  | some slot =>
    { s with
      inflight := Function.update s.inflight k none
      mailbox := fun w ↦ if w ∈ slot.waiters then some reply else s.mailbox w }

/-- `notify_inflight_waiters(hash, bytes)`. -/
def notifyInflightWaiters (k : UInt64) (bytes : Bytes) : EngineState :=
  s.takeSlot k (some bytes)

/-- `self.inflight.remove(&hash)` in a guard's drop: the waiters' senders are dropped. -/
def removeSlot (k : UInt64) : EngineState :=
  s.takeSlot k none

/-- The guard's drop: remove the slot if the guard is active. -/
def dropGuard (g : CleanupGuard) : EngineState :=
  if g.active then s.removeSlot g.hash else s

/-- Empty task `i`'s mailbox after it read it. -/
def takeMail (i : TaskId) : EngineState :=
  { s with mailbox := Function.update s.mailbox i none }

/-- `self.apply_rules(…)` for a request, with the rule cache of the state; `none` is a
panic (a candidate index past the rules). -/
def applyRulesFor (lib : Lib) (cfg : RuntimePipelineConfig) (p : RuntimePipeline) (req : Request)
    (skipRules : Option (List String)) : Option (Decision × EngineState) :=
  (applyRules lib (compilePipelines cfg) cfg p req.clientIp req.qname req.qtype req.qclass
    req.ednsPresent skipRules s.ruleCache).map fun (d, c) ↦ (d, { s with ruleCache := c })

end EngineState

end KixDns
