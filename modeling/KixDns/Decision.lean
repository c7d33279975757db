import KixDns.Matcher

/-!
# Decisions and response builders (`src/engine.rs`)

The request phase ends in a `Decision`; the response phase in a `ResponseActionResult`.
The builders turn a decision into wire bytes through the library encoder: `build_response`
copies the id, the RD flag and the questions of the full request, while
`build_fast_static_response` works from the quick-parse fields alone.
-/

namespace KixDns

/-- The fields of `Decision::Forward`. -/
structure ForwardDecision where
  upstream : String
  responseMatchers : List RuntimeResponseMatcherWithOp
  responseMatcherOperator : MatchOperator
  responseActionsOnMatch : List Action
  responseActionsOnMiss : List Action
  ruleName : String
  transport : Transport
  continueOnMatch : Bool
  continueOnMiss : Bool
  allowReuse : Bool
deriving DecidableEq, Repr

/-- `Decision`. -/
inductive Decision where
  | Static (rcode : ResponseCode) (answers : List Record)
  | Forward (f : ForwardDecision)
  | Jump (pipeline : String)
deriving DecidableEq, Repr

/-- The forward to the default upstream that `apply_rules` returns when no rule decides,
and that `handle_packet` uses when no pipeline exists; `ruleName` is `"default"`. -/
def ForwardDecision.default (upstream : String) : ForwardDecision where
  upstream := upstream
  responseMatchers := []
  responseMatcherOperator := .And
  responseActionsOnMatch := []
  responseActionsOnMiss := []
  ruleName := "default"
  transport := .Udp
  continueOnMatch := false
  continueOnMiss := false
  allowReuse := false

/-- `make_static_ip_answer`: an A or AAAA record with TTL 300 for the query name, or
`SERVFAIL` with no answer when the address or the name does not parse. -/
def makeStaticIpAnswer (lib : Lib) (qname ip : String) : ResponseCode × List Record :=
  match lib.parseIpAddr ip, lib.nameFromStr qname with
  | some (.v4 v4), some name => (ResponseCode.NoError, [⟨name, 300, .a v4⟩])
  | some (.v6 v6), some name => (ResponseCode.NoError, [⟨name, 300, .aaaa v6⟩])
  | _, _ => (ResponseCode.ServFail, [])

/-- `build_response`: a response to the full request `req`, with its id, RD flag and
questions. -/
def buildResponse (lib : Lib) (req : Message) (rcode : ResponseCode) (answers : List Record) :
    Option Bytes :=
  lib.messageEmit
    { Message.new with
      id := req.id
      isResponse := true
      recursionDesired := req.recursionDesired
      recursionAvailable := true
      authoritative := false
      responseCode := rcode
      queries := req.queries
      answers := answers }

/-- `build_fast_static_response`: a response built from the quick-parse fields, with RD
set and one question. -/
def buildFastStaticResponse (lib : Lib) (txId : UInt16) (qname : String) (qtype qclass : UInt16)
    (rcode : ResponseCode) (answers : List Record) : Option Bytes := do
  let name ← lib.nameFromStr qname
  lib.messageEmit
    { Message.new with
      id := txId
      isResponse := true
      recursionDesired := true
      recursionAvailable := true
      authoritative := false
      responseCode := rcode
      queries := [⟨name, ⟨qtype⟩, ⟨qclass⟩⟩]
      answers := answers }

/-- `extract_ttl`: the least answer TTL, or `0` with no answer. -/
def extractTtl (msg : Message) : Nat :=
  ((msg.answers.map fun r ↦ r.ttl.toNat).min?).getD 0

/-- `ResponseContext`: an upstream answer, raw and decoded. -/
structure ResponseContext where
  raw : Bytes
  msg : Message
  upstream : String
  transport : Transport
deriving DecidableEq, Repr

/-- `ResponseActionResult`. -/
inductive ResponseActionResult where
  | Upstream (ctx : ResponseContext) (respMatch : Bool)
  | Static (bytes : Bytes) (rcode : ResponseCode) (source : String)
  | Jump (pipeline : String) (remainingJumps : Nat)
  | Continue (ctx : Option ResponseContext)
deriving DecidableEq, Repr

end KixDns
