import KixDns.Basic

/-!
# Operators, actions and settings (`src/config.rs`)

The deserialized configuration types that reach the engine unchanged: the match
operators, the actions of a rule, the transport of a forward and the global settings.
The listener bind addresses of `GlobalSettings` are read only by `main.rs`, so they are
left out.
-/

namespace KixDns

/-- `MatchOperator`.  `Not` is kept for backward compatibility; the deserializer never
builds it (`#[serde(skip)]`), and the alias `not` parses to `AndNot`. -/
inductive MatchOperator where
  | And
  | Or
  | AndNot
  | OrNot
  | Not
deriving DecidableEq, Repr

/-- `Transport` of a forward. -/
inductive Transport where
  | Udp
  | Tcp
deriving DecidableEq, Repr

/-- `Action`: what a rule does when its matchers hold, in the request phase and in the
response phase. -/
inductive Action where
  | Log (level : Option String)
  | StaticResponse (rcode : String)
  | StaticIpResponse (ip : String)
  | JumpToPipeline (pipeline : String)
  | Allow
  | Deny
  | Forward (upstream : Option String) (transport : Option Transport)
  | Continue
deriving DecidableEq, Repr

/-- The fields of `GlobalSettings` the engine reads. -/
structure GlobalSettings where
  minTtl : UInt32
  defaultUpstream : String
  upstreamTimeoutMs : UInt64
  responseJumpLimit : UInt32
  udpPoolSize : Nat
  tcpPoolSize : Nat
deriving DecidableEq, Repr

/-- `str::to_ascii_uppercase`. -/
def asciiUpper (s : String) : String :=
  String.mk (s.toList.map Char.toUpper)

/-- `parse_rcode`, of which `advanced_rule.rs` and `engine.rs` each hold the same copy. -/
def parseRcode (rcode : String) : Option ResponseCode :=
  match (asciiUpper rcode).toList with
  | ['N', 'O', 'E', 'R', 'R', 'O', 'R'] => some ResponseCode.NoError
  | ['F', 'O', 'R', 'M', 'E', 'R', 'R'] => some ResponseCode.FormErr
  | ['S', 'E', 'R', 'V', 'F', 'A', 'I', 'L'] => some ResponseCode.ServFail
  | ['N', 'X', 'D', 'O', 'M', 'A', 'I', 'N'] => some ResponseCode.NXDomain
  | ['N', 'O', 'T', 'I', 'M', 'P'] => some ResponseCode.NotImp
  | ['R', 'E', 'F', 'U', 'S', 'E', 'D'] => some ResponseCode.Refused
  | _ => none

/-- `contains_continue`. -/
def containsContinue (actions : List Action) : Bool :=
  actions.any fun a ↦ a == .Continue

end KixDns
