import KixDns.Decision

/-!
# The response phase (`Engine::apply_response_actions`)

Once the upstream answer of a forward is in, the actions of the rule's `on_match` or
`on_miss` list run in order.  `Log` is a side effect and passes on; the first of the
other actions ends the list, except `Forward`, which asks another upstream and makes its
answer the new context.  More than four forwards in one list give `SERVFAIL`.  A
response-level jump hands back the remaining jump budget, one less than it was given.

The upstream calls are the one input of this function that the configuration does not
fix: `answers n` is the outcome of the `n`-th forward of the list, the raw answer or
`none` for an error.  The function's own errors (`?` on the encoder and on the decoder of
an upstream answer) are `none`: the engine only propagates them.
-/

namespace KixDns

section

variable (lib : Lib) (answers : Nat → Option Bytes) (req : Message)
  (responseMatchers : List RuntimeResponseMatcherWithOp) (qname : String) (qtype : RecordType)
  (qclass : DNSClass) (upstreamDefault : String) (remainingJumps : Nat)

/-- The response matcher chain on an upstream answer. -/
def responseMatch (ctx : ResponseContext) : Bool :=
  evalMatchChain responseMatchers (·.operator)
    fun m ↦ m.matcher.matches lib ctx.upstream qname qtype qclass ctx.msg

/-- A `Static` result built from the full request, as every static action builds it. -/
def staticResult (rcode : ResponseCode) (records : List Record) : Option ResponseActionResult :=
  (buildResponse lib req rcode records).map fun bytes ↦ .Static bytes rcode "response_action"

/-- `apply_response_actions` over the actions left to run, with `forwardAttempts` forwards
made so far and the current upstream context. -/
def applyResponseActions :
    List Action → Nat → Option ResponseContext → Option ResponseActionResult
  | [], _, ctxOpt =>
    match ctxOpt with
    | some ctx => some (.Upstream ctx (responseMatch lib responseMatchers qname qtype qclass ctx))
    | none => staticResult lib req ResponseCode.ServFail []
  | .Log _ :: rest, forwardAttempts, ctxOpt =>
    applyResponseActions rest forwardAttempts ctxOpt
  | .StaticResponse rcode :: _, _, _ =>
    staticResult lib req ((parseRcode rcode).getD ResponseCode.NXDomain) []
  | .StaticIpResponse ip :: _, _, _ =>
    let (rcode, records) := makeStaticIpAnswer lib qname ip
    staticResult lib req rcode records
  | .JumpToPipeline pipeline :: _, _, _ =>
    if remainingJumps = 0 then staticResult lib req ResponseCode.ServFail []
    else some (.Jump pipeline (remainingJumps - 1))
  | .Allow :: _, _, ctxOpt =>
    match ctxOpt with
    | some ctx => some (.Upstream ctx (responseMatch lib responseMatchers qname qtype qclass ctx))
    | none => staticResult lib req ResponseCode.ServFail []
  | .Deny :: _, _, _ => staticResult lib req ResponseCode.Refused []
  | .Continue :: _, _, ctxOpt => some (.Continue ctxOpt)
  | .Forward upstream transport :: rest, forwardAttempts, ctxOpt =>
    if forwardAttempts + 1 > 4 then staticResult lib req ResponseCode.ServFail []
    else
      let upstreamAddr := upstream.getD ((ctxOpt.map (·.upstream)).getD upstreamDefault)
      match answers forwardAttempts with
      | none => staticResult lib req ResponseCode.ServFail []
      | some raw =>
        match lib.messageFromBytes raw with
        | none => none
        | some msg =>
          applyResponseActions rest (forwardAttempts + 1)
            (some ⟨raw, msg, upstreamAddr, transport.getD .Udp⟩)

end

/-! ## At most four upstream calls -/

section Use

variable (lib : Lib) {answers answers' : Nat → Option Bytes} (req : Message)
  (responseMatchers : List RuntimeResponseMatcherWithOp) (qname : String) (qtype : RecordType)
  (qclass : DNSClass) (upstreamDefault : String) (remainingJumps : Nat)

/-- With `k` forwards made, the rest of the list reads only the outcomes of forwards `k`
to `3`. -/
theorem applyResponseActions_congr_answers : ∀ (actions : List Action) (k : Nat)
    (ctxOpt : Option ResponseContext), (∀ n, k ≤ n → n < 4 → answers n = answers' n) →
      applyResponseActions lib answers req responseMatchers qname qtype qclass upstreamDefault
          remainingJumps actions k ctxOpt =
        applyResponseActions lib answers' req responseMatchers qname qtype qclass upstreamDefault
          remainingJumps actions k ctxOpt
  | [], _, _, _ => rfl
  | .Log _ :: rest, k, ctxOpt, h => applyResponseActions_congr_answers rest k ctxOpt h
  | .Forward upstream transport :: rest, k, ctxOpt, h => by
    simp only [applyResponseActions]
    split_ifs with hk
    · rfl
    · rw [h k le_rfl (by omega)]
      split
      · rfl
      · split
        · rfl
        · exact applyResponseActions_congr_answers rest (k + 1) _ fun n hn hn4 ↦ h n (by omega) hn4
  | .StaticResponse _ :: _, _, _, _ | .StaticIpResponse _ :: _, _, _, _
  | .JumpToPipeline _ :: _, _, _, _ | .Allow :: _, _, _, _ | .Deny :: _, _, _, _
  | .Continue :: _, _, _, _ => rfl

/-- **The response phase makes at most four upstream calls.**  Two environments whose first
four forwards have the same outcomes give every action list the same result, whatever the
later forwards would return. -/
theorem applyResponseActions_reads_four_answers (actions : List Action)
    (ctxOpt : Option ResponseContext) (h : ∀ n < 4, answers n = answers' n) :
    applyResponseActions lib answers req responseMatchers qname qtype qclass upstreamDefault
        remainingJumps actions 0 ctxOpt =
      applyResponseActions lib answers' req responseMatchers qname qtype qclass upstreamDefault
        remainingJumps actions 0 ctxOpt :=
  applyResponseActions_congr_answers lib req responseMatchers qname qtype qclass upstreamDefault
    remainingJumps actions 0 ctxOpt fun n _ hn ↦ h n hn

end Use

/-- Six forwards in a row, with a fifth outcome that differs. -/
theorem applyResponseActions_reads_four_answers_six_forwards :
    (∀ n < 4, (fun n ↦ if n < 4 then some [] else none : Nat → Option Bytes) n =
        (fun _ ↦ some [] : Nat → Option Bytes) n) ∧
      applyResponseActions default (fun n ↦ if n < 4 then some [] else none) Message.new [] "a."
          RecordType.A DNSClass.IN "1.1.1.1:53" 10 (List.replicate 6 (.Forward none none)) 0 none =
        applyResponseActions default (fun _ ↦ some []) Message.new [] "a." RecordType.A DNSClass.IN
          "1.1.1.1:53" 10 (List.replicate 6 (.Forward none none)) 0 none :=
  ⟨by decide, applyResponseActions_reads_four_answers default Message.new [] "a." RecordType.A
    DNSClass.IN "1.1.1.1:53" 10 (List.replicate 6 (.Forward none none)) none (by decide)⟩

end KixDns
