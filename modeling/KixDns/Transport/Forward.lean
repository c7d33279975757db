import KixDns.Config

/-!
# Forwarding a query upstream (`forward_upstream`, `forward_udp_smart`)

`forward_upstream` sends a query over TCP through the multiplexer, or over UDP through
`forward_udp_smart`, which retries.  The first UDP attempt gets the budget
`timeout_dur.checked_div(2)`, falling back to `max(50 ms, timeout_dur)` when the division
fails; the second gets `timeout_dur`; after two failures the query goes to the TCP
multiplexer with `timeout_dur` again.

`Duration::checked_div` fails only for a zero divisor, so the first budget is always half the
timeout, however small: the 50 ms branch is never taken.  `forwardUpstream_elapsed_le`
bounds the time a forward takes when every call ends within its budget, which the clients'
`timeout` wrappers see to: half the timeout and twice the timeout over UDP, the timeout over
TCP.

## Modelling choices

* A duration is its count of nanoseconds.  `checked_div` divides seconds and nanoseconds
  apart and carries the remainder of the seconds, which gives the floor of the quotient of
  the whole count.
* The clients are the environment: `udp n b` is what the `n`-th UDP call returns when given
  the budget `b`, and `tcp b` what the TCP call returns, each with the time it took.
-/

namespace KixDns

/-- What one call of a client's `send` gives back: the answer, or `none` for an error, and
the nanoseconds it took. -/
structure Attempt where
  result : Option Bytes
  elapsed : Nat
deriving DecidableEq, Repr

/-- `Duration::checked_div`: `none` only for a zero divisor. -/
def Duration.checkedDiv (d rhs : Nat) : Option Nat :=
  if rhs = 0 then none else some (d / rhs)

/-- `Duration::from_millis`. -/
def Duration.fromMillis (ms : Nat) : Nat :=
  ms * 1000000

/-- The budget of the first UDP attempt. -/
def hedgeTimeout (timeoutDur : Nat) : Nat :=
  (Duration.checkedDiv timeoutDur 2).getD (max (Duration.fromMillis 50) timeoutDur)

/-- The first budget is half the timeout: `checked_div(2)` never fails. -/
theorem hedgeTimeout_eq (timeoutDur : Nat) : hedgeTimeout timeoutDur = timeoutDur / 2 := rfl

section Forward

variable (udp : Nat → Nat → Attempt) (tcp : Nat → Attempt) (timeoutDur : Nat)

/-- `forward_udp_smart`.  `loop` is the `for (idx, dur) in attempts.iter().enumerate()` loop
with the time spent so far; past the last attempt it gives the final `bail!`. -/
def forwardUdpSmart : Attempt :=
  loop [hedgeTimeout timeoutDur, timeoutDur] 0 0
where
  /-- The attempts from `idx` on, after `spent` nanoseconds. -/
  loop : List Nat → Nat → Nat → Attempt
    | [], _, spent => ⟨none, spent⟩
    | dur :: rest, idx, spent =>
      let a := udp idx dur
      match a.result with
      | some bytes => ⟨some bytes, spent + a.elapsed⟩
      | none =>
        if idx + 1 = 2 then
          let t := tcp timeoutDur
          ⟨t.result, spent + a.elapsed + t.elapsed⟩
        else loop rest (idx + 1) (spent + a.elapsed)

/-- `forward_upstream`. -/
def forwardUpstream : Transport → Attempt
  | .Udp => forwardUdpSmart udp tcp timeoutDur
  | .Tcp => tcp timeoutDur

/-- The loop ends within the time spent, the budgets of the attempts left, and the timeout
of the TCP fallback. -/
theorem forwardUdpSmart.loop_elapsed_le (hudp : ∀ n b, (udp n b).elapsed ≤ b)
    (htcp : (tcp timeoutDur).elapsed ≤ timeoutDur) :
    ∀ (durs : List Nat) (idx spent : Nat),
      (forwardUdpSmart.loop udp tcp timeoutDur durs idx spent).elapsed ≤
        spent + durs.foldr (· + ·) 0 + timeoutDur
  | [], _, spent => by
    show spent ≤ spent + 0 + timeoutDur
    omega
  | dur :: rest, idx, spent => by
    have ha := hudp idx dur
    have ih := loop_elapsed_le hudp htcp rest (idx + 1) (spent + (udp idx dur).elapsed)
    simp only [forwardUdpSmart.loop, List.foldr_cons]
    split
    · dsimp only
      omega
    · split
      · dsimp only
        omega
      · omega

/-- The longest a forward can take when every call ends within its budget. -/
def forwardBudget : Transport → Nat
  | .Udp => timeoutDur / 2 + timeoutDur + timeoutDur
  | .Tcp => timeoutDur

/-- **A forward ends within half the timeout plus twice the timeout over UDP, and within the
timeout over TCP**, whatever the calls return, as long as each ends within its budget. -/
theorem forwardUpstream_elapsed_le (hudp : ∀ n b, (udp n b).elapsed ≤ b)
    (htcp : (tcp timeoutDur).elapsed ≤ timeoutDur) (transport : Transport) :
    (forwardUpstream udp tcp timeoutDur transport).elapsed ≤ forwardBudget timeoutDur transport := by
  cases transport with
  | Tcp => exact htcp
  | Udp =>
    have h := forwardUdpSmart.loop_elapsed_le udp tcp timeoutDur hudp htcp
      [hedgeTimeout timeoutDur, timeoutDur] 0 0
    rw [hedgeTimeout_eq, List.foldr_cons, List.foldr_cons, List.foldr_nil] at h
    show (forwardUdpSmart.loop udp tcp timeoutDur [timeoutDur / 2, timeoutDur] 0 0).elapsed ≤
      timeoutDur / 2 + timeoutDur + timeoutDur
    omega

end Forward

/-- Every call times out after its whole budget, with a timeout of 2 ms: the first UDP
attempt waits 1 ms. -/
theorem forwardUpstream_elapsed_le_all_time_out :
    (∀ n b, ((fun _ b ↦ (⟨none, b⟩ : Attempt) : Nat → Nat → Attempt) n b).elapsed ≤ b) ∧
      ((fun b ↦ (⟨none, b⟩ : Attempt)) 2000000).elapsed ≤ 2000000 ∧
      (forwardUpstream (fun _ b ↦ ⟨none, b⟩) (fun b ↦ ⟨none, b⟩) 2000000 .Udp).elapsed ≤
        forwardBudget 2000000 .Udp :=
  have hudp : ∀ n b, ((fun _ b ↦ (⟨none, b⟩ : Attempt)) n b).elapsed ≤ b := fun _ _ ↦ le_rfl
  ⟨hudp, le_rfl, forwardUpstream_elapsed_le (fun _ b ↦ ⟨none, b⟩) (fun b ↦ ⟨none, b⟩) 2000000 hudp
    le_rfl .Udp⟩

end KixDns
