import KixDns.Engine.HandlePacket

/-!
# The engine's duplicated paths

Two pairs of code paths answer the same request, and which one runs depends on state the
client does not see.

* A static decision is answered by `build_fast_static_response` from the quick-parse
  fields when `handle_packet_fast` finds it in the rule cache or in the compiled
  pipelines, and by `build_response` from the full request in the `Static` arm of
  `handle_packet`.  The fast builder sets RD and writes one question from the lowercased
  quick-parse name; the full builder copies RD and the questions of the request.  So a
  query with RD clear gets RD set or clear depending on the caches.
* A `Forward` decision is handled by `handle_packet` when the request reaches it by
  rule-level jumps only, and by `process_response_jump` after a response-level jump.  The
  second handler answers an upstream failure with `SERVFAIL` without running `on_miss`,
  and never caches the static result of a response action.
-/

namespace KixDns

/-! ## The two static builders -/

/-- `sampleQuery` with RD clear: id `0x1234`, flags `0x0000`, one question `a.example`, type
`A`, class `IN`. -/
def rdClearQuery : Bytes :=
  [0x12, 0x34, 0x00, 0x00, 0x00, 0x01, 0x00, 0x00, 0x00, 0x00, 0x00, 0x00,
    1, 0x61, 7, 0x65, 0x78, 0x61, 0x6D, 0x70, 0x6C, 0x65, 0, 0x00, 0x01, 0x00, 0x01]

/-- `rdClearQuery` decoded. -/
def rdClearQueryMsg : Message :=
  { sampleQueryMsg with recursionDesired := false }

theorem parseQuick_rdClearQuery :
    parseQuick rdClearQuery 256 = some ⟨0x1234, "a.example", 1, 1⟩ := by
  decide

section Builders

variable (lib : Lib)

/-- The message `build_response` hands the encoder keeps the request's RD flag. -/
theorem buildResponse_eq_emit (req : Message) (rcode : ResponseCode) (answers : List Record) :
    ∃ m, buildResponse lib req rcode answers = lib.messageEmit m ∧
      m.recursionDesired = req.recursionDesired :=
  ⟨_, rfl, rfl⟩

/-- Once the name parses, the message `build_fast_static_response` hands the encoder has
RD set. -/
theorem buildFastStaticResponse_eq_emit {qname : String} {name : Name}
    (hname : lib.nameFromStr qname = some name) (txId qtype qclass : UInt16)
    (rcode : ResponseCode) (answers : List Record) :
    ∃ m, buildFastStaticResponse lib txId qname qtype qclass rcode answers = lib.messageEmit m ∧
      m.recursionDesired = true := by
  simp only [buildFastStaticResponse, hname]
  exact ⟨_, rfl, rfl⟩

end Builders

theorem fastStaticResponse_differs_from_full (lib : Lib)
    (hdecode : lib.messageFromBytes rdClearQuery = some rdClearQueryMsg)
    (hname : lib.nameFromStr "a.example" = some sampleName)
    (hemit : ∀ m, ∃ b, lib.messageEmit m = some b ∧
      (b.getD 2 0 &&& 1 = 1 ↔ m.recursionDesired = true))
    (rcode : ResponseCode) (answers : List Record) :
    ∃ q slow fast, parseQuick rdClearQuery 256 = some q ∧
      (lib.messageFromBytes rdClearQuery).bind (fun r ↦ buildResponse lib r rcode answers) =
        some slow ∧
      buildFastStaticResponse lib q.txId q.qname q.qtype q.qclass rcode answers = some fast ∧
      slow ≠ fast := by
  obtain ⟨ms, hs, hrs⟩ := buildResponse_eq_emit lib rdClearQueryMsg rcode answers
  obtain ⟨mf, hf, hrf⟩ := buildFastStaticResponse_eq_emit lib hname 0x1234 1 1 rcode answers
  obtain ⟨slow, hslow, hrdS⟩ := hemit ms
  obtain ⟨fast, hfast, hrdF⟩ := hemit mf
  refine ⟨_, slow, fast, parseQuick_rdClearQuery, ?_, hf.trans hfast, ?_⟩
  · rw [hdecode, Option.some_bind, hs, hslow]
  · rintro rfl
    have hclear : ms.recursionDesired = false := hrs
    exact absurd (hrdS.mp (hrdF.mpr hrf)) (by simp [hclear])

/-- A library that decodes `rdClearQuery`, parses the name `a.example`, and encodes a
message as its id followed by the byte that carries RD in bit `0`. -/
def rdLib : Lib :=
  { sampleLib with
    messageFromBytes := fun b ↦ if b = rdClearQuery then some rdClearQueryMsg else none
    nameFromStr := fun s ↦ if s = "a.example" then some sampleName else none
    messageEmit := fun m ↦ some (be16 m.id ++ [if m.recursionDesired then 1 else 0]) }

theorem rdLib_fastStaticResponse_differs :
    ∃ q slow fast, parseQuick rdClearQuery 256 = some q ∧
      (rdLib.messageFromBytes rdClearQuery).bind
        (fun r ↦ buildResponse rdLib r ResponseCode.Refused []) = some slow ∧
      buildFastStaticResponse rdLib q.txId q.qname q.qtype q.qclass ResponseCode.Refused [] =
        some fast ∧
      slow ≠ fast :=
  fastStaticResponse_differs_from_full rdLib rfl rfl
    (fun m ↦ ⟨_, rfl, by cases m.recursionDesired <;> simp [be16] <;> decide⟩) ResponseCode.Refused []

/-! ## The two `Forward` handlers -/

/-- A forward whose `on_match` and `on_miss` both deny. -/
def denyBothRule : RuntimeRule :=
  ⟨"f", .And, [⟨.And, .Any⟩], [.Forward none none], [], .And, [.Deny], [.Deny]⟩

/-- The decision `apply_rules` gives for `denyBothRule`. -/
def denyBothForward : ForwardDecision :=
  ⟨"1.1.1.1:53", [], .And, [.Deny], [.Deny], "f", .Udp, false, false, false⟩

/-- Minimum TTL `60`; the one pipeline `p` of `denyBothRule`. -/
def directConfig : RuntimePipelineConfig :=
  ⟨⟨60, "1.1.1.1:53", 2000, 10, 0, 0⟩, [], [⟨"p", [denyBothRule]⟩]⟩

/-- Minimum TTL `60`; `q` forwards and jumps to `p` on the answer, and `p` is as in
`directConfig`. -/
def viaJumpConfig : RuntimePipelineConfig :=
  ⟨⟨60, "1.1.1.1:53", 2000, 10, 0, 0⟩, [],
    [⟨"q", [anyRule "g" [.Forward none none] [.JumpToPipeline "p"]]⟩, ⟨"p", [denyBothRule]⟩]⟩

/-- `sampleQuery` over TCP, up to the forward of `p` in `handle_packet`. -/
def directToForward : List Event :=
  [.tcp 0 sampleQuery (.v4 0)] ++ List.replicate 4 (.step 0 noAnswer)

/-- `sampleQuery` over TCP, up to the forward of `p` in `process_response_jump`: the forward
of `q` gets `sampleAnswer` and jumps. -/
def viaJumpToForward : List Event :=
  [.tcp 0 sampleQuery (.v4 0)] ++ List.replicate 4 (.step 0 noAnswer) ++
    [.step 0 sampleAnswered] ++ List.replicate 3 (.step 0 noAnswer)

/-- The two handlers at the same decision with the same upstream outcome.  On a failure
`handle_packet` runs `on_miss` and answers `REFUSED`, `process_response_jump` answers
`SERVFAIL`.  On `sampleAnswer`, both answer `REFUSED` from `on_match`, and only
`handle_packet` caches it. -/
theorem forwardHandlers_diverge :
    ∃ s t, Reachable sampleLib directConfig "" s ∧ s.tasks 0 = some t ∧
      t.pc = .upstream denyBothForward ∧
      (∃ s' t', run sampleLib directConfig "" (List.replicate 3 (.step 0 noAnswer)) s = some s' ∧
        s'.tasks 0 = some t' ∧ t'.pc = .done (some [0x12, 0x34, 0x80, 5]) .computed) ∧
      (∃ s' t', run sampleLib directConfig ""
          (.step 0 sampleAnswered :: List.replicate 2 (.step 0 noAnswer)) s = some s' ∧
        s'.tasks 0 = some t' ∧ t'.pc = .done (some [0x12, 0x34, 0x80, 5]) .computed ∧
        s'.cache (calculateCacheHashForDedupe sampleLib "p" "a.example" RecordType.A) =
          some (⟨[0x12, 0x34, 0x80, 5], ResponseCode.Refused, "response_action", "a.example", "p",
            1⟩, 0)) ∧
    ∃ s t jv, Reachable sampleLib viaJumpConfig "" s ∧ s.tasks 0 = some t ∧
      t.jump = some (jv, .upstream denyBothForward) ∧ 1 ≤ jv.remainingJumps ∧
      (∃ s' t', run sampleLib viaJumpConfig "" (List.replicate 7 (.step 0 noAnswer)) s = some s' ∧
        s'.tasks 0 = some t' ∧ t'.pc = .done (some [0x12, 0x34, 0x80, 2]) .computed) ∧
      (∃ s' t', run sampleLib viaJumpConfig ""
          (.step 0 sampleAnswered :: List.replicate 6 (.step 0 noAnswer)) s = some s' ∧
        s'.tasks 0 = some t' ∧ t'.pc = .done (some [0x12, 0x34, 0x80, 5]) .computed ∧
        s'.cache (calculateCacheHashForDedupe sampleLib "p" "a.example" RecordType.A) = none) :=
  ⟨_, _, @Reachable.run sampleLib directConfig "" directToForward _ _ .init rfl, rfl, rfl,
    ⟨_, _, rfl, rfl, rfl⟩, ⟨_, _, rfl, rfl, rfl, rfl⟩,
    _, _, _, @Reachable.run sampleLib viaJumpConfig "" viaJumpToForward _ _ .init rfl, rfl, rfl,
    by decide, ⟨_, _, rfl, rfl, rfl⟩, ⟨_, _, rfl, rfl, rfl, rfl⟩⟩

end KixDns
