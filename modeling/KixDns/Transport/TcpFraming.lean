import KixDns.Transport.TcpMux

/-!
# DNS over TCP: the framing of both ends

A DNS message on a TCP stream is a frame: its length as two big-endian bytes, then the
message.  The program has one writer and two readers of frames.  `TcpMuxClient::send`
frames each request it writes to an upstream, with `(len as u16).to_be_bytes()`.  The reader
task of a multiplexer connection (`spawn_reader`) cuts the upstream's stream into frames
and hands each to the pending request it names.  `handle_tcp_conn` (`src/main.rs`) cuts
a client's stream into requests and writes back each answer as a frame.

Both readers stop at the first frame the stream does not hold completely; `handle_tcp_conn`
also stops at an empty frame, and writes no frame for an answer longer than `u16::MAX`.
`readerEvents_tcpFrames` shows that a reader hands on exactly the frames written before
the cut, and `handleTcpConn_tcpFrames` that the server answers the framed requests one by
one, in order.  Together (`tcpConn_round_trip`): a client that frames its requests and
reads the server's frames receives the answers of the calls, in order, up to the first
call that fails, except the answers too long for a frame.

## Modelling choices

* A stream is the list of the bytes its peer sends before closing; a `read_exact` past
  them fails.  Writes succeed, and what a loop writes is the list of bytes it returns.
* `handle n req` is the outcome of the `n`-th call of `handle_packet` on the connection,
  `none` for an error: the calls of one connection run one after another, and each may
  see any state of the engine.
-/

namespace KixDns

/-- One frame: the message's length as `u16`, big-endian, then the message. -/
def tcpFrame (msg : Bytes) : Bytes :=
  be16 (UInt16.ofNat msg.length) ++ msg

/-- The length field of a frame reads back the message's length, when it fits in `u16`. -/
theorem tcpFrame_eq_cons {msg : Bytes} (h : msg.length < 65536) :
    ∃ hi lo, tcpFrame msg = hi :: lo :: msg ∧ (ofBe16 hi lo).toNat = msg.length :=
  ⟨_, _, rfl, by rw [ofBe16_be16, UInt16.toNat_ofNat_of_lt h]⟩

@[simp] theorem length_tcpFrame (msg : Bytes) : (tcpFrame msg).length = msg.length + 2 := by
  simp only [tcpFrame, be16, List.cons_append, List.nil_append, List.length_cons]

/-! ## The reader task of a multiplexer connection -/

/-- The loop of the reader task of connection `g` (`spawn_reader`) over the bytes the
upstream sends: a frame event for each frame it reads, and the failed read that ends it.  A
frame of fewer than two bytes is read and passed over, which the frame event does. -/
def readerEvents (g : Nat) (input : Bytes) : List MuxEvent :=
  match input with
  | hi :: lo :: rest =>
    let respLen := (ofBe16 hi lo).toNat
    if rest.length < respLen then [.readFail g]
    else .frame g (rest.take respLen) :: readerEvents g (rest.drop respLen)
  | _ => [.readFail g]
termination_by input.length
decreasing_by simp only [List.length_drop, List.length_cons]; omega

theorem readerEvents_tcpFrame_append (g : Nat) {msg : Bytes} (h : msg.length < 65536)
    (rest : Bytes) : readerEvents g (tcpFrame msg ++ rest) = .frame g msg :: readerEvents g rest := by
  obtain ⟨hi, lo, hframe, hlen⟩ := tcpFrame_eq_cons h
  rw [hframe, List.cons_append, List.cons_append, readerEvents]
  simp only [hlen, List.length_append, List.take_left, List.drop_left]
  rw [if_neg (by omega)]

/-- A stream that stops inside a frame makes the reader fail there. -/
theorem readerEvents_take_tcpFrame (g : Nat) {msg : Bytes} (h : msg.length < 65536) {k : Nat}
    (hk : k < (tcpFrame msg).length) : readerEvents g ((tcpFrame msg).take k) = [.readFail g] := by
  obtain ⟨hi, lo, hframe, hlen⟩ := tcpFrame_eq_cons h
  rw [hframe]
  match k, hk with
  | 0, _ | 1, _ => simp [readerEvents]
  | k + 2, hk =>
    simp only [List.take_succ_cons, readerEvents, hlen, List.length_take]
    rw [if_pos (by simp at hk; omega)]

/-- **The reader hands on exactly the frames written before the cut.**  For every list of
messages that fit in a frame, and every cut of the stream inside or at the start of a
further frame, the reader of a connection hands on the messages in order, and then fails. -/
theorem readerEvents_tcpFrames (g : Nat) :
    ∀ (msgs : List Bytes), (∀ m ∈ msgs, m.length < 65536) → ∀ (last : Bytes), last.length < 65536 →
      ∀ (k : Nat), k < (tcpFrame last).length →
        readerEvents g (msgs.flatMap tcpFrame ++ (tcpFrame last).take k) =
          msgs.map (.frame g) ++ [.readFail g]
  | [], _, _, hlast, _, hk => readerEvents_take_tcpFrame g hlast hk
  | m :: ms, h, last, hlast, k, hk => by
    rw [List.flatMap_cons, List.append_assoc,
      readerEvents_tcpFrame_append g (h m (List.mem_cons_self _ _)),
      readerEvents_tcpFrames g ms (fun m' hm' ↦ h m' (List.mem_cons_of_mem m hm')) last hlast k hk]
    rfl

/-- Two framed answers and the first byte of a third: the reader hands on the two, then fails. -/
theorem readerEvents_two_frames_cut :
    (∀ m ∈ [[0x12, 0x34, 0x81], []], m.length < 65536) ∧ [0xAB].length < 65536 ∧
      1 < (tcpFrame [0xAB]).length ∧
      readerEvents 3 ([[0x12, 0x34, 0x81], []].flatMap tcpFrame ++ (tcpFrame [0xAB]).take 1) =
        [.frame 3 [0x12, 0x34, 0x81], .frame 3 [], .readFail 3] :=
  ⟨by decide, by decide, by decide,
    readerEvents_tcpFrames 3 [[0x12, 0x34, 0x81], []] (by decide) [0xAB] (by decide) 1 (by decide)⟩

/-! ## The server side: `handle_tcp_conn` -/

/-- `handle_tcp_conn` over the bytes the client sends: what it writes back.  `handle n req`
is the outcome of the `n`-th call of `handle_packet`; the loop ends at a short read, at a
frame of length `0` or above `MAX_TCP_FRAME`, and at a failed call. -/
def handleTcpConn (handle : Nat → Bytes → Option Bytes) (n : Nat) (input : Bytes) : Bytes :=
  match input with
  | hi :: lo :: rest =>
    let frameLen := (ofBe16 hi lo).toNat
    if frameLen = 0 ∨ frameLen > 64 * 1024 then []
    else if rest.length < frameLen then []
    else
      match handle n (rest.take frameLen) with
      | none => []
      | some resp =>
        (if resp.length ≤ 65535 then tcpFrame resp else []) ++
          handleTcpConn handle (n + 1) (rest.drop frameLen)
  | _ => []
termination_by input.length
decreasing_by simp only [List.length_drop, List.length_cons]; omega

/-- The answers of the calls on successive requests, up to the first call that fails. -/
def callResults (handle : Nat → Bytes → Option Bytes) : Nat → List Bytes → List Bytes
  | _, [] => []
  | n, req :: reqs =>
    match handle n req with
    | none => []
    | some resp => resp :: callResults handle (n + 1) reqs

/-- The bytes that frame the answers a client can be sent: those of at most `u16::MAX` bytes. -/
def answerStream (resps : List Bytes) : Bytes :=
  (resps.filter (·.length ≤ 65535)).flatMap tcpFrame

section Server

variable (handle : Nat → Bytes → Option Bytes)

theorem handleTcpConn_tcpFrame_append (n : Nat) {req : Bytes} (h0 : 0 < req.length)
    (h : req.length < 65536) (rest : Bytes) :
    handleTcpConn handle n (tcpFrame req ++ rest) =
      match handle n req with
      | none => []
      | some resp =>
        (if resp.length ≤ 65535 then tcpFrame resp else []) ++ handleTcpConn handle (n + 1) rest := by
  obtain ⟨hi, lo, hframe, hlen⟩ := tcpFrame_eq_cons h
  rw [hframe, List.cons_append, List.cons_append, handleTcpConn]
  simp only [hlen, List.length_append, List.take_left, List.drop_left]
  rw [if_neg (by omega), if_neg (by omega)]

theorem handleTcpConn_take_tcpFrame (n : Nat) {req : Bytes} (h : req.length < 65536) {k : Nat}
    (hk : k < (tcpFrame req).length) : handleTcpConn handle n ((tcpFrame req).take k) = [] := by
  obtain ⟨hi, lo, hframe, hlen⟩ := tcpFrame_eq_cons h
  rw [hframe]
  match k, hk with
  | 0, _ | 1, _ => simp [handleTcpConn]
  | k + 2, hk =>
    simp only [List.take_succ_cons, handleTcpConn, hlen, List.length_take]
    split_ifs <;> first | rfl | (simp at hk; omega)

theorem answerStream_cons (resp : Bytes) (resps : List Bytes) :
    answerStream (resp :: resps) =
      (if resp.length ≤ 65535 then tcpFrame resp else []) ++ answerStream resps := by
  unfold answerStream
  rw [List.filter_cons]
  split_ifs with h <;> simp_all

/-- **`handle_tcp_conn` answers the framed requests in order.**  For every list of requests
of `1` to `u16::MAX` bytes, sent as frames and followed by a cut inside or at the start of a
further frame, the server writes the framed answers of the calls on those requests, in
order, up to the first call that fails; an answer longer than `u16::MAX` is left out and the
connection goes on. -/
theorem handleTcpConn_tcpFrames :
    ∀ (n : Nat) (reqs : List Bytes), (∀ r ∈ reqs, 0 < r.length ∧ r.length < 65536) →
      ∀ (last : Bytes), last.length < 65536 → ∀ (k : Nat), k < (tcpFrame last).length →
        handleTcpConn handle n (reqs.flatMap tcpFrame ++ (tcpFrame last).take k) =
          answerStream (callResults handle n reqs)
  | n, [], _, _, hlast, _, hk => handleTcpConn_take_tcpFrame handle n hlast hk
  | n, r :: rs, h, last, hlast, k, hk => by
    obtain ⟨h0, hr⟩ := h r (List.mem_cons_self _ _)
    rw [List.flatMap_cons, List.append_assoc, handleTcpConn_tcpFrame_append handle n h0 hr,
      callResults]
    cases handle n r with
    | none => rfl
    | some resp =>
      rw [answerStream_cons, handleTcpConn_tcpFrames (n + 1) rs
        (fun r' hr' ↦ h r' (List.mem_cons_of_mem r hr')) last hlast k hk]

/-- An echoing server, two requests and a cut after the length field of a third: it echoes
both, framed. -/
theorem handleTcpConn_echo_two_requests :
    (∀ r ∈ [[0x12, 0x34], [0x56]], 0 < r.length ∧ r.length < 65536) ∧ [0x9A].length < 65536 ∧
      2 < (tcpFrame [0x9A]).length ∧
      handleTcpConn (fun _ r ↦ some r) 0
          ([[0x12, 0x34], [0x56]].flatMap tcpFrame ++ (tcpFrame [0x9A]).take 2) =
        answerStream (callResults (fun _ r ↦ some r) 0 [[0x12, 0x34], [0x56]]) :=
  ⟨by decide, by decide, by decide,
    handleTcpConn_tcpFrames (fun _ r ↦ some r) 0 [[0x12, 0x34], [0x56]] (by decide) [0x9A]
      (by decide) 2 (by decide)⟩

end Server

/-! ## Two ends of one connection -/

/-- **A TCP connection between two instances of the program.**  When the reader task of one
instance's multiplexer reads what `handle_tcp_conn` of another writes for a stream of framed
requests, it hands on exactly the answers of the calls on those requests, in order, up to the
first call that fails, less the answers too long for a frame; then the connection is closed
and the reader fails. -/
theorem tcpConn_round_trip (handle : Nat → Bytes → Option Bytes) (g n : Nat) (reqs : List Bytes)
    (h : ∀ r ∈ reqs, 0 < r.length ∧ r.length < 65536) :
    readerEvents g (handleTcpConn handle n (reqs.flatMap tcpFrame)) =
      ((callResults handle n reqs).filter (·.length ≤ 65535)).map (.frame g) ++ [.readFail g] := by
  have hserver := handleTcpConn_tcpFrames handle n reqs h [] (by decide) 0 (by simp)
  have hreader := readerEvents_tcpFrames g ((callResults handle n reqs).filter (·.length ≤ 65535))
    (fun m hm ↦ by have := (List.mem_filter.mp hm).2; simp at this; omega) [] (by decide) 0 (by simp)
  simp only [List.take_zero, List.append_nil] at hserver hreader
  rw [hserver, answerStream, hreader]

/-- A server whose second call fails: the client reads the first answer, and then the close. -/
theorem tcpConn_round_trip_second_call_fails :
    (∀ r ∈ [[0x12, 0x34], [0x56], [0x78]], 0 < r.length ∧ r.length < 65536) ∧
      readerEvents 0 (handleTcpConn (fun n r ↦ if n = 1 then none else some r) 0
          ([[0x12, 0x34], [0x56], [0x78]].flatMap tcpFrame)) =
        ((callResults (fun n r ↦ if n = 1 then none else some r) 0
          [[0x12, 0x34], [0x56], [0x78]]).filter (·.length ≤ 65535)).map (.frame 0) ++
            [.readFail 0] :=
  ⟨by decide, tcpConn_round_trip (fun n r ↦ if n = 1 then none else some r) 0 0
    [[0x12, 0x34], [0x56], [0x78]] (by decide)⟩

end KixDns
