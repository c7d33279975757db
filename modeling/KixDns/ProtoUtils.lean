import KixDns.Basic

/-!
# Quick parsers of the wire format (`src/proto_utils.rs`)

`parse_quick` reads the header and the first question of a request without the full
decoder: the transaction id, the question name lowercased into the caller's buffer (of
`bufLen` bytes; both call sites of the engine pass 256), and the question's type and
class.  `parse_response_quick` reads the response code and the least
answer TTL of an upstream response.  Both loops of the source are modelled structurally:
the name loop of `parse_quick` follows at most four compression pointers (`max_jumps`
starts at `5` and the loop stops when it reaches `0`), and between two pointers it walks
the packet forward one byte at a time, so both recursions are on a number or on a list.

`str::from_utf8`, which turns the buffer into the returned name, is modelled by
`utf8Decode`, the well-formed UTF-8 sequences of the Unicode standard (Table 3-7).
-/

namespace KixDns

/-- `u8::to_ascii_lowercase`. -/
def asciiLowerByte (b : UInt8) : UInt8 :=
  if 0x41 ≤ b ∧ b ≤ 0x5A then b + 0x20 else b

/-- A UTF-8 continuation byte. -/
def isCont (b : UInt8) : Bool :=
  0x80 ≤ b && b ≤ 0xBF

/-- The second byte of a well-formed three-byte sequence led by `b`. -/
def secondOk3 (b c : UInt8) : Bool :=
  if b = 0xE0 then 0xA0 ≤ c && c ≤ 0xBF
  else if b = 0xED then 0x80 ≤ c && c ≤ 0x9F
  else isCont c

/-- The second byte of a well-formed four-byte sequence led by `b`. -/
def secondOk4 (b c : UInt8) : Bool :=
  if b = 0xF0 then 0x90 ≤ c && c ≤ 0xBF
  else if b = 0xF4 then 0x80 ≤ c && c ≤ 0x8F
  else isCont c

/-- `str::from_utf8`: the characters of a well-formed UTF-8 byte string. -/
def utf8Decode : List UInt8 → Option (List Char)
  | [] => some []
  | b :: rest =>
    if b < 0x80 then (Char.ofNat b.toNat :: ·) <$> utf8Decode rest
    else match rest with
      | [] => none
      | c1 :: rest1 =>
        if 0xC2 ≤ b ∧ b ≤ 0xDF then
          if isCont c1 then
            (Char.ofNat ((b.toNat % 0x20) * 0x40 + c1.toNat % 0x40) :: ·) <$> utf8Decode rest1
          else none
        else match rest1 with
          | [] => none
          | c2 :: rest2 =>
            if 0xE0 ≤ b ∧ b ≤ 0xEF then
              if secondOk3 b c1 && isCont c2 then
                (Char.ofNat ((b.toNat % 0x10) * 0x1000 + (c1.toNat % 0x40) * 0x40 +
                  c2.toNat % 0x40) :: ·) <$> utf8Decode rest2
              else none
            else match rest2 with
              | [] => none
              | c3 :: rest3 =>
                if 0xF0 ≤ b ∧ b ≤ 0xF4 ∧ (secondOk4 b c1 && isCont c2 && isCont c3) then
                  (Char.ofNat ((b.toNat % 0x08) * 0x40000 + (c1.toNat % 0x40) * 0x1000 +
                    (c2.toNat % 0x40) * 0x40 + c3.toNat % 0x40) :: ·) <$> utf8Decode rest3
                else none

/-! ## `parse_quick` -/

/-- `QuickQuery`, with the name as an owned string. -/
structure QuickQuery where
  txId : UInt16
  qname : String
  qtype : UInt16
  qclass : UInt16
deriving DecidableEq, Repr

/-- How a run of consecutive labels of the name ends. -/
inductive LabelsEnd where
  /-- A zero length byte; the question continues at `next`. -/
  | root (next : Nat)
  /-- A compression pointer at position `place` to `offset`. -/
  | pointer (place offset : Nat)
deriving DecidableEq, Repr

/-- The label part of the name loop of `parse_quick`, from `current_pos = cur` up to the
next zero byte or compression pointer.  `rest` is the packet from `cur` on, `copy` the
number of bytes of the current label still to be lowercased into the buffer `buf`, which
holds at most `bufLen` bytes. -/
def walkLabels (packet : Bytes) (bufLen : Nat) : List UInt8 → Nat → Nat → List UInt8 →
    Option (LabelsEnd × List UInt8)
  | [], _, _, _ => none
  | b :: rest, copy + 1, cur, buf =>
    if buf.length ≥ bufLen then none
    else walkLabels packet bufLen rest copy (cur + 1) (buf ++ [asciiLowerByte b])
  | len :: rest, 0, cur, buf =>
    if len = 0 then some (.root (cur + 1), buf)
    else if len &&& 0xC0 = 0xC0 then
      match rest with
      | [] => none
      | lo :: _ => some (.pointer cur ((len.toNat % 0x40) * 0x100 + lo.toNat), buf)
    else if packet.length < cur + 1 + len.toNat then none
    else if buf = [] then walkLabels packet bufLen rest len.toNat (cur + 1) buf
    else if buf.length ≥ bufLen then none
    else walkLabels packet bufLen rest len.toNat (cur + 1) (buf ++ [0x2E])

/-- The name loop of `parse_quick`: `max_jumps` is the source's counter, which a pointer
decrements and which ends the parse when it reaches `0`; the walk is at `current_pos`, and
`pos` is where the question continues once the first pointer has been taken (`jumped`).
The result is the final `pos` and the buffer. -/
def nameLoop (packet : Bytes) (bufLen : Nat) :
    Nat → Nat → Bool → Nat → List UInt8 → Option (Nat × List UInt8)
  | maxJumps, currentPos, jumped, pos, buf =>
    match walkLabels packet bufLen (packet.drop currentPos) 0 currentPos buf, maxJumps with
    | none, _ => none
    | some (.root next, buf'), _ => some (if jumped then pos else next, buf')
    | some (.pointer place offset, buf'), m + 2 =>
      nameLoop packet bufLen (m + 1) offset true (if jumped then pos else place + 2) buf'
    | some (.pointer _ _, _), _ => none

/-- `parse_quick` with a buffer of `bufLen` bytes: the header and the first question, with
the name lowercased. -/
def parseQuick (packet : Bytes) (bufLen : Nat) : Option QuickQuery :=
  if packet.length < 12 then none
  else if ofBe16 (packet.getD 4 0) (packet.getD 5 0) = 0 then none
  else match nameLoop packet bufLen 5 12 false 12 [] with
    | none => none
    | some (pos, buf) =>
      if packet.length < pos + 4 then none
      else (utf8Decode buf).map fun cs ↦
        ⟨ofBe16 (packet.getD 0 0) (packet.getD 1 0), String.mk cs,
          ofBe16 (packet.getD pos 0) (packet.getD (pos + 1) 0),
          ofBe16 (packet.getD (pos + 2) 0) (packet.getD (pos + 3) 0)⟩

/-! ## `parse_response_quick` -/

/-- `QuickResponse`. -/
structure QuickResponse where
  rcode : ResponseCode
  minTtl : UInt32
deriving DecidableEq, Repr

/-- The "Skip Name" loop of `parse_response_quick`: `rest` is the packet from `pos` on and
`skip` the bytes of the current label still to pass.  The result is the position after
the name. -/
def skipName : List UInt8 → Nat → Nat → Option Nat
  | [], _, _ => none
  | _ :: rest, skip + 1, pos => skipName rest skip (pos + 1)
  | len :: rest, 0, pos =>
    if len = 0 then some (pos + 1)
    else if len &&& 0xC0 = 0xC0 then some (pos + 2)
    else skipName rest len.toNat (pos + 1)

/-- `u32::from_be_bytes` of the four bytes at `i`. -/
def be32At (packet : Bytes) (i : Nat) : UInt32 :=
  (packet.getD i 0).toUInt32 <<< 24 ||| (packet.getD (i + 1) 0).toUInt32 <<< 16 |||
    (packet.getD (i + 2) 0).toUInt32 <<< 8 ||| (packet.getD (i + 3) 0).toUInt32

/-- The question loop: skip `n` questions from `pos`. -/
def skipQuestions (packet : Bytes) : Nat → Nat → Option Nat
  | 0, pos => some pos
  | n + 1, pos => do
    let pos ← skipName (packet.drop pos) 0 pos
    skipQuestions packet n (pos + 4)

/-- The answer loop: scan `n` answers from `pos`, keeping the least TTL in `minTtl`. -/
def scanAnswers (packet : Bytes) : Nat → Nat → UInt32 → Option UInt32
  | 0, _, minTtl => some minTtl
  | n + 1, pos, minTtl => do
    let pos ← skipName (packet.drop pos) 0 pos
    if pos + 10 > packet.length then none
    else
      let ttl := be32At packet (pos + 4)
      let rdLen := ofBe16 (packet.getD (pos + 8) 0) (packet.getD (pos + 9) 0)
      scanAnswers packet n (pos + 10 + rdLen.toNat) (if ttl < minTtl then ttl else minTtl)

/-- `parse_response_quick`: the response code and the least answer TTL, `0` with no
answer. -/
def parseResponseQuick (packet : Bytes) : Option QuickResponse :=
  if packet.length < 12 then none
  else
    let rcode : ResponseCode := ⟨((packet.getD 3 0) &&& 0x0F).toUInt16⟩
    let qdCount := ofBe16 (packet.getD 4 0) (packet.getD 5 0)
    let anCount := ofBe16 (packet.getD 6 0) (packet.getD 7 0)
    if anCount = 0 then some ⟨rcode, 0⟩
    else do
      let pos ← skipQuestions packet qdCount.toNat 12
      let minTtl ← scanAnswers packet anCount.toNat pos 0xFFFFFFFF
      some ⟨rcode, if minTtl = 0xFFFFFFFF then 0 else minTtl⟩

end KixDns
