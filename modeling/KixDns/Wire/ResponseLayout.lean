import KixDns.Wire.QuestionName

/-!
# The response layout `parse_response_quick` reads

`handle_packet` takes the response code and the TTL of an upstream answer from
`parse_response_quick` when the forward has no response matchers and no response actions,
and from the full decoder, through `extract_ttl`, otherwise.  This module lays out a
response as RFC 1035 §4.1 does: the header; the questions, each a name and four bytes; the
answers, each a name, ten fixed bytes and the record data; and then whatever follows (the
authority and additional sections).  A name is a run of labels of 1 to 63 bytes ended by
the zero byte or by a compression pointer, which `parse_response_quick` skips without
following it.

`parseResponseQuick_encode` says what the quick parser returns for every such response:
the low four bits of the flags, and the least answer TTL, except that it reports `0` when
every answer has the TTL `0xFFFFFFFF`, the value its minimum starts from.  `extract_ttl`
takes the least TTL whatever it is, so the two paths give different TTLs on exactly those
responses.
-/

namespace KixDns

/-! ## Big-endian words -/

/-- `u32::to_be_bytes`. -/
def be32 (v : UInt32) : Bytes :=
  [UInt8.ofNat (v.toNat / 0x1000000), UInt8.ofNat (v.toNat / 0x10000 % 0x100),
    UInt8.ofNat (v.toNat / 0x100 % 0x100), UInt8.ofNat (v.toNat % 0x100)]

@[simp] theorem length_be16 (v : UInt16) : (be16 v).length = 2 := rfl

@[simp] theorem length_be32 (v : UInt32) : (be32 v).length = 4 := rfl

/-- Bits below `2 ^ k` and bits above it: the or is the sum. -/
theorem lor_eq_add_of_lt {a b k : Nat} (hb : b < 2 ^ k) : 2 ^ k * a ||| b = 2 ^ k * a + b := by
  apply Nat.eq_of_testBit_eq
  intro j
  rw [Nat.testBit_or, Nat.testBit_mul_pow_two_add a hb, Nat.testBit_mul_pow_two]
  by_cases hj : j < k
  · simp [hj]
  · have hbj : b.testBit j = false :=
      Nat.testBit_lt_two_pow (lt_of_lt_of_le hb (Nat.pow_le_pow_right (by omega) (Nat.le_of_not_lt hj)))
    simp [hj, hbj, Nat.le_of_not_lt hj]

theorem lor_eq_add_of_dvd {x b k : Nat} (hx : 2 ^ k ∣ x) (hb : b < 2 ^ k) : x ||| b = x + b := by
  obtain ⟨a, rfl⟩ := hx
  exact lor_eq_add_of_lt hb

theorem toNat_toUInt32 (b : UInt8) : b.toUInt32.toNat = b.toNat := rfl

theorem toNat_lor (a b : UInt32) : (a ||| b).toNat = a.toNat ||| b.toNat :=
  BitVec.toNat_or _ _

theorem toNat_toUInt32_shiftLeft (b : UInt8) (k : UInt32) (hk : k.toNat ≤ 24) :
    (b.toUInt32 <<< k).toNat = 2 ^ k.toNat * b.toNat := by
  have hb : b.toNat < 256 := b.toNat_lt_size
  have hk' : (k % 32).toNat = k.toNat := by
    rw [UInt32.toNat_mod, show (32 : UInt32).toNat = 32 from rfl]
    exact Nat.mod_eq_of_lt (by omega)
  have hlt : b.toNat * 2 ^ k.toNat < 2 ^ 32 :=
    calc b.toNat * 2 ^ k.toNat < 2 ^ 8 * 2 ^ 24 :=
          Nat.mul_lt_mul_of_lt_of_le hb (Nat.pow_le_pow_right (by decide) hk) (Nat.two_pow_pos _)
      _ = 2 ^ 32 := (Nat.pow_add 2 8 24).symm
  show (b.toUInt32.toBitVec <<< (k % 32).toBitVec.toNat).toNat = _
  rw [BitVec.toNat_shiftLeft]
  change b.toUInt32.toNat <<< (k % 32).toNat % 2 ^ 32 = _
  rw [toNat_toUInt32, hk', Nat.shiftLeft_eq, Nat.mod_eq_of_lt hlt, Nat.mul_comm]

/-- `u32::from_be_bytes` is the base-256 value of the four bytes. -/
theorem toNat_be32At (packet : Bytes) (i : Nat) :
    (be32At packet i).toNat = 2 ^ 24 * (packet.getD i 0).toNat +
      2 ^ 16 * (packet.getD (i + 1) 0).toNat + 2 ^ 8 * (packet.getD (i + 2) 0).toNat +
      (packet.getD (i + 3) 0).toNat := by
  have h0 : (packet.getD i 0).toNat < 256 := (packet.getD i 0).toNat_lt_size
  have h1 : (packet.getD (i + 1) 0).toNat < 256 := (packet.getD (i + 1) 0).toNat_lt_size
  have h2 : (packet.getD (i + 2) 0).toNat < 256 := (packet.getD (i + 2) 0).toNat_lt_size
  have h3 : (packet.getD (i + 3) 0).toNat < 256 := (packet.getD (i + 3) 0).toNat_lt_size
  rw [be32At, toNat_lor, toNat_lor, toNat_lor, toNat_toUInt32_shiftLeft _ _ (by decide),
    toNat_toUInt32_shiftLeft _ _ (by decide), toNat_toUInt32_shiftLeft _ _ (by decide),
    toNat_toUInt32, show (24 : UInt32).toNat = 24 from rfl, show (16 : UInt32).toNat = 16 from rfl,
    show (8 : UInt32).toNat = 8 from rfl,
    lor_eq_add_of_dvd (by omega) (by omega : 2 ^ 16 * _ < 2 ^ 24),
    lor_eq_add_of_dvd (by omega) (by omega : 2 ^ 8 * _ < 2 ^ 16),
    lor_eq_add_of_dvd (by omega) (by omega : _ < 2 ^ 8)]

/-- Reading back the bytes of a 32-bit value gives the value. -/
theorem be32At_be32 (v : UInt32) (rest : Bytes) : be32At (be32 v ++ rest) 0 = v := by
  have hv : v.toNat < 2 ^ 32 := v.toNat_lt_size
  apply UInt32.toNat.inj
  rw [toNat_be32At]
  simp only [be32, List.cons_append, List.getD_cons_zero, List.getD_cons_succ]
  rw [UInt8.toNat_ofNat_of_lt (by show _ < 256; omega),
    UInt8.toNat_ofNat_of_lt (by show _ < 256; omega),
    UInt8.toNat_ofNat_of_lt (by show _ < 256; omega),
    UInt8.toNat_ofNat_of_lt (by show _ < 256; omega)]
  omega

theorem getD_add (packet : Bytes) (i k : Nat) : packet.getD (i + k) 0 = (packet.drop i).getD k 0 := by
  simp only [List.getD_eq_getElem?_getD, List.getElem?_drop]

theorem be32At_drop (packet : Bytes) (i : Nat) : be32At packet i = be32At (packet.drop i) 0 := by
  simp only [be32At, getD_add packet i, Nat.zero_add]
  rw [← getD_add packet i 0, Nat.add_zero]

theorem drop_add_of_drop_eq {packet a b : Bytes} {pos : Nat} (h : packet.drop pos = a ++ b) :
    packet.drop (pos + a.length) = b := by
  rw [← List.drop_drop, h, List.drop_left]

/-! ## The layout -/

/-- The end of a name: the zero byte, or a compression pointer to a 14-bit offset
(RFC 1035 §4.1.4). -/
inductive NameEnd where
  | root
  | pointer (offset : Fin 0x4000)
deriving DecidableEq, Repr

namespace NameEnd

/-- The bytes of the end: `0`, or the offset under the two set top bits. -/
def encode : NameEnd → Bytes
  | root => [0]
  | pointer offset => [UInt8.ofNat (0xC0 + offset.val / 0x100), UInt8.ofNat (offset.val % 0x100)]

/-- The first byte of a pointer has both top bits set. -/
theorem pointer_byte (offset : Fin 0x4000) :
    UInt8.ofNat (0xC0 + offset.val / 0x100) ≠ 0 ∧
      UInt8.ofNat (0xC0 + offset.val / 0x100) &&& 0xC0 = 0xC0 :=
  (by decide : ∀ hi : Fin 0x40, UInt8.ofNat (0xC0 + hi.val) ≠ 0 ∧
    UInt8.ofNat (0xC0 + hi.val) &&& 0xC0 = 0xC0) ⟨offset.val / 0x100, by omega⟩

theorem skipName_encode (e : NameEnd) (rest : Bytes) (pos : Nat) :
    skipName (e.encode ++ rest) 0 pos = some (pos + e.encode.length) := by
  cases e with
  | root => rfl
  | pointer offset =>
    obtain ⟨h0, hptr⟩ := pointer_byte offset
    simp only [encode, List.cons_append, skipName, if_neg h0, if_pos hptr, List.length_cons,
      List.length_nil]

end NameEnd

/-- A name as the wire holds it: labels of 1 to 63 bytes, then its end. -/
structure WireName where
  labels : List Bytes
  stop : NameEnd
  labels_ok : ∀ l ∈ labels, 0 < l.length ∧ l.length < 64

namespace WireName

/-- Each label after its length byte, then the end. -/
def encodeLabels (stop : Bytes) : List Bytes → Bytes
  | [] => stop
  | l :: ls => UInt8.ofNat l.length :: (l ++ encodeLabels stop ls)

def encode (n : WireName) : Bytes :=
  encodeLabels n.stop.encode n.labels

/-- The label branch of "Skip Name" passes the bytes of the label one by one. -/
theorem skipName_label (l rest : Bytes) (pos : Nat) :
    skipName (l ++ rest) l.length pos = skipName rest 0 (pos + l.length) := by
  induction l generalizing pos with
  | nil => rfl
  | cons b l ih =>
    rw [List.cons_append, List.length_cons, skipName, ih]
    congr 1
    omega

theorem skipName_encodeLabels (stop : NameEnd) (rest : Bytes) :
    ∀ (labels : List Bytes) (pos : Nat), (∀ l ∈ labels, 0 < l.length ∧ l.length < 64) →
      skipName (encodeLabels stop.encode labels ++ rest) 0 pos =
        some (pos + (encodeLabels stop.encode labels).length)
  | [], pos, _ => stop.skipName_encode rest pos
  | l :: ls, pos, hl => by
    obtain ⟨hpos, hlt⟩ := hl l (List.mem_cons_self _ _)
    obtain ⟨h0, hptr, hlen⟩ := lengthByte_of_lt hpos hlt
    rw [encodeLabels, List.cons_append, skipName, if_neg h0, if_neg hptr, hlen, List.append_assoc,
      skipName_label, skipName_encodeLabels stop rest ls _ fun x hx ↦ hl x (List.mem_cons_of_mem _ hx)]
    simp only [List.length_cons, List.length_append]
    congr 1
    omega

/-- "Skip Name" passes a name on the wire, without following its pointer. -/
theorem skipName_encode (n : WireName) (rest : Bytes) (pos : Nat) :
    skipName (n.encode ++ rest) 0 pos = some (pos + n.encode.length) :=
  skipName_encodeLabels n.stop rest n.labels pos n.labels_ok

end WireName

/-- A question: its name, type and class. -/
structure WireQuestion where
  name : WireName
  qtype : UInt16
  qclass : UInt16

def WireQuestion.encode (q : WireQuestion) : Bytes :=
  q.name.encode ++ (be16 q.qtype ++ be16 q.qclass)

/-- An answer record: its name, type, class, TTL and data, of less than 65536 bytes. -/
structure WireRecord where
  name : WireName
  rtype : UInt16
  rclass : UInt16
  ttl : UInt32
  rdata : Bytes
  rdata_lt : rdata.length < 0x10000

namespace WireRecord

/-- The ten bytes after the name: type, class, TTL and data length. -/
def fixed (r : WireRecord) : Bytes :=
  be16 r.rtype ++ be16 r.rclass ++ be32 r.ttl ++ be16 (UInt16.ofNat r.rdata.length)

def encode (r : WireRecord) : Bytes :=
  r.name.encode ++ (r.fixed ++ r.rdata)

theorem length_fixed (r : WireRecord) : r.fixed.length = 10 := rfl

end WireRecord

/-- A response: the id and flags of its header, its questions and answers, the two other
counts, and the bytes after the answers. -/
structure WireResponse where
  id : UInt16
  flags : UInt16
  questions : List WireQuestion
  answers : List WireRecord
  nsCount : UInt16
  arCount : UInt16
  rest : Bytes
  questions_lt : questions.length < 0x10000
  answers_lt : answers.length < 0x10000

namespace WireResponse

/-- The twelve header bytes: id, flags, and the four counts. -/
def header (r : WireResponse) : Bytes :=
  be16 r.id ++ be16 r.flags ++ be16 (UInt16.ofNat r.questions.length) ++
    be16 (UInt16.ofNat r.answers.length) ++ be16 r.nsCount ++ be16 r.arCount

def encode (r : WireResponse) : Bytes :=
  r.header ++ ((r.questions.map WireQuestion.encode).flatten ++
    ((r.answers.map WireRecord.encode).flatten ++ r.rest))

/-- RCODE: the low four bits of the flags (RFC 1035 §4.1.1). -/
def rcode (r : WireResponse) : ResponseCode :=
  ⟨r.flags &&& 0x0F⟩

/-- The least answer TTL, `0` with no answer. -/
def leastTtl (r : WireResponse) : Nat :=
  ((r.answers.map (·.ttl.toNat)).min?).getD 0

theorem length_header (r : WireResponse) : r.header.length = 12 := rfl

end WireResponse

/-! ## The quick parser on the layout -/

section Scan

variable (packet : Bytes)

theorem skipQuestions_encode : ∀ (qs : List WireQuestion) (pos : Nat) (rest : Bytes),
    packet.drop pos = (qs.map WireQuestion.encode).flatten ++ rest →
    skipQuestions packet qs.length pos = some (pos + (qs.map WireQuestion.encode).flatten.length)
  | [], pos, _, _ => rfl
  | q :: qs, pos, rest, h => by
    rw [List.map_cons, List.flatten_cons, WireQuestion.encode, List.append_assoc,
      List.append_assoc] at h
    have hnext := drop_add_of_drop_eq (drop_add_of_drop_eq h)
    simp only [List.length_append, length_be16] at hnext
    rw [List.length_cons, skipQuestions, h, WireName.skipName_encode, Option.bind_eq_bind,
      Option.some_bind, skipQuestions_encode qs _ rest hnext]
    simp only [List.map_cons, List.flatten_cons, WireQuestion.encode, List.length_append,
      length_be16]
    congr 1
    omega

/-- One step of the answer loop's minimum. -/
def minStep (m : UInt32) (r : WireRecord) : UInt32 :=
  if r.ttl < m then r.ttl else m

theorem scanAnswers_encode : ∀ (rs : List WireRecord) (pos : Nat) (rest : Bytes) (m : UInt32),
    packet.drop pos = (rs.map WireRecord.encode).flatten ++ rest →
    scanAnswers packet rs.length pos m = some (rs.foldl minStep m)
  | [], _, _, _, _ => rfl
  | r :: rs, pos, rest, m, h => by
    rw [List.map_cons, List.flatten_cons, WireRecord.encode, List.append_assoc,
      List.append_assoc] at h
    have hfixed := drop_add_of_drop_eq h
    have hnext : packet.drop (pos + r.name.encode.length + r.fixed.length + r.rdata.length) =
        (rs.map WireRecord.encode).flatten ++ rest := by
      rw [Nat.add_assoc _ r.fixed.length, ← List.length_append]
      exact drop_add_of_drop_eq hfixed
    have hfit : ¬ pos + r.name.encode.length + 10 > packet.length := by
      have := congrArg List.length hfixed
      simp only [List.length_drop, List.length_append, WireRecord.length_fixed] at this
      omega
    have httl : be32At packet (pos + r.name.encode.length + 4) = r.ttl := by
      rw [be32At_drop, ← List.drop_drop, hfixed]
      exact be32At_be32 r.ttl _
    have hrd : ofBe16 (packet.getD (pos + r.name.encode.length + 8) 0)
        (packet.getD (pos + r.name.encode.length + 9) 0) = UInt16.ofNat r.rdata.length := by
      rw [getD_add, getD_add, hfixed]
      exact ofBe16_be16 _
    have hlen : (UInt16.ofNat r.rdata.length).toNat = r.rdata.length :=
      UInt16.toNat_ofNat_of_lt r.rdata_lt
    rw [List.length_cons, scanAnswers, h, WireName.skipName_encode, Option.bind_eq_bind,
      Option.some_bind]
    simp only [if_neg hfit, httl, hrd, hlen]
    rw [← WireRecord.length_fixed r, scanAnswers_encode rs _ rest _ hnext]
    rfl

end Scan

/-! ## The quick response -/

theorem toNat_minStep (m : UInt32) (r : WireRecord) :
    (minStep m r).toNat = min m.toNat r.ttl.toNat := by
  have hlt : r.ttl < m ↔ r.ttl.toNat < m.toNat := UInt32.lt_def.trans BitVec.lt_def
  unfold minStep
  split
  · next h => have := hlt.mp h; omega
  · next h => have := mt hlt.mpr h; omega

theorem toNat_foldl_minStep (rs : List WireRecord) (m : UInt32) :
    (rs.foldl minStep m).toNat = (rs.map (·.ttl.toNat)).foldl min m.toNat := by
  induction rs generalizing m with
  | nil => rfl
  | cons r rs ih => rw [List.foldl_cons, ih, toNat_minStep]; rfl

/-- A minimum of values below a bound reaches it exactly when every value does. -/
theorem foldl_min_eq_iff {bound : Nat} : ∀ (l : List Nat) (x : Nat), x ≤ bound →
    (∀ y ∈ l, y ≤ bound) → (l.foldl min x = bound ↔ x = bound ∧ ∀ y ∈ l, y = bound)
  | [], x, _, _ => by simp
  | y :: l, x, hx, hl => by
    have hy := hl y (List.mem_cons_self _ _)
    have hmin : min x y = bound ↔ x = bound ∧ y = bound := by
      rw [Nat.min_def]; split <;> omega
    rw [List.foldl_cons, foldl_min_eq_iff l (min x y) ((Nat.min_le_left _ _).trans hx)
      fun z hz ↦ hl z (List.mem_cons_of_mem _ hz), List.forall_mem_cons, hmin, and_assoc]

/-- The TTL `parse_response_quick` reports from the answer loop's minimum: `0` when every
answer has TTL `0xFFFFFFFF`, the least TTL otherwise. -/
theorem toNat_reportedMin (rs : List WireRecord) (hne : rs ≠ []) :
    (if rs.foldl minStep 0xFFFFFFFF = 0xFFFFFFFF then 0 else rs.foldl minStep 0xFFFFFFFF).toNat =
      if ∀ b ∈ rs, b.ttl = 0xFFFFFFFF then 0 else ((rs.map (·.ttl.toNat)).min?).getD 0 := by
  obtain ⟨a, as, rfl⟩ := List.exists_cons_of_ne_nil hne
  have hle : ∀ t : UInt32, t.toNat ≤ 4294967295 := fun t ↦ Nat.le_of_lt_succ t.toNat_lt_size
  have hfold : ((a :: as).foldl minStep 0xFFFFFFFF).toNat =
      (as.map (·.ttl.toNat)).foldl min a.ttl.toNat := by
    rw [toNat_foldl_minStep, List.map_cons, List.foldl_cons]
    exact congrArg (fun x ↦ (as.map (·.ttl.toNat)).foldl min x) (Nat.min_eq_right (hle _))
  have hmax : ∀ t : UInt32, t = 0xFFFFFFFF ↔ t.toNat = 4294967295 :=
    fun t ↦ ⟨fun h ↦ h ▸ rfl, fun h ↦ UInt32.toNat.inj h⟩
  have hall : (a :: as).foldl minStep 0xFFFFFFFF = 0xFFFFFFFF ↔
      ∀ b ∈ a :: as, b.ttl = 0xFFFFFFFF := by
    rw [hmax, hfold, foldl_min_eq_iff _ _ (hle _) (List.forall_mem_map.mpr fun b _ ↦ hle _)]
    simp only [List.forall_mem_cons, List.forall_mem_map, hmax]
  rw [List.map_cons, List.min?_cons', Option.getD_some, ← hfold]
  by_cases h : ∀ b ∈ a :: as, b.ttl = 0xFFFFFFFF
  · rw [if_pos (hall.mpr h), if_pos h]
    rfl
  · rw [if_neg (mt hall.mp h), if_neg h]

/-- The low byte of the flags holds RCODE in its low four bits. -/
theorem rcode_of_flags (f : UInt16) : (UInt8.ofNat (f.toNat % 256) &&& 0x0F).toUInt16 = f &&& 0x0F := by
  apply UInt16.toNat.inj
  have hbyte : (UInt8.ofNat (f.toNat % 256)).toNat = f.toNat % 256 :=
    UInt8.toNat_ofNat_of_lt (Nat.mod_lt _ (by decide))
  have h8 : (UInt8.ofNat (f.toNat % 256) &&& 0x0F).toNat =
      (UInt8.ofNat (f.toNat % 256)).toNat % 2 ^ 4 :=
    (BitVec.toNat_and _ _).trans (Nat.and_pow_two_sub_one_eq_mod _ 4)
  have h16 : (f &&& 0x0F).toNat = f.toNat % 2 ^ 4 :=
    (BitVec.toNat_and _ _).trans (Nat.and_pow_two_sub_one_eq_mod _ 4)
  change (UInt8.ofNat (f.toNat % 256) &&& 0x0F).toNat = (f &&& 0x0F).toNat
  rw [h8, h16, hbyte]
  omega

/-- What `parse_response_quick` returns for every response of the layout: RCODE, and the
least answer TTL, or `0` when every answer has TTL `0xFFFFFFFF` (or there is none). -/
theorem parseResponseQuick_encode (r : WireResponse) :
    ∃ minTtl, parseResponseQuick r.encode = some ⟨r.rcode, minTtl⟩ ∧
      minTtl.toNat = if ∀ a ∈ r.answers, a.ttl = 0xFFFFFFFF then 0 else r.leastTtl := by
  have hlen : ¬ r.encode.length < 12 := by
    simp only [WireResponse.encode, List.length_append, WireResponse.length_header]
    omega
  have hrcode : (⟨((r.encode.getD 3 0) &&& 0x0F).toUInt16⟩ : ResponseCode) = r.rcode :=
    congrArg ResponseCode.mk (rcode_of_flags r.flags)
  have hqd : ofBe16 (r.encode.getD 4 0) (r.encode.getD 5 0) = UInt16.ofNat r.questions.length :=
    ofBe16_be16 _
  have han : ofBe16 (r.encode.getD 6 0) (r.encode.getD 7 0) = UInt16.ofNat r.answers.length :=
    ofBe16_be16 _
  have hqs := skipQuestions_encode r.encode r.questions 12 _ (List.drop_left' r.length_header)
  have has := scanAnswers_encode r.encode r.answers _ r.rest 0xFFFFFFFF
    (drop_add_of_drop_eq (List.drop_left' r.length_header))
  unfold parseResponseQuick
  simp only [if_neg hlen, hrcode, hqd, han]
  rw [UInt16.toNat_ofNat_of_lt r.questions_lt]
  by_cases hne : r.answers = []
  · exact ⟨0, by simp [hne], by simp [hne]⟩
  have hcount : UInt16.ofNat r.answers.length ≠ 0 := fun h ↦ by
    have := congrArg UInt16.toNat h
    rw [UInt16.toNat_ofNat_of_lt r.answers_lt] at this
    exact hne (List.length_eq_zero.mp this)
  rw [if_neg hcount, UInt16.toNat_ofNat_of_lt r.answers_lt, Option.bind_eq_bind, hqs,
    Option.some_bind, has]
  exact ⟨_, rfl, toNat_reportedMin _ hne⟩

/-- With answers that all have TTL `0xFFFFFFFF`, the least TTL is `0xFFFFFFFF`. -/
theorem leastTtl_of_forall_max {r : WireResponse} (hne : r.answers ≠ [])
    (hall : ∀ a ∈ r.answers, a.ttl = 0xFFFFFFFF) : r.leastTtl = 0xFFFFFFFF := by
  have hmax : ∀ y ∈ r.answers.map (·.ttl.toNat), y = 0xFFFFFFFF := by
    simp only [List.forall_mem_map]
    exact fun a ha ↦ by rw [hall a ha]; rfl
  obtain ⟨a, as, hans⟩ := List.exists_cons_of_ne_nil hne
  rw [hans, List.map_cons, List.forall_mem_cons] at hmax
  rw [WireResponse.leastTtl, hans, List.map_cons, List.min?_cons', Option.getD_some]
  exact (foldl_min_eq_iff _ _ hmax.1.le fun y hy ↦ (hmax.2 y hy).le).mpr hmax

/-! ## Against the full decoder -/

/-- For a decoder that reads the answers' TTLs as the layout holds them, the quick path and
`extract_ttl` agree on the TTL except when there are answers and all have TTL
`0xFFFFFFFF`; the quick response code is RCODE. -/
theorem parseResponseQuick_ttl_differs_at_max (lib : Lib) (r : WireResponse)
    (hdecode : (lib.messageFromBytes r.encode).map (fun m ↦ m.answers.map (·.ttl)) =
      some (r.answers.map (·.ttl))) :
    ∃ qr msg, parseResponseQuick r.encode = some qr ∧ lib.messageFromBytes r.encode = some msg ∧
      qr.rcode = r.rcode ∧
      (qr.minTtl.toNat = extractTtl msg ↔
        ¬ (r.answers ≠ [] ∧ ∀ a ∈ r.answers, a.ttl = 0xFFFFFFFF)) := by
  obtain ⟨minTtl, hq, hmin⟩ := parseResponseQuick_encode r
  obtain ⟨msg, hmsg, httl⟩ := Option.map_eq_some'.mp hdecode
  have hext : extractTtl msg = r.leastTtl := by
    have := congrArg (List.map UInt32.toNat) httl
    simp only [List.map_map] at this
    exact congrArg (fun l ↦ (List.min? l).getD 0) this
  refine ⟨_, msg, hq, hmsg, rfl, ?_⟩
  rw [hmin, hext]
  by_cases hall : ∀ a ∈ r.answers, a.ttl = 0xFFFFFFFF
  · rw [if_pos hall]
    by_cases hne : r.answers = []
    · simp [WireResponse.leastTtl, hne]
    · rw [leastTtl_of_forall_max hne hall]
      exact iff_of_false (by decide) (not_not.mpr ⟨hne, hall⟩)
  · rw [if_neg hall]
    exact iff_of_true rfl fun h ↦ hall h.2

/-- A response to `a` with one answer, a pointer to the question's name, of TTL
`0xFFFFFFFF`. -/
def maxTtlResponse : WireResponse where
  id := 0x1234
  flags := 0x8180
  questions := [⟨⟨[[0x61]], .root, by decide⟩, 1, 1⟩]
  answers := [⟨⟨[], .pointer 12, by decide⟩, 1, 1, 0xFFFFFFFF, [0, 0, 0, 0], by decide⟩]
  nsCount := 0
  arCount := 0
  rest := []
  questions_lt := by decide
  answers_lt := by decide

/-- `maxTtlResponse` decoded. -/
def maxTtlMsg : Message :=
  { Message.new with
    id := 0x1234
    isResponse := true
    recursionDesired := true
    recursionAvailable := true
    queries := [⟨⟨[[0x61]], true⟩, RecordType.A, DNSClass.IN⟩]
    answers := [⟨⟨[[0x61]], true⟩, 0xFFFFFFFF, .a 0⟩] }

/-- A decoder for `maxTtlResponse`. -/
def maxTtlLib : Lib :=
  { (default : Lib) with
    messageFromBytes := fun b ↦ if b = maxTtlResponse.encode then some maxTtlMsg else none }

theorem maxTtlResponse_ttl_differs :
    ∃ qr msg, parseResponseQuick maxTtlResponse.encode = some qr ∧
      maxTtlLib.messageFromBytes maxTtlResponse.encode = some msg ∧
      qr.rcode = maxTtlResponse.rcode ∧
      (qr.minTtl.toNat = extractTtl msg ↔
        ¬ (maxTtlResponse.answers ≠ [] ∧ ∀ a ∈ maxTtlResponse.answers, a.ttl = 0xFFFFFFFF)) :=
  parseResponseQuick_ttl_differs_at_max maxTtlLib maxTtlResponse (by decide)

example : parseResponseQuick maxTtlResponse.encode = some ⟨ResponseCode.NoError, 0⟩ ∧
    extractTtl maxTtlMsg = 4294967295 := by
  decide

end KixDns
