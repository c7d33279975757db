import KixDns.Wire.CheckedQuery

/-!
# `parse_response_quick` as written, with its panics

`parseResponseQuick` reads the packet through `getD`, and its positions are unbounded
naturals.  The source indexes the packet and adds `usize` positions: after a pointer
(`pos += 2`), a question's type and class (`pos += 4`) and a record (`pos += 10 + rd_len`)
the position moves on unchecked, and it is checked only at the next read.  This module writes
`parse_response_quick` over the checked primitives of `KixDns.Wire.CheckedQuery`.

The invariant is that "Skip Name" ends at most one byte past the packet (`skipName_le`), so
each loop starts from a position at most `65545` past it.  `parseResponseQuickChecked_eq`
shows that with that much room in `usize` nothing panics and the result is
`parseResponseQuick`'s, and `parseResponseQuick_in_bounds` states it for every packet a
slice can hold at every pointer width above 16 bits.
-/

namespace KixDns

/-- `u32::from_be_bytes`. -/
def ofBe32 (b0 b1 b2 b3 : UInt8) : UInt32 :=
  b0.toUInt32 <<< 24 ||| b1.toUInt32 <<< 16 ||| b2.toUInt32 <<< 8 ||| b3.toUInt32

section Checked

variable (w : Nat) (packet : Bytes)

/-- The "Skip Name" loop: the position after the name, or `return None`.  The label step
`pos += 1 + (len as usize)` is two checked additions. -/
def skipNameChecked (pos : Nat) : Except Panic (Option Nat) :=
  if hpos : packet.length ≤ pos then .ok none
  else do
    let len ← sliceGet packet pos
    if len = 0 then
      let pos ← usizeAdd w pos 1
      return some pos
    if len &&& 0xC0 = 0xC0 then
      let pos ← usizeAdd w pos 2
      return some pos
    match hstep : usizeAdd w 1 len.toNat with
    | .error e => .error e
    | .ok step =>
      match hnext : usizeAdd w pos step with
      | .error e => .error e
      | .ok next =>
        have : packet.length - next < packet.length - pos := by
          rw [eq_add_of_usizeAdd hnext, eq_add_of_usizeAdd hstep]
          omega
        skipNameChecked next
termination_by packet.length - pos

/-- The question loop, `for _ in 0..qd_count`. -/
def skipQuestionsChecked : Nat → Nat → Except Panic (Option Nat)
  | 0, pos => .ok (some pos)
  | n + 1, pos => do
    let some pos ← skipNameChecked w packet pos | return none
    let pos ← usizeAdd w pos 4
    skipQuestionsChecked n pos

/-- The answer loop, `for _ in 0..an_count`, with `min_ttl`. -/
def scanAnswersChecked : Nat → Nat → UInt32 → Except Panic (Option UInt32)
  | 0, _, minTtl => .ok (some minTtl)
  | n + 1, pos, minTtl => do
    let some pos ← skipNameChecked w packet pos | return none
    if (← usizeAdd w pos 10) > packet.length then return none
    let ttl := ofBe32 (← sliceGet packet (← usizeAdd w pos 4)) (← sliceGet packet (← usizeAdd w pos 5))
      (← sliceGet packet (← usizeAdd w pos 6)) (← sliceGet packet (← usizeAdd w pos 7))
    let minTtl := if ttl < minTtl then ttl else minTtl
    let rdLen := ofBe16 (← sliceGet packet (← usizeAdd w pos 8)) (← sliceGet packet (← usizeAdd w pos 9))
    let pos ← usizeAdd w pos (← usizeAdd w 10 rdLen.toNat)
    scanAnswersChecked n pos minTtl

/-- `parse_response_quick`, as the source writes it. -/
def parseResponseQuickChecked : Except Panic (Option QuickResponse) := do
  if packet.length < 12 then return none
  let rcode : ResponseCode := ⟨((← sliceGet packet 3) &&& 0x0F).toUInt16⟩
  let qdCount := ofBe16 (← sliceGet packet 4) (← sliceGet packet 5)
  let anCount := ofBe16 (← sliceGet packet 6) (← sliceGet packet 7)
  if anCount = 0 then return some ⟨rcode, 0⟩
  let some pos ← skipQuestionsChecked w packet qdCount.toNat 12 | return none
  let some minTtl ← scanAnswersChecked w packet anCount.toNat pos 0xFFFFFFFF | return none
  return some ⟨rcode, if minTtl = 0xFFFFFFFF then 0 else minTtl⟩

end Checked

/-! ## "Skip Name" ends at most one byte past the packet -/

/-- A label's bytes are passed one by one: where they run out of the list, so does the
name. -/
theorem skipName_eq_drop : ∀ (l : Bytes) (k pos : Nat),
    skipName l k pos = skipName (l.drop k) 0 (pos + k)
  | [], k, _ => by rw [List.drop_nil]; rfl
  | _ :: _, 0, _ => rfl
  | _ :: l, k + 1, pos => by
    rw [skipName, skipName_eq_drop l k (pos + 1), List.drop_succ_cons, Nat.add_right_comm, Nat.add_assoc]

/-- The name ends at its zero byte or after its pointer, inside the list or one byte past
it. -/
theorem skipName_le : ∀ (l : Bytes) (k pos p : Nat), skipName l k pos = some p →
    p ≤ pos + l.length + 1
  | [], _, _, _, h => nomatch h
  | _ :: l, k + 1, pos, p, h => by
    have := skipName_le l k (pos + 1) p h
    rw [List.length_cons]
    omega
  | len :: l, 0, pos, p, h => by
    rw [skipName] at h
    rw [List.length_cons]
    split_ifs at h with h0 hptr
    · cases h
      omega
    · cases h
      omega
    · have := skipName_le l len.toNat (pos + 1) p h
      omega

theorem skipName_drop_le {packet : Bytes} {pos p : Nat} (h : skipName (packet.drop pos) 0 pos = some p) :
    p ≤ packet.length + 1 := by
  by_cases hpos : packet.length ≤ pos
  · rw [List.drop_eq_nil_of_le hpos] at h
    exact nomatch h
  · have := skipName_le _ _ _ _ h
    rw [List.length_drop] at this
    omega

/-! ## The checked loops refine the unchecked ones -/

section Refine

variable {w : Nat} {packet : Bytes}

theorem skipNameChecked_eq (hroom : packet.length + 256 ≤ 2 ^ w) (pos : Nat) :
    skipNameChecked w packet pos = .ok (skipName (packet.drop pos) 0 pos) := by
  rw [skipNameChecked]
  split
  next hpos =>
    rw [List.drop_eq_nil_of_le hpos]
    rfl
  next hpos =>
    have hlt : pos < packet.length := Nat.lt_of_not_le hpos
    rw [sliceGet_of_lt hlt, ok_bind, List.drop_eq_getElem_cons hlt, skipName]
    simp only [pure_bind]
    have hL : packet[pos].toNat < 256 := packet[pos].toNat_lt_size
    split_ifs with h0 hptr
    · rw [usizeAdd_of_lt (by omega)]
      rfl
    · rw [usizeAdd_of_lt (by omega)]
      rfl
    · split
      next e he => exact absurd (he.symm.trans (usizeAdd_of_lt (by omega))) nofun
      next step hstep =>
      rw [eq_add_of_usizeAdd hstep]
      split
      next e he => exact absurd (he.symm.trans (usizeAdd_of_lt (by omega))) nofun
      next next hnext =>
      obtain rfl := eq_add_of_usizeAdd hnext
      have : packet.length - (pos + (1 + packet[pos].toNat)) < packet.length - pos := by omega
      rw [skipNameChecked_eq hroom, skipName_eq_drop (packet.drop (pos + 1)), List.drop_drop,
        Nat.add_assoc]
termination_by packet.length - pos

theorem skipQuestionsChecked_eq (hroom : packet.length + 256 ≤ 2 ^ w) :
    ∀ n pos, skipQuestionsChecked w packet n pos = .ok (skipQuestions packet n pos)
  | 0, _ => rfl
  | n + 1, pos => by
    rw [skipQuestionsChecked, skipQuestions, skipNameChecked_eq hroom, ok_bind]
    cases h : skipName (packet.drop pos) 0 pos with
    | none => rfl
    | some p =>
      have := skipName_drop_le h
      dsimp only
      rw [usizeAdd_of_lt (by omega : p + 4 < 2 ^ w), ok_bind]
      exact skipQuestionsChecked_eq hroom n (p + 4)

theorem scanAnswersChecked_eq (hroom : packet.length + 65536 ≤ 2 ^ w) :
    ∀ n pos m, scanAnswersChecked w packet n pos m = .ok (scanAnswers packet n pos m)
  | 0, _, _ => rfl
  | n + 1, pos, m => by
    rw [scanAnswersChecked, scanAnswers, skipNameChecked_eq (by omega) pos, ok_bind]
    cases h : skipName (packet.drop pos) 0 pos with
    | none => rfl
    | some p =>
      have := skipName_drop_le h
      simp only [Option.bind_eq_bind, Option.some_bind]
      rw [usizeAdd_of_lt (by omega : p + 10 < 2 ^ w), ok_bind]
      by_cases hfit : p + 10 > packet.length
      · rw [if_pos hfit, if_pos hfit]
        rfl
      rw [if_neg hfit, if_neg hfit]
      have hadd : ∀ k < 10, usizeAdd w p k = .ok (p + k) := fun _ hk ↦ usizeAdd_of_lt (by omega)
      have hget : ∀ k < 10, sliceGet packet (p + k) = .ok (packet.getD (p + k) 0) := fun _ hk ↦
        sliceGet_eq_getD 0 (by omega)
      simp (disch := decide) only [hadd, hget, ok_bind, pure_bind]
      have hrd : (ofBe16 (packet.getD (p + 8) 0) (packet.getD (p + 9) 0)).toNat < 65536 :=
        (ofBe16 _ _).toNat_lt_size
      rw [usizeAdd_of_lt (by omega), ok_bind, usizeAdd_of_lt (by omega), ← Nat.add_assoc]
      exact scanAnswersChecked_eq hroom n _ _

/-- **`parse_response_quick` refines `parseResponseQuick`.**  With `65536` values of `usize`
to spare above the packet, nothing panics, and the result is `parseResponseQuick`'s. -/
theorem parseResponseQuickChecked_eq (hroom : packet.length + 65536 ≤ 2 ^ w) :
    parseResponseQuickChecked w packet = .ok (parseResponseQuick packet) := by
  unfold parseResponseQuickChecked parseResponseQuick
  by_cases h12 : packet.length < 12
  · rw [if_pos h12, if_pos h12]
    rfl
  rw [if_neg h12, if_neg h12]
  have hget : ∀ i < 12, sliceGet packet i = .ok (packet.getD i 0) := fun _ hi ↦
    sliceGet_eq_getD 0 (by omega)
  simp only [hget 3 (by decide), hget 4 (by decide), hget 5 (by decide), hget 6 (by decide),
    hget 7 (by decide), ok_bind, pure_bind]
  by_cases han : ofBe16 (packet.getD 6 0) (packet.getD 7 0) = 0
  · rw [if_pos han, if_pos han]
    rfl
  rw [if_neg han, if_neg han, skipQuestionsChecked_eq (by omega), ok_bind]
  cases skipQuestions packet (ofBe16 (packet.getD 4 0) (packet.getD 5 0)).toNat 12 with
  | none => rfl
  | some pos =>
    simp only [Option.bind_eq_bind, Option.some_bind]
    rw [scanAnswersChecked_eq hroom, ok_bind]
    cases scanAnswers packet (ofBe16 (packet.getD 6 0) (packet.getD 7 0)).toNat pos 0xFFFFFFFF <;> rfl

end Refine

/-- **`parse_response_quick` stays in bounds.**  At every pointer width above 16 bits, on every
packet a slice can hold, every read is inside the packet, no position addition overflows, and
the result is `parseResponseQuick`'s.  At 16 bits `pos += 10 + rd_len` can pass `usize::MAX`,
but `std`, which the program needs, has no 16-bit target. -/
theorem parseResponseQuick_in_bounds (w : Nat) (hw : 17 ≤ w) (packet : Bytes)
    (hp : packet.length < 2 ^ (w - 1)) :
    parseResponseQuickChecked w packet = .ok (parseResponseQuick packet) := by
  have hhalf := Nat.two_pow_pred_add_two_pow_pred (by omega : 0 < w)
  have h16 : 2 ^ 16 ≤ 2 ^ (w - 1) := Nat.pow_le_pow_right (by decide) (by omega)
  exact parseResponseQuickChecked_eq (by omega)

/-- A response with a question for `a` and an answer whose name points to it. -/
def pointerAnswerPacket : Bytes :=
  [0x12, 0x34, 0x81, 0x80, 0, 1, 0, 1, 0, 0, 0, 0,
    1, 0x61, 0, 0, 1, 0, 1,
    0xC0, 0x0C, 0, 1, 0, 1, 0, 0, 0, 60, 0, 4, 1, 2, 3, 4]

theorem parseResponseQuick_in_bounds_answer :
    17 ≤ 64 ∧ pointerAnswerPacket.length < 2 ^ (64 - 1) ∧
      parseResponseQuickChecked 64 pointerAnswerPacket = .ok (parseResponseQuick pointerAnswerPacket) :=
  ⟨by decide, by decide, parseResponseQuick_in_bounds 64 (by decide) _ (by decide)⟩

end KixDns
