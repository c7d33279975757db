import KixDns.Wire.ResponseLayout

/-!
# `parse_quick` as written, with its panics

`parseQuick` reads the packet as a list, where reading past the end is the end of the list.
The source indexes the packet and the caller's buffer and adds `usize` positions, and each
of those can panic: an index or a slice past the end, and, in a debug build, an addition past
`usize::MAX`.  This module writes `parse_quick` as the source does, over Rust's checked
primitives at a pointer width `w`.

`quickStep` is one iteration of the name loop: the next state, the zero byte that ends the
name, or `return None`.  A compression pointer may jump backwards, so the position alone
need not decrease; `quickStep_next_lex` shows that the pair of the pointer budget and the
bytes left after the position decreases lexicographically on every iteration, and
`nameLoopChecked` is defined by well-founded recursion on that pair.

The refinement is a simulation: `QuickLoop.run` says what a state of the loop stands for,
a `nameLoop` from its position over the bytes written so far, and `quickStep_sim` shows that
an iteration keeps it.  `parseQuickChecked_eq` follows, and `parseQuick_terminates_in_bounds`
states it for every packet and every buffer a Rust slice can hold at pointer width `w ≥ 16`:
nothing panics, and the result is `parseQuick`'s.
-/

namespace KixDns

/-! ## Rust's checked primitives -/

/-- The panics the parsers can reach. -/
inductive Panic where
  /-- `slice[index]` with `index ≥ len`. -/
  | indexOutOfBounds (index len : Nat)
  /-- `slice[start..stop]` with `start > stop` or `stop > len`. -/
  | sliceOutOfRange (start stop len : Nat)
  /-- A `usize` addition past `usize::MAX`, which a debug build checks. -/
  | addOverflow
deriving DecidableEq, Repr

/-- `a + b` on `usize` values of `w` bits. -/
def usizeAdd (w a b : Nat) : Except Panic Nat :=
  if a + b < 2 ^ w then .ok (a + b) else .error .addOverflow

/-- `slice[i]`. -/
def sliceGet {α : Type} (l : List α) (i : Nat) : Except Panic α :=
  match l[i]? with
  | some a => .ok a
  | none => .error (.indexOutOfBounds i l.length)

/-- `slice[start..stop]`. -/
def sliceRange {α : Type} (l : List α) (start stop : Nat) : Except Panic (List α) :=
  if start ≤ stop ∧ stop ≤ l.length then .ok ((l.drop start).take (stop - start))
  else .error (.sliceOutOfRange start stop l.length)

/-- `slice[i] = v`. -/
def sliceSet {α : Type} (l : List α) (i : Nat) (v : α) : Except Panic (List α) :=
  if i < l.length then .ok (l.set i v) else .error (.indexOutOfBounds i l.length)

theorem usizeAdd_of_lt {w a b : Nat} (h : a + b < 2 ^ w) : usizeAdd w a b = .ok (a + b) :=
  if_pos h

theorem eq_add_of_usizeAdd {w a b c : Nat} (h : usizeAdd w a b = .ok c) : c = a + b := by
  unfold usizeAdd at h
  split at h <;> cases h
  rfl

theorem sliceGet_of_lt {α : Type} {l : List α} {i : Nat} (h : i < l.length) :
    sliceGet l i = .ok l[i] := by
  simp [sliceGet, List.getElem?_eq_getElem h]

theorem sliceGet_eq_getD {α : Type} {l : List α} {i : Nat} (d : α) (h : i < l.length) :
    sliceGet l i = .ok (l.getD i d) := by
  rw [sliceGet_of_lt h, List.getD_eq_getElem]

theorem sliceRange_of_le {α : Type} {l : List α} {start stop : Nat} (h : start ≤ stop)
    (hl : stop ≤ l.length) : sliceRange l start stop = .ok ((l.drop start).take (stop - start)) :=
  if_pos ⟨h, hl⟩

theorem sliceSet_of_lt {α : Type} {l : List α} {i : Nat} (v : α) (h : i < l.length) :
    sliceSet l i v = .ok (l.set i v) :=
  if_pos h

theorem bind_eq_ok {ε α β : Type} {x : Except ε α} {f : α → Except ε β} {b : β} :
    x >>= f = .ok b ↔ ∃ a, x = .ok a ∧ f a = .ok b := by
  cases x <;> simp [bind, Except.bind]

@[simp] theorem ok_bind {ε α β : Type} (a : α) (f : α → Except ε β) :
    (Except.ok a : Except ε α) >>= f = f a := rfl

theorem take_succ_set {α : Type} {l : List α} {n : Nat} (v : α) (h : n < l.length) :
    (l.set n v).take (n + 1) = l.take n ++ [v] := by
  rw [List.take_succ, List.getElem?_set_self h, List.set_take,
    List.set_eq_of_length_le (by simp)]
  rfl

/-! ## The name loop -/

/-- The locals of the name loop: `current_pos`, `buf_pos`, `pos`, `jumped`, `max_jumps` (an
`i32`), and the caller's buffer. -/
structure QuickLoop where
  currentPos : Nat
  bufPos : Nat
  pos : Nat
  jumped : Bool
  maxJumps : Int
  buf : List UInt8
deriving DecidableEq, Repr

/-- How one iteration of the name loop ends. -/
inductive QuickStep where
  /-- The loop goes round again. -/
  | next (s : QuickLoop)
  /-- The zero byte: `break`. -/
  | finish (s : QuickLoop)
  /-- `return None`. -/
  | stop
deriving DecidableEq, Repr

section Checked

variable (w : Nat)

/-- The `for &b in label_bytes` loop: each byte lowercased into the buffer at `buf_pos`, or
`None` once the buffer is full. -/
def copyLabel : List UInt8 → List UInt8 → Nat → Except Panic (Option (List UInt8 × Nat))
  | [], buf, bufPos => .ok (some (buf, bufPos))
  | b :: rest, buf, bufPos =>
    if bufPos ≥ buf.length then .ok none
    else do
      let buf ← sliceSet buf bufPos (asciiLowerByte b)
      let bufPos ← usizeAdd w bufPos 1
      copyLabel rest buf bufPos

/-- `if buf_pos > 0 { … buf[buf_pos] = b'.'; buf_pos += 1; }`, or `None` when the buffer
is full. -/
def writeDot (buf : List UInt8) (bufPos : Nat) : Except Panic (Option (List UInt8 × Nat)) :=
  if bufPos > 0 then
    if bufPos ≥ buf.length then .ok none
    else do
      let buf ← sliceSet buf bufPos 0x2E
      let bufPos ← usizeAdd w bufPos 1
      pure (some (buf, bufPos))
  else .ok (some (buf, bufPos))

/-- The zero byte at `current_pos`: the question continues after it unless a pointer was
taken. -/
def endOfName (s : QuickLoop) : Except Panic QuickStep :=
  if !s.jumped then do
    let pos ← usizeAdd w s.currentPos 1
    pure (.finish { s with pos })
  else pure (.finish s)

/-- A compression pointer at `current_pos`, whose first byte is `len`. -/
def followPointer (packet : Bytes) (s : QuickLoop) (len : UInt8) : Except Panic QuickStep := do
  if packet.length < (← usizeAdd w s.currentPos 2) then return .stop
  let mut s := s
  if !s.jumped then
    s := { s with pos := ← usizeAdd w s.currentPos 2, jumped := true }
  let lo ← sliceGet packet (← usizeAdd w s.currentPos 1)
  let offset := ((len.toUInt16 &&& 0x3F) <<< 8) ||| lo.toUInt16
  if s.maxJumps - 1 = 0 then return .stop
  return .next { s with currentPos := offset.toNat, maxJumps := s.maxJumps - 1 }

/-- A label at `current_pos` of `len` bytes.  The end of the label, which the source adds at
each of its three uses, is added once. -/
def readLabel (packet : Bytes) (s : QuickLoop) (len : UInt8) : Except Panic QuickStep := do
  let currentPos ← usizeAdd w s.currentPos 1
  let labelEnd ← usizeAdd w currentPos len.toNat
  if packet.length < labelEnd then return .stop
  let some (buf, bufPos) ← writeDot w s.buf s.bufPos | return .stop
  let labelBytes ← sliceRange packet currentPos labelEnd
  let some (buf, bufPos) ← copyLabel w labelBytes buf bufPos | return .stop
  return .next { s with currentPos := labelEnd, bufPos, buf }

/-- One iteration of the name loop of `parse_quick`. -/
def quickStep (packet : Bytes) (s : QuickLoop) : Except Panic QuickStep :=
  if s.currentPos ≥ packet.length then .ok .stop
  else do
    let len ← sliceGet packet s.currentPos
    if len = 0 then endOfName w s
    else if len &&& 0xC0 = 0xC0 then followPointer w packet s len
    else readLabel w packet s len

/-! ## Every iteration makes progress -/

variable {w} {packet : Bytes} {s s' : QuickLoop} {len : UInt8}

theorem endOfName_ne_next : endOfName w s ≠ .ok (.next s') := by
  unfold endOfName
  split
  · intro h
    obtain ⟨_, -, h⟩ := bind_eq_ok.mp h
    cases h
  · nofun

/-- A pointer spends one unit of the budget, and goes on only while some is left. -/
theorem followPointer_next (h : followPointer w packet s len = .ok (.next s')) :
    s'.maxJumps = s.maxJumps - 1 ∧ s'.maxJumps ≠ 0 := by
  unfold followPointer at h
  simp only [bind, Except.bind, pure, Except.pure] at h
  repeat' split at h
  all_goals cases h
  all_goals exact ⟨rfl, ‹_›⟩

/-- A label moves the position past its bytes, which lie inside the packet. -/
theorem readLabel_next (h : readLabel w packet s len = .ok (.next s')) :
    s'.maxJumps = s.maxJumps ∧ s'.currentPos = s.currentPos + 1 + len.toNat ∧
      s'.currentPos ≤ packet.length := by
  unfold readLabel at h
  obtain ⟨c, hc, h⟩ := bind_eq_ok.mp h
  obtain ⟨e, he, h⟩ := bind_eq_ok.mp h
  rw [eq_add_of_usizeAdd hc] at he
  rw [eq_add_of_usizeAdd he] at h
  split at h
  · cases h
  · rename_i hfit
    have hs' : s'.maxJumps = s.maxJumps ∧ s'.currentPos = s.currentPos + 1 + len.toNat := by
      simp only [bind, Except.bind, pure, Except.pure] at h
      repeat' split at h
      all_goals cases h
      all_goals exact ⟨rfl, rfl⟩
    exact ⟨hs'.1, hs'.2, hs'.2 ▸ Nat.le_of_not_lt hfit⟩

/-- An iteration that goes round again either took a pointer, spending one unit of a budget
that is not used up, or passed a label, moving forward inside the packet. -/
theorem quickStep_next (h : quickStep w packet s = .ok (.next s')) :
    (s'.maxJumps = s.maxJumps - 1 ∧ s'.maxJumps ≠ 0) ∨
      (s'.maxJumps = s.maxJumps ∧ s.currentPos < s'.currentPos ∧
        s'.currentPos ≤ packet.length) := by
  unfold quickStep at h
  split at h
  · cases h
  obtain ⟨len, -, h⟩ := bind_eq_ok.mp h
  split at h
  · exact absurd h endOfName_ne_next
  split at h
  · exact .inl (followPointer_next h)
  · obtain ⟨hm, hc, hle⟩ := readLabel_next h
    exact .inr ⟨hm, by omega, hle⟩

theorem quickStep_next_maxJumps (h : quickStep w packet s = .ok (.next s'))
    (hs : 1 ≤ s.maxJumps) : 1 ≤ s'.maxJumps := by
  rcases quickStep_next h with ⟨hm, h0⟩ | ⟨hm, -⟩ <;> omega

/-- **The name loop makes progress.**  On every iteration that goes round again, the pair of
the pointer budget and the bytes left after the position decreases lexicographically:
a pointer, which may jump backwards, spends budget, and a label moves forward. -/
theorem quickStep_next_lex (h : quickStep w packet s = .ok (.next s')) (hs : 1 ≤ s.maxJumps) :
    Prod.Lex (· < ·) (· < ·) (s'.maxJumps.toNat, packet.length - s'.currentPos)
      (s.maxJumps.toNat, packet.length - s.currentPos) := by
  rcases quickStep_next h with ⟨hm, h0⟩ | ⟨hm, hlt, hle⟩
  · exact .left _ _ (by omega)
  · rw [hm]
    exact .right _ (by omega)

variable (w packet)

/-- The name loop of `parse_quick`, defined by well-founded recursion on the measure of
`quickStep_next_lex`.  The result is the state at the zero byte, or `None`. -/
def nameLoopChecked (s : QuickLoop) (hs : 1 ≤ s.maxJumps) : Except Panic (Option QuickLoop) :=
  match h : quickStep w packet s with
  | .error e => .error e
  | .ok .stop => .ok none
  | .ok (.finish s') => .ok (some s')
  | .ok (.next s') => nameLoopChecked s' (quickStep_next_maxJumps h hs)
termination_by (s.maxJumps.toNat, packet.length - s.currentPos)
decreasing_by exact quickStep_next_lex h hs

/-- `parse_quick`, as the source writes it. -/
def parseQuickChecked (buf : List UInt8) : Except Panic (Option QuickQuery) := do
  if packet.length < 12 then return none
  let txId := ofBe16 (← sliceGet packet 0) (← sliceGet packet 1)
  let qdCount := ofBe16 (← sliceGet packet 4) (← sliceGet packet 5)
  if qdCount = 0 then return none
  let some s ← nameLoopChecked w packet ⟨12, 0, 12, false, 5, buf⟩ (show (1 : Int) ≤ 5 by decide)
    | return none
  if packet.length < (← usizeAdd w s.pos 4) then return none
  let qtype := ofBe16 (← sliceGet packet s.pos) (← sliceGet packet (← usizeAdd w s.pos 1))
  let qclass :=
    ofBe16 (← sliceGet packet (← usizeAdd w s.pos 2)) (← sliceGet packet (← usizeAdd w s.pos 3))
  let some cs := utf8Decode (← sliceRange s.buf 0 s.bufPos) | return none
  return some ⟨txId, String.mk cs, qtype, qclass⟩

end Checked

/-! ## The buffer writes -/

section Buffer

variable {w : Nat}

/-- The label's bytes all fit: they are lowercased after the written prefix. -/
theorem copyLabel_some : ∀ (bytes buf : List UInt8) (bufPos : Nat),
    buf.length < 2 ^ w → bufPos + bytes.length ≤ buf.length →
    ∃ buf', copyLabel w bytes buf bufPos = .ok (some (buf', bufPos + bytes.length)) ∧
      buf'.length = buf.length ∧
      buf'.take (bufPos + bytes.length) = buf.take bufPos ++ bytes.map asciiLowerByte
  | [], buf, bufPos, _, _ => ⟨buf, rfl, rfl, by simp⟩
  | b :: rest, buf, bufPos, hw, h => by
    have hlt : bufPos < buf.length := by simp at h; omega
    obtain ⟨buf', hcopy, hlen, htake⟩ := copyLabel_some rest (buf.set bufPos (asciiLowerByte b))
      (bufPos + 1) (by simpa using hw) (by simp at h ⊢; omega)
    refine ⟨buf', ?_, by simpa using hlen, ?_⟩
    · rw [copyLabel, if_neg (Nat.not_le.mpr hlt), sliceSet_of_lt _ hlt, ok_bind,
        usizeAdd_of_lt (by omega), ok_bind, hcopy]
      simp only [List.length_cons]
      congr 3
      omega
    · have e : bufPos + (b :: rest).length = bufPos + 1 + rest.length := by simp; omega
      rw [e, htake, take_succ_set _ hlt]
      simp

/-- The label's bytes overrun the buffer: the copy stops with `None`. -/
theorem copyLabel_none : ∀ (bytes buf : List UInt8) (bufPos : Nat),
    buf.length < 2 ^ w → bufPos ≤ buf.length → buf.length < bufPos + bytes.length →
    copyLabel w bytes buf bufPos = .ok none
  | [], _, _, _, hle, h => by simp at h; omega
  | b :: rest, buf, bufPos, hw, _, h => by
    by_cases hfull : buf.length ≤ bufPos
    · rw [copyLabel, if_pos hfull]
    · rw [copyLabel, if_neg hfull, sliceSet_of_lt _ (Nat.lt_of_not_le hfull), ok_bind,
        usizeAdd_of_lt (by omega), ok_bind]
      exact copyLabel_none rest _ _ (by simpa using hw) (by simp; omega) (by simp at h ⊢; omega)

theorem writeDot_zero (buf : List UInt8) : writeDot w buf 0 = .ok (some (buf, 0)) := rfl

theorem writeDot_full {buf : List UInt8} {bufPos : Nat} (h0 : 0 < bufPos)
    (h : buf.length ≤ bufPos) : writeDot w buf bufPos = .ok none := by
  rw [writeDot, if_pos h0, if_pos h]

theorem writeDot_dot {buf : List UInt8} {bufPos : Nat} (hw : buf.length < 2 ^ w) (h0 : 0 < bufPos)
    (h : bufPos < buf.length) :
    writeDot w buf bufPos = .ok (some (buf.set bufPos 0x2E, bufPos + 1)) := by
  rw [writeDot, if_pos h0, if_neg (Nat.not_le.mpr h), sliceSet_of_lt _ h, ok_bind,
    usizeAdd_of_lt (by omega), ok_bind]
  rfl

/-- The dot fits: it follows a non-empty written prefix. -/
theorem writeDot_some {buf : List UInt8} {bufPos : Nat} (hw : buf.length < 2 ^ w)
    (hn : bufPos ≤ buf.length)
    (hfit : (if buf.take bufPos = [] then [] else buf.take bufPos ++ [0x2E]).length ≤ buf.length) :
    ∃ buf', writeDot w buf bufPos = .ok (some (buf',
        (if buf.take bufPos = [] then [] else buf.take bufPos ++ [(0x2E : UInt8)]).length)) ∧
      buf'.length = buf.length ∧
      buf'.take (if buf.take bufPos = [] then [] else buf.take bufPos ++ [(0x2E : UInt8)]).length =
        if buf.take bufPos = [] then [] else buf.take bufPos ++ [0x2E] := by
  by_cases h0 : bufPos = 0
  · subst h0
    exact ⟨buf, by simp [writeDot_zero], rfl, by simp⟩
  · have hlen : (buf.take bufPos).length = bufPos := by simp; omega
    have hne : buf.take bufPos ≠ [] := List.ne_nil_of_length_pos (by omega)
    rw [if_neg hne, List.length_append, hlen, List.length_singleton] at hfit
    simp only [if_neg hne, List.length_append, hlen, List.length_singleton]
    exact ⟨_, writeDot_dot hw (Nat.pos_of_ne_zero h0) (by omega), by simp,
      take_succ_set _ (by omega)⟩

theorem length_dotted {buf : List UInt8} {bufPos : Nat} (hn : bufPos ≤ buf.length) :
    (if buf.take bufPos = [] then [] else buf.take bufPos ++ [(0x2E : UInt8)]).length =
      if bufPos = 0 then 0 else bufPos + 1 := by
  by_cases h0 : bufPos = 0
  · simp [h0]
  · have hne : buf.take bufPos ≠ [] := List.ne_nil_of_length_pos (by simp; omega)
    simp [hne, h0]
    omega

end Buffer

/-! ## The walk at each kind of byte -/

section Walk

variable (packet : Bytes) (bufLen : Nat) {cur : Nat} (buf : List UInt8)

theorem walkLabels_root (hget : packet[cur]? = some 0) :
    walkLabels packet bufLen (packet.drop cur) 0 cur buf = some (.root (cur + 1), buf) := by
  rw [drop_eq_cons_of_getElem? hget]
  rfl

theorem walkLabels_pointer {len lo : UInt8} (hget : packet[cur]? = some len)
    (hptr : len &&& 0xC0 = 0xC0) (hlo : packet[cur + 1]? = some lo) :
    walkLabels packet bufLen (packet.drop cur) 0 cur buf =
      some (.pointer cur ((len.toNat % 0x40) * 0x100 + lo.toNat), buf) := by
  have h0 : len ≠ 0 := fun h ↦ by subst h; exact absurd hptr (by decide)
  rw [drop_eq_cons_of_getElem? hget, drop_eq_cons_of_getElem? hlo]
  simp [walkLabels, h0, hptr]

theorem walkLabels_pointer_short {len : UInt8} (hget : packet[cur]? = some len)
    (hptr : len &&& 0xC0 = 0xC0) (h : packet.length ≤ cur + 1) :
    walkLabels packet bufLen (packet.drop cur) 0 cur buf = none := by
  have h0 : len ≠ 0 := fun h ↦ by subst h; exact absurd hptr (by decide)
  rw [drop_eq_cons_of_getElem? hget, List.drop_eq_nil_of_le h]
  simp [walkLabels, h0, hptr]

theorem walkLabels_label_short {len : UInt8} (hget : packet[cur]? = some len) (h0 : len ≠ 0)
    (hptr : len &&& 0xC0 ≠ 0xC0) (h : packet.length < cur + 1 + len.toNat) :
    walkLabels packet bufLen (packet.drop cur) 0 cur buf = none := by
  rw [drop_eq_cons_of_getElem? hget]
  simp [walkLabels, h0, hptr, h]

/-- `nameLoop` reads only what the walk from its position returns. -/
theorem nameLoop_congr {k cur' : Nat} {jumped : Bool} {p : Nat} {buf' : List UInt8}
    (h : walkLabels packet bufLen (packet.drop cur) 0 cur buf =
      walkLabels packet bufLen (packet.drop cur') 0 cur' buf') :
    nameLoop packet bufLen k cur jumped p buf = nameLoop packet bufLen k cur' jumped p buf' := by
  unfold nameLoop
  rw [h]

end Walk

/-- The offset of a pointer, `((len & 0x3F) << 8) | lo` on `u16`. -/
theorem toNat_pointerOffset (len lo : UInt8) :
    (((len.toUInt16 &&& 0x3F) <<< 8) ||| lo.toUInt16).toNat = (len.toNat % 0x40) * 0x100 + lo.toNat := by
  have hlen : len.toNat < 256 := len.toNat_lt_size
  have hlo : lo.toNat < 256 := lo.toNat_lt_size
  have hand : (len.toUInt16 &&& 0x3F).toNat = len.toNat % 2 ^ 6 :=
    (BitVec.toNat_and _ _).trans (Nat.and_pow_two_sub_one_eq_mod _ 6)
  have hshift : ((len.toUInt16 &&& 0x3F) <<< 8).toNat = 2 ^ 8 * (len.toNat % 0x40) := by
    show ((len.toUInt16 &&& 0x3F).toBitVec <<< ((8 : UInt16) % 16).toBitVec.toNat).toNat = _
    rw [BitVec.toNat_shiftLeft]
    change (len.toUInt16 &&& 0x3F).toNat <<< 8 % 2 ^ 16 = _
    rw [hand, Nat.shiftLeft_eq, Nat.mod_eq_of_lt (by omega)]
    omega
  rw [show ((((len.toUInt16 &&& 0x3F) <<< 8) ||| lo.toUInt16).toNat) =
      ((len.toUInt16 &&& 0x3F) <<< 8).toNat ||| lo.toNat from BitVec.toNat_or _ _, hshift,
    lor_eq_add_of_lt (by omega : lo.toNat < 2 ^ 8)]
  omega

/-! ## The checked loop refines `nameLoop` -/

/-- A state of the checked loop over a buffer of `bufLen` bytes: budget left, the written
prefix inside the buffer, and the question's position inside the packet. -/
structure QuickLoop.Valid (packet : Bytes) (bufLen : Nat) (s : QuickLoop) : Prop where
  maxJumps : 1 ≤ s.maxJumps
  buf : s.buf.length = bufLen
  bufPos : s.bufPos ≤ bufLen
  pos : s.pos ≤ packet.length

/-- What a state of the checked loop stands for: `nameLoop` from its position, with its
budget and flags, over the bytes it has written. -/
def QuickLoop.run (packet : Bytes) (bufLen : Nat) (s : QuickLoop) : Option (Nat × List UInt8) :=
  nameLoop packet bufLen s.maxJumps.toNat s.currentPos s.jumped s.pos (s.buf.take s.bufPos)

/-- An iteration from `s` that `nameLoop` agrees with, to a valid state. -/
def QuickStep.Sim (packet : Bytes) (bufLen : Nat) (s : QuickLoop) : QuickStep → Prop
  | .stop => s.run packet bufLen = none
  | .finish s' => s.run packet bufLen = some (s'.pos, s'.buf.take s'.bufPos) ∧ s'.Valid packet bufLen
  | .next s' => s.run packet bufLen = s'.run packet bufLen ∧ s'.Valid packet bufLen

section Sim

variable {w : Nat} {packet : Bytes} {bufLen : Nat} {s : QuickLoop} {len : UInt8}
  (hroom : packet.length + 256 ≤ 2 ^ w) (hv : s.Valid packet bufLen)
  (hcur : s.currentPos < packet.length) (hget : packet[s.currentPos]? = some len)
include hroom hv hcur hget

theorem endOfName_sim (h0 : len = 0) : ∃ r, endOfName w s = .ok r ∧ r.Sim packet bufLen s := by
  subst h0
  have hwalk := walkLabels_root packet bufLen (s.buf.take s.bufPos) hget
  cases hj : s.jumped
  · refine ⟨.finish { s with pos := s.currentPos + 1 },
      by rw [endOfName, hj, Bool.not_false, if_pos rfl, usizeAdd_of_lt (by omega)]; rfl,
      ?_, ⟨hv.maxJumps, hv.buf, hv.bufPos, by simp; omega⟩⟩
    simp [QuickLoop.run, nameLoop_of_root packet bufLen hwalk, hj]
  · refine ⟨.finish s, by rw [endOfName, hj]; rfl, ?_, hv⟩
    simp [QuickLoop.run, nameLoop_of_root packet bufLen hwalk, hj]

theorem followPointer_sim (hptr : len &&& 0xC0 = 0xC0) :
    ∃ r, followPointer w packet s len = .ok r ∧ r.Sim packet bufLen s := by
  obtain ⟨cur, bufPos, pos, jumped, m, buf⟩ := s
  replace hcur : cur < packet.length := hcur
  replace hget : packet[cur]? = some len := hget
  have hm1 : 1 ≤ m := hv.maxJumps
  have hpos : pos ≤ packet.length := hv.pos
  have hw2 : cur + 2 < 2 ^ w := by omega
  by_cases hshort : packet.length < cur + 2
  · refine ⟨.stop, by rw [followPointer, usizeAdd_of_lt hw2, ok_bind, if_pos hshort]; rfl, ?_⟩
    simp only [QuickStep.Sim, QuickLoop.run]
    exact nameLoop_of_none packet bufLen (walkLabels_pointer_short packet bufLen _ hget hptr (by omega))
  have hlo : cur + 1 < packet.length := by omega
  have hwalk := walkLabels_pointer packet bufLen (buf.take bufPos) hget hptr
    (List.getElem?_eq_getElem hlo)
  by_cases hm : m - 1 = 0
  · refine ⟨.stop, ?_, ?_⟩
    · cases jumped <;> simp [followPointer, usizeAdd_of_lt hw2, usizeAdd_of_lt (by omega : cur + 1 < 2 ^ w),
        sliceGet_of_lt hlo, hshort, hm]
    · have hk : m.toNat = 1 := by omega
      simp only [QuickStep.Sim, QuickLoop.run, hk]
      exact nameLoop_one_of_pointer packet bufLen hwalk
  · refine ⟨.next ⟨(((len.toUInt16 &&& 0x3F) <<< 8) ||| packet[cur + 1].toUInt16).toNat, bufPos,
      if jumped then pos else cur + 2, true, m - 1, buf⟩, ?_, ?_, ?_⟩
    · cases jumped <;> simp [followPointer, usizeAdd_of_lt hw2, usizeAdd_of_lt (by omega : cur + 1 < 2 ^ w),
        sliceGet_of_lt hlo, hshort, hm]
    · obtain ⟨k, hk, hk'⟩ : ∃ k, m.toNat = k + 2 ∧ (m - 1).toNat = k + 1 :=
        ⟨(m - 2).toNat, by omega, by omega⟩
      simp only [QuickLoop.run, hk, hk']
      rw [nameLoop_of_pointer packet bufLen hwalk, toNat_pointerOffset]
    · exact ⟨by simp; omega, hv.buf, hv.bufPos, by dsimp only; split <;> omega⟩

theorem readLabel_sim (hbuf : bufLen < 2 ^ w) (h0 : len ≠ 0) (hptr : len &&& 0xC0 ≠ 0xC0) :
    ∃ r, readLabel w packet s len = .ok r ∧ r.Sim packet bufLen s := by
  obtain ⟨cur, bufPos, pos, jumped, m, buf⟩ := s
  replace hcur : cur < packet.length := hcur
  replace hget : packet[cur]? = some len := hget
  have hblen : buf.length = bufLen := hv.buf
  have hn : bufPos ≤ buf.length := hblen ▸ hv.bufPos
  have hL : len.toNat < 256 := len.toNat_lt_size
  have h1 : cur + 1 < 2 ^ w := by omega
  have h2 : cur + 1 + len.toNat < 2 ^ w := by omega
  by_cases hshort : packet.length < cur + 1 + len.toNat
  · refine ⟨.stop, ?_, ?_⟩
    · rw [readLabel, usizeAdd_of_lt h1, ok_bind, usizeAdd_of_lt h2, ok_bind, if_pos hshort]
      rfl
    · simp only [QuickStep.Sim, QuickLoop.run]
      exact nameLoop_of_none packet bufLen (walkLabels_label_short packet bufLen _ hget h0 hptr hshort)
  have hfit : cur + 1 + len.toNat ≤ packet.length := Nat.le_of_not_lt hshort
  have hwalk := walkLabels_label packet bufLen hget h0 hptr hfit (by simp; omega : (buf.take bufPos).length ≤ bufLen)
  set label := (packet.drop (cur + 1)).take len.toNat with hlabel_def
  have hlabel : label.length = len.toNat := by
    rw [hlabel_def, List.length_take, List.length_drop]
    omega
  have hslice : sliceRange packet (cur + 1) (cur + 1 + len.toNat) = .ok label := by
    rw [sliceRange_of_le (by omega) hfit, Nat.add_sub_cancel_left]
  set dot : List UInt8 := if buf.take bufPos = [] then [] else buf.take bufPos ++ [0x2E] with hdot_def
  have happ : appendLabel (buf.take bufPos) label = dot ++ label.map asciiLowerByte := rfl
  have hdotlen : dot.length = if bufPos = 0 then 0 else bufPos + 1 := length_dotted hn
  have hrun : readLabel w packet ⟨cur, bufPos, pos, jumped, m, buf⟩ len =
      (do
        let some (buf, bufPos) ← writeDot w buf bufPos | return .stop
        let some (buf, bufPos) ← copyLabel w label buf bufPos | return .stop
        return .next ⟨cur + 1 + len.toNat, bufPos, pos, jumped, m, buf⟩) := by
    rw [readLabel, usizeAdd_of_lt h1, ok_bind, usizeAdd_of_lt h2, ok_bind, if_neg hshort]
    simp only [pure_bind, hslice, ok_bind]
  rw [hrun]
  by_cases hfits : (appendLabel (buf.take bufPos) label).length ≤ bufLen
  · have hroom' : dot.length + label.length ≤ buf.length := by
      rw [happ] at hfits; simp at hfits; omega
    obtain ⟨B1, hdot, hB1len, hB1take⟩ :=
      writeDot_some (by omega : buf.length < 2 ^ w) hn (by rw [← hdot_def]; omega)
    rw [← hdot_def] at hdot hB1take
    obtain ⟨B2, hcopy, hB2len, hB2take⟩ :=
      copyLabel_some label B1 dot.length (by omega : B1.length < 2 ^ w) (by omega)
    refine ⟨.next ⟨cur + 1 + len.toNat, dot.length + label.length, pos, jumped, m, B2⟩, ?_, ?_, ?_⟩
    · simp only [hdot, ok_bind, hcopy]
      rfl
    · simp only [QuickLoop.run]
      rw [hB2take, hB1take, ← happ]
      exact nameLoop_congr packet bufLen _ (hwalk.trans (if_pos hfits))
    · exact ⟨hv.maxJumps, hB2len.trans (hB1len.trans hblen), by dsimp only; omega, hv.pos⟩
  · refine ⟨.stop, ?_, nameLoop_of_none packet bufLen (hwalk.trans (if_neg hfits))⟩
    by_cases hfull : 0 < bufPos ∧ buf.length ≤ bufPos
    · simp only [writeDot_full hfull.1 hfull.2, ok_bind]
      rfl
    · have hdotle : dot.length ≤ buf.length := by rw [hdotlen]; split <;> omega
      obtain ⟨B1, hdot, hB1len, -⟩ :=
        writeDot_some (by omega : buf.length < 2 ^ w) hn (by rw [← hdot_def]; exact hdotle)
      rw [← hdot_def] at hdot
      have hover : B1.length < dot.length + label.length := by
        rw [happ] at hfits; simp at hfits; omega
      simp only [hdot, ok_bind,
        copyLabel_none label B1 dot.length (by omega : B1.length < 2 ^ w) (by omega) hover]
      rfl

end Sim

/-- A step relation reads the state only through what it stands for. -/
theorem QuickStep.sim_of_run_eq {packet : Bytes} {bufLen : Nat} {s s' : QuickLoop} {r : QuickStep}
    (h : s.run packet bufLen = s'.run packet bufLen) (hr : r.Sim packet bufLen s') :
    r.Sim packet bufLen s := by
  cases r <;> simpa only [QuickStep.Sim, h] using hr

section Loop

variable {w : Nat} {packet : Bytes} {bufLen : Nat}
  (hroom : packet.length + 256 ≤ 2 ^ w) (hbuf : bufLen < 2 ^ w)
include hroom hbuf

/-- **One iteration refines `nameLoop`.**  From a valid state no iteration panics, and it
ends as `nameLoop` does or goes on to a valid state that stands for the same result. -/
theorem quickStep_sim {s : QuickLoop} (hv : s.Valid packet bufLen) :
    ∃ r, quickStep w packet s = .ok r ∧ r.Sim packet bufLen s := by
  by_cases hcur : s.currentPos < packet.length
  · have hget := List.getElem?_eq_getElem hcur
    rw [quickStep, if_neg (Nat.not_le_of_lt hcur), sliceGet_of_lt hcur, ok_bind]
    split_ifs with h0 hptr
    · exact endOfName_sim hroom hv hcur hget h0
    · exact followPointer_sim hroom hv hcur hget hptr
    · exact readLabel_sim hroom hv hcur hget hbuf h0 hptr
  · refine ⟨.stop, if_pos (Nat.le_of_not_lt hcur), nameLoop_of_none packet bufLen ?_⟩
    rw [List.drop_eq_nil_of_le (Nat.le_of_not_lt hcur), walkLabels]

/-- **The checked name loop refines `nameLoop`.**  From a valid state it does not panic, and
it ends at the zero byte where `nameLoop` does, with the same position and buffer, or returns
`None` where `nameLoop` does. -/
theorem nameLoopChecked_sim (s : QuickLoop) (hv : s.Valid packet bufLen) :
    ∃ r, nameLoopChecked w packet s hv.maxJumps = .ok r ∧
      (r.elim .stop .finish : QuickStep).Sim packet bufLen s := by
  obtain ⟨r, hr, hsim⟩ := quickStep_sim hroom hbuf hv
  rw [nameLoopChecked]
  split
  next e he => exact absurd (hr.symm.trans he) nofun
  next he => exact ⟨none, rfl, by rw [hr] at he; cases he; exact hsim⟩
  next s' he => exact ⟨some s', rfl, by rw [hr] at he; cases he; exact hsim⟩
  next s' he =>
    rw [hr] at he
    cases he
    obtain ⟨r', hr', hsim'⟩ := nameLoopChecked_sim s' hsim.2
    exact ⟨r', hr', QuickStep.sim_of_run_eq hsim.1 hsim'⟩
termination_by (s.maxJumps.toNat, packet.length - s.currentPos)
decreasing_by exact quickStep_next_lex hr hv.maxJumps

end Loop

/-- **`parse_quick` refines `parseQuick`.**  With `256` values of `usize` to spare above the
packet, nothing panics, and the result is `parseQuick`'s with the buffer's length. -/
theorem parseQuickChecked_eq {w : Nat} {packet buf : List UInt8}
    (hroom : packet.length + 256 ≤ 2 ^ w) (hbuf : buf.length < 2 ^ w) :
    parseQuickChecked w packet buf = .ok (parseQuick packet buf.length) := by
  unfold parseQuickChecked parseQuick
  by_cases h12 : packet.length < 12
  · rw [if_pos h12, if_pos h12]
    rfl
  rw [if_neg h12, if_neg h12]
  have hget : ∀ i < 12, sliceGet packet i = .ok (packet.getD i 0) := fun _ hi ↦
    sliceGet_eq_getD 0 (by omega)
  simp only [hget 0 (by decide), hget 1 (by decide), hget 4 (by decide), hget 5 (by decide), ok_bind,
    pure_bind]
  by_cases hqd : ofBe16 (packet.getD 4 0) (packet.getD 5 0) = 0
  · rw [if_pos hqd, if_pos hqd]
    rfl
  rw [if_neg hqd, if_neg hqd]
  obtain ⟨r, hr, hsim⟩ := nameLoopChecked_sim hroom hbuf ⟨12, 0, 12, false, 5, buf⟩
    ⟨show (1 : Int) ≤ 5 by decide, rfl, Nat.zero_le _, show 12 ≤ packet.length by omega⟩
  rw [hr, ok_bind]
  cases r with
  | none =>
    simp only [Option.elim, QuickStep.Sim, QuickLoop.run, List.take_zero,
      show (5 : Int).toNat = 5 from rfl] at hsim
    rw [hsim]
    rfl
  | some s' =>
    obtain ⟨hrun, hv'⟩ := hsim
    simp only [QuickLoop.run, List.take_zero, show (5 : Int).toNat = 5 from rfl] at hrun
    have hpos := hv'.pos
    rw [hrun]
    dsimp only
    rw [usizeAdd_of_lt (by omega : s'.pos + 4 < 2 ^ w), ok_bind]
    by_cases hp : packet.length < s'.pos + 4
    · rw [if_pos hp, if_pos hp]
      rfl
    rw [if_neg hp, if_neg hp]
    have hbufPos : s'.bufPos ≤ s'.buf.length := hv'.buf ▸ hv'.bufPos
    simp (disch := omega) only [usizeAdd_of_lt, sliceGet_of_lt, ok_bind, List.getD_eq_getElem,
      sliceRange_of_le (Nat.zero_le _) hbufPos, List.drop_zero, Nat.sub_zero]
    cases utf8Decode (s'.buf.take s'.bufPos) <;> rfl

/-- **`parse_quick` terminates and stays in bounds.**  Every iteration that goes round again
keeps budget and decreases the pair of the budget and the bytes left lexicographically; and
at every pointer width `w ≥ 16` that `usize` can have, on every packet and buffer that fit in
a slice, the name loop ends and nothing panics. -/
theorem parseQuick_terminates_in_bounds :
    (∀ (w : Nat) (packet : Bytes) (s s' : QuickLoop), 1 ≤ s.maxJumps →
      quickStep w packet s = .ok (.next s') →
      1 ≤ s'.maxJumps ∧ Prod.Lex (· < ·) (· < ·) (s'.maxJumps.toNat, packet.length - s'.currentPos)
        (s.maxJumps.toNat, packet.length - s.currentPos)) ∧
    ∀ (w : Nat), 16 ≤ w → ∀ (packet buf : List UInt8), packet.length < 2 ^ (w - 1) →
      buf.length < 2 ^ (w - 1) → parseQuickChecked w packet buf = .ok (parseQuick packet buf.length) := by
  refine ⟨fun w packet s s' hs h ↦ ⟨quickStep_next_maxJumps h hs, quickStep_next_lex h hs⟩, ?_⟩
  intro w hw packet buf hp hb
  have hhalf := Nat.two_pow_pred_add_two_pow_pred (by omega : 0 < w)
  have h8 : 2 ^ 8 ≤ 2 ^ (w - 1) := Nat.pow_le_pow_right (by decide) (by omega)
  exact parseQuickChecked_eq (by omega) (by omega)

end KixDns
