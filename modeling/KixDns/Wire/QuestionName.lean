import Mathlib.Data.List.GetD
import Mathlib.Data.String.Basic
import KixDns.Engine.State

/-!
# The grammar `parse_quick` accepts

`parse_quick` reads the first question name with a loop of its own instead of the full
decoder.  `parseQuick_eq_some_iff` says which packets it accepts and what it returns, by a
grammar of names in the manner of RFC 1035 §4.1.4: `LabelRun` reads labels up to a zero
byte or a compression pointer, and `NameAt` follows the pointers.  Two points of the
grammar are the loop's own.  A length byte starts a label whenever its two top bits are
not both set, so the reserved lengths `0x40`–`0xBF` read as labels of 64 to 191 bytes.
And `max_jumps` starts at 5 and the loop gives up when it reaches 0, so at most four
pointers are followed.

The text `parse_quick` returns joins the lowercased labels with `.`, whatever bytes the
labels hold.  A label that holds a `.` therefore reads like two labels, and two different
questions give one text, one cache key and one single-flight slot.

A query built from a name of at most 253 octets reads back as its id, lowercased name,
type and class (`parseQuick_encodeQuery`).
-/

namespace KixDns

/-! ## Names as RFC 1035 lays them out -/

/-- `LabelRun packet pos labels stop`: from `pos` on the packet holds `labels`, each after
its length byte, and then `stop`, a zero byte or a compression pointer. -/
inductive LabelRun (packet : Bytes) : Nat → List Bytes → LabelsEnd → Prop
  /-- The zero byte that ends a name. -/
  | root {pos : Nat} : packet[pos]? = some 0 → LabelRun packet pos [] (.root (pos + 1))
  /-- A compression pointer: two bytes, the first with both top bits set. -/
  | pointer {pos : Nat} {hi lo : UInt8} : packet[pos]? = some hi → hi &&& 0xC0 = 0xC0 →
      packet[pos + 1]? = some lo →
      LabelRun packet pos [] (.pointer pos ((hi.toNat % 0x40) * 0x100 + lo.toNat))
  /-- A label: a length byte that is neither `0` nor a pointer, then that many bytes. -/
  | label {pos : Nat} {len : UInt8} {rest : List Bytes} {stop : LabelsEnd} :
      packet[pos]? = some len → len ≠ 0 → len &&& 0xC0 ≠ 0xC0 →
      pos + 1 + len.toNat ≤ packet.length → LabelRun packet (pos + 1 + len.toNat) rest stop →
      LabelRun packet pos ((packet.drop (pos + 1)).take len.toNat :: rest) stop

/-- `NameAt packet hops pos labels next`: the name at `pos` has the labels `labels` and
follows at most `hops` pointers; the question goes on at `next`, after the zero byte or
after the first pointer. -/
inductive NameAt (packet : Bytes) : Nat → Nat → List Bytes → Nat → Prop
  | root {hops pos : Nat} {labels : List Bytes} {next : Nat} :
      LabelRun packet pos labels (.root next) → NameAt packet hops pos labels next
  | pointer {hops pos : Nat} {labels labels' : List Bytes} {place offset next : Nat} :
      LabelRun packet pos labels (.pointer place offset) → NameAt packet hops offset labels' next →
      NameAt packet (hops + 1) pos (labels ++ labels') (place + 2)

/-- The text of a name: its labels lowercased, with a `.` between two labels. -/
def nameText (labels : List Bytes) : List UInt8 :=
  [0x2E].intercalate (labels.map (·.map asciiLowerByte))

theorem LabelRun.ne_nil {packet : Bytes} {pos : Nat} {labels : List Bytes} {stop : LabelsEnd}
    (h : LabelRun packet pos labels stop) : ∀ l ∈ labels, l ≠ [] := by
  induction h with
  | root _ => simp
  | pointer _ _ _ => simp
  | label _ h0 _ hfit _ ih =>
    refine List.forall_mem_cons.mpr ⟨fun hnil ↦ h0 ?_, ih⟩
    have hlen := congrArg List.length hnil
    simp only [List.length_take, List.length_drop, List.length_nil] at hlen
    exact UInt8.toNat.inj (by simp; omega)

theorem NameAt.ne_nil {packet : Bytes} {hops pos : Nat} {labels : List Bytes} {next : Nat}
    (h : NameAt packet hops pos labels next) : ∀ l ∈ labels, l ≠ [] := by
  induction h with
  | root hrun => exact hrun.ne_nil
  | pointer hrun _ ih => exact List.forall_mem_append.mpr ⟨hrun.ne_nil, ih⟩

/-- A packet holds one run of labels at each position: the grammar is unambiguous. -/
theorem LabelRun.unique {packet : Bytes} {pos : Nat} {labels labels' : List Bytes}
    {stop stop' : LabelsEnd} (h : LabelRun packet pos labels stop)
    (h' : LabelRun packet pos labels' stop') : labels = labels' ∧ stop = stop' := by
  induction h generalizing labels' stop' with
  | root hget =>
    cases h' with
    | root _ => exact ⟨rfl, rfl⟩
    | pointer hget' hptr _ =>
      cases Option.some.inj (hget.symm.trans hget'); exact absurd hptr (by decide)
    | label hget' h0 _ _ _ => exact absurd (Option.some.inj (hget.symm.trans hget')).symm h0
  | pointer hget hptr hlo =>
    cases h' with
    | root hget' => cases Option.some.inj (hget.symm.trans hget'); exact absurd hptr (by decide)
    | pointer hget' _ hlo' =>
      cases Option.some.inj (hget.symm.trans hget'); cases Option.some.inj (hlo.symm.trans hlo')
      exact ⟨rfl, rfl⟩
    | label hget' _ hptr' _ _ => cases Option.some.inj (hget.symm.trans hget'); exact absurd hptr hptr'
  | label hget h0 hptr _ _ ih =>
    cases h' with
    | root hget' => exact absurd (Option.some.inj (hget.symm.trans hget')) h0
    | pointer hget' hptr' _ => cases Option.some.inj (hget.symm.trans hget'); exact absurd hptr' hptr
    | label hget' _ _ _ hrun' =>
      cases Option.some.inj (hget.symm.trans hget')
      obtain ⟨rfl, rfl⟩ := ih hrun'
      exact ⟨rfl, rfl⟩

/-- The name at a position has one list of labels and one end, whatever bound on pointers
it is read with. -/
theorem NameAt.unique {packet : Bytes} {hops hops' pos : Nat} {labels labels' : List Bytes}
    {next next' : Nat} (h : NameAt packet hops pos labels next)
    (h' : NameAt packet hops' pos labels' next') : labels = labels' ∧ next = next' := by
  induction h generalizing hops' labels' next' with
  | root hrun =>
    cases h' with
    | root hrun' => obtain ⟨rfl, h⟩ := hrun.unique hrun'; cases h; exact ⟨rfl, rfl⟩
    | pointer hrun' _ => cases (hrun.unique hrun').2
  | pointer hrun _ ih =>
    cases h' with
    | root hrun' => cases (hrun.unique hrun').2
    | pointer hrun' hn' =>
      obtain ⟨rfl, h⟩ := hrun.unique hrun'
      cases h
      obtain ⟨rfl, -⟩ := ih hn'
      exact ⟨rfl, rfl⟩

/-! ## The buffer of the walk -/

/-- The buffer after the walk has copied one more label: a `.` first unless the buffer is
still empty. -/
def appendLabel (buf : List UInt8) (label : Bytes) : List UInt8 :=
  (if buf = [] then [] else buf ++ [0x2E]) ++ label.map asciiLowerByte

/-- The buffer after the walk has copied `labels`. -/
def appendLabels (buf : List UInt8) (labels : List Bytes) : List UInt8 :=
  labels.foldl appendLabel buf

@[simp] theorem appendLabels_nil (buf : List UInt8) : appendLabels buf [] = buf := rfl

@[simp] theorem appendLabels_cons (buf : List UInt8) (l : Bytes) (ls : List Bytes) :
    appendLabels buf (l :: ls) = appendLabels (appendLabel buf l) ls := rfl

theorem appendLabels_append (buf : List UInt8) (ls ls' : List Bytes) :
    appendLabels buf (ls ++ ls') = appendLabels (appendLabels buf ls) ls' :=
  List.foldl_append _ _ _ _

theorem length_le_appendLabel (buf : List UInt8) (l : Bytes) :
    buf.length ≤ (appendLabel buf l).length := by
  unfold appendLabel
  split <;> simp_all

theorem length_le_appendLabels (buf : List UInt8) (ls : List Bytes) :
    buf.length ≤ (appendLabels buf ls).length := by
  induction ls generalizing buf with
  | nil => exact le_rfl
  | cons l ls ih => exact (length_le_appendLabel buf l).trans (ih _)

theorem nameText_cons_cons (l l' : Bytes) (ls : List Bytes) :
    nameText (l :: l' :: ls) = l.map asciiLowerByte ++ 0x2E :: nameText (l' :: ls) := by
  simp [nameText, List.intercalate]

/-- Copying non-empty labels into a buffer appends their text, after a `.` unless the
buffer is empty. -/
theorem appendLabels_cons_eq (buf : List UInt8) (l : Bytes) (ls : List Bytes)
    (hne : ∀ x ∈ l :: ls, x ≠ []) :
    appendLabels buf (l :: ls) = (if buf = [] then [] else buf ++ [0x2E]) ++ nameText (l :: ls) := by
  induction ls generalizing buf l with
  | nil => simp [appendLabel, nameText, List.intercalate]
  | cons l' ls ih =>
    have hl : appendLabel buf l ≠ [] := by
      simp [appendLabel, hne l (List.mem_cons_self l _)]
    rw [appendLabels_cons, ih _ _ fun x hx ↦ hne x (List.mem_cons_of_mem l hx), if_neg hl,
      nameText_cons_cons]
    simp [appendLabel]

theorem appendLabels_nil_eq_nameText (labels : List Bytes) (hne : ∀ l ∈ labels, l ≠ []) :
    appendLabels [] labels = nameText labels := by
  cases labels with
  | nil => rfl
  | cons l ls => simp [appendLabels_cons_eq [] l ls hne]

/-! ## The walk decides `LabelRun` -/

theorem drop_eq_cons_of_getElem? {l : Bytes} {n : Nat} {a : UInt8} (h : l[n]? = some a) :
    l.drop n = a :: l.drop (n + 1) := by
  obtain ⟨hn, rfl⟩ := List.getElem?_eq_some_iff.mp h
  exact List.drop_eq_getElem_cons hn

theorem getElem?_of_drop_eq_cons {l r : Bytes} {n : Nat} {a : UInt8} (h : l.drop n = a :: r) :
    l[n]? = some a := by
  have h0 : (l.drop n)[0]? = some a := by rw [h]; simp
  rwa [List.getElem?_drop, Nat.add_zero] at h0

section Walk

variable (packet : Bytes) (bufLen : Nat)

/-- Copying `n` label bytes: the buffer takes them lowercased if they fit. -/
theorem walkLabels_copy (n : Nat) : ∀ (rest : List UInt8) (cur : Nat) (buf : List UInt8),
    n ≤ rest.length → buf.length ≤ bufLen →
    walkLabels packet bufLen rest n cur buf =
      if buf.length + n ≤ bufLen then
        walkLabels packet bufLen (rest.drop n) 0 (cur + n) (buf ++ (rest.take n).map asciiLowerByte)
      else none := by
  induction n with
  | zero => intro rest cur buf _ hbuf; simp [hbuf]
  | succ n ih =>
    intro rest cur buf hn hbuf
    cases rest with
    | nil => simp at hn
    | cons b rest =>
      simp only [walkLabels]
      by_cases hfull : bufLen ≤ buf.length
      · simp only [ge_iff_le, hfull, if_true]
        rw [if_neg (by omega)]
      · simp only [ge_iff_le, hfull, if_false]
        rw [ih rest (cur + 1) _ (by simp at hn; omega) (by simp; omega)]
        have e1 : (buf ++ [asciiLowerByte b]).length + n = buf.length + (n + 1) := by simp; omega
        have e2 : cur + 1 + n = cur + (n + 1) := by omega
        rw [e1, e2]
        simp

/-- A label at `pos`: the walk copies it, after a `.` unless the buffer is empty, and goes on
after it. -/
theorem walkLabels_label {pos : Nat} {len : UInt8} {buf : List UInt8}
    (hget : packet[pos]? = some len) (h0 : len ≠ 0) (hptr : len &&& 0xC0 ≠ 0xC0)
    (hfit : pos + 1 + len.toNat ≤ packet.length) (hbuf : buf.length ≤ bufLen) :
    walkLabels packet bufLen (packet.drop pos) 0 pos buf =
      if (appendLabel buf ((packet.drop (pos + 1)).take len.toNat)).length ≤ bufLen then
        walkLabels packet bufLen (packet.drop (pos + 1 + len.toNat)) 0 (pos + 1 + len.toNat)
          (appendLabel buf ((packet.drop (pos + 1)).take len.toNat))
      else none := by
  set label := (packet.drop (pos + 1)).take len.toNat
  have hlen : label.length = len.toNat := by simp [label]; omega
  have hdrop : (packet.drop (pos + 1)).drop len.toNat = packet.drop (pos + 1 + len.toNat) :=
    List.drop_drop _ _ _
  rw [drop_eq_cons_of_getElem? hget]
  simp only [walkLabels, if_neg h0, if_neg hptr, if_neg (Nat.not_lt.mpr hfit)]
  by_cases hb : buf = []
  · subst hb
    have happ : appendLabel [] label = label.map asciiLowerByte := by simp [appendLabel]
    rw [if_pos rfl, walkLabels_copy packet bufLen _ _ _ _ (by simp; omega) (Nat.zero_le _),
      hdrop, happ, List.length_map, hlen, List.length_nil, Nat.zero_add, List.nil_append]
  · have happ : appendLabel buf label = buf ++ 0x2E :: label.map asciiLowerByte := by
      simp [appendLabel, hb]
    have hlen' : (appendLabel buf label).length = buf.length + 1 + len.toNat := by
      simp [happ, hlen]; omega
    rw [if_neg hb]
    by_cases hfull : bufLen ≤ buf.length
    · simp only [ge_iff_le, hfull, if_true]
      rw [if_neg (by omega)]
    · simp only [ge_iff_le, hfull, if_false]
      rw [walkLabels_copy packet bufLen _ _ _ _ (by simp; omega) (by simp; omega), hdrop, hlen',
        happ, List.append_assoc, List.singleton_append]
      simp only [List.length_append, List.length_singleton]

/-- What the walk reads from a run of labels. -/
theorem LabelRun.walkLabels_eq {pos : Nat} {labels : List Bytes} {stop : LabelsEnd}
    (h : LabelRun packet pos labels stop) {buf : List UInt8} (hbuf : buf.length ≤ bufLen)
    (hfits : (appendLabels buf labels).length ≤ bufLen) :
    walkLabels packet bufLen (packet.drop pos) 0 pos buf = some (stop, appendLabels buf labels) := by
  induction h generalizing buf with
  | root hget =>
    rw [drop_eq_cons_of_getElem? hget]
    rfl
  | @pointer pos hi lo hget hptr hlo =>
    rw [drop_eq_cons_of_getElem? hget, drop_eq_cons_of_getElem? hlo]
    have h0 : hi ≠ 0 := fun h ↦ by subst h; exact absurd hptr (by decide)
    simp [walkLabels, h0, hptr]
  | label hget h0 hptr hfit _ ih =>
    rw [appendLabels_cons] at hfits ⊢
    have hstep := (length_le_appendLabels _ _).trans hfits
    rw [walkLabels_label packet bufLen hget h0 hptr hfit hbuf, if_pos hstep]
    exact ih hstep hfits

/-- What the walk accepts is a run of labels whose text fits the buffer. -/
theorem walkLabels_sound {pos : Nat} {buf buf' : List UInt8} {stop : LabelsEnd}
    (h : walkLabels packet bufLen (packet.drop pos) 0 pos buf = some (stop, buf'))
    (hbuf : buf.length ≤ bufLen) :
    ∃ labels, LabelRun packet pos labels stop ∧ buf' = appendLabels buf labels ∧
      buf'.length ≤ bufLen := by
  cases hget : packet[pos]? with
  | none =>
    rw [List.drop_eq_nil_of_le (List.getElem?_eq_none_iff.mp hget)] at h
    cases h
  | some len =>
    by_cases h0 : len = 0
    · subst h0
      rw [drop_eq_cons_of_getElem? hget] at h
      simp only [walkLabels, if_pos rfl, Option.some.injEq, Prod.mk.injEq] at h
      obtain ⟨rfl, rfl⟩ := h
      exact ⟨[], .root hget, rfl, hbuf⟩
    by_cases hptr : len &&& 0xC0 = 0xC0
    · rw [drop_eq_cons_of_getElem? hget] at h
      simp only [walkLabels, if_neg h0, if_pos hptr] at h
      split at h
      · cases h
      · next lo rest hrest =>
        simp only [Option.some.injEq, Prod.mk.injEq] at h
        obtain ⟨rfl, rfl⟩ := h
        exact ⟨[], .pointer hget hptr (getElem?_of_drop_eq_cons hrest), rfl, hbuf⟩
    by_cases hfit : pos + 1 + len.toNat ≤ packet.length
    · rw [walkLabels_label packet bufLen hget h0 hptr hfit hbuf] at h
      split at h
      · next hfits =>
        obtain ⟨labels, hrun, rfl, hlen⟩ := walkLabels_sound h hfits
        exact ⟨_ :: labels, .label hget h0 hptr hfit hrun, rfl, hlen⟩
      · cases h
    · rw [drop_eq_cons_of_getElem? hget] at h
      simp [walkLabels, h0, hptr, Nat.lt_of_not_le hfit] at h
termination_by packet.length - pos

/-! ## The name loop decides `NameAt` -/

theorem nameLoop_of_none {k pos : Nat} {jumped : Bool} {p : Nat} {buf : List UInt8}
    (hw : walkLabels packet bufLen (packet.drop pos) 0 pos buf = none) :
    nameLoop packet bufLen k pos jumped p buf = none := by
  rw [nameLoop.eq_def]
  simp only [hw]

theorem nameLoop_of_root {k pos next : Nat} {jumped : Bool} {p : Nat} {buf b : List UInt8}
    (hw : walkLabels packet bufLen (packet.drop pos) 0 pos buf = some (.root next, b)) :
    nameLoop packet bufLen k pos jumped p buf = some (if jumped then p else next, b) := by
  rw [nameLoop.eq_def]
  simp only [hw]

theorem nameLoop_of_pointer {k pos place offset : Nat} {jumped : Bool} {p : Nat}
    {buf b : List UInt8}
    (hw : walkLabels packet bufLen (packet.drop pos) 0 pos buf = some (.pointer place offset, b)) :
    nameLoop packet bufLen (k + 2) pos jumped p buf =
      nameLoop packet bufLen (k + 1) offset true (if jumped then p else place + 2) b := by
  rw [nameLoop.eq_def]
  simp only [hw]

theorem nameLoop_one_of_pointer {pos place offset : Nat} {jumped : Bool} {p : Nat}
    {buf b : List UInt8}
    (hw : walkLabels packet bufLen (packet.drop pos) 0 pos buf = some (.pointer place offset, b)) :
    nameLoop packet bufLen 1 pos jumped p buf = none := by
  rw [nameLoop.eq_def]
  simp only [hw]

/-- `nameLoop` with `hops + 1` left on its counter accepts exactly the names of at most
`hops` pointers whose text fits the buffer. -/
theorem nameLoop_eq_some_iff (hops : Nat) : ∀ (pos : Nat) (jumped : Bool) (p : Nat)
    (buf buf' : List UInt8) (e' : Nat), buf.length ≤ bufLen →
    (nameLoop packet bufLen (hops + 1) pos jumped p buf = some (e', buf') ↔
      ∃ labels e, NameAt packet hops pos labels e ∧ buf' = appendLabels buf labels ∧
        buf'.length ≤ bufLen ∧ e' = if jumped then p else e) := by
  induction hops with
  | zero =>
    intro pos jumped p buf buf' e' hbuf
    constructor
    · intro h
      match hw : walkLabels packet bufLen (packet.drop pos) 0 pos buf with
      | none => rw [nameLoop_of_none packet bufLen hw] at h; cases h
      | some (.root next, b) =>
        rw [nameLoop_of_root packet bufLen hw, Option.some.injEq, Prod.mk.injEq] at h
        obtain ⟨rfl, rfl⟩ := h
        obtain ⟨labels, hrun, rfl, hlen⟩ := walkLabels_sound packet bufLen hw hbuf
        exact ⟨labels, next, .root hrun, rfl, hlen, rfl⟩
      | some (.pointer place offset, b) =>
        rw [nameLoop_one_of_pointer packet bufLen hw] at h; cases h
    · rintro ⟨labels, e, hn, rfl, hlen, rfl⟩
      cases hn with
      | root hrun => exact nameLoop_of_root packet bufLen (hrun.walkLabels_eq packet bufLen hbuf hlen)
  | succ k ih =>
    intro pos jumped p buf buf' e' hbuf
    constructor
    · intro h
      match hw : walkLabels packet bufLen (packet.drop pos) 0 pos buf with
      | none => rw [nameLoop_of_none packet bufLen hw] at h; cases h
      | some (.root next, b) =>
        rw [nameLoop_of_root packet bufLen hw, Option.some.injEq, Prod.mk.injEq] at h
        obtain ⟨rfl, rfl⟩ := h
        obtain ⟨labels, hrun, rfl, hlen⟩ := walkLabels_sound packet bufLen hw hbuf
        exact ⟨labels, next, .root hrun, rfl, hlen, rfl⟩
      | some (.pointer place offset, b) =>
        rw [nameLoop_of_pointer packet bufLen hw] at h
        obtain ⟨labels, hrun, rfl, hlen⟩ := walkLabels_sound packet bufLen hw hbuf
        obtain ⟨labels', e, hn, rfl, hlen', he⟩ := (ih _ _ _ _ _ _ hlen).mp h
        refine ⟨labels ++ labels', place + 2, .pointer hrun hn, (appendLabels_append _ _ _).symm,
          hlen', ?_⟩
        cases jumped <;> simpa using he
    · rintro ⟨labels, e, hn, rfl, hlen, rfl⟩
      cases hn with
      | root hrun => exact nameLoop_of_root packet bufLen (hrun.walkLabels_eq packet bufLen hbuf hlen)
      | pointer hrun hn =>
        rw [appendLabels_append] at hlen ⊢
        have hmid := (length_le_appendLabels _ _).trans hlen
        rw [nameLoop_of_pointer packet bufLen (hrun.walkLabels_eq packet bufLen hbuf hmid),
          (ih _ _ _ _ _ _ hmid).mpr ⟨_, _, hn, rfl, hlen, rfl⟩]
        cases jumped <;> rfl

end Walk

/-! ## What `parse_quick` accepts -/

/-- `parse_quick` accepts a packet of at least 12 bytes with a question, whose name at
offset 12 follows at most four pointers and has a text that fits the buffer and is UTF-8,
and that has four bytes after the name; it returns the id, the text, and the two fields
after the name. -/
theorem parseQuick_eq_some_iff (packet : Bytes) (bufLen : Nat) (q : QuickQuery) :
    parseQuick packet bufLen = some q ↔
      12 ≤ packet.length ∧ ofBe16 (packet.getD 4 0) (packet.getD 5 0) ≠ 0 ∧
      ∃ labels e cs, NameAt packet 4 12 labels e ∧ (nameText labels).length ≤ bufLen ∧
        e + 4 ≤ packet.length ∧ utf8Decode (nameText labels) = some cs ∧
        q = ⟨ofBe16 (packet.getD 0 0) (packet.getD 1 0), String.mk cs,
          ofBe16 (packet.getD e 0) (packet.getD (e + 1) 0),
          ofBe16 (packet.getD (e + 2) 0) (packet.getD (e + 3) 0)⟩ := by
  have hloop := fun e buf ↦
    nameLoop_eq_some_iff packet bufLen 4 12 false 12 [] buf e (Nat.zero_le _)
  unfold parseQuick
  by_cases hshort : packet.length < 12
  · rw [if_pos hshort]
    exact ⟨(fun h ↦ by cases h), fun h ↦ absurd h.1 (by omega)⟩
  by_cases hqd : ofBe16 (packet.getD 4 0) (packet.getD 5 0) = 0
  · rw [if_neg hshort, if_pos hqd]
    exact ⟨(fun h ↦ by cases h), fun h ↦ absurd hqd h.2.1⟩
  rw [if_neg hshort, if_neg hqd]
  constructor
  · intro h
    split at h
    · cases h
    · next e buf hn =>
      obtain ⟨labels, next, hname, rfl, hlen, he⟩ := (hloop e buf).mp hn
      rw [if_neg Bool.false_ne_true] at he
      subst he
      rw [appendLabels_nil_eq_nameText labels hname.ne_nil] at h hlen
      split at h
      · cases h
      · next hrest =>
        obtain ⟨cs, hcs, rfl⟩ := Option.map_eq_some'.mp h
        exact ⟨by omega, hqd, labels, e, cs, hname, hlen, by omega, hcs, rfl⟩
  · rintro ⟨-, -, labels, e, cs, hname, hlen, hrest, hcs, rfl⟩
    have hbuf := appendLabels_nil_eq_nameText labels hname.ne_nil
    rw [(hloop e (nameText labels)).mpr ⟨labels, e, hname, hbuf.symm, hlen, rfl⟩]
    dsimp only
    rw [if_neg (Nat.not_lt.mpr hrest), hcs]
    rfl


/-! ## The text of ASCII labels -/

theorem map_intercalate {α β : Type} (f : α → β) (sep : List α) : ∀ xs : List (List α),
    (sep.intercalate xs).map f = (sep.map f).intercalate (xs.map (·.map f))
  | [] => rfl
  | [x] => by simp [List.intercalate]
  | x :: y :: zs => by
    have ih := map_intercalate f sep (y :: zs)
    simp only [List.intercalate, List.map_cons, List.intersperse_cons_cons, List.flatten_cons,
      List.map_append] at ih ⊢
    rw [ih]

theorem intercalate_cons {α : Type} (sep x : List α) : ∀ xs : List (List α),
    sep.intercalate (x :: xs) = x ++ (xs.map (sep ++ ·)).flatten
  | [] => by simp [List.intercalate]
  | y :: ys => by
    rw [List.intercalate, List.intersperse_cons_cons, List.flatten_cons, List.flatten_cons,
      ← List.intercalate, intercalate_cons sep y ys]
    simp

theorem forall_mem_intercalate {α : Type} {p : α → Prop} {sep : List α} (hsep : ∀ a ∈ sep, p a) :
    ∀ {xs : List (List α)}, (∀ x ∈ xs, ∀ a ∈ x, p a) → ∀ a ∈ sep.intercalate xs, p a
  | [], _ => by simp [List.intercalate]
  | x :: xs, h => by
    rw [intercalate_cons]
    simp only [List.mem_append, List.mem_flatten, List.mem_map]
    rintro a (ha | ⟨_, ⟨y, hy, rfl⟩, ha⟩)
    · exact h x (List.mem_cons_self _ _) a ha
    · rcases List.mem_append.mp ha with ha | ha
      · exact hsep a ha
      · exact h y (List.mem_cons_of_mem _ hy) a ha

theorem toList_intercalate_go (s : String) : ∀ (acc : String) (xs : List String),
    (String.intercalate.go acc s xs).toList =
      acc.toList ++ (xs.map fun x ↦ s.toList ++ x.toList).flatten
  | acc, [] => by simp [String.intercalate.go]
  | acc, x :: xs => by
    rw [String.intercalate.go, toList_intercalate_go s _ xs]
    simp [String.toList, String.data_append]

theorem toList_intercalate (s : String) (xs : List String) :
    (s.intercalate xs).toList = s.toList.intercalate (xs.map String.toList) := by
  cases xs with
  | nil => rfl
  | cons x xs =>
    rw [String.intercalate, toList_intercalate_go, List.map_cons, intercalate_cons]
    simp [Function.comp_def]

/-- The bytes of ASCII text. -/
def asciiBytes (cs : List Char) : Bytes :=
  cs.map fun c ↦ UInt8.ofNat c.toNat

/-- Labels that may go on the wire as ASCII: each has 1 to 63 characters, all below `0x80`. -/
def AsciiLabels (labels : List String) : Prop :=
  ∀ l ∈ labels, 0 < l.length ∧ l.length < 64 ∧ ∀ c ∈ l.toList, c.toNat < 0x80

instance : DecidablePred AsciiLabels := fun labels ↦
  inferInstanceAs
    (Decidable (∀ l ∈ labels, 0 < l.length ∧ l.length < 64 ∧ ∀ c ∈ l.toList, c.toNat < 0x80))

/-- The dotted name of ASCII labels is ASCII. -/
theorem AsciiLabels.intercalate {labels : List String} (h : AsciiLabels labels) :
    ∀ c ∈ (".".intercalate labels).toList, c.toNat < 0x80 := by
  rw [toList_intercalate]
  exact forall_mem_intercalate (by decide) (List.forall_mem_map.mpr fun l hl ↦ (h l hl).2.2)

/-- A length byte of 1 to 63 is neither the zero byte nor a pointer. -/
theorem lengthByte_of_lt {n : Nat} (h0 : 0 < n) (h : n < 64) :
    UInt8.ofNat n ≠ 0 ∧ UInt8.ofNat n &&& 0xC0 ≠ 0xC0 ∧ (UInt8.ofNat n).toNat = n :=
  (by decide : ∀ n : Fin 64, 0 < n.val →
    UInt8.ofNat n ≠ 0 ∧ UInt8.ofNat n &&& 0xC0 ≠ 0xC0 ∧ (UInt8.ofNat n).toNat = n) ⟨n, h⟩ h0

/-- An ASCII character is one byte that decodes back to it, and `to_ascii_lowercase` on that
byte is its lowercase. -/
theorem asciiByte_of_lt {c : Char} (h : c.toNat < 0x80) :
    UInt8.ofNat c.toNat < 0x80 ∧ Char.ofNat (UInt8.ofNat c.toNat).toNat = c ∧
      asciiLowerByte (UInt8.ofNat c.toNat) = UInt8.ofNat c.toLower.toNat ∧
      c.toLower.toNat < 0x80 := by
  have key := (by decide : ∀ n : Fin 128, UInt8.ofNat n < 0x80 ∧
    Char.ofNat (UInt8.ofNat n).toNat = Char.ofNat n ∧
    asciiLowerByte (UInt8.ofNat n) = UInt8.ofNat (Char.ofNat n).toLower.toNat ∧
    (Char.ofNat n).toLower.toNat < 0x80) ⟨c.toNat, h⟩
  simpa only [Char.ofNat_toNat] using key

theorem utf8Decode_cons_of_lt {b : UInt8} (h : b < 0x80) (rest : List UInt8) :
    utf8Decode (b :: rest) = (Char.ofNat b.toNat :: ·) <$> utf8Decode rest := by
  rw [utf8Decode.eq_def]
  simp only [if_pos h]

theorem utf8Decode_asciiBytes : ∀ cs : List Char, (∀ c ∈ cs, c.toNat < 0x80) →
    utf8Decode (asciiBytes cs) = some cs
  | [], _ => rfl
  | c :: cs, h => by
    obtain ⟨hlt, hback, -⟩ := asciiByte_of_lt (h c (List.mem_cons_self _ _))
    have ih := utf8Decode_asciiBytes cs fun x hx ↦ h x (List.mem_cons_of_mem _ hx)
    rw [asciiBytes, List.map_cons, utf8Decode_cons_of_lt hlt, ← asciiBytes, ih, hback]
    rfl

theorem asciiBytes_map_asciiLowerByte : ∀ cs : List Char, (∀ c ∈ cs, c.toNat < 0x80) →
    (asciiBytes cs).map asciiLowerByte = asciiBytes (cs.map Char.toLower) := by
  intro cs h
  simp only [asciiBytes, List.map_map]
  exact List.map_congr_left fun c hc ↦ (asciiByte_of_lt (h c hc)).2.2.1

/-- The text `parse_quick` builds from ASCII labels is their dotted name, lowercased. -/
theorem nameText_asciiBytes {labels : List String} (h : AsciiLabels labels) :
    nameText (labels.map (asciiBytes ·.toList)) =
      asciiBytes ((".".intercalate labels).toList.map Char.toLower) := by
  have hlow : labels.map (fun l ↦ (asciiBytes l.toList).map asciiLowerByte) =
      labels.map fun l ↦ asciiBytes (l.toList.map Char.toLower) :=
    List.map_congr_left fun l hl ↦ asciiBytes_map_asciiLowerByte _ (h l hl).2.2
  rw [nameText, List.map_map, Function.comp_def, hlow, toList_intercalate,
    map_intercalate, asciiBytes, map_intercalate]
  simp [asciiBytes, Function.comp_def]

/-! ## Queries built from labels -/

/-- The wire form of a name (RFC 1035 §3.1): each label after its length byte, then the zero
byte. -/
def encodeName : List Bytes → Bytes
  | [] => [0]
  | l :: ls => UInt8.ofNat l.length :: (l ++ encodeName ls)

/-- A query with id `id`, RD set, and one question for the name of `labels`, of type `qtype`
and class `qclass`. -/
def encodeQuery (id : UInt16) (labels : List Bytes) (qtype qclass : UInt16) : Bytes :=
  be16 id ++ [0x01, 0x00, 0x00, 0x01, 0x00, 0x00, 0x00, 0x00, 0x00, 0x00] ++
    (encodeName labels ++ (be16 qtype ++ be16 qclass))

/-- An encoded name of labels of 1 to 63 bytes is a run of those labels up to its zero
byte. -/
theorem labelRun_encodeName {packet rest : Bytes} : ∀ {labels : List Bytes} {pos : Nat},
    (∀ l ∈ labels, 0 < l.length ∧ l.length < 64) → packet.drop pos = encodeName labels ++ rest →
    LabelRun packet pos labels (.root (pos + (encodeName labels).length))
  | [], _, _, h => .root (getElem?_of_drop_eq_cons h)
  | l :: ls, pos, hl, h => by
    obtain ⟨hpos, hlt⟩ := hl l (List.mem_cons_self _ _)
    obtain ⟨h0, hptr, hlen⟩ := lengthByte_of_lt hpos hlt
    have htail : packet.drop (pos + 1) = l ++ (encodeName ls ++ rest) := by
      rw [← List.tail_drop, h]
      simp [encodeName]
    have hfit : pos + 1 + (UInt8.ofNat l.length).toNat ≤ packet.length := by
      have := congrArg List.length htail
      simp only [List.length_drop, List.length_append] at this
      omega
    have hrun := labelRun_encodeName (fun x hx ↦ hl x (List.mem_cons_of_mem _ hx))
      (by rw [← List.drop_drop, htail, List.drop_left' rfl] : packet.drop (pos + 1 + l.length) = _)
    have hlabel : (packet.drop (pos + 1)).take (UInt8.ofNat l.length).toNat = l := by
      rw [htail, hlen, List.take_left' rfl]
    have hend : pos + 1 + l.length + (encodeName ls).length = pos + (encodeName (l :: ls)).length := by
      simp [encodeName]; omega
    rw [← hlen] at hrun
    have := LabelRun.label (getElem?_of_drop_eq_cons h) h0 hptr hfit hrun
    rwa [hlabel, hlen, hend] at this

theorem getD_append_length (a b : Bytes) (i : Nat) : (a ++ b).getD (a.length + i) 0 = b.getD i 0 := by
  rw [List.getD_append_right _ _ _ _ (Nat.le_add_right _ _), Nat.add_sub_cancel_left]

/-- A query for an ASCII name of at most 253 octets reads back as its id, its name
lowercased, its type and its class. -/
theorem parseQuick_encodeQuery (id qtype qclass : UInt16) (labels : List String)
    (hlabels : AsciiLabels labels) (hname : (".".intercalate labels).length ≤ 253)
    (bufLen : Nat) (hbuf : 256 ≤ bufLen) :
    parseQuick (encodeQuery id (labels.map (asciiBytes ·.toList)) qtype qclass) bufLen =
      some ⟨id, asciiLower (".".intercalate labels), qtype, qclass⟩ := by
  set bytes := labels.map (asciiBytes ·.toList)
  set header : Bytes := be16 id ++ [0x01, 0x00, 0x00, 0x01, 0x00, 0x00, 0x00, 0x00, 0x00, 0x00]
  have hheader : header.length = 12 := rfl
  have hbytes : ∀ l ∈ bytes, 0 < l.length ∧ l.length < 64 := by
    simp only [bytes, List.forall_mem_map, asciiBytes, List.length_map, String.length_data]
    exact fun l hl ↦ ⟨(hlabels l hl).1, (hlabels l hl).2.1⟩
  have hrun : LabelRun (encodeQuery id bytes qtype qclass) 12 bytes
      (.root (header ++ encodeName bytes).length) := by
    rw [List.length_append, hheader]
    exact labelRun_encodeName hbytes (List.drop_left' hheader)
  have hpacket : encodeQuery id bytes qtype qclass =
      header ++ encodeName bytes ++ (be16 qtype ++ be16 qclass) := List.append_assoc _ _ _ |>.symm
  have hlen : (encodeQuery id bytes qtype qclass).length = (header ++ encodeName bytes).length + 4 := by
    rw [hpacket, List.length_append]; rfl
  have htext := nameText_asciiBytes hlabels
  refine (parseQuick_eq_some_iff _ _ _).mpr ⟨by simp only [hlen, List.length_append]; omega,
    (by decide : ofBe16 0 1 ≠ 0), bytes, _, (".".intercalate labels).toList.map Char.toLower,
    .root hrun, ?_, hlen.ge, ?_, ?_⟩
  · rw [htext, asciiBytes, List.length_map, List.length_map]
    exact (String.length_data (".".intercalate labels)).trans_le (by omega)
  · rw [htext]
    refine utf8Decode_asciiBytes _ fun c hc ↦ ?_
    obtain ⟨d, hd, rfl⟩ := List.mem_map.mp hc
    exact (asciiByte_of_lt (hlabels.intercalate d hd)).2.2.2
  · have hget : ∀ i, (encodeQuery id bytes qtype qclass).getD
        ((header ++ encodeName bytes).length + i) 0 = (be16 qtype ++ be16 qclass).getD i 0 :=
      fun i ↦ by rw [hpacket, getD_append_length]
    have hget0 : (encodeQuery id bytes qtype qclass).getD (header ++ encodeName bytes).length 0 =
        (be16 qtype ++ be16 qclass).getD 0 0 := hget 0
    simp only [QuickQuery.mk.injEq, hget0, hget 1, hget 2, hget 3]
    exact ⟨(ofBe16_be16 id).symm, rfl, (ofBe16_be16 qtype).symm, (ofBe16_be16 qclass).symm⟩

/-! ## The grammar against RFC 1035 -/

/-- `parse_quick` accepts exactly the packets of `NameAt` with at most four pointers, and it
reads back every query for an ASCII name of at most 253 octets. -/
theorem parseQuick_accepts_its_grammar :
    (∀ (packet : Bytes) (bufLen : Nat) (q : QuickQuery), parseQuick packet bufLen = some q ↔
      12 ≤ packet.length ∧ ofBe16 (packet.getD 4 0) (packet.getD 5 0) ≠ 0 ∧
      ∃ labels e cs, NameAt packet 4 12 labels e ∧ (nameText labels).length ≤ bufLen ∧
        e + 4 ≤ packet.length ∧ utf8Decode (nameText labels) = some cs ∧
        q = ⟨ofBe16 (packet.getD 0 0) (packet.getD 1 0), String.mk cs,
          ofBe16 (packet.getD e 0) (packet.getD (e + 1) 0),
          ofBe16 (packet.getD (e + 2) 0) (packet.getD (e + 3) 0)⟩) ∧
    ∀ bufLen, 256 ≤ bufLen → ∀ (id qtype qclass : UInt16) (labels : List String),
      AsciiLabels labels → (".".intercalate labels).length ≤ 253 →
      parseQuick (encodeQuery id (labels.map (asciiBytes ·.toList)) qtype qclass) bufLen =
        some ⟨id, asciiLower (".".intercalate labels), qtype, qclass⟩ :=
  ⟨parseQuick_eq_some_iff, fun bufLen hbuf id qtype qclass labels hlabels hname ↦
    parseQuick_encodeQuery id qtype qclass labels hlabels hname bufLen hbuf⟩

theorem parseQuick_reads_example_com :
    parseQuick (encodeQuery 0x1234 (["Example", "COM"].map (asciiBytes ·.toList)) 1 1) 256 =
      some ⟨0x1234, "example.com", 1, 1⟩ :=
  (parseQuick_accepts_its_grammar.2 256 le_rfl 0x1234 1 1 ["Example", "COM"] (by decide)
    (by decide)).trans (by decide)

/-- A query whose name is a chain of five pointers, each to the next, ending in a zero
byte. -/
def fivePointerQuery : Bytes :=
  [0x12, 0x34, 0x01, 0x00, 0x00, 0x01, 0x00, 0x00, 0x00, 0x00, 0x00, 0x00,
    0xC0, 14, 0xC0, 16, 0xC0, 18, 0xC0, 20, 0xC0, 22, 0]

/-- A query whose name is one label of 64 bytes `a`, after the reserved length byte
`0x40`. -/
def longLabelQuery : Bytes :=
  encodeQuery 0x1234 [List.replicate 64 0x61] 1 1

/-- The five-pointer name follows the cap of five hops and has four bytes after its first
pointer, and `parse_quick` rejects it; the 64-byte label has a length byte outside `1..63`,
and `parse_quick` accepts it. -/
theorem parseQuick_grammar_differs_from_rfc1035 :
    (NameAt fivePointerQuery 5 12 [] 14 ∧ 14 + 4 ≤ fivePointerQuery.length ∧
      parseQuick fivePointerQuery 256 = none) ∧
    (longLabelQuery[12]? = some 0x40 ∧
      parseQuick longLabelQuery 256 = some ⟨0x1234, ⟨List.replicate 64 'a'⟩, 1, 1⟩) :=
  ⟨⟨.pointer (@LabelRun.pointer _ 12 0xC0 14 rfl (by decide) rfl) <|
      .pointer (@LabelRun.pointer _ 14 0xC0 16 rfl (by decide) rfl) <|
      .pointer (@LabelRun.pointer _ 16 0xC0 18 rfl (by decide) rfl) <|
      .pointer (@LabelRun.pointer _ 18 0xC0 20 rfl (by decide) rfl) <|
      .pointer (@LabelRun.pointer _ 20 0xC0 22 rfl (by decide) rfl) <|
      .root (@LabelRun.root _ 22 rfl), by decide, by decide⟩,
    rfl, by decide⟩

/-! ## Names that read alike -/

/-- `a.b` as one label of three bytes. -/
def dottedLabelQuery : Bytes :=
  encodeQuery 0x1234 [[0x61, 0x2E, 0x62]] 1 1

/-- `a.b` as the two labels `a` and `b`. -/
def twoLabelQuery : Bytes :=
  encodeQuery 0x1234 [[0x61], [0x62]] 1 1

/-- The one-label and the two-label name read as the same question, though their labels
differ in any case. -/
theorem parseQuick_merges_dotted_label :
    ∃ q, parseQuick dottedLabelQuery 256 = some q ∧ parseQuick twoLabelQuery 256 = some q ∧
      ∀ hops hops' labels labels' e e', NameAt dottedLabelQuery hops 12 labels e →
        NameAt twoLabelQuery hops' 12 labels' e' →
        labels.map (·.map asciiLowerByte) ≠ labels'.map (·.map asciiLowerByte) := by
  refine ⟨⟨0x1234, "a.b", 1, 1⟩, by decide, by decide, fun _ _ labels labels' _ _ h h' ↦ ?_⟩
  obtain ⟨rfl, -⟩ := h.unique (@NameAt.root _ 0 _ _ _ (labelRun_encodeName (by decide) rfl))
  obtain ⟨rfl, -⟩ := h'.unique (@NameAt.root _ 0 _ _ _ (labelRun_encodeName (by decide) rfl))
  decide

end KixDns
