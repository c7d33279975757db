import KixDns.Engine.RuleWalk

/-!
# The candidates of the rule index

`compile_pipeline` files rule `i` of a pipeline with `add_rule` for `i = 0, 1, …` in order,
and `get_candidates` gathers what a query can reach: `always_check`, the exact bucket of the
name, the suffix buckets of the name and of what follows each of its dots, and the bucket
of the query type, sorted and without repeats.

`CompiledRule.bucket` says where `add_rule` files one rule, and `mem_addRules_place` lifts
that to the whole loop: a position sits in exactly the place its rule chooses, so every rule
position is in `always_check` or in one bucket, and in no other.  `mem_getCandidates` and
`getCandidates_sorted` describe what `get_candidates` returns for every index, name and type:
the union of the buckets it reaches, strictly increasing.
-/

namespace KixDns

/-! ## Where `add_rule` files a rule -/

/-- A bucket of the index. -/
def RuleIndex.bucket (ix : RuleIndex) : IndexBucket → List Nat
  | .exact domain => ix.domainExact domain
  | .suffix suffix => ix.domainSuffix suffix
  | .qtype qtype => ix.queryType qtype

/-- A place of the index: `always_check` (`none`) or a bucket. -/
def RuleIndex.place (ix : RuleIndex) : Option IndexBucket → List Nat
  | none => ix.alwaysCheck
  | some b => ix.bucket b

/-- Where `add_rule` files a rule: the bucket of its first indexable matcher when its
matchers after the first are all `And`, and `always_check` otherwise. -/
def CompiledRule.bucket (rule : CompiledRule) : Option IndexBucket :=
  if (rule.matchers.drop 1).all (fun m ↦ m.operator == .And) then indexBucket rule.matchers
  else none

/-- The index half of the loop of `compile_pipeline`: `add_rule` over `rules` at positions
`idx`, `idx + 1`, …. -/
def RuleIndex.addRules (ix : RuleIndex) (idx : Nat) : List CompiledRule → RuleIndex
  | [] => ix
  | rule :: rest => (ix.addRule idx rule).addRules (idx + 1) rest

theorem mem_pushAt_iff {K : Type} [DecidableEq K] {m : K → List Nat} {key k : K} {idx i : Nat} :
    i ∈ pushAt m key idx k ↔ i ∈ m k ∨ (i = idx ∧ key = k) := by
  unfold pushAt
  split <;> rename_i hk
  · subst hk
    simp
  · simp [Ne.symm hk]

/-- `add_rule` adds its position to the place `CompiledRule.bucket` names, and to no other. -/
theorem RuleIndex.mem_addRule_place (ix : RuleIndex) (n : Nat) (rule : CompiledRule)
    (t : Option IndexBucket) (i : Nat) :
    i ∈ (ix.addRule n rule).place t ↔ i ∈ ix.place t ∨ (i = n ∧ rule.bucket = t) := by
  unfold RuleIndex.addRule CompiledRule.bucket
  dsimp only
  cases (rule.matchers.drop 1).all (fun m ↦ m.operator == .And)
  · rcases t with _ | ⟨_ | _ | _⟩ <;> simp [RuleIndex.place, RuleIndex.bucket]
  · simp only [Bool.not_true, Bool.false_eq_true, if_false, if_true]
    split <;> rename_i heq <;> rcases t with _ | ⟨_ | _ | _⟩ <;>
      simp [RuleIndex.place, RuleIndex.bucket, mem_pushAt_iff, heq]

theorem exists_getElem?_cons {α : Type} (a : α) (l : List α) (i idx : Nat) (P : α → Prop) :
    (∃ k x, i = idx + k ∧ (a :: l)[k]? = some x ∧ P x) ↔
      (i = idx ∧ P a) ∨ ∃ k x, i = idx + 1 + k ∧ l[k]? = some x ∧ P x := by
  constructor
  · rintro ⟨_ | k, x, rfl, hx, hp⟩
    · cases List.getElem?_cons_zero.symm.trans hx
      exact .inl ⟨rfl, hp⟩
    · exact .inr ⟨k, x, by omega, List.getElem?_cons_succ.symm.trans hx, hp⟩
  · rintro (⟨rfl, hp⟩ | ⟨k, x, rfl, hx, hp⟩)
    · exact ⟨0, a, rfl, List.getElem?_cons_zero, hp⟩
    · exact ⟨k + 1, x, by omega, List.getElem?_cons_succ.trans hx, hp⟩

/-- After the loop, a place holds what it held before and the positions of the rules that
choose it. -/
theorem RuleIndex.mem_addRules_place (t : Option IndexBucket) (i : Nat) :
    ∀ (rules : List CompiledRule) (ix : RuleIndex) (idx : Nat),
      i ∈ (ix.addRules idx rules).place t ↔
        i ∈ ix.place t ∨ ∃ k rule, i = idx + k ∧ rules[k]? = some rule ∧ rule.bucket = t
  | [], ix, idx => by simp [RuleIndex.addRules]
  | rule :: rest, ix, idx => by
    rw [RuleIndex.addRules, mem_addRules_place t i rest, mem_addRule_place,
      exists_getElem?_cons, or_assoc]

/-- Built from an empty index, a place holds exactly the positions of the rules that choose
it. -/
theorem RuleIndex.mem_new_addRules_place (rules : List CompiledRule) (t : Option IndexBucket)
    (i : Nat) :
    i ∈ (RuleIndex.new.addRules 0 rules).place t ↔ ∃ rule, rules[i]? = some rule ∧ rule.bucket = t := by
  rw [mem_addRules_place]
  rcases t with _ | ⟨_ | _ | _⟩ <;> simp [RuleIndex.new, RuleIndex.place, RuleIndex.bucket]

/-- `compile_pipeline`'s index is the loop of `add_rule` over its compiled rules. -/
theorem compileRules_snd (idx : Nat) (rest : List RuntimeRule) (rules : List CompiledRule)
    (ix : RuleIndex) :
    (compileRules idx rest (rules, ix)).2 =
      ix.addRules idx ((rest.enumFrom idx).map fun p ↦ compileRule p.2 p.1) := by
  induction rest generalizing idx rules ix with
  | nil => rfl
  | cons r rest ih => simp [compileRules, ih, RuleIndex.addRules]

theorem compilePipeline_index (p : RuntimePipeline) :
    (compilePipeline p).index = RuleIndex.new.addRules 0 (compilePipeline p).rules := by
  simp only [compilePipeline, compileRules_snd, compileRules_fst, List.nil_append]

/-! ## Sorting without repeats -/

theorem chain'_lt_of_le_of_ne : ∀ {l : List Nat}, l.Chain' (· ≤ ·) → l.Chain' (· ≠ ·) →
    l.Chain' (· < ·)
  | [], _, _ => List.chain'_nil
  | [_], _, _ => List.chain'_singleton _
  | _ :: _ :: _, h₁, h₂ => by
    rw [List.chain'_cons] at h₁ h₂ ⊢
    exact ⟨Nat.lt_of_le_of_ne h₁.1 h₂.1, chain'_lt_of_le_of_ne h₁.2 h₂.2⟩

/-- `dedup` keeps every value: it drops only a repeat of the value before it. -/
theorem mem_destutter'_ne {x : Nat} : ∀ (l : List Nat) (a : Nat), x ∈ a :: l →
    x ∈ l.destutter' (· ≠ ·) a
  | [], _, h => by rwa [List.destutter'_nil]
  | b :: l, a, h => by
    by_cases hab : a = b
    · subst hab
      rw [List.destutter'_cons_neg _ (not_not.mpr rfl)]
      apply mem_destutter'_ne l a
      rcases List.mem_cons.mp h with rfl | h
      · exact List.mem_cons_self _ _
      · exact h
    · rw [List.destutter'_cons_pos _ hab]
      rcases List.mem_cons.mp h with rfl | h
      · exact List.mem_cons_self _ _
      · exact List.mem_cons_of_mem _ (mem_destutter'_ne l b h)

theorem mem_sortDedup {l : List Nat} {i : Nat} : i ∈ sortDedup l ↔ i ∈ l := by
  refine ⟨mem_of_mem_sortDedup, fun h ↦ ?_⟩
  have hs : i ∈ l.insertionSort (· ≤ ·) := (List.mem_insertionSort _).mpr h
  unfold sortDedup
  cases hsort : l.insertionSort (· ≤ ·) with
  | nil => rw [hsort] at hs; cases hs
  | cons a rest =>
    rw [hsort] at hs
    rw [List.destutter_cons']
    exact mem_destutter'_ne rest a hs

/-- `sort_unstable` then `dedup` gives a strictly increasing list. -/
theorem sortDedup_sorted (l : List Nat) : (sortDedup l).Sorted (· < ·) := by
  have hle : (sortDedup l).Sorted (· ≤ ·) :=
    (List.sorted_insertionSort (· ≤ ·) l).sublist (List.destutter_sublist _ _)
  exact List.chain'_iff_pairwise.mp
    (chain'_lt_of_le_of_ne hle.chain' (List.destutter_is_chain' _ _))

/-! ## The names the suffix loop looks up -/

/-- `afterDots` gives what follows each dot. -/
theorem mem_afterDots {s : String} : ∀ {cs : List Char},
    s ∈ afterDots cs ↔ ∃ pre, cs = pre ++ '.' :: s.toList
  | [] => by simp [afterDots]
  | c :: rest => by
    have ih := @mem_afterDots s rest
    simp only [List.cons_eq_append_iff, List.cons.injEq]
    unfold afterDots
    split
    · next hc =>
      rw [List.mem_cons, ih]
      constructor
      · rintro (rfl | ⟨pre, h⟩)
        · exact ⟨[], .inl ⟨rfl, hc.symm, rfl⟩⟩
        · exact ⟨c :: pre, .inr ⟨pre, rfl, h⟩⟩
      · rintro ⟨pre, ⟨-, -, h⟩ | ⟨pre', -, h⟩⟩
        · exact .inl (String.ext h)
        · exact .inr ⟨pre', h⟩
    · next hc =>
      rw [ih]
      constructor
      · rintro ⟨pre, h⟩
        exact ⟨c :: pre, .inr ⟨pre, rfl, h⟩⟩
      · rintro ⟨pre, ⟨-, h, -⟩ | ⟨pre', -, h⟩⟩
        · exact absurd h.symm hc
        · exact ⟨pre', h⟩

/-- `search_name` runs over the name and what follows each of its dots. -/
theorem mem_searchNames {s qname : String} :
    s ∈ searchNames qname ↔ s = qname ∨ ∃ pre, qname.toList = pre ++ '.' :: s.toList := by
  rw [searchNames, List.mem_cons, mem_afterDots]

/-! ## What `get_candidates` returns -/

/-- The candidates are the positions in `always_check`, in the exact bucket of the name, in
the suffix bucket of the name or of what follows one of its dots, or in the bucket of the
type. -/
theorem mem_getCandidates (ix : RuleIndex) (qname : String) (qtype : RecordType) (i : Nat) :
    i ∈ ix.getCandidates qname qtype ↔ i ∈ ix.alwaysCheck ∨ i ∈ ix.domainExact qname ∨
      (∃ s, (s = qname ∨ ∃ pre, qname.toList = pre ++ '.' :: s.toList) ∧ i ∈ ix.domainSuffix s) ∨
      i ∈ ix.queryType qtype := by
  simp only [RuleIndex.getCandidates, mem_sortDedup, List.mem_append, List.mem_flatMap,
    mem_searchNames, or_assoc]

theorem getCandidates_sorted (ix : RuleIndex) (qname : String) (qtype : RecordType) :
    (ix.getCandidates qname qtype).Sorted (· < ·) :=
  sortDedup_sorted _

/-- **`get_candidates` returns exactly the indexed candidate set.**  Built by `add_rule` over
rules `0, …, n - 1`, the index holds every position in `always_check` or in one bucket, and
in no other place; and for every index, name and type, `get_candidates` returns a strictly
increasing list of the positions in the buckets the query reaches. -/
theorem getCandidates_indexed_set :
    (∀ (rules : List CompiledRule), ∀ i < rules.length,
      (i ∈ (RuleIndex.new.addRules 0 rules).alwaysCheck ∧
          ∀ b, i ∉ (RuleIndex.new.addRules 0 rules).bucket b) ∨
        (i ∉ (RuleIndex.new.addRules 0 rules).alwaysCheck ∧
          ∃! b, i ∈ (RuleIndex.new.addRules 0 rules).bucket b)) ∧
    ∀ (ix : RuleIndex) (qname : String) (qtype : RecordType),
      (ix.getCandidates qname qtype).Sorted (· < ·) ∧
      ∀ i, i ∈ ix.getCandidates qname qtype ↔ i ∈ ix.alwaysCheck ∨ i ∈ ix.domainExact qname ∨
        (∃ s, (s = qname ∨ ∃ pre, qname.toList = pre ++ '.' :: s.toList) ∧
          i ∈ ix.domainSuffix s) ∨
        i ∈ ix.queryType qtype := by
  refine ⟨fun rules i hi ↦ ?_, fun ix qname qtype ↦ ⟨getCandidates_sorted ix qname qtype,
    mem_getCandidates ix qname qtype⟩⟩
  have hplace : ∀ t, i ∈ (RuleIndex.new.addRules 0 rules).place t ↔ rules[i].bucket = t := by
    intro t
    rw [RuleIndex.mem_new_addRules_place, List.getElem?_eq_getElem hi]
    simp
  have hbucket : ∀ b, i ∈ (RuleIndex.new.addRules 0 rules).bucket b ↔ rules[i].bucket = some b :=
    fun b ↦ hplace (some b)
  cases hr : rules[i].bucket with
  | none => exact .inl ⟨(hplace none).mpr hr, fun b hb ↦ nomatch hr.symm.trans ((hbucket b).mp hb)⟩
  | some b =>
    exact .inr ⟨(fun ha ↦ nomatch hr.symm.trans ((hplace none).mp ha)),
      .intro b ((hbucket b).mpr hr) fun b' hb' ↦ Option.some.inj (((hbucket b').mp hb').symm.trans hr)⟩

end KixDns
