import Mathlib.Data.List.Count
import Mathlib.Data.List.FinRange

/-!
# Apart — the rows of a list that clash with no other

Every two rows are compared once and both of a pair that clashes are marked;
what is not marked stays. Where a row clashes with itself, the rows that stay
are those that clash with one row at most, which says where they stand in the
list, that they clash with none of each other, and that the order of the list
does not matter.
-/

namespace Pbr.Lib.Apart

variable {α : Type}

/-- Every two places below `n` once, as two nested loops meet them. -/
def pairs (n : Nat) : List (Nat × Nat) :=
  (List.range n).flatMap fun i => (List.range' (i + 1) (n - (i + 1))).map fun j => (i, j)

theorem mem_pairs {n i j : Nat} : (i, j) ∈ pairs n ↔ i < j ∧ j < n := by
  simp only [pairs, List.mem_flatMap, List.mem_range, List.mem_map, List.mem_range'_1, Prod.mk.injEq]
  constructor
  · intro ⟨i', hi, j', hj, heq, heq'⟩
    omega
  · intro ⟨hij, hj⟩
    exact ⟨i, by omega, j, by omega, rfl, rfl⟩

section Marks

variable (clash : α → α → Bool) (l : List α)

/-- The rows at the two places clash. -/
def clashAt (i j : Nat) : Bool :=
  match l[i]?, l[j]? with
  | some a, some b => clash a b
  | _, _ => false

/-- Both rows of a pair that clashes are marked. -/
def mark (flags : List Bool) (pair : Nat × Nat) : List Bool :=
  if clashAt clash l pair.1 pair.2 then (flags.set pair.1 true).set pair.2 true else flags

def marks : List Bool := (pairs l.length).foldl (mark clash l) (List.replicate l.length false)

def alone : List α := (l.zip (marks clash l)).filterMap fun row => if row.2 then none else some row.1

variable {clash l} {flags : List Bool} {k : Nat}

theorem length_mark (flags : List Bool) (pair : Nat × Nat) : (mark clash l flags pair).length = flags.length := by
  unfold mark
  split <;> simp

theorem length_foldl_mark (ps : List (Nat × Nat)) (flags : List Bool) :
    (ps.foldl (mark clash l) flags).length = flags.length := by
  induction ps generalizing flags with
  | nil => rfl
  | cons pair ps ih => rw [List.foldl_cons, ih, length_mark]

theorem getElem_mark {pair : Nat × Nat} (hk : k < flags.length) : (mark clash l flags pair)[k]? = some true ↔
      flags[k]? = some true ∨ (pair.1 = k ∨ pair.2 = k) ∧ clashAt clash l pair.1 pair.2 = true := by
  unfold mark
  by_cases hclash : clashAt clash l pair.1 pair.2 = true
  · rw [if_pos hclash, List.getElem?_set, List.getElem?_set, List.length_set]
    by_cases hsecond : pair.2 = k
    · rw [if_pos hsecond, if_pos (by omega)]
      exact iff_of_true rfl (.inr ⟨.inr hsecond, hclash⟩)
    · rw [if_neg hsecond]
      by_cases hfirst : pair.1 = k
      · rw [if_pos hfirst, if_pos (by omega)]
        exact iff_of_true rfl (.inr ⟨.inl hfirst, hclash⟩)
      · rw [if_neg hfirst]
        simp [hfirst, hsecond]
  · rw [if_neg hclash]
    simp [hclash]

theorem getElem_foldl_mark (ps : List (Nat × Nat)) (hk : k < flags.length) :
    (ps.foldl (mark clash l) flags)[k]? = some true ↔
      flags[k]? = some true ∨ ∃ pair ∈ ps, (pair.1 = k ∨ pair.2 = k) ∧ clashAt clash l pair.1 pair.2 = true := by
  induction ps generalizing flags with
  | nil => simp
  | cons pair ps ih =>
    rw [List.foldl_cons, ih (by rwa [length_mark]), getElem_mark hk]
    constructor
    · intro h
      rcases h with (h | h) | ⟨p, hp, h⟩
      · exact .inl h
      · exact .inr ⟨pair, List.mem_cons_self, h⟩
      · exact .inr ⟨p, List.mem_cons_of_mem _ hp, h⟩
    · intro h
      rcases h with h | ⟨p, hp, h⟩
      · exact .inl (.inl h)
      · rcases List.mem_cons.mp hp with rfl | hp
        · exact .inl (.inr h)
        · exact .inr ⟨p, hp, h⟩

theorem clashAt_eq {i j : Nat} (hi : i < l.length) (hj : j < l.length) : clashAt clash l i j = clash l[i] l[j] := by
  simp [clashAt, hi, hj]

/-- A row is marked if it clashes with a row at another place. -/
theorem marks_iff (hsymm : ∀ a b, clash a b = clash b a) (hk : k < l.length) :
    (marks clash l)[k]? = some true ↔ ∃ j, ∃ hj : j < l.length, j ≠ k ∧ clash l[k] l[j] = true := by
  have hflags : k < (List.replicate l.length false).length := by simpa using hk
  rw [marks, getElem_foldl_mark _ hflags]
  have hfalse : (List.replicate l.length false)[k]? ≠ some true := by simp [hk]
  simp only [hfalse, false_or]
  constructor
  · intro ⟨(i, j), hpair, hend, hclash⟩
    obtain ⟨hij, hj⟩ := mem_pairs.mp hpair
    have hi : i < l.length := by omega
    rw [clashAt_eq hi hj] at hclash
    rcases hend with rfl | rfl
    · exact ⟨j, hj, by omega, hclash⟩
    · exact ⟨i, hi, by omega, by rwa [hsymm]⟩
  · intro ⟨j, hj, hne, hclash⟩
    rcases Nat.lt_or_gt_of_ne hne with hlt | hlt
    · refine ⟨(j, k), mem_pairs.mpr ⟨hlt, hk⟩, .inr rfl, ?_⟩
      rw [clashAt_eq hj hk, hsymm]
      exact hclash
    · refine ⟨(k, j), mem_pairs.mpr ⟨hlt, hj⟩, .inl rfl, ?_⟩
      rw [clashAt_eq hk hj]
      exact hclash

end Marks

/-! ## Rows that clash with themselves -/

section Count

/-- A row that passes is the only one if no other place passes. -/
theorem countP_le_one_iff {p : α → Bool} {l : List α} {k : Nat} (hk : k < l.length) (hp : p l[k] = true) :
    l.countP p ≤ 1 ↔ ∀ j, (hj : j < l.length) → j ≠ k → p l[j] = false := by
  have hsplit : l = l.take k ++ l[k] :: l.drop (k + 1) := by simp
  have hcount : l.countP p = (l.take k).countP p + ((l.drop (k + 1)).countP p + 1) := by
    conv_lhs => rw [hsplit]
    rw [List.countP_append, List.countP_cons_of_pos hp]
  have hparts : l.countP p ≤ 1 ↔ (l.take k).countP p = 0 ∧ (l.drop (k + 1)).countP p = 0 := by omega
  rw [hparts, List.countP_eq_zero, List.countP_eq_zero]
  constructor
  · intro ⟨hbefore, hafter⟩ j hj hne
    rcases Nat.lt_or_gt_of_ne hne with hlt | hlt
    · have hmem : l[j] ∈ l.take k := List.mem_take_iff_getElem.mpr ⟨j, by omega, rfl⟩
      simpa using hbefore _ hmem
    · have hmem : l[j] ∈ l.drop (k + 1) := by
        refine List.mem_drop_iff_getElem.mpr ⟨j - (k + 1), by omega, ?_⟩
        congr 1
        omega
      simpa using hafter _ hmem
  · intro h
    constructor
    · intro a ha
      obtain ⟨j, hj, rfl⟩ := List.mem_take_iff_getElem.mp ha
      simpa using h j (by omega) (by omega)
    · intro a ha
      obtain ⟨j, hj, rfl⟩ := List.mem_drop_iff_getElem.mp ha
      simpa using h (k + 1 + j) (by omega) (by omega)

/-- The rows of a list that pass, by their places. -/
theorem filter_eq_map_finRange (p : α → Bool) (l : List α) :
    l.filter p = ((List.finRange l.length).filter fun i => p (l.get i)).map l.get := by
  conv_lhs => rw [← List.map_get_finRange l]
  rw [List.filter_map]
  rfl

end Count

section Alone

variable {clash : α → α → Bool} {l l' : List α}

section

variable (hsymm : ∀ a b, clash a b = clash b a) (hself : ∀ a ∈ l, clash a a = true)
include hsymm hself

theorem marks_eq : marks clash l = l.map fun a => decide (1 < l.countP (clash a)) := by
  have hlength : (marks clash l).length = l.length := by
    rw [marks, length_foldl_mark, List.length_replicate]
  apply List.ext_getElem
  · rw [hlength, List.length_map]
  · intro k hk hk'
    rw [hlength] at hk
    have hmark := marks_iff hsymm hk
    have hone := countP_le_one_iff hk (hself l[k] (List.getElem_mem hk))
    rw [List.getElem?_eq_getElem (by omega), Option.some_inj] at hmark
    rw [List.getElem_map, Bool.eq_iff_iff, hmark, decide_eq_true_eq, ← Nat.not_le, hone]
    push Not
    simp

/-- What stays is what clashes with one row at most. -/
theorem alone_eq : alone clash l = l.filter fun a => decide (l.countP (clash a) ≤ 1) := by
  have hzip (q : α → Bool) (rows : List α) :
      ((rows.zip (rows.map q)).filterMap fun row => if row.2 then none else some row.1) = rows.filter (!q ·) := by
    induction rows with
    | nil => rfl
    | cons a rows ih =>
      rw [List.map_cons, List.zip_cons_cons, List.filterMap_cons, List.filter_cons, ih]
      cases q a <;> simp
  rw [alone, marks_eq hsymm hself, hzip]
  apply List.filter_congr
  intro a ha
  by_cases hone : l.countP (clash a) ≤ 1
  · simp [hone]
  · have hmore : 1 < l.countP (clash a) := by omega
    simp [hone, hmore]

/-- What stays clashes with nothing else that stays. -/
theorem alone_pairwise : (alone clash l).Pairwise fun a b => clash a b = false := by
  rw [alone_eq hsymm hself, List.pairwise_filter, List.pairwise_iff_getElem]
  intro i j hi hj hij hone _
  have hclear := (countP_le_one_iff hi (hself l[i] (List.getElem_mem hi))).mp (by simpa using hone)
  exact hclear j hj (by omega)

/-- Rows of which no two clash all stay. -/
theorem alone_of_pairwise (h : l.Pairwise fun a b => clash a b = false) : alone clash l = l := by
  rw [alone_eq hsymm hself, List.filter_eq_self]
  intro a ha
  obtain ⟨k, hk, rfl⟩ := List.mem_iff_getElem.mp ha
  rw [decide_eq_true_eq, countP_le_one_iff hk (hself l[k] ha)]
  rw [List.pairwise_iff_getElem] at h
  intro j hj hne
  rcases Nat.lt_or_gt_of_ne hne with hlt | hlt
  · rw [hsymm]
    exact h j k hj hk hlt
  · exact h k j hk hj hlt

theorem alone_perm (h : l'.Perm l) : (alone clash l').Perm (alone clash l) := by
  rw [alone_eq hsymm hself, alone_eq hsymm fun a ha => hself a (h.mem_iff.mp ha)]
  have hcount : (fun a => decide (l'.countP (clash a) ≤ 1)) = fun a => decide (l.countP (clash a) ≤ 1) := by
    ext a
    rw [h.countP_eq]
  rw [hcount]
  exact h.filter _

end

end Alone

end Pbr.Lib.Apart
