import Mathlib.Data.List.Dedup
import Mathlib.Data.List.Sort
import Mathlib.Data.Prod.Lex
import PpBrowser.Lib.Rows

/-!
# Sorted — lists read in the order of a key

A list strictly sorted by a key is known by its members. What a scan from a
place on, or to the end of a group, reads of such a list is a filter of it,
and of rows put into a sorted map the last with each key stays.
-/

namespace Pbr.Lib

variable {α κ : Type} [LinearOrder κ] {f : α → κ} {l l' : List α} {p : α → Bool} {a : α}

/-- Sorted lists with the same members are one list. -/
theorem sorted_ext (h : l.Pairwise (f · < f ·)) (h' : l'.Pairwise (f · < f ·)) (hmem : ∀ a, a ∈ l ↔ a ∈ l') :
    l = l' := by
  have hantisymm : Std.Antisymm fun a b : α => f a < f b := ⟨fun a b hab hba => absurd hab (lt_asymm hba)⟩
  have hirrefl : Std.Irrefl fun a b : α => f a < f b := ⟨fun a => lt_irrefl (f a)⟩
  exact h.eq_of_mem_iff h' hmem

/-- A scan over what comes first is a filter where nothing after it passes. -/
theorem takeWhile_eq_filter (h : l.Pairwise fun a b => p b → p a) : l.takeWhile p = l.filter p := by
  induction l with
  | nil => rfl
  | cons a l ih =>
    obtain ⟨ha, hl⟩ := List.pairwise_cons.mp h
    by_cases hp : p a
    · rw [List.takeWhile_cons_of_pos hp, List.filter_cons_of_pos hp, ih hl]
    · rw [List.takeWhile_cons_of_neg hp, List.filter_cons_of_neg hp, eq_comm, List.filter_eq_nil_iff]
      exact fun b hb hpb => hp (ha b hb hpb)

theorem dropWhile_eq_filter (h : l.Pairwise fun a b => p b → p a) : l.dropWhile p = l.filter (!p ·) := by
  induction l with
  | nil => rfl
  | cons a l ih =>
    obtain ⟨ha, hl⟩ := List.pairwise_cons.mp h
    by_cases hp : p a
    · rw [List.dropWhile_cons_of_pos hp, List.filter_cons_of_neg (by simp [hp]), ih hl]
    · rw [List.dropWhile_cons_of_neg hp, List.filter_cons_of_pos (by simp [hp]), eq_comm]
      congr 1
      rw [List.filter_eq_self]
      intro b hb
      have hnot : ¬ p b := fun hpb => hp (ha b hb hpb)
      simpa using hnot

/-- More than one row: two with different keys. -/
theorem one_lt_length_iff (h : l.Pairwise (f · < f ·)) : 1 < l.length ↔ ∃ a ∈ l, ∃ b ∈ l, f a ≠ f b := by
  constructor
  · intro hlength
    match l, hlength with
    | a :: b :: l, _ =>
      have hab : f a < f b := (List.pairwise_cons.mp h).1 b (by simp)
      exact ⟨a, by simp, b, by simp, ne_of_lt hab⟩
  · intro ⟨a, ha, b, hb, hne⟩
    match l, ha, hb with
    | [c], ha, hb =>
      obtain rfl := List.mem_singleton.mp ha
      obtain rfl := List.mem_singleton.mp hb
      exact absurd rfl hne
    | _ :: _ :: _, _, _ => simp

/-- Of a sorted list the first has the least key. -/
theorem head?_eq_some_iff_least (h : l.Pairwise (f · < f ·)) : l.head? = some a ↔ a ∈ l ∧ ∀ b ∈ l, f a ≤ f b := by
  cases l with
  | nil => simp
  | cons first l =>
    obtain ⟨hfirst, -⟩ := List.pairwise_cons.mp h
    rw [List.head?_cons, Option.some.injEq]
    constructor
    · rintro rfl
      refine ⟨List.mem_cons_self, ?_⟩
      intro b hb
      rcases List.mem_cons.mp hb with rfl | hb
      · exact le_rfl
      · exact le_of_lt (hfirst b hb)
    · intro ⟨ha, hleast⟩
      rcases List.mem_cons.mp ha with rfl | ha
      · rfl
      · exact absurd (hfirst a ha) (not_lt.mpr (hleast first List.mem_cons_self))

/-- What lies between two pairs with one first part has it too. -/
theorem lex_between {β : Type} [LinearOrder β] {x y z : κ ×ₗ β} (hxy : x ≤ y) (hyz : y ≤ z)
    (hxz : (ofLex x).1 = (ofLex z).1) :
    (ofLex y).1 = (ofLex x).1 ∧ (ofLex x).2 ≤ (ofLex y).2 ∧ (ofLex y).2 ≤ (ofLex z).2 := by
  rw [Prod.Lex.le_iff] at hxy hyz
  rcases hxy with hlt | ⟨heq, hxy⟩
  · rcases hyz with hlt' | ⟨heq', -⟩
    · exact absurd hxz (ne_of_lt (lt_trans hlt hlt'))
    · exact absurd (hxz.trans heq'.symm) (ne_of_lt hlt)
  · rcases hyz with hlt' | ⟨-, hyz⟩
    · exact absurd (heq.symm.trans hxz) (ne_of_lt hlt')
    · exact ⟨heq.symm, hxy, hyz⟩

/-! ## Rows put into a sorted map -/

namespace RowMap

variable {key : α → κ} {m : RowMap key} {row : α} {rows : List α} {k : κ}

theorem mem_rows_iff : row ∈ m.rows ↔ m.find (key row) = some row := ⟨find_of_mem, mem_of_find⟩

/-- Of the rows put in the last with its key is found. -/
theorem find_insertAll : (rows.foldl RowMap.insert m).find k = ((rows.reverse.find? (key · = k)).or (m.find k)) := by
  induction rows generalizing m with
  | nil => rfl
  | cons row rows ih =>
    rw [List.foldl_cons, ih, List.reverse_cons, List.find?_append, find_insert, List.find?_singleton]
    by_cases hk : key row = k
    · simp [hk]
    · simp [hk]

/-- Rows in an order in which those with one key grow by `rank`: of each key the
one that none is above stays. -/
theorem mem_insertAll_iff {β : Type} [LinearOrder β] {rank : α → β}
    (h : rows.Pairwise fun a b => key a = key b → rank a < rank b) :
    row ∈ (rows.foldl RowMap.insert ({} : RowMap key)).rows ↔
      row ∈ rows ∧ ∀ other ∈ rows, key other = key row → rank other ≤ rank row := by
  rw [mem_rows_iff, find_insertAll, find_empty, Option.or_none]
  have hreverse : rows.reverse.Pairwise fun a b => key b = key a → rank b < rank a := List.pairwise_reverse.mpr h
  have hmem : ∀ a, a ∈ rows ↔ a ∈ rows.reverse := fun a => List.mem_reverse.symm
  simp only [hmem]
  generalize rows.reverse = rows at hreverse
  clear hmem
  induction rows with
  | nil => simp
  | cons first rows ih =>
    obtain ⟨hfirst, hrows⟩ := List.pairwise_cons.mp hreverse
    by_cases hk : key first = key row
    · rw [List.find?_cons_of_pos (by simp [hk]), Option.some.injEq]
      constructor
      · rintro rfl
        refine ⟨List.mem_cons_self, ?_⟩
        intro other hother hsame
        rcases List.mem_cons.mp hother with rfl | hother
        · exact le_rfl
        · exact le_of_lt (hfirst other hother hsame)
      · intro ⟨hrow, hgreatest⟩
        rcases List.mem_cons.mp hrow with rfl | hrow
        · rfl
        · exact absurd (hfirst row hrow hk.symm) (not_lt.mpr (hgreatest first List.mem_cons_self hk))
    · rw [List.find?_cons_of_neg (by simpa using hk)]
      refine (ih hrows).trans ?_
      simp only [List.mem_cons, forall_eq_or_imp]
      constructor
      · intro ⟨hrow, hgreatest⟩
        exact ⟨.inr hrow, fun hsame => absurd hsame hk, hgreatest⟩
      · intro ⟨hrow, _, hgreatest⟩
        refine ⟨?_, hgreatest⟩
        rcases hrow with rfl | hrow
        · exact absurd rfl hk
        · exact hrow

end RowMap

end Pbr.Lib
