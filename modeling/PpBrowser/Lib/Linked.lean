import Mathlib.Data.List.Chain

/-!
# Linked — rows that name the row before them

A history is written row by row: each row has the place after the row before
and names that row's digest. Where digests tell the rows apart, one digest
fixes all that stands before it, and two histories part just where they show
two rows at one place.
-/

namespace Pbr.Lib

/-- Rows from place 1 on, each naming the digest of the one before. -/
structure Linked {α δ : Type} (place : α → Nat) (digest named : α → δ) (rows : List α) : Prop where
  placed : ∀ {i row}, rows[i]? = some row → place row = i + 1
  linked : rows.IsChain fun before row => named row = digest before

/-- Lists that agree wherever both have a row: one continues the other. -/
theorem prefix_of_agree {α : Type} {l l' : List α} (h : ∀ (i : Nat) a b, l[i]? = some a → l'[i]? = some b → a = b) :
    l <+: l' ∨ l' <+: l := by
  induction l generalizing l' with
  | nil => exact .inl List.nil_prefix
  | cons a l ih =>
    cases l' with
    | nil => exact .inr List.nil_prefix
    | cons b l' =>
      obtain rfl := h 0 a b rfl rfl
      have hrest := ih fun i a b ha hb => h (i + 1) a b ha hb
      simpa [List.cons_prefix_cons] using hrest

section

variable {α δ : Type} {place : α → Nat} {digest named : α → δ} {l l' : List α} {a b : α} {i j : Nat}
  (h : Linked place digest named l) (h' : Linked place digest named l')
  (hapart : ∀ a ∈ l, ∀ b ∈ l', digest a = digest b → a = b)
include h h' hapart

/-- A row two histories share has the same rows before it in both. -/
theorem Linked.agree_below (ha : l[i]? = some a) (hb : l'[i]? = some a) : ∀ j ≤ i, l[j]? = l'[j]? := by
  induction i generalizing a with
  | zero =>
    intro j hj
    obtain rfl := Nat.le_zero.mp hj
    rw [ha, hb]
  | succ i ih =>
    obtain ⟨hi, rfl⟩ := List.getElem?_eq_some_iff.mp ha
    obtain ⟨hi', hsame⟩ := List.getElem?_eq_some_iff.mp hb
    have hnamed := List.isChain_iff_getElem.mp h.linked i hi
    have hnamed' := List.isChain_iff_getElem.mp h'.linked i hi'
    rw [hsame] at hnamed'
    have hbefore : l[i] = l'[i] :=
      hapart _ (List.getElem_mem _) _ (List.getElem_mem _) (hnamed.symm.trans hnamed')
    have hl : l[i]? = some l[i] := List.getElem?_eq_getElem _
    have hl' : l'[i]? = some l[i] := by rw [hbefore]; exact List.getElem?_eq_getElem _
    intro j hj
    rcases Nat.le_succ_iff.mp hj with hj | rfl
    · exact ih hl hl' j hj
    · rw [ha, hb]

/-- A digest fixes its row's place and all rows up to it. -/
theorem Linked.take_eq (ha : l[i]? = some a) (hb : l'[j]? = some b) (hsame : digest a = digest b) :
    i = j ∧ l.take (i + 1) = l'.take (j + 1) := by
  obtain rfl := hapart a (List.mem_of_getElem? ha) b (List.mem_of_getElem? hb) hsame
  have hplace := (h.placed ha).symm.trans (h'.placed hb)
  obtain rfl : i = j := by omega
  refine ⟨rfl, List.ext_getElem? fun n => ?_⟩
  rw [List.getElem?_take, List.getElem?_take]
  split
  next hn => exact h.agree_below h' hapart ha hb n (by omega)
  · rfl

/-- Two histories show two rows at one place just when neither continues the
other. -/
theorem Linked.forked_iff :
    (∃ a ∈ l, ∃ b ∈ l', place a = place b ∧ digest a ≠ digest b) ↔ ¬ (l <+: l' ∨ l' <+: l) := by
  constructor
  · rintro ⟨a, ha, b, hb, hplace, hne⟩ hprefix
    obtain ⟨i, ha⟩ := List.mem_iff_getElem?.mp ha
    obtain ⟨j, hb⟩ := List.mem_iff_getElem?.mp hb
    have hij := (h.placed ha).symm.trans (hplace.trans (h'.placed hb))
    obtain rfl : i = j := by omega
    rcases hprefix with ⟨rest, rfl⟩ | ⟨rest, rfl⟩
    · rw [List.getElem?_append_left (List.getElem?_eq_some_iff.mp ha).1, ha] at hb
      exact hne (congrArg digest (Option.some.inj hb))
    · rw [List.getElem?_append_left (List.getElem?_eq_some_iff.mp hb).1, hb] at ha
      exact hne (congrArg digest (Option.some.inj ha).symm)
  · intro hnot
    by_contra hnone
    refine hnot (prefix_of_agree fun i a b ha hb => ?_)
    by_contra hne
    have hmem := List.mem_of_getElem? ha
    have hmem' := List.mem_of_getElem? hb
    refine hnone ⟨a, hmem, b, hmem', (h.placed ha).trans (h'.placed hb).symm, fun hsame => hne ?_⟩
    exact hapart a hmem b hmem' hsame

end

end Pbr.Lib
