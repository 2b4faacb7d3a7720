import Mathlib.Data.List.Basic

/-!
# PrefixCode — fields that tell where they end

A writer whose code words can be told apart from what follows them: two
lines that start with a word each have the same word and the same rest.
Records and counted lists of such fields are such writers again.
-/

namespace Pbr.Lib

variable {α β γ : Type}

/-- On the values `ok` holds for, `put` writes words that tell their value
and where the rest starts. -/
def PrefixCode (ok : α → Prop) (put : α → List β) : Prop :=
  ∀ ⦃a b : α⦄ ⦃xs ys : List β⦄, ok a → ok b → put a ++ xs = put b ++ ys → a = b ∧ xs = ys

namespace PrefixCode

variable {ok : α → Prop} {put : α → List β}

/-- Rows one after the other, for lists of one length. -/
theorem flatMap (h : PrefixCode ok put) {l m : List α} {xs ys : List β} (hl : ∀ a ∈ l, ok a)
    (hm : ∀ a ∈ m, ok a) (hlen : l.length = m.length)
    (heq : l.flatMap put ++ xs = m.flatMap put ++ ys) : l = m ∧ xs = ys := by
  induction l generalizing m with
  | nil =>
    obtain rfl := List.length_eq_zero_iff.mp hlen.symm
    exact ⟨rfl, heq⟩
  | cons a l ih =>
    cases m with
    | nil => cases hlen
    | cons b m =>
      rw [List.flatMap_cons, List.flatMap_cons, List.append_assoc, List.append_assoc] at heq
      obtain ⟨rfl, hrest⟩ := h (hl a List.mem_cons_self) (hm b List.mem_cons_self) heq
      obtain ⟨rfl, htail⟩ := ih (fun t ht => hl t (List.mem_cons_of_mem _ ht))
        (fun t ht => hm t (List.mem_cons_of_mem _ ht)) (Nat.succ.inj hlen) hrest
      exact ⟨rfl, htail⟩

/-- A counted list: its length, then its rows. -/
theorem counted {fits : Nat → Prop} {putLength : Nat → List β} (h : PrefixCode ok put)
    (hlength : PrefixCode fits putLength) : PrefixCode (fun l : List α => fits l.length ∧ ∀ a ∈ l, ok a)
      (fun l => putLength l.length ++ l.flatMap put) := by
  intro l m xs ys hl hm heq
  rw [List.append_assoc, List.append_assoc] at heq
  obtain ⟨hlen, heq⟩ := hlength hl.1 hm.1 heq
  exact h.flatMap hl.2 hm.2 hlen heq

end PrefixCode

end Pbr.Lib
