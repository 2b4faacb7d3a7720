import Mathlib.Data.List.Induction
import Mathlib.Order.Lattice

/-!
# Newest — what is left of stamped values, the newest kept

Values come one by one and the newest is kept, a later one where two share
the stamp. What is kept at the end depends on the order only where two
different values share the greatest stamp.
-/

namespace Pbr.Lib

variable {α τ : Type} [LinearOrder τ] (stamp : α → τ)

/-- The one kept once `a` has come: the one before only where it is newer. -/
def takeNewer (kept : Option α) (a : α) : Option α :=
  match kept with
  | none => some a
  | some k => if stamp a < stamp k then some k else some a

/-- The one kept of `values`. -/
def newest (values : List α) : Option α := values.foldl (takeNewer stamp) none

def Greatest (values : List α) (k : α) : Prop := k ∈ values ∧ ∀ a ∈ values, stamp a ≤ stamp k

variable {stamp} {values values' : List α} {a b k : α} {kept : Option α}

theorem newest_append_one : newest stamp (values ++ [a]) = takeNewer stamp (newest stamp values) a := by
  simp [newest]

theorem takeNewer_isSome : (takeNewer stamp kept a).isSome := by
  cases kept with
  | none => rfl
  | some k =>
    simp only [takeNewer]
    split <;> rfl

theorem newest_greatest (h : newest stamp values = some k) : Greatest stamp values k := by
  induction values using List.reverseRecOn generalizing k with
  | nil => cases h
  | append_singleton values a ih =>
    rw [newest_append_one] at h
    cases hbefore : newest stamp values with
    | none =>
      rw [hbefore] at h
      obtain rfl := Option.some.inj h
      refine ⟨by simp, fun b hb => ?_⟩
      rcases List.mem_append.mp hb with hb | hb
      · cases values using List.reverseRecOn with
        | nil => cases hb
        | append_singleton values c =>
          rw [newest_append_one] at hbefore
          have hsome := @takeNewer_isSome _ _ _ stamp c (newest stamp values)
          rw [hbefore] at hsome
          cases hsome
      · rw [List.mem_singleton.mp hb]
    | some before =>
      obtain ⟨hmem, hle⟩ := ih hbefore
      rw [hbefore] at h
      simp only [takeNewer] at h
      split at h
      · rename_i hlt
        obtain rfl := Option.some.inj h
        refine ⟨List.mem_append_left _ hmem, fun b hb => ?_⟩
        rcases List.mem_append.mp hb with hb | hb
        · exact hle b hb
        · rw [List.mem_singleton.mp hb]
          exact le_of_lt hlt
      · rename_i hge
        obtain rfl := Option.some.inj h
        refine ⟨by simp, fun b hb => ?_⟩
        rcases List.mem_append.mp hb with hb | hb
        · exact le_trans (hle b hb) (not_lt.mp hge)
        · rw [List.mem_singleton.mp hb]

theorem newest_isSome (h : a ∈ values) : ∃ k, newest stamp values = some k := by
  cases values using List.reverseRecOn with
  | nil => cases h
  | append_singleton values b =>
    rw [newest_append_one]
    exact Option.isSome_iff_exists.mp takeNewer_isSome

/-- The values that come, and not their order, decide what is kept, where one
value alone has the greatest stamp. -/
theorem newest_congr (hsame : ∀ a, a ∈ values ↔ a ∈ values')
    (hone : ∀ a b, Greatest stamp values a → Greatest stamp values b → a = b) :
    newest stamp values = newest stamp values' := by
  have hgreatest (k : α) (h : Greatest stamp values' k) : Greatest stamp values k :=
    ⟨(hsame k).mpr h.1, fun a ha => h.2 a ((hsame a).mp ha)⟩
  cases h : newest stamp values with
  | none =>
    cases h' : newest stamp values' with
    | none => rfl
    | some k =>
      obtain ⟨k', hk'⟩ := @newest_isSome _ _ _ stamp _ _ ((hsame k).mpr (newest_greatest h').1)
      rw [h] at hk'
      cases hk'
  | some k =>
    obtain ⟨k', hk'⟩ := @newest_isSome _ _ _ stamp _ _ ((hsame k).mp (newest_greatest h).1)
    rw [hk', hone k k' (newest_greatest h) (hgreatest k' (newest_greatest hk'))]

end Pbr.Lib
