import Mathlib.Data.List.Sort
import Mathlib.Order.Defs.LinearOrder
import Std.Data.ExtTreeMap
import Std.Data.ExtTreeSet

/-!
# Keyed — ordered maps filled from lists

Maps whose entries are inserted one after the other from a list, under
a key read off each item, and the list of a map's values in key order.
-/

namespace Pbr.Lib

open Std

variable {κ α β : Type} [Ord κ] [TransOrd κ] [LawfulEqOrd κ]

/-! ## Filling a map -/

section Fill

variable (key : α → κ) (val : α → β)

variable {k : κ} {v : β} {l : List α}

theorem getElem?_fill_of_notMem (l : List α) (m : ExtTreeMap κ β) (h : ∀ a ∈ l, key a ≠ k) :
    (l.foldl (fun m a => m.insert (key a) (val a)) m)[k]? = m[k]? := by
  induction l generalizing m with
  | nil => rfl
  | cons a l ih =>
    rw [List.foldl_cons, ih _ fun b hb => h b (by simp [hb])]
    simp [ExtTreeMap.getElem?_insert, h a]

/-- What a filled map has is an item of the list or was there before. -/
theorem of_getElem?_fill (l : List α) (m : ExtTreeMap κ β)
    (h : (l.foldl (fun m a => m.insert (key a) (val a)) m)[k]? = some v) :
    (∃ a ∈ l, key a = k ∧ val a = v) ∨ m[k]? = some v := by
  induction l generalizing m with
  | nil => exact .inr h
  | cons a l ih =>
    rcases ih _ h with ⟨b, hb, hk⟩ | h
    · exact .inl ⟨b, by simp [hb], hk⟩
    · rw [ExtTreeMap.getElem?_insert] at h
      by_cases hk : key a = k
      · exact .inl ⟨a, by simp, hk, by simpa [hk] using h⟩
      · exact .inr (by simpa [hk] using h)

theorem getElem?_fill_of_mem (hn : (l.map key).Nodup) (m : ExtTreeMap κ β) {a : α} (ha : a ∈ l) :
    (l.foldl (fun m a => m.insert (key a) (val a)) m)[key a]? = some (val a) := by
  induction l generalizing m with
  | nil => simp at ha
  | cons b l ih =>
    obtain ⟨hb, hn⟩ := List.nodup_cons.mp hn
    rcases List.mem_cons.mp ha with rfl | ha
    · rw [List.foldl_cons, getElem?_fill_of_notMem key val l _ fun c hc hk =>
        hb (List.mem_map.mpr ⟨c, hc, hk⟩)]
      simp
    · exact ih hn _ ha

/-- A map filled from a list with distinct keys has the list's items. -/
theorem getElem?_fill_iff (hn : (l.map key).Nodup) :
    (l.foldl (fun m a => m.insert (key a) (val a)) (∅ : ExtTreeMap κ β))[k]? = some v ↔
      ∃ a ∈ l, key a = k ∧ val a = v := by
  constructor
  · intro h
    rcases of_getElem?_fill key val l ∅ h with h | h
    · exact h
    · simp at h
  · rintro ⟨a, ha, rfl, rfl⟩
    exact getElem?_fill_of_mem key val hn _ ha

theorem contains_fill (l : List α) (m : ExtTreeMap κ β) (k : κ) :
    (l.foldl (fun m a => m.insert (key a) (val a)) m).contains k = true ↔
      (∃ a ∈ l, key a = k) ∨ m.contains k = true := by
  induction l generalizing m with
  | nil => simp
  | cons a l ih =>
    rw [List.foldl_cons, ih]
    simp only [ExtTreeMap.contains_insert, Bool.or_eq_true, beq_iff_eq, LawfulEqCmp.compare_eq_iff_eq,
      List.mem_cons, exists_eq_or_imp]
    exact or_left_comm.trans or_assoc.symm

/-- Items that pass `p` inserted where the map has nothing yet. -/
theorem getElem?_fillNew_iff (p : α → Bool) (hn : (l.map key).Nodup) (m : ExtTreeMap κ β) :
    (l.foldl (fun m a => if p a then m.insertIfNew (key a) (val a) else m) m)[k]? = some v ↔
      m[k]? = some v ∨ (m[k]? = none ∧ ∃ a ∈ l, p a = true ∧ key a = k ∧ val a = v) := by
  induction l generalizing m with
  | nil => simp
  | cons a l ih =>
    obtain ⟨ha, hn⟩ := List.nodup_cons.mp hn
    rw [List.foldl_cons, ih hn]
    have hrest (b : α) (hb : b ∈ l) : key b ≠ key a := fun h =>
      ha (List.mem_map.mpr ⟨b, hb, h⟩)
    cases hp : p a with
    | false => simp [hp]
    | true =>
      simp only [if_true, ExtTreeMap.getElem?_insertIfNew, List.mem_cons, exists_eq_or_imp, hp,
        true_and, LawfulEqCmp.compare_eq_iff_eq]
      by_cases hk : key a = k
      · subst hk
        have hnone : ¬ ∃ b ∈ l, p b = true ∧ key b = key a ∧ val b = v := by
          rintro ⟨b, hb, -, hkey, -⟩
          exact hrest b hb hkey
        cases hm : m[key a]? with
        | none =>
          have hmem : key a ∉ m := by
            rw [ExtTreeMap.mem_iff_isSome_getElem?, hm]
            simp
          simp [hmem, hnone]
        | some w =>
          have hmem : key a ∈ m := by
            rw [ExtTreeMap.mem_iff_isSome_getElem?, hm]
            rfl
          simp [hmem]
      · simp [hk]

end Fill

/-- Items written over a map under their own keys leave its other values. -/
theorem getElem?_write_of_notMem (key : α → κ) (l : List α) (m : ExtTreeMap κ α) {k : κ}
    (h : ∀ a ∈ l, key a ≠ k) : (l.foldl (fun m a => m.insert (key a) a) m)[k]? = m[k]? :=
  getElem?_fill_of_notMem key id l m h

variable {a : α} {m : ExtTreeMap κ α} {key : α → κ}

theorem getElem?_write_of_mem (key : α → κ) {l : List α} (hn : (l.map key).Nodup)
    (m : ExtTreeMap κ α) (ha : a ∈ l) : (l.foldl (fun m a => m.insert (key a) a) m)[key a]? = some a :=
  getElem?_fill_of_mem key id hn m ha

theorem mem_foldl_insert (key : α → κ) (l : List α) (s : ExtTreeSet κ) {k : κ} :
    k ∈ l.foldl (fun s a => s.insert (key a)) s ↔ k ∈ s ∨ ∃ a ∈ l, key a = k := by
  induction l generalizing s with
  | nil => simp
  | cons a l ih =>
    rw [List.foldl_cons, ih]
    simp only [ExtTreeSet.mem_insert, LawfulEqCmp.compare_eq_iff_eq, List.mem_cons, exists_eq_or_imp]
    tauto

/-! ## Erasing a list of keys -/

theorem of_getElem?_insert {k k' : κ} {a b : α}
    (h : (m.insert k a)[k']? = some b) : (k = k' ∧ a = b) ∨ (k ≠ k' ∧ m[k']? = some b) := by
  rw [ExtTreeMap.getElem?_insert] at h
  by_cases hk : k = k'
  · exact .inl ⟨hk, by simpa [hk] using h⟩
  · exact .inr ⟨hk, by simpa [hk] using h⟩

theorem of_getElem?_erase {k k' : κ} {b : α} (h : (m.erase k)[k']? = some b) : k ≠ k' ∧ m[k']? = some b := by
  rw [ExtTreeMap.getElem?_erase] at h
  by_cases hk : k = k'
  · simp [hk] at h
  · exact ⟨hk, by simpa [hk] using h⟩

theorem getElem?_eraseAll [DecidableEq κ] (ks : List κ) (m : ExtTreeMap κ α) (k : κ) :
    (ks.foldl (·.erase ·) m)[k]? = if k ∈ ks then none else m[k]? := by
  induction ks generalizing m with
  | nil => simp
  | cons k' ks ih =>
    rw [List.foldl_cons, ih, ExtTreeMap.getElem?_erase]
    by_cases hmem : k ∈ ks
    · simp [hmem]
    · by_cases hk : k' = k
      · simp [hk]
      · simp [hmem, hk, Ne.symm hk]

/-! ## The values in key order -/

/-- The values of a map, in key order. -/
def values (m : ExtTreeMap κ α) : List α := m.toList.map Prod.snd

theorem mem_values : a ∈ values m ↔ ∃ k : κ, m[k]? = some a := by
  simp only [values, List.mem_map, Prod.exists, exists_eq_right,
    ExtTreeMap.mem_toList_iff_getElem?_eq_some]

/-- The map has each value under its key. -/
def Keyed (key : α → κ) (m : ExtTreeMap κ α) : Prop := ∀ (k : κ) (a : α), m[k]? = some a → key a = k

omit [LawfulEqOrd κ] in
theorem keyed_empty (key : α → κ) : Keyed key (∅ : ExtTreeMap κ α) := by
  intro k a h; simp at h

theorem Keyed.insert (h : Keyed key m) (a : α) : Keyed key (m.insert (key a) a) := by
  intro k b hb
  rcases of_getElem?_insert hb with ⟨hk, hab⟩ | ⟨-, hb⟩
  · rw [← hab, hk]
  · exact h k b hb

theorem Keyed.erase (h : Keyed key m) (k : κ) :
    Keyed key (m.erase k) := fun k' a ha => h k' a (of_getElem?_erase ha).2

theorem Keyed.mem_values (h : Keyed key m) : a ∈ values m ↔ m[key a]? = some a := by
  rw [Lib.mem_values]
  constructor
  · rintro ⟨k, hk⟩
    rw [h k a hk]
    exact hk
  · exact fun hk => ⟨_, hk⟩

theorem Keyed.map_values (h : Keyed key m) : (values m).map key = m.keys := by
  rw [values, List.map_map, ← ExtTreeMap.map_fst_toList_eq_keys]
  apply List.map_congr_left
  intro e he
  exact h e.1 e.2 (ExtTreeMap.mem_toList_iff_getElem?_eq_some.mp he)

/-- Looking a value up by its key among the values is the map's lookup. -/
theorem Keyed.find?_values [DecidableEq κ] (h : Keyed key m)
    (k : κ) : (values m).find? (fun a => decide (key a = k)) = m[k]? := by
  cases hf : (values m).find? (fun a => decide (key a = k)) with
  | some a =>
    have hk : key a = k := by simpa using List.find?_some hf
    rw [← hk, h.mem_values.mp (List.mem_of_find?_eq_some hf)]
  | none =>
    cases hm : m[k]? with
    | none => rfl
    | some a =>
      have hk := h k a hm
      have := List.find?_eq_none.mp hf a (h.mem_values.mpr (hk ▸ hm))
      simp [hk] at this

/-- Lists with the same items, sorted by a key of theirs, are equal. -/
theorem eq_of_keys_sorted {α κ : Type} [LinearOrder κ] (key : α → κ) {l l' : List α}
    (hl : (l.map key).Pairwise (· < ·)) (hl' : (l'.map key).Pairwise (· < ·)) (h : ∀ a, a ∈ l ↔ a ∈ l') : l = l' := by
  have : Std.Irrefl fun a b : α => key a < key b := ⟨fun _ => lt_irrefl _⟩
  have : Std.Antisymm fun a b : α => key a < key b := ⟨fun _ _ hab hba => absurd (hab.trans hba) (lt_irrefl _)⟩
  exact (List.pairwise_map.mp hl).eq_of_mem_iff (List.pairwise_map.mp hl') h

end Pbr.Lib
