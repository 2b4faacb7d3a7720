import Mathlib.Data.List.Basic
import Mathlib.Order.Lattice

/-!
# Rows — a list kept as a table

A list with at most one row for a key: a row put into it takes the place of
the row with its key, or goes last. The lemmas say which rows a table has
after rows are put into it one by one, and what a lookup finds.
-/

namespace Pbr.Lib

variable {α κ : Type} [DecidableEq κ] (key : α → κ)

def DistinctKeys (rows : List α) : Prop := rows.Pairwise (key · ≠ key ·)

instance (rows : List α) : Decidable (DistinctKeys key rows) :=
  inferInstanceAs (Decidable (rows.Pairwise (key · ≠ key ·)))

def rowOf (k : κ) (rows : List α) : Option α := rows.find? (key · = k)

/-- `a` in the place of the first row with its key, or last. -/
def put (a : α) : List α → List α
  | [] => [a]
  | row :: rows => if key row = key a then a :: rows else row :: put a rows

/-- `a` in the place of the row with its key, or where its key belongs in the
order: the rows of a sorted map. -/
def putSorted [LT κ] [DecidableLT κ] (a : α) : List α → List α
  | [] => [a]
  | row :: rows =>
    if key row = key a then a :: rows
    else if key a < key row then a :: row :: rows
    else row :: putSorted a rows

/-- Row after row put into a table. -/
def putAll (rows incoming : List α) : List α := incoming.foldl (fun rows a => put key a rows) rows

variable {key} {a row : α} {rows incoming : List α} {k : κ}

/-! ## Lookups -/

theorem rowOf_cons : rowOf key k (row :: rows) = if key row = k then some row else rowOf key k rows := by
  by_cases h : key row = k <;> simp [rowOf, h]

theorem rowOf_some (h : rowOf key k rows = some row) : row ∈ rows ∧ key row = k :=
  ⟨List.mem_of_find?_eq_some h, by simpa using List.find?_some h⟩

/-- Putting a row changes what is found under its key, and nothing else. -/
theorem rowOf_put : rowOf key k (put key a rows) = if key a = k then some a else rowOf key k rows := by
  induction rows with
  | nil => exact rowOf_cons
  | cons row rows ih =>
    rw [put]
    by_cases hrow : key row = key a
    · rw [if_pos hrow, rowOf_cons, rowOf_cons, hrow]
      by_cases hk : key a = k
      · simp [hk]
      · simp [hk]
    · rw [if_neg hrow, rowOf_cons, ih, rowOf_cons]
      by_cases hk : key a = k
      · subst hk
        simp [hrow]
      · simp [hk]

theorem rowOf_of_mem (h : DistinctKeys key rows) (hrow : row ∈ rows) : rowOf key (key row) rows = some row := by
  induction rows with
  | nil => simp at hrow
  | cons first rows ih =>
    obtain ⟨hfirst, hrows⟩ := List.pairwise_cons.mp h
    rw [rowOf_cons]
    rcases List.mem_cons.mp hrow with rfl | hmem
    · simp
    · rw [if_neg (hfirst row hmem), ih hrows hmem]

/-- In a table a lookup finds just the rows it has. -/
theorem rowOf_eq_some (h : DistinctKeys key rows) : rowOf key k rows = some row ↔ row ∈ rows ∧ key row = k := by
  constructor
  · exact rowOf_some
  · intro hrow
    rw [← hrow.2]
    exact rowOf_of_mem h hrow.1

theorem eq_of_rowOf (h : DistinctKeys key rows) (hget : rowOf key k rows = some a) (hrow : row ∈ rows)
    (hk : key row = k) : row = a := by
  have hfound : rowOf key k rows = some row := (rowOf_eq_some h).mpr ⟨hrow, hk⟩
  exact Option.mem_unique hfound hget

theorem rowOf_putSorted [LT κ] [DecidableLT κ] :
    rowOf key k (putSorted key a rows) = if key a = k then some a else rowOf key k rows := by
  induction rows with
  | nil => exact rowOf_cons
  | cons row rows ih =>
    rw [putSorted]
    by_cases hrow : key row = key a
    · rw [if_pos hrow, rowOf_cons, rowOf_cons, hrow]
      by_cases hk : key a = k
      · simp [hk]
      · simp [hk]
    · rw [if_neg hrow]
      split
      · exact rowOf_cons
      · rw [rowOf_cons, ih, rowOf_cons]
        by_cases hk : key a = k
        · subst hk
          simp [hrow]
        · simp [hk]

theorem rowOf_congr {key' : α → κ} (h : ∀ row ∈ rows, key row = key' row) : rowOf key k rows = rowOf key' k rows := by
  induction rows with
  | nil => rfl
  | cons row rows ih =>
    rw [rowOf_cons, rowOf_cons, h row List.mem_cons_self,
      ih fun r hr => h r (List.mem_cons_of_mem _ hr)]

theorem rowOf_map {f : α → α} (h : ∀ row, key (f row) = key row) :
    rowOf key k (rows.map f) = (rowOf key k rows).map f := by
  induction rows with
  | nil => rfl
  | cons row rows ih =>
    rw [List.map_cons, rowOf_cons, rowOf_cons, ih, h]
    split <;> rfl

theorem rowOf_eq_none_of_fresh (h : ∀ row ∈ rows, key a ≠ key row) : rowOf key (key a) rows = none := by
  rw [rowOf, List.find?_eq_none]
  intro row hrow
  simpa using Ne.symm (h row hrow)

theorem rowOf_filter {p : α → Bool} (h : DistinctKeys key rows) :
    rowOf key k (rows.filter p) = (rowOf key k rows).filter p := by
  induction rows with
  | nil => rfl
  | cons row rows ih =>
    obtain ⟨hrow, hrows⟩ := List.pairwise_cons.mp h
    by_cases hp : p row
    · rw [List.filter_cons_of_pos hp, rowOf_cons, rowOf_cons, ih hrows]
      split
      · simp [Option.filter, hp]
      · rfl
    · rw [List.filter_cons_of_neg hp, rowOf_cons, ih hrows]
      by_cases hk : key row = k
      · rw [if_pos hk, ← hk, rowOf_eq_none_of_fresh hrow]
        simp [Option.filter, hp]
      · rw [if_neg hk]

/-- Rows made of the rows of a table, each under the key it came from. -/
theorem rowOf_filterMap {β : Type} {key' : β → κ} {f : α → Option β} (h : DistinctKeys key rows)
    (hf : ∀ row b, f row = some b → key' b = key row) :
    rowOf key' k (rows.filterMap f) = (rowOf key k rows).bind f := by
  induction rows with
  | nil => rfl
  | cons row rows ih =>
    obtain ⟨hrow, hrows⟩ := List.pairwise_cons.mp h
    have hrest := ih hrows
    rw [rowOf_cons]
    cases hb : f row with
    | none =>
      rw [List.filterMap_cons_none hb, hrest]
      by_cases hk : key row = k
      · rw [if_pos hk, ← hk, rowOf_eq_none_of_fresh hrow]
        exact hb.symm
      · rw [if_neg hk]
    | some b =>
      have hkey : key' b = key row := hf row b hb
      rw [List.filterMap_cons_some hb, rowOf_cons, hrest, hkey]
      by_cases hk : key row = k
      · rw [if_pos hk, if_pos hk]
        exact hb.symm
      · rw [if_neg hk, if_neg hk]

omit [DecidableEq κ] in
theorem distinctKeys_filterMap {β : Type} {key' : β → κ} {f : α → Option β} (h : DistinctKeys key rows)
    (hf : ∀ row b, f row = some b → key' b = key row) : DistinctKeys key' (rows.filterMap f) := by
  refine List.Pairwise.filterMap f ?_ h
  intro row row' hne b hb b' hb'
  rw [hf row b hb, hf row' b' hb']
  exact hne

/-- Taking out a key takes out its row and no other. -/
theorem mem_eraseP_key (h : DistinctKeys key rows) : row ∈ rows.eraseP (key · = k) ↔ row ∈ rows ∧ key row ≠ k := by
  induction rows with
  | nil => simp
  | cons first rows ih =>
    obtain ⟨hfirst, hrows⟩ := List.pairwise_cons.mp h
    by_cases hk : key first = k
    · rw [List.eraseP_cons_of_pos (by simp [hk]), List.mem_cons]
      constructor
      · intro hrow
        exact ⟨.inr hrow, hk ▸ Ne.symm (hfirst row hrow)⟩
      · intro hrow
        rcases hrow with ⟨rfl | hrow, hne⟩
        · exact absurd hk hne
        · exact hrow
    · rw [List.eraseP_cons_of_neg (by simp [hk]), List.mem_cons, List.mem_cons, ih hrows]
      constructor
      · intro hrow
        rcases hrow with rfl | hrow
        · exact ⟨.inl rfl, hk⟩
        · exact ⟨.inr hrow.1, hrow.2⟩
      · intro hrow
        rcases hrow with ⟨rfl | hrow, hne⟩
        · exact .inl rfl
        · exact .inr ⟨hrow, hne⟩

/-! ## Rows put one by one -/

section

variable (h : DistinctKeys key rows)
include h

theorem mem_put : row ∈ put key a rows ↔ row = a ∨ row ∈ rows ∧ key row ≠ key a := by
  induction rows with
  | nil => simp [put]
  | cons first rows ih =>
    obtain ⟨hfirst, hrows⟩ := List.pairwise_cons.mp h
    rw [put]
    by_cases heq : key first = key a
    · -- no later row has this key
      have hne : ∀ r ∈ rows, key r ≠ key a := by
        intro r hr hsame
        exact hfirst r hr (heq.trans hsame.symm)
      rw [if_pos heq]
      simp only [List.mem_cons]
      constructor
      · intro hrow
        rcases hrow with rfl | hrow
        · exact .inl rfl
        · exact .inr ⟨.inr hrow, hne row hrow⟩
      · intro hrow
        rcases hrow with rfl | ⟨rfl | hrow, hkey⟩
        · exact .inl rfl
        · exact absurd heq hkey
        · exact .inr hrow
    · rw [if_neg heq]
      simp only [List.mem_cons, ih hrows]
      constructor
      · intro hrow
        rcases hrow with rfl | rfl | ⟨hrow, hkey⟩
        · exact .inr ⟨.inl rfl, heq⟩
        · exact .inl rfl
        · exact .inr ⟨.inr hrow, hkey⟩
      · intro hrow
        rcases hrow with rfl | ⟨rfl | hrow, hkey⟩
        · exact .inr (.inl rfl)
        · exact .inl rfl
        · exact .inr (.inr ⟨hrow, hkey⟩)

theorem distinctKeys_put : DistinctKeys key (put key a rows) := by
  induction rows with
  | nil => simp [put, DistinctKeys]
  | cons first rows ih =>
    obtain ⟨hfirst, hrows⟩ := List.pairwise_cons.mp h
    rw [put]
    by_cases heq : key first = key a
    · rw [if_pos heq]
      refine List.pairwise_cons.mpr ⟨?_, hrows⟩
      intro r hr
      rw [← heq]
      exact hfirst r hr
    · rw [if_neg heq]
      refine List.pairwise_cons.mpr ⟨?_, ih hrows⟩
      intro r hr
      rcases (mem_put hrows).mp hr with rfl | ⟨hr, -⟩
      · exact heq
      · exact hfirst r hr

theorem distinctKeys_putAll : DistinctKeys key (putAll key rows incoming) := by
  induction incoming generalizing rows with
  | nil => exact h
  | cons a incoming ih => exact ih (distinctKeys_put h)

/-- A table put over another: the incoming rows win. -/
theorem mem_putAll (hincoming : DistinctKeys key incoming) : row ∈ putAll key rows incoming ↔
      row ∈ incoming ∨ row ∈ rows ∧ ∀ a ∈ incoming, key a ≠ key row := by
  induction incoming generalizing rows with
  | nil => simp [putAll]
  | cons a incoming ih =>
    obtain ⟨hfresh, hrest⟩ := List.pairwise_cons.mp hincoming
    have hmem := ih (distinctKeys_put (a := a) h) hrest
    rw [mem_put h] at hmem
    rw [putAll, List.foldl_cons]
    rw [putAll] at hmem
    rw [hmem]
    simp only [List.mem_cons]
    constructor
    · intro hrow
      rcases hrow with hrow | ⟨rfl | ⟨hrow, hne⟩, hrest⟩
      · exact .inl (.inr hrow)
      · exact .inl (.inl rfl)
      · refine .inr ⟨hrow, ?_⟩
        intro b hb
        rcases hb with rfl | hb
        · exact Ne.symm hne
        · exact hrest b hb
    · intro hrow
      rcases hrow with (rfl | hrow) | ⟨hrow, hrest⟩
      · exact .inr ⟨.inl rfl, fun b hb => Ne.symm (hfresh b hb)⟩
      · exact .inl hrow
      · exact .inr ⟨.inr ⟨hrow, Ne.symm (hrest a (.inl rfl))⟩, fun b hb => hrest b (.inr hb)⟩

end

theorem rowOf_putAll (hincoming : DistinctKeys key incoming) :
    rowOf key k (putAll key rows incoming) = (rowOf key k incoming).or (rowOf key k rows) := by
  induction incoming generalizing rows with
  | nil => rfl
  | cons a incoming ih =>
    obtain ⟨hfresh, hrest⟩ := List.pairwise_cons.mp hincoming
    have hput : rowOf key k (putAll key (put key a rows) incoming) = _ := ih hrest
    rw [putAll] at hput
    rw [putAll, List.foldl_cons, hput, rowOf_put, rowOf_cons]
    by_cases hk : key a = k
    · rw [if_pos hk, if_pos hk, ← hk, rowOf_eq_none_of_fresh hfresh]
      rfl
    · rw [if_neg hk, if_neg hk]

/-! ## Sorted maps -/

section

variable {κ : Type} [LinearOrder κ] {key : α → κ} {a row : α} {rows : List α}

theorem mem_putSorted_of (h : row ∈ putSorted key a rows) : row = a ∨ row ∈ rows := by
  induction rows with
  | nil => exact .inl (by simpa [putSorted] using h)
  | cons first rows ih =>
    rw [putSorted] at h
    split at h
    · rcases List.mem_cons.mp h with rfl | h
      · exact .inl rfl
      · exact .inr (List.mem_cons_of_mem _ h)
    · split at h
      · exact List.mem_cons.mp h
      · rcases List.mem_cons.mp h with rfl | h
        · exact .inr List.mem_cons_self
        · rcases ih h with rfl | h
          · exact .inl rfl
          · exact .inr (List.mem_cons_of_mem _ h)

theorem sorted_putSorted (h : rows.Pairwise (key · < key ·)) : (putSorted key a rows).Pairwise (key · < key ·) := by
  induction rows with
  | nil => simp [putSorted]
  | cons first rows ih =>
    obtain ⟨hfirst, hrows⟩ := List.pairwise_cons.mp h
    rw [putSorted]
    by_cases heq : key first = key a
    · rw [if_pos heq]
      exact List.pairwise_cons.mpr ⟨fun r hr => heq ▸ hfirst r hr, hrows⟩
    · rw [if_neg heq]
      by_cases hlt : key a < key first
      · rw [if_pos hlt]
        refine List.pairwise_cons.mpr ⟨?_, h⟩
        intro r hr
        rcases List.mem_cons.mp hr with rfl | hr
        · exact hlt
        · exact lt_trans hlt (hfirst r hr)
      · rw [if_neg hlt]
        refine List.pairwise_cons.mpr ⟨?_, ih hrows⟩
        intro r hr
        rcases mem_putSorted_of hr with rfl | hr
        · exact lt_of_le_of_ne (not_lt.mp hlt) heq
        · exact hfirst r hr

theorem mem_putSorted_self : a ∈ putSorted key a rows := by
  induction rows with
  | nil => simp [putSorted]
  | cons first rows ih =>
    rw [putSorted]
    split
    · exact List.mem_cons_self
    · split
      · exact List.mem_cons_self
      · exact List.mem_cons_of_mem _ ih

theorem mem_putSorted_of_mem (h : row ∈ rows) (hne : key row ≠ key a) : row ∈ putSorted key a rows := by
  induction rows with
  | nil => cases h
  | cons first rows ih =>
    rw [putSorted]
    by_cases heq : key first = key a
    · rw [if_pos heq]
      rcases List.mem_cons.mp h with rfl | h
      · exact absurd heq hne
      · exact List.mem_cons_of_mem _ h
    · rw [if_neg heq]
      split
      · exact List.mem_cons_of_mem _ h
      · rcases List.mem_cons.mp h with rfl | h
        · exact List.mem_cons_self
        · exact List.mem_cons_of_mem _ (ih h)

theorem distinctKeys_of_sorted (h : rows.Pairwise (key · < key ·)) : DistinctKeys key rows :=
  h.imp fun hlt => ne_of_lt hlt

end

/-- A sorted map whose rows each know their key. -/
structure RowMap {α κ : Type} [LinearOrder κ] (key : α → κ) where
  rows : List α := []
  sorted : rows.Pairwise (key · < key ·) := by simp

namespace RowMap

variable {α κ : Type} [LinearOrder κ] {key : α → κ} {m : RowMap key} {a row : α} {k k' : κ}

def find (m : RowMap key) (k : κ) : Option α := rowOf key k m.rows

def insert (m : RowMap key) (a : α) : RowMap key where
  rows := putSorted key a m.rows
  sorted := sorted_putSorted m.sorted

def erase (m : RowMap key) (k : κ) : RowMap key where
  rows := m.rows.eraseP (key · = k)
  sorted := m.sorted.sublist List.eraseP_sublist

@[simp] theorem find_empty : ({} : RowMap key).find k = none := rfl

theorem key_of_find (h : m.find k = some row) : key row = k := (rowOf_some h).2

theorem mem_of_find (h : m.find k = some row) : row ∈ m.rows := (rowOf_some h).1

theorem find_of_mem (h : row ∈ m.rows) : m.find (key row) = some row :=
  rowOf_of_mem (distinctKeys_of_sorted m.sorted) h

theorem find_insert : (m.insert a).find k = if key a = k then some a else m.find k :=
  rowOf_putSorted

theorem find_erase : (m.erase k).find k' = if k' = k then none else m.find k' := by
  have hkeys : DistinctKeys key m.rows := distinctKeys_of_sorted m.sorted
  have herased : DistinctKeys key (m.erase k).rows := distinctKeys_of_sorted (m.erase k).sorted
  apply Option.ext
  intro row
  have hmem : row ∈ (m.erase k).rows ↔ row ∈ m.rows ∧ key row ≠ k := mem_eraseP_key hkeys
  rw [find, rowOf_eq_some herased, hmem]
  by_cases hk : k' = k
  · simp [hk]
  · rw [if_neg hk, find, rowOf_eq_some hkeys]
    constructor
    · intro h
      exact ⟨h.1.1, h.2⟩
    · intro h
      refine ⟨⟨h.1, ?_⟩, h.2⟩
      intro hrow
      exact hk (h.2.symm.trans hrow)

end RowMap

end Pbr.Lib
