import PpBrowser.Lib.Sorted

/-!
# TableMerge — two tables made one

The rows of one table are met by those of another: two rows of one key become
one, and a row met by none is taken over. A table sorted by its keys is known
by its lookups, so where the meeting of rows settles, the merge of tables
does.
-/

namespace Pbr.Lib

variable {α κ : Type} [DecidableEq κ] (key : α → κ) (meet : α → α → α)

/-- `theirs` met by the row with its key, or put last. -/
def meetRow (rows : List α) (theirs : α) : List α :=
  match rowOf key (key theirs) rows with
  | none => rows ++ [theirs]
  | some mine => put key (meet mine theirs) rows

def meetAll (rows theirs : List α) : List α := theirs.foldl (meetRow key meet) rows

variable {key meet} {a : α} {rows rows' theirs : List α} {k : κ}

theorem rowOf_append : rowOf key k (rows ++ rows') = (rowOf key k rows).or (rowOf key k rows') := List.find?_append

theorem rowOf_perm (hperm : rows.Perm rows') (h : DistinctKeys key rows) : rowOf key k rows = rowOf key k rows' := by
  have h' : DistinctKeys key rows' := hperm.pairwise h fun hne => Ne.symm hne
  apply Option.ext
  intro row
  rw [rowOf_eq_some h, rowOf_eq_some h', hperm.mem_iff]

theorem distinctKeys_append (h : DistinctKeys key rows) (ha : rowOf key (key a) rows = none) :
    DistinctKeys key (rows ++ [a]) := by
  refine List.pairwise_append.mpr ⟨h, List.pairwise_singleton _ _, ?_⟩
  intro row hrow b hb heq
  rw [List.mem_singleton.mp hb] at heq
  rw [rowOf, List.find?_eq_none] at ha
  exact ha row hrow (by simpa using heq)

/-! ## Meeting row by row -/

theorem distinctKeys_meetRow (h : DistinctKeys key rows) : DistinctKeys key (meetRow key meet rows a) := by
  rw [meetRow]
  split
  · next hnone => exact distinctKeys_append h hnone
  · exact distinctKeys_put h

theorem distinctKeys_meetAll (h : DistinctKeys key rows) : DistinctKeys key (meetAll key meet rows theirs) := by
  induction theirs generalizing rows with
  | nil => exact h
  | cons a theirs ih => exact ih (distinctKeys_meetRow h)

section

variable (hkey : ∀ mine theirs, key mine = key theirs → key (meet mine theirs) = key theirs)

include hkey

theorem rowOf_meetRow : rowOf key k (meetRow key meet rows a) =
      Option.merge meet (rowOf key k rows) (if key a = k then some a else none) := by
  rw [meetRow]
  cases hrow : rowOf key (key a) rows with
  | none =>
    rw [rowOf_append, rowOf_cons]
    by_cases hk : key a = k
    · rw [← hk, hrow]
      simp
    · cases rowOf key k rows <;> simp [hk, rowOf]
  | some mine =>
    have hmine : key mine = key a := (rowOf_some hrow).2
    rw [rowOf_put, hkey mine a hmine]
    by_cases hk : key a = k
    · rw [← hk, hrow]
      simp
    · simp [hk]

/-- The rows of the merge: both sides' rows of a key, met. -/
theorem rowOf_meetAll (htheirs : DistinctKeys key theirs) :
    rowOf key k (meetAll key meet rows theirs) = Option.merge meet (rowOf key k rows) (rowOf key k theirs) := by
  induction theirs generalizing rows with
  | nil => exact Option.merge_none_right.symm
  | cons a theirs ih =>
    obtain ⟨hfresh, hrest⟩ := List.pairwise_cons.mp htheirs
    have hcons : meetAll key meet rows (a :: theirs) = meetAll key meet (meetRow key meet rows a) theirs := rfl
    rw [hcons, ih hrest, rowOf_meetRow hkey, rowOf_cons]
    by_cases hk : key a = k
    · rw [if_pos hk, if_pos hk, ← hk, rowOf_eq_none_of_fresh hfresh, Option.merge_none_right]
    · rw [if_neg hk, if_neg hk, Option.merge_none_right]

end

/-- A side whose rows the result absorbs changes nothing when it meets it
again. -/
theorem merge_absorbs (habsorbs : ∀ mine theirs, meet mine (meet mine theirs) = meet mine theirs)
    (hself : ∀ mine, meet mine mine = mine) {mine theirs : Option α} :
    Option.merge meet mine (Option.merge meet mine theirs) = Option.merge meet mine theirs := by
  cases mine with
  | none => simp
  | some mine =>
    cases theirs with
    | none => simp [hself]
    | some theirs => simp [habsorbs]

theorem merge_self (hself : ∀ mine, meet mine mine = mine) {mine : Option α} :
    Option.merge meet mine mine = mine := by
  cases mine with
  | none => rfl
  | some mine => simp [hself]

/-! ## Sorted tables -/

section

variable {κ : Type} [LinearOrder κ] {key : α → κ} {rows rows' : List α}

/-- A table sorted by its keys is known by its lookups. -/
theorem eq_of_rowOf_eq (h : rows.Pairwise (key · < key ·)) (h' : rows'.Pairwise (key · < key ·))
    (hsame : ∀ k, rowOf key k rows = rowOf key k rows') : rows = rows' := by
  have hmem : ∀ row, row ∈ rows ↔ row ∈ rows' := by
    intro row
    have hone := @rowOf_eq_some _ _ _ key row _ (key row) (distinctKeys_of_sorted h)
    rw [hsame, rowOf_eq_some (distinctKeys_of_sorted h')] at hone
    simpa using hone.symm
  exact sorted_ext h h' hmem

def sortRows (key : α → κ) (rows : List α) : List α := rows.insertionSort (key · ≤ key ·)

theorem sorted_sortRows (h : DistinctKeys key rows) : (sortRows key rows).Pairwise (key · < key ·) := by
  have hperm : (sortRows key rows).Perm rows := List.perm_insertionSort _ rows
  have hdistinct : DistinctKeys key (sortRows key rows) := hperm.symm.pairwise h fun hne => Ne.symm hne
  have htotal : Std.Total fun a b : α => key a ≤ key b := ⟨fun a b => le_total (key a) (key b)⟩
  have htrans : IsTrans α fun a b => key a ≤ key b := ⟨fun _ _ _ => le_trans⟩
  have hsorted : (sortRows key rows).Pairwise (key · ≤ key ·) := List.pairwise_insertionSort _ rows
  exact hsorted.imp₂ (fun _ _ hle hne => lt_of_le_of_ne hle hne) hdistinct

theorem rowOf_sortRows {k : κ} (h : DistinctKeys key rows) : rowOf key k (sortRows key rows) = rowOf key k rows :=
  (rowOf_perm (List.perm_insertionSort _ rows).symm h).symm

end

end Pbr.Lib
