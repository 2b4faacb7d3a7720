import PpBrowser.Messaging.GroupRosterStatement
import PpBrowser.Messaging.GroupRosterVerdicts

/-!
# GroupRosterFold — what a fold writes

`FoldInto`'s folded list and change floor, and `FoldChanges`'s statement.
-/

namespace Pbr

open Lib

section Fold

variable {current next : GroupRosterStatement} {view : GroupRosterView}

/-- The epochs a statement records its folded ids with. -/
def recorded (s : GroupRosterStatement) : StrMap Nat :=
  s.folded.foldl (fun m f => m.insert f.id f.baseEpoch) ∅

theorem recorded_isSome {s : GroupRosterStatement} {id : String} :
    ((recorded s)[id]?).isSome ↔ ∃ f ∈ s.folded, f.id = id := by
  rw [recorded, ← Std.ExtTreeMap.mem_iff_isSome_getElem?, ← Std.ExtTreeMap.contains_iff_mem]
  exact (contains_fill GroupFoldedChange.id GroupFoldedChange.baseEpoch _ _ id).trans (by simp)

/-- The epoch a fold records for an id: the one already recorded, else that
of the verdict that folds in, at most the statement's. -/
theorem getElem?_foldedMap (hv : (view.verdicts.map (·.id)).Nodup) {id : String} {epoch : Nat} :
    (foldedMap current view)[id]? = some epoch ↔ (recorded current)[id]? = some epoch ∨
      ((recorded current)[id]? = none ∧ ∃ v ∈ view.verdicts,
        foldsIn v = true ∧ v.id = id ∧ min v.baseEpoch current.rosterEpoch = epoch) :=
  getElem?_fillNew_iff GroupChangeVerdict.id (fun v => min v.baseEpoch current.rosterEpoch) foldsIn
    hv (recorded current)

theorem foldedMap_iff (hf : (current.folded.map (·.id)).Nodup)
    (hv : (view.verdicts.map (·.id)).Nodup) {id : String} {epoch : Nat} :
    (foldedMap current view)[id]? = some epoch ↔ (∃ f ∈ current.folded, f.id = id ∧ f.baseEpoch = epoch) ∨
      ((∀ f ∈ current.folded, f.id ≠ id) ∧ ∃ v ∈ view.verdicts, foldsIn v = true ∧ v.id = id ∧
          min v.baseEpoch current.rosterEpoch = epoch) := by
  have hrecorded : (recorded current)[id]? = some epoch ↔ _ :=
    getElem?_fill_iff GroupFoldedChange.id GroupFoldedChange.baseEpoch hf
  have hnone : (recorded current)[id]? = none ↔ ∀ f ∈ current.folded, f.id ≠ id := by
    rw [← Option.not_isSome_iff_eq_none, recorded_isSome]
    simp
  rw [getElem?_foldedMap hv, hrecorded, hnone]

/-- The floor a fold sets: raised behind the new epoch, never lowered. -/
theorem foldInto_floor : (foldInto current view next).changeFloorEpoch =
    max current.changeFloorEpoch (next.rosterEpoch - kChangeFloorLag) := by
  simp only [foldInto]
  split
  · rfl
  · next h => rw [Nat.sub_eq_zero_of_le (by omega)]

theorem mem_foldInto_folded {f : GroupFoldedChange} : f ∈ (foldInto current view next).folded ↔
      (foldedMap current view)[f.id]? = some f.baseEpoch ∧
        (foldInto current view next).changeFloorEpoch ≤ f.baseEpoch := by
  obtain ⟨id, epoch⟩ := f
  simp only [foldInto, List.mem_map, List.mem_filter, Std.ExtTreeMap.mem_toList_iff_getElem?_eq_some,
    decide_eq_true_eq, Prod.exists, GroupFoldedChange.mk.injEq]
  constructor
  · rintro ⟨i, e, ⟨hm, hfloor⟩, rfl, rfl⟩
    exact ⟨hm, hfloor⟩
  · rintro ⟨hm, hfloor⟩
    exact ⟨id, epoch, ⟨hm, hfloor⟩, rfl, rfl⟩

theorem foldInto_folded_sorted : ((foldInto current view next).folded.map (·.id)).Pairwise (· < ·) := by
  simp only [foldInto, List.map_map]
  show (((foldedMap current view).toList.filter _).map Prod.fst).Pairwise (· < ·)
  refine List.Pairwise.sublist (List.filter_sublist.map Prod.fst) ?_
  rw [Std.ExtTreeMap.map_fst_toList_eq_keys]
  exact Std.ExtTreeMap.ordered_keys.imp compare_lt_iff_lt.mp

theorem recorded_foldInto {id : String} {epoch : Nat} :
    (recorded (foldInto current view next))[id]? = some epoch ↔ (foldedMap current view)[id]? = some epoch ∧
        (foldInto current view next).changeFloorEpoch ≤ epoch := by
  have hn : ((foldInto current view next).folded.map (·.id)).Nodup := foldInto_folded_sorted.imp ne_of_lt
  refine (getElem?_fill_iff GroupFoldedChange.id GroupFoldedChange.baseEpoch hn).trans ?_
  constructor
  · rintro ⟨f, hf, rfl, rfl⟩
    exact mem_foldInto_folded.mp hf
  · intro h
    exact ⟨⟨id, epoch⟩, mem_foldInto_folded.mpr h, rfl, rfl⟩

theorem foldChanges_live (hd : current.dissolved = false) :
    foldChanges current view = foldInto current view
      { current with
        rosterEpoch := u64 (current.rosterEpoch + 1), ownerSignatureB64 := ""
        members := view.members.map fun m =>
          { identity := m.identity, role := m.role, joinedAt := m.joinedAt
            addedBy := m.addedBy }
        removed := view.removed, links := view.links
        title := view.title, titleVersion := view.titleVersion } := by
  simp [foldChanges, hd]

theorem foldChanges_dissolved (hd : current.dissolved = true) :
    foldChanges current view =
      { current with
        rosterEpoch := u64 (current.rosterEpoch + 1), ownerSignatureB64 := "" } := by
  simp [foldChanges, hd]

end Fold

namespace RosterRules

theorem held_of_foldsIn {s : GroupRosterStatement} {now : Int} {changes : List CheckedGroupChange}
    (hn : (changes.map CheckedGroupChange.id).Nodup) {c : CheckedGroupChange} (hc : c ∈ changes)
    {v : GroupChangeVerdict} (hv : (run s now changes).verdict c.id = some v)
    (hfold : foldsIn v = true) : classifyOne s (foldedIds s) c = none := by
  by_contra hcl
  rw [run_verdict_classified now hn hc hcl, Option.some.injEq] at hv
  subst hv
  unfold classified at hfold
  cases ho : classifyOne s (foldedIds s) c with
  | none => exact hcl ho
  | some outcome =>
    obtain ⟨status, reason⟩ := outcome
    rw [ho] at hfold
    rcases classifyOne_some ho with rfl | ⟨rfl, rfl⟩
    · cases hfold
    · cases hfold

end RosterRules

end Pbr
