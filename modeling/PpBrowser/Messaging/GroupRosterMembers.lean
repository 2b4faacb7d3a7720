import PpBrowser.Messaging.GroupRosterStatement
import PpBrowser.Messaging.GroupRosterVerdicts

/-!
# GroupRosterMembers — who the view lists

The statement's rows by account, the roster `RunAdds` grows from the
statement's standing members, and the view's members and removed rows in
these terms.
-/

namespace Pbr

open Lib

namespace RosterRules

/-! ## The statement's rows -/

section Statement

variable {s : GroupRosterStatement} {now : Int} {changes : List CheckedGroupChange}
  {m : GroupRosterStatementMember}

theorem sMembers_indexed : (indexed s now changes).sMembers = (start s now).sMembers :=
  indexed_kept.2.2.1

theorem sRemoved_indexed : (indexed s now changes).sRemoved = (start s now).sRemoved :=
  indexed_kept.2.2.2.1

theorem sMembers_iff (hmembers : (s.members.map (·.identity)).Nodup) {k : String} :
    (indexed s now changes).sMembers[k]? = some m ↔ m ∈ s.members ∧ m.identity = k := by
  rw [sMembers_indexed]
  refine (getElem?_fill_iff (·.identity) (fun m : GroupRosterStatementMember => m)
    hmembers).trans ?_
  constructor
  · rintro ⟨m', hm, hk, rfl⟩
    exact ⟨hm, hk⟩
  · rintro ⟨hm, hk⟩
    exact ⟨m, hm, hk, rfl⟩

theorem sRemoved_iff (hremoved : (s.removed.map (·.identity)).Nodup) {k : String} {r : GroupRemovedMember} :
    (indexed s now changes).sRemoved[k]? = some r ↔ r ∈ s.removed ∧ r.identity = k := by
  rw [sRemoved_indexed]
  refine (getElem?_fill_iff (·.identity) (fun r : GroupRemovedMember => r)
    hremoved).trans ?_
  constructor
  · rintro ⟨r', hr, hk, rfl⟩
    exact ⟨hr, hk⟩
  · rintro ⟨hr, hk⟩
    exact ⟨r, hr, hk, rfl⟩

theorem inStatement_indexed (account : String) : (indexed s now changes).inStatement account = s.lists account := by
  rw [Bool.eq_iff_iff, inStatement, sMembers_indexed, GroupRosterStatement.lists_iff]
  refine (contains_fill (·.identity) (fun m : GroupRosterStatementMember => m) s.members ∅
    account).trans ?_
  simp

theorem statementRole_of_mem (hs : s.Structured)
    (hm : m ∈ s.members) : (indexed s now changes).statementRole m.identity = m.role := by
  have h : (indexed s now changes).sMembers[m.identity]? = some m := (sMembers_iff hs.members).mpr ⟨hm, rfl⟩
  simp only [statementRole, h]

theorem statementRole_of_not_lists {account : String} (h : s.lists account = false) :
    (indexed s now changes).statementRole account = .member := by
  have h : (indexed s now changes).inStatement account = false := (inStatement_indexed account).trans h
  rw [inStatement, Std.ExtTreeMap.contains_eq_isSome_getElem?, Option.isSome_eq_false_iff,
    Option.isNone_iff_eq_none] at h
  simp only [statementRole, h]

theorem statementRole_owner (hs : s.Structured) {account : String} :
    (indexed s now changes).statementRole account = .owner ↔ account = s.ownerIdentity := by
  obtain ⟨owner, ho, hrole⟩ := hs.ownerRow
  have hoid := hs.owner owner ho hrole
  constructor
  · intro h
    by_cases hl : s.lists account = true
    · obtain ⟨m, hm, rfl⟩ := GroupRosterStatement.lists_iff.mp hl
      rw [statementRole_of_mem hs hm] at h
      exact hs.owner m hm h
    · rw [statementRole_of_not_lists (by simpa using hl)] at h
      cases h
  · rintro rfl
    rw [← hoid, statementRole_of_mem hs ho, hrole]

theorem sMembers_size_le : (indexed s now changes).sMembers.size ≤ s.members.length := by
  rw [sMembers_indexed]
  have h (l : List GroupRosterStatementMember) (m : StrMap GroupRosterStatementMember) :
      (l.foldl (fun m row => m.insert row.identity row) m).size ≤ m.size + l.length := by
    induction l generalizing m with
    | nil => simp
    | cons row l ih =>
      have hinsert := Std.ExtTreeMap.size_insert_le (t := m) (k := row.identity) (v := row)
      refine (ih (m.insert row.identity row)).trans ?_
      rw [List.length_cons]
      omega
  simpa [start] using h s.members ∅

end Statement

/-! ## The roster the adds grow -/

section Grown

variable (x : RosterRules) (v : Fact → Bool) (reasons : StrMap GroupChangeReason)

/-- From the statement's standing members, each of the others in by an open
add that no counting leave names. -/
structure Grown (j : Joined) : Prop where
  standing : ∀ a, x.standsUnder v a = true → a ∈ j.in_
  source : ∀ a ∈ j.in_, x.standsUnder v a = true ∨ a ∈ j.joinedBy
  joined : ∀ (k : String) (a : CheckedGroupChange), j.joinedBy[k]? = some a →
    a ∈ x.openAdds reasons ∧ a.change.member = k ∧ reasons[a.id]? = some .none ∧
      a.id ∈ j.accepted ∧ x.standsUnder v k = false ∧ k ∈ j.in_
  accepted : ∀ id : String, id ∈ j.accepted → ∃ a ∈ x.openAdds reasons, a.id = id
  present : ∀ a ∈ j.in_, a ∈ j.present
  presentOnly : ∀ a ∈ j.present, x.presentUnder v a = true ∨
    ∃ add ∈ x.openAdds reasons, add.id ∈ j.accepted ∧ add.change.member = a
  size : j.in_.size ≤ max kMaxGroupMembers x.sMembers.size

theorem grown_standing : x.Grown v reasons (x.standingMembers.under v) := by
  obtain ⟨hacc, hjoin, hsize⟩ := x.standingMembers_rest v
  refine ⟨fun a ha => ((x.under_standingMembers v a).1).mpr ha,
    fun a ha => .inl (((x.under_standingMembers v a).1).mp ha), ?_, ?_, ?_, ?_, ?_⟩
  · simp [hjoin]
  · simp [hacc]
  · intro a ha
    rw [(x.under_standingMembers v a).1, standsUnder, Bool.and_eq_true] at ha
    exact ((x.under_standingMembers v a).2).mpr ha.1
  · exact fun a ha => .inl (((x.under_standingMembers v a).2).mp ha)
  · exact hsize.trans (le_max_right _ _)

variable {x v reasons} {a : CheckedGroupChange}

/-- What taking an add in does: for one a leave names, its member is present
only; for a member who is in, nothing; else a place is taken. -/
theorem takeIn_cases {j j' : Joined} (h : takeIn reasons j a = some j') :
    (reasons[a.id]? = some .namedByLeave ∧ j' = { j with
      present := j.present.insert a.change.member, accepted := j.accepted.insert a.id }) ∨
    (reasons[a.id]? ≠ some .namedByLeave ∧ a.change.member ∈ j.in_ ∧
      j' = { j with accepted := j.accepted.insert a.id }) ∨
    (reasons[a.id]? ≠ some .namedByLeave ∧ a.change.member ∉ j.in_ ∧
      j.in_.size < kMaxGroupMembers ∧ j' = {
        in_ := j.in_.insert a.change.member, present := j.present.insert a.change.member
        joinedBy := j.joinedBy.insert a.change.member a
        accepted := j.accepted.insert a.id }) := by
  unfold takeIn at h
  by_cases hleave : reasons[a.id]? = some .namedByLeave
  · simp only [if_pos hleave, Option.some.injEq] at h
    exact .inl ⟨hleave, h.symm⟩
  · by_cases hin : a.change.member ∈ j.in_
    · simp only [if_neg hleave, if_pos hin, Option.some.injEq] at h
      exact .inr (.inl ⟨hleave, hin, h.symm⟩)
    · by_cases hsize : j.in_.size ≥ kMaxGroupMembers
      · simp [if_neg hleave, if_neg hin, if_pos hsize] at h
      · simp only [if_neg hleave, if_neg hin, if_neg hsize, Option.some.injEq] at h
        exact .inr (.inr ⟨hleave, hin, by omega, h.symm⟩)

/-- Taking an open add in keeps the roster grown. -/
theorem Grown.takeIn {j j' : Joined} (h : x.Grown v reasons j)
    (ha : a ∈ x.openAdds reasons) (ht : takeIn reasons j a = some j') : x.Grown v reasons j' := by
  have hreason : reasons[a.id]? = some .none ∨ reasons[a.id]? = some .namedByLeave := by
    simpa using (List.mem_filter.mp ha).2
  have haccepted (id : String) (hid : id ∈ j.accepted.insert a.id) :
      ∃ a ∈ x.openAdds reasons, a.id = id := by
    rw [Std.ExtTreeSet.mem_insert] at hid
    rcases hid with hid | hid
    · exact ⟨a, ha, by simpa using hid⟩
    · exact h.accepted id hid
  have hjoined (k : String) (b : CheckedGroupChange) (hb : j.joinedBy[k]? = some b) :
      b ∈ x.openAdds reasons ∧ b.change.member = k ∧ reasons[b.id]? = some .none ∧
        b.id ∈ j.accepted.insert a.id ∧ x.standsUnder v k = false ∧ k ∈ j.in_ := by
    obtain ⟨h₁, h₂, h₃, h₄, h₅, h₆⟩ := h.joined k b hb
    exact ⟨h₁, h₂, h₃, by simp [h₄], h₅, h₆⟩
  have hpresent (b : String) (hb : b ∈ j.present) : x.presentUnder v b = true ∨
      ∃ add ∈ x.openAdds reasons, add.id ∈ j.accepted.insert a.id ∧ add.change.member = b := by
    rcases h.presentOnly b hb with hb | ⟨add, hadd, hacc, hm⟩
    · exact .inl hb
    · exact .inr ⟨add, hadd, by simp [hacc], hm⟩
  have hnew : ∃ add ∈ x.openAdds reasons, add.id ∈ j.accepted.insert a.id ∧
      add.change.member = a.change.member := ⟨a, ha, by simp, rfl⟩
  rcases takeIn_cases ht with ⟨-, rfl⟩ | ⟨-, -, rfl⟩ | ⟨hleave, hmember, hsize, rfl⟩
  · refine ⟨h.standing, h.source, hjoined, haccepted, fun b hb => ?_, fun b hb => ?_, h.size⟩
    · simp [h.present b hb]
    · rw [Std.ExtTreeSet.mem_insert] at hb
      rcases hb with hb | hb
      · obtain rfl : a.change.member = b := by simpa using hb
        exact .inr hnew
      · exact hpresent b hb
  · exact ⟨h.standing, h.source, hjoined, haccepted, h.present, hpresent, h.size⟩
  · have hnone : reasons[a.id]? = some .none := hreason.resolve_right hleave
    refine ⟨fun b hb => ?_, fun b hb => ?_, fun k b hb => ?_, haccepted,
      fun b hb => ?_, fun b hb => ?_, ?_⟩
    · simp [h.standing b hb]
    · rw [Std.ExtTreeSet.mem_insert] at hb
      simp only [Std.ExtTreeMap.mem_insert]
      rcases hb with hb | hb
      · exact .inr (.inl hb)
      · exact (h.source b hb).imp id .inr
    · rw [Std.ExtTreeMap.getElem?_insert] at hb
      split at hb
      · next hk =>
          obtain rfl : a.change.member = k := by simpa using hk
          cases hb
          refine ⟨ha, rfl, hnone, by simp, ?_, by simp⟩
          by_contra hst
          exact hmember (h.standing _ (by simpa using hst))
      · obtain ⟨h₁, h₂, h₃, h₄, h₅, h₆⟩ := hjoined k b hb
        exact ⟨h₁, h₂, h₃, h₄, h₅, by simp [h₆]⟩
    · rw [Std.ExtTreeSet.mem_insert] at hb ⊢
      exact hb.imp id (h.present b)
    · rw [Std.ExtTreeSet.mem_insert] at hb
      rcases hb with hb | hb
      · obtain rfl : a.change.member = b := by simpa using hb
        exact .inr hnew
      · exact hpresent b hb
    · exact (Std.ExtTreeSet.size_insert_le.trans hsize).trans (le_max_left _ _)

end Grown

theorem joined_eq (x : RosterRules) : x.joined = (x.acceptPasses x.reasons (x.openAdds x.reasons)
      ((x.openAdds x.reasons).length + 1) (x.standingMembers.under x.oracle)).under x.oracle := by
  rw [joined, under_runAdds]
  rfl

theorem grown_joined (x : RosterRules) : x.Grown x.oracle x.reasons x.joined := by
  rw [joined_eq]
  exact acceptPasses_induct (P := x.Grown x.oracle x.reasons)
    (fun j a j' hj ha _ _ ht => hj.takeIn ha ht) _ _ (x.grown_standing _ _)

/-- Someone an add brought in found room. -/
theorem joined_size (x : RosterRules) {account : String} (hin : account ∈ x.joined.in_)
    (hnew : x.inStatement account = false) : x.joined.in_.size ≤ kMaxGroupMembers := by
  have hroom : x.joined.in_ = (x.standingMembers.under x.oracle).in_ ∨
      x.joined.in_.size ≤ kMaxGroupMembers := by
    rw [joined_eq]
    refine acceptPasses_induct (P := fun j => j.in_ = (x.standingMembers.under x.oracle).in_ ∨
      j.in_.size ≤ kMaxGroupMembers) ?_ _ _ (.inl rfl)
    intro j a j' hj _ _ _ ht
    rcases takeIn_cases ht with ⟨-, rfl⟩ | ⟨-, -, rfl⟩ | ⟨-, -, hsize, rfl⟩
    · exact hj
    · exact hj
    · exact .inr (Std.ExtTreeSet.size_insert_le.trans hsize)
  rcases hroom with hsame | hroom
  · rw [hsame, (x.under_standingMembers x.oracle account).1, standsUnder, presentUnder, hnew] at hin
    cases hin
  · exact hroom

/-! ## The rows of the view -/

section Rows

variable {x : RosterRules}

variable {identity : String} {row : GroupRosterViewMember}

/-- A row is a member's by the add that brought them in, else the
statement's. -/
theorem memberRow_cases {j : Joined}
    (h : x.memberRow j identity = some row) :
    (∃ a, j.joinedBy[identity]? = some a ∧ row =
      { identity, role := .member, joinedAt := a.change.at_, addedBy := a.change.signer
        addedIn := a.id }) ∨
    (j.joinedBy[identity]? = none ∧ ∃ m, x.sMembers[identity]? = some m ∧ row =
      { identity, role := m.role, joinedAt := m.joinedAt, addedBy := m.addedBy }) := by
  unfold memberRow at h
  cases hj : j.joinedBy[identity]? with
  | some a =>
    rw [hj] at h
    exact .inl ⟨a, rfl, (Option.some.inj h).symm⟩
  | none =>
    rw [hj] at h
    obtain ⟨m, hm, rfl⟩ := Option.map_eq_some_iff.mp h
    exact .inr ⟨rfl, m, hm, rfl⟩

theorem memberRow_identity {j : Joined} (h : x.memberRow j identity = some row) : row.identity = identity := by
  rcases memberRow_cases h with ⟨a, -, rfl⟩ | ⟨-, m, -, rfl⟩ <;> rfl

theorem memberRow_isSome (h : identity ∈ x.joined.in_) : (x.memberRow x.joined identity).isSome := by
  unfold memberRow
  cases hj : x.joined.joinedBy[identity]? with
  | some a => rfl
  | none =>
    rcases x.grown_joined.source identity h with hs | hs
    · simp only [standsUnder, presentUnder, Bool.and_eq_true, inStatement,
        Std.ExtTreeMap.contains_eq_isSome_getElem?] at hs
      simpa using hs.1.1
    · rw [Std.ExtTreeMap.mem_iff_isSome_getElem?, hj] at hs
      cases hs

theorem mem_view_members : row ∈ x.view.members ↔
      row.identity ∈ x.joined.in_ ∧ x.memberRow x.joined row.identity = some row := by
  rw [view_eq]
  simp only [List.mem_filterMap, Std.ExtTreeSet.mem_toList]
  constructor
  · rintro ⟨identity, hin, hrow⟩
    have := memberRow_identity hrow
    exact ⟨this ▸ hin, this ▸ hrow⟩
  · rintro ⟨hin, hrow⟩
    exact ⟨_, hin, hrow⟩

theorem members_map_identity : x.view.members.map (·.identity) = x.joined.in_.toList := by
  rw [view_eq]
  simp only
  have h (l : List String) (hl : ∀ i ∈ l, i ∈ x.joined.in_) :
      (l.filterMap (x.memberRow x.joined)).map (·.identity) = l := by
    induction l with
    | nil => rfl
    | cons i l ih =>
      obtain ⟨row, hrow⟩ := Option.isSome_iff_exists.mp (memberRow_isSome (hl i (by simp)))
      rw [List.filterMap_cons, hrow, List.map_cons, memberRow_identity hrow,
        ih fun i hi => hl i (by simp [hi])]
  exact h _ fun i hi => Std.ExtTreeSet.mem_toList.mp hi

theorem members_sorted : (x.view.members.map (·.identity)).Pairwise (· < ·) := by
  rw [members_map_identity]
  exact Std.ExtTreeSet.ordered_toList.imp compare_lt_iff_lt.mp

theorem lists_view {account : String} : x.view.lists account = true ↔ account ∈ x.joined.in_ := by
  simp only [GroupRosterView.lists, GroupRosterView.find, List.find?_isSome, decide_eq_true_eq]
  constructor
  · rintro ⟨row, hrow, rfl⟩
    exact (mem_view_members.mp hrow).1
  · intro h
    obtain ⟨row, hrow⟩ := Option.isSome_iff_exists.mp (memberRow_isSome h)
    have hid := memberRow_identity hrow
    exact ⟨row, mem_view_members.mpr ⟨hid ▸ h, hid ▸ hrow⟩, hid⟩

theorem find_view (hin : identity ∈ x.joined.in_) (hrow : x.memberRow x.joined identity = some row) :
    x.view.find identity = some row := by
  have hid := memberRow_identity hrow
  have hmem : row ∈ x.view.members := mem_view_members.mpr ⟨hid ▸ hin, hid ▸ hrow⟩
  rw [GroupRosterView.find]
  cases hf : x.view.members.find? (·.identity = identity) with
  | none =>
    have := List.find?_eq_none.mp hf row hmem
    simp [hid] at this
  | some row' =>
    have hid' : row'.identity = identity := by simpa using List.find?_some hf
    have hrow' := (mem_view_members.mp (List.mem_of_find?_eq_some hf)).2
    rw [hid', hrow] at hrow'
    exact hrow'.symm

/-- The row of a member the statement lists and nobody took out. -/
theorem memberRow_of_stands (h : x.standsUnder x.oracle identity = true) :
    x.memberRow x.joined identity = (x.sMembers[identity]?).map fun m =>
      { identity, role := m.role, joinedAt := m.joinedAt, addedBy := m.addedBy } := by
  unfold memberRow
  cases hj : x.joined.joinedBy[identity]? with
  | none => rfl
  | some a =>
    obtain ⟨-, -, -, -, hs, -⟩ := x.grown_joined.joined identity a hj
    rw [h] at hs
    cases hs

end Rows

end RosterRules

end Pbr
