import PpBrowser.Messaging.GroupRosterReplay
import PpBrowser.Messaging.GroupRosterRows

/-!
# GroupRosterPreserved — changes that leave the statement's roster

Over a statement in the form a fold writes it, changes by nobody the
statement lists (and revokes of links it does not have) change nothing:
the view lists what the statement does.
-/

namespace Pbr

open Lib

/-- The row of the owner's statement for a row of a view. -/
def GroupRosterViewMember.stated (m : GroupRosterViewMember) : GroupRosterStatementMember :=
  { identity := m.identity, role := m.role, joinedAt := m.joinedAt, addedBy := m.addedBy }

/-- The view lists what the statement lists. -/
structure GroupRosterView.Shows (view : GroupRosterView) (s : GroupRosterStatement) : Prop where
  members : view.members.map GroupRosterViewMember.stated = s.members
  removed : view.removed = s.removed
  links : view.links = s.links
  title : view.title = s.title
  titleVersion : view.titleVersion = s.titleVersion

/-- Two views list the same roster, whatever their verdicts. -/
structure GroupRosterView.SameRoster (view view' : GroupRosterView) : Prop where
  members : view.members.map GroupRosterViewMember.stated =
    view'.members.map GroupRosterViewMember.stated
  removed : view.removed = view'.removed
  links : view.links = view'.links
  title : view.title = view'.title
  titleVersion : view.titleVersion = view'.titleVersion

theorem GroupRosterView.Shows.same {view view' : GroupRosterView} {s : GroupRosterStatement}
    (h : view.Shows s) (h' : view'.Shows s) : view.SameRoster view' :=
  ⟨h.members.trans h'.members.symm, h.removed.trans h'.removed.symm,
    h.links.trans h'.links.symm, h.title.trans h'.title.symm,
    h.titleVersion.trans h'.titleVersion.symm⟩

namespace RosterRules

/-- A statement in the form a fold writes it, with links that live at `now`. -/
structure FoldForm (s : GroupRosterStatement) (now : Int) : Prop where
  live : s.dissolved = false
  members : (s.members.map (·.identity)).Pairwise (· < ·)
  removed : (s.removed.map (·.identity)).Pairwise (· < ·)
  removedOut : ∀ r ∈ s.removed, s.lists r.identity = false
  links : (s.links.map (·.linkId)).Pairwise (· < ·)
  makers : ∀ l ∈ s.links, s.lists l.maker = true
  open_ : ∀ l ∈ s.links, now < l.expiresAt
  uses : ∀ l ∈ s.links, l.uses < 2 ^ 64

/-- No held change is a remove or a listed account's, but a revoke of a link
the statement does not have. -/
structure Quiet (x : RosterRules) : Prop where
  removes : ∀ c ∈ x.heldChanges, c.change.kind ≠ .remove
  outsiders : ∀ c ∈ x.heldChanges, c.change.kind ≠ .linkRevoke →
    x.inStatement c.change.signer = false
  revokes : ∀ c ∈ x.heldChanges, c.change.kind = .linkRevoke →
    x.inStatement c.change.signer = false ∨ ∀ l ∈ x.s.links, l.linkId ≠ c.change.linkId

section Facts

variable {x : RosterRules} (hx : x.WellIndexed) (hq : x.Quiet) {account : String}

include hx hq

theorem Quiet.removed (account : String) : x.oracle ⟨.removed, account⟩ = false := by
  by_contra h
  obtain ⟨r, hr, hk, -⟩ := oracle_removed hx (by simpa using h)
  exact hq.removes r hr hk

theorem Quiet.removeKept (id : String) : x.oracle ⟨.removeKept, id⟩ = false := by
  by_contra h
  obtain ⟨-, r, -, hr, hk, -⟩ := oracle_removeKept hx (by simpa using h)
  exact hq.removes r hr hk

theorem Quiet.present (account : String) : x.presentUnder x.oracle account = x.inStatement account := by
  rw [presentUnder, hq.removed hx]
  simp

theorem Quiet.stands (account : String) : x.standsUnder x.oracle account = x.inStatement account := by
  rw [standsUnder, hq.present hx]
  cases hin : x.inStatement account with
  | false => rfl
  | true =>
    have hleft : x.leftUnder x.oracle account = false := by
      by_contra h
      obtain ⟨l, hl, hk, hsigner, -⟩ := leftUnder_oracle hx (by simpa using h)
      rw [← hsigner, hq.outsiders l hl (by simp [hk])] at hin
      cases hin
    rw [hleft]
    rfl

theorem Quiet.not_entitled {c : CheckedGroupChange} (hc : x.inStatement c.change.signer = false)
    {j : Joined} (hin : ∀ a ∈ j.in_, x.inStatement a = true)
    (hpresent : ∀ a ∈ j.present, x.inStatement a = true) (action : GroupAction) (target : MemberRole) :
    ((x.entitlement c action target (x.fromRoster j)).under x.oracle).1 ≠ .none := by
  intro h
  rcases (x.entitlement_none_iff c action target _).mp h with hkept | ⟨-, ⟨hstate, -⟩ | ⟨-, -, hstate, -⟩⟩
  · rw [hq.removeKept hx] at hkept
    cases hkept
  · rw [under_fromRoster, Std.ExtTreeSet.contains_iff_mem] at hstate
    rw [hin _ hstate] at hc
    cases hc
  · rw [under_fromRoster, Std.ExtTreeSet.contains_iff_mem] at hstate
    rw [hpresent _ hstate] at hc
    cases hc

theorem Quiet.standing_in : account ∈ (x.standingMembers.under x.oracle).in_ ↔ x.inStatement account = true := by
  rw [(x.under_standingMembers x.oracle account).1, hq.stands hx]

theorem Quiet.standing_present :
    account ∈ (x.standingMembers.under x.oracle).present ↔ x.inStatement account = true := by
  rw [(x.under_standingMembers x.oracle account).2, hq.present hx]

theorem Quiet.joined_eq : x.joined = x.standingMembers.under x.oracle := by
  rw [RosterRules.joined_eq]
  refine acceptPasses_induct (P := fun j => j = x.standingMembers.under x.oracle) ?_ _ _ rfl
  intro j a j' hj ha _ he _
  subst hj
  obtain ⟨hheld, hk⟩ := (mem_adds hx).mp (List.mem_filter.mp ha).1
  rw [addEntitlement, Asking.under_map] at he
  refine absurd he (hq.not_entitled hx (hq.outsiders a hheld (by simp [hk])) ?_ ?_ _ _)
  · exact fun a ha => (hq.standing_in hx).mp ha
  · exact fun a ha => (hq.standing_present hx).mp ha

theorem Quiet.mem_joined : account ∈ x.joined.in_ ↔ x.inStatement account = true := by
  rw [hq.joined_eq hx, hq.standing_in hx]

theorem Quiet.entitledTo_ne {c : CheckedGroupChange}
    (hc : x.inStatement c.change.signer = false) (action : GroupAction) : x.entitledTo c action ≠ .none := by
  rw [entitledTo, hq.joined_eq hx]
  refine hq.not_entitled hx hc ?_ ?_ _ _
  · exact fun a ha => (hq.standing_in hx).mp ha
  · exact fun a ha => (hq.standing_present hx).mp ha

/-! ### Title and links -/

theorem Quiet.renamed_eq : x.renamed.2 = (x.s.title, x.s.titleVersion) := by
  simp only [renamed, judgeRenames, Asking.under_map, Asking.under_foldlM]
  have hbest : (x.renames.foldl (fun acc c => (x.judgeRename x.joined acc c).under x.oracle)
      (x.verdictsAfterLeaves, none)).2 = none := by
    refine List.foldlRecOn x.renames _ (motive := fun acc : Verdicts × BestRename => acc.2 = none)
      rfl fun acc hacc c hc => ?_
    obtain ⟨hheld, hk⟩ := (mem_renames hx).mp hc
    rw [under_judgeRename, if_neg (hq.entitledTo_ne hx (hq.outsiders c hheld (by simp [hk])) _)]
    exact hacc
  rw [hbest]

theorem Quiet.linked_tables : x.linked.2.links = x.statementLinks ∧ x.linked.2.revoked = ∅ := by
  simp only [linked, judgeLinks, Asking.under_bind]
  refine Asking.under_foldlM_induct x.oracle (P := fun acc : Verdicts × Links =>
    acc.2.links = x.statementLinks ∧ acc.2.revoked = ∅) ?_ ?_
  · simp only [judgeLinkAdds, Asking.under_map]
    refine Asking.under_foldlM_induct x.oracle (P := fun acc : Verdicts × Links =>
      acc.2.links = x.statementLinks ∧ acc.2.revoked = ∅) ⟨rfl, rfl⟩ ?_
    intro c hc acc hacc
    obtain ⟨hheld, hk⟩ := (mem_linkAdds hx).mp hc
    have hne := hq.entitledTo_ne hx (hq.outsiders c hheld (by simp [hk])) .makeInviteLink
    rw [under_judgeLinkAdd, enterLink, if_pos hne]
    split <;> exact hacc
  · intro c hc acc hacc
    obtain ⟨hheld, hk⟩ := (mem_linkRevokes hx).mp hc
    rw [under_judgeLinkRevoke]
    cases hlink : acc.2.links[c.change.linkId]? with
    | none => exact hacc
    | some link =>
      -- a link the statement has: its revoke is an outsider's
      have hout : x.inStatement c.change.signer = false := by
        refine (hq.revokes c hheld hk).resolve_right fun h => ?_
        rw [hacc.1] at hlink
        rcases of_getElem?_fill (·.linkId) (fun l : GroupInviteLink => l) x.s.links ∅ hlink with
          ⟨l, hl, hid, -⟩ | hempty
        · exact h l hl hid
        · simp at hempty
      simp only [if_neg (hq.entitledTo_ne hx hout _)]
      exact hacc

end Facts

/-! ### The view -/

section View

variable {s : GroupRosterStatement} {now : Int} {changes : List CheckedGroupChange}
  (hx : (indexed s now changes).WellIndexed) (hq : (indexed s now changes).Quiet)
  (hs : FoldForm s now)

include hx hq hs

theorem Quiet.members : (indexed s now changes).view.members.map GroupRosterViewMember.stated = s.members := by
  have hkeys : (((indexed s now changes).view.members.map GroupRosterViewMember.stated).map
      (·.identity)).Pairwise (· < ·) := by
    rw [List.map_map]
    exact members_sorted
  refine eq_of_keys_sorted (·.identity) hkeys hs.members fun m => ?_
  have hmem (k : String) (m : GroupRosterStatementMember) :
      (indexed s now changes).sMembers[k]? = some m ↔ m ∈ s.members ∧ m.identity = k :=
    sMembers_iff (hs.members.imp ne_of_lt)
  -- a row is the statement's: no add was taken in
  have hrow (identity : String) :
      (indexed s now changes).memberRow (indexed s now changes).joined identity =
        ((indexed s now changes).sMembers[identity]?).map fun m =>
          { identity, role := m.role, joinedAt := m.joinedAt, addedBy := m.addedBy } := by
    rw [memberRow, hq.joined_eq hx, ((indexed s now changes).standingMembers_rest _).2.1]
    simp
  constructor
  · intro hm
    obtain ⟨row, hview, rfl⟩ := List.mem_map.mp hm
    have hview := (mem_view_members.mp hview).2
    rw [hrow, Option.map_eq_some_iff] at hview
    obtain ⟨m, hm, heq⟩ := hview
    obtain ⟨hmem, hid⟩ := (hmem _ _).mp hm
    rw [← heq]
    simp only [GroupRosterViewMember.stated, ← hid]
    exact hmem
  · intro hm
    have hin : m.identity ∈ (indexed s now changes).joined.in_ := by
      rw [hq.mem_joined hx, inStatement_indexed, GroupRosterStatement.lists_iff]
      exact ⟨m, hm, rfl⟩
    let row : GroupRosterViewMember :=
      { identity := m.identity, role := m.role, joinedAt := m.joinedAt, addedBy := m.addedBy }
    have hm' : (indexed s now changes).memberRow (indexed s now changes).joined row.identity =
        some row := by
      rw [hrow, (hmem m.identity m).mpr ⟨hm, rfl⟩]
      rfl
    exact List.mem_map.mpr ⟨row, mem_view_members.mpr ⟨hin, hm'⟩, rfl⟩

theorem Quiet.removedRows : (indexed s now changes).view.removed = s.removed := by
  have hnodup : (s.removed.map (·.identity)).Nodup := hs.removed.imp ne_of_lt
  have hkeyed : Keyed (·.identity)
      ((indexed s now changes).removedMap (indexed s now changes).oracle) :=
    keyed_removedMap hnodup _
  refine eq_of_keys_sorted (·.identity) (removed_sorted _ hkeyed) hs.removed fun r => ?_
  have hnone (account : String) : firstRemove (indexed s now changes).oracle
      ((indexed s now changes).removesOf.of account) = none := by
    rw [firstRemove, List.find?_eq_none]
    intro c hc
    obtain ⟨hheld, hk, -⟩ := (mem_removesOf hx).mp hc
    exact absurd hk (hq.removes c hheld)
  rw [mem_view_removed _ hkeyed, getElem?_removedMap, hnone]
  constructor
  · rintro ⟨hr, -⟩
    exact ((sRemoved_iff hnodup).mp hr).1
  · intro hr
    refine ⟨(sRemoved_iff hnodup).mpr ⟨hr, rfl⟩, ?_⟩
    rw [hq.mem_joined hx, inStatement_indexed, hs.removedOut r hr]
    simp

theorem Quiet.links : (indexed s now changes).view.links = s.links := by
  refine eq_of_keys_sorted (·.linkId) links_sorted hs.links fun link => ?_
  obtain ⟨htable, hrevoked⟩ := hq.linked_tables hx
  -- no add was taken in, so none came by a link
  have huses (k : String) :
      (indexed s now changes).usesOf (indexed s now changes).joined k = 0 := by
    rw [usesOf, hq.joined_eq hx, ((indexed s now changes).standingMembers_rest _).1]
    simp
  have hnodup : (s.links.map (·.linkId)).Nodup := hs.links.imp ne_of_lt
  have hmem (k : String) (l : GroupInviteLink) :
      (indexed s now changes).linked.2.links[k]? = some l ↔ l ∈ s.links ∧ l.linkId = k := by
    rw [htable, statementLinks, indexed_s]
    refine (getElem?_fill_iff (·.linkId) (fun l : GroupInviteLink => l)
      hnodup).trans ?_
    constructor
    · rintro ⟨l', hl, hk, rfl⟩
      exact ⟨hl, hk⟩
    · rintro ⟨hl, hk⟩
      exact ⟨l, hl, hk, rfl⟩
  have hknown : link ∈ (indexed s now changes).knownLinks (indexed s now changes).joined
      (indexed s now changes).linked.2 ↔ link ∈ s.links := by
    simp only [knownLinks, List.mem_map, Prod.exists, Std.ExtTreeMap.mem_toList_iff_getElem?_eq_some,
      hmem, huses, Nat.add_zero]
    have hsame (l : GroupInviteLink) (hl : l ∈ s.links) : { l with uses := u64 l.uses } = l := by
      rw [show u64 l.uses = l.uses from Nat.mod_eq_of_lt (hs.uses l hl)]
    constructor
    · rintro ⟨k, l, ⟨hl, -⟩, rfl⟩
      rw [hsame l hl]
      exact hl
    · intro hl
      exact ⟨_, link, ⟨hl, rfl⟩, hsame link hl⟩
  rw [mem_view_links, hknown, and_iff_left_iff_imp]
  intro hl
  unfold linkEnd
  rw [hrevoked, if_neg (by simp), if_neg, if_neg]
  · rw [indexed_now]
    exact not_le.mpr (hs.open_ link hl)
  · rw [not_not, hq.mem_joined hx, inStatement_indexed]
    exact hs.makers link hl

theorem Quiet.shows : (indexed s now changes).view.Shows s where
  members := hq.members hx hs
  removed := hq.removedRows hx hs
  links := hq.links hx hs
  title := by rw [view_eq]; simp only [hq.renamed_eq hx, indexed_s]
  titleVersion := by rw [view_eq]; simp only [hq.renamed_eq hx, indexed_s]

end View

end RosterRules

/-! ## A fold preserves the roster -/

namespace RosterRules

/-! ## What a fold leaves -/

section Folded

variable {s : GroupRosterStatement} {now : Int} {changes : List CheckedGroupChange}

theorem lists_foldChanges {view : GroupRosterView} (hd : s.dissolved = false) (account : String) :
    (foldChanges s view).lists account = view.lists account := by
  rw [foldChanges_live hd, Bool.eq_iff_iff, GroupRosterStatement.lists_iff, GroupRosterView.lists,
    GroupRosterView.find, List.find?_isSome]
  constructor
  · rintro ⟨m, hm, rfl⟩
    obtain ⟨row, hrow, rfl⟩ := List.mem_map.mp hm
    exact ⟨row, hrow, by simp⟩
  · rintro ⟨row, hrow, hid⟩
    exact ⟨_, List.mem_map.mpr ⟨row, hrow, rfl⟩, by simpa using hid⟩

theorem shows_foldChanges (hd : s.dissolved = false) (view : GroupRosterView) : view.Shows (foldChanges s view) := by
  rw [foldChanges_live hd]
  exact ⟨rfl, rfl, rfl, rfl, rfl⟩

theorem foldForm_foldChanges (hremoved : (s.removed.map (·.identity)).Nodup) (hd : s.dissolved = false) :
    FoldForm (foldChanges s (indexed s now changes).view) now := by
  have hkeyed : Keyed (·.identity)
      ((indexed s now changes).removedMap (indexed s now changes).oracle) :=
    keyed_removedMap hremoved _
  have hlists {account : String} : (foldChanges s (indexed s now changes).view).lists account =
      true ↔ account ∈ (indexed s now changes).joined.in_ := by
    rw [lists_foldChanges hd, lists_view]
  have hshows := shows_foldChanges hd (indexed s now changes).view
  refine ⟨?_, ?_, ?_, ?_, ?_, ?_, ?_, ?_⟩
  · rw [foldChanges_live hd]
    exact hd
  · rw [← hshows.members, List.map_map]
    exact members_sorted
  · rw [← hshows.removed]
    exact removed_sorted _ hkeyed
  · rw [← hshows.removed]
    intro r hr
    rw [← Bool.not_eq_true, hlists]
    exact ((mem_view_removed _ hkeyed).mp hr).2
  · rw [← hshows.links]
    exact links_sorted
  · rw [← hshows.links]
    exact fun l hl => hlists.mpr (maker_mem hl)
  · rw [← hshows.links]
    intro l hl
    have hend := (mem_view_links.mp hl).2
    unfold linkEnd at hend
    split at hend
    · cases hend
    split at hend
    · cases hend
    split at hend
    · cases hend
    · next hnow => simpa only [indexed_now, not_le] using hnow
  · rw [← hshows.links]
    intro l hl
    obtain ⟨e, -, rfl⟩ := List.mem_map.mp (mem_view_links.mp hl).1
    exact Nat.mod_lt _ (by decide)

end Folded

/-! ## What is not folded -/

section Unfolded

variable {x : RosterRules}

variable {reason : GroupChangeReason}

/-- The reasons `Entitlement` gives, and when it is that the signer has not
joined. -/
theorem entitlement_reason (v : Fact → Bool) (c : CheckedGroupChange) (action : GroupAction)
    (target : MemberRole) (state : String → Rule SignerState)
    (h : ((x.entitlement c action target state).under v).1 = reason) :
    reason = .none ∨ reason = .notAllowed ∨ reason = .deviceOffCard ∨ reason = .signerOut ∨
      (reason = .signerNotJoined ∧ groupAllows action (x.statementRole c.change.signer) x.s.preset target = true ∧
        x.knownOutUnder v c.change.signer = false ∧ ((state c.change.signer).under v).in_ = false) := by
  subst h
  rw [under_entitlement]
  generalize (state c.change.signer).under v = st
  grind

theorem signerNotJoined_of_unfolded {c : CheckedGroupChange}
    (h : foldsIn (verdictOf c .void reason) = false) {P : Prop}
    (hr : reason = .none ∨ reason = .notAllowed ∨ reason = .deviceOffCard ∨
      reason = .signerOut ∨ P) : reason = .none ∨ P := by
  rcases hr with rfl | rfl | rfl | rfl | hp
  · exact .inl rfl
  · cases h
  · cases h
  · cases h
  · exact .inr hp

theorem not_joined {account : String} (h : ((x.fromRoster x.joined account).under x.oracle).in_ = false) :
    account ∉ x.joined.in_ := by
  rw [under_fromRoster] at h
  simpa [← Std.ExtTreeSet.contains_iff_mem] using h

theorem staticAddReason_values (v : Fact → Bool) (a : CheckedGroupChange) :
    (x.staticAddReason a).under v ∈ ([.namedByRemove, .removedMember, .notReadmitted,
      .namedByLeave, .none] : List GroupChangeReason) := by
  simp only [staticAddReason, Asking.under_bind, Asking.under_ite, Asking.under_pure]
  split
  · simp
  split
  · simp
  split
  · simp
  split <;> simp

theorem unfolded_add (hx : x.WellIndexed) {a : CheckedGroupChange} (ha : a ∈ x.heldChanges)
    (hk : a.change.kind = .add) {status : GroupChangeStatus}
    (ho : x.Outcome a status reason) (hf : foldsIn (verdictOf a status reason) = false) :
    a.change.signer ∉ x.joined.in_ := by
  have hmem : a ∈ x.adds := (mem_adds hx).mpr ⟨ha, hk⟩
  have hstatic : x.reasons[a.id]? = some ((x.staticAddReason a).under x.oracle) :=
    x.under_staticReasonsOf x.oracle (nodup_adds hx) hmem
  simp only [Outcome, hk, addOutcome, Asking.under_ite, Asking.under_pure, Asking.under_map,
    hstatic, Option.getD_some] at ho
  have hvalues := x.staticAddReason_values x.oracle a
  revert ho hvalues
  generalize (x.staticAddReason a).under x.oracle = static
  intro ho hvalues
  by_cases hacc : a.id ∈ x.joined.accepted
  · rw [if_pos hacc] at ho
    split at ho <;> cases ho <;> cases hf
  rw [if_neg hacc] at ho
  by_cases hremove : static = .namedByRemove
  · rw [if_pos hremove] at ho
    cases ho
    cases hf
  rw [if_neg hremove] at ho
  by_cases hvoid : static ≠ .none ∧ static ≠ .namedByLeave
  · rw [if_pos hvoid] at ho
    cases ho
    simp only [List.mem_cons, hvoid, hremove, false_or, List.not_mem_nil, or_false] at hvalues
    rcases hvalues with rfl | rfl <;> cases hf
  · rw [if_neg hvoid] at ho
    cases ho
    by_cases hnone : (x.addEntitlement x.joined a).under x.oracle = .none
    · rw [if_pos hnone] at hf
      cases hf
    · rw [if_neg hnone] at hf
      rw [addEntitlement, Asking.under_map] at hf hnone
      obtain ⟨-, -, -, hin⟩ := (signerNotJoined_of_unfolded hf
        (entitlement_reason x.oracle a _ .member (x.fromRoster x.joined) rfl)).resolve_left hnone
      exact not_joined hin

/-- A held change left for later is nobody's who is in, or revokes a link
nobody has; and it is no remove. -/
structure LeftOver (x : RosterRules) (c : CheckedGroupChange) : Prop where
  remove : c.change.kind ≠ .remove
  signer : c.change.kind ≠ .linkRevoke → c.change.signer ∉ x.joined.in_
  revoke : c.change.kind = .linkRevoke →
    c.change.signer ∉ x.joined.in_ ∨ x.linked.2.links[c.change.linkId]? = none

theorem unfolded_entitledTo {c : CheckedGroupChange} {action : GroupAction}
    (hne : x.entitledTo c action ≠ .none) (hf : foldsIn (verdictOf c .void (x.entitledTo c action)) = false) :
    c.change.signer ∉ x.joined.in_ := by
  obtain ⟨-, -, -, hin⟩ := (signerNotJoined_of_unfolded hf
    (entitlement_reason x.oracle c action .member (x.fromRoster x.joined) rfl)).resolve_left hne
  exact not_joined hin

end Unfolded

section LeftOver

variable {s : GroupRosterStatement} {now : Int} {changes : List CheckedGroupChange}
  (hn : (changes.map CheckedGroupChange.id).Nodup)

include hn

variable {reason : GroupChangeReason} {status : GroupChangeStatus}

omit hn in
/-- No remove waits: who the statement does not list may remove nobody. -/
theorem folds_remove {r : CheckedGroupChange} (hk : r.change.kind = .remove)
    (ho : (indexed s now changes).Outcome r status reason) : foldsIn (verdictOf r status reason) = true := by
  simp only [Outcome, hk] at ho
  obtain ⟨hreason, rfl⟩ := ho
  by_cases hnone : reason = .none
  · rw [if_pos hnone]
    rfl
  rw [if_neg hnone]
  have hvoid : ((indexed s now changes).removeReason r).under (indexed s now changes).oracle =
      reason := by
    rw [hreason, removeOutcome, validRemove, Asking.under_bind, Asking.under_fact]
    split
    · next hvalid =>
        refine absurd ?_ hnone
        rw [hreason, removeOutcome, validRemove, Asking.under_bind, Asking.under_fact, if_pos hvalid]
        rfl
    · rfl
  by_contra hf
  have hf : foldsIn (verdictOf r .void reason) = false := by simpa using hf
  rw [under_removeReason] at hvoid
  split at hvoid
  · subst hvoid
    cases hf
  · obtain ⟨-, hallows, hknown, -⟩ := (signerNotJoined_of_unfolded hf
      (entitlement_reason _ r _ _ _ hvoid)).resolve_left hnone
    have hout : s.lists r.change.signer = false := by
      simp only [knownOutUnder, Bool.or_eq_false_iff, inStatement_indexed] at hknown
      exact hknown.1.1.1
    rw [statementRole_of_not_lists hout] at hallows
    simp [groupAllows] at hallows

/-- A leave left for later is of someone no held add names. -/
theorem unfolded_leave {l : CheckedGroupChange} (hk : l.change.kind = .leave)
    (ho : (indexed s now changes).Outcome l status reason) (hf : foldsIn (verdictOf l status reason) = false) :
    l.change.signer ∉ (indexed s now changes).joined.in_ := by
  have hunknown : (indexed s now changes).knownLeaver l.change.signer = false := by
    simp only [Outcome, hk] at ho
    obtain ⟨hreason, rfl⟩ := ho
    by_contra hknown
    have hvalues : reason = .none ∨ reason = .notAllowed ∨ reason = .deviceOffCard := by
      rw [hreason, if_neg (by simp [hknown]), leaveOutcome, Asking.under_bind, Asking.under_ite,
        under_leaveReason]
      simp only [Asking.under_pure]
      grind
    rcases hvalues with rfl | rfl | rfl <;> cases hf
  simp only [knownLeaver, Bool.or_eq_false_iff] at hunknown
  intro hin
  rcases (grown_joined _).source _ hin with hstands | hjoined
  · rw [standsUnder, presentUnder, hunknown.1.1] at hstands
    simp at hstands
  · -- in by a held add, which `joining` has
    obtain ⟨a, ha⟩ := Option.isSome_iff_exists.mp (Std.ExtTreeMap.mem_iff_isSome_getElem?.mp hjoined)
    obtain ⟨hopen, hmember, -⟩ := (grown_joined _).joined _ a ha
    obtain ⟨hheld, hka⟩ := (mem_adds (wellIndexed hn)).mp (List.mem_filter.mp hopen).1
    obtain ⟨hc, hcl⟩ := (mem_heldChanges_indexed hn).mp hheld
    have hjoining : l.change.signer ∈ (indexed s now changes).joining :=
      (mem_joining_indexed hn).mpr (.inl ⟨a, hc, hcl, hka, hmember⟩)
    rw [← Std.ExtTreeSet.contains_iff_mem, hunknown.2] at hjoining
    cases hjoining

theorem leftOver {c : CheckedGroupChange} (hc : c ∈ (indexed s now changes).heldChanges)
    (ho : (indexed s now changes).Outcome c status reason)
    (hf : foldsIn (verdictOf c status reason) = false) : (indexed s now changes).LeftOver c := by
  have hx : (indexed s now changes).WellIndexed := wellIndexed hn
  -- void for its signer, for the kinds judged by `entitledTo`
  have hentitled {action : GroupAction}
      (hreason : reason = (indexed s now changes).entitledTo c action)
      (hstatus : status = if reason = .none then .applied else .void) :
      c.change.signer ∉ (indexed s now changes).joined.in_ := by
    by_cases hnone : reason = .none
    · rw [hstatus, if_pos hnone] at hf
      cases hf
    · rw [hstatus, if_neg hnone] at hf
      exact unfolded_entitledTo (hreason ▸ hnone) (hreason ▸ hf)
  cases hk : c.change.kind with
  | add => exact ⟨by simp [hk], fun _ => unfolded_add hx hc hk ho hf, by simp [hk]⟩
  | remove =>
    rw [folds_remove hk ho] at hf
    cases hf
  | leave => exact ⟨by simp [hk], fun _ => unfolded_leave hn hk ho hf, by simp [hk]⟩
  | rename =>
    refine ⟨by simp [hk], fun _ => ?_, by simp [hk]⟩
    simp only [Outcome, hk] at ho
    by_cases he : (indexed s now changes).entitledTo c .rename = .none
    · rw [if_pos he] at ho
      rcases ho with ⟨rfl, -⟩ | ⟨rfl, -⟩ <;> cases hf
    · rw [if_neg he] at ho
      obtain ⟨rfl, rfl⟩ := ho
      exact unfolded_entitledTo he hf
  | linkAdd =>
    refine ⟨by simp [hk], fun _ => ?_, by simp [hk]⟩
    simp only [Outcome, hk] at ho
    by_cases he : (indexed s now changes).entitledTo c .makeInviteLink = .none
    · rw [if_pos he] at ho
      rcases ho with ⟨rfl, rfl⟩ | ⟨rfl, -⟩ <;> cases hf
    · rw [if_neg he] at ho
      obtain ⟨rfl, rfl⟩ := ho
      exact unfolded_entitledTo he hf
  | linkRevoke =>
    refine ⟨by simp [hk], by simp [hk], fun _ => ?_⟩
    simp only [Outcome, hk] at ho
    cases hlink : (indexed s now changes).linked.2.links[c.change.linkId]? with
    | none => exact .inr rfl
    | some link =>
      rw [hlink] at ho
      exact .inl (hentitled ho.1 ho.2)

end LeftOver

/-! ## The view over the fold -/

section Refold

variable {s : GroupRosterStatement} {now : Int} {changes : List CheckedGroupChange}
  (hn : (changes.map CheckedGroupChange.id).Nodup) (hd : s.dissolved = false)
  (hepoch : s.rosterEpoch < 2 ^ 64 - 1) (hfloor : s.changeFloorEpoch ≤ s.rosterEpoch)

/-- The statement keeps the record of every folded change of `changes` that
is not too old for the floor `floor`. -/
def KeepsRecords (s : GroupRosterStatement) (floor : Nat) (changes : List CheckedGroupChange) :
    Prop :=
  ∀ c ∈ changes, ∀ f ∈ s.folded, f.id = c.id → floor ≤ c.change.baseEpoch → floor ≤ f.baseEpoch

include hd hepoch in
theorem floor_foldChanges (view : GroupRosterView) : (foldChanges s view).changeFloorEpoch =
      max s.changeFloorEpoch (s.rosterEpoch + 1 - kChangeFloorLag) := by
  rw [foldChanges_live hd, foldInto_floor]
  show max _ (u64 _ - _) = _
  rw [u64_succ hepoch]

include hn hd hepoch hfloor

variable {c : CheckedGroupChange}

omit hfloor hepoch in
theorem recorded_foldChanges (hc : c ∈ changes)
    {v : GroupChangeVerdict} (hv : (run s now changes).verdict c.id = some v)
    (hfold : foldsIn v = true) {epoch : Nat} : (recorded (foldChanges s (run s now changes)))[c.id]? = some epoch ↔
      min c.change.baseEpoch s.rosterEpoch = epoch ∧
        (foldChanges s (run s now changes)).changeFloorEpoch ≤ epoch := by
  have hverdicts : ((run s now changes).verdicts.map (·.id)).Nodup := (run_verdicts_sorted hn).imp ne_of_lt
  obtain ⟨v', hv', hvid, hvbase, -⟩ := run_verdict s now hn hc
  obtain rfl : v' = v := Option.mem_unique hv' hv
  have hnew : (recorded s)[c.id]? = none := by
    obtain ⟨-, hnotFolded, -⟩ := classifyOne_eq_none.mp (held_of_foldsIn hn hc hv hfold)
    rw [mem_foldedIds, ← recorded_isSome, Option.not_isSome_iff_eq_none] at hnotFolded
    exact hnotFolded
  have hmem : v' ∈ (run s now changes).verdicts := List.mem_of_find?_eq_some hv
  rw [foldChanges_live hd, recorded_foldInto, getElem?_foldedMap hverdicts, hnew, ← hvbase]
  refine and_congr_left' ⟨?_, ?_⟩
  · rintro (h | ⟨-, w, hw, -, hwid, hmin⟩)
    · cases h
    · obtain rfl : w = v' := List.inj_on_of_nodup_map hverdicts hw hmem (hwid.trans hvid.symm)
      exact hmin
  · intro hmin
    exact .inr ⟨rfl, v', hmem, hfold, hvid, hmin⟩

/-- A change that folds in is dropped over the fold: as folded, or as too old
below the fold's floor. -/
theorem classifyOne_folded (hc : c ∈ changes) {v : GroupChangeVerdict}
    (hv : (run s now changes).verdict c.id = some v) (hfold : foldsIn v = true) :
    classifyOne (foldChanges s (run s now changes)) (foldedIds (foldChanges s (run s now changes))) c =
        some (.dropped, if c.change.baseEpoch <
          (foldChanges s (run s now changes)).changeFloorEpoch then .tooOld else .folded) := by
  obtain ⟨hgroup, -⟩ := classifyOne_eq_none.mp (held_of_foldsIn hn hc hv hfold)
  have hgroup' : (foldChanges s (run s now changes)).groupId = s.groupId := by
    rw [foldChanges_live hd]
    rfl
  have hle := floor_foldChanges hd hepoch (run s now changes)
  have hfolded : c.id ∈ foldedIds (foldChanges s (run s now changes)) ↔
      (foldChanges s (run s now changes)).changeFloorEpoch ≤ c.change.baseEpoch := by
    rw [mem_foldedIds, ← recorded_isSome, Option.isSome_iff_exists]
    simp only [recorded_foldChanges hn hd hc hv hfold]
    constructor
    · rintro ⟨epoch, hmin, hepoch⟩
      omega
    · intro h
      refine ⟨_, rfl, ?_⟩
      simp only [kChangeFloorLag] at hle
      omega
  unfold classifyOne
  rw [if_neg (by rw [hgroup', hgroup]; simp)]
  by_cases hold : c.change.baseEpoch < (foldChanges s (run s now changes)).changeFloorEpoch
  · rw [if_neg (by rw [hfolded]; omega), if_pos hold, if_pos hold]
  · rw [if_pos (by rw [hfolded]; omega), if_neg hold]

section

variable (hnodup : (s.folded.map (·.id)).Nodup)
  (hkeep : KeepsRecords s (foldChanges s (run s now changes)).changeFloorEpoch changes)
include hnodup hkeep

theorem leftOver_of_held (hc : c ∈ changes) (hcl : classifyOne (foldChanges s (run s now changes))
      (foldedIds (foldChanges s (run s now changes))) c = none) : (indexed s now changes).LeftOver c := by
  obtain ⟨hgroup, hnotFolded, hbase, -, hproved⟩ := classifyOne_eq_none.mp hcl
  have hverdicts : ((run s now changes).verdicts.map (·.id)).Nodup := (run_verdicts_sorted hn).imp ne_of_lt
  have hfloors := floor_foldChanges hd hepoch (run s now changes)
  have hheld : classifyOne s (foldedIds s) c = none := by
    refine classifyOne_eq_none.mpr ⟨?_, ?_, by omega, hd, hproved⟩
    · rw [hgroup, foldChanges_live hd]
      rfl
    · intro hfolded
      obtain ⟨f, hf, hid⟩ := mem_foldedIds.mp hfolded
      have hrec : (recorded s)[c.id]? = some f.baseEpoch :=
        (getElem?_fill_iff GroupFoldedChange.id GroupFoldedChange.baseEpoch hnodup).mpr
          ⟨f, hf, hid, rfl⟩
      have htake : TakesIn s (run s now changes) (foldChanges s (run s now changes)) := .fold
      rcases htake.settled hverdicts (.inl hrec) with h | h
      · refine hnotFolded (mem_foldedIds.mpr (recorded_isSome.mp ?_))
        rw [h]
        rfl
      · have := hkeep c hc f hf hid hbase
        omega
  obtain ⟨status, reason, hv, ho⟩ := run_verdict_held s now hn hc hheld
  refine leftOver hn ((mem_heldChanges_indexed hn).mpr ⟨hc, hheld⟩) ho ?_
  by_contra hfold
  rw [classifyOne_folded hn hd hepoch hfloor hc hv (by simpa using hfold)] at hcl
  cases hcl

theorem quiet_foldChanges {later : List CheckedGroupChange} (hlater : (later.map CheckedGroupChange.id).Nodup)
    (hsub : ∀ c ∈ later, c ∈ changes) : (indexed (foldChanges s (run s now changes)) now later).Quiet := by
  have hin (account : String) (h : account ∉ (indexed s now changes).joined.in_) :
      (indexed (foldChanges s (run s now changes)) now later).inStatement account = false := by
    rw [inStatement_indexed, lists_foldChanges hd, run_eq_view hd now hn, ← Bool.not_eq_true,
      lists_view]
    exact h
  have hleft {c : CheckedGroupChange}
      (hc : c ∈ (indexed (foldChanges s (run s now changes)) now later).heldChanges) :
      (indexed s now changes).LeftOver c := by
    obtain ⟨hc, hcl⟩ := (mem_heldChanges_indexed hlater).mp hc
    exact leftOver_of_held hn hd hepoch hfloor hnodup hkeep (hsub c hc) hcl
  refine ⟨fun c hc => (hleft hc).remove, fun c hc hk => hin _ ((hleft hc).signer hk),
    fun c hc hk => ?_⟩
  rcases (hleft hc).revoke hk with hout | hnone
  · exact .inl (hin _ hout)
  · right
    intro l hl hid
    rw [indexed_s, ← (shows_foldChanges hd _).links, run_eq_view hd now hn] at hl
    have hkey : l.linkId ∈ (indexed s now changes).linked.2.links.keys := by
      rw [← knownLinks_linkIds]
      exact List.mem_map.mpr ⟨l, (mem_view_links.mp hl).1, rfl⟩
    rw [Std.ExtTreeMap.mem_keys, hid, Std.ExtTreeMap.mem_iff_isSome_getElem?, hnone] at hkey
    cases hkey

end

end Refold

end RosterRules

/-! ## A fold preserves the roster -/

section Fold

open RosterRules

variable (s : GroupRosterStatement) (changes : List CheckedGroupChange) (now : Int)

/-- The views over the fold of a view, with the same changes and with none,
list its roster; and what folded in is dropped over the fold, as folded or as
too old. -/
theorem fold_preserves_roster (hs : s.checkStructure = .ok ()) (hd : s.dissolved = false)
    (hepoch : s.rosterEpoch < 2 ^ 64 - 1)
    (hkeep : KeepsRecords s
      (foldChanges s (computeRosterChecked s changes now)).changeFloorEpoch changes) :
    let view := computeRosterChecked s changes now
    let next := foldChanges s view
    (computeRosterChecked next changes now).SameRoster view ∧
      (computeRosterChecked next [] now).SameRoster view ∧
      ∀ v ∈ view.verdicts, foldsIn v = true →
        ∃ w, (computeRosterChecked next changes now).verdict v.id = some w ∧
          w.status = .dropped ∧
          w.reason = if v.baseEpoch < next.changeFloorEpoch then .tooOld else .folded := by
  have hs := GroupRosterStatement.checkStructure_iff.mp hs
  have hn := nodup_collapse changes
  have hkeep' : KeepsRecords s
      (foldChanges s (run s now (collapse changes))).changeFloorEpoch (collapse changes) :=
    fun c hc => hkeep c (mem_of_mem_collapse hc)
  have hshows {later : List CheckedGroupChange}
      (hlater : ∀ c ∈ collapse later, c ∈ collapse changes) :
      (computeRosterChecked (foldChanges s (computeRosterChecked s changes now)) later now).Shows
        (foldChanges s (computeRosterChecked s changes now)) := by
    have hform : FoldForm (foldChanges s (indexed s now (collapse changes)).view) now :=
      foldForm_foldChanges hs.removed hd
    have hq := quiet_foldChanges hn hd hepoch hs.floor hs.folded hkeep'
      (nodup_collapse later) hlater
    rw [← run_eq_view hd now hn] at hform
    show (run (foldChanges s (run s now (collapse changes))) now (collapse later)).Shows _
    rw [run_eq_view hform.live now (nodup_collapse later)]
    exact hq.shows (wellIndexed (nodup_collapse later)) hform
  have hview := shows_foldChanges hd (computeRosterChecked s changes now)
  refine ⟨(hshows fun c hc => hc).same hview, (hshows ?_).same hview, ?_⟩
  · intro c hc
    cases mem_of_mem_collapse hc
  · intro v hv hfold
    obtain ⟨c, hc, hid, hv'⟩ := exists_of_mem_verdicts hn hv
    obtain ⟨v', hv'', -, hvbase, -⟩ := run_verdict s now hn hc
    obtain rfl : v = v' := Option.mem_unique hv' hv''
    have hcl := classifyOne_folded hn hd hepoch hs.floor hc hv' hfold
    have hw := run_verdict_classified now hn hc (Option.ne_none_iff_exists'.mpr ⟨_, hcl⟩)
    rw [classified, hcl, hid] at hw
    refine ⟨_, hw, rfl, ?_⟩
    rw [hvbase]
    rfl

end Fold

set_option maxRecDepth 20000 in
/-- An add the fold of statement 40 takes in is too old over the fold, not
folded; and one statement 40 has folded as of epoch 3, made against 40, is
dropped over it and brings its member in over its fold. -/
theorem fold_forgets_records :
    let s := { sampleStatement with rosterEpoch := 40 }
    let old := checkChanges sampleCrypto [sampleAdd 3] sampleCards 0
    let view := computeRosterChecked s old 0
    let t := { s with folded := [{ id := (sampleAdd 40).id sampleCrypto, baseEpoch := 3 }] }
    let again := checkChanges sampleCrypto [sampleAdd 40] sampleCards 0
    let view' := computeRosterChecked t again 0
    s.checkStructure = .ok () ∧ t.checkStructure = .ok () ∧
      view.verdicts.all foldsIn = true ∧
      (computeRosterChecked (foldChanges s view) old 0).verdicts.map (·.reason) = [.tooOld] ∧
      view'.lists "x" = false ∧
      (computeRosterChecked (foldChanges t view') again 0).lists "x" = true := by
  decide

set_option maxRecDepth 20000 in
theorem fold_preserves_roster_sample :
    (computeRosterChecked
      (foldChanges sampleStatement (computeRosterChecked sampleStatement
        (checkChanges sampleCrypto [sampleAdd 1] sampleCards 0) 0))
      (checkChanges sampleCrypto [sampleAdd 1] sampleCards 0) 0).SameRoster
    (computeRosterChecked sampleStatement
      (checkChanges sampleCrypto [sampleAdd 1] sampleCards 0) 0) :=
  (fold_preserves_roster sampleStatement (checkChanges sampleCrypto [sampleAdd 1] sampleCards 0) 0
    (by decide) rfl (by decide) (by unfold RosterRules.KeepsRecords; simp [sampleStatement])).1

end Pbr
