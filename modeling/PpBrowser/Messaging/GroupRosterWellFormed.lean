import PpBrowser.Messaging.GroupRosterAdmins
import PpBrowser.Messaging.GroupRosterFold
import PpBrowser.Messaging.GroupRosterRows

/-!
# GroupRosterWellFormed — views and folds are well formed

A view over a statement that passes `Verify`'s structural checks is well
formed whatever the changes, and the fold of it passes the same checks
again.
-/

namespace Pbr

open Lib

/-! ## Shapes -/

variable {c : GroupChange}

theorem GroupChange.checkBody_of_shaped (h : c.shaped = true) : c.checkBody = .ok () := by
  unfold shaped checkShape at h
  split at h
  · simp [Except.isOk, Except.toBool] at h
  · split at h
    · simp [Except.isOk, Except.toBool] at h
    · revert h
      cases c.checkBody <;> simp [Except.isOk, Except.toBool]

theorem GroupChange.member_of_shaped (h : c.shaped = true)
    (hk : c.kind = .add ∨ c.kind = .remove) : c.member ≠ "" := by
  intro hm
  have hb := checkBody_of_shaped h
  rcases hk with hk | hk <;> simp [checkBody, hk, hm] at hb

theorem GroupChange.linkId_of_shaped (h : c.shaped = true) (hk : c.kind = .linkAdd) : c.linkId ≠ "" := by
  intro hl
  have hb := checkBody_of_shaped h
  simp [checkBody, hk, hl] at hb

theorem checkOne_shaped {K : GroupCrypto} {cards : List AccountCard}
    (h : (checkOne K c cards).proof = .proved) : c.shaped = true := by
  unfold checkOne at h
  split at h
  · cases h
  · next hs => simpa using hs

theorem shaped_of_checkChanges {K : GroupCrypto} {changes : List GroupChange}
    {cards : GroupCardLookup} {now : Int} {c : CheckedGroupChange}
    (h : c ∈ checkChanges K changes cards now) (hp : c.proof = .proved) : c.change.shaped = true := by
  obtain ⟨change, -, rfl⟩ := List.mem_map.mp (mem_of_mem_collapse h)
  rw [checkOne_change]
  exact checkOne_shaped hp

namespace RosterRules

/-! ## The view -/

/-- A view over `s` of the changes `ids` name. -/
structure WellFormed (s : GroupRosterStatement) (ids : List String) (view : GroupRosterView) :
    Prop where
  members : (view.members.map (·.identity)).Pairwise (· < ·)
  owner : s.dissolved = false →
    ∃ row, view.find s.ownerIdentity = some row ∧ row.role = .owner
  onlyOwner : ∀ row ∈ view.members, row.role = .owner → row.identity = s.ownerIdentity
  nobody : s.dissolved = true → view.members = []
  size : view.members.length ≤ max kMaxGroupMembers s.members.length
  removed : (view.removed.map (·.identity)).Pairwise (· < ·)
  removedOut : ∀ r ∈ view.removed, view.lists r.identity = false
  makers : ∀ l ∈ view.links, view.lists l.maker = true
  links : ∀ l ∈ view.links, ∀ e ∈ view.endedLinks, l.linkId ≠ e.link.linkId
  verdicts : (view.verdicts.map (·.id)).Pairwise (· < ·)
  verdictIds : ∀ id, id ∈ view.verdicts.map (·.id) ↔ id ∈ ids

section View

variable {s : GroupRosterStatement} {now : Int} {changes : List CheckedGroupChange}

theorem wellFormed_dissolved (hn : (changes.map CheckedGroupChange.id).Nodup) (hd : s.dissolved = true) :
    WellFormed s (changes.map CheckedGroupChange.id) (run s now changes) := by
  have hsorted : ((run s now changes).verdicts.map (·.id)).Pairwise (· < ·) := run_verdicts_sorted hn
  rw [run_dissolved hd] at hsorted ⊢
  refine ⟨.nil, fun h => ?_, by simp [viewHead], fun _ => rfl, by simp [viewHead], .nil,
    by simp [viewHead], by simp [viewHead], by simp [viewHead], hsorted, fun id => ?_⟩
  · rw [hd] at h
    cases h
  · rw [← run_dissolved hd]
    exact mem_verdict_ids hn

theorem not_lists_view {x : RosterRules} {account : String} (h : account ∉ x.joined.in_) :
    x.view.lists account = false := by
  rw [← Bool.not_eq_true, lists_view]
  exact h

theorem wellFormed_live (hs : s.Structured) (hn : (changes.map CheckedGroupChange.id).Nodup)
    (hd : s.dissolved = false) : WellFormed s (changes.map CheckedGroupChange.id) (run s now changes) := by
  rw [run_eq_view hd now hn]
  have hkeyed : Keyed (·.identity)
      ((indexed s now changes).removedMap (indexed s now changes).oracle) := keyed_removedMap hs.removed _
  refine ⟨members_sorted, fun _ => ?_, fun row hrow hrole => ?_, fun h => ?_, ?_,
    removed_sorted _ hkeyed, fun r hr => ?_, fun l hl => lists_view.mpr (maker_mem hl),
    fun l hl e he => live_ended_disjoint hl he, verdicts_sorted hn, fun id => ?_⟩
  · obtain ⟨owner, ho, hrole⟩ := hs.ownerRow
    have hid := hs.owner owner ho hrole
    rw [← hid]
    exact ⟨_, find_of_stands hs ho (hid ▸ stands_of_owner hn hs), hrole⟩
  · -- the rows of adds are members'; the statement's keep its roles
    rcases memberRow_cases (mem_view_members.mp hrow).2 with ⟨a, -, heq⟩ | ⟨-, m, hm, heq⟩
    · rw [heq] at hrole
      cases hrole
    · rw [heq] at hrole
      obtain ⟨hm, hid⟩ := (sMembers_iff hs.members).mp hm
      exact hid.symm.trans (hs.owner m hm hrole)
  · rw [hd] at h
    cases h
  · have hlen := congrArg List.length (members_map_identity (x := indexed s now changes))
    rw [List.length_map, Std.ExtTreeSet.length_toList] at hlen
    rw [hlen]
    have hsize := (grown_joined (indexed s now changes)).size
    exact hsize.trans (max_le_max le_rfl sMembers_size_le)
  · exact not_lists_view ((mem_view_removed _ hkeyed).mp hr).2
  · rw [← run_eq_view hd now hn]
    exact mem_verdict_ids hn

theorem wellFormed_run (hs : s.Structured) (hn : (changes.map CheckedGroupChange.id).Nodup) :
    WellFormed s (changes.map CheckedGroupChange.id) (run s now changes) := by
  cases hd : s.dissolved with
  | true => exact wellFormed_dissolved hn hd
  | false => exact wellFormed_live hs hn hd

/-! ## The fold -/

theorem identity_ne_empty (hs : s.Structured) (hn : (changes.map CheckedGroupChange.id).Nodup)
    (hshaped : ∀ c ∈ changes, c.proof = .proved → c.change.shaped = true)
    {row : GroupRosterViewMember} (hrow : row ∈ (indexed s now changes).view.members) : row.identity ≠ "" := by
  rcases memberRow_cases (mem_view_members.mp hrow).2 with ⟨a, ha, -⟩ | ⟨-, m, hm, -⟩
  · obtain ⟨hopen, hmember, -⟩ := (grown_joined _).joined _ a ha
    obtain ⟨hheld, hk⟩ := (mem_adds (wellIndexed hn)).mp (List.mem_filter.mp hopen).1
    obtain ⟨hc, hcl⟩ := (mem_heldChanges_indexed hn).mp hheld
    rw [← hmember]
    exact GroupChange.member_of_shaped (hshaped a hc (proved_of_held hcl).1) (.inl hk)
  · obtain ⟨hm, hid⟩ := (sMembers_iff hs.members).mp hm
    exact hid ▸ hs.identities m hm

theorem removed_ne_empty (hremoved : (s.removed.map (·.identity)).Nodup)
    (hids : ∀ r ∈ s.removed, r.identity ≠ "") (hn : (changes.map CheckedGroupChange.id).Nodup)
    (hshaped : ∀ c ∈ changes, c.proof = .proved → c.change.shaped = true)
    {row : GroupRemovedMember} (hrow : row ∈ (indexed s now changes).view.removed) : row.identity ≠ "" := by
  obtain ⟨hrow, -⟩ := (mem_view_removed _ (keyed_removedMap hremoved _)).mp hrow
  rw [getElem?_removedMap] at hrow
  split at hrow
  · next r hr =>
      obtain ⟨hheld, hk, hmember⟩ := (mem_removesOf (wellIndexed hn)).mp (List.mem_of_find?_eq_some hr)
      obtain ⟨hc, hcl⟩ := (mem_heldChanges_indexed hn).mp hheld
      rw [← hmember]
      exact GroupChange.member_of_shaped (hshaped r hc (proved_of_held hcl).1) (.inr hk)
  · obtain ⟨hr, -⟩ := (sRemoved_iff hremoved).mp hrow
    exact hids row hr

theorem linkId_ne_empty (hids : ∀ l ∈ s.links, l.linkId ≠ "") (hn : (changes.map CheckedGroupChange.id).Nodup)
    (hshaped : ∀ c ∈ changes, c.proof = .proved → c.change.shaped = true)
    {link : GroupInviteLink} (hl : link ∈ (indexed s now changes).view.links) : link.linkId ≠ "" := by
  rcases knownLinks_source (wellIndexed hn) (mem_view_links.mp hl).1 with
    ⟨l, hl, hid⟩ | ⟨c, hheld, hk, hid⟩
  · rw [indexed_s] at hl
    exact hid ▸ hids l hl
  · obtain ⟨hc, hcl⟩ := (mem_heldChanges_indexed hn).mp hheld
    exact hid ▸ GroupChange.linkId_of_shaped (hshaped c hc (proved_of_held hcl).1) hk

/-- The fold of a live view passes the structural checks again. -/
theorem structured_foldChanges (hs : s.Structured) (hepoch : s.rosterEpoch < 2 ^ 64 - 1)
    (hn : (changes.map CheckedGroupChange.id).Nodup)
    (hshaped : ∀ c ∈ changes, c.proof = .proved → c.change.shaped = true)
    (hids : ∀ c ∈ changes, c.id ≠ "") :
    (foldChanges s (run s now changes)).Structured := by
  have hwf : WellFormed s _ (run s now changes) := wellFormed_run hs hn
  cases hd : s.dissolved with
  | true =>
    rw [foldChanges_dissolved hd, u64_succ hepoch]
    exact ⟨hs.groupId, hs.ownerIdentity, hs.identities, hs.members, hs.ownerRow, hs.owner,
      hs.removedIds, hs.removed, hs.removedOut, hs.linkIds, hs.links, hs.foldedIds, hs.folded,
      hs.floor.trans (Nat.le_succ _), hs.aboveFloor⟩
  | false =>
    have hview := run_eq_view hd now hn
    have hmap : ((run s now changes).members.map fun m =>
        ({ identity := m.identity, role := m.role, joinedAt := m.joinedAt
           addedBy := m.addedBy } : GroupRosterStatementMember)).map (·.identity) =
        (run s now changes).members.map (·.identity) := by
      rw [List.map_map]
      rfl
    have hverdicts : ((run s now changes).verdicts.map (·.id)).Nodup := hwf.verdicts.imp ne_of_lt
    rw [foldChanges_live hd, u64_succ hepoch]
    refine ⟨hs.groupId, hs.ownerIdentity, ?_, ?_, ?_, ?_, ?_, hwf.removed.imp ne_of_lt, ?_, ?_,
      ?_, ?_, foldInto_folded_sorted.imp ne_of_lt, ?_, fun f hf => (mem_foldInto_folded.mp hf).2⟩
    · intro m hm
      obtain ⟨row, hrow, rfl⟩ := List.mem_map.mp hm
      exact identity_ne_empty hs hn hshaped (hview ▸ hrow)
    · show (List.map _ (List.map _ _)).Nodup
      rw [hmap]
      exact hwf.members.imp ne_of_lt
    · obtain ⟨row, hrow, hrole⟩ := hwf.owner hd
      exact ⟨_, List.mem_map.mpr ⟨row, List.mem_of_find?_eq_some hrow, rfl⟩, hrole⟩
    · intro m hm hrole
      obtain ⟨row, hrow, rfl⟩ := List.mem_map.mp hm
      exact hwf.onlyOwner row hrow hrole
    · intro r hr
      exact removed_ne_empty hs.removed hs.removedIds hn hshaped (hview ▸ hr)
    · intro r hr m hm hid
      obtain ⟨row, hrow, rfl⟩ := List.mem_map.mp hm
      have hout := hwf.removedOut r hr
      rw [GroupRosterView.lists, GroupRosterView.find, Option.isSome_eq_false_iff,
        Option.isNone_iff_eq_none, List.find?_eq_none] at hout
      exact hout row hrow (by simpa using hid)
    · intro l hl
      exact linkId_ne_empty hs.linkIds hn hshaped (hview ▸ hl)
    · show ((run s now changes).links.map (·.linkId)).Nodup
      rw [hview]
      exact links_sorted.imp ne_of_lt
    · intro f hf
      rcases (foldedMap_iff hs.folded hverdicts).mp (mem_foldInto_folded.mp hf).1 with
        ⟨f', hf', hid, -⟩ | ⟨-, v, hv, -, hid, -⟩
      · exact hid ▸ hs.foldedIds f' hf'
      · obtain ⟨c, hc, hcid⟩ := List.mem_map.mp ((hwf.verdictIds v.id).mp
          (List.mem_map.mpr ⟨v, hv, rfl⟩))
        rw [← hid, ← hcid]
        exact hids c hc
    · rw [foldInto_floor]
      have := hs.floor
      simp only [foldInto]
      omega

end View

end RosterRules

/-! ## Views and folds -/

section Views

open RosterRules

variable (K : GroupCrypto) (s : GroupRosterStatement) (changes : List GroupChange)
  (cards : GroupCardLookup) (now : Int)

/-- Every view over a structurally valid statement is well formed, and its
fold passes the structural checks again. -/
theorem views_wellFormed (hs : s.checkStructure = .ok ()) (hepoch : s.rosterEpoch < 2 ^ 64 - 1)
    (hhex : ∀ bytes, K.bytesToHex (K.blake2b256 bytes) ≠ "") :
    WellFormed s (changes.map (·.id K)) (computeRoster K s changes cards now) ∧
      (foldChanges s (computeRoster K s changes cards now)).checkStructure = .ok () := by
  have hs := GroupRosterStatement.checkStructure_iff.mp hs
  have hn := nodup_collapse (checkChanges K changes cards now)
  have hmem {c : CheckedGroupChange} (hc : c ∈ collapse (checkChanges K changes cards now)) :
      c ∈ checkChanges K changes cards now := mem_of_mem_collapse hc
  -- the collapsed changes have the given ids
  have hids (id : String) :
      id ∈ (collapse (checkChanges K changes cards now)).map CheckedGroupChange.id ↔
        id ∈ changes.map (·.id K) := by
    simp only [List.mem_map]
    constructor
    · rintro ⟨c, hc, rfl⟩
      obtain ⟨hc, hid⟩ := mem_of_mem_checkChanges (hmem hc)
      exact ⟨_, hc, hid.symm⟩
    · rintro ⟨c, hc, rfl⟩
      obtain ⟨d, hd, hid, -⟩ := exists_mem_checked cards now hc
      exact ⟨d, hd, hid⟩
  have hwf : WellFormed s _ (computeRoster K s changes cards now) := wellFormed_run hs hn
  refine ⟨⟨hwf.members, hwf.owner, hwf.onlyOwner, hwf.nobody, hwf.size, hwf.removed,
    hwf.removedOut, hwf.makers, hwf.links, hwf.verdicts,
    fun id => (hwf.verdictIds id).trans (hids id)⟩, ?_⟩
  refine GroupRosterStatement.checkStructure_iff.mpr (structured_foldChanges hs hepoch hn
    (fun c hc => shaped_of_checkChanges (hmem hc)) fun c hc => ?_)
  rw [(mem_of_mem_checkChanges (hmem hc)).2]
  exact hhex _

/-- The dissolved sample statement passes the checks, and its view does not
list its owner. -/
theorem dissolved_owner_unlisted :
    ({ sampleStatement with dissolved := true }).checkStructure = .ok () ∧
      ¬ ∃ row, (computeRoster sampleCrypto { sampleStatement with dissolved := true } []
        sampleCards 0).find sampleStatement.ownerIdentity = some row ∧ row.role = .owner := by
  have hnone : (computeRoster sampleCrypto { sampleStatement with dissolved := true } []
      sampleCards 0).find sampleStatement.ownerIdentity = none := by decide
  refine ⟨by decide, ?_⟩
  rw [hnone]
  rintro ⟨row, h, -⟩
  cases h

theorem views_wellFormed_sample :
    WellFormed sampleStatement [] (computeRoster sampleCrypto sampleStatement [] sampleCards 0) ∧
      (foldChanges sampleStatement
        (computeRoster sampleCrypto sampleStatement [] sampleCards 0)).checkStructure = .ok () := by
  refine views_wellFormed sampleCrypto sampleStatement [] sampleCards 0 (by decide) (by decide)
    fun bytes h => ?_
  have hlength := congrArg String.length h
  simp [sampleCrypto] at hlength

end Views

end Pbr
