import PpBrowser.Messaging.GroupRosterMembers

/-!
# GroupRosterAdmins — who takes an admin out

Removes need the remover's role over the target's; only the owner's is
over an admin's. A remove kept by a counting remove of its signer counts
outright, whatever its signer's role.
-/

namespace Pbr

open Lib

namespace RosterRules

section Removes

variable {x : RosterRules} (hx : x.WellIndexed)

include hx

/-- A counting remove is kept by a counting remove of its signer, or its
signer may remove the target. -/
theorem allows_of_removes {r : CheckedGroupChange} (hr : r ∈ x.heldChanges)
    (h : x.oracle ⟨.removes, r.id⟩ = true) : x.oracle ⟨.removeKept, r.id⟩ = true ∨
      groupAllows .remove (x.statementRole r.change.signer) x.s.preset (x.statementRole r.change.member) = true := by
  obtain ⟨r', hr', -, V, -, hreason⟩ := oracle_removes hx h
  rw [held_of_mem hx hr] at hr'
  cases hr'
  rw [under_removeReason] at hreason
  split at hreason
  · cases hreason
  · rcases (x.entitlement_none_iff r .remove _ _).mp hreason with hk | ⟨hadm, -⟩
    · exact .inl (Memo.holds_of_cut hk)
    · rw [admitted, Bool.and_eq_true] at hadm
      exact .inr hadm.1

omit hx in
/-- What `Outcome` says of a remove that counts. -/
theorem outcome_of_removes {r : CheckedGroupChange} (hk : r.change.kind = .remove)
    (h : x.oracle ⟨.removes, r.id⟩ = true) {status : GroupChangeStatus}
    {reason : GroupChangeReason} (ho : x.Outcome r status reason) : status = .applied := by
  simp only [Outcome, hk] at ho
  have hnone : (x.removeOutcome r).under x.oracle = .none := by
    simp [removeOutcome, validRemove, h]
  simpa [ho.1, hnone] using ho.2

end Removes

section Stands

variable {s : GroupRosterStatement} {now : Int} {changes : List CheckedGroupChange}
  (hn : (changes.map CheckedGroupChange.id).Nodup)

include hn

/-- A remove that counts is `Applied` in the view. -/
theorem applied_of_removes {r : CheckedGroupChange}
    (hr : r ∈ (indexed s now changes).heldChanges) (hk : r.change.kind = .remove)
    (h : (indexed s now changes).oracle ⟨.removes, r.id⟩ = true) :
    ((indexed s now changes).view.verdict r.id).map (·.status) = some .applied := by
  obtain ⟨status, reason, hv, ho⟩ := verdict_of_held hn hr
  rw [hv]
  exact congrArg some (outcome_of_removes hk h ho)

/-- An admin nobody may take out, who signed no leave, stands. -/
theorem stands_of_admin (hs : s.Structured) {m : GroupRosterStatementMember}
    (hm : m ∈ s.members) (hrole : m.role = .admin)
    (hleave : ∀ c ∈ changes, c.change.kind = .leave → c.change.signer ≠ m.identity)
    (hremove : ∀ c ∈ changes, c.change.kind = .remove → c.change.member = m.identity →
      c.change.signer ≠ s.ownerIdentity ∧
        ∀ r ∈ changes, r.change.kind = .remove → r.change.member = c.change.signer → c.id ∈ r.change.keeps →
            ((indexed s now changes).view.verdict r.id).map (·.status) ≠ some .applied) :
    (indexed s now changes).standsUnder (indexed s now changes).oracle m.identity = true := by
  have hx : (indexed s now changes).WellIndexed := wellIndexed hn
  have hmem {c : CheckedGroupChange} (hc : c ∈ (indexed s now changes).heldChanges) :
      c ∈ changes := ((mem_heldChanges_indexed hn).mp hc).1
  have hlisted : (indexed s now changes).inStatement m.identity = true := by
    rw [inStatement_indexed, GroupRosterStatement.lists_iff]
    exact ⟨m, hm, rfl⟩
  have hleft : (indexed s now changes).leftUnder (indexed s now changes).oracle m.identity =
      false := by
    by_contra hne
    obtain ⟨l, hl, hk, hsig, -⟩ := leftUnder_oracle hx (by simpa using hne)
    exact hleave l (hmem hl) hk hsig
  have hremoved : (indexed s now changes).oracle ⟨.removed, m.identity⟩ = false := by
    by_contra hne
    obtain ⟨c, hc, hk, htarget, hv⟩ := oracle_removed hx (by simpa using hne)
    obtain ⟨howner, hkept⟩ := hremove c (hmem hc) hk htarget
    rcases allows_of_removes hx hc hv with hkeep | hallows
    · obtain ⟨c', r, hc', hr, hkr, hkeeps, hsigner, hvr⟩ := oracle_removeKept hx hkeep
      rw [held_of_mem hx hc] at hc'
      cases hc'
      exact hkept r (hmem hr) hkr hsigner hkeeps (applied_of_removes hn hr hkr hvr)
    · -- only the owner's role is over an admin's
      rw [htarget, statementRole_of_mem hs hm, hrole] at hallows
      simp only [groupAllows, reduceCtorEq, ne_eq, not_false_eq_true, and_false, or_false,
        true_and, decide_eq_true_eq] at hallows
      exact howner ((statementRole_owner hs).mp hallows)
  simp only [standsUnder, presentUnder, hlisted, hremoved, hleft, Bool.not_false, Bool.and_self]

theorem stands_of_owner (hs : s.Structured) :
    (indexed s now changes).standsUnder (indexed s now changes).oracle s.ownerIdentity = true := by
  have hx : (indexed s now changes).WellIndexed := wellIndexed hn
  obtain ⟨owner, ho, hrole⟩ := hs.ownerRow
  have hlisted : (indexed s now changes).inStatement s.ownerIdentity = true := by
    rw [inStatement_indexed, GroupRosterStatement.lists_iff]
    exact ⟨owner, ho, hs.owner owner ho hrole⟩
  have hremoved : (indexed s now changes).oracle ⟨.removed, s.ownerIdentity⟩ = false := by
    simpa using oracle_removed_owner hx
  have hleft : (indexed s now changes).leftUnder (indexed s now changes).oracle s.ownerIdentity =
      false := by
    by_contra hne
    obtain ⟨l, hl, -, hsig, hv⟩ := leftUnder_oracle hx (by simpa using hne)
    refine statementRole_of_leaves hx hv (held_of_mem hx hl) ?_
    rw [hsig, statementRole_owner hs]
  simp only [standsUnder, presentUnder, hlisted, hremoved, hleft, Bool.not_false, Bool.and_self]

omit hn in
theorem find_of_stands (hs : s.Structured) {m : GroupRosterStatementMember}
    (hm : m ∈ s.members)
    (h : (indexed s now changes).standsUnder (indexed s now changes).oracle m.identity = true) :
    (indexed s now changes).view.find m.identity =
      some { identity := m.identity, role := m.role, joinedAt := m.joinedAt
             addedBy := m.addedBy } := by
  have hrow := memberRow_of_stands h
  rw [(sMembers_iff hs.members).mpr ⟨hm, rfl⟩] at hrow
  exact find_view ((grown_joined _).standing _ h) hrow

end Stands

end RosterRules

/-! ## No one but the owner takes an admin out -/

section Admins

open RosterRules

variable (K : GroupCrypto) (s : GroupRosterStatement) (changes : List GroupChange)
  (cards : GroupCardLookup) (now : Int)

end Admins

/-! ### A kept remove takes an admin out -/

namespace AdminSample

/-- The member `m` removes the admin `a`. -/
def removeAdmin : GroupChange :=
  { groupId := "g", baseEpoch := 1, signer := "m", signerDevice := "d"
    kind := .remove, member := "a" }

/-- The admin `b` removes `m` and keeps that remove. -/
def removeMember : GroupChange :=
  { groupId := "g", baseEpoch := 1, signer := "b", signerDevice := "d"
    kind := .remove, member := "m", keeps := [removeAdmin.id sampleCrypto] }

end AdminSample

end Pbr
