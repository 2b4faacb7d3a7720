import PpBrowser.Messaging.GroupRosterOwners

/-!
# GroupRosterKept — what a device keeps and what it shows

After `KeepAndCatchUp` keeps a statement, the rows and the metadata are the
statement's view, unless the roster's epoch is ahead of it: then the rows,
the owner and the epoch stay as they were.
-/

namespace Pbr

open Lib GroupRosterStatement

theorem nodup_members (s : GroupRosterStatement) (changes : List CheckedGroupChange) (now : Int) :
    ((computeRosterChecked s changes now).members.map (·.identity)).Nodup := by
  cases hd : s.dissolved with
  | true =>
    have hrun : (computeRosterChecked s changes now).members = [] := by
      rw [computeRosterChecked, RosterRules.run_dissolved hd]
      rfl
    rw [hrun]
    exact List.nodup_nil
  | false =>
    rw [RosterRules.computeRosterChecked_eq_view hd]
    exact RosterRules.members_sorted.imp ne_of_lt

/-- The rows say of everyone what the view's members do. -/
def ShowsMembers (rows : StrMap GroupRosterMember) (view : GroupRosterView) : Prop :=
  ∀ i : String, (rows[i]?).map (fun r => (r.role, r.joinedAt, r.addedBy)) =
    (view.find i).map fun m => (m.role, m.joinedAt, m.addedBy)

section Kept

variable {K : GroupCrypto} {store after : GroupRosterStore} {s : GroupRosterStatement}
  {cards : GroupCardLookup} {now : Int} {applied : GroupViewApplied} {g : String}

@[simp] theorem roster_appliedBy (held : GroupRosterStatement) (view : GroupRosterView)
    (m : GroupMetadata) (h : String) :
    (appliedBy store g held view m).2.roster h = (writtenBy store g view).2.roster h := by
  unfold appliedBy
  dsimp only
  split <;> rfl

theorem showsMembers_appliedBy (held : GroupRosterStatement) {view : GroupRosterView}
    (m : GroupMetadata) (hn : (view.members.map (·.identity)).Nodup) :
    ShowsMembers ((appliedBy store g held view m).2.roster g) view := by
  intro i
  rw [roster_appliedBy, writtenBy, roster_writeRows _ _ hn, Option.map_map]
  rfl

theorem keepAndCatchUp_kept (h : keepAndCatchUp K store s cards now = .ok (true, applied, after)) :
    ∃ kept, keepStatement K store s = .ok (true, kept) ∧
      applyView K kept s.groupId cards now = .ok (applied, after) := by
  unfold keepAndCatchUp at h
  cases hkeep : keepStatement K store s with
  | error e => simp [hkeep] at h
  | ok result =>
    obtain ⟨b, kept⟩ := result
    cases b with
    | false => simp [hkeep] at h
    | true =>
      refine ⟨kept, rfl, ?_⟩
      cases happly : applyView K kept s.groupId cards now with
      | error e => simp [hkeep, happly] at h
      | ok result =>
        simp only [hkeep, happly, bind, Except.bind, pure, Except.pure, Bool.not_true,
          Bool.false_eq_true, if_false, Except.ok.injEq, Prod.mk.injEq, true_and] at h
        rw [← h.1, ← h.2]

/-- What a device keeps is what it shows, where the roster's epoch is not
ahead of the statement kept; where it is, only the statement and the preset
are new. -/
theorem kept_is_shown (hK : K.Sound)
    (h : keepAndCatchUp K store s cards now = .ok (true, applied, after)) :
    ∃ m last held, store.loadMetadata s.groupId = some m ∧
      after.loadMetadata s.groupId = some last ∧ last.held = some held ∧ held = s.stored ∧
      last.policy.preset = held.preset ∧
      (m.rosterEpoch ≤ held.rosterEpoch →
        ShowsMembers (after.roster s.groupId) (heldView K store s.groupId held cards now) ∧
        last.ownerIdentity = held.ownerIdentity ∧ last.rosterEpoch = held.rosterEpoch) ∧
      (held.rosterEpoch < m.rosterEpoch →
        after.roster s.groupId = store.roster s.groupId ∧
        last.ownerIdentity = m.ownerIdentity ∧ last.rosterEpoch = m.rosterEpoch) := by
  obtain ⟨kept, hkeep, happly⟩ := keepAndCatchUp_kept h
  obtain ⟨-, m, hm, ⟨hfalse, -⟩ | ⟨-, hlive, hverify, -, rfl⟩⟩ := keepStatement_cases hkeep
  · cases hfalse
  have hstorable := (verified_of_verify hverify).storable hK
  have hload : (store.upsertMetadata (m.keeping s)).loadMetadata s.groupId =
      some (m.keeping s) := by
    rw [GroupRosterStore.loadMetadata_upsertMetadata,
      if_pos (show s.groupId = (m.keeping s).groupId from
        (GroupRosterStore.groupId_of_loadMetadata hm).symm)]
  have hheld : (m.keeping s).held = some s.stored := by
    have hkept := heldStatement_kept hstorable hm s.groupId
    rwa [heldStatement, hload, if_pos rfl, Option.bind_some] at hkept
  by_cases hepoch : m.rosterEpoch ≤ s.stored.rosterEpoch
  · -- the apply path runs
    rw [applyView_eq hload hlive hheld hepoch] at happly
    obtain ⟨-, rfl⟩ := Prod.mk.inj (Except.ok.inj happly)
    refine ⟨m, _, s.stored, hm, loadMetadata_appliedBy hload _ _, by rw [updateMetadata_held, hheld],
      rfl, by rw [updateMetadata_policy], fun _ => ⟨?_, ?_, ?_⟩, fun hlt => absurd hlt (by omega)⟩
    · exact showsMembers_appliedBy _ _ (nodup_members _ _ _)
    · rw [updateMetadata_ownerIdentity]
    · rw [updateMetadata_rosterEpoch]
  · -- the roster's epoch is ahead: it is left as it is
    have hold : ∀ held ∈ (m.keeping s).held, held.rosterEpoch < (m.keeping s).rosterEpoch := by
      intro held hmem
      obtain rfl : s.stored = held := Option.mem_unique hheld hmem
      exact Nat.lt_of_not_le hepoch
    rw [applyView_idle hload hlive hold] at happly
    obtain ⟨-, rfl⟩ := Prod.mk.inj (Except.ok.inj happly)
    exact ⟨m, _, s.stored, hm, hload, hheld, rfl, rfl, fun hle => absurd hle hepoch,
      fun _ => ⟨rfl, rfl, rfl⟩⟩

end Kept

/-! ## A roster left behind -/

/-- The sample device after the owner's rename, which names epoch 9. -/
def sampleRenamed : GroupRosterStore :=
  storeAfter (sampleDevice "c") (applyGroupRenamed (sampleDevice "c")
    { groupId := "g", title := "t", titleVersion := 1, rosterEpoch := 9 } "c")

/-- `b`'s statement of epoch 7, after `c` gave it the group. -/
def sampleMoved : GroupRosterStatement :=
  { sampleOwned "b" 7 [sampleTransfer "c" "b" 3] with preset := .managed }

/-- What a device keeps and shows of the sample group. -/
structure SampleShown where
  kept : Bool
  rows : List GroupRosterMember
  held : Option GroupRosterStatement
  policy : GroupPolicy
  ownerIdentity : String
  rosterEpoch : Nat
  deriving DecidableEq

def sampleShown (result : Roe (Bool × GroupViewApplied × GroupRosterStore)) :
    Option SampleShown := do
  let (kept, _, after) ← result.toOption
  let m ← after.loadMetadata "g"
  pure { kept, rows := after.listMembers "g", held := m.held, policy := m.policy
         ownerIdentity := m.ownerIdentity, rosterEpoch := m.rosterEpoch }

set_option maxRecDepth 20000 in
/-- A rename raised the epoch: the statement and its preset are kept, while
the rows, the owner and the epoch stay those of the older roster. -/
theorem rename_leaves_roster_behind :
    sampleShown (keepAndCatchUp sampleSigning sampleRenamed sampleMoved sampleCards 0) =
      some { kept := true, rows := [], held := some sampleMoved, policy := ⟨.managed⟩
             ownerIdentity := "c", rosterEpoch := 9 } ∧
    ((heldView sampleSigning sampleRenamed "g" sampleMoved sampleCards 0).members.map
      (·.identity)) = ["b", "c"] := by
  refine ⟨by decide, by decide⟩

set_option maxRecDepth 20000 in
/-- With no rename before it, the same statement's members are the rows. -/
theorem kept_is_shown_sample : ∃ applied after last,
    keepAndCatchUp sampleSigning (sampleDevice "c") sampleMoved sampleCards 0 =
      .ok (true, applied, after) ∧ after.loadMetadata "g" = some last ∧
    ShowsMembers (after.roster "g")
      (heldView sampleSigning (sampleDevice "c") "g" sampleMoved sampleCards 0) ∧
    last.ownerIdentity = "b" ∧ last.rosterEpoch = 7 := by
  cases hkeep : keepAndCatchUp sampleSigning (sampleDevice "c") sampleMoved sampleCards 0 with
  | error e =>
    have hok : (keepAndCatchUp sampleSigning (sampleDevice "c") sampleMoved sampleCards
      0).toOption.isSome = true := by decide
    rw [hkeep] at hok
    cases hok
  | ok result =>
    obtain ⟨kept, applied, after⟩ := result
    have hkept : (keepAndCatchUp sampleSigning (sampleDevice "c") sampleMoved sampleCards
      0).toOption.map (·.1) = some true := by decide
    rw [hkeep] at hkept
    obtain rfl : kept = true := Option.some.inj hkept
    obtain ⟨m, last, held, hm, hlast, -, rfl, -, hshown, -⟩ :=
      kept_is_shown sampleSigning_sound hkeep
    have hepoch : m.rosterEpoch ≤ 7 := by
      have hload : ((sampleDevice "c").loadMetadata "g").map (·.rosterEpoch) = some 1 := by
        decide
      rw [show (sampleDevice "c").loadMetadata "g" = some m from hm] at hload
      obtain hone : m.rosterEpoch = 1 := Option.some.inj hload
      omega
    obtain ⟨hrows, howner, hlastEpoch⟩ := hshown hepoch
    have hstored : sampleMoved.stored = sampleMoved := by decide
    exact ⟨applied, after, last, rfl, hlast, hstored ▸ hrows, howner, hlastEpoch⟩

end Pbr
