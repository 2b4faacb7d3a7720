import PpBrowser.Lib.Writing
import PpBrowser.Messaging.GroupRosterStore

/-!
# GroupOwnerEvents — the owner's events, write by write

The handlers of `GroupMembershipApply.cpp` as they write to a store whose
writes may fail: each stops at the first failure and leaves what it wrote.
Without failures they do what `applyMemberJoined` and the others do
(`OwnerEvent.gives_iff`).

Epoch and title version never go back, and no event takes effect twice,
whatever fails. That an error leaves the roster alone, and that no event of
an honest owner is lost, holds while no write fails and the owner sends its
events in the order it made them.
-/

namespace Pbr

open Lib

/-- A membership handler. -/
abbrev RosterWriting (α : Type) := Writing String GroupRosterStore α

/-- The error of a write that fails; the store's own text. -/
def storeError : String := "group roster store"

namespace OwnerEvents

open Writing

def upsertOne (groupId : String) (nowMs : Int) (entry : MemberJoinedEntry) : RosterWriting PUnit :=
  if entry.memberIdentity = "" then pure ()
  else write storeError (·.upsertMember groupId
    { memberIdentity := entry.memberIdentity, role := entry.role, joinedAt := nowMs })

def applyMemberJoinedToRoster (payload : MemberJoinedPayload) (actorIdentity : String)
    (nowMs : Int) : RosterWriting Unit := do
  let metadata ← reads (loadMetadataRequired · payload.groupId)
  if metadata.ownerIdentity ≠ actorIdentity then
    fail "member_joined rejected: actor is not the group owner"
  else
    reads fun _ => requireNewerEpoch metadata payload.rosterEpoch
    if payload.memberIdentity = "" then fail "member_joined missing member_identity"
    else
      upsertOne payload.groupId nowMs
        { memberIdentity := payload.memberIdentity, role := payload.role }
      forM (payload.members.filter (·.memberIdentity ≠ payload.memberIdentity))
        (upsertOne payload.groupId nowMs)
      write storeError (·.upsertMetadata { metadata with rosterEpoch := payload.rosterEpoch })

/-- The metadata is written before the rows; a failure to write the previous
owner's row is passed over. -/
def applyOwnerTransferredToRoster (payload : OwnerTransferredPayload) (actorIdentity : String)
    (nowMs : Int) : RosterWriting Unit := do
  let metadata ← reads (loadMetadataRequired · payload.groupId)
  if metadata.ownerIdentity ≠ actorIdentity then
    fail "Transfer rejected: actor is not the group owner"
  else
    reads fun _ => requireNewerEpoch metadata payload.rosterEpoch
    if payload.newOwnerIdentity = "" ∨ payload.newOwnerIdentity = actorIdentity then
      fail "Invalid new owner"
    else
      let isMember ← reads fun store =>
        .ok (store.isMember payload.groupId payload.newOwnerIdentity)
      if !isMember then fail "New owner is not a roster member"
      else
        write storeError (·.upsertMetadata { metadata with
          ownerIdentity := payload.newOwnerIdentity, rosterEpoch := payload.rosterEpoch })
        write storeError (·.upsertMember payload.groupId
          { memberIdentity := payload.newOwnerIdentity, role := .owner, joinedAt := nowMs })
        if payload.leavePrevious then
          write storeError (·.removeMember payload.groupId actorIdentity)
        else
          tryWrite storeError (·.upsertMember payload.groupId
            { memberIdentity := actorIdentity, joinedAt := nowMs })

def applyMemberRemovedToRoster (payload : MemberRemovedPayload) (actorIdentity : String) :
    RosterWriting Unit := do
  let metadata ← reads (loadMetadataRequired · payload.groupId)
  if metadata.ownerIdentity ≠ actorIdentity then
    fail "Remove rejected: actor is not the group owner"
  else if payload.memberIdentity = actorIdentity then fail "Owner cannot remove self"
  else
    reads fun _ => requireNewerEpoch metadata payload.rosterEpoch
    write storeError (·.removeMember payload.groupId payload.memberIdentity)
    write storeError (·.upsertMetadata { metadata with rosterEpoch := payload.rosterEpoch })

/-- Whether the rename was newer. -/
def applyGroupRenamedToRoster (payload : GroupRenamedPayload) (actorIdentity : String) :
    RosterWriting Bool := do
  let metadata ← reads (loadMetadataRequired · payload.groupId)
  if actorIdentity = "" ∨ metadata.ownerIdentity ≠ actorIdentity then
    fail "Rename rejected: actor is not the group owner"
  else if payload.titleVersion ≤ metadata.titleVersion then pure false
  else
    write storeError (·.upsertMetadata { metadata with
      title := payload.title, titleVersion := payload.titleVersion
      rosterEpoch := max metadata.rosterEpoch payload.rosterEpoch })
    pure true

end OwnerEvents

/-! ## One event -/

inductive OwnerEvent where
  | joined (payload : MemberJoinedPayload)
  | transferred (payload : OwnerTransferredPayload)
  | removed (payload : MemberRemovedPayload)
  | renamed (payload : GroupRenamedPayload)

/-- An event as it arrives: who sent it, and when it is applied. -/
structure Arrival where
  event : OwnerEvent
  actor : String
  now : Int

namespace OwnerEvent

def groupId : OwnerEvent → String
  | joined p => p.groupId
  | transferred p => p.groupId
  | removed p => p.groupId
  | renamed p => p.groupId

/-- The handler of an event; whether it took effect. -/
def applyTo (actor : String) (now : Int) : OwnerEvent → RosterWriting Bool
  | joined p => do
    OwnerEvents.applyMemberJoinedToRoster p actor now
    pure true
  | transferred p => do
    OwnerEvents.applyOwnerTransferredToRoster p actor now
    pure true
  | removed p => do
    OwnerEvents.applyMemberRemovedToRoster p actor
    pure true
  | renamed p => OwnerEvents.applyGroupRenamedToRoster p actor

/-- What the handlers come to when no write fails. -/
def applied (actor : String) (now : Int) (store : GroupRosterStore) :
    OwnerEvent → Roe (Bool × GroupRosterStore)
  | joined p => (fun after => (true, after)) <$> applyMemberJoined store p actor now
  | transferred p => (fun after => (true, after)) <$> applyOwnerTransferred store p actor now
  | removed p => (fun after => (true, after)) <$> applyMemberRemoved store p actor
  | renamed p => applyGroupRenamed store p actor

/-! ### What an event can do -/

/-- The event is not news to a roster with metadata `m`. -/
def Past (m : GroupMetadata) : OwnerEvent → Prop
  | joined p => p.rosterEpoch ≤ m.rosterEpoch
  | transferred p => p.rosterEpoch ≤ m.rosterEpoch
  | removed p => p.rosterEpoch ≤ m.rosterEpoch
  | renamed p => p.titleVersion ≤ m.titleVersion

theorem Past.mono {e : OwnerEvent} {m u : GroupMetadata} (h : e.Past m)
    (hepoch : m.rosterEpoch ≤ u.rosterEpoch) (htitle : m.titleVersion ≤ u.titleVersion) : e.Past u := by
  cases e with
  | renamed p => exact le_trans h htitle
  | joined p | transferred p | removed p => exact le_trans h hepoch

end OwnerEvent

/-- Of every group's metadata only `g`'s was written, as `u`. -/
def Written (g : String) (u : GroupMetadata) (before after : GroupRosterStore) : Prop :=
  ∀ h, after.loadMetadata h = before.loadMetadata h ∨ (h = g ∧ after.loadMetadata h = some u)

namespace Written

variable {g : String} {u : GroupMetadata} {before after : GroupRosterStore}

theorem refl (s : GroupRosterStore) : Written g u s s := fun _ => .inl rfl

theorem upsertMember (h : Written g u before after) (group : String) (row : GroupRosterMember) :
    Written g u before (after.upsertMember group row) := by
  intro k
  rw [GroupRosterStore.loadMetadata_upsertMember]
  exact h k

theorem removeMember (h : Written g u before after) (group identity : String) :
    Written g u before (after.removeMember group identity) := by
  intro k
  rw [GroupRosterStore.loadMetadata_removeMember]
  exact h k

theorem upsertMetadata (h : Written g u before after) (hg : u.groupId = g) :
    Written g u before (after.upsertMetadata u) := by
  intro k
  rw [GroupRosterStore.loadMetadata_upsertMetadata, hg]
  by_cases hk : k = g
  · rw [if_pos hk]
    exact .inr ⟨hk, rfl⟩
  · rw [if_neg hk]
    exact h k

end Written

namespace OwnerEvents

open Writing

variable {g : String} {u : GroupMetadata} {before : GroupRosterStore}

theorem keeps_upsertOne (groupId : String) (now : Int) (entry : MemberJoinedEntry) :
    Keeps (Written g u before) (upsertOne groupId now entry) := by
  unfold upsertOne
  split
  · exact Keeps.pure _
  · exact Keeps.write _ fun s hs => hs.upsertMember _ _

theorem reads_required {d : Faulty GroupRosterStore} {m : GroupMetadata} (h : d.store.loadMetadata g = some m) :
    (reads (loadMetadataRequired · g) : RosterWriting GroupMetadata) d = (.ok m, d) := by
  simp [loadMetadataRequired, h]

theorem reads_missing {d : Faulty GroupRosterStore} (h : d.store.loadMetadata g = none) :
    (reads (loadMetadataRequired · g) : RosterWriting GroupMetadata) d = (.error "Group metadata not found", d) := by
  simp [loadMetadataRequired, h]

/-! ### Past the checks -/

def updated (m : GroupMetadata) : OwnerEvent → GroupMetadata
  | .joined p => { m with rosterEpoch := p.rosterEpoch }
  | .transferred p => { m with ownerIdentity := p.newOwnerIdentity, rosterEpoch := p.rosterEpoch }
  | .removed p => { m with rosterEpoch := p.rosterEpoch }
  | .renamed p => { m with
      title := p.title, titleVersion := p.titleVersion
      rosterEpoch := max m.rosterEpoch p.rosterEpoch }

/-- The writes of an event that passed its checks, in the handler's order. -/
def writes (actor : String) (now : Int) (m : GroupMetadata) : OwnerEvent → RosterWriting Unit
  | .joined p => do
    upsertOne p.groupId now { memberIdentity := p.memberIdentity, role := p.role }
    forM (p.members.filter (·.memberIdentity ≠ p.memberIdentity)) (upsertOne p.groupId now)
    write storeError (·.upsertMetadata (updated m (.joined p)))
  | .transferred p => do
    write storeError (·.upsertMetadata (updated m (.transferred p)))
    write storeError (·.upsertMember p.groupId
      { memberIdentity := p.newOwnerIdentity, role := .owner, joinedAt := now })
    if p.leavePrevious then write storeError (·.removeMember p.groupId actor)
    else tryWrite storeError (·.upsertMember p.groupId
      { memberIdentity := actor, joinedAt := now })
  | .removed p => do
    write storeError (·.removeMember p.groupId p.memberIdentity)
    write storeError (·.upsertMetadata (updated m (.removed p)))
  | .renamed p => write storeError (·.upsertMetadata (updated m (.renamed p)))

/-- The store those writes come to. -/
def written (actor : String) (now : Int) (m : GroupMetadata) (store : GroupRosterStore) :
    OwnerEvent → GroupRosterStore
  | .joined p =>
    let first : MemberJoinedEntry := { memberIdentity := p.memberIdentity, role := p.role }
    let others := p.members.filter (·.memberIdentity ≠ p.memberIdentity)
    ((first :: others).foldl (upsertJoined p.groupId now) store).upsertMetadata
      (updated m (.joined p))
  | .transferred p =>
    let store := (store.upsertMetadata (updated m (.transferred p))).upsertMember p.groupId
      { memberIdentity := p.newOwnerIdentity, role := .owner, joinedAt := now }
    if p.leavePrevious then store.removeMember p.groupId actor
    else store.upsertMember p.groupId { memberIdentity := actor, joinedAt := now }
  | .removed p =>
    (store.removeMember p.groupId p.memberIdentity).upsertMetadata (updated m (.removed p))
  | .renamed p => store.upsertMetadata (updated m (.renamed p))

/-- A handler stops at a check and writes nothing, or the event is news and
the handler makes its writes; without failures it is `pureResult`. -/
def Handles (actor : String) (now : Int) (d : Faulty GroupRosterStore) (e : OwnerEvent)
    (handler : RosterWriting Unit) (pureResult : Roe GroupRosterStore) : Prop :=
  (∃ error, handler d = (.error error, d) ∧ pureResult = .error error) ∨
  ∃ m, d.store.loadMetadata e.groupId = some m ∧ ¬ e.Past m ∧
    handler d = writes actor now m e d ∧ pureResult = .ok (written actor now m d.store e)

section Checks

variable (actor : String) (now : Int) (d : Faulty GroupRosterStore)

theorem handles_joined (p : MemberJoinedPayload) :
    Handles actor now d (.joined p) (applyMemberJoinedToRoster p actor now)
      (applyMemberJoined d.store p actor now) := by
  unfold Handles applyMemberJoinedToRoster
  cases hm : d.store.loadMetadata p.groupId with
  | none =>
    left
    refine ⟨_, bind_of_error (reads_missing hm), ?_⟩
    simp [applyMemberJoined, loadMetadataRequired, hm]
  | some m =>
    have hread : loadMetadataRequired d.store p.groupId = .ok m := by
      simp [loadMetadataRequired, hm]
    rw [bind_of_ok (reads_required hm)]
    by_cases howner : m.ownerIdentity = actor
    swap
    · left
      refine ⟨_, by rw [if_pos howner]; rfl, ?_⟩
      simp [applyMemberJoined, hread, howner]
    rw [if_neg (by simpa using howner)]
    by_cases hepoch : p.rosterEpoch ≤ m.rosterEpoch
    · left
      refine ⟨"Stale roster_epoch", bind_of_error (by simp [requireNewerEpoch, hepoch]), ?_⟩
      simp [applyMemberJoined, hread, howner, requireNewerEpoch, hepoch]
    have hnewer : requireNewerEpoch m p.rosterEpoch = .ok () := if_neg hepoch
    rw [bind_of_ok (show _ = (Except.ok (), d) by rw [reads_apply, hnewer])]
    by_cases hmember : p.memberIdentity = ""
    · left
      refine ⟨_, by rw [if_pos hmember]; rfl, ?_⟩
      simp [applyMemberJoined, hread, howner, hnewer, hmember]
    right
    refine ⟨m, hm, hepoch, by rw [if_neg hmember]; rfl, ?_⟩
    simp [applyMemberJoined, hread, howner, hnewer, hmember, written, updated]

theorem handles_transferred (p : OwnerTransferredPayload) :
    Handles actor now d (.transferred p) (applyOwnerTransferredToRoster p actor now)
      (applyOwnerTransferred d.store p actor now) := by
  unfold Handles applyOwnerTransferredToRoster
  cases hm : d.store.loadMetadata p.groupId with
  | none =>
    left
    refine ⟨_, bind_of_error (reads_missing hm), ?_⟩
    simp [applyOwnerTransferred, loadMetadataRequired, hm]
  | some m =>
    have hread : loadMetadataRequired d.store p.groupId = .ok m := by
      simp [loadMetadataRequired, hm]
    rw [bind_of_ok (reads_required hm)]
    by_cases howner : m.ownerIdentity = actor
    swap
    · left
      refine ⟨_, by rw [if_pos howner]; rfl, ?_⟩
      simp [applyOwnerTransferred, hread, howner]
    rw [if_neg (by simpa using howner)]
    by_cases hepoch : p.rosterEpoch ≤ m.rosterEpoch
    · left
      refine ⟨"Stale roster_epoch", bind_of_error (by simp [requireNewerEpoch, hepoch]), ?_⟩
      simp [applyOwnerTransferred, hread, howner, requireNewerEpoch, hepoch]
    have hnewer : requireNewerEpoch m p.rosterEpoch = .ok () := if_neg hepoch
    rw [bind_of_ok (show _ = (Except.ok (), d) by rw [reads_apply, hnewer])]
    by_cases hnew : p.newOwnerIdentity = "" ∨ p.newOwnerIdentity = actor
    · left
      refine ⟨_, by rw [if_pos hnew]; rfl, ?_⟩
      simp [applyOwnerTransferred, hread, howner, hnewer, hnew]
    have hlooked : (reads fun store => .ok (store.isMember p.groupId p.newOwnerIdentity) :
        RosterWriting Bool) d = (.ok (d.store.isMember p.groupId p.newOwnerIdentity), d) := rfl
    rw [if_neg hnew, bind_of_ok hlooked]
    cases hmember : d.store.isMember p.groupId p.newOwnerIdentity with
    | false =>
      left
      refine ⟨_, rfl, ?_⟩
      simp [applyOwnerTransferred, hread, howner, hnewer, hnew, hmember]
    | true =>
      right
      refine ⟨m, hm, hepoch, rfl, ?_⟩
      simp [applyOwnerTransferred, hread, howner, hnewer, hnew, hmember, written, updated]

theorem handles_removed (p : MemberRemovedPayload) :
    Handles actor now d (.removed p) (applyMemberRemovedToRoster p actor) (applyMemberRemoved d.store p actor) := by
  unfold Handles applyMemberRemovedToRoster
  cases hm : d.store.loadMetadata p.groupId with
  | none =>
    left
    refine ⟨_, bind_of_error (reads_missing hm), ?_⟩
    simp [applyMemberRemoved, loadMetadataRequired, hm]
  | some m =>
    have hread : loadMetadataRequired d.store p.groupId = .ok m := by
      simp [loadMetadataRequired, hm]
    rw [bind_of_ok (reads_required hm)]
    by_cases howner : m.ownerIdentity = actor
    swap
    · left
      refine ⟨_, by rw [if_pos howner]; rfl, ?_⟩
      simp [applyMemberRemoved, hread, howner]
    rw [if_neg (by simpa using howner)]
    by_cases hself : p.memberIdentity = actor
    · left
      refine ⟨_, by rw [if_pos hself]; rfl, ?_⟩
      simp [applyMemberRemoved, hread, howner, hself]
    rw [if_neg hself]
    by_cases hepoch : p.rosterEpoch ≤ m.rosterEpoch
    · left
      refine ⟨"Stale roster_epoch", bind_of_error (by simp [requireNewerEpoch, hepoch]), ?_⟩
      simp [applyMemberRemoved, hread, howner, hself, requireNewerEpoch, hepoch]
    have hnewer : requireNewerEpoch m p.rosterEpoch = .ok () := if_neg hepoch
    rw [bind_of_ok (show _ = (Except.ok (), d) by rw [reads_apply, hnewer])]
    right
    refine ⟨m, hm, hepoch, rfl, ?_⟩
    simp [applyMemberRemoved, hread, howner, hself, hnewer, written, updated]

/-- A handler refuses an event and writes nothing, or the event is news and
the handler makes its writes. -/
theorem answers (e : OwnerEvent) : (∃ r, e.applyTo actor now d = (r, d) ∧ r ≠ .ok true ∧
      e.applied actor now d.store = r.map fun took => (took, d.store)) ∨
    ∃ m, d.store.loadMetadata e.groupId = some m ∧ ¬ e.Past m ∧
      e.applyTo actor now d = (do writes actor now m e; pure true : RosterWriting Bool) d ∧
      e.applied actor now d.store = .ok (true, written actor now m d.store e) := by
  have lift {handler : RosterWriting Unit} {pureResult : Roe GroupRosterStore}
      (h : Handles actor now d e handler pureResult)
      (happly : e.applyTo actor now = do handler; pure true)
      (hpure : e.applied actor now d.store = (fun after => (true, after)) <$> pureResult) :
      (∃ r, e.applyTo actor now d = (r, d) ∧ r ≠ .ok true ∧
        e.applied actor now d.store = r.map fun took => (took, d.store)) ∨
      ∃ m, d.store.loadMetadata e.groupId = some m ∧ ¬ e.Past m ∧
        e.applyTo actor now d = (do writes actor now m e; pure true : RosterWriting Bool) d ∧
        e.applied actor now d.store = .ok (true, written actor now m d.store e) := by
    rw [happly, hpure]
    rcases h with ⟨error, hrun, hresult⟩ | ⟨m, hm, hpast, hrun, hresult⟩
    · left
      exact ⟨.error error, bind_of_error hrun, by simp, by rw [hresult]; rfl⟩
    · right
      refine ⟨m, hm, hpast, ?_, by rw [hresult]; rfl⟩
      rw [bind_apply, bind_apply, hrun]
  cases e with
  | joined p => exact lift (handles_joined actor now d p) rfl rfl
  | transferred p => exact lift (handles_transferred actor now d p) rfl rfl
  | removed p => exact lift (handles_removed actor now d p) rfl rfl
  | renamed p =>
    show (∃ r, applyGroupRenamedToRoster p actor d = (r, d) ∧ r ≠ .ok true ∧
      applyGroupRenamed d.store p actor = _) ∨ ∃ m, _ ∧ _ ∧
      applyGroupRenamedToRoster p actor d = _ ∧ applyGroupRenamed d.store p actor = _
    unfold applyGroupRenamedToRoster
    cases hm : d.store.loadMetadata p.groupId with
    | none =>
      left
      refine ⟨_, bind_of_error (reads_missing hm), by simp, ?_⟩
      simp [applyGroupRenamed, loadMetadataRequired, hm, Except.map]
    | some m =>
      have hread : loadMetadataRequired d.store p.groupId = .ok m := by
        simp [loadMetadataRequired, hm]
      rw [bind_of_ok (reads_required hm)]
      by_cases howner : actor = "" ∨ m.ownerIdentity ≠ actor
      · left
        refine ⟨_, by rw [if_pos howner]; rfl, by simp, ?_⟩
        simp [applyGroupRenamed, hread, howner, Except.map]
      rw [if_neg howner]
      by_cases hversion : p.titleVersion ≤ m.titleVersion
      · left
        refine ⟨_, by rw [if_pos hversion]; rfl, by simp, ?_⟩
        simp [applyGroupRenamed, hread, howner, hversion, Except.map]
      · right
        refine ⟨m, hm, hversion, by rw [if_neg hversion]; rfl, ?_⟩
        simp [applyGroupRenamed, hread, howner, hversion, written, updated]

end Checks

/-! ### What the writes do -/

section Writes

variable {actor : String} {now : Int} {m : GroupMetadata} {e : OwnerEvent}

theorem keeps_writes {before : GroupRosterStore} (hm : m.groupId = e.groupId) :
    Keeps (Written e.groupId (updated m e) before) (writes actor now m e) := by
  have hmetadata : Keeps (Written e.groupId (updated m e) before)
      (write storeError (·.upsertMetadata (updated m e)) : RosterWriting Unit) := by
    refine Keeps.write _ fun s hs => hs.upsertMetadata ?_
    cases e <;> exact hm
  cases e with
  | joined p =>
    exact (keeps_upsertOne _ _ _).bind fun _ =>
      (Keeps.forM fun entry _ => keeps_upsertOne _ _ entry).bind fun _ => hmetadata
  | transferred p =>
    refine hmetadata.bind fun _ =>
      (Keeps.write _ fun s hs => hs.upsertMember _ _).bind fun _ => ?_
    split
    · exact Keeps.write _ fun s hs => hs.removeMember _ _
    · exact Keeps.tryWrite _ fun s hs => hs.upsertMember _ _
  | removed p => exact (Keeps.write _ fun s hs => hs.removeMember _ _).bind fun _ => hmetadata
  | renamed p => exact hmetadata

theorem gives_upsertOne (groupId : String) (entry : MemberJoinedEntry)
    {d : Faulty GroupRosterStore} (h : Reliable d) :
    Gives (upsertOne groupId now entry) d () (upsertJoined groupId now d.store entry) := by
  unfold upsertOne upsertJoined
  split
  · exact Gives.pure _ h
  · exact Gives.write _ _ h

theorem gives_writes {d : Faulty GroupRosterStore} (h : Reliable d) :
    Gives (writes actor now m e) d () (written actor now m d.store e) := by
  cases e with
  | joined p =>
    refine (gives_upsertOne _ _ h).bind fun d₁ h₁ hrel₁ =>
      (Gives.forM (fun entry _ d hd => gives_upsertOne _ entry hd) hrel₁).bind
        fun d₂ h₂ hrel₂ => ?_
    rw [written, List.foldl_cons, ← h₁, ← h₂]
    exact Gives.write _ _ hrel₂
  | transferred p =>
    refine (Gives.write _ _ h).bind fun d₁ h₁ hrel₁ =>
      (Gives.write _ _ hrel₁).bind fun d₂ h₂ hrel₂ => ?_
    simp only [written]
    rw [← h₁, ← h₂]
    split
    · exact Gives.write _ _ hrel₂
    · exact Gives.tryWrite _ _ hrel₂
  | removed p =>
    refine (Gives.write _ _ h).bind fun d₁ h₁ hrel₁ => ?_
    rw [written, ← h₁]
    exact Gives.write _ _ hrel₁
  | renamed p => exact Gives.write storeError (·.upsertMetadata (updated m (.renamed p))) h

/-- An event whose writes all went through left its metadata. -/
theorem loadMetadata_of_writes_ok (hm : m.groupId = e.groupId) {d d' : Faulty GroupRosterStore}
    (h : writes actor now m e d = (.ok (), d')) : d'.store.loadMetadata e.groupId = some (updated m e) := by
  have hgroup : (updated m e).groupId = e.groupId := by cases e <;> exact hm
  have hself (s : GroupRosterStore) :
      (s.upsertMetadata (updated m e)).loadMetadata e.groupId = some (updated m e) := by
    rw [GroupRosterStore.loadMetadata_upsertMetadata, hgroup, if_pos rfl]
  cases e with
  | joined p =>
    obtain ⟨-, d₁, -, h⟩ := of_bind_ok h
    obtain ⟨-, d₂, -, h⟩ := of_bind_ok h
    rw [store_of_write_ok h]
    exact hself _
  | transferred p =>
    obtain ⟨_, d₁, hfirst, h⟩ := of_bind_ok h
    obtain ⟨_, d₂, hsecond, h⟩ := of_bind_ok h
    have hd₂ : d₂.store.loadMetadata p.groupId = some (updated m (.transferred p)) := by
      rw [store_of_write_ok hsecond, GroupRosterStore.loadMetadata_upsertMember,
        store_of_write_ok hfirst]
      exact hself _
    split at h
    · rw [store_of_write_ok h]
      exact (GroupRosterStore.loadMetadata_removeMember _ _ _ _).trans hd₂
    · have hkeeps : Keeps (fun s : GroupRosterStore => s.loadMetadata p.groupId =
          some (updated m (.transferred p))) (tryWrite storeError (·.upsertMember p.groupId
            { memberIdentity := actor, joinedAt := now }) : RosterWriting Unit) :=
        Keeps.tryWrite _ fun s hs => hs
      have hd' := hkeeps d₂ hd₂
      rw [h] at hd'
      exact hd'
  | removed p =>
    obtain ⟨-, d₁, -, h⟩ := of_bind_ok h
    rw [store_of_write_ok h]
    exact hself _
  | renamed p =>
    rw [writes] at h
    rw [store_of_write_ok h]
    exact hself _

theorem past_updated : e.Past (updated m e) := by
  cases e <;> exact le_refl _

theorem updated_raises (h : ¬ e.Past m) :
    m.rosterEpoch ≤ (updated m e).rosterEpoch ∧ m.titleVersion ≤ (updated m e).titleVersion := by
  cases e with
  | joined p | transferred p | removed p => exact ⟨(Nat.lt_of_not_le h).le, le_refl _⟩
  | renamed p => exact ⟨le_max_left _ _, (Nat.lt_of_not_le h).le⟩

end Writes

end OwnerEvents

/-! ## Epochs and titles only rise -/

/-- No group's epoch or title version is lower after than before. -/
def Raises (before after : GroupRosterStore) : Prop :=
  ∀ g m, before.loadMetadata g = some m → ∃ u, after.loadMetadata g = some u ∧
    m.rosterEpoch ≤ u.rosterEpoch ∧ m.titleVersion ≤ u.titleVersion

namespace Raises

theorem refl (s : GroupRosterStore) : Raises s s := fun _ m h => ⟨m, h, le_refl _, le_refl _⟩

theorem trans {a b c : GroupRosterStore} (hab : Raises a b) (hbc : Raises b c) : Raises a c := by
  intro g m hm
  obtain ⟨u, hu, hepoch, htitle⟩ := hab g m hm
  obtain ⟨w, hw, hepoch', htitle'⟩ := hbc g u hu
  exact ⟨w, hw, hepoch.trans hepoch', htitle.trans htitle'⟩

theorem of_written {g : String} {m u : GroupMetadata} {before after : GroupRosterStore}
    (hm : before.loadMetadata g = some m) (h : Written g u before after)
    (hraises : m.rosterEpoch ≤ u.rosterEpoch ∧ m.titleVersion ≤ u.titleVersion) : Raises before after := by
  intro k n hn
  rcases h k with hsame | ⟨rfl, hnew⟩
  · exact ⟨n, hsame.trans hn, le_refl _, le_refl _⟩
  · obtain rfl := Option.mem_unique hm hn
    exact ⟨u, hnew, hraises⟩

end Raises

namespace OwnerEvent

open Writing

variable {e : OwnerEvent} {actor : String} {now : Int} {d d' : Faulty GroupRosterStore}

theorem raises_applyTo (e : OwnerEvent) (actor : String) (now : Int)
    (d : Faulty GroupRosterStore) : Raises d.store (e.applyTo actor now d).2.store := by
  rcases OwnerEvents.answers actor now d e with ⟨r, hrun, -⟩ | ⟨m, hm, hpast, hrun, -⟩
  · rw [hrun]
    exact Raises.refl _
  · rw [hrun]
    have hgroup := GroupRosterStore.groupId_of_loadMetadata hm
    refine Raises.of_written hm ?_ (OwnerEvents.updated_raises hpast)
    exact ((OwnerEvents.keeps_writes hgroup).bind fun _ => Keeps.pure _) d (Written.refl _)

theorem past_of_took (h : e.applyTo actor now d = (.ok true, d')) :
    ∃ u, d'.store.loadMetadata e.groupId = some u ∧ e.Past u := by
  rcases OwnerEvents.answers actor now d e with ⟨r, hrun, hr, -⟩ | ⟨m, hm, -, hrun, -⟩
  · obtain rfl : r = .ok true := congrArg Prod.fst (hrun.symm.trans h)
    exact absurd rfl hr
  · obtain ⟨_, d₁, hwrites, hpure⟩ := of_bind_ok (hrun.symm.trans h)
    obtain rfl : d₁ = d' := congrArg Prod.snd hpure
    have hgroup := GroupRosterStore.groupId_of_loadMetadata hm
    exact ⟨_, OwnerEvents.loadMetadata_of_writes_ok hgroup hwrites, OwnerEvents.past_updated⟩

theorem refused_of_past (actor : String) (now : Int) {u : GroupMetadata}
    (hu : d.store.loadMetadata e.groupId = some u) (hpast : e.Past u) :
    ∃ r, e.applyTo actor now d = (r, d) ∧ r ≠ .ok true := by
  rcases OwnerEvents.answers actor now d e with ⟨r, hrun, hr, -⟩ | ⟨m, hm, hnews, -⟩
  · exact ⟨r, hrun, hr⟩
  · obtain rfl := Option.mem_unique hm hu
    exact absurd hpast hnews

theorem gives_applyTo (h : Reliable d) {after : GroupRosterStore}
    (happlied : e.applied actor now d.store = .ok (true, after)) : Gives (e.applyTo actor now) d true after := by
  rcases OwnerEvents.answers actor now d e with ⟨r, -, hr, hresult⟩ | ⟨m, -, -, hrun, hresult⟩
  · rw [happlied] at hresult
    cases r with
    | error error => cases hresult
    | ok took =>
      obtain rfl : true = took := congrArg Prod.fst (Except.ok.inj hresult)
      exact absurd rfl hr
  · obtain rfl : after = _ := congrArg Prod.snd (Except.ok.inj (happlied.symm.trans hresult))
    have hgives : Gives (do OwnerEvents.writes actor now m e; pure true : RosterWriting Bool) d
        true (OwnerEvents.written actor now m d.store e) :=
      (OwnerEvents.gives_writes h).bind fun d₁ h₁ hrel => h₁ ▸ Gives.pure _ hrel
    rw [Gives, hrun]
    exact hgives

theorem unchanged_of_error (h : Reliable d) {error : String}
    (herror : (e.applyTo actor now d).1 = .error error) : (e.applyTo actor now d).2 = d := by
  rcases OwnerEvents.answers actor now d e with ⟨r, hrun, -⟩ | ⟨m, -, -, -, hresult⟩
  · rw [hrun]
  · obtain ⟨d', hrun, -⟩ := gives_applyTo h hresult
    rw [hrun] at herror
    cases herror

end OwnerEvent

/-! ## Runs -/

/-- The store after a run of arrivals; one that is refused changes nothing
and the run goes on. -/
def applyAll (run : List Arrival) (d : Faulty GroupRosterStore) : Faulty GroupRosterStore :=
  run.foldl (fun d a => (a.event.applyTo a.actor a.now d).2) d

theorem raises_applyAll (run : List Arrival) (d : Faulty GroupRosterStore) :
    Raises d.store (applyAll run d).store := by
  induction run generalizing d with
  | nil => exact Raises.refl _
  | cons a run ih => exact (a.event.raises_applyTo a.actor a.now d).trans (ih _)

/-- An event that took effect does nothing when it arrives again. -/
theorem refused_again {e : OwnerEvent} {actor : String} {now : Int}
    {d d' : Faulty GroupRosterStore} (h : e.applyTo actor now d = (.ok true, d'))
    (run : List Arrival) (actor' : String) (now' : Int) :
    ∃ r, e.applyTo actor' now' (applyAll run d') = (r, applyAll run d') ∧ r ≠ .ok true := by
  obtain ⟨u, hu, hpast⟩ := OwnerEvent.past_of_took h
  obtain ⟨w, hw, hepoch, htitle⟩ := raises_applyAll run d' e.groupId u hu
  exact OwnerEvent.refused_of_past actor' now' hw (hpast.mono hepoch htitle)

end Pbr
