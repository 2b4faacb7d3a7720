import PpBrowser.Lib.Keyed
import PpBrowser.Messaging.GroupRosterJson

/-!
# GroupRosterStore — where a device keeps its groups

`IGroupRosterStore` as `InMemoryGroupRosterStore` implements it: the
metadata of each group, its roster rows and the changes it holds, three
maps listed in key order. Each map has its records under their own keys,
which the store carries with it. No operation fails.

Text kept as JSON is kept as the object it reads back as (`Lib.Json`);
`none` stands for text that is empty or no JSON object.
-/

namespace Pbr

open Lib Lib.Json

/-- What a device keeps of a group besides its rows. -/
structure GroupMetadata where
  groupId : String
  ownerIdentity : String := ""
  title : String := ""
  rosterEpoch : Nat := 1
  policy : GroupPolicy := {}
  /-- Bumped on each rename; a rename applies only when newer. -/
  titleVersion : Nat := 0
  /-- The latest owner-signed statement held. -/
  rosterStatementJson : Option Object := none
  syncState : GroupSyncState := .active
  /-- The open roster check (G013) and when it went out. -/
  syncRequestId : String := ""
  syncRequestedAt : Int := 0

/-- A change held and not folded yet. -/
structure StoredGroupChange where
  groupId : String
  changeId : String
  changeJson : Option Object := none
  receivedAt : Int := 0
  /-- The chat has its line for it. -/
  lineShown : Bool := false

/-- How a group ended (G016). -/
structure GroupEnding where
  ownerIdentity : String
  rosterEpoch : Nat := 0
  statementJson : Option Object := none

/-- The statement a group holds, if any. -/
def GroupMetadata.held (metadata : GroupMetadata) : Option GroupRosterStatement :=
  metadata.rosterStatementJson.bind fun json => (GroupRosterStatement.fromJson json).toOption

def parseChange (row : StoredGroupChange) : Option GroupChange := do
  let json ← row.changeJson
  let change ← (GroupChange.fromJson json).toOption
  if change.groupId ≠ row.groupId then none else some change

def rowsOf {α : Type} (table : StrMap (StrMap α)) (groupId : String) : StrMap α :=
  (table[groupId]?).getD ∅

section Rows

variable {α : Type} (table : StrMap (StrMap α)) (groupId : String)

theorem rowsOf_insert (other : String) (rows : StrMap α) : rowsOf (table.insert groupId rows) other =
      if other = groupId then rows else rowsOf table other := by
  rw [rowsOf, Std.ExtTreeMap.getElem?_insert]
  by_cases h : other = groupId
  · simp [h]
  · simp [h, Ne.symm h, rowsOf]

theorem rowsOf_erase (other : String) : rowsOf (table.erase groupId) other =
      if other = groupId then ∅ else rowsOf table other := by
  rw [rowsOf, Std.ExtTreeMap.getElem?_erase]
  by_cases h : other = groupId
  · simp [h]
  · simp [h, Ne.symm h, rowsOf]

variable {table groupId} {P : String → StrMap α → Prop}

/-- What holds of every group's rows holds still when one group's are
written. -/
theorem forall_rowsOf_insert (h : ∀ g, P g (rowsOf table g)) {rows : StrMap α}
    (hrows : P groupId rows) : ∀ g, P g (rowsOf (table.insert groupId rows) g) := by
  intro g
  rw [rowsOf_insert]
  by_cases hg : g = groupId
  · rw [if_pos hg, hg]
    exact hrows
  · rw [if_neg hg]
    exact h g

theorem forall_rowsOf_erase (h : ∀ g, P g (rowsOf table g)) (hempty : P groupId ∅) :
    ∀ g, P g (rowsOf (table.erase groupId) g) := by
  intro g
  rw [rowsOf_erase]
  by_cases hg : g = groupId
  · rw [if_pos hg, hg]
    exact hempty
  · rw [if_neg hg]
    exact h g

end Rows

/-- Rows held by group `g`, each under its change's id. -/
def HeldUnder (g : String) (rows : StrMap StoredGroupChange) : Prop :=
  ∀ (k : String) c, rows[k]? = some c → c.groupId = g ∧ c.changeId = k

namespace HeldUnder

variable {g : String} {rows : StrMap StoredGroupChange}

theorem empty : HeldUnder g ∅ := by
  intro k c h
  simp at h

theorem insert (h : HeldUnder g rows) {row : StoredGroupChange} (hrow : row.groupId = g) :
    HeldUnder g (rows.insert row.changeId row) := by
  intro k c hc
  rcases of_getElem?_insert hc with ⟨hk, hac⟩ | ⟨-, hc⟩
  · rw [← hac]
    exact ⟨hrow, hk⟩
  · exact h k c hc

theorem eraseAll (h : HeldUnder g rows) (ids : List String) : HeldUnder g (ids.foldl (·.erase ·) rows) := by
  intro k c hc
  rw [getElem?_eraseAll] at hc
  by_cases hk : k ∈ ids
  · simp [hk] at hc
  · exact h k c (by simpa [hk] using hc)

theorem keyed (h : HeldUnder g rows) : Keyed (·.changeId) rows := fun k c hc => (h k c hc).2

end HeldUnder

theorem keyed_metadata_empty : Keyed (fun m : GroupMetadata => m.groupId) ∅ := Lib.keyed_empty _

theorem keyed_rosters_empty (g : String) :
    Keyed (fun m : GroupRosterMember => m.memberIdentity) (rowsOf (∅ : StrMap (StrMap GroupRosterMember)) g) :=
  Lib.keyed_empty _

structure GroupRosterStore where
  metadata : StrMap GroupMetadata := ∅
  rosters : StrMap (StrMap GroupRosterMember) := ∅
  changes : StrMap (StrMap StoredGroupChange) := ∅
  keyed_metadata : Keyed (·.groupId) metadata := by exact keyed_metadata_empty
  keyed_rosters : ∀ g, Keyed (·.memberIdentity) (rowsOf rosters g) := by exact keyed_rosters_empty
  keyed_changes : ∀ g, HeldUnder g (rowsOf changes g) := by
    intro g; exact Pbr.HeldUnder.empty

namespace GroupRosterStore

@[ext] theorem ext_maps {a b : GroupRosterStore} (hm : a.metadata = b.metadata)
    (hr : a.rosters = b.rosters) (hc : a.changes = b.changes) : a = b := by
  cases a
  cases b
  subst hm hr hc
  rfl

section Operations

variable (store : GroupRosterStore)

/-! ## Metadata -/

def loadMetadata (groupId : String) : Option GroupMetadata := store.metadata[groupId]?

/-- The metadata a function needs, or its error. -/
def metadataOf (groupId : String) : Roe GroupMetadata :=
  match store.loadMetadata groupId with
  | none => .error ("Group metadata not found: " ++ groupId)
  | some m => .ok m

def upsertMetadata (m : GroupMetadata) : GroupRosterStore :=
  { store with
    metadata := store.metadata.insert m.groupId m
    keyed_metadata := store.keyed_metadata.insert m }

/-! ## Rows -/

def roster (groupId : String) : StrMap GroupRosterMember := rowsOf store.rosters groupId

def listMembers (groupId : String) : List GroupRosterMember := values (store.roster groupId)

def findMember (groupId identity : String) : Option GroupRosterMember :=
  (store.roster groupId)[identity]?

def isMember (groupId identity : String) : Bool := (store.findMember groupId identity).isSome

def upsertMember (groupId : String) (row : GroupRosterMember) : GroupRosterStore :=
  { store with
    rosters := store.rosters.insert groupId
      ((store.roster groupId).insert row.memberIdentity row)
    keyed_rosters :=
      forall_rowsOf_insert store.keyed_rosters ((store.keyed_rosters groupId).insert row) }

def removeMember (groupId identity : String) : GroupRosterStore :=
  match store.rosters[groupId]? with
  | none => store
  | some _ =>
    { store with
      rosters := store.rosters.insert groupId ((store.roster groupId).erase identity)
      keyed_rosters :=
        forall_rowsOf_insert store.keyed_rosters ((store.keyed_rosters groupId).erase identity) }

/-! ## Held changes -/

def heldRows (groupId : String) : StrMap StoredGroupChange := rowsOf store.changes groupId

def listGroupChanges (groupId : String) : List StoredGroupChange :=
  values (store.heldRows groupId)

def upsertGroupChange (row : StoredGroupChange) : GroupRosterStore :=
  { store with
    changes := store.changes.insert row.groupId
      ((store.heldRows row.groupId).insert row.changeId row)
    keyed_changes :=
      forall_rowsOf_insert store.keyed_changes ((store.keyed_changes row.groupId).insert rfl) }

def deleteGroupChanges (groupId : String) (changeIds : List String) : GroupRosterStore :=
  match store.changes[groupId]? with
  | none => store
  | some _ =>
    if (changeIds.foldl (·.erase ·) (store.heldRows groupId)).isEmpty then
      { store with
        changes := store.changes.erase groupId
        keyed_changes := forall_rowsOf_erase store.keyed_changes HeldUnder.empty }
    else
      { store with
        changes := store.changes.insert groupId
          (changeIds.foldl (·.erase ·) (store.heldRows groupId))
        keyed_changes := forall_rowsOf_insert store.keyed_changes
          ((store.keyed_changes groupId).eraseAll changeIds) }

def listGroupsWithChanges : List String :=
  (store.changes.toList.filter (!·.2.isEmpty)).map Prod.fst

/-! ## The end of a group -/

/-- `EndGroup`: no roster and no changes are left, and the metadata says so.
`none`: not a group held, or over already. -/
def endGroup (groupId : String) (ending : GroupEnding) : Option GroupRosterStore :=
  match store.loadMetadata groupId with
  | none => none
  | some m =>
    if m.syncState = .dissolved then none
    else
      let ended : GroupMetadata := { m with
        rosterEpoch := max m.rosterEpoch ending.rosterEpoch
        ownerIdentity := ending.ownerIdentity, syncState := .dissolved
        syncRequestId := "", syncRequestedAt := 0
        rosterStatementJson := ending.statementJson }
      some {
        metadata := store.metadata.insert ended.groupId ended
        rosters := store.rosters.erase groupId
        changes := store.changes.erase groupId
        keyed_metadata := store.keyed_metadata.insert ended
        keyed_rosters := forall_rowsOf_erase store.keyed_rosters (keyed_empty _)
        keyed_changes := forall_rowsOf_erase store.keyed_changes HeldUnder.empty }

end Operations

/-! ## What an operation changes -/

section Frame

variable (store : GroupRosterStore) (g : String)

theorem groupId_of_loadMetadata {store : GroupRosterStore} {g : String} {m : GroupMetadata}
    (h : store.loadMetadata g = some m) : m.groupId = g := store.keyed_metadata g m h

@[simp] theorem loadMetadata_upsertMetadata (m : GroupMetadata) : (store.upsertMetadata m).loadMetadata g =
      if g = m.groupId then some m else store.loadMetadata g := by
  rw [loadMetadata, upsertMetadata, Std.ExtTreeMap.getElem?_insert]
  by_cases h : g = m.groupId
  · simp [h]
  · simp [h, Ne.symm h, loadMetadata]

@[simp] theorem roster_upsertMetadata (m : GroupMetadata) : (store.upsertMetadata m).roster g = store.roster g := rfl

@[simp] theorem loadMetadata_upsertMember (group : String) (row : GroupRosterMember) :
    (store.upsertMember group row).loadMetadata g = store.loadMetadata g := rfl

@[simp] theorem roster_upsertMember (group : String) (row : GroupRosterMember) :
    (store.upsertMember group row).roster g = if g = group then (store.roster group).insert row.memberIdentity row
      else store.roster g := rowsOf_insert _ _ _ _

@[simp] theorem heldRows_upsertMember (group : String) (row : GroupRosterMember) :
    (store.upsertMember group row).heldRows g = store.heldRows g := rfl

@[simp] theorem loadMetadata_removeMember (group identity : String) :
    (store.removeMember group identity).loadMetadata g = store.loadMetadata g := by
  unfold removeMember
  cases store.rosters[group]? <;> rfl

@[simp] theorem roster_removeMember (group identity : String) : (store.removeMember group identity).roster g =
      if g = group then (store.roster group).erase identity else store.roster g := by
  unfold removeMember
  cases h : store.rosters[group]? with
  | none =>
    have hempty : store.roster group = ∅ := by rw [roster, rowsOf, h]; rfl
    by_cases hg : g = group
    · simp [hg, hempty]
    · simp [hg]
  | some rows => exact rowsOf_insert _ _ _ _

@[simp] theorem heldRows_removeMember (group identity : String) :
    (store.removeMember group identity).heldRows g = store.heldRows g := by
  unfold removeMember
  cases store.rosters[group]? <;> rfl

@[simp] theorem isMember_upsertMetadata (m : GroupMetadata) (identity : String) :
    (store.upsertMetadata m).isMember g identity = store.isMember g identity := rfl

@[simp] theorem isMember_upsertMember (row : GroupRosterMember) (identity : String) :
    (store.upsertMember g row).isMember g identity =
      (decide (row.memberIdentity = identity) || store.isMember g identity) := by
  rw [isMember, findMember, roster_upsertMember, if_pos rfl, Std.ExtTreeMap.getElem?_insert]
  by_cases h : row.memberIdentity = identity
  · simp [h]
  · simp [h, isMember, findMember]

@[simp] theorem isMember_removeMember (gone identity : String) : (store.removeMember g gone).isMember g identity =
      (decide (gone ≠ identity) && store.isMember g identity) := by
  rw [isMember, findMember, roster_removeMember, if_pos rfl, Std.ExtTreeMap.getElem?_erase]
  by_cases h : gone = identity
  · simp [h]
  · simp [h, isMember, findMember]

@[simp] theorem loadMetadata_upsertGroupChange (row : StoredGroupChange) :
    (store.upsertGroupChange row).loadMetadata g = store.loadMetadata g := rfl

@[simp] theorem heldRows_upsertGroupChange (row : StoredGroupChange) : (store.upsertGroupChange row).heldRows g =
      if g = row.groupId then (store.heldRows row.groupId).insert row.changeId row
      else store.heldRows g := rowsOf_insert _ _ _ _

@[simp] theorem loadMetadata_deleteGroupChanges (group : String) (ids : List String) :
    (store.deleteGroupChanges group ids).loadMetadata g = store.loadMetadata g := by
  unfold deleteGroupChanges
  cases store.changes[group]? with
  | none => rfl
  | some rows => dsimp only; split <;> rfl

@[simp] theorem roster_deleteGroupChanges (group : String) (ids : List String) :
    (store.deleteGroupChanges group ids).roster g = store.roster g := by
  unfold deleteGroupChanges
  cases store.changes[group]? with
  | none => rfl
  | some rows => dsimp only; split <;> rfl

theorem eraseAll_empty (ids : List String) : ids.foldl (·.erase ·) (∅ : StrMap StoredGroupChange) = ∅ := by
  apply Std.ExtTreeMap.ext_getElem?
  intro k
  rw [getElem?_eraseAll]
  simp

theorem heldRows_eq_empty {store : GroupRosterStore} {group : String}
    (h : store.changes[group]? = none) : store.heldRows group = ∅ := by
  rw [heldRows, rowsOf, h]
  rfl

@[simp] theorem heldRows_deleteGroupChanges (group : String) (ids : List String) :
    (store.deleteGroupChanges group ids).heldRows g =
      if g = group then ids.foldl (·.erase ·) (store.heldRows group) else store.heldRows g := by
  unfold deleteGroupChanges
  cases hrows : store.changes[group]? with
  | none =>
    have hempty := heldRows_eq_empty hrows
    dsimp only
    rw [hempty, eraseAll_empty]
    by_cases hg : g = group
    · rw [if_pos hg, hg, hempty]
    · rw [if_neg hg]
  | some rows =>
    by_cases hall : (ids.foldl (·.erase ·) (store.heldRows group)).isEmpty = true
    · dsimp only
      rw [if_pos hall]
      show rowsOf (store.changes.erase group) g = _
      rw [rowsOf_erase, Std.ExtTreeMap.isEmpty_iff.mp hall]
      rfl
    · dsimp only
      rw [if_neg hall]
      exact rowsOf_insert _ _ _ _

/-- Deleting what is not held changes nothing, where no group is held
without rows. -/
theorem deleteGroupChanges_of_notHeld {store : GroupRosterStore} {group : String}
    {ids : List String} (h : store.changes[group]? ≠ some ∅)
    (hids : ∀ id ∈ ids, (store.heldRows group)[id]? = none) : store.deleteGroupChanges group ids = store := by
  unfold deleteGroupChanges
  cases hrows : store.changes[group]? with
  | none => rfl
  | some rows =>
    have hheld : store.heldRows group = rows := by rw [heldRows, rowsOf, hrows]; rfl
    have herase : ids.foldl (·.erase ·) (store.heldRows group) = rows := by
      rw [hheld]
      rw [hheld] at hids
      apply Std.ExtTreeMap.ext_getElem?
      intro k
      rw [getElem?_eraseAll]
      by_cases hk : k ∈ ids
      · rw [if_pos hk, hids k hk]
      · rw [if_neg hk]
    have hne : ¬ rows.isEmpty = true := by
      rw [Std.ExtTreeMap.isEmpty_iff]
      rintro rfl
      exact h hrows
    simp only [herase, if_neg hne]
    refine ext_maps rfl rfl (Std.ExtTreeMap.ext_getElem? fun k => ?_)
    show (store.changes.insert group rows)[k]? = store.changes[k]?
    rw [Std.ExtTreeMap.getElem?_insert]
    by_cases hk : group = k
    · simp [← hk, hrows]
    · simp [hk]

/-! No group is left held without rows. -/

theorem changes_deleteGroupChanges (group : String) (ids : List String) :
    (store.deleteGroupChanges group ids).changes[group]? ≠ some ∅ := by
  unfold deleteGroupChanges
  cases hrows : store.changes[group]? with
  | none =>
    dsimp only
    rw [hrows]
    simp
  | some rows =>
    dsimp only
    split
    · show (store.changes.erase group)[group]? ≠ _
      simp
    · next hne =>
        show (store.changes.insert group _)[group]? ≠ _
        rw [Std.ExtTreeMap.getElem?_insert_self, ne_eq, Option.some.injEq,
          ← Std.ExtTreeMap.isEmpty_iff]
        exact hne

theorem changes_upsertGroupChange {store : GroupRosterStore} {g : String}
    (h : store.changes[g]? ≠ some ∅) (row : StoredGroupChange) :
    (store.upsertGroupChange row).changes[g]? ≠ some ∅ := by
  show (store.changes.insert row.groupId _)[g]? ≠ _
  rw [Std.ExtTreeMap.getElem?_insert]
  by_cases hg : row.groupId = g
  · rw [if_pos (by simpa using hg), ne_eq, Option.some.injEq]
    exact Std.ExtTreeMap.insert_ne_empty
  · rwa [if_neg (by simpa using hg)]

theorem changes_removeMember (group identity : String) :
    (store.removeMember group identity).changes = store.changes := by
  unfold removeMember
  cases store.rosters[group]? <;> rfl

end Frame

end GroupRosterStore

/-! ## The owner's events -/

/-! ## Payloads -/

structure MemberJoinedEntry where
  memberIdentity : String
  role : MemberRole := .member

structure MemberJoinedPayload where
  groupId : String
  memberIdentity : String
  role : MemberRole := .member
  rosterEpoch : Nat := 0
  /-- The whole roster, for a late joiner. -/
  members : List MemberJoinedEntry := []

structure OwnerTransferredPayload where
  groupId : String
  newOwnerIdentity : String
  rosterEpoch : Nat := 0
  leavePrevious : Bool := false

structure MemberRemovedPayload where
  groupId : String
  memberIdentity : String
  rosterEpoch : Nat := 0

structure GroupRenamedPayload where
  groupId : String
  title : String
  titleVersion : Nat := 0
  rosterEpoch : Nat := 0

/-! ## Row events -/

def requireNewerEpoch (metadata : GroupMetadata) (inboundEpoch : Nat) : Roe Unit :=
  if inboundEpoch ≤ metadata.rosterEpoch then .error "Stale roster_epoch" else .ok ()

def loadMetadataRequired (store : GroupRosterStore) (groupId : String) : Roe GroupMetadata :=
  match store.loadMetadata groupId with
  | none => .error "Group metadata not found"
  | some m => .ok m

/-- The owner's own add: the member in, at the roster's next epoch. -/
def addAsOwner (store : GroupRosterStore) (metadata : GroupMetadata)
    (memberIdentity localIdentity : String) (nowMs : Int) : GroupRosterStore :=
  (store.upsertMember metadata.groupId
      { memberIdentity, joinedAt := nowMs, addedBy := localIdentity }).upsertMetadata
    { metadata with rosterEpoch := u64 (metadata.rosterEpoch + 1) }

/-- A row of a `member_joined`; one without an account is passed over. -/
def upsertJoined (groupId : String) (nowMs : Int) (store : GroupRosterStore)
    (entry : MemberJoinedEntry) : GroupRosterStore :=
  if entry.memberIdentity = "" then store
  else store.upsertMember groupId
    { memberIdentity := entry.memberIdentity, role := entry.role, joinedAt := nowMs }

def applyMemberJoined (store : GroupRosterStore) (payload : MemberJoinedPayload)
    (actorIdentity : String) (nowMs : Int) : Roe GroupRosterStore := do
  let metadata ← loadMetadataRequired store payload.groupId
  if metadata.ownerIdentity ≠ actorIdentity then
    throw "member_joined rejected: actor is not the group owner"
  requireNewerEpoch metadata payload.rosterEpoch
  if payload.memberIdentity = "" then throw "member_joined missing member_identity"
  let first : MemberJoinedEntry := { memberIdentity := payload.memberIdentity, role := payload.role }
  let others := payload.members.filter (·.memberIdentity ≠ payload.memberIdentity)
  let store := (first :: others).foldl (upsertJoined payload.groupId nowMs) store
  pure (store.upsertMetadata { metadata with rosterEpoch := payload.rosterEpoch })

def applyOwnerTransferred (store : GroupRosterStore) (payload : OwnerTransferredPayload)
    (actorIdentity : String) (nowMs : Int) : Roe GroupRosterStore := do
  let metadata ← loadMetadataRequired store payload.groupId
  if metadata.ownerIdentity ≠ actorIdentity then
    throw "Transfer rejected: actor is not the group owner"
  requireNewerEpoch metadata payload.rosterEpoch
  if payload.newOwnerIdentity = "" ∨ payload.newOwnerIdentity = actorIdentity then
    throw "Invalid new owner"
  if !store.isMember payload.groupId payload.newOwnerIdentity then
    throw "New owner is not a roster member"
  let store := store.upsertMetadata { metadata with
    ownerIdentity := payload.newOwnerIdentity, rosterEpoch := payload.rosterEpoch }
  let store := store.upsertMember payload.groupId
    { memberIdentity := payload.newOwnerIdentity, role := .owner, joinedAt := nowMs }
  pure (if payload.leavePrevious then store.removeMember payload.groupId actorIdentity
    else store.upsertMember payload.groupId { memberIdentity := actorIdentity, joinedAt := nowMs })

def applyMemberRemoved (store : GroupRosterStore) (payload : MemberRemovedPayload)
    (actorIdentity : String) : Roe GroupRosterStore := do
  let metadata ← loadMetadataRequired store payload.groupId
  if metadata.ownerIdentity ≠ actorIdentity then
    throw "Remove rejected: actor is not the group owner"
  if payload.memberIdentity = actorIdentity then throw "Owner cannot remove self"
  requireNewerEpoch metadata payload.rosterEpoch
  pure ((store.removeMember payload.groupId payload.memberIdentity).upsertMetadata
    { metadata with rosterEpoch := payload.rosterEpoch })

/-- Whether the rename was newer, and the store after it. -/
def applyGroupRenamed (store : GroupRosterStore) (payload : GroupRenamedPayload)
    (actorIdentity : String) : Roe (Bool × GroupRosterStore) := do
  let metadata ← loadMetadataRequired store payload.groupId
  if actorIdentity = "" ∨ metadata.ownerIdentity ≠ actorIdentity then
    throw "Rename rejected: actor is not the group owner"
  if payload.titleVersion ≤ metadata.titleVersion then pure (false, store)
  else pure (true, store.upsertMetadata { metadata with
    title := payload.title, titleVersion := payload.titleVersion
    rosterEpoch := max metadata.rosterEpoch payload.rosterEpoch })

/-! ## The end of a group -/

/-- Whether the dissolve ended the group, and the store after it. `actor`,
the sender of the event, must be the owner the statement names when given. -/
def applyDissolved (K : GroupCrypto) (store : GroupRosterStore)
    (statement : GroupRosterStatement) (localIdentity : String) (actor : Option String) :
    Roe (Bool × GroupRosterStore) :=
  match store.loadMetadata statement.groupId with
  | none => .ok (false, store)
  | some metadata =>
    if metadata.syncState = .dissolved ∨ localIdentity = "" ∨
        !store.isMember statement.groupId localIdentity then .ok (false, store)
    else if !statement.dissolved then
      .error "Dissolve rejected: the statement does not say the group ended"
    else if actor.any fun actor => actor = "" ∨ statement.ownerIdentity ≠ actor then
      .error "Dissolve rejected: actor is not the owner who signed it"
    else
      match statement.verify K metadata.ownerIdentity with
      | .error e => .error ("Dissolve rejected: " ++ e)
      | .ok () =>
        let known := statement.ownerChain ++ (metadata.held.map (·.ownerChain)).getD []
        if statement.rosterEpoch < metadata.rosterEpoch then
          .error "Dissolve rejected: older than the roster we hold"
        else if GroupRosterStatement.ownerHandedOn known statement then
          .error "Dissolve rejected: its owner had already handed the group on"
        else
          match store.endGroup statement.groupId
              { ownerIdentity := statement.ownerIdentity, rosterEpoch := statement.rosterEpoch
                statementJson := some statement.toJson } with
          | none => .ok (false, store)
          | some ended => .ok (true, ended)

end Pbr
