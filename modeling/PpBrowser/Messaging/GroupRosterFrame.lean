import PpBrowser.Messaging.GroupRosterApply

/-!
# GroupRosterFrame — keeping members in step

`GroupRosterSync.cpp`, G013 and G018 item 5: the checks and catch-ups a
device begins, and what a member answers with: its statement and the
changes it holds, in id order, cut into replies.

JSON text is written by `jsonSize`, which counts the bytes of an object's
text.
-/

namespace Pbr

open Lib Lib.Json

/-- At most this many changes ride one member check reply. -/
def kMaxReplyChanges : Nat := 64

/-- And at most this many bytes of them. -/
def kReplyChangesBudgetBytes : Nat := 96 * 1024

def kChangesHashTag : String := "pp-browser:group-changes-v1"

/-- The hash of a set of change ids. -/
def changesHash (K : GroupCrypto) (ids : List String) : String :=
  K.bytesToHex (K.blake2b256 (putString kChangesHashTag ++ putIds (sortIds ids).dedup))

/-- What group copies say of a roster. -/
structure GroupCopyState where
  statementEpoch : Nat := 0
  changesHash : String := ""

def copyState (K : GroupCrypto) (store : GroupRosterStore) (groupId : String) : GroupCopyState :=
  { statementEpoch :=
      (((store.loadMetadata groupId).bind (·.held)).map (·.rosterEpoch)).getD 0
    changesHash := changesHash K ((store.listGroupChanges groupId).map (·.changeId)) }

/-- A member's question. -/
structure RosterRequest where
  groupId : String
  requestId : String := ""
  rosterEpoch : Nat := 0
  statementEpoch : Nat := 0
  changesHash : String := ""
  /-- The changes after this id; empty: from the first. -/
  after : String := ""

/-! ## Asking -/

/-- A check (G013), under a fresh `requestId`, and whom to ask; an ended
group asks no one. -/
def beginCheck (K : GroupCrypto) (store : GroupRosterStore)
    (groupId localIdentity requestId : String) (nowMs : Int) :
    Roe ((RosterRequest × List String) × GroupRosterStore) := do
  let metadata ← store.metadataOf groupId
  let state := copyState K store groupId
  let request : RosterRequest :=
    { groupId, requestId, rosterEpoch := metadata.rosterEpoch
      statementEpoch := state.statementEpoch, changesHash := state.changesHash }
  let members := (store.listMembers groupId).map (·.memberIdentity)
  let asked := if metadata.ownerIdentity = "" then members else metadata.ownerIdentity :: members
  let ask := (asked.foldl (fun ask m => ask.insert m) (∅ : StrSet)).erase localIdentity
  if metadata.syncState = .dissolved then return ((request, []), store)
  return ((request, ask.toList), store.upsertMetadata { metadata with
    syncState := if metadata.syncState = .removed then .removed else .checking
    syncRequestId := requestId, syncRequestedAt := nowMs })

/-- A catch-up check: the group stays active. -/
def beginCatchUp (K : GroupCrypto) (store : GroupRosterStore)
    (groupId requestId after : String) (nowMs : Int) :
    Roe (Option RosterRequest × GroupRosterStore) := do
  let metadata ← store.metadataOf groupId
  if metadata.syncState ≠ .active then return (none, store)
  let state := copyState K store groupId
  return (some {
      groupId, requestId, rosterEpoch := metadata.rosterEpoch
      statementEpoch := state.statementEpoch, changesHash := state.changesHash, after },
    store.upsertMetadata { metadata with syncRequestId := requestId, syncRequestedAt := nowMs })

/-! ## Answering -/

/-- Changes that ride a message, and whether some were left. -/
structure CarriedChanges where
  changes : List GroupChange := []
  more : Bool := false

/-- The change as it rides, and the signers whose card rides with it: each
signer's card once. -/
def cardOnce (carded : StrSet) (change : GroupChange) : GroupChange × StrSet :=
  if change.signerCard.isNone then (change, carded)
  else if change.signer ∈ carded then ({ change with signerCard := none }, carded)
  else (change, carded.insert change.signer)

/-- A reply holds `count` changes of `bytes` bytes: no room for `size` more. -/
def noRoom (count bytes size : Nat) : Bool :=
  count ≥ kMaxReplyChanges ∨ (count ≠ 0 ∧ bytes + size > kReplyChangesBudgetBytes)

/-- Fill a reply that holds `count` changes of `bytes` bytes. -/
def fillReply (jsonSize : Object → Nat) (carded : StrSet) (count bytes : Nat) :
    List StoredGroupChange → CarriedChanges
  | [] => {}
  | row :: rows =>
    match parseChange row with
    | none => fillReply jsonSize carded count bytes rows
    | some change =>
      let riding := cardOnce carded change
      let size := jsonSize riding.1.toJson
      if noRoom count bytes size then { more := true }
      else
        let rest := fillReply jsonSize riding.2 (count + 1) (bytes + size) rows
        { rest with changes := riding.1 :: rest.changes }

/-- `std::sort` of held rows by id. -/
def sortRows (rows : List StoredGroupChange) : List StoredGroupChange :=
  rows.insertionSort fun a b => a.changeId ≤ b.changeId

/-- The changes the asker lacks: those after its `after`, unless it holds
what we hold. -/
def addChangesTo (K : GroupCrypto) (jsonSize : Object → Nat) (store : GroupRosterStore)
    (request : RosterRequest) : CarriedChanges :=
  if (copyState K store request.groupId).changesHash = request.changesHash then {}
  else fillReply jsonSize ∅ 0 0 ((sortRows (store.listGroupChanges request.groupId)).filter
    fun row => request.after = "" ∨ request.after < row.changeId)

/-- What an add's newcomer is handed: that add first, the rest in id order. -/
def changesForNewcomer (jsonSize : Object → Nat) (store : GroupRosterStore)
    (groupId first : String) : CarriedChanges :=
  let rows := sortRows (store.listGroupChanges groupId)
  fillReply jsonSize ∅ 0 0
    (rows.filter (·.changeId = first) ++ rows.filter (·.changeId ≠ first))

/-- A member's reply to `asker`, and whether it leaves changes out; none for
a group it does not hold. -/
def answerRequest (K : GroupCrypto) (jsonSize : Object → Nat) (store : GroupRosterStore)
    (request : RosterRequest) (asker : String) : Option (RosterReply × Bool) :=
  (store.loadMetadata request.groupId).map fun metadata =>
    if metadata.syncState = .active then
      let carried := addChangesTo K jsonSize store request
      ({ groupId := request.groupId, requestId := request.requestId, statement := metadata.held
         removed := !store.isMember request.groupId asker, changes := carried.changes },
        carried.more)
    else
      ({ groupId := request.groupId, requestId := request.requestId
         statement := metadata.held }, false)

/-! ## A call writes to its own group -/

open Lib GroupRosterStore

/-- Stores reached from `store` by writes to group `g`. -/
inductive Writes (g : String) (store : GroupRosterStore) : GroupRosterStore → Prop where
  | refl : Writes g store store
  | metadata {after} (m : GroupMetadata) :
      Writes g store after → m.groupId = g → Writes g store (after.upsertMetadata m)
  | member {after} (row : GroupRosterMember) :
      Writes g store after → Writes g store (after.upsertMember g row)
  | gone {after} (identity : String) :
      Writes g store after → Writes g store (after.removeMember g identity)
  | change {after} (row : StoredGroupChange) :
      Writes g store after → row.groupId = g → Writes g store (after.upsertGroupChange row)
  | dropped {after} (ids : List String) :
      Writes g store after → Writes g store (after.deleteGroupChanges g ids)
  | ended {after ended} (ending : GroupEnding) :
      Writes g store after → after.endGroup g ending = some ended → Writes g store ended

namespace Writes

variable {g : String} {a b c store after : GroupRosterStore}

theorem trans (hab : Writes g a b) (hbc : Writes g b c) : Writes g a c := by
  induction hbc with
  | refl => exact hab
  | metadata m _ hm ih => exact ih.metadata m hm
  | member row _ ih => exact ih.member row
  | gone identity _ ih => exact ih.gone identity
  | change row _ hrow ih => exact ih.change row hrow
  | dropped ids _ ih => exact ih.dropped ids
  | ended ending _ hended ih => exact ih.ended ending hended

def Same (h : String) (a b : GroupRosterStore) : Prop :=
  a.loadMetadata h = b.loadMetadata h ∧ a.roster h = b.roster h ∧ a.heldRows h = b.heldRows h

theorem other {h : String} (hw : Writes g store after) (hne : h ≠ g) : Same h after store := by
  induction hw with
  | refl => exact ⟨rfl, rfl, rfl⟩
  | metadata m _ hm ih =>
    obtain ⟨hmeta, hroster, hheld⟩ := ih
    refine ⟨?_, hroster, hheld⟩
    rw [loadMetadata_upsertMetadata, hm, if_neg hne, hmeta]
  | member row _ ih =>
    obtain ⟨hmeta, hroster, hheld⟩ := ih
    refine ⟨hmeta, ?_, hheld⟩
    rw [roster_upsertMember, if_neg hne, hroster]
  | gone identity _ ih =>
    obtain ⟨hmeta, hroster, hheld⟩ := ih
    refine ⟨?_, ?_, ?_⟩
    · rw [loadMetadata_removeMember, hmeta]
    · rw [roster_removeMember, if_neg hne, hroster]
    · rw [heldRows_removeMember, hheld]
  | change row _ hrow ih =>
    obtain ⟨hmeta, hroster, hheld⟩ := ih
    refine ⟨hmeta, hroster, ?_⟩
    rw [heldRows_upsertGroupChange, hrow, if_neg hne, hheld]
  | dropped ids _ ih =>
    obtain ⟨hmeta, hroster, hheld⟩ := ih
    refine ⟨?_, ?_, ?_⟩
    · rw [loadMetadata_deleteGroupChanges, hmeta]
    · rw [roster_deleteGroupChanges, hroster]
    · rw [heldRows_deleteGroupChanges, if_neg hne, hheld]
  | @ended before after ending _ hended ih =>
    obtain ⟨hmeta, hroster, hheld⟩ := ih
    unfold endGroup at hended
    cases hm : before.loadMetadata g with
    | none => simp [hm] at hended
    | some m =>
      have hgroup : m.groupId = g := groupId_of_loadMetadata hm
      rw [hm] at hended
      by_cases hd : m.syncState = .dissolved
      · simp [hd] at hended
      · simp only [if_neg hd, Option.some.injEq] at hended
        rw [← hended]
        refine ⟨?_, ?_, ?_⟩
        · rw [← hmeta, loadMetadata, Std.ExtTreeMap.getElem?_insert, hgroup]
          simp [Ne.symm hne, loadMetadata]
        · rw [← hroster]
          exact (rowsOf_erase _ _ _).trans (if_neg hne)
        · rw [← hheld]
          exact (rowsOf_erase _ _ _).trans (if_neg hne)

theorem foldl {α : Type} {f : GroupRosterStore → α → GroupRosterStore} {l : List α}
    (h : ∀ store, ∀ a ∈ l, Writes g store (f store a)) : Writes g store (l.foldl f store) := by
  induction l generalizing store with
  | nil => exact refl
  | cons a l ih =>
    exact (h store a List.mem_cons_self).trans
      (ih fun store a ha => h store a (List.mem_cons_of_mem _ ha))

end Writes

/-! ## The apply path -/

section Apply

variable {K : GroupCrypto} {store after : GroupRosterStore} {g : String}
  {cards : GroupCardLookup} {now : Int} {m : GroupMetadata}

theorem writes_settledBy (view : GroupRosterView) : Writes g store (settledBy store g view).2 := by
  rw [settledBy, settleHeld_eq]
  apply (Writes.refl.dropped _).trans
  apply Writes.foldl
  intro store row hrow
  obtain ⟨listed, hlisted, rfl⟩ := List.mem_map.mp hrow
  apply Writes.refl.change
  show listed.groupId = g
  exact groupId_of_listed (List.mem_of_mem_filter hlisted)

theorem writes_writeRows (view : GroupRosterView) (applied : GroupViewApplied) :
    Writes g store (writeRows store g view applied).2 := by
  unfold writeRows
  dsimp only
  rw [foldl_writeRow]
  exact (Writes.foldl fun _ i _ => Writes.refl.gone i).trans
    (Writes.foldl fun _ row _ => Writes.refl.member row)

theorem writes_appliedBy (held : GroupRosterStatement) (view : GroupRosterView) (hm : m.groupId = g) :
    Writes g store (appliedBy store g held view m).2 := by
  have hrows : Writes g store (writtenBy store g view).2 :=
    (writes_settledBy view).trans (writes_writeRows view _)
  unfold appliedBy
  dsimp only
  by_cases hsame : sameMetadata (updateMetadata held view m) m = true
  · rw [if_pos hsame]
    exact hrows
  · rw [if_neg hsame]
    exact hrows.metadata _ (by rw [updateMetadata_groupId, hm])

/-- Writes to a group, and none to one that is over: it loses changes at
most. -/
structure Follows (g : String) (store after : GroupRosterStore) : Prop where
  writes : Writes g store after
  stays : ∀ m, store.loadMetadata g = some m → m.syncState = .dissolved →
    ∃ ids, after = store ∨ after = store.deleteGroupChanges g ids

theorem Follows.refl : Follows g store store := ⟨.refl, fun _ _ _ => ⟨[], .inl rfl⟩⟩

theorem Follows.of_going (hm : store.loadMetadata g = some m)
    (hd : m.syncState ≠ .dissolved) (hw : Writes g store after) : Follows g store after := by
  refine ⟨hw, fun m' hm' hd' => ?_⟩
  rw [hm] at hm'
  cases hm'
  exact absurd hd' hd

theorem follows_applyView {result : GroupViewApplied × GroupRosterStore}
    (h : applyView K store g cards now = .ok result) : Follows g store result.2 := by
  obtain ⟨m, hm, ⟨hd, rfl⟩ | ⟨hd, -, rfl⟩ | ⟨held, hd, -, -, rfl⟩⟩ := applyView_cases h
  · exact ⟨Writes.refl.dropped _, fun _ _ _ => ⟨_, .inr rfl⟩⟩
  · exact .refl
  · exact .of_going hm hd (writes_appliedBy held _ (groupId_of_loadMetadata hm))

theorem follows_keepStatement {s : GroupRosterStatement} {kept : Bool}
    (h : keepStatement K store s = .ok (kept, after)) : Follows s.groupId store after := by
  obtain ⟨-, m, hm, ⟨-, rfl⟩ | ⟨-, hd, -, -, rfl⟩⟩ := keepStatement_cases h
  · exact .refl
  · have hgroup : m.groupId = s.groupId := groupId_of_loadMetadata hm
    exact .of_going hm hd (Writes.refl.metadata (m.keeping s) hgroup)

theorem holdChange_cases (change : GroupChange) (lineShown : Bool) :
    (holdChange K store change cards now lineShown).2 = store ∨
      ∃ m row, store.loadMetadata change.groupId = some m ∧ m.syncState ≠ .dissolved ∧ row.groupId = change.groupId ∧
        (holdChange K store change cards now lineShown).2 = store.upsertGroupChange row := by
  unfold holdChange
  dsimp only
  split
  case h_2 => exact .inl rfl
  case h_1 m checked hm hchecked =>
  by_cases hrefused : m.syncState = .dissolved ∨ changeHeldOf checked.proof = .refused
  · rw [if_pos hrefused]
    exact .inl rfl
  rw [if_neg hrefused]
  have hd : m.syncState ≠ .dissolved := fun hd => hrefused (.inl hd)
  split
  · exact .inl rfl
  split
  case h_2 => exact .inr ⟨m, _, hm, hd, rfl, rfl⟩
  case h_1 row hhad =>
  have hrow : row.groupId = change.groupId := (store.keyed_changes _ _ row hhad).1
  split
  · split
    · exact .inr ⟨m, { row with lineShown := true }, hm, hd, hrow, rfl⟩
    · exact .inl rfl
  · exact .inr ⟨m, _, hm, hd, rfl, rfl⟩

theorem follows_holdChange (change : GroupChange) (lineShown : Bool) :
    Follows change.groupId store (holdChange K store change cards now lineShown).2 := by
  obtain hsame | ⟨m, row, hm, hd, hrow, hafter⟩ := holdChange_cases (K := K) change lineShown
  · rw [hsame]
    exact .refl
  · rw [hafter]
    exact .of_going hm hd (Writes.refl.change row hrow)

theorem writes_settleReply {state : GroupSyncState} {outcome : ReplyOutcome}
    (h : settleReply store g state = .ok (outcome, after)) :
    ∃ m, store.loadMetadata g = some m ∧ after = store.upsertMetadata { m with syncState := state } := by
  unfold settleReply metadataOf at h
  cases hm : store.loadMetadata g with
  | none => simp [hm] at h
  | some m =>
    simp only [hm, bind, Except.bind, pure, Except.pure, Except.ok.injEq, Prod.mk.injEq] at h
    exact ⟨m, rfl, h.2.symm⟩

end Apply

/-! ## The owner's events -/

section Events

variable {K : GroupCrypto} {store after : GroupRosterStore} {actor : String} {now : Int}

/-- Past a check that did not stop the program. -/
theorem of_guard_ok {β : Type} {p : Prop} [Decidable p] {e : String} {f : PUnit → Roe β} {b : β}
    (h : (if p then (throw e : Roe PUnit) >>= f else f ⟨⟩) = .ok b) : ¬ p ∧ f ⟨⟩ = .ok b := by
  by_cases hp : p
  · rw [if_pos hp] at h
    cases h
  · rw [if_neg hp] at h
    exact ⟨hp, h⟩

theorem loadMetadata_of_required {g : String} {m : GroupMetadata}
    (h : loadMetadataRequired store g = .ok m) : store.loadMetadata g = some m := by
  unfold loadMetadataRequired at h
  cases hm : store.loadMetadata g with
  | none => simp [hm] at h
  | some m' => simpa [hm] using h

theorem writes_upsertJoined (g : String) (entry : MemberJoinedEntry) :
    Writes g store (upsertJoined g now store entry) := by
  unfold upsertJoined
  by_cases hempty : entry.memberIdentity = ""
  · rw [if_pos hempty]
    exact .refl
  · rw [if_neg hempty]
    exact Writes.refl.member _

theorem writes_applyMemberJoined {p : MemberJoinedPayload}
    (h : applyMemberJoined store p actor now = .ok after) : Writes p.groupId store after := by
  obtain ⟨m, hm, h⟩ := roe_bind_ok.mp h
  obtain ⟨-, h⟩ := of_guard_ok h
  obtain ⟨-, -, h⟩ := roe_bind_ok.mp h
  obtain ⟨-, h⟩ := of_guard_ok h
  cases h
  have hgroup : m.groupId = p.groupId := groupId_of_loadMetadata (loadMetadata_of_required hm)
  exact (Writes.foldl fun _ entry _ => writes_upsertJoined p.groupId entry).metadata _ hgroup

theorem writes_applyOwnerTransferred {p : OwnerTransferredPayload}
    (h : applyOwnerTransferred store p actor now = .ok after) : Writes p.groupId store after := by
  obtain ⟨m, hm, h⟩ := roe_bind_ok.mp h
  obtain ⟨-, h⟩ := of_guard_ok h
  obtain ⟨-, -, h⟩ := roe_bind_ok.mp h
  obtain ⟨-, h⟩ := of_guard_ok h
  obtain ⟨-, h⟩ := of_guard_ok h
  cases h
  have hgroup : m.groupId = p.groupId := groupId_of_loadMetadata (loadMetadata_of_required hm)
  split
  · apply Writes.gone
    apply Writes.member
    exact Writes.refl.metadata _ hgroup
  · apply Writes.member
    apply Writes.member
    exact Writes.refl.metadata _ hgroup

theorem writes_applyMemberRemoved {p : MemberRemovedPayload}
    (h : applyMemberRemoved store p actor = .ok after) : Writes p.groupId store after := by
  obtain ⟨m, hm, h⟩ := roe_bind_ok.mp h
  obtain ⟨-, h⟩ := of_guard_ok h
  obtain ⟨-, h⟩ := of_guard_ok h
  obtain ⟨-, -, h⟩ := roe_bind_ok.mp h
  cases h
  have hgroup : m.groupId = p.groupId := groupId_of_loadMetadata (loadMetadata_of_required hm)
  exact (Writes.refl.gone _).metadata _ hgroup

theorem writes_applyGroupRenamed {p : GroupRenamedPayload} {newer : Bool}
    (h : applyGroupRenamed store p actor = .ok (newer, after)) : Writes p.groupId store after := by
  obtain ⟨m, hm, h⟩ := roe_bind_ok.mp h
  obtain ⟨-, h⟩ := of_guard_ok h
  have hgroup : m.groupId = p.groupId := groupId_of_loadMetadata (loadMetadata_of_required hm)
  by_cases hold : p.titleVersion ≤ m.titleVersion
  · rw [if_pos hold] at h
    cases h
    exact .refl
  · rw [if_neg hold] at h
    cases h
    exact Writes.refl.metadata _ hgroup

theorem writes_addAsOwner (m : GroupMetadata) (member localIdentity : String) :
    Writes m.groupId store (addAsOwner store m member localIdentity now) :=
  (Writes.refl.member _).metadata _ rfl

/-- A dissolve ends a group that goes on, or does nothing. -/
theorem follows_applyDissolved {s : GroupRosterStatement} {localIdentity : String}
    {actor : Option String} {applied : Bool}
    (h : applyDissolved K store s localIdentity actor = .ok (applied, after)) : Follows s.groupId store after := by
  unfold applyDissolved at h
  cases hm : store.loadMetadata s.groupId with
  | none =>
    rw [hm] at h
    cases h
    exact .refl
  | some m =>
    rw [hm] at h
    dsimp only at h
    split at h
    · cases h
      exact .refl
    next hin =>
    have hd : m.syncState ≠ .dissolved := fun hd => hin (.inl hd)
    apply Follows.of_going hm hd
    split at h
    · cases h
    split at h
    · cases h
    split at h
    · cases h
    split at h
    · cases h
    split at h
    · cases h
    split at h
    · cases h
      exact .refl
    next hended =>
      cases h
      exact Writes.refl.ended _ hended

end Events

/-! ## Checks -/

section Checks

variable {K : GroupCrypto} {store after : GroupRosterStore} {g : String}

theorem metadataOf_eq_ok {m : GroupMetadata} : store.metadataOf g = .ok m ↔ store.loadMetadata g = some m := by
  unfold metadataOf
  cases store.loadMetadata g <;> simp

theorem follows_beginCheck {localIdentity requestId : String} {now : Int} {asked : RosterRequest × List String}
    (h : beginCheck K store g localIdentity requestId now = .ok (asked, after)) : Follows g store after := by
  obtain ⟨m, hm, h⟩ := roe_bind_ok.mp h
  rw [metadataOf_eq_ok] at hm
  dsimp only at h
  by_cases hd : m.syncState = .dissolved
  · rw [if_pos hd] at h
    cases h
    exact .refl
  · rw [if_neg hd] at h
    cases h
    exact .of_going hm hd (Writes.refl.metadata _ (groupId_of_loadMetadata (m := m) hm))

theorem follows_beginCatchUp {requestId from_ : String} {now : Int} {request : Option RosterRequest}
    (h : beginCatchUp K store g requestId from_ now = .ok (request, after)) : Follows g store after := by
  obtain ⟨m, hm, h⟩ := roe_bind_ok.mp h
  rw [metadataOf_eq_ok] at hm
  by_cases hactive : m.syncState = .active
  · rw [if_neg (by simp [hactive])] at h
    cases h
    exact .of_going hm (by simp [hactive])
      (Writes.refl.metadata _ (groupId_of_loadMetadata (m := m) hm))
  · rw [if_pos hactive] at h
    cases h
    exact .refl

end Checks

end Pbr
