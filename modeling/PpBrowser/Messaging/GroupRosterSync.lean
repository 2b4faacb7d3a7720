import PpBrowser.Messaging.GroupRosterRules
import PpBrowser.Messaging.GroupRosterStore

/-!
# GroupRosterSync — the roster a device keeps

`GroupRosterSync.cpp`: the statement a group holds and which one replaces
it (`keepStatement`), the changes it holds (`holdChange`), and the one
apply path from both to the rows (`applyView`), over the store.

A function that writes gives the store after it. The store does not fail,
so an error of a function comes before its first write.
-/

namespace Pbr

open Lib

/-- At most this many unfolded changes per group. -/
def kMaxHeldChanges : Nat := 512

/-- The candidate wins over the statement held. -/
def candidateWins (held : Option GroupRosterStatement) (candidate : GroupRosterStatement) : Bool :=
  match held with
  | none => true
  | some held =>
    (GroupRosterStatement.pick [held, candidate]).any fun picked =>
      picked.ownerSignatureB64 = candidate.ownerSignatureB64 ∧
        picked.rosterEpoch = candidate.rosterEpoch

def heldChanges (store : GroupRosterStore) (groupId : String) : List GroupChange :=
  (store.listGroupChanges groupId).filterMap parseChange

/-! ## The one apply path -/

/-- What `applyView` did. -/
structure GroupViewApplied where
  /-- The roster as it stands now; none when it was left alone. -/
  view : Option GroupRosterView := none
  /-- Changes that count now and had no line in the chat yet. -/
  newlyApplied : List GroupChange := []
  gone : List String := []
  joined : List String := []
  newTitle : Option String := none

/-- The row of a member, with the contact id we had. -/
def memberRowOf (had : Option GroupRosterMember) (m : GroupRosterViewMember) : GroupRosterMember :=
  { memberIdentity := m.identity, contactId := (had.map (·.contactId)).getD "", role := m.role
    joinedAt := m.joinedAt, addedBy := m.addedBy }

/-- The row we had says the same. -/
def unchangedRow (had : Option GroupRosterMember) (m : GroupRosterViewMember) : Bool :=
  had.any fun r => r.role = m.role ∧ r.joinedAt = m.joinedAt ∧ r.addedBy = m.addedBy

def writeRow (groupId : String) (current : StrMap GroupRosterMember) (store : GroupRosterStore)
    (m : GroupRosterViewMember) : GroupRosterStore :=
  let had := current[m.identity]?
  if unchangedRow had m then store else store.upsertMember groupId (memberRowOf had m)

/-- The rows become the view's members; the contact ids we had stay. -/
def writeRows (store : GroupRosterStore) (groupId : String) (view : GroupRosterView)
    (applied : GroupViewApplied) : GroupViewApplied × GroupRosterStore :=
  let current := store.roster groupId
  let gone := (values current).filterMap fun r =>
    if view.lists r.memberIdentity then none else some r.memberIdentity
  let joined := view.members.filterMap fun m =>
    if current.contains m.identity then none else some m.identity
  let store := gone.foldl (·.removeMember groupId ·) store
  ({ applied with gone := applied.gone ++ gone, joined := applied.joined ++ joined },
    view.members.foldl (writeRow groupId current) store)

/-- The ids `SettleHeld` drops. -/
def droppedIds (unreadable : List String) (view : GroupRosterView) : List String :=
  unreadable ++ (view.verdicts.filter (·.status = .dropped)).map (·.id)

/-- A change that counts now and has no line yet gets one. -/
def settleStep (view : GroupRosterView) (acc : List GroupChange × GroupRosterStore)
    (row : StoredGroupChange) : List GroupChange × GroupRosterStore :=
  let applied := (view.verdict row.changeId).any (·.status = .applied)
  if row.lineShown ∨ !applied then acc
  else
    match parseChange row with
    | none => acc
    | some change => (acc.1 ++ [change], acc.2.upsertGroupChange { row with lineShown := true })

/-- Drop what the view drops; mark (and return) the changes that count now
and have no line yet. -/
def settleHeld (store : GroupRosterStore) (groupId : String) (stored : List StoredGroupChange)
    (unreadable : List String) (view : GroupRosterView) : List GroupChange × GroupRosterStore :=
  stored.foldl (settleStep view)
    ([], store.deleteGroupChanges groupId (droppedIds unreadable view))

/-- The metadata follows the statement, and the title a newer title. -/
def updateMetadata (held : GroupRosterStatement) (view : GroupRosterView) (now : GroupMetadata) :
    GroupMetadata :=
  let updated : GroupMetadata := { now with
    ownerIdentity := held.ownerIdentity, rosterEpoch := held.rosterEpoch
    policy := { preset := held.preset } }
  if view.title ≠ "" ∧ view.titleVersion > now.titleVersion then
    { updated with title := view.title, titleVersion := view.titleVersion }
  else updated

/-- What an unchanged roster leaves alone (each write republishes the
account locker). -/
def sameMetadata (updated now : GroupMetadata) : Bool :=
  updated.ownerIdentity = now.ownerIdentity ∧ updated.rosterEpoch = now.rosterEpoch ∧
    updated.policy.preset = now.policy.preset ∧ updated.title = now.title ∧
    updated.titleVersion = now.titleVersion

/-- G018, the one apply path: the roster becomes the latest statement plus
the changes held. With no statement held, or one older than the roster's
epoch, it is left as it is; an ended group keeps no changes. -/
def applyView (K : GroupCrypto) (store : GroupRosterStore) (groupId : String)
    (cards : GroupCardLookup) (nowMs : Int) : Roe (GroupViewApplied × GroupRosterStore) := do
  let metadata ← store.metadataOf groupId
  let stored := store.listGroupChanges groupId
  if metadata.syncState = .dissolved then
    return ({}, store.deleteGroupChanges groupId (stored.map (·.changeId)))
  match metadata.held with
  | none => return ({}, store)
  | some held =>
    if held.rosterEpoch < metadata.rosterEpoch then return ({}, store)
    let changes := stored.filterMap parseChange
    let unreadable := (stored.filter (parseChange · |>.isNone)).map (·.changeId)
    let view := computeRosterChecked held (checkChanges K changes cards nowMs) nowMs
    let (newlyApplied, store) := settleHeld store groupId stored unreadable view
    let (applied, store) := writeRows store groupId view { newlyApplied }
    let now ← store.metadataOf groupId
    let updated := updateMetadata held view now
    let newTitle := if updated.title ≠ now.title then some updated.title else none
    let store := if sameMetadata updated now then store else store.upsertMetadata updated
    return ({ applied with newTitle, view := some view }, store)

/-- The roster as this device holds it now; none without a statement. -/
def currentView (K : GroupCrypto) (store : GroupRosterStore) (groupId : String)
    (cards : GroupCardLookup) (nowMs : Int) : Option GroupRosterView := do
  let metadata ← store.loadMetadata groupId
  let held ← metadata.held
  pure (computeRosterChecked held (checkChanges K (heldChanges store groupId) cards nowMs) nowMs)

/-! ## Holding changes -/

/-- How a change was taken. -/
inductive ChangeHeld where
  | proved | noCard | refused
  deriving DecidableEq, Repr

/-- How a proof lets a change be held. -/
def changeHeldOf : GroupChangeProof → ChangeHeld
  | .proved => .proved
  | .noCard => .noCard
  | .malformed | .badSignature => .refused

/-- Keep `change` for its group. A copy already held under its id is
replaced only by one that carries the signer's card. -/
def holdChange (K : GroupCrypto) (store : GroupRosterStore) (change : GroupChange)
    (cards : GroupCardLookup) (nowMs : Int) (lineShown : Bool) : ChangeHeld × GroupRosterStore :=
  let groupId := change.groupId
  match store.loadMetadata groupId, (checkChanges K [change] cards nowMs).head? with
  | some metadata, some checked =>
    let proof := changeHeldOf checked.proof
    let had := (store.heldRows groupId)[checked.id]?
    if metadata.syncState = .dissolved ∨ proof = .refused then (.refused, store)
    else if had.isNone ∧ (store.listGroupChanges groupId).length ≥ kMaxHeldChanges then
      (.refused, store)
    else
      let carried := (had.bind parseChange).any (·.signerCard.isSome)
      match had with
      | some row =>
        if carried ∧ change.signerCard.isNone then
          -- the copy we hold proves at least as much
          if lineShown ∧ !row.lineShown then
            (proof, store.upsertGroupChange { row with lineShown := true })
          else (proof, store)
        else (proof, store.upsertGroupChange
          { groupId, changeId := checked.id, changeJson := some change.toJson
            receivedAt := nowMs, lineShown := lineShown || row.lineShown })
      | none => (proof, store.upsertGroupChange
          { groupId, changeId := checked.id, changeJson := some change.toJson
            receivedAt := nowMs, lineShown })
  | _, _ => (.refused, store)

/-- The first card the changes carry for each signer. -/
def carriedCards (changes : List GroupChange) : StrMap AccountCard :=
  changes.foldl (fun carried c =>
    match c.signerCard with
    | none => carried
    | some card => carried.insertIfNew c.signer card) ∅

/-- The change with its signer's carried card, when it has none. -/
def withCarried (carried : StrMap AccountCard) (c : GroupChange) : GroupChange :=
  { c with signerCard := c.signerCard.or carried[c.signer]? }

/-- Changes that ride one message, each signer's card at most once. -/
def holdCarried (K : GroupCrypto) (store : GroupRosterStore) (changes : List GroupChange)
    (cards : GroupCardLookup) (nowMs : Int) (lineShown : Bool) : GroupRosterStore :=
  (changes.map (withCarried (carriedCards changes))).foldl
    (fun store c => (holdChange K store c cards nowMs lineShown).2) store

/-- A change received: held, then the view applied when it was kept. -/
def receiveChange (K : GroupCrypto) (store : GroupRosterStore) (change : GroupChange)
    (cards : GroupCardLookup) (nowMs : Int) :
    Roe ((ChangeHeld × GroupViewApplied) × GroupRosterStore) := do
  let (held, store) := holdChange K store change cards nowMs false
  if held = .refused then return ((held, {}), store)
  let (applied, store) ← applyView K store change.groupId cards nowMs
  return ((held, applied), store)

/-! ## Keeping statements -/

/-- Keep `statement` as the group's latest when it is valid for the owner
we know and wins over the one held. -/
def keepStatement (K : GroupCrypto) (store : GroupRosterStore)
    (statement : GroupRosterStatement) : Roe (Bool × GroupRosterStore) := do
  if statement.dissolved then throw "roster statement: a dissolve is not a roster"
  let metadata ← store.metadataOf statement.groupId
  if metadata.syncState = .dissolved then return (false, store)
  statement.verify K metadata.ownerIdentity
  if !candidateWins metadata.held statement then return (false, store)
  return (true, store.upsertMetadata { metadata with
    rosterStatementJson := some statement.toJson
    policy := { preset := statement.preset } })

/-- A statement from the owner: kept when it wins, then the roster
recomputed over it. -/
def keepAndCatchUp (K : GroupCrypto) (store : GroupRosterStore)
    (statement : GroupRosterStatement) (cards : GroupCardLookup) (nowMs : Int) :
    Roe (Bool × GroupViewApplied × GroupRosterStore) := do
  let (kept, store) ← keepStatement K store statement
  if !kept then return (false, {}, store)
  let (applied, store) ← applyView K store statement.groupId cards nowMs
  return (true, applied, store)

/-- What a newcomer is handed proves a roster with it in: checked before any
of it is kept. -/
def checkJoin (K : GroupCrypto) (store : GroupRosterStore) (statement : GroupRosterStatement)
    (changes : List GroupChange) (cards : GroupCardLookup) (nowMs : Int) (identity : String) :
    Roe Unit := do
  let metadata ← store.metadataOf statement.groupId
  if statement.dissolved then throw "the group was dissolved"
  statement.verify K metadata.ownerIdentity
  let all := heldChanges store statement.groupId ++
    changes.map (withCarried (carriedCards changes))
  let view := computeRosterChecked statement (checkChanges K all cards nowMs) nowMs
  if !view.lists identity then throw "the roster it proves does not have us"

/-! ## Member checks -/

/-- A member's answer to a check. -/
structure RosterReply where
  groupId : String
  requestId : String := ""
  statement : Option GroupRosterStatement := none
  /-- The replier knows the asker is no longer a member. -/
  removed : Bool := false
  changes : List GroupChange := []

inductive ReplyOutcome where
  | ignored | active | removed | dissolved
  deriving DecidableEq, Repr

/-- The reply's statement kept, its changes held, the roster recomputed;
whether it lists us. -/
def takeReply (K : GroupCrypto) (store : GroupRosterStore) (reply : RosterReply)
    (statement : GroupRosterStatement) (localIdentity : String) (cards : GroupCardLookup)
    (nowMs : Int) : Roe (Bool × GroupRosterStore) := do
  let (_, store) ← keepStatement K store statement
  let store := holdCarried K store reply.changes cards nowMs false
  let (applied, store) ← applyView K store reply.groupId cards nowMs
  match applied.view with
  | some view => return (view.lists localIdentity, store)
  | none =>
    let held := (store.loadMetadata reply.groupId).bind (·.held)
    return ((held.map (·.lists localIdentity)).getD true, store)

/-- The check's outcome in the metadata. -/
def settleReply (store : GroupRosterStore) (groupId : String) (state : GroupSyncState) :
    Roe (ReplyOutcome × GroupRosterStore) := do
  let now ← store.metadataOf groupId
  return (if state = .removed then .removed else .active,
    store.upsertMetadata { now with syncState := state })

/-- Apply a reply to our check: only one for our latest request, and a
statement must verify for the owner we know. -/
def applyReply (K : GroupCrypto) (store : GroupRosterStore) (reply : RosterReply)
    (localIdentity replier : String) (cards : GroupCardLookup) (nowMs : Int) :
    Roe (ReplyOutcome × GroupRosterStore) := do
  let metadata ← store.metadataOf reply.groupId
  if metadata.syncState = .dissolved ∨ metadata.syncRequestId = "" ∨
      reply.requestId ≠ metadata.syncRequestId then return (.ignored, store)
  match reply.statement with
  | none =>
    -- Without a statement only the owner can tell us we are out.
    if reply.removed ∧ replier = metadata.ownerIdentity then
      settleReply store reply.groupId .removed
    else return (.ignored, store)
  | some statement =>
    if statement.dissolved then
      match applyDissolved K store statement localIdentity none with
      | .ok (true, ended) => return (.dissolved, ended)
      | _ => return (.ignored, store)
    else if !(statement.verify K metadata.ownerIdentity).isOk then return (.ignored, store)
    else do
      let (listed, store) ← takeReply K store reply statement localIdentity cards nowMs
      settleReply store reply.groupId (if listed then .active else .removed)

end Pbr
