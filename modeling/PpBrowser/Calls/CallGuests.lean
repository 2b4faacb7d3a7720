import PpBrowser.Calls.CallSessionQueries
import PpBrowser.Lib.Rows

/-!
# CallGuests — a group's call as one device holds it

The record a device keeps of one call (its session and its participant rows),
who may send what (`CallControlGate.cpp`, `SenderIsInCall`, `SenderMayJoin`),
what a group's roster lets an account do in its call (`CallGuests.cpp`), and
the handlers of `CallSessionWorkflow.cpp` that write the record. Reading and
writing it does not fail here; what the wire, the media and the screen get is
left out. A message of another call comes in only as far as it makes this one
give way.
-/

namespace Pbr

open Lib

inductive CallSessionState where
  | ringing | active | ended
  deriving DecidableEq, Repr

/-! ## Standing in the group -/

/-- Where an account stands in a call's group. -/
structure CallGroupStanding where
  member : Bool := false
  mayBringGuest : Bool := false
  mayRemoveGuest : Bool := false
  mayInviteToGroup : Bool := false
  deriving DecidableEq, Repr

/-- An entry of a roster received for a group's call is taken: a member's
always, a guest's where a member who may brought them. -/
def takesCallRosterEntry (entry : Option CallGroupStanding) (broughtBy : String)
    (bringer : Option CallGroupStanding) : Bool :=
  match entry with
  | none => true
  | some standing =>
    standing.member ||
      (broughtBy ≠ "" && match bringer with
        | none => false
        | some bringer => bringer.member && bringer.mayBringGuest)

inductive CallRemoveVerdict where
  | remove | leave | refused
  deriving DecidableEq, Repr

structure CallRemoveCheck where
  groupCall : Bool := false
  namesLocal : Bool := false
  sender : Option CallGroupStanding := none
  target : Option CallGroupStanding := none
  targetLabelledGuest : Bool := false
  deriving DecidableEq, Repr

/-- V062 3: members are never removed from a call. -/
def decideCallRemove (check : CallRemoveCheck) : CallRemoveVerdict :=
  if !check.groupCall then .refused
  else
    match check.target with
    | none =>
      -- No roster here (a guest's device): nothing to check the sender by.
      if check.namesLocal then .leave else if check.targetLabelledGuest then .remove else .refused
    | some target =>
      if target.member then .refused
      else
        match check.sender with
        | none => .refused
        | some sender =>
          if !(sender.member && sender.mayRemoveGuest) then .refused
          else if check.namesLocal then .leave else .remove

/-- What this device answers about itself and its groups. -/
structure CallHost where
  localIdentity : String
  /-- `group_members`; `none` is a group this device holds no roster of. -/
  groupMembers : String → Option (List String)
  /-- `group_standing`: by group and account. -/
  groupStanding : String → String → Option CallGroupStanding

/-! ## The record -/

/-- A device's record of one call; `originGroup` is empty where there is
none. -/
structure CallRecord where
  callId : String
  initiator : String
  originGroup : String := ""
  state : CallSessionState := .ringing
  mediaEpoch : Nat := 1
  createdAt : Int := 0
  rows : List CallParticipant := []
  deriving DecidableEq, Repr

namespace CallRecord

variable (host : CallHost) (call : CallRecord)

def findParticipant (identity : String) : Option CallParticipant := rowOf (·.identity) identity call.rows

def upsertParticipant (participant : CallParticipant) : CallRecord :=
  { call with
    rows := put (·.identity)
      (CallSessions.mergeRow participant (call.findParticipant participant.identity)) call.rows }

/-- A bare row in a state, as the handlers write one. -/
def setState (identity : String) (state : CallParticipantState) : CallRecord :=
  call.upsertParticipant { callId := call.callId, identity, state }

def countJoined : Nat := (call.rows.filter (·.state = .joined)).length

def isJoined (identity : String) : Bool :=
  (call.findParticipant identity).any (·.state = .joined)

/-! ## The gate -/

def senderIsInCall (sender : String) : Bool :=
  call.callId ≠ "" && sender ≠ "" &&
    (call.initiator = sender || (call.findParticipant sender).any fun row => isComing row.state)

def senderMayJoin (sender : String) : Bool :=
  call.callId ≠ "" && sender ≠ "" && call.originGroup ≠ "" &&
    (call.initiator = sender || (call.findParticipant sender).isSome)

/-! ## Standing in this call's group -/

/-- `ChecksGuests`: the call has a group (`group_standing` is bound). -/
def checksGuests : Bool := call.originGroup ≠ ""

def standingIn (account : String) : Option CallGroupStanding :=
  if call.checksGuests then host.groupStanding call.originGroup account else none

def dropRefusedGuests (entries : List CallRosterEntry) : List CallRosterEntry :=
  if !call.checksGuests then entries
  else
    entries.filter fun entry =>
      entry.identity = "" || entry.identity = host.localIdentity ||
        takesCallRosterEntry (call.standingIn host entry.identity) entry.broughtBy
          (if entry.broughtBy = "" then none else call.standingIn host entry.broughtBy)

def knownOutOfGroup (groupId identity : String) : Bool :=
  (host.groupMembers groupId).any fun members => !members.contains identity

/-! ## Ending and leaving -/

def endCallLocal : CallRecord := { call with state := .ended }

/-- `CallSessionLogic::IsGroupCall`. -/
def isGroupCall : Bool := call.originGroup ≠ "" || call.rows.length > 2

/-- `CallSessionLogic::TransitionOnLeave`. -/
def transitionOnLeave (current : CallSessionState) (remainingJoined : Nat) (group : Bool) : CallSessionState :=
  if current = .ended then .ended
  else if remainingJoined = 0 then .ended
  else if !group && current = .active && remainingJoined = 1 then .ended
  else if current = .ringing then .ringing else .active

/-- The session after someone is out of the call, this device or another. -/
def afterLeave : CallRecord :=
  { call with state := transitionOnLeave call.state call.countJoined call.isGroupCall }

/-- `LeaveCall`: once, and not of a call that ended. -/
def leaveCall : CallRecord :=
  if call.state = .ended then call
  else if (call.findParticipant host.localIdentity).any (·.state = .left) then call
  else (call.setState host.localIdentity .left).afterLeave

def declineInvite : CallRecord := (call.setState host.localIdentity .declined).endCallLocal

/-- `MarkEveryoneLeft`: everyone else who is joined. -/
def markEveryoneLeft : CallRecord :=
  (call.rows.filter fun row => row.identity ≠ host.localIdentity && row.state = .joined).foldl
    (fun call row => call.upsertParticipant { row with state := .left }) call

/-! ## Handlers -/

def participantGone (identity : String) : CallRecord :=
  let call := call.setState identity .left
  if call.state = .ended then call
  else if identity = host.localIdentity then call.endCallLocal
  else call.afterLeave

/-- `HandleInboundLeave`; `named` is whom the message names. -/
def handleInboundLeave (named sender : String) : CallRecord :=
  call.participantGone host (if named = "" then sender else named)

/-- Someone else is in the call or asked into it. -/
def remoteInterest : Bool :=
  call.rows.any fun row => row.identity ≠ host.localIdentity && isComing row.state

def handleInboundDecline (named sender : String) : CallRecord :=
  let call := call.setState (if named = "" then sender else named) .declined
  if call.state ≠ .ended ∧ call.remoteInterest host = false then call.endCallLocal else call

/-- `HandleInboundAccept` down to `CommitRemoteJoin`: an accept naming someone
else is dropped. -/
def handleInboundAccept (named sender : String) (media : CallParticipantMedia) (nowMs : Int) : CallRecord :=
  if named ≠ "" ∧ named ≠ sender then call
  else
    let call := call.upsertParticipant
      { callId := call.callId, identity := sender, state := .joined, media, joinedAt := some nowMs }
    if call.state = .ended then call else { call with state := .active }

/-- One entry of the loop of `ApplyCallRosterToStore`. -/
def applyRosterEntry (call : CallRecord) (entry : CallRosterEntry) : CallRecord :=
  if entry.identity = "" then call
  else if host.localIdentity ≠ "" ∧ entry.identity = host.localIdentity then
    if entry.joinedAt = none then call
    else
      match call.findParticipant entry.identity with
      | none => call
      | some own =>
        if own.joinedAt ≠ entry.joinedAt then call.upsertParticipant { own with joinedAt := entry.joinedAt }
        else call
  else
    match call.findParticipant entry.identity with
    | none => call.upsertParticipant (rosterRow call.callId entry)
    | some existing =>
      if isComing entry.state then
        if ¬ rejoined existing entry ∧ isGone existing.state then call
        -- a joiner's roster still lists earlier invitees as ringing: only the media follows
        else if existing.state = .joined ∧ entry.state ≠ .joined then
          call.upsertParticipant { existing with media := entry.media }
        else call.upsertParticipant (rosterRow call.callId entry)
      else call.upsertParticipant (rosterRow call.callId entry)

def handleInboundRoster (mediaEpoch : Nat) (participants : List CallRosterEntry) : CallRecord :=
  (call.dropRefusedGuests host participants).foldl (applyRosterEntry host)
    { call with mediaEpoch := max call.mediaEpoch mediaEpoch }

def handleInboundEnded : CallRecord :=
  let call := call.markEveryoneLeft host
  if call.state = .ended then call else call.endCallLocal

/-- `HandleInboundRemove`; `ringing` is this device's own ring. -/
def handleInboundRemove (identity sender : String) (ringing : Bool) : CallRecord :=
  if call.state = .ended then call
  else
    let row := call.findParticipant identity
    match decideCallRemove {
        groupCall := call.originGroup ≠ ""
        namesLocal := identity = host.localIdentity
        sender := call.standingIn host sender
        target := call.standingIn host identity
        targetLabelledGuest := row.any (·.broughtBy ≠ "") } with
    | .refused => call
    | .leave => if ringing then call.declineInvite host else call.leaveCall host
    | .remove => if row.any (fun row => isComing row.state) then call.participantGone host identity else call

/-! ## Invites -/

/-- What the handlers read of an invite for this call. -/
structure Invite where
  inviter : String := ""
  originGroup : String := ""
  guest : Bool := false
  broughtBy : String := ""
  mediaEpoch : Nat := 1
  createdAt : Int := 0
  participants : List CallRosterEntry := []
  deriving DecidableEq, Repr

/-- What else decides about it: whether the offer is too low or the invite too
old, whether this device asked to join, whether a call it placed crosses it and
wins, and whether the call is then answered at once. -/
structure InviteOutcome where
  refused : Bool := false
  joinRequested : Bool := false
  oursWins : Bool := false
  answered : Bool := false
  deriving DecidableEq, Repr

def shouldIgnoreInvite (invite : Invite) (outcome : InviteOutcome) (sender : String) : Bool :=
  (invite.inviter ≠ "" && invite.inviter ≠ sender) || call.isJoined host.localIdentity ||
    (invite.originGroup ≠ "" && knownOutOfGroup host invite.originGroup sender) ||
    (call.state = .ended && !outcome.joinRequested) || outcome.refused

/-- The call becomes the one of the invite (`StoreRingingInvite`). -/
def storeRingingInvite (invite : Invite) (sender : String) : CallRecord :=
  { call with
    initiator := sender
    originGroup := invite.originGroup
    state := .ringing
    createdAt := invite.createdAt
    mediaEpoch := if invite.mediaEpoch > 0 then invite.mediaEpoch else 1 }

def localJoinStampFallback : Int := if call.createdAt > 0 then call.createdAt else 1

/-- A row of the invite's roster, as `SeedInviteRoster` writes it. -/
def seedRow (call : CallRecord) (sender : String) (entry : CallRosterEntry) : CallRecord :=
  if entry.identity = "" then call
  else
    let state : CallParticipantState :=
      if entry.identity = host.localIdentity then .ringing
      else if entry.identity = sender then .joined else entry.state
    call.upsertParticipant
      { callId := call.callId, identity := entry.identity, state, media := entry.media,
        broughtBy := entry.broughtBy,
        joinedAt := if state = .joined then some (entry.joinedAt.getD call.localJoinStampFallback) else none }

/-- `SeedInviteRoster`: the entries taken, the inviter, then this device. -/
def seedInviteRoster (invite : Invite) (sender : String) : CallRecord :=
  let seeded := (call.dropRefusedGuests host invite.participants).foldl (fun call entry => call.seedRow host sender entry) call
  let stamp := (invite.participants.find? fun entry => entry.identity = sender && entry.joinedAt.isSome).bind (·.joinedAt)
  let invited := seeded.upsertParticipant
    { callId := call.callId, identity := sender, state := .joined
      joinedAt := some (stamp.getD call.localJoinStampFallback) }
  let member := (call.standingIn host host.localIdentity).any (·.member)
  invited.upsertParticipant
    { callId := call.callId, identity := host.localIdentity, state := .ringing
      broughtBy := if invite.guest && !member then invite.broughtBy else "" }

/-- `SwallowCrossedInvite`: the invited call is over before it rang. -/
def swallowCrossedInvite (invite : Invite) (sender : String) : CallRecord :=
  { call with
    initiator := sender, originGroup := "", state := .ended, createdAt := invite.createdAt
    mediaEpoch := if invite.mediaEpoch > 0 then invite.mediaEpoch else 1 }

def commitLocalJoin : CallRecord :=
  let state : CallSessionState := if call.state = .ended then .ended else .active
  ({ call with state }).setState host.localIdentity .joined

/-- `HandleInboundInvite` for this call, and the accept that follows where it
answers a wish of ours. -/
def handleInboundInvite (invite : Invite) (outcome : InviteOutcome) (sender : String) : CallRecord :=
  if call.shouldIgnoreInvite host invite outcome sender then call
  else if outcome.oursWins then call.swallowCrossedInvite invite sender
  else
    let call := (call.storeRingingInvite invite sender).seedInviteRoster host invite sender
    if outcome.answered then call.commitLocalJoin host else call

/-! ## Messages -/

inductive Control where
  | invite (invite : Invite) (outcome : InviteOutcome)
  | accept (named : String) (media : CallParticipantMedia) (nowMs : Int)
  | decline (named : String)
  | leave (named : String)
  | remove (identity : String) (ringing : Bool)
  | roster (mediaEpoch : Nat) (participants : List CallRosterEntry)
  | ended
  /-- An invite of another call, which this one of ours gives way to: nobody
  else is in it yet. -/
  | crossed
  deriving DecidableEq, Repr

/-- `SenderMaySend`, for an audience that lets the invite ring. -/
def senderMaySend (sender : String) : Control → Bool
  | .invite _ _ => true
  | .crossed => true
  | .ended => call.senderMayJoin sender || call.senderIsInCall sender
  | _ => call.senderIsInCall sender

/-- `OurUnansweredGroupCall`, or `OurUnansweredCallTo`: this call is ours, and
nobody answered it. -/
def oursUnanswered : Bool :=
  call.state ≠ .ended && call.initiator = host.localIdentity &&
    call.rows.all fun row => row.identity = host.localIdentity || row.state ≠ .joined

/-- A message let in. -/
def receive (sender : String) : Control → CallRecord
  | .invite invite outcome => call.handleInboundInvite host invite outcome sender
  | .accept named media nowMs => call.handleInboundAccept named sender media nowMs
  | .decline named => call.handleInboundDecline host named sender
  | .leave named => call.handleInboundLeave host named sender
  | .remove identity ringing => call.handleInboundRemove host identity sender ringing
  | .roster mediaEpoch participants => call.handleInboundRoster host mediaEpoch participants
  | .ended => call.handleInboundEnded host
  | .crossed => if call.oursUnanswered host then call.leaveCall host else call

/-- `ApplyInboundControl`: dropped unless its sender may send it. -/
def applyInboundControl (call : CallRecord) (message : String × Control) : CallRecord :=
  if call.senderMaySend message.1 message.2 then call.receive host message.1 message.2 else call

end CallRecord
end Pbr
