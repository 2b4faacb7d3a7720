import PpBrowser.Messaging.GroupRosterStore

/-!
# GroupInvites — the invites a device sent and received

The pending invites of `IGroupRosterStore` and what the answers to them do
(`GroupMembershipApply.cpp`; a refusal, `RelayReceivePipeline.cpp`). An
invite once stored stays, under its nonce; only its status changes.

Left out: what an invite says for its card (titles, times), and the chat's
lines.
-/

namespace Pbr

open Lib

/-- Refusal reasons on the wire. -/
def kInviteRefusedGroupFull : String := "group_full"
def kInviteRefusedGroupDissolved : String := "group_dissolved"
def kInviteRefusedNotAllowed : String := "not_allowed"

def kGroupFullError : String := "This group is full (50 members)"
def kGroupInviteNotAllowedError : String := "chat.group.err.invite_not_allowed"
def kGroupDissolvedError : String := "chat.group.dissolved"

/-- An accept that was on its way when the invite ran out still counts. -/
def kGroupInviteAcceptGraceMs : Int := 24 * 60 * 60 * 1000

inductive InviteStatus where
  | pending | accepted | declined | expired | blocked
  deriving DecidableEq, Repr

structure PendingGroupInvite where
  inviteNonce : String
  groupId : String
  inviterIdentity : String
  inviteeIdentity : String
  status : InviteStatus := .pending
  expiresAt : Option Int := none
  /-- This device issued the invite. -/
  outbound : Bool := false
  deriving DecidableEq, Repr

/-- An accept, a decline or a refusal. -/
structure InviteResponsePayload where
  inviteNonce : String
  groupId : String
  /-- A refusal's reason. -/
  reason : String := ""

structure GroupDevice where
  roster : GroupRosterStore := {}
  invites : StrMap PendingGroupInvite := ∅

namespace GroupDevice

variable (device : GroupDevice)

def loadPendingInvite (inviteNonce : String) : Option PendingGroupInvite :=
  device.invites[inviteNonce]?

/-- An invite once stored stays as it was. -/
def upsertPendingInvite (invite : PendingGroupInvite) : GroupDevice :=
  { device with invites := device.invites.insertIfNew invite.inviteNonce invite }

def updateInviteStatus (inviteNonce : String) (status : InviteStatus) : GroupDevice :=
  { device with invites := device.invites.modify inviteNonce ({ · with status }) }

/-- The pending ones of the invites `which` picks run out. -/
def expireInvites (which : PendingGroupInvite → Bool) : GroupDevice :=
  { device with
    invites := device.invites.map fun _ invite =>
      if which invite ∧ invite.status = .pending then { invite with status := .expired }
      else invite }

def expireOutboundInvitesTo (groupId inviteeIdentity : String) : GroupDevice :=
  device.expireInvites fun invite =>
    invite.groupId = groupId ∧ invite.inviteeIdentity = inviteeIdentity ∧ invite.outbound

def voidPendingInvites (groupId : String) : GroupDevice :=
  device.expireInvites fun invite => invite.groupId = groupId

/-- `EndGroup`, with the group's unanswered invites voided. -/
def endGroup (groupId : String) (ending : GroupEnding) : Option GroupDevice :=
  (device.roster.endGroup groupId ending).map fun roster =>
    { device.voidPendingInvites groupId with roster }

end GroupDevice

/-! ## Answers to an invite -/

/-- What an accept came to. -/
inductive InviteAccepted where
  | added | already | signAdd
  deriving DecidableEq, Repr

/-- The checks an accept passes whoever invited. -/
def checkAcceptedInvite (device : GroupDevice) (invite : PendingGroupInvite)
    (memberIdentity groupId : String) (nowMs : Int) :
    Roe (Option InviteAccepted) × GroupDevice :=
  if !invite.outbound then
    (.error "Invite accept for an invite this device did not issue", device)
  else if invite.inviteeIdentity ≠ memberIdentity then
    (.error "Invite accept sender does not match invitee", device)
  else if invite.groupId ≠ groupId then (.error "Invite accept names another group", device)
  else if invite.status = .accepted then (.ok (some .already), device)
  else if invite.status ≠ .pending then (.error "Invite is not pending", device)
  else if invite.expiresAt.any (· + kGroupInviteAcceptGraceMs < nowMs) then
    (.error "Invite expired", device.updateInviteStatus invite.inviteNonce .expired)
  else if (device.roster.listMembers invite.groupId).length ≥ kMaxGroupMembers then
    (.error kGroupFullError, device.updateInviteStatus invite.inviteNonce .expired)
  else (.ok none, device)

/-- The owner's own add; then its invite is answered and the member's others
run out. -/
def addInvited (device : GroupDevice) (invite : PendingGroupInvite) (metadata : GroupMetadata)
    (memberIdentity localIdentity : String) (nowMs : Int) : GroupDevice :=
  let device := { device with
    roster := addAsOwner device.roster metadata memberIdentity localIdentity nowMs }
  (device.updateInviteStatus invite.inviteNonce .accepted).expireOutboundInvitesTo
    invite.groupId memberIdentity

def applyInviteAcceptToRoster (device : GroupDevice)
    (inviteNonce memberIdentity groupId localIdentity : String) (nowMs : Int) :
    Roe InviteAccepted × GroupDevice :=
  match device.loadPendingInvite inviteNonce with
  | none => (.error "Invite not found", device)
  | some invite =>
    match device.roster.loadMetadata invite.groupId with
    | none => (.error "Invite accept for a group this device does not hold", device)
    | some metadata =>
      if localIdentity = "" then
        (.error "Invite accept for a group this device does not hold", device)
      else if metadata.syncState = .dissolved then (.error kGroupDissolvedError, device)
      else
        match checkAcceptedInvite device invite memberIdentity groupId nowMs with
        | (.error e, device) => (.error e, device)
        | (.ok (some accepted), device) => (.ok accepted, device)
        | (.ok none, device) =>
          if metadata.ownerIdentity = localIdentity then
            (.ok .added, addInvited device invite metadata memberIdentity localIdentity nowMs)
          else
            -- a member's or admin's invite: still theirs to make
            match device.roster.findMember invite.groupId localIdentity with
            | none => (.error kGroupInviteNotAllowedError, device)
            | some self =>
              if metadata.syncState ≠ .active ∨
                  !groupAllows .invite self.role metadata.policy.preset .member then
                (.error kGroupInviteNotAllowedError, device)
              else (.ok .signAdd, device)

def applyInviteDeclineToRoster (device : GroupDevice)
    (inviteNonce memberIdentity groupId : String) : Roe Unit × GroupDevice :=
  match device.loadPendingInvite inviteNonce with
  | none => (.error "Invite not found", device)
  | some invite =>
    if !invite.outbound ∨ invite.inviteeIdentity ≠ memberIdentity ∨ invite.groupId ≠ groupId then
      (.error "Invite decline does not match an invite this device issued", device)
    else if invite.status ≠ .pending then (.error "Invite is not pending", device)
    else (.ok (), device.updateInviteStatus inviteNonce .declined)

/-- We were never added: the group made on accept is dropped. -/
def dropGroup (store : GroupRosterStore) (groupId localAccount : String) : GroupRosterStore :=
  let store := if localAccount = "" then store else store.removeMember groupId localAccount
  match store.loadMetadata groupId with
  | none => store
  | some metadata => store.upsertMetadata { metadata with syncState := .removed }

/-- A refusal of our accept: for an invite we received from its sender, for
that group. -/
def applyInviteRefused (device : GroupDevice) (refused : InviteResponsePayload)
    (actorIdentity localAccount : String) : Roe Unit × GroupDevice :=
  match device.loadPendingInvite refused.inviteNonce with
  | none => (.error "group_invite_refused for no invite of ours from its sender", device)
  | some pending =>
    if pending.outbound ∨ pending.inviterIdentity ≠ actorIdentity ∨
        pending.groupId ≠ refused.groupId then
      (.error "group_invite_refused for no invite of ours from its sender", device)
    else
      let device := device.updateInviteStatus refused.inviteNonce .expired
      if refused.reason = kInviteRefusedGroupDissolved then
        (.ok (), (device.endGroup refused.groupId { ownerIdentity := actorIdentity }).getD device)
      else
        (.ok (), { device with
          roster := dropGroup device.roster refused.groupId localAccount })

end Pbr
