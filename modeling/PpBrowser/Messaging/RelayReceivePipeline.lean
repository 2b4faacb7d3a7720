import PpBrowser.Messaging.GroupInvites
import PpBrowser.Messaging.GroupRosterSync

/-!
# RelayReceivePipeline — the membership messages a device receives

`RelayReceivePipeline::ApplyInboundMembershipMessage`: each message, by its
kind, over the device's groups. What a handler wrote before an error stays.

Left out: the chat's lines and cards, and what the outcome asks others to
do.
-/

namespace Pbr

open Lib

/-- An invite as it arrives. -/
structure GroupInvitePayload where
  inviteNonce : String
  groupId : String
  inviterIdentity : String
  inviteeIdentity : String
  expiresAt : Option Int := none

/-- What an owner's setting event says changed. -/
inductive GroupSetting where
  | memberRole (memberIdentity : String) (role : MemberRole)
  | preset (preset : GroupPreset)

/-- The statement says what the event does. -/
def GroupSetting.agrees (statement : GroupRosterStatement) : GroupSetting → Bool
  | memberRole memberIdentity role =>
    statement.members.any fun m => m.identity = memberIdentity ∧ m.role = role
  | preset preset' => statement.preset = preset'

/-- A membership message, decoded; `statement` is the owner's statement a
roster event carries, if any. -/
inductive MembershipControl where
  | groupInvite (invite : GroupInvitePayload)
  | groupInviteAccept (response : InviteResponsePayload)
  | groupInviteDecline (response : InviteResponsePayload)
  | groupInviteRefused (refused : InviteResponsePayload)
  | memberJoined (joined : MemberJoinedPayload) (inviteNonce : String)
      (statement : Option GroupRosterStatement) (changes : List GroupChange)
  | ownerTransferred (transferred : OwnerTransferredPayload)
  | groupChange (change : GroupChange)
  | memberRemoved (removed : MemberRemovedPayload) (statement : Option GroupRosterStatement)
  | groupRenamed (renamed : GroupRenamedPayload)
  | groupRosterStatement (statement : GroupRosterStatement)
  | groupSettingChanged (groupId : String) (setting : GroupSetting)
      (statement : Option GroupRosterStatement)
  | groupDissolved (statement : GroupRosterStatement)

structure RelayReceivePipeline where
  crypto : GroupCrypto
  accountCards : GroupCardLookup
  /-- Our account; empty when there is none. -/
  localAccount : String
  /-- Lets an invite in, or says why not; no gate, no invites. -/
  inviteGate : Option (GroupInvitePayload → Roe Unit) := none

/-- A handler's answer, and the device after it. -/
abbrev Handled := Roe Unit × GroupDevice

namespace RelayReceivePipeline

variable (pipeline : RelayReceivePipeline) (device : GroupDevice) (nowMs : Int)

/-! ## After a roster changed -/

/-- We are out: the chat stays, read-only. -/
def markRemovedHere (groupId : String) : GroupDevice :=
  match device.roster.loadMetadata groupId with
  | none => device
  | some metadata =>
    if metadata.syncState = .active then
      { device with roster := device.roster.upsertMetadata { metadata with syncState := .removed } }
    else device

def finishView (groupId : String) (applied : GroupViewApplied) : GroupDevice :=
  match device.roster.loadMetadata groupId with
  | none => device
  | some _ =>
    if pipeline.localAccount ≠ "" ∧ pipeline.localAccount ∈ applied.gone then
      markRemovedHere device groupId
    else device

/-- A statement kept, and the roster recomputed over it. -/
def catchUpOn (statement : GroupRosterStatement) : Roe Bool × GroupDevice :=
  match keepAndCatchUp pipeline.crypto device.roster statement pipeline.accountCards nowMs with
  | .error e => (.error e, device)
  | .ok (kept, applied, roster) =>
    (.ok kept, pipeline.finishView { device with roster } statement.groupId applied)

/-- The statement an event carries; one not kept is passed over. -/
def keepCarriedStatement (statement : Option GroupRosterStatement) : GroupDevice :=
  match statement with
  | none => device
  | some statement => (pipeline.catchUpOn device nowMs statement).2

/-! ## Handlers -/

/-- We have left the group, or never were in it. -/
def ignores (groupId : String) : Bool :=
  pipeline.localAccount ≠ "" ∧ groupId ≠ "" ∧
    !device.roster.isMember groupId pipeline.localAccount

/-- An invite of ours from its sender, for the group it brings us into. -/
def fromInviter (groupId inviteNonce actorIdentity : String) : Bool :=
  inviteNonce ≠ "" ∧ (device.loadPendingInvite inviteNonce).any fun pending =>
    !pending.outbound ∧ pending.inviterIdentity = actorIdentity ∧ pending.groupId = groupId ∧
      pending.inviteeIdentity = pipeline.localAccount

/-- We joined: the owner's statement and the changes must give a roster with
us in it before any of it is kept. -/
def applyJoinBundle (joined : MemberJoinedPayload) (inviteNonce : String)
    (statement : Option GroupRosterStatement) (changes : List GroupChange)
    (actorIdentity : String) : Handled :=
  match device.roster.loadMetadata joined.groupId with
  | none => (.error "join bundle: a group we do not hold", device)
  | some metadata =>
    if !pipeline.fromInviter device joined.groupId inviteNonce actorIdentity ∧
        metadata.ownerIdentity ≠ actorIdentity then
      (.error "join bundle: not from the one who invited us", device)
    else
      match statement with
      | none =>
        if metadata.ownerIdentity ≠ actorIdentity then
          (.error "join bundle: no owner statement", device)
        else
          match applyMemberJoined device.roster joined actorIdentity nowMs with
          | .error e => (.error e, device)
          | .ok roster => (.ok (), { device with roster })
      | some statement =>
        let changes := changes.filter (·.groupId = joined.groupId)
        match checkJoin pipeline.crypto device.roster statement changes pipeline.accountCards
            nowMs pipeline.localAccount with
        | .error e => (.error ("join bundle: " ++ e), device)
        | .ok () =>
          match keepStatement pipeline.crypto device.roster statement with
          | .error e => (.error ("join bundle: " ++ e), device)
          | .ok (_, roster) =>
            let roster := holdCarried pipeline.crypto roster changes pipeline.accountCards
              nowMs true
            match applyView pipeline.crypto roster joined.groupId pipeline.accountCards nowMs with
            | .error e => (.error e, { device with roster })
            | .ok (applied, roster) =>
              let device := { device with roster }
              if !applied.view.any (·.lists pipeline.localAccount) then
                (.error "join bundle: the roster it proves does not have us", device)
              else (.ok (), pipeline.finishView device joined.groupId applied)

def applyMemberJoined (joined : MemberJoinedPayload) (inviteNonce : String)
    (statement : Option GroupRosterStatement) (changes : List GroupChange)
    (actorIdentity : String) : Handled :=
  if pipeline.ignores device joined.groupId then (.ok (), device)
  else if pipeline.localAccount ≠ "" ∧ joined.memberIdentity = pipeline.localAccount then
    pipeline.applyJoinBundle device nowMs joined inviteNonce statement changes actorIdentity
  else
    match Pbr.applyMemberJoined device.roster joined actorIdentity nowMs with
    | .error e => (.error e, device)
    | .ok roster => (.ok (), pipeline.keepCarriedStatement { device with roster } nowMs statement)

def applyOwnerTransferred (transferred : OwnerTransferredPayload) (actorIdentity : String) :
    Handled :=
  if pipeline.ignores device transferred.groupId then (.ok (), device)
  else
    match Pbr.applyOwnerTransferred device.roster transferred actorIdentity nowMs with
    | .error e => (.error e, device)
    | .ok roster => (.ok (), { device with roster })

/-- A change, from its signer or a member handing it on. -/
def applyGroupChange (change : GroupChange) (actorIdentity : String) : Handled :=
  if pipeline.localAccount = "" ∨
      !device.roster.isMember change.groupId pipeline.localAccount then (.ok (), device)
  else if actorIdentity ≠ change.signer ∧
      !device.roster.isMember change.groupId actorIdentity then
    (.error "group_change: handed on by someone outside the group", device)
  else
    match receiveChange pipeline.crypto device.roster change pipeline.accountCards nowMs with
    | .error e => (.error e, device)
    | .ok ((held, applied), roster) =>
      let device := { device with roster }
      if held = .refused then
        (.error
          "group_change: it does not prove itself (forged, damaged, or the group holds too many)",
          device)
      else (.ok (), pipeline.finishView device change.groupId applied)

def applyMemberRemoved (removed : MemberRemovedPayload) (statement : Option GroupRosterStatement)
    (actorIdentity : String) : Handled :=
  if pipeline.ignores device removed.groupId then (.ok (), device)
  else
    match Pbr.applyMemberRemoved device.roster removed actorIdentity with
    | .error e => (.error e, device)
    | .ok roster =>
      let device := pipeline.keepCarriedStatement { device with roster } nowMs statement
      (.ok (), if pipeline.localAccount ≠ "" ∧ removed.memberIdentity = pipeline.localAccount then
        markRemovedHere device removed.groupId else device)

def applyGroupRenamed (renamed : GroupRenamedPayload) (actorIdentity : String) : Handled :=
  if pipeline.ignores device renamed.groupId then (.ok (), device)
  else
    match Pbr.applyGroupRenamed device.roster renamed actorIdentity with
    | .error e => (.error e, device)
    | .ok (_, roster) => (.ok (), { device with roster })

/-- A statement on its own: not our group, or not from the owner it names,
it is passed over; so is one not kept. -/
def applyRosterStatement (statement : GroupRosterStatement) (actorIdentity : String) : Handled :=
  if !device.roster.isMember statement.groupId pipeline.localAccount ∨
      statement.ownerIdentity ≠ actorIdentity then (.ok (), device)
  else (.ok (), (pipeline.catchUpOn device nowMs statement).2)

def applyGroupSettingChanged (groupId : String) (setting : GroupSetting)
    (statement : Option GroupRosterStatement) (actorIdentity : String) : Handled :=
  if !device.roster.isMember groupId pipeline.localAccount then (.ok (), device)
  else
    match statement with
    | none => (.error "group setting: not from the owner its roster names", device)
    | some statement =>
      if statement.groupId ≠ groupId ∨ statement.ownerIdentity ≠ actorIdentity then
        (.error "group setting: not from the owner its roster names", device)
      else if !setting.agrees statement then
        (.error "group setting: the event does not match the roster it carries", device)
      else
        match pipeline.catchUpOn device nowMs statement with
        | (.error e, device) => (.error e, device)
        | (.ok _, device) => (.ok (), device)

/-- The owner ended the group: its unanswered invites are void too. -/
def applyGroupDissolved (statement : GroupRosterStatement) (actorIdentity : String) : Handled :=
  match applyDissolved pipeline.crypto device.roster statement pipeline.localAccount
      (some actorIdentity) with
  | .error e => (.error e, device)
  | .ok (false, _) => (.ok (), device)
  | .ok (true, roster) =>
    (.ok (), { device.voidPendingInvites statement.groupId with roster })

def applyInviteAccepted (response : InviteResponsePayload) (actorIdentity : String) : Handled :=
  match applyInviteAcceptToRoster device response.inviteNonce actorIdentity response.groupId
      pipeline.localAccount nowMs with
  | (.ok _, device) => (.ok (), device)
  | (.error e, device) =>
    if e = kGroupInviteNotAllowedError then
      (.ok (), device.updateInviteStatus response.inviteNonce .expired)
    else if e = kGroupFullError ∨ e = kGroupDissolvedError then (.ok (), device)
    else (.error e, device)

/-- An invite speaks for its sender only, and only to us. -/
def applyGroupInvite (invite : GroupInvitePayload) (actorIdentity : String) : Handled :=
  match pipeline.inviteGate with
  | none => (.ok (), device)
  | some allows =>
    if invite.inviterIdentity ≠ actorIdentity then
      (.error "Invite rejected: inviter is not the sender", device)
    else if pipeline.localAccount = "" ∨ invite.inviteeIdentity ≠ pipeline.localAccount then
      (.error "Invite rejected: not addressed to the local account", device)
    else
      let known := device.roster.loadMetadata invite.groupId
      if known.any (·.syncState = .dissolved) then (.ok (), device)
      else if known.isSome ∧ device.roster.isMember invite.groupId pipeline.localAccount then
        (.error "Invite rejected: already a member", device)
      else
        match allows invite with
        | .error e => (.error e, device)
        | .ok () =>
          (.ok (), device.upsertPendingInvite {
            inviteNonce := invite.inviteNonce, groupId := invite.groupId
            inviterIdentity := invite.inviterIdentity, inviteeIdentity := invite.inviteeIdentity
            expiresAt := invite.expiresAt })

def applyInboundMembershipMessage (actorIdentity : String) : MembershipControl → Handled
  | .groupInvite invite => pipeline.applyGroupInvite device invite actorIdentity
  | .groupInviteAccept response =>
    pipeline.applyInviteAccepted device nowMs response actorIdentity
  | .groupInviteDecline response =>
    applyInviteDeclineToRoster device response.inviteNonce actorIdentity response.groupId
  | .groupInviteRefused refused =>
    applyInviteRefused device refused actorIdentity pipeline.localAccount
  | .memberJoined joined inviteNonce statement changes =>
    pipeline.applyMemberJoined device nowMs joined inviteNonce statement changes actorIdentity
  | .ownerTransferred transferred =>
    pipeline.applyOwnerTransferred device nowMs transferred actorIdentity
  | .groupChange change => pipeline.applyGroupChange device nowMs change actorIdentity
  | .memberRemoved removed statement =>
    pipeline.applyMemberRemoved device nowMs removed statement actorIdentity
  | .groupRenamed renamed => pipeline.applyGroupRenamed device renamed actorIdentity
  | .groupRosterStatement statement =>
    pipeline.applyRosterStatement device nowMs statement actorIdentity
  | .groupSettingChanged groupId setting statement =>
    pipeline.applyGroupSettingChanged device nowMs groupId setting statement actorIdentity
  | .groupDissolved statement => pipeline.applyGroupDissolved device statement actorIdentity

end RelayReceivePipeline

end Pbr
