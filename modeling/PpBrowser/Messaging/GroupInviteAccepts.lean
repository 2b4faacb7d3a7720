import PpBrowser.Messaging.GroupInvites
import PpBrowser.Messaging.GroupOwnerEvents
import PpBrowser.Messaging.GroupRosterSync

/-!
# GroupInviteAccepts — answers to the invites a device sent, write by write

What an accept or a decline does on the inviting device when writes to its
store may fail (`GroupMembershipApply.cpp`, `RelayReceivePipeline.cpp`), and
the add a member or an admin signs for an accept
(`GroupMembershipWorkflow::AdmitInvitee`). The owner's add writes the row,
then the epoch, then the invite's status; only then do the member's other
invites run out. Without failures an accept does what
`applyInviteAcceptToRoster` of `GroupInvites` does.

Left out: what an answer makes the device send, and the chat's lines.
-/

namespace Pbr

open Lib

/-- A handler of the answers to invites. -/
abbrev InviteWriting (α : Type) := Writing String GroupDevice α

namespace InviteAccepts

open Writing

/-! ## Accepts and declines -/

def checkAcceptedInvite (invite : PendingGroupInvite) (memberIdentity groupId : String)
    (nowMs : Int) : InviteWriting (Option InviteAccepted) :=
  if !invite.outbound then fail "Invite accept for an invite this device did not issue"
  else if invite.inviteeIdentity ≠ memberIdentity then
    fail "Invite accept sender does not match invitee"
  else if invite.groupId ≠ groupId then fail "Invite accept names another group"
  else if invite.status = .accepted then pure (some .already)
  else if invite.status ≠ .pending then fail "Invite is not pending"
  else if invite.expiresAt.any (· + kGroupInviteAcceptGraceMs < nowMs) then do
    tryWrite storeError (·.updateInviteStatus invite.inviteNonce .expired)
    fail "Invite expired"
  else do
    let members ← reads fun device => .ok (device.roster.listMembers invite.groupId)
    if members.length ≥ kMaxGroupMembers then
      tryWrite storeError (·.updateInviteStatus invite.inviteNonce .expired)
      fail kGroupFullError
    else pure none

/-- Until the invite reads accepted, a failure leaves it pending. -/
def addAsOwner (invite : PendingGroupInvite) (metadata : GroupMetadata)
    (memberIdentity localIdentity : String) (nowMs : Int) : InviteWriting InviteAccepted := do
  write storeError fun device => { device with
    roster := device.roster.upsertMember invite.groupId
      { memberIdentity, joinedAt := nowMs, addedBy := localIdentity } }
  write storeError fun device => { device with
    roster := device.roster.upsertMetadata
      { metadata with rosterEpoch := u64 (metadata.rosterEpoch + 1) } }
  write storeError (·.updateInviteStatus invite.inviteNonce .accepted)
  tryWrite storeError (·.expireOutboundInvitesTo invite.groupId memberIdentity)
  pure .added

def applyInviteAcceptToRoster (inviteNonce memberIdentity groupId localIdentity : String)
    (nowMs : Int) : InviteWriting InviteAccepted := do
  let invite ← reads fun device =>
    match device.loadPendingInvite inviteNonce with
    | none => .error "Invite not found"
    | some invite => .ok invite
  let metadata ← reads fun device =>
    match device.roster.loadMetadata invite.groupId with
    | none => .error "Invite accept for a group this device does not hold"
    | some metadata => .ok metadata
  if localIdentity = "" then fail "Invite accept for a group this device does not hold"
  else if metadata.syncState = .dissolved then fail kGroupDissolvedError
  else
    let checked ← checkAcceptedInvite invite memberIdentity groupId nowMs
    match checked with
    | some accepted => pure accepted
    | none =>
      if metadata.ownerIdentity = localIdentity then
        addAsOwner invite metadata memberIdentity localIdentity nowMs
      else
        -- a member's or admin's invite: still theirs to make
        let self ← reads fun device => .ok (device.roster.findMember invite.groupId localIdentity)
        match self with
        | none => fail kGroupInviteNotAllowedError
        | some self =>
          if metadata.syncState ≠ .active ∨
              !groupAllows .invite self.role metadata.policy.preset .member then
            fail kGroupInviteNotAllowedError
          else pure .signAdd

def applyInviteDeclineToRoster (inviteNonce memberIdentity groupId : String) :
    InviteWriting Unit := do
  let invite ← reads fun device =>
    match device.loadPendingInvite inviteNonce with
    | none => .error "Invite not found"
    | some invite => .ok invite
  if !invite.outbound ∨ invite.inviteeIdentity ≠ memberIdentity ∨ invite.groupId ≠ groupId then
    fail "Invite decline does not match an invite this device issued"
  else if invite.status ≠ .pending then fail "Invite is not pending"
  else write storeError (·.updateInviteStatus inviteNonce .declined)

/-- The pipeline's handler of an accept: one that is no longer ours to make
closes its invite. -/
def applyInviteAccepted (localAccount : String) (response : InviteResponsePayload)
    (actorIdentity : String) (nowMs : Int) (device : Faulty GroupDevice) :
    Roe InviteAccepted × Faulty GroupDevice :=
  match applyInviteAcceptToRoster response.inviteNonce actorIdentity response.groupId localAccount
      nowMs device with
  | (.ok accepted, device) => (.ok accepted, device)
  | (.error e, device) =>
    if e = kGroupInviteNotAllowedError then
      (.error e, (tryWrite storeError
        (·.updateInviteStatus response.inviteNonce .expired) device).2)
    else (.error e, device)

/-! ## The signed add -/

/-- An accept that asks for a signed add. -/
structure Admission where
  groupId : String
  inviteNonce : String
  memberIdentity : String
  deriving DecidableEq, Repr

/-- What an admission finds: who signs, the add drafted and signed, and how
its writes go. -/
structure Admitting where
  nowMs : Int
  /-- Our account and device, or why there is none. -/
  signer : Roe Unit := .ok ()
  add : Roe GroupChange
  holdFails : Bool := false
  /-- The roster a failed write of `ApplyView` leaves, when one fails. -/
  viewLeft : Option GroupRosterStore := none
  dropFails : Bool := false
  /-- As `viewLeft`, once the add was dropped again. -/
  backLeft : Option GroupRosterStore := none
  acceptedFails : Bool := false
  siblingsFails : Bool := false
  expiredFails : Bool := false

section Admit

variable (K : GroupCrypto) (cards : GroupCardLookup)

/-- `ApplyView`, the roster left as given when a write of it fails. -/
def applyViewOr (left : Option GroupRosterStore) (roster : GroupRosterStore) (groupId : String)
    (nowMs : Int) : Option GroupRosterView × GroupRosterStore :=
  match left with
  | some left => (none, left)
  | none =>
    match applyView K roster groupId cards nowMs with
    | .error _ => (none, roster)
    | .ok (applied, roster) => (applied.view, roster)

/-- The add held and counted; one that does not count here goes nowhere. -/
def holdAdd (roster : GroupRosterStore) (admission : Admission) (answers : Admitting)
    (add : GroupChange) : Roe Unit × GroupRosterStore :=
  if answers.holdFails then (.error storeError, roster)
  else
    let (held, roster) := holdChange K roster add cards answers.nowMs true
    if held ≠ .proved then (.error "The add does not prove itself on this device", roster)
    else
      let (view, roster) := applyViewOr K cards answers.viewLeft roster admission.groupId
        answers.nowMs
      if view.any (·.lists admission.memberIdentity) then (.ok (), roster)
      else
        let full := (view.bind (·.verdict (add.id K))).any (·.reason = .groupFull)
        let roster := if answers.dropFails then roster
          else roster.deleteGroupChanges admission.groupId [add.id K]
        let (_, roster) := applyViewOr K cards answers.backLeft roster admission.groupId
          answers.nowMs
        (.error (if full then kGroupFullError else kGroupInviteNotAllowedError), roster)

/-- The roster an admission leaves, and whether its add counts. -/
def admittedRoster (roster : GroupRosterStore) (admission : Admission) (answers : Admitting) :
    Roe Unit × GroupRosterStore :=
  match answers.add with
  | .error e => (.error e, roster)
  | .ok add => holdAdd K cards roster admission answers add

/-- A write that fails when `fails` says so; its failure is passed over. -/
def unlessFails (fails : Bool) (f : GroupDevice → GroupDevice) (device : GroupDevice) :
    GroupDevice :=
  if fails then device else f device

/-- Whether a signed add went out; a member who is in only gets the roster
again. -/
def admitNewcomer (device : GroupDevice) (admission : Admission) (answers : Admitting) :
    Roe Bool × GroupDevice :=
  match answers.signer with
  | .error e => (.error e, device)
  | .ok () =>
    if device.roster.isMember admission.groupId admission.memberIdentity then
      (.ok false, unlessFails answers.acceptedFails
        (·.updateInviteStatus admission.inviteNonce .accepted) device)
    else
      match admittedRoster K cards device.roster admission answers with
      | (.error e, roster) => (.error e, { device with roster })
      | (.ok (), roster) =>
        let device := unlessFails answers.acceptedFails
          (·.updateInviteStatus admission.inviteNonce .accepted) { device with roster }
        (.ok true, unlessFails answers.siblingsFails
          (·.expireOutboundInvitesTo admission.groupId admission.memberIdentity) device)

/-- The follow-up of an accept this device answers with its own add; when no
add went out, the invite is refused. -/
def admitInvitee (device : GroupDevice) (admission : Admission) (answers : Admitting) :
    Roe Bool × GroupDevice :=
  match device.loadPendingInvite admission.inviteNonce with
  | none => (.error "No invite of ours for this accept", device)
  | some pending =>
    if !pending.outbound ∨ pending.groupId ≠ admission.groupId ∨
        pending.inviteeIdentity ≠ admission.memberIdentity then
      (.error "No invite of ours for this accept", device)
    else if pending.status = .accepted then (.ok false, device) -- admitted once already
    else
      match admitNewcomer K cards device admission answers with
      | (.ok added, device) => (.ok added, device)
      | (.error e, device) =>
        (.error e, unlessFails answers.expiredFails
          (·.updateInviteStatus admission.inviteNonce .expired) device)

end Admit

/-! ## What an accept comes to -/

/-- The group `groupId`, held and not over, and our invite to `member` for
it, stored under `nonce`. -/
structure Ours (device : GroupDevice) (localAccount nonce member groupId : String)
    (invite : PendingGroupInvite) (metadata : GroupMetadata) : Prop where
  stored : device.loadPendingInvite nonce = some invite
  outbound : invite.outbound = true
  invitee : invite.inviteeIdentity = member
  group : invite.groupId = groupId
  held : device.roster.loadMetadata groupId = some metadata
  goesOn : metadata.syncState ≠ .dissolved
  localAccount : localAccount ≠ ""

/-- The invite has not run out yet. -/
def InTime (invite : PendingGroupInvite) (nowMs : Int) : Prop :=
  ¬ invite.expiresAt.any (· + kGroupInviteAcceptGraceMs < nowMs)

section Accept

variable {device : GroupDevice} {failing : List Bool} {nonce member groupId localAccount : String}
  {nowMs : Int} {invite : PendingGroupInvite} {metadata : GroupMetadata} {response : InviteResponsePayload}

/-- The first three writes of an add go through and the fourth, which closes
the member's other invites, fails. -/
def LeavesSiblings (failing : List Bool) : Prop := failing.take 4 = [false, false, false, true]

instance (failing : List Bool) : Decidable (LeavesSiblings failing) :=
  inferInstanceAs (Decidable (_ = _))

theorem cons_tail_of_head? {l rest : List Bool} {b : Bool} (hhead : l.head? ≠ some true)
    (h : l.tail = b :: rest) : l = false :: b :: rest := by
  cases l with
  | nil => cases h
  | cons a l =>
    cases a with
    | true => exact absurd rfl hhead
    | false => rw [← h, List.tail_cons]

/-- Rows but the one of `member` in `groupId` are the same. -/
def OthersStay (before after : GroupRosterStore) (groupId member : String) : Prop :=
  ∀ g other, ¬ (g = groupId ∧ other = member) → after.findMember g other = before.findMember g other

theorem othersStay_upsertMember (roster : GroupRosterStore) (groupId : String) (row : GroupRosterMember) :
    OthersStay roster (roster.upsertMember groupId row) groupId row.memberIdentity := by
  intro g other hother
  rw [GroupRosterStore.findMember, GroupRosterStore.roster_upsertMember]
  by_cases hg : g = groupId
  · have hne : row.memberIdentity ≠ other := fun h => hother ⟨hg, h.symm⟩
    subst hg
    rw [if_pos rfl, Std.ExtTreeMap.getElem?_insert]
    simp [hne, GroupRosterStore.findMember]
  · rw [if_neg hg]
    rfl

/-- The owner's add stops before the invite is answered, or goes through. -/
theorem addAsOwner_cases (hgroup : metadata.groupId = invite.groupId) :
    (∃ d, addAsOwner invite metadata member localAccount nowMs ⟨device, failing⟩ =
        (.error storeError, d) ∧ d.store.invites = device.invites ∧
        OthersStay device.roster d.store.roster invite.groupId member ∧ true ∈ failing) ∨
    (∃ rest, addAsOwner invite metadata member localAccount nowMs ⟨device, failing⟩ =
        (.ok .added, ⟨addInvited device invite metadata member localAccount nowMs, rest⟩)) ∨
    LeavesSiblings failing := by
  unfold addAsOwner
  have hothers := othersStay_upsertMember device.roster invite.groupId
    { memberIdentity := member, joinedAt := nowMs, addedBy := localAccount }
  rcases write_cases storeError (fun device : GroupDevice => { device with
      roster := device.roster.upsertMember invite.groupId
        { memberIdentity := member, joinedAt := nowMs, addedBy := localAccount } })
    device failing with ⟨rest, hfails, hrow⟩ | ⟨hhead₁, hrow⟩
  · left
    exact ⟨_, bind_of_error hrow, rfl, fun _ _ _ => rfl, hfails ▸ List.mem_cons_self⟩
  rw [bind_of_ok hrow]
  rcases write_cases storeError (fun device : GroupDevice => { device with
      roster := device.roster.upsertMetadata
        { metadata with rosterEpoch := u64 (metadata.rosterEpoch + 1) } })
    _ failing.tail with ⟨rest, hfails, hepoch⟩ | ⟨hhead₂, hepoch⟩
  · left
    refine ⟨_, bind_of_error hepoch, rfl, hothers, ?_⟩
    rw [cons_tail_of_head? hhead₁ hfails]
    simp
  rw [bind_of_ok hepoch]
  rcases write_cases storeError
    (fun device : GroupDevice => device.updateInviteStatus invite.inviteNonce .accepted)
    _ failing.tail.tail with ⟨rest, hfails, hstatus⟩ | ⟨hhead₃, hstatus⟩
  · left
    refine ⟨_, bind_of_error hstatus, rfl, hothers, ?_⟩
    rw [cons_tail_of_head? hhead₁ (cons_tail_of_head? hhead₂ hfails)]
    simp
  rw [bind_of_ok hstatus]
  right
  rcases write_cases storeError
    (fun device : GroupDevice => device.expireOutboundInvitesTo invite.groupId member)
    _ failing.tail.tail.tail with ⟨rest, hfails, -⟩ | ⟨-, hsiblings⟩
  · right
    rw [LeavesSiblings, cons_tail_of_head? hhead₁
      (cons_tail_of_head? hhead₂ (cons_tail_of_head? hhead₃ hfails))]
    rfl
  · left
    refine ⟨failing.tail.tail.tail.tail, ?_⟩
    rw [bind_apply, tryWrite, hsiblings]
    simp only [pure_apply, addInvited, Pbr.addAsOwner, hgroup]

theorem accept_refused (h : ∀ invite metadata, ¬ Ours device localAccount nonce member groupId invite metadata) :
    ∃ e, e ≠ kGroupInviteNotAllowedError ∧
      applyInviteAcceptToRoster nonce member groupId localAccount nowMs ⟨device, failing⟩ =
        (.error e, ⟨device, failing⟩) := by
  unfold applyInviteAcceptToRoster
  cases hinvite : device.loadPendingInvite nonce with
  | none => exact ⟨"Invite not found", by decide, by simp [bind_apply, hinvite]⟩
  | some invite =>
    cases hmeta : device.roster.loadMetadata invite.groupId with
    | none =>
      exact ⟨"Invite accept for a group this device does not hold", by decide,
        by simp [bind_apply, hinvite, hmeta]⟩
    | some metadata =>
      simp only [bind_apply, reads_apply, hinvite, hmeta]
      split
      · exact ⟨"Invite accept for a group this device does not hold", by decide, rfl⟩
      next hlocal =>
      split
      · exact ⟨kGroupDissolvedError, by decide, rfl⟩
      next hd =>
      unfold checkAcceptedInvite
      split
      · exact ⟨"Invite accept for an invite this device did not issue", by decide, rfl⟩
      next hout =>
      split
      · exact ⟨"Invite accept sender does not match invitee", by decide, rfl⟩
      next hinvitee =>
      split
      · exact ⟨"Invite accept names another group", by decide, rfl⟩
      next hgroup =>
      have hgroup : invite.groupId = groupId := Decidable.not_not.mp hgroup
      exact absurd ⟨hinvite, by simpa using hout, Decidable.not_not.mp hinvitee, hgroup,
        hgroup ▸ hmeta, hd, hlocal⟩ (h invite metadata)

namespace Ours

variable (h : Ours device localAccount nonce member groupId invite metadata)

include h

/-- An accept of an invite of ours goes to the checks of its status. -/
theorem accept_eq :
    applyInviteAcceptToRoster nonce member groupId localAccount nowMs ⟨device, failing⟩ =
      (do
        let checked ← checkAcceptedInvite invite member groupId nowMs
        match checked with
        | some accepted => pure accepted
        | none =>
          if metadata.ownerIdentity = localAccount then
            addAsOwner invite metadata member localAccount nowMs
          else
            let self ← reads fun device => .ok (device.roster.findMember invite.groupId localAccount)
            match self with
            | none => fail kGroupInviteNotAllowedError
            | some self =>
              if metadata.syncState ≠ .active ∨
                  !groupAllows .invite self.role metadata.policy.preset .member then
                fail kGroupInviteNotAllowedError
              else pure .signAdd : InviteWriting InviteAccepted) ⟨device, failing⟩ := by
  have hheld : device.roster.loadMetadata invite.groupId = some metadata := h.group ▸ h.held
  unfold applyInviteAcceptToRoster
  simp only [bind_apply, reads_apply, h.stored, hheld, if_neg h.localAccount, if_neg h.goesOn]

theorem accept_of_accepted (hstatus : invite.status = .accepted) :
    applyInviteAcceptToRoster nonce member groupId localAccount nowMs ⟨device, failing⟩ =
      (.ok .already, ⟨device, failing⟩) := by
  rw [h.accept_eq]
  simp [checkAcceptedInvite, bind_apply, h.outbound, h.invitee, h.group, hstatus]

theorem accept_of_closed (hstatus : invite.status ≠ .accepted) (hclosed : invite.status ≠ .pending) :
    applyInviteAcceptToRoster nonce member groupId localAccount nowMs ⟨device, failing⟩ =
      (.error "Invite is not pending", ⟨device, failing⟩) := by
  rw [h.accept_eq]
  simp [checkAcceptedInvite, bind_apply, h.outbound, h.invitee, h.group, hstatus, hclosed]

theorem accept_of_late (hstatus : invite.status = .pending) (hlate : ¬ InTime invite nowMs) :
    applyInviteAcceptToRoster nonce member groupId localAccount nowMs ⟨device, failing⟩ =
      (.error "Invite expired", (tryWrite storeError
        (·.updateInviteStatus invite.inviteNonce .expired) ⟨device, failing⟩).2) := by
  have hlate : invite.expiresAt.any (· + kGroupInviteAcceptGraceMs < nowMs) = true := Decidable.not_not.mp hlate
  rw [h.accept_eq]
  simp [checkAcceptedInvite, bind_apply, h.outbound, h.invitee, h.group, hstatus, hlate, tryWrite]

section

variable (hstatus : invite.status = .pending) (htime : InTime invite nowMs)
include hstatus htime

theorem accept_of_full (hfull : kMaxGroupMembers ≤ (device.roster.listMembers groupId).length) :
    applyInviteAcceptToRoster nonce member groupId localAccount nowMs ⟨device, failing⟩ =
      (.error kGroupFullError, (tryWrite storeError
        (·.updateInviteStatus invite.inviteNonce .expired) ⟨device, failing⟩).2) := by
  have htime : ¬ invite.expiresAt.any (· + kGroupInviteAcceptGraceMs < nowMs) = true := htime
  rw [h.accept_eq]
  simp [checkAcceptedInvite, bind_apply, h.outbound, h.invitee, h.group, hstatus, htime, tryWrite,
    hfull]

theorem accept_of_owner (hroom : (device.roster.listMembers groupId).length < kMaxGroupMembers)
    (howner : metadata.ownerIdentity = localAccount) :
    applyInviteAcceptToRoster nonce member groupId localAccount nowMs ⟨device, failing⟩ =
      addAsOwner invite metadata member localAccount nowMs ⟨device, failing⟩ := by
  have htime : ¬ invite.expiresAt.any (· + kGroupInviteAcceptGraceMs < nowMs) = true := htime
  rw [h.accept_eq]
  simp [checkAcceptedInvite, bind_apply, h.outbound, h.invitee, h.group, hstatus, htime,
    Nat.not_le.mpr hroom, howner]

/-- A member's or an admin's invite writes nothing yet. -/
theorem accept_of_member (hroom : (device.roster.listMembers groupId).length < kMaxGroupMembers)
    (howner : metadata.ownerIdentity ≠ localAccount) :
    ∃ answer, (answer = .ok .signAdd ∨ answer = .error kGroupInviteNotAllowedError) ∧
      applyInviteAcceptToRoster nonce member groupId localAccount nowMs ⟨device, failing⟩ =
        (answer, ⟨device, failing⟩) := by
  have htime : ¬ invite.expiresAt.any (· + kGroupInviteAcceptGraceMs < nowMs) = true := htime
  rw [h.accept_eq]
  simp only [checkAcceptedInvite, bind_apply, h.outbound, h.invitee, h.group, hstatus, htime,
    Nat.not_le.mpr hroom, howner, reads_apply, Bool.not_true, Bool.false_eq_true, if_false, ne_eq,
    not_true_eq_false, reduceCtorEq, ge_iff_le, pure_apply]
  cases device.roster.findMember groupId localAccount with
  | none => exact ⟨_, .inr rfl, rfl⟩
  | some self =>
    dsimp only
    split
    · exact ⟨_, .inr rfl, rfl⟩
    · exact ⟨_, .inl rfl, rfl⟩

end

end Ours

/-! ### Every way an accept can go -/

/-- An open invite of ours, in time, in a group with room. -/
structure Open (device : GroupDevice) (localAccount nonce member groupId : String) (nowMs : Int)
    (invite : PendingGroupInvite) (metadata : GroupMetadata) : Prop extends
    Ours device localAccount nonce member groupId invite metadata where
  pending : invite.status = .pending
  inTime : InTime invite nowMs
  room : (device.roster.listMembers groupId).length < kMaxGroupMembers

/-- What an accept is answered and the device after it. -/
inductive AcceptStep (device : GroupDevice) (localAccount nonce member groupId : String)
    (nowMs : Int) (failing : List Bool) : Roe InviteAccepted → GroupDevice → Prop
  /-- Nothing is written: there is no such invite, or it is closed. -/
  | refused (e : String)
      (h : ∀ invite metadata,
        Ours device localAccount nonce member groupId invite metadata → invite.status ≠ .pending) :
      AcceptStep device localAccount nonce member groupId nowMs failing (.error e) device
  | already (invite : PendingGroupInvite) (metadata : GroupMetadata)
      (h : Ours device localAccount nonce member groupId invite metadata)
      (hstatus : invite.status = .accepted) :
      AcceptStep device localAccount nonce member groupId nowMs failing (.ok .already) device
  /-- The invite ran out, there is no room, or it is no longer ours to make. -/
  | closed (e : String) (after : GroupDevice) (invite : PendingGroupInvite)
      (metadata : GroupMetadata)
      (h : Ours device localAccount nonce member groupId invite metadata)
      (hstatus : invite.status = .pending)
      (hwhy : InTime invite nowMs → metadata.ownerIdentity = localAccount →
        kMaxGroupMembers ≤ (device.roster.listMembers groupId).length)
      (hafter : after = device ∨ after = device.updateInviteStatus nonce .expired) :
      AcceptStep device localAccount nonce member groupId nowMs failing (.error e) after
  | signAdd (invite : PendingGroupInvite) (metadata : GroupMetadata)
      (h : Open device localAccount nonce member groupId nowMs invite metadata)
      (howner : metadata.ownerIdentity ≠ localAccount) :
      AcceptStep device localAccount nonce member groupId nowMs failing (.ok .signAdd) device
  /-- A write of the owner's add failed. -/
  | broken (after : GroupDevice) (invite : PendingGroupInvite) (metadata : GroupMetadata)
      (h : Open device localAccount nonce member groupId nowMs invite metadata)
      (hinvites : after.invites = device.invites)
      (hothers : OthersStay device.roster after.roster groupId member)
      (hfails : true ∈ failing) :
      AcceptStep device localAccount nonce member groupId nowMs failing (.error storeError) after
  | added (invite : PendingGroupInvite) (metadata : GroupMetadata)
      (h : Open device localAccount nonce member groupId nowMs invite metadata) :
      AcceptStep device localAccount nonce member groupId nowMs failing (.ok .added)
        (addInvited device invite metadata member localAccount nowMs)

theorem AcceptStep.of_added {after : GroupDevice}
    (h : AcceptStep device localAccount nonce member groupId nowMs failing (.ok .added) after) :
    ∃ invite metadata, Open device localAccount nonce member groupId nowMs invite metadata ∧
      after = addInvited device invite metadata member localAccount nowMs := by
  cases h with
  | added invite metadata hopen => exact ⟨invite, metadata, hopen, rfl⟩

theorem AcceptStep.of_signAdd {after : GroupDevice}
    (h : AcceptStep device localAccount nonce member groupId nowMs failing (.ok .signAdd) after) :
    ∃ invite metadata, Open device localAccount nonce member groupId nowMs invite metadata := by
  cases h with
  | signAdd invite metadata hopen howner => exact ⟨invite, metadata, hopen⟩

theorem store_tryWrite (e : String) (f : GroupDevice → GroupDevice) (device : GroupDevice)
    (failing : List Bool) : (tryWrite e f ⟨device, failing⟩).2.store = device ∨
      (tryWrite e f ⟨device, failing⟩).2.store = f device := by
  unfold tryWrite
  rcases write_cases e f device failing with ⟨rest, -, hwrite⟩ | ⟨-, hwrite⟩
  · left
    rw [hwrite]
  · right
    rw [hwrite]

theorem applyInviteAccepted_of_ok {actor : String} {accepted : InviteAccepted} {after : Faulty GroupDevice}
    (h : applyInviteAcceptToRoster response.inviteNonce actor response.groupId localAccount nowMs
      ⟨device, failing⟩ = (.ok accepted, after)) :
    applyInviteAccepted localAccount response actor nowMs ⟨device, failing⟩ = (.ok accepted, after) := by
  rw [applyInviteAccepted, h]

theorem applyInviteAccepted_of_error {actor e : String}
    {after : Faulty GroupDevice} (he : e ≠ kGroupInviteNotAllowedError)
    (h : applyInviteAcceptToRoster response.inviteNonce actor response.groupId localAccount nowMs
      ⟨device, failing⟩ = (.error e, after)) :
    applyInviteAccepted localAccount response actor nowMs ⟨device, failing⟩ = (.error e, after) := by
  rw [applyInviteAccepted, h]
  dsimp only
  rw [if_neg he]

/-- Every accept goes one of these ways, while no closing of the member's
other invites fails. -/
theorem acceptStep {actor : String}
    (hkeyed : Keyed (·.inviteNonce) device.invites) (hspared : ¬ LeavesSiblings failing) :
    AcceptStep device localAccount response.inviteNonce actor response.groupId nowMs failing
      (applyInviteAccepted localAccount response actor nowMs ⟨device, failing⟩).1
      (applyInviteAccepted localAccount response actor nowMs ⟨device, failing⟩).2.store := by
  by_cases hours : ∃ invite metadata,
      Ours device localAccount response.inviteNonce actor response.groupId invite metadata
  swap
  · have hnone : ∀ invite metadata,
        ¬ Ours device localAccount response.inviteNonce actor response.groupId invite metadata :=
      fun invite metadata h => hours ⟨invite, metadata, h⟩
    obtain ⟨e, he, hrun⟩ := accept_refused hnone
    rw [applyInviteAccepted_of_error he hrun]
    exact .refused e fun invite metadata h => absurd h (hnone invite metadata)
  obtain ⟨invite, metadata, h⟩ := hours
  have honly : ∀ other metadata', Ours device localAccount response.inviteNonce actor
      response.groupId other metadata' → other = invite := fun other metadata' h' =>
    Option.mem_unique h'.stored h.stored
  have hnonce : invite.inviteNonce = response.inviteNonce := hkeyed _ _ h.stored
  by_cases haccepted : invite.status = .accepted
  · rw [applyInviteAccepted_of_ok (h.accept_of_accepted haccepted)]
    exact .already invite metadata h haccepted
  by_cases hpending : invite.status = .pending
  swap
  · rw [applyInviteAccepted_of_error (by decide) (h.accept_of_closed haccepted hpending)]
    exact .refused _ fun other metadata' h' => honly other metadata' h' ▸ hpending
  by_cases htime : InTime invite nowMs
  swap
  · rw [applyInviteAccepted_of_error (by decide) (h.accept_of_late hpending htime)]
    refine .closed _ _ invite metadata h hpending (fun h' => absurd h' htime) ?_
    rw [hnonce]
    exact store_tryWrite _ _ _ _
  by_cases hroom : (device.roster.listMembers response.groupId).length < kMaxGroupMembers
  swap
  · have hfull := Nat.not_lt.mp hroom
    rw [applyInviteAccepted_of_error (by decide) (h.accept_of_full hpending htime hfull)]
    refine .closed _ _ invite metadata h hpending (fun _ _ => hfull) ?_
    rw [hnonce]
    exact store_tryWrite _ _ _ _
  by_cases howner : metadata.ownerIdentity = localAccount
  · have hgroup : metadata.groupId = invite.groupId :=
      (GroupRosterStore.groupId_of_loadMetadata h.held).trans h.group.symm
    have hrun := @Ours.accept_of_owner _ failing _ _ _ _ _ _ _ h hpending htime hroom howner
    rcases addAsOwner_cases
      hgroup with
      ⟨d, hadd, hinvites, hothers, hfails⟩ | ⟨rest, hadd⟩ | hsiblings
    · rw [applyInviteAccepted_of_error (by decide) (hrun.trans hadd)]
      exact .broken d.store invite metadata ⟨h, hpending, htime, hroom⟩ hinvites
        (h.group ▸ hothers) hfails
    · rw [applyInviteAccepted_of_ok (hrun.trans hadd)]
      exact .added invite metadata ⟨h, hpending, htime, hroom⟩
    · exact absurd hsiblings hspared
  · obtain ⟨answer, rfl | rfl, hrun⟩ := h.accept_of_member hpending htime hroom howner
    · rw [applyInviteAccepted_of_ok hrun]
      exact .signAdd invite metadata ⟨h, hpending, htime, hroom⟩ howner
    · rw [applyInviteAccepted, hrun]
      dsimp only
      rw [if_pos rfl]
      exact .closed _ _ invite metadata h hpending (fun _ h' => absurd h' howner)
        (store_tryWrite _ _ _ _)

end Accept

/-! ### Every way an admission can go -/

/-- Our invite an admission is for. -/
structure Admits (device : GroupDevice) (admission : Admission) (invite : PendingGroupInvite) :
    Prop where
  stored : device.loadPendingInvite admission.inviteNonce = some invite
  outbound : invite.outbound = true
  group : invite.groupId = admission.groupId
  invitee : invite.inviteeIdentity = admission.memberIdentity
  pending : invite.status = .pending

section Admit

variable {K : GroupCrypto} {cards : GroupCardLookup} {device : GroupDevice}
  {admission : Admission} {answers : Admitting}

/-- What an admission comes to and the device after it. -/
inductive AdmitStep (K : GroupCrypto) (cards : GroupCardLookup) (device : GroupDevice)
    (admission : Admission) (answers : Admitting) : Roe Bool → GroupDevice → Prop
  /-- No open invite is there for it. -/
  | idle (result : Roe Bool) (h : result ≠ .ok true) :
      AdmitStep K cards device admission answers result device
  /-- The member is in. -/
  | resynced (invite : PendingGroupInvite) (h : Admits device admission invite) :
      AdmitStep K cards device admission answers (.ok false)
        (device.updateInviteStatus admission.inviteNonce .accepted)
  /-- No add went out; whatever was held for it, the invite is at most closed. -/
  | refused (e : String) (roster : GroupRosterStore) (after : GroupDevice)
      (invite : PendingGroupInvite) (h : Admits device admission invite)
      (hroster : roster = device.roster ∨
        ∃ e, admittedRoster K cards device.roster admission answers = (.error e, roster))
      (hafter : after = { device with roster } ∨
        after = GroupDevice.updateInviteStatus { device with roster } admission.inviteNonce
          .expired) :
      AdmitStep K cards device admission answers (.error e) after
  | added (roster : GroupRosterStore) (invite : PendingGroupInvite)
      (h : Admits device admission invite)
      (hroster : admittedRoster K cards device.roster admission answers = (.ok (), roster)) :
      AdmitStep K cards device admission answers (.ok true)
        ((GroupDevice.updateInviteStatus { device with roster } admission.inviteNonce
          .accepted).expireOutboundInvitesTo admission.groupId admission.memberIdentity)

theorem AdmitStep.of_added {after : GroupDevice} (h : AdmitStep K cards device admission answers (.ok true) after) :
    ∃ roster invite, Admits device admission invite ∧
      admittedRoster K cards device.roster admission answers = (.ok (), roster) ∧
      after = (GroupDevice.updateInviteStatus { device with roster } admission.inviteNonce
        .accepted).expireOutboundInvitesTo admission.groupId admission.memberIdentity := by
  cases h with
  | idle result hresult => exact absurd rfl hresult
  | added roster invite hadmits hroster => exact ⟨roster, invite, hadmits, hroster, rfl⟩

theorem unlessFails_cases (fails : Bool) (f : GroupDevice → GroupDevice) (device : GroupDevice) :
    unlessFails fails f device = device ∨ unlessFails fails f device = f device := by
  cases fails with
  | true => exact .inl rfl
  | false => exact .inr rfl

/-- Every admission goes one of these ways, while its invite is open or
accepted and the writes that close it do not fail. -/
theorem admitStep (haccepted : answers.acceptedFails = false) (hsiblings : answers.siblingsFails = false)
    (hopen : ∀ invite, device.loadPendingInvite admission.inviteNonce = some invite →
      invite.status = .pending ∨ invite.status = .accepted) :
    AdmitStep K cards device admission answers (admitInvitee K cards device admission answers).1
      (admitInvitee K cards device admission answers).2 := by
  unfold admitInvitee
  cases hstored : device.loadPendingInvite admission.inviteNonce with
  | none => exact .idle _ (by simp)
  | some invite =>
  dsimp only
  by_cases hforeign : !invite.outbound ∨ invite.groupId ≠ admission.groupId ∨
      invite.inviteeIdentity ≠ admission.memberIdentity
  · rw [if_pos hforeign]
    exact .idle _ (by simp)
  rw [if_neg hforeign]
  by_cases hstatus : invite.status = .accepted
  · rw [if_pos hstatus]
    exact .idle _ (by simp)
  rw [if_neg hstatus]
  have h : Admits device admission invite := by
    simp only [Bool.not_eq_true', not_or, Bool.not_eq_false, ne_eq, Decidable.not_not] at hforeign
    exact ⟨hstored, hforeign.1, hforeign.2.1, hforeign.2.2,
      (hopen invite hstored).resolve_right hstatus⟩
  unfold admitNewcomer
  cases answers.signer with
  | error e =>
    have hafter := unlessFails_cases answers.expiredFails
      (·.updateInviteStatus admission.inviteNonce .expired) device
    exact .refused e device.roster _ invite h (.inl rfl) hafter
  | ok _ =>
  dsimp only
  by_cases hin : device.roster.isMember admission.groupId admission.memberIdentity = true
  · rw [if_pos hin, haccepted]
    exact .resynced invite h
  rw [if_neg hin]
  cases hadd : admittedRoster K cards device.roster admission answers with
  | mk result roster =>
  cases result with
  | error e =>
    have hafter := unlessFails_cases answers.expiredFails
      (·.updateInviteStatus admission.inviteNonce .expired) { device with roster }
    exact .refused e roster _ invite h (.inr ⟨e, hadd⟩) hafter
  | ok _ =>
  dsimp only
  rw [haccepted, hsiblings]
  exact .added roster invite h hadd

end Admit

end InviteAccepts

end Pbr
