import PpBrowser.Messaging.GroupRosterFrame
import PpBrowser.Messaging.GroupRosterOwners
import PpBrowser.Messaging.RelayReceivePipeline

/-!
# GroupEnded — who puts us out, and what comes after the end

A refusal of our accept is taken from whoever once invited us, whether or
not it owns the group and whether or not we were added since: it ends the
group or puts us out of it, and takes an ended group for one we were
removed from. Without such a refusal a group that ended stays as it ended,
whatever arrives.
-/

namespace Pbr

open Lib GroupRosterStore RelayReceivePipeline

/-! ## A group that is over -/

/-- The group is over, and holds nothing that `base` did not. -/
structure Over (g : String) (base store : GroupRosterStore) : Prop where
  dissolved : ∃ m, store.loadMetadata g = some m ∧ m.syncState = .dissolved ∧
    m.rosterStatementJson = (base.loadMetadata g).bind (·.rosterStatementJson)
  rows : ∀ (i : String) row,
    (store.roster g)[i]? = some row → (base.roster g)[i]? = some row
  changes : ∀ (id : String) row,
    (store.heldRows g)[id]? = some row → (base.heldRows g)[id]? = some row

namespace Over

variable {g g' : String} {base store after : GroupRosterStore}

theorem of_dissolved {m : GroupMetadata} (hm : base.loadMetadata g = some m)
    (hd : m.syncState = .dissolved) : Over g base base :=
  ⟨⟨m, hm, hd, by rw [hm]; rfl⟩, fun _ _ h => h, fun _ _ h => h⟩

theorem same (h : Over g base store) (hsame : Writes.Same g after store) : Over g base after := by
  obtain ⟨hmeta, hroster, hheld⟩ := hsame
  refine ⟨?_, ?_, ?_⟩
  · rw [hmeta]
    exact h.dissolved
  · rw [hroster]
    exact h.rows
  · rw [hheld]
    exact h.changes

theorem writes (h : Over g base store) (hw : Writes g' store after) (hne : g' ≠ g) :
    Over g base after := h.same (hw.other (Ne.symm hne))

theorem deleted (h : Over g base store) (ids : List String) : Over g base (store.deleteGroupChanges g ids) := by
  refine ⟨?_, ?_, ?_⟩
  · rw [loadMetadata_deleteGroupChanges]
    exact h.dissolved
  · rw [roster_deleteGroupChanges]
    exact h.rows
  · intro id row hrow
    rw [heldRows_deleteGroupChanges, if_pos rfl, getElem?_eraseAll] at hrow
    by_cases hid : id ∈ ids
    · simp [hid] at hrow
    · exact h.changes id row (by simpa [hid] using hrow)

theorem follows (h : Over g base store) (hf : Follows g' store after) : Over g base after := by
  by_cases hg : g' = g
  · subst hg
    obtain ⟨m, hm, hd, -⟩ := h.dissolved
    obtain ⟨ids, rfl | rfl⟩ := hf.stays m hm hd
    · exact h
    · exact h.deleted ids
  · exact h.writes hf.writes hg

variable {K : GroupCrypto} {cards : GroupCardLookup} {now : Int} {s : GroupRosterStatement}
  {reply : RosterReply}

section

variable (h : Over g base store)
include h

theorem keepAndCatchUp {kept : Bool} {applied : GroupViewApplied}
    (hrun : Pbr.keepAndCatchUp K store s cards now = .ok (kept, applied, after)) : Over g base after := by
  obtain ⟨⟨k, mid⟩, hkeep, hrun⟩ := roe_bind_ok.mp hrun
  have hmid : Over g base mid := h.follows (follows_keepStatement hkeep)
  cases k with
  | false =>
    cases hrun
    exact hmid
  | true =>
    obtain ⟨result, hview, hrun⟩ := roe_bind_ok.mp hrun
    cases hrun
    exact hmid.follows (follows_applyView hview)

theorem holdCarried (changes : List GroupChange) (lineShown : Bool) :
    Over g base (Pbr.holdCarried K store changes cards now lineShown) := by
  unfold Pbr.holdCarried
  generalize changes.map _ = l
  induction l generalizing store with
  | nil => exact h
  | cons c l ih => exact ih (h.follows (follows_holdChange c lineShown))

theorem receiveChange {change : GroupChange} {taken : ChangeHeld × GroupViewApplied}
    (hrun : Pbr.receiveChange K store change cards now = .ok (taken, after)) : Over g base after := by
  unfold Pbr.receiveChange at hrun
  have hheld := h.follows (@follows_holdChange K _ cards now change false)
  cases hresult : holdChange K store change cards now false with
  | mk held mid =>
  rw [hresult] at hrun hheld
  dsimp only at hrun hheld
  by_cases hrefused : held = .refused
  · rw [if_pos hrefused] at hrun
    cases hrun
    exact hheld
  · rw [if_neg hrefused] at hrun
    obtain ⟨result, hview, hrun⟩ := roe_bind_ok.mp hrun
    cases hrun
    exact hheld.follows (follows_applyView hview)

theorem takeReply {localIdentity : String} {listed : Bool}
    (hrun : Pbr.takeReply K store reply s localIdentity cards now = .ok (listed, after)) : Over g base after := by
  obtain ⟨⟨kept, mid⟩, hkeep, hrun⟩ := roe_bind_ok.mp hrun
  have hheld := @Over.holdCarried _ _ _ K cards now (h.follows (follows_keepStatement hkeep))
    reply.changes false
  obtain ⟨⟨applied, last⟩, hview, hrun⟩ := roe_bind_ok.mp hrun
  have hlast := hheld.follows (follows_applyView hview)
  dsimp only at hrun
  split at hrun
  · cases hrun
    exact hlast
  · cases hrun
    exact hlast

/-- A reply to a group that is over is ignored; to another it writes what it
carries. -/
theorem applyReply {localIdentity replier : String} {outcome : ReplyOutcome}
    (hrun : Pbr.applyReply K store reply localIdentity replier cards now = .ok (outcome, after)) :
    Over g base after := by
  obtain ⟨m, hm, hrun⟩ := roe_bind_ok.mp hrun
  rw [metadataOf_eq_ok] at hm
  split at hrun
  · cases hrun
    exact h
  next hopen =>
  have hd : m.syncState ≠ .dissolved := fun hd => hopen (.inl hd)
  have hne : reply.groupId ≠ g := by
    rintro rfl
    obtain ⟨m', hm', hd', -⟩ := h.dissolved
    rw [hm] at hm'
    cases hm'
    exact hd hd'
  have settle : ∀ {store after : GroupRosterStore} {state : GroupSyncState}
      {outcome : ReplyOutcome}, Over g base store →
      settleReply store reply.groupId state = .ok (outcome, after) → Over g base after := by
    intro store after state outcome h hsettle
    obtain ⟨m, hm, rfl⟩ := writes_settleReply hsettle
    have hgroup : m.groupId = reply.groupId := groupId_of_loadMetadata hm
    exact h.writes (Writes.refl.metadata _ hgroup) hne
  split at hrun
  · -- without a statement
    split at hrun
    · exact settle h hrun
    · cases hrun
      exact h
  next s _ =>
    split at hrun
    · -- a dissolve
      split at hrun
      next ended hended =>
        cases hrun
        exact h.follows (follows_applyDissolved hended)
      next =>
        cases hrun
        exact h
    split at hrun
    · cases hrun
      exact h
    · obtain ⟨⟨listed, mid⟩, htake, hrun⟩ := roe_bind_ok.mp hrun
      exact settle (h.takeReply htake) hrun

end

end Over

/-! ## Refusals -/

/-- The refusal is of an invite this device received from its sender, for
the group, and says something new of it. -/
def Taken (device : GroupDevice) (g : String) (refused : InviteResponsePayload)
    (actorIdentity : String) : Prop :=
  refused.groupId = g ∧
    (∃ pending, device.loadPendingInvite refused.inviteNonce = some pending ∧
      pending.outbound = false ∧ pending.inviterIdentity = actorIdentity ∧ pending.groupId = g) ∧
    (refused.reason = kInviteRefusedGroupDissolved →
      ∃ m, device.roster.loadMetadata g = some m ∧ m.syncState ≠ .dissolved)

section Refused

variable {device : GroupDevice} {g : String} {refused : InviteResponsePayload}
  {actor localAccount : String}

@[simp] theorem roster_updateInviteStatus (nonce : String) (status : InviteStatus) :
    (device.updateInviteStatus nonce status).roster = device.roster := rfl

theorem exists_endGroup {store : GroupRosterStore} {m : GroupMetadata}
    (hm : store.loadMetadata g = some m) (hd : m.syncState ≠ .dissolved) (ending : GroupEnding) :
    ∃ ended, store.endGroup g ending = some ended ∧ ended.roster g = ∅ := by
  unfold endGroup
  rw [hm]
  dsimp only
  rw [if_neg hd]
  exact ⟨_, rfl, (rowsOf_erase _ _ _).trans (if_pos rfl)⟩

theorem endGroup_of_over {store : GroupRosterStore}
    (h : ∀ m, store.loadMetadata g = some m → m.syncState = .dissolved) (ending : GroupEnding) :
    store.endGroup g ending = none := by
  unfold endGroup
  cases hm : store.loadMetadata g with
  | none => rfl
  | some m =>
    dsimp only
    rw [if_pos (h m hm)]

theorem writes_dropGroup (store : GroupRosterStore) : Writes g store (dropGroup store g localAccount) := by
  have hgone : Writes g store
      (if localAccount = "" then store else store.removeMember g localAccount) := by
    split
    · exact .refl
    · exact Writes.refl.gone _
  unfold dropGroup
  dsimp only
  split
  · exact hgone
  next m hm =>
    have hgroup : m.groupId = g := groupId_of_loadMetadata hm
    exact hgone.metadata _ hgroup

theorem writes_applyInviteRefused : Writes refused.groupId device.roster
      (applyInviteRefused device refused actor localAccount).2.roster := by
  unfold applyInviteRefused
  split
  · exact .refl
  split
  · exact .refl
  dsimp only
  split
  · unfold GroupDevice.endGroup
    rw [roster_updateInviteStatus]
    cases hended : device.roster.endGroup refused.groupId { ownerIdentity := actor } with
    | none => exact .refl
    | some ended => exact Writes.refl.ended _ hended
  · exact writes_dropGroup _

theorem same_of_not_taken (h : ¬ Taken device g refused actor) :
    Writes.Same g (applyInviteRefused device refused actor localAccount).2.roster device.roster := by
  by_cases hg : g = refused.groupId
  swap
  · exact writes_applyInviteRefused.other hg
  subst hg
  unfold applyInviteRefused
  split
  · exact ⟨rfl, rfl, rfl⟩
  next pending hpending =>
  split
  · exact ⟨rfl, rfl, rfl⟩
  next hmatch =>
  simp only [not_or, Bool.not_eq_true, not_not] at hmatch
  -- the invite matches: what is left is a dissolve of a group not held, or over
  have hsaid : refused.reason = kInviteRefusedGroupDissolved ∧
      ∀ m, device.roster.loadMetadata refused.groupId = some m → m.syncState = .dissolved := by
    have hnews : ¬ (refused.reason = kInviteRefusedGroupDissolved →
        ∃ m, device.roster.loadMetadata refused.groupId = some m ∧ m.syncState ≠ .dissolved) :=
      fun hnews => h ⟨rfl, ⟨pending, hpending, hmatch⟩, hnews⟩
    obtain ⟨hreason, hnone⟩ := Classical.not_imp.mp hnews
    exact ⟨hreason, fun m hm => by_contra fun hd => hnone ⟨m, hm, hd⟩⟩
  dsimp only
  rw [if_pos hsaid.1]
  unfold GroupDevice.endGroup
  rw [roster_updateInviteStatus, endGroup_of_over hsaid.2]
  exact ⟨rfl, rfl, rfl⟩

theorem not_isMember_of_taken (hlocal : localAccount ≠ "") (h : Taken device g refused actor) :
    (applyInviteRefused device refused actor localAccount).2.roster.isMember g localAccount = false := by
  obtain ⟨rfl, ⟨pending, hpending, hmatch⟩, hnews⟩ := h
  unfold applyInviteRefused
  rw [hpending]
  dsimp only
  rw [if_neg (by simp [hmatch])]
  by_cases hreason : refused.reason = kInviteRefusedGroupDissolved
  · obtain ⟨m, hm, hd⟩ := hnews hreason
    obtain ⟨ended, hended, hempty⟩ := exists_endGroup hm hd { ownerIdentity := actor }
    rw [if_pos hreason]
    unfold GroupDevice.endGroup
    rw [roster_updateInviteStatus, hended]
    show ended.isMember refused.groupId localAccount = false
    simp [isMember, findMember, hempty]
  · rw [if_neg hreason, roster_updateInviteStatus]
    show (dropGroup device.roster refused.groupId localAccount).isMember _ _ = false
    unfold dropGroup
    simp only [if_neg hlocal]
    split <;> simp

end Refused

/-! ## What arrives for a group that is over -/

section Handlers

variable {pipeline : RelayReceivePipeline} {g : String} {base : GroupRosterStore}
  {device : GroupDevice} {now : Int} {actor : String}

theorem follows_markRemovedHere (device : GroupDevice) (g : String) :
    Follows g device.roster (markRemovedHere device g).roster := by
  unfold markRemovedHere
  split
  · exact .refl
  next m hm =>
  split
  next hactive =>
    have hgroup : m.groupId = g := groupId_of_loadMetadata hm
    exact .of_going hm (by simp [hactive]) (Writes.refl.metadata _ hgroup)
  · exact .refl

theorem follows_finishView (g : String) (applied : GroupViewApplied) :
    Follows g device.roster (pipeline.finishView device g applied).roster := by
  unfold finishView
  split
  · exact .refl
  split
  · exact follows_markRemovedHere device g
  · exact .refl

namespace Over

section

variable (h : Over g base device.roster)
include h

theorem finishView (groupId : String) (applied : GroupViewApplied) :
    Over g base (pipeline.finishView device groupId applied).roster :=
  h.follows (follows_finishView groupId applied)

theorem catchUpOn (s : GroupRosterStatement) : Over g base (pipeline.catchUpOn device now s).2.roster := by
  unfold RelayReceivePipeline.catchUpOn
  split
  · exact h
  next hrun =>
    have hafter := h.keepAndCatchUp hrun
    exact finishView hafter s.groupId _

theorem keepCarriedStatement (s : Option GroupRosterStatement) :
    Over g base (pipeline.keepCarriedStatement device now s).roster := by
  unfold RelayReceivePipeline.keepCarriedStatement
  split
  · exact h
  · exact h.catchUpOn _

theorem applyJoinBundle {joined : MemberJoinedPayload} {nonce : String}
    {s : Option GroupRosterStatement} {changes : List GroupChange} (hne : joined.groupId ≠ g) :
    Over g base (pipeline.applyJoinBundle device now joined nonce s changes actor).2.roster := by
  unfold RelayReceivePipeline.applyJoinBundle
  split
  · exact h
  split
  · exact h
  split
  · split
    · exact h
    split
    · exact h
    next hrun => exact h.writes (writes_applyMemberJoined hrun) hne
  dsimp only
  split
  · exact h
  split
  · exact h
  next hkeep =>
  have hheld := @Over.holdCarried _ _ _ pipeline.crypto pipeline.accountCards now
    (h.follows (follows_keepStatement hkeep)) (changes.filter (·.groupId = joined.groupId)) true
  split
  · exact hheld
  next hview =>
  have hlast := hheld.follows (follows_applyView hview)
  split
  · exact hlast
  · exact finishView hlast joined.groupId _

end

variable (hlocal : pipeline.localAccount ≠ "") (hg : g ≠ "")
  (hout : (base.roster g)[pipeline.localAccount]? = none)

include hout in
theorem not_isMember (h : Over g base device.roster) : device.roster.isMember g pipeline.localAccount = false := by
  unfold isMember findMember
  cases hrow : (device.roster.roster g)[pipeline.localAccount]? with
  | none => rfl
  | some row =>
    have := h.rows _ row hrow
    simp [hout] at this

include hlocal hg hout in
theorem ignores (h : Over g base device.roster) : pipeline.ignores device g = true := by
  unfold RelayReceivePipeline.ignores
  simp [hlocal, hg, h.not_isMember hout]

include hlocal hg hout in
/-- A handler that first asks whether we are in the group leaves one that is
over. -/
theorem unless_ignored {groupId : String} {handled : Handled} (h : Over g base device.roster)
    (hrun : groupId ≠ g → Over g base handled.2.roster) :
    Over g base (if pipeline.ignores device groupId then (.ok (), device) else handled).2.roster := by
  by_cases hgroup : groupId = g
  · subst hgroup
    rw [if_pos (h.ignores hlocal hg hout)]
    exact h
  · split
    · exact h
    · exact hrun hgroup

theorem applyInviteAccepted (h : Over g base device.roster) (response : InviteResponsePayload) :
    Over g base (pipeline.applyInviteAccepted device now response actor).2.roster := by
  have hchecked : ∀ (invite : PendingGroupInvite) member group,
      (checkAcceptedInvite device invite member group now).2.roster = device.roster := by
    intro invite member group
    unfold checkAcceptedInvite
    split_ifs <;> rfl
  have haccept : Over g base (applyInviteAcceptToRoster device response.inviteNonce actor
      response.groupId pipeline.localAccount now).2.roster := by
    unfold applyInviteAcceptToRoster
    split
    · exact h
    next invite _ =>
    split
    · exact h
    next m hm =>
    split
    · exact h
    split
    · exact h
    next hd =>
    have hsame := hchecked invite actor response.groupId
    split
    next hcheck =>
      rw [hcheck] at hsame
      exact hsame ▸ h
    next hcheck =>
      rw [hcheck] at hsame
      exact hsame ▸ h
    next hcheck =>
      rw [hcheck] at hsame
      dsimp only at hsame ⊢
      split
      · -- the owner adds the member: the group goes on
        have hgroup : m.groupId = invite.groupId := groupId_of_loadMetadata hm
        have hadd := hgroup ▸ @writes_addAsOwner device.roster now m actor
          pipeline.localAccount
        have := h.follows (Follows.of_going hm hd hadd)
        show Over g base (addAsOwner _ _ _ _ _)
        rw [hsame]
        exact this
      · split
        · exact hsame ▸ h
        · split <;> exact hsame ▸ h
  unfold RelayReceivePipeline.applyInviteAccepted
  split
  next haccepted =>
    rw [haccepted] at haccept
    exact haccept
  next haccepted =>
    rw [haccepted] at haccept
    split
    · exact haccept
    · split <;> exact haccept

theorem applyGroupInvite (h : Over g base device.roster) (invite : GroupInvitePayload) :
    Over g base (pipeline.applyGroupInvite device invite actor).2.roster := by
  unfold RelayReceivePipeline.applyGroupInvite
  split
  · exact h
  dsimp only
  split_ifs
  · exact h
  · exact h
  · exact h
  · exact h
  · split <;> exact h

include hlocal hg hout in
/-- Every membership message leaves a group that is over, but for a refusal
that is taken. -/
theorem applyInbound (h : Over g base device.roster) (control : MembershipControl)
    (hrefused : ∀ refused, control = .groupInviteRefused refused → ¬ Taken device g refused actor) :
    Over g base (pipeline.applyInboundMembershipMessage device now actor control).2.roster := by
  cases control with
  | groupInvite invite => exact h.applyGroupInvite invite
  | groupInviteAccept response => exact h.applyInviteAccepted response
  | groupInviteDecline response =>
    show Over g base (applyInviteDeclineToRoster _ _ _ _).2.roster
    unfold applyInviteDeclineToRoster
    split
    · exact h
    · split_ifs <;> exact h
  | groupInviteRefused refused => exact h.same (same_of_not_taken (hrefused refused rfl))
  | memberJoined joined nonce s changes =>
    apply h.unless_ignored hlocal hg hout
    intro hne
    split
    · exact h.applyJoinBundle hne
    split
    · exact h
    next hrun => exact (h.writes (writes_applyMemberJoined hrun) hne).keepCarriedStatement s
  | ownerTransferred transferred =>
    apply h.unless_ignored hlocal hg hout
    intro hne
    split
    · exact h
    next hrun => exact h.writes (writes_applyOwnerTransferred hrun) hne
  | groupChange change =>
    show Over g base (pipeline.applyGroupChange _ _ _ _).2.roster
    unfold applyGroupChange
    split
    · exact h
    split
    · exact h
    split
    · exact h
    next hrun =>
    have hafter := h.receiveChange hrun
    dsimp only
    split
    · exact hafter
    · exact finishView hafter change.groupId _
  | memberRemoved removed s =>
    apply h.unless_ignored hlocal hg hout
    intro hne
    split
    · exact h
    next hrun =>
    have hkept := @Over.keepCarriedStatement pipeline _ _ { device with roster := _ } now
      (h.writes (writes_applyMemberRemoved hrun) hne) s
    dsimp only
    split
    · exact hkept.follows (follows_markRemovedHere _ removed.groupId)
    · exact hkept
  | groupRenamed renamed =>
    apply h.unless_ignored hlocal hg hout
    intro hne
    split
    · exact h
    next hrun => exact h.writes (writes_applyGroupRenamed hrun) hne
  | groupRosterStatement s =>
    show Over g base (pipeline.applyRosterStatement _ _ _ _).2.roster
    unfold applyRosterStatement
    split
    · exact h
    · exact h.catchUpOn s
  | groupSettingChanged groupId setting s =>
    show Over g base (pipeline.applyGroupSettingChanged _ _ _ _ _ _).2.roster
    unfold applyGroupSettingChanged
    split
    · exact h
    split
    · exact h
    next s =>
    split
    · exact h
    split
    · exact h
    have hafter := @Over.catchUpOn pipeline _ _ _ now h s
    split
    next hrun =>
      rw [hrun] at hafter
      exact hafter
    next hrun =>
      rw [hrun] at hafter
      exact hafter
  | groupDissolved s =>
    show Over g base (pipeline.applyGroupDissolved _ _ _).2.roster
    unfold applyGroupDissolved
    split
    · exact h
    · exact h
    next hrun => exact h.follows (follows_applyDissolved hrun)

end Over

end Handlers

/-! ## Runs -/

/-- What arrives: a membership message, or a call of the roster sync. -/
inductive Inbound where
  | message (actorIdentity : String) (control : MembershipControl)
  | keepStatement (statement : GroupRosterStatement)
  | catchUpOn (statement : GroupRosterStatement)
  | receiveChange (change : GroupChange)
  | holdCarried (changes : List GroupChange) (lineShown : Bool)
  | applyView (groupId : String)
  | applyReply (reply : RosterReply) (replier : String)
  | applyDissolved (statement : GroupRosterStatement)
  | beginCheck (groupId requestId : String)
  | beginCatchUp (groupId requestId from_ : String)

/-- The device after it. -/
def Inbound.receive (pipeline : RelayReceivePipeline) (device : GroupDevice) (now : Int)
    (inbound : Inbound) : GroupDevice :=
  let roster := device.roster
  let K := pipeline.crypto
  let cards := pipeline.accountCards
  match inbound with
  | message actor control => (pipeline.applyInboundMembershipMessage device now actor control).2
  | keepStatement s => { device with roster := storeAfter roster (Pbr.keepStatement K roster s) }
  | catchUpOn s => (pipeline.catchUpOn device now s).2
  | receiveChange change =>
    { device with roster := storeAfter roster (Pbr.receiveChange K roster change cards now) }
  | holdCarried changes lineShown =>
    { device with roster := Pbr.holdCarried K roster changes cards now lineShown }
  | applyView g => { device with roster := storeAfter roster (Pbr.applyView K roster g cards now) }
  | applyReply reply replier =>
    { device with
      roster := storeAfter roster
        (Pbr.applyReply K roster reply pipeline.localAccount replier cards now) }
  | applyDissolved s =>
    { device with
      roster := storeAfter roster (Pbr.applyDissolved K roster s pipeline.localAccount none) }
  | beginCheck g requestId =>
    { device with
      roster := storeAfter roster
        (Pbr.beginCheck K roster g pipeline.localAccount requestId now) }
  | beginCatchUp g requestId from_ =>
    { device with roster := storeAfter roster (Pbr.beginCatchUp K roster g requestId from_ now) }

/-- It is no refusal the device takes for group `g`. -/
def Inbound.Spares (g : String) (device : GroupDevice) : Inbound → Prop
  | message actor (.groupInviteRefused refused) => ¬ Taken device g refused actor
  | _ => True

/-- What arrives, one after the other, each at its time. -/
def receiveAll (pipeline : RelayReceivePipeline) (device : GroupDevice)
    (arrivals : List (Inbound × Int)) : GroupDevice :=
  arrivals.foldl (fun device arrival => arrival.1.receive pipeline device arrival.2) device

def AllSpare (pipeline : RelayReceivePipeline) (g : String) :
    GroupDevice → List (Inbound × Int) → Prop
  | _, [] => True
  | device, (inbound, now) :: rest =>
    inbound.Spares g device ∧ AllSpare pipeline g (inbound.receive pipeline device now) rest

section Runs

variable {pipeline : RelayReceivePipeline} {g : String} {base : GroupRosterStore}
  {device : GroupDevice} {now : Int} (hlocal : pipeline.localAccount ≠ "") (hg : g ≠ "")
  (hout : (base.roster g)[pipeline.localAccount]? = none)

theorem Over.storeAfter {α : Type} {store : GroupRosterStore} {result : Roe (α × GroupRosterStore)}
    (h : Over g base store) (hrun : ∀ a after, result = .ok (a, after) → Over g base after) :
    Over g base (Pbr.storeAfter store result) := by
  cases result with
  | error e => exact h
  | ok out => exact hrun out.1 out.2 rfl

include hlocal hg hout

theorem Over.receive (h : Over g base device.roster) {inbound : Inbound} (hspares : inbound.Spares g device) :
    Over g base (inbound.receive pipeline device now).roster := by
  cases inbound with
  | message actor control =>
    apply h.applyInbound hlocal hg hout
    rintro refused rfl
    exact hspares
  | keepStatement s => exact h.storeAfter fun _ _ hrun => h.follows (follows_keepStatement hrun)
  | catchUpOn s => exact h.catchUpOn s
  | receiveChange change => exact h.storeAfter fun _ _ hrun => h.receiveChange hrun
  | holdCarried changes lineShown => exact h.holdCarried changes lineShown
  | applyView groupId => exact h.storeAfter fun _ _ hrun => h.follows (follows_applyView hrun)
  | applyReply reply replier => exact h.storeAfter fun _ _ hrun => h.applyReply hrun
  | applyDissolved s => exact h.storeAfter fun _ _ hrun => h.follows (follows_applyDissolved hrun)
  | beginCheck groupId requestId =>
    exact h.storeAfter fun _ _ hrun => h.follows (follows_beginCheck hrun)
  | beginCatchUp groupId requestId from_ =>
    exact h.storeAfter fun _ _ hrun => h.follows (follows_beginCatchUp hrun)

theorem Over.receiveAll (h : Over g base device.roster) {arrivals : List (Inbound × Int)}
    (hspare : AllSpare pipeline g device arrivals) :
    Over g base (Pbr.receiveAll pipeline device arrivals).roster := by
  induction arrivals generalizing device with
  | nil => exact h
  | cons arrival rest ih =>
    obtain ⟨inbound, now⟩ := arrival
    exact ih (h.receive hlocal hg hout hspare.1) hspare.2

end Runs

/-! ## The owner's word -/

/-- The owner the device knows, or one the chain it holds proves. -/
def Owns (store : GroupRosterStore) (g account : String) : Prop :=
  ∃ m, store.loadMetadata g = some m ∧ (m.ownerIdentity = account ∨
    ∃ held, m.held = some held ∧ ∃ transfer ∈ held.ownerChain, transfer.toIdentity = account)

/-- The group's sync state, owner, statement and rows are the same. -/
def Untouched (g : String) (before after : GroupRosterStore) : Prop :=
  (after.loadMetadata g).map (fun m => (m.syncState, m.ownerIdentity, m.rosterStatementJson)) =
    (before.loadMetadata g).map (fun m => (m.syncState, m.ownerIdentity, m.rosterStatementJson)) ∧
  after.roster g = before.roster g

/-- A refusal leaves a group we are in as it is exactly when it is not taken,
and no run without one that is taken changes a group that is over. -/
theorem spared_groups_stay (pipeline : RelayReceivePipeline) (hlocal : pipeline.localAccount ≠ "")
    (g : String) (hg : g ≠ "") :
    (∀ (device : GroupDevice) (now : Int) (actor : String) (refused : InviteResponsePayload),
      device.roster.isMember g pipeline.localAccount = true →
      ((¬ Owns device.roster g actor → Untouched g device.roster
          (pipeline.applyInboundMembershipMessage device now actor
            (.groupInviteRefused refused)).2.roster) ↔
        (Owns device.roster g actor ∨ ¬ Taken device g refused actor))) ∧
    ∀ (device : GroupDevice) (m : GroupMetadata) (arrivals : List (Inbound × Int)),
      device.roster.loadMetadata g = some m → m.syncState = .dissolved →
      device.roster.isMember g pipeline.localAccount = false →
      AllSpare pipeline g device arrivals →
      Over g device.roster (receiveAll pipeline device arrivals).roster := by
  constructor
  · intro device now actor refused hin
    constructor
    · intro huntouched
      by_cases howns : Owns device.roster g actor
      · exact .inl howns
      · right
        intro htaken
        obtain ⟨-, hroster⟩ := huntouched howns
        have hout : (applyInviteRefused device refused actor pipeline.localAccount).2.roster.isMember
            g pipeline.localAccount = false := not_isMember_of_taken hlocal htaken
        unfold isMember findMember at hin hout
        rw [show (applyInviteRefused device refused actor
          pipeline.localAccount).2.roster.roster g = device.roster.roster g from hroster,
          hin] at hout
        cases hout
    · rintro (howns | hspared) hother
      · exact absurd howns hother
      · obtain ⟨hmeta, hroster, -⟩ :=
          same_of_not_taken hspared
        exact ⟨congrArg _ hmeta, hroster⟩
  · intro device m arrivals hm hd hout hspare
    have hnone : (device.roster.roster g)[pipeline.localAccount]? = none := by
      cases hrow : (device.roster.roster g)[pipeline.localAccount]? with
      | none => rfl
      | some row => simp [isMember, findMember, hrow] at hout
    exact (Over.of_dissolved hm hd).receiveAll hlocal hg hnone hspare

/-! ## A refusal taken -/

/-- The sample pipeline of account `b`. -/
def samplePipeline : RelayReceivePipeline :=
  { crypto := sampleSigning, accountCards := sampleCards, localAccount := "b" }

/-- `b`'s device: `c`'s group, shown by its statement, and the invite of `d`
that `b` once accepted. -/
def sampleInvited : GroupDevice :=
  { roster := runCalls sampleSigning (sampleDevice "c")
      [.keepStatement (sampleOwned "c" 5 []), .applyView "g" sampleCards 0]
    invites := (∅ : StrMap PendingGroupInvite).insert "n"
      { inviteNonce := "n", groupId := "g", inviterIdentity := "d", inviteeIdentity := "b"
        status := .accepted } }

/-- `sampleInvited` after `c` ended the group. -/
def sampleOver : GroupDevice :=
  (sampleInvited.endGroup "g" { ownerIdentity := "c" }).getD sampleInvited

def sampleSays (device : GroupDevice) : Option (GroupSyncState × String) × List String :=
  ((device.roster.loadMetadata "g").map fun m => (m.syncState, m.ownerIdentity),
    (device.roster.listMembers "g").map (·.memberIdentity))

/-- The device after `d` refuses, for `reason`, an accept of its invite. -/
def sampleRefusal (device : GroupDevice) (reason : String) : GroupDevice :=
  (samplePipeline.applyInboundMembershipMessage device 0 "d"
    (.groupInviteRefused { inviteNonce := "n", groupId := "g", reason })).2

set_option maxRecDepth 20000 in
/-- A refusal by someone who invited nobody changes nothing, nor does what
comes after the end. -/
theorem spared_groups_stay_sample :
    Untouched "g" sampleInvited.roster
      (samplePipeline.applyInboundMembershipMessage sampleInvited 0 "e"
        (.groupInviteRefused { inviteNonce := "n", groupId := "g" })).2.roster ∧
    Over "g" sampleOver.roster (receiveAll samplePipeline sampleOver
      [(.keepStatement (sampleOwned "c" 6 []), 0),
        (.message "e" (.groupInviteRefused { inviteNonce := "n", groupId := "g" }), 1)]).roster := by
  have hspared : ∀ device : GroupDevice,
      (device.loadPendingInvite "n").map (·.inviterIdentity) = some "d" →
      ¬ Taken device "g" { inviteNonce := "n", groupId := "g" } "e" := by
    rintro device hheld ⟨-, ⟨pending, hpending, -, hinviter, -⟩, -⟩
    rw [hpending, Option.map_some, hinviter] at hheld
    exact absurd hheld (by decide)
  obtain ⟨hrefusals, hover⟩ := spared_groups_stay samplePipeline (by decide) "g" (by decide)
  constructor
  · apply (hrefusals sampleInvited 0 "e" _ (by decide)).mpr
    · exact .inr (hspared sampleInvited (by decide))
    · rintro ⟨m, hm, howns⟩
      have howner : ((sampleInvited.roster.loadMetadata "g").map fun m =>
          (m.ownerIdentity, (m.held.map (·.ownerChain)).getD [])) = some ("c", []) := by decide
      rw [hm, Option.map_some, Option.some.injEq, Prod.mk.injEq] at howner
      obtain howns | ⟨held, hheld, transfer, htransfer, -⟩ := howns
      · rw [howns] at howner
        exact absurd howner.1 (by decide)
      · rw [hheld] at howner
        have hchain : held.ownerChain = [] := howner.2
        rw [hchain] at htransfer
        cases htransfer
  · have hends : ((sampleOver.roster.loadMetadata "g").map (·.syncState)) = some .dissolved := by
      decide
    cases hm : sampleOver.roster.loadMetadata "g" with
    | none =>
      rw [hm] at hends
      cases hends
    | some m =>
      rw [hm] at hends
      apply hover sampleOver m _ hm (Option.some.inj hends) (by decide)
      refine ⟨trivial, hspared _ ?_, trivial⟩
      decide

set_option maxRecDepth 20000 in
/-- `d`, who is not even in the group, ends it for `b`, or puts `b` out; and
a group `c` ended is then one `b` was removed from. -/
theorem inviter_ends_the_group :
    sampleSays sampleInvited = (some (.active, "c"), ["b", "c"]) ∧
    sampleSays (sampleRefusal sampleInvited kInviteRefusedGroupDissolved) =
      (some (.dissolved, "d"), []) ∧
    sampleSays (sampleRefusal sampleInvited kInviteRefusedGroupFull) =
      (some (.removed, "c"), ["c"]) ∧
    sampleSays sampleOver = (some (.dissolved, "c"), []) ∧
    sampleSays (sampleRefusal sampleOver kInviteRefusedGroupFull) =
      (some (.removed, "c"), []) := by
  refine ⟨by decide, by decide, by decide, by decide, by decide⟩

end Pbr
