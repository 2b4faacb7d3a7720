import PpBrowser.Lib.Runs
import PpBrowser.Messaging.GroupInviteAccepts
import PpBrowser.Messaging.GroupRosterFrame
import PpBrowser.Messaging.GroupRosterKept
import PpBrowser.Messaging.RelayReceivePipeline

/-!
# GroupInviteRun — an invite lets its invitee in once

Runs of the inviting device: invites it stores, accepts and declines as they
arrive, the signed adds that follow, rosters that change under it, groups
that end, and writes that fail. An invite once closed stays closed, and
whoever comes in finds the other invites to them closed.

Three slips keep this from every run. A failure to close the member's other
invites after an add is passed over. An accept that failed after the row was
written is refused as one too many when that row was the fiftieth. And
`AdmitInvitee` signs for an invite that was closed since its accept.
-/

namespace Pbr

open Lib

/-! ## The rows of an add that counts -/

section Counted

variable {K : GroupCrypto} {store : GroupRosterStore} {g member : String}
  {cards : GroupCardLookup} {now : Int}

theorem length_listMembers (store : GroupRosterStore) (g : String) :
    (store.listMembers g).length = (store.roster g).size := by
  rw [GroupRosterStore.listMembers, values, List.length_map, Std.ExtTreeMap.length_toList]

variable {view : GroupRosterView}

theorem ShowsMembers.size {rows : StrMap GroupRosterMember}
    (h : ShowsMembers rows view) (hn : (view.members.map (·.identity)).Nodup) : rows.size = view.members.length := by
  have hperm : rows.keys.Perm (view.members.map (·.identity)) := by
    rw [List.perm_ext_iff_of_nodup Std.ExtTreeMap.nodup_keys hn]
    intro i
    rw [Std.ExtTreeMap.mem_keys, Std.ExtTreeMap.mem_iff_isSome_getElem?,
      ← Option.isSome_map (f := fun r : GroupRosterMember => (r.role, r.joinedAt, r.addedBy)), h i,
      Option.isSome_map, GroupRosterView.find, List.find?_isSome, List.mem_map]
    simp
  rw [← Std.ExtTreeMap.length_keys, hperm.length_eq, List.length_map]

/-- Whoever an applied view lists is in, and was listed by the owner or found
room. -/
theorem room_of_applyView {result : GroupViewApplied × GroupRosterStore}
    (h : applyView K store g cards now = .ok result) (hview : result.1.view = some view)
    (hlists : view.lists member = true) : (∃ m, store.loadMetadata g = some m ∧ m.syncState ≠ .dissolved) ∧
    result.2.isMember g member = true ∧ ((heldStatement store g).any (·.lists member) = true ∨
      (result.2.listMembers g).length ≤ kMaxGroupMembers) := by
  obtain ⟨m, hm, ⟨-, rfl⟩ | ⟨-, -, rfl⟩ | ⟨held, hd, hheld, -, rfl⟩⟩ := applyView_cases h
  · cases hview
  · cases hview
  obtain rfl : heldView K store g held cards now = view := Option.some.inj hview
  have hn : ((heldView K store g held cards now).members.map (·.identity)).Nodup := nodup_members _ _ _
  have hrows := @showsMembers_appliedBy store g held _ m hn
  refine ⟨⟨m, hm, hd⟩, ?_, ?_⟩
  · have hrow := congrArg Option.isSome (hrows member)
    rw [Option.isSome_map, Option.isSome_map] at hrow
    exact hrow.trans hlists
  · have hstatement : heldStatement store g = some held := by
      rw [heldStatement, hm]
      exact hheld
    rw [hstatement, length_listMembers, hrows.size hn]
    cases hlisted : held.lists member with
    | true => exact .inl hlisted
    | false =>
      right
      unfold heldView at hlists ⊢
      cases hended : held.dissolved with
      | true =>
        rw [computeRosterChecked, RosterRules.run_dissolved hended] at hlists
        cases hlists
      | false =>
        rw [RosterRules.computeRosterChecked_eq_view hended] at hlists ⊢
        have hlen := congrArg List.length (RosterRules.members_map_identity
          (x := RosterRules.indexed held now
            (collapse (checkChanges K (heldChanges store g) cards now))))
        rw [List.length_map, Std.ExtTreeSet.length_toList] at hlen
        rw [hlen]
        exact RosterRules.joined_size _ (RosterRules.lists_view.mp hlists)
          ((RosterRules.inStatement_indexed member).trans hlisted)

open InviteAccepts in
theorem applyViewOr_some {left : Option GroupRosterStore} {after : GroupRosterStore}
    (h : applyViewOr K cards left store g now = (some view, after)) :
    ∃ applied : GroupViewApplied, applyView K store g cards now = .ok (applied, after) ∧
      applied.view = some view := by
  unfold applyViewOr at h
  cases left with
  | some left => cases h
  | none =>
    dsimp only at h
    cases happly : applyView K store g cards now with
    | error e =>
      rw [happly] at h
      cases h
    | ok result =>
      rw [happly] at h
      exact ⟨result.1, congrArg (fun r => Except.ok (result.1, r)) (congrArg Prod.snd h),
        congrArg Prod.fst h⟩

open InviteAccepts in
/-- An add that counts found its group going on, and room. -/
theorem room_of_admitted {roster after : GroupRosterStore} {admission : Admission} {answers : Admitting}
    (h : admittedRoster K cards roster admission answers = (.ok (), after)) :
    (∃ m, roster.loadMetadata admission.groupId = some m ∧ m.syncState ≠ .dissolved) ∧
    after.isMember admission.groupId admission.memberIdentity = true ∧
    ((heldStatement roster admission.groupId).any (·.lists admission.memberIdentity) = true ∨
      (after.listMembers admission.groupId).length ≤ kMaxGroupMembers) := by
  unfold admittedRoster at h
  cases hadd : answers.add with
  | error e =>
    rw [hadd] at h
    cases h
  | ok add =>
  rw [hadd] at h
  unfold holdAdd at h
  dsimp only at h
  by_cases hfails : answers.holdFails = true
  · rw [if_pos hfails] at h
    cases h
  rw [if_neg hfails] at h
  by_cases hproved : (holdChange K roster add cards answers.nowMs true).1 ≠ .proved
  · rw [if_pos hproved] at h
    cases h
  rw [if_neg hproved] at h
  -- what was held for the add leaves the group's metadata
  have hmeta : (holdChange K roster add cards answers.nowMs true).2.loadMetadata
      admission.groupId = roster.loadMetadata admission.groupId := by
    rcases holdChange_cases (K := K) add
      true with hsame | ⟨m, row, -, -, -, hafter⟩
    · rw [hsame]
    · rw [hafter]
      exact GroupRosterStore.loadMetadata_upsertGroupChange ..
  generalize (holdChange K roster add cards answers.nowMs true).2 = held at h hmeta
  cases hviewed : applyViewOr K cards answers.viewLeft held admission.groupId answers.nowMs with
  | mk view counted =>
  rw [hviewed] at h
  dsimp only at h
  by_cases hlists : view.any (·.lists admission.memberIdentity) = true
  · rw [if_pos hlists] at h
    obtain rfl : counted = after := congrArg Prod.snd h
    cases view with
    | none => cases hlists
    | some view =>
      obtain ⟨applied, happly, hview⟩ := applyViewOr_some hviewed
      obtain ⟨hgoes, hin, hroom⟩ := room_of_applyView happly hview hlists
      rw [heldStatement, hmeta] at hroom
      rw [hmeta] at hgoes
      exact ⟨hgoes, hin, hroom⟩
  · rw [if_neg hlists] at h
    cases h

end Counted

/-! ## Invites once closed -/

/-- The invites of `a` are all there in `b`: as they were but for the status,
and that only moves off pending. -/
def InvitesKept (a b : GroupDevice) : Prop :=
  ∀ (nonce : String) invite, a.invites[nonce]? = some invite →
    ∃ status, b.invites[nonce]? = some { invite with status } ∧
      (invite.status ≠ .pending → status = invite.status)

namespace InvitesKept

variable {a b c : GroupDevice}

theorem of_invites (h : b.invites = a.invites) : InvitesKept a b := by
  intro nonce invite hinvite
  exact ⟨invite.status, h ▸ hinvite, fun _ => rfl⟩

theorem refl : InvitesKept a a := of_invites rfl

theorem trans (hab : InvitesKept a b) (hbc : InvitesKept b c) : InvitesKept a c := by
  intro nonce invite hinvite
  obtain ⟨status, hb, hstatus⟩ := hab nonce invite hinvite
  obtain ⟨status', hc, hstatus'⟩ := hbc nonce _ hb
  refine ⟨status', hc, ?_⟩
  intro hclosed
  have hsame := hstatus hclosed
  rw [← hsame]
  apply hstatus'
  rw [hsame]
  exact hclosed

theorem expireInvites (which : PendingGroupInvite → Bool) : InvitesKept a (a.expireInvites which) := by
  intro nonce invite hinvite
  show ∃ status, (a.invites.map _)[nonce]? = _ ∧ _
  rw [Std.ExtTreeMap.getElem?_map, hinvite, Option.map_some]
  by_cases hpending : which invite ∧ invite.status = .pending
  · refine ⟨.expired, by rw [if_pos hpending], ?_⟩
    intro hclosed
    exact absurd hpending.2 hclosed
  · exact ⟨invite.status, by rw [if_neg hpending], fun _ => rfl⟩

theorem upsertPendingInvite (invite : PendingGroupInvite) : InvitesKept a (a.upsertPendingInvite invite) := by
  intro nonce other hother
  refine ⟨other.status, ?_, fun _ => rfl⟩
  show (a.invites.insertIfNew _ _)[nonce]? = _
  rw [Std.ExtTreeMap.getElem?_insertIfNew, hother, if_neg]
  rintro ⟨hsame, hnew⟩
  rw [Std.LawfulEqCmp.compare_eq_iff_eq] at hsame
  subst hsame
  exact hnew (Std.ExtTreeMap.mem_iff_isSome_getElem?.mpr (Option.isSome_of_eq_some hother))

theorem updateInviteStatus {nonce : String} {status : InviteStatus}
    (h : ∀ invite, a.invites[nonce]? = some invite → invite.status = .pending ∨ invite.status = status) :
    InvitesKept a (a.updateInviteStatus nonce status) := by
  intro other invite hinvite
  show ∃ status', (a.invites.modify nonce _)[other]? = _ ∧ _
  rw [Std.ExtTreeMap.getElem?_modify]
  by_cases hsame : nonce = other
  · subst hsame
    refine ⟨status, by simp [hinvite], ?_⟩
    intro hclosed
    exact ((h invite hinvite).resolve_left hclosed).symm
  · exact ⟨invite.status, by simp [hsame, hinvite], fun _ => rfl⟩

end InvitesKept

/-! ## Runs -/

/-- The inviting device, with the accepts it still answers with an add. -/
structure Inviter where
  device : GroupDevice := {}
  toAdmit : List InviteAccepts.Admission := []

/-- A member brought in, and by which invite. -/
structure BroughtIn where
  inviteNonce : String
  groupId : String
  memberIdentity : String
  deriving DecidableEq, Repr

inductive InviterEvent where
  | accept (response : InviteResponsePayload) (actorIdentity : String) (nowMs : Int)
      (failing : List Bool)
  | decline (response : InviteResponsePayload) (actorIdentity : String) (failing : List Bool)
  /-- The follow-up of an accept that asked for a signed add. -/
  | admitMember (admission : InviteAccepts.Admission) (answers : InviteAccepts.Admitting)
  /-- An invite stored: one sent, sent again or received. -/
  | invited (invite : PendingGroupInvite)
  /-- The rosters as a change leaves them (a removal, a leave, another's add, a statement, a
  join by link), and the members whose invites the device closed with it. -/
  | changed (roster : GroupRosterStore) (closed : List (String × String))
  | ended (groupId : String) (ending : GroupEnding)

namespace InviterEvent

open InviteAccepts

variable (pipeline : RelayReceivePipeline)

/-- The device after an event, and whom the event brought in. -/
def take (s : Inviter) : InviterEvent → Option BroughtIn × Inviter
  | accept response actor nowMs failing =>
    match applyInviteAccepted pipeline.localAccount response actor nowMs ⟨s.device, failing⟩ with
    | (.ok .added, after) =>
      (some ⟨response.inviteNonce, response.groupId, actor⟩, { s with device := after.store })
    | (.ok .signAdd, after) =>
      (none, {
        device := after.store
        toAdmit := s.toAdmit ++ [⟨response.groupId, response.inviteNonce, actor⟩] })
    | (_, after) => (none, { s with device := after.store })
  | decline response actor failing =>
    (none, { s with
      device := (InviteAccepts.applyInviteDeclineToRoster response.inviteNonce actor response.groupId
        ⟨s.device, failing⟩).2.store })
  | admitMember admission answers =>
    if admission ∈ s.toAdmit then
      let toAdmit := s.toAdmit.erase admission
      match admitInvitee pipeline.crypto pipeline.accountCards s.device admission answers with
      | (.ok true, device) =>
        (some ⟨admission.inviteNonce, admission.groupId, admission.memberIdentity⟩,
          { device, toAdmit })
      | (_, device) => (none, { device, toAdmit })
    else (none, s)
  | invited invite => (none, { s with device := s.device.upsertPendingInvite invite })
  | changed roster closed =>
    (none, { s with
      device := closed.foldl (fun device who => device.expireOutboundInvitesTo who.1 who.2)
        { s.device with roster } })
  | ended groupId ending =>
    (none, { s with device := (s.device.endGroup groupId ending).getD s.device })

def brings (s : Inviter) (e : InviterEvent) : Option BroughtIn := (e.take pipeline s).1

end InviterEvent

/-- The device after an event. -/
def Inviter.next (pipeline : RelayReceivePipeline) (s : Inviter) (e : InviterEvent) : Inviter :=
  (e.take pipeline s).2

/-- What an accept is answered. -/
def Inviter.answer (pipeline : RelayReceivePipeline) (s : Inviter)
    (response : InviteResponsePayload) (actor : String) (nowMs : Int) (failing : List Bool) :
    Roe InviteAccepted :=
  (InviteAccepts.applyInviteAccepted pipeline.localAccount response actor nowMs
    ⟨s.device, failing⟩).1

/-- No invite of ours to `member` for group `g` is open. -/
def Uninvited (device : GroupDevice) (g member : String) : Prop :=
  ∀ (nonce : String) invite, device.loadPendingInvite nonce = some invite →
    invite.outbound = true → invite.groupId = g → invite.inviteeIdentity = member →
    invite.status ≠ .pending

/-! ## What the runs must not do -/

namespace InviterEvent

open InviteAccepts

/-- The closing of the member's other invites does not fail; an invitee whose
row a failed accept left is not refused as one too many; an add is signed
only while its invite is open; and nobody comes in another way while an
invite of ours to them is open. -/
def Meets (pipeline : RelayReceivePipeline) (s : Inviter) : InviterEvent → Prop
  | accept response actor nowMs failing =>
    ¬ LeavesSiblings failing ∧
    ∀ invite metadata, Ours s.device pipeline.localAccount response.inviteNonce actor
        response.groupId invite metadata →
      invite.status = .pending → InTime invite nowMs →
      s.device.roster.isMember response.groupId actor = true →
      (s.device.roster.listMembers response.groupId).length < kMaxGroupMembers
  | admitMember admission answers =>
    answers.acceptedFails = false ∧ answers.siblingsFails = false ∧
    (∀ invite, s.device.loadPendingInvite admission.inviteNonce = some invite →
      invite.status = .pending ∨ invite.status = .accepted) ∧
    ∀ g member, s.device.roster.isMember g member = false →
      (admittedRoster pipeline.crypto pipeline.accountCards s.device.roster admission
        answers).2.isMember g member = true →
      ((admittedRoster pipeline.crypto pipeline.accountCards s.device.roster admission
        answers).1 = .ok () ∧ g = admission.groupId ∧ member = admission.memberIdentity) ∨
      Uninvited s.device g member
  | changed roster closed =>
    ∀ g member, s.device.roster.isMember g member = false → roster.isMember g member = true →
      (g, member) ∈ closed ∨ Uninvited s.device g member
  | _ => True

end InviterEvent

/-! ## The claim -/

/-- `member` came into group `g` in a step: an invite brought them in, or a
change did. -/
def CameIn (pipeline : RelayReceivePipeline) (x : Inviter × InviterEvent) (g member : String) :
    Prop :=
  (∃ b, x.2.brings pipeline x.1 = some b ∧ b.groupId = g ∧ b.memberIdentity = member) ∨
  ((∀ response actor nowMs failing, x.2 ≠ .accept response actor nowMs failing) ∧
    x.1.device.roster.isMember g member = false ∧
    (x.1.next pipeline x.2).device.roster.isMember g member = true)

open InviteAccepts in
/-- What each step holds to. -/
structure Proper (pipeline : RelayReceivePipeline) (s : Inviter) (e : InviterEvent) : Prop where
  /-- Whoever is brought in is by an open invite of ours to them for a group that goes on; and
  is in, and was listed or found room. -/
  brought : ∀ b, e.brings pipeline s = some b →
    (∃ invite, s.device.loadPendingInvite b.inviteNonce = some invite ∧ invite.outbound = true ∧
      invite.inviteeIdentity = b.memberIdentity ∧ invite.groupId = b.groupId ∧
      invite.status = .pending) ∧
    (∃ m, s.device.roster.loadMetadata b.groupId = some m ∧ m.syncState ≠ .dissolved) ∧
    (s.next pipeline e).device.roster.isMember b.groupId b.memberIdentity = true ∧
    (s.device.roster.isMember b.groupId b.memberIdentity = true ∨
      (heldStatement s.device.roster b.groupId).any (·.lists b.memberIdentity) = true ∨
      ((s.next pipeline e).device.roster.listMembers b.groupId).length ≤ kMaxGroupMembers)
  /-- An accept is taken, at once or for a signed add, in time and with room left. -/
  taken : ∀ response actor nowMs failing, e = .accept response actor nowMs failing →
    (s.answer pipeline response actor nowMs failing = .ok .added ∨
      s.answer pipeline response actor nowMs failing = .ok .signAdd) →
    ∃ invite metadata, Ours s.device pipeline.localAccount response.inviteNonce actor
        response.groupId invite metadata ∧ invite.status = .pending ∧ InTime invite nowMs ∧
      (s.device.roster.listMembers response.groupId).length < kMaxGroupMembers
  /-- An accept changes nobody else's row, and one that answers no invite of ours nothing. -/
  others : ∀ response actor nowMs failing, e = .accept response actor nowMs failing →
    (∀ g member, ¬ (g = response.groupId ∧ member = actor) →
      (s.next pipeline e).device.roster.findMember g member =
        s.device.roster.findMember g member) ∧
    ((∀ invite metadata, ¬ Ours s.device pipeline.localAccount response.inviteNonce actor
      response.groupId invite metadata) → s.next pipeline e = s)
  /-- The owner's accept of an open invite either fails and leaves the invite open, or lets the
  member in, with one row; and it fails only when a write does. -/
  again : ∀ response actor nowMs failing invite metadata,
    e = .accept response actor nowMs failing →
    Ours s.device pipeline.localAccount response.inviteNonce actor response.groupId invite
      metadata →
    invite.status = .pending → InTime invite nowMs →
    metadata.ownerIdentity = pipeline.localAccount →
    (s.device.roster.isMember response.groupId actor = true ∨
      (s.device.roster.listMembers response.groupId).length < kMaxGroupMembers) →
    (true ∈ failing ∧ e.brings pipeline s = none ∧
      (s.next pipeline e).device.loadPendingInvite response.inviteNonce = some invite) ∨
    (s.answer pipeline response actor nowMs failing = .ok .added ∧
      ((s.next pipeline e).device.roster.listMembers response.groupId).countP
        (·.memberIdentity = actor) = 1)
  /-- The end of a group closes its invites. -/
  voided : ∀ g ending, e = .ended g ending →
    (∃ m, s.device.roster.loadMetadata g = some m ∧ m.syncState ≠ .dissolved) →
    ∀ (nonce : String) invite, (s.next pipeline e).device.loadPendingInvite nonce = some invite →
      invite.groupId = g → invite.status ≠ .pending

/-- What a step means for every later one. -/
structure Since (pipeline : RelayReceivePipeline) (x y : Inviter × InviterEvent) : Prop where
  once : ∀ b, x.2.brings pipeline x.1 = some b → ∀ b', y.2.brings pipeline y.1 = some b' →
    b'.inviteNonce ≠ b.inviteNonce
  already : ∀ b, x.2.brings pipeline x.1 = some b →
    ∀ response nowMs failing, y.2 = .accept response b.memberIdentity nowMs failing →
    response.inviteNonce = b.inviteNonce → response.groupId = b.groupId →
    (∃ m, y.1.device.roster.loadMetadata b.groupId = some m ∧ m.syncState ≠ .dissolved) →
    y.1.answer pipeline response b.memberIdentity nowMs failing = .ok .already ∧
      y.1.next pipeline y.2 = y.1
  /-- An invite that was declined, ran out or was voided brings nobody in. -/
  closed : ∀ (nonce : String) invite,
    (x.1.next pipeline x.2).device.loadPendingInvite nonce = some invite →
    invite.status ≠ .pending →
    ∀ b, y.2.brings pipeline y.1 = some b → b.inviteNonce ≠ nonce
  /-- No invite from before someone came in brings them in again. -/
  gone : ∀ g member, CameIn pipeline x g member →
    ∀ (nonce : String) invite, x.1.device.loadPendingInvite nonce = some invite →
    ∀ b, y.2.brings pipeline y.1 = some b → b.groupId = g → b.memberIdentity = member →
      b.inviteNonce ≠ nonce

/-- An invite lets its invitee in once. -/
def LetsInOnce (pipeline : RelayReceivePipeline) (s : Inviter) (es : List InviterEvent) : Prop :=
  (∀ x ∈ trail (Inviter.next pipeline) s es, Proper pipeline x.1 x.2) ∧
  (trail (Inviter.next pipeline) s es).Pairwise (Since pipeline)

/-! ## Steps -/

/-- Each invite is stored under its nonce, and only an account of ours
answers accepts. -/
structure Inviter.Sound (pipeline : RelayReceivePipeline) (s : Inviter) : Prop where
  keyed : Keyed (·.inviteNonce) s.device.invites
  localAccount : s.toAdmit ≠ [] → pipeline.localAccount ≠ ""

section Keyed

variable {device : GroupDevice} (h : Keyed (·.inviteNonce) device.invites)

include h

theorem keyed_updateInviteStatus (nonce : String) (status : InviteStatus) :
    Keyed (·.inviteNonce) (device.updateInviteStatus nonce status).invites := by
  intro other invite hinvite
  have hmoved : (device.invites.modify nonce _)[other]? = some invite := hinvite
  rw [Std.ExtTreeMap.getElem?_modify] at hmoved
  split at hmoved
  · next hsame =>
      obtain rfl : nonce = other := Std.LawfulEqCmp.compare_eq_iff_eq.mp hsame
      obtain ⟨old, hold, rfl⟩ := Option.map_eq_some_iff.mp hmoved
      exact h nonce old hold
  · exact h other invite hmoved

theorem keyed_expireInvites (which : PendingGroupInvite → Bool) :
    Keyed (·.inviteNonce) (device.expireInvites which).invites := by
  intro nonce invite hinvite
  have hmoved : (device.invites.map _)[nonce]? = some invite := hinvite
  rw [Std.ExtTreeMap.getElem?_map] at hmoved
  obtain ⟨old, hold, rfl⟩ := Option.map_eq_some_iff.mp hmoved
  split
  · exact h nonce old hold
  · exact h nonce old hold

theorem keyed_upsertPendingInvite (invite : PendingGroupInvite) :
    Keyed (·.inviteNonce) (device.upsertPendingInvite invite).invites := by
  intro nonce other hother
  have hmoved : (device.invites.insertIfNew _ _)[nonce]? = some other := hother
  rw [Std.ExtTreeMap.getElem?_insertIfNew] at hmoved
  split at hmoved
  · next hnew =>
      cases hmoved
      exact Std.LawfulEqCmp.compare_eq_iff_eq.mp hnew.1
  · exact h nonce other hmoved

end Keyed

/-! ### An accept -/

section Steps

open InviteAccepts

variable {pipeline : RelayReceivePipeline} {s : Inviter}

section Accept

variable {response : InviteResponsePayload} {actor : String} {nowMs : Int} {failing : List Bool}

theorem device_next_accept : (s.next pipeline (.accept response actor nowMs failing)).device =
      (applyInviteAccepted pipeline.localAccount response actor nowMs ⟨s.device, failing⟩).2.store := by
  unfold Inviter.next InviterEvent.take
  dsimp only
  split <;> simp_all

theorem toAdmit_next_accept : (s.next pipeline (.accept response actor nowMs failing)).toAdmit =
      if s.answer pipeline response actor nowMs failing = .ok .signAdd then
        s.toAdmit ++ [⟨response.groupId, response.inviteNonce, actor⟩] else s.toAdmit := by
  unfold Inviter.next InviterEvent.take Inviter.answer
  dsimp only
  split <;> simp_all

theorem brings_accept : (InviterEvent.accept response actor nowMs failing).brings pipeline s =
      if s.answer pipeline response actor nowMs failing = .ok .added then
        some ⟨response.inviteNonce, response.groupId, actor⟩ else none := by
  unfold InviterEvent.brings InviterEvent.take Inviter.answer
  dsimp only
  split <;> simp_all

theorem Inviter.Sound.acceptStep (h : s.Sound pipeline)
    (hmeets : InviterEvent.Meets pipeline s (.accept response actor nowMs failing)) :
    AcceptStep s.device pipeline.localAccount response.inviteNonce actor response.groupId nowMs
      failing (s.answer pipeline response actor nowMs failing)
      (s.next pipeline (.accept response actor nowMs failing)).device := by
  rw [device_next_accept]
  exact InviteAccepts.acceptStep h.keyed hmeets.1

theorem kept_addInvited (hkeyed : Keyed (·.inviteNonce) s.device.invites)
    {invite : PendingGroupInvite} {metadata : GroupMetadata}
    (h : Open s.device pipeline.localAccount response.inviteNonce actor response.groupId nowMs
      invite metadata) (localIdentity : String) :
    InvitesKept s.device (addInvited s.device invite metadata actor localIdentity nowMs) := by
  unfold addInvited
  dsimp only
  apply InvitesKept.trans _ (InvitesKept.expireInvites _)
  rw [show invite.inviteNonce = response.inviteNonce from hkeyed _ _ h.stored]
  apply InvitesKept.trans (InvitesKept.of_invites rfl) (InvitesKept.updateInviteStatus _)
  intro other hother
  left
  rw [← h.pending, Option.mem_unique h.stored hother]

theorem keyed_addInvited (hkeyed : Keyed (·.inviteNonce) s.device.invites)
    (invite : PendingGroupInvite) (metadata : GroupMetadata) (localIdentity : String) : Keyed (·.inviteNonce)
      (addInvited s.device invite metadata actor localIdentity nowMs).invites := by
  unfold addInvited
  dsimp only
  exact keyed_expireInvites (keyed_updateInviteStatus hkeyed _ _) _

end Accept

/-! ### The other events -/

theorem decline_cases (device : GroupDevice) (failing : List Bool) (nonce member groupId : String) :
    (InviteAccepts.applyInviteDeclineToRoster nonce member groupId ⟨device, failing⟩).2.store = device ∨
      (∃ invite, device.loadPendingInvite nonce = some invite ∧ invite.status = .pending) ∧
      (InviteAccepts.applyInviteDeclineToRoster nonce member groupId ⟨device, failing⟩).2.store =
        device.updateInviteStatus nonce .declined := by
  unfold InviteAccepts.applyInviteDeclineToRoster
  cases hinvite : device.loadPendingInvite nonce with
  | none =>
    left
    simp [Writing.bind_apply, hinvite]
  | some invite =>
    simp only [Writing.bind_apply, Writing.reads_apply, hinvite]
    split
    · exact .inl rfl
    split
    · exact .inl rfl
    next hstatus =>
    rcases Writing.write_cases storeError
      (fun device : GroupDevice => device.updateInviteStatus nonce .declined) device failing with
      ⟨rest, -, hwrite⟩ | ⟨-, hwrite⟩
    · left
      rw [hwrite]
    · right
      rw [hwrite]
      exact ⟨⟨invite, rfl, Decidable.not_not.mp hstatus⟩, rfl⟩

/-- The device after some members' invites were closed. -/
def closeAll (device : GroupDevice) (closed : List (String × String)) : GroupDevice :=
  closed.foldl (fun device who => device.expireOutboundInvitesTo who.1 who.2) device

theorem kept_closeAll (device : GroupDevice) (closed : List (String × String)) :
    InvitesKept device (closeAll device closed) := by
  induction closed generalizing device with
  | nil => exact .refl
  | cons who closed ih => exact (InvitesKept.expireInvites _).trans (ih _)

variable {device : GroupDevice} {invite : PendingGroupInvite} {nonce : String} {e : InviterEvent} {actor : String}
  {failing : List Bool} {nowMs : Int} {response : InviteResponsePayload} {g member : String}
  {ending : GroupEnding}

theorem mem_of_closeAll {closed : List (String × String)}
    (h : (closeAll device closed).loadPendingInvite nonce = some invite) :
    ∃ old, device.loadPendingInvite nonce = some old := by
  induction closed generalizing device with
  | nil => exact ⟨invite, h⟩
  | cons who closed ih =>
    obtain ⟨old, hold⟩ := ih h
    have hmoved : (device.invites.map _)[nonce]? = some old := hold
    rw [Std.ExtTreeMap.getElem?_map] at hmoved
    obtain ⟨before, hbefore, -⟩ := Option.map_eq_some_iff.mp hmoved
    exact ⟨before, hbefore⟩

theorem keyed_closeAll (h : Keyed (·.inviteNonce) device.invites) (closed : List (String × String)) :
    Keyed (·.inviteNonce) (closeAll device closed).invites := by
  induction closed generalizing device with
  | nil => exact h
  | cons who closed ih => exact ih (keyed_expireInvites h _)

theorem roster_closeAll (device : GroupDevice) (closed : List (String × String)) :
    (closeAll device closed).roster = device.roster := by
  induction closed generalizing device with
  | nil => rfl
  | cons who closed ih => exact ih _

theorem kept_endGroup (device : GroupDevice) (g : String) (ending : GroupEnding) :
    InvitesKept device ((device.endGroup g ending).getD device) := by
  unfold GroupDevice.endGroup
  cases device.roster.endGroup g ending with
  | none => exact .refl
  | some roster =>
    exact (InvitesKept.expireInvites _).trans (.of_invites rfl)

theorem isMember_of_endGroup {ended g member : String}
    (h : ((device.endGroup ended ending).getD device).roster.isMember g member = true) :
    device.roster.isMember g member = true := by
  unfold GroupDevice.endGroup GroupRosterStore.endGroup at h
  cases hm : device.roster.loadMetadata ended with
  | none =>
    rw [hm] at h
    exact h
  | some m =>
  rw [hm] at h
  dsimp only at h
  by_cases hd : m.syncState = .dissolved
  · rw [if_pos hd] at h
    exact h
  · rw [if_neg hd] at h
    have hrow : ((rowsOf (device.roster.rosters.erase ended) g)[member]?).isSome = true := h
    rw [rowsOf_erase] at hrow
    split at hrow
    · simp at hrow
    · exact hrow

theorem keyed_endGroup (h : Keyed (·.inviteNonce) device.invites) (g : String) (ending : GroupEnding) :
    Keyed (·.inviteNonce) ((device.endGroup g ending).getD device).invites := by
  unfold GroupDevice.endGroup
  cases device.roster.endGroup g ending with
  | none => exact h
  | some roster => exact keyed_expireInvites h _

section Admit

variable {admission : Admission} {answers : Admitting}

theorem next_admitMember (h : admission ∈ s.toAdmit) :
    s.next pipeline (.admitMember admission answers) =
      { device := (admitInvitee pipeline.crypto pipeline.accountCards s.device admission answers).2
        toAdmit := s.toAdmit.erase admission } := by
  unfold Inviter.next InviterEvent.take
  dsimp only
  rw [if_pos h]
  split <;> simp_all

theorem brings_admitMember (h : admission ∈ s.toAdmit) :
    (InviterEvent.admitMember admission answers).brings pipeline s =
      if (admitInvitee pipeline.crypto pipeline.accountCards s.device admission answers).1 = .ok true then
        some ⟨admission.inviteNonce, admission.groupId, admission.memberIdentity⟩ else none := by
  unfold InviterEvent.brings InviterEvent.take
  dsimp only
  rw [if_pos h]
  split <;> simp_all

theorem next_admit_of_not_mem (h : admission ∉ s.toAdmit) : s.next pipeline (.admitMember admission answers) = s := by
  unfold Inviter.next InviterEvent.take
  dsimp only
  rw [if_neg h]

theorem brings_admit_of_not_mem (h : admission ∉ s.toAdmit) :
    (InviterEvent.admitMember admission answers).brings pipeline s = none := by
  unfold InviterEvent.brings InviterEvent.take
  dsimp only
  rw [if_neg h]

theorem admitStep_of_meets (hmeets : InviterEvent.Meets pipeline s (.admitMember admission answers)) :
    AdmitStep pipeline.crypto pipeline.accountCards s.device admission answers
      (admitInvitee pipeline.crypto pipeline.accountCards s.device admission answers).1
      (admitInvitee pipeline.crypto pipeline.accountCards s.device admission answers).2 :=
  admitStep hmeets.1 hmeets.2.1 hmeets.2.2.1

theorem kept_closed {roster : GroupRosterStore} {invite : PendingGroupInvite}
    {status : InviteStatus} {device : GroupDevice} (h : InviteAccepts.Admits device admission invite) :
    InvitesKept device (GroupDevice.updateInviteStatus { device with roster } admission.inviteNonce status) := by
  apply InvitesKept.trans (InvitesKept.of_invites rfl) (InvitesKept.updateInviteStatus _)
  intro other hother
  left
  rw [← h.pending, Option.mem_unique h.stored hother]

end Admit

/-! ### Every event -/

/-- No event changes an invite but its status, nor opens one again. -/
theorem kept_next (h : s.Sound pipeline) (hmeets : e.Meets pipeline s) :
    InvitesKept s.device (s.next pipeline e).device := by
  cases e with
  | accept response actor nowMs failing =>
    have hstep := h.acceptStep hmeets
    generalize s.answer pipeline response actor nowMs failing = answer,
      (s.next pipeline (.accept response actor nowMs failing)).device = after at hstep
    cases hstep with
    | refused e hours | already invite metadata hours hstatus
    | signAdd invite metadata hopen howner => exact .refl
    | closed e after invite metadata hours hstatus hwhy hafter =>
      rcases hafter with rfl | rfl
      · exact .refl
      · apply InvitesKept.updateInviteStatus
        intro other hother
        left
        rw [← hstatus, Option.mem_unique hours.stored hother]
    | broken after invite metadata hopen hinvites hothers hfails => exact .of_invites hinvites
    | added invite metadata hopen => exact kept_addInvited h.keyed hopen _
  | decline response actor failing =>
    show InvitesKept s.device (InviteAccepts.applyInviteDeclineToRoster _ _ _ _).2.store
    rcases decline_cases s.device failing response.inviteNonce actor response.groupId with
      hsame | ⟨⟨invite, hinvite, hstatus⟩, hdeclined⟩
    · rw [hsame]
      exact .refl
    · rw [hdeclined]
      apply InvitesKept.updateInviteStatus
      intro other hother
      left
      rw [← hstatus, Option.mem_unique hinvite hother]
  | admitMember admission answers =>
    by_cases hmem : admission ∈ s.toAdmit
    swap
    · rw [next_admit_of_not_mem hmem]
      exact .refl
    rw [next_admitMember hmem]
    dsimp only
    have hstep := admitStep_of_meets hmeets
    generalize (admitInvitee pipeline.crypto pipeline.accountCards s.device admission
      answers).1 = result, (admitInvitee pipeline.crypto pipeline.accountCards s.device admission
      answers).2 = after at hstep ⊢
    cases hstep with
    | idle result hresult => exact .refl
    | resynced invite hadmits => exact kept_closed hadmits
    | refused e roster after invite hadmits hroster hafter =>
      rcases hafter with rfl | rfl
      · exact .of_invites rfl
      · exact kept_closed hadmits
    | added roster invite hadmits hroster =>
      exact (kept_closed hadmits).trans (.expireInvites _)
  | invited invite => exact .upsertPendingInvite invite
  | changed roster closed =>
    exact InvitesKept.trans (b := { s.device with roster }) (.of_invites rfl)
      (kept_closeAll _ closed)
  | ended g ending => exact kept_endGroup s.device g ending

theorem sound_next (h : s.Sound pipeline) (hmeets : e.Meets pipeline s) : (s.next pipeline e).Sound pipeline := by
  cases e with
  | accept response actor nowMs failing =>
    have hstep := h.acceptStep hmeets
    have htoAdmit := @toAdmit_next_accept pipeline s response actor nowMs failing
    refine ⟨?_, ?_⟩
    · generalize s.answer pipeline response actor nowMs failing = answer,
        (s.next pipeline (.accept response actor nowMs failing)).device = after at hstep ⊢
      cases hstep with
      | refused e hours | already invite metadata hours hstatus
      | signAdd invite metadata hopen howner => exact h.keyed
      | closed e after invite metadata hours hstatus hwhy hafter =>
        rcases hafter with rfl | rfl
        · exact h.keyed
        · exact keyed_updateInviteStatus h.keyed _ _
      | broken after invite metadata hopen hinvites hothers hfails => exact hinvites ▸ h.keyed
      | added invite metadata hopen => exact keyed_addInvited h.keyed _ _ _
    · rw [htoAdmit]
      split
      · next hanswer =>
          intro _
          rw [hanswer] at hstep
          generalize (s.next pipeline (.accept response actor nowMs failing)).device = after
            at hstep
          cases hstep with
          | signAdd invite metadata hopen howner => exact hopen.localAccount
      · exact h.localAccount
  | decline response actor failing =>
    refine ⟨?_, h.localAccount⟩
    show Keyed _ (InviteAccepts.applyInviteDeclineToRoster _ _ _ _).2.store.invites
    rcases decline_cases s.device failing response.inviteNonce actor response.groupId with
      hsame | ⟨-, hdeclined⟩
    · rw [hsame]
      exact h.keyed
    · rw [hdeclined]
      exact keyed_updateInviteStatus h.keyed _ _
  | admitMember admission answers =>
    by_cases hmem : admission ∈ s.toAdmit
    swap
    · rw [next_admit_of_not_mem hmem]
      exact h
    rw [next_admitMember hmem]
    refine ⟨?_, fun _ => h.localAccount (List.ne_nil_of_mem hmem)⟩
    have hstep := admitStep_of_meets hmeets
    dsimp only
    generalize (admitInvitee pipeline.crypto pipeline.accountCards s.device admission
      answers).1 = result, (admitInvitee pipeline.crypto pipeline.accountCards s.device admission
      answers).2 = after at hstep ⊢
    cases hstep with
    | idle result hresult => exact h.keyed
    | resynced invite hadmits => exact keyed_updateInviteStatus h.keyed _ _
    | refused e roster after invite hadmits hroster hafter =>
      rcases hafter with rfl | rfl
      · exact h.keyed
      · exact keyed_updateInviteStatus h.keyed _ _
    | added roster invite hadmits hroster =>
      exact keyed_expireInvites
        (keyed_updateInviteStatus h.keyed _ _) _
  | invited invite => exact ⟨keyed_upsertPendingInvite h.keyed invite, h.localAccount⟩
  | changed roster closed =>
    exact ⟨@keyed_closeAll { s.device with roster } h.keyed closed, h.localAccount⟩
  | ended g ending => exact ⟨keyed_endGroup h.keyed g ending, h.localAccount⟩

/-! ### Who is brought in -/

theorem loadPendingInvite_accepted (h : device.loadPendingInvite nonce = some invite) (g member : String) :
    ((device.updateInviteStatus nonce .accepted).expireOutboundInvitesTo g
      member).loadPendingInvite nonce = some { invite with status := .accepted } := by
  show ((device.invites.modify nonce _).map _)[nonce]? = _
  rw [Std.ExtTreeMap.getElem?_map, Std.ExtTreeMap.getElem?_modify]
  have h : device.invites[nonce]? = some invite := h
  simp [h]

theorem uninvited_expireOutboundInvitesTo (device : GroupDevice) (g member : String) :
    Uninvited (device.expireOutboundInvitesTo g member) g member := by
  intro nonce invite hinvite houtbound hgroup hinvitee hpending
  have hmoved : (device.invites.map _)[nonce]? = some invite := hinvite
  rw [Std.ExtTreeMap.getElem?_map] at hmoved
  obtain ⟨old, hold, rfl⟩ := Option.map_eq_some_iff.mp hmoved
  split at hpending
  · cases hpending
  · next hspared =>
      rw [if_neg hspared] at hgroup hinvitee houtbound
      apply hspared
      simp [hgroup, hinvitee, houtbound, hpending]

/-- What an event that brings someone in found and left. -/
structure Brought (pipeline : RelayReceivePipeline) (s : Inviter) (e : InviterEvent)
    (b : BroughtIn) : Prop where
  localAccount : pipeline.localAccount ≠ ""
  invite : ∃ invite, s.device.loadPendingInvite b.inviteNonce = some invite ∧
    invite.outbound = true ∧ invite.inviteeIdentity = b.memberIdentity ∧
    invite.groupId = b.groupId ∧ invite.status = .pending ∧
    (s.next pipeline e).device.loadPendingInvite b.inviteNonce =
      some { invite with status := .accepted }
  goesOn : ∃ m, s.device.roster.loadMetadata b.groupId = some m ∧ m.syncState ≠ .dissolved
  isMember : (s.next pipeline e).device.roster.isMember b.groupId b.memberIdentity = true
  room : s.device.roster.isMember b.groupId b.memberIdentity = true ∨
    (heldStatement s.device.roster b.groupId).any (·.lists b.memberIdentity) = true ∨
    ((s.next pipeline e).device.roster.listMembers b.groupId).length ≤ kMaxGroupMembers
  uninvited : Uninvited (s.next pipeline e).device b.groupId b.memberIdentity

theorem brought_of_added (h : s.Sound pipeline) {metadata : GroupMetadata}
    (hopen : Open s.device pipeline.localAccount response.inviteNonce actor response.groupId nowMs
      invite metadata) (hafter : (s.next pipeline (.accept response actor nowMs failing)).device =
      addInvited s.device invite metadata actor pipeline.localAccount nowMs) :
    Brought pipeline s (.accept response actor nowMs failing) ⟨response.inviteNonce, response.groupId, actor⟩ := by
  have hnonce : invite.inviteNonce = response.inviteNonce := h.keyed _ _ hopen.stored
  have hgroup : metadata.groupId = response.groupId := GroupRosterStore.groupId_of_loadMetadata hopen.held
  have hrows : (addInvited s.device invite metadata actor pipeline.localAccount
      nowMs).roster.roster response.groupId = (s.device.roster.roster response.groupId).insert actor
        { memberIdentity := actor, joinedAt := nowMs, addedBy := pipeline.localAccount } := by
    show ((s.device.roster.upsertMember metadata.groupId _).upsertMetadata _).roster _ = _
    rw [GroupRosterStore.roster_upsertMetadata, GroupRosterStore.roster_upsertMember, hgroup,
      if_pos rfl]
  refine ⟨hopen.localAccount, ⟨invite, hopen.stored, hopen.outbound, hopen.invitee, hopen.group,
    hopen.pending, ?_⟩, ⟨metadata, hopen.held, hopen.goesOn⟩, ?_, .inr (.inr ?_), ?_⟩
  · rw [hafter]
    unfold addInvited
    dsimp only
    rw [← hnonce]
    apply loadPendingInvite_accepted
    rw [hnonce]
    exact hopen.stored
  · rw [hafter]
    unfold GroupRosterStore.isMember GroupRosterStore.findMember
    rw [hrows]
    simp
  · rw [hafter, length_listMembers, hrows]
    have hroom := hopen.room
    rw [length_listMembers] at hroom
    exact Std.ExtTreeMap.size_insert_le.trans hroom
  · rw [hafter]
    unfold addInvited
    dsimp only
    rw [hopen.group]
    exact uninvited_expireOutboundInvitesTo _ _ _

theorem brought_of_brings (h : s.Sound pipeline) (hmeets : e.Meets pipeline s)
    {b : BroughtIn} (hb : e.brings pipeline s = some b) : Brought pipeline s e b := by
  cases e with
  | accept response actor nowMs failing =>
    rw [brings_accept] at hb
    split at hb
    swap
    · cases hb
    next hanswer =>
    cases hb
    have hstep := h.acceptStep hmeets
    rw [hanswer] at hstep
    obtain ⟨invite, metadata, hopen, hafter⟩ := hstep.of_added
    exact brought_of_added h hopen hafter
  | decline response actor failing | invited invite | changed roster closed | ended g ending =>
    cases hb
  | admitMember admission answers =>
    by_cases hmem : admission ∈ s.toAdmit
    swap
    · rw [brings_admit_of_not_mem hmem] at hb
      cases hb
    rw [brings_admitMember hmem] at hb
    split at hb
    swap
    · cases hb
    next hresult =>
    cases hb
    have hstep := admitStep_of_meets hmeets
    rw [hresult] at hstep
    obtain ⟨roster, invite, hadmits, hroster, hafter⟩ := hstep.of_added
    obtain ⟨hgoes, hin, hroom⟩ := room_of_admitted hroster
    have hnext : (s.next pipeline (.admitMember admission answers)).device =
        (GroupDevice.updateInviteStatus { s.device with roster } admission.inviteNonce
          .accepted).expireOutboundInvitesTo admission.groupId admission.memberIdentity := by
      rw [next_admitMember hmem]
      exact hafter
    refine ⟨h.localAccount (List.ne_nil_of_mem hmem), ⟨invite, hadmits.stored, hadmits.outbound,
      hadmits.invitee, hadmits.group, hadmits.pending, ?_⟩, hgoes, ?_, .inr ?_, ?_⟩
    · rw [hnext]
      exact loadPendingInvite_accepted hadmits.stored _ _
    · rw [hnext]
      exact hin
    · rw [hnext]
      exact hroom
    · rw [hnext]
      exact uninvited_expireOutboundInvitesTo _ _ _

/-! ### Each step -/

theorem countP_listMembers {store : GroupRosterStore} (h : store.isMember g member = true) :
    (store.listMembers g).countP (·.memberIdentity = member) = 1 := by
  have hkeys : (store.listMembers g).map (·.memberIdentity) = (store.roster g).keys :=
    (store.keyed_rosters g).map_values
  have hmem : member ∈ (store.roster g).keys := by
    rw [Std.ExtTreeMap.mem_keys, Std.ExtTreeMap.mem_iff_isSome_getElem?]
    exact h
  have hcount : (store.roster g).keys.count member = 1 :=
    List.count_eq_one_of_mem Std.ExtTreeMap.nodup_keys hmem
  rw [← hkeys, List.count, List.countP_map] at hcount
  rw [← hcount]
  apply List.countP_congr
  intro row _
  simp

theorem uninvited_of_ended {g : String} (h : ∃ m, device.roster.loadMetadata g = some m ∧ m.syncState ≠ .dissolved)
    (hinvite : ((device.endGroup g ending).getD device).loadPendingInvite nonce = some invite)
    (hgroup : invite.groupId = g) : invite.status ≠ .pending := by
  obtain ⟨m, hm, hd⟩ := h
  unfold GroupDevice.endGroup GroupRosterStore.endGroup at hinvite
  rw [hm] at hinvite
  dsimp only at hinvite
  rw [if_neg hd] at hinvite
  have hmoved : (device.invites.map _)[nonce]? = some invite := hinvite
  rw [Std.ExtTreeMap.getElem?_map] at hmoved
  obtain ⟨old, hold, rfl⟩ := Option.map_eq_some_iff.mp hmoved
  intro hpending
  split at hpending
  · cases hpending
  · next hspared =>
      rw [if_neg hspared] at hgroup
      exact hspared ⟨by simpa using hgroup, hpending⟩

theorem othersStay_next (h : s.Sound pipeline)
    (hmeets : InviterEvent.Meets pipeline s (.accept response actor nowMs failing)) : OthersStay s.device.roster
      (s.next pipeline (.accept response actor nowMs failing)).device.roster response.groupId actor := by
  have hstep := h.acceptStep hmeets
  generalize s.answer pipeline response actor nowMs failing = answer,
    (s.next pipeline (.accept response actor nowMs failing)).device = after at hstep ⊢
  cases hstep with
  | refused e hours | already invite metadata hours hstatus
  | signAdd invite metadata hopen howner => exact fun _ _ _ => rfl
  | closed e after invite metadata hours hstatus hwhy hafter =>
    rcases hafter with rfl | rfl
    · exact fun _ _ _ => rfl
    · exact fun _ _ _ => rfl
  | broken after invite metadata hopen hinvites hothers hfails => exact hothers
  | added invite metadata hopen =>
    rw [← GroupRosterStore.groupId_of_loadMetadata hopen.held]
    exact othersStay_upsertMember s.device.roster metadata.groupId
      { memberIdentity := actor, joinedAt := nowMs, addedBy := pipeline.localAccount }

theorem next_of_refused (hnone : ∀ invite metadata, ¬ Ours s.device pipeline.localAccount response.inviteNonce actor
      response.groupId invite metadata) : s.next pipeline (.accept response actor nowMs failing) = s := by
  obtain ⟨e, he, hrun⟩ := accept_refused hnone
  unfold Inviter.next InviterEvent.take
  dsimp only
  rw [applyInviteAccepted_of_error he hrun]

/-- An owner's accept of an open invite fails by a write or lets the member
in. -/
theorem again_of_step (h : s.Sound pipeline) {metadata : GroupMetadata}
    (hmeets : InviterEvent.Meets pipeline s (.accept response actor nowMs failing))
    (hours : Ours s.device pipeline.localAccount response.inviteNonce actor response.groupId invite metadata)
    (hpending : invite.status = .pending) (htime : InTime invite nowMs)
    (howner : metadata.ownerIdentity = pipeline.localAccount)
    (hroom : (s.device.roster.listMembers response.groupId).length < kMaxGroupMembers) : (true ∈ failing ∧
      (InviterEvent.accept response actor nowMs failing).brings pipeline s = none ∧
      (s.next pipeline (.accept response actor nowMs failing)).device.loadPendingInvite
        response.inviteNonce = some invite) ∨ (s.answer pipeline response actor nowMs failing = .ok .added ∧
      ((s.next pipeline (.accept response actor nowMs failing)).device.roster.listMembers
        response.groupId).countP (·.memberIdentity = actor) = 1) := by
  have hstep := h.acceptStep hmeets
  have hsame : ∀ other metadata', Ours s.device pipeline.localAccount response.inviteNonce actor
      response.groupId other metadata' → other = invite ∧ metadata' = metadata := fun _ _ h' =>
    ⟨Option.mem_unique h'.stored hours.stored,
      Option.mem_unique h'.held hours.held⟩
  have hbrings := @brings_accept pipeline s response actor nowMs failing
  have hbrought := fun b => brought_of_brings (b := b) h hmeets
  generalize s.answer pipeline response actor nowMs failing = answer at hstep hbrings ⊢
  generalize hafter : (s.next pipeline (.accept response actor nowMs failing)).device = after
    at hstep ⊢
  cases hstep with
  | refused e hrefused => exact absurd hpending (hrefused invite metadata hours)
  | already other metadata' hother hstatus =>
    rw [(hsame _ _ hother).1, hpending] at hstatus
    cases hstatus
  | closed e after other metadata' hother hstatus hwhy hclosed =>
    obtain ⟨rfl, rfl⟩ := hsame _ _ hother
    exact absurd (hwhy htime howner) (Nat.not_le.mpr hroom)
  | signAdd other metadata' hother hnot =>
    exact absurd ((hsame _ _ hother.toOurs).2 ▸ howner) hnot
  | broken after other metadata' hother hinvites hothers hfails =>
    left
    refine ⟨hfails, by simpa using hbrings, ?_⟩
    show after.invites[response.inviteNonce]? = some invite
    rw [hinvites]
    exact hours.stored
  | added other metadata' hother =>
    right
    refine ⟨rfl, countP_listMembers ?_⟩
    rw [if_pos rfl] at hbrings
    have hin := (hbrought _ hbrings).isMember
    rw [hafter] at hin
    exact hin

/-- Every step of a run that meets the conditions is a proper one. -/
theorem proper_of_meets (h : s.Sound pipeline) (hmeets : e.Meets pipeline s) : Proper pipeline s e := by
  constructor
  · intro b hb
    obtain ⟨-, ⟨invite, hstored, hout, hinvitee, hgroup, hpending, -⟩, hgoes, hin, hroom, -⟩ :=
      brought_of_brings h hmeets hb
    exact ⟨⟨invite, hstored, hout, hinvitee, hgroup, hpending⟩, hgoes, hin, hroom⟩
  · rintro response actor nowMs failing rfl (hanswer | hanswer)
    · have hstep := h.acceptStep hmeets
      rw [hanswer] at hstep
      obtain ⟨invite, metadata, hopen, -⟩ := hstep.of_added
      exact ⟨invite, metadata, hopen.toOurs, hopen.pending, hopen.inTime, hopen.room⟩
    · have hstep := h.acceptStep hmeets
      rw [hanswer] at hstep
      obtain ⟨invite, metadata, hopen⟩ := hstep.of_signAdd
      exact ⟨invite, metadata, hopen.toOurs, hopen.pending, hopen.inTime, hopen.room⟩
  · rintro response actor nowMs failing rfl
    exact ⟨othersStay_next h hmeets, next_of_refused⟩
  · rintro response actor nowMs failing invite metadata rfl hours hpending htime howner hroom
    apply again_of_step h hmeets hours hpending htime howner
    rcases hroom with hlisted | hroom
    · exact hmeets.2 invite metadata hours hpending htime hlisted
    · exact hroom
  · rintro g ending rfl hgoes nonce invite hinvite hgroup
    exact uninvited_of_ended hgoes hinvite hgroup

/-! ### Whoever came in -/

/-- Every invite of ours to `member` that was stored before a step is closed
after it. -/
def ClosesFor (pipeline : RelayReceivePipeline) (s : Inviter) (e : InviterEvent)
    (g member : String) : Prop :=
  ∀ (nonce : String) invite, s.device.loadPendingInvite nonce = some invite →
    invite.outbound = true → invite.groupId = g → invite.inviteeIdentity = member →
    ∃ status, (s.next pipeline e).device.loadPendingInvite nonce = some { invite with status } ∧
      status ≠ .pending

theorem closesFor_of_after (h : s.Sound pipeline) (hmeets : e.Meets pipeline s)
    (hclosed : Uninvited (s.next pipeline e).device g member) : ClosesFor pipeline s e g member := by
  intro nonce invite hinvite hout hgroup hinvitee
  obtain ⟨status, hafter, -⟩ := kept_next h hmeets nonce invite hinvite
  exact ⟨status, hafter, hclosed nonce _ hafter hout hgroup hinvitee⟩

theorem closesFor_of_before (h : s.Sound pipeline) (hmeets : e.Meets pipeline s)
    (hclosed : Uninvited s.device g member) : ClosesFor pipeline s e g member := by
  intro nonce invite hinvite hout hgroup hinvitee
  obtain ⟨status, hafter, hsame⟩ := kept_next h hmeets nonce invite hinvite
  have hstatus := hclosed nonce invite hinvite hout hgroup hinvitee
  exact ⟨status, hafter, hsame hstatus ▸ hstatus⟩

theorem uninvited_closeAll {closed : List (String × String)} (hmem : (g, member) ∈ closed) :
    Uninvited (closeAll device closed) g member := by
  induction closed generalizing device with
  | nil => cases hmem
  | cons who closed ih =>
    rcases List.mem_cons.mp hmem with rfl | hmem
    · -- closed here, and not opened by the rest
      intro nonce invite hinvite hout hgroup hinvitee
      have hhere := uninvited_expireOutboundInvitesTo device g member
      obtain ⟨old, hold⟩ := @mem_of_closeAll (device.expireOutboundInvitesTo g member) _ _ _ hinvite
      obtain ⟨status, hafter, hsame⟩ := kept_closeAll _ closed nonce old hold
      obtain rfl := Option.mem_unique hafter hinvite
      have hstatus := hhere nonce old hold hout hgroup hinvitee
      exact hsame hstatus ▸ hstatus
    · exact ih hmem

theorem closesFor_of_cameIn (h : s.Sound pipeline)
    (hmeets : e.Meets pipeline s) (hcame : CameIn pipeline (s, e) g member) : ClosesFor pipeline s e g member := by
  rcases hcame with ⟨b, hb, rfl, rfl⟩ | ⟨hnot, hout, hin⟩
  · exact closesFor_of_after h hmeets (brought_of_brings h hmeets hb).uninvited
  dsimp only at hnot hout hin
  cases e with
  | accept response actor nowMs failing => exact absurd rfl (hnot _ _ _ _)
  | decline response actor failing =>
    have hroster : (s.next pipeline (.decline response actor failing)).device.roster =
        s.device.roster := by
      show (InviteAccepts.applyInviteDeclineToRoster _ _ _ _).2.store.roster = _
      rcases decline_cases s.device failing response.inviteNonce actor response.groupId with
        hsame | ⟨-, hdeclined⟩
      · rw [hsame]
      · rw [hdeclined]
        rfl
    rw [hroster, hout] at hin
    cases hin
  | admitMember admission answers =>
    by_cases hmem : admission ∈ s.toAdmit
    swap
    · rw [next_admit_of_not_mem hmem, hout] at hin
      cases hin
    have hmeets' := hmeets.2.2.2 g member hout
    have hstep := admitStep_of_meets hmeets
    have hnext := congrArg Inviter.device
      (@next_admitMember pipeline _ _ answers hmem)
    dsimp only at hnext
    rw [hnext] at hin
    generalize hresult : (admitInvitee pipeline.crypto pipeline.accountCards s.device admission
      answers).1 = result at hstep
    generalize hafter : (admitInvitee pipeline.crypto pipeline.accountCards s.device admission
      answers).2 = after at hstep hin hnext
    cases hstep with
    | idle result hidle =>
      rw [hout] at hin
      cases hin
    | resynced invite hadmits =>
      have hin : s.device.roster.isMember g member = true := hin
      rw [hout] at hin
      cases hin
    | refused e roster after invite hadmits hroster hclosed =>
      have hin : roster.isMember g member = true := by
        rcases hclosed with rfl | rfl
        · exact hin
        · exact hin
      rcases hroster with rfl | ⟨e', hroster⟩
      · rw [hout] at hin
        cases hin
      · rw [hroster] at hmeets'
        rcases hmeets' hin with ⟨hok, -⟩ | hbefore
        · cases hok
        · exact closesFor_of_before h hmeets hbefore
    | added roster invite hadmits hroster =>
      rw [hroster] at hmeets'
      rcases hmeets' hin with ⟨-, rfl, rfl⟩ | hbefore
      · apply closesFor_of_after h hmeets
        rw [hnext]
        exact uninvited_expireOutboundInvitesTo _ _ _
      · exact closesFor_of_before h hmeets hbefore
  | invited invite =>
    have hin : s.device.roster.isMember g member = true := hin
    rw [hout] at hin
    cases hin
  | changed roster closed =>
    have hroster : (s.next pipeline (.changed roster closed)).device.roster = roster :=
      roster_closeAll { s.device with roster } closed
    rw [hroster] at hin
    rcases hmeets g member hout hin with hmem | hbefore
    · exact closesFor_of_after h hmeets (uninvited_closeAll hmem)
    · exact closesFor_of_before h hmeets hbefore
  | ended ended ending =>
    have hin : s.device.roster.isMember g member = true := isMember_of_endGroup hin
    rw [hout] at hin
    cases hin

/-! ### Every later step -/

theorem since_of_kept {x y : Inviter × InviterEvent} (hx : x.1.Sound pipeline)
    (hxm : x.2.Meets pipeline x.1) (hy : y.1.Sound pipeline) (hym : y.2.Meets pipeline y.1)
    (hkept : InvitesKept (x.1.next pipeline x.2).device y.1.device) : Since pipeline x y := by
  -- what `y` brings in is by an invite that was open when `y` found it
  have hlater : ∀ b, y.2.brings pipeline y.1 = some b → ∀ invite,
      (x.1.next pipeline x.2).device.loadPendingInvite b.inviteNonce = some invite →
      invite.status = .pending := by
    intro b hb invite hinvite
    obtain ⟨-, ⟨found, hfound, -, -, -, hpending, -⟩, -⟩ := brought_of_brings hy hym hb
    obtain ⟨status, hthen, hsame⟩ := hkept b.inviteNonce invite hinvite
    obtain rfl := Option.mem_unique hthen hfound
    by_contra hclosed
    exact hclosed ((hsame hclosed).symm.trans hpending)
  constructor
  · intro b hb b' hb' hsame
    obtain ⟨-, ⟨invite, -, -, -, -, -, hafter⟩, -⟩ := brought_of_brings hx hxm hb
    rw [← hsame] at hafter
    cases hlater b' hb' _ hafter
  · intro b hb response nowMs failing hevent hnonce hgroup hgoes
    obtain ⟨hlocal, ⟨invite, -, hout, hinvitee, hinviteGroup, -, hafter⟩, -⟩ := brought_of_brings hx hxm hb
    obtain ⟨status, hthen, hsame⟩ := hkept _ _ hafter
    have hstatus : status = .accepted := hsame (by simp)
    obtain ⟨m, hm, hd⟩ := hgoes
    have hours : Ours y.1.device pipeline.localAccount response.inviteNonce b.memberIdentity
        response.groupId { invite with status } m :=
      ⟨hnonce ▸ hthen, hout, hinvitee, hinviteGroup.trans hgroup.symm, hgroup ▸ hm, hd, hlocal⟩
    have hrun := applyInviteAccepted_of_ok (@Ours.accept_of_accepted _ failing _ _ _ _ nowMs _ _ hours
      hstatus)
    rw [hevent]
    unfold Inviter.answer Inviter.next InviterEvent.take
    dsimp only
    rw [hrun]
    exact ⟨rfl, rfl⟩
  · rintro nonce invite hinvite hclosed b hb rfl
    exact hclosed (hlater b hb invite hinvite)
  · rintro g member hcame nonce invite hinvite b hb rfl rfl rfl
    obtain ⟨-, ⟨found, hfound, hout, hinvitee, hgroup, hpending, -⟩, -⟩ := brought_of_brings hy hym hb
    obtain ⟨status, hmid, -⟩ := kept_next hx hxm _ invite hinvite
    obtain ⟨status', hthen, -⟩ := hkept _ _ hmid
    obtain rfl := Option.mem_unique hthen hfound
    obtain ⟨status₂, hafter, hclosed⟩ := closesFor_of_cameIn hx hxm hcame _ invite hinvite hout hgroup hinvitee
    exact hclosed (hlater b hb _ hafter)

end Steps

/-- The inviting device before it stored any invite. -/
def Inviter.start (roster : GroupRosterStore) : Inviter := { device := { roster } }

/-- In every run that keeps to the conditions, an invite lets its invitee in
once. -/
theorem invites_let_in_once (pipeline : RelayReceivePipeline) (roster : GroupRosterStore)
    (es : List InviterEvent)
    (h : Admits (Inviter.next pipeline) (fun s e => e.Meets pipeline s) (Inviter.start roster)
      es) :
    LetsInOnce pipeline (Inviter.start roster) es := by
  have hstart : (Inviter.start roster).Sound pipeline := ⟨keyed_empty _, fun h => absurd rfl h⟩
  have hrun := @Admits.carry _ _ _ _ _ _ (fun s => s.Sound pipeline)
    (fun s e hs hmeets => sound_next hs hmeets) hstart h
  constructor
  · intro x hx
    obtain ⟨hsound, hmeets⟩ := hrun.forall_trail x hx
    exact proper_of_meets hsound hmeets
  · refine @Admits.pairwise_trail _ _ _ _ _ _
      (fun x s => InvitesKept (x.1.next pipeline x.2).device s.device) _ ?_ ?_ ?_ hrun
    · exact fun s e _ => .refl
    · exact fun x s e hx hok => hx.trans (kept_next hok.1 hok.2)
    · exact fun x s e hx hkept hok => since_of_kept hx.1 hx.2 hok.1 hok.2 hkept

/-! ## Samples -/

/-- The sample pipeline of account `a`. -/
def sampleInviting : RelayReceivePipeline :=
  { crypto := sampleCrypto, accountCards := sampleCards, localAccount := "a" }

/-- `a`'s group with `a` alone in it. -/
def sampleAlone : GroupRosterStore :=
  (({} : GroupRosterStore).upsertMetadata { groupId := "g", ownerIdentity := "a" }).upsertMember
    "g" { memberIdentity := "a", role := .owner }

theorem isMember_sampleAlone {g member : String} (h : sampleAlone.isMember g member = true) :
    g = "g" ∧ member = "a" := by
  have hempty : ∀ other : String, ({} : GroupRosterStore).roster other = ∅ := fun _ => rfl
  have hrow : ((sampleAlone.roster g)[member]?).isSome = true := h
  rw [sampleAlone, GroupRosterStore.roster_upsertMember, GroupRosterStore.roster_upsertMetadata,
    GroupRosterStore.roster_upsertMetadata, hempty, hempty] at hrow
  split at hrow
  · next hg =>
      rw [Std.ExtTreeMap.getElem?_insert] at hrow
      split at hrow
      · next hsame => exact ⟨hg, (Std.LawfulEqCmp.compare_eq_iff_eq.mp hsame).symm⟩
      · simp at hrow
  · simp at hrow

/-- An invite of `b` to the sample group. -/
def sampleInvite (nonce : String) : PendingGroupInvite :=
  { inviteNonce := nonce, groupId := "g", inviterIdentity := "a", inviteeIdentity := "b"
    outbound := true }

/-- `b` accepts. -/
def sampleAccept (nonce : String) (failing : List Bool) : InviterEvent :=
  .accept { inviteNonce := nonce, groupId := "g" } "b" 0 failing

/-- `b` is invited twice and accepts one; the epoch cannot be written. The
accept comes again, `b` leaves, and accepts the other. -/
def sampleVisits : List InviterEvent :=
  [.invited (sampleInvite "m"), .invited (sampleInvite "n"), sampleAccept "m" [false, true],
    sampleAccept "m" [], .changed sampleAlone [], sampleAccept "n" [], sampleAccept "m" []]

set_option maxRecDepth 20000 in
/-- The first accept lets `b` in, once applied; the others do not. -/
theorem invites_let_in_once_sample :
    LetsInOnce sampleInviting (Inviter.start sampleAlone) sampleVisits ∧
    (trail (Inviter.next sampleInviting) (Inviter.start sampleAlone) sampleVisits).map
        (fun x => (x.2.brings sampleInviting x.1).map (·.inviteNonce)) =
      [none, none, none, some "m", none, none, none] := by
  constructor
  · apply invites_let_in_once sampleInviting sampleAlone sampleVisits
    refine ⟨trivial, trivial, ⟨by decide, fun _ _ _ _ _ _ => by decide⟩,
      ⟨by decide, fun _ _ _ _ _ _ => by decide⟩, ?_, ⟨by decide, fun _ _ _ _ _ _ => by decide⟩,
      ⟨by decide, fun _ _ _ _ _ _ => by decide⟩, trivial⟩
    intro g member hout hin
    obtain ⟨rfl, rfl⟩ := isMember_sampleAlone hin
    exact absurd hout (by decide)
  · decide

/-- `b` is invited twice and accepts one; the other cannot be closed. `b`
leaves, and accepts the other. -/
def sampleReturn : List InviterEvent :=
  [.invited (sampleInvite "m"), .invited (sampleInvite "n"),
    sampleAccept "m" [false, false, false, true], .changed sampleAlone [], sampleAccept "n" []]

set_option maxRecDepth 20000 in
/-- The invite that could not be closed brings `b` back. -/
theorem invite_brings_back :
    ¬ LetsInOnce sampleInviting (Inviter.start sampleAlone) sampleReturn := by
  rintro ⟨-, hpairs⟩
  have hrest := (List.pairwise_cons.mp (List.pairwise_cons.mp hpairs).2).2
  have hsince := (List.pairwise_cons.mp hrest).1 _ (List.mem_cons_of_mem _ List.mem_cons_self)
  exact hsince.gone "g" "b" (.inl ⟨⟨"m", "g", "b"⟩, by decide, rfl, rfl⟩) "n" (sampleInvite "n")
    (by decide) ⟨"n", "g", "b"⟩ (by decide) rfl rfl rfl

end Pbr
