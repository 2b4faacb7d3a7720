import Mathlib.Tactic.SplitIfs
import PpBrowser.Calls.CallGuests
import PpBrowser.Lib.Runs

/-!
# CallGuestsRun — a guest puts nobody out of a group's call

What messages from guests, strangers and those who left can do to the record
of a group's call at a member's device. The gate asks only whether the sender
is in the call; a decline or a leave may name someone else, a roster may list
anyone as gone, an end ends the call for all, and an invite may replace the
call's group. While no message does one of these, members stay in, the call
stays open, and whoever else comes in was brought by a member who may.
-/

namespace Pbr
namespace CallRecord

open Lib

variable (host : CallHost) (g : String)

def Member (account : String) : Prop := (host.groupStanding g account).any (·.member) = true

/-- A member named as bringer who may bring guests. -/
def NamesBringer (broughtBy : String) : Prop :=
  broughtBy ≠ "" ∧ (host.groupStanding g broughtBy).any (fun s => s.member && s.mayBringGuest) = true

instance (account : String) : Decidable (Member host g account) := inferInstanceAs (Decidable (_ = _))
instance (account : String) : Decidable (NamesBringer host g account) := inferInstanceAs (Decidable (_ ∧ _))

/-- The device holds the group's roster and is a member's. -/
structure HoldsRoster : Prop where
  group : g ≠ ""
  standing : ∀ account, (host.groupStanding g account).isSome = true
  members : ∃ members, host.groupMembers g = some members ∧
    ∀ account, account ∈ members ↔ Member host g account
  member : Member host g host.localIdentity

def Outsider (call : CallRecord) (sender : String) : Prop :=
  ¬ Member host g sender ∨ (call.findParticipant sender).all (fun row => isGone row.state) = true

instance (call : CallRecord) (sender : String) : Decidable (Outsider host g call sender) :=
  inferInstanceAs (Decidable (_ ∨ _))

/-- What a message of `sender` leaves of the call. -/
structure KeepsMembers (before after : CallRecord) (sender : String) : Prop where
  members : ∀ x, Member host g x → x ≠ sender → before.isJoined x = true → after.isJoined x = true
  here : before.isJoined host.localIdentity = true → after.isJoined host.localIdentity = true
  stands : before.state ≠ .ended → before.isJoined host.localIdentity = true →
    (∃ x, Member host g x ∧ x ≠ host.localIdentity ∧ before.isJoined x = true) → after.state ≠ .ended
  guests : ∀ x row, ¬ Member host g x → after.findParticipant x = some row → isComing row.state = true →
    (before.findParticipant x).map (·.state) ≠ some row.state → NamesBringer host g row.broughtBy

/-! ## Messages that harm nobody -/

/-- An entry that shows no member but the sender and this device in another
state than `stays` where they are joined. -/
def Spares (call : CallRecord) (sender : String) (stays : CallParticipantState → Bool)
    (entry : CallRosterEntry) : Prop :=
  Member host g entry.identity → entry.identity ≠ sender → entry.identity ≠ host.localIdentity →
    call.isJoined entry.identity = true → stays entry.state = true

instance (call : CallRecord) (sender : String) (stays : CallParticipantState → Bool)
    (entry : CallRosterEntry) : Decidable (Spares host g call sender stays entry) :=
  inferInstanceAs (Decidable (_ → _ → _ → _ → _))

/-- The message speaks for its sender only. -/
def Harmless (call : CallRecord) (sender : String) : Control → Prop
  | .decline named => named = "" ∨ named = sender
  | .leave named => named = "" ∨ named = sender
  | .remove _ _ => True
  | .ended => ∀ row ∈ call.rows, row.state = .joined → Member host g row.identity → row.identity = sender
  | .roster _ participants => ∀ entry ∈ participants, Spares host g call sender isComing entry
  | .accept _ _ _ => Member host g sender ∨
      (call.findParticipant sender).any (fun row => NamesBringer host g row.broughtBy || row.state = .joined) = true
  | .invite invite outcome => call.shouldIgnoreInvite host invite outcome sender = true ∨
      (Member host g sender ∧ invite.originGroup = g ∧ outcome.oursWins = false ∧
        ∀ entry ∈ invite.participants, Spares host g call sender (· = .joined) entry)
  | .crossed => call.oursUnanswered host = false

instance (call : CallRecord) (sender : String) : (m : Control) → Decidable (Harmless host g call sender m)
  | .decline _ => inferInstanceAs (Decidable (_ ∨ _))
  | .leave _ => inferInstanceAs (Decidable (_ ∨ _))
  | .remove _ _ => inferInstanceAs (Decidable True)
  | .ended => inferInstanceAs (Decidable (∀ row ∈ call.rows, _ → _ → _))
  | .roster _ participants => inferInstanceAs (Decidable (∀ entry ∈ participants, _))
  | .accept _ _ _ => inferInstanceAs (Decidable (_ ∨ _))
  | .invite invite _ => inferInstanceAs (Decidable (_ ∨ (_ ∧ _ ∧ _ ∧ ∀ entry ∈ invite.participants, _)))
  | .crossed => inferInstanceAs (Decidable (_ = _))

/-! ## Rows written one by one -/

variable {host g} {call before : CallRecord} {sender : String} {p : CallParticipant}

theorem findParticipant_upsert {k : String} : (call.upsertParticipant p).findParticipant k =
    if p.identity = k then some (CallSessions.mergeRow p (call.findParticipant k)) else call.findParticipant k := by
  have hkey := (CallSessions.mergeRow_keys p (call.findParticipant p.identity)).2
  rw [findParticipant, upsertParticipant, rowOf_put, hkey]
  by_cases hk : p.identity = k
  · subst hk
    rw [if_pos rfl, if_pos rfl]
  · rw [if_neg hk, if_neg hk, findParticipant]

theorem isJoined_upsert {k : String} : (call.upsertParticipant p).isJoined k =
    if p.identity = k then decide (p.state = .joined) else call.isJoined k := by
  rw [isJoined, findParticipant_upsert]
  by_cases hk : p.identity = k
  · rw [if_pos hk, if_pos hk]
    simp
  · rw [if_neg hk, if_neg hk, isJoined]

/-- What the rows of others come to, from `before` on: members joined then are
joined, and a guest's row is the one it was, or out, or names its bringer. -/
structure RowsKept (host : CallHost) (g : String) (before call : CallRecord) (sender : String) : Prop where
  members : ∀ x, Member host g x → x ≠ sender → before.isJoined x = true → call.isJoined x = true
  guests : ∀ x, ¬ Member host g x →
    (call.findParticipant x).map (fun row => (row.state, row.broughtBy)) =
        (before.findParticipant x).map (fun row => (row.state, row.broughtBy)) ∨
      ∀ row, call.findParticipant x = some row → isComing row.state = true → NamesBringer host g row.broughtBy

theorem RowsKept.refl : RowsKept host g call call sender where
  members := fun _ _ _ h => h
  guests := fun _ _ => .inl rfl

theorem RowsKept.of_rows (h : RowsKept host g before call sender) {after : CallRecord}
    (hrows : after.rows = call.rows) : RowsKept host g before after sender := by
  have hfind : ∀ x, after.findParticipant x = call.findParticipant x := by
    intro x
    rw [findParticipant, hrows, findParticipant]
  constructor
  · intro x hx hne hj
    rw [isJoined, hfind]
    exact h.members x hx hne hj
  · intro x hx
    rw [hfind]
    exact h.guests x hx

/-- One row more: a member joined before stays so, and a guest's row is as it
was, or out, or names a bringer. -/
theorem RowsKept.upsert (h : RowsKept host g before call sender)
    (hmember : Member host g p.identity → p.identity ≠ sender → before.isJoined p.identity = true →
      p.state = .joined) (hguest : ¬ Member host g p.identity → isComing p.state = true →
      NamesBringer host g p.broughtBy ∨ (p.broughtBy = "" ∧ ∃ row, call.findParticipant p.identity = some row ∧
          (NamesBringer host g row.broughtBy ∨ row.state = p.state)) ∨
        ∃ row, call.findParticipant p.identity = some row ∧ row.state = p.state ∧ row.broughtBy = p.broughtBy) :
    RowsKept host g before (call.upsertParticipant p) sender := by
  constructor
  · intro x hx hne hj
    rw [isJoined_upsert]
    by_cases hk : p.identity = x
    · subst hk
      simp [hmember hx hne hj]
    · rw [if_neg hk]
      exact h.members x hx hne hj
  · intro x hx
    rw [findParticipant_upsert]
    by_cases hk : p.identity = x
    · subst hk
      rw [if_pos rfl]
      by_cases hcoming : isComing p.state = true
      · have hkeep : ∀ row, call.findParticipant p.identity = some row →
            row.state = p.state → (CallSessions.mergeRow p (some row)).broughtBy = row.broughtBy →
            (some (CallSessions.mergeRow p (some row))).map (fun row => (row.state, row.broughtBy)) =
                (before.findParticipant p.identity).map (fun row => (row.state, row.broughtBy)) ∨
              ∀ row', some (CallSessions.mergeRow p (some row)) = some row' → isComing row'.state = true →
                NamesBringer host g row'.broughtBy := by
          intro row hrow hstate hbrought
          rcases h.guests p.identity hx with hsame | hnames
          · left
            rw [← hsame, hrow]
            simp [hstate, hbrought]
          · right
            intro row' hrow' _
            cases hrow'
            rw [hbrought]
            exact hnames row hrow (hstate ▸ hcoming)
        rcases hguest hx hcoming with hnames | ⟨hempty, row, hrow, hnames | hstate⟩ | ⟨row, hrow, hstate, hbrought⟩
        · right
          intro row hrow _
          cases hrow
          cases hfind : call.findParticipant p.identity with
          | none => exact hnames
          | some kept => simpa [CallSessions.mergeRow, hnames.1] using hnames
        · right
          intro row' hrow' _
          rw [hrow] at hrow'
          cases hrow'
          simpa [CallSessions.mergeRow, hempty] using hnames
        · rw [hrow]
          exact hkeep row hrow hstate (by simp [CallSessions.mergeRow, hempty])
        · rw [hrow]
          exact hkeep row hrow hstate (by simp [CallSessions.mergeRow, hbrought])
      · right
        intro row hrow hrowComing
        cases hrow
        rw [CallSessions.mergeRow_state] at hrowComing
        exact absurd hrowComing hcoming
    · rw [if_neg hk]
      exact h.guests x hx

/-! ## What each handler leaves -/

section Handlers

variable {named : String}

variable {identity : String} {state : CallParticipantState} {x : String} {entries : List CallRosterEntry}
  {entry : CallRosterEntry} {media : CallParticipantMedia}

@[simp] theorem originGroup_setState : (call.setState identity state).originGroup = call.originGroup := rfl

theorem RowsKept.setGone (h : RowsKept host g before call sender) (hgone : isComing state = false)
    (hwho : ¬ Member host g identity ∨ identity = sender) :
    RowsKept host g before (call.setState identity state) sender := by
  apply h.upsert
  · intro hm hne _
    rcases hwho with hout | hself
    · exact absurd hm hout
    · exact absurd hself hne
  · intro _ hcoming
    exact absurd hcoming (by simp [hgone])

theorem Outsider.ne_local (hroster : HoldsRoster host g) (h : Outsider host g call sender)
    (hjoined : call.isJoined host.localIdentity = true) : sender ≠ host.localIdentity := by
  rintro rfl
  rcases h with hm | hgone
  · exact hm hroster.member
  · rw [isJoined] at hjoined
    cases hfind : call.findParticipant host.localIdentity with
    | none => simp [hfind] at hjoined
    | some row =>
      have hstate : row.state = .joined := by simpa [hfind] using hjoined
      simp [hfind, hstate, isGone] at hgone

theorem Outsider.ne_joined (h : Outsider host g call sender) (hx : Member host g x)
    (hjoined : call.isJoined x = true) : x ≠ sender := by
  rintro rfl
  rcases h with hm | hgone
  · exact hm hx
  · rw [isJoined] at hjoined
    cases hfind : call.findParticipant x with
    | none => simp [hfind] at hjoined
    | some row =>
      have hstate : row.state = .joined := by simpa [hfind] using hjoined
      simp [hfind, hstate, isGone] at hgone

theorem KeepsMembers.of_rows (hroster : HoldsRoster host g) (hout : Outsider host g before sender)
    (hrows : RowsKept host g before call sender)
    (hstands : before.state ≠ .ended → before.isJoined host.localIdentity = true →
      (∃ x, Member host g x ∧ x ≠ host.localIdentity ∧ before.isJoined x = true) → call.state ≠ .ended) :
    KeepsMembers host g before call sender where
  members := hrows.members
  here := fun hj => hrows.members _ hroster.member (hout.ne_local hroster hj).symm hj
  stands := hstands
  guests := by
    intro x row hx hfind hcoming hnew
    rcases hrows.guests x hx with hsame | hnames
    · rw [hfind] at hsame
      refine absurd ?_ hnew
      cases hb : before.findParticipant x with
      | none => simp [hb] at hsame
      | some old =>
        obtain ⟨hstate, -⟩ : row.state = old.state ∧ row.broughtBy = old.broughtBy := by
          simpa [hb] using hsame
        simp [hstate]
    · exact hnames row hfind hcoming

theorem exists_of_isJoined (h : call.isJoined x = true) :
    ∃ row ∈ call.rows, row.identity = x ∧ row.state = .joined := by
  rw [isJoined, Option.any_eq_true] at h
  obtain ⟨row, hfind, hstate⟩ := h
  obtain ⟨hmem, hkey⟩ := rowOf_some hfind
  exact ⟨row, hmem, hkey, by simpa using hstate⟩

theorem state_afterLeave (hgroup : call.originGroup ≠ "") (hopen : call.state ≠ .ended)
    (hjoined : call.isJoined x = true) : call.afterLeave.state ≠ .ended := by
  obtain ⟨row, hmem, -, hstate⟩ := exists_of_isJoined hjoined
  have hcount : call.countJoined ≠ 0 := by
    intro hzero
    have hnil := List.length_eq_zero_iff.mp hzero
    have hin : row ∈ call.rows.filter (·.state = .joined) := by simp [hmem, hstate]
    rw [hnil] at hin
    cases hin
  have hgrp : call.isGroupCall = true := by simp [isGroupCall, hgroup]
  simp only [afterLeave, transitionOnLeave, if_neg hopen, if_neg hcount, hgrp]
  split_ifs <;> simp_all

section

variable (hroster : HoldsRoster host g)
include hroster

/-- Someone else gone: their row, and a call that goes on. -/
theorem participantGone_kept (hgroup : call.originGroup = g) (hwho : ¬ Member host g identity ∨ identity = sender) :
    RowsKept host g call (call.participantGone host identity) sender ∧
      (call.state ≠ .ended → call.isJoined host.localIdentity = true → identity ≠ host.localIdentity →
        (call.participantGone host identity).state ≠ .ended) := by
  have hset : RowsKept host g call (call.setState identity .left) sender := RowsKept.refl.setGone rfl hwho
  unfold participantGone
  dsimp only
  split_ifs with hended hself
  · exact ⟨hset, fun hopen => absurd hended hopen⟩
  · exact ⟨hset.of_rows rfl, fun _ _ hne => absurd hself hne⟩
  · refine ⟨hset.of_rows rfl, ?_⟩
    intro hopen hjoined hne
    have hstill : (call.setState identity .left).isJoined host.localIdentity = true := by
      rw [setState, isJoined_upsert, if_neg hne]
      exact hjoined
    apply state_afterLeave _ _ hstill
    · simpa [hgroup] using hroster.group
    · exact hopen

theorem keeps_leave (hgroup : call.originGroup = g)
    (hout : Outsider host g call sender) (hself : named = "" ∨ named = sender) :
    KeepsMembers host g call (call.handleInboundLeave host named sender) sender := by
  have hwho : (if named = "" then sender else named) = sender := by
    rcases hself with rfl | rfl
    · simp
    · simp
  rw [handleInboundLeave, hwho]
  obtain ⟨hrows, hstands⟩ := participantGone_kept hroster hgroup (.inr (Eq.refl sender))
  apply KeepsMembers.of_rows hroster hout hrows
  intro hopen hjoined _
  exact hstands hopen hjoined (hout.ne_local hroster hjoined)

theorem keeps_decline (hout : Outsider host g call sender) (hself : named = "" ∨ named = sender) :
    KeepsMembers host g call (call.handleInboundDecline host named sender) sender := by
  have hwho : (if named = "" then sender else named) = sender := by
    rcases hself with rfl | rfl
    · simp
    · simp
  have hset : RowsKept host g call (call.setState sender .declined) sender :=
    RowsKept.refl.setGone rfl (.inr rfl)
  unfold handleInboundDecline
  rw [hwho]
  dsimp only
  split_ifs with halone
  · have hend : RowsKept host g call (call.setState sender .declined).endCallLocal sender := hset.of_rows rfl
    apply KeepsMembers.of_rows hroster hout hend
    rintro _ _ ⟨x, hx, hne, hjoined⟩
    -- the other member is still there to answer
    have hx' := hset.members x hx (hout.ne_joined hx hjoined) hjoined
    obtain ⟨row, hmem, hkey, hstate⟩ := exists_of_isJoined hx'
    have hinterest : (call.setState sender .declined).remoteInterest host = true := by
      rw [remoteInterest, List.any_eq_true]
      exact ⟨row, hmem, by simp [hkey, hne, hstate, isComing]⟩
    rw [halone.2] at hinterest
    cases hinterest
  · exact KeepsMembers.of_rows hroster hout hset (fun hopen _ _ => hopen)

theorem keeps_accept (hout : Outsider host g call sender) {nowMs : Int}
    (hmay : Harmless host g call sender (.accept named media nowMs)) :
    KeepsMembers host g call (call.handleInboundAccept named sender media nowMs) sender := by
  unfold handleInboundAccept
  by_cases hother : named ≠ "" ∧ named ≠ sender
  · rw [if_pos hother]
    exact KeepsMembers.of_rows hroster hout .refl (fun hopen _ _ => hopen)
  rw [if_neg hother]
  have hset : RowsKept host g call (call.upsertParticipant
      { callId := call.callId, identity := sender, state := .joined, media, joinedAt := some nowMs }) sender := by
    apply RowsKept.refl.upsert
    · intro _ hne _
      exact absurd rfl hne
    · intro hm _
      right
      left
      rcases hmay with hmember | hrow
      · exact absurd hmember hm
      · cases hfind : call.findParticipant sender with
        | none => simp [hfind] at hrow
        | some row =>
          have hok : NamesBringer host g row.broughtBy ∨ row.state = .joined := by simpa [hfind] using hrow
          exact ⟨rfl, row, rfl, hok⟩
  dsimp only
  split_ifs with hended
  · exact KeepsMembers.of_rows hroster hout hset (fun hopen _ _ => hopen)
  · exact KeepsMembers.of_rows hroster hout (hset.of_rows rfl) (fun _ _ _ => by simp)

theorem standingIn_eq (hgroup : call.originGroup = g) (account : String) :
    call.standingIn host account = host.groupStanding g account := by
  have hne := hroster.group
  simp [standingIn, checksGuests, hgroup, hne]

end

/-- Where the roster is held, whoever is put out by a removal is no member. -/
theorem not_member_of_decideCallRemove {check : CallRemoveCheck} {standing : CallGroupStanding}
    (htarget : check.target = some standing) (h : decideCallRemove check ≠ .refused) :
    standing.member = false ∧ (check.namesLocal = false → decideCallRemove check = .remove) := by
  unfold decideCallRemove at h ⊢
  rw [htarget] at h ⊢
  dsimp only at h ⊢
  by_cases hcall : (!check.groupCall) = true
  · exact absurd (if_pos hcall) h
  rw [if_neg hcall] at h ⊢
  by_cases hmember : standing.member = true
  · exact absurd (if_pos hmember) h
  rw [if_neg hmember] at h ⊢
  refine ⟨by simpa using hmember, fun hother => ?_⟩
  cases hsender : check.sender with
  | none =>
    rw [hsender] at h
    exact absurd rfl h
  | some sender =>
    rw [hsender] at h
    dsimp only at h ⊢
    by_cases hmay : (!(sender.member && sender.mayRemoveGuest)) = true
    · exact absurd (if_pos hmay) h
    · rw [if_neg hmay, hother]
      rfl

theorem keeps_remove (hroster : HoldsRoster host g) (hgroup : call.originGroup = g)
    (hout : Outsider host g call sender) {ringing : Bool} :
    KeepsMembers host g call (call.handleInboundRemove host identity sender ringing) sender := by
  have hkeep : KeepsMembers host g call call sender :=
    KeepsMembers.of_rows hroster hout .refl (fun hopen _ _ => hopen)
  obtain ⟨standing, hstanding⟩ := Option.isSome_iff_exists.mp (hroster.standing identity)
  unfold handleInboundRemove
  by_cases hended : call.state = .ended
  · rw [if_pos hended]
    exact hkeep
  rw [if_neg hended]
  dsimp only
  have htarget : call.standingIn host identity = some standing := by
    rw [standingIn_eq hroster hgroup, hstanding]
  split
  · exact hkeep
  · -- this device's own account is a member
    rename_i hleave
    obtain ⟨hmember, hremove⟩ := not_member_of_decideCallRemove htarget (by rw [hleave]; simp)
    by_cases hlocal : identity = host.localIdentity
    · subst hlocal
      have hself := hroster.member
      simp [Member, hstanding, hmember] at hself
    · rw [hremove (by simpa using hlocal)] at hleave
      cases hleave
  · rename_i hremove
    obtain ⟨hmember, -⟩ := not_member_of_decideCallRemove htarget (by rw [hremove]; simp)
    split_ifs with hin
    · have hnot : ¬ Member host g identity := by simp [Member, hstanding, hmember]
      obtain ⟨hrows, hstands⟩ := participantGone_kept hroster hgroup (.inl hnot)
      apply KeepsMembers.of_rows hroster hout hrows
      intro hopen hjoined _
      apply hstands hopen hjoined
      rintro rfl
      exact hnot hroster.member
    · exact hkeep

/-- An entry taken from a roster is a member's, or names its bringer. -/
theorem namesBringer_of_taken (hroster : HoldsRoster host g) (hgroup : call.originGroup = g)
    (htaken : entry ∈ call.dropRefusedGuests host entries) (hne : entry.identity ≠ "")
    (hout : ¬ Member host g entry.identity) : NamesBringer host g entry.broughtBy := by
  have hlocal : entry.identity ≠ host.localIdentity := by
    intro hself
    exact hout (hself ▸ hroster.member)
  have hchecks : call.checksGuests = true := by simp [checksGuests, hgroup, hroster.group]
  obtain ⟨standing, hstanding⟩ := Option.isSome_iff_exists.mp (hroster.standing entry.identity)
  have hnot : standing.member = false := by simpa [Member, hstanding] using hout
  unfold dropRefusedGuests at htaken
  rw [hchecks] at htaken
  have htakes : takesCallRosterEntry (call.standingIn host entry.identity) entry.broughtBy
      (if entry.broughtBy = "" then none else call.standingIn host entry.broughtBy) = true := by
    simpa [hne, hlocal] using (List.mem_filter.mp htaken).2
  rw [standingIn_eq hroster hgroup, hstanding] at htakes
  unfold takesCallRosterEntry at htakes
  dsimp only at htakes
  rw [hnot, Bool.false_or, Bool.and_eq_true] at htakes
  obtain ⟨hbrought, hbringer⟩ := htakes
  have hbrought' : entry.broughtBy ≠ "" := by simpa using hbrought
  rw [if_neg hbrought', standingIn_eq hroster hgroup] at hbringer
  refine ⟨hbrought', ?_⟩
  cases hs : host.groupStanding g entry.broughtBy with
  | none => simp [hs] at hbringer
  | some bringer => simpa [hs] using hbringer

theorem mem_of_dropRefusedGuests (h : entry ∈ call.dropRefusedGuests host entries) : entry ∈ entries := by
  unfold dropRefusedGuests at h
  split_ifs at h
  · exact h
  · exact (List.mem_filter.mp h).1

theorem isJoined_of_find {row : CallParticipant} (hfind : call.findParticipant x = some row) :
    call.isJoined x = decide (row.state = .joined) := by
  rw [isJoined, hfind]
  rfl

theorem RowsKept.rosterEntry (hroster : HoldsRoster host g) (h : RowsKept host g before call sender)
    (hspares : Spares host g before sender isComing entry)
    (hnames : entry.identity ≠ "" → ¬ Member host g entry.identity → NamesBringer host g entry.broughtBy) :
    RowsKept host g before (applyRosterEntry host call entry) sender := by
  unfold applyRosterEntry
  by_cases hempty : entry.identity = ""
  · rw [if_pos hempty]
    exact h
  rw [if_neg hempty]
  have hguest : ¬ Member host g entry.identity → NamesBringer host g entry.broughtBy := hnames hempty
  by_cases hlocal : host.localIdentity ≠ "" ∧ entry.identity = host.localIdentity
  · -- this device's own row: only the time it joined is taken
    rw [if_pos hlocal]
    have hself : Member host g entry.identity := hlocal.2 ▸ hroster.member
    by_cases hstamp : entry.joinedAt = none
    · rw [if_pos hstamp]
      exact h
    rw [if_neg hstamp]
    cases hfind : call.findParticipant entry.identity with
    | none => exact h
    | some own =>
      obtain ⟨-, hkey⟩ := rowOf_some hfind
      dsimp only
      split_ifs with hsame
      · apply h.upsert
        · intro hm hne hj
          have hj' := h.members _ hm hne hj
          rw [isJoined_of_find (show call.findParticipant own.identity = some own from hkey ▸ hfind)] at hj'
          exact of_decide_eq_true hj'
        · intro hm _
          exact absurd (hkey ▸ hself) hm
      · exact h
  rw [if_neg hlocal]
  have hother : entry.identity ≠ host.localIdentity := by
    intro hself
    exact hlocal ⟨hself ▸ hempty, hself⟩
  have hput : (Member host g entry.identity → entry.identity ≠ sender →
      before.isJoined entry.identity = true → entry.state = .joined) →
      RowsKept host g before (call.upsertParticipant (rosterRow call.callId entry)) sender :=
    fun hmember => h.upsert hmember (fun hm _ => .inl (hguest hm))
  cases hfind : call.findParticipant entry.identity with
  | none =>
    apply hput
    intro hm hne hj
    have hj' := h.members _ hm hne hj
    simp [isJoined, hfind] at hj'
  | some existing =>
    obtain ⟨-, hkey⟩ := rowOf_some hfind
    have hjoined : Member host g entry.identity → entry.identity ≠ sender →
        before.isJoined entry.identity = true → existing.state = .joined := by
      intro hm hne hj
      have hj' := h.members _ hm hne hj
      rw [isJoined_of_find hfind] at hj'
      exact of_decide_eq_true hj'
    dsimp only
    by_cases hcoming : isComing entry.state = true
    · rw [if_pos hcoming]
      split_ifs with hgone hstays
      · exact h
      · -- joined here: the entry is only behind
        apply h.upsert
        · exact fun _ _ _ => hstays.1
        · intro _ _
          right
          right
          exact ⟨existing, hkey.symm ▸ hfind, rfl, rfl⟩
      · apply hput
        intro hm hne hj
        have hj' := hjoined hm hne hj
        by_contra hnot
        exact hstays ⟨hj', hnot⟩
    · rw [if_neg hcoming]
      apply hput
      intro hm hne hj
      exact absurd (hspares hm hne hother hj) hcoming

theorem rosterEntry_rows : ∃ rows, applyRosterEntry host call entry = { call with rows } := by
  unfold applyRosterEntry
  split_ifs
  · exact ⟨_, rfl⟩
  · exact ⟨_, rfl⟩
  · split
    · exact ⟨_, rfl⟩
    · split_ifs
      · exact ⟨_, rfl⟩
      · exact ⟨_, rfl⟩
  · split
    · exact ⟨_, rfl⟩
    · split_ifs
      · exact ⟨_, rfl⟩
      · exact ⟨_, rfl⟩
      · exact ⟨_, rfl⟩
  · split
    · exact ⟨_, rfl⟩
    · exact ⟨_, rfl⟩

theorem RowsKept.rosterEntries (hroster : HoldsRoster host g)
    (hentries : ∀ entry ∈ entries, Spares host g before sender isComing entry ∧
      (entry.identity ≠ "" → ¬ Member host g entry.identity → NamesBringer host g entry.broughtBy))
    (h : RowsKept host g before call sender) :
    RowsKept host g before (entries.foldl (applyRosterEntry host) call) sender ∧
      (entries.foldl (applyRosterEntry host) call).state = call.state ∧
      (entries.foldl (applyRosterEntry host) call).originGroup = call.originGroup := by
  induction entries generalizing call with
  | nil => exact ⟨h, rfl, rfl⟩
  | cons entry entries ih =>
    obtain ⟨hspares, hnames⟩ := hentries entry List.mem_cons_self
    have hstep := h.rosterEntry hroster hspares hnames
    have ⟨_, hrest⟩ : ∃ rows, applyRosterEntry host call entry = { call with rows } := rosterEntry_rows
    obtain ⟨hrows, hstate, horigin⟩ := ih (fun e he => hentries e (List.mem_cons_of_mem _ he)) hstep
    exact ⟨hrows, hstate.trans (by rw [hrest]), horigin.trans (by rw [hrest])⟩

theorem keeps_roster (hroster : HoldsRoster host g) (hgroup : call.originGroup = g)
    (hout : Outsider host g call sender) {mediaEpoch : Nat} {participants : List CallRosterEntry}
    (hmay : Harmless host g call sender (.roster mediaEpoch participants)) :
    KeepsMembers host g call (call.handleInboundRoster host mediaEpoch participants) sender ∧
      (call.handleInboundRoster host mediaEpoch participants).originGroup = g := by
  have hstart : RowsKept host g call { call with mediaEpoch := max call.mediaEpoch mediaEpoch } sender :=
    RowsKept.refl.of_rows rfl
  obtain ⟨hrows, hstate, horigin⟩ :=
    hstart.rosterEntries hroster fun entry (hentry : entry ∈ call.dropRefusedGuests host participants) =>
      ⟨hmay entry (mem_of_dropRefusedGuests hentry), namesBringer_of_taken hroster hgroup hentry⟩
  refine ⟨KeepsMembers.of_rows hroster hout hrows fun hopen _ _ => ?_, horigin.trans hgroup⟩
  exact fun hended => hopen (hstate.symm.trans hended)

/-- Where no member but the sender is joined, an end takes out no member. -/
theorem keeps_ended (hroster : HoldsRoster host g) (hout : Outsider host g call sender)
    (hmay : Harmless host g call sender .ended) : KeepsMembers host g call (call.handleInboundEnded host) sender := by
  have hnobody : ∀ x, Member host g x → x ≠ sender → call.isJoined x = true → False := by
    intro x hx hne hj
    obtain ⟨row, hmem, hkey, hstate⟩ := exists_of_isJoined hj
    exact hne (hkey ▸ hmay row hmem hstate (hkey ▸ hx))
  have hleft : ∀ rows : List CallParticipant, ∀ current : CallRecord,
      RowsKept host g call current sender →
        RowsKept host g call (rows.foldl (fun call row => call.upsertParticipant { row with state := .left }) current)
          sender := by
    intro rows
    induction rows with
    | nil => exact fun _ h => h
    | cons row rows ih =>
      intro current h
      apply ih
      apply h.upsert
      · intro hm hne hj
        exact (hnobody _ hm hne hj).elim
      · intro _ hcoming
        cases hcoming
  have hrows : RowsKept host g call (call.markEveryoneLeft host) sender := hleft _ call .refl
  have hstands : ∀ after : CallRecord, call.state ≠ .ended → call.isJoined host.localIdentity = true →
      (∃ x, Member host g x ∧ x ≠ host.localIdentity ∧ call.isJoined x = true) → after.state ≠ .ended :=
    fun _ _ hj _ => (hnobody _ hroster.member (hout.ne_local hroster hj).symm hj).elim
  unfold handleInboundEnded
  dsimp only
  split_ifs with hended
  · exact KeepsMembers.of_rows hroster hout hrows (hstands _)
  · exact KeepsMembers.of_rows hroster hout (hrows.of_rows rfl) (hstands _)

/-- One row of an invite's roster, at a device that is not in the call. -/
theorem RowsKept.seedRow (haway : before.isJoined host.localIdentity = false)
    (h : RowsKept host g before call sender) (hspares : Spares host g before sender (· = .joined) entry)
    (hnames : entry.identity ≠ "" → ¬ Member host g entry.identity → NamesBringer host g entry.broughtBy) :
    RowsKept host g before (call.seedRow host sender entry) sender := by
  unfold CallRecord.seedRow
  by_cases hempty : entry.identity = ""
  · rw [if_pos hempty]
    exact h
  rw [if_neg hempty]
  apply h.upsert
  · intro hm hne hj
    dsimp only at hm hne hj ⊢
    have hother : entry.identity ≠ host.localIdentity := by
      intro hself
      rw [hself, haway] at hj
      cases hj
    rw [if_neg hother, if_neg hne]
    exact of_decide_eq_true (hspares hm hne hother hj)
  · intro hm _
    exact .inl (hnames hempty hm)

theorem RowsKept.seedRows (haway : before.isJoined host.localIdentity = false)
    (hentries : ∀ entry ∈ entries, Spares host g before sender (· = .joined) entry ∧
      (entry.identity ≠ "" → ¬ Member host g entry.identity → NamesBringer host g entry.broughtBy))
    (h : RowsKept host g before call sender) :
    RowsKept host g before (entries.foldl (fun call entry => call.seedRow host sender entry) call) sender ∧
      (entries.foldl (fun call entry => call.seedRow host sender entry) call).originGroup = call.originGroup := by
  induction entries generalizing call with
  | nil => exact ⟨h, rfl⟩
  | cons entry entries ih =>
    obtain ⟨hspares, hnames⟩ := hentries entry List.mem_cons_self
    obtain ⟨hrows, horigin⟩ :=
      ih (fun e he => hentries e (List.mem_cons_of_mem _ he)) (h.seedRow haway hspares hnames)
    refine ⟨hrows, horigin.trans ?_⟩
    unfold CallRecord.seedRow
    by_cases hempty : entry.identity = ""
    · rw [if_pos hempty]
    · rw [if_neg hempty]
      rfl

theorem keeps_invite (hroster : HoldsRoster host g) (hgroup : call.originGroup = g)
    (hout : Outsider host g call sender) {invite : Invite} {outcome : InviteOutcome}
    (hmay : Harmless host g call sender (.invite invite outcome)) :
    KeepsMembers host g call (call.handleInboundInvite host invite outcome sender) sender ∧
      (call.handleInboundInvite host invite outcome sender).originGroup = g := by
  unfold handleInboundInvite
  by_cases hignored : call.shouldIgnoreInvite host invite outcome sender = true
  · rw [if_pos hignored]
    exact ⟨KeepsMembers.of_rows hroster hout .refl (fun hopen _ _ => hopen), hgroup⟩
  rw [if_neg hignored]
  rcases hmay with hsame | ⟨hsender, horigin, hyields, hspares⟩
  · exact absurd hsame hignored
  rw [hyields, if_neg (by simp)]
  have haway : call.isJoined host.localIdentity = false := by
    have hparts : ∀ a b c d e : Bool, (a || b || c || d || e) ≠ true → b = false := by decide
    exact hparts _ _ _ _ _ hignored
  have hbase : (call.storeRingingInvite invite sender).originGroup = g := horigin
  have hstart : RowsKept host g call (call.storeRingingInvite invite sender) sender := RowsKept.refl.of_rows rfl
  obtain ⟨hseeded, hseededGroup⟩ :=
    hstart.seedRows haway
      fun entry (hentry : entry ∈ (call.storeRingingInvite invite sender).dropRefusedGuests host invite.participants) =>
        ⟨hspares entry (mem_of_dropRefusedGuests hentry), namesBringer_of_taken hroster hbase hentry⟩
  have hrows : RowsKept host g call
      ((call.storeRingingInvite invite sender).seedInviteRoster host invite sender) sender := by
    apply RowsKept.upsert
    · apply hseeded.upsert
      · exact fun _ hne _ => absurd rfl hne
      · exact fun hm _ => absurd hsender hm
    · intro _ _ hj
      rw [haway] at hj
      cases hj
    · exact fun hm _ => absurd hroster.member hm
  have hafterGroup : ((call.storeRingingInvite invite sender).seedInviteRoster host invite sender).originGroup = g :=
    hseededGroup.trans hbase
  have hclosed : ∀ after : CallRecord, call.state ≠ .ended → call.isJoined host.localIdentity = true →
      (∃ x, Member host g x ∧ x ≠ host.localIdentity ∧ call.isJoined x = true) → after.state ≠ .ended := by
    intro _ _ hj
    rw [haway] at hj
    cases hj
  dsimp only
  split_ifs with hanswered
  · refine ⟨KeepsMembers.of_rows hroster hout ?_ (hclosed _), hafterGroup⟩
    have hopened : ∀ state : CallSessionState, RowsKept host g call
        { (call.storeRingingInvite invite sender).seedInviteRoster host invite sender with state } sender :=
      fun _ => hrows.of_rows rfl
    exact (hopened _).upsert (fun _ _ _ => rfl) (fun hm _ => absurd hroster.member hm)
  · exact ⟨KeepsMembers.of_rows hroster hout hrows (hclosed _), hafterGroup⟩

@[simp] theorem originGroup_participantGone :
    (call.participantGone host identity).originGroup = call.originGroup := by
  unfold participantGone
  dsimp only
  split_ifs
  · rfl
  · rfl
  · rfl

@[simp] theorem originGroup_leave : (call.handleInboundLeave host named sender).originGroup = call.originGroup :=
  originGroup_participantGone

@[simp] theorem originGroup_decline :
    (call.handleInboundDecline host named sender).originGroup = call.originGroup := by
  have hends : ∀ identity, (if (call.setState identity .declined).state ≠ .ended ∧
      (call.setState identity .declined).remoteInterest host = false then
        (call.setState identity .declined).endCallLocal
      else call.setState identity .declined).originGroup = call.originGroup := by
    intro identity
    split_ifs
    · rfl
    · rfl
  exact hends _

@[simp] theorem originGroup_accept {nowMs : Int} :
    (call.handleInboundAccept named sender media nowMs).originGroup = call.originGroup := by
  unfold handleInboundAccept
  dsimp only
  split_ifs
  · rfl
  · rfl
  · rfl

@[simp] theorem originGroup_leaveCall : (call.leaveCall host).originGroup = call.originGroup := by
  unfold leaveCall
  split_ifs
  · rfl
  · rfl
  · rfl

@[simp] theorem originGroup_remove {ringing : Bool} :
    (call.handleInboundRemove host identity sender ringing).originGroup = call.originGroup := by
  unfold handleInboundRemove
  by_cases hended : call.state = .ended
  · rw [if_pos hended]
  rw [if_neg hended]
  dsimp only
  split
  · rfl
  · cases ringing
    · exact originGroup_leaveCall
    · rfl
  · by_cases hin : (call.findParticipant identity).any (fun row => isComing row.state) = true
    · rw [if_pos hin]
      exact originGroup_participantGone
    · rw [if_neg hin]

@[simp] theorem originGroup_ended : (call.handleInboundEnded host).originGroup = call.originGroup := by
  have hleft : ∀ rows : List CallParticipant, ∀ current : CallRecord,
      (rows.foldl (fun call row => call.upsertParticipant { row with state := .left }) current).originGroup =
        current.originGroup := by
    intro rows
    induction rows with
    | nil => exact fun _ => rfl
    | cons row rows ih => exact fun current => ih _
  unfold handleInboundEnded
  dsimp only
  split_ifs
  · exact hleft _ call
  · exact hleft _ call

end Handlers

/-! ## Runs -/

theorem keeps_receive (hroster : HoldsRoster host g) (hgroup : call.originGroup = g)
    (hout : Outsider host g call sender) {message : Control} (hmay : Harmless host g call sender message) :
    KeepsMembers host g call (call.receive host sender message) sender ∧
      (call.receive host sender message).originGroup = g := by
  cases message with
  | invite invite outcome => exact keeps_invite hroster hgroup hout hmay
  | accept named media nowMs => exact ⟨keeps_accept hroster hout hmay, originGroup_accept.trans hgroup⟩
  | decline named => exact ⟨keeps_decline hroster hout hmay, originGroup_decline.trans hgroup⟩
  | leave named => exact ⟨keeps_leave hroster hgroup hout hmay, originGroup_leave.trans hgroup⟩
  | remove identity ringing => exact ⟨keeps_remove hroster hgroup hout, originGroup_remove.trans hgroup⟩
  | roster mediaEpoch participants => exact keeps_roster hroster hgroup hout hmay
  | ended => exact ⟨keeps_ended hroster hout hmay, originGroup_ended.trans hgroup⟩
  | crossed =>
    have hanswered : ¬ call.oursUnanswered host = true := by
      rw [show call.oursUnanswered host = false from hmay]
      exact Bool.false_ne_true
    unfold receive
    rw [if_neg hanswered]
    exact ⟨KeepsMembers.of_rows hroster hout .refl (fun hopen _ _ => hopen), hgroup⟩

theorem keeps_applyInboundControl (hroster : HoldsRoster host g) (hgroup : call.originGroup = g)
    {message : String × Control} (hout : Outsider host g call message.1)
    (hmay : Harmless host g call message.1 message.2) :
    KeepsMembers host g call (applyInboundControl host call message) message.1 ∧
      (applyInboundControl host call message).originGroup = g := by
  unfold applyInboundControl
  split_ifs with hgate
  · exact keeps_receive hroster hgroup hout hmay
  · exact ⟨KeepsMembers.of_rows hroster hout .refl (fun hopen _ _ => hopen), hgroup⟩

section Examples

/-- Alice's device, with Bob in the group and both may bring guests. -/
def aliceHost : CallHost where
  localIdentity := "alice"
  groupMembers group := if group = "group" then some ["alice", "bob"] else none
  groupStanding group account :=
    if group = "group" then
      some (if account = "alice" ∨ account = "bob" then { member := true, mayBringGuest := true } else {})
    else none

theorem aliceHost_holds : HoldsRoster aliceHost "group" where
  group := by decide
  standing := by
    intro account
    rfl
  members := by
    refine ⟨["alice", "bob"], rfl, fun account => ?_⟩
    by_cases haccount : account = "alice" ∨ account = "bob"
    · simp [Member, aliceHost, haccount]
    · simp [Member, aliceHost, haccount]
  member := by decide

/-- A call Alice started with Bob and a guest of hers, both of whom answered. -/
def aliceCall : CallRecord :=
  [("bob", Control.accept "" {} 2), ("eve", Control.accept "" {} 3)].foldl (applyInboundControl aliceHost)
    { callId := "call"
      initiator := "alice"
      originGroup := "group"
      createdAt := 1
      rows := [{ callId := "call", identity := "alice", state := .joined, joinedAt := some 1 },
        { callId := "call", identity := "bob", state := .ringing },
        { callId := "call", identity := "eve", state := .ringing, broughtBy := "alice" }] }

end Examples

end CallRecord
end Pbr
