import Mathlib.Logic.Function.Basic

/-!
# CallSessionQueries — a peer's roster applied to the stored call

`CallTypes.h`, the participant rows of the call session stores, and
`ApplyCallRosterToStore` of `CallSessionQueries.cpp`. A store is its rows;
reading and writing one does not fail here.
-/

namespace Pbr

/-! ## Rows -/

inductive CallParticipantState where
  | invited | ringing | joined | left | declined | missed
  deriving DecidableEq, Repr

structure CallParticipantMedia where
  audioMuted : Bool := false
  videoEnabled : Bool := false
  onHold : Bool := false
  videoPaused : Bool := false
  deriving DecidableEq, Repr

structure CallParticipant where
  callId : String
  identity : String
  state : CallParticipantState := .invited
  media : CallParticipantMedia := {}
  /-- Who brought a guest (V062); empty for everyone else. -/
  broughtBy : String := ""
  joinedAt : Option Int := none
  leftAt : Option Int := none
  deriving DecidableEq, Repr

/-- What a roster changes of a call's session. -/
structure CallSession where
  callId : String
  mediaEpoch : Nat := 1
  deriving DecidableEq, Repr

structure CallRosterEntry where
  identity : String
  state : CallParticipantState := .joined
  media : CallParticipantMedia := {}
  broughtBy : String := ""
  joinedAt : Option Int := none
  deriving DecidableEq, Repr

structure CallRosterDetail where
  callId : String
  mediaEpoch : Nat := 1
  participants : List CallRosterEntry := []
  deriving DecidableEq, Repr

/-! ## The store -/

/-- A device's calls: each session and each participant under its own key. -/
structure CallSessions where
  session : String → Option CallSession
  participant : String → String → Option CallParticipant
  session_keyed : ∀ {callId row}, session callId = some row → row.callId = callId
  participant_keyed : ∀ {callId identity row}, participant callId identity = some row →
    row.callId = callId ∧ row.identity = identity

namespace CallSessions

/-- The `joined_at` of a stay is its earliest; coming back after leaving
starts a new stay (B102). -/
def stayStamp (kept participant : CallParticipant) : Option Int :=
  let rejoin := kept.state = .left ∧ (participant.state = .joined ∨ participant.state = .invited ∨
    participant.state = .ringing)
  if rejoin ∨ kept.joinedAt = none then participant.joinedAt
  else
    match kept.joinedAt, participant.joinedAt with
    | some old, some new => some (min old new)
    | _, _ => kept.joinedAt

/-- What `UpsertParticipant` leaves where a row is kept. -/
def mergeRow (participant : CallParticipant) : Option CallParticipant → CallParticipant
  | none => participant
  | some kept =>
    { participant with
      joinedAt := stayStamp kept participant
      broughtBy := if participant.broughtBy = "" then kept.broughtBy else participant.broughtBy }

theorem mergeRow_keys (participant : CallParticipant) (kept : Option CallParticipant) :
    (mergeRow participant kept).callId = participant.callId ∧
      (mergeRow participant kept).identity = participant.identity := by
  cases kept with
  | none | some kept => exact ⟨rfl, rfl⟩

@[simp] theorem mergeRow_state (participant : CallParticipant) (kept : Option CallParticipant) :
    (mergeRow participant kept).state = participant.state := by
  cases kept with
  | none | some kept => rfl

def empty : CallSessions where
  session _ := none
  participant _ _ := none
  session_keyed h := by simp at h
  participant_keyed h := by simp at h

def loadSession (store : CallSessions) (callId : String) : Option CallSession := store.session callId

def findParticipant (store : CallSessions) (callId identity : String) : Option CallParticipant :=
  store.participant callId identity

def upsertSession (store : CallSessions) (session : CallSession) : CallSessions where
  session := Function.update store.session session.callId (some session)
  participant := store.participant
  session_keyed {callId row} h := by
    by_cases hk : callId = session.callId
    · subst hk
      obtain rfl : session = row := by simpa using h
      rfl
    · exact store.session_keyed (by simpa [hk] using h)
  participant_keyed := store.participant_keyed

def upsertParticipant (store : CallSessions) (participant : CallParticipant) : CallSessions where
  session := store.session
  participant callId identity :=
    if callId = participant.callId ∧ identity = participant.identity then
      some (mergeRow participant (store.participant callId identity))
    else store.participant callId identity
  session_keyed := store.session_keyed
  participant_keyed {callId identity row} h := by
    by_cases hk : callId = participant.callId ∧ identity = participant.identity
    · rw [if_pos hk] at h
      obtain rfl := Option.some.inj h
      have hkeys := mergeRow_keys participant (store.participant callId identity)
      exact ⟨hkeys.1.trans hk.1.symm, hkeys.2.trans hk.2.symm⟩
    · rw [if_neg hk] at h
      exact store.participant_keyed h

variable {store : CallSessions} {callId identity : String} {participant row : CallParticipant}
  {session : CallSession}

theorem keys_of_find (h : store.findParticipant callId identity = some row) :
    row.callId = callId ∧ row.identity = identity := store.participant_keyed h

@[simp] theorem loadSession_upsertParticipant :
    (store.upsertParticipant participant).loadSession callId = store.loadSession callId := rfl

theorem loadSession_upsertSession : (store.upsertSession session).loadSession session.callId = some session := by
  simp [loadSession, upsertSession]

theorem findParticipant_upsert : (store.upsertParticipant participant).findParticipant callId identity =
      if callId = participant.callId ∧ identity = participant.identity then
        some (mergeRow participant (store.findParticipant callId identity))
      else store.findParticipant callId identity := rfl

end CallSessions

/-! ## A roster applied -/

open CallSessions

/-- The row a roster's entry is. -/
def rosterRow (callId : String) (entry : CallRosterEntry) : CallParticipant where
  callId := callId
  identity := entry.identity
  state := entry.state
  media := entry.media
  broughtBy := entry.broughtBy
  joinedAt := entry.joinedAt

/-- An entry of someone in the call or asked into it. -/
def isComing (state : CallParticipantState) : Bool :=
  state = .joined || state = .ringing || state = .invited

def isGone (state : CallParticipantState) : Bool :=
  state = .left || state = .declined || state = .missed

/-- Joined again (V053): someone who left needs a join newer than the one
known. Who declined or missed is taken never to have joined. -/
def rejoined (existing : CallParticipant) (entry : CallRosterEntry) : Bool :=
  entry.state = .joined && entry.joinedAt.isSome &&
    (existing.state ≠ .left ||
      match existing.joinedAt, entry.joinedAt with
      | some known, some stamp => known < stamp
      | _, _ => false)

/-- The entry of this device itself: only its join stamp is taken. -/
def stampOwn (store : CallSessions) (callId : String) (entry : CallRosterEntry) : CallSessions :=
  if entry.joinedAt = none then store
  else
    match store.findParticipant callId entry.identity with
    | none => store
    | some own =>
      if own.joinedAt ≠ entry.joinedAt then
        store.upsertParticipant { own with joinedAt := entry.joinedAt }
      else store

/-- One entry of the loop over a roster's participants. -/
def applyRosterEntry (localIdentity callId : String) (store : CallSessions)
    (entry : CallRosterEntry) : CallSessions :=
  if entry.identity = "" then store
  else if localIdentity ≠ "" ∧ entry.identity = localIdentity then stampOwn store callId entry
  else
    match store.findParticipant callId entry.identity with
    | none => store.upsertParticipant (rosterRow callId entry)
    | some existing =>
      if isComing entry.state then
        if ¬ rejoined existing entry ∧ isGone existing.state then store
        -- a joiner's roster still lists earlier invitees as ringing: only the media follows
        else if existing.state = .joined ∧ entry.state ≠ .joined then
          store.upsertParticipant { existing with media := entry.media }
        else store.upsertParticipant (rosterRow callId entry)
      else store.upsertParticipant (rosterRow callId entry)

/-- Epochs only move forward. -/
def raiseEpoch (store : CallSessions) (callId : String) (mediaEpoch : Nat) : CallSessions :=
  match store.loadSession callId with
  | none => store
  | some session =>
    if mediaEpoch > session.mediaEpoch then store.upsertSession { session with mediaEpoch }
    else store

def applyCallRosterToStore (store : CallSessions) (roster : CallRosterDetail)
    (localIdentity : String) : CallSessions :=
  roster.participants.foldl (applyRosterEntry localIdentity roster.callId)
    (raiseEpoch store roster.callId roster.mediaEpoch)

/-! ## What one entry does -/

section
variable {store : CallSessions} {localIdentity callId identity : String} {entry : CallRosterEntry}
  {existing : CallParticipant}

/-- The state an entry leaves a remote row in. -/
def rosterState (entry : CallRosterEntry) : Option CallParticipant → CallParticipantState
  | none => entry.state
  | some existing =>
    if isComing entry.state then
      if ¬ rejoined existing entry ∧ isGone existing.state then existing.state
      else if existing.state = .joined ∧ entry.state ≠ .joined then .joined
      else entry.state
    else entry.state

theorem find_upsert_state {participant : CallParticipant} (hcall : participant.callId = callId)
    (hidentity : participant.identity = identity) :
    ((store.upsertParticipant participant).findParticipant callId identity).map (·.state) =
      some participant.state := by
  rw [findParticipant_upsert, if_pos ⟨hcall.symm, hidentity.symm⟩]
  simp

theorem find_applyRosterEntry (hne : entry.identity ≠ "")
    (hremote : localIdentity = "" ∨ entry.identity ≠ localIdentity) :
    ((applyRosterEntry localIdentity callId store entry).findParticipant callId entry.identity).map (·.state) =
        some (rosterState entry (store.findParticipant callId entry.identity)) := by
  have hother : ¬ (localIdentity ≠ "" ∧ entry.identity = localIdentity) := by
    intro h
    rcases hremote with hlocal | hlocal
    · exact h.1 hlocal
    · exact hlocal h.2
  rw [applyRosterEntry, if_neg hne, if_neg hother]
  cases hfind : store.findParticipant callId entry.identity with
  | none => exact find_upsert_state rfl rfl
  | some existing =>
    obtain ⟨hcall, hidentity⟩ := keys_of_find hfind
    dsimp only [rosterState]
    by_cases hcoming : isComing entry.state
    · rw [if_pos hcoming, if_pos hcoming]
      by_cases hstale : ¬ rejoined existing entry ∧ isGone existing.state
      · rw [if_pos hstale, if_pos hstale, hfind]
        rfl
      · rw [if_neg hstale, if_neg hstale]
        by_cases hjoined : existing.state = .joined ∧ entry.state ≠ .joined
        · rw [if_pos hjoined, if_pos hjoined, ← hjoined.1]
          exact find_upsert_state hcall hidentity
        · rw [if_neg hjoined, if_neg hjoined]
          exact find_upsert_state rfl rfl
    · rw [if_neg hcoming, if_neg hcoming]
      exact find_upsert_state rfl rfl

end

end Pbr
