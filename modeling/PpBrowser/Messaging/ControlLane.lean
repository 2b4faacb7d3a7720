import Mathlib.Data.List.Basic
import Mathlib.Tactic.SplitIfs
import PpBrowser.Delivery.E2eRelayPayloadCodec
import PpBrowser.Lib.Runs

/-!
# ControlLane — control messages taken off the lane

`ProcessControlEnvelope` and `ApplySiblingNotice` of `RelayReceivePipeline`,
over `SqliteControlLaneSeenStore`. What the keys, the ciphers, the families
and the disk answer comes with a delivery; sent copies and the pair's session
are left out.
-/

namespace Pbr

/-! ## The seen store -/

/-- A sender and the id of a control message of its. -/
abbrev LaneId := String × String

structure ControlLaneSeenRow where
  id : LaneId
  seenAtMs : Int
  deriving DecidableEq, Repr

/-- The table, and when it was last pruned in this run of the app. -/
structure ControlLaneSeenStore where
  rows : List ControlLaneSeenRow := []
  lastPruneMs : Int := 0
  deriving DecidableEq, Repr

/-- Which steps of the database go through. -/
structure LaneDisk where
  opens : Bool := true
  prunes : Bool := true
  inserts : Bool := true

namespace ControlLaneSeenStore

/-- Kept longer than the lane's signed-time bound, so a replay is a
duplicate. -/
def kRetentionMs : Int := 3 * 60 * 60 * 1000

def kPruneEveryMs : Int := 5 * 60 * 1000

variable (store : ControlLaneSeenStore) (disk : LaneDisk) (id : LaneId) (nowMs : Int)

def prune : ControlLaneSeenStore :=
  if kPruneEveryMs ≤ nowMs - store.lastPruneMs then
    { rows := if disk.prunes then store.rows.filter fun row => ¬ row.seenAtMs < nowMs - kRetentionMs else store.rows
      lastPruneMs := nowMs }
  else store

/-- `INSERT OR IGNORE`, and whether that put a row in. -/
def insertOrIgnore : Roe Bool × ControlLaneSeenStore :=
  if ¬ disk.inserts then (.error "control_lane_seen insert failed", store)
  else if store.rows.any fun row => row.id = id then (.ok false, store)
  else (.ok true, { store with rows := store.rows ++ [⟨id, nowMs⟩] })

def firstSight : Roe Bool × ControlLaneSeenStore :=
  if id.1 = "" ∨ id.2 = "" then (.error "control lane message without sender or id", store)
  else if ¬ disk.opens then (.error "Failed to open profile.db for the control lane", store)
  else (store.prune disk nowMs).insertOrIgnore disk id nowMs

def forget : ControlLaneSeenStore :=
  if disk.opens then { store with rows := store.rows.filter fun row => row.id ≠ id } else store

end ControlLaneSeenStore

/-! ## Receiving -/

def kRelayEnvelopeVersion : Nat := 2
def kMaxRelayEnvelopeBytes : Nat := 256 * 1024

/-- How far a control message's signed time may be from ours. -/
def kControlLaneSignedSkewMs : Int := 60 * 60 * 1000

/-- What the lane reads of an envelope, with the size of its text. -/
structure LaneEnvelope where
  envelopeVersion : Nat := kRelayEnvelopeVersion
  textBytes : Nat := 0
  channel : ThreadChannel := .e2ePublic
  senderSeq : Nat := 0
  messageId : String
  senderContactId : String
  senderDevice : String := ""
  timestamp : Int
  relayCreatedAtMs : Option Int64 := none
  relayServerTimeMs : Option Int64 := none

def LaneEnvelope.id (envelope : LaneEnvelope) : LaneId := (envelope.senderContactId, envelope.messageId)

/-- A family as the registry finds it for a message: whether the message is
one of its lane's. -/
structure LaneFamily where
  onLane : Bool := true
  laneMaxAgeMs : Int64

structure LaneMessage where
  isSystem : Bool := true
  family : Option LaneFamily

/-- What a delivery is answered outside the lane. -/
structure LaneAnswers where
  blocked : Bool := false
  siblingCopy : Bool := false
  devicePeerId : Option String := none
  verified : Roe Bool := .ok true
  kemPrivate : Roe Unit := .ok ()
  decrypted : Roe LaneMessage
  /-- `sent_copy::Parse`: whether it is a sent copy. -/
  sentCopy : Roe Bool := .ok false
  nowMs : Int
  seenDisk : LaneDisk := {}
  forgetDisk : LaneDisk := {}
  /-- `ApplyInboundControl`. -/
  applied : Roe Unit := .ok ()

inductive LaneDecision where
  | hardReject | silentDiscard | benignDuplicate | acceptControl
  deriving DecidableEq, Repr

/-- The outcome, and what the family's apply answered if it was called. -/
structure LaneOutcome where
  decision : LaneDecision := .hardReject
  senderVerified : Bool := false
  fromSibling : Bool := false
  applied : Option (Roe Unit) := none

def controlLaneFresh (envelope : LaneEnvelope) (maxAgeMs : Int64) (nowMs : Int) : Bool :=
  if envelope.timestamp ≤ 0 ∨ kControlLaneSignedSkewMs < (nowMs - envelope.timestamp).natAbs then false
  else
    match envelope.relayCreatedAtMs, envelope.relayServerTimeMs with
    | some created, some server => server - created ≤ maxAgeMs
    | _, _ => true

namespace ControlLane

variable (localAccountId : String) (seen : ControlLaneSeenStore) (envelope : LaneEnvelope) (answers : LaneAnswers)

def applySiblingNotice (outcome : LaneOutcome) : LaneOutcome × ControlLaneSeenStore :=
  if answers.devicePeerId = some envelope.senderDevice then (outcome, seen)
  else
    match answers.kemPrivate, answers.decrypted, answers.sentCopy with
    | .ok _, .ok _, .ok true => ({ outcome with fromSibling := false }, seen)
    | .ok _, .ok message, .ok false =>
      match message.family with
      | none => (outcome, seen)
      | some family =>
        if ¬ family.onLane ∨ ¬ controlLaneFresh envelope family.laneMaxAgeMs answers.nowMs then (outcome, seen)
        else
          match seen.firstSight answers.seenDisk envelope.id answers.nowMs with
          | (.ok true, seen) =>
            match answers.applied with
            | .error e => ({ outcome with fromSibling := false, applied := some (.error e) }, seen)
            | .ok _ =>
              ({ outcome with fromSibling := false, applied := some (.ok ()), decision := .acceptControl }, seen)
          | (_, seen) => (outcome, seen)
    | _, _, _ => (outcome, seen)

def processControlEnvelope : LaneOutcome × ControlLaneSeenStore :=
  if envelope.envelopeVersion ≠ kRelayEnvelopeVersion ∨ kMaxRelayEnvelopeBytes < envelope.textBytes then ({}, seen)
  else if envelope.channel ≠ .e2ePublic ∨ envelope.senderSeq ≠ 0 ∨ envelope.messageId = "" ∨
      envelope.senderContactId = "" then ({}, seen)
  else if answers.blocked ∨ answers.siblingCopy then ({ decision := .silentDiscard }, seen)
  else if envelope.senderContactId = localAccountId then
    match answers.verified with
    | .ok true =>
      applySiblingNotice seen envelope answers { decision := .silentDiscard, senderVerified := true, fromSibling := true }
    | _ => ({ decision := .silentDiscard }, seen)
  else
    match answers.verified with
    | .ok true =>
      let outcome : LaneOutcome := { senderVerified := true }
      if localAccountId = "" then (outcome, seen)
      else
        match answers.kemPrivate, answers.decrypted with
        | .ok _, .ok message =>
          match message.family with
          | none => ({ outcome with decision := .silentDiscard }, seen)
          | some family =>
            if ¬ message.isSystem ∨ ¬ family.onLane ∨
                ¬ controlLaneFresh envelope family.laneMaxAgeMs answers.nowMs then
              ({ outcome with decision := .silentDiscard }, seen)
            else
              match seen.firstSight answers.seenDisk envelope.id answers.nowMs with
              | (.error _, seen) => (outcome, seen)
              | (.ok false, seen) => ({ outcome with decision := .benignDuplicate }, seen)
              | (.ok true, seen) =>
                match answers.applied with
                -- a redelivery may still apply
                | .error e => ({ outcome with applied := some (.error e) }, seen.forget answers.forgetDisk envelope.id)
                | .ok _ => ({ outcome with applied := some (.ok ()), decision := .acceptControl }, seen)
        | _, _ => (outcome, seen)
    | _ => ({}, seen)

end ControlLane

/-! ## Applied at most once, and again after a failure -/

namespace ControlLaneSeenStore

variable {store : ControlLaneSeenStore} {disk : LaneDisk} {id other : LaneId} {nowMs : Int} {row : ControlLaneSeenRow}

def Sees (store : ControlLaneSeenStore) (id : LaneId) : Prop := ∃ row ∈ store.rows, row.id = id

theorem any_iff_sees : (store.rows.any fun row => row.id = id) = true ↔ store.Sees id := by simp [Sees]

theorem mem_of_mem_prune (h : row ∈ (store.prune disk nowMs).rows) : row ∈ store.rows := by
  rw [prune] at h
  split_ifs at h
  · exact (List.mem_filter.mp h).1
  · exact h
  · exact h

variable (disk nowMs) in
theorem mem_prune (h : row ∈ store.rows) :
    row ∈ (store.prune disk nowMs).rows ∨ row.seenAtMs + kRetentionMs < nowMs := by
  rw [prune]
  split_ifs
  · by_cases hold : row.seenAtMs < nowMs - kRetentionMs
    · exact .inr (by omega)
    · exact .inl (List.mem_filter.mpr ⟨h, by simpa using hold⟩)
  · exact .inl h
  · exact .inl h

theorem firstSight_new {after : ControlLaneSeenStore} (h : store.firstSight disk id nowMs = (.ok true, after)) :
    ¬ (store.prune disk nowMs).Sees id ∧ after.rows = (store.prune disk nowMs).rows ++ [⟨id, nowMs⟩] := by
  unfold firstSight insertOrIgnore at h
  split_ifs at h with hid hopens hinserts hsees
  · cases h
  · cases h
  · obtain ⟨-, rfl⟩ := Prod.mk.inj h
    exact ⟨fun h => hsees (any_iff_sees.mpr h), rfl⟩
  · cases h
  · cases h

theorem firstSight_old {answer : Roe Bool} {after : ControlLaneSeenStore}
    (h : store.firstSight disk id nowMs = (answer, after)) (hold : answer ≠ .ok true) :
    after.rows = store.rows ∨ after.rows = (store.prune disk nowMs).rows := by
  unfold firstSight insertOrIgnore at h
  split_ifs at h
  · obtain ⟨-, rfl⟩ := Prod.mk.inj h
    exact .inl rfl
  · obtain ⟨-, rfl⟩ := Prod.mk.inj h
    exact .inr rfl
  · obtain ⟨hanswer, -⟩ := Prod.mk.inj h
    exact absurd hanswer.symm hold
  · obtain ⟨-, rfl⟩ := Prod.mk.inj h
    exact .inr rfl
  · obtain ⟨-, rfl⟩ := Prod.mk.inj h
    exact .inl rfl

variable (nowMs) in
theorem firstSight_of_not_sees (hid : id.1 ≠ "" ∧ id.2 ≠ "") (hopens : disk.opens = true) (hinserts : disk.inserts = true)
    (h : ¬ store.Sees id) : (store.firstSight disk id nowMs).1 = .ok true := by
  have hpruned : ¬ ((store.prune disk nowMs).rows.any fun row => row.id = id) = true := by
    rw [any_iff_sees]
    intro ⟨row, hrow, hid⟩
    exact h ⟨row, mem_of_mem_prune hrow, hid⟩
  rw [firstSight, if_neg (by simp [hid]), if_neg (by simp [hopens]), insertOrIgnore, if_neg (by simp [hinserts]),
    if_neg hpruned]

theorem not_sees_forget (hopens : disk.opens = true) : ¬ (store.forget disk id).Sees id := by
  intro ⟨row, hrow, hid⟩
  rw [forget, if_pos hopens] at hrow
  simpa [hid] using (List.mem_filter.mp hrow).2

theorem mem_forget (hne : row.id ≠ id) (h : row ∈ store.rows) : row ∈ (store.forget disk id).rows := by
  rw [forget]
  split
  · exact List.mem_filter.mpr ⟨h, by simpa using hne⟩
  · exact h

theorem mem_of_mem_forget (h : row ∈ (store.forget disk id).rows) : row ∈ store.rows := by
  rw [forget] at h
  split at h
  · exact (List.mem_filter.mp h).1
  · exact h

end ControlLaneSeenStore

theorem signed_of_fresh {envelope : LaneEnvelope} {maxAgeMs : Int64} {nowMs : Int}
    (h : controlLaneFresh envelope maxAgeMs nowMs = true) :
    (nowMs - envelope.timestamp).natAbs ≤ kControlLaneSignedSkewMs := by
  rw [controlLaneFresh] at h
  split_ifs at h with hsigned
  exact not_lt.mp (not_or.mp hsigned).2

namespace ControlLane

variable {localAccountId : String} {seen : ControlLaneSeenStore} {envelope : LaneEnvelope} {answers : LaneAnswers}

/-! ## What gets to the seen store -/

/-- A control envelope of the lane, for this device. -/
structure Admitted (envelope : LaneEnvelope) (answers : LaneAnswers) : Prop where
  version : envelope.envelopeVersion = kRelayEnvelopeVersion
  small : envelope.textBytes ≤ kMaxRelayEnvelopeBytes
  channel : envelope.channel = .e2ePublic
  unnumbered : envelope.senderSeq = 0
  named : envelope.messageId ≠ "" ∧ envelope.senderContactId ≠ ""
  ours : answers.blocked = false ∧ answers.siblingCopy = false
  verified : answers.verified = .ok true
  key : answers.kemPrivate = .ok ()

/-- A message of a lane family, still fresh. -/
def Signals (envelope : LaneEnvelope) (answers : LaneAnswers) (message : LaneMessage) : Prop :=
  answers.decrypted = .ok message ∧ ∃ family, message.family = some family ∧ family.onLane = true ∧
    controlLaneFresh envelope family.laneMaxAgeMs answers.nowMs = true

/-- A peer's message that gets to the seen store. -/
structure OnPeerLane (localAccountId : String) (envelope : LaneEnvelope) (answers : LaneAnswers) : Prop where
  admitted : Admitted envelope answers
  peer : envelope.senderContactId ≠ localAccountId
  account : localAccountId ≠ ""
  signals : ∃ message, Signals envelope answers message ∧ message.isSystem = true

structure OnSiblingLane (localAccountId : String) (envelope : LaneEnvelope) (answers : LaneAnswers) : Prop where
  admitted : Admitted envelope answers
  sibling : envelope.senderContactId = localAccountId
  device : answers.devicePeerId ≠ some envelope.senderDevice
  notice : answers.sentCopy = .ok false
  signals : ∃ message, Signals envelope answers message

/-- What follows a sight: the apply of a first one, forgotten when it fails
on the path that forgets. -/
def settled (forgets : Bool) (envelope : LaneEnvelope) (answers : LaneAnswers) :
    Roe Bool × ControlLaneSeenStore → Option (Roe Unit) × ControlLaneSeenStore
  | (.ok true, seen) =>
    match answers.applied with
    | .error e => (some (.error e), if forgets then seen.forget answers.forgetDisk envelope.id else seen)
    | .ok _ => (some (.ok ()), seen)
  | (_, seen) => (none, seen)

/-- What a delivery comes to: the apply's answer and the seen store. -/
def taken (localAccountId : String) (seen : ControlLaneSeenStore) (envelope : LaneEnvelope) (answers : LaneAnswers) :
    Option (Roe Unit) × ControlLaneSeenStore :=
  ((processControlEnvelope localAccountId seen envelope answers).1.applied,
    (processControlEnvelope localAccountId seen envelope answers).2)

theorem taken_peer (h : OnPeerLane localAccountId envelope answers) : taken localAccountId seen envelope answers =
      settled true envelope answers (seen.firstSight answers.seenDisk envelope.id answers.nowMs) := by
  obtain ⟨hadmitted, hpeer, haccount, message, ⟨hdecrypted, family, hfamily, hlane, hfresh⟩, hsystem⟩ := h
  obtain ⟨hversion, hsmall, hchannel, hseq, hnamed, hours, hverified, hkey⟩ := hadmitted
  rw [taken, processControlEnvelope, if_neg (by simp [hversion, hsmall]), if_neg (by simp [hchannel, hseq, hnamed]),
    if_neg (by simp [hours]), if_neg hpeer, hverified]
  dsimp only
  rw [if_neg haccount, hkey, hdecrypted]
  dsimp only
  rw [hfamily]
  dsimp only
  rw [if_neg (by simp [hsystem, hlane, hfresh])]
  cases hsight : seen.firstSight answers.seenDisk envelope.id answers.nowMs with
  | mk answer after =>
    cases answer with
    | error e => rfl
    | ok first =>
      cases first with
      | false => rfl
      | true => cases happlied : answers.applied <;> simp [settled, happlied]

theorem taken_sibling (h : OnSiblingLane localAccountId envelope answers) :
    taken localAccountId seen envelope answers =
      settled false envelope answers (seen.firstSight answers.seenDisk envelope.id answers.nowMs) := by
  obtain ⟨hadmitted, hsibling, hdevice, hnotice, message, hdecrypted, family, hfamily, hlane, hfresh⟩ := h
  obtain ⟨hversion, hsmall, hchannel, hseq, hnamed, hours, hverified, hkey⟩ := hadmitted
  rw [taken, processControlEnvelope, if_neg (by simp [hversion, hsmall]), if_neg (by simp [hchannel, hseq, hnamed]),
    if_neg (by simp [hours]), if_pos hsibling, hverified]
  dsimp only
  rw [applySiblingNotice, if_neg hdevice, hkey, hdecrypted, hnotice]
  dsimp only
  rw [hfamily]
  dsimp only
  rw [if_neg (by simp [hlane, hfresh])]
  cases hsight : seen.firstSight answers.seenDisk envelope.id answers.nowMs with
  | mk answer after =>
    cases answer with
    | error e => rfl
    | ok first =>
      cases first with
      | false => rfl
      | true => cases happlied : answers.applied <;> simp [settled, happlied]

theorem taken_off (hpeer : ¬ OnPeerLane localAccountId envelope answers)
    (hsibling : ¬ OnSiblingLane localAccountId envelope answers) :
    taken localAccountId seen envelope answers = (none, seen) := by
  have hadmitted (hform : ¬ (envelope.envelopeVersion ≠ kRelayEnvelopeVersion ∨ kMaxRelayEnvelopeBytes < envelope.textBytes))
      (hlane : ¬ (envelope.channel ≠ .e2ePublic ∨ envelope.senderSeq ≠ 0 ∨ envelope.messageId = "" ∨
        envelope.senderContactId = ""))
      (hours : ¬ (answers.blocked = true ∨ answers.siblingCopy = true)) (hverified : answers.verified = .ok true)
      (hkey : answers.kemPrivate = .ok ()) : Admitted envelope answers := by
    simp only [ne_eq, not_or, not_not, not_lt, Bool.not_eq_true] at hform hlane hours
    exact ⟨hform.1, hform.2, hlane.1, hlane.2.1, hlane.2.2, hours, hverified, hkey⟩
  unfold taken processControlEnvelope
  by_cases hform : envelope.envelopeVersion ≠ kRelayEnvelopeVersion ∨ kMaxRelayEnvelopeBytes < envelope.textBytes
  · rw [if_pos hform]
  rw [if_neg hform]
  by_cases hlane : envelope.channel ≠ .e2ePublic ∨ envelope.senderSeq ≠ 0 ∨ envelope.messageId = "" ∨
      envelope.senderContactId = ""
  · rw [if_pos hlane]
  rw [if_neg hlane]
  by_cases hours : answers.blocked = true ∨ answers.siblingCopy = true
  · rw [if_pos hours]
  rw [if_neg hours]
  by_cases hown : envelope.senderContactId = localAccountId
  · rw [if_pos hown]
    split
    next hverified =>
      unfold applySiblingNotice
      split_ifs with hdevice
      · rfl
      split
      · rfl
      next message hkey hdecrypted hnotice =>
        split
        · rfl
        next family hfamily =>
          by_cases hstale : ¬ family.onLane = true ∨ ¬ controlLaneFresh envelope family.laneMaxAgeMs answers.nowMs = true
          · rw [if_pos hstale]
          · simp only [not_or, not_not] at hstale
            exact absurd ⟨hadmitted hform hlane hours hverified hkey, hown, hdevice, hnotice, message, hdecrypted, family,
              hfamily, hstale⟩ hsibling
      · rfl
    · rfl
  · rw [if_neg hown]
    split
    next hverified =>
      dsimp only
      by_cases haccount : localAccountId = ""
      · rw [if_pos haccount]
      rw [if_neg haccount]
      split
      next message hkey hdecrypted =>
        split
        · rfl
        next family hfamily =>
          by_cases hstale : ¬ message.isSystem = true ∨ ¬ family.onLane = true ∨
              ¬ controlLaneFresh envelope family.laneMaxAgeMs answers.nowMs = true
          · rw [if_pos hstale]
          · simp only [not_or, not_not] at hstale
            exact absurd ⟨hadmitted hform hlane hours hverified hkey, hown, haccount, message, ⟨hdecrypted, family, hfamily,
              hstale.2⟩, hstale.1⟩ hpeer
      · rfl
    · rfl

/-! ## Runs -/

/-- An apply that succeeded: of which message, signed when, first seen when. -/
structure LaneEffect where
  id : LaneId
  timestamp : Int
  seenAtMs : Int

/-- The seen store, the clock, and what the families were given: the applies
that succeeded, and the messages whose last one failed. -/
structure Lane where
  seen : ControlLaneSeenStore := {}
  clockMs : Int := 0
  effects : List LaneEffect := []
  failed : List LaneId := []

/-- A delivery, or the app started again. -/
inductive LaneEvent where
  | deliver (envelope : LaneEnvelope) (answers : LaneAnswers)
  | restart

def recorded (envelope : LaneEnvelope) (answers : LaneAnswers) (lane : Lane) :
    Option (Roe Unit) × ControlLaneSeenStore → Lane
  | (none, seen) => { lane with seen, clockMs := answers.nowMs }
  | (some (.error _), seen) => { lane with seen, clockMs := answers.nowMs, failed := envelope.id :: lane.failed }
  | (some (.ok _), seen) =>
    { lane with seen, clockMs := answers.nowMs
                effects := ⟨envelope.id, envelope.timestamp, answers.nowMs⟩ :: lane.effects
                failed := lane.failed.filter (· ≠ envelope.id) }

def step (localAccountId : String) (lane : Lane) : LaneEvent → Lane
  | .deliver envelope answers => recorded envelope answers lane (taken localAccountId lane.seen envelope answers)
  | .restart => { lane with seen := { lane.seen with lastPruneMs := 0 } }

/-- The clock does not go backward. -/
def Ticks (lane : Lane) : LaneEvent → Prop
  | .deliver _ answers => lane.clockMs ≤ answers.nowMs
  | .restart => True

/-- Envelopes of one sender and id are signed within the lane's bound of each
other, a sibling's family does not fail, and what a peer's fails at is
forgotten. -/
def Clear (localAccountId : String) (lane : Lane) : LaneEvent → Prop
  | .deliver envelope answers =>
    (∀ effect ∈ lane.effects, effect.id = envelope.id →
      (envelope.timestamp - effect.timestamp).natAbs ≤ kControlLaneSignedSkewMs) ∧
    (OnSiblingLane localAccountId envelope answers → answers.applied = .ok ()) ∧
    (OnPeerLane localAccountId envelope answers → answers.applied ≠ .ok () → answers.forgetDisk.opens = true)
  | .restart => True

/-- A family takes a message no second time, and is given one again that it
failed at. -/
structure Upheld (localAccountId : String) (lane : Lane) (event : LaneEvent) : Prop where
  once : ∀ envelope answers, event = .deliver envelope answers →
    (taken localAccountId lane.seen envelope answers).1 = some (.ok ()) → ∀ effect ∈ lane.effects, effect.id ≠ envelope.id
  again : ∀ envelope answers, event = .deliver envelope answers → envelope.id ∈ lane.failed →
    OnPeerLane localAccountId envelope answers ∨ OnSiblingLane localAccountId envelope answers →
    answers.seenDisk.opens = true → answers.seenDisk.inserts = true →
    (taken localAccountId lane.seen envelope answers).1.isSome = true

/-- What was applied is in the store, or past its retention; what failed is
not. -/
structure Kept (lane : Lane) : Prop where
  effects : ∀ effect ∈ lane.effects, (effect.seenAtMs - effect.timestamp).natAbs ≤ kControlLaneSignedSkewMs ∧
    (⟨effect.id, effect.seenAtMs⟩ ∈ lane.seen.rows ∨
      effect.seenAtMs + ControlLaneSeenStore.kRetentionMs < lane.clockMs)
  failed : ∀ id ∈ lane.failed, ¬ lane.seen.Sees id

/-- Every delivery is settled, on the path that forgets or the one that does
not, or comes to nothing. -/
theorem taken_cases (localAccountId : String) (seen : ControlLaneSeenStore) (envelope : LaneEnvelope)
    (answers : LaneAnswers) : (∃ forgets, (if forgets then OnPeerLane localAccountId envelope answers
        else OnSiblingLane localAccountId envelope answers) ∧ taken localAccountId seen envelope answers =
        settled forgets envelope answers (seen.firstSight answers.seenDisk envelope.id answers.nowMs)) ∨
    ¬ OnPeerLane localAccountId envelope answers ∧ ¬ OnSiblingLane localAccountId envelope answers ∧
      taken localAccountId seen envelope answers = (none, seen) := by
  by_cases hpeer : OnPeerLane localAccountId envelope answers
  · exact .inl ⟨true, hpeer, taken_peer hpeer⟩
  by_cases hsibling : OnSiblingLane localAccountId envelope answers
  · exact .inl ⟨false, hsibling, taken_sibling hsibling⟩
  · exact .inr ⟨hpeer, hsibling, taken_off hpeer hsibling⟩

theorem settled_old {forgets : Bool} {answer : Roe Bool} {after : ControlLaneSeenStore} (h : answer ≠ .ok true) :
    settled forgets envelope answers (answer, after) = (none, after) := by
  unfold settled
  split
  next heq => exact absurd (Prod.mk.inj heq).1 h
  next heq =>
    obtain ⟨-, rfl⟩ := Prod.mk.inj heq
    rfl

theorem settled_new (forgets : Bool) (after : ControlLaneSeenStore) :
    (settled forgets envelope answers (.ok true, after)).1 = some answers.applied := by
  unfold settled
  cases answers.applied <;> rfl

variable {lane : Lane} {effect : LaneEffect}

/-- A message that was applied is either too old to be fresh, or its row is
still there. -/
theorem seen_of_effect (hkept : Kept lane) (htick : lane.clockMs ≤ answers.nowMs) (heffect : effect ∈ lane.effects) :
    (∃ row ∈ (lane.seen.prune answers.seenDisk answers.nowMs).rows, row = ⟨effect.id, effect.seenAtMs⟩) ∨
      effect.seenAtMs + ControlLaneSeenStore.kRetentionMs < answers.nowMs := by
  rcases (hkept.effects effect heffect).2 with hrow | hold
  · rcases ControlLaneSeenStore.mem_prune answers.seenDisk answers.nowMs hrow with hleft | hpruned
    · exact .inl ⟨_, hleft, rfl⟩
    · exact .inr hpruned
  · exact .inr (lt_of_lt_of_le hold htick)

/-- Fresh, and of a message applied too long ago: signed too far from it. -/
theorem far_of_old (hsigned : (effect.seenAtMs - effect.timestamp).natAbs ≤ kControlLaneSignedSkewMs)
    (hold : effect.seenAtMs + ControlLaneSeenStore.kRetentionMs < answers.nowMs)
    (hfresh : (answers.nowMs - envelope.timestamp).natAbs ≤ kControlLaneSignedSkewMs) :
    ¬ (envelope.timestamp - effect.timestamp).natAbs ≤ kControlLaneSignedSkewMs := by
  simp only [kControlLaneSignedSkewMs, ControlLaneSeenStore.kRetentionMs] at *
  omega

theorem fresh_of_lane {forgets : Bool} (h : if forgets then OnPeerLane localAccountId envelope answers
    else OnSiblingLane localAccountId envelope answers) :
    (answers.nowMs - envelope.timestamp).natAbs ≤ kControlLaneSignedSkewMs := by
  cases forgets with
  | true =>
    obtain ⟨-, -, -, message, ⟨-, family, -, -, hfresh⟩, -⟩ := h
    exact signed_of_fresh hfresh
  | false =>
    obtain ⟨-, -, -, -, message, -, family, -, -, hfresh⟩ := h
    exact signed_of_fresh hfresh

section

variable (hkept : Kept lane) (htick : lane.clockMs ≤ answers.nowMs)
include hkept htick

theorem ne_of_firstSight (hone : ∀ effect ∈ lane.effects, effect.id = envelope.id →
      (envelope.timestamp - effect.timestamp).natAbs ≤ kControlLaneSignedSkewMs)
    (hfresh : (answers.nowMs - envelope.timestamp).natAbs ≤ kControlLaneSignedSkewMs) {after : ControlLaneSeenStore}
    (hfirst : lane.seen.firstSight answers.seenDisk envelope.id answers.nowMs = (.ok true, after)) :
    ∀ effect ∈ lane.effects, effect.id ≠ envelope.id := by
  intro effect heffect hid
  rcases seen_of_effect hkept htick heffect with ⟨row, hrow, rfl⟩ | hold
  · exact (ControlLaneSeenStore.firstSight_new hfirst).1 ⟨_, hrow, hid⟩
  · exact far_of_old (hkept.effects effect heffect).1 hold hfresh (hone effect heffect hid)

theorem kept_rows {seen : ControlLaneSeenStore}
    (hrows : seen.rows = lane.seen.rows ∨ seen.rows = (lane.seen.prune answers.seenDisk answers.nowMs).rows) :
    Kept { lane with seen, clockMs := answers.nowMs } := by
  constructor
  · intro effect heffect
    refine ⟨(hkept.effects effect heffect).1, ?_⟩
    rcases hrows with hsame | hpruned
    · rcases (hkept.effects effect heffect).2 with hrow | hold
      · exact .inl (hsame ▸ hrow)
      · exact .inr (lt_of_lt_of_le hold htick)
    · rcases seen_of_effect hkept htick heffect with ⟨row, hrow, rfl⟩ | hold
      · exact .inl (hpruned ▸ hrow)
      · exact .inr hold
  · intro id hid hsees
    obtain ⟨row, hrow, hrowid⟩ := hsees
    rcases hrows with hsame | hpruned
    · exact hkept.failed id hid ⟨row, hsame ▸ hrow, hrowid⟩
    · exact hkept.failed id hid ⟨row, ControlLaneSeenStore.mem_of_mem_prune (hpruned ▸ hrow), hrowid⟩

/-- After a first sight nothing is lost of the other messages, and none of
them is seen that was not. -/
theorem others_of_firstSight {after : ControlLaneSeenStore}
    (hfirst : lane.seen.firstSight answers.seenDisk envelope.id answers.nowMs = (.ok true, after)) :
    (∀ effect ∈ lane.effects, ⟨effect.id, effect.seenAtMs⟩ ∈ after.rows ∨
      effect.seenAtMs + ControlLaneSeenStore.kRetentionMs < answers.nowMs) ∧
    ∀ id ∈ lane.failed, id ≠ envelope.id → ¬ after.Sees id := by
  obtain ⟨-, hrows⟩ := ControlLaneSeenStore.firstSight_new hfirst
  constructor
  · intro effect heffect
    rcases seen_of_effect hkept htick heffect with ⟨row, hrow, rfl⟩ | hold
    · exact .inl (hrows ▸ List.mem_append_left _ hrow)
    · exact .inr hold
  · intro id hid hne ⟨row, hrow, hrowid⟩
    rw [hrows] at hrow
    rcases List.mem_append.mp hrow with hpruned | hnew
    · exact hkept.failed id hid ⟨row, ControlLaneSeenStore.mem_of_mem_prune hpruned, hrowid⟩
    · obtain rfl := List.mem_singleton.mp hnew
      exact hne hrowid.symm

theorem kept_deliver
    (hclear : Clear localAccountId lane (.deliver envelope answers)) :
    Kept (recorded envelope answers lane (taken localAccountId lane.seen envelope answers)) := by
  obtain ⟨hone, hsibling, hforget⟩ := hclear
  rcases taken_cases localAccountId lane.seen envelope answers with ⟨forgets, hlane, htaken⟩ | ⟨-, -, htaken⟩
  · rw [htaken]
    have hfresh := fresh_of_lane hlane
    cases hsight : lane.seen.firstSight answers.seenDisk envelope.id answers.nowMs with
    | mk answer after =>
      by_cases hfirst : answer = .ok true
      · subst hfirst
        have hothers := ne_of_firstSight hkept htick hone hfresh hsight
        obtain ⟨hrows, hunseen⟩ := others_of_firstSight hkept htick hsight
        cases happlied : answers.applied with
        | error e =>
          -- only a peer's message may fail, and it is forgotten
          have hpeer : forgets = true := by
            by_contra hnot
            have hok := hsibling (by simpa [hnot] using hlane)
            rw [happlied] at hok
            cases hok
          subst hpeer
          have hopens := hforget hlane (by rw [happlied]; nofun)
          have hstate : recorded envelope answers lane (settled true envelope answers (.ok true, after)) =
              { lane with seen := after.forget answers.forgetDisk envelope.id, clockMs := answers.nowMs
                          failed := envelope.id :: lane.failed } := by
            rw [settled, happlied]
            rfl
          rw [hstate]
          constructor
          · intro effect heffect
            refine ⟨(hkept.effects effect heffect).1, (hrows effect heffect).imp ?_ id⟩
            exact ControlLaneSeenStore.mem_forget (hothers effect heffect)
          · intro id hid
            by_cases hown : id = envelope.id
            · rw [hown]
              exact ControlLaneSeenStore.not_sees_forget hopens
            · intro ⟨row, hrow, hrowid⟩
              exact hunseen id (List.mem_of_ne_of_mem hown hid) hown
                ⟨row, ControlLaneSeenStore.mem_of_mem_forget hrow, hrowid⟩
        | ok _ =>
          have hstate : recorded envelope answers lane (settled forgets envelope answers (.ok true, after)) =
              { lane with seen := after, clockMs := answers.nowMs
                          effects := ⟨envelope.id, envelope.timestamp, answers.nowMs⟩ :: lane.effects
                          failed := lane.failed.filter (· ≠ envelope.id) } := by
            rw [settled, happlied]
            rfl
          rw [hstate]
          constructor
          · intro effect heffect
            rcases List.mem_cons.mp heffect with rfl | heffect
            · refine ⟨hfresh, .inl ?_⟩
              rw [(ControlLaneSeenStore.firstSight_new hsight).2]
              exact List.mem_append_right _ List.mem_cons_self
            · exact ⟨(hkept.effects effect heffect).1, hrows effect heffect⟩
          · intro id hid
            obtain ⟨hid, hother⟩ := List.mem_filter.mp hid
            exact hunseen id hid (by simpa using hother)
      · rw [settled_old hfirst]
        exact kept_rows hkept htick (ControlLaneSeenStore.firstSight_old hsight hfirst)
  · rw [htaken]
    exact kept_rows hkept htick (.inl rfl)

theorem upheld_deliver (hclear : Clear localAccountId lane (.deliver envelope answers)) :
    Upheld localAccountId lane (.deliver envelope answers) := by
  have hdelivered : ∀ {envelope' answers'}, LaneEvent.deliver envelope answers = .deliver envelope' answers' →
      envelope' = envelope ∧ answers' = answers := by
    intro envelope' answers' h
    obtain ⟨rfl, rfl⟩ := LaneEvent.deliver.inj h
    exact ⟨rfl, rfl⟩
  constructor
  · intro envelope' answers' hevent happlied
    obtain ⟨rfl, rfl⟩ := hdelivered hevent
    rcases taken_cases localAccountId lane.seen envelope' answers' with ⟨forgets, hlane, htaken⟩ | ⟨-, -, htaken⟩
    · rw [htaken] at happlied
      cases hsight : lane.seen.firstSight answers'.seenDisk envelope'.id answers'.nowMs with
      | mk answer after =>
        rw [hsight] at happlied
        by_cases hfirst : answer = .ok true
        · subst hfirst
          exact ne_of_firstSight hkept htick hclear.1 (fresh_of_lane hlane) hsight
        · rw [settled_old hfirst] at happlied
          cases happlied
    · rw [htaken] at happlied
      cases happlied
  · intro envelope' answers' hevent hfailed hon hopens hinserts
    obtain ⟨rfl, rfl⟩ := hdelivered hevent
    rcases taken_cases localAccountId lane.seen envelope' answers' with ⟨forgets, hlane, htaken⟩ | ⟨hpeer, hsibling, -⟩
    · have hnamed : envelope'.id.1 ≠ "" ∧ envelope'.id.2 ≠ "" := by
        have hadmitted := hon.elim OnPeerLane.admitted OnSiblingLane.admitted
        exact ⟨hadmitted.named.2, hadmitted.named.1⟩
      have hfirst := ControlLaneSeenStore.firstSight_of_not_sees answers'.nowMs hnamed hopens hinserts
        (hkept.failed _ hfailed)
      rw [htaken]
      cases hsight : lane.seen.firstSight answers'.seenDisk envelope'.id answers'.nowMs with
      | mk answer after =>
        obtain rfl : answer = .ok true := by rw [← hfirst, hsight]
        rw [settled_new]
        rfl
    · exact absurd hon (not_or.mpr ⟨hpeer, hsibling⟩)

end

theorem kept_step {event : LaneEvent} (hkept : Kept lane) (htick : Ticks lane event)
    (hclear : Clear localAccountId lane event) :
    Kept (step localAccountId lane event) ∧ Upheld localAccountId lane event := by
  cases event with
  | deliver envelope answers => exact ⟨kept_deliver hkept htick hclear, upheld_deliver hkept htick hclear⟩
  | restart =>
    refine ⟨⟨hkept.effects, hkept.failed⟩, ?_, ?_⟩
    · intro envelope answers hevent
      cases hevent
    · intro envelope answers hevent
      cases hevent

/-- In a run of clear events, over a clock that does not go backward, a family
takes a message at most once, and is given again what it failed at. -/
theorem lane_taken_once (localAccountId : String) (events : List LaneEvent)
    (hticks : Lib.Admits (step localAccountId) Ticks {} events)
    (hclear : Lib.Admits (step localAccountId) (Clear localAccountId) {} events) :
    Lib.Admits (step localAccountId) (Upheld localAccountId) {} events ∧
      ∀ lane ∈ Lib.states (step localAccountId) {} events, (lane.effects.map LaneEffect.id).Nodup := by
  have hstart : Kept {} := ⟨nofun, nofun⟩
  have hboth := hticks.and hclear
  have hkeeps : ∀ lane event, Kept lane → Ticks lane event ∧ Clear localAccountId lane event →
      Kept (step localAccountId lane event) := by
    intro lane event hkept h
    exact (kept_step hkept h.1 h.2).1
  have hupheld : Lib.Admits (step localAccountId) (Upheld localAccountId) {} events := by
    apply (hboth.carry hkeeps hstart).mono
    intro lane event ⟨hkept, htick, hclear⟩
    exact (kept_step hkept htick hclear).2
  refine ⟨hupheld, ?_⟩
  have hnodup : ∀ lane event, (lane.effects.map LaneEffect.id).Nodup → Upheld localAccountId lane event →
      ((step localAccountId lane event).effects.map LaneEffect.id).Nodup := by
    intro lane event hnodup hupheld
    cases event with
    | restart => exact hnodup
    | deliver envelope answers =>
      have honce := hupheld.once envelope answers rfl
      rw [step]
      cases htaken : taken localAccountId lane.seen envelope answers with
      | mk answer seen =>
        rw [htaken] at honce
        cases answer with
        | none => exact hnodup
        | some answer =>
          cases answer with
          | error e => exact hnodup
          | ok _ =>
            apply List.nodup_cons.mpr
            refine ⟨?_, hnodup⟩
            intro hmem
            obtain ⟨effect, heffect, hid⟩ := List.mem_map.mp hmem
            exact honce rfl effect heffect hid
  have hempty : (({} : Lane).effects.map LaneEffect.id).Nodup := List.nodup_nil
  exact hupheld.invariant hnodup hempty

/-- A call's signal from an account. -/
def callSignal (sender : String) : LaneEnvelope where
  messageId := "call-1"
  senderContactId := sender
  senderDevice := "laptop"
  timestamp := 1000

/-- A delivery that gets to the call family, which answers `applied`. -/
def callAnswers (applied : Roe Unit) : LaneAnswers where
  decrypted := .ok { family := some { laneMaxAgeMs := 60000 } }
  nowMs := 1000
  applied := applied

/-- A sibling's message that its family failed at is not given to it again. -/
theorem sibling_failure_not_again :
    let lane := step "account:me" {} (.deliver (callSignal "account:me") (callAnswers (.error "busy")))
    (callSignal "account:me").id ∈ lane.failed ∧ OnSiblingLane "account:me" (callSignal "account:me") (callAnswers (.ok ())) ∧
      (taken "account:me" lane.seen (callSignal "account:me") (callAnswers (.ok ()))).1 = none := by
  refine ⟨List.mem_cons_self, ⟨⟨rfl, by decide, rfl, rfl, ⟨by decide, by decide⟩, ⟨rfl, rfl⟩, rfl, rfl⟩, rfl, nofun, rfl, _, rfl,
    _, rfl, rfl, by decide⟩, rfl⟩

/-- A peer's signal that fails, is applied when it comes again, and once more
is replayed. -/
def callRun : List LaneEvent :=
  [.deliver (callSignal "account:peer") (callAnswers (.error "busy")), .restart,
    .deliver (callSignal "account:peer") (callAnswers (.ok ())), .deliver (callSignal "account:peer") (callAnswers (.ok ()))]

theorem lane_taken_once_sample :
    Lib.Admits (step "account:me") (Upheld "account:me") {} callRun ∧
      ((callRun.foldl (step "account:me") {}).effects.map LaneEffect.id) = [("account:peer", "call-1")] := by
  refine ⟨(lane_taken_once "account:me" callRun ?_ ?_).1, rfl⟩
  · have hstart : (0 : Int) ≤ 1000 := by decide
    have hlater : (1000 : Int) ≤ 1000 := by decide
    exact ⟨hstart, trivial, hlater, hlater, trivial⟩
  · have hpeer : ¬ OnSiblingLane "account:me" (callSignal "account:peer") (callAnswers (.ok ())) :=
      fun h => absurd h.sibling (by decide)
    have hpeer' : ¬ OnSiblingLane "account:me" (callSignal "account:peer") (callAnswers (.error "busy")) :=
      fun h => absurd h.sibling (by decide)
    refine ⟨⟨nofun, fun h => absurd h hpeer', fun _ _ => rfl⟩, trivial, ⟨nofun, fun h => absurd h hpeer, fun _ _ => rfl⟩,
      ⟨?_, fun h => absurd h hpeer, fun _ _ => rfl⟩, trivial⟩
    intro effect heffect _
    obtain rfl := List.mem_singleton.mp heffect
    decide

end ControlLane

end Pbr
