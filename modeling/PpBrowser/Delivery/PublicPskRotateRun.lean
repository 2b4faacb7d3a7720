import PpBrowser.Delivery.PublicPskLockCoordinator
import PpBrowser.Lib.RotateRace

/-!
# PublicPskRotateRun — two devices rotating one chat's key

Both devices of a public chat rotate its key, each by `SendPublicPskRotate`
(prepare, send, then commit, or abort unsent), and hear each other's
rotations after any delay. What the coordinator does to the rows is a
`RotateRace`: the rotations converge in the runs that are fair there, where
no device refuses a rotation for one that is over, or commits an epoch the
other has taken under another key.
-/

namespace Pbr

open Lib PublicPskLockCoordinator

/-! ## The run -/

/-- A device's conversation key pair, as kept and as read. -/
structure ConversationKeys (C : PairCrypto) where
  pkB64 : String
  skB64 : String
  pk : ByteVector
  sk : ByteVector
  pkB64_ne : pkB64 ≠ ""
  skB64_ne : skB64 ≠ ""
  decode_pk : C.base64Decode pkB64 = .ok pk
  decode_sk : C.base64Decode skB64 = .ok sk

/-- Two devices that share a public chat, each with the other's conversation
key. -/
structure RotatePair (C : PairCrypto) where
  thread : Side → Thread
  direct : ∀ s, (thread s).kind = .direct
  isPublic : ∀ s, (thread s).channel = .e2ePublic
  account : Side → String
  accounts_ne : account .left ≠ account .right
  kem : Side → ConversationKeys C

/-- A device: its sessions, and the rotation `SendPublicPskRotate` is in the
middle of. -/
structure RotateDevice where
  sessions : PeerSessions
  plan : Option PublicPskRotatePlan := none
  sent : Bool := false

/-- Both devices, and the messages on their way to each. -/
structure RotateNet where
  device : Side → RotateDevice
  flight : Side → List PskRotateMessage

inductive RotateEvent where
  /-- `PrepareLock` or `PrepareAutoRekey`, with what the call draws. -/
  | prepare (s : Side) (kind : PublicPskRotateKind) (peerAccountKemPk : ByteVector)
      (generated : Roe KemKeyPair) (encapsulateForRecipient : ByteVector → Roe AutoKeyEncapsulation)
      (rotationId : String)
  | send (s : Side)
  | commit (s : Side) (nowMs : Int)
  | abort (s : Side)
  /-- The message at place `i` of those on their way to `s`. -/
  | deliver (s : Side) (i : Nat) (localAccountKemSk : ByteVector) (nowMs : Int)

def rotationOf (C : PairCrypto) (plan : PublicPskRotatePlan) :
    Rotation String (Option String) where
  id := plan.detail.rotationId
  newEpoch := plan.detail.newEpoch
  key := some (C.base64Encode plan.newMasterPsk)

def rowSide (C : PairCrypto) (record : PeerSessionRecord) (plan : Option PublicPskRotatePlan)
    (sent : Bool) : RotateSide String (Option String) where
  epoch := record.sessionEpoch
  key := record.masterPskB64
  last := record.lastRotationId
  plan := plan.map (rotationOf C)
  sent := sent

namespace RotateNet

variable (net : RotateNet) (s : Side)

def setDevice (device : RotateDevice) : RotateNet :=
  { net with device := Function.update net.device s device }

def setFlight (messages : List PskRotateMessage) : RotateNet :=
  { net with flight := Function.update net.flight s messages }

/-- Nothing is on its way and no rotation is under way. -/
def Settled : Prop := ∀ s, net.flight s = [] ∧ (net.device s).plan = none

instance : Decidable net.Settled :=
  inferInstanceAs (Decidable (∀ s, net.flight s = [] ∧ (net.device s).plan = none))

end RotateNet

namespace RotatePair

variable {C : PairCrypto} (P : RotatePair C)

def key (s : Side) : PeerSessionKey := chatTargetFromThread (P.thread s)

def message (s : Side) (plan : PublicPskRotatePlan) : PskRotateMessage :=
  { keyInitB64 := some plan.keyInitB64, senderContactId := P.account s, detail := plan.detail }

/-- One step of a device; a call that fails leaves its rows as they were. -/
def step (net : RotateNet) : RotateEvent → RotateNet
  | .prepare s kind peerAccountKemPk generated encapsulate rotationId =>
    let device := net.device s
    match device.plan with
    | some _ => net  -- one rotation at a time
    | none =>
      match prepareRotate C device.sessions (some (P.thread s)) kind peerAccountKemPk generated
          encapsulate rotationId with
      | .ok (plan, sessions) => net.setDevice s { sessions, plan := some plan, sent := false }
      | .error _ => net
  | .send s =>
    let device := net.device s
    match device.plan, device.sent with
    | some plan, false =>
      match PskRotateCodec.validate plan.detail with
      | .ok _ =>
        (net.setDevice s { device with sent := true }).setFlight s.other
          (net.flight s.other ++ [P.message s plan])
      | .error _ => net
    | _, _ => net
  | .commit s nowMs =>
    let device := net.device s
    match device.plan, device.sent with
    | some plan, true =>
      match commit C device.sessions plan nowMs with
      | .ok sessions => net.setDevice s { sessions }
      | .error _ => net.setDevice s { sessions := device.sessions }
    | _, _ => net
  | .abort s =>
    let device := net.device s
    match device.plan, device.sent with
    | some plan, false => net.setDevice s { sessions := abortPrepare device.sessions plan }
    | _, _ => net
  | .deliver s i localAccountKemSk nowMs =>
    let device := net.device s
    match (net.flight s)[i]? with
    | none => net
    | some message =>
      let rest := net.setFlight s ((net.flight s).eraseIdx i)
      match applyInbound C device.sessions (some (P.thread s)) message localAccountKemSk
          (P.account s) nowMs with
      | .ok (_, sessions) => rest.setDevice s { device with sessions }
      | .error _ => rest

/-! ## The race of a run -/

/-- The session a key_init opens at `s`; none if it does not open one. -/
def openedAt (s : Side) (keyInit : Option String) : Option ByteVector :=
  keyInit.bind fun keyInit => (C.deriveMasterPskFromKeyInit (P.kem s).sk keyInit).toOption

/-- A message on its way to `s`. -/
def heardAt (s : Side) (message : PskRotateMessage) : Rotation String (Option String) where
  id := message.detail.rotationId
  newEpoch := message.detail.newEpoch
  key := (P.openedAt s message.keyInitB64).map C.base64Encode

def rowOf (s : Side) (device : RotateDevice) : PeerSessionRecord :=
  (device.sessions.load (P.key s)).getD { key := P.key s, sessionEpoch := 0 }

/-- What a device's rotations read of it. -/
def sideOf (s : Side) (device : RotateDevice) : RotateSide String (Option String) :=
  rowSide C (P.rowOf s device) device.plan device.sent

def raceOf (net : RotateNet) : RotateRace String (Option String) where
  side s := P.sideOf s (net.device s)
  flight s := (net.flight s).map (P.heardAt s)

/-- What an event is in the race: a call that fails is none. -/
def raceEvent (net : RotateNet) : RotateEvent → RaceEvent String (Option String)
  | .prepare s kind peerAccountKemPk generated encapsulate rotationId =>
    match prepareRotate C (net.device s).sessions (some (P.thread s)) kind peerAccountKemPk
        generated encapsulate rotationId with
    | .ok (plan, _) => .prepare s rotationId plan.detail.newEpoch (rotationOf C plan).key
    | .error _ => .idle
  | .send s =>
    match (net.device s).plan with
    | none => .idle
    | some plan =>
      match PskRotateCodec.validate plan.detail with
      | .ok _ => .send s
      | .error _ => .idle
  | .commit s _ => .commit s
  | .abort s => .abort s
  | .deliver s i _ _ => .deliver s i

/-- The KEM gives both ends the same key: what is drawn for the key of `s`
is what its secret opens. -/
def Encapsulates (s : Side) : Roe AutoKeyEncapsulation → Prop
  | .ok established => established.keyInitB64 ≠ "" ∧
      C.deriveMasterPskFromKeyInit (P.kem s).sk established.keyInitB64 = .ok established.masterPsk
  | .error _ => True

/-- The KEM gives both ends the same key, and ids are fresh. -/
def Draws (net : RotateNet) : RotateEvent → Prop
  | .prepare s _ _ _ encapsulate rotationId =>
    (P.raceOf net).Fresh rotationId ∧ P.Encapsulates s.other (encapsulate (P.kem s.other).pk)
  | _ => True

/-- No device refuses a later rotation for one that is over or one the
sender already holds, nor commits what the other has refused or an epoch the
other holds under another key. -/
def Fair (net : RotateNet) (event : RotateEvent) : Prop :=
  (P.raceOf net).Fair (P.raceEvent net event)

/-- The devices do not hold two keys of one epoch. -/
def OneKey (net : RotateNet) : Prop :=
  let left := P.rowOf .left (net.device .left)
  let right := P.rowOf .right (net.device .right)
  left.sessionEpoch = right.sessionEpoch → left.masterPskB64 = right.masterPskB64

def SameSession (net : RotateNet) : Prop :=
  let left := P.rowOf .left (net.device .left)
  let right := P.rowOf .right (net.device .right)
  left.sessionEpoch = right.sessionEpoch ∧ left.masterPskB64 = right.masterPskB64

/-- A rotation to a later epoch is taken up by a device that has none of its
own under way. -/
def TakesUp (net : RotateNet) : RotateEvent → Prop
  | .deliver s i localAccountKemSk nowMs => ∀ message ∈ (net.flight s)[i]?,
      (P.rowOf s (net.device s)).sessionEpoch < message.detail.newEpoch →
      ¬ ((P.raceOf net).side s).Contends →
        let row := P.rowOf s ((P.step net (.deliver s i localAccountKemSk nowMs)).device s)
        row.sessionEpoch = message.detail.newEpoch ∧
          row.masterPskB64 = (P.openedAt s message.keyInitB64).map C.base64Encode
  | _ => True

instance (s : Side) : ∀ drawn, Decidable (P.Encapsulates s drawn)
  | .ok established => inferInstanceAs (Decidable (established.keyInitB64 ≠ "" ∧
      C.deriveMasterPskFromKeyInit (P.kem s).sk established.keyInitB64 = .ok established.masterPsk))
  | .error _ => inferInstanceAs (Decidable True)

instance (net : RotateNet) : ∀ event, Decidable (P.Draws net event)
  | .prepare s _ _ _ encapsulate rotationId => inferInstanceAs (Decidable
      ((P.raceOf net).Fresh rotationId ∧ P.Encapsulates s.other (encapsulate (P.kem s.other).pk)))
  | .send _ | .commit .. | .abort _ | .deliver .. => inferInstanceAs (Decidable True)

instance (net : RotateNet) (event : RotateEvent) : Decidable (P.Fair net event) :=
  inferInstanceAs (Decidable ((P.raceOf net).Fair (P.raceEvent net event)))

instance (net : RotateNet) : Decidable (P.SameSession net) :=
  inferInstanceAs (Decidable
    ((P.rowOf .left (net.device .left)).sessionEpoch = (P.rowOf .right (net.device .right)).sessionEpoch ∧
      (P.rowOf .left (net.device .left)).masterPskB64 = (P.rowOf .right (net.device .right)).masterPskB64))

/-! ## What a run keeps -/

/-- A row of the chat: a current key, and both conversation keys. -/
structure WiredRow (s : Side) (record : PeerSessionRecord) : Prop where
  psk : record.masterPskB64.isSome
  epoch : record.sessionEpoch < 2 ^ 32
  pk : record.threadKemPkB64 = some (P.kem s).pkB64
  sk : record.threadKemSkB64 = some (P.kem s).skB64
  peerPk : record.peerThreadKemPkB64 = some (P.kem s.other).pkB64

/-- A rotation of `s`: wrapped to the other's conversation key, which opens
it. -/
structure WiredDetail (s : Side) (keyInit : String) (masterPsk : ByteVector)
    (detail : PskRotateDetail) : Prop where
  keyInit_ne : keyInit ≠ ""
  opens : C.deriveMasterPskFromKeyInit (P.kem s.other).sk keyInit = .ok masterPsk
  hash : hashKeyInitB64 C keyInit = .ok detail.keyInitHash
  wrap : detail.wrapKind = kPskRotateWrapThreadKem
  pk : detail.threadKemPkB64 = (P.kem s).pkB64
  epoch : detail.newEpoch < 2 ^ 32

structure WiredDevice (s : Side) (device : RotateDevice) : Prop where
  row : ∃ record, device.sessions.load (P.key s) = some record ∧ P.WiredRow s record
  plan : ∀ plan ∈ device.plan, plan.key = P.key s ∧
    P.WiredDetail s plan.keyInitB64 plan.newMasterPsk plan.detail

/-- A message on its way to `s`. -/
def WiredMessage (s : Side) (message : PskRotateMessage) : Prop :=
  message.senderContactId = P.account s.other ∧ PskRotateCodec.validate message.detail = .ok () ∧
    ∃ keyInit masterPsk, message.keyInitB64 = some keyInit ∧
      P.WiredDetail s.other keyInit masterPsk message.detail

structure Wired (net : RotateNet) : Prop where
  device : ∀ s, P.WiredDevice s (net.device s)
  flight : ∀ s, ∀ message ∈ net.flight s, P.WiredMessage s message

/-! ## The coordinator on a row of the chat -/

section Row

variable {P} {s : Side} {record : PeerSessionRecord} {store : PeerSessions}

theorem targetKey_thread : targetKeyForPublicThread (some (P.thread s)) = .ok (P.key s) := by
  simp [targetKeyForPublicThread, P.direct s, P.isPublic s, key]

theorem WiredRow.loadRequired (hrow : P.WiredRow s record) (hload : store.load (P.key s) = some record) :
    ∃ psk, record.masterPskB64 = some psk ∧ loadRequired store (P.key s) = .ok (record, psk) := by
  obtain ⟨psk, hpsk⟩ := Option.isSome_iff_exists.mp hrow.psk
  exact ⟨psk, hpsk, by simp [PublicPskLockCoordinator.loadRequired, hload, hpsk]⟩

/-- What a rotation prepared on the row is. -/
structure Prepared (s : Side) (record : PeerSessionRecord)
    (encapsulate : ByteVector → Roe AutoKeyEncapsulation) (rotationId : String)
    (plan : PublicPskRotatePlan) : Prop where
  key : plan.key = record.key
  drawn : encapsulate (P.kem s.other).pk = .ok ⟨plan.newMasterPsk, plan.keyInitB64⟩
  hash : hashKeyInitB64 C plan.keyInitB64 = .ok plan.detail.keyInitHash
  id : plan.detail.rotationId = rotationId
  epoch : plan.detail.newEpoch = u32 (record.sessionEpoch + 1)
  wrap : plan.detail.wrapKind = kPskRotateWrapThreadKem
  pk : plan.detail.threadKemPkB64 = (P.kem s).pkB64

variable {plan : PublicPskRotatePlan} {keyInit : String} {masterPsk : ByteVector}

theorem WiredRow.prepareRow (hrow : P.WiredRow s record) {psk : String}
    {kind : PublicPskRotateKind} {peerAccountKemPk : ByteVector} {generated : Roe KemKeyPair}
    {encapsulate : ByteVector → Roe AutoKeyEncapsulation} {rotationId : String} {saved : PeerSessionRecord}
    (h : PublicPskLockCoordinator.prepareRow C record psk kind peerAccountKemPk generated
      encapsulate rotationId = .ok (plan, saved)) : Prepared (P := P) s record encapsulate rotationId plan ∧
      saved = { record with lastRotationId := some rotationId } := by
  have hkem : ensureConversationKem C record generated = .ok record := by
    simp [ensureConversationKem, present, hrow.pk, hrow.sk, (P.kem s).pkB64_ne, (P.kem s).skB64_ne]
  have hwrap : wrapKey C record kind peerAccountKemPk =
      .ok ((P.kem s.other).pk, kPskRotateWrapThreadKem) := by
    simp [wrapKey, hrow.peerPk, (P.kem s.other).pkB64_ne, (P.kem s.other).decode_pk]
  obtain ⟨-, -, h⟩ := roe_bind_ok.mp h
  rw [hkem, roe_ok_bind, hwrap, roe_ok_bind] at h
  obtain ⟨oldMasterPsk, -, h⟩ := roe_bind_ok.mp h
  obtain ⟨established, hdrawn, h⟩ := roe_bind_ok.mp h
  obtain ⟨keyInitHash, hhash, h⟩ := roe_bind_ok.mp h
  obtain ⟨rfl, rfl⟩ := Prod.mk.inj (Except.ok.inj h)
  exact ⟨⟨rfl, hdrawn, hhash, rfl, rfl, rfl, by simp [hrow.pk]⟩, rfl⟩

theorem accounts_other (s : Side) : P.account s.other ≠ P.account s := by
  cases s with
  | left => exact P.accounts_ne.symm
  | right => exact P.accounts_ne

/-- The row a device that hears `message` is left with. -/
theorem WiredRow.applyRow (hrow : P.WiredRow s record)
    {message : PskRotateMessage} (hsender : message.senderContactId = P.account s.other)
    (hm : P.WiredDetail s.other keyInit masterPsk message.detail) (psk : String)
    (localAccountKemSk : ByteVector) (nowMs : Int) :
    match applyRow C record psk keyInit message localAccountKemSk (P.account s) nowMs with
    | .ok after => after.key = record.key ∧ P.WiredRow s after ∧ ∀ plan sent, rowSide C after plan sent =
        (rowSide C record plan sent).hear ⟨message.detail.rotationId, message.detail.newEpoch,
          some (C.base64Encode masterPsk)⟩
    | .error _ => ∀ plan sent, rowSide C record plan sent =
        (rowSide C record plan sent).hear ⟨message.detail.rotationId, message.detail.newEpoch,
          some (C.base64Encode masterPsk)⟩ := by
  have hpeer : { record with peerThreadKemPkB64 := some message.detail.threadKemPkB64 } = record := by
    rw [hm.pk, ← hrow.peerPk]
  have hbeats : ∀ plan sent, (rowSide C record plan sent).Beats message.detail.rotationId ↔
      record.lastRotationId.any (PskRotateCodec.rotationIdWins · message.detail.rotationId) = true := by
    intro plan sent
    cases hlast : record.lastRotationId <;>
      simp [RotateSide.Beats, rowSide, PskRotateCodec.rotationIdWins, hlast]
  simp only [PublicPskLockCoordinator.applyRow, hpeer]
  by_cases hwins :
      record.lastRotationId.any (PskRotateCodec.rotationIdWins · message.detail.rotationId) = true
  · -- the local rotation wins
    rw [if_pos hwins]
    refine ⟨rfl, hrow, ?_⟩
    intro plan sent
    rw [RotateSide.hear, if_pos (.inl ((hbeats plan sent).mpr hwins))]
  rw [if_neg hwins]
  by_cases hold : message.detail.newEpoch ≤ record.sessionEpoch
  · rw [if_pos hold]
    intro plan sent
    rw [RotateSide.hear, if_pos (.inr hold)]
  rw [if_neg hold]
  rw [if_neg (by simp [hsender, accounts_other])]
  have hwrap : unwrapKey C record message.detail.wrapKind localAccountKemSk =
      .ok (some (P.kem s).sk) := by
    simp [unwrapKey, hm.wrap, hrow.sk, (P.kem s).decode_sk, Except.map]
  have hopens : C.deriveMasterPskFromKeyInit (P.kem s).sk keyInit = .ok masterPsk := by
    simpa using hm.opens
  simp only [hwrap, roe_ok_bind, hopens]
  refine ⟨rfl, ⟨rfl, hm.epoch, hrow.pk, hrow.sk, hrow.peerPk⟩, ?_⟩
  intro plan sent
  have htaken : ¬ ((rowSide C record plan sent).Beats message.detail.rotationId ∨
      message.detail.newEpoch ≤ (rowSide C record plan sent).epoch) := by
    rintro (h | h)
    · exact hwins ((hbeats plan sent).mp h)
    · exact hold h
  rw [RotateSide.hear, if_neg htaken]
  rfl

theorem WiredDetail.checkedKeyInit
    {message : PskRotateMessage} (hm : P.WiredDetail s keyInit masterPsk message.detail)
    (hkey : message.keyInitB64 = some keyInit) (hvalid : PskRotateCodec.validate message.detail = .ok ()) :
    checkedKeyInit C message = .ok keyInit := by
  simp [PublicPskLockCoordinator.checkedKeyInit, hvalid, hkey, attached, hm.keyInit_ne, hm.hash]

section

variable (hrow : P.WiredRow s record) (hload : store.load (P.key s) = some record) (hkey : plan.key = P.key s)
include hrow hload hkey

theorem WiredRow.commit (hplan : P.WiredDetail s keyInit masterPsk plan.detail) (nowMs : Int) :
    ∃ saved after, commit C store plan nowMs = .ok saved ∧ saved.load (P.key s) = some after ∧ P.WiredRow s after ∧
      rowSide C after none false = (rowSide C record (some plan) true).commit (rotationOf C plan) := by
  obtain ⟨psk, hpsk, hrequired⟩ := hrow.loadRequired hload
  have hrecord : record.key = P.key s := PeerSessions.key_of_load hload
  simp only [PublicPskLockCoordinator.commit, hkey, hrequired, roe_ok_bind]
  by_cases hover : record.lastRotationId.any (· ≠ plan.detail.rotationId) = true
  · -- another rotation has overtaken it
    rw [if_pos hover]
    refine ⟨store, record, rfl, hload, hrow, ?_⟩
    cases hlast : record.lastRotationId with
    | none => simp [hlast] at hover
    | some last =>
      have hne : last ≠ plan.detail.rotationId := by simpa [hlast] using hover
      simp [RotateSide.commit, rowSide, rotationOf, RotateSide.close, hlast, hne]
  · rw [if_neg hover]
    refine ⟨_, _, rfl, PeerSessions.load_save_self hrecord,
      ⟨rfl, hplan.epoch, hrow.pk, hrow.sk, hrow.peerPk⟩, ?_⟩
    have hlast : record.lastRotationId = some plan.detail.rotationId ∨
        record.lastRotationId = none := by
      cases hlast : record.lastRotationId with
      | none => exact .inr rfl
      | some last => exact .inl (by simpa [hlast] using hover)
    simp [RotateSide.commit, rowSide, rotationOf, RotateSide.close, RotateSide.take, rotatedRow, hlast]

theorem WiredRow.abort : ∃ after, (abortPrepare store plan).load (P.key s) = some after ∧ P.WiredRow s after ∧
      rowSide C after none false = (rowSide C record (some plan) false).abort (rotationOf C plan) := by
  have hrecord : record.key = P.key s := PeerSessions.key_of_load hload
  by_cases hlast : record.lastRotationId = some plan.detail.rotationId
  · refine ⟨{ record with lastRotationId := none }, ?_,
      ⟨hrow.psk, hrow.epoch, hrow.pk, hrow.sk, hrow.peerPk⟩, ?_⟩
    · simp [abortPrepare, hkey, hload, hlast, PeerSessions.load_save_self, hrecord]
    · simp [RotateSide.abort, rowSide, rotationOf, RotateSide.close, hlast]
  · refine ⟨record, by simp [abortPrepare, hkey, hload, hlast], hrow, ?_⟩
    simp [RotateSide.abort, rowSide, rotationOf, RotateSide.close, hlast]

end

end Row

/-! ## The run is a race -/

section Race

variable {P} {s : Side} {net : RotateNet} {device : RotateDevice}

theorem raceOf_setDevice (device : RotateDevice) :
    P.raceOf (net.setDevice s device) = (P.raceOf net).setSide s (P.sideOf s device) := by
  simp only [raceOf, RotateNet.setDevice, RotateRace.setSide, RotateRace.mk.injEq, and_true]
  funext u
  by_cases hu : u = s
  · subst hu
    simp
  · simp [hu]

theorem raceOf_setFlight (messages : List PskRotateMessage) : P.raceOf (net.setFlight s messages) =
      (P.raceOf net).setFlight s (messages.map (P.heardAt s)) := by
  simp only [raceOf, RotateNet.setFlight, RotateRace.setFlight, RotateRace.mk.injEq, true_and]
  funext u
  by_cases hu : u = s
  · subst hu
    simp
  · simp [hu]

@[simp] theorem flight_raceOf : (P.raceOf net).flight s = (net.flight s).map (P.heardAt s) := rfl

theorem sideOf_of_load {record : PeerSessionRecord} (hload : device.sessions.load (P.key s) = some record) :
    P.sideOf s device = rowSide C record device.plan device.sent := by
  simp [sideOf, rowOf, hload]

section

variable (h : P.Wired net)
include h

theorem Wired.setDevice (hdevice : P.WiredDevice s device) : P.Wired (net.setDevice s device) where
  device u := by
    by_cases hu : u = s
    · subst hu
      simpa [RotateNet.setDevice] using hdevice
    · simpa [RotateNet.setDevice, hu] using h.device u
  flight := h.flight

theorem Wired.setFlight {messages : List PskRotateMessage}
    (hflight : ∀ message ∈ messages, P.WiredMessage s message) : P.Wired (net.setFlight s messages) where
  device := h.device
  flight u := by
    by_cases hu : u = s
    · subst hu
      simpa [RotateNet.setFlight] using hflight
    · simpa [RotateNet.setFlight, hu] using h.flight u

theorem Wired.side (s : Side) : ∃ record, (net.device s).sessions.load (P.key s) = some record ∧ P.WiredRow s record ∧
      (P.raceOf net).side s = rowSide C record (net.device s).plan (net.device s).sent := by
  obtain ⟨record, hload, hrow⟩ := (h.device s).row
  exact ⟨record, hload, hrow, sideOf_of_load hload⟩

theorem Wired.step_prepare {kind : PublicPskRotateKind}
    {peerAccountKemPk : ByteVector} {generated : Roe KemKeyPair}
    {encapsulate : ByteVector → Roe AutoKeyEncapsulation} {rotationId : String}
    (hdraws : P.Draws net (.prepare s kind peerAccountKemPk generated encapsulate rotationId)) :
    let event := RotateEvent.prepare s kind peerAccountKemPk generated encapsulate rotationId
    P.raceOf (P.step net event) = (P.raceOf net).step (P.raceEvent net event) ∧
      P.Wired (P.step net event) ∧ (P.raceOf net).Proper (P.raceEvent net event) := by
  obtain ⟨record, hload, hrow, hside⟩ := h.side s
  obtain ⟨hfresh, hkem⟩ := hdraws
  simp only [step, raceEvent]
  cases hprepared : prepareRotate C (net.device s).sessions (some (P.thread s)) kind
      peerAccountKemPk generated encapsulate rotationId with
  | error e =>
    cases hplan : (net.device s).plan <;> exact ⟨rfl, h, trivial⟩
  | ok result =>
    obtain ⟨plan, sessions⟩ := result
    obtain ⟨psk, hpsk, hrequired⟩ := hrow.loadRequired hload
    rw [prepareRotate, targetKey_thread, roe_ok_bind, hrequired, roe_ok_bind] at hprepared
    obtain ⟨⟨prepared, saved⟩, hok, hresult⟩ := roe_bind_ok.mp hprepared
    obtain ⟨rfl, rfl⟩ := Prod.mk.inj (Except.ok.inj hresult)
    obtain ⟨hp, rfl⟩ := hrow.prepareRow hok
    have hrecord : record.key = P.key s := PeerSessions.key_of_load hload
    have hproper : (P.raceOf net).Proper (.prepare s rotationId prepared.detail.newEpoch
        (rotationOf C prepared).key) := by
      refine ⟨?_, hfresh⟩
      rw [hp.epoch, hside]
      have hepoch := hrow.epoch
      by_cases hlast : record.sessionEpoch = 2 ^ 32 - 1
      · exact .inr (by simp [u32, hlast])
      · exact .inl (u32_succ (by omega))
    cases hplan : (net.device s).plan with
    | some other =>
      refine ⟨?_, h, hproper⟩
      have hbusy : ((P.raceOf net).side s).plan = some (rotationOf C other) := by
        simp [hside, rowSide, hplan]
      simp [RotateRace.step, hbusy]
    | none =>
      set saved : PeerSessionRecord := { record with lastRotationId := some rotationId } with hsaved
      have hload' : ((net.device s).sessions.save saved).load (P.key s) = some saved :=
        PeerSessions.load_save_self hrecord
      have hfree : ((P.raceOf net).side s).plan = none := by
        simp [hside, rowSide, hplan]
      refine ⟨?_, h.setDevice ⟨⟨saved, hload', ⟨hrow.psk, hrow.epoch, hrow.pk, hrow.sk,
        hrow.peerPk⟩⟩, ?_⟩, hproper⟩
      · rw [raceOf_setDevice, sideOf_of_load hload']
        simp only [RotateRace.step, hfree]
        simp [hside, RotateSide.prepare, rowSide, rotationOf, hp.id, hsaved]
      · intro other hother
        obtain rfl : prepared = other := by simpa using hother
        rw [hp.drawn] at hkem
        obtain ⟨hne, hopens⟩ := hkem
        refine ⟨hp.key.trans hrecord, hne, hopens, hp.hash, hp.wrap, hp.pk, ?_⟩
        rw [hp.epoch]
        exact Nat.mod_lt _ (by decide)

theorem Wired.step_send : P.raceOf (P.step net (.send s)) = (P.raceOf net).step (P.raceEvent net (.send s)) ∧
      P.Wired (P.step net (.send s)) ∧ (P.raceOf net).Proper (P.raceEvent net (.send s)) := by
  obtain ⟨record, hload, hrow, hside⟩ := h.side s
  cases hplan : (net.device s).plan with
  | none =>
    simp only [step, raceEvent, hplan]
    exact ⟨rfl, h, trivial⟩
  | some plan =>
    cases hvalid : PskRotateCodec.validate plan.detail with
    | error e =>
      have hstep : P.step net (.send s) = net := by
        cases hsent : (net.device s).sent <;> simp only [step, hplan, hsent, hvalid]
      rw [hstep]
      simp only [raceEvent, hplan, hvalid]
      exact ⟨rfl, h, trivial⟩
    | ok _ =>
      have hepoch : plan.detail.newEpoch ≠ 0 := by
        intro hzero
        simp [PskRotateCodec.validate, hzero] at hvalid
        split at hvalid <;> cases hvalid
      have hproper : (P.raceOf net).Proper (.send s) := by
        intro m hm
        obtain rfl : rotationOf C plan = m := by simpa [hside, rowSide, hplan] using hm
        exact hepoch
      cases hsent : (net.device s).sent with
      | true =>
        simp only [step, raceEvent, hplan, hsent, hvalid]
        refine ⟨?_, h, hproper⟩
        simp [RotateRace.step, hside, rowSide, hplan, hsent]
      | false =>
        obtain ⟨hkey, hdetail⟩ := (h.device s).plan plan hplan
        have hheard : P.heardAt s.other (P.message s plan) = rotationOf C plan := by
          simp [heardAt, message, rotationOf, openedAt, hdetail.opens, Except.toOption]
        set device : RotateDevice :=
          { sessions := (net.device s).sessions, plan := some plan, sent := true } with hdevice
        have hstep : P.step net (.send s) = (net.setDevice s device).setFlight s.other
            (net.flight s.other ++ [P.message s plan]) := by
          simp only [step, hplan, hsent, hvalid, hdevice]
        have hload' : device.sessions.load (P.key s) = some record := hload
        rw [hstep]
        simp only [raceEvent, hplan, hvalid]
        refine ⟨?_, (h.setDevice ⟨⟨record, hload', hrow⟩, ?_⟩).setFlight ?_, hproper⟩
        · rw [raceOf_setFlight, raceOf_setDevice, sideOf_of_load hload']
          simp [RotateRace.step, hside, rowSide, hplan, hsent, hheard, hdevice]
        · intro other hother
          exact (h.device s).plan other (hplan.trans hother)
        · intro m hm
          rcases List.mem_append.mp hm with hm | hm
          · exact h.flight s.other m hm
          · obtain rfl := List.mem_singleton.mp hm
            exact ⟨by simp [message], hvalid, plan.keyInitB64, plan.newMasterPsk, rfl,
              by simpa [message] using hdetail⟩

theorem Wired.step_commit (nowMs : Int) : P.raceOf (P.step net (.commit s nowMs)) = (P.raceOf net).step (.commit s) ∧
      P.Wired (P.step net (.commit s nowMs)) := by
  obtain ⟨record, hload, hrow, hside⟩ := h.side s
  simp only [step]
  cases hplan : (net.device s).plan with
  | none => exact ⟨by simp [RotateRace.step, hside, rowSide, hplan], h⟩
  | some plan =>
    cases hsent : (net.device s).sent with
    | false => exact ⟨by simp [RotateRace.step, hside, rowSide, hplan, hsent], h⟩
    | true =>
      obtain ⟨hkey, hdetail⟩ := (h.device s).plan plan hplan
      obtain ⟨saved, after, hok, hafter, hwired, hcommit⟩ := hrow.commit hload hkey hdetail nowMs
      simp only [hok]
      refine ⟨?_, h.setDevice ⟨⟨after, hafter, hwired⟩, by simp⟩⟩
      rw [raceOf_setDevice, sideOf_of_load hafter, hcommit]
      simp [RotateRace.step, hside, rowSide, hplan, hsent]

theorem Wired.step_abort : P.raceOf (P.step net (.abort s)) = (P.raceOf net).step (.abort s) ∧
      P.Wired (P.step net (.abort s)) := by
  obtain ⟨record, hload, hrow, hside⟩ := h.side s
  simp only [step]
  cases hplan : (net.device s).plan with
  | none => exact ⟨by simp [RotateRace.step, hside, rowSide, hplan], h⟩
  | some plan =>
    cases hsent : (net.device s).sent with
    | true => exact ⟨by simp [RotateRace.step, hside, rowSide, hplan, hsent], h⟩
    | false =>
      obtain ⟨after, hafter, hwired, habort⟩ := hrow.abort hload ((h.device s).plan plan hplan).1
      refine ⟨?_, h.setDevice ⟨⟨after, hafter, hwired⟩, by simp⟩⟩
      rw [raceOf_setDevice, sideOf_of_load hafter, habort]
      simp [RotateRace.step, hside, rowSide, hplan, hsent]

theorem Wired.step_deliver (i : Nat) (localAccountKemSk : ByteVector) (nowMs : Int) :
    P.raceOf (P.step net (.deliver s i localAccountKemSk nowMs)) = (P.raceOf net).step (.deliver s i) ∧
      P.Wired (P.step net (.deliver s i localAccountKemSk nowMs)) := by
  obtain ⟨record, hload, hrow, hside⟩ := h.side s
  simp only [step]
  cases hm : (net.flight s)[i]? with
  | none => exact ⟨by simp [RotateRace.step, raceOf, hm], h⟩
  | some message =>
    have hmem : message ∈ net.flight s := List.mem_of_getElem? hm
    obtain ⟨hsender, hvalid, keyInit, masterPsk, hkey, hdetail⟩ := h.flight s message hmem
    obtain ⟨psk, hpsk, hrequired⟩ := hrow.loadRequired hload
    have hrecord : record.key = P.key s := PeerSessions.key_of_load hload
    have hheard : P.heardAt s message = ⟨message.detail.rotationId, message.detail.newEpoch,
        some (C.base64Encode masterPsk)⟩ := by
      have hopens : C.deriveMasterPskFromKeyInit (P.kem s).sk keyInit = .ok masterPsk := by
        simpa using hdetail.opens
      simp [heardAt, openedAt, hkey, hopens, Except.toOption]
    have hrace : ((P.raceOf net).flight s)[i]? = some (P.heardAt s message) := by
      simp [raceOf, hm]
    have hrest : P.Wired (net.setFlight s ((net.flight s).eraseIdx i)) :=
      h.setFlight fun m hm => h.flight s m (List.mem_of_mem_eraseIdx hm)
    have hstep : (P.raceOf net).step (.deliver s i) =
        ((P.raceOf net).setSide s (((P.raceOf net).side s).hear (P.heardAt s message))).setFlight s
          (((net.flight s).eraseIdx i).map (P.heardAt s)) := by
      simp [RotateRace.step, hm, List.eraseIdx_map]
    have happly := hrow.applyRow hsender hdetail psk localAccountKemSk nowMs
    rw [← hheard] at happly
    simp only [applyInbound, targetKey_thread, hdetail.checkedKeyInit hkey hvalid, hrequired,
      roe_ok_bind]
    cases hresult : PublicPskLockCoordinator.applyRow C record psk keyInit message localAccountKemSk
        (P.account s) nowMs with
    | error e =>
      simp only [hresult] at happly
      refine ⟨?_, hrest⟩
      simp only [roe_error_bind]
      rw [hstep, raceOf_setFlight, hside, ← happly, ← hside, RotateRace.setSide_self]
    | ok after =>
      simp only [hresult] at happly
      obtain ⟨hafter, hwired, hhear⟩ := happly
      have hload' : ((net.device s).sessions.save after).load (P.key s) = some after :=
        PeerSessions.load_save_self (hafter.trans hrecord)
      simp only [roe_ok_bind, pure, Except.pure]
      refine ⟨?_, hrest.setDevice ⟨⟨after, hload', hwired⟩, (h.device s).plan⟩⟩
      rw [hstep, raceOf_setDevice, raceOf_setFlight, sideOf_of_load hload', hhear, hside]
      rfl

end

variable {event : RotateEvent}

theorem Wired.step (h : P.Wired net) (hdraws : P.Draws net event) :
    P.raceOf (P.step net event) = (P.raceOf net).step (P.raceEvent net event) ∧
      P.Wired (P.step net event) ∧ (P.raceOf net).Proper (P.raceEvent net event) := by
  cases event with
  | prepare s kind peerAccountKemPk generated encapsulate rotationId => exact h.step_prepare hdraws
  | send s => exact h.step_send
  | commit s nowMs =>
    obtain ⟨hrace, hwired⟩ := h.step_commit (s := s) nowMs
    exact ⟨hrace, hwired, trivial⟩
  | abort s =>
    obtain ⟨hrace, hwired⟩ := h.step_abort (s := s)
    exact ⟨hrace, hwired, trivial⟩
  | deliver s i localAccountKemSk nowMs =>
    obtain ⟨hrace, hwired⟩ := h.step_deliver (s := s) i localAccountKemSk nowMs
    exact ⟨hrace, hwired, trivial⟩

/-- What every state of a fair run has. -/
structure Agreed (net : RotateNet) : Prop where
  wired : P.Wired net
  race : (P.raceOf net).Inv

theorem Agreed.step (h : P.Agreed net)
    (hok : P.Draws net event ∧ P.Fair net event) : P.Agreed (P.step net event) := by
  obtain ⟨hrace, hwired, hproper⟩ := h.wired.step hok.1
  refine ⟨hwired, ?_⟩
  rw [hrace]
  exact h.race.step hproper hok.2

theorem Agreed.oneKey (h : P.Agreed net) : P.OneKey net := h.race.agree

theorem Agreed.sameSession (h : P.Agreed net) (hsettled : net.Settled) : P.SameSession net := by
  refine h.race.settled ?_
  intro s
  obtain ⟨hflight, hplan⟩ := hsettled s
  exact ⟨by simp [hflight], by simp [raceOf, sideOf, rowSide, hplan]⟩

theorem Agreed.takesUp (h : P.Agreed net) (hok : P.Draws net event ∧ P.Fair net event) : P.TakesUp net event := by
  cases event with
  | deliver s i localAccountKemSk nowMs =>
    intro message hm hlt hcontends
    obtain ⟨hrace, -⟩ := h.wired.step_deliver (s := s) i localAccountKemSk nowMs
    have hheard : P.heardAt s message ∈ ((P.raceOf net).flight s)[i]? := by
      simp [Option.mem_def.mp hm]
    have hnew : ((P.raceOf net).side s).epoch < (P.heardAt s message).newEpoch := hlt
    have htaken : ((P.raceOf net).side s).hear (P.heardAt s message) =
        ((P.raceOf net).side s).take (P.heardAt s message) := by
      refine if_neg ?_
      rintro (hbeats | hle)
      · exact hcontends (hok.2 _ hheard hnew hbeats).1
      · omega
    have hside : (P.raceOf (P.step net (.deliver s i localAccountKemSk nowMs))).side s =
        ((P.raceOf net).side s).take (P.heardAt s message) := by
      rw [hrace, ← htaken]
      simp only [RotateRace.step, Option.mem_def.mp hheard]
      simp
    exact ⟨congrArg RotateSide.epoch hside, congrArg RotateSide.key hside⟩
  | prepare s kind peerAccountKemPk generated encapsulate rotationId | send s | commit s nowMs
  | abort s => trivial

/-- Both devices hold one session, and no rotation is under way. -/
structure Shares (P : RotatePair C) (net : RotateNet) : Prop where
  wired : P.Wired net
  settled : net.Settled
  unsent : ∀ s, (net.device s).sent = false
  session : P.SameSession net

theorem Shares.agreed (h : P.Shares net) : P.Agreed net := by
  refine ⟨h.wired, RotateRace.inv_of_shared ?_ h.unsent h.session.1 h.session.2⟩
  intro s
  obtain ⟨hflight, hplan⟩ := h.settled s
  exact ⟨by simp [hflight], by simp [raceOf, sideOf, rowSide, hplan]⟩

end Race

end RotatePair

/-- In a fair run of any number of rotations, the devices never hold two
keys of one epoch, they hold one session whenever nothing is under way, and
a later rotation is taken up by a device with none of its own under way. -/
theorem public_rotations_converge (C : PairCrypto) (P : RotatePair C) (start : RotateNet)
    (events : List RotateEvent) (hshares : P.Shares start)
    (hdraws : Admits P.step P.Draws start events) (hfair : Admits P.step P.Fair start events) :
    (∀ net ∈ states P.step start events,
        P.OneKey net ∧ (net.Settled → P.SameSession net)) ∧
      Admits P.step P.TakesUp start events := by
  have hok := hdraws.and hfair
  have hkeep : ∀ net event, P.Agreed net → P.Draws net event ∧ P.Fair net event →
      P.Agreed (P.step net event) := fun net event h hok => h.step hok
  constructor
  · intro net hnet
    have hagreed := hok.invariant hkeep hshares.agreed net hnet
    exact ⟨hagreed.oneKey, hagreed.sameSession⟩
  · exact (hok.carry hkeep hshares.agreed).mono fun net event h => h.1.takesUp h.2

/-! ## A rotation refused for one that is over -/

/-- Primitives to run the code on examples: base64 leaves text as it is, a
key_init is its own key, and a hash is 64 characters. -/
def sampleRotateCrypto : PairCrypto where
  base64Encode bytes := String.ofList (bytes.map fun b => Char.ofNat b.toNat)
  base64Decode text := .ok (stringBytes text)
  genericHash bytes := bytes
  bytesToHex bytes :=
    String.ofList (bytes.map (fun b => Char.ofNat b.toNat) ++ List.replicate (64 - bytes.length) '0')
  deriveMasterPskFromKeyInit _ keyInit := .ok (stringBytes keyInit)

def sampleRotatePair : RotatePair sampleRotateCrypto where
  thread
    | .left => ⟨.direct, .e2ePublic, "account", "account:bob"⟩
    | .right => ⟨.direct, .e2ePublic, "account", "account:alice"⟩
  direct s := by cases s <;> rfl
  isPublic s := by cases s <;> rfl
  account
    | .left => "account:alice"
    | .right => "account:bob"
  accounts_ne := by decide
  kem _ := ⟨"p", "q", stringBytes "p", stringBytes "q", by decide, by decide, rfl, rfl⟩

def sampleRotateRow (s : Side) : PeerSessionRecord :=
  { key := sampleRotatePair.key s, masterPskB64 := some "k", keyScope := .devicePair
    threadKemPkB64 := some "p", threadKemSkB64 := some "q", peerThreadKemPkB64 := some "p" }

/-- Both devices at epoch 1 with the key `"k"`. -/
def sampleRotateNet : RotateNet where
  device s := { sessions := PeerSessions.empty.save (sampleRotateRow s) }
  flight _ := []

theorem sampleRotateNet_shares : sampleRotatePair.Shares sampleRotateNet where
  wired := by
    refine ⟨?_, by simp [sampleRotateNet]⟩
    intro s
    exact ⟨⟨sampleRotateRow s, PeerSessions.load_save_self rfl, ⟨rfl, Nat.one_lt_two_pow (by decide), rfl, rfl, rfl⟩⟩,
      by simp [sampleRotateNet]⟩
  settled s := ⟨rfl, rfl⟩
  unsent s := rfl
  session := by decide

/-- A rotation of `s` from `PrepareAutoRekey` to the other's `ApplyInbound`. -/
def sampleRotation (s : Side) (rotationId keyInit : String) : List RotateEvent :=
  [.prepare s .auto [] (.error "") (fun _ => .ok ⟨stringBytes keyInit, keyInit⟩) rotationId,
    .send s, .commit s 5, .deliver s.other 0 [] 6]

set_option maxRecDepth 20000 in
theorem public_rotations_converge_sample :
    let events := sampleRotation .right "a" "x" ++ sampleRotation .left "b" "y"
    (∀ net ∈ states sampleRotatePair.step sampleRotateNet events,
        sampleRotatePair.OneKey net ∧ (net.Settled → sampleRotatePair.SameSession net)) ∧
      Admits sampleRotatePair.step sampleRotatePair.TakesUp sampleRotateNet events :=
  public_rotations_converge sampleRotateCrypto sampleRotatePair sampleRotateNet _
    sampleRotateNet_shares (by decide) (by decide)

set_option maxRecDepth 20000 in
/-- Bob rotates and Alice takes it up; then Alice rotates under a lesser id,
and Bob, with nothing of his own under way, refuses it. Everything is
delivered, and Alice is an epoch ahead. -/
theorem finished_rotation_refuses_the_next :
    let events := sampleRotation .right "b" "x" ++ sampleRotation .left "a" "y"
    sampleRotatePair.Shares sampleRotateNet ∧
      Admits sampleRotatePair.step sampleRotatePair.Draws sampleRotateNet events ∧
      ∃ net ∈ states sampleRotatePair.step sampleRotateNet events,
        net.Settled ∧ ¬ sampleRotatePair.SameSession net := by
  intro events
  exact ⟨sampleRotateNet_shares, by decide, events.foldl sampleRotatePair.step sampleRotateNet,
    foldl_mem_states, by decide, by decide⟩

end Pbr
