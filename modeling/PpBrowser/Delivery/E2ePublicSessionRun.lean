import PpBrowser.Delivery.E2ePairEpoch
import PpBrowser.Delivery.E2eRelayPayloadCodec
import PpBrowser.Lib.OpenRace

/-!
# E2ePublicSessionRun — two devices writing each other

Each device opens the pair's session when it has none (`EnsureE2ePublicMasterPsk`),
attaches the key_init until it has heard the peer, and keeps what a message
it reads proves (`ReconcileE2ePublicSession`). What this does to the rows is
an `OpenRace`: every message can be read, and the pair ends on one session.
-/

namespace Pbr

open Lib E2eRelayPayloadCodec

/-! ## The run -/

/-- Two devices with a public session between them, at one epoch. -/
structure OpenPair (K : PayloadCrypto) where
  key : Side → PeerSessionKey
  isPublic : ∀ s, (key s).channel = .e2ePublic
  contact : Side → String
  kemPrivate : Side → ByteVector
  sessionEpoch : Nat
  sessionEpoch_ne : sessionEpoch ≠ 0

/-- A message as sent, what it says, and the key it was sealed under. -/
structure SentMessage where
  envelope : RelayEnvelope
  plaintext : ByteVector
  masterPsk : ByteVector
  deriving DecidableEq, Repr

/-- What a writer says, and what its calls are answered. -/
structure MessageDraft where
  messageId : String
  routeKind : String := "direct"
  senderSeq : Nat
  timestamp : Int
  plaintext : ByteVector
  peerKemPublic : Roe ByteVector
  encapsulateForRecipient : ByteVector → Roe AutoKeyEncapsulation
  nonce : ByteVector

/-- Both devices, what each has sent, and the places of the messages that
have reached each. -/
structure OpenNet where
  sessions : Side → PeerSessions
  sent : Side → List SentMessage
  arrived : Side → List Nat

inductive OpenNetEvent where
  | send (s : Side) (draft : MessageDraft)
  /-- The message at place `i` of those sent to `s`. -/
  | deliver (s : Side) (i : Nat)

namespace OpenNet

variable (net : OpenNet)

/-- Messages were in flight, and each has been delivered. -/
def AllDelivered : Prop :=
  (∃ s, net.sent s ≠ []) ∧ ∀ s, ∀ i < (net.sent s.other).length, i ∈ net.arrived s

/-- Each side has since written a message that has arrived. -/
def HeardSince (now : OpenNet) : Prop :=
  ∀ s, ∃ i ∈ now.arrived s, (net.sent s.other).length ≤ i

instance : Decidable net.AllDelivered :=
  inferInstanceAs (Decidable ((∃ s, net.sent s ≠ []) ∧
    ∀ s, ∀ i < (net.sent s.other).length, i ∈ net.arrived s))

instance (now : OpenNet) : Decidable (net.HeardSince now) :=
  inferInstanceAs (Decidable (∀ s, ∃ i ∈ now.arrived s, (net.sent s.other).length ≤ i))

end OpenNet

namespace OpenPair

variable {K : PayloadCrypto} (P : OpenPair K)

def encryptParams (s : Side) (draft : MessageDraft) : E2eEncryptParams :=
  { channel := .e2ePublic, peerContactId := P.contact s.other, senderContactId := P.contact s
    messageId := draft.messageId, senderSeq := draft.senderSeq, sessionEpoch := P.sessionEpoch
    timestamp := draft.timestamp }

def envelope (s : Side) (draft : MessageDraft) (encrypted : E2eEncryptResult) : RelayEnvelope :=
  { messageId := draft.messageId, senderContactId := P.contact s, routeKind := draft.routeKind
    routeChannel := .e2ePublic, payloadB64 := encrypted.payloadB64
    keyInitB64 := encrypted.keyInitB64, senderSeq := draft.senderSeq
    sessionEpoch := P.sessionEpoch, timestamp := draft.timestamp }

/-- The session a message of `s` is sealed under. -/
def ensure (s : Side) (store : PeerSessions) (draft : MessageDraft) :
    Roe (E2ePublicPskEnsureResult × PeerSessions) :=
  ensureE2ePublicMasterPsk K.toPairCrypto store (P.key s) P.sessionEpoch draft.peerKemPublic
    draft.encapsulateForRecipient

def encrypt (s : Side) (draft : MessageDraft) (ensured : E2ePublicPskEnsureResult) :
    Roe E2eEncryptResult :=
  encryptChatPayloadWithAutoKey K (P.encryptParams s draft) draft.plaintext ensured.masterPsk
    ensured.keyInitB64 (.ok draft.nonce)

def read (s : Side) (store : PeerSessions) (message : SentMessage) :
    Roe (ByteVector × AutoKeyRead) :=
  decryptEnvelopePlaintext K message.envelope (P.contact s) (P.key s) store (some (P.kemPrivate s))

/-- The sessions of `s` once it has got a message. -/
def receive (s : Side) (store : PeerSessions) (message : SentMessage) : PeerSessions :=
  match P.read s store message with
  | .ok (_, read) =>
    reconcileE2ePublicSession K.toPairCrypto store (P.key s) message.envelope.sessionEpoch read
      message.envelope.keyInitB64 message.envelope.timestamp
  | .error _ => store

def step (net : OpenNet) : OpenNetEvent → OpenNet
  | .send s draft =>
    match P.ensure s (net.sessions s) draft with
    | .error _ => net
    | .ok (ensured, sessions) =>
      let sent := match P.encrypt s draft ensured with
        | .ok encrypted => [{ envelope := P.envelope s draft encrypted
                              plaintext := draft.plaintext, masterPsk := ensured.masterPsk }]
        | .error _ => []
      { net with
        sessions := Function.update net.sessions s sessions
        sent := Function.update net.sent s (net.sent s ++ sent) }
  | .deliver s i =>
    match (net.sent s.other)[i]? with
    | none => net
    | some message =>
      { net with
        sessions := Function.update net.sessions s (P.receive s (net.sessions s) message)
        arrived := Function.update net.arrived s (i :: net.arrived s) }

/-! ## What the runs are -/

/-- A device's row for the pair. -/
def rowOf (s : Side) (store : PeerSessions) : PeerSessionRecord :=
  (store.load (P.key s)).getD { key := P.key s, sessionEpoch := P.sessionEpoch }

/-- A row with no session at the pair's epoch, current or retired. -/
structure Unopened (record : PeerSessionRecord) : Prop where
  psk : record.masterPskB64 = none
  pending : record.autoKeyInitPending = none
  heard : record.autoKeyPeerHeardMs = none
  retired : ∀ entry ∈ record.retiredPsks, entry.epoch ≠ P.sessionEpoch

/-- Neither device has a session yet, and nothing has been sent. -/
structure Starts (net : OpenNet) : Prop where
  unopened : ∀ s, P.Unopened (P.rowOf s (net.sessions s))
  sent : ∀ s, net.sent s = []
  arrived : ∀ s, net.arrived s = []

/-- The session id of the opener attached to a message. -/
def openerOf (K : PayloadCrypto) (message : SentMessage) : Option String :=
  (attached message.envelope.keyInitB64).map (autoKeySessionId K.toPairCrypto)

/-- What is drawn to open a session of `s`: the KEM gives the peer the same
key, and the session is not one the peer has opened. -/
structure Establishes (net : OpenNet) (s : Side) (established : AutoKeyEncapsulation) : Prop where
  size : established.masterPsk.length = kMasterPskSize
  keyInit_ne : established.keyInitB64 ≠ ""
  derives : K.deriveMasterPskFromKeyInit (P.kemPrivate s.other) established.keyInitB64 =
    .ok established.masterPsk
  distinct : ∀ message ∈ net.sent s.other, message.masterPsk ≠ established.masterPsk ∧
    openerOf K message ≠ some (autoKeySessionId K.toPairCrypto established.keyInitB64)

/-- A message that can be sent: sequenced as its route is, within the limit,
later than those before. -/
structure Sendable (net : OpenNet) (s : Side) (draft : MessageDraft) : Prop where
  sequenced : draft.senderSeq = 0 ↔ draft.routeKind = kRelayRouteControl
  limit : draft.plaintext.length ≤ kMaxE2ePlaintextBytes
  nonce : draft.nonce.length = kAeadNonceSize
  later : ∀ message ∈ net.sent s, message.envelope.timestamp < draft.timestamp
  establishes : (P.rowOf s (net.sessions s)).masterPskB64 = none →
    ∀ peerPublic ∈ draft.peerKemPublic.toOption,
      ∀ established ∈ (draft.encapsulateForRecipient peerPublic).toOption,
        P.Establishes net s established

def Proper (net : OpenNet) : OpenNetEvent → Prop
  | .send s draft => P.Sendable net s draft
  | .deliver .. => True

instance (net : OpenNet) (s : Side) (established : AutoKeyEncapsulation) :
    Decidable (P.Establishes net s established) :=
  decidable_of_iff
    (established.masterPsk.length = kMasterPskSize ∧ established.keyInitB64 ≠ "" ∧
      K.deriveMasterPskFromKeyInit (P.kemPrivate s.other) established.keyInitB64 =
        .ok established.masterPsk ∧
      ∀ message ∈ net.sent s.other, message.masterPsk ≠ established.masterPsk ∧
        openerOf K message ≠ some (autoKeySessionId K.toPairCrypto established.keyInitB64))
    ⟨fun ⟨h₁, h₂, h₃, h₄⟩ => ⟨h₁, h₂, h₃, h₄⟩, fun ⟨h₁, h₂, h₃, h₄⟩ => ⟨h₁, h₂, h₃, h₄⟩⟩

instance (net : OpenNet) (s : Side) (draft : MessageDraft) : Decidable (P.Sendable net s draft) :=
  decidable_of_iff
    ((draft.senderSeq = 0 ↔ draft.routeKind = kRelayRouteControl) ∧
      draft.plaintext.length ≤ kMaxE2ePlaintextBytes ∧ draft.nonce.length = kAeadNonceSize ∧
      (∀ message ∈ net.sent s, message.envelope.timestamp < draft.timestamp) ∧
      ((P.rowOf s (net.sessions s)).masterPskB64 = none →
        ∀ peerPublic ∈ draft.peerKemPublic.toOption,
          ∀ established ∈ (draft.encapsulateForRecipient peerPublic).toOption,
            P.Establishes net s established))
    ⟨fun ⟨h₁, h₂, h₃, h₄, h₅⟩ => ⟨h₁, h₂, h₃, h₄, h₅⟩,
      fun ⟨h₁, h₂, h₃, h₄, h₅⟩ => ⟨h₁, h₂, h₃, h₄, h₅⟩⟩

instance (net : OpenNet) : ∀ event, Decidable (P.Proper net event)
  | .send s draft => inferInstanceAs (Decidable (P.Sendable net s draft))
  | .deliver .. => inferInstanceAs (Decidable True)

def sessionOf (s : Side) (store : PeerSessions) : Option String × Option String :=
  ((P.rowOf s store).autoKeySessionId, (P.rowOf s store).masterPskB64)

/-- The message's opener is of a session its writer is not on. -/
def Left (net : OpenNet) (s : Side) (message : SentMessage) : Prop :=
  ∃ id, openerOf K message = some id ∧
    (P.rowOf s.other (net.sessions s.other)).autoKeySessionId ≠ some id

/-- The device has this session, with no opener pending. -/
def Settled (s : Side) (store : PeerSessions) (id psk : String) : Prop :=
  ∃ record, store.load (P.key s) = some record ∧ record.autoKeySessionId = some id ∧
    record.masterPskB64 = some psk ∧ record.autoKeyInitPending = none

/-! ## The race of a run -/

def rowSide (record : PeerSessionRecord) : OpenSide String String where
  session := match record.autoKeySessionId, record.masterPskB64 with
    | some id, some key => some { id, key }
    | _, _ => none
  pending := record.autoKeyInitPending.isSome
  heard := record.autoKeyPeerHeardMs

def letterOf (K : PayloadCrypto) (message : SentMessage) : Letter String String where
  key := K.base64Encode message.masterPsk
  opener := openerOf K message
  time := message.envelope.timestamp

def raceOf (net : OpenNet) : OpenRace String String where
  side s := rowSide (P.rowOf s (net.sessions s))
  sent s := (net.sent s).map (letterOf K)
  arrived := net.arrived

/-- What an event is in the race: a call that fails is none. -/
def raceEvent (net : OpenNet) : OpenNetEvent → OpenEvent String String
  | .send s draft =>
    match P.ensure s (net.sessions s) draft with
    | .ok (ensured, _) =>
      .send s ⟨autoKeySessionId K.toPairCrypto (ensured.keyInitB64.getD ""),
        K.base64Encode ensured.masterPsk⟩ draft.timestamp
    | .error _ => .idle
  | .deliver s i => .deliver s i

/-! ## What a run keeps -/

/-- A row with a session at the pair's epoch, whose opener, where it is
pending, gives the peer its key. -/
structure Opened (s : Side) (record : PeerSessionRecord) (masterPsk : ByteVector) (id : String) :
    Prop where
  epoch : record.sessionEpoch = P.sessionEpoch
  psk : record.masterPskB64 = some (K.base64Encode masterPsk)
  size : masterPsk.length = kMasterPskSize
  session : record.autoKeySessionId = some id
  pending : ∀ keyInit, record.autoKeyInitPending = some keyInit → keyInit ≠ "" ∧
    autoKeySessionId K.toPairCrypto keyInit = id ∧
      K.deriveMasterPskFromKeyInit (P.kemPrivate s.other) keyInit = .ok masterPsk

def SoundRow (s : Side) (record : PeerSessionRecord) : Prop :=
  P.Unopened record ∨ ∃ masterPsk id, P.Opened s record masterPsk id

/-- A message of `s`: sealed under its key for the peer, whom its key_init,
where it has one, gives that key. -/
structure SoundMessage (s : Side) (message : SentMessage) : Prop where
  epoch : message.envelope.sessionEpoch = P.sessionEpoch
  isPublic : message.envelope.routeChannel = .e2ePublic
  size : message.masterPsk.length = kMasterPskSize
  readable : ∃ aad, expectedReceiveAad message.envelope (P.contact s.other) = .ok aad ∧
    Sealed K message.envelope aad message.masterPsk message.plaintext
  opener : ∀ keyInit, attached message.envelope.keyInitB64 = some keyInit →
    K.deriveMasterPskFromKeyInit (P.kemPrivate s.other) keyInit = .ok message.masterPsk

structure Sound (net : OpenNet) : Prop where
  row : ∀ s, P.SoundRow s (P.rowOf s (net.sessions s))
  sent : ∀ s, ∀ message ∈ net.sent s, P.SoundMessage s message

/-! ## The session code on a row of the pair -/

section Row

variable {P} {s : Side} {store : PeerSessions} {record : PeerSessionRecord}
  {masterPsk plaintext : ByteVector} {id keyInit : String} {timestampMs : Int} {message : SentMessage}

@[simp] theorem rowOf_save (h : record.key = P.key s) : P.rowOf s (store.save record) = record := by
  simp [rowOf, PeerSessions.load_save_self h]

theorem Unopened.rowSide (h : P.Unopened record) : rowSide record = {} := by
  simp [OpenPair.rowSide, h.psk, h.pending, h.heard]

theorem Opened.session_rowSide (h : P.Opened s record masterPsk id) :
    (rowSide record).session = some ⟨id, K.base64Encode masterPsk⟩ := by
  simp [OpenPair.rowSide, h.psk, h.session]

theorem Opened.load (h : P.Opened s (P.rowOf s store) masterPsk id) :
    store.load (P.key s) = some (P.rowOf s store) := by
  cases hload : store.load (P.key s) with
  | none =>
    have := h.psk
    simp [rowOf, hload] at this
  | some record => simp [rowOf, hload]

theorem Unopened.resolve (h : P.Unopened (P.rowOf s store)) :
    store.resolveMasterPskForEpoch (P.key s) P.sessionEpoch = none := by
  cases hload : store.load (P.key s) with
  | none => simp [PeerSessions.resolveMasterPskForEpoch, hload]
  | some record =>
    obtain rfl : P.rowOf s store = record := by simp [rowOf, hload]
    have hnone : (P.rowOf s store).retiredPsks.find? (·.epoch = P.sessionEpoch) = none := by
      simpa using h.retired
    simp [PeerSessions.resolveMasterPskForEpoch, hload, PeerSessionRecord.resolveMasterPsk, h.psk,
      hnone]

theorem Opened.resolve (h : P.Opened s (P.rowOf s store) masterPsk id) :
    store.resolveMasterPskForEpoch (P.key s) P.sessionEpoch = some (K.base64Encode masterPsk) := by
  simp [PeerSessions.resolveMasterPskForEpoch, h.load, PeerSessionRecord.resolveMasterPsk, h.epoch,
    h.psk]

theorem noteHeard_getD : (record.noteHeard timestampMs).getD record =
      { record with autoKeyPeerHeardMs := laterOf record.autoKeyPeerHeardMs timestampMs } := by
  rcases record with ⟨_, _, _, _, _, _, _, _, _, _, _, _, _, _, heard, _⟩
  cases heard with
  | none => rfl
  | some heard => by_cases hlt : timestampMs > heard <;> simp [PeerSessionRecord.noteHeard, laterOf, hlt]

theorem confirmed_getD :
    (confirmed record timestampMs).getD record =
      { record with
        autoKeyInitPending := none
        autoKeyPeerHeardMs := laterOf record.autoKeyPeerHeardMs timestampMs } := by
  rcases record with ⟨_, _, _, _, _, _, _, _, _, _, _, _, _, pending, heard, _⟩
  cases heard with
  | none => cases pending <;> rfl
  | some heard =>
    by_cases hlt : timestampMs > heard <;> cases pending <;>
      simp [confirmed, PeerSessionRecord.noteHeard, laterOf, hlt]

theorem Opened.confirmed (h : P.Opened s record masterPsk id) :
    P.Opened s ((confirmed record timestampMs).getD record) masterPsk id ∧
      rowSide ((Pbr.confirmed record timestampMs).getD record) = (rowSide record).confirm timestampMs := by
  rw [confirmed_getD]
  exact ⟨⟨h.epoch, h.psk, h.size, h.session, by simp⟩, rfl⟩

theorem opened_follow (hsize : masterPsk.length = kMasterPskSize) :
    P.Opened s (record.follow K.toPairCrypto P.sessionEpoch masterPsk keyInit timestampMs) masterPsk
        (autoKeySessionId K.toPairCrypto keyInit) ∧
      rowSide (record.follow K.toPairCrypto P.sessionEpoch masterPsk keyInit timestampMs) =
        OpenSide.adopt ⟨autoKeySessionId K.toPairCrypto keyInit, K.base64Encode masterPsk⟩ timestampMs :=
  ⟨⟨rfl, rfl, hsize, rfl, by simp [PeerSessionRecord.follow]⟩, rfl⟩

/-- A message under another session than the one held, with its opener. -/
theorem Opened.followed {masterPsk' : ByteVector} {m : Letter String String}
    (h : P.Opened s record masterPsk id) (hsize : masterPsk'.length = kMasterPskSize)
    (hm : m = { key := K.base64Encode masterPsk'
                opener := some (autoKeySessionId K.toPairCrypto keyInit), time := timestampMs }) :
    (∃ masterPsk id, P.Opened s ((followed K.toPairCrypto record P.sessionEpoch masterPsk' keyInit
        timestampMs).getD record) masterPsk id) ∧
      rowSide ((Pbr.followed K.toPairCrypto record P.sessionEpoch masterPsk' keyInit timestampMs).getD
        record) = (rowSide record).follow ⟨id, K.base64Encode masterPsk⟩ m := by
  have hsome : record.masterPskB64.isSome := by simp [h.psk]
  simp only [Pbr.followed, OpenSide.follow, hm, hsome, true_and, h.session, Option.some.injEq]
  by_cases hid : id = autoKeySessionId K.toPairCrypto keyInit
  · -- already on it
    rw [if_pos hid, if_pos hid.symm, noteHeard_getD]
    exact ⟨⟨masterPsk, id, h.epoch, h.psk, h.size, h.session, h.pending⟩, rfl⟩
  rw [if_neg hid, if_neg (Ne.symm hid)]
  have hwins : record.winsTie (autoKeySessionId K.toPairCrypto keyInit) = true ↔
      (rowSide record).pending = true ∧ id < autoKeySessionId K.toPairCrypto keyInit := by
    simp [PeerSessionRecord.winsTie, h.session, rowSide]
  by_cases hw : record.winsTie (autoKeySessionId K.toPairCrypto keyInit) = true
  · rw [if_pos hw, if_pos (hwins.mp hw)]
    exact ⟨⟨masterPsk, id, h⟩, rfl⟩
  rw [if_neg hw, if_neg (mt hwins.mpr hw)]
  have hsince : record.heardSince timestampMs = true ↔ (rowSide record).HeardSince timestampMs := by
    cases hheard : record.autoKeyPeerHeardMs <;>
      simp [PeerSessionRecord.heardSince, OpenSide.HeardSince, rowSide, hheard]
  by_cases hs : record.heardSince timestampMs = true
  · rw [if_pos hs, if_pos (hsince.mp hs)]
    exact ⟨⟨masterPsk, id, h⟩, rfl⟩
  rw [if_neg hs, if_neg (mt hsince.mpr hs)]
  obtain ⟨hopened, hside⟩ := opened_follow (P := P) (s := s)
    hsize
  exact ⟨⟨_, _, hopened⟩, hside⟩

variable {read : AutoKeyRead}

theorem rowOf_reconcile {envelopeKeyInitB64 : Option String} :
    P.rowOf s (reconcileE2ePublicSession K.toPairCrypto store (P.key s) P.sessionEpoch read
        envelopeKeyInitB64 timestampMs) =
      (reconciledRow K.toPairCrypto store (P.key s) P.sessionEpoch read envelopeKeyInitB64
        timestampMs).getD (P.rowOf s store) := by
  rw [reconcileE2ePublicSession]
  cases hrow : reconciledRow K.toPairCrypto store (P.key s) P.sessionEpoch read envelopeKeyInitB64
      timestampMs with
  | none => rfl
  | some record => simp [rowOf_save (reconciledRow_cases hrow).1]

/-- At the epoch of the row, or without a key in it, only the way a message
was read counts. -/
theorem reconciledRow_of_sound (hrow : P.SoundRow s (P.rowOf s store)) {envelopeKeyInitB64 : Option String} :
    reconciledRow K.toPairCrypto store (P.key s) P.sessionEpoch read envelopeKeyInitB64 timestampMs =
      if ¬ read.viaKeyInit then confirmed (P.rowOf s store) timestampMs
      else (attached envelopeKeyInitB64).bind fun keyInit =>
        followed K.toPairCrypto (P.rowOf s store) P.sessionEpoch read.masterPsk keyInit timestampMs := by
  rcases hrow with hun | ⟨masterPsk, id, hop⟩
  · have hnone : (P.rowOf s store).masterPskB64 = none := hun.psk
    simp only [rowOf] at hnone ⊢
    simp [reconciledRow, hnone]
  · have hepoch : (P.rowOf s store).sessionEpoch = P.sessionEpoch := hop.epoch
    simp only [rowOf] at hepoch ⊢
    simp [reconciledRow, hepoch]

theorem storedMasterPsk_of_opened (hK : Lawful K) (hop : P.Opened s (P.rowOf s store) masterPsk id) :
    storedMasterPsk K (P.key s) store P.sessionEpoch = .ok (some masterPsk) := by
  simp [storedMasterPsk, hop.resolve, hK.base64, Functor.map, Except.map]

theorem receive_of_error {failure : String} (h : P.read s store message = .error failure) :
    P.receive s store message = store := by
  simp only [OpenPair.receive, h]

theorem rowOf_receive (hrow : P.SoundRow s (P.rowOf s store))
    (hepoch : message.envelope.sessionEpoch = P.sessionEpoch)
    (h : P.read s store message = .ok (plaintext, read)) : P.rowOf s (P.receive s store message) =
      (if ¬ read.viaKeyInit then confirmed (P.rowOf s store) message.envelope.timestamp
        else (attached message.envelope.keyInitB64).bind fun keyInit =>
          followed K.toPairCrypto (P.rowOf s store) P.sessionEpoch read.masterPsk keyInit
            message.envelope.timestamp).getD (P.rowOf s store) := by
  simp only [OpenPair.receive, h]
  rw [hepoch, rowOf_reconcile, reconciledRow_of_sound hrow]

theorem SoundMessage.read_held (hK : Lawful K) (hm : P.SoundMessage s.other message)
    (hop : P.Opened s (P.rowOf s store) message.masterPsk id) :
    P.read s store message = .ok (message.plaintext, { masterPsk := message.masterPsk }) := by
  obtain ⟨aad, haad, hsealed⟩ := hm.readable
  exact hsealed.read_stored (by simpa using haad)
    (by rw [hm.epoch]; exact storedMasterPsk_of_opened hK hop)

/-- A message under another session: read by its opener, or not at all. -/
theorem SoundMessage.read_other (hm : P.SoundMessage s.other message) {stored : Option ByteVector}
    (hstored : storedMasterPsk K (P.key s) store P.sessionEpoch = .ok stored)
    (hne : stored ≠ some message.masterPsk) :
    match attached message.envelope.keyInitB64 with
    | some _ => P.read s store message =
        .ok (message.plaintext, { masterPsk := message.masterPsk, viaKeyInit := true })
    | none => ∃ failure, P.read s store message = .error failure := by
  obtain ⟨aad, haad, hsealed⟩ := hm.readable
  have haad : expectedReceiveAad message.envelope (P.contact s) = .ok aad := by simpa using haad
  rw [← hm.epoch] at hstored
  cases hattached : attached message.envelope.keyInitB64 with
  | none => exact hsealed.read_none haad hm.isPublic hstored hne hattached
  | some keyInit =>
    have hderive := hm.opener keyInit hattached
    exact hsealed.read_keyInit haad hm.isPublic hstored hne hattached (by simpa using hderive)

/-- Where a device's row stands after a message, and what the message says. -/
theorem SoundMessage.receive (hK : Lawful K) (hrow : P.SoundRow s (P.rowOf s store))
    (hm : P.SoundMessage s.other message) : P.SoundRow s (P.rowOf s (P.receive s store message)) ∧
      rowSide (P.rowOf s (P.receive s store message)) = (rowSide (P.rowOf s store)).receive (letterOf K message) := by
  rcases id hrow with hun | ⟨masterPsk, id, hop⟩
  · -- nothing is held: the opener is followed
    have hread := @SoundMessage.read_other _ _ _ store _ hm none
      (by simp [storedMasterPsk, hun.resolve]) (by simp)
    cases hattached : attached message.envelope.keyInitB64 with
    | none =>
      rw [hattached] at hread
      obtain ⟨failure, hread⟩ := hread
      rw [receive_of_error hread]
      exact ⟨hrow, by simp [OpenSide.receive, hun.rowSide, letterOf, openerOf, hattached]⟩
    | some keyInit =>
      rw [hattached] at hread
      rw [rowOf_receive hrow hm.epoch hread]
      obtain ⟨hopened, hside⟩ := opened_follow (P := P) (s := s)
        hm.size
      simp only [hattached, Option.bind_some, followed, hun.psk]
      exact ⟨.inr ⟨_, _, hopened⟩, by
        simpa [OpenSide.receive, hun.rowSide, letterOf, openerOf, hattached] using hside⟩
  by_cases heq : message.masterPsk = masterPsk
  · -- under the session held
    subst heq
    rw [rowOf_receive hrow hm.epoch (hm.read_held hK hop)]
    obtain ⟨hopened, hside⟩ := hop.confirmed
    exact ⟨.inr ⟨_, _, hopened⟩, by
      simpa [OpenSide.receive, hop.session_rowSide, letterOf] using hside⟩
  · -- under another
    have hkey : (letterOf K message).key ≠ K.base64Encode masterPsk := mt hK.encode_inj.mp heq
    have hread := hm.read_other (storedMasterPsk_of_opened hK hop)
      (fun h => heq (Option.some.inj h).symm)
    have hreceive : (rowSide (P.rowOf s store)).receive (letterOf K message) =
        (rowSide (P.rowOf s store)).follow ⟨id, K.base64Encode masterPsk⟩
          (letterOf K message) := by
      simp [OpenSide.receive, hop.session_rowSide, hkey]
    cases hattached : attached message.envelope.keyInitB64 with
    | none =>
      rw [hattached] at hread
      obtain ⟨failure, hread⟩ := hread
      rw [receive_of_error hread, hreceive]
      exact ⟨hrow, by simp [OpenSide.follow, letterOf, openerOf, hattached]⟩
    | some keyInit =>
      rw [hattached] at hread
      rw [rowOf_receive hrow hm.epoch hread, hreceive]
      simp only [hattached, Option.bind_some]
      obtain ⟨hopened, hside⟩ := @Opened.followed _ _ _ _ _ _ keyInit message.envelope.timestamp _
        (letterOf K message) hop hm.size
        (by simp [letterOf, openerOf, hattached])
      exact ⟨.inr hopened, hside⟩

theorem ensure_of_opened (hK : Lawful K) (hop : P.Opened s (P.rowOf s store) masterPsk id)
    (draft : MessageDraft) : P.ensure s store draft =
      .ok ({ masterPsk, keyInitB64 := (P.rowOf s store).autoKeyInitPending }, store) := by
  have hpending : pendingKeyInit store (P.key s) P.sessionEpoch =
      (P.rowOf s store).autoKeyInitPending := by
    simp [pendingKeyInit, hop.load, hop.epoch]
  simp [ensure, ensureE2ePublicMasterPsk, P.isPublic, hop.resolve, hK.base64, hpending]

theorem ensure_of_unopened (hun : P.Unopened (P.rowOf s store)) {draft : MessageDraft}
    {ensured : E2ePublicPskEnsureResult} {after : PeerSessions}
    (h : P.ensure s store draft = .ok (ensured, after)) :
    ∃ peerPublic established, draft.peerKemPublic = .ok peerPublic ∧
      draft.encapsulateForRecipient peerPublic = .ok established ∧
        ensured = { masterPsk := established.masterPsk, keyInitB64 := some established.keyInitB64
                    created := true } ∧
          after = store.save (openedRow K.toPairCrypto store (P.key s) P.sessionEpoch established) := by
  simp only [ensure, ensureE2ePublicMasterPsk, P.isPublic, ne_eq, not_true, if_false,
    hun.resolve] at h
  obtain ⟨peerPublic, hpublic, h⟩ := roe_bind_ok.mp h
  by_cases hempty : peerPublic = []
  · simp [hempty] at h
  rw [if_neg hempty] at h
  obtain ⟨established, hest, h⟩ := roe_bind_ok.mp h
  obtain ⟨rfl, rfl⟩ := Prod.mk.inj (Except.ok.inj h)
  exact ⟨peerPublic, established, hpublic, hest, rfl, rfl⟩

theorem opened_openedRow {established : AutoKeyEncapsulation}
    (hsize : established.masterPsk.length = kMasterPskSize) (hne : established.keyInitB64 ≠ "")
    (hderives : K.deriveMasterPskFromKeyInit (P.kemPrivate s.other) established.keyInitB64 =
      .ok established.masterPsk) :
    P.Opened s (openedRow K.toPairCrypto store (P.key s) P.sessionEpoch established)
        established.masterPsk (autoKeySessionId K.toPairCrypto established.keyInitB64) ∧
      rowSide (openedRow K.toPairCrypto store (P.key s) P.sessionEpoch established) =
        { session := some ⟨autoKeySessionId K.toPairCrypto established.keyInitB64,
            K.base64Encode established.masterPsk⟩
          pending := true
          heard := (rowSide (P.rowOf s store)).heard } := by
  refine ⟨⟨rfl, rfl, hsize, rfl, ?_⟩, ?_⟩
  · intro keyInit hpending
    obtain rfl : established.keyInitB64 = keyInit := by simpa [openedRow] using hpending
    exact ⟨hne, rfl, hderives⟩
  · cases hload : store.load (P.key s) <;> simp [openedRow, rowSide, rowOf, hload]

theorem attached_of_ne (hne : keyInit ≠ "") : attached (some keyInit) = some keyInit := by
  simp [attached, hne]

/-- A message that can be sent is one its peer can read. -/
theorem encrypt_sound (hK : Lawful K) {net : OpenNet} {draft : MessageDraft}
    (hdraft : P.Sendable net s draft) {ensured : E2ePublicPskEnsureResult}
    (hsize : ensured.masterPsk.length = kMasterPskSize)
    (hopener : ∀ keyInit, attached ensured.keyInitB64 = some keyInit →
      K.deriveMasterPskFromKeyInit (P.kemPrivate s.other) keyInit = .ok ensured.masterPsk) :
    ∃ payloadB64, P.encrypt s draft ensured = .ok { payloadB64, keyInitB64 := ensured.keyInitB64 } ∧
      P.SoundMessage s
        { envelope := P.envelope s draft { payloadB64, keyInitB64 := ensured.keyInitB64 }
          plaintext := draft.plaintext, masterPsk := ensured.masterPsk } := by
  obtain ⟨payloadB64, hpayload, hsealed⟩ := @Lawful.encryptChatPayloadBytes _ (P.encryptParams s draft) _ _ _ hK
    hsize hdraft.limit hdraft.nonce
  refine ⟨payloadB64, ?_, rfl, rfl, hsize, ⟨aadFromEncryptParams (P.encryptParams s draft), ?_, ?_⟩,
    hopener⟩
  · simp [encrypt, encryptChatPayloadWithAutoKey, hpayload]
  · have hlane : ¬ (¬ (draft.senderSeq = 0 ↔ draft.routeKind = kRelayRouteControl) ∨
        P.sessionEpoch = 0) := by simp [hdraft.sequenced, P.sessionEpoch_ne]
    simp only [expectedReceiveAad, envelope]
    rw [if_neg hlane]
    rfl
  · exact hsealed _ rfl rfl

end Row

/-! ## One step of the run is one of the race -/

section Step

variable {P} {net : OpenNet} {s : Side} {event : OpenNetEvent} (hK : Lawful K)

theorem raceOf_side (store : PeerSessions) :
    (fun s' => rowSide (P.rowOf s' (Function.update net.sessions s store s'))) =
      Function.update (P.raceOf net).side s (rowSide (P.rowOf s store)) := by
  funext s'
  rcases s.eq_or_eq_other s' with rfl | rfl
  · simp
  · simp [raceOf]

theorem raceOf_sent (messages : List SentMessage) :
    (fun s' => (Function.update net.sent s messages s').map (letterOf K)) =
      Function.update (P.raceOf net).sent s (messages.map (letterOf K)) := by
  funext s'
  rcases s.eq_or_eq_other s' with rfl | rfl
  · simp
  · simp [raceOf]

theorem raceOf_update (store : PeerSessions) (messages : List SentMessage) (arrived : Side → List Nat) :
    P.raceOf { sessions := Function.update net.sessions s store
               sent := Function.update net.sent s messages, arrived } =
      { side := Function.update (P.raceOf net).side s (rowSide (P.rowOf s store))
        sent := Function.update (P.raceOf net).sent s (messages.map (letterOf K)), arrived } := by
  rw [← raceOf_side, ← raceOf_sent]
  rfl

theorem Sound.update (h : P.Sound net) {store : PeerSessions} (hrow : P.SoundRow s (P.rowOf s store))
    {messages : List SentMessage} (hsent : ∀ message ∈ messages, P.SoundMessage s message)
    (arrived : Side → List Nat) :
    P.Sound { sessions := Function.update net.sessions s store
              sent := Function.update net.sent s messages, arrived } where
  row s' := by
    rcases s.eq_or_eq_other s' with rfl | rfl
    · simpa using hrow
    · simpa using h.row s.other
  sent s' := by
    rcases s.eq_or_eq_other s' with rfl | rfl
    · simpa using hsent
    · simpa using h.sent s.other

/-- What a step keeps, and what it is in the race. -/
def Simulates (P : OpenPair K) (net : OpenNet) (event : OpenNetEvent) : Prop :=
  P.Sound (P.step net event) ∧
    P.raceOf (P.step net event) = (P.raceOf net).step (P.raceEvent net event) ∧
      (P.raceOf net).Proper (P.raceEvent net event)

include hK in
theorem Sound.deliver (h : P.Sound net) {i : Nat} : P.Simulates net (.deliver s i) := by
  have hget : ((P.raceOf net).sent s.other)[i]? = ((net.sent s.other)[i]?).map (letterOf K) := by
    simp [raceOf]
  cases hi : (net.sent s.other)[i]? with
  | none => exact ⟨by simpa [step, hi] using h, by simp [step, raceEvent, OpenRace.step, hget, hi],
      trivial⟩
  | some message =>
    have hm : P.SoundMessage s.other message := h.sent _ _ (List.mem_of_getElem? hi)
    obtain ⟨hrow, hside⟩ := hm.receive hK (h.row s)
    refine ⟨?_, ?_, trivial⟩
    · have hsame := h.update hrow (h.sent s) (Function.update net.arrived s (i :: net.arrived s))
      simpa [step, hi] using hsame
    · simp only [step, hi, raceEvent, OpenRace.step, hget, Option.map_some]
      rw [show (P.raceOf net).side s = rowSide (P.rowOf s (net.sessions s)) from rfl, ← hside,
        ← raceOf_side]
      rfl

include hK in
theorem Sound.sendHeld (h : P.Sound net) {draft : MessageDraft} (hdraft : P.Sendable net s draft)
    {masterPsk : ByteVector} {id : String}
    (hop : P.Opened s (P.rowOf s (net.sessions s)) masterPsk id) :
    P.Simulates net (.send s draft) := by
  have hensure := ensure_of_opened hK hop draft
  obtain ⟨payloadB64, hencrypt, hsound⟩ := @encrypt_sound _ _ _ hK _ _ hdraft
    { masterPsk, keyInitB64 := (P.rowOf s (net.sessions s)).autoKeyInitPending } hop.size
    (by
      intro keyInit hattached
      cases hpending : (P.rowOf s (net.sessions s)).autoKeyInitPending with
      | none => simp [hpending, attached] at hattached
      | some pending =>
        obtain ⟨hne, -, hderives⟩ := hop.pending pending hpending
        obtain rfl : pending = keyInit := by
          simpa [hpending, attached_of_ne hne] using hattached
        exact hderives)
  have hletter : ((rowSide (P.rowOf s (net.sessions s))).letter draft.timestamp).toList =
      [letterOf K
        { envelope := P.envelope s draft
            { payloadB64, keyInitB64 := (P.rowOf s (net.sessions s)).autoKeyInitPending }
          plaintext := draft.plaintext, masterPsk }] := by
    have hpend : (rowSide (P.rowOf s (net.sessions s))).pending =
        (P.rowOf s (net.sessions s)).autoKeyInitPending.isSome := rfl
    cases hpending : (P.rowOf s (net.sessions s)).autoKeyInitPending with
    | none =>
      simp [OpenSide.letter, hop.session_rowSide, letterOf, openerOf, envelope, attached, hpend,
        hpending]
    | some pending =>
      obtain ⟨hne, hid, -⟩ := hop.pending pending hpending
      simp [OpenSide.letter, hop.session_rowSide, letterOf, openerOf, envelope, attached_of_ne hne,
        hid, hpend, hpending]
  refine ⟨?_, ?_, ?_⟩
  · simp only [step, hensure, hencrypt]
    refine h.update (h.row s) ?_ net.arrived
    intro message hmem
    rcases List.mem_append.mp hmem with hmem | hmem
    · exact h.sent s message hmem
    · exact List.mem_singleton.mp hmem ▸ hsound
  · simp only [step, hensure, hencrypt, raceEvent, OpenRace.step, OpenSide.opened]
    rw [show (P.raceOf net).side s = rowSide (P.rowOf s (net.sessions s)) from rfl]
    simp only [hop.session_rowSide, hletter]
    rw [raceOf_update, List.map_append]
    rfl
  · simp only [raceEvent, hensure]
    refine ⟨?_, ?_⟩
    · intro m hm
      obtain ⟨message, hmem, rfl⟩ := List.mem_map.mp hm
      exact hdraft.later message hmem
    · intro hnone
      rw [show (P.raceOf net).side s = rowSide (P.rowOf s (net.sessions s)) from rfl,
        hop.session_rowSide] at hnone
      simp at hnone

include hK in
theorem Sound.sendOpens (h : P.Sound net) {draft : MessageDraft} (hdraft : P.Sendable net s draft)
    (hun : P.Unopened (P.rowOf s (net.sessions s))) : P.Simulates net (.send s draft) := by
  cases hensure : P.ensure s (net.sessions s) draft with
  | error failure =>
    exact ⟨by simpa [step, hensure] using h, by simp [step, raceEvent, hensure, OpenRace.step],
      by simp [raceEvent, hensure, OpenRace.Proper]⟩
  | ok result =>
    obtain ⟨ensured, after⟩ := result
    obtain ⟨peerPublic, established, hpublic, hest, rfl, rfl⟩ := ensure_of_unopened hun hensure
    have hfresh := hdraft.establishes hun.psk peerPublic (by simp [hpublic, Except.toOption])
      established (by simp [hest, Except.toOption])
    obtain ⟨hopened, hside⟩ := opened_openedRow hfresh.size
      hfresh.keyInit_ne hfresh.derives
    obtain ⟨payloadB64, hencrypt, hsound⟩ := @encrypt_sound _ _ _ hK _ _ hdraft
      { masterPsk := established.masterPsk, keyInitB64 := some established.keyInitB64
        created := true } hfresh.size
      (by
        intro keyInit hattached
        obtain rfl : established.keyInitB64 = keyInit := by
          simpa [attached_of_ne hfresh.keyInit_ne] using hattached
        exact hfresh.derives)
    have hrow : P.rowOf s ((net.sessions s).save (openedRow K.toPairCrypto (net.sessions s) (P.key s)
        P.sessionEpoch established)) =
          openedRow K.toPairCrypto (net.sessions s) (P.key s) P.sessionEpoch established :=
      rowOf_save rfl
    refine ⟨?_, ?_, ?_⟩
    · simp only [step, hensure, hencrypt]
      refine h.update (by rw [hrow]; exact .inr ⟨_, _, hopened⟩) ?_ net.arrived
      intro message hmem
      rcases List.mem_append.mp hmem with hmem | hmem
      · exact h.sent s message hmem
      · exact List.mem_singleton.mp hmem ▸ hsound
    · simp only [step, hensure, hencrypt, raceEvent, OpenRace.step, OpenSide.opened]
      rw [show (P.raceOf net).side s = rowSide (P.rowOf s (net.sessions s)) from rfl]
      rw [raceOf_update, hrow, hside, List.map_append]
      simp [hun.rowSide, OpenSide.letter, letterOf, openerOf, envelope,
        attached_of_ne hfresh.keyInit_ne, raceOf]
    · simp only [raceEvent, hensure]
      refine ⟨?_, ?_⟩
      · intro m hm
        obtain ⟨message, hmem, rfl⟩ := List.mem_map.mp hm
        exact hdraft.later message hmem
      · intro _ m hm
        obtain ⟨message, hmem, rfl⟩ := List.mem_map.mp hm
        obtain ⟨hkey, hid⟩ := hfresh.distinct message hmem
        exact ⟨mt hK.encode_inj.mp hkey, hid⟩

include hK in
theorem Sound.step (h : P.Sound net) (hp : P.Proper net event) : P.Simulates net event := by
  cases event with
  | send s draft =>
    rcases h.row s with hun | ⟨masterPsk, id, hop⟩
    · exact h.sendOpens hK hp hun
    · exact h.sendHeld hK hp hop
  | deliver s i => exact h.deliver hK

end Step

/-! ## Runs -/

section Run

variable {P} {net : OpenNet} {events later : List OpenNetEvent} (hK : Lawful K)

/-- A net whose race is as it should be. -/
def Running (P : OpenPair K) (net : OpenNet) : Prop := P.Sound net ∧ (P.raceOf net).Inv

theorem Starts.running (h : P.Starts net) : P.Running net := by
  refine ⟨⟨fun s => .inl (h.unopened s), fun s message hm => by simp [h.sent s] at hm⟩,
    OpenRace.inv_start ?_ ?_ h.arrived⟩
  · intro s
    simp [raceOf, (h.unopened s).rowSide]
  · intro s
    simp [raceOf, h.sent s]

include hK in
theorem Running.step (h : P.Running net) {event : OpenNetEvent} (hp : P.Proper net event) :
    P.Running (P.step net event) := by
  obtain ⟨hsound, hrace, hproper⟩ := h.1.step hK hp
  exact ⟨hsound, hrace ▸ h.2.step hproper⟩

variable {c : Opening String String} {s : Side} {store : PeerSessions}

theorem Opened.sessionOf {masterPsk : ByteVector} {id : String} (h : P.Opened s (P.rowOf s store) masterPsk id)
    (hc : (rowSide (P.rowOf s store)).session = some c) : P.sessionOf s store = (some c.id, some c.key) := by
  obtain rfl : ⟨id, K.base64Encode masterPsk⟩ = c := by simpa [h.session_rowSide] using hc
  simp [OpenPair.sessionOf, h.session, h.psk]

theorem SoundRow.sessionOf (h : P.SoundRow s (P.rowOf s store))
    (hc : (rowSide (P.rowOf s store)).session = some c) : P.sessionOf s store = (some c.id, some c.key) := by
  rcases h with hun | ⟨masterPsk, id, hop⟩
  · simp [hun.rowSide] at hc
  · exact hop.sessionOf hc

include hK in
/-- Every message sent can be read, whenever it comes. -/
theorem Running.reads (h : P.Running net) {message : SentMessage} (hmem : message ∈ net.sent s.other) :
    ∃ read, P.read s (net.sessions s) message = .ok (message.plaintext, read) := by
  have hm : P.SoundMessage s.other message := h.1.sent _ _ hmem
  have hreads : (rowSide (P.rowOf s (net.sessions s))).Reads (letterOf K message) :=
    h.2.reads (List.mem_map_of_mem hmem)
  have hother : ∀ stored, storedMasterPsk K (P.key s) (net.sessions s) P.sessionEpoch = .ok stored →
      stored ≠ some message.masterPsk → (letterOf K message).opener ≠ none →
        ∃ read, P.read s (net.sessions s) message = .ok (message.plaintext, read) := by
    intro stored hstored hne hopener
    have hread := hm.read_other hstored hne
    cases hattached : attached message.envelope.keyInitB64 with
    | none => simp [letterOf, openerOf, hattached] at hopener
    | some keyInit => exact ⟨_, by simpa [hattached] using hread⟩
  rcases h.1.row s with hun | ⟨masterPsk, id, hop⟩
  · have hopener : (letterOf K message).opener ≠ none := by
      rcases hreads with ⟨c, hc, -⟩ | hopener
      · simp [hun.rowSide] at hc
      · exact hopener
    exact hother none (by simp [storedMasterPsk, hun.resolve]) (by simp) hopener
  · by_cases heq : message.masterPsk = masterPsk
    · exact ⟨_, hm.read_held hK (heq ▸ hop)⟩
    · have hopener : (letterOf K message).opener ≠ none := by
        rcases hreads with ⟨c, hc, hkey⟩ | hopener
        · obtain rfl : ⟨id, K.base64Encode masterPsk⟩ = c := by simpa [hop.session_rowSide] using hc
          exact absurd (hK.encode_inj.mp hkey) heq
        · exact hopener
      exact hother _ (storedMasterPsk_of_opened hK hop) (fun h => heq (Option.some.inj h).symm) hopener

include hK in
/-- An opener of a session its writer is not on does not move the reader. -/
theorem Running.left (h : P.Running net) {message : SentMessage}
    (hmem : message ∈ net.sent s.other) (hleft : P.Left net s message) :
    P.sessionOf s (P.receive s (net.sessions s) message) = P.sessionOf s (net.sessions s) := by
  obtain ⟨id, hid, hne⟩ := hleft
  have hm : P.SoundMessage s.other message := h.1.sent _ _ hmem
  obtain ⟨hrow, hside⟩ := hm.receive hK (h.1.row s)
  have hwriter : ∀ c, ((P.raceOf net).side s.other).session = some c → c.id ≠ id := by
    intro c hc heq
    have hsession := (h.1.row s.other).sessionOf (c := c) hc
    exact hne (by simpa [OpenPair.sessionOf, heq] using congrArg Prod.fst hsession)
  obtain ⟨c, hc, hafter⟩ :=
    h.2.receive_left (s := s) (m := letterOf K message) (List.mem_map_of_mem hmem) hid hwriter
  rw [(h.1.row s).sessionOf (c := c) hc]
  exact hrow.sessionOf (by rw [hside]; exact hafter)

theorem SoundRow.settled (h : P.SoundRow s (P.rowOf s store)) (hc : (rowSide (P.rowOf s store)).session = some c)
    (hp : (rowSide (P.rowOf s store)).pending = false) : P.Settled s store c.id c.key := by
  rcases h with hun | ⟨masterPsk, id, hop⟩
  · simp [hun.rowSide] at hc
  · obtain ⟨hid, hkey⟩ := Prod.mk.inj (hop.sessionOf hc)
    exact ⟨P.rowOf s store, hop.load, hid, hkey, by simpa [rowSide] using hp⟩

include hK in
/-- From a quiet moment on, the pair stays on one session. -/
theorem Running.settles (h : P.Running net) (hall : net.AllDelivered)
    (hlater : Admits P.step P.Proper net later) (hheard : net.HeardSince (later.foldl P.step net)) :
    ∃ id psk, ∀ s, P.Settled s ((later.foldl P.step net).sessions s) id psk := by
  obtain ⟨⟨s₀, hsome⟩, harrived⟩ := hall
  obtain ⟨c, hc⟩ := h.2.agree
    (by
      intro s i hi
      exact harrived s i (by simpa [raceOf] using hi))
    ⟨s₀, by simpa [raceOf] using hsome⟩
  have hkeep : ∀ now event,
      P.Sound now ∧ OpenRace.Since c (fun s => ((P.raceOf net).sent s).length) (P.raceOf now) →
      P.Proper now event → P.Sound (P.step now event) ∧
        OpenRace.Since c (fun s => ((P.raceOf net).sent s).length) (P.raceOf (P.step now event)) := by
    intro now event hnow hp
    obtain ⟨hsound, hrace, hproper⟩ := hnow.1.step hK hp
    exact ⟨hsound, hrace ▸ hnow.2.step hproper⟩
  obtain ⟨hsound, hsince⟩ := Admits.invariant hkeep ⟨h.1, h.2.since hc⟩ hlater _ foldl_mem_states
  refine ⟨c.id, c.key, fun s => ?_⟩
  obtain ⟨i, hi, hle⟩ := hheard s
  exact (hsound.row s).settled (hsince.session s)
    (hsince.settled s i hi (by simpa [raceOf] using hle))

end Run

end OpenPair

/-- Two devices that open a session, perhaps both at once, and write each
other in any order end on one session; no message is ever unreadable, and an
opener of a session the peer has left moves nobody back. -/
theorem public_openers_settle {K : PayloadCrypto} (hK : Lawful K) (P : OpenPair K) (start : OpenNet)
    (hstart : P.Starts start) :
    (∀ events, Admits P.step P.Proper start events → ∀ net ∈ states P.step start events,
      ∀ s, ∀ message ∈ net.sent s.other,
        (∃ read, P.read s (net.sessions s) message = .ok (message.plaintext, read)) ∧
          (P.Left net s message → P.sessionOf s (P.receive s (net.sessions s) message) =
            P.sessionOf s (net.sessions s))) ∧
      ∀ events later, Admits P.step P.Proper start (events ++ later) →
        (events.foldl P.step start).AllDelivered →
        (events.foldl P.step start).HeardSince ((events ++ later).foldl P.step start) →
          ∃ id psk, ∀ s,
            P.Settled s (((events ++ later).foldl P.step start).sessions s) id psk := by
  have hkeep : ∀ net event, P.Running net → P.Proper net event → P.Running (P.step net event) :=
    fun net event h hp => h.step hK hp
  constructor
  · intro events hevents net hnet s message hmem
    have hrun : P.Running net := Admits.invariant hkeep hstart.running hevents net hnet
    exact ⟨hrun.reads hK hmem, hrun.left hK hmem⟩
  · intro events later hevents hall hheard
    obtain ⟨hevents, hlater⟩ := admits_append.mp hevents
    have hrun : P.Running (events.foldl P.step start) :=
      Admits.invariant hkeep hstart.running hevents _ foldl_mem_states
    rw [List.foldl_append] at hheard ⊢
    exact hrun.settles hK hall hlater hheard

/-! ## Two openers crossing -/

/-- Primitives to run the code on examples: base64 and the hash leave bytes
as they are, a key_init is its own key, filled up, and what is sealed stands
after the key it is sealed under. -/
def samplePayloadCrypto : PayloadCrypto where
  base64Encode bytes := String.ofList (bytes.map fun b => Char.ofNat b.toNat)
  base64Decode text := .ok (text.toList.map fun c => UInt8.ofNat c.toNat)
  genericHash bytes := bytes
  bytesToHex bytes := String.ofList (bytes.map fun b => Char.ofNat b.toNat)
  deriveMasterPskFromKeyInit _ keyInit := .ok ((stringBytes keyInit ++ List.replicate 32 0).take 32)
  hkdf masterPsk _ := .ok masterPsk
  buildAad _ := []
  encrypt sessionKey plaintext _ nonce :=
    if sessionKey.length = kSessionKeySize then .ok ⟨nonce, sessionKey ++ plaintext⟩
    else .error "Invalid key size"
  decrypt sessionKey blob _ :=
    if sessionKey.length = kSessionKeySize ∧ blob.ciphertext.take kSessionKeySize = sessionKey then
      .ok (blob.ciphertext.drop kSessionKeySize)
    else .error "Decryption failed"

theorem samplePayloadCrypto_lawful : Lawful samplePayloadCrypto where
  base64 bytes := by
    simp [samplePayloadCrypto, Function.comp_def, ofNat_charOfNat]
  base64_ne bytes hne := by
    simpa [samplePayloadCrypto] using hne
  hkdf masterPsk _ hsize := ⟨masterPsk, rfl, hsize⟩
  apart masterPsk masterPsk' _ sessionKey _ _ h h' := (Except.ok.inj h').trans (Except.ok.inj h).symm
  encrypt sessionKey plaintext aad nonce hsize _ := by
    refine ⟨⟨nonce, sessionKey ++ plaintext⟩, by simp [samplePayloadCrypto, hsize], rfl, ?_, ?_⟩
    · simp only [List.length_append, hsize, kSessionKeySize, kAeadTagSize]
      omega
    · have htake : (sessionKey ++ plaintext).take kSessionKeySize = sessionKey := by
        rw [← hsize, List.take_left]
      have hdrop : (sessionKey ++ plaintext).drop kSessionKeySize = plaintext := by
        rw [← hsize, List.drop_left]
      simp only [samplePayloadCrypto, hsize, htake, hdrop, and_self, if_true]
  authentic sessionKey sessionKey' plaintext plaintext' aad aad' nonce blob h h' := by
    by_cases hsize : sessionKey.length = kSessionKeySize
    · obtain rfl : ⟨nonce, sessionKey ++ plaintext⟩ = blob := by simpa [samplePayloadCrypto, hsize] using h
      by_cases hopens : sessionKey'.length = kSessionKeySize ∧
          (sessionKey ++ plaintext).take kSessionKeySize = sessionKey'
      · simpa [← hsize] using hopens.2.symm
      · simp only [samplePayloadCrypto, if_neg hopens] at h'
        cases h'
    · simp [samplePayloadCrypto, hsize] at h

def sampleOpenPair : OpenPair samplePayloadCrypto where
  key
    | .left => { peerIdentityKind := "account", peerIdentityValue := "account:bob", channel := .e2ePublic }
    | .right => { peerIdentityKind := "account", peerIdentityValue := "account:alice", channel := .e2ePublic }
  isPublic s := by cases s <;> rfl
  contact
    | .left => "account:alice"
    | .right => "account:bob"
  kemPrivate _ := []
  sessionEpoch := 1
  sessionEpoch_ne := by decide

def sampleOpenNet : OpenNet where
  sessions _ := .empty
  sent _ := []
  arrived _ := []

/-- A message that opens the session `keyInit` where there is none. -/
def sampleWrite (s : Side) (keyInit : String) (seq : Nat) : OpenNetEvent :=
  .send s
    { messageId := "m", senderSeq := seq, timestamp := seq, plaintext := [7], peerKemPublic := .ok [1]
      encapsulateForRecipient := fun _ =>
        .ok ⟨(stringBytes keyInit ++ List.replicate 32 0).take 32, keyInit⟩
      nonce := List.replicate 24 0 }

set_option maxRecDepth 20000 in
/-- Both open at once; each message arrives; each writes again. -/
theorem public_openers_settle_sample :
    let events := [sampleWrite .left "a" 1, sampleWrite .right "b" 1, .deliver .left 0, .deliver .right 0]
    let later := [sampleWrite .left "c" 2, sampleWrite .right "d" 2, .deliver .left 1, .deliver .right 1,
      .deliver .left 0]
    ∃ id psk, ∀ s, sampleOpenPair.Settled s
      (((events ++ later).foldl sampleOpenPair.step sampleOpenNet).sessions s) id psk :=
  (public_openers_settle samplePayloadCrypto_lawful sampleOpenPair sampleOpenNet
    ⟨fun s => by cases s <;> exact ⟨rfl, rfl, rfl, by simp [OpenPair.rowOf, sampleOpenNet]⟩,
      fun _ => rfl, fun _ => rfl⟩).2 _ _ (by decide) (by decide) (by decide)

end Pbr
