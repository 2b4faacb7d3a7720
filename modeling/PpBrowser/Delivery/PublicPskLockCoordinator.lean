import PpBrowser.Base.CryptoConstants
import PpBrowser.Delivery.E2ePublicSessionLogic

/-!
# PublicPskLockCoordinator — rotating a public chat's key

`PublicPskLockCoordinator.cpp` and `PskRotateCodec.cpp` (E027): one side of a
public 1:1 chat prepares a rotation, sends it and commits, or aborts; the
other applies what it hears. A `psk_rotate` message is the detail its JSON
reads back as.
-/

namespace Pbr

/-! ## The control message -/

def kPskRotateWrapAccountKem : String := "account_kem"

def kPskRotateWrapThreadKem : String := "thread_kem"

structure PskRotateDetail where
  rotationId : String := ""
  newEpoch : Nat := 0
  wrapKind : String := ""
  threadKemPkB64 : String := ""
  keyInitHash : String := ""
  deriving DecidableEq, Repr

namespace PskRotateCodec

def validate (detail : PskRotateDetail) : Roe Unit :=
  if detail.rotationId = "" then .error "psk_rotate missing rotation_id"
  else if detail.newEpoch < 2 then .error "psk_rotate new_epoch must be >= 2"
  else if detail.wrapKind ≠ kPskRotateWrapAccountKem ∧ detail.wrapKind ≠ kPskRotateWrapThreadKem then
    .error "psk_rotate wrap_kind must be account_kem or thread_kem"
  else if detail.threadKemPkB64 = "" then .error "psk_rotate missing thread_kem_pk_b64"
  else if detail.keyInitHash.utf8ByteSize ≠ 64 then .error "psk_rotate key_init_hash must be 32-byte hex"
  else .ok ()

/-- Of two concurrent rotations the greater id wins. -/
def rotationIdWins (left right : String) : Bool := right < left

end PskRotateCodec

/-- A `psk_rotate` message: its envelope's key_init and sender, and the
detail. -/
structure PskRotateMessage where
  keyInitB64 : Option String
  senderContactId : String
  detail : PskRotateDetail
  deriving DecidableEq, Repr

/-- `AutoKeyEstablishment::HashKeyInitB64`. -/
def hashKeyInitB64 (C : PairCrypto) (keyInitB64 : String) : Roe String := do
  let raw ← C.base64Decode keyInitB64
  if raw = [] then throw "Empty key_init"
  return C.bytesToHex (C.genericHash raw)

/-! ## The coordinator -/

inductive ThreadKind where
  | direct | group
  deriving DecidableEq, Repr

/-- What the coordinator reads of a thread. -/
structure Thread where
  kind : ThreadKind
  channel : CryptoChannel
  peerIdentityKind : String
  peerIdentityValue : String
  deriving DecidableEq, Repr

/-- `E2eRelayPayloadCodec::ChatTargetFromThread`. -/
def chatTargetFromThread (thread : Thread) : PeerSessionKey :=
  { peerIdentityKind := thread.peerIdentityKind, peerIdentityValue := thread.peerIdentityValue
    channel := thread.channel }

inductive PublicPskRotateKind where
  | lock | auto
  deriving DecidableEq, Repr

structure PublicPskRotatePlan where
  key : PeerSessionKey
  oldEpoch : Nat := 1
  oldMasterPsk : ByteVector
  newMasterPsk : ByteVector
  keyInitB64 : String
  detail : PskRotateDetail
  nextScope : PublicKeyScope := .deviceSelf
  kind : PublicPskRotateKind := .lock
  deriving DecidableEq, Repr

structure KemKeyPair where
  publicKey : ByteVector
  privateKey : ByteVector

/-- A text field that is there and not empty. -/
def present (field : Option String) : Bool := field.any (· ≠ "")

namespace PublicPskLockCoordinator

variable (C : PairCrypto)

def targetKeyForPublicThread : Option Thread → Roe PeerSessionKey
  | none => .error "Thread not found"
  | some thread =>
    if thread.kind ≠ .direct ∨ thread.channel ≠ .e2ePublic then
      .error "Device-lock applies to public 1:1 chats only"
    else .ok (chatTargetFromThread thread)

/-- The row and its current key. -/
def loadRequired (store : PeerSessions) (key : PeerSessionKey) : Roe (PeerSessionRecord × String) :=
  match store.load key with
  | none => .error "Public chat has no encryption key yet"
  | some record =>
    match record.masterPskB64 with
    | none => .error "Public chat has no encryption key yet"
    | some masterPskB64 => .ok (record, masterPskB64)

/-- The row with a conversation key pair: its own, or one drawn now. -/
def ensureConversationKem (record : PeerSessionRecord) (generated : Roe KemKeyPair) :
    Roe PeerSessionRecord :=
  if present record.threadKemPkB64 ∧ present record.threadKemSkB64 then .ok record
  else do
    let pair ← generated
    return { record with
      threadKemPkB64 := some (C.base64Encode pair.publicKey)
      threadKemSkB64 := some (C.base64Encode pair.privateKey) }

/-- The checks on a row's scope. -/
def mayRotate (kind : PublicPskRotateKind) (scope : PublicKeyScope) : Roe Unit :=
  if scope = .lockedOut then .error "This chat continues on another device"
  else if kind = .lock ∧ scope ≠ .account then .error "This chat is already only on this device"
  else if kind = .auto ∧ scope ≠ .devicePair then
    .error "Auto-rekey requires both sides on this-device mode"
  else .ok ()

/-- The key the new session is wrapped to, and its kind. -/
def wrapKey (record : PeerSessionRecord) (kind : PublicPskRotateKind)
    (peerAccountKemPk : ByteVector) : Roe (ByteVector × String) :=
  match record.peerThreadKemPkB64 with
  | some peerPk =>
    if peerPk ≠ "" then do
      let wrapPk ← C.base64Decode peerPk
      return (wrapPk, kPskRotateWrapThreadKem)
    else accountKey
  | none => accountKey
where
  accountKey : Roe (ByteVector × String) :=
    if kind = .auto then .error "Auto-rekey needs the peer conversation key"
    else if peerAccountKemPk.length ≠ kHybridKemPublicKeyBytes then
      .error "Invalid peer account KEM public key"
    else .ok (peerAccountKemPk, kPskRotateWrapAccountKem)

/-- Where the key is held once the rotation is committed. -/
def nextScope (record : PeerSessionRecord) (kind : PublicPskRotateKind) : PublicKeyScope :=
  if kind = .auto ∨ present record.peerThreadKemPkB64 then .devicePair else .deviceSelf

/-- `PrepareRotate` on the row. `encapsulateForRecipient`, `generated` and
`rotationId` are what this call draws. -/
def prepareRow (record : PeerSessionRecord) (masterPskB64 : String) (kind : PublicPskRotateKind)
    (peerAccountKemPk : ByteVector) (generated : Roe KemKeyPair)
    (encapsulateForRecipient : ByteVector → Roe AutoKeyEncapsulation) (rotationId : String) :
    Roe (PublicPskRotatePlan × PeerSessionRecord) := do
  mayRotate kind record.keyScope
  let record ← ensureConversationKem C record generated
  let (wrapPk, wrapKind) ← wrapKey C record kind peerAccountKemPk
  let oldMasterPsk ← C.base64Decode masterPskB64
  let established ← encapsulateForRecipient wrapPk
  let keyInitHash ← hashKeyInitB64 C established.keyInitB64
  let plan : PublicPskRotatePlan :=
    { key := record.key
      oldEpoch := record.sessionEpoch
      oldMasterPsk
      newMasterPsk := established.masterPsk
      keyInitB64 := established.keyInitB64
      detail :=
        { rotationId
          newEpoch := u32 (record.sessionEpoch + 1)
          wrapKind
          threadKemPkB64 := record.threadKemPkB64.getD ""
          keyInitHash }
      kind
      nextScope := nextScope record kind }
  return (plan, { record with lastRotationId := some rotationId })

def prepareRotate (store : PeerSessions) (thread : Option Thread) (kind : PublicPskRotateKind)
    (peerAccountKemPk : ByteVector) (generated : Roe KemKeyPair)
    (encapsulateForRecipient : ByteVector → Roe AutoKeyEncapsulation) (rotationId : String) :
    Roe (PublicPskRotatePlan × PeerSessions) := do
  let key ← targetKeyForPublicThread thread
  let (record, masterPskB64) ← loadRequired store key
  let (plan, saved) ← prepareRow C record masterPskB64 kind peerAccountKemPk generated
    encapsulateForRecipient rotationId
  return (plan, store.save saved)

/-- The row in the rotation's session, the one before retired. -/
def rotatedRow (record : PeerSessionRecord) (oldEpoch : Nat) (oldMasterPskB64 : String)
    (newEpoch : Nat) (newMasterPsk : ByteVector) (rotationId : String) (nowMs : Int) :
    PeerSessionRecord :=
  { record with
    retiredPsks := capRetiredTail
      (record.retiredPsks ++ [{ epoch := oldEpoch, masterPskB64 := oldMasterPskB64, retiredAt := nowMs }])
      newEpoch
    masterPskB64 := some (C.base64Encode newMasterPsk)
    sessionEpoch := newEpoch
    lastPskRotateAt := some nowMs
    pskRotateMsgCount := 0
    lastRotationId := some rotationId }

/-- `Commit`. A rotation that another has overtaken is left alone. -/
def commit (store : PeerSessions) (plan : PublicPskRotatePlan) (nowMs : Int) : Roe PeerSessions := do
  let (record, _) ← loadRequired store plan.key
  if record.lastRotationId.any (· ≠ plan.detail.rotationId) then return store
  return store.save
    { rotatedRow C record plan.oldEpoch (C.base64Encode plan.oldMasterPsk) plan.detail.newEpoch
        plan.newMasterPsk plan.detail.rotationId nowMs with
      keyScope := plan.nextScope }

def abortPrepare (store : PeerSessions) (plan : PublicPskRotatePlan) : PeerSessions :=
  match store.load plan.key with
  | none => store
  | some record =>
    if record.lastRotationId = some plan.detail.rotationId then
      store.save { record with lastRotationId := none }
    else store

/-- The secret the new session is unwrapped with; none locks this device
out. -/
def unwrapKey (record : PeerSessionRecord) (wrapKind : String) (localAccountKemSk : ByteVector) :
    Roe (Option ByteVector) :=
  if wrapKind = kPskRotateWrapThreadKem then
    match record.threadKemSkB64 with
    | none => .ok none
    | some secret => (C.base64Decode secret).map some
  else .ok (some localAccountKemSk)

/-- `ApplyInbound` on the row. -/
def applyRow (record : PeerSessionRecord) (masterPskB64 : String) (keyInitB64 : String)
    (message : PskRotateMessage) (localAccountKemSk : ByteVector) (localAccountId : String)
    (nowMs : Int) : Roe PeerSessionRecord :=
  let detail := message.detail
  let record := { record with peerThreadKemPkB64 := some detail.threadKemPkB64 }
  if record.lastRotationId.any (PskRotateCodec.rotationIdWins · detail.rotationId) then
    .ok record  -- the local rotation wins
  else if detail.newEpoch ≤ record.sessionEpoch then
    .error "psk_rotate to an epoch not newer than the session's"
  else if localAccountId ≠ "" ∧ message.senderContactId = localAccountId then
    .ok { record with keyScope := .lockedOut }  -- a sibling of the device that rotates
  else do
    match ← unwrapKey C record detail.wrapKind localAccountKemSk with
    | none => return { record with keyScope := .lockedOut }
    | some wrapSk =>
      match C.deriveMasterPskFromKeyInit wrapSk keyInitB64 with
      | .error _ => return { record with keyScope := .lockedOut }
      | .ok newMasterPsk =>
        return { rotatedRow C record record.sessionEpoch masterPskB64 detail.newEpoch newMasterPsk
            detail.rotationId nowMs with
          keyScope := if record.keyScope = .deviceSelf then .devicePair else record.keyScope }

/-- The key_init of a message, matching the hash its detail carries. -/
def checkedKeyInit (message : PskRotateMessage) : Roe String := do
  PskRotateCodec.validate message.detail
  match attached message.keyInitB64 with
  | none => throw "psk_rotate missing key_init_b64"
  | some keyInit =>
    let hash ← hashKeyInitB64 C keyInit
    if hash ≠ message.detail.keyInitHash then throw "psk_rotate key_init_hash mismatch"
    return keyInit

def applyInbound (store : PeerSessions) (thread : Option Thread) (message : PskRotateMessage)
    (localAccountKemSk : ByteVector) (localAccountId : String) (nowMs : Int) :
    Roe (PublicKeyScope × PeerSessions) := do
  let key ← targetKeyForPublicThread thread
  let keyInit ← checkedKeyInit C message
  let (record, masterPskB64) ← loadRequired store key
  let saved ← applyRow C record masterPskB64 keyInit message localAccountKemSk localAccountId nowMs
  return (saved.keyScope, store.save saved)

end PublicPskLockCoordinator

end Pbr
