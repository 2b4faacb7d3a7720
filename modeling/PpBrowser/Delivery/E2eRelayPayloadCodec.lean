import PpBrowser.Base.CryptoConstants
import PpBrowser.Base.EncryptedPayload
import PpBrowser.Delivery.E2ePublicSessionLogic

/-!
# E2eRelayPayloadCodec — the ciphertext of a chat message

`E2eRelayPayloadCodec.cpp`, with `SessionKeyDeriver` and `EncryptedPayload`:
a payload is sealed under the session key of its channel and epoch, and read
under the stored session or the one its key_init opens. The cipher, the key
derivation, base64 and the archive of the AAD are parameters.
-/

namespace Pbr

def kSessionKeySize : Nat := 32
def kMaxE2ePlaintextBytes : Nat := 128 * 1024

/-- The route of the control lane, which is not sequenced. -/
def kRelayRouteControl : String := "control"

inductive ThreadChannel where
  | none | e2e | e2ePublic
  deriving DecidableEq, Repr

structure AadFields where
  channel : CryptoChannel := .e2e
  peerContactId : String
  messageId : String
  senderContactId : String
  senderSeq : Nat := 0
  sessionEpoch : Nat := 0
  timestamp : Int := 0
  deriving DecidableEq, Repr

/-- What the codec calls and does not define. -/
structure PayloadCrypto extends PairCrypto where
  /-- HKDF of a master PSK under an info text. -/
  hkdf : ByteVector → String → Roe ByteVector
  /-- `CanonicalAad::Build`. -/
  buildAad : AadFields → ByteVector
  /-- `MessageCipher::Encrypt`: session key, plaintext, AAD, nonce. -/
  encrypt : ByteVector → ByteVector → ByteVector → ByteVector → Roe EncryptedBlob
  /-- `MessageCipher::Decrypt`: session key, blob, AAD. -/
  decrypt : ByteVector → EncryptedBlob → ByteVector → Roe ByteVector

/-- What of an envelope the codec reads: its fields, and the copy of this
device. -/
structure RelayEnvelope where
  messageId : String
  senderContactId : String
  routeKind : String := "direct"
  routeChannel : ThreadChannel := .e2e
  payloadB64 : String
  keyInitB64 : Option String := none
  senderSeq : Nat := 0
  sessionEpoch : Nat := 1
  timestamp : Int := 0
  deriving DecidableEq, Repr

structure E2eEncryptParams where
  channel : CryptoChannel := .e2e
  peerContactId : String
  senderContactId : String
  messageId : String
  senderSeq : Nat := 0
  sessionEpoch : Nat := 1
  timestamp : Int
  deriving DecidableEq, Repr

structure E2eEncryptResult where
  payloadB64 : String
  keyInitB64 : Option String
  deriving DecidableEq, Repr

def CryptoChannel.toString : CryptoChannel → String
  | .e2e => "e2e"
  | .e2ePublic => "e2e_public"

/-! ## Session keys -/

def sessionKeyInfo (channel : CryptoChannel) (sessionEpoch : Nat) : String :=
  "channel:" ++ channel.toString ++ "|epoch:" ++ toString sessionEpoch

section Codec

variable (K : PayloadCrypto)

/-- `SessionKeyDeriver::Derive`. -/
def deriveSessionKey (masterPsk : ByteVector) (channel : CryptoChannel) (sessionEpoch : Nat) :
    Roe ByteVector :=
  if masterPsk.length ≠ kMasterPskSize then .error "Invalid master PSK size"
  else K.hkdf masterPsk (sessionKeyInfo channel sessionEpoch)

namespace E2eRelayPayloadCodec

/-! ## Writing -/

def aadFromEncryptParams (params : E2eEncryptParams) : AadFields where
  channel := params.channel
  peerContactId := params.peerContactId
  messageId := params.messageId
  senderContactId := params.senderContactId
  senderSeq := params.senderSeq
  sessionEpoch := params.sessionEpoch
  timestamp := params.timestamp

/-- `EncryptChatPayloadBytes`; `nonce` is what this call draws. -/
def encryptChatPayloadBytes (params : E2eEncryptParams) (plaintext masterPsk : ByteVector)
    (nonce : Roe ByteVector) : Roe String := do
  if plaintext.length > kMaxE2ePlaintextBytes then throw "ChatPayload exceeds E2E plaintext limit"
  let sessionKey ← deriveSessionKey K masterPsk params.channel params.sessionEpoch
  let aad := K.buildAad (aadFromEncryptParams params)
  let drawn ← nonce
  let encrypted ← K.encrypt sessionKey plaintext aad drawn
  let blob ← EncryptedPayload.encodeBlob encrypted
  return K.base64Encode blob

def encryptChatPayloadWithAutoKey (params : E2eEncryptParams) (plaintext masterPsk : ByteVector)
    (keyInitB64 : Option String) (nonce : Roe ByteVector) : Roe E2eEncryptResult := do
  let payloadB64 ← encryptChatPayloadBytes K params plaintext masterPsk nonce
  return { payloadB64, keyInitB64 }

/-! ## Reading -/

/-- The AAD a message to this device was sealed with. -/
def expectedReceiveAad (envelope : RelayEnvelope) (localContactId : String) : Roe AadFields :=
  let lane := envelope.routeKind = kRelayRouteControl
  if ¬ (envelope.senderSeq = 0 ↔ lane) ∨ envelope.sessionEpoch = 0 then
    .error "Envelope missing seq fields for E2E decrypt"
  else
    .ok {
      channel := if envelope.routeChannel = .e2ePublic then .e2ePublic else .e2e
      peerContactId := localContactId
      messageId := envelope.messageId
      senderContactId := envelope.senderContactId
      senderSeq := envelope.senderSeq
      sessionEpoch := envelope.sessionEpoch
      timestamp := envelope.timestamp }

/-- The payload opened under a master PSK. -/
def decryptUnder (envelope : RelayEnvelope) (expectedAad : AadFields) (masterPsk : ByteVector) :
    Roe ByteVector := do
  if masterPsk.length ≠ kMasterPskSize then throw "Invalid master PSK size"
  let sessionKey ← deriveSessionKey K masterPsk expectedAad.channel envelope.sessionEpoch
  let blobBytes ← K.base64Decode envelope.payloadB64
  let blob ← EncryptedPayload.decodeBlob blobBytes
  let plaintext ← K.decrypt sessionKey blob (K.buildAad expectedAad)
  if plaintext.length > kMaxE2ePlaintextBytes then throw "Decrypted payload exceeds limit"
  return plaintext

/-- Read under the session the store has for the envelope's epoch. -/
def readStored (envelope : RelayEnvelope) (expectedAad : AadFields) (stored : Option ByteVector) :
    Roe (ByteVector × AutoKeyRead) :=
  match stored with
  | none => .error "No PSK for envelope session epoch"
  | some masterPsk => do
    let plaintext ← decryptUnder K envelope expectedAad masterPsk
    return (plaintext, { masterPsk })

/-- Read under the session the envelope's key_init opens: the peer has opened
one this device does not hold. -/
def readKeyInit (envelope : RelayEnvelope) (expectedAad : AadFields) (stored : Option ByteVector)
    (failure : String) (localKemPrivateKey : ByteVector) : Roe (ByteVector × AutoKeyRead) :=
  match attached envelope.keyInitB64 with
  | none => .error (if stored.isSome then failure else "Missing key_init_b64 for auto-key decrypt")
  | some keyInit => do
    let derived ← K.deriveMasterPskFromKeyInit localKemPrivateKey keyInit
    if stored = some derived then throw failure
    let plaintext ← decryptUnder K envelope expectedAad derived
    return (plaintext, { masterPsk := derived, viaKeyInit := true })

/-- The key the store has for an epoch, decoded. -/
def storedMasterPsk (targetKey : PeerSessionKey) (store : PeerSessions) (sessionEpoch : Nat) :
    Roe (Option ByteVector) :=
  match store.resolveMasterPskForEpoch targetKey sessionEpoch with
  | none => .ok none
  | some storedB64 => some <$> K.base64Decode storedB64

/-- `DecryptEnvelopePlaintext`, and which session the envelope was read
under. -/
def decryptEnvelopePlaintext (envelope : RelayEnvelope) (localContactId : String)
    (targetKey : PeerSessionKey) (store : PeerSessions) (localKemPrivateKey : Option ByteVector) :
    Roe (ByteVector × AutoKeyRead) := do
  if envelope.payloadB64 = "" then throw "Missing E2E payload"
  let expectedAad ← expectedReceiveAad envelope localContactId
  let stored ← storedMasterPsk K targetKey store envelope.sessionEpoch
  match readStored K envelope expectedAad stored with
  | .ok read => .ok read
  | .error failure =>
    match localKemPrivateKey with
    | none => .error failure
    | some privateKey =>
      if envelope.routeChannel = .e2ePublic then
        readKeyInit K envelope expectedAad stored failure privateKey
      else .error failure

/-! ## What is sealed can be read, under its key only -/

/-- How the cipher, the key derivation and base64 work: what is sealed under
a key is opened by it and by no other, and keys derive apart. -/
structure Lawful : Prop where
  base64 : ∀ bytes, K.base64Decode (K.base64Encode bytes) = .ok bytes
  base64_ne : ∀ bytes, bytes ≠ [] → K.base64Encode bytes ≠ ""
  hkdf : ∀ masterPsk info, masterPsk.length = kMasterPskSize →
    ∃ sessionKey, K.hkdf masterPsk info = .ok sessionKey ∧ sessionKey.length = kSessionKeySize
  apart : ∀ masterPsk masterPsk' info sessionKey, masterPsk.length = kMasterPskSize →
    masterPsk'.length = kMasterPskSize → K.hkdf masterPsk info = .ok sessionKey →
      K.hkdf masterPsk' info = .ok sessionKey → masterPsk' = masterPsk
  encrypt : ∀ sessionKey plaintext aad nonce, sessionKey.length = kSessionKeySize →
    nonce.length = kAeadNonceSize → ∃ blob, K.encrypt sessionKey plaintext aad nonce = .ok blob ∧
      blob.nonce = nonce ∧ kAeadTagSize ≤ blob.ciphertext.length ∧
        K.decrypt sessionKey blob aad = .ok plaintext
  authentic : ∀ sessionKey sessionKey' plaintext plaintext' aad aad' nonce blob,
    K.encrypt sessionKey plaintext aad nonce = .ok blob →
      K.decrypt sessionKey' blob aad' = .ok plaintext' → sessionKey' = sessionKey

/-- The envelope's payload holds `plaintext` under `masterPsk`, and under no
other key. -/
structure Sealed (envelope : RelayEnvelope) (aad : AadFields) (masterPsk plaintext : ByteVector) :
    Prop where
  payload : envelope.payloadB64 ≠ ""
  opens : decryptUnder K envelope aad masterPsk = .ok plaintext
  only : ∀ masterPsk' plaintext', decryptUnder K envelope aad masterPsk' = .ok plaintext' →
    masterPsk' = masterPsk

variable {K} {params : E2eEncryptParams} {plaintext masterPsk drawn : ByteVector}
  {envelope : RelayEnvelope} {aad : AadFields}

theorem Lawful.encode_inj (hK : Lawful K) {a b : ByteVector} : K.base64Encode a = K.base64Encode b ↔ a = b := by
  constructor
  · intro h
    exact Except.ok.inj ((hK.base64 a).symm.trans (h ▸ hK.base64 b))
  · rintro rfl
    rfl

theorem Lawful.deriveSessionKey (hK : Lawful K) (hpsk : masterPsk.length = kMasterPskSize)
    (channel : CryptoChannel) (sessionEpoch : Nat) : ∃ sessionKey,
      deriveSessionKey K masterPsk channel sessionEpoch = .ok sessionKey ∧ sessionKey.length = kSessionKeySize := by
  obtain ⟨sessionKey, hkey, hsize⟩ := hK.hkdf masterPsk (sessionKeyInfo channel sessionEpoch) hpsk
  exact ⟨sessionKey, by simp [Pbr.deriveSessionKey, hpsk, hkey], hsize⟩

theorem decryptUnder_eq (hpsk : masterPsk.length = kMasterPskSize) :
    decryptUnder K envelope aad masterPsk = (do
      let sessionKey ← deriveSessionKey K masterPsk aad.channel envelope.sessionEpoch
      let blobBytes ← K.base64Decode envelope.payloadB64
      let blob ← EncryptedPayload.decodeBlob blobBytes
      let plaintext ← K.decrypt sessionKey blob (K.buildAad aad)
      if plaintext.length > kMaxE2ePlaintextBytes then throw "Decrypted payload exceeds limit"
      return plaintext) := by
  simp [decryptUnder, hpsk]

theorem size_of_decryptUnder (h : decryptUnder K envelope aad masterPsk = .ok plaintext) :
    masterPsk.length = kMasterPskSize := by
  by_contra hsize
  simp [decryptUnder, hsize] at h

theorem Lawful.encryptChatPayloadBytes (hK : Lawful K) (hpsk : masterPsk.length = kMasterPskSize)
    (hlimit : plaintext.length ≤ kMaxE2ePlaintextBytes) (hnonce : drawn.length = kAeadNonceSize) :
    ∃ payloadB64, encryptChatPayloadBytes K params plaintext masterPsk (.ok drawn) = .ok payloadB64 ∧
      ∀ envelope : RelayEnvelope, envelope.payloadB64 = payloadB64 → envelope.sessionEpoch = params.sessionEpoch →
          Sealed K envelope (aadFromEncryptParams params) masterPsk plaintext := by
  obtain ⟨sessionKey, hkey, hsize⟩ := hK.deriveSessionKey hpsk params.channel params.sessionEpoch
  obtain ⟨blob, hblob, hbn, htag, hopen⟩ :=
    hK.encrypt sessionKey plaintext (K.buildAad (aadFromEncryptParams params)) drawn hsize hnonce
  obtain ⟨bytes, hbytes, hne, hdecode⟩ := EncryptedPayload.decodeBlob_encodeBlob (hbn ▸ hnonce) htag
  refine ⟨K.base64Encode bytes, ?_, ?_⟩
  · simp [E2eRelayPayloadCodec.encryptChatPayloadBytes, Nat.not_lt.mpr hlimit, hkey, hblob, hbytes]
  · intro envelope hpayload hepoch
    have hdrawn : Pbr.deriveSessionKey K masterPsk (aadFromEncryptParams params).channel
        envelope.sessionEpoch = .ok sessionKey := by rw [hepoch]; exact hkey
    refine ⟨by rw [hpayload]; exact hK.base64_ne _ hne, ?_, ?_⟩
    · rw [decryptUnder_eq hpsk]
      simp [hdrawn, hpayload, hK.base64, hdecode, hopen, Nat.not_lt.mpr hlimit]
    · intro masterPsk' plaintext' h
      have hpsk' : masterPsk'.length = kMasterPskSize := size_of_decryptUnder h
      rw [decryptUnder_eq hpsk'] at h
      obtain ⟨sessionKey', hkey', h⟩ := roe_bind_ok.mp h
      obtain ⟨bytes', hbytes', h⟩ := roe_bind_ok.mp h
      obtain ⟨blob', hblob', h⟩ := roe_bind_ok.mp h
      obtain ⟨opened, hopened, -⟩ := roe_bind_ok.mp h
      obtain rfl : bytes = bytes' := by
        rw [hpayload, hK.base64] at hbytes'
        exact Except.ok.inj hbytes'
      obtain rfl : blob = blob' := Except.ok.inj (hdecode.symm.trans hblob')
      obtain rfl : sessionKey' = sessionKey := hK.authentic _ _ _ _ _ _ _ _ hblob hopened
      apply hK.apart masterPsk masterPsk' _ sessionKey' hpsk hpsk'
      · simpa [Pbr.deriveSessionKey, hpsk] using hdrawn
      · simpa [Pbr.deriveSessionKey, hpsk'] using hkey'

/-! ## Reading, by what the store has -/

section Reading

variable {localContactId : String} {targetKey : PeerSessionKey} {store : PeerSessions}
  {stored : Option ByteVector} {privateKey : ByteVector}

theorem Sealed.read_stored (h : Sealed K envelope aad masterPsk plaintext)
    (haad : expectedReceiveAad envelope localContactId = .ok aad)
    (hstored : storedMasterPsk K targetKey store envelope.sessionEpoch = .ok (some masterPsk)) :
    decryptEnvelopePlaintext K envelope localContactId targetKey store (some privateKey) =
      .ok (plaintext, { masterPsk }) := by
  simp [decryptEnvelopePlaintext, h.payload, haad, hstored, readStored, h.opens]

theorem Sealed.readStored_error (h : Sealed K envelope aad masterPsk plaintext)
    (hstored : stored ≠ some masterPsk) : ∃ failure, readStored K envelope aad stored = .error failure := by
  cases stored with
  | none => exact ⟨_, rfl⟩
  | some masterPsk' =>
    cases hread : decryptUnder K envelope aad masterPsk' with
    | error failure => exact ⟨failure, by simp [readStored, hread]⟩
    | ok plaintext' => exact absurd (congrArg some (h.only _ _ hread)) hstored

section

variable (h : Sealed K envelope aad masterPsk plaintext)
  (haad : expectedReceiveAad envelope localContactId = .ok aad) (hpublic : envelope.routeChannel = .e2ePublic)
  (hstored : storedMasterPsk K targetKey store envelope.sessionEpoch = .ok stored)
  (hne : stored ≠ some masterPsk)
include h haad hpublic hstored hne

theorem Sealed.read_keyInit {keyInit : String} (hattached : attached envelope.keyInitB64 = some keyInit)
    (hderive : K.deriveMasterPskFromKeyInit privateKey keyInit = .ok masterPsk) :
    decryptEnvelopePlaintext K envelope localContactId targetKey store (some privateKey) =
      .ok (plaintext, { masterPsk, viaKeyInit := true }) := by
  obtain ⟨failure, hfail⟩ := h.readStored_error hne
  simp [decryptEnvelopePlaintext, h.payload, haad, hstored, hfail, hpublic, readKeyInit, hattached,
    hderive, hne, h.opens]

theorem Sealed.read_none (hattached : attached envelope.keyInitB64 = none) :
    ∃ failure, decryptEnvelopePlaintext K envelope localContactId targetKey store (some privateKey) =
      .error failure := by
  obtain ⟨failure, hfail⟩ := h.readStored_error hne
  exact ⟨_, by simp only [decryptEnvelopePlaintext, h.payload, haad, hstored, hfail, hpublic,
    readKeyInit, hattached, if_true, if_false, roe_ok_bind]; rfl⟩

end

end Reading

end E2eRelayPayloadCodec

end Codec

end Pbr
