import PpBrowser.Base.CryptoConstants
import PpBrowser.Messaging.GroupChange

/-!
# AccountCard — a card that proves itself

`AccountCard.cpp` and `KemKeyBinding.cpp`: a key card and an account card are
checked against the Account ID alone, whoever carried them.
-/

namespace Pbr

/-- What the card checks call and do not define. -/
structure CardCrypto where
  base64Decode : String → Option ByteVector
  /-- `MlDsa::Verify(key, bytes, signature)`: `none` is its error. -/
  mlDsaVerify : ByteVector → ByteVector → ByteVector → Option Bool
  accountIdFromMlDsaPublicKey : ByteVector → Option String
  peerIdFromMlDsaPublicKey : ByteVector → Option String

def kMlDsa65PublicKeyBytes : Nat := 1952

/-- Devices an account has at most. -/
def kMaxAccountCardDevices : Nat := 5

/-- How far ahead of the receiver's clock a card may be issued. -/
def kAccountCardClockSkewMs : Int := 5 * 60 * 1000

namespace KeyCard

/-- `SameKeys`: signatures are randomized, so two bindings of the same keys
differ. -/
def sameKeys (a b : KeyCard) : Bool :=
  a.accountId = b.accountId && a.signingPublicKeyB64 = b.signingPublicKeyB64 &&
    a.kemPublicKeyB64 = b.kemPublicKeyB64

variable (K : CardCrypto) (card : KeyCard)

/-- The pair of keys, decoded, where both have their size. -/
def decodeKeys (signingB64 kemB64 : String) : Option (ByteVector × ByteVector) :=
  match K.base64Decode signingB64, K.base64Decode kemB64 with
  | some signing, some kem =>
    if signing.length = kMlDsa65PublicKeyBytes ∧ kem.length = kHybridKemPublicKeyBytes then
      some (signing, kem)
    else none
  | _, _ => none

/-- `KemBindingSignBytes`; empty when a key does not decode to its size. -/
def kemBindingSignBytes : ByteVector :=
  match decodeKeys K card.signingPublicKeyB64 card.kemPublicKeyB64 with
  | some (signing, kem) => stringBytes "pp-browser:kem-binding-v1" ++ [0] ++ [1] ++ signing ++ kem
  | none => []

/-- The signature of `bytes` under the account's key, and the text when it is
none. -/
def checkSigned (bytes : ByteVector) (signatureB64 malformed unsigned : String) : Roe Unit :=
  match K.base64Decode card.signingPublicKeyB64, K.base64Decode signatureB64 with
  | some signing, some signature =>
    if bytes = [] ∨ signature.length ≠ kMlDsa65SignatureBytes then .error malformed
    else if K.mlDsaVerify signing bytes signature = some true then .ok ()
    else .error unsigned
  | _, _ => .error malformed

/-- `VerifyKeyCard`: the signing key hashes to the Account ID and the KEM
binding verifies. -/
def verify : Roe Unit :=
  match K.base64Decode card.signingPublicKeyB64 with
  | none => .error "KEM key binding: bad signing key"
  | some signing =>
    if K.accountIdFromMlDsaPublicKey signing ≠ some card.accountId then
      .error "KEM key binding: the signing key is not the account's"
    else
      card.checkSigned K (card.kemBindingSignBytes K) card.kemBindingSignatureB64
        "KEM key binding: malformed" "KEM key binding: the account did not sign this KEM key"

end KeyCard

def AccountCardDevice.verify (K : CardCrypto) (device : AccountCardDevice) : Roe Unit :=
  match KeyCard.decodeKeys K device.signingPublicKeyB64 device.kemPublicKeyB64 with
  | none => .error "account card: a device's keys do not decode"
  | some (signing, _) =>
    if K.peerIdFromMlDsaPublicKey signing ≠ some device.peerId then
      .error "account card: a device's PeerId is not its signing key's"
    else .ok ()

namespace AccountCard

variable (K : CardCrypto) (card : AccountCard)

def devicePeerIds : List String := card.devices.map (·.peerId)

/-- `AppendLenUtf8`: u64 big-endian length, then the bytes. -/
def lenUtf8 (value : String) : ByteVector := bigEndian 8 value.utf8ByteSize ++ stringBytes value

/-- A device as it is signed; nothing when a key does not decode to its
size. -/
def deviceSignBytes (device : AccountCardDevice) : Option ByteVector :=
  (KeyCard.decodeKeys K device.signingPublicKeyB64 device.kemPublicKeyB64).map fun (signing, kem) =>
    lenUtf8 device.peerId ++ signing ++ kem

/-- `AccountCardSignBytes`, the devices in the order of their PeerIds; empty
when a key does not decode to its size. -/
def signBytes : ByteVector :=
  let devices := card.devices.insertionSort fun a b => a.peerId ≤ b.peerId
  match KeyCard.decodeKeys K card.keys.signingPublicKeyB64 card.keys.kemPublicKeyB64,
    devices.mapM (deviceSignBytes K) with
  | some (signing, kem), some rows =>
    stringBytes "pp-browser:account-card-v2" ++ [0] ++ [2] ++ signing ++ kem ++ lenUtf8 card.nickname ++
      bigEndian 8 devices.length ++ rows.flatten ++ bigEndian 8 (card.issuedAt % 2 ^ 64).toNat
  | _, _ => []

/-- `VerifyAccountCard`. -/
def verify (nowMs : Int) : Roe Unit := do
  card.keys.verify K
  if card.devices.length > kMaxAccountCardDevices then .error "account card: too many devices"
  else if card.devices = [] then .error "account card: no device"
  else if ¬ card.devicePeerIds.Nodup then .error "account card: duplicate device"
  else do
    card.devices.forM (·.verify K)
    if card.issuedAt ≤ 0 ∨ card.issuedAt > nowMs + kAccountCardClockSkewMs then
      .error "account card: issued in the future"
    else
      card.keys.checkSigned K (card.signBytes K) card.cardSignatureB64 "account card: malformed"
        "account card: the account did not sign it"

theorem issuedAt_pos {K : CardCrypto} {card : AccountCard} {nowMs : Int} (h : card.verify K nowMs = .ok ()) :
    0 < card.issuedAt := by
  obtain ⟨-, -, h⟩ := roe_bind_ok.mp h
  split at h
  · cases h
  split at h
  · cases h
  split at h
  · cases h
  obtain ⟨-, -, h⟩ := roe_bind_ok.mp h
  split at h
  · cases h
  · rename_i hdated
    omega

end AccountCard

end Pbr
