import Mathlib.Data.String.Basic
import PpBrowser.Messaging.GroupSignedJson
import PpBrowser.People.AccountCard

/-!
# AccountCardSigned — what a card's signature fixes

The sign bytes of a card tell its keys, its nickname, its time and its
devices in some order; the order they are listed in is not signed, and no
check asks for it. A card that verifies has every field a reader requires.
-/

namespace Pbr

open Lib

/-- What the key functions do with no text: an ID is never empty, and no key
is spelled by the empty text. -/
structure CardCrypto.Spells (K : CardCrypto) : Prop where
  accountId : ∀ key id, K.accountIdFromMlDsaPublicKey key = some id → id ≠ ""
  peerId : ∀ key id, K.peerIdFromMlDsaPublicKey key = some id → id ≠ ""
  base64 : ∀ bytes, K.base64Decode "" = some bytes → bytes = []

namespace AccountCard

variable {K : CardCrypto} {card a b : AccountCard} {nowMs : Int}

/-! ## What is signed -/

/-- A device as it is signed: its PeerId and its keys, decoded. -/
structure SignedDevice where
  peerId : String
  signing : ByteVector
  kem : ByteVector
  deriving DecidableEq, Repr

variable (K) in
def signedDevice (device : AccountCardDevice) : Option SignedDevice :=
  (KeyCard.decodeKeys K device.signingPublicKeyB64 device.kemPublicKeyB64).map fun (signing, kem) =>
    { peerId := device.peerId, signing, kem }

def SignedDevice.put (device : SignedDevice) : ByteVector := lenUtf8 device.peerId ++ device.signing ++ device.kem

/-- Texts and lists a machine holds. -/
structure Sized (card : AccountCard) : Prop where
  nickname : card.nickname.utf8ByteSize < 2 ^ 64
  peerIds : ∀ device ∈ card.devices, device.peerId.utf8ByteSize < 2 ^ 64
  devices : card.devices.length < 2 ^ 64
  issuedAt : IsInt64 card.issuedAt

variable (K) in
/-- The same signed content: keys decoded, devices in no order. -/
structure SameSigned (a b : AccountCard) : Prop where
  keys : KeyCard.decodeKeys K a.keys.signingPublicKeyB64 a.keys.kemPublicKeyB64 =
    KeyCard.decodeKeys K b.keys.signingPublicKeyB64 b.keys.kemPublicKeyB64
  nickname : a.nickname = b.nickname
  issuedAt : a.issuedAt = b.issuedAt
  devices : (a.devices.map (signedDevice K)).Perm (b.devices.map (signedDevice K))

theorem decodeKeys_length {signingB64 kemB64 : String} {signing kem : ByteVector}
    (h : KeyCard.decodeKeys K signingB64 kemB64 = some (signing, kem)) :
    signing.length = kMlDsa65PublicKeyBytes ∧ kem.length = kHybridKemPublicKeyBytes := by
  rw [KeyCard.decodeKeys] at h
  split at h
  · split at h
    next hlengths =>
      obtain ⟨rfl, rfl⟩ := Prod.mk.inj (Option.some.inj h)
      exact hlengths
    · cases h
  · cases h

theorem lenUtf8_append_inj {s t : String} {xs ys : ByteVector} (hs : s.utf8ByteSize < 2 ^ 64)
    (ht : t.utf8ByteSize < 2 ^ 64) (h : lenUtf8 s ++ xs = lenUtf8 t ++ ys) : s = t ∧ xs = ys := by
  rw [lenUtf8, lenUtf8, List.append_assoc, List.append_assoc] at h
  obtain ⟨hlength, h⟩ := putUInt_append_inj hs ht h
  obtain ⟨hbytes, h⟩ := List.append_inj h hlength
  exact ⟨stringBytes_inj hbytes, h⟩

/-- A device that fits tells itself and where the next one starts. -/
def SignedDevice.Fits (device : SignedDevice) : Prop :=
  device.peerId.utf8ByteSize < 2 ^ 64 ∧ device.signing.length = kMlDsa65PublicKeyBytes ∧
    device.kem.length = kHybridKemPublicKeyBytes

theorem prefixCode_put : PrefixCode SignedDevice.Fits SignedDevice.put := by
  rintro ⟨peerId, signing, kem⟩ ⟨peerId', signing', kem'⟩ xs ys ⟨hpeer, hsigning, hkem⟩ ⟨hpeer', hsigning', hkem'⟩ h
  simp only [SignedDevice.put, List.append_assoc] at h hpeer hpeer' hsigning hsigning' hkem hkem'
  obtain ⟨rfl, hkeys⟩ := lenUtf8_append_inj hpeer hpeer' h
  obtain ⟨rfl, hkems⟩ := List.append_inj hkeys (hsigning.trans hsigning'.symm)
  obtain ⟨rfl, hrest⟩ := List.append_inj hkems (hkem.trans hkem'.symm)
  exact ⟨rfl, hrest⟩

theorem mapM_deviceSignBytes {devices : List AccountCardDevice} {rows : List ByteVector}
    (h : devices.mapM (deviceSignBytes K) = some rows) :
    ∃ signed : List SignedDevice, devices.map (signedDevice K) = signed.map some ∧
      rows.flatten = signed.flatMap SignedDevice.put ∧ ∀ device ∈ signed, ∃ row ∈ devices,
        signedDevice K row = some device := by
  induction devices generalizing rows with
  | nil =>
    obtain rfl := Option.some.inj h
    exact ⟨[], rfl, rfl, by simp⟩
  | cons device devices ih =>
    rw [List.mapM_cons] at h
    obtain ⟨row, hrow, h⟩ := Option.bind_eq_some_iff.mp h
    obtain ⟨rest, hrest, h⟩ := Option.bind_eq_some_iff.mp h
    obtain rfl := Option.some.inj h
    obtain ⟨signed, hsigned, hflatten, hfrom⟩ := ih hrest
    obtain ⟨⟨signing, kem⟩, hkeys, hput⟩ := Option.map_eq_some_iff.mp hrow
    have hdevice : signedDevice K device = some ⟨device.peerId, signing, kem⟩ := by
      rw [signedDevice, hkeys]
      rfl
    refine ⟨⟨device.peerId, signing, kem⟩ :: signed, ?_, ?_, ?_⟩
    · rw [List.map_cons, List.map_cons, hdevice, hsigned]
    · rw [List.flatten_cons, List.flatMap_cons, hflatten, ← hput]
      rfl
    · intro found hfound
      rcases List.mem_cons.mp hfound with rfl | hfound
      · exact ⟨device, List.mem_cons_self, hdevice⟩
      · obtain ⟨row, hrow, hsame⟩ := hfrom found hfound
        exact ⟨row, List.mem_cons_of_mem _ hrow, hsame⟩

theorem SignedDevice.fits_of {row : AccountCardDevice} {device : SignedDevice} (h : signedDevice K row = some device)
    (hsize : row.peerId.utf8ByteSize < 2 ^ 64) : device.Fits := by
  obtain ⟨⟨signing, kem⟩, hkeys, rfl⟩ := Option.map_eq_some_iff.mp h
  exact ⟨hsize, decodeKeys_length hkeys⟩

/-- The devices in the order they are signed in. -/
def sortedDevices (card : AccountCard) : List AccountCardDevice := card.devices.insertionSort fun a b => a.peerId ≤ b.peerId

theorem perm_sortedDevices (card : AccountCard) : card.sortedDevices.Perm card.devices :=
  List.perm_insertionSort _ _

theorem signBytes_eq (h : card.signBytes K ≠ []) : ∃ signing kem, ∃ signed : List SignedDevice,
    KeyCard.decodeKeys K card.keys.signingPublicKeyB64 card.keys.kemPublicKeyB64 = some (signing, kem) ∧
      card.sortedDevices.map (signedDevice K) = signed.map some ∧
      (∀ device ∈ signed, ∃ row ∈ card.sortedDevices, signedDevice K row = some device) ∧
      card.signBytes K = stringBytes "pp-browser:account-card-v2" ++ [0] ++ [2] ++ signing ++ kem ++
        lenUtf8 card.nickname ++ putUInt signed.length ++ signed.flatMap SignedDevice.put ++
        putUInt (castUInt card.issuedAt) := by
  unfold signBytes at h ⊢
  dsimp only at h ⊢
  cases hkeys : KeyCard.decodeKeys K card.keys.signingPublicKeyB64 card.keys.kemPublicKeyB64 with
  | none =>
    rw [hkeys] at h
    exact absurd rfl h
  | some keys =>
    obtain ⟨signing, kem⟩ := keys
    rw [hkeys] at h
    cases hrows : card.sortedDevices.mapM (deviceSignBytes K) with
    | none =>
      rw [sortedDevices] at hrows
      rw [hrows] at h
      exact absurd rfl h
    | some rows =>
      obtain ⟨signed, hsigned, hflatten, hfrom⟩ := mapM_deviceSignBytes hrows
      have hlength : card.sortedDevices.length = signed.length := by
        rw [← List.length_map (f := signedDevice K), hsigned, List.length_map]
      rw [sortedDevices] at hrows hlength
      refine ⟨signing, kem, signed, rfl, hsigned, hfrom, ?_⟩
      rw [hrows]
      dsimp only
      rw [hflatten, hlength]
      rfl

theorem sameSigned_of_signBytes (ha : a.Sized) (hb : b.Sized) (hne : a.signBytes K ≠ [])
    (h : a.signBytes K = b.signBytes K) : SameSigned K a b := by
  obtain ⟨signing, kem, signed, hkeys, hsigned, hfrom, hbytes⟩ := signBytes_eq hne
  obtain ⟨signing', kem', signed', hkeys', hsigned', hfrom', hbytes'⟩ := signBytes_eq (h ▸ hne)
  have hfits : ∀ device ∈ signed, device.Fits := by
    intro device hdevice
    obtain ⟨row, hrow, hsame⟩ := hfrom device hdevice
    exact SignedDevice.fits_of hsame (ha.peerIds row (a.perm_sortedDevices.mem_iff.mp hrow))
  have hfits' : ∀ device ∈ signed', device.Fits := by
    intro device hdevice
    obtain ⟨row, hrow, hsame⟩ := hfrom' device hdevice
    exact SignedDevice.fits_of hsame (hb.peerIds row (b.perm_sortedDevices.mem_iff.mp hrow))
  have hlength : ∀ {card : AccountCard} {signed : List SignedDevice}, card.Sized →
      card.sortedDevices.map (signedDevice K) = signed.map some → signed.length < 2 ^ 64 := by
    intro card signed hcard hmap
    rw [← List.length_map (f := some), ← hmap, List.length_map, card.perm_sortedDevices.length_eq]
    exact hcard.devices
  rw [hbytes, hbytes'] at h
  simp only [List.append_assoc] at h
  have htail := List.append_cancel_left (List.append_cancel_left (List.append_cancel_left h))
  obtain ⟨hsigning, hkem⟩ := decodeKeys_length hkeys
  obtain ⟨hsigning', hkem'⟩ := decodeKeys_length hkeys'
  obtain ⟨rfl, hkems⟩ := List.append_inj htail (hsigning.trans hsigning'.symm)
  obtain ⟨rfl, hfields⟩ := List.append_inj hkems (hkem.trans hkem'.symm)
  obtain ⟨hnickname, hrows⟩ := lenUtf8_append_inj ha.nickname hb.nickname hfields
  obtain ⟨hcount, hrows⟩ := putUInt_append_inj (hlength ha hsigned) (hlength hb hsigned') hrows
  obtain ⟨rfl, hlast⟩ := prefixCode_put.flatMap hfits hfits' hcount hrows
  have hissued : putUInt (castUInt a.issuedAt) ++ [] = putUInt (castUInt b.issuedAt) ++ [] := by rw [hlast]
  obtain ⟨hissued, -⟩ := putUInt_append_inj (castUInt_lt _) (castUInt_lt _) hissued
  constructor
  · rw [hkeys, hkeys']
  · exact hnickname
  · exact castUInt_inj ha.issuedAt hb.issuedAt hissued
  · have hsorted : a.sortedDevices.map (signedDevice K) = b.sortedDevices.map (signedDevice K) :=
      hsigned.trans hsigned'.symm
    exact ((a.perm_sortedDevices.map _).symm.trans (hsorted ▸ b.perm_sortedDevices.map _))

/-! ## The order of the devices -/

/-- The card with its devices in another order. -/
def Reorders (a b : AccountCard) : Prop :=
  a.keys = b.keys ∧ a.nickname = b.nickname ∧ a.issuedAt = b.issuedAt ∧ a.cardSignatureB64 = b.cardSignatureB64 ∧
    a.devices.Perm b.devices

theorem pairwise_sortedDevices (card : AccountCard) : card.sortedDevices.Pairwise fun a b => a.peerId ≤ b.peerId := by
  have htotal : Std.Total fun a b : AccountCardDevice => a.peerId ≤ b.peerId := ⟨fun a b => le_total a.peerId b.peerId⟩
  have htrans : IsTrans AccountCardDevice fun a b => a.peerId ≤ b.peerId := ⟨fun a b c hab hbc => le_trans hab hbc⟩
  exact List.pairwise_insertionSort _ _

theorem sortedDevices_perm (hperm : a.devices.Perm b.devices) (hnodup : a.devicePeerIds.Nodup) :
    a.sortedDevices = b.sortedDevices := by
  have hboth : a.sortedDevices.Perm b.sortedDevices :=
    a.perm_sortedDevices.trans (hperm.trans b.perm_sortedDevices.symm)
  apply hboth.eq_of_pairwise
  · intro x y hx hy hxy hyx
    have hpeer : x.peerId = y.peerId := le_antisymm hxy hyx
    exact List.inj_on_of_nodup_map hnodup (a.perm_sortedDevices.mem_iff.mp hx)
      (hperm.mem_iff.mpr (b.perm_sortedDevices.mem_iff.mp hy)) hpeer
  · exact a.pairwise_sortedDevices
  · exact b.pairwise_sortedDevices

theorem signBytes_congr (h : Reorders a b) (hnodup : a.devicePeerIds.Nodup) : a.signBytes K = b.signBytes K := by
  obtain ⟨hkeys, hnickname, hissued, -, hperm⟩ := h
  have hsorted := sortedDevices_perm hperm hnodup
  rw [sortedDevices, sortedDevices] at hsorted
  unfold signBytes
  dsimp only
  rw [hkeys, hnickname, hissued, hsorted]

/-- What `VerifyAccountCard` asks of a card besides its signature. -/
structure Listed (K : CardCrypto) (card : AccountCard) (nowMs : Int) : Prop where
  keys : card.keys.verify K = .ok ()
  few : card.devices.length ≤ kMaxAccountCardDevices
  some_ : card.devices ≠ []
  distinct : card.devicePeerIds.Nodup
  devices : ∀ device ∈ card.devices, device.verify K = .ok ()
  dated : 0 < card.issuedAt ∧ card.issuedAt ≤ nowMs + kAccountCardClockSkewMs

theorem verify_ok : card.verify K nowMs = .ok () ↔ Listed K card nowMs ∧
    card.keys.checkSigned K (card.signBytes K) card.cardSignatureB64 "account card: malformed"
      "account card: the account did not sign it" = .ok () := by
  rw [verify, roe_bind_ok]
  constructor
  · intro ⟨_, hkeys, h⟩
    split_ifs at h with hfew hsome hdistinct hdated
    · obtain ⟨_, -, h⟩ := roe_bind_ok.mp h
      cases h
    · obtain ⟨_, hdevices, h⟩ := roe_bind_ok.mp h
      exact ⟨⟨hkeys, by omega, hsome, hdistinct, roe_forM_ok.mp hdevices, by omega, by omega⟩, h⟩
  · intro ⟨hlisted, hsigned⟩
    refine ⟨(), hlisted.keys, ?_⟩
    rw [if_neg (not_lt.mpr hlisted.few), if_neg hlisted.some_, if_neg (not_not.mpr hlisted.distinct), roe_bind_ok]
    refine ⟨(), roe_forM_ok.mpr hlisted.devices, ?_⟩
    have hdated := hlisted.dated
    rw [if_neg (by omega)]
    exact hsigned

theorem Listed.reorders (h : Reorders a b) (hlisted : Listed K a nowMs) : Listed K b nowMs := by
  obtain ⟨hkeys, -, hissued, -, hperm⟩ := h
  constructor
  · exact hkeys ▸ hlisted.keys
  · rw [← hperm.length_eq]
    exact hlisted.few
  · intro hnil
    rw [hnil] at hperm
    exact hlisted.some_ hperm.eq_nil
  · exact (hperm.map _).nodup_iff.mp hlisted.distinct
  · intro device hdevice
    exact hlisted.devices device (hperm.mem_iff.mpr hdevice)
  · rw [← hissued]
    exact hlisted.dated

theorem verify_reorders (h : Reorders a b) (hverify : a.verify K nowMs = .ok ()) : b.verify K nowMs = .ok () := by
  obtain ⟨hlisted, hsigned⟩ := verify_ok.mp hverify
  rw [verify_ok]
  refine ⟨hlisted.reorders h, ?_⟩
  rw [← signBytes_congr h hlisted.distinct, ← h.1, ← h.2.2.2.1]
  exact hsigned

theorem Reorders.symm (h : Reorders a b) : Reorders b a :=
  ⟨h.1.symm, h.2.1.symm, h.2.2.1.symm, h.2.2.2.1.symm, h.2.2.2.2.symm⟩

/-! ## Over the wire -/

variable (K) in
/-- `SignAccountCard`, with the signer's base64. -/
def signAccountCard (card : AccountCard) (sign : ByteVector → Roe String) : Roe AccountCard :=
  let message := card.signBytes K
  if message = [] then .error "account card: keys do not decode"
  else do
    let cardSignatureB64 ← sign message
    return { card with cardSignatureB64 }

theorem text_of_decoded (hK : K.Spells) {text : String} {bytes : ByteVector} (hdecode : K.base64Decode text = some bytes)
    (hlength : bytes ≠ []) : text ≠ "" := by
  rintro rfl
  exact hlength (hK.base64 bytes hdecode)

theorem texts_of_decodeKeys (hK : K.Spells) {signingB64 kemB64 : String} {keys : ByteVector × ByteVector}
    (h : KeyCard.decodeKeys K signingB64 kemB64 = some keys) : signingB64 ≠ "" ∧ kemB64 ≠ "" := by
  rw [KeyCard.decodeKeys] at h
  split at h
  next signing kem hsigning hkem =>
      split at h
      next hlengths =>
          constructor
          · apply text_of_decoded hK hsigning
            rintro rfl
            exact absurd hlengths.1 (by decide)
          · apply text_of_decoded hK hkem
            rintro rfl
            exact absurd hlengths.2 (by decide)
      · cases h
  · cases h

theorem text_of_checkSigned (hK : K.Spells) {keys : KeyCard} {bytes : ByteVector} {signatureB64 malformed unsigned : String}
    (h : keys.checkSigned K bytes signatureB64 malformed unsigned = .ok ()) : signatureB64 ≠ "" := by
  rw [KeyCard.checkSigned] at h
  split at h
  next signing signature hsigning hsignature =>
      split_ifs at h with hmalformed
      apply text_of_decoded hK hsignature
      rintro rfl
      exact hmalformed (.inr (by decide))
  · cases h

theorem fields_of_keys_verify (hK : K.Spells) {keys : KeyCard} (h : keys.verify K = .ok ()) :
    keys.accountId ≠ "" ∧ keys.signingPublicKeyB64 ≠ "" ∧ keys.kemPublicKeyB64 ≠ "" ∧
      keys.kemBindingSignatureB64 ≠ "" := by
  rw [KeyCard.verify] at h
  split at h
  · cases h
  next signing hsigning =>
      split_ifs at h with hid
      have hbinding := text_of_checkSigned hK h
      -- bytes that are taken are not empty, so the keys decode
      have hkeys : ∃ decoded, KeyCard.decodeKeys K keys.signingPublicKeyB64 keys.kemPublicKeyB64 = some decoded := by
        cases hdecoded : KeyCard.decodeKeys K keys.signingPublicKeyB64 keys.kemPublicKeyB64 with
        | some decoded => exact ⟨decoded, rfl⟩
        | none =>
          rw [KeyCard.checkSigned, KeyCard.kemBindingSignBytes, hdecoded] at h
          split at h
          · rw [if_pos (.inl rfl)] at h
            cases h
          · cases h
      obtain ⟨decoded, hdecoded⟩ := hkeys
      obtain ⟨hsigningText, hkemText⟩ := texts_of_decodeKeys hK hdecoded
      exact ⟨hK.accountId signing _ (not_not.mp hid), hsigningText, hkemText, hbinding⟩

theorem readable_of_verify (hK : K.Spells) (h : card.verify K nowMs = .ok ()) : card.Readable := by
  obtain ⟨hlisted, hsigned⟩ := verify_ok.mp h
  obtain ⟨haccount, hsigning, hkem, hbinding⟩ := fields_of_keys_verify hK hlisted.keys
  constructor
  · exact haccount
  · exact hsigning
  · exact hkem
  · exact hbinding
  · intro device hdevice
    have hverify := hlisted.devices device hdevice
    rw [AccountCardDevice.verify] at hverify
    split at hverify
    · cases hverify
    next signing kem hkeys =>
        split_ifs at hverify with hpeer
        obtain ⟨hsigning, hkem⟩ := texts_of_decodeKeys hK hkeys
        exact ⟨hK.peerId signing _ (not_not.mp hpeer), hsigning, hkem⟩
  · exact text_of_checkSigned hK hsigned

variable (K) in
/-- Sign bytes fix what a card says; a card that is signed and verifies is
read back from its JSON and verifies again; the order of the devices is
nothing to a check. -/
theorem card_signed (hK : K.Spells) :
    (∀ a b : AccountCard, a.Sized → b.Sized → a.signBytes K ≠ [] → a.signBytes K = b.signBytes K → SameSigned K a b) ∧
    (∀ card signed sign nowMs, signAccountCard K card sign = .ok signed → signed.verify K nowMs = .ok () →
      ∃ read, fromJson signed.toJson = .ok read ∧ read.verify K nowMs = .ok () ∧
        read.signBytes K = signed.signBytes K ∧ read.devices = signed.devices ∧ read.nickname = signed.nickname) ∧
    ∀ a b nowMs, Reorders a b → (a.verify K nowMs = .ok () ↔ b.verify K nowMs = .ok ()) := by
  refine ⟨?_, ?_, ?_⟩
  · intro a b ha hb hne h
    exact sameSigned_of_signBytes ha hb hne h
  · intro card signed sign nowMs _ hverify
    exact ⟨signed, fromJson_toJson (readable_of_verify hK hverify), hverify, rfl, rfl, rfl⟩
  · intro a b nowMs h
    exact ⟨verify_reorders h, verify_reorders h.symm⟩

/-- Primitives for a run: the empty text decodes to nothing, the others to
keys of a size told by the text, and everything verifies. -/
def spelledCrypto : CardCrypto where
  base64Decode text :=
    if text = "" then some []
    else some (List.replicate
      (if text = "kem" then kHybridKemPublicKeyBytes
        else if text = "sig" then kMlDsa65SignatureBytes else kMlDsa65PublicKeyBytes)
      (if text = "tablet-key" then 1 else 0))
  mlDsaVerify _ _ _ := some true
  accountIdFromMlDsaPublicKey _ := some "account:a"
  peerIdFromMlDsaPublicKey key := some (if key.head? = some 1 then "tablet" else "phone")

theorem spelledCrypto_spells : spelledCrypto.Spells where
  accountId key id h := by
    obtain rfl := Option.some.inj h
    decide
  peerId key id h := by
    obtain rfl := Option.some.inj h
    split <;> decide
  base64 bytes h := (Option.some.inj h).symm

def spelledCard (devices : List AccountCardDevice) : AccountCard where
  keys := ⟨"account:a", "key", "kem", "sig"⟩
  nickname := "me"
  devices := devices
  issuedAt := 1
  cardSignatureB64 := "sig"

def spelledDevices : List AccountCardDevice := [⟨"tablet", "tablet-key", "kem"⟩, ⟨"phone", "key", "kem"⟩]

theorem spelledCard_listed : Listed spelledCrypto (spelledCard spelledDevices) 0 where
  keys := by
    simp [spelledCard, KeyCard.verify, KeyCard.checkSigned, KeyCard.kemBindingSignBytes, KeyCard.decodeKeys, spelledCrypto]
  few := by decide
  some_ := by decide
  distinct := by decide
  devices := by
    have hsize : kMlDsa65PublicKeyBytes ≠ 0 := by decide
    simp [spelledCard, spelledDevices, AccountCardDevice.verify, KeyCard.decodeKeys, spelledCrypto,
      List.head?_replicate, hsize]
  dated := by decide

theorem spelledCard_verify : (spelledCard spelledDevices).verify spelledCrypto 0 = .ok () := by
  rw [verify_ok]
  refine ⟨spelledCard_listed, ?_⟩
  simp [spelledCard, spelledDevices, KeyCard.checkSigned, signBytes, deviceSignBytes, KeyCard.decodeKeys, spelledCrypto,
    List.insertionSort]

theorem spelledCard_signed : signAccountCard spelledCrypto (spelledCard spelledDevices) (fun _ => .ok "sig") =
    .ok (spelledCard spelledDevices) := by
  rw [signAccountCard, if_neg]
  · rfl
  · simp [spelledCard, spelledDevices, signBytes, deviceSignBytes, KeyCard.decodeKeys, spelledCrypto, List.insertionSort]

theorem card_signed_spelled :
    (∃ read, fromJson (spelledCard spelledDevices).toJson = .ok read ∧ read.verify spelledCrypto 0 = .ok ()) ∧
    (spelledCard spelledDevices.reverse).verify spelledCrypto 0 = .ok () := by
  obtain ⟨-, hread, hreorder⟩ := card_signed spelledCrypto spelledCrypto_spells
  constructor
  · obtain ⟨read, hjson, hverify, -⟩ := hread _ _ _ 0 spelledCard_signed spelledCard_verify
    exact ⟨read, hjson, hverify⟩
  · have hreorders : Reorders (spelledCard spelledDevices) (spelledCard spelledDevices.reverse) :=
      ⟨rfl, rfl, rfl, rfl, (List.reverse_perm spelledDevices).symm⟩
    exact (hreorder _ _ 0 hreorders).mp spelledCard_verify

end AccountCard

end Pbr
