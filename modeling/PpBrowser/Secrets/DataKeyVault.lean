import Mathlib.Logic.Basic
import Mathlib.Tactic.SplitIfs
import PpBrowser.Base.BigEndian
import PpBrowser.Base.CryptoConstants
import PpBrowser.Base.EncryptedPayload

/-!
# DataKeyVault — the data key behind a PIN

`DataKeyVault.cpp` with the pieces of `PinKeyDeriver.cpp` and `FileCipher.cpp`
it wraps the key with. libsodium is outside, and
so is the disk but for the file.
-/

namespace Pbr

open EncryptedPayload

def kVaultFileVersion : UInt8 := 1
def kMaxProfileJsonFileBytes : Nat := 4 * 1024 * 1024

/-- `crypto_pwhash_SALTBYTES` and the interactive limits. -/
def kPwhashSaltBytes : Nat := 16
def kOpslimitInteractive : UInt64 := 2
def kMemlimitInteractive : UInt64 := 67108864

/-- What the vault calls of libsodium. -/
structure VaultCrypto where
  /-- `crypto_pwhash` of a PIN with salt and limits. -/
  pwhash : String → ByteVector → UInt64 → UInt64 → Option ByteVector
  /-- Key, plaintext, additional data, nonce. -/
  aeadEncrypt : ByteVector → ByteVector → String → ByteVector → Option ByteVector
  aeadDecrypt : ByteVector → ByteVector → String → ByteVector → Option ByteVector

/-- What a call finds outside: the disk's moods and fresh random bytes. -/
structure VaultWorld where
  readable : Bool := true
  writable : Bool := true
  salt : Vector UInt8 kPwhashSaltBytes
  nonce : Vector UInt8 kAeadNonceSize
  fresh : Vector UInt8 kDataEncryptionKeySize

/-! ## Ciphers -/

structure PinKdfParams where
  opslimit : UInt64
  memlimit : UInt64
  salt : ByteVector

/-- `PinKeyDeriver::GenerateParams`. -/
def generateParams (world : VaultWorld) : PinKdfParams := ⟨kOpslimitInteractive, kMemlimitInteractive, world.salt.toList⟩

/-- `FileCipher::BuildAad`. -/
def buildAad (purpose profileId : String) (schemaVersion : Nat) : String :=
  purpose ++ "|" ++ profileId ++ "|" ++ toString schemaVersion

/-- Little-endian `u64` fields. -/
def appendU64Le (value : UInt64) : ByteVector := (bigEndian 8 value.toNat).reverse

def readU64Le (bytes : ByteVector) (offset : Nat) : Roe UInt64 :=
  if bytes.length < offset + 8 then .error "Vault file truncated"
  else .ok (.ofNat (readBigEndian ((bytes.drop offset).take 8).reverse))

section

variable (K : VaultCrypto)

/-- `PinKeyDeriver::DeriveKek`. -/
def deriveKek (pin : String) (params : PinKdfParams) : Roe ByteVector :=
  if pin = "" then .error "PIN must not be empty"
  else if params.salt.length ≠ kPwhashSaltBytes then .error "Invalid PIN KDF salt size"
  else if params.opslimit = 0 ∨ params.memlimit = 0 then .error "Invalid PIN KDF limits"
  else
    match K.pwhash pin params.salt params.opslimit params.memlimit with
    | none => .error "PIN key derivation failed"
    | some kek => .ok kek

/-- `FileCipher::Encrypt`. -/
def fileEncrypt (world : VaultWorld) (dek plaintext : ByteVector) (aad : String) : Roe ByteVector :=
  if dek.length ≠ kDataEncryptionKeySize then .error "Invalid DEK size"
  else
    match K.aeadEncrypt dek plaintext aad world.nonce.toList with
    | none => .error "AEAD encrypt failed"
    | some ciphertext => .ok (kEncryptedPayloadVersion :: (world.nonce.toList ++ ciphertext))

/-- `FileCipher::Decrypt`. -/
def fileDecrypt (dek blob : ByteVector) (aad : String) : Roe ByteVector :=
  if dek.length ≠ kDataEncryptionKeySize then .error "Invalid DEK size"
  else
    match decodeBlob blob with
    | .error e => .error e
    | .ok decoded =>
      match K.aeadDecrypt dek decoded.ciphertext aad decoded.nonce with
      | none => .error "AEAD decrypt failed"
      | some plaintext => .ok plaintext

end

/-! ## The file -/

def kVaultMagic : ByteVector := stringBytes "PPBV"

def kVaultHeaderSize : Nat := 4 + 1 + 8 + 8 + kPwhashSaltBytes + kAeadNonceSize

def checkVaultHeader (bytes : ByteVector) : Roe Unit :=
  if bytes.length < kVaultHeaderSize + kAeadTagSize then .error "vault.bin too short"
  else if bytes.take 4 ≠ kVaultMagic then .error "Invalid vault.bin magic"
  else if bytes[4]? ≠ some kVaultFileVersion then .error "Unsupported vault.bin version"
  else .ok ()

/-- The bytes `WriteVaultFile` writes. -/
def vaultFileBytes (params : PinKdfParams) (wrappedDek : ByteVector) : Roe ByteVector :=
  if params.salt.length ≠ kPwhashSaltBytes then .error "Invalid vault salt"
  else
    match decodeBlob wrappedDek with
    | .error e => .error e
    | .ok decoded =>
      .ok (kVaultMagic ++ [kVaultFileVersion] ++ appendU64Le params.opslimit ++ appendU64Le params.memlimit ++
        params.salt ++ decoded.nonce ++ decoded.ciphertext)

def unwrapDekFromVaultBytes (K : VaultCrypto) (vaultBytes : ByteVector) (profileId pin : String) : Roe ByteVector := do
  checkVaultHeader vaultBytes
  let opslimit ← readU64Le vaultBytes 5
  let memlimit ← readU64Le vaultBytes 13
  let nonceOff := 21 + kPwhashSaltBytes
  let wrapped ← encodeBlob
    ⟨(vaultBytes.drop nonceOff).take kAeadNonceSize, vaultBytes.drop (nonceOff + kAeadNonceSize)⟩
  let kek ← deriveKek K pin ⟨opslimit, memlimit, (vaultBytes.drop 21).take kPwhashSaltBytes⟩
  match fileDecrypt K kek wrapped (buildAad "vault-dek" profileId 1) with
  | .error _ => .error "Incorrect PIN or corrupt vault"
  | .ok dek => .ok dek

/-! ## The vault -/

/-- A vault object and the `vault.bin` at its path; an empty `dek` is a locked
vault. -/
structure DataKeyVault where
  profileId : String
  file : Option ByteVector
  dek : ByteVector := []

namespace DataKeyVault

variable (K : VaultCrypto) (world : VaultWorld) (vault : DataKeyVault)

def exists_ : Bool := vault.file.isSome

def isUnlocked : Bool := vault.dek ≠ []

def lock : DataKeyVault := { vault with dek := [] }

def getDek : Roe ByteVector := if vault.dek = [] then .error "Profile vault is locked" else .ok vault.dek

def unlockWithDek (dek : ByteVector) : Roe DataKeyVault :=
  if dek.length ≠ kDataEncryptionKeySize then .error "Invalid DEK size" else .ok { vault with dek }

def wrapDek (kek dek : ByteVector) : Roe ByteVector :=
  fileEncrypt K world kek dek (buildAad "vault-dek" vault.profileId 1)

def readVaultFile : Roe ByteVector :=
  match vault.file with
  | none => .error "Failed to open vault.bin"
  | some bytes => do
    refuseIf (¬ world.readable ∨ kMaxProfileJsonFileBytes < bytes.length) "Failed to read vault.bin"
    checkVaultHeader bytes
    return bytes

/-- `AtomicFileWrite::Write` leaves the old file where it fails. -/
def writeVaultFile (params : PinKdfParams) (wrappedDek : ByteVector) : Roe DataKeyVault := do
  let bytes ← vaultFileBytes params wrappedDek
  if world.writable then .ok { vault with file := some bytes } else .error "Failed to write vault.bin"

/-- The wrap of `dek` behind `pin`, on disk. -/
def storeWrapped (pin : String) (dek : ByteVector) : Roe DataKeyVault := do
  let params := generateParams world
  let kek ← deriveKek K pin params
  let wrapped ← vault.wrapDek K world kek dek
  vault.writeVaultFile world params wrapped

def wrapAndStore (pin : String) (dek : ByteVector) : Roe DataKeyVault :=
  if dek.length ≠ kDataEncryptionKeySize then .error "Invalid DEK size"
  else do
    let stored ← vault.storeWrapped K world pin dek
    return { stored with dek }

def createWithDek (pin : String) (dek : ByteVector) : Roe DataKeyVault :=
  if vault.exists_ then .error "vault.bin already exists" else vault.wrapAndStore K world pin dek

def create (pin : String) : Roe DataKeyVault := vault.createWithDek K world pin world.fresh.toList

def unlock (pin : String) : Roe DataKeyVault := do
  let bytes ← vault.readVaultFile world
  let dek ← unwrapDekFromVaultBytes K bytes vault.profileId pin
  return { vault with dek }

/-- The key itself does not change, only its wrap does; a locked vault takes
it along. -/
def changePin (oldPin newPin : String) : Roe DataKeyVault := do
  let bytes ← vault.readVaultFile world
  let dek ← unwrapDekFromVaultBytes K bytes vault.profileId oldPin
  let stored ← vault.storeWrapped K world newPin dek
  return if stored.dek = [] then { stored with dek } else stored

end DataKeyVault

/-! ## What a file wraps -/

/-- The cipher does what it says, and only the right PIN unwraps. -/
structure VaultCrypto.Sound (K : VaultCrypto) : Prop where
  opens : ∀ key plaintext aad nonce ciphertext, K.aeadEncrypt key plaintext aad nonce = some ciphertext →
    K.aeadDecrypt key ciphertext aad nonce = some plaintext ∧ kAeadTagSize ≤ ciphertext.length
  onlyRight : ∀ pin pin' salt opslimit memlimit kek kek' ciphertext aad nonce dek dek',
    K.pwhash pin salt opslimit memlimit = some kek → K.pwhash pin' salt opslimit memlimit = some kek' →
    K.aeadDecrypt kek ciphertext aad nonce = some dek → K.aeadDecrypt kek' ciphertext aad nonce = some dek' → pin = pin'

theorem length_appendU64Le (value : UInt64) : (appendU64Le value).length = 8 := by
  rw [appendU64Le, List.length_reverse, length_bigEndian]

theorem take_drop_field {front field rest bytes : ByteVector} {offset size : Nat} (hoffset : front.length = offset)
    (hsize : field.length = size) (h : bytes = front ++ (field ++ rest)) : (bytes.drop offset).take size = field := by
  rw [h, ← hoffset, List.drop_left, ← hsize, List.take_left]

theorem readU64Le_append (front : ByteVector) {rest bytes : ByteVector} {value : UInt64} {offset : Nat} (hoffset : front.length = offset)
    (h : bytes = front ++ (appendU64Le value ++ rest)) : readU64Le bytes offset = .ok value := by
  have hvalue : readBigEndian (bigEndian 8 value.toNat) = value.toNat := by
    rw [readBigEndian_bigEndian]
    exact Nat.mod_eq_of_lt value.toNat_lt
  have hfield := take_drop_field hoffset (length_appendU64Le value) h
  have hlong : ¬ bytes.length < offset + 8 := by
    rw [h, List.length_append, List.length_append, length_appendU64Le]
    omega
  rw [readU64Le, if_neg hlong, hfield, appendU64Le, List.reverse_reverse, hvalue, UInt64.ofNat_toNat]

theorem deriveKek_ok {K : VaultCrypto} {pin : String} {params : PinKdfParams} {kek : ByteVector}
    (h : deriveKek K pin params = .ok kek) : pin ≠ "" ∧
    params.salt.length = kPwhashSaltBytes ∧ K.pwhash pin params.salt params.opslimit params.memlimit = some kek := by
  unfold deriveKek at h
  split_ifs at h with hpin hsalt _
  split at h
  · cases h
  next derived hderived =>
      obtain rfl := Except.ok.inj h
      exact ⟨hpin, not_not.mp hsalt, hderived⟩

theorem fileDecrypt_ok {K : VaultCrypto} {key blob dek : ByteVector} {aad : String} (h : fileDecrypt K key blob aad = .ok dek) :
    ∃ decoded, decodeBlob blob = .ok decoded ∧ K.aeadDecrypt key decoded.ciphertext aad decoded.nonce = some dek := by
  unfold fileDecrypt at h
  split_ifs at h
  split at h
  · cases h
  next decoded hdecoded =>
      split at h
      · cases h
      next plaintext hplaintext =>
          obtain rfl := Except.ok.inj h
          exact ⟨decoded, hdecoded, hplaintext⟩

/-- What `fileEncrypt` seals under a key, `fileDecrypt` opens. -/
theorem fileDecrypt_fileEncrypt {K : VaultCrypto} (hK : K.Sound) {world : VaultWorld} {key plaintext sealed : ByteVector}
    {aad : String} (h : fileEncrypt K world key plaintext aad = .ok sealed) :
    fileDecrypt K key sealed aad = .ok plaintext ∧ ∃ ciphertext, kAeadTagSize ≤ ciphertext.length ∧
      encodeBlob ⟨world.nonce.toList, ciphertext⟩ = .ok sealed ∧ decodeBlob sealed = .ok ⟨world.nonce.toList, ciphertext⟩ := by
  unfold fileEncrypt at h
  split_ifs at h with hsize
  split at h
  · cases h
  next ciphertext hciphertext =>
      obtain rfl := Except.ok.inj h
      obtain ⟨hopens, htag⟩ := hK.opens _ _ _ _ _ hciphertext
      have hnonce : world.nonce.toList.length = kAeadNonceSize := Vector.length_toList
      have hencode : encodeBlob ⟨world.nonce.toList, ciphertext⟩ =
          .ok (kEncryptedPayloadVersion :: (world.nonce.toList ++ ciphertext)) := by
        rw [encodeBlob, if_neg (not_not.mpr hnonce)]
      obtain ⟨bytes, hbytes, -, hdecode⟩ := @decodeBlob_encodeBlob ⟨world.nonce.toList, ciphertext⟩ hnonce htag
      obtain rfl := Except.ok.inj (hencode.symm.trans hbytes)
      refine ⟨?_, ciphertext, htag, hencode, hdecode⟩
      unfold fileDecrypt
      rw [if_neg hsize, hdecode]
      simp only [hopens]

theorem unwrap_ok {K : VaultCrypto} {bytes dek : ByteVector} {profileId pin : String} :
    unwrapDekFromVaultBytes K bytes profileId pin = .ok dek ↔ checkVaultHeader bytes = .ok () ∧
      ∃ opslimit, readU64Le bytes 5 = .ok opslimit ∧ ∃ memlimit, readU64Le bytes 13 = .ok memlimit ∧
      ∃ wrapped, encodeBlob ⟨(bytes.drop (21 + kPwhashSaltBytes)).take kAeadNonceSize,
        bytes.drop (21 + kPwhashSaltBytes + kAeadNonceSize)⟩ = .ok wrapped ∧
      ∃ kek, deriveKek K pin ⟨opslimit, memlimit, (bytes.drop 21).take kPwhashSaltBytes⟩ = .ok kek ∧
        fileDecrypt K kek wrapped (buildAad "vault-dek" profileId 1) = .ok dek := by
  simp only [unwrapDekFromVaultBytes, roe_bind_ok]
  constructor
  · intro ⟨_, hheader, opslimit, hops, memlimit, hmem, wrapped, hwrapped, kek, hkek, hdek⟩
    refine ⟨hheader, opslimit, hops, memlimit, hmem, wrapped, hwrapped, kek, hkek, ?_⟩
    split at hdek
    · cases hdek
    next opened hopened =>
        obtain rfl := Except.ok.inj hdek
        exact hopened
  · intro ⟨hheader, opslimit, hops, memlimit, hmem, wrapped, hwrapped, kek, hkek, hdek⟩
    refine ⟨(), hheader, opslimit, hops, memlimit, hmem, wrapped, hwrapped, kek, hkek, ?_⟩
    rw [hdek]

theorem pin_of_unwrap {K : VaultCrypto} (hK : K.Sound) {bytes : ByteVector} {profileId pin pin' : String} {dek dek' : ByteVector}
    (h : unwrapDekFromVaultBytes K bytes profileId pin = .ok dek)
    (h' : unwrapDekFromVaultBytes K bytes profileId pin' = .ok dek') : pin = pin' := by
  obtain ⟨-, opslimit, hops, memlimit, hmem, wrapped, hwrapped, kek, hkek, hdek⟩ := unwrap_ok.mp h
  obtain ⟨-, opslimit', hops', memlimit', hmem', wrapped', hwrapped', kek', hkek', hdek'⟩ := unwrap_ok.mp h'
  obtain rfl := Except.ok.inj (hops.symm.trans hops')
  obtain rfl := Except.ok.inj (hmem.symm.trans hmem')
  obtain rfl := Except.ok.inj (hwrapped.symm.trans hwrapped')
  obtain ⟨decoded, hdecoded, hopened⟩ := fileDecrypt_ok hdek
  obtain ⟨decoded', hdecoded', hopened'⟩ := fileDecrypt_ok hdek'
  obtain rfl := Except.ok.inj (hdecoded.symm.trans hdecoded')
  exact hK.onlyRight _ _ _ _ _ _ _ _ _ _ _ _ (deriveKek_ok hkek).2.2 (deriveKek_ok hkek').2.2 hopened hopened'

theorem unwrap_vaultFileBytes {K : VaultCrypto} (hK : K.Sound) {world : VaultWorld} {profileId pin : String}
    {params : PinKdfParams} {kek dek wrapped bytes : ByteVector} (hkek : deriveKek K pin params = .ok kek)
    (hwrapped : fileEncrypt K world kek dek (buildAad "vault-dek" profileId 1) = .ok wrapped)
    (hbytes : vaultFileBytes params wrapped = .ok bytes) : unwrapDekFromVaultBytes K bytes profileId pin = .ok dek := by
  obtain ⟨hopens, ciphertext, htag, hencode, hdecode⟩ := fileDecrypt_fileEncrypt hK hwrapped
  have hsalt := (deriveKek_ok hkek).2.1
  have hnonce : world.nonce.toList.length = kAeadNonceSize := Vector.length_toList
  unfold vaultFileBytes at hbytes
  rw [if_neg (not_not.mpr hsalt), hdecode] at hbytes
  have hlayout := (Except.ok.inj hbytes).symm
  simp only [List.append_assoc] at hlayout
  have hmagic : (kVaultMagic ++ [kVaultFileVersion]).length = 5 := by decide
  have hlimits : (kVaultMagic ++ [kVaultFileVersion] ++ appendU64Le params.opslimit).length = 13 := by
    rw [List.length_append, hmagic, length_appendU64Le]
  have hhead : (kVaultMagic ++ [kVaultFileVersion] ++ appendU64Le params.opslimit ++ appendU64Le params.memlimit).length =
      21 := by
    rw [List.length_append, hlimits, length_appendU64Le]
  have hkept : (kVaultMagic ++ [kVaultFileVersion] ++ appendU64Le params.opslimit ++ appendU64Le params.memlimit ++
      params.salt).length = 21 + kPwhashSaltBytes := by
    rw [List.length_append, hhead, hsalt]
  have hops : readU64Le bytes 5 = .ok params.opslimit := by
    apply readU64Le_append _ hmagic
    rw [hlayout, List.append_assoc]
  have hmem : readU64Le bytes 13 = .ok params.memlimit := by
    apply readU64Le_append _ hlimits
    rw [hlayout, List.append_assoc, List.append_assoc]
  have hsaltField : (bytes.drop 21).take kPwhashSaltBytes = params.salt := by
    apply take_drop_field hhead hsalt
    rw [hlayout]
    simp only [List.append_assoc]
    rfl
  have hnonceField : (bytes.drop (21 + kPwhashSaltBytes)).take kAeadNonceSize = world.nonce.toList := by
    apply take_drop_field hkept hnonce
    rw [hlayout]
    simp only [List.append_assoc]
    rfl
  have hrest : bytes.drop (21 + kPwhashSaltBytes + kAeadNonceSize) = ciphertext := by
    rw [← hnonce, ← hkept, ← List.length_append, hlayout]
    simp only [← List.append_assoc]
    rw [List.drop_left]
  have hheader : checkVaultHeader bytes = .ok () := by
    have hlength : bytes.length = kVaultHeaderSize + ciphertext.length := by
      have hmagicSize : kVaultMagic.length = 4 := by decide
      rw [hlayout]
      simp only [List.length_append, length_appendU64Le, hsalt, hnonce, hmagicSize, kVaultHeaderSize, List.length_singleton]
      omega
    have hfour : bytes.take 4 = kVaultMagic := by
      rw [hlayout]
      rfl
    have hversion : bytes[4]? = some kVaultFileVersion := by
      rw [hlayout]
      rfl
    rw [checkVaultHeader, if_neg (by omega), if_neg (not_not.mpr hfour), if_neg (not_not.mpr hversion)]
  rw [unwrap_ok, hsaltField, hnonceField, hrest]
  exact ⟨hheader, _, hops, _, hmem, wrapped, hencode, kek, hkek, hopens⟩

namespace DataKeyVault

variable {K : VaultCrypto} {world : VaultWorld} {vault after : DataKeyVault} {pin : String} {dek dek' : ByteVector}

/-- The PIN opens the file to this key. -/
def Opens (K : VaultCrypto) (vault : DataKeyVault) (pin : String) (dek : ByteVector) : Prop :=
  ∃ bytes, vault.file = some bytes ∧ unwrapDekFromVaultBytes K bytes vault.profileId pin = .ok dek

/-- The file wraps this key, behind some PIN. -/
def Wraps (K : VaultCrypto) (vault : DataKeyVault) (dek : ByteVector) : Prop := ∃ pin, vault.Opens K pin dek

theorem Wraps.unique (hK : K.Sound) (h : vault.Wraps K dek) (h' : vault.Wraps K dek') : dek = dek' := by
  obtain ⟨pin, bytes, hfile, hopen⟩ := h
  obtain ⟨pin', bytes', hfile', hopen'⟩ := h'
  obtain rfl := Option.mem_unique hfile hfile'
  obtain rfl := pin_of_unwrap hK hopen hopen'
  exact Except.ok.inj (hopen.symm.trans hopen')

theorem storeWrapped_ok (hK : K.Sound) (h : vault.storeWrapped K world pin dek = .ok after) :
    after.Opens K pin dek ∧ after.dek = vault.dek ∧ pin ≠ "" ∧ world.writable = true := by
  obtain ⟨kek, hkek, h⟩ := roe_bind_ok.mp h
  obtain ⟨wrapped, hwrapped, h⟩ := roe_bind_ok.mp h
  obtain ⟨bytes, hbytes, h⟩ := roe_bind_ok.mp h
  split_ifs at h with hwritable
  obtain rfl := Except.ok.inj h
  exact ⟨⟨bytes, rfl, unwrap_vaultFileBytes hK hkek hwrapped hbytes⟩, rfl, (deriveKek_ok hkek).1, hwritable⟩

theorem create_ok (hK : K.Sound) (h : vault.create K world pin = .ok after) : after.Opens K pin after.dek := by
  unfold create createWithDek wrapAndStore at h
  split_ifs at h
  obtain ⟨stored, hstored, h⟩ := roe_bind_ok.mp h
  obtain rfl := Except.ok.inj h
  exact (storeWrapped_ok hK hstored).1

theorem readVaultFile_ok {bytes : ByteVector} (h : vault.readVaultFile world = .ok bytes) :
    vault.file = some bytes ∧ world.readable = true := by
  unfold readVaultFile at h
  split at h
  · cases h
  next read hread =>
      obtain ⟨hrefused, h⟩ := refuseIf_bind_ok.mp h
      obtain ⟨_, -, h⟩ := roe_bind_ok.mp h
      obtain rfl := Except.ok.inj h
      exact ⟨hread, not_not.mp fun hunread => hrefused (.inl hunread)⟩

theorem unlock_ok (h : vault.unlock K world pin = .ok after) :
    vault.Opens K pin after.dek ∧ after = { vault with dek := after.dek } := by
  obtain ⟨bytes, hbytes, h⟩ := roe_bind_ok.mp h
  obtain ⟨dek, hdek, h⟩ := roe_bind_ok.mp h
  obtain rfl := Except.ok.inj h
  exact ⟨⟨bytes, (readVaultFile_ok hbytes).1, hdek⟩, rfl⟩

/-- A PIN change keeps the wrapped key; a locked vault is open after it. -/
theorem changePin_ok (hK : K.Sound) {oldPin newPin : String} (h : vault.changePin K world oldPin newPin = .ok after) :
    (newPin ≠ "" ∧ world.readable = true ∧ world.writable = true) ∧
      ∃ dek, vault.Opens K oldPin dek ∧ after.Opens K newPin dek ∧ after.dek = if vault.dek = [] then dek else vault.dek := by
  obtain ⟨bytes, hbytes, h⟩ := roe_bind_ok.mp h
  obtain ⟨dek, hdek, h⟩ := roe_bind_ok.mp h
  obtain ⟨stored, hstored, h⟩ := roe_bind_ok.mp h
  obtain ⟨hfile, hreadable⟩ := readVaultFile_ok hbytes
  obtain ⟨hopens, hkept, hnew, hwritable⟩ := storeWrapped_ok hK hstored
  obtain rfl := Except.ok.inj h
  refine ⟨⟨hnew, hreadable, hwritable⟩, dek, ⟨bytes, hfile, hdek⟩, ?_⟩
  rw [hkept]
  split_ifs with hlocked
  · exact ⟨hopens, rfl⟩
  · exact ⟨hopens, hkept⟩

end DataKeyVault

end Pbr
