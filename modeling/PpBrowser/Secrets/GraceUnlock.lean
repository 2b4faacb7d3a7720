import PpBrowser.Lib.Runs
import PpBrowser.Secrets.DataKeyVault

/-!
# GraceUnlock — the PIN grace window

`GraceUnlock.cpp` over the file half of `SealedDek.cpp`. The key to the
vault is sealed in a file and the sealing key kept in a secure store, one
written after the other. What the two pieces come to is a window: a key, a
boot and an end, or none.
-/

namespace Pbr

open Lib EncryptedPayload DataKeyVault

def kGraceEntryVersion : UInt8 := 1
def kGraceKeySize : Nat := 32
def kBootIdSize : Nat := 16
def kEntrySize : Nat := 1 + kGraceKeySize + kBootIdSize + 8
def kMaxGraceFileBytes : Nat := 4096

structure GraceClock where
  bootId : Vector UInt8 kBootIdSize
  monoSeconds : Int64
  deriving DecidableEq

/-- Without a clock no window can be measured. -/
def GraceClock.hasClock (now : GraceClock) : Bool := 0 < now.monoSeconds

def GraceClock.expiryFrom (now : GraceClock) (minutes : Int32) : Int64 := now.monoSeconds + minutes.toInt64 * 60

structure GraceEntry where
  key : ByteVector
  bootId : ByteVector
  expiresMono : Int64
  deriving DecidableEq

def encodeEntry (entry : GraceEntry) : ByteVector :=
  kGraceEntryVersion :: entry.key ++ (entry.bootId ++ appendU64Le entry.expiresMono.toUInt64)

def decodeEntry (bytes : ByteVector) : Option GraceEntry :=
  if bytes.length ≠ kEntrySize ∨ bytes.head? ≠ some kGraceEntryVersion then none
  else
    (readU64Le bytes (1 + kGraceKeySize + kBootIdSize)).toOption.map fun value =>
      { key := (bytes.drop 1).take kGraceKeySize
        bootId := (bytes.drop (1 + kGraceKeySize)).take kBootIdSize
        expiresMono := value.toInt64 }

/-! ## The file half -/

namespace SealedDek

variable (K : VaultCrypto) (aad : String)

/-- What `SealFile` writes. -/
def sealFile (key dek nonce : ByteVector) : Option ByteVector :=
  (K.aeadEncrypt key dek aad nonce).bind fun ciphertext => (encodeBlob ⟨nonce, ciphertext⟩).toOption

def openFile (file : Option ByteVector) (key : ByteVector) : Option ByteVector := do
  let bytes ← file
  if kMaxGraceFileBytes < bytes.length then none
  let blob ← (decodeBlob bytes).toOption
  let dek ← K.aeadDecrypt key blob.ciphertext aad blob.nonce
  if dek.length ≠ kDataEncryptionKeySize then none else some dek

end SealedDek

/-! ## The window -/

/-- How a call's write of the store's entry ends; `stopped` is the process
gone just before it. -/
inductive EntryWrite where
  | done | failed | stopped
  deriving DecidableEq, Repr

/-- What a call finds of the store and the disk. -/
structure GraceMood where
  /-- A lookup answers Found or Missing. -/
  readable : Bool := true
  fileReadable : Bool := true
  fileWritten : Bool := true
  entryWrite : EntryWrite := .done
  deletesEntry : Bool := true
  deletesFile : Bool := true

inductive GraceStatus where
  | found | expired | missing | unavailable
  deriving DecidableEq, Repr

structure GraceUnlock where
  supported : Bool := true
  profileId : String := ""
  /-- The store's entry and the file in the profile's directory. -/
  entry : Option ByteVector := none
  file : Option ByteVector := none
  deriving DecidableEq

namespace GraceUnlock

variable (K : VaultCrypto) (grace : GraceUnlock) (mood : GraceMood)

def aad : String := "grace|" ++ grace.profileId

def forget : GraceUnlock :=
  if !grace.supported then grace
  else
    { grace with
      entry := if mood.deletesEntry then none else grace.entry
      file := if mood.deletesFile then none else grace.file }

/-- The status with the key where it is found, and what is left. -/
def tryUnlock (now : GraceClock) : (GraceStatus × ByteVector) × GraceUnlock :=
  if !grace.supported || !now.hasClock then ((.missing, []), grace)
  else if !mood.readable then ((.unavailable, []), grace)
  else
    match grace.entry.bind decodeEntry with
    | none => ((.missing, []), grace.forget mood)
    | some entry =>
      if entry.expiresMono ≤ now.monoSeconds ∨ entry.bootId ≠ now.bootId.toList then
        ((.expired, []), grace.forget mood)
      else
        match SealedDek.openFile K grace.aad (if mood.fileReadable then grace.file else none) entry.key with
        | none => ((.missing, []), grace.forget mood)
        | some dek => ((.found, dek), grace)

/-- `key` and `nonce` are the random bytes drawn. -/
def remember (dek : ByteVector) (minutes : Int32) (now : GraceClock) (key : Vector UInt8 kGraceKeySize)
    (nonce : Vector UInt8 kAeadNonceSize) : GraceUnlock :=
  if !grace.supported then grace
  else if minutes ≤ 0 then grace.forget mood
  else if !now.hasClock || dek.length ≠ kDataEncryptionKeySize then grace
  else
    match SealedDek.sealFile K grace.aad key.toList dek nonce.toList with
    | none => grace
    | some bytes =>
      if !mood.fileWritten then grace
      else
        let grace := { grace with file := some bytes }
        match mood.entryWrite with
        | .done => { grace with entry := some (encodeEntry ⟨key.toList, now.bootId.toList, now.expiryFrom minutes⟩) }
        | .failed => grace.forget mood
        | .stopped => grace

def touch (minutes : Int32) (now : GraceClock) : GraceUnlock :=
  if !grace.supported then grace
  else if minutes ≤ 0 then grace.forget mood
  else if !now.hasClock || !mood.readable then grace
  else
    match grace.entry.bind decodeEntry with
    | none => grace
    | some entry =>
      if mood.entryWrite ≠ .done then grace
      else { grace with entry := some (encodeEntry ⟨entry.key, now.bootId.toList, now.expiryFrom minutes⟩) }

end GraceUnlock

/-! ## What the window should be -/

/-- A call, with what it finds; a PIN change and the engine's own refusal of
a key call `forget`. -/
inductive GraceCall where
  | remember (dek : ByteVector) (minutes : Int32) (now : GraceClock) (key : Vector UInt8 kGraceKeySize)
    (nonce : Vector UInt8 kAeadNonceSize)
  | touch (minutes : Int32) (now : GraceClock)
  | tryUnlock (now : GraceClock)
  | forget

/-- The key last remembered, and the boot and the end it is kept for. -/
structure GraceWindow where
  dek : ByteVector
  bootId : ByteVector
  ends : Int64
  deriving DecidableEq

def GraceWindow.openAt (window : GraceWindow) (now : GraceClock) : Bool :=
  window.bootId = now.bootId.toList ∧ now.monoSeconds < window.ends

/-- The window a call leaves, for calls that the store supports: set by a
Remember, moved by a Touch, gone by all that forgets and by a Remember that
is torn. -/
def GraceCall.window (K : VaultCrypto) (aad : String) (window : Option GraceWindow) (mood : GraceMood) :
    GraceCall → Option GraceWindow
  | .remember dek minutes now key nonce =>
    if minutes ≤ 0 then none
    else if !now.hasClock || dek.length ≠ kDataEncryptionKeySize || !mood.fileWritten ||
        (SealedDek.sealFile K aad key.toList dek nonce.toList).isNone then window
    else if mood.entryWrite = .done then some ⟨dek, now.bootId.toList, now.expiryFrom minutes⟩
    else none
  | .touch minutes now =>
    if minutes ≤ 0 then none
    else if !now.hasClock || !mood.readable || mood.entryWrite ≠ .done then window
    else window.map fun window => ⟨window.dek, now.bootId.toList, now.expiryFrom minutes⟩
  | .tryUnlock now =>
    if !now.hasClock || !mood.readable then window
    else if mood.fileReadable && window.any (·.openAt now) then window
    else none
  | .forget => none

def GraceCall.run (K : VaultCrypto) (grace : GraceUnlock) (mood : GraceMood) : GraceCall → GraceUnlock
  | .remember dek minutes now key nonce => grace.remember K mood dek minutes now key nonce
  | .touch minutes now => grace.touch mood minutes now
  | .tryUnlock now => (grace.tryUnlock K mood now).2
  | .forget => grace.forget mood

def GraceCall.keys : GraceCall → List ByteVector
  | .remember _ _ _ key _ => [key.toList]
  | _ => []

/-- The two pieces after some calls, beside the window the calls come to and
the sealing keys drawn. -/
structure GraceHistory where
  grace : GraceUnlock
  window : Option GraceWindow := none
  keys : List ByteVector := []

def GraceHistory.next (K : VaultCrypto) (history : GraceHistory) (call : GraceMood × GraceCall) : GraceHistory where
  grace := call.2.run K history.grace call.1
  window := call.2.window K history.grace.aad history.window call.1
  keys := call.2.keys ++ history.keys

/-- A key drawn is a new one, and of two deletes one is done. -/
def GraceHistory.Proper (history : GraceHistory) (call : GraceMood × GraceCall) : Prop :=
  (∀ key ∈ call.2.keys, key ∉ history.keys) ∧ (call.1.deletesEntry = true ∨ call.1.deletesFile = true)

instance (history : GraceHistory) (call : GraceMood × GraceCall) : Decidable (history.Proper call) :=
  inferInstanceAs (Decidable (_ ∧ _))

/-- A sealing cipher that is right: what a key seals that key opens and no
other does. -/
structure VaultCrypto.Seals (K : VaultCrypto) : Prop where
  opens : ∀ key plaintext aad nonce ciphertext, K.aeadEncrypt key plaintext aad nonce = some ciphertext →
    K.aeadDecrypt key ciphertext aad nonce = some plaintext ∧ ciphertext.length = plaintext.length + kAeadTagSize
  onlyKey : ∀ key key' plaintext plaintext' aad nonce ciphertext,
    K.aeadEncrypt key plaintext aad nonce = some ciphertext →
    K.aeadDecrypt key' ciphertext aad nonce = some plaintext' → key' = key

/-! ## The grace window opens while it should -/

variable {K : VaultCrypto} {grace : GraceUnlock} {mood : GraceMood} {now : GraceClock} {entry : Option GraceEntry}
  {file : Option (ByteVector × ByteVector)} {keys : List ByteVector} {dek : ByteVector} {minutes : Int32}

theorem decodeEntry_encodeEntry {entry : GraceEntry} (hkey : entry.key.length = kGraceKeySize)
    (hboot : entry.bootId.length = kBootIdSize) : decodeEntry (encodeEntry entry) = some entry := by
  have hlength : (encodeEntry entry).length = kEntrySize := by
    simp [encodeEntry, hkey, hboot, length_appendU64Le, kEntrySize]
    omega
  have hread : readU64Le (encodeEntry entry) (1 + kGraceKeySize + kBootIdSize) = .ok entry.expiresMono.toUInt64 := by
    apply @readU64Le_append (kGraceEntryVersion :: entry.key ++ entry.bootId) []
    · simp [hkey, hboot]
      omega
    · simp [encodeEntry]
  have hkeyField : ((encodeEntry entry).drop 1).take kGraceKeySize = entry.key :=
    @take_drop_field [kGraceEntryVersion] _ _ _ _ _ rfl hkey rfl
  have hbootField : ((encodeEntry entry).drop (1 + kGraceKeySize)).take kBootIdSize = entry.bootId :=
    @take_drop_field (kGraceEntryVersion :: entry.key) _ _ _ _ _ (by simp [hkey, Nat.add_comm]) hboot rfl
  have hhead : (encodeEntry entry).head? = some kGraceEntryVersion := rfl
  rw [decodeEntry, if_neg (not_or.mpr ⟨not_not.mpr hlength, not_not.mpr hhead⟩), hread, hkeyField, hbootField]
  simp [Except.toOption]

/-- The pieces: the store's entry, and the key the file is sealed under with
the key sealed. -/
structure Holds (K : VaultCrypto) (grace : GraceUnlock) (keys : List ByteVector) (entry : Option GraceEntry)
    (file : Option (ByteVector × ByteVector)) : Prop where
  stored : grace.entry = entry.map encodeEntry
  sizes : ∀ e ∈ entry, e.key.length = kGraceKeySize ∧ e.bootId.length = kBootIdSize
  noFile : file = none → grace.file = none
  sealed : ∀ f ∈ file, ∃ nonce : Vector UInt8 kAeadNonceSize, f.2.length = kDataEncryptionKeySize ∧
    SealedDek.sealFile K grace.aad f.1 f.2 nonce.toList = grace.file ∧ grace.file.isSome
  entryKey : ∀ e ∈ entry, e.key ∈ keys
  fileKey : ∀ f ∈ file, f.1 ∈ keys

/-- The window two pieces come to. -/
def windowOf (entry : Option GraceEntry) (file : Option (ByteVector × ByteVector)) : Option GraceWindow :=
  entry.bind fun e => file.bind fun f => if f.1 = e.key then some ⟨f.2, e.bootId, e.expiresMono⟩ else none

theorem Holds.openFile (hK : K.Seals) (h : Holds K grace keys entry file) {key : ByteVector} :
    SealedDek.openFile K grace.aad grace.file key = file.bind fun f => if f.1 = key then some f.2 else none := by
  cases hfile : file with
  | none => simp [SealedDek.openFile, h.noFile hfile]
  | some f =>
    obtain ⟨nonce, hsize, hseal, hsome⟩ := h.sealed f hfile
    obtain ⟨bytes, hbytes⟩ := Option.isSome_iff_exists.mp hsome
    rw [hbytes] at hseal ⊢
    obtain ⟨ciphertext, hcipher, hencode⟩ := Option.bind_eq_some_iff.mp hseal
    obtain ⟨hopens, hlength⟩ := hK.opens _ _ _ _ _ hcipher
    have hnonce : nonce.toList.length = kAeadNonceSize := Vector.length_toList
    obtain ⟨bytes', hencode', -, hdecode⟩ := @decodeBlob_encodeBlob ⟨nonce.toList, ciphertext⟩ hnonce
      (by simp [hlength])
    have hsame : bytes' = bytes := by
      rw [hencode'] at hencode
      exact Option.some.inj hencode
    subst hsame
    have hshort : bytes'.length ≤ kMaxGraceFileBytes := by
      rw [encodeBlob, if_neg (not_not.mpr hnonce)] at hencode'
      rw [← Except.ok.inj hencode', List.length_cons, List.length_append, hnonce, hlength, hsize]
      decide
    simp only [SealedDek.openFile, Option.bind_eq_bind, Option.bind_some, if_neg (Nat.not_lt.mpr hshort), hdecode]
    by_cases hkey : f.1 = key
    · subst hkey
      simp [Except.toOption, hopens, hsize]
    · have hrefused : K.aeadDecrypt key ciphertext grace.aad nonce.toList = none := by
        cases hother : K.aeadDecrypt key ciphertext grace.aad nonce.toList with
        | none => rfl
        | some plaintext => exact absurd (hK.onlyKey _ _ _ _ _ _ _ hcipher hother).symm hkey
      simp [Except.toOption, hrefused, hkey]

theorem Holds.decoded (h : Holds K grace keys entry file) : grace.entry.bind decodeEntry = entry := by
  rw [h.stored]
  cases hentry : entry with
  | none => rfl
  | some e => exact decodeEntry_encodeEntry (h.sizes e hentry).1 (h.sizes e hentry).2

/-! ## One call -/

section

variable (h : Holds K grace keys entry file)
include h

/-- Of two pieces one is deleted: no window is left. -/
theorem Holds.forget (hsupported : grace.supported = true)
    (hdeletes : mood.deletesEntry = true ∨ mood.deletesFile = true) :
    ∃ entry' file', Holds K (grace.forget mood) keys entry' file' ∧ windowOf entry' file' = none := by
  refine ⟨if mood.deletesEntry then none else entry, if mood.deletesFile then none else file, ?_, ?_⟩
  · rw [GraceUnlock.forget, if_neg (by simp [hsupported])]
    refine ⟨?_, ?_, ?_, ?_, ?_, ?_⟩
    · dsimp only
      split
      · rfl
      · exact h.stored
    · split
      · simp
      · exact h.sizes
    · intro hnone
      dsimp only
      split
      · rfl
      · rename_i hkept
        exact h.noFile (by simpa [hkept] using hnone)
    · intro f hf
      split at hf
      · cases hf
      · rename_i hkept
        rw [if_neg hkept]
        exact h.sealed f hf
    · split
      · simp
      · exact h.entryKey
    · split
      · simp
      · exact h.fileKey
  · rcases hdeletes with hdeletes | hdeletes
    · rw [if_pos hdeletes, windowOf, Option.bind_none]
    · rw [if_pos hdeletes, windowOf]
      cases entry <;> simp

theorem Holds.keys_mono {drawn : List ByteVector} : Holds K grace (drawn ++ keys) entry file :=
  ⟨h.stored, h.sizes, h.noFile, h.sealed, fun e he => List.mem_append_right _ (h.entryKey e he),
    fun f hf => List.mem_append_right _ (h.fileKey f hf)⟩

/-- A file sealed under a new key goes with no entry before it. -/
theorem Holds.sealFile {key : Vector UInt8 kGraceKeySize}
    {nonce : Vector UInt8 kAeadNonceSize} {bytes : ByteVector} (hdek : dek.length = kDataEncryptionKeySize)
    (hseal : SealedDek.sealFile K grace.aad key.toList dek nonce.toList = some bytes) (hnew : key.toList ∉ keys) :
    Holds K { grace with file := some bytes } ([key.toList] ++ keys) entry (some (key.toList, dek)) ∧
      windowOf entry (some (key.toList, dek)) = none := by
  refine ⟨⟨h.stored, h.sizes, nofun, ?_, h.keys_mono.entryKey, ?_⟩, ?_⟩
  · intro f hf
    obtain rfl := Option.mem_some_iff.mp hf
    exact ⟨nonce, hdek, hseal, rfl⟩
  · intro f hf
    obtain rfl := Option.mem_some_iff.mp hf
    exact List.mem_cons_self
  · cases hentry : entry with
    | none => rfl
    | some e =>
      have hother : key.toList ≠ e.key := fun heq => hnew (heq ▸ h.entryKey e hentry)
      simp [windowOf, hother]

theorem Holds.writeEntry {e : GraceEntry} (hkey : e.key.length = kGraceKeySize)
    (hboot : e.bootId.length = kBootIdSize) (hdrawn : e.key ∈ keys) :
    Holds K { grace with entry := some (encodeEntry e) } keys (some e) file := by
  refine ⟨rfl, ?_, h.noFile, h.sealed, ?_, h.fileKey⟩
  · intro e' he'
    obtain rfl := Option.mem_some_iff.mp he'
    exact ⟨hkey, hboot⟩
  · intro e' he'
    obtain rfl := Option.mem_some_iff.mp he'
    exact hdrawn

end

/-- The window as a TryUnlock finds it: where it is open, the answer is its
key and nothing changes; else both pieces are deleted. -/
theorem Holds.tryUnlock (hK : K.Seals) (h : Holds K grace keys entry file) (hsupported : grace.supported = true)
    (hclock : now.hasClock = true) (hreadable : mood.readable = true) :
    (∃ window, windowOf entry file = some window ∧ window.openAt now = true ∧ mood.fileReadable = true ∧
      grace.tryUnlock K mood now = ((.found, window.dek), grace)) ∨
    ((mood.fileReadable && (windowOf entry file).any (·.openAt now)) = false ∧
      ∃ status, status ≠ .found ∧ status ≠ .unavailable ∧
        grace.tryUnlock K mood now = ((status, []), grace.forget mood)) := by
  rw [GraceUnlock.tryUnlock, if_neg (by simp [hsupported, hclock]), if_neg (by simp [hreadable]), h.decoded]
  cases hentry : entry with
  | none => exact .inr ⟨by simp [windowOf], .missing, by simp, by simp, rfl⟩
  | some e =>
    dsimp only
    by_cases hclosed : e.expiresMono ≤ now.monoSeconds ∨ e.bootId ≠ now.bootId.toList
    · rw [if_pos hclosed]
      refine .inr ⟨?_, .expired, by simp, by simp, rfl⟩
      have hshut : ∀ dek, GraceWindow.openAt ⟨dek, e.bootId, e.expiresMono⟩ now = false := by
        intro dek
        rcases hclosed with hclosed | hclosed
        · simp [GraceWindow.openAt, Int64.not_lt.mpr hclosed]
        · simp [GraceWindow.openAt, hclosed]
      cases file with
      | none => simp [windowOf]
      | some f => by_cases hkey : f.1 = e.key <;> simp [windowOf, hkey, hshut]
    · rw [if_neg hclosed]
      rw [not_or, not_not, Int64.not_le] at hclosed
      cases hfile : mood.fileReadable with
      | false => exact .inr ⟨rfl, .missing, by simp, by simp, by simp [SealedDek.openFile]⟩
      | true =>
        rw [if_pos rfl, h.openFile hK]
        cases hpiece : file with
        | none => exact .inr ⟨by simp [windowOf], .missing, by simp, by simp, by simp⟩
        | some f =>
          by_cases hkey : f.1 = e.key
          · exact .inl ⟨⟨f.2, e.bootId, e.expiresMono⟩, by simp [windowOf, hkey],
              by simp [GraceWindow.openAt, hclosed], rfl, by simp [hkey]⟩
          · exact .inr ⟨by simp [windowOf, hkey], .missing, by simp, by simp, by simp [hkey]⟩

/-! ## Runs -/

/-- The pieces are those of the window the calls come to. -/
def GraceHistory.Sound (K : VaultCrypto) (history : GraceHistory) : Prop :=
  ∃ entry file, Holds K history.grace history.keys entry file ∧ windowOf entry file = history.window

namespace GraceHistory

variable {history : GraceHistory} {call : GraceMood × GraceCall}

theorem Sound.next (hK : K.Seals) (h : history.Sound K) (hsupported : history.grace.supported = true)
    (hproper : history.Proper call) : (history.next K call).Sound K := by
  obtain ⟨entry, file, hholds, hwindow⟩ := h
  obtain ⟨mood, call⟩ := call
  obtain ⟨hnew, hdeletes⟩ := hproper
  have hforget := hholds.forget hsupported hdeletes
  cases call with
  | forget => exact hforget
  | tryUnlock now =>
    show ∃ entry file, Holds K (history.grace.tryUnlock K mood now).2 history.keys entry file ∧
      windowOf entry file = GraceCall.window K history.grace.aad history.window mood (.tryUnlock now)
    by_cases hskip : !now.hasClock || !mood.readable
    · have hstays : (history.grace.tryUnlock K mood now).2 = history.grace := by
        simp only [GraceUnlock.tryUnlock, hsupported]
        split_ifs <;> simp_all
      rw [hstays, GraceCall.window, if_pos hskip]
      exact ⟨entry, file, hholds, hwindow⟩
    · rw [GraceCall.window, if_neg hskip]
      simp only [Bool.or_eq_true, Bool.not_eq_true', not_or, Bool.not_eq_false] at hskip
      rcases hholds.tryUnlock hK hsupported hskip.1 hskip.2 with
        ⟨window, hsome, hopen, hfile, htry⟩ | ⟨hshut, status, -, -, htry⟩
      · rw [htry, ← hwindow, hsome, if_pos (by simp [hfile, hopen])]
        exact ⟨entry, file, hholds, hsome⟩
      · rw [htry, ← hwindow, if_neg (by simp [hshut])]
        exact hforget
  | touch minutes now =>
    show ∃ entry file, Holds K (history.grace.touch mood minutes now) history.keys entry file ∧
      windowOf entry file = GraceCall.window K history.grace.aad history.window mood (.touch minutes now)
    rw [GraceUnlock.touch, if_neg (by simp [hsupported]), GraceCall.window]
    by_cases hzero : minutes ≤ 0
    · rw [if_pos hzero, if_pos hzero]
      exact hforget
    rw [if_neg hzero, if_neg hzero, hholds.decoded]
    by_cases hskip : !now.hasClock || !mood.readable
    · rw [if_pos hskip, if_pos (by simp_all)]
      exact ⟨entry, file, hholds, hwindow⟩
    rw [if_neg hskip]
    by_cases hwrite : mood.entryWrite = .done
    · rw [if_neg (by simp_all)]
      cases entry with
      | none =>
        rw [← hwindow]
        exact ⟨none, file, hholds, rfl⟩
      | some e =>
        have hboot : now.bootId.toList.length = kBootIdSize := Vector.length_toList
        simp only [hwrite, ne_eq, not_true_eq_false, if_false]
        refine ⟨_, file, hholds.writeEntry (e := ⟨e.key, _, _⟩) (hholds.sizes e rfl).1 hboot
          (hholds.entryKey e rfl), ?_⟩
        rw [← hwindow]
        cases file with
        | none => rfl
        | some f => by_cases hkey : f.1 = e.key <;> simp [windowOf, hkey]
    · rw [if_pos (by simp [hwrite])]
      refine ⟨entry, file, ?_, hwindow⟩
      cases entry with
      | none => exact hholds
      | some e =>
        simp only [hwrite, ne_eq, not_false_eq_true, if_true]
        exact hholds
  | remember dek minutes now key nonce =>
    have hnew : key.toList ∉ history.keys := hnew _ List.mem_cons_self
    show ∃ entry file, Holds K (history.grace.remember K mood dek minutes now key nonce)
      ([key.toList] ++ history.keys) entry file ∧
      windowOf entry file =
        GraceCall.window K history.grace.aad history.window mood (.remember dek minutes now key nonce)
    rw [GraceUnlock.remember, if_neg (by simp [hsupported]), GraceCall.window]
    by_cases hzero : minutes ≤ 0
    · rw [if_pos hzero, if_pos hzero]
      obtain ⟨entry', file', hleft, hnone⟩ := hforget
      exact ⟨entry', file', hleft.keys_mono, hnone⟩
    rw [if_neg hzero, if_neg hzero]
    by_cases hskip : !now.hasClock || dek.length ≠ kDataEncryptionKeySize
    · rw [if_pos hskip, if_pos (by simp_all)]
      exact ⟨entry, file, hholds.keys_mono, hwindow⟩
    rw [if_neg hskip]
    cases hseal : SealedDek.sealFile K history.grace.aad key.toList dek nonce.toList with
    | none =>
      rw [if_pos (by simp)]
      exact ⟨entry, file, hholds.keys_mono, hwindow⟩
    | some bytes =>
      cases hfile : mood.fileWritten with
      | false => exact ⟨entry, file, hholds.keys_mono, by simpa using hwindow⟩
      | true =>
        have hdek : dek.length = kDataEncryptionKeySize := by
          simp only [Bool.or_eq_true, decide_eq_true_eq, not_or, not_not] at hskip
          exact hskip.2
        obtain ⟨htorn, hnone⟩ := hholds.sealFile hdek hseal hnew
        rw [if_neg (by simp_all)]
        cases hwrite : mood.entryWrite with
        | done =>
          have hboot : now.bootId.toList.length = kBootIdSize := Vector.length_toList
          have hkey : key.toList.length = kGraceKeySize := Vector.length_toList
          exact ⟨_, _, htorn.writeEntry (e := ⟨key.toList, _, _⟩) hkey hboot List.mem_cons_self, by simp [windowOf]⟩
        | stopped => exact ⟨entry, _, htorn, hnone⟩
        | failed => exact htorn.forget hsupported hdeletes

theorem next_supported : (history.next K call).grace.supported = history.grace.supported := by
  obtain ⟨mood, call⟩ := call
  have hforget : ∀ grace : GraceUnlock, (grace.forget mood).supported = grace.supported := by
    intro grace
    rw [GraceUnlock.forget]
    split <;> rfl
  cases call with
  | forget => exact hforget _
  | _ =>
    simp only [next, GraceCall.run, GraceUnlock.tryUnlock, GraceUnlock.touch, GraceUnlock.remember]
    repeat' split
    all_goals first | rfl | exact hforget _

/-- Over one entry and file, whatever was called and found, torn and
forgotten before: TryUnlock answers Found exactly while the window that the
calls come to is open, with its key, where the pieces can be read; and
Unavailable changes nothing. -/
theorem grace_window_judged (hK : K.Seals) {profileId : String} {calls : List (GraceMood × GraceCall)}
    (h : Admits (next K) Proper { grace := { profileId } } calls) :
    ∀ history ∈ states (next K) { grace := { profileId } } calls, ∀ mood now,
      (∀ dek, (history.grace.tryUnlock K mood now).1 = (.found, dek) ↔
        now.hasClock = true ∧ mood.readable = true ∧ mood.fileReadable = true ∧
          ∃ window, history.window = some window ∧ window.openAt now = true ∧ window.dek = dek) ∧
      ((history.grace.tryUnlock K mood now).1.1 = .unavailable →
        (history.grace.tryUnlock K mood now).2 = history.grace) := by
  have hrun : ∀ history ∈ states (next K) { grace := { profileId } } calls,
      history.Sound K ∧ history.grace.supported = true := by
    have hstep : ∀ (history : GraceHistory) (call : GraceMood × GraceCall),
        (history.Sound K ∧ history.grace.supported = true) → history.Proper call →
        ((history.next K call).Sound K ∧ (history.next K call).grace.supported = true) := by
      intro history call hboth hproper
      exact ⟨hboth.1.next hK hboth.2 hproper, next_supported.trans hboth.2⟩
    exact h.invariant hstep ⟨⟨none, none, ⟨rfl, nofun, fun _ => rfl, nofun, nofun, nofun⟩, rfl⟩, rfl⟩
  intro history hhistory mood now
  obtain ⟨⟨entry, file, hholds, hwindow⟩, hsupported⟩ := hrun history hhistory
  by_cases hskip : now.hasClock = true ∧ mood.readable = true
  · rcases hholds.tryUnlock hK hsupported hskip.1 hskip.2 with
      ⟨window, hsome, hopen, hfile, htry⟩ | ⟨hshut, status, hstatus, hreads, htry⟩
    · rw [htry, ← hwindow, hsome]
      simp [hskip, hfile, hopen]
    · rw [htry, ← hwindow]
      have hnone : ∀ window, windowOf entry file = some window → window.openAt now = true →
          mood.fileReadable = false := by
        intro window hsome hopen
        simpa [hsome, hopen] using hshut
      refine ⟨?_, fun hunavailable => absurd hunavailable hreads⟩
      intro dek
      constructor
      · intro hfound
        exact absurd (congrArg Prod.fst hfound) hstatus
      · rintro ⟨-, -, hfile, window, hsome, hopen, -⟩
        exact absurd (hnone window hsome hopen) (by simp [hfile])
  · have hstays : ∃ status, status ≠ .found ∧ history.grace.tryUnlock K mood now = ((status, []), history.grace) := by
      rw [GraceUnlock.tryUnlock]
      by_cases hclock : now.hasClock = true
      · rw [if_neg (by simp [hsupported, hclock]), if_pos (by simp_all)]
        exact ⟨.unavailable, by simp, rfl⟩
      · rw [if_pos (by simp [hclock])]
        exact ⟨.missing, by simp, rfl⟩
    obtain ⟨status, hstatus, htry⟩ := hstays
    rw [htry]
    refine ⟨?_, fun _ => rfl⟩
    intro dek
    constructor
    · intro hfound
      exact absurd (congrArg Prod.fst hfound) hstatus
    · rintro ⟨hclock, hreadable, -⟩
      exact absurd ⟨hclock, hreadable⟩ hskip

/-- A cipher for a run: keys of one byte repeated, which tag what they seal. -/
def byteCipher : VaultCrypto where
  pwhash _ _ _ _ := none
  aeadEncrypt key plaintext _ _ :=
    if key = List.replicate 32 (key.headD 0) then some (List.replicate 16 (key.headD 0) ++ plaintext) else none
  aeadDecrypt key ciphertext _ _ :=
    if key = List.replicate 32 (key.headD 0) ∧ ciphertext.take 16 = List.replicate 16 (key.headD 0) then
      some (ciphertext.drop 16)
    else none

theorem byteCipher_seals : byteCipher.Seals where
  opens key plaintext aad nonce ciphertext h := by
    simp only [byteCipher, Option.ite_none_right_eq_some, Option.some.injEq] at h ⊢
    obtain ⟨hkey, rfl⟩ := h
    refine ⟨⟨⟨hkey, List.take_left' (List.length_replicate ..)⟩, List.drop_left' (List.length_replicate ..)⟩, ?_⟩
    rw [List.length_append, List.length_replicate, Nat.add_comm]
    rfl
  onlyKey key key' plaintext plaintext' aad nonce ciphertext h h' := by
    simp only [byteCipher, Option.ite_none_right_eq_some, Option.some.injEq] at h h'
    obtain ⟨hkey, rfl⟩ := h
    obtain ⟨⟨hkey', htag⟩, -⟩ := h'
    rw [List.take_left' (List.length_replicate ..)] at htag
    have hbyte : key.headD 0 = key'.headD 0 := (List.replicate_inj.mp htag).2.resolve_left (by decide)
    rw [hkey, hkey', hbyte]

/-- Remembered for a quarter of an hour, tried a minute on. -/
theorem grace_window_judged_sample :
    ((GraceHistory.next byteCipher { grace := { profileId := "default" } }
      ({}, .remember (List.replicate 32 7) 15 ⟨.replicate _ 1, 100⟩ (.replicate _ 5) (.replicate _ 0))).grace.tryUnlock
        byteCipher {} ⟨.replicate _ 1, 160⟩).1 = (.found, List.replicate 32 7) :=
  ((@grace_window_judged _ byteCipher_seals "default"
    [({}, .remember (List.replicate 32 7) 15 ⟨.replicate _ 1, 100⟩ (.replicate _ 5) (.replicate _ 0))]
    (by decide) _ foldl_mem_states {} ⟨.replicate _ 1, 160⟩).1 _).mpr
      ⟨by decide, rfl, rfl, ⟨List.replicate 32 7, List.replicate 16 1, 1000⟩, by decide, by decide, rfl⟩

end GraceHistory

end Pbr
