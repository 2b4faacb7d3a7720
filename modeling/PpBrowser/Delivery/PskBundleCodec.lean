import PpBrowser.Delivery.PublicPskLockCoordinator
import PpBrowser.Lib.Base64
import PpBrowser.Lib.Json
import PpBrowser.Lib.Rows

/-!
# PskBundleCodec — a private chat's key as a bundle to paste

`PskBundleCodec.cpp` (E020): the key bundle two people hand each other, what
a bundle must be, and how retired keys are merged and capped. Base64 and the
JSON text are called here and defined elsewhere.
-/

namespace Pbr

open Lib.Json

/-- What the bundle code calls and does not define: base64, and JSON text
with its size in bytes. -/
structure BundleText (Text : Type) where
  base64Encode : ByteVector → String
  base64Decode : String → Roe ByteVector
  dumpJson : Object → Text
  tryParseObject : Text → Option Object
  size : Text → Nat

/-- The characters a base64 text may have cost at most two bytes in JSON. -/
def Base64Char (c : Char) : Prop := charSize c ≤ 2

/-- Base64 reads back what it wrote, four characters for three bytes; JSON
text reads back the object, and is written without spaces. -/
structure BundleText.Sound {Text : Type} (C : BundleText Text) : Prop where
  base64 : ∀ bytes, C.base64Decode (C.base64Encode bytes) = .ok bytes
  base64_text : ∀ {text bytes}, C.base64Decode text = .ok bytes →
    text.toList.length = 4 * ((bytes.length + 2) / 3) ∧ ∀ c ∈ text.toList, Base64Char c
  json : ∀ object, C.tryParseObject (C.dumpJson object) = some object
  json_size : ∀ object : Object, C.size (C.dumpJson object) ≤ object.value.textSize

/-- A key of the size the session deriver takes. -/
abbrev MasterPsk := { bytes : ByteVector // bytes.length = kMasterPskSize }

structure PskBundleV1 where
  channel : CryptoChannel
  activeEpoch : Nat
  masterPskB64 : String
  retiredEpochs : List RetiredPskEntry
  deriving DecidableEq, Repr

def cryptoChannelToString : CryptoChannel → String
  | .e2e => "e2e"
  | .e2ePublic => "e2e_public"

namespace PskBundleCodec

variable {Text : Type} (C : BundleText Text)

def isTrimmed (c : Char) : Bool := c = ' ' || c = '\n' || c = '\r' || c = '\t'

def trimAscii (text : String) : String :=
  String.ofList ((text.toList.dropWhile isTrimmed).reverse.dropWhile isTrimmed).reverse

def channelFromBundleString (value : String) : CryptoChannel :=
  if value = "e2e_public" then .e2ePublic else .e2e

def validateMasterPskB64 (masterPskB64 : String) : Roe Unit := do
  let bytes ← C.base64Decode masterPskB64
  if bytes.length ≠ kMasterPskSize then throw "PSK must decode to 32 bytes"

/-- `DecodeRawBase64`, of which the imports keep the text. -/
def decodeRawBase64 (text : String) : Roe String := do
  let trimmed := trimAscii text
  if trimmed = "" then throw "Empty PSK paste"
  let bytes ← C.base64Decode trimmed
  if bytes.length ≠ kMasterPskSize then throw "PSK must decode to 32 bytes"
  return trimmed

/-! ## What a bundle must be -/

/-- One retired key, after those whose epochs were `seen`, the last of them
`lastEpoch`. -/
def checkRetired (activeEpoch lastEpoch : Nat) (seen : List Nat) (entry : RetiredPskEntry) :
    Roe Unit := do
  if entry.epoch = 0 ∨ entry.epoch ≥ activeEpoch then throw "Invalid retired epoch in bundle"
  if entry.epoch ∈ seen then throw "Duplicate retired epoch in bundle"
  if entry.epoch ≤ lastEpoch then throw "Retired epochs must be strictly increasing"
  validateMasterPskB64 C entry.masterPskB64

def validateRetired (activeEpoch : Nat) : Nat → List Nat → List RetiredPskEntry → Roe Unit
  | _, _, [] => .ok ()
  | lastEpoch, seen, entry :: rest => do
    checkRetired C activeEpoch lastEpoch seen entry
    validateRetired activeEpoch entry.epoch (entry.epoch :: seen) rest

def validateBundle (bundle : PskBundleV1) : Roe Unit := do
  if bundle.activeEpoch = 0 then throw "PSK bundle missing active_epoch"
  validateMasterPskB64 C bundle.masterPskB64
  if bundle.retiredEpochs.length > kMaxRetiredPskEpochs then
    throw "PSK bundle retired tail exceeds limit"
  validateRetired C bundle.activeEpoch 0 [] bundle.retiredEpochs

/-! ## JSON -/

/-- An integer that fits an `int64_t`. -/
def getInt64 (o : Object) (key : String) : Option Int :=
  (o.getInt key).filter fun n => decide (-2 ^ 63 ≤ n ∧ n < 2 ^ 63)

def retiredFromJson (item : Object) : RetiredPskEntry where
  epoch := u32 ((item.getNonNegInt "epoch").getD 0)
  masterPskB64 := (item.getString "master_psk_b64").getD ""
  retiredAt := (getInt64 item "retired_at").getD 0

/-- The loop over `retired_epochs`: what is no object is passed over. -/
def readRetired (activeEpoch : Nat) : Nat → List Nat → List Value → Roe (List RetiredPskEntry)
  | _, _, [] => .ok []
  | lastEpoch, seen, value :: rest =>
    match value.asObject with
    | none => readRetired activeEpoch lastEpoch seen rest
    | some item => do
      let entry := retiredFromJson item
      checkRetired C activeEpoch lastEpoch seen entry
      let tail ← readRetired activeEpoch entry.epoch (entry.epoch :: seen) rest
      return entry :: tail

/-- The part of `ParseBundleJson` about `retired_epochs`. -/
def readRetiredEpochs (activeEpoch : Nat) (parsed : Object) : Roe (List RetiredPskEntry) :=
  match parsed.getArray "retired_epochs" with
  | none => .ok []
  | some elements => do
    let entries ← readRetired C activeEpoch 0 [] elements
    if entries.length > kMaxRetiredPskEpochs then .error "PSK bundle retired tail exceeds limit"
    else .ok entries

/-- `ParseBundleJson`, once the text is an object. -/
def bundleFromJson (parsed : Object) : Roe PskBundleV1 :=
  let channel := channelFromBundleString ((parsed.getString "channel").getD "e2e")
  let activeEpoch := u32 ((parsed.getNonNegInt "active_epoch").getD 0)
  let masterPskB64 := (parsed.getString "master_psk_b64").getD ""
  if (parsed.getString "format").getD "" ≠ "pp-browser-psk-bundle-v1" then
    .error "Unsupported PSK bundle format"
  else if activeEpoch = 0 then .error "PSK bundle missing active_epoch"
  else do
    validateMasterPskB64 C masterPskB64
    let retiredEpochs ← readRetiredEpochs C activeEpoch parsed
    let bundle := { channel, activeEpoch, masterPskB64, retiredEpochs : PskBundleV1 }
    validateBundle C bundle
    return bundle

def parseBundleJson (json : Text) : Roe PskBundleV1 :=
  if C.size json > kMaxPskBundleBytes then .error "PSK bundle exceeds size limit"
  else
    match C.tryParseObject json with
    | none => .error "Invalid PSK bundle JSON"
    | some parsed => bundleFromJson C parsed

def retiredToJson (entry : RetiredPskEntry) : Object :=
  (((({} : Object)
    ).set "epoch" (.num entry.epoch)
    ).set "master_psk_b64" (.str entry.masterPskB64)
    ).set "retired_at" (.num entry.retiredAt)

def bundleToJson (bundle : PskBundleV1) : Object :=
  (((((({} : Object)
    ).set "format" (.str "pp-browser-psk-bundle-v1")
    ).set "channel" (.str (cryptoChannelToString bundle.channel))
    ).set "active_epoch" (.num bundle.activeEpoch)
    ).set "master_psk_b64" (.str bundle.masterPskB64)
    ).set "retired_epochs" (.array (bundle.retiredEpochs.map fun entry => (retiredToJson entry).value))

def serializeBundle (bundle : PskBundleV1) : Roe Text := do
  validateBundle C bundle
  let serialized := C.dumpJson (bundleToJson bundle)
  if C.size serialized > kMaxPskBundleBytes then throw "Serialized PSK bundle exceeds size limit"
  return serialized

/-! ## Merging -/

def mergeRetired (existing incoming : List RetiredPskEntry) : List RetiredPskEntry :=
  (Lib.putAll (·.epoch) existing incoming).insertionSort fun a b => a.epoch ≤ b.epoch

/-! ## What the checks accept -/

/-- A key the checks accept. -/
def ValidPsk (masterPskB64 : String) : Prop :=
  ∃ bytes, C.base64Decode masterPskB64 = .ok bytes ∧ bytes.length = kMasterPskSize

/-- A retired tail a bundle of the active epoch may carry. -/
structure ValidTail (activeEpoch : Nat) (retired : List RetiredPskEntry) : Prop where
  increasing : retired.Pairwise (·.epoch < ·.epoch)
  within : ∀ entry ∈ retired, 0 < entry.epoch ∧ entry.epoch < activeEpoch
  keys : ∀ entry ∈ retired, ValidPsk C entry.masterPskB64
  size : retired.length ≤ kMaxRetiredPskEpochs

structure ValidBundle (bundle : PskBundleV1) : Prop where
  active : 0 < bundle.activeEpoch
  key : ValidPsk C bundle.masterPskB64
  tail : ValidTail C bundle.activeEpoch bundle.retiredEpochs

variable {C} {bundle : PskBundleV1} {seen : List Nat} {entries : List RetiredPskEntry}

theorem validateMasterPskB64_ok {text : String} : validateMasterPskB64 C text = .ok () ↔ ValidPsk C text := by
  simp only [validateMasterPskB64, ValidPsk]
  constructor
  · intro h
    obtain ⟨bytes, hbytes, h⟩ := roe_bind_ok.mp h
    by_cases hlen : bytes.length = kMasterPskSize
    · exact ⟨bytes, hbytes, hlen⟩
    · rw [if_pos hlen] at h
      cases h
  · intro h
    obtain ⟨bytes, hbytes, hlen⟩ := h
    simp [hbytes, hlen]

theorem checkRetired_ok {active last : Nat} {entry : RetiredPskEntry} :
    checkRetired C active last seen entry = .ok () ↔
      (0 < entry.epoch ∧ entry.epoch < active) ∧ entry.epoch ∉ seen ∧ last < entry.epoch ∧
        ValidPsk C entry.masterPskB64 := by
  simp only [checkRetired]
  by_cases hwithin : entry.epoch = 0 ∨ entry.epoch ≥ active
  · simp [hwithin]
    omega
  by_cases hseen : entry.epoch ∈ seen
  · simp [hwithin, hseen]
  by_cases hlast : entry.epoch ≤ last
  · simp [hwithin, hseen, hlast]
  · have h : (0 < entry.epoch ∧ entry.epoch < active) ∧ last < entry.epoch := by omega
    simp [hwithin, hseen, hlast, h, validateMasterPskB64_ok]

/-- The loop over the entries after `lastEpoch`, `seen` being no later. -/
theorem validateRetired_ok {active last : Nat} {retired : List RetiredPskEntry}
    (hseen : ∀ epoch ∈ seen, epoch ≤ last) : validateRetired C active last seen retired = .ok () ↔
      (∀ entry ∈ retired, last < entry.epoch) ∧ retired.Pairwise (·.epoch < ·.epoch) ∧
        (∀ entry ∈ retired, 0 < entry.epoch ∧ entry.epoch < active) ∧
        ∀ entry ∈ retired, ValidPsk C entry.masterPskB64 := by
  induction retired generalizing last seen with
  | nil => simp [validateRetired]
  | cons entry rest ih =>
    rw [validateRetired]
    constructor
    · intro h
      obtain ⟨_, hcheck, hrest⟩ := roe_bind_ok.mp h
      obtain ⟨hwithin, -, hlast, hkey⟩ := checkRetired_ok.mp hcheck
      have hlater : ∀ epoch ∈ entry.epoch :: seen, epoch ≤ entry.epoch := by
        intro epoch hepoch
        rcases List.mem_cons.mp hepoch with rfl | hepoch
        · exact le_rfl
        · have hle := hseen epoch hepoch
          omega
      obtain ⟨hafter, hincreasing, hwithins, hkeys⟩ := (ih hlater).mp hrest
      refine ⟨?_, List.pairwise_cons.mpr ⟨hafter, hincreasing⟩, ?_, ?_⟩
      · intro e he
        rcases List.mem_cons.mp he with rfl | he
        · exact hlast
        · have hlt := hafter e he
          omega
      · exact List.forall_mem_cons.mpr ⟨hwithin, hwithins⟩
      · exact List.forall_mem_cons.mpr ⟨hkey, hkeys⟩
    · intro h
      obtain ⟨hafter, hincreasing, hwithins, hkeys⟩ := h
      have hlast := hafter entry List.mem_cons_self
      have hnew : entry.epoch ∉ seen := by
        intro hmem
        have hle := hseen entry.epoch hmem
        omega
      have hcheck := checkRetired_ok.mpr
        ⟨hwithins entry List.mem_cons_self, hnew, hlast, hkeys entry List.mem_cons_self⟩
      have hlater : ∀ epoch ∈ entry.epoch :: seen, epoch ≤ entry.epoch := by
        intro epoch hepoch
        rcases List.mem_cons.mp hepoch with rfl | hepoch
        · exact le_rfl
        · have hle := hseen epoch hepoch
          omega
      have hrest := (ih hlater).mpr ⟨(List.pairwise_cons.mp hincreasing).1,
        (List.pairwise_cons.mp hincreasing).2, (List.forall_mem_cons.mp hwithins).2,
        (List.forall_mem_cons.mp hkeys).2⟩
      exact roe_bind_ok.mpr ⟨(), hcheck, hrest⟩

theorem validateBundle_ok : validateBundle C bundle = .ok () ↔ ValidBundle C bundle := by
  have hloop : validateRetired C bundle.activeEpoch 0 [] bundle.retiredEpochs = .ok () ↔ _ :=
    validateRetired_ok (by simp)
  simp only [validateBundle]
  by_cases hactive : bundle.activeEpoch = 0
  · simp only [hactive]
    constructor
    · intro h
      cases h
    · intro h
      exact absurd h.active (by omega)
  rw [if_neg hactive]
  constructor
  · intro h
    obtain ⟨_, hkey, h⟩ := roe_bind_ok.mp h
    by_cases hsize : bundle.retiredEpochs.length > kMaxRetiredPskEpochs
    · rw [if_pos hsize] at h
      cases h
    · rw [if_neg hsize] at h
      obtain ⟨-, hincreasing, hwithin, hkeys⟩ := hloop.mp h
      exact ⟨by omega, validateMasterPskB64_ok.mp hkey, hincreasing, hwithin, hkeys, by omega⟩
  · intro h
    obtain ⟨hpos, hkey, hincreasing, hwithin, hkeys, hsize⟩ := h
    rw [validateMasterPskB64_ok.mpr hkey, roe_ok_bind, if_neg (by omega)]
    exact hloop.mpr ⟨fun entry he => (hwithin entry he).1, hincreasing, hwithin, hkeys⟩

/-! ## What the parser gives -/

/-- The integers of a bundle fit the words that hold them. -/
structure Words (bundle : PskBundleV1) : Prop where
  active : bundle.activeEpoch < 2 ^ 32
  retiredAt : ∀ entry ∈ bundle.retiredEpochs, -2 ^ 63 ≤ entry.retiredAt ∧ entry.retiredAt < 2 ^ 63

theorem getInt64_getD_range (item : Object) (key : String) :
    -2 ^ 63 ≤ (getInt64 item key).getD 0 ∧ (getInt64 item key).getD 0 < 2 ^ 63 := by
  cases h : getInt64 item key with
  | none => simp
  | some n => simpa [h] using (Option.filter_eq_some_iff.mp h).2

theorem readRetired_words {active last : Nat} {elements : List Value} (h : readRetired C active last seen elements = .ok entries) :
    ∀ entry ∈ entries, -2 ^ 63 ≤ entry.retiredAt ∧ entry.retiredAt < 2 ^ 63 := by
  induction elements generalizing last seen entries with
  | nil =>
    obtain rfl : [] = entries := by simpa [readRetired] using h
    simp
  | cons value rest ih =>
    rw [readRetired] at h
    split at h
    · exact ih h
    · rename_i item hitem
      obtain ⟨_, -, h⟩ := roe_bind_ok.mp h
      obtain ⟨tail, htail, h⟩ := roe_bind_ok.mp h
      cases h
      exact List.forall_mem_cons.mpr ⟨getInt64_getD_range item "retired_at", ih htail⟩

theorem readRetiredEpochs_words {active : Nat} {parsed : Object}
    (h : readRetiredEpochs C active parsed = .ok entries) :
    ∀ entry ∈ entries, -2 ^ 63 ≤ entry.retiredAt ∧ entry.retiredAt < 2 ^ 63 := by
  rw [readRetiredEpochs] at h
  split at h
  · cases h
    simp
  · obtain ⟨found, hfound, h⟩ := roe_bind_ok.mp h
    split at h
    · cases h
    · cases h
      exact readRetired_words hfound

theorem bundleFromJson_ok {parsed : Object}
    (h : bundleFromJson C parsed = .ok bundle) : ValidBundle C bundle ∧ Words bundle := by
  rw [bundleFromJson] at h
  dsimp only at h
  split at h
  · cases h
  split at h
  · cases h
  obtain ⟨_, -, h⟩ := roe_bind_ok.mp h
  obtain ⟨entries, hentries, h⟩ := roe_bind_ok.mp h
  obtain ⟨_, hvalid, h⟩ := roe_bind_ok.mp h
  cases h
  exact ⟨validateBundle_ok.mp hvalid, Nat.mod_lt _ (by decide), readRetiredEpochs_words hentries⟩

theorem parseBundleJson_ok {json : Text}
    (h : parseBundleJson C json = .ok bundle) : ValidBundle C bundle ∧ Words bundle := by
  rw [parseBundleJson] at h
  split at h
  · cases h
  split at h
  · cases h
  · exact bundleFromJson_ok h

/-! ## The round trip -/

section
variable {entry : RetiredPskEntry} {bundle : PskBundleV1}

theorem getInt64_of_get? {o : Object} {key : String} {n : Int} (h : o.get? key = some (.num n))
    (hrange : -2 ^ 63 ≤ n ∧ n < 2 ^ 63) : getInt64 o key = some n := by
  have hget : o.getInt key = some n := by simp [h]
  rw [getInt64, hget, Option.filter_some, if_pos (by simpa using hrange)]

theorem retiredFromJson_toJson (hepoch : entry.epoch < 2 ^ 32)
    (hat : -2 ^ 63 ≤ entry.retiredAt ∧ entry.retiredAt < 2 ^ 63) : retiredFromJson (retiredToJson entry) = entry := by
  have hget : getInt64 (retiredToJson entry) "retired_at" = some entry.retiredAt :=
    getInt64_of_get? (by simp [retiredToJson]) hat
  have hword : u32 entry.epoch = entry.epoch := Nat.mod_eq_of_lt hepoch
  rw [retiredFromJson, hget]
  simp [retiredToJson, hword]

/-- The loop reads back what the writer wrote. -/
theorem readRetired_toJson {active last : Nat} {seen : List Nat} {retired : List RetiredPskEntry}
    (hactive : active ≤ 2 ^ 32) (hwords : ∀ entry ∈ retired, -2 ^ 63 ≤ entry.retiredAt ∧ entry.retiredAt < 2 ^ 63)
    (h : validateRetired C active last seen retired = .ok ()) :
    readRetired C active last seen (retired.map fun entry => (retiredToJson entry).value) = .ok retired := by
  induction retired generalizing last seen with
  | nil => rfl
  | cons entry rest ih =>
    rw [validateRetired] at h
    obtain ⟨_, hcheck, hrest⟩ := roe_bind_ok.mp h
    have hwithin := (checkRetired_ok.mp hcheck).1
    have hread := retiredFromJson_toJson (by omega) (hwords entry List.mem_cons_self)
    have htail := ih (fun e he => hwords e (List.mem_cons_of_mem _ he)) hrest
    rw [List.map_cons, readRetired]
    simp only [Object.value, Value.asObject]
    rw [hread]
    simp only [Object.value] at htail
    rw [hcheck, roe_ok_bind, htail]
    rfl

theorem bundleFromJson_toJson (hvalid : ValidBundle C bundle) (hwords : Words bundle) :
    bundleFromJson C (bundleToJson bundle) = .ok bundle := by
  have hactive : u32 bundle.activeEpoch = bundle.activeEpoch := Nat.mod_eq_of_lt hwords.active
  have hchannel : channelFromBundleString (cryptoChannelToString bundle.channel) = bundle.channel := by
    cases bundle.channel with
    | e2e | e2ePublic => rfl
  have hloop : validateRetired C bundle.activeEpoch 0 [] bundle.retiredEpochs = .ok () :=
    (validateRetired_ok (by simp)).mpr ⟨fun e he => (hvalid.tail.within e he).1,
      hvalid.tail.increasing, hvalid.tail.within, hvalid.tail.keys⟩
  have hretired : readRetiredEpochs C bundle.activeEpoch (bundleToJson bundle) =
      .ok bundle.retiredEpochs := by
    have hread := readRetired_toJson (Nat.le_of_lt hwords.active) hwords.retiredAt hloop
    have hsize := hvalid.tail.size
    have harray : (bundleToJson bundle).getArray "retired_epochs" =
        some (bundle.retiredEpochs.map fun entry => (retiredToJson entry).value) := by
      simp [bundleToJson]
    rw [readRetiredEpochs, harray]
    simp only [hread, roe_ok_bind]
    rw [if_neg (by omega)]
  have hformat : (bundleToJson bundle).getString "format" = some "pp-browser-psk-bundle-v1" := by
    simp [bundleToJson]
  have hchannelText : (bundleToJson bundle).getString "channel" =
      some (cryptoChannelToString bundle.channel) := by
    simp [bundleToJson]
  have hepoch : (bundleToJson bundle).getNonNegInt "active_epoch" = some bundle.activeEpoch := by
    simp [bundleToJson]
  have hkey : (bundleToJson bundle).getString "master_psk_b64" = some bundle.masterPskB64 := by
    simp [bundleToJson]
  have hpos := hvalid.active
  rw [bundleFromJson]
  simp only [hformat, hchannelText, hepoch, hkey, Option.getD_some, hactive, hchannel, hretired,
    validateMasterPskB64_ok.mpr hvalid.key, validateBundle_ok.mpr hvalid, roe_ok_bind]
  rw [if_neg (by simp), if_neg (by omega)]
  rfl

end

/-! ## The size of a bundle -/

section
variable {bundle : PskBundleV1}

/-- A key's text takes at most 90 bytes. -/
theorem strSize_of_validPsk (hC : C.Sound) {text : String} (h : ValidPsk C text) : strSize text ≤ 90 := by
  obtain ⟨bytes, hbytes, hlength⟩ := h
  obtain ⟨hchars, hsmall⟩ := hC.base64_text hbytes
  have hsum := sum_charSize_le hsmall
  rw [hchars, hlength] at hsum
  simp only [strSize]
  have h88 : 4 * ((kMasterPskSize + 2) / 3) * 2 = 88 := rfl
  omega

theorem textSize_retiredToJson (hC : C.Sound) {entry : RetiredPskEntry} (hkey : ValidPsk C entry.masterPskB64)
    (hepoch : entry.epoch < 2 ^ 32) (hat : -2 ^ 63 ≤ entry.retiredAt ∧ entry.retiredAt < 2 ^ 63) :
    (retiredToJson entry).value.textSize ≤ 180 := by
  have hpsk := strSize_of_validPsk hC hkey
  have hnum : numSize entry.epoch ≤ 10 + 1 := numSize_le (by decide) (by omega)
  have hint : numSize entry.retiredAt ≤ 19 + 1 := numSize_le (by decide) (by omega)
  have hnames : strSize "epoch" = 7 ∧ strSize "master_psk_b64" = 16 ∧ strSize "retired_at" = 12 := by
    decide
  simp [retiredToJson, Object.set, Object.value, Value.textSize, fieldsSize, fieldSize, hnames]
  omega

section

variable (hC : C.Sound) (hvalid : ValidBundle C bundle) (hwords : Words bundle)
include hC hvalid hwords

theorem textSize_bundleToJson : (bundleToJson bundle).value.textSize ≤ kMaxPskBundleBytes := by
  have hpsk := strSize_of_validPsk hC hvalid.key
  have hactive := hwords.active
  have hnum : numSize bundle.activeEpoch ≤ 10 + 1 := numSize_le (by decide) (by omega)
  have hchannel : strSize (cryptoChannelToString bundle.channel) ≤ 12 := by
    cases bundle.channel with
    | e2e | e2ePublic => decide
  have hrows : elementsSize (bundle.retiredEpochs.map fun entry => (retiredToJson entry).value) ≤
      bundle.retiredEpochs.length * (180 + 1) := by
    have hsmall : ∀ value ∈ bundle.retiredEpochs.map fun entry => (retiredToJson entry).value,
        value.textSize ≤ 180 := by
      intro value hvalue
      obtain ⟨entry, he, rfl⟩ := List.mem_map.mp hvalue
      have hwithin := hvalid.tail.within entry he
      exact textSize_retiredToJson hC (hvalid.tail.keys entry he) (by omega)
        (hwords.retiredAt entry he)
    simpa using elementsSize_le hsmall
  have hcount : bundle.retiredEpochs.length ≤ 8 := hvalid.tail.size
  have hnames : strSize "format" = 8 ∧ strSize "pp-browser-psk-bundle-v1" = 26 ∧
      strSize "channel" = 9 ∧ strSize "active_epoch" = 14 ∧ strSize "master_psk_b64" = 16 ∧
      strSize "retired_epochs" = 16 := by
    decide
  have hlimit : kMaxPskBundleBytes = 4096 := rfl
  rw [hlimit]
  simp [bundleToJson, Object.set, Object.value, Value.textSize, fieldsSize, fieldSize, hnames]
  simp only [Object.value] at hrows
  omega

theorem serializeBundle_ok : serializeBundle C bundle = .ok (C.dumpJson (bundleToJson bundle)) := by
  have hsize := le_trans (hC.json_size _) (textSize_bundleToJson hC hvalid hwords)
  rw [serializeBundle, validateBundle_ok.mpr hvalid, roe_ok_bind]
  dsimp only
  rw [if_neg (by omega)]
  rfl

theorem parseBundleJson_dumpJson : parseBundleJson C (C.dumpJson (bundleToJson bundle)) = .ok bundle := by
  have hsize := le_trans (hC.json_size _) (textSize_bundleToJson hC hvalid hwords)
  rw [parseBundleJson, if_neg (by omega), hC.json]
  exact bundleFromJson_toJson hvalid hwords

end

theorem validPsk_encode (hC : C.Sound) (psk : MasterPsk) : ValidPsk C (C.base64Encode psk) :=
  ⟨psk.val, hC.base64 psk.val, psk.property⟩

end

/-! ## The retired tail, merged and capped -/

section
variable {retired existing incoming : List RetiredPskEntry} {entry : RetiredPskEntry} {active : Nat}

/-- No two entries are of one epoch. -/
abbrev DistinctEpochs (retired : List RetiredPskEntry) : Prop :=
  Lib.DistinctKeys RetiredPskEntry.epoch retired

theorem ValidTail.distinct (h : ValidTail C active retired) : DistinctEpochs retired :=
  h.increasing.imp Nat.ne_of_lt

instance : Std.Total fun a b : RetiredPskEntry => a.epoch ≤ b.epoch where
  total a b := Nat.le_total a.epoch b.epoch

instance : IsTrans RetiredPskEntry fun a b => a.epoch ≤ b.epoch where
  trans _ _ _ := Nat.le_trans

theorem distinct_insertionSort (h : DistinctEpochs retired) :
    DistinctEpochs (retired.insertionSort fun a b => a.epoch ≤ b.epoch) :=
  ((List.perm_insertionSort _ retired).pairwise_iff fun h => Ne.symm h).mpr h

theorem distinct_mergeRetired (h : DistinctEpochs existing) : DistinctEpochs (mergeRetired existing incoming) :=
  distinct_insertionSort (Lib.distinctKeys_putAll h)

theorem mem_mergeRetired (h : DistinctEpochs existing) (hincoming : DistinctEpochs incoming) :
    entry ∈ mergeRetired existing incoming ↔
      entry ∈ incoming ∨ entry ∈ existing ∧ ∀ e ∈ incoming, e.epoch ≠ entry.epoch := by
  rw [mergeRetired, (List.perm_insertionSort _ _).mem_iff]
  exact Lib.mem_putAll h hincoming

/-- The tail before the limit, in order. -/
def sortedBelow (retired : List RetiredPskEntry) (active : Nat) : List RetiredPskEntry :=
  (retired.filter fun entry => ¬ entry.epoch ≥ active).insertionSort fun a b => a.epoch ≤ b.epoch

theorem mem_sortedBelow : entry ∈ sortedBelow retired active ↔ entry ∈ retired ∧ entry.epoch < active := by
  rw [sortedBelow, (List.perm_insertionSort _ _).mem_iff, List.mem_filter]
  simp

theorem sortedBelow_increasing (h : DistinctEpochs retired) :
    (sortedBelow retired active).Pairwise (·.epoch < ·.epoch) := by
  have hsorted : (sortedBelow retired active).Pairwise (·.epoch ≤ ·.epoch) := List.pairwise_insertionSort _ _
  have hdistinct : DistinctEpochs (sortedBelow retired active) :=
    distinct_insertionSort (h.sublist List.filter_sublist)
  exact (hsorted.and hdistinct).imp fun h => Nat.lt_of_le_of_ne h.1 h.2

theorem capRetiredTail_eq : capRetiredTail retired active =
    (sortedBelow retired active).drop ((sortedBelow retired active).length - kMaxRetiredPskEpochs) := by
  rw [capRetiredTail]
  change (if (sortedBelow retired active).length ≤ kMaxRetiredPskEpochs then
    sortedBelow retired active else _) = _
  by_cases h : (sortedBelow retired active).length ≤ kMaxRetiredPskEpochs
  · rw [if_pos h, Nat.sub_eq_zero_of_le h, List.drop_zero]
  · rw [if_neg h]
    rfl

theorem mem_of_mem_cap (h : entry ∈ capRetiredTail retired active) : entry ∈ retired ∧ entry.epoch < active := by
  rw [capRetiredTail_eq] at h
  exact mem_sortedBelow.mp (List.mem_of_mem_drop h)

theorem length_cap : (capRetiredTail retired active).length ≤ kMaxRetiredPskEpochs := by
  rw [capRetiredTail_eq, List.length_drop]
  omega

theorem cap_increasing (h : DistinctEpochs retired) :
    (capRetiredTail retired active).Pairwise (·.epoch < ·.epoch) := by
  rw [capRetiredTail_eq]
  exact (sortedBelow_increasing h).sublist (List.drop_sublist _ _)

/-- The limit drops an entry only for a full tail of later ones. -/
theorem mem_cap_or_past (h : DistinctEpochs retired) (hentry : entry ∈ retired)
    (hbelow : entry.epoch < active) : entry ∈ capRetiredTail retired active ∨
      (capRetiredTail retired active).length = kMaxRetiredPskEpochs ∧
        ∀ kept ∈ capRetiredTail retired active, entry.epoch < kept.epoch := by
  have hmem := mem_sortedBelow.mpr ⟨hentry, hbelow⟩
  have hincreasing : (sortedBelow retired active).Pairwise (·.epoch < ·.epoch) := sortedBelow_increasing h
  rw [capRetiredTail_eq]
  generalize hn : (sortedBelow retired active).length - kMaxRetiredPskEpochs = n
  rw [← List.take_append_drop n (sortedBelow retired active)] at hmem hincreasing
  rcases List.mem_append.mp hmem with hdropped | hkept
  · have hpos : 0 < n := by
      by_contra hzero
      obtain rfl : n = 0 := by omega
      simp at hdropped
    refine .inr ⟨?_, fun kept hkept => ?_⟩
    · rw [List.length_drop]
      omega
    · exact (List.pairwise_append.mp hincreasing).2.2 entry hdropped kept hkept
  · exact .inl hkept

theorem cap_of_validTail (h : ValidTail C active retired) : capRetiredTail retired active = retired := by
  have hall : (retired.filter fun entry => ¬ entry.epoch ≥ active) = retired := by
    refine List.filter_eq_self.mpr ?_
    intro entry he
    simpa using (h.within entry he).2
  have hsorted : sortedBelow retired active = retired := by
    rw [sortedBelow, hall]
    exact List.Pairwise.insertionSort_eq (h.increasing.imp Nat.le_of_lt)
  rw [capRetiredTail_eq, hsorted, Nat.sub_eq_zero_of_le h.size, List.drop_zero]

theorem validTail_cap (h : DistinctEpochs retired) (hpos : ∀ entry ∈ retired, 0 < entry.epoch)
    (hkeys : ∀ entry ∈ retired, ValidPsk C entry.masterPskB64) :
    ValidTail C active (capRetiredTail retired active) where
  increasing := cap_increasing h
  within entry he := ⟨hpos entry (mem_of_mem_cap he).1, (mem_of_mem_cap he).2⟩
  keys entry he := hkeys entry (mem_of_mem_cap he).1
  size := length_cap

end

end PskBundleCodec

/-! ## A private chat's key -/

open PskBundleCodec

/-! ## A row as a bundle -/

section
variable {Text : Type} (C : BundleText Text)

/-- `IPeerSessionStore::ExportPskBundle`. -/
def PeerSessions.exportPskBundle (store : PeerSessions) (key : PeerSessionKey) : Roe PskBundleV1 :=
  match store.load key with
  | none => .error "No PSK to export"
  | some record =>
    match record.masterPskB64 with
    | none => .error "No PSK to export"
    | some masterPskB64 => do
      let bundle : PskBundleV1 := {
        channel := key.channel
        activeEpoch := record.sessionEpoch
        masterPskB64
        retiredEpochs := capRetiredTail record.retiredPsks record.sessionEpoch }
      validateBundle C bundle
      return bundle

/-- The row a bundle becomes: its key, unverified, with the retired tail
merged into what is there and the KEM state kept. -/
def importedRow (key : PeerSessionKey) (bundle : PskBundleV1) :
    Option PeerSessionRecord → PeerSessionRecord
  | none =>
    { key, sessionEpoch := bundle.activeEpoch, masterPskB64 := some bundle.masterPskB64
      retiredPsks := capRetiredTail bundle.retiredEpochs bundle.activeEpoch }
  | some existing =>
    { key, sessionEpoch := bundle.activeEpoch, masterPskB64 := some bundle.masterPskB64
      retiredPsks := capRetiredTail (mergeRetired existing.retiredPsks bundle.retiredEpochs)
        bundle.activeEpoch
      keyScope := existing.keyScope
      threadKemPkB64 := existing.threadKemPkB64
      threadKemSkB64 := existing.threadKemSkB64
      peerThreadKemPkB64 := existing.peerThreadKemPkB64
      lastPskRotateAt := existing.lastPskRotateAt
      pskRotateMsgCount := existing.pskRotateMsgCount
      lastRotationId := existing.lastRotationId }

/-- `IPeerSessionStore::ImportPskBundle`. -/
def PeerSessions.importPskBundle (store : PeerSessions) (key : PeerSessionKey)
    (bundle : PskBundleV1) : Roe PeerSessions :=
  if bundle.channel ≠ key.channel then .error "PSK bundle channel mismatch"
  else do
    validateBundle C bundle
    return store.save (importedRow key bundle (store.load key))

end

/-- `GetChatTargetSessionEpoch`. -/
def PeerSessions.chatTargetSessionEpoch (store : PeerSessions) (key : PeerSessionKey) : Roe Nat :=
  match store.load key with
  | none => .error "No chat target for thread"
  | some record => .ok record.sessionEpoch

def PeerSessions.adoptChatTargetEpoch (store : PeerSessions) (key : PeerSessionKey) (epoch : Nat) :
    PeerSessions :=
  match store.load key with
  | none => store
  | some record => store.save { record with sessionEpoch := epoch }

/-! ## The coordinator -/

namespace PskSessionCoordinator

variable {Text : Type} (C : BundleText Text)

structure PskExportView where
  masterPskB64 : String
  fingerprint : String := ""
  deriving DecidableEq, Repr

def targetKeyForThread (thread : Option Thread) : Roe PeerSessionKey :=
  match thread with
  | none => .error "Thread not found"
  | some thread =>
    if thread.channel ≠ .e2e then .error "PSK setup applies to private E2E threads only"
    else .ok (chatTargetFromThread thread)

def getExportView (store : PeerSessions) (thread : Option Thread) : Roe PskExportView := do
  let key ← targetKeyForThread thread
  match store.load key with
  | none => .error "PSK not configured"
  | some record =>
    match record.masterPskB64 with
    | none => .error "PSK not configured"
    | some masterPskB64 => .ok { masterPskB64, fingerprint := record.pskFingerprint.getD "" }

def generatedRow (key : PeerSessionKey) (epoch : Nat) (generated : MasterPsk) : PeerSessionRecord :=
  { key, sessionEpoch := epoch, masterPskB64 := some (C.base64Encode generated) }

/-- `EnsureGenerated`, with what `GenerateMasterPsk` gives. -/
def ensureGenerated (store : PeerSessions) (thread : Option Thread) (generated : MasterPsk) :
    Roe (PskExportView × PeerSessions) := do
  let key ← targetKeyForThread thread
  if ((store.load key).bind (·.masterPskB64)).isSome then
    let view ← getExportView store thread
    return (view, store)
  else
    let epoch ← store.chatTargetSessionEpoch key
    let saved := store.save (generatedRow C key epoch generated)
    let view ← getExportView saved thread
    return (view, saved)

def exportBundleJson (store : PeerSessions) (thread : Option Thread) : Roe Text := do
  let key ← targetKeyForThread thread
  let bundle ← store.exportPskBundle C key
  serializeBundle C bundle

def applyBundleToThread (store : PeerSessions) (key : PeerSessionKey) (bundle : PskBundleV1) :
    Roe PeerSessions := do
  let currentEpoch ← store.chatTargetSessionEpoch key
  let imported ← store.importPskBundle C key bundle
  if bundle.activeEpoch ≠ currentEpoch then
    return imported.adoptChatTargetEpoch key bundle.activeEpoch
  else return imported

def rawBundle (key : PeerSessionKey) (epoch : Nat) (masterPskB64 : String) : PskBundleV1 where
  channel := key.channel
  activeEpoch := epoch
  masterPskB64 := masterPskB64
  retiredEpochs := []

def importRawBase64 (store : PeerSessions) (thread : Option Thread) (rawB64 : String) :
    Roe PeerSessions := do
  let key ← targetKeyForThread thread
  let masterPskB64 ← decodeRawBase64 C rawB64
  let epoch ← store.chatTargetSessionEpoch key
  applyBundleToThread C store key (rawBundle key epoch masterPskB64)

def importBundleJson (store : PeerSessions) (thread : Option Thread) (bundleJson : Text) :
    Roe PeerSessions := do
  let key ← targetKeyForThread thread
  let bundle ← parseBundleJson C bundleJson
  if bundle.channel ≠ key.channel then .error "PSK bundle channel mismatch"
  else applyBundleToThread C store key bundle

/-- The row with a new key in the next epoch, the one before retired. -/
def rotatedRow (record : PeerSessionRecord) (masterPskB64 : String) (generated : MasterPsk)
    (retiredAtMs : Int64) : PeerSessionRecord :=
  { record with
    retiredPsks := capRetiredTail
      (record.retiredPsks ++
        [{ epoch := record.sessionEpoch, masterPskB64, retiredAt := retiredAtMs.toInt }])
      (u32 (record.sessionEpoch + 1))
    masterPskB64 := some (C.base64Encode generated)
    sessionEpoch := u32 (record.sessionEpoch + 1) }

/-- `RotatePskAndExportBundle`, to the saved row. -/
def rotatePsk (store : PeerSessions) (thread : Option Thread) (generated : MasterPsk)
    (retiredAtMs : Int64) : Roe PeerSessions := do
  let key ← targetKeyForThread thread
  match store.load key with
  | none => .error "No PSK to rotate"
  | some record =>
    match record.masterPskB64 with
    | none => .error "No PSK to rotate"
    | some masterPskB64 =>
      let rotated := rotatedRow C record masterPskB64 generated retiredAtMs
      return (store.save rotated).adoptChatTargetEpoch key rotated.sessionEpoch

/-- `RotatePskAndExportBundle`: the row stays rotated when the export
fails. -/
def rotatePskAndExportBundle (store : PeerSessions) (thread : Option Thread)
    (generated : MasterPsk) (retiredAtMs : Int64) : PeerSessions × Roe Text :=
  match rotatePsk C store thread generated retiredAtMs with
  | .error e => (store, .error e)
  | .ok rotated => (rotated, exportBundleJson C rotated thread)

end PskSessionCoordinator

end Pbr
