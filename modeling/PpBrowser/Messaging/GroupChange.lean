import Mathlib.Data.List.Sort
import Std.Data.ExtTreeMap
import Std.Data.ExtTreeSet
import PpBrowser.Base.BigEndian
import PpBrowser.Lib.PrefixCode

/-!
# GroupChange — what a group's roster is made of

`GroupTypes.h`, `GroupPermissions.cpp` and the plain records of
`GroupRosterStatement.h`, `GroupChange.h` and `AccountCard.h`.

A `uint64_t` is a `Nat`; where the code adds to one, the sum is reduced
by `u64`. An `int64_t` time is an `Int` (the code only compares them).
A `std::string` is a `String`: accounts, ids and titles are compared,
ordered and tested for emptiness, and written as bytes by `SignBytes`.
-/

namespace Pbr

/-- `std::map<std::string, T>`. -/
abbrev StrMap (α : Type) := Std.ExtTreeMap String α
abbrev StrSet := Std.ExtTreeSet String

inductive MemberRole where
  | owner | admin | member
  deriving DecidableEq, Repr

/-- G017: who brings people in and renames. -/
inductive GroupPreset where
  | open_ | managed
  deriving DecidableEq, Repr

/-- G014: a group has at most this many active members. -/
def kMaxGroupMembers : Nat := 50

/-! ## GroupPermissions -/

inductive GroupAction where
  | send | invite | makeInviteLink | bringCallGuest | rename | remove | readmit
  | revokeInviteLink | leave | removeCallGuest | mentionEveryone | setRole
  | setPreset | transfer | dissolve
  deriving DecidableEq, Repr

/-- Whether `actor` may do `action` under `preset`; `target` is the role of
whom `remove` or `setRole` acts on. -/
def groupAllows (action : GroupAction) (actor : MemberRole) (preset : GroupPreset)
    (target : MemberRole) : Bool :=
  let owner := actor = .owner
  let keepsOrder := owner ∨ actor = .admin
  match action with
  | .send => true
  | .invite | .makeInviteLink | .bringCallGuest | .rename =>
    preset = .open_ ∨ keepsOrder
  | .remove =>
    target ≠ .owner ∧ (owner ∨ (actor = .admin ∧ target = .member))
  | GroupAction.readmit | .revokeInviteLink | .removeCallGuest | .mentionEveryone => keepsOrder
  | .leave => ¬ owner
  | .setRole => owner ∧ target ≠ .owner
  | .setPreset | .transfer | .dissolve => owner

/-! ## The owner's statement -/

/-- One member as the owner states it. -/
structure GroupRosterStatementMember where
  identity : String
  role : MemberRole := .member
  joinedAt : Int := 0
  addedBy : String := ""
  deriving DecidableEq, Repr

/-- An account removed and not re-admitted; a re-admit names `removal`. -/
structure GroupRemovedMember where
  identity : String
  removal : String := ""
  removedBy : String := ""
  deriving DecidableEq, Repr

/-- A live invite link, as its `link_add` put it in the roster. -/
structure GroupInviteLink where
  linkId : String
  secretHash : String := ""
  maker : String := ""
  expiresAt : Int := 0
  maxUses : Nat := 0
  uses : Nat := 0
  deriving DecidableEq, Repr

/-- A change the owner folded, with the statement epoch it was made against. -/
structure GroupFoldedChange where
  id : String
  baseEpoch : Nat := 0
  deriving DecidableEq, Repr

/-- A transfer of ownership, signed by the owner who gave it up. -/
structure GroupOwnerTransfer where
  fromIdentity : String
  fromPublicKeyB64 : String := ""
  toIdentity : String := ""
  rosterEpoch : Nat := 0
  signatureB64 : String := ""
  deriving DecidableEq, Repr

/-- The owner-signed roster of a group. -/
structure GroupRosterStatement where
  groupId : String := ""
  rosterEpoch : Nat := 0
  members : List GroupRosterStatementMember := []
  preset : GroupPreset := .open_
  title : String := ""
  titleVersion : Nat := 0
  removed : List GroupRemovedMember := []
  links : List GroupInviteLink := []
  folded : List GroupFoldedChange := []
  changeFloorEpoch : Nat := 0
  ownerIdentity : String := ""
  ownerPublicKeyB64 : String := ""
  ownerChain : List GroupOwnerTransfer := []
  ownerSignatureB64 : String := ""
  dissolved : Bool := false
  deriving DecidableEq, Repr

namespace GroupRosterStatement

/-- The statement lists `identity` as a member. -/
def lists (s : GroupRosterStatement) (identity : String) : Bool :=
  s.members.any (·.identity = identity)

end GroupRosterStatement

/-! ## Account cards -/

structure KeyCard where
  accountId : String
  signingPublicKeyB64 : String := ""
  kemPublicKeyB64 : String := ""
  kemBindingSignatureB64 : String := ""
  deriving DecidableEq, Repr

structure AccountCardDevice where
  peerId : String
  signingPublicKeyB64 : String := ""
  kemPublicKeyB64 : String := ""
  deriving DecidableEq, Repr

/-- A key card and the account's device list, signed by the account. -/
structure AccountCard where
  keys : KeyCard
  nickname : String := ""
  devices : List AccountCardDevice := []
  issuedAt : Int := 0
  cardSignatureB64 : String := ""
  deriving DecidableEq, Repr

/-- The card's entry for device `peerId`, if it lists it. -/
def findCardDevice (card : AccountCard) (peerId : String) : Option AccountCardDevice :=
  card.devices.find? (·.peerId = peerId)

/-! ## Changes -/

inductive GroupChangeKind where
  | add | leave | remove | rename | linkAdd | linkRevoke
  deriving DecidableEq, Repr

/-- A roster change a member or admin signs on top of the owner's statement. -/
structure GroupChange where
  groupId : String := ""
  baseEpoch : Nat := 0
  signer : String := ""
  signerDevice : String := ""
  at_ : Int := 0
  kind : GroupChangeKind := .add
  member : String := ""
  inviteNonce : String := ""
  linkId : String := ""
  readmits : String := ""
  adds : List String := []
  keeps : List String := []
  title : String := ""
  titleVersion : Nat := 0
  secretHash : String := ""
  expiresAt : Int := 0
  maxUses : Nat := 0
  /-- Carried when the receiver may lack it; not signed. -/
  signerCard : Option AccountCard := none
  signatureB64 : String := ""
  deriving DecidableEq, Repr

/-! ## What a device keeps of a group -/

/-- G013, G016: a restored group checks its members before it sends again;
`removed` and `dissolved` are where a group ends. -/
inductive GroupSyncState where
  | active | checking | removed | dissolved
  deriving DecidableEq, Repr

/-- What the owner sets for the group (G017). -/
structure GroupPolicy where
  preset : GroupPreset := .open_
  deriving DecidableEq, Repr

/-- A row of the roster as this device shows it. -/
structure GroupRosterMember where
  memberIdentity : String
  contactId : String := ""
  role : MemberRole := .member
  joinedAt : Int := 0
  addedBy : String := ""
  deriving DecidableEq, Repr

/-! ## The signed roster change -/

/-- What the roster code calls and does not define. -/
structure GroupCrypto where
  blake2b256 : ByteVector → ByteVector
  bytesToHex : ByteVector → String
  base64Decode : String → Option ByteVector
  /-- `MlDsa::Verify(key, bytes, signature)`: `none` is its error. -/
  mlDsaVerify : ByteVector → ByteVector → ByteVector → Option Bool
  accountIdFromMlDsaPublicKey : ByteVector → Option String
  /-- `VerifyAccountCard(card, now_ms)` succeeds. -/
  verifyAccountCard : AccountCard → Int → Bool

/-- Primitives to run the code on examples: an id is one character, every
signature and card verifies, and a key is its account's name. -/
def sampleCrypto : GroupCrypto where
  blake2b256 bytes := [bytes.foldl (· + ·) 0]
  bytesToHex bytes := String.ofList (bytes.map fun b => Char.ofNat b.toNat)
  base64Decode text := some text.toByteArray.data.toList
  mlDsaVerify _ _ _ := some true
  accountIdFromMlDsaPublicKey key := some (String.ofList (key.map fun b => Char.ofNat b.toNat))
  verifyAccountCard _ _ := true

/-! ## Signed bytes -/

/-- `Put(out, field)`: u32 big-endian length, then the bytes. -/
def putString (field : String) : ByteVector :=
  bigEndian 4 field.utf8ByteSize ++ stringBytes field

/-- `Put(out, value)` for a `uint64_t`. -/
def putUInt (value : Nat) : ByteVector := bigEndian 8 value

/-- `static_cast<uint64_t>` of an `int64_t`. -/
def castUInt (value : Int) : Nat := (value % 2 ^ 64).toNat

/-- `std::sort` of ids. -/
def sortIds (ids : List String) : List String := ids.insertionSort (· ≤ ·)

def putIds (ids : List String) : ByteVector :=
  putUInt ids.length ++ (sortIds ids).flatMap putString

namespace GroupChangeKind

def toString : GroupChangeKind → String
  | add => "add"
  | leave => "leave"
  | remove => "remove"
  | rename => "rename"
  | linkAdd => "link_add"
  | linkRevoke => "link_revoke"

end GroupChangeKind

namespace GroupChange

def kChangeTag : String := "pp-browser:group-roster-change-v1"

def putBody (c : GroupChange) : ByteVector :=
  match c.kind with
  | .add => putString c.member ++ putString c.inviteNonce ++ putString c.linkId ++
      putString c.readmits
  | .leave => putIds c.adds ++ putIds c.keeps
  | .remove => putString c.member ++ putIds c.adds ++ putIds c.keeps
  | .rename => putString c.title ++ putUInt c.titleVersion
  | .linkAdd => putString c.linkId ++ putString c.secretHash ++
      putUInt (castUInt c.expiresAt) ++ putUInt c.maxUses
  | .linkRevoke => putString c.linkId

def signBytes (c : GroupChange) : ByteVector :=
  putString kChangeTag ++ putString c.groupId ++ putUInt c.baseEpoch ++
    putString c.signer ++ putString c.signerDevice ++ putUInt (castUInt c.at_) ++
    putString c.kind.toString ++ c.putBody

/-- The change id: hex of BLAKE2b-256 over `signBytes`. -/
def id (K : GroupCrypto) (c : GroupChange) : String :=
  K.bytesToHex (K.blake2b256 c.signBytes)

/-! ## The shape check -/

def kMaxNamedChanges : Nat := 256
def kMaxTitleBytes : Nat := 256

def distinctBounded (ids : List String) : Bool :=
  ids.length ≤ kMaxNamedChanges ∧ (∀ i ∈ ids, i ≠ "") ∧ ids.Nodup

/-- Which body fields a kind carries. -/
structure BodyFields where
  member : Bool := false
  invite : Bool := false
  linkId : Bool := false
  readmits : Bool := false
  named : Bool := false
  rename : Bool := false
  link : Bool := false

def fieldsOf : GroupChangeKind → BodyFields
  | .add => { member := true, invite := true, linkId := true, readmits := true }
  | .leave => { named := true }
  | .remove => { member := true, named := true }
  | .rename => { rename := true }
  | .linkAdd => { linkId := true, link := true }
  | .linkRevoke => { linkId := true }

/-- No field set that the kind does not carry. -/
def noForeignFields (c : GroupChange) : Bool :=
  let f := fieldsOf c.kind
  (f.member ∨ c.member = "") ∧ (f.invite ∨ c.inviteNonce = "") ∧
    (f.linkId ∨ c.linkId = "") ∧ (f.readmits ∨ c.readmits = "") ∧
    (f.named ∨ (c.adds = [] ∧ c.keeps = [])) ∧
    (f.rename ∨ (c.title = "" ∧ c.titleVersion = 0)) ∧
    (f.link ∨ (c.secretHash = "" ∧ c.expiresAt = 0 ∧ c.maxUses = 0))

def checkNamed (c : GroupChange) : Roe Unit :=
  if distinctBounded c.adds ∧ distinctBounded c.keeps then .ok ()
  else .error "roster change: repeated, empty or too many named changes"

def checkBody (c : GroupChange) : Roe Unit :=
  match c.kind with
  | .add =>
    if c.member = "" ∨ c.member = c.signer then
      .error "roster change: an add names someone other than its signer"
    else if c.inviteNonce.isEmpty = c.linkId.isEmpty then
      .error "roster change: an add carries its invite or its link, not both"
    else .ok ()
  | .remove =>
    if c.member = "" ∨ c.member = c.signer then
      .error "roster change: a remove names someone other than its signer (a leave is its own change)"
    else c.checkNamed
  | .leave => c.checkNamed
  | .rename =>
    if c.title = "" ∨ c.title.utf8ByteSize > kMaxTitleBytes ∨ c.titleVersion = 0 then
      .error "roster change: a rename carries a title and a version"
    else .ok ()
  | .linkAdd =>
    if c.linkId = "" ∨ c.secretHash = "" ∨ c.expiresAt ≤ 0 then
      .error "roster change: a link carries its id, secret hash and expiry"
    else .ok ()
  | .linkRevoke =>
    if c.linkId = "" then .error "roster change: a revoke names its link"
    else .ok ()

/-- Well formed for its kind. -/
def checkShape (c : GroupChange) : Roe Unit :=
  if c.groupId = "" ∨ c.signer = "" ∨ c.signerDevice = "" then
    .error "roster change: missing group, signer or device"
  else if !c.noForeignFields then
    .error "roster change: carries a field its kind does not"
  else c.checkBody

/-- `CheckShape` succeeds. -/
def shaped (c : GroupChange) : Bool := c.checkShape.isOk

/-- Only the signature, against `device`. -/
def verifyDeviceSignature (K : GroupCrypto) (c : GroupChange) (device : AccountCardDevice) :
    Roe Unit :=
  if device.peerId ≠ c.signerDevice then
    .error "roster change: not the signing device"
  else
    match K.base64Decode device.signingPublicKeyB64, K.base64Decode c.signatureB64 with
    | some key, some signature =>
      if K.mlDsaVerify key c.signBytes signature = some true then .ok ()
      else .error "roster change: the signature does not verify for the signing device"
    | _, _ => .error "roster change: bad key or signature encoding"

end GroupChange

/-! ## Reading sign bytes back -/

variable {xs ys : ByteVector}

theorem putUInt_append_inj {a b : Nat} (ha : a < 2 ^ 64) (hb : b < 2 ^ 64)
    (h : putUInt a ++ xs = putUInt b ++ ys) : a = b ∧ xs = ys :=
  bigEndian_append_inj ha hb h

theorem putString_append_inj {a b : String} (ha : a.utf8ByteSize < 2 ^ 32)
    (hb : b.utf8ByteSize < 2 ^ 32) (h : putString a ++ xs = putString b ++ ys) : a = b ∧ xs = ys := by
  rw [putString, putString, List.append_assoc, List.append_assoc] at h
  obtain ⟨hlen, hrest⟩ := bigEndian_append_inj (n := 4) ha hb h
  obtain ⟨hbytes, hrest⟩ := List.append_inj hrest hlen
  exact ⟨stringBytes_inj hbytes, hrest⟩

theorem prefixCode_putUInt : Lib.PrefixCode (· < 2 ^ 64) putUInt :=
  fun _ _ _ _ => putUInt_append_inj

theorem prefixCode_putString : Lib.PrefixCode (fun t : String => t.utf8ByteSize < 2 ^ 32) putString :=
  fun _ _ _ _ => putString_append_inj

theorem perm_sortIds (ids : List String) : (sortIds ids).Perm ids :=
  List.perm_insertionSort (· ≤ ·) ids

/-- A list field tells its ids, and where the rest starts. -/
theorem putIds_append_inj {a b : List String}
    (ha : ∀ t ∈ a, t.utf8ByteSize < 2 ^ 32) (hb : ∀ t ∈ b, t.utf8ByteSize < 2 ^ 32)
    (hla : a.length < 2 ^ 64) (hlb : b.length < 2 ^ 64) (h : putIds a ++ xs = putIds b ++ ys) :
    a.Perm b ∧ xs = ys := by
  have hcode := prefixCode_putString.counted prefixCode_putUInt
  have hok {l : List String} (hl : ∀ t ∈ l, t.utf8ByteSize < 2 ^ 32) (hlen : l.length < 2 ^ 64) :
      (sortIds l).length < 2 ^ 64 ∧ ∀ t ∈ sortIds l, t.utf8ByteSize < 2 ^ 32 :=
    ⟨by rwa [(perm_sortIds l).length_eq], fun t ht => hl t ((perm_sortIds l).mem_iff.mp ht)⟩
  rw [putIds, putIds, ← (perm_sortIds a).length_eq, ← (perm_sortIds b).length_eq] at h
  obtain ⟨hsorted, h⟩ := hcode (hok ha hla) (hok hb hlb) h
  refine ⟨?_, h⟩
  exact (perm_sortIds a).symm.trans (hsorted ▸ perm_sortIds b)

theorem castUInt_inj {a b : Int} (ha : -2 ^ 63 ≤ a ∧ a < 2 ^ 63) (hb : -2 ^ 63 ≤ b ∧ b < 2 ^ 63)
    (h : castUInt a = castUInt b) : a = b := by
  unfold castUInt at h
  omega

theorem castUInt_lt (a : Int) : castUInt a < 2 ^ 64 := by
  unfold castUInt
  omega

theorem GroupChangeKind.toString_inj {a b : GroupChangeKind} (h : a.toString = b.toString) : a = b := by
  cases a <;> cases b <;> first | rfl | (revert h; decide)

namespace GroupChange

/-- The ranges of the C++ fields, with strings and lists that their length
prefixes hold. -/
structure Ranged (c : GroupChange) : Prop where
  strings : ∀ t ∈ [c.groupId, c.signer, c.signerDevice, c.member, c.inviteNonce, c.linkId,
    c.readmits, c.title, c.secretHash] ++ c.adds ++ c.keeps, t.utf8ByteSize < 2 ^ 32
  counts : ∀ n ∈ [c.baseEpoch, c.titleVersion, c.maxUses, c.adds.length, c.keeps.length],
    n < 2 ^ 64
  times : ∀ t ∈ [c.at_, c.expiresAt], -2 ^ 63 ≤ t ∧ t < 2 ^ 63

/-- The same body, of the fields the kind carries; the ids of a list are
signed in no order. -/
structure SameBody (a b : GroupChange) : Prop where
  member : (fieldsOf a.kind).member → a.member = b.member
  inviteNonce : (fieldsOf a.kind).invite → a.inviteNonce = b.inviteNonce
  linkId : (fieldsOf a.kind).linkId → a.linkId = b.linkId
  readmits : (fieldsOf a.kind).readmits → a.readmits = b.readmits
  adds : (fieldsOf a.kind).named → a.adds.Perm b.adds
  keeps : (fieldsOf a.kind).named → a.keeps.Perm b.keeps
  title : (fieldsOf a.kind).rename → a.title = b.title
  titleVersion : (fieldsOf a.kind).rename → a.titleVersion = b.titleVersion
  secretHash : (fieldsOf a.kind).link → a.secretHash = b.secretHash
  expiresAt : (fieldsOf a.kind).link → a.expiresAt = b.expiresAt
  maxUses : (fieldsOf a.kind).link → a.maxUses = b.maxUses

/-- Copies of one change: the same signed fields. -/
structure SameSigned (a b : GroupChange) : Prop extends SameBody a b where
  groupId : a.groupId = b.groupId
  baseEpoch : a.baseEpoch = b.baseEpoch
  signer : a.signer = b.signer
  signerDevice : a.signerDevice = b.signerDevice
  at_ : a.at_ = b.at_
  kind : a.kind = b.kind

theorem sameBody_of_putBody {a b : GroupChange} (ha : a.Ranged) (hb : b.Ranged)
    (hkind : a.kind = b.kind) (h : a.putBody = b.putBody) : SameBody a b := by
  have h : a.putBody ++ [] = b.putBody ++ [] := by rw [h]
  have hids {l : List String} {c : GroupChange} (hc : c.Ranged) (hl : l = c.adds ∨ l = c.keeps) :
      (∀ t ∈ l, t.utf8ByteSize < 2 ^ 32) ∧ l.length < 2 ^ 64 := by
    rcases hl with rfl | rfl
    · exact ⟨fun t ht => hc.strings t (by simp [ht]), hc.counts _ (by simp)⟩
    · exact ⟨fun t ht => hc.strings t (by simp [ht]), hc.counts _ (by simp)⟩
  obtain ⟨haAdds, haAddsLen⟩ := hids ha (.inl rfl)
  obtain ⟨haKeeps, haKeepsLen⟩ := hids ha (.inr rfl)
  obtain ⟨hbAdds, hbAddsLen⟩ := hids hb (.inl rfl)
  obtain ⟨hbKeeps, hbKeepsLen⟩ := hids hb (.inr rfl)
  unfold putBody at h
  rw [← hkind] at h
  cases hk : a.kind with
  | add =>
    simp only [hk, List.append_assoc] at h
    obtain ⟨hmember, h⟩ := putString_append_inj (ha.strings _ (by simp)) (hb.strings _ (by simp)) h
    obtain ⟨hnonce, h⟩ := putString_append_inj (ha.strings _ (by simp)) (hb.strings _ (by simp)) h
    obtain ⟨hlink, h⟩ := putString_append_inj (ha.strings _ (by simp)) (hb.strings _ (by simp)) h
    obtain ⟨hreadmits, -⟩ := putString_append_inj (ha.strings _ (by simp)) (hb.strings _ (by simp)) h
    constructor <;> intro hf <;> first | assumption | simp [hk, fieldsOf] at hf
  | leave =>
    simp only [hk, List.append_assoc] at h
    obtain ⟨hadds, h⟩ := putIds_append_inj haAdds hbAdds haAddsLen hbAddsLen h
    obtain ⟨hkeeps, -⟩ := putIds_append_inj haKeeps hbKeeps haKeepsLen hbKeepsLen h
    constructor <;> intro hf <;> first | assumption | simp [hk, fieldsOf] at hf
  | remove =>
    simp only [hk, List.append_assoc] at h
    obtain ⟨hmember, h⟩ := putString_append_inj (ha.strings _ (by simp)) (hb.strings _ (by simp)) h
    obtain ⟨hadds, h⟩ := putIds_append_inj haAdds hbAdds haAddsLen hbAddsLen h
    obtain ⟨hkeeps, -⟩ := putIds_append_inj haKeeps hbKeeps haKeepsLen hbKeepsLen h
    constructor <;> intro hf <;> first | assumption | simp [hk, fieldsOf] at hf
  | rename =>
    simp only [hk, List.append_assoc] at h
    obtain ⟨htitle, h⟩ := putString_append_inj (ha.strings _ (by simp)) (hb.strings _ (by simp)) h
    obtain ⟨hversion, -⟩ := putUInt_append_inj (ha.counts _ (by simp)) (hb.counts _ (by simp)) h
    constructor <;> intro hf <;> first | assumption | simp [hk, fieldsOf] at hf
  | linkAdd =>
    simp only [hk, List.append_assoc] at h
    obtain ⟨hlink, h⟩ := putString_append_inj (ha.strings _ (by simp)) (hb.strings _ (by simp)) h
    obtain ⟨hsecret, h⟩ := putString_append_inj (ha.strings _ (by simp)) (hb.strings _ (by simp)) h
    obtain ⟨hexpires, h⟩ := putUInt_append_inj (castUInt_lt _) (castUInt_lt _) h
    have hexpires := castUInt_inj (ha.times _ (by simp)) (hb.times _ (by simp)) hexpires
    obtain ⟨huses, -⟩ := putUInt_append_inj (ha.counts _ (by simp)) (hb.counts _ (by simp)) h
    constructor <;> intro hf <;> first | assumption | simp [hk, fieldsOf] at hf
  | linkRevoke =>
    simp only [hk] at h
    obtain ⟨hlink, -⟩ := putString_append_inj (ha.strings _ (by simp)) (hb.strings _ (by simp)) h
    constructor <;> intro hf <;> first | assumption | simp [hk, fieldsOf] at hf

theorem sameSigned_of_signBytes {a b : GroupChange} (ha : a.Ranged) (hb : b.Ranged)
    (h : a.signBytes = b.signBytes) : SameSigned a b := by
  simp only [signBytes, List.append_assoc] at h
  have h := List.append_cancel_left h
  obtain ⟨hgroup, h⟩ := putString_append_inj (ha.strings _ (by simp)) (hb.strings _ (by simp)) h
  obtain ⟨hepoch, h⟩ := putUInt_append_inj (ha.counts _ (by simp)) (hb.counts _ (by simp)) h
  obtain ⟨hsigner, h⟩ := putString_append_inj (ha.strings _ (by simp)) (hb.strings _ (by simp)) h
  obtain ⟨hdevice, h⟩ := putString_append_inj (ha.strings _ (by simp)) (hb.strings _ (by simp)) h
  obtain ⟨hat, h⟩ := putUInt_append_inj (castUInt_lt _) (castUInt_lt _) h
  obtain ⟨hkind, h⟩ := putString_append_inj (by cases a.kind <;> decide)
    (by cases b.kind <;> decide) h
  have hkind := GroupChangeKind.toString_inj hkind
  exact { sameBody_of_putBody ha hb hkind h with
    groupId := hgroup, baseEpoch := hepoch, signer := hsigner, signerDevice := hdevice
    at_ := castUInt_inj (ha.times _ (by simp)) (hb.times _ (by simp)) hat, kind := hkind }

/-- No two of the changes `arrived` holds for share an id but not their sign
bytes: BLAKE2b-256 meets no collision among them. -/
def CollisionFree (K : GroupCrypto) (arrived : GroupChange → Prop) : Prop :=
  ∀ a b, arrived a → arrived b → a.id K = b.id K → a.signBytes = b.signBytes

end GroupChange

end Pbr
