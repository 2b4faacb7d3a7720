import PpBrowser.Lib.Json
import PpBrowser.Messaging.GroupRosterStatement

/-!
# GroupRosterJson — statements and changes as they are kept and sent

`ToJson` and `FromJson` of `GroupRosterStatement.cpp` and
`GroupChange.cpp`, with the account card's of `AccountCard.cpp` and
`KeyCard.cpp`.

A time is written clamped to zero and read back as an `int64_t`; that is
all that changes when a statement is kept (`fromJson_toJson`).
-/

namespace Pbr

open Lib.Json

/-! ## Names of enumerations -/

def memberRoleFromString (value : String) : MemberRole :=
  if value = "owner" then .owner
  else if value = "admin" then .admin
  else .member

def groupPresetFromString (value : String) : GroupPreset :=
  if value = "managed" then .managed else .open_

namespace GroupChangeKind

def fromString (value : String) : Option GroupChangeKind :=
  [add, leave, remove, rename, linkAdd, linkRevoke].find? (·.toString = value)

theorem fromString_toString (kind : GroupChangeKind) : fromString kind.toString = some kind := by
  cases kind <;> rfl

end GroupChangeKind

theorem memberRoleFromString_toString (role : MemberRole) :
    memberRoleFromString (GroupRosterStatement.memberRoleToString role) = role := by
  cases role <;> rfl

theorem groupPresetFromString_toString (preset : GroupPreset) :
    groupPresetFromString (GroupRosterStatement.groupPresetToString preset) = preset := by
  cases preset <;> rfl

/-! ## Numbers -/

/-- `static_cast<int64_t>` of a `uint64_t`. -/
def castInt (value : Nat) : Int :=
  if value % 2 ^ 64 < 2 ^ 63 then (value % 2 ^ 64 : Nat) else (value % 2 ^ 64 : Nat) - 2 ^ 64

/-- `static_cast<uint64_t>(std::max<int64_t>(t, 0))`. -/
def writtenTime (t : Int) : Nat := (max t 0).toNat

/-- A time as it reads back: zero for a negative one. -/
def storedTime (t : Int) : Int := castInt (writtenTime t)

theorem storedTime_eq {t : Int} (h0 : 0 ≤ t) (h : t < 2 ^ 63) : storedTime t = t := by
  have hw : (writtenTime t : Int) = t := by rw [writtenTime]; omega
  have hlt : writtenTime t < 2 ^ 63 := by omega
  have hmod : writtenTime t % 2 ^ 64 = writtenTime t := Nat.mod_eq_of_lt (by omega)
  rw [storedTime, castInt, hmod, if_pos hlt, hw]

/-- `setJsonUInt`. -/
def uintValue (n : Nat) : Value := .num n

@[simp] theorem uintValue_eq (n : Nat) : uintValue n = .num (n : Int) := rfl

def stringOr (json : Object) (key : String) : String := (json.getString key).getD ""

def uintOr (json : Object) (key : String) : Nat := (json.getNonNegInt key).getD 0

/-! ## Statements -/

namespace GroupRosterStatement

def memberToJson (m : GroupRosterStatementMember) : Object :=
  ({} : Object)
    |>.set "identity" (.str m.identity)
    |>.set "role" (.str (memberRoleToString m.role))
    |>.set "joined_at" (uintValue (writtenTime m.joinedAt))
    |>.setIf (m.addedBy ≠ "") "added_by" (.str m.addedBy)

def memberFromJson (row : Object) : Roe GroupRosterStatementMember :=
  .ok { identity := stringOr row "identity"
        role := memberRoleFromString ((row.getString "role").getD "member")
        joinedAt := castInt (uintOr row "joined_at")
        addedBy := stringOr row "added_by" }

def removedToJson (r : GroupRemovedMember) : Object :=
  ({} : Object)
    |>.set "identity" (.str r.identity)
    |>.set "removal" (.str r.removal)
    |>.set "by" (.str r.removedBy)

def removedFromJson (row : Object) : Roe GroupRemovedMember :=
  .ok { identity := stringOr row "identity", removal := stringOr row "removal"
        removedBy := stringOr row "by" }

def linkToJson (l : GroupInviteLink) : Object :=
  ({} : Object)
    |>.set "link_id" (.str l.linkId)
    |>.set "secret_hash" (.str l.secretHash)
    |>.set "maker" (.str l.maker)
    |>.set "expires_at" (uintValue (writtenTime l.expiresAt))
    |>.setIf (l.maxUses > 0) "max_uses" (uintValue l.maxUses)
    |>.setIf (l.uses > 0) "uses" (uintValue l.uses)

def linkFromJson (row : Object) : Roe GroupInviteLink :=
  .ok { linkId := stringOr row "link_id", secretHash := stringOr row "secret_hash"
        maker := stringOr row "maker", expiresAt := castInt (uintOr row "expires_at")
        maxUses := uintOr row "max_uses", uses := uintOr row "uses" }

def foldedToJson (f : GroupFoldedChange) : Object :=
  ({} : Object)
    |>.set "id" (.str f.id) |>.set "base_epoch" (uintValue f.baseEpoch)

def foldedFromJson (row : Object) : Roe GroupFoldedChange :=
  .ok { id := stringOr row "id", baseEpoch := uintOr row "base_epoch" }

def transferToJson (t : GroupOwnerTransfer) : Object :=
  ({} : Object)
    |>.set "from" (.str t.fromIdentity)
    |>.set "from_public_key" (.str t.fromPublicKeyB64)
    |>.set "to" (.str t.toIdentity)
    |>.set "roster_epoch" (uintValue t.rosterEpoch)
    |>.set "signature" (.str t.signatureB64)

def transferFromJson (json : Object) : Roe GroupOwnerTransfer :=
  let transfer : GroupOwnerTransfer :=
    { fromIdentity := stringOr json "from", fromPublicKeyB64 := stringOr json "from_public_key"
      toIdentity := stringOr json "to", rosterEpoch := uintOr json "roster_epoch"
      signatureB64 := stringOr json "signature" }
  if transfer.fromIdentity = "" ∨ transfer.toIdentity = "" ∨ transfer.signatureB64 = "" then
    .error "owner transfer: missing field"
  else .ok transfer

def rowsValue {α : Type} (write : α → Object) (rows : List α) : Value :=
  .array (rows.map fun row => (write row).value)

/-- The G018 fields: title, removed, links, folded, the change floor, each
left out when empty. -/
def putOpenGroupJson (json : Object) (s : GroupRosterStatement) : Object :=
  let titled := s.title ≠ "" ∨ s.titleVersion > 0
  json.setIf titled "title" (.str s.title)
    |>.setIf titled "title_version" (uintValue s.titleVersion)
    |>.setIf (s.removed ≠ []) "removed" (rowsValue removedToJson s.removed)
    |>.setIf (s.links ≠ []) "links" (rowsValue linkToJson s.links)
    |>.setIf (s.folded ≠ []) "folded" (rowsValue foldedToJson s.folded)
    |>.setIf (s.changeFloorEpoch > 0) "change_floor_epoch" (uintValue s.changeFloorEpoch)

def readOpenGroupJson (json : Object) (s : GroupRosterStatement) : Roe GroupRosterStatement := do
  let removed ← Object.readRows "roster statement: removed entry is not an object"
    removedFromJson (json.getArray "removed")
  let links ← Object.readRows "roster statement: link is not an object"
    linkFromJson (json.getArray "links")
  let folded ← Object.readRows "roster statement: folded change is not an object"
    foldedFromJson (json.getArray "folded")
  pure { s with
    title := stringOr json "title", titleVersion := uintOr json "title_version"
    removed, links, folded, changeFloorEpoch := uintOr json "change_floor_epoch" }

def toJson (s : GroupRosterStatement) : Object :=
  let head := ({} : Object)
    |>.set "group_id" (.str s.groupId)
    |>.set "roster_epoch" (uintValue s.rosterEpoch)
    |>.set "members" (rowsValue memberToJson s.members)
    |>.set "preset" (.str (groupPresetToString s.preset))
  (putOpenGroupJson head s).set "owner" (.str s.ownerIdentity)
    |>.set "owner_public_key" (.str s.ownerPublicKeyB64)
    |>.setIf (s.ownerChain ≠ []) "owner_chain" (rowsValue transferToJson s.ownerChain)
    |>.set "owner_signature" (.str s.ownerSignatureB64)
    |>.setIf s.dissolved "dissolved" (.bool true)

def fromJson (json : Object) : Roe GroupRosterStatement :=
  let statement : GroupRosterStatement :=
    { groupId := stringOr json "group_id", rosterEpoch := uintOr json "roster_epoch"
      ownerIdentity := stringOr json "owner"
      ownerPublicKeyB64 := stringOr json "owner_public_key"
      ownerSignatureB64 := stringOr json "owner_signature"
      dissolved := (json.getBool "dissolved").getD false
      preset := groupPresetFromString ((json.getString "preset").getD "open") }
  if statement.groupId = "" ∨ statement.ownerIdentity = "" ∨ (json.getArray "members").isNone then
    .error "roster statement: missing field"
  else do
    let members ← Object.readRows "roster statement: member is not an object"
      memberFromJson (json.getArray "members")
    let statement ← readOpenGroupJson json { statement with members }
    let ownerChain ← Object.readRows "roster statement: owner transfer is not an object"
      transferFromJson (json.getArray "owner_chain")
    pure { statement with ownerChain }

/-! ### Reading a statement back -/

def storedMember (m : GroupRosterStatementMember) : GroupRosterStatementMember :=
  { m with joinedAt := storedTime m.joinedAt }

def storedLink (l : GroupInviteLink) : GroupInviteLink :=
  { l with expiresAt := storedTime l.expiresAt }

/-- The statement as it reads back once kept: its times clamped. -/
def stored (s : GroupRosterStatement) : GroupRosterStatement :=
  { s with members := s.members.map storedMember, links := s.links.map storedLink }

theorem memberFromJson_toJson (m : GroupRosterStatementMember) :
    memberFromJson (memberToJson m) = .ok (storedMember m) := by
  have hrole := memberRoleFromString_toString m.role
  by_cases hadded : m.addedBy = ""
  · simp [memberFromJson, memberToJson, stringOr, uintOr, hrole, hadded, storedMember, storedTime]
  · simp [memberFromJson, memberToJson, stringOr, uintOr, hrole, hadded, storedMember, storedTime]

theorem removedFromJson_toJson (r : GroupRemovedMember) : removedFromJson (removedToJson r) = .ok r := by
  simp [removedFromJson, removedToJson, stringOr]

theorem linkFromJson_toJson (l : GroupInviteLink) : linkFromJson (linkToJson l) = .ok (storedLink l) := by
  by_cases hmax : l.maxUses = 0 <;> by_cases huses : l.uses = 0 <;>
    simp [linkFromJson, linkToJson, stringOr, uintOr, hmax, huses, storedLink, storedTime,
      Nat.pos_iff_ne_zero]

theorem foldedFromJson_toJson (f : GroupFoldedChange) : foldedFromJson (foldedToJson f) = .ok f := by
  simp [foldedFromJson, foldedToJson, stringOr, uintOr]

/-- A transfer with every field a reader requires. -/
def Transferable (t : GroupOwnerTransfer) : Prop :=
  t.fromIdentity ≠ "" ∧ t.toIdentity ≠ "" ∧ t.signatureB64 ≠ ""

theorem transferFromJson_toJson {t : GroupOwnerTransfer} (h : Transferable t) :
    transferFromJson (transferToJson t) = .ok t := by
  obtain ⟨hfrom, hto, hsig⟩ := h
  simp [transferFromJson, transferToJson, stringOr, uintOr, hfrom, hto, hsig]

/-- A list left out when empty reads back all the same. -/
theorem readRows_left_out {α β ε : Type} [DecidableEq α] {notObject : ε}
    {read : Object → Except ε β} {write : α → Object} {stored : α → β} (rows : List α)
    (h : ∀ row ∈ rows, read (write row) = .ok (stored row)) : Object.readRows notObject read
      (if rows = [] then none else some (rows.map fun row => (write row).value)) = .ok (rows.map stored) := by
  by_cases hrows : rows = []
  · rw [if_pos hrows, hrows]
    rfl
  · rw [if_neg hrows]
    exact Object.mapM_read_rows rows h

/-- What a reader requires of a statement. -/
structure Storable (s : GroupRosterStatement) : Prop where
  groupId : s.groupId ≠ ""
  ownerIdentity : s.ownerIdentity ≠ ""
  ownerChain : ∀ t ∈ s.ownerChain, Transferable t

section Reading

variable (s : GroupRosterStatement)

theorem getArray_members : s.toJson.getArray "members" = some (s.members.map fun m => (memberToJson m).value) := by
  simp [toJson, putOpenGroupJson, rowsValue]

theorem getArray_removed : s.toJson.getArray "removed" =
    if s.removed = [] then none else some (s.removed.map fun r => (removedToJson r).value) := by
  by_cases h : s.removed = [] <;>
    simp [toJson, putOpenGroupJson, rowsValue, h]

theorem getArray_links : s.toJson.getArray "links" =
    if s.links = [] then none else some (s.links.map fun l => (linkToJson l).value) := by
  by_cases h : s.links = [] <;>
    simp [toJson, putOpenGroupJson, rowsValue, h]

theorem getArray_folded : s.toJson.getArray "folded" =
    if s.folded = [] then none else some (s.folded.map fun f => (foldedToJson f).value) := by
  by_cases h : s.folded = [] <;>
    simp [toJson, putOpenGroupJson, rowsValue, h]

theorem getArray_ownerChain : s.toJson.getArray "owner_chain" = if s.ownerChain = [] then none
    else some (s.ownerChain.map fun t => (transferToJson t).value) := by
  by_cases h : s.ownerChain = [] <;>
    simp [toJson, putOpenGroupJson, rowsValue, h]

theorem titles_toJson : stringOr s.toJson "title" = s.title ∧ uintOr s.toJson "title_version" = s.titleVersion := by
  by_cases ht : s.title = "" <;> by_cases hv : s.titleVersion = 0 <;>
    simp [toJson, putOpenGroupJson, stringOr, uintOr, ht, hv, Nat.pos_iff_ne_zero]

theorem floor_toJson : uintOr s.toJson "change_floor_epoch" = s.changeFloorEpoch := by
  by_cases h : s.changeFloorEpoch = 0 <;>
    simp [toJson, putOpenGroupJson, uintOr, h, Nat.pos_iff_ne_zero]

theorem dissolved_toJson : (s.toJson.getBool "dissolved").getD false = s.dissolved := by
  cases h : s.dissolved <;> simp [toJson, putOpenGroupJson, h]

theorem preset_toJson : groupPresetFromString ((s.toJson.getString "preset").getD "open") = s.preset := by
  have hpreset := groupPresetFromString_toString s.preset
  simp [toJson, putOpenGroupJson, hpreset]

theorem head_toJson : stringOr s.toJson "group_id" = s.groupId ∧
    uintOr s.toJson "roster_epoch" = s.rosterEpoch ∧ stringOr s.toJson "owner" = s.ownerIdentity ∧
    stringOr s.toJson "owner_public_key" = s.ownerPublicKeyB64 ∧
    stringOr s.toJson "owner_signature" = s.ownerSignatureB64 := by
  simp [toJson, putOpenGroupJson, stringOr, uintOr]

end Reading

/-- What is kept of a statement reads back as the statement, its times
clamped. -/
theorem fromJson_toJson {s : GroupRosterStatement} (h : s.Storable) : fromJson s.toJson = .ok s.stored := by
  obtain ⟨hgroup, hepoch, howner, hkey, hsig⟩ := head_toJson s
  obtain ⟨htitle, hversion⟩ := titles_toJson s
  have hmembers : Object.readRows "roster statement: member is not an object" memberFromJson
      (s.toJson.getArray "members") = .ok (s.members.map storedMember) := by
    rw [getArray_members]
    exact Object.mapM_read_rows _ fun m _ => memberFromJson_toJson m
  have hremoved : Object.readRows "roster statement: removed entry is not an object"
      removedFromJson (s.toJson.getArray "removed") = .ok s.removed := by
    rw [getArray_removed, readRows_left_out s.removed fun r _ => removedFromJson_toJson r,
      List.map_id']
  have hlinks : Object.readRows "roster statement: link is not an object" linkFromJson
      (s.toJson.getArray "links") = .ok (s.links.map storedLink) := by
    rw [getArray_links, readRows_left_out s.links fun l _ => linkFromJson_toJson l]
  have hfolded : Object.readRows "roster statement: folded change is not an object"
      foldedFromJson (s.toJson.getArray "folded") = .ok s.folded := by
    rw [getArray_folded, readRows_left_out s.folded fun f _ => foldedFromJson_toJson f,
      List.map_id']
  have hchain : Object.readRows "roster statement: owner transfer is not an object"
      transferFromJson (s.toJson.getArray "owner_chain") = .ok s.ownerChain := by
    rw [getArray_ownerChain, readRows_left_out s.ownerChain
      fun t ht => transferFromJson_toJson (h.ownerChain t ht), List.map_id']
  have hsome : (s.toJson.getArray "members").isNone = false := by
    rw [getArray_members]
    rfl
  unfold fromJson readOpenGroupJson
  simp only [hgroup, hepoch, howner, hkey, hsig, htitle, hversion, hsome, hmembers, hremoved,
    hlinks, hfolded, hchain, preset_toJson, dissolved_toJson, floor_toJson, h.groupId,
    h.ownerIdentity, Bool.false_eq_true, or_false, if_false]
  rfl

end GroupRosterStatement

/-! ## Account cards -/

/-- A string that must be there and not be empty. -/
def requiredString (error : String) (json : Object) (key : String) : Roe String :=
  match json.getString key with
  | none => .error (error ++ key)
  | some value => if value = "" then .error (error ++ key) else .ok value

namespace KeyCard

def toJson (card : KeyCard) : Object :=
  ({} : Object)
    |>.set "account_id" (.str card.accountId)
    |>.set "signing_public_key_b64" (.str card.signingPublicKeyB64)
    |>.set "kem_public_key_b64" (.str card.kemPublicKeyB64)
    |>.set "kem_binding_signature_b64" (.str card.kemBindingSignatureB64)

def fromJson (json : Object) : Roe KeyCard := do
  let required := requiredString "key card: missing " json
  let accountId ← required "account_id"
  let signingPublicKeyB64 ← required "signing_public_key_b64"
  let kemPublicKeyB64 ← required "kem_public_key_b64"
  let kemBindingSignatureB64 ← required "kem_binding_signature_b64"
  pure { accountId, signingPublicKeyB64, kemPublicKeyB64, kemBindingSignatureB64 }

end KeyCard

namespace AccountCard

def kAccountCardVersion : Int := 2

def deviceToJson (device : AccountCardDevice) : Object :=
  ({} : Object)
    |>.set "peer_id" (.str device.peerId)
    |>.set "signing_public_key_b64" (.str device.signingPublicKeyB64)
    |>.set "kem_public_key_b64" (.str device.kemPublicKeyB64)

def deviceFromJson (row : Object) : Roe AccountCardDevice :=
  let device : AccountCardDevice :=
    { peerId := stringOr row "peer_id"
      signingPublicKeyB64 := stringOr row "signing_public_key_b64"
      kemPublicKeyB64 := stringOr row "kem_public_key_b64" }
  if device.peerId = "" ∨ device.signingPublicKeyB64 = "" ∨ device.kemPublicKeyB64 = "" then
    .error "account card: bad device"
  else .ok device

def toJson (card : AccountCard) : Object :=
  card.keys.toJson
    |>.set "card_version" (.num kAccountCardVersion)
    |>.setIf (card.nickname ≠ "") "nickname" (.str card.nickname)
    |>.set "devices" (.array (card.devices.map fun device => (deviceToJson device).value))
    |>.set "issued_at" (.num card.issuedAt)
    |>.set "card_signature_b64" (.str card.cardSignatureB64)

def fromJson (json : Object) : Roe AccountCard :=
  if (json.getInt "card_version").getD 0 ≠ kAccountCardVersion then
    .error "account card: unsupported card_version"
  else do
    let keys ← KeyCard.fromJson json
    let devices ← Object.readRows "account card: bad device" deviceFromJson
      (json.getArray "devices")
    let cardSignatureB64 ← requiredString "account card: missing " json "card_signature_b64"
    pure { keys, devices, cardSignatureB64, nickname := stringOr json "nickname"
           issuedAt := (json.getInt "issued_at").getD 0 }

end AccountCard

/-! ## Changes -/

namespace GroupChange

def idsValue (ids : List String) : Value := .array (ids.map .str)

def bodyToJson (c : GroupChange) : Object :=
  let f := fieldsOf c.kind
  ({} : Object)
    |>.setIf (c.member ≠ "") "member" (.str c.member)
    |>.setIf (c.inviteNonce ≠ "") "invite_nonce" (.str c.inviteNonce)
    |>.setIf (c.linkId ≠ "") "link_id" (.str c.linkId)
    |>.setIf (c.readmits ≠ "") "readmits" (.str c.readmits)
    |>.setIf (c.title ≠ "") "title" (.str c.title)
    |>.setIf (c.secretHash ≠ "") "secret_hash" (.str c.secretHash)
    |>.setIf f.named "adds" (idsValue c.adds)
    |>.setIf f.named "keeps" (idsValue c.keeps)
    |>.setIf f.rename "title_version" (uintValue c.titleVersion)
    |>.setIf f.link "expires_at" (uintValue (writtenTime c.expiresAt))
    |>.setIf (f.link ∧ c.maxUses > 0) "max_uses" (uintValue c.maxUses)

def idsFromJson (body : Object) (key : String) : Roe (List String) :=
  ((body.getArray key).getD []).mapM fun item =>
    match item.asString with
    | none => .error ("roster change: " ++ key ++ " holds a non-string")
    | some id => .ok id

def bodyFromJson (body : Object) (c : GroupChange) : Roe GroupChange := do
  let adds ← idsFromJson body "adds"
  let keeps ← idsFromJson body "keeps"
  pure { c with
    member := stringOr body "member", inviteNonce := stringOr body "invite_nonce"
    linkId := stringOr body "link_id", readmits := stringOr body "readmits"
    title := stringOr body "title", titleVersion := uintOr body "title_version"
    secretHash := stringOr body "secret_hash", expiresAt := castInt (uintOr body "expires_at")
    maxUses := uintOr body "max_uses", adds, keeps }

def toJson (c : GroupChange) : Object :=
  let head := ({} : Object)
    |>.set "group_id" (.str c.groupId)
    |>.set "base_epoch" (uintValue c.baseEpoch)
    |>.set "signer" (.str c.signer)
    |>.set "signer_device" (.str c.signerDevice)
  let carried := match c.signerCard with
    | none => head
    | some card => head.set "signer_card" card.toJson.value
  carried.set "at" (uintValue (writtenTime c.at_))
    |>.set "change" (.str c.kind.toString)
    |>.set "body" c.bodyToJson.value
    |>.set "signature" (.str c.signatureB64)

/-- The card a change carries, if it carries one. -/
def cardFromJson (json : Object) : Roe (Option AccountCard) :=
  match json.getObject "signer_card" with
  | none => .ok none
  | some card => some <$> AccountCard.fromJson card

def fromJson (json : Object) : Roe GroupChange :=
  let signatureB64 := stringOr json "signature"
  match GroupChangeKind.fromString (stringOr json "change"), json.getObject "body" with
  | some kind, some body =>
    if signatureB64 = "" then .error "roster change: missing kind, body or signature"
    else do
      let change ← bodyFromJson body
        { groupId := stringOr json "group_id", baseEpoch := uintOr json "base_epoch"
          signer := stringOr json "signer", signerDevice := stringOr json "signer_device"
          at_ := castInt (uintOr json "at"), kind, signatureB64 }
      let signerCard ← cardFromJson json
      let change := { change with signerCard }
      change.checkShape
      pure change
  | _, _ => .error "roster change: missing kind, body or signature"

end GroupChange

end Pbr
