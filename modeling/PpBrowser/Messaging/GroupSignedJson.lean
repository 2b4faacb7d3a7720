import PpBrowser.Messaging.GroupRosterJson

/-!
# GroupSignedJson — what is signed is unambiguous

A roster statement, a statement that the group ended, an owner transfer and
a membership change are signed as a line of fields: a domain tag first, each
text behind its length, each list behind its count. Equal bytes are one kind
of object with one signed content.
-/

namespace Pbr

open Lib

/-! ## Rows -/

theorem memberRoleToString_inj {a b : MemberRole}
    (h : GroupRosterStatement.memberRoleToString a = GroupRosterStatement.memberRoleToString b) : a = b := by
  cases a <;> cases b <;> first | rfl | (revert h; decide)

theorem groupPresetToString_inj {a b : GroupPreset}
    (h : GroupRosterStatement.groupPresetToString a = GroupRosterStatement.groupPresetToString b) : a = b := by
  cases a <;> cases b <;> first | rfl | (revert h; decide)

/-- A text that its length prefix holds. -/
def Short (field : String) : Prop := field.utf8ByteSize < 2 ^ 32

instance (field : String) : Decidable (Short field) := inferInstanceAs (Decidable (_ < _))

namespace GroupRosterStatement

def MemberRanged (m : GroupRosterStatementMember) : Prop :=
  Short m.identity ∧ IsInt64 m.joinedAt ∧ Short m.addedBy

def RemovedRanged (r : GroupRemovedMember) : Prop :=
  Short r.identity ∧ Short r.removal ∧ Short r.removedBy

def LinkRanged (l : GroupInviteLink) : Prop :=
  Short l.linkId ∧ Short l.secretHash ∧ Short l.maker ∧ IsInt64 l.expiresAt ∧
    l.maxUses < 2 ^ 64 ∧ l.uses < 2 ^ 64

def FoldedRanged (f : GroupFoldedChange) : Prop := Short f.id ∧ f.baseEpoch < 2 ^ 64

instance : DecidablePred MemberRanged := fun _ => inferInstanceAs (Decidable (_ ∧ _))

instance : DecidablePred RemovedRanged := fun _ => inferInstanceAs (Decidable (_ ∧ _))

instance : DecidablePred LinkRanged := fun _ => inferInstanceAs (Decidable (_ ∧ _))

instance : DecidablePred FoldedRanged := fun _ => inferInstanceAs (Decidable (_ ∧ _))

theorem short_role (role : MemberRole) : Short (memberRoleToString role) := by
  cases role <;> decide

theorem short_preset (preset : GroupPreset) : Short (groupPresetToString preset) := by
  cases preset <;> decide

theorem prefixCode_putMember : PrefixCode MemberRanged putMember := by
  intro a b xs ys ha hb h
  simp only [putMember, List.append_assoc] at h
  obtain ⟨hidentity, h⟩ := putString_append_inj ha.1 hb.1 h
  obtain ⟨hrole, h⟩ := putString_append_inj (short_role _) (short_role _) h
  obtain ⟨hjoined, h⟩ := putUInt_append_inj (castUInt_lt _) (castUInt_lt _) h
  obtain ⟨haddedBy, h⟩ := putString_append_inj ha.2.2 hb.2.2 h
  have hrole := memberRoleToString_inj hrole
  have hjoined := castUInt_inj ha.2.1 hb.2.1 hjoined
  cases a
  cases b
  simp_all

theorem prefixCode_putRemoved : PrefixCode RemovedRanged putRemoved := by
  intro a b xs ys ha hb h
  simp only [putRemoved, List.append_assoc] at h
  obtain ⟨hidentity, h⟩ := putString_append_inj ha.1 hb.1 h
  obtain ⟨hremoval, h⟩ := putString_append_inj ha.2.1 hb.2.1 h
  obtain ⟨hremovedBy, h⟩ := putString_append_inj ha.2.2 hb.2.2 h
  cases a
  cases b
  simp_all

theorem prefixCode_putLink : PrefixCode LinkRanged putLink := by
  intro a b xs ys ha hb h
  obtain ⟨hida, hhasha, hmakera, hexpiresa, hmaxa, husesa⟩ := ha
  obtain ⟨hidb, hhashb, hmakerb, hexpiresb, hmaxb, husesb⟩ := hb
  simp only [putLink, List.append_assoc] at h
  obtain ⟨hlinkId, h⟩ := putString_append_inj hida hidb h
  obtain ⟨hhash, h⟩ := putString_append_inj hhasha hhashb h
  obtain ⟨hmaker, h⟩ := putString_append_inj hmakera hmakerb h
  obtain ⟨hexpires, h⟩ := putUInt_append_inj (castUInt_lt _) (castUInt_lt _) h
  obtain ⟨hmax, h⟩ := putUInt_append_inj hmaxa hmaxb h
  obtain ⟨huses, h⟩ := putUInt_append_inj husesa husesb h
  have hexpires := castUInt_inj hexpiresa hexpiresb hexpires
  cases a
  cases b
  simp_all

theorem prefixCode_putFolded : PrefixCode FoldedRanged putFolded := by
  intro a b xs ys ha hb h
  simp only [putFolded, List.append_assoc] at h
  obtain ⟨hid, h⟩ := putString_append_inj ha.1 hb.1 h
  obtain ⟨hbase, h⟩ := putUInt_append_inj ha.2 hb.2 h
  cases a
  cases b
  simp_all

/-- Sorted rows tell the rows, in some order, and where the rest starts. -/
theorem perm_of_putRows {α : Type} {ok : α → Prop} {put : α → ByteVector} (hput : PrefixCode ok put)
    {key : α → String} {a b : List α} {xs ys : ByteVector} (ha : a.length < 2 ^ 64 ∧ ∀ r ∈ a, ok r)
    (hb : b.length < 2 ^ 64 ∧ ∀ r ∈ b, ok r) (h : putRows put (a.insertionSort fun r t => key r ≤ key t) ++ xs =
      putRows put (b.insertionSort fun r t => key r ≤ key t) ++ ys) : a.Perm b ∧ xs = ys := by
  have hperm (l : List α) := List.perm_insertionSort (fun r t => key r ≤ key t) l
  have hok {l : List α} (hl : l.length < 2 ^ 64 ∧ ∀ r ∈ l, ok r) :
      (l.insertionSort fun r t => key r ≤ key t).length < 2 ^ 64 ∧
        ∀ r ∈ l.insertionSort fun r t => key r ≤ key t, ok r :=
    ⟨by rw [(hperm l).length_eq]; exact hl.1, fun r hr => hl.2 r ((hperm l).mem_iff.mp hr)⟩
  obtain ⟨hsorted, hrest⟩ := hput.counted prefixCode_putUInt (hok ha) (hok hb) h
  refine ⟨?_, hrest⟩
  exact (hperm a).symm.trans (hsorted ▸ hperm b)

/-! ## Statements and transfers -/

/-- The ranges of the C++ fields that are signed, with texts and lists that
their length prefixes hold. -/
structure Ranged (s : GroupRosterStatement) : Prop where
  strings : ∀ t ∈ [s.groupId, s.ownerIdentity, s.title], Short t
  counts : ∀ n ∈ [s.rosterEpoch, s.titleVersion, s.changeFloorEpoch], n < 2 ^ 64
  members : s.members.length < 2 ^ 64 ∧ ∀ m ∈ s.members, MemberRanged m
  removed : s.removed.length < 2 ^ 64 ∧ ∀ r ∈ s.removed, RemovedRanged r
  links : s.links.length < 2 ^ 64 ∧ ∀ l ∈ s.links, LinkRanged l
  folded : s.folded.length < 2 ^ 64 ∧ ∀ f ∈ s.folded, FoldedRanged f

/-- The same signed content; lists in no order. -/
structure SameSigned (a b : GroupRosterStatement) : Prop where
  dissolved : a.dissolved = b.dissolved
  groupId : a.groupId = b.groupId
  rosterEpoch : a.rosterEpoch = b.rosterEpoch
  ownerIdentity : a.ownerIdentity = b.ownerIdentity
  members : a.members.Perm b.members
  preset : a.preset = b.preset
  title : a.title = b.title
  titleVersion : a.titleVersion = b.titleVersion
  removed : a.removed.Perm b.removed
  links : a.links.Perm b.links
  folded : a.folded.Perm b.folded
  changeFloorEpoch : a.changeFloorEpoch = b.changeFloorEpoch

def tag (s : GroupRosterStatement) : String := if s.dissolved then kDissolvedTag else kStatementTag

theorem short_tag (s : GroupRosterStatement) : Short s.tag := by
  unfold tag
  split <;> decide

theorem tag_inj {a b : GroupRosterStatement} (h : a.tag = b.tag) : a.dissolved = b.dissolved := by
  unfold tag at h
  cases ha : a.dissolved <;> cases hb : b.dissolved <;> rw [ha, hb] at h <;>
    first | rfl | (revert h; decide)

theorem tag_ne_transfer (s : GroupRosterStatement) : s.tag ≠ kTransferTag := by
  unfold tag
  split <;> decide

theorem tag_ne_change (s : GroupRosterStatement) : s.tag ≠ GroupChange.kChangeTag := by
  unfold tag
  split <;> decide

theorem sameSigned_of_signBytes {a b : GroupRosterStatement} (ha : a.Ranged) (hb : b.Ranged)
    (h : a.signBytes = b.signBytes) : SameSigned a b := by
  have h : a.signBytes ++ [] = b.signBytes ++ [] := by rw [h]
  simp only [signBytes, sortLists, List.append_assoc] at h
  obtain ⟨htag, h⟩ := putString_append_inj a.short_tag b.short_tag h
  obtain ⟨hgroup, h⟩ := putString_append_inj (ha.strings _ (by simp)) (hb.strings _ (by simp)) h
  obtain ⟨hepoch, h⟩ := putUInt_append_inj (ha.counts _ (by simp)) (hb.counts _ (by simp)) h
  obtain ⟨howner, h⟩ := putString_append_inj (ha.strings _ (by simp)) (hb.strings _ (by simp)) h
  obtain ⟨hmembers, h⟩ := perm_of_putRows prefixCode_putMember ha.members hb.members h
  obtain ⟨hpreset, h⟩ := putString_append_inj (short_preset _) (short_preset _) h
  obtain ⟨htitle, h⟩ := putString_append_inj (ha.strings _ (by simp)) (hb.strings _ (by simp)) h
  obtain ⟨hversion, h⟩ := putUInt_append_inj (ha.counts _ (by simp)) (hb.counts _ (by simp)) h
  obtain ⟨hremoved, h⟩ := perm_of_putRows prefixCode_putRemoved ha.removed hb.removed h
  obtain ⟨hlinks, h⟩ := perm_of_putRows prefixCode_putLink ha.links hb.links h
  obtain ⟨hfolded, h⟩ := perm_of_putRows prefixCode_putFolded ha.folded hb.folded h
  obtain ⟨hfloor, h⟩ := putUInt_append_inj (ha.counts _ (by simp)) (hb.counts _ (by simp)) h
  exact {
    dissolved := tag_inj htag, groupId := hgroup, rosterEpoch := hepoch, ownerIdentity := howner
    members := hmembers, preset := groupPresetToString_inj hpreset, title := htitle
    titleVersion := hversion, removed := hremoved, links := hlinks, folded := hfolded
    changeFloorEpoch := hfloor }

structure TransferRanged (groupId : String) (t : GroupOwnerTransfer) : Prop where
  strings : ∀ x ∈ [groupId, t.fromIdentity, t.toIdentity], Short x
  rosterEpoch : t.rosterEpoch < 2 ^ 64

/-- The same signed content of two transfers. -/
structure SameTransfer (g : String) (t : GroupOwnerTransfer) (g' : String)
    (t' : GroupOwnerTransfer) : Prop where
  groupId : g = g'
  fromIdentity : t.fromIdentity = t'.fromIdentity
  toIdentity : t.toIdentity = t'.toIdentity
  rosterEpoch : t.rosterEpoch = t'.rosterEpoch

theorem sameTransfer_of_signBytes {g g' : String} {t t' : GroupOwnerTransfer}
    (ha : TransferRanged g t) (hb : TransferRanged g' t')
    (h : transferSignBytes g t = transferSignBytes g' t') : SameTransfer g t g' t' := by
  have h : transferSignBytes g t ++ [] = transferSignBytes g' t' ++ [] := by rw [h]
  simp only [transferSignBytes, List.append_assoc] at h
  obtain ⟨-, h⟩ := putString_append_inj (by decide) (by decide) h
  obtain ⟨hgroup, h⟩ := putString_append_inj (ha.strings _ (by simp)) (hb.strings _ (by simp)) h
  obtain ⟨hfrom, h⟩ := putString_append_inj (ha.strings _ (by simp)) (hb.strings _ (by simp)) h
  obtain ⟨hto, h⟩ := putString_append_inj (ha.strings _ (by simp)) (hb.strings _ (by simp)) h
  obtain ⟨hepoch, h⟩ := putUInt_append_inj ha.rosterEpoch hb.rosterEpoch h
  exact ⟨hgroup, hfrom, hto, hepoch⟩

end GroupRosterStatement

/-! ## One domain for every kind -/

/-- What an account or one of its devices signs for a group. -/
inductive GroupSigned where
  | statement (s : GroupRosterStatement)
  | transfer (groupId : String) (t : GroupOwnerTransfer)
  | change (c : GroupChange)

namespace GroupSigned

open GroupRosterStatement (transferSignBytes TransferRanged SameTransfer)

def signBytes : GroupSigned → ByteVector
  | statement s => s.signBytes
  | transfer groupId t => transferSignBytes groupId t
  | change c => c.signBytes

def Ranged : GroupSigned → Prop
  | statement s => s.Ranged
  | transfer groupId t => TransferRanged groupId t
  | change c => c.Ranged

/-- One kind of object, with the same signed content. -/
def SameSigned : GroupSigned → GroupSigned → Prop
  | statement a, statement b => a.SameSigned b
  | transfer g t, transfer g' t' => SameTransfer g t g' t'
  | change a, change b => a.SameSigned b
  | _, _ => False

def tag : GroupSigned → String
  | statement s => s.tag
  | transfer _ _ => GroupRosterStatement.kTransferTag
  | change _ => GroupChange.kChangeTag

theorem short_tag (a : GroupSigned) : Short a.tag := by
  cases a with
  | statement s => exact s.short_tag
  | transfer g t =>
    show GroupRosterStatement.kTransferTag.utf8ByteSize < 2 ^ 32
    decide
  | change c =>
    show GroupChange.kChangeTag.utf8ByteSize < 2 ^ 32
    decide

theorem signBytes_eq (a : GroupSigned) : ∃ rest, a.signBytes = putString a.tag ++ rest := by
  cases a with
  | statement s =>
    simp only [signBytes, GroupRosterStatement.signBytes, List.append_assoc]
    exact ⟨_, rfl⟩
  | transfer g t =>
    simp only [signBytes, transferSignBytes, List.append_assoc]
    exact ⟨_, rfl⟩
  | change c =>
    simp only [signBytes, GroupChange.signBytes, List.append_assoc]
    exact ⟨_, rfl⟩

theorem tag_eq_of_signBytes {a b : GroupSigned} (h : a.signBytes = b.signBytes) : a.tag = b.tag := by
  obtain ⟨xs, ha⟩ := a.signBytes_eq
  obtain ⟨ys, hb⟩ := b.signBytes_eq
  rw [ha, hb] at h
  exact (putString_append_inj a.short_tag b.short_tag h).1

end GroupSigned

/-- Equal sign bytes are of one kind of object, with equal signed content. -/
theorem signed_content_of_signBytes {a b : GroupSigned} (ha : a.Ranged) (hb : b.Ranged)
    (h : a.signBytes = b.signBytes) : a.SameSigned b := by
  have htag := GroupSigned.tag_eq_of_signBytes h
  have htransfer : GroupRosterStatement.kTransferTag ≠ GroupChange.kChangeTag := by decide
  cases a with
  | statement s =>
    cases b with
    | statement s' => exact GroupRosterStatement.sameSigned_of_signBytes ha hb h
    | transfer g t => exact absurd htag s.tag_ne_transfer
    | change c => exact absurd htag s.tag_ne_change
  | transfer g t =>
    cases b with
    | transfer g' t' => exact GroupRosterStatement.sameTransfer_of_signBytes ha hb h
    | statement s => exact absurd htag.symm s.tag_ne_transfer
    | change c => exact absurd htag htransfer
  | change c =>
    cases b with
    | change c' => exact GroupChange.sameSigned_of_signBytes ha hb h
    | statement s => exact absurd htag.symm s.tag_ne_change
    | transfer g t => exact absurd htag.symm htransfer

/-- The sample statement with its members in another order. -/
def sampleReordered : GroupRosterStatement :=
  { sampleStatement with members := sampleStatement.members.reverse }

set_option maxRecDepth 20000 in
theorem signed_content_of_signBytes_sample :
    (GroupSigned.statement sampleStatement).SameSigned (.statement sampleReordered) := by
  have hranged (s : GroupRosterStatement) (h : s = sampleStatement ∨ s = sampleReordered) :
      (GroupSigned.statement s).Ranged := by
    rcases h with rfl | rfl <;>
      exact ⟨by decide, by decide, by decide, by decide, by decide, by decide⟩
  exact signed_content_of_signBytes (hranged _ (.inl rfl)) (hranged _ (.inr rfl)) (by decide)

/-! ## Signed objects survive JSON -/

open Lib.Json

/-! ## Fields read back -/

theorem stringOr_eq {json : Object} {key text : String}
    (h : json.get? key = if text ≠ "" then some (.str text) else none) : stringOr json key = text := by
  rw [stringOr, Object.getString, h]
  by_cases htext : text = ""
  · simp [htext]
  · simp [htext]

theorem uintOr_eq {json : Object} {key : String} {n : Nat} {p : Prop} [Decidable p]
    (hzero : ¬ p → n = 0) (h : json.get? key = if p then some (.num n) else none) : uintOr json key = n := by
  rw [uintOr, Object.getNonNegInt, h]
  by_cases hp : p
  · simp [hp]
  · simp [hp, hzero hp]

/-! ## Account cards -/

namespace AccountCard

/-- What a reader requires of a device. -/
def DeviceReadable (device : AccountCardDevice) : Prop :=
  device.peerId ≠ "" ∧ device.signingPublicKeyB64 ≠ "" ∧ device.kemPublicKeyB64 ≠ ""

/-- What a reader requires of a card. -/
structure Readable (card : AccountCard) : Prop where
  accountId : card.keys.accountId ≠ ""
  signingPublicKeyB64 : card.keys.signingPublicKeyB64 ≠ ""
  kemPublicKeyB64 : card.keys.kemPublicKeyB64 ≠ ""
  kemBindingSignatureB64 : card.keys.kemBindingSignatureB64 ≠ ""
  devices : ∀ device ∈ card.devices, DeviceReadable device
  cardSignatureB64 : card.cardSignatureB64 ≠ ""

theorem deviceFromJson_toJson {device : AccountCardDevice} (h : DeviceReadable device) :
    deviceFromJson (deviceToJson device) = .ok device := by
  obtain ⟨hpeer, hsigning, hkem⟩ := h
  simp [deviceFromJson, deviceToJson, stringOr, hpeer, hsigning, hkem]

theorem requiredString_eq (error : String) {json : Object} {key text : String}
    (hget : json.get? key = some (.str text)) (hne : text ≠ "") : requiredString error json key = .ok text := by
  simp [requiredString, hget, hne]

theorem keysFromJson_toJson {card : AccountCard} (h : card.Readable) :
    KeyCard.fromJson card.toJson = .ok card.keys := by
  have hkey (key : String) {text : String} (hget : card.toJson.get? key = some (.str text))
      (hne : text ≠ "") := requiredString_eq "key card: missing " hget hne
  have haccount := hkey "account_id" (by simp [toJson, KeyCard.toJson]) h.accountId
  have hsigning := hkey "signing_public_key_b64" (by simp [toJson, KeyCard.toJson])
    h.signingPublicKeyB64
  have hkem := hkey "kem_public_key_b64" (by simp [toJson, KeyCard.toJson]) h.kemPublicKeyB64
  have hbinding := hkey "kem_binding_signature_b64" (by simp [toJson, KeyCard.toJson])
    h.kemBindingSignatureB64
  rw [KeyCard.fromJson]
  simp only [haccount, hsigning, hkem, hbinding]
  rfl

theorem fromJson_toJson {card : AccountCard} (h : card.Readable) : fromJson card.toJson = .ok card := by
  have hversion : card.toJson.getInt "card_version" = some kAccountCardVersion := by
    simp [toJson]
  have hissued : card.toJson.getInt "issued_at" = some card.issuedAt := by
    simp [toJson]
  have hnickname : stringOr card.toJson "nickname" = card.nickname :=
    stringOr_eq (by simp [toJson, KeyCard.toJson])
  have hdevices : Object.readRows "account card: bad device" deviceFromJson
      (card.toJson.getArray "devices") = .ok card.devices := by
    have hget : card.toJson.getArray "devices" =
        some (card.devices.map fun device => (deviceToJson device).value) := by
      simp [toJson]
    rw [hget, Object.mapM_read_rows _ fun device hd => deviceFromJson_toJson (h.devices device hd),
      List.map_id']
  have hsignature : requiredString "account card: missing " card.toJson "card_signature_b64" =
      .ok card.cardSignatureB64 :=
    requiredString_eq _ (by simp [toJson]) h.cardSignatureB64
  rw [fromJson, hversion, Option.getD_some, if_neg (by simp)]
  simp only [keysFromJson_toJson h, hdevices, hsignature, hnickname, hissued]
  rfl

end AccountCard

/-! ## Changes -/

namespace GroupChange

theorem noForeignFields_of_checkShape {c : GroupChange} (h : c.checkShape = .ok ()) : c.noForeignFields = true := by
  unfold checkShape at h
  split at h
  · cases h
  · split at h
    · cases h
    · next hforeign => simpa using hforeign

theorem idsFromJson_eq {body : Object} {key : String} {ids : List String} {p : Prop} [Decidable p]
    (hnone : ¬ p → ids = []) (h : body.get? key = if p then some (idsValue ids) else none) :
    idsFromJson body key = .ok ids := by
  have hread (read : Value → Except String String) (hstr : ∀ id, read (.str id) = .ok id) (l : List String) :
      (l.map Value.str).mapM read = .ok l := by
    induction l with
    | nil => rfl
    | cons id l ih =>
      rw [List.map_cons, List.mapM_cons, ih, hstr]
      rfl
  rw [idsFromJson, Object.getArray, h]
  by_cases hp : p
  · rw [if_pos hp]
    exact hread _ (fun _ => rfl) ids
  · rw [if_neg hp, hnone hp]
    rfl

section Body

variable {c : GroupChange}

theorem texts_bodyToJson (c : GroupChange) : stringOr c.bodyToJson "member" = c.member ∧
    stringOr c.bodyToJson "invite_nonce" = c.inviteNonce ∧ stringOr c.bodyToJson "link_id" = c.linkId ∧
    stringOr c.bodyToJson "readmits" = c.readmits ∧ stringOr c.bodyToJson "title" = c.title ∧
    stringOr c.bodyToJson "secret_hash" = c.secretHash := by
  refine ⟨?_, ?_, ?_, ?_, ?_, ?_⟩ <;> exact stringOr_eq (by simp [bodyToJson])

/-- The lists and numbers of a body are written for the kinds that carry
them; other kinds have none. -/
theorem bodyFromJson_toJson (hforeign : c.noForeignFields = true)
    (hexpires : 0 ≤ c.expiresAt ∧ IsInt64 c.expiresAt) (d : GroupChange) :
    bodyFromJson c.bodyToJson d = .ok { d with
      member := c.member, inviteNonce := c.inviteNonce, linkId := c.linkId
      readmits := c.readmits, title := c.title, titleVersion := c.titleVersion
      secretHash := c.secretHash, expiresAt := c.expiresAt, maxUses := c.maxUses
      adds := c.adds, keeps := c.keeps } := by
  simp only [noForeignFields, decide_eq_true_eq] at hforeign
  obtain ⟨-, -, -, -, hnamed, hrename, hlink⟩ := hforeign
  obtain ⟨hmember, hnonce, hlinkId, hreadmits, htitle, hsecret⟩ := texts_bodyToJson c
  have hadds : idsFromJson c.bodyToJson "adds" = .ok c.adds :=
    idsFromJson_eq (fun hno => (hnamed.resolve_left hno).1) (by simp [bodyToJson])
  have hkeeps : idsFromJson c.bodyToJson "keeps" = .ok c.keeps :=
    idsFromJson_eq (fun hno => (hnamed.resolve_left hno).2) (by simp [bodyToJson])
  have hversion : uintOr c.bodyToJson "title_version" = c.titleVersion :=
    uintOr_eq (fun hno => (hrename.resolve_left hno).2) (by simp [bodyToJson])
  have hmax : uintOr c.bodyToJson "max_uses" = c.maxUses := by
    refine uintOr_eq (p := (fieldsOf c.kind).link ∧ c.maxUses > 0) (fun hno => ?_)
      (by simp [bodyToJson])
    rcases hlink with hl | hzero
    · exact Nat.eq_zero_of_not_pos fun hpos => hno ⟨hl, hpos⟩
    · exact hzero.2.2
  have hwritten : uintOr c.bodyToJson "expires_at" = writtenTime c.expiresAt :=
    uintOr_eq (fun hno => by rw [(hlink.resolve_left hno).2.1]; rfl) (by simp [bodyToJson])
  have htime : castInt (writtenTime c.expiresAt) = c.expiresAt := storedTime_eq hexpires.1 hexpires.2.2
  rw [bodyFromJson, hadds, hkeeps]
  simp only [hmember, hnonce, hlinkId, hreadmits, htitle, hsecret, hversion, hmax, hwritten, htime]
  rfl

end Body

/-- A change with a signature and, if it carries one, a readable card. -/
structure Sendable (c : GroupChange) : Prop where
  signature : c.signatureB64 ≠ ""
  card : ∀ card, c.signerCard = some card → card.Readable

theorem cardFromJson_toJson {c : GroupChange} (h : c.Sendable) : cardFromJson c.toJson = .ok c.signerCard := by
  cases hcard : c.signerCard with
  | none =>
    have hget : c.toJson.getObject "signer_card" = none := by
      simp [toJson, hcard]
    rw [cardFromJson, hget]
  | some card =>
    have hget : c.toJson.getObject "signer_card" = some card.toJson := by
      simp [toJson, hcard, Object.value, Value.asObject]
    rw [cardFromJson, hget]
    show some <$> AccountCard.fromJson card.toJson = _
    rw [AccountCard.fromJson_toJson (h.card card hcard)]
    rfl

theorem head_toJson (c : GroupChange) : stringOr c.toJson "group_id" = c.groupId ∧
    uintOr c.toJson "base_epoch" = c.baseEpoch ∧ stringOr c.toJson "signer" = c.signer ∧
    stringOr c.toJson "signer_device" = c.signerDevice ∧ uintOr c.toJson "at" = writtenTime c.at_ ∧
    stringOr c.toJson "change" = c.kind.toString ∧ c.toJson.getObject "body" = some c.bodyToJson ∧
    stringOr c.toJson "signature" = c.signatureB64 := by
  cases hcard : c.signerCard <;>
    simp [toJson, hcard, stringOr, uintOr, Object.value, Value.asObject]

theorem fromJson_toJson {c : GroupChange} (hshape : c.checkShape = .ok ()) (hsend : c.Sendable)
    (hat : 0 ≤ c.at_ ∧ IsInt64 c.at_) (hexpires : 0 ≤ c.expiresAt ∧ IsInt64 c.expiresAt) :
    fromJson c.toJson = .ok c := by
  obtain ⟨hgroup, hbase, hsigner, hdevice, htime, hkind, hbody, hsignature⟩ := head_toJson c
  have hstored : castInt (writtenTime c.at_) = c.at_ := storedTime_eq hat.1 hat.2.2
  have hforeign := noForeignFields_of_checkShape hshape
  rw [fromJson]
  simp only [hgroup, hbase, hsigner, hdevice, htime, hkind, hbody, hsignature, hstored,
    GroupChangeKind.fromString_toString, if_neg hsend.signature,
    bodyFromJson_toJson hforeign hexpires, cardFromJson_toJson hsend]
  show (do c.checkShape; pure c : Roe GroupChange) = .ok c
  rw [hshape]
  rfl

end GroupChange

/-! ## Statements -/

namespace GroupRosterStatement

structure TimesKept (s : GroupRosterStatement) : Prop where
  joinedAt : ∀ m ∈ s.members, 0 ≤ m.joinedAt ∧ IsInt64 m.joinedAt
  expiresAt : ∀ l ∈ s.links, 0 ≤ l.expiresAt ∧ IsInt64 l.expiresAt

theorem stored_eq {s : GroupRosterStatement} (h : s.TimesKept) : s.stored = s := by
  have hmembers : s.members.map storedMember = s.members := by
    conv_rhs => rw [← List.map_id s.members]
    refine List.map_congr_left fun m hm => ?_
    rw [storedMember, storedTime_eq (h.joinedAt m hm).1 (h.joinedAt m hm).2.2]
    rfl
  have hlinks : s.links.map storedLink = s.links := by
    conv_rhs => rw [← List.map_id s.links]
    refine List.map_congr_left fun l hl => ?_
    rw [storedLink, storedTime_eq (h.expiresAt l hl).1 (h.expiresAt l hl).2.2]
    rfl
  rw [stored, hmembers, hlinks]

end GroupRosterStatement

open GroupRosterStatement (Transferable transferToJson transferFromJson)

/-- A signed change and a statement whose transfers are signed come back as
they were sent. -/
theorem signed_objects_read_back :
    (∀ c : GroupChange, c.checkShape = .ok () → c.Sendable → 0 ≤ c.at_ ∧ IsInt64 c.at_ →
      0 ≤ c.expiresAt ∧ IsInt64 c.expiresAt → GroupChange.fromJson c.toJson = .ok c) ∧
    ∀ s : GroupRosterStatement, s.checkStructure = .ok () → (∀ t ∈ s.ownerChain, Transferable t) →
      s.TimesKept → GroupRosterStatement.fromJson s.toJson = .ok s ∧
        ∀ t ∈ s.ownerChain, transferFromJson (transferToJson t) = .ok t := by
  refine ⟨fun c hshape hsend hat hexpires => GroupChange.fromJson_toJson hshape hsend hat hexpires,
    fun s hs hchain htimes => ⟨?_, fun t ht => ?_⟩⟩
  · have hs := GroupRosterStatement.checkStructure_iff.mp hs
    rw [GroupRosterStatement.fromJson_toJson ⟨hs.groupId, hs.ownerIdentity, hchain⟩,
      GroupRosterStatement.stored_eq htimes]
  · exact GroupRosterStatement.transferFromJson_toJson (hchain t ht)

/-- The admin `a` adds `x`, with the device's signature or none yet. -/
def sampleSignedAdd (signature : String) : GroupChange :=
  { groupId := "g", baseEpoch := 1, signer := "a", signerDevice := "d", member := "x"
    inviteNonce := "i", signatureB64 := signature }

/-- The sample group, handed on by `a` with a signature or none. -/
def sampleHandedOn (signature : String) : GroupRosterStatement :=
  { sampleStatement with
    ownerChain := [{ fromIdentity := "a", toIdentity := "o", rosterEpoch := 1
                     signatureB64 := signature }] }

set_option maxRecDepth 20000 in
/-- A change that is not signed yet is well formed and does not read back;
neither does a well formed statement with a transfer nobody signed. -/
theorem unsigned_not_read_back :
    ((sampleSignedAdd "").checkShape = .ok () ∧
      GroupChange.fromJson (sampleSignedAdd "").toJson =
        .error "roster change: missing kind, body or signature") ∧
    (sampleHandedOn "").checkStructure = .ok () ∧
      GroupRosterStatement.fromJson (sampleHandedOn "").toJson =
        .error "owner transfer: missing field" :=
  ⟨⟨by decide, rfl⟩, by decide, rfl⟩

set_option maxRecDepth 20000 in
theorem signed_objects_read_back_sample :
    GroupChange.fromJson (sampleSignedAdd "s").toJson = .ok (sampleSignedAdd "s") ∧
    GroupRosterStatement.fromJson (sampleHandedOn "s").toJson = .ok (sampleHandedOn "s") := by
  obtain ⟨hchange, hstatement⟩ := signed_objects_read_back
  refine ⟨hchange _ (by decide) ⟨by decide, fun card h => by cases h⟩ (by decide) (by decide),
    (hstatement (sampleHandedOn "s") (by decide) ?_ ⟨?_, ?_⟩).1⟩
  · intro t ht
    obtain rfl := List.mem_singleton.mp ht
    exact ⟨by decide, by decide, by decide⟩
  · decide
  · decide

end Pbr
