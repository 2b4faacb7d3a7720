import Mathlib.Algebra.Order.Ring.Int
import PpBrowser.Delivery.PeerRequestAuth
import PpBrowser.People.AccountCardSigned

/-!
# PeerRequestSigned — a request authorizes itself

Equal sign bytes are of one kind of request with equal signed fields; a
request that verifies names the link it came on and is signed by the account
it names, and is read back from its JSON to verify again.
-/

namespace Pbr

open Lib.Json PeerRequestAuth

/-! ## What is signed -/

theorem ThreadChannel.toText_inj {a b : ThreadChannel} (h : a.toText = b.toText) : a = b := by
  cases a <;> cases b <;> first | rfl | (revert h; decide)

theorem ThreadChannel.ofText_toText (channel : ThreadChannel) : ThreadChannel.ofText channel.toText = channel := by
  cases channel <;> decide

theorem ThreadChannel.isText_toText (channel : ThreadChannel) : IsText channel.toText := by
  cases channel <;> decide

theorem ChatBlobOp.toByte_inj {a b : ChatBlobOp} (h : a.toByte = b.toByte) : a = b := by
  cases a <;> cases b <;> first | rfl | (revert h; decide)

theorem ChatBlobOp.ofText_toText (op : ChatBlobOp) : ChatBlobOp.ofText op.toText = op := by
  cases op <;> decide

/-- The signed part of who asks. -/
def RequestAuth.Same (a b : RequestAuth) : Prop :=
  a.requesterAccountId = b.requesterAccountId ∧ a.requesterPeerId = b.requesterPeerId ∧ a.timestampMs = b.timestampMs

def RequestAuth.IsSized (auth : RequestAuth) : Prop := IsText auth.requesterAccountId ∧ IsText auth.requesterPeerId

namespace PeerRequest

/-- Texts a machine holds. -/
def IsSized : PeerRequest → Prop
  | history request => request.auth.IsSized ∧ ∀ text ∈ [request.requesterIdentityKind, request.requesterIdentityValue,
      request.peerIdentityKind, request.peerIdentityValue, request.order], IsText text
  | blob request => request.auth.IsSized ∧ ∀ text ∈ [request.requesterIdentityKind, request.requesterIdentityValue,
      request.peerIdentityKind, request.peerIdentityValue, request.threadId, request.contentHashHex], IsText text
  | card request => request.auth.IsSized ∧ IsText request.accountId

/-- One kind of request with the same signed fields; an absent bound is the
bound that admits every number. -/
def Same : PeerRequest → PeerRequest → Prop
  | history a, history b =>
    a.auth.Same b.auth ∧ a.requesterIdentityKind = b.requesterIdentityKind ∧
      a.requesterIdentityValue = b.requesterIdentityValue ∧ a.peerIdentityKind = b.peerIdentityKind ∧
      a.peerIdentityValue = b.peerIdentityValue ∧ a.channel = b.channel ∧ a.sessionEpoch = b.sessionEpoch ∧
      a.minSenderSeq.getD 0 = b.minSenderSeq.getD 0 ∧
      a.maxSenderSeq.getD (.ofNat (2 ^ 64 - 1)) = b.maxSenderSeq.getD (.ofNat (2 ^ 64 - 1)) ∧
      a.limit = b.limit ∧ a.order = b.order
  | blob a, blob b =>
    a.auth.Same b.auth ∧ a.op = b.op ∧ a.requesterIdentityKind = b.requesterIdentityKind ∧
      a.requesterIdentityValue = b.requesterIdentityValue ∧ a.peerIdentityKind = b.peerIdentityKind ∧
      a.peerIdentityValue = b.peerIdentityValue ∧ a.threadId = b.threadId ∧ a.contentHashHex = b.contentHashHex ∧
      a.channel = b.channel
  | card a, card b => a.auth.Same b.auth ∧ a.accountId = b.accountId
  | _, _ => False

/-- The kind a request is signed as. -/
def kind : PeerRequest → String
  | history _ => "history"
  | blob _ => "blob"
  | card _ => "account-card"

theorem isText_kind (request : PeerRequest) : IsText request.kind := by
  cases request with
  | history request => exact show IsText "history" by decide
  | blob request => exact show IsText "blob" by decide
  | card request => exact show IsText "account-card" by decide

theorem begin_inj {kind kind' : String} {a b : RequestAuth} {xs ys : ByteVector} (hkind : IsText kind)
    (hkind' : IsText kind') (ha : a.IsSized) (hb : b.IsSized) (h : begin kind a ++ xs = begin kind' b ++ ys) :
    kind = kind' ∧ a.Same b ∧ xs = ys := by
  simp only [begin, List.append_assoc] at h
  have hfields := List.append_cancel_left h
  obtain ⟨hsame, hfields⟩ := wireLenUtf8_inj hkind hkind' hfields
  obtain ⟨haccount, hfields⟩ := wireLenUtf8_inj ha.1 hb.1 hfields
  obtain ⟨hpeer, hfields⟩ := wireLenUtf8_inj ha.2 hb.2 hfields
  obtain ⟨htime, hrest⟩ := wireI64_inj hfields
  exact ⟨hsame, ⟨haccount, hpeer, htime⟩, hrest⟩

theorem signBytes_eq (request : PeerRequest) : ∃ rest, request.signBytes = begin request.kind request.auth ++ rest := by
  cases request with
  | history request =>
    simp only [signBytes, historySignBytes, List.append_assoc]
    exact ⟨_, rfl⟩
  | blob request =>
    simp only [signBytes, blobSignBytes, List.append_assoc]
    exact ⟨_, rfl⟩
  | card request => exact ⟨_, rfl⟩

theorem same_history {a b : ChatHistoryRequest} (ha : (history a).IsSized) (hb : (history b).IsSized)
    (h : historySignBytes a = historySignBytes b) : (history a).Same (history b) := by
  have htail : historySignBytes a ++ [] = historySignBytes b ++ [] := by rw [h]
  simp only [historySignBytes, List.append_assoc] at htail
  obtain ⟨-, hauth, htail⟩ := begin_inj (isText_kind (history a)) (isText_kind (history b)) ha.1 hb.1 htail
  obtain ⟨hkind, htail⟩ := wireLenUtf8_inj (ha.2 _ (by simp)) (hb.2 _ (by simp)) htail
  obtain ⟨hvalue, htail⟩ := wireLenUtf8_inj (ha.2 _ (by simp)) (hb.2 _ (by simp)) htail
  obtain ⟨hpeerKind, htail⟩ := wireLenUtf8_inj (ha.2 _ (by simp)) (hb.2 _ (by simp)) htail
  obtain ⟨hpeerValue, htail⟩ := wireLenUtf8_inj (ha.2 _ (by simp)) (hb.2 _ (by simp)) htail
  obtain ⟨hchannel, htail⟩ := wireLenUtf8_inj a.channel.isText_toText b.channel.isText_toText htail
  obtain ⟨hepoch, htail⟩ := wireU32_inj htail
  obtain ⟨hmin, htail⟩ := wireU64_inj htail
  obtain ⟨hmax, htail⟩ := wireU64_inj htail
  obtain ⟨hlimit, htail⟩ := wireU64_inj htail
  obtain ⟨horder, -⟩ := wireLenUtf8_inj (ha.2 _ (by simp)) (hb.2 _ (by simp)) htail
  exact ⟨hauth, hkind, hvalue, hpeerKind, hpeerValue, ThreadChannel.toText_inj hchannel, hepoch, hmin, hmax, hlimit, horder⟩

theorem same_blob {a b : ChatBlobRequest} (ha : (blob a).IsSized) (hb : (blob b).IsSized)
    (h : blobSignBytes a = blobSignBytes b) : (blob a).Same (blob b) := by
  have htail : blobSignBytes a ++ [] = blobSignBytes b ++ [] := by rw [h]
  simp only [blobSignBytes, List.append_assoc] at htail
  obtain ⟨-, hauth, htail⟩ := begin_inj (isText_kind (blob a)) (isText_kind (blob b)) ha.1 hb.1 htail
  obtain ⟨hop, htail⟩ := wireU8_inj htail
  obtain ⟨hkind, htail⟩ := wireLenUtf8_inj (ha.2 _ (by simp)) (hb.2 _ (by simp)) htail
  obtain ⟨hvalue, htail⟩ := wireLenUtf8_inj (ha.2 _ (by simp)) (hb.2 _ (by simp)) htail
  obtain ⟨hpeerKind, htail⟩ := wireLenUtf8_inj (ha.2 _ (by simp)) (hb.2 _ (by simp)) htail
  obtain ⟨hpeerValue, htail⟩ := wireLenUtf8_inj (ha.2 _ (by simp)) (hb.2 _ (by simp)) htail
  obtain ⟨hthread, htail⟩ := wireLenUtf8_inj (ha.2 _ (by simp)) (hb.2 _ (by simp)) htail
  obtain ⟨hhash, htail⟩ := wireLenUtf8_inj (ha.2 _ (by simp)) (hb.2 _ (by simp)) htail
  obtain ⟨hchannel, -⟩ := wireLenUtf8_inj a.channel.isText_toText b.channel.isText_toText htail
  exact ⟨hauth, ChatBlobOp.toByte_inj hop, hkind, hvalue, hpeerKind, hpeerValue, hthread, hhash,
    ThreadChannel.toText_inj hchannel⟩

theorem same_card {a b : AccountCardRequest} (ha : (card a).IsSized) (hb : (card b).IsSized)
    (h : cardSignBytes a = cardSignBytes b) : (card a).Same (card b) := by
  have htail : cardSignBytes a ++ [] = cardSignBytes b ++ [] := by rw [h]
  simp only [cardSignBytes, List.append_assoc] at htail
  obtain ⟨-, hauth, htail⟩ := begin_inj (isText_kind (card a)) (isText_kind (card b)) ha.1 hb.1 htail
  obtain ⟨haccount, -⟩ := wireLenUtf8_inj ha.2 hb.2 htail
  exact ⟨hauth, haccount⟩

theorem kind_of_signBytes {a b : PeerRequest} (h : a.signBytes = b.signBytes) : a.kind = b.kind := by
  obtain ⟨xs, hxs⟩ := a.signBytes_eq
  obtain ⟨ys, hys⟩ := b.signBytes_eq
  rw [hxs, hys] at h
  simp only [begin, List.append_assoc] at h
  exact (wireLenUtf8_inj a.isText_kind b.isText_kind (List.append_cancel_left h)).1

theorem same_of_signBytes {a b : PeerRequest} (ha : a.IsSized) (hb : b.IsSized) (h : a.signBytes = b.signBytes) :
    a.Same b := by
  have hkind := kind_of_signBytes h
  cases a with
  | history a =>
    cases b with
    | history b => exact same_history ha hb h
    | blob b => exact absurd (show "history" = "blob" from hkind) (by decide)
    | card b => exact absurd (show "history" = "account-card" from hkind) (by decide)
  | blob a =>
    cases b with
    | history b => exact absurd (show "blob" = "history" from hkind) (by decide)
    | blob b => exact same_blob ha hb h
    | card b => exact absurd (show "blob" = "account-card" from hkind) (by decide)
  | card a =>
    cases b with
    | history b => exact absurd (show "account-card" = "history" from hkind) (by decide)
    | blob b => exact absurd (show "account-card" = "blob" from hkind) (by decide)
    | card b => exact same_card ha hb h

end PeerRequest

/-! ## Read back -/

theorem KeyCard.fromJson_toJson {K : CardCrypto} (hK : K.Spells) {keys : KeyCard} (h : keys.verify K = .ok ()) :
    KeyCard.fromJson keys.toJson = .ok keys := by
  obtain ⟨haccount, hsigning, hkem, hbinding⟩ := AccountCard.fields_of_keys_verify hK h
  have hkey (key : String) {text : String} (hget : keys.toJson.get? key = some (.str text)) (hne : text ≠ "") :=
    AccountCard.requiredString_eq "key card: missing " hget hne
  have hread_account := hkey "account_id" (by simp [toJson]) haccount
  have hread_signing := hkey "signing_public_key_b64" (by simp [toJson]) hsigning
  have hread_kem := hkey "kem_public_key_b64" (by simp [toJson]) hkem
  have hread_binding := hkey "kem_binding_signature_b64" (by simp [toJson]) hbinding
  rw [KeyCard.fromJson]
  simp only [hread_account, hread_signing, hread_kem, hread_binding]
  rfl

/-- What a key card's reader gives is what the writer put. -/
theorem KeyCard.eq_of_fromJson {keys read : KeyCard} (h : KeyCard.fromJson keys.toJson = .ok read) : read = keys := by
  have htext (key : String) {text value : String} (hget : keys.toJson.get? key = some (.str text))
      (hread : requiredString "key card: missing " keys.toJson key = .ok value) : value = text := by
    rw [requiredString, Object.getString, hget] at hread
    simp only [Option.bind_some, Value.asString] at hread
    split_ifs at hread
    exact (Except.ok.inj hread).symm
  obtain ⟨account, haccount, hrest⟩ := roe_bind_ok.mp h
  obtain ⟨signing, hsigning, hrest⟩ := roe_bind_ok.mp hrest
  obtain ⟨kem, hkem, hrest⟩ := roe_bind_ok.mp hrest
  obtain ⟨binding, hbinding, hrest⟩ := roe_bind_ok.mp hrest
  obtain rfl := Except.ok.inj hrest
  have haccount_eq : account = keys.accountId := htext _ (by simp [toJson]) haccount
  have hsigning_eq : signing = keys.signingPublicKeyB64 := htext _ (by simp [toJson]) hsigning
  have hkem_eq : kem = keys.kemPublicKeyB64 := htext _ (by simp [toJson]) hkem
  have hbinding_eq : binding = keys.kemBindingSignatureB64 := htext _ (by simp [toJson]) hbinding
  rw [haccount_eq, hsigning_eq, hkem_eq, hbinding_eq]

namespace RequestAuth

theorem read_put {auth : RequestAuth} (h : auth.signature ≠ "") (json : Object) : read (auth.put json) = auth := by
  rw [put, if_neg h]
  simp [read, stringOr]

theorem get?_put {auth : RequestAuth} {json : Object} {key : String}
    (h : key ∉ ["requester_account_id", "requester_peer_id", "timestamp_ms", "signature"]) :
    (auth.put json).get? key = json.get? key := by
  simp only [List.mem_cons, List.not_mem_nil, or_false, not_or] at h
  rw [put]
  split
  · rfl
  · simp [h]

end RequestAuth

theorem get?_setBound (json : Object) (key other : String) (bound : Option UInt64) :
    (setBound json key bound).get? other =
      if other = key ∧ bound.isSome then bound.map fun seq => uintValue seq.toNat else json.get? other := by
  cases bound with
  | none => simp [setBound]
  | some seq => by_cases h : other = key <;> simp [setBound, h]

theorem ChatHistoryRequest.fromJson_toJson {request : ChatHistoryRequest} (h : request.auth.signature ≠ "") :
    ChatHistoryRequest.fromJson request.toJson = .ok request := by
  have hauth : RequestAuth.read request.toJson = request.auth := RequestAuth.read_put h _
  have hbound (bound : Option UInt64) : (bound.map UInt64.toNat).map UInt64.ofNat = bound := by
    cases bound <;> simp
  have hmin : request.toJson.getNonNegInt "min_sender_seq" = request.minSenderSeq.map UInt64.toNat := by
    cases hbound : request.minSenderSeq <;> simp [toJson, RequestAuth.get?_put, get?_setBound, hbound]
  have hmax : request.toJson.getNonNegInt "max_sender_seq" = request.maxSenderSeq.map UInt64.toNat := by
    cases hbound : request.maxSenderSeq <;> simp [toJson, RequestAuth.get?_put, get?_setBound, hbound]
  have hlimit : request.toJson.getNonNegInt "limit" = some request.limit.toNat := by
    simp [toJson, RequestAuth.get?_put, get?_setBound]
  have hepoch : request.toJson.getNonNegInt "session_epoch" = some request.sessionEpoch.toNat := by
    simp [toJson, RequestAuth.get?_put, get?_setBound]
  have hkind : request.toJson.getString "requester_identity_kind" = some request.requesterIdentityKind := by
    simp [toJson, RequestAuth.get?_put, get?_setBound]
  have hvalue : request.toJson.getString "requester_identity_value" = some request.requesterIdentityValue := by
    simp [toJson, RequestAuth.get?_put, get?_setBound]
  have hpeerKind : request.toJson.getString "peer_identity_kind" = some request.peerIdentityKind := by
    simp [toJson, RequestAuth.get?_put, get?_setBound]
  have hpeerValue : request.toJson.getString "peer_identity_value" = some request.peerIdentityValue := by
    simp [toJson, RequestAuth.get?_put, get?_setBound]
  have hchannel : request.toJson.getString "channel" = some request.channel.toText := by
    simp [toJson, RequestAuth.get?_put, get?_setBound]
  have horder : request.toJson.getString "order" = some request.order := by
    simp [toJson, RequestAuth.get?_put, get?_setBound]
  unfold fromJson
  rw [hauth, hkind, hvalue, hpeerKind, hpeerValue, hchannel, hepoch, hmin, hmax, hlimit, horder]
  simp only [hbound, ThreadChannel.ofText_toText, UInt32.ofNat_toNat, Option.map_some,
    UInt64.ofNat_toNat, Option.getD_some]

theorem ChatBlobRequest.fromJson_toJson {request : ChatBlobRequest} (h : request.auth.signature ≠ "") :
    ChatBlobRequest.fromJson request.toJson = .ok request := by
  have hauth : RequestAuth.read request.toJson = request.auth := RequestAuth.read_put h _
  have hop : request.toJson.getString "op" = some request.op.toText := by
    simp [toJson, RequestAuth.get?_put]
  have hkind : request.toJson.getString "requester_identity_kind" = some request.requesterIdentityKind := by
    simp [toJson, RequestAuth.get?_put]
  have hvalue : request.toJson.getString "requester_identity_value" = some request.requesterIdentityValue := by
    simp [toJson, RequestAuth.get?_put]
  have hpeerKind : request.toJson.getString "peer_identity_kind" = some request.peerIdentityKind := by
    simp [toJson, RequestAuth.get?_put]
  have hpeerValue : request.toJson.getString "peer_identity_value" = some request.peerIdentityValue := by
    simp [toJson, RequestAuth.get?_put]
  have hthread : request.toJson.getString "thread_id" = some request.threadId := by
    simp [toJson, RequestAuth.get?_put]
  have hhash : request.toJson.getString "content_hash_hex" = some request.contentHashHex := by
    simp [toJson, RequestAuth.get?_put]
  have hchannel : request.toJson.getString "channel" = some request.channel.toText := by
    simp [toJson, RequestAuth.get?_put]
  unfold fromJson
  rw [hauth, hop, hkind, hvalue, hpeerKind, hpeerValue, hthread, hhash, hchannel]
  simp only [Option.map_some, Option.getD_some, ChatBlobOp.ofText_toText]
  cases request with
  | mk op _ _ _ _ _ _ _ _ => cases op <;> simp [ThreadChannel.ofText_toText]

theorem asObject_value (json : Object) : json.value.asObject = some json := rfl

namespace AccountCardRequest

/-- The key card that comes over with a request. -/
def readKeys (request : AccountCardRequest) : Option KeyCard :=
  request.requesterKeys.bind fun keys => (KeyCard.fromJson keys.toJson).toOption

/-- A card request comes back as it was sent, unless it names no account;
a key card that is missing a field is left behind. -/
theorem fromJson_toJson {request : AccountCardRequest} (h : request.accountId ≠ "") :
    fromJson request.toJson = .ok { request with requesterKeys := request.readKeys } := by
  have hop : stringOr request.toJson "op" = "get_card" := by
    simp [toJson, stringOr]
  have haccount : stringOr request.toJson "account_id" = request.accountId := by
    simp [toJson, stringOr]
  unfold fromJson
  rw [hop, haccount, if_neg (by simp), if_neg h]
  cases hkeys : request.requesterKeys with
  | none | some keys =>
    simp [toJson, readKeys, hkeys, asObject_value, RequestAuth.read, stringOr]

theorem cardKey_readKeys {K : Keys} (hK : K.Spells) (request : AccountCardRequest) :
    cardKey K { request with requesterKeys := request.readKeys } = cardKey K request := by
  cases hkeys : request.requesterKeys with
  | none => simp [cardKey, readKeys, hkeys]
  | some keys =>
    by_cases hverify : keys.verify K.toCardCrypto = .ok ()
    · have hread : request.readKeys = some keys := by
        simp [readKeys, hkeys, KeyCard.fromJson_toJson hK hverify, Except.toOption]
      rw [cardKey, cardKey, hread, hkeys]
    · cases hread : KeyCard.fromJson keys.toJson with
      | ok read =>
        obtain rfl := KeyCard.eq_of_fromJson hread
        simp [cardKey, readKeys, hkeys, hread, Except.toOption]
      | error _ => simp [cardKey, readKeys, hkeys, hread, Except.toOption, hverify]

end AccountCardRequest

/-! ## The window -/

/-- The difference of two times leaves its 64-bit word, or is the least of it,
which has no absolute value there. -/
def Wraps (nowMs timestampMs : Int64) : Prop :=
  nowMs.toInt - timestampMs.toInt ≤ -2 ^ 63 ∨ 2 ^ 63 ≤ nowMs.toInt - timestampMs.toInt

theorem toInt_abs {difference : Int64} (h : difference.toInt ≠ -2 ^ 63) : difference.abs.toInt = |difference.toInt| := by
  have hmsb : difference.toBitVec.msb = decide (difference.toInt < 0) := BitVec.msb_eq_toInt
  have hrange : -2 ^ 63 ≤ difference.toInt ∧ difference.toInt < 2 ^ 63 :=
    ⟨Int64.le_toInt difference, Int64.toInt_lt difference⟩
  show difference.toBitVec.abs.toInt = _
  rw [BitVec.abs_eq, hmsb]
  by_cases hneg : difference.toInt < 0
  · rw [if_pos (by simpa using hneg), abs_of_neg hneg, BitVec.toInt_neg]
    show (-difference.toInt).bmod (2 ^ 64) = _
    exact Int.bmod_eq_of_le (by omega) (by omega)
  · rw [if_neg (by simpa using hneg), abs_of_nonneg (not_lt.mp hneg)]
    rfl

theorem outsideSkew_iff {nowMs timestampMs : Int64} (h : ¬ Wraps nowMs timestampMs) :
    outsideSkew nowMs timestampMs = true ↔ kMaxSkewMs.toInt < |nowMs.toInt - timestampMs.toInt| := by
  rw [Wraps, not_or, not_le, not_le] at h
  have hexact : (nowMs - timestampMs).toInt = nowMs.toInt - timestampMs.toInt := by
    rw [Int64.toInt_sub]
    exact Int.bmod_eq_of_le (by omega) (by omega)
  rw [outsideSkew, decide_eq_true_iff, gt_iff_lt, Int64.lt_iff_toInt_lt, toInt_abs (by omega), hexact]

/-! ## What a check lets through -/

namespace PeerRequest

/-- A key an account is checked with: the one that is kept or looked up for
it, or that of a key card proving itself for the account. -/
def IsAccountKey (K : Keys) (accountId key : String) : Prop :=
  K.resolve "account" accountId = .ok key ∨
    ∃ keys : KeyCard, keys.accountId = accountId ∧ keys.verify K.toCardCrypto = .ok () ∧ keys.signingPublicKeyB64 = key

def SignedBy (K : Keys) (accountId signatureB64 : String) (bytes : ByteVector) : Prop :=
  ∃ key publicKey signature, IsAccountKey K accountId key ∧ K.base64Decode key = some publicKey ∧
    K.base64Decode signatureB64 = some signature ∧ K.mlDsaVerify publicKey bytes signature = some true

variable {K : Keys} {request : PeerRequest} {remotePeerId : String} {nowMs : Int64}

theorem isAccountKey_of_signingKey {key : String} (h : request.signingKey K = .ok key) :
    IsAccountKey K request.auth.requesterAccountId key := by
  cases request with
  | history request | blob request => exact .inl h
  | card request =>
    rw [signingKey, cardKey] at h
    split at h
    next keys _ =>
        split_ifs at h with hown
        · exact .inr ⟨keys, hown.1, hown.2, Except.ok.inj h⟩
        · exact .inl h
    · exact .inl h

/-- What a request that verifies is. -/
structure Authorized (K : Keys) (request : PeerRequest) (remotePeerId : String) (nowMs : Int64) : Prop where
  named : request.auth.signature ≠ "" ∧ request.auth.requesterAccountId ≠ ""
  linked : request.auth.requesterPeerId = remotePeerId ∧ remotePeerId ≠ ""
  inside : outsideSkew nowMs request.auth.timestampMs = false
  signed : SignedBy K request.auth.requesterAccountId request.auth.signature request.signBytes

theorem authorized_of_verify (h : request.verify K remotePeerId nowMs = .ok ()) :
    Authorized K request remotePeerId nowMs := by
  unfold verify verifyImpl at h
  split_ifs at h with hrefused
  simp only [not_or, Bool.not_eq_true, not_not] at hrefused
  obtain ⟨hsignature, haccount, hremote, hpeer, hinside⟩ := hrefused
  refine ⟨⟨hsignature, haccount⟩, ⟨hpeer, hremote⟩, hinside, ?_⟩
  split at h
  · cases h
  next key hkey =>
      split at h
      next publicKey signature hpublic hdecoded =>
          split_ifs at h with hverified
          exact ⟨key, publicKey, signature, isAccountKey_of_signingKey hkey, hpublic, hdecoded, hverified⟩
      · cases h

/-- An account card request names the account it asks for. -/
def NamesCard : PeerRequest → Prop
  | history _ => True
  | blob _ => True
  | card request => request.accountId ≠ ""

/-- A signed request is read back as a request with the same sign bytes, who
asks and key. -/
theorem readAs_toJson (hK : K.Spells) (hsigned : request.auth.signature ≠ "") (hcard : request.NamesCard) :
    ∃ read, request.readAs request.toJson = .ok read ∧ read.signBytes = request.signBytes ∧
      read.auth = request.auth ∧ read.signingKey K = request.signingKey K := by
  cases request with
  | history request =>
    refine ⟨history request, ?_, rfl, rfl, rfl⟩
    show (ChatHistoryRequest.fromJson request.toJson >>= fun read => pure (history read)) = _
    rw [ChatHistoryRequest.fromJson_toJson hsigned]
    rfl
  | blob request =>
    refine ⟨blob request, ?_, rfl, rfl, rfl⟩
    show (ChatBlobRequest.fromJson request.toJson >>= fun read => pure (blob read)) = _
    rw [ChatBlobRequest.fromJson_toJson hsigned]
    rfl
  | card request =>
    refine ⟨card { request with requesterKeys := request.readKeys }, ?_, rfl, rfl, request.cardKey_readKeys hK⟩
    show (AccountCardRequest.fromJson request.toJson >>= fun read => pure (card read)) = _
    rw [AccountCardRequest.fromJson_toJson hcard]
    rfl

theorem verify_readAs (hK : K.Spells) (h : request.verify K remotePeerId nowMs = .ok ()) (hcard : request.NamesCard) :
    ∃ read, request.readAs request.toJson = .ok read ∧ read.signBytes = request.signBytes ∧
      read.verify K remotePeerId nowMs = .ok () := by
  obtain ⟨read, hread, hbytes, hauth, hkey⟩ := readAs_toJson hK (authorized_of_verify h).named.1 hcard
  refine ⟨read, hread, hbytes, ?_⟩
  rw [verify, hbytes, hauth, hkey]
  exact h

variable (K) in
/-- Sign bytes fix a request and its kind; a request that verifies does so
after its round trip, names the link and is signed by its account, inside the
window where the two times' difference is a word that has an absolute value;
and no other link takes it. -/
theorem request_authorizes_itself (hK : K.Spells) :
    (∀ a b : PeerRequest, a.IsSized → b.IsSized → a.signBytes = b.signBytes → a.Same b) ∧
    (∀ a b : PeerRequest, a.signBytes = b.signBytes → a.kind = b.kind) ∧
    (∀ (request : PeerRequest) remotePeerId nowMs, request.verify K remotePeerId nowMs = .ok () → request.NamesCard →
      ∃ read, request.readAs request.toJson = .ok read ∧ read.signBytes = request.signBytes ∧
        read.verify K remotePeerId nowMs = .ok ()) ∧
    (∀ (request : PeerRequest) remotePeerId nowMs, request.verify K remotePeerId nowMs = .ok () →
      request.auth.requesterPeerId = remotePeerId ∧ remotePeerId ≠ "" ∧
      SignedBy K request.auth.requesterAccountId request.auth.signature request.signBytes ∧
      (¬ Wraps nowMs request.auth.timestampMs → |nowMs.toInt - request.auth.timestampMs.toInt| ≤ kMaxSkewMs.toInt)) ∧
    ∀ (request : PeerRequest) remotePeerId remotePeerId' nowMs nowMs', request.verify K remotePeerId nowMs = .ok () →
      remotePeerId' ≠ remotePeerId → request.verify K remotePeerId' nowMs' ≠ .ok () := by
  refine ⟨?_, ?_, ?_, ?_, ?_⟩
  · intro a b ha hb h
    exact same_of_signBytes ha hb h
  · intro a b h
    exact kind_of_signBytes h
  · intro request remotePeerId nowMs h hcard
    exact verify_readAs hK h hcard
  · intro request remotePeerId nowMs h
    have hauthorized := authorized_of_verify h
    refine ⟨hauthorized.linked.1, hauthorized.linked.2, hauthorized.signed, ?_⟩
    intro hwraps
    by_contra hfar
    have houtside := (outsideSkew_iff hwraps).mpr (not_le.mp hfar)
    rw [hauthorized.inside] at houtside
    cases houtside
  · intro request remotePeerId remotePeerId' nowMs nowMs' h hother h'
    have hlink := (authorized_of_verify h).linked.1
    have hlink' := (authorized_of_verify h').linked.1
    exact hother (hlink'.symm.trans hlink)

/-- Keys of a run: everything is signed by everyone. -/
def spelledKeys : Keys where
  toCardCrypto := AccountCard.spelledCrypto
  resolve _ _ := .ok "key"

/-- A request for an account's card, with the asker's key card or without. -/
def cardRequest (accountId : String) (requesterKeys : Option KeyCard) : PeerRequest :=
  card { accountId, auth := ⟨"account:a", "phone", 0, "sig"⟩, requesterKeys }

theorem cardRequest_verify (accountId : String) : (cardRequest accountId none).verify spelledKeys "phone" 0 = .ok () := by
  have hinside : outsideSkew 0 0 = false := by decide
  simp [verify, verifyImpl, cardRequest, auth, signingKey, cardKey, resolvedKey, spelledKeys, AccountCard.spelledCrypto,
    hinside]

/-- The key card that the responder keeps is not signed, and a request that
names no account is refused by its reader. -/
theorem cardRequest_not_itself :
    (cardRequest "account:b" none).signBytes = (cardRequest "account:b" (some ⟨"account:a", "key", "kem", "sig"⟩)).signBytes ∧
    cardRequest "account:b" none ≠ cardRequest "account:b" (some ⟨"account:a", "key", "kem", "sig"⟩) ∧
    (cardRequest "account:b" (some ⟨"account:a", "key", "kem", "sig"⟩)).verify spelledKeys "phone" 0 = .ok () ∧
    (cardRequest "" none).verify spelledKeys "phone" 0 = .ok () ∧
    (cardRequest "" none).readAs (cardRequest "" none).toJson = .error "account card: get_card names no account" := by
  refine ⟨rfl, by decide, ?_, cardRequest_verify "", ?_⟩
  · have hinside : outsideSkew 0 0 = false := by decide
    simp [verify, verifyImpl, cardRequest, auth, signingKey, cardKey, resolvedKey, spelledKeys, AccountCard.spelledCrypto,
      hinside]
  · rfl

theorem request_authorizes_itself_sample :
    (∃ read, (cardRequest "account:b" none).readAs (cardRequest "account:b" none).toJson = .ok read ∧
      read.verify spelledKeys "phone" 0 = .ok ()) ∧
    (cardRequest "account:b" none).verify spelledKeys "tablet" 0 ≠ .ok () := by
  obtain ⟨-, -, hread, -, hlinks⟩ := request_authorizes_itself spelledKeys AccountCard.spelledCrypto_spells
  constructor
  · obtain ⟨read, hjson, -, hverify⟩ := hread _ _ _ (cardRequest_verify "account:b") (show "account:b" ≠ "" by decide)
    exact ⟨read, hjson, hverify⟩
  · exact hlinks _ _ _ _ _ (cardRequest_verify "account:b") (by decide)

end PeerRequest

end Pbr
