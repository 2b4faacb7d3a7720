import PpBrowser.Delivery.E2eRelayPayloadCodec
import PpBrowser.Messaging.GroupSignedJson
import PpBrowser.People.AccountCard

/-!
# PeerRequestAuth — the binary wire profile

The archive is outside: it writes integers big-endian in their width and
texts and byte vectors behind a `u64` length. Each field tells its value and
where the rest starts.
-/

namespace Pbr

def wireU8 (value : UInt8) : ByteVector := [value]
def wireU32 (value : UInt32) : ByteVector := bigEndian 4 value.toNat
def wireU64 (value : UInt64) : ByteVector := bigEndian 8 value.toNat
def wireI64 (value : Int64) : ByteVector := bigEndian 8 value.toUInt64.toNat

def wireLenBytes (value : ByteVector) : ByteVector := bigEndian 8 value.length ++ value

def wireLenUtf8 (value : String) : ByteVector := bigEndian 8 value.utf8ByteSize ++ stringBytes value

/-- A text a machine holds: its size is a `size_t`. -/
def IsText (value : String) : Prop := value.utf8ByteSize < 2 ^ 64

instance (value : String) : Decidable (IsText value) := inferInstanceAs (Decidable (_ < _))

variable {xs ys : ByteVector}

theorem wireU8_inj {a b : UInt8} (h : wireU8 a ++ xs = wireU8 b ++ ys) : a = b ∧ xs = ys := by
  obtain ⟨hhead, hrest⟩ := List.cons.inj h
  exact ⟨hhead, hrest⟩

theorem wireU32_inj {a b : UInt32} (h : wireU32 a ++ xs = wireU32 b ++ ys) : a = b ∧ xs = ys := by
  obtain ⟨hvalue, hrest⟩ := bigEndian_append_inj (UInt32.toNat_lt a) (UInt32.toNat_lt b) h
  exact ⟨UInt32.toNat_inj.mp hvalue, hrest⟩

theorem wireU64_inj {a b : UInt64} (h : wireU64 a ++ xs = wireU64 b ++ ys) : a = b ∧ xs = ys := by
  obtain ⟨hvalue, hrest⟩ := bigEndian_append_inj (UInt64.toNat_lt a) (UInt64.toNat_lt b) h
  exact ⟨UInt64.toNat_inj.mp hvalue, hrest⟩

theorem wireI64_inj {a b : Int64} (h : wireI64 a ++ xs = wireI64 b ++ ys) : a = b ∧ xs = ys := by
  obtain ⟨hvalue, hrest⟩ := bigEndian_append_inj (UInt64.toNat_lt _) (UInt64.toNat_lt _) h
  have hword : a.toUInt64 = b.toUInt64 := UInt64.toNat_inj.mp hvalue
  refine ⟨?_, hrest⟩
  cases a
  cases b
  exact congrArg Int64.ofUInt64 hword

theorem wireLenBytes_inj {a b : ByteVector} (ha : a.length < 2 ^ 64) (hb : b.length < 2 ^ 64)
    (h : wireLenBytes a ++ xs = wireLenBytes b ++ ys) : a = b ∧ xs = ys := by
  rw [wireLenBytes, wireLenBytes, List.append_assoc, List.append_assoc] at h
  obtain ⟨hlength, hrest⟩ := bigEndian_append_inj ha hb h
  exact List.append_inj hrest hlength

theorem wireLenUtf8_inj {a b : String} (ha : IsText a) (hb : IsText b)
    (h : wireLenUtf8 a ++ xs = wireLenUtf8 b ++ ys) : a = b ∧ xs = ys := by
  obtain ⟨hbytes, hrest⟩ := wireLenBytes_inj (a := stringBytes a) (b := stringBytes b) ha hb h
  exact ⟨stringBytes_inj hbytes, hrest⟩

/-! ## Who asks, on which link, when -/

open Lib.Json

def ThreadChannel.toText : ThreadChannel → String
  | .e2e => "e2e"
  | .e2ePublic => "e2e_public"
  | .none => ""

def ThreadChannel.ofText (value : String) : ThreadChannel :=
  if value = "e2e_public" then .e2ePublic else if value = "e2e" then .e2e else .none

inductive ChatBlobOp where
  | fetch | push | fetchPublic
  deriving DecidableEq, Repr

def ChatBlobOp.toByte : ChatBlobOp → UInt8
  | .fetch => 0
  | .push => 1
  | .fetchPublic => 2

def ChatBlobOp.toText : ChatBlobOp → String
  | .fetch => "fetch"
  | .push => "push"
  | .fetchPublic => "fetch_public"

def ChatBlobOp.ofText (value : String) : ChatBlobOp :=
  if value = "push" then .push else if value = "fetch_public" then .fetchPublic else .fetch

/-! ## Requests -/

/-- Who asks, from which device link, when, and the account's signature. -/
structure RequestAuth where
  requesterAccountId : String := ""
  requesterPeerId : String := ""
  timestampMs : Int64 := 0
  signature : String := ""
  deriving DecidableEq, Repr

structure ChatHistoryRequest where
  requesterIdentityKind : String := ""
  requesterIdentityValue : String := ""
  peerIdentityKind : String := ""
  peerIdentityValue : String := ""
  channel : ThreadChannel := .e2e
  sessionEpoch : UInt32 := 1
  minSenderSeq : Option UInt64 := none
  maxSenderSeq : Option UInt64 := none
  limit : UInt64 := 50
  order : String := "asc"
  auth : RequestAuth := {}
  deriving DecidableEq, Repr

structure ChatBlobRequest where
  op : ChatBlobOp := .fetch
  requesterIdentityKind : String := ""
  requesterIdentityValue : String := ""
  peerIdentityKind : String := ""
  peerIdentityValue : String := ""
  threadId : String := ""
  contentHashHex : String := ""
  channel : ThreadChannel := .e2e
  auth : RequestAuth := {}
  deriving DecidableEq, Repr

structure AccountCardRequest where
  accountId : String := ""
  auth : RequestAuth := {}
  requesterKeys : Option KeyCard := none
  deriving DecidableEq, Repr

/-! ## JSON -/

/-- The auth fields, which a request that is not signed leaves out. -/
def RequestAuth.put (auth : RequestAuth) (json : Object) : Object :=
  if auth.signature = "" then json
  else
    json
      |>.set "requester_account_id" (.str auth.requesterAccountId)
      |>.set "requester_peer_id" (.str auth.requesterPeerId)
      |>.set "timestamp_ms" (.num auth.timestampMs.toInt)
      |>.set "signature" (.str auth.signature)

def RequestAuth.read (json : Object) : RequestAuth where
  requesterAccountId := stringOr json "requester_account_id"
  requesterPeerId := stringOr json "requester_peer_id"
  timestampMs := ((json.getInt "timestamp_ms").map Int64.ofInt).getD 0
  signature := stringOr json "signature"

/-- A bound that may be absent. -/
def setBound (json : Object) (key : String) (bound : Option UInt64) : Object :=
  match bound with
  | none => json
  | some seq => json.set key (uintValue seq.toNat)

namespace ChatHistoryRequest

def toJson (request : ChatHistoryRequest) : Object :=
  let json := ({} : Object)
    |>.set "op" (.str "history")
    |>.set "requester_identity_kind" (.str request.requesterIdentityKind)
    |>.set "requester_identity_value" (.str request.requesterIdentityValue)
    |>.set "peer_identity_kind" (.str request.peerIdentityKind)
    |>.set "peer_identity_value" (.str request.peerIdentityValue)
    |>.set "channel" (.str request.channel.toText)
    |>.set "session_epoch" (uintValue request.sessionEpoch.toNat)
    |>.set "limit" (uintValue request.limit.toNat)
    |>.set "order" (.str request.order)
  request.auth.put (setBound (setBound json "min_sender_seq" request.minSenderSeq) "max_sender_seq" request.maxSenderSeq)

def fromJson (json : Object) : Roe ChatHistoryRequest :=
  match json.getString "requester_identity_kind", json.getString "requester_identity_value",
    json.getString "peer_identity_kind", json.getString "peer_identity_value", json.getString "channel",
    json.getNonNegInt "session_epoch" with
  | some requesterIdentityKind, some requesterIdentityValue, some peerIdentityKind, some peerIdentityValue,
    some channel, some sessionEpoch =>
      .ok {
        requesterIdentityKind, requesterIdentityValue, peerIdentityKind, peerIdentityValue
        channel := .ofText channel
        sessionEpoch := .ofNat sessionEpoch
        minSenderSeq := (json.getNonNegInt "min_sender_seq").map UInt64.ofNat
        maxSenderSeq := (json.getNonNegInt "max_sender_seq").map UInt64.ofNat
        limit := ((json.getNonNegInt "limit").map UInt64.ofNat).getD 50
        order := (json.getString "order").getD "asc"
        auth := .read json }
  | _, _, _, _, _, _ => .error "Incomplete ChatHistoryRequest"

end ChatHistoryRequest

namespace ChatBlobRequest

def toJson (request : ChatBlobRequest) : Object :=
  request.auth.put <| ({} : Object)
    |>.set "op" (.str request.op.toText)
    |>.set "requester_identity_kind" (.str request.requesterIdentityKind)
    |>.set "requester_identity_value" (.str request.requesterIdentityValue)
    |>.set "peer_identity_kind" (.str request.peerIdentityKind)
    |>.set "peer_identity_value" (.str request.peerIdentityValue)
    |>.set "thread_id" (.str request.threadId)
    |>.set "content_hash_hex" (.str request.contentHashHex)
    |>.set "channel" (.str request.channel.toText)

def fromJson (json : Object) : Roe ChatBlobRequest :=
  let op := ((json.getString "op").map ChatBlobOp.ofText).getD .fetch
  match json.getString "requester_identity_kind", json.getString "requester_identity_value",
    json.getString "peer_identity_kind", json.getString "peer_identity_value", json.getString "content_hash_hex" with
  | some requesterIdentityKind, some requesterIdentityValue, some peerIdentityKind, some peerIdentityValue,
    some contentHashHex =>
      let request : ChatBlobRequest := {
        op, requesterIdentityKind, requesterIdentityValue, peerIdentityKind, peerIdentityValue, contentHashHex
        auth := .read json }
      match op, json.getString "thread_id", json.getString "channel" with
      | .fetchPublic, threadId, channel =>
        .ok { request with
          threadId := threadId.getD "", channel := (channel.map ThreadChannel.ofText).getD .e2e }
      | _, some threadId, some channel => .ok { request with threadId, channel := .ofText channel }
      | _, _, _ => .error "Incomplete ChatBlobRequest"
  | _, _, _, _, _ => .error "Incomplete ChatBlobRequest"

end ChatBlobRequest

namespace AccountCardRequest

/-- `EncodeAccountCardRequest`. -/
def toJson (request : AccountCardRequest) : Object :=
  let auth := ({} : Object)
    |>.set "requester_account_id" (.str request.auth.requesterAccountId)
    |>.set "requester_peer_id" (.str request.auth.requesterPeerId)
    |>.set "timestamp_ms" (.num request.auth.timestampMs.toInt)
    |>.set "signature" (.str request.auth.signature)
  let auth :=
    match request.requesterKeys with
    | none => auth
    | some keys => auth.set "requester_keys" keys.toJson.value
  ({} : Object)
    |>.set "op" (.str "get_card")
    |>.set "account_id" (.str request.accountId)
    |>.set "auth" auth.value

/-- `DecodeAccountCardRequest`. -/
def fromJson (json : Object) : Roe AccountCardRequest :=
  if stringOr json "op" ≠ "get_card" then .error "account card: not a get_card request"
  else
    let accountId := stringOr json "account_id"
    if accountId = "" then .error "account card: get_card names no account"
    else
      match json.getObject "auth" with
      | none => .ok { accountId }
      | some auth =>
        .ok { accountId, auth := .read auth
              requesterKeys := (auth.getObject "requester_keys").bind fun keys => (KeyCard.fromJson keys).toOption }

end AccountCardRequest

/-! ## Signing and checking -/

namespace PeerRequestAuth

/-- How far a request's signed time may be from ours. -/
def kMaxSkewMs : Int64 := 5 * 60 * 1000

def kDomain : ByteVector := stringBytes "pp-browser:peer-request-sign-v1" ++ [0]

def begin (kind : String) (auth : RequestAuth) : ByteVector :=
  kDomain ++ wireLenUtf8 kind ++ wireLenUtf8 auth.requesterAccountId ++ wireLenUtf8 auth.requesterPeerId ++
    wireI64 auth.timestampMs

def historySignBytes (request : ChatHistoryRequest) : ByteVector :=
  begin "history" request.auth ++ wireLenUtf8 request.requesterIdentityKind ++
    wireLenUtf8 request.requesterIdentityValue ++ wireLenUtf8 request.peerIdentityKind ++
    wireLenUtf8 request.peerIdentityValue ++ wireLenUtf8 request.channel.toText ++ wireU32 request.sessionEpoch ++
    wireU64 (request.minSenderSeq.getD 0) ++ wireU64 (request.maxSenderSeq.getD (.ofNat (2 ^ 64 - 1))) ++
    wireU64 request.limit ++ wireLenUtf8 request.order

def blobSignBytes (request : ChatBlobRequest) : ByteVector :=
  begin "blob" request.auth ++ wireU8 request.op.toByte ++ wireLenUtf8 request.requesterIdentityKind ++
    wireLenUtf8 request.requesterIdentityValue ++ wireLenUtf8 request.peerIdentityKind ++
    wireLenUtf8 request.peerIdentityValue ++ wireLenUtf8 request.threadId ++ wireLenUtf8 request.contentHashHex ++
    wireLenUtf8 request.channel.toText

def cardSignBytes (request : AccountCardRequest) : ByteVector :=
  begin "account-card" request.auth ++ wireLenUtf8 request.accountId

/-- What `Verify` calls: the key checks, and `IPeerSigningKeyResolver::Resolve`
by identity kind and account. -/
structure Keys extends CardCrypto where
  resolve : String → String → Roe String

variable (K : Keys)

/-- The test of the time: the difference and its absolute value are 64-bit
words, and wrap. -/
def outsideSkew (nowMs timestampMs : Int64) : Bool := (nowMs - timestampMs).abs > kMaxSkewMs

def verifyImpl (auth : RequestAuth) (bytes : ByteVector) (remotePeerId : String) (nowMs : Int64)
    (signingKeyB64 : Roe String) : Roe Unit :=
  if auth.signature = "" ∨ auth.requesterAccountId = "" ∨ remotePeerId = "" ∨ auth.requesterPeerId ≠ remotePeerId ∨
      outsideSkew nowMs auth.timestampMs then
    .error "Request not authorized"
  else
    match signingKeyB64 with
    | .error _ => .error "Request not authorized"
    | .ok key =>
      match K.base64Decode key, K.base64Decode auth.signature with
      | some publicKey, some signature =>
        if K.mlDsaVerify publicKey bytes signature = some true then .ok () else .error "Request not authorized"
      | _, _ => .error "Request not authorized"

def resolvedKey (accountId : String) : Roe String := K.resolve "account" accountId

/-- The key an account-card request is checked with: its own key card's, when
that proves itself for the requester. -/
def cardKey (request : AccountCardRequest) : Roe String :=
  match request.requesterKeys with
  | some keys =>
    if keys.accountId = request.auth.requesterAccountId ∧ keys.verify K.toCardCrypto = .ok () then
      .ok keys.signingPublicKeyB64
    else resolvedKey K request.auth.requesterAccountId
  | none => resolvedKey K request.auth.requesterAccountId

end PeerRequestAuth

/-- The three requests a peer signs. -/
inductive PeerRequest where
  | history (request : ChatHistoryRequest)
  | blob (request : ChatBlobRequest)
  | card (request : AccountCardRequest)
  deriving DecidableEq, Repr

namespace PeerRequest

open PeerRequestAuth

def auth : PeerRequest → RequestAuth
  | history request => request.auth
  | blob request => request.auth
  | card request => request.auth

def signBytes : PeerRequest → ByteVector
  | history request => historySignBytes request
  | blob request => blobSignBytes request
  | card request => cardSignBytes request

/-- The key `Verify` checks the signature with. -/
def signingKey (K : Keys) : PeerRequest → Roe String
  | history request => resolvedKey K request.auth.requesterAccountId
  | blob request => resolvedKey K request.auth.requesterAccountId
  | card request => cardKey K request

def verify (K : Keys) (request : PeerRequest) (remotePeerId : String) (nowMs : Int64) : Roe Unit :=
  verifyImpl K request.auth request.signBytes remotePeerId nowMs (request.signingKey K)

def toJson : PeerRequest → Object
  | history request => request.toJson
  | blob request => request.toJson
  | card request => request.toJson

/-- What the handler of the request's protocol reads. -/
def readAs : PeerRequest → Object → Roe PeerRequest
  | history _, json => return .history (← ChatHistoryRequest.fromJson json)
  | blob _, json => return .blob (← ChatBlobRequest.fromJson json)
  | card _, json => return .card (← AccountCardRequest.fromJson json)

end PeerRequest

end Pbr
