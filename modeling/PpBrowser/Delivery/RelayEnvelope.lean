import Mathlib.Data.List.Sort
import Mathlib.Data.String.Basic
import PpBrowser.Delivery.PeerRequestAuth

/-!
# RelayEnvelope — a message's copies on the wire

`RelayEnvelope.h`, `EnvelopeSigner.cpp` and the envelope part of
`MessagingJson.cpp`. An envelope carries a list of copies, or is itself the
view of its one copy. Base64, BLAKE2b and the text of a JSON object are
parameters.
-/

namespace Pbr

open Lib.Json

/-- What the envelope code calls and does not define. -/
structure EnvelopeCrypto where
  base64Decode : String → Roe ByteVector
  base64Encode : ByteVector → String
  /-- BLAKE2b of 32 bytes. -/
  genericHash : ByteVector → ByteVector
  /-- BLAKE2b of 16 bytes, in lowercase hex. -/
  streamHash : ByteVector → String
  dumpJson : Object → ByteVector
  tryParseObject : ByteVector → Option Object

def kRelayRouteDirect : String := "direct"
def kRelayRouteGroup : String := "group"

/-- At most this many copies in one envelope. -/
def kMaxRelayCopies : Nat := 8

structure RelayRoute where
  kind : String := "direct"
  channel : ThreadChannel := .e2e
  deriving DecidableEq, Repr

/-- One device's copy of a message, or with no device the account copy. -/
structure RelayCopy where
  recipientDevice : String := ""
  sessionEpoch : UInt32 := 1
  senderSeq : UInt64 := 0
  keyInitB64 : Option String := none
  payloadB64 : String := ""
  deriving DecidableEq, Repr

structure RelayE2eBody where
  copies : List RelayCopy := []
  senderCard : Option Object := none
  senderCardAt : Option Int64 := none
  /-- Of the copy this device reads; not on the wire. -/
  payloadB64 : String := ""
  keyInitB64 : Option String := none

/-- `RelayEnvelope`, with all that is signed, sent or read. -/
structure WireEnvelope where
  /-- `kRelayEnvelopeVersion`. -/
  envelopeVersion : Int := 2
  messageId : String := ""
  senderRelayId : String := ""
  senderContactId : String := ""
  senderDevice : String := ""
  /-- Of the copy this device reads; not on the wire. -/
  recipientDevice : String := ""
  route : RelayRoute := {}
  body : RelayE2eBody := {}
  senderSeq : UInt64 := 0
  sessionEpoch : UInt32 := 1
  timestamp : Int64 := 0
  signature : String := ""
  streamKey : String := ""
  orderKey : UInt64 := 0
  recipientContactId : Option String := none
  relayCreatedAtMs : Option Int64 := none
  relayWakeUrgent : Bool := false
  relayTtlS : Int64 := 0
  relayWakeHint : String := ""

namespace WireEnvelope

variable (envelope : WireEnvelope)

def view : RelayCopy :=
  { recipientDevice := envelope.recipientDevice, sessionEpoch := envelope.sessionEpoch
    senderSeq := envelope.senderSeq, keyInitB64 := envelope.body.keyInitB64
    payloadB64 := envelope.body.payloadB64 }

def copies : List RelayCopy :=
  if envelope.body.copies ≠ [] then envelope.body.copies
  else if envelope.body.payloadB64 = "" then []
  else [envelope.view]

def viewCopy (copy : RelayCopy) : WireEnvelope :=
  { envelope with
    recipientDevice := copy.recipientDevice, sessionEpoch := copy.sessionEpoch, senderSeq := copy.senderSeq
    body := { envelope.body with payloadB64 := copy.payloadB64, keyInitB64 := copy.keyInitB64 } }

/-- `SelectRelayCopy`: a device's own copy, else the last account copy. -/
def selectCopy (device : String) : Option WireEnvelope :=
  match envelope.copies.find? fun copy => device ≠ "" ∧ copy.recipientDevice = device with
  | some copy => some (envelope.viewCopy copy)
  | none => (envelope.copies.reverse.find? (·.recipientDevice = "")).map envelope.viewCopy

def withSingleCopy (copy : RelayCopy) : WireEnvelope :=
  viewCopy { envelope with body := { envelope.body with copies := [copy] } } copy

end WireEnvelope

/-! ## The signer -/

namespace EnvelopeSigner

variable (C : EnvelopeCrypto)

def kSignDomain : ByteVector := stringBytes "pp-browser:relay-envelope-sign-v4" ++ [0]
def kSignVersion : UInt8 := 4
def kBodyKindE2e : UInt8 := 2

def routeKindByte (route : RelayRoute) : UInt8 :=
  if route.kind = kRelayRouteGroup then 1 else if route.kind = kRelayRouteControl then 2 else 0

def channelByte (route : RelayRoute) : UInt8 :=
  if route.kind = kRelayRouteControl then 1 -- always e2e_public
  else if route.kind ≠ kRelayRouteDirect then 0xFF
  else
    match route.channel with
    | .e2e => 0
    | .e2ePublic => 1
    | .none => 0xFF

/-- The copies one by one, `devices` being those before. -/
def checkCopies (devices : List String) : List RelayCopy → Roe Unit
  | [] => .ok ()
  | copy :: copies =>
    if copy.payloadB64 = "" then .error "A copy without a payload"
    else if copy.recipientDevice ∈ devices then .error "Two copies for one device"
    else checkCopies (copy.recipientDevice :: devices) copies

/-- A control envelope is not one account copy. -/
def controlShapeWrong (route : RelayRoute) (copies : List RelayCopy) : Bool :=
  route.kind = kRelayRouteControl ∧ (copies.length ≠ 1 ∨ copies.head?.any (·.recipientDevice ≠ ""))

def checkBodyShape (envelope : WireEnvelope) : Roe Unit := do
  let copies := envelope.copies
  if copies = [] ∨ copies.length > kMaxRelayCopies then throw "An envelope carries 1 to 8 copies"
  checkCopies [] copies
  if envelope.route.kind = kRelayRouteGroup then return
  if envelope.route.kind = kRelayRouteDirect ∨ envelope.route.kind = kRelayRouteControl then
    refuseIf (controlShapeWrong envelope.route copies) "Control envelope must carry one account copy"
  else throw "Unknown route kind"

/-- What of a copy is hashed. -/
def hashed (payload : ByteVector) : ByteVector := [kBodyKindE2e] ++ wireLenBytes payload

def copyHash (copy : RelayCopy) : Roe ByteVector := do
  let decoded ← C.base64Decode copy.payloadB64
  return C.genericHash (hashed decoded)

def copySignBytes (copy : RelayCopy) : Roe ByteVector := do
  let hash ← copyHash C copy
  return wireLenUtf8 copy.recipientDevice ++ wireU32 copy.sessionEpoch ++ wireU64 copy.senderSeq ++
    wireLenUtf8 (copy.keyInitB64.getD "") ++ hash

/-- The copies by recipient device. -/
def sortedCopies (copies : List RelayCopy) : List RelayCopy :=
  copies.insertionSort fun a b => a.recipientDevice ≤ b.recipientDevice

def buildSignBytes (envelope : WireEnvelope) : Roe ByteVector := do
  if envelope.envelopeVersion ≠ 2 then throw "Unsupported envelope version"
  checkBodyShape envelope
  let rows ← (sortedCopies envelope.copies).mapM (copySignBytes C)
  return kSignDomain ++ wireU8 kSignVersion ++ wireU8 2 ++ wireU8 (routeKindByte envelope.route) ++
    wireU8 (channelByte envelope.route) ++ wireI64 envelope.timestamp ++ wireLenUtf8 envelope.messageId ++
    wireLenUtf8 envelope.senderContactId ++ wireLenUtf8 envelope.senderRelayId ++
    wireLenUtf8 envelope.senderDevice ++ wireU64 (.ofNat envelope.copies.length) ++ rows.flatten

end EnvelopeSigner

/-! ## JSON -/

/-- Non-empty, no control characters and no DEL. -/
def isPlainIdentifier (value : String) : Bool :=
  value ≠ "" ∧ (stringBytes value).all fun c => 0x20 ≤ c ∧ c ≠ 0x7F

/-- Letters, digits, dashes and underscores, 96 at most. -/
def isSafeMessageId (id : String) : Bool :=
  id ≠ "" ∧ id.utf8ByteSize ≤ 96 ∧ id.toList.all fun c => c.isAlphanum ∨ c = '-' ∨ c = '_'

def getInt64Field (json : Object) (key : String) : Option Int64 :=
  ((json.getInt key).filter (IsInt64 ·)).map Int64.ofInt

def setIfSome (json : Object) (key : String) (value : Option Value) : Object :=
  match value with
  | none => json
  | some value => json.set key value

namespace RelayCopy

def toJson (copy : RelayCopy) : Object :=
  let row := ({} : Object)
    |>.setIf (copy.recipientDevice ≠ "") "recipient_device" (.str copy.recipientDevice)
    |>.set "session_epoch" (uintValue copy.sessionEpoch.toNat)
    |>.set "sender_seq" (uintValue copy.senderSeq.toNat)
  (setIfSome row "key_init_b64" (copy.keyInitB64.map .str)).set "payload_b64" (.str copy.payloadB64)

/-- One entry of `body.e2e.copies`; `devices` are those of the entries before. -/
def fromJson (devices : List String) (row : Object) : Roe RelayCopy := do
  let recipientDevice := stringOr row "recipient_device"
  match row.getNonNegInt "session_epoch", row.getNonNegInt "sender_seq", row.getString "payload_b64" with
  | some epoch, some seq, some payload =>
    if epoch ≥ 2 ^ 32 ∨ payload = "" then throw "Invalid body.e2e.copies entry"
    if recipientDevice ∈ devices then throw "Two copies for one device"
    if recipientDevice ≠ "" ∧ ¬ isPlainIdentifier recipientDevice then throw "Invalid recipient_device"
    return { recipientDevice, sessionEpoch := .ofNat epoch, senderSeq := .ofNat seq
             keyInitB64 := row.getString "key_init_b64", payloadB64 := payload }
  | _, _, _ => throw "Invalid body.e2e.copies entry"

def listFromJson (devices : List String) : List Value → Roe (List RelayCopy)
  | [] => .ok []
  | item :: items => do
    match item.asObject with
    | none => throw "Invalid body.e2e.copies entry"
    | some row =>
      let copy ← fromJson devices row
      let copies ← listFromJson (copy.recipientDevice :: devices) items
      return copy :: copies

/-- A session opener or an account copy: the sender's card may ride it. -/
def introduces (copy : RelayCopy) : Bool := copy.keyInitB64.isSome ∨ copy.recipientDevice = ""

end RelayCopy

namespace WireEnvelope

variable (envelope : WireEnvelope)

/-- `BuildE2eBody`. -/
def e2eBody : Object :=
  let e2e := ({} : Object).set "copies" (.array (envelope.copies.map fun copy => copy.toJson.value))
  let e2e := setIfSome e2e "sender_card" (envelope.body.senderCard.map Object.value)
  setIfSome e2e "sender_card_at" (envelope.body.senderCardAt.map fun at_ => .num at_.toInt)

/-- `BuildRouteObject`. -/
def routeObject : Object :=
  ({} : Object)
    |>.set "kind" (.str envelope.route.kind)
    |>.setIf (envelope.route.kind = "direct") "channel" (.str envelope.route.channel.toText)

/-- The fields of both JSON forms. -/
def putFields (json : Object) : Object :=
  json
    |>.set "envelope_version" (.num envelope.envelopeVersion)
    |>.set "message_id" (.str envelope.messageId)
    |>.set "sender_relay_id" (.str envelope.senderRelayId)
    |>.set "sender_contact_id" (.str envelope.senderContactId)
    |>.set "sender_device" (.str envelope.senderDevice)
    |>.set "route" envelope.routeObject.value
    |>.set "body" (({} : Object).set "e2e" envelope.e2eBody.value).value
    |>.set "timestamp" (.num envelope.timestamp.toInt)
    |>.set "signature" (.str envelope.signature)

/-- `RelayEnvelopeToApplicationJson`. -/
def toApplicationJson : Object := envelope.putFields {}

/-- `RelayEnvelopeToJson`. -/
def toJson : Object :=
  let json := (envelope.putFields (({} : Object).set "op" (.str "envelope")))
    |>.set "stream_key" (.str envelope.streamKey)
    |>.set "order_key" (uintValue envelope.orderKey.toNat)
  setIfSome json "recipient_contact_id" (envelope.recipientContactId.map .str)

end WireEnvelope

/-! ## Parsing -/

namespace ParseRelayEnvelope

/-- The legacy forms of a body, which are refused. -/
def checkBody (body : Object) : Roe Object := do
  if (body.get? "text").isSome then throw "Legacy relay body.text is not supported"
  if (body.get? "content_b64").isSome then throw "Legacy relay body.content_b64 is not supported"
  if (body.get? "content_rml").isSome then throw "Remote content_rml is not supported on wire"
  if (body.get? "public_relay").isSome then throw "public_relay body is not supported"
  match body.getObject "e2e" with
  | none => throw "Missing body.e2e"
  | some e2e =>
    if (e2e.get? "content_rml").isSome then throw "Remote content_rml is not supported on wire"
    if (e2e.get? "payload_b64").isSome ∨ (e2e.get? "member_payloads").isSome ∨ (e2e.get? "key_init_b64").isSome then
      throw "body.e2e carries copies only (envelope v2, M022)"
    return e2e

def readCopies (e2e : Object) : Roe (List RelayCopy) :=
  match e2e.getArray "copies" with
  | none => .error "Missing or too many body.e2e.copies"
  | some items =>
    if items = [] ∨ items.length > kMaxRelayCopies then .error "Missing or too many body.e2e.copies"
    else RelayCopy.listFromJson [] items

/-- The sender's card, which rides a copy that introduces the sender. -/
def readCard (e2e : Object) (senderContactId : String) (copies : List RelayCopy) : Roe (Option Object) :=
  match e2e.getObject "sender_card" with
  | none => .ok none
  | some card =>
    if ¬ copies.any RelayCopy.introduces then .error "body.e2e.sender_card without a key_init or an account copy"
    else if stringOr card "account_id" ≠ senderContactId then .error "Invalid body.e2e.sender_card"
    else .ok (some card)

def readChannel (route : Object) (kind : String) : Roe ThreadChannel :=
  if kind = "direct" then
    match route.getString "channel" with
    | none => .error "Missing route.channel"
    | some channel =>
      if channel = "public_relay" then .error "public_relay channel is not supported"
      else if ThreadChannel.ofText channel = .none then .error "Invalid route.channel"
      else .ok (.ofText channel)
  else if kind = "group" then .ok .none
  else if kind = kRelayRouteControl then .ok .e2ePublic -- the lane rides the e2e_public session
  else .ok (((route.getString "channel").map ThreadChannel.ofText).getD .e2e)

def readRoute (route : Object) (copies : List RelayCopy) : Roe RelayRoute := do
  let kind := (route.getString "kind").getD "direct"
  let channel ← readChannel route kind
  if (route.get? "group_id").isSome then throw "Envelope route with a group_id"
  if kind = "direct" ∨ kind = kRelayRouteControl then
    refuseIf (EnvelopeSigner.controlShapeWrong { kind, channel } copies) "Control envelope must carry one account copy"
  else refuseIf (kind ≠ "group") "Unknown route.kind"
  return { kind, channel }

/-- The names an envelope begins with. -/
def readNames (json : Object) : Roe WireEnvelope := do
  if (json.get? "thread_id").isSome then throw "Legacy relay envelope thread_id is not supported"
  match json.getInt "envelope_version" with
  | none => throw "Missing envelope_version"
  | some version => refuseIf (version ≠ 2) "Unsupported envelope_version"
  match json.getString "message_id" with
  | none => throw "Missing message_id"
  | some messageId =>
    if ¬ isSafeMessageId messageId then throw "Unsafe message_id"
    match json.getString "sender_relay_id" with
    | none => throw "Missing sender_relay_id"
    | some senderRelayId =>
      match json.getString "sender_contact_id" with
      | none => throw "Missing sender_contact_id"
      | some senderContactId =>
        let senderDevice := stringOr json "sender_device"
        if senderDevice = "" then throw "Missing sender_device"
        return { messageId, senderRelayId, senderContactId, senderDevice }

/-- The identities, which are stored and bound as text, and what is not signed. -/
def readRest (json : Object) (envelope : WireEnvelope) : Roe WireEnvelope := do
  if ¬ isPlainIdentifier envelope.senderContactId ∨
      (envelope.senderRelayId ≠ "" ∧ ¬ isPlainIdentifier envelope.senderRelayId) then
    throw "Invalid identity in envelope"
  let envelope := { envelope with
    timestamp := (getInt64Field json "timestamp").getD 0
    signature := stringOr json "signature"
    streamKey := stringOr json "stream_key"
    orderKey := ((json.getNonNegInt "order_key").map UInt64.ofNat).getD 0 }
  match json.getString "recipient_contact_id" with
  | none => return envelope
  | some recipient =>
    if ¬ isPlainIdentifier recipient then throw "Invalid recipient in envelope"
    return { envelope with recipientContactId := some recipient }

/-- A single copy reads as itself. -/
def withCopies (envelope : WireEnvelope) (copies : List RelayCopy) : WireEnvelope :=
  let envelope := { envelope with body := { envelope.body with copies } }
  match copies with
  | [only] => envelope.viewCopy only
  | _ => envelope

end ParseRelayEnvelope

open ParseRelayEnvelope in
def parseRelayEnvelope (json : Object) : Roe WireEnvelope := do
  let envelope ← readNames json
  match json.getObject "route", json.getObject "body" with
  | none, _ => throw "Missing route"
  | _, none => throw "Missing body"
  | some route, some body =>
    let e2e ← checkBody body
    let copies ← readCopies e2e
    let envelope := withCopies envelope copies
    let senderCardAt := (getInt64Field e2e "sender_card_at").filter (0 < ·)
    let senderCard ← readCard e2e envelope.senderContactId copies
    let route ← readRoute route copies
    readRest json { envelope with route, body := { envelope.body with senderCardAt, senderCard } }

/-! ## The relay's record -/

structure RelayWireSendRecord where
  senderContactId : String
  recipientContactId : String
  streamId : String
  indexKey : UInt64
  blobB64 : String
  urgent : Bool := false
  ttlS : Int64 := 0
  wakeHint : String := ""

structure RelayInboundRecord where
  senderContactId : String
  streamId : String
  indexKey : UInt64
  blobB64 : String
  createdAtMs : Option Int64 := none

/-- `id` if it is a valid wake hint, else empty. -/
def sanitizeWakeHint (id : String) : String :=
  if id.utf8ByteSize ≤ 64 ∧ id.toList.all fun c => c.isAlphanum ∨ c = '-' then id else ""

section Records

variable (C : EnvelopeCrypto)

def relayWireSendRecordFromEnvelope (envelope : WireEnvelope) : Roe RelayWireSendRecord := do
  if envelope.senderRelayId = "" then throw "Missing sender_relay_id for relay send"
  let recipientContactId := envelope.recipientContactId.getD ""
  if recipientContactId = "" then throw "Missing recipient_contact_id for relay send"
  if envelope.streamKey = "" then throw "Missing stream_key for relay send"
  return {
    senderContactId := envelope.senderRelayId
    recipientContactId
    streamId := envelope.streamKey
    indexKey := if envelope.orderKey ≠ 0 then envelope.orderKey else envelope.senderSeq
    blobB64 := C.base64Encode (C.dumpJson envelope.toApplicationJson)
    urgent := envelope.relayWakeUrgent, ttlS := envelope.relayTtlS
    wakeHint := sanitizeWakeHint envelope.relayWakeHint }

/-- What the relay hands out of a record it was sent. -/
def RelayWireSendRecord.stored (record : RelayWireSendRecord) (createdAtMs : Option Int64) : RelayInboundRecord :=
  { senderContactId := record.senderContactId, streamId := record.streamId, indexKey := record.indexKey
    blobB64 := record.blobB64, createdAtMs }

def relayEnvelopeFromInboundRecord (record : RelayInboundRecord) : Roe WireEnvelope := do
  let decoded ← C.base64Decode record.blobB64
  match C.tryParseObject decoded with
  | none => throw "Invalid relay blob JSON"
  | some json =>
    let envelope ← parseRelayEnvelope json
    return { envelope with
      streamKey := record.streamId, orderKey := record.indexKey, relayCreatedAtMs := record.createdAtMs }

end Records

/-! ## The envelopes a device sends -/

/-! ## Stream keys -/

def BuildStreamKey.ordered (a b : String) : String × String := if b < a then (b, a) else (a, b)

open BuildStreamKey

def buildControlRelayStreamKey (contactIdA contactIdB : String) : String :=
  let (lo, hi) := ordered contactIdA contactIdB
  "v1:control:" ++ lo ++ ":" ++ hi

def buildDeviceRelayStreamKey (contactIdA contactIdB : String) (channel : ThreadChannel) (senderDevice : String) :
    String :=
  let (lo, hi) := ordered contactIdA contactIdB
  "v2:" ++ channel.toText ++ ":" ++ lo ++ ":" ++ hi ++ ":from:" ++ senderDevice

def buildGroupRelayStreamKey (C : EnvelopeCrypto) (groupId accountA accountB senderDevice : String) : String :=
  let (lo, hi) := ordered accountA accountB
  let input := (["pp-browser:group-stream-v1", groupId, lo, hi].map wireLenUtf8).flatten
  "v1:g:" ++ C.streamHash input ++ ":from:" ++ senderDevice

/-! ## Envelopes -/

/-- Who sends, as an envelope names us. -/
structure EnvelopeSender where
  relayUserId : String
  accountId : String
  device : String
  /-- Our account card. -/
  card : Option Object := none

/-- What an envelope takes of a message. -/
structure EnvelopeMessage where
  id : String
  timestamp : Int64
  deriving DecidableEq, Repr

namespace OutboundMessage

/-- Our card rides a session opener, and every account copy. -/
def introduces (copies : List RelayCopy) : Bool :=
  copies.any fun copy => copy.keyInitB64.any (· ≠ "") ∨ copy.recipientDevice = ""

def envelopeFrom (message : EnvelopeMessage) (sender : EnvelopeSender) (copies : List RelayCopy) (orderKey : UInt64) :
    WireEnvelope :=
  let envelope : WireEnvelope :=
    { messageId := message.id, senderRelayId := sender.relayUserId, senderContactId := sender.accountId
      senderDevice := sender.device, orderKey, timestamp := message.timestamp
      body := {
        senderCard := if introduces copies then sender.card else none
        senderCardAt := sender.card.bind (getInt64Field · "issued_at") } }
  match copies with
  | [only] => envelope.withSingleCopy only
  | copies => { envelope with body := { envelope.body with copies } }

def buildDirectEnvelope (message : EnvelopeMessage) (sender : EnvelopeSender) (channel : ThreadChannel)
    (routeParty : String) (copies : List RelayCopy) (orderKey : UInt64) : WireEnvelope :=
  { envelopeFrom message sender copies orderKey with
    route := { kind := "direct", channel }
    streamKey := buildDeviceRelayStreamKey sender.relayUserId routeParty channel sender.device
    recipientContactId := some routeParty
    relayWakeHint := sanitizeWakeHint message.id }

def buildGroupMemberEnvelope (C : EnvelopeCrypto) (message : EnvelopeMessage) (sender : EnvelopeSender)
    (groupId recipient routeParty : String) (copies : List RelayCopy) (orderKey : UInt64) : WireEnvelope :=
  { envelopeFrom message sender copies orderKey with
    route := { kind := "group" }
    streamKey := buildGroupRelayStreamKey C groupId sender.accountId recipient sender.device
    recipientContactId := some routeParty
    relayWakeHint := sanitizeWakeHint message.id }

end OutboundMessage

/-- Who sends to whom on the control lane. -/
structure ControlLaneSendParams where
  senderAccountId : String
  senderRelayId : String
  peerAccountId : String
  routeParty : String
  sessionEpoch : UInt32 := 1
  senderDevice : String
  senderCard : Option Object := none
  senderCardAt : Option Int64 := none
  orderKey : UInt64 := 0

namespace ControlLaneEnvelope

/-- The lane's envelope without its signature. -/
def unsigned (params : ControlLaneSendParams) (control : EnvelopeMessage) (encrypted : E2eEncryptResult) :
    WireEnvelope :=
  let copy : RelayCopy :=
    { sessionEpoch := params.sessionEpoch, payloadB64 := encrypted.payloadB64
      keyInitB64 := encrypted.keyInitB64.filter (· ≠ "") }
  let issuedAt := params.senderCard.bind (getInt64Field · "issued_at")
  let envelope : WireEnvelope :=
    { messageId := control.id, senderRelayId := params.senderRelayId, senderContactId := params.senderAccountId
      senderDevice := params.senderDevice, route := { kind := kRelayRouteControl, channel := .e2ePublic }
      body := { senderCard := params.senderCard, senderCardAt := params.senderCardAt.or issuedAt } }
  { envelope.withSingleCopy copy with
    orderKey := params.orderKey
    streamKey := buildControlRelayStreamKey params.senderRelayId params.routeParty ++ ":from:" ++ params.senderDevice
    recipientContactId := some params.routeParty
    timestamp := control.timestamp }

/-- `BuildControlLaneEnvelope`; `encrypted` is what encoding and sealing the
message come to, and `system` whether it is a system message. -/
def build (C : EnvelopeCrypto) (params : ControlLaneSendParams) (control : EnvelopeMessage) (system : Bool)
    (encrypted : Roe E2eEncryptResult) (sign : ByteVector → Roe String) : Roe WireEnvelope := do
  refuseIf (¬ system ∨ control.id = "") "control lane carries identified system messages only"
  refuseIf (params.senderAccountId = "" ∨ params.senderDevice = "" ∨ params.peerAccountId = "" ∨ params.routeParty = "")
    "control lane send missing a party"
  let encrypted ← encrypted
  let envelope := unsigned params control encrypted
  let signBytes ← EnvelopeSigner.buildSignBytes C envelope
  let signature ← sign signBytes
  return { envelope with signature }

end ControlLaneEnvelope

end Pbr
