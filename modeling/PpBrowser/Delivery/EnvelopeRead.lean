import PpBrowser.Delivery.EnvelopeSigned
import PpBrowser.Lib.Base64

/-!
# EnvelopeRead — an envelope comes over the wire

What a device builds is read back from its JSON and from the relay's record.
-/

namespace Pbr

open Lib Lib.Json EnvelopeSigner

theorem get?_setIfSome (json : Object) (key other : String) (value : Option Value) :
    (setIfSome json key value).get? other = if other = key then value.or (json.get? other) else json.get? other := by
  cases value with
  | none | some value => simp [setIfSome]

theorem isInt64_toInt (value : Int64) : IsInt64 value.toInt :=
  ⟨Int64.le_toInt value, Int64.toInt_lt value⟩

theorem getInt64Field_eq {json : Object} {key : String} {value : Int64} (h : json.get? key = some (.num value.toInt)) :
    getInt64Field json key = some value := by
  simp [getInt64Field, h, Option.filter, isInt64_toInt]

/-! ## Copies -/

namespace RelayCopy

theorem fromJson_toJson {copy : RelayCopy} {devices : List String} (hpayload : copy.payloadB64 ≠ "")
    (hnew : copy.recipientDevice ∉ devices)
    (hplain : copy.recipientDevice = "" ∨ isPlainIdentifier copy.recipientDevice = true) :
    fromJson devices copy.toJson = .ok copy := by
  have hdevice : stringOr copy.toJson "recipient_device" = copy.recipientDevice := by
    by_cases hnone : copy.recipientDevice = ""
    · simp [toJson, stringOr, get?_setIfSome, hnone]
    · simp [toJson, stringOr, get?_setIfSome, hnone]
  have hepoch : copy.toJson.getNonNegInt "session_epoch" = some copy.sessionEpoch.toNat := by
    simp [toJson, get?_setIfSome]
  have hseq : copy.toJson.getNonNegInt "sender_seq" = some copy.senderSeq.toNat := by
    simp [toJson, get?_setIfSome]
  have hread : copy.toJson.getString "payload_b64" = some copy.payloadB64 := by
    simp [toJson]
  have hkey : copy.toJson.getString "key_init_b64" = copy.keyInitB64 := by
    cases hkeyInit : copy.keyInitB64 <;>
      simp [toJson, get?_setIfSome, hkeyInit]
  have hword : copy.sessionEpoch.toNat < 2 ^ 32 := copy.sessionEpoch.toNat_lt
  unfold fromJson
  dsimp only
  rw [hdevice, hepoch, hseq, hread, hkey]
  dsimp only
  rw [if_neg (by rintro (hlarge | hnone); exacts [absurd hword (Nat.not_lt.mpr hlarge), hpayload hnone]),
    if_neg hnew, if_neg]
  · simp only [UInt32.ofNat_toNat, UInt64.ofNat_toNat]
    rfl
  · rintro ⟨hsome, hnot⟩
    rcases hplain with hnone | hplain
    · exact hsome hnone
    · exact hnot hplain

theorem listFromJson_toJson {copies : List RelayCopy} {devices : List String}
    (hcopies : ∀ copy ∈ copies, copy.payloadB64 ≠ "" ∧ copy.recipientDevice ∉ devices)
    (hplain : ∀ copy ∈ copies, copy.recipientDevice = "" ∨ isPlainIdentifier copy.recipientDevice = true)
    (hdistinct : (copies.map (·.recipientDevice)).Nodup) :
    listFromJson devices (copies.map fun copy => copy.toJson.value) = .ok copies := by
  induction copies generalizing devices with
  | nil => rfl
  | cons copy copies ih =>
    obtain ⟨hpayload, hnew⟩ := hcopies copy List.mem_cons_self
    obtain ⟨hfirst, hdistinct⟩ := List.nodup_cons.mp hdistinct
    rw [List.map_cons, listFromJson, asObject_value]
    dsimp only
    rw [fromJson_toJson hpayload hnew (hplain copy List.mem_cons_self), roe_ok_bind, ih]
    · rfl
    · intro other hother
      obtain ⟨hpayload, hnew⟩ := hcopies other (List.mem_cons_of_mem _ hother)
      refine ⟨hpayload, ?_⟩
      intro hmem
      rcases List.mem_cons.mp hmem with hsame | hbefore
      · exact hfirst (List.mem_map.mpr ⟨other, hother, hsame⟩)
      · exact hnew hbefore
    · exact fun other hother => hplain other (List.mem_cons_of_mem _ hother)
    · exact hdistinct

end RelayCopy

/-! ## An envelope -/

namespace WireEnvelope

/-- What a parser asks of an envelope. -/
structure Readable (envelope : WireEnvelope) : Prop where
  version : envelope.envelopeVersion = 2
  messageId : isSafeMessageId envelope.messageId = true
  contact : isPlainIdentifier envelope.senderContactId = true
  relay : envelope.senderRelayId = "" ∨ isPlainIdentifier envelope.senderRelayId = true
  device : envelope.senderDevice ≠ ""
  shaped : Shaped envelope
  plain : ∀ copy ∈ envelope.copies, copy.recipientDevice = "" ∨ isPlainIdentifier copy.recipientDevice = true
  channel : envelope.route.kind = "direct" → envelope.route.channel ≠ .none
  card : ∀ card ∈ envelope.body.senderCard,
    envelope.copies.any RelayCopy.introduces = true ∧ stringOr card "account_id" = envelope.senderContactId
  recipient : ∀ recipient ∈ envelope.recipientContactId, isPlainIdentifier recipient = true

/-- The read envelope has what is signed of the sent one, its copies and its card. -/
structure Carries (envelope read : WireEnvelope) : Prop where
  version : read.envelopeVersion = envelope.envelopeVersion
  messageId : read.messageId = envelope.messageId
  senderRelayId : read.senderRelayId = envelope.senderRelayId
  senderContactId : read.senderContactId = envelope.senderContactId
  senderDevice : read.senderDevice = envelope.senderDevice
  timestamp : read.timestamp = envelope.timestamp
  copies : read.copies = envelope.copies
  kind : read.route.kind = envelope.route.kind
  channel : channelByte read.route = channelByte envelope.route
  card : read.body.senderCard = envelope.body.senderCard

/-- What a reader has of an envelope: the same signed bytes, the same card and
for every device the same copy. -/
structure SameRead (C : EnvelopeCrypto) (envelope read : WireEnvelope) : Prop where
  signBytes : buildSignBytes C read = buildSignBytes C envelope
  card : read.body.senderCard = envelope.body.senderCard
  selected : ∀ device, (read.selectCopy device).map view = (envelope.selectCopy device).map view

theorem Carries.sameRead {C : EnvelopeCrypto} {envelope read : WireEnvelope} (h : Carries envelope read) :
    SameRead C envelope read where
  signBytes := by
    have hshape : checkBodyShape read = checkBodyShape envelope := by
      unfold checkBodyShape controlShapeWrong
      rw [h.copies, h.kind]
    have hkind : routeKindByte read.route = routeKindByte envelope.route := by
      rw [routeKindByte, routeKindByte, h.kind]
    unfold buildSignBytes
    rw [h.version, hshape, h.copies, hkind, h.channel, h.timestamp, h.messageId, h.senderContactId, h.senderRelayId,
      h.senderDevice]
  card := h.card
  selected device := by
    show (read.selectCopy device).map (·.view) = (envelope.selectCopy device).map (·.view)
    rw [view_selectCopy, view_selectCopy, h.copies]

end WireEnvelope

namespace ParseRelayEnvelope

variable {envelope : WireEnvelope}

open WireEnvelope

theorem checkBody_eq (envelope : WireEnvelope) :
    checkBody (({} : Object).set "e2e" envelope.e2eBody.value) = .ok envelope.e2eBody := by
  simp [checkBody, asObject_value, e2eBody, get?_setIfSome]

theorem readCopies_e2eBody (h : envelope.Readable) : readCopies envelope.e2eBody = .ok envelope.copies := by
  have hcopies : envelope.e2eBody.getArray "copies" = some (envelope.copies.map fun copy => copy.toJson.value) := by
    simp [e2eBody, get?_setIfSome]
  unfold readCopies
  rw [hcopies]
  dsimp only
  rw [if_neg]
  · exact RelayCopy.listFromJson_toJson (fun copy hcopy => ⟨h.shaped.payloads copy hcopy, List.not_mem_nil⟩) h.plain
      h.shaped.distinct
  · have hsome := h.shaped.some_
    have hfew := h.shaped.few
    simp [hsome, hfew]

theorem readCard_e2eBody (h : envelope.Readable) :
    readCard envelope.e2eBody envelope.senderContactId envelope.copies = .ok envelope.body.senderCard := by
  have hcard : envelope.e2eBody.getObject "sender_card" = envelope.body.senderCard := by
    cases hsome : envelope.body.senderCard <;> simp [e2eBody, get?_setIfSome, hsome, asObject_value]
  unfold readCard
  rw [hcard]
  cases hsome : envelope.body.senderCard with
  | none => rfl
  | some card =>
    obtain ⟨hintroduces, haccount⟩ := h.card card hsome
    dsimp only
    rw [if_neg (by simp [hintroduces]), if_neg (by simp [haccount])]

/-- The route comes back; a group's tells no channel, and the lane's is told
by its kind. -/
theorem readRoute_routeObject (h : envelope.Readable) : ∃ route, readRoute envelope.routeObject envelope.copies = .ok route ∧
    route.kind = envelope.route.kind ∧ channelByte route = channelByte envelope.route := by
  have hkind : (envelope.routeObject.getString "kind").getD "direct" = envelope.route.kind := by
    simp [routeObject]
  have hgroup : (envelope.routeObject.get? "group_id").isSome = false := by simp [routeObject]
  have hshape (channel : ThreadChannel) : controlShapeWrong { kind := envelope.route.kind, channel } envelope.copies = false :=
    h.shaped.control
  have hrouted := h.shaped.routed
  simp only [List.mem_cons, List.not_mem_nil, or_false] at hrouted
  unfold readRoute
  simp only [hkind, hgroup, Bool.false_eq_true, if_false]
  rcases hrouted with hroute | hroute | hroute
  · -- a group
    refine ⟨{ kind := envelope.route.kind, channel := .none }, ?_, rfl, ?_⟩
    · simp [readChannel, hroute, kRelayRouteGroup, kRelayRouteControl, refuseIf]
    · simp [channelByte, hroute, kRelayRouteGroup, kRelayRouteControl, kRelayRouteDirect]
  · -- a chat
    have hchannel : envelope.routeObject.getString "channel" = some envelope.route.channel.toText := by
      simp [routeObject, hroute, kRelayRouteDirect]
    have htext : envelope.route.channel.toText ≠ "public_relay" := by
      cases envelope.route.channel <;> decide
    have hread : readChannel envelope.routeObject envelope.route.kind = .ok envelope.route.channel := by
      have hdirect : envelope.route.kind = "direct" := hroute
      rw [readChannel, if_pos hdirect, hchannel]
      dsimp only
      rw [if_neg htext, ThreadChannel.ofText_toText, if_neg (h.channel hdirect)]
    refine ⟨{ kind := envelope.route.kind, channel := envelope.route.channel }, ?_, rfl, rfl⟩
    rw [hread, roe_ok_bind, if_pos (.inl hroute), hshape]
    rfl
  · -- the control lane
    refine ⟨{ kind := envelope.route.kind, channel := .e2ePublic }, ?_, rfl, ?_⟩
    · have hread : readChannel envelope.routeObject envelope.route.kind = .ok .e2ePublic := by
        simp [readChannel, hroute, kRelayRouteControl]
      rw [hread, roe_ok_bind, if_pos (.inr hroute), hshape]
      rfl
    · simp [channelByte, hroute]

theorem withCopies_eq (envelope : WireEnvelope) {copies : List RelayCopy} (h : copies ≠ []) :
    (withCopies envelope copies).copies = copies ∧ ∃ view : RelayCopy, withCopies envelope copies =
        WireEnvelope.viewCopy { envelope with body := { envelope.body with copies } } view := by
  have hcopies (view : RelayCopy) :
      (WireEnvelope.viewCopy { envelope with body := { envelope.body with copies } } view).copies = copies := by
    rw [WireEnvelope.copies]
    exact if_pos h
  match copies, h with
  | [only], _ => exact ⟨hcopies only, only, rfl⟩
  | first :: second :: rest, _ =>
    refine ⟨hcopies { envelope.view with }, envelope.view, rfl⟩

/-- The keys a parser reads of what is signed. -/
def namedFields : List String :=
  ["envelope_version", "message_id", "sender_relay_id", "sender_contact_id", "sender_device", "route", "body", "timestamp"]

structure Names (envelope : WireEnvelope) (json : Object) : Prop where
  fields : ∀ key ∈ namedFields, json.get? key = envelope.toApplicationJson.get? key
  legacy : json.get? "thread_id" = none
  recipient : ∀ recipient ∈ json.getString "recipient_contact_id", isPlainIdentifier recipient = true

/-- The names alone. -/
def nameOnly (envelope : WireEnvelope) : WireEnvelope :=
  { messageId := envelope.messageId, senderRelayId := envelope.senderRelayId
    senderContactId := envelope.senderContactId, senderDevice := envelope.senderDevice }

theorem Names.text {json : Object} (hnames : Names envelope json) {key value : String} (hkey : key ∈ namedFields)
    (h : envelope.toApplicationJson.get? key = some (.str value)) : json.getString key = some value := by
  rw [Object.getString, hnames.fields key hkey, h]
  rfl

section

variable {json : Object} (h : envelope.Readable) (hnames : Names envelope json)
include h hnames

theorem readNames_eq : readNames json = .ok (nameOnly envelope) := by
  have hversion : json.getInt "envelope_version" = some 2 := by
    rw [Object.getInt, hnames.fields "envelope_version" (by decide)]
    simp [toApplicationJson, putFields, h.version]
  have hmessage : json.getString "message_id" = some envelope.messageId :=
    hnames.text (by decide) (by simp [toApplicationJson, putFields])
  have hrelay : json.getString "sender_relay_id" = some envelope.senderRelayId :=
    hnames.text (by decide) (by simp [toApplicationJson, putFields])
  have hcontact : json.getString "sender_contact_id" = some envelope.senderContactId :=
    hnames.text (by decide) (by simp [toApplicationJson, putFields])
  have hdevice : json.getString "sender_device" = some envelope.senderDevice :=
    hnames.text (by decide) (by simp [toApplicationJson, putFields])
  unfold readNames stringOr
  simp only [hnames.legacy, Option.isSome_none, Bool.false_eq_true, if_false, hversion, hmessage, hrelay, hcontact, hdevice,
    h.messageId, not_true_eq_false, Option.getD_some, h.device]
  rfl

theorem parse_names : ∃ read : WireEnvelope, parseRelayEnvelope json = readRest json read ∧
      Carries envelope { read with timestamp := envelope.timestamp } := by
  have hroute : json.getObject "route" = some envelope.routeObject := by
    rw [Object.getObject, hnames.fields "route" (by decide)]
    simp [toApplicationJson, putFields, asObject_value]
  have hbody : json.getObject "body" = some (({} : Object).set "e2e" envelope.e2eBody.value) := by
    rw [Object.getObject, hnames.fields "body" (by decide)]
    simp [toApplicationJson, putFields, asObject_value]
  obtain ⟨route, hread, hkind, hchannel⟩ := readRoute_routeObject h
  obtain ⟨hcopies, view, hview⟩ := withCopies_eq (nameOnly envelope) h.shaped.some_
  have hcontact : (withCopies (nameOnly envelope) envelope.copies).senderContactId = envelope.senderContactId := by
    rw [hview]
    rfl
  unfold parseRelayEnvelope
  rw [readNames_eq h hnames, roe_ok_bind, hroute, hbody]
  dsimp only
  rw [checkBody_eq, roe_ok_bind, readCopies_e2eBody h, roe_ok_bind, hcontact, readCard_e2eBody h, roe_ok_bind, hread,
    roe_ok_bind]
  refine ⟨_, rfl, ?_⟩
  rw [hview] at hcopies ⊢
  constructor
  · exact h.version.symm
  · rfl
  · rfl
  · rfl
  · rfl
  · rfl
  · exact hcopies
  · exact hkind
  · exact hchannel
  · rfl

theorem parse_eq : ∃ read : WireEnvelope, parseRelayEnvelope json = .ok read ∧ Carries envelope read := by
  obtain ⟨read, hparse, hcarries⟩ := parse_names h hnames
  have htimestamp : getInt64Field json "timestamp" = some envelope.timestamp := by
    apply getInt64Field_eq
    rw [hnames.fields "timestamp" (by decide)]
    simp [toApplicationJson, putFields]
  have hidentities : ¬ (¬ isPlainIdentifier read.senderContactId = true ∨
      (read.senderRelayId ≠ "" ∧ ¬ isPlainIdentifier read.senderRelayId = true)) := by
    have hcontact : read.senderContactId = envelope.senderContactId := hcarries.senderContactId
    have hrelay : read.senderRelayId = envelope.senderRelayId := hcarries.senderRelayId
    rw [hcontact, hrelay]
    rintro (hno | ⟨hsome, hno⟩)
    · exact hno h.contact
    · rcases h.relay with hnone | hplain
      · exact hsome hnone
      · exact hno hplain
  rw [hparse]
  unfold readRest
  rw [if_neg hidentities, htimestamp]
  cases hrecipient : json.getString "recipient_contact_id" with
  | none => exact ⟨_, rfl, { hcarries with }⟩
  | some recipient =>
    dsimp only
    rw [if_neg (by simp [hnames.recipient recipient hrecipient])]
    exact ⟨_, rfl, { hcarries with }⟩

end

theorem names_toApplicationJson : Names envelope envelope.toApplicationJson where
  fields _ _ := rfl
  legacy := by simp [toApplicationJson, putFields]
  recipient recipient hrecipient := by simp [toApplicationJson, putFields] at hrecipient

theorem names_toJson (h : envelope.Readable) : Names envelope envelope.toJson where
  fields key hkey := by
    simp only [namedFields, List.mem_cons, List.not_mem_nil, or_false] at hkey
    rcases hkey with rfl | rfl | rfl | rfl | rfl | rfl | rfl | rfl <;>
      simp [toJson, toApplicationJson, putFields, get?_setIfSome]
  legacy := by simp [toJson, putFields, get?_setIfSome]
  recipient recipient hrecipient := by
    apply h.recipient recipient
    cases hsome : envelope.recipientContactId with
    | none => simp [toJson, putFields, get?_setIfSome, hsome] at hrecipient
    | some other =>
      have hsame : other = recipient := by
        simpa [toJson, putFields, get?_setIfSome, hsome] using hrecipient
      exact congrArg some hsame

end ParseRelayEnvelope

namespace WireEnvelope

variable {C : EnvelopeCrypto} {envelope : WireEnvelope}

/-- The text of a JSON object comes back, as JSON and as base64. -/
structure TextReturns (C : EnvelopeCrypto) (json : Object) : Prop where
  base64 : C.base64Decode (C.base64Encode (C.dumpJson json)) = .ok (C.dumpJson json)
  parsed : C.tryParseObject (C.dumpJson json) = some json

/-- An envelope is read from its JSON, and from the record the relay hands out. -/
structure Delivered (C : EnvelopeCrypto) (envelope : WireEnvelope) : Prop where
  json : ∃ read, parseRelayEnvelope envelope.toJson = .ok read ∧ SameRead C envelope read
  record : ∃ record, relayWireSendRecordFromEnvelope C envelope = .ok record ∧ ∀ createdAtMs, ∃ read,
    relayEnvelopeFromInboundRecord C (record.stored createdAtMs) = .ok read ∧ SameRead C envelope read

/-- What the relay needs to route an envelope. -/
structure Routed (envelope : WireEnvelope) : Prop where
  relay : envelope.senderRelayId ≠ ""
  recipient : envelope.recipientContactId.getD "" ≠ ""
  stream : envelope.streamKey ≠ ""

theorem Readable.delivered (h : envelope.Readable) (hrouted : Routed envelope)
    (htext : TextReturns C envelope.toApplicationJson) : Delivered C envelope where
  json := by
    obtain ⟨read, hparse, hcarries⟩ := ParseRelayEnvelope.parse_eq h (ParseRelayEnvelope.names_toJson h)
    exact ⟨read, hparse, hcarries.sameRead⟩
  record := by
    obtain ⟨read, hparse, hcarries⟩ := ParseRelayEnvelope.parse_eq h ParseRelayEnvelope.names_toApplicationJson
    unfold relayWireSendRecordFromEnvelope
    rw [if_neg hrouted.relay]
    dsimp only
    rw [if_neg hrouted.recipient, if_neg hrouted.stream]
    refine ⟨_, rfl, ?_⟩
    intro createdAtMs
    simp only [relayEnvelopeFromInboundRecord, RelayWireSendRecord.stored, htext.base64, roe_ok_bind, htext.parsed, hparse]
    exact ⟨_, rfl, Carries.sameRead { hcarries with }⟩

end WireEnvelope

/-! ## What a device builds -/

namespace OutboundMessage

open WireEnvelope

/-- Names a parser takes; our card is ours. -/
structure PlainSender (sender : EnvelopeSender) : Prop where
  relayUserId : isPlainIdentifier sender.relayUserId = true
  accountId : isPlainIdentifier sender.accountId = true
  device : isPlainIdentifier sender.device = true
  card : ∀ card ∈ sender.card, stringOr card "account_id" = sender.accountId

/-- One to eight copies for distinct devices, each with a payload. -/
structure Sendable (copies : List RelayCopy) : Prop where
  some_ : copies ≠ []
  few : copies.length ≤ kMaxRelayCopies
  distinct : (copies.map (·.recipientDevice)).Nodup
  payloads : ∀ copy ∈ copies, copy.payloadB64 ≠ ""
  plain : ∀ copy ∈ copies, copy.recipientDevice = "" ∨ isPlainIdentifier copy.recipientDevice = true

theorem ne_empty_of_plain {value : String} (h : isPlainIdentifier value = true) : value ≠ "" := by
  simp only [isPlainIdentifier, decide_eq_true_eq] at h
  exact h.1

variable {C : EnvelopeCrypto} {message : EnvelopeMessage} {sender : EnvelopeSender} {copies : List RelayCopy}
  {orderKey : UInt64} {routeParty : String}

variable (message sender orderKey) in
theorem envelopeFrom_eq (h : copies ≠ []) : (envelopeFrom message sender copies orderKey).copies = copies ∧
    ∃ view : RelayCopy, envelopeFrom message sender copies orderKey =
      WireEnvelope.viewCopy
        { messageId := message.id, senderRelayId := sender.relayUserId, senderContactId := sender.accountId
          senderDevice := sender.device, orderKey, timestamp := message.timestamp
          body := {
            copies
            senderCard := if introduces copies then sender.card else none
            senderCardAt := sender.card.bind (getInt64Field · "issued_at") } } view := by
  match copies, h with
  | [only], _ => exact ⟨if_pos (List.cons_ne_nil _ _), only, rfl⟩
  | first :: second :: rest, _ => exact ⟨if_pos (List.cons_ne_nil _ _), {}, rfl⟩

theorem introduces_of (h : introduces copies = true) : copies.any RelayCopy.introduces = true := by
  simp only [introduces, List.any_eq_true, decide_eq_true_eq] at h ⊢
  obtain ⟨copy, hcopy, hopens⟩ := h
  refine ⟨copy, hcopy, ?_⟩
  rcases hopens with hkey | haccount
  · cases hsome : copy.keyInitB64 with
    | none => simp [hsome] at hkey
    | some key => simp [RelayCopy.introduces, hsome]
  · simp [RelayCopy.introduces, haccount]

/-- A chat's or a group's envelope can be read. -/
theorem readable_of {envelope : WireEnvelope} {route : RelayRoute} {streamKey wakeHint : String}
    (hmessage : isSafeMessageId message.id = true) (hsender : PlainSender sender)
    (hparty : isPlainIdentifier routeParty = true) (hcopies : Sendable copies)
    (hkind : route.kind = kRelayRouteDirect ∨ route.kind = kRelayRouteGroup)
    (hchannel : route.kind = "direct" → route.channel ≠ .none)
    (h : envelope = { envelopeFrom message sender copies orderKey with
      route, streamKey, recipientContactId := some routeParty, relayWakeHint := wakeHint }) : envelope.Readable := by
  obtain ⟨hlist, view, hview⟩ := envelopeFrom_eq message sender orderKey hcopies.some_
  have hsame : envelope.copies = copies := by
    rw [h]
    exact hlist
  have hnotControl : route.kind ≠ kRelayRouteControl := by
    rcases hkind with hdirect | hgroup
    · rw [hdirect]
      decide
    · rw [hgroup]
      decide
  have hroute : envelope.route = route := by rw [h]
  rw [hview] at h
  constructor
  · rw [h]
    rfl
  · rw [h]
    exact hmessage
  · rw [h]
    exact hsender.accountId
  · rw [h]
    exact .inr hsender.relayUserId
  · rw [h]
    exact ne_empty_of_plain hsender.device
  · constructor
    · rw [hsame]
      exact hcopies.some_
    · rw [hsame]
      exact hcopies.few
    · rw [hsame]
      exact hcopies.payloads
    · rw [hsame]
      exact hcopies.distinct
    · rw [hroute]
      rcases hkind with hdirect | hgroup
      · simp [hdirect]
      · simp [hgroup]
    · simp [controlShapeWrong, hroute, hnotControl]
  · rw [hsame]
    exact hcopies.plain
  · rw [hroute]
    exact hchannel
  · intro card hcard
    rw [hsame]
    have hbody : envelope.body.senderCard = if introduces copies then sender.card else none := by
      rw [h]
      rfl
    have hcontact : envelope.senderContactId = sender.accountId := by
      rw [h]
      rfl
    rw [hbody] at hcard
    by_cases hintroduces : introduces copies = true
    · rw [if_pos hintroduces] at hcard
      rw [hcontact]
      exact ⟨introduces_of hintroduces, hsender.card card hcard⟩
    · rw [if_neg hintroduces] at hcard
      cases hcard
  · intro recipient hrecipient
    rw [h] at hrecipient
    obtain rfl : routeParty = recipient := Option.some.inj hrecipient
    exact hparty

theorem ne_empty_of_length {value : String} (h : 0 < value.length) : value ≠ "" := by
  rintro rfl
  simp at h

section

variable (hmessage : isSafeMessageId message.id = true) (hsender : PlainSender sender)
  (hparty : isPlainIdentifier routeParty = true) (hcopies : Sendable copies)
include hmessage hsender hparty hcopies

theorem delivered_of {envelope : WireEnvelope} {route : RelayRoute} {streamKey wakeHint : String}
    (hkind : route.kind = kRelayRouteDirect ∨ route.kind = kRelayRouteGroup)
    (hchannel : route.kind = "direct" → route.channel ≠ .none) (hstream : 0 < streamKey.length)
    (h : envelope = { envelopeFrom message sender copies orderKey with
      route, streamKey, recipientContactId := some routeParty, relayWakeHint := wakeHint })
    (htext : TextReturns C envelope.toApplicationJson) : Delivered C envelope := by
  apply (readable_of hmessage hsender hparty hcopies hkind hchannel h).delivered ?_ htext
  obtain ⟨-, view, hview⟩ := envelopeFrom_eq message sender orderKey hcopies.some_
  rw [hview] at h
  constructor
  · rw [h]
    exact ne_empty_of_plain hsender.relayUserId
  · rw [h]
    exact ne_empty_of_plain hparty
  · rw [h]
    exact ne_empty_of_length hstream

theorem delivered_buildDirectEnvelope {channel : ThreadChannel} (hchannel : channel ≠ .none)
    (htext : TextReturns C (buildDirectEnvelope message sender channel routeParty copies orderKey).toApplicationJson) :
    Delivered C (buildDirectEnvelope message sender channel routeParty copies orderKey) := by
  apply delivered_of hmessage hsender hparty hcopies (.inl rfl) (fun _ => hchannel) ?_ rfl htext
  simp only [buildDeviceRelayStreamKey, String.length_append]
  have htag : "v2:".length = 3 := rfl
  omega

theorem delivered_buildGroupMemberEnvelope {groupId recipient : String} (htext : TextReturns C
      (buildGroupMemberEnvelope C message sender groupId recipient routeParty copies orderKey).toApplicationJson) :
    Delivered C (buildGroupMemberEnvelope C message sender groupId recipient routeParty copies orderKey) := by
  apply delivered_of hmessage hsender hparty hcopies (.inr rfl) ?_ ?_ rfl htext
  · intro hdirect
    exact absurd hdirect (by decide)
  · simp only [buildGroupRelayStreamKey, String.length_append]
    have htag : "v1:g:".length = 5 := rfl
    omega

end

end OutboundMessage

namespace ControlLaneEnvelope

open WireEnvelope

variable {C : EnvelopeCrypto}

/-- Names a parser takes; our card is ours. -/
structure PlainParams (params : ControlLaneSendParams) : Prop where
  relayId : isPlainIdentifier params.senderRelayId = true
  accountId : isPlainIdentifier params.senderAccountId = true
  device : isPlainIdentifier params.senderDevice = true
  routeParty : isPlainIdentifier params.routeParty = true
  card : ∀ card ∈ params.senderCard, stringOr card "account_id" = params.senderAccountId

/-- The lane's envelope was signed, and that is all a parser asks of its copy. -/
theorem delivered_build {params : ControlLaneSendParams} {control : EnvelopeMessage} {system : Bool}
    {encrypted : Roe E2eEncryptResult} {sign : ByteVector → Roe String} {envelope : WireEnvelope}
    (h : build C params control system encrypted sign = .ok envelope) (hmessage : isSafeMessageId control.id = true)
    (hparams : PlainParams params) (htext : TextReturns C envelope.toApplicationJson) : Delivered C envelope := by
  obtain ⟨-, h⟩ := refuseIf_bind_ok.mp h
  obtain ⟨-, h⟩ := refuseIf_bind_ok.mp h
  obtain ⟨encrypted, -, h⟩ := roe_bind_ok.mp h
  obtain ⟨bytes, hbytes, h⟩ := roe_bind_ok.mp h
  obtain ⟨signature, -, h⟩ := roe_bind_ok.mp h
  obtain rfl := (Except.ok.inj h).symm
  obtain ⟨hshaped, -⟩ := buildSignBytes_ok hbytes
  have haccount : ∀ copy ∈ (unsigned params control encrypted).copies, copy.recipientDevice = "" := by
    intro copy hcopy
    obtain rfl := List.mem_singleton.mp hcopy
    rfl
  apply Readable.delivered ?_ ?_ htext
  · constructor
    · rfl
    · exact hmessage
    · exact hparams.accountId
    · exact .inr hparams.relayId
    · exact OutboundMessage.ne_empty_of_plain hparams.device
    · exact { hshaped with }
    · exact fun copy hcopy => .inl (haccount copy hcopy)
    · exact fun hdirect => absurd hdirect (show kRelayRouteControl ≠ "direct" by decide)
    · intro card hcard
      refine ⟨?_, hparams.card card hcard⟩
      simp [unsigned, withSingleCopy, viewCopy, WireEnvelope.copies, RelayCopy.introduces]
    · intro recipient hrecipient
      obtain rfl : params.routeParty = recipient := Option.some.inj hrecipient
      exact hparams.routeParty
  · constructor
    · exact OutboundMessage.ne_empty_of_plain hparams.relayId
    · exact OutboundMessage.ne_empty_of_plain hparams.routeParty
    · apply OutboundMessage.ne_empty_of_length
      simp only [unsigned, buildControlRelayStreamKey, String.length_append]
      have htag : "v1:control:".length = 11 := rfl
      omega

end ControlLaneEnvelope

/-! ## What a signature covers, and what a reader has -/

namespace EnvelopeSigner

open WireEnvelope OutboundMessage

/-- Sign bytes fix what is read of an envelope, and an envelope a device
builds comes over the wire with its sign bytes, its card and its copies. -/
theorem envelope_signed (C : EnvelopeCrypto) :
    (∀ a b bytes, Sized C a → Sized C b → Hashes C (a.copies ++ b.copies) → buildSignBytes C a = .ok bytes →
      buildSignBytes C b = .ok bytes → SameSigned C a b) ∧
    (∀ message sender channel routeParty copies orderKey, isSafeMessageId message.id = true → PlainSender sender →
      isPlainIdentifier routeParty = true → Sendable copies → channel ≠ .none →
      TextReturns C (buildDirectEnvelope message sender channel routeParty copies orderKey).toApplicationJson →
      Delivered C (buildDirectEnvelope message sender channel routeParty copies orderKey)) ∧
    (∀ message sender groupId recipient routeParty copies orderKey, isSafeMessageId message.id = true →
      PlainSender sender → isPlainIdentifier routeParty = true → Sendable copies →
      TextReturns C (buildGroupMemberEnvelope C message sender groupId recipient routeParty copies orderKey).toApplicationJson →
      Delivered C (buildGroupMemberEnvelope C message sender groupId recipient routeParty copies orderKey)) ∧
    (∀ params control system encrypted sign envelope,
      ControlLaneEnvelope.build C params control system encrypted sign = .ok envelope →
      isSafeMessageId control.id = true → ControlLaneEnvelope.PlainParams params →
      TextReturns C envelope.toApplicationJson → Delivered C envelope) := by
  refine ⟨?_, ?_, ?_, ?_⟩
  · intro a b bytes ha hb hhashes hbytes hbytes'
    exact sameSigned_of_signBytes ha hb hhashes hbytes hbytes'
  · intro message sender channel routeParty copies orderKey hmessage hsender hparty hcopies hchannel htext
    exact delivered_buildDirectEnvelope hmessage hsender hparty hcopies hchannel htext
  · intro message sender groupId recipient routeParty copies orderKey hmessage hsender hparty hcopies htext
    exact delivered_buildGroupMemberEnvelope hmessage hsender hparty hcopies htext
  · intro params control system encrypted sign envelope h hmessage hparams htext
    exact ControlLaneEnvelope.delivered_build h hmessage hparams htext

/-- Base64, a hash that takes the first bytes, and one JSON text. -/
def sampleCrypto (json : Object) : EnvelopeCrypto where
  base64Decode text :=
    match Lib.Base64.decode text.toList with
    | some bytes => .ok bytes
    | none => .error "Invalid base64"
  base64Encode bytes := String.ofList (Lib.Base64.encode bytes)
  genericHash input := (input ++ List.replicate 32 0).take 32
  streamHash _ := "00112233445566778899aabbccddeeff"
  dumpJson _ := [123, 125]
  tryParseObject _ := some json

def sampleMessage : EnvelopeMessage := { id := "m1", timestamp := 1 }

def sampleSender (card : Option Object) : EnvelopeSender :=
  { relayUserId := "relay:a", accountId := "account:a", device := "phone", card }

def sampleCopies : List RelayCopy :=
  [{ payloadB64 := "cA==" }, { recipientDevice := "tablet", senderSeq := 1, payloadB64 := "cQ==" }]

def sampleDirect (channel : ThreadChannel) (card : Option Object) (copies : List RelayCopy) : WireEnvelope :=
  buildDirectEnvelope sampleMessage (sampleSender card) channel "relay:b" copies 7

theorem textReturns_sample (json : Object) : TextReturns (sampleCrypto json) json where
  base64 := by simp [sampleCrypto, Lib.Base64.decode_encode]
  parsed := rfl

theorem sampleCopies_payloads {json : Object} {copies : List RelayCopy} (hcopies : copies ⊆ sampleCopies) :
    ∀ copy ∈ copies, (sampleCrypto json).base64Decode copy.payloadB64 = .ok [112] ∨
      (sampleCrypto json).base64Decode copy.payloadB64 = .ok [113] := by
  intro copy hcopy
  have hcopy := hcopies hcopy
  simp only [sampleCopies, List.mem_cons, List.not_mem_nil, or_false] at hcopy
  rcases hcopy with rfl | rfl
  · exact .inl rfl
  · exact .inr rfl

theorem sized_sample {envelope : WireEnvelope} {json : Object} (hcopies : envelope.copies ⊆ sampleCopies)
    (hnames : ∀ text ∈ [envelope.messageId, envelope.senderContactId, envelope.senderRelayId, envelope.senderDevice],
      IsText text) : Sized (sampleCrypto json) envelope where
  names := hnames
  copies copy hcopy := by
    have htexts : ∀ copy ∈ sampleCopies, IsText copy.recipientDevice ∧ IsText (copy.keyInitB64.getD "") := by decide
    refine ⟨(htexts copy (hcopies hcopy)).1, (htexts copy (hcopies hcopy)).2, ?_⟩
    intro payload hpayload
    rcases sampleCopies_payloads hcopies copy hcopy with hdecode | hdecode
    · obtain rfl := Except.ok.inj (hdecode.symm.trans hpayload)
      decide
    · obtain rfl := Except.ok.inj (hdecode.symm.trans hpayload)
      decide

theorem hashes_sample {json : Object} {copies : List RelayCopy} (hcopies : copies ⊆ sampleCopies) :
    Hashes (sampleCrypto json) copies where
  length input := by simp [sampleCrypto]
  injective copy hcopy copy' hcopy' payload payload' hpayload hpayload' hhash := by
    have hapart : (sampleCrypto {}).genericHash (hashed [112]) ≠ (sampleCrypto {}).genericHash (hashed [113]) := by decide
    rcases sampleCopies_payloads hcopies copy hcopy with hdecode | hdecode <;>
      rcases sampleCopies_payloads hcopies copy' hcopy' with hdecode' | hdecode' <;>
      obtain rfl := Except.ok.inj (hdecode.symm.trans hpayload) <;>
      obtain rfl := Except.ok.inj (hdecode'.symm.trans hpayload')
    · rfl
    · exact absurd hhash hapart
    · exact absurd hhash.symm hapart
    · rfl

def sampleGroup (C : EnvelopeCrypto) : WireEnvelope :=
  buildGroupMemberEnvelope C sampleMessage (sampleSender none) "g" "account:b" "relay:b" sampleCopies 7

def sampleLane : ControlLaneSendParams :=
  { senderAccountId := "account:a", senderRelayId := "relay:a", peerAccountId := "account:b", routeParty := "relay:b"
    senderDevice := "phone" }

def sampleControl : WireEnvelope :=
  { ControlLaneEnvelope.unsigned sampleLane sampleMessage { payloadB64 := "cA==", keyInitB64 := none } with
    signature := "sig" }

theorem plainSender_sample : PlainSender (sampleSender none) := ⟨by decide, by decide, by decide, by simp [sampleSender]⟩

theorem sendable_sample : Sendable sampleCopies := ⟨by decide, by decide, by decide, by decide, by decide⟩

/-- Copies listed the other way round; a chat's, a group's and the lane's
envelope. -/
theorem envelope_signed_sample :
    SameSigned (sampleCrypto {}) (sampleDirect .e2e none sampleCopies) (sampleDirect .e2e none sampleCopies.reverse) ∧
    Delivered (sampleCrypto (sampleDirect .e2e none sampleCopies).toApplicationJson) (sampleDirect .e2e none sampleCopies) ∧
    Delivered (sampleCrypto (sampleGroup (sampleCrypto {})).toApplicationJson) (sampleGroup (sampleCrypto {})) ∧
    Delivered (sampleCrypto sampleControl.toApplicationJson) sampleControl := by
  refine ⟨?_, ?_, ?_, ?_⟩
  · have hcopies : (sampleDirect .e2e none sampleCopies).copies = sampleCopies := rfl
    have hcopies' : (sampleDirect .e2e none sampleCopies.reverse).copies = sampleCopies.reverse := rfl
    have hreverse : sampleCopies.reverse ⊆ sampleCopies := fun copy hcopy => List.mem_reverse.mp hcopy
    apply (envelope_signed (sampleCrypto {})).1 _ _ _ (sized_sample ?_ (by decide)) (sized_sample ?_ (by decide))
      (hashes_sample ?_) rfl rfl
    · rw [hcopies]
      exact fun copy hcopy => hcopy
    · rw [hcopies']
      exact hreverse
    · rw [hcopies, hcopies']
      exact List.append_subset.mpr ⟨fun copy hcopy => hcopy, hreverse⟩
  · exact (envelope_signed (sampleCrypto (sampleDirect .e2e none sampleCopies).toApplicationJson)).2.1 sampleMessage
      (sampleSender none) .e2e "relay:b" sampleCopies 7 (by decide) plainSender_sample (by decide) sendable_sample
      (by decide) (textReturns_sample _)
  · exact (envelope_signed (sampleCrypto (sampleGroup (sampleCrypto {})).toApplicationJson)).2.2.1 sampleMessage
      (sampleSender none) "g" "account:b" "relay:b" sampleCopies 7 (by decide) plainSender_sample (by decide)
      sendable_sample (textReturns_sample _)
  · exact (envelope_signed (sampleCrypto sampleControl.toApplicationJson)).2.2.2 sampleLane sampleMessage true
      (.ok { payloadB64 := "cA==", keyInitB64 := none }) (fun _ => .ok "sig") sampleControl rfl (by decide)
      ⟨by decide, by decide, by decide, by decide, by simp [sampleLane]⟩ (textReturns_sample _)

/-- A parser refuses an envelope of a chat that is not encrypted, a copy without
a payload and a card of another account. -/
theorem built_not_read :
    (parseRelayEnvelope (sampleDirect .none none sampleCopies).toJson).toOption.isNone = true ∧
    (parseRelayEnvelope (sampleDirect .e2e none [{ payloadB64 := "" }]).toJson).toOption.isNone = true ∧
    (parseRelayEnvelope (sampleDirect .e2e
      (some (({} : Object).set "account_id" (.str "account:c"))) sampleCopies).toJson).toOption.isNone = true := by
  decide

end EnvelopeSigner

end Pbr
