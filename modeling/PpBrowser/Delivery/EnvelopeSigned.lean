import Mathlib.Tactic.SplitIfs
import PpBrowser.Delivery.PeerRequestSigned
import PpBrowser.Delivery.RelayEnvelope

/-!
# EnvelopeSigned — what an envelope's signature covers

Sign bytes tell the route, the time, the names and the copies; an envelope a
device builds is read back from its JSON and from the relay's record with the
same sign bytes, card and copies.
-/

namespace Pbr

open Lib Lib.Json

section Lists

variable {α : Type}

theorem find?_of_perm {p : α → Bool} {l m : List α} (hperm : l.Perm m)
    (hone : ∀ a ∈ l, ∀ b ∈ l, p a = true → p b = true → a = b) : l.find? p = m.find? p := by
  cases hl : l.find? p with
  | none =>
    symm
    rw [List.find?_eq_none] at hl ⊢
    exact fun a ha => hl a (hperm.mem_iff.mpr ha)
  | some a =>
    have ha := List.mem_of_find?_eq_some hl
    have hpa := List.find?_some hl
    cases hm : m.find? p with
    | none =>
      rw [List.find?_eq_none] at hm
      exact absurd hpa (hm a (hperm.mem_iff.mp ha))
    | some b =>
      have hb := hperm.mem_iff.mpr (List.mem_of_find?_eq_some hm)
      rw [hone a ha b hb hpa (List.find?_some hm)]

end Lists

namespace EnvelopeSigner

variable {C : EnvelopeCrypto}

/-! ## What is signed -/

/-- A copy as it is signed: its payload decoded, no key_init and an empty one
being one. -/
structure SignedCopy where
  recipientDevice : String
  sessionEpoch : UInt32
  senderSeq : UInt64
  keyInit : String
  payload : ByteVector
  deriving DecidableEq, Repr

variable (C) in
def signedCopy (copy : RelayCopy) : Roe SignedCopy := do
  let payload ← C.base64Decode copy.payloadB64
  return { recipientDevice := copy.recipientDevice, sessionEpoch := copy.sessionEpoch
           senderSeq := copy.senderSeq, keyInit := copy.keyInitB64.getD "", payload }

variable (C) in
def SignedCopy.put (copy : SignedCopy) : ByteVector :=
  wireLenUtf8 copy.recipientDevice ++ wireU32 copy.sessionEpoch ++ wireU64 copy.senderSeq ++
    wireLenUtf8 copy.keyInit ++ C.genericHash (hashed copy.payload)

theorem copySignBytes_eq (copy : RelayCopy) : copySignBytes C copy = (signedCopy C copy).map (SignedCopy.put C) := by
  unfold copySignBytes copyHash signedCopy
  cases C.base64Decode copy.payloadB64 with
  | error text | ok payload => rfl

theorem signedCopy_ok {copy : RelayCopy} {signed : SignedCopy} (h : signedCopy C copy = .ok signed) :
    C.base64Decode copy.payloadB64 = .ok signed.payload ∧ signed.recipientDevice = copy.recipientDevice ∧
      signed.keyInit = copy.keyInitB64.getD "" := by
  obtain ⟨payload, hpayload, h⟩ := roe_bind_ok.mp h
  obtain rfl := Except.ok.inj h
  exact ⟨hpayload, rfl, rfl⟩

variable {copies : List RelayCopy} {envelope : WireEnvelope}

theorem mapM_copySignBytes {rows : List ByteVector} (h : copies.mapM (copySignBytes C) = .ok rows) :
    ∃ signed : List SignedCopy, copies.map (signedCopy C) = signed.map .ok ∧
      rows.flatten = signed.flatMap (SignedCopy.put C) := by
  induction copies generalizing rows with
  | nil =>
    obtain rfl : [] = rows := Except.ok.inj h
    exact ⟨[], rfl, rfl⟩
  | cons copy copies ih =>
    rw [List.mapM_cons] at h
    obtain ⟨row, hrow, h⟩ := roe_bind_ok.mp h
    obtain ⟨rest, hrest, h⟩ := roe_bind_ok.mp h
    obtain rfl : row :: rest = rows := Except.ok.inj h
    obtain ⟨signed, hsigned, hflatten⟩ := ih hrest
    rw [copySignBytes_eq] at hrow
    cases hcopy : signedCopy C copy with
    | error text =>
      rw [hcopy] at hrow
      cases hrow
    | ok first =>
      rw [hcopy] at hrow
      obtain rfl : first.put C = row := Except.ok.inj hrow
      refine ⟨first :: signed, ?_, ?_⟩
      · rw [List.map_cons, List.map_cons, hcopy, hsigned]
      · rw [List.flatten_cons, List.flatMap_cons, hflatten]

variable (C) in
/-- Texts and payloads a machine holds. -/
structure Sized (envelope : WireEnvelope) : Prop where
  names : ∀ text ∈ [envelope.messageId, envelope.senderContactId, envelope.senderRelayId, envelope.senderDevice],
    IsText text
  copies : ∀ copy ∈ envelope.copies, IsText copy.recipientDevice ∧ IsText (copy.keyInitB64.getD "") ∧
    ∀ payload, C.base64Decode copy.payloadB64 = .ok payload → payload.length < 2 ^ 64

variable (C) in
/-- BLAKE2b tells the payloads of some copies apart, in 32 bytes. -/
structure Hashes (copies : List RelayCopy) : Prop where
  length : ∀ input, (C.genericHash input).length = 32
  injective : ∀ copy ∈ copies, ∀ copy' ∈ copies, ∀ payload payload',
    C.base64Decode copy.payloadB64 = .ok payload → C.base64Decode copy'.payloadB64 = .ok payload' →
      C.genericHash (hashed payload) = C.genericHash (hashed payload') → hashed payload = hashed payload'

variable (C) in
/-- A signed copy of one of the copies, which a machine holds. -/
def Fits (copies : List RelayCopy) (signed : SignedCopy) : Prop :=
  IsText signed.recipientDevice ∧ IsText signed.keyInit ∧ signed.payload.length < 2 ^ 64 ∧
    ∃ copy ∈ copies, C.base64Decode copy.payloadB64 = .ok signed.payload

theorem prefixCode_put (hhashes : Hashes C copies) : PrefixCode (Fits C copies) (SignedCopy.put C) := by
  rintro ⟨device, epoch, seq, keyInit, payload⟩ ⟨device', epoch', seq', keyInit', payload'⟩ xs ys
    ⟨hdevice, hkey, hlength, copy, hcopy, hdecode⟩ ⟨hdevice', hkey', hlength', copy', hcopy', hdecode'⟩ h
  simp only [SignedCopy.put, List.append_assoc] at h hdevice hdevice' hkey hkey' hlength hlength' hdecode hdecode'
  obtain ⟨rfl, hepochs⟩ := wireLenUtf8_inj hdevice hdevice' h
  obtain ⟨rfl, hseqs⟩ := wireU32_inj hepochs
  obtain ⟨rfl, hkeys⟩ := wireU64_inj hseqs
  obtain ⟨rfl, hdigests⟩ := wireLenUtf8_inj hkey hkey' hkeys
  obtain ⟨hhash, hrest⟩ := List.append_inj hdigests ((hhashes.length _).trans (hhashes.length _).symm)
  have hhashed := hhashes.injective copy hcopy copy' hcopy' _ _ hdecode hdecode' hhash
  have hwire : wireLenBytes payload ++ [] = wireLenBytes payload' ++ [] := by
    rw [List.append_nil, List.append_nil]
    exact List.append_cancel_left hhashed
  obtain ⟨rfl, -⟩ := wireLenBytes_inj hlength hlength' hwire
  exact ⟨rfl, hrest⟩

/-! ## The shape of a body -/

theorem checkCopies_ok {devices : List String} :
    checkCopies devices copies = .ok () ↔ (∀ copy ∈ copies, copy.payloadB64 ≠ "" ∧ copy.recipientDevice ∉ devices) ∧
      (copies.map (·.recipientDevice)).Nodup := by
  induction copies generalizing devices with
  | nil => simp [checkCopies]
  | cons copy copies ih =>
    unfold checkCopies
    by_cases hpayload : copy.payloadB64 = ""
    · simp [hpayload]
    by_cases hdevice : copy.recipientDevice ∈ devices
    · simp [hpayload, hdevice]
    rw [if_neg hpayload, if_neg hdevice, ih]
    simp only [List.mem_cons, not_or, forall_eq_or_imp, List.map_cons, List.nodup_cons, List.mem_map, not_exists, not_and]
    constructor
    · rintro ⟨hcopies, hnodup⟩
      refine ⟨⟨⟨hpayload, hdevice⟩, fun other hother => ⟨(hcopies other hother).1, (hcopies other hother).2.2⟩⟩, ?_, hnodup⟩
      exact fun other hother => (hcopies other hother).2.1
    · rintro ⟨⟨-, hcopies⟩, hfirst, hnodup⟩
      exact ⟨fun other hother => ⟨(hcopies other hother).1, hfirst other hother, (hcopies other hother).2⟩, hnodup⟩

/-- What `CheckBodyShape` asks. -/
structure Shaped (envelope : WireEnvelope) : Prop where
  some_ : envelope.copies ≠ []
  few : envelope.copies.length ≤ kMaxRelayCopies
  payloads : ∀ copy ∈ envelope.copies, copy.payloadB64 ≠ ""
  distinct : (envelope.copies.map (·.recipientDevice)).Nodup
  routed : envelope.route.kind ∈ [kRelayRouteGroup, kRelayRouteDirect, kRelayRouteControl]
  control : controlShapeWrong envelope.route envelope.copies = false

theorem checkBodyShape_ok : checkBodyShape envelope = .ok () ↔ Shaped envelope := by
  have hgroup : kRelayRouteGroup ≠ kRelayRouteControl := by decide
  simp only [checkBodyShape]
  by_cases hcount : envelope.copies = [] ∨ envelope.copies.length > kMaxRelayCopies
  · rw [if_pos hcount]
    constructor
    · intro h
      cases h
    · intro h
      rcases hcount with hnone | hmany
      · exact absurd hnone h.some_
      · exact absurd h.few (Nat.not_le.mpr hmany)
  rw [if_neg hcount]
  push Not at hcount
  cases hcopies : checkCopies [] envelope.copies with
  | error text =>
    constructor
    · intro h
      cases h
    · intro h
      rw [checkCopies_ok.mpr ⟨fun copy hcopy => ⟨h.payloads copy hcopy, by simp⟩, h.distinct⟩] at hcopies
      cases hcopies
  | ok _ =>
    obtain ⟨hpayloads, hdistinct⟩ := checkCopies_ok.mp hcopies
    have hpayloads : ∀ copy ∈ envelope.copies, copy.payloadB64 ≠ "" := fun copy hcopy => (hpayloads copy hcopy).1
    simp only [roe_ok_bind]
    by_cases hkind : envelope.route.kind = kRelayRouteGroup
    · rw [if_pos hkind]
      refine iff_of_true rfl ⟨hcount.1, hcount.2, hpayloads, hdistinct, by simp [hkind], ?_⟩
      simp [controlShapeWrong, hkind, hgroup]
    · rw [if_neg hkind]
      by_cases hother : envelope.route.kind = kRelayRouteDirect ∨ envelope.route.kind = kRelayRouteControl
      · rw [if_pos hother, refuseIf_ok]
        constructor
        · intro hcontrol
          exact ⟨hcount.1, hcount.2, hpayloads, hdistinct, by simp [hother], by simpa using hcontrol⟩
        · intro h
          simp [h.control]
      · rw [if_neg hother]
        constructor
        · intro h
          cases h
        · intro h
          have hrouted := h.routed
          simp [hkind] at hrouted
          exact absurd hrouted hother

/-! ## Sign bytes taken apart -/

theorem perm_sortedCopies (copies : List RelayCopy) : (sortedCopies copies).Perm copies :=
  List.perm_insertionSort _ _

theorem buildSignBytes_ok {bytes : ByteVector} (h : buildSignBytes C envelope = .ok bytes) :
    Shaped envelope ∧ ∃ signed : List SignedCopy, (sortedCopies envelope.copies).map (signedCopy C) = signed.map .ok ∧
      bytes = kSignDomain ++ wireU8 kSignVersion ++ wireU8 2 ++ wireU8 (routeKindByte envelope.route) ++
        wireU8 (channelByte envelope.route) ++ wireI64 envelope.timestamp ++ wireLenUtf8 envelope.messageId ++
        wireLenUtf8 envelope.senderContactId ++ wireLenUtf8 envelope.senderRelayId ++
        wireLenUtf8 envelope.senderDevice ++ wireU64 (.ofNat envelope.copies.length) ++
        signed.flatMap (SignedCopy.put C) := by
  unfold buildSignBytes at h
  split at h
  · cases h
  · obtain ⟨_, hshape, h⟩ := roe_bind_ok.mp h
    obtain ⟨rows, hrows, h⟩ := roe_bind_ok.mp h
    obtain ⟨signed, hsigned, hflatten⟩ := mapM_copySignBytes hrows
    refine ⟨checkBodyShape_ok.mp hshape, signed, hsigned, ?_⟩
    rw [← hflatten]
    exact (Except.ok.inj h).symm

theorem routeKindByte_inj {a b : RelayRoute} (ha : a.kind ∈ [kRelayRouteGroup, kRelayRouteDirect, kRelayRouteControl])
    (hb : b.kind ∈ [kRelayRouteGroup, kRelayRouteDirect, kRelayRouteControl])
    (h : routeKindByte a = routeKindByte b) : a.kind = b.kind := by
  simp only [List.mem_cons, List.not_mem_nil, or_false] at ha hb
  rcases ha with ha | ha | ha <;> rcases hb with hb | hb | hb <;>
    first
    | exact ha.trans hb.symm
    | (rw [routeKindByte, routeKindByte, ha, hb] at h
       exact absurd h (by decide))

theorem channelByte_inj {a b : RelayRoute} (ha : a.kind = kRelayRouteDirect) (hb : b.kind = kRelayRouteDirect)
    (h : channelByte a = channelByte b) : a.channel = b.channel := by
  have hcontrol : kRelayRouteDirect ≠ kRelayRouteControl := by decide
  rw [channelByte, channelByte, ha, hb] at h
  simp only [hcontrol, if_false, ne_eq, not_true_eq_false] at h
  cases hchannel : a.channel <;> cases hchannel' : b.channel <;>
    first
    | rfl
    | (rw [hchannel, hchannel'] at h
       exact absurd h (by decide))

variable (C) in
/-- The same signed content: copies in no order. -/
structure SameSigned (a b : WireEnvelope) : Prop where
  routeKind : a.route.kind = b.route.kind
  channel : a.route.kind = kRelayRouteDirect → a.route.channel = b.route.channel
  timestamp : a.timestamp = b.timestamp
  messageId : a.messageId = b.messageId
  senderContactId : a.senderContactId = b.senderContactId
  senderRelayId : a.senderRelayId = b.senderRelayId
  senderDevice : a.senderDevice = b.senderDevice
  copies : (a.copies.map (signedCopy C)).Perm (b.copies.map (signedCopy C))
  selected : ∀ device, (a.selectCopy device).map (signedCopy C ·.view) = (b.selectCopy device).map (signedCopy C ·.view)

/-- The copy a device reads. -/
def pickCopy (device : String) (copies : List RelayCopy) : Option RelayCopy :=
  match copies.find? fun copy => device ≠ "" ∧ copy.recipientDevice = device with
  | some copy => some copy
  | none => copies.reverse.find? (·.recipientDevice = "")

theorem view_selectCopy (envelope : WireEnvelope) (device : String) :
    (envelope.selectCopy device).map (·.view) = pickCopy device envelope.copies := by
  unfold WireEnvelope.selectCopy pickCopy
  cases envelope.copies.find? fun copy => device ≠ "" ∧ copy.recipientDevice = device with
  | some copy => rfl
  | none =>
    dsimp only
    rw [Option.map_map]
    exact Option.map_id_apply

/-- The order of copies for distinct devices is nothing to a reader. -/
theorem pickCopy_perm {copies copies' : List RelayCopy} (hperm : copies.Perm copies')
    (hdistinct : (copies.map (·.recipientDevice)).Nodup) (device : String) :
    pickCopy device copies = pickCopy device copies' := by
  have hone (target : String) : ∀ a ∈ copies, ∀ b ∈ copies, a.recipientDevice = target → b.recipientDevice = target →
      a = b := by
    intro a ha b hb hatarget hbtarget
    exact List.inj_on_of_nodup_map hdistinct ha hb (hatarget.trans hbtarget.symm)
  unfold pickCopy
  rw [find?_of_perm hperm]
  · cases copies'.find? fun copy => device ≠ "" ∧ copy.recipientDevice = device with
    | some copy => rfl
    | none =>
      apply find?_of_perm ((List.reverse_perm _).trans (hperm.trans (List.reverse_perm _).symm))
      intro a ha b hb hpa hpb
      simp only [decide_eq_true_eq] at hpa hpb
      exact hone "" a (List.mem_reverse.mp ha) b (List.mem_reverse.mp hb) hpa hpb
  · intro a ha b hb hpa hpb
    simp only [decide_eq_true_eq, ne_eq, Bool.decide_and, Bool.and_eq_true] at hpa hpb
    exact hone device a ha b hb hpa.2 hpb.2

theorem pickCopy_signed {copies copies' : List RelayCopy} {signed : List SignedCopy}
    (h : copies.map (signedCopy C) = signed.map .ok) (h' : copies'.map (signedCopy C) = signed.map .ok)
    (device : String) :
    (pickCopy device copies).map (signedCopy C) = (pickCopy device copies').map (signedCopy C) := by
  -- which copy is picked is a matter of the signed copies
  have hfind (p : String → Bool) {copies : List RelayCopy} {signed : List SignedCopy}
      (h : copies.map (signedCopy C) = signed.map .ok) :
      (copies.find? (p ·.recipientDevice)).map (signedCopy C) = (signed.find? (p ·.recipientDevice)).map .ok := by
    induction copies generalizing signed with
    | nil =>
      obtain rfl : signed = [] := by simpa using h.symm
      rfl
    | cons copy copies ih =>
      cases signed with
      | nil => cases h
      | cons first signed =>
        rw [List.map_cons, List.map_cons, List.cons.injEq] at h
        obtain ⟨hfirst, hrest⟩ := h
        have hdevice := (signedCopy_ok hfirst).2.1
        rw [List.find?_cons, List.find?_cons, hdevice]
        cases p copy.recipientDevice with
        | true => exact congrArg some hfirst
        | false => exact ih hrest
  have hreverse {copies : List RelayCopy} (h : copies.map (signedCopy C) = signed.map .ok) :
      copies.reverse.map (signedCopy C) = signed.reverse.map .ok := by
    rw [List.map_reverse, List.map_reverse, h]
  have hown := (hfind (fun text => decide (device ≠ "" ∧ text = device)) h).trans
    (hfind (fun text => decide (device ≠ "" ∧ text = device)) h').symm
  have haccount := (hfind (fun text => decide (text = "")) (hreverse h)).trans
    (hfind (fun text => decide (text = "")) (hreverse h')).symm
  unfold pickCopy
  cases hfirst : copies.find? fun copy => device ≠ "" ∧ copy.recipientDevice = device with
  | some copy =>
    cases hfirst' : copies'.find? fun copy => device ≠ "" ∧ copy.recipientDevice = device with
    | some copy' =>
      rw [hfirst, hfirst'] at hown
      exact hown
    | none =>
      rw [hfirst, hfirst'] at hown
      cases hown
  | none =>
    cases hfirst' : copies'.find? fun copy => device ≠ "" ∧ copy.recipientDevice = device with
    | some copy' =>
      rw [hfirst, hfirst'] at hown
      cases hown
    | none => exact haccount

theorem Shaped.lt (h : Shaped envelope) : envelope.copies.length < 2 ^ 64 := by
  have hfew := h.few
  have hmax : kMaxRelayCopies = 8 := rfl
  omega

theorem fits_signed {all : List RelayCopy} {signed : List SignedCopy}
    (hsized : Sized C envelope) (hall : ∀ copy ∈ envelope.copies, copy ∈ all)
    (h : (sortedCopies envelope.copies).map (signedCopy C) = signed.map .ok) : ∀ row ∈ signed, Fits C all row := by
  intro row hrow
  have hmem : (.ok row : Roe SignedCopy) ∈ (sortedCopies envelope.copies).map (signedCopy C) := by
    rw [h]
    exact List.mem_map_of_mem hrow
  obtain ⟨copy, hcopy, hsigned⟩ := List.mem_map.mp hmem
  have hcopy := (perm_sortedCopies _).mem_iff.mp hcopy
  obtain ⟨hdecode, hdevice, hkey⟩ := signedCopy_ok hsigned
  obtain ⟨hdeviceText, hkeyText, hpayload⟩ := hsized.copies copy hcopy
  exact ⟨hdevice ▸ hdeviceText, hkey ▸ hkeyText, hpayload _ hdecode, copy, hall copy hcopy, hdecode⟩

theorem sameSigned_of_signBytes {a b : WireEnvelope} {bytes : ByteVector} (ha : Sized C a) (hb : Sized C b)
    (hhashes : Hashes C (a.copies ++ b.copies)) (hbytes : buildSignBytes C a = .ok bytes)
    (hbytes' : buildSignBytes C b = .ok bytes) : SameSigned C a b := by
  obtain ⟨hshape, signed, hsigned, rfl⟩ := buildSignBytes_ok hbytes
  obtain ⟨hshape', signed', hsigned', h⟩ := buildSignBytes_ok hbytes'
  simp only [List.append_assoc] at h
  have htail := List.append_cancel_left (List.append_cancel_left (List.append_cancel_left h))
  obtain ⟨hroute, htail⟩ := wireU8_inj htail
  obtain ⟨hchannel, htail⟩ := wireU8_inj htail
  obtain ⟨htimestamp, htail⟩ := wireI64_inj htail
  obtain ⟨hmessage, htail⟩ := wireLenUtf8_inj (ha.names _ (by simp)) (hb.names _ (by simp)) htail
  obtain ⟨hcontact, htail⟩ := wireLenUtf8_inj (ha.names _ (by simp)) (hb.names _ (by simp)) htail
  obtain ⟨hrelay, htail⟩ := wireLenUtf8_inj (ha.names _ (by simp)) (hb.names _ (by simp)) htail
  obtain ⟨hdevice, htail⟩ := wireLenUtf8_inj (ha.names _ (by simp)) (hb.names _ (by simp)) htail
  obtain ⟨hcount, htail⟩ := wireU64_inj htail
  have hlength : signed.length = signed'.length := by
    have hcounts : a.copies.length = b.copies.length := by
      have hwords := congrArg UInt64.toNat hcount
      rwa [UInt64.toNat_ofNat_of_lt' hshape.lt, UInt64.toNat_ofNat_of_lt' hshape'.lt] at hwords
    have hrows := congrArg List.length hsigned
    have hrows' := congrArg List.length hsigned'
    rw [List.length_map, List.length_map, (perm_sortedCopies _).length_eq] at hrows hrows'
    omega
  have hfits := fits_signed ha (fun copy hcopy => List.mem_append_left b.copies hcopy) hsigned
  have hfits' := fits_signed hb (fun copy hcopy => List.mem_append_right a.copies hcopy) hsigned'
  have hrows : signed.flatMap (SignedCopy.put C) ++ [] = signed'.flatMap (SignedCopy.put C) ++ [] := by
    rw [htail]
  obtain ⟨rfl, -⟩ := (prefixCode_put hhashes).flatMap hfits hfits' hlength hrows
  have hkind := routeKindByte_inj hshape.routed hshape'.routed hroute
  constructor
  · exact hkind
  · exact fun hdirect => channelByte_inj hdirect (hkind ▸ hdirect) hchannel
  · exact htimestamp
  · exact hmessage
  · exact hcontact
  · exact hrelay
  · exact hdevice
  · have hboth : (sortedCopies a.copies).map (signedCopy C) = (sortedCopies b.copies).map (signedCopy C) :=
      hsigned.trans hsigned'.symm
    exact ((perm_sortedCopies a.copies).map _).symm.trans (hboth ▸ (perm_sortedCopies b.copies).map _)
  · intro device
    have hview (envelope : WireEnvelope) : (envelope.selectCopy device).map (signedCopy C ·.view) =
        (pickCopy device envelope.copies).map (signedCopy C) := by
      rw [← view_selectCopy, Option.map_map]
      rfl
    rw [hview, hview, pickCopy_perm (perm_sortedCopies a.copies).symm hshape.distinct,
      pickCopy_perm (perm_sortedCopies b.copies).symm hshape'.distinct]
    exact pickCopy_signed hsigned hsigned' device

end EnvelopeSigner

end Pbr
