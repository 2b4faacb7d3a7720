import Mathlib.Data.Prod.Lex
import PpBrowser.Lib.Lines
import PpBrowser.Lib.Newest
import PpBrowser.Lib.Rows
import PpBrowser.People.AccountCard

/-!
# PeerAnnounceFeed — announce tips and what their signature covers

`PeerAnnounceTypes.h` and, of `PeerAnnounceCodec.cpp`, the signed text and its
check. A tip is signed with the publisher's device key.
-/

namespace Pbr

def kPeerAnnounceTipSchemaVersion : Int32 := 1

def kPeerAnnounceKindProgram : String := "program"
def kPeerAnnounceKindLiveChat : String := "live_chat"

inductive PeerAnnounceState where
  | scheduled
  | live
  | ended
  deriving DecidableEq, Repr

def peerAnnounceStateToString : PeerAnnounceState → String
  | .scheduled => "scheduled"
  | .live => "live"
  | .ended => "ended"

def peerAnnounceStateFromString (value : String) : Option PeerAnnounceState :=
  if value = "scheduled" then some .scheduled
  else if value = "live" then some .live
  else if value = "ended" then some .ended
  else none

/-- Signed tip under a topic its peer owns. -/
structure PeerAnnounceTip where
  schemaVersion : Int32 := kPeerAnnounceTipSchemaVersion
  peerId : String := ""
  topicId : String := ""
  programId : String := ""
  state : PeerAnnounceState := .scheduled
  seq : UInt64 := 0
  epoch : UInt64 := 0
  createdAtMs : Int64 := 0
  joinHandle : String := ""
  /-- The hop viewers dial first. -/
  hopPeerId : String := ""
  l1HopPeerIds : List String := []
  videoLevels : List Int32 := []
  /-- Empty or "program" for a programme, "live_chat" for an overlay. -/
  kind : String := ""
  viewerPeerId : String := ""
  viewerMsgId : String := ""
  body : String := ""
  contentIdHex : String := ""
  signatureB64 : String := ""
  deriving DecidableEq, Repr

namespace PeerAnnounceTip

def isProgramKind (tip : PeerAnnounceTip) : Bool := tip.kind = "" || tip.kind = kPeerAnnounceKindProgram

def isLiveChatKind (tip : PeerAnnounceTip) : Bool := tip.kind = kPeerAnnounceKindLiveChat

end PeerAnnounceTip

/-- What the announce code calls and does not define. -/
structure AnnounceCrypto where
  base64Decode : String → Roe ByteVector
  /-- `MlDsa::Verify(key, bytes, signature)`. -/
  mlDsaVerify : ByteVector → ByteVector → ByteVector → Roe Bool

namespace PeerAnnounceCodec

def appendField (key value : String) : String := key ++ "=" ++ value ++ "\n"

/-- A line only where there is a value. -/
def appendOptional (key value : String) : String := if value = "" then "" else appendField key value

def joinL1HopPeerIds (ids : List String) : String := ",".intercalate (ids.filter (· ≠ ""))

def joinVideoLevels (levels : List Int32) : String := ",".intercalate (levels.map fun level => toString level.toInt)

def peerAnnounceCanonicalSignBytes (tip : PeerAnnounceTip) : String :=
  appendField "v" (toString tip.schemaVersion.toInt) ++
  appendField "peer_id" tip.peerId ++
  appendField "topic_id" tip.topicId ++
  appendField "program_id" tip.programId ++
  appendField "state" (peerAnnounceStateToString tip.state) ++
  appendField "seq" (toString tip.seq.toNat) ++
  appendField "epoch" (toString tip.epoch.toNat) ++
  appendField "created_at_ms" (toString tip.createdAtMs.toInt) ++
  appendField "join_handle" tip.joinHandle ++
  -- signed when present, in this order
  appendOptional "hop_peer_id" tip.hopPeerId ++
  appendOptional "l1_hop_peer_ids" (joinL1HopPeerIds tip.l1HopPeerIds) ++
  (if tip.videoLevels = [] then "" else appendField "video_levels" (joinVideoLevels tip.videoLevels)) ++
  appendOptional "kind" tip.kind ++
  appendOptional "viewer_peer_id" tip.viewerPeerId ++
  appendOptional "viewer_msg_id" tip.viewerMsgId ++
  appendField "body" tip.body ++
  appendField "content_id_hex" tip.contentIdHex

def verifyPeerAnnounceTip (K : AnnounceCrypto) (tip : PeerAnnounceTip) (mldsaPublicKey : ByteVector) : Roe Unit := do
  refuseIf (mldsaPublicKey.length ≠ kMlDsa65PublicKeyBytes) "peer announce verify requires ML-DSA-65 public key"
  refuseIf (tip.signatureB64 = "") "peer announce tip missing signature"
  let signature ← K.base64Decode tip.signatureB64
  refuseIf (signature.length ≠ kMlDsa65SignatureBytes) "peer announce signature size invalid"
  let canonical := stringBytes (peerAnnounceCanonicalSignBytes tip)
  let ok ← K.mlDsaVerify mldsaPublicKey canonical signature
  refuseIf (¬ ok) "peer announce signature verify failed"

end PeerAnnounceCodec

/-! ## The tips a viewer keeps -/

open Lib

def kAnnounceSeparator : Char := Char.ofNat 0x1f

namespace PeerAnnounceFeed

def programMapKey (peerId topicId programId : String) : List Char :=
  peerId.toList ++ kAnnounceSeparator :: (topicId.toList ++ kAnnounceSeparator :: programId.toList)

/-- What the key of an overlay has after the program's. -/
def liveChatSuffix (viewerMsgId : String) : List Char :=
  kAnnounceSeparator :: (kPeerAnnounceKindLiveChat.toList ++ kAnnounceSeparator :: viewerMsgId.toList)

def mapKey (tip : PeerAnnounceTip) : List Char :=
  if tip.isLiveChatKind then
    programMapKey tip.peerId tip.topicId tip.programId ++ liveChatSuffix tip.viewerMsgId
  else programMapKey tip.peerId tip.topicId tip.programId

end PeerAnnounceFeed

/-- The feed: the rows of a map, in whatever order it goes through them. -/
structure PeerAnnounceFeed where
  publisherPublicKey : ByteVector := []
  tips : List PeerAnnounceTip := []
  distinct : DistinctKeys PeerAnnounceFeed.mapKey tips := by exact .nil

namespace PeerAnnounceFeed

variable (K : AnnounceCrypto) (feed : PeerAnnounceFeed)

def find (key : List Char) : Option PeerAnnounceTip := rowOf mapKey key feed.tips

def isNewerThanStored (tip : PeerAnnounceTip) : Bool :=
  match feed.find (mapKey tip) with
  | none => true
  | some prev => if tip.epoch ≠ prev.epoch then tip.epoch > prev.epoch else tip.seq > prev.seq

def store (tip : PeerAnnounceTip) : PeerAnnounceFeed where
  publisherPublicKey := feed.publisherPublicKey
  tips := put mapKey tip feed.tips
  distinct := distinctKeys_put feed.distinct

/-- What is checked of a tip before it is compared with the stored one. -/
def checkTip (publisherPublicKey : ByteVector) (tip : PeerAnnounceTip) : Roe Unit := do
  refuseIf (tip.peerId = "" ∨ tip.topicId = "" ∨ tip.programId = "") "peer announce ingest missing ids"
  refuseIf (tip.isLiveChatKind ∧ tip.viewerMsgId = "") "live_chat tip requires viewer_msg_id"
  if publisherPublicKey ≠ [] then PeerAnnounceCodec.verifyPeerAnnounceTip K tip publisherPublicKey else .ok ()

def ingest (tip : PeerAnnounceTip) : Roe PeerAnnounceFeed := do
  checkTip K feed.publisherPublicKey tip
  refuseIf (¬ feed.isNewerThanStored tip) "peer announce tip not newer than stored"
  .ok (feed.store tip)

def latest (peerId topicId programId : String) : Option PeerAnnounceTip :=
  feed.find (programMapKey peerId topicId programId)

def listPrefix (start : List Char) : List PeerAnnounceTip :=
  feed.tips.filter fun tip => start.isPrefixOf (mapKey tip)

def listForTopic (peerId topicId : String) : List PeerAnnounceTip :=
  feed.listPrefix (peerId.toList ++ kAnnounceSeparator :: (topicId.toList ++ [kAnnounceSeparator]))

def listLiveChat (peerId topicId programId : String) : List PeerAnnounceTip :=
  feed.listPrefix (programMapKey peerId topicId programId ++ liveChatSuffix "")

/-! ## Runs -/

/-- A tip offered: one refused leaves the feed as it was. -/
def offer (tip : PeerAnnounceTip) : PeerAnnounceFeed :=
  match feed.ingest K tip with
  | .ok feed' => feed'
  | .error _ => feed

def offerAll (offered : List PeerAnnounceTip) : PeerAnnounceFeed := offered.foldl (offer K) feed

/-- The tips of a run that the feed took. -/
def acceptedFrom (feed : PeerAnnounceFeed) : List PeerAnnounceTip → List PeerAnnounceTip
  | [] => []
  | tip :: offered =>
    match feed.ingest K tip with
    | .ok feed' => tip :: acceptedFrom feed' offered
    | .error _ => acceptedFrom feed offered

end PeerAnnounceFeed

/-! ## What a tip is about -/

/-- The program an answer is asked for. -/
@[ext] structure AnnounceProgram where
  peerId : String
  topicId : String
  programId : String
  deriving DecidableEq

/-- What tips replace one another about: a program, or an overlay of it. -/
inductive AnnounceSlot where
  | program (of : AnnounceProgram)
  | liveChat (of : AnnounceProgram) (viewerMsgId : String)
  deriving DecidableEq

def AnnounceSlot.of : AnnounceSlot → AnnounceProgram
  | program of => of
  | liveChat of _ => of

namespace PeerAnnounceTip

def program (tip : PeerAnnounceTip) : AnnounceProgram := ⟨tip.peerId, tip.topicId, tip.programId⟩

def slot (tip : PeerAnnounceTip) : AnnounceSlot :=
  if tip.isLiveChatKind then .liveChat tip.program tip.viewerMsgId else .program tip.program

/-- What decides which of two tips is newer. -/
def stamp (tip : PeerAnnounceTip) : Nat ×ₗ Nat := toLex (tip.epoch.toNat, tip.seq.toNat)

end PeerAnnounceTip

/-- No id holds the separator. -/
def AnnounceProgram.Plain (asked : AnnounceProgram) : Prop :=
  kAnnounceSeparator ∉ asked.peerId.toList ∧ kAnnounceSeparator ∉ asked.topicId.toList ∧
    kAnnounceSeparator ∉ asked.programId.toList

/-- Its ids are plain and its kind is known. The id of an overlay may be any
text. -/
def PeerAnnounceTip.Plain (tip : PeerAnnounceTip) : Prop :=
  tip.program.Plain ∧ (tip.isProgramKind ∨ tip.isLiveChatKind)

instance (asked : AnnounceProgram) : Decidable asked.Plain := inferInstanceAs (Decidable (_ ∧ _))

instance (tip : PeerAnnounceTip) : Decidable tip.Plain := inferInstanceAs (Decidable (_ ∧ _))

namespace PeerAnnounceFeed

/-- The newest of the tips about what it is about. -/
def NewestIn (tips : List PeerAnnounceTip) (tip : PeerAnnounceTip) : Prop :=
  Greatest PeerAnnounceTip.stamp (tips.filter fun other => other.slot = tip.slot) tip

/-! ## Keys -/

/-- The key of what a tip is about. -/
def slotKey (slot : AnnounceSlot) : List Char :=
  programMapKey slot.of.peerId slot.of.topicId slot.of.programId ++
    match slot with
    | .program _ => []
    | .liveChat _ viewerMsgId => liveChatSuffix viewerMsgId

variable {K : AnnounceCrypto} {feed : PeerAnnounceFeed} {tip other kept : PeerAnnounceTip}
  {offered accepted : List PeerAnnounceTip} {asked : AnnounceProgram} {slot slot' : AnnounceSlot}

theorem mapKey_eq (tip : PeerAnnounceTip) : mapKey tip = slotKey tip.slot := by
  rw [mapKey, PeerAnnounceTip.slot]
  by_cases h : tip.isLiveChatKind
  · rw [if_pos h, if_pos h]
    rfl
  · rw [if_neg h, if_neg h]
    exact (List.append_nil _).symm

theorem slot_of (tip : PeerAnnounceTip) : tip.slot.of = tip.program := by
  rw [PeerAnnounceTip.slot]
  split <;> rfl

theorem programMapKey_cut {x y : List Char} (ha : asked.Plain) {asked' : AnnounceProgram} (hb : asked'.Plain)
    (h : programMapKey asked.peerId asked.topicId asked.programId ++ x =
      programMapKey asked'.peerId asked'.topicId asked'.programId ++ y) :
    asked.peerId = asked'.peerId ∧ asked.topicId = asked'.topicId ∧
      asked.programId.toList ++ x = asked'.programId.toList ++ y := by
  obtain ⟨hpeer, htopic, -⟩ := ha
  obtain ⟨hpeer', htopic', -⟩ := hb
  simp only [programMapKey, List.append_assoc, List.cons_append] at h
  obtain ⟨hp, h⟩ := Lines.append_mark_inj hpeer hpeer' h
  obtain ⟨ht, h⟩ := Lines.append_mark_inj htopic htopic' h
  exact ⟨String.toList_injective hp, String.toList_injective ht, h⟩

theorem slotKey_inj (ha : slot.of.Plain) (hb : slot'.of.Plain) (h : slotKey slot = slotKey slot') : slot = slot' := by
  obtain ⟨hpeer, htopic, hrest⟩ := programMapKey_cut ha hb h
  have hprogram := ha.2.2
  have hprogram' := hb.2.2
  cases slot with
  | program a =>
    cases slot' with
    | program b =>
      have hid : a.programId.toList = b.programId.toList := by
        simpa [AnnounceSlot.of] using hrest
      exact congrArg AnnounceSlot.program (AnnounceProgram.ext hpeer htopic (String.toList_injective hid))
    | liveChat b msg =>
      -- the shorter key has no third separator
      refine absurd ?_ hprogram
      simp only [List.append_nil] at hrest
      rw [hrest]
      exact List.mem_append_right _ List.mem_cons_self
  | liveChat a msg =>
    cases slot' with
    | program b =>
      refine absurd ?_ hprogram'
      simp only [List.append_nil] at hrest
      rw [← hrest]
      exact List.mem_append_right _ List.mem_cons_self
    | liveChat b msg' =>
      obtain ⟨hid, hsuffix⟩ := Lines.append_mark_inj hprogram hprogram' hrest
      have hmsg : msg = msg' := by
        simpa [String.toList_inj] using hsuffix
      rw [hmsg]
      exact congrArg (AnnounceSlot.liveChat · msg') (AnnounceProgram.ext hpeer htopic (String.toList_injective hid))

theorem mapKey_eq_iff (htip : tip.Plain) (hother : other.Plain) : mapKey tip = mapKey other ↔ tip.slot = other.slot := by
  rw [mapKey_eq, mapKey_eq]
  constructor
  · intro h
    apply slotKey_inj _ _ h
    · rw [slot_of]
      exact htip.1
    · rw [slot_of]
      exact hother.1
  · intro h
    rw [h]

theorem topic_prefix_iff (htip : tip.Plain) (hasked : asked.Plain) :
    (asked.peerId.toList ++ kAnnounceSeparator :: (asked.topicId.toList ++ [kAnnounceSeparator])).isPrefixOf
      (mapKey tip) ↔ tip.peerId = asked.peerId ∧ tip.topicId = asked.topicId := by
  have hkey : ∃ x, mapKey tip = tip.peerId.toList ++ kAnnounceSeparator ::
      (tip.topicId.toList ++ kAnnounceSeparator :: x) := by
    rw [mapKey_eq]
    simp only [slotKey, slot_of, programMapKey, List.append_assoc, List.cons_append]
    exact ⟨_, rfl⟩
  obtain ⟨x, hkey⟩ := hkey
  rw [List.isPrefixOf_iff_prefix, hkey]
  constructor
  · intro ⟨rest, h⟩
    simp only [List.append_assoc, List.cons_append] at h
    obtain ⟨hpeer, h⟩ := Lines.append_mark_inj hasked.1 htip.1.1 h
    obtain ⟨htopic, -⟩ := Lines.append_mark_inj hasked.2.1 htip.1.2.1 h
    exact ⟨(String.toList_injective hpeer).symm, (String.toList_injective htopic).symm⟩
  · intro ⟨hpeer, htopic⟩
    exact ⟨x, by simp [hpeer, htopic]⟩

theorem liveChat_prefix_iff (htip : tip.Plain) (hasked : asked.Plain) :
    (programMapKey asked.peerId asked.topicId asked.programId ++ liveChatSuffix "").isPrefixOf (mapKey tip) ↔
      ∃ viewerMsgId, tip.slot = .liveChat asked viewerMsgId := by
  have hplain : tip.slot.of.Plain := by
    rw [slot_of]
    exact htip.1
  rw [List.isPrefixOf_iff_prefix, mapKey_eq]
  constructor
  · intro ⟨rest, h⟩
    rw [List.append_assoc] at h
    obtain ⟨hpeer, htopic, hprogram⟩ := programMapKey_cut hasked hplain h
    cases hslot : tip.slot with
    | program a =>
      rw [hslot] at hprogram hplain
      refine absurd ?_ hplain.2.2
      rw [List.append_nil] at hprogram
      rw [← hprogram]
      exact List.mem_append_right _ List.mem_cons_self
    | liveChat a msg =>
      rw [hslot] at hprogram hplain hpeer htopic
      obtain ⟨hid, -⟩ := Lines.append_mark_inj hasked.2.2 hplain.2.2 hprogram
      have hof : a = asked := AnnounceProgram.ext hpeer.symm htopic.symm (String.toList_injective hid).symm
      exact ⟨msg, by rw [hof]⟩
  · intro ⟨msg, h⟩
    rw [h]
    exact ⟨msg.toList, by simp [slotKey, AnnounceSlot.of, liveChatSuffix]⟩

/-! ## One tip -/

theorem newerThanStored_iff :
    feed.isNewerThanStored tip ↔ ∀ prev, feed.find (mapKey tip) = some prev → prev.stamp < tip.stamp := by
  rw [isNewerThanStored]
  cases feed.find (mapKey tip) with
  | none => simp
  | some prev =>
    have hlt : prev.stamp < tip.stamp ↔
        prev.epoch < tip.epoch ∨ prev.epoch = tip.epoch ∧ prev.seq < tip.seq := by
      rw [PeerAnnounceTip.stamp, PeerAnnounceTip.stamp, Prod.Lex.toLex_lt_toLex, ← UInt64.toNat_inj]
      rfl
    simp only [Option.some.injEq, forall_eq', hlt]
    by_cases hepoch : tip.epoch = prev.epoch
    · simp [hepoch]
    · simp [hepoch, Ne.symm hepoch]

theorem ingest_ok_iff {feed' : PeerAnnounceFeed} : feed.ingest K tip = .ok feed' ↔
      checkTip K feed.publisherPublicKey tip = .ok () ∧ feed.isNewerThanStored tip ∧ feed' = feed.store tip := by
  rw [ingest, roe_then_ok, refuseIf_bind_ok, not_not]
  constructor
  · intro ⟨hcheck, hnewer, h⟩
    exact ⟨hcheck, hnewer, (Except.ok.inj h).symm⟩
  · intro ⟨hcheck, hnewer, h⟩
    exact ⟨hcheck, hnewer, congrArg Except.ok h.symm⟩

theorem offer_cases (feed : PeerAnnounceFeed) (tip : PeerAnnounceTip) :
    (checkTip K feed.publisherPublicKey tip = .ok () ∧ feed.isNewerThanStored tip ∧
      feed.ingest K tip = .ok (feed.store tip) ∧ feed.offer K tip = feed.store tip) ∨
    (¬ (checkTip K feed.publisherPublicKey tip = .ok () ∧ feed.isNewerThanStored tip) ∧
      (∃ e, feed.ingest K tip = .error e) ∧ feed.offer K tip = feed) := by
  rw [offer]
  cases h : feed.ingest K tip with
  | ok feed' =>
    obtain ⟨hcheck, hnewer, rfl⟩ := ingest_ok_iff.mp h
    exact .inl ⟨hcheck, hnewer, rfl, rfl⟩
  | error e =>
    refine .inr ⟨?_, ⟨e, rfl⟩, rfl⟩
    intro ⟨hcheck, hnewer⟩
    have hok := ingest_ok_iff.mpr ⟨hcheck, hnewer, rfl⟩
    rw [h] at hok
    cases hok

theorem offer_publisherPublicKey : (feed.offer K tip).publisherPublicKey = feed.publisherPublicKey := by
  rcases offer_cases (K := K) feed tip with ⟨-, -, -, h⟩ | ⟨-, -, h⟩
  · rw [h]
    rfl
  · rw [h]

theorem offer_keeps {key : List Char} (h : feed.find key = some kept) :
    ∃ kept', (feed.offer K tip).find key = some kept' ∧ kept.stamp ≤ kept'.stamp := by
  rcases offer_cases (K := K) feed tip with ⟨-, hnewer, -, heq⟩ | ⟨-, -, heq⟩
  · have hfind : (feed.store tip).find key = if mapKey tip = key then some tip else feed.find key := rowOf_put
    rw [heq, hfind]
    by_cases hkey : mapKey tip = key
    · rw [← hkey] at h
      exact ⟨tip, if_pos hkey, le_of_lt (newerThanStored_iff.mp hnewer kept h)⟩
    · exact ⟨kept, by rw [if_neg hkey, h], le_refl _⟩
  · rw [heq]
    exact ⟨kept, h, le_refl _⟩

theorem offerAll_keeps {key : List Char} (h : feed.find key = some kept) :
    ∃ kept', (feed.offerAll K offered).find key = some kept' ∧ kept.stamp ≤ kept'.stamp := by
  induction offered generalizing feed kept with
  | nil => exact ⟨kept, h, le_refl _⟩
  | cons tip offered ih =>
    obtain ⟨next, hnext, hle⟩ := offer_keeps (K := K) h
    obtain ⟨kept', hkept', hle'⟩ := ih hnext
    exact ⟨kept', hkept', le_trans hle hle'⟩

end PeerAnnounceFeed

end Pbr

/-! ## The feed as a map of the newest tips -/

namespace Pbr.PeerAnnounceFeed

open Lib

variable {K : AnnounceCrypto} {feed : PeerAnnounceFeed} {tip other : PeerAnnounceTip}
  {offered offered' accepted : List PeerAnnounceTip} {asked : AnnounceProgram} {publisherPublicKey : ByteVector}

theorem newestIn_iff {tips : List PeerAnnounceTip} :
    NewestIn tips tip ↔ tip ∈ tips ∧ ∀ other ∈ tips, other.slot = tip.slot → other.stamp ≤ tip.stamp := by
  simp [NewestIn, Greatest]

theorem find_iff {key : List Char} : feed.find key = some tip ↔ tip ∈ feed.tips ∧ mapKey tip = key :=
  rowOf_eq_some feed.distinct

/-! ## What the feed took -/

/-- The feed holds the newest of the tips it took. -/
structure Holds (feed : PeerAnnounceFeed) (accepted : List PeerAnnounceTip) : Prop where
  plain : ∀ tip ∈ accepted, tip.Plain
  newest : ∀ tip, tip ∈ feed.tips ↔ NewestIn accepted tip

section

variable (h : Holds feed accepted)
include h

theorem Holds.plain_of_mem (htip : tip ∈ feed.tips) : tip.Plain :=
  h.plain tip (newestIn_iff.mp ((h.newest tip).mp htip)).1

theorem Holds.same_key (htip : tip.Plain) (hother : other ∈ feed.tips) :
    mapKey other = mapKey tip ↔ other.slot = tip.slot :=
  mapKey_eq_iff (h.plain_of_mem hother) htip

theorem Holds.newer (htip : tip.Plain) (hnewer : feed.isNewerThanStored tip)
    (hother : other ∈ accepted) (hslot : other.slot = tip.slot) : other.stamp < tip.stamp := by
  have hmem : other ∈ accepted.filter fun a => a.slot = tip.slot := by
    simp [hother, hslot]
  obtain ⟨kept, hkept⟩ := @newest_isSome _ _ _ PeerAnnounceTip.stamp _ _ hmem
  obtain ⟨hin, hle⟩ := newest_greatest hkept
  have hsame : kept.slot = tip.slot := by
    simpa using (List.mem_filter.mp hin).2
  have hstored : kept ∈ feed.tips := by
    rw [h.newest, NewestIn, hsame]
    exact ⟨hin, hle⟩
  have hlt := newerThanStored_iff.mp hnewer kept (find_iff.mpr ⟨hstored, (h.same_key htip hstored).mpr hsame⟩)
  exact lt_of_le_of_lt (hle other hmem) hlt

theorem Holds.store (htip : tip.Plain) (hnewer : feed.isNewerThanStored tip) :
    Holds (feed.store tip) (accepted ++ [tip]) where
  plain := by
    intro t ht
    rcases List.mem_append.mp ht with ht | ht
    · exact h.plain t ht
    · rw [List.mem_singleton.mp ht]
      exact htip
  newest := by
    intro t
    have hput : t ∈ (feed.store tip).tips ↔ t = tip ∨ t ∈ feed.tips ∧ mapKey t ≠ mapKey tip :=
      mem_put feed.distinct
    rw [hput, newestIn_iff]
    by_cases hslot : t.slot = tip.slot
    · -- about the same: the new tip alone is left
      constructor
      · intro ht
        rcases ht with rfl | ⟨ht, hne⟩
        · refine ⟨by simp, ?_⟩
          intro other hother hsame
          rcases List.mem_append.mp hother with hother | hother
          · exact le_of_lt (h.newer htip hnewer hother hsame)
          · rw [List.mem_singleton.mp hother]
        · exact absurd ((h.same_key htip ht).mpr hslot) hne
      · intro ⟨ht, hle⟩
        left
        rcases List.mem_append.mp ht with ht | ht
        · have hlt := h.newer htip hnewer ht hslot
          exact absurd (hle tip (by simp) hslot.symm) (not_le.mpr hlt)
        · exact List.mem_singleton.mp ht
    · have hne : t ≠ tip := fun heq => hslot (by rw [heq])
      have hother : ∀ other, other ∈ accepted ++ [tip] ∧ other.slot = t.slot ↔
          other ∈ accepted ∧ other.slot = t.slot := by
        intro other
        rw [List.mem_append, List.mem_singleton]
        constructor
        · intro ⟨hmem, hsame⟩
          rcases hmem with hmem | rfl
          · exact ⟨hmem, hsame⟩
          · exact absurd hsame.symm hslot
        · intro ⟨hmem, hsame⟩
          exact ⟨.inl hmem, hsame⟩
      have hnewest : NewestIn accepted t ↔
          t ∈ accepted ++ [tip] ∧ ∀ other ∈ accepted ++ [tip], other.slot = t.slot → other.stamp ≤ t.stamp := by
        rw [newestIn_iff]
        constructor
        · intro ⟨ht, hle⟩
          exact ⟨List.mem_append_left _ ht, fun o ho hsame => hle o ((hother o).mp ⟨ho, hsame⟩).1 hsame⟩
        · intro ⟨ht, hle⟩
          exact ⟨((hother t).mp ⟨ht, rfl⟩).1, fun o ho hsame => hle o (List.mem_append_left _ ho) hsame⟩
      rw [← hnewest, ← h.newest]
      constructor
      · intro ht
        rcases ht with ht | ⟨ht, -⟩
        · exact absurd ht hne
        · exact ht
      · intro ht
        exact .inr ⟨ht, fun hkey => hslot ((h.same_key htip ht).mp hkey)⟩

theorem Holds.offerAll (hplain : ∀ tip ∈ offered, tip.Plain) :
    Holds (feed.offerAll K offered) (accepted ++ acceptedFrom K feed offered) := by
  induction offered generalizing feed accepted with
  | nil =>
    rw [acceptedFrom, List.append_nil]
    exact h
  | cons tip offered ih =>
    have htip : tip.Plain := hplain tip List.mem_cons_self
    have hrest : ∀ tip ∈ offered, tip.Plain := fun t ht => hplain t (List.mem_cons_of_mem _ ht)
    have hcons : feed.offerAll K (tip :: offered) = (feed.offer K tip).offerAll K offered := rfl
    rw [hcons, acceptedFrom]
    rcases offer_cases (K := K) feed tip with ⟨-, hnewer, hok, heq⟩ | ⟨-, ⟨e, herror⟩, heq⟩
    · rw [heq, hok]
      have hnext := ih (h.store htip hnewer) hrest
      rw [List.append_assoc] at hnext
      exact hnext
    · rw [heq, herror]
      exact ih h hrest

end

theorem holds_start : Holds { publisherPublicKey := publisherPublicKey } [] where
  plain := by simp
  newest := by
    intro tip
    simp [newestIn_iff]

/-! ## What the feed was offered -/

/-- Of every tip that passes its checks the feed holds one about the same
that is no older. -/
structure Covers (K : AnnounceCrypto) (feed : PeerAnnounceFeed) (offered : List PeerAnnounceTip) : Prop where
  taken : ∀ tip ∈ feed.tips, tip ∈ offered ∧ checkTip K feed.publisherPublicKey tip = .ok ()
  covered : ∀ tip ∈ offered, checkTip K feed.publisherPublicKey tip = .ok () →
    ∃ kept ∈ feed.tips, kept.slot = tip.slot ∧ tip.stamp ≤ kept.stamp

theorem Covers.store (h : Covers K feed offered) (hplain : ∀ tip ∈ offered, tip.Plain) (htip : tip.Plain)
    (hcheck : checkTip K feed.publisherPublicKey tip = .ok ()) (hnewer : feed.isNewerThanStored tip) :
    Covers K (feed.store tip) (offered ++ [tip]) where
  taken := by
    intro t ht
    rcases (mem_put feed.distinct).mp ht with rfl | ⟨ht, -⟩
    · exact ⟨by simp, hcheck⟩
    · exact ⟨List.mem_append_left _ (h.taken t ht).1, (h.taken t ht).2⟩
  covered := by
    intro t ht hok
    have hself : tip ∈ (feed.store tip).tips := (mem_put feed.distinct).mpr (.inl rfl)
    rcases List.mem_append.mp ht with ht | ht
    · obtain ⟨kept, hkept, hslot, hle⟩ := h.covered t ht hok
      have hkeptPlain : kept.Plain := hplain kept (h.taken kept hkept).1
      by_cases hkey : mapKey kept = mapKey tip
      · -- the one that covered it gave way to a newer one
        have hlt := newerThanStored_iff.mp hnewer kept (find_iff.mpr ⟨hkept, hkey⟩)
        have hsame : kept.slot = tip.slot := (mapKey_eq_iff hkeptPlain htip).mp hkey
        exact ⟨tip, hself, hsame.symm.trans hslot, le_trans hle (le_of_lt hlt)⟩
      · exact ⟨kept, (mem_put feed.distinct).mpr (.inr ⟨hkept, hkey⟩), hslot, hle⟩
    · rw [List.mem_singleton.mp ht]
      exact ⟨tip, hself, rfl, le_refl _⟩

theorem Covers.skip (h : Covers K feed offered) (hplain : ∀ tip ∈ offered, tip.Plain) (htip : tip.Plain)
    (hskip : ¬ (checkTip K feed.publisherPublicKey tip = .ok () ∧ feed.isNewerThanStored tip)) :
    Covers K feed (offered ++ [tip]) where
  taken := by
    intro t ht
    exact ⟨List.mem_append_left _ (h.taken t ht).1, (h.taken t ht).2⟩
  covered := by
    intro t ht hok
    rcases List.mem_append.mp ht with ht | ht
    · exact h.covered t ht hok
    · rw [List.mem_singleton.mp ht] at hok ⊢
      have hold : ¬ feed.isNewerThanStored tip := fun hnewer => hskip ⟨hok, hnewer⟩
      rw [newerThanStored_iff] at hold
      push Not at hold
      obtain ⟨prev, hprev, hle⟩ := hold
      obtain ⟨hmem, hkey⟩ := find_iff.mp hprev
      exact ⟨prev, hmem, (mapKey_eq_iff (hplain prev (h.taken prev hmem).1) htip).mp hkey, hle⟩

theorem Covers.offerAll {before : List PeerAnnounceTip} (h : Covers K feed before)
    (hplain : ∀ tip ∈ before ++ offered, tip.Plain) : Covers K (feed.offerAll K offered) (before ++ offered) := by
  induction offered generalizing feed before with
  | nil =>
    rw [List.append_nil]
    exact h
  | cons tip offered ih =>
    have hbefore : ∀ tip ∈ before, tip.Plain := fun t ht => hplain t (List.mem_append_left _ ht)
    have htip : tip.Plain := hplain tip (by simp)
    have hnext : Covers K (feed.offer K tip) (before ++ [tip]) := by
      rcases offer_cases (K := K) feed tip with ⟨hcheck, hnewer, -, heq⟩ | ⟨hskip, -, heq⟩
      · rw [heq]
        exact h.store hbefore htip hcheck hnewer
      · rw [heq]
        exact h.skip hbefore htip hskip
    have hlist : before ++ tip :: offered = before ++ [tip] ++ offered := by simp
    rw [hlist] at hplain ⊢
    exact ih hnext hplain

theorem covers_start : Covers K { publisherPublicKey := publisherPublicKey } [] where
  taken := by simp
  covered := by simp

theorem offerAll_publisherPublicKey : (feed.offerAll K offered).publisherPublicKey = feed.publisherPublicKey := by
  induction offered generalizing feed with
  | nil => rfl
  | cons tip offered ih =>
    have hcons : feed.offerAll K (tip :: offered) = (feed.offer K tip).offerAll K offered := rfl
    rw [hcons, ih, offer_publisherPublicKey]

/-- Tips about the same have different stamps. -/
def DistinctStamps (offered : List PeerAnnounceTip) : Prop :=
  ∀ a ∈ offered, ∀ b ∈ offered, a.slot = b.slot → a.stamp = b.stamp → a = b

/-- Where the stamps tell tips apart, what is held follows from what was
offered. -/
theorem Covers.mem_iff (h : Covers K feed offered) (hplain : ∀ tip ∈ offered, tip.Plain)
    (hdistinct : DistinctStamps offered) :
    tip ∈ feed.tips ↔ NewestIn (offered.filter fun t => checkTip K feed.publisherPublicKey t = .ok ()) tip := by
  rw [newestIn_iff]
  simp only [List.mem_filter, decide_eq_true_eq]
  constructor
  · intro htip
    refine ⟨h.taken tip htip, ?_⟩
    intro other hother hslot
    obtain ⟨kept, hkept, hsame, hle⟩ := h.covered other hother.1 hother.2
    have hkey : mapKey kept = mapKey tip :=
      (mapKey_eq_iff (hplain kept (h.taken kept hkept).1) (hplain tip (h.taken tip htip).1)).mpr (hsame.trans hslot)
    have hone : kept = tip := eq_of_rowOf feed.distinct (find_iff.mpr ⟨htip, rfl⟩) hkept hkey
    rw [← hone]
    exact hle
  · intro ⟨⟨hmem, hok⟩, hgreatest⟩
    obtain ⟨kept, hkept, hslot, hle⟩ := h.covered tip hmem hok
    have hback := hgreatest kept (h.taken kept hkept) hslot
    rw [hdistinct tip hmem kept (h.taken kept hkept).1 hslot.symm (le_antisymm hle hback)]
    exact hkept

/-! ## The answers -/

/-- The feed after a run from an empty one. -/
def feedOf (K : AnnounceCrypto) (publisherPublicKey : ByteVector) (offered : List PeerAnnounceTip) : PeerAnnounceFeed :=
  offerAll K { publisherPublicKey } offered

def acceptedOf (K : AnnounceCrypto) (publisherPublicKey : ByteVector) (offered : List PeerAnnounceTip) :
    List PeerAnnounceTip :=
  acceptedFrom K { publisherPublicKey } offered

/-- Two feeds answer the same. -/
structure SameAnswers (feed feed' : PeerAnnounceFeed) (asked : AnnounceProgram) : Prop where
  latest : feed.latest asked.peerId asked.topicId asked.programId =
    feed'.latest asked.peerId asked.topicId asked.programId
  topic : ∀ tip, tip ∈ feed.listForTopic asked.peerId asked.topicId ↔
    tip ∈ feed'.listForTopic asked.peerId asked.topicId
  liveChat : ∀ tip, tip ∈ feed.listLiveChat asked.peerId asked.topicId asked.programId ↔
    tip ∈ feed'.listLiveChat asked.peerId asked.topicId asked.programId

/-- After a run the feed answers, where it is asked, as a map from programs
and overlays to the newest tip taken. -/
structure AnswersNewest (K : AnnounceCrypto) (publisherPublicKey : ByteVector) (offered : List PeerAnnounceTip)
    (Asks : AnnounceProgram → Prop) : Prop where
  latest : ∀ asked, Asks asked → ∀ tip,
    (feedOf K publisherPublicKey offered).latest asked.peerId asked.topicId asked.programId = some tip ↔
      tip.isProgramKind ∧ tip.slot = .program asked ∧ NewestIn (acceptedOf K publisherPublicKey offered) tip
  topic : ∀ asked, Asks asked → ∀ tip,
    tip ∈ (feedOf K publisherPublicKey offered).listForTopic asked.peerId asked.topicId ↔
      (tip.peerId = asked.peerId ∧ tip.topicId = asked.topicId) ∧
        NewestIn (acceptedOf K publisherPublicKey offered) tip
  liveChat : ∀ asked, Asks asked → ∀ tip,
    tip ∈ (feedOf K publisherPublicKey offered).listLiveChat asked.peerId asked.topicId asked.programId ↔
      (∃ viewerMsgId, tip.slot = .liveChat asked viewerMsgId) ∧
        NewestIn (acceptedOf K publisherPublicKey offered) tip
  /-- What a key holds never becomes older. -/
  keeps : ∀ before after, offered = before ++ after → ∀ key kept,
    (feedOf K publisherPublicKey before).find key = some kept →
      ∃ kept', (feedOf K publisherPublicKey offered).find key = some kept' ∧ kept.stamp ≤ kept'.stamp
  /-- The order in which the tips come does not matter. -/
  anyOrder : ∀ offered', offered.Perm offered' → DistinctStamps offered → ∀ asked, Asks asked →
    SameAnswers (feedOf K publisherPublicKey offered) (feedOf K publisherPublicKey offered') asked

section

variable (hplain : ∀ tip ∈ feed.tips, tip.Plain) (hasked : asked.Plain)
include hplain hasked

theorem mem_listForTopic : tip ∈ feed.listForTopic asked.peerId asked.topicId ↔
      (tip.peerId = asked.peerId ∧ tip.topicId = asked.topicId) ∧ tip ∈ feed.tips := by
  rw [listForTopic, listPrefix, List.mem_filter, and_comm]
  apply and_congr_left
  intro htip
  exact topic_prefix_iff (hplain tip htip) hasked

theorem mem_listLiveChat : tip ∈ feed.listLiveChat asked.peerId asked.topicId asked.programId ↔
      (∃ viewerMsgId, tip.slot = .liveChat asked viewerMsgId) ∧ tip ∈ feed.tips := by
  rw [listLiveChat, listPrefix, List.mem_filter, and_comm]
  apply and_congr_left
  intro htip
  exact liveChat_prefix_iff (hplain tip htip) hasked

theorem latest_iff : feed.latest asked.peerId asked.topicId asked.programId = some tip ↔
      tip.slot = .program asked ∧ tip ∈ feed.tips := by
  have hkey : programMapKey asked.peerId asked.topicId asked.programId = slotKey (.program asked) :=
    (List.append_nil _).symm
  rw [latest, hkey, find_iff, and_comm]
  apply and_congr_left
  intro htip
  rw [mapKey_eq]
  constructor
  · intro h
    refine slotKey_inj ?_ hasked h
    rw [slot_of]
    exact (hplain tip htip).1
  · intro h
    rw [h]

end

theorem isProgramKind_of_slot (hplain : tip.Plain) (h : tip.slot = .program asked) : tip.isProgramKind := by
  rcases hplain.2 with hkind | hkind
  · exact hkind
  · rw [PeerAnnounceTip.slot, if_pos hkind] at h
    cases h

theorem sameAnswers {feed' : PeerAnnounceFeed} (hplain : ∀ tip ∈ feed.tips, tip.Plain)
    (hsame : ∀ tip, tip ∈ feed.tips ↔ tip ∈ feed'.tips) (hasked : asked.Plain) : SameAnswers feed feed' asked := by
  have hplain' : ∀ tip ∈ feed'.tips, tip.Plain := fun tip htip => hplain tip ((hsame tip).mpr htip)
  refine ⟨?_, ?_, ?_⟩
  · apply Option.ext
    intro tip
    rw [latest_iff hplain hasked, latest_iff hplain' hasked, hsame]
  · intro tip
    rw [mem_listForTopic hplain hasked, mem_listForTopic hplain' hasked, hsame]
  · intro tip
    rw [mem_listLiveChat hplain hasked, mem_listLiveChat hplain' hasked, hsame]

theorem holds_feedOf (hplain : ∀ tip ∈ offered, tip.Plain) :
    Holds (feedOf K publisherPublicKey offered) (acceptedOf K publisherPublicKey offered) :=
  holds_start.offerAll hplain

theorem mem_feedOf_iff (hplain : ∀ tip ∈ offered, tip.Plain) (hdistinct : DistinctStamps offered) :
    tip ∈ (feedOf K publisherPublicKey offered).tips ↔
      NewestIn (offered.filter fun t => checkTip K publisherPublicKey t = .ok ()) tip := by
  have hcovers : Covers K (feedOf K publisherPublicKey offered) offered := covers_start.offerAll hplain
  have hkey : (feedOf K publisherPublicKey offered).publisherPublicKey = publisherPublicKey :=
    offerAll_publisherPublicKey
  have hmem := @Covers.mem_iff _ _ tip _ hcovers hplain hdistinct
  rw [hkey] at hmem
  exact hmem

/-- Where ids do not hold the separator and kinds are known, the feed is a
map of the newest tips. -/
theorem feed_answers_newest (hplain : ∀ tip ∈ offered, tip.Plain) :
    AnswersNewest K publisherPublicKey offered AnnounceProgram.Plain := by
  have hholds := @holds_feedOf K _ publisherPublicKey hplain
  have hstored : ∀ tip ∈ (feedOf K publisherPublicKey offered).tips, tip.Plain := fun tip => hholds.plain_of_mem
  refine ⟨?_, ?_, ?_, ?_, ?_⟩
  · intro asked hasked tip
    rw [latest_iff hstored hasked, hholds.newest]
    constructor
    · intro ⟨hslot, hnewest⟩
      exact ⟨isProgramKind_of_slot (hholds.plain tip (newestIn_iff.mp hnewest).1) hslot, hslot, hnewest⟩
    · intro ⟨_, hslot, hnewest⟩
      exact ⟨hslot, hnewest⟩
  · intro asked hasked tip
    rw [mem_listForTopic hstored hasked, hholds.newest]
  · intro asked hasked tip
    rw [mem_listLiveChat hstored hasked, hholds.newest]
  · intro before after hsplit key kept hfind
    have happend : feedOf K publisherPublicKey offered = (feedOf K publisherPublicKey before).offerAll K after := by
      rw [hsplit, feedOf, feedOf, PeerAnnounceFeed.offerAll, PeerAnnounceFeed.offerAll, PeerAnnounceFeed.offerAll,
        List.foldl_append]
    rw [happend]
    exact offerAll_keeps hfind
  · intro offered' hperm hdistinct asked hasked
    have hplain' : ∀ tip ∈ offered', tip.Plain := fun tip htip => hplain tip (hperm.mem_iff.mpr htip)
    have hdistinct' : DistinctStamps offered' := by
      intro a ha b hb
      exact hdistinct a (hperm.mem_iff.mpr ha) b (hperm.mem_iff.mpr hb)
    apply sameAnswers hstored _ hasked
    intro tip
    rw [mem_feedOf_iff hplain hdistinct, mem_feedOf_iff hplain' hdistinct', newestIn_iff, newestIn_iff]
    simp only [List.mem_filter, hperm.mem_iff]

/-- Any signature verifies. -/
def sampleAnnounceCrypto : AnnounceCrypto where
  base64Decode _ := .ok (List.replicate kMlDsa65SignatureBytes 0)
  mlDsaVerify _ _ _ := .ok true

def samplePlainTips : List PeerAnnounceTip :=
  [{ peerId := "peer", topicId := "topic", programId := "show", seq := 1 },
   { peerId := "peer", topicId := "topic", programId := "show", seq := 2, state := .live },
   { peerId := "peer", topicId := "topic", programId := "show", seq := 3, kind := "live_chat", viewerMsgId := "m" }]

theorem feed_answers_newest_plain : AnswersNewest sampleAnnounceCrypto [] samplePlainTips AnnounceProgram.Plain :=
  feed_answers_newest (by decide)

/-- The programs `b␟c` of topic `a` and `c` of topic `a␟b`. -/
def sampleJoinedTips : List PeerAnnounceTip :=
  [{ peerId := "peer", topicId := "a", programId := "b\x1fc", seq := 2 },
   { peerId := "peer", topicId := "a\x1fb", programId := "c", seq := 1 }]

/-- Two programs join to one key: one is refused and the other answered for
it. -/
theorem joined_ids_answer_for_another :
    ¬ AnswersNewest sampleAnnounceCrypto [] sampleJoinedTips fun _ => True := by
  intro h
  have hlatest : (feedOf sampleAnnounceCrypto [] sampleJoinedTips).latest "peer" "a\x1fb" "c" =
      some { peerId := "peer", topicId := "a", programId := "b\x1fc", seq := 2 } := by decide
  obtain ⟨-, hslot, -⟩ := (h.latest ⟨"peer", "a\x1fb", "c"⟩ trivial _).mp hlatest
  exact absurd hslot (by decide)

end Pbr.PeerAnnounceFeed
