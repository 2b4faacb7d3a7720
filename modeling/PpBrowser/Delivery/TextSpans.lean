import Mathlib.Algebra.Order.BigOperators.Group.List
import Mathlib.Algebra.Order.Ring.Nat
import PpBrowser.Delivery.E2eRelayPayloadCodec
import PpBrowser.Lib.Apart
import PpBrowser.Lib.Base64
import PpBrowser.Lib.Utf8
import PpBrowser.Messaging.ThreadTranscript
import PpBrowser.Social.PostWire

/-!
# TextSpans — the marked ranges of a message's text

`TextSpans.cpp` and the text payloads of `ChatPayloadCodec.cpp`: the checks of
a span list, its binary form behind the text, and the JSON a stored message
keeps it in. A text is its bytes, whatever they are. The archive is the one of
`PostWire`; the JSON library and the payloads of other content types are
outside.
-/

namespace Pbr

open Lib Lib.Json PostWire

inductive TextSpanKind where
  | mention | everyone
  deriving DecidableEq, Repr

def TextSpanKind.toU8 : TextSpanKind → UInt8
  | .mention => 1
  | .everyone => 2

structure TextSpan where
  /-- A `TextSpanKind`, or a kind this build does not know. -/
  kind : UInt8 := 0
  start : UInt32 := 0
  stop : UInt32 := 0
  /-- Of a mention. -/
  accountId : ByteVector := []
  /-- Of a kind this build does not know. -/
  body : ByteVector := []
  deriving DecidableEq, Repr

def TextSpan.is (span : TextSpan) (k : TextSpanKind) : Bool := span.kind = k.toU8

/-- `DumpJson` and `TryParseObject`. -/
structure JsonText where
  dump : Object → ByteVector
  parse : ByteVector → Option Object

/-- The text written of the object reads back as the object. -/
def JsonText.ReadsBack (J : JsonText) (o : Object) : Prop := J.parse (J.dump o) = some o

/-- Bytes as a JSON string, one a character. -/
def byteStr (bytes : ByteVector) : String := String.ofList (bytes.map fun b => Char.ofNat b.toNat)

def strBytes (s : String) : ByteVector := s.toList.map fun c => UInt8.ofNat c.toNat

namespace TextSpans

def kMaxSpans : Nat := 64
def kMaxMentions : Nat := 50

/-! ## The checks -/

def onCharBoundary (text : ByteVector) (offset : UInt32) : Bool :=
  offset.toNat = text.length || (text[offset.toNat]?).any fun byte => !Utf8.continues byte

/-- `Marks`: a span that has to start with its sign. -/
def marks (span : TextSpan) : Bool := span.is .mention || span.is .everyone

/-- One turn of `CheckStructure`: the accounts mentioned and the everyone spans so far. -/
def checkSpan (seen : List ByteVector × Nat) (span : TextSpan) : Roe (List ByteVector × Nat) :=
  if span.is .mention then
    if span.accountId = [] then .error "text_spans: a mention names no account"
    else if span.accountId ∈ seen.1 then .error "text_spans: an account mentioned twice"
    else .ok (span.accountId :: seen.1, seen.2)
  else if span.is .everyone then .ok (seen.1, seen.2 + 1)
  else .ok seen

def checkStructure (spans : List TextSpan) : Roe Unit := do
  refuseIf (spans.length > kMaxSpans) "text_spans: too many spans"
  let seen ← spans.foldlM checkSpan ([], 0)
  refuseIf (seen.1.length > kMaxMentions) "text_spans: too many mentions"
  refuseIf (seen.2 > 1) "text_spans: more than one everyone span"

/-- The span goes into `in_text`. -/
def inText (text : ByteVector) (span : TextSpan) : Bool :=
  (span.start < span.stop && span.stop.toNat ≤ text.length && onCharBoundary text span.start &&
    onCharBoundary text span.stop) &&
  (!marks span || text[span.start.toNat]? = some '@'.toUInt8)

def overlap (a b : TextSpan) : Bool := a.start < b.stop && b.start < a.stop

/-- `KeepValidRanges`: of spans that overlap, none is kept. -/
def keepValidRanges (text : ByteVector) (spans : List TextSpan) : List TextSpan :=
  Apart.alone overlap (spans.filter (inText text))

/-! ## The wire form of a body -/

def encodeBody (span : TextSpan) : ByteVector :=
  if span.is .mention then putUtf8 span.accountId
  else if span.is .everyone then []
  else span.body

def decodeBody (span : TextSpan) (body : ByteVector) : Roe TextSpan :=
  if span.is .mention then
    match Read.utf8 body with
    | some (id, []) => .ok { span with accountId := id }
    | _ => .error "text_spans: malformed mention"
  else if span.is .everyone then
    if body ≠ [] then .error "text_spans: an everyone span with a body" else .ok span
  else .ok { span with body }

/-! ## The local form -/

def spanRow (span : TextSpan) : Object :=
  let row := ((({} : Object).set "k" (.num span.kind.toNat)).set "s" (.num span.start.toNat)).set "e" (.num span.stop.toNat)
  if span.is .mention then row.set "id" (.str (byteStr span.accountId))
  else if !span.is .everyone then row.set "body" (.str (String.ofList (Base64.encode span.body)))
  else row

def payloadObject (text : ByteVector) (spans : List TextSpan) : Object :=
  (({} : Object).set "text" (.str (byteStr text))).setIf (spans ≠ []) "spans" (.array (spans.map fun span => (spanRow span).value))

def toPayloadJson (J : JsonText) (text : ByteVector) (spans : List TextSpan) : ByteVector :=
  J.dump (payloadObject text spans)

/-- One row of `FromPayloadJson`; what is no object or of no kind is skipped. -/
def spanOfRow (item : Value) : Option TextSpan := do
  let row ← item.asObject
  let span : TextSpan :=
    { kind := UInt8.ofNat ((row.getNonNegInt "k").getD 0)
      start := UInt32.ofNat ((row.getNonNegInt "s").getD 0)
      stop := UInt32.ofNat ((row.getNonNegInt "e").getD 0)
      accountId := strBytes ((row.getString "id").getD "")
      body := ((row.getString "body").bind fun body => Base64.decode body.toList).getD [] }
  if span.kind ≠ 0 then some span else none

def fromPayloadJson (J : JsonText) (payloadJson : ByteVector) : List TextSpan :=
  match (J.parse payloadJson).bind fun payload => payload.getArray "spans" with
  | none => []
  | some rows => rows.filterMap spanOfRow

def mentionedAccounts (spans : List TextSpan) : List ByteVector :=
  (spans.filter (·.is .mention)).map (·.accountId)

def mentionsEveryone (spans : List TextSpan) : Bool := spans.any (·.is .everyone)

end TextSpans

/-! ## The payload -/

/-- What of a `ThreadMessage` its payload fills in. -/
structure PayloadMessage where
  contentType : ChatContentType
  text : ByteVector
  payloadJson : ByteVector

namespace ChatPayloadCodec

open TextSpans

def kPayloadVersion : UInt8 := 1
def kContentTypeText : UInt8 := 0
def kContentTypeTextSpans : UInt8 := 6
def kSubVersion : UInt8 := 1

def finalizePayload (data : ByteVector) : Roe ByteVector :=
  if data.length > kMaxE2ePlaintextBytes then .error "ChatPayload too large" else .ok data

def encodePayloadBytes (contentType : UInt8) (text tail : ByteVector) : Roe ByteVector :=
  finalizePayload (putU8 kPayloadVersion ++ putU8 contentType ++ putUtf8 text ++ tail)

def writeSpan (span : TextSpan) : ByteVector :=
  putU8 span.kind ++ putU32 span.start ++ putU32 span.stop ++ putBytes (encodeBody span)

def writeSpans (spans : List TextSpan) : ByteVector :=
  putU8 kSubVersion ++ putU8 (UInt8.ofNat spans.length) ++ spans.flatMap writeSpan

/-- `EncodeText`: text with no span is plain text. -/
def encodeText (text : ByteVector) (spans : List TextSpan) : Roe ByteVector :=
  if spans = [] then encodePayloadBytes kContentTypeText text []
  else do
    checkStructure spans
    encodePayloadBytes kContentTypeTextSpans text (writeSpans spans)

def readExactEnd (rest : ByteVector) : Roe Unit := refuseIf (rest ≠ []) "Malformed ChatPayload"

/-- A span's fields and its body. -/
def readSpanFields : Reader UInt8 (TextSpan × ByteVector) := do
  let kind ← Read.u8
  let start ← Read.u32
  let stop ← Read.u32
  let body ← Read.bytes
  pure ({ kind, start, stop }, body)

def readSpanRows : Nat → ByteVector → Roe (List TextSpan × ByteVector)
  | 0, bytes => .ok ([], bytes)
  | count + 1, bytes =>
    match readSpanFields bytes with
    | none => .error "Malformed text_spans ChatPayload"
    | some ((span, body), rest) => do
      let span ← decodeBody span body
      let (spans, rest) ← readSpanRows count rest
      return (span :: spans, rest)

def readSpansHeader : Reader UInt8 (UInt8 × UInt8) := do
  let subVersion ← Read.u8
  let count ← Read.u8
  pure (subVersion, count)

section

variable (J : JsonText)

/-- `ReadSpans`: a structure error rejects the message, a bad range drops its span. -/
def readSpans (text : ByteVector) (bytes : ByteVector) : Roe PayloadMessage :=
  match readSpansHeader bytes with
  | none => .error "Unsupported ChatPayload sub-version"
  | some ((subVersion, count), rest) => do
    refuseIf (subVersion ≠ kSubVersion) "Unsupported ChatPayload sub-version"
    let (spans, rest) ← readSpanRows count.toNat rest
    readExactEnd rest
    checkStructure spans
    return { contentType := .text, text, payloadJson := toPayloadJson J text (keepValidRanges text spans) }

def readTypeAndText : Reader UInt8 (UInt8 × ByteVector) := do
  let contentType ← Read.u8
  let text ← Read.utf8
  pure (contentType, text)

/-- `other`: the payloads that are not text, of their type, their text and what is left. -/
def applyRowToMessage (other : UInt8 → ByteVector → ByteVector → Roe PayloadMessage) (chatPayload : ByteVector) :
    Roe PayloadMessage := do
  refuseIf (chatPayload.length > kMaxE2ePlaintextBytes) "ChatPayload too large"
  match Read.u8 chatPayload with
  | none => throw "Unsupported ChatPayload version"
  | some (version, rest) =>
    refuseIf (version ≠ kPayloadVersion) "Unsupported ChatPayload version"
    match readTypeAndText rest with
    | none => throw "Malformed ChatPayload"
    | some ((contentType, text), rest) =>
      if contentType = kContentTypeText then
        readExactEnd rest
        return { contentType := .text, text, payloadJson := toPayloadJson J text [] }
      else if contentType = kContentTypeTextSpans then readSpans J text rest
      else other contentType text rest

def decodeToMessageFields (other : UInt8 → ByteVector → ByteVector → Roe PayloadMessage) (chatPayload : ByteVector) :
    Roe PayloadMessage :=
  match applyRowToMessage J other chatPayload with
  | .ok message => .ok message
  | .error _ => .error "Failed to decode ChatPayload"

end

end ChatPayloadCodec

/-! ## The usable spans, and their way over the wire -/

/-! ## Usable spans -/

/-- The span marks text that is there, in whole characters. -/
structure TextSpan.Fits (text : ByteVector) (span : TextSpan) : Prop where
  nonempty : span.start < span.stop
  inside : span.stop.toNat ≤ text.length
  start : Utf8.Boundary text span.start.toNat
  stop : Utf8.Boundary text span.stop.toNat
  sign : TextSpans.marks span = true → text[span.start.toNat]? = some '@'.toUInt8

/-- Both mark some byte. -/
def TextSpan.Overlaps (a b : TextSpan) : Prop :=
  ∃ n : Nat, (a.start.toNat ≤ n ∧ n < a.stop.toNat) ∧ b.start.toNat ≤ n ∧ n < b.stop.toNat

/-- The span at this place fits and overlaps no other that does. -/
def TextSpan.Usable (text : ByteVector) (spans : List TextSpan) (i : Fin spans.length) : Prop :=
  (spans.get i).Fits text ∧ ∀ j, j ≠ i → (spans.get j).Fits text → ¬ (spans.get i).Overlaps (spans.get j)

/-- Nothing but what spans of its kind have. -/
structure TextSpan.OwnFields (span : TextSpan) : Prop where
  known : span.kind ≠ 0
  accountId : span.is .mention = false → span.accountId = []
  body : TextSpans.marks span = true → span.body = []

namespace TextSpans

variable {text : ByteVector} {spans spans' : List TextSpan} {span a b : TextSpan}

theorem onCharBoundary_iff {offset : UInt32} :
    onCharBoundary text offset = true ↔ Utf8.Boundary text offset.toNat := by
  rw [onCharBoundary, Bool.or_eq_true, decide_eq_true_eq, Option.any_eq_true]
  simp [Utf8.Boundary]

theorem inText_iff : inText text span = true ↔ span.Fits text := by
  simp only [inText, Bool.and_eq_true, decide_eq_true_eq, onCharBoundary_iff, Bool.or_eq_true, Bool.not_eq_true']
  constructor
  · intro ⟨⟨⟨⟨hnonempty, hinside⟩, hstart⟩, hstop⟩, hsign⟩
    refine ⟨hnonempty, hinside, hstart, hstop, ?_⟩
    intro hmarks
    rcases hsign with hsign | hsign
    · rw [hmarks] at hsign
      cases hsign
    · exact hsign
  · intro h
    refine ⟨⟨⟨⟨h.nonempty, h.inside⟩, h.start⟩, h.stop⟩, ?_⟩
    by_cases hmarks : marks span = true
    · exact .inr (h.sign hmarks)
    · exact .inl (by simpa using hmarks)

instance : Decidable (span.Fits text) := decidable_of_iff _ inText_iff

/-- Spans overlap if neither ends before the other starts. -/
theorem overlaps_iff (ha : a.start < a.stop) (hb : b.start < b.stop) : a.Overlaps b ↔ overlap a b = true := by
  simp only [UInt32.lt_iff_toNat_lt] at ha hb
  simp only [overlap, Bool.and_eq_true, decide_eq_true_eq, UInt32.lt_iff_toNat_lt]
  constructor
  · intro ⟨n, hna, hnb⟩
    omega
  · intro hboth
    by_cases hle : a.start.toNat ≤ b.start.toNat
    · exact ⟨b.start.toNat, by omega, by omega⟩
    · exact ⟨a.start.toNat, by omega, by omega⟩

instance : Decidable (a.Overlaps b) :=
  decidable_of_iff (max a.start.toNat b.start.toNat < min a.stop.toNat b.stop.toNat) <| by
    constructor
    · intro h
      exact ⟨max a.start.toNat b.start.toNat, by omega, by omega⟩
    · intro ⟨n, hna, hnb⟩
      omega

instance (i : Fin spans.length) : Decidable (TextSpan.Usable text spans i) := inferInstanceAs (Decidable (_ ∧ _))

instance : Decidable span.OwnFields :=
  decidable_of_iff (span.kind ≠ 0 ∧ (span.is .mention = false → span.accountId = []) ∧ (marks span = true → span.body = []))
    ⟨fun h => ⟨h.1, h.2.1, h.2.2⟩, fun h => ⟨h.known, h.accountId, h.body⟩⟩

theorem overlap_symm (a b : TextSpan) : overlap a b = overlap b a := by
  rw [overlap, overlap, Bool.and_comm]

theorem overlap_self : ∀ span ∈ spans.filter (inText text), overlap span span = true := by
  intro span hspan
  have hfits := inText_iff.mp (List.mem_filter.mp hspan).2
  simp [overlap, hfits.nonempty]

theorem keepValidRanges_eq_filter : keepValidRanges text spans =
    spans.filter fun span => inText text span && decide ((spans.filter (inText text)).countP (overlap span) ≤ 1) := by
  rw [keepValidRanges, Apart.alone_eq overlap_symm overlap_self, List.filter_filter]
  apply List.filter_congr
  intro span _
  rw [Bool.and_comm]

theorem usable_iff (i : Fin spans.length) : TextSpan.Usable text spans i ↔
    (inText text (spans.get i) && decide ((spans.filter (inText text)).countP (overlap (spans.get i)) ≤ 1)) = true := by
  rw [Bool.and_eq_true, inText_iff, decide_eq_true_eq, List.countP_filter, TextSpan.Usable]
  apply and_congr_right
  intro hfits
  have hself : (overlap spans[i.val] spans[i.val] && inText text spans[i.val]) = true := by
    rw [Bool.and_eq_true]
    exact ⟨overlap_self _ (List.mem_filter.mpr ⟨List.getElem_mem i.isLt, inText_iff.mpr hfits⟩), inText_iff.mpr hfits⟩
  have hone := Apart.countP_le_one_iff (p := fun other => overlap (spans.get i) other && inText text other) i.isLt hself
  rw [hone]
  constructor
  · intro h j hj hne
    by_cases hother : inText text spans[j] = true
    · have hother' := inText_iff.mp hother
      have hapart : ¬ (spans.get i).Overlaps spans[j] := h ⟨j, hj⟩ (Fin.ne_of_val_ne hne) hother'
      rw [overlaps_iff hfits.nonempty hother'.nonempty] at hapart
      simpa [hother] using hapart
    · simp [hother]
  · intro h j hne hother
    rw [overlaps_iff hfits.nonempty hother.nonempty]
    have hcase : (overlap (spans.get i) (spans.get j) && inText text (spans.get j)) = false :=
      h j.val j.isLt (Fin.val_ne_of_ne hne)
    rw [inText_iff.mpr hother, Bool.and_true] at hcase
    rw [hcase]
    exact Bool.false_ne_true

theorem keepValidRanges_eq : keepValidRanges text spans =
    ((List.finRange spans.length).filter fun i => TextSpan.Usable text spans i).map spans.get := by
  rw [keepValidRanges_eq_filter, Apart.filter_eq_map_finRange]
  congr 1
  apply List.filter_congr
  intro i _
  rw [Bool.eq_iff_iff, decide_eq_true_eq]
  exact (usable_iff i).symm

theorem keepValidRanges_sublist : (keepValidRanges text spans).Sublist spans := by
  rw [keepValidRanges_eq_filter]
  exact List.filter_sublist

theorem fits_of_mem_kept (h : span ∈ keepValidRanges text spans) : span.Fits text := by
  rw [keepValidRanges_eq_filter, List.mem_filter, Bool.and_eq_true] at h
  exact inText_iff.mp h.2.1

theorem keepValidRanges_pairwise : (keepValidRanges text spans).Pairwise fun a b => ¬ a.Overlaps b := by
  have hapart := Apart.alone_pairwise (overlap_symm) (@overlap_self text spans)
  refine List.Pairwise.imp_of_mem ?_ hapart
  intro a b ha hb hab
  rw [overlaps_iff (fits_of_mem_kept ha).nonempty (fits_of_mem_kept hb).nonempty, hab]
  exact Bool.false_ne_true

theorem keepValidRanges_keepValidRanges : keepValidRanges text (keepValidRanges text spans) = keepValidRanges text spans := by
  have hall : (keepValidRanges text spans).filter (inText text) = keepValidRanges text spans := by
    rw [List.filter_eq_self]
    intro span hspan
    exact inText_iff.mpr (fits_of_mem_kept hspan)
  have hself := @overlap_self text (keepValidRanges text spans)
  rw [hall] at hself
  rw [keepValidRanges, hall]
  exact Apart.alone_of_pairwise overlap_symm hself (Apart.alone_pairwise overlap_symm overlap_self)

theorem keepValidRanges_perm (h : spans'.Perm spans) :
    (keepValidRanges text spans').Perm (keepValidRanges text spans) :=
  Apart.alone_perm overlap_symm overlap_self (h.filter _)

/-! ## The structure of a span list -/

/-- What `CheckStructure` asks, of the whole list. -/
structure Structured (spans : List TextSpan) : Prop where
  size : spans.length ≤ kMaxSpans
  named : ∀ id ∈ mentionedAccounts spans, id ≠ []
  once : (mentionedAccounts spans).Nodup
  mentions : (mentionedAccounts spans).length ≤ kMaxMentions
  everyone : spans.countP (·.is .everyone) ≤ 1

theorem not_everyone_of_mention (h : span.is .mention = true) : span.is .everyone = false := by
  simp only [TextSpan.is, decide_eq_true_eq, decide_eq_false_iff_not] at h ⊢
  rw [h]
  decide

/-- The loop collects the accounts, each new and named, and counts the everyone spans. -/
theorem foldlM_checkSpan (spans : List TextSpan) (seen : List ByteVector × Nat) (hseen : seen.1.Nodup)
    (after : List ByteVector × Nat) : spans.foldlM checkSpan seen = .ok after ↔
      ((∀ id ∈ mentionedAccounts spans, id ≠ []) ∧ ((mentionedAccounts spans).reverse ++ seen.1).Nodup) ∧
      after = ((mentionedAccounts spans).reverse ++ seen.1, seen.2 + spans.countP (·.is .everyone)) := by
  induction spans generalizing seen with
  | nil => simp [mentionedAccounts, hseen, eq_comm]
  | cons span spans ih =>
    rw [List.foldlM_cons]
    by_cases hmention : span.is .mention = true
    · have haccounts : mentionedAccounts (span :: spans) = span.accountId :: mentionedAccounts spans := by
        simp [mentionedAccounts, hmention]
      have hcount : (span :: spans).countP (·.is .everyone) = spans.countP (·.is .everyone) :=
        List.countP_cons_of_neg (by simp [not_everyone_of_mention hmention])
      rw [haccounts, hcount, checkSpan, if_pos hmention, List.reverse_cons, List.append_assoc, List.singleton_append]
      by_cases hempty : span.accountId = []
      · rw [if_pos hempty, roe_error_bind]
        simp [hempty]
      · rw [if_neg hempty]
        by_cases hmem : span.accountId ∈ seen.1
        · rw [if_pos hmem, roe_error_bind]
          refine iff_of_false (by simp) ?_
          intro ⟨⟨_, hnodup⟩, _⟩
          exact (List.nodup_cons.mp (List.nodup_append.mp hnodup).2.1).1 hmem
        · rw [if_neg hmem, roe_ok_bind, ih _ (List.nodup_cons.mpr ⟨hmem, hseen⟩)]
          simp [hempty]
    · have haccounts : mentionedAccounts (span :: spans) = mentionedAccounts spans := by
        simp [mentionedAccounts, hmention]
      rw [haccounts, checkSpan, if_neg hmention]
      by_cases heveryone : span.is .everyone = true
      · have hcount : (span :: spans).countP (·.is .everyone) = spans.countP (·.is .everyone) + 1 :=
          List.countP_cons_of_pos heveryone
        rw [if_pos heveryone, roe_ok_bind, ih (seen.1, seen.2 + 1) hseen, hcount, Nat.add_assoc, Nat.add_comm 1]
      · have hcount : (span :: spans).countP (·.is .everyone) = spans.countP (·.is .everyone) :=
          List.countP_cons_of_neg heveryone
        rw [if_neg heveryone, roe_ok_bind, ih _ hseen, hcount]

theorem checkStructure_iff : checkStructure spans = .ok () ↔ Structured spans := by
  rw [checkStructure, refuseIf_bind_ok, roe_bind_ok]
  constructor
  · intro ⟨hsize, seen, hloop, hrest⟩
    obtain ⟨⟨hnamed, honce⟩, rfl⟩ := (foldlM_checkSpan spans ([], 0) List.nodup_nil seen).mp hloop
    rw [refuseIf_bind_ok, refuseIf_ok] at hrest
    simp only [List.append_nil, List.nodup_reverse] at honce
    exact ⟨by omega, hnamed, honce, by simpa using hrest.1, by simpa using hrest.2⟩
  · intro h
    refine ⟨Nat.not_lt.mpr h.size, _, (foldlM_checkSpan spans ([], 0) List.nodup_nil _).mpr ⟨⟨h.named, ?_⟩, rfl⟩, ?_⟩
    · simpa using h.once
    · rw [refuseIf_bind_ok, refuseIf_ok]
      exact ⟨by simpa using h.mentions, by simpa using h.everyone⟩

theorem Structured.sublist (h : Structured spans) (hsub : spans'.Sublist spans) : Structured spans' := by
  have haccounts : (mentionedAccounts spans').Sublist (mentionedAccounts spans) := (hsub.filter _).map _
  exact ⟨hsub.length_le.trans h.size, fun id hid => h.named id (haccounts.subset hid), h.once.sublist haccounts,
    haccounts.length_le.trans h.mentions, (hsub.countP_le).trans h.everyone⟩

theorem Structured.perm (h : Structured spans) (hperm : spans'.Perm spans) : Structured spans' := by
  have haccounts : (mentionedAccounts spans').Perm (mentionedAccounts spans) := (hperm.filter _).map _
  exact ⟨hperm.length_eq ▸ h.size, fun id hid => h.named id (haccounts.mem_iff.mp hid), haccounts.nodup_iff.mpr h.once,
    haccounts.length_eq ▸ h.mentions, (hperm.countP_eq _).symm ▸ h.everyone⟩

end TextSpans

/-! ## Marked text over the wire and back -/

theorem strBytes_byteStr (bytes : ByteVector) : strBytes (byteStr bytes) = bytes := by
  rw [strBytes, byteStr, String.toList_ofList, List.map_map]
  exact List.map_id'' ofNat_charOfNat bytes

namespace TextSpans

variable {text : ByteVector} {spans : List TextSpan} {span : TextSpan}

/-! ## Bodies -/

theorem decodeBody_encodeBody (hown : span.OwnFields) (hsized : Sized span.accountId.length) :
    decodeBody { kind := span.kind, start := span.start, stop := span.stop } (encodeBody span) = .ok span := by
  have hkind (k : TextSpanKind) :
      TextSpan.is { kind := span.kind, start := span.start, stop := span.stop } k = span.is k := rfl
  rw [decodeBody, encodeBody, hkind, hkind]
  by_cases hmention : span.is .mention = true
  · have hread : Read.utf8 (putUtf8 span.accountId ++ []) = some (span.accountId, []) := utf8_codec.get_put hsized trivial
    have hbody := hown.body (by simp [marks, hmention])
    rw [List.append_nil] at hread
    rw [if_pos hmention, if_pos hmention, hread]
    cases span
    simp_all
  · rw [if_neg hmention, if_neg hmention]
    have hid := hown.accountId (by simpa using hmention)
    by_cases heveryone : span.is .everyone = true
    · have hbody := hown.body (by simp [marks, heveryone])
      rw [if_pos heveryone, if_pos heveryone, if_neg (by simp)]
      cases span
      simp_all
    · rw [if_neg heveryone, if_neg heveryone]
      cases span
      simp_all

/-! ## The local form -/

theorem get?_spanRow (span : TextSpan) (key : String) : (spanRow span).get? key =
    if key = "k" then some (.num span.kind.toNat) else if key = "s" then some (.num span.start.toNat)
    else if key = "e" then some (.num span.stop.toNat)
    else if key = "id" ∧ span.is .mention = true then some (.str (byteStr span.accountId))
    else if key = "body" ∧ marks span = false then some (.str (String.ofList (Base64.encode span.body)))
    else none := by
  have hdistinct : ("id" : String) ≠ "k" ∧ ("id" : String) ≠ "s" ∧ ("id" : String) ≠ "e" ∧ ("body" : String) ≠ "k" ∧
    ("body" : String) ≠ "s" ∧ ("body" : String) ≠ "e" ∧ ("e" : String) ≠ "k" ∧ ("e" : String) ≠ "s" ∧
    ("s" : String) ≠ "k" := by decide
  rw [spanRow, marks]
  cases hmention : span.is .mention <;> cases heveryone : span.is .everyone <;> simp <;> grind

theorem spanOfRow_spanRow (hown : span.OwnFields) : spanOfRow (spanRow span).value = some span := by
  have hkind : (spanRow span).getNonNegInt "k" = some span.kind.toNat := by
    simp [get?_spanRow]
  have hstart : (spanRow span).getNonNegInt "s" = some span.start.toNat := by
    simp [get?_spanRow]
  have hstop : (spanRow span).getNonNegInt "e" = some span.stop.toNat := by
    simp [get?_spanRow]
  have hid : strBytes (((spanRow span).getString "id").getD "") = span.accountId := by
    by_cases hmention : span.is .mention = true
    · simp [get?_spanRow, hmention, strBytes_byteStr]
    · rw [hown.accountId (by simpa using hmention)]
      simp [get?_spanRow, hmention, strBytes]
  have hbody : (((spanRow span).getString "body").bind fun body => Base64.decode body.toList).getD [] = span.body := by
    by_cases hmarks : marks span = true
    · rw [hown.body hmarks]
      simp [get?_spanRow, hmarks]
    · simp [get?_spanRow, hmarks, Base64.decode_encode]
  have hobject : (spanRow span).value.asObject = some (spanRow span) := rfl
  rw [spanOfRow, hobject]
  simp only [Option.bind_eq_bind, Option.bind_some, hkind, hstart, hstop, hid, hbody,
    Option.getD_some, UInt8.ofNat_toNat,
    UInt32.ofNat_toNat]
  rw [if_pos hown.known]

theorem fromPayloadJson_toPayloadJson {J : JsonText} (hjson : J.ReadsBack (payloadObject text spans))
    (hown : ∀ span ∈ spans, span.OwnFields) : fromPayloadJson J (toPayloadJson J text spans) = spans := by
  rw [fromPayloadJson, toPayloadJson, hjson, Option.bind_some, payloadObject, Object.getArray, Object.get?_setIf]
  by_cases hspans : spans = []
  · subst hspans
    simp
  · simp only [hspans, ne_eq, not_false_eq_true, decide_true, and_self, if_true]
    rw [List.filterMap_map]
    have hrows : ∀ span ∈ spans, (spanOfRow ∘ fun span => (spanRow span).value) span = some span :=
      fun span hspan => spanOfRow_spanRow (hown span hspan)
    rw [List.filterMap_congr hrows, List.filterMap_some]

end TextSpans

/-! ## The payload -/

namespace ChatPayloadCodec

open TextSpans

variable {text : ByteVector} {spans : List TextSpan} {span : TextSpan}

/-- The bytes of a text and its spans on the wire. -/
def payloadSize (text : ByteVector) (spans : List TextSpan) : Nat :=
  10 + text.length + if spans = [] then 0 else 2 + (spans.map fun span => 17 + (encodeBody span).length).sum

theorem length_putU32 (n : UInt32) : (putU32 n).length = 4 := length_bigEndian 4 _

theorem length_putBytes (bytes : ByteVector) : (putBytes bytes).length = 8 + bytes.length := by
  rw [putBytes, List.length_append, putCount, putUint, length_bigEndian]

theorem length_writeSpan (span : TextSpan) : (writeSpan span).length = 17 + (encodeBody span).length := by
  simp only [writeSpan, List.length_append, length_putU32, length_putBytes, putU8, List.length_singleton]
  omega

theorem length_writeSpans (spans : List TextSpan) :
    (writeSpans spans).length = 2 + (spans.map fun span => 17 + (encodeBody span).length).sum := by
  simp only [writeSpans, List.length_append, putU8, List.length_singleton, List.length_flatMap, length_writeSpan]

theorem finalizePayload_ok {data bytes : ByteVector} :
    finalizePayload data = .ok bytes ↔ data.length ≤ kMaxE2ePlaintextBytes ∧ data = bytes := by
  unfold finalizePayload
  split
  next hlarge => exact iff_of_false (by simp) fun h => absurd h.1 (Nat.not_le.mpr hlarge)
  next hfits => simp [Nat.not_lt.mp hfits]

/-- What `EncodeText` writes of spans that pass, if it is not too large. -/
theorem encodeText_ok (hcheck : checkStructure spans = .ok ()) {bytes : ByteVector} :
    encodeText text spans = .ok bytes ↔ payloadSize text spans ≤ kMaxE2ePlaintextBytes ∧
      putU8 kPayloadVersion ++ putU8 (if spans = [] then kContentTypeText else kContentTypeTextSpans) ++ putUtf8 text ++
        (if spans = [] then [] else writeSpans spans) = bytes := by
  have hhead (contentType : UInt8) (tail : ByteVector) :
      (putU8 kPayloadVersion ++ putU8 contentType ++ putUtf8 text ++ tail).length = 10 + text.length + tail.length := by
    simp only [List.length_append, putU8, List.length_singleton, putUtf8, length_putBytes]
    omega
  by_cases hspans : spans = []
  · rw [encodeText, if_pos hspans, encodePayloadBytes, finalizePayload_ok, hhead, payloadSize]
    simp [hspans]
  · rw [encodeText, if_neg hspans, hcheck, roe_ok_bind, encodePayloadBytes, finalizePayload_ok, hhead, payloadSize,
      length_writeSpans]
    simp [hspans]

theorem encodeText_fits (hcheck : checkStructure spans = .ok ()) :
    (∃ bytes, encodeText text spans = .ok bytes) ↔ payloadSize text spans ≤ kMaxE2ePlaintextBytes := by
  constructor
  · intro ⟨bytes, hencode⟩
    exact ((encodeText_ok hcheck).mp hencode).1
  · intro hsize
    exact ⟨_, (encodeText_ok hcheck).mpr ⟨hsize, rfl⟩⟩

theorem sized_of_limit {n : Nat} (h : n ≤ kMaxE2ePlaintextBytes) : Sized n :=
  Nat.lt_of_le_of_lt h (by decide)

theorem readSpanFields_writeSpan (hsized : Sized (encodeBody span).length) (rest : ByteVector) :
    readSpanFields (writeSpan span ++ rest) =
      some (({ kind := span.kind, start := span.start, stop := span.stop }, encodeBody span), rest) := by
  have hkind (rest : ByteVector) : Read.u8 (putU8 span.kind ++ rest) = some (span.kind, rest) :=
    u8_codec.get_put trivial trivial
  have hword (n : UInt32) (rest : ByteVector) : Read.u32 (putU32 n ++ rest) = some (n, rest) :=
    u32_codec.get_put trivial trivial
  have hbody : Read.bytes (putBytes (encodeBody span) ++ rest) = some (encodeBody span, rest) :=
    bytes_codec.get_put hsized trivial
  rw [readSpanFields, writeSpan, List.append_assoc, List.append_assoc, List.append_assoc, Reader.bind_apply, hkind,
    Option.bind_some, Reader.bind_apply, hword, Option.bind_some, Reader.bind_apply, hword, Option.bind_some,
    Reader.bind_apply, hbody, Option.bind_some, Reader.pure_apply]

theorem readSpanRows_flatMap (spans : List TextSpan) (hown : ∀ span ∈ spans, span.OwnFields)
    (hsized : ∀ span ∈ spans, Sized (encodeBody span).length ∧ Sized span.accountId.length) :
    readSpanRows spans.length (spans.flatMap writeSpan) = .ok (spans, []) := by
  induction spans with
  | nil => rfl
  | cons span spans ih =>
    have hspan := hsized span List.mem_cons_self
    have hrest := ih (fun s hs => hown s (List.mem_cons_of_mem _ hs)) fun s hs => hsized s (List.mem_cons_of_mem _ hs)
    rw [List.length_cons, List.flatMap_cons, readSpanRows, readSpanFields_writeSpan hspan.1]
    dsimp only
    rw [decodeBody_encodeBody (hown span List.mem_cons_self) hspan.2, roe_ok_bind, hrest]
    rfl

theorem sized_of_payloadSize (hown : ∀ span ∈ spans, span.OwnFields)
    (hsize : payloadSize text spans ≤ kMaxE2ePlaintextBytes) :
    ∀ span ∈ spans, Sized (encodeBody span).length ∧ Sized span.accountId.length := by
  intro span hspan
  have hmem : 17 + (encodeBody span).length ∈ spans.map fun span => 17 + (encodeBody span).length :=
    List.mem_map_of_mem hspan
  have hle := List.single_le_sum (fun n _ => Nat.zero_le n) _ hmem
  have hspans : spans ≠ [] := List.ne_nil_of_mem hspan
  rw [payloadSize, if_neg hspans] at hsize
  have hbody : (encodeBody span).length ≤ kMaxE2ePlaintextBytes := by omega
  refine ⟨sized_of_limit hbody, sized_of_limit ?_⟩
  by_cases hmention : span.is .mention = true
  · rw [encodeBody, if_pos hmention, putUtf8, length_putBytes] at hbody
    omega
  · rw [(hown span hspan).accountId (by simpa using hmention)]
    exact Nat.zero_le _

/-- A receiver reads the text and the spans a sender wrote, if they all stay. -/
theorem decode_encodeText {J : JsonText} {other : UInt8 → ByteVector → ByteVector → Roe PayloadMessage}
    (hcheck : checkStructure spans = .ok ()) (hkept : keepValidRanges text spans = spans)
    (hown : ∀ span ∈ spans, span.OwnFields) {bytes : ByteVector} (hencode : encodeText text spans = .ok bytes) :
    decodeToMessageFields J other bytes =
      .ok { contentType := .text, text, payloadJson := toPayloadJson J text spans } := by
  obtain ⟨hsize, hbytes⟩ := (encodeText_ok hcheck).mp hencode
  have hlength : bytes.length = payloadSize text spans := by
    rw [← hbytes, payloadSize]
    by_cases hspans : spans = []
    · simp [hspans, putU8, putUtf8, length_putBytes]
      omega
    · simp [hspans, putU8, putUtf8, length_putBytes, length_writeSpans]
      omega
  have htext : Sized text.length := by
    apply sized_of_limit
    rw [payloadSize] at hsize
    omega
  have hbyte (byte : UInt8) (rest : ByteVector) : Read.u8 (putU8 byte ++ rest) = some (byte, rest) :=
    u8_codec.get_put trivial trivial
  have hutf8 (rest : ByteVector) : Read.utf8 (putUtf8 text ++ rest) = some (text, rest) := utf8_codec.get_put htext trivial
  have happly : applyRowToMessage J other bytes =
      .ok { contentType := .text, text, payloadJson := toPayloadJson J text spans } := by
    rw [applyRowToMessage, refuseIf_bind_ok]
    refine ⟨by omega, ?_⟩
    rw [← hbytes, List.append_assoc, List.append_assoc, hbyte]
    dsimp only
    rw [refuseIf_bind_ok]
    refine ⟨not_not_intro rfl, ?_⟩
    have hhead (contentType : UInt8) (tail : ByteVector) :
        readTypeAndText (putU8 contentType ++ (putUtf8 text ++ tail)) = some ((contentType, text), tail) := by
      rw [readTypeAndText, Reader.bind_apply, hbyte, Option.bind_some, Reader.bind_apply, hutf8, Option.bind_some,
        Reader.pure_apply]
    rw [hhead]
    by_cases hspans : spans = []
    · subst hspans
      rfl
    · simp only [if_neg hspans]
      have hcount : (UInt8.ofNat spans.length).toNat = spans.length := by
        have hfew := (checkStructure_iff.mp hcheck).size
        have hmax : kMaxSpans < 256 := by decide
        rw [UInt8.toNat_ofNat', Nat.mod_eq_of_lt (by omega)]
      have hheader : readSpansHeader (writeSpans spans) =
          some ((kSubVersion, UInt8.ofNat spans.length), spans.flatMap writeSpan) := by
        rw [readSpansHeader, writeSpans, List.append_assoc, Reader.bind_apply, hbyte, Option.bind_some, Reader.bind_apply,
          hbyte, Option.bind_some, Reader.pure_apply]
      have htype : ¬ kContentTypeTextSpans = kContentTypeText := by decide
      rw [if_neg htype, if_true, readSpans, hheader]
      dsimp only
      rw [refuseIf_bind_ok]
      refine ⟨not_not_intro rfl, ?_⟩
      rw [hcount, readSpanRows_flatMap spans hown (sized_of_payloadSize hown hsize), roe_ok_bind]
      simp only [readExactEnd, refuseIf, ne_eq, not_true, if_false, roe_ok_bind, hcheck, hkept]
      rfl
  rw [decodeToMessageFields, happly]

end ChatPayloadCodec

open TextSpans ChatPayloadCodec

/-- The text and these spans come over the wire as they are. -/
def SpansTravel (J : JsonText) (other : UInt8 → ByteVector → ByteVector → Roe PayloadMessage) (text : ByteVector)
    (spans : List TextSpan) : Prop :=
  ∃ bytes message, encodeText text spans = .ok bytes ∧ decodeToMessageFields J other bytes = .ok message ∧
    message.text = text ∧ fromPayloadJson J message.payloadJson = spans

/-- The spans kept are the usable ones, apart, and kept again; their order is
that of the list; and a payload that is not too large brings them over. -/
theorem usable_spans_travel (J : JsonText) (other : UInt8 → ByteVector → ByteVector → Roe PayloadMessage)
    (text : ByteVector) {spans : List TextSpan} (hcheck : checkStructure spans = .ok ()) :
    keepValidRanges text spans = ((List.finRange spans.length).filter fun i => TextSpan.Usable text spans i).map spans.get ∧
    (keepValidRanges text spans).Pairwise (fun a b => ¬ a.Overlaps b) ∧
    checkStructure (keepValidRanges text spans) = .ok () ∧
    keepValidRanges text (keepValidRanges text spans) = keepValidRanges text spans ∧
    (∀ spans' : List TextSpan, spans'.Perm spans →
      checkStructure spans' = .ok () ∧ (keepValidRanges text spans').Perm (keepValidRanges text spans)) ∧
    ((∀ span ∈ keepValidRanges text spans, span.OwnFields) →
      payloadSize text (keepValidRanges text spans) ≤ kMaxE2ePlaintextBytes →
      J.ReadsBack (payloadObject text (keepValidRanges text spans)) →
      SpansTravel J other text (keepValidRanges text spans)) := by
  have hstructured := checkStructure_iff.mp hcheck
  have hkept : checkStructure (keepValidRanges text spans) = .ok () :=
    checkStructure_iff.mpr (hstructured.sublist keepValidRanges_sublist)
  refine ⟨keepValidRanges_eq, keepValidRanges_pairwise, hkept, keepValidRanges_keepValidRanges, ?_, ?_⟩
  · intro spans' hperm
    exact ⟨checkStructure_iff.mpr (hstructured.perm hperm), keepValidRanges_perm hperm⟩
  · intro hown hsize hjson
    obtain ⟨bytes, hencode⟩ := (encodeText_fits hkept).mpr hsize
    exact ⟨bytes, _, hencode, decode_encodeText hkept keepValidRanges_keepValidRanges hown hencode, rfl,
      fromPayloadJson_toPayloadJson hjson hown⟩

def jsonOf (payload : Object) (text : String) : JsonText where
  dump := fun _ => stringBytes text
  parse := fun _ => some payload

def noOther : UInt8 → ByteVector → ByteVector → Roe PayloadMessage := fun _ _ _ => .error "Unsupported ChatPayload content type"

def sampleText : ByteVector := [64, 97, 32, 33]

/-- A mention, an everyone span off its sign and a span of an unknown kind. -/
def sampleSpans : List TextSpan :=
  [{ kind := 1, start := 0, stop := 2, accountId := [98] }, { kind := 2, start := 2, stop := 3 },
    { kind := 9, start := 3, stop := 4, body := [1] }]

def sampleKept : List TextSpan :=
  [{ kind := 1, start := 0, stop := 2, accountId := [98] }, { kind := 9, start := 3, stop := 4, body := [1] }]

def sampleJson : JsonText :=
  jsonOf (payloadObject sampleText sampleKept)
    "\x7b\"text\":\"@a !\",\"spans\":[\x7b\"k\":1,\"s\":0,\"e\":2,\"id\":\"b\"\x7d,\x7b\"k\":9,\"s\":3,\"e\":4,\"body\":\"AQ==\"\x7d]\x7d"

theorem usable_spans_travel_sample :
    keepValidRanges sampleText sampleSpans = sampleKept ∧ SpansTravel sampleJson noOther sampleText sampleKept := by
  have hkept : keepValidRanges sampleText sampleSpans = sampleKept := by decide +kernel
  have h := (@usable_spans_travel sampleJson noOther sampleText sampleSpans rfl).2.2.2.2.2
  rw [hkept] at h
  exact ⟨hkept, h (by decide) (by decide) rfl⟩

/-- A span of kind 0 over `@`. -/
def kindZero : TextSpan := { kind := 0, start := 0, stop := 1, body := [1] }

def kindZeroJson : JsonText :=
  jsonOf (payloadObject [64] [kindZero])
    "\x7b\"text\":\"@\",\"spans\":[\x7b\"k\":0,\"s\":0,\"e\":1,\"body\":\"AQ==\"\x7d]\x7d"

/-- A mention over `@` that has a body. -/
def bodied : TextSpan := { kind := 1, start := 0, stop := 1, accountId := [98], body := [1] }

def bodiedJson : JsonText :=
  jsonOf (payloadObject [64] [bodied])
    "\x7b\"text\":\"@\",\"spans\":[\x7b\"k\":1,\"s\":0,\"e\":1,\"id\":\"b\"\x7d]\x7d"

/-- A text as long as a payload may be, a span of kind 0 and a mention with a
body do not come over. -/
theorem spans_not_travel :
    ¬ SpansTravel kindZeroJson noOther (List.replicate kMaxE2ePlaintextBytes 97) [] ∧
    (checkStructure [kindZero] = .ok () ∧ keepValidRanges [64] [kindZero] = [kindZero] ∧
      ¬ SpansTravel kindZeroJson noOther [64] [kindZero]) ∧
    (checkStructure [bodied] = .ok () ∧ keepValidRanges [64] [bodied] = [bodied] ∧
      ¬ SpansTravel bodiedJson noOther [64] [bodied]) := by
  refine ⟨?_, ⟨rfl, by decide +kernel, ?_⟩, rfl, by decide +kernel, ?_⟩
  · intro ⟨bytes, message, hencode, _⟩
    have hsize := ((encodeText_ok rfl).mp hencode).1
    rw [payloadSize, if_pos rfl, List.length_replicate] at hsize
    omega
  · intro ⟨bytes, message, _, _, _, hspans⟩
    have hnone : fromPayloadJson kindZeroJson message.payloadJson = [] := rfl
    rw [hnone] at hspans
    cases hspans
  · intro ⟨bytes, message, _, _, _, hspans⟩
    have hbare : fromPayloadJson bodiedJson message.payloadJson = [{ bodied with body := [] }] := rfl
    rw [hbare] at hspans
    cases hspans

end Pbr
