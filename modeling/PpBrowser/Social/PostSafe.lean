import PpBrowser.Lib.Utf8
import PpBrowser.Social.PostBodyCodecs

/-!
# PostSafe — what a checked post shows

A post that passes its check is text in well formed UTF-8, cut by its facets
into well formed pieces; every body that keeps the rules passes.
-/

namespace Pbr

open Lib Utf8

namespace PostBodies

open PostWire

/-! ## Characters -/

theorem utf8Lead_eq (c : UInt8) : utf8Lead c = if c.toNat < 128 then some (1, c.toNat)
    else if 192 ≤ c.toNat ∧ c.toNat < 224 then some (2, c.toNat % 32)
    else if 224 ≤ c.toNat ∧ c.toNat < 240 then some (3, c.toNat % 16)
    else if 240 ≤ c.toNat ∧ c.toNat < 248 then some (4, c.toNat % 8) else none := by
  have hone : c < 0x80 ↔ c.toNat < 128 := UInt8.lt_iff_toNat_lt
  simp only [utf8Lead, hone, lead_two_iff, lead_three_iff, lead_four_iff, toNat_low_five, toNat_low_four,
    toNat_low_three]

/-- The code point that the bits of the first byte and the continuation bytes
make. -/
def assembled (bits : Nat) (continuation : ByteVector) : Nat :=
  continuation.foldl (fun cp byte => cp * 64 + byte.toNat % 64) bits

/-- A first character ends where its continuation bytes do. -/
theorem afterCharacter_cons {c : UInt8} {text rest : ByteVector} : afterCharacter (c :: text) = some rest ↔
    ∃ len bits continuation, utf8Lead c = some (len, bits) ∧ text = continuation ++ rest ∧
      continuation.length = len - 1 ∧ (∀ b ∈ continuation, continues b = true) ∧
      minForLen len ≤ assembled bits continuation ∧ (assembled bits continuation).isValidChar := by
  have hfold (bits : Nat) (l : ByteVector) :
      l.foldl (fun cp byte => cp * 64 + (byte &&& 0x3F).toNat) bits = assembled bits l := by
    simp only [assembled, toNat_low_six]
  have hany (l : ByteVector) : (l.any (· &&& 0xC0 ≠ 0x80)) = true ↔ ¬ ∀ b ∈ l, continues b = true := by
    simp [continues]
  rw [afterCharacter]
  cases hlead : utf8Lead c with
  | none => simp
  | some lead =>
    obtain ⟨len, bits⟩ := lead
    simp only [hfold]
    constructor
    · intro h
      split_ifs at h with hrefused
      simp only [Bool.or_eq_true, Bool.and_eq_true, decide_eq_true_eq, hany, not_or, not_and, not_not] at hrefused
      obtain ⟨⟨⟨⟨hlen, hcontinues⟩, hmin⟩, hmax⟩, hsurrogate⟩ := hrefused
      refine ⟨len, bits, text.take (len - 1), rfl, ?_, ?_, hcontinues, by omega, ?_⟩
      · obtain rfl := Option.some.inj h
        exact (List.take_append_drop _ _).symm
      · rw [List.length_take]
        omega
      · rw [Nat.isValidChar]
        omega
    · rintro ⟨len', bits', continuation, hsome, rfl, hlength, hcontinues, hmin, hvalid⟩
      obtain ⟨rfl, rfl⟩ := Prod.mk.inj (Option.some.inj hsome)
      rw [List.take_left' hlength, List.drop_left' hlength, if_neg]
      rw [Nat.isValidChar] at hvalid
      simp only [Bool.or_eq_true, Bool.and_eq_true, decide_eq_true_eq, hany, not_or, not_and, not_not,
        List.length_append]
      exact ⟨⟨⟨⟨by omega, hcontinues⟩, by omega⟩, by omega⟩, by omega⟩

theorem exists_char {n : Nat} (h : n.isValidChar) : ∃ c : Char, c.toNat = n := by
  refine ⟨Char.ofNat n, ?_⟩
  rw [Char.ofNat, dif_pos h]
  rfl

theorem eq_ofNat_of_toNat {b : UInt8} {n : Nat} (h : b.toNat = n) : b = UInt8.ofNat n := by
  rw [← h, UInt8.ofNat_toNat]

theorem afterCharacter_iff {text rest : ByteVector} :
    afterCharacter text = some rest ↔ ∃ c : Char, text = String.utf8EncodeChar c ++ rest := by
  constructor
  · cases text with
    | nil => simp [afterCharacter]
    | cons b text =>
      rw [afterCharacter_cons]
      rintro ⟨len, bits, continuation, hlead, rfl, hlength, hcontinues, hmin, hvalid⟩
      obtain ⟨c, hc⟩ := exists_char hvalid
      refine ⟨c, ?_⟩
      have hb := b.toNat_lt
      rw [utf8Lead_eq] at hlead
      split_ifs at hlead with hone htwo hthree hfour
      · obtain ⟨rfl, rfl⟩ := Prod.mk.inj (Option.some.inj hlead)
        obtain rfl := List.length_eq_zero_iff.mp hlength
        simp only [assembled, List.foldl_nil] at hc
        rw [encode_one (by omega), hc, UInt8.ofNat_toNat]
        rfl
      · obtain ⟨rfl, rfl⟩ := Prod.mk.inj (Option.some.inj hlead)
        obtain ⟨x, rfl⟩ := List.length_eq_one_iff.mp hlength
        have hx := (continues_iff x).mp (hcontinues x (by simp))
        simp only [assembled, List.foldl_cons, List.foldl_nil] at hc hmin
        rw [encode_two (by simpa [hc, minForLen] using hmin) (by omega)]
        congr 2
        · exact eq_ofNat_of_toNat (by omega)
        · exact congrArg (· :: _) (eq_ofNat_of_toNat (by omega))
      · obtain ⟨rfl, rfl⟩ := Prod.mk.inj (Option.some.inj hlead)
        obtain ⟨x, y, rfl⟩ := List.length_eq_two.mp hlength
        have hx := (continues_iff x).mp (hcontinues x (by simp))
        have hy := (continues_iff y).mp (hcontinues y (by simp))
        simp only [assembled, List.foldl_cons, List.foldl_nil] at hc hmin
        have hlow : 0x800 ≤ c.toNat := by simpa [hc, minForLen] using hmin
        rw [encode_three hlow (by omega), eq_ofNat_of_toNat (b := b) (n := c.toNat / 4096 % 16 + 224) (by omega),
          eq_ofNat_of_toNat (b := x) (n := c.toNat / 64 % 64 + 128) (by omega),
          eq_ofNat_of_toNat (b := y) (n := c.toNat % 64 + 128) (by omega)]
        rfl
      · obtain ⟨rfl, rfl⟩ := Prod.mk.inj (Option.some.inj hlead)
        obtain ⟨x, y, z, rfl⟩ := List.length_eq_three.mp hlength
        have hx := (continues_iff x).mp (hcontinues x (by simp))
        have hy := (continues_iff y).mp (hcontinues y (by simp))
        have hz := (continues_iff z).mp (hcontinues z (by simp))
        simp only [assembled, List.foldl_cons, List.foldl_nil] at hc hmin
        have hlow : 0x10000 ≤ c.toNat := by simpa [hc, minForLen] using hmin
        rw [encode_four hlow, eq_ofNat_of_toNat (b := b) (n := c.toNat / 262144 % 8 + 240) (by omega),
          eq_ofNat_of_toNat (b := x) (n := c.toNat / 4096 % 64 + 128) (by omega),
          eq_ofNat_of_toNat (b := y) (n := c.toNat / 64 % 64 + 128) (by omega),
          eq_ofNat_of_toNat (b := z) (n := c.toNat % 64 + 128) (by omega)]
        rfl
  · rintro ⟨c, rfl⟩
    have hvalid : c.toNat.isValidChar := c.valid
    have goesOn (n : Nat) : continues (UInt8.ofNat (n % 64 + 128)) = true := by
      rw [continues_iff, toNat_ofNat_byte (by omega)]
      omega
    rw [Nat.isValidChar] at hvalid
    by_cases hone : c.toNat < 0x80
    · rw [encode_one hone, List.singleton_append, afterCharacter_cons]
      refine ⟨1, c.toNat, [], ?_, rfl, rfl, by simp, by simp [minForLen], hvalid⟩
      rw [utf8Lead_eq, toNat_ofNat_byte (by omega), if_pos (by omega)]
    by_cases htwo : c.toNat < 0x800
    · have hcode : assembled (c.toNat / 64) [UInt8.ofNat (c.toNat % 64 + 128)] = c.toNat := by
        simp only [assembled, List.foldl_cons, List.foldl_nil]
        rw [toNat_ofNat_byte (by omega)]
        omega
      rw [encode_two (by omega) htwo, List.cons_append, afterCharacter_cons]
      refine ⟨2, c.toNat / 64, [UInt8.ofNat (c.toNat % 64 + 128)], ?_, rfl, rfl, ?_, ?_, ?_⟩
      · rw [utf8Lead_eq, toNat_ofNat_byte (by omega), if_neg (by omega), if_pos (by omega)]
        congr 2
        omega
      · intro b hb
        rw [List.mem_singleton.mp hb]
        exact goesOn _
      · rw [hcode]
        show 128 ≤ _
        omega
      · rw [hcode]
        exact hvalid
    by_cases hthree : c.toNat < 0x10000
    · have hcode : assembled (c.toNat / 4096) [UInt8.ofNat (c.toNat / 64 % 64 + 128),
          UInt8.ofNat (c.toNat % 64 + 128)] = c.toNat := by
        simp only [assembled, List.foldl_cons, List.foldl_nil]
        rw [toNat_ofNat_byte (by omega), toNat_ofNat_byte (by omega)]
        omega
      rw [encode_three (by omega) hthree, List.cons_append, afterCharacter_cons]
      refine ⟨3, c.toNat / 4096, [UInt8.ofNat (c.toNat / 64 % 64 + 128), UInt8.ofNat (c.toNat % 64 + 128)], ?_, rfl, rfl,
        ?_, ?_, ?_⟩
      · rw [utf8Lead_eq, toNat_ofNat_byte (by omega), if_neg (by omega), if_neg (by omega), if_pos (by omega)]
        congr 2
        omega
      · intro b hb
        simp only [List.mem_cons, List.not_mem_nil, or_false] at hb
        rcases hb with rfl | rfl <;> exact goesOn _
      · rw [hcode]
        show 2048 ≤ _
        omega
      · rw [hcode]
        exact hvalid
    · have hcode : assembled (c.toNat / 262144) [UInt8.ofNat (c.toNat / 4096 % 64 + 128),
          UInt8.ofNat (c.toNat / 64 % 64 + 128), UInt8.ofNat (c.toNat % 64 + 128)] = c.toNat := by
        simp only [assembled, List.foldl_cons, List.foldl_nil]
        rw [toNat_ofNat_byte (by omega), toNat_ofNat_byte (by omega), toNat_ofNat_byte (by omega)]
        omega
      rw [encode_four (by omega), List.cons_append, afterCharacter_cons]
      refine ⟨4, c.toNat / 262144, [UInt8.ofNat (c.toNat / 4096 % 64 + 128),
          UInt8.ofNat (c.toNat / 64 % 64 + 128), UInt8.ofNat (c.toNat % 64 + 128)], ?_, rfl, rfl, ?_, ?_, ?_⟩
      · rw [utf8Lead_eq, toNat_ofNat_byte (by omega), if_neg (by omega), if_neg (by omega), if_neg (by omega),
          if_pos (by omega)]
        congr 2
        omega
      · intro b hb
        simp only [List.mem_cons, List.not_mem_nil, or_false] at hb
        rcases hb with rfl | rfl | rfl <;> exact goesOn _
      · rw [hcode]
        show 65536 ≤ _
        omega
      · rw [hcode]
        exact hvalid

variable {text : ByteVector} {facets : List PostFacet} {body : PostBody} {react : ReactBody}

theorem wellFormedFor_iff (n : Nat) (hn : text.length ≤ n) : wellFormedFor n text = true ↔ WellFormed text := by
  induction n generalizing text with
  | zero =>
    obtain rfl := List.length_eq_zero_iff.mp (Nat.le_zero.mp hn)
    simp [wellFormedFor, WellFormed.nil]
  | succ n ih =>
    cases text with
    | nil => simp [wellFormedFor, WellFormed.nil]
    | cons b text =>
      simp only [wellFormedFor]
      cases hafter : afterCharacter (b :: text) with
      | none =>
        simp only [Bool.false_eq_true, false_iff]
        rintro ⟨chars, hchars⟩
        cases chars with
        | nil => cases hchars
        | cons c chars =>
          rw [List.flatMap_cons] at hchars
          rw [afterCharacter_iff.mpr ⟨c, hchars⟩] at hafter
          cases hafter
      | some rest =>
        obtain ⟨c, hc⟩ := afterCharacter_iff.mp hafter
        have hshort : rest.length ≤ n := by
          obtain ⟨lead, tail, hencode, -⟩ := encode_shape c
          rw [hencode] at hc
          have hlen := congrArg List.length hc
          simp only [List.length_cons, List.length_append] at hlen hn
          omega
        rw [ih hshort]
        constructor
        · intro hrest
          rw [hc]
          exact (wellFormed_encode c).append hrest
        · rintro ⟨chars, hchars⟩
          cases chars with
          | nil => cases hchars
          | cons d chars =>
            rw [List.flatMap_cons] at hchars
            have hother := afterCharacter_iff.mpr ⟨d, hchars⟩
            rw [hafter] at hother
            exact ⟨chars, Option.some.inj hother⟩

theorem isWellFormedUtf8_iff (text : ByteVector) : isWellFormedUtf8 text = true ↔ WellFormed text :=
  wellFormedFor_iff _ (Nat.le_refl _)

theorem isUtf8Within_iff {maxBytes : Nat} :
    isUtf8Within text maxBytes = true ↔ text.length ≤ maxBytes ∧ WellFormed text := by
  rw [isUtf8Within, Bool.and_eq_true, decide_eq_true_iff, isWellFormedUtf8_iff]

theorem isUtf8Boundary_iff {offset : Nat} : isUtf8Boundary text offset = true ↔ Boundary text offset := by
  unfold isUtf8Boundary Boundary
  rw [Bool.or_eq_true, decide_eq_true_iff, Option.any_eq_true]
  simp [continues]

/-! ## The rules -/

/-- Text of at most so many bytes. -/
def TextWithin (text : ByteVector) (maxBytes : Nat) : Prop := text.length ≤ maxBytes ∧ WellFormed text

structure PostRef.Safe (ref : PostRef) : Prop where
  named : ref.author ≠ []
  author : TextWithin ref.author kMaxPostAuthorBytes
  seq : ref.seq ≠ 0

structure PostMedia.Safe (media : PostMedia) : Prop where
  named : media.mime ≠ []
  mime : TextWithin media.mime kMaxPostMimeBytes
  size : 0 < media.size.toNat ∧ media.size.toNat ≤ kMaxPostMediaObjectBytes
  alt : TextWithin media.alt kMaxPostAltBytes
  placeholder : media.placeholder.length ≤ kMaxPostPlaceholderBytes

/-- What a facet's value is, by the facet's type; an unknown type is any
text. -/
def PostFacet.ValueSafe (facet : PostFacet) : Prop :=
  if facet.type = kMention then facet.value ≠ [] ∧ TextWithin facet.value kMaxPostAuthorBytes
  else if facet.type = kLink then
    TextWithin facet.value kMaxPostLinkUrlBytes ∧ (stringBytes "https://").isPrefixOf facet.value = true
  else if facet.type = kHashtag then
    facet.value ≠ [] ∧ facet.value.head? ≠ some 35 ∧ TextWithin facet.value kMaxPostHashtagBytes
  else facet.type ≠ 0 ∧ TextWithin facet.value kMaxPostLinkUrlBytes

/-- A facet covers some of the text, from one character on up to another. -/
structure PostFacet.Covers (text : ByteVector) (facet : PostFacet) : Prop where
  nonempty : facet.start.toNat < facet.stop.toNat
  inside : facet.stop.toNat ≤ text.length
  start : Boundary text facet.start.toNat
  stop : Boundary text facet.stop.toNat
  value : PostFacet.ValueSafe facet

/-- Each facet covers text, after what the one before it covers. -/
structure FacetsSafe (text : ByteVector) (facets : List PostFacet) : Prop where
  each : ∀ facet ∈ facets, PostFacet.Covers text facet
  disjoint : facets.Pairwise fun a b => a.stop.toNat ≤ b.start.toNat

def TagToken (value : ByteVector) (maxBytes : Nat) (upper : Bool) : Prop :=
  value ≠ [] ∧ value.length ≤ maxBytes ∧ ∀ c ∈ value, isTagByte upper c = true

structure PostBody.Safe (body : PostBody) : Prop where
  text : TextWithin body.text kMaxPostTextBytes
  medias : body.media.length ≤ kMaxPostMedia
  media : ∀ media ∈ body.media, PostMedia.Safe media
  nonempty : body.text ≠ [] ∨ body.media ≠ []
  facets : FacetsSafe body.text body.facets
  fewFacets : body.facets.length ≤ kMaxPostFacets
  fewMentions : (body.facets.filter fun facet => facet.type = kMention).length ≤ kMaxPostMentions
  refs : ∀ ref ∈ refsOf body, PostRef.Safe ref
  warning : TextWithin body.contentWarning kMaxPostContentWarningBytes
  fewLabels : body.labels.length ≤ kMaxPostLabels
  labels : ∀ label ∈ body.labels, TagToken label kMaxPostLabelBytes false
  fewLanguages : body.languages.length ≤ kMaxPostLanguages
  languages : ∀ language ∈ body.languages, TagToken language kMaxPostLanguageBytes true

/-! ## The checks are the rules -/

theorem checkRef_iff {ref : PostRef} : checkRef ref = .ok () ↔ PostRef.Safe ref := by
  rw [checkRef, refuseIf_ok]
  simp only [not_or, not_not, isWellFormedUtf8_iff, Nat.not_lt, gt_iff_lt]
  constructor
  · rintro ⟨hnamed, hlength, htext, hseq⟩
    exact ⟨hnamed, ⟨hlength, htext⟩, hseq⟩
  · rintro ⟨hnamed, ⟨hlength, htext⟩, hseq⟩
    exact ⟨hnamed, hlength, htext, hseq⟩

theorem checkOwnRef_iff {ref : PostRef} {author : ByteVector} :
    checkOwnRef ref author = .ok () ↔ PostRef.Safe ref ∧ ref.author = author := by
  rw [checkOwnRef, roe_then_ok, checkRef_iff, refuseIf_ok, not_not]

theorem checkMedia_iff {media : PostMedia} : checkMedia media = .ok () ↔ PostMedia.Safe media := by
  rw [checkMedia, roe_then_ok, refuseIf_ok, refuseIf_ok]
  simp only [not_or, not_not, isUtf8Within_iff, Nat.not_lt, gt_iff_lt]
  have hzero : media.size = 0 ↔ media.size.toNat = 0 := by
    rw [← UInt64.toNat_inj]
    rfl
  rw [hzero]
  constructor
  · rintro ⟨⟨hnamed, hmime, hsize, hlarge⟩, halt, hplaceholder⟩
    exact ⟨hnamed, hmime, ⟨Nat.pos_of_ne_zero hsize, hlarge⟩, halt, hplaceholder⟩
  · rintro ⟨hnamed, hmime, ⟨hsize, hlarge⟩, halt, hplaceholder⟩
    exact ⟨⟨hnamed, hmime, by omega, hlarge⟩, halt, hplaceholder⟩

theorem checkFacetValue_iff {facet : PostFacet} : checkFacetValue facet = .ok () ↔ PostFacet.ValueSafe facet := by
  unfold checkFacetValue PostFacet.ValueSafe
  split_ifs with hmention hlink hhashtag
  all_goals
    rw [refuseIf_ok, not_not, isUtf8Within_iff]
    rfl

/-- From what is covered on, the loop takes just the facets that follow the
rules. -/
theorem checkFacetsFrom_iff {covered : Nat} : checkFacetsFrom text covered facets = .ok () ↔
      FacetsSafe text facets ∧ ∀ facet ∈ facets, covered ≤ facet.start.toNat := by
  induction facets generalizing covered with
  | nil => exact ⟨fun _ => ⟨⟨by simp, .nil⟩, by simp⟩, fun _ => rfl⟩
  | cons facet facets ih =>
    rw [checkFacetsFrom, roe_then_ok, roe_then_ok, refuseIf_ok, checkFacetValue_iff, ih]
    simp only [not_or, not_not, Nat.not_lt, gt_iff_lt, isUtf8Boundary_iff, ge_iff_le, UInt64.not_le,
      UInt64.lt_iff_toNat_lt]
    constructor
    · rintro ⟨⟨hcovered, hnonempty, hinside, hstart, hstop⟩, hvalue, ⟨heach, hdisjoint⟩, hafter⟩
      refine ⟨⟨?_, List.pairwise_cons.mpr ⟨hafter, hdisjoint⟩⟩, ?_⟩
      · intro g hg
        rcases List.mem_cons.mp hg with rfl | hg
        · exact ⟨hnonempty, hinside, hstart, hstop, hvalue⟩
        · exact heach g hg
      · intro g hg
        rcases List.mem_cons.mp hg with rfl | hg
        · exact hcovered
        · have := hafter g hg
          omega
    · rintro ⟨⟨heach, hdisjoint⟩, hcovered⟩
      obtain ⟨hnonempty, hinside, hstart, hstop, hvalue⟩ := heach facet List.mem_cons_self
      obtain ⟨hafter, hdisjoint⟩ := List.pairwise_cons.mp hdisjoint
      exact ⟨⟨hcovered facet List.mem_cons_self, hnonempty, hinside, hstart, hstop⟩, hvalue,
        ⟨fun g hg => heach g (List.mem_cons_of_mem _ hg), hdisjoint⟩, hafter⟩

theorem isTagToken_iff {value : ByteVector} {maxBytes : Nat} {upper : Bool} :
    isTagToken value maxBytes upper = true ↔ TagToken value maxBytes upper := by
  rw [isTagToken, Bool.and_eq_true, Bool.and_eq_true, decide_eq_true_iff, decide_eq_true_iff, List.all_eq_true,
    TagToken, and_assoc]

theorem checkPostFields_iff : checkPostFields body = .ok () ↔ PostBody.Safe body := by
  unfold checkPostFields checkFacets checkFilterFields
  simp only [roe_then_ok, refuseIf_ok, roe_forM_ok]
  simp only [not_or, not_and_or, not_not, Nat.not_lt, gt_iff_lt, isUtf8Within_iff, checkMedia_iff, checkRef_iff,
    checkFacetsFrom_iff, List.all_eq_true, isTagToken_iff]
  constructor
  · rintro ⟨htext, hmedias, hmedia, hnonempty, ⟨⟨hfacets, -⟩, hfew, hmentions⟩, hrefs, hwarning, ⟨hfewLabels, hlabels⟩,
      hfewLanguages, hlanguages⟩
    exact ⟨htext, hmedias, hmedia, hnonempty, hfacets, hfew, hmentions, hrefs, hwarning, hfewLabels, hlabels,
      hfewLanguages, hlanguages⟩
  · rintro ⟨htext, hmedias, hmedia, hnonempty, hfacets, hfew, hmentions, hrefs, hwarning, hfewLabels, hlabels,
      hfewLanguages, hlanguages⟩
    exact ⟨htext, hmedias, hmedia, hnonempty, ⟨⟨hfacets, fun _ _ => Nat.zero_le _⟩, hfew, hmentions⟩, hrefs, hwarning,
      ⟨hfewLabels, hlabels⟩, hfewLanguages, hlanguages⟩

/-! ## The pieces of a text -/

/-- Where the facets begin and end. -/
def facetCuts (facets : List PostFacet) : List Nat := facets.flatMap fun facet => [facet.start.toNat, facet.stop.toNat]

/-- The text cut where the facets begin and end. -/
def textPieces (body : PostBody) : List ByteVector := piecesFrom body.text 0 (facetCuts body.facets)

theorem le_of_mem_facetCuts {covered cut : Nat}
    (h : FacetsSafe text facets) (hcovered : ∀ facet ∈ facets, covered ≤ facet.start.toNat)
    (hcut : cut ∈ facetCuts facets) : covered ≤ cut := by
  obtain ⟨facet, hfacet, hcut⟩ := List.mem_flatMap.mp hcut
  have hstart := hcovered facet hfacet
  have hnonempty := (h.each facet hfacet).nonempty
  simp only [List.mem_cons, List.not_mem_nil, or_false] at hcut
  omega

theorem sorted_facetCuts (h : FacetsSafe text facets) : (facetCuts facets).Pairwise (· ≤ ·) := by
  induction facets with
  | nil => exact .nil
  | cons facet facets ih =>
    obtain ⟨hafter, hdisjoint⟩ := List.pairwise_cons.mp h.disjoint
    have hrest : FacetsSafe text facets := ⟨fun g hg => h.each g (List.mem_cons_of_mem _ hg), hdisjoint⟩
    have hnonempty := (h.each facet List.mem_cons_self).nonempty
    show (facet.start.toNat :: facet.stop.toNat :: facetCuts facets).Pairwise (· ≤ ·)
    rw [List.pairwise_cons, List.pairwise_cons]
    have hstop : ∀ cut ∈ facetCuts facets, facet.stop.toNat ≤ cut := fun cut =>
      le_of_mem_facetCuts hrest hafter
    refine ⟨?_, hstop, ih hrest⟩
    intro cut hcut
    rcases List.mem_cons.mp hcut with rfl | hcut
    · omega
    · have := hstop cut hcut
      omega

theorem boundary_facetCuts (h : FacetsSafe text facets) : ∀ cut ∈ facetCuts facets, Boundary text cut := by
  intro cut hcut
  obtain ⟨facet, hfacet, hcut⟩ := List.mem_flatMap.mp hcut
  simp only [List.mem_cons, List.not_mem_nil, or_false] at hcut
  rcases hcut with rfl | rfl
  · exact (h.each facet hfacet).start
  · exact (h.each facet hfacet).stop

theorem boundary_zero (h : WellFormed text) : Boundary text 0 := by
  obtain ⟨chars, rfl⟩ := h
  cases chars with
  | nil => exact .inl rfl
  | cons c chars =>
    obtain ⟨b, tail, hencode, hbegins, -⟩ := encode_shape c
    right
    exact ⟨b, by rw [List.flatMap_cons, hencode]; rfl, hbegins⟩

theorem textPieces_safe (h : PostBody.Safe body) :
    (textPieces body).flatten = body.text ∧ ∀ piece ∈ textPieces body, WellFormed piece := by
  have hsorted : (0 :: facetCuts body.facets).Pairwise (· ≤ ·) :=
    List.pairwise_cons.mpr ⟨fun _ _ => Nat.zero_le _, sorted_facetCuts h.facets⟩
  constructor
  · rw [textPieces, flatten_piecesFrom hsorted, List.drop_zero]
  · apply h.text.2.piecesFrom hsorted
    intro cut hcut
    rcases List.mem_cons.mp hcut with rfl | hcut
    · exact boundary_zero h.text.2
    · exact boundary_facetCuts h.facets cut hcut

/-! ## What passes -/

/-- A body that keeps the rules is read back as it was written. -/
theorem decodePostBody_encode (h : PostBody.Safe body) : decodePostBody (encodePostBody body) = .ok body := by
  have hfields := checkPostFields_iff.mpr h
  have hsized : Sized (writePost body).length := Nat.lt_of_le_of_lt (checkPostFields_length hfields) (by decide)
  have hwithin : PostBody.Within body := ⟨h.medias, h.fewFacets, h.fewLabels, h.fewLanguages⟩
  have hread := @Codec.get_put _ _ _ _ _ _ readPost_codec _ [] (writePost_fits hsized) hwithin
  rw [List.append_nil] at hread
  exact decode_ok.mpr hread

theorem decodeEditBody_encode {edit : EditBody} (htarget : PostRef.Safe edit.target)
    (h : PostBody.Safe edit.replacement) : decodeEditBody (encodeEditBody edit) = .ok edit := by
  have hfields := checkPostFields_iff.mpr h
  have hsized : Sized (writePost edit.replacement).length :=
    Nat.lt_of_le_of_lt (checkPostFields_length hfields) (by decide)
  have hshort : RefSized edit.target := Nat.lt_of_le_of_lt htarget.author.1 (by decide)
  have hwithin : PostBody.Within edit.replacement := ⟨h.medias, h.fewFacets, h.fewLabels, h.fewLanguages⟩
  have hread := @Codec.get_put _ _ _ _ _ _ readEdit_codec edit [] ⟨hshort, writePost_fits hsized⟩ hwithin
  rw [List.append_nil] at hread
  exact decode_ok.mpr hread

structure ReactBody.Safe (react : ReactBody) : Prop where
  named : react.reaction ≠ []
  reaction : TextWithin react.reaction kMaxPostReactionBytes
  target : PostRef.Safe react.target

theorem checkReact_iff : checkReact react = .ok () ↔ ReactBody.Safe react := by
  rw [checkReact, roe_then_ok, refuseIf_ok, checkRef_iff]
  simp only [not_or, not_not, isWellFormedUtf8_iff, Nat.not_lt, gt_iff_lt]
  constructor
  · rintro ⟨⟨hnamed, hlength, htext⟩, htarget⟩
    exact ⟨hnamed, ⟨hlength, htext⟩, htarget⟩
  · rintro ⟨hnamed, ⟨hlength, htext⟩, htarget⟩
    exact ⟨⟨hnamed, hlength, htext⟩, htarget⟩

theorem decodeReactBody_encode (h : ReactBody.Safe react) : decodeReactBody (encodeReactBody react) = .ok react := by
  have hshort : RefSized react.target := Nat.lt_of_le_of_lt h.target.author.1 (by decide)
  have hreaction : Sized react.reaction.length := Nat.lt_of_le_of_lt h.reaction.1 (by decide)
  have hread := @Codec.get_put _ _ _ _ _ _ readReact_codec react [] ⟨hshort, hreaction⟩ trivial
  rw [List.append_nil] at hread
  exact decode_ok.mpr hread

/-- What `CheckPostBody` takes as a post, an edit or a reaction is the
encoding of a body that keeps the rules, and every such body is taken; its
texts are shortest-form UTF-8, and its facets cut its text into well formed
pieces. -/
theorem checked_post_is_safe_to_show :
    (∀ text, isWellFormedUtf8 text = true ↔ WellFormed text) ∧
    (∀ bytes author, checkPostBody PostKind.post.byte bytes author = .ok () ↔
      ∃ body, decodePostBody bytes = .ok body ∧ PostBody.Safe body) ∧
    (∀ bytes author, checkPostBody PostKind.edit.byte bytes author = .ok () ↔
      ∃ edit, decodeEditBody bytes = .ok edit ∧ PostRef.Safe edit.target ∧ edit.target.author = author ∧
        PostBody.Safe edit.replacement) ∧
    (∀ bytes author, checkPostBody PostKind.react.byte bytes author = .ok () ↔
      ∃ react, decodeReactBody bytes = .ok react ∧ ReactBody.Safe react) ∧
    (∀ body author, PostBody.Safe body → checkPostBody PostKind.post.byte (encodePostBody body) author = .ok ()) ∧
    (∀ edit author, PostRef.Safe edit.target → edit.target.author = author → PostBody.Safe edit.replacement →
      checkPostBody PostKind.edit.byte (encodeEditBody edit) author = .ok ()) ∧
    (∀ react author, ReactBody.Safe react →
      checkPostBody PostKind.react.byte (encodeReactBody react) author = .ok ()) ∧
    ∀ body, PostBody.Safe body →
      (textPieces body).flatten = body.text ∧ ∀ piece ∈ textPieces body, WellFormed piece := by
  have hpost (bytes author : ByteVector) : checkPostBody PostKind.post.byte bytes author = .ok () ↔
      ∃ body, decodePostBody bytes = .ok body ∧ PostBody.Safe body := by
    show (decodePostBody bytes >>= checkPostFields) = .ok () ↔ _
    rw [roe_bind_ok]
    simp only [checkPostFields_iff]
  have hedit (bytes author : ByteVector) : checkPostBody PostKind.edit.byte bytes author = .ok () ↔
      ∃ edit, decodeEditBody bytes = .ok edit ∧ PostRef.Safe edit.target ∧ edit.target.author = author ∧
        PostBody.Safe edit.replacement := by
    show (decodeEditBody bytes >>= fun edit => do
      checkOwnRef edit.target author
      checkPostFields edit.replacement) = .ok () ↔ _
    rw [roe_bind_ok]
    simp only [roe_then_ok, checkOwnRef_iff, checkPostFields_iff, and_assoc]
  have hreact (bytes author : ByteVector) : checkPostBody PostKind.react.byte bytes author = .ok () ↔
      ∃ react, decodeReactBody bytes = .ok react ∧ ReactBody.Safe react := by
    show (decodeReactBody bytes >>= checkReact) = .ok () ↔ _
    rw [roe_bind_ok]
    simp only [checkReact_iff]
  refine ⟨isWellFormedUtf8_iff, hpost, hedit, hreact, ?_, ?_, ?_, fun body => textPieces_safe⟩
  · intro body author h
    exact (hpost _ author).mpr ⟨body, decodePostBody_encode h, h⟩
  · intro edit author htarget hown h
    exact (hedit _ author).mpr ⟨edit, decodeEditBody_encode htarget h, htarget, hown, h⟩
  · intro react author h
    exact (hreact _ author).mpr ⟨react, decodeReactBody_encode h, h⟩

end PostBodies

end Pbr
