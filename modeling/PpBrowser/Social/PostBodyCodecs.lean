import PpBrowser.Social.PostBodies

/-!
# PostBodyCodecs — every body is read as it was written

Each encoder and its reader are a codec, from the fields up. What the reader
takes past the sizes is the count of each list within its limit.
-/

namespace Pbr

open Lib PostWire

namespace PostBodies

/-! ## Rows and optional values -/

theorem admitted_any {α : Type} (last : Option α) (l : List α) : Codec.Admitted (fun _ _ => true) last l := by
  induction l generalizing last with
  | nil => trivial
  | cons a l ih => exact ⟨rfl, ih (some a)⟩

def RowsSized {α : Type} (fits : α → Prop) (l : List α) : Prop := Sized l.length ∧ ∀ a ∈ l, fits a

theorem readRows_codec {α : Type} {fits ok : α → Prop} {put : α → ByteVector} {get : Reader UInt8 α}
    (h : Codec fits ok put get) (limit : Nat → Bool) :
    Codec (RowsSized fits) (fun l => limit l.length ∧ ∀ a ∈ l, ok a)
      (fun l => putCount l.length ++ l.flatMap put) (readRows get limit) :=
  (count_codec.counted h (fun _ _ => true) limit).congr (fun _ => Iff.rfl)
    (fun l _ => ⟨fun hok => ⟨hok.1, hok.2, admitted_any none l⟩, fun hok => ⟨hok.1, hok.2.1⟩⟩) (fun _ => rfl) rfl

def OptionSized {α : Type} (fits : α → Prop) (o : Option α) : Prop := ∀ a, o = some a → fits a

theorem readOptional_codec {α : Type} {fits : α → Prop} {put : α → ByteVector} {get : Reader UInt8 α}
    (h : Codec fits Any put get) :
    Codec (OptionSized fits) Any (fun o => putBool o.isSome ++ o.elim [] put) (readOptional get) :=
  (bool_codec.optional h).congr (fun _ => Iff.rfl) (fun _ _ => ⟨fun _ _ _ => trivial, fun _ => trivial⟩)
    (fun _ => rfl) rfl

/-! ## Parts of a post -/

def StringSized (value : ByteVector) : Prop := Sized value.length

theorem readStrings_codec (maxCount : Nat) :
    Codec (RowsSized StringSized) (fun values => values.length ≤ maxCount) writeStrings (readStrings maxCount) :=
  (readRows_codec utf8_codec (· ≤ maxCount)).congr (fun _ => Iff.rfl) (fun _ _ => by simp) (fun _ => rfl) rfl

def PostMedia.IsSized (media : PostMedia) : Prop :=
  Sized media.mime.length ∧ Sized media.alt.length ∧ Sized media.placeholder.length

theorem readOneMedia_codec : Codec PostMedia.IsSized Any writeMedia readOneMedia := by
  have h := hash_codec.bind (P := PostMedia.IsSized) PostMedia.contentId (fun _ _ => trivial) fun contentId _ =>
    utf8_codec.bind PostMedia.mime (fun _ h => h.1.1) fun mime hmime =>
    u64_codec.bind PostMedia.size (fun _ _ => trivial) fun size _ =>
    utf8_codec.bind PostMedia.alt (fun _ h => h.1.1.1.2.1) fun alt halt =>
    u32_codec.bind PostMedia.width (fun _ _ => trivial) fun width _ =>
    u32_codec.bind PostMedia.height (fun _ _ => trivial) fun height _ =>
    u32_codec.bind PostMedia.durationMs (fun _ _ => trivial) fun durationMs _ =>
    bytes_codec.bind PostMedia.placeholder (fun _ h => h.1.1.1.1.1.1.1.2.2) fun placeholder hplaceholder =>
    Codec.done (c := (⟨contentId, mime, size, alt, width, height, durationMs, placeholder⟩ : PostMedia)) (by
      intro c
      constructor
      · rintro ⟨⟨⟨⟨⟨⟨⟨⟨-, rfl⟩, rfl⟩, rfl⟩, rfl⟩, rfl⟩, rfl⟩, rfl⟩, rfl⟩
        rfl
      · rintro rfl
        exact ⟨⟨⟨⟨⟨⟨⟨⟨⟨hmime, halt, hplaceholder⟩, rfl⟩, rfl⟩, rfl⟩, rfl⟩, rfl⟩, rfl⟩, rfl⟩, rfl⟩)
  exact h.congr (fun _ => Iff.rfl) (fun _ _ => by simp) (fun _ => by simp [writeMedia]) rfl

def PostFacet.IsSized (facet : PostFacet) : Prop := Sized facet.value.length

theorem readFacet_codec : Codec PostFacet.IsSized Any writeFacet readFacet := by
  have h := u64_codec.bind (P := PostFacet.IsSized) PostFacet.start (fun _ _ => trivial) fun start _ =>
    u64_codec.bind PostFacet.stop (fun _ _ => trivial) fun stop _ =>
    u8_codec.bind PostFacet.type (fun _ _ => trivial) fun type _ =>
    utf8_codec.bind PostFacet.value (fun _ h => h.1.1.1) fun value hvalue =>
    Codec.done (c := (⟨start, stop, type, value⟩ : PostFacet)) (by
      intro c
      constructor
      · rintro ⟨⟨⟨⟨-, rfl⟩, rfl⟩, rfl⟩, rfl⟩
        rfl
      · rintro rfl
        exact ⟨⟨⟨⟨hvalue, rfl⟩, rfl⟩, rfl⟩, rfl⟩)
  exact h.congr (fun _ => Iff.rfl) (fun _ _ => by simp) (fun _ => by simp [writeFacet]) rfl

def PostReply.IsSized (reply : PostReply) : Prop := RefSized reply.root ∧ RefSized reply.parent

theorem readReply_codec : Codec PostReply.IsSized Any writeReply readReply := by
  have h := ref_codec.bind (P := PostReply.IsSized) PostReply.root (fun _ h => h.1) fun root hroot =>
    ref_codec.bind PostReply.parent (fun _ h => h.1.2) fun parent hparent =>
    Codec.done (c := (⟨root, parent⟩ : PostReply)) (by
      intro c
      constructor
      · rintro ⟨⟨-, rfl⟩, rfl⟩
        rfl
      · rintro rfl
        exact ⟨⟨⟨hroot, hparent⟩, rfl⟩, rfl⟩)
  exact h.congr (fun _ => Iff.rfl) (fun _ _ => by simp) (fun _ => by simp [writeReply]) rfl

/-! ## Bodies -/

structure PostBody.IsSized (body : PostBody) : Prop where
  text : Sized body.text.length
  media : RowsSized PostMedia.IsSized body.media
  facets : RowsSized PostFacet.IsSized body.facets
  reply : OptionSized PostReply.IsSized body.reply
  quote : OptionSized RefSized body.quote
  contentWarning : Sized body.contentWarning.length
  labels : RowsSized StringSized body.labels
  languages : RowsSized StringSized body.languages

/-- Each list within its limit. -/
def PostBody.Within (body : PostBody) : Prop :=
  body.media.length ≤ kMaxPostMedia ∧ body.facets.length ≤ kMaxPostFacets ∧
    body.labels.length ≤ kMaxPostLabels ∧ body.languages.length ≤ kMaxPostLanguages

theorem readPost_codec : Codec PostBody.IsSized PostBody.Within writePost readPost := by
  have h := utf8_codec.bind (P := PostBody.IsSized) PostBody.text (fun _ h => h.text) fun text htext =>
    (readRows_codec readOneMedia_codec (· ≤ kMaxPostMedia)).bind PostBody.media (fun _ h => h.1.media)
      fun media hmedia =>
    (readRows_codec readFacet_codec (· ≤ kMaxPostFacets)).bind PostBody.facets (fun _ h => h.1.1.facets)
      fun facets hfacets =>
    (readOptional_codec readReply_codec).bind PostBody.reply (fun _ h => h.1.1.1.reply) fun reply hreply =>
    (readOptional_codec ref_codec).bind PostBody.quote (fun _ h => h.1.1.1.1.quote) fun quote hquote =>
    utf8_codec.bind PostBody.contentWarning (fun _ h => h.1.1.1.1.1.contentWarning) fun warning hwarning =>
    (readStrings_codec kMaxPostLabels).bind PostBody.labels (fun _ h => h.1.1.1.1.1.1.labels) fun labels hlabels =>
    (readStrings_codec kMaxPostLanguages).bind PostBody.languages (fun _ h => h.1.1.1.1.1.1.1.languages)
      fun languages hlanguages =>
    Codec.done (c := (⟨text, media, facets, reply, quote, warning, labels, languages⟩ : PostBody)) (by
      intro c
      constructor
      · rintro ⟨⟨⟨⟨⟨⟨⟨⟨-, rfl⟩, rfl⟩, rfl⟩, rfl⟩, rfl⟩, rfl⟩, rfl⟩, rfl⟩
        rfl
      · rintro rfl
        exact ⟨⟨⟨⟨⟨⟨⟨⟨⟨htext, hmedia, hfacets, hreply, hquote, hwarning, hlabels, hlanguages⟩, rfl⟩, rfl⟩, rfl⟩, rfl⟩,
          rfl⟩, rfl⟩, rfl⟩, rfl⟩)
  exact h.congr (fun _ => Iff.rfl) (fun _ _ => by simp [PostBody.Within]) (fun _ => by simp [writePost]) rfl

def EditBody.IsSized (body : EditBody) : Prop := RefSized body.target ∧ PostBody.IsSized body.replacement

theorem readEdit_codec :
    Codec EditBody.IsSized (fun body => PostBody.Within body.replacement) encodeEditBody readEdit := by
  have h := ref_codec.bind (P := EditBody.IsSized) EditBody.target (fun _ h => h.1) fun target htarget =>
    readPost_codec.bind EditBody.replacement (fun _ h => h.1.2) fun replacement hreplacement =>
    Codec.done (c := (⟨target, replacement⟩ : EditBody)) (by
      intro c
      constructor
      · rintro ⟨⟨-, rfl⟩, rfl⟩
        rfl
      · rintro rfl
        exact ⟨⟨⟨htarget, hreplacement⟩, rfl⟩, rfl⟩)
  exact h.congr (fun _ => Iff.rfl) (fun _ _ => by simp) (fun _ => by simp [encodeEditBody]) rfl

theorem readTarget_codec : Codec (fun body => RefSized body.target) Any encodeTargetBody readTarget :=
  ref_codec.map TargetBody.target TargetBody.mk (fun _ => rfl) fun _ _ => rfl

def ReactBody.IsSized (body : ReactBody) : Prop := RefSized body.target ∧ Sized body.reaction.length

theorem readReact_codec : Codec ReactBody.IsSized Any encodeReactBody readReact := by
  have h := ref_codec.bind (P := ReactBody.IsSized) ReactBody.target (fun _ h => h.1) fun target htarget =>
    utf8_codec.bind ReactBody.reaction (fun _ h => h.1.2) fun reaction hreaction =>
    Codec.done (c := (⟨target, reaction⟩ : ReactBody)) (by
      intro c
      constructor
      · rintro ⟨⟨-, rfl⟩, rfl⟩
        rfl
      · rintro rfl
        exact ⟨⟨⟨htarget, hreaction⟩, rfl⟩, rfl⟩)
  exact h.congr (fun _ => Iff.rfl) (fun _ _ => by simp) (fun _ => by simp [encodeReactBody]) rfl

def PostService.IsSized (service : PostService) : Prop := Sized service.kind.length ∧ Sized service.terms.length

theorem readService_codec : Codec PostService.IsSized Any writeService readService := by
  have h := utf8_codec.bind (P := PostService.IsSized) PostService.kind (fun _ h => h.1) fun kind hkind =>
    utf8_codec.bind PostService.terms (fun _ h => h.1.2) fun terms hterms =>
    Codec.done (c := (⟨kind, terms⟩ : PostService)) (by
      intro c
      constructor
      · rintro ⟨⟨-, rfl⟩, rfl⟩
        rfl
      · rintro rfl
        exact ⟨⟨⟨hkind, hterms⟩, rfl⟩, rfl⟩)
  exact h.congr (fun _ => Iff.rfl) (fun _ _ => by simp) (fun _ => by simp [writeService]) rfl

structure ProfileBody.IsSized (body : ProfileBody) : Prop where
  displayName : Sized body.displayName.length
  bio : Sized body.bio.length
  services : RowsSized PostService.IsSized body.services

theorem readProfile_codec :
    Codec ProfileBody.IsSized (fun body => body.services.length ≤ kMaxPostServices) encodeProfileBody readProfile := by
  have h := utf8_codec.bind (P := ProfileBody.IsSized) ProfileBody.displayName (fun _ h => h.displayName)
      fun displayName hname =>
    utf8_codec.bind ProfileBody.bio (fun _ h => h.1.bio) fun bio hbio =>
    (readOptional_codec hash_codec).bind ProfileBody.avatar (fun _ _ _ _ => trivial) fun avatar _ =>
    (readRows_codec readService_codec (· ≤ kMaxPostServices)).bind ProfileBody.services (fun _ h => h.1.1.1.services)
      fun services hservices =>
    Codec.done (c := (⟨displayName, bio, avatar, services⟩ : ProfileBody)) (by
      intro c
      constructor
      · rintro ⟨⟨⟨⟨-, rfl⟩, rfl⟩, rfl⟩, rfl⟩
        rfl
      · rintro rfl
        exact ⟨⟨⟨⟨⟨hname, hbio, hservices⟩, rfl⟩, rfl⟩, rfl⟩, rfl⟩)
  exact h.congr (fun _ => Iff.rfl) (fun _ _ => by simp) (fun _ => by simp [encodeProfileBody]) rfl

theorem readLaneClose_codec : Codec Any Any encodeLaneCloseBody readLaneClose := by
  have h := lane_codec.bind (P := Any) LaneCloseBody.lane (fun _ _ => trivial) fun lane _ =>
    u64_codec.bind LaneCloseBody.lastSeq (fun _ _ => trivial) fun lastSeq _ =>
    Codec.done (c := (⟨lane, lastSeq⟩ : LaneCloseBody)) (by
      intro c
      constructor
      · rintro ⟨⟨-, rfl⟩, rfl⟩
        rfl
      · rintro rfl
        exact ⟨⟨trivial, rfl⟩, rfl⟩)
  exact h.congr (fun _ => Iff.rfl) (fun _ _ => by simp) (fun _ => by simp [encodeLaneCloseBody]) rfl

theorem readDisavow_codec : Codec (fun body => RowsSized RefSized body.targets)
      (fun body => body.targets.length ≠ 0 ∧ body.targets.length ≤ kMaxPostEntryBytes / 65)
      encodeDisavowBody readDisavow :=
  ((readRows_codec ref_codec fun count => count ≠ 0 && count ≤ kMaxPostEntryBytes / 65).map
    DisavowBody.targets DisavowBody.mk (fun _ => rfl) fun _ _ => rfl).congr (fun _ => Iff.rfl)
    (fun _ _ => by simp) (fun _ => rfl) rfl

end PostBodies

/-! ## One encoding of each body -/

namespace PostBodies

/-! ## Lengths

What is checked is short, and what is short fits: its counts and lengths are
those of the values it was written from. -/

theorem putUtf8_length (value : ByteVector) : (putUtf8 value).length = 8 + value.length := by
  rw [putUtf8, putBytes, List.length_append, putCount, putUint, length_bigEndian]

theorem putRef_length (value : PostRef) : (putRef value).length = 64 + value.author.length := by
  have hlane : (putLane value.lane).length = 16 := value.lane.property
  have hhash : (putHash value.entryHash).length = 32 := value.entryHash.property
  rw [putRef, List.length_append, List.length_append, List.length_append, putUtf8_length, hlane, hhash, putU64, putUint,
    length_bigEndian]
  omega

variable {α : Type} {read : Reader UInt8 α} {what : String} {l : List α} {service : PostService}
  {media : PostMedia} {facet : PostFacet}

theorem flatMap_length_le {put : α → ByteVector} {bound : Nat}
    (h : ∀ a ∈ l, (put a).length ≤ bound) : (l.flatMap put).length ≤ l.length * bound := by
  induction l with
  | nil => simp
  | cons a l ih =>
    have ha := h a List.mem_cons_self
    have hl := ih fun b hb => h b (List.mem_cons_of_mem _ hb)
    rw [List.flatMap_cons, List.length_append, List.length_cons, Nat.add_mul]
    omega

theorem length_le_flatMap {put : α → ByteVector} {a : α} (h : a ∈ l) : (put a).length ≤ (l.flatMap put).length := by
  obtain ⟨before, after, rfl⟩ := List.append_of_mem h
  simp only [List.flatMap_append, List.flatMap_cons, List.length_append]
  omega

theorem rows_le_flatMap {put : α → ByteVector} (hput : ∀ a, 0 < (put a).length) (l : List α) :
    l.length ≤ (l.flatMap put).length := by
  induction l with
  | nil => simp
  | cons a l ih =>
    have ha := hput a
    rw [List.flatMap_cons, List.length_append, List.length_cons]
    omega

def rowsLength {α : Type} (put : α → ByteVector) (l : List α) : Nat := (putCount l.length ++ l.flatMap put).length

theorem rowsLength_le {put : α → ByteVector} {rows bound : Nat} (hrows : l.length ≤ rows)
    (h : ∀ a ∈ l, (put a).length ≤ bound) : rowsLength put l ≤ 8 + rows * bound := by
  have hle := flatMap_length_le h
  have hmul : l.length * bound ≤ rows * bound := Nat.mul_le_mul_right _ hrows
  rw [rowsLength, List.length_append, putCount, putUint, length_bigEndian]
  omega

theorem rowsSized_of_length {fits : α → Prop} {put : α → ByteVector}
    (h : Sized (rowsLength put l)) (hput : ∀ a, 0 < (put a).length) (hfits : ∀ a, Sized (put a).length → fits a) :
    RowsSized fits l := by
  rw [rowsLength, List.length_append] at h
  constructor
  · have hle := rows_le_flatMap hput l
    unfold Sized at h ⊢
    omega
  · intro a ha
    have hle : (put a).length ≤ (l.flatMap put).length := length_le_flatMap ha
    apply hfits
    unfold Sized at h ⊢
    omega

/-! ## What a check leaves -/

theorem utf8Within_length {text : ByteVector} {maxBytes : Nat} (h : isUtf8Within text maxBytes) :
    text.length ≤ maxBytes := by
  rw [isUtf8Within, Bool.and_eq_true, decide_eq_true_iff] at h
  exact h.1

theorem tagToken_length {value : ByteVector} {maxBytes : Nat} {upper : Bool} (h : isTagToken value maxBytes upper) :
    value.length ≤ maxBytes := by
  rw [isTagToken, Bool.and_eq_true, Bool.and_eq_true, decide_eq_true_iff, decide_eq_true_iff] at h
  exact h.1.2

theorem checkRef_length {ref : PostRef} (h : checkRef ref = .ok ()) : (putRef ref).length ≤ 192 := by
  have hrefused := refuseIf_ok.mp h
  simp only [not_or, not_lt, gt_iff_lt, kMaxPostAuthorBytes] at hrefused
  rw [putRef_length]
  omega

theorem checkOwnRef_length {ref : PostRef} {author : ByteVector} (h : checkOwnRef ref author = .ok ()) :
    (putRef ref).length ≤ 192 := by
  obtain ⟨_, href, -⟩ := roe_bind_ok.mp h
  exact checkRef_length href

theorem checkMedia_length (h : checkMedia media = .ok ()) : (writeMedia media).length ≤ 1260 := by
  obtain ⟨_, hnamed, h⟩ := roe_bind_ok.mp h
  have hnamed := refuseIf_ok.mp hnamed
  have hshort := refuseIf_ok.mp h
  simp only [not_or, not_not] at hnamed hshort
  have hmime := utf8Within_length hnamed.2.1
  have halt := utf8Within_length hshort.1
  have hhash : (putHash media.contentId).length = 32 := media.contentId.property
  have hplaceholder : (putBytes media.placeholder).length = 8 + media.placeholder.length := putUtf8_length _
  simp only [kMaxPostMimeBytes, kMaxPostAltBytes, kMaxPostPlaceholderBytes] at hmime halt hshort
  simp only [writeMedia, List.length_append, putUtf8_length, hhash, hplaceholder, putU64, putU32, putUint,
    length_bigEndian]
  omega

theorem checkFacetValue_length (h : checkFacetValue facet = .ok ()) : (writeFacet facet).length ≤ 537 := by
  have hvalue : facet.value.length ≤ 512 := by
    unfold checkFacetValue at h
    split_ifs at h
    all_goals
      have hadmitted := not_not.mp (refuseIf_ok.mp h)
    · exact (utf8Within_length hadmitted.2).trans (by decide)
    · exact utf8Within_length hadmitted.1
    · exact (utf8Within_length hadmitted.2.2).trans (by decide)
    · exact utf8Within_length hadmitted.2
  simp only [writeFacet, List.length_append, putUtf8_length, putU64, putUint, putU8, length_bigEndian,
    List.length_singleton]
  omega

theorem checkFacetsFrom_mem {text : ByteVector} {facets : List PostFacet} {covered : Nat}
    (h : checkFacetsFrom text covered facets = .ok ()) : ∀ facet ∈ facets, checkFacetValue facet = .ok () := by
  induction facets generalizing covered with
  | nil => simp
  | cons facet facets ih =>
    obtain ⟨_, -, h⟩ := roe_bind_ok.mp h
    obtain ⟨_, hfirst, hrest⟩ := roe_bind_ok.mp h
    intro other hmem
    rcases List.mem_cons.mp hmem with rfl | hmem
    · exact hfirst
    · exact ih hrest other hmem

theorem option_length_le {put : α → ByteVector} {o : Option α} {bound : Nat}
    (h : ∀ a, o = some a → (put a).length ≤ bound) : (putBool o.isSome ++ o.elim [] put).length ≤ 1 + bound := by
  cases o with
  | none => simp [putBool]
  | some a =>
    have ha := h a rfl
    rw [Option.elim_some, List.length_append, putBool, List.length_singleton]
    omega

theorem writePost_length (body : PostBody) : (writePost body).length =
    8 + body.text.length + rowsLength writeMedia body.media + rowsLength writeFacet body.facets +
      (putBool body.reply.isSome ++ body.reply.elim [] writeReply).length +
      (putBool body.quote.isSome ++ body.quote.elim [] putRef).length + (8 + body.contentWarning.length) +
      rowsLength putUtf8 body.labels + rowsLength putUtf8 body.languages := by
  simp only [writePost, writeStrings, rowsLength, List.length_append, putUtf8_length]

theorem checkPostFields_length {body : PostBody} (h : checkPostFields body = .ok ()) :
    (writePost body).length ≤ 2 ^ 15 := by
  obtain ⟨_, htext, h⟩ := roe_bind_ok.mp h
  obtain ⟨_, hmedia, h⟩ := roe_bind_ok.mp h
  obtain ⟨_, hmedium, h⟩ := roe_bind_ok.mp h
  obtain ⟨_, -, h⟩ := roe_bind_ok.mp h
  obtain ⟨_, hfacets, h⟩ := roe_bind_ok.mp h
  obtain ⟨_, hrefs, hfilter⟩ := roe_bind_ok.mp h
  obtain ⟨_, hfacet, hcount⟩ := roe_bind_ok.mp hfacets
  have htext := utf8Within_length (not_not.mp (refuseIf_ok.mp htext))
  have hmediaRows : rowsLength writeMedia body.media ≤ 8 + kMaxPostMedia * 1260 :=
    rowsLength_le (not_lt.mp (refuseIf_ok.mp hmedia)) fun media hmem =>
      checkMedia_length (roe_forM_ok.mp hmedium media hmem)
  have hfacetRows : rowsLength writeFacet body.facets ≤ 8 + kMaxPostFacets * 537 := by
    have hfew := not_or.mp (refuseIf_ok.mp hcount)
    exact rowsLength_le (not_lt.mp hfew.1) fun facet hmem =>
      checkFacetValue_length (checkFacetsFrom_mem hfacet facet hmem)
  have hrefs := roe_forM_ok.mp hrefs
  have hreply : (putBool body.reply.isSome ++ body.reply.elim [] writeReply).length ≤ 1 + 384 := by
    apply option_length_le
    intro reply hsome
    have hroot := checkRef_length (hrefs reply.root (by simp [refsOf, hsome]))
    have hparent := checkRef_length (hrefs reply.parent (by simp [refsOf, hsome]))
    rw [writeReply, List.length_append]
    omega
  have hquote : (putBool body.quote.isSome ++ body.quote.elim [] putRef).length ≤ 1 + 192 := by
    apply option_length_le
    intro quote hsome
    exact checkRef_length (hrefs quote (by simp [refsOf, hsome]))
  obtain ⟨_, hwarning, hfilter⟩ := roe_bind_ok.mp hfilter
  obtain ⟨_, hlabel, hlanguage⟩ := roe_bind_ok.mp hfilter
  have hwarning := utf8Within_length (not_not.mp (refuseIf_ok.mp hwarning))
  have hlabel := not_or.mp (refuseIf_ok.mp hlabel)
  have hlanguage := not_or.mp (refuseIf_ok.mp hlanguage)
  have hlabels : rowsLength putUtf8 body.labels ≤ 8 + kMaxPostLabels * 40 := by
    apply rowsLength_le (not_lt.mp hlabel.1)
    intro label hmem
    have hlength := tagToken_length (List.all_eq_true.mp (not_not.mp hlabel.2) label hmem)
    rw [kMaxPostLabelBytes] at hlength
    rw [putUtf8_length]
    omega
  have hlanguages : rowsLength putUtf8 body.languages ≤ 8 + kMaxPostLanguages * 43 := by
    apply rowsLength_le (not_lt.mp hlanguage.1)
    intro language hmem
    have hlength := tagToken_length (List.all_eq_true.mp (not_not.mp hlanguage.2) language hmem)
    rw [kMaxPostLanguageBytes] at hlength
    rw [putUtf8_length]
    omega
  have hlength := writePost_length body
  rw [kMaxPostTextBytes] at htext
  rw [kMaxPostMedia] at hmediaRows
  rw [kMaxPostFacets] at hfacetRows
  rw [kMaxPostContentWarningBytes] at hwarning
  rw [kMaxPostLabels] at hlabels
  rw [kMaxPostLanguages] at hlanguages
  omega

/-! ## What is short fits -/

theorem putUtf8_fits {value : ByteVector} (h : Sized (putUtf8 value).length) : Sized value.length := by
  rw [putUtf8_length] at h
  exact Nat.lt_of_le_of_lt (Nat.le_add_left _ _) h

theorem putRef_fits {value : PostRef} (h : Sized (putRef value).length) : RefSized value := by
  rw [putRef_length] at h
  exact Nat.lt_of_le_of_lt (Nat.le_add_left _ _) h

/-- A part of what is short is short. -/
theorem sized_part {n m : Nat} (h : Sized m) (hle : n ≤ m) : Sized n := Nat.lt_of_le_of_lt hle h

theorem writeMedia_fits (h : Sized (writeMedia media).length) : PostMedia.IsSized media := by
  have hplaceholder : (putBytes media.placeholder).length = 8 + media.placeholder.length := putUtf8_length _
  simp only [writeMedia, List.length_append, putUtf8_length, hplaceholder] at h
  exact ⟨sized_part h (by omega), sized_part h (by omega), sized_part h (by omega)⟩

theorem writeFacet_fits (h : Sized (writeFacet facet).length) : PostFacet.IsSized facet := by
  simp only [writeFacet, List.length_append, putUtf8_length] at h
  exact sized_part h (by omega)

theorem writeReply_fits {reply : PostReply} (h : Sized (writeReply reply).length) : PostReply.IsSized reply := by
  simp only [writeReply, List.length_append] at h
  exact ⟨putRef_fits (sized_part h (by omega)), putRef_fits (sized_part h (by omega))⟩

theorem writeService_fits (h : Sized (writeService service).length) : PostService.IsSized service := by
  simp only [writeService, List.length_append, putUtf8_length] at h
  exact ⟨sized_part h (by omega), sized_part h (by omega)⟩

theorem option_fits {fits : α → Prop} {put : α → ByteVector} {o : Option α}
    (h : Sized (putBool o.isSome ++ o.elim [] put).length) (hfits : ∀ a, Sized (put a).length → fits a) :
    OptionSized fits o := by
  rintro a rfl
  rw [List.length_append, Option.elim_some] at h
  exact hfits a (sized_part h (by omega))

theorem strings_fit {values : List ByteVector} (h : Sized (writeStrings values).length) :
    RowsSized StringSized values :=
  rowsSized_of_length h (fun value => by rw [putUtf8_length]; omega) fun _ => putUtf8_fits

theorem writeMedia_pos (media : PostMedia) : 0 < (writeMedia media).length := by
  simp only [writeMedia, List.length_append, putUtf8_length]
  omega

theorem writeFacet_pos (facet : PostFacet) : 0 < (writeFacet facet).length := by
  simp only [writeFacet, List.length_append, putUtf8_length]
  omega

theorem writeService_pos (service : PostService) : 0 < (writeService service).length := by
  simp only [writeService, List.length_append, putUtf8_length]
  omega

theorem putRef_pos (value : PostRef) : 0 < (putRef value).length := by
  rw [putRef_length]
  omega

theorem writePost_fits {body : PostBody} (h : Sized (writePost body).length) : PostBody.IsSized body := by
  rw [writePost_length] at h
  have hmedia : Sized (rowsLength writeMedia body.media) := sized_part h (by omega)
  have hfacets : Sized (rowsLength writeFacet body.facets) := sized_part h (by omega)
  have hreply : Sized (putBool body.reply.isSome ++ body.reply.elim [] writeReply).length := sized_part h (by omega)
  have hquote : Sized (putBool body.quote.isSome ++ body.quote.elim [] putRef).length := sized_part h (by omega)
  have hlabels : Sized (rowsLength putUtf8 body.labels) := sized_part h (by omega)
  have hlanguages : Sized (rowsLength putUtf8 body.languages) := sized_part h (by omega)
  constructor
  · exact sized_part h (by omega)
  · exact rowsSized_of_length hmedia writeMedia_pos fun _ => writeMedia_fits
  · exact rowsSized_of_length hfacets writeFacet_pos fun _ => writeFacet_fits
  · exact option_fits hreply fun _ => writeReply_fits
  · exact option_fits hquote fun _ => putRef_fits
  · exact sized_part h (by omega)
  · exact strings_fit hlabels
  · exact strings_fit hlanguages

/-! ## One form of each body -/

theorem decode_ok {bytes : ByteVector} {value : α} :
    decode read what bytes = .ok value ↔ read bytes = some (value, []) := by
  unfold decode
  split
  next a h =>
    rw [h]
    simp
  next h =>
    constructor
    · intro herror
      cases herror
    · intro hread
      exact absurd hread (h value)

theorem encode_decoded {fits ok : α → Prop} {put : α → ByteVector}
    (h : Codec fits ok put read) {bytes : ByteVector} {value : α} (hread : decode read what bytes = .ok value) :
    put value = bytes := by
  obtain ⟨-, -, hbytes⟩ := h.put_get (decode_ok.mp hread)
  rwa [List.append_nil] at hbytes

/-- What passes a check that only short bodies pass is decoded as it was. -/
theorem decode_encoded {fits ok : α → Prop} {put : α → ByteVector} {check : α → Roe Unit} (h : Codec fits ok put read)
    (hshort : ∀ {a}, ok a → check a = .ok () → (put a).length ≤ 2 ^ 20) (hfits : ∀ {a}, Sized (put a).length → fits a) {a : α}
    (hchecked : (decode read what (put a) >>= check) = .ok ()) : decode read what (put a) = .ok a := by
  obtain ⟨b, hdecode, hcheck⟩ := roe_bind_ok.mp hchecked
  obtain ⟨-, hok, -⟩ := h.put_get (decode_ok.mp hdecode)
  have hput := encode_decoded h hdecode
  have hsized : Sized (put a).length := by
    rw [← hput]
    exact Nat.lt_of_le_of_lt (hshort hok hcheck) (by decide)
  obtain ⟨rfl, -⟩ := h.eq_of_get (hfits hsized) (decode_ok.mp hdecode)
  exact hdecode

/-- Bodies of a kind: a checked one is decoded as it was encoded, and what is
decoded was encoded just so. -/
structure OneForm {α : Type} (kind : UInt8) (encode : α → ByteVector) (decode : ByteVector → Roe α) : Prop where
  decode_encode : ∀ body author, checkPostBody kind (encode body) author = .ok () → decode (encode body) = .ok body
  encode_decode : ∀ bytes body, decode bytes = .ok body → encode body = bytes

theorem post_oneForm : OneForm PostKind.post.byte encodePostBody decodePostBody where
  decode_encode _ _ h :=
    decode_encoded readPost_codec (fun _ hcheck => (checkPostFields_length hcheck).trans (by decide)) writePost_fits h
  encode_decode _ _ h := encode_decoded readPost_codec h

theorem edit_oneForm : OneForm PostKind.edit.byte encodeEditBody decodeEditBody where
  decode_encode body author h := by
    apply decode_encoded readEdit_codec ?_ ?_ h
    · intro edit _ hcheck
      obtain ⟨_, htarget, hfields⟩ := roe_bind_ok.mp hcheck
      have htarget := checkOwnRef_length htarget
      have hfields := checkPostFields_length hfields
      rw [encodeEditBody, List.length_append]
      omega
    · intro edit hsized
      rw [encodeEditBody, List.length_append] at hsized
      exact ⟨putRef_fits (sized_part hsized (by omega)), writePost_fits (sized_part hsized (by omega))⟩
  encode_decode _ _ h := encode_decoded readEdit_codec h

theorem delete_oneForm : OneForm PostKind.delete.byte encodeTargetBody decodeTargetBody where
  decode_encode _ _ h :=
    decode_encoded readTarget_codec (fun _ hcheck => (checkOwnRef_length hcheck).trans (by decide)) putRef_fits h
  encode_decode _ _ h := encode_decoded readTarget_codec h

theorem repost_oneForm : OneForm PostKind.repost.byte encodeTargetBody decodeTargetBody where
  decode_encode _ _ h :=
    decode_encoded readTarget_codec (fun _ hcheck => (checkRef_length hcheck).trans (by decide)) putRef_fits h
  encode_decode _ _ h := encode_decoded readTarget_codec h

theorem react_oneForm : OneForm PostKind.react.byte encodeReactBody decodeReactBody where
  decode_encode body author h := by
    apply decode_encoded readReact_codec ?_ ?_ h
    · intro react _ hcheck
      obtain ⟨_, hreaction, htarget⟩ := roe_bind_ok.mp hcheck
      have hreaction := refuseIf_ok.mp hreaction
      have htarget := checkRef_length htarget
      simp only [not_or, not_lt, gt_iff_lt, kMaxPostReactionBytes] at hreaction
      rw [encodeReactBody, List.length_append, putUtf8_length]
      omega
    · intro react hsized
      rw [encodeReactBody, List.length_append] at hsized
      exact ⟨putRef_fits (sized_part hsized (by omega)), putUtf8_fits (sized_part hsized (by omega))⟩
  encode_decode _ _ h := encode_decoded readReact_codec h

theorem encodeProfileBody_length (body : ProfileBody) : (encodeProfileBody body).length =
    8 + body.displayName.length + (8 + body.bio.length) +
      (putBool body.avatar.isSome ++ body.avatar.elim [] putHash).length + rowsLength writeService body.services := by
  simp only [encodeProfileBody, rowsLength, List.length_append, putUtf8_length]

theorem checkService_length (h : checkService service = .ok ()) : (writeService service).length ≤ 1104 := by
  have hshort := refuseIf_ok.mp h
  simp only [not_or, not_lt, gt_iff_lt, kMaxPostServiceKindBytes, kMaxPostServiceTermsBytes] at hshort
  rw [writeService, List.length_append, putUtf8_length, putUtf8_length]
  omega

theorem checkProfile_length {profile : ProfileBody} (hcount : profile.services.length ≤ kMaxPostServices)
    (h : checkProfile profile = .ok ()) : (encodeProfileBody profile).length ≤ 2 ^ 15 := by
  obtain ⟨_, hfields, hservices⟩ := roe_bind_ok.mp h
  have hfields := refuseIf_ok.mp hfields
  simp only [not_or, not_lt, gt_iff_lt, kMaxPostDisplayNameBytes, kMaxPostBioBytes] at hfields
  have hrows : rowsLength writeService profile.services ≤ 8 + kMaxPostServices * 1104 :=
    rowsLength_le hcount fun service hmem => checkService_length (roe_forM_ok.mp hservices service hmem)
  have havatar : (putBool profile.avatar.isSome ++ profile.avatar.elim [] putHash).length ≤ 1 + 32 :=
    option_length_le fun avatar _ => Nat.le_of_eq avatar.property
  rw [kMaxPostServices] at hrows
  rw [encodeProfileBody_length]
  omega

theorem profile_oneForm : OneForm PostKind.profile.byte encodeProfileBody decodeProfileBody where
  decode_encode body author h := by
    apply decode_encoded readProfile_codec ?_ ?_ h
    · intro profile hcount hcheck
      exact (checkProfile_length hcount hcheck).trans (by decide)
    · intro profile hsized
      rw [encodeProfileBody_length] at hsized
      have hservices : Sized (rowsLength writeService profile.services) := sized_part hsized (by omega)
      constructor
      · exact sized_part hsized (by omega)
      · exact sized_part hsized (by omega)
      · exact rowsSized_of_length hservices writeService_pos fun _ => writeService_fits
  encode_decode _ _ h := encode_decoded readProfile_codec h

theorem laneClose_oneForm : OneForm PostKind.laneClose.byte encodeLaneCloseBody decodeLaneCloseBody where
  decode_encode body _ _ := by
    have hread : readLaneClose (encodeLaneCloseBody body ++ []) = some (body, []) :=
      readLaneClose_codec.get_put trivial trivial
    rw [List.append_nil] at hread
    exact decode_ok.mpr hread
  encode_decode _ _ h := encode_decoded readLaneClose_codec h

theorem disavow_oneForm : OneForm PostKind.disavow.byte encodeDisavowBody decodeDisavowBody where
  decode_encode body author h := by
    apply decode_encoded readDisavow_codec ?_ ?_ h
    · intro disavow hcount hcheck
      have hrows : rowsLength putRef disavow.targets ≤ 8 + kMaxPostEntryBytes / 65 * 192 :=
        rowsLength_le hcount.2 fun ref hmem => checkOwnRef_length (roe_forM_ok.mp hcheck ref hmem)
      exact hrows.trans (by decide)
    · intro disavow hsized
      exact rowsSized_of_length hsized putRef_pos fun _ => putRef_fits
  encode_decode _ _ h := encode_decoded readDisavow_codec h

end PostBodies

end Pbr
