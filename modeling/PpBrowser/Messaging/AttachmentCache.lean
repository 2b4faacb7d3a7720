import Mathlib.Data.List.DropRight
import Mathlib.Data.List.GetD
import PpBrowser.Base.Words
import PpBrowser.Lib.Utf8

/-!
# AttachmentCache — the name a received file is opened under

The extensions of `AttachmentCache.cpp` and `AttachmentOpenFilename`, over the
bytes of names and types.
-/

namespace Pbr

open Lib.Utf8

/-! ## Extensions -/

def kInert : List ByteVector :=
  ["pdf", "txt", "md", "csv", "rtf", "doc", "docx", "xls", "xlsx", "ppt", "pptx", "odt", "ods", "odp", "epub", "zip",
    "7z", "tar", "gz", "tgz", "bz2", "xz", "rar", "mp3", "m4a", "wav", "ogg", "oga", "opus", "flac", "aac", "heic",
    "heif", "avif", "bmp", "tif", "tiff", "mov", "mkv"].map stringBytes

def kMimeByExtension : List (ByteVector × ByteVector) :=
  [("png", "image/png"), ("jpg", "image/jpeg"), ("jpeg", "image/jpeg"), ("webp", "image/webp"), ("gif", "image/gif"),
    ("pdf", "application/pdf"), ("txt", "text/plain"), ("mp4", "video/mp4"), ("webm", "video/webm"),
    ("mov", "video/quicktime"), ("mp3", "audio/mpeg"), ("m4a", "audio/mp4"), ("wav", "audio/wav"),
    ("ogg", "audio/ogg")].map fun entry => (stringBytes entry.1, stringBytes entry.2)

/-- The types with an extension of their own, in the order they are tested. -/
def kKnownMimes : List (ByteVector × ByteVector) :=
  [("image/png", "png"), ("image/jpeg", "jpg"), ("image/jpg", "jpg"), ("image/webp", "webp"), ("image/gif", "gif"),
    ("video/mp4", "mp4"), ("video/webm", "webm"), ("video/quicktime", "mov"), ("application/pdf", "pdf"),
    ("text/plain", "txt"), ("audio/mpeg", "mp3"), ("audio/mp4", "m4a"),
    ("audio/wav", "wav")].map fun entry => (stringBytes entry.1, stringBytes entry.2)

def kAlias : List (ByteVector × ByteVector) :=
  [("jpeg", "jpg"), ("jpe", "jpg"), ("mpga", "mp3"), ("text", "txt"),
    ("qt", "mov")].map fun entry => (stringBytes entry.1, stringBytes entry.2)

def kContainers : List (List ByteVector) :=
  [["m4a", "mp4", "m4b"], ["ogg", "oga", "opus"], ["aif", "aiff", "aifc"], ["mp3", "mpga"],
    ["wav", "wave"]].map (·.map stringBytes)

def isSeparator (c : UInt8) : Bool := c = 47 || c = 92

/-- What is after the last separator. -/
def baseName (filename : ByteVector) : ByteVector := filename.rtakeWhile fun c => !isSeparator c

def lowerFilenameExtension (filename : ByteVector) : ByteVector :=
  let ext := (baseName filename).rtakeWhile (· ≠ 46)
  -- without a dot, or with the only one first
  if ext.length + 1 ≥ (baseName filename).length then []
  else if ext.length < 1 ∨ ext.length > 7 then []
  else ext.map toLower

def attachmentMimeFromFilename (filename : ByteVector) : ByteVector :=
  (kMimeByExtension.lookup (lowerFilenameExtension filename)).getD (stringBytes "application/octet-stream")

def attachmentExtensionFromContent (head : ByteVector) : ByteVector :=
  let starts (at_ : Nat) (text : ByteVector) : Bool := text.isPrefixOf (head.drop at_)
  let ext :=
    if starts 0 [0xFF, 0xD8, 0xFF] then "jpg"
    else if starts 0 [0x89, 0x50, 0x4E, 0x47, 0x0D, 0x0A, 0x1A, 0x0A] then "png"
    else if starts 0 (stringBytes "GIF87a") || starts 0 (stringBytes "GIF89a") then "gif"
    else if starts 0 (stringBytes "RIFF") && starts 8 (stringBytes "WEBP") then "webp"
    else if starts 0 (stringBytes "RIFF") && starts 8 (stringBytes "WAVE") then "wav"
    else if starts 4 (stringBytes "ftyp") then
      if starts 8 (stringBytes "qt  ") then "mov" else if starts 8 (stringBytes "M4A ") then "m4a" else "mp4"
    else if starts 0 [0x1A, 0x45, 0xDF, 0xA3] then "webm"
    else if starts 0 (stringBytes "OggS") then "ogg"
    else if starts 0 (stringBytes "ID3") || starts 0 [0xFF] && 2 ≤ head.length && head.getD 1 0 &&& 0xE0 = 0xE0 then
      "mp3"
    else if starts 0 (stringBytes "%PDF-") then "pdf"
    else ""
  stringBytes ext

def attachmentOpenNeedsConfirm (mime : ByteVector) : Bool :=
  !(stringBytes "image/").isPrefixOf mime && !(stringBytes "video/").isPrefixOf mime

def attachmentExtensionFromMime (mime filename : ByteVector) : ByteVector :=
  match kKnownMimes.lookup mime with
  | some ext => ext
  | none =>
    if attachmentOpenNeedsConfirm mime ∧ lowerFilenameExtension filename ∈ kInert then lowerFilenameExtension filename
    else []

def topLevelType (mime : ByteVector) : ByteVector := mime.takeWhile (· ≠ 47)

def attachmentExtensionMatchesType (own ext mime : ByteVector) : Bool :=
  if own = [] then false
  else if own = ext then true
  else if kAlias.lookup own = some ext then true
  else if own = stringBytes "mp4" ∧ ext = stringBytes "m4a" then true
  else
    topLevelType mime ∈ [stringBytes "audio", stringBytes "image", stringBytes "video"] ∧
      topLevelType (attachmentMimeFromFilename (stringBytes "x." ++ own)) = topLevelType mime

def extensionNamesContainer (own contentExt : ByteVector) : Bool :=
  own = contentExt ∨ ∃ group ∈ kContainers, own ∈ group ∧ contentExt ∈ group

/-! ## The name -/

/-- Neither a control character nor one of `<>:"|?*`. -/
def isAllowed (c : UInt8) : Bool := 0x20 ≤ c && c ≠ 0x7F && !(stringBytes "<>:\"|?*").contains c

def isDotOrSpace (c : UInt8) : Bool := c = 46 || c = 32

def trim (name : ByteVector) : ByteVector := (name.dropWhile isDotOrSpace).rdropWhile isDotOrSpace

/-- The last place at or before `cut` that does not go on with a character. -/
def cutBefore (name : ByteVector) : Nat → Nat
  | 0 => 0
  | cut + 1 => if continues (name.getD (cut + 1) 0) then cutBefore name cut else cut + 1

def kMaxNameBytes : Nat := 100

/-- What is kept of the sender's name. -/
def keptStem (filename : ByteVector) : ByteVector :=
  let name := trim ((baseName filename).filter isAllowed)
  if name.length > kMaxNameBytes then trim (name.take (cutBefore name kMaxNameBytes)) else name

def attachmentOpenFilename (filename mime fallbackStem contentExt : ByteVector) : ByteVector :=
  let ext := attachmentExtensionFromMime mime filename
  if ext = [] then []
  else
    let name := if keptStem filename = [] then fallbackStem else keptStem filename
    let name := if attachmentExtensionMatchesType (lowerFilenameExtension name) ext mime then name else name ++ 46 :: ext
    if contentExt ≠ [] ∧ topLevelType mime = stringBytes "audio" ∧
        ¬ extensionNamesContainer (lowerFilenameExtension name) contentExt then name ++ 46 :: contentExt
    else name

/-! ## What an extension is -/

/-- The code's own extensions: the inert ones, the known pictures, sounds and
videos, and their other spellings. -/
def kSafeExtensions : List ByteVector := kInert ++ kMimeByExtension.map (·.1) ++ kAlias.map (·.1)

def isExtensionByte (c : UInt8) : Bool := (48 ≤ c && c ≤ 57) || (97 ≤ c && c ≤ 122)

/-- What `lowerFilenameExtension` reads back after a dot. -/
structure IsExtension (ext : ByteVector) : Prop where
  length : 1 ≤ ext.length ∧ ext.length ≤ 7
  bytes : ∀ c ∈ ext, c ≠ 46 ∧ isSeparator c = false
  lower : ext.map toLower = ext

variable {name ext own mime filename fallbackStem contentExt head : ByteVector}

theorem forall_byte {p : UInt8 → Prop} (h : ∀ n : Fin 256, p (UInt8.ofNat n.val)) (c : UInt8) : p c := by
  have hc := h ⟨c.toNat, c.toNat_lt⟩
  rwa [UInt8.ofNat_toNat] at hc

theorem safeExtensions_checked : ∀ ext ∈ kSafeExtensions,
    ext.length ≤ 4 ∧ IsExtension ext ∧ ∀ c ∈ ext, isAllowed c = true ∧ isDotOrSpace c = false := by
  have h : (kSafeExtensions.all fun ext => 1 ≤ ext.length && ext.length ≤ 4 && ext.all isExtensionByte) = true := by
    decide +kernel
  have hbyte : ∀ c, isExtensionByte c = true → (c ≠ 46 ∧ isSeparator c = false) ∧ toLower c = c ∧
      isAllowed c = true ∧ isDotOrSpace c = false := forall_byte (by decide +kernel)
  intro ext hmem
  have hext := List.all_eq_true.mp h ext hmem
  simp only [Bool.and_eq_true, decide_eq_true_eq, List.all_eq_true] at hext
  have hbytes := fun c hc => hbyte c (hext.2 c hc)
  refine ⟨hext.1.2, ⟨⟨hext.1.1, by omega⟩, fun c hc => (hbytes c hc).1, ?_⟩, fun c hc => (hbytes c hc).2.2⟩
  conv_rhs => rw [← List.map_id ext]
  exact List.map_congr_left fun c hc => (hbytes c hc).2.1

theorem baseName_eq_self (h : ∀ c ∈ name, isSeparator c = false) : baseName name = name :=
  List.rtakeWhile_eq_self_iff.mpr fun c hc => by rw [h c hc]; rfl

theorem lowerFilenameExtension_append (hname : ∀ c ∈ name, isSeparator c = false) (hne : name ≠ [])
    (hext : IsExtension ext) : lowerFilenameExtension (name ++ 46 :: ext) = ext := by
  have hbase : baseName (name ++ 46 :: ext) = name ++ 46 :: ext := by
    apply baseName_eq_self
    intro c hc
    rcases List.mem_append.mp hc with hc | hc
    · exact hname c hc
    · rcases List.mem_cons.mp hc with rfl | hc
      · rfl
      · exact (hext.bytes c hc).2
  have hread : (name ++ 46 :: ext).rtakeWhile (· ≠ 46) = ext := by
    rw [List.rtakeWhile, List.reverse_append, List.reverse_cons, List.append_assoc, List.takeWhile_append_of_pos]
    · simp
    · intro c hc
      simpa using (hext.bytes c (List.mem_reverse.mp hc)).1
  have hlength : 0 < name.length := List.length_pos_iff.mpr hne
  have hshort := hext.length
  simp only [lowerFilenameExtension, hbase, hread]
  rw [if_neg (by rw [List.length_append, List.length_cons]; omega), if_neg (by omega), hext.lower]

theorem isExtension_lower (h : lowerFilenameExtension name ≠ []) : IsExtension (lowerFilenameExtension name) := by
  simp only [lowerFilenameExtension] at h ⊢
  split at h
  · exact absurd rfl h
  · rename_i hdot
    split at h
    · exact absurd rfl h
    · rename_i hlength
      rw [if_neg hdot, if_neg hlength]
      have hlower : ∀ c, (toLower c = 46 → c = 46) ∧ isSeparator (toLower c) = isSeparator c ∧
          toLower (toLower c) = toLower c := forall_byte (by decide +kernel)
      refine ⟨by rw [List.length_map]; omega, ?_, ?_⟩
      · intro c hc
        obtain ⟨b, hb, rfl⟩ := List.mem_map.mp hc
        have hdot := List.mem_rtakeWhile_imp hb
        have hbase := List.mem_rtakeWhile_imp ((List.rtakeWhile_suffix _ _).subset hb)
        rw [(hlower b).2.1]
        refine ⟨fun heq => by simp [(hlower b).1 heq] at hdot, by simpa using hbase⟩
      · rw [List.map_map]
        exact List.map_congr_left fun c _ => (hlower c).2.2

theorem mem_of_lookup {table : List (ByteVector × ByteVector)} (h : table.lookup own = some ext) :
    own ∈ table.map (·.1) ∧ ext ∈ table.map (·.2) := by
  obtain ⟨before, after, rfl, -⟩ := List.lookup_eq_some_iff.mp h
  simp

/-- A name whose extension fits the type has one of the code's own. -/
theorem mem_safe_of_matches (h : attachmentExtensionMatchesType own ext mime = true) (hext : ext ∈ kSafeExtensions)
    (hown : own ≠ [] → IsExtension own) : own ∈ kSafeExtensions := by
  rw [attachmentExtensionMatchesType] at h
  split_ifs at h with hnil hsame halias hmp4
  · exact hsame ▸ hext
  · exact List.mem_append_right _ (mem_of_lookup halias).1
  · rw [hmp4.1]
    decide +kernel
  · -- an unknown extension is of no kind
    rw [decide_eq_true_eq] at h
    have hread : lowerFilenameExtension (stringBytes "x." ++ own) = own :=
      @lowerFilenameExtension_append (stringBytes "x") _ (by decide +kernel) (by decide) (hown hnil)
    rw [attachmentMimeFromFilename, hread] at h
    cases hlookup : kMimeByExtension.lookup own with
    | none =>
      rw [hlookup] at h
      have hbad := h.2 ▸ h.1
      exact absurd hbad (by decide +kernel)
    | some found =>
      apply List.mem_append_left
      exact List.mem_append_right _ (mem_of_lookup hlookup).1

theorem fromMime_mem : attachmentExtensionFromMime mime filename = [] ∨
    attachmentExtensionFromMime mime filename ∈ kSafeExtensions := by
  rw [attachmentExtensionFromMime]
  split
  · rename_i ext hlookup
    have hall : ∀ ext ∈ kKnownMimes.map (·.2), ext ∈ kSafeExtensions := by decide +kernel
    exact .inr (hall ext (mem_of_lookup hlookup).2)
  · split_ifs with hinert
    · exact .inr (List.mem_append_left _ (List.mem_append_left _ hinert.2))
    · exact .inl rfl

theorem fromContent_mem : attachmentExtensionFromContent head = [] ∨
    attachmentExtensionFromContent head ∈ kSafeExtensions := by
  have hall : ∀ ext ∈ ["jpg", "png", "gif", "webp", "wav", "mov", "m4a", "mp4", "webm", "ogg", "mp3", "pdf"],
      stringBytes ext ∈ kSafeExtensions := by decide +kernel
  simp only [attachmentExtensionFromContent]
  split_ifs
  all_goals first
    | exact .inl rfl
    | exact .inr (hall _ (by simp))

/-! ## What a name is -/

/-- Nothing in the name, and neither end of it, is one a file system or a
viewer reads as more than a letter. -/
structure IsSafeName (name : ByteVector) : Prop where
  nonempty : name ≠ []
  bytes : ∀ c ∈ name, isAllowed c = true ∧ isSeparator c = false
  starts : ∀ c ∈ name.head?, isDotOrSpace c = false
  ends : ∀ c ∈ name.getLast?, isDotOrSpace c = false

theorem IsSafeName.append (h : IsSafeName name) (hext : ext ∈ kSafeExtensions) :
    IsSafeName (name ++ 46 :: ext) ∧ lowerFilenameExtension (name ++ 46 :: ext) = ext := by
  obtain ⟨-, hexts, hbytes⟩ := safeExtensions_checked ext hext
  refine ⟨⟨by simp, ?_, ?_, ?_⟩, lowerFilenameExtension_append (fun c hc => (h.bytes c hc).2) h.nonempty hexts⟩
  · intro c hc
    rcases List.mem_append.mp hc with hc | hc
    · exact h.bytes c hc
    · rcases List.mem_cons.mp hc with rfl | hc
      · decide +kernel
      · exact ⟨(hbytes c hc).1, (hexts.bytes c hc).2⟩
  · rw [List.head?_append_of_ne_nil _ h.nonempty]
    exact h.starts
  · have hne : ext ≠ [] := List.length_pos_iff.mp hexts.length.1
    rw [List.getLast?_append_of_ne_nil _ (List.cons_ne_nil _ _), List.getLast?_cons_of_ne_nil hne]
    exact fun c hc => (hbytes c (List.mem_of_getLast? hc)).2

theorem head?_dropWhile {p : UInt8 → Bool} {c : UInt8} (h : (name.dropWhile p).head? = some c) : p c = false := by
  have hnot := List.head?_dropWhile_not p name
  rwa [h] at hnot

theorem trim_ends : (∀ c ∈ (trim name).head?, isDotOrSpace c = false) ∧
    ∀ c ∈ (trim name).getLast?, isDotOrSpace c = false := by
  constructor
  · intro c hc
    have hc : ((name.dropWhile isDotOrSpace).rdropWhile isDotOrSpace).head? = some c := hc
    obtain ⟨after, hafter⟩ := List.rdropWhile_prefix isDotOrSpace (name.dropWhile isDotOrSpace)
    apply @head?_dropWhile name
    rw [← hafter, List.head?_append, hc]
    rfl
  · intro c hc
    rw [trim, List.rdropWhile, List.getLast?_reverse] at hc
    exact head?_dropWhile hc

theorem trim_split : ∃ before after, name = before ++ trim name ++ after ∧ ∀ c ∈ after, isDotOrSpace c = true := by
  refine ⟨name.takeWhile isDotOrSpace, (name.dropWhile isDotOrSpace).rtakeWhile isDotOrSpace, ?_, ?_⟩
  · rw [trim, List.append_assoc, List.rdropWhile_append_rtakeWhile, List.takeWhile_append_dropWhile]
  · exact fun c hc => List.mem_rtakeWhile_imp hc

theorem continues_cutBefore {cut : Nat} : cutBefore name cut ≤ cut ∧
    (cutBefore name cut ≠ 0 → continues (name.getD (cutBefore name cut) 0) = false) := by
  induction cut with
  | zero => exact ⟨le_rfl, fun h => absurd rfl h⟩
  | succ cut ih =>
    rw [cutBefore]
    split
    · exact ⟨Nat.le_succ_of_le ih.1, ih.2⟩
    · rename_i hends
      exact ⟨le_rfl, fun _ => Bool.eq_false_iff.mpr hends⟩

/-- What is kept of a name ends before a whole character of it. -/
theorem keptStem_whole : keptStem filename = [] ∨
    ∃ before after, (baseName filename).filter isAllowed = before ++ keptStem filename ++ after ∧
      ∀ c ∈ after.head?, continues c = false := by
  have hends : ∀ c, isDotOrSpace c = true → continues c = false := forall_byte (by decide +kernel)
  obtain ⟨before, after, hclean, hafter⟩ := @trim_split ((baseName filename).filter isAllowed)
  rw [keptStem]
  split
  · rename_i hlong
    revert hlong hclean
    generalize trim ((baseName filename).filter isAllowed) = name
    intro hclean hlong
    by_cases hcut : cutBefore name kMaxNameBytes = 0
    · rw [hcut]
      exact .inl rfl
    obtain ⟨hle, hwhole⟩ := @continues_cutBefore name kMaxNameBytes
    have hwhole := hwhole hcut
    obtain ⟨front, back, hkept, hback⟩ := @trim_split (name.take (cutBefore name kMaxNameBytes))
    refine .inr ⟨before ++ front, back ++ name.drop (cutBefore name kMaxNameBytes) ++ after, ?_, ?_⟩
    · have hsplit := (List.take_append_drop (cutBefore name kMaxNameBytes) name).symm.trans
        (congrArg (· ++ name.drop (cutBefore name kMaxNameBytes)) hkept)
      rw [hclean]
      conv_lhs => rw [hsplit]
      simp only [List.append_assoc]
    · intro c hc
      cases back with
      | nil =>
        rw [List.nil_append, List.drop_eq_getElem_cons (by omega)] at hc
        obtain rfl := Option.some.inj hc
        rwa [List.getD_eq_getElem _ _ (by omega)] at hwhole
      | cons b back =>
        obtain rfl := Option.some.inj hc
        exact hends _ (hback _ List.mem_cons_self)
  · exact .inr ⟨before, after, hclean, fun c hc => hends c (hafter c (List.mem_of_head? hc))⟩

theorem trim_sublist : (trim name).Sublist name :=
  (List.rdropWhile_prefix _ _).sublist.trans (List.dropWhile_sublist _)

theorem keptStem_length : (keptStem filename).length ≤ kMaxNameBytes := by
  rw [keptStem]
  split
  · refine Nat.le_trans trim_sublist.length_le ?_
    rw [List.length_take]
    exact Nat.le_trans (Nat.min_le_left _ _) continues_cutBefore.1
  · omega

theorem keptStem_safe (hne : keptStem filename ≠ []) : IsSafeName (keptStem filename) := by
  have hends : (∀ c ∈ (keptStem filename).head?, isDotOrSpace c = false) ∧
      ∀ c ∈ (keptStem filename).getLast?, isDotOrSpace c = false := by
    rw [keptStem]
    split
    · exact trim_ends
    · exact trim_ends
  refine ⟨hne, ?_, hends.1, hends.2⟩
  intro c hc
  have hclean : c ∈ (baseName filename).filter isAllowed := by
    rw [keptStem] at hc
    split at hc
    · exact trim_sublist.subset (List.mem_of_mem_take (trim_sublist.subset hc))
    · exact trim_sublist.subset hc
  obtain ⟨hbase, hallowed⟩ := List.mem_filter.mp hclean
  exact ⟨hallowed, by simpa using List.mem_rtakeWhile_imp hbase⟩

/-- `exe`, `bat` and what else the source names as never given back. -/
def kActive : List ByteVector :=
  ["exe", "bat", "cmd", "com", "scr", "msi", "ps1", "vbs", "js", "jar", "app", "sh", "desktop", "lnk", "html",
    "svg"].map stringBytes

theorem fallbackStem_safe (hne : fallbackStem ≠ [])
    (hplain : ∀ c ∈ fallbackStem, isExtensionByte (toLower c) = true) : IsSafeName fallbackStem := by
  have hbyte : ∀ c, isExtensionByte (toLower c) = true →
      (isAllowed c = true ∧ isSeparator c = false) ∧ isDotOrSpace c = false := forall_byte (by decide +kernel)
  exact ⟨hne, fun c hc => (hbyte c (hplain c hc)).1, fun c hc => (hbyte c (hplain c (List.mem_of_head? hc))).2,
    fun c hc => (hbyte c (hplain c (List.mem_of_getLast? hc))).2⟩

theorem fromMime_eq_nil : attachmentExtensionFromMime mime filename = [] ↔ mime ∉ kKnownMimes.map (·.1) ∧
    ¬ (attachmentOpenNeedsConfirm mime = true ∧ lowerFilenameExtension filename ∈ kInert) := by
  have hempty : [] ∉ kSafeExtensions := by decide +kernel
  rw [attachmentExtensionFromMime]
  cases hlookup : kKnownMimes.lookup mime with
  | some ext =>
    have hknown : ∀ ext ∈ kKnownMimes.map (·.2), ext ≠ [] := by decide +kernel
    exact iff_of_false (hknown ext (mem_of_lookup hlookup).2) fun h => h.1 (mem_of_lookup hlookup).1
  | none =>
    have hnot : mime ∉ kKnownMimes.map (·.1) := by
      intro hmem
      obtain ⟨entry, hentry, rfl⟩ := List.mem_map.mp hmem
      have hne := List.lookup_eq_none_iff.mp hlookup entry hentry
      simp at hne
    dsimp only
    split_ifs with hinert
    · refine iff_of_false (fun hnil => hempty ?_) fun h => h.2 hinert
      rw [← hnil]
      exact List.mem_append_left _ (List.mem_append_left _ hinert.2)
    · exact iff_of_true rfl ⟨hnot, hinert⟩

/-- A safe name whose extension fits its type is one with the content's
extension put after it too. -/
theorem open_name_fits (hname : IsSafeName name) (hext : ext ∈ kSafeExtensions)
    (hcontent : contentExt = [] ∨ contentExt ∈ kSafeExtensions)
    (hmatches : attachmentExtensionMatchesType (lowerFilenameExtension name) ext mime = true) :
    let opened := if contentExt ≠ [] ∧ topLevelType mime = stringBytes "audio" ∧
        ¬ extensionNamesContainer (lowerFilenameExtension name) contentExt then name ++ 46 :: contentExt else name
    (opened = name ∨ opened = name ++ 46 :: contentExt ∧ contentExt ∈ kSafeExtensions) ∧ IsSafeName opened ∧
      lowerFilenameExtension opened ∈ kSafeExtensions ∧
      (attachmentExtensionMatchesType (lowerFilenameExtension opened) ext mime = true ∨
        topLevelType mime = stringBytes "audio" ∧
          extensionNamesContainer (lowerFilenameExtension opened) contentExt = true) := by
  dsimp only
  split_ifs with hother
  · have hcontent := hcontent.resolve_left hother.1
    obtain ⟨hsafe, hlower⟩ := hname.append hcontent
    rw [hlower]
    refine ⟨.inr ⟨rfl, hcontent⟩, hsafe, hcontent, .inr ⟨hother.2.1, ?_⟩⟩
    simp [extensionNamesContainer]
  · exact ⟨.inl rfl, hname, mem_safe_of_matches hmatches hext isExtension_lower, .inl hmatches⟩

/-- What a file is opened under, for any name, type and content its sender
chose: an empty name exactly without a safe extension, or a safe one. -/
theorem open_filename_safe (filename mime fallbackStem head : ByteVector) (hne : fallbackStem ≠ [])
    (hplain : ∀ c ∈ fallbackStem, isExtensionByte (toLower c) = true) :
    let ext := attachmentExtensionFromMime mime filename
    let contentExt := attachmentExtensionFromContent head
    let name := attachmentOpenFilename filename mime fallbackStem contentExt
    (name = [] ↔ mime ∉ kKnownMimes.map (·.1) ∧
      ¬ (attachmentOpenNeedsConfirm mime = true ∧ lowerFilenameExtension filename ∈ kInert)) ∧
    (name ≠ [] →
      IsSafeName name ∧ name.length ≤ max kMaxNameBytes fallbackStem.length + 10 ∧
      (lowerFilenameExtension name ∈ kSafeExtensions ∧ lowerFilenameExtension name ∉ kActive) ∧
      (attachmentExtensionMatchesType (lowerFilenameExtension name) ext mime = true ∨
        topLevelType mime = stringBytes "audio" ∧ extensionNamesContainer (lowerFilenameExtension name) contentExt = true) ∧
      ∃ stem, (∃ suffix ∈ [[], 46 :: ext, 46 :: contentExt, 46 :: ext ++ 46 :: contentExt], name = stem ++ suffix) ∧
        (stem = fallbackStem ∨ ∃ before after, (baseName filename).filter isAllowed = before ++ stem ++ after ∧
          ∀ c ∈ after.head?, continues c = false)) := by
  intro ext contentExt name
  rw [← fromMime_eq_nil]
  have hactive : ∀ ext ∈ kSafeExtensions, ext ∉ kActive := by decide +kernel
  by_cases hnil : attachmentExtensionFromMime mime filename = []
  · have hname : name = [] := if_pos hnil
    exact ⟨iff_of_true hname hnil, fun h => absurd hname h⟩
  have hext : ext ∈ kSafeExtensions := fromMime_mem.resolve_left hnil
  obtain ⟨stem, hstem, hsafe, hshort, hwhole⟩ : ∃ stem,
      (if keptStem filename = [] then fallbackStem else keptStem filename) = stem ∧ IsSafeName stem ∧
        stem.length ≤ max kMaxNameBytes fallbackStem.length ∧
        (stem = fallbackStem ∨ ∃ before after, (baseName filename).filter isAllowed = before ++ stem ++ after ∧
          ∀ c ∈ after.head?, continues c = false) := by
    refine ⟨_, rfl, ?_⟩
    split_ifs with hkept
    · exact ⟨fallbackStem_safe hne hplain, Nat.le_max_right _ _, .inl rfl⟩
    · exact ⟨keptStem_safe hkept, Nat.le_trans keptStem_length (Nat.le_max_left _ _),
        .inr (keptStem_whole.resolve_left hkept)⟩
  obtain ⟨named, hnamed, hnamedSafe, hmatches, hsuffix⟩ : ∃ named,
      (if attachmentExtensionMatchesType (lowerFilenameExtension stem) ext mime then stem else stem ++ 46 :: ext) = named ∧
        IsSafeName named ∧ attachmentExtensionMatchesType (lowerFilenameExtension named) ext mime = true ∧
        (named = stem ∨ named = stem ++ 46 :: ext) := by
    refine ⟨_, rfl, ?_⟩
    split_ifs with hfits
    · exact ⟨hsafe, hfits, .inl rfl⟩
    · obtain ⟨happended, hlower⟩ := hsafe.append hext
      refine ⟨happended, ?_, .inr rfl⟩
      rw [hlower, attachmentExtensionMatchesType, if_neg hnil, if_pos rfl]
  have hopened := @open_name_fits _ _ _ contentExt hnamedSafe hext fromContent_mem hmatches
  have hname : name = if contentExt ≠ [] ∧ topLevelType mime = stringBytes "audio" ∧
      ¬ extensionNamesContainer (lowerFilenameExtension named) contentExt then named ++ 46 :: contentExt else named := by
    show attachmentOpenFilename filename mime fallbackStem contentExt = _
    rw [attachmentOpenFilename, if_neg hnil]
    simp only [hstem]
    rw [show attachmentExtensionFromMime mime filename = ext from rfl, hnamed]
  rw [← hname] at hopened
  obtain ⟨hsuffix', hopenedSafe, hlisted, hfits⟩ := hopened
  refine ⟨iff_of_false hopenedSafe.nonempty hnil, fun _ => ⟨hopenedSafe, ?_, ⟨hlisted, hactive _ hlisted⟩, hfits, stem, ?_, hwhole⟩⟩
  · have hextShort := (safeExtensions_checked ext hext).1
    have hnamedShort : named.length ≤ stem.length + 5 := by
      rcases hsuffix with rfl | rfl
      · omega
      · rw [List.length_append, List.length_cons]
        omega
    rcases hsuffix' with hsame | ⟨hlonger, hcontent⟩
    · rw [hsame]
      omega
    · have hcontentShort := (safeExtensions_checked contentExt hcontent).1
      rw [hlonger, List.length_append, List.length_cons]
      omega
  · rcases hsuffix with rfl | rfl
    · rcases hsuffix' with hsame | ⟨hlonger, -⟩
      · exact ⟨[], by simp, by rw [hsame, List.append_nil]⟩
      · exact ⟨46 :: contentExt, by simp, hlonger⟩
    · rcases hsuffix' with hsame | ⟨hlonger, -⟩
      · exact ⟨46 :: ext, by simp, hsame⟩
      · exact ⟨46 :: ext ++ 46 :: contentExt, by simp, by rw [hlonger, List.append_assoc]⟩

theorem open_filename_safe_sample :
    let name := attachmentOpenFilename (stringBytes "report.exe") (stringBytes "application/pdf") (stringBytes "ab12") []
    name = stringBytes "report.exe.pdf" ∧ lowerFilenameExtension name ∉ kActive := by
  have hname : attachmentOpenFilename (stringBytes "report.exe") (stringBytes "application/pdf") (stringBytes "ab12")
      (attachmentExtensionFromContent []) = stringBytes "report.exe.pdf" := by decide +kernel
  have hsafe := (open_filename_safe (stringBytes "report.exe") (stringBytes "application/pdf") (stringBytes "ab12") []
    (by decide +kernel) (by decide +kernel)).2 (by rw [hname]; decide +kernel)
  exact ⟨hname, hsafe.2.2.1.2⟩

end Pbr
