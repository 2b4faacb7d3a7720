import PpBrowser.Social.PostBodyCodecs

/-!
# PostForms — one canonical form of entries and heads

Entries and heads are read as they were written and what is read was written
just so, by the codecs of their fields. A signer of heads does not look at
everything the reader refuses: `HeadReadable` is what it leaves out.
-/

namespace Pbr

open Lib

namespace Posts

open PostWire PostBodies

/-! ## Entries -/

def ExtensionSized (extension : PostExtension) : Prop := Sized extension.value.length

theorem readExtension_codec : Codec ExtensionSized Any writeExtension readExtension := by
  have h := u16_codec.bind (P := ExtensionSized) PostExtension.tag (fun _ _ => trivial) fun tag _ =>
    bytes_codec.bind PostExtension.value (fun _ h => h.1) fun value hvalue =>
    Codec.done (c := (⟨tag, value⟩ : PostExtension)) (by
      intro c
      constructor
      · rintro ⟨⟨-, rfl⟩, rfl⟩
        rfl
      · rintro rfl
        exact ⟨⟨hvalue, rfl⟩, rfl⟩)
  exact h.congr (fun _ => Iff.rfl) (fun _ _ => by simp) (fun _ => by simp [writeExtension]) rfl

theorem admitted_extensionFollows (last : PostExtension) (extensions : List PostExtension) :
    Codec.Admitted extensionFollows (some last) extensions ↔ tagsIncrease (last :: extensions) := by
  induction extensions generalizing last with
  | nil => simp [Codec.Admitted, tagsIncrease]
  | cons extension extensions ih => simp [Codec.Admitted, tagsIncrease, extensionFollows, ih]

/-- The order the signer asks for is the one the reader does. -/
theorem tagsIncrease_iff (extensions : List PostExtension) :
    tagsIncrease extensions ↔ Codec.Admitted extensionFollows none extensions := by
  cases extensions with
  | nil => simp [Codec.Admitted, tagsIncrease]
  | cons extension extensions =>
    rw [Codec.Admitted, admitted_extensionFollows]
    simp [extensionFollows]

def ExtensionsTaken (extensions : List PostExtension) : Prop :=
  extensions.length ≤ kMaxPostExtensions ∧ tagsIncrease extensions

theorem readExtensions_codec : Codec (RowsSized ExtensionSized) ExtensionsTaken
    (fun l => putCount l.length ++ l.flatMap writeExtension) readExtensions := by
  have h := count_codec.counted readExtension_codec extensionFollows (· ≤ kMaxPostExtensions)
  exact h.congr (fun _ => Iff.rfl) (fun l _ => by simp [ExtensionsTaken, tagsIncrease_iff]) (fun _ => rfl)
    (by unfold readExtensions; simp)

structure EntrySized (entry : PostEntry) : Prop where
  author : Sized entry.author.length
  body : Sized entry.body.length
  extensions : RowsSized ExtensionSized entry.extensions

theorem readEntry_codec : Codec EntrySized (fun entry => ExtensionsTaken entry.extensions) writeEntry readEntry := by
  have h := utf8_codec.bind (P := EntrySized) PostEntry.author (fun _ h => h.author) fun author hauthor =>
    lane_codec.bind PostEntry.lane (fun _ _ => trivial) fun lane _ =>
    u64_codec.bind PostEntry.seq (fun _ _ => trivial) fun seq _ =>
    hash_codec.bind PostEntry.prev (fun _ _ => trivial) fun prev _ =>
    i64_codec.bind PostEntry.claimedAt (fun _ _ => trivial) fun claimedAt _ =>
    u8_codec.bind PostEntry.kind (fun _ _ => trivial) fun kind _ =>
    bytes_codec.bind PostEntry.body (fun _ h => h.1.1.1.1.1.1.body) fun body hbody =>
    readExtensions_codec.bind PostEntry.extensions (fun _ h => h.1.1.1.1.1.1.1.extensions) fun extensions hextensions =>
    Codec.done (c := (⟨author, lane, seq, prev, claimedAt, kind, body, extensions⟩ : PostEntry)) (by
      intro c
      constructor
      · rintro ⟨⟨⟨⟨⟨⟨⟨⟨-, rfl⟩, rfl⟩, rfl⟩, rfl⟩, rfl⟩, rfl⟩, rfl⟩, rfl⟩
        rfl
      · rintro rfl
        exact ⟨⟨⟨⟨⟨⟨⟨⟨⟨hauthor, hbody, hextensions⟩, rfl⟩, rfl⟩, rfl⟩, rfl⟩, rfl⟩, rfl⟩, rfl⟩, rfl⟩)
  exact h.congr (fun _ => Iff.rfl) (fun _ _ => by simp) (fun _ => by simp [writeEntry]) rfl

/-- A domain and a version are read where they are written, and nowhere else. -/
theorem readVersion_codec (domain : ByteVector) (version : UInt8) :
    Codec Any Any (fun _ : Unit => domain ++ putU8 version) (readVersion domain version) where
  get_put {_ rest} _ _ := by
    have hdomain : Reader.take domain.length (id domain ++ (putU8 version ++ rest)) = some (domain, putU8 version ++ rest) :=
      (Codec.take domain.length).get_put rfl trivial
    have hversion : Read.u8 (putU8 version ++ rest) = some (version, rest) := u8_codec.get_put trivial trivial
    rw [id] at hdomain
    rw [List.append_assoc, readVersion, Reader.bind_apply, Read.expect, Reader.bind_apply, hdomain, Option.bind_some]
    dsimp only
    rw [if_pos rfl]
    change (Read.u8 >>= fun got => if got = version then pure () else Reader.fail) (putU8 version ++ rest) = _
    rw [Reader.bind_apply, hversion, Option.bind_some]
    dsimp only
    rw [if_pos rfl]
    rfl
  get_over _ hnot := absurd trivial hnot
  put_get {bytes _ rest} hread := by
    obtain ⟨_, mid, hexpect, hbyte⟩ := Reader.bind_eq_some.mp hread
    obtain ⟨got, _, htake, hdomain⟩ := Reader.bind_eq_some.mp hexpect
    obtain ⟨version', last, hversion, hpure⟩ := Reader.bind_eq_some.mp hbyte
    obtain ⟨-, -, htaken⟩ := (Codec.take domain.length).put_get htake
    obtain ⟨-, -, hput⟩ := u8_codec.put_get hversion
    split at hdomain
    next hgot =>
      split at hpure
      next hsame =>
        obtain ⟨-, rfl⟩ := Prod.mk.inj (Option.some.inj hdomain)
        obtain ⟨-, rfl⟩ := Prod.mk.inj (Option.some.inj hpure)
        subst hgot hsame
        exact ⟨trivial, trivial, by rw [List.append_assoc, hput]; exact htaken⟩
      · cases hpure
    · cases hdomain

theorem parsePostEntry_ok {bytes : ByteVector} {entry : PostEntry} : parsePostEntry bytes = .ok entry ↔
    bytes.length ≤ kMaxPostEntryBytes ∧
      ∃ body, readVersion kEntryDomain kEntryVersion bytes = some ((), body) ∧ readEntry body = some (entry, []) := by
  unfold parsePostEntry
  split
  next hlong => simp [Nat.not_le.mpr hlong]
  next hshort =>
    have hshort := Nat.not_lt.mp hshort
    cases hversion : readVersion kEntryDomain kEntryVersion bytes with
    | none => simp
    | some read =>
      obtain ⟨_, body⟩ := read
      dsimp only
      split
      next entry' hentry => simp [hshort, hentry]
      next hnone =>
        constructor
        · intro herror
          cases herror
        · intro ⟨_, body', hbody, hentry⟩
          obtain ⟨-, rfl⟩ := Prod.mk.inj (Option.some.inj hbody)
          exact absurd hentry (hnone entry)

theorem writeExtension_fits {extension : PostExtension} (h : Sized (writeExtension extension).length) :
    ExtensionSized extension := by
  rw [writeExtension, List.length_append] at h
  exact putUtf8_fits (sized_part h (Nat.le_add_left _ _))

theorem writeExtension_pos (extension : PostExtension) : 0 < (writeExtension extension).length := by
  rw [writeExtension, List.length_append, putU16, putUint, length_bigEndian]
  omega

theorem writeEntry_length (entry : PostEntry) : (writeEntry entry).length =
    8 + entry.author.length + 65 + (8 + entry.body.length) + rowsLength writeExtension entry.extensions := by
  have hbody : (putBytes entry.body).length = 8 + entry.body.length := putUtf8_length _
  have hlane : (putLane entry.lane).length = 16 := entry.lane.property
  have hprev : (putHash entry.prev).length = 32 := entry.prev.property
  have hseq : (putU64 entry.seq).length = 8 := length_bigEndian 8 _
  have hclaimed : (putI64 entry.claimedAt).length = 8 := length_bigEndian 8 _
  have hkind : (putU8 entry.kind).length = 1 := rfl
  simp only [writeEntry, rowsLength, List.length_append, putUtf8_length, hbody, hlane, hprev, hseq, hclaimed, hkind]

theorem writeEntry_fits {entry : PostEntry} (h : Sized (writeEntry entry).length) : EntrySized entry := by
  rw [writeEntry_length] at h
  have hextensions : Sized (rowsLength writeExtension entry.extensions) := sized_part h (by omega)
  constructor
  · exact sized_part h (by omega)
  · exact sized_part h (by omega)
  · exact rowsSized_of_length hextensions writeExtension_pos fun _ => writeExtension_fits

variable {signer : PostSigner} {lanes : List PostHeadLane} {signed : SignedPostHead}

theorem parsePostEntry_signed {entry : PostEntry} {signed : SignedPostEntry}
    (h : signPostEntry entry signer = .ok signed) :
    signed.canonical = postEntryCanonicalBytes entry ∧ parsePostEntry (postEntryCanonicalBytes entry) = .ok entry := by
  obtain ⟨_, hextensions, h⟩ := roe_bind_ok.mp h
  obtain ⟨_, hshort, h⟩ := roe_bind_ok.mp h
  obtain ⟨signature, -, hsigned⟩ := roe_bind_ok.mp h
  have hextensions := refuseIf_ok.mp hextensions
  have hshort := Nat.not_lt.mp (refuseIf_ok.mp hshort)
  simp only [not_or, not_lt, not_not, gt_iff_lt] at hextensions
  have hfits : EntrySized entry := by
    apply writeEntry_fits
    rw [postEntryCanonicalBytes, List.length_append] at hshort
    exact Nat.lt_of_le_of_lt ((Nat.le_add_left _ _).trans hshort) (by decide)
  have hversion : readVersion kEntryDomain kEntryVersion (postEntryCanonicalBytes entry) = some ((), writeEntry entry) :=
    (readVersion_codec kEntryDomain kEntryVersion).get_put trivial trivial
  have hentry : readEntry (writeEntry entry ++ []) = some (entry, []) := readEntry_codec.get_put hfits hextensions
  rw [List.append_nil] at hentry
  exact ⟨(congrArg SignedPostEntry.canonical (Except.ok.inj hsigned)).symm,
    parsePostEntry_ok.mpr ⟨hshort, writeEntry entry, hversion, hentry⟩⟩

theorem canonical_parsePostEntry {bytes : ByteVector} {entry : PostEntry} (h : parsePostEntry bytes = .ok entry) :
    postEntryCanonicalBytes entry = bytes := by
  obtain ⟨-, body, hversion, hentry⟩ := parsePostEntry_ok.mp h
  obtain ⟨-, -, hbody⟩ := readEntry_codec.put_get hentry
  obtain ⟨-, -, hbytes⟩ := (readVersion_codec kEntryDomain kEntryVersion).put_get hversion
  rw [List.append_nil] at hbody
  rw [postEntryCanonicalBytes, hbody, hbytes]

/-! ## Head statements -/

def readHeadLane : Reader UInt8 PostHeadLane := do
  let lane ← Read.lane
  let seq ← Read.u64
  let entryHash ← Read.hash
  pure ⟨lane, seq, entryHash⟩

/-- A lane that holds something, past the one before it. -/
def headLaneFollows (last : Option PostHeadLane) (next : PostHeadLane) : Bool :=
  next.seq ≠ 0 && laneFollows (last.map PostHeadLane.lane) next.lane

theorem readHeadLane_codec : Codec Any Any writeHeadLane readHeadLane := by
  have h := lane_codec.bind (P := Any) PostHeadLane.lane (fun _ _ => trivial) fun lane _ =>
    u64_codec.bind PostHeadLane.seq (fun _ _ => trivial) fun seq _ =>
    hash_codec.bind PostHeadLane.entryHash (fun _ _ => trivial) fun entryHash _ =>
    Codec.done (c := (⟨lane, seq, entryHash⟩ : PostHeadLane)) (by
      intro c
      constructor
      · rintro ⟨⟨⟨-, rfl⟩, rfl⟩, rfl⟩
        rfl
      · rintro rfl
        exact ⟨⟨⟨trivial, rfl⟩, rfl⟩, rfl⟩)
  exact h.congr (fun _ => Iff.rfl) (fun _ _ => by simp) (fun _ => by simp [writeHeadLane]) rfl

theorem readHeadLane_apply (bytes : ByteVector) : readHeadLane bytes = (readHeadPlace bytes).bind fun place =>
      (Read.hash place.2).bind fun read => some (⟨place.1.1, place.1.2, read.1⟩, read.2) := by
  simp only [readHeadLane, readHeadPlace, Reader.bind_apply]
  cases Read.lane bytes with
  | none => rfl
  | some read =>
    dsimp only [Option.bind_some]
    cases Read.u64 read.2 <;> rfl

theorem readHeadLanes_ok {n : Nat} (last : Option PostHeadLane) {bytes rest : ByteVector} :
    readHeadLanes n (last.map PostHeadLane.lane) bytes = .ok (lanes, rest) ↔
      readHeadLane.rows headLaneFollows n last bytes = some (lanes, rest) := by
  induction n generalizing last bytes lanes with
  | zero =>
    constructor
    · intro h
      obtain ⟨rfl, rfl⟩ := Prod.mk.inj (Except.ok.inj h)
      rfl
    · intro h
      obtain ⟨rfl, rfl⟩ := Prod.mk.inj (Option.some.inj h)
      rfl
  | succ n ih =>
    rw [readHeadLanes, Reader.rows, Reader.bind_apply, readHeadLane_apply]
    cases readHeadPlace bytes with
    | none => simp
    | some place =>
      obtain ⟨⟨lane, seq⟩, mid⟩ := place
      dsimp only [Option.bind_some]
      cases Read.hash mid with
      | none =>
        split <;> simp
      | some read =>
        obtain ⟨entryHash, mid⟩ := read
        dsimp only [Option.bind_some]
        have hfollows : headLaneFollows last ⟨lane, seq, entryHash⟩ ↔
            ¬ (seq = 0 || !laneFollows (last.map PostHeadLane.lane) lane) := by
          simp [headLaneFollows]
        split
        next hrefused =>
          rw [if_neg fun h => hfollows.mp h hrefused]
          simp [Reader.fail]
        next hadmitted =>
          rw [if_pos (hfollows.mpr hadmitted), roe_bind_ok, Reader.bind_eq_some]
          constructor
          · rintro ⟨⟨lanes', mid'⟩, hlanes, hok⟩
            obtain ⟨rfl, rfl⟩ := Prod.mk.inj (Except.ok.inj hok)
            exact ⟨lanes', mid', (ih (some ⟨lane, seq, entryHash⟩)).mp hlanes, rfl⟩
          · rintro ⟨lanes', mid', hlanes, hok⟩
            obtain ⟨rfl, rfl⟩ := Prod.mk.inj (Option.some.inj hok)
            exact ⟨(lanes', mid'), (ih (some ⟨lane, seq, entryHash⟩)).mpr hlanes, rfl⟩

def readHeadLaneRows : Reader UInt8 (List PostHeadLane) := do
  let count ← Read.count
  if count ≤ kMaxPostHeadLanes then readHeadLane.rows headLaneFollows count none else Reader.fail

def readTargets : Reader UInt8 (List ByteVector) := do
  let count ← Read.count
  if count ≤ kMaxPostHeadTargets then Read.utf8.rows (fun _ target => isTarget target) count none else Reader.fail

/-- What `parsePostHead` reads after the version, in one go. -/
def readHead : Reader UInt8 PostHead := do
  let author ← Read.utf8
  let issuedAt ← Read.i64
  let lanes ← readHeadLaneRows
  let targets ← readTargets
  pure ⟨author, issuedAt, lanes, targets⟩

def LanesTaken (lanes : List PostHeadLane) : Prop :=
  lanes.length ≤ kMaxPostHeadLanes ∧ Codec.Admitted headLaneFollows none lanes

def TargetsTaken (targets : List ByteVector) : Prop :=
  targets.length ≤ kMaxPostHeadTargets ∧ ∀ target ∈ targets, isTarget target

theorem readHeadLaneRows_codec : Codec (RowsSized Any) LanesTaken
    (fun l => putCount l.length ++ l.flatMap writeHeadLane) readHeadLaneRows := by
  have h := count_codec.counted readHeadLane_codec headLaneFollows (· ≤ kMaxPostHeadLanes)
  exact h.congr (fun _ => Iff.rfl) (fun _ _ => by simp [LanesTaken]) (fun _ => rfl) (by unfold readHeadLaneRows; simp)

theorem admitted_each {α : Type} (p : α → Bool) (last : Option α) (l : List α) :
    Codec.Admitted (fun _ a => p a) last l ↔ ∀ a ∈ l, p a := by
  induction l generalizing last with
  | nil => simp [Codec.Admitted]
  | cons a l ih => rw [Codec.Admitted, ih, List.forall_mem_cons]

theorem readTargets_codec : Codec (RowsSized StringSized) TargetsTaken
    (fun l => putCount l.length ++ l.flatMap putUtf8) readTargets := by
  have h := count_codec.counted utf8_codec (fun _ target => isTarget target) (· ≤ kMaxPostHeadTargets)
  exact h.congr (fun _ => Iff.rfl) (fun _ _ => by simp [TargetsTaken, admitted_each]) (fun _ => rfl)
    (by unfold readTargets; simp)

structure HeadSized (head : PostHead) : Prop where
  author : Sized head.author.length
  lanes : RowsSized Any head.lanes
  targets : RowsSized StringSized head.targets

theorem readHead_codec :
    Codec HeadSized (fun head => LanesTaken head.lanes ∧ TargetsTaken head.targets) writeHead readHead := by
  have h := utf8_codec.bind (P := HeadSized) PostHead.author (fun _ h => h.author) fun author hauthor =>
    i64_codec.bind PostHead.issuedAt (fun _ _ => trivial) fun issuedAt _ =>
    readHeadLaneRows_codec.bind PostHead.lanes (fun _ h => h.1.1.lanes) fun lanes hlanes =>
    readTargets_codec.bind PostHead.targets (fun _ h => h.1.1.1.targets) fun targets htargets =>
    Codec.done (c := (⟨author, issuedAt, lanes, targets⟩ : PostHead)) (by
      intro c
      constructor
      · rintro ⟨⟨⟨⟨-, rfl⟩, rfl⟩, rfl⟩, rfl⟩
        rfl
      · rintro rfl
        exact ⟨⟨⟨⟨⟨hauthor, hlanes, htargets⟩, rfl⟩, rfl⟩, rfl⟩, rfl⟩)
  exact h.congr (fun _ => Iff.rfl) (fun _ _ => by simp) (fun _ => by simp [writeHead]) rfl

theorem readCountWithin_some {limit count : Nat} {bytes rest : ByteVector} :
    readCountWithin limit bytes = some (count, rest) ↔ Read.count bytes = some (count, rest) ∧ count ≤ limit := by
  rw [readCountWithin, Reader.bind_eq_some]
  constructor
  · intro ⟨got, mid, hcount, hlimit⟩
    split at hlimit
    next hle =>
      obtain ⟨rfl, rfl⟩ := Prod.mk.inj (Option.some.inj hlimit)
      exact ⟨hcount, hle⟩
    · cases hlimit
  · intro ⟨hcount, hle⟩
    exact ⟨count, rest, hcount, by rw [if_pos hle]; rfl⟩

/-- A counted list is its count within the limit and then its rows. -/
theorem counted_some {α : Type} {get : Reader UInt8 α} {admits : Option α → α → Bool} {limit : Nat}
    {bytes rest : ByteVector} {l : List α} :
    (do let count ← Read.count
        if count ≤ limit then get.rows admits count none else Reader.fail : Reader UInt8 (List α)) bytes = some (l, rest) ↔
      ∃ count mid, readCountWithin limit bytes = some (count, mid) ∧ get.rows admits count none mid = some (l, rest) := by
  rw [Reader.bind_eq_some]
  simp only [readCountWithin_some]
  constructor
  · intro ⟨count, mid, hcount, hrows⟩
    split at hrows
    next hle => exact ⟨count, mid, ⟨hcount, hle⟩, hrows⟩
    · cases hrows
  · intro ⟨count, mid, ⟨hcount, hle⟩, hrows⟩
    exact ⟨count, mid, hcount, by rwa [if_pos hle]⟩

theorem readHeadOpening_some {bytes rest : ByteVector} {author : ByteVector} {issuedAt : Int64} {count : Nat} :
    readHeadOpening bytes = some ((author, issuedAt, count), rest) ↔
      ∃ mid mid', Read.utf8 bytes = some (author, mid) ∧ Read.i64 mid = some (issuedAt, mid') ∧
        readCountWithin kMaxPostHeadLanes mid' = some (count, rest) := by
  simp only [readHeadOpening, Reader.bind_eq_some]
  constructor
  · intro ⟨_, mid, hauthor, _, mid', hissued, _, _, hcount, hpure⟩
    obtain ⟨heq, rfl⟩ := Prod.mk.inj (Option.some.inj hpure)
    obtain ⟨rfl, rfl, rfl⟩ := heq
    exact ⟨mid, mid', hauthor, hissued, hcount⟩
  · intro ⟨mid, mid', hauthor, hissued, hcount⟩
    exact ⟨author, mid, hauthor, issuedAt, mid', hissued, count, rest, hcount, rfl⟩

/-- The one reader in the stages of `parsePostHead`. -/
theorem readHead_some {bytes rest : ByteVector} {head : PostHead} : readHead bytes = some (head, rest) ↔
    ∃ count mid mid' count' mid'', readHeadOpening bytes = some ((head.author, head.issuedAt, count), mid) ∧
      readHeadLanes count none mid = .ok (head.lanes, mid') ∧
      readCountWithin kMaxPostHeadTargets mid' = some (count', mid'') ∧
      Read.utf8.rows (fun _ target => isTarget target) count' none mid'' = some (head.targets, rest) := by
  simp only [readHead, readHeadLaneRows, readTargets, Reader.bind_eq_some, readHeadOpening_some]
  constructor
  · intro ⟨author, _, hauthor, issuedAt, _, hissued, lanes, mid', hlanes, targets, _, htargets, hpure⟩
    obtain ⟨rfl, rfl⟩ := Prod.mk.inj (Option.some.inj hpure)
    obtain ⟨count, mid, hcount, hrows⟩ := counted_some.mp (Reader.bind_eq_some.mpr hlanes)
    obtain ⟨count', mid'', hcount', hrows'⟩ := counted_some.mp (Reader.bind_eq_some.mpr htargets)
    exact ⟨count, mid, mid', count', mid'', ⟨_, _, hauthor, hissued, hcount⟩, (readHeadLanes_ok none).mpr hrows, hcount',
      hrows'⟩
  · intro ⟨count, mid, mid', count', mid'', ⟨_, _, hauthor, hissued, hcount⟩, hlanes, hcount', htargets⟩
    have hrows := counted_some.mpr ⟨count, mid, hcount, (readHeadLanes_ok none).mp hlanes⟩
    have hrows' := counted_some.mpr ⟨count', mid'', hcount', htargets⟩
    exact ⟨head.author, _, hauthor, head.issuedAt, _, hissued, head.lanes, mid', Reader.bind_eq_some.mp hrows,
      head.targets, rest, Reader.bind_eq_some.mp hrows', rfl⟩

theorem parsePostHead_ok {bytes : ByteVector} {head : PostHead} : parsePostHead bytes = .ok head ↔
    bytes.length ≤ kMaxPostEntryBytes ∧ head.author ≠ [] ∧ head.author.length ≤ kMaxPostAuthorBytes ∧
      ∃ body, readVersion kHeadDomain kHeadVersion bytes = some ((), body) ∧ readHead body = some (head, []) := by
  constructor
  · intro h
    unfold parsePostHead at h
    split at h
    · cases h
    next hshort =>
    split at h
    · cases h
    next body hversion =>
    split at h
    · cases h
    next author issuedAt count mid hopening =>
    obtain ⟨⟨lanes, mid'⟩, hlanes, h⟩ := roe_bind_ok.mp h
    dsimp only at h
    split at h
    · cases h
    next count' mid'' hcount =>
    split at h
    · cases h
    next targets rest htargets =>
    split at h
    · cases h
    next hformed =>
    obtain rfl := Except.ok.inj h
    simp only [Bool.or_eq_true, decide_eq_true_iff, not_or, not_not, not_lt, gt_iff_lt] at hformed
    obtain ⟨⟨rfl, hnamed⟩, hwithin⟩ := hformed
    exact ⟨Nat.not_lt.mp hshort, hnamed, hwithin, body, hversion,
      readHead_some.mpr ⟨count, mid, mid', count', mid'', hopening, hlanes, hcount, htargets⟩⟩
  · intro ⟨hshort, hnamed, hwithin, body, hversion, hhead⟩
    obtain ⟨count, mid, mid', count', mid'', hopening, hlanes, hcount, htargets⟩ := readHead_some.mp hhead
    unfold parsePostHead
    rw [if_neg (Nat.not_lt.mpr hshort), hversion]
    dsimp only
    rw [hopening]
    dsimp only
    rw [hlanes, roe_ok_bind]
    dsimp only
    rw [hcount]
    dsimp only
    rw [htargets]
    simp [hnamed, Nat.not_lt.mpr hwithin]

/-- What the reader takes of a head and its signer does not look at. -/
structure HeadReadable (head : PostHead) : Prop where
  named : head.author ≠ []
  within : head.author.length ≤ kMaxPostAuthorBytes
  distinct : (head.lanes.map PostHeadLane.lane).Nodup
  placed : ∀ lane ∈ head.lanes, lane.seq ≠ 0

def sortedHead (head : PostHead) : PostHead := { head with lanes := sortLanes head.lanes }

theorem sortLanes_perm (lanes : List PostHeadLane) : (sortLanes lanes).Perm lanes := List.perm_insertionSort _ _

theorem admitted_after (last : PostHeadLane) (lanes : List PostHeadLane) :
    Codec.Admitted headLaneFollows (some last) lanes ↔
      (∀ lane ∈ lanes, lane.seq ≠ 0) ∧ (last :: lanes).Pairwise fun a b => a.lane < b.lane := by
  induction lanes generalizing last with
  | nil => simp [Codec.Admitted]
  | cons lane lanes ih =>
    have hfirst : headLaneFollows (some last) lane ↔ lane.seq ≠ 0 ∧ last.lane < lane.lane := by
      simp [headLaneFollows, laneFollows]
    rw [Codec.Admitted, hfirst, ih, List.forall_mem_cons]
    constructor
    · intro ⟨⟨hseq, hlt⟩, hseqs, hsorted⟩
      refine ⟨⟨hseq, hseqs⟩, List.pairwise_cons.mpr ⟨?_, hsorted⟩⟩
      intro other hmem
      rcases List.mem_cons.mp hmem with rfl | hmem
      · exact hlt
      · exact hlt.trans ((List.pairwise_cons.mp hsorted).1 other hmem)
    · intro ⟨⟨hseq, hseqs⟩, hsorted⟩
      obtain ⟨hlast, hrest⟩ := List.pairwise_cons.mp hsorted
      exact ⟨⟨hseq, hlast lane List.mem_cons_self⟩, hseqs, hrest⟩

theorem lanesTaken_iff (lanes : List PostHeadLane) : LanesTaken lanes ↔
    lanes.length ≤ kMaxPostHeadLanes ∧ (∀ lane ∈ lanes, lane.seq ≠ 0) ∧ lanes.Pairwise fun a b => a.lane < b.lane := by
  unfold LanesTaken
  cases lanes with
  | nil => simp [Codec.Admitted]
  | cons lane lanes =>
    have hfirst : headLaneFollows none lane ↔ lane.seq ≠ 0 := by
      simp [headLaneFollows, laneFollows]
    rw [Codec.Admitted, hfirst, admitted_after, List.forall_mem_cons, and_assoc]

/-- Sorted lanes are in strict order if no two are one lane. -/
theorem sortLanes_pairwise :
    ((sortLanes lanes).Pairwise fun a b => a.lane < b.lane) ↔ (lanes.map PostHeadLane.lane).Nodup := by
  have hperm := (sortLanes_perm lanes).map PostHeadLane.lane
  rw [← hperm.nodup_iff, List.nodup_iff_pairwise_ne, List.pairwise_map]
  have hsorted : (sortLanes lanes).Pairwise fun a b => a.lane ≤ b.lane := by
    have htotal : Std.Total (fun a b : PostHeadLane => a.lane ≤ b.lane) := ⟨fun a b => le_total a.lane b.lane⟩
    have htrans : IsTrans PostHeadLane (fun a b => a.lane ≤ b.lane) := ⟨fun _ _ _ => le_trans⟩
    exact List.pairwise_insertionSort _ lanes
  constructor
  · exact fun h => h.imp fun hlt => hlt.ne
  · exact fun h => (hsorted.and h).imp fun hboth => lt_of_le_of_ne hboth.1 hboth.2

theorem sortLanes_eq (h : lanes.Pairwise fun a b => a.lane < b.lane) :
    sortLanes lanes = lanes := List.Pairwise.insertionSort_eq (h.imp le_of_lt)

theorem lanesTaken_sortLanes : LanesTaken (sortLanes lanes) ↔
    lanes.length ≤ kMaxPostHeadLanes ∧ (∀ lane ∈ lanes, lane.seq ≠ 0) ∧ (lanes.map PostHeadLane.lane).Nodup := by
  rw [lanesTaken_iff, sortLanes_pairwise, (sortLanes_perm lanes).length_eq]
  simp only [(sortLanes_perm lanes).mem_iff]

theorem canonical_parsePostHead {bytes : ByteVector} {head : PostHead} (h : parsePostHead bytes = .ok head) :
    postHeadCanonicalBytes head = bytes := by
  obtain ⟨-, -, -, body, hversion, hhead⟩ := parsePostHead_ok.mp h
  obtain ⟨-, hok, hbody⟩ := readHead_codec.put_get hhead
  obtain ⟨-, -, hbytes⟩ := (readVersion_codec kHeadDomain kHeadVersion).put_get hversion
  rw [List.append_nil] at hbody
  rw [postHeadCanonicalBytes, sortLanes_eq ((lanesTaken_iff _).mp hok.1).2.2, hbody, hbytes]

theorem writeHead_length (head : PostHead) : (writeHead head).length =
    8 + head.author.length + 8 + rowsLength writeHeadLane head.lanes + rowsLength putUtf8 head.targets := by
  have hissued : (putI64 head.issuedAt).length = 8 := length_bigEndian 8 _
  simp only [writeHead, rowsLength, List.length_append, putUtf8_length, hissued]

theorem writeHeadLane_length (lane : PostHeadLane) : (writeHeadLane lane).length = 56 := by
  have hlane : (putLane lane.lane).length = 16 := lane.lane.property
  have hhash : (putHash lane.entryHash).length = 32 := lane.entryHash.property
  have hseq : (putU64 lane.seq).length = 8 := length_bigEndian 8 _
  rw [writeHeadLane, List.length_append, List.length_append, hlane, hseq, hhash]

/-- A head its signer takes is within the size limit if its author is. -/
theorem canonicalHead_short {head : PostHead} (hlanes : head.lanes.length ≤ kMaxPostHeadLanes)
    (htargets : TargetsTaken head.targets) (hauthor : head.author.length ≤ kMaxPostAuthorBytes) :
    (postHeadCanonicalBytes head).length ≤ kMaxPostEntryBytes := by
  have hdomain : (kHeadDomain ++ putU8 kHeadVersion).length = 25 := by decide
  have hlaneRows : rowsLength writeHeadLane (sortLanes head.lanes) ≤ 8 + kMaxPostHeadLanes * 56 := by
    apply rowsLength_le
    · rwa [(sortLanes_perm head.lanes).length_eq]
    · exact fun lane _ => Nat.le_of_eq (writeHeadLane_length lane)
  have htargetRows : rowsLength putUtf8 head.targets ≤ 8 + kMaxPostHeadTargets * 264 := by
    apply rowsLength_le htargets.1
    intro target hmem
    have htarget := htargets.2 target hmem
    rw [isTarget, Bool.and_eq_true, Bool.and_eq_true, decide_eq_true_iff, kMaxPostTargetUrlBytes] at htarget
    rw [putUtf8_length]
    omega
  rw [postHeadCanonicalBytes, List.length_append, hdomain, writeHead_length]
  rw [kMaxPostHeadLanes] at hlaneRows
  rw [kMaxPostHeadTargets] at htargetRows
  rw [kMaxPostAuthorBytes] at hauthor
  rw [kMaxPostEntryBytes]
  dsimp only
  omega

theorem writeHead_fits {head : PostHead} (h : Sized (writeHead head).length) : HeadSized head := by
  rw [writeHead_length] at h
  have hlanes : Sized (rowsLength writeHeadLane head.lanes) := sized_part h (by omega)
  have htargets : Sized (rowsLength putUtf8 head.targets) := sized_part h (by omega)
  constructor
  · exact sized_part h (by omega)
  · exact rowsSized_of_length hlanes (fun lane => by rw [writeHeadLane_length]; omega) fun _ _ => trivial
  · exact strings_fit htargets

theorem signPostHead_ok {head : PostHead} (h : signPostHead head signer = .ok signed) :
    head.lanes.length ≤ kMaxPostHeadLanes ∧ TargetsTaken head.targets ∧
      signed.canonical = postHeadCanonicalBytes head ∧ signer signed.canonical = .ok signed.signature := by
  obtain ⟨_, hlanes, h⟩ := roe_bind_ok.mp h
  obtain ⟨_, htargets, h⟩ := roe_bind_ok.mp h
  obtain ⟨signature, hsignature, hsigned⟩ := roe_bind_ok.mp h
  obtain rfl := Except.ok.inj hsigned
  have htargets := refuseIf_ok.mp htargets
  simp only [not_or, not_lt, not_not, gt_iff_lt, List.all_eq_true] at htargets
  exact ⟨not_lt.mp (refuseIf_ok.mp hlanes), htargets, rfl, hsignature⟩

/-- What is signed of a head is read back, with its lanes sorted, exactly when
it holds what the signer does not look at. -/
theorem parsePostHead_signed {head : PostHead} (h : signPostHead head signer = .ok signed) :
    parsePostHead (postHeadCanonicalBytes head) = .ok (sortedHead head) ↔ HeadReadable head := by
  obtain ⟨hlanes, htargets, -, -⟩ := signPostHead_ok h
  have hversion : readVersion kHeadDomain kHeadVersion (postHeadCanonicalBytes head) =
      some ((), writeHead (sortedHead head)) := (readVersion_codec kHeadDomain kHeadVersion).get_put trivial trivial
  constructor
  · intro hparse
    obtain ⟨-, hnamed, hwithin, body, hbody, hhead⟩ := parsePostHead_ok.mp hparse
    obtain ⟨-, ⟨htaken, -⟩, -⟩ := readHead_codec.put_get hhead
    obtain ⟨-, hplaced, hdistinct⟩ := lanesTaken_sortLanes.mp htaken
    exact ⟨hnamed, hwithin, hdistinct, hplaced⟩
  · intro hreadable
    have hshort := canonicalHead_short hlanes htargets hreadable.within
    have hfits : HeadSized (sortedHead head) := by
      apply writeHead_fits
      rw [postHeadCanonicalBytes, List.length_append] at hshort
      exact Nat.lt_of_le_of_lt ((Nat.le_add_left _ _).trans hshort) (by decide)
    have hhead : readHead (writeHead (sortedHead head) ++ []) = some (sortedHead head, []) :=
      readHead_codec.get_put hfits
        ⟨lanesTaken_sortLanes.mpr ⟨hlanes, hreadable.placed, hreadable.distinct⟩, htargets⟩
    rw [List.append_nil] at hhead
    exact parsePostHead_ok.mpr ⟨hshort, hreadable.named, hreadable.within, _, hversion, hhead⟩

/-- The signer has the account's key: what it signs verifies. -/
structure SignsAs (crypto : PostCrypto) (key author : ByteVector) (signer : PostSigner) : Prop where
  account : crypto.accountIdFromMlDsaPublicKey key = some author
  verifies : ∀ message signature, signer message = .ok signature →
    signature.length = kMlDsa65SignatureBytes ∧ crypto.mlDsaVerify key message signature = some true

theorem verifyPostHead_signed {crypto : PostCrypto} {key : ByteVector} {head : PostHead}
    {nowMs : Int64} (hkey : SignsAs crypto key head.author signer)
    (hnow : head.issuedAt ≤ nowMs) (h : signPostHead head signer = .ok signed) :
    verifyPostHead crypto signed key nowMs = .ok (sortedHead head) ↔ HeadReadable head := by
  obtain ⟨-, -, hcanonical, hsignature⟩ := signPostHead_ok h
  obtain ⟨hlength, hverify⟩ := hkey.verifies _ _ hsignature
  have haccount : checkAccountSignature crypto (sortedHead head).author key signed.canonical signed.signature = .ok () := by
    simp [checkAccountSignature, refuseIf, sortedHead, hkey.account, hlength, hverify]
  have hissued : ¬ (sortedHead head).issuedAt.toInt > nowMs.toInt + kMaxPostClockSkewMs := by
    have hle : (sortedHead head).issuedAt.toInt ≤ nowMs.toInt := Int64.le_iff_toInt_le.mp hnow
    rw [kMaxPostClockSkewMs]
    omega
  rw [← parsePostHead_signed h, ← hcanonical, verifyPostHead]
  constructor
  · intro hok
    obtain ⟨parsed, hparsed, hrest⟩ := roe_bind_ok.mp hok
    obtain ⟨_, -, hrest⟩ := roe_bind_ok.mp hrest
    obtain ⟨_, -, hpure⟩ := roe_bind_ok.mp hrest
    obtain rfl := Except.ok.inj hpure
    exact hparsed
  · intro hparsed
    rw [hparsed, roe_ok_bind, haccount, roe_ok_bind, refuseIf, if_neg hissued, roe_ok_bind]
    rfl

/-! ## Sign bytes -/

inductive SignKind where
  | entry | head | media | report
  deriving DecidableEq

/-- What may be signed for posts. -/
inductive Signable where
  | entry (entry : PostEntry)
  | head (head : PostHead)
  | media (accountId : ByteVector) (contentId : PostHash) (size : UInt64) (mime : ByteVector) (issuedAt : Int64)
  | entryReport (reporter : ByteVector) (entry : PostRef) (reason note : ByteVector) (issuedAt : Int64)
  | mediaReport (reporter : ByteVector) (contentId : PostHash) (reason note : ByteVector) (issuedAt : Int64)

namespace Signable

def kind : Signable → SignKind
  | entry _ => .entry
  | head _ => .head
  | media .. => .media
  | entryReport .. => .report
  | mediaReport .. => .report

def bytes : Signable → ByteVector
  | entry e => postEntryCanonicalBytes e
  | head h => postHeadCanonicalBytes h
  | media accountId contentId size mime issuedAt => postMediaPresignSignBytes accountId contentId size mime issuedAt
  | entryReport reporter e reason note issuedAt => postEntryReportSignBytes reporter e reason note issuedAt
  | mediaReport reporter contentId reason note issuedAt =>
    postMediaReportSignBytes reporter contentId reason note issuedAt

end Signable

/-- The letter behind `pp-browser:post-`. -/
def SignKind.letter : SignKind → UInt8
  | .entry => 101
  | .head => 104
  | .media => 109
  | .report => 114

theorem letter_append {domain : ByteVector} {letter : UInt8} (h : domain[16]? = some letter) (tail : ByteVector) :
    (domain ++ tail)[16]? = some letter := by
  obtain ⟨hlt, -⟩ := List.getElem?_eq_some_iff.mp h
  rw [List.getElem?_append_left hlt, h]

theorem Signable.letter_of_bytes (signable : Signable) : signable.bytes[16]? = some signable.kind.letter := by
  cases signable with
  | entry e =>
    have hletter : kEntryDomain[16]? = some 101 := by decide
    rw [bytes, postEntryCanonicalBytes, List.append_assoc]
    exact letter_append hletter _
  | head h =>
    have hletter : kHeadDomain[16]? = some 104 := by decide
    rw [bytes, postHeadCanonicalBytes, List.append_assoc]
    exact letter_append hletter _
  | media accountId contentId size mime issuedAt =>
    have hletter : kMediaDomain[16]? = some 109 := by decide
    simp only [bytes, postMediaPresignSignBytes, List.append_assoc]
    exact letter_append hletter _
  | entryReport reporter e reason note issuedAt =>
    have hletter : kReportDomain[16]? = some 114 := by decide
    simp only [bytes, postEntryReportSignBytes, writeReportHeader, List.append_assoc]
    exact letter_append hletter _
  | mediaReport reporter contentId reason note issuedAt =>
    have hletter : kReportDomain[16]? = some 114 := by decide
    simp only [bytes, postMediaReportSignBytes, writeReportHeader, List.append_assoc]
    exact letter_append hletter _

theorem Signable.bytes_ne {a b : Signable} (h : a.kind ≠ b.kind) : a.bytes ≠ b.bytes := by
  intro heq
  have hletter : some a.kind.letter = some b.kind.letter := by
    rw [← a.letter_of_bytes, ← b.letter_of_bytes, heq]
  apply h
  revert hletter
  cases a.kind <;> cases b.kind <;> decide

/-! ## One form -/

/-- Entries, bodies and the bytes signed have one form; so has a head
exactly when it holds what its signer does not look at. -/
theorem posts_oneForm (crypto : PostCrypto) :
    (∀ entry signer signed, signPostEntry entry signer = .ok signed →
      parsePostEntry (postEntryCanonicalBytes entry) = .ok entry) ∧
    (∀ bytes entry, parsePostEntry bytes = .ok entry → postEntryCanonicalBytes entry = bytes) ∧
    (∀ head signer signed, signPostHead head signer = .ok signed →
      (parsePostHead (postHeadCanonicalBytes head) = .ok (sortedHead head) ↔ HeadReadable head)) ∧
    (∀ bytes head, parsePostHead bytes = .ok head → postHeadCanonicalBytes head = bytes) ∧
    (∀ key head signer signed nowMs, SignsAs crypto key head.author signer → head.issuedAt ≤ nowMs →
      signPostHead head signer = .ok signed →
      (verifyPostHead crypto signed key nowMs = .ok (sortedHead head) ↔ HeadReadable head)) ∧
    OneForm PostKind.post.byte encodePostBody decodePostBody ∧
    OneForm PostKind.edit.byte encodeEditBody decodeEditBody ∧
    OneForm PostKind.delete.byte encodeTargetBody decodeTargetBody ∧
    OneForm PostKind.repost.byte encodeTargetBody decodeTargetBody ∧
    OneForm PostKind.react.byte encodeReactBody decodeReactBody ∧
    OneForm PostKind.profile.byte encodeProfileBody decodeProfileBody ∧
    OneForm PostKind.laneClose.byte encodeLaneCloseBody decodeLaneCloseBody ∧
    OneForm PostKind.disavow.byte encodeDisavowBody decodeDisavowBody ∧
    ∀ a b : Signable, a.kind ≠ b.kind → a.bytes ≠ b.bytes :=
  ⟨fun _ _ _ h => (parsePostEntry_signed h).2, fun _ _ h => canonical_parsePostEntry h,
    fun _ _ _ h => parsePostHead_signed h, fun _ _ h => canonical_parsePostHead h,
    fun _ _ _ _ _ hkey hnow h => verifyPostHead_signed hkey hnow h,
    post_oneForm, edit_oneForm, delete_oneForm, repost_oneForm, react_oneForm, profile_oneForm, laneClose_oneForm,
    disavow_oneForm, fun _ _ h => Signable.bytes_ne h⟩

/-- A key is its account's id, and whatever is signed verifies. -/
def samplePostCrypto : PostCrypto where
  blake2b256 bytes := .filled (UInt8.ofNat bytes.length)
  mlDsaVerify _ _ _ := some true
  accountIdFromMlDsaPublicKey key := some key

def samplePostSigner : PostSigner := fun _ => .ok (List.replicate kMlDsa65SignatureBytes 0)

theorem samplePostSigner_signsAs (author : ByteVector) : SignsAs samplePostCrypto author author samplePostSigner where
  account := rfl
  verifies := by
    intro message signature h
    obtain rfl := Except.ok.inj h
    exact ⟨List.length_replicate, rfl⟩

/-- A head of one lane with something in it. -/
def sampleHead : PostHead where
  author := [97]
  issuedAt := 0
  lanes := [⟨.filled 1, 1, .filled 0⟩]

theorem signPostHead_sample (head : PostHead) (hlanes : head.lanes.length ≤ kMaxPostHeadLanes)
    (htargets : head.targets = []) : signPostHead head samplePostSigner =
      .ok ⟨postHeadCanonicalBytes head, List.replicate kMlDsa65SignatureBytes 0⟩ := by
  simp [signPostHead, samplePostSigner, refuseIf, htargets, Nat.not_lt.mpr hlanes]

theorem posts_oneForm_sample :
    verifyPostHead samplePostCrypto ⟨postHeadCanonicalBytes sampleHead, List.replicate kMlDsa65SignatureBytes 0⟩ [97] 0 =
      .ok (sortedHead sampleHead) := by
  have hreadable : HeadReadable sampleHead := ⟨by decide, by decide, by decide, by decide⟩
  exact ((posts_oneForm samplePostCrypto).2.2.2.2.1 [97] sampleHead samplePostSigner _ 0 (samplePostSigner_signsAs [97])
    (by decide) (signPostHead_sample sampleHead (by decide) rfl)).mpr hreadable

/-- A head that names one lane twice is signed, and no reader takes it. -/
def doubledHead : PostHead where
  author := [97]
  issuedAt := 0
  lanes := [⟨.filled 1, 1, .filled 0⟩, ⟨.filled 1, 2, .filled 0⟩]

theorem head_signed_not_verified :
    ¬ ∀ crypto key head signer signed nowMs, SignsAs crypto key head.author signer → head.author ≠ [] →
      head.issuedAt ≤ nowMs → signPostHead head signer = .ok signed →
      verifyPostHead crypto signed key nowMs = .ok (sortedHead head) := by
  intro h
  have hsigned := signPostHead_sample doubledHead (by decide) rfl
  have hverify := h samplePostCrypto [97] doubledHead samplePostSigner _ 0 (samplePostSigner_signsAs [97]) (by decide)
    (by decide) hsigned
  have hreadable := (verifyPostHead_signed (samplePostSigner_signsAs [97]) (by decide) hsigned).mp hverify
  exact absurd hreadable.distinct (by decide)

end Posts

end Pbr
