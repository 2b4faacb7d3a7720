import PpBrowser.Lib.Linked
import PpBrowser.Social.PostAuthor

/-!
# PostLanes — what a reader verifies of a lane

A reader checks each entry on its own (`VerifyPostEntry`) and behind the one
before (`CheckPostChain`). It takes what a device writes, and of two
histories of one lane it sees where they part.
-/

namespace Pbr

open Lib Posts

variable {crypto : PostCrypto} {author : PostAuthor} {key key' : ByteVector} {nowMs nowMs' : Int64}
  {entry : PostEntry} {signed : SignedPostEntry} {entries entries' : List PostEntry} {posts : IPostStore}
  {device : PostDevice posts}

namespace Posts

/-- What a reader asks of an entry beside its form and its signature. -/
structure Sane (nowMs : Int64) (entry : PostEntry) : Prop where
  author : entry.author ≠ [] ∧ entry.author.length ≤ kMaxPostAuthorBytes
  placed : entry.seq ≠ 0 ∧ decide (entry.seq = 1) = isZero entry.prev
  kind : entry.kind ≠ 0
  claimedAt : entry.claimedAt.toInt ≤ nowMs.toInt + kMaxPostClockSkewMs
  body : PostBodies.checkPostBody entry.kind entry.body entry.author = .ok ()

theorem verifyPostEntry_ok : verifyPostEntry crypto signed key nowMs = .ok entry ↔
    parsePostEntry signed.canonical = .ok entry ∧
      checkAccountSignature crypto entry.author key signed.canonical signed.signature = .ok () ∧ Sane nowMs entry := by
  unfold verifyPostEntry
  rw [roe_bind_ok]
  constructor
  · rintro ⟨parsed, hparsed, h⟩
    simp only [roe_then_ok, refuseIf_ok, ne_eq, not_or, not_not, not_lt, gt_iff_lt] at h
    obtain ⟨hauthor, hsigned, hplaced, hkind, hclaimed, hbody, hpure⟩ := h
    obtain rfl := Except.ok.inj hpure
    exact ⟨hparsed, hsigned, hauthor, hplaced, hkind, hclaimed, hbody⟩
  · rintro ⟨hparsed, hsigned, hsane⟩
    refine ⟨entry, hparsed, ?_⟩
    simp only [roe_then_ok, refuseIf_ok, ne_eq, not_or, not_not, not_lt, gt_iff_lt]
    exact ⟨hsane.author, hsigned, hsane.placed, hsane.kind, hsane.claimedAt, hsane.body, rfl⟩

end Posts

namespace PostDevice

/-- A lane as one reader has verified it, from its first entry on. -/
structure LaneRead (crypto : PostCrypto) (key : ByteVector) (nowMs : Int64) (entries : List PostEntry) : Prop where
  verified : ∀ entry ∈ entries, ∃ signed, verifyPostEntry crypto signed key nowMs = .ok entry
  chained : Chained crypto entries

/-! ## Two histories of one lane -/

theorem Chained.placed (h : Chained crypto entries) (hseq : ∀ entry ∈ entries, entry.seq ≠ 0) {i : Nat}
    (hentry : entries[i]? = some entry) : entry.seq.toNat = i + 1 := by
  induction i generalizing entry with
  | zero =>
    rw [(h.first entry (by rwa [List.head?_eq_getElem?])).1]
    rfl
  | succ i ih =>
    obtain ⟨hi, rfl⟩ := List.getElem?_eq_some_iff.mp hentry
    have hbefore := ih (List.getElem?_eq_getElem (Nat.lt_of_succ_lt hi))
    obtain ⟨-, -, hnext, -, -⟩ := checkPostChain_ok.mp (List.isChain_iff_getElem.mp h.follows i hi)
    have hne : entries[i + 1].seq.toNat ≠ 0 := fun hzero =>
      hseq _ (List.getElem_mem hi) (UInt64.toNat_inj.mp hzero)
    rw [hnext, UInt64.toNat_add, hbefore] at hne ⊢
    have hone : (1 : UInt64).toNat = 1 := rfl
    have hlt := entries[i].seq.toNat_lt
    rw [hone] at hne ⊢
    omega

theorem LaneRead.linked (h : LaneRead crypto key nowMs entries) :
    Linked (·.seq.toNat) (hashOf crypto) (·.prev) entries where
  placed hentry := by
    refine h.chained.placed (fun entry hmem => ?_) hentry
    obtain ⟨signed, hverified⟩ := h.verified entry hmem
    exact (verifyPostEntry_ok.mp hverified).2.2.placed.1
  linked := h.chained.follows.imp fun _ _ hfollows => (checkPostChain_ok.mp hfollows).2.2.2.1

/-- An entry is read off its own bytes. -/
theorem LaneRead.parse_canonical (h : LaneRead crypto key nowMs entries) (hentry : entry ∈ entries) :
    parsePostEntry (postEntryCanonicalBytes entry) = .ok entry := by
  obtain ⟨signed, hverified⟩ := h.verified entry hentry
  have hparsed := (verifyPostEntry_ok.mp hverified).1
  rw [canonical_parsePostEntry hparsed]
  exact hparsed

/-- The device signed the entry behind a record of its lane. -/
def Drafted (author : PostAuthor) (entry : PostEntry) : Prop :=
  ∃ own kind body nowMs signed, entry = author.nextEntry own kind body nowMs ∧
    PostBodies.checkPostBody kind.byte body author.accountId = .ok () ∧ signPostEntry entry author.signer = .ok signed

theorem Reached.drafted (h : Reached crypto author device) : ∀ entry ∈ device.written, Drafted author entry := by
  induction h with
  | start => simp
  | @step device op _ hop ih =>
    cases op with
    | restore record | arrive op => exact ih
    | append kind body nowMs drawn fault =>
      rw [PostDevice.step]
      cases hdraft : author.draft posts device.store kind body nowMs drawn fault with
      | error text => exact ih
      | ok drafted =>
        obtain ⟨own, entry, signed⟩ := drafted
        obtain ⟨_, hbody, hrest⟩ := roe_bind_ok.mp hdraft
        obtain ⟨own, -, hrest⟩ := roe_bind_ok.mp hrest
        obtain ⟨signed, hsigned, hrest⟩ := roe_bind_ok.mp hrest
        obtain ⟨rfl, heq⟩ := Prod.mk.inj (Except.ok.inj hrest)
        obtain ⟨rfl, rfl⟩ := Prod.mk.inj heq
        dsimp only
        split
        · intro other hother
          rcases List.mem_append.mp hother with hother | hother
          · exact ih other hother
          · obtain rfl := List.mem_singleton.mp hother
            exact ⟨_, _, _, _, _, rfl, hbody, hsigned⟩
        · exact ih

theorem Drafted.verified (h : Drafted author entry) (hkey : SignsAs crypto key author.accountId author.signer)
    (hnamed : author.accountId ≠ [] ∧ author.accountId.length ≤ kMaxPostAuthorBytes) :
    (∃ signed, verifyPostEntry crypto signed key nowMs = .ok entry) ↔
      entry.seq ≠ 0 ∧ (entry.seq ≠ 1 → ¬ isZero entry.prev) ∧
        entry.claimedAt.toInt ≤ nowMs.toInt + kMaxPostClockSkewMs := by
  obtain ⟨own, kind, body, draftedAt, signed, hentry, hbody, hsigned⟩ := h
  obtain ⟨hcanonical, hparsed⟩ := parsePostEntry_signed hsigned
  have hfirst : entry.seq = 1 → isZero entry.prev := by
    intro hone
    rw [hentry] at hone ⊢
    have hprev : (author.nextEntry own kind body draftedAt).prev = .filled 0 := if_pos hone
    rw [hprev]
    decide
  constructor
  · rintro ⟨signed, hverified⟩
    obtain ⟨-, -, hsane⟩ := verifyPostEntry_ok.mp hverified
    refine ⟨hsane.placed.1, fun hone hzero => hone ?_, hsane.claimedAt⟩
    simpa [hzero] using hsane.placed.2
  · rintro ⟨hseq, hprev, hclaimed⟩
    refine ⟨signed, verifyPostEntry_ok.mpr ⟨hcanonical ▸ hparsed, ?_, ?_⟩⟩
    · obtain ⟨_, -, hrest⟩ := roe_bind_ok.mp hsigned
      obtain ⟨_, -, hrest⟩ := roe_bind_ok.mp hrest
      obtain ⟨signature, hsignature, hok⟩ := roe_bind_ok.mp hrest
      obtain rfl := Except.ok.inj hok
      obtain ⟨hlength, hverifies⟩ := hkey.verifies _ _ hsignature
      have haccount : crypto.accountIdFromMlDsaPublicKey key = some entry.author := by rw [hentry]; exact hkey.account
      simp [checkAccountSignature, refuseIf, haccount, hlength, hverifies]
    · have hkind : kind.byte ≠ 0 := by cases kind <;> decide
      refine ⟨?_, ⟨hseq, ?_⟩, hentry ▸ hkind, hclaimed, ?_⟩
      · rw [hentry]
        exact hnamed
      · by_cases hone : entry.seq = 1
        · simp [hone, hfirst hone]
        · simp [hone, hprev hone]
      · rw [hentry]
        exact hbody

/-- What a device wrote in a lane, whatever failed, every reader takes whose
clock is not behind, as long as the numbers do not run out and no entry's
hash reads as none. -/
theorem written_lanes_read (h : Reached crypto author device)
    (hkey : SignsAs crypto key author.accountId author.signer)
    (hnamed : author.accountId ≠ [] ∧ author.accountId.length ≤ kMaxPostAuthorBytes) (nowMs : Int64) (lane : PostLane) :
    LaneRead crypto key nowMs (device.writtenIn lane) ↔ ∀ entry ∈ device.writtenIn lane,
      entry.seq ≠ 0 ∧ (entry.seq ≠ 1 → ¬ isZero entry.prev) ∧
        entry.claimedAt.toInt ≤ nowMs.toInt + kMaxPostClockSkewMs := by
  have hdrafted : ∀ entry ∈ device.writtenIn lane, Drafted author entry :=
    fun entry hentry => h.drafted entry (mem_writtenIn.mp hentry).1
  constructor
  · intro hread entry hentry
    exact ((hdrafted entry hentry).verified hkey hnamed).mp (hread.verified entry hentry)
  · intro hsane
    refine ⟨fun entry hentry => ?_, h.sound.chained lane⟩
    exact ((hdrafted entry hentry).verified hkey hnamed).mpr (hsane entry hentry)

/-- Reads the first lane of the sample device twice, once from its start. -/
theorem sampleLane_read : LaneRead samplePostCrypto [97] 0 (sampleDevice.writtenIn (.filled 1)) ∧
    sampleDevice.writtenIn (.filled 1) = [sampleEntry] := by
  have hwritten : sampleDevice.written = [sampleEntry] := by
    obtain ⟨signed, hdraft⟩ := draft_start (.inl rfl)
    rw [sampleDevice, sampleOp, step, hdraft]
    rfl
  have hlane : sampleDevice.writtenIn (.filled 1) = [sampleEntry] := by
    rw [writtenIn, hwritten]
    rfl
  refine ⟨?_, hlane⟩
  refine ⟨fun entry hentry => ?_, reached_sampleDevice.sound.chained _⟩
  have hdrafted := reached_sampleDevice.drafted entry (mem_writtenIn.mp hentry).1
  rw [hlane] at hentry
  obtain rfl := List.mem_singleton.mp hentry
  exact (hdrafted.verified (samplePostSigner_signsAs [97]) (by decide)).mpr (by decide)

theorem written_lanes_read_sample : LaneRead samplePostCrypto [97] 0 (sampleDevice.writtenIn (.filled 1)) := by
  refine (written_lanes_read reached_sampleDevice (samplePostSigner_signsAs [97]) (by decide) 0 _).mpr ?_
  rw [sampleLane_read.2]
  decide

end PostDevice

end Pbr
