import PpBrowser.Delivery.PskBundleCodec
import PpBrowser.Lib.Runs

/-!
# PskSessionRun — a private chat's key over whole runs

Any sequence of generating, importing and rotating on one thread. A call
leaves the row alone or makes it one of three: the generated row, the
imported row, the rotated row (`runOp_cases`). From that, the row can always
be exported and read back, its epoch goes back only at an import of an
earlier one, and a key stays readable until an import replaces it or a full
tail of later keys has passed it.
-/

namespace Pbr

open PskBundleCodec

namespace PskSessionCoordinator

variable {Text : Type} (C : BundleText Text)

inductive PskOp (Text : Type) where
  | ensureGenerated (generated : MasterPsk)
  | importRawBase64 (rawB64 : String)
  | importBundleJson (bundleJson : Text)
  | rotate (generated : MasterPsk) (retiredAtMs : Int64)

/-- The store after a call: as it was, where the call failed before it
saved. -/
def runOp (thread : Option Thread) (store : PeerSessions) : PskOp Text → PeerSessions
  | .ensureGenerated generated =>
    ((ensureGenerated C store thread generated).toOption.map Prod.snd).getD store
  | .importRawBase64 rawB64 => (importRawBase64 C store thread rawB64).toOption.getD store
  | .importBundleJson bundleJson => (importBundleJson C store thread bundleJson).toOption.getD store
  | .rotate generated retiredAtMs =>
    (rotatePskAndExportBundle C store thread generated retiredAtMs).1

/-- The bundle a call imports into a row of the epoch. -/
def Imports (key : PeerSessionKey) (epoch : Nat) : PskOp Text → PskBundleV1 → Prop
  | .importRawBase64 rawB64, bundle =>
    ∃ masterPskB64, decodeRawBase64 C rawB64 = .ok masterPskB64 ∧
      bundle = rawBundle key epoch masterPskB64
  | .importBundleJson bundleJson, bundle =>
    parseBundleJson C bundleJson = .ok bundle ∧ bundle.channel = key.channel
  | _, _ => False

/-- What a call may make of a row. -/
inductive Changes (key : PeerSessionKey) (op : PskOp Text) (old : PeerSessionRecord) :
    PeerSessionRecord → Prop
  | generated (generated : MasterPsk) (hop : op = .ensureGenerated generated)
      (hnone : old.masterPskB64 = none) :
      Changes key op old (generatedRow C key old.sessionEpoch generated)
  | imported (bundle : PskBundleV1) (hop : Imports C key old.sessionEpoch op bundle)
      (hvalid : ValidBundle C bundle) : Changes key op old (importedRow key bundle (some old))
  | rotated (generated : MasterPsk) (retiredAtMs : Int64) (masterPskB64 : String)
      (hop : op = .rotate generated retiredAtMs) (hpsk : old.masterPskB64 = some masterPskB64) :
      Changes key op old (rotatedRow C old masterPskB64 generated retiredAtMs)

variable {C} {thread : Option Thread} {key : PeerSessionKey} {store : PeerSessions}
  {op : PskOp Text} {old new : PeerSessionRecord} {bundle : PskBundleV1}

/-! ## What one call does -/

theorem load_adopt (hload : store.load key = some old) :
    (store.adoptChatTargetEpoch key old.sessionEpoch).load key = some old := by
  rw [PeerSessions.adoptChatTargetEpoch, hload]
  exact PeerSessions.load_save_self (PeerSessions.key_of_load hload)

theorem importedRow_key (existing : Option PeerSessionRecord) : (importedRow key bundle existing).key = key := by
  cases existing with
  | none | some existing => rfl

theorem importedRow_epoch (existing : Option PeerSessionRecord) :
    (importedRow key bundle existing).sessionEpoch = bundle.activeEpoch := by
  cases existing with
  | none | some existing => rfl

theorem load_of_apply {imported : PeerSessions} (h : applyBundleToThread C store key bundle = .ok imported) :
    ∃ old, store.load key = some old ∧ ValidBundle C bundle ∧
      imported.load key = some (importedRow key bundle (some old)) := by
  obtain ⟨epoch, hepoch, h⟩ := roe_bind_ok.mp h
  rw [PeerSessions.chatTargetSessionEpoch] at hepoch
  split at hepoch
  · cases hepoch
  · rename_i old hold
    cases hepoch
    obtain ⟨saved, hsaved, h⟩ := roe_bind_ok.mp h
    rw [PeerSessions.importPskBundle] at hsaved
    split at hsaved
    · cases hsaved
    obtain ⟨_, hvalid, hsaved⟩ := roe_bind_ok.mp hsaved
    cases hsaved
    have hload : (store.save (importedRow key bundle (store.load key))).load key =
        some (importedRow key bundle (some old)) := by
      rw [PeerSessions.load_save_self (importedRow_key _), hold]
    refine ⟨old, hold, validateBundle_ok.mp hvalid, ?_⟩
    split at h
    · cases h
      have hadopt := load_adopt hload
      rwa [importedRow_epoch] at hadopt
    · cases h
      exact hload

variable (C store op) in
/-- A call leaves the row alone, or changes it in one of three ways. -/
theorem runOp_cases (hkey : targetKeyForThread thread = .ok key) :
    (runOp C thread store op).load key = store.load key ∨
      ∃ old new, store.load key = some old ∧ (runOp C thread store op).load key = some new ∧
        Changes C key op old new := by
  cases op with
  | ensureGenerated generated =>
    cases hrun : ensureGenerated C store thread generated with
    | error e => exact .inl (by simp [runOp, hrun, Except.toOption])
    | ok result =>
      have hafter : runOp C thread store (.ensureGenerated generated) = result.2 := by
        simp [runOp, hrun, Except.toOption]
      rw [hafter]
      rw [ensureGenerated, hkey, roe_ok_bind] at hrun
      split at hrun
      · obtain ⟨view, -, hrun⟩ := roe_bind_ok.mp hrun
        cases hrun
        exact .inl rfl
      · rename_i hnone
        obtain ⟨epoch, hepoch, hrun⟩ := roe_bind_ok.mp hrun
        obtain ⟨view, -, hrun⟩ := roe_bind_ok.mp hrun
        cases hrun
        rw [PeerSessions.chatTargetSessionEpoch] at hepoch
        split at hepoch
        · cases hepoch
        · rename_i old hold
          cases hepoch
          have hpsk : old.masterPskB64 = none := by simpa [hold] using hnone
          exact .inr ⟨old, _, hold, PeerSessions.load_save_self rfl,
            .generated generated rfl hpsk⟩
  | importRawBase64 rawB64 =>
    cases hrun : importRawBase64 C store thread rawB64 with
    | error e => exact .inl (by simp [runOp, hrun, Except.toOption])
    | ok imported =>
      have hafter : runOp C thread store (.importRawBase64 rawB64) = imported := by
        simp [runOp, hrun, Except.toOption]
      rw [importRawBase64, hkey, roe_ok_bind] at hrun
      obtain ⟨masterPskB64, hdecode, hrun⟩ := roe_bind_ok.mp hrun
      obtain ⟨epoch, hepoch, hrun⟩ := roe_bind_ok.mp hrun
      obtain ⟨old, hold, hvalid, himported⟩ := load_of_apply hrun
      obtain rfl : old.sessionEpoch = epoch := by
        simpa [PeerSessions.chatTargetSessionEpoch, hold] using hepoch
      rw [hafter]
      exact .inr ⟨old, _, hold, himported, .imported _ ⟨_, hdecode, rfl⟩ hvalid⟩
  | importBundleJson bundleJson =>
    cases hrun : importBundleJson C store thread bundleJson with
    | error e => exact .inl (by simp [runOp, hrun, Except.toOption])
    | ok imported =>
      have hafter : runOp C thread store (.importBundleJson bundleJson) = imported := by
        simp [runOp, hrun, Except.toOption]
      rw [importBundleJson, hkey, roe_ok_bind] at hrun
      obtain ⟨bundle, hparse, hrun⟩ := roe_bind_ok.mp hrun
      split at hrun
      · cases hrun
      · rename_i hchannel
        obtain ⟨old, hold, hvalid, himported⟩ := load_of_apply hrun
        rw [hafter]
        exact .inr ⟨old, _, hold, himported,
          .imported bundle ⟨hparse, by simpa using hchannel⟩ hvalid⟩
  | rotate generated retiredAtMs =>
    cases hrun : rotatePsk C store thread generated retiredAtMs with
    | error e => exact .inl (by simp [runOp, rotatePskAndExportBundle, hrun])
    | ok rotated =>
      have hafter : runOp C thread store (.rotate generated retiredAtMs) = rotated := by
        simp [runOp, rotatePskAndExportBundle, hrun]
      rw [hafter]
      rw [rotatePsk, hkey, roe_ok_bind] at hrun
      split at hrun
      · cases hrun
      · rename_i old hold
        split at hrun
        · cases hrun
        · rename_i masterPskB64 hpsk
          cases hrun
          have hown : old.key = key := PeerSessions.key_of_load hold
          have hload : (store.save (rotatedRow C old masterPskB64 generated retiredAtMs)).load key =
              some (rotatedRow C old masterPskB64 generated retiredAtMs) :=
            PeerSessions.load_save_self hown
          exact .inr ⟨old, _, hold, load_adopt hload, .rotated generated retiredAtMs masterPskB64 rfl hpsk⟩

/-! ## What every row keeps -/

variable (C) in
/-- A row that can be exported: its key and retired tail are what the checks
accept, and its integers fit the words that hold them. -/
structure SoundRow (record : PeerSessionRecord) : Prop where
  active : 0 < record.sessionEpoch
  word : record.sessionEpoch < 2 ^ 32
  psk : ∀ masterPskB64, record.masterPskB64 = some masterPskB64 → ValidPsk C masterPskB64
  tail : ValidTail C record.sessionEpoch record.retiredPsks
  retiredAt : ∀ entry ∈ record.retiredPsks,
    -2 ^ 63 ≤ entry.retiredAt ∧ entry.retiredAt < 2 ^ 63
  keyless : record.masterPskB64 = none → record.retiredPsks = []

/-- The thread's row before any key: its target's epoch, and nothing
retired. -/
def NoKeyYet (store : PeerSessions) (key : PeerSessionKey) : Prop :=
  ∀ record, store.load key = some record → record.masterPskB64 = none ∧ record.retiredPsks = [] ∧
    0 < record.sessionEpoch ∧ record.sessionEpoch < 2 ^ 32

/-- A rotation is not of the last epoch a word holds. -/
def Rotatable (key : PeerSessionKey) (store : PeerSessions) : PskOp Text → Prop
  | .rotate _ _ => (store.load key).map (·.sessionEpoch) ≠ some (2 ^ 32 - 1)
  | _ => True

instance (store : PeerSessions) : DecidablePred (Rotatable key store : PskOp Text → Prop)
  | .ensureGenerated _ => .isTrue trivial
  | .importRawBase64 _ => .isTrue trivial
  | .importBundleJson _ => .isTrue trivial
  | .rotate _ _ => inferInstanceAs (Decidable (_ ≠ _))

theorem NoKeyYet.sound (h : NoKeyYet store key) (hload : store.load key = some old) :
    SoundRow C old := by
  obtain ⟨hnone, hretired, hpos, hword⟩ := h old hload
  exact {
    active := hpos
    word := hword
    psk := by simp [hnone]
    tail := by
      rw [hretired]
      exact ⟨List.Pairwise.nil, by simp, by simp, by simp⟩
    retiredAt := by simp [hretired]
    keyless := fun _ => hretired }

theorem words_of_imports (hword : old.sessionEpoch < 2 ^ 32)
    (h : Imports C key old.sessionEpoch op bundle) : Words bundle := by
  cases op with
  | ensureGenerated generated | rotate generated retiredAtMs => exact h.elim
  | importBundleJson bundleJson => exact (parseBundleJson_ok h.1).2
  | importRawBase64 rawB64 =>
    obtain ⟨masterPskB64, -, rfl⟩ := h
    exact ⟨hword, by simp [rawBundle]⟩

theorem SoundRow.generated (hC : C.Sound) (h : SoundRow C old) (generated : MasterPsk) :
    SoundRow C (generatedRow C key old.sessionEpoch generated) where
  active := h.active
  word := h.word
  psk masterPskB64 hpsk := by
    obtain rfl : C.base64Encode generated = masterPskB64 := by simpa [generatedRow] using hpsk
    exact validPsk_encode hC generated
  tail := ⟨List.Pairwise.nil, by simp [generatedRow], by simp [generatedRow], by simp [generatedRow]⟩
  retiredAt := by simp [generatedRow]
  keyless := fun _ => rfl

theorem SoundRow.imported (h : SoundRow C old) (hvalid : ValidBundle C bundle)
    (hwords : Words bundle) : SoundRow C (importedRow key bundle (some old)) := by
  have hmem : ∀ entry, entry ∈ mergeRetired old.retiredPsks bundle.retiredEpochs ↔
      entry ∈ bundle.retiredEpochs ∨
        entry ∈ old.retiredPsks ∧ ∀ e ∈ bundle.retiredEpochs, e.epoch ≠ entry.epoch := fun entry =>
    mem_mergeRetired h.tail.distinct hvalid.tail.distinct
  have hcapped : ∀ entry ∈ capRetiredTail (mergeRetired old.retiredPsks bundle.retiredEpochs)
      bundle.activeEpoch, entry ∈ bundle.retiredEpochs ∨ entry ∈ old.retiredPsks := by
    intro entry he
    rcases (hmem entry).mp (mem_of_mem_cap he).1 with he | ⟨he, -⟩
    · exact .inl he
    · exact .inr he
  exact {
    active := hvalid.active
    word := hwords.active
    psk := by
      intro masterPskB64 hpsk
      obtain rfl : bundle.masterPskB64 = masterPskB64 := by simpa [importedRow] using hpsk
      exact hvalid.key
    tail := by
      refine validTail_cap (distinct_mergeRetired h.tail.distinct) ?_ ?_
      · intro entry he
        rcases (hmem entry).mp he with he | ⟨he, -⟩
        · exact (hvalid.tail.within entry he).1
        · exact (h.tail.within entry he).1
      · intro entry he
        rcases (hmem entry).mp he with he | ⟨he, -⟩
        · exact hvalid.tail.keys entry he
        · exact h.tail.keys entry he
    retiredAt := by
      intro entry he
      rcases hcapped entry he with he | he
      · exact hwords.retiredAt entry he
      · exact h.retiredAt entry he
    keyless := by simp [importedRow] }

theorem SoundRow.distinct_append (h : SoundRow C old) (entry : RetiredPskEntry)
    (hentry : entry.epoch = old.sessionEpoch) : DistinctEpochs (old.retiredPsks ++ [entry]) := by
  refine List.pairwise_append.mpr ⟨h.tail.distinct, List.pairwise_singleton _ _, ?_⟩
  intro e he e' he'
  obtain rfl : e' = entry := by simpa using he'
  have hlt := (h.tail.within e he).2
  omega

theorem SoundRow.rotated (hC : C.Sound) (h : SoundRow C old) (generated : MasterPsk)
    (retiredAtMs : Int64) {masterPskB64 : String} (hpsk : old.masterPskB64 = some masterPskB64)
    (hlast : old.sessionEpoch ≠ 2 ^ 32 - 1) :
    SoundRow C (rotatedRow C old masterPskB64 generated retiredAtMs) := by
  have hword := h.word
  have hpos := h.active
  have hnext : u32 (old.sessionEpoch + 1) = old.sessionEpoch + 1 := u32_succ (by omega)
  let retired : RetiredPskEntry := { epoch := old.sessionEpoch, masterPskB64, retiredAt := retiredAtMs.toInt }
  have hdistinct := h.distinct_append retired rfl
  exact {
    active := by
      simp only [rotatedRow, hnext]
      omega
    word := by
      simp only [rotatedRow, hnext]
      omega
    psk := by
      intro key' hkey'
      obtain rfl : C.base64Encode generated = key' := by simpa [rotatedRow] using hkey'
      exact validPsk_encode hC generated
    tail := by
      refine validTail_cap hdistinct ?_ ?_
      · intro entry he
        rcases List.mem_append.mp he with he | he
        · exact (h.tail.within entry he).1
        · obtain rfl : entry = retired := by simpa using he
          exact hpos
      · intro entry he
        rcases List.mem_append.mp he with he | he
        · exact h.tail.keys entry he
        · obtain rfl : entry = retired := by simpa using he
          exact h.psk masterPskB64 hpsk
    retiredAt := by
      intro entry he
      rcases List.mem_append.mp (mem_of_mem_cap he).1 with he | he
      · exact h.retiredAt entry he
      · obtain rfl : entry = retired := by simpa using he
        exact ⟨retiredAtMs.le_toInt, retiredAtMs.toInt_lt⟩
    keyless := by simp [rotatedRow] }

theorem SoundRow.changes (hC : C.Sound) (h : SoundRow C old) (hload : store.load key = some old)
    (hop : Rotatable key store op) (hchange : Changes C key op old new) : SoundRow C new := by
  cases hchange with
  | generated generated hgen hnone => exact h.generated hC generated
  | imported bundle himports hvalid => exact h.imported hvalid (words_of_imports h.word himports)
  | rotated generated retiredAtMs masterPskB64 hrotate hpsk =>
    subst hrotate
    refine h.rotated hC generated retiredAtMs hpsk ?_
    simpa [Rotatable, hload] using hop

/-- The thread's row, if there is one, can be exported. -/
def SoundTarget (C : BundleText Text) (key : PeerSessionKey) (store : PeerSessions) : Prop :=
  ∀ record, store.load key = some record → SoundRow C record

theorem SoundTarget.runOp (hC : C.Sound) (hkey : targetKeyForThread thread = .ok key)
    (h : SoundTarget C key store) (hop : Rotatable key store op) : SoundTarget C key (runOp C thread store op) := by
  intro record hrecord
  rcases runOp_cases C store op hkey with hsame | ⟨old, new, hold, hnew, hchange⟩
  · exact h record (hsame ▸ hrecord)
  · obtain rfl : new = record := by simpa [hnew] using hrecord
    exact (h old hold).changes hC hold hop hchange

/-! ## Exporting a row -/

/-- A row with a key exports to a bundle that is read back as it was. -/
theorem SoundRow.exports (hC : C.Sound) (h : SoundRow C old) (hload : store.load key = some old)
    {masterPskB64 : String} (hpsk : old.masterPskB64 = some masterPskB64) :
    ∃ bundle text, store.exportPskBundle C key = .ok bundle ∧ validateBundle C bundle = .ok () ∧
      serializeBundle C bundle = .ok text ∧ parseBundleJson C text = .ok bundle := by
  let bundle : PskBundleV1 := {
    channel := key.channel
    activeEpoch := old.sessionEpoch
    masterPskB64
    retiredEpochs := old.retiredPsks }
  have hvalid : ValidBundle C bundle := ⟨h.active, h.psk masterPskB64 hpsk, h.tail⟩
  have hwords : Words bundle := ⟨h.word, h.retiredAt⟩
  have hexport : store.exportPskBundle C key = .ok bundle := by
    rw [PeerSessions.exportPskBundle, hload]
    simp only [hpsk, cap_of_validTail h.tail]
    rw [validateBundle_ok.mpr hvalid, roe_ok_bind]
    rfl
  exact ⟨bundle, _, hexport, validateBundle_ok.mpr hvalid, serializeBundle_ok hC hvalid hwords,
    parseBundleJson_dumpJson hC hvalid hwords⟩

/-! ## The epoch -/

/-- The epoch goes back only at an import of a bundle of an earlier one. -/
theorem Changes.epoch (h : SoundRow C old) (hload : store.load key = some old)
    (hop : Rotatable key store op) (hchange : Changes C key op old new) : old.sessionEpoch ≤ new.sessionEpoch ∨
      ∃ bundle, Imports C key old.sessionEpoch op bundle ∧ bundle.activeEpoch < old.sessionEpoch := by
  cases hchange with
  | generated generated hgen hnone => exact .inl (Nat.le_refl _)
  | imported bundle himports hvalid =>
    by_cases hlt : bundle.activeEpoch < old.sessionEpoch
    · exact .inr ⟨bundle, himports, hlt⟩
    · exact .inl (Nat.le_of_not_lt hlt)
  | rotated generated retiredAtMs masterPskB64 hrotate hpsk =>
    subst hrotate
    have hlast : old.sessionEpoch ≠ 2 ^ 32 - 1 := by simpa [Rotatable, hload] using hop
    have hword := h.word
    have hnext : u32 (old.sessionEpoch + 1) = old.sessionEpoch + 1 := u32_succ (by omega)
    refine .inl ?_
    simp only [rotatedRow, hnext]
    omega

theorem epoch_runOp (hkey : targetKeyForThread thread = .ok key) (h : SoundTarget C key store)
    (hop : Rotatable key store op) (hold : store.load key = some old)
    (hnew : (runOp C thread store op).load key = some new) : old.sessionEpoch ≤ new.sessionEpoch ∨
      ∃ bundle, Imports C key old.sessionEpoch op bundle ∧ bundle.activeEpoch < old.sessionEpoch := by
  rcases runOp_cases C store op hkey with hsame | ⟨old', new', hold', hnew', hchange⟩
  · obtain rfl : old = new := by simpa [hsame, hold] using hnew
    exact .inl (Nat.le_refl _)
  · obtain rfl : old = old' := by simpa [hold] using hold'
    obtain rfl : new = new' := by simpa [hnew] using hnew'
    exact hchange.epoch (h old hold) hold hop

/-! ## How long a key stays readable -/

/-- The bundle takes the key of an epoch away from a row: it is of an earlier
epoch, or names another key for it, or follows on the row's own epoch and
does not name its key. -/
def Replaces (record : PeerSessionRecord) (bundle : PskBundleV1) (epoch : Nat)
    (masterPskB64 : String) : Prop :=
  bundle.activeEpoch < epoch ∨
  (bundle.activeEpoch = epoch ∧ bundle.masterPskB64 ≠ masterPskB64) ∨
  (∃ entry ∈ bundle.retiredEpochs, entry.epoch = epoch ∧ entry.masterPskB64 ≠ masterPskB64) ∨
  (record.sessionEpoch = epoch ∧ epoch < bundle.activeEpoch ∧
    ∀ entry ∈ bundle.retiredEpochs, entry.epoch ≠ epoch)

/-- The tail is full of keys of later epochs. -/
def TailPast (record : PeerSessionRecord) (epoch : Nat) : Prop :=
  record.retiredPsks.length = kMaxRetiredPskEpochs ∧
    ∀ entry ∈ record.retiredPsks, epoch < entry.epoch

variable {epoch : Nat} {masterPskB64 : String}

/-- What a row has for an epoch is its key, if the epoch is its own, or a
retired one. -/
theorem SoundRow.resolve (h : SoundRow C old) : old.resolveMasterPsk epoch = some masterPskB64 ↔
      (old.sessionEpoch = epoch ∧ old.masterPskB64 = some masterPskB64) ∨
        ∃ entry ∈ old.retiredPsks, entry.epoch = epoch ∧ entry.masterPskB64 = masterPskB64 := by
  have hfind : (old.retiredPsks.find? (·.epoch = epoch)).map (·.masterPskB64) = some masterPskB64 ↔
      ∃ entry ∈ old.retiredPsks, entry.epoch = epoch ∧ entry.masterPskB64 = masterPskB64 := by
    rw [Option.map_eq_some_iff]
    constructor
    · intro hsome
      obtain ⟨entry, hentry, hpsk⟩ := hsome
      obtain ⟨hmem, hepoch⟩ := (Lib.rowOf_eq_some h.tail.distinct).mp hentry
      exact ⟨entry, hmem, hepoch, hpsk⟩
    · intro hsome
      obtain ⟨entry, hmem, hepoch, hpsk⟩ := hsome
      exact ⟨entry, (Lib.rowOf_eq_some h.tail.distinct).mpr ⟨hmem, hepoch⟩, hpsk⟩
  rw [PeerSessionRecord.resolveMasterPsk]
  by_cases hown : epoch = old.sessionEpoch ∧ old.masterPskB64.isSome
  · rw [if_pos hown]
    constructor
    · intro hpsk
      exact .inl ⟨hown.1.symm, hpsk⟩
    · intro hread
      rcases hread with ⟨-, hpsk⟩ | ⟨entry, hmem, hepoch, -⟩
      · exact hpsk
      · have hlt := (h.tail.within entry hmem).2
        omega
  · rw [if_neg hown, hfind]
    constructor
    · exact .inr
    · intro hread
      rcases hread with ⟨hepoch, hpsk⟩ | hread
      · exact absurd ⟨hepoch.symm, by simp [hpsk]⟩ hown
      · exact hread

/-- A retired key stays in a capped tail, or a full tail has passed it. -/
theorem readable_or_past (hnew : SoundRow C new) {retired : List RetiredPskEntry} (hdistinct : DistinctEpochs retired)
    (hcap : new.retiredPsks = capRetiredTail retired new.sessionEpoch) {entry : RetiredPskEntry}
    (hentry : entry ∈ retired) (hbelow : entry.epoch < new.sessionEpoch) :
    new.resolveMasterPsk entry.epoch = some entry.masterPskB64 ∨ TailPast new entry.epoch := by
  rw [TailPast, hcap]
  rcases mem_cap_or_past hdistinct hentry hbelow with hkept | hpast
  · rw [← hcap] at hkept
    exact .inl (hnew.resolve.mpr (.inr ⟨entry, hkept, rfl, rfl⟩))
  · exact .inr hpast

theorem Changes.readable (h : SoundRow C old) (hnew : SoundRow C new)
    (hload : store.load key = some old) (hop : Rotatable key store op) (hchange : Changes C key op old new)
    (hkeep : ∀ bundle, Imports C key old.sessionEpoch op bundle → ¬ Replaces old bundle epoch masterPskB64)
    (hread : old.resolveMasterPsk epoch = some masterPskB64) :
    new.resolveMasterPsk epoch = some masterPskB64 ∨ TailPast new epoch := by
  cases hchange with
  | generated generated hgen hnone =>
    rcases h.resolve.mp hread with ⟨-, hpsk⟩ | ⟨entry, hmem, -, -⟩
    · simp [hnone] at hpsk
    · simp [h.keyless hnone] at hmem
  | imported bundle himports hvalid =>
    have hreplaces := hkeep bundle himports
    simp only [Replaces, not_or] at hreplaces
    obtain ⟨hearlier, hsame, hother, hfollows⟩ := hreplaces
    by_cases hactive : bundle.activeEpoch = epoch
    · have hpsk : bundle.masterPskB64 = masterPskB64 := by
        by_contra hne
        exact hsame ⟨hactive, hne⟩
      exact .inl (hnew.resolve.mpr (.inl ⟨hactive, by simp [importedRow, hpsk]⟩))
    · -- the key is a retired one of the merged tail
      have hmerged : ∃ entry ∈ mergeRetired old.retiredPsks bundle.retiredEpochs,
          entry.epoch = epoch ∧ entry.masterPskB64 = masterPskB64 := by
        by_cases hnamed : ∃ entry ∈ bundle.retiredEpochs, entry.epoch = epoch
        · obtain ⟨entry, hmem, hepoch⟩ := hnamed
          have hpsk : entry.masterPskB64 = masterPskB64 := by
            by_contra hne
            exact hother ⟨entry, hmem, hepoch, hne⟩
          exact ⟨entry, (mem_mergeRetired h.tail.distinct hvalid.tail.distinct).mpr (.inl hmem),
            hepoch, hpsk⟩
        · have hunnamed : ∀ e ∈ bundle.retiredEpochs, e.epoch ≠ epoch := by
            intro e he hepoch
            exact hnamed ⟨e, he, hepoch⟩
          rcases h.resolve.mp hread with ⟨hepoch, -⟩ | ⟨entry, hmem, hepoch, hpsk⟩
          · exact absurd ⟨hepoch, by omega, hunnamed⟩ hfollows
          · refine ⟨entry, ?_, hepoch, hpsk⟩
            refine (mem_mergeRetired h.tail.distinct hvalid.tail.distinct).mpr (.inr ⟨hmem, ?_⟩)
            rw [hepoch]
            exact hunnamed
      obtain ⟨entry, hmem, rfl, rfl⟩ := hmerged
      have hbelow : entry.epoch < (importedRow key bundle (some old)).sessionEpoch := by
        simp only [importedRow]
        omega
      exact readable_or_past hnew (distinct_mergeRetired h.tail.distinct) rfl hmem hbelow
  | rotated generated retiredAtMs activePskB64 hrotate hpsk =>
    subst hrotate
    have hlast : old.sessionEpoch ≠ 2 ^ 32 - 1 := by simpa [Rotatable, hload] using hop
    have hword := h.word
    have hnext : u32 (old.sessionEpoch + 1) = old.sessionEpoch + 1 := u32_succ (by omega)
    let retired : RetiredPskEntry :=
      { epoch := old.sessionEpoch, masterPskB64 := activePskB64, retiredAt := retiredAtMs.toInt }
    have hdistinct := h.distinct_append retired rfl
    have hlisted : ∃ entry ∈ old.retiredPsks ++ [retired],
        entry.epoch = epoch ∧ entry.masterPskB64 = masterPskB64 ∧ epoch ≤ old.sessionEpoch := by
      rcases h.resolve.mp hread with ⟨hepoch, hactive⟩ | ⟨entry, hmem, hepoch, hkey⟩
      · refine ⟨retired, by simp, hepoch, ?_, by omega⟩
        simpa [hpsk] using hactive
      · have hlt := (h.tail.within entry hmem).2
        exact ⟨entry, by simp [hmem], hepoch, hkey, by omega⟩
    obtain ⟨entry, hmem, rfl, rfl, hle⟩ := hlisted
    have hbelow : entry.epoch <
        (rotatedRow C old activePskB64 generated retiredAtMs).sessionEpoch := by
      simp only [rotatedRow, hnext]
      omega
    exact readable_or_past hnew hdistinct rfl hmem hbelow

variable (C thread key epoch masterPskB64) in
/-- A call leaves a key readable: it imports no bundle that replaces it, and
does not leave a full tail of later keys. -/
def Keeps (store : PeerSessions) (op : PskOp Text) : Prop :=
  ∀ old new, store.load key = some old → (runOp C thread store op).load key = some new →
    (∀ bundle, Imports C key old.sessionEpoch op bundle → ¬ Replaces old bundle epoch masterPskB64) ∧
      ¬ TailPast new epoch

section

variable (hC : C.Sound) (hkey : targetKeyForThread thread = .ok key) (h : SoundTarget C key store)
include hC hkey h

theorem readable_runOp (hop : Rotatable key store op) (hkeep : Keeps C thread key epoch masterPskB64 store op)
    (hread : store.resolveMasterPskForEpoch key epoch = some masterPskB64) :
    (runOp C thread store op).resolveMasterPskForEpoch key epoch = some masterPskB64 := by
  simp only [PeerSessions.resolveMasterPskForEpoch, Option.bind_eq_some_iff] at hread ⊢
  obtain ⟨old, hold, hread⟩ := hread
  rcases runOp_cases C store op hkey with hsame | ⟨old', new, hold', hnew, hchange⟩
  · exact ⟨old, hsame.trans hold, hread⟩
  · obtain rfl : old = old' := by simpa [hold] using hold'
    have hsound := (h old hold).changes hC hold hop hchange
    obtain ⟨hbundles, hpast⟩ := hkeep old new hold hnew
    rcases hchange.readable (h old hold) hsound hold hop hbundles hread with hkept | htail
    · exact ⟨new, hnew, hkept⟩
    · exact absurd htail hpast

/-- A key readable in a store is readable after every run that keeps it. -/
theorem readable_run {ops : List (PskOp Text)} (hops : Lib.Admits (runOp C thread) (Rotatable key) store ops)
    (hkeep : Lib.Admits (runOp C thread) (Keeps C thread key epoch masterPskB64) store ops)
    (hread : store.resolveMasterPskForEpoch key epoch = some masterPskB64) :
    (ops.foldl (runOp C thread) store).resolveMasterPskForEpoch key epoch = some masterPskB64 := by
  induction ops generalizing store with
  | nil => exact hread
  | cons op ops ih =>
    exact ih (h.runOp hC hkey hops.1) hops.2 hkeep.2
      (readable_runOp hC hkey h hops.1 hkeep.1 hread)

end

/-- In every run from a thread without a key, with no rotation of the last
epoch, each row with a key exports to a bundle that is read back as it was,
with a strictly increasing retired tail below the epoch and within the limit;
the epoch goes back only at an import of an earlier one; and a key readable
at any point stays readable until an import replaces it or a full tail of
later keys passes it. -/
theorem private_key_record (hC : C.Sound) (hkey : targetKeyForThread thread = .ok key)
    (hnone : NoKeyYet store key) {ops : List (PskOp Text)}
    (hops : Lib.Admits (runOp C thread) (Rotatable key) store ops) :
    (∀ s ∈ Lib.states (runOp C thread) store ops, ∀ record masterPskB64,
      s.load key = some record → record.masterPskB64 = some masterPskB64 →
        (∃ bundle text, s.exportPskBundle C key = .ok bundle ∧ validateBundle C bundle = .ok () ∧
          serializeBundle C bundle = .ok text ∧ parseBundleJson C text = .ok bundle) ∧
        record.retiredPsks.Pairwise (·.epoch < ·.epoch) ∧
        (∀ entry ∈ record.retiredPsks, entry.epoch < record.sessionEpoch) ∧
        record.retiredPsks.length ≤ kMaxRetiredPskEpochs) ∧
    (∀ before op after, ops = before ++ op :: after → ∀ old new,
      (before.foldl (runOp C thread) store).load key = some old →
      (runOp C thread (before.foldl (runOp C thread) store) op).load key = some new →
        old.sessionEpoch ≤ new.sessionEpoch ∨
          ∃ bundle, Imports C key old.sessionEpoch op bundle ∧
            bundle.activeEpoch < old.sessionEpoch) ∧
    (∀ before after, ops = before ++ after → ∀ epoch masterPskB64,
      (before.foldl (runOp C thread) store).resolveMasterPskForEpoch key epoch = some masterPskB64 →
      Lib.Admits (runOp C thread) (Keeps C thread key epoch masterPskB64)
        (before.foldl (runOp C thread) store) after →
      (ops.foldl (runOp C thread) store).resolveMasterPskForEpoch key epoch = some masterPskB64) := by
  have hstart : SoundTarget C key store := fun record hload => hnone.sound hload
  have hrun : ∀ ops, Lib.Admits (runOp C thread) (Rotatable key) store ops →
      ∀ s ∈ Lib.states (runOp C thread) store ops, SoundTarget C key s := fun ops hops =>
    hops.invariant (fun s op hs hop => hs.runOp hC hkey hop) hstart
  refine ⟨?_, ?_, ?_⟩
  · intro s hs record masterPskB64 hload hpsk
    have hrow := hrun ops hops s hs record hload
    exact ⟨hrow.exports hC hload hpsk, hrow.tail.increasing,
      fun entry he => (hrow.tail.within entry he).2, hrow.tail.size⟩
  · intro before op after hsplit old new hold hnew
    subst hsplit
    obtain ⟨hbefore, hafter⟩ := Lib.admits_append.mp hops
    exact epoch_runOp hkey (hrun before hbefore _ Lib.foldl_mem_states) hafter.1 hold hnew
  · intro before after hsplit epoch masterPskB64 hread hkeep
    subst hsplit
    obtain ⟨hbefore, hafter⟩ := Lib.admits_append.mp hops
    rw [List.foldl_append]
    exact readable_run hC hkey (hrun before hbefore _ Lib.foldl_mem_states) hafter hkeep hread

/-! ## A run on an example -/

/-- Base64 and JSON to run the code on examples: a JSON text is the object it
is the text of. -/
def sampleText : BundleText Lib.Json.Object where
  base64Encode bytes := String.ofList (Lib.Base64.encode bytes)
  base64Decode text :=
    match Lib.Base64.decode text.toList with
    | some bytes => .ok bytes
    | none => .error "Base64 decode failed"
  dumpJson object := object
  tryParseObject object := some object
  size object := object.value.textSize

theorem sampleText_sound : sampleText.Sound where
  base64 bytes := by
    have hread := Lib.Base64.decode_encode bytes
    simp [sampleText, String.toList_ofList, hread]
  base64_text := by
    intro text bytes h
    cases hread : Lib.Base64.decode text.toList with
    | none => simp [sampleText, hread] at h
    | some read =>
      obtain rfl : read = bytes := by simpa [sampleText, hread] using h
      obtain ⟨hlength, hlisted⟩ := Lib.Base64.listed_of_decode hread
      refine ⟨hlength, fun c hc => ?_⟩
      have hrange := (hlisted c hc).toNat_range
      exact Lib.Json.charSize_of_printable (by omega)
  json object := rfl
  json_size object := Nat.le_refl _

def sampleThread : Thread where
  kind := .direct
  channel := .e2e
  peerIdentityKind := "relay_user"
  peerIdentityValue := "relay:bob456"

def sampleKey : PeerSessionKey := chatTargetFromThread sampleThread

/-- The thread's row, with no key. -/
def sampleStore : PeerSessions := PeerSessions.empty.save { key := sampleKey }

def samplePsk (byte : UInt8) : MasterPsk := ⟨List.replicate kMasterPskSize byte, by simp⟩

def sampleOps : List (PskOp Lib.Json.Object) :=
  [.ensureGenerated (samplePsk 1), .rotate (samplePsk 2) 456, .rotate (samplePsk 3) 789]

theorem sampleStore_noKeyYet : NoKeyYet sampleStore sampleKey := by
  intro record hload
  obtain rfl : { key := sampleKey } = record := by
    have hsaved : sampleStore.load sampleKey = some { key := sampleKey } := PeerSessions.load_save_self rfl
    simpa [hsaved] using hload
  exact ⟨rfl, rfl, by decide, by decide⟩

example : ((sampleOps.foldl (runOp sampleText (some sampleThread)) sampleStore).load sampleKey).map
    (fun record => (record.sessionEpoch, record.retiredPsks.map (·.epoch))) = some (3, [1, 2]) := by
  decide

theorem private_key_record_sample :
    Lib.Admits (runOp sampleText (some sampleThread)) (Rotatable sampleKey) sampleStore sampleOps ∧
    ∀ s ∈ Lib.states (runOp sampleText (some sampleThread)) sampleStore sampleOps,
      ∀ record masterPskB64, s.load sampleKey = some record → record.masterPskB64 = some masterPskB64 →
        (∃ bundle text, s.exportPskBundle sampleText sampleKey = .ok bundle ∧
          validateBundle sampleText bundle = .ok () ∧ serializeBundle sampleText bundle = .ok text ∧
          parseBundleJson sampleText text = .ok bundle) ∧
        record.retiredPsks.Pairwise (·.epoch < ·.epoch) ∧
        (∀ entry ∈ record.retiredPsks, entry.epoch < record.sessionEpoch) ∧
        record.retiredPsks.length ≤ kMaxRetiredPskEpochs := by
  have hops : Lib.Admits (runOp sampleText (some sampleThread)) (Rotatable sampleKey) sampleStore
      sampleOps := by
    decide
  exact ⟨hops, (private_key_record sampleText_sound rfl sampleStore_noKeyYet hops).1⟩

/-! ## An older bundle, and another key -/

/-- A bundle of an epoch with nothing retired. -/
def sampleBundle (epoch : Nat) (psk : MasterPsk) : PskBundleV1 where
  channel := .e2e
  activeEpoch := epoch
  masterPskB64 := sampleText.base64Encode psk
  retiredEpochs := []

theorem load_importBundleJson (hC : C.Sound) (hkey : targetKeyForThread thread = .ok key)
    (hload : store.load key = some old) (hvalid : ValidBundle C bundle) (hwords : Words bundle)
    (hchannel : bundle.channel = key.channel) :
    (runOp C thread store (.importBundleJson (C.dumpJson (bundleToJson bundle)))).load key =
      some (importedRow key bundle (some old)) := by
  have hsaved : (store.save (importedRow key bundle (some old))).load key =
      some (importedRow key bundle (some old)) :=
    PeerSessions.load_save_self (importedRow_key _)
  have himport : store.importPskBundle C key bundle =
      .ok (store.save (importedRow key bundle (some old))) := by
    rw [PeerSessions.importPskBundle, if_neg (by simpa using hchannel), validateBundle_ok.mpr hvalid,
      roe_ok_bind, hload]
    rfl
  have happly : ∃ imported, applyBundleToThread C store key bundle = .ok imported ∧
      imported.load key = some (importedRow key bundle (some old)) := by
    rw [applyBundleToThread, PeerSessions.chatTargetSessionEpoch, hload]
    simp only [roe_ok_bind, himport]
    by_cases hepoch : bundle.activeEpoch ≠ old.sessionEpoch
    · have hadopt := load_adopt hsaved
      rw [importedRow_epoch] at hadopt
      exact ⟨_, if_pos hepoch, hadopt⟩
    · exact ⟨_, if_neg hepoch, hsaved⟩
  obtain ⟨imported, himported, hrow⟩ := happly
  have hrun : importBundleJson C store thread (C.dumpJson (bundleToJson bundle)) = .ok imported := by
    rw [importBundleJson, hkey, roe_ok_bind, parseBundleJson_dumpJson hC hvalid hwords, roe_ok_bind,
      if_neg (by simpa using hchannel), himported]
  simpa [runOp, hrun, Except.toOption] using hrow

theorem sampleBundle_valid {epoch : Nat} (psk : MasterPsk) (hpos : 0 < epoch) :
    ValidBundle sampleText (sampleBundle epoch psk) where
  active := hpos
  key := validPsk_encode sampleText_sound psk
  tail := ⟨List.Pairwise.nil, by simp [sampleBundle], by simp [sampleBundle], by simp [sampleBundle]⟩

theorem sampleBundle_words {epoch : Nat} (psk : MasterPsk) (hword : epoch < 2 ^ 32) :
    Words (sampleBundle epoch psk) :=
  ⟨hword, by simp [sampleBundle]⟩

/-- A bundle of epoch 2 and then one of epoch 1 with another key than the
chat had there: the epoch goes back to 1, and with an empty tail the chat's
own key of epoch 1 is not readable. -/
theorem older_bundle_rewinds :
    let run := runOp sampleText (some sampleThread)
    let own := PskOp.importBundleJson (bundleToJson (sampleBundle 1 (samplePsk 1)))
    let later := PskOp.importBundleJson (bundleToJson (sampleBundle 2 (samplePsk 2)))
    let other := PskOp.importBundleJson (bundleToJson (sampleBundle 1 (samplePsk 3)))
    ([own, later].foldl run sampleStore).chatTargetSessionEpoch sampleKey = .ok 2 ∧
    ([own, later, other].foldl run sampleStore).chatTargetSessionEpoch sampleKey = .ok 1 ∧
    ([own].foldl run sampleStore).resolveMasterPskForEpoch sampleKey 1 =
      some (sampleText.base64Encode (samplePsk 1)) ∧
    ([own, other].foldl run sampleStore).resolveMasterPskForEpoch sampleKey 1 =
      some (sampleText.base64Encode (samplePsk 3)) ∧
    sampleText.base64Encode (samplePsk 1) ≠ sampleText.base64Encode (samplePsk 3) ∧
    (([own, other].foldl run sampleStore).load sampleKey).map (·.retiredPsks) = some [] := by
  have hstart : sampleStore.load sampleKey = some { key := sampleKey } :=
    PeerSessions.load_save_self rfl
  have hstep : ∀ (store : PeerSessions) (old : PeerSessionRecord) (epoch : Nat) (psk : MasterPsk),
      store.load sampleKey = some old → 0 < epoch → epoch < 2 ^ 32 →
      (runOp sampleText (some sampleThread) store
        (.importBundleJson (bundleToJson (sampleBundle epoch psk)))).load sampleKey =
          some (importedRow sampleKey (sampleBundle epoch psk) (some old)) := by
    intro store old epoch psk hload hpos hword
    exact load_importBundleJson sampleText_sound rfl hload (sampleBundle_valid psk hpos)
      (sampleBundle_words psk hword) rfl
  have hown := hstep sampleStore _ 1 (samplePsk 1) hstart (by decide) (by decide)
  have hlater := hstep _ _ 2 (samplePsk 2) hown (by decide) (by decide)
  have hback := hstep _ _ 1 (samplePsk 3) hlater (by decide) (by decide)
  have hother := hstep _ _ 1 (samplePsk 3) hown (by decide) (by decide)
  have hne : sampleText.base64Encode (samplePsk 1) ≠ sampleText.base64Encode (samplePsk 3) := by
    intro heq
    have hread := congrArg sampleText.base64Decode heq
    rw [sampleText_sound.base64, sampleText_sound.base64] at hread
    cases hread
  refine ⟨?_, ?_, ?_, ?_, hne, ?_⟩
  · simp only [List.foldl_cons, List.foldl_nil, PeerSessions.chatTargetSessionEpoch, hlater]
    rfl
  · simp only [List.foldl_cons, List.foldl_nil, PeerSessions.chatTargetSessionEpoch, hback]
    rfl
  · simp only [List.foldl_cons, List.foldl_nil, PeerSessions.resolveMasterPskForEpoch, hown]
    rfl
  · simp only [List.foldl_cons, List.foldl_nil, PeerSessions.resolveMasterPskForEpoch, hother]
    rfl
  · simp only [List.foldl_cons, List.foldl_nil, hother]
    rfl

end PskSessionCoordinator

end Pbr
