import Mathlib.Data.List.Induction
import Mathlib.Tactic.SplitIfs
import PpBrowser.Messaging.RelayIngest

/-!
# GroupIngestRun — the numberings of a group's members

Over any sequence of copies: a group's thread has no sync state in the
store, so every copy is classified with the default. What is decided on one
member's copies is then a matter of the stored rows alone.
-/

namespace Pbr

open E2eIngestClassifier

/-! ## No sync state -/

namespace SqliteThreads

variable {store : SqliteThreads} {groupId threadId : String} {thread : ThreadRow}

theorem getThread_some (h : store.getThread threadId = some thread) :
    thread ∈ store.threads ∧ thread.id = threadId := by
  have hid := List.find?_some h
  exact ⟨List.mem_of_find?_eq_some h, by simpa using hid⟩

theorem findGroupThread_some (h : store.findGroupThread groupId = some thread) :
    store.getThread thread.id = some thread ∧ thread.kind = .group := by
  simp only [findGroupThread, Option.bind_eq_some_iff] at h
  obtain ⟨threadId, hthreadId, hget⟩ := h
  obtain ⟨hmem, rfl⟩ := getThread_some hget
  refine ⟨hget, store.grouped thread hmem ?_⟩
  rcases Option.or_eq_some_iff.mp hthreadId with hmapped | ⟨-, hlisted⟩
  · right
    obtain ⟨target, htarget, hid⟩ := Option.map_eq_some_iff.mp hmapped
    exact ⟨target, List.mem_of_find?_eq_some htarget, hid⟩
  · left
    obtain ⟨listed, hfound, hid⟩ := Option.map_eq_some_iff.mp hlisted
    -- one thread has the id
    have hlistedGet := Lib.rowOf_of_mem store.distinct (List.mem_of_find?_eq_some hfound)
    have hsame : store.getThread thread.id = some listed := by
      rw [← hid]
      exact hlistedGet
    obtain rfl : listed = thread := by
      rw [hget] at hsame
      exact (Option.some.inj hsame).symm
    have hgroup := List.find?_some hfound
    simp only [decide_eq_true_eq] at hgroup
    simp [hgroup]

theorem syncTarget_group (h : store.findGroupThread groupId = some thread) :
    store.syncTarget thread.id = .error "Not a direct thread" := by
  obtain ⟨hget, hkind⟩ := findGroupThread_some h
  simp [syncTarget, hget, directTargetForThread, hkind]

end SqliteThreads

/-! ## A copy classified with the default -/

/-- What becomes of a message without marks, whatever the window holds. -/
def unmarkedResult (input : IngestClassifierInput) : IngestClassifierResult :=
  if input.senderSeq = 0 then { decision := .hardReject, syncState := {}, reason := "seq 0" }
  else if input.existingMessageIdAtSeq.any (· ≠ input.messageId) then
    { decision := .silentDiscard, syncState := {}
      reason := "another message holds this seq (a sender rewound within the epoch)" }
  else
    { decision := .acceptBootstrap, persistMessage := true
      syncState := ({} : PeerSyncState).applyPersistedMessage input.senderSeq }

theorem classify_unmarked {W : Type} (R : ReplayWindow W) (input : IngestClassifierInput) (w : W)
    (hdefault : input.syncState = {}) (hrelaxed : input.strictMode = false)
    (hunheld : input.hasMessageId = false) (hown : input.chatTargetEpoch = input.sessionEpoch) :
    (classify R input w).1 = unmarkedResult input := by
  simp only [classify, unmarkedResult, hdefault, hunheld, hown, Bool.false_eq_true, if_false, Nat.le_zero_eq,
    Nat.lt_irrefl, reduceCtorEq]
  by_cases hseq : input.senderSeq = 0
  · simp [hseq, refuse]
  · simp only [hseq, if_false, classifyNew, hrelaxed, hown, hdefault, gt_iff_lt, Nat.lt_irrefl,
      PeerSyncState.isLateFill, List.contains_nil, Bool.false_eq_true, Nat.not_lt_zero, and_self, if_true]
    by_cases hother : input.existingMessageIdAtSeq.any (· ≠ input.messageId) = true
    · rw [if_pos hother, if_pos hother]
      rfl
    · rw [if_neg hother, if_neg hother]
      rfl

theorem unmarkedResult_persists {input : IngestClassifierInput}
    (h : (unmarkedResult input).persistMessage = true) : (unmarkedResult input).syncState ≠ {} := by
  unfold unmarkedResult at h ⊢
  split_ifs at h ⊢ with hseq hother
  intro hnone
  have hmark := congrArg PeerSyncState.contiguousPeerSeq hnone
  have hkept : (({} : PeerSyncState).applyPersistedMessage input.senderSeq).contiguousPeerSeq =
      input.senderSeq := by
    simp [PeerSyncState.applyPersistedMessage, PeerSyncState.applyContiguousAdvance, PeerSyncState.load,
      PeerSyncState.removeLateFillSeq]
  rw [hkept] at hmark
  exact hseq hmark

namespace GroupIngest

variable {W : Type} {R : ReplayWindow W} {localRelayUserId : String} {chat chat' : GroupIngest W}
  {copy : GroupCopy} {thread : ThreadRow}

theorem loadedSyncState_group (hthread : chat.store.findGroupThread copy.groupId = some thread) :
    chat.loadedSyncState thread.id copy = {} := by
  simp [loadedSyncState, SqliteThreads.getPeerSyncState, SqliteThreads.syncTarget_group hthread]

theorem persist_store (hthread : chat.store.findGroupThread copy.groupId = some thread) (windows : String × Nat × String → W)
    (syncState : PeerSyncState) :
    ({ chat with replayWindows := windows }.persist thread.id copy syncState).store = chat.store := by
  simp [persist, SqliteThreads.setPeerSyncState, SqliteThreads.syncTarget_group hthread]

/-- The row a receipt's copy is stored as. -/
def storedRow (receipt : GroupReceipt) : List GroupRow :=
  match receipt.kept with
  | none => []
  | some kept => [⟨kept.1, receipt.copy.messageId, receipt.copy.senderSeq⟩]

/-- The receipt of a copy that comes to the classifier. -/
def receiptIn (chat : GroupIngest W) (threadId : String) (copy : GroupCopy) : GroupReceipt :=
  let result := unmarkedResult (chat.classifierInput threadId copy)
  if ¬ result.persistMessage then { copy, decision := result.decision, classifiedWith := some {} }
  else if ¬ copy.appended then { copy, decision := .hardReject, classifiedWith := some {} }
  else
    { copy, decision := result.decision, classifiedWith := some {}
      kept := some (copy.senderNumbering threadId, result.syncState) }

theorem classifyAndPersist_group (hthread : chat.store.findGroupThread copy.groupId = some thread) :
    (chat.classifyAndPersist R thread.id copy).1 = chat.receiptIn thread.id copy ∧
      (chat.classifyAndPersist R thread.id copy).2.store = chat.store ∧
      (chat.classifyAndPersist R thread.id copy).2.rows = storedRow (chat.receiptIn thread.id copy) ++ chat.rows := by
  have hdefault := loadedSyncState_group hthread
  have hresult := classify_unmarked R (chat.classifierInput thread.id copy)
    (chat.replayWindows (replayKey thread.id copy)) hdefault rfl rfl rfl
  simp only [classifyAndPersist, receiptIn, ← hresult, hdefault]
  split_ifs
  · exact ⟨rfl, persist_store hthread _ _, rfl⟩
  · exact ⟨rfl, rfl, rfl⟩
  · exact ⟨rfl, rfl, rfl⟩

/-! ## What a copy does -/

/-- A copy comes to the classifier, in its group's thread. -/
structure Classified (localRelayUserId : String) (chat : GroupIngest W) (copy : GroupCopy) (thread : ThreadRow) :
    Prop where
  another : copy.senderContactId ≠ localRelayUserId
  unstopped : copy.stopped = none
  found : chat.store.findGroupThread copy.groupId = some thread
  unheld : chat.hasMessageId thread.id copy.messageId = false

theorem process_cases (R : ReplayWindow W) (localRelayUserId : String) (chat : GroupIngest W) (copy : GroupCopy) :
    (∃ thread, Classified localRelayUserId chat copy thread ∧
      chat.processGroupEnvelope R localRelayUserId copy = chat.classifyAndPersist R thread.id copy) ∨
    (∃ decision, chat.processGroupEnvelope R localRelayUserId copy = ({ copy, decision }, chat)) := by
  unfold processGroupEnvelope
  by_cases hown : copy.senderContactId = localRelayUserId
  · rw [if_pos hown]
    exact .inr ⟨_, rfl⟩
  · rw [if_neg hown]
    cases hstopped : copy.stopped with
    | some decision => exact .inr ⟨_, rfl⟩
    | none =>
      cases hfound : chat.store.findGroupThread copy.groupId with
      | none => exact .inr ⟨_, rfl⟩
      | some thread =>
        dsimp only
        split_ifs with hheld
        · exact .inr ⟨_, rfl⟩
        · exact .inl ⟨thread, ⟨hown, hstopped, hfound, by simpa using hheld⟩, rfl⟩

theorem process_store : (chat.processGroupEnvelope R localRelayUserId copy).2.store = chat.store := by
  rcases process_cases R localRelayUserId chat copy with ⟨thread, hclassified, heq⟩ | ⟨decision, heq⟩
  · rw [heq]
    exact (classifyAndPersist_group hclassified.found).2.1
  · rw [heq]

theorem process_rows : (chat.processGroupEnvelope R localRelayUserId copy).2.rows =
    storedRow (chat.processGroupEnvelope R localRelayUserId copy).1 ++ chat.rows := by
  rcases process_cases R localRelayUserId chat copy with ⟨thread, hclassified, heq⟩ | ⟨decision, heq⟩
  · rw [heq, (classifyAndPersist_group hclassified.found).1]
    exact (classifyAndPersist_group hclassified.found).2.2
  · rw [heq]
    rfl

theorem process_copy : (chat.processGroupEnvelope R localRelayUserId copy).1.copy = copy := by
  rcases process_cases R localRelayUserId chat copy with ⟨thread, hclassified, heq⟩ | ⟨decision, heq⟩
  · rw [heq, (classifyAndPersist_group hclassified.found).1]
    unfold receiptIn
    dsimp only
    split_ifs
    all_goals rfl
  · rw [heq]

theorem process_kept {kept : SenderNumbering × PeerSyncState}
    (h : (chat.processGroupEnvelope R localRelayUserId copy).1.kept = some kept) :
    kept.2 ≠ {} ∧ kept.1.senderContactId = copy.senderContactId ∧ copy.senderContactId ≠ localRelayUserId := by
  rcases process_cases R localRelayUserId chat copy with ⟨thread, hclassified, heq⟩ | ⟨decision, heq⟩
  · rw [heq, (classifyAndPersist_group hclassified.found).1] at h
    unfold receiptIn at h
    dsimp only at h
    split_ifs at h with hpersists happended
    obtain rfl := Option.some.inj h
    exact ⟨unmarkedResult_persists (by simpa using hpersists), rfl, hclassified.another⟩
  · rw [heq] at h
    cases h

theorem process_classifiedWith {loaded : PeerSyncState}
    (h : (chat.processGroupEnvelope R localRelayUserId copy).1.classifiedWith = some loaded) :
    loaded = {} ∧ copy.senderContactId ≠ localRelayUserId := by
  rcases process_cases R localRelayUserId chat copy with ⟨thread, hclassified, heq⟩ | ⟨decision, heq⟩
  · rw [heq, (classifyAndPersist_group hclassified.found).1] at h
    refine ⟨?_, hclassified.another⟩
    unfold receiptIn at h
    dsimp only at h
    split_ifs at h
    all_goals exact (Option.some.inj h).symm
  · rw [heq] at h
    cases h

/-- Two devices that hold the same of a copy's id and number receive it
alike. -/
theorem process_congr (hstore : chat.store = chat'.store) (hheld : ∀ thread ∈ chat.store.findGroupThread copy.groupId,
      chat.hasMessageId thread.id copy.messageId = chat'.hasMessageId thread.id copy.messageId)
    (hseq : ∀ threadId, chat.findMessageIdAtSeq (copy.senderNumbering threadId) copy.senderSeq =
      chat'.findMessageIdAtSeq (copy.senderNumbering threadId) copy.senderSeq) :
    (chat.processGroupEnvelope R localRelayUserId copy).1 =
      (chat'.processGroupEnvelope R localRelayUserId copy).1 := by
  unfold processGroupEnvelope
  rw [← hstore]
  split_ifs with hown
  · rfl
  · cases copy.stopped with
    | some decision => rfl
    | none =>
      cases hfound : chat.store.findGroupThread copy.groupId with
      | none => rfl
      | some thread =>
        dsimp only
        rw [← hheld thread hfound]
        split_ifs
        · rfl
        · have hinput : chat.classifierInput thread.id copy = chat'.classifierInput thread.id copy := by
            simp only [classifierInput, hseq, loadedSyncState, hstore]
          rw [(classifyAndPersist_group hfound).1, (classifyAndPersist_group (hstore ▸ hfound)).1]
          simp only [receiptIn, hinput]

end GroupIngest

/-! ## Every run -/

namespace GroupRun

open GroupIngest

variable {W : Type} {R : ReplayWindow W} {localRelayUserId : String} {store : SqliteThreads}

/-- What holds of every run: the store stays as it is, and a numbering of
another's has rows when something was kept of it. -/
structure Sound (localRelayUserId : String) (store : SqliteThreads) (run : GroupRun W) : Prop where
  store : run.ingest.store = store
  kept : ∀ receipt ∈ run.receipts, ∀ kept ∈ receipt.kept, kept.2 ≠ {}
  stored : ∀ numbering : SenderNumbering, numbering.senderContactId ≠ localRelayUserId →
    ((∃ row ∈ run.ingest.rows, row.numbering = numbering) ↔
      ∃ receipt ∈ run.receipts, ∃ kept ∈ receipt.kept, kept.1 = numbering)

theorem mem_storedRow {receipt : GroupReceipt} {numbering : SenderNumbering} :
    (∃ row ∈ storedRow receipt, row.numbering = numbering) ↔ ∃ kept ∈ receipt.kept, kept.1 = numbering := by
  unfold storedRow
  cases receipt.kept with
  | none | some kept => simp

theorem Sound.step {run : GroupRun W} (h : Sound localRelayUserId store run) (event : GroupIngestEvent) :
    Sound localRelayUserId store (run.step R localRelayUserId event) := by
  cases event with
  | deliver copy =>
    refine ⟨process_store.trans h.store, ?_, ?_⟩
    · intro receipt hreceipt kept hkept
      rcases List.mem_cons.mp hreceipt with rfl | hold
      · exact (process_kept hkept).1
      · exact h.kept receipt hold kept hkept
    · intro numbering hanother
      show (∃ row ∈ (run.ingest.processGroupEnvelope R localRelayUserId copy).2.rows, _) ↔
        ∃ receipt ∈ (run.ingest.processGroupEnvelope R localRelayUserId copy).1 :: run.receipts, _
      rw [process_rows]
      simp only [List.mem_append, or_and_right, exists_or, List.mem_cons, exists_eq_left]
      exact or_congr mem_storedRow (h.stored numbering hanother)
  | ownMessage threadId messageId device sessionEpoch senderSeq =>
    refine ⟨h.store, h.kept, ?_⟩
    intro numbering hanother
    show _ ↔ ∃ receipt ∈ run.receipts, ∃ kept ∈ receipt.kept, kept.1 = numbering
    rw [← h.stored numbering hanother]
    simp only [GroupRun.step, List.mem_cons, or_and_right, exists_or, exists_eq_left]
    apply or_iff_right
    intro hown
    exact hanother (congrArg SenderNumbering.senderContactId hown).symm
  | restart => exact ⟨h.store, h.kept, h.stored⟩

theorem after_sound (R : ReplayWindow W) (localRelayUserId : String) (store : SqliteThreads)
    (events : List GroupIngestEvent) : Sound localRelayUserId store (after R localRelayUserId store events) := by
  have hstart : Sound localRelayUserId store (start R store) :=
    ⟨rfl, fun _ h => (nomatch h), fun _ _ => by simp [start]⟩
  unfold after
  induction events using List.reverseRecOn with
  | nil => exact hstart
  | append_singleton events event ih =>
    rw [List.foldl_append]
    exact ih.step event

/-- The default is what was stored last just when nothing was kept of the
numbering. -/
theorem Sound.lastStored_iff {run : GroupRun W} (h : Sound localRelayUserId store run) {numbering : SenderNumbering}
    (hanother : numbering.senderContactId ≠ localRelayUserId) :
    {} = run.lastStored numbering ↔ ∀ row ∈ run.ingest.rows, row.numbering ≠ numbering := by
  have hrows : (∀ row ∈ run.ingest.rows, row.numbering ≠ numbering) ↔
      ¬ ∃ receipt ∈ run.receipts, ∃ kept ∈ receipt.kept, kept.1 = numbering := by
    rw [← h.stored numbering hanother]
    push Not
    rfl
  rw [hrows]
  unfold lastStored
  cases hfind : (run.receipts.filterMap (·.kept)).find? (·.1 = numbering) with
  | none =>
    simp only [Option.elim_none, true_iff]
    rintro ⟨receipt, hreceipt, kept, hkept, hnumbering⟩
    have hmem : kept ∈ run.receipts.filterMap (·.kept) := List.mem_filterMap.mpr ⟨receipt, hreceipt, hkept⟩
    have hnot := List.find?_eq_none.mp hfind kept hmem
    simp [hnumbering] at hnot
  | some kept =>
    obtain ⟨receipt, hreceipt, hkept⟩ := List.mem_filterMap.mp (List.mem_of_find?_eq_some hfind)
    have hnumbering := List.find?_some hfind
    simp only [decide_eq_true_eq] at hnumbering
    have hmarks := h.kept receipt hreceipt kept hkept
    simp only [Option.elim_some]
    constructor
    · exact fun hnone => absurd hnone.symm hmarks
    · exact fun hno => absurd ⟨receipt, hreceipt, kept, hkept, hnumbering⟩ hno

/-! ## One member among others -/

/-- A row of the member's or of one's own. -/
def ownRow (localRelayUserId member : String) (row : GroupRow) : Bool :=
  row.numbering.senderContactId = member ∨ row.numbering.senderContactId = localRelayUserId

/-- No other member's stored message in the thread has the id of a copy of the
member's. -/
def OwnId (localRelayUserId member : String) (run : GroupRun W) : GroupIngestEvent → Prop
  | .deliver copy =>
    copy.senderContactId = member →
      ∀ thread ∈ run.ingest.store.findGroupThread copy.groupId, ∀ row ∈ run.ingest.rows,
        row.numbering.threadId = thread.id → row.messageId = copy.messageId →
          ownRow localRelayUserId member row = true
  | _ => True

/-- A run beside one without the other members' copies. -/
structure Beside (localRelayUserId member : String) (run alone : GroupRun W) : Prop where
  store : run.ingest.store = alone.ingest.store
  rows : alone.ingest.rows = run.ingest.rows.filter (ownRow localRelayUserId member)
  receipts : alone.receipts.filter (·.copy.senderContactId = member) =
    run.receipts.filter (·.copy.senderContactId = member)

namespace Beside

variable {member : String} {run alone : GroupRun W} {copy : GroupCopy}

section

variable (h : Beside localRelayUserId member run alone)
include h

theorem receipt (hmember : copy.senderContactId = member) (hown : OwnId localRelayUserId member run (.deliver copy)) :
    (run.ingest.processGroupEnvelope R localRelayUserId copy).1 =
      (alone.ingest.processGroupEnvelope R localRelayUserId copy).1 := by
  apply process_congr h.store
  · intro thread hthread
    simp only [hasMessageId, h.rows, List.any_filter]
    rw [Bool.eq_iff_iff]
    simp only [List.any_eq_true, decide_eq_true_eq, Bool.and_eq_true]
    constructor
    · rintro ⟨row, hrow, hid⟩
      exact ⟨row, hrow, hown hmember thread hthread row hrow hid.1 hid.2, hid⟩
    · rintro ⟨row, hrow, -, hid⟩
      exact ⟨row, hrow, hid⟩
  · intro threadId
    simp only [findMessageIdAtSeq, h.rows, List.find?_filter]
    congr 2
    funext row
    by_cases hnumbering : row.numbering = copy.senderNumbering threadId
    · have hrow : ownRow localRelayUserId member row = true := by
        simp [ownRow, hnumbering, GroupCopy.senderNumbering, hmember]
      simp [hrow]
    · simp [hnumbering]

theorem deliver (hmember : copy.senderContactId = member) (hown : OwnId localRelayUserId member run (.deliver copy)) :
    Beside localRelayUserId member (run.step R localRelayUserId (.deliver copy))
      (alone.step R localRelayUserId (.deliver copy)) := by
  have hreceipt := h.receipt (R := R) hmember hown
  refine ⟨?_, ?_, ?_⟩
  · exact process_store.trans (h.store.trans process_store.symm)
  · show (alone.ingest.processGroupEnvelope R localRelayUserId copy).2.rows =
      (run.ingest.processGroupEnvelope R localRelayUserId copy).2.rows.filter _
    rw [process_rows, process_rows, List.filter_append, ← h.rows, ← hreceipt]
    congr 1
    symm
    rw [List.filter_eq_self]
    intro row hrow
    unfold storedRow at hrow
    cases hkept : (run.ingest.processGroupEnvelope R localRelayUserId copy).1.kept with
    | none => simp [hkept] at hrow
    | some kept =>
      rw [hkept] at hrow
      obtain rfl := List.mem_singleton.mp hrow
      simp [ownRow, (process_kept hkept).2.1, hmember]
  · show List.filter _ ((alone.ingest.processGroupEnvelope R localRelayUserId copy).1 :: alone.receipts) =
      List.filter _ ((run.ingest.processGroupEnvelope R localRelayUserId copy).1 :: run.receipts)
    rw [List.filter_cons, List.filter_cons, h.receipts, hreceipt]

theorem skip (hother : copy.senderContactId ≠ member) :
    Beside localRelayUserId member (run.step R localRelayUserId (.deliver copy)) alone := by
  refine ⟨process_store.trans h.store, ?_, ?_⟩
  · show _ = (run.ingest.processGroupEnvelope R localRelayUserId copy).2.rows.filter _
    rw [process_rows, List.filter_append, ← h.rows]
    suffices hnone : (storedRow (run.ingest.processGroupEnvelope R localRelayUserId copy).1).filter
        (ownRow localRelayUserId member) = [] by
      rw [hnone]
      rfl
    rw [List.filter_eq_nil_iff]
    intro row hrow
    unfold storedRow at hrow
    cases hkept : (run.ingest.processGroupEnvelope R localRelayUserId copy).1.kept with
    | none => simp [hkept] at hrow
    | some kept =>
      rw [hkept] at hrow
      obtain rfl := List.mem_singleton.mp hrow
      obtain ⟨-, hsender, hlocal⟩ := process_kept hkept
      simp [ownRow, hsender, hother, hlocal]
  · show _ = List.filter _ ((run.ingest.processGroupEnvelope R localRelayUserId copy).1 :: run.receipts)
    rw [List.filter_cons_of_neg, h.receipts]
    simp [process_copy, hother]

theorem foldl {events : List GroupIngestEvent}
    (hown : Lib.Admits (step R localRelayUserId) (OwnId localRelayUserId member) run events) :
    Beside localRelayUserId member (events.foldl (step R localRelayUserId) run)
      ((events.filter (·.Concerns member)).foldl (step R localRelayUserId) alone) := by
  induction events generalizing run alone with
  | nil => exact h
  | cons event events ih =>
    obtain ⟨hevent, hrest⟩ := hown
    cases event with
    | deliver copy =>
      by_cases hmember : copy.senderContactId = member
      · rw [List.filter_cons_of_pos (by simp [GroupIngestEvent.Concerns, hmember])]
        exact ih (h.deliver hmember hevent) hrest
      · rw [List.filter_cons_of_neg (by simp [GroupIngestEvent.Concerns, hmember])]
        exact ih (h.skip hmember) hrest
    | ownMessage threadId messageId device sessionEpoch senderSeq =>
      apply ih ?_ hrest
      refine ⟨h.store, ?_, h.receipts⟩
      show _ :: alone.ingest.rows = List.filter _ (_ :: run.ingest.rows)
      rw [List.filter_cons_of_pos (by simp [ownRow]), h.rows]
    | restart => exact ih ⟨h.store, h.rows, h.receipts⟩ hrest

end

end Beside

def sampleThreads : SqliteThreads where
  threads := [{ id := "t", kind := .group, groupId := some "g" }]
  groupTargets := [("g", "t")]
  distinct := by simp [Lib.DistinctKeys]
  grouped := by simp

def sampleCopy (senderContactId messageId : String) (senderSeq : Nat) : GroupCopy :=
  { groupId := "g", messageId, senderContactId, senderSeq, sessionEpoch := 1, senderDevice := "phone" }

def sampleEvents : List GroupIngestEvent :=
  [.deliver (sampleCopy "ann" "a1" 1), .deliver (sampleCopy "bob" "b1" 1), .restart,
    .deliver (sampleCopy "ann" "a2" 2)]

end GroupRun

end Pbr
