import PpBrowser.Delivery.E2eIngestRun

/-!
# E2eIngestMarks — what one classification does to a peer's marks

`Classify`, whatever it is given: what it keeps is new, above the floor and
alone at its number; the contiguous mark goes over numbers the window has
seen, the message's own, a first message's, or one closed as empty; what it
does not keep moves no mark.
-/

namespace Pbr

open E2eIngestClassifier

/-- What is relied on of the window: it takes a number as seen only where it
has accepted it, or was caught up to it. `seen` are the numbers up to its
mark and those accepted past it. -/
structure ReplayWindow.Counts {W : Type} (R : ReplayWindow W) (seen : W → Nat → Prop) : Prop where
  upTo : ∀ w k, k ≤ R.lastContiguous w → seen w k
  fresh : ∀ k, seen R.fresh k → k = 0
  catchUpTo : ∀ w n k, seen (R.catchUpTo w n) k → seen w k ∨ k ≤ n
  accepted : ∀ w n k, seen (R.accept w n).2 k → seen w k ∨ k = n
  refused : ∀ w n k, (R.accept w n).1 = false → seen (R.accept w n).2 k → seen w k

/-! ## What is kept -/

section Marks

variable {W : Type} (R : ReplayWindow W) (seen : W → Nat → Prop) (input : IngestClassifierInput)

/-- The message is the first there is, or one closed as empty. -/
def IngestClassifierInput.FirstOrClosed (input : IngestClassifierInput) : Prop :=
  (input.syncState.contiguousPeerSeq = 0 ∧ input.syncState.loadedMaxSeq = 0) ∨
    input.senderSeq ∈ input.syncState.emptyClosedSeqs

/-- How a message kept in its epoch moves the marks. -/
structure Advances (w : W) (after : PeerSyncState) (window : W) : Prop where
  contiguous : input.syncState.contiguousPeerSeq ≤ after.contiguousPeerSeq
  loaded : input.syncState.loadedMaxSeq ≤ after.loadedMaxSeq
  floor : after.historyFloorSeq = input.syncState.historyFloorSeq
  closed : ∀ k ∈ after.emptyClosedSeqs, k ∈ input.syncState.emptyClosedSeqs
  covers : ∀ k ≤ after.contiguousPeerSeq, k ≤ input.syncState.contiguousPeerSeq ∨ k = input.senderSeq ∨
    seen window k ∨ (k ≤ input.senderSeq ∧ input.FirstOrClosed)
  window : ∀ k, seen window k → seen w k ∨ k ≤ input.syncState.contiguousPeerSeq ∨ k = input.senderSeq

/-- The marks of an epoch that starts with this message. -/
def startedAt (seq : Nat) : PeerSyncState :=
  { contiguousPeerSeq := seq, loadedMinSeq := seq, loadedMaxSeq := seq }

/-- What a message that is kept is, and what it leaves. -/
structure Kept (w : W) (out : IngestClassifierResult × W) : Prop where
  new : input.hasMessageId = false
  above : input.syncState.historyFloorSeq < input.senderSeq
  alone : ∀ id ∈ input.existingMessageIdAtSeq, id = input.messageId
  uncompromised : input.strictMode = true → input.syncState.phase ≠ .compromised
  loaded : input.senderSeq ≤ out.1.syncState.loadedMaxSeq
  marks : (input.chatTargetEpoch < input.sessionEpoch ∧
      out.1.syncState = startedAt input.senderSeq ∧ ∀ k, seen out.2 k → k ≤ input.senderSeq) ∨
    (input.sessionEpoch = input.chatTargetEpoch ∧ Advances seen input w out.1.syncState out.2)

/-- What a message that is not kept leaves. -/
structure Dropped (w : W) (out : IngestClassifierResult × W) : Prop where
  marks : out.1.syncState = { input.syncState with phase := out.1.syncState.phase }
  latched : input.strictMode = true → input.syncState.phase = .compromised →
    out.1.syncState.phase = .compromised
  window : ∀ k, seen out.2 k → seen w k ∨ k ≤ input.syncState.contiguousPeerSeq

variable {R} {seen} {input} {w : W} {phase : PeerSyncPhase}

namespace PeerSyncState

variable (state : PeerSyncState) (seq : Nat)

theorem ite_phase (condition : Prop) [Decidable condition] (phase : PeerSyncPhase) :
    (if condition then { state with phase } else state) =
      { state with phase := if condition then phase else state.phase } := by
  split <;> rfl

@[simp] theorem load_loadedMax : (state.load seq).loadedMaxSeq = max state.loadedMaxSeq seq := rfl

@[simp] theorem advance_loadedMax :
    (state.applyContiguousAdvance seq).loadedMaxSeq = max state.loadedMaxSeq seq := rfl

@[simp] theorem persisted_loadedMax :
    (state.applyPersistedMessage seq).loadedMaxSeq = max state.loadedMaxSeq seq := by
  unfold applyPersistedMessage
  dsimp only
  split <;> rfl

@[simp] theorem relaxed_contiguous :
    (state.applyRelaxedPersist seq).contiguousPeerSeq = max state.contiguousPeerSeq seq := by
  unfold applyRelaxedPersist
  dsimp only
  split <;> rfl

@[simp] theorem relaxed_loadedMax : (state.applyRelaxedPersist seq).loadedMaxSeq = max state.loadedMaxSeq seq := by
  unfold applyRelaxedPersist
  dsimp only
  split <;> rfl

@[simp] theorem relaxed_floor : (state.applyRelaxedPersist seq).historyFloorSeq = state.historyFloorSeq := by
  unfold applyRelaxedPersist
  dsimp only
  split <;> rfl

@[simp] theorem relaxed_closed : (state.applyRelaxedPersist seq).emptyClosedSeqs =
    state.emptyClosedSeqs.filter (· ≠ seq) := by
  unfold applyRelaxedPersist
  dsimp only
  split <;> rfl

end PeerSyncState

/-! ## Branch by branch -/

/-- What a message has passed when it comes to `classifyNew`. -/
structure LetIn (input : IngestClassifierInput) : Prop where
  new : input.hasMessageId = false
  above : input.syncState.historyFloorSeq < input.senderSeq
  current : input.chatTargetEpoch ≤ input.sessionEpoch
  uncompromised : input.strictMode = true → input.syncState.phase ≠ .compromised

/-- What was decided on a message is one of the two. -/
def Decided (seen : W → Nat → Prop) (input : IngestClassifierInput) (w : W)
    (out : IngestClassifierResult × W) : Prop :=
  if out.1.persistMessage = true then Kept seen input w out else Dropped seen input w out

section Branches

variable {caught : W} (hR : R.Counts seen)
  (hcaught : ∀ k, seen caught k → seen w k ∨ k ≤ input.syncState.contiguousPeerSeq) (hin : LetIn input)

include hcaught

theorem decided_compromise (reason : String) :
    Decided seen input w (compromise { input.syncState with phase } caught reason) := by
  simp only [Decided, compromise, Bool.false_eq_true, if_false]
  exact ⟨rfl, fun _ _ => rfl, hcaught⟩

include hin

theorem decided_refuse (decision : IngestDecision) (reason : String) :
    Decided seen input w (refuse decision { input.syncState with phase } caught reason) := by
  simp only [Decided, refuse, Bool.false_eq_true, if_false]
  exact ⟨rfl, fun hstrict hphase => absurd hphase (hin.uncompromised hstrict), hcaught⟩

section

variable (halone : ∀ id ∈ input.existingMessageIdAtSeq, id = input.messageId)
  (hepoch : ¬ input.sessionEpoch > input.chatTargetEpoch)
include halone hepoch

/-- A message kept in its epoch, where its number is alone. -/
theorem decided_keep {decision : IngestDecision}
    {after : PeerSyncState} {window : W}
    (hwindow : ∀ k, seen window k → seen caught k ∨ k = input.senderSeq)
    (hloaded : after.loadedMaxSeq ≥ max input.syncState.loadedMaxSeq input.senderSeq)
    (hcontiguous : input.syncState.contiguousPeerSeq ≤ after.contiguousPeerSeq)
    (hfloor : after.historyFloorSeq = input.syncState.historyFloorSeq)
    (hclosed : ∀ k ∈ after.emptyClosedSeqs, k ∈ input.syncState.emptyClosedSeqs)
    (hover : ∀ k ≤ after.contiguousPeerSeq, k ≤ input.syncState.contiguousPeerSeq ∨
      k = input.senderSeq ∨ seen window k ∨ (k ≤ input.senderSeq ∧ input.FirstOrClosed)) :
    Decided seen input w (keep decision after window) := by
  simp only [Decided, keep, if_true]
  exact {
    new := hin.new
    above := hin.above
    alone := halone
    uncompromised := hin.uncompromised
    loaded := by
      show input.senderSeq ≤ after.loadedMaxSeq
      omega
    marks := by
      have hcurrent := hin.current
      refine .inr ⟨by omega, hcontiguous, ?_, hfloor, hclosed, hover, fun k hk => ?_⟩
      · show input.syncState.loadedMaxSeq ≤ after.loadedMaxSeq
        omega
      · rcases hwindow k hk with hk | rfl
        · rcases hcaught k hk with hk | hk
          · exact .inl hk
          · exact .inr (.inl hk)
        · exact .inr (.inr rfl) }

theorem decided_older (holder : input.senderSeq < input.syncState.contiguousPeerSeq) :
    Decided seen input w (classifyOlder input { input.syncState with phase } caught) := by
  unfold classifyOlder
  dsimp only
  split
  · -- the tail is as it was
    refine decided_keep hcaught hin halone hepoch (fun k hk => .inl hk) (Nat.le_refl _) ?_ rfl
      (fun k hk => hk) (fun k hk => .inl ?_)
    · exact Nat.le_refl _
    · exact hk
  split
  · exact decided_compromise hcaught _
  · refine decided_keep hcaught hin halone hepoch (fun k hk => .inl hk) ?_ ?_ ?_ ?_ ?_
    · simp
    · rw [PeerSyncState.relaxed_contiguous]
      exact Nat.le_max_left _ _
    · simp
    · intro k hk
      simp only [PeerSyncState.relaxed_closed, List.mem_filter] at hk
      exact hk.1
    · intro k hk
      simp only [PeerSyncState.relaxed_contiguous] at hk
      omega

end

include hR

section

variable (halone : ∀ id ∈ input.existingMessageIdAtSeq, id = input.messageId)
  (hepoch : ¬ input.sessionEpoch > input.chatTargetEpoch)
include halone hepoch

theorem decided_contiguous (hnext : input.senderSeq ≤ input.syncState.contiguousPeerSeq + 1) :
    Decided seen input w (classifyContiguous R input { input.syncState with phase } caught) := by
  unfold classifyContiguous
  dsimp only
  have hclosed (k : Nat) (hk : k ∈ ({ input.syncState with phase } : PeerSyncState).emptyClosedSeqs.filter
      (· ≠ input.senderSeq)) : k ∈ input.syncState.emptyClosedSeqs := (List.mem_filter.mp hk).1
  split
  · rw [PeerSyncState.ite_phase]
    refine decided_keep hcaught hin halone hepoch (hR.accepted caught input.senderSeq) ?_ ?_ ?_ ?_ ?_
    · simp only [PeerSyncState.advance_loadedMax, PeerSyncState.persisted_loadedMax]
      omega
    · simp only [PeerSyncState.advance_contiguous, PeerSyncState.persisted_contiguous]
      omega
    · simp
    · simpa using hclosed
    · intro k hk
      simp only [PeerSyncState.advance_contiguous, PeerSyncState.persisted_contiguous] at hk
      rcases Nat.lt_or_ge (R.lastContiguous (R.accept caught input.senderSeq).2) k with hlt | hge
      · omega
      · exact .inr (.inr (.inl (hR.upTo _ k hge)))
  · refine decided_keep hcaught hin halone hepoch (hR.accepted caught input.senderSeq) ?_ ?_ ?_ ?_ ?_
    · simp
    · rw [PeerSyncState.persisted_contiguous]
      exact Nat.le_max_left _ _
    · simp
    · simpa using hclosed
    · intro k hk
      simp only [PeerSyncState.persisted_contiguous] at hk
      omega

theorem decided_gap : Decided seen input w (classifyGap R input { input.syncState with phase } caught) := by
  unfold classifyGap
  dsimp only
  split
  · rename_i haccept
    split
    · rw [PeerSyncState.ite_phase]
      refine decided_keep hcaught hin halone hepoch (hR.accepted caught input.senderSeq) ?_ ?_ ?_ ?_ ?_
      · simp only [PeerSyncState.advance_loadedMax, PeerSyncState.load_loadedMax]
        omega
      · simp only [PeerSyncState.advance_contiguous, PeerSyncState.load_contiguous]
        omega
      · simp
      · simp
      · intro k hk
        have hle : k ≤ max input.syncState.contiguousPeerSeq
            (R.lastContiguous (R.accept caught input.senderSeq).2) := hk
        rcases Nat.lt_or_ge (R.lastContiguous (R.accept caught input.senderSeq).2) k with hlt | hge
        · left
          omega
        · exact .inr (.inr (.inl (hR.upTo _ k hge)))
    · refine decided_keep hcaught hin halone hepoch (hR.accepted caught input.senderSeq) ?_ ?_ rfl
        (fun k hk => hk) (fun k hk => .inl hk)
      · simp
      · simp
  · rename_i haccept
    have hrefused (k : Nat) (hk : seen (R.accept caught input.senderSeq).2 k) : seen caught k :=
      hR.refused caught input.senderSeq k (Bool.eq_false_iff.mpr haccept) hk
    split
    · exact decided_compromise (fun k hk => hcaught k (hrefused k hk)) _
    · refine decided_keep hcaught hin halone hepoch (fun k hk => .inl (hrefused k hk)) ?_ ?_ rfl
        (fun k hk => hk) (fun k hk => .inl hk)
      · simp
      · simp

end

theorem decided_new : Decided seen input w (classifyNew R input { input.syncState with phase } caught) := by
  unfold classifyNew
  dsimp only
  split
  · split
    · exact decided_compromise hcaught _
    · exact decided_refuse hcaught hin _ _
  rename_i hother
  have halone (id : String) (hid : id ∈ input.existingMessageIdAtSeq) : id = input.messageId := by
    rw [Option.mem_def] at hid
    simpa [hid] using hother
  split
  · rename_i hepoch
    -- an epoch starts over, whatever was seen before
    simp only [Decided, keep, if_true]
    refine ⟨hin.new, hin.above, halone, hin.uncompromised, Nat.le_refl _, .inl ⟨hepoch, rfl, fun k hk => ?_⟩⟩
    rcases hR.accepted _ _ k hk with hk | rfl
    · have := hR.fresh k hk
      omega
    · exact Nat.le_refl _
  rename_i hepoch
  have hpersisted (k : Nat) (hk : k ∈ (({ input.syncState with phase } : PeerSyncState).applyPersistedMessage
      input.senderSeq).emptyClosedSeqs) : k ∈ input.syncState.emptyClosedSeqs := by
    rw [PeerSyncState.persisted_closed] at hk
    exact (List.mem_filter.mp hk).1
  split
  · rename_i hlate
    refine decided_keep hcaught hin halone hepoch (hR.accepted caught input.senderSeq) ?_ ?_ ?_
      hpersisted (fun k hk => ?_)
    · simp
    · rw [PeerSyncState.persisted_contiguous]
      exact Nat.le_max_left _ _
    · simp
    · rw [PeerSyncState.persisted_contiguous] at hk
      have hclosed : input.senderSeq ∈ input.syncState.emptyClosedSeqs := by
        simpa [PeerSyncState.isLateFill] using hlate
      rcases Nat.lt_or_ge input.syncState.contiguousPeerSeq k with hlt | hge
      · exact .inr (.inr (.inr ⟨by simp only at hk; omega, .inr hclosed⟩))
      · exact .inl hge
  split
  · rename_i holder
    exact decided_older hcaught hin halone hepoch holder
  split
  · rename_i hfirst
    refine decided_keep hcaught hin halone hepoch (hR.accepted caught input.senderSeq) ?_ ?_ ?_
      hpersisted (fun k hk => ?_)
    · simp
    · rw [PeerSyncState.persisted_contiguous]
      exact Nat.le_max_left _ _
    · simp
    · rw [PeerSyncState.persisted_contiguous] at hk
      exact .inr (.inr (.inr ⟨by simp only at hk; omega, .inl hfirst⟩))
  split
  · rename_i hnext
    have hle : u64 (input.syncState.contiguousPeerSeq + 1) ≤ input.syncState.contiguousPeerSeq + 1 :=
      Nat.mod_le _ _
    exact decided_contiguous hR hcaught hin halone hepoch (by omega)
  split
  · rename_i hone
    split
    · exact decided_compromise hcaught _
    · refine decided_keep hcaught hin halone hepoch (fun k hk => .inl hk) ?_ ?_ ?_ ?_ ?_
      · simp
      · rw [PeerSyncState.relaxed_contiguous]
        exact Nat.le_max_left _ _
      · simp
      · intro k hk
        simp only [PeerSyncState.relaxed_closed, List.mem_filter] at hk
        exact hk.1
      · intro k hk
        simp only [PeerSyncState.relaxed_contiguous] at hk
        omega
  split
  · exact decided_gap hR hcaught hin halone hepoch
  · exact decided_refuse hcaught hin _ _

end Branches

/-- **What one classification does**: whatever the message, the marks and the
window are. -/
theorem classify_decided (hR : R.Counts seen) : Decided seen input w (classify R input w) := by
  have hcaught := hR.catchUpTo w input.syncState.contiguousPeerSeq
  have hrefused (decision : IngestDecision) (reason : String) : Decided seen input w
      (refuse decision input.syncState (R.catchUpTo w input.syncState.contiguousPeerSeq) reason) := by
    simp only [Decided, refuse, Bool.false_eq_true, if_false]
    exact ⟨rfl, fun _ hphase => hphase, hcaught⟩
  unfold classify
  dsimp only
  split
  · exact hrefused _ _
  split
  · exact hrefused _ _
  split
  · exact hrefused _ _
  split
  · exact hrefused _ _
  rename_i hnew _ habove hcurrent
  have hin (h : input.strictMode = true → input.syncState.phase ≠ .compromised) : LetIn input :=
    ⟨by simpa using hnew, by omega, by omega, h⟩
  split
  · split
    · exact hrefused _ _
    · rename_i hrelaxed
      exact decided_new hR hcaught (hin fun hstrict => absurd hstrict hrelaxed)
  · rename_i hphase
    exact decided_new hR hcaught (hin fun _ => hphase)

/-! ## When a message is kept -/

namespace IngestClassifierInput

variable (input : IngestClassifierInput)

/-- What `Classify` asks of every message, before it looks at its number's
place. -/
structure Admissible : Prop where
  new : input.hasMessageId = false
  numbered : input.senderSeq ≠ 0
  above : input.syncState.historyFloorSeq < input.senderSeq
  current : input.chatTargetEpoch ≤ input.sessionEpoch
  uncompromised : input.strictMode = true → input.syncState.phase ≠ .compromised
  alone : ∀ id ∈ input.existingMessageIdAtSeq, id = input.messageId

/-- Older history that was asked for. -/
def Backfills : Prop :=
  input.authorizedOlderBackfill = true ∧ input.senderSeq > input.syncState.historyFloorSeq ∧
    (input.syncState.loadedMinSeq = 0 ∨ input.senderSeq < input.syncState.loadedMinSeq) ∧
    input.existingMessageIdAtSeq.isNone = true

/-- The number's place is one a message is kept at; `accepted` is the
window's answer. -/
def Placed (accepted : Prop) : Prop :=
  if input.sessionEpoch > input.chatTargetEpoch then True
  else if input.syncState.isLateFill input.senderSeq then True
  else if input.senderSeq < input.syncState.contiguousPeerSeq then
    input.Backfills ∨ input.strictMode = false
  else if input.syncState.contiguousPeerSeq = 0 ∧ input.syncState.loadedMaxSeq = 0 then True
  else if input.senderSeq = u64 (input.syncState.contiguousPeerSeq + 1) then True
  else if input.senderSeq = 1 ∧ input.syncState.contiguousPeerSeq > 0 then input.strictMode = false
  else if input.senderSeq > u64 (input.syncState.contiguousPeerSeq + 1) then
    accepted ∨ input.strictMode = false
  else False

end IngestClassifierInput

theorem classifyNew_persists_iff (R : ReplayWindow W) (input : IngestClassifierInput) (state : PeerSyncState)
    (w : W) : (classifyNew R input state w).1.persistMessage = true ↔
      (∀ id ∈ input.existingMessageIdAtSeq, id = input.messageId) ∧
        input.Placed ((R.accept w input.senderSeq).1 = true) := by
  unfold classifyNew IngestClassifierInput.Placed
  dsimp only
  split
  · rename_i hother
    rw [Option.any_eq_true] at hother
    obtain ⟨id, hid, hne⟩ := hother
    have hdropped : ¬ ∀ id ∈ input.existingMessageIdAtSeq, id = input.messageId :=
      fun halone => by simp [halone id hid] at hne
    simp only [hdropped, false_and, iff_false]
    split <;> simp [compromise, refuse]
  rename_i hother
  have halone : ∀ id ∈ input.existingMessageIdAtSeq, id = input.messageId := by
    intro id hid
    rw [Option.mem_def] at hid
    simpa [hid] using hother
  rw [and_iff_right halone]
  split
  · simp [keep]
  split
  · simp [keep]
  split
  · unfold classifyOlder IngestClassifierInput.Backfills
    dsimp only
    split
    · rename_i hbackfills
      simp [keep, hbackfills]
    · rename_i hbackfills
      rw [or_iff_right hbackfills]
      split
      · rename_i hstrict
        simp [compromise, hstrict]
      · rename_i hstrict
        simp [keep, hstrict]
  split
  · simp [keep]
  split
  · unfold classifyContiguous
    dsimp only
    split <;> simp [keep]
  split
  · split
    · rename_i hstrict
      simp [compromise, hstrict]
    · rename_i hstrict
      simp [keep, hstrict]
  split
  · unfold classifyGap
    dsimp only
    split
    · rename_i haccept
      split <;> simp [keep, haccept]
    · rename_i haccept
      split
      · rename_i hstrict
        simp [compromise, haccept, hstrict]
      · rename_i hstrict
        simp [keep, hstrict]
  · simp [refuse]

/-- **When a message is kept.** -/
theorem classify_persists_iff (R : ReplayWindow W) (input : IngestClassifierInput) (w : W) :
    (classify R input w).1.persistMessage = true ↔ input.Admissible ∧ input.Placed
        ((R.accept (R.catchUpTo w input.syncState.contiguousPeerSeq) input.senderSeq).1 = true) := by
  have hrefuse (decision : IngestDecision) (window : W) (reason : String) (h : ¬ input.Admissible) :
      (refuse decision input.syncState window reason).1.persistMessage = true ↔ input.Admissible ∧
        input.Placed
          ((R.accept (R.catchUpTo w input.syncState.contiguousPeerSeq) input.senderSeq).1 = true) := by
    simp [refuse, h]
  unfold classify
  dsimp only
  split
  · rename_i hnew
    exact hrefuse _ _ _ fun h => by simp [h.new] at hnew
  split
  · rename_i hzero
    exact hrefuse _ _ _ fun h => h.numbered hzero
  split
  · rename_i hbelow
    exact hrefuse _ _ _ fun h => Nat.not_le.mpr h.above hbelow
  split
  · rename_i hretired
    exact hrefuse _ _ _ fun h => Nat.not_lt.mpr h.current hretired
  rename_i hnew hzero habove hcurrent
  have hadmissible (hphase : input.strictMode = true → input.syncState.phase ≠ .compromised) :
      (∀ id ∈ input.existingMessageIdAtSeq, id = input.messageId) ↔ input.Admissible :=
    ⟨fun halone => ⟨by simpa using hnew, hzero, Nat.not_le.mp habove, Nat.not_lt.mp hcurrent, hphase, halone⟩,
      fun h => h.alone⟩
  split
  · rename_i hphase
    split
    · rename_i hstrict
      exact hrefuse _ _ _ fun h => h.uncompromised hstrict hphase
    · rename_i hrelaxed
      rw [classifyNew_persists_iff, hadmissible fun hstrict => absurd hstrict hrelaxed]
  · rename_i hphase
    rw [classifyNew_persists_iff, hadmissible fun _ => hphase]

/-! ## A message that comes again -/

/-- What is relied on of the window where a number comes again: it takes each
once, and none it was caught up to. -/
structure ReplayWindow.Once (R : ReplayWindow W) : Prop where
  again : ∀ w n m, (R.accept w n).1 = true → (R.accept (R.catchUpTo (R.accept w n).2 m) n).1 = false
  caughtUp : ∀ w n m, n ≤ m → (R.accept (R.catchUpTo w m) n).1 = false

namespace PeerSyncState

/-- A number the window takes ahead of the one after the contiguous mark. -/
def TakenAhead (state : PeerSyncState) (seq : Nat) : Prop :=
  state.isLateFill seq = false ∧ state.contiguousPeerSeq ≤ seq ∧
    ¬ (state.contiguousPeerSeq = 0 ∧ state.loadedMaxSeq = 0) ∧ u64 (state.contiguousPeerSeq + 1) < seq

/-- The contiguous mark itself, which no branch of `Classify` takes. -/
def AtMark (state : PeerSyncState) (seq : Nat) : Prop :=
  state.isLateFill seq = false ∧ seq = state.contiguousPeerSeq ∧ seq ≠ 1 ∧
    seq < u64 (state.contiguousPeerSeq + 1)

end PeerSyncState

namespace IngestClassifierInput

variable {input : IngestClassifierInput} {accepted : Prop}

theorem placed_of_later (h : input.sessionEpoch > input.chatTargetEpoch) : input.Placed accepted := by
  unfold Placed
  rw [if_pos h]
  trivial

theorem placed_relaxed (hrelaxed : input.strictMode = false) (hnumbered : input.senderSeq ≠ 0)
    (hepoch : ¬ input.sessionEpoch > input.chatTargetEpoch) :
    input.Placed accepted ↔ ¬ input.syncState.AtMark input.senderSeq := by
  have hwrap : u64 (input.syncState.contiguousPeerSeq + 1) ≤ input.syncState.contiguousPeerSeq + 1 :=
    Nat.mod_le _ _
  unfold Placed PeerSyncState.AtMark
  simp only [hrelaxed, hepoch, if_false, or_true]
  by_cases hlate : input.syncState.isLateFill input.senderSeq = true
  · simp [hlate]
  rw [Bool.not_eq_true] at hlate
  simp only [hlate, Bool.false_eq_true, if_false, true_and]
  split
  · simp only [true_iff]
    omega
  split
  · simp only [true_iff]
    omega
  split
  · simp only [true_iff]
    omega
  split
  · simp only [true_iff]
    omega
  split
  · simp only [true_iff]
    omega
  · simp only [false_iff, not_not]
    omega

/-- A strict chat keeps what is in its epoch whatever the window says, unless
the number is taken ahead. -/
theorem placed_strict (hstrict : input.strictMode = true)
    (hepoch : ¬ input.sessionEpoch > input.chatTargetEpoch) (h : input.Placed accepted)
    {accepted' : Prop} : input.Placed accepted' ↔ (input.syncState.TakenAhead input.senderSeq → accepted') := by
  unfold PeerSyncState.TakenAhead
  unfold Placed at h ⊢
  simp only [hstrict, hepoch, if_false, Bool.true_eq_false, or_false] at h ⊢
  by_cases hlate : input.syncState.isLateFill input.senderSeq = true
  · simp [hlate]
  rw [Bool.not_eq_true] at hlate
  simp only [hlate, Bool.false_eq_true, if_false, true_and] at h ⊢
  split at h
  · rename_i holder
    simp only [if_pos holder, h, true_iff]
    omega
  rename_i holder
  rw [if_neg holder]
  split at h
  · rename_i hfirst
    rw [if_pos hfirst]
    simp only [true_iff]
    exact fun hahead => absurd hfirst hahead.2.1
  rename_i hfirst
  rw [if_neg hfirst]
  split at h
  · rename_i hnext
    rw [if_pos hnext]
    simp only [true_iff]
    omega
  rename_i hnext
  rw [if_neg hnext]
  split at h
  · exact h.elim
  rename_i hone
  rw [if_neg hone]
  split at h
  · rename_i hahead
    rw [if_pos hahead]
    constructor
    · exact fun haccepted _ => haccepted
    · exact fun htaken => htaken ⟨Nat.not_lt.mp holder, hfirst, hahead⟩
  · exact h.elim

end IngestClassifierInput

/-- A message that moves the chat to its epoch starts the marks over. -/
theorem classify_later (hadmissible : input.Admissible) (hlater : input.sessionEpoch > input.chatTargetEpoch) :
    (classify R input w).1.decision = .acceptEpochAdvance ∧
      (classify R input w).1.syncState = startedAt input.senderSeq := by
  have hnew (state : PeerSyncState) (window : W) :
      (classifyNew R input state window).1.decision = .acceptEpochAdvance ∧
        (classifyNew R input state window).1.syncState = startedAt input.senderSeq := by
    have halone : ¬ input.existingMessageIdAtSeq.any (· ≠ input.messageId) := by
      rw [Option.any_eq_true]
      rintro ⟨id, hid, hne⟩
      simp [hadmissible.alone id hid] at hne
    unfold classifyNew
    dsimp only
    rw [if_neg halone, if_pos hlater]
    exact ⟨rfl, rfl⟩
  unfold classify
  dsimp only
  rw [if_neg (by simp [hadmissible.new]), if_neg hadmissible.numbered,
    if_neg (Nat.not_le.mpr hadmissible.above), if_neg (Nat.not_lt.mpr hadmissible.current)]
  split
  · rename_i hphase
    rw [if_neg fun hstrict => hadmissible.uncompromised hstrict hphase]
    exact hnew _ _
  · exact hnew _ _

/-- The decision is not one that moves the chat. -/
def Stays (out : IngestClassifierResult × W) : Prop := out.1.decision ≠ .acceptEpochAdvance

theorem stays_older (state : PeerSyncState) : Stays (classifyOlder input state w) := by
  unfold classifyOlder
  dsimp only
  split
  · simp [Stays, keep]
  split <;> simp [Stays, keep, compromise]

theorem stays_contiguous (state : PeerSyncState) : Stays (classifyContiguous R input state w) := by
  unfold classifyContiguous
  dsimp only
  split <;> simp [Stays, keep]

theorem stays_gap (state : PeerSyncState) : Stays (classifyGap R input state w) := by
  unfold classifyGap
  dsimp only
  split
  · split <;> simp [Stays, keep]
  split <;> simp [Stays, keep, compromise]

theorem stays_new (h : ¬ input.sessionEpoch > input.chatTargetEpoch) (state : PeerSyncState) :
    Stays (classifyNew R input state w) := by
  unfold classifyNew
  dsimp only
  split
  · split <;> simp [Stays, refuse, compromise]
  split
  · simp [Stays, keep]
  split
  · exact stays_older state
  split
  · simp [Stays, keep]
  split
  · exact stays_contiguous state
  split
  · split <;> simp [Stays, keep, compromise]
  split
  · exact stays_gap state
  · simp [Stays, refuse]

theorem classify_stays (h : ¬ input.sessionEpoch > input.chatTargetEpoch) : Stays (classify R input w) := by
  unfold classify
  dsimp only
  repeat' split
  all_goals first | exact stays_new h _ | simp [Stays, refuse]

theorem classify_ahead (hadmissible : input.Admissible)
    (hepoch : ¬ input.sessionEpoch > input.chatTargetEpoch) (hstrict : input.strictMode = true)
    (hahead : input.syncState.TakenAhead input.senderSeq) (hplaced : input.Placed
      ((R.accept (R.catchUpTo w input.syncState.contiguousPeerSeq) input.senderSeq).1 = true)) :
    (R.accept (R.catchUpTo w input.syncState.contiguousPeerSeq) input.senderSeq).1 = true ∧ (classify R input w).2 =
        (R.accept (R.catchUpTo w input.syncState.contiguousPeerSeq) input.senderSeq).2 := by
  have haccepted := (IngestClassifierInput.placed_strict hstrict hepoch hplaced).mp hplaced hahead
  refine ⟨haccepted, ?_⟩
  obtain ⟨hlate, htail, hfirst, hpast⟩ := hahead
  have halone : ¬ input.existingMessageIdAtSeq.any (· ≠ input.messageId) := by
    rw [Option.any_eq_true]
    rintro ⟨id, hid, hne⟩
    simp [hadmissible.alone id hid] at hne
  have hone : ¬ (input.senderSeq = 1 ∧ input.syncState.contiguousPeerSeq > 0) := by
    intro hone
    unfold IngestClassifierInput.Placed at hplaced
    rw [if_neg hepoch, hlate, if_neg Bool.false_ne_true, if_neg (Nat.not_lt.mpr htail), if_neg hfirst,
      if_neg (by omega), if_pos hone, hstrict] at hplaced
    cases hplaced
  unfold classify
  dsimp only
  rw [if_neg (by simp [hadmissible.new]), if_neg hadmissible.numbered,
    if_neg (Nat.not_le.mpr hadmissible.above), if_neg (Nat.not_lt.mpr hadmissible.current),
    if_neg (hadmissible.uncompromised hstrict)]
  unfold classifyNew
  dsimp only
  rw [if_neg halone, if_neg hepoch, hlate, if_neg Bool.false_ne_true, if_neg (Nat.not_lt.mpr htail),
    if_neg hfirst, if_neg (by omega), if_neg hone, if_pos hpast]
  unfold classifyGap
  dsimp only
  rw [if_pos haccepted]
  split <;> rfl

end Marks

end Pbr
