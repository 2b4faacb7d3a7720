import Mathlib.Data.List.Nodup
import PpBrowser.Delivery.E2eIngestClassifier

/-!
# E2eIngestRun — an honest peer in a strict private chat

A peer numbers its messages 1, 2, 3, … in one epoch; they arrive reordered
and again, and the app restarts. The chat keeps its promise just when
message 1 arrives first, no restart comes while a message waits for one
before it, and no message is `kReplayWindowSize` or more past the first
missing one. A restart forgets the messages that wait: the tail then stops
before the first of them.
-/

namespace Pbr

open E2eIngestClassifier

/-! ## The window -/

/-- What the classifier relies on: each number of the window is taken once,
and the tail advances over the numbers taken. `ahead` are those taken past
the tail. -/
structure ReplayWindow.Lawful {W : Type} (R : ReplayWindow W) (ahead : W → Nat → Prop) : Prop where
  fresh_last : R.lastContiguous R.fresh = 0
  fresh_ahead : ∀ n, ¬ ahead R.fresh n
  catchUpTo_held : ∀ w n, n ≤ R.lastContiguous w → R.catchUpTo w n = w
  catchUpTo_last : ∀ w n, (∀ k, ¬ ahead w k) → R.lastContiguous w ≤ n →
    R.lastContiguous (R.catchUpTo w n) = n
  catchUpTo_ahead : ∀ w n, (∀ k, ¬ ahead w k) → ∀ k, ¬ ahead (R.catchUpTo w n) k
  accepts : ∀ w n, (R.accept w n).1 = true ↔
    R.lastContiguous w < n ∧ n ≤ R.lastContiguous w + kReplayWindowSize ∧ ¬ ahead w n
  refused : ∀ w n, (R.accept w n).1 = false → (R.accept w n).2 = w
  accept_mono : ∀ w n, R.lastContiguous w ≤ R.lastContiguous (R.accept w n).2
  accept_over : ∀ w n, (R.accept w n).1 = true → ∀ k, R.lastContiguous w < k →
    k ≤ R.lastContiguous (R.accept w n).2 → k = n ∨ ahead w k
  accept_stops : ∀ w n, (R.accept w n).1 = true →
    R.lastContiguous (R.accept w n).2 + 1 ≠ n ∧
      ¬ ahead w (R.lastContiguous (R.accept w n).2 + 1)
  accept_ahead : ∀ w n, (R.accept w n).1 = true → ∀ k, ahead (R.accept w n).2 k ↔
    R.lastContiguous (R.accept w n).2 < k ∧ (k = n ∨ ahead w k)

/-! ## Runs -/

/-- What happens to a chat. -/
inductive IngestEvent where
  | deliver (seq : Nat)
  | restart
  deriving DecidableEq, Repr

/-- A chat's state: what is persisted and what is memory, and what was
decided so far. -/
structure IngestRun (W : Type) where
  sync : PeerSyncState := {}
  window : W
  persisted : List Nat := []
  decisions : List IngestDecision := []

section Run

variable {W : Type} (R : ReplayWindow W) (idOf : Nat → String) (epoch : Nat)

/-- The message of number `seq`, as it meets a strict chat. -/
def inputOf (chat : IngestRun W) (seq : Nat) : IngestClassifierInput :=
  { senderSeq := seq, sessionEpoch := epoch, messageId := idOf seq, syncState := chat.sync
    chatTargetEpoch := epoch
    existingMessageIdAtSeq := if seq ∈ chat.persisted then some (idOf seq) else none
    hasMessageId := idOf seq ∈ chat.persisted.map idOf }

def ingest (chat : IngestRun W) : IngestEvent → IngestRun W
  | .deliver seq =>
    let (result, window) := classify R (inputOf idOf epoch chat seq) chat.window
    { sync := result.syncState, window
      persisted := if result.persistMessage then seq :: chat.persisted else chat.persisted
      decisions := result.decision :: chat.decisions }
  | .restart => { chat with window := R.fresh }

def ingestAll (chat : IngestRun W) (events : List IngestEvent) : IngestRun W :=
  events.foldl (ingest R idOf epoch) chat

end Run

/-- A new message is at most `kReplayWindowSize` past the first missing one. -/
def Honest (last : Nat) : List Nat → List IngestEvent → Prop
  | _, [] => True
  | delivered, .restart :: rest => Honest last delivered rest
  | delivered, .deliver seq :: rest =>
    0 < seq ∧ seq ≤ last ∧
      (seq ∉ delivered → ∀ n, 0 < n → n ∉ delivered → seq ≤ n + kReplayWindowSize) ∧
      Honest last (seq :: delivered) rest

/-- Nothing delivered waits for something before it. -/
def InOrder (delivered : List Nat) : Prop :=
  ∀ n ∈ delivered, ∀ k, 0 < k → k ≤ n → k ∈ delivered

/-- Message 1 comes first, no restart comes while a message waits, and a
new message is less than `kReplayWindowSize` past the first missing one. -/
def Smooth : List Nat → List IngestEvent → Prop
  | _, [] => True
  | delivered, .restart :: rest => InOrder delivered ∧ Smooth delivered rest
  | delivered, .deliver seq :: rest =>
    (delivered = [] → seq = 1) ∧
      (seq ∉ delivered → ∀ n, 0 < n → n ∉ delivered → seq < n + kReplayWindowSize) ∧
      Smooth (seq :: delivered) rest

/-- What the run delivers. -/
def deliveredBy (events : List IngestEvent) : List Nat :=
  events.filterMap fun
    | .deliver seq => some seq
    | .restart => none

/-- Every message is delivered. -/
def Complete (last : Nat) (events : List IngestEvent) : Prop :=
  ∀ n, 0 < n → n ≤ last → n ∈ deliveredBy events

/-- The peer is never flagged, each message is persisted once, and a run
that delivers all of them ends in order. -/
structure Flawless {W : Type} (last : Nat) (events : List IngestEvent) (chat : IngestRun W) :
    Prop where
  unflagged : .softCompromised ∉ chat.decisions ∧ .hardReject ∉ chat.decisions
  once : chat.persisted.Nodup
  persisted : ∀ n, n ∈ chat.persisted ↔ n ∈ deliveredBy events
  inOrder : Complete last events → chat.sync.contiguousPeerSeq = last ∧ chat.sync.phase = .ok

/-! ## One new message -/

section Classify

variable {W : Type} {R : ReplayWindow W} {idOf : Nat → String} {epoch : Nat}

/-- What the runs never set. -/
structure Unfloored (state : PeerSyncState) : Prop where
  floor : state.historyFloorSeq = 0
  closed : state.emptyClosedSeqs = []

/-- The decision on a new message of a strict chat: the tests of `Classify`
that are left, in their order. -/
def classifyHonest (R : ReplayWindow W) (input : IngestClassifierInput) (window : W) :
    IngestClassifierResult × W :=
  let before := input.syncState
  let seq := input.senderSeq
  if before.phase = .compromised then
    refuse .softCompromised before window "the private chat is marked compromised"
  else if seq < before.contiguousPeerSeq then
    compromise before window "seq went back in a private chat"
  else if before.contiguousPeerSeq = 0 ∧ before.loadedMaxSeq = 0 then
    keep .acceptBootstrap (before.applyPersistedMessage seq) (R.accept window seq).2
  else if seq = u64 (before.contiguousPeerSeq + 1) then
    classifyContiguous R input before window
  else if seq = 1 ∧ before.contiguousPeerSeq > 0 then
    compromise before window "out of order in a private chat"
  else if seq > u64 (before.contiguousPeerSeq + 1) then classifyGap R input before window
  else refuse .hardReject before window "unclassified"

theorem mem_persisted (hid : Function.Injective idOf) (chat : IngestRun W) (seq : Nat) :
    idOf seq ∈ chat.persisted.map idOf ↔ seq ∈ chat.persisted := by
  rw [List.mem_map_of_injective hid]

theorem classify_new (hid : Function.Injective idOf) {chat : IngestRun W} {seq : Nat}
    (hchat : Unfloored chat.sync) (hpos : 0 < seq) (hnew : seq ∉ chat.persisted) (w : W) :
    classify R (inputOf idOf epoch chat seq) w = classifyHonest R (inputOf idOf epoch chat seq)
        (R.catchUpTo w chat.sync.contiguousPeerSeq) := by
  have hhas : ¬ idOf seq ∈ chat.persisted.map idOf := by rwa [mem_persisted hid]
  have hne : seq ≠ 0 := by omega
  unfold classify classifyHonest
  simp only [inputOf, hhas, hnew, hne, hchat.floor, Nat.le_zero_eq, Nat.lt_irrefl, if_false,
    decide_false, Bool.false_eq_true, if_true]
  by_cases hphase : chat.sync.phase = .compromised
  · simp only [hphase, if_true]
  · simp only [hphase, if_false]
    unfold classifyNew classifyOlder PeerSyncState.isLateFill
    simp [hchat.closed]

theorem ingest_again (hid : Function.Injective idOf) {chat : IngestRun W} {seq : Nat}
    (hold : seq ∈ chat.persisted) : ingest R idOf epoch chat (.deliver seq) =
      { chat with
        window := R.catchUpTo chat.window chat.sync.contiguousPeerSeq
        decisions := .benignDuplicate :: chat.decisions } := by
  have hhas : idOf seq ∈ chat.persisted.map idOf := by rwa [mem_persisted hid]
  unfold ingest classify
  simp [inputOf, hhas, refuse]

end Classify

/-! ## The window at the tail -/

section Window

variable {W : Type} {R : ReplayWindow W} {ahead : W → Nat → Prop}

/-- The window's tail is `tail`, and the numbers of `taken` past it are the
ones it holds. -/
structure Caught (R : ReplayWindow W) (ahead : W → Nat → Prop) (w : W) (tail : Nat)
    (taken : Nat → Prop) : Prop where
  last : R.lastContiguous w = tail
  holds : ∀ k, ahead w k ↔ tail < k ∧ taken k

/-- The window between two messages: at the tail, or fresh, with nothing
taken past the tail. -/
def WindowAt (R : ReplayWindow W) (ahead : W → Nat → Prop) (w : W) (tail : Nat)
    (taken : Nat → Prop) : Prop :=
  Caught R ahead w tail taken ∨
    (R.lastContiguous w ≤ tail ∧ (∀ k, ¬ ahead w k) ∧ ∀ k, taken k → k ≤ tail)

variable {w : W} {tail n : Nat} {taken : Nat → Prop}

theorem WindowAt.fresh (hR : R.Lawful ahead) (h : ∀ k, taken k → k ≤ tail) : WindowAt R ahead R.fresh tail taken := by
  refine .inr ⟨?_, hR.fresh_ahead, h⟩
  rw [hR.fresh_last]
  exact Nat.zero_le tail

theorem WindowAt.catchUp (hR : R.Lawful ahead) (h : WindowAt R ahead w tail taken) :
    Caught R ahead (R.catchUpTo w tail) tail taken := by
  rcases h with h | ⟨hlast, hnone, hbelow⟩
  · rw [hR.catchUpTo_held w tail (Nat.le_of_eq h.last.symm)]
    exact h
  · refine ⟨hR.catchUpTo_last w tail hnone hlast, fun k => ?_⟩
    constructor
    · intro hk
      exact absurd hk (hR.catchUpTo_ahead w tail hnone k)
    · rintro ⟨hlt, hk⟩
      exact absurd (hbelow k hk) (Nat.not_le.mpr hlt)

/-- A new number within the window is taken: the tail advances over what was
taken, up to the first number that was not. -/
theorem Caught.accept (hR : R.Lawful ahead) (h : Caught R ahead w tail taken) (hpast : tail < n)
    (hin : n ≤ tail + kReplayWindowSize) (hnew : ¬ taken n) : (R.accept w n).1 = true ∧
      tail ≤ R.lastContiguous (R.accept w n).2 ∧
      (∀ k, tail < k → k ≤ R.lastContiguous (R.accept w n).2 → k = n ∨ taken k) ∧
      (R.lastContiguous (R.accept w n).2 + 1 ≠ n ∧ ¬ taken (R.lastContiguous (R.accept w n).2 + 1)) ∧
      Caught R ahead (R.accept w n).2 (R.lastContiguous (R.accept w n).2) (fun k => k = n ∨ taken k) := by
  have haccept : (R.accept w n).1 = true := by
    rw [hR.accepts, h.last]
    exact ⟨hpast, hin, fun hahead => hnew ((h.holds n).mp hahead).2⟩
  have hmono : tail ≤ R.lastContiguous (R.accept w n).2 := h.last ▸ hR.accept_mono w n
  obtain ⟨hnext, hstop⟩ := hR.accept_stops w n haccept
  refine ⟨haccept, hmono, fun k hk hle => ?_, ⟨hnext, fun htaken => ?_⟩, rfl, fun k => ?_⟩
  · rcases hR.accept_over w n haccept k (h.last.symm ▸ hk) hle with heq | hahead
    · exact .inl heq
    · exact .inr ((h.holds k).mp hahead).2
  · exact hstop ((h.holds _).mpr ⟨by omega, htaken⟩)
  · rw [hR.accept_ahead w n haccept]
    apply and_congr_right
    intro hlt
    apply or_congr_right
    rw [h.holds]
    exact and_iff_right (by omega)

theorem Caught.not_accept (hR : R.Lawful ahead) (h : Caught R ahead w tail taken)
    (hout : tail + kReplayWindowSize < n ∨ taken n) (hpast : tail < n) : (R.accept w n).1 = false := by
  rw [← Bool.not_eq_true, hR.accepts, h.last]
  rintro ⟨-, hin, hahead⟩
  rcases hout with hout | htaken
  · omega
  · exact hahead ((h.holds n).mpr ⟨hpast, htaken⟩)

end Window

/-! ## The state after a message -/

namespace PeerSyncState

variable (state : PeerSyncState) (seq : Nat)

@[simp] theorem load_contiguous : (state.load seq).contiguousPeerSeq = state.contiguousPeerSeq := rfl
@[simp] theorem load_floor : (state.load seq).historyFloorSeq = state.historyFloorSeq := rfl
@[simp] theorem load_closed : (state.load seq).emptyClosedSeqs = state.emptyClosedSeqs := rfl

@[simp] theorem advance_contiguous :
    (state.applyContiguousAdvance seq).contiguousPeerSeq = max state.contiguousPeerSeq seq := rfl
@[simp] theorem advance_phase : (state.applyContiguousAdvance seq).phase = state.phase := rfl
@[simp] theorem advance_floor : (state.applyContiguousAdvance seq).historyFloorSeq = state.historyFloorSeq := rfl
@[simp] theorem advance_closed : (state.applyContiguousAdvance seq).emptyClosedSeqs = state.emptyClosedSeqs := rfl

@[simp] theorem persisted_contiguous :
    (state.applyPersistedMessage seq).contiguousPeerSeq = max state.contiguousPeerSeq seq := by
  unfold applyPersistedMessage
  dsimp only
  split <;> rfl

@[simp] theorem persisted_floor : (state.applyPersistedMessage seq).historyFloorSeq = state.historyFloorSeq := by
  unfold applyPersistedMessage
  dsimp only
  split <;> rfl

@[simp] theorem persisted_closed : (state.applyPersistedMessage seq).emptyClosedSeqs =
    state.emptyClosedSeqs.filter (· ≠ seq) := by
  unfold applyPersistedMessage
  dsimp only
  split <;> rfl

theorem persisted_phase (hpast : state.contiguousPeerSeq < seq) (h : state.phase ≠ .compromised) :
    (state.applyPersistedMessage seq).phase = .ok := by
  have hmax : seq = max state.contiguousPeerSeq seq := by omega
  unfold applyPersistedMessage removeLateFillSeq
  dsimp only [advance_phase, advance_contiguous]
  cases hphase : state.phase with
  | ok => simp
  | gap => simp [← hmax]
  | compromised => exact absurd hphase h

end PeerSyncState

theorem Unfloored.persisted {state : PeerSyncState} (h : Unfloored state) (seq : Nat) :
    Unfloored (state.applyPersistedMessage seq) := by
  constructor
  · rw [PeerSyncState.persisted_floor, h.floor]
  · rw [PeerSyncState.persisted_closed, h.closed]
    rfl

/-! ## A smooth run -/

section Smooth

variable {W : Type} {R : ReplayWindow W} {ahead : W → Nat → Prop} {idOf : Nat → String}
  {epoch last : Nat}

/-- A chat that took every message delivered: its tail is the last before
the first missing one. -/
structure Taking (R : ReplayWindow W) (ahead : W → Nat → Prop) (delivered : List Nat)
    (chat : IngestRun W) : Prop where
  unflagged : .softCompromised ∉ chat.decisions ∧ .hardReject ∉ chat.decisions
  once : chat.persisted.Nodup
  persisted : ∀ n, n ∈ chat.persisted ↔ n ∈ delivered
  unfloored : Unfloored chat.sync
  tail : ∀ n, 0 < n → n ≤ chat.sync.contiguousPeerSeq → n ∈ delivered
  missing : chat.sync.contiguousPeerSeq + 1 ∉ delivered
  started : delivered ≠ [] → 0 < chat.sync.contiguousPeerSeq
  unstarted : delivered = [] → chat.sync.contiguousPeerSeq = 0 ∧ chat.sync.loadedMaxSeq = 0
  honest : chat.sync.phase ≠ .compromised
  gap : chat.sync.phase = .gap → ∃ n ∈ delivered, chat.sync.contiguousPeerSeq < n
  window : WindowAt R ahead chat.window chat.sync.contiguousPeerSeq (· ∈ delivered)

variable {chat : IngestRun W} {delivered : List Nat} {seq : Nat} {input : IngestClassifierInput}
  {events : List IngestEvent} {decision : IngestDecision}

theorem Taking.past (h : Taking R ahead delivered chat) (hpos : 0 < seq) (hnew : seq ∉ delivered) :
    chat.sync.contiguousPeerSeq < seq := by
  by_contra hle
  exact hnew (h.tail seq hpos (Nat.not_lt.mp hle))

theorem Taking.again (hR : R.Lawful ahead) (hid : Function.Injective idOf)
    (h : Taking R ahead delivered chat) (hold : seq ∈ delivered) :
    Taking R ahead (seq :: delivered) (ingest R idOf epoch chat (.deliver seq)) := by
  have hmem (n : Nat) : n ∈ seq :: delivered ↔ n ∈ delivered := by
    rw [List.mem_cons, or_iff_right_iff_imp]
    exact fun heq => heq ▸ hold
  have hne : delivered ≠ [] := List.ne_nil_of_mem hold
  rw [ingest_again hid ((h.persisted seq).mpr hold)]
  have hcaught := h.window.catchUp hR
  refine ⟨?_, h.once, fun n => ?_, h.unfloored, fun n hpos hle => ?_, ?_, fun _ => h.started hne,
    fun hnil => ?_, h.honest, fun hgap => ?_, .inl ⟨hcaught.last, fun k => ?_⟩⟩
  · simpa using h.unflagged
  · rw [h.persisted, hmem]
  · exact (hmem n).mpr (h.tail n hpos hle)
  · rw [hmem]
    exact h.missing
  · cases hnil
  · obtain ⟨n, hn, hlt⟩ := h.gap hgap
    exact ⟨n, (hmem n).mpr hn, hlt⟩
  · rw [hcaught.holds, hmem]

theorem Taking.kept
    (h : Taking R ahead delivered chat) (hnew : seq ∉ delivered)
    {state : PeerSyncState} {window : W}
    (hdecision : decision ≠ .softCompromised ∧ decision ≠ .hardReject)
    (hunfloored : Unfloored state)
    (htail : ∀ n, 0 < n → n ≤ state.contiguousPeerSeq → n = seq ∨ n ∈ delivered)
    (hmissing : state.contiguousPeerSeq + 1 ≠ seq ∧ state.contiguousPeerSeq + 1 ∉ delivered)
    (hstarted : 0 < state.contiguousPeerSeq)
    (hphase : state.phase = .ok ∨ (state.phase = .gap ∧ state.contiguousPeerSeq < seq))
    (hwindow : Caught R ahead window state.contiguousPeerSeq fun k => k = seq ∨ k ∈ delivered) :
    Taking R ahead (seq :: delivered)
      { sync := state, window, persisted := seq :: chat.persisted
        decisions := decision :: chat.decisions } := by
  have hmem (n : Nat) : n ∈ seq :: delivered ↔ n = seq ∨ n ∈ delivered := List.mem_cons
  refine ⟨?_, ?_, fun n => ?_, hunfloored, fun n hpos hle => ?_, ?_, fun _ => hstarted,
    fun hnil => ?_, ?_, fun hgap => ?_, .inl ⟨hwindow.last, fun k => ?_⟩⟩
  · simp only [List.mem_cons, not_or]
    exact ⟨⟨Ne.symm hdecision.1, h.unflagged.1⟩, ⟨Ne.symm hdecision.2, h.unflagged.2⟩⟩
  · rw [List.nodup_cons, h.persisted]
    exact ⟨hnew, h.once⟩
  · rw [List.mem_cons, h.persisted, hmem]
  · rw [hmem]
    exact htail n hpos hle
  · rw [hmem, not_or]
    exact hmissing
  · cases hnil
  · intro hcompromised
    rcases hphase with hok | ⟨hgap, -⟩
    · rw [hok] at hcompromised
      cases hcompromised
    · rw [hgap] at hcompromised
      cases hcompromised
  · rcases hphase with hok | ⟨-, hlt⟩
    · rw [hok] at hgap
      cases hgap
    · exact ⟨seq, List.mem_cons_self, hlt⟩
  · rw [hmem]
    exact hwindow.holds k

/-- The number after the tail moves the tail over what waited for it. -/
theorem classifyContiguous_spec {state : PeerSyncState} {w : W}
    (hpast : state.contiguousPeerSeq < input.senderSeq) (hstate : Unfloored state)
    (hphase : state.phase ≠ .compromised) : ∃ after, classifyContiguous R input state w =
        keep .acceptContiguous after (R.accept w input.senderSeq).2 ∧ after.contiguousPeerSeq =
        max input.senderSeq (R.lastContiguous (R.accept w input.senderSeq).2) ∧
      after.phase = .ok ∧ Unfloored after := by
  have hok := state.persisted_phase input.senderSeq hpast hphase
  have hunfloored := hstate.persisted input.senderSeq
  have hmax : max state.contiguousPeerSeq input.senderSeq = input.senderSeq := by omega
  unfold classifyContiguous
  dsimp only
  rw [PeerSyncState.persisted_contiguous, hmax]
  split
  · refine ⟨_, rfl, ?_⟩
    rw [PeerSyncState.advance_phase, hok, if_neg (by simp)]
    refine ⟨?_, ?_, ?_, ?_⟩
    · rw [PeerSyncState.advance_contiguous, PeerSyncState.persisted_contiguous, hmax]
    · rw [PeerSyncState.advance_phase, hok]
    · exact hunfloored.floor
    · exact hunfloored.closed
  · next hle =>
      refine ⟨_, rfl, ?_, hok, hunfloored⟩
      rw [PeerSyncState.persisted_contiguous, hmax]
      omega

/-- A number past the one after the tail waits for it. -/
theorem classifyGap_kept {state : PeerSyncState} {w : W} (haccept : (R.accept w input.senderSeq).1 = true)
    (hlast : R.lastContiguous (R.accept w input.senderSeq).2 ≤ state.contiguousPeerSeq) :
    classifyGap R input state w = keep .acceptGap ({ state with phase := .gap }.load input.senderSeq)
        (R.accept w input.senderSeq).2 := by
  unfold classifyGap
  dsimp only
  rw [if_pos haccept, PeerSyncState.load_contiguous, if_neg (Nat.not_lt.mpr hlast)]

/-- One the window does not take puts a strict chat out of order. -/
theorem classifyGap_refused {state : PeerSyncState} {w : W}
    (hstrict : input.strictMode = true) (hrefused : (R.accept w input.senderSeq).1 = false) :
    classifyGap R input state w = compromise state (R.accept w input.senderSeq).2
      "out of order in a private chat" := by
  unfold classifyGap
  dsimp only
  rw [if_neg (by simp [hrefused]), if_pos hstrict]

section Branches

variable {input : IngestClassifierInput} {w : W}
  (hphase : input.syncState.phase ≠ .compromised) (htail : 0 < input.syncState.contiguousPeerSeq)
  (hpast : input.syncState.contiguousPeerSeq < input.senderSeq)

include hphase htail hpast

theorem classifyHonest_next (hnext : input.senderSeq = u64 (input.syncState.contiguousPeerSeq + 1)) :
    classifyHonest R input w = classifyContiguous R input input.syncState w := by
  unfold classifyHonest
  dsimp only
  rw [if_neg hphase, if_neg (Nat.not_lt.mpr (Nat.le_of_lt hpast)), if_neg (by omega),
    if_pos hnext]

theorem classifyHonest_past (hmore : input.senderSeq > u64 (input.syncState.contiguousPeerSeq + 1)) :
    classifyHonest R input w = classifyGap R input input.syncState w := by
  unfold classifyHonest
  dsimp only
  rw [if_neg hphase, if_neg (Nat.not_lt.mpr (Nat.le_of_lt hpast)), if_neg (by omega),
    if_neg (Nat.ne_of_gt hmore), if_neg (by omega), if_pos hmore]

end Branches

section

variable {w : W} (hid : Function.Injective idOf) (hchat : Unfloored chat.sync) (hpos : 0 < seq)
  (hnew : seq ∉ chat.persisted) (hw : R.catchUpTo chat.window chat.sync.contiguousPeerSeq = w)
include hid hchat hpos hnew hw

theorem ingest_new :
    ingest R idOf epoch chat (.deliver seq) =
      { sync := (classifyHonest R (inputOf idOf epoch chat seq) w).1.syncState
        window := (classifyHonest R (inputOf idOf epoch chat seq) w).2
        persisted := if (classifyHonest R (inputOf idOf epoch chat seq) w).1.persistMessage then
            seq :: chat.persisted
          else chat.persisted
        decisions := (classifyHonest R (inputOf idOf epoch chat seq) w).1.decision :: chat.decisions } := by
  have hclassify : classify R (inputOf idOf epoch chat seq) chat.window =
      classifyHonest R (inputOf idOf epoch chat seq) w :=
    (classify_new hid hchat hpos hnew chat.window).trans (by rw [hw])
  simp only [ingest, hclassify]

theorem ingest_kept {after : PeerSyncState} {window : W}
    (hresult : classifyHonest R (inputOf idOf epoch chat seq) w = keep decision after window) :
    ingest R idOf epoch chat (.deliver seq) =
      { sync := after, window, persisted := seq :: chat.persisted
        decisions := decision :: chat.decisions } := by
  rw [ingest_new hid hchat hpos hnew hw, hresult]
  rfl

end

theorem Taking.new (hR : R.Lawful ahead) (hid : Function.Injective idOf)
    (h : Taking R ahead delivered chat) (hpos : 0 < seq)
    (hword : seq < 2 ^ 64) (hnew : seq ∉ delivered) (hfirst : delivered = [] → seq = 1)
    (hnear : ∀ n, 0 < n → n ∉ delivered → seq < n + kReplayWindowSize) :
    Taking R ahead (seq :: delivered) (ingest R idOf epoch chat (.deliver seq)) := by
  have hpast := h.past hpos hnew
  have hcaught := h.window.catchUp hR
  have hin : seq ≤ chat.sync.contiguousPeerSeq + kReplayWindowSize := by
    have := hnear _ (Nat.succ_pos _) h.missing
    omega
  obtain ⟨haccept, hmono, hover, hstop, hcaught'⟩ := hcaught.accept hR hpast hin hnew
  have hnew' : seq ∉ chat.persisted := by rwa [h.persisted]
  generalize hw : R.catchUpTo chat.window chat.sync.contiguousPeerSeq = w at *
  have hsucc : u64 (chat.sync.contiguousPeerSeq + 1) = chat.sync.contiguousPeerSeq + 1 :=
    Nat.mod_eq_of_lt (by omega)
  have hnotless : ¬ seq < chat.sync.contiguousPeerSeq := by omega
  by_cases hempty : delivered = []
  · -- message 1 starts the chat
    obtain ⟨htail, hloaded⟩ := h.unstarted hempty
    obtain rfl : seq = 1 := hfirst hempty
    have hresult : classifyHonest R (inputOf idOf epoch chat 1) w = keep .acceptBootstrap
        (chat.sync.applyPersistedMessage 1) (R.accept w 1).2 := by
      unfold classifyHonest
      simp [inputOf, h.honest, htail, hloaded]
    have hlast : R.lastContiguous (R.accept w 1).2 = 1 := by
      have hle : ¬ 2 ≤ R.lastContiguous (R.accept w 1).2 := by
        intro hle
        rcases hover 2 (by omega) hle with heq | hin
        · omega
        · simp [hempty] at hin
      omega
    rw [ingest_kept hid h.unfloored hpos hnew' hw hresult]
    refine h.kept hnew ⟨by decide, by decide⟩ (h.unfloored.persisted 1) ?_ ?_ ?_ ?_ ?_
    · intro n hn hle
      rw [PeerSyncState.persisted_contiguous, htail] at hle
      exact .inl (by omega)
    · rw [PeerSyncState.persisted_contiguous, htail]
      simp [hempty]
    · rw [PeerSyncState.persisted_contiguous, htail]
      omega
    · exact .inl (chat.sync.persisted_phase 1 hpast h.honest)
    · have hone : (chat.sync.applyPersistedMessage 1).contiguousPeerSeq =
          R.lastContiguous (R.accept w 1).2 := by
        rw [PeerSyncState.persisted_contiguous, htail, hlast]
        rfl
      show Caught R ahead (R.accept w 1).2 (chat.sync.applyPersistedMessage 1).contiguousPeerSeq _
      rw [hone]
      exact hcaught'
  have htail : chat.sync.contiguousPeerSeq ≠ 0 := Nat.ne_of_gt (h.started hempty)
  by_cases hnext : seq = chat.sync.contiguousPeerSeq + 1
  · -- the first missing message
    obtain ⟨after, hresult, htail', hphase, hunfloored⟩ :=
      @classifyContiguous_spec _ R (inputOf idOf epoch chat seq) _ w hpast
        h.unfloored h.honest
    have hlast : max seq (R.lastContiguous (R.accept w seq).2) =
        R.lastContiguous (R.accept w seq).2 := by omega
    have hclassify : classifyHonest R (inputOf idOf epoch chat seq) w =
        keep .acceptContiguous after (R.accept w seq).2 := by
      refine Eq.trans ?_ hresult
      exact classifyHonest_next h.honest (Nat.pos_of_ne_zero htail) hpast (hnext.trans hsucc.symm)
    rw [ingest_kept hid h.unfloored hpos hnew' hw hclassify]
    have htail'' : after.contiguousPeerSeq = R.lastContiguous (R.accept w seq).2 := htail'.trans hlast
    refine h.kept hnew ⟨by decide, by decide⟩ hunfloored ?_ ?_ ?_ (.inl hphase) ?_
    · intro n hn hle
      by_cases hold : n ≤ chat.sync.contiguousPeerSeq
      · exact .inr (h.tail n hn hold)
      · exact hover n (by omega) (htail'' ▸ hle)
    · rw [htail'']
      exact hstop
    · rw [htail'']
      omega
    · rw [htail'']
      exact hcaught'
  · -- a message that waits for the first missing one
    have hlast : R.lastContiguous (R.accept w seq).2 = chat.sync.contiguousPeerSeq := by
      by_contra hne
      rcases hover (chat.sync.contiguousPeerSeq + 1) (by omega) (by omega) with heq | hmem
      · exact hnext heq.symm
      · exact h.missing hmem
    have hclassify : classifyHonest R (inputOf idOf epoch chat seq) w =
        keep .acceptGap ({ chat.sync with phase := .gap }.load seq) (R.accept w seq).2 := by
      have hgap : classifyGap R (inputOf idOf epoch chat seq) chat.sync w = _ :=
        classifyGap_kept haccept (Nat.le_of_eq hlast)
      refine Eq.trans ?_ hgap
      apply classifyHonest_past h.honest (Nat.pos_of_ne_zero htail) hpast
      show u64 (chat.sync.contiguousPeerSeq + 1) < seq
      rw [hsucc]
      omega
    rw [ingest_kept hid h.unfloored hpos hnew' hw hclassify]
    refine h.kept hnew ⟨by decide, by decide⟩ ⟨h.unfloored.floor, h.unfloored.closed⟩ ?_ ?_ ?_
      (.inr ⟨rfl, hpast⟩) ?_
    · exact fun n hn hle => .inr (h.tail n hn hle)
    · exact ⟨Ne.symm hnext, h.missing⟩
    · exact Nat.pos_of_ne_zero htail
    · rw [hlast] at hcaught'
      exact hcaught'

theorem Taking.restart (hR : R.Lawful ahead) (h : Taking R ahead delivered chat) (horder : InOrder delivered) :
    Taking R ahead delivered (ingest R idOf epoch chat .restart) := by
  refine ⟨h.unflagged, h.once, h.persisted, h.unfloored, h.tail, h.missing, h.started,
    h.unstarted, h.honest, h.gap, ?_⟩
  apply WindowAt.fresh hR
  intro n hn
  by_contra hlt
  exact h.missing (horder n hn _ (Nat.succ_pos _) (Nat.not_le.mp hlt))

/-- A smooth run takes every message delivered. -/
theorem taking_ingestAll (hR : R.Lawful ahead) (hid : Function.Injective idOf) (hword : last < 2 ^ 64)
    (h : Taking R ahead delivered chat) (hhonest : Honest last delivered events) (hsmooth : Smooth delivered events) :
    Taking R ahead ((deliveredBy events).reverse ++ delivered) (ingestAll R idOf epoch chat events) := by
  induction events generalizing delivered chat with
  | nil => exact h
  | cons event rest ih =>
    cases event with
    | restart => exact ih (h.restart hR hsmooth.1) hhonest hsmooth.2
    | deliver seq =>
      obtain ⟨hpos, hle, -, hhonest⟩ := hhonest
      obtain ⟨hfirst, hnear, hsmooth⟩ := hsmooth
      have hdelivered : (deliveredBy (.deliver seq :: rest)).reverse ++ delivered =
          (deliveredBy rest).reverse ++ seq :: delivered := by
        simp [deliveredBy]
      rw [hdelivered]
      refine ih ?_ hhonest hsmooth
      by_cases hold : seq ∈ delivered
      · exact h.again hR hid hold
      · exact h.new hR hid hpos (by omega) hold hfirst (hnear hold)

theorem taking_start (hR : R.Lawful ahead) : Taking R ahead [] { window := R.fresh } := by
  refine ⟨⟨by simp, by simp⟩, List.nodup_nil, by simp, ⟨rfl, rfl⟩, ?_, by simp, by simp,
    fun _ => ⟨rfl, rfl⟩, by simp, by simp, ?_⟩
  · intro n hpos hle
    exact absurd hpos (Nat.not_lt.mpr hle)
  · exact WindowAt.fresh hR (by simp)

theorem mem_le_of_honest (h : Honest last delivered events) {n : Nat} (hn : n ∈ deliveredBy events) :
    0 < n ∧ n ≤ last := by
  induction events generalizing delivered with
  | nil => simp [deliveredBy] at hn
  | cons event rest ih =>
    cases event with
    | restart => exact ih h (by simpa [deliveredBy] using hn)
    | deliver seq =>
      obtain ⟨hpos, hle, -, hrest⟩ := h
      have hcases : n = seq ∨ n ∈ deliveredBy rest := by simpa [deliveredBy] using hn
      rcases hcases with rfl | hn
      · exact ⟨hpos, hle⟩
      · exact ih hrest hn

theorem flawless_of_smooth (hR : R.Lawful ahead) (hid : Function.Injective idOf)
    (hword : last < 2 ^ 64) (hhonest : Honest last [] events) (hsmooth : Smooth [] events) :
    Flawless last events (ingestAll R idOf epoch { window := R.fresh } events) := by
  have h : Taking R ahead _ (ingestAll R idOf epoch { window := R.fresh } events) :=
    taking_ingestAll hR hid hword (taking_start hR) hhonest hsmooth
  have hmem (n : Nat) : n ∈ (deliveredBy events).reverse ++ [] ↔ n ∈ deliveredBy events := by simp
  refine ⟨h.unflagged, h.once, fun n => ?_, fun hcomplete => ?_⟩
  · rw [h.persisted, hmem]
  generalize ingestAll R idOf epoch { window := R.fresh } events = chat at *
  have hlast : chat.sync.contiguousPeerSeq = last := by
    apply Nat.le_antisymm
    · by_contra hlt
      have hin := h.tail chat.sync.contiguousPeerSeq (by omega) (Nat.le_refl _)
      exact hlt (mem_le_of_honest hhonest ((hmem _).mp hin)).2
    · by_contra hlt
      apply h.missing
      rw [hmem]
      exact hcomplete _ (Nat.succ_pos _) (by omega)
  refine ⟨hlast, ?_⟩
  cases hphase : chat.sync.phase with
  | ok => rfl
  | compromised => exact absurd hphase h.honest
  | gap =>
    -- what waits would be past the last message
    obtain ⟨n, hn, hlt⟩ := h.gap hphase
    have := (mem_le_of_honest hhonest ((hmem n).mp hn)).2
    omega

end Smooth

end Pbr
