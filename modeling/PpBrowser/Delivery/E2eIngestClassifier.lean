import PpBrowser.Base.Words

/-!
# E2eIngestClassifier — what becomes of an inbound message

`E2eIngestClassifier.cpp` (D013): a message's decision from its number, the
persisted sync state of its sender and the window of numbers seen ahead of
the tail. `ReplayWindow` is pp-cpp-crypto's; the classifier takes it as a
parameter.
-/

namespace Pbr

/-- How far past the tail the window takes numbers. -/
def kReplayWindowSize : Nat := 32

/-- `ReplayWindow`, as the classifier uses it. -/
structure ReplayWindow (W : Type) where
  /-- `ReplayWindow(kReplayWindowSize)`. -/
  fresh : W
  lastContiguous : W → Nat
  catchUpTo : W → Nat → W
  accept : W → Nat → Bool × W

inductive PeerSyncPhase where
  | ok | gap | compromised
  deriving DecidableEq, Repr

/-- Per-peer sync watermarks. -/
structure PeerSyncState where
  contiguousPeerSeq : Nat := 0
  loadedMinSeq : Nat := 0
  loadedMaxSeq : Nat := 0
  historyFloorSeq : Nat := 0
  phase : PeerSyncPhase := .ok
  emptyClosedSeqs : List Nat := []
  deriving DecidableEq, Repr

inductive IngestDecision where
  | benignDuplicate | silentDiscard | acceptContiguous | acceptBootstrap | acceptLateFill
  | acceptBackfill | acceptEpochAdvance | acceptGap | softCompromised | hardReject
  deriving DecidableEq, Repr

structure IngestClassifierInput where
  senderSeq : Nat := 0
  sessionEpoch : Nat := 1
  messageId : String := ""
  syncState : PeerSyncState := {}
  chatTargetEpoch : Nat := 1
  strictMode : Bool := true
  existingMessageIdAtSeq : Option String := none
  hasMessageId : Bool := false
  /-- Authorized older-history fetch below the contiguous tail. -/
  authorizedOlderBackfill : Bool := false

structure IngestClassifierResult where
  decision : IngestDecision := .hardReject
  syncState : PeerSyncState
  persistMessage : Bool := false
  /-- Why, when the message is not kept. -/
  reason : String := ""

namespace PeerSyncState

variable (state : PeerSyncState) (senderSeq : Nat)

def isLateFill : Bool := state.emptyClosedSeqs.contains senderSeq

def removeLateFillSeq : PeerSyncState :=
  { state with emptyClosedSeqs := state.emptyClosedSeqs.filter (· ≠ senderSeq) }

/-- The loaded range with `senderSeq` in it. -/
def load : PeerSyncState :=
  { state with
    loadedMinSeq :=
      if state.loadedMinSeq = 0 ∨ senderSeq < state.loadedMinSeq then senderSeq
      else state.loadedMinSeq
    loadedMaxSeq := max state.loadedMaxSeq senderSeq }

def applyContiguousAdvance : PeerSyncState :=
  { state with contiguousPeerSeq := max state.contiguousPeerSeq senderSeq }.load senderSeq

/-- D046 relaxed: taken without lowering the tail. -/
def applyRelaxedPersist : PeerSyncState :=
  let state := (state.applyContiguousAdvance senderSeq).removeLateFillSeq senderSeq
  if state.phase = .compromised then { state with phase := .ok } else state

def applyPersistedMessage : PeerSyncState :=
  let state := (state.applyContiguousAdvance senderSeq).removeLateFillSeq senderSeq
  if state.phase = .gap ∧ senderSeq = state.contiguousPeerSeq then { state with phase := .ok }
  else state

def applyBackfillMessage : PeerSyncState := state.load senderSeq

end PeerSyncState

namespace E2eIngestClassifier

variable {W : Type} (R : ReplayWindow W) (input : IngestClassifierInput)

/-- The decision with the state and window left as they are. -/
def refuse (decision : IngestDecision) (state : PeerSyncState) (window : W) (reason : String) :
    IngestClassifierResult × W :=
  ({ decision, syncState := state, reason }, window)

/-- In a strict chat the state latches compromised. -/
def compromise (state : PeerSyncState) (window : W) (reason : String) :
    IngestClassifierResult × W :=
  ({ decision := .softCompromised, syncState := { state with phase := .compromised }, reason },
    window)

def keep (decision : IngestDecision) (state : PeerSyncState) (window : W) :
    IngestClassifierResult × W :=
  ({ decision, syncState := state, persistMessage := true }, window)

/-- A number below the tail. -/
def classifyOlder (state : PeerSyncState) (window : W) : IngestClassifierResult × W :=
  let before := input.syncState
  if input.authorizedOlderBackfill ∧ input.senderSeq > before.historyFloorSeq ∧
      (before.loadedMinSeq = 0 ∨ input.senderSeq < before.loadedMinSeq) ∧
      input.existingMessageIdAtSeq.isNone then
    keep .acceptBackfill (state.applyBackfillMessage input.senderSeq) window
  else if input.strictMode then
    compromise state window "seq went back in a private chat"
  else keep .acceptBackfill (state.applyRelaxedPersist input.senderSeq) window

/-- The number after the tail: a fill closes the gap up to whatever already
arrived after it. -/
def classifyContiguous (state : PeerSyncState) (window : W) : IngestClassifierResult × W :=
  let window := (R.accept window input.senderSeq).2
  let state := state.applyPersistedMessage input.senderSeq
  let last := R.lastContiguous window
  if last > state.contiguousPeerSeq then
    let state := state.applyContiguousAdvance last
    keep .acceptContiguous
      (if state.phase = .gap ∧ state.contiguousPeerSeq ≥ state.loadedMaxSeq then
        { state with phase := .ok }
      else state) window
  else keep .acceptContiguous state window

/-- A number past the one after the tail. -/
def classifyGap (state : PeerSyncState) (window : W) : IngestClassifierResult × W :=
  let (accepted, window) := R.accept window input.senderSeq
  let gapped := { state with phase := .gap }.load input.senderSeq
  if accepted then
    let last := R.lastContiguous window
    if last > gapped.contiguousPeerSeq then
      let advanced := gapped.applyContiguousAdvance last
      keep .acceptGap
        (if advanced.contiguousPeerSeq = last then { advanced with phase := .ok } else advanced)
        window
    else keep .acceptGap gapped window
  else if input.strictMode then compromise state window "out of order in a private chat"
  else keep .acceptGap gapped window -- D046: still persisted, the tail stays

/-- A message whose id is new, of a number and an epoch that are let in. -/
def classifyNew (state : PeerSyncState) (window : W) : IngestClassifierResult × W :=
  let before := input.syncState
  let seq := input.senderSeq
  if input.existingMessageIdAtSeq.any (· ≠ input.messageId) then
    if input.strictMode then compromise state window "another message holds this seq"
    else refuse .silentDiscard state window
      "another message holds this seq (a sender rewound within the epoch)"
  else if input.sessionEpoch > input.chatTargetEpoch then
    keep .acceptEpochAdvance
      { contiguousPeerSeq := seq, loadedMinSeq := seq, loadedMaxSeq := seq }
      (R.accept R.fresh seq).2
  else if before.isLateFill seq then
    keep .acceptLateFill (state.applyPersistedMessage seq) (R.accept window seq).2
  else if seq < before.contiguousPeerSeq then classifyOlder input state window
  else if before.contiguousPeerSeq = 0 ∧ before.loadedMaxSeq = 0 then
    keep .acceptBootstrap (state.applyPersistedMessage seq) (R.accept window seq).2
  else if seq = u64 (before.contiguousPeerSeq + 1) then
    classifyContiguous R input state window
  else if seq = 1 ∧ before.contiguousPeerSeq > 0 then
    if input.strictMode then compromise state window "out of order in a private chat"
    else keep .acceptBackfill (state.applyRelaxedPersist seq) window
  else if seq > u64 (before.contiguousPeerSeq + 1) then classifyGap R input state window
  else refuse .hardReject state window "unclassified"

/-- `Classify`: the window is memory and the sync state is persisted, so the
window starts where the thread is. -/
def classify (window : W) : IngestClassifierResult × W :=
  let before := input.syncState
  let window := R.catchUpTo window before.contiguousPeerSeq
  if input.hasMessageId then refuse .benignDuplicate before window ""
  else if input.senderSeq = 0 then refuse .hardReject before window "seq 0"
  else if input.senderSeq ≤ before.historyFloorSeq then
    refuse .silentDiscard before window "below the cleared-history floor"
  else if input.sessionEpoch < input.chatTargetEpoch then
    refuse .hardReject before window "from a retired epoch"
  else if before.phase = .compromised then
    -- a strict chat stays compromised; a relaxed one clears the latch
    if input.strictMode then
      refuse .softCompromised before window "the private chat is marked compromised"
    else classifyNew R input { before with phase := .ok } window
  else classifyNew R input before window

end E2eIngestClassifier

end Pbr
