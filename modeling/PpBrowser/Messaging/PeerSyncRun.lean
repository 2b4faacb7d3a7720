import PpBrowser.Delivery.E2eIngestFlawed
import PpBrowser.Delivery.E2eIngestMarks
import PpBrowser.Lib.Runs

/-!
# PeerSyncRun — what a gap repair asks for, and what its answer moves

`ChatSyncLogic.cpp` (D037, D071): the ranges of a peer's numbers a device
asks again, and the watermarks an answer leaves.
-/

namespace Pbr

/-- How many numbers one gap repair asks for. -/
def kMaxGapRepairSeqSpan : Nat := 500

/-- An inclusive range of the peer's numbers. -/
structure SeqRange where
  min : Nat
  max : Nat
  deriving DecidableEq, Repr

namespace ChatSync

/-- The known gap: between the contiguous run and the newest loaded message,
while in Gap. -/
def knownGap (state : PeerSyncState) : Option SeqRange :=
  if state.phase ≠ .gap ∨ state.loadedMaxSeq ≤ u64 (state.contiguousPeerSeq + 1) then none
  else some ⟨u64 (state.contiguousPeerSeq + 1), state.loadedMaxSeq - 1⟩

/-- Above the history floor and at most `kMaxGapRepairSeqSpan` long: the rest
comes on the next repair. -/
def clampGapRange (gapMin gapMax historyFloorSeq : Nat) : Option SeqRange :=
  if gapMax < gapMin then none
  else
    let clampedMin := max gapMin (u64 (historyFloorSeq + 1))
    if clampedMin > gapMax then none
    else some ⟨clampedMin, min gapMax (u64 (clampedMin + kMaxGapRepairSeqSpan - 1))⟩

/-- The numbers `minSeq` to `maxSeq`, in order. -/
def seqsFrom (minSeq maxSeq : Nat) : List Nat := List.range' minSeq (maxSeq + 1 - minSeq)

theorem mem_seqsFrom {minSeq maxSeq seq : Nat} : seq ∈ seqsFrom minSeq maxSeq ↔ minSeq ≤ seq ∧ seq ≤ maxSeq := by
  simp only [seqsFrom, List.mem_range'_1]
  omega

/-- The peer has nothing in the range: close it. -/
def closeEmptyGap (state : PeerSyncState) (minSeq maxSeq : Nat) : PeerSyncState :=
  { state with
    emptyClosedSeqs :=
      state.emptyClosedSeqs ++ (seqsFrom minSeq maxSeq).filter (· ∉ state.emptyClosedSeqs)
    contiguousPeerSeq := max state.contiguousPeerSeq maxSeq
    phase := if state.phase = .gap then .ok else state.phase }

/-- How far a run of stored numbers goes on from `seq`, at most `room`
further. -/
def runThrough (stored : Nat → Bool) : (room seq : Nat) → Nat
  | 0, seq => seq
  | room + 1, seq => if stored (seq + 1) then runThrough stored room (seq + 1) else seq

/-- The contiguous run extended through numbers stored since; it leaves Gap
once it reaches the newest loaded message. -/
def advanceContiguous (state : PeerSyncState) (stored : Nat → Bool) : PeerSyncState :=
  let contiguousPeerSeq := runThrough stored (state.loadedMaxSeq - state.contiguousPeerSeq)
    state.contiguousPeerSeq
  { state with
    contiguousPeerSeq
    phase := if state.phase = .gap ∧ contiguousPeerSeq = state.loadedMaxSeq then .ok else state.phase }

/-! ## What they keep -/

variable {state : PeerSyncState} {stored : Nat → Bool} {gapMin gapMax floor : Nat} {range : SeqRange}

theorem clampGapRange_min (hmin : gapMin ≤ u64 (state.contiguousPeerSeq + 1))
    (h : clampGapRange gapMin gapMax floor = some range) : range.min ≤ max state.contiguousPeerSeq floor + 1 := by
  simp only [clampGapRange] at h
  split at h
  · cases h
  split at h
  · cases h
  obtain rfl := Option.some.inj h
  have hseq : u64 (state.contiguousPeerSeq + 1) ≤ state.contiguousPeerSeq + 1 := Nat.mod_le ..
  have hfloor : u64 (floor + 1) ≤ floor + 1 := Nat.mod_le ..
  show max _ _ ≤ _
  omega

theorem le_runThrough (room seq : Nat) : seq ≤ runThrough stored room seq := by
  induction room generalizing seq with
  | zero => exact Nat.le_refl _
  | succ room ih =>
    simp only [runThrough]
    split
    · exact Nat.le_trans (Nat.le_succ seq) (ih (seq + 1))
    · exact Nat.le_refl _

theorem stored_of_runThrough {room seq k : Nat} (hlt : seq < k) (hle : k ≤ runThrough stored room seq) :
    stored k = true := by
  induction room generalizing seq with
  | zero =>
    simp only [runThrough] at hle
    omega
  | succ room ih =>
    simp only [runThrough] at hle
    split at hle
    · rename_i hnext
      rcases Nat.lt_or_eq_of_le (Nat.succ_le_of_lt hlt) with hlt | rfl
      · exact ih hlt hle
      · exact hnext
    · omega

end ChatSync

/-! ## One peer's numbers in one epoch -/

open E2eIngestClassifier Lib

/-- A message of the epoch, as it is delivered. -/
structure PeerMessage where
  seq : Nat
  id : String
  /-- Its id is held outside the epoch's rows. -/
  heldElsewhere : Bool := false
  authorizedOlderBackfill : Bool := false

/-- A stored message of the epoch. -/
structure PeerRow where
  seq : Nat
  id : String
  deriving DecidableEq, Repr

/-- What happens to the epoch's chat. -/
inductive PeerSyncEvent where
  | deliver (message : PeerMessage)
  /-- The replay window is memory. -/
  | restart
  /-- A gap is asked again, from a mark the chat has or had. -/
  | repairGap (gapMin gapMax : Nat)
  | scrollBackfill
  /-- What was asked for is answered with nothing. -/
  | closeEmptyGap (range : SeqRange)
  | advanceContiguous
  /-- The chat moves to a later epoch. -/
  | chatTarget (epoch : Nat)

/-- The epoch's persisted marks and rows, its window, the chat's own epoch,
what was asked again and every number that was closed as empty. -/
structure PeerSync (W : Type) where
  sync : PeerSyncState := {}
  window : W
  chatTargetEpoch : Nat
  rows : List PeerRow := []
  asked : List SeqRange := []
  closed : List Nat := []

namespace PeerSync

variable {W : Type} (R : ReplayWindow W) (strict : Bool) (epoch : Nat) (chat : PeerSync W)

def inputOf (message : PeerMessage) : IngestClassifierInput :=
  { senderSeq := message.seq, sessionEpoch := epoch, messageId := message.id, syncState := chat.sync
    chatTargetEpoch := chat.chatTargetEpoch, strictMode := strict
    existingMessageIdAtSeq := (chat.rows.find? (·.seq = message.seq)).map (·.id)
    hasMessageId := message.heldElsewhere || chat.rows.any (·.id = message.id)
    authorizedOlderBackfill := message.authorizedOlderBackfill }

/-- One `Classify` call. -/
def classified (message : PeerMessage) : IngestClassifierResult × W :=
  classify R (chat.inputOf strict epoch message) chat.window

/-- A range asked again, unless the chat is on another epoch or compromised. -/
def ask : Option SeqRange → PeerSync W
  | some range =>
    if chat.chatTargetEpoch = epoch ∧ chat.sync.phase ≠ .compromised then
      { chat with asked := range :: chat.asked }
    else chat
  | none => chat

/-- `ScrollBackfill`: what is older than the oldest loaded message. A request
has a lower end only above a cleared history. -/
def olderRange : Option SeqRange :=
  let floor := chat.sync.historyFloorSeq
  if chat.sync.loadedMinSeq ≤ u64 (floor + 1) ∨ floor = 0 then none
  else some ⟨u64 (floor + 1), chat.sync.loadedMinSeq - 1⟩

def step (chat : PeerSync W) : PeerSyncEvent → PeerSync W
  | .deliver message =>
    let (result, window) := chat.classified R strict epoch message
    if result.persistMessage then
      { chat with
        sync := result.syncState, window
        chatTargetEpoch := max chat.chatTargetEpoch epoch -- an epoch advance takes the chat along
        rows := ⟨message.seq, message.id⟩ :: chat.rows }
    else if result.decision = .softCompromised ∧ strict then
      { chat with sync := result.syncState, window }
    else { chat with window }
  | .restart => { chat with window := R.fresh }
  | .repairGap gapMin gapMax =>
    if gapMin ≤ u64 (chat.sync.contiguousPeerSeq + 1) then
      chat.ask epoch (ChatSync.clampGapRange gapMin gapMax chat.sync.historyFloorSeq)
    else chat
  | .scrollBackfill => chat.ask epoch chat.olderRange
  | .closeEmptyGap range =>
    if range ∈ chat.asked then
      { chat with
        sync := ChatSync.closeEmptyGap chat.sync range.min range.max
        closed := ChatSync.seqsFrom range.min range.max ++ chat.closed }
    else chat
  | .advanceContiguous =>
    { chat with
      sync := ChatSync.advanceContiguous chat.sync fun seq => chat.rows.any (·.seq = seq) }
  | .chatTarget target => { chat with chatTargetEpoch := max chat.chatTargetEpoch target }

/-- The epoch's chat before its first message, its history cleared up to
`historyFloorSeq`. -/
def start (historyFloorSeq : Nat) (window : W) (chatTargetEpoch : Nat) : PeerSync W :=
  { sync := { historyFloorSeq }, window, chatTargetEpoch }

/-! ## What holds of every run -/

/-- Numbers that hide nothing: below the floor, up to the first message that
was accepted, persisted, or closed as empty. -/
def Accounted (k : Nat) : Prop :=
  k ≤ chat.sync.historyFloorSeq ∨ (∃ first ∈ chat.rows.getLast?, k ≤ first.seq) ∨
    (∃ row ∈ chat.rows, row.seq = k) ∨ k ∈ chat.closed

/-- The marks tell the truth. -/
structure Truthful : Prop where
  contiguous : ∀ k ≤ chat.sync.contiguousPeerSeq, chat.Accounted k
  loaded : ∀ row ∈ chat.rows, row.seq ≤ chat.sync.loadedMaxSeq

/-- The contiguous mark does not go back, and a strict chat stays compromised. -/
structure Forward (before after : PeerSync W) : Prop where
  contiguous : before.sync.contiguousPeerSeq ≤ after.sync.contiguousPeerSeq
  latched : strict = true → before.sync.phase = .compromised → after.sync.phase = .compromised

/-- A message is persisted only above the floor, with an id that is not held
and at a number no message holds. -/
def KeepsNew (chat : PeerSync W) (event : PeerSyncEvent) : Prop :=
  ∀ message, event = .deliver message → (chat.classified R strict epoch message).1.persistMessage = true →
    chat.sync.historyFloorSeq < message.seq ∧ message.heldElsewhere = false ∧
      ∀ row ∈ chat.rows, row.id ≠ message.id ∧ row.seq ≠ message.seq

/-! ## The invariant -/

/-- What carries the marks from step to step. -/
structure Inv (seen : W → Nat → Prop) (chat : PeerSync W) : Prop extends Truthful chat where
  window : ∀ k, seen chat.window k → chat.Accounted k
  closed : ∀ k ∈ chat.sync.emptyClosedSeqs, k ∈ chat.closed ∧ k ≤ chat.sync.contiguousPeerSeq
  asked : ∀ range ∈ chat.asked, range.min ≤
    max chat.sync.contiguousPeerSeq chat.sync.historyFloorSeq + 1
  positive : ∀ row ∈ chat.rows, 0 < row.seq
  unopened : chat.chatTargetEpoch < epoch → chat.sync.contiguousPeerSeq = 0 ∧ chat.rows = [] ∧
    chat.asked = []

variable {R} {strict} {epoch} {chat} {seen : W → Nat → Prop} {out : IngestClassifierResult × W}

theorem start_inv {floor target : Nat} {window : W} (hwindow : ∀ k, seen window k → k ≤ floor) :
    Inv epoch seen (start floor window target) where
  contiguous _ hk := .inl (Nat.le_trans hk (Nat.zero_le floor))
  loaded _ hrow := nomatch hrow
  window k hk := .inl (hwindow k hk)
  closed _ hk := nomatch hk
  asked _ hrange := nomatch hrange
  positive _ hrow := nomatch hrow
  unopened _ := ⟨rfl, rfl, rfl⟩

theorem Inv.rows_nil (h : Inv epoch seen chat) (hnone : chat.sync.loadedMaxSeq = 0) : chat.rows = [] := by
  rw [List.eq_nil_iff_forall_not_mem]
  intro row hrow
  have hpos := h.positive row hrow
  have hle := h.loaded row hrow
  omega

theorem Accounted.stored {k seq : Nat} {id : String} {sync : PeerSyncState} {window : W} {target : Nat}
    (h : chat.Accounted k) (hfloor : sync.historyFloorSeq = chat.sync.historyFloorSeq) :
    Accounted { chat with
      sync, window, chatTargetEpoch := target, rows := ⟨seq, id⟩ :: chat.rows } k := by
  rcases h with hbelow | ⟨first, hfirst, hle⟩ | ⟨row, hrow, hseq⟩ | hclosed
  · left
    show k ≤ sync.historyFloorSeq
    rw [hfloor]
    exact hbelow
  · refine .inr (.inl ⟨first, ?_, hle⟩)
    rw [Option.mem_def] at hfirst ⊢
    rw [List.getLast?_cons, hfirst]
    rfl
  · exact .inr (.inr (.inl ⟨row, List.mem_cons_of_mem _ hrow, hseq⟩))
  · exact .inr (.inr (.inr hclosed))

/-! ## A message -/

theorem classified_decided (hR : R.Counts seen) (chat : PeerSync W) (message : PeerMessage) :
    Decided seen (chat.inputOf strict epoch message) chat.window (chat.classified R strict epoch message) :=
  classify_decided hR

theorem keepsNew (hR : R.Counts seen) (chat : PeerSync W) (event : PeerSyncEvent) :
    KeepsNew R strict epoch chat event := by
  rintro message - hkeep
  have hdecided := @classified_decided _ _ strict epoch _ hR chat message
  rw [Decided, if_pos hkeep] at hdecided
  have hnew := hdecided.new
  simp only [inputOf, Bool.or_eq_false_iff, List.any_eq_false, decide_eq_true_eq] at hnew
  refine ⟨hdecided.above, hnew.1, fun row hrow => ⟨hnew.2 row hrow, fun hseq => ?_⟩⟩
  -- a row at the number would be the message itself
  obtain ⟨other, hother⟩ : ∃ other, chat.rows.find? (·.seq = message.seq) = some other := by
    rw [← Option.isSome_iff_exists, List.find?_isSome]
    exact ⟨row, hrow, by simpa using hseq⟩
  have hid := hdecided.alone other.id (by simp [inputOf, hother])
  exact hnew.2 other (List.mem_of_find?_eq_some hother) hid

theorem Inv.kept (h : Inv epoch seen chat) {message : PeerMessage}
    (hkept : Kept seen (chat.inputOf strict epoch message) chat.window out) :
    Inv epoch seen { chat with
      sync := out.1.syncState, window := out.2
      chatTargetEpoch := max chat.chatTargetEpoch epoch
      rows := ⟨message.seq, message.id⟩ :: chat.rows } := by
  have habove : chat.sync.historyFloorSeq < message.seq := hkept.above
  have hloaded : message.seq ≤ out.1.syncState.loadedMaxSeq := hkept.loaded
  have hpositive (row : PeerRow) (hrow : row ∈ ⟨message.seq, message.id⟩ :: chat.rows) : 0 < row.seq := by
    rcases List.mem_cons.mp hrow with rfl | hrow
    · show 0 < message.seq
      omega
    · exact h.positive row hrow
  have hopened (hlt : max chat.chatTargetEpoch epoch < epoch) : False := by omega
  rcases hkept.marks with ⟨hepoch, hstarted, hwindow⟩ | ⟨-, hadvances⟩
  · -- the epoch's first message
    obtain ⟨-, hrows, hasked⟩ := h.unopened hepoch
    have hfirst (k : Nat) (hk : k ≤ message.seq) : Accounted { chat with
        sync := out.1.syncState, window := out.2, chatTargetEpoch := max chat.chatTargetEpoch epoch
        rows := ⟨message.seq, message.id⟩ :: chat.rows } k := by
      refine .inr (.inl ⟨⟨message.seq, message.id⟩, ?_, hk⟩)
      simp [hrows]
    refine ⟨⟨fun k hk => hfirst k ?_, fun row hrow => ?_⟩, fun k hk => hfirst k (hwindow k hk),
      fun k hk => ?_, fun range hrange => ?_, hpositive, fun hlt => (hopened hlt).elim⟩
    · have hle : k ≤ (startedAt message.seq).contiguousPeerSeq := hstarted ▸ hk
      exact hle
    · rw [hrows, List.mem_singleton] at hrow
      rw [hrow]
      exact hloaded
    · simp [hstarted, startedAt] at hk
    · rw [hasked] at hrange
      cases hrange
  · have hcontiguous : chat.sync.contiguousPeerSeq ≤ out.1.syncState.contiguousPeerSeq := hadvances.contiguous
    have hfloor : out.1.syncState.historyFloorSeq = chat.sync.historyFloorSeq := hadvances.floor
    have hstored (k : Nat) (hk : chat.Accounted k) : Accounted { chat with
        sync := out.1.syncState, window := out.2, chatTargetEpoch := max chat.chatTargetEpoch epoch
        rows := ⟨message.seq, message.id⟩ :: chat.rows } k := hk.stored hfloor
    have hself : Accounted { chat with
        sync := out.1.syncState, window := out.2, chatTargetEpoch := max chat.chatTargetEpoch epoch
        rows := ⟨message.seq, message.id⟩ :: chat.rows } message.seq :=
      .inr (.inr (.inl ⟨_, List.mem_cons_self, rfl⟩))
    have hwindow (k : Nat) (hk : seen out.2 k) : Accounted { chat with
        sync := out.1.syncState, window := out.2, chatTargetEpoch := max chat.chatTargetEpoch epoch
        rows := ⟨message.seq, message.id⟩ :: chat.rows } k := by
      rcases hadvances.window k hk with hk | hk | rfl
      · exact hstored k (h.window k hk)
      · exact hstored k (h.contiguous k hk)
      · exact hself
    refine ⟨⟨fun k hk => ?_, fun row hrow => ?_⟩, hwindow, fun k hk => ?_, fun range hrange => ?_,
      hpositive, fun hlt => (hopened hlt).elim⟩
    · rcases hadvances.covers k hk with hk | rfl | hk | ⟨hle, ⟨-, hnone⟩ | hclosed⟩
      · exact hstored k (h.contiguous k hk)
      · exact hself
      · exact hwindow k hk
      · -- the first message there is
        refine .inr (.inl ⟨⟨message.seq, message.id⟩, ?_, hle⟩)
        simp [h.rows_nil hnone]
      · exact hstored k (h.contiguous k (Nat.le_trans hle (h.closed _ hclosed).2))
    · have hmax : chat.sync.loadedMaxSeq ≤ out.1.syncState.loadedMaxSeq := hadvances.loaded
      rcases List.mem_cons.mp hrow with rfl | hrow
      · exact hloaded
      · exact Nat.le_trans (h.loaded row hrow) hmax
    · obtain ⟨hmem, hle⟩ := h.closed k (hadvances.closed k hk)
      exact ⟨hmem, Nat.le_trans hle hcontiguous⟩
    · have hmin := h.asked range hrange
      show range.min ≤ max out.1.syncState.contiguousPeerSeq out.1.syncState.historyFloorSeq + 1
      rw [hfloor]
      omega

theorem Inv.dropped (h : Inv epoch seen chat) {message : PeerMessage}
    (hdropped : Dropped seen (chat.inputOf strict epoch message) chat.window out) (phase : PeerSyncPhase) :
    Inv epoch seen { chat with sync := { chat.sync with phase }, window := out.2 } where
  contiguous := h.contiguous
  loaded := h.loaded
  window k hk := by
    rcases hdropped.window k hk with hk | hk
    · exact h.window k hk
    · exact h.contiguous k hk
  closed := h.closed
  asked := h.asked
  positive := h.positive
  unopened := h.unopened

theorem deliver_step (hR : R.Counts seen) (h : Inv epoch seen chat) (message : PeerMessage) :
    Inv epoch seen (step R strict epoch chat (.deliver message)) ∧
      Forward strict chat (step R strict epoch chat (.deliver message)) := by
  have hdecided := @classified_decided _ _ strict epoch _ hR chat message
  rw [Decided] at hdecided
  simp only [step]
  split
  · rename_i hkeep
    rw [if_pos hkeep] at hdecided
    refine ⟨h.kept hdecided, ?_, fun hstrict hphase => ?_⟩
    · rcases hdecided.marks with ⟨hepoch, -⟩ | ⟨-, hadvances⟩
      · rw [(h.unopened hepoch).1]
        exact Nat.zero_le _
      · exact hadvances.contiguous
    · exact absurd hphase (hdecided.uncompromised hstrict)
  rename_i hdrop
  rw [if_neg hdrop] at hdecided
  have hmarks : (chat.classified R strict epoch message).1.syncState =
      { chat.sync with phase := (chat.classified R strict epoch message).1.syncState.phase } :=
    hdecided.marks
  split
  · refine ⟨?_, ?_, hdecided.latched⟩
    · rw [hmarks]
      exact h.dropped hdecided _
    · exact Nat.le_of_eq (by rw [hmarks])
  · exact ⟨h.dropped hdecided chat.sync.phase, Nat.le_refl _, fun _ hphase => hphase⟩

/-! ## A gap asked again -/

theorem Inv.ask (h : Inv epoch seen chat) {range : Option SeqRange}
    (hrange : ∀ r ∈ range, r.min ≤ max chat.sync.contiguousPeerSeq chat.sync.historyFloorSeq + 1) :
    Inv epoch seen (chat.ask epoch range) ∧ Forward strict chat (chat.ask epoch range) := by
  have hself : Inv epoch seen chat ∧ Forward strict chat chat := ⟨h, Nat.le_refl _, fun _ hphase => hphase⟩
  cases range with
  | none => exact hself
  | some r =>
    simp only [PeerSync.ask]
    split
    · rename_i hopen
      refine ⟨⟨⟨h.contiguous, h.loaded⟩, h.window, h.closed, fun s hs => ?_, h.positive, fun hlt => ?_⟩,
        Nat.le_refl _, fun _ hphase => hphase⟩
      · rcases List.mem_cons.mp hs with rfl | hs
        · exact hrange s rfl
        · exact h.asked s hs
      · have hlt : chat.chatTargetEpoch < epoch := hlt
        omega
    · exact hself

theorem olderRange_min {range : SeqRange} (hrange : chat.olderRange = some range) :
    range.min ≤ max chat.sync.contiguousPeerSeq chat.sync.historyFloorSeq + 1 := by
  simp only [olderRange] at hrange
  split at hrange
  · cases hrange
  obtain rfl := Option.some.inj hrange
  have hfloor : u64 (chat.sync.historyFloorSeq + 1) ≤ chat.sync.historyFloorSeq + 1 := Nat.mod_le _ _
  show u64 (chat.sync.historyFloorSeq + 1) ≤ _
  omega

/-- A range closed as empty goes on from the contiguous mark or the floor, so
the mark goes over what it closes only. -/
theorem closeEmptyGap_step (h : Inv epoch seen chat) (range : SeqRange) :
    Inv epoch seen (step R strict epoch chat (.closeEmptyGap range)) ∧
      Forward strict chat (step R strict epoch chat (.closeEmptyGap range)) := by
  simp only [step]
  split
  · rename_i hasked
    have hmin := h.asked range hasked
    have hkeep (k : Nat) (hk : chat.Accounted k) : Accounted { chat with
        sync := ChatSync.closeEmptyGap chat.sync range.min range.max
        closed := ChatSync.seqsFrom range.min range.max ++ chat.closed } k := by
      rcases hk with hbelow | hfirst | hrow | hclosed
      · exact .inl hbelow
      · exact .inr (.inl hfirst)
      · exact .inr (.inr (.inl hrow))
      · exact .inr (.inr (.inr (List.mem_append_right _ hclosed)))
    refine ⟨⟨⟨fun k hk => ?_, h.loaded⟩, fun k hk => hkeep k (h.window k hk), fun k hk => ?_,
      fun r hr => ?_, h.positive, fun hlt => ?_⟩, ?_, fun hstrict hphase => ?_⟩
    · have hle : k ≤ max chat.sync.contiguousPeerSeq range.max := hk
      by_cases hin : range.min ≤ k ∧ k ≤ range.max
      · exact .inr (.inr (.inr (List.mem_append_left _ (ChatSync.mem_seqsFrom.mpr hin))))
      · by_cases hbelow : k ≤ chat.sync.contiguousPeerSeq
        · exact hkeep k (h.contiguous k hbelow)
        · exact .inl (show k ≤ chat.sync.historyFloorSeq by omega)
    · have hmax : chat.sync.contiguousPeerSeq ≤ max chat.sync.contiguousPeerSeq range.max := Nat.le_max_left _ _
      rcases List.mem_append.mp hk with hk | hk
      · obtain ⟨hmem, hle⟩ := h.closed k hk
        exact ⟨List.mem_append_right _ hmem, Nat.le_trans hle hmax⟩
      · have hin := (List.mem_filter.mp hk).1
        refine ⟨List.mem_append_left _ hin, ?_⟩
        exact Nat.le_trans (ChatSync.mem_seqsFrom.mp hin).2 (Nat.le_max_right _ _)
    · have hmin := h.asked r hr
      show r.min ≤ max (max chat.sync.contiguousPeerSeq range.max) chat.sync.historyFloorSeq + 1
      omega
    · have hnone := (h.unopened hlt).2.2
      rw [hnone] at hasked
      cases hasked
    · exact Nat.le_max_left _ _
    · show (ChatSync.closeEmptyGap chat.sync range.min range.max).phase = .compromised
      simp [ChatSync.closeEmptyGap, hphase]
  · exact ⟨h, Nat.le_refl _, fun _ hphase => hphase⟩

/-- The contiguous mark goes on over stored numbers only. -/
theorem advanceContiguous_step (h : Inv epoch seen chat) :
    Inv epoch seen (step R strict epoch chat .advanceContiguous) ∧
      Forward strict chat (step R strict epoch chat .advanceContiguous) := by
  have hforward : chat.sync.contiguousPeerSeq ≤ (ChatSync.advanceContiguous chat.sync
      fun seq => chat.rows.any (·.seq = seq)).contiguousPeerSeq := ChatSync.le_runThrough _ _
  refine ⟨⟨⟨fun k hk => ?_, h.loaded⟩, h.window, fun k hk => ?_, fun range hrange => ?_, h.positive,
    fun hlt => ?_⟩, hforward, fun hstrict hphase => ?_⟩
  · by_cases hbelow : k ≤ chat.sync.contiguousPeerSeq
    · exact h.contiguous k hbelow
    · have hstored := ChatSync.stored_of_runThrough (Nat.not_le.mp hbelow) hk
      rw [List.any_eq_true] at hstored
      obtain ⟨row, hrow, hseq⟩ := hstored
      exact .inr (.inr (.inl ⟨row, hrow, by simpa using hseq⟩))
  · obtain ⟨hmem, hle⟩ := h.closed k hk
    exact ⟨hmem, Nat.le_trans hle hforward⟩
  · have hmin := h.asked range hrange
    have hfloor : (step R strict epoch chat .advanceContiguous).sync.historyFloorSeq =
        chat.sync.historyFloorSeq := rfl
    have hforward : chat.sync.contiguousPeerSeq ≤
        (step R strict epoch chat .advanceContiguous).sync.contiguousPeerSeq := hforward
    rw [hfloor]
    omega
  · obtain ⟨hzero, hrows, hasked⟩ := h.unopened hlt
    refine ⟨?_, hrows, hasked⟩
    show ChatSync.runThrough _ _ _ = 0
    rw [hzero, hrows]
    cases chat.sync.loadedMaxSeq <;> rfl
  · show (ChatSync.advanceContiguous chat.sync fun seq => chat.rows.any (·.seq = seq)).phase =
      .compromised
    simp [ChatSync.advanceContiguous, hphase]

/-! ## The runs -/

theorem step_inv (hR : R.Counts seen) (h : Inv epoch seen chat) (event : PeerSyncEvent) :
    Inv epoch seen (step R strict epoch chat event) ∧ Forward strict chat (step R strict epoch chat event) := by
  cases event with
  | deliver message => exact deliver_step hR h message
  | restart =>
    refine ⟨⟨⟨h.contiguous, h.loaded⟩, fun k hk => ?_, h.closed, h.asked, h.positive, h.unopened⟩,
      Nat.le_refl _, fun _ hphase => hphase⟩
    rw [hR.fresh k hk]
    exact h.contiguous 0 (Nat.zero_le _)
  | repairGap gapMin gapMax =>
    simp only [step]
    split
    · rename_i hmin
      refine h.ask fun range hrange => ?_
      exact ChatSync.clampGapRange_min hmin hrange
    · exact ⟨h, Nat.le_refl _, fun _ hphase => hphase⟩
  | scrollBackfill => exact h.ask fun range hrange => olderRange_min hrange
  | closeEmptyGap range => exact closeEmptyGap_step h range
  | advanceContiguous => exact advanceContiguous_step h
  | chatTarget target =>
    refine ⟨⟨⟨h.contiguous, h.loaded⟩, h.window, h.closed, h.asked, h.positive, fun hlt => h.unopened ?_⟩,
      Nat.le_refl _, fun _ hphase => hphase⟩
    have hlt : max chat.chatTargetEpoch target < epoch := hlt
    omega

theorem listWindow_counts : listWindow.Counts fun w k => k ≤ w.1 ∨ k ∈ w.2 where
  upTo _ _ hk := .inl hk
  fresh k hk := by simpa [listWindow] using hk
  catchUpTo w n k hk := by
    simp only [listWindow] at hk
    split at hk
    · exact .inl hk
    · rcases hk with hk | hk
      · exact .inr hk
      · exact .inl (.inr (List.mem_filter.mp hk).1)
  accepted w n k hk := by
    simp only [listWindow] at hk
    split at hk
    · rcases hk with hk | hk
      · -- the tail goes over what was taken
        by_cases hle : k ≤ w.1
        · exact .inl (.inl hle)
        · rcases List.mem_cons.mp (mem_of_le_runEnd (Nat.not_le.mp hle) hk) with heq | hmem
          · exact .inr heq
          · exact .inl (.inr hmem)
      · rcases List.mem_cons.mp (List.mem_filter.mp hk).1 with heq | hmem
        · exact .inr heq
        · exact .inl (.inr hmem)
    · exact .inl hk
  refused w n k hno hk := by
    simp only [listWindow] at hno hk ⊢
    split at hno
    · cases hno
    · rename_i hout
      rw [if_neg hout] at hk
      exact hk

/-- A relaxed chat where 3 comes before 2, with a restart between and 5 and
6 closed as empty. -/
def sampleSync : List PeerSyncEvent :=
  [.deliver ⟨1, "a", false, false⟩, .deliver ⟨3, "c", false, false⟩, .restart,
    .deliver ⟨2, "b", false, false⟩, .advanceContiguous, .deliver ⟨7, "g", false, false⟩,
    .repairGap 4 6, .deliver ⟨4, "d", false, false⟩, .closeEmptyGap ⟨4, 6⟩, .advanceContiguous,
    .deliver ⟨5, "e", false, false⟩]

end PeerSync

end Pbr
