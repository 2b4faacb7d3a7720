import PpBrowser.Delivery.E2eIngestFlawed
import PpBrowser.Delivery.E2eIngestMarks
import PpBrowser.Delivery.E2ePairEpoch
import PpBrowser.Delivery.PublicPskLockCoordinator
import PpBrowser.Lib.Rows

/-!
# RelayIngest — a message that is not stored, delivered again

`ProcessDirectEnvelope` and `ProcessGroupEnvelope`, from the chat's marks to
the stored row: the classifier moves the window first, then ingest may give
up with nothing stored, and the marks are written last. The same copy comes
again.
-/

namespace Pbr

open E2eIngestClassifier

/-- A stream an envelope can come by. -/
inductive RelayStream where
  /-- A private chat (`e2e`). -/
  | privateDirect
  /-- A public chat (`e2e_public`). -/
  | publicDirect
  | group
  deriving DecidableEq, Repr

/-- The copy of an envelope a device reads. -/
structure EnvelopeCopy where
  stream : RelayStream
  messageId : String
  senderSeq : Nat
  sessionEpoch : Nat
  senderDevice : String
  /-- Empty for an account copy. -/
  recipientDevice : String := ""
  authorizedOlderBackfill : Bool := false
  deriving DecidableEq, Repr

namespace EnvelopeCopy

variable (copy : EnvelopeCopy)

def deviceCopy : Bool := copy.recipientDevice ≠ ""

def strict : Bool := copy.stream = .privateDirect

/-- `CopyNumbering`: whose numbering the copy is in. -/
def numbering : String :=
  if copy.recipientDevice ≠ "" then copy.senderDevice
  else if copy.stream = .privateDirect then ""
  else copy.senderDevice ++ "@account"

end EnvelopeCopy

/-- The chat as one copy meets it: what is stored for its epoch and
numbering, and the window. -/
structure CopyChat (W : Type) where
  thread : Bool := true
  /-- The `chat_targets` row's; it outlives a deleted thread. -/
  chatTargetEpoch : Nat := 1
  /-- The device pair's session's, where there is one. -/
  deviceEpoch : Option Nat := none
  syncState : Option PeerSyncState := none
  messageIdAtSeq : Option String := none
  hasMessageId : Bool := false
  replayWindow : W

/-- Where ingest gives up after a positive classification. -/
inductive GiveUp where
  /-- Membership, a control or the annotation cap refuses the message, or
  `AppendMessage` fails: nothing is written. -/
  | refused
  /-- `AppendMessageWithPassiveEpochAdopt` fails once the chat has moved. -/
  | adopted
  /-- It fails once the marks are written too. -/
  | synced
  deriving DecidableEq, Repr

namespace CopyChat

variable {W : Type} (R : ReplayWindow W) (copy : EnvelopeCopy) (chat : CopyChat W)

/-- The epoch the copy is judged by. A chat made for the copy is at the
copy's own. -/
def ownEpoch : Nat :=
  match copy.stream with
  | .group => copy.sessionEpoch
  | _ =>
    if ¬ chat.thread then copy.sessionEpoch
    else if copy.deviceCopy then chat.deviceEpoch.getD copy.sessionEpoch
    else chat.chatTargetEpoch

/-- The marks the copy is judged by. -/
def loadedSyncState : Option PeerSyncState :=
  match chat.syncState with
  | some state => some state
  | none =>
    if copy.stream = .group ∨ ¬ chat.thread ∨ copy.deviceCopy ∨ copy.numbering ≠ "" then some {}
    else if copy.sessionEpoch > chat.chatTargetEpoch then some {} -- nothing held in it yet
    else none

def classifierInput (syncState : PeerSyncState) : IngestClassifierInput :=
  { senderSeq := copy.senderSeq, sessionEpoch := copy.sessionEpoch, messageId := copy.messageId
    syncState, chatTargetEpoch := chat.ownEpoch copy, strictMode := copy.strict
    existingMessageIdAtSeq := chat.messageIdAtSeq
    authorizedOlderBackfill := copy.authorizedOlderBackfill }

/-- The classification, where the copy comes to it: a public chat is made for
the copy, a private chat or a group is not. -/
def classified : Option (IngestClassifierResult × W) :=
  if ¬ chat.thread ∧ copy.stream ≠ .publicDirect then none
  else if chat.hasMessageId then none -- a duplicate
  else (chat.loadedSyncState copy).map fun syncState =>
    classify R (chat.classifierInput copy syncState) chat.replayWindow

/-- The copy is classified to be stored. -/
def Persists : Prop := ∃ out ∈ chat.classified R copy, out.1.persistMessage = true

/-- `FindOrCreateDirectThread`: the marks it makes are the account's, at the
chat target's epoch. -/
def created : CopyChat W :=
  if chat.thread then chat
  else
    { chat with
      thread := true
      syncState := if copy.numbering = "" ∧ chat.chatTargetEpoch = copy.sessionEpoch then some {} else none }

/-- What ingest leaves where it gives up; `session` is the device pair's epoch
once the message is read. -/
def giveUp (session : Option Nat) (point : GiveUp) : CopyChat W :=
  match chat.classified R copy with
  | none => chat
  | some (result, replayWindow) =>
    let left := { chat.created copy with
      replayWindow
      deviceEpoch := if copy.stream = .privateDirect then chat.deviceEpoch else session }
    if result.decision = .acceptEpochAdvance ∧ ¬ copy.deviceCopy then
      match point with
      | .refused => left
      | .adopted => { left with chatTargetEpoch := copy.sessionEpoch }
      | .synced =>
        { left with
          chatTargetEpoch := copy.sessionEpoch
          syncState := if copy.numbering = "" then some result.syncState else left.syncState }
    else left

/-- What holds of a chat between messages: without a thread nothing is stored
of it, and a private chat holds nothing of an epoch past its own. -/
structure Opened : Prop where
  unthreaded : chat.thread = false → chat.syncState = none ∧ chat.messageIdAtSeq = none
  later : copy.stream = .privateDirect → copy.deviceCopy = false →
    chat.chatTargetEpoch < copy.sessionEpoch → chat.syncState = none

/-- What reading a message makes of the device pair's epoch: nothing, or the
message's own. -/
def Reconciled (before : Option Nat) (epoch : Nat) (after : Option Nat) : Prop :=
  after = before ∨ after = some epoch

/-- When the copy is taken again as it was the first time. -/
def ReceivedAgain (session : Option Nat) (point : GiveUp) : Prop :=
  let marks := chat.syncState.getD {}
  if copy.stream = .group then True
  else if chat.thread = false then
    (if copy.deviceCopy then session.getD copy.sessionEpoch else chat.chatTargetEpoch) ≤ copy.sessionEpoch
  else if chat.ownEpoch copy = copy.sessionEpoch then
    copy.stream = .privateDirect → ¬ marks.TakenAhead copy.senderSeq
  else if copy.deviceCopy then
    copy.stream = .publicDirect → session = some copy.sessionEpoch → ¬ marks.AtMark copy.senderSeq
  else point = .refused ∨ (copy.stream = .publicDirect ∧ ¬ marks.AtMark copy.senderSeq)

/-! ## What the second delivery is judged by -/

variable {R} {copy} {chat} {session : Option Nat} {point : GiveUp}

theorem persists_iff : chat.Persists R copy ↔
    (chat.thread = true ∨ copy.stream = .publicDirect) ∧ chat.hasMessageId = false ∧
      ∃ state ∈ chat.loadedSyncState copy, (chat.classifierInput copy state).Admissible ∧
        (chat.classifierInput copy state).Placed
          ((R.accept (R.catchUpTo chat.replayWindow state.contiguousPeerSeq) copy.senderSeq).1 = true) := by
  unfold Persists classified
  split
  · rename_i hnone
    simp only [Option.mem_def, reduceCtorEq, false_and, exists_false, false_iff, not_and]
    intro hmade
    rcases hmade with hthread | hpublic
    · simp [hthread] at hnone
    · simp [hpublic] at hnone
  rename_i hmade
  have hmade : chat.thread = true ∨ copy.stream = .publicDirect := by
    by_cases hthread : chat.thread = true
    · exact .inl hthread
    · exact .inr (by simpa [hthread] using hmade)
  rw [and_iff_right hmade]
  split
  · rename_i hheld
    simp [hheld]
  rename_i hheld
  rw [and_iff_right (by simpa using hheld)]
  simp only [Option.mem_def, Option.map_eq_some_iff]
  constructor
  · rintro ⟨out, ⟨state, hstate, rfl⟩, hpersists⟩
    exact ⟨state, hstate, (classify_persists_iff R _ _).mp hpersists⟩
  · rintro ⟨state, hstate, hpersists⟩
    exact ⟨_, ⟨state, hstate, rfl⟩, (classify_persists_iff R _ _).mpr hpersists⟩

theorem loadedSyncState_numbered (h : copy.stream = .group ∨ copy.deviceCopy = true ∨ copy.numbering ≠ "") :
    chat.loadedSyncState copy = some (chat.syncState.getD {}) := by
  unfold loadedSyncState
  split
  · rename_i state hstate
    rw [hstate]
    rfl
  · rename_i hstate
    rw [hstate, if_pos]
    · rfl
    · rcases h with h | h | h
      · exact .inl h
      · exact .inr (.inr (.inl h))
      · exact .inr (.inr (.inr h))

theorem numbering_public (h : copy.stream = .publicDirect) : copy.deviceCopy = true ∨ copy.numbering ≠ "" := by
  by_cases hdevice : copy.deviceCopy = true
  · exact .inl hdevice
  · right
    have hrecipient : copy.recipientDevice = "" := by simpa [EnvelopeCopy.deviceCopy] using hdevice
    simp only [EnvelopeCopy.numbering, hrecipient, h, ne_eq, not_true_eq_false, if_false, reduceCtorEq]
    intro hempty
    have hlength := congrArg String.length hempty
    simp at hlength

/-- A later chat is judged as before, but for its epoch, its marks and the
window. -/
theorem admissible_again {later : CopyChat W} {state state' : PeerSyncState}
    (h : (chat.classifierInput copy state).Admissible) (hid : later.messageIdAtSeq = chat.messageIdAtSeq)
    (hfloor : state'.historyFloorSeq < copy.senderSeq) (hphase : copy.strict = true → state'.phase ≠ .compromised) :
    (later.classifierInput copy state').Admissible ↔ later.ownEpoch copy ≤ copy.sessionEpoch := by
  constructor
  · exact fun hlater => hlater.current
  · intro hcurrent
    refine ⟨rfl, h.numbered, hfloor, hcurrent, hphase, ?_⟩
    show ∀ id ∈ later.messageIdAtSeq, id = copy.messageId
    rw [hid]
    exact h.alone

/-! ## The first delivery -/

/-- A copy that is classified to be stored, with the marks it is judged by. -/
structure Taken (R : ReplayWindow W) (copy : EnvelopeCopy) (chat : CopyChat W) (state : PeerSyncState) : Prop where
  made : chat.thread = true ∨ copy.stream = .publicDirect
  unheld : chat.hasMessageId = false
  loaded : chat.loadedSyncState copy = some state
  admissible : (chat.classifierInput copy state).Admissible
  placed : (chat.classifierInput copy state).Placed
    ((R.accept (R.catchUpTo chat.replayWindow state.contiguousPeerSeq) copy.senderSeq).1 = true)

variable {state : PeerSyncState}

theorem Persists.taken (h : chat.Persists R copy) : ∃ state, Taken R copy chat state := by
  obtain ⟨hmade, hunheld, state, hstate, hadmissible, hplaced⟩ := persists_iff.mp h
  exact ⟨state, hmade, hunheld, hstate, hadmissible, hplaced⟩

namespace Taken

variable (h : Taken R copy chat state) {state' : PeerSyncState}

include h

theorem classified : chat.classified R copy =
    some (classify R (chat.classifierInput copy state) chat.replayWindow) := by
  unfold CopyChat.classified
  rw [if_neg, if_neg, h.loaded]
  · rfl
  · simp [h.unheld]
  · rintro ⟨hthread, hstream⟩
    rcases h.made with hmade | hmade
    · exact hthread hmade
    · exact hstream hmade

/-- What is left but for a chat moved on. -/
def leftAt (R : ReplayWindow W) (copy : EnvelopeCopy) (chat : CopyChat W) (state : PeerSyncState)
    (session : Option Nat) : CopyChat W :=
  { chat.created copy with
    replayWindow := (classify R (chat.classifierInput copy state) chat.replayWindow).2
    deviceEpoch := if copy.stream = .privateDirect then chat.deviceEpoch else session }

theorem giveUp_stays (hstays : chat.ownEpoch copy = copy.sessionEpoch ∨ copy.deviceCopy = true) :
    chat.giveUp R copy session point = leftAt R copy chat state session := by
  simp only [giveUp, h.classified]
  rw [if_neg]
  · rfl
  · rintro ⟨hdecision, hdevice⟩
    rcases hstays with hown | hcopy
    · have hepoch : ¬ (chat.classifierInput copy state).sessionEpoch >
          (chat.classifierInput copy state).chatTargetEpoch := by
        show ¬ copy.sessionEpoch > chat.ownEpoch copy
        omega
      exact classify_stays hepoch hdecision
    · exact hdevice hcopy

/-- An account copy of a later epoch moves the chat, if the store gets that
far. -/
theorem giveUp_moves (hlater : chat.ownEpoch copy < copy.sessionEpoch) (hdevice : copy.deviceCopy = false) :
    chat.giveUp R copy session point =
      match point with
      | .refused => leftAt R copy chat state session
      | .adopted => { leftAt R copy chat state session with chatTargetEpoch := copy.sessionEpoch }
      | .synced =>
        { leftAt R copy chat state session with
          chatTargetEpoch := copy.sessionEpoch
          syncState := if copy.numbering = "" then some (startedAt copy.senderSeq)
            else (leftAt R copy chat state session).syncState } := by
  obtain ⟨hdecision, hstarted⟩ := classify_later (R := R) (w := chat.replayWindow) h.admissible hlater
  simp only [giveUp, h.classified]
  rw [if_pos ⟨hdecision, by simp [hdevice]⟩, hstarted]
  rfl

theorem again {later : CopyChat W} (hthread : later.thread = true)
    (hunheld : later.hasMessageId = chat.hasMessageId) (hid : later.messageIdAtSeq = chat.messageIdAtSeq)
    (hloaded : later.loadedSyncState copy = some state') (hfloor : state'.historyFloorSeq < copy.senderSeq)
    (hphase : copy.strict = true → state'.phase ≠ .compromised) :
    later.Persists R copy ↔ later.ownEpoch copy ≤ copy.sessionEpoch ∧ (later.classifierInput copy state').Placed
        ((R.accept (R.catchUpTo later.replayWindow state'.contiguousPeerSeq) copy.senderSeq).1 = true) := by
  rw [persists_iff, and_iff_right (.inl hthread), and_iff_right (hunheld.trans h.unheld)]
  simp only [hloaded, Option.mem_def, Option.some.injEq, exists_eq_left',
    admissible_again h.admissible hid hfloor hphase]

theorem again_relaxed {later : CopyChat W} (hrelaxed : copy.strict = false)
    (hthread : later.thread = true) (hunheld : later.hasMessageId = chat.hasMessageId)
    (hid : later.messageIdAtSeq = chat.messageIdAtSeq)
    (hloaded : later.loadedSyncState copy = some state') (hfloor : state'.historyFloorSeq < copy.senderSeq) :
    later.Persists R copy ↔ later.ownEpoch copy ≤ copy.sessionEpoch ∧
      (later.ownEpoch copy = copy.sessionEpoch → ¬ state'.AtMark copy.senderSeq) := by
  rw [h.again hthread hunheld hid hloaded hfloor fun hstrict => by simp [hrelaxed] at hstrict]
  apply and_congr_right
  intro hcurrent
  by_cases hown : later.ownEpoch copy = copy.sessionEpoch
  · have hepoch : ¬ (later.classifierInput copy state').sessionEpoch >
        (later.classifierInput copy state').chatTargetEpoch := by
      show ¬ copy.sessionEpoch > later.ownEpoch copy
      omega
    have hnumbered : (later.classifierInput copy state').senderSeq ≠ 0 := h.admissible.numbered
    rw [IngestClassifierInput.placed_relaxed hrelaxed hnumbered hepoch]
    simp only [hown, forall_const]
    rfl
  · have hlater : (later.classifierInput copy state').sessionEpoch >
        (later.classifierInput copy state').chatTargetEpoch := by
      show copy.sessionEpoch > later.ownEpoch copy
      omega
    simp only [hown, IsEmpty.forall_iff, iff_true]
    exact IngestClassifierInput.placed_of_later hlater

/-- A chat that is still before the copy's epoch moves again. -/
theorem again_later {later : CopyChat W} (hthread : later.thread = true)
    (hunheld : later.hasMessageId = chat.hasMessageId) (hid : later.messageIdAtSeq = chat.messageIdAtSeq)
    (hloaded : later.loadedSyncState copy = some state) (hlater : later.ownEpoch copy < copy.sessionEpoch) :
    later.Persists R copy := by
  rw [h.again hthread hunheld hid hloaded h.admissible.above h.admissible.uncompromised]
  exact ⟨Nat.le_of_lt hlater, IngestClassifierInput.placed_of_later hlater⟩

/-- A strict chat at the copy's epoch: the window has a number taken ahead. -/
theorem again_strict (hR : R.Once) {later : CopyChat W} (hstrict : copy.strict = true)
    (hown : chat.ownEpoch copy = copy.sessionEpoch) (hthread : later.thread = true)
    (hunheld : later.hasMessageId = chat.hasMessageId) (hid : later.messageIdAtSeq = chat.messageIdAtSeq)
    (hloaded : later.loadedSyncState copy = some state) (hlater : later.ownEpoch copy = copy.sessionEpoch)
    (hwindow : later.replayWindow = (classify R (chat.classifierInput copy state) chat.replayWindow).2) :
    later.Persists R copy ↔ ¬ state.TakenAhead copy.senderSeq := by
  have hinput : later.classifierInput copy state = chat.classifierInput copy state := by
    simp [classifierInput, hlater, hown, hid]
  have hepoch : ¬ (chat.classifierInput copy state).sessionEpoch >
      (chat.classifierInput copy state).chatTargetEpoch := by
    show ¬ copy.sessionEpoch > chat.ownEpoch copy
    omega
  rw [h.again hthread hunheld hid hloaded h.admissible.above h.admissible.uncompromised,
    and_iff_right (Nat.le_of_eq hlater), hinput,
    IngestClassifierInput.placed_strict hstrict hepoch h.placed]
  constructor
  · intro haccept hahead
    obtain ⟨hfirst, hafter⟩ := classify_ahead h.admissible hepoch hstrict hahead h.placed
    have hagain := haccept hahead
    rw [hwindow, hafter] at hagain
    have hrefused := hR.again _ _ state.contiguousPeerSeq hfirst
    exact Bool.false_ne_true (hrefused.symm.trans hagain)
  · exact fun hnot hahead => absurd hahead hnot

end Taken

/-! ## Every stream -/

section Streams

variable (h : Taken R copy chat state)

include h

theorem again_group (hgroup : copy.stream = .group) : (chat.giveUp R copy session point).Persists R copy := by
  have hthread : chat.thread = true := by
    rcases h.made with hthread | hpublic
    · exact hthread
    · rw [hgroup] at hpublic
      cases hpublic
  have hown (later : CopyChat W) : later.ownEpoch copy = copy.sessionEpoch := by
    simp [ownEpoch, hgroup]
  have hstrict : copy.strict = false := by simp [EnvelopeCopy.strict, hgroup]
  have hcreated : chat.created copy = chat := by simp [created, hthread]
  have hloaded (later : CopyChat W) (hsync : later.syncState = chat.syncState) :
      later.loadedSyncState copy = some state := by
    rw [loadedSyncState_numbered (.inl hgroup), hsync, ← loadedSyncState_numbered (.inl hgroup), h.loaded]
  have hepoch : ¬ (chat.classifierInput copy state).sessionEpoch >
      (chat.classifierInput copy state).chatTargetEpoch := by
    show ¬ copy.sessionEpoch > chat.ownEpoch copy
    rw [hown]
    exact Nat.lt_irrefl _
  have hmark := (IngestClassifierInput.placed_relaxed hstrict h.admissible.numbered hepoch).mp h.placed
  rw [h.giveUp_stays (.inl (hown chat)), h.again_relaxed hstrict (by simp [Taken.leftAt, hcreated, hthread])
    (by simp [Taken.leftAt, hcreated]) (by simp [Taken.leftAt, hcreated])
    (hloaded _ (by simp [Taken.leftAt, hcreated])) h.admissible.above]
  exact ⟨Nat.le_of_eq (hown _), fun _ => hmark⟩

theorem again_created (hopened : chat.Opened copy) (hthread : chat.thread = false) :
    (chat.giveUp R copy session point).Persists R copy ↔
      (if copy.deviceCopy then session.getD copy.sessionEpoch else chat.chatTargetEpoch) ≤ copy.sessionEpoch := by
  obtain ⟨hsync, hid⟩ := hopened.unthreaded hthread
  have hpublic : copy.stream = .publicDirect := by
    rcases h.made with hmade | hpublic
    · rw [hthread] at hmade
      cases hmade
    · exact hpublic
  have hown : chat.ownEpoch copy = copy.sessionEpoch := by
    simp [ownEpoch, hpublic, hthread]
  have hstrict : copy.strict = false := by simp [EnvelopeCopy.strict, hpublic]
  have hloaded : (Taken.leftAt R copy chat state session).loadedSyncState copy = some {} := by
    rw [loadedSyncState_numbered (.inr (numbering_public hpublic))]
    simp only [Taken.leftAt, created, hthread, Bool.false_eq_true, if_false]
    split <;> rfl
  have hlater : (Taken.leftAt R copy chat state session).ownEpoch copy =
      if copy.deviceCopy then session.getD copy.sessionEpoch else chat.chatTargetEpoch := by
    simp [ownEpoch, Taken.leftAt, created, hthread, hpublic]
  have hpos : 0 < copy.senderSeq := Nat.pos_of_ne_zero h.admissible.numbered
  rw [h.giveUp_stays (.inl hown), h.again_relaxed hstrict (by simp [Taken.leftAt, created, hthread])
    (by simp [Taken.leftAt, created, hthread]) (by simp [Taken.leftAt, created, hthread]) hloaded hpos, hlater]
  apply and_iff_left
  rintro - ⟨-, hzero, -⟩
  exact h.admissible.numbered hzero

theorem again_own (hR : R.Once) (hsession : Reconciled chat.deviceEpoch copy.sessionEpoch session)
    (hgroup : copy.stream ≠ .group) (hthread : chat.thread = true)
    (hown : chat.ownEpoch copy = copy.sessionEpoch) : (chat.giveUp R copy session point).Persists R copy ↔
      (copy.stream = .privateDirect → ¬ state.TakenAhead copy.senderSeq) := by
  have hcreated : chat.created copy = chat := by simp [created, hthread]
  have hlater : (Taken.leftAt R copy chat state session).ownEpoch copy = copy.sessionEpoch := by
    rw [← hown]
    cases hstream : copy.stream with
    | privateDirect => simp [ownEpoch, Taken.leftAt, hcreated, hthread, hstream]
    | publicDirect =>
      simp only [ownEpoch, Taken.leftAt, hcreated, hthread, hstream] at hown ⊢
      by_cases hdevice : copy.deviceCopy = true
      · simp only [hdevice, if_true, not_true_eq_false, if_false, reduceCtorEq] at hown ⊢
        rcases hsession with rfl | rfl
        · rfl
        · exact hown.symm
      · simp [hdevice]
    | group => exact absurd hstream hgroup
  have hloaded : (Taken.leftAt R copy chat state session).loadedSyncState copy = some state := by
    rw [← h.loaded]
    simp [loadedSyncState, Taken.leftAt, hcreated]
  rw [h.giveUp_stays (.inl hown)]
  cases hstream : copy.stream with
  | privateDirect =>
    have hstrict : copy.strict = true := by simp [EnvelopeCopy.strict, hstream]
    rw [h.again_strict hR hstrict hown (by simp [Taken.leftAt, hcreated, hthread])
      (by simp [Taken.leftAt, hcreated]) (by simp [Taken.leftAt, hcreated]) hloaded hlater rfl]
    simp
  | publicDirect =>
    have hstrict : copy.strict = false := by simp [EnvelopeCopy.strict, hstream]
    have hepoch : ¬ (chat.classifierInput copy state).sessionEpoch >
        (chat.classifierInput copy state).chatTargetEpoch := by
      show ¬ copy.sessionEpoch > chat.ownEpoch copy
      omega
    have hmark := (IngestClassifierInput.placed_relaxed hstrict h.admissible.numbered hepoch).mp h.placed
    rw [h.again_relaxed hstrict (by simp [Taken.leftAt, hcreated, hthread])
      (by simp [Taken.leftAt, hcreated]) (by simp [Taken.leftAt, hcreated]) hloaded h.admissible.above]
    simp only [reduceCtorEq, IsEmpty.forall_iff, iff_true]
    exact ⟨Nat.le_of_eq hlater, fun _ => hmark⟩
  | group => exact absurd hstream hgroup

theorem again_device (hsession : Reconciled chat.deviceEpoch copy.sessionEpoch session)
    (hgroup : copy.stream ≠ .group) (hthread : chat.thread = true) (hdevice : copy.deviceCopy = true)
    (hown : chat.ownEpoch copy < copy.sessionEpoch) : (chat.giveUp R copy session point).Persists R copy ↔
      (copy.stream = .publicDirect → session = some copy.sessionEpoch → ¬ state.AtMark copy.senderSeq) := by
  have hcreated : chat.created copy = chat := by simp [created, hthread]
  have hloaded : (Taken.leftAt R copy chat state session).loadedSyncState copy = some state := by
    rw [← h.loaded]
    simp [loadedSyncState, Taken.leftAt, hcreated]
  have howned (later : CopyChat W) (hlater : later.thread = true) :
      later.ownEpoch copy = later.deviceEpoch.getD copy.sessionEpoch := by
    cases hstream : copy.stream with
    | privateDirect | publicDirect => simp [ownEpoch, hstream, hlater, hdevice]
    | group => exact absurd hstream hgroup
  have hleft : (Taken.leftAt R copy chat state session).thread = true := by
    simp [Taken.leftAt, hcreated, hthread]
  have hbefore : chat.deviceEpoch.getD copy.sessionEpoch < copy.sessionEpoch := howned chat hthread ▸ hown
  have hnone : chat.deviceEpoch ≠ some copy.sessionEpoch := by
    intro hsome
    rw [hsome] at hbefore
    exact Nat.lt_irrefl _ hbefore
  rw [h.giveUp_stays (.inr hdevice)]
  by_cases hmoved : copy.stream = .publicDirect ∧ session = some copy.sessionEpoch
  · have hstrict : copy.strict = false := by simp [EnvelopeCopy.strict, hmoved.1]
    have hlater : (Taken.leftAt R copy chat state session).ownEpoch copy = copy.sessionEpoch := by
      rw [howned _ hleft]
      simp [Taken.leftAt, hmoved.1, hmoved.2]
    rw [h.again_relaxed hstrict hleft (by simp [Taken.leftAt, hcreated])
      (by simp [Taken.leftAt, hcreated]) hloaded h.admissible.above, hlater]
    simp [hmoved.1, hmoved.2]
  · -- the pair is where it was
    have hlater : (Taken.leftAt R copy chat state session).ownEpoch copy < copy.sessionEpoch := by
      rw [howned _ hleft]
      show (if copy.stream = .privateDirect then chat.deviceEpoch else session).getD copy.sessionEpoch < _
      split
      · exact hbefore
      · rename_i hstream
        have hpublic : copy.stream = .publicDirect := by
          cases hcopy : copy.stream with
          | privateDirect => exact absurd hcopy hstream
          | publicDirect => rfl
          | group => exact absurd hcopy hgroup
        rcases hsession with rfl | hsome
        · exact hbefore
        · exact absurd ⟨hpublic, hsome⟩ hmoved
    have hagain := h.again_later hleft (by simp [Taken.leftAt, hcreated])
      (by simp [Taken.leftAt, hcreated]) hloaded hlater
    simp only [hagain, true_iff]
    exact fun hpublic hsome => absurd ⟨hpublic, hsome⟩ hmoved

theorem again_account (hR : R.Once) (hopened : chat.Opened copy) (hgroup : copy.stream ≠ .group)
    (hthread : chat.thread = true) (hdevice : copy.deviceCopy = false)
    (hown : chat.ownEpoch copy < copy.sessionEpoch) : (chat.giveUp R copy session point).Persists R copy ↔
      point = .refused ∨ (copy.stream = .publicDirect ∧ ¬ state.AtMark copy.senderSeq) := by
  have hcreated : chat.created copy = chat := by simp [created, hthread]
  have howned (later : CopyChat W) (hlater : later.thread = true) :
      later.ownEpoch copy = later.chatTargetEpoch := by
    cases hstream : copy.stream with
    | privateDirect | publicDirect => simp [ownEpoch, hstream, hlater, hdevice]
    | group => exact absurd hstream hgroup
  have hleft : (Taken.leftAt R copy chat state session).thread = true := by
    simp [Taken.leftAt, hcreated, hthread]
  have hloaded : (Taken.leftAt R copy chat state session).loadedSyncState copy = some state := by
    rw [← h.loaded]
    simp [loadedSyncState, Taken.leftAt, hcreated]
  have hbefore : chat.chatTargetEpoch < copy.sessionEpoch := howned chat hthread ▸ hown
  rw [h.giveUp_moves hown hdevice]
  cases hstream : copy.stream with
  | group => exact absurd hstream hgroup
  | publicDirect =>
    have hstrict : copy.strict = false := by simp [EnvelopeCopy.strict, hstream]
    have hnumbering : copy.numbering ≠ "" := by
      rcases numbering_public hstream with hcopy | hnumbering
      · rw [hdevice] at hcopy
        cases hcopy
      · exact hnumbering
    have hmoved {later : CopyChat W} (hlater : later.thread = true)
        (hunheld : later.hasMessageId = chat.hasMessageId)
        (hid : later.messageIdAtSeq = chat.messageIdAtSeq) (hsync : later.syncState = chat.syncState)
        (htarget : later.chatTargetEpoch = copy.sessionEpoch) :
        later.Persists R copy ↔ ¬ state.AtMark copy.senderSeq := by
      have hmarks : later.loadedSyncState copy = some state := by
        rw [loadedSyncState_numbered (.inr (.inr hnumbering)), hsync,
          ← loadedSyncState_numbered (.inr (.inr hnumbering)), h.loaded]
      rw [h.again_relaxed hstrict hlater hunheld hid hmarks h.admissible.above, howned later hlater,
        htarget]
      simp
    cases point with
    | refused =>
      have hlater : (Taken.leftAt R copy chat state session).ownEpoch copy < copy.sessionEpoch := by
        rw [howned _ hleft]
        simpa [Taken.leftAt, hcreated] using hbefore
      simp [h.again_later hleft (by simp [Taken.leftAt, hcreated]) (by simp [Taken.leftAt, hcreated])
        hloaded hlater]
    | adopted =>
      refine Iff.trans (hmoved ?_ ?_ ?_ ?_ ?_) (by simp)
      · exact hleft
      · simp [Taken.leftAt, hcreated]
      · simp [Taken.leftAt, hcreated]
      · simp [Taken.leftAt, hcreated]
      · rfl
    | synced =>
      refine Iff.trans (hmoved ?_ ?_ ?_ ?_ ?_) (by simp)
      · exact hleft
      · simp [Taken.leftAt, hcreated]
      · simp [Taken.leftAt, hcreated]
      · simp [Taken.leftAt, hcreated, hnumbering]
      · rfl
  | privateDirect =>
    have hsync : chat.syncState = none := hopened.later hstream hdevice hbefore
    have hrecipient : copy.recipientDevice = "" := by simpa [EnvelopeCopy.deviceCopy] using hdevice
    have hnumbering : copy.numbering = "" := by simp [EnvelopeCopy.numbering, hrecipient, hstream]
    have hstrict : copy.strict = true := by simp [EnvelopeCopy.strict, hstream]
    cases point with
    | refused =>
      have hlater : (Taken.leftAt R copy chat state session).ownEpoch copy < copy.sessionEpoch := by
        rw [howned _ hleft]
        simpa [Taken.leftAt, hcreated] using hbefore
      simp [h.again_later hleft (by simp [Taken.leftAt, hcreated]) (by simp [Taken.leftAt, hcreated])
        hloaded hlater]
    | adopted =>
      -- no marks for the epoch the chat is now at
      simp [persists_iff, loadedSyncState, Taken.leftAt, hcreated, hsync, hstream, hthread, hdevice,
        hnumbering]
    | synced =>
      -- the marks say the message is there
      dsimp only
      rw [if_pos hnumbering]
      refine Iff.trans (h.again ?_ ?_ ?_
        (show loadedSyncState copy _ = some (startedAt copy.senderSeq) from rfl) ?_ ?_) ?_
      · exact hleft
      · simp [Taken.leftAt, hcreated]
      · simp [Taken.leftAt, hcreated]
      · exact Nat.pos_of_ne_zero h.admissible.numbered
      · simp [startedAt]
      simp only [reduceCtorEq, false_and, or_self, iff_false, not_and]
      intro hcurrent hplaced
      have hnumbered : copy.senderSeq ≠ 0 := h.admissible.numbered
      have hcaught := hR.caughtUp (Taken.leftAt R copy chat state session).replayWindow copy.senderSeq
        copy.senderSeq (Nat.le_refl _)
      have hnext : copy.senderSeq ≠ u64 (copy.senderSeq + 1) := by
        simp only [u64]
        omega
      unfold IngestClassifierInput.Placed at hplaced
      simp only [classifierInput, startedAt, PeerSyncState.isLateFill, List.contains_nil,
        Bool.false_eq_true, if_false, Nat.lt_irrefl, hnumbered, false_and, hnext, hstrict,
        Bool.true_eq_false, or_false] at hplaced
      rw [if_neg (by rw [howned]; exacts [Nat.lt_irrefl _, hleft])] at hplaced
      split at hplaced
      · exact hplaced
      split at hplaced
      · rw [hcaught] at hplaced
        cases hplaced
      · exact hplaced

end Streams

theorem Taken.state_eq (h : Taken R copy chat state) : state = chat.syncState.getD {} := by
  have hloaded := h.loaded
  unfold loadedSyncState at hloaded
  split at hloaded
  · rename_i held hheld
    rw [hheld]
    exact (Option.some.inj hloaded).symm
  rename_i hnone
  rw [hnone]
  split at hloaded
  · exact (Option.some.inj hloaded).symm
  split at hloaded
  · exact (Option.some.inj hloaded).symm
  · cases hloaded

/-- **When a message that was not stored can still be received**, at every
point where ingest gives up on it. -/
theorem received_again_iff (hR : R.Once) (hopened : chat.Opened copy)
    (hsession : Reconciled chat.deviceEpoch copy.sessionEpoch session) (hpersists : chat.Persists R copy)
    (point : GiveUp) :
    (chat.giveUp R copy session point).Persists R copy ↔ ReceivedAgain copy chat session point := by
  obtain ⟨state, h⟩ := hpersists.taken
  have hcurrent : chat.ownEpoch copy ≤ copy.sessionEpoch := h.admissible.current
  unfold ReceivedAgain
  rw [← h.state_eq]
  dsimp only
  by_cases hgroup : copy.stream = .group
  · rw [if_pos hgroup, iff_true]
    exact again_group h hgroup
  rw [if_neg hgroup]
  by_cases hthread : chat.thread = false
  · rw [if_pos hthread]
    exact again_created h hopened hthread
  rw [if_neg hthread]
  rw [Bool.not_eq_false] at hthread
  by_cases hown : chat.ownEpoch copy = copy.sessionEpoch
  · rw [if_pos hown]
    exact again_own h hR hsession hgroup hthread hown
  rw [if_neg hown]
  have hlater : chat.ownEpoch copy < copy.sessionEpoch := Nat.lt_of_le_of_ne hcurrent hown
  by_cases hdevice : copy.deviceCopy = true
  · rw [if_pos hdevice]
    exact again_device h hsession hgroup hthread hdevice hlater
  · rw [if_neg hdevice]
    rw [Bool.not_eq_true] at hdevice
    exact again_account h hR hopened hgroup hthread hdevice hlater

/-! ## What it rests on -/

/-! ## A private chat whose third message comes early -/

theorem listWindow_once : listWindow.Once where
  again w n m haccept := by
    have hok : w.1 < n ∧ n ≤ w.1 + kReplayWindowSize ∧ n ∉ w.2 := by
      by_contra hno
      simp [listWindow, if_neg hno] at haccept
    simp only [listWindow, if_pos hok]
    generalize runEnd (n :: w.2) (w.2.length + 2) w.1 = tail
    by_cases hle : m ≤ tail
    · rw [if_pos hle, if_neg]
      rintro ⟨hlt, -, hout⟩
      exact hout (List.mem_filter.mpr ⟨List.mem_cons_self, by simpa using hlt⟩)
    · rw [if_neg hle, if_neg]
      rintro ⟨hlt, -, hout⟩
      have hlt : m < n := hlt
      refine hout (List.mem_filter.mpr ⟨List.mem_filter.mpr ⟨List.mem_cons_self, ?_⟩, by simpa using hlt⟩)
      simp only [decide_eq_true_eq]
      omega
  caughtUp w n m hle := by
    simp only [listWindow]
    split
    · rename_i hm
      rw [if_neg]
      omega
    · rw [if_neg]
      dsimp only
      omega

/-- A private chat with message 1 stored. -/
def sampleChat : CopyChat (Nat × List Nat) :=
  { syncState := some { contiguousPeerSeq := 1, loadedMinSeq := 1, loadedMaxSeq := 1 }
    replayWindow := (1, []) }

def sampleCopy (senderSeq : Nat) : EnvelopeCopy :=
  { stream := .privateDirect, messageId := "m", senderSeq, sessionEpoch := 1, senderDevice := "phone" }

theorem sampleChat_opened (senderSeq : Nat) : sampleChat.Opened (sampleCopy senderSeq) where
  unthreaded h := by cases h
  later _ _ h := absurd h (Nat.lt_irrefl 1)

theorem received_again_iff_sample :
    (sampleChat.giveUp listWindow (sampleCopy 2) none .refused).Persists listWindow (sampleCopy 2) ↔
      ReceivedAgain (sampleCopy 2) sampleChat none .refused :=
  received_again_iff listWindow_once (sampleChat_opened 2) (.inl rfl) ⟨_, rfl, by decide⟩ .refused

/-- Message 3 of a private chat at 1 is taken ahead and not stored. It comes
again, and the chat is compromised. -/
theorem not_received_again :
    ((sampleChat.classified listWindow (sampleCopy 3)).map fun out =>
        (out.1.decision, out.1.persistMessage)) = some (.acceptGap, true) ∧
      (((sampleChat.giveUp listWindow (sampleCopy 3) none .refused).classified listWindow
          (sampleCopy 3)).map fun out =>
        (out.1.decision, out.1.persistMessage, out.1.syncState.phase)) =
        some (.softCompromised, false, .compromised) := by
  decide

end CopyChat

/-! ## A member's copy in a group -/

/-! ## The thread store's sync state -/

/-- A row of `threads`, as far as a chat's sync state asks for it. -/
structure ThreadRow where
  id : String
  kind : ThreadKind
  peerIdentityKind : String := ""
  peerIdentityValue : String := ""
  groupId : Option String := none
  deriving DecidableEq, Repr

/-- A row of a thread's `sync_state`. -/
structure SyncStateRow where
  threadId : String
  peerIdentityKind : String
  owner : String
  sessionEpoch : Nat
  state : PeerSyncState
  deriving DecidableEq, Repr

def SyncStateRow.key (row : SyncStateRow) : String × String × String × Nat :=
  (row.threadId, row.peerIdentityKind, row.owner, row.sessionEpoch)

/-- `SqliteThreadStore`, its threads and their sync states. -/
structure SqliteThreads where
  threads : List ThreadRow := []
  /-- `group_targets`: a group's thread. -/
  groupTargets : List (String × String) := []
  syncStates : List SyncStateRow := []
  distinct : Lib.DistinctKeys ThreadRow.id threads
  /-- A group's thread is made by `FindOrCreateGroupThread`. -/
  grouped : ∀ thread ∈ threads,
    thread.groupId.isSome ∨ (∃ target ∈ groupTargets, target.2 = thread.id) → thread.kind = .group

namespace SqliteThreads

variable (store : SqliteThreads)

def getThread (threadId : String) : Option ThreadRow := store.threads.find? (·.id = threadId)

/-- `FindThreadIdForGroup`, and the threads themselves where it knows none. -/
def findGroupThread (groupId : String) : Option ThreadRow :=
  let mapped := (store.groupTargets.find? (·.1 = groupId)).map (·.2)
  let threadId := mapped.or ((store.threads.find? (·.groupId = some groupId)).map (·.id))
  threadId.bind store.getThread

def directTargetForThread (thread : ThreadRow) : Roe (String × String) :=
  if thread.kind ≠ .direct then .error "Not a direct thread"
  else if thread.peerIdentityKind = "" ∨ thread.peerIdentityValue = "" then
    .error "Direct thread missing peer identity"
  else .ok (thread.peerIdentityKind, thread.peerIdentityValue)

/-- Whose numbering a `sync_state` row tracks: the peer account, or one of its
devices. -/
def syncStateOwner (peerIdentityValue senderDevice : String) : String :=
  if senderDevice = "" then peerIdentityValue else peerIdentityValue ++ "/" ++ senderDevice

/-- The peer whose rows a thread's sync state is read from and written to. -/
def syncTarget (threadId : String) : Roe (String × String) :=
  match store.getThread threadId with
  | none => .error "Thread not found"
  | some thread => directTargetForThread thread

def getPeerSyncState (threadId : String) (sessionEpoch : Nat) (senderDevice : String) : Roe PeerSyncState := do
  let target ← store.syncTarget threadId
  let owner := syncStateOwner target.2 senderDevice
  match Lib.rowOf SyncStateRow.key (threadId, target.1, owner, sessionEpoch) store.syncStates with
  | none => .error "sync_state not found"
  | some row => .ok row.state

def setPeerSyncState (threadId : String) (sessionEpoch : Nat) (state : PeerSyncState) (senderDevice : String) :
    Roe SqliteThreads := do
  let target ← store.syncTarget threadId
  let owner := syncStateOwner target.2 senderDevice
  return { store with
    syncStates := Lib.put SyncStateRow.key
      { threadId, peerIdentityKind := target.1, owner, sessionEpoch, state } store.syncStates }

end SqliteThreads

/-! ## A copy -/

/-- A copy of a group's message, with the answers it meets on its way. -/
structure GroupCopy where
  groupId : String
  messageId : String
  senderContactId : String
  senderSeq : Nat
  sessionEpoch : Nat
  senderDevice : String
  /-- Empty for an account copy. -/
  recipientDevice : String := ""
  authorizedOlderBackfill : Bool := false
  /-- Where it stops before the group's thread is asked for: another device's
  copy, its signature, its decryption, the roster, the control lane. -/
  stopped : Option IngestDecision := none
  /-- Membership and the annotation cap let it through and it is appended. -/
  appended : Bool := true
  deriving DecidableEq, Repr

namespace GroupCopy

variable (copy : GroupCopy)

def envelope : EnvelopeCopy :=
  { stream := .group, messageId := copy.messageId, senderSeq := copy.senderSeq
    sessionEpoch := copy.sessionEpoch, senderDevice := copy.senderDevice
    recipientDevice := copy.recipientDevice, authorizedOlderBackfill := copy.authorizedOlderBackfill }

def numbering : String := copy.envelope.numbering

end GroupCopy

/-- A sender's numbering in a group thread and an epoch. -/
structure SenderNumbering where
  threadId : String
  sessionEpoch : Nat
  senderContactId : String
  numbering : String
  deriving DecidableEq, Repr

def GroupCopy.senderNumbering (copy : GroupCopy) (threadId : String) : SenderNumbering :=
  { threadId, sessionEpoch := copy.sessionEpoch, senderContactId := copy.senderContactId
    numbering := copy.numbering }

/-- A stored message of a group thread. -/
structure GroupRow where
  numbering : SenderNumbering
  messageId : String
  senderSeq : Nat
  deriving DecidableEq, Repr

/-- What becomes of a copy. -/
structure GroupReceipt where
  copy : GroupCopy
  decision : IngestDecision
  /-- The marks it was classified with. -/
  classifiedWith : Option PeerSyncState := none
  /-- What `SetPeerSyncState` was called with, and whose it is. -/
  kept : Option (SenderNumbering × PeerSyncState) := none
  deriving DecidableEq, Repr

/-- A device's groups: the store, the rows of the threads and the windows,
which are memory. -/
structure GroupIngest (W : Type) where
  store : SqliteThreads
  rows : List GroupRow := []
  /-- `ReplayKey`: thread, epoch, sender and numbering. -/
  replayWindows : String × Nat × String → W

namespace GroupIngest

variable {W : Type} (R : ReplayWindow W) (localRelayUserId : String) (chat : GroupIngest W)

def hasMessageId (threadId messageId : String) : Bool :=
  chat.rows.any fun row => row.numbering.threadId = threadId ∧ row.messageId = messageId

def findMessageIdAtSeq (numbering : SenderNumbering) (senderSeq : Nat) : Option String :=
  (chat.rows.find? fun row => row.numbering = numbering ∧ row.senderSeq = senderSeq).map (·.messageId)

/-- `GetPeerSyncState`, the default where it fails. -/
def loadedSyncState (threadId : String) (copy : GroupCopy) : PeerSyncState :=
  match chat.store.getPeerSyncState threadId copy.sessionEpoch copy.numbering with
  | .ok loaded => loaded
  | .error _ => {}

def classifierInput (threadId : String) (copy : GroupCopy) : IngestClassifierInput :=
  { senderSeq := copy.senderSeq, sessionEpoch := copy.sessionEpoch, messageId := copy.messageId
    syncState := chat.loadedSyncState threadId copy, chatTargetEpoch := copy.sessionEpoch
    strictMode := false
    existingMessageIdAtSeq := chat.findMessageIdAtSeq (copy.senderNumbering threadId) copy.senderSeq
    authorizedOlderBackfill := copy.authorizedOlderBackfill }

def replayKey (threadId : String) (copy : GroupCopy) : String × Nat × String :=
  (threadId, copy.sessionEpoch, copy.senderContactId ++ "/" ++ copy.numbering)

/-- `AppendMessage` and `SetPeerSyncState`, the error of which is dropped. -/
def persist (threadId : String) (copy : GroupCopy) (syncState : PeerSyncState) : GroupIngest W :=
  { chat with
    rows := ⟨copy.senderNumbering threadId, copy.messageId, copy.senderSeq⟩ :: chat.rows
    store :=
      match chat.store.setPeerSyncState threadId copy.sessionEpoch syncState copy.numbering with
      | .ok store => store
      | .error _ => chat.store }

/-- The copy in its thread: classified, and persisted where it may be. -/
def classifyAndPersist (threadId : String) (copy : GroupCopy) : GroupReceipt × GroupIngest W :=
  let key := replayKey threadId copy
  let (classified, window) := classify R (chat.classifierInput threadId copy) (chat.replayWindows key)
  let classifiedWith := some (chat.loadedSyncState threadId copy)
  let chat := { chat with replayWindows := fun k => if k = key then window else chat.replayWindows k }
  if ¬ classified.persistMessage then ({ copy, decision := classified.decision, classifiedWith }, chat)
  else if ¬ copy.appended then ({ copy, decision := .hardReject, classifiedWith }, chat)
  else
    ({ copy, decision := classified.decision, classifiedWith
       kept := some (copy.senderNumbering threadId, classified.syncState) },
      chat.persist threadId copy classified.syncState)

def processGroupEnvelope (copy : GroupCopy) : GroupReceipt × GroupIngest W :=
  if copy.senderContactId = localRelayUserId then ({ copy, decision := .silentDiscard }, chat)
  else
    match copy.stopped with
    | some decision => ({ copy, decision }, chat)
    | none =>
      match chat.store.findGroupThread copy.groupId with
      | none => ({ copy, decision := .hardReject }, chat)
      | some thread =>
        if chat.hasMessageId thread.id copy.messageId then ({ copy, decision := .benignDuplicate }, chat)
        else chat.classifyAndPersist R thread.id copy

end GroupIngest

/-! ## A run -/

/-- What happens to a device's groups. -/
inductive GroupIngestEvent where
  | deliver (copy : GroupCopy)
  /-- A message of one's own is stored. -/
  | ownMessage (threadId messageId device : String) (sessionEpoch senderSeq : Nat)
  /-- The windows are memory. -/
  | restart
  deriving DecidableEq, Repr

/-- A device's groups, with what became of the copies so far, newest first. -/
structure GroupRun (W : Type) where
  ingest : GroupIngest W
  receipts : List GroupReceipt := []

namespace GroupRun

variable {W : Type} (R : ReplayWindow W) (localRelayUserId : String)

def step (run : GroupRun W) : GroupIngestEvent → GroupRun W
  | .deliver copy =>
    let (receipt, ingest) := run.ingest.processGroupEnvelope R localRelayUserId copy
    { ingest, receipts := receipt :: run.receipts }
  | .ownMessage threadId messageId device sessionEpoch senderSeq =>
    { run with
      ingest := { run.ingest with
        rows := ⟨⟨threadId, sessionEpoch, localRelayUserId, device⟩, messageId, senderSeq⟩ :: run.ingest.rows } }
  | .restart => { run with ingest := { run.ingest with replayWindows := fun _ => R.fresh } }

/-- The groups before the first message of any. -/
def start (store : SqliteThreads) : GroupRun W := { ingest := { store, replayWindows := fun _ => R.fresh } }

def after (store : SqliteThreads) (events : List GroupIngestEvent) : GroupRun W :=
  events.foldl (step R localRelayUserId) (start R store)

/-- What was stored after the last accepted copy of the numbering; the default
before the first. -/
def lastStored (run : GroupRun W) (numbering : SenderNumbering) : PeerSyncState :=
  ((run.receipts.filterMap (·.kept)).find? (·.1 = numbering)).elim {} (·.2)

/-- What was decided on one member's copies, newest first. -/
def decisionsOf (run : GroupRun W) (member : String) : List IngestDecision :=
  (run.receipts.filter (·.copy.senderContactId = member)).map (·.decision)

end GroupRun

/-- An event that is no other member's copy. -/
def GroupIngestEvent.Concerns (member : String) : GroupIngestEvent → Bool
  | .deliver copy => copy.senderContactId = member
  | _ => true

end Pbr
