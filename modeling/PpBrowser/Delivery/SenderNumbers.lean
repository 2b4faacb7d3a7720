import PpBrowser.Delivery.PskSessionRun
import PpBrowser.Lib.Numbering

/-!
# SenderNumbers — the numbers a sender gives its messages

The three counters of `SqliteThreadStore.cpp`, `SqlitePeerSessionStore.cpp`
and `SqliteGroupRosterStore.cpp`: an account chat numbers on its target's row,
a device pair on its session's, a group member on a row of its own. Each has
its own rule for when an epoch starts the count over.
-/

namespace Pbr

structure DirectChatTarget where
  peerIdentityKind : String
  peerIdentityValue : String
  channel : CryptoChannel := .e2e
  deriving DecidableEq, Repr

/-- Its row: an account's, of no device. -/
def DirectChatTarget.key (target : DirectChatTarget) : PeerSessionKey where
  peerIdentityKind := target.peerIdentityKind
  peerIdentityValue := target.peerIdentityValue
  channel := target.channel

/-- A row of `group_member_seq`. -/
structure MemberSeqRow where
  sessionEpoch : Nat
  nextSeq : Nat
  deriving DecidableEq, Repr

/-- The largest number a column counts to: past it SQLite adds in reals, and
the column reads as this. -/
def kMaxSeq : Nat := 2 ^ 63 - 1

def bumpedSeq (seq : Nat) : Nat := min (seq + 1) kMaxSeq

/-- The session rows with their `next_outgoing_seq`, and the members'. -/
structure SenderNumbers where
  sessions : PeerSessions := .empty
  nextOutgoingSeq : PeerSessionKey → Nat := fun _ => 1
  groupMemberSeq : String → String → Option MemberSeqRow := fun _ _ => none

namespace SenderNumbers

variable (numbers : SenderNumbers)

/-! ## The thread store -/

/-- `UpsertChatTarget`: a row that is there keeps its epoch and count. -/
def upsertChatTarget (target : DirectChatTarget) : SenderNumbers :=
  match numbers.sessions.load target.key with
  | some _ => numbers
  | none =>
    { numbers with
      sessions := numbers.sessions.save { key := target.key }
      nextOutgoingSeq := Function.update numbers.nextOutgoingSeq target.key 1 }

def allocateThreadSeq (target : DirectChatTarget) : SenderNumbers × Roe Nat :=
  match numbers.sessions.load target.key with
  | none => (numbers, .error "No chat target for thread")
  | some _ =>
    let seq := numbers.nextOutgoingSeq target.key
    ({ numbers with nextOutgoingSeq := Function.update numbers.nextOutgoingSeq target.key (bumpedSeq seq) }, .ok seq)

/-- `AdoptChatTargetEpoch`: whatever the epoch was, the count starts over. -/
def adoptChatTargetEpoch (target : DirectChatTarget) (newSessionEpoch : Nat) : SenderNumbers :=
  match numbers.sessions.load target.key with
  | none => numbers
  | some _ =>
    { numbers with
      sessions := numbers.sessions.adoptChatTargetEpoch target.key newSessionEpoch
      nextOutgoingSeq := Function.update numbers.nextOutgoingSeq target.key 1 }

/-- The target's part of `AppendMessageWithPassiveEpochAdopt`. -/
def passiveEpochAdopt (target : DirectChatTarget) (newSessionEpoch : Nat) : SenderNumbers :=
  numbers.adoptChatTargetEpoch target newSessionEpoch

def bumpLocalChatTargetEpoch (target : DirectChatTarget) : SenderNumbers × Roe Nat :=
  match numbers.sessions.chatTargetSessionEpoch target.key with
  | .error text => (numbers, .error text)
  | .ok oldEpoch =>
    let newEpoch := u32 (oldEpoch + 1)
    (numbers.adoptChatTargetEpoch target newEpoch, .ok newEpoch)

/-! ## The session store -/

/-- The count a save leaves: a device session in another epoch starts over,
an account's goes on. -/
def savedSeq (record : PeerSessionRecord) : Nat :=
  match numbers.sessions.load record.key with
  | none => 1
  | some row =>
    if record.key.peerDevice ≠ "" ∧ record.sessionEpoch ≠ row.sessionEpoch then 1
    else numbers.nextOutgoingSeq record.key

/-- `Save`, to either table. -/
def save (record : PeerSessionRecord) : SenderNumbers :=
  { numbers with
    sessions := numbers.sessions.save record
    nextOutgoingSeq := Function.update numbers.nextOutgoingSeq record.key (numbers.savedSeq record) }

def allocateDeviceSeq (key : PeerSessionKey) : SenderNumbers × Roe Nat :=
  if key.peerDevice = "" then
    (numbers, .error "AllocateSenderSeq: a device-pair session only (the account's numbering is the thread's)")
  else
    match numbers.sessions.load key with
    | none => (numbers, .error "No device session to number in")
    | some _ =>
      let seq := numbers.nextOutgoingSeq key
      ({ numbers with nextOutgoingSeq := Function.update numbers.nextOutgoingSeq key (bumpedSeq seq) }, .ok seq)

/-! ## The group store -/

/-- A device pair counts on its own row. -/
def memberCounter (memberIdentity memberDevice : String) : String :=
  if memberDevice = "" then memberIdentity else memberIdentity ++ "/" ++ memberDevice

/-- The number a member's row gives in a pair epoch: a newer epoch than the
row's starts at 1, any other goes on. -/
def memberSeq (groupId counter : String) (pairEpoch : Nat) : Nat :=
  match numbers.groupMemberSeq groupId counter with
  | none => 1
  | some row => if pairEpoch > row.sessionEpoch then 1 else row.nextSeq

/-- The epoch the row has then: the later of the two. -/
def memberEpoch (groupId counter : String) (pairEpoch : Nat) : Nat :=
  match numbers.groupMemberSeq groupId counter with
  | none => pairEpoch
  | some row => max row.sessionEpoch pairEpoch

def allocateMemberSeq (groupId memberIdentity : String) (pairEpoch : Nat) (memberDevice : String) :
    SenderNumbers × Roe Nat :=
  let counter := memberCounter memberIdentity memberDevice
  let seq := numbers.memberSeq groupId counter pairEpoch
  let row : MemberSeqRow := ⟨numbers.memberEpoch groupId counter pairEpoch, bumpedSeq seq⟩
  let rows := Function.update (numbers.groupMemberSeq groupId) counter (some row)
  ({ numbers with groupMemberSeq := Function.update numbers.groupMemberSeq groupId rows }, .ok seq)

/-! ## The coordinator -/

variable {Text : Type} (C : BundleText Text)

/-- `ImportPskBundle`, over the numbered rows. -/
def importPskBundle (key : PeerSessionKey) (bundle : PskBundleV1) : Roe SenderNumbers := do
  let _ ← numbers.sessions.importPskBundle C key bundle
  return numbers.save (importedRow key bundle (numbers.sessions.load key))

/-- `ApplyBundleToThread`, over the numbered rows. -/
def applyBundleToThread (target : DirectChatTarget) (bundle : PskBundleV1) : Roe SenderNumbers := do
  let currentEpoch ← numbers.sessions.chatTargetSessionEpoch target.key
  let imported ← numbers.importPskBundle C target.key bundle
  if bundle.activeEpoch ≠ currentEpoch then return imported.adoptChatTargetEpoch target bundle.activeEpoch
  else return imported

/-- `RotatePskAndExportBundle`, over the numbered rows. -/
def rotatePsk (target : DirectChatTarget) (generated : MasterPsk) (retiredAtMs : Int64) : Roe SenderNumbers :=
  match numbers.sessions.load target.key with
  | none => .error "No PSK to rotate"
  | some record =>
    match record.masterPskB64 with
    | none => .error "No PSK to rotate"
    | some masterPskB64 =>
      let rotated := PskSessionCoordinator.rotatedRow C record masterPskB64 generated retiredAtMs
      .ok ((numbers.save rotated).adoptChatTargetEpoch target rotated.sessionEpoch)

end SenderNumbers

/-! ## Which numbers a sender gives twice -/

open Lib

/-- An account chat or a device pair by its session, or a member of a group. -/
inductive SenderCounter where
  | session (key : PeerSessionKey)
  | member (groupId counter : String)
  deriving DecidableEq, Repr

inductive NumberOp (Text : Type) where
  | upsertChatTarget (target : DirectChatTarget)
  | adoptChatTargetEpoch (target : DirectChatTarget) (newSessionEpoch : Nat)
  | passiveEpochAdopt (target : DirectChatTarget) (newSessionEpoch : Nat)
  | bumpLocalChatTargetEpoch (target : DirectChatTarget)
  | save (record : PeerSessionRecord)
  | applyBundleToThread (target : DirectChatTarget) (bundle : PskBundleV1)
  | rotatePsk (target : DirectChatTarget) (generated : MasterPsk) (retiredAtMs : Int64)
  | allocateThreadSeq (target : DirectChatTarget)
  | allocateDeviceSeq (key : PeerSessionKey)
  | allocateMemberSeq (groupId memberIdentity : String) (pairEpoch : Nat) (memberDevice : String)

namespace SenderNumbers

variable {Text : Type} (C : BundleText Text) (numbers : SenderNumbers)

/-- The rows after a call: as they were, where it failed before it saved. -/
def step : NumberOp Text → SenderNumbers
  | .upsertChatTarget target => numbers.upsertChatTarget target
  | .adoptChatTargetEpoch target newSessionEpoch => numbers.adoptChatTargetEpoch target newSessionEpoch
  | .passiveEpochAdopt target newSessionEpoch => numbers.passiveEpochAdopt target newSessionEpoch
  | .bumpLocalChatTargetEpoch target => (numbers.bumpLocalChatTargetEpoch target).1
  | .save record => numbers.save record
  | .applyBundleToThread target bundle => (numbers.applyBundleToThread C target bundle).toOption.getD numbers
  | .rotatePsk target generated retiredAtMs => (numbers.rotatePsk C target generated retiredAtMs).toOption.getD numbers
  | .allocateThreadSeq target => (numbers.allocateThreadSeq target).1
  | .allocateDeviceSeq key => (numbers.allocateDeviceSeq key).1
  | .allocateMemberSeq groupId memberIdentity pairEpoch memberDevice =>
    (numbers.allocateMemberSeq groupId memberIdentity pairEpoch memberDevice).1

/-- A number a call returns, in the epoch the row then has. -/
def returnedIn (key : PeerSessionKey) (result : Roe Nat) : Option (SenderCounter × Nat × Nat) :=
  match result, numbers.sessions.chatTargetSessionEpoch key with
  | .ok seq, .ok epoch => some (.session key, epoch, seq)
  | _, _ => none

/-- The number a call returns, with its counter and epoch. -/
def returned : NumberOp Text → Option (SenderCounter × Nat × Nat)
  | .allocateThreadSeq target => numbers.returnedIn target.key (numbers.allocateThreadSeq target).2
  | .allocateDeviceSeq key => numbers.returnedIn key (numbers.allocateDeviceSeq key).2
  | .allocateMemberSeq groupId memberIdentity pairEpoch memberDevice =>
    match (numbers.allocateMemberSeq groupId memberIdentity pairEpoch memberDevice).2 with
    | .ok seq => some (.member groupId (memberCounter memberIdentity memberDevice), pairEpoch, seq)
    | .error _ => none
  | _ => none

/-- A counter's row: its epoch and the number it gives next. -/
def row : SenderCounter → Option (Nat × Nat)
  | .session key => (numbers.sessions.load key).map fun record => (record.sessionEpoch, numbers.nextOutgoingSeq key)
  | .member groupId counter => (numbers.groupMemberSeq groupId counter).map fun row => (row.sessionEpoch, row.nextSeq)

/-- Where an operation has a counter go on: the epoch and the first number. -/
def starts : NumberOp Text → Option (SenderCounter × Nat × Nat)
  | .upsertChatTarget target =>
    match numbers.row (.session target.key) with
    | some _ => none
    | none => some (.session target.key, 1, 1)
  | .adoptChatTargetEpoch target newSessionEpoch | .passiveEpochAdopt target newSessionEpoch =>
    (numbers.row (.session target.key)).map fun _ => (.session target.key, newSessionEpoch, 1)
  | .bumpLocalChatTargetEpoch target =>
    (numbers.row (.session target.key)).map fun row => (.session target.key, u32 (row.1 + 1), 1)
  | .save record => some (.session record.key, record.sessionEpoch, numbers.savedSeq record)
  | .applyBundleToThread target bundle =>
    match numbers.applyBundleToThread C target bundle with
    | .error _ => none
    | .ok _ => (numbers.row (.session target.key)).map fun row =>
      (.session target.key, bundle.activeEpoch, if bundle.activeEpoch ≠ row.1 then 1 else row.2)
  | .rotatePsk target generated retiredAtMs =>
    match numbers.rotatePsk C target generated retiredAtMs with
    | .error _ => none
    | .ok _ => (numbers.row (.session target.key)).map fun row => (.session target.key, u32 (row.1 + 1), 1)
  | .allocateThreadSeq target =>
    (numbers.row (.session target.key)).map fun row => (.session target.key, row.1, row.2)
  | .allocateDeviceSeq key =>
    if key.peerDevice = "" then none
    else (numbers.row (.session key)).map fun row => (.session key, row.1, row.2)
  | .allocateMemberSeq groupId memberIdentity pairEpoch memberDevice =>
    let counter := memberCounter memberIdentity memberDevice
    some (.member groupId counter, pairEpoch, numbers.memberSeq groupId counter pairEpoch)

variable {C} {numbers} {key : PeerSessionKey} {target : DirectChatTarget} {record : PeerSessionRecord}
  {counter other : SenderCounter} {epoch next : Nat}

/-! ## What one call does -/

/-- One counter moves; the others stay. -/
structure Moves (counter : SenderCounter) (epoch next : Nat) (before after : SenderNumbers) : Prop where
  row : after.row counter = some (epoch, next)
  others : ∀ other, other ≠ counter → after.row other = before.row other

variable (numbers record) in
theorem row_save : Moves (.session record.key) record.sessionEpoch (numbers.savedSeq record) numbers
    (numbers.save record) := by
  constructor
  · rw [row, save]
    dsimp only
    rw [PeerSessions.load_save_self rfl, Option.map_some, Function.update_self]
  · intro other hne
    cases other with
    | session key =>
      have hkey : key ≠ record.key := fun h => hne (congrArg SenderCounter.session h)
      rw [row, row, save]
      dsimp only
      rw [PeerSessions.load_save_ne hkey, Function.update_of_ne hkey]
    | member groupId counter => rfl

theorem load_adoptEpoch {store : PeerSessions} (hload : store.load key = some record) :
    (store.adoptChatTargetEpoch key epoch).load key = some { record with sessionEpoch := epoch } := by
  have hkey := PeerSessions.key_of_load hload
  rw [PeerSessions.adoptChatTargetEpoch, hload]
  exact PeerSessions.load_save_self hkey

theorem load_adoptEpoch_ne {store : PeerSessions} {key' : PeerSessionKey} (hne : key' ≠ key) :
    (store.adoptChatTargetEpoch key epoch).load key' = store.load key' := by
  rw [PeerSessions.adoptChatTargetEpoch]
  cases hload : store.load key with
  | none => rfl
  | some record =>
    apply PeerSessions.load_save_ne
    rw [PeerSessions.key_of_load hload]
    exact hne

theorem row_adopt (hload : numbers.sessions.load target.key = some record) :
    Moves (.session target.key) epoch 1 numbers (numbers.adoptChatTargetEpoch target epoch) := by
  rw [adoptChatTargetEpoch, hload]
  constructor
  · rw [row]
    dsimp only
    rw [load_adoptEpoch hload, Option.map_some, Function.update_self]
  · intro other hne
    cases other with
    | session key =>
      have hkey : key ≠ target.key := fun h => hne (congrArg SenderCounter.session h)
      rw [row, row]
      dsimp only
      rw [load_adoptEpoch_ne hkey, Function.update_of_ne hkey]
    | member groupId counter => rfl

theorem Moves.trans {middle after : SenderNumbers} {epoch' next' : Nat} (h : Moves counter epoch next numbers middle)
    (h' : Moves counter epoch' next' middle after) : Moves counter epoch' next' numbers after := by
  constructor
  · exact h'.row
  · intro other hne
    rw [h'.others other hne, h.others other hne]

theorem row_bumped (hload : numbers.sessions.load key = some record) :
    Moves (.session key) record.sessionEpoch next numbers
      { numbers with nextOutgoingSeq := Function.update numbers.nextOutgoingSeq key next } := by
  constructor
  · rw [row]
    dsimp only
    rw [hload, Option.map_some, Function.update_self]
  · intro other hne
    cases other with
    | session key' =>
      have hkey : key' ≠ key := fun h => hne (congrArg SenderCounter.session h)
      rw [row, row]
      dsimp only
      rw [Function.update_of_ne hkey]
    | member groupId counter => rfl

variable (numbers) in
theorem row_member (groupId memberIdentity memberDevice : String) (pairEpoch : Nat) :
    Moves (.member groupId (memberCounter memberIdentity memberDevice))
      (numbers.memberEpoch groupId (memberCounter memberIdentity memberDevice) pairEpoch)
      (bumpedSeq (numbers.memberSeq groupId (memberCounter memberIdentity memberDevice) pairEpoch)) numbers
      (numbers.allocateMemberSeq groupId memberIdentity pairEpoch memberDevice).1 := by
  constructor
  · rw [row, allocateMemberSeq]
    simp
  · intro other hne
    cases other with
    | session key => rfl
    | member groupId' counter' =>
      rw [row, row, allocateMemberSeq]
      dsimp only
      by_cases hgroup : groupId' = groupId
      · subst hgroup
        have hcounter : counter' ≠ memberCounter memberIdentity memberDevice := by
          rintro rfl
          exact hne rfl
        rw [Function.update_self, Function.update_of_ne hcounter]
      · rw [Function.update_of_ne hgroup]

theorem row_session (hload : numbers.sessions.load key = some record) :
    numbers.row (.session key) = some (record.sessionEpoch, numbers.nextOutgoingSeq key) := by
  rw [row, hload, Option.map_some]

theorem row_session_none (hload : numbers.sessions.load key = none) : numbers.row (.session key) = none := by
  rw [row, hload, Option.map_none]

variable (C) in
/-- All an operation can do: nothing, one move, or one number handed out. A
row that is not left in the number's epoch was ahead of it. -/
inductive Effect (numbers : SenderNumbers) (op : NumberOp Text) (after : SenderNumbers) : Prop
  | same (hrow : ∀ counter, after.row counter = numbers.row counter) (hreturned : numbers.returned op = none)
      (hstarts : numbers.starts C op = none)
  | moves {counter : SenderCounter} {epoch next : Nat} (hmoves : Moves counter epoch next numbers after)
      (hreturned : numbers.returned op = none) (hstarts : numbers.starts C op = some (counter, epoch, next))
  | hands {counter : SenderCounter} {epoch next rowEpoch : Nat}
      (hmoves : Moves counter rowEpoch (bumpedSeq next) numbers after)
      (hepoch : rowEpoch = epoch ∨ numbers.row counter = some (rowEpoch, next))
      (hreturned : numbers.returned op = some (counter, epoch, next))
      (hstarts : numbers.starts C op = some (counter, epoch, next))

theorem chatTargetSessionEpoch_some (hload : numbers.sessions.load key = some record) :
    numbers.sessions.chatTargetSessionEpoch key = .ok record.sessionEpoch := by
  rw [PeerSessions.chatTargetSessionEpoch, hload]

theorem effect_adopt (op : NumberOp Text) (hreturned : numbers.returned op = none) (hstarts : numbers.starts C op =
      (numbers.row (.session target.key)).map fun _ => (.session target.key, epoch, 1)) :
    Effect C numbers op (numbers.adoptChatTargetEpoch target epoch) := by
  cases hload : numbers.sessions.load target.key with
  | none =>
    rw [row_session_none hload] at hstarts
    apply Effect.same _ hreturned hstarts
    intro counter
    rw [adoptChatTargetEpoch, hload]
  | some record =>
    rw [row_session hload] at hstarts
    exact .moves (row_adopt hload) hreturned hstarts

/-- A bundle that is taken moves the chat to its epoch, from 1 where that is
another. -/
theorem applyBundle_moves {bundle : PskBundleV1} {after : SenderNumbers}
    (h : numbers.applyBundleToThread C target bundle = .ok after) :
    ∃ record, numbers.sessions.load target.key = some record ∧ Moves (.session target.key) bundle.activeEpoch
        (if bundle.activeEpoch ≠ record.sessionEpoch then 1 else numbers.nextOutgoingSeq target.key) numbers after := by
  obtain ⟨currentEpoch, hcurrent, h⟩ := roe_bind_ok.mp h
  cases hload : numbers.sessions.load target.key with
  | none =>
    rw [PeerSessions.chatTargetSessionEpoch, hload] at hcurrent
    cases hcurrent
  | some record =>
    rw [chatTargetSessionEpoch_some hload] at hcurrent
    obtain rfl := Except.ok.inj hcurrent
    obtain ⟨imported, himported, h⟩ := roe_bind_ok.mp h
    obtain ⟨_, -, himported⟩ := roe_bind_ok.mp himported
    obtain rfl := Except.ok.inj himported
    rw [hload] at h
    -- the row as saved: in the bundle's epoch, its count kept
    have hkey : (importedRow target.key bundle (some record)).key = target.key := PskSessionCoordinator.importedRow_key _
    have hsaved := row_save numbers (importedRow target.key bundle (some record))
    have hdevice : target.key.peerDevice = "" := rfl
    rw [PskSessionCoordinator.importedRow_epoch, savedSeq, hkey, hload] at hsaved
    dsimp only at hsaved
    rw [if_neg fun hboth => hboth.1 hdevice] at hsaved
    refine ⟨record, rfl, ?_⟩
    by_cases hepoch : bundle.activeEpoch = record.sessionEpoch
    · rw [if_neg (not_not.mpr hepoch)] at h ⊢
      obtain rfl := Except.ok.inj h
      exact hsaved
    · rw [if_pos hepoch] at h ⊢
      obtain rfl := Except.ok.inj h
      apply hsaved.trans
      apply row_adopt
      exact PeerSessions.load_save_self hkey

theorem rotatePsk_moves {generated : MasterPsk} {retiredAtMs : Int64} {after : SenderNumbers}
    (h : numbers.rotatePsk C target generated retiredAtMs = .ok after) :
    ∃ record, numbers.sessions.load target.key = some record ∧
      Moves (.session target.key) (u32 (record.sessionEpoch + 1)) 1 numbers after := by
  rw [rotatePsk] at h
  cases hload : numbers.sessions.load target.key with
  | none =>
    rw [hload] at h
    cases h
  | some record =>
    rw [hload] at h
    dsimp only at h
    refine ⟨record, rfl, ?_⟩
    split at h
    · cases h
    · obtain rfl := Except.ok.inj h
      have hkey := PeerSessions.key_of_load hload
      have hsaved := row_save numbers
        (PskSessionCoordinator.rotatedRow C record ‹String› generated retiredAtMs)
      have hrotated : (PskSessionCoordinator.rotatedRow C record ‹String› generated retiredAtMs).key = target.key := hkey
      rw [hrotated] at hsaved
      apply hsaved.trans
      apply row_adopt
      exact PeerSessions.load_save_self hrotated

theorem returnedIn_some {result : Roe Nat} (hload : numbers.sessions.load key = some record) (hresult : result = .ok next) :
    numbers.returnedIn key result = some (.session key, record.sessionEpoch, next) := by
  unfold returnedIn
  rw [hresult, chatTargetSessionEpoch_some hload]

theorem returnedIn_error {result : Roe Nat} {text : String} (hresult : result = .error text) :
    numbers.returnedIn key result = none := by
  unfold returnedIn
  rw [hresult]

variable (C numbers) in
theorem effect_step (op : NumberOp Text) : Effect C numbers op (numbers.step C op) := by
  cases op with
  | upsertChatTarget target =>
    cases hload : numbers.sessions.load target.key with
    | none =>
      have hstarts : numbers.starts C (.upsertChatTarget target) = some (.session target.key, 1, 1) := by
        rw [starts, row_session_none hload]
      apply Effect.moves _ rfl hstarts
      · have hsaved := row_save numbers { key := target.key }
        rw [savedSeq] at hsaved
        dsimp only at hsaved
        rw [hload] at hsaved
        rw [step, upsertChatTarget, hload]
        rw [save, savedSeq] at hsaved
        dsimp only at hsaved
        rw [hload] at hsaved
        exact hsaved
    | some record =>
      apply Effect.same _ rfl
      · rw [starts, row_session hload]
      · intro counter
        rw [step, upsertChatTarget, hload]
  | adoptChatTargetEpoch target newSessionEpoch | passiveEpochAdopt target newSessionEpoch =>
    exact effect_adopt _ rfl rfl
  | bumpLocalChatTargetEpoch target =>
    rw [step, bumpLocalChatTargetEpoch]
    cases hload : numbers.sessions.load target.key with
    | none =>
      apply Effect.same _ rfl
      · rw [starts, row_session_none hload, Option.map_none]
      · intro counter
        rw [PeerSessions.chatTargetSessionEpoch, hload]
    | some record =>
      rw [chatTargetSessionEpoch_some hload]
      apply effect_adopt _ rfl
      rw [starts, row_session hload]
      rfl
  | save record => exact .moves (row_save numbers record) rfl rfl
  | applyBundleToThread target bundle =>
    rw [step]
    cases happly : numbers.applyBundleToThread C target bundle with
    | error text =>
      apply Effect.same (fun _ => rfl) rfl
      rw [starts, happly]
    | ok after =>
      obtain ⟨record, hload, hmoves⟩ := applyBundle_moves happly
      apply Effect.moves hmoves rfl
      rw [starts, happly]
      dsimp only
      rw [row_session hload]
      rfl
  | rotatePsk target generated retiredAtMs =>
    rw [step]
    cases hrotate : numbers.rotatePsk C target generated retiredAtMs with
    | error text =>
      apply Effect.same (fun _ => rfl) rfl
      rw [starts, hrotate]
    | ok after =>
      obtain ⟨record, hload, hmoves⟩ := rotatePsk_moves hrotate
      apply Effect.moves hmoves rfl
      rw [starts, hrotate]
      dsimp only
      rw [row_session hload]
      rfl
  | allocateThreadSeq target =>
    rw [step]
    cases hload : numbers.sessions.load target.key with
    | none =>
      rw [allocateThreadSeq, hload]
      apply Effect.same (fun _ => rfl)
      · apply returnedIn_error
        rw [allocateThreadSeq, hload]
      · rw [starts, row_session_none hload, Option.map_none]
    | some record =>
      rw [allocateThreadSeq, hload]
      apply Effect.hands (row_bumped hload) (.inl rfl)
      · apply returnedIn_some hload
        rw [allocateThreadSeq, hload]
      · rw [starts, row_session hload, Option.map_some]
  | allocateDeviceSeq key =>
    rw [step]
    by_cases hdevice : key.peerDevice = ""
    · rw [allocateDeviceSeq, if_pos hdevice]
      apply Effect.same (fun _ => rfl)
      · apply returnedIn_error
        rw [allocateDeviceSeq, if_pos hdevice]
      · rw [starts, if_pos hdevice]
    · cases hload : numbers.sessions.load key with
      | none =>
        rw [allocateDeviceSeq, if_neg hdevice, hload]
        apply Effect.same (fun _ => rfl)
        · apply returnedIn_error
          rw [allocateDeviceSeq, if_neg hdevice, hload]
        · rw [starts, if_neg hdevice, row_session_none hload, Option.map_none]
      | some record =>
        rw [allocateDeviceSeq, if_neg hdevice, hload]
        apply Effect.hands (row_bumped hload) (.inl rfl)
        · apply returnedIn_some hload
          rw [allocateDeviceSeq, if_neg hdevice, hload]
        · rw [starts, if_neg hdevice, row_session hload, Option.map_some]
  | allocateMemberSeq groupId memberIdentity pairEpoch memberDevice =>
    apply Effect.hands (row_member numbers groupId memberIdentity memberDevice pairEpoch) _ rfl rfl
    rw [memberEpoch, row, memberSeq]
    cases hrow : numbers.groupMemberSeq groupId (memberCounter memberIdentity memberDevice) with
    | none => exact .inl rfl
    | some row =>
      dsimp only
      by_cases hnewer : pairEpoch > row.sessionEpoch
      · exact .inl (Nat.max_eq_right (Nat.le_of_lt hnewer))
      · right
        rw [if_neg hnewer, Nat.max_eq_left (Nat.le_of_not_lt hnewer), Option.map_some]

end SenderNumbers

/-! ## Histories -/

/-- The rows, and the numbers handed out of each counter with their epochs. -/
structure SenderHistory where
  numbers : SenderNumbers := {}
  handed : SenderCounter → List (Nat × Nat) := fun _ => []

namespace SenderHistory

open SenderNumbers

variable {Text : Type} (C : BundleText Text) {history : SenderHistory} {op : NumberOp Text} {counter : SenderCounter}
  {epoch next : Nat}

def step (history : SenderHistory) (op : NumberOp Text) : SenderHistory where
  numbers := history.numbers.step C op
  handed :=
    match history.numbers.returned op with
    | none => history.handed
    | some (counter, pair) => Function.update history.handed counter (pair :: history.handed counter)

/-- The operation has its counter go on past the numbers handed out in the
epoch, and a number that is handed out is not the column's last. -/
def Fresh (history : SenderHistory) (op : NumberOp Text) : Prop :=
  (∀ counter epoch next, history.numbers.starts C op = some (counter, epoch, next) →
    Ahead (history.handed counter) epoch next) ∧
  ∀ counter epoch next, history.numbers.returned op = some (counter, epoch, next) → next < kMaxSeq

structure Sound (history : SenderHistory) : Prop where
  distinct : ∀ counter, (history.handed counter).Nodup
  ahead : ∀ counter epoch next, history.numbers.row counter = some (epoch, next) →
    Ahead (history.handed counter) epoch next
  below : ∀ counter epoch number, (epoch, number) ∈ history.handed counter → number < kMaxSeq

theorem sound_start : Sound {} where
  distinct _ := List.nodup_nil
  ahead _ _ _ _ := .nil
  below _ _ _ h := by cases h

variable {C}

theorem handed_step_none (h : history.numbers.returned op = none) : (history.step C op).handed = history.handed := by
  rw [step, h]

theorem handed_step_some (h : history.numbers.returned op = some (counter, epoch, next)) :
    (history.step C op).handed =
      Function.update history.handed counter ((epoch, next) :: history.handed counter) := by
  rw [step, h]

theorem Sound.step (h : Sound history) (hfresh : Fresh C history op) : Sound (history.step C op) := by
  cases effect_step C history.numbers op with
  | same hrow hreturned hstarts =>
    have hhanded := handed_step_none (C := C) hreturned
    constructor
    · rw [hhanded]
      exact h.distinct
    · intro counter epoch next hafter
      rw [hhanded]
      exact h.ahead counter epoch next ((hrow counter).symm.trans hafter)
    · rw [hhanded]
      exact h.below
  | @moves counter epoch next hmoves hreturned hstarts =>
    have hhanded := handed_step_none (C := C) hreturned
    constructor
    · rw [hhanded]
      exact h.distinct
    · intro counter' epoch' next' hafter
      rw [hhanded]
      by_cases hcounter : counter' = counter
      · subst hcounter
        obtain ⟨rfl, rfl⟩ := Prod.mk.inj (Option.mem_unique hmoves.row hafter)
        exact hfresh.1 _ _ _ hstarts
      · exact h.ahead _ _ _ ((hmoves.others _ hcounter).symm.trans hafter)
    · rw [hhanded]
      exact h.below
  | @hands counter epoch next rowEpoch hmoves hepoch hreturned hstarts =>
    have hhanded := handed_step_some (C := C) hreturned
    have hahead := hfresh.1 _ _ _ hstarts
    have hbelow := hfresh.2 _ _ _ hreturned
    constructor
    · intro counter'
      rw [hhanded]
      by_cases hcounter : counter' = counter
      · subst hcounter
        rw [Function.update_self]
        exact hahead.nodup (h.distinct _)
      · rw [Function.update_of_ne hcounter]
        exact h.distinct _
    · intro counter' epoch' next' hafter
      rw [hhanded]
      by_cases hcounter : counter' = counter
      · subst hcounter
        rw [Function.update_self]
        obtain ⟨rfl, rfl⟩ := Prod.mk.inj (Option.mem_unique hmoves.row hafter)
        have hbumped : bumpedSeq next = next + 1 := Nat.min_eq_left hbelow
        rw [hbumped]
        rcases hepoch with rfl | hrow
        · exact hahead.hand
        · exact (h.ahead _ _ _ hrow).hand
      · rw [Function.update_of_ne hcounter]
        exact h.ahead _ _ _ ((hmoves.others _ hcounter).symm.trans hafter)
    · intro counter' epoch' number hmem
      rw [hhanded] at hmem
      by_cases hcounter : counter' = counter
      · subst hcounter
        rw [Function.update_self] at hmem
        rcases List.mem_cons.mp hmem with heq | hmem
        · obtain ⟨-, rfl⟩ := Prod.mk.inj heq
          exact hbelow
        · exact h.below _ _ _ hmem
      · rw [Function.update_of_ne hcounter] at hmem
        exact h.below _ _ _ hmem

/-! ## Going on -/

/-- The call that hands out a counter's next number, a member's in the pair
epoch. -/
def allocationIn (counter : SenderCounter) (epoch : Nat) : NumberOp Text :=
  match counter with
  | .session key =>
    if key.peerDevice = "" then
      .allocateThreadSeq ⟨key.peerIdentityKind, key.peerIdentityValue, key.channel⟩
    else .allocateDeviceSeq key
  | .member groupId counter => .allocateMemberSeq groupId counter epoch ""

/-- The counter's calls hand out the epoch's numbers from `next`. -/
def Gives (numbers : SenderNumbers) : SenderCounter → Nat → Nat → Prop
  | .session key, epoch, next => numbers.row (.session key) = some (epoch, next)
  | .member groupId counter, epoch, next => numbers.memberSeq groupId counter epoch = next

variable {key : PeerSessionKey} {numbers : SenderNumbers}

theorem row_session_some (h : numbers.row (.session key) = some (epoch, next)) :
    ∃ record, numbers.sessions.load key = some record ∧ record.sessionEpoch = epoch ∧
      numbers.nextOutgoingSeq key = next := by
  obtain ⟨record, hload, hpair⟩ := Option.map_eq_some_iff.mp h
  obtain ⟨hepoch, hnext⟩ := Prod.mk.inj hpair
  exact ⟨record, hload, hepoch, hnext⟩

theorem gives_of_row (h : numbers.row counter = some (epoch, next)) : Gives numbers counter epoch next := by
  cases counter with
  | session key => exact h
  | member groupId counter =>
    obtain ⟨row, hrow, hpair⟩ := Option.map_eq_some_iff.mp h
    obtain ⟨rfl, rfl⟩ := Prod.mk.inj hpair
    rw [Gives, memberSeq, hrow]
    exact if_neg (Nat.lt_irrefl _)

variable (C epoch) in
/-- A session's call hands out its row's number. -/
theorem allocation_session {record : PeerSessionRecord} (hload : numbers.sessions.load key = some record) :
    numbers.returned (allocationIn (.session key) epoch : NumberOp Text) =
        some (.session key, record.sessionEpoch, numbers.nextOutgoingSeq key) ∧
      (numbers.step C (allocationIn (.session key) epoch)).row (.session key) =
        some (record.sessionEpoch, bumpedSeq (numbers.nextOutgoingSeq key)) := by
  rw [allocationIn]
  by_cases hdevice : key.peerDevice = ""
  · have hkey : DirectChatTarget.key ⟨key.peerIdentityKind, key.peerIdentityValue, key.channel⟩ = key := by
      cases key
      cases hdevice
      rfl
    rw [if_pos hdevice, returned, SenderNumbers.step, allocateThreadSeq, hkey, hload]
    exact ⟨returnedIn_some hload rfl, (row_bumped hload).row⟩
  · rw [if_neg hdevice, returned, SenderNumbers.step, allocateDeviceSeq, if_neg hdevice, hload]
    exact ⟨returnedIn_some hload rfl, (row_bumped hload).row⟩

variable (C) in
/-- One call: the number is handed out, and the next one comes after it. -/
theorem Gives.step (h : Gives numbers counter epoch next) :
    numbers.returned (allocationIn counter epoch : NumberOp Text) = some (counter, epoch, next) ∧
      Gives (numbers.step C (allocationIn counter epoch)) counter epoch (bumpedSeq next) := by
  cases counter with
  | session key =>
    obtain ⟨record, hload, rfl, rfl⟩ := row_session_some h
    obtain ⟨hreturned, hrow⟩ := allocation_session C record.sessionEpoch hload
    exact ⟨hreturned, gives_of_row hrow⟩
  | member groupId counter =>
    have hcounter : memberCounter counter "" = counter := if_pos rfl
    have hrow := (row_member numbers groupId counter "" epoch).row
    rw [hcounter] at hrow
    obtain ⟨row, hafter, hpair⟩ := Option.map_eq_some_iff.mp hrow
    obtain ⟨hepoch, hnext⟩ := Prod.mk.inj hpair
    have hseq : numbers.memberSeq groupId counter epoch = next := h
    constructor
    · rw [allocationIn, returned, allocateMemberSeq]
      dsimp only
      rw [hcounter, hseq]
    · rw [allocationIn, SenderNumbers.step, Gives, memberSeq, hafter]
      dsimp only
      have hle : epoch ≤ numbers.memberEpoch groupId counter epoch := by
        rw [memberEpoch]
        cases numbers.groupMemberSeq groupId counter with
        | none => exact Nat.le_refl _
        | some row => exact Nat.le_max_right _ _
      rw [if_neg (by omega), hnext, hseq]

theorem gives_of_returnedIn {result : Roe Nat} (hresult : ∀ seq, result = .ok seq → seq = numbers.nextOutgoingSeq key)
    (h : numbers.returnedIn key result = some (counter, epoch, next)) : Gives numbers counter epoch next := by
  cases result with
  | error text =>
    rw [returnedIn_error rfl] at h
    cases h
  | ok seq =>
    cases hload : numbers.sessions.load key with
    | none =>
      have herror : numbers.sessions.chatTargetSessionEpoch key = .error "No chat target for thread" := by
        rw [PeerSessions.chatTargetSessionEpoch, hload]
      unfold returnedIn at h
      rw [herror] at h
      cases h
    | some record =>
      rw [returnedIn_some hload rfl] at h
      obtain ⟨rfl, hpair⟩ := Prod.mk.inj (Option.some.inj h)
      obtain ⟨rfl, rfl⟩ := Prod.mk.inj hpair
      rw [hresult seq rfl]
      exact row_session hload

theorem gives_of_returned (h : numbers.returned op = some (counter, epoch, next)) :
    Gives numbers counter epoch next := by
  cases op with
  | allocateThreadSeq target =>
    apply gives_of_returnedIn _ h
    intro seq hseq
    rw [allocateThreadSeq] at hseq
    split at hseq
    · cases hseq
    · exact (Except.ok.inj hseq).symm
  | allocateDeviceSeq key =>
    apply gives_of_returnedIn _ h
    intro seq hseq
    rw [allocateDeviceSeq] at hseq
    split_ifs at hseq
    split at hseq
    · cases hseq
    · exact (Except.ok.inj hseq).symm
  | allocateMemberSeq groupId memberIdentity pairEpoch memberDevice =>
    obtain ⟨rfl, hpair⟩ := Prod.mk.inj (Option.some.inj h)
    obtain ⟨rfl, rfl⟩ := Prod.mk.inj hpair
    rfl
  | upsertChatTarget target | adoptChatTargetEpoch target newSessionEpoch
  | passiveEpochAdopt target newSessionEpoch | bumpLocalChatTargetEpoch target | save record
  | applyBundleToThread target bundle | rotatePsk target generated retiredAtMs => cases h

variable (C) in
/-- The history with `count` more numbers of a counter handed out. -/
def allocate (history : SenderHistory) (counter : SenderCounter) (epoch count : Nat) : SenderHistory :=
  (List.replicate count (allocationIn counter epoch)).foldl (step C) history

theorem handed_allocate {count : Nat} (h : Gives history.numbers counter epoch next) (hlimit : next + count ≤ kMaxSeq) :
    (history.allocate C counter epoch count).handed counter = further epoch next count ++ history.handed counter := by
  induction count generalizing history next with
  | zero => rfl
  | succ count ih =>
    obtain ⟨hreturned, hgives⟩ := h.step C
    have hbumped : bumpedSeq next = next + 1 := Nat.min_eq_left (by omega)
    rw [hbumped] at hgives
    have hrest : ((history.step C (allocationIn counter epoch)).allocate C counter epoch count).handed counter = _ :=
      ih hgives (by omega)
    rw [allocate, List.replicate_succ, List.foldl_cons]
    refine hrest.trans ?_
    rw [handed_step_some hreturned, Function.update_self, further_succ, List.append_assoc, List.singleton_append]

variable (C) in
/-- Where the counter an operation moves goes on from: past a move, and
before a number that is handed out. -/
def settled (history : SenderHistory) (op : NumberOp Text) : SenderHistory :=
  if (history.numbers.returned op).isSome then history else history.step C op

theorem gives_settled (hstarts : history.numbers.starts C op = some (counter, epoch, next)) :
    Gives (history.settled C op).numbers counter epoch next ∧
      (history.settled C op).handed counter = history.handed counter := by
  rw [settled]
  cases effect_step C history.numbers op with
  | same hrow hreturned hstarts' =>
    rw [hstarts] at hstarts'
    cases hstarts'
  | moves hmoves hreturned hstarts' =>
    rw [hstarts] at hstarts'
    obtain ⟨rfl, hpair⟩ := Prod.mk.inj (Option.some.inj hstarts')
    obtain ⟨rfl, rfl⟩ := Prod.mk.inj hpair
    rw [hreturned, Option.isSome_none, if_neg Bool.false_ne_true, handed_step_none hreturned]
    exact ⟨gives_of_row hmoves.row, rfl⟩
  | hands hmoves hepoch hreturned hstarts' =>
    rw [hstarts] at hstarts'
    obtain ⟨rfl, hpair⟩ := Prod.mk.inj (Option.some.inj hstarts')
    obtain ⟨rfl, rfl⟩ := Prod.mk.inj hpair
    rw [hreturned, Option.isSome_some, if_pos rfl]
    exact ⟨gives_of_returned hreturned, rfl⟩

variable (C) in
/-- In every run whose operations each go on past the numbers handed out no
counter repeats a number, and there an operation goes past them exactly if
its counter repeats none after it, however many are handed out. -/
theorem numbers_once :
    ∀ ops, Admits (step C) (Fresh C) {} ops →
      (∀ after ∈ states (step C) {} ops, ∀ counter, (after.handed counter).Nodup) ∧
      ∀ op counter epoch next, (ops.foldl (step C) {}).numbers.starts C op = some (counter, epoch, next) →
        (Ahead ((ops.foldl (step C) {}).handed counter) epoch next ↔ ∀ count, next + count ≤ kMaxSeq →
          ((((ops.foldl (step C) {}).settled C op).allocate C counter epoch count).handed counter).Nodup) := by
  intro ops hops
  have hstep : ∀ history op, Sound history → Fresh C history op → Sound (history.step C op) :=
    fun _ _ hsound hfresh => hsound.step hfresh
  have hsound : ∀ after ∈ states (step C) {} ops, Sound after := hops.invariant hstep sound_start
  constructor
  · intro after hafter counter
    exact (hsound after hafter).distinct counter
  · intro op counter epoch next hstarts
    have hend := hsound _ foldl_mem_states
    obtain ⟨hgives, hhanded⟩ := gives_settled hstarts
    rw [ahead_iff_nodup (hend.distinct counter) fun number hmem => hend.below _ _ _ hmem]
    apply forall₂_congr
    intro count hlimit
    rw [handed_allocate hgives hlimit, hhanded]

/-! ## Samples -/

theorem fresh_of_ahead (hstarts : history.numbers.starts C op = some (counter, epoch, next))
    (hahead : Ahead (history.handed counter) epoch next) (hlimit : next < kMaxSeq) : Fresh C history op := by
  constructor
  · intro counter' epoch' next' h
    obtain ⟨rfl, hpair⟩ := Prod.mk.inj (Option.mem_unique hstarts h)
    obtain ⟨rfl, rfl⟩ := Prod.mk.inj hpair
    exact hahead
  · intro counter' epoch' next' h
    cases effect_step C history.numbers op with
    | same hrow hreturned hstarts' | moves hmoves hreturned hstarts' =>
      rw [hreturned] at h
      cases h
    | hands hmoves hepoch hreturned hstarts' =>
      rw [hreturned, ← hstarts', hstarts] at h
      obtain ⟨-, hpair⟩ := Prod.mk.inj (Option.some.inj h)
      obtain ⟨-, rfl⟩ := Prod.mk.inj hpair
      exact hlimit

def sampleTarget : DirectChatTarget := ⟨"account", "bob", .e2e⟩

def samplePair : PeerSessionKey := { peerIdentityKind := "account", peerIdentityValue := "bob", peerDevice := "phone" }

/-- A chat that numbers, adopts the next epoch and numbers there. -/
def sampleRising : List (NumberOp Lib.Json.Object) :=
  [.upsertChatTarget sampleTarget, .allocateThreadSeq sampleTarget, .adoptChatTargetEpoch sampleTarget 2,
    .allocateThreadSeq sampleTarget]

theorem sampleRising_fresh : Admits (step PskSessionCoordinator.sampleText) (Fresh PskSessionCoordinator.sampleText) {}
    sampleRising := by
  refine ⟨?_, ?_, ?_, ?_, trivial⟩
  · exact fresh_of_ahead rfl (by decide) (by decide)
  · exact fresh_of_ahead rfl (by decide) (by decide)
  · exact fresh_of_ahead rfl (by decide) (by decide)
  · exact fresh_of_ahead rfl (by decide) (by decide)

theorem numbers_once_rising :
    (sampleRising.foldl (step PskSessionCoordinator.sampleText) {}).handed (.session sampleTarget.key) =
      [(2, 1), (1, 1)] ∧
    ((sampleRising.foldl (step PskSessionCoordinator.sampleText) {}).handed (.session sampleTarget.key)).Nodup :=
  ⟨rfl, (numbers_once PskSessionCoordinator.sampleText sampleRising sampleRising_fresh).1 _ foldl_mem_states _⟩

/-- Each counter in an epoch it had left: a member asked for an older pair
epoch, a chat that adopts one back, a device session saved in one again. -/
def sampleFallingMember : List (NumberOp Lib.Json.Object) :=
  [.allocateMemberSeq "g" "bob" 1 "", .allocateMemberSeq "g" "bob" 1 "", .allocateMemberSeq "g" "bob" 2 "",
    .allocateMemberSeq "g" "bob" 1 ""]

def sampleFallingChat : List (NumberOp Lib.Json.Object) :=
  [.upsertChatTarget sampleTarget, .allocateThreadSeq sampleTarget, .adoptChatTargetEpoch sampleTarget 2,
    .adoptChatTargetEpoch sampleTarget 1, .allocateThreadSeq sampleTarget]

def sampleFallingDevice : List (NumberOp Lib.Json.Object) :=
  [.save { key := samplePair, sessionEpoch := 1 }, .allocateDeviceSeq samplePair,
    .save { key := samplePair, sessionEpoch := 2 }, .save { key := samplePair, sessionEpoch := 1 },
    .allocateDeviceSeq samplePair]

theorem numbers_twice :
    ¬ (((sampleFallingMember.foldl (step PskSessionCoordinator.sampleText) {}).handed (.member "g" "bob")).Nodup) ∧
    ¬ (((sampleFallingChat.foldl (step PskSessionCoordinator.sampleText) {}).handed
      (.session sampleTarget.key)).Nodup) ∧
    ¬ (((sampleFallingDevice.foldl (step PskSessionCoordinator.sampleText) {}).handed (.session samplePair)).Nodup) := by
  refine ⟨?_, ?_, ?_⟩
  · show ¬ ([(1, 2), (2, 1), (1, 2), (1, 1)] : List (Nat × Nat)).Nodup
    decide
  · show ¬ ([(1, 1), (1, 1)] : List (Nat × Nat)).Nodup
    decide
  · show ¬ ([(1, 1), (1, 1)] : List (Nat × Nat)).Nodup
    decide

end SenderHistory

namespace SenderNumbers

variable {Text : Type} {C : BundleText Text} {numbers : SenderNumbers} {target : DirectChatTarget}

/-! ## The coordinator's rows -/

end SenderNumbers

end Pbr
