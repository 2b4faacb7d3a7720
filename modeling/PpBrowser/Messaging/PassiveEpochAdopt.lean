import PpBrowser.Lib.Writing
import PpBrowser.Messaging.SqliteThreadStore

/-!
# PassiveEpochAdopt — a chat follows its peer to a new epoch

`AppendMessageWithPassiveEpochAdopt`: the chat's unsent messages of the old
epoch leave, the chat target, its cache and the sync state move to the new
one, and the message that showed the new epoch is stored, statement after
statement over two databases. Which statements are done, and what sealing the
message's content answers, are given.
-/

namespace Pbr

open Lib

/-- What the databases answer to the statements of one call. -/
structure AdoptAnswers where
  initialized : Roe Unit := .ok ()
  /-- `ListThreads`. -/
  listed : Roe Unit := .ok ()
  /-- `OpenThreadDb`. -/
  opened : Roe Unit := .ok ()
  selectPrepared : Bool := true
  /-- How many rows the select gives before it ends, if it ends early. -/
  selected : Option Nat := none
  outboxDeleted : String → Bool := fun _ => true
  deletePrepared : Bool := true
  deleteDone : Bool := true
  targetPrepared : Bool := true
  targetDone : Bool := true
  cachePrepared : Bool := true
  cacheDone : Bool := true
  syncPrepared : Bool := true
  syncDone : Bool := true
  orderPrepared : Bool := true
  /-- The order query gives its row. -/
  orderRead : Bool := true
  insertPrepared : Bool := true
  insertDone : Bool := true

/-- `EncryptMessageContent`, of a chat's message. -/
abbrev ContentCipher (C : Type) := String → StoreMessage C → Roe ByteVector

/-- An unsent message of the old epoch: what `CancelOldEpochPending` selects and deletes. -/
def StoreMessage.isOldPending {C : Type} (oldSessionEpoch : Nat) (message : StoreMessage C) : Bool :=
  message.relayVisible && message.sessionEpoch = some oldSessionEpoch &&
    (message.delivery = .pending || message.delivery = .failed)

namespace ThreadStore

variable {C : Type}

/-- `DirectTargetForThread`, but for the channel. -/
def directTargetForThread (thread : CatalogRow) : Roe (String × String) := do
  refuseIf (thread.kind ≠ .direct) "Not a direct thread"
  refuseIf (thread.peerIdentityKind = "" ∨ thread.peerIdentityValue = "") "Direct thread missing peer identity"
  return (thread.peerIdentityKind, thread.peerIdentityValue)

/-- `GetThread`, of a thread that is there. -/
def getThread (threadId : String) (s : ThreadStore C) : Roe CatalogRow :=
  match rowOf CatalogRow.id threadId s.threads with
  | none => .error "Thread not found"
  | some thread => .ok thread

def nextDisplayOrder (A : AdoptAnswers) (rows : List (MessageRow C)) : Roe Int :=
  if A.orderPrepared then .ok (if A.orderRead then (rows.map (·.message.displayOrder)).max?.getD 0 + 1 else 1)
  else .error "Failed to prepare display_order query"

section

variable (A : AdoptAnswers) (encryptMessageContent : ContentCipher C)

/-- The ids the select gives. -/
def selectOldPending (threadId : String) (oldSessionEpoch : Nat) (s : ThreadStore C) : List String :=
  let messageIds := ((s.messages threadId).filter (·.message.isOldPending oldSessionEpoch)).map MessageRow.id
  match A.selected with
  | none => messageIds
  | some n => messageIds.take n

def cancelOldEpochPending (threadId : String) (oldSessionEpoch : Nat) : Writing String (ThreadStore C) Unit := do
  Writing.reads fun _ => refuseIf (¬ A.selectPrepared) "Failed to prepare old-epoch pending select"
  let messageIds ← Writing.reads fun s => .ok (selectOldPending A threadId oldSessionEpoch s)
  -- a row of the outbox that cannot be deleted is passed over
  messageIds.forM fun messageId =>
    Writing.change fun s => if A.outboxDeleted messageId then s.removeOutboxRow messageId else s
  Writing.reads fun _ => refuseIf (¬ A.deletePrepared) "Failed to prepare old-epoch pending delete"
  Writing.writeIf A.deleteDone "Failed to delete old-epoch pending messages" fun s =>
    s.deleteMessages threadId (·.message.isOldPending oldSessionEpoch)

def adoptChatTargetEpoch (threadId : String) (newSessionEpoch : Nat) : Writing String (ThreadStore C) Unit := do
  Writing.reads fun _ => refuseIf (¬ A.targetPrepared) "Failed to prepare chat_targets epoch adopt"
  Writing.writeIf A.targetDone "Failed to adopt chat target epoch" (·.updateChatTarget threadId newSessionEpoch)
  Writing.reads fun _ => refuseIf (¬ A.cachePrepared) "Failed to prepare threads epoch cache update"
  Writing.writeIf A.cacheDone "Failed to update threads epoch cache" (·.updateThreadEpoch threadId newSessionEpoch)

/-- The row `UpsertPeerSyncState` writes. -/
def adoptedSyncRow (threadId : String) (target : String × String) (sessionEpoch : Nat) (state : PeerSyncState) :
    SyncStateRow :=
  { threadId, peerIdentityKind := target.1, owner := target.2, sessionEpoch, state }

def upsertPeerSyncState (threadId : String) (target : String × String) (sessionEpoch : Nat) (state : PeerSyncState) :
    Writing String (ThreadStore C) Unit := do
  Writing.reads fun _ => refuseIf (¬ A.syncPrepared) "Failed to prepare sync_state upsert"
  Writing.writeIf A.syncDone "Failed to upsert sync_state" (·.upsertSyncState (adoptedSyncRow threadId target sessionEpoch state))

/-- The message with its place in the chat. -/
def placedMessage (message : StoreMessage C) (rows : List (MessageRow C)) : Roe (StoreMessage C) :=
  if message.displayOrder ≤ 0 then do
    let next ← nextDisplayOrder A rows
    return { message with displayOrder := next }
  else .ok message

/-- The message's row; an id that is stored already fails the insert. -/
def insertAdopted (message : StoreMessage C) (contentEnc : ByteVector) : Writing String (ThreadStore C) Unit := do
  Writing.reads fun _ => refuseIf (¬ A.insertPrepared) "Failed to prepare passive-adopt append"
  Writing.reads fun s => refuseIf (¬ A.insertDone ∨ ∃ row ∈ s.messages message.threadId, row.id = message.id)
    "Failed to append message during passive adopt"
  Writing.change (·.insertMessage message.threadId { message, contentEnc })

/-- The message itself: its place, its content, its row. -/
def storeAdopted (message : StoreMessage C) : Writing String (ThreadStore C) (StoreMessage C) := do
  let stored ← Writing.reads fun s => placedMessage A message (s.messages message.threadId)
  let contentEnc ← Writing.reads fun _ => encryptMessageContent message.threadId stored
  insertAdopted A stored contentEnc
  return stored

def appendMessageWithPassiveEpochAdopt (message : StoreMessage C) (oldSessionEpoch newSessionEpoch : Nat)
    (newSyncState : PeerSyncState) : Writing String (ThreadStore C) (StoreMessage C) := do
  Writing.reads fun _ => A.initialized
  Writing.reads fun _ => A.listed
  let thread ← Writing.reads (getThread message.threadId)
  let target ← Writing.reads fun _ => directTargetForThread thread
  Writing.reads fun _ => A.opened
  cancelOldEpochPending A message.threadId oldSessionEpoch
  adoptChatTargetEpoch A message.threadId newSessionEpoch
  upsertPeerSyncState A message.threadId target newSessionEpoch newSyncState
  storeAdopted A encryptMessageContent message

end

end ThreadStore

/-! ## Where an adopt stops, and what it leaves there -/

namespace AdoptAnswers

variable (A : AdoptAnswers)

/-- The old epoch's messages are deleted. -/
def deleted : Bool := A.deletePrepared && A.deleteDone

def targeted : Bool := A.targetPrepared && A.targetDone

def cached : Bool := A.cachePrepared && A.cacheDone

def synced : Bool := A.syncPrepared && A.syncDone

end AdoptAnswers

namespace ThreadStore

variable {C : Type} {A : AdoptAnswers} {encryptMessageContent : ContentCipher C} {s : ThreadStore C}
variable {message stored : StoreMessage C} {threadId : String} {oldSessionEpoch newSessionEpoch : Nat}
variable {newSyncState : PeerSyncState} {target : String × String} {contentEnc : ByteVector}

/-! ## The writes, one after the other -/

/-- The target a chat has, where it is a direct one. -/
def targetOfThread (threadId : String) (s : ThreadStore C) : Roe (String × String) := do
  let thread ← getThread threadId s
  directTargetForThread thread

section

variable (A) (s) (threadId) (oldSessionEpoch)

/-- The row of the outbox goes with the old epoch's messages. -/
def outboxGone (messageId : String) : Bool :=
  decide (messageId ∈ selectOldPending A threadId oldSessionEpoch s) && A.outboxDeleted messageId

def outboxCancelled : ThreadStore C :=
  { s with outbox := s.outbox.filter fun row => !outboxGone A s threadId oldSessionEpoch row.messageId }

def messagesCancelled : ThreadStore C :=
  (outboxCancelled A s threadId oldSessionEpoch).deleteMessages threadId (·.message.isOldPending oldSessionEpoch)

variable (newSessionEpoch)

def targetAdopted : ThreadStore C :=
  (messagesCancelled A s threadId oldSessionEpoch).updateChatTarget threadId newSessionEpoch

def cacheAdopted : ThreadStore C :=
  (targetAdopted A s threadId oldSessionEpoch newSessionEpoch).updateThreadEpoch threadId newSessionEpoch

variable (newSyncState) (target)

def syncAdopted : ThreadStore C :=
  (cacheAdopted A s threadId oldSessionEpoch newSessionEpoch).upsertSyncState
    (adoptedSyncRow threadId target newSessionEpoch newSyncState)

end

theorem messages_syncAdopted : (syncAdopted A s threadId oldSessionEpoch newSessionEpoch newSyncState target).messages threadId =
    (s.messages threadId).filter fun row => !row.message.isOldPending oldSessionEpoch :=
  Function.update_self ..

theorem messages_syncAdopted_ne {other : String} (h : other ≠ threadId) :
    (syncAdopted A s threadId oldSessionEpoch newSessionEpoch newSyncState target).messages other = s.messages other :=
  Function.update_of_ne h ..

/-- The loop over the ids takes their rows out of the outbox. -/
theorem forM_removeOutbox (ids : List String) (d : Faulty (ThreadStore C)) :
    (ids.forM fun messageId => (Writing.change fun s =>
      if A.outboxDeleted messageId then s.removeOutboxRow messageId else s : Writing String (ThreadStore C) Unit)) d =
      (.ok (), { d with store := { d.store with outbox := d.store.outbox.filter fun row =>
        !(decide (row.messageId ∈ ids) && A.outboxDeleted row.messageId) } }) := by
  induction ids generalizing d with
  | nil => simp
  | cons messageId ids ih =>
    rw [List.forM_eq_forM, List.forM_cons, ← List.forM_eq_forM, Writing.bind_apply, Writing.change_apply]
    dsimp only
    rw [ih]
    by_cases hdone : A.outboxDeleted messageId = true
    · simp only [hdone, if_true, removeOutboxRow, List.filter_filter]
      congr 4
      ext row
      by_cases hrow : row.messageId = messageId
      · simp [hrow, hdone]
      · simp [hrow]
    · simp only [hdone]
      congr 4
      ext row
      by_cases hrow : row.messageId = messageId
      · simp [hrow, hdone]
      · simp [hrow]

/-! ## Where a call ends -/

section

variable (A) (encryptMessageContent) (s) (message) (oldSessionEpoch)

/-- The call comes to its first write. -/
structure AdoptReady : Prop where
  initialized : A.initialized = .ok ()
  listed : A.listed = .ok ()
  target : ∃ target, targetOfThread message.threadId s = .ok target
  opened : A.opened = .ok ()
  selectPrepared : A.selectPrepared = true

/-- The messages of the chat the delete leaves. -/
def remaining : List (MessageRow C) :=
  (s.messages message.threadId).filter fun row => !row.message.isOldPending oldSessionEpoch

/-- Among these rows the message can be stored, as this message with this content. -/
structure StoredAs (rows : List (MessageRow C)) (stored : StoreMessage C) (contentEnc : ByteVector) : Prop where
  placed : placedMessage A message rows = .ok stored
  encrypted : encryptMessageContent message.threadId stored = .ok contentEnc
  prepared : A.insertPrepared = true
  done : A.insertDone = true
  fresh : ∀ row ∈ rows, row.id ≠ message.id

variable (newSessionEpoch) (newSyncState)

/-- Where a call ends, and the store it leaves. -/
inductive AdoptEnds : Roe (StoreMessage C) × ThreadStore C → Prop
  | refused {e} (h : ¬ AdoptReady A s message) : AdoptEnds (.error e, s)
  | deleting {e} (hready : AdoptReady A s message) (h : A.deleted = false) :
      AdoptEnds (.error e, outboxCancelled A s message.threadId oldSessionEpoch)
  | targeting {e} (hready : AdoptReady A s message) (hdeleted : A.deleted = true) (h : A.targeted = false) :
      AdoptEnds (.error e, messagesCancelled A s message.threadId oldSessionEpoch)
  | caching {e} (hready : AdoptReady A s message) (hdeleted : A.deleted = true) (htargeted : A.targeted = true)
      (h : A.cached = false) : AdoptEnds (.error e, targetAdopted A s message.threadId oldSessionEpoch newSessionEpoch)
  | syncing {e} (hready : AdoptReady A s message) (hdeleted : A.deleted = true) (htargeted : A.targeted = true)
      (hcached : A.cached = true) (h : A.synced = false) :
      AdoptEnds (.error e, cacheAdopted A s message.threadId oldSessionEpoch newSessionEpoch)
  | storing {e} {target : String × String} (hready : AdoptReady A s message) (hdeleted : A.deleted = true) (htargeted : A.targeted = true)
      (hcached : A.cached = true) (hsynced : A.synced = true) (htarget : targetOfThread message.threadId s = .ok target)
      (h : ∀ stored contentEnc, ¬ StoredAs A encryptMessageContent message (remaining s message oldSessionEpoch) stored contentEnc) :
      AdoptEnds (.error e, syncAdopted A s message.threadId oldSessionEpoch newSessionEpoch newSyncState target)
  | adopted {target : String × String} {stored : StoreMessage C} {contentEnc : ByteVector} (hready : AdoptReady A s message) (hdeleted : A.deleted = true)
      (htargeted : A.targeted = true) (hcached : A.cached = true) (hsynced : A.synced = true)
      (htarget : targetOfThread message.threadId s = .ok target)
      (h : StoredAs A encryptMessageContent message (remaining s message oldSessionEpoch) stored contentEnc) :
      AdoptEnds (.ok stored, (syncAdopted A s message.threadId oldSessionEpoch newSessionEpoch newSyncState target).insertMessage
        message.threadId { message := stored, contentEnc })

end

theorem placedMessage_keeps {rows : List (MessageRow C)} (h : placedMessage A message rows = .ok stored) :
    stored = { message with displayOrder := stored.displayOrder } ∧
      (0 < message.displayOrder → stored.displayOrder = message.displayOrder) := by
  unfold placedMessage at h
  split at h
  next hunplaced =>
    obtain ⟨next, -, hstored⟩ := roe_bind_ok.mp h
    cases hstored
    exact ⟨rfl, fun hpos => absurd hpos (by omega)⟩
  next =>
    cases h
    exact ⟨rfl, fun _ => rfl⟩

theorem cancelOldEpochPending_loop :
    ((selectOldPending A threadId oldSessionEpoch s).forM fun messageId => (Writing.change fun s =>
      if A.outboxDeleted messageId then s.removeOutboxRow messageId else s : Writing String (ThreadStore C) Unit)) ⟨s, []⟩ =
      (.ok (), ⟨outboxCancelled A s threadId oldSessionEpoch, []⟩) :=
  forM_removeOutbox _ _

theorem cancelOldEpochPending_run (hprepared : A.selectPrepared = true) :
    ∃ e, cancelOldEpochPending A threadId oldSessionEpoch ⟨s, []⟩ =
      if A.deleted then (.ok (), ⟨messagesCancelled A s threadId oldSessionEpoch, []⟩)
      else (.error e, ⟨outboxCancelled A s threadId oldSessionEpoch, []⟩) := by
  simp only [cancelOldEpochPending, Writing.bind_apply, Writing.reads_apply, hprepared, not_true, refuseIf, if_false,
    cancelOldEpochPending_loop]
  cases hdelete : A.deletePrepared with
  | false => exact ⟨"Failed to prepare old-epoch pending delete", by simp [AdoptAnswers.deleted, hdelete]⟩
  | true =>
    cases hdone : A.deleteDone with
    | false =>
      exact ⟨"Failed to delete old-epoch pending messages", by
        simp [AdoptAnswers.deleted, hdelete, hdone, Writing.writeIf]⟩
    | true => exact ⟨"", by simp [AdoptAnswers.deleted, hdelete, hdone, Writing.writeIf, messagesCancelled]⟩

/-- What the chat target's move leaves, and whether it goes on. -/
theorem adoptChatTargetEpoch_run : ∃ e, adoptChatTargetEpoch A threadId newSessionEpoch ⟨s, []⟩ = if A.targeted then
      if A.cached then (.ok (), ⟨(s.updateChatTarget threadId newSessionEpoch).updateThreadEpoch threadId newSessionEpoch, []⟩)
      else (.error e, ⟨s.updateChatTarget threadId newSessionEpoch, []⟩) else (.error e, ⟨s, []⟩) := by
  simp only [adoptChatTargetEpoch, Writing.bind_apply, Writing.reads_apply, refuseIf]
  cases htarget : A.targetPrepared with
  | false => exact ⟨"Failed to prepare chat_targets epoch adopt", by simp [AdoptAnswers.targeted, htarget]⟩
  | true =>
    cases hdone : A.targetDone with
    | false =>
      exact ⟨"Failed to adopt chat target epoch", by simp [AdoptAnswers.targeted, htarget, hdone, Writing.writeIf]⟩
    | true =>
      cases hcache : A.cachePrepared with
      | false =>
        exact ⟨"Failed to prepare threads epoch cache update", by
          simp [AdoptAnswers.targeted, AdoptAnswers.cached, htarget, hdone, hcache, Writing.writeIf]⟩
      | true =>
        cases hcached : A.cacheDone with
        | false =>
          exact ⟨"Failed to update threads epoch cache", by
            simp [AdoptAnswers.targeted, AdoptAnswers.cached, htarget, hdone, hcache, hcached, Writing.writeIf]⟩
        | true =>
          exact ⟨"", by
            simp [AdoptAnswers.targeted, AdoptAnswers.cached, htarget, hdone, hcache, hcached, Writing.writeIf]⟩

theorem upsertPeerSyncState_run : ∃ e, upsertPeerSyncState A threadId target newSessionEpoch newSyncState ⟨s, []⟩ =
    if A.synced then (.ok (), ⟨s.upsertSyncState (adoptedSyncRow threadId target newSessionEpoch newSyncState), []⟩)
    else (.error e, ⟨s, []⟩) := by
  simp only [upsertPeerSyncState, Writing.bind_apply, Writing.reads_apply, refuseIf]
  cases hprepared : A.syncPrepared with
  | false => exact ⟨"Failed to prepare sync_state upsert", by simp [AdoptAnswers.synced, hprepared]⟩
  | true =>
    cases hdone : A.syncDone with
    | false => exact ⟨"Failed to upsert sync_state", by simp [AdoptAnswers.synced, hprepared, hdone, Writing.writeIf]⟩
    | true => exact ⟨"", by simp [AdoptAnswers.synced, hprepared, hdone, Writing.writeIf]⟩

theorem storeAdopted_run : (∃ e, (∀ stored contentEnc,
      ¬ StoredAs A encryptMessageContent message (s.messages message.threadId) stored contentEnc) ∧
      Writing.runOn (storeAdopted A encryptMessageContent message) s = (.error e, s)) ∨
    ∃ stored contentEnc, StoredAs A encryptMessageContent message (s.messages message.threadId) stored contentEnc ∧
      Writing.runOn (storeAdopted A encryptMessageContent message) s =
        (.ok stored, s.insertMessage message.threadId { message := stored, contentEnc }) := by
  cases hplaced : placedMessage A message (s.messages message.threadId) with
  | error e =>
    refine .inl ⟨e, ?_, Writing.runOn_reads_error hplaced⟩
    intro stored contentEnc h
    cases hplaced.symm.trans h.placed
  | ok stored =>
    have hkeeps := (placedMessage_keeps hplaced).1
    have hid : stored.id = message.id := by rw [hkeeps]
    have hthread : stored.threadId = message.threadId := by rw [hkeeps]
    have hsame {other : StoreMessage C} {contentEnc : ByteVector}
        (h : StoredAs A encryptMessageContent message (s.messages message.threadId) other contentEnc) : other = stored :=
      Except.ok.inj (h.placed.symm.trans hplaced)
    rw [storeAdopted, Writing.runOn_reads_ok (g := fun s : ThreadStore C => placedMessage A message (s.messages message.threadId)) hplaced]
    cases hcontent : encryptMessageContent message.threadId stored with
    | error e =>
      refine .inl ⟨e, ?_, Writing.runOn_reads_error rfl⟩
      intro other contentEnc h
      have hencrypted := h.encrypted
      rw [hsame h] at hencrypted
      cases hcontent.symm.trans hencrypted
    | ok contentEnc =>
      rw [Writing.runOn_reads_ok (g := fun _ => .ok contentEnc) rfl]
      by_cases hprepared : A.insertPrepared = true
      · have hprepare : refuseIf (¬ A.insertPrepared = true) "Failed to prepare passive-adopt append" = .ok () :=
          refuseIf_ok.mpr (not_not_intro hprepared)
        by_cases hstep : A.insertDone = true ∧ ∀ row ∈ s.messages message.threadId, row.id ≠ message.id
        · refine .inr ⟨stored, contentEnc, ⟨hplaced, hcontent, hprepared, hstep.1, hstep.2⟩, ?_⟩
          have hpass : refuseIf (¬ A.insertDone = true ∨ ∃ row ∈ s.messages stored.threadId, row.id = stored.id)
              "Failed to append message during passive adopt" = .ok () := by
            rw [refuseIf_ok, hid, hthread]
            intro hor
            rcases hor with hnot | ⟨row, hrow, hsameId⟩
            · exact hnot hstep.1
            · exact hstep.2 row hrow hsameId
          refine Writing.runOn_bind_ok (a := ()) ?_
          rw [insertAdopted, Writing.bind_apply, Writing.reads_apply, hprepare]
          dsimp only
          rw [Writing.bind_apply, Writing.reads_apply, hpass, hthread]
          rfl
        · refine .inl ⟨"Failed to append message during passive adopt", ?_, ?_⟩
          · intro other content h
            exact hstep ⟨h.done, h.fresh⟩
          · have hstop : ¬ A.insertDone = true ∨ ∃ row ∈ s.messages stored.threadId, row.id = stored.id := by
              rw [hid, hthread]
              by_contra hall
              push Not at hall
              exact hstep hall
            refine Writing.runOn_bind_error ?_
            rw [insertAdopted, Writing.bind_apply, Writing.reads_apply, hprepare]
            dsimp only
            rw [Writing.bind_apply, Writing.reads_apply, refuseIf, if_pos hstop]
      · refine .inl ⟨"Failed to prepare passive-adopt append", ?_, ?_⟩
        · intro other content h
          exact hprepared h.prepared
        · refine Writing.runOn_bind_error ?_
          rw [insertAdopted, Writing.bind_apply, Writing.reads_apply, refuseIf, if_pos hprepared]

theorem runOn_append_ends : AdoptEnds A encryptMessageContent s message oldSessionEpoch newSessionEpoch newSyncState
    (Writing.runOn (appendMessageWithPassiveEpochAdopt A encryptMessageContent message oldSessionEpoch newSessionEpoch
      newSyncState) s) := by
  unfold appendMessageWithPassiveEpochAdopt
  cases hinitialized : A.initialized with
  | error e =>
    rw [Writing.runOn_reads_error (g := fun _ => .error e) rfl]
    exact .refused fun h => by cases hinitialized.symm.trans h.initialized
  | ok u =>
  rw [Writing.runOn_reads_ok (g := fun _ => .ok u) rfl]
  cases hlisted : A.listed with
  | error e =>
    rw [Writing.runOn_reads_error (g := fun _ => .error e) rfl]
    exact .refused fun h => by cases hlisted.symm.trans h.listed
  | ok u =>
  rw [Writing.runOn_reads_ok (g := fun _ => .ok u) rfl]
  cases hthread : getThread message.threadId s with
  | error e =>
    rw [Writing.runOn_reads_error hthread]
    refine .refused fun h => ?_
    obtain ⟨target, htarget⟩ := h.target
    rw [targetOfThread, hthread] at htarget
    cases htarget
  | ok thread =>
  rw [Writing.runOn_reads_ok hthread]
  have htarget : targetOfThread message.threadId s = directTargetForThread thread := by
    rw [targetOfThread, hthread, roe_ok_bind]
  cases hdirect : directTargetForThread thread with
  | error e =>
    rw [Writing.runOn_reads_error (g := fun _ => .error e) rfl]
    refine .refused fun h => ?_
    obtain ⟨target, hof⟩ := h.target
    cases hdirect.symm.trans (htarget.symm.trans hof)
  | ok target =>
  rw [Writing.runOn_reads_ok (g := fun _ => .ok target) rfl]
  rw [hdirect] at htarget
  cases hopened : A.opened with
  | error e =>
    rw [Writing.runOn_reads_error (g := fun _ => .error e) rfl]
    exact .refused fun h => by cases hopened.symm.trans h.opened
  | ok u =>
  rw [Writing.runOn_reads_ok (g := fun _ => .ok u) rfl]
  by_cases hprepared : A.selectPrepared = true
  · have hready : AdoptReady A s message := ⟨hinitialized, hlisted, ⟨target, htarget⟩, hopened, hprepared⟩
    obtain ⟨e, hcancel⟩ := cancelOldEpochPending_run (s := s)
      hprepared
    cases hdeleted : A.deleted with
    | false =>
      rw [hdeleted] at hcancel
      rw [Writing.runOn_bind_error hcancel]
      exact .deleting hready hdeleted
    | true =>
    rw [hdeleted] at hcancel
    rw [Writing.runOn_bind_ok hcancel]
    obtain ⟨e, hadopt⟩ := adoptChatTargetEpoch_run (A := A) (s := messagesCancelled A s message.threadId oldSessionEpoch)
    cases htargeted : A.targeted with
    | false =>
      rw [htargeted] at hadopt
      rw [Writing.runOn_bind_error hadopt]
      exact .targeting hready hdeleted htargeted
    | true =>
    rw [htargeted] at hadopt
    cases hcached : A.cached with
    | false =>
      rw [hcached] at hadopt
      rw [Writing.runOn_bind_error hadopt]
      exact .caching hready hdeleted htargeted hcached
    | true =>
    rw [hcached] at hadopt
    have hmoved : adoptChatTargetEpoch A message.threadId newSessionEpoch
        ⟨messagesCancelled A s message.threadId oldSessionEpoch, []⟩ =
        (.ok (), ⟨cacheAdopted A s message.threadId oldSessionEpoch newSessionEpoch, []⟩) := hadopt
    rw [Writing.runOn_bind_ok hmoved]
    obtain ⟨e, hsync⟩ := upsertPeerSyncState_run (A := A)
      (s := cacheAdopted A s message.threadId oldSessionEpoch newSessionEpoch)
    cases hsynced : A.synced with
    | false =>
      rw [hsynced] at hsync
      rw [Writing.runOn_bind_error hsync]
      exact .syncing hready hdeleted htargeted hcached hsynced
    | true =>
    rw [hsynced] at hsync
    rw [Writing.runOn_bind_ok hsync]
    have hrows : (syncAdopted A s message.threadId oldSessionEpoch newSessionEpoch newSyncState target).messages
        message.threadId = remaining s message oldSessionEpoch := messages_syncAdopted
    rcases storeAdopted_run (A := A)
      (s := syncAdopted A s message.threadId oldSessionEpoch newSessionEpoch newSyncState target) with
      ⟨e, hnot, hrun⟩ | ⟨stored, contentEnc, hstored, hrun⟩
    · rw [hrows] at hnot
      exact hrun ▸ .storing hready hdeleted htargeted hcached hsynced htarget hnot
    · rw [hrows] at hstored
      exact hrun ▸ .adopted hready hdeleted htargeted hcached hsynced htarget hstored
  · have hcancel : cancelOldEpochPending A message.threadId oldSessionEpoch (⟨s, []⟩ : Faulty (ThreadStore C)) =
        (.error "Failed to prepare old-epoch pending select", ⟨s, []⟩) := by
      rw [cancelOldEpochPending, Writing.bind_apply, Writing.reads_apply, refuseIf, if_pos hprepared]
    rw [Writing.runOn_bind_error hcancel]
    exact .refused fun h => hprepared h.selectPrepared

end ThreadStore

/-! ## When an adopt is all or nothing -/

namespace Lib

variable {α κ : Type} [DecidableEq κ] {key : α → κ} {a : α} {rows : List α}

theorem put_eq_self_iff : put key a rows = rows ↔ rowOf key (key a) rows = some a := by
  induction rows with
  | nil => simp [put, rowOf]
  | cons row rows ih =>
    rw [put, rowOf_cons]
    by_cases hkey : key row = key a
    · rw [if_pos hkey, if_pos hkey]
      simp [eq_comm]
    · rw [if_neg hkey, if_neg hkey, ← ih]
      simp

theorem filter_not_eq_self_iff {p : α → Bool} : rows.filter (!p ·) = rows ↔ ∀ a ∈ rows, p a = false := by
  rw [List.filter_eq_self]
  simp

theorem map_eq_self_iff {f : α → α} : rows.map f = rows ↔ ∀ a ∈ rows, f a = a := by
  induction rows with
  | nil => simp
  | cons a rows ih => rw [List.map_cons, List.cons.injEq, ih, List.forall_mem_cons]

end Lib

namespace ThreadStore

variable {C : Type}

section

variable (A : AdoptAnswers) (encryptMessageContent : ContentCipher C) (s : ThreadStore C)
variable (message : StoreMessage C) (oldSessionEpoch newSessionEpoch : Nat) (newSyncState : PeerSyncState)

/-! ## All or nothing -/

/-- The chat has moved to the new epoch with the message. -/
structure Adopted (after : ThreadStore C) (stored : StoreMessage C) : Prop where
  placed : stored = { message with displayOrder := stored.displayOrder }
  held : ∃ contentEnc, encryptMessageContent message.threadId stored = .ok contentEnc ∧
    (⟨stored, contentEnc⟩ : MessageRow C) ∈ after.messages message.threadId
  cancelled : ∀ row ∈ after.messages message.threadId, row.message.isOldPending oldSessionEpoch = false
  outbox : ∀ row ∈ s.messages message.threadId, row.message.isOldPending oldSessionEpoch = true →
    ∀ queued ∈ after.outbox, queued.messageId ≠ row.id
  others : (after.messages message.threadId).filter
      (fun row => row.message.sessionEpoch ≠ some oldSessionEpoch ∧ row.id ≠ message.id) =
    (s.messages message.threadId).filter fun row => row.message.sessionEpoch ≠ some oldSessionEpoch
  elsewhere : ∀ threadId, threadId ≠ message.threadId → after.messages threadId = s.messages threadId
  linked : ∃ row ∈ after.chatTargets, row.localThreadId = message.threadId
  target : ∀ row ∈ after.chatTargets, row.localThreadId = message.threadId → row.sessionEpoch = newSessionEpoch
  sync : ∃ target, targetOfThread message.threadId s = .ok target ∧
    rowOf SyncStateRow.key (message.threadId, target.1, target.2, newSessionEpoch) after.syncState =
      some (adoptedSyncRow message.threadId target newSessionEpoch newSyncState)

/-- An error leaves the store as it was, a success the chat moved. -/
def AllOrNothing : Roe (StoreMessage C) × ThreadStore C → Prop
  | (.error _, after) => after = s
  | (.ok stored, after) =>
    Adopted encryptMessageContent s message oldSessionEpoch newSessionEpoch newSyncState after stored

/-! ## The state before -/

/-- No row of the outbox goes. -/
def NothingTakenOut : Prop :=
  ∀ queued ∈ s.outbox, outboxGone A s message.threadId oldSessionEpoch queued.messageId = false

/-- The chat has no unsent message of the old epoch. -/
def NothingOld : Prop := ∀ row ∈ s.messages message.threadId, row.message.isOldPending oldSessionEpoch = false

/-- The chat target is at the start of the new epoch already. -/
def TargetThere : Prop :=
  ∀ row ∈ s.chatTargets, row.localThreadId = message.threadId → row.sessionEpoch = newSessionEpoch ∧ row.nextOutgoingSeq = 1

def CacheThere : Prop := ∀ row ∈ s.threads, row.id = message.threadId → row.sessionEpoch = some newSessionEpoch

/-- The sync state of the new epoch is the new one already. -/
def SyncThere : Prop :=
  ∀ target, targetOfThread message.threadId s = .ok target →
    rowOf SyncStateRow.key (message.threadId, target.1, target.2, newSessionEpoch) s.syncState =
      some (adoptedSyncRow message.threadId target newSessionEpoch newSyncState)

/-- The outbox lets the unsent messages of the old epoch go. -/
def AllTakenOut : Prop :=
  ∀ row ∈ s.messages message.threadId, row.message.isOldPending oldSessionEpoch = true →
    ∀ queued ∈ s.outbox, queued.messageId = row.id → outboxGone A s message.threadId oldSessionEpoch row.id = true

/-- When a call is all or nothing, by where it stops: nothing that was written
before had anything to change, or all is done. -/
def AdoptHolds : Prop :=
  AdoptReady A s message →
    if A.deleted = false then NothingTakenOut A s message oldSessionEpoch
    else if A.targeted = false then NothingOld s message oldSessionEpoch
    else if A.cached = false then NothingOld s message oldSessionEpoch ∧ TargetThere s message newSessionEpoch
    else if A.synced = false then
      NothingOld s message oldSessionEpoch ∧ TargetThere s message newSessionEpoch ∧ CacheThere s message newSessionEpoch
    else
      ((∀ stored contentEnc,
          ¬ StoredAs A encryptMessageContent message (remaining s message oldSessionEpoch) stored contentEnc) →
        NothingOld s message oldSessionEpoch ∧ TargetThere s message newSessionEpoch ∧ CacheThere s message newSessionEpoch ∧
          SyncThere s message newSessionEpoch newSyncState) ∧
      ((∃ stored contentEnc,
          StoredAs A encryptMessageContent message (remaining s message oldSessionEpoch) stored contentEnc) →
        AllTakenOut A s message oldSessionEpoch ∧ (∃ row ∈ s.chatTargets, row.localThreadId = message.threadId) ∧
          message.isOldPending oldSessionEpoch = false)

end

variable {A : AdoptAnswers} {encryptMessageContent : ContentCipher C} {s : ThreadStore C}
variable {message : StoreMessage C} {oldSessionEpoch newSessionEpoch : Nat} {newSyncState : PeerSyncState}
variable {target : String × String}

/-! ## Writes that change nothing -/

theorem outbox_eq_iff : (outboxCancelled A s message.threadId oldSessionEpoch).outbox = s.outbox ↔
    NothingTakenOut A s message oldSessionEpoch :=
  filter_not_eq_self_iff

theorem messages_eq_iff : (messagesCancelled A s message.threadId oldSessionEpoch).messages = s.messages ↔
    NothingOld s message oldSessionEpoch := by
  rw [messagesCancelled, deleteMessages, outboxCancelled]
  dsimp only
  rw [Function.update_eq_self_iff, filter_not_eq_self_iff]
  rfl

theorem nothingTakenOut_of_nothingOld (h : NothingOld s message oldSessionEpoch) :
    NothingTakenOut A s message oldSessionEpoch := by
  intro queued _
  have hnone : (s.messages message.threadId).filter (·.message.isOldPending oldSessionEpoch) = [] := by
    rw [List.filter_eq_nil_iff]
    intro row hrow
    rw [h row hrow]
    exact Bool.false_ne_true
  have hselected : selectOldPending A message.threadId oldSessionEpoch s = [] := by
    unfold selectOldPending
    rw [hnone]
    cases A.selected with
    | none => rfl
    | some n => exact List.take_nil
  simp [outboxGone, hselected]

theorem chatTargets_eq_iff : (s.updateChatTarget message.threadId newSessionEpoch).chatTargets = s.chatTargets ↔
    TargetThere s message newSessionEpoch := by
  rw [updateChatTarget, map_eq_self_iff]
  apply forall₂_congr
  intro row _
  cases row
  split <;> simp_all [eq_comm]

theorem threads_eq_iff : (s.updateThreadEpoch message.threadId newSessionEpoch).threads = s.threads ↔
    CacheThere s message newSessionEpoch := by
  rw [updateThreadEpoch, map_eq_self_iff]
  apply forall₂_congr
  intro row _
  cases row
  split <;> simp_all [eq_comm]

theorem syncState_eq_iff (htarget : targetOfThread message.threadId s = .ok target) :
    (s.upsertSyncState (adoptedSyncRow message.threadId target newSessionEpoch newSyncState)).syncState = s.syncState ↔
      SyncThere s message newSessionEpoch newSyncState := by
  rw [upsertSyncState, put_eq_self_iff]
  constructor
  · intro h target' htarget'
    cases htarget.symm.trans htarget'
    exact h
  · intro h
    exact h target htarget

/-! ## What the stores of a failed call have changed -/

theorem outboxCancelled_eq_iff : outboxCancelled A s message.threadId oldSessionEpoch = s ↔
    NothingTakenOut A s message oldSessionEpoch := by
  rw [ThreadStore.ext_iff]
  constructor
  · intro ⟨_, houtbox, _⟩
    exact outbox_eq_iff.mp houtbox
  · intro h
    exact ⟨rfl, outbox_eq_iff.mpr h, rfl, rfl, rfl⟩

theorem messagesCancelled_eq_iff : messagesCancelled A s message.threadId oldSessionEpoch = s ↔
    NothingOld s message oldSessionEpoch := by
  rw [ThreadStore.ext_iff]
  constructor
  · intro ⟨hmessages, _⟩
    exact messages_eq_iff.mp hmessages
  · intro h
    exact ⟨messages_eq_iff.mpr h, outbox_eq_iff.mpr (nothingTakenOut_of_nothingOld h), rfl, rfl, rfl⟩

theorem targetAdopted_eq_iff : targetAdopted A s message.threadId oldSessionEpoch newSessionEpoch = s ↔
    NothingOld s message oldSessionEpoch ∧ TargetThere s message newSessionEpoch := by
  rw [ThreadStore.ext_iff]
  constructor
  · intro ⟨hmessages, _, htargets, _⟩
    exact ⟨messages_eq_iff.mp hmessages, chatTargets_eq_iff.mp htargets⟩
  · intro ⟨hold, htarget⟩
    exact ⟨messages_eq_iff.mpr hold, outbox_eq_iff.mpr (nothingTakenOut_of_nothingOld hold), chatTargets_eq_iff.mpr htarget,
      rfl, rfl⟩

theorem cacheAdopted_eq_iff : cacheAdopted A s message.threadId oldSessionEpoch newSessionEpoch = s ↔
    NothingOld s message oldSessionEpoch ∧ TargetThere s message newSessionEpoch ∧ CacheThere s message newSessionEpoch := by
  rw [ThreadStore.ext_iff]
  constructor
  · intro ⟨hmessages, _, htargets, hthreads, _⟩
    exact ⟨messages_eq_iff.mp hmessages, chatTargets_eq_iff.mp htargets, threads_eq_iff.mp hthreads⟩
  · intro ⟨hold, htarget, hcache⟩
    exact ⟨messages_eq_iff.mpr hold, outbox_eq_iff.mpr (nothingTakenOut_of_nothingOld hold), chatTargets_eq_iff.mpr htarget,
      threads_eq_iff.mpr hcache, rfl⟩

theorem syncAdopted_eq_iff (htarget : targetOfThread message.threadId s = .ok target) :
    syncAdopted A s message.threadId oldSessionEpoch newSessionEpoch newSyncState target = s ↔
      NothingOld s message oldSessionEpoch ∧ TargetThere s message newSessionEpoch ∧ CacheThere s message newSessionEpoch ∧
        SyncThere s message newSessionEpoch newSyncState := by
  rw [ThreadStore.ext_iff]
  constructor
  · intro ⟨hmessages, _, htargets, hthreads, hsync⟩
    exact ⟨messages_eq_iff.mp hmessages, chatTargets_eq_iff.mp htargets, threads_eq_iff.mp hthreads,
      (syncState_eq_iff htarget).mp hsync⟩
  · intro ⟨hold, htargets, hcache, hsync⟩
    exact ⟨messages_eq_iff.mpr hold, outbox_eq_iff.mpr (nothingTakenOut_of_nothingOld hold),
      chatTargets_eq_iff.mpr htargets, threads_eq_iff.mpr hcache, (syncState_eq_iff htarget).mpr hsync⟩

/-! ## A call that succeeds -/

theorem adopted_iff {stored : StoreMessage C} {contentEnc : ByteVector}
    (htarget : targetOfThread message.threadId s = .ok target)
    (hstored : StoredAs A encryptMessageContent message (remaining s message oldSessionEpoch) stored contentEnc) :
    Adopted encryptMessageContent s message oldSessionEpoch newSessionEpoch newSyncState
      ((syncAdopted A s message.threadId oldSessionEpoch newSessionEpoch newSyncState target).insertMessage
        message.threadId { message := stored, contentEnc }) stored ↔
    AllTakenOut A s message oldSessionEpoch ∧ (∃ row ∈ s.chatTargets, row.localThreadId = message.threadId) ∧
      message.isOldPending oldSessionEpoch = false := by
  obtain ⟨hkeeps, -⟩ := placedMessage_keeps hstored.placed
  have hrows : ((syncAdopted A s message.threadId oldSessionEpoch newSessionEpoch newSyncState target).insertMessage
      message.threadId { message := stored, contentEnc }).messages message.threadId =
      remaining s message oldSessionEpoch ++ [{ message := stored, contentEnc }] := by
    rw [insertMessage]
    dsimp only
    rw [Function.update_self, messages_syncAdopted]
    rfl
  have hold : stored.isOldPending oldSessionEpoch = message.isOldPending oldSessionEpoch := by
    rw [hkeeps]
    rfl
  have hid : stored.id = message.id := by rw [hkeeps]
  constructor
  · intro h
    refine ⟨?_, ?_, ?_⟩
    · intro row hrow hpending queued hqueued hsame
      by_contra hstays
      refine h.outbox row hrow hpending queued (List.mem_filter.mpr ⟨hqueued, ?_⟩) hsame
      rw [hsame]
      simpa using hstays
    · obtain ⟨row, hrow, hlinked⟩ := h.linked
      obtain ⟨before, hbefore, rfl⟩ := List.mem_map.mp hrow
      refine ⟨before, hbefore, ?_⟩
      split at hlinked
      next hthread => exact hthread
      next => exact hlinked
    · rw [← hold]
      refine h.cancelled ⟨stored, contentEnc⟩ ?_
      rw [hrows]
      simp
  · intro ⟨hout, ⟨linked, hlinked, hthread⟩, hnew⟩
    have hmoved : (if linked.localThreadId = message.threadId then
        { linked with sessionEpoch := newSessionEpoch, nextOutgoingSeq := 1 } else linked).localThreadId = message.threadId := by
      rw [if_pos hthread]
      exact hthread
    refine ⟨hkeeps, ⟨contentEnc, hstored.encrypted, ?_⟩, ?_, ?_, ?_, ?_, ⟨_, List.mem_map_of_mem hlinked, hmoved⟩, ?_,
      ⟨target, htarget, ?_⟩⟩
    · rw [hrows]
      simp
    · intro row hrow
      rw [hrows, List.mem_append, List.mem_singleton] at hrow
      rcases hrow with hrow | rfl
      · simpa using (List.mem_filter.mp hrow).2
      · exact hold.trans hnew
    · intro row hrow hpending queued hqueued hsame
      obtain ⟨hqueued, hstays⟩ := List.mem_filter.mp hqueued
      rw [hsame, hout row hrow hpending queued hqueued hsame] at hstays
      cases hstays
    · rw [hrows, List.filter_append]
      have hown : ([{ message := stored, contentEnc }] : List (MessageRow C)).filter
          (fun row => row.message.sessionEpoch ≠ some oldSessionEpoch ∧ row.id ≠ message.id) = [] := by
        simp [MessageRow.id, hid]
      rw [hown, List.append_nil, remaining, List.filter_filter]
      apply List.filter_congr
      intro row hrow
      by_cases hepoch : row.message.sessionEpoch = some oldSessionEpoch
      · simp [hepoch]
      · have hother : row.message.isOldPending oldSessionEpoch = false := by
          simp [StoreMessage.isOldPending, hepoch]
        have hfresh : row.id ≠ message.id := hstored.fresh row (List.mem_filter.mpr ⟨hrow, by rw [hother]; rfl⟩)
        simp [hepoch, hother, hfresh]
    · intro threadId hne
      rw [insertMessage]
      dsimp only
      rw [Function.update_of_ne hne, messages_syncAdopted_ne hne]
    · intro row hrow hthread
      obtain ⟨before, -, rfl⟩ := List.mem_map.mp hrow
      split at hthread
      next hof => rw [if_pos hof]
      next hof => exact absurd hthread hof
    · have hput := @rowOf_put _ _ _ SyncStateRow.key (adoptedSyncRow message.threadId target newSessionEpoch newSyncState)
        s.syncState (message.threadId, target.1, target.2, newSessionEpoch)
      have hkey : (adoptedSyncRow message.threadId target newSessionEpoch newSyncState).key =
          (message.threadId, target.1, target.2, newSessionEpoch) := rfl
      rw [if_pos hkey] at hput
      exact hput

/-- An adopt is all or nothing just when, where it stops, nothing written had
anything to change, or all it is to do is done. -/
theorem adopt_whole_iff (A : AdoptAnswers) (encryptMessageContent : ContentCipher C) (s : ThreadStore C)
    (message : StoreMessage C) (oldSessionEpoch newSessionEpoch : Nat) (newSyncState : PeerSyncState) :
    AllOrNothing encryptMessageContent s message oldSessionEpoch newSessionEpoch newSyncState
      (Writing.runOn (appendMessageWithPassiveEpochAdopt A encryptMessageContent message oldSessionEpoch newSessionEpoch
        newSyncState) s) ↔
    AdoptHolds A encryptMessageContent s message oldSessionEpoch newSessionEpoch newSyncState := by
  have hends := @runOn_append_ends C A encryptMessageContent s message oldSessionEpoch newSessionEpoch newSyncState
  generalize Writing.runOn (appendMessageWithPassiveEpochAdopt A encryptMessageContent message oldSessionEpoch
    newSessionEpoch newSyncState) s = ended at hends
  cases hends with
  | refused hrefused => exact iff_of_true rfl fun hready => absurd hready hrefused
  | deleting hready hdeleted =>
    rw [AdoptHolds, imp_iff_right hready, if_pos hdeleted]
    exact outboxCancelled_eq_iff
  | targeting hready hdeleted htargeted =>
    rw [AdoptHolds, imp_iff_right hready, if_neg (by simp [hdeleted]), if_pos htargeted]
    exact messagesCancelled_eq_iff
  | caching hready hdeleted htargeted hcached =>
    rw [AdoptHolds, imp_iff_right hready, if_neg (by simp [hdeleted]), if_neg (by simp [htargeted]), if_pos hcached]
    exact targetAdopted_eq_iff
  | syncing hready hdeleted htargeted hcached hsynced =>
    rw [AdoptHolds, imp_iff_right hready, if_neg (by simp [hdeleted]), if_neg (by simp [htargeted]),
      if_neg (by simp [hcached]), if_pos hsynced]
    exact cacheAdopted_eq_iff
  | storing hready hdeleted htargeted hcached hsynced htarget hnot =>
    rw [AdoptHolds, imp_iff_right hready, if_neg (by simp [hdeleted]), if_neg (by simp [htargeted]),
      if_neg (by simp [hcached]), if_neg (by simp [hsynced]), imp_iff_right hnot]
    refine (syncAdopted_eq_iff htarget).trans ⟨fun h => ⟨h, ?_⟩, And.left⟩
    intro ⟨stored, contentEnc, hstored⟩
    exact absurd hstored (hnot stored contentEnc)
  | adopted hready hdeleted htargeted hcached hsynced htarget hstored =>
    rw [AdoptHolds, imp_iff_right hready, if_neg (by simp [hdeleted]), if_neg (by simp [htargeted]),
      if_neg (by simp [hcached]), if_neg (by simp [hsynced])]
    refine (adopted_iff htarget hstored).trans ⟨fun h => ⟨?_, fun _ => h⟩, fun h => h.2 ⟨_, _, hstored⟩⟩
    intro hnot
    exact absurd hstored (hnot _ _)

/-- Content of a type this build does not know has no payload. -/
def knownContentOnly : ContentCipher String := fun _ message =>
  if message.content = "unsupported" then .error "Cannot encode unsupported ChatPayload" else .ok [0]

/-- A message sent under epoch 1 that waits in the outbox. -/
def waitingMessage : StoreMessage String :=
  { id := "m1", threadId := "t", displayOrder := 1, relayVisible := true, delivery := .pending, sessionEpoch := some 1
    content := "text" }

def waitingStore : ThreadStore String :=
  { messages := fun threadId => if threadId = "t" then [{ message := waitingMessage, contentEnc := [0] }] else []
    outbox := [{ messageId := "m1", threadId := "t", updatedAt := 1 }]
    chatTargets := [{ localThreadId := "t", nextOutgoingSeq := 2 }]
    threads := [{ id := "t", kind := .direct, peerIdentityKind := "account", peerIdentityValue := "b", sessionEpoch := some 1 }] }

/-- The peer's first message of epoch 2, of a type this build does not know. -/
def unknownMessage : StoreMessage String :=
  { id := "m2", threadId := "t", relayVisible := true, delivery := .relayed, sessionEpoch := some 2
    content := "unsupported" }

/-- It is not stored, and the waiting message is gone from the outbox. -/
theorem unencodable_adopt_halved :
    ¬ AllOrNothing knownContentOnly waitingStore unknownMessage 1 2 {}
      (Writing.runOn (appendMessageWithPassiveEpochAdopt {} knownContentOnly unknownMessage 1 2 {}) waitingStore) := by
  intro h
  have hsame : (Writing.runOn (appendMessageWithPassiveEpochAdopt {} knownContentOnly unknownMessage 1 2 {})
    waitingStore).2 = waitingStore := h
  have houtbox : [] = waitingStore.outbox := congrArg outbox hsame
  cases houtbox

end ThreadStore

end Pbr
