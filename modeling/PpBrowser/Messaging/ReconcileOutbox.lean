import Mathlib.Data.List.Sort
import PpBrowser.Lib.Writing
import PpBrowser.Messaging.SqliteThreadStore

/-!
# ReconcileOutbox — the outbox after the messages it lists

`ReconcileOutbox`: rows of the outbox whose message is not found, or is sent,
leave; unsent messages of direct chats that were not listed are put in. Both
halves read a chat through one page of its newest messages. Which chats open,
which rows are readable and which statements are done is given.
-/

namespace Pbr

open Lib

/-- What the databases answer to the reads and statements of one call. -/
structure OutboxAnswers where
  initialized : Roe Unit := .ok ()
  /-- `ListPendingOutbox`. -/
  pendingListed : Roe Unit := .ok ()
  /-- `ListThreads`. -/
  threadsListed : Roe Unit := .ok ()
  /-- A chat's database, the query over it and the key its rows need. -/
  opened : String → Roe Unit := fun _ => .ok ()
  /-- `ReadMessageRow` opens a message of a chat. -/
  readable : String → String → Bool := fun _ _ => true
  removed : String → Bool := fun _ => true
  upserted : String → Bool := fun _ => true

def kDefaultMessagesPageSize : Nat := 100

/-- The limit both halves pass. -/
def kReconcilePage : Nat := 10000

namespace ThreadStore

variable {C : Type}

/-- The rows a newest-first query gives, ties as they were stored. -/
def newestRows (limit : Nat) (rows : List (MessageRow C)) : List (MessageRow C) :=
  (rows.insertionSort fun a b => b.message.displayOrder ≤ a.message.displayOrder).take limit

section

variable (A : OutboxAnswers)

/-- `QueryMessages`, of the newest messages: a row that is not read is skipped. -/
def queryMessages (threadId : String) (limit : Nat) (s : ThreadStore C) : Roe (List (StoreMessage C)) := do
  A.opened threadId
  return ((newestRows limit (s.messages threadId)).filter (A.readable threadId ·.id)).map
    fun row => { row.message with threadId }

/-- `GetMessagesPage`, from the newest message back. -/
def getMessagesPage (threadId : String) (limit : Nat) (s : ThreadStore C) : Roe (List (StoreMessage C)) := do
  let page ← queryMessages A threadId (if limit = 0 then kDefaultMessagesPageSize else limit) s
  return page.reverse

/-- Ids of messages and chats, the oldest row first. -/
def listPendingOutbox (s : ThreadStore C) : Roe (List (String × String)) := do
  A.pendingListed
  return (s.outbox.insertionSort fun a b => a.updatedAt ≤ b.updatedAt).map fun row => (row.messageId, row.threadId)

/-- `ListThreads`, in the order it gives. -/
def listThreads (s : ThreadStore C) : Roe (List CatalogRow) := do
  A.threadsListed
  return s.threads

/-- The row's message is not found, or has not to be sent any more. -/
def isSettled (messageId threadId : String) (s : ThreadStore C) : Bool :=
  match getMessagesPage A threadId kReconcilePage s with
  | .error _ => true
  | .ok messages =>
    match messages.find? (·.id = messageId) with
    | none => true
    | some message => message.delivery = .relayed || message.delivery = .failed

/-- A row of the first half; one that cannot be deleted is passed over. -/
def dropSettled (pending : String × String) : Writing String (ThreadStore C) Unit := do
  let settled ← Writing.reads fun s => .ok (isSettled A pending.1 pending.2 s)
  if settled then Writing.change fun s => if A.removed pending.1 then s.removeOutboxRow pending.1 else s
  else pure ()

/-- A message of the second half. -/
def enqueueMissing (now : String → Int) (pendingRows : List (String × String)) (threadId : String)
    (message : StoreMessage C) : Writing String (ThreadStore C) Unit :=
  if message.delivery ≠ .pending ∨ ¬ message.relayVisible then pure ()
  else if pendingRows.any (·.1 = message.id) then pure ()
  else Writing.writeIf (A.upserted message.id) "Failed to upsert outbox row"
    (·.upsertOutboxRow message.id threadId (now message.id))

/-- A chat of the second half; one that cannot be read is passed over. -/
def enqueueThread (now : String → Int) (pendingRows : List (String × String)) (thread : CatalogRow) :
    Writing String (ThreadStore C) Unit :=
  if thread.kind ≠ .direct then pure ()
  else do
    let page ← Writing.reads fun s => .ok (getMessagesPage A thread.id kReconcilePage s)
    match page with
    | .error _ => pure ()
    | .ok messages => messages.forM (enqueueMissing A now pendingRows thread.id)

/-- `now` is the clock at each row's upsert. -/
def reconcileOutbox (now : String → Int) : Writing String (ThreadStore C) Unit := do
  Writing.reads fun _ => A.initialized
  let pendingRows ← Writing.reads (listPendingOutbox A)
  pendingRows.forM (dropSettled A)
  let threads ← Writing.reads (listThreads A)
  threads.forM (enqueueThread A now pendingRows)

end

end ThreadStore

/-! ## What a run of ReconcileOutbox leaves -/

/-- Still to be sent: what the outbox is to list. -/
def StoreMessage.isUnsent {C : Type} (message : StoreMessage C) : Bool :=
  message.delivery = .pending && message.relayVisible

namespace ThreadStore

variable {C : Type}

/-- A table has one row for a key. -/
structure Keyed (s : ThreadStore C) : Prop where
  outbox : DistinctKeys OutboxRow.messageId s.outbox
  messages : ∀ threadId, DistinctKeys MessageRow.id (s.messages threadId)

section

variable (A : OutboxAnswers) (s : ThreadStore C)

/-- A read of the chat gives the row: the chat opens, the row is readable and
among the newest. -/
def Reaches (threadId : String) (row : MessageRow C) : Prop :=
  A.opened threadId = .ok () ∧ row ∈ newestRows kReconcilePage (s.messages threadId) ∧
    A.readable threadId row.id = true

/-- The first half takes the row out. -/
def isDropped (queued : OutboxRow) : Bool :=
  isSettled A queued.messageId queued.threadId s && A.removed queued.messageId

/-- The store after the first half. -/
def settledDropped : ThreadStore C := { s with outbox := s.outbox.filter (!isDropped A s ·) }

/-- What the second half puts in for a chat: ids of the message and the chat. -/
def missingOf (pendingRows : List (String × String)) (thread : CatalogRow) : List (String × String) :=
  if thread.kind ≠ .direct then []
  else
    match getMessagesPage A thread.id kReconcilePage s with
    | .error _ => []
    | .ok messages =>
      (messages.filter fun message => message.isUnsent && !pendingRows.any (·.1 = message.id)).map
        fun message => (message.id, thread.id)

def missing : List (String × String) :=
  s.threads.flatMap (missingOf A s (s.outbox.map fun row => (row.messageId, row.threadId)))

end

/-- Message after message put into the outbox. -/
def enqueueAll (now : String → Int) (found : List (String × String)) (s : ThreadStore C) : ThreadStore C :=
  found.foldl (fun s pair => s.upsertOutboxRow pair.1 pair.2 (now pair.1)) s

variable {A : OutboxAnswers} {s s' after : ThreadStore C} {now : String → Int}
variable {threadId messageId : String} {row : MessageRow C} {message : StoreMessage C}
variable {messages : List (StoreMessage C)} {pendingRows found : List (String × String)}

/-! ## A page -/

theorem mem_of_reaches (h : Reaches A s threadId row) : row ∈ s.messages threadId := by
  have hsorted := List.mem_of_mem_take h.2.1
  exact (List.perm_insertionSort _ _).mem_iff.mp hsorted

theorem mem_getMessagesPage (h : getMessagesPage A threadId kReconcilePage s = .ok messages) :
    message ∈ messages ↔ ∃ row, Reaches A s threadId row ∧ message = { row.message with threadId } := by
  cases hopened : A.opened threadId with
  | error e =>
    simp only [getMessagesPage, queryMessages, hopened] at h
    cases h
  | ok u =>
    have hpage : messages = (((newestRows kReconcilePage (s.messages threadId)).filter
        (A.readable threadId ·.id)).map fun row => { row.message with threadId }).reverse := by
      simp only [getMessagesPage, queryMessages, hopened] at h
      exact (Except.ok.inj h).symm
    subst hpage
    simp only [List.mem_reverse, List.mem_map, List.mem_filter, Reaches, hopened, true_and]
    constructor
    · intro ⟨row, hrow, hmessage⟩
      exact ⟨row, hrow, hmessage.symm⟩
    · intro ⟨row, hrow, hmessage⟩
      exact ⟨row, hrow, hmessage.symm⟩

theorem getMessagesPage_of_reaches (h : Reaches A s threadId row) :
    ∃ messages, getMessagesPage A threadId kReconcilePage s = .ok messages := by
  simp only [getMessagesPage, queryMessages, h.1]
  exact ⟨_, rfl⟩

/-- A row of the outbox stays unsettled just if its message is read and is pending or local. -/
theorem isSettled_eq_false_iff (hkeys : s.Keyed) : isSettled A messageId threadId s = false ↔
    ∃ row, Reaches A s threadId row ∧ row.id = messageId ∧
      row.message.delivery ≠ .relayed ∧ row.message.delivery ≠ .failed := by
  unfold isSettled
  cases hpage : getMessagesPage A threadId kReconcilePage s with
  | error e =>
    constructor
    · intro h
      cases h
    · intro ⟨row, hrow, _⟩
      obtain ⟨messages, hmessages⟩ := getMessagesPage_of_reaches hrow
      rw [hpage] at hmessages
      cases hmessages
  | ok messages =>
    dsimp only
    cases hfind : messages.find? (·.id = messageId) with
    | none =>
      rw [List.find?_eq_none] at hfind
      constructor
      · intro h
        cases h
      · intro ⟨row, hrow, hid, _⟩
        have hmem := (mem_getMessagesPage hpage).mpr ⟨row, hrow, rfl⟩
        exact absurd (by simpa [MessageRow.id] using hid) (hfind _ hmem)
    | some message =>
      obtain ⟨first, hfirst, hmessage⟩ := (mem_getMessagesPage hpage).mp (List.mem_of_find?_eq_some hfind)
      have hid : message.id = messageId := by simpa using List.find?_some hfind
      have hfirstId : first.id = messageId := by
        rw [← hid, hmessage]
        rfl
      have hdelivery : message.delivery = first.message.delivery := by rw [hmessage]
      simp only [Bool.or_eq_false_iff, decide_eq_false_iff_not, hdelivery]
      constructor
      · intro h
        exact ⟨first, hfirst, hfirstId, h⟩
      · intro ⟨row, hrow, hrowId, h⟩
        -- a chat has one row of an id
        have hsame : row = first := by
          have hfound := rowOf_of_mem (hkeys.messages threadId) (mem_of_reaches hrow)
          have hfound' := rowOf_of_mem (hkeys.messages threadId) (mem_of_reaches hfirst)
          rw [hrowId] at hfound
          rw [hfirstId] at hfound'
          exact Option.mem_unique hfound hfound'
        rwa [hsame] at h

/-! ## The first half -/

theorem dropSettled_run (pending : String × String) :
    dropSettled A pending ⟨s, []⟩ =
      (.ok (), ⟨{ s with outbox := s.outbox.filter fun row =>
        !(pending.1 = row.messageId && (isSettled A pending.1 pending.2 s && A.removed pending.1)) }, []⟩) := by
  unfold dropSettled
  rw [Writing.bind_apply, Writing.reads_apply]
  dsimp only
  cases hsettled : isSettled A pending.1 pending.2 s with
  | false => simp
  | true =>
    rw [if_pos rfl, Writing.change_apply]
    cases hremoved : A.removed pending.1 with
    | false => simp
    | true =>
      rw [if_pos rfl]
      simp [removeOutboxRow, eq_comm]

theorem dropSettled_forM : ForM.forM pendingRows (dropSettled A) ⟨s, []⟩ =
    (.ok (), ⟨{ s with outbox := s.outbox.filter fun row => !pendingRows.any fun pending =>
      pending.1 = row.messageId && (isSettled A pending.1 pending.2 s && A.removed pending.1) }, []⟩) := by
  induction pendingRows generalizing s with
  | nil => simp
  | cons pending rest ih =>
    rw [List.forM_cons, Writing.bind_apply, dropSettled_run]
    dsimp only
    rw [ih]
    simp only [List.filter_filter, List.any_cons, Bool.not_or]
    -- the rows of the outbox are not what a chat's page is read from
    congr 4
    funext row
    exact Bool.and_comm _ _

theorem mem_listPendingOutbox (h : listPendingOutbox A s = .ok pendingRows) (pending : String × String) :
    pending ∈ pendingRows ↔ pending ∈ s.outbox.map fun row => (row.messageId, row.threadId) := by
  cases hlisted : A.pendingListed with
  | error e =>
    simp only [listPendingOutbox, hlisted] at h
    cases h
  | ok u =>
    simp only [listPendingOutbox, hlisted] at h
    have hrows := Except.ok.inj h
    rw [← hrows]
    exact ((List.perm_insertionSort _ _).map _).mem_iff

/-- Over the listed rows the first half takes out just the dropped ones. -/
theorem firstHalf_run (hkeys : s.Keyed) (h : listPendingOutbox A s = .ok pendingRows) :
    ForM.forM pendingRows (dropSettled A) ⟨s, []⟩ = (.ok (), ⟨settledDropped A s, []⟩) := by
  rw [dropSettled_forM, settledDropped]
  congr 3
  apply List.filter_congr
  intro row hrow
  congr 1
  rw [Bool.eq_iff_iff, List.any_eq_true]
  simp only [Bool.and_eq_true, decide_eq_true_eq]
  constructor
  · intro ⟨pending, hpending, hid, hdropped⟩
    obtain ⟨queued, hqueued, rfl⟩ := List.mem_map.mp ((mem_listPendingOutbox h pending).mp hpending)
    have hsame : queued = row := by
      have hfound := rowOf_of_mem hkeys.outbox hqueued
      rw [show queued.messageId = row.messageId from hid, rowOf_of_mem hkeys.outbox hrow] at hfound
      exact (Option.some.inj hfound).symm
    rw [← hsame]
    simpa [isDropped] using hdropped
  · intro hdropped
    refine ⟨(row.messageId, row.threadId), ?_, rfl, ?_⟩
    · exact (mem_listPendingOutbox h _).mpr (List.mem_map_of_mem hrow)
    · simpa [isDropped] using hdropped

/-! ## The second half -/

/-- The upsert of a message found. -/
def enqueue (A : OutboxAnswers) (now : String → Int) (pair : String × String) : Writing String (ThreadStore C) Unit :=
  Writing.writeIf (A.upserted pair.1) "Failed to upsert outbox row" (·.upsertOutboxRow pair.1 pair.2 (now pair.1))

theorem missingOf_congr (h : s'.messages = s.messages) (thread : CatalogRow) :
    missingOf A s' pendingRows thread = missingOf A s pendingRows thread := by
  simp only [missingOf, getMessagesPage, queryMessages, h]

theorem missingOf_congr_rows {pendingRows' : List (String × String)}
    (h : ∀ pending, pending ∈ pendingRows' ↔ pending ∈ pendingRows) (thread : CatalogRow) :
    missingOf A s pendingRows' thread = missingOf A s pendingRows thread := by
  have hany : ∀ id, pendingRows'.any (·.1 = id) = pendingRows.any (·.1 = id) := by
    intro id
    rw [Bool.eq_iff_iff, List.any_eq_true, List.any_eq_true]
    simp only [h]
  simp only [missingOf, hany]

theorem messages_enqueueAll : (enqueueAll now found s).messages = s.messages := by
  induction found generalizing s with
  | nil => rfl
  | cons pair found ih => exact ih

theorem enqueueThread_run (thread : CatalogRow) : enqueueThread A now pendingRows thread ⟨s, []⟩ =
      ForM.forM (missingOf A s pendingRows thread) (enqueue A now) ⟨s, []⟩ := by
  unfold enqueueThread missingOf
  by_cases hkind : thread.kind ≠ .direct
  · rw [if_pos hkind, if_pos hkind]
    rfl
  · rw [if_neg hkind, if_neg hkind, Writing.bind_apply, Writing.reads_apply]
    dsimp only
    cases getMessagesPage A thread.id kReconcilePage s with
    | error e => rfl
    | ok messages =>
      dsimp only
      rw [List.forM_eq_forM, List.forM_map]
      refine congrFun (Writing.forM_filter fun message _ => ?_) _
      unfold enqueueMissing enqueue StoreMessage.isUnsent
      by_cases hunsent : message.delivery ≠ .pending ∨ ¬ message.relayVisible
      · rw [if_pos hunsent]
        have : (decide (message.delivery = .pending) && message.relayVisible) = false := by
          rcases hunsent with h | h
          · simp [h]
          · simp [h]
        rw [this]
        rfl
      · rw [if_neg hunsent]
        push Not at hunsent
        simp only [hunsent.1, hunsent.2]
        cases pendingRows.any (·.1 = message.id) <;> rfl

theorem enqueueThread_forM (threads : List CatalogRow) : ForM.forM threads (enqueueThread A now pendingRows) ⟨s, []⟩ =
      ForM.forM (threads.flatMap (missingOf A s pendingRows)) (enqueue A now) ⟨s, []⟩ := by
  induction threads generalizing s with
  | nil => rfl
  | cons thread threads ih =>
    rw [List.forM_cons, Writing.bind_apply, enqueueThread_run, List.flatMap_cons, List.forM_append,
      Writing.bind_apply]
    cases hrun : ForM.forM (missingOf A s pendingRows thread) (enqueue A now) ⟨s, []⟩ with
    | mk result d =>
      cases result with
      | error e => rfl
      | ok u =>
        have hd := (Writing.forM_writeIf_ok.mp hrun).2
        have hmessages : d.store.messages = s.messages := by
          rw [hd]
          exact messages_enqueueAll
        have hfailing : d = ⟨d.store, []⟩ := by rw [hd]
        dsimp only
        rw [hfailing, ih]
        rw [funext (missingOf_congr hmessages)]

theorem secondHalf_run (h : listPendingOutbox A s = .ok pendingRows) :
    ForM.forM s.threads (enqueueThread A now pendingRows) ⟨settledDropped A s, []⟩ =
      ForM.forM (missing A s) (enqueue A now) ⟨settledDropped A s, []⟩ := by
  have hmissing : missing A s = s.threads.flatMap (missingOf A (settledDropped A s) pendingRows) := by
    have hsame : ∀ thread, missingOf A (settledDropped A s) pendingRows thread = missingOf A s pendingRows thread :=
      missingOf_congr rfl
    unfold missing
    congr 1
    funext thread
    rw [hsame, missingOf_congr_rows (mem_listPendingOutbox h)]
  rw [enqueueThread_forM, hmissing]

theorem listPendingOutbox_ok (h : A.pendingListed = .ok ()) : ∃ pendingRows, listPendingOutbox A s = .ok pendingRows := by
  simp only [listPendingOutbox, h]
  exact ⟨_, rfl⟩

/-- Where the listings go through a run ends as the upserts do. -/
theorem reconcileOutbox_listed (hkeys : s.Keyed) (hinit : A.initialized = .ok ()) (hlisted : A.pendingListed = .ok ())
    (hthreads : A.threadsListed = .ok ()) : (reconcileOutbox A now).runOn s =
      Writing.runOn (ForM.forM (missing A s) (enqueue A now)) (settledDropped A s) := by
  obtain ⟨pendingRows, hrows⟩ := listPendingOutbox_ok (s := s) hlisted
  have hall : listThreads A (settledDropped A s) = .ok s.threads := by
    simp only [listThreads, hthreads]
    rfl
  unfold reconcileOutbox
  rw [hinit, Writing.runOn_reads_ok (g := fun _ : ThreadStore C => (.ok () : Roe Unit)) rfl,
    Writing.runOn_reads_ok hrows, List.forM_eq_forM, Writing.runOn_bind_ok (firstHalf_run hkeys hrows),
    Writing.runOn_reads_ok hall, List.forM_eq_forM, Writing.runOn, secondHalf_run hrows]
  rfl

theorem listed_of_reconcileOutbox (hkeys : s.Keyed) (h : (reconcileOutbox A now).runOn s = (.ok (), after)) :
    A.initialized = .ok () ∧ A.pendingListed = .ok () ∧ A.threadsListed = .ok () := by
  unfold reconcileOutbox at h
  cases hinit : A.initialized with
  | error e =>
    rw [hinit, Writing.runOn_reads_error (g := fun _ : ThreadStore C => (.error e : Roe Unit)) rfl] at h
    cases h
  | ok u =>
    rw [hinit, Writing.runOn_reads_ok (g := fun _ : ThreadStore C => (.ok u : Roe Unit)) rfl] at h
    cases hlisted : A.pendingListed with
    | error e =>
      have hrows : listPendingOutbox A s = .error e := by
        simp only [listPendingOutbox, hlisted]
        rfl
      rw [Writing.runOn_reads_error hrows] at h
      cases h
    | ok u =>
      obtain ⟨pendingRows, hrows⟩ := listPendingOutbox_ok (s := s) hlisted
      rw [Writing.runOn_reads_ok hrows, List.forM_eq_forM,
        Writing.runOn_bind_ok (firstHalf_run hkeys hrows)] at h
      cases hthreads : A.threadsListed with
      | error e =>
        have hall : listThreads A (settledDropped A s) = .error e := by
          simp only [listThreads, hthreads]
          rfl
        rw [Writing.runOn_reads_error hall] at h
        cases h
      | ok u => exact ⟨rfl, rfl, rfl⟩

theorem reconcileOutbox_ok_iff (hkeys : s.Keyed) : (reconcileOutbox A now).runOn s = (.ok (), after) ↔
    (A.initialized = .ok () ∧ A.pendingListed = .ok () ∧ A.threadsListed = .ok ()) ∧
      (∀ pair ∈ missing A s, A.upserted pair.1 = true) ∧
      after = enqueueAll now (missing A s) (settledDropped A s) := by
  constructor
  · intro h
    have hready := listed_of_reconcileOutbox hkeys h
    rw [reconcileOutbox_listed hkeys hready.1 hready.2.1 hready.2.2] at h
    exact ⟨hready, Writing.runOn_forM_writeIf_ok.mp h⟩
  · intro ⟨hready, hrun⟩
    rw [reconcileOutbox_listed hkeys hready.1 hready.2.1 hready.2.2]
    exact Writing.runOn_forM_writeIf_ok.mpr hrun

end ThreadStore

/-! ## When a reconcile makes the outbox exact -/

namespace ThreadStore

variable {C : Type}

section

variable (A : OutboxAnswers) (s : ThreadStore C)

/-- The outbox has the message, under its chat. -/
def Lists (messageId threadId : String) : Prop :=
  ∃ queued ∈ s.outbox, queued.messageId = messageId ∧ queued.threadId = threadId

/-- The chat stores the message, and it is still to be sent. -/
def Unsent (messageId threadId : String) : Prop :=
  ∃ row ∈ s.messages threadId, row.id = messageId ∧ row.message.isUnsent = true

def OutboxExact : Prop := ∀ messageId threadId, s.Lists messageId threadId ↔ s.Unsent messageId threadId

/-- The first half leaves a row alone: its message is read and neither sent nor
failed, or the row cannot be deleted. -/
def Stays (messageId threadId : String) : Prop :=
  (∃ row, Reaches A s threadId row ∧ row.id = messageId ∧
    row.message.delivery ≠ .relayed ∧ row.message.delivery ≠ .failed) ∨ A.removed messageId = false

/-- When a run makes the outbox exact. -/
structure Reconcilable : Prop where
  /-- The first half keeps the rows of unsent messages, and no others. -/
  kept : ∀ queued ∈ s.outbox, Stays A s queued.messageId queued.threadId ↔ s.Unsent queued.messageId queued.threadId
  /-- A row is under the chat of its message. -/
  housed : ∀ queued ∈ s.outbox, ∀ threadId, s.Unsent queued.messageId threadId → threadId = queued.threadId
  /-- No two chats have an unsent message of one id. -/
  one : ∀ messageId threadId threadId', s.Unsent messageId threadId → s.Unsent messageId threadId' → threadId = threadId'
  /-- An unsent message without a row is in a direct chat, and a read of the chat gives it. -/
  reached : ∀ messageId threadId, s.Unsent messageId threadId → (∀ queued ∈ s.outbox, queued.messageId ≠ messageId) →
    (∃ thread ∈ s.threads, thread.id = threadId ∧ thread.kind = .direct) ∧
      ∃ row, Reaches A s threadId row ∧ row.id = messageId ∧ row.message.isUnsent = true

end

variable {A : OutboxAnswers} {s s' after : ThreadStore C} {now : String → Int}
variable {threadId messageId threadId' messageId' : String} {row : MessageRow C}
variable {found : List (String × String)} {outbox : List OutboxRow}

/-! ## What the outbox lists -/

section

variable (hkeys : DistinctKeys OutboxRow.messageId s.outbox)
include hkeys

theorem lists_upsertOutboxRow (time : Int) : (s.upsertOutboxRow messageId threadId time).Lists messageId' threadId' ↔
      (messageId' = messageId ∧ threadId' = threadId) ∨ (messageId' ≠ messageId ∧ s.Lists messageId' threadId') := by
  unfold Lists upsertOutboxRow
  simp only [mem_put hkeys]
  constructor
  · rintro ⟨queued, hqueued, hid, hthread⟩
    rcases hqueued with rfl | ⟨hmem, hne⟩
    · exact .inl ⟨hid.symm, hthread.symm⟩
    · exact .inr ⟨hid ▸ hne, queued, hmem, hid, hthread⟩
  · intro h
    rcases h with ⟨rfl, rfl⟩ | ⟨hne, queued, hmem, hid, hthread⟩
    · exact ⟨_, .inl rfl, rfl, rfl⟩
    · exact ⟨queued, .inr ⟨hmem, hid ▸ hne⟩, hid, hthread⟩

theorem distinctKeys_enqueueAll : DistinctKeys OutboxRow.messageId (enqueueAll now found s).outbox := by
  induction found generalizing s with
  | nil => exact hkeys
  | cons pair found ih => exact ih (distinctKeys_put hkeys)

theorem lists_enqueueAll_of_not_found (h : ∀ pair ∈ found, pair.1 ≠ messageId) :
    (enqueueAll now found s).Lists messageId threadId ↔ s.Lists messageId threadId := by
  induction found generalizing s with
  | nil => rfl
  | cons pair found ih =>
    have hne : messageId ≠ pair.1 := (h pair List.mem_cons_self).symm
    have hrest := ih (s := s.upsertOutboxRow pair.1 pair.2 (now pair.1)) (distinctKeys_put hkeys)
      fun p hp => h p (List.mem_cons_of_mem _ hp)
    refine hrest.trans ((lists_upsertOutboxRow hkeys _).trans ?_)
    simp [hne]

theorem lists_of_enqueueAll (h : (enqueueAll now found s).Lists messageId threadId) :
    s.Lists messageId threadId ∨ (messageId, threadId) ∈ found := by
  induction found generalizing s with
  | nil => exact .inl h
  | cons pair found ih =>
    rcases ih (s := s.upsertOutboxRow pair.1 pair.2 (now pair.1)) (distinctKeys_put hkeys) h with hlists | hmem
    · rcases (lists_upsertOutboxRow hkeys _).mp hlists with ⟨rfl, rfl⟩ | ⟨_, hlists⟩
      · exact .inr List.mem_cons_self
      · exact .inl hlists
    · exact .inr (List.mem_cons_of_mem _ hmem)

/-- A message found is listed, under one of the chats it was found in. -/
theorem lists_enqueueAll_of_found (h : (messageId, threadId) ∈ found) :
    ∃ threadId', (messageId, threadId') ∈ found ∧ (enqueueAll now found s).Lists messageId threadId' := by
  induction found generalizing s threadId with
  | nil => cases h
  | cons pair found ih =>
    have hkeys' : DistinctKeys OutboxRow.messageId (s.upsertOutboxRow pair.1 pair.2 (now pair.1)).outbox :=
      distinctKeys_put hkeys
    by_cases hlater : ∃ threadId', (messageId, threadId') ∈ found
    · obtain ⟨chat, hchat⟩ := hlater
      obtain ⟨threadId', hfound, hlists⟩ := ih hkeys' hchat
      exact ⟨threadId', List.mem_cons_of_mem _ hfound, hlists⟩
    · -- the last upsert of the message is this one
      have hpair : (messageId, threadId) = pair := by
        rcases List.mem_cons.mp h with heq | hmem
        · exact heq
        · exact absurd ⟨threadId, hmem⟩ hlater
      have hrest : ∀ p ∈ found, p.1 ≠ messageId := by
        intro p hp hid
        exact hlater ⟨p.2, hid ▸ hp⟩
      refine ⟨threadId, h, (lists_enqueueAll_of_not_found hkeys' hrest).mpr ?_⟩
      exact (lists_upsertOutboxRow hkeys _).mpr (.inl ⟨congrArg Prod.fst hpair, congrArg Prod.snd hpair⟩)

end

/-! ## What the halves leave -/

theorem isDropped_eq_false_iff (hkeys : s.Keyed) {queued : OutboxRow} :
    isDropped A s queued = false ↔ Stays A s queued.messageId queued.threadId := by
  rw [isDropped, Bool.and_eq_false_iff, isSettled_eq_false_iff hkeys, Stays]

theorem lists_settledDropped (hkeys : s.Keyed) :
    (settledDropped A s).Lists messageId threadId ↔ s.Lists messageId threadId ∧ Stays A s messageId threadId := by
  unfold Lists settledDropped
  simp only [List.mem_filter, Bool.not_eq_true', isDropped_eq_false_iff hkeys]
  constructor
  · intro ⟨queued, ⟨hmem, hstays⟩, hid, hthread⟩
    subst hid hthread
    exact ⟨⟨queued, hmem, rfl, rfl⟩, hstays⟩
  · intro ⟨⟨queued, hmem, hid, hthread⟩, hstays⟩
    subst hid hthread
    exact ⟨queued, ⟨hmem, hstays⟩, rfl, rfl⟩

/-- The second half finds the unsent messages without a row that a read of a
direct chat gives. -/
theorem mem_missing : (messageId, threadId) ∈ missing A s ↔ (∀ queued ∈ s.outbox, queued.messageId ≠ messageId) ∧
      (∃ thread ∈ s.threads, thread.id = threadId ∧ thread.kind = .direct) ∧
      ∃ row, Reaches A s threadId row ∧ row.id = messageId ∧ row.message.isUnsent = true := by
  unfold missing
  simp only [List.mem_flatMap]
  constructor
  · intro ⟨thread, hthread, hmem⟩
    unfold missingOf at hmem
    by_cases hkind : thread.kind ≠ .direct
    · rw [if_pos hkind] at hmem
      cases hmem
    · rw [if_neg hkind] at hmem
      cases hpage : getMessagesPage A thread.id kReconcilePage s with
      | error e =>
        rw [hpage] at hmem
        cases hmem
      | ok messages =>
        rw [hpage] at hmem
        obtain ⟨message, hmessage, hpair⟩ := List.mem_map.mp hmem
        obtain ⟨hin, hunsent⟩ := List.mem_filter.mp hmessage
        obtain ⟨row, hrow, rfl⟩ := (mem_getMessagesPage hpage).mp hin
        cases hpair
        simp only [Bool.and_eq_true, Bool.not_eq_true', List.any_eq_false, List.mem_map,
          decide_eq_true_eq] at hunsent
        refine ⟨?_, ⟨thread, hthread, rfl, not_not.mp hkind⟩, row, hrow, rfl, hunsent.1⟩
        intro queued hqueued
        exact hunsent.2 _ ⟨queued, hqueued, rfl⟩
  · intro ⟨hfresh, ⟨thread, hthread, hid, hkind⟩, row, hrow, hrowId, hunsent⟩
    subst hid hrowId
    refine ⟨thread, hthread, ?_⟩
    obtain ⟨messages, hpage⟩ := getMessagesPage_of_reaches hrow
    unfold missingOf
    rw [if_neg (not_not.mpr hkind), hpage]
    refine List.mem_map.mpr ⟨{ row.message with threadId := thread.id }, ?_, rfl⟩
    refine List.mem_filter.mpr ⟨(mem_getMessagesPage hpage).mpr ⟨row, hrow, rfl⟩, ?_⟩
    simp only [Bool.and_eq_true, Bool.not_eq_true', List.any_eq_false, List.mem_map, decide_eq_true_eq]
    refine ⟨hunsent, ?_⟩
    intro pending ⟨queued, hqueued, hpending⟩
    rw [← hpending]
    exact hfresh queued hqueued

theorem unsent_of_mem_missing (h : (messageId, threadId) ∈ missing A s) : s.Unsent messageId threadId := by
  obtain ⟨_, _, row, hrow, hid, hunsent⟩ := mem_missing.mp h
  exact ⟨row, mem_of_reaches hrow, hid, hunsent⟩

theorem fresh_of_mem_missing {pair : String × String} (h : pair ∈ missing A s) :
    ∀ queued ∈ s.outbox, queued.messageId ≠ pair.1 :=
  (mem_missing.mp (show (pair.1, pair.2) ∈ missing A s from h)).1

/-! ## The run -/

/-- The store a run that goes through leaves. -/
def reconciled (A : OutboxAnswers) (now : String → Int) (s : ThreadStore C) : ThreadStore C :=
  enqueueAll now (missing A s) (settledDropped A s)

theorem messages_reconciled : (reconciled A now s).messages = s.messages := messages_enqueueAll

theorem unsent_reconciled : (reconciled A now s).Unsent messageId threadId ↔ s.Unsent messageId threadId := by
  rw [Unsent, messages_reconciled, Unsent]

section

variable (hkeys : s.Keyed)
include hkeys

theorem keyed_settledDropped : (settledDropped A s).Keyed :=
  ⟨hkeys.outbox.filter _, hkeys.messages⟩

theorem keyed_reconciled : (reconciled A now s).Keyed := by
  constructor
  · exact distinctKeys_enqueueAll (keyed_settledDropped hkeys).outbox
  · intro threadId
    rw [messages_reconciled]
    exact hkeys.messages threadId

theorem lists_reconciled_of_listed {queued : OutboxRow} (hqueued : queued ∈ s.outbox) :
    (reconciled A now s).Lists queued.messageId threadId ↔
      s.Lists queued.messageId threadId ∧ Stays A s queued.messageId threadId := by
  have hnew : ∀ pair ∈ missing A s, pair.1 ≠ queued.messageId := by
    intro pair hpair hid
    exact fresh_of_mem_missing hpair queued hqueued hid.symm
  exact (lists_enqueueAll_of_not_found (keyed_settledDropped hkeys).outbox hnew).trans (lists_settledDropped hkeys)

theorem lists_reconciled_of_fresh (hfresh : ∀ queued ∈ s.outbox, queued.messageId ≠ messageId)
    (h : (reconciled A now s).Lists messageId threadId) : (messageId, threadId) ∈ missing A s := by
  rcases lists_of_enqueueAll (keyed_settledDropped hkeys).outbox h with hlists | hmem
  · obtain ⟨⟨queued, hqueued, hid, _⟩, _⟩ := (lists_settledDropped hkeys).mp hlists
    exact absurd hid (hfresh queued hqueued)
  · exact hmem

theorem listed_once (h : s.Lists messageId threadId) (h' : s.Lists messageId threadId') : threadId = threadId' := by
  obtain ⟨queued, hqueued, hid, rfl⟩ := h
  obtain ⟨queued', hqueued', hid', rfl⟩ := h'
  have hfound := rowOf_of_mem hkeys.outbox hqueued
  have hfound' := rowOf_of_mem hkeys.outbox hqueued'
  rw [hid] at hfound
  rw [hid'] at hfound'
  rw [Option.mem_unique hfound hfound']

theorem reconcilable_of_exact (h : (reconciled A now s).OutboxExact) : Reconcilable A s := by
  have hexact : ∀ messageId threadId,
      (reconciled A now s).Lists messageId threadId ↔ s.Unsent messageId threadId := by
    intro messageId threadId
    exact (h messageId threadId).trans unsent_reconciled
  constructor
  case kept =>
    intro queued hqueued
    rw [← hexact, lists_reconciled_of_listed hkeys hqueued]
    exact ⟨fun hstays => ⟨⟨queued, hqueued, rfl, rfl⟩, hstays⟩, And.right⟩
  case housed =>
    intro queued hqueued threadId hunsent
    have hlists := (hexact _ _).mpr hunsent
    have hbefore := ((lists_reconciled_of_listed hkeys hqueued).mp hlists).1
    exact listed_once hkeys hbefore ⟨queued, hqueued, rfl, rfl⟩
  case one =>
    intro messageId threadId threadId' hunsent hunsent'
    exact listed_once (keyed_reconciled hkeys) ((hexact _ _).mpr hunsent) ((hexact _ _).mpr hunsent')
  case reached =>
    intro messageId threadId hunsent hfresh
    have hmem := lists_reconciled_of_fresh hkeys hfresh ((hexact _ _).mpr hunsent)
    exact (mem_missing.mp hmem).2

theorem exact_of_reconcilable (h : Reconcilable A s) : (reconciled A now s).OutboxExact := by
  intro messageId threadId
  rw [unsent_reconciled]
  by_cases hlisted : ∃ queued ∈ s.outbox, queued.messageId = messageId
  · obtain ⟨queued, hqueued, rfl⟩ := hlisted
    rw [lists_reconciled_of_listed hkeys hqueued]
    constructor
    · intro ⟨hlists, hstays⟩
      have hchat := listed_once hkeys hlists ⟨queued, hqueued, rfl, rfl⟩
      subst hchat
      exact (h.kept queued hqueued).mp hstays
    · intro hunsent
      have hchat := h.housed queued hqueued threadId hunsent
      subst hchat
      exact ⟨⟨queued, hqueued, rfl, rfl⟩, (h.kept queued hqueued).mpr hunsent⟩
  · push Not at hlisted
    constructor
    · intro hlists
      exact unsent_of_mem_missing (lists_reconciled_of_fresh hkeys hlisted hlists)
    · intro hunsent
      have hmem := mem_missing.mpr ⟨hlisted, h.reached messageId threadId hunsent hlisted⟩
      have hput : ∃ chat, (messageId, chat) ∈ missing A s ∧ (reconciled A now s).Lists messageId chat :=
        lists_enqueueAll_of_found (keyed_settledDropped hkeys).outbox hmem
      obtain ⟨chat, hchat, hlists⟩ := hput
      rw [h.one messageId threadId chat hunsent (unsent_of_mem_missing hchat)]
      exact hlists

end

/-! ## Running again -/

theorem stays_reconciled : Stays A (reconciled A now s) messageId threadId ↔ Stays A s messageId threadId := by
  simp only [Stays, Reaches, messages_reconciled]

theorem stays_of_reconciled (hkeys : s.Keyed) (h : (reconciled A now s).Lists messageId threadId) :
    Stays A s messageId threadId := by
  rcases lists_of_enqueueAll (keyed_settledDropped hkeys).outbox h with hlists | hmem
  · exact ((lists_settledDropped hkeys).mp hlists).2
  · obtain ⟨_, _, row, hrow, hid, hunsent⟩ := mem_missing.mp hmem
    have hpending : row.message.delivery = .pending := by
      simp only [StoreMessage.isUnsent, Bool.and_eq_true, decide_eq_true_eq] at hunsent
      exact hunsent.1
    exact .inl ⟨row, hrow, hid, by simp [hpending]⟩

theorem settledDropped_reconciled (hkeys : s.Keyed) : settledDropped A (reconciled A now s) = reconciled A now s := by
  have hall : (reconciled A now s).outbox.filter (!isDropped A (reconciled A now s) ·) = (reconciled A now s).outbox := by
    rw [List.filter_eq_self]
    intro queued hqueued
    rw [Bool.not_eq_true', isDropped_eq_false_iff (keyed_reconciled hkeys), stays_reconciled]
    exact stays_of_reconciled hkeys ⟨queued, hqueued, rfl, rfl⟩
  rw [settledDropped, hall]

theorem missing_of_exact (h : s.OutboxExact) : missing A s = [] := by
  rw [List.eq_nil_iff_forall_not_mem]
  intro pair hpair
  obtain ⟨queued, hqueued, hid, _⟩ := (h pair.1 pair.2).mpr (unsent_of_mem_missing hpair)
  exact fresh_of_mem_missing hpair queued hqueued hid

/-- After a run that goes through the outbox lists a message just if its chat
stores it still to be sent, and running again changes nothing, if and only if
the first half keeps just the rows of unsent messages and the second half
reaches the others. -/
theorem reconcileOutbox_exact_iff (hkeys : s.Keyed) (hrun : (reconcileOutbox A now).runOn s = (.ok (), after)) :
    (after.OutboxExact ∧ ∀ now', (reconcileOutbox A now').runOn after = (.ok (), after)) ↔ Reconcilable A s := by
  obtain ⟨hlistings, _, hafter⟩ := (reconcileOutbox_ok_iff hkeys).mp hrun
  change after = reconciled A now s at hafter
  subst hafter
  constructor
  · intro h
    exact reconcilable_of_exact hkeys h.1
  · intro h
    have hexact : (reconciled A now s).OutboxExact := exact_of_reconcilable hkeys h
    refine ⟨hexact, ?_⟩
    intro now'
    rw [reconcileOutbox_ok_iff (keyed_reconciled hkeys), missing_of_exact hexact, settledDropped_reconciled hkeys]
    exact ⟨hlistings, by simp, rfl⟩

/-- A chat with one message still to be sent, and the outbox row of it. -/
def unsentChat (kind : CatalogKind) (outbox : List OutboxRow) : ThreadStore Unit where
  messages := fun threadId =>
    if threadId = "t1" then
      [⟨{ id := "m1", threadId := "t1", displayOrder := 1, relayVisible := true, delivery := .pending, content := () }, []⟩]
    else []
  outbox := outbox
  threads := [{ id := "t1", kind }]

theorem keyed_unsentChat {kind : CatalogKind}
    (h : DistinctKeys OutboxRow.messageId outbox) : (unsentChat kind outbox).Keyed := by
  constructor
  · exact h
  · intro threadId
    unfold unsentChat
    dsimp only
    split
    · exact List.pairwise_singleton _ _
    · exact List.Pairwise.nil

theorem unsent_unsentChat {kind : CatalogKind} : (unsentChat kind outbox).Unsent "m1" "t1" :=
  ⟨_, List.mem_singleton_self _, rfl, rfl⟩

theorem exact_unsentChat {kind : CatalogKind} {time : Int} : (unsentChat kind [⟨"m1", "t1", time⟩]).OutboxExact := by
  intro messageId threadId
  constructor
  · intro ⟨queued, hqueued, hid, hthread⟩
    cases List.mem_singleton.mp hqueued
    subst hid hthread
    exact unsent_unsentChat
  · intro ⟨row, hrow, hid, _⟩
    unfold unsentChat at hrow
    dsimp only at hrow
    split at hrow
    · next hthread =>
        cases List.mem_singleton.mp hrow
        exact ⟨_, List.mem_singleton_self _, hid, hthread.symm⟩
    · cases hrow

/-- An unsent message of a direct chat comes into the outbox. -/
theorem reconcileOutbox_exact_sample : Reconcilable {} (unsentChat .direct []) := by
  have hrun : (reconcileOutbox {} fun _ => 7).runOn (unsentChat .direct []) =
      (.ok (), unsentChat .direct [⟨"m1", "t1", 7⟩]) := rfl
  exact (reconcileOutbox_exact_iff (keyed_unsentChat List.Pairwise.nil) hrun).mp ⟨exact_unsentChat, fun _ => rfl⟩

/-- The row of the message is not read: it leaves the outbox, the message stays
pending. -/
theorem unread_row_dropped :
    (unsentChat .direct [⟨"m1", "t1", 7⟩]).Keyed ∧
      (reconcileOutbox { readable := fun _ _ => false } fun _ => 8).runOn (unsentChat .direct [⟨"m1", "t1", 7⟩]) =
        (.ok (), unsentChat .direct []) ∧
      ¬ (unsentChat .direct []).OutboxExact := by
  refine ⟨keyed_unsentChat (List.pairwise_singleton _ _), rfl, ?_⟩
  intro h
  obtain ⟨queued, hqueued, _⟩ := (h "m1" "t1").mpr unsent_unsentChat
  cases hqueued
end ThreadStore

end Pbr
