import Mathlib.Data.List.Dedup
import PpBrowser.Messaging.AttachmentFetchRun

/-!
# LocalDelete — attachments deleted from this device

`DeleteLocalAttachments` beside what goes on meanwhile: sends of files already
held, AI images stored before their message is written, downloads asked for by
a look or a tap. Every part of one of them that holds the lock, or makes one
call on the store, is a section, and the sections of all of them come in any
order; deletes take turns. The thread store and the byte store answer as they
like.
-/

namespace Pbr

/-- The hex of a content hash is of this length (`kAttachmentContentHashSize`). -/
def kAttachmentHashHexSize : Nat := 64

def isContentHash (hash : String) : Bool := hash.length = kAttachmentHashHexSize

/-- A message as a scan reads it: what `MessageContentRefs` finds in it.
`arrived` is the delete a peer's message came in during, which the code does
not keep. -/
structure StoredMessage where
  thread : String
  hashes : List String
  arrived : Option Nat := none
  deriving DecidableEq, Repr

/-- A send of bytes into a chat, or an AI image stored for it. `covered` says
that no delete of the same file of the chat began after its acquire; the code
does not keep it. -/
structure ByteUse where
  thread : String
  hash : String
  image : Bool
  covered : Bool := true
  deriving DecidableEq, Repr

def ByteUse.file (use : ByteUse) : String × String := (use.thread, use.hash)

def ByteUse.message (use : ByteUse) : StoredMessage := { thread := use.thread, hashes := [use.hash] }

/-- A section some thread is to do next. -/
inductive ByteTask where
  /-- `RequestDownload`: its check, its mark taken away, its download. -/
  | request (job : AttachmentJob)
  | clearFor (job : AttachmentJob)
  | fetchFor (job : AttachmentJob)
  /-- `AcquireBytesForSend`, down to `ReleaseBytesForSend`. -/
  | acquire (use : ByteUse)
  | clear (use : ByteUse)
  | store (use : ByteUse)
  | save (use : ByteUse)
  | release (use : ByteUse) (saved : Bool)
  /-- The message of an AI image. -/
  | write (use : ByteUse)
  deriving DecidableEq, Repr

/-- A send's message comes before its bytes, an image's after. -/
def ByteUse.next (use : ByteUse) : ByteTask := if use.image then .save use else .store use

/-- Where `DeleteLocalAttachments` is. -/
inductive DeletePhase where
  | mark
  | look
  | list
  | read (threads : List String)
  | visit (messages : List StoredMessage) (threads : List String)
  | check (hashes : List String)
  | suppress (items : List (String × String))
  | unmark
  | clearSent (sent : List (String × String)) (requests : List AttachmentJob) (jobs : List (AttachmentJob × Bool))
  | requests (requests : List AttachmentJob) (jobs : List (AttachmentJob × Bool))
  | clearRequest (job : AttachmentJob) (requests : List AttachmentJob) (jobs : List (AttachmentJob × Bool))
  | fetchRequest (job : AttachmentJob) (requests : List AttachmentJob) (jobs : List (AttachmentJob × Bool))
  | jobs (jobs : List (AttachmentJob × Bool))
  deriving DecidableEq, Repr

structure DeleteRun where
  number : Nat
  /-- Chat and hash, each once. -/
  items : List (String × String)
  /-- `kept`, and what `HashesUsedElsewhere` has found so far. -/
  kept : List String := []
  /-- Marks taken away while it runs. The code does not keep them. -/
  shown : List (String × String) := []
  phase : DeletePhase := .mark
  deriving DecidableEq, Repr

namespace DeleteRun

variable (run : DeleteRun)

/-- `keys`, for the downloads. -/
def keys : List String := run.items.map fun x => attachmentKey x.1 x.2

/-- `target_hex`. -/
def targets : List String := (run.items.map (·.2)).dedup

end DeleteRun

structure LocalDelete where
  fetch : AttachmentFetch
  messages : List StoredMessage := []
  bytesInUse : String → Nat := fun _ => 0
  deleting : List String := []
  sentDuringDelete : List (String × String) := []
  deferredJobs : List (AttachmentJob × Bool) := []
  deferredRequests : List AttachmentJob := []
  delete : Option DeleteRun := none
  tasks : List ByteTask := []
  nextDelete : Nat := 0
  /-- The files of chats whose message, sent or made here, is stored with its
  bytes and was not among a delete's items since. -/
  held : List (String × String) := []
  /-- The items of deletes, sent or tapped no more since. -/
  removed : List (String × String) := []
  /-- What was deferred, and what of it was called again. -/
  waitedJobs : List (AttachmentJob × Bool) := []
  ranJobs : List (AttachmentJob × Bool) := []
  waitedRequests : List AttachmentJob := []
  ranRequests : List AttachmentJob := []

namespace LocalDelete

variable (s : LocalDelete)

def post (tasks : List ByteTask) : LocalDelete := { s with tasks := s.tasks ++ tasks }

def goTo (run : DeleteRun) (phase : DeletePhase) : LocalDelete := { s with delete := some { run with phase } }

/-! ## Marks and bytes -/

def clearSuppression (file : String × String) : LocalDelete :=
  { s with
    fetch := { s.fetch with suppressed := Function.update s.fetch.suppressed file false }
    removed := s.removed.filter (· ≠ file)
    delete := s.delete.map fun run => { run with shown := file :: run.shown } }

def suppress (file : String × String) : LocalDelete :=
  { s with
    fetch := { s.fetch with suppressed := Function.update s.fetch.suppressed file true }
    removed := file :: s.removed }

def setBytes (hash : String) (stored : Bool) : LocalDelete :=
  { s with fetch := { s.fetch with bytes := Function.update s.fetch.bytes hash stored } }

/-- Asks for a download; the rest of `EnqueueJob` is `AttachmentFetch`'s. -/
def enqueueJob (job : AttachmentJob) (force : Bool) : LocalDelete :=
  { s with fetch := s.fetch.askAll [job] force }

/-! ## Sends, images and requests -/

/-- A task's next section. `ok` is the answer it gets where it asks: whether the
message is found or stored, the bytes saved. -/
def perform (ok : Bool) : ByteTask → LocalDelete
  | .request job =>
    if !ok then s
    else if s.deleting.contains job.hash then
      { s with deferredRequests := s.deferredRequests ++ [job], waitedRequests := s.waitedRequests ++ [job] }
    else s.post [.clearFor job]
  | .clearFor job => (s.clearSuppression job.file).post [.fetchFor job]
  | .fetchFor job => if s.fetch.bytes job.hash then s else s.enqueueJob job true
  | .acquire use =>
    if isContentHash use.hash then
      { s with
        bytesInUse := Function.update s.bytesInUse use.hash (s.bytesInUse use.hash + 1)
        sentDuringDelete :=
          if s.deleting.contains use.hash then s.sentDuringDelete ++ [use.file]
          else s.sentDuringDelete }.post [.clear { use with covered := true }]
    else s.post [ByteUse.next { use with covered := false }]
  | .clear use => (s.clearSuppression use.file).post [use.next]
  | .store use =>
    if ok then
      { s with messages := s.messages ++ [use.message] }.post [.save use]
    else s.post [.release use false]
  | .save use =>
    if ok then
      { s.setBytes use.hash true with
        held := if use.covered && !use.image then use.file :: s.held else s.held }.post
        [.release use true]
    else s.post [.release use false]
  | .release use saved =>
    { s with
      bytesInUse :=
        if isContentHash use.hash then Function.update s.bytesInUse use.hash (s.bytesInUse use.hash - 1)
        else s.bytesInUse }.post (if use.image && saved then [.write use] else [])
  | .write use =>
    if ok then
      { s with
        messages := s.messages ++ [use.message]
        held := if use.covered then use.file :: s.held else s.held }
    else s

/-! ## The delete -/

/-- Tasks of a use acquired before a delete of its file began. -/
def uncover (items : List (String × String)) : ByteTask → ByteTask
  | .clear use => .clear { use with covered := use.covered && !items.contains use.file }
  | .store use => .store { use with covered := use.covered && !items.contains use.file }
  | .save use => .save { use with covered := use.covered && !items.contains use.file }
  | .release use saved => .release { use with covered := use.covered && !items.contains use.file } saved
  | .write use => .write { use with covered := use.covered && !items.contains use.file }
  | task => task

/-- What a message keeps of the bytes to be deleted. -/
def usedBy (run : DeleteRun) (message : StoredMessage) : List String :=
  message.hashes.filter fun hash =>
    run.targets.contains hash && !run.items.contains (message.thread, hash) &&
      !s.fetch.suppressed (message.thread, hash)

/-- The next section of `DeleteLocalAttachments`. -/
def performDelete (run : DeleteRun) (ok : Bool) : LocalDelete :=
  match run.phase with
  | .mark =>
    { s with
      deleting := run.targets
      fetch := s.fetch.cancelJobs run.keys
      tasks := s.tasks.map (uncover run.items)
      held := s.held.filter (!run.items.contains ·) }.goTo run .look
  | .look => s.goTo { run with kept := run.targets.filter (s.bytesInUse · ≠ 0) } .list
  | .list =>
    if ok then s.goTo run (.read (s.messages.map (·.thread)).dedup)
    else s.goTo { run with kept := run.targets } (.check run.targets)
  | .read [] => s.goTo run (.check run.targets)
  | .read (thread :: threads) =>
    if ok then s.goTo run (.visit (s.messages.filter (·.thread = thread)).reverse threads)
    else s.goTo { run with kept := run.targets } (.check run.targets)
  | .visit [] threads => s.goTo run (.read threads)
  | .visit (message :: messages) threads =>
    s.goTo { run with kept := run.kept ++ s.usedBy run message } (.visit messages threads)
  | .check [] => s.goTo run (.suppress run.items)
  | .check (hash :: hashes) =>
    if run.kept.contains hash then s.goTo run (.check hashes)
    else if s.bytesInUse hash ≠ 0 || s.sentDuringDelete.any (·.2 = hash) then
      s.goTo { run with kept := run.kept ++ [hash] } (.check hashes)
    else (s.setBytes hash false).goTo run (.check hashes)
  | .suppress [] => s.goTo run .unmark
  | .suppress (item :: items) => (s.suppress item).goTo run (.suppress items)
  | .unmark =>
    { s with
      deleting := []
      sentDuringDelete := []
      deferredJobs := []
      deferredRequests := [] }.goTo run (.clearSent s.sentDuringDelete s.deferredRequests s.deferredJobs)
  | .clearSent [] requests jobs => s.goTo run (.requests requests jobs)
  | .clearSent (item :: sent) requests jobs =>
    (s.clearSuppression item).goTo { run with shown := item :: run.shown } (.clearSent sent requests jobs)
  | .requests [] jobs => s.goTo run (.jobs jobs)
  | .requests (job :: requests) jobs =>
    let s := { s with ranRequests := s.ranRequests ++ [job] }
    if !ok then s.goTo run (.requests requests jobs)
    else if s.deleting.contains job.hash then
      { s with
        deferredRequests := s.deferredRequests ++ [job]
        waitedRequests := s.waitedRequests ++ [job] }.goTo run (.requests requests jobs)
    else s.goTo run (.clearRequest job requests jobs)
  | .clearRequest job requests jobs =>
    (s.clearSuppression job.file).goTo { run with shown := job.file :: run.shown } (.fetchRequest job requests jobs)
  | .fetchRequest job requests jobs =>
    if s.fetch.bytes job.hash then s.goTo run (.requests requests jobs)
    else (s.enqueueJob job true).goTo run (.requests requests jobs)
  | .jobs [] => { s with delete := none }
  | .jobs ((job, force) :: jobs) =>
    ({ s with ranJobs := s.ranJobs ++ [(job, force)] }.enqueueJob job force).goTo run (.jobs jobs)

/-! ## Steps -/

inductive Step where
  /-- A step of the downloads. -/
  | fetch (step : AttachmentFetch.Step)
  | requestDownload (job : AttachmentJob)
  | send (thread hash : String)
  | storeLocalImage (thread hash : String)
  /-- A message comes from a peer. -/
  | receive (thread : String) (hashes : List String)
  | run (task : ByteTask) (ok : Bool)
  /-- `DeleteLocalAttachments` has its turn, where no other delete runs. -/
  | deleteLocalAttachments (items : List (String × String))
  | delete (ok : Bool)
  deriving DecidableEq, Repr

/-- The items a delete takes: a chat, a content hash, each once. -/
def takenItems (items : List (String × String)) : List (String × String) :=
  (items.filter fun x => x.1 ≠ "" && isContentHash x.2).dedup

def step (s : LocalDelete) : Step → LocalDelete
  | .fetch (.run (.enqueue job force) ok answer) =>
    if .enqueue job force ∈ s.fetch.tasks ∧ s.deleting.contains job.hash then
      { s with
        fetch := { s.fetch with tasks := s.fetch.tasks.erase (.enqueue job force) }
        deferredJobs := s.deferredJobs ++ [(job, force)]
        waitedJobs := s.waitedJobs ++ [(job, force)] }
    else { s with fetch := s.fetch.step (.run (.enqueue job force) ok answer) }
  -- marks are set by the sections below, and by a download that spent its last try
  | .fetch (.setSuppressed _ _) => s
  | .fetch step => { s with fetch := s.fetch.step step }
  | .requestDownload job => s.post [.request job]
  | .send thread hash => s.post [.acquire { thread, hash, image := false }]
  | .storeLocalImage thread hash => s.post [.acquire { thread, hash, image := true }]
  | .receive thread hashes =>
    { s with messages := s.messages ++ [StoredMessage.mk thread hashes (s.delete.map (·.number))] }
  | .run task ok =>
    if task ∈ s.tasks then { s with tasks := s.tasks.erase task }.perform ok task else s
  | .deleteLocalAttachments items =>
    if s.delete = none ∧ takenItems items ≠ [] then
      { s with
        delete := some { number := s.nextDelete, items := takenItems items }
        nextDelete := s.nextDelete + 1 }
    else s
  | .delete ok =>
    match s.delete with
    | none => s
    | some run => s.performDelete run ok

end LocalDelete
/-! ## Who needs a file's bytes -/

namespace AttachmentFetch

variable {s : AttachmentFetch} {job : AttachmentJob} {task : AttachmentTask} {ok : Bool} {answer : FetchAnswer}

/-! ## What downloads do to bytes and marks -/

/-- The board of a download, without bytes and marks. -/
structure SameStore (s t : AttachmentFetch) : Prop where
  bytes : t.bytes = s.bytes
  suppressed : t.suppressed = s.suppressed

theorem sameStore_foldl (held : List (AttachmentJob × AutoVerdict)) (s : AttachmentFetch) :
    s.SameStore (held.foldl (fun s x => s.holdBackJob x.1 x.2) s) := by
  obtain ⟨pending, waitingForNetwork, hfold⟩ := foldl_holdBackJob held s
  rw [hfold]
  exact ⟨rfl, rfl⟩

theorem sameStore_drain : s.SameStore s.drain := by
  unfold drain
  have hfold := sameStore_foldl (s.drainScan s.queue).2.2 { s with queue := (s.drainScan s.queue).2.1 }
  dsimp only
  split
  · exact ⟨hfold.bytes, hfold.suppressed⟩
  · exact ⟨hfold.bytes, hfold.suppressed⟩

theorem sameStore_holdBackJob {verdict : AutoVerdict} : s.SameStore (s.holdBackJob job verdict) :=
  sameStore_foldl [(job, verdict)] s

theorem sameStore_runLaneJob : s.SameStore (s.runLaneJob job) := by
  unfold runLaneJob
  split_ifs
  · have hhold := @sameStore_holdBackJob { s with active := Function.update s.active job.key none }
      job (s.autoVerdict job)
    exact ⟨hhold.bytes, hhold.suppressed⟩
  · exact ⟨rfl, rfl⟩

/-- A section writes bytes where it keeps or takes back what a fetch brought, and
marks a file where a download was spent. -/
theorem sameStore_perform (hkeep : ∀ job drains, task ≠ .keep job drains)
    (hback : ∀ job drains, task ≠ .takeBack job drains) (hhold : ∀ job drains, task ≠ .holdBack job drains) :
    s.SameStore (s.perform ok answer task) := by
  cases task with
  | keep job drains => exact absurd rfl (hkeep job drains)
  | takeBack job drains => exact absurd rfl (hback job drains)
  | holdBack job drains => exact absurd rfl (hhold job drains)
  | drain => exact sameStore_drain
  | lane job => exact sameStore_runLaneJob
  | admitJob job force =>
    dsimp only [perform, admitJob]
    split_ifs <;> exact ⟨rfl, rfl⟩
  | judge job =>
    dsimp only [perform]
    split <;> exact ⟨rfl, rfl⟩
  | markPending key =>
    dsimp only [perform, setPending]
    split_ifs <;> exact ⟨rfl, rfl⟩
  | taken job rejudged =>
    dsimp only [perform, launch]
    split_ifs <;> exact ⟨rfl, rfl⟩
  | finish job drains answer =>
    dsimp only [perform]
    split_ifs
    · exact ⟨rfl, rfl⟩
    · split <;> exact ⟨rfl, rfl⟩
  | enqueue job force | sized job force | asked job force | offNetwork job | look job verdict
  | charge job | refund job | kickDrain | saved job drains =>
    dsimp only [perform]
    split_ifs <;> exact ⟨rfl, rfl⟩
  | throttle job | refused job | fetch job drains | markFailed job drains | markReady job drains =>
    exact ⟨rfl, rfl⟩

theorem sameStore_askAll (jobs : List AttachmentJob) (force : Bool) : s.SameStore (s.askAll jobs force) := by
  obtain ⟨new, nextCall, hask, -⟩ := askAll_eq jobs force s
  rw [hask]
  exact ⟨rfl, rfl⟩

variable {step : Step}

theorem sameStore_step (hkeep : ∀ job drains ok answer, step ≠ .run (.keep job drains) ok answer)
    (hback : ∀ job drains ok answer, step ≠ .run (.takeBack job drains) ok answer)
    (hhold : ∀ job drains ok answer, step ≠ .run (.holdBack job drains) ok answer)
    (hnot : ∀ file suppressed, step ≠ .setSuppressed file suppressed) : s.SameStore (s.step step) := by
  cases step with
  | run task ok answer =>
    dsimp only [AttachmentFetch.step]
    split_ifs
    · have hsame : ({ s with tasks := s.tasks.erase task } : AttachmentFetch).SameStore
          (({ s with tasks := s.tasks.erase task } : AttachmentFetch).perform ok answer task) := by
        apply sameStore_perform
        · exact fun job drains htask => hkeep job drains ok answer (htask ▸ rfl)
        · exact fun job drains htask => hback job drains ok answer (htask ▸ rfl)
        · exact fun job drains htask => hhold job drains ok answer (htask ▸ rfl)
      exact ⟨hsame.bytes, hsame.suppressed⟩
    · exact ⟨rfl, rfl⟩
  | ask job force => exact sameStore_askAll [job] force
  | setAutoAllowedOnNetwork allowed =>
    dsimp only [AttachmentFetch.step]
    split_ifs
    · exact ⟨(sameStore_askAll _ _).bytes, (sameStore_askAll _ _).suppressed⟩
    · exact ⟨rfl, rfl⟩
  | cancel keys | setDownloadPolicy policy | setLimits limits => exact ⟨rfl, rfl⟩
  | setSuppressed file suppressed => exact absurd rfl (hnot file suppressed)

theorem step_bytes {hash : String} (hbytes : s.bytes hash = true) : (s.step step).bytes hash = true ∨
    ∃ job drains ok answer, step = .run (.takeBack job drains) ok answer ∧ job.hash = hash := by
  cases step with
  | run task ok answer =>
    cases task with
    | keep job drains =>
      left
      dsimp only [AttachmentFetch.step, perform]
      split_ifs
      · show Function.update s.bytes job.hash true hash = true
        rw [Function.update_apply, hbytes, ite_self]
      · exact hbytes
      · exact hbytes
    | takeBack job drains =>
      by_cases hsame : job.hash = hash
      · exact .inr ⟨job, drains, ok, answer, rfl, hsame⟩
      · left
        dsimp only [AttachmentFetch.step, perform]
        split_ifs
        · show Function.update s.bytes job.hash false hash = true
          rw [Function.update_of_ne (Ne.symm hsame)]
          exact hbytes
        · exact hbytes
    | holdBack job drains =>
      left
      dsimp only [AttachmentFetch.step]
      split_ifs <;> exact hbytes
    | _ =>
      left
      rw [(sameStore_step (by simp) (by simp) (by simp) (by simp)).bytes]
      exact hbytes
  | setSuppressed file suppressed => exact .inl hbytes
  | _ =>
    left
    rw [(sameStore_step (by simp) (by simp) (by simp) (by simp)).bytes]
    exact hbytes

/-- Downloads set marks and take none away. -/
theorem step_suppressed (hnot : ∀ file suppressed, step ≠ .setSuppressed file suppressed) (file : String × String) :
    (s.step step).suppressed file = s.suppressed file ∨ (s.step step).suppressed file = true ∧
      ∃ job drains ok answer, step = .run (.holdBack job drains) ok answer ∧ job.file = file := by
  cases step with
  | run task ok answer =>
    cases task with
    | holdBack job drains =>
      dsimp only [AttachmentFetch.step, perform]
      split_ifs with hin hurl
      · by_cases hsame : file = job.file
        · subst hsame
          exact .inr ⟨Function.update_self .., job, drains, ok, answer, rfl, rfl⟩
        · exact .inl (Function.update_of_ne hsame ..)
      · exact .inl rfl
      · exact .inl rfl
    | keep job drains | takeBack job drains =>
      left
      dsimp only [AttachmentFetch.step, perform]
      split_ifs <;> rfl
    | _ => exact .inl (congrFun (sameStore_step (by simp) (by simp) (by simp) (by simp)).suppressed file)
  | setSuppressed file suppressed => exact absurd rfl (hnot file suppressed)
  | _ => exact .inl (congrFun (sameStore_step (by simp) (by simp) (by simp) (by simp)).suppressed file)

end AttachmentFetch

/-! ## What is needed -/

namespace ByteTask

/-- The use a task holds, from its acquire on. -/
def uses : ByteTask → List ByteUse
  | .clear use | .store use | .save use | .release use _ | .write use => [use]
  | _ => []

/-- The use a task holds, once its chat's mark is taken away. -/
def cleared : ByteTask → List ByteUse
  | .store use | .save use | .release use _ | .write use => [use]
  | _ => []

/-- An image whose bytes are stored. -/
def saved : ByteTask → List ByteUse
  | .release use true => if use.image then [use] else []
  | .write use => [use]
  | _ => []

/-- A send that has stored its message. -/
def sent : ByteTask → List ByteUse
  | .save use => if use.image then [] else [use]
  | _ => []

/-- What a task counts as in use. -/
def inUse : ByteTask → List String
  | .clear use | .store use | .save use | .release use _ => if isContentHash use.hash then [use.hash] else []
  | _ => []

/-- The bytes of an image whose message is not written. -/
def writes : ByteTask → List String
  | .write use => [use.hash]
  | _ => []

/-- The file of a tap past its check. -/
def clears : ByteTask → List (String × String)
  | .clearFor job => [job.file]
  | _ => []

end ByteTask

namespace DeletePhase

/-- From its mark to its unmark. -/
def marked : DeletePhase → Bool
  | .look | .list | .read _ | .visit _ _ | .check _ | .suppress _ | .unmark => true
  | _ => false

/-- From its look at what is in use until the bytes are gone. -/
def looked : DeletePhase → Bool
  | .list | .read _ | .visit _ _ | .check _ => true
  | _ => false

/-- The messages the scan is still to come to. -/
def Sees : DeletePhase → StoredMessage → Prop
  | .list, _ => True
  | .read threads, message => message.thread ∈ threads
  | .visit messages threads, message => message ∈ messages ∨ message.thread ∈ threads
  | _, _ => False

/-- The items not marked yet. -/
def unsuppressed (items : List (String × String)) : DeletePhase → List (String × String)
  | .mark | .look | .list | .read _ | .visit _ _ | .check _ => items
  | .suppress items => items
  | _ => []

/-- What it is still to check and to mark is its own. -/
def Within (run : DeleteRun) : DeletePhase → Prop
  | .check hashes => ∀ hash ∈ hashes, hash ∈ run.targets
  | .suppress items => ∀ file ∈ items, file ∈ run.items
  | _ => True

/-- What was sent while it ran and is to be shown again. -/
def sent : DeletePhase → List (String × String)
  | .clearSent sent _ _ => sent
  | _ => []

/-- What waited and is to be called again. -/
def requestsLeft : DeletePhase → List AttachmentJob
  | .clearSent _ waiting _ | .requests waiting _ | .clearRequest _ waiting _ | .fetchRequest _ waiting _ => waiting
  | _ => []

def jobsLeft : DeletePhase → List (AttachmentJob × Bool)
  | .clearSent _ _ waiting | .requests _ waiting | .clearRequest _ _ waiting | .fetchRequest _ _ waiting
  | .jobs waiting => waiting
  | _ => []

end DeletePhase

namespace LocalDelete

open Lib

variable {s t : LocalDelete} {run : DeleteRun} {task : ByteTask} {ok : Bool} {hash : String}

/-- The items of the delete that runs, from its mark to its unmark. -/
def markedItems (s : LocalDelete) : List (String × String) :=
  match s.delete with
  | some run => if run.phase.marked then run.items else []
  | none => []

/-- What came from a peer while the delete ran. -/
def leftAside (s : LocalDelete) (message : StoredMessage) : Bool :=
  match s.delete with
  | some run => message.arrived = some run.number
  | none => false

/-- What was sent while a delete ran, until it is shown again. -/
def pendingClear (s : LocalDelete) : List (String × String) :=
  s.sentDuringDelete ++ (match s.delete with
    | some run => run.phase.sent
    | none => [])

/-- A send or a store uses the bytes, or came while the delete ran, or a message
outside the items refers to them, not suppressed in its chat. -/
def Needed (s : LocalDelete) (hash : String) : Prop :=
  s.bytesInUse hash ≠ 0 ∨ hash ∈ s.tasks.flatMap (·.writes) ∨ (∃ file ∈ s.pendingClear, file.2 = hash) ∨
    ∃ message ∈ s.messages, hash ∈ message.hashes ∧ s.fetch.suppressed (message.thread, hash) = false ∧
      (message.thread, hash) ∉ s.markedItems ∧ s.leftAside message = false

instance (s : LocalDelete) (hash : String) : Decidable (s.Needed hash) := by
  unfold Needed
  infer_instance

def requestsLeft (s : LocalDelete) : List AttachmentJob :=
  match s.delete with
  | some run => run.phase.requestsLeft
  | none => []

def jobsLeft (s : LocalDelete) : List (AttachmentJob × Bool) :=
  match s.delete with
  | some run => run.phase.jobsLeft
  | none => []

/-! ## What runs are asked to keep -/

/-- No tap is past its check when a delete of its file's bytes begins, no image
is released and not written when the delete looks, no fetch takes bytes back
that are needed, and none that failed marks a file a send or an image put in
its chat. -/
def Orderly (s : LocalDelete) : Step → Prop
  | .delete _ =>
    match s.delete with
    | none => True
    | some run =>
      match run.phase with
      | .mark => ∀ task ∈ s.tasks, ∀ file ∈ task.clears, file.2 ∉ run.targets
      | .look => ∀ task ∈ s.tasks, ∀ hash ∈ task.writes, hash ∉ run.targets
      | _ => True
  | .fetch (.run (.takeBack job _) _ _) => ¬ s.Needed job.hash
  | .fetch (.run (.holdBack job _) _ _) =>
    job.file ∉ s.held ∧ ∀ task ∈ s.tasks, ∀ use ∈ task.uses, use.file ≠ job.file
  | _ => True

instance (step : Step) : Decidable (s.Orderly step) := by
  unfold Orderly
  split
  · split
    · infer_instance
    · split <;> infer_instance
  all_goals infer_instance

/-- What was sent or made here has its bytes, what was deleted is suppressed,
and what waited for a delete is called again once. -/
structure Sound (s : LocalDelete) : Prop where
  held : ∀ file ∈ s.held, s.fetch.bytes file.2 = true
  removed : ∀ file ∈ s.removed, s.fetch.suppressed file = true
  finished : ∀ run, s.delete = some run → ∀ file ∈ run.items,
    file ∈ run.phase.unsuppressed run.items ∨ file ∈ s.removed ∨ file ∈ run.shown
  jobs : s.waitedJobs = s.ranJobs ++ s.jobsLeft ++ s.deferredJobs
  requests : s.waitedRequests = s.ranRequests ++ s.requestsLeft ++ s.deferredRequests
  none : s.delete = none → s.deferredJobs = [] ∧ s.deferredRequests = []

/-- A send, an image or a tap shows a file again. -/
def Shows (s : LocalDelete) (step : Step) (file : String × String) : Prop :=
  (∃ use ok, step = .run (.clear use) ok ∧ use.file = file) ∨
    (∃ job ok, step = .run (.clearFor job) ok ∧ job.file = file) ∨
    ∃ run ok, s.delete = some run ∧ step = .delete ok ∧
      ((∃ sent requests jobs, run.phase = .clearSent (file :: sent) requests jobs) ∨
        ∃ job requests jobs, run.phase = .clearRequest job requests jobs ∧ job.file = file)

/-- What a step frees and shows. -/
structure Keeps (s : LocalDelete) (step : Step) (after : LocalDelete) : Prop where
  frees : ∀ hash, s.fetch.bytes hash = true → after.fetch.bytes hash = false → ¬ s.Needed hash
  held : ∀ file ∈ s.held, file ∈ after.held ∨
    ∃ run ok, s.delete = some run ∧ run.phase = .mark ∧ step = .delete ok ∧ file ∈ run.items
  removed : ∀ file ∈ s.removed, file ∈ after.removed ∨ s.Shows step file

/-! ## The invariant -/

/-- What is counted as in use is what the tasks hold, and the lists of a delete
are its items'. -/
structure Counted (s : LocalDelete) : Prop where
  inUse : ∀ hash, s.bytesInUse hash = (s.tasks.flatMap (·.inUse)).count hash
  deleting : ∀ hash, hash ∈ s.deleting ↔ ∃ file ∈ s.markedItems, file.2 = hash
  idle : s.deleting = [] → s.sentDuringDelete = [] ∧ s.deferredJobs = [] ∧ s.deferredRequests = []
  content : ∀ run, s.delete = some run → ∀ file ∈ run.items, isContentHash file.2 = true
  clears : ∀ task ∈ s.tasks, ∀ file ∈ task.clears, file.2 ∉ s.deleting
  within : ∀ run, s.delete = some run → run.phase.Within run

/-- A target not kept so far: it came while the delete ran, or nothing uses it
and the messages that need it are still to be scanned. -/
def Covers (s : LocalDelete) (run : DeleteRun) (hash : String) : Prop :=
  (∃ file ∈ s.sentDuringDelete, file.2 = hash) ∨
    (∀ task ∈ s.tasks, ∀ use ∈ task.uses, use.hash ≠ hash) ∧
      ∀ message ∈ s.messages, hash ∈ message.hashes → (message.thread, hash) ∈ run.items ∨
        s.fetch.suppressed (message.thread, hash) = true ∨ message.arrived = some run.number ∨ run.phase.Sees message

def Scanned (s : LocalDelete) : Prop :=
  ∀ run, s.delete = some run → run.phase.looked = true → ∀ hash ∈ run.targets, hash ∉ run.kept → s.Covers run hash

/-- A file's chat shows it, or will at the end of the delete it came during. -/
structure Shown (s : LocalDelete) (file : String × String) : Prop where
  unmarked : file ∈ s.pendingClear ∨ file ∉ s.markedItems
  shown : file ∈ s.pendingClear ∨ s.fetch.suppressed file = false

/-- The message of a send or an image is stored. -/
def Written (s : LocalDelete) (file : String × String) : Prop :=
  ∃ message ∈ s.messages, message.thread = file.1 ∧ file.2 ∈ message.hashes ∧ message.arrived = none

/-- What a task of a send or an image has done so far stands. -/
structure Tended (s : LocalDelete) (task : ByteTask) : Prop where
  acquired : ∀ use ∈ task.uses, use.covered = true → use.file ∈ s.pendingClear ∨ use.file ∉ s.markedItems
  cleared : ∀ use ∈ task.cleared, use.covered = true →
    use.file ∈ s.pendingClear ∨ s.fetch.suppressed use.file = false
  sent : ∀ use ∈ task.sent, s.Written use.file
  saved : ∀ use ∈ task.saved, use.covered = true → s.fetch.bytes use.hash = true
  content : ∀ use ∈ task.uses, use.covered = true → isContentHash use.hash = true

/-- What sends and images have put in a chat, with their bytes. -/
structure Holds (s : LocalDelete) : Prop where
  held : ∀ file ∈ s.held, s.fetch.bytes file.2 = true ∧ s.Written file ∧ s.Shown file
  tended : ∀ task ∈ s.tasks, s.Tended task

/-- What is deleted is suppressed, what waits is called again. -/
structure Waits (s : LocalDelete) : Prop where
  removed : ∀ file ∈ s.removed, s.fetch.suppressed file = true
  finished : ∀ run, s.delete = some run → ∀ file ∈ run.items,
    file ∈ run.phase.unsuppressed run.items ∨ file ∈ s.removed ∨ file ∈ run.shown
  jobs : s.waitedJobs = s.ranJobs ++ s.jobsLeft ++ s.deferredJobs
  requests : s.waitedRequests = s.ranRequests ++ s.requestsLeft ++ s.deferredRequests

/-- The invariant of a run. -/
structure Ordered (s : LocalDelete) : Prop where
  counted : s.Counted
  scanned : s.Scanned
  holds : s.Holds
  waits : s.Waits

/-! ## Steps that leave the delete where it is -/

/-- The delete is where it was, but for marks taken away. -/
def SameDelete (s t : LocalDelete) : Prop :=
  ∃ f : List (String × String) → List (String × String), (∀ files, ∀ file ∈ files, file ∈ f files) ∧
    t.delete = s.delete.map fun run => { run with shown := f run.shown }

theorem SameDelete.of_eq (h : t.delete = s.delete) : s.SameDelete t := by
  refine ⟨id, fun _ _ hfile => hfile, ?_⟩
  rw [h]
  cases s.delete <;> rfl

section

variable (h : s.SameDelete t)
include h

theorem SameDelete.before {run' : DeleteRun} (hrun : t.delete = some run') :
    ∃ run, s.delete = some run ∧ run'.number = run.number ∧ run'.items = run.items ∧ run'.kept = run.kept ∧
      run'.phase = run.phase ∧ ∀ file ∈ run.shown, file ∈ run'.shown := by
  obtain ⟨f, hmore, hdelete⟩ := h
  rw [hrun] at hdelete
  cases hs : s.delete with
  | none => simp [hs] at hdelete
  | some run =>
    rw [hs, Option.map_some, Option.some_inj] at hdelete
    subst hdelete
    exact ⟨run, rfl, rfl, rfl, rfl, rfl, hmore run.shown⟩

theorem SameDelete.within (hwithin : ∀ run, s.delete = some run → run.phase.Within run) :
    ∀ run, t.delete = some run → run.phase.Within run := by
  intro run' hrun'
  obtain ⟨run, hrun, -, hitems, -, hphase, -⟩ := h.before hrun'
  have hold := hwithin run hrun
  rw [hphase]
  cases hwhere : run.phase <;> simp_all [DeletePhase.Within, DeleteRun.targets]

theorem SameDelete.markedItems : t.markedItems = s.markedItems := by
  obtain ⟨f, -, hdelete⟩ := h
  unfold LocalDelete.markedItems
  rw [hdelete]
  cases s.delete <;> rfl

theorem SameDelete.requestsLeft : t.requestsLeft = s.requestsLeft := by
  obtain ⟨f, -, hdelete⟩ := h
  unfold LocalDelete.requestsLeft
  rw [hdelete]
  cases s.delete <;> rfl

theorem SameDelete.jobsLeft : t.jobsLeft = s.jobsLeft := by
  obtain ⟨f, -, hdelete⟩ := h
  unfold LocalDelete.jobsLeft
  rw [hdelete]
  cases s.delete <;> rfl

theorem SameDelete.mem_pendingClear (hsent : ∀ file ∈ s.sentDuringDelete, file ∈ t.sentDuringDelete)
    {file : String × String} (hfile : file ∈ s.pendingClear) : file ∈ t.pendingClear := by
  obtain ⟨f, -, hdelete⟩ := h
  unfold LocalDelete.pendingClear at hfile ⊢
  rw [hdelete]
  rw [List.mem_append] at hfile ⊢
  rcases hfile with hfile | hfile
  · exact .inl (hsent file hfile)
  · right
    cases hs : s.delete with
    | none => simp [hs] at hfile
    | some run =>
      rw [hs] at hfile
      exact hfile

end

theorem sameDelete_clearSuppression (file : String × String) : s.SameDelete (s.clearSuppression file) :=
  ⟨fun files => file :: files, fun _ _ hfile => List.mem_cons_of_mem _ hfile, rfl⟩

theorem mem_deleting_of_looked (h : s.Counted) (hrun : s.delete = some run) (hlooked : run.phase.looked = true)
    (hhash : hash ∈ run.targets) : hash ∈ s.deleting := by
  have hmarked : run.phase.marked = true := by
    cases hphase : run.phase <;> simp_all [DeletePhase.looked, DeletePhase.marked]
  have hitems : s.markedItems = run.items := by
    unfold markedItems
    rw [hrun]
    exact if_pos hmarked
  obtain ⟨file, hfile, hsame⟩ := List.mem_map.mp (List.mem_dedup.mp hhash)
  exact (h.deleting hash).mpr ⟨file, hitems ▸ hfile, hsame⟩

theorem Counted.content_of_mem (h : s.Counted) (hdeleting : hash ∈ s.deleting) : isContentHash hash = true := by
  obtain ⟨file, hfile, rfl⟩ := (h.deleting hash).mp hdeleting
  unfold markedItems at hfile
  cases hrun : s.delete with
  | none => simp [hrun] at hfile
  | some run =>
    rw [hrun] at hfile
    dsimp only at hfile
    split_ifs at hfile
    · exact h.content run hrun file hfile
    · cases hfile

theorem Covers.mono (h : s.Covers run hash) (hsent : ∀ file ∈ s.sentDuringDelete, file ∈ t.sentDuringDelete)
    (htasks : ∀ x ∈ t.tasks, x ∈ s.tasks ∨ ∀ use ∈ x.uses, use.hash ≠ hash)
    (hmessages : ∀ message ∈ t.messages, message ∈ s.messages ∨ hash ∉ message.hashes ∨
      message.arrived = some run.number)
    (hsuppressed : ∀ thread, s.fetch.suppressed (thread, hash) = true → t.fetch.suppressed (thread, hash) = true) :
    t.Covers run hash := by
  rcases h with ⟨file, hfile, hsame⟩ | ⟨huses, hscan⟩
  · exact .inl ⟨file, hsent file hfile, hsame⟩
  right
  constructor
  · intro x hx use huse
    rcases htasks x hx with hold | hnew
    · exact huses x hold use huse
    · exact hnew use huse
  · intro message hmessage hhash
    rcases hmessages message hmessage with hold | hother | harrived
    · rcases hscan message hold hhash with hitem | hmark | harrived | hsees
      · exact .inl hitem
      · exact .inr (.inl (hsuppressed _ hmark))
      · exact .inr (.inr (.inl harrived))
      · exact .inr (.inr (.inr hsees))
    · exact absurd hhash hother
    · exact .inr (.inr (.inl harrived))

theorem Scanned.same (h : s.Scanned) (hdelete : s.SameDelete t)
    (hcovers : ∀ run, s.delete = some run → run.phase.looked = true → ∀ hash ∈ run.targets,
      s.Covers run hash → t.Covers run hash) : t.Scanned := by
  intro run' hrun' hlooked hash hhash hkept
  obtain ⟨run, hrun, hnumber, hitems, hkept', hphase, -⟩ := hdelete.before hrun'
  have htargets : run'.targets = run.targets := by
    unfold DeleteRun.targets
    rw [hitems]
  rw [hphase] at hlooked
  rw [htargets] at hhash
  rw [hkept'] at hkept
  have hcovers := hcovers run hrun hlooked hash hhash (h run hrun hlooked hash hhash hkept)
  unfold Covers at hcovers ⊢
  rw [hitems, hnumber, hphase]
  exact hcovers

/-- A task's section, with the delete where it is. -/
structure Moves (s : LocalDelete) (task : ByteTask) (new : List ByteTask) (t : LocalDelete) : Prop where
  tasks : t.tasks = s.tasks.erase task ++ new
  delete : s.SameDelete t
  deleting : t.deleting = s.deleting
  sentDuring : ∀ file ∈ s.sentDuringDelete, file ∈ t.sentDuringDelete
  /-- A new use is the task's own, or came while its bytes are deleted. -/
  uses : ∀ x ∈ new, ∀ use ∈ x.uses, (∃ old ∈ task.uses, old.hash = use.hash) ∨ use.hash ∉ s.deleting ∨
    use.file ∈ t.sentDuringDelete
  messages : ∀ message ∈ t.messages, message ∈ s.messages ∨
    ∀ hash ∈ message.hashes, ∃ old ∈ task.uses, old.hash = hash
  suppressed : ∀ file, s.fetch.suppressed file = true → t.fetch.suppressed file = true ∨
    (∃ old ∈ task.uses, old.hash = file.2) ∨ file.2 ∉ s.deleting

theorem Moves.scanned {new : List ByteTask} (hmoves : s.Moves task new t) (hin : task ∈ s.tasks) (hcounted : s.Counted)
    (h : s.Scanned) : t.Scanned := by
  apply h.same hmoves.delete
  intro run hrun hlooked hash hhash hcovers
  have hdeleting := mem_deleting_of_looked hcounted hrun hlooked hhash
  by_cases hmine : ∃ old ∈ task.uses, old.hash = hash
  · obtain ⟨old, hold, hsame⟩ := hmine
    rcases hcovers with ⟨file, hfile, hsent⟩ | ⟨huses, -⟩
    · exact .inl ⟨file, hmoves.sentDuring file hfile, hsent⟩
    · exact absurd hsame (huses task hin old hold)
  by_cases hsent : ∃ x ∈ new, ∃ use ∈ x.uses, use.hash = hash
  · obtain ⟨x, hx, use, huse, rfl⟩ := hsent
    rcases hmoves.uses x hx use huse with hold | hnot | hfile
    · exact absurd hold hmine
    · exact absurd hdeleting hnot
    · exact .inl ⟨use.file, hfile, rfl⟩
  apply hcovers.mono hmoves.sentDuring
  case htasks =>
    intro x hx
    rw [hmoves.tasks, List.mem_append] at hx
    rcases hx with hx | hx
    · exact .inl (List.mem_of_mem_erase hx)
    · exact .inr fun use huse hsame => hsent ⟨x, hx, use, huse, hsame⟩
  case hmessages =>
    intro message hmessage
    rcases hmoves.messages message hmessage with hold | hnew
    · exact .inl hold
    · exact .inr (.inl fun hhash => hmine (hnew hash hhash))
  case hsuppressed =>
    intro thread hmark
    rcases hmoves.suppressed (thread, hash) hmark with hkept | hold | hnot
    · exact hkept
    · exact absurd hold hmine
    · exact absurd hdeleting hnot

theorem Moves.counted {new : List ByteTask} (hmoves : s.Moves task new t) (hin : task ∈ s.tasks) (h : s.Counted)
    (hinUse : ∀ hash, t.bytesInUse hash + task.inUse.count hash = s.bytesInUse hash + (new.flatMap (·.inUse)).count hash)
    (hidle : s.deleting = [] → t.sentDuringDelete = [] ∧ t.deferredJobs = [] ∧ t.deferredRequests = [])
    (hclears : ∀ x ∈ new, ∀ file ∈ x.clears, file.2 ∉ s.deleting) : t.Counted := by
  constructor
  case inUse =>
    intro hash
    have hold := h.inUse hash
    have hmoved := hinUse hash
    rw [((List.perm_cons_erase hin).flatMap_right (·.inUse)).count_eq, List.flatMap_cons, List.count_append] at hold
    rw [hmoves.tasks, List.flatMap_append, List.count_append]
    omega
  case deleting =>
    rw [hmoves.deleting, hmoves.delete.markedItems]
    exact h.deleting
  case idle =>
    rw [hmoves.deleting]
    exact hidle
  case content =>
    intro run' hrun'
    obtain ⟨run, hrun, -, hitems, -⟩ := hmoves.delete.before hrun'
    rw [hitems]
    exact h.content run hrun
  case clears =>
    intro x hx
    rw [hmoves.deleting]
    rw [hmoves.tasks, List.mem_append] at hx
    rcases hx with hx | hx
    · exact h.clears x (List.mem_of_mem_erase hx)
    · exact hclears x hx
  case within => exact hmoves.delete.within h.within

/-! ## What is held -/

/-- Bytes, messages and marks a step leaves to what is held. -/
structure Leaves (s t : LocalDelete) : Prop where
  markedItems : ∀ file ∈ t.markedItems, file ∈ s.markedItems
  pendingClear : ∀ file ∈ s.pendingClear, file ∈ t.pendingClear
  messages : ∀ message ∈ s.messages, message ∈ t.messages
  bytes : ∀ hash, s.fetch.bytes hash = true → t.fetch.bytes hash = true
  suppressed : ∀ file, s.fetch.suppressed file = false → t.fetch.suppressed file = false

theorem Leaves.shown (h : s.Leaves t) {file : String × String} (hshown : s.Shown file) : t.Shown file := by
  constructor
  case unmarked =>
    rcases hshown.unmarked with hpending | hunmarked
    · exact .inl (h.pendingClear file hpending)
    · exact .inr fun hmarked => hunmarked (h.markedItems file hmarked)
  case shown =>
    rcases hshown.shown with hpending | hmark
    · exact .inl (h.pendingClear file hpending)
    · exact .inr (h.suppressed file hmark)

theorem Leaves.written (h : s.Leaves t) {file : String × String} (hwritten : s.Written file) : t.Written file := by
  obtain ⟨message, hmessage, hfile⟩ := hwritten
  exact ⟨message, h.messages message hmessage, hfile⟩

theorem Leaves.tended (h : s.Leaves t) (htended : s.Tended task) : t.Tended task := by
  constructor
  case acquired =>
    intro use huse hcovered
    rcases htended.acquired use huse hcovered with hpending | hunmarked
    · exact .inl (h.pendingClear _ hpending)
    · exact .inr fun hmarked => hunmarked (h.markedItems _ hmarked)
  case cleared =>
    intro use huse hcovered
    rcases htended.cleared use huse hcovered with hpending | hmark
    · exact .inl (h.pendingClear _ hpending)
    · exact .inr (h.suppressed _ hmark)
  case sent =>
    intro use huse
    exact h.written (htended.sent use huse)
  case saved =>
    intro use huse hcovered
    exact h.bytes _ (htended.saved use huse hcovered)
  case content => exact htended.content

theorem Leaves.holds (hleaves : s.Leaves t) (h : s.Holds)
    (hheld : ∀ file ∈ t.held, file ∈ s.held ∨ t.fetch.bytes file.2 = true ∧ t.Written file ∧ t.Shown file)
    (htasks : ∀ x ∈ t.tasks, x ∈ s.tasks ∨ t.Tended x) : t.Holds := by
  constructor
  case held =>
    intro file hfile
    rcases hheld file hfile with hold | hnew
    · obtain ⟨hbytes, hwritten, hshown⟩ := h.held file hold
      exact ⟨hleaves.bytes _ hbytes, hleaves.written hwritten, hleaves.shown hshown⟩
    · exact hnew
  case tended =>
    intro x hx
    rcases htasks x hx with hold | hnew
    · exact hleaves.tended (h.tended x hold)
    · exact hnew

end LocalDelete
end Pbr
