import Mathlib.Logic.Function.Basic
import PpBrowser.Messaging.ChatBlobResponder

/-!
# AttachmentFetch — attachments downloaded by themselves or by a tap

The queue, the active set and the marks of `AttachmentFetchWorkflow`, and the
work under way on its threads: every call of `EnqueueJob`, every drain, every
job in the large-file lane and every fetch is a task that does one
mutex-guarded section at a time, in any order with the others. The automatic
limits, the fetch and the store answer as they like. No local delete runs here.
-/

namespace Pbr

/-- A job. `voice` is what `IsDeclaredVoiceMessage` says of its file. -/
structure AttachmentJob where
  thread : String
  hash : String
  byteLength : Nat := 0
  hasUrl : Bool := false
  voice : Bool := false
  networkDependent : Bool := false
  charged : Bool := false
  /-- Which call of `EnqueueJob` it came with, and whether a tap stood behind it
  when it was taken. The code keeps neither. -/
  call : Nat := 0
  tapped : Bool := false
  deriving DecidableEq, Repr

/-- `JobKey`. -/
def attachmentKey (thread hash : String) : String := thread ++ "|" ++ hash

def AttachmentJob.key (job : AttachmentJob) : String := attachmentKey job.thread job.hash

/-- Its chat and its hash. -/
def AttachmentJob.file (job : AttachmentJob) : String × String := (job.thread, job.hash)

inductive AttachmentDownloadPolicy where
  | alwaysAuto | smart | onDemand
  deriving DecidableEq, Repr

structure AttachmentLimits where
  maxReceiveBytes : Nat
  autoDownloadMaxBytes : Nat
  deriving DecidableEq, Repr

inductive AutoVerdict where
  | yes | yesOnThisNetwork | notOnThisNetwork | networkUnknown | no
  deriving DecidableEq, Repr

def AutoVerdict.starts (verdict : AutoVerdict) : Bool := verdict = .yes || verdict = .yesOnThisNetwork

/-- The answer of a fetch, or what `finish_job` can do with it. -/
inductive FetchAnswer where
  | bytes
  /-- An error; `true` where it reached the server. -/
  | error (reachedServer : Bool)
  deriving DecidableEq, Repr

/-- A section some thread is to do next. -/
inductive AttachmentTask where
  /-- `EnqueueJob`, down to its last section. -/
  | enqueue (job : AttachmentJob) (force : Bool)
  | sized (job : AttachmentJob) (force : Bool)
  | asked (job : AttachmentJob) (force : Bool)
  | judge (job : AttachmentJob)
  | offNetwork (job : AttachmentJob)
  | look (job : AttachmentJob) (verdict : AutoVerdict)
  | charge (job : AttachmentJob)
  | throttle (job : AttachmentJob)
  | markPending (key : String)
  | admitJob (job : AttachmentJob) (force : Bool)
  | refund (job : AttachmentJob)
  /-- `DrainQueue`, and what follows for the job it took. -/
  | drain
  | kickDrain
  | taken (job : AttachmentJob) (rejudged : Bool)
  | refused (job : AttachmentJob)
  | lane (job : AttachmentJob)
  /-- A fetch under way, and the sections of `finish_job`; `drains` where the
  drain goes on after it. -/
  | fetch (job : AttachmentJob) (drains : Bool)
  | finish (job : AttachmentJob) (drains : Bool) (answer : FetchAnswer)
  | keep (job : AttachmentJob) (drains : Bool)
  | saved (job : AttachmentJob) (drains : Bool)
  | takeBack (job : AttachmentJob) (drains : Bool)
  | holdBack (job : AttachmentJob) (drains : Bool)
  | markFailed (job : AttachmentJob) (drains : Bool)
  | markReady (job : AttachmentJob) (drains : Bool)
  deriving DecidableEq, Repr

structure AttachmentFetch where
  policy : AttachmentDownloadPolicy := .smart
  limits : AttachmentLimits
  /-- Whether a large-file lane is bound. -/
  hasLane : Bool := true
  networkAllowsAllAuto : Option Bool := none
  queue : List AttachmentJob := []
  /-- `active_`, with the call each start came with. -/
  active : String → Option Nat := fun _ => none
  forced : String → Bool := fun _ => false
  pending : String → Bool := fun _ => false
  failed : String → Bool := fun _ => false
  throttled : String → Bool := fun _ => false
  waitingForNetwork : List AttachmentJob := []
  draining : Bool := false
  /-- What the automatic limits are charged with, by call. -/
  charges : List Nat := []
  /-- The fetches that started. -/
  started : List AttachmentJob := []
  /-- The blobs the store holds. -/
  bytes : String → Bool := fun _ => false
  /-- A chat's mark on a file. -/
  suppressed : String × String → Bool := fun _ => false
  tasks : List AttachmentTask := []
  nextCall : Nat := 0

namespace AttachmentFetch

variable (fetch : AttachmentFetch)

/-! ## The automatic rule -/

def shouldAutoEnqueue (policy : AttachmentDownloadPolicy) (byteLength smartMaxBytes : Nat)
    (networkAllowsAllAuto : Bool) : Bool :=
  match policy with
  | .alwaysAuto => networkAllowsAllAuto || byteLength ≤ smartMaxBytes
  | .onDemand => false
  | .smart => byteLength ≤ smartMaxBytes

/-- `AutoVerdictLocked`. -/
def autoVerdict (job : AttachmentJob) : AutoVerdict :=
  if job.byteLength = 0 ∨ job.byteLength > fetch.limits.maxReceiveBytes then .no
  else if fetch.policy = .onDemand then if job.voice then .yes else .no
  else if job.byteLength ≤ kMaxDirectAttachmentBytes ∧
      shouldAutoEnqueue fetch.policy job.byteLength fetch.limits.autoDownloadMaxBytes false then .yes
  else if fetch.policy ≠ .alwaysAuto then .no
  else if job.byteLength > kMaxDirectAttachmentBytes ∧ ¬ job.hasUrl then .no
  else
    match fetch.networkAllowsAllAuto with
    | none => .networkUnknown
    | some allows =>
      if shouldAutoEnqueue fetch.policy job.byteLength fetch.limits.autoDownloadMaxBytes allows then
        .yesOnThisNetwork
      else .notOnThisNetwork

/-- `RejudgeLocked`. -/
def rejudge (job : AttachmentJob) : Bool := job.networkDependent && !fetch.forced job.key

def jobQueued (key : String) : Bool := fetch.queue.any (·.key = key)

def isActive (key : String) : Bool := (fetch.active key).isSome

/-! ## Writing the board -/

/-- `insert_or_assign` in `waiting_for_network_`. -/
def waitFor (job : AttachmentJob) : AttachmentFetch :=
  { fetch with waitingForNetwork := job :: fetch.waitingForNetwork.filter (·.key ≠ job.key) }

/-- `HoldBackLocked`. -/
def holdBackJob (job : AttachmentJob) (verdict : AutoVerdict) : AttachmentFetch :=
  let fetch := { fetch with pending := Function.update fetch.pending job.key true }
  if verdict = .notOnThisNetwork then fetch.waitFor { job with charged := false } else fetch

/-- `MarkPending`. -/
def setPending (key : String) : AttachmentFetch :=
  if fetch.isActive key || fetch.jobQueued key || fetch.failed key then fetch
  else { fetch with pending := Function.update fetch.pending key true }

def post (tasks : List AttachmentTask) : AttachmentFetch := { fetch with tasks := fetch.tasks ++ tasks }

def goOn (drains : Bool) : List AttachmentTask := if drains then [.drain] else []

def start (job : AttachmentJob) (drains : Bool) : AttachmentFetch :=
  { fetch with started := job :: fetch.started }.post [.fetch job drains]

/-! ## The sections -/

/-- The job's last section in `EnqueueJob`. -/
def admitJob (job : AttachmentJob) (force : Bool) : AttachmentFetch :=
  let duplicate := fetch.isActive job.key || fetch.jobQueued job.key
  let marked :=
    { fetch with
      pending := Function.update fetch.pending job.key false
      throttled := Function.update fetch.throttled job.key false
      waitingForNetwork := fetch.waitingForNetwork.filter (·.key ≠ job.key)
      forced := if force then Function.update fetch.forced job.key true else fetch.forced }
  if duplicate then
    if force then { marked with draining := true }.post (.refund job :: goOn (!fetch.draining))
    else marked.post [.refund job]
  else
    { marked with
      failed := Function.update marked.failed job.key false
      queue := marked.queue ++ [job]
      draining := true }.post (goOn (!fetch.draining))

/-- The walk of `DrainQueue` along the queue: the job that starts, what stays
queued before it, and the jobs held back with their verdicts. -/
def drainScan : List AttachmentJob → Option AttachmentJob × List AttachmentJob × List (AttachmentJob × AutoVerdict)
  | [] => (none, [], [])
  | job :: rest =>
    let verdict := if fetch.rejudge job then fetch.autoVerdict job else .yes
    if verdict = .networkUnknown then
      let (next, kept, held) := drainScan rest
      (next, job :: kept, held)
    else if verdict.starts then (some job, rest, [])
    else
      let (next, kept, held) := drainScan rest
      (next, kept, (job, verdict) :: held)

/-- `DrainQueue`'s own section. -/
def drain : AttachmentFetch :=
  let scan := fetch.drainScan fetch.queue
  let refunds := scan.2.2.map fun x => AttachmentTask.refund x.1
  let after := scan.2.2.foldl (fun fetch x => fetch.holdBackJob x.1 x.2) { fetch with queue := scan.2.1 }
  match scan.1 with
  | none => { after with draining := false }.post refunds
  | some job =>
    { after with active := Function.update after.active job.key (some job.call) }.post
      (refunds ++ [AttachmentTask.taken { job with tapped := job.tapped || fetch.forced job.key } (fetch.rejudge job)])

/-- The job a drain took goes to its lane, or its fetch starts. -/
def launch (job : AttachmentJob) : AttachmentFetch :=
  if fetch.hasLane && job.byteLength > kMaxDirectAttachmentBytes then fetch.post [.lane job, .drain]
  else fetch.start job true

/-- The lane comes to a job: judged again, unless a tap forced it meanwhile. -/
def runLaneJob (job : AttachmentJob) : AttachmentFetch :=
  if fetch.isActive job.key && fetch.rejudge job && !(fetch.autoVerdict job).starts then
    ({ fetch with active := Function.update fetch.active job.key none }.holdBackJob job
      (fetch.autoVerdict job)).post [.refund job]
  else fetch.start { job with tapped := job.tapped || fetch.forced job.key } false

/-- `CancelJobsLocked`. -/
def cancelJobs (keys : List String) : AttachmentFetch :=
  { fetch with
    queue := fetch.queue.filter (!keys.contains ·.key)
    active := fun key => if keys.contains key then none else fetch.active key
    forced := fun key => fetch.forced key && !keys.contains key
    pending := fun key => fetch.pending key && !keys.contains key
    failed := fun key => fetch.failed key && !keys.contains key
    throttled := fun key => fetch.throttled key && !keys.contains key
    waitingForNetwork := fetch.waitingForNetwork.filter (!keys.contains ·.key) }

/-- A fetch's key off the board: `MarkFailed`, `MarkReady`. -/
def settle (key : String) (failed : Bool) : AttachmentFetch :=
  { fetch with
    active := Function.update fetch.active key none
    forced := Function.update fetch.forced key false
    pending := Function.update fetch.pending key false
    failed := Function.update fetch.failed key failed }

/-- A task's next section. `ok` is the answer it gets where it asks: whether the
attachment can be fetched, the automatic limits allow it, the bytes were
stored; `answer` is what a fetch comes back with. -/
def perform (ok : Bool) (answer : FetchAnswer) : AttachmentTask → AttachmentFetch
  | .enqueue job force => if !ok || fetch.bytes job.hash then fetch else fetch.post [.sized job force]
  | .sized job force =>
    if job.byteLength > fetch.limits.maxReceiveBytes then fetch else fetch.post [.asked job force]
  | .asked job force =>
    let job := { job with networkDependent := false, charged := false, tapped := force }
    if force then fetch.post [.admitJob job true]
    else if fetch.suppressed job.file then fetch.post [.markPending job.key]
    else fetch.post [.judge job]
  | .judge job =>
    match fetch.autoVerdict job with
    | .no => fetch.post [.markPending job.key]
    | .notOnThisNetwork => fetch.post [.offNetwork job]
    | verdict => fetch.post [.look { job with networkDependent := verdict ≠ .yes } verdict]
  | .offNetwork job =>
    if fetch.isActive job.key || fetch.jobQueued job.key then fetch
    else if fetch.failed job.key || fetch.throttled job.key then fetch.post [.markPending job.key]
    else (fetch.waitFor job).post [.markPending job.key]
  | .look job verdict =>
    if fetch.isActive job.key || fetch.jobQueued job.key then fetch
    else if fetch.throttled job.key then fetch.post [.throttle job]
    else if verdict = .networkUnknown then fetch.post [.admitJob job false]
    else fetch.post [.charge job]
  | .charge job =>
    if ok then
      { fetch with charges := job.call :: fetch.charges }.post [.admitJob { job with charged := true } false]
    else fetch.post [.throttle job]
  | .throttle job =>
    { fetch with throttled := Function.update fetch.throttled job.key true }.post [.markPending job.key]
  | .markPending key => fetch.setPending key
  | .admitJob job force => fetch.admitJob job force
  | .refund job => if job.charged then { fetch with charges := fetch.charges.erase job.call } else fetch
  | .drain => fetch.drain
  | .kickDrain =>
    if !fetch.queue.isEmpty && !fetch.draining then { fetch with draining := true }.post [.drain] else fetch
  | .taken job rejudged =>
    if rejudged && !job.charged then
      if ok then { fetch with charges := job.call :: fetch.charges }.launch { job with charged := true }
      else fetch.post [.refused job]
    else fetch.launch job
  | .refused job =>
    { fetch with
      active := Function.update fetch.active job.key none
      throttled := Function.update fetch.throttled job.key true }.post [.markPending job.key, .drain]
  | .lane job => fetch.runLaneJob job
  | .fetch job drains => fetch.post [.finish job drains answer]
  | .finish job drains answer =>
    if !fetch.isActive job.key then fetch.post (goOn drains)
    else
      match answer with
      | .error true => fetch.post [.holdBack job drains]
      | .error false => fetch.post [.markFailed job drains]
      | .bytes => fetch.post [.keep job drains]
  | .keep job drains =>
    -- no key, no store, or the save failed: the download was spent
    if ok then { fetch with bytes := Function.update fetch.bytes job.hash true }.post [.saved job drains]
    else fetch.post [.holdBack job drains]
  | .saved job drains =>
    if fetch.isActive job.key then fetch.post [.markReady job drains] else fetch.post [.takeBack job drains]
  | .takeBack job drains =>
    { fetch with bytes := Function.update fetch.bytes job.hash false }.post (goOn drains)
  | .holdBack job drains =>
    { fetch with
      suppressed :=
        if job.hasUrl then Function.update fetch.suppressed job.file true else fetch.suppressed }.post
      [.markFailed job drains]
  | .markFailed job drains => (fetch.settle job.key true).post (goOn drains)
  | .markReady job drains => (fetch.settle job.key false).post (goOn drains)

/-! ## Steps -/

inductive Step where
  /-- A message is looked at, or tapped. -/
  | ask (job : AttachmentJob) (force : Bool)
  | run (task : AttachmentTask) (ok : Bool) (answer : FetchAnswer)
  | cancel (keys : List String)
  | setDownloadPolicy (policy : AttachmentDownloadPolicy)
  | setAutoAllowedOnNetwork (allowed : Bool)
  | setLimits (limits : AttachmentLimits)
  /-- A chat's mark on a file, set or taken away by others. -/
  | setSuppressed (file : String × String) (suppressed : Bool)
  deriving DecidableEq, Repr

/-- Calls of `EnqueueJob`, numbered as they come. -/
def askAll (jobs : List AttachmentJob) (force : Bool) : AttachmentFetch :=
  jobs.foldl
    (fun fetch job =>
      { fetch with nextCall := fetch.nextCall + 1 }.post [.enqueue { job with call := fetch.nextCall } force])
    fetch

def step (fetch : AttachmentFetch) : Step → AttachmentFetch
  | .ask job force => fetch.askAll [job] force
  | .run task ok answer =>
    if task ∈ fetch.tasks then
      { fetch with tasks := fetch.tasks.erase task }.perform ok answer task
    else fetch
  | .cancel keys => fetch.cancelJobs keys
  | .setDownloadPolicy policy => { fetch with policy }.post [.kickDrain]
  | .setAutoAllowedOnNetwork allowed =>
    let fetch := { fetch with networkAllowsAllAuto := some allowed }
    if allowed then
      ({ fetch with
        pending := fun key => fetch.pending key && !fetch.waitingForNetwork.any (·.key = key)
        waitingForNetwork := [] }.askAll fetch.waitingForNetwork false).post [.kickDrain]
    else fetch.post [.kickDrain]
  | .setLimits limits => { fetch with limits }
  | .setSuppressed file suppressed =>
    { fetch with suppressed := Function.update fetch.suppressed file suppressed }

end AttachmentFetch
end Pbr
