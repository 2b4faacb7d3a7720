import Mathlib.Data.List.Basic
import Mathlib.Tactic.SplitIfs
import PpBrowser.Lib.Runs
import PpBrowser.Messaging.AttachmentFetch

/-!
# AttachmentSections — which start a task carries

A start is on the board, or carried by one task, or over; the invariant says so of
every key and of every job charged for. A section that only moves its own task
keeps it.
-/

namespace Pbr

open Lib

/-- The key a job starts, and the call it came with. -/
def AttachmentJob.start (job : AttachmentJob) : String × Nat := (job.key, job.call)

namespace AttachmentTask

/-- The start a task carries to its end. -/
def alive : AttachmentTask → List (String × Nat)
  | .taken job _ | .refused job | .lane job | .fetch job _ | .finish job _ _ | .keep job _ | .saved job _
  | .takeBack job _ | .holdBack job _ | .markFailed job _ | .markReady job _ => [job.start]
  | _ => []

/-- No admission, no end that succeeds, nothing taken back. -/
def plain : AttachmentTask → Bool
  | .admitJob _ _ | .takeBack _ _ | .markReady _ _ => false
  | _ => true

/-- The job a task may have been charged for, before its fetch starts. -/
def owed : AttachmentTask → List AttachmentJob
  | .admitJob job _ | .refund job | .taken job _ | .refused job | .lane job => [job]
  | _ => []

/-- A job the automatic limits are asked about, or have refused, after a drain
took it. -/
def limited : AttachmentTask → List AttachmentJob
  | .taken job true => if job.charged then [] else [job]
  | .refused job => [job]
  | _ => []

/-- A download whose bytes are stored and not shown yet. -/
def stored : AttachmentTask → List AttachmentJob
  | .saved job _ | .markReady job _ => [job]
  | _ => []

end AttachmentTask

namespace AttachmentFetch

variable {s : AttachmentFetch} {job : AttachmentJob} {task : AttachmentTask}

/-- A download of the key stands: queued, or started and not settled. -/
def Stands (s : AttachmentFetch) (key : String) (call : Nat) : Prop :=
  s.active key = some call ∨ ∃ job ∈ s.queue, job.key = key ∧ job.call = call

/-! ## What runs are asked to keep -/

/-- The step neither starts a key whose cancelled start is not done, nor
cancels what was charged, nor taps a job the limits are being asked about, nor
takes bytes back that another download has just stored. -/
def Orderly (s : AttachmentFetch) : Step → Prop
  | .cancel keys => ∀ job ∈ s.queue, keys.contains job.key = true → job.charged = false
  | .run (.admitJob job force) _ _ =>
    ((s.isActive job.key || s.jobQueued job.key) = false →
      ∀ task ∈ s.tasks, ∀ other ∈ task.alive, other.1 ≠ job.key) ∧
    (force = true → ∀ task ∈ s.tasks, ∀ other ∈ task.limited, other.key ≠ job.key)
  | .run (.takeBack job _) _ _ => ∀ task ∈ s.tasks, ∀ other ∈ task.stored, other.hash ≠ job.hash
  | _ => True

instance (step : Step) : Decidable (s.Orderly step) := by
  unfold Orderly
  split <;> infer_instance

/-- What the automatic limits are charged with for these jobs. -/
def dues (jobs : List AttachmentJob) : List Nat := (jobs.filter (·.charged)).map (·.call)

/-- Every key at most once, a fetch that finds its key active is the start it
belongs to, and the limits are charged for what is queued, on its way or has
run. -/
structure Sound (s : AttachmentFetch) : Prop where
  once : (s.queue.map (·.key)).Nodup
  apart : ∀ job ∈ s.queue, s.active job.key = none
  mine : ∀ task ∈ s.tasks, ∀ other ∈ task.alive, ∀ call, s.active other.1 = some call → other.2 = call
  charged : s.charges.Perm (dues s.queue ++ dues (s.tasks.flatMap (·.owed)) ++ dues s.started)
  automatic : ∀ job ∈ s.started, job.tapped = false → job.charged = true

/-- The automatic limits hold a download back, where the drain looks at it or
at its own turn. -/
def HoldsBack (step : Step) (key : String) (call : Nat) : Prop :=
  ∃ task ok answer, step = .run task ok answer ∧
    (task = .drain ∨ ∃ job, (task = .refused job ∨ task = .lane job) ∧ job.key = key ∧ job.call = call)

/-- Its own fetch settles a download. -/
def Settles (step : Step) (key : String) (call : Nat) : Prop :=
  ∃ job drains ok answer, job.key = key ∧ job.call = call ∧
    (step = .run (.markReady job drains) ok answer ∨ step = .run (.markFailed job drains) ok answer)

/-- What a step leaves of the downloads that stand. -/
structure Keeps (s : AttachmentFetch) (step : Step) (after : AttachmentFetch) : Prop where
  /-- What was asked for stands, and a tap is known. -/
  admitted : ∀ job force ok answer, .admitJob job force ∈ s.tasks → step = .run (.admitJob job force) ok answer →
    (∃ call, after.Stands job.key call) ∧ (force = true → after.forced job.key = true)
  /-- It goes by a cancel or by its own fetch, or is held back where no tap
  asked for it. -/
  stands : ∀ key call, s.Stands key call → after.Stands key call ∨
    (∃ keys, step = .cancel keys ∧ keys.contains key = true) ∨ Settles step key call ∨
    HoldsBack step key call ∧ s.forced key = false
  tapped : ∀ key call, s.Stands key call → s.forced key = true → after.Stands key call → after.forced key = true
  /-- It fails by its own fetch. -/
  failed : ∀ key call, s.Stands key call → after.failed key = true → s.failed key = true ∨ Settles step key call
  /-- No other fetch of its key takes its bytes back. -/
  bytes : ∀ key call, s.Stands key call → ∀ job drains ok answer, .takeBack job drains ∈ s.tasks →
    step = .run (.takeBack job drains) ok answer → job.key ≠ key
  /-- Its own fetch ends with the bytes stored. -/
  ready : ∀ job drains ok answer, .markReady job drains ∈ s.tasks → step = .run (.markReady job drains) ok answer →
    after.bytes job.hash = true ∧ after.failed job.key = false

/-! ## The invariant -/

/-- What the section before left for a task to find. -/
def Fits (s : AttachmentFetch) : AttachmentTask → Prop
  | .judge job => job.charged = false
  | .look job verdict => job.charged = false ∧ job.networkDependent = decide (verdict ≠ .yes)
  | .admitJob job _ => job.charged = false → job.tapped = false → job.networkDependent = true
  | .taken job rejudged =>
    (job.charged = false → job.tapped = false → rejudged = true) ∧
      (rejudged = true → job.charged = false → s.forced job.key = false)
  | .refused job => job.charged = false ∧ s.forced job.key = false
  | .lane job => job.tapped = false → job.charged = true
  | .takeBack job _ => s.active job.key = none
  | .saved job _ | .markReady job _ => s.bytes job.hash = true
  | _ => True

/-- One start of a key at a time, and each task as the section before left it. -/
structure Ordered (s : AttachmentFetch) : Prop where
  alone : ((s.queue.map (·.start) ++ s.tasks.flatMap (·.alive)).map Prod.fst).Nodup
  active : ∀ key call, s.active key = some call → (key, call) ∈ s.tasks.flatMap (·.alive)
  queued : ∀ job ∈ s.queue, job.charged = false → job.tapped = false → job.networkDependent = true
  fits : ∀ task ∈ s.tasks, s.Fits task

/-- The automatic limits are charged for what is queued, on its way or has run. -/
structure Charged (s : AttachmentFetch) : Prop where
  due : ∀ call, s.charges.count call =
    (dues s.queue).count call + (dues (s.tasks.flatMap (·.owed))).count call + (dues s.started).count call
  automatic : ∀ job ∈ s.started, job.tapped = false → job.charged = true

theorem dues_append (jobs jobs' : List AttachmentJob) : dues (jobs ++ jobs') = dues jobs ++ dues jobs' := by
  simp [dues]

/-! ## A section of a task -/

variable {t : AttachmentFetch} {ok : Bool} {answer : FetchAnswer} {x : String × Nat} {call : Nat}

theorem Fits.mono (h : s.Fits task)
    (hactive : ∀ job drains, task = .takeBack job drains → s.active job.key = none → t.active job.key = none)
    (hforced : ∀ job ∈ task.limited, s.forced job.key = false → t.forced job.key = false)
    (hbytes : ∀ job ∈ task.stored, s.bytes job.hash = true → t.bytes job.hash = true) : t.Fits task := by
  cases task
  case takeBack job drains => exact hactive job drains rfl h
  case taken job rejudged =>
    refine ⟨h.1, ?_⟩
    intro hrejudged hcharged
    subst hrejudged
    exact hforced job (by simp [AttachmentTask.limited, hcharged]) (h.2 rfl hcharged)
  case refused job => exact ⟨h.1, hforced job (by simp [AttachmentTask.limited]) h.2⟩
  case saved job drains => exact hbytes job (by simp [AttachmentTask.stored]) h
  case markReady job drains => exact hbytes job (by simp [AttachmentTask.stored]) h
  all_goals exact h

theorem mem_alive_iff (hin : task ∈ s.tasks) (x : String × Nat) :
    x ∈ s.tasks.flatMap (·.alive) ↔ x ∈ task.alive ∨ x ∈ (s.tasks.erase task).flatMap (·.alive) := by
  have hperm := (List.perm_cons_erase hin).flatMap_right (·.alive)
  rw [hperm.mem_iff]
  simp

theorem count_alive (hin : task ∈ s.tasks) (key : String) : ((s.tasks.flatMap (·.alive)).map Prod.fst).count key =
      (task.alive.map Prod.fst).count key + (((s.tasks.erase task).flatMap (·.alive)).map Prod.fst).count key := by
  have hperm := ((List.perm_cons_erase hin).flatMap_right (·.alive)).map Prod.fst
  rw [hperm.count_eq]
  simp

theorem count_owed (hin : task ∈ s.tasks) (call : Nat) : (dues (s.tasks.flatMap (·.owed))).count call =
      (dues task.owed).count call + (dues ((s.tasks.erase task).flatMap (·.owed))).count call := by
  have hperm := (((List.perm_cons_erase hin).flatMap_right (·.owed)).filter (·.charged)).map (·.call)
  rw [dues, hperm.count_eq]
  simp [dues]

section

variable (h : s.Ordered) (hin : task ∈ s.tasks) (new : List AttachmentTask)
  (htasks : t.tasks = s.tasks.erase task ++ new)
include h hin new htasks

/-- A task's section that starts nothing new. -/
theorem Ordered.alone_next (hkeys : ∀ key, ((t.queue.map (·.start) ++ new.flatMap (·.alive)).map Prod.fst).count key ≤
      ((s.queue.map (·.start) ++ task.alive).map Prod.fst).count key) :
    ((t.queue.map (·.start) ++ t.tasks.flatMap (·.alive)).map Prod.fst).Nodup := by
  have halone := List.nodup_iff_count_le_one.mp h.alone
  apply List.nodup_iff_count_le_one.mpr
  intro key
  have hkey := halone key
  have hle := hkeys key
  rw [List.map_append, List.count_append, count_alive hin] at hkey
  rw [List.map_append, List.count_append, List.map_append, List.count_append] at hle
  rw [htasks, List.flatMap_append, List.map_append, List.map_append, List.count_append, List.count_append]
  omega

theorem Ordered.next (halone : ((t.queue.map (·.start) ++ t.tasks.flatMap (·.alive)).map Prod.fst).Nodup)
    (hactive : ∀ key call, t.active key = some call →
      (key, call) ∈ new.flatMap (·.alive) ∨ s.active key = some call ∧ (key, call) ∉ task.alive)
    (hqueued : ∀ job ∈ t.queue, job.charged = false → job.tapped = false → job.networkDependent = true)
    (hrest : ∀ other ∈ s.tasks.erase task, s.Fits other → t.Fits other) (hnew : ∀ other ∈ new, t.Fits other) :
    t.Ordered := by
  constructor
  case alone => exact halone
  case active =>
    intro key call hkey
    rw [htasks, List.flatMap_append, List.mem_append]
    rcases hactive key call hkey with hthere | ⟨hthere, hnot⟩
    · exact .inr hthere
    · exact .inl (((mem_alive_iff hin _).mp (h.active key call hthere)).resolve_left hnot)
  case queued => exact hqueued
  case fits =>
    intro other hother
    rw [htasks, List.mem_append] at hother
    rcases hother with hold | hnewer
    · exact hrest other hold (h.fits other (List.mem_of_mem_erase hold))
    · exact hnew other hnewer

end

theorem Charged.next (h : s.Charged) (hin : task ∈ s.tasks) (new : List AttachmentTask)
    (htasks : t.tasks = s.tasks.erase task ++ new)
    (hdue : ∀ call, t.charges.count call + (dues s.queue).count call + (dues task.owed).count call +
        (dues s.started).count call =
      s.charges.count call + (dues t.queue).count call + (dues (new.flatMap (·.owed))).count call +
        (dues t.started).count call)
    (hautomatic : ∀ job ∈ t.started, job ∈ s.started ∨ (job.tapped = false → job.charged = true)) : t.Charged := by
  constructor
  case due =>
    intro call
    have hcall := h.due call
    have hmoved := hdue call
    rw [count_owed hin] at hcall
    rw [htasks, List.flatMap_append, dues_append, List.count_append]
    omega
  case automatic =>
    intro job hjob
    rcases hautomatic job hjob with hold | hnew
    · exact h.automatic job hold
    · exact hnew

/-- A section that leaves the downloads that stand as they are. -/
structure Quiet (s t : AttachmentFetch) : Prop where
  queue : t.queue = s.queue
  active : t.active = s.active
  forced : t.forced = s.forced
  failed : t.failed = s.failed

theorem Quiet.stands (h : s.Quiet t) {key : String} (hstands : s.Stands key call) : t.Stands key call := by
  unfold Stands
  rw [h.active, h.queue]
  exact hstands

/-- What a task does when it is no admission, no end and takes nothing back. -/
theorem Quiet.keeps (h : s.Quiet t) {step : Step}
    (hadmits : ∀ job force ok answer, step ≠ .run (.admitJob job force) ok answer)
    (htakeBack : ∀ job drains ok answer, step ≠ .run (.takeBack job drains) ok answer)
    (hready : ∀ job drains ok answer, step ≠ .run (.markReady job drains) ok answer) : s.Keeps step t := by
  constructor
  case admitted =>
    intro job force ok answer _ hstep
    exact absurd hstep (hadmits job force ok answer)
  case stands =>
    intro key call hstands
    exact .inl (h.stands hstands)
  case tapped =>
    intro key call _ hforced _
    rw [h.forced]
    exact hforced
  case failed =>
    intro key call _ hfailed
    rw [h.failed] at hfailed
    exact .inl hfailed
  case bytes =>
    intro key call _ job drains ok answer _ hstep
    exact absurd hstep (htakeBack job drains ok answer)
  case ready =>
    intro job drains ok answer _ hstep
    exact absurd hstep (hready job drains ok answer)

/-- The start a task carries goes on, or is no longer the key's. -/
theorem Ordered.pass (h : s.Ordered) (hin : task ∈ s.tasks) (new : List AttachmentTask) (hquiet : s.Quiet t)
    (htasks : t.tasks = s.tasks.erase task ++ new) (hlive : new.flatMap (·.alive) = task.alive ∨
      new.flatMap (·.alive) = [] ∧ ∀ x ∈ task.alive, s.active x.1 = none)
    (hbytes : ∀ hash, s.bytes hash = true → t.bytes hash = true) (hnew : ∀ other ∈ new, t.Fits other) :
    t.Ordered := by
  apply h.next hin new htasks
  case halone =>
    apply h.alone_next hin new htasks
    intro key
    rw [hquiet.queue]
    rcases hlive with hlive | ⟨hlive, -⟩
    · rw [hlive]
    · rw [hlive, List.append_nil, List.map_append, List.count_append]
      omega
  case hactive =>
    intro key call hkey
    rw [hquiet.active] at hkey
    by_cases hmine : (key, call) ∈ task.alive
    · rcases hlive with hlive | ⟨-, hnone⟩
      · exact .inl (hlive ▸ hmine)
      · rw [hnone _ hmine] at hkey
        cases hkey
    · exact .inr ⟨hkey, hmine⟩
  case hqueued =>
    rw [hquiet.queue]
    exact h.queued
  case hrest =>
    intro other _ hfits
    apply hfits.mono
    case hactive =>
      intro job drains _ hnone
      rw [hquiet.active]
      exact hnone
    case hforced =>
      intro job _ hforced
      rw [hquiet.forced]
      exact hforced
    case hbytes =>
      intro job _ hstored
      exact hbytes _ hstored
  case hnew => exact hnew

/-! ## Every section -/

/-- What a step keeps, with what it leaves of the downloads. -/
structure Kept (s : AttachmentFetch) (step : Step) (t : AttachmentFetch) : Prop where
  ordered : t.Ordered
  charged : t.Charged
  keeps : s.Keeps step t

theorem Quiet.keeps_run (h : s.Quiet t) (hplain : task.plain = true) : s.Keeps (.run task ok answer) t := by
  apply h.keeps
  all_goals
    intro job x ok' answer' hstep
    cases hstep
    cases hplain

/-- A section that charges nothing and leaves the board as it is. -/
theorem kept_pass (h : s.Ordered) (hcharged : s.Charged) (hin : task ∈ s.tasks) (new : List AttachmentTask)
    (hplain : task.plain = true) (hquiet : s.Quiet t) (htasks : t.tasks = s.tasks.erase task ++ new)
    (hlive : new.flatMap (·.alive) = task.alive ∨ new.flatMap (·.alive) = [] ∧ ∀ x ∈ task.alive, s.active x.1 = none)
    (howed : dues (new.flatMap (·.owed)) = dues task.owed)
    (hcharges : t.charges = s.charges) (hstarted : t.started = s.started)
    (hbytes : ∀ hash, s.bytes hash = true → t.bytes hash = true) (hnew : ∀ other ∈ new, t.Fits other) :
    s.Kept (.run task ok answer) t := by
  constructor
  case ordered => exact h.pass hin new hquiet htasks hlive hbytes hnew
  case charged =>
    apply hcharged.next hin new htasks
    case hdue =>
      intro call
      rw [hcharges, hstarted, hquiet.queue, howed]
    case hautomatic =>
      intro job hjob
      rw [hstarted] at hjob
      exact .inl hjob
  case keeps => exact hquiet.keeps_run hplain

theorem Ordered.apart (h : s.Ordered) (hjob : job ∈ s.queue)
    (hx : x ∈ s.tasks.flatMap (·.alive)) : x.1 ≠ job.key := by
  intro hsame
  have halone := h.alone
  rw [List.map_append, List.nodup_append] at halone
  exact halone.2.2 job.key (List.mem_map.mpr ⟨job.start, List.mem_map_of_mem hjob, rfl⟩) x.1
    (List.mem_map_of_mem hx) hsame.symm

theorem Ordered.mine (h : s.Ordered) (hx : x ∈ s.tasks.flatMap (·.alive))
    (hactive : s.active x.1 = some call) : x.2 = call := by
  have halone := h.alone
  rw [List.map_append, List.nodup_append] at halone
  have hsame := List.inj_on_of_nodup_map halone.2.1 hx (h.active x.1 call hactive) rfl
  rw [hsame]

theorem Ordered.stands_mine (h : s.Ordered)
    (hx : x ∈ s.tasks.flatMap (·.alive)) (hstands : s.Stands x.1 call) : x.2 = call := by
  rcases hstands with hactive | ⟨job, hjob, hkey, -⟩
  · exact h.mine hx hactive
  · exact absurd hkey.symm (h.apart hjob hx)

theorem mem_alive (hin : task ∈ s.tasks) (hx : x ∈ task.alive) :
    x ∈ s.tasks.flatMap (·.alive) := List.mem_flatMap.mpr ⟨task, hin, hx⟩

theorem isActive_iff {key : String} : s.isActive key = true ↔ ∃ call, s.active key = some call := by
  simp [isActive, Option.isSome_iff_exists]

theorem jobQueued_iff {key : String} : s.jobQueued key = true ↔ ∃ job ∈ s.queue, job.key = key := by
  simp [jobQueued]

theorem Ordered.sound (h : s.Ordered) (hcharged : s.Charged) : s.Sound := by
  constructor
  case once =>
    have halone := h.alone
    rw [List.map_append, List.nodup_append, List.map_map] at halone
    exact halone.1
  case apart =>
    intro job hjob
    cases hactive : s.active job.key with
    | none => rfl
    | some call => exact absurd rfl (h.apart hjob (h.active job.key call hactive))
  case mine =>
    intro task hin x hx call hactive
    exact h.mine (mem_alive hin hx) hactive
  case charged =>
    apply List.perm_iff_count.mpr
    intro call
    rw [List.count_append, List.count_append]
    exact hcharged.due call
  case automatic => exact hcharged.automatic

end AttachmentFetch
/-! ## The sections that change the board -/

namespace AttachmentFetch

open Lib

variable {s t : AttachmentFetch} {job : AttachmentJob} {task : AttachmentTask} {ok : Bool} {answer : FetchAnswer}
  {force : Bool} {call : Nat}

/-! ## The sections that change the board -/

/-- A section that takes a start off the board and carries it no further. -/
structure Releases (s : AttachmentFetch) (job : AttachmentJob) (t : AttachmentFetch) : Prop where
  queue : t.queue = s.queue
  active : t.active = Function.update s.active job.key none
  forced : ∀ key, s.forced key = false → t.forced key = false
  forcedElse : ∀ key, key ≠ job.key → t.forced key = s.forced key
  bytes : t.bytes = s.bytes
  charges : t.charges = s.charges
  started : t.started = s.started

theorem Releases.ordered (h : s.Ordered) (hin : task ∈ s.tasks) (hrel : s.Releases job t)
    (hcarries : task.alive = [job.start]) (new : List AttachmentTask) (htasks : t.tasks = s.tasks.erase task ++ new)
    (hlive : new.flatMap (·.alive) = []) (hnew : ∀ other ∈ new, t.Fits other) : t.Ordered := by
  apply h.next hin new htasks
  case halone =>
    apply h.alone_next hin new htasks
    intro key
    rw [hrel.queue, hlive, List.append_nil, List.map_append, List.count_append]
    omega
  case hactive =>
    intro key call hkey
    rw [hrel.active, Function.update_apply] at hkey
    split_ifs at hkey with hsame
    refine .inr ⟨hkey, ?_⟩
    intro hmine
    rw [hcarries, List.mem_singleton] at hmine
    exact hsame (congrArg Prod.fst hmine)
  case hqueued =>
    rw [hrel.queue]
    exact h.queued
  case hrest =>
    intro other _ hfits
    apply hfits.mono
    case hactive =>
      intro job' drains _ hnone
      rw [hrel.active, Function.update_apply]
      split_ifs
      · rfl
      · exact hnone
    case hforced =>
      intro job' _ hforced
      exact hrel.forced _ hforced
    case hbytes =>
      intro job' _ hstored
      rw [hrel.bytes]
      exact hstored
  case hnew => exact hnew

theorem Releases.charged (hcharged : s.Charged) (hin : task ∈ s.tasks) (hrel : s.Releases job t)
    (new : List AttachmentTask) (htasks : t.tasks = s.tasks.erase task ++ new)
    (howed : dues (new.flatMap (·.owed)) = dues task.owed) : t.Charged := by
  apply hcharged.next hin new htasks
  case hdue =>
    intro call
    rw [hrel.charges, hrel.started, hrel.queue, howed]
  case hautomatic =>
    intro job' hjob
    rw [hrel.started] at hjob
    exact .inl hjob

section

variable (h : s.Ordered) (hin : task ∈ s.tasks) (hrel : s.Releases job t)
  (hcarries : task.alive = [job.start])
include h hin hrel hcarries

/-- The other keys stand as they did; the key's own start is the task's. -/
theorem Releases.stands {key : String} (hstands : s.Stands key call) :
    t.Stands key call ∨ job.key = key ∧ job.call = call := by
  by_cases hsame : key = job.key
  · subst hsame
    have hmine : job.start ∈ s.tasks.flatMap (·.alive) := mem_alive hin (by rw [hcarries]; exact List.mem_singleton.mpr rfl)
    exact .inr ⟨rfl, h.stands_mine hmine hstands⟩
  · left
    unfold Stands
    rw [hrel.active, hrel.queue, Function.update_of_ne hsame]
    exact hstands

theorem Releases.gone : ¬ t.Stands job.key call := by
  have hmine : job.start ∈ s.tasks.flatMap (·.alive) := mem_alive hin (by rw [hcarries]; exact List.mem_singleton.mpr rfl)
  rintro (hactive | ⟨other, hother, hkey, -⟩)
  · rw [hrel.active, Function.update_self] at hactive
    cases hactive
  · rw [hrel.queue] at hother
    exact h.apart hother hmine hkey.symm

theorem Releases.tapped {key : String} (hforced : s.forced key = true)
    (hafter : t.Stands key call) : t.forced key = true := by
  by_cases hsame : key = job.key
  · subst hsame
    exact absurd hafter (hrel.gone h hin hcarries)
  · rw [hrel.forcedElse key hsame]
    exact hforced

end

theorem kept_settle (h : s.Ordered) (hcharged : s.Charged) (hin : task ∈ s.tasks) (drains failed : Bool)
    (htask : task = if failed then .markFailed job drains else .markReady job drains)
    (htasks : t.tasks = s.tasks.erase task ++ goOn drains) (hrel : s.Releases job t)
    (hfailed : t.failed = Function.update s.failed job.key failed) : s.Kept (.run task ok answer) t := by
  have hcarries : task.alive = [job.start] := by
    subst htask
    cases failed <;> rfl
  have hsettles : Settles (.run task ok answer) job.key job.call := by
    refine ⟨job, drains, ok, answer, rfl, rfl, ?_⟩
    cases failed
    · exact .inl (by rw [htask]; rfl)
    · exact .inr (by rw [htask]; rfl)
  have hlive : (goOn drains).flatMap (·.alive) = [] := by cases drains <;> rfl
  have hnew : ∀ other ∈ goOn drains, t.Fits other := by
    intro other hother
    cases drains
    · cases hother
    · obtain rfl := List.mem_singleton.mp hother
      trivial
  constructor
  case ordered => exact hrel.ordered h hin hcarries (goOn drains) htasks hlive hnew
  case charged =>
    apply hrel.charged hcharged hin (goOn drains) htasks
    subst htask
    cases drains <;> cases failed <;> rfl
  case keeps =>
    constructor
    case admitted =>
      intro job' force ok' answer' _ hstep
      subst htask
      cases failed <;> cases hstep
    case stands =>
      intro key call hstands
      rcases hrel.stands h hin hcarries hstands with hafter | ⟨rfl, rfl⟩
      · exact .inl hafter
      · exact .inr (.inr (.inl hsettles))
    case tapped =>
      intro key call _ hforced hafter
      exact hrel.tapped h hin hcarries hforced hafter
    case failed =>
      intro key call hstands hafter
      rcases hrel.stands h hin hcarries hstands with - | ⟨rfl, rfl⟩
      · rw [hfailed, Function.update_apply] at hafter
        split_ifs at hafter with hsame
        · subst hsame
          have hmine := h.stands_mine (mem_alive hin (by rw [hcarries]; exact List.mem_singleton.mpr rfl)) hstands
          subst hmine
          exact .inr hsettles
        · exact .inl hafter
      · exact .inr hsettles
    case bytes =>
      intro key call _ job' drains' ok' answer' _ hstep
      subst htask
      cases failed <;> cases hstep
    case ready =>
      intro job' drains' ok' answer' hin' hstep
      subst htask
      cases failed
      · cases hstep
        refine ⟨?_, ?_⟩
        · rw [hrel.bytes]
          exact h.fits _ hin
        · rw [hfailed, Function.update_self]
      · cases hstep

/-- The automatic limits hold a start back, of a key no tap asked for. -/
theorem kept_held (h : s.Ordered) (hcharged : s.Charged) (hin : task ∈ s.tasks) (new : List AttachmentTask)
    (htask : task = .refused job ∨ task = .lane job) (hrel : s.Releases job t) (hforced : s.forced job.key = false)
    (hfailed : t.failed = s.failed) (htasks : t.tasks = s.tasks.erase task ++ new)
    (hlive : new.flatMap (·.alive) = []) (howed : dues (new.flatMap (·.owed)) = dues task.owed)
    (hnew : ∀ other ∈ new, t.Fits other) : s.Kept (.run task ok answer) t := by
  have hcarries : task.alive = [job.start] := by
    rcases htask with rfl | rfl
    · rfl
    · rfl
  constructor
  case ordered => exact hrel.ordered h hin hcarries new htasks hlive hnew
  case charged => exact hrel.charged hcharged hin new htasks howed
  case keeps =>
    constructor
    case admitted =>
      intro job' force ok' answer' _ hstep
      rcases htask with rfl | rfl
      · cases hstep
      · cases hstep
    case stands =>
      intro key call hstands
      rcases hrel.stands h hin hcarries hstands with hafter | ⟨rfl, rfl⟩
      · exact .inl hafter
      · exact .inr (.inr (.inr ⟨⟨task, ok, answer, rfl, .inr ⟨job, htask, rfl, rfl⟩⟩, hforced⟩))
    case tapped =>
      intro key call _ htapped hafter
      exact hrel.tapped h hin hcarries htapped hafter
    case failed =>
      intro key call _ hafter
      rw [hfailed] at hafter
      exact .inl hafter
    case bytes =>
      intro key call _ job' drains' ok' answer' _ hstep
      rcases htask with rfl | rfl
      · cases hstep
      · cases hstep
    case ready =>
      intro job' drains' ok' answer' _ hstep
      rcases htask with rfl | rfl
      · cases hstep
      · cases hstep

/-- Bytes are taken back where no other download has just stored them. -/
theorem kept_takeBack (h : s.Ordered) (hcharged : s.Charged) {drains : Bool} (hin : .takeBack job drains ∈ s.tasks)
    (hmine : ∀ task ∈ s.tasks, ∀ other ∈ task.stored, other.hash ≠ job.hash) :
    s.Kept (.run (.takeBack job drains) ok answer)
      (({ s with tasks := s.tasks.erase (.takeBack job drains) }).perform ok answer (.takeBack job drains)) := by
  have hback : s.active job.key = none := h.fits _ hin
  have hlive : (goOn drains).flatMap (·.alive) = [] := by cases drains <;> rfl
  have hstart : job.start ∈ s.tasks.flatMap (·.alive) := mem_alive hin (List.mem_singleton.mpr rfl)
  have hquiet : s.Quiet ((({ s with tasks := s.tasks.erase (.takeBack job drains) }).perform ok answer
      (.takeBack job drains))) := ⟨rfl, rfl, rfl, rfl⟩
  constructor
  case ordered =>
    apply h.next hin (goOn drains) rfl
    case halone =>
      apply h.alone_next hin (goOn drains) rfl
      intro key
      rw [hquiet.queue, hlive, List.append_nil, List.map_append, List.count_append]
      omega
    case hactive =>
      intro key call hkey
      rw [hquiet.active] at hkey
      refine .inr ⟨hkey, ?_⟩
      intro hmem
      have hsame : key = job.key := congrArg Prod.fst (List.mem_singleton.mp hmem)
      rw [hsame, hback] at hkey
      cases hkey
    case hqueued => exact h.queued
    case hrest =>
      intro other hother hfits
      apply hfits.mono
      case hactive =>
        intro job' drains' _ hnone
        exact hnone
      case hforced =>
        intro job' _ hforced
        exact hforced
      case hbytes =>
        intro job' hjob' hstored
        show Function.update s.bytes job.hash false job'.hash = true
        rw [Function.update_of_ne (hmine other (List.mem_of_mem_erase hother) job' hjob')]
        exact hstored
    case hnew =>
      intro other hother
      cases drains
      · cases hother
      · obtain rfl := List.mem_singleton.mp hother
        trivial
  case charged =>
    apply hcharged.next hin (goOn drains) rfl
    case hdue =>
      intro call
      have howed : dues ((goOn drains).flatMap (·.owed)) = [] := by cases drains <;> rfl
      rw [howed]
      rfl
    case hautomatic =>
      intro job' hjob'
      exact .inl hjob'
  case keeps =>
    constructor
    case admitted =>
      intro job' force ok' answer' _ hstep
      cases hstep
    case stands =>
      intro key call hstands
      exact .inl (hquiet.stands hstands)
    case tapped =>
      intro key call _ hforced _
      exact hforced
    case failed =>
      intro key call _ hfailed
      exact .inl hfailed
    case bytes =>
      intro key call hstands job' drains' ok' answer' _ hstep hsame
      cases hstep
      subst hsame
      rcases hstands with hactive | ⟨other, hother, hkey, -⟩
      · rw [hback] at hactive
        cases hactive
      · exact h.apart hother hstart hkey.symm
    case ready =>
      intro job' drains' ok' answer' _ hstep
      cases hstep

/-! ## Admission -/

theorem not_duplicate_iff {key : String} : (s.isActive key || s.jobQueued key) = false ↔
    s.active key = none ∧ ∀ job ∈ s.queue, job.key ≠ key := by
  rw [Bool.or_eq_false_iff]
  constructor
  · rintro ⟨hactive, hqueued⟩
    refine ⟨by simpa [isActive] using hactive, ?_⟩
    intro job hjob hkey
    rw [jobQueued_iff.mpr ⟨job, hjob, hkey⟩] at hqueued
    cases hqueued
  · rintro ⟨hactive, hqueued⟩
    refine ⟨by simp [isActive, hactive], ?_⟩
    by_contra hthere
    obtain ⟨job, hjob, hkey⟩ := jobQueued_iff.mp (by simpa using hthere)
    exact hqueued job hjob hkey

/-- The state a job is admitted in, its forced mark and its failed mark changed. -/
structure Admitting (s : AttachmentFetch) (job : AttachmentJob) (force : Bool) (t : AttachmentFetch) : Prop where
  active : t.active = s.active
  forced : t.forced = if force then Function.update s.forced job.key true else s.forced
  failed : ∀ key, t.failed key = true → s.failed key = true
  bytes : t.bytes = s.bytes
  charges : t.charges = s.charges
  started : t.started = s.started

theorem Admitting.forced_of (hadm : s.Admitting job force t) {key : String} (hforced : s.forced key = true) :
    t.forced key = true := by
  rw [hadm.forced]
  split_ifs
  · rw [Function.update_apply, hforced, ite_self]
  · exact hforced

theorem Admitting.fits (hadm : s.Admitting job force t)
    (htap : force = true → ∀ task ∈ s.tasks, ∀ other ∈ task.limited, other.key ≠ job.key) (hin : task ∈ s.tasks)
    (hfits : s.Fits task) : t.Fits task := by
  apply hfits.mono
  case hactive =>
    intro job' drains _ hnone
    rw [hadm.active]
    exact hnone
  case hforced =>
    intro job' hjob' hforced
    rw [hadm.forced]
    split_ifs with hforce
    · rw [Function.update_of_ne (htap hforce task hin job' hjob')]
      exact hforced
    · exact hforced
  case hbytes =>
    intro job' _ hstored
    rw [hadm.bytes]
    exact hstored

/-- What an admission leaves, where what stands stays and its key stands. -/
theorem Admitting.keeps (hadm : s.Admitting job force t) (hqueue : ∀ job ∈ s.queue, job ∈ t.queue)
    (hthere : ∃ call, t.Stands job.key call) : s.Keeps (.run (.admitJob job force) ok answer) t := by
  constructor
  case admitted =>
    intro job' force' ok' answer' _ hstep
    cases hstep
    refine ⟨hthere, ?_⟩
    intro hforce
    rw [hadm.forced, if_pos hforce, Function.update_self]
  case stands =>
    intro key call hstands
    left
    rcases hstands with hactive | ⟨other, hother, hkey⟩
    · left
      rw [hadm.active]
      exact hactive
    · exact .inr ⟨other, hqueue other hother, hkey⟩
  case tapped =>
    intro key call _ hforced _
    exact hadm.forced_of hforced
  case failed =>
    intro key call _ hfailed
    exact .inl (hadm.failed key hfailed)
  case bytes =>
    intro key call _ job' drains' ok' answer' _ hstep
    cases hstep
  case ready =>
    intro job' drains' ok' answer' _ hstep
    cases hstep

theorem goOn_alive (drains : Bool) : (goOn drains).flatMap (·.alive) = [] := by cases drains <;> rfl

theorem goOn_owed (drains : Bool) : (goOn drains).flatMap (·.owed) = [] := by cases drains <;> rfl

theorem fits_goOn {drains : Bool} : ∀ other ∈ goOn drains, t.Fits other := by
  intro other hother
  cases drains
  · cases hother
  · obtain rfl := List.mem_singleton.mp hother
    trivial

/-- The key has a download already: the job is given back what it was charged. -/
theorem kept_duplicate (h : s.Ordered) (hcharged : s.Charged) (hin : .admitJob job force ∈ s.tasks)
    (htap : force = true → ∀ task ∈ s.tasks, ∀ other ∈ task.limited, other.key ≠ job.key)
    (hduplicate : (s.isActive job.key || s.jobQueued job.key) = true) (hadm : s.Admitting job force t)
    (hqueue : t.queue = s.queue) (drains : Bool)
    (htasks : t.tasks = s.tasks.erase (.admitJob job force) ++ .refund job :: goOn drains) :
    s.Kept (.run (.admitJob job force) ok answer) t := by
  have hlive : (AttachmentTask.refund job :: goOn drains).flatMap (·.alive) = [] := by
    rw [List.flatMap_cons, goOn_alive]
    rfl
  constructor
  case ordered =>
    apply h.next hin _ htasks
    case halone =>
      apply h.alone_next hin _ htasks
      intro key
      rw [hqueue, hlive]
      exact le_rfl
    case hactive =>
      intro key call hkey
      rw [hadm.active] at hkey
      exact .inr ⟨hkey, List.not_mem_nil⟩
    case hqueued =>
      rw [hqueue]
      exact h.queued
    case hrest =>
      intro other hother hfits
      exact hadm.fits htap (List.mem_of_mem_erase hother) hfits
    case hnew =>
      intro other hother
      rcases List.mem_cons.mp hother with rfl | hother
      · trivial
      · exact fits_goOn other hother
  case charged =>
    apply hcharged.next hin _ htasks
    case hdue =>
      intro call
      rw [hadm.charges, hadm.started, hqueue, List.flatMap_cons, goOn_owed, List.append_nil]
      rfl
    case hautomatic =>
      intro other hother
      rw [hadm.started] at hother
      exact .inl hother
  case keeps =>
    apply hadm.keeps
    case hqueue =>
      intro other hother
      rw [hqueue]
      exact hother
    case hthere =>
      rw [Bool.or_eq_true, isActive_iff, jobQueued_iff] at hduplicate
      rcases hduplicate with ⟨call, hactive⟩ | ⟨other, hother, hkey⟩
      · refine ⟨call, .inl ?_⟩
        rw [hadm.active]
        exact hactive
      · refine ⟨other.call, .inr ⟨other, ?_, hkey, rfl⟩⟩
        rw [hqueue]
        exact hother

/-- A key with no download and no start still under way comes into the queue. -/
theorem kept_queued (h : s.Ordered) (hcharged : s.Charged) (hin : .admitJob job force ∈ s.tasks)
    (hfree : ∀ task ∈ s.tasks, ∀ other ∈ task.alive, other.1 ≠ job.key)
    (htap : force = true → ∀ task ∈ s.tasks, ∀ other ∈ task.limited, other.key ≠ job.key)
    (hduplicate : (s.isActive job.key || s.jobQueued job.key) = false) (hadm : s.Admitting job force t)
    (hqueue : t.queue = s.queue ++ [job]) (drains : Bool)
    (htasks : t.tasks = s.tasks.erase (.admitJob job force) ++ goOn drains) :
    s.Kept (.run (.admitJob job force) ok answer) t := by
  obtain ⟨-, hqueued⟩ := not_duplicate_iff.mp hduplicate
  constructor
  case ordered =>
    apply h.next hin _ htasks
    case halone =>
      have halone := List.nodup_iff_count_le_one.mp h.alone
      apply List.nodup_iff_count_le_one.mpr
      intro key
      have hkey := halone key
      rw [List.map_append, List.count_append, count_alive hin] at hkey
      rw [htasks, List.flatMap_append, goOn_alive, List.append_nil, hqueue, List.map_append, List.map_append,
        List.map_append, List.count_append, List.count_append]
      by_cases hsame : key = job.key
      · subst hsame
        have hold : ((s.queue.map (·.start)).map Prod.fst).count job.key = 0 := by
          apply List.count_eq_zero.mpr
          simpa [AttachmentJob.start] using hqueued
        have hnone : (((s.tasks.erase (.admitJob job force)).flatMap (·.alive)).map Prod.fst).count job.key = 0 := by
          apply List.count_eq_zero.mpr
          intro hmem
          obtain ⟨x, hx, hfst⟩ := List.mem_map.mp hmem
          obtain ⟨task, htask, hx⟩ := List.mem_flatMap.mp hx
          exact hfree task (List.mem_of_mem_erase htask) x hx hfst
        have hone : (([job].map (·.start)).map Prod.fst).count job.key = 1 := by simp [AttachmentJob.start]
        omega
      · have hone : (([job].map (·.start)).map Prod.fst).count key = 0 := by
          apply List.count_eq_zero.mpr
          simpa [AttachmentJob.start] using hsame
        omega
    case hactive =>
      intro key call hkey
      rw [hadm.active] at hkey
      exact .inr ⟨hkey, List.not_mem_nil⟩
    case hqueued =>
      intro other hother
      rw [hqueue, List.mem_append, List.mem_singleton] at hother
      rcases hother with hother | rfl
      · exact h.queued other hother
      · exact h.fits _ hin
    case hrest =>
      intro other hother hfits
      exact hadm.fits htap (List.mem_of_mem_erase hother) hfits
    case hnew => exact fits_goOn
  case charged =>
    apply hcharged.next hin _ htasks
    case hdue =>
      intro call
      rw [hadm.charges, hadm.started, hqueue, goOn_owed, dues_append, List.count_append]
      show _ + _ + (dues [job]).count call + _ = _ + (_ + (dues [job]).count call) + 0 + _
      omega
    case hautomatic =>
      intro other hother
      rw [hadm.started] at hother
      exact .inl hother
  case keeps =>
    apply hadm.keeps
    case hqueue =>
      intro other hother
      rw [hqueue]
      exact List.mem_append_left _ hother
    case hthere =>
      refine ⟨job.call, .inr ⟨job, ?_, rfl, rfl⟩⟩
      rw [hqueue]
      exact List.mem_append_right _ (List.mem_singleton.mpr rfl)

/-! ## The drain -/

theorem perm_drainScan (jobs : List AttachmentJob) : jobs.Perm ((s.drainScan jobs).1.toList ++ (s.drainScan jobs).2.1 ++
    (s.drainScan jobs).2.2.map (·.1)) := by
  induction jobs with
  | nil => exact .nil
  | cons job rest ih =>
    dsimp only [drainScan]
    generalize (if s.rejudge job = true then s.autoVerdict job else AutoVerdict.yes) = verdict
    split_ifs with hunknown hstarts
    · apply (ih.cons job).trans
      simp only [List.append_assoc]
      exact List.perm_middle.symm
    · simp
    · apply (ih.cons job).trans
      exact List.perm_middle.symm

theorem rejudge_of_held (jobs : List AttachmentJob) : ∀ x ∈ (s.drainScan jobs).2.2, s.rejudge x.1 = true := by
  induction jobs with
  | nil =>
    intro x hx
    cases hx
  | cons job rest ih =>
    dsimp only [drainScan]
    by_cases hrejudge : s.rejudge job = true
    · rw [if_pos hrejudge]
      split_ifs with hunknown hstarts
      · exact ih
      · intro x hx
        cases hx
      · intro x hx
        rcases List.mem_cons.mp hx with rfl | hx
        · exact hrejudge
        · exact ih x hx
    · rw [if_neg hrejudge]
      intro x hx
      cases hx

theorem forced_of_rejudge (hrejudge : s.rejudge job = true) : s.forced job.key = false := by
  rw [rejudge, Bool.and_eq_true] at hrejudge
  simpa using hrejudge.2

theorem foldl_holdBackJob (held : List (AttachmentJob × AutoVerdict)) : ∀ s : AttachmentFetch,
    ∃ pending waitingForNetwork, held.foldl (fun s x => s.holdBackJob x.1 x.2) s =
      { s with pending := pending, waitingForNetwork := waitingForNetwork } := by
  induction held with
  | nil =>
    intro s
    exact ⟨s.pending, s.waitingForNetwork, rfl⟩
  | cons x held ih =>
    intro s
    obtain ⟨pending, waitingForNetwork, hfold⟩ := ih (s.holdBackJob x.1 x.2)
    refine ⟨pending, waitingForNetwork, ?_⟩
    rw [List.foldl_cons, hfold]
    unfold holdBackJob waitFor
    dsimp only
    split_ifs <;> rfl

/-- What a drain takes with it, judged as it stands now. -/
def takenTask (s : AttachmentFetch) (job : AttachmentJob) : AttachmentTask :=
  .taken { job with tapped := job.tapped || s.forced job.key } (s.rejudge job)

/-- A drain's section: a job starts, or none does, and others are held back. -/
structure Drains (s : AttachmentFetch) (next : Option AttachmentJob) (kept held : List AttachmentJob)
    (t : AttachmentFetch) : Prop where
  jobs : s.queue.Perm (next.toList ++ kept ++ held)
  rejudged : ∀ job ∈ held, s.forced job.key = false
  queue : t.queue = kept
  active : ∀ key, t.active key = s.active key ∧ (∀ job, next = some job → key ≠ job.key) ∨
    ∃ job, next = some job ∧ key = job.key ∧ t.active key = some job.call
  forced : t.forced = s.forced
  failed : t.failed = s.failed
  bytes : t.bytes = s.bytes
  charges : t.charges = s.charges
  started : t.started = s.started
  tasks : t.tasks = s.tasks.erase .drain ++ (held.map .refund ++ next.toList.map s.takenTask)

theorem drains_drain : ∃ next kept held,
    s.Drains next kept held (({ s with tasks := s.tasks.erase .drain }).perform ok answer .drain) := by
  show ∃ next kept held, s.Drains next kept held ({ s with tasks := s.tasks.erase .drain }).drain
  unfold AttachmentFetch.drain
  generalize hu : ({ s with tasks := s.tasks.erase .drain } : AttachmentFetch) = u
  have hperm := perm_drainScan (s := u) u.queue
  have hheld := rejudge_of_held (s := u) u.queue
  obtain ⟨pending, waitingForNetwork, hfold⟩ :=
    foldl_holdBackJob (u.drainScan u.queue).2.2 { u with queue := (u.drainScan u.queue).2.1 }
  refine ⟨(u.drainScan u.queue).1, (u.drainScan u.queue).2.1, (u.drainScan u.queue).2.2.map (·.1), ?_⟩
  generalize u.drainScan u.queue = scan at hperm hheld hfold
  obtain ⟨next, kept, held⟩ := scan
  subst hu
  dsimp only at hperm hheld hfold ⊢
  rw [hfold]
  have hrejudged : ∀ job ∈ held.map (·.1), s.forced job.key = false := by
    intro job hjob
    obtain ⟨x, hx, rfl⟩ := List.mem_map.mp hjob
    exact forced_of_rejudge (s := { s with tasks := s.tasks.erase .drain }) (hheld x hx)
  cases next with
  | none =>
    constructor
    case jobs => exact hperm
    case rejudged => exact hrejudged
    case active =>
      intro key
      exact .inl ⟨rfl, fun job hjob => by cases hjob⟩
    case tasks => simp [post, List.map_map, Function.comp_def]
    all_goals rfl
  | some job =>
    constructor
    case jobs => exact hperm
    case rejudged => exact hrejudged
    case active =>
      intro key
      by_cases hsame : key = job.key
      · exact .inr ⟨job, rfl, hsame, by subst hsame; exact Function.update_self ..⟩
      · refine .inl ⟨Function.update_of_ne hsame .., ?_⟩
        intro other hother
        cases hother
        exact hsame
    case tasks => simp [post, takenTask, rejudge, List.map_map, Function.comp_def]
    all_goals rfl

namespace Drains

variable {next : Option AttachmentJob} {kept held : List AttachmentJob}

theorem mem_queue (hdrains : s.Drains next kept held t) :
    job ∈ s.queue ↔ next = some job ∨ job ∈ kept ∨ job ∈ held := by
  rw [hdrains.jobs.mem_iff, List.mem_append, List.mem_append, Option.mem_toList, or_assoc]

theorem ordered (h : s.Ordered) (hin : .drain ∈ s.tasks) (hdrains : s.Drains next kept held t) : t.Ordered := by
  have hlive : (held.map AttachmentTask.refund ++ next.toList.map s.takenTask).flatMap (·.alive) =
      next.toList.map (·.start) := by
    rw [List.flatMap_append]
    have hrefunds : (held.map AttachmentTask.refund).flatMap (·.alive) = [] := by
      simp [List.flatMap_map, AttachmentTask.alive]
    rw [hrefunds, List.nil_append]
    cases next <;> rfl
  apply h.next hin _ hdrains.tasks
  case halone =>
    apply h.alone_next hin _ hdrains.tasks
    intro key
    have hcount := ((hdrains.jobs.map (·.start)).map Prod.fst).count_eq key
    rw [List.map_append, List.map_append, List.map_append, List.map_append, List.count_append,
      List.count_append] at hcount
    rw [hdrains.queue, hlive, List.map_append, List.count_append, List.map_append, List.count_append]
    omega
  case hactive =>
    intro key call hkey
    rcases hdrains.active key with ⟨hold, -⟩ | ⟨job, rfl, hsame, hnew⟩
    · rw [hold] at hkey
      exact .inr ⟨hkey, List.not_mem_nil⟩
    · rw [hkey] at hnew
      cases hnew
      left
      rw [hlive, hsame]
      exact List.mem_singleton.mpr rfl
  case hqueued =>
    intro job hjob
    rw [hdrains.queue] at hjob
    exact h.queued job (hdrains.mem_queue.mpr (.inr (.inl hjob)))
  case hrest =>
    intro other hother hfits
    apply hfits.mono
    case hactive =>
      intro job' drains htask hnone
      have hstart : job'.start ∈ s.tasks.flatMap (·.alive) := by
        apply mem_alive (List.mem_of_mem_erase hother)
        rw [htask]
        exact List.mem_singleton.mpr rfl
      rcases hdrains.active job'.key with ⟨hold, -⟩ | ⟨job, hnext, hsame, -⟩
      · rw [hold]
        exact hnone
      · exact absurd hsame (h.apart (hdrains.mem_queue.mpr (.inl hnext)) hstart)
    case hforced =>
      intro job' _ hforced
      rw [hdrains.forced]
      exact hforced
    case hbytes =>
      intro job' _ hstored
      rw [hdrains.bytes]
      exact hstored
  case hnew =>
    intro other hother
    rcases List.mem_append.mp hother with hrefund | htaken
    · obtain ⟨job', -, rfl⟩ := List.mem_map.mp hrefund
      trivial
    · obtain ⟨job', hjob', rfl⟩ := List.mem_map.mp htaken
      have hqueue : job' ∈ s.queue := hdrains.mem_queue.mpr (.inl (Option.mem_toList.mp hjob'))
      constructor
      · intro huncharged huntapped
        obtain ⟨htapped, hforced⟩ := Bool.or_eq_false_iff.mp huntapped
        rw [rejudge, h.queued job' hqueue huncharged htapped, hforced]
        rfl
      · intro hrejudge _
        rw [hdrains.forced]
        exact forced_of_rejudge hrejudge

theorem charged (hcharged : s.Charged) (hin : .drain ∈ s.tasks) (hdrains : s.Drains next kept held t) :
    t.Charged := by
  apply hcharged.next hin _ hdrains.tasks
  case hdue =>
    intro call
    have hcount := ((hdrains.jobs.filter (·.charged)).map (·.call)).count_eq call
    have howed : dues ((held.map AttachmentTask.refund ++ next.toList.map s.takenTask).flatMap (·.owed)) =
        dues held ++ dues next.toList := by
      rw [List.flatMap_append, dues_append]
      congr 1
      · simp [List.flatMap_map, AttachmentTask.owed]
      · cases next with
        | none => rfl
        | some job => cases hpaid : job.charged <;> simp [dues, takenTask, AttachmentTask.owed, hpaid]
    rw [List.filter_append, List.filter_append, List.map_append, List.map_append, List.count_append,
      List.count_append] at hcount
    rw [howed, hdrains.charges, hdrains.started, hdrains.queue, List.count_append]
    simp only [dues, AttachmentTask.owed, List.filter_nil, List.map_nil, List.count_nil]
    omega
  case hautomatic =>
    intro job hjob
    rw [hdrains.started] at hjob
    exact .inl hjob

theorem keeps (h : s.Ordered) (hdrains : s.Drains next kept held t) : s.Keeps (.run .drain ok answer) t := by
  constructor
  case admitted =>
    intro job force ok' answer' _ hstep
    cases hstep
  case stands =>
    intro key call hstands
    rcases hstands with hactive | ⟨job, hjob, hkey, hcall⟩
    · refine .inl (.inl ?_)
      rcases hdrains.active key with ⟨hold, -⟩ | ⟨job, hnext, hsame, -⟩
      · rw [hold]
        exact hactive
      · exact absurd hsame (h.apart (hdrains.mem_queue.mpr (.inl hnext)) (h.active key call hactive))
    · rcases hdrains.mem_queue.mp hjob with hnext | hkept | hheld
      · refine .inl (.inl ?_)
        rcases hdrains.active key with ⟨-, hother⟩ | ⟨job', hnext', -, hnew⟩
        · exact absurd hkey.symm (hother job hnext)
        · rw [hnext] at hnext'
          cases hnext'
          rw [hnew, hcall]
      · refine .inl (.inr ⟨job, ?_, hkey, hcall⟩)
        rw [hdrains.queue]
        exact hkept
      · refine .inr (.inr (.inr ⟨⟨.drain, ok, answer, rfl, .inl rfl⟩, ?_⟩))
        rw [← hkey]
        exact hdrains.rejudged job hheld
  case tapped =>
    intro key call _ hforced _
    rw [hdrains.forced]
    exact hforced
  case failed =>
    intro key call _ hfailed
    rw [hdrains.failed] at hfailed
    exact .inl hfailed
  case bytes =>
    intro key call _ job' drains' ok' answer' _ hstep
    cases hstep
  case ready =>
    intro job' drains' ok' answer' _ hstep
    cases hstep

end Drains

theorem kept_drain (h : s.Ordered) (hcharged : s.Charged) (hin : .drain ∈ s.tasks) :
    s.Kept (.run .drain ok answer) (({ s with tasks := s.tasks.erase .drain }).perform ok answer .drain) := by
  obtain ⟨next, kept, held, hdrains⟩ : ∃ next kept held, s.Drains next kept held
      (({ s with tasks := s.tasks.erase .drain }).perform ok answer .drain) := drains_drain
  exact ⟨hdrains.ordered h hin, hdrains.charged hcharged hin, hdrains.keeps h⟩

end AttachmentFetch
end Pbr
