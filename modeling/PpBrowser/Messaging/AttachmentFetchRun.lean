import PpBrowser.Messaging.AttachmentSections

/-!
# AttachmentFetchRun — a download ends as its own fetch did

The board knows a download by its key alone: a fetch that was cancelled and
finishes late, a drain that judged a job before a tap, a cancel that takes a
charged job off the queue each reach what is no longer theirs. While a key is
asked for again only after its cancelled start is done, no tap falls between a
drain's look and its charge, and no cancel meets a charged job, each start is
settled by its own fetch and the automatic limits are charged for what runs.
-/

namespace Pbr
namespace AttachmentFetch

open Lib

variable {s t : AttachmentFetch} {job : AttachmentJob} {task : AttachmentTask} {ok : Bool} {answer : FetchAnswer}

/-! ## Steps of others -/

theorem cancelJobs_stands {keys : List String} {key : String} {call : Nat} :
    (s.cancelJobs keys).Stands key call ↔ s.Stands key call ∧ keys.contains key = false := by
  have hactive : (s.cancelJobs keys).active key = if keys.contains key then none else s.active key := rfl
  have hqueue : ∀ job, job ∈ (s.cancelJobs keys).queue ↔ job ∈ s.queue ∧ keys.contains job.key = false := by
    intro job
    simp [cancelJobs]
  unfold Stands
  rw [hactive]
  cases hin : keys.contains key with
  | true =>
    simp only [if_true, hqueue]
    constructor
    · rintro (hnone | ⟨job, ⟨-, hout⟩, rfl, -⟩)
      · cases hnone
      · rw [hin] at hout
        cases hout
    · rintro ⟨-, hfalse⟩
      cases hfalse
  | false =>
    simp only [Bool.false_eq_true, if_false, hqueue, and_true]
    constructor
    · rintro (hactive | ⟨job, ⟨hjob, -⟩, hkey⟩)
      · exact .inl hactive
      · exact .inr ⟨job, hjob, hkey⟩
    · rintro (hactive | ⟨job, hjob, rfl, hcall⟩)
      · exact .inl hactive
      · exact .inr ⟨job, ⟨hjob, hin⟩, rfl, hcall⟩

theorem kept_cancel (h : s.Ordered) (hcharged : s.Charged) {keys : List String}
    (hfree : ∀ job ∈ s.queue, keys.contains job.key = true → job.charged = false) :
    s.Kept (.cancel keys) (s.cancelJobs keys) := by
  have hactive : ∀ key, (s.cancelJobs keys).active key = if keys.contains key then none else s.active key :=
    fun _ => rfl
  have hforced : ∀ key, (s.cancelJobs keys).forced key = (s.forced key && !keys.contains key) := fun _ => rfl
  constructor
  case ordered =>
    constructor
    case alone =>
      apply List.Nodup.sublist _ h.alone
      apply List.Sublist.map
      apply List.Sublist.append_right
      exact List.Sublist.map _ List.filter_sublist
    case active =>
      intro key call hkey
      rw [hactive] at hkey
      split_ifs at hkey
      exact h.active key call hkey
    case queued =>
      intro job hjob
      exact h.queued job (List.mem_of_mem_filter hjob)
    case fits =>
      intro other hother
      apply (h.fits other hother).mono
      case hactive =>
        intro job drains _ hnone
        rw [hactive, hnone, ite_self]
      case hforced =>
        intro job _ hnone
        rw [hforced, hnone, Bool.false_and]
      case hbytes =>
        intro job _ hstored
        exact hstored
  case charged =>
    refine ⟨?_, hcharged.automatic⟩
    intro call
    have hdues : dues (s.cancelJobs keys).queue = dues s.queue := by
      unfold dues
      congr 1
      show (s.queue.filter (!keys.contains ·.key)).filter (·.charged) = s.queue.filter (·.charged)
      rw [List.filter_filter]
      apply List.filter_congr
      intro job hjob
      cases hin : keys.contains job.key with
      | true => simp [hfree job hjob hin]
      | false => simp
    rw [hdues]
    exact hcharged.due call
  case keeps =>
    constructor
    case admitted =>
      intro job force ok' answer' _ hstep
      cases hstep
    case stands =>
      intro key call hstands
      cases hin : keys.contains key with
      | true => exact .inr (.inl ⟨keys, rfl, hin⟩)
      | false => exact .inl (cancelJobs_stands.mpr ⟨hstands, hin⟩)
    case tapped =>
      intro key call _ htapped hafter
      rw [hforced, htapped, (cancelJobs_stands.mp hafter).2]
      rfl
    case failed =>
      intro key call _ hfailed
      have hboth : (s.failed key && !keys.contains key) = true := hfailed
      rw [Bool.and_eq_true] at hboth
      exact .inl hboth.1
    case bytes =>
      intro key call _ job' drains' ok' answer' _ hstep
      cases hstep
    case ready =>
      intro job' drains' ok' answer' _ hstep
      cases hstep

/-- A step that puts new work in the queue of a worker. -/
theorem kept_same (h : s.Ordered) (hcharged : s.Charged) {step : Step} (new : List AttachmentTask)
    (hnot : ∀ task ok answer, step ≠ .run task ok answer) (hquiet : s.Quiet t) (htasks : t.tasks = s.tasks ++ new)
    (hnew : ∀ task ∈ new, (∃ job force, task = .enqueue job force) ∨ task = .kickDrain)
    (hcharges : t.charges = s.charges) (hstarted : t.started = s.started) (hbytes : t.bytes = s.bytes) :
    s.Kept step t := by
  have hlive : new.flatMap (·.alive) = [] := by
    apply List.flatMap_eq_nil_iff.mpr
    intro task htask
    rcases hnew task htask with ⟨job, force, rfl⟩ | rfl
    · rfl
    · rfl
  have howed : new.flatMap (·.owed) = [] := by
    apply List.flatMap_eq_nil_iff.mpr
    intro task htask
    rcases hnew task htask with ⟨job, force, rfl⟩ | rfl
    · rfl
    · rfl
  constructor
  case ordered =>
    constructor
    case alone =>
      rw [hquiet.queue, htasks, List.flatMap_append, hlive, List.append_nil]
      exact h.alone
    case active =>
      intro key call hkey
      rw [hquiet.active] at hkey
      rw [htasks, List.flatMap_append, hlive, List.append_nil]
      exact h.active key call hkey
    case queued =>
      rw [hquiet.queue]
      exact h.queued
    case fits =>
      intro other hother
      rw [htasks, List.mem_append] at hother
      rcases hother with hold | hother
      · apply (h.fits other hold).mono
        case hactive =>
          intro job drains _ hnone
          rw [hquiet.active]
          exact hnone
        case hforced =>
          intro job _ hforced
          rw [hquiet.forced]
          exact hforced
        case hbytes =>
          intro job _ hstored
          rw [hbytes]
          exact hstored
      · rcases hnew other hother with ⟨job, force, rfl⟩ | rfl
        · trivial
        · trivial
  case charged =>
    constructor
    case due =>
      intro call
      rw [hcharges, hstarted, hquiet.queue, htasks, List.flatMap_append, howed, List.append_nil]
      exact hcharged.due call
    case automatic =>
      rw [hstarted]
      exact hcharged.automatic
  case keeps =>
    apply hquiet.keeps
    all_goals
      intro job x ok' answer' hstep
      exact hnot _ _ _ hstep

theorem askAll_eq (jobs : List AttachmentJob) (force : Bool) : ∀ s : AttachmentFetch, ∃ new nextCall,
    s.askAll jobs force = { s with tasks := s.tasks ++ new, nextCall := nextCall } ∧
      ∀ task ∈ new, ∃ job, task = .enqueue job force := by
  induction jobs with
  | nil =>
    intro s
    refine ⟨[], s.nextCall, ?_, ?_⟩
    · simp [askAll]
    · intro task htask
      cases htask
  | cons job jobs ih =>
    intro s
    obtain ⟨new, nextCall, heq, hnew⟩ :=
      ih ({ s with nextCall := s.nextCall + 1 }.post [.enqueue { job with call := s.nextCall } force])
    refine ⟨.enqueue { job with call := s.nextCall } force :: new, nextCall, ?_, ?_⟩
    · unfold askAll at heq ⊢
      rw [List.foldl_cons, heq]
      simp [post]
    · intro task htask
      rcases List.mem_cons.mp htask with rfl | htask
      · exact ⟨_, rfl⟩
      · exact hnew task htask

/-! ## Every step -/

/-- A section that leaves the board and charges as it is told. -/
theorem kept_moved (h : s.Ordered) (hin : task ∈ s.tasks) (new : List AttachmentTask) (hplain : task.plain = true)
    (hquiet : s.Quiet t) (htasks : t.tasks = s.tasks.erase task ++ new)
    (hlive : new.flatMap (·.alive) = task.alive) (hbytes : t.bytes = s.bytes) (hnew : ∀ other ∈ new, t.Fits other)
    (hcharged : t.Charged) : s.Kept (.run task ok answer) t := by
  refine ⟨?_, hcharged, hquiet.keeps_run hplain⟩
  apply h.pass hin new hquiet htasks (.inl hlive)
  case hbytes =>
    intro hash hstored
    rw [hbytes]
    exact hstored
  case hnew => exact hnew

theorem Charged.start (hcharged : s.Charged) (hin : task ∈ s.tasks) (drains : Bool)
    (htasks : t.tasks = s.tasks.erase task ++ [.fetch job drains]) (hqueue : t.queue = s.queue)
    (hstarted : t.started = job :: s.started) (hcharges : ∀ call, t.charges.count call + (dues task.owed).count call =
      s.charges.count call + (dues [job]).count call)
    (hautomatic : job.tapped = false → job.charged = true) : t.Charged := by
  apply hcharged.next hin _ htasks
  case hdue =>
    intro call
    have hcall := hcharges call
    have hcons : (dues (job :: s.started)).count call = (dues [job]).count call + (dues s.started).count call := by
      rw [← List.singleton_append, dues_append, List.count_append]
    rw [hqueue, hstarted, hcons]
    show _ = _ + _ + 0 + _
    omega
  case hautomatic =>
    intro other hother
    rw [hstarted] at hother
    rcases List.mem_cons.mp hother with rfl | hother
    · exact .inr hautomatic
    · exact .inl hother

theorem kept_launch {taken : AttachmentJob} {rejudged : Bool} (h : s.Ordered) (hcharged : s.Charged)
    (hin : .taken taken rejudged ∈ s.tasks) (hstart : job.start = taken.start)
    (hautomatic : job.tapped = false → job.charged = true) (charges : List Nat)
    (hcharges : ∀ call, charges.count call + (dues [taken]).count call = s.charges.count call + (dues [job]).count call) :
    s.Kept (.run (.taken taken rejudged) ok answer)
      ({ s with tasks := s.tasks.erase (.taken taken rejudged), charges := charges }.launch job) := by
  unfold launch
  split_ifs with hlane
  · apply kept_moved h hin [.lane job, .drain] rfl
    case hquiet => exact ⟨rfl, rfl, rfl, rfl⟩
    case htasks => rfl
    case hlive =>
      show [job.start] = [taken.start]
      rw [hstart]
    case hbytes => rfl
    case hnew =>
      intro other hother
      rcases List.mem_cons.mp hother with rfl | hother
      · exact hautomatic
      · obtain rfl := List.mem_singleton.mp hother
        trivial
    case hcharged =>
      apply hcharged.next hin [.lane job, .drain] rfl
      case hdue =>
        intro call
        have hcall := hcharges call
        show charges.count call + (dues s.queue).count call + (dues [taken]).count call + (dues s.started).count call =
          s.charges.count call + (dues s.queue).count call + (dues [job]).count call + (dues s.started).count call
        omega
      case hautomatic =>
        intro other hother
        exact .inl hother
  · apply kept_moved h hin [.fetch job true] rfl
    case hquiet => exact ⟨rfl, rfl, rfl, rfl⟩
    case htasks => rfl
    case hlive =>
      show [job.start] = [taken.start]
      rw [hstart]
    case hbytes => rfl
    case hnew =>
      intro other hother
      obtain rfl := List.mem_singleton.mp hother
      trivial
    case hcharged => exact hcharged.start hin true rfl rfl rfl hcharges hautomatic

theorem kept_taken {rejudged : Bool} (h : s.Ordered) (hcharged : s.Charged) (hin : .taken job rejudged ∈ s.tasks) :
    s.Kept (.run (.taken job rejudged) ok answer)
      ({ s with tasks := s.tasks.erase (.taken job rejudged) }.perform ok answer (.taken job rejudged)) := by
  have hfits : s.Fits (.taken job rejudged) := h.fits _ hin
  dsimp only [perform]
  by_cases hasks : (rejudged && !job.charged) = true
  · rw [if_pos hasks]
    obtain ⟨hrejudged, huncharged⟩ := Bool.and_eq_true_iff.mp hasks
    have hunpaid : job.charged = false := by simpa using huncharged
    cases ok with
    | true =>
      rw [if_pos rfl]
      apply kept_launch h hcharged hin
      case hstart => rfl
      case hautomatic =>
        intro _
        rfl
      case hcharges =>
        intro call
        simp [dues, hunpaid, List.count_cons]
    | false =>
      rw [if_neg Bool.false_ne_true]
      apply kept_moved h hin [.refused job] rfl
      case hquiet => exact ⟨rfl, rfl, rfl, rfl⟩
      case htasks => rfl
      case hlive => rfl
      case hbytes => rfl
      case hnew =>
        intro other hother
        obtain rfl := List.mem_singleton.mp hother
        exact ⟨hunpaid, hfits.2 hrejudged hunpaid⟩
      case hcharged =>
        apply hcharged.next hin [.refused job] rfl
        case hdue =>
          intro call
          rfl
        case hautomatic =>
          intro other hother
          exact .inl hother
  · rw [if_neg hasks]
    apply kept_launch h hcharged hin rfl
    case hautomatic =>
      intro huntapped
      by_contra hunpaid
      have hunpaid : job.charged = false := by simpa using hunpaid
      exact hasks (by rw [hfits.1 hunpaid huntapped, hunpaid]; rfl)
    case hcharges =>
      intro call
      rfl

/-- A section that leaves board, bytes and charges and goes on to one task, or
to none. -/
theorem kept_on (h : s.Ordered) (hcharged : s.Charged) (hin : task ∈ s.tasks) (new : List AttachmentTask)
    (hplain : task.plain = true) (hquiet : s.Quiet t) (htasks : t.tasks = s.tasks.erase task ++ new)
    (hlive : new.flatMap (·.alive) = task.alive) (howed : dues (new.flatMap (·.owed)) = dues task.owed)
    (hcharges : t.charges = s.charges) (hstarted : t.started = s.started) (hbytes : t.bytes = s.bytes)
    (hnew : ∀ other ∈ new, t.Fits other) : s.Kept (.run task ok answer) t := by
  apply kept_pass h hcharged hin new hplain hquiet htasks (.inl hlive) howed hcharges hstarted
  case hbytes =>
    intro hash hstored
    rw [hbytes]
    exact hstored
  case hnew => exact hnew

theorem fits_nil : ∀ other ∈ ([] : List AttachmentTask), t.Fits other := by
  intro other hother
  cases hother

theorem fits_one {new : AttachmentTask} (hfits : t.Fits new) : ∀ other ∈ [new], t.Fits other := by
  intro other hother
  obtain rfl := List.mem_singleton.mp hother
  exact hfits

theorem kept_lane (h : s.Ordered) (hcharged : s.Charged) (hin : .lane job ∈ s.tasks) :
    s.Kept (.run (.lane job) ok answer)
      ({ s with tasks := s.tasks.erase (.lane job) }.perform ok answer (.lane job)) := by
  show s.Kept (.run (.lane job) ok answer) ({ s with tasks := s.tasks.erase (.lane job) }.runLaneJob job)
  unfold runLaneJob
  split_ifs with hheld
  · have hforced : s.forced job.key = false := by
      simp only [Bool.and_eq_true] at hheld
      exact forced_of_rejudge hheld.1.2
    generalize hverdict : (({ s with tasks := s.tasks.erase (.lane job) } : AttachmentFetch).autoVerdict job) = verdict
    obtain ⟨pending, waitingForNetwork, hfold⟩ := foldl_holdBackJob [(job, verdict)]
      { s with tasks := s.tasks.erase (.lane job), active := Function.update s.active job.key none }
    rw [List.foldl_cons, List.foldl_nil] at hfold
    rw [hfold]
    apply kept_held h hcharged hin [.refund job] (.inr rfl)
    case hrel => exact ⟨rfl, rfl, fun _ hfalse => hfalse, fun _ _ => rfl, rfl, rfl, rfl⟩
    case hforced => exact hforced
    case hfailed => rfl
    case htasks => rfl
    case hlive => rfl
    case howed => rfl
    case hnew => exact fits_one trivial
  · apply kept_moved h hin [.fetch { job with tapped := job.tapped || s.forced job.key } false] rfl
    case hquiet => exact ⟨rfl, rfl, rfl, rfl⟩
    case htasks => rfl
    case hlive => rfl
    case hbytes => rfl
    case hnew => exact fits_one trivial
    case hcharged =>
      apply hcharged.start hin false
      case htasks => rfl
      case hqueue => rfl
      case hstarted => rfl
      case hcharges =>
        intro call
        show s.charges.count call + _ = s.charges.count call + _
        congr 1
        cases hpaid : job.charged <;> simp [dues, AttachmentTask.owed, hpaid]
      case hautomatic =>
        intro huntapped
        exact (h.fits _ hin : job.tapped = false → job.charged = true) (Bool.or_eq_false_iff.mp huntapped).1

theorem kept_admit {force : Bool} (h : s.Ordered) (hcharged : s.Charged) (hin : .admitJob job force ∈ s.tasks)
    (horderly : s.Orderly (.run (.admitJob job force) ok answer)) : s.Kept (.run (.admitJob job force) ok answer)
      ({ s with tasks := s.tasks.erase (.admitJob job force) }.perform ok answer (.admitJob job force)) := by
  show s.Kept (.run (.admitJob job force) ok answer) ({ s with tasks := s.tasks.erase (.admitJob job force) }.admitJob job force)
  obtain ⟨hfree, htap⟩ := horderly
  dsimp only [AttachmentFetch.admitJob]
  split_ifs with hduplicate hforce
  · subst hforce
    apply kept_duplicate h hcharged hin htap hduplicate
    case hadm => exact ⟨rfl, rfl, fun _ hfailed => hfailed, rfl, rfl, rfl⟩
    case hqueue => rfl
    case htasks => rfl
  · obtain rfl : force = false := by simpa using hforce
    apply kept_duplicate h hcharged hin htap hduplicate
    case hadm => exact ⟨rfl, rfl, fun _ hfailed => hfailed, rfl, rfl, rfl⟩
    case hqueue => rfl
    case drains => exact false
    case htasks => rfl
  all_goals
    have hnew : (s.isActive job.key || s.jobQueued job.key) = false := Bool.eq_false_iff.mpr hduplicate
    apply kept_queued h hcharged hin (hfree hnew) htap hnew
    case hadm =>
      constructor
      case forced =>
        split_ifs
        rfl
      case failed =>
        intro key hfailed
        have hupdate : Function.update s.failed job.key false key = true := hfailed
        rw [Function.update_apply] at hupdate
        split_ifs at hupdate
        exact hupdate
      all_goals rfl
    case hqueue => rfl
    case htasks => rfl

theorem releases_settle {failed drains : Bool} :
    s.Releases job ((({ s with tasks := s.tasks.erase task } : AttachmentFetch).settle job.key failed).post
      (goOn drains)) := by
  constructor
  case forced =>
    intro key hfalse
    show Function.update s.forced job.key false key = false
    rw [Function.update_apply, hfalse, ite_self]
  case forcedElse =>
    intro key hother
    exact Function.update_of_ne hother ..
  all_goals rfl

section

variable (h : s.Ordered) (hcharged : s.Charged)
include h hcharged

theorem kept_refund (hin : .refund job ∈ s.tasks) : s.Kept (.run (.refund job) ok answer)
      ({ s with tasks := s.tasks.erase (.refund job) }.perform ok answer (.refund job)) := by
  have hsame : ({ s with tasks := s.tasks.erase (.refund job) } : AttachmentFetch).tasks =
      s.tasks.erase (.refund job) ++ [] := (List.append_nil _).symm
  dsimp only [perform]
  split_ifs with hpaid
  · apply kept_moved h hin [] rfl
    case hquiet => exact ⟨rfl, rfl, rfl, rfl⟩
    case htasks => exact hsame
    case hnew => exact fits_nil
    case hlive => rfl
    case hbytes => rfl
    case hcharged =>
      apply hcharged.next hin []
      case htasks => exact hsame
      case hdue =>
        intro call
        have hcall := hcharged.due call
        rw [count_owed hin] at hcall
        have howed : dues (AttachmentTask.refund job).owed = [job.call] := by simp [dues, AttachmentTask.owed, hpaid]
        rw [howed] at hcall ⊢
        show (s.charges.erase job.call).count call + (dues s.queue).count call + [job.call].count call +
            (dues s.started).count call = s.charges.count call + (dues s.queue).count call + 0 + (dues s.started).count call
        by_cases hsame : call = job.call
        · subst hsame
          rw [List.count_erase_self, List.count_singleton_self] at *
          omega
        · have hother : [job.call].count call = 0 := by
            apply List.count_eq_zero.mpr
            simpa using hsame
          rw [List.count_erase_of_ne hsame, hother]
      case hautomatic =>
        intro other hother
        exact .inl hother
  · apply kept_on h hcharged hin [] rfl
    case hquiet => exact ⟨rfl, rfl, rfl, rfl⟩
    case htasks => exact hsame
    case howed => simp [dues, AttachmentTask.owed, hpaid]
    case hnew => exact fits_nil
    all_goals rfl

/-- Every section of a task keeps the downloads that stand. -/
theorem kept_run (hin : task ∈ s.tasks) (horderly : s.Orderly (.run task ok answer)) :
    s.Kept (.run task ok answer) ({ s with tasks := s.tasks.erase task }.perform ok answer task) := by
  have hsame : ({ s with tasks := s.tasks.erase task } : AttachmentFetch).tasks = s.tasks.erase task ++ [] :=
    (List.append_nil _).symm
  cases task with
  | enqueue job force | sized job force =>
    dsimp only [perform]
    split_ifs
    · exact kept_on h hcharged hin [] rfl ⟨rfl, rfl, rfl, rfl⟩ hsame rfl rfl rfl rfl rfl fits_nil
    · exact kept_on h hcharged hin [_] rfl ⟨rfl, rfl, rfl, rfl⟩ rfl rfl rfl rfl rfl rfl (fits_one trivial)
  | asked job force =>
    dsimp only [perform]
    split_ifs with hforce
    · apply kept_on h hcharged hin [.admitJob { job with networkDependent := false, charged := false, tapped := force }
        true] rfl
      case hquiet => exact ⟨rfl, rfl, rfl, rfl⟩
      case hnew =>
        apply fits_one
        intro _ huntapped
        rw [hforce] at huntapped
        cases huntapped
      all_goals rfl
    · exact kept_on h hcharged hin [_] rfl ⟨rfl, rfl, rfl, rfl⟩ rfl rfl rfl rfl rfl rfl (fits_one trivial)
    · exact kept_on h hcharged hin [_] rfl ⟨rfl, rfl, rfl, rfl⟩ rfl rfl rfl rfl rfl rfl (fits_one rfl)
  | judge job =>
    have hunpaid : job.charged = false := h.fits _ hin
    dsimp only [perform]
    split
    · exact kept_on h hcharged hin [_] rfl ⟨rfl, rfl, rfl, rfl⟩ rfl rfl rfl rfl rfl rfl (fits_one trivial)
    · exact kept_on h hcharged hin [_] rfl ⟨rfl, rfl, rfl, rfl⟩ rfl rfl rfl rfl rfl rfl (fits_one trivial)
    · exact kept_on h hcharged hin [_] rfl ⟨rfl, rfl, rfl, rfl⟩ rfl rfl rfl rfl rfl rfl (fits_one ⟨hunpaid, rfl⟩)
  | offNetwork job =>
    dsimp only [perform]
    split_ifs
    · exact kept_on h hcharged hin [] rfl ⟨rfl, rfl, rfl, rfl⟩ hsame rfl rfl rfl rfl rfl fits_nil
    · exact kept_on h hcharged hin [_] rfl ⟨rfl, rfl, rfl, rfl⟩ rfl rfl rfl rfl rfl rfl (fits_one trivial)
    · exact kept_on h hcharged hin [_] rfl ⟨rfl, rfl, rfl, rfl⟩ rfl rfl rfl rfl rfl rfl (fits_one trivial)
  | look job verdict =>
    obtain ⟨hunpaid, hlooked⟩ : job.charged = false ∧ job.networkDependent = decide (verdict ≠ .yes) := h.fits _ hin
    dsimp only [perform]
    split_ifs with hduplicate hthrottled hunknown
    · exact kept_on h hcharged hin [] rfl ⟨rfl, rfl, rfl, rfl⟩ hsame rfl rfl rfl rfl rfl fits_nil
    · exact kept_on h hcharged hin [_] rfl ⟨rfl, rfl, rfl, rfl⟩ rfl rfl rfl rfl rfl rfl (fits_one trivial)
    · apply kept_on h hcharged hin [.admitJob job false] rfl
      case hquiet => exact ⟨rfl, rfl, rfl, rfl⟩
      case hnew =>
        apply fits_one
        intro _ _
        rw [hlooked, hunknown]
        rfl
      case howed => simp [dues, AttachmentTask.owed, hunpaid]
      all_goals rfl
    · exact kept_on h hcharged hin [_] rfl ⟨rfl, rfl, rfl, rfl⟩ rfl rfl rfl rfl rfl rfl (fits_one trivial)
  | charge job =>
    dsimp only [perform]
    split_ifs
    · apply kept_moved h hin [.admitJob { job with charged := true } false] rfl
      case hquiet => exact ⟨rfl, rfl, rfl, rfl⟩
      case hnew =>
        apply fits_one
        intro huncharged
        cases huncharged
      case hcharged =>
        apply hcharged.next hin [.admitJob { job with charged := true } false] rfl
        case hdue =>
          intro call
          show (job.call :: s.charges).count call + (dues s.queue).count call + 0 + (dues s.started).count call =
            s.charges.count call + (dues s.queue).count call + [job.call].count call + (dues s.started).count call
          rw [← List.singleton_append, List.count_append]
          omega
        case hautomatic =>
          intro other hother
          exact .inl hother
      all_goals rfl
    · exact kept_on h hcharged hin [_] rfl ⟨rfl, rfl, rfl, rfl⟩ rfl rfl rfl rfl rfl rfl (fits_one trivial)
  | throttle job | fetch job drains | holdBack job drains =>
    exact kept_on h hcharged hin [_] rfl ⟨rfl, rfl, rfl, rfl⟩ rfl rfl rfl rfl rfl rfl (fits_one trivial)
  | markPending key =>
    dsimp only [perform]
    unfold setPending
    split_ifs
    · exact kept_on h hcharged hin [] rfl ⟨rfl, rfl, rfl, rfl⟩ hsame rfl rfl rfl rfl rfl fits_nil
    · exact kept_on h hcharged hin [] rfl ⟨rfl, rfl, rfl, rfl⟩ hsame rfl rfl rfl rfl rfl fits_nil
  | admitJob job force => exact kept_admit h hcharged hin horderly
  | refund job => exact kept_refund h hcharged hin
  | drain => exact kept_drain h hcharged hin
  | kickDrain =>
    dsimp only [perform]
    split_ifs
    · exact kept_on h hcharged hin [_] rfl ⟨rfl, rfl, rfl, rfl⟩ rfl rfl rfl rfl rfl rfl (fits_one trivial)
    · exact kept_on h hcharged hin [] rfl ⟨rfl, rfl, rfl, rfl⟩ hsame rfl rfl rfl rfl rfl fits_nil
  | taken job rejudged => exact kept_taken h hcharged hin
  | refused job =>
    obtain ⟨hunpaid, hforced⟩ : job.charged = false ∧ s.forced job.key = false := h.fits _ hin
    apply kept_held h hcharged hin [.markPending job.key, .drain] (.inl rfl)
    case hrel => exact ⟨rfl, rfl, fun _ hfalse => hfalse, fun _ _ => rfl, rfl, rfl, rfl⟩
    case hforced => exact hforced
    case howed => simp [dues, AttachmentTask.owed, hunpaid]
    case hnew =>
      intro other hother
      rcases List.mem_cons.mp hother with rfl | hother
      · trivial
      · obtain rfl := List.mem_singleton.mp hother
        trivial
    all_goals rfl
  | lane job => exact kept_lane h hcharged hin
  | finish job drains answer =>
    dsimp only [perform]
    split_ifs with hcancelled
    · -- cancelled meanwhile: the start is the key's no longer
      apply kept_pass h hcharged hin (goOn drains) rfl
      case hquiet => exact ⟨rfl, rfl, rfl, rfl⟩
      case hlive =>
        refine .inr ⟨goOn_alive drains, ?_⟩
        intro x hx
        obtain rfl := List.mem_singleton.mp hx
        have hnot : (!s.isActive job.key) = true := hcancelled
        show s.active job.key = none
        simpa [isActive] using hnot
      case howed =>
        rw [goOn_owed]
        rfl
      case hbytes =>
        intro hash hstored
        exact hstored
      case hnew => exact fits_goOn
      all_goals rfl
    · split
      · exact kept_on h hcharged hin [_] rfl ⟨rfl, rfl, rfl, rfl⟩ rfl rfl rfl rfl rfl rfl (fits_one trivial)
      · exact kept_on h hcharged hin [_] rfl ⟨rfl, rfl, rfl, rfl⟩ rfl rfl rfl rfl rfl rfl (fits_one trivial)
      · exact kept_on h hcharged hin [_] rfl ⟨rfl, rfl, rfl, rfl⟩ rfl rfl rfl rfl rfl rfl (fits_one trivial)
  | keep job drains =>
    dsimp only [perform]
    split_ifs
    · apply kept_pass h hcharged hin [.saved job drains] rfl
      case hquiet => exact ⟨rfl, rfl, rfl, rfl⟩
      case hlive => exact .inl rfl
      case hbytes =>
        intro hash hstored
        show Function.update s.bytes job.hash true hash = true
        rw [Function.update_apply, hstored, ite_self]
      case hnew =>
        apply fits_one
        show Function.update s.bytes job.hash true job.hash = true
        rw [Function.update_self]
      all_goals rfl
    · exact kept_on h hcharged hin [_] rfl ⟨rfl, rfl, rfl, rfl⟩ rfl rfl rfl rfl rfl rfl (fits_one trivial)
  | saved job drains =>
    have hstored : s.bytes job.hash = true := h.fits _ hin
    dsimp only [perform]
    split_ifs with hactive
    · exact kept_on h hcharged hin [_] rfl ⟨rfl, rfl, rfl, rfl⟩ rfl rfl rfl rfl rfl rfl (fits_one hstored)
    · apply kept_on h hcharged hin [.takeBack job drains] rfl
      case hquiet => exact ⟨rfl, rfl, rfl, rfl⟩
      case hnew =>
        apply fits_one
        have hnot : ¬ s.isActive job.key = true := hactive
        show s.active job.key = none
        simpa [isActive] using hnot
      all_goals rfl
  | takeBack job drains => exact kept_takeBack h hcharged hin horderly
  | markFailed job drains =>
    apply kept_settle h hcharged hin drains true rfl rfl
    case hrel => exact releases_settle
    case hfailed => rfl
  | markReady job drains =>
    apply kept_settle h hcharged hin drains false rfl rfl
    case hrel => exact releases_settle
    case hfailed => rfl

theorem kept_askAll {step : Step} (jobs : List AttachmentJob) (force : Bool)
    (more : List AttachmentTask) (hmore : ∀ task ∈ more, task = .kickDrain)
    (hnot : ∀ task ok answer, step ≠ .run task ok answer) (hquiet : s.Quiet t) (htasks : t.tasks = s.tasks)
    (hcharges : t.charges = s.charges) (hstarted : t.started = s.started) (hbytes : t.bytes = s.bytes) :
    s.Kept step ((t.askAll jobs force).post more) := by
  obtain ⟨new, nextCall, heq, hnew⟩ := askAll_eq jobs force t
  rw [heq]
  apply kept_same h hcharged (new ++ more) hnot
  case hquiet => exact ⟨hquiet.queue, hquiet.active, hquiet.forced, hquiet.failed⟩
  case htasks =>
    show t.tasks ++ new ++ more = s.tasks ++ (new ++ more)
    rw [htasks, List.append_assoc]
  case hnew =>
    intro task htask
    rcases List.mem_append.mp htask with htask | htask
    · obtain ⟨job, rfl⟩ := hnew task htask
      exact .inl ⟨job, force, rfl⟩
    · exact .inr (hmore task htask)
  case hcharges => exact hcharges
  case hstarted => exact hstarted
  case hbytes => exact hbytes

theorem kept_step (step : Step) (horderly : s.Orderly step) : s.Kept step (s.step step) := by
  have hkick : ∀ task ∈ [AttachmentTask.kickDrain], (∃ job force, task = .enqueue job force) ∨ task = .kickDrain := by
    intro task htask
    exact .inr (List.mem_singleton.mp htask)
  have hnone : ∀ task ∈ ([] : List AttachmentTask), (∃ job force, task = .enqueue job force) ∨ task = .kickDrain := by
    intro task htask
    cases htask
  cases step with
  | ask job force =>
    have hkept : s.Kept (.ask job force) ((s.askAll [job] force).post []) := by
      apply kept_askAll h hcharged [job] force []
      case hmore =>
        intro task htask
        cases htask
      case hnot =>
        intro task ok answer hstep
        cases hstep
      case hquiet => exact ⟨rfl, rfl, rfl, rfl⟩
      all_goals rfl
    have hnothing : (s.askAll [job] force).post [] = s.askAll [job] force := by
      unfold post
      rw [List.append_nil]
    rw [hnothing] at hkept
    exact hkept
  | run task ok answer =>
    unfold AttachmentFetch.step
    dsimp only
    split_ifs with hin
    · exact kept_run h hcharged hin horderly
    · refine ⟨h, hcharged, ?_⟩
      constructor
      case admitted =>
        intro job force ok' answer' hin' hstep
        cases hstep
        exact absurd hin' hin
      case stands =>
        intro key call hstands
        exact .inl hstands
      case tapped =>
        intro key call _ hforced _
        exact hforced
      case failed =>
        intro key call _ hfailed
        exact .inl hfailed
      case bytes =>
        intro key call _ job drains ok' answer' hin' hstep
        cases hstep
        exact absurd hin' hin
      case ready =>
        intro job drains ok' answer' hin' hstep
        cases hstep
        exact absurd hin' hin
  | cancel keys => exact kept_cancel h hcharged horderly
  | setDownloadPolicy policy =>
    apply kept_same h hcharged [.kickDrain]
    case hnot =>
      intro task ok answer hstep
      cases hstep
    case hquiet => exact ⟨rfl, rfl, rfl, rfl⟩
    case hnew => exact hkick
    all_goals rfl
  | setAutoAllowedOnNetwork allowed =>
    unfold AttachmentFetch.step
    dsimp only
    split_ifs
    · apply kept_askAll h hcharged s.waitingForNetwork false [.kickDrain]
      case hmore =>
        intro task htask
        exact List.mem_singleton.mp htask
      case hnot =>
        intro task ok answer hstep
        cases hstep
      case hquiet => exact ⟨rfl, rfl, rfl, rfl⟩
      all_goals rfl
    · apply kept_same h hcharged [.kickDrain]
      case hnot =>
        intro task ok answer hstep
        cases hstep
      case hquiet => exact ⟨rfl, rfl, rfl, rfl⟩
      case hnew => exact hkick
      all_goals rfl
  | setLimits limits | setSuppressed file suppressed =>
    apply kept_same h hcharged []
    case hnot =>
      intro task ok answer hstep
      cases hstep
    case hquiet => exact ⟨rfl, rfl, rfl, rfl⟩
    case htasks => exact (List.append_nil _).symm
    case hnew => exact hnone
    all_goals rfl

end

/-! ## Whole runs -/

/-- Nothing was asked for yet. -/
structure Fresh (s : AttachmentFetch) : Prop where
  queue : s.queue = []
  active : s.active = fun _ => none
  charges : s.charges = []
  started : s.started = []
  tasks : s.tasks = []

theorem Fresh.ordered (hfresh : s.Fresh) : s.Ordered := by
  constructor
  case alone => simp [hfresh.queue, hfresh.tasks]
  case active => simp [hfresh.active]
  case queued => simp [hfresh.queue]
  case fits => simp [hfresh.tasks]

theorem Fresh.charged (hfresh : s.Fresh) : s.Charged := by
  constructor
  case due => simp [dues, hfresh.queue, hfresh.tasks, hfresh.started, hfresh.charges]
  case automatic => simp [hfresh.started]

/-- While no key is started again before its cancelled start is done, no cancel
meets a charged job, no tap falls on a job the limits are being asked about and
no bytes are taken back that another download just stored, every download ends
as its own fetch did. -/
theorem downloads_own_end (s₀ : AttachmentFetch) (steps : List Step) (hfresh : s₀.Fresh)
    (hrun : Admits step Orderly s₀ steps) :
    (∀ s ∈ states step s₀ steps, s.Sound) ∧ ∀ x ∈ trail step s₀ steps, x.1.Keeps x.2 (x.1.step x.2) := by
  have hcarry : Admits step (fun s step => (s.Ordered ∧ s.Charged) ∧ s.Orderly step) s₀ steps :=
    hrun.carry (fun s step h horderly =>
      ⟨(kept_step h.1 h.2 step horderly).ordered, (kept_step h.1 h.2 step horderly).charged⟩)
      ⟨hfresh.ordered, hfresh.charged⟩
  constructor
  · have hsound : ∀ s ∈ states step s₀ steps, s.Ordered ∧ s.Charged :=
      hrun.invariant (fun s step h horderly =>
        ⟨(kept_step h.1 h.2 step horderly).ordered, (kept_step h.1 h.2 step horderly).charged⟩)
        ⟨hfresh.ordered, hfresh.charged⟩
    intro s hs
    exact (hsound s hs).1.sound (hsound s hs).2
  · intro x hx
    obtain ⟨⟨hordered, hcharged⟩, horderly⟩ := hcarry.forall_trail x hx
    exact (kept_step hordered hcharged x.2 horderly).keeps

section Examples

/-- A large file, taken by a tap. -/
def film : AttachmentJob := { thread := "t", hash := "h", byteLength := kMaxDirectAttachmentBytes + 1, hasUrl := true }

/-- The app as it starts, with the usual limits. -/
def fetchStart : AttachmentFetch :=
  { limits := { maxReceiveBytes := 100 * 1024 * 1024, autoDownloadMaxBytes := 1024 * 1024 } }

/-- A tap, down to its job in the large-file lane. -/
def tapped (call : Nat) : List Step :=
  let asked : AttachmentJob := { film with call }
  let forced : AttachmentJob := { asked with tapped := true }
  [.ask film true, .run (.enqueue asked true) true .bytes, .run (.sized asked true) true .bytes,
    .run (.asked asked true) true .bytes, .run (.admitJob forced true) true .bytes, .run .drain true .bytes,
    .run (.taken forced false) true .bytes, .run .drain true .bytes]

/-- Its fetch comes back with the bytes, and they are stored. -/
def comes (call : Nat) : List Step :=
  let forced : AttachmentJob := { film with call, tapped := true }
  [.run (.lane forced) true .bytes, .run (.fetch forced false) true .bytes, .run (.finish forced false .bytes) true .bytes,
    .run (.keep forced false) true .bytes, .run (.saved forced false) true .bytes,
    .run (.markReady forced false) true .bytes]

theorem downloads_own_end_film :
    (∀ s ∈ states step fetchStart (tapped 0 ++ comes 0), s.Sound) ∧
      ∀ x ∈ trail step fetchStart (tapped 0 ++ comes 0), x.1.Keeps x.2 (x.1.step x.2) :=
  downloads_own_end fetchStart _ ⟨rfl, rfl, rfl, rfl, rfl⟩ (by decide)

/-- Cancelled and tapped again, its first fetch then comes back cut off: the
second, still in the lane, is shown as failed. -/
def cutOff : List Step :=
  let forced : AttachmentJob := { film with call := 0, tapped := true }
  tapped 0 ++ [.run (.lane forced) true .bytes, .cancel [film.key]] ++ tapped 1 ++
    [.run (.fetch forced false) true (.error false), .run (.finish forced false (.error false)) true .bytes]

theorem film_fails_another :
    ¬ ∀ (s₀ : AttachmentFetch) (steps : List Step), s₀.Fresh →
      (∀ s ∈ states step s₀ steps, s.Sound) ∧ ∀ x ∈ trail step s₀ steps, x.1.Keeps x.2 (x.1.step x.2) := by
  intro hall
  let last : Step := .run (.markFailed { film with call := 0, tapped := true } false) true .bytes
  have hkeeps := (hall fetchStart (cutOff ++ [last]) ⟨rfl, rfl, rfl, rfl, rfl⟩).2 _ mem_trail_append
  have hstands : (cutOff.foldl step fetchStart).Stands film.key 1 := .inl (by decide)
  rcases hkeeps.failed film.key 1 hstands (by decide) with hfailed | ⟨job, drains, ok, answer, -, hcall, hstep | hstep⟩
  · exact absurd hfailed (by decide)
  · cases hstep
  · cases hstep
    cases hcall

end Examples

end AttachmentFetch
end Pbr
