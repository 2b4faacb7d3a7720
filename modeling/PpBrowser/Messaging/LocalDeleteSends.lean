import PpBrowser.Messaging.LocalDelete

/-!
# LocalDeleteSends — the sections of sends, images and taps

Each section of a send, of an image and of a tap keeps the invariant and puts no
need at risk: an acquire counts before it clears, a release comes after the
message or leaves it to be written.
-/

namespace Pbr
namespace LocalDelete

open Lib

variable {s t : LocalDelete} {run : DeleteRun} {task : ByteTask} {ok : Bool} {hash : String}
  {job : AttachmentJob}

/-! ## Sections of sends, images and taps -/

theorem Waits.next (h : s.Waits) (hdelete : s.SameDelete t)
    (hremoved : ∀ file ∈ t.removed, t.fetch.suppressed file = true)
    (hshown : ∀ file ∈ s.removed, file ∈ t.removed ∨ ∀ run, t.delete = some run → file ∈ run.shown)
    (hjobs : t.waitedJobs = t.ranJobs ++ s.jobsLeft ++ t.deferredJobs)
    (hrequests : t.waitedRequests = t.ranRequests ++ s.requestsLeft ++ t.deferredRequests) : t.Waits := by
  constructor
  case removed => exact hremoved
  case finished =>
    intro run' hrun' file hfile
    obtain ⟨run, hrun, -, hitems, -, hphase, hmore⟩ := hdelete.before hrun'
    rw [hitems] at hfile
    rw [hitems, hphase]
    rcases h.finished run hrun file hfile with hleft | hremoved | hshown'
    · exact .inl hleft
    · rcases hshown file hremoved with hkept | hshown
      · exact .inr (.inl hkept)
      · exact .inr (.inr (hshown run' hrun'))
    · exact .inr (.inr (hmore file hshown'))
  case jobs =>
    rw [hdelete.jobsLeft]
    exact hjobs
  case requests =>
    rw [hdelete.requestsLeft]
    exact hrequests

theorem Waits.same (h : s.Waits) (hdelete : s.SameDelete t) (hremoved : t.removed = s.removed)
    (hsuppressed : t.fetch.suppressed = s.fetch.suppressed) (hjobs : t.waitedJobs = s.waitedJobs)
    (hranJobs : t.ranJobs = s.ranJobs) (hdeferredJobs : t.deferredJobs = s.deferredJobs)
    (hrequests : t.waitedRequests = s.waitedRequests) (hranRequests : t.ranRequests = s.ranRequests)
    (hdeferredRequests : t.deferredRequests = s.deferredRequests) : t.Waits := by
  apply h.next hdelete
  case hremoved =>
    rw [hremoved, hsuppressed]
    exact h.removed
  case hshown =>
    intro file hfile
    rw [hremoved]
    exact .inl hfile
  case hjobs =>
    rw [hjobs, hranJobs, hdeferredJobs]
    exact h.jobs
  case hrequests =>
    rw [hrequests, hranRequests, hdeferredRequests]
    exact h.requests

theorem Waits.clearSuppression (h : s.Waits) (file : String × String)
    (hdelete : t.delete = (s.clearSuppression file).delete) (hremoved : t.removed = (s.clearSuppression file).removed)
    (hsuppressed : t.fetch.suppressed = (s.clearSuppression file).fetch.suppressed)
    (hjobs : t.waitedJobs = t.ranJobs ++ s.jobsLeft ++ t.deferredJobs)
    (hrequests : t.waitedRequests = t.ranRequests ++ s.requestsLeft ++ t.deferredRequests) : t.Waits := by
  apply h.next ⟨fun files => file :: files, fun _ _ hfile => List.mem_cons_of_mem _ hfile, hdelete⟩
  case hremoved =>
    intro other hother
    rw [hremoved] at hother
    obtain ⟨hin, hne⟩ := List.mem_filter.mp hother
    rw [hsuppressed]
    show Function.update s.fetch.suppressed file false other = true
    rw [Function.update_of_ne (by simpa using hne)]
    exact h.removed other hin
  case hshown =>
    intro other hother
    by_cases hsame : other = file
    · right
      intro run' hrun'
      rw [hdelete] at hrun'
      obtain ⟨run, -, rfl⟩ := Option.map_eq_some_iff.mp hrun'
      exact List.mem_cons.mpr (.inl hsame)
    · left
      rw [hremoved]
      exact List.mem_filter.mpr ⟨hother, by simpa using hsame⟩
  case hjobs => exact hjobs
  case hrequests => exact hrequests

theorem keeps_of {step : Step} (hbytes : ∀ hash, s.fetch.bytes hash = true → t.fetch.bytes hash = true)
    (hheld : ∀ file ∈ s.held, file ∈ t.held) (hremoved : ∀ file ∈ s.removed, file ∈ t.removed ∨ s.Shows step file) :
    s.Keeps step t := by
  constructor
  case frees =>
    intro hash hstored hgone
    rw [hbytes hash hstored] at hgone
    cases hgone
  case held =>
    intro file hfile
    exact .inl (hheld file hfile)
  case removed => exact hremoved

theorem keeps_same {step : Step} (hbytes : t.fetch.bytes = s.fetch.bytes) (hheld : t.held = s.held)
    (hremoved : t.removed = s.removed) : s.Keeps step t := by
  apply keeps_of
  · rw [hbytes]
    exact fun _ hstored => hstored
  · rw [hheld]
    exact fun _ hfile => hfile
  · rw [hremoved]
    exact fun _ hfile => .inl hfile

theorem keeps_cleared {step : Step} {file : String × String} (hbytes : t.fetch.bytes = s.fetch.bytes)
    (hheld : t.held = s.held) (hremoved : t.removed = (s.clearSuppression file).removed) (hshows : s.Shows step file) :
    s.Keeps step t := by
  apply keeps_of
  · rw [hbytes]
    exact fun _ hstored => hstored
  · rw [hheld]
    exact fun _ hfile => hfile
  · intro other hother
    rw [hremoved]
    by_cases hsame : other = file
    · subst hsame
      exact .inr hshows
    · exact .inl (List.mem_filter.mpr ⟨hother, by simpa using hsame⟩)

/-- Nothing of the store, the messages and the delete is touched. -/
theorem Leaves.of_fetch (hdelete : s.SameDelete t) (hsent : t.sentDuringDelete = s.sentDuringDelete)
    (hmessages : t.messages = s.messages) (hbytes : t.fetch.bytes = s.fetch.bytes)
    (hsuppressed : t.fetch.suppressed = s.fetch.suppressed) : s.Leaves t := by
  constructor
  case markedItems =>
    intro file hfile
    rw [hdelete.markedItems] at hfile
    exact hfile
  case pendingClear =>
    intro file hfile
    apply hdelete.mem_pendingClear _ hfile
    intro other hother
    rw [hsent]
    exact hother
  case messages =>
    intro message hmessage
    rw [hmessages]
    exact hmessage
  case bytes =>
    intro hash hstored
    rw [hbytes]
    exact hstored
  case suppressed =>
    intro file hmark
    rw [hsuppressed]
    exact hmark

theorem tended_plain (huses : task.uses = []) (hcleared : task.cleared = []) (hsent : task.sent = [])
    (hsaved : task.saved = []) : t.Tended task := by
  constructor
  all_goals simp [huses, hcleared, hsent, hsaved]

section

variable (h : s.Ordered)
include h

/-- A section that goes on to other tasks. It shows files of the task's own or of
no delete, and stores at most a message of the task's own. -/
theorem ordered_section (hin : task ∈ s.tasks) (new : List ByteTask)
    (htasks : t.tasks = s.tasks.erase task ++ new) (hdelete : s.SameDelete t) (hdeleting : t.deleting = s.deleting)
    (hsent : ∀ file ∈ s.sentDuringDelete, file ∈ t.sentDuringDelete)
    (hmessages : t.messages = s.messages ∨ ∃ use ∈ task.uses, t.messages = s.messages ++ [use.message])
    (hbytes : ∀ hash, s.fetch.bytes hash = true → t.fetch.bytes hash = true)
    (hsuppressed : ∀ file, t.fetch.suppressed file = s.fetch.suppressed file ∨ t.fetch.suppressed file = false ∧
      ((∃ old ∈ task.uses, old.hash = file.2) ∨ file.2 ∉ s.deleting))
    (huses : ∀ x ∈ new, ∀ use ∈ x.uses, (∃ old ∈ task.uses, old.hash = use.hash) ∨ use.hash ∉ s.deleting ∨
      use.file ∈ t.sentDuringDelete)
    (hinUse : ∀ hash, t.bytesInUse hash + task.inUse.count hash = s.bytesInUse hash + (new.flatMap (·.inUse)).count hash)
    (hidle : s.deleting = [] → t.sentDuringDelete = [] ∧ t.deferredJobs = [] ∧ t.deferredRequests = [])
    (hclears : ∀ x ∈ new, ∀ file ∈ x.clears, file.2 ∉ s.deleting) (hheld : t.Tended task → ∀ file ∈ t.held,
      file ∈ s.held ∨ t.fetch.bytes file.2 = true ∧ t.Written file ∧ t.Shown file)
    (hnew : t.Tended task → ∀ x ∈ new, t.Tended x) (hwaits : t.Waits) : t.Ordered := by
  have hleaves : s.Leaves t := by
    constructor
    case markedItems =>
      rw [hdelete.markedItems]
      exact fun _ hfile => hfile
    case pendingClear => exact fun _ hfile => hdelete.mem_pendingClear hsent hfile
    case messages =>
      intro message hmessage
      rcases hmessages with hsame | ⟨use, -, hmore⟩
      · rw [hsame]
        exact hmessage
      · rw [hmore]
        exact List.mem_append_left _ hmessage
    case bytes => exact hbytes
    case suppressed =>
      intro file hmark
      rcases hsuppressed file with hsame | ⟨hclear, -⟩
      · rw [hsame, hmark]
      · exact hclear
  have hmoves : s.Moves task new t := by
    constructor
    case tasks => exact htasks
    case delete => exact hdelete
    case deleting => exact hdeleting
    case sentDuring => exact hsent
    case uses => exact huses
    case messages =>
      intro message hmessage
      rcases hmessages with hsame | ⟨use, huse, hmore⟩
      · rw [hsame] at hmessage
        exact .inl hmessage
      · rw [hmore, List.mem_append] at hmessage
        rcases hmessage with hold | hnew
        · exact .inl hold
        · right
          intro hash hhash
          obtain rfl := List.mem_singleton.mp hnew
          exact ⟨use, huse, (List.mem_singleton.mp hhash).symm⟩
    case suppressed =>
      intro file hmark
      rcases hsuppressed file with hsame | ⟨-, hmine⟩
      · exact .inl (hsame.trans hmark)
      · exact .inr hmine
  have htended := hleaves.tended (h.holds.tended task hin)
  refine ⟨hmoves.counted hin h.counted hinUse hidle hclears, hmoves.scanned hin h.counted h.scanned,
    hleaves.holds h.holds (hheld htended) ?_, hwaits⟩
  intro x hx
  rw [htasks, List.mem_append] at hx
  rcases hx with hx | hx
  · exact .inl (List.mem_of_mem_erase hx)
  · exact .inr (hnew htended x hx)

/-- A section that goes on to other tasks and does nothing else. -/
theorem ordered_post (hin : task ∈ s.tasks) (new : List ByteTask)
    (huses : ∀ x ∈ new, ∀ use ∈ x.uses, (∃ old ∈ task.uses, old.hash = use.hash) ∨ use.hash ∉ s.deleting)
    (hinUse : ∀ hash, task.inUse.count hash = (new.flatMap (·.inUse)).count hash)
    (hclears : ∀ x ∈ new, ∀ file ∈ x.clears, file.2 ∉ s.deleting)
    (hnew : ∀ t : LocalDelete, t.Tended task → ∀ x ∈ new, t.Tended x) :
    (({ s with tasks := s.tasks.erase task }).post new).Ordered := by
  apply ordered_section h hin new
  case hdelete => exact .of_eq rfl
  case hsent => exact fun _ hfile => hfile
  case hmessages => exact .inl rfl
  case hbytes => exact fun _ hstored => hstored
  case hsuppressed => exact fun _ => .inl rfl
  case huses =>
    intro x hx use huse
    rcases huses x hx use huse with hold | hnot
    · exact .inl hold
    · exact .inr (.inl hnot)
  case hinUse =>
    intro hash
    rw [hinUse hash]
    rfl
  case hidle => exact h.counted.idle
  case hclears => exact hclears
  case hheld => exact fun _ _ hfile => .inl hfile
  case hnew => exact hnew _
  case hwaits => exact h.waits.same (.of_eq rfl) rfl rfl rfl rfl rfl rfl rfl rfl
  all_goals rfl

theorem ordered_done (hin : task ∈ s.tasks) (hinUse : task.inUse = []) :
    ({ s with tasks := s.tasks.erase task } : LocalDelete).Ordered := by
  have hdone := ordered_post h hin [] (by simp) (by simp [hinUse]) (by simp) (by simp)
  unfold post at hdone
  rw [List.append_nil] at hdone
  exact hdone

/-- A change elsewhere: to the downloads' board, or to what waits. -/
theorem Ordered.elsewhere (hdelete : s.SameDelete t) (htasks : t.tasks = s.tasks)
    (hinUse : t.bytesInUse = s.bytesInUse) (hdeleting : t.deleting = s.deleting)
    (hsent : t.sentDuringDelete = s.sentDuringDelete) (hmessages : t.messages = s.messages)
    (hbytes : t.fetch.bytes = s.fetch.bytes) (hsuppressed : t.fetch.suppressed = s.fetch.suppressed)
    (hheld : t.held = s.held) (hidle : s.deleting = [] → t.deferredJobs = [] ∧ t.deferredRequests = [])
    (hwaits : t.Waits) : t.Ordered := by
  have hleaves : s.Leaves t := .of_fetch hdelete hsent hmessages hbytes hsuppressed
  constructor
  case counted =>
    constructor
    case inUse =>
      rw [hinUse, htasks]
      exact h.counted.inUse
    case deleting =>
      rw [hdeleting, hdelete.markedItems]
      exact h.counted.deleting
    case idle =>
      rw [hdeleting, hsent]
      intro hnone
      exact ⟨(h.counted.idle hnone).1, hidle hnone⟩
    case content =>
      intro run' hrun'
      obtain ⟨run, hrun, -, hitems, -⟩ := hdelete.before hrun'
      rw [hitems]
      exact h.counted.content run hrun
    case clears =>
      rw [htasks, hdeleting]
      exact h.counted.clears
    case within => exact hdelete.within h.counted.within
  case scanned =>
    apply h.scanned.same hdelete
    intro run hrun hlooked hash hhash hcovers
    apply hcovers.mono
    case hsent =>
      rw [hsent]
      exact fun _ hfile => hfile
    case htasks =>
      rw [htasks]
      exact fun _ hx => .inl hx
    case hmessages =>
      rw [hmessages]
      exact fun _ hmessage => .inl hmessage
    case hsuppressed =>
      rw [hsuppressed]
      exact fun _ hmark => hmark
  case holds =>
    apply hleaves.holds h.holds
    case hheld =>
      rw [hheld]
      exact fun _ hfile => .inl hfile
    case htasks =>
      rw [htasks]
      exact fun _ hx => .inl hx
  case waits => exact hwaits

theorem Ordered.enqueueJob (job : AttachmentJob) (force : Bool) : (s.enqueueJob job force).Ordered := by
  have hask := AttachmentFetch.sameStore_askAll (s := s.fetch) [job] force
  apply h.elsewhere
  case hdelete => exact .of_eq rfl
  case hbytes => exact hask.bytes
  case hsuppressed => exact hask.suppressed
  case hidle => exact fun hidle => (h.counted.idle hidle).2
  case hwaits => exact h.waits.same (.of_eq rfl) rfl hask.suppressed rfl rfl rfl rfl rfl rfl
  all_goals rfl

/-- `RequestDownload`'s check. -/
theorem ordered_request (hin : .request job ∈ s.tasks) :
    (({ s with tasks := s.tasks.erase (.request job) }).perform ok (.request job)).Ordered := by
  have hdone := ordered_done h hin rfl
  dsimp only [perform]
  split_ifs with hfound hdeleting
  · exact hdone
  · -- deferred: the delete calls it again
    have hthere : s.deleting ≠ [] := by
      intro hidle
      rw [hidle] at hdeleting
      cases hdeleting
    apply hdone.elsewhere
    case hdelete => exact .of_eq rfl
    case hidle =>
      intro hidle
      exact absurd hidle hthere
    case hwaits =>
      refine ⟨hdone.waits.removed, hdone.waits.finished, hdone.waits.jobs, ?_⟩
      show s.waitedRequests ++ [job] = s.ranRequests ++ s.requestsLeft ++ (s.deferredRequests ++ [job])
      rw [h.waits.requests, List.append_assoc _ _ [job]]
    all_goals rfl
  · apply ordered_post h hin [.clearFor job]
    case hclears =>
      intro x hx file hfile
      obtain rfl := List.mem_singleton.mp hx
      obtain rfl := List.mem_singleton.mp hfile
      intro hmem
      exact hdeleting (List.contains_iff_mem.mpr hmem)
    case hnew => exact fun _ _ => List.forall_mem_singleton.mpr (tended_plain rfl rfl rfl rfl)
    all_goals simp [ByteTask.inUse, ByteTask.uses]

theorem ordered_clearFor (hin : .clearFor job ∈ s.tasks) :
    (({ s with tasks := s.tasks.erase (.clearFor job) }).perform ok (.clearFor job)).Ordered := by
  have hnot : job.hash ∉ s.deleting := h.counted.clears _ hin job.file (List.mem_singleton.mpr rfl)
  apply ordered_section h hin [.fetchFor job]
  case hdelete => exact sameDelete_clearSuppression (s := s) job.file
  case hsent => exact fun _ hfile => hfile
  case hmessages => exact .inl rfl
  case hbytes => exact fun _ hstored => hstored
  case hsuppressed =>
    intro file
    by_cases hsame : file = job.file
    · subst hsame
      exact .inr ⟨Function.update_self .., .inr hnot⟩
    · exact .inl (Function.update_of_ne hsame ..)
  case huses => simp [ByteTask.uses]
  case hinUse => simp [ByteTask.inUse, perform, post, clearSuppression]
  case hidle => exact h.counted.idle
  case hclears => simp [ByteTask.clears]
  case hheld => exact fun _ _ hfile => .inl hfile
  case hnew => exact fun _ => List.forall_mem_singleton.mpr (tended_plain rfl rfl rfl rfl)
  case hwaits => exact h.waits.clearSuppression job.file rfl rfl rfl h.waits.jobs h.waits.requests
  all_goals rfl

theorem ordered_fetchFor (hin : .fetchFor job ∈ s.tasks) :
    (({ s with tasks := s.tasks.erase (.fetchFor job) }).perform ok (.fetchFor job)).Ordered := by
  have hdone := ordered_done h hin rfl
  dsimp only [perform]
  split_ifs
  · exact hdone
  · exact hdone.enqueueJob job true

end

/-! ## Sends and images -/

variable {use : ByteUse}

theorem next_uses (use : ByteUse) : use.next.uses = [use] := by
  unfold ByteUse.next
  split_ifs <;> rfl

theorem next_cleared (use : ByteUse) : use.next.cleared = [use] := by
  unfold ByteUse.next
  split_ifs <;> rfl

theorem next_inUse (use : ByteUse) : use.next.inUse = if isContentHash use.hash then [use.hash] else [] := by
  unfold ByteUse.next
  by_cases himage : use.image = true
  · rw [if_pos himage]
    rfl
  · rw [if_neg himage]
    rfl

theorem next_saved (use : ByteUse) : use.next.saved = [] := by
  unfold ByteUse.next
  split_ifs <;> rfl

theorem next_clears (use : ByteUse) : use.next.clears = [] := by
  unfold ByteUse.next
  split_ifs <;> rfl

/-- An image has no message before its bytes, a send none yet. -/
theorem next_sent (use : ByteUse) : use.next.sent = [] := by
  unfold ByteUse.next
  split_ifs with himage
  · simp [ByteTask.sent, himage]
  · rfl

section

variable (h : s.Ordered)
include h

theorem ordered_acquire (hin : .acquire use ∈ s.tasks) :
    (({ s with tasks := s.tasks.erase (.acquire use) }).perform ok (.acquire use)).Ordered := by
  dsimp only [perform]
  by_cases hcontent : isContentHash use.hash = true
  · rw [if_pos hcontent]
    generalize hcame : (if s.deleting.contains use.hash then s.sentDuringDelete ++ [use.file]
      else s.sentDuringDelete) = came
    have hsent : ∀ file ∈ s.sentDuringDelete, file ∈ came := by
      intro file hfile
      rw [← hcame]
      split_ifs
      · exact List.mem_append_left _ hfile
      · exact hfile
    have hmine : use.hash ∉ s.deleting ∨ use.file ∈ came := by
      rw [← hcame]
      split_ifs with hdeleting
      · exact .inr (List.mem_append_right _ (List.mem_singleton.mpr rfl))
      · exact .inl fun hmem => hdeleting (List.contains_iff_mem.mpr hmem)
    apply ordered_section h hin [.clear { use with covered := true }]
    case hdelete => exact .of_eq rfl
    case hsent => exact hsent
    case hmessages => exact .inl rfl
    case hbytes => exact fun _ hstored => hstored
    case hsuppressed => exact fun _ => .inl rfl
    case huses => exact List.forall_mem_singleton.mpr (List.forall_mem_singleton.mpr (.inr hmine))
    case hinUse =>
      intro hash
      rw [List.flatMap_singleton]
      show Function.update s.bytesInUse use.hash (s.bytesInUse use.hash + 1) hash + 0 = s.bytesInUse hash +
        (if isContentHash use.hash then [use.hash] else []).count hash
      rw [if_pos hcontent, Function.update_apply, List.count_singleton]
      split_ifs with hsame hsame' hsame'
      · rw [hsame]
      · simp [hsame] at hsame'
      · simp at hsame'
        exact absurd hsame'.symm hsame
      · rfl
    case hidle =>
      intro hidle
      refine ⟨?_, (h.counted.idle hidle).2⟩
      show came = []
      rw [← hcame, hidle]
      exact (h.counted.idle hidle).1
    case hclears => simp [ByteTask.clears]
    case hheld => exact fun _ _ hfile => .inl hfile
    case hnew =>
      refine fun _ => List.forall_mem_singleton.mpr ?_
      constructor
      case acquired =>
        intro other hother _
        obtain rfl := List.mem_singleton.mp hother
        rcases hmine with hnot | hfile
        · right
          intro hmarked
          exact hnot ((h.counted.deleting use.hash).mpr ⟨use.file, hmarked, rfl⟩)
        · exact .inl (List.mem_append_left _ hfile)
      case content =>
        intro other hother _
        obtain rfl := List.mem_singleton.mp hother
        exact hcontent
      all_goals simp [ByteTask.cleared, ByteTask.sent, ByteTask.saved]
    case hwaits => exact h.waits.same (.of_eq rfl) rfl rfl rfl rfl rfl rfl rfl rfl
    all_goals rfl
  · -- a hash of another size is counted nowhere
    rw [if_neg hcontent]
    apply ordered_post h hin [ByteUse.next { use with covered := false }]
    case huses =>
      simp only [List.forall_mem_singleton, next_uses]
      right
      intro hmem
      exact hcontent (h.counted.content_of_mem hmem)
    case hinUse =>
      intro hash
      rw [List.flatMap_singleton, next_inUse, if_neg hcontent]
      rfl
    case hclears => simp [next_clears]
    case hnew =>
      refine fun _ _ => List.forall_mem_singleton.mpr ?_
      constructor
      all_goals simp [next_uses, next_cleared, next_sent, next_saved]

theorem ordered_clear (hin : .clear use ∈ s.tasks) :
    (({ s with tasks := s.tasks.erase (.clear use) }).perform ok (.clear use)).Ordered := by
  apply ordered_section h hin [use.next]
  case hdelete => exact sameDelete_clearSuppression (s := s) use.file
  case hsent => exact fun _ hfile => hfile
  case hmessages => exact .inl rfl
  case hbytes => exact fun _ hstored => hstored
  case hsuppressed =>
    intro file
    by_cases hsame : file = use.file
    · subst hsame
      exact .inr ⟨Function.update_self .., .inl ⟨use, List.mem_singleton.mpr rfl, rfl⟩⟩
    · exact .inl (Function.update_of_ne hsame ..)
  case huses =>
    simp only [List.forall_mem_singleton, next_uses]
    exact .inl ⟨use, List.mem_singleton.mpr rfl, rfl⟩
  case hinUse =>
    intro hash
    rw [List.flatMap_singleton, next_inUse]
    rfl
  case hidle => exact h.counted.idle
  case hclears => simp [next_clears]
  case hheld => exact fun _ _ hfile => .inl hfile
  case hnew =>
    refine fun hafter => List.forall_mem_singleton.mpr ?_
    constructor
    case acquired =>
      rw [next_uses]
      exact hafter.acquired
    case cleared =>
      intro other hother _
      rw [next_cleared, List.mem_singleton] at hother
      right
      rw [hother]
      exact Function.update_self ..
    case sent => simp [next_sent]
    case saved => simp [next_saved]
    case content =>
      rw [next_uses]
      exact hafter.content
  case hwaits => exact h.waits.clearSuppression use.file rfl rfl rfl h.waits.jobs h.waits.requests
  all_goals rfl

/-- A send or an image whose message or bytes were not stored. -/
theorem ordered_unsaved (hin : task ∈ s.tasks) (huses : task.uses = (ByteTask.release use false).uses)
    (hcleared : task.cleared = (ByteTask.release use false).cleared)
    (hinUse : task.inUse = (ByteTask.release use false).inUse) :
    (({ s with tasks := s.tasks.erase task }).post [.release use false]).Ordered := by
  apply ordered_post h hin [.release use false]
  case huses =>
    rw [huses]
    exact List.forall_mem_singleton.mpr fun other hother => .inl ⟨other, hother, rfl⟩
  case hinUse =>
    intro hash
    rw [List.flatMap_singleton, hinUse]
  case hclears => simp [ByteTask.clears]
  case hnew =>
    refine fun t htended => List.forall_mem_singleton.mpr ⟨?_, ?_, by simp [ByteTask.sent], by simp [ByteTask.saved], ?_⟩
    · exact huses ▸ htended.acquired
    · exact hcleared ▸ htended.cleared
    · exact huses ▸ htended.content

theorem ordered_store (hin : .store use ∈ s.tasks) :
    (({ s with tasks := s.tasks.erase (.store use) }).perform ok (.store use)).Ordered := by
  dsimp only [perform]
  split_ifs
  · apply ordered_section h hin [.save use]
    case hdelete => exact .of_eq rfl
    case hsent => exact fun _ hfile => hfile
    case hmessages => exact .inr ⟨use, List.mem_singleton.mpr rfl, rfl⟩
    case hbytes => exact fun _ hstored => hstored
    case hsuppressed => exact fun _ => .inl rfl
    case huses => exact List.forall_mem_singleton.mpr fun other hother => .inl ⟨other, hother, rfl⟩
    case hinUse =>
      intro hash
      rw [List.flatMap_singleton]
      rfl
    case hidle => exact h.counted.idle
    case hclears => simp [ByteTask.clears]
    case hheld => exact fun _ _ hfile => .inl hfile
    case hnew =>
      intro hafter
      refine List.forall_mem_singleton.mpr
        ⟨hafter.acquired, hafter.cleared, ?_, by simp [ByteTask.saved], hafter.content⟩
      intro other hother
      have hsame : other = use := by
        have hmine : other ∈ (if use.image then [] else [use]) := hother
        split_ifs at hmine
        · cases hmine
        · exact List.mem_singleton.mp hmine
      subst hsame
      exact ⟨other.message, List.mem_append_right _ (List.mem_singleton.mpr rfl), rfl, List.mem_singleton.mpr rfl, rfl⟩
    case hwaits => exact h.waits.same (.of_eq rfl) rfl rfl rfl rfl rfl rfl rfl rfl
    all_goals rfl
  · exact ordered_unsaved h hin rfl rfl rfl

theorem ordered_save (hin : .save use ∈ s.tasks) :
    (({ s with tasks := s.tasks.erase (.save use) }).perform ok (.save use)).Ordered := by
  dsimp only [perform]
  by_cases hok : ok = true
  · rw [if_pos hok]
    apply ordered_section h hin [.release use true]
    case hdelete => exact .of_eq rfl
    case hsent => exact fun _ hfile => hfile
    case hmessages => exact .inl rfl
    case hbytes =>
      intro hash hstored
      show Function.update s.fetch.bytes use.hash true hash = true
      rw [Function.update_apply, hstored, ite_self]
    case hsuppressed => exact fun _ => .inl rfl
    case huses => exact List.forall_mem_singleton.mpr fun other hother => .inl ⟨other, hother, rfl⟩
    case hinUse =>
      intro hash
      rw [List.flatMap_singleton]
      rfl
    case hidle => exact h.counted.idle
    case hclears => simp [ByteTask.clears]
    case hheld =>
      intro hafter file hfile
      have hfile : file ∈ (if use.covered && !use.image then use.file :: s.held else s.held) := hfile
      split_ifs at hfile with hmine
      · obtain ⟨hcovered, himage⟩ := Bool.and_eq_true_iff.mp hmine
        rcases List.mem_cons.mp hfile with rfl | hfile
        · refine .inr ⟨Function.update_self .., hafter.sent use ?_, ?_⟩
          · show use ∈ (if use.image then [] else [use])
            rw [if_neg (by simpa using himage)]
            exact List.mem_singleton.mpr rfl
          · exact ⟨hafter.acquired use (List.mem_singleton.mpr rfl) hcovered,
              hafter.cleared use (List.mem_singleton.mpr rfl) hcovered⟩
        · exact .inl hfile
      · exact .inl hfile
    case hnew =>
      intro hafter
      refine List.forall_mem_singleton.mpr
        ⟨hafter.acquired, hafter.cleared, by simp [ByteTask.sent], ?_, hafter.content⟩
      intro other hother _
      have hmine : other ∈ (if use.image then [use] else []) := hother
      split_ifs at hmine
      · rw [List.mem_singleton.mp hmine]
        exact Function.update_self ..
      · cases hmine
    case hwaits => exact h.waits.same (.of_eq rfl) rfl rfl rfl rfl rfl rfl rfl rfl
    all_goals rfl
  · rw [if_neg hok]
    exact ordered_unsaved h hin rfl rfl rfl

theorem ordered_release {saved : Bool} (hin : .release use saved ∈ s.tasks) :
    (({ s with tasks := s.tasks.erase (.release use saved) }).perform ok (.release use saved)).Ordered := by
  dsimp only [perform]
  generalize hnew : (if use.image && saved then [ByteTask.write use] else []) = new
  have hmine : ∀ x ∈ new, x = .write use ∧ use.image = true ∧ saved = true := by
    intro x hx
    rw [← hnew] at hx
    split_ifs at hx with hboth
    · exact ⟨List.mem_singleton.mp hx, Bool.and_eq_true_iff.mp hboth⟩
    · cases hx
  have hinUse : (new.flatMap (·.inUse)) = [] := by
    apply List.flatMap_eq_nil_iff.mpr
    intro x hx
    rw [(hmine x hx).1]
    rfl
  apply ordered_section h hin new
  case hdelete => exact .of_eq rfl
  case hsent => exact fun _ hfile => hfile
  case hmessages => exact .inl rfl
  case hbytes => exact fun _ hstored => hstored
  case hsuppressed => exact fun _ => .inl rfl
  case huses =>
    intro x hx other hother
    obtain ⟨rfl, -⟩ := hmine x hx
    exact .inl ⟨other, hother, rfl⟩
  case hinUse =>
    intro hash
    rw [hinUse]
    have hcount := h.counted.inUse use.hash
    rw [((List.perm_cons_erase hin).flatMap_right (·.inUse)).count_eq, List.flatMap_cons, List.count_append] at hcount
    show (if isContentHash use.hash then Function.update s.bytesInUse use.hash (s.bytesInUse use.hash - 1)
        else s.bytesInUse) hash + (if isContentHash use.hash then [use.hash] else []).count hash = s.bytesInUse hash + 0
    have hhead : (ByteTask.release use saved).inUse = if isContentHash use.hash then [use.hash] else [] := rfl
    rw [hhead] at hcount
    by_cases hcontent : isContentHash use.hash = true
    · rw [if_pos hcontent, List.count_singleton_self] at hcount
      rw [if_pos hcontent, if_pos hcontent]
      by_cases hsame : hash = use.hash
      · subst hsame
        rw [Function.update_self, List.count_singleton_self]
        omega
      · rw [Function.update_of_ne hsame, List.count_eq_zero.mpr (by simpa using hsame)]
    · rw [if_neg hcontent, if_neg hcontent]
      rfl
  case hidle => exact h.counted.idle
  case hclears =>
    intro x hx
    rw [(hmine x hx).1]
    simp [ByteTask.clears]
  case hheld => exact fun _ _ hfile => .inl hfile
  case hnew =>
    intro hafter x hx
    obtain ⟨rfl, himage, rfl⟩ := hmine x hx
    refine ⟨hafter.acquired, hafter.cleared, by simp [ByteTask.sent], ?_, hafter.content⟩
    intro other hother hcovered
    apply hafter.saved other _ hcovered
    show other ∈ (if use.image then [use] else [])
    rw [if_pos himage]
    exact hother
  case hwaits => exact h.waits.same (.of_eq rfl) rfl rfl rfl rfl rfl rfl rfl rfl
  all_goals rfl

theorem ordered_write (hin : .write use ∈ s.tasks) :
    (({ s with tasks := s.tasks.erase (.write use) }).perform ok (.write use)).Ordered := by
  dsimp only [perform]
  by_cases hok : ok = true
  · rw [if_pos hok]
    apply ordered_section h hin []
    case htasks => exact (List.append_nil _).symm
    case hdelete => exact .of_eq rfl
    case hsent => exact fun _ hfile => hfile
    case hmessages => exact .inr ⟨use, List.mem_singleton.mpr rfl, rfl⟩
    case hbytes => exact fun _ hstored => hstored
    case hsuppressed => exact fun _ => .inl rfl
    case hinUse => simp [ByteTask.inUse]
    case hidle => exact h.counted.idle
    case hheld =>
      intro hafter file hfile
      have hfile : file ∈ (if use.covered then use.file :: s.held else s.held) := hfile
      split_ifs at hfile with hcovered
      · rcases List.mem_cons.mp hfile with rfl | hfile
        · refine .inr ⟨hafter.saved use (List.mem_singleton.mpr rfl) hcovered, ?_, ?_⟩
          · exact ⟨use.message, List.mem_append_right _ (List.mem_singleton.mpr rfl), rfl, List.mem_singleton.mpr rfl,
              rfl⟩
          · exact ⟨hafter.acquired use (List.mem_singleton.mpr rfl) hcovered,
              hafter.cleared use (List.mem_singleton.mpr rfl) hcovered⟩
        · exact .inl hfile
      · exact .inl hfile
    case hwaits => exact h.waits.same (.of_eq rfl) rfl rfl rfl rfl rfl rfl rfl rfl
    case hdeleting => rfl
    all_goals simp
  · rw [if_neg hok]
    exact ordered_done h hin rfl

/-- Every section of a send, an image or a tap. -/
theorem ordered_run (hin : task ∈ s.tasks) : (({ s with tasks := s.tasks.erase task }).perform ok task).Ordered := by
  cases task with
  | request job => exact ordered_request h hin
  | clearFor job => exact ordered_clearFor h hin
  | fetchFor job => exact ordered_fetchFor h hin
  | acquire use => exact ordered_acquire h hin
  | clear use => exact ordered_clear h hin
  | store use => exact ordered_store h hin
  | save use => exact ordered_save h hin
  | release use saved => exact ordered_release h hin
  | write use => exact ordered_write h hin

end

/-- It frees nothing, and a file it shows is shown by its clear. -/
theorem keeps_run : s.Keeps (.run task ok) (({ s with tasks := s.tasks.erase task }).perform ok task) := by
  cases task with
  | request job =>
    dsimp only [perform]
    split_ifs
    · exact keeps_same rfl rfl rfl
    · exact keeps_same rfl rfl rfl
    · exact keeps_same rfl rfl rfl
  | clearFor job => exact keeps_cleared rfl rfl rfl (.inr (.inl ⟨job, ok, rfl, rfl⟩))
  | fetchFor job =>
    dsimp only [perform]
    split_ifs
    · exact keeps_same rfl rfl rfl
    · exact keeps_same (AttachmentFetch.sameStore_askAll [job] true).bytes rfl rfl
  | acquire use =>
    dsimp only [perform]
    by_cases hcontent : isContentHash use.hash = true
    · rw [if_pos hcontent]
      exact keeps_same rfl rfl rfl
    · rw [if_neg hcontent]
      exact keeps_same rfl rfl rfl
  | clear use => exact keeps_cleared rfl rfl rfl (.inl ⟨use, ok, rfl, rfl⟩)
  | store use =>
    dsimp only [perform]
    split_ifs
    · exact keeps_same rfl rfl rfl
    · exact keeps_same rfl rfl rfl
  | save use =>
    dsimp only [perform]
    by_cases hok : ok = true
    · rw [if_pos hok]
      apply keeps_of
      case hremoved => exact fun _ hfile => .inl hfile
      · intro hash hstored
        show Function.update s.fetch.bytes use.hash true hash = true
        rw [Function.update_apply, hstored, ite_self]
      · intro file hfile
        show file ∈ (if use.covered && !use.image then use.file :: s.held else s.held)
        split_ifs
        · exact List.mem_cons_of_mem _ hfile
        · exact hfile
    · rw [if_neg hok]
      exact keeps_same rfl rfl rfl
  | release use saved => exact keeps_same rfl rfl rfl
  | write use =>
    dsimp only [perform]
    by_cases hok : ok = true
    · rw [if_pos hok]
      apply keeps_of
      case hbytes => exact fun _ hstored => hstored
      case hremoved => exact fun _ hfile => .inl hfile
      intro file hfile
      show file ∈ (if use.covered then use.file :: s.held else s.held)
      split_ifs
      · exact List.mem_cons_of_mem _ hfile
      · exact hfile
    · rw [if_neg hok]
      exact keeps_same rfl rfl rfl

end LocalDelete
/-! ## Downloads beside a delete -/

namespace LocalDelete

open Lib

variable {s t : LocalDelete} {run : DeleteRun} {task : ByteTask} {ok : Bool} {hash : String}

/-! ## The downloads beside -/

theorem needed_of_shown {file : String × String} (hwritten : s.Written file) (hshown : s.Shown file) :
    s.Needed file.2 := by
  right
  right
  rcases hshown.unmarked with hpending | hunmarked
  · exact .inl ⟨file, hpending, rfl⟩
  rcases hshown.shown with hpending | hmark
  · exact .inl ⟨file, hpending, rfl⟩
  obtain ⟨message, hmessage, hthread, hhash, harrived⟩ := hwritten
  have hfile : (message.thread, file.2) = file := by rw [hthread]
  refine .inr ⟨message, hmessage, hhash, ?_, ?_, ?_⟩
  · rw [hfile]
    exact hmark
  · rw [hfile]
    exact hunmarked
  · unfold leftAside
    split
    · simp [harrived]
    · rfl

theorem saved_needed (h : s.Ordered) (hin : task ∈ s.tasks) {use : ByteUse} (huse : use ∈ task.saved)
    (hcovered : use.covered = true) : s.Needed use.hash := by
  cases task with
  | release other saved =>
    have hsame : use = other := by
      cases saved with
      | false => cases huse
      | true =>
        have hmine : use ∈ (if other.image then [other] else []) := huse
        split_ifs at hmine
        · exact List.mem_singleton.mp hmine
        · cases hmine
    subst hsame
    left
    have hcontent := (h.holds.tended _ hin).content use (List.mem_singleton.mpr rfl) hcovered
    have hcount := h.counted.inUse use.hash
    rw [((List.perm_cons_erase hin).flatMap_right (·.inUse)).count_eq, List.flatMap_cons, List.count_append] at hcount
    have hhead : (ByteTask.release use saved).inUse = [use.hash] := if_pos hcontent
    rw [hhead, List.count_singleton_self] at hcount
    omega
  | write other =>
    obtain rfl := List.mem_singleton.mp huse
    exact .inr (.inl (List.mem_flatMap.mpr ⟨_, hin, List.mem_singleton.mpr rfl⟩))
  | request job | clearFor job | fetchFor job | acquire other | clear other | store other
  | save other => cases huse

theorem uses_of_cleared {use : ByteUse} (huse : use ∈ task.cleared) : use ∈ task.uses := by
  cases task <;> first | exact huse | cases huse

/-- A step of the downloads takes no bytes that are needed and marks no file that
is held. -/
theorem ordered_fetch_step (h : s.Ordered) {step : AttachmentFetch.Step}
    (hnot : ∀ file suppressed, step ≠ .setSuppressed file suppressed)
    (hback : ∀ job drains ok answer, step = .run (.takeBack job drains) ok answer → ¬ s.Needed job.hash)
    (hhold : ∀ job drains ok answer, step = .run (.holdBack job drains) ok answer →
      job.file ∉ s.held ∧ ∀ task ∈ s.tasks, ∀ use ∈ task.uses, use.file ≠ job.file) :
    ({ s with fetch := s.fetch.step step } : LocalDelete).Ordered := by
  have hbytes : ∀ hash, s.Needed hash → s.fetch.bytes hash = true → (s.fetch.step step).bytes hash = true := by
    intro hash hneeded hstored
    rcases AttachmentFetch.step_bytes hstored with hkept | ⟨job, drains, ok, answer, hstep, rfl⟩
    · exact hkept
    · exact absurd hneeded (hback job drains ok answer hstep)
  have hgrows : ∀ file, s.fetch.suppressed file = true → (s.fetch.step step).suppressed file = true := by
    intro file hmark
    rcases AttachmentFetch.step_suppressed hnot file with hsame | ⟨hmarked, -⟩
    · rw [hsame]
      exact hmark
    · exact hmarked
  have hstays : ∀ file, (file ∈ s.held ∨ ∃ task ∈ s.tasks, ∃ use ∈ task.uses, use.file = file) →
      s.fetch.suppressed file = false → (s.fetch.step step).suppressed file = false := by
    intro file hmine hmark
    rcases AttachmentFetch.step_suppressed hnot file with hsame | ⟨-, job, drains, ok, answer, hstep, rfl⟩
    · rw [hsame]
      exact hmark
    · obtain ⟨hheld, huses⟩ := hhold job drains ok answer hstep
      rcases hmine with hfile | ⟨task, htask, use, huse, hsame⟩
      · exact absurd hfile hheld
      · exact absurd hsame (huses task htask use huse)
  constructor
  case counted => exact ⟨h.counted.inUse, h.counted.deleting, h.counted.idle, h.counted.content, h.counted.clears,
    h.counted.within⟩
  case scanned =>
    apply h.scanned.same
    case hdelete => exact .of_eq rfl
    intro run hrun hlooked hash hhash hcovers
    apply hcovers.mono
    case hsent => exact fun _ hfile => hfile
    case htasks => exact fun _ hx => .inl hx
    case hmessages => exact fun _ hmessage => .inl hmessage
    case hsuppressed => exact fun thread hmark => hgrows (thread, hash) hmark
  case holds =>
    constructor
    case held =>
      intro file hfile
      obtain ⟨hstored, hwritten, hshown⟩ := h.holds.held file hfile
      refine ⟨hbytes _ (needed_of_shown hwritten hshown) hstored, hwritten, hshown.unmarked, ?_⟩
      rcases hshown.shown with hpending | hmark
      · exact .inl hpending
      · exact .inr (hstays file (.inl hfile) hmark)
    case tended =>
      intro task htask
      have htended := h.holds.tended task htask
      refine ⟨htended.acquired, ?_, htended.sent, ?_, htended.content⟩
      · intro use huse hcovered
        rcases htended.cleared use huse hcovered with hpending | hmark
        · exact .inl hpending
        · exact .inr (hstays _ (.inr ⟨task, htask, use, uses_of_cleared huse, rfl⟩) hmark)
      · intro use huse hcovered
        exact hbytes _ (saved_needed h htask huse hcovered) (htended.saved use huse hcovered)
  case waits =>
    exact ⟨fun file hfile => hgrows file (h.waits.removed file hfile), h.waits.finished, h.waits.jobs,
      h.waits.requests⟩

/-! ## What others ask -/

theorem ordered_new (h : s.Ordered) {new : ByteTask} (huses : new.uses = []) (hinUse : new.inUse = [])
    (hclears : new.clears = []) (hcleared : new.cleared = []) (hsent : new.sent = []) (hsaved : new.saved = []) :
    (s.post [new]).Ordered := by
  have hdelete : s.SameDelete (s.post [new]) := .of_eq rfl
  have hleaves : s.Leaves (s.post [new]) := .of_fetch hdelete rfl rfl rfl rfl
  constructor
  case counted =>
    refine ⟨?_, h.counted.deleting, h.counted.idle, h.counted.content, ?_, h.counted.within⟩
    · intro hash
      show s.bytesInUse hash = ((s.tasks ++ [new]).flatMap (·.inUse)).count hash
      rw [List.flatMap_append, List.flatMap_singleton, hinUse, List.append_nil]
      exact h.counted.inUse hash
    · intro task htask
      rcases List.mem_append.mp htask with hold | hnew
      · exact h.counted.clears task hold
      · rw [List.mem_singleton.mp hnew, hclears]
        simp
  case scanned =>
    apply h.scanned.same hdelete
    intro run hrun hlooked hash hhash hcovers
    apply hcovers.mono
    case hsent => exact fun _ hfile => hfile
    case htasks =>
      intro x hx
      rcases List.mem_append.mp hx with hold | hnew
      · exact .inl hold
      · right
        rw [List.mem_singleton.mp hnew, huses]
        simp
    case hmessages => exact fun _ hmessage => .inl hmessage
    case hsuppressed => exact fun _ hmark => hmark
  case holds =>
    apply hleaves.holds h.holds
    case hheld => exact fun _ hfile => .inl hfile
    case htasks =>
      intro x hx
      rcases List.mem_append.mp hx with hold | hnew
      · exact .inl hold
      · rw [List.mem_singleton.mp hnew]
        exact .inr (tended_plain huses hcleared hsent hsaved)
  case waits =>
    apply h.waits.same
    case hdelete => exact hdelete
    all_goals rfl

theorem ordered_receive (h : s.Ordered) (thread : String) (hashes : List String) :
    (s.step (.receive thread hashes)).Ordered := by
  have hdelete : s.SameDelete (s.step (.receive thread hashes)) := .of_eq rfl
  have hleaves : s.Leaves (s.step (.receive thread hashes)) := by
    constructor
    case messages => exact fun _ hmessage => List.mem_append_left _ hmessage
    case markedItems => exact fun _ hfile => hfile
    case pendingClear => exact fun _ hfile => hfile
    case bytes => exact fun _ hstored => hstored
    case suppressed => exact fun _ hmark => hmark
  constructor
  case counted => exact ⟨h.counted.inUse, h.counted.deleting, h.counted.idle, h.counted.content, h.counted.clears,
    h.counted.within⟩
  case scanned =>
    apply h.scanned.same hdelete
    intro run hrun hlooked hash hhash hcovers
    apply hcovers.mono
    case hsent => exact fun _ hfile => hfile
    case htasks => exact fun _ hx => .inl hx
    case hmessages =>
      intro message hmessage
      rcases List.mem_append.mp hmessage with hold | hnew
      · exact .inl hold
      · -- it came while the delete runs
        right
        right
        rw [List.mem_singleton.mp hnew, hrun]
        rfl
    case hsuppressed => exact fun _ hmark => hmark
  case holds => exact hleaves.holds h.holds (fun _ hfile => .inl hfile) (fun _ hx => .inl hx)
  case waits =>
    apply h.waits.same
    case hdelete => exact hdelete
    all_goals rfl

theorem ordered_begin (h : s.Ordered) (items : List (String × String)) :
    (s.step (.deleteLocalAttachments items)).Ordered := by
  dsimp only [LocalDelete.step]
  split_ifs with hfree
  · have hmarked : s.markedItems = [] := by
      unfold markedItems
      rw [hfree.1]
    have hsent : s.pendingClear = s.sentDuringDelete := by
      unfold pendingClear
      rw [hfree.1, List.append_nil]
    constructor
    case counted =>
      refine ⟨h.counted.inUse, ?_, h.counted.idle, ?_, h.counted.clears, ?_⟩
      · have hdeleting := h.counted.deleting
        rw [hmarked] at hdeleting
        exact hdeleting
      · intro run hrun file hfile
        cases hrun
        have hmem := List.mem_filter.mp (List.mem_dedup.mp hfile)
        simpa using (by simpa using hmem.2 : _ ∧ _).2
      · intro run hrun
        cases hrun
        trivial
    case scanned =>
      intro run hrun hlooked
      cases hrun
      cases hlooked
    case holds =>
      have hleaves : s.Leaves { s with
          delete := some { number := s.nextDelete, items := takenItems items }
          nextDelete := s.nextDelete + 1 } := by
        constructor
        case markedItems =>
          intro file hfile
          cases hfile
        case pendingClear =>
          intro file hfile
          rw [hsent] at hfile
          exact List.mem_append_left _ hfile
        case messages => exact fun _ hmessage => hmessage
        case bytes => exact fun _ hstored => hstored
        case suppressed => exact fun _ hmark => hmark
      exact hleaves.holds h.holds (fun _ hfile => .inl hfile) (fun _ hx => .inl hx)
    case waits =>
      have hjobs := h.waits.jobs
      have hrequests := h.waits.requests
      unfold jobsLeft at hjobs
      unfold requestsLeft at hrequests
      rw [hfree.1] at hjobs hrequests
      refine ⟨h.waits.removed, ?_, hjobs, hrequests⟩
      intro run hrun file hfile
      cases hrun
      exact .inl hfile
  · exact h

theorem ordered_defer (h : s.Ordered) {job : AttachmentJob} {force : Bool} (hdeleting : s.deleting.contains job.hash) :
    ({ s with
      fetch := { s.fetch with tasks := s.fetch.tasks.erase (.enqueue job force) }
      deferredJobs := s.deferredJobs ++ [(job, force)]
      waitedJobs := s.waitedJobs ++ [(job, force)] } : LocalDelete).Ordered := by
  have hthere : s.deleting ≠ [] := by
    intro hidle
    rw [hidle] at hdeleting
    cases hdeleting
  apply h.elsewhere
  case hdelete => exact .of_eq rfl
  case hidle =>
    intro hidle
    exact absurd hidle hthere
  case hwaits =>
    refine ⟨h.waits.removed, h.waits.finished, ?_, h.waits.requests⟩
    show s.waitedJobs ++ [(job, force)] = s.ranJobs ++ s.jobsLeft ++ (s.deferredJobs ++ [(job, force)])
    rw [h.waits.jobs, List.append_assoc _ _ [(job, force)]]
  all_goals rfl

end LocalDelete
end Pbr
