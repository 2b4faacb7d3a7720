import PpBrowser.Messaging.LocalDeleteSends

/-!
# LocalDeleteScan — the sections of the delete

From the mark over the scan of each chat to the unmark: a hash not kept is one no
send uses and no scanned chat shows, and what came meanwhile is kept by name.
-/

namespace Pbr
namespace LocalDelete

open Lib

variable {s t : LocalDelete} {run : DeleteRun} {task : ByteTask} {ok : Bool} {hash : String}

/-! ## Sections of the delete -/

variable {phase : DeletePhase} {hashes : List String}

theorem markedItems_of (hrun : s.delete = some run) (hphase : run.phase = phase) :
    s.markedItems = if phase.marked then run.items else [] := by
  unfold markedItems
  rw [hrun, ← hphase]

theorem pendingClear_of (hrun : s.delete = some run) (hphase : run.phase = phase) :
    s.pendingClear = s.sentDuringDelete ++ phase.sent := by
  unfold pendingClear
  rw [hrun, ← hphase]

theorem Waits.left (h : s.Waits) (hrun : s.delete = some run) (hphase : run.phase = phase) :
    s.waitedJobs = s.ranJobs ++ phase.jobsLeft ++ s.deferredJobs ∧
      s.waitedRequests = s.ranRequests ++ phase.requestsLeft ++ s.deferredRequests := by
  have hjobs := h.jobs
  have hrequests := h.requests
  unfold jobsLeft at hjobs
  unfold requestsLeft at hrequests
  rw [hrun] at hjobs hrequests
  rw [← hphase]
  exact ⟨hjobs, hrequests⟩

/-- The delete goes on, with what it keeps, and touches nothing else. -/
theorem ordered_phase (h : s.Ordered) (hrun : s.delete = some run) (kept : List String) (phase : DeletePhase)
    (hmarked : phase.marked = run.phase.marked) (hsent : phase.sent = run.phase.sent)
    (hjobs : phase.jobsLeft = run.phase.jobsLeft) (hrequests : phase.requestsLeft = run.phase.requestsLeft)
    (hleft : ∀ file ∈ run.phase.unsuppressed run.items, file ∈ phase.unsuppressed run.items)
    (hwithin : phase.Within run)
    (hcovers : phase.looked = true → ∀ hash ∈ run.targets, hash ∉ kept → s.Covers { run with kept, phase } hash) :
    (s.goTo { run with kept } phase).Ordered := by
  have hitems : (s.goTo { run with kept } phase).markedItems = s.markedItems := by
    rw [markedItems_of hrun rfl, ← hmarked]
    rfl
  have hpending : (s.goTo { run with kept } phase).pendingClear = s.pendingClear := by
    rw [pendingClear_of hrun rfl, ← hsent]
    rfl
  constructor
  case counted =>
    refine ⟨h.counted.inUse, ?_, h.counted.idle, ?_, h.counted.clears, ?_⟩
    · rw [hitems]
      exact h.counted.deleting
    · intro run' hrun'
      cases hrun'
      exact h.counted.content run hrun
    · intro run' hrun'
      cases hrun'
      cases phase <;> exact hwithin
  case scanned =>
    intro run' hrun' hlooked hash hhash hnot
    cases hrun'
    exact hcovers hlooked hash hhash hnot
  case holds =>
    have hleaves : s.Leaves (s.goTo { run with kept } phase) := by
      constructor
      case markedItems =>
        rw [hitems]
        exact fun _ hfile => hfile
      case pendingClear =>
        rw [hpending]
        exact fun _ hfile => hfile
      case messages => exact fun _ hmessage => hmessage
      case bytes => exact fun _ hstored => hstored
      case suppressed => exact fun _ hmark => hmark
    exact hleaves.holds h.holds (fun _ hfile => .inl hfile) (fun _ hx => .inl hx)
  case waits =>
    refine ⟨h.waits.removed, ?_, ?_, ?_⟩
    · intro run' hrun' file hfile
      cases hrun'
      rcases h.waits.finished run hrun file hfile with hthere | hremoved | hshown
      · exact .inl (hleft file hthere)
      · exact .inr (.inl hremoved)
      · exact .inr (.inr hshown)
    · have hold := (h.waits.left hrun rfl).1
      rw [← hjobs] at hold
      exact hold
    · have hold := (h.waits.left hrun rfl).2
      rw [← hrequests] at hold
      exact hold

theorem ordered_next {old : DeletePhase} (h : s.Ordered) (hrun : s.delete = some run) (hphase : run.phase = old)
    (hpast : phase.looked = false) (hmarked : phase.marked = old.marked) (hsent : phase.sent = old.sent)
    (hjobs : phase.jobsLeft = old.jobsLeft) (hrequests : phase.requestsLeft = old.requestsLeft)
    (hleft : old.unsuppressed run.items = phase.unsuppressed run.items) (hwithin : phase.Within run) :
    (s.goTo run phase).Ordered := by
  subst hphase
  apply ordered_phase h hrun run.kept phase hmarked hsent hjobs hrequests
  case hleft =>
    rw [hleft]
    exact fun _ hfile => hfile
  case hwithin => exact hwithin
  case hcovers =>
    intro hlooked
    rw [hpast] at hlooked
    cases hlooked

theorem Covers.at_phase (h : s.Covers run hash) (kept : List String) (phase : DeletePhase)
    (hsees : ∀ message ∈ s.messages, hash ∈ message.hashes → run.phase.Sees message → phase.Sees message ∨
      (message.thread, hash) ∈ run.items ∨ s.fetch.suppressed (message.thread, hash) = true) :
    s.Covers { run with kept, phase } hash := by
  rcases h with hsent | ⟨huses, hscan⟩
  · exact .inl hsent
  refine .inr ⟨huses, ?_⟩
  intro message hmessage hhash
  rcases hscan message hmessage hhash with hitem | hmark | harrived | hthere
  · exact .inl hitem
  · exact .inr (.inl hmark)
  · exact .inr (.inr (.inl harrived))
  · rcases hsees message hmessage hhash hthere with hsees | hitem | hmark
    · exact .inr (.inr (.inr hsees))
    · exact .inl hitem
    · exact .inr (.inl hmark)

section

variable (h : s.Ordered) (hrun : s.delete = some run)
include h hrun

theorem ordered_look (hphase : run.phase = .look)
    (horderly : ∀ task ∈ s.tasks, ∀ hash ∈ task.writes, hash ∉ run.targets) : (s.performDelete run ok).Ordered := by
  simp only [performDelete, hphase]
  apply ordered_phase h hrun _ .list
  case hcovers =>
    intro _ hash hhash hnot
    right
    constructor
    · intro task htask use huse hsame
      subst hsame
      have hfree : s.bytesInUse use.hash = 0 := by
        by_contra hused
        exact hnot (List.mem_filter.mpr ⟨hhash, by simpa using hused⟩)
      have hcontent : isContentHash use.hash = true := by
        apply h.counted.content_of_mem
        obtain ⟨file, hfile, hsame⟩ := List.mem_map.mp (List.mem_dedup.mp hhash)
        refine (h.counted.deleting _).mpr ⟨file, ?_, hsame⟩
        rw [markedItems_of hrun hphase]
        exact hfile
      rw [h.counted.inUse, ((List.perm_cons_erase htask).flatMap_right (·.inUse)).count_eq, List.flatMap_cons,
        List.count_append] at hfree
      have hnone : task.inUse.count use.hash = 0 := by omega
      rw [List.count_eq_zero] at hnone
      cases task with
      | write other =>
        obtain rfl := List.mem_singleton.mp huse
        exact horderly _ htask use.hash (List.mem_singleton.mpr rfl) hhash
      | clear other | store other | save other | release other saved =>
        obtain rfl := List.mem_singleton.mp huse
        exact hnone (by simp [ByteTask.inUse, hcontent])
      | request job | clearFor job | fetchFor job | acquire other => cases huse
    · intro message _ _
      exact .inr (.inr (.inr trivial))
  case hwithin => trivial
  all_goals simp [hphase, DeletePhase.marked, DeletePhase.sent, DeletePhase.jobsLeft, DeletePhase.requestsLeft,
    DeletePhase.unsuppressed]

/-- Nothing is freed where the store cannot be read. -/
theorem ordered_unread (hlooked : run.phase.looked = true) :
    (s.goTo { run with kept := run.targets } (.check run.targets)).Ordered := by
  apply ordered_phase h hrun
  case hcovers =>
    intro _ hash hhash hnot
    exact absurd hhash hnot
  case hwithin => exact fun _ hhash => hhash
  all_goals
    cases hphase : run.phase <;> simp_all [DeletePhase.looked, DeletePhase.marked, DeletePhase.sent,
      DeletePhase.jobsLeft, DeletePhase.requestsLeft, DeletePhase.unsuppressed]

theorem ordered_scan (hlooked : run.phase.looked = true)
    (kept : List String) (phase : DeletePhase) (hphase : phase.looked = true) (hwithin : phase.Within run) (hkept : ∀ hash ∈ run.kept, hash ∈ kept)
    (hsees : ∀ hash ∈ run.targets, hash ∉ kept → ∀ message ∈ s.messages, hash ∈ message.hashes →
      run.phase.Sees message → phase.Sees message ∨ (message.thread, hash) ∈ run.items ∨
        s.fetch.suppressed (message.thread, hash) = true) : (s.goTo { run with kept } phase).Ordered := by
  apply ordered_phase h hrun
  case hcovers =>
    intro _ hash hhash hnot
    apply (h.scanned run hrun hlooked hash hhash fun hin => hnot (hkept hash hin)).at_phase
    exact hsees hash hhash hnot
  case hwithin => exact hwithin
  all_goals
    cases hold : run.phase <;> cases phase <;> simp_all [DeletePhase.looked, DeletePhase.marked, DeletePhase.sent,
      DeletePhase.jobsLeft, DeletePhase.requestsLeft, DeletePhase.unsuppressed]

theorem ordered_list (hphase : run.phase = .list) : (s.performDelete run ok).Ordered := by
  simp only [performDelete, hphase]
  split_ifs
  · apply ordered_scan h hrun (by rw [hphase]; rfl) run.kept (.read (s.messages.map (·.thread)).dedup) rfl trivial
          (fun _ hhash => hhash)
    intro hash _ _ message hmessage _ _
    exact .inl (List.mem_dedup.mpr (List.mem_map_of_mem hmessage))
  · exact ordered_unread h hrun (by rw [hphase]; rfl)

theorem ordered_read {threads : List String}
    (hphase : run.phase = .read threads) : (s.performDelete run ok).Ordered := by
  cases threads with
  | nil =>
    simp only [performDelete, hphase]
    apply ordered_scan h hrun (by rw [hphase]; rfl) run.kept (.check run.targets) rfl (fun _ hhash => hhash) (fun _ hhash => hhash)
    intro hash _ _ message _ _ hsees
    rw [hphase] at hsees
    cases hsees
  | cons thread threads =>
    simp only [performDelete, hphase]
    split_ifs
    · apply ordered_scan h hrun (by rw [hphase]; rfl) run.kept (.visit (s.messages.filter (·.thread = thread)).reverse threads) rfl trivial
        (fun _ hhash => hhash)
      intro hash _ _ message hmessage _ hsees
      left
      rw [hphase] at hsees
      rcases List.mem_cons.mp hsees with hsame | hlater
      · exact .inl (List.mem_reverse.mpr (List.mem_filter.mpr ⟨hmessage, by simpa using hsame⟩))
      · exact .inr hlater
    · exact ordered_unread h hrun (by rw [hphase]; rfl)

/-- What a visited message refers to is kept, or an item, or suppressed there. -/
theorem ordered_visit {messages : List StoredMessage} {threads : List String} (hphase : run.phase = .visit messages threads) :
    (s.performDelete run ok).Ordered := by
  cases messages with
  | nil =>
    simp only [performDelete, hphase]
    apply ordered_scan h hrun (by rw [hphase]; rfl) run.kept (.read threads) rfl trivial
        (fun _ hhash => hhash)
    intro hash _ _ message _ _ hsees
    rw [hphase] at hsees
    rcases hsees with hnone | hlater
    · cases hnone
    · exact .inl hlater
  | cons visited messages =>
    simp only [performDelete, hphase]
    apply ordered_scan h hrun (by rw [hphase]; rfl) _ (.visit messages threads) rfl trivial
        (fun _ hhash => List.mem_append_left _ hhash)
    intro hash hhash hnot message hmessage hrefers hsees
    rw [hphase] at hsees
    rcases hsees with hthere | hlater
    · rcases List.mem_cons.mp hthere with rfl | hnext
      · right
        by_contra hneither
        rw [not_or] at hneither
        apply hnot
        apply List.mem_append_right
        apply List.mem_filter.mpr
        refine ⟨hrefers, ?_⟩
        simp only [Bool.and_eq_true, List.contains_iff_mem, Bool.not_eq_true', Bool.eq_false_iff]
        refine ⟨⟨hhash, ?_⟩, hneither.2⟩
        intro hmem
        exact hneither.1 (List.contains_iff_mem.mp hmem)
      · exact .inl (.inl hnext)
    · exact .inl (.inr hlater)

/-- A target nothing uses: its bytes go, and nothing needs them. -/
theorem not_needed_of_check
    (hphase : run.phase = .check (hash :: hashes)) (hhash : hash ∈ run.targets) (hkept : hash ∉ run.kept)
    (huse : s.bytesInUse hash = 0) (hsent : ∀ file ∈ s.sentDuringDelete, file.2 ≠ hash) : ¬ s.Needed hash := by
  have hpending : s.pendingClear = s.sentDuringDelete := by
    rw [pendingClear_of hrun hphase]
    exact List.append_nil _
  have hitems : s.markedItems = run.items := by
    rw [markedItems_of hrun hphase]
    rfl
  rcases h.scanned run hrun (by rw [hphase]; rfl) hash hhash hkept with ⟨file, hfile, hsame⟩ | ⟨huses, hscan⟩
  · exact absurd hsame (hsent file hfile)
  rintro (hused | hwrites | ⟨file, hfile, hsame⟩ | ⟨message, hmessage, hrefers, hmark, hitem, haside⟩)
  · exact hused huse
  · obtain ⟨task, htask, hmine⟩ := List.mem_flatMap.mp hwrites
    cases task with
    | write use =>
      obtain rfl := List.mem_singleton.mp hmine
      exact huses _ htask use (List.mem_singleton.mpr rfl) rfl
    | request job | clearFor job | fetchFor job | acquire use | clear use | store use | save use
    | release use saved => cases hmine
  · rw [hpending] at hfile
    exact hsent file hfile hsame
  · rw [hitems] at hitem
    rcases hscan message hmessage hrefers with hthere | hsuppressed | harrived | hsees
    · exact hitem hthere
    · rw [hmark] at hsuppressed
      cases hsuppressed
    · unfold leftAside at haside
      rw [hrun] at haside
      simp [harrived] at haside
    · rw [hphase] at hsees
      cases hsees

end

variable {run' : DeleteRun} {jobs : List (AttachmentJob × Bool)} {requests : List AttachmentJob} {task : ByteTask}
  {use : ByteUse} {job : AttachmentJob}

/-- A section of the delete that frees nothing and shows nothing. -/
theorem keeps_goTo (step : Step) : s.Keeps step (s.goTo run' phase) := keeps_same rfl rfl rfl

section

variable (h : s.Ordered) (hrun : s.delete = some run)
include h hrun

theorem ordered_check (hphase : run.phase = .check hashes) :
    (s.performDelete run ok).Ordered ∧ s.Keeps (.delete ok) (s.performDelete run ok) := by
  have hlooked : run.phase.looked = true := by
    rw [hphase]
    rfl
  cases hashes with
  | nil =>
    simp only [performDelete, hphase]
    exact ⟨ordered_next h hrun hphase rfl rfl rfl rfl rfl rfl (fun _ hfile => hfile), keeps_goTo _⟩
  | cons hash hashes =>
    have hwithin := h.counted.within run hrun
    rw [hphase] at hwithin
    have hnext : DeletePhase.Within run (.check hashes) :=
      fun other hother => hwithin other (List.mem_cons_of_mem _ hother)
    have hnosee : ∀ kept : List String, ∀ other ∈ run.targets, other ∉ kept → ∀ message ∈ s.messages,
        other ∈ message.hashes → run.phase.Sees message → (DeletePhase.check hashes).Sees message ∨
          (message.thread, other) ∈ run.items ∨ s.fetch.suppressed (message.thread, other) = true := by
      intro kept other _ _ message _ _ hsees
      rw [hphase] at hsees
      cases hsees
    simp only [performDelete, hphase]
    split_ifs with hkept hused
    · refine ⟨?_, keeps_goTo _⟩
      exact ordered_scan h hrun hlooked run.kept (.check hashes) rfl hnext (fun _ hhash => hhash) (hnosee _)
    · refine ⟨?_, keeps_goTo _⟩
      exact ordered_scan h hrun hlooked _ (.check hashes) rfl hnext (fun _ hhash => List.mem_append_left _ hhash)
        (hnosee _)
    · have hneeded : ¬ s.Needed hash := by
        simp only [Bool.or_eq_true, decide_eq_true_eq, List.any_eq_true, not_or, not_exists, not_and] at hused
        apply not_needed_of_check h hrun hphase (hwithin hash List.mem_cons_self)
        · exact fun hmem => hkept (List.contains_iff_mem.mpr hmem)
        · simpa using hused.1
        · exact fun file hfile => by simpa using hused.2 file hfile
      have hgone : ∀ other, s.Needed other → s.fetch.bytes other = true →
          Function.update s.fetch.bytes hash false other = true := by
        intro other hother hstored
        by_cases hsame : other = hash
        · subst hsame
          exact absurd hother hneeded
        · rw [Function.update_of_ne hsame]
          exact hstored
      have hnextphase : (s.goTo run (.check hashes)).Ordered :=
        ordered_scan h hrun hlooked run.kept (.check hashes) rfl hnext (fun _ hhash => hhash) (hnosee _)
      constructor
      · -- nothing needs the bytes: what is held, and what sends have stored, is of other files
        have hitems : ((s.setBytes hash false).goTo run (.check hashes)).markedItems =
            (s.goTo run (.check hashes)).markedItems := rfl
        constructor
        case counted =>
          exact ⟨hnextphase.counted.inUse, hnextphase.counted.deleting, hnextphase.counted.idle,
            hnextphase.counted.content, hnextphase.counted.clears, hnextphase.counted.within⟩
        case scanned => exact hnextphase.scanned
        case holds =>
          constructor
          case held =>
            intro file hfile
            obtain ⟨hstored, hwritten, hshown⟩ := hnextphase.holds.held file hfile
            obtain ⟨-, holdWritten, holdShown⟩ := h.holds.held file hfile
            exact ⟨hgone _ (needed_of_shown holdWritten holdShown) hstored, hwritten, hshown.unmarked, hshown.shown⟩
          case tended =>
            intro task htask
            have htended := hnextphase.holds.tended task htask
            refine ⟨htended.acquired, htended.cleared, htended.sent, ?_, htended.content⟩
            intro use huse hcovered
            exact hgone _ (saved_needed h htask huse hcovered) (htended.saved use huse hcovered)
        case waits =>
          exact ⟨hnextphase.waits.removed, hnextphase.waits.finished, hnextphase.waits.jobs,
            hnextphase.waits.requests⟩
      · constructor
        case frees =>
          intro other hstored hlost
          have hlost : Function.update s.fetch.bytes hash false other = false := hlost
          by_cases hsame : other = hash
          · subst hsame
            exact hneeded
          · rw [Function.update_of_ne hsame, hstored] at hlost
            cases hlost
        case held =>
          intro file hfile
          exact .inl hfile
        case removed =>
          intro file hfile
          exact .inl hfile

/-- An item is marked: it is the delete's, and no send shows it before the end. -/
theorem ordered_suppress {items : List (String × String)} (hphase : run.phase = .suppress items) :
    (s.performDelete run ok).Ordered ∧ s.Keeps (.delete ok) (s.performDelete run ok) := by
  cases items with
  | nil =>
    simp only [performDelete, hphase]
    exact ⟨ordered_next h hrun hphase rfl rfl rfl rfl rfl rfl trivial, keeps_goTo _⟩
  | cons item items =>
    have hwithin := h.counted.within run hrun
    rw [hphase] at hwithin
    have hnext : DeletePhase.Within run (.suppress items) :=
      fun file hfile => hwithin file (List.mem_cons_of_mem _ hfile)
    have hitems : s.markedItems = run.items := by
      rw [markedItems_of hrun hphase]
      rfl
    have hpending : s.pendingClear = s.sentDuringDelete := by
      rw [pendingClear_of hrun hphase]
      exact List.append_nil _
    have hpendingAfter : ((s.suppress item).goTo run (.suppress items)).pendingClear = s.pendingClear := by
      rw [hpending]
      exact List.append_nil _
    have hitemsAfter : ((s.suppress item).goTo run (.suppress items)).markedItems = s.markedItems := hitems.symm
    have hmark : ∀ file, (file ∈ s.pendingClear ∨ file ∉ s.markedItems) →
        (file ∈ s.pendingClear ∨ s.fetch.suppressed file = false) →
        file ∈ s.pendingClear ∨ Function.update s.fetch.suppressed item true file = false := by
      rintro file (hthere | hunmarked) hshown
      · exact .inl hthere
      rcases hshown with hthere | hclear
      · exact .inl hthere
      · right
        rw [Function.update_of_ne]
        · exact hclear
        · intro hsame
          rw [hitems] at hunmarked
          exact hunmarked (hsame ▸ hwithin item List.mem_cons_self)
    simp only [performDelete, hphase]
    constructor
    · constructor
      case counted =>
        refine ⟨h.counted.inUse, ?_, h.counted.idle, ?_, h.counted.clears, ?_⟩
        · rw [hitemsAfter]
          exact h.counted.deleting
        · intro run' hrun'
          cases hrun'
          exact h.counted.content run hrun
        · intro run' hrun'
          cases hrun'
          exact hnext
      case scanned =>
        intro run' hrun' hlooked
        cases hrun'
        cases hlooked
      case holds =>
        constructor
        case held =>
          intro file hfile
          obtain ⟨hstored, hwritten, hshown⟩ := h.holds.held file hfile
          refine ⟨hstored, hwritten, ?_, ?_⟩
          · rw [hpendingAfter, hitemsAfter]
            exact hshown.unmarked
          · rw [hpendingAfter]
            exact hmark file hshown.unmarked hshown.shown
        case tended =>
          intro task htask
          have htended := h.holds.tended task htask
          refine ⟨?_, ?_, htended.sent, htended.saved, htended.content⟩
          · rw [hpendingAfter, hitemsAfter]
            exact htended.acquired
          · intro use huse hcovered
            rw [hpendingAfter]
            exact hmark use.file (htended.acquired use (uses_of_cleared huse) hcovered)
              (htended.cleared use huse hcovered)
      case waits =>
        obtain ⟨hjobs, hrequests⟩ := h.waits.left hrun hphase
        refine ⟨?_, ?_, hjobs, hrequests⟩
        · intro file hfile
          show Function.update s.fetch.suppressed item true file = true
          rcases List.mem_cons.mp hfile with rfl | hold
          · exact Function.update_self ..
          · rw [Function.update_apply, h.waits.removed file hold, ite_self]
        · intro run' hrun' file hfile
          cases hrun'
          rcases h.waits.finished run hrun file hfile with hleft | hremoved | hshown
          · rw [hphase] at hleft
            rcases List.mem_cons.mp hleft with rfl | hlater
            · exact .inr (.inl List.mem_cons_self)
            · exact .inl hlater
          · exact .inr (.inl (List.mem_cons_of_mem _ hremoved))
          · exact .inr (.inr hshown)
    · apply keeps_of
      case hbytes => exact fun _ hstored => hstored
      case hheld => exact fun _ hfile => hfile
      case hremoved => exact fun _ hfile => .inl (List.mem_cons_of_mem _ hfile)

theorem ordered_unmark (hphase : run.phase = .unmark) :
    (s.performDelete run ok).Ordered ∧ s.Keeps (.delete ok) (s.performDelete run ok) := by
  have hpending : s.pendingClear = s.sentDuringDelete := by
    rw [pendingClear_of hrun hphase]
    exact List.append_nil _
  simp only [performDelete, hphase]
  refine ⟨?_, keeps_same rfl rfl rfl⟩
  constructor
  case counted =>
    refine ⟨h.counted.inUse, ?_, fun _ => ⟨rfl, rfl, rfl⟩, ?_, ?_, ?_⟩
    · intro hash
      constructor
      · intro hmem
        cases hmem
      · rintro ⟨file, hfile, -⟩
        cases hfile
    · intro run' hrun'
      cases hrun'
      exact h.counted.content run hrun
    · intro task _ file _ hmem
      cases hmem
    · intro run' hrun'
      cases hrun'
      trivial
  case scanned =>
    intro run' hrun' hlooked
    cases hrun'
    cases hlooked
  case holds =>
    have hleaves : s.Leaves ({ s with
        deleting := []
        sentDuringDelete := []
        deferredJobs := []
        deferredRequests := [] }.goTo run (.clearSent s.sentDuringDelete s.deferredRequests s.deferredJobs)) := by
      constructor
      case markedItems =>
        intro file hfile
        cases hfile
      case pendingClear =>
        intro file hfile
        rw [hpending] at hfile
        exact hfile
      case messages => exact fun _ hmessage => hmessage
      case bytes => exact fun _ hstored => hstored
      case suppressed => exact fun _ hmark => hmark
    exact hleaves.holds h.holds (fun _ hfile => .inl hfile) (fun _ hx => .inl hx)
  case waits =>
    obtain ⟨hjobs, hrequests⟩ := h.waits.left hrun hphase
    refine ⟨h.waits.removed, ?_, ?_, ?_⟩
    · intro run' hrun' file hfile
      cases hrun'
      rcases h.waits.finished run hrun file hfile with hleft | hremoved | hshown
      · rw [hphase] at hleft
        cases hleft
      · exact .inr (.inl hremoved)
      · exact .inr (.inr hshown)
    · show s.waitedJobs = s.ranJobs ++ s.deferredJobs ++ []
      rw [hjobs, List.append_nil]
      exact congrArg (· ++ s.deferredJobs) (List.append_nil _)
    · show s.waitedRequests = s.ranRequests ++ s.deferredRequests ++ []
      rw [hrequests, List.append_nil]
      exact congrArg (· ++ s.deferredRequests) (List.append_nil _)

end

theorem deleting_of_unmarked (h : s.Counted) (hrun : s.delete = some run) (hunmarked : run.phase.marked = false) :
    s.deleting = [] := by
  apply List.eq_nil_iff_forall_not_mem.mpr
  intro hash hmem
  obtain ⟨file, hfile, -⟩ := (h.deleting hash).mp hmem
  rw [markedItems_of hrun rfl, hunmarked] at hfile
  cases hfile

section

variable (h : s.Ordered) (hrun : s.delete = some run)
include h hrun

/-- Past the unmark: what was sent meanwhile is shown, what waited is called. -/
theorem ordered_after (hphase : run.phase = phase)
    (hunmarked : phase.marked = false) (hleft : phase.unsuppressed run.items = []) (hrun' : t.delete = some run')
    (hitems : run'.items = run.items) (hunmarked' : run'.phase.marked = false) (htasks : t.tasks = s.tasks)
    (hinUse : t.bytesInUse = s.bytesInUse) (hdeleting : t.deleting = s.deleting)
    (hsent : t.sentDuringDelete = s.sentDuringDelete) (hdeferredJobs : t.deferredJobs = s.deferredJobs)
    (hdeferredRequests : t.deferredRequests = s.deferredRequests) (hmessages : t.messages = s.messages)
    (hheld : t.held = s.held) (hbytes : t.fetch.bytes = s.fetch.bytes)
    (hsuppressed : ∀ file, s.fetch.suppressed file = false → t.fetch.suppressed file = false)
    (hpending : ∀ file ∈ phase.sent, t.fetch.suppressed file = false ∨ file ∈ run'.phase.sent)
    (hremoved : ∀ file ∈ t.removed, t.fetch.suppressed file = true)
    (hkeeps : ∀ file, file ∈ s.removed ∨ file ∈ run.shown → file ∈ t.removed ∨ file ∈ run'.shown)
    (hjobs : t.waitedJobs = t.ranJobs ++ run'.phase.jobsLeft ++ s.deferredJobs)
    (hrequests : t.waitedRequests = t.ranRequests ++ run'.phase.requestsLeft ++ s.deferredRequests) : t.Ordered := by
  have hidle := deleting_of_unmarked h.counted hrun (by rw [hphase, hunmarked])
  have hmarked : t.markedItems = [] := by
    rw [markedItems_of hrun' rfl, hunmarked']
    rfl
  have hshown : ∀ file, (file ∈ s.pendingClear ∨ s.fetch.suppressed file = false) →
      file ∈ t.pendingClear ∨ t.fetch.suppressed file = false := by
    intro file hfile
    rw [pendingClear_of hrun hphase, List.mem_append] at hfile
    rw [pendingClear_of hrun' rfl, List.mem_append, hsent]
    rcases hfile with (hsent | hlater) | hclear
    · exact .inl (.inl hsent)
    · rcases hpending file hlater with hclear | hlater
      · exact .inr hclear
      · exact .inl (.inr hlater)
    · exact .inr (hsuppressed file hclear)
  have hwritten : ∀ file, s.Written file → t.Written file := by
    intro file hfile
    unfold Written
    rw [hmessages]
    exact hfile
  constructor
  case counted =>
    constructor
    case inUse =>
      rw [hinUse, htasks]
      exact h.counted.inUse
    case deleting =>
      intro hash
      rw [hdeleting, hidle, hmarked]
      simp
    case idle =>
      intro _
      rw [hsent, hdeferredJobs, hdeferredRequests]
      exact h.counted.idle hidle
    case content =>
      intro run'' hrun''
      rw [hrun'] at hrun''
      cases hrun''
      rw [hitems]
      exact h.counted.content run hrun
    case clears =>
      rw [htasks, hdeleting]
      exact h.counted.clears
    case within =>
      intro run'' hrun''
      rw [hrun'] at hrun''
      cases hrun''
      cases hphase' : run'.phase <;> simp_all [DeletePhase.Within, DeletePhase.marked]
  case scanned =>
    intro run'' hrun'' hlooked
    rw [hrun'] at hrun''
    cases hrun''
    cases hphase' : run'.phase <;> simp_all [DeletePhase.looked, DeletePhase.marked]
  case holds =>
    constructor
    case held =>
      intro file hfile
      rw [hheld] at hfile
      obtain ⟨hstored, hthere, hfileShown⟩ := h.holds.held file hfile
      refine ⟨?_, hwritten file hthere, ?_, hshown file hfileShown.shown⟩
      · rw [hbytes]
        exact hstored
      · rw [hmarked]
        exact .inr List.not_mem_nil
    case tended =>
      intro task htask
      rw [htasks] at htask
      have htended := h.holds.tended task htask
      refine ⟨?_, ?_, ?_, ?_, htended.content⟩
      · intro use _ _
        rw [hmarked]
        exact .inr List.not_mem_nil
      · intro use huse hcovered
        exact hshown _ (htended.cleared use huse hcovered)
      · intro use huse
        exact hwritten _ (htended.sent use huse)
      · intro use huse hcovered
        rw [hbytes]
        exact htended.saved use huse hcovered
  case waits =>
    constructor
    case removed => exact hremoved
    case finished =>
      intro run'' hrun'' file hfile
      rw [hrun'] at hrun''
      cases hrun''
      rw [hitems] at hfile
      rcases h.waits.finished run hrun file hfile with hthere | hold
      · rw [hphase, hleft] at hthere
        cases hthere
      · exact .inr (hkeeps file hold)
    case jobs =>
      unfold jobsLeft
      rw [hrun', hdeferredJobs]
      exact hjobs
    case requests =>
      unfold requestsLeft
      rw [hrun', hdeferredRequests]
      exact hrequests

theorem ordered_shown {file : String × String} {next : DeletePhase}
    (hphase : run.phase = phase) (hunmarked : phase.marked = false) (hleft : phase.unsuppressed run.items = [])
    (hunmarked' : next.marked = false) (hsent : ∀ other ∈ phase.sent, other = file ∨ other ∈ next.sent)
    (hjobs : next.jobsLeft = phase.jobsLeft) (hrequests : next.requestsLeft = phase.requestsLeft) :
    ((s.clearSuppression file).goTo { run with shown := file :: run.shown } next).Ordered := by
  apply ordered_after h hrun hphase hunmarked hleft
  case hrun' => rfl
  case hunmarked' => exact hunmarked'
  case hsuppressed =>
    intro other hmark
    show Function.update s.fetch.suppressed file false other = false
    rw [Function.update_apply, hmark, ite_self]
  case hpending =>
    intro other hother
    rcases hsent other hother with rfl | hlater
    · exact .inl (Function.update_self ..)
    · exact .inr hlater
  case hremoved =>
    intro other hother
    obtain ⟨hold, hne⟩ := List.mem_filter.mp hother
    show Function.update s.fetch.suppressed file false other = true
    rw [Function.update_of_ne (by simpa using hne)]
    exact h.waits.removed other hold
  case hkeeps =>
    intro other hother
    by_cases hsame : other = file
    · exact .inr (List.mem_cons.mpr (.inl hsame))
    · rcases hother with hold | hshown
      · exact .inl (List.mem_filter.mpr ⟨hold, by simpa using hsame⟩)
      · exact .inr (List.mem_cons_of_mem _ hshown)
  case hjobs =>
    show s.waitedJobs = s.ranJobs ++ next.jobsLeft ++ s.deferredJobs
    rw [hjobs]
    exact (h.waits.left hrun hphase).1
  case hrequests =>
    show s.waitedRequests = s.ranRequests ++ next.requestsLeft ++ s.deferredRequests
    rw [hrequests]
    exact (h.waits.left hrun hphase).2
  all_goals rfl

theorem ordered_clearSent {sent : List (String × String)} (hphase : run.phase = .clearSent sent requests jobs) :
    (s.performDelete run ok).Ordered ∧ s.Keeps (.delete ok) (s.performDelete run ok) := by
  cases sent with
  | nil =>
    simp only [performDelete, hphase]
    exact ⟨ordered_next h hrun hphase rfl rfl rfl rfl rfl rfl trivial, keeps_goTo _⟩
  | cons item sent =>
    simp only [performDelete, hphase]
    constructor
    · exact ordered_shown h hrun hphase rfl rfl rfl (fun _ hfile => List.mem_cons.mp hfile) rfl rfl
    · exact keeps_cleared rfl rfl rfl (.inr (.inr ⟨run, ok, hrun, rfl, .inl ⟨sent, requests, jobs, hphase⟩⟩))

theorem ordered_requests (hphase : run.phase = .requests requests jobs) :
    (s.performDelete run ok).Ordered ∧ s.Keeps (.delete ok) (s.performDelete run ok) := by
  obtain ⟨hjobs, hrequests⟩ := h.waits.left hrun hphase
  cases requests with
  | nil =>
    simp only [performDelete, hphase]
    exact ⟨ordered_next h hrun hphase rfl rfl rfl rfl rfl rfl trivial, keeps_goTo _⟩
  | cons job requests =>
    have hcalled : ∀ next : DeletePhase, next.marked = false → next.jobsLeft = jobs →
        next.requestsLeft = requests →
        (({ s with ranRequests := s.ranRequests ++ [job] } : LocalDelete).goTo run next).Ordered := by
      intro next hunmarked hjobsLeft hrequestsLeft
      apply ordered_after h hrun hphase
      case hrun' => rfl
      case hunmarked' => exact hunmarked
      case hpending => exact fun _ hnone => (List.not_mem_nil hnone).elim
      case hsuppressed => exact fun _ hmark => hmark
      case hremoved => exact h.waits.removed
      case hkeeps => exact fun _ hfile => hfile
      case hjobs =>
        show s.waitedJobs = s.ranJobs ++ next.jobsLeft ++ s.deferredJobs
        rw [hjobsLeft]
        exact hjobs
      case hrequests =>
        show s.waitedRequests = s.ranRequests ++ [job] ++ next.requestsLeft ++ s.deferredRequests
        rw [hrequestsLeft, hrequests]
        simp [DeletePhase.requestsLeft]
      all_goals rfl
    simp only [performDelete, hphase]
    split_ifs with hfound hdeleting
    · exact ⟨hcalled _ rfl rfl rfl, keeps_same rfl rfl rfl⟩
    · -- no delete holds its mark any more
      rw [deleting_of_unmarked h.counted hrun (by rw [hphase]; rfl)] at hdeleting
      cases hdeleting
    · exact ⟨hcalled _ rfl rfl rfl, keeps_same rfl rfl rfl⟩

theorem ordered_clearRequest (hphase : run.phase = .clearRequest job requests jobs) :
    (s.performDelete run ok).Ordered ∧ s.Keeps (.delete ok) (s.performDelete run ok) := by
  simp only [performDelete, hphase]
  constructor
  · exact ordered_shown h hrun hphase rfl rfl rfl (fun _ hnone => (List.not_mem_nil hnone).elim) rfl rfl
  · exact keeps_cleared rfl rfl rfl (.inr (.inr ⟨run, ok, hrun, rfl, .inr ⟨job, requests, jobs, hphase, rfl⟩⟩))

theorem ordered_fetchRequest (hphase : run.phase = .fetchRequest job requests jobs) :
    (s.performDelete run ok).Ordered ∧ s.Keeps (.delete ok) (s.performDelete run ok) := by
  have hgo : (s.goTo run (.requests requests jobs)).Ordered :=
    ordered_next h hrun hphase rfl rfl rfl rfl rfl rfl trivial
  simp only [performDelete, hphase]
  split_ifs
  · exact ⟨hgo, keeps_goTo _⟩
  · exact ⟨hgo.enqueueJob job true, keeps_same (AttachmentFetch.sameStore_askAll [job] true).bytes rfl rfl⟩

theorem ordered_jobs (hphase : run.phase = .jobs jobs) :
    (s.performDelete run ok).Ordered ∧ s.Keeps (.delete ok) (s.performDelete run ok) := by
  obtain ⟨hjobs, hrequests⟩ := h.waits.left hrun hphase
  cases jobs with
  | nil =>
    simp only [performDelete, hphase]
    refine ⟨?_, keeps_same rfl rfl rfl⟩
    constructor
    case counted =>
      refine ⟨h.counted.inUse, ?_, h.counted.idle, ?_, h.counted.clears, ?_⟩
      · intro hash
        show hash ∈ s.deleting ↔ ∃ file ∈ ([] : List (String × String)), file.2 = hash
        rw [deleting_of_unmarked h.counted hrun (by rw [hphase]; rfl)]
        simp
      · intro run' hrun'
        cases hrun'
      · intro run' hrun'
        cases hrun'
    case scanned =>
      intro run' hrun'
      cases hrun'
    case holds =>
      have hleaves : s.Leaves { s with delete := none } := by
        constructor
        case markedItems =>
          intro file hfile
          cases hfile
        case pendingClear =>
          rw [pendingClear_of hrun hphase]
          exact fun _ hfile => hfile
        case messages => exact fun _ hmessage => hmessage
        case bytes => exact fun _ hstored => hstored
        case suppressed => exact fun _ hmark => hmark
      exact hleaves.holds h.holds (fun _ hfile => .inl hfile) (fun _ hx => .inl hx)
    case waits =>
      refine ⟨h.waits.removed, ?_, hjobs, hrequests⟩
      intro run' hrun'
      cases hrun'
  | cons job jobs =>
    obtain ⟨job, force⟩ := job
    have hcalled : (({ s with ranJobs := s.ranJobs ++ [(job, force)] } : LocalDelete).goTo run (.jobs jobs)).Ordered := by
      apply ordered_after h hrun hphase
      case hrun' => rfl
      case hpending => exact fun _ hnone => (List.not_mem_nil hnone).elim
      case hsuppressed => exact fun _ hmark => hmark
      case hremoved => exact h.waits.removed
      case hkeeps => exact fun _ hfile => hfile
      case hjobs =>
        show s.waitedJobs = s.ranJobs ++ [(job, force)] ++ jobs ++ s.deferredJobs
        rw [hjobs]
        simp [DeletePhase.jobsLeft]
      case hrequests => exact hrequests
      all_goals rfl
    simp only [performDelete, hphase]
    exact ⟨hcalled.enqueueJob job force, keeps_same (AttachmentFetch.sameStore_askAll [job] force).bytes rfl rfl⟩

end

/-! ## The mark -/

variable {items : List (String × String)}

theorem inUse_uncover (task : ByteTask) : (uncover items task).inUse = task.inUse := by
  cases task <;> rfl

theorem clears_uncover (task : ByteTask) : (uncover items task).clears = task.clears := by
  cases task <;> rfl

/-- A use as `uncover` leaves it. -/
def uncovered (items : List (String × String)) (use : ByteUse) : ByteUse :=
  { use with covered := use.covered && !items.contains use.file }

theorem uncover_uses (task : ByteTask) : (uncover items task).uses = task.uses.map (uncovered items) := by
  cases task <;> rfl

theorem uncover_cleared (task : ByteTask) : (uncover items task).cleared = task.cleared.map (uncovered items) := by
  cases task <;> rfl

theorem uncover_sent (task : ByteTask) : (uncover items task).sent = task.sent.map (uncovered items) := by
  cases task with
  | save use =>
    dsimp only [uncover, ByteTask.sent]
    split_ifs <;> rfl
  | _ => rfl

theorem uncover_saved (task : ByteTask) : (uncover items task).saved = task.saved.map (uncovered items) := by
  cases task with
  | release use saved =>
    cases saved with
    | false => rfl
    | true =>
      dsimp only [uncover, ByteTask.saved]
      split_ifs <;> rfl
  | _ => rfl

/-- From here a send that comes is kept, and no tap takes a mark of the delete's
bytes away. -/
theorem ordered_mark (h : s.Ordered) (hrun : s.delete = some run) (hphase : run.phase = .mark)
    (horderly : ∀ task ∈ s.tasks, ∀ file ∈ task.clears, file.2 ∉ run.targets) :
    (s.performDelete run ok).Ordered ∧ s.Keeps (.delete ok) (s.performDelete run ok) := by
  have hidle := deleting_of_unmarked h.counted hrun (by rw [hphase]; rfl)
  have hpending : s.pendingClear = [] := by
    rw [pendingClear_of hrun hphase, (h.counted.idle hidle).1]
    rfl
  obtain ⟨hjobs, hrequests⟩ := h.waits.left hrun hphase
  have hclear : ∀ file, (file ∈ s.pendingClear ∨ s.fetch.suppressed file = false) →
      s.fetch.suppressed file = false := by
    rintro file (hthere | hmark)
    · rw [hpending] at hthere
      cases hthere
    · exact hmark
  simp only [performDelete, hphase]
  constructor
  · constructor
    case counted =>
      refine ⟨?_, ?_, ?_, ?_, ?_, ?_⟩
      · intro hash
        show s.bytesInUse hash = ((s.tasks.map (uncover run.items)).flatMap (·.inUse)).count hash
        rw [List.flatMap_map, h.counted.inUse]
        simp only [inUse_uncover]
      · intro hash
        show hash ∈ run.targets ↔ ∃ file ∈ run.items, file.2 = hash
        simp [DeleteRun.targets]
      · intro _
        exact h.counted.idle hidle
      · intro run' hrun'
        cases hrun'
        exact h.counted.content run hrun
      · intro task htask file hfile
        obtain ⟨old, hold, rfl⟩ := List.mem_map.mp htask
        rw [clears_uncover] at hfile
        exact horderly old hold file hfile
      · intro run' hrun'
        cases hrun'
        trivial
    case scanned =>
      intro run' hrun' hlooked
      cases hrun'
      cases hlooked
    case holds =>
      constructor
      case held =>
        intro file hfile
        obtain ⟨hold, hout⟩ := List.mem_filter.mp hfile
        obtain ⟨hstored, hwritten, hshown⟩ := h.holds.held file hold
        refine ⟨hstored, hwritten, .inr ?_, .inr (hclear file hshown.shown)⟩
        intro hmem
        have hin : run.items.contains file = true := List.contains_iff_mem.mpr hmem
        rw [hin] at hout
        cases hout
      case tended =>
        intro task htask
        obtain ⟨old, hold, rfl⟩ := List.mem_map.mp htask
        have htended := h.holds.tended old hold
        constructor
        case acquired =>
          intro use huse hcovered
          rw [uncover_uses, List.mem_map] at huse
          obtain ⟨other, hother, rfl⟩ := huse
          obtain ⟨-, hout⟩ := Bool.and_eq_true_iff.mp hcovered
          right
          intro hmem
          have hin : run.items.contains other.file = true := List.contains_iff_mem.mpr hmem
          rw [hin] at hout
          cases hout
        case cleared =>
          intro use huse hcovered
          rw [uncover_cleared, List.mem_map] at huse
          obtain ⟨other, hother, rfl⟩ := huse
          exact .inr (hclear _ (htended.cleared other hother (Bool.and_eq_true_iff.mp hcovered).1))
        case sent =>
          intro use huse
          rw [uncover_sent, List.mem_map] at huse
          obtain ⟨other, hother, rfl⟩ := huse
          exact htended.sent other hother
        case saved =>
          intro use huse hcovered
          rw [uncover_saved, List.mem_map] at huse
          obtain ⟨other, hother, rfl⟩ := huse
          exact htended.saved other hother (Bool.and_eq_true_iff.mp hcovered).1
        case content =>
          intro use huse hcovered
          rw [uncover_uses, List.mem_map] at huse
          obtain ⟨other, hother, rfl⟩ := huse
          exact htended.content other hother (Bool.and_eq_true_iff.mp hcovered).1
    case waits =>
      refine ⟨h.waits.removed, ?_, hjobs, hrequests⟩
      intro run' hrun' file hfile
      cases hrun'
      exact .inl hfile
  · constructor
    case frees =>
      intro hash hstored hgone
      have hstored' : (s.fetch.cancelJobs run.keys).bytes hash = true := hstored
      have hgone' : (s.fetch.cancelJobs run.keys).bytes hash = false := hgone
      rw [hstored'] at hgone'
      cases hgone'
    case held =>
      intro file hfile
      by_cases hin : file ∈ run.items
      · exact .inr ⟨run, ok, hrun, hphase, rfl, hin⟩
      · left
        apply List.mem_filter.mpr
        refine ⟨hfile, ?_⟩
        simpa using hin
    case removed =>
      intro file hfile
      exact .inl hfile

end LocalDelete
end Pbr
