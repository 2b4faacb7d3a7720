import PpBrowser.Messaging.LocalDeleteScan

/-!
# LocalDeleteRun — what is still needed keeps its bytes

In a run whose deletes begin with no tap past its check and no image between its
release and its message, and whose fetches take back and mark nothing a send put
in a chat, a delete frees only what nothing needs; what it deleted stays hidden
until it is shown again, and what waited for it is called again once, in order.
-/

namespace Pbr
namespace LocalDelete

open Lib

variable {s t : LocalDelete} {run : DeleteRun} {task : ByteTask} {ok : Bool} {hash : String} {use : ByteUse}

/-! ## Every step -/

theorem ordered_delete (h : s.Ordered) (hrun : s.delete = some run) (horderly : s.Orderly (.delete ok)) :
    (s.performDelete run ok).Ordered ∧ s.Keeps (.delete ok) (s.performDelete run ok) := by
  unfold Orderly at horderly
  simp only [hrun] at horderly
  cases hphase : run.phase with
  | mark =>
    rw [hphase] at horderly
    exact ordered_mark h hrun hphase horderly
  | look =>
    rw [hphase] at horderly
    refine ⟨ordered_look h hrun hphase horderly, ?_⟩
    simp only [performDelete, hphase]
    exact keeps_goTo _
  | list =>
    refine ⟨ordered_list h hrun hphase, ?_⟩
    simp only [performDelete, hphase]
    split_ifs
    · exact keeps_goTo _
    · exact keeps_goTo _
  | read threads =>
    refine ⟨ordered_read h hrun hphase, ?_⟩
    cases threads with
    | nil =>
      simp only [performDelete, hphase]
      exact keeps_goTo _
    | cons thread threads =>
      simp only [performDelete, hphase]
      split_ifs
      · exact keeps_goTo _
      · exact keeps_goTo _
  | visit messages threads =>
    refine ⟨ordered_visit h hrun hphase, ?_⟩
    cases messages with
    | nil | cons message messages =>
      simp only [performDelete, hphase]
      exact keeps_goTo _
  | check hashes => exact ordered_check h hrun hphase
  | suppress items => exact ordered_suppress h hrun hphase
  | unmark => exact ordered_unmark h hrun hphase
  | clearSent sent requests jobs => exact ordered_clearSent h hrun hphase
  | requests requests jobs => exact ordered_requests h hrun hphase
  | clearRequest job requests jobs => exact ordered_clearRequest h hrun hphase
  | fetchRequest job requests jobs => exact ordered_fetchRequest h hrun hphase
  | jobs jobs => exact ordered_jobs h hrun hphase

theorem keeps_fetch_step {step : AttachmentFetch.Step}
    (hback : ∀ job drains ok answer, step = .run (.takeBack job drains) ok answer → ¬ s.Needed job.hash) :
    s.Keeps (.fetch step) { s with fetch := s.fetch.step step } := by
  constructor
  case frees =>
    intro hash hstored hgone
    rcases AttachmentFetch.step_bytes hstored with hkept | ⟨job, drains, ok, answer, hstep, rfl⟩
    · have hgone : (s.fetch.step step).bytes hash = false := hgone
      rw [hkept] at hgone
      cases hgone
    · exact hback job drains ok answer hstep
  case held => exact fun _ hfile => .inl hfile
  case removed => exact fun _ hfile => .inl hfile

theorem ordered_step (h : s.Ordered) (step : Step) (horderly : s.Orderly step) :
    (s.step step).Ordered ∧ s.Keeps step (s.step step) := by
  cases step with
  | fetch step =>
    have hplain : ∀ step : AttachmentFetch.Step, (∀ file suppressed, step ≠ .setSuppressed file suppressed) →
        (∀ job drains ok answer, step ≠ .run (.takeBack job drains) ok answer) →
        (∀ job drains ok answer, step ≠ .run (.holdBack job drains) ok answer) →
        ({ s with fetch := s.fetch.step step } : LocalDelete).Ordered ∧
          s.Keeps (.fetch step) { s with fetch := s.fetch.step step } := by
      intro step hnot hback hhold
      constructor
      · apply ordered_fetch_step h hnot
        · exact fun job drains ok answer hstep => absurd hstep (hback job drains ok answer)
        · exact fun job drains ok answer hstep => absurd hstep (hhold job drains ok answer)
      · exact keeps_fetch_step fun job drains ok answer hstep => absurd hstep (hback job drains ok answer)
    cases step with
    | setSuppressed file suppressed => exact ⟨h, keeps_same rfl rfl rfl⟩
    | run task ok answer =>
      cases task with
      | enqueue job force =>
        dsimp only [LocalDelete.step]
        split_ifs with hdeleting
        · exact ⟨ordered_defer h hdeleting.2, keeps_same rfl rfl rfl⟩
        · exact hplain _ (by simp) (by simp) (by simp)
      | takeBack job drains =>
        constructor
        · apply ordered_fetch_step h
          case hnot => simp
          case hback =>
            intro other drains' ok' answer' hstep
            cases hstep
            exact horderly
          case hhold => simp
        · apply keeps_fetch_step
          intro other drains' ok' answer' hstep
          cases hstep
          exact horderly
      | holdBack job drains =>
        constructor
        · apply ordered_fetch_step h
          case hnot => simp
          case hback => simp
          case hhold =>
            intro other drains' ok' answer' hstep
            cases hstep
            exact horderly
        · apply keeps_fetch_step
          simp
      | _ => exact hplain _ (by simp) (by simp) (by simp)
    | _ => exact hplain _ (by simp) (by simp) (by simp)
  | requestDownload job | send thread hash | storeLocalImage thread hash =>
    exact ⟨ordered_new h rfl rfl rfl rfl rfl rfl, keeps_same rfl rfl rfl⟩
  | receive thread hashes => exact ⟨ordered_receive h thread hashes, keeps_same rfl rfl rfl⟩
  | run task ok =>
    dsimp only [LocalDelete.step]
    split_ifs with hin
    · exact ⟨ordered_run h hin, keeps_run⟩
    · exact ⟨h, keeps_same rfl rfl rfl⟩
  | deleteLocalAttachments items =>
    refine ⟨ordered_begin h items, ?_⟩
    dsimp only [LocalDelete.step]
    split_ifs
    · exact keeps_same rfl rfl rfl
    · exact keeps_same rfl rfl rfl
  | delete ok =>
    dsimp only [LocalDelete.step]
    split
    · exact ⟨h, keeps_same rfl rfl rfl⟩
    · rename_i run hrun
      exact ordered_delete h hrun horderly

theorem Ordered.sound (h : s.Ordered) : s.Sound := by
  constructor
  case held => exact fun file hfile => (h.holds.held file hfile).1
  case removed => exact h.waits.removed
  case finished => exact h.waits.finished
  case jobs => exact h.waits.jobs
  case requests => exact h.waits.requests
  case none =>
    intro hnone
    have hidle : s.deleting = [] := by
      apply List.eq_nil_iff_forall_not_mem.mpr
      intro hash hmem
      obtain ⟨file, hfile, -⟩ := (h.counted.deleting hash).mp hmem
      unfold markedItems at hfile
      rw [hnone] at hfile
      cases hfile
    exact (h.counted.idle hidle).2

/-! ## Whole runs -/

/-- No delete, send or tap is under way; what is held is stored, with its
message, and what was deleted is suppressed. -/
structure Fresh (s : LocalDelete) : Prop where
  inUse : s.bytesInUse = fun _ => 0
  deleting : s.deleting = []
  sentDuring : s.sentDuringDelete = []
  jobs : s.deferredJobs = [] ∧ s.waitedJobs = [] ∧ s.ranJobs = []
  requests : s.deferredRequests = [] ∧ s.waitedRequests = [] ∧ s.ranRequests = []
  delete : s.delete = none
  tasks : s.tasks = []
  held : ∀ file ∈ s.held, s.fetch.bytes file.2 = true ∧ s.Written file ∧ s.fetch.suppressed file = false
  removed : ∀ file ∈ s.removed, s.fetch.suppressed file = true

theorem Fresh.ordered (hfresh : s.Fresh) : s.Ordered := by
  have hmarked : s.markedItems = [] := by
    unfold markedItems
    rw [hfresh.delete]
  constructor
  case counted =>
    constructor
    case inUse => simp [hfresh.inUse, hfresh.tasks]
    case deleting => simp [hfresh.deleting, hmarked]
    case idle => exact fun _ => ⟨hfresh.sentDuring, hfresh.jobs.1, hfresh.requests.1⟩
    case content => simp [hfresh.delete]
    case clears => simp [hfresh.tasks]
    case within => simp [hfresh.delete]
  case scanned =>
    intro run hrun
    rw [hfresh.delete] at hrun
    cases hrun
  case holds =>
    constructor
    case held =>
      intro file hfile
      obtain ⟨hstored, hwritten, hmark⟩ := hfresh.held file hfile
      refine ⟨hstored, hwritten, ?_, .inr hmark⟩
      rw [hmarked]
      exact .inr List.not_mem_nil
    case tended => simp [hfresh.tasks]
  case waits =>
    constructor
    case removed => exact hfresh.removed
    case finished => simp [hfresh.delete]
    case jobs => simp [hfresh.jobs, jobsLeft, hfresh.delete]
    case requests => simp [hfresh.requests, requestsLeft, hfresh.delete]

section Examples

def photoHash : String := "00000000000000000000000000000000000000000000000000000000000000aa"

/-- A chat holds a photo. -/
def deleteStart : LocalDelete where
  fetch :=
    { limits := { maxReceiveBytes := 50000, autoDownloadMaxBytes := 20000 }
      bytes := fun hash => hash = photoHash }
  messages := [{ thread := "a", hashes := [photoHash] }]
  held := [("a", photoHash)]

def photoUse (thread : String) (image : Bool) : ByteUse := { thread, hash := photoHash, image }

/-- It is deleted there, and sent to another chat while the delete runs. -/
def sentMeanwhile : List Step :=
  [.deleteLocalAttachments [("a", photoHash)], .delete true, .delete true, .send "b" photoHash,
    .run (.acquire (photoUse "b" false)) true, .run (.clear (photoUse "b" false)) true,
    .run (.store (photoUse "b" false)) true, .run (.save (photoUse "b" false)) true,
    .run (.release (photoUse "b" false) true) true] ++ List.replicate 14 (.delete true)

/-- An AI image of the same bytes is stored and released, its message is not
written yet, and the photo is deleted from its chat. -/
def imageMeanwhile : List Step :=
  [.storeLocalImage "b" photoHash, .run (.acquire (photoUse "b" true)) true, .run (.clear (photoUse "b" true)) true,
    .run (.save (photoUse "b" true)) true, .run (.release (photoUse "b" true) true) true,
    .deleteLocalAttachments [("a", photoHash)]] ++ List.replicate 7 (.delete true)

end Examples

end LocalDelete
end Pbr
