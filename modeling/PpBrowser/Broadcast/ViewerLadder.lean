import Mathlib.Algebra.Order.Ring.Unbundled.Rat
import Mathlib.Data.List.Nodup
import PpBrowser.Lib.Runs

/-!
# ViewerLadder — a viewer's search for a hop

`BroadcastViewerLadder.cpp` with, of `BroadcastLadderLogic.cpp`, what a hop
decides about a viewer that asks it. The hops asked are a set that only
grows, and everything the search keeps to is read off it: the path it sends
with each ask is part of the set, and each ask adds one hop.
-/

namespace Pbr

def kDefaultBroadcastRedirectBudget : Int := 8

/-- The hops that are not skipped, each where it is first listed. -/
def distinctHops (skip : String → Bool) (hops : List String) : List String :=
  hops.foldl (fun kept hop => if skip hop || kept.contains hop then kept else kept ++ [hop]) []

/-- The ladder of one watch attempt. -/
structure BroadcastViewerLadder where
  queue : List String
  /-- A set: the newest is first here. -/
  asked : List String := []
  pathStamp : List String := []
  redirectBudget : Int
  maxAsks : Nat
  asks : Nat := 0
  deriving DecidableEq, Repr

namespace BroadcastViewerLadder

inductive Step where
  | ask (hop : String)
  | attach (hop : String)
  /-- Why: the last refusal or attach failure, or that there was no hop to ask. -/
  | giveUp (reason : String)
  deriving DecidableEq, Repr

def make (candidates : List String) (redirectBudget : Int) (maxAsks : Nat) : BroadcastViewerLadder where
  queue := distinctHops (· = "") candidates
  redirectBudget := redirectBudget
  maxAsks := maxAsks

variable (ladder : BroadcastViewerLadder)

/-- The loop of `AskNext`, over what is left of the queue. -/
def askLoop (why : String) : List String → BroadcastViewerLadder × Step
  | [] => ({ ladder with queue := [] }, .giveUp (if why = "" then "no hop to ask" else why))
  | hop :: queue =>
    if hop ∈ ladder.asked then askLoop why queue
    else if ladder.maxAsks ≤ ladder.asks then
      ({ ladder with queue }, .giveUp (if why = "" then "no hop to ask" else why))
    else ({ ladder with queue, asked := hop :: ladder.asked, asks := ladder.asks + 1 }, .ask hop)

def askNext (why : String) : BroadcastViewerLadder × Step := ladder.askLoop why ladder.queue

def start : BroadcastViewerLadder × Step := ladder.askNext ""

def onAdmitted (hop admittedHop : String) : BroadcastViewerLadder × Step :=
  (ladder, .attach (if admittedHop = "" then hop else admittedHop))

def onRedirect (hop : String) (redirectPeerIds : List String) (redirectBudgetRemaining : Int) :
    BroadcastViewerLadder × Step :=
  let pathStamp := ladder.pathStamp ++ [hop]
  let redirectBudget := min (ladder.redirectBudget - 1) redirectBudgetRemaining
  if redirectBudget < 0 then
    { ladder with pathStamp, redirectBudget := 0 }.askNext ("redirect budget exhausted at " ++ hop)
  else
    let ahead := distinctHops (fun hint => hint = "" || ladder.asked.contains hint) redirectPeerIds
    { ladder with pathStamp, redirectBudget, queue := ahead ++ ladder.queue }.askNext
      ("redirected by " ++ hop ++ " with no usable hint")

def onRefused (hop reason : String) : BroadcastViewerLadder × Step :=
  ladder.askNext ("refused by " ++ hop ++ if reason = "" then "" else ": " ++ reason)

def onNoAdmissionService (hop : String) : BroadcastViewerLadder × Step := (ladder, .attach hop)

def onAttachFailed (hop reason : String) : BroadcastViewerLadder × Step :=
  ladder.askNext ("attach to " ++ hop ++ " failed: " ++ reason)

end BroadcastViewerLadder

/-! ## What a hop decides -/

inductive BroadcastLadderViewerAction where
  | admits
  | redirect
  | refuse
  deriving DecidableEq, Repr

structure BroadcastLadderViewerDecision where
  action : BroadcastLadderViewerAction := .refuse
  redirectPeerIds : List String := []
  redirectBudgetRemaining : Int := 0
  refuseReason : String := ""
  deriving DecidableEq, Repr

structure BroadcastLadderViewerInput where
  freeViewerSlots : Nat := 0
  whitelistOnlineChildren : List String := []
  redirectBudget : Int := kDefaultBroadcastRedirectBudget
  pathStamp : List String := []
  selfPeerId : String := ""
  maxRedirectHints : Nat := 3
  jitterUnit : Rat := 0

def pathContains (path : List String) (peerId : String) : Bool := peerId ≠ "" && path.contains peerId

def pickRedirectChildren (children pathStamp : List String) (selfPeerId : String) (maxHints : Nat)
    (jitterUnit : Rat) : List String :=
  let eligible := distinctHops (fun id => id = "" || id = selfPeerId || pathContains pathStamp id) children
  if eligible = [] ∨ maxHints = 0 then []
  else
    let start :=
      if 0 < jitterUnit ∧ 1 < eligible.length then
        (min (max jitterUnit 0) (999999 / 1000000) * eligible.length).floor.toNat
      else 0
    -- The loop stops at the end of the list or at the last hint allowed.
    (List.range (min eligible.length maxHints)).filterMap fun i => eligible[(start + i) % eligible.length]?

def decideBroadcastViewerAdmit (input : BroadcastLadderViewerInput) : BroadcastLadderViewerDecision :=
  let out : BroadcastLadderViewerDecision := { redirectBudgetRemaining := input.redirectBudget }
  if input.selfPeerId ≠ "" ∧ pathContains input.pathStamp input.selfPeerId then
    { out with refuseReason := "redirect path loop" }
  else if 0 < input.freeViewerSlots then { out with action := .admits }
  else if input.redirectBudget ≤ 0 then { out with refuseReason := "redirect budget exhausted" }
  else
    let redirects := pickRedirectChildren input.whitelistOnlineChildren input.pathStamp input.selfPeerId
      input.maxRedirectHints input.jitterUnit
    if redirects = [] then { out with refuseReason := "no online whitelist children" }
    else
      { action := .redirect, redirectPeerIds := redirects,
        redirectBudgetRemaining := input.redirectBudget - 1 }

/-! ## A watch attempt -/

open BroadcastViewerLadder (Step)

/-- What comes back for a step of the ladder. -/
inductive LadderAnswer where
  | admitted (admittedHop : String)
  | redirected (redirectPeerIds : List String) (redirectBudgetRemaining : Int)
  | refused (reason : String)
  | noAdmissionService
  | attachFailed (reason : String)
  deriving DecidableEq, Repr

/-- A watch attempt: the ladder with its last step and, to state its laws,
the hops it asked (newest first), the candidates and hints it was told of
while the budget lasted, the redirects it followed and the answers it got. -/
structure WatchAttempt where
  ladder : BroadcastViewerLadder
  step : Step
  hopsAsked : List String
  toldOf : List String
  followed : Nat := 0
  answered : Nat := 0
  deriving DecidableEq, Repr

namespace WatchAttempt

def asking : Step → List String
  | .ask hop => [hop]
  | _ => []

/-- The ladder is led to `next`. -/
def go (attempt : WatchAttempt) (next : BroadcastViewerLadder × Step) : WatchAttempt :=
  { attempt with ladder := next.1, step := next.2, hopsAsked := asking next.2 ++ attempt.hopsAsked }

def begin (candidates : List String) (redirectBudget : Int) (maxAsks : Nat) : WatchAttempt :=
  let ladder := BroadcastViewerLadder.make candidates redirectBudget maxAsks
  go { ladder, step := .giveUp "", hopsAsked := [], toldOf := candidates } ladder.start

/-- The ladder is led to `next` by an answer. -/
def take (attempt : WatchAttempt) (next : BroadcastViewerLadder × Step) : WatchAttempt :=
  { attempt with answered := attempt.answered + 1 }.go next

/-- The attempt that follows a redirect to these hints. -/
def follow (attempt : WatchAttempt) (hints : List String) : WatchAttempt :=
  { attempt with toldOf := hints ++ attempt.toldOf, followed := attempt.followed + 1 }

/-- An answer of a kind the last step does not wait for does not come. -/
def answer (attempt : WatchAttempt) (given : LadderAnswer) : WatchAttempt :=
  match attempt.step, given with
  | .ask hop, .admitted admittedHop => attempt.take (attempt.ladder.onAdmitted hop admittedHop)
  | .ask hop, .redirected hints remaining =>
    if 0 ≤ min (attempt.ladder.redirectBudget - 1) remaining then
      (attempt.follow hints).take (attempt.ladder.onRedirect hop hints remaining)
    else attempt.take (attempt.ladder.onRedirect hop hints remaining)
  | .ask hop, .refused reason => attempt.take (attempt.ladder.onRefused hop reason)
  | .ask hop, .noAdmissionService => attempt.take (attempt.ladder.onNoAdmissionService hop)
  | .attach hop, .attachFailed reason => attempt.take (attempt.ladder.onAttachFailed hop reason)
  | _, _ => attempt

/-- The last step waits for an answer of this kind. -/
def awaits (attempt : WatchAttempt) (given : LadderAnswer) : Bool :=
  match attempt.step, given with
  | .ask _, .attachFailed _ => false
  | .ask _, _ => true
  | .attach _, .attachFailed _ => true
  | _, _ => false

end WatchAttempt

/-! ## The search ends and does not circle -/

open Lib

variable {skip : String → Bool} {hops children path : List String} {id hop self why : String}
  {ladder : BroadcastViewerLadder} {attempt : WatchAttempt} {given : LadderAnswer} {budget : Int} {maxAsks : Nat}
  {input : BroadcastLadderViewerInput}

theorem mem_distinctHops : id ∈ distinctHops skip hops ↔ id ∈ hops ∧ skip id = false := by
  have hloop : ∀ (hops kept : List String), id ∈ hops.foldl (fun kept hop =>
      if skip hop || kept.contains hop then kept else kept ++ [hop]) kept ↔
      id ∈ kept ∨ id ∈ hops ∧ skip id = false := by
    intro hops
    induction hops with
    | nil => simp
    | cons hop hops ih =>
      intro kept
      rw [List.foldl_cons, ih]
      by_cases hskip : skip hop || kept.contains hop
      · rw [if_pos hskip]
        have hdrop : id = hop → skip id = false → id ∈ kept := by
          rintro rfl hid
          simpa [hid] using hskip
        grind
      · rw [if_neg hskip]
        simp only [Bool.or_eq_true, not_or, Bool.not_eq_true] at hskip
        grind
  simpa [distinctHops] using hloop hops []

/-! ## The next ask -/

namespace BroadcastViewerLadder

/-- The next ask is of the first hop in the queue not asked before; there is
none when the asks are used up or every hop in the queue was asked. -/
theorem askLoop_cases (queue : List String) : (∃ hop rest, ladder.askLoop why queue =
        ({ ladder with queue := rest, asked := hop :: ladder.asked, asks := ladder.asks + 1 }, .ask hop) ∧
      hop ∈ queue ∧ hop ∉ ladder.asked ∧ ladder.asks < ladder.maxAsks ∧ rest ⊆ queue ∧
      ∀ id ∈ queue, id ∈ hop :: ladder.asked ∨ id ∈ rest) ∨
    (∃ rest reason, ladder.askLoop why queue = ({ ladder with queue := rest }, .giveUp reason) ∧
      rest ⊆ queue ∧ (ladder.maxAsks ≤ ladder.asks ∨ ∀ id ∈ queue, id ∈ ladder.asked)) := by
  induction queue with
  | nil => exact .inr ⟨[], _, rfl, List.Subset.refl _, .inr (by simp)⟩
  | cons next queue ih =>
    rw [askLoop]
    by_cases hasked : next ∈ ladder.asked
    · rw [if_pos hasked]
      rcases ih with ⟨hop, rest, hloop, hmem, hnew, hleft, hrest, hall⟩ | ⟨rest, reason, hloop, hrest, hwhy⟩
      · refine .inl ⟨hop, rest, hloop, List.mem_cons_of_mem _ hmem, hnew, hleft,
          List.subset_cons_of_subset _ hrest, ?_⟩
        intro id hid
        rcases List.mem_cons.mp hid with rfl | hid
        · exact .inl (List.mem_cons_of_mem _ hasked)
        · exact hall id hid
      · refine .inr ⟨rest, reason, hloop, List.subset_cons_of_subset _ hrest, hwhy.imp_right ?_⟩
        intro hqueue id hid
        rcases List.mem_cons.mp hid with rfl | hid
        · exact hasked
        · exact hqueue id hid
    · rw [if_neg hasked]
      by_cases hleft : ladder.maxAsks ≤ ladder.asks
      · rw [if_pos hleft]
        exact .inr ⟨queue, _, rfl, List.subset_cons_self _ _, .inl hleft⟩
      · rw [if_neg hleft]
        refine .inl ⟨next, queue, rfl, List.mem_cons_self, hasked, by omega, List.subset_cons_self _ _, ?_⟩
        intro id hid
        rcases List.mem_cons.mp hid with rfl | hid
        · exact .inl List.mem_cons_self
        · exact .inr hid

end BroadcastViewerLadder

namespace WatchAttempt

/-- Answers still to come before the next ask. -/
def waiting : Step → Nat
  | .ask _ => 2
  | .attach _ => 1
  | .giveUp _ => 0

/-- What holds whatever the last step was. -/
structure Steady (budget : Int) (maxAsks : Nat) (attempt : WatchAttempt) : Prop where
  record : attempt.hopsAsked = attempt.ladder.asked
  nodup : attempt.ladder.asked.Nodup
  count : attempt.ladder.asks = attempt.ladder.asked.length
  limit : attempt.ladder.maxAsks = maxAsks
  within : attempt.ladder.asks ≤ maxAsks
  path_nodup : attempt.ladder.pathStamp.Nodup
  path_asked : attempt.ladder.pathStamp ⊆ attempt.ladder.asked
  queue_named : "" ∉ attempt.ladder.queue
  followed_le : attempt.followed + max attempt.ladder.redirectBudget 0 ≤ max budget 0

/-- Every hop the viewer was told of is asked or still to be asked. -/
def Covers (attempt : WatchAttempt) : Prop :=
  ∀ id ∈ attempt.toldOf, id ≠ "" → id ∈ attempt.ladder.asked ∨ id ∈ attempt.ladder.queue

/-- What a search keeps to after every answer. -/
structure Sound (budget : Int) (maxAsks : Nat) (attempt : WatchAttempt) : Prop where
  steady : attempt.Steady budget maxAsks
  covers : (∀ reason, attempt.step ≠ .giveUp reason) → attempt.Covers
  asking : ∀ hop, attempt.step = .ask hop →
    hop ∈ attempt.ladder.asked ∧ hop ∉ attempt.ladder.pathStamp ∧ hop ≠ ""
  givesUp : ∀ reason, attempt.step = .giveUp reason →
    attempt.ladder.asks = maxAsks ∨ ∀ id ∈ attempt.toldOf, id ≠ "" → id ∈ attempt.ladder.asked
  ends : attempt.answered + waiting attempt.step ≤ 2 * attempt.ladder.asks

theorem Steady.go_askNext (h : { attempt with ladder }.Steady budget maxAsks)
    (hcovers : { attempt with ladder }.Covers) (hends : attempt.answered ≤ 2 * ladder.asks) :
    (attempt.go (ladder.askNext why)).Sound budget maxAsks := by
  obtain ⟨hrecord, hnodup, hcount, hlimit, hwithin, hpath, hpathAsked, hqueue, hfollowed⟩ := h
  rw [BroadcastViewerLadder.askNext]
  rcases @BroadcastViewerLadder.askLoop_cases why ladder ladder.queue with
    ⟨hop, rest, hloop, hmem, hnew, hleft, hrest, hall⟩ | ⟨rest, reason, hloop, hrest, hwhy⟩
  · rw [hloop]
    refine ⟨⟨congrArg (hop :: ·) hrecord, List.nodup_cons.mpr ⟨hnew, hnodup⟩, congrArg (· + 1) hcount, hlimit,
      Nat.lt_of_lt_of_eq hleft hlimit, hpath, List.subset_cons_of_subset _ hpathAsked,
      fun hempty => hqueue (hrest hempty), hfollowed⟩, ?_, ?_, ?_, ?_⟩
    · intro _ id hid hne
      rcases hcovers id hid hne with hid | hid
      · exact .inl (List.mem_cons_of_mem _ hid)
      · exact hall id hid
    · intro hop' hhop
      obtain rfl := Step.ask.inj hhop
      refine ⟨List.mem_cons_self, fun hin => hnew (hpathAsked hin), ?_⟩
      rintro rfl
      exact hqueue hmem
    · intro reason hreason
      cases hreason
    · show attempt.answered + 2 ≤ 2 * (ladder.asks + 1)
      omega
  · rw [hloop]
    refine ⟨⟨hrecord, hnodup, hcount, hlimit, hwithin, hpath, hpathAsked,
      fun hempty => hqueue (hrest hempty), hfollowed⟩, fun hgo => absurd rfl (hgo reason), ?_, ?_, hends⟩
    · intro hop hhop
      cases hhop
    · intro _ _
      refine hwhy.imp (fun hused => Nat.le_antisymm hwithin (hlimit ▸ hused)) ?_
      intro hall id hid hne
      exact (hcovers id hid hne).elim (fun h => h) (hall id)

section

variable (h : attempt.Sound budget maxAsks)
include h

theorem Sound.take_attach (hstep : attempt.step = .ask hop) :
    (attempt.take (attempt.ladder, .attach id)).Sound budget maxAsks := by
  have hends := h.ends
  rw [hstep] at hends
  obtain ⟨hrecord, hnodup, hcount, hlimit, hwithin, hpath, hpathAsked, hqueue, hfollowed⟩ := h.steady
  refine ⟨⟨hrecord, hnodup, hcount, hlimit, hwithin, hpath, hpathAsked, hqueue, hfollowed⟩,
    fun _ => h.covers (by simp [hstep]), ?_, ?_, ?_⟩
  · intro hop hhop
    cases hhop
  · intro reason hreason
    cases hreason
  · show attempt.answered + 1 + 1 ≤ 2 * attempt.ladder.asks
    exact hends

theorem Sound.take_next (hgo : ∀ reason, attempt.step ≠ .giveUp reason) :
    (attempt.take (attempt.ladder.askNext why)).Sound budget maxAsks := by
  have hsteady := h.steady
  refine Steady.go_askNext ⟨hsteady.record, hsteady.nodup, hsteady.count, hsteady.limit, hsteady.within,
    hsteady.path_nodup, hsteady.path_asked, hsteady.queue_named, hsteady.followed_le⟩ (h.covers hgo) ?_
  have hends := h.ends
  show attempt.answered + 1 ≤ 2 * attempt.ladder.asks
  cases hstep : attempt.step with
  | giveUp reason => exact absurd hstep (hgo reason)
  | _ =>
    rw [hstep, waiting] at hends
    omega

/-- The hop that redirects joins the path; its hints go ahead of the queue
while the budget lasts. -/
theorem Sound.redirected (hstep : attempt.step = .ask hop) {hints : List String} {remaining : Int} :
    (attempt.answer (.redirected hints remaining)).Sound budget maxAsks := by
  obtain ⟨hasked, hpath, hne⟩ := h.asking hop hstep
  have hcovers := h.covers (by simp [hstep])
  have hends : attempt.answered + 2 ≤ 2 * attempt.ladder.asks := by
    have hends := h.ends
    rwa [hstep] at hends
  obtain ⟨hrecord, hnodup, hcount, hlimit, hwithin, hpathNodup, hpathAsked, hqueue, hfollowed⟩ := h.steady
  have hstamp : (attempt.ladder.pathStamp ++ [hop]).Nodup := by
    rw [List.nodup_append]
    refine ⟨hpathNodup, List.nodup_singleton _, ?_⟩
    intro id hid id' hid' heq
    exact hpath (List.mem_singleton.mp hid' ▸ heq ▸ hid)
  have hstampAsked : attempt.ladder.pathStamp ++ [hop] ⊆ attempt.ladder.asked :=
    List.append_subset.mpr ⟨hpathAsked, by simpa using hasked⟩
  simp only [answer, hstep, BroadcastViewerLadder.onRedirect]
  by_cases hbudget : 0 ≤ min (attempt.ladder.redirectBudget - 1) remaining
  · rw [if_pos hbudget, if_neg (by omega)]
    refine Steady.go_askNext ⟨hrecord, hnodup, hcount, hlimit, hwithin, hstamp, hstampAsked, ?_, ?_⟩ ?_
      (Nat.le_of_succ_le hends)
    · intro hempty
      rcases List.mem_append.mp hempty with hempty | hempty
      · simp [mem_distinctHops] at hempty
      · exact hqueue hempty
    · simp only [follow]
      omega
    · intro id hid hne
      rcases List.mem_append.mp hid with hid | hid
      · by_cases hin : id ∈ attempt.ladder.asked
        · exact .inl hin
        · refine .inr (List.mem_append_left _ (mem_distinctHops.mpr ⟨hid, ?_⟩))
          simp [hne, hin]
      · exact (hcovers id hid hne).imp_right (List.mem_append_right _)
  · rw [if_neg hbudget, if_pos (by omega)]
    refine Steady.go_askNext ⟨hrecord, hnodup, hcount, hlimit, hwithin, hstamp, hstampAsked, hqueue, ?_⟩ hcovers
      (Nat.le_of_succ_le hends)
    show (attempt.followed : Int) + max 0 0 ≤ max budget 0
    omega

theorem Sound.answer : (attempt.answer given).Sound budget maxAsks := by
  cases hstep : attempt.step with
  | ask hop =>
    cases given with
    | redirected hints remaining => exact h.redirected hstep
    | admitted admittedHop | noAdmissionService =>
      simp only [WatchAttempt.answer, hstep]
      exact h.take_attach hstep
    | refused reason =>
      simp only [WatchAttempt.answer, hstep]
      exact h.take_next (by simp [hstep])
    | attachFailed reason => simpa only [WatchAttempt.answer, hstep] using h
  | attach hop =>
    cases given with
    | attachFailed reason =>
      simp only [WatchAttempt.answer, hstep]
      exact h.take_next (by simp [hstep])
    | _ => simpa only [WatchAttempt.answer, hstep] using h
  | giveUp reason => simpa only [WatchAttempt.answer, hstep] using h

end

theorem sound_begin {candidates : List String} : (begin candidates budget maxAsks).Sound budget maxAsks := by
  refine Steady.go_askNext ⟨rfl, List.nodup_nil, rfl, rfl, Nat.zero_le _, List.nodup_nil, List.Subset.refl _, ?_, ?_⟩
    ?_ (Nat.zero_le _)
  · intro hempty
    simp [BroadcastViewerLadder.make, mem_distinctHops] at hempty
  · show (0 : Int) + max budget 0 ≤ max budget 0
    omega
  · intro id hid hne
    exact .inr (mem_distinctHops.mpr ⟨hid, by simpa using hne⟩)

end WatchAttempt

/-! ## What a hop decides -/

/-- A redirect names hops of the children's list that are neither on the
path nor the hop itself. -/
theorem mem_pickRedirectChildren {maxHints : Nat} {jitterUnit : Rat}
    (h : id ∈ pickRedirectChildren children path self maxHints jitterUnit) : id ≠ "" ∧ id ≠ self ∧ id ∉ path := by
  have heligible : id ∈ distinctHops (fun id => id = "" || id = self || pathContains path id) children := by
    rw [pickRedirectChildren] at h
    split at h
    · cases h
    · obtain ⟨i, -, hi⟩ := List.mem_filterMap.mp h
      exact List.mem_of_getElem? hi
  have hskip := (mem_distinctHops.mp heligible).2
  simp only [pathContains, Bool.or_eq_false_iff, decide_eq_false_iff_not, Bool.and_eq_false_iff] at hskip
  obtain ⟨⟨hne, hself⟩, hpath⟩ := hskip
  exact ⟨hne, hself, by simpa [hne] using hpath⟩

theorem refuseReason_ne (h : input.selfPeerId ∉ input.pathStamp) :
    (decideBroadcastViewerAdmit input).refuseReason ≠ "redirect path loop" := by
  have hloop : ¬ (input.selfPeerId ≠ "" ∧ pathContains input.pathStamp input.selfPeerId) := by
    simp [pathContains, h]
  simp only [decideBroadcastViewerAdmit]
  rw [if_neg hloop]
  split_ifs <;> simp

theorem mem_redirectPeerIds (h : id ∈ (decideBroadcastViewerAdmit input).redirectPeerIds) :
    id ≠ "" ∧ id ≠ input.selfPeerId ∧ id ∉ input.pathStamp := by
  simp only [decideBroadcastViewerAdmit] at h
  split_ifs at h
  any_goals cases h
  exact mem_pickRedirectChildren h

/-! ## A watch attempt -/

/-- The question a viewer's ladder puts to the hop it asks. -/
def BroadcastViewerLadder.Puts (ladder : BroadcastViewerLadder) (hop : String)
    (input : BroadcastLadderViewerInput) : Prop :=
  input.selfPeerId = hop ∧ input.pathStamp = ladder.pathStamp ∧ input.redirectBudget = ladder.redirectBudget

/-- What holds of a search after any answers. -/
structure WatchAttempt.Keeps (budget : Int) (maxAsks : Nat) (attempt : WatchAttempt) : Prop where
  asks_once : attempt.hopsAsked.Nodup
  asks_few : attempt.hopsAsked.length ≤ maxAsks
  follows_few : attempt.followed ≤ budget.toNat
  path_once : attempt.ladder.pathStamp.Nodup
  gives_up : ∀ reason, attempt.step = .giveUp reason →
    attempt.hopsAsked.length = maxAsks ∨ ∀ id ∈ attempt.toldOf, id ≠ "" → id ∈ attempt.hopsAsked
  /-- The hop asked next, when it decides by the shared decision. -/
  no_loop : ∀ hop input, attempt.step = .ask hop → attempt.ladder.Puts hop input →
    (decideBroadcastViewerAdmit input).refuseReason ≠ "redirect path loop" ∧
    ∀ id ∈ (decideBroadcastViewerAdmit input).redirectPeerIds, id ∉ attempt.ladder.pathStamp ∧ id ≠ hop ∧ id ≠ ""

namespace WatchAttempt

theorem Sound.keeps (h : attempt.Sound budget maxAsks) : attempt.Keeps budget maxAsks := by
  obtain ⟨⟨hrecord, hnodup, hcount, -, hwithin, hpath, hpathAsked, -, hfollowed⟩, -, hasking, hgives, -⟩ := h
  have hlength : attempt.hopsAsked.length = attempt.ladder.asks := by rw [hrecord, hcount]
  refine ⟨hrecord ▸ hnodup, by omega, by omega, hpath, ?_, ?_⟩
  · intro reason hreason
    rw [hlength, hrecord]
    exact hgives reason hreason
  · intro hop input hstep hputs
    obtain ⟨rfl, hstamp, -⟩ := hputs
    have hoff : input.selfPeerId ∉ input.pathStamp := hstamp ▸ (hasking _ hstep).2.1
    refine ⟨refuseReason_ne hoff, ?_⟩
    intro id hid
    obtain ⟨hne, hself, hpath⟩ := mem_redirectPeerIds hid
    exact ⟨hstamp ▸ hpath, hself, hne⟩

theorem answered_answer (h : attempt.awaits given) : (attempt.answer given).answered = attempt.answered + 1 := by
  simp only [awaits] at h
  simp only [answer]
  cases hstep : attempt.step <;> cases given <;> simp only [hstep, Bool.false_eq_true] at h ⊢ <;> try rfl
  split <;> rfl

/-- Every search ends, whatever comes back for its asks and attaches; it
asks no hop twice and none in a circle, and it gives up only with its asks
used up or with every hop it was told of asked. -/
theorem viewer_search_ends {candidates : List String} {answers : List LadderAnswer}
    (h : Admits answer (fun attempt given => attempt.awaits given) (begin candidates budget maxAsks) answers) :
    answers.length ≤ 2 * maxAsks ∧
    ∀ attempt ∈ states answer (begin candidates budget maxAsks) answers, attempt.Keeps budget maxAsks := by
  have hsound : ∀ attempt ∈ states answer (begin candidates budget maxAsks) answers, attempt.Sound budget maxAsks :=
    h.invariant (fun _ _ hattempt _ => hattempt.answer) sound_begin
  refine ⟨?_, fun attempt hattempt => (hsound attempt hattempt).keeps⟩
  have hlast := hsound _ foldl_mem_states
  have hcount : (answers.foldl answer (begin candidates budget maxAsks)).answered = 0 + answers.length :=
    h.foldl_count (f := answered) fun _ _ => answered_answer
  have hends := hlast.ends
  have hwithin := hlast.steady.within
  omega

/-- A redirect, a refusal, an attach that fails: three asks used up. -/
theorem viewer_search_ends_sample :
    [LadderAnswer.redirected ["d", "", "a"] 7, .refused "full", .noAdmissionService, .attachFailed "gone"].length ≤
      2 * 3 ∧
    ∀ attempt ∈ states answer (begin ["a", "b", "c"] 8 3)
      [.redirected ["d", "", "a"] 7, .refused "full", .noAdmissionService, .attachFailed "gone"],
      attempt.Keeps 8 3 :=
  viewer_search_ends (by decide)

/-- A candidate that is no hop's id is dropped, not asked. -/
theorem empty_candidate_not_asked :
    (begin [""] 8 12).step = .giveUp "no hop to ask" ∧ "" ∈ (begin [""] 8 12).toldOf ∧
    ¬ ((begin [""] 8 12).hopsAsked.length = 12 ∨
      ∀ id ∈ (begin [""] 8 12).toldOf, id ∈ (begin [""] 8 12).hopsAsked) := by
  decide

end WatchAttempt

end Pbr
