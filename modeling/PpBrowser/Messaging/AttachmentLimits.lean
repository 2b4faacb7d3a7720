import Mathlib.Algebra.GroupWithZero.Nat
import Mathlib.Algebra.Order.BigOperators.Group.List
import Mathlib.Algebra.Order.Group.Nat
import Mathlib.Data.List.Perm.Subperm
import PpBrowser.Lib.Runs

/-!
# AttachmentLimits — what one sender may make this device download by itself

`AutoDownloadBudget`: the downloads let through in the last minute, by
sender. Beside it a run keeps the acquisitions that were not given back.
-/

namespace Pbr

def kWindowMs : Int := 60 * 1000

def kDefaultAttachmentReceiveMaxBytes : Nat := 50 * (1000 * 1000)

/-- A recorded download. -/
structure BudgetEntry where
  atMs : Int
  bytes : Nat
  deriving DecidableEq

/-- `by_sender_`; a sender without a deque has the empty one. -/
abbrev AutoDownloadBudget := String → List BudgetEntry

namespace AutoDownloadBudget

variable (budget : AutoDownloadBudget) (sender : String) (bytes : Nat)

/-- The sender's entries after the pops of `TryAcquire`. -/
def popped (nowMs : Int) : List BudgetEntry :=
  (budget sender).dropWhile fun entry => nowMs - entry.atMs ≥ kWindowMs

def tryAcquire (nowMs maxCount : Int) (maxBytes : Nat) : AutoDownloadBudget × Bool :=
  let entries := budget.popped sender nowMs
  -- `used_bytes` and its sum with `bytes` are 64 bits wide
  let usedBytes := entries.foldl (fun used entry => (used + entry.bytes) % 2 ^ 64) 0
  if entries.length ≥ maxCount ∨ (usedBytes + bytes) % 2 ^ 64 > maxBytes then
    (Function.update budget sender entries, false)
  else (Function.update budget sender (entries ++ [⟨nowMs, bytes⟩]), true)

/-- The entry a refund of `bytes` strikes. -/
def lastOf : Option BudgetEntry := (budget sender).reverse.find? (·.bytes = bytes)

def refund : AutoDownloadBudget :=
  Function.update budget sender ((budget sender).reverse.eraseP (·.bytes = bytes)).reverse

variable {budget sender bytes}

theorem popped_sublist {nowMs : Int} : (budget.popped sender nowMs).Sublist (budget sender) :=
  List.dropWhile_sublist _

theorem count_popped {nowMs : Int} {entry : BudgetEntry} (h : nowMs - entry.atMs < kWindowMs) :
    (budget.popped sender nowMs).count entry = (budget sender).count entry := by
  have hcut := List.takeWhile_append_dropWhile
    (p := fun entry => decide (nowMs - entry.atMs ≥ kWindowMs)) (l := budget sender)
  rw [← congrArg (List.count entry) hcut, List.count_append, popped, Nat.right_eq_add,
    List.count_eq_zero]
  intro hmem
  have hold := List.all_eq_true.mp List.all_takeWhile entry hmem
  simp only [ge_iff_le, decide_eq_true_eq] at hold
  omega

theorem refund_strikes :
    match budget.lastOf sender bytes with
    | none => budget.refund sender bytes sender = budget sender
    | some entry => entry.bytes = bytes ∧
        (budget sender).Perm (entry :: budget.refund sender bytes sender) := by
  simp only [lastOf, refund, Function.update_self]
  cases hfind : (budget sender).reverse.find? (·.bytes = bytes) with
  | none =>
    dsimp only
    rw [List.eraseP_of_forall_not fun entry hmem => List.find?_eq_none.mp hfind entry hmem,
      List.reverse_reverse]
  | some entry =>
    obtain ⟨hsize, before, after, hlist, hbefore⟩ := List.find?_eq_some_iff_append.mp hfind
    have hnot : ∀ entry ∈ before, ¬decide (entry.bytes = bytes) = true := by simpa using hbefore
    refine ⟨by simpa using hsize, ?_⟩
    rw [hlist, List.eraseP_append_right _ hnot, List.eraseP_cons_of_pos (by simpa using hsize),
      ← List.reverse_reverse (budget sender), hlist]
    exact (List.reverse_perm _).trans (List.perm_middle.trans ((List.reverse_perm _).symm.cons _))

theorem foldl_used (entries : List BudgetEntry) (used : Nat) (h : used + (entries.map (·.bytes)).sum < 2 ^ 64) :
    entries.foldl (fun used entry => (used + entry.bytes) % 2 ^ 64) used = used + (entries.map (·.bytes)).sum := by
  induction entries generalizing used with
  | nil => rfl
  | cons entry entries ih =>
    rw [List.map_cons, List.sum_cons] at h
    rw [List.foldl_cons, Nat.mod_eq_of_lt (by omega), ih _ (by omega), List.map_cons, List.sum_cons]
    omega

end AutoDownloadBudget

/-- The budget, the clock it was last asked at, and each sender's
acquisitions that were not given back. -/
structure Downloads where
  budget : AutoDownloadBudget := fun _ => []
  nowMs : Int := 0
  held : String → List BudgetEntry := fun _ => []

inductive BudgetCall where
  | tryAcquire (sender : String) (bytes : Nat) (nowMs maxCount : Int) (maxBytes : Nat)
  /-- Gives back `acquired`. -/
  | refund (sender : String) (acquired : BudgetEntry)

namespace Downloads

open AutoDownloadBudget Lib

variable (maxCount maxBytes : Nat) (s : Downloads)

def step (s : Downloads) : BudgetCall → Downloads
  | .tryAcquire sender bytes nowMs maxCount maxBytes =>
    let (budget, acquired) := s.budget.tryAcquire sender bytes nowMs maxCount maxBytes
    ⟨budget, nowMs, if acquired then
      Function.update s.held sender (⟨nowMs, bytes⟩ :: s.held sender) else s.held⟩
  | .refund sender acquired =>
    { s with
      budget := s.budget.refund sender acquired.bytes
      held := Function.update s.held sender ((s.held sender).erase acquired) }

/-- The clock does not go back, a size is one this device receives, the
limits are at most the given ones, and only what is held is given back. -/
def Calls : BudgetCall → Prop
  | .tryAcquire _ bytes nowMs count total =>
    s.nowMs ≤ nowMs ∧ bytes ≤ kDefaultAttachmentReceiveMaxBytes ∧ count ≤ maxCount ∧ total ≤ maxBytes
  | .refund sender acquired => acquired ∈ s.held sender

instance : ∀ call, Decidable (s.Calls maxCount maxBytes call)
  | .tryAcquire .. => inferInstanceAs (Decidable (_ ∧ _ ∧ _ ∧ _))
  | .refund .. => inferInstanceAs (Decidable (_ ∈ _))

/-- The entry a refund strikes, if any, is of the time of the acquisition
given back. -/
def StrikesOwn : BudgetCall → Prop
  | .tryAcquire .. => True
  | .refund sender acquired =>
    ∀ entry ∈ s.budget.lastOf sender acquired.bytes, entry.atMs = acquired.atMs

/-- What a sender's acquisitions that were not given back come to from
`fromMs` on, for a window. -/
def window (sender : String) (fromMs : Int) : List BudgetEntry :=
  (s.held sender).filter fun entry => fromMs ≤ entry.atMs ∧ entry.atMs < fromMs + kWindowMs

/-- No sender is over a limit in any window. -/
def WithinLimits : Prop := ∀ sender fromMs,
  (s.window sender fromMs).length ≤ maxCount ∧
    ((s.window sender fromMs).map (·.bytes)).sum ≤ maxBytes

/-- A refund takes nothing else off the budget than the entry of its own
acquisition, once. -/
def FreesOwn : BudgetCall → Prop
  | .tryAcquire .. => True
  | .refund sender acquired =>
    (s.budget sender).Subperm (acquired :: (step s (.refund sender acquired)).budget sender) ∧
      ∀ other, other ≠ sender → (step s (.refund sender acquired)).budget other = s.budget other

/-- What carries the limits over a run: whatever is held and younger than a
window is listed. -/
structure Accounted : Prop where
  sizes : ∀ sender, ∀ entry ∈ s.budget sender, entry.bytes ≤ kDefaultAttachmentReceiveMaxBytes
  listed : ∀ sender entry, s.nowMs - entry.atMs < kWindowMs →
    (s.held sender).count entry ≤ (s.budget sender).count entry
  within : s.WithinLimits maxCount maxBytes

variable {maxCount maxBytes s} {sender : String} {acquired : BudgetEntry}

theorem freesOwn (h : s.StrikesOwn (.refund sender acquired)) : s.FreesOwn (.refund sender acquired) := by
  refine ⟨?_, fun other hother => Function.update_of_ne hother _ _⟩
  have hstrikes := @refund_strikes s.budget sender acquired.bytes
  cases hlast : s.budget.lastOf sender acquired.bytes with
  | none =>
    rw [hlast] at hstrikes
    show List.Subperm _ (acquired :: s.budget.refund sender acquired.bytes sender)
    rw [hstrikes]
    exact (List.sublist_cons_self _ _).subperm
  | some entry =>
    rw [hlast] at hstrikes
    obtain rfl : entry = acquired := by
      rw [BudgetEntry.mk.injEq]
      exact ⟨h entry hlast, hstrikes.1⟩
    exact hstrikes.2.subperm

theorem totals_le {entries entries' : List BudgetEntry} (h : entries.Subperm entries') :
    entries.length ≤ entries'.length ∧ (entries.map (·.bytes)).sum ≤ (entries'.map (·.bytes)).sum := by
  obtain ⟨inner, hperm, hsub⟩ := h
  rw [← hperm.length_eq, ← (hperm.map _).sum_eq]
  exact ⟨hsub.length_le, (hsub.map _).sum_le_sum fun _ _ => Nat.zero_le _⟩

theorem Accounted.refund (hs : s.Accounted maxCount maxBytes) (hown : s.StrikesOwn (.refund sender acquired)) :
    (step s (.refund sender acquired)).Accounted maxCount maxBytes := by
  have hsub : ∀ z, ((step s (.refund sender acquired)).held z).Sublist (s.held z) := by
    intro z
    show (Function.update s.held sender _ z).Sublist (s.held z)
    by_cases hz : z = sender
    · subst hz
      rw [Function.update_self]
      exact List.erase_sublist
    · rw [Function.update_of_ne hz]
  have hfrees := freesOwn hown
  refine ⟨?_, ?_, ?_⟩
  · intro z entry hmem
    apply hs.sizes z entry
    by_cases hz : z = sender
    · subst hz
      have hmem : entry ∈ Function.update s.budget z _ z := hmem
      rw [Function.update_self] at hmem
      exact List.mem_reverse.mp (List.mem_of_mem_eraseP (List.mem_reverse.mp hmem))
    · exact hfrees.2 z hz ▸ hmem
  · intro z entry hyoung
    have hlisted := hs.listed z entry hyoung
    by_cases hz : z = sender
    · subst hz
      show List.count entry (Function.update s.held z _ z) ≤ _
      have hcount := hfrees.1.count_le entry
      rw [List.count_cons] at hcount
      rw [Function.update_self, List.count_erase]
      omega
    · rw [hfrees.2 z hz]
      exact Nat.le_trans ((hsub z).count_le entry) hlisted
  · intro z fromMs
    have htotals := totals_le ((hsub z).filter
      fun entry => decide (fromMs ≤ entry.atMs ∧ entry.atMs < fromMs + kWindowMs)).subperm
    exact ⟨Nat.le_trans htotals.1 (hs.within z fromMs).1, Nat.le_trans htotals.2 (hs.within z fromMs).2⟩

section

variable {bytes : Nat} {nowMs count : Int} {total : Nat}

section

variable (hs : s.Accounted maxCount maxBytes)
include hs

/-- The 64-bit sums are exact: too few entries are listed to overflow them. -/
theorem acquired_bounds (hmax : maxCount < 2 ^ 31)
    (hcalls : s.Calls maxCount maxBytes (.tryAcquire sender bytes nowMs count total))
    (h : (s.budget.tryAcquire sender bytes nowMs count total).2 = true) :
    (s.budget.popped sender nowMs).length < maxCount ∧
      ((s.budget.popped sender nowMs).map (·.bytes)).sum + bytes ≤ maxBytes := by
  obtain ⟨-, hbytes, hcount, htotal⟩ := hcalls
  simp only [AutoDownloadBudget.tryAcquire] at h
  split at h
  · cases h
  · rename_i hfits
    rw [not_or] at hfits
    have hlength : (s.budget.popped sender nowMs).length < maxCount := by omega
    have hsum : ((s.budget.popped sender nowMs).map (·.bytes)).sum ≤
        (s.budget.popped sender nowMs).length * kDefaultAttachmentReceiveMaxBytes := by
      rw [← List.length_map (·.bytes)]
      apply List.sum_le_card_nsmul
      intro size hsize
      obtain ⟨entry, hmem, rfl⟩ := List.mem_map.mp hsize
      exact hs.sizes sender entry (popped_sublist.subset hmem)
    rw [kDefaultAttachmentReceiveMaxBytes] at hsum hbytes
    rw [foldl_used _ _ (by omega), Nat.mod_eq_of_lt (by omega)] at hfits
    omega

theorem Accounted.popped (hnow : s.nowMs ≤ nowMs) : Accounted maxCount maxBytes
      ⟨Function.update s.budget sender (s.budget.popped sender nowMs), nowMs, s.held⟩ := by
  refine ⟨?_, ?_, hs.within⟩
  · intro z entry hmem
    apply hs.sizes z entry
    dsimp only at hmem
    by_cases hz : z = sender
    · subst hz
      rw [Function.update_self] at hmem
      exact popped_sublist.subset hmem
    · rwa [Function.update_of_ne hz] at hmem
  · intro z entry hyoung
    dsimp only at hyoung ⊢
    have hlisted := hs.listed z entry (by omega)
    by_cases hz : z = sender
    · subst hz
      rwa [Function.update_self, count_popped hyoung]
    · rwa [Function.update_of_ne hz]

/-- A window that the new acquisition is in holds nothing unlisted. -/
theorem Accounted.add (hbytes : bytes ≤ kDefaultAttachmentReceiveMaxBytes)
    (hroom : (s.budget sender).length < maxCount ∧ ((s.budget sender).map (·.bytes)).sum + bytes ≤ maxBytes) :
    Accounted maxCount maxBytes ⟨Function.update s.budget sender (s.budget sender ++ [⟨s.nowMs, bytes⟩]), s.nowMs,
        Function.update s.held sender (⟨s.nowMs, bytes⟩ :: s.held sender)⟩ := by
  refine ⟨?_, ?_, ?_⟩
  · intro z entry hmem
    dsimp only at hmem
    by_cases hz : z = sender
    · subst hz
      rw [Function.update_self, List.mem_append, List.mem_singleton] at hmem
      rcases hmem with hmem | rfl
      · exact hs.sizes z entry hmem
      · exact hbytes
    · rw [Function.update_of_ne hz] at hmem
      exact hs.sizes z entry hmem
  · intro z entry hyoung
    dsimp only
    have hlisted := hs.listed z entry hyoung
    by_cases hz : z = sender
    · subst hz
      rw [Function.update_self, Function.update_self, List.count_append, List.count_cons,
        List.count_singleton]
      omega
    · rwa [Function.update_of_ne hz, Function.update_of_ne hz]
  · intro z fromMs
    rw [window]
    dsimp only
    by_cases hz : z = sender
    · subst hz
      have hbefore := hs.within z fromMs
      rw [Function.update_self]
      by_cases hin : fromMs ≤ s.nowMs ∧ s.nowMs < fromMs + kWindowMs
      · have hsub : (s.window z fromMs).Subperm (s.budget z) := by
          rw [List.subperm_ext_iff]
          intro entry hmem
          obtain ⟨-, hentry⟩ := List.mem_filter.mp hmem
          rw [decide_eq_true_eq] at hentry
          exact Nat.le_trans (List.filter_sublist.count_le entry) (hs.listed z entry (by omega))
        have htotals := totals_le hsub
        rw [window] at htotals
        rw [List.filter_cons_of_pos (by simpa using hin), List.length_cons, List.map_cons, List.sum_cons]
        dsimp only
        omega
      · rw [List.filter_cons_of_neg (by simpa using hin)]
        exact hbefore
    · rw [Function.update_of_ne hz]
      exact hs.within z fromMs

theorem Accounted.tryAcquire (hmax : maxCount < 2 ^ 31)
    (hcalls : s.Calls maxCount maxBytes (.tryAcquire sender bytes nowMs count total)) :
    (step s (.tryAcquire sender bytes nowMs count total)).Accounted maxCount maxBytes := by
  have hpopped := @Accounted.popped _ _ _ sender _ hs hcalls.1
  have hbounds := acquired_bounds hs hmax hcalls
  simp only [step, AutoDownloadBudget.tryAcquire] at hbounds ⊢
  split
  · exact hpopped
  · rename_i hfits
    rw [if_neg hfits] at hbounds
    have hadd := @Accounted.add _ _ _ sender _ hpopped hcalls.2.1
      (by simpa only [Function.update_self] using hbounds rfl)
    simpa only [Function.update_self, Function.update_idem, if_true] using hadd

end

end

/-- In every run whose refunds strike the entries of their own acquisitions,
no sender is over a limit in any window, and a refund takes nothing else off
the budget. `max_count` is an `int`. -/
theorem own_refunds_keep_limits (startMs : Int) (calls : List BudgetCall) (hmax : maxCount < 2 ^ 31)
    (hcalls : Admits step (Calls maxCount maxBytes) { nowMs := startMs } calls)
    (hown : Admits step StrikesOwn { nowMs := startMs } calls) :
    (∀ s ∈ states step { nowMs := startMs } calls, s.WithinLimits maxCount maxBytes) ∧
      ∀ x ∈ trail step { nowMs := startMs } calls, x.1.FreesOwn x.2 := by
  have hstart : Accounted maxCount maxBytes { nowMs := startMs } := by
    refine ⟨?_, fun _ _ _ => Nat.le_refl _, fun _ _ => ⟨Nat.zero_le _, Nat.zero_le _⟩⟩
    intro _ _ hmem
    cases hmem
  have hstep : ∀ s call, s.Accounted maxCount maxBytes →
      s.Calls maxCount maxBytes call ∧ s.StrikesOwn call →
      (step s call).Accounted maxCount maxBytes := by
    intro s call hs hok
    cases call with
    | tryAcquire => exact hs.tryAcquire hmax hok.1
    | refund => exact hs.refund hok.2
  constructor
  · intro s hmem
    exact ((hcalls.and hown).invariant hstep hstart s hmem).within
  · intro x hmem
    have hx := hown.forall_trail x hmem
    obtain ⟨s, call⟩ := x
    cases call with
    | tryAcquire => trivial
    | refund => exact freesOwn hx

/-- A refund that comes a minute late strikes the next download of its size,
and one more than the limit starts. -/
def lateRefund : List BudgetCall :=
  [.tryAcquire "alice" 5 0 1 100, .tryAcquire "alice" 5 60000 1 100, .refund "alice" ⟨0, 5⟩,
    .tryAcquire "alice" 5 60001 1 100]

theorem late_refund_over_limit :
    Admits step (Calls 1 100) {} lateRefund ∧
      ¬∀ s ∈ states step {} lateRefund, s.WithinLimits 1 100 := by
  constructor
  · exact ⟨by decide, by decide, by decide, by decide, trivial⟩
  · intro h
    have hlast := (h _ foldl_mem_states "alice" 60000).1
    revert hlast
    decide

theorem own_refunds_keep_limits_sample :
    WithinLimits 1 100 ([.tryAcquire "alice" 5 0 1 100, .refund "alice" ⟨0, 5⟩,
      .tryAcquire "alice" 7 1 1 100].foldl step {}) := by
  apply (own_refunds_keep_limits 0 _ (by decide) ?_ ?_).1 _ foldl_mem_states
  · exact ⟨by decide, by decide, by decide, trivial⟩
  · refine ⟨trivial, ?_, trivial, trivial⟩
    show ∀ entry ∈ some (⟨0, 5⟩ : BudgetEntry), entry.atMs = 0
    simp

end Downloads

end Pbr
