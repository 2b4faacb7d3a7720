import Mathlib.Data.List.Perm.Basic
import Mathlib.Tactic.Tauto
import PpBrowser.Delivery.E2eIngestRun

/-!
# E2eIngestFlawed — when an honest peer is flagged

A chat that starts past message 1 flags the peer when message 1 comes
(`Behind`); a message a restart forgets keeps the tail before it for good
(`Stuck`). With `E2eIngestRun` this says just when a run is flawless.
-/

namespace Pbr

open E2eIngestClassifier

/-! ## A run that is not smooth -/

section Flawed

variable {W : Type} {R : ReplayWindow W} {ahead : W → Nat → Prop} {idOf : Nat → String}
  {epoch last : Nat}

/-- The peer was flagged. -/
def Flagged (chat : IngestRun W) : Prop :=
  .softCompromised ∈ chat.decisions ∨ .hardReject ∈ chat.decisions

variable {chat : IngestRun W} {seq : Nat} {delivered : List Nat} {n : Nat}

theorem Flagged.ingest (h : Flagged chat) (event : IngestEvent) : Flagged (ingest R idOf epoch chat event) := by
  cases event with
  | restart => exact h
  | deliver seq => exact h.imp (List.mem_cons_of_mem _) (List.mem_cons_of_mem _)

theorem Flagged.ingestAll (h : Flagged chat) (events : List IngestEvent) :
    Flagged (ingestAll R idOf epoch chat events) := by
  induction events generalizing chat with
  | nil => exact h
  | cons event rest ih => exact ih (h.ingest event)

section

variable {w : W} (hid : Function.Injective idOf) (hchat : Unfloored chat.sync) (hpos : 0 < seq)
  (hnew : seq ∉ chat.persisted) (hw : R.catchUpTo chat.window chat.sync.contiguousPeerSeq = w)
include hid hchat hpos hnew hw

theorem flagged_of_decision
    (hdecision : (classifyHonest R (inputOf idOf epoch chat seq) w).1.decision = .softCompromised ∨
      (classifyHonest R (inputOf idOf epoch chat seq) w).1.decision = .hardReject) :
    Flagged (Pbr.ingest R idOf epoch chat (.deliver seq)) := by
  rw [ingest_new hid hchat hpos hnew hw]
  unfold Flagged
  rcases hdecision with hdecision | hdecision
  · left
    rw [hdecision]
    exact List.mem_cons_self
  · right
    rw [hdecision]
    exact List.mem_cons_self

theorem flagged_of_refused (hphase : chat.sync.phase ≠ .compromised) (hstarted : 0 < chat.sync.contiguousPeerSeq)
    (hmore : chat.sync.contiguousPeerSeq + 1 < seq) (hword : seq < 2 ^ 64)
    (hrefused : (R.accept w seq).1 = false) : Flagged (Pbr.ingest R idOf epoch chat (.deliver seq)) := by
  have hsucc : u64 (chat.sync.contiguousPeerSeq + 1) < seq := by
    rw [show u64 (chat.sync.contiguousPeerSeq + 1) = chat.sync.contiguousPeerSeq + 1 from
      Nat.mod_eq_of_lt (by omega)]
    exact hmore
  have hpast : chat.sync.contiguousPeerSeq < seq := by omega
  have hclassify : classifyHonest R (inputOf idOf epoch chat seq) w =
      classifyGap R (inputOf idOf epoch chat seq) chat.sync w :=
    classifyHonest_past hphase hstarted hpast hsucc
  have hgap : classifyGap R (inputOf idOf epoch chat seq) chat.sync w = _ := classifyGap_refused rfl hrefused
  apply flagged_of_decision hid hchat hpos hnew hw
  left
  rw [hclassify, hgap]
  rfl

end

/-! ### Message 1 comes late -/

theorem classifyHonest_tail {input : IngestClassifierInput} {w : W} (h : Unfloored input.syncState) :
    input.syncState.contiguousPeerSeq ≤ (classifyHonest R input w).1.syncState.contiguousPeerSeq ∧
      Unfloored (classifyHonest R input w).1.syncState := by
  have hpersisted := h.persisted input.senderSeq
  unfold classifyHonest
  dsimp only
  split
  · exact ⟨Nat.le_refl _, h⟩
  split
  · exact ⟨Nat.le_refl _, h.floor, h.closed⟩
  split
  · exact ⟨by simp [keep, Nat.le_max_left], hpersisted⟩
  split
  · unfold classifyContiguous
    dsimp only
    split
    · dsimp only [keep]
      split
      · refine ⟨?_, hpersisted.floor, hpersisted.closed⟩
        simp [Nat.le_max_left]
      · refine ⟨?_, hpersisted.floor, hpersisted.closed⟩
        simp [Nat.le_max_left]
    · exact ⟨by simp [keep, Nat.le_max_left], hpersisted⟩
  split
  · exact ⟨Nat.le_refl _, h.floor, h.closed⟩
  split
  · unfold classifyGap
    dsimp only
    split
    · split
      · dsimp only [keep]
        split
        · exact ⟨by simp [Nat.le_max_left], h.floor, h.closed⟩
        · exact ⟨by simp [Nat.le_max_left], h.floor, h.closed⟩
      · exact ⟨Nat.le_refl _, h.floor, h.closed⟩
    split
    · exact ⟨Nat.le_refl _, h.floor, h.closed⟩
    · exact ⟨Nat.le_refl _, h.floor, h.closed⟩
  · exact ⟨Nat.le_refl _, h⟩

/-- The chat started past message 1, which is still to come. -/
structure Behind (chat : IngestRun W) : Prop where
  tail : 1 < chat.sync.contiguousPeerSeq
  first : 1 ∉ chat.persisted
  unfloored : Unfloored chat.sync

theorem Behind.ingest (hid : Function.Injective idOf) (h : Behind chat) (hpos : 0 < seq) :
    if seq = 1 then Flagged (Pbr.ingest R idOf epoch chat (.deliver seq))
    else Behind (Pbr.ingest R idOf epoch chat (.deliver seq)) := by
  by_cases hold : seq ∈ chat.persisted
  · have hne : seq ≠ 1 := fun heq => h.first (heq ▸ hold)
    rw [if_neg hne, ingest_again hid hold]
    exact ⟨h.tail, h.first, h.unfloored⟩
  by_cases hone : seq = 1
  · subst hone
    rw [if_pos rfl]
    apply flagged_of_decision hid h.unfloored hpos hold rfl
    left
    unfold classifyHonest
    dsimp only [inputOf]
    split
    · rfl
    · rw [if_pos h.tail]
      rfl
  · rw [if_neg hone, ingest_new hid h.unfloored hpos hold rfl]
    obtain ⟨htail, hunfloored⟩ := @classifyHonest_tail _ R
      (inputOf idOf epoch chat seq)
      (R.catchUpTo chat.window chat.sync.contiguousPeerSeq) h.unfloored
    refine ⟨Nat.lt_of_lt_of_le h.tail htail, ?_, hunfloored⟩
    dsimp only
    split
    · rw [List.mem_cons, not_or]
      exact ⟨Ne.symm hone, h.first⟩
    · exact h.first

theorem Behind.flagged (hid : Function.Injective idOf) {events : List IngestEvent} (h : Behind chat)
    (hhonest : Honest last delivered events) (hfirst : 1 ∈ deliveredBy events) :
    Flagged (ingestAll R idOf epoch chat events) := by
  induction events generalizing delivered chat with
  | nil => simp [deliveredBy] at hfirst
  | cons event rest ih =>
    cases event with
    | restart => exact ih ⟨h.tail, h.first, h.unfloored⟩ hhonest (by simpa [deliveredBy] using hfirst)
    | deliver seq =>
      obtain ⟨hpos, -, -, hrest⟩ := hhonest
      have hstep : if seq = 1 then Flagged (Pbr.ingest R idOf epoch chat (.deliver seq))
          else Behind (Pbr.ingest R idOf epoch chat (.deliver seq)) := h.ingest hid hpos
      by_cases hone : seq = 1
      · rw [if_pos hone] at hstep
        exact hstep.ingestAll rest
      · rw [if_neg hone] at hstep
        have hcases : 1 = seq ∨ 1 ∈ deliveredBy rest := by simpa [deliveredBy] using hfirst
        exact ih hstep hrest (hcases.resolve_left (Ne.symm hone))

/-! ### A message forgotten -/

/-- Message `n` is persisted past the tail, and the window does not hold
it: it comes no more. -/
structure Stuck (R : ReplayWindow W) (ahead : W → Nat → Prop) (n : Nat) (chat : IngestRun W) :
    Prop where
  persisted : n ∈ chat.persisted
  past : chat.sync.contiguousPeerSeq < n
  started : 0 < chat.sync.contiguousPeerSeq
  unfloored : Unfloored chat.sync
  window : ∃ taken : Nat → Prop, WindowAt R ahead chat.window chat.sync.contiguousPeerSeq taken ∧
    ¬ taken n ∧ ¬ taken (chat.sync.contiguousPeerSeq + 1)

theorem Stuck.restart (hR : R.Lawful ahead)
    (hpersisted : n ∈ chat.persisted) (hpast : chat.sync.contiguousPeerSeq < n)
    (hstarted : 0 < chat.sync.contiguousPeerSeq) (hunfloored : Unfloored chat.sync) :
    Stuck R ahead n (Pbr.ingest R idOf epoch chat .restart) := by
  refine ⟨hpersisted, hpast, hstarted, hunfloored, fun _ => False, ?_, id, id⟩
  exact WindowAt.fresh hR fun k hk => hk.elim

section

variable (hR : R.Lawful ahead) (hid : Function.Injective idOf)
include hR hid

/-- Whatever comes, it stays forgotten, or the peer is flagged. -/
theorem Stuck.ingest (hn : n < 2 ^ 64) (h : Stuck R ahead n chat) (hpos : 0 < seq) (hword : seq < 2 ^ 64) :
    Flagged (Pbr.ingest R idOf epoch chat (.deliver seq)) ∨
      Stuck R ahead n (Pbr.ingest R idOf epoch chat (.deliver seq)) := by
  obtain ⟨taken, hwindow, hnot, hnext⟩ := h.window
  have hcaught := hwindow.catchUp hR
  by_cases hold : seq ∈ chat.persisted
  · right
    rw [ingest_again hid hold]
    exact ⟨h.persisted, h.past, h.started, h.unfloored, taken, .inl hcaught, hnot, hnext⟩
  have hne : n ≠ seq := fun heq => hold (heq ▸ h.persisted)
  have hsucc : u64 (chat.sync.contiguousPeerSeq + 1) = chat.sync.contiguousPeerSeq + 1 := by
    have hpast := h.past
    exact Nat.mod_eq_of_lt (by omega)
  generalize hw : R.catchUpTo chat.window chat.sync.contiguousPeerSeq = w at hcaught
  have hflagged (hdecision : _) : Flagged (Pbr.ingest R idOf epoch chat (.deliver seq)) :=
    flagged_of_decision hid h.unfloored hpos hold hw hdecision
  by_cases hphase : chat.sync.phase = .compromised
  · left
    apply hflagged
    left
    unfold classifyHonest
    dsimp only [inputOf]
    rw [if_pos hphase]
    rfl
  by_cases hpast : chat.sync.contiguousPeerSeq < seq
  · by_cases haccept : (R.accept w seq).1 = true
    · -- taken by the window: the message `n` is not among those it holds
      right
      obtain ⟨-, hin, hahead⟩ := (hR.accepts w seq).mp haccept
      have hnew : ¬ taken seq := fun htaken => hahead ((hcaught.holds seq).mpr ⟨hpast, htaken⟩)
      obtain ⟨-, hmono, hover, hstop, hcaught'⟩ := hcaught.accept hR hpast (hcaught.last ▸ hin) hnew
      have hnot' : ¬ (n = seq ∨ taken n) := not_or.mpr ⟨hne, hnot⟩
      by_cases hseq : seq = chat.sync.contiguousPeerSeq + 1
      · obtain ⟨after, hresult, htail, -, hunfloored⟩ :=
          @classifyContiguous_spec _ R (inputOf idOf epoch chat seq) _ w hpast
            h.unfloored hphase
        have htail' : after.contiguousPeerSeq = R.lastContiguous (R.accept w seq).2 := by
          have hlast := hstop.1
          have hle : seq ≤ R.lastContiguous (R.accept w seq).2 := by omega
          exact htail.trans (Nat.max_eq_right hle)
        have hclassify : classifyHonest R (inputOf idOf epoch chat seq) w =
            keep .acceptContiguous after (R.accept w seq).2 := by
          refine Eq.trans ?_ hresult
          exact classifyHonest_next hphase h.started hpast (hseq.trans hsucc.symm)
        rw [ingest_kept hid h.unfloored hpos hold hw hclassify]
        refine ⟨List.mem_cons_of_mem _ h.persisted, ?_, ?_, hunfloored, _, .inl (htail' ▸ hcaught'),
          hnot', ?_⟩
        · by_contra hle
          exact hnot' (hover n h.past (htail' ▸ Nat.not_lt.mp hle))
        · show 0 < after.contiguousPeerSeq
          have hstarted := h.started
          omega
        · show ¬ (after.contiguousPeerSeq + 1 = seq ∨ taken (after.contiguousPeerSeq + 1))
          rw [htail']
          exact not_or.mpr hstop
      · have hlast : R.lastContiguous (R.accept w seq).2 = chat.sync.contiguousPeerSeq := by
          by_contra hmoved
          rcases hover (chat.sync.contiguousPeerSeq + 1) (by omega) (by omega) with heq | htaken
          · exact hseq heq.symm
          · exact hnext htaken
        have hgap : classifyGap R (inputOf idOf epoch chat seq) chat.sync w = _ :=
          classifyGap_kept haccept (Nat.le_of_eq hlast)
        have hclassify : classifyHonest R (inputOf idOf epoch chat seq) w =
            keep .acceptGap ({ chat.sync with phase := .gap }.load seq) (R.accept w seq).2 := by
          refine Eq.trans ?_ hgap
          apply classifyHonest_past hphase h.started hpast
          show u64 (chat.sync.contiguousPeerSeq + 1) < seq
          rw [hsucc]
          omega
        rw [ingest_kept hid h.unfloored hpos hold hw hclassify]
        rw [hlast] at hcaught'
        refine ⟨List.mem_cons_of_mem _ h.persisted, h.past, h.started,
          ⟨h.unfloored.floor, h.unfloored.closed⟩, _, .inl hcaught', hnot', ?_⟩
        exact not_or.mpr ⟨Ne.symm hseq, hnext⟩
    · -- the window refuses only what is past it
      left
      have hrefused : (R.accept w seq).1 = false := by simpa using haccept
      have hseq : seq ≠ chat.sync.contiguousPeerSeq + 1 := by
        intro heq
        apply haccept
        rw [hR.accepts, hcaught.last]
        refine ⟨hpast, ?_, fun hahead => hnext (heq ▸ ((hcaught.holds seq).mp hahead).2)⟩
        rw [heq]
        exact Nat.add_le_add_left (by decide) _
      have hmore : chat.sync.contiguousPeerSeq + 1 < seq := by omega
      exact flagged_of_refused hid h.unfloored hpos hold hw hphase h.started hmore hword hrefused
  · -- a new message at the tail or below
    left
    apply hflagged
    unfold classifyHonest
    dsimp only [inputOf]
    have hstarted := h.started
    rw [if_neg hphase]
    by_cases hless : seq < chat.sync.contiguousPeerSeq
    · rw [if_pos hless]
      exact .inl rfl
    · rw [if_neg hless, if_neg (by omega), if_neg (by omega)]
      by_cases hone : seq = 1
      · rw [if_pos ⟨hone, hstarted⟩]
        exact .inl rfl
      · rw [if_neg (by omega), if_neg (by omega)]
        exact .inr rfl

theorem Stuck.ingestAll (hn : n < 2 ^ 64) (hword : last < 2 ^ 64) {events : List IngestEvent}
    (h : Stuck R ahead n chat) (hhonest : Honest last delivered events) :
    Flagged (ingestAll R idOf epoch chat events) ∨ Stuck R ahead n (ingestAll R idOf epoch chat events) := by
  induction events generalizing delivered chat with
  | nil => exact .inr h
  | cons event rest ih =>
    cases event with
    | restart => exact ih (.restart hR h.persisted h.past h.started h.unfloored) hhonest
    | deliver seq =>
      obtain ⟨hpos, hle, -, hrest⟩ := hhonest
      have hstep : Flagged (Pbr.ingest R idOf epoch chat (.deliver seq)) ∨
          Stuck R ahead n (Pbr.ingest R idOf epoch chat (.deliver seq)) := by
        exact h.ingest hR hid hn hpos (by omega)
      rcases hstep with hflagged | hstuck
      · exact .inl (hflagged.ingestAll rest)
      · exact ih hstuck hrest

/-- A complete run that flags nobody and ends in order is smooth. -/
theorem smooth_of_unflagged (hword : last < 2 ^ 64) {events : List IngestEvent}
    (h : Taking R ahead delivered chat) (hbound : ∀ n ∈ delivered, n ≤ last) (hhonest : Honest last delivered events)
    (hcomplete : ∀ n, 0 < n → n ≤ last → n ∈ delivered ∨ n ∈ deliveredBy events)
    (hunflagged : ¬ Flagged (ingestAll R idOf epoch chat events))
    (hend : (ingestAll R idOf epoch chat events).sync.contiguousPeerSeq = last) : Smooth delivered events := by
  induction events generalizing delivered chat with
  | nil => trivial
  | cons event rest ih =>
    cases event with
    | restart =>
      have horder : InOrder delivered := by
        intro n hn k hpos hle
        by_contra hmissing
        -- message `n` waits past the tail: the restart forgets it
        have hpast : chat.sync.contiguousPeerSeq < n := Nat.lt_of_lt_of_le (h.past hpos hmissing) hle
        have hstuck : Stuck R ahead n (ingest R idOf epoch chat .restart) :=
          .restart hR ((h.persisted n).mpr hn) hpast (h.started (List.ne_nil_of_mem hn))
            h.unfloored
        have hle' : n ≤ last := hbound n hn
        have hrest : Honest last delivered rest := hhonest
        have hrun : Flagged (ingestAll R idOf epoch (ingest R idOf epoch chat .restart) rest) ∨
            Stuck R ahead n (ingestAll R idOf epoch (ingest R idOf epoch chat .restart) rest) :=
          hstuck.ingestAll hR hid (by omega) hword hrest
        rcases hrun with hflag | hstuck
        · exact hunflagged hflag
        · have hlt := hstuck.past
          have hend : (ingestAll R idOf epoch (ingest R idOf epoch chat .restart)
            rest).sync.contiguousPeerSeq = last := hend
          omega
      refine ⟨horder, ih (h.restart hR horder) hbound hhonest (fun n hpos hle => ?_)
        hunflagged hend⟩
      simpa [deliveredBy] using hcomplete n hpos hle
    | deliver seq =>
      obtain ⟨hpos, hle, -, hrest⟩ := hhonest
      have hbound' : ∀ n ∈ seq :: delivered, n ≤ last := by
        intro n hn
        rcases List.mem_cons.mp hn with rfl | hn
        · exact hle
        · exact hbound n hn
      have hcomplete' : ∀ n, 0 < n → n ≤ last →
          n ∈ seq :: delivered ∨ n ∈ deliveredBy rest := by
        intro n hn hnle
        have := hcomplete n hn hnle
        simp only [deliveredBy, List.filterMap_cons, List.mem_cons] at this ⊢
        tauto
      by_cases hold : seq ∈ delivered
      · refine ⟨fun hnil => ?_, fun hnew => absurd hold hnew,
          ih (h.again hR hid hold) hbound' hrest hcomplete' hunflagged hend⟩
        rw [hnil] at hold
        cases hold
      have hnew : seq ∉ chat.persisted := by rwa [h.persisted]
      have hfirst : delivered = [] → seq = 1 := by
        intro hempty
        by_contra hone
        -- message 1, still to come, will be below the tail
        obtain ⟨htail, hloaded⟩ := h.unstarted hempty
        have hbehind : Behind (ingest R idOf epoch chat (.deliver seq)) := by
          have hclassify : classifyHonest R (inputOf idOf epoch chat seq)
              (R.catchUpTo chat.window chat.sync.contiguousPeerSeq) = keep .acceptBootstrap
                (chat.sync.applyPersistedMessage seq)
                (R.accept (R.catchUpTo chat.window chat.sync.contiguousPeerSeq) seq).2 := by
            unfold classifyHonest
            simp [inputOf, h.honest, htail, hloaded]
          rw [ingest_kept hid h.unfloored hpos hnew rfl hclassify]
          refine ⟨?_, ?_, h.unfloored.persisted seq⟩
          · rw [PeerSyncState.persisted_contiguous]
            omega
          · rw [List.mem_cons, h.persisted, hempty]
            simp [Ne.symm hone]
        refine hunflagged (hbehind.flagged hid hrest ?_)
        rcases hcomplete' 1 Nat.one_pos (by omega) with hin | hin
        · simp [hempty, Ne.symm hone] at hin
        · exact hin
      have hnear : ∀ n, 0 < n → n ∉ delivered → seq < n + kReplayWindowSize := by
        intro n hn hmissing
        by_contra hfar
        have htail := h.past hn hmissing
        have hwindow : kReplayWindowSize = 32 := rfl
        have hempty : delivered ≠ [] := fun hempty => by have := hfirst hempty; omega
        have hstarted := h.started hempty
        have hpast := h.past hpos hold
        have hrefused : (R.accept (R.catchUpTo chat.window chat.sync.contiguousPeerSeq)
            seq).1 = false :=
          (h.window.catchUp hR).not_accept hR (.inl (by omega)) hpast
        refine hunflagged (Flagged.ingestAll ?_ rest)
        exact flagged_of_refused hid h.unfloored hpos hnew rfl h.honest hstarted (by omega)
          (by omega) hrefused
      exact ⟨hfirst, fun _ => hnear, ih (h.new hR hid hpos (by omega) hold hfirst hnear)
        hbound' hrest hcomplete' hunflagged hend⟩

end

/-- An honest peer's run is flawless when it is smooth, and a run that
delivers every message only then. -/
theorem honest_peer_unflagged (hR : R.Lawful ahead) (hid : Function.Injective idOf) (epoch : Nat)
    {last : Nat} (hword : last < 2 ^ 64) (events : List IngestEvent)
    (hhonest : Honest last [] events) :
    (Smooth [] events →
      Flawless last events (ingestAll R idOf epoch { window := R.fresh } events)) ∧
    (Complete last events →
      (Flawless last events (ingestAll R idOf epoch { window := R.fresh } events) ↔
        Smooth [] events)) := by
  have hflawless : Smooth [] events →
      Flawless last events (ingestAll R idOf epoch { window := R.fresh } events) :=
    flawless_of_smooth hR hid hword hhonest
  refine ⟨hflawless, fun hcomplete => ⟨fun h => ?_, hflawless⟩⟩
  apply smooth_of_unflagged hR hid hword (taking_start hR) (by simp) hhonest
  · exact fun n hpos hle => .inr (hcomplete n hpos hle)
  · exact not_or.mpr h.unflagged
  · exact (h.inOrder hcomplete).1

end Flawed

/-! ## A window to run the code on -/

/-- The end of the run of `taken` numbers after `tail`. -/
def runEnd (taken : List Nat) : Nat → Nat → Nat
  | 0, tail => tail
  | fuel + 1, tail => if tail + 1 ∈ taken then runEnd taken fuel (tail + 1) else tail

theorem le_runEnd (taken : List Nat) (fuel tail : Nat) : tail ≤ runEnd taken fuel tail := by
  induction fuel generalizing tail with
  | zero => exact Nat.le_refl tail
  | succ fuel ih =>
    unfold runEnd
    split
    · exact Nat.le_trans (Nat.le_succ tail) (ih (tail + 1))
    · exact Nat.le_refl tail

theorem mem_of_le_runEnd {taken : List Nat} {fuel tail k : Nat} (hlt : tail < k)
    (hle : k ≤ runEnd taken fuel tail) : k ∈ taken := by
  induction fuel generalizing tail with
  | zero => exact absurd hle (Nat.not_le.mpr hlt)
  | succ fuel ih =>
    unfold runEnd at hle
    by_cases hnext : tail + 1 ∈ taken
    · rw [if_pos hnext] at hle
      by_cases hk : k = tail + 1
      · exact hk ▸ hnext
      · exact ih (by omega) hle
    · rw [if_neg hnext] at hle
      exact absurd hle (Nat.not_le.mpr hlt)

theorem runEnd_stops {taken : List Nat} {fuel tail : Nat} (hfuel : taken.length < fuel) :
    runEnd taken fuel tail + 1 ∉ taken := by
  have hsteps : ∀ (n tail : Nat), runEnd taken n tail + 1 ∈ taken →
      runEnd taken n tail = tail + n := by
    intro n
    induction n with
    | zero => exact fun _ _ => rfl
    | succ n ih =>
      intro tail hmem
      unfold runEnd at hmem ⊢
      by_cases hnext : tail + 1 ∈ taken
      · rw [if_pos hnext] at hmem ⊢
        rw [ih (tail + 1) hmem]
        omega
      · rw [if_neg hnext] at hmem
        exact absurd hmem hnext
  intro hmem
  have hend := hsteps fuel tail hmem
  -- the whole run would be taken
  have hsub : List.range' (tail + 1) fuel ⊆ taken := by
    intro k hk
    rw [List.mem_range'_1] at hk
    exact mem_of_le_runEnd (by omega) (by omega : k ≤ runEnd taken fuel tail)
  have hlength := (List.subperm_of_subset List.nodup_range' hsub).length_le
  rw [List.length_range'] at hlength
  omega

/-- A window as a tail and the numbers taken past it. -/
def listWindow : ReplayWindow (Nat × List Nat) where
  fresh := (0, [])
  lastContiguous w := w.1
  catchUpTo w n := if n ≤ w.1 then w else (n, w.2.filter (n < ·))
  accept w n :=
    if w.1 < n ∧ n ≤ w.1 + kReplayWindowSize ∧ n ∉ w.2 then
      let tail := runEnd (n :: w.2) (w.2.length + 2) w.1
      (true, (tail, (n :: w.2).filter (tail < ·)))
    else (false, w)

theorem listWindow_lawful : listWindow.Lawful fun w n => n ∈ w.2 := by
  have hok (w : Nat × List Nat) (n : Nat) (h : (listWindow.accept w n).1 = true) :
      listWindow.accept w n = (true, (runEnd (n :: w.2) (w.2.length + 2) w.1,
        (n :: w.2).filter (runEnd (n :: w.2) (w.2.length + 2) w.1 < ·))) := by
    simp only [listWindow] at h ⊢
    split
    · rfl
    · next hno => simp [hno] at h
  refine ⟨rfl, fun n => by simp [listWindow], fun w n hle => ?_, fun w n hnone hle => ?_,
    fun w n hnone k => ?_, fun w n => ?_, fun w n hno => ?_, fun w n => ?_,
    fun w n h k hlt hle => ?_, fun w n h => ?_, fun w n h k => ?_⟩
  · simp only [listWindow]
    exact if_pos hle
  · simp only [listWindow] at hle ⊢
    split
    · omega
    · rfl
  · simp only [listWindow]
    split
    · exact hnone k
    · intro hk
      exact hnone k (List.mem_filter.mp hk).1
  · simp only [listWindow]
    split
    · next h => simp [h]
    · next h => simp [h]
  · simp only [listWindow] at hno ⊢
    split at hno
    · cases hno
    · next h => rw [if_neg h]
  · simp only [listWindow]
    split
    · exact le_runEnd _ _ _
    · exact Nat.le_refl _
  · rw [hok w n h] at hle
    exact List.mem_cons.mp (mem_of_le_runEnd hlt hle)
  · rw [hok w n h]
    have hstop := @runEnd_stops (n :: w.2) (w.2.length + 2) w.1 (by simp)
    exact not_or.mp fun hor => hstop (List.mem_cons.mpr hor)
  · rw [hok w n h]
    simp only [List.mem_filter, List.mem_cons, decide_eq_true_eq, listWindow]
    exact and_comm

def sampleId (n : Nat) : String := String.ofList (List.replicate n 'm')

theorem sampleId_injective : Function.Injective sampleId := by
  intro a b h
  have hlist := congrArg (fun text : String => text.toList.length) h
  simpa [sampleId] using hlist

/-- What a run of the sample chat shows: the last decision, the tail, the
phase and what is persisted. -/
def sampleIngest (events : List IngestEvent) :
    Option IngestDecision × Nat × PeerSyncPhase × List Nat :=
  let chat := ingestAll listWindow sampleId 1 { window := listWindow.fresh } events
  (chat.decisions.head?, chat.sync.contiguousPeerSeq, chat.sync.phase, chat.persisted)

/-- A run with messages out of order, one again and a restart in order. -/
def sampleShuffled : List IngestEvent :=
  [.deliver 1, .deliver 3, .deliver 2, .deliver 3, .restart, .deliver 4]

theorem honest_peer_unflagged_sample :
    Flawless 4 sampleShuffled
      (ingestAll listWindow sampleId 1 { window := listWindow.fresh } sampleShuffled) := by
  have hhonest : Honest 4 [] sampleShuffled := by
    simp [Honest, sampleShuffled, kReplayWindowSize]
  have hsmooth : Smooth [] sampleShuffled := by
    simp [Smooth, sampleShuffled, InOrder, kReplayWindowSize]
    refine ⟨?_, ?_, ?_, ?_⟩ <;> (intro k; omega)
  exact (honest_peer_unflagged listWindow_lawful sampleId_injective 1 (by decide)
    sampleShuffled hhonest).1 hsmooth

set_option maxRecDepth 20000 in
/-- Message 2 before message 1: the chat is compromised for good. A restart
while message 3 waits for message 2: the tail stops before message 3, and
message 35 compromises the chat. -/
theorem honest_peer_flagged :
    (Honest 2 [] [.deliver 2, .deliver 1] ∧
      sampleIngest [.deliver 2, .deliver 1] = (some .softCompromised, 2, .compromised, [2])) ∧
    (Honest 3 [] [.deliver 1, .deliver 3, .restart, .deliver 2] ∧
      sampleIngest [.deliver 1, .deliver 3, .restart, .deliver 2] =
        (some .acceptContiguous, 2, .ok, [2, 3, 1])) ∧
    (sampleIngest ([.deliver 1, .deliver 3, .restart, .deliver 2] ++
      (List.range' 4 32).map .deliver)).1 = some .softCompromised := by
  refine ⟨⟨?_, by decide⟩, ⟨?_, by decide⟩, by decide⟩
  · simp [Honest, kReplayWindowSize]
  · simp [Honest, kReplayWindowSize]

end Pbr
