import Mathlib.Data.List.Induction
import Mathlib.Data.List.Nodup
import PpBrowser.Lib.Runs

/-!
# MediaSeqWindow — a media frame is delivered once

`CallMediaSeqWindow` of `CallMediaBundleLogic.cpp`: a bitmap of the last seqs
below the highest one. While no seq is a window behind, it answers as the set
of all seqs seen does.
-/

namespace Pbr

open Lib

/-- Bit `i` of `seen` is `highest - i`. -/
structure CallMediaSeqWindow where
  have_ : Bool := false
  highest : UInt32 := 0
  seen : BitVec 1024 := 0
  deriving DecidableEq, Repr

namespace CallMediaSeqWindow

def kWindow : UInt32 := 1024

def anchor (seq : UInt32) : Bool × CallMediaSeqWindow :=
  (true, { have_ := true, highest := seq, seen := BitVec.twoPow 1024 0 })

/-- True the first time `seq` is seen. -/
def accept (window : CallMediaSeqWindow) (seq : UInt32) : Bool × CallMediaSeqWindow :=
  if window.have_ = false then anchor seq
  else if window.highest < seq then
    let shift := seq - window.highest
    let seen := if kWindow ≤ shift then 0 else window.seen <<< shift.toNat
    (true, { window with highest := seq, seen := seen ||| BitVec.twoPow 1024 0 })
  else
    let behind := window.highest - seq
    -- Far behind: the sender restarted its seq.
    if kWindow ≤ behind then anchor seq
    else if window.seen.getLsbD behind.toNat then (false, window)
    else (true, { window with seen := window.seen ||| BitVec.twoPow 1024 behind.toNat })

/-! ## Lists of arrivals -/

def next (window : CallMediaSeqWindow) (seq : UInt32) : CallMediaSeqWindow := (window.accept seq).2

/-- Whether `seq` is delivered when it comes after `arrivals`. -/
def delivers (window : CallMediaSeqWindow) (arrivals : List UInt32) (seq : UInt32) : Bool :=
  ((arrivals.foldl next window).accept seq).1

/-- What is delivered of a list of arrivals. -/
def delivered (window : CallMediaSeqWindow) : List UInt32 → List UInt32
  | [] => []
  | seq :: arrivals =>
    if (window.accept seq).1 then seq :: (window.next seq).delivered arrivals
    else (window.next seq).delivered arrivals

/-- Each seq is above the greatest before it less the window. -/
def InWindow (arrivals : List UInt32) : Prop :=
  arrivals.Pairwise fun earlier later => earlier.toNat < later.toNat + 1024

/-- The first frames of a sender that counts up from `seq`. -/
def counting (seq : UInt32) (frames : Nat) : List UInt32 := (List.range frames).map (seq + UInt32.ofNat ·)

/-- `x` is not a window behind. -/
def Near (window : CallMediaSeqWindow) (x : UInt32) : Prop := window.highest.toNat < x.toNat + 1024

/-- `x` is one of the seqs the bitmap holds. -/
def Marked (window : CallMediaSeqWindow) (x : UInt32) : Prop :=
  x.toNat ≤ window.highest.toNat ∧ window.seen.getLsbD (window.highest.toNat - x.toNat) = true

instance (window : CallMediaSeqWindow) (x : UInt32) : Decidable (window.Near x) := Nat.decLt ..

instance (window : CallMediaSeqWindow) (x : UInt32) : Decidable (window.Marked x) :=
  inferInstanceAs (Decidable (_ ∧ _))

variable {window : CallMediaSeqWindow} {seq x : UInt32} {arrivals seen : List UInt32} {frames : Nat}

/-! ## One arrival -/

theorem Marked.near (h : window.Marked x) : window.Near x := by
  have hbit := BitVec.lt_of_getLsbD h.2
  rw [Near]
  omega

theorem marked_anchor : (anchor seq).2.Marked x ↔ x = seq := by
  simp only [anchor, Marked, BitVec.getLsbD_twoPow, ← UInt32.toNat_inj]
  simp
  omega

theorem accept_leap (h : window.have_ = false ∨ window.highest < seq ∨ ¬ window.Near seq) :
    (window.accept seq).1 = true ∧ (window.next seq).have_ = true ∧ (window.next seq).highest = seq ∧
      (window.next seq).Marked seq := by
  rw [next, accept]
  by_cases hhave : window.have_ = false
  · rw [if_pos hhave]
    exact ⟨rfl, rfl, rfl, marked_anchor.mpr rfl⟩
  rw [if_neg hhave]
  by_cases hahead : window.highest < seq
  · rw [if_pos hahead]
    refine ⟨rfl, by simpa using hhave, rfl, Nat.le_refl _, ?_⟩
    rw [Nat.sub_self, BitVec.getLsbD_or, BitVec.getLsbD_twoPow, Bool.or_eq_true]
    exact .inr rfl
  rw [if_neg hahead]
  have hfar : ¬ window.Near seq := by simpa [hhave, hahead] using h
  have hle : seq ≤ window.highest := UInt32.not_lt.mp hahead
  have hbehind : kWindow ≤ window.highest - seq := by
    rw [UInt32.le_iff_toNat_le, UInt32.toNat_sub_of_le _ _ hle]
    rw [Near] at hfar
    show 1024 ≤ _
    omega
  rw [if_pos hbehind]
  exact ⟨rfl, rfl, rfl, marked_anchor.mpr rfl⟩

theorem accept_behind (hhave : window.have_ = true) (hle : seq ≤ window.highest) (h : window.Near seq) :
    window.accept seq =
      if window.Marked seq then (false, window)
      else (true, { window with
        seen := window.seen ||| BitVec.twoPow 1024 (window.highest.toNat - seq.toNat) }) := by
  have hnat : seq.toNat ≤ window.highest.toNat := UInt32.le_iff_toNat_le.mp hle
  have hbehind : ¬ kWindow ≤ window.highest - seq := by
    rw [UInt32.le_iff_toNat_le, UInt32.toNat_sub_of_le _ _ hle]
    rw [Near] at h
    show ¬ 1024 ≤ _
    omega
  rw [accept, if_neg (by simp [hhave]), if_neg (UInt32.not_lt.mpr hle)]
  simp only [if_neg hbehind, UInt32.toNat_sub_of_le _ _ hle, Marked, hnat, true_and]

theorem have_next : (window.next seq).have_ = true := by
  by_cases h : window.have_ = false ∨ window.highest < seq ∨ ¬ window.Near seq
  · exact (accept_leap h).2.1
  · simp only [not_or, Bool.not_eq_false, UInt32.not_lt, not_not] at h
    rw [next, accept_behind h.1 h.2.1 h.2.2]
    split
    · exact h.1
    · exact h.1

section

variable (hhave : window.have_ = true) (h : window.Near seq)
include hhave h

theorem highest_next : (window.next seq).highest.toNat = max window.highest.toNat seq.toNat := by
  by_cases hahead : window.highest < seq
  · rw [(accept_leap (.inr (.inl hahead))).2.2.1]
    have := UInt32.lt_iff_toNat_lt.mp hahead
    omega
  · have hle := UInt32.not_lt.mp hahead
    have hnat := UInt32.le_iff_toNat_le.mp hle
    rw [next, accept_behind hhave hle h]
    split <;> (show window.highest.toNat = _; omega)

/-- What the bitmap holds after an arrival: that seq and those before it,
less what is now a window behind. -/
theorem marked_next : (window.next seq).Marked x ↔ (x = seq ∨ window.Marked x) ∧ (window.next seq).Near x := by
  by_cases hahead : window.highest < seq
  · have hlt := UInt32.lt_iff_toNat_lt.mp hahead
    have hshift : (seq - window.highest).toNat = seq.toNat - window.highest.toNat :=
      UInt32.toNat_sub_of_le _ _ (UInt32.le_of_lt hahead)
    have hfar : kWindow ≤ seq - window.highest ↔ 1024 ≤ seq.toNat - window.highest.toNat := by
      rw [UInt32.le_iff_toNat_le, hshift]
      rfl
    rw [next, accept, if_neg (by simp [hhave]), if_pos hahead]
    simp only [hfar, hshift, Marked, Near, BitVec.getLsbD_or, BitVec.getLsbD_twoPow, ← UInt32.toNat_inj]
    by_cases hleap : 1024 ≤ seq.toNat - window.highest.toNat
    · rw [if_pos hleap]
      simp
      omega
    · have hcut : x.toNat ≤ window.highest.toNat →
          seq.toNat - x.toNat - (seq.toNat - window.highest.toNat) = window.highest.toNat - x.toNat := by omega
      rw [if_neg hleap, BitVec.getLsbD_shiftLeft]
      by_cases hx : x.toNat ≤ window.highest.toNat
      · rw [hcut hx]
        cases window.seen.getLsbD (window.highest.toNat - x.toNat) <;> simp <;> omega
      · simp [hx]
        omega
  · have hle := UInt32.not_lt.mp hahead
    have hnat := UInt32.le_iff_toNat_le.mp hle
    have hnear : window.Near x ↔ (window.next seq).Near x := by
      simp only [Near, highest_next hhave h]
      omega
    rw [← hnear, next, accept_behind hhave hle h]
    by_cases hmarked : window.Marked seq
    · rw [if_pos hmarked]
      constructor
      · intro hx
        exact ⟨.inr hx, hx.near⟩
      · rintro ⟨rfl | hx, -⟩
        · exact hmarked
        · exact hx
    · rw [if_neg hmarked]
      have hself : x = seq ↔ x.toNat = seq.toNat := UInt32.toNat_inj.symm
      simp only [Marked, Near, BitVec.getLsbD_or, BitVec.getLsbD_twoPow, hself] at h ⊢
      cases hbit : window.seen.getLsbD (window.highest.toNat - x.toNat) with
      | false => simp; omega
      | true =>
        have hsize := BitVec.lt_of_getLsbD hbit
        simp
        omega

theorem answer_near : (window.accept seq).1 = true ↔ ¬ window.Marked seq := by
  by_cases hahead : window.highest < seq
  · have hlt := UInt32.lt_iff_toNat_lt.mp hahead
    rw [(accept_leap (.inr (.inl hahead))).1]
    simp [Marked]
    omega
  · rw [accept_behind hhave (UInt32.not_lt.mp hahead) h]
    split <;> simp [*]

end

theorem marked_self : (window.next seq).Marked seq := by
  by_cases hleap : window.have_ = false ∨ window.highest < seq ∨ ¬ window.Near seq
  · exact (accept_leap hleap).2.2.2
  · simp only [not_or, Bool.not_eq_false, not_not] at hleap
    have hhighest := highest_next hleap.1 hleap.2.2
    have hnear := hleap.2.2
    refine (marked_next hleap.1 hleap.2.2).mpr ⟨.inl rfl, ?_⟩
    rw [Near] at hnear ⊢
    omega

/-! ## Runs -/

/-- The window knows all that came, as far as it reaches back. -/
structure Tracks (arrivals : List UInt32) (window : CallMediaSeqWindow) : Prop where
  begun : window.have_ = true
  top : window.highest ∈ arrivals
  le : ∀ x ∈ arrivals, x.toNat ≤ window.highest.toNat
  marked : ∀ x, window.Near x → (window.Marked x ↔ x ∈ arrivals)

theorem tracks_first : Tracks [seq] (next {} seq) := by
  have hhighest : (next {} seq).highest = seq := (accept_leap (.inl rfl)).2.2.1
  refine ⟨have_next, ?_, ?_, ?_⟩
  · rw [hhighest]
    exact List.mem_cons_self
  · intro x hx
    obtain rfl := List.mem_singleton.mp hx
    exact Nat.le_of_eq (by rw [hhighest])
  · intro x _
    rw [show next {} seq = (anchor seq).2 from rfl, marked_anchor, List.mem_singleton]

theorem Tracks.next (h : Tracks arrivals window) (hnear : window.Near seq) :
    Tracks (arrivals ++ [seq]) (window.next seq) := by
  have hhighest := highest_next h.begun hnear
  refine ⟨have_next, ?_, ?_, ?_⟩
  · have htop := h.top
    rcases Nat.le_total seq.toNat window.highest.toNat with hle | hle
    · rw [UInt32.toNat_inj.mp (hhighest.trans (Nat.max_eq_left hle))]
      exact List.mem_append_left _ htop
    · rw [UInt32.toNat_inj.mp (hhighest.trans (Nat.max_eq_right hle))]
      simp
  · intro x hx
    rcases List.mem_append.mp hx with hx | hx
    · have hle := h.le x hx
      omega
    · rw [List.mem_singleton.mp hx]
      omega
  · intro x hx
    have hbefore : window.Near x := by
      rw [Near] at hx ⊢
      omega
    rw [marked_next h.begun hnear, h.marked x hbefore, List.mem_append, List.mem_singleton]
    simp [hx, or_comm]

theorem tracks_foldl (h : InWindow arrivals) (hne : arrivals ≠ []) : Tracks arrivals (arrivals.foldl next {}) := by
  induction arrivals using List.reverseRecOn with
  | nil => exact absurd rfl hne
  | append_singleton arrivals seq ih =>
    rw [List.foldl_append, List.foldl_cons, List.foldl_nil]
    by_cases hfirst : arrivals = []
    · rw [hfirst]
      exact tracks_first
    · obtain ⟨hbefore, -, hlater⟩ := List.pairwise_append.mp h
      have htracks := ih hbefore hfirst
      exact htracks.next (hlater _ htracks.top seq List.mem_cons_self)

theorem delivers_first (h : InWindow (arrivals ++ [seq])) : delivers {} arrivals seq = decide (seq ∉ arrivals) := by
  by_cases hfirst : arrivals = []
  · subst hfirst
    rfl
  obtain ⟨hbefore, -, hlater⟩ := List.pairwise_append.mp h
  have htracks := tracks_foldl hbefore hfirst
  have hnear := hlater _ htracks.top seq List.mem_cons_self
  rw [Bool.eq_iff_iff, decide_eq_true_iff, delivers, answer_near htracks.begun hnear, htracks.marked seq hnear]

/-! ## A sender that starts again -/

/-- The window is at the frame a sender sent last. -/
def At (window : CallMediaSeqWindow) (seq : UInt32) : Prop := window.have_ = true ∧ window.highest = seq

/-- From the sender's last frame on each next one is delivered, past the end
of the numbers too. -/
theorem At.onward (h : window.At seq) : (window.accept (seq + 1)).1 = true ∧ (window.next (seq + 1)).At (seq + 1) := by
  obtain ⟨-, rfl⟩ := h
  have hleap : window.highest < window.highest + 1 ∨ ¬ window.Near (window.highest + 1) := by
    rw [UInt32.lt_iff_toNat_lt, Near, UInt32.toNat_add]
    have := window.highest.toNat_lt
    show _ < (_ + 1) % 2 ^ 32 ∨ ¬ _ < (_ + 1) % 2 ^ 32 + 1024
    omega
  obtain ⟨hanswer, hhave, hhighest, -⟩ := accept_leap (.inr hleap)
  exact ⟨hanswer, hhave, hhighest⟩

theorem counting_succ : counting seq (frames + 1) = counting seq frames ++ [seq + UInt32.ofNat frames] := by
  simp [counting, List.range_succ]

theorem At.counting {k : Nat} (h : ((counting seq (k + 1)).foldl next window).At (seq + UInt32.ofNat k)) (n : Nat) :
    ((counting seq (k + n + 1)).foldl next window).At (seq + UInt32.ofNat (k + n)) := by
  induction n with
  | zero => exact h
  | succ n ih =>
    rw [counting_succ, List.foldl_append, List.foldl_cons, List.foldl_nil]
    have hsucc : seq + UInt32.ofNat (k + (n + 1)) = seq + UInt32.ofNat (k + n) + 1 := by
      rw [← Nat.add_assoc, UInt32.ofNat_add, UInt32.add_assoc]
      rfl
    rw [hsucc]
    exact ih.onward.2

/-- A sender that starts again close behind is at the highest seq once it
has counted up to it. -/
theorem exists_at : ∃ k < 1024, ((counting seq (k + 1)).foldl next window).At (seq + UInt32.ofNat k) := by
  by_cases hleap : window.have_ = false ∨ window.highest < seq ∨ ¬ window.Near seq
  · refine ⟨0, by omega, ?_⟩
    obtain ⟨-, hhave, hhighest, -⟩ := accept_leap hleap
    simpa [counting, At] using And.intro hhave hhighest
  · simp only [not_or, Bool.not_eq_false, not_not] at hleap
    obtain ⟨hhave, hahead, hnear⟩ := hleap
    have hle := UInt32.le_iff_toNat_le.mp (UInt32.not_lt.mp hahead)
    rw [Near] at hnear
    have hsize := window.highest.toNat_lt
    -- Up to the highest seq the window stays where it is.
    have hstays : ∀ n, n ≤ window.highest.toNat - seq.toNat + 1 →
        ((counting seq n).foldl next window).At window.highest := by
      intro n
      induction n with
      | zero => exact fun _ => ⟨hhave, rfl⟩
      | succ n ih =>
        intro hn
        obtain ⟨hhave', hhighest'⟩ := ih (by omega)
        have hseq : (seq + UInt32.ofNat n).toNat = seq.toNat + n := by
          rw [UInt32.toNat_add, UInt32.toNat_ofNat']
          omega
        rw [counting_succ, List.foldl_append, List.foldl_cons, List.foldl_nil]
        refine ⟨have_next, ?_⟩
        rw [← UInt32.toNat_inj, highest_next hhave' (by rw [Near, hhighest', hseq]; omega), hhighest', hseq]
        omega
    refine ⟨window.highest.toNat - seq.toNat, by omega, ?_⟩
    have hend : seq + UInt32.ofNat (window.highest.toNat - seq.toNat) = window.highest := by
      rw [← UInt32.toNat_inj, UInt32.toNat_add, UInt32.toNat_ofNat']
      omega
    rw [hend]
    exact hstays _ (Nat.le_refl _)

/-- Whatever the window holds, a sender that counts up has each frame
delivered once 1024 are sent. -/
theorem delivers_counting (h : 1024 ≤ frames) :
    delivers window (counting seq frames) (seq + UInt32.ofNat frames) = true := by
  obtain ⟨k, hk, hat⟩ := @exists_at window seq
  obtain ⟨n, rfl⟩ := Nat.exists_eq_add_of_le (show k + 1 ≤ frames by omega)
  have hnow := hat.counting n
  have hsucc : seq + UInt32.ofNat (k + 1 + n) = seq + UInt32.ofNat (k + n) + 1 := by
    rw [Nat.add_right_comm, UInt32.ofNat_add, UInt32.add_assoc]
    rfl
  rw [delivers, hsucc, Nat.add_right_comm]
  exact hnow.onward.1

/-! ## Delivered once -/

/-- What was delivered is not again while the arrivals stay in the window. -/
theorem delivered_fresh (hhave : window.have_ = true) (hseen : ∀ x ∈ seen, window.Near x → window.Marked x)
    (h : Admits next Near window arrivals) :
    (window.delivered arrivals).Nodup ∧ ∀ x ∈ window.delivered arrivals, x ∉ seen := by
  induction arrivals generalizing window seen with
  | nil => simp [delivered]
  | cons seq arrivals ih =>
    have hhighest := highest_next hhave h.1
    have hafter : ∀ x ∈ seq :: seen, (window.next seq).Near x → (window.next seq).Marked x := by
      intro x hx hnear
      refine (marked_next hhave h.1).mpr ⟨?_, hnear⟩
      refine (List.mem_cons.mp hx).imp_right fun hx => hseen x hx ?_
      rw [Near] at hnear ⊢
      omega
    obtain ⟨hnodup, hfresh⟩ := ih have_next hafter h.2
    rw [delivered]
    split
    · rename_i hanswer
      have hnew : seq ∉ seen := fun hin => (answer_near hhave h.1).mp hanswer (hseen seq hin h.1)
      refine ⟨List.nodup_cons.mpr ⟨fun hin => hfresh seq hin List.mem_cons_self, hnodup⟩, ?_⟩
      intro x hx
      rcases List.mem_cons.mp hx with rfl | hx
      · exact hnew
      · exact fun hin => hfresh x hx (List.mem_cons_of_mem _ hin)
    · exact ⟨hnodup, fun x hx hin => hfresh x hx (List.mem_cons_of_mem _ hin)⟩

/-- Wherever the window is when a sender starts again, no frame is delivered
twice while the arrivals stay in the window. -/
theorem delivered_once (h : Admits next Near (window.next seq) arrivals) : (window.delivered (seq :: arrivals)).Nodup := by
  have hseen : ∀ x ∈ [seq], (window.next seq).Near x → (window.next seq).Marked x := by
    intro x hx _
    rw [List.mem_singleton.mp hx]
    exact marked_self
  obtain ⟨hnodup, hfresh⟩ := delivered_fresh have_next hseen h
  rw [delivered]
  split
  · exact List.nodup_cons.mpr ⟨fun hin => hfresh seq hin List.mem_cons_self, hnodup⟩
  · exact hnodup

/-- A media frame is delivered once: while no seq is a window behind the
highest, exactly at its first arrival; and after a sender starts again, from
any state of the window, each frame once 1024 were sent, none of them twice
while the arrivals stay in the window. -/
theorem media_frame_once :
    (∀ arrivals seq, InWindow (arrivals ++ [seq]) → delivers {} arrivals seq = decide (seq ∉ arrivals)) ∧
    (∀ window seq frames, 1024 ≤ frames →
      delivers window (counting seq frames) (seq + UInt32.ofNat frames) = true) ∧
    ∀ window seq arrivals, Admits next Near (next window seq) arrivals →
      (delivered window (seq :: arrivals)).Nodup :=
  ⟨fun _ _ => delivers_first, fun _ _ _ => delivers_counting, fun _ _ _ => delivered_once⟩

/-- A sender that starts again at 0 just after seq 1023 has 1024 frames
dropped, not fewer. -/
theorem restart_drops_window :
    ¬ ∃ n < 1024, ∀ frames ≥ n,
      delivers ((counting 0 1024).foldl next {}) (counting 0 frames) (0 + UInt32.ofNat frames) = true := by
  rintro ⟨n, hn, hall⟩
  have hlast := hall 1023 (by omega)
  have hsmall : ∀ {k frames : Nat}, frames ≤ 1024 → k < frames → (0 + UInt32.ofNat k : UInt32).toNat = k := by
    intro k frames hframes hk
    rw [UInt32.toNat_add, UInt32.toNat_ofNat']
    show (0 + _) % _ = k
    omega
  have hwindow : InWindow ((counting 0 1024 ++ counting 0 1023) ++ [0 + UInt32.ofNat 1023]) := by
    rw [List.append_assoc, ← counting_succ]
    refine List.pairwise_of_forall_mem_list ?_
    intro x hx y _
    have hlt : x.toNat < 1024 := by
      have hx : x ∈ counting 0 1024 := by simpa using hx
      obtain ⟨k, hk, rfl⟩ := List.mem_map.mp hx
      rw [hsmall (Nat.le_refl _) (List.mem_range.mp hk)]
      exact List.mem_range.mp hk
    omega
  have hfirst := delivers_first hwindow
  rw [delivers, List.foldl_append] at hfirst
  rw [delivers, hfirst, decide_eq_true_iff] at hlast
  exact hlast (List.mem_append_left _ (List.mem_map.mpr ⟨1023, List.mem_range.mpr (by omega), rfl⟩))

end CallMediaSeqWindow

end Pbr
