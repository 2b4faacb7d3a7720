import PpBrowser.Lib.Asking

/-!
# Ranked — facts that never ask themselves

Where every fact a body asks ranks below it, nothing is ever met while it is
computed: each fact has one value (`settled`), its body's under the values of
what it asks, whatever was asked before it (`run_settled`).
-/

namespace Pbr.Lib

variable {F : Type} {α : Type}

namespace Asking

/-- Valuations that agree on what a program asks read it the same. -/
theorem under_congr {v w : F → Bool} {p : Asking F α} (h : ∀ f ∈ p.asked v, v f = w f) : p.under v = p.under w := by
  induction p with
  | done a => rfl
  | ask f k ih =>
    show (k (v f)).under v = (k (w f)).under w
    rw [← h f List.mem_cons_self]
    exact ih _ fun g hg => h g (List.mem_cons_of_mem f hg)

/-- Every fact a program may ask, however it is answered, is in `P`. -/
def AllAsks (P : F → Prop) : Asking F α → Prop
  | done _ => True
  | ask f k => P f ∧ ∀ b, AllAsks P (k b)

namespace AllAsks

variable {β : Type} {P : F → Prop} {p : Asking F α}

theorem asked (h : AllAsks P p) (v : F → Bool) : ∀ f ∈ p.asked v, P f := by
  induction p with
  | done a => simp
  | ask f k ih =>
    intro g hg
    rcases List.mem_cons.mp hg with rfl | hg
    · exact h.1
    · exact ih (v f) (h.2 _) g hg

theorem pure (a : α) : AllAsks P (pure a : Asking F α) := trivial

theorem fact {f : F} (h : P f) : AllAsks P (fact f) := ⟨h, fun _ => trivial⟩

theorem bind {g : α → Asking F β} (hp : AllAsks P p) (hg : ∀ a, AllAsks P (g a)) : AllAsks P (p >>= g) := by
  induction p with
  | done a => exact hg a
  | ask f k ih => exact ⟨hp.1, fun b => ih b (hp.2 b)⟩

theorem map (g : α → β) (hp : AllAsks P p) : AllAsks P (g <$> p) :=
  hp.bind fun _ => trivial

theorem ite {c : Prop} [Decidable c] {p q : Asking F α} (hp : c → AllAsks P p) (hq : ¬ c → AllAsks P q) :
    AllAsks P (if c then p else q) := by
  split
  · next hc => exact hp hc
  · next hc => exact hq hc

theorem anyM {g : α → Asking F Bool} {as : List α} (h : ∀ a ∈ as, AllAsks P (g a)) : AllAsks P (as.anyM g) := by
  induction as with
  | nil => trivial
  | cons a as ih =>
    rw [anyM_cons]
    exact (h a (by simp)).bind fun _ => ite (fun _ => trivial) fun _ => ih fun a ha => h a (by simp [ha])

end AllAsks

end Asking

section Ranked

variable {body : F → Asking F Bool} {rank : F → Nat}

/-- Every fact a body asks, however it is answered, ranks below the body's. -/
def Ranked (body : F → Asking F Bool) (rank : F → Nat) : Prop :=
  ∀ f, (body f).AllAsks fun g => rank g < rank f

/-- The value of a fact, with what is nested deeper than `n` false. -/
def valueAt (body : F → Asking F Bool) : Nat → F → Bool
  | 0, _ => false
  | n + 1, f => (body f).under (valueAt body n)

/-- The one value of each fact of ranked bodies. -/
def settled (body : F → Asking F Bool) (rank : F → Nat) (f : F) : Bool :=
  valueAt body (rank f + 1) f

theorem valueAt_eq (h : Ranked body rank) {n m : Nat} {f : F} (hn : rank f < n) (hm : rank f < m) :
    valueAt body n f = valueAt body m f := by
  induction n generalizing m f with
  | zero => omega
  | succ n ih =>
    obtain ⟨m, rfl⟩ : ∃ k, m = k + 1 := ⟨m - 1, by omega⟩
    apply Asking.under_congr
    intro g hg
    have hrank := (h f).asked _ g hg
    exact ih (by omega) (by omega)

theorem settled_eq (h : Ranked body rank) (f : F) : settled body rank f = (body f).under (settled body rank) := by
  apply Asking.under_congr
  intro g hg
  have hrank := (h f).asked _ g hg
  exact valueAt_eq h hrank (Nat.lt_succ_self _)

variable [DecidableEq F]

/-- What a memo holds are the facts' values. -/
def Memo.Tells (m : Memo F) (v : F → Bool) : Prop := ∀ f b, m.table.lookup f = some b → b = v f

/-- A fact is answered by its value where what is being computed ranks above it. -/
theorem solve_settled (h : Ranked body rank) {dom : List F} (houtside : ∀ f, f ∉ dom → ∃ b, body f = .done b)
    (fuel : Nat) {f : F} {m : Memo F} (hfuel : Memo.room dom m.visiting < fuel)
    (hm : m.Tells (settled body rank)) (hvisiting : ∀ g ∈ m.visiting, rank f < rank g) :
    (solve body fuel f m).1 = settled body rank f ∧ (solve body fuel f m).2.Tells (settled body rank) ∧
      (solve body fuel f m).2.visiting = m.visiting := by
  induction fuel generalizing f m with
  | zero => omega
  | succ fuel ih =>
    -- a program whose asks rank below what is being computed
    have hrun (p : Asking F Bool) (m : Memo F) (hroom : Memo.room dom m.visiting < fuel)
        (hm : m.Tells (settled body rank))
        (hp : ∀ g ∈ p.asked (settled body rank), ∀ g' ∈ m.visiting, rank g < rank g') :
        (p.run (solve body fuel) m).1 = p.under (settled body rank) ∧
          (p.run (solve body fuel) m).2.Tells (settled body rank) ∧
          (p.run (solve body fuel) m).2.visiting = m.visiting := by
      induction p generalizing m with
      | done a => exact ⟨rfl, hm, rfl⟩
      | ask g k ihp =>
        obtain ⟨hvalue, htells, hvis⟩ := ih hroom hm (hp g List.mem_cons_self)
        have hrest := ihp (settled body rank g) (solve body fuel g m).2 (hvis.symm ▸ hroom) htells
          fun g' hg' => by
            rw [hvis]
            exact hp g' (List.mem_cons_of_mem g hg')
        rw [hvis] at hrest
        unfold Asking.run
        rw [hvalue]
        exact hrest
    have hnew : f ∉ m.visiting := fun hf => absurd (hvisiting f hf) (by omega)
    unfold solve Memo.once
    cases hknown : m.table.lookup f with
    | some b => exact ⟨hm f b hknown, hm, rfl⟩
    | none =>
      simp only [if_neg hnew]
      have hbody : ((body f).run (solve body fuel) { m with visiting := f :: m.visiting }).1 =
            settled body rank f ∧
          ((body f).run (solve body fuel) { m with visiting := f :: m.visiting }).2.Tells
            (settled body rank) ∧
          ((body f).run (solve body fuel) { m with visiting := f :: m.visiting }).2.visiting =
            f :: m.visiting := by
        rw [settled_eq h f]
        by_cases hd : f ∈ dom
        · have hroom := Memo.room_cons_lt hd hnew
          apply hrun (body f) { m with visiting := f :: m.visiting } 
            (show Memo.room dom (f :: m.visiting) < fuel by omega) hm
          intro g hg g' hg'
          have hrank := (h f).asked _ g hg
          rcases List.mem_cons.mp hg' with rfl | hg'
          · exact hrank
          · have habove := hvisiting g' hg'
            omega
        · obtain ⟨b, hdone⟩ := houtside f hd
          rw [hdone]
          exact ⟨rfl, hm, rfl⟩
      obtain ⟨hvalue, htells, hvis⟩ := hbody
      refine ⟨hvalue, ?_, ?_⟩
      · intro g b hg
        rw [List.lookup_cons] at hg
        by_cases hgf : g = f
        · rw [hgf] at hg ⊢
          simp only [beq_self_eq_true, Option.some.injEq] at hg
          rw [← hg]
          exact hvalue
        · rw [beq_false_of_ne hgf] at hg
          exact htells g b hg
      · show List.erase _ f = m.visiting
        rw [hvis]
        exact List.erase_cons_head f m.visiting

/-- A run from the empty memo reads its program under the facts' values, and
leaves what it knows at them. -/
theorem run_settled (h : Ranked body rank) {dom : List F} (houtside : ∀ f, f ∉ dom → ∃ b, body f = .done b)
    {fuel : Nat} (hfuel : dom.length < fuel) (p : Asking F α) :
    (p.run (solve body fuel) {}).1 = p.under (settled body rank) ∧
      (p.run (solve body fuel) {}).2.Tells (settled body rank) := by
  have hrun (p : Asking F α) (m : Memo F) (hm : m.Tells (settled body rank)) (hv : m.visiting = []) :
      (p.run (solve body fuel) m).1 = p.under (settled body rank) ∧
        (p.run (solve body fuel) m).2.Tells (settled body rank) := by
    induction p generalizing m with
    | done a => exact ⟨rfl, hm⟩
    | ask g k ihp =>
      have hroom : Memo.room dom m.visiting < fuel := lt_of_le_of_lt List.countP_le_length hfuel
      obtain ⟨hvalue, htells, hvis⟩ := solve_settled h houtside fuel hroom hm (by simp [hv])
      have hrest := ihp (settled body rank g) (solve body fuel g m).2 htells (hvis.trans hv)
      unfold Asking.run
      rw [hvalue]
      exact hrest
  exact hrun p {} (by intro f b hf; simp at hf) rfl

end Ranked

end Pbr.Lib
