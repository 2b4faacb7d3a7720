import Mathlib.Data.List.Basic
import Mathlib.Order.Defs.Unbundled

/-!
# Runs — a system taking event after event

A step function run over a list of events: the states it passes through,
events that each meet a condition in the state they find, and the two rules
that carry a fact about one step to a whole run.
-/

namespace Pbr.Lib

variable {σ ε : Type} (step : σ → ε → σ)

/-- The states a run passes through, first to last. -/
def states : σ → List ε → List σ
  | s, [] => [s]
  | s, e :: es => s :: states (step s e) es

/-- The steps of a run: each event with the state it finds. -/
def trail : σ → List ε → List (σ × ε)
  | _, [] => []
  | s, e :: es => (s, e) :: trail (step s e) es

/-- Every event meets `ok` in the state it finds. -/
def Admits (ok : σ → ε → Prop) : σ → List ε → Prop
  | _, [] => True
  | s, e :: es => ok s e ∧ Admits ok (step s e) es

instance instDecidableAdmits (ok : σ → ε → Prop) [∀ s e, Decidable (ok s e)] :
    ∀ s es, Decidable (Admits step ok s es)
  | _, [] => inferInstanceAs (Decidable True)
  | s, e :: es =>
    have := instDecidableAdmits ok (step s e) es
    inferInstanceAs (Decidable (ok s e ∧ Admits step ok (step s e) es))

variable {step} {ok ok' : σ → ε → Prop} {s : σ} {e : ε} {es : List ε}

theorem mem_states_head : s ∈ states step s es := by
  cases es with
  | nil | cons e es => simp [states]

theorem foldl_mem_states : es.foldl step s ∈ states step s es := by
  induction es generalizing s with
  | nil => simp [states]
  | cons e es ih => exact List.mem_cons_of_mem _ ih

/-- Each step finds the state the steps before it left. -/
theorem mem_trail_append {es' : List ε} : (es.foldl step s, e) ∈ trail step s (es ++ e :: es') := by
  induction es generalizing s with
  | nil => exact List.mem_cons_self
  | cons e es ih => exact List.mem_cons_of_mem _ ih

theorem Admits.mono (h : ∀ s e, ok s e → ok' s e) (hes : Admits step ok s es) : Admits step ok' s es := by
  induction es generalizing s with
  | nil => trivial
  | cons e es ih => exact ⟨h s e hes.1, ih hes.2⟩

theorem Admits.and (h : Admits step ok s es) (h' : Admits step ok' s es) :
    Admits step (fun s e => ok s e ∧ ok' s e) s es := by
  induction es generalizing s with
  | nil => trivial
  | cons e es ih => exact ⟨⟨h.1, h'.1⟩, ih h.2 h'.2⟩

theorem admits_true : Admits step (fun _ _ => True) s es := by
  induction es generalizing s with
  | nil => trivial
  | cons e es ih => exact ⟨trivial, ih⟩

theorem admits_append {es' : List ε} :
    Admits step ok s (es ++ es') ↔ Admits step ok s es ∧ Admits step ok (es.foldl step s) es' := by
  induction es generalizing s with
  | nil => simp [Admits]
  | cons e es ih => simp [Admits, ih, and_assoc]

/-- Two conditions that come to the same where an invariant holds admit the
same runs. -/
theorem admits_congr {Inv : σ → Prop} (hstep : ∀ s e, Inv s → Inv (step s e))
    (h : ∀ s e, Inv s → (ok s e ↔ ok' s e)) (hs : Inv s) : Admits step ok s es ↔ Admits step ok' s es := by
  induction es generalizing s with
  | nil => exact Iff.rfl
  | cons e es ih => exact and_congr (h s e hs) (ih (hstep s e hs))

section

variable {Inv : σ → Prop} (hstep : ∀ s e, Inv s → ok s e → Inv (step s e)) (hs : Inv s)
  (hes : Admits step ok s es)
include hstep hs hes

/-- What every admitted step keeps, every step finds. -/
theorem Admits.carry : Admits step (fun s e => Inv s ∧ ok s e) s es := by
  induction es generalizing s with
  | nil => trivial
  | cons e es ih => exact ⟨⟨hs, hes.1⟩, ih (hstep s e hs hes.1) hes.2⟩

/-- What every admitted step keeps, every state of the run has. -/
theorem Admits.invariant : ∀ t ∈ states step s es, Inv t := by
  induction es generalizing s with
  | nil =>
    intro t ht
    obtain rfl : t = s := by simpa [states] using ht
    exact hs
  | cons e es ih =>
    intro t ht
    rcases List.mem_cons.mp ht with rfl | ht
    · exact hs
    · exact ih (hstep s e hs hes.1) hes.2 t ht

end

/-- A number that every admitted step raises by one counts the steps. -/
theorem Admits.foldl_count {f : σ → Nat} (hstep : ∀ s e, ok s e → f (step s e) = f s + 1)
    (hes : Admits step ok s es) : f (es.foldl step s) = f s + es.length := by
  induction es generalizing s with
  | nil => rfl
  | cons e es ih =>
    rw [List.foldl_cons, ih hes.2, hstep s e hes.1, List.length_cons]
    omega

theorem Admits.forall_trail (h : Admits step ok s es) : ∀ x ∈ trail step s es, ok x.1 x.2 := by
  induction es generalizing s with
  | nil =>
    intro x hx
    cases hx
  | cons e es ih =>
    intro x hx
    rcases List.mem_cons.mp hx with rfl | hx
    · exact h.1
    · exact ih h.2 x hx

/-- What a step sets and every later step keeps, every later step finds. -/
theorem Admits.pairwise_trail {Since : σ × ε → σ → Prop} {R : σ × ε → σ × ε → Prop}
    (hsets : ∀ s e, ok s e → Since (s, e) (step s e)) (hkeeps : ∀ x s e, Since x s → ok s e → Since x (step s e))
    (huses : ∀ x s e, ok x.1 x.2 → Since x s → ok s e → R x (s, e))
    (h : Admits step ok s es) : (trail step s es).Pairwise R := by
  have hlater : ∀ (x : σ × ε), ok x.1 x.2 → ∀ (es : List ε) (s : σ), Since x s →
      Admits step ok s es → ∀ y ∈ trail step s es, R x y := by
    intro x hx es
    induction es with
    | nil =>
      intro s _ _ y hy
      cases hy
    | cons e es ih =>
      intro s hs hes y hy
      rcases List.mem_cons.mp hy with rfl | hy
      · exact huses x s e hx hs hes.1
      · exact ih (step s e) (hkeeps x s e hs hes.1) hes.2 y hy
  induction es generalizing s with
  | nil => exact .nil
  | cons e es ih =>
    exact .cons (hlater (s, e) h.1 es _ (hsets s e h.1) h.2) (ih h.2)

/-- Along a run a transitive relation holds from every state to every later
one just when each step keeps to it. -/
theorem pairwise_states_iff {R : σ → σ → Prop} (htrans : ∀ {a b c}, R a b → R b c → R a c) :
    (states step s es).Pairwise R ↔ Admits step (fun s e => R s (step s e)) s es := by
  induction es generalizing s with
  | nil => simp [states, Admits]
  | cons e es ih =>
    have hhead : ∀ {s} {es : List ε}, (states step s es).Pairwise R →
        ∀ t ∈ states step s es, t = s ∨ R s t := by
      intro s es h t ht
      cases es with
      | nil => exact .inl (by simpa [states] using ht)
      | cons e es =>
        rcases List.mem_cons.mp ht with rfl | ht
        · exact .inl rfl
        · exact .inr ((List.pairwise_cons.mp h).1 t ht)
    simp only [states, Admits, List.pairwise_cons, ih]
    constructor
    · rintro ⟨hfrom, hes⟩
      exact ⟨hfrom _ mem_states_head, hes⟩
    · rintro ⟨he, hes⟩
      refine ⟨?_, hes⟩
      intro t ht
      rcases hhead (ih.mpr hes) t ht with rfl | h
      · exact he
      · exact htrans he h

end Pbr.Lib
