import Mathlib.Data.List.Basic
import Mathlib.Data.List.Lemmas

/-!
# Asking — programs that ask yes/no facts

`Asking F α` is a computation that asks facts `f : F` one after the
other and ends in a value: a decision tree. `under v` reads it under a
fixed valuation `v : F → Bool`, and `asked v` lists what it asks on the
way. `Lib.Memo` reads the same tree against a memo.

The point of the tree is that what holds of one ask holds of every
program: each law below is one induction over the tree.
-/

namespace Pbr.Lib

/-- A program that asks facts of `F` and ends in an `α`. -/
inductive Asking (F : Type) (α : Type) where
  | done (a : α)
  | ask (f : F) (k : Bool → Asking F α)

namespace Asking

variable {F α β γ : Type}

def bind : Asking F α → (α → Asking F β) → Asking F β
  | done a, g => g a
  | ask f k, g => ask f fun b => bind (k b) g

instance : Monad (Asking F) where
  pure := done
  bind := bind

def fact (f : F) : Asking F Bool := ask f done

theorem pure_eq (a : α) : (pure a : Asking F α) = done a := rfl
theorem map_eq_bind (g : α → β) (p : Asking F α) : g <$> p = p >>= fun a => done (g a) := rfl

theorem anyM_cons (g : α → Asking F Bool) (a : α) (as : List α) :
    (a :: as).anyM g = g a >>= fun b => if b then done true else as.anyM g := by
  simp only [List.anyM]
  congr 1
  funext b
  cases b <;> rfl

/-! ## Reading under a valuation -/

/-- The value of a program when every fact's answer is fixed. -/
def under (v : F → Bool) : Asking F α → α
  | done a => a
  | ask f k => under v (k (v f))

variable (v : F → Bool) {g : β → α → Asking F β}

@[simp] theorem under_done (a : α) : (done a : Asking F α).under v = a := rfl
@[simp] theorem under_pure (a : α) : (pure a : Asking F α).under v = a := rfl
-- not by a bare `rfl`: the simplifier then also rewrites the instances of
-- the tests it occurs in
@[simp] theorem under_fact (f : F) : (fact f).under v = v f := (rfl)

@[simp] theorem under_bind (p : Asking F α) (g : α → Asking F β) : (p >>= g).under v = (g (p.under v)).under v := by
  induction p with
  | done a => rfl
  | ask f k ih => exact ih (v f)

@[simp] theorem under_map (g : α → β) (p : Asking F α) : (g <$> p).under v = g (p.under v) := by
  rw [map_eq_bind, under_bind, under_done]

@[simp] theorem under_ite (c : Prop) [Decidable c] (p q : Asking F α) :
    (if c then p else q).under v = if c then p.under v else q.under v := by
  split <;> rfl

@[simp] theorem under_anyM (g : α → Asking F Bool) (as : List α) :
    (as.anyM g).under v = as.any fun a => (g a).under v := by
  induction as with
  | nil => rfl
  | cons a as ih => cases h : (g a).under v <;> simp [h, ih]

@[simp] theorem under_foldlM (g : β → α → Asking F β) (as : List α) (b : β) :
    (as.foldlM g b).under v = as.foldl (fun b a => (g b a).under v) b := by
  induction as generalizing b with
  | nil => rfl
  | cons a as ih => simp [List.foldlM, ih]

/-- What every step of a loop preserves holds of its result. -/
theorem under_foldlM_induct {P : β → Prop} {as : List α} {b : β}
    (hb : P b) (h : ∀ a ∈ as, ∀ b, P b → P ((g b a).under v)) : P ((as.foldlM g b).under v) := by
  induction as generalizing b with
  | nil => exact hb
  | cons a as ih =>
    rw [List.foldlM_cons, under_bind]
    exact ih (h a (by simp) b hb) fun a ha => h a (by simp [ha])

/-! ## What is asked -/

/-- The facts a program asks under a valuation, in order. -/
def asked : Asking F α → List F
  | done _ => []
  | ask f k => f :: asked (k (v f))

@[simp] theorem asked_done (a : α) : (done a : Asking F α).asked v = [] := rfl

@[simp] theorem asked_bind (p : Asking F α) (g : α → Asking F β) :
    (p >>= g).asked v = p.asked v ++ (g (p.under v)).asked v := by
  induction p with
  | done a => rfl
  | ask f k ih => exact congrArg (f :: ·) (ih (v f))

@[simp] theorem asked_map (g : α → β) (p : Asking F α) : (g <$> p).asked v = p.asked v := by
  rw [map_eq_bind, asked_bind, asked_done, List.append_nil]

/-- A loop asks all that each of its steps asks. -/
theorem asked_foldlM {as : List α} {f : F} {a : α} (ha : a ∈ as)
    (h : ∀ b, f ∈ (g b a).asked v) (b : β) : f ∈ (as.foldlM g b).asked v := by
  induction as generalizing b with
  | nil => simp at ha
  | cons a' as ih =>
    rw [List.foldlM_cons, asked_bind, List.mem_append]
    rcases List.mem_cons.mp ha with rfl | ha
    · exact .inl (h b)
    · exact .inr (ih ha _)

/-! ## Asking in a permitted order

`needs g h`: `g` is asked only after `h` was. -/

section Guarded

variable (needs : F → F → Prop)

/-- Every ask of the program comes after the facts it needs, given the
facts `known` before it. -/
def Guarded : (F → Prop) → Asking F α → Prop
  | _, done _ => True
  | known, ask f k =>
    (∀ h, needs f h → known h) ∧ ∀ b, Guarded (fun g => known g ∨ g = f) (k b)

variable {needs} {known : F → Prop}

theorem Guarded.mono {known' : F → Prop} (hk : ∀ f, known f → known' f) {p : Asking F α}
    (h : p.Guarded needs known) : p.Guarded needs known' := by
  induction p generalizing known known' with
  | done a => trivial
  | ask f k ih =>
    refine ⟨fun g hg => hk g (h.1 g hg), fun b => ih b (fun g hg => ?_) (h.2 b)⟩
    exact hg.imp (hk g) id

theorem Guarded.bind {p : Asking F α} {g : α → Asking F β} (hp : p.Guarded needs known)
    (hg : ∀ a, (g a).Guarded needs known) : (p >>= g).Guarded needs known := by
  induction p generalizing known with
  | done a => exact hg a
  | ask f k ih =>
    exact ⟨hp.1, fun b => ih b (hp.2 b) fun a => (hg a).mono fun _ => .inl⟩

theorem Guarded.fact_bind {f : F} {g : Bool → Asking F α} (h : ∀ h, needs f h → known h)
    (hg : ∀ b, (g b).Guarded needs fun h => known h ∨ h = f) : (Asking.fact f >>= g).Guarded needs known := ⟨h, hg⟩

theorem Guarded.pure (a : α) : (pure a : Asking F α).Guarded needs known := trivial

theorem Guarded.map {p : Asking F α} (g : α → β) (hp : p.Guarded needs known) :
    (g <$> p).Guarded needs known := hp.bind fun _ => trivial

theorem Guarded.fact {f : F} (h : ∀ g, needs f g → known g) : (fact f).Guarded needs known := ⟨h, fun _ => trivial⟩

theorem Guarded.ite {c : Prop} [Decidable c] {p q : Asking F α} (hp : p.Guarded needs known)
    (hq : q.Guarded needs known) : (if c then p else q).Guarded needs known := by
  split
  · exact hp
  · exact hq

theorem Guarded.anyM {g : α → Asking F Bool} {as : List α}
    (h : ∀ a ∈ as, (g a).Guarded needs known) : (as.anyM g).Guarded needs known := by
  induction as with
  | nil => trivial
  | cons a as ih =>
    rw [anyM_cons]
    exact (h a (by simp)).bind fun _ => .ite trivial (ih fun a ha => h a (by simp [ha]))

theorem Guarded.foldlM {g : β → α → Asking F β} {as : List α}
    (h : ∀ a ∈ as, ∀ b, (g b a).Guarded needs known) (b : β) : (as.foldlM g b).Guarded needs known := by
  induction as generalizing b with
  | nil => trivial
  | cons a as ih =>
    exact (h a (by simp) b).bind fun b => ih (fun a ha => h a (by simp [ha])) b

end Guarded

/-! ## Programs that ask the same -/

/-- The same asks in the same order, and related values however they are
answered. -/
inductive Rel (R : α → β → Prop) : Asking F α → Asking F β → Prop where
  | done {a : α} {b : β} (h : R a b) : Rel R (.done a) (.done b)
  | ask (f : F) {k : Bool → Asking F α} {k' : Bool → Asking F β} (h : ∀ b, Rel R (k b) (k' b)) :
      Rel R (.ask f k) (.ask f k')

namespace Rel

variable {δ : Type} {R : α → β → Prop} {S : γ → δ → Prop} {p : Asking F α} {q : Asking F β}

theorem refl {R : α → α → Prop} (h : ∀ a, R a a) (p : Asking F α) : Rel R p p := by
  induction p with
  | done a => exact .done (h a)
  | ask f k ih => exact .ask f ih

theorem bind {g : α → Asking F γ} {g' : β → Asking F δ} (h : Rel R p q)
    (hg : ∀ a b, R a b → Rel S (g a) (g' b)) : Rel S (p >>= g) (q >>= g') := by
  induction h with
  | done hab => exact hg _ _ hab
  | ask f _ ih => exact .ask f ih

theorem map {g : α → γ} {g' : β → δ} (h : Rel R p q) (hg : ∀ a b, R a b → S (g a) (g' b)) :
    Rel S (g <$> p) (g' <$> q) := h.bind fun a b hab => .done (hg a b hab)

theorem foldlM {g : α → γ → Asking F α} {g' : β → γ → Asking F β}
    (h : ∀ a b c, R a b → Rel R (g a c) (g' b c)) (l : List γ) {a : α} {b : β} (hab : R a b) :
    Rel R (l.foldlM g a) (l.foldlM g' b) := by
  induction l generalizing a b with
  | nil => exact .done hab
  | cons c l ih => exact (h a b c hab).bind fun a b hab => ih hab

end Rel

end Asking

end Pbr.Lib

/-! ## Memoised answers to asking programs -/

namespace Pbr.Lib

/-- The facts computed so far and the facts being computed. -/
structure Memo (F : Type) where
  table : List (F × Bool) := []
  visiting : List F := []

variable {F : Type} [DecidableEq F]

/-- `compute` once per fact; a fact met again while computing it is false. -/
def Memo.once (f : F) (compute : Memo F → Bool × Memo F) (m : Memo F) : Bool × Memo F :=
  match m.table.lookup f with
  | some b => (b, m)
  | none =>
    if f ∈ m.visiting then (false, m)
    else
      let r := compute { m with visiting := f :: m.visiting }
      (r.1, { table := (f, r.1) :: r.2.table, visiting := r.2.visiting.erase f })

/-- Run a program, each ask answered by `answer`, threading the memo. -/
def Asking.run {α : Type} (answer : F → Memo F → Bool × Memo F) :
    Asking F α → Memo F → α × Memo F
  | .done a, m => (a, m)
  | .ask f k, m => (k (answer f m).1).run answer (answer f m).2

omit [DecidableEq F] in
/-- Programs that ask the same leave the same memo, and related values. -/
theorem Asking.Rel.run {α β : Type} {R : α → β → Prop} {p : Asking F α} {q : Asking F β}
    (h : Asking.Rel R p q) (answer : F → Memo F → Bool × Memo F) (m : Memo F) :
    R (p.run answer m).1 (q.run answer m).1 ∧ (p.run answer m).2 = (q.run answer m).2 := by
  induction h generalizing m with
  | done hab => exact ⟨hab, rfl⟩
  | ask f _ ih => exact ih _ (answer f m).2

/-- Memoised recursion: the answer to `f` is its body run on answers.
`fuel` bounds the nesting. -/
def solve (body : F → Asking F Bool) : Nat → F → Memo F → Bool × Memo F
  | 0, _, m => (false, m)
  | fuel + 1, f, m => Memo.once f ((body f).run (solve body fuel)) m

namespace Memo

/-! ## What a memo holds -/

def Knows (m : Memo F) (f : F) : Prop := ∃ b, m.table.lookup f = some b

/-- The memo has the fact true; one it does not know it does not hold. -/
def holds (m : Memo F) (f : F) : Bool := m.table.lookup f = some true

/-- The reading of a memo with the facts of `V` cut to false. -/
def cut (m : Memo F) (V : List F) (f : F) : Bool := m.holds f && decide (f ∉ V)

/-- `m'` keeps every answer of `m`. -/
def Keeps (m m' : Memo F) : Prop := ∀ f b, m.table.lookup f = some b → m'.table.lookup f = some b

theorem Keeps.refl (m : Memo F) : m.Keeps m := fun _ _ h => h

theorem Keeps.trans {m₁ m₂ m₃ : Memo F} (h : m₁.Keeps m₂) (h' : m₂.Keeps m₃) : m₁.Keeps m₃ :=
  fun f b hf => h' f b (h f b hf)

theorem Keeps.holds {m m' : Memo F} (h : m.Keeps m') {f : F} {b : Bool}
    (hf : m.table.lookup f = some b) : m'.holds f = b := by
  simp [Memo.holds, h f b hf]

theorem cut_nil (m : Memo F) : m.cut [] = m.holds := by
  funext f; simp [cut]

theorem holds_of_cut {m : Memo F} {V : List F} {f : F} (h : m.cut V f = true) : m.holds f = true := by
  simp only [cut, Bool.and_eq_true] at h
  exact h.1

/-- Cutting facts only lowers a reading. -/
theorem cut_of_notMem {m : Memo F} {V : List F} {f : F} (h : f ∉ V) : m.cut V f = m.holds f := by
  simp [cut, h]

/-! ## What a run does to a memo -/

section Run

variable (body : F → Asking F Bool) (needs : F → F → Prop)

/-- `b` is the value of `f`'s body with the facts of some `V` cut: `f` is
in `V`, and nothing else in `V` needs it. -/
def Justified (m : Memo F) (f : F) (b : Bool) : Prop :=
  ∃ V : List F, f ∈ V ∧ (∀ g ∈ V, needs g f → g = f) ∧ b = (body f).under (m.cut V)

/-- Nothing being computed is known, and what is known or being computed
came after what it needs. -/
structure Sound (m : Memo F) : Prop where
  unknown : ∀ f ∈ m.visiting, m.table.lookup f = none
  ordered : ∀ g h, needs g h → g ∈ m.visiting ∨ m.Knows g → h ∈ m.visiting ∨ m.Knows h

/-- From `m`, `m'` was reached by asking: it kept every answer, computes
the same facts, and justifies what it added whatever follows. -/
structure Outcome (m m' : Memo F) : Prop where
  keeps : m.Keeps m'
  visiting : m'.visiting = m.visiting
  sound : m'.Sound needs
  justified : ∀ f b, m'.table.lookup f = some b → m.table.lookup f = none →
    ∃ V : List F, f ∈ V ∧ (∀ g ∈ V, needs g f → g = f) ∧
      ∀ M : Memo F, m'.Keeps M → b = (body f).under (M.cut V)

variable {body needs} {m : Memo F} {f : F}

theorem Outcome.refl (h : m.Sound needs) : Outcome body needs m m where
  keeps := .refl m
  visiting := rfl
  sound := h
  justified f b hb hn := by rw [hb] at hn; cases hn

theorem Outcome.trans {m₁ m₂ m₃ : Memo F} (h : Outcome body needs m₁ m₂)
    (h' : Outcome body needs m₂ m₃) : Outcome body needs m₁ m₃ where
  keeps := h.keeps.trans h'.keeps
  visiting := h'.visiting.trans h.visiting
  sound := h'.sound
  justified f b hb hn := by
    cases h₂ : m₂.table.lookup f with
    | none => exact h'.justified f b hb h₂
    | some b₂ =>
      have hbb : b₂ = b := Option.some.inj ((h'.keeps f b₂ h₂).symm.trans hb)
      obtain ⟨V, hf, hV, hM⟩ := h.justified f b₂ h₂ hn
      exact ⟨V, hf, hV, fun M hk => hbb ▸ hM M (h'.keeps.trans hk)⟩

/-- Known facts stay known, and those visited stay visited. -/
theorem Outcome.reached {m m' : Memo F} (h : Outcome body needs m m')
    (hf : f ∈ m.visiting ∨ m.Knows f) : f ∈ m'.visiting ∨ m'.Knows f := by
  rcases hf with hf | ⟨b, hb⟩
  · exact .inl (h.visiting ▸ hf)
  · exact .inr ⟨b, h.keeps f b hb⟩

/-- What an answering function must do on memos that are computing `V`. -/
def Answers (body : F → Asking F Bool) (needs : F → F → Prop)
    (ans : F → Memo F → Bool × Memo F) (V : List F) : Prop :=
  ∀ f m, m.visiting = V → m.Sound needs → (∀ h, needs f h → h ∈ m.visiting ∨ m.Knows h) →
    Outcome body needs m (ans f m).2 ∧ (f ∈ V ∨ (ans f m).2.Knows f) ∧
      ∀ M : Memo F, (ans f m).2.Keeps M → (ans f m).1 = M.cut V f

/-- A program run on such answers has their outcome, its value is its
reading under whatever memo comes of it, and it leaves known what it asks. -/
theorem run_of_answers {α : Type} {ans : F → Memo F → Bool × Memo F} {V : List F}
    (hans : Answers body needs ans V) (p : Asking F α) (m : Memo F) (hV : m.visiting = V)
    (hs : m.Sound needs) (hp : p.Guarded needs fun h => h ∈ m.visiting ∨ m.Knows h) :
    Outcome body needs m (p.run ans m).2 ∧ ∀ M : Memo F, (p.run ans m).2.Keeps M →
        (p.run ans m).1 = p.under (M.cut V) ∧ ∀ f ∈ p.asked (M.cut V), f ∈ V ∨ M.Knows f := by
  induction p generalizing m with
  | done a => exact ⟨.refl hs, fun M _ => ⟨rfl, by simp⟩⟩
  | ask f k ih =>
    obtain ⟨ho, hkn, hval⟩ := hans f m hV hs hp.1
    have hreach : f ∈ (ans f m).2.visiting ∨ (ans f m).2.Knows f :=
      hkn.imp (fun hf => by rwa [ho.visiting, hV]) id
    have hp' : (k (ans f m).1).Guarded needs
        fun h => h ∈ (ans f m).2.visiting ∨ (ans f m).2.Knows h := by
      refine (hp.2 _).mono fun h hh => ?_
      rcases hh with hh | rfl
      · exact ho.reached hh
      · exact hreach
    obtain ⟨ho', hrest⟩ := ih _ (ans f m).2 (ho.visiting.trans hV) ho.sound hp'
    refine ⟨ho.trans ho', fun M hM => ?_⟩
    have hMf := hval M (ho'.keeps.trans hM)
    obtain ⟨hv, hk⟩ := hrest M hM
    refine ⟨?_, ?_⟩
    · show ((k (ans f m).1).run ans (ans f m).2).1 = (k (M.cut V f)).under (M.cut V)
      rw [← hMf]
      exact hv
    · intro g hg
      have hg : g ∈ f :: (k (M.cut V f)).asked (M.cut V) := hg
      rw [← hMf] at hg
      rcases List.mem_cons.mp hg with rfl | hg
      · exact hkn.imp id fun ⟨b, hb⟩ => ⟨b, (ho'.keeps.trans hM) g b hb⟩
      · exact hk g hg

/-- Computing a fact that is neither known nor being computed. -/
theorem once_outcome {compute : Memo F → Bool × Memo F}
    (hn : m.table.lookup f = none) (hf : f ∉ m.visiting) (hs : m.Sound needs)
    (ho : Outcome body needs { m with visiting := f :: m.visiting }
      (compute { m with visiting := f :: m.visiting }).2)
    (hval : ∀ M : Memo F, (compute { m with visiting := f :: m.visiting }).2.Keeps M →
      (compute { m with visiting := f :: m.visiting }).1 = (body f).under (M.cut (f :: m.visiting))) :
    Outcome body needs m (Memo.once f compute m).2 ∧ (Memo.once f compute m).2.Knows f ∧
      ∀ M : Memo F, (Memo.once f compute m).2.Keeps M → (Memo.once f compute m).1 = M.cut m.visiting f := by
  generalize hr : compute { m with visiting := f :: m.visiting } = r at ho hval
  have honce : Memo.once f compute m =
      (r.1, { table := (f, r.1) :: r.2.table, visiting := r.2.visiting.erase f }) := by
    simp [Memo.once, hn, hf, hr]
  -- the fact being computed is recorded by nobody else
  have hfr : r.2.table.lookup f = none := ho.sound.unknown f (by rw [ho.visiting]; simp)
  have hkeep : r.2.Keeps { table := (f, r.1) :: r.2.table, visiting := r.2.visiting.erase f } := by
    intro g b hg
    have hgf : g ≠ f := by rintro rfl; rw [hfr] at hg; cases hg
    have : (g == f) = false := by simpa using hgf
    simp [List.lookup_cons, this, hg]
  have hself : ((f, r.1) :: r.2.table).lookup f = some r.1 := by simp
  have hvis : r.2.visiting.erase f = m.visiting := by rw [ho.visiting]; simp
  have hV : ∀ g ∈ f :: m.visiting, needs g f → g = f := by
    intro g hg hgf
    rcases List.mem_cons.mp hg with h | h
    · exact h
    · rcases hs.ordered g f hgf (.inl h) with h' | ⟨b, hb⟩
      · exact absurd h' hf
      · rw [hn] at hb; cases hb
  rw [honce]
  refine ⟨⟨?_, hvis, ⟨?_, ?_⟩, ?_⟩, ⟨r.1, hself⟩, ?_⟩
  · exact ho.keeps.trans hkeep
  · intro g hg
    rw [hvis] at hg
    have hgf : (g == f) = false := by
      have : g ≠ f := by rintro rfl; exact hf hg
      simpa using this
    rw [List.lookup_cons, hgf]
    exact ho.sound.unknown g (by rw [ho.visiting]; simp [hg])
  · intro g h hgh hg
    have hr' : ∀ g', (g' ∈ r.2.visiting.erase f ∨
        Knows { table := (f, r.1) :: r.2.table, visiting := r.2.visiting.erase f } g') ↔
        (g' ∈ r.2.visiting ∨ r.2.Knows g') := by
      intro g'
      rw [hvis, ho.visiting]
      by_cases hg' : g' = f
      · subst hg'
        exact ⟨fun _ => .inl (by simp), fun _ => .inr ⟨r.1, hself⟩⟩
      · have hne : (g' == f) = false := by simpa using hg'
        simp [Knows, List.lookup_cons, hne, hg']
    exact (hr' h).mpr (ho.sound.ordered g h hgh ((hr' g).mp hg))
  · intro g b hg hgn
    by_cases hgf : g = f
    · subst hgf
      rw [hself] at hg
      refine ⟨g :: m.visiting, by simp, hV, fun M hM => ?_⟩
      rw [← Option.some.inj hg]
      exact hval M (hkeep.trans hM)
    · have hne : (g == f) = false := by simpa using hgf
      rw [List.lookup_cons, hne] at hg
      obtain ⟨V, hfV, hneed, hM⟩ := ho.justified g b hg hgn
      exact ⟨V, hfV, hneed, fun M hk => hM M (hkeep.trans hk)⟩
  · intro M hM
    rw [cut_of_notMem hf]
    exact (hM.holds hself).symm

/-- Pushing a fact that may be asked keeps a memo sound. -/
theorem Sound.visit (hs : m.Sound needs) (hn : m.table.lookup f = none)
    (hg : ∀ h, needs f h → h ∈ m.visiting ∨ m.Knows h) : Sound needs { m with visiting := f :: m.visiting } where
  unknown g hgm := by
    rcases List.mem_cons.mp hgm with rfl | hgm
    · exact hn
    · exact hs.unknown g hgm
  ordered g h hgh hgm := by
    have : h ∈ m.visiting ∨ m.Knows h := by
      rcases hgm with hgm | hgm
      · rcases List.mem_cons.mp hgm with rfl | hgm
        · exact hg h hgh
        · exact hs.ordered g h hgh (.inl hgm)
      · exact hs.ordered g h hgh (.inr hgm)
    exact this.imp (List.mem_cons_of_mem f) id

/-- How many of `dom` are not being computed: what the fuel must exceed. -/
def room (dom V : List F) : Nat := dom.countP fun f => f ∉ V

theorem room_cons_le (dom V : List F) (f : F) : room dom (f :: V) ≤ room dom V :=
  List.countP_mono_left fun g _ hg => by
    simp only [List.mem_cons, not_or, decide_eq_true_eq] at hg ⊢
    exact hg.2

theorem room_cons_lt {dom V : List F} (hf : f ∈ dom) (hV : f ∉ V) : room dom (f :: V) < room dom V := by
  induction dom with
  | nil => simp at hf
  | cons g dom ih =>
    have hle := room_cons_le dom V f
    rcases eq_or_ne f g with rfl | hgf
    · unfold room at hle ⊢
      rw [List.countP_cons_of_neg (by simp), List.countP_cons_of_pos (by simp [hV])]
      omega
    · have hlt := ih (by simpa [hgf] using hf)
      unfold room at hlt ⊢
      by_cases hg : g ∈ V
      · rw [List.countP_cons_of_neg (by simp [hg]), List.countP_cons_of_neg (by simp [hg])]
        exact hlt
      · rw [List.countP_cons_of_pos (by simp [hg, hgf.symm]),
          List.countP_cons_of_pos (by simp [hg])]
        omega

/-- Facts outside `dom` ask nothing, and every body asks in order (a fact
that needs itself is never computed). -/
structure Bodies (body : F → Asking F Bool) (needs : F → F → Prop) (dom : List F) : Prop where
  outside : ∀ f, f ∉ dom → ∃ b, body f = .done b
  guarded : ∀ f, ¬ needs f f → (body f).Guarded needs (· = f)

theorem solve_answers {dom : List F} (hb : Bodies body needs dom) (fuel : Nat) (V : List F)
    (hfuel : room dom V < fuel) : Answers body needs (solve body fuel) V := by
  induction fuel generalizing V with
  | zero => omega
  | succ fuel ih =>
    intro f m hV hs hg
    subst hV
    cases hl : m.table.lookup f with
    | some b =>
      have hs1 : solve body (fuel + 1) f m = (b, m) := by simp [solve, Memo.once, hl]
      rw [hs1]
      have hfV : f ∉ m.visiting := fun hf => by rw [hs.unknown f hf] at hl; cases hl
      exact ⟨.refl hs, .inr ⟨b, hl⟩, fun M hM => by rw [cut_of_notMem hfV, hM.holds hl]⟩
    | none =>
      by_cases hfV : f ∈ m.visiting
      · have hs1 : solve body (fuel + 1) f m = (false, m) := by
          simp [solve, Memo.once, hl, hfV]
        rw [hs1]
        exact ⟨.refl hs, .inl hfV, fun M _ => by simp [cut, hfV]⟩
      · have hsv := hs.visit hl hg
        have hff : ¬ needs f f := fun h => (hg f h).elim hfV fun ⟨b, hb⟩ => by
          rw [hl] at hb; cases hb
        have hrun : Outcome body needs { m with visiting := f :: m.visiting }
              ((body f).run (solve body fuel) { m with visiting := f :: m.visiting }).2 ∧
            ∀ M : Memo F,
              ((body f).run (solve body fuel) { m with visiting := f :: m.visiting }).2.Keeps M →
              ((body f).run (solve body fuel) { m with visiting := f :: m.visiting }).1 =
                (body f).under (M.cut (f :: m.visiting)) := by
          by_cases hd : f ∈ dom
          · have hlt := room_cons_lt hd hfV
            obtain ⟨ho, hr⟩ := run_of_answers (ih (f :: m.visiting) (by omega)) (body f) _ rfl
              hsv ((hb.guarded f hff).mono fun g hgf => .inl (by simp [hgf]))
            exact ⟨ho, fun M hM => (hr M hM).1⟩
          · obtain ⟨b, hbd⟩ := hb.outside f hd
            rw [hbd]
            exact ⟨.refl hsv, fun M _ => rfl⟩
        obtain ⟨ho, hk, hv⟩ := once_outcome hl hfV hs hrun.1 hrun.2
        exact ⟨ho, .inr hk, hv⟩

/-! ## A run from the empty memo -/

theorem sound_empty : Sound needs ({} : Memo F) where
  unknown f hf := by simp at hf
  ordered g h _ hg := by simp [Knows] at hg

section Finished

variable {α : Type} {dom : List F} {fuel : Nat} {p : Asking F α}

section

variable (hb : Bodies body needs dom) (hfuel : dom.length < fuel) (hp : p.Guarded needs fun _ => False)
include hb hfuel hp

theorem run_outcome : Outcome body needs {} (p.run (solve body fuel) {}).2 ∧
      ∀ M : Memo F, (p.run (solve body fuel) {}).2.Keeps M → (p.run (solve body fuel) {}).1 = p.under (M.cut []) ∧
          ∀ f ∈ p.asked (M.cut []), f ∈ ([] : List F) ∨ M.Knows f := by
  have hroom : room dom [] < fuel := lt_of_le_of_lt List.countP_le_length hfuel
  exact run_of_answers (solve_answers hb fuel [] hroom) p {} rfl sound_empty
    (hp.mono fun _ h => h.elim)

/-- The run's value is the program's value under what the memo holds. -/
theorem run_holds : (p.run (solve body fuel) {}).1 = p.under (p.run (solve body fuel) {}).2.holds := by
  have h := ((run_outcome hb hfuel hp).2 _ (.refl _)).1
  rwa [cut_nil] at h

/-- What the program asked under what the memo holds is known. -/
theorem run_knows {f : F} (hf : f ∈ p.asked (p.run (solve body fuel) {}).2.holds) :
    (p.run (solve body fuel) {}).2.Knows f := by
  have h := ((run_outcome hb hfuel hp).2 _ (.refl _)).2 f
  rw [cut_nil] at h
  simpa using h hf

/-- What the memo holds of a fact it knows is justified. -/
theorem run_justified {f : F} (hf : (p.run (solve body fuel) {}).2.Knows f) :
    Justified body needs (p.run (solve body fuel) {}).2 f ((p.run (solve body fuel) {}).2.holds f) := by
  obtain ⟨b, hf⟩ := hf
  obtain ⟨V, hfV, hneed, hM⟩ := (run_outcome hb hfuel hp).1.justified f b hf (by simp)
  refine ⟨V, hfV, hneed, ?_⟩
  rw [(Keeps.refl _).holds hf]
  exact hM _ (.refl _)

end

end Finished

end Run

end Memo

end Pbr.Lib
