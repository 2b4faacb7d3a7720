import Mathlib.Data.List.Basic

/-!
# Writing — programs over a store whose writes may fail

A program reads the store, writes to it and may stop with an error; what it
wrote before stays. Which of the writes to come fail is part of the state,
so a program's run says what becomes of every failure.

Two kinds of rules: what every run leaves true of the store (`Keeps`), and
what a run without failures does (`Reliable`).
-/

namespace Pbr.Lib

/-- A store, and whether each of the next writes to it fails (no more of
them do, past the list). -/
structure Faulty (σ : Type) where
  store : σ
  failing : List Bool := []

/-- A program over a store of type `σ`. -/
def Writing (ε σ α : Type) : Type := Faulty σ → Except ε α × Faulty σ

namespace Writing

variable {ε σ α β γ : Type}

instance : Monad (Writing ε σ) where
  pure a := fun d => (.ok a, d)
  bind x f := fun d =>
    match x d with
    | (.ok a, d) => f a d
    | (.error e, d) => (.error e, d)

def fail (e : ε) : Writing ε σ α := fun d => (.error e, d)

/-- A read of the store, or a check of what was read. -/
def reads (f : σ → Except ε α) : Writing ε σ α := fun d => (f d.store, d)

/-- A write, and the error it fails with. -/
def write (e : ε) (f : σ → σ) : Writing ε σ Unit := fun d =>
  match d.failing with
  | [] => (.ok (), { d with store := f d.store })
  | true :: rest => (.error e, { d with failing := rest })
  | false :: rest => (.ok (), { store := f d.store, failing := rest })

/-- A write that does not fail. -/
def change (f : σ → σ) : Writing ε σ Unit := fun d => (.ok (), { d with store := f d.store })

/-- A write of which it is known whether it is done. -/
def writeIf (done : Bool) (e : ε) (f : σ → σ) : Writing ε σ Unit := if done then change f else fail e

/-- From a store, with no more failures than the program names: what it gives
and the store it leaves. -/
def runOn (x : Writing ε σ α) (s : σ) : Except ε α × σ := ((x ⟨s, []⟩).1, (x ⟨s, []⟩).2.store)

/-- A write whose failure is passed over. -/
def tryWrite (e : ε) (f : σ → σ) : Writing ε σ Unit := fun d => (.ok (), (write e f d).2)

theorem bind_apply (x : Writing ε σ α) (f : α → Writing ε σ β) (d : Faulty σ) :
    (x >>= f) d = match x d with
      | (.ok a, d) => f a d
      | (.error e, d) => (.error e, d) := rfl

@[simp] theorem pure_apply (a : α) (d : Faulty σ) : (pure a : Writing ε σ α) d = (.ok a, d) := rfl

@[simp] theorem fail_apply (e : ε) (d : Faulty σ) : (fail e : Writing ε σ α) d = (.error e, d) :=
  rfl

@[simp] theorem change_apply (f : σ → σ) (d : Faulty σ) :
    (change f : Writing ε σ Unit) d = (.ok (), { d with store := f d.store }) := rfl

@[simp] theorem reads_apply (f : σ → Except ε α) (d : Faulty σ) : reads f d = (f d.store, d) := rfl

variable {d d' : Faulty σ} {f : α → Writing ε σ β} {x : Writing ε σ α}

theorem bind_of_ok {a : α} (h : x d = (.ok a, d')) : (x >>= f) d = f a d' := by
  rw [bind_apply, h]

theorem bind_of_error {e : ε} (h : x d = (.error e, d')) : (x >>= f) d = (.error e, d') := by
  rw [bind_apply, h]

instance : LawfulMonad (Writing ε σ) :=
  LawfulMonad.mk' _
    (by
      intro α x
      funext d
      show (x >>= pure) d = x d
      rw [bind_apply]
      rcases x d with ⟨_ | _, _⟩ <;> rfl)
    (by
      intros
      rfl)
    (by
      intro α β γ x f g
      funext d
      simp only [bind_apply]
      rcases x d with ⟨_ | _, _⟩ <;> rfl)

/-! ## Loops -/

section Loops

variable {l : List γ}

/-- A loop that passes some over is the loop over the others. -/
theorem forM_filter {p : γ → Bool} {f g : γ → Writing ε σ PUnit}
    (hf : ∀ c ∈ l, f c = if p c then g c else pure ⟨⟩) : ForM.forM l f = ForM.forM (l.filter p) g := by
  induction l with
  | nil => rfl
  | cons c l ih =>
    rw [List.forM_cons, hf c List.mem_cons_self, ih fun c hc => hf c (List.mem_cons_of_mem _ hc)]
    by_cases hp : p c
    · rw [if_pos hp, List.filter_cons_of_pos hp, List.forM_cons]
    · rw [if_neg hp, List.filter_cons_of_neg hp, pure_bind]

/-- A loop of writes goes through just if each is done, and is the fold of them. -/
theorem forM_writeIf_ok {done : γ → Bool} {e : ε} {f : γ → σ → σ} {s : σ} {d : Faulty σ} :
    ForM.forM l (fun c => writeIf (done c) e (f c)) ⟨s, []⟩ = (.ok (), d) ↔
      (∀ c ∈ l, done c = true) ∧ d = ⟨l.foldl (fun s c => f c s) s, []⟩ := by
  induction l generalizing s with
  | nil =>
    constructor
    · intro h
      cases h
      exact ⟨by simp, rfl⟩
    · intro h
      rw [h.2]
      rfl
  | cons c l ih =>
    rw [List.forM_cons, bind_apply]
    cases hdone : done c with
    | false => simp [writeIf, hdone]
    | true =>
      have hstep : writeIf (done c) e (f c) ⟨s, []⟩ = (.ok (), ⟨f c s, []⟩) := by
        rw [writeIf, hdone, if_pos rfl, change_apply]
      rw [hdone] at hstep
      rw [hstep]
      simp only [List.forall_mem_cons, hdone, true_and, List.foldl_cons]
      exact ih

end Loops

/-! ## From a store on -/

section RunOn

variable {x : Writing ε σ α} {f : α → Writing ε σ β} {g : σ → Except ε α} {s s' : σ} {a : α} {e : ε}

theorem runOn_bind_ok (h : x ⟨s, []⟩ = (.ok a, ⟨s', []⟩)) : runOn (x >>= f) s = runOn (f a) s' := by
  rw [runOn, bind_of_ok h]
  rfl

theorem runOn_bind_error (h : x ⟨s, []⟩ = (.error e, ⟨s', []⟩)) : runOn (x >>= f) s = (.error e, s') := by
  rw [runOn, bind_of_error h]

theorem runOn_reads_ok (h : g s = .ok a) : runOn (reads g >>= f) s = runOn (f a) s :=
  runOn_bind_ok (by rw [reads_apply, h])

theorem runOn_reads_error (h : g s = .error e) : runOn (reads g >>= f) s = (.error e, s) :=
  runOn_bind_error (by rw [reads_apply, h])

/-- From a store on, a loop of writes goes through just if each is done. -/
theorem runOn_forM_writeIf_ok {l : List γ} {done : γ → Bool} {e : ε} {f : γ → σ → σ} {s s' : σ} :
    runOn (ForM.forM l fun c => writeIf (done c) e (f c)) s = (.ok (), s') ↔
      (∀ c ∈ l, done c = true) ∧ s' = l.foldl (fun s c => f c s) s := by
  constructor
  · intro h
    have hok := congrArg Prod.fst h
    have hrun := forM_writeIf_ok.mp (Prod.ext hok rfl)
    exact ⟨hrun.1, (congrArg Prod.snd h).symm.trans (congrArg Faulty.store hrun.2)⟩
  · intro ⟨hdone, hs'⟩
    rw [runOn, forM_writeIf_ok.mpr ⟨hdone, rfl⟩, hs']

end RunOn

/-- Of a program that went through, every part did. -/
theorem of_bind_ok {b : β} (h : (x >>= f) d = (.ok b, d')) : ∃ a d₁, x d = (.ok a, d₁) ∧ f a d₁ = (.ok b, d') := by
  rw [bind_apply] at h
  cases hx : x d with
  | mk result d₁ =>
    rw [hx] at h
    cases result with
    | ok a => exact ⟨a, d₁, rfl, h⟩
    | error e => cases h

theorem store_of_write_ok {e : ε} {f : σ → σ} {u : Unit} (h : write e f d = (.ok u, d')) : d'.store = f d.store := by
  unfold write at h
  split at h
  · cases h
    rfl
  · cases h
  · cases h
    rfl

/-- A write fails, or does its work; either way it used up one answer. -/
theorem write_cases (e : ε) (f : σ → σ) (s : σ) (failing : List Bool) :
    (∃ rest, failing = true :: rest ∧ write e f ⟨s, failing⟩ = (.error e, ⟨s, rest⟩)) ∨
    (failing.head? ≠ some true ∧ write e f ⟨s, failing⟩ = (.ok (), ⟨f s, failing.tail⟩)) := by
  cases failing with
  | nil => exact .inr ⟨by simp, rfl⟩
  | cons fails rest =>
    cases fails with
    | true => exact .inl ⟨rest, rfl, rfl⟩
    | false => exact .inr ⟨by simp, rfl⟩

/-! ## What every run keeps -/

/-- Whatever fails, `P` holds of the store after the run if it did before. -/
def Keeps (P : σ → Prop) (x : Writing ε σ α) : Prop := ∀ d, P d.store → P (x d).2.store

namespace Keeps

variable {P : σ → Prop}

theorem pure (a : α) : Keeps P (Pure.pure a : Writing ε σ α) := fun _ h => h

theorem write (e : ε) {f : σ → σ} (h : ∀ s, P s → P (f s)) : Keeps P (Writing.write e f) := by
  intro d hd
  unfold Writing.write
  split
  · exact h _ hd
  · exact hd
  · exact h _ hd

theorem tryWrite (e : ε) {f : σ → σ} (h : ∀ s, P s → P (f s)) :
    Keeps P (Writing.tryWrite e f) := fun d hd => write e h d hd

theorem bind {x : Writing ε σ α} {f : α → Writing ε σ β} (hx : Keeps P x)
    (hf : ∀ a, Keeps P (f a)) : Keeps P (x >>= f) := by
  intro d hd
  rw [bind_apply]
  have hmid := hx d hd
  cases h : x d with
  | mk result d₁ =>
    rw [h] at hmid
    cases result with
    | ok a => exact hf a d₁ hmid
    | error e => exact hmid

theorem forM {l : List γ} {f : γ → Writing ε σ PUnit} (h : ∀ c ∈ l, Keeps P (f c)) : Keeps P (ForM.forM l f) := by
  induction l with
  | nil => exact pure _
  | cons c l ih =>
    rw [List.forM_cons]
    exact bind (h c List.mem_cons_self) fun _ => ih fun c hc => h c (List.mem_cons_of_mem _ hc)

end Keeps

/-! ## Runs without failures -/

/-- No write to come fails. -/
def Reliable (d : Faulty σ) : Prop := ∀ fails ∈ d.failing, fails = false

/-- From `d` the program goes through, gives `a` and leaves the store `s`. -/
def Gives (x : Writing ε σ α) (d : Faulty σ) (a : α) (s : σ) : Prop :=
  ∃ d', x d = (.ok a, d') ∧ d'.store = s ∧ Reliable d'

namespace Gives

variable {d : Faulty σ} {s : σ}

theorem pure (a : α) (h : Reliable d) : Gives (Pure.pure a : Writing ε σ α) d a d.store :=
  ⟨d, rfl, rfl, h⟩

theorem write (e : ε) (f : σ → σ) (h : Reliable d) : Gives (Writing.write e f) d () (f d.store) := by
  unfold Gives Writing.write
  split
  · exact ⟨_, rfl, rfl, h⟩
  · next rest hfailing =>
      have := h true (hfailing ▸ List.mem_cons_self)
      cases this
  · next rest hfailing =>
      exact ⟨_, rfl, rfl, fun fails hf => h fails (hfailing ▸ List.mem_cons_of_mem _ hf)⟩

theorem tryWrite (e : ε) (f : σ → σ) (h : Reliable d) : Gives (Writing.tryWrite e f) d () (f d.store) := by
  obtain ⟨d', hd', hstore, hrel⟩ := write e f h
  exact ⟨d', by rw [Writing.tryWrite, hd'], hstore, hrel⟩

theorem bind {x : Writing ε σ α} {f : α → Writing ε σ β} {a : α} {b : β} {t : σ}
    (hx : Gives x d a s) (hf : ∀ d', d'.store = s → Reliable d' → Gives (f a) d' b t) : Gives (x >>= f) d b t := by
  obtain ⟨d', hd', hstore, hrel⟩ := hx
  rw [Gives, bind_of_ok hd']
  exact hf d' hstore hrel

theorem forM {l : List γ} {f : γ → Writing ε σ PUnit} {step : σ → γ → σ}
    (h : ∀ c ∈ l, ∀ d, Reliable d → Gives (f c) d () (step d.store c)) (hd : Reliable d) :
    Gives (ForM.forM l f) d () (l.foldl step d.store) := by
  induction l generalizing d with
  | nil => exact pure _ hd
  | cons c l ih =>
    rw [List.forM_cons, List.foldl_cons]
    refine (h c List.mem_cons_self d hd).bind fun d' hstore hrel => ?_
    rw [← hstore]
    exact ih (fun c hc => h c (List.mem_cons_of_mem _ hc)) hrel

end Gives

end Writing

end Pbr.Lib
