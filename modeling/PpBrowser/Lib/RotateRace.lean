import Mathlib.Logic.Function.Basic
import PpBrowser.Lib.Runs
import PpBrowser.Lib.Sides

/-!
# RotateRace — two sides that rotate a shared key

Each side holds a key with its epoch. To rotate, a side plans the next epoch
under a fresh id, sends it and commits, or gives it up unsent. A side takes
a rotation it hears when the epoch is later than its own, unless the last
rotation it planned or took has the greater id; a rotation that another has
overtaken is not committed.

A run is fair when no heard rotation is refused for a finished one, nor one
its sender already holds, and no side commits what the other has refused or
an epoch the other holds under another key. In a fair run the sides never
hold two keys of one epoch, and they agree once everything is delivered.
-/

namespace Pbr.Lib

/-- A rotation: its id, and the epoch and key it leads to. -/
structure Rotation (ι κ : Type) where
  id : ι
  newEpoch : Nat
  key : κ
  deriving DecidableEq

structure RotateSide (ι κ : Type) where
  epoch : Nat
  key : κ
  /-- The last rotation planned or taken here. -/
  last : Option ι := none
  plan : Option (Rotation ι κ) := none
  /-- The plan has been sent. -/
  sent : Bool := false
  deriving DecidableEq

/-- Both sides, and the rotations on their way to each. -/
structure RotateRace (ι κ : Type) where
  side : Side → RotateSide ι κ
  flight : Side → List (Rotation ι κ)

inductive RaceEvent (ι κ : Type) where
  | prepare (s : Side) (id : ι) (newEpoch : Nat) (key : κ)
  | send (s : Side)
  | commit (s : Side)
  | abort (s : Side)
  /-- The message at place `i` of those on their way to `s`. -/
  | deliver (s : Side) (i : Nat)
  | idle

variable {ι κ : Type}

namespace RotateSide

variable (d : RotateSide ι κ) (m : Rotation ι κ)

/-- The plan still counts: no other rotation was taken since. -/
def Stands : Prop := d.plan = some m ∧ d.last = some m.id

/-- A plan of this side stands. -/
def Contends : Prop := ∃ m ∈ d.plan, d.last = some m.id

variable {d m} in
theorem Stands.unique {n : Rotation ι κ} (hm : d.Stands m) (hn : d.Stands n) : m = n :=
  Option.mem_unique hm.1 hn.1

def take : RotateSide ι κ :=
  { d with epoch := m.newEpoch, key := m.key, last := some m.id }

def prepare : RotateSide ι κ := { d with plan := some m, last := some m.id, sent := false }

def close : RotateSide ι κ := { d with plan := none, sent := false }

/-- The last rotation of this side beats one of this id. -/
def Beats [LT ι] (id : ι) : Prop := ∃ last ∈ d.last, id < last

instance [LT ι] [DecidableLT ι] (id : ι) : Decidable (d.Beats id) :=
  inferInstanceAs (Decidable (∃ last ∈ d.last, id < last))

def hear [LT ι] [DecidableLT ι] : RotateSide ι κ :=
  if d.Beats m.id ∨ m.newEpoch ≤ d.epoch then d else d.take m

/-- Commits the plan unless another rotation has overtaken it. -/
def commit [DecidableEq ι] : RotateSide ι κ :=
  if d.last = some m.id ∨ d.last = none then (d.take m).close else d.close

def abort [DecidableEq ι] : RotateSide ι κ :=
  if d.last = some m.id then { d.close with last := none } else d.close

end RotateSide

namespace RotateRace

variable (r : RotateRace ι κ) (s : Side)

def setSide (d : RotateSide ι κ) : RotateRace ι κ := { r with side := Function.update r.side s d }

def setFlight (ms : List (Rotation ι κ)) : RotateRace ι κ :=
  { r with flight := Function.update r.flight s ms }

variable {r} {s} {d : RotateSide ι κ} {ms : List (Rotation ι κ)}

@[simp] theorem side_setSide : (r.setSide s d).side s = d := by simp [setSide]

@[simp] theorem side_setSide_other : (r.setSide s d).side s.other = r.side s.other := by
  simp [setSide]

@[simp] theorem flight_setSide : (r.setSide s d).flight = r.flight := rfl

@[simp] theorem flight_setFlight : (r.setFlight s ms).flight s = ms := by simp [setFlight]

@[simp] theorem flight_setFlight_other : (r.setFlight s ms).flight s.other = r.flight s.other := by simp [setFlight]

@[simp] theorem flight_other_setFlight : (r.setFlight s.other ms).flight s = r.flight s := by simp [setFlight]

@[simp] theorem side_setFlight : (r.setFlight s ms).side = r.side := rfl

@[simp] theorem setSide_self : r.setSide s (r.side s) = r := by simp [setSide]

def step [LT ι] [DecidableLT ι] [DecidableEq ι] (r : RotateRace ι κ) : RaceEvent ι κ → RotateRace ι κ
  | .prepare s id newEpoch key =>
    match (r.side s).plan with
    | none => r.setSide s ((r.side s).prepare { id, newEpoch, key })
    | some _ => r
  | .send s =>
    match (r.side s).plan, (r.side s).sent with
    | some m, false =>
      (r.setSide s { r.side s with sent := true }).setFlight s.other (r.flight s.other ++ [m])
    | _, _ => r
  | .commit s =>
    match (r.side s).plan, (r.side s).sent with
    | some m, true => r.setSide s ((r.side s).commit m)
    | _, _ => r
  | .abort s =>
    match (r.side s).plan, (r.side s).sent with
    | some m, false => r.setSide s ((r.side s).abort m)
    | _, _ => r
  | .deliver s i =>
    match (r.flight s)[i]? with
    | some m => (r.setSide s ((r.side s).hear m)).setFlight s ((r.flight s).eraseIdx i)
    | none => r
  | .idle => r

/-- No rotation that is planned or on its way has this id. -/
def Fresh (r : RotateRace ι κ) (id : ι) : Prop :=
  ∀ s, (∀ m ∈ r.flight s, m.id ≠ id) ∧ ∀ m ∈ (r.side s).plan, m.id ≠ id

/-- A rotation leads to the next epoch, or to none (0) and is not sent; its
id is fresh. -/
def Proper (r : RotateRace ι κ) : RaceEvent ι κ → Prop
  | .prepare s id newEpoch _ => (newEpoch = (r.side s).epoch + 1 ∨ newEpoch = 0) ∧ r.Fresh id
  | .send s => ∀ m ∈ (r.side s).plan, m.newEpoch ≠ 0
  | _ => True

/-- A side refuses a later epoch only while its own plan stands and the
sender does not hold it yet; it commits a plan only while the other side can
still hear it, or has taken it. -/
def Fair [LT ι] (r : RotateRace ι κ) : RaceEvent ι κ → Prop
  | .deliver s i => ∀ m ∈ (r.flight s)[i]?, (r.side s).epoch < m.newEpoch →
      (r.side s).Beats m.id →
        (r.side s).Contends ∧
          ¬ ((r.side s.other).epoch = m.newEpoch ∧ (r.side s.other).key = m.key)
  | .commit s => ∀ m ∈ (r.side s).plan, (r.side s).last = some m.id →
      ((r.side s.other).epoch < m.newEpoch → m ∈ r.flight s.other) ∧
        ((r.side s.other).epoch = m.newEpoch → (r.side s.other).key = m.key)
  | _ => True

instance [DecidableEq ι] (r : RotateRace ι κ) (id : ι) : Decidable (r.Fresh id) :=
  inferInstanceAs (Decidable (∀ s, (∀ m ∈ r.flight s, m.id ≠ id) ∧ ∀ m ∈ (r.side s).plan, m.id ≠ id))

instance [DecidableEq ι] (r : RotateRace ι κ) : ∀ e, Decidable (r.Proper e)
  | .prepare s id newEpoch _ =>
    inferInstanceAs (Decidable ((newEpoch = (r.side s).epoch + 1 ∨ newEpoch = 0) ∧ r.Fresh id))
  | .send s => inferInstanceAs (Decidable (∀ m ∈ (r.side s).plan, m.newEpoch ≠ 0))
  | .commit _ | .abort _ | .deliver .. | .idle => inferInstanceAs (Decidable True)

instance [LT ι] [DecidableLT ι] [DecidableEq ι] [DecidableEq κ] (r : RotateRace ι κ) :
    ∀ e, Decidable (r.Fair e)
  | .deliver s i => inferInstanceAs (Decidable (∀ m ∈ (r.flight s)[i]?,
      (r.side s).epoch < m.newEpoch → (r.side s).Beats m.id → (∃ m ∈ (r.side s).plan,
        (r.side s).last = some m.id) ∧
          ¬ ((r.side s.other).epoch = m.newEpoch ∧ (r.side s.other).key = m.key)))
  | .commit s => inferInstanceAs (Decidable (∀ m ∈ (r.side s).plan, (r.side s).last = some m.id →
      ((r.side s.other).epoch < m.newEpoch → m ∈ r.flight s.other) ∧
        ((r.side s.other).epoch = m.newEpoch → (r.side s.other).key = m.key)))
  | .prepare .. | .send _ | .abort _ | .idle => inferInstanceAs (Decidable True)

end RotateRace

/-! ## What a run keeps -/

section Invariant

variable [LT ι] {d t : RotateSide ι κ} {m n : Rotation ι κ} {fd ft : List (Rotation ι κ)}
  {d' : RotateSide ι κ}

/-- A side that hears `m` will refuse it: its epoch is not below, or its own
plan, sent and standing, beats it. -/
def Lost (d : RotateSide ι κ) (m : Rotation ι κ) : Prop :=
  m.newEpoch ≤ d.epoch ∨
    ∃ n, d.Stands n ∧ d.sent = true ∧ m.id < n.id ∧ m.newEpoch ≤ n.newEpoch

/-- Where the sender `t` of a rotation on its way to `d` is: past it, at it,
in the middle of it, or overtaken. -/
def Standing (t d : RotateSide ι κ) (m : Rotation ι κ) : Prop :=
  m.newEpoch < t.epoch ∨ (t.epoch = m.newEpoch ∧ t.key = m.key) ∨
    (t.Stands m ∧ t.sent = true) ∨ Lost d m

/-- A plan of `d` leads to the next epoch, or it was overtaken and will be
refused. -/
def Planned (d t : RotateSide ι κ) (m : Rotation ι κ) : Prop :=
  (d.last = some m.id ∧ (m.newEpoch = d.epoch + 1 ∨ (m.newEpoch = 0 ∧ d.sent = false))) ∨
    ((∃ last, d.last = some last ∧ last ≠ m.id) ∧ Lost t m)

/-- `d` is not behind `t`, and `t`, which hears `ft`, has a way to where `d`
is. -/
structure Leads (d t : RotateSide ι κ) (ft : List (Rotation ι κ)) : Prop where
  le : t.epoch ≤ d.epoch
  agree : t.epoch = d.epoch → t.key = d.key
  way : t.epoch < d.epoch → ∃ m, m.newEpoch = d.epoch ∧ m.key = d.key ∧
    (m ∈ ft ∨ (t.Stands m ∧ t.sent = true))

/-- What is kept of one side, which hears `fd`. -/
structure HalfInv (d t : RotateSide ι κ) (fd : List (Rotation ι κ)) : Prop where
  planned : ∀ m, d.plan = some m → Planned d t m
  idle : d.plan = none → d.sent = false
  standing : ∀ m ∈ fd, Standing t d m
  heard_ne : ∀ m ∈ fd, ∀ n, d.plan = some n → m.id ≠ n.id

structure PairInv (d t : RotateSide ι κ) (fd ft : List (Rotation ι κ)) : Prop where
  here : HalfInv d t fd
  there : HalfInv t d ft
  apart : ∀ m n, d.plan = some m → t.plan = some n → m.id ≠ n.id
  leads : Leads d t ft ∨ Leads t d fd

theorem PairInv.symm (h : PairInv d t fd ft) : PairInv t d ft fd where
  here := h.there
  there := h.here
  apart m n hm hn := (h.apart n m hn hm).symm
  leads := h.leads.symm

/-- What is kept of the other side when `d` changes: what `d` refuses it
still refuses, and it still stands behind what it has sent. -/
theorem HalfInv.other {ft' : List (Rotation ι κ)} (h : HalfInv t d ft)
    (hlost : ∀ n, Lost d n → Lost d' n) (hstanding : ∀ n ∈ ft', Standing d' t n)
    (hne : ∀ n ∈ ft', ∀ p, t.plan = some p → n.id ≠ p.id) : HalfInv t d' ft' where
  planned n hn := (h.planned n hn).imp_right fun h => ⟨h.1, hlost n h.2⟩
  idle := h.idle
  standing := hstanding
  heard_ne := hne

theorem Standing.receiver (h : Standing t d n) (hlost : Lost d n → Lost d' n) : Standing t d' n :=
  h.imp_right fun h => h.imp_right fun h => h.imp_right hlost

/-- A plan that stands leads to the next epoch, if anywhere. -/
theorem Planned.of_stands (h : Planned d t m) (hlast : d.last = some m.id) :
    m.newEpoch = d.epoch + 1 ∨ (m.newEpoch = 0 ∧ d.sent = false) := by
  rcases h with h | ⟨⟨last, hl, hne⟩, -⟩
  · exact h.2
  · exact absurd (Option.mem_unique hl hlast) hne

theorem HalfInv.newEpoch_of_stands (h : HalfInv d t fd) (hstands : d.Stands m)
    (hsent : d.sent = true) : m.newEpoch = d.epoch + 1 := by
  rcases (h.planned m hstands.1).of_stands hstands.2 with hepoch | ⟨-, hunsent⟩
  · exact hepoch
  · cases hsent.symm.trans hunsent

/-! ### Preparing and sending -/

theorem Lost.prepare (h : Lost d n) (hplan : d.plan = none) : Lost (d.prepare m) n := by
  rcases h with h | ⟨p, hp, -⟩
  · exact .inl h
  · cases hplan.symm.trans hp.1

theorem PairInv.prepare (h : PairInv d t fd ft) (hplan : d.plan = none)
    (hepoch : m.newEpoch = d.epoch + 1 ∨ m.newEpoch = 0) (hfd : ∀ n ∈ fd, n.id ≠ m.id)
    (ht : ∀ n, t.plan = some n → n.id ≠ m.id) : PairInv (d.prepare m) t fd ft where
  here := by
    refine ⟨?_, ?_, ?_, ?_⟩
    · intro n hn
      obtain rfl : m = n := by simpa [RotateSide.prepare] using hn
      exact .inl ⟨rfl, hepoch.imp_right fun h => ⟨h, rfl⟩⟩
    · intro hnone
      cases hnone
    · intro n hn
      exact (h.here.standing n hn).receiver fun h => h.prepare hplan
    · intro n hn p hp
      obtain rfl : m = p := by simpa [RotateSide.prepare] using hp
      exact hfd n hn
  there := by
    refine h.there.other (fun n h => h.prepare hplan) ?_ h.there.heard_ne
    intro n hn
    rcases h.there.standing n hn with hpast | hat | ⟨hstands, -⟩ | hlost
    · exact .inl hpast
    · exact .inr (.inl hat)
    · cases hplan.symm.trans hstands.1
    · exact .inr (.inr (.inr hlost))
  apart n p hn hp := by
    obtain rfl : m = n := by simpa [RotateSide.prepare] using hn
    exact (ht p hp).symm
  leads := by
    rcases h.leads with hd | ht
    · exact .inl ⟨hd.le, hd.agree, hd.way⟩
    · refine .inr ⟨ht.le, ht.agree, ?_⟩
      intro hlt
      obtain ⟨n, hepoch, hkey, hn | ⟨hstands, -⟩⟩ := ht.way hlt
      · exact ⟨n, hepoch, hkey, .inl hn⟩
      · cases hplan.symm.trans hstands.1

theorem Lost.send (h : Lost d n) : Lost { d with sent := true } n := by
  rcases h with h | ⟨p, hp, -, hid, hepoch⟩
  · exact .inl h
  · exact .inr ⟨p, hp, rfl, hid, hepoch⟩

theorem PairInv.send (h : PairInv d t fd ft) (hplan : d.plan = some m) (hepoch : m.newEpoch ≠ 0) :
    PairInv { d with sent := true } t fd (ft ++ [m]) where
  here := by
    refine ⟨?_, ?_, fun n hn => (h.here.standing n hn).receiver Lost.send, h.here.heard_ne⟩
    · intro n hn
      obtain rfl : m = n := Option.mem_unique hplan hn
      rcases h.here.planned m hplan with ⟨hlast, hnext | ⟨hzero, -⟩⟩ | hover
      · exact .inl ⟨hlast, .inl hnext⟩
      · exact absurd hzero hepoch
      · exact .inr hover
    · intro hnone
      cases hplan.symm.trans hnone
  there := by
    refine h.there.other (fun n h => h.send) ?_ ?_
    · intro n hn
      rcases List.mem_append.mp hn with hn | hn
      · rcases h.there.standing n hn with hpast | hat | ⟨hstands, -⟩ | hlost
        · exact .inl hpast
        · exact .inr (.inl hat)
        · exact .inr (.inr (.inl ⟨hstands, rfl⟩))
        · exact .inr (.inr (.inr hlost))
      · -- the plan itself: it stands, or it was overtaken before it was sent
        obtain rfl := List.mem_singleton.mp hn
        rcases h.here.planned n hplan with ⟨hlast, -⟩ | ⟨-, hlost⟩
        · exact .inr (.inr (.inl ⟨⟨hplan, hlast⟩, rfl⟩))
        · exact .inr (.inr (.inr hlost))
    · intro n hn p hp
      rcases List.mem_append.mp hn with hn | hn
      · exact h.there.heard_ne n hn p hp
      · obtain rfl := List.mem_singleton.mp hn
        exact h.apart n p hplan hp
  apart := h.apart
  leads := by
    rcases h.leads with hd | ht
    · refine .inl ⟨hd.le, hd.agree, ?_⟩
      intro hlt
      obtain ⟨n, hn, hkey, hway⟩ := hd.way hlt
      exact ⟨n, hn, hkey, hway.imp_left (List.mem_append_left _)⟩
    · refine .inr ⟨ht.le, ht.agree, ?_⟩
      intro hlt
      obtain ⟨n, hn, hkey, hway⟩ := ht.way hlt
      exact ⟨n, hn, hkey, hway.imp_right fun h => ⟨h.1, rfl⟩⟩

/-! ### Closing a plan -/

/-- Closing a plan that was not sent, or was overtaken, keeps everything. -/
theorem PairInv.drop (h : PairInv d t fd ft)
    (hidle : ∀ n, d.Stands n → d.sent = false) (hepoch : d'.epoch = d.epoch) (hkey : d'.key = d.key)
    (hplan : d'.plan = none) (hsent : d'.sent = false) : PairInv d' t fd ft := by
  have hopen : ∀ n, ¬ (d.Stands n ∧ d.sent = true) := by
    rintro n ⟨hstands, hs⟩
    cases hs.symm.trans (hidle n hstands)
  have hlost : ∀ n, Lost d n → Lost d' n := by
    rintro n (h | ⟨p, hp, hs, -⟩)
    · exact .inl (hepoch ▸ h)
    · exact absurd ⟨hp, hs⟩ (hopen p)
  refine ⟨⟨?_, fun _ => hsent, ?_, ?_⟩, h.there.other hlost ?_ h.there.heard_ne, ?_, ?_⟩
  · intro n hn
    cases hplan.symm.trans hn
  · intro n hn
    exact (h.here.standing n hn).receiver (hlost n)
  · intro n _ p hp
    cases hplan.symm.trans hp
  · intro n hn
    rcases h.there.standing n hn with hpast | hat | hstands | hl
    · exact .inl (hepoch ▸ hpast)
    · exact .inr (.inl ⟨hepoch.trans hat.1, hkey.trans hat.2⟩)
    · exact absurd hstands (hopen n)
    · exact .inr (.inr (.inr hl))
  · intro n p hn
    cases hplan.symm.trans hn
  · rcases h.leads with hd | ht
    · exact .inl ⟨by simpa [hepoch] using hd.le, by simpa [hepoch, hkey] using hd.agree,
        by simpa [hepoch, hkey] using hd.way⟩
    · refine .inr ⟨by simpa [hepoch] using ht.le, by simpa [hepoch, hkey] using ht.agree, ?_⟩
      intro hlt
      obtain ⟨n, hn, hk, hway | hway⟩ := ht.way (by simpa [hepoch] using hlt)
      · exact ⟨n, hn, hk, .inl hway⟩
      · exact absurd hway (hopen n)

theorem PairInv.abort [DecidableEq ι] (h : PairInv d t fd ft) (hsent : d.sent = false) :
    PairInv (d.abort m) t fd ft := by
  refine h.drop (fun _ _ => hsent) ?_ ?_ ?_ ?_ <;>
    (unfold RotateSide.abort; split <;> rfl)

/-- Committing a plan that stands: what was on its way to the other side is
where this side is now. -/
theorem PairInv.advance (h : PairInv d t fd ft) (hstands : d.Stands m) (hsent : d.sent = true)
    (hheard : t.epoch < m.newEpoch → m ∈ ft) (hagree : t.epoch = m.newEpoch → t.key = m.key) :
    PairInv (d.take m).close t fd ft := by
  have hnext : m.newEpoch = d.epoch + 1 := h.here.newEpoch_of_stands hstands hsent
  have hepoch : (d.take m).close.epoch = m.newEpoch := rfl
  have hkey : (d.take m).close.key = m.key := rfl
  have hlost : ∀ n, Lost d n → Lost (d.take m).close n := by
    rintro n (hn | ⟨p, hp, -, -, hle⟩)
    · exact .inl (by omega)
    · obtain rfl := hstands.unique hp
      exact .inl hle
  refine ⟨⟨?_, fun _ => rfl, ?_, ?_⟩, h.there.other hlost ?_ h.there.heard_ne, ?_, ?_⟩
  · intro n hn
    cases hn
  · intro n hn
    exact (h.here.standing n hn).receiver (hlost n)
  · intro n _ p hp
    cases hp
  · intro n hn
    rcases h.there.standing n hn with hpast | hat | ⟨hn, -⟩ | hl
    · exact .inl (by omega)
    · exact .inl (by omega)
    · obtain rfl := hstands.unique hn
      exact .inr (.inl ⟨rfl, rfl⟩)
    · exact .inr (.inr (.inr hl))
  · intro n p hn
    cases hn
  · by_cases hlt : t.epoch < m.newEpoch
    · -- the other side has still to hear the plan
      refine .inl ⟨by omega, fun heq => by omega, fun _ => ⟨m, rfl, rfl, .inl (hheard hlt)⟩⟩
    · rcases h.leads with hd | ht
      · have := hd.le
        omega
      · by_cases heq : t.epoch = m.newEpoch
        · exact .inr ⟨by omega, fun _ => (hagree heq).symm, fun hlt => by omega⟩
        · refine .inr ⟨by omega, fun heq => by omega, fun _ => ?_⟩
          obtain ⟨n, hn, hk, hway | ⟨hp, -⟩⟩ := ht.way (by omega)
          · exact ⟨n, hn, hk, .inl hway⟩
          · obtain rfl := hstands.unique hp
            omega

theorem PairInv.commit [DecidableEq ι] (h : PairInv d t fd ft) (hplan : d.plan = some m) (hsent : d.sent = true)
    (hfair : d.Stands m → (t.epoch < m.newEpoch → m ∈ ft) ∧ (t.epoch = m.newEpoch → t.key = m.key)) :
    PairInv (d.commit m) t fd ft := by
  unfold RotateSide.commit
  by_cases hlast : d.last = some m.id
  · rw [if_pos (.inl hlast)]
    have hstands : d.Stands m := ⟨hplan, hlast⟩
    exact h.advance hstands hsent (hfair hstands).1 (hfair hstands).2
  · have hsome : d.last ≠ none := by
      rcases h.here.planned m hplan with ⟨hl, -⟩ | ⟨⟨last, hl, -⟩, -⟩ <;> simp [hl]
    rw [if_neg (by simp [hlast, hsome])]
    refine h.drop ?_ rfl rfl rfl rfl
    rintro n ⟨hn, hl⟩
    obtain rfl : m = n := Option.mem_unique hplan hn
    exact absurd hl hlast

/-! ### Hearing -/

/-- What is taken was not refused: its sender is past it, at it, or in the
middle of it. -/
theorem Standing.of_taken (h : Standing t d m) (hlt : d.epoch < m.newEpoch) (hbeats : ¬ d.Beats m.id) :
    m.newEpoch < t.epoch ∨ (t.epoch = m.newEpoch ∧ t.key = m.key) ∨ (t.Stands m ∧ t.sent = true) := by
  rcases h with h | h | h | hle | ⟨n, hn, -, hid, -⟩
  · exact .inl h
  · exact .inr (.inl h)
  · exact .inr (.inr h)
  · omega
  · exact absurd ⟨n.id, hn.2, hid⟩ hbeats

variable [Std.Trichotomous fun a b : ι => a < b]

/-- A plan here is overtaken by the rotation taken: the sender will refuse
it. -/
theorem PairInv.overtaken (h : PairInv d t fd ft) (hmem : m ∈ fd) (hlt : d.epoch < m.newEpoch)
    (hbeats : ¬ d.Beats m.id) (hplan : d.plan = some n) : Lost t n := by
  rcases h.here.planned n hplan with ⟨hlast, hepoch⟩ | ⟨-, hlost⟩
  · have hid : n.id < m.id := by
      by_contra hnot
      have hid : ¬ m.id < n.id := fun hid => hbeats ⟨n.id, hlast, hid⟩
      exact h.here.heard_ne m hmem n hplan (Std.Trichotomous.trichotomous m.id n.id hid hnot)
    have hle : n.newEpoch ≤ m.newEpoch := by omega
    rcases (h.here.standing m hmem).of_taken hlt hbeats with hpast | hat | ⟨hstands, hsent⟩
    · exact .inl (by omega)
    · exact .inl (by omega)
    · exact .inr ⟨m, hstands, hsent, hid, hle⟩
  · exact hlost

section

variable {fd' : List (Rotation ι κ)} (h : PairInv d t fd ft) (hmem : m ∈ fd) (hrest : ∀ n ∈ fd', n ∈ fd)
  (hleft : ∀ n ∈ fd, n ∈ fd' ∨ n = m)
include h hmem hrest hleft

theorem PairInv.taken (hlt : d.epoch < m.newEpoch) (hbeats : ¬ d.Beats m.id) : PairInv (d.take m) t fd' ft := by
  have hepoch : (d.take m).epoch = m.newEpoch := rfl
  have hlost : ∀ n, Lost d n → Lost (d.take m) n := by
    rintro n (hn | ⟨p, hp, hsent, -, hle⟩)
    · exact .inl (by omega)
    · have := h.here.newEpoch_of_stands hp hsent
      exact .inl (by omega)
  refine ⟨⟨?_, h.here.idle, ?_, ?_⟩, h.there.other hlost ?_ h.there.heard_ne, h.apart, ?_⟩
  · intro n hn
    exact .inr ⟨⟨m.id, rfl, h.here.heard_ne m hmem n hn⟩, h.overtaken hmem hlt hbeats hn⟩
  · intro n hn
    exact (h.here.standing n (hrest n hn)).receiver (hlost n)
  · intro n hn
    exact h.here.heard_ne n (hrest n hn)
  · intro n hn
    rcases h.there.standing n hn with hpast | hat | ⟨hstands, -⟩ | hl
    · exact .inl (by omega)
    · exact .inl (by omega)
    · exact .inr (.inr (.inr (h.overtaken hmem hlt hbeats hstands.1)))
    · exact .inr (.inr (.inr hl))
  · rcases (h.here.standing m hmem).of_taken hlt hbeats with hpast | hat | ⟨hstands, hsent⟩
    · -- the sender has moved on: what leads to where it is, is still on its way
      rcases h.leads with hd | ht
      · have := hd.le
        omega
      · refine .inr ⟨by omega, fun heq => by omega, fun _ => ?_⟩
        obtain ⟨n, hn, hk, hway | ⟨hp, hsent⟩⟩ := ht.way (by omega)
        · rcases hleft n hway with hway | rfl
          · exact ⟨n, hn, hk, .inl hway⟩
          · omega
        · have := h.here.newEpoch_of_stands hp hsent
          omega
    · exact .inl ⟨by omega, fun _ => hat.2, fun hlt => by omega⟩
    · have := h.there.newEpoch_of_stands hstands hsent
      exact .inl ⟨by omega, fun heq => by omega, fun _ => ⟨m, rfl, rfl, .inr ⟨hstands, hsent⟩⟩⟩

theorem PairInv.hear [DecidableLT ι] (hfair : d.epoch < m.newEpoch → d.Beats m.id →
      ¬ (t.epoch = m.newEpoch ∧ t.key = m.key)) : PairInv (d.hear m) t fd' ft := by
  unfold RotateSide.hear
  split
  · rename_i hrefused
    refine ⟨⟨h.here.planned, h.here.idle, fun n hn => h.here.standing n (hrest n hn),
      fun n hn => h.here.heard_ne n (hrest n hn)⟩, h.there, h.apart, ?_⟩
    rcases h.leads with hd | ht
    · exact .inl hd
    · refine .inr ⟨ht.le, ht.agree, ?_⟩
      intro hlt
      obtain ⟨n, hn, hk, hway | hway⟩ := ht.way hlt
      · rcases hleft n hway with hway | rfl
        · exact ⟨n, hn, hk, .inl hway⟩
        · -- a fair refusal is not of where the sender is
          have hnew : d.epoch < n.newEpoch := by omega
          have hbeats : d.Beats n.id := hrefused.resolve_right (by omega)
          exact absurd ⟨hn.symm, hk.symm⟩ (hfair hnew hbeats)
      · exact ⟨n, hn, hk, .inr hway⟩
  · rename_i htaken
    obtain ⟨hbeats, hlt⟩ := not_or.mp htaken
    exact h.taken hmem hrest hleft (by omega) hbeats

end

end Invariant

/-! ## Whole runs -/

section Run

variable [LT ι] {r : RotateRace ι κ} {s : Side} {e : RaceEvent ι κ}

/-- What every state of a fair run has. -/
def RotateRace.Inv (r : RotateRace ι κ) : Prop :=
  PairInv (r.side .left) (r.side .right) (r.flight .left) (r.flight .right)

theorem RotateRace.inv_iff (s : Side) :
    r.Inv ↔ PairInv (r.side s) (r.side s.other) (r.flight s) (r.flight s.other) := by
  cases s with
  | left => rfl
  | right => exact ⟨PairInv.symm, PairInv.symm⟩

theorem RotateRace.Inv.step [DecidableLT ι] [DecidableEq ι]
    [Std.Trichotomous fun a b : ι => a < b] (h : r.Inv) (hproper : r.Proper e) (hfair : r.Fair e) :
    (r.step e).Inv := by
  cases e with
  | prepare s id newEpoch key =>
    have hs := (inv_iff s).mp h
    simp only [RotateRace.step]
    cases hplan : (r.side s).plan with
    | some m => exact h
    | none =>
      obtain ⟨hepoch, hfresh⟩ := hproper
      rw [inv_iff s]
      simpa using hs.prepare (m := { id, newEpoch, key }) hplan hepoch (hfresh s).1
        (hfresh s.other).2
  | send s =>
    have hs := (inv_iff s).mp h
    simp only [RotateRace.step]
    split
    · rename_i m hplan hsent
      rw [inv_iff s]
      simpa using hs.send hplan (hproper m hplan)
    · exact h
  | commit s =>
    have hs := (inv_iff s).mp h
    simp only [RotateRace.step]
    split
    · rename_i m hplan hsent
      rw [inv_iff s]
      simpa using hs.commit hplan hsent fun hstands => hfair m hplan hstands.2
    · exact h
  | abort s =>
    have hs := (inv_iff s).mp h
    simp only [RotateRace.step]
    split
    · rename_i m hplan hsent
      rw [inv_iff s]
      simpa using hs.abort (m := m) hsent
    · exact h
  | deliver s i =>
    have hs := (inv_iff s).mp h
    simp only [RotateRace.step]
    split
    · rename_i m hm
      rw [inv_iff s]
      have hrest : ∀ n ∈ (r.flight s).eraseIdx i, n ∈ r.flight s := fun n hn =>
        List.mem_of_mem_eraseIdx hn
      have hleft : ∀ n ∈ r.flight s, n ∈ (r.flight s).eraseIdx i ∨ n = m := by
        intro n hn
        obtain ⟨j, hj⟩ := List.getElem?_of_mem hn
        by_cases hji : j = i
        · subst hji
          exact .inr (Option.mem_unique hj hm)
        · exact .inl (List.mem_eraseIdx_iff_getElem?.mpr ⟨j, hji, hj⟩)
      simpa using hs.hear (List.mem_of_getElem? hm) hrest hleft
        fun hlt hbeats => (hfair m hm hlt hbeats).2
    · exact h
  | idle => exact h

/-- Two sides never hold two keys of one epoch. -/
theorem RotateRace.Inv.agree (h : r.Inv) (hepoch : (r.side .left).epoch = (r.side .right).epoch) :
    (r.side .left).key = (r.side .right).key := by
  rcases h.leads with hl | hl
  · exact (hl.agree hepoch.symm).symm
  · exact hl.agree hepoch

/-- Nothing is on its way and no plan is open. -/
def RotateRace.Settled (r : RotateRace ι κ) : Prop :=
  ∀ s, r.flight s = [] ∧ (r.side s).plan = none

theorem RotateRace.Inv.settled (h : r.Inv) (hsettled : r.Settled) :
    (r.side .left).epoch = (r.side .right).epoch ∧ (r.side .left).key = (r.side .right).key := by
  have hway : ∀ s, Leads (r.side s) (r.side s.other) (r.flight s.other) →
      (r.side s.other).epoch = (r.side s).epoch := by
    intro s hl
    by_contra hne
    obtain ⟨m, -, -, hm | ⟨hstands, -⟩⟩ := hl.way (Nat.lt_of_le_of_ne hl.le hne)
    · simp [(hsettled s.other).1] at hm
    · cases (hsettled s.other).2.symm.trans hstands.1
  have hepoch : (r.side .left).epoch = (r.side .right).epoch := by
    rcases h.leads with hl | hl
    · exact (hway .left hl).symm
    · exact hway .right hl
  exact ⟨hepoch, h.agree hepoch⟩

/-- Two sides with one key, no plan and nothing on its way. -/
theorem RotateRace.inv_of_shared (hsettled : r.Settled) (hsent : ∀ s, (r.side s).sent = false)
    (hepoch : (r.side .left).epoch = (r.side .right).epoch)
    (hkey : (r.side .left).key = (r.side .right).key) : r.Inv := by
  have hhalf : ∀ s, HalfInv (r.side s) (r.side s.other) (r.flight s) := by
    intro s
    refine ⟨?_, fun _ => hsent s, ?_, ?_⟩
    · intro m hm
      cases (hsettled s).2.symm.trans hm
    · intro m hm
      simp [(hsettled s).1] at hm
    · intro m hm
      simp [(hsettled s).1] at hm
  refine ⟨hhalf .left, hhalf .right, ?_, .inl ⟨by omega, fun _ => hkey.symm, fun hlt => by omega⟩⟩
  intro m n hm
  cases (hsettled .left).2.symm.trans hm

end Run

end Pbr.Lib
