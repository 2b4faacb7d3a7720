import Mathlib.Logic.Function.Basic
import PpBrowser.Lib.Runs
import PpBrowser.Lib.Sides

/-!
# OpenRace — two sides that each may open the session they share

A side without a session opens one when it writes, and attaches its opener
to every letter until it has heard the other under it. A letter under the
session held confirms it. One under another session is followed by its
opener, unless the side opened the one it holds, has not been heard under
it, and its id is lower; or unless the letter is not newer than what was
heard under the session held. Letters come in any order, late and again.

In every run the sides end on one session, every letter can be read when it
comes, and no letter of a session its writer has left moves the reader.
-/

namespace Pbr.Lib

/-- A session: the id of its opener, and its key. -/
structure Opening (ι κ : Type) where
  id : ι
  key : κ
  deriving DecidableEq

structure OpenSide (ι κ : Type) where
  session : Option (Opening ι κ) := none
  /-- The session was opened here, and the other side was not heard under
  it. -/
  pending : Bool := false
  /-- When the other side was last heard under the session, by its clock. -/
  heard : Option Int := none
  deriving DecidableEq

/-- A letter: the key it is sealed under, the opener attached, the writer's
time. -/
structure Letter (ι κ : Type) where
  key : κ
  opener : Option ι
  time : Int
  deriving DecidableEq

/-- Both sides, what each has written, and the places of the letters that
have reached each. -/
structure OpenRace (ι κ : Type) where
  side : Side → OpenSide ι κ
  sent : Side → List (Letter ι κ)
  arrived : Side → List Nat

inductive OpenEvent (ι κ : Type) where
  /-- `fresh` is the session opened if `s` has none. -/
  | send (s : Side) (fresh : Opening ι κ) (time : Int)
  /-- The letter at place `i` of those written to `s`. -/
  | deliver (s : Side) (i : Nat)
  | idle

variable {ι κ : Type}

/-- The later of two times. -/
def laterOf (heard : Option Int) (time : Int) : Option Int :=
  match heard with
  | some h => if time > h then some time else some h
  | none => some time

theorem laterOf_ge (heard : Option Int) (time : Int) : ∃ h, laterOf heard time = some h ∧ time ≤ h := by
  cases heard with
  | none => exact ⟨time, rfl, Int.le_refl _⟩
  | some h =>
    by_cases hlt : time > h
    · exact ⟨time, by simp [laterOf, hlt], Int.le_refl _⟩
    · exact ⟨h, by simp [laterOf, hlt], by omega⟩

namespace OpenSide

variable (d : OpenSide ι κ)

def confirm (time : Int) : OpenSide ι κ :=
  { d with pending := false, heard := laterOf d.heard time }

def adopt (c : Opening ι κ) (time : Int) : OpenSide ι κ :=
  { session := some c, pending := false, heard := some time }

/-- The other side has since been heard under the session held. -/
def HeardSince (time : Int) : Prop := ∃ h ∈ d.heard, time ≤ h

instance (time : Int) : Decidable (d.HeardSince time) :=
  inferInstanceAs (Decidable (∃ h ∈ d.heard, time ≤ h))

/-- What a letter under another session than `c`, which is held, leaves. -/
def follow [LT ι] [DecidableLT ι] [DecidableEq ι] (c : Opening ι κ) (m : Letter ι κ) :
    OpenSide ι κ :=
  match m.opener with
  | none => d
  | some id =>
    if id = c.id then { d with heard := laterOf d.heard m.time }
    else if d.pending = true ∧ c.id < id then d
    else if d.HeardSince m.time then d
    else adopt ⟨id, m.key⟩ m.time

def receive [LT ι] [DecidableLT ι] [DecidableEq ι] [DecidableEq κ] (m : Letter ι κ) :
    OpenSide ι κ :=
  match d.session with
  | none =>
    match m.opener with
    | none => d
    | some id => adopt ⟨id, m.key⟩ m.time
  | some c => if m.key = c.key then d.confirm m.time else d.follow c m

/-- The side once it has a session to write under. -/
def opened (fresh : Opening ι κ) : OpenSide ι κ :=
  match d.session with
  | none => { d with session := some fresh, pending := true }
  | some _ => d

/-- The letter written under the session held. -/
def letter (time : Int) : Option (Letter ι κ) :=
  d.session.map fun c => { key := c.key, opener := if d.pending then some c.id else none, time }

/-- A letter that can be read: under the session held, or by its opener. -/
def Reads (m : Letter ι κ) : Prop := (∃ c ∈ d.session, m.key = c.key) ∨ m.opener ≠ none

end OpenSide

/-! ## Runs -/

namespace OpenRace

def step [LT ι] [DecidableLT ι] [DecidableEq ι] [DecidableEq κ] (r : OpenRace ι κ) :
    OpenEvent ι κ → OpenRace ι κ
  | .send s fresh time =>
    let d := (r.side s).opened fresh
    { r with
      side := Function.update r.side s d
      sent := Function.update r.sent s (r.sent s ++ (d.letter time).toList) }
  | .deliver s i =>
    match (r.sent s.other)[i]? with
    | none => r
    | some m =>
      { r with
        side := Function.update r.side s ((r.side s).receive m)
        arrived := Function.update r.arrived s (i :: r.arrived s) }
  | .idle => r

/-- A writer's times increase, and a session opened is no other's. -/
def Proper (r : OpenRace ι κ) : OpenEvent ι κ → Prop
  | .send s fresh time =>
    (∀ m ∈ r.sent s, m.time < time) ∧
      ((r.side s).session = none → ∀ m ∈ r.sent s.other, m.key ≠ fresh.key ∧ m.opener ≠ some fresh.id)
  | _ => True

instance [DecidableEq ι] [DecidableEq κ] (r : OpenRace ι κ) : ∀ e, Decidable (r.Proper e)
  | .send s fresh time => inferInstanceAs (Decidable ((∀ m ∈ r.sent s, m.time < time) ∧
      ((r.side s).session = none →
        ∀ m ∈ r.sent s.other, m.key ≠ fresh.key ∧ m.opener ≠ some fresh.id)))
  | .deliver .. | .idle => inferInstanceAs (Decidable True)

/-- Every letter has reached the other side. -/
def Delivered (r : OpenRace ι κ) : Prop :=
  ∀ s, ∀ i < (r.sent s.other).length, i ∈ r.arrived s

end OpenRace

/-! ## What a run keeps -/

section Invariant

variable [LT ι] {d t : OpenSide ι κ} {od ot : Option (Opening ι κ)} {ld lt : List (Letter ι κ)}
  {ad at' : List Nat} {m n : Letter ι κ} {c : Opening ι κ} {i : Nat}

/-- A letter of `d`: under the session `d` opened, with its opener or to a
side that holds it; or under the other's, which `d` holds. -/
def Written (d t : OpenSide ι κ) (od ot : Option (Opening ι κ)) (m : Letter ι κ) : Prop :=
  (∃ c, od = some c ∧ m.key = c.key ∧
      (m.opener = some c.id ∨ (m.opener = none ∧ t.session = some c))) ∨
    ∃ c, ot = some c ∧ m.key = c.key ∧ m.opener = none ∧ d.session = some c

/-- What a letter that has reached `d` has done: `d` is on the session the
other side opened, or its own is lower; and a letter under its own has
confirmed it. -/
structure Heard (d : OpenSide ι κ) (od ot : Option (Opening ι κ)) (m : Letter ι κ) : Prop where
  theirs : ∀ c, ot = some c → m.key = c.key →
    d.session = some c ∨ ∃ c', od = some c' ∧ c'.id < c.id
  ours : ∀ c, od = some c → m.key = c.key → d.pending = false

/-- What is kept of one side: `od` and `ot` are the sessions `d` and `t` have
opened, `ld` and `lt` what they have written, `ad` the places in `lt` of what
has reached `d`. -/
structure HalfOpen (d t : OpenSide ι κ) (od ot : Option (Opening ι κ)) (ld lt : List (Letter ι κ))
    (ad : List Nat) : Prop where
  held : ∀ c, d.session = some c →
    od = some c ∨ (ot = some c ∧ d.pending = false ∧ ∀ c', od = some c' → c.id < c'.id)
  announced : ∀ c, od = some c → d.session ≠ none ∧ ∃ m ∈ ld, m.key = c.key ∧ m.opener = some c.id
  silent : d.session = none → ld = [] ∧ ad = [] ∧ d.heard = none
  waiting : d.pending = true → d.heard = none ∧ d.session ≠ none ∧ d.session = od
  confirmed : ∀ c, od = some c → d.session = some c → d.pending = false →
    t.session = some c ∧ ∃ h, d.heard = some h ∧ ∃ n ∈ lt, n.key = c.key ∧ n.time ≤ h
  written : ∀ m ∈ ld, Written d t od ot m
  ordered : ∀ c c', od = some c → ot = some c' → ∀ m ∈ ld, ∀ n ∈ ld,
    m.key = c.key → n.key = c'.key → m.time < n.time
  heard : ∀ i ∈ ad, ∃ m, lt[i]? = some m ∧ Heard d od ot m

structure PairOpen (d t : OpenSide ι κ) (od ot : Option (Opening ι κ)) (ld lt : List (Letter ι κ))
    (ad at' : List Nat) : Prop where
  here : HalfOpen d t od ot ld lt ad
  there : HalfOpen t d ot od lt ld at'
  apart : ∀ c c', od = some c → ot = some c' → c.key ≠ c'.key ∧ c.id ≠ c'.id

theorem PairOpen.symm (h : PairOpen d t od ot ld lt ad at') : PairOpen t d ot od lt ld at' ad where
  here := h.there
  there := h.here
  apart c c' hc hc' := (h.apart c' c hc' hc).imp Ne.symm Ne.symm

/-- A side that has opened none has written and heard nothing. -/
theorem HalfOpen.unopened (h : HalfOpen d t od ot ld lt ad) (hnone : d.session = none) : od = none := by
  by_contra hne
  obtain ⟨c, hc⟩ := Option.ne_none_iff_exists'.mp hne
  exact (h.announced c hc).1 hnone

/-- A session its opener has left was left for one of the other side. -/
theorem PairOpen.left (h : PairOpen d t od ot ld lt ad at') (hm : m ∈ lt) {id : ι}
    (hid : m.opener = some id) (hne : ∀ c, t.session = some c → c.id ≠ id) :
    ∃ c, t.session = some c ∧ m.key ≠ c.key ∧ d.session ≠ none := by
  have ht : t.session ≠ none := by
    intro hnone
    simp [(h.there.silent hnone).1] at hm
  obtain ⟨c, hc⟩ := Option.ne_none_iff_exists'.mp ht
  rcases h.there.written m hm with ⟨c', hot, hkey, hid' | ⟨hid', -⟩⟩ | ⟨_, -, -, hid', -⟩
  · obtain rfl : id = c'.id := Option.mem_unique hid hid'
    rcases h.there.held c hc with hot' | ⟨hod, -, -⟩
    · obtain rfl : c' = c := Option.mem_unique hot hot'
      exact absurd rfl (hne c' hc)
    · refine ⟨c, hc, ?_, (h.here.announced c hod).1⟩
      rw [hkey]
      exact (h.apart c c' hod hot).1.symm
  · simp [hid] at hid'
  · simp [hid] at hid'

/-! ### One step keeps it -/

section

variable (h : PairOpen d t od ot ld lt ad at')
include h

theorem PairOpen.adopt (hi : lt[i]? = some m)
    (hot : ot = some c) (hlow : ∀ c', od = some c' → c.id < c'.id) :
    PairOpen (OpenSide.adopt c m.time) t od ot ld lt (i :: ad) at' where
  here.held c' hc' := by
    obtain rfl : c = c' := by simpa [OpenSide.adopt] using hc'
    exact .inr ⟨hot, rfl, hlow⟩
  here.announced c' hc' := ⟨by simp [OpenSide.adopt], (h.here.announced c' hc').2⟩
  here.silent hnone := by simp [OpenSide.adopt] at hnone
  here.waiting hp := by simp [OpenSide.adopt] at hp
  here.confirmed c' hod hc' _ := by
    obtain rfl : c = c' := by simpa [OpenSide.adopt] using hc'
    exact absurd rfl (h.apart c c hod hot).1
  here.written n hn := by
    rcases h.here.written n hn with hw | ⟨c', hot', hkey, hid, -⟩
    · exact .inl hw
    · obtain rfl : c = c' := Option.mem_unique hot hot'
      exact .inr ⟨c, hot, hkey, hid, rfl⟩
  here.ordered := h.here.ordered
  here.heard j hj := by
    have hall : ∀ n, Heard (OpenSide.adopt c m.time) od ot n := fun n =>
      { theirs := fun c' hot' _ => .inl (hot.symm.trans hot')
        ours := fun _ _ _ => rfl }
    rcases List.mem_cons.mp hj with rfl | hj
    · exact ⟨m, hi, hall m⟩
    · obtain ⟨n, hn, -⟩ := h.here.heard j hj
      exact ⟨n, hn, hall n⟩
  there.held := h.there.held
  there.announced := h.there.announced
  there.silent := h.there.silent
  there.waiting := h.there.waiting
  there.confirmed c' hot' ht hp := ⟨hot.symm.trans hot', (h.there.confirmed c' hot' ht hp).2⟩
  there.written n hn := by
    rcases h.there.written n hn with ⟨c', hot', hkey, hid | ⟨hid, -⟩⟩ | hw
    · exact .inl ⟨c', hot', hkey, .inl hid⟩
    · exact .inl ⟨c', hot', hkey, .inr ⟨hid, hot.symm.trans hot'⟩⟩
    · exact .inr hw
  there.ordered := h.there.ordered
  there.heard := h.there.heard
  apart := h.apart

theorem PairOpen.confirm (hi : lt[i]? = some m) (hd : d.session = some c) (hkey : m.key = c.key) :
    PairOpen (d.confirm m.time) t od ot ld lt (i :: ad) at' where
  here.held c' hc' := by
    rcases h.here.held c' hc' with hod | ⟨hot, -, hlow⟩
    · exact .inl hod
    · exact .inr ⟨hot, rfl, hlow⟩
  here.announced := h.here.announced
  here.silent hnone := by simp [OpenSide.confirm, hd] at hnone
  here.waiting hp := by simp [OpenSide.confirm] at hp
  here.confirmed c' hod hc' _ := by
    obtain rfl : c = c' := Option.mem_unique hd hc'
    have ht : t.session = some c := by
      rcases h.there.written m (List.mem_of_getElem? hi) with ⟨c₁, hot, hkey', -⟩ | ⟨c₁, hod', -, -, ht⟩
      · exact absurd (hkey.symm.trans hkey') (h.apart c c₁ hod hot).1
      · exact ht.trans (hod'.symm.trans hod)
    obtain ⟨t₀, hlater, hle⟩ := laterOf_ge d.heard m.time
    exact ⟨ht, t₀, hlater, m, List.mem_of_getElem? hi, hkey, hle⟩
  here.written := h.here.written
  here.ordered := h.here.ordered
  here.heard j hj := by
    rcases List.mem_cons.mp hj with rfl | hj
    · refine ⟨m, hi, ?_, fun _ _ _ => rfl⟩
      intro c' hot hkey'
      rcases h.here.held c hd with hod | ⟨hot', -, -⟩
      · exact absurd (hkey.symm.trans hkey') (h.apart c c' hod hot).1
      · exact .inl (hd.trans (hot'.symm.trans hot))
    · obtain ⟨n, hn, hheard⟩ := h.here.heard j hj
      exact ⟨n, hn, hheard.theirs, fun _ _ _ => rfl⟩
  there.held := h.there.held
  there.announced := h.there.announced
  there.silent := h.there.silent
  there.waiting := h.there.waiting
  there.confirmed := h.there.confirmed
  there.written := h.there.written
  there.ordered := h.there.ordered
  there.heard := h.there.heard
  apart := h.apart

theorem PairOpen.keep (hi : lt[i]? = some m)
    {c' : Opening ι κ} (hod : od = some c) (hot : ot = some c') (hkey : m.key = c'.key)
    (hlt : c.id < c'.id) : PairOpen d t od ot ld lt (i :: ad) at' where
  here.held := h.here.held
  here.announced := h.here.announced
  here.silent hnone := by simp [h.here.unopened hnone] at hod
  here.waiting := h.here.waiting
  here.confirmed := h.here.confirmed
  here.written := h.here.written
  here.ordered := h.here.ordered
  here.heard j hj := by
    rcases List.mem_cons.mp hj with rfl | hj
    · refine ⟨m, hi, ?_, ?_⟩
      · intro c₁ hot' _
        obtain rfl : c' = c₁ := Option.mem_unique hot hot'
        exact .inr ⟨c, hod, hlt⟩
      · intro c₁ hod' hkey'
        exact absurd (hkey'.symm.trans hkey) (h.apart c₁ c' hod' hot).1
    · exact h.here.heard j hj
  there := h.there
  apart := h.apart

/-- Writing without a session opens one, which is announced. -/
theorem PairOpen.openSend (hd : d.session = none)
    {fresh : Opening ι κ} (hfresh : ∀ m ∈ lt, m.key ≠ fresh.key ∧ m.opener ≠ some fresh.id)
    {time : Int} (hm : m = { key := fresh.key, opener := some fresh.id, time }) :
    PairOpen { d with session := some fresh, pending := true } t (some fresh) ot (ld ++ [m]) lt
      ad at' := by
  obtain ⟨rfl, rfl, hheard⟩ := h.here.silent hd
  obtain rfl : od = none := h.here.unopened hd
  -- what the other side has written is under the session it opened
  have htheirs : ∀ n ∈ lt, n.key ≠ fresh.key := fun n hn => (hfresh n hn).1
  exact {
    here.held := fun c hc => .inl hc
    here.announced := fun c hc => by
      obtain rfl : fresh = c := Option.some.inj hc
      exact ⟨by simp, m, by simp, by simp [hm], by simp [hm]⟩
    here.silent := fun hnone => by simp at hnone
    here.waiting := fun _ => ⟨hheard, by simp, rfl⟩
    here.confirmed := fun c _ _ hp => by simp at hp
    here.written := fun n hn => by
      obtain rfl : n = m := by simpa using hn
      exact .inl ⟨fresh, rfl, by simp [hm], .inl (by simp [hm])⟩
    here.ordered := fun c c' hc hc' n hn n' hn' hkey hkey' => by
      obtain rfl : n = m := by simpa using hn
      obtain rfl : n' = n := by simpa using hn'
      obtain ⟨-, n₀, hn₀, hkey₀, -⟩ := h.there.announced c' hc'
      exact absurd (hkey₀.trans (hkey'.symm.trans (by simp [hm]))) (htheirs n₀ hn₀)
    here.heard := fun j hj => by simp at hj
    there.held := fun c hc => by
      rcases h.there.held c hc with hot | ⟨hnone, -⟩
      · exact .inl hot
      · simp at hnone
    there.announced := h.there.announced
    there.silent := h.there.silent
    there.waiting := h.there.waiting
    there.confirmed := fun c hot ht hp => by
      have := (h.there.confirmed c hot ht hp).1
      simp [hd] at this
    there.written := fun n hn => by
      rcases h.there.written n hn with ⟨c, hot, hkey, hid | ⟨-, hdc⟩⟩ | ⟨c, hnone, -⟩
      · exact .inl ⟨c, hot, hkey, .inl hid⟩
      · simp [hd] at hdc
      · simp at hnone
    there.ordered := fun c c' _ hc' _ _ n' hn' _ hkey' => by
      obtain rfl : fresh = c' := Option.some.inj hc'
      exact absurd hkey' (htheirs n' hn')
    there.heard := fun j hj => by
      obtain ⟨n, hn, -⟩ := h.there.heard j hj
      simp at hn
    apart := fun c c' hc hc' => by
      obtain rfl : fresh = c := Option.some.inj hc
      obtain ⟨-, n, hn, hkey, hid⟩ := h.there.announced c' hc'
      obtain ⟨hk, hi⟩ := hfresh n hn
      exact ⟨fun heq => hk (hkey.trans heq.symm), fun heq => hi (by rw [hid, heq])⟩ }

theorem PairOpen.heldSend (hd : d.session = some c) {time : Int} (htime : ∀ m ∈ ld, m.time < time)
    (hm : m = { key := c.key, opener := if d.pending then some c.id else none, time }) :
    PairOpen d t od ot (ld ++ [m]) lt ad at' where
  here.held := h.here.held
  here.announced c' hc' := by
    obtain ⟨hne, n, hn, hkey⟩ := h.here.announced c' hc'
    exact ⟨hne, n, List.mem_append_left _ hn, hkey⟩
  here.silent hnone := by simp [hd] at hnone
  here.waiting := h.here.waiting
  here.confirmed := h.here.confirmed
  here.written n hn := by
    rcases List.mem_append.mp hn with hn | hn
    · exact h.here.written n hn
    · obtain rfl : n = m := by simpa using hn
      rcases h.here.held c hd with hod | ⟨hot, hp, -⟩
      · cases hp : d.pending with
        | true => exact .inl ⟨c, hod, by simp [hm], .inl (by simp [hm, hp])⟩
        | false =>
          have ht : t.session = some c := (h.here.confirmed c hod hd hp).1
          exact .inl ⟨c, hod, by simp [hm], .inr ⟨by simp [hm, hp], ht⟩⟩
      · exact .inr ⟨c, hot, by simp [hm], by simp [hm, hp], hd⟩
  here.ordered c₀ c' hc₀ hc' n hn n' hn' hkey hkey' := by
    have hne : c₀.key ≠ c'.key := (h.apart c₀ c' hc₀ hc').1
    rcases List.mem_append.mp hn with hold | hn
    · rcases List.mem_append.mp hn' with hn' | hn'
      · exact h.here.ordered c₀ c' hc₀ hc' n hold n' hn' hkey hkey'
      · obtain rfl : n' = m := by simpa using hn'
        simpa [hm] using htime n hold
    · obtain rfl : n = m := by simpa using hn
      have hown : c.key = c₀.key := by simpa [hm] using hkey
      rcases List.mem_append.mp hn' with hn' | hn'
      · -- a letter under theirs was written by a side that had moved there
        rcases h.here.written n' hn' with ⟨c₁, hod, hkey₁, -⟩ | ⟨c₁, hot, hkey₁, -, hd₁⟩
        · obtain rfl : c₀ = c₁ := Option.some.inj (hc₀.symm.trans hod)
          exact absurd (hkey₁.symm.trans hkey') hne
        · obtain rfl : c = c₁ := Option.some.inj (hd.symm.trans hd₁)
          exact absurd (hown.symm.trans (hkey₁.symm.trans hkey')) hne
      · obtain rfl : n' = n := by simpa using hn'
        exact absurd (hkey.symm.trans hkey') hne
  here.heard := h.here.heard
  there.held := h.there.held
  there.announced := h.there.announced
  there.silent := h.there.silent
  there.waiting := h.there.waiting
  there.confirmed c' hot ht hp := by
    obtain ⟨hdc, t₀, hheard, n, hn, hkey⟩ := h.there.confirmed c' hot ht hp
    exact ⟨hdc, t₀, hheard, n, List.mem_append_left _ hn, hkey⟩
  there.written := h.there.written
  there.ordered := h.there.ordered
  there.heard j hj := by
    obtain ⟨n, hn, hheard⟩ := h.there.heard j hj
    exact ⟨n, by rw [List.getElem?_append_left (List.getElem?_eq_some_iff.mp hn).1]; exact hn, hheard⟩
  apart := h.apart

end

/-! ## The race -/

namespace OpenRace

variable {r : OpenRace ι κ} {s : Side}

/-- Some sessions have been opened, and both sides are as they should be. -/
def Inv (r : OpenRace ι κ) : Prop :=
  ∃ o : Side → Option (Opening ι κ), ∀ s,
    PairOpen (r.side s) (r.side s.other) (o s) (o s.other) (r.sent s) (r.sent s.other) (r.arrived s)
      (r.arrived s.other)

theorem inv_of_pair (o : Side → Option (Opening ι κ))
    (h : PairOpen (r.side s) (r.side s.other) (o s) (o s.other) (r.sent s) (r.sent s.other)
      (r.arrived s) (r.arrived s.other)) : Inv r := by
  refine ⟨o, fun s' => ?_⟩
  rcases s.eq_or_eq_other s' with rfl | rfl
  · exact h
  · simpa using h.symm

theorem inv_start (hside : ∀ s, (r.side s).session = none ∧ (r.side s).pending = false ∧
    (r.side s).heard = none) (hsent : ∀ s, r.sent s = []) (harrived : ∀ s, r.arrived s = []) :
    Inv r := by
  refine ⟨fun _ => none, fun s => ?_⟩
  have hhalf : ∀ s, HalfOpen (r.side s) (r.side s.other) none none (r.sent s) (r.sent s.other)
      (r.arrived s) := fun s =>
    { held := fun c hc => by simp [hside s] at hc
      announced := fun c hc => by simp at hc
      silent := fun _ => ⟨hsent s, harrived s, (hside s).2.2⟩
      waiting := fun hp => by simp [hside s] at hp
      confirmed := fun c hc => by simp at hc
      written := fun m hm => by simp [hsent s] at hm
      ordered := fun c _ hc => by simp at hc
      heard := fun i hi => by simp [harrived s] at hi }
  exact ⟨hhalf s, by simpa using hhalf s.other, fun c _ hc => by simp at hc⟩

/-! ### After the sides have agreed -/

/-- Both hold `c`, every letter from place `base` on is under it, and where
one of these has arrived no opener is pending. -/
structure Since (c : Opening ι κ) (base : Side → Nat) (r : OpenRace ι κ) : Prop where
  inv : Inv r
  session : ∀ s, (r.side s).session = some c
  under : ∀ s, ∀ i ≥ base s, ∀ m, (r.sent s)[i]? = some m → m.key = c.key
  settled : ∀ s, ∀ i ∈ r.arrived s, base s.other ≤ i → (r.side s).pending = false

theorem Inv.since (h : Inv r) (hc : ∀ s, (r.side s).session = some c) : Since c (fun s => (r.sent s).length) r where
  inv := h
  session := hc
  under s i hi m hm := by
    have hlt : i < (r.sent s).length := (List.getElem?_eq_some_iff.mp hm).1
    omega
  settled s i hi hle := by
    obtain ⟨o, h⟩ := h
    obtain ⟨m, hm, -⟩ := (h s).here.heard i hi
    have hlt : i < (r.sent s.other).length := (List.getElem?_eq_some_iff.mp hm).1
    omega

end OpenRace

variable [Std.Asymm fun a b : ι => a < b]

section

variable (h : PairOpen d t od ot ld lt ad at')
include h

/-- The side whose session the other has adopted holds it. -/
theorem PairOpen.home (hot : ot = some c) (hd : d.session = some c) : t.session = some c := by
  obtain ⟨c', hc'⟩ := Option.ne_none_iff_exists'.mp (h.there.announced c hot).1
  rcases h.there.held c' hc' with ht | ⟨ho, -, hlt⟩
  · exact hc'.trans (ht.symm.trans hot)
  · -- then both would be the lower
    have hlt : c'.id < c.id := hlt c hot
    rcases h.here.held c hd with hown | ⟨-, -, hgt⟩
    · exact absurd rfl (h.apart c c hown hot).1
    · exact absurd hlt (Std.Asymm.asymm _ _ (hgt c' ho))

/-- A letter that has been written can be read, whenever it comes. -/
theorem PairOpen.reads (hm : m ∈ lt) : d.Reads m := by
  rcases h.there.written m hm with ⟨c, -, hkey, hid | ⟨-, hd⟩⟩ | ⟨c, hod, hkey, -, ht⟩
  · exact .inr (by simp [hid])
  · exact .inl ⟨c, hd, hkey⟩
  · exact .inl ⟨c, h.symm.home hod ht, hkey⟩

/-- A letter the holder of another session gets is one of the session its
writer has opened, with the opener. -/
theorem PairOpen.foreign (hm : m ∈ lt) (hd : ∀ c, d.session = some c → m.key ≠ c.key) :
    ∃ c, ot = some c ∧ m.key = c.key ∧ m.opener = some c.id := by
  rcases h.there.written m hm with ⟨c, hot, hkey, hid | ⟨-, hdc⟩⟩ | ⟨c, hod, hkey, -, ht⟩
  · exact ⟨c, hot, hkey, hid⟩
  · exact absurd hkey (hd c hdc)
  · exact absurd hkey (hd c (h.symm.home hod ht))

/-- Once both have been heard from, they hold one session. -/
theorem PairOpen.agree {cd ct : Opening ι κ}
    (hd : d.session = some cd) (ht : t.session = some ct) (had : ∀ i < lt.length, i ∈ ad)
    (hat : ∀ i < ld.length, i ∈ at') : cd = ct := by
  rcases h.here.held cd hd with hod | ⟨hot, -, -⟩
  · rcases h.there.held ct ht with hot | ⟨hod', -, -⟩
    · -- each has announced its own to the other
      have hopened : ∀ {d t : OpenSide ι κ} {od ot ld lt ad at'} {cd ct : Opening ι κ},
          PairOpen d t od ot ld lt ad at' → d.session = some cd → od = some cd → ot = some ct →
            (∀ i < lt.length, i ∈ ad) → cd = ct ∨ cd.id < ct.id := by
        intro d t od ot ld lt ad at' cd ct h hd hod hot had
        obtain ⟨-, n, hn, hkey, -⟩ := h.there.announced ct hot
        obtain ⟨i, hi, hin⟩ := List.mem_iff_getElem.mp hn
        obtain ⟨n', hn', hheard⟩ := h.here.heard i (had i hi)
        obtain rfl : n' = n := by simpa [List.getElem?_eq_getElem hi, hin] using hn'.symm
        rcases hheard.theirs ct hot hkey with hd' | ⟨c, hod', hlt⟩
        · exact .inl (Option.mem_unique hd hd')
        · obtain rfl : cd = c := Option.mem_unique hod hod'
          exact .inr hlt
      rcases hopened h hd hod hot had with heq | hlt
      · exact heq
      · rcases hopened h.symm ht hot hod hat with heq | hgt
        · exact heq.symm
        · exact absurd hgt (Std.Asymm.asymm _ _ hlt)
    · exact Option.some.inj (hd.symm.trans (h.symm.home hod' ht))
  · exact Option.some.inj ((h.home hot hd).symm.trans ht)

end

namespace OpenRace

variable {r : OpenRace ι κ} {s : Side}

theorem Inv.reads (h : Inv r) (hm : m ∈ r.sent s.other) : (r.side s).Reads m := by
  obtain ⟨o, h⟩ := h
  exact (h s).reads hm

/-- The sides hold one session once all that was written has arrived. -/
theorem Inv.agree (h : Inv r) (hall : r.Delivered) (hsome : ∃ s, r.sent s ≠ []) :
    ∃ c, ∀ s, (r.side s).session = some c := by
  obtain ⟨o, h⟩ := h
  obtain ⟨s, hs⟩ := hsome
  have hd : (r.side s).session ≠ none := fun hnone => hs ((h s).here.silent hnone).1
  have ht : (r.side s.other).session ≠ none := by
    intro hnone
    have harrived : 0 ∈ r.arrived s.other := hall s.other 0 (by simpa using List.length_pos_iff.mpr hs)
    simp [((h s).there.silent hnone).2.1] at harrived
  obtain ⟨cd, hcd⟩ := Option.ne_none_iff_exists'.mp hd
  obtain ⟨ct, hct⟩ := Option.ne_none_iff_exists'.mp ht
  obtain rfl : cd = ct := (h s).agree hcd hct (hall s) (by simpa using hall s.other)
  refine ⟨cd, fun s' => ?_⟩
  rcases s.eq_or_eq_other s' with rfl | rfl
  · exact hcd
  · exact hct

end OpenRace

variable [DecidableLT ι] [Std.Trichotomous fun a b : ι => a < b] [DecidableEq ι] [DecidableEq κ]

/-- What a letter does: the writer's session is adopted, the lower of the two
if both have opened one; or the one held is confirmed; or a side stays on its
own, which is the lower. -/
theorem PairOpen.receive_cases (h : PairOpen d t od ot ld lt ad at') (hm : m ∈ lt) :
    (∃ c, ot = some c ∧ m.key = c.key ∧ (∀ c', od = some c' → c.id < c'.id) ∧ d.receive m = OpenSide.adopt c m.time) ∨
      (∃ c, d.session = some c ∧ m.key = c.key ∧ d.receive m = d.confirm m.time) ∨
        ∃ c c', od = some c ∧ ot = some c' ∧ d.session = some c ∧ m.key = c'.key ∧ c.id < c'.id ∧
          d.receive m = d := by
  cases hd : d.session with
  | none =>
    obtain ⟨c, hot, hkey, hid⟩ := h.foreign hm (by simp [hd])
    have hod : od = none := h.here.unopened hd
    exact .inl ⟨c, hot, hkey, by simp [hod], by
      show OpenSide.receive d m = _
      simp only [OpenSide.receive, hd, hid, hkey]⟩
  | some c =>
    by_cases hkey : m.key = c.key
    · exact .inr (.inl ⟨c, rfl, hkey, by simp [OpenSide.receive, hd, hkey]⟩)
    · obtain ⟨c', hot, hkey', hid⟩ := h.foreign hm (by simpa [hd] using hkey)
      -- the session held is not the writer's, so it was opened here
      have hod : od = some c := by
        rcases h.here.held c hd with hod | ⟨hot', -, -⟩
        · exact hod
        · obtain rfl : c' = c := Option.mem_unique hot hot'
          exact absurd hkey' hkey
      have hne : c'.id ≠ c.id := (h.apart c c' hod hot).2.symm
      have hreceive : d.receive m = d.follow c m := by simp [OpenSide.receive, hd, hkey]
      by_cases hlt : c.id < c'.id
      · -- the lower of the two stays, pending or confirmed
        refine .inr (.inr ⟨c, c', hod, hot, rfl, hkey', hlt, ?_⟩)
        by_cases hp : d.pending = true
        · simp [hreceive, OpenSide.follow, hid, hne, hp, hlt]
        · obtain ⟨-, t₀, hheard, n, hn, hnkey, hle⟩ := h.here.confirmed c hod hd (by simpa using hp)
          have hbefore : m.time < n.time := h.there.ordered c' c hot hod m hm n hn hkey' hnkey
          have hsince : d.HeardSince m.time := ⟨t₀, hheard, by omega⟩
          simp [hreceive, OpenSide.follow, hid, hne, hp, hsince]
      · -- the higher waits unheard, or the lower would not have been opened
        have hgt : c'.id < c.id := by
          by_contra hgt
          exact hne (Std.Trichotomous.trichotomous (r := fun a b : ι => a < b) _ _ hgt hlt)
        by_cases hp : d.pending = true
        · have hheard : d.heard = none := (h.here.waiting hp).1
          refine .inl ⟨c', hot, hkey', ?_, ?_⟩
          · intro c₀ hc₀
            obtain rfl : c = c₀ := Option.some.inj (hod.symm.trans hc₀)
            exact hgt
          · simp [hreceive, OpenSide.follow, hid, hne, hlt, OpenSide.HeardSince, hheard, hkey']
        · obtain ⟨ht, -⟩ := h.here.confirmed c hod hd (by simpa using hp)
          rcases h.there.held c ht with hot' | ⟨-, -, hlow⟩
          · exact absurd rfl ((h.apart c c hod hot').1)
          · exact absurd (hlow c' hot) hlt

/-- A letter of a session its writer has left moves nobody. -/
theorem PairOpen.receive_session (h : PairOpen d t od ot ld lt ad at') (hm : m ∈ lt)
    (ht : t.session = some c) (hkey : m.key ≠ c.key) : (d.receive m).session = d.session := by
  rcases h.receive_cases hm with ⟨c', hot, hkey', hlow, hr⟩ | ⟨c', -, -, hr⟩ | ⟨_, _, -, -, -, -, -, hr⟩
  · rcases h.there.held c ht with hot' | ⟨hod, -, hlow'⟩
    · obtain rfl : c' = c := Option.mem_unique hot hot'
      exact absurd hkey' hkey
    · exact absurd (hlow c hod) (Std.Asymm.asymm _ _ (hlow' c' hot))
  · rw [hr]
    rfl
  · rw [hr]

theorem PairOpen.receive (h : PairOpen d t od ot ld lt ad at') (hi : lt[i]? = some m) :
    PairOpen (d.receive m) t od ot ld lt (i :: ad) at' := by
  rcases h.receive_cases (List.mem_of_getElem? hi) with
    ⟨c, hot, -, hlow, hr⟩ | ⟨c, hd, hkey, hr⟩ | ⟨c, c', hod, hot, -, hkey, hlt, hr⟩
  · rw [hr]
    exact h.adopt hi hot hlow
  · rw [hr]
    exact h.confirm hi hd hkey
  · rw [hr]
    exact h.keep hi hod hot hkey hlt

namespace OpenRace

variable {r : OpenRace ι κ} {s : Side} {e : OpenEvent ι κ}

theorem Inv.step (h : Inv r) (hp : r.Proper e) : Inv (r.step e) := by
  obtain ⟨o, h⟩ := h
  cases e with
  | send s fresh time =>
    obtain ⟨htime, hfresh⟩ := hp
    cases hd : (r.side s).session with
    | none =>
      apply inv_of_pair (s := s) (Function.update o s (some fresh))
      simpa [OpenRace.step, OpenSide.opened, OpenSide.letter, hd] using
        (h s).openSend hd (hfresh hd) rfl
    | some c =>
      apply inv_of_pair (s := s) o
      simpa [OpenRace.step, OpenSide.opened, OpenSide.letter, hd] using (h s).heldSend hd htime rfl
  | deliver s i =>
    cases hi : (r.sent s.other)[i]? with
    | none => exact ⟨o, by simpa [OpenRace.step, hi] using h⟩
    | some m =>
      apply inv_of_pair (s := s) o
      simpa [OpenRace.step, hi] using (h s).receive hi
  | idle => exact ⟨o, h⟩

/-- A letter that does not open the session its writer is on moves nobody. -/
theorem Inv.receive_left (h : Inv r) (hm : m ∈ r.sent s.other) {id : ι} (hid : m.opener = some id)
    (hne : ∀ c, (r.side s.other).session = some c → c.id ≠ id) :
    ∃ c, (r.side s).session = some c ∧ ((r.side s).receive m).session = some c := by
  obtain ⟨o, h⟩ := h
  obtain ⟨c, hc, hkey, hd⟩ := (h s).left hm hid hne
  obtain ⟨cd, hcd⟩ := Option.ne_none_iff_exists'.mp hd
  exact ⟨cd, hcd, ((h s).receive_session hm hc hkey).trans hcd⟩

/-- A letter of a session its writer has left does not move its reader. -/
theorem Inv.receive_session (h : Inv r) (hm : m ∈ r.sent s.other)
    (hc : (r.side s.other).session = some c) (hkey : m.key ≠ c.key) :
    ((r.side s).receive m).session = (r.side s).session := by
  obtain ⟨o, h⟩ := h
  exact (h s).receive_session hm hc hkey

omit [Std.Asymm fun a b : ι => a < b] [Std.Trichotomous fun a b : ι => a < b] in
/-- Only a side that has no session comes to have an opener pending. -/
theorem receive_pending (hp : d.pending = false) : (d.receive m).pending = false := by
  cases hd : d.session with
  | none => cases hm : m.opener <;> simp [OpenSide.receive, hd, hm, hp, OpenSide.adopt]
  | some c =>
    by_cases hkey : m.key = c.key
    · simp [OpenSide.receive, hd, hkey, OpenSide.confirm]
    · cases hm : m.opener with
      | none => simpa [OpenSide.receive, hd, hkey, OpenSide.follow, hm] using hp
      | some id =>
        simp only [OpenSide.receive, hd, hkey, OpenSide.follow, hm, if_false]
        split_ifs
        · exact hp
        · exact hp
        · exact hp
        · rfl

theorem Since.step {base : Side → Nat} (h : Since c base r) (hp : r.Proper e) : Since c base (r.step e) where
  inv := h.inv.step hp
  session s' := by
    cases e with
    | send s fresh time =>
      rcases s.eq_or_eq_other s' with rfl | rfl
      · simp [OpenRace.step, OpenSide.opened, h.session]
      · simp [OpenRace.step, h.session]
    | deliver s i =>
      cases hi : (r.sent s.other)[i]? with
      | none => simp [OpenRace.step, hi, h.session]
      | some m =>
        rcases s.eq_or_eq_other s' with rfl | rfl
        · have hm : m ∈ r.sent s'.other := List.mem_of_getElem? hi
          by_cases hkey : m.key = c.key
          · simp [OpenRace.step, hi, OpenSide.receive, h.session, hkey, OpenSide.confirm]
          · simp [OpenRace.step, hi, h.inv.receive_session hm (h.session _) hkey, h.session]
        · simp [OpenRace.step, hi, h.session]
    | idle => exact h.session s'
  under s' i hle m hm := by
    cases e with
    | send s fresh time =>
      rcases s.eq_or_eq_other s' with rfl | rfl
      · have hm : (r.sent s' ++
            [{ key := c.key, opener := if (r.side s').pending then some c.id else none, time }])[i]?
              = some m := by
          simpa [OpenRace.step, OpenSide.opened, OpenSide.letter, h.session] using hm
        by_cases hlt : i < (r.sent s').length
        · exact h.under s' i hle m (by rwa [List.getElem?_append_left hlt] at hm)
        · rw [List.getElem?_append_right (by omega)] at hm
          rw [List.mem_singleton.mp (List.mem_of_getElem? hm)]
      · exact h.under _ i hle m (by simpa [OpenRace.step] using hm)
    | deliver s j =>
      have hsent : (r.step (.deliver s j)).sent = r.sent := by
        cases hj : (r.sent s.other)[j]? <;> simp [OpenRace.step, hj]
      exact h.under s' i hle m (by rwa [hsent] at hm)
    | idle => exact h.under s' i hle m hm
  settled s' i hi hle := by
    cases e with
    | send s fresh time =>
      have hside : ((r.step (.send s fresh time)).side s').pending = (r.side s').pending := by
        rcases s.eq_or_eq_other s' with rfl | rfl
        · simp [OpenRace.step, OpenSide.opened, h.session]
        · simp [OpenRace.step]
      rw [hside]
      exact h.settled s' i hi hle
    | deliver s j =>
      cases hj : (r.sent s.other)[j]? with
      | none =>
        simp only [OpenRace.step, hj] at hi ⊢
        exact h.settled s' i hi hle
      | some m =>
        rcases s.eq_or_eq_other s' with rfl | rfl
        · have hi : i = j ∨ i ∈ r.arrived s' := by simpa [OpenRace.step, hj] using hi
          simp only [OpenRace.step, hj, Function.update_self]
          rcases hi with rfl | hi
          · have hkey : m.key = c.key := h.under s'.other i hle m hj
            simp [OpenSide.receive, h.session, hkey, OpenSide.confirm]
          · exact receive_pending (h.settled s' i hi hle)
        · have hi : i ∈ r.arrived s.other := by simpa [OpenRace.step, hj] using hi
          simpa [OpenRace.step, hj] using h.settled _ i hi hle
    | idle => exact h.settled s' i hi hle

end OpenRace

end Invariant

end Pbr.Lib
