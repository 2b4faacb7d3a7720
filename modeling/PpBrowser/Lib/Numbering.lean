import Mathlib.Data.List.Nodup
import Mathlib.Data.List.Range

/-!
# Numbering — numbers handed out epoch by epoch

The numbers a counter has handed out, each with its epoch. A counter that
goes on in an epoch past every number handed out there repeats none; one that
does not gets to the number it repeats.
-/

namespace Pbr.Lib

variable {ε : Type} {handed : List (ε × Nat)} {epoch other : ε} {next number : Nat}

/-- Every number handed out in the epoch is before `next`. -/
def Ahead (handed : List (ε × Nat)) (epoch : ε) (next : Nat) : Prop :=
  ∀ number, (epoch, number) ∈ handed → number < next

instance [DecidableEq ε] : Decidable (Ahead handed epoch next) :=
  decidable_of_iff (∀ pair ∈ handed, pair.1 = epoch → pair.2 < next) <| by
    constructor
    · intro h number hmem
      exact h (epoch, number) hmem rfl
    · rintro h ⟨other, number⟩ hmem rfl
      exact h number hmem

/-- The next `count` numbers of an epoch, last first. -/
def further (epoch : ε) (next : Nat) : Nat → List (ε × Nat)
  | 0 => []
  | count + 1 => (epoch, next + count) :: further epoch next count

theorem Ahead.nil : Ahead ([] : List (ε × Nat)) epoch next := by
  intro number h
  cases h

theorem Ahead.notMem (h : Ahead handed epoch next) : (epoch, next) ∉ handed := by
  intro hmem
  exact absurd (h next hmem) (Nat.lt_irrefl next)

/-- A number handed out in any epoch leaves the count ahead, one further. -/
theorem Ahead.hand (h : Ahead handed epoch next) : Ahead ((other, next) :: handed) epoch (next + 1) := by
  intro number hmem
  rcases List.mem_cons.mp hmem with heq | hmem
  · obtain ⟨-, rfl⟩ := Prod.mk.inj heq
    exact Nat.lt_succ_self number
  · exact Nat.lt_succ_of_lt (h number hmem)

theorem Ahead.nodup (h : Ahead handed epoch next) (hnodup : handed.Nodup) : ((epoch, next) :: handed).Nodup :=
  List.nodup_cons.mpr ⟨h.notMem, hnodup⟩

theorem mem_further {count : Nat} :
    (other, number) ∈ further epoch next count ↔ other = epoch ∧ next ≤ number ∧ number < next + count := by
  induction count with
  | zero =>
    simp only [further, List.not_mem_nil, false_iff]
    omega
  | succ count ih =>
    simp only [further, List.mem_cons, Prod.mk.injEq, ih]
    constructor
    · rintro (⟨rfl, rfl⟩ | ⟨rfl, hle, hlt⟩)
      · exact ⟨rfl, by omega, by omega⟩
      · exact ⟨rfl, hle, by omega⟩
    · rintro ⟨rfl, hle, hlt⟩
      by_cases hlast : number = next + count
      · exact .inl ⟨rfl, hlast⟩
      · exact .inr ⟨rfl, hle, by omega⟩

theorem further_succ {count : Nat} :
    further epoch next (count + 1) = further epoch (next + 1) count ++ [(epoch, next)] := by
  induction count with
  | zero => rfl
  | succ count ih =>
    rw [further, ih, further, List.cons_append]
    congr 2
    omega

theorem Ahead.nodup_further (h : Ahead handed epoch next) (hnodup : handed.Nodup) (count : Nat) :
    (further epoch next count ++ handed).Nodup := by
  induction count with
  | zero => exact hnodup
  | succ count ih =>
    rw [further, List.cons_append, List.nodup_cons]
    refine ⟨?_, ih⟩
    rw [List.mem_append, mem_further]
    rintro (⟨-, -, hlt⟩ | hmem)
    · exact Nat.lt_irrefl _ hlt
    · have hbefore := h _ hmem
      omega

/-- A counter with distinct numbers behind it hands out none twice, however
far it goes below the limit, exactly if it is ahead. -/
theorem ahead_iff_nodup {limit : Nat} (hnodup : handed.Nodup)
    (hlimit : ∀ number, (epoch, number) ∈ handed → number < limit) :
    Ahead handed epoch next ↔ ∀ count, next + count ≤ limit → (further epoch next count ++ handed).Nodup := by
  constructor
  · intro h count _
    exact h.nodup_further hnodup count
  · intro h number hmem
    by_contra hle
    have hlt := hlimit number hmem
    have hboth := h (number - next + 1) (by omega)
    rw [List.nodup_append] at hboth
    have hfurther : (epoch, number) ∈ further epoch next (number - next + 1) :=
      mem_further.mpr ⟨rfl, by omega, by omega⟩
    exact hboth.2.2 _ hfurther _ hmem rfl

end Pbr.Lib
