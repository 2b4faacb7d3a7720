import Mathlib.Algebra.Group.Int.Defs
import Mathlib.Algebra.GroupWithZero.Nat

/-!
# Words — results, bytes and machine words

What every capability is written with: `Roe`, byte vectors and the sums of
the fixed-width integers, whose values are `Nat`s.
-/

namespace Pbr

/-- `Roe<T>`: a value or an error text. -/
abbrev Roe (α : Type) := Except String α

variable {α β : Type}

theorem roe_bind_ok {x : Roe α} {f : α → Roe β} {b : β} : (x >>= f) = .ok b ↔ ∃ a, x = .ok a ∧ f a = .ok b := by
  cases x with
  | error e | ok a => simp [bind, Except.bind]

@[simp] theorem roe_ok_bind {a : α} {f : α → Roe β} : ((.ok a : Roe α) >>= f) = f a := rfl

@[simp] theorem roe_error_bind {e : String} {f : α → Roe β} : ((.error e : Roe α) >>= f) = .error e := rfl

@[simp] theorem roe_pure {a : α} : (pure a : Roe α) = .ok a := rfl

@[simp] theorem roe_throw {e : String} : (throw e : Roe α) = .error e := rfl

/-- Refuses with the text if it must. -/
def refuseIf (refused : Prop) [Decidable refused] (text : String) : Roe Unit := if refused then .error text else .ok ()

theorem refuseIf_ok {p : Prop} [Decidable p] {text : String} : refuseIf p text = .ok () ↔ ¬ p := by
  unfold refuseIf
  by_cases h : p <;> simp [h]

theorem refuseIf_bind_ok {α : Type} {p : Prop} [Decidable p] {text : String} {f : Unit → Roe α} {a : α} :
    (refuseIf p text >>= f) = .ok a ↔ ¬ p ∧ f () = .ok a := by
  unfold refuseIf
  by_cases h : p <;> simp [h]

theorem roe_then_ok {α : Type} {x : Roe Unit} {y : Roe α} {a : α} :
    (x >>= fun _ => y) = .ok a ↔ x = .ok () ∧ y = .ok a := by
  rw [roe_bind_ok]
  exact ⟨fun ⟨_, hx, hy⟩ => ⟨hx, hy⟩, fun ⟨hx, hy⟩ => ⟨(), hx, hy⟩⟩

theorem roe_forM_ok {α : Type} {l : List α} {check : α → Roe Unit} :
    l.forM check = .ok () ↔ ∀ a ∈ l, check a = .ok () := by
  induction l with
  | nil => simp [List.forM, pure, Except.pure]
  | cons a l ih =>
    rw [List.forM, roe_bind_ok, List.forall_mem_cons, ← ih]
    constructor
    · intro ⟨_, hfirst, hrest⟩
      exact ⟨hfirst, hrest⟩
    · intro ⟨hfirst, hrest⟩
      exact ⟨(), hfirst, hrest⟩

abbrev ByteVector := List UInt8

instance instLawfulBEqByteVector : LawfulBEq ByteVector := inferInstance

/-- `tolower` of the C locale. -/
def toLower (c : UInt8) : UInt8 := if 65 ≤ c ∧ c ≤ 90 then c + 32 else c

def stringBytes (field : String) : ByteVector := field.toByteArray.data.toList

theorem ofNat_charOfNat (b : UInt8) : UInt8.ofNat (Char.ofNat b.toNat).toNat = b := by
  have hlt := b.toNat_lt
  have hvalid : b.toNat.isValidChar := .inl (by omega)
  have hchar : (Char.ofNat b.toNat).toNat = b.toNat := by
    rw [Char.ofNat, dif_pos hvalid]
    rfl
  rw [hchar]
  exact UInt8.ofNat_toNat

theorem stringBytes_inj {a b : String} (h : stringBytes a = stringBytes b) : a = b := by
  have hbytes : a.toByteArray = b.toByteArray := by
    apply ByteArray.ext
    exact Array.toList_inj.mp h
  exact String.toByteArray_inj.mp hbytes

/-- An `int64_t`. -/
def IsInt64 (value : Int) : Prop := -2 ^ 63 ≤ value ∧ value < 2 ^ 63

instance (value : Int) : Decidable (IsInt64 value) := inferInstanceAs (Decidable (_ ∧ _))

/-- The value of a `uint64_t` sum. -/
def u64 (n : Nat) : Nat := n % 2 ^ 64

/-- The value of a `uint32_t` sum. -/
def u32 (n : Nat) : Nat := n % 2 ^ 32

theorem u64_succ {n : Nat} (h : n < 2 ^ 64 - 1) : u64 (n + 1) = n + 1 :=
  Nat.mod_eq_of_lt (by omega)

theorem u32_succ {n : Nat} (h : n < 2 ^ 32 - 1) : u32 (n + 1) = n + 1 :=
  Nat.mod_eq_of_lt (by omega)

end Pbr
