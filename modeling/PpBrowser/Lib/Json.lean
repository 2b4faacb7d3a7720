import Mathlib.Algebra.Group.Int.Defs
import Mathlib.Algebra.GroupWithZero.Nat
import Mathlib.Data.List.Basic
import Mathlib.Data.Nat.Log

/-!
# Lib.Json — JSON objects as their readers see them

A JSON object is its keys with their values; `set` writes one key and the
typed getters read one. Text is not modelled: what is kept as JSON text is
kept here as the object that reading the text gives.

The lemmas say what a getter finds after a chain of `set`s, which is what a
round trip through an encoder and a decoder asks, and how a decoder's loop
over the rows of an array reads back what the encoder wrote
(`mapM_read_rows`). Where the length of the text matters, `textSize` bounds
what a writer without spaces needs.
-/

namespace Pbr.Lib.Json

/-- A JSON value; a number is the integer it holds. -/
inductive Value where
  | null
  | bool (b : Bool)
  | num (n : Int)
  | str (s : String)
  | array (elements : List Value)
  | object (fields : List (String × Value))

/-! ## The size of a text -/

/-- The most bytes a writer takes for a character: printable ASCII stands for
itself, a slash may be escaped, and the rest are at most two `\u` escapes. -/
def charSize (c : Char) : Nat :=
  if c = '/' then 2 else if ' ' ≤ c ∧ c ≤ '~' ∧ c ≠ '"' ∧ c ≠ '\\' then 1 else 12

def strSize (s : String) : Nat := 2 + (s.toList.map charSize).sum

/-- A sign and the decimal digits. -/
def numSize (n : Int) : Nat := Nat.log 10 n.natAbs + 2

mutual

/-- The most bytes of a value's text, written without spaces. -/
def Value.textSize : Value → Nat
  | .null => 4
  | .bool _ => 5
  | .num n => numSize n
  | .str s => strSize s
  | .array elements => 2 + elementsSize elements
  | .object fields => 2 + fieldsSize fields

def elementsSize : List Value → Nat
  | [] => 0
  | value :: values => value.textSize + 1 + elementsSize values

def fieldsSize : List (String × Value) → Nat
  | [] => 0
  | field :: fields => fieldSize field + 1 + fieldsSize fields

def fieldSize : String × Value → Nat
  | (key, value) => strSize key + 1 + value.textSize

end

theorem numSize_le {n : Int} {digits : Nat} (hpos : digits ≠ 0) (h : n.natAbs < 10 ^ digits) :
    numSize n ≤ digits + 1 := by
  have hlog := Nat.log_lt_of_lt_pow' hpos h
  simp only [numSize]
  omega

/-- Rows that are each small make a small array. -/
theorem elementsSize_le {elements : List Value} {bound : Nat} (h : ∀ value ∈ elements, value.textSize ≤ bound) :
    elementsSize elements ≤ elements.length * (bound + 1) := by
  induction elements with
  | nil => simp [elementsSize]
  | cons value values ih =>
    have hvalue := h value List.mem_cons_self
    have hvalues := ih fun v hv => h v (List.mem_cons_of_mem _ hv)
    simp only [elementsSize, List.length_cons, Nat.add_one_mul]
    omega

theorem charSize_of_printable {c : Char} (h : 35 ≤ c.toNat ∧ c.toNat ≤ 126 ∧ c.toNat ≠ 92) : charSize c ≤ 2 := by
  have hlow : ' ' ≤ c := by
    rw [Char.le_def, UInt32.le_iff_toNat_le]
    exact le_trans (by decide) h.1
  have hhigh : c ≤ '~' := by
    rw [Char.le_def, UInt32.le_iff_toNat_le]
    exact h.2.1
  have hquote : c ≠ '"' := by
    intro heq
    subst heq
    exact absurd h.1 (by decide)
  have hback : c ≠ '\\' := by
    intro heq
    subst heq
    exact h.2.2 rfl
  rw [charSize]
  split
  · exact Nat.le_refl _
  · rw [if_pos ⟨hlow, hhigh, hquote, hback⟩]
    decide

theorem sum_charSize_le {chars : List Char} {bound : Nat} (h : ∀ c ∈ chars, charSize c ≤ bound) :
    (chars.map charSize).sum ≤ chars.length * bound := by
  induction chars with
  | nil => simp
  | cons c chars ih =>
    have hc := h c List.mem_cons_self
    have hchars := ih fun c hc => h c (List.mem_cons_of_mem _ hc)
    simp only [List.map_cons, List.sum_cons, List.length_cons, Nat.add_one_mul]
    omega

/-- A JSON object: its fields, each key once. -/
structure Object where
  fields : List (String × Value) := []

def Value.asObject : Value → Option Object
  | object fields => some ⟨fields⟩
  | _ => none

def Object.value (o : Object) : Value := .object o.fields

def Value.asString : Value → Option String
  | str s => some s
  | _ => none

namespace Object

def get? (o : Object) (key : String) : Option Value := o.fields.lookup key

def set (o : Object) (key : String) (value : Value) : Object :=
  ⟨o.fields.filter (·.1 ≠ key) ++ [(key, value)]⟩

def setIf (o : Object) (p : Bool) (key : String) (value : Value) : Object :=
  if p then o.set key value else o

def getString (o : Object) (key : String) : Option String :=
  (o.get? key).bind Value.asString

/-- A number that is not negative. -/
def getNonNegInt (o : Object) (key : String) : Option Nat :=
  match o.get? key with
  | some (.num n) => if 0 ≤ n then some n.toNat else none
  | _ => none

def getInt (o : Object) (key : String) : Option Int :=
  match o.get? key with
  | some (.num n) => some n
  | _ => none

def getBool (o : Object) (key : String) : Option Bool :=
  match o.get? key with
  | some (.bool b) => some b
  | _ => none

def getArray (o : Object) (key : String) : Option (List Value) :=
  match o.get? key with
  | some (.array elements) => some elements
  | _ => none

def getObject (o : Object) (key : String) : Option Object :=
  (o.get? key).bind Value.asObject

attribute [simp] getString getNonNegInt getInt getBool getArray getObject Value.asString

/-! ## Reading after writing -/

theorem lookup_filter_ne (fields : List (String × Value)) {key other : String}
    (h : other ≠ key) : (fields.filter (·.1 ≠ key)).lookup other = fields.lookup other := by
  induction fields with
  | nil => rfl
  | cons field rest ih =>
    by_cases hkey : field.1 = key
    · rw [List.filter_cons_of_neg (by simp [hkey]), ih, List.lookup_cons]
      have hne : (other == field.1) = false := by simp [hkey, h]
      rw [hne]
    · rw [List.filter_cons_of_pos (by simp [hkey]), List.lookup_cons, List.lookup_cons, ih]

theorem lookup_filter_self (fields : List (String × Value)) (key : String) :
    (fields.filter (·.1 ≠ key)).lookup key = none := by
  rw [List.lookup_eq_none_iff]
  intro field hfield
  have hne := (List.mem_filter.mp hfield).2
  simp only [ne_eq, decide_not, Bool.not_eq_eq_eq_not, Bool.not_true, decide_eq_false_iff_not]
    at hne
  simp [Ne.symm hne]

@[simp] theorem get?_empty (key : String) : get? {} key = none := rfl

@[simp] theorem get?_set (o : Object) (key other : String) (value : Value) :
    (o.set key value).get? other = if other = key then some value else o.get? other := by
  rw [get?, set, List.lookup_append]
  by_cases h : other = key
  · rw [if_pos h, h, lookup_filter_self]
    simp
  · rw [if_neg h, lookup_filter_ne o.fields h]
    have hlast : List.lookup other [(key, value)] = none := by simp [h]
    rw [hlast, Option.or_none]
    rfl

@[simp] theorem get?_setIf (o : Object) (p : Bool) (key other : String) (value : Value) :
    (o.setIf p key value).get? other = if p ∧ other = key then some value else o.get? other := by
  rw [setIf]
  cases p with
  | true | false => simp

/-! ## Arrays of rows -/

/-- Every element of an optional array as an object, read by `read`; a
missing array has no rows. -/
def readRows {α ε : Type} (notObject : ε) (read : Object → Except ε α)
    (elements : Option (List Value)) : Except ε (List α) :=
  (elements.getD []).mapM fun item =>
    match item.asObject with
    | none => .error notObject
    | some row => read row

/-- Rows written one by one are read back one by one. -/
theorem mapM_read_rows {α β ε : Type} {notObject : ε} {read : Object → Except ε β}
    {write : α → Object} {stored : α → β} (rows : List α) (h : ∀ row ∈ rows, read (write row) = .ok (stored row)) :
    readRows notObject read (some (rows.map fun row => (write row).value)) = .ok (rows.map stored) := by
  rw [readRows, Option.getD_some]
  induction rows with
  | nil => rfl
  | cons row rest ih =>
    rw [List.map_cons, List.mapM_cons, ih fun r hr => h r (List.mem_cons_of_mem _ hr)]
    simp only [value, Value.asObject]
    rw [h row List.mem_cons_self]
    rfl

end Object

end Pbr.Lib.Json
