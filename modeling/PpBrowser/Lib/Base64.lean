import Mathlib.Data.List.Basic

/-!
# Lib.Base64 — bytes as base64 text

The padded alphabet of RFC 4648: three bytes are four characters, and one or
two bytes left over are padded to four. `decode` refuses what `encode` does
not write. What a text decodes to, and how long it is, is all a user of the
encoding relies on.
-/

namespace Pbr.Lib.Base64

/-- The character of six bits. -/
def digit (n : Nat) : Char :=
  if n < 26 then Char.ofNat (65 + n)
  else if n < 52 then Char.ofNat (71 + n)
  else if n < 62 then Char.ofNat (n - 4)
  else if n = 62 then '+' else '/'

/-- The six bits of a character of the alphabet. -/
def value (c : Char) : Option Nat :=
  if c.isUpper then some (c.toNat - 65)
  else if c.isLower then some (c.toNat - 71)
  else if c.isDigit then some (c.toNat + 4)
  else if c = '+' then some 62
  else if c = '/' then some 63 else none

theorem value_digit {n : Nat} (h : n < 64) : value (digit n) = some n := by
  have hall : ∀ i : Fin 64, value (digit i) = some i.val := by decide
  exact hall ⟨n, h⟩

theorem digit_ne_pad {n : Nat} (h : n < 64) : digit n ≠ '=' := by
  have hall : ∀ i : Fin 64, digit i ≠ '=' := by decide
  exact hall ⟨n, h⟩

/-! ## Groups of four characters -/

def encodeOne (a : Nat) : List Char := [digit (a / 4), digit (a % 4 * 16), '=', '=']

def encodeTwo (a b : Nat) : List Char :=
  [digit (a / 4), digit (a % 4 * 16 + b / 16), digit (b % 16 * 4), '=']

def encodeThree (a b c : Nat) : List Char :=
  [digit (a / 4), digit (a % 4 * 16 + b / 16), digit (b % 16 * 4 + c / 64), digit (c % 64)]

/-- The bytes of four characters: fewer than three where they are padded. -/
def decodeGroup (w x y z : Char) : Option (List Nat) := do
  let first ← value w
  let second ← value x
  if y = '=' ∧ z = '=' then
    if second % 16 = 0 then some [first * 4 + second / 16] else none
  else
    let third ← value y
    if z = '=' then
      if third % 4 = 0 then some [first * 4 + second / 16, second % 16 * 16 + third / 4] else none
    else
      let fourth ← value z
      some [first * 4 + second / 16, second % 16 * 16 + third / 4, third % 4 * 64 + fourth]

def encode : List UInt8 → List Char
  | [] => []
  | [a] => encodeOne a.toNat
  | [a, b] => encodeTwo a.toNat b.toNat
  | a :: b :: c :: rest => encodeThree a.toNat b.toNat c.toNat ++ encode rest

def decode : List Char → Option (List UInt8)
  | [] => some []
  | w :: x :: y :: z :: rest => do
    let group ← decodeGroup w x y z
    -- only the last group is padded
    if group.length < 3 ∧ rest ≠ [] then none
    else
      let bytes ← decode rest
      return group.map UInt8.ofNat ++ bytes
  | _ => none

/-! ## Reading what was written -/

section
variable {a b c : Nat}

theorem decodeGroup_one (ha : a < 256) : decodeGroup (digit (a / 4)) (digit (a % 4 * 16)) '=' '=' = some [a] := by
  have hlow : a % 4 * 16 % 16 = 0 := by omega
  simp [decodeGroup, value_digit (n := a / 4) (by omega), value_digit (n := a % 4 * 16) (by omega),
    hlow]
  omega

theorem decodeGroup_two (ha : a < 256) (hb : b < 256) :
    decodeGroup (digit (a / 4)) (digit (a % 4 * 16 + b / 16)) (digit (b % 16 * 4)) '=' = some [a, b] := by
  have hfirst : a / 4 * 4 + (a % 4 * 16 + b / 16) / 16 = a := by omega
  have hlow : b % 16 * 4 % 4 = 0 := by omega
  have hpad : digit (b % 16 * 4) ≠ '=' := digit_ne_pad (by omega)
  simp [decodeGroup, value_digit (n := a / 4) (by omega),
    value_digit (n := a % 4 * 16 + b / 16) (by omega), value_digit (n := b % 16 * 4) (by omega),
    hfirst, hlow, hpad]
  omega

theorem decodeGroup_three (ha : a < 256) (hb : b < 256) (hc : c < 256) :
    decodeGroup (digit (a / 4)) (digit (a % 4 * 16 + b / 16)) (digit (b % 16 * 4 + c / 64))
      (digit (c % 64)) = some [a, b, c] := by
  have hfirst : a / 4 * 4 + (a % 4 * 16 + b / 16) / 16 = a := by omega
  have hpad : digit (c % 64) ≠ '=' := digit_ne_pad (by omega)
  simp [decodeGroup, value_digit (n := a / 4) (by omega),
    value_digit (n := a % 4 * 16 + b / 16) (by omega),
    value_digit (n := b % 16 * 4 + c / 64) (by omega), value_digit (n := c % 64) (by omega),
    hfirst, hpad]
  omega

end

theorem decode_encode (bytes : List UInt8) : decode (encode bytes) = some bytes := by
  induction bytes using encode.induct with
  | case1 => rfl
  | case2 a =>
    have ha := a.toNat_lt
    simp [encode, encodeOne, decode, decodeGroup_one ha]
  | case3 a b =>
    have ha := a.toNat_lt
    have hb := b.toNat_lt
    simp [encode, encodeTwo, decode, decodeGroup_two ha hb]
  | case4 a b c rest ih =>
    have ha := a.toNat_lt
    have hb := b.toNat_lt
    have hc := c.toNat_lt
    simp [encode, encodeThree, decode, decodeGroup_three ha hb hc, ih]

/-! ## The characters of what is read -/

/-- A character of the alphabet, or padding. -/
def Listed (c : Char) : Prop := (value c).isSome ∨ c = '='

theorem listed_of_value {c : Char} {n : Nat} (h : value c = some n) : Listed c :=
  .inl (by simp [h])

/-- They are all printable ASCII, with no quote and no backslash. -/
theorem Listed.toNat_range {c : Char} (h : Listed c) : 43 ≤ c.toNat ∧ c.toNat ≤ 122 ∧ c.toNat ≠ 92 := by
  rcases h with h | rfl
  · rw [value] at h
    have hA : 'A'.toNat = 65 := rfl
    have hZ : 'Z'.toNat = 90 := rfl
    have ha : 'a'.toNat = 97 := rfl
    have hz : 'z'.toNat = 122 := rfl
    have h0 : '0'.toNat = 48 := rfl
    have h9 : '9'.toNat = 57 := rfl
    by_cases hupper : c.isUpper
    · have hupper := of_decide_eq_true hupper
      simp only [ge_iff_le, UInt32.le_iff_toNat_le, Char.toNat_val] at hupper
      omega
    by_cases hlower : c.isLower
    · have hlower := Bool.and_eq_true_iff.mp hlower
      simp only [decide_eq_true_eq, ge_iff_le, UInt32.le_iff_toNat_le, Char.toNat_val] at hlower
      omega
    by_cases hdigit : c.isDigit
    · simp only [Char.isDigit, Bool.and_eq_true, decide_eq_true_eq, UInt32.le_iff_toNat_le,
        Char.toNat_val] at hdigit
      omega
    by_cases hplus : c = '+'
    · subst hplus
      decide
    · by_cases hslash : c = '/'
      · subst hslash
        decide
      · simp [hupper, hlower, hdigit, hplus, hslash] at h
  · decide

theorem decodeGroup_some {w x y z : Char} {group : List Nat} (h : decodeGroup w x y z = some group) :
    (Listed w ∧ Listed x ∧ Listed y ∧ Listed z) ∧ 1 ≤ group.length ∧ group.length ≤ 3 := by
  simp only [decodeGroup, Option.bind_eq_bind, Option.bind_eq_some_iff] at h
  obtain ⟨first, hw, second, hx, h⟩ := h
  by_cases hpad : y = '=' ∧ z = '='
  · rw [if_pos hpad] at h
    split at h
    · cases h
      exact ⟨⟨listed_of_value hw, listed_of_value hx, .inr hpad.1, .inr hpad.2⟩, by simp⟩
    · cases h
  · rw [if_neg hpad, Option.bind_eq_some_iff] at h
    obtain ⟨third, hy, h⟩ := h
    by_cases hz : z = '='
    · rw [if_pos hz] at h
      split at h
      · cases h
        exact ⟨⟨listed_of_value hw, listed_of_value hx, listed_of_value hy, .inr hz⟩, by simp⟩
      · cases h
    · rw [if_neg hz, Option.bind_eq_some_iff] at h
      obtain ⟨fourth, hfourth, h⟩ := h
      cases h
      exact ⟨⟨listed_of_value hw, listed_of_value hx, listed_of_value hy,
        listed_of_value hfourth⟩, by simp⟩

/-- A text that decodes has four characters for every three bytes, each of
the alphabet or padding. -/
theorem listed_of_decode {text : List Char} {bytes : List UInt8} (h : decode text = some bytes) :
    text.length = 4 * ((bytes.length + 2) / 3) ∧ ∀ c ∈ text, Listed c := by
  induction text using decode.induct generalizing bytes with
  | case1 =>
    obtain rfl : [] = bytes := by simpa [decode] using h
    simp
  | case2 w x y z rest ih =>
    simp only [decode, Option.bind_eq_bind, Option.bind_eq_some_iff] at h
    obtain ⟨group, hgroup, h⟩ := h
    obtain ⟨⟨hw, hx, hy, hz⟩, hpos, hle⟩ := decodeGroup_some hgroup
    split at h
    · cases h
    · rename_i hlast
      obtain ⟨tail, htail, h⟩ := Option.bind_eq_some_iff.mp h
      obtain ⟨hlength, hlisted⟩ := ih htail
      cases h
      constructor
      · cases rest with
        | nil =>
          obtain rfl : [] = tail := by simpa [decode] using htail
          simp
          omega
        | cons c rest =>
          have hthree : group.length = 3 := by
            by_contra hne
            exact hlast ⟨by omega, by simp⟩
          simp only [List.length_cons, List.length_append, List.length_map, hthree] at hlength ⊢
          omega
      · intro c hc
        simp only [List.mem_cons] at hc
        rcases hc with rfl | rfl | rfl | rfl | hc
        · exact hw
        · exact hx
        · exact hy
        · exact hz
        · exact hlisted c hc
  | case3 text hnil hcons => 
    rw [decode.eq_def] at h
    split at h
    · exact absurd rfl hnil
    · exact absurd rfl (hcons _ _ _ _ _)
    · cases h

end Pbr.Lib.Base64
