import Mathlib.Data.List.Basic
import Mathlib.Tactic.Cases

/-!
# Utf8 — text as bytes

A byte string is well formed where it is characters one after the other,
each in its shortest form. Cut before a byte that begins a character it
falls into well formed pieces.
-/

namespace Pbr.Lib.Utf8

/-- The bytes are characters, each in its shortest form. -/
def WellFormed (bytes : List UInt8) : Prop := ∃ chars : List Char, bytes = chars.flatMap String.utf8EncodeChar

theorem WellFormed.nil : WellFormed [] := ⟨[], rfl⟩

theorem WellFormed.append {a b : List UInt8} (ha : WellFormed a) (hb : WellFormed b) : WellFormed (a ++ b) := by
  obtain ⟨as, rfl⟩ := ha
  obtain ⟨bs, rfl⟩ := hb
  exact ⟨as ++ bs, by simp⟩

theorem wellFormed_encode (c : Char) : WellFormed (String.utf8EncodeChar c) := ⟨[c], by simp⟩

/-! ## The bits of a byte -/

section Bits

variable (b : UInt8)

/-- A byte that goes on with a character. -/
def continues : Bool := b &&& 0xC0 = 0x80

theorem continues_iff : continues b = true ↔ 128 ≤ b.toNat ∧ b.toNat < 192 := by
  have h : ∀ n : Fin 256, continues (UInt8.ofNat n.val) = true ↔ 128 ≤ n.val ∧ n.val < 192 := by decide +kernel
  simpa using h ⟨b.toNat, b.toNat_lt⟩

theorem lead_two_iff : b &&& 0xE0 = 0xC0 ↔ 192 ≤ b.toNat ∧ b.toNat < 224 := by
  have h : ∀ n : Fin 256, UInt8.ofNat n.val &&& 0xE0 = 0xC0 ↔ 192 ≤ n.val ∧ n.val < 224 := by decide +kernel
  simpa using h ⟨b.toNat, b.toNat_lt⟩

theorem lead_three_iff : b &&& 0xF0 = 0xE0 ↔ 224 ≤ b.toNat ∧ b.toNat < 240 := by
  have h : ∀ n : Fin 256, UInt8.ofNat n.val &&& 0xF0 = 0xE0 ↔ 224 ≤ n.val ∧ n.val < 240 := by decide +kernel
  simpa using h ⟨b.toNat, b.toNat_lt⟩

theorem lead_four_iff : b &&& 0xF8 = 0xF0 ↔ 240 ≤ b.toNat ∧ b.toNat < 248 := by
  have h : ∀ n : Fin 256, UInt8.ofNat n.val &&& 0xF8 = 0xF0 ↔ 240 ≤ n.val ∧ n.val < 248 := by decide +kernel
  simpa using h ⟨b.toNat, b.toNat_lt⟩

theorem toNat_low_six : (b &&& 0x3F).toNat = b.toNat % 64 := by
  rw [UInt8.toNat_and]
  exact Nat.and_two_pow_sub_one_eq_mod _ 6

theorem toNat_low_five : (b &&& 0x1F).toNat = b.toNat % 32 := by
  rw [UInt8.toNat_and]
  exact Nat.and_two_pow_sub_one_eq_mod _ 5

theorem toNat_low_four : (b &&& 0x0F).toNat = b.toNat % 16 := by
  rw [UInt8.toNat_and]
  exact Nat.and_two_pow_sub_one_eq_mod _ 4

theorem toNat_low_three : (b &&& 0x07).toNat = b.toNat % 8 := by
  rw [UInt8.toNat_and]
  exact Nat.and_two_pow_sub_one_eq_mod _ 3

end Bits

/-! ## One character -/

section Encode

variable {c : Char}

theorem encode_one (h : c.toNat < 0x80) : String.utf8EncodeChar c = [UInt8.ofNat c.toNat] := by
  unfold String.utf8EncodeChar
  rw [if_pos (by show c.toNat ≤ 127; omega)]
  rfl

theorem encode_two (hl : 0x80 ≤ c.toNat) (h : c.toNat < 0x800) : String.utf8EncodeChar c =
    [UInt8.ofNat (c.toNat / 64 % 32 + 192), UInt8.ofNat (c.toNat % 64 + 128)] := by
  unfold String.utf8EncodeChar
  rw [if_neg (by show ¬ c.toNat ≤ 127; omega), if_pos (by show c.toNat ≤ 2047; omega)]
  rfl

theorem encode_three (hl : 0x800 ≤ c.toNat) (h : c.toNat < 0x10000) : String.utf8EncodeChar c =
    [UInt8.ofNat (c.toNat / 4096 % 16 + 224), UInt8.ofNat (c.toNat / 64 % 64 + 128),
      UInt8.ofNat (c.toNat % 64 + 128)] := by
  unfold String.utf8EncodeChar
  rw [if_neg (by show ¬ c.toNat ≤ 127; omega), if_neg (by show ¬ c.toNat ≤ 2047; omega),
    if_pos (by show c.toNat ≤ 65535; omega)]
  rfl

theorem encode_four (hl : 0x10000 ≤ c.toNat) : String.utf8EncodeChar c =
    [UInt8.ofNat (c.toNat / 262144 % 8 + 240), UInt8.ofNat (c.toNat / 4096 % 64 + 128),
      UInt8.ofNat (c.toNat / 64 % 64 + 128), UInt8.ofNat (c.toNat % 64 + 128)] := by
  unfold String.utf8EncodeChar
  rw [if_neg (by show ¬ c.toNat ≤ 127; omega), if_neg (by show ¬ c.toNat ≤ 2047; omega),
    if_neg (by show ¬ c.toNat ≤ 65535; omega)]
  rfl

theorem toNat_ofNat_byte {n : Nat} (h : n < 256) : (UInt8.ofNat n).toNat = n := by
  rw [UInt8.toNat_ofNat']
  omega

/-- A character begins with a byte that begins one, and goes on with bytes
that go on. -/
theorem encode_shape (c : Char) : ∃ b tail, String.utf8EncodeChar c = b :: tail ∧ continues b = false ∧
    ∀ t ∈ tail, continues t = true := by
  have goesOn (n : Nat) : continues (UInt8.ofNat (n % 64 + 128)) = true := by
    rw [continues_iff, toNat_ofNat_byte (by omega)]
    omega
  have begins (n : Nat) (hn : n < 256) (h : n < 128 ∨ 192 ≤ n) : continues (UInt8.ofNat n) = false := by
    rw [← Bool.not_eq_true, continues_iff, toNat_ofNat_byte hn]
    omega
  by_cases hone : c.toNat < 0x80
  · exact ⟨_, _, encode_one hone, begins _ (by omega) (by omega), by simp⟩
  by_cases htwo : c.toNat < 0x800
  · refine ⟨_, _, encode_two (by omega) htwo, begins _ (by omega) (by omega), ?_⟩
    intro t ht
    simp only [List.mem_cons, List.not_mem_nil, or_false] at ht
    subst ht
    exact goesOn _
  by_cases hthree : c.toNat < 0x10000
  · refine ⟨_, _, encode_three (by omega) hthree, begins _ (by omega) (by omega), ?_⟩
    intro t ht
    simp only [List.mem_cons, List.not_mem_nil, or_false] at ht
    rcases ht with rfl | rfl <;> exact goesOn _
  · refine ⟨_, _, encode_four (by omega), begins _ (by omega) (by omega), ?_⟩
    intro t ht
    simp only [List.mem_cons, List.not_mem_nil, or_false] at ht
    rcases ht with rfl | rfl | rfl <;> exact goesOn _

end Encode

/-! ## Cutting -/

section Cut

variable {bytes : List UInt8}

/-- The end of the bytes, or a byte that begins a character. -/
def Boundary (bytes : List UInt8) (i : Nat) : Prop :=
  i = bytes.length ∨ ∃ b, bytes[i]? = some b ∧ continues b = false

theorem Boundary.le_length {i : Nat} (h : Boundary bytes i) : i ≤ bytes.length := by
  rcases h with rfl | ⟨b, hb, -⟩
  · exact Nat.le_refl _
  · exact Nat.le_of_lt (List.getElem?_eq_some_iff.mp hb).1

/-- Well formed bytes cut at a boundary are two well formed texts. -/
theorem WellFormed.cut (h : WellFormed bytes) {i : Nat} (hi : Boundary bytes i) :
    WellFormed (bytes.take i) ∧ WellFormed (bytes.drop i) := by
  obtain ⟨chars, rfl⟩ := h
  induction chars generalizing i with
  | nil => simp [WellFormed.nil]
  | cons c chars ih =>
    rw [List.flatMap_cons] at hi ⊢
    obtain ⟨b, tail, hencode, -, htail⟩ := encode_shape c
    have hwhole := (wellFormed_encode c).append (b := chars.flatMap String.utf8EncodeChar) ⟨chars, rfl⟩
    cases i with
    | zero => exact ⟨.nil, hwhole⟩
    | succ i =>
      by_cases hlt : i < tail.length
      · -- inside the character
        exfalso
        rw [hencode] at hi
        rcases hi with heq | ⟨t, ht, hcontinues⟩
        · simp only [List.cons_append, List.length_cons, List.length_append] at heq
          omega
        · rw [List.cons_append, List.getElem?_cons_succ, List.getElem?_append_left hlt] at ht
          rw [htail t (List.mem_of_getElem? ht)] at hcontinues
          cases hcontinues
      · have hlen : (String.utf8EncodeChar c).length = tail.length + 1 := by rw [hencode]; rfl
        obtain ⟨k, hk⟩ : ∃ k, i + 1 = (String.utf8EncodeChar c).length + k := ⟨i - tail.length, by omega⟩
        have hrest : Boundary (chars.flatMap String.utf8EncodeChar) k := by
          rw [hk] at hi
          rcases hi with heq | ⟨t, ht, hcontinues⟩
          · rw [List.length_append] at heq
            exact .inl (by omega)
          · rw [List.getElem?_append_right (by omega), Nat.add_sub_cancel_left] at ht
            exact .inr ⟨t, ht, hcontinues⟩
        obtain ⟨htake, hdrop⟩ := ih hrest
        rw [hk, List.take_append, List.drop_append]
        simp only [Nat.add_sub_cancel_left]
        rw [List.take_of_length_le (by omega), List.drop_of_length_le (by omega), List.nil_append]
        exact ⟨(wellFormed_encode c).append htake, hdrop⟩

/-- The bytes from `start` on, cut at each of the offsets. -/
def piecesFrom (bytes : List UInt8) (start : Nat) : List Nat → List (List UInt8)
  | [] => [bytes.drop start]
  | cut :: cuts => (bytes.drop start).take (cut - start) :: piecesFrom bytes cut cuts

/-- Cut at growing offsets, the bytes are their pieces one after the other. -/
theorem flatten_piecesFrom {start : Nat} {cuts : List Nat} (h : (start :: cuts).Pairwise (· ≤ ·)) :
    (piecesFrom bytes start cuts).flatten = bytes.drop start := by
  induction cuts generalizing start with
  | nil => simp [piecesFrom]
  | cons cut cuts ih =>
    have hle : start ≤ cut := (List.pairwise_cons.mp h).1 cut List.mem_cons_self
    rw [piecesFrom, List.flatten_cons, ih (List.pairwise_cons.mp h).2]
    conv_rhs => rw [← List.take_append_drop (cut - start) (bytes.drop start)]
    rw [List.drop_drop, Nat.add_sub_cancel' hle]

/-- Cut at boundaries, well formed bytes fall into well formed pieces. -/
theorem WellFormed.piecesFrom (h : WellFormed bytes) {start : Nat} {cuts : List Nat}
    (hsorted : (start :: cuts).Pairwise (· ≤ ·)) (hcuts : ∀ cut ∈ start :: cuts, Boundary bytes cut) :
    ∀ piece ∈ piecesFrom bytes start cuts, WellFormed piece := by
  induction cuts generalizing start with
  | nil =>
    intro piece hpiece
    obtain rfl := List.mem_singleton.mp hpiece
    exact (h.cut (hcuts start List.mem_cons_self)).2
  | cons cut cuts ih =>
    intro piece hpiece
    have hle : start ≤ cut := (List.pairwise_cons.mp hsorted).1 cut List.mem_cons_self
    rcases List.mem_cons.mp hpiece with rfl | hpiece
    · -- between two boundaries: the text up to the second, from the first on
      have hstart := hcuts start List.mem_cons_self
      have hcut := hcuts cut (List.mem_cons_of_mem _ List.mem_cons_self)
      have hinner : Boundary (bytes.take cut) start := by
        rcases hstart with heq | ⟨b, hb, hcontinues⟩
        · have := hcut.le_length
          exact .inl (by rw [List.length_take]; omega)
        · rcases Nat.lt_or_ge start cut with hlt | hge
          · exact .inr ⟨b, by rwa [List.getElem?_take_of_lt hlt], hcontinues⟩
          · have := hcut.le_length
            exact .inl (by rw [List.length_take]; omega)
      rw [← List.drop_take]
      exact ((h.cut hcut).1.cut hinner).2
    · exact ih (List.pairwise_cons.mp hsorted).2 (fun i hi => hcuts i (List.mem_cons_of_mem _ hi)) piece hpiece

end Cut

end Pbr.Lib.Utf8
