import Mathlib.Data.List.Basic

/-!
# Codec — a writer and the reader of what it writes

A reader takes a value from the front of a list or fails. A codec ties it to
a writer both ways: what is written of a value within the reader's limits is
read back, past them it is refused, and what is read was written just so.
Fields read one after the other (`bind`), counted rows (`counted`) and
optional values (`optional`) are codecs again.
-/

namespace Pbr.Lib

/-- A value from the front of a list and what is left of it. -/
def Reader (β α : Type) := List β → Option (α × List β)

namespace Reader

variable {α β γ : Type} {f : α → Reader β γ}

instance : Monad (Reader β) where
  pure a := fun bytes => some (a, bytes)
  bind get f := fun bytes => (get bytes).bind fun read => f read.1 read.2

def fail : Reader β α := fun _ => none

/-- The next `n`. -/
def take (n : Nat) : Reader β (List β) := fun bytes =>
  if bytes.length < n then none else some (bytes.take n, bytes.drop n)

/-- `n` rows, each admitted after the one before it. -/
def rows (get : Reader β α) (admits : Option α → α → Bool) : Nat → Option α → Reader β (List α)
  | 0, _ => pure []
  | n + 1, last => do
    let a ← get
    if admits last a then do
      let rest ← rows get admits n (some a)
      pure (a :: rest)
    else fail

theorem pure_apply {a : α} {bytes : List β} : (pure a : Reader β α) bytes = some (a, bytes) := rfl

theorem bind_apply {get : Reader β α} {bytes : List β} :
    (get >>= f) bytes = (get bytes).bind fun read => f read.1 read.2 := rfl

theorem bind_eq_some {get : Reader β α} {bytes rest : List β} {c : γ} :
    (get >>= f) bytes = some (c, rest) ↔ ∃ a mid, get bytes = some (a, mid) ∧ f a mid = some (c, rest) := by
  rw [bind_apply, Option.bind_eq_some_iff]
  constructor
  · intro ⟨read, hget, hf⟩
    exact ⟨read.1, read.2, hget, hf⟩
  · intro ⟨a, mid, hget, hf⟩
    exact ⟨(a, mid), hget, hf⟩

end Reader

variable {α β γ : Type}

/-- `fits`: the values there are; `ok`: those the reader takes. -/
structure Codec (fits ok : α → Prop) (put : α → List β) (get : Reader β α) : Prop where
  get_put : ∀ {a rest}, fits a → ok a → get (put a ++ rest) = some (a, rest)
  get_over : ∀ {a rest}, fits a → ¬ ok a → get (put a ++ rest) = none
  put_get : ∀ {bytes a rest}, get bytes = some (a, rest) → fits a ∧ ok a ∧ put a ++ rest = bytes

namespace Codec

variable {fits ok : α → Prop} {put : α → List β} {get : Reader β α}

/-- What of a value written is read is the value, whole. -/
theorem eq_of_get (h : Codec fits ok put get) {a b : α} {rest : List β} (ha : fits a)
    (hget : get (put a) = some (b, rest)) : b = a ∧ rest = [] := by
  have hput : get (put a ++ []) = some (b, rest) := by rwa [List.append_nil]
  by_cases hok : ok a
  · have hread : get (put a ++ []) = some (a, []) := h.get_put ha hok
    obtain ⟨rfl, rfl⟩ := Prod.mk.inj (Option.mem_unique hread hput)
    exact ⟨rfl, rfl⟩
  · rw [h.get_over ha hok] at hput
    cases hput

theorem congr {fits' ok' : α → Prop} {put' : α → List β} {get' : Reader β α} (h : Codec fits ok put get)
    (hfits : ∀ a, fits' a ↔ fits a) (hok : ∀ a, fits a → (ok' a ↔ ok a)) (hput : ∀ a, put' a = put a)
    (hget : get' = get) : Codec fits' ok' put' get' where
  get_put ha hoka := by
    rw [hget, hput]
    exact h.get_put ((hfits _).mp ha) ((hok _ ((hfits _).mp ha)).mp hoka)
  get_over ha hoka := by
    rw [hget, hput]
    exact h.get_over ((hfits _).mp ha) fun hok' => hoka ((hok _ ((hfits _).mp ha)).mpr hok')
  put_get hread := by
    rw [hget] at hread
    obtain ⟨ha, hoka, hbytes⟩ := h.put_get hread
    exact ⟨(hfits _).mpr ha, (hok _ ha).mpr hoka, (hput _).symm ▸ hbytes⟩

theorem map (h : Codec fits ok put get) (into : γ → α) (of : α → γ) (hinto : ∀ c, of (into c) = c)
    (hof : ∀ a, fits a → into (of a) = a) :
    Codec (fun c => fits (into c)) (fun c => ok (into c)) (fun c => put (into c)) (do let a ← get; pure (of a)) where
  get_put ha hok := by
    rw [Reader.bind_apply, h.get_put ha hok, Option.bind_some, hinto]
    rfl
  get_over ha hok := by rw [Reader.bind_apply, h.get_over ha hok, Option.bind_none]
  put_get hread := by
    obtain ⟨a, mid, hget, hpure⟩ := Reader.bind_eq_some.mp hread
    obtain ⟨rfl, rfl⟩ := Prod.mk.inj (Option.some.inj hpure)
    obtain ⟨ha, hok, hbytes⟩ := h.put_get hget
    rw [hof a ha]
    exact ⟨ha, hok, hbytes⟩

/-- A field, then the rest of the record that has it. -/
theorem bind {P okTail : γ → Prop} {putTail : γ → List β} {f : α → Reader β γ} (field : γ → α)
    (h : Codec fits ok put get) (hfits : ∀ c, P c → fits (field c))
    (htail : ∀ a, fits a → Codec (fun c => P c ∧ field c = a) okTail putTail (f a)) :
    Codec P (fun c => ok (field c) ∧ okTail c) (fun c => put (field c) ++ putTail c) (get >>= f) where
  get_put {c rest} hP hok := by
    rw [List.append_assoc, Reader.bind_apply, h.get_put (hfits c hP) hok.1, Option.bind_some]
    exact (htail _ (hfits c hP)).get_put ⟨hP, rfl⟩ hok.2
  get_over {c rest} hP hnot := by
    rw [List.append_assoc, Reader.bind_apply]
    by_cases hok : ok (field c)
    · rw [h.get_put (hfits c hP) hok, Option.bind_some]
      exact (htail _ (hfits c hP)).get_over ⟨hP, rfl⟩ fun htail' => hnot ⟨hok, htail'⟩
    · rw [h.get_over (hfits c hP) hok, Option.bind_none]
  put_get {bytes c rest} hread := by
    obtain ⟨a, mid, hget, hf⟩ := Reader.bind_eq_some.mp hread
    obtain ⟨ha, hok, hbytes⟩ := h.put_get hget
    obtain ⟨⟨hP, rfl⟩, htailOk, hmid⟩ := (htail a ha).put_get hf
    refine ⟨hP, ⟨hok, htailOk⟩, ?_⟩
    rw [List.append_assoc, hmid, hbytes]

theorem done {P : γ → Prop} {c : γ} (h : ∀ c', P c' ↔ c' = c) :
    Codec P (fun _ => True) (fun _ => ([] : List β)) (pure c) where
  get_put hP _ := by
    obtain rfl := (h _).mp hP
    rfl
  get_over _ hnot := absurd trivial hnot
  put_get hread := by
    obtain ⟨rfl, rfl⟩ := Prod.mk.inj (Option.some.inj hread)
    exact ⟨(h _).mpr rfl, trivial, rfl⟩

theorem take (n : Nat) : Codec (fun bytes : List β => bytes.length = n) (fun _ => True) id (Reader.take n) where
  get_put {bytes rest} hlength _ := by
    have hlong : ¬ (bytes ++ rest).length < n := by
      rw [List.length_append]
      omega
    rw [Reader.take, id, if_neg hlong, ← hlength, List.take_left, List.drop_left]
  get_over _ hnot := absurd trivial hnot
  put_get {bytes a rest} hread := by
    rw [Reader.take] at hread
    split at hread
    · cases hread
    next hlong =>
      obtain ⟨rfl, rfl⟩ := Prod.mk.inj (Option.some.inj hread)
      refine ⟨?_, trivial, List.take_append_drop n bytes⟩
      rw [List.length_take]
      omega

/-! ## Rows -/

/-- Each row is admitted after the one before it. -/
def Admitted (admits : Option α → α → Bool) : Option α → List α → Prop
  | _, [] => True
  | last, a :: l => admits last a ∧ Admitted admits (some a) l

theorem rows (h : Codec fits ok put get) (admits : Option α → α → Bool) (n : Nat) (last : Option α) :
    Codec (fun l => l.length = n ∧ ∀ a ∈ l, fits a) (fun l => (∀ a ∈ l, ok a) ∧ Admitted admits last l)
      (fun l => l.flatMap put) (get.rows admits n last) := by
  induction n generalizing last with
  | zero =>
    constructor
    · rintro l rest ⟨hlength, -⟩ -
      obtain rfl := List.length_eq_zero_iff.mp hlength
      rfl
    · rintro l rest ⟨hlength, -⟩ hnot
      obtain rfl := List.length_eq_zero_iff.mp hlength
      exact absurd ⟨by simp, trivial⟩ hnot
    · intro bytes l rest hread
      obtain ⟨rfl, rfl⟩ := Prod.mk.inj (Option.some.inj hread)
      exact ⟨⟨rfl, by simp⟩, ⟨by simp, trivial⟩, rfl⟩
  | succ n ih =>
    constructor
    · rintro l rest ⟨hlength, hfits⟩ ⟨hok, hadmitted⟩
      match l, hlength with
      | a :: l, hlength =>
        have hrest : get.rows admits n (some a) (l.flatMap put ++ rest) = some (l, rest) := (ih (some a)).get_put
          ⟨Nat.succ.inj hlength, fun b hb => hfits b (List.mem_cons_of_mem _ hb)⟩
          ⟨fun b hb => hok b (List.mem_cons_of_mem _ hb), hadmitted.2⟩
        rw [Reader.rows, List.flatMap_cons, List.append_assoc, Reader.bind_apply,
          h.get_put (hfits a List.mem_cons_self) (hok a List.mem_cons_self), Option.bind_some]
        dsimp only
        rw [if_pos hadmitted.1, Reader.bind_apply, hrest]
        rfl
    · rintro l rest ⟨hlength, hfits⟩ hnot
      match l, hlength with
      | a :: l, hlength =>
        rw [Reader.rows, List.flatMap_cons, List.append_assoc, Reader.bind_apply]
        by_cases hok : ok a
        · rw [h.get_put (hfits a List.mem_cons_self) hok, Option.bind_some]
          dsimp only
          by_cases hadmits : admits last a
          · have hrest : ¬ ((∀ b ∈ l, ok b) ∧ Admitted admits (some a) l) := by
              intro ⟨hall, hadmitted⟩
              refine hnot ⟨?_, hadmits, hadmitted⟩
              intro b hb
              rcases List.mem_cons.mp hb with rfl | hb
              · exact hok
              · exact hall b hb
            rw [if_pos hadmits, Reader.bind_apply, (ih (some a)).get_over
              ⟨Nat.succ.inj hlength, fun b hb => hfits b (List.mem_cons_of_mem _ hb)⟩ hrest]
            rfl
          · rw [if_neg hadmits]
            rfl
        · rw [h.get_over (hfits a List.mem_cons_self) hok, Option.bind_none]
    · intro bytes l rest hread
      rw [Reader.rows] at hread
      obtain ⟨a, mid, hget, hf⟩ := Reader.bind_eq_some.mp hread
      obtain ⟨ha, hok, hbytes⟩ := h.put_get hget
      split at hf
      next hadmits =>
        obtain ⟨l', mid', hrows, hpure⟩ := Reader.bind_eq_some.mp hf
        obtain ⟨rfl, rfl⟩ := Prod.mk.inj (Option.some.inj hpure)
        obtain ⟨⟨hlength, hfits⟩, ⟨hall, hadmitted⟩, hmid⟩ := (ih (some a)).put_get hrows
        refine ⟨⟨congrArg Nat.succ hlength, ?_⟩, ⟨?_, hadmits, hadmitted⟩, ?_⟩
        · intro b hb
          rcases List.mem_cons.mp hb with rfl | hb
          · exact ha
          · exact hfits b hb
        · intro b hb
          rcases List.mem_cons.mp hb with rfl | hb
          · exact hok
          · exact hall b hb
        · rw [List.flatMap_cons, List.append_assoc, hmid, hbytes]
      · cases hf

/-- Rows behind their count, of a count within a limit. -/
theorem counted {fitsCount : Nat → Prop} {putCount : Nat → List β} {getCount : Reader β Nat}
    (hcount : Codec fitsCount (fun _ => True) putCount getCount) (h : Codec fits ok put get)
    (admits : Option α → α → Bool) (limit : Nat → Bool) :
    Codec (fun l => fitsCount l.length ∧ ∀ a ∈ l, fits a)
      (fun l => limit l.length ∧ (∀ a ∈ l, ok a) ∧ Admitted admits none l)
      (fun l => putCount l.length ++ l.flatMap put)
      (do let count ← getCount
          if limit count then get.rows admits count none else Reader.fail) where
  get_put {l rest} hfits hok := by
    rw [List.append_assoc, Reader.bind_apply, hcount.get_put hfits.1 trivial, Option.bind_some]
    dsimp only
    rw [if_pos hok.1]
    exact (h.rows admits l.length none).get_put ⟨rfl, hfits.2⟩ hok.2
  get_over {l rest} hfits hnot := by
    rw [List.append_assoc, Reader.bind_apply, hcount.get_put hfits.1 trivial, Option.bind_some]
    dsimp only
    by_cases hlimit : limit l.length
    · rw [if_pos hlimit]
      exact (h.rows admits l.length none).get_over ⟨rfl, hfits.2⟩ fun hok => hnot ⟨hlimit, hok⟩
    · rw [if_neg hlimit]
      rfl
  put_get {bytes l rest} hread := by
    obtain ⟨count, mid, hget, hf⟩ := Reader.bind_eq_some.mp hread
    obtain ⟨hfitsCount, -, hbytes⟩ := hcount.put_get hget
    split at hf
    next hlimit =>
      obtain ⟨⟨rfl, hfits⟩, hok, hmid⟩ := (h.rows admits count none).put_get hf
      refine ⟨⟨hfitsCount, hfits⟩, ⟨hlimit, hok⟩, ?_⟩
      rw [List.append_assoc, hmid, hbytes]
    · cases hf

/-- A flag, and behind it the value if there is one. -/
theorem optional {putFlag : Bool → List β} {getFlag : Reader β Bool}
    (hflag : Codec (fun _ => True) (fun _ => True) putFlag getFlag) (h : Codec fits ok put get) :
    Codec (fun o => ∀ a, o = some a → fits a) (fun o => ∀ a, o = some a → ok a)
      (fun o => putFlag o.isSome ++ o.elim [] put)
      (do let flag ← getFlag
          if flag then do
            let a ← get
            pure (some a)
          else pure none) where
  get_put {o rest} hfits hok := by
    rw [List.append_assoc, Reader.bind_apply, hflag.get_put trivial trivial, Option.bind_some]
    cases o with
    | none => rfl
    | some a =>
      simp only [Option.isSome_some, Option.elim_some]
      rw [if_pos trivial, Reader.bind_apply, h.get_put (hfits a rfl) (hok a rfl)]
      rfl
  get_over {o rest} hfits hnot := by
    rw [List.append_assoc, Reader.bind_apply, hflag.get_put trivial trivial, Option.bind_some]
    cases o with
    | none => exact absurd (by simp) hnot
    | some a =>
      have hover : ¬ ok a := fun hok => hnot fun b hb => Option.some.inj hb ▸ hok
      simp only [Option.isSome_some, Option.elim_some]
      rw [if_pos trivial, Reader.bind_apply, h.get_over (hfits a rfl) hover]
      rfl
  put_get {bytes o rest} hread := by
    obtain ⟨flag, mid, hget, hf⟩ := Reader.bind_eq_some.mp hread
    obtain ⟨-, -, hbytes⟩ := hflag.put_get hget
    cases flag with
    | false =>
      obtain ⟨rfl, rfl⟩ := Prod.mk.inj (Option.some.inj hf)
      refine ⟨by simp, by simp, ?_⟩
      rw [Option.elim_none, List.append_nil]
      exact hbytes
    | true =>
      obtain ⟨a, mid', ha, hpure⟩ := Reader.bind_eq_some.mp hf
      obtain ⟨rfl, rfl⟩ := Prod.mk.inj (Option.some.inj hpure)
      obtain ⟨hfits, hok, hmid⟩ := h.put_get ha
      refine ⟨?_, ?_, ?_⟩
      · rintro b ⟨⟩
        exact hfits
      · rintro b ⟨⟩
        exact hok
      · rw [List.append_assoc, Option.isSome_some, Option.elim_some, hmid, hbytes]

end Codec

end Pbr.Lib
