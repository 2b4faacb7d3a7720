import Mathlib.Data.List.Basic
import Mathlib.Data.List.Forall2

/-!
# Lines — values behind fixed openings, with nothing escaped

A text of values, each but the first behind an opening such as a line break
with a key. A value may hold what opens a line, so a text may be read in
several ways. `unique_iff` says when it has one reading: no value holds the
opening of its own line or of the next one where what is cut off still fits.
-/

namespace Pbr.Lib.Lines

variable {β : Type}

/-- How a line may open, and which values fit on it. -/
structure Line (β : Type) where
  opens : List β → Prop
  fits : List β → Prop

/-- A value, then lines: each with its opening and its value. -/
def text (v : List β) : List (List β × List β) → List β
  | [] => v
  | (opening, w) :: lines => v ++ (opening ++ text w lines)

def Reads (form : List (Line β)) (lines : List (List β × List β)) : Prop :=
  List.Forall₂ (fun line l => line.opens l.1 ∧ line.fits l.2) form lines

/-- A value on a line holds no opening of this line or the next, where a
reading could start there. -/
structure Plain (line : Line β) (next : Option (Line β)) (v : List β) : Prop where
  own : ∀ {x opening y}, line.opens opening → v = x ++ (opening ++ y) → ¬ line.fits y
  next : ∀ {l x opening y}, l ∈ next → l.opens opening → v = x ++ (opening ++ y) → ¬ line.fits x

def AllPlain (line : Line β) (v : List β) : List (Line β) → List (List β × List β) → Prop
  | l :: form, (_, w) :: lines => Plain line (some l) v ∧ AllPlain l w form lines
  | _, _ => Plain line none v

/-- Openings that cannot be mistaken for one another. -/
structure Apart (form : List (Line β)) : Prop where
  nonempty : ∀ {line opening}, line ∈ form → line.opens opening → opening ≠ []
  /-- No opening starts inside another. -/
  inside : ∀ {line line' a b opening x y}, line ∈ form → line' ∈ form → line.opens (a ++ b) → a ≠ [] → b ≠ [] →
    line'.opens opening → b ++ x ≠ opening ++ y
  same : ∀ {line opening opening' x y}, line ∈ form → line.opens opening → line.opens opening' →
    opening ++ x = opening' ++ y → opening = opening'
  other : form.Pairwise fun line line' => ∀ {opening opening' x y}, line.opens opening →
    line'.opens opening' → opening ++ x ≠ opening' ++ y

/-- What holds a value that fits, fits. -/
def Grows (line : Line β) : Prop := ∀ {x v y}, line.fits v → line.fits (x ++ (v ++ y))

/-- The text has no other reading. -/
def Unique (line : Line β) (v : List β) (form : List (Line β)) (lines : List (List β × List β)) : Prop :=
  ∀ v' lines', line.fits v' → Reads form lines' → text v' lines' = text v lines → v' = v ∧ lines' = lines

variable {line l : Line β} {form : List (Line β)} {lines lines' : List (List β × List β)}
  {v v' w z opening opening' : List β}

theorem Apart.tail (h : Apart (line :: form)) : Apart form where
  nonempty hline := h.nonempty (List.mem_cons_of_mem _ hline)
  inside hline hline' := h.inside (List.mem_cons_of_mem _ hline) (List.mem_cons_of_mem _ hline')
  same hline := h.same (List.mem_cons_of_mem _ hline)
  other := (List.pairwise_cons.mp h.other).2

/-- Where an opening is met before another, it is read whole first. -/
theorem Apart.meet {line' : Line β} {e R T : List β} (h : Apart form) (hline : line ∈ form) (hline' : line' ∈ form)
    (hopens : line.opens opening) (hopens' : line'.opens opening') (heq : opening ++ R = e ++ (opening' ++ T)) :
    (∃ f, e = opening ++ f ∧ R = f ++ (opening' ++ T)) ∨ e = [] ∧ opening ++ R = opening' ++ T := by
  rcases List.append_eq_append_iff.mp heq with ⟨f, he, hR⟩ | ⟨f, hopening, hT⟩
  · exact .inl ⟨f, he, hR⟩
  by_cases he : e = []
  · subst he
    exact .inr ⟨rfl, heq⟩
  by_cases hf : f = []
  · subst hf
    rw [List.append_nil] at hopening
    rw [List.nil_append] at hT
    exact .inl ⟨[], by rw [hopening, List.append_nil], hT.symm⟩
  · rw [hopening] at hopens
    exact absurd hT.symm (h.inside hline hline' hopens he hf hopens')

/-! ## One reading -/

/-- A reading that comes to a line late never catches up: the values it
passes over would hold the opening of their own line. -/
theorem not_behind (happart : Apart (l :: form)) (hgrows : ∀ line ∈ l :: form, Grows line)
    (hlines : Reads form lines) (hlines' : Reads form lines') (hopens : l.opens opening)
    (hfits : l.fits v') (hplain : AllPlain l v form lines) : text v lines ≠ z ++ (opening ++ text v' lines') := by
  intro heq
  induction form generalizing l v z opening v' lines lines' with
  | nil =>
    cases hlines
    cases hlines'
    exact hplain.own hopens heq hfits
  | cons l₂ form ih =>
    obtain ⟨s₂, tail, hl₂, htail, rfl⟩ := List.forall₂_cons_left_iff.mp hlines
    obtain ⟨s₂', tail', hl₂', htail', rfl⟩ := List.forall₂_cons_left_iff.mp hlines'
    obtain ⟨hv, hrest⟩ := hplain
    have hmem : l ∈ l :: l₂ :: form := List.mem_cons_self
    have hmem₂ : l₂ ∈ l :: l₂ :: form := List.mem_cons_of_mem _ List.mem_cons_self
    have hother : ∀ {s s' x y}, l.opens s → l₂.opens s' → s ++ x ≠ s' ++ y :=
      (List.pairwise_cons.mp happart.other).1 l₂ List.mem_cons_self
    have hnext : ∀ {z}, text s₂.2 tail ≠ z ++ (s₂'.1 ++ text s₂'.2 tail') := by
      intro z
      exact ih happart.tail (fun line hline => hgrows line (List.mem_cons_of_mem _ hline)) htail htail'
        hl₂'.1 hl₂'.2 hrest
    simp only [text] at heq
    rcases List.append_eq_append_iff.mp heq with ⟨c, hz, hR⟩ | ⟨c, hvc, hX⟩
    · -- the late opening stands past this line's value
      rcases happart.meet hmem₂ hmem hl₂.1 hopens hR with ⟨f, -, hR⟩ | ⟨-, hR⟩
      · apply hnext
        rw [hR, ← List.append_assoc, ← List.append_assoc]
      · exact hother hopens hl₂.1 hR.symm
    · rcases happart.meet hmem hmem₂ hopens hl₂.1 hX with ⟨d, hc, hX⟩ | ⟨-, hX⟩
      · rw [hc] at hvc
        rcases List.append_eq_append_iff.mp hX with ⟨e, hd, -⟩ | ⟨e, hv', hR⟩
        · -- the value cut off holds one that fits
          have hgrown : l.fits ([] ++ (v' ++ e)) := hgrows l hmem hfits
          exact hv.own hopens hvc (hd ▸ hgrown)
        · rcases happart.meet hmem₂ hmem₂ hl₂.1 hl₂'.1 hR with ⟨f, -, hR⟩ | ⟨he, -⟩
          · exact hnext hR
          · rw [he, List.append_nil] at hv'
            exact hv.own hopens hvc (hv' ▸ hfits)
      · exact hother hopens hl₂.1 hX

theorem unique_of_plain (happart : Apart form) (hgrows : ∀ line ∈ form, Grows line)
    (hlines : Reads form lines) (hplain : AllPlain line v form lines) : Unique line v form lines := by
  intro v' lines' hfits hlines' heq
  induction form generalizing line v v' lines lines' with
  | nil =>
    cases hlines
    cases hlines'
    exact ⟨heq, rfl⟩
  | cons l form ih =>
    obtain ⟨s, tail, hl, htail, rfl⟩ := List.forall₂_cons_left_iff.mp hlines
    obtain ⟨s', tail', hl', htail', rfl⟩ := List.forall₂_cons_left_iff.mp hlines'
    obtain ⟨hv, hrest⟩ := hplain
    have hmem : l ∈ l :: form := List.mem_cons_self
    -- from the same place on, the next value and the rest are the same
    have hsame : s'.1 ++ text s'.2 tail' = s.1 ++ text s.2 tail → s' :: tail' = s :: tail := by
      intro hR
      have hopening := happart.same hmem hl'.1 hl.1 hR
      rw [hopening] at hR
      obtain ⟨hvalue, hrests⟩ := ih happart.tail (fun line hline => hgrows line (List.mem_cons_of_mem _ hline))
        htail hrest _ _ hl'.2 htail' (List.append_cancel_left hR)
      rw [hrests, Prod.ext hopening hvalue]
    simp only [text] at heq
    rcases List.append_eq_append_iff.mp heq with ⟨c, hvc, hR⟩ | ⟨c, hvc, hR⟩
    · rcases happart.meet hmem hmem hl'.1 hl.1 hR with ⟨f, hc, -⟩ | ⟨hc, hR⟩
      · rw [hc] at hvc
        exact absurd hfits (hv.next rfl hl'.1 hvc)
      · rw [hc, List.append_nil] at hvc
        exact ⟨hvc.symm, hsame hR⟩
    · rcases happart.meet hmem hmem hl.1 hl'.1 hR with ⟨f, -, hR⟩ | ⟨hc, hR⟩
      · exact absurd hR (not_behind happart hgrows htail htail' hl'.1 hl'.2 hrest)
      · rw [hc, List.append_nil] at hvc
        exact ⟨hvc, hsame hR.symm⟩

/-! ## Another reading -/

section

variable (happart : Apart form) (hgrows : ∀ l ∈ line :: form, Grows l) (hlines : Reads form lines)
  (hfits : line.fits v)
include happart hgrows hlines hfits

theorem plain_of_unique (hown : ∀ {x opening y}, line.opens opening → v = x ++ (opening ++ y) → ¬ line.fits y)
    (h : Unique line v form lines) : AllPlain line v form lines := by
  induction form generalizing line v lines with
  | nil =>
    cases hlines
    exact ⟨hown, fun hnone => by cases hnone⟩
  | cons l form ih =>
    obtain ⟨s, tail, hl, htail, rfl⟩ := List.forall₂_cons_left_iff.mp hlines
    have hmem : l ∈ l :: form := List.mem_cons_self
    -- a longer first value is another reading
    have hlonger : ∀ {x opening lines'}, opening ≠ [] → line.fits (v ++ (opening ++ x)) →
        Reads (l :: form) lines' → text (v ++ (opening ++ x)) lines' ≠ text v (s :: tail) := by
      intro x opening lines' hopening hx hreads heq
      obtain ⟨hxv, -⟩ := h _ _ hx hreads heq
      have hlength := congrArg List.length hxv
      have hpos := List.length_pos_of_ne_nil hopening
      simp only [List.length_append] at hlength
      omega
    refine ⟨⟨hown, ?_⟩, ?_⟩
    · -- cut off at the opening of the next line, which goes on past its own
      intro l' x opening y hl' hopens hv hx
      obtain rfl : l = l' := Option.some.inj hl'
      have hreads : Reads (l :: form) ((opening, y ++ (s.1 ++ s.2)) :: tail) := by
        refine List.Forall₂.cons ⟨hopens, ?_⟩ htail
        have hgrown : l.fits ((y ++ s.1) ++ (s.2 ++ [])) := hgrows l (List.mem_cons_of_mem _ hmem) hl.2
        simpa using hgrown
      obtain ⟨hxv, -⟩ := h x _ hx hreads (by cases tail <;> simp [text, hv])
      rw [hxv] at hv
      have hlength := congrArg List.length hv
      have hpos := List.length_pos_of_ne_nil (happart.nonempty hmem hopens)
      simp only [List.length_append] at hlength
      omega
    · refine ih happart.tail (fun line hline => hgrows line (List.mem_cons_of_mem _ hline)) htail hl.2 ?_ ?_
      · -- its line opened where the value holds its opening, the value before goes on to there
        intro x opening y hopens hw hy
        have hreads : Reads (l :: form) ((opening, y) :: tail) := .cons ⟨hopens, hy⟩ htail
        have hgrown : line.fits ([] ++ (v ++ (s.1 ++ x))) := hgrows line List.mem_cons_self hfits
        refine hlonger (happart.nonempty hmem hl.1) hgrown hreads ?_
        cases tail <;> simp [text, hw]
      · intro w lines' hw hlines' heq
        have hreads : Reads (l :: form) ((s.1, w) :: lines') := .cons ⟨hl.1, hw⟩ hlines'
        obtain ⟨-, hboth⟩ := h v _ hfits hreads (by simp [text, heq])
        injection hboth with hpair hrests
        exact ⟨congrArg Prod.snd hpair, hrests⟩

/-- A text has one reading just when no value holds the opening of its own
line or of the next where a reading could start. -/
theorem unique_iff (hfirst : ∀ opening, ¬ line.opens opening) :
    Unique line v form lines ↔ AllPlain line v form lines := by
  constructor
  · apply plain_of_unique happart hgrows hlines hfits
    intro x opening y hopens
    exact absurd hopens (hfirst opening)
  · exact unique_of_plain happart (fun l hl => hgrows l (List.mem_cons_of_mem _ hl)) hlines

end

/-! ## Keys -/

/-- A line that opens with a break, a key and `eq`; between the key and the
value there may stand a text without a break and a line with a second key. -/
structure KeyLine (β : Type) where
  key : List β
  inner : Option ((List β → Prop) × List β) := none
  fits : List β → Prop

variable (nl eq : β)

def KeyLine.Opens (k : KeyLine β) (opening : List β) : Prop :=
  match k.inner with
  | none => opening = nl :: (k.key ++ [eq])
  | some (mid, second) => ∃ x, mid x ∧ opening = nl :: (k.key ++ eq :: (x ++ nl :: (second ++ [eq])))

def KeyLine.toLine (k : KeyLine β) : Line β where
  opens := k.Opens nl eq
  fits := k.fits

/-- Keys without breaks or `eq`, each once, and none a second key. -/
structure KeysApart (form : List (KeyLine β)) : Prop where
  clean : ∀ line ∈ form, nl ∉ line.key ∧ eq ∉ line.key
  inner : ∀ line ∈ form, ∀ inner ∈ line.inner, (∀ x, inner.1 x → nl ∉ x) ∧ nl ∉ inner.2 ∧ eq ∉ inner.2 ∧
    ∀ other ∈ form, inner.2 ≠ other.key
  nodup : (form.map KeyLine.key).Nodup

variable {nl eq} {keys : List (KeyLine β)} {k k' : KeyLine β} {x y a b : List β}

/-- Two texts are cut at the same first mark. -/
theorem append_mark_inj {mark : β} (hx : mark ∉ x) (hy : mark ∉ y) (h : x ++ mark :: a = y ++ mark :: b) :
    x = y ∧ a = b := by
  induction x generalizing y with
  | nil =>
    cases y with
    | nil => exact ⟨rfl, List.tail_eq_of_cons_eq h⟩
    | cons c y => exact absurd (List.head_eq_of_cons_eq h) fun heq => hy (heq ▸ List.mem_cons_self)
  | cons c x ih =>
    cases y with
    | nil => exact absurd (List.head_eq_of_cons_eq h) fun heq => hx (heq ▸ List.mem_cons_self)
    | cons d y =>
      have hhead : c = d := List.head_eq_of_cons_eq h
      obtain ⟨hxy, hab⟩ := ih (fun hm => hx (List.mem_cons_of_mem _ hm))
        (fun hm => hy (List.mem_cons_of_mem _ hm)) (List.tail_eq_of_cons_eq h)
      exact ⟨by rw [hhead, hxy], hab⟩

theorem append_last_mark_inj {mark : β} (ha : mark ∉ a) (hb : mark ∉ b) (h : x ++ mark :: a = y ++ mark :: b) :
    x = y ∧ a = b := by
  have hreverse : a.reverse ++ mark :: x.reverse = b.reverse ++ mark :: y.reverse := by
    simpa using congrArg List.reverse h
  obtain ⟨hab, hxy⟩ := append_mark_inj (by simpa using ha) (by simpa using hb) hreverse
  exact ⟨List.reverse_inj.mp hxy, List.reverse_inj.mp hab⟩

/-- An opening is a break and its key, up to the first `eq`. -/
theorem KeyLine.Opens.starts {opening : List β} (h : k.Opens nl eq opening) :
    ∃ rest, opening = nl :: (k.key ++ eq :: rest) := by
  rw [KeyLine.Opens] at h
  split at h
  · exact ⟨[], h⟩
  · obtain ⟨x, -, hx⟩ := h
    exact ⟨_, hx⟩

theorem KeysApart.key_eq (h : KeysApart nl eq keys) {opening opening' : List β} (hk : k ∈ keys) (hk' : k' ∈ keys)
    (hopens : k.Opens nl eq opening) (hopens' : k'.Opens nl eq opening') (heq : opening ++ x = opening' ++ y) :
    k.key = k'.key := by
  obtain ⟨rest, rfl⟩ := hopens.starts
  obtain ⟨rest', rfl⟩ := hopens'.starts
  have htail : k.key ++ eq :: (rest ++ x) = k'.key ++ eq :: (rest' ++ y) := by simpa using heq
  exact (append_mark_inj (h.clean k hk).2 (h.clean k' hk').2 htail).1

/-- The part of an opening from a break on is its second line. -/
theorem KeysApart.second_of_suffix (h : KeysApart nl eq keys) (hne : nl ≠ eq) (hk : k ∈ keys)
    (hopens : k.Opens nl eq (a ++ nl :: b)) (ha : a ≠ []) : ∃ inner ∈ k.inner, b = inner.2 ++ [eq] := by
  obtain ⟨c, a, rfl⟩ := List.exists_cons_of_ne_nil ha
  have hkey := (h.clean k hk).1
  rw [KeyLine.Opens] at hopens
  split at hopens
  · -- a break within a lone key
    have htail : a ++ nl :: b = k.key ++ [eq] := by simpa using List.tail_eq_of_cons_eq hopens
    have hmem : nl ∈ k.key ++ [eq] := htail ▸ List.mem_append_right a List.mem_cons_self
    simp [hkey, hne] at hmem
  next mid second hinner =>
    obtain ⟨x, hx, hopening⟩ := hopens
    obtain ⟨hclean, hsecond, -, -⟩ := h.inner k hk (mid, second) hinner
    have htail : a ++ nl :: b = (k.key ++ eq :: x) ++ nl :: (second ++ [eq]) := by
      simpa using List.tail_eq_of_cons_eq hopening
    have hbefore : nl ∉ k.key ++ eq :: x := by simp [hkey, hne, hclean x hx]
    have hafter : nl ∉ second ++ [eq] := by simp [hsecond, hne]
    -- the break found is the only one
    rcases List.append_eq_append_iff.mp htail with ⟨d, hd, hb⟩ | ⟨d, hd, hb⟩
    · cases d with
      | nil => exact ⟨(mid, second), hinner, List.tail_eq_of_cons_eq hb⟩
      | cons e d =>
        have he : nl = e := List.head_eq_of_cons_eq hb
        exact absurd (hd ▸ by simp [he]) hbefore
    · cases d with
      | nil => exact ⟨(mid, second), hinner, (List.tail_eq_of_cons_eq hb).symm⟩
      | cons e d =>
        have hrest : second ++ [eq] = d ++ nl :: b := List.tail_eq_of_cons_eq hb
        exact absurd (hrest ▸ by simp) hafter

theorem KeysApart.apart (h : KeysApart nl eq keys) (hne : nl ≠ eq) : Apart (keys.map (KeyLine.toLine nl eq)) where
  nonempty := by
    intro line opening hline hopens
    obtain ⟨k, hk, rfl⟩ := List.mem_map.mp hline
    obtain ⟨rest, rfl⟩ := KeyLine.Opens.starts hopens
    simp
  inside := by
    intro line line' a b opening x y hline hline' hopens ha hb hopens' heq
    obtain ⟨k, hk, rfl⟩ := List.mem_map.mp hline
    obtain ⟨k', hk', rfl⟩ := List.mem_map.mp hline'
    obtain ⟨rest, rfl⟩ := KeyLine.Opens.starts hopens'
    obtain ⟨c, b, rfl⟩ := List.exists_cons_of_ne_nil hb
    obtain rfl : c = nl := List.head_eq_of_cons_eq heq
    obtain ⟨inner, hinner, rfl⟩ := h.second_of_suffix hne hk hopens ha
    obtain ⟨-, -, hsecond, hother⟩ := h.inner k hk inner hinner
    have htail : inner.2 ++ eq :: x = k'.key ++ eq :: (rest ++ y) := by
      simpa using List.tail_eq_of_cons_eq heq
    exact hother k' hk' (append_mark_inj hsecond (h.clean k' hk').2 htail).1
  same := by
    intro line opening opening' x y hline hopens hopens' heq
    obtain ⟨k, hk, rfl⟩ := List.mem_map.mp hline
    have hopensₖ : k.Opens nl eq opening := hopens
    have hopensₖ' : k.Opens nl eq opening' := hopens'
    rw [KeyLine.Opens] at hopensₖ hopensₖ'
    split at hopensₖ
    next hinner =>
      rw [hinner] at hopensₖ'
      rw [hopensₖ, hopensₖ']
    next mid second hinner =>
      rw [hinner] at hopensₖ'
      obtain ⟨z, hz, rfl⟩ := hopensₖ
      obtain ⟨z', hz', rfl⟩ := hopensₖ'
      obtain ⟨hclean, -, -, -⟩ := h.inner k hk (mid, second) hinner
      have htail : z ++ nl :: (second ++ eq :: x) = z' ++ nl :: (second ++ eq :: y) := by simpa using heq
      rw [(append_mark_inj (hclean z hz) (hclean z' hz') htail).1]
  other := by
    rw [List.pairwise_map]
    have hkeys := List.pairwise_map.mp h.nodup
    refine hkeys.imp_of_mem ?_
    intro k k' hk hk' hdiff opening opening' x y hopens hopens' heq
    exact hdiff (h.key_eq hk hk' hopens hopens' heq)

theorem allPlain_of_notMem {lines : List (List β × List β)} {v : List β} {line : Line β}
    (hline : ∀ opening, line.opens opening → nl ∈ opening) (hv : nl ∉ v) (hlines : ∀ l ∈ lines, nl ∉ l.2) :
    AllPlain line v (keys.map (KeyLine.toLine nl eq)) lines := by
  have hkey : ∀ {k : KeyLine β} {opening}, (k.toLine nl eq).opens opening → nl ∈ opening := by
    intro k opening hopens
    obtain ⟨rest, rfl⟩ := KeyLine.Opens.starts hopens
    exact List.mem_cons_self
  have hcut : ∀ {v x opening y : List β}, nl ∉ v → nl ∈ opening → v ≠ x ++ (opening ++ y) := by
    intro v x opening y hv hopening heq
    exact hv (heq ▸ List.mem_append_right x (List.mem_append_left y hopening))
  induction keys generalizing line v lines with
  | nil => exact ⟨fun hopens heq => absurd heq (hcut hv (hline _ hopens)), fun hnone => by cases hnone⟩
  | cons k keys ih =>
    cases lines with
    | nil => exact ⟨fun hopens heq => absurd heq (hcut hv (hline _ hopens)), fun hnone => by cases hnone⟩
    | cons l lines =>
      refine ⟨⟨?_, ?_⟩, ih (fun _ => hkey) (hlines l List.mem_cons_self)
        fun l hl => hlines l (List.mem_cons_of_mem _ hl)⟩
      · intro x opening y hopens heq
        exact absurd heq (hcut hv (hline _ hopens))
      · intro l' x opening y hl' hopens heq
        obtain rfl := Option.some.inj hl'
        exact absurd heq (hcut hv (hkey hopens))

end Pbr.Lib.Lines
