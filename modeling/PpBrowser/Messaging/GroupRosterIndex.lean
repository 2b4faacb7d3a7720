import Mathlib.Data.String.Basic
import PpBrowser.Messaging.GroupRosterRules

/-!
# GroupRosterIndex — what `Classify` and `Index` fill

One lemma per map of `RosterRules`: which changes it has, in terms of the
changes given. Later modules cite these and never unfold the loops.
-/

namespace Pbr

open Lib

/-! ## Collapsing copies -/

theorem betterCopy_irrefl (c : CheckedGroupChange) : betterCopy c c = false := by
  simp [betterCopy]

theorem betterCopy_trans {a b c : CheckedGroupChange} (hab : betterCopy a b = true)
    (hbc : betterCopy b c = true) : betterCopy a c = true := by
  unfold betterCopy at *
  split at hab <;> split at hbc <;> simp only [decide_eq_true_eq] at hab hbc <;> split <;>
    simp only [decide_eq_true_eq]
  all_goals first
    | omega
    | exact lt_trans hab hbc

/-- Not being better is a preorder: keeping `b` over `a` and `c` over `b`
keeps `c` over `a`. -/
theorem betterCopy_false_trans {a b c : CheckedGroupChange} (hab : betterCopy a b = false)
    (hbc : betterCopy b c = false) : betterCopy a c = false := by
  unfold betterCopy at *
  split at hab <;> split at hbc <;> simp only [decide_eq_false_iff_not, not_lt] at hab hbc <;>
    split <;> simp only [decide_eq_false_iff_not, not_lt]
  all_goals first
    | omega
    | exact le_trans hbc hab

theorem betterCopy_asymm {a b : CheckedGroupChange} (h : betterCopy a b = true) : betterCopy b a = false := by
  by_contra hn
  have := betterCopy_trans h (by simpa using hn)
  rw [betterCopy_irrefl] at this
  cases this

/-- What the copies kept so far say of the changes walked. -/
structure Best (walked : List CheckedGroupChange) (best : StrMap CheckedGroupChange) : Prop where
  keyed : Keyed CheckedGroupChange.id best
  mem : ∀ (k : String) (c : CheckedGroupChange), best[k]? = some c → c ∈ walked
  covers : ∀ c ∈ walked, ∃ b, best[c.id]? = some b ∧ betterCopy c b = false

theorem Best.step {walked : List CheckedGroupChange} {best : StrMap CheckedGroupChange}
    (h : Best walked best) (c : CheckedGroupChange) : Best (walked ++ [c]) (collapseStep best c) := by
  -- `c` takes the slot, over a copy that is not better
  have take (hb : ∀ b, best[c.id]? = some b → betterCopy b c = false) :
      Best (walked ++ [c]) (best.insert c.id c) := by
    refine ⟨h.keyed.insert c, ?_, ?_⟩
    · intro k d hd
      rw [Std.ExtTreeMap.getElem?_insert] at hd
      split at hd
      · cases hd; simp
      · exact List.mem_append_left _ (h.mem k d hd)
    · intro d hd
      rw [Std.ExtTreeMap.getElem?_insert]
      by_cases hk : c.id = d.id
      · refine ⟨c, by simp [hk], ?_⟩
        rcases List.mem_append.mp hd with hd | hd
        · obtain ⟨b, hb', hdb⟩ := h.covers d hd
          exact betterCopy_false_trans hdb (hb b (hk ▸ hb'))
        · rw [List.mem_singleton.mp hd]
          exact betterCopy_irrefl c
      · have hd : d ∈ walked := by
          rcases List.mem_append.mp hd with hd | hd
          · exact hd
          · exact absurd (by rw [List.mem_singleton.mp hd]) hk
        simpa [hk] using h.covers d hd
  unfold collapseStep
  cases hc : best[c.id]? with
  | none => simpa only using take fun b hb => by rw [hc] at hb; cases hb
  | some kept =>
    simp only
    cases hbc : betterCopy c kept with
    | true =>
      rw [if_pos rfl]
      refine take fun b hb => ?_
      rw [hc] at hb
      cases hb
      exact betterCopy_asymm hbc
    | false =>
      rw [if_neg (by simp)]
      refine ⟨h.keyed, fun k d hd => List.mem_append_left _ (h.mem k d hd), fun d hd => ?_⟩
      rcases List.mem_append.mp hd with hd | hd
      · exact h.covers d hd
      · rw [List.mem_singleton.mp hd]
        exact ⟨kept, hc, hbc⟩

theorem best_collapse (changes : List CheckedGroupChange) : Best changes (changes.foldl collapseStep ∅) := by
  have run (l walked : List CheckedGroupChange) (best : StrMap CheckedGroupChange)
      (h : Best walked best) : Best (walked ++ l) (l.foldl collapseStep best) := by
    induction l generalizing walked best with
    | nil => simpa using h
    | cons c l ih => simpa using ih _ _ (h.step c)
  exact run changes [] ∅ ⟨keyed_empty _, by simp, by simp⟩

section Collapse

variable {changes : List CheckedGroupChange} {c : CheckedGroupChange}

theorem mem_of_mem_collapse (h : c ∈ collapse changes) : c ∈ changes := by
  obtain ⟨k, hk⟩ := mem_values.mp h
  exact (best_collapse changes).mem k c hk

theorem exists_mem_collapse (h : c ∈ changes) : ∃ b ∈ collapse changes, b.id = c.id ∧ betterCopy c b = false := by
  obtain ⟨b, hb, hcb⟩ := (best_collapse changes).covers c h
  exact ⟨b, mem_values.mpr ⟨_, hb⟩, (best_collapse changes).keyed _ b hb, hcb⟩

theorem collapse_sorted (changes : List CheckedGroupChange) :
    ((collapse changes).map CheckedGroupChange.id).Pairwise (· < ·) := by
  rw [collapse, (best_collapse changes).keyed.map_values]
  exact Std.ExtTreeMap.ordered_keys.imp compare_lt_iff_lt.mp

theorem nodup_collapse (changes : List CheckedGroupChange) : ((collapse changes).map CheckedGroupChange.id).Nodup :=
  (collapse_sorted changes).imp ne_of_lt

theorem mem_collapse_of_nodup (hn : (changes.map CheckedGroupChange.id).Nodup) : c ∈ collapse changes ↔ c ∈ changes := by
  constructor
  · exact mem_of_mem_collapse
  · intro hc
    obtain ⟨b, hb, hid, -⟩ := exists_mem_collapse hc
    rwa [← List.inj_on_of_nodup_map hn (mem_of_mem_collapse hb) hc hid]

end Collapse

@[simp] theorem checkOne_change (K : GroupCrypto) (c : GroupChange) (cards : List AccountCard) :
    (checkOne K c cards).change = c := by
  unfold checkOne
  split <;> [skip; split <;> [split; skip]] <;> rfl

@[simp] theorem checkOne_id (K : GroupCrypto) (c : GroupChange) (cards : List AccountCard) :
    (checkOne K c cards).id = c.id K := by
  unfold checkOne
  split <;> [skip; split <;> [split; skip]] <;> rfl

theorem mem_of_mem_checkChanges {K : GroupCrypto} {changes : List GroupChange}
    {cards : GroupCardLookup} {now : Int} {c : CheckedGroupChange}
    (h : c ∈ checkChanges K changes cards now) : c.change ∈ changes ∧ c.id = c.change.id K := by
  obtain ⟨change, hc, rfl⟩ := List.mem_map.mp (mem_of_mem_collapse h)
  simpa using hc

theorem nodup_checkChanges (K : GroupCrypto) (changes : List GroupChange) (cards : GroupCardLookup)
    (now : Int) : ((checkChanges K changes cards now).map CheckedGroupChange.id).Nodup :=
  nodup_collapse _

theorem exists_mem_checked {K : GroupCrypto} {changes : List GroupChange}
    (cards : GroupCardLookup) (now : Int) {c : GroupChange} (h : c ∈ changes) :
    ∃ d ∈ collapse (checkChanges K changes cards now),
      d.id = c.id K ∧ d.change ∈ changes ∧ d.change.id K = c.id K := by
  obtain ⟨b, hb, hid, -⟩ := exists_mem_collapse (List.mem_map.mpr ⟨c, h, rfl⟩ :
    checkOne K c (provedCards K c.signer changes cards now) ∈ changes.map fun c =>
      checkOne K c (provedCards K c.signer changes cards now))
  obtain ⟨d, hd, hid', -⟩ := exists_mem_collapse hb
  have hdc : d.id = c.id K := by rw [hid', hid, checkOne_id]
  obtain ⟨hmem, hdid⟩ := mem_of_mem_checkChanges (mem_of_mem_collapse hd)
  exact ⟨d, hd, hdc, hmem, by rw [← hdid, hdc]⟩

theorem mem_foldedIds {s : GroupRosterStatement} {id : String} :
    id ∈ RosterRules.foldedIds s ↔ ∃ f ∈ s.folded, f.id = id := by
  simp [RosterRules.foldedIds, mem_foldl_insert]

variable {α : Type}

@[simp] theorem StrMap.of_empty (key : String) : StrMap.of (∅ : StrMap (List α)) key = [] := by
  simp [StrMap.of]

@[simp] theorem StrMap.of_pushBack (index : StrMap (List α)) (key k : String) (c : α) :
    (index.pushBack key c).of k = if key = k then index.of k ++ [c] else index.of k := by
  unfold StrMap.pushBack
  by_cases h : key = k
  · simp [StrMap.of, h]
  · simp [StrMap.of, Std.ExtTreeMap.getElem?_insert, h]

theorem StrMap.mem_pushBack {index : StrMap (List α)} {key k : String} {c : α} :
    k ∈ index.pushBack key c ↔ key = k ∨ k ∈ index := by
  simp [StrMap.pushBack]

/-- Pushing `c` under each of `keys`. -/
theorem StrMap.of_foldl_pushBack (keys : List String) (index : StrMap (List α)) (c : α) (k : String) :
    (keys.foldl (·.pushBack · c) index).of k = index.of k ++ (keys.filter (· = k)).map fun _ => c := by
  induction keys generalizing index with
  | nil => simp
  | cons key keys ih =>
    rw [List.foldl_cons, ih, StrMap.of_pushBack]
    by_cases h : key = k <;> simp [h]

theorem StrMap.mem_foldl_pushBack (keys : List String) (index : StrMap (List α))
    (c : α) {k : String} : k ∈ keys.foldl (·.pushBack · c) index ↔ k ∈ keys ∨ k ∈ index := by
  induction keys generalizing index with
  | nil => simp
  | cons key keys ih =>
    rw [List.foldl_cons, ih, StrMap.mem_pushBack, List.mem_cons, eq_comm (a := k)]
    exact or_left_comm.trans or_assoc.symm

namespace RosterRules

/-! ## Classify -/

section Classify

variable (folded : StrSet) (x : RosterRules) (changes : List CheckedGroupChange)

/-- `Classify` writes the held changes, verdicts and joining accounts only. -/
theorem classifyStep_eq (c : CheckedGroupChange) :
    classifyStep folded x c =
      { x with
        held := (classifyStep folded x c).held
        verdicts := (classifyStep folded x c).verdicts
        joining := (classifyStep folded x c).joining } := by
  unfold classifyStep
  split <;> rfl

theorem foldl_classifyStep_eq :
    changes.foldl (classifyStep folded) x =
      { x with
        held := (changes.foldl (classifyStep folded) x).held
        verdicts := (changes.foldl (classifyStep folded) x).verdicts
        joining := (changes.foldl (classifyStep folded) x).joining } := by
  induction changes generalizing x with
  | nil => rfl
  | cons c changes ih =>
    rw [List.foldl_cons, ih]
    rw [classifyStep_eq folded x c]

theorem foldl_classifyStep_held : (changes.foldl (classifyStep folded) x).held =
      (changes.filter fun c => classifyOne x.s folded c = none).foldl (fun m c => m.insert c.id c) x.held := by
  induction changes generalizing x with
  | nil => rfl
  | cons c changes ih =>
    have hs : (classifyStep folded x c).s = x.s := by rw [classifyStep_eq]
    rw [List.foldl_cons, ih, hs]
    cases h : classifyOne x.s folded c with
    | none | some r => simp [h, classifyStep]

/-- The verdict `Classify` gives a change it does not hold. -/
def classified (s : GroupRosterStatement) (c : CheckedGroupChange) : GroupChangeVerdict :=
  match classifyOne s (foldedIds s) c with
  | none => verdictOf c .void .none
  | some (status, reason) => verdictOf c status reason

theorem foldl_classifyStep_verdicts : (changes.foldl (classifyStep (foldedIds x.s)) x).verdicts =
      (changes.filter fun c => classifyOne x.s (foldedIds x.s) c ≠ none).foldl
        (fun m c => m.insert c.id (classified x.s c)) x.verdicts := by
  induction changes generalizing x with
  | nil => rfl
  | cons c changes ih =>
    have hs : (classifyStep (foldedIds x.s) x c).s = x.s := by rw [classifyStep_eq]
    have ih := ih (classifyStep (foldedIds x.s) x c)
    rw [hs] at ih
    rw [List.foldl_cons, ih]
    cases h : classifyOne x.s (foldedIds x.s) c with
    | none => simp [h, classifyStep]
    | some r => simp [h, classifyStep, classified, mark]

theorem mem_foldl_classifyStep_joining {a : String} : a ∈ (changes.foldl (classifyStep folded) x).joining ↔
      a ∈ x.joining ∨ ∃ c ∈ changes, ∃ reason, classifyOne x.s folded c = some (.void, reason) ∧
        (if c.change.kind = .add then c.change.member else "") = a := by
  induction changes generalizing x with
  | nil => simp
  | cons c changes ih =>
    have hs : (classifyStep folded x c).s = x.s := by rw [classifyStep_eq]
    rw [List.foldl_cons, ih, hs]
    have hj : a ∈ (classifyStep folded x c).joining ↔
        a ∈ x.joining ∨ ∃ reason, classifyOne x.s folded c = some (.void, reason) ∧
          (if c.change.kind = .add then c.change.member else "") = a := by
      cases h : classifyOne x.s folded c with
      | none => simp [classifyStep, h]
      | some r =>
        obtain ⟨status, reason⟩ := r
        cases status <;> simp [classifyStep, h, or_comm]
    rw [hj]
    simp only [List.mem_cons, exists_eq_or_imp]
    exact or_assoc

end Classify

/-! ## Index -/

section Index

variable (l : Changes) (x : RosterRules) {a : String}

theorem indexStep_kept (c : CheckedGroupChange) : (indexStep x c).s = x.s ∧ (indexStep x c).now = x.now ∧
      (indexStep x c).sMembers = x.sMembers ∧ (indexStep x c).sRemoved = x.sRemoved ∧
      (indexStep x c).held = x.held ∧ (indexStep x c).verdicts = x.verdicts := by
  unfold indexStep
  cases c.change.kind <;> exact ⟨rfl, rfl, rfl, rfl, rfl, rfl⟩

theorem foldl_indexStep_kept : (l.foldl indexStep x).s = x.s ∧ (l.foldl indexStep x).now = x.now ∧
      (l.foldl indexStep x).sMembers = x.sMembers ∧ (l.foldl indexStep x).sRemoved = x.sRemoved ∧
      (l.foldl indexStep x).held = x.held ∧ (l.foldl indexStep x).verdicts = x.verdicts := by
  induction l generalizing x with
  | nil => exact ⟨rfl, rfl, rfl, rfl, rfl, rfl⟩
  | cons c l ih =>
    obtain ⟨h₁, h₂, h₃, h₄, h₅, h₆⟩ := indexStep_kept x c
    have := ih (indexStep x c)
    rwa [h₁, h₂, h₃, h₄, h₅, h₆] at this

theorem foldl_indexStep_adds : (l.foldl indexStep x).adds = x.adds ++ l.filter (·.change.kind = .add) := by
  induction l generalizing x with
  | nil => simp
  | cons c l ih =>
    rw [List.foldl_cons, ih]
    cases h : c.change.kind <;> simp [indexStep, h]

theorem foldl_indexStep_renames :
    (l.foldl indexStep x).renames = x.renames ++ l.filter (·.change.kind = .rename) := by
  induction l generalizing x with
  | nil => simp
  | cons c l ih =>
    rw [List.foldl_cons, ih]
    cases h : c.change.kind <;> simp [indexStep, h]

theorem foldl_indexStep_linkAdds :
    (l.foldl indexStep x).linkAdds = x.linkAdds ++ l.filter (·.change.kind = .linkAdd) := by
  induction l generalizing x with
  | nil => simp
  | cons c l ih =>
    rw [List.foldl_cons, ih]
    cases h : c.change.kind <;> simp [indexStep, h]

theorem foldl_indexStep_linkRevokes : (l.foldl indexStep x).linkRevokes =
      x.linkRevokes ++ l.filter (·.change.kind = .linkRevoke) := by
  induction l generalizing x with
  | nil => simp
  | cons c l ih =>
    rw [List.foldl_cons, ih]
    cases h : c.change.kind <;> simp [indexStep, h]

theorem foldl_indexStep_removesOf (a : String) : (l.foldl indexStep x).removesOf.of a =
      x.removesOf.of a ++ l.filter fun c => c.change.kind = .remove ∧ c.change.member = a := by
  induction l generalizing x with
  | nil => simp
  | cons c l ih =>
    rw [List.foldl_cons, ih]
    cases h : c.change.kind <;> simp [indexStep, h]
    split <;> simp [*]

theorem mem_foldl_indexStep_removesOf : a ∈ (l.foldl indexStep x).removesOf ↔
      a ∈ x.removesOf ∨ ∃ c ∈ l, c.change.kind = .remove ∧ c.change.member = a := by
  induction l generalizing x with
  | nil => simp
  | cons c l ih =>
    rw [List.foldl_cons, ih]
    cases h : c.change.kind <;> simp [indexStep, h, StrMap.mem_pushBack]
    tauto

theorem foldl_indexStep_leavesBy (a : String) : (l.foldl indexStep x).leavesBy.of a =
      x.leavesBy.of a ++ l.filter fun c => c.change.kind = .leave ∧ c.change.signer = a := by
  induction l generalizing x with
  | nil => simp
  | cons c l ih =>
    rw [List.foldl_cons, ih]
    cases h : c.change.kind <;> simp [indexStep, h]
    split <;> simp [*]

theorem mem_foldl_indexStep_leavesBy : a ∈ (l.foldl indexStep x).leavesBy ↔
      a ∈ x.leavesBy ∨ ∃ c ∈ l, c.change.kind = .leave ∧ c.change.signer = a := by
  induction l generalizing x with
  | nil => simp
  | cons c l ih =>
    rw [List.foldl_cons, ih]
    cases h : c.change.kind <;> simp [indexStep, h, StrMap.mem_pushBack]
    tauto

/-- The changes of `kind` in `l` that keep `id`, one for each time they do. -/
def keepersOf (kind : GroupChangeKind) (l : Changes) (id : String) : Changes :=
  (l.filter (·.change.kind = kind)).flatMap fun c =>
    (c.change.keeps.filter (· = id)).map fun _ => c

theorem mem_keepersOf {kind : GroupChangeKind} {id : String} {c : CheckedGroupChange} :
    c ∈ keepersOf kind l id ↔ c ∈ l ∧ c.change.kind = kind ∧ id ∈ c.change.keeps := by
  simp only [keepersOf, List.mem_flatMap, List.mem_filter, List.mem_map, decide_eq_true_eq]
  constructor
  · rintro ⟨c', ⟨hc, hk⟩, _, ⟨hid, rfl⟩, rfl⟩
    exact ⟨hc, hk, hid⟩
  · rintro ⟨hc, hk, hid⟩
    exact ⟨c, ⟨hc, hk⟩, id, ⟨hid, rfl⟩, rfl⟩

theorem foldl_indexStep_keptByRemove (id : String) :
    (l.foldl indexStep x).keptByRemove.of id = x.keptByRemove.of id ++ keepersOf .remove l id := by
  induction l generalizing x with
  | nil => simp [keepersOf]
  | cons c l ih =>
    rw [List.foldl_cons, ih]
    cases h : c.change.kind <;>
      simp [indexStep, h, keepersOf, StrMap.of_foldl_pushBack]

theorem foldl_indexStep_keptByLeave (id : String) :
    (l.foldl indexStep x).keptByLeave.of id = x.keptByLeave.of id ++ keepersOf .leave l id := by
  induction l generalizing x with
  | nil => simp [keepersOf]
  | cons c l ih =>
    rw [List.foldl_cons, ih]
    cases h : c.change.kind <;>
      simp [indexStep, h, keepersOf, StrMap.of_foldl_pushBack]

theorem mem_foldl_indexStep_keptByLeave {id : String} : id ∈ (l.foldl indexStep x).keptByLeave ↔
      id ∈ x.keptByLeave ∨ ∃ c ∈ l, c.change.kind = .leave ∧ id ∈ c.change.keeps := by
  induction l generalizing x with
  | nil => simp
  | cons c l ih =>
    rw [List.foldl_cons, ih]
    cases h : c.change.kind <;> simp [indexStep, h, StrMap.mem_foldl_pushBack]
    tauto

theorem mem_foldl_indexStep_joining : a ∈ (l.foldl indexStep x).joining ↔
      a ∈ x.joining ∨ ∃ c ∈ l, c.change.kind = .add ∧ c.change.member = a := by
  induction l generalizing x with
  | nil => simp
  | cons c l ih =>
    rw [List.foldl_cons, ih]
    cases h : c.change.kind <;> simp [indexStep, h]
    tauto

end Index

/-! ## The rules over a set of changes -/

/-- `Classify` and `Index` over `changes`. -/
def indexed (s : GroupRosterStatement) (now : Int) (changes : List CheckedGroupChange) :
    RosterRules :=
  ((start s now).classify changes).index

/-- The held changes, in id order. -/
def heldChanges (x : RosterRules) : Changes := values x.held

/-- The indexes are of the held changes. -/
structure WellIndexed (x : RosterRules) : Prop where
  keyed : Keyed CheckedGroupChange.id x.held
  adds : x.adds = x.heldChanges.filter (·.change.kind = .add)
  renames : x.renames = x.heldChanges.filter (·.change.kind = .rename)
  linkAdds : x.linkAdds = x.heldChanges.filter (·.change.kind = .linkAdd)
  linkRevokes : x.linkRevokes = x.heldChanges.filter (·.change.kind = .linkRevoke)
  removesOf : ∀ a, x.removesOf.of a =
    x.heldChanges.filter fun c => c.change.kind = .remove ∧ c.change.member = a
  mem_removesOf : ∀ a : String, a ∈ x.removesOf ↔
    ∃ c ∈ x.heldChanges, c.change.kind = .remove ∧ c.change.member = a
  leavesBy : ∀ a, x.leavesBy.of a =
    x.heldChanges.filter fun c => c.change.kind = .leave ∧ c.change.signer = a
  mem_leavesBy : ∀ a : String, a ∈ x.leavesBy ↔
    ∃ c ∈ x.heldChanges, c.change.kind = .leave ∧ c.change.signer = a
  keptByRemove : ∀ id, x.keptByRemove.of id = keepersOf .remove x.heldChanges id
  keptByLeave : ∀ id, x.keptByLeave.of id = keepersOf .leave x.heldChanges id
  mem_keptByLeave : ∀ id : String, id ∈ x.keptByLeave ↔
    ∃ c ∈ x.heldChanges, c.change.kind = .leave ∧ id ∈ c.change.keeps

section Indexed

variable {s : GroupRosterStatement} {now : Int} {changes : List CheckedGroupChange} {c : CheckedGroupChange}

theorem classify_eq :
    (start s now).classify changes =
      { start s now with
        held := (changes.foldl (classifyStep (foldedIds s)) (start s now)).held
        verdicts := (changes.foldl (classifyStep (foldedIds s)) (start s now)).verdicts
        joining := (changes.foldl (classifyStep (foldedIds s)) (start s now)).joining.erase "" } := by
  unfold classify
  simp only
  rw [foldl_classifyStep_eq]
  rfl

theorem indexed_kept : (indexed s now changes).s = s ∧ (indexed s now changes).now = now ∧
      (indexed s now changes).sMembers = (start s now).sMembers ∧
      (indexed s now changes).sRemoved = (start s now).sRemoved ∧
      (indexed s now changes).held = ((start s now).classify changes).held ∧
      (indexed s now changes).verdicts = ((start s now).classify changes).verdicts := by
  have h := foldl_indexStep_kept (values ((start s now).classify changes).held)
    ((start s now).classify changes)
  refine ⟨h.1.trans ?_, h.2.1.trans ?_, h.2.2.1.trans ?_, h.2.2.2.1.trans ?_, h.2.2.2.2⟩ <;>
    rw [classify_eq] <;> rfl

@[simp] theorem indexed_s : (indexed s now changes).s = s := indexed_kept.1
@[simp] theorem indexed_now : (indexed s now changes).now = now := indexed_kept.2.1

theorem indexed_heldChanges : (indexed s now changes).heldChanges = values ((start s now).classify changes).held := by
  rw [heldChanges, indexed_kept.2.2.2.2.1]

section

variable (hn : (changes.map CheckedGroupChange.id).Nodup)
include hn

/-- What is held of changes with distinct ids: those `Classify` holds. -/
theorem held_indexed {k : String} : (indexed s now changes).held[k]? = some c ↔
      c ∈ changes ∧ classifyOne s (foldedIds s) c = none ∧ c.id = k := by
  rw [indexed_kept.2.2.2.2.1, classify_eq]
  simp only
  rw [foldl_classifyStep_held]
  have hn' : ((changes.filter fun c => classifyOne s (foldedIds s) c = none).map
      CheckedGroupChange.id).Nodup := hn.sublist (List.filter_sublist.map _)
  have := getElem?_fill_iff CheckedGroupChange.id (fun c : CheckedGroupChange => c) hn'
    (k := k) (v := c)
  refine this.trans ?_
  simp only [List.mem_filter, decide_eq_true_eq]
  constructor
  · rintro ⟨a, ⟨ha, hc⟩, hk, rfl⟩
    exact ⟨ha, hc, hk⟩
  · rintro ⟨ha, hc, hk⟩
    exact ⟨c, ⟨ha, hc⟩, hk, rfl⟩

theorem keyed_indexed : Keyed CheckedGroupChange.id (indexed s now changes).held :=
  fun _ _ h => ((held_indexed hn).mp h).2.2

theorem mem_heldChanges_indexed : c ∈ (indexed s now changes).heldChanges ↔
      c ∈ changes ∧ classifyOne s (foldedIds s) c = none := by
  rw [heldChanges, (keyed_indexed hn).mem_values, held_indexed hn]
  simp

theorem wellIndexed : (indexed s now changes).WellIndexed where
  keyed := keyed_indexed hn
  adds := by
    rw [indexed_heldChanges, indexed, index, foldl_indexStep_adds, classify_eq]; rfl
  renames := by
    rw [indexed_heldChanges, indexed, index, foldl_indexStep_renames, classify_eq]; rfl
  linkAdds := by
    rw [indexed_heldChanges, indexed, index, foldl_indexStep_linkAdds, classify_eq]; rfl
  linkRevokes := by
    rw [indexed_heldChanges, indexed, index, foldl_indexStep_linkRevokes, classify_eq]; rfl
  removesOf a := by
    rw [indexed_heldChanges, indexed, index, foldl_indexStep_removesOf, classify_eq]
    simp [start]
  mem_removesOf a := by
    rw [indexed_heldChanges, indexed, index, mem_foldl_indexStep_removesOf, classify_eq]
    simp [start]
  leavesBy a := by
    rw [indexed_heldChanges, indexed, index, foldl_indexStep_leavesBy, classify_eq]
    simp [start]
  mem_leavesBy a := by
    rw [indexed_heldChanges, indexed, index, mem_foldl_indexStep_leavesBy, classify_eq]
    simp [start]
  keptByRemove id := by
    rw [indexed_heldChanges, indexed, index, foldl_indexStep_keptByRemove, classify_eq]
    simp [start]
  keptByLeave id := by
    rw [indexed_heldChanges, indexed, index, foldl_indexStep_keptByLeave, classify_eq]
    simp [start]
  mem_keptByLeave id := by
    rw [indexed_heldChanges, indexed, index, mem_foldl_indexStep_keptByLeave, classify_eq]
    simp [start]

end

/-- The accounts `Classify` lets join: those of the adds that wait for a card. -/
theorem mem_joining_classify {a : String} :
    a ∈ ((start s now).classify changes).joining ↔ a ≠ "" ∧ ∃ c ∈ changes, ∃ reason,
      classifyOne s (foldedIds s) c = some (.void, reason) ∧ c.change.kind = .add ∧ c.change.member = a := by
  rw [classify_eq]
  simp only [Std.ExtTreeSet.mem_erase, mem_foldl_classifyStep_joining]
  simp only [start, Std.ExtTreeSet.not_mem_empty, false_or, ne_eq,
    Std.LawfulEqCmp.compare_eq_iff_eq, eq_comm (a := ""), and_congr_right_iff]
  intro ha
  refine exists_congr fun c => and_congr_right fun _ => exists_congr fun reason =>
    and_congr_right fun _ => ?_
  split
  · next h => simp [h]
  · next h => simp [h, Ne.symm ha]

theorem mem_joining_indexed (hn : (changes.map CheckedGroupChange.id).Nodup) {a : String} :
    a ∈ (indexed s now changes).joining ↔ (∃ c ∈ changes, classifyOne s (foldedIds s) c = none ∧
        c.change.kind = .add ∧ c.change.member = a) ∨ (a ≠ "" ∧ ∃ c ∈ changes, ∃ reason,
        classifyOne s (foldedIds s) c = some (.void, reason) ∧ c.change.kind = .add ∧ c.change.member = a) := by
  rw [indexed, index, mem_foldl_indexStep_joining, ← indexed_heldChanges, mem_joining_classify]
  constructor
  · rintro (h | ⟨c, hc, h⟩)
    · exact .inr h
    · obtain ⟨hm, hn⟩ := (mem_heldChanges_indexed hn).mp hc
      exact .inl ⟨c, hm, hn, h⟩
  · rintro (⟨c, hm, hn', h⟩ | h)
    · exact .inr ⟨c, (mem_heldChanges_indexed hn).mpr ⟨hm, hn'⟩, h⟩
    · exact .inl h

/-- What `Classify` marked. -/
theorem verdicts_indexed (hn : (changes.map CheckedGroupChange.id).Nodup) {k : String}
    {v : GroupChangeVerdict} : (indexed s now changes).verdicts[k]? = some v ↔
      ∃ c ∈ changes, classifyOne s (foldedIds s) c ≠ none ∧ c.id = k ∧ classified s c = v := by
  rw [indexed_kept.2.2.2.2.2, classify_eq]
  simp only
  rw [show foldedIds s = foldedIds (start s now).s from rfl, foldl_classifyStep_verdicts]
  have hn' : ((changes.filter fun c => classifyOne s (foldedIds s) c ≠ none).map
      CheckedGroupChange.id).Nodup := hn.sublist (List.filter_sublist.map _)
  refine (getElem?_fill_iff CheckedGroupChange.id (classified s) hn' (k := k) (v := v)).trans ?_
  simp only [List.mem_filter, decide_eq_true_eq, and_assoc]
  rfl

end Indexed

end RosterRules

end Pbr
