import PpBrowser.Lib.Ranked
import PpBrowser.Messaging.GroupRosterAdmins
import PpBrowser.Messaging.GroupRosterUndone

/-!
# GroupRosterSolved — removals that do not turn on themselves

A removal asks after its signer's own removals, where its signer's role
allows it or one of them keeps it. Where no chain of these leads back, the
five memos never cut anything: each fact has one value, whatever was asked
before it.
-/

namespace Pbr

open Lib

namespace RosterRules

/-- When a removal counts: a counting remove of its signer keeps it, or its
signer, at the statement's role, stands or left keeping it. -/
theorem removeReason_none_iff (x : RosterRules) (v : Fact → Bool) (c : CheckedGroupChange) :
    (x.removeReason c).under v = .none ↔ c.change.member ≠ x.s.ownerIdentity ∧ (v ⟨.removeKept, c.id⟩ = true ∨
        groupAllows .remove (x.statementRole c.change.signer) x.s.preset (x.statementRole c.change.member) = true ∧
          (c.deviceCurrent = true ∨ v ⟨.leaveKept, c.id⟩ = true) ∧ (x.standsUnder v c.change.signer = true ∨
            v ⟨.leaveKept, c.id⟩ = true ∧ x.presentUnder v c.change.signer = true)) := by
  rw [under_removeReason]
  by_cases howner : c.change.member = x.s.ownerIdentity
  · simp [howner]
  · rw [if_neg howner, entitlement_none_iff, under_fromStatement]
    unfold admitted
    cases x.standsUnder v c.change.signer <;> cases x.presentUnder v c.change.signer <;>
      simp [howner] <;> tauto

/-- `r` decides about `c`, a removal of anyone but the owner: it removes
`c`'s signer, and keeps `c`, or the role of `c`'s signer allows `c`. -/
def TurnsOn (x : RosterRules) (c r : CheckedGroupChange) : Prop :=
  c.change.member ≠ x.s.ownerIdentity ∧ r.change.member = c.change.signer ∧
    (c.id ∈ r.change.keeps ∨
      groupAllows .remove (x.statementRole c.change.signer) x.s.preset
        (x.statementRole c.change.member) = true)

/-- No held removal turns on itself: they rank so that each turns only on
lower ones. -/
def RanksRemovals (x : RosterRules) (rank : String → Nat) : Prop :=
  ∀ c ∈ x.heldChanges, c.change.kind = .remove → ∀ r ∈ x.heldChanges, r.change.kind = .remove →
    x.TurnsOn c r → rank r.id < rank c.id

section Rank

variable (x : RosterRules) (rank : String → Nat) {r : CheckedGroupChange} {n : Nat}

/-- Above every removal of a list. -/
def above (l : Changes) : Nat := (l.map fun r => 4 * rank r.id + 4).foldr max 0

theorem lt_above {l : Changes} (hr : r ∈ l) : 4 * rank r.id + 3 < above rank l := by
  induction l with
  | nil => simp at hr
  | cons d l ih =>
    show _ < max (4 * rank d.id + 4) (above rank l)
    rcases List.mem_cons.mp hr with rfl | hr
    · omega
    · have := ih hr
      omega

theorem above_le {l : Changes} (h : ∀ r ∈ l, rank r.id < n) : above rank l ≤ 4 * n := by
  induction l with
  | nil => exact Nat.zero_le _
  | cons d l ih =>
    show max (4 * rank d.id + 4) (above rank l) ≤ 4 * n
    have hd := h d List.mem_cons_self
    have hl := ih fun r hr => h r (List.mem_cons_of_mem d hr)
    omega

theorem above_mono {l l' : Changes} (h : ∀ r ∈ l, r ∈ l') : above rank l ≤ above rank l' := by
  induction l with
  | nil => exact Nat.zero_le _
  | cons d l ih =>
    show max (4 * rank d.id + 4) (above rank l) ≤ above rank l'
    have hd := lt_above rank (h d List.mem_cons_self)
    have hl := ih fun r hr => h r (List.mem_cons_of_mem d hr)
    omega

/-- Where a fact stands, by the removals it can ask after. -/
def factRank (f : Fact) : Nat :=
  match f.memo with
  | .removed => above rank (x.removesOf.of f.key)
  | memo =>
    match x.held[f.key]? with
    | none => 0
    | some c =>
      let removals := x.removesOf.of c.change.signer
      match memo with
      | .removes => if c.change.kind = .remove then 4 * rank c.id + 3 else above rank removals + 3
      | .leaves => above rank removals + 1
      | .removeKept => above rank (removals.filter fun r => c.id ∈ r.change.keeps)
      | _ => above rank removals + 2

variable {x rank}

theorem factRank_removed (account : String) :
    x.factRank rank ⟨.removed, account⟩ = above rank (x.removesOf.of account) := rfl

section Held

variable (hx : x.WellIndexed) {c : CheckedGroupChange} (hc : x.held[c.id]? = some c)

include hc

theorem factRank_removes : x.factRank rank ⟨.removes, c.id⟩ = if c.change.kind = .remove then 4 * rank c.id + 3
      else above rank (x.removesOf.of c.change.signer) + 3 := by
  simp only [factRank, hc]

theorem factRank_leaves : x.factRank rank ⟨.leaves, c.id⟩ = above rank (x.removesOf.of c.change.signer) + 1 := by
  simp only [factRank, hc]

theorem factRank_removeKept : x.factRank rank ⟨.removeKept, c.id⟩ =
      above rank ((x.removesOf.of c.change.signer).filter fun r => c.id ∈ r.change.keeps) := by
  simp only [factRank, hc]

theorem factRank_leaveKept :
    x.factRank rank ⟨.leaveKept, c.id⟩ = above rank (x.removesOf.of c.change.signer) + 2 := by
  simp only [factRank, hc]

theorem factRank_removeKept_le :
    x.factRank rank ⟨.removeKept, c.id⟩ ≤ above rank (x.removesOf.of c.change.signer) := by
  rw [factRank_removeKept hc]
  exact above_mono rank fun r hr => (List.mem_filter.mp hr).1

end Held

variable (hx : x.WellIndexed)

include hx

theorem rank_of_removes {account : String} (hr : r ∈ x.removesOf.of account) :
    x.factRank rank ⟨.removes, r.id⟩ < x.factRank rank ⟨.removed, account⟩ := by
  obtain ⟨hheld, hkind, -⟩ := (mem_removesOf hx).mp hr
  rw [factRank_removes (held_of_mem hx hheld), if_pos hkind]
  exact lt_above rank hr

theorem rank_of_leaves {account : String} {l : CheckedGroupChange} (hl : l ∈ x.leavesBy.of account) :
    x.factRank rank ⟨.leaves, l.id⟩ = x.factRank rank ⟨.removed, account⟩ + 1 := by
  obtain ⟨hheld, -, hsigner⟩ := (mem_leavesBy hx).mp hl
  rw [factRank_leaves (held_of_mem hx hheld), hsigner, factRank_removed]

theorem asks_leftByChange (account : String) (hn : x.factRank rank ⟨.removed, account⟩ + 1 < n) :
    (x.leftByChange account).AllAsks fun g => x.factRank rank g < n :=
  .anyM fun l hl => .fact (by rw [rank_of_leaves hx hl]; exact hn)

section

variable {c : CheckedGroupChange} (hc : x.held[c.id]? = some c)
include hc

theorem asks_removeKeptBody :
    (x.removeKeptBody c).AllAsks fun g => x.factRank rank g < x.factRank rank ⟨.removeKept, c.id⟩ := by
  apply Asking.AllAsks.anyM
  intro r hr
  rw [hx.keptByRemove] at hr
  obtain ⟨hheld, hkind, hkeeps⟩ := (mem_keepersOf _).mp hr
  apply Asking.AllAsks.ite
  · intro hmember
    apply Asking.AllAsks.fact
    rw [factRank_removes (held_of_mem hx hheld), if_pos hkind, factRank_removeKept hc]
    apply lt_above
    rw [List.mem_filter]
    exact ⟨(mem_removesOf hx).mpr ⟨hheld, hkind, hmember⟩, by simpa using hkeeps⟩
  · exact fun _ => .pure _

theorem asks_leaveKeptBody :
    (x.leaveKeptBody c).AllAsks fun g => x.factRank rank g < x.factRank rank ⟨.leaveKept, c.id⟩ := by
  unfold leaveKeptBody
  cases hleaves : x.keptByLeave[c.id]? with
  | none => exact .pure _
  | some leaves =>
    have hof := hx.keptByLeave c.id
    rw [StrMap.of, hleaves] at hof
    rw [factRank_leaveKept hc, ← factRank_removed]
    refine (Asking.AllAsks.fact (by omega)).bind fun _ => .ite (fun _ => .pure _) fun _ => ?_
    apply Asking.AllAsks.anyM
    intro l hl
    rw [show leaves = keepersOf .leave x.heldChanges c.id from hof] at hl
    obtain ⟨hheld, hkind, -⟩ := (mem_keepersOf _).mp hl
    apply Asking.AllAsks.ite
    · intro hsigner
      apply Asking.AllAsks.fact
      rw [rank_of_leaves hx ((mem_leavesBy hx).mpr ⟨hheld, hkind, hsigner⟩)]
      omega
    · exact fun _ => .pure _

/-- What an entitlement over the statement asks, of a change whose signer's
removals rank below `n`. -/
theorem asks_entitlement {action : GroupAction}
    {target : MemberRole} (hkept : x.factRank rank ⟨.removeKept, c.id⟩ < n)
    (hallowed : groupAllows action (x.statementRole c.change.signer) x.s.preset target = true →
      above rank (x.removesOf.of c.change.signer) + 2 < n) :
    (x.entitlement c action target x.fromStatement).AllAsks fun g => x.factRank rank g < n := by
  unfold entitlement
  refine .bind (.fact ?_) fun kept => ?_
  · exact hkept
  refine .ite (fun _ => .pure _) fun _ => .ite (fun _ => .pure _) fun hallows => ?_
  have hn := hallowed (by simpa using hallows)
  have hremoved : x.factRank rank ⟨.removed, c.change.signer⟩ < n := by
    rw [factRank_removed]
    omega
  have hleft : (x.leftByChange c.change.signer).AllAsks fun g => x.factRank rank g < n := by
    apply asks_leftByChange hx
    rw [factRank_removed]
    omega
  have hstate : (x.fromStatement c.change.signer).AllAsks fun g => x.factRank rank g < n := by
    unfold fromStatement presentInStatement
    refine .bind (.ite (fun _ => .map _ (.fact ?_)) fun _ => .pure _) fun present => ?_
    · exact hremoved
    exact .bind (.ite (fun _ => .map _ hleft) fun _ => .pure _) fun _ => .pure _
  have hreason : (x.notInReason c.change.signer).AllAsks fun g => x.factRank rank g < n := by
    unfold notInReason knownOut
    refine .map _ (.ite (fun _ => .pure _) fun _ => ?_)
    refine .bind (.fact ?_) fun removed => ?_
    · exact hremoved
    exact .ite (fun _ => .pure _) fun _ => hleft
  refine .bind (.fact ?_) fun leaveKept => ?_
  · show x.factRank rank ⟨.leaveKept, c.id⟩ < n
    rw [factRank_leaveKept hc]
    exact hn
  refine .ite (fun _ => .pure _) fun _ => hstate.bind fun st => .ite (fun _ => .pure _) fun _ => ?_
  exact hreason.bind fun _ => .pure _

end

section

variable {c : CheckedGroupChange} (hranks : x.RanksRemovals rank) (hc : c ∈ x.heldChanges)
  (hkind : c.change.kind = .remove) (howner : c.change.member ≠ x.s.ownerIdentity)
include hranks hc hkind howner

/-- The removals of its signer that keep a removal rank below it. -/
theorem rank_removeKept_le : x.factRank rank ⟨.removeKept, c.id⟩ ≤ 4 * rank c.id := by
  rw [factRank_removeKept (held_of_mem hx hc)]
  apply above_le
  intro r hr
  obtain ⟨hr, hkeeps⟩ := List.mem_filter.mp hr
  obtain ⟨hr, hrkind, hmember⟩ := (mem_removesOf hx).mp hr
  exact hranks c hc hkind r hr hrkind ⟨howner, hmember, .inl (by simpa using hkeeps)⟩

/-- The removals of its signer rank below a removal its signer's role allows. -/
theorem rank_signer_le (hallowed : groupAllows .remove (x.statementRole c.change.signer) x.s.preset
      (x.statementRole c.change.member) = true) : x.factRank rank ⟨.removed, c.change.signer⟩ ≤ 4 * rank c.id := by
  rw [factRank_removed]
  apply above_le
  intro r hr
  obtain ⟨hr, hrkind, hmember⟩ := (mem_removesOf hx).mp hr
  exact hranks c hc hkind r hr hrkind ⟨howner, hmember, .inr hallowed⟩

end

theorem ranked (hranks : x.RanksRemovals rank) : Ranked x.factBody (x.factRank rank) := by
  intro f
  obtain ⟨memo, key⟩ := f
  cases memo with
  | removed => exact .anyM fun r hr => .fact (rank_of_removes hx hr)
  | removeKept =>
    simp only [factBody]
    cases hc : x.held[key]? with
    | none => exact .pure _
    | some c =>
      obtain rfl := hx.keyed _ _ hc
      exact asks_removeKeptBody hx hc
  | leaveKept =>
    simp only [factBody]
    cases hc : x.held[key]? with
    | none => exact .pure _
    | some c =>
      obtain rfl := hx.keyed _ _ hc
      exact asks_leaveKeptBody hx hc
  | leaves =>
    simp only [factBody]
    cases hc : x.held[key]? with
    | none => exact .pure _
    | some l =>
      obtain rfl := hx.keyed _ _ hc
      refine .map _ (.ite (fun _ => .pure _) fun _ => .ite (fun _ => .pure _) fun _ => .map _ (.fact ?_))
      have hle : x.factRank rank ⟨.removeKept, l.id⟩ ≤ above rank (x.removesOf.of l.change.signer) :=
        factRank_removeKept_le hc
      rw [factRank_leaves hc]
      omega
  | removes =>
    simp only [factBody]
    cases hc : x.held[key]? with
    | none => exact .pure _
    | some c =>
      obtain rfl := hx.keyed _ _ hc
      have hheld : c ∈ x.heldChanges := hx.keyed.mem_values.mpr hc
      refine .map _ (.ite (fun _ => .pure _) fun howner => .map _ ?_)
      by_cases hkind : c.change.kind = .remove
      · -- the removals of its signer that it turns on rank below it
        rw [factRank_removes hc, if_pos hkind]
        apply asks_entitlement hx hc
        · have hle := rank_removeKept_le hx hranks hheld hkind howner
          omega
        · intro hallowed
          have hle := rank_signer_le hx hranks hheld hkind howner hallowed
          rw [factRank_removed] at hle
          omega
      · rw [factRank_removes hc, if_neg hkind]
        apply asks_entitlement hx hc
        · have hle : x.factRank rank ⟨.removeKept, c.id⟩ ≤ above rank (x.removesOf.of c.change.signer) :=
            factRank_removeKept_le hc
          omega
        · intro _
          omega

end Rank

/-! ## The facts' values -/

section Settled

variable {x : RosterRules} {rank : String → Nat}

/-- The values of the facts, where the removals rank. -/
def facts (x : RosterRules) (rank : String → Nat) : Fact → Bool := settled x.factBody (x.factRank rank)

variable (hx : x.WellIndexed) (hranks : x.RanksRemovals rank)

include hx hranks

theorem facts_eq (f : Fact) : x.facts rank f = (x.factBody f).under (x.facts rank) :=
  settled_eq (ranked hx hranks) f

theorem facts_removed (account : String) : x.facts rank ⟨.removed, account⟩ =
    (x.removesOf.of account).any fun r => x.facts rank ⟨.removes, r.id⟩ := by
  rw [facts_eq hx hranks]
  exact under_removedByChangeBody _ _ account

section Held

variable {c : CheckedGroupChange} (hc : c ∈ x.heldChanges)

include hc

theorem facts_removes : x.facts rank ⟨.removes, c.id⟩ = true ↔ (x.removeReason c).under (x.facts rank) = .none := by
  rw [facts_eq hx hranks]
  simp only [factBody, held_of_mem hx hc, Asking.under_map, decide_eq_true_eq]

theorem facts_leaves : x.facts rank ⟨.leaves, c.id⟩ = true ↔ (x.leaveReason c).under (x.facts rank) = .none := by
  rw [facts_eq hx hranks]
  simp only [factBody, held_of_mem hx hc, Asking.under_map, decide_eq_true_eq]

theorem facts_removeKept : x.facts rank ⟨.removeKept, c.id⟩ = (x.keptByRemove.of c.id).any fun r =>
      decide (r.change.member = c.change.signer) && x.facts rank ⟨.removes, r.id⟩ := by
  rw [facts_eq hx hranks]
  simp only [factBody, held_of_mem hx hc, under_removeKeptBody]

theorem facts_leaveKept : x.facts rank ⟨.leaveKept, c.id⟩ =
    (x.keptByLeave.contains c.id && !x.facts rank ⟨.removed, c.change.signer⟩ && (x.keptByLeave.of c.id).any fun l =>
        decide (l.change.signer = c.change.signer) && x.facts rank ⟨.leaves, l.id⟩) := by
  rw [facts_eq hx hranks]
  simp only [factBody, held_of_mem hx hc, under_leaveKeptBody]

end Held

theorem oracle_eq_facts {f : Fact} (hf : f ∈ x.judge.asked x.oracle) : x.oracle f = x.facts rank f := by
  obtain ⟨b, hb⟩ := knows_of_asked hx hf
  have htells := (run_settled (ranked hx hranks) (fun _ => x.factBody_outside) x.length_askable_lt
    x.judge).2
  have hvalue : b = x.facts rank f := htells f b hb
  rw [← hvalue]
  exact (Memo.Keeps.refl x.memo).holds hb

end Settled

end RosterRules

/-! ## The removal and leave verdicts as a solution -/

namespace GroupRosterView

/-- The verdict of a change is `Applied`. -/
def applied (view : GroupRosterView) (id : String) : Bool :=
  (view.verdict id).any (·.status = .applied)

end GroupRosterView

namespace RosterRules

/-! ## The rules read over what counts -/

section Read

variable (x : RosterRules) (R L : String → Bool)

/-- Some remove of `R` aims at `account`. -/
def removedIn (account : String) : Bool :=
  x.heldChanges.any fun r => r.change.kind = .remove ∧ r.change.member = account ∧ R r.id

/-- Some remove of `R`, aimed at the signer of `c`, lists `c` in its keeps. -/
def removeKeptIn (c : CheckedGroupChange) : Bool :=
  x.heldChanges.any fun r => r.change.kind = .remove ∧ r.change.member = c.change.signer ∧
    c.id ∈ r.change.keeps ∧ R r.id

/-- Some leave of `L`, by the signer of `c`, lists `c` in its keeps, and no
remove of `R` aims at the signer. -/
def leaveKeptIn (c : CheckedGroupChange) : Bool :=
  !x.removedIn R c.change.signer &&
    x.heldChanges.any fun l => l.change.kind = .leave ∧ l.change.signer = c.change.signer ∧
      c.id ∈ l.change.keeps ∧ L l.id

/-- The facts, where `R` are the removes and `L` the leaves that count. -/
def readIn (f : Fact) : Bool :=
  match f.memo with
  | .removes => R f.key
  | .leaves => L f.key
  | .removed => x.removedIn R f.key
  | .removeKept => (x.held[f.key]?).any fun c => x.removeKeptIn R c
  | .leaveKept => (x.held[f.key]?).any fun c => x.leaveKeptIn R L c

/-- `R` and `L` hold just the removes and leaves whose reason, read over
them, is none; a leave counts once the statement or an add knows its signer. -/
structure SolvedBy : Prop where
  removes : ∀ r ∈ x.heldChanges, r.change.kind = .remove →
    (R r.id = true ↔ (x.removeReason r).under (x.readIn R L) = .none)
  leaves : ∀ l ∈ x.heldChanges, l.change.kind = .leave →
    (L l.id = true ↔ (x.leaveReason l).under (x.readIn R L) = .none ∧
      x.knownLeaver l.change.signer = true)

end Read

section Agree

variable {x : RosterRules} {v w : Fact → Bool}

theorem leaveReason_none_iff (l : CheckedGroupChange) : (x.leaveReason l).under v = .none ↔
    groupAllows .leave (x.statementRole l.change.signer) x.s.preset .member = true ∧
      (l.deviceCurrent = true ∨ v ⟨.removeKept, l.id⟩ = true) := by
  rw [under_leaveReason]
  cases groupAllows .leave (x.statementRole l.change.signer) x.s.preset .member <;>
    cases l.deviceCurrent <;> cases v ⟨.removeKept, l.id⟩ <;> simp

theorem leaveReason_congr {l : CheckedGroupChange} (hkept : v ⟨.removeKept, l.id⟩ = w ⟨.removeKept, l.id⟩) :
    (x.leaveReason l).under v = .none ↔ (x.leaveReason l).under w = .none := by
  rw [leaveReason_none_iff, leaveReason_none_iff, hkept]

/-- Facts that agree on what keeps a removal and, where its signer's role
allows it and the statement lists them, on the signer, agree on the removal. -/
theorem removeReason_congr {c : CheckedGroupChange}
    (hkept : c.change.member ≠ x.s.ownerIdentity → v ⟨.removeKept, c.id⟩ = w ⟨.removeKept, c.id⟩)
    (hsigner : c.change.member ≠ x.s.ownerIdentity → groupAllows .remove (x.statementRole c.change.signer) x.s.preset
        (x.statementRole c.change.member) = true → x.inStatement c.change.signer = true →
      v ⟨.removed, c.change.signer⟩ = w ⟨.removed, c.change.signer⟩ ∧ v ⟨.leaveKept, c.id⟩ = w ⟨.leaveKept, c.id⟩ ∧
        ∀ l ∈ x.leavesBy.of c.change.signer, v ⟨.leaves, l.id⟩ = w ⟨.leaves, l.id⟩) :
    (x.removeReason c).under v = .none ↔ (x.removeReason c).under w = .none := by
  rw [removeReason_none_iff, removeReason_none_iff]
  apply and_congr_right
  intro howner
  rw [hkept howner]
  apply or_congr_right
  apply and_congr_right
  intro hallows
  cases hlisted : x.inStatement c.change.signer with
  | false => simp [standsUnder, presentUnder, hlisted]
  | true =>
    obtain ⟨hremoved, hleaveKept, hleaves⟩ := hsigner howner hallows hlisted
    have hpresent : x.presentUnder v c.change.signer = x.presentUnder w c.change.signer := by
      rw [presentUnder, presentUnder, hremoved]
    have hleft : x.leftUnder v c.change.signer = x.leftUnder w c.change.signer := by
      unfold leftUnder
      rw [Bool.eq_iff_iff, List.any_eq_true, List.any_eq_true]
      constructor
      · rintro ⟨l, hl, hv⟩
        exact ⟨l, hl, hleaves l hl ▸ hv⟩
      · rintro ⟨l, hl, hw⟩
        exact ⟨l, hl, (hleaves l hl).symm ▸ hw⟩
    rw [standsUnder, standsUnder, hpresent, hleft, hleaveKept]

end Agree

/-! ## One solution -/

section Unique

variable {x : RosterRules} {R L R' L' : String → Bool}

theorem removedIn_iff {account : String} : x.removedIn R account = true ↔
    ∃ r ∈ x.heldChanges, r.change.kind = .remove ∧ r.change.member = account ∧ R r.id = true := by
  simp only [removedIn, List.any_eq_true, decide_eq_true_eq]

theorem removeKeptIn_iff {c : CheckedGroupChange} : x.removeKeptIn R c = true ↔
    ∃ r ∈ x.heldChanges, r.change.kind = .remove ∧ r.change.member = c.change.signer ∧
      c.id ∈ r.change.keeps ∧ R r.id = true := by
  simp only [removeKeptIn, List.any_eq_true, decide_eq_true_eq]

theorem leaveKeptIn_iff {c : CheckedGroupChange} : x.leaveKeptIn R L c = true ↔
    x.removedIn R c.change.signer = false ∧ ∃ l ∈ x.heldChanges, l.change.kind = .leave ∧
      l.change.signer = c.change.signer ∧ c.id ∈ l.change.keeps ∧ L l.id = true := by
  simp only [leaveKeptIn, Bool.and_eq_true, Bool.not_eq_true', List.any_eq_true, decide_eq_true_eq]

theorem removedIn_congr {account : String} (h : ∀ r ∈ x.heldChanges, r.change.kind = .remove →
    r.change.member = account → R r.id = R' r.id) : x.removedIn R account = x.removedIn R' account := by
  rw [Bool.eq_iff_iff, removedIn_iff, removedIn_iff]
  constructor
  · rintro ⟨r, hr, hk, hm, hin⟩
    exact ⟨r, hr, hk, hm, h r hr hk hm ▸ hin⟩
  · rintro ⟨r, hr, hk, hm, hin⟩
    exact ⟨r, hr, hk, hm, (h r hr hk hm).symm ▸ hin⟩

theorem removeKeptIn_congr {c : CheckedGroupChange} (h : ∀ r ∈ x.heldChanges, r.change.kind = .remove →
    r.change.member = c.change.signer → c.id ∈ r.change.keeps → R r.id = R' r.id) :
    x.removeKeptIn R c = x.removeKeptIn R' c := by
  rw [Bool.eq_iff_iff, removeKeptIn_iff, removeKeptIn_iff]
  constructor
  · rintro ⟨r, hr, hk, hm, hkeeps, hin⟩
    exact ⟨r, hr, hk, hm, hkeeps, h r hr hk hm hkeeps ▸ hin⟩
  · rintro ⟨r, hr, hk, hm, hkeeps, hin⟩
    exact ⟨r, hr, hk, hm, hkeeps, (h r hr hk hm hkeeps).symm ▸ hin⟩

theorem leaveKeptIn_congr {c : CheckedGroupChange}
    (hremoved : x.removedIn R c.change.signer = x.removedIn R' c.change.signer)
    (h : ∀ l ∈ x.heldChanges, l.change.kind = .leave → l.change.signer = c.change.signer → L l.id = L' l.id) :
    x.leaveKeptIn R L c = x.leaveKeptIn R' L' c := by
  rw [Bool.eq_iff_iff, leaveKeptIn_iff, leaveKeptIn_iff, hremoved]
  apply and_congr_right
  intro _
  constructor
  · rintro ⟨l, hl, hk, hs, hkeeps, hin⟩
    exact ⟨l, hl, hk, hs, hkeeps, h l hl hk hs ▸ hin⟩
  · rintro ⟨l, hl, hk, hs, hkeeps, hin⟩
    exact ⟨l, hl, hk, hs, hkeeps, (h l hl hk hs).symm ▸ hin⟩

section Held

variable {c : CheckedGroupChange} (hx : x.WellIndexed) (hc : c ∈ x.heldChanges)

include hx hc

theorem readIn_removeKept : x.readIn R L ⟨.removeKept, c.id⟩ = x.removeKeptIn R c := by
  simp only [readIn, held_of_mem hx hc, Option.any_some]

theorem readIn_leaveKept : x.readIn R L ⟨.leaveKept, c.id⟩ = x.leaveKeptIn R L c := by
  simp only [readIn, held_of_mem hx hc, Option.any_some]

end Held

variable (hx : x.WellIndexed) {rank : String → Nat} (hranks : x.RanksRemovals rank)
  (h : x.SolvedBy R L) (h' : x.SolvedBy R' L')

include hx h h'

theorem leaves_agree {l : CheckedGroupChange} (hl : l ∈ x.heldChanges) (hk : l.change.kind = .leave)
    (hkept : x.removeKeptIn R l = x.removeKeptIn R' l) : L l.id = L' l.id := by
  rw [Bool.eq_iff_iff, h.leaves l hl hk, h'.leaves l hl hk]
  apply and_congr_left
  intro _
  apply leaveReason_congr
  rw [readIn_removeKept hx hl, readIn_removeKept hx hl]
  exact hkept

include hranks

/-- Two solutions hold the same removes, rank by rank. -/
theorem removes_agree {c : CheckedGroupChange} (hc : c ∈ x.heldChanges) (hk : c.change.kind = .remove) :
    R c.id = R' c.id := by
  induction hn : rank c.id using Nat.strong_induction_on generalizing c with
  | _ n ih =>
    rw [Bool.eq_iff_iff, h.removes c hc hk, h'.removes c hc hk]
    -- the removals `c` turns on
    have hlower (r : CheckedGroupChange) (hr : r ∈ x.heldChanges) (hrk : r.change.kind = .remove)
        (hturns : x.TurnsOn c r) : R r.id = R' r.id := by
      have hless := hranks c hc hk r hr hrk hturns
      rw [hn] at hless
      exact ih _ hless hr hrk rfl
    apply removeReason_congr
    · intro howner
      rw [readIn_removeKept hx hc, readIn_removeKept hx hc]
      apply removeKeptIn_congr
      intro r hr hrk hmember hkeeps
      exact hlower r hr hrk ⟨howner, hmember, .inl hkeeps⟩
    · intro howner hallows _
      have hsigned (r : CheckedGroupChange) (hr : r ∈ x.heldChanges) (hrk : r.change.kind = .remove)
          (hmember : r.change.member = c.change.signer) : R r.id = R' r.id :=
        hlower r hr hrk ⟨howner, hmember, .inr hallows⟩
      have hremoved := removedIn_congr hsigned
      have hleaves (l : CheckedGroupChange) (hl : l ∈ x.heldChanges) (hlk : l.change.kind = .leave)
          (hsigner : l.change.signer = c.change.signer) : L l.id = L' l.id := by
        apply leaves_agree hx h h' hl hlk
        apply removeKeptIn_congr
        intro r hr hrk hmember _
        exact hsigned r hr hrk (hmember.trans hsigner)
      refine ⟨hremoved, ?_, ?_⟩
      · rw [readIn_leaveKept hx hc, readIn_leaveKept hx hc]
        exact leaveKeptIn_congr hremoved hleaves
      · intro l hl
        obtain ⟨hl, hlk, hsigner⟩ := (mem_leavesBy hx).mp hl
        exact hleaves l hl hlk hsigner

theorem SolvedBy.unique {c : CheckedGroupChange} (hc : c ∈ x.heldChanges) :
    (c.change.kind = .remove → R c.id = R' c.id) ∧ (c.change.kind = .leave → L c.id = L' c.id) := by
  constructor
  · exact removes_agree hx hranks h h' hc
  · intro hk
    apply leaves_agree hx h h' hc hk
    apply removeKeptIn_congr
    intro r hr hrk _ _
    exact removes_agree hx hranks h h' hr hrk

end Unique

/-! ## The verdicts are a solution -/

section Facts

variable {x : RosterRules} {rank : String → Nat} {R L : String → Bool}
  (hx : x.WellIndexed) (hranks : x.RanksRemovals rank)
  (hR : ∀ r ∈ x.heldChanges, r.change.kind = .remove → R r.id = x.facts rank ⟨.removes, r.id⟩)
  (hL : ∀ l ∈ x.heldChanges, l.change.kind = .leave →
    L l.id = (x.facts rank ⟨.leaves, l.id⟩ && x.knownLeaver l.change.signer))

include hx hranks hR

theorem removedIn_facts (account : String) : x.removedIn R account = x.facts rank ⟨.removed, account⟩ := by
  rw [facts_removed hx hranks, Bool.eq_iff_iff, removedIn_iff, List.any_eq_true]
  constructor
  · rintro ⟨r, hr, hk, hm, hin⟩
    exact ⟨r, (mem_removesOf hx).mpr ⟨hr, hk, hm⟩, hR r hr hk ▸ hin⟩
  · rintro ⟨r, hr, hin⟩
    obtain ⟨hr, hk, hm⟩ := (mem_removesOf hx).mp hr
    exact ⟨r, hr, hk, hm, (hR r hr hk).symm ▸ hin⟩

theorem removeKeptIn_facts {c : CheckedGroupChange} (hc : c ∈ x.heldChanges) :
    x.removeKeptIn R c = x.facts rank ⟨.removeKept, c.id⟩ := by
  rw [facts_removeKept hx hranks hc, Bool.eq_iff_iff, removeKeptIn_iff, hx.keptByRemove, List.any_eq_true]
  simp only [Bool.and_eq_true, decide_eq_true_eq]
  constructor
  · rintro ⟨r, hr, hk, hm, hkeeps, hin⟩
    exact ⟨r, (mem_keepersOf _).mpr ⟨hr, hk, hkeeps⟩, hm, hR r hr hk ▸ hin⟩
  · rintro ⟨r, hr, hm, hin⟩
    obtain ⟨hr, hk, hkeeps⟩ := (mem_keepersOf _).mp hr
    exact ⟨r, hr, hk, hm, hkeeps, (hR r hr hk).symm ▸ hin⟩

include hL

theorem leaveKeptIn_facts {c : CheckedGroupChange} (hc : c ∈ x.heldChanges)
    (hlisted : x.inStatement c.change.signer = true) : x.leaveKeptIn R L c = x.facts rank ⟨.leaveKept, c.id⟩ := by
  have hknown : x.knownLeaver c.change.signer = true := by simp [knownLeaver, hlisted]
  rw [facts_leaveKept hx hranks hc, Bool.eq_iff_iff, leaveKeptIn_iff, hx.keptByLeave,
    removedIn_facts hx hranks hR]
  simp only [Bool.and_eq_true, Bool.not_eq_true', List.any_eq_true, decide_eq_true_eq,
    Std.ExtTreeMap.contains_iff_mem, hx.mem_keptByLeave]
  constructor
  · rintro ⟨hremoved, l, hl, hk, hs, hkeeps, hin⟩
    rw [hL l hl hk, Bool.and_eq_true] at hin
    exact ⟨⟨⟨l, hl, hk, hkeeps⟩, hremoved⟩, l, (mem_keepersOf _).mpr ⟨hl, hk, hkeeps⟩, hs, hin.1⟩
  · rintro ⟨⟨-, hremoved⟩, l, hl, hs, hin⟩
    obtain ⟨hl, hk, hkeeps⟩ := (mem_keepersOf _).mp hl
    refine ⟨hremoved, l, hl, hk, hs, hkeeps, ?_⟩
    rw [hL l hl hk, hin, hs, hknown]
    rfl

theorem solvedBy_facts : x.SolvedBy R L where
  removes r hr hk := by
    rw [hR r hr hk, facts_removes hx hranks hr]
    apply removeReason_congr
    · intro _
      rw [readIn_removeKept hx hr, removeKeptIn_facts hx hranks hR hr]
    · intro _ _ hlisted
      refine ⟨?_, ?_, ?_⟩
      · exact (removedIn_facts hx hranks hR _).symm
      · rw [readIn_leaveKept hx hr, leaveKeptIn_facts hx hranks hR hL hr hlisted]
      · intro l hl
        obtain ⟨hl, hlk, hs⟩ := (mem_leavesBy hx).mp hl
        have hknown : x.knownLeaver l.change.signer = true := by simp [knownLeaver, hs, hlisted]
        show _ = L l.id
        rw [hL l hl hlk, hknown, Bool.and_true]
  leaves l hl hk := by
    rw [hL l hl hk, Bool.and_eq_true, facts_leaves hx hranks hl]
    apply and_congr_left
    intro _
    apply leaveReason_congr
    rw [readIn_removeKept hx hl, removeKeptIn_facts hx hranks hR hl]

end Facts

section Applied

variable {s : GroupRosterStatement} {now : Int} {changes : List CheckedGroupChange} {rank : String → Nat}
  (hn : (changes.map CheckedGroupChange.id).Nodup)

include hn

theorem applied_remove {r : CheckedGroupChange} (hr : r ∈ (indexed s now changes).heldChanges)
    (hk : r.change.kind = .remove) :
    (indexed s now changes).view.applied r.id = (indexed s now changes).oracle ⟨.removes, r.id⟩ := by
  obtain ⟨status, reason, hv, ho⟩ := verdict_of_held hn hr
  rw [GroupRosterView.applied, hv, Bool.eq_iff_iff, Option.any_some, decide_eq_true_eq]
  show status = .applied ↔ _
  constructor
  · rintro rfl
    exact removes_of_applied (wellIndexed hn) hr hk ho
  · exact fun hcounts => outcome_of_removes hk hcounts ho

/-- A held leave is marked `Applied` just when it counts and its signer is known. -/
theorem applied_leave {l : CheckedGroupChange} (hl : l ∈ (indexed s now changes).heldChanges)
    (hk : l.change.kind = .leave) :
    (indexed s now changes).view.applied l.id = ((indexed s now changes).oracle ⟨.leaves, l.id⟩ &&
      (indexed s now changes).knownLeaver l.change.signer) := by
  obtain ⟨status, reason, hv, ho⟩ := verdict_of_held hn hl
  rw [GroupRosterView.applied, hv, Bool.eq_iff_iff, Option.any_some, decide_eq_true_eq, Bool.and_eq_true]
  show status = .applied ↔ _
  have houtcome := ho
  simp only [Outcome, hk] at houtcome
  obtain ⟨hreason, hstatus⟩ := houtcome
  constructor
  · rintro rfl
    refine ⟨leaves_of_applied (wellIndexed hn) hl hk ho, ?_⟩
    -- a leave of someone unknown is marked with a reason
    have hnone : reason = .none := by
      by_contra hne
      rw [if_neg hne] at hstatus
      cases hstatus
    by_contra hunknown
    rw [hnone] at hreason
    split at hreason
    · cases hreason
    · next hif => exact hif ⟨hreason.symm, by simpa using hunknown⟩
  · rintro ⟨hcounts, hknown⟩
    have hnone : ((indexed s now changes).leaveOutcome l).under (indexed s now changes).oracle = .none := by
      simp [leaveOutcome, validLeave, hcounts]
    rw [hstatus, hreason, hnone, hknown]
    rfl

theorem solvedBy_applied (hranks : (indexed s now changes).RanksRemovals rank) :
    (indexed s now changes).SolvedBy (indexed s now changes).view.applied (indexed s now changes).view.applied := by
  have hx : (indexed s now changes).WellIndexed := wellIndexed hn
  apply solvedBy_facts hx hranks
  · intro r hr hk
    rw [applied_remove hn hr hk]
    exact oracle_eq_facts hx hranks (asked_removes _ _ hx hr hk)
  · intro l hl hk
    rw [applied_leave hn hl hk, oracle_eq_facts hx hranks (asked_leaves _ _ hx hl hk)]

end Applied

/-- Solutions are read on the held removes and leaves only. -/
theorem SolvedBy.congr {x : RosterRules} (hx : x.WellIndexed) {R L R' L' : String → Bool}
    (h : x.SolvedBy R L) (hR : ∀ r ∈ x.heldChanges, r.change.kind = .remove → R r.id = R' r.id)
    (hL : ∀ l ∈ x.heldChanges, l.change.kind = .leave → L l.id = L' l.id) : x.SolvedBy R' L' where
  removes r hr hk := by
    rw [← hR r hr hk, h.removes r hr hk]
    have hremoved (account : String) : x.removedIn R account = x.removedIn R' account :=
      removedIn_congr fun r hr hk _ => hR r hr hk
    apply removeReason_congr
    · intro _
      rw [readIn_removeKept hx hr, readIn_removeKept hx hr]
      exact removeKeptIn_congr fun r hr hk _ _ => hR r hr hk
    · intro _ _ _
      refine ⟨hremoved _, ?_, ?_⟩
      · rw [readIn_leaveKept hx hr, readIn_leaveKept hx hr]
        exact leaveKeptIn_congr (hremoved _) fun l hl hk _ => hL l hl hk
      · intro l hl
        obtain ⟨hl, hk, -⟩ := (mem_leavesBy hx).mp hl
        exact hL l hl hk
  leaves l hl hk := by
    rw [← hL l hl hk, h.leaves l hl hk]
    apply and_congr_left
    intro _
    apply leaveReason_congr
    rw [readIn_removeKept hx hl, readIn_removeKept hx hl]
    exact removeKeptIn_congr fun r hr hk _ _ => hR r hr hk

end RosterRules

/-! ## The verdicts of a roster -/

/-- Where no held removal turns on itself, the removes and leaves a roster
marks `Applied` solve the rules, and every solution marks the same. -/
theorem verdicts_solve (s : GroupRosterStatement) (changes : List CheckedGroupChange) (now : Int)
    {rank : String → Nat} (hranks : (RosterRules.indexed s now (collapse changes)).RanksRemovals rank) :
    (RosterRules.indexed s now (collapse changes)).SolvedBy
        (computeRosterChecked s changes now).applied (computeRosterChecked s changes now).applied ∧
      ∀ R L, (RosterRules.indexed s now (collapse changes)).SolvedBy R L →
        ∀ c ∈ (RosterRules.indexed s now (collapse changes)).heldChanges,
          (c.change.kind = .remove → R c.id = (computeRosterChecked s changes now).applied c.id) ∧
            (c.change.kind = .leave → L c.id = (computeRosterChecked s changes now).applied c.id) := by
  have hn := nodup_collapse changes
  have hsolved : (RosterRules.indexed s now (collapse changes)).SolvedBy
      (computeRosterChecked s changes now).applied (computeRosterChecked s changes now).applied := by
    cases hd : s.dissolved with
    | false =>
      rw [RosterRules.computeRosterChecked_eq_view hd]
      exact RosterRules.solvedBy_applied hn hranks
    | true =>
      -- a dissolved statement holds no change
      have hnone (c : CheckedGroupChange)
          (hc : c ∈ (RosterRules.indexed s now (collapse changes)).heldChanges) : False :=
        RosterRules.not_held_of_dissolved hd _ c ((RosterRules.mem_heldChanges_indexed hn).mp hc).2
      exact ⟨fun r hr => (hnone r hr).elim, fun l hl => (hnone l hl).elim⟩
  refine ⟨hsolved, fun R L h c hc => ?_⟩
  exact h.unique (RosterRules.wellIndexed hn) hranks hsolved hc

namespace SolvedSample

/-- Someone no statement and no add knows leaves. -/
def leaveUnknown : CheckedGroupChange :=
  { change := { groupId := "g", baseEpoch := 1, signer := "z", signerDevice := "d", kind := .leave }
    id := "l", proof := .proved, deviceCurrent := true }

/-- The member `m`, no admin any more, removes the admin `a`. -/
def memberRemoves : CheckedGroupChange :=
  { change := { groupId := "g", baseEpoch := 1, signer := "m", signerDevice := "d", kind := .remove
                member := "a" }
    id := "k", proof := .proved, deviceCurrent := true }

/-- The admin `a` removes `m`, and keeps the change `m` signed. -/
def adminRemoves : CheckedGroupChange :=
  { change := { groupId := "g", baseEpoch := 1, signer := "a", signerDevice := "d", kind := .remove
                member := "m", keeps := ["k"] }
    id := "r", proof := .proved, deviceCurrent := true }

/-- Another admin removes `m`, and keeps the change `m` signed. -/
def otherRemoves : CheckedGroupChange :=
  { adminRemoves with change := { adminRemoves.change with signer := "b" } }

instance (x : RosterRules) (c r : CheckedGroupChange) : Decidable (x.TurnsOn c r) :=
  inferInstanceAs (Decidable (_ ∧ _ ∧ (_ ∨ _)))

/-- The changes of the turning pair, indexed. -/
abbrev turning : RosterRules := RosterRules.indexed sampleStatement 0 (collapse [memberRemoves, adminRemoves])

set_option maxRecDepth 20000 in
theorem held_turning : memberRemoves ∈ turning.heldChanges ∧ adminRemoves ∈ turning.heldChanges ∧
    ∀ c ∈ turning.heldChanges, c = memberRemoves ∨ c = adminRemoves := by
  decide

set_option maxRecDepth 20000 in
/-- Of the pair, each way of marking it leaves one mark its reason denies. -/
theorem turning_reasons (k r : Bool) : ¬ ((k = true ↔ (turning.removeReason memberRemoves).under
          (turning.readIn (fun id => if id = "k" then k else r) fun _ => false) = .none) ∧
      (r = true ↔ (turning.removeReason adminRemoves).under
          (turning.readIn (fun id => if id = "k" then k else r) fun _ => false) = .none)) := by
  revert k r
  decide

end SolvedSample

open SolvedSample in
set_option maxRecDepth 20000 in
/-- The leave of someone nobody knows has no reason and is not marked
`Applied`; and two removals that turn on each other, one a removal of its
keeper, have no solution at all. -/
theorem verdicts_not_solved :
    ((RosterRules.indexed sampleStatement 0 (collapse [leaveUnknown])).leaveReason leaveUnknown).under
        ((RosterRules.indexed sampleStatement 0 (collapse [leaveUnknown])).readIn
          (computeRosterChecked sampleStatement [leaveUnknown] 0).applied
          (computeRosterChecked sampleStatement [leaveUnknown] 0).applied) = .none ∧
      leaveUnknown ∈ (RosterRules.indexed sampleStatement 0 (collapse [leaveUnknown])).heldChanges ∧
      (computeRosterChecked sampleStatement [leaveUnknown] 0).applied leaveUnknown.id = false ∧
      ∀ R L, ¬ (RosterRules.indexed sampleStatement 0
        (collapse [memberRemoves, adminRemoves])).SolvedBy R L := by
  refine ⟨by decide, by decide, by decide, ?_⟩
  intro R L h
  obtain ⟨hmember, hadmin, hheld⟩ := held_turning
  have hread : turning.SolvedBy (fun id => if id = "k" then R "k" else R "r") fun _ => false := by
    apply h.congr (RosterRules.wellIndexed (nodup_collapse _))
    · intro c hc _
      rcases hheld c hc with rfl | rfl <;> rfl
    · intro c hc hk
      rcases hheld c hc with rfl | rfl <;> cases hk
  exact turning_reasons (R "k") (R "r") ⟨hread.removes _ hmember rfl, hread.removes _ hadmin rfl⟩

set_option maxRecDepth 20000 in
theorem verdicts_solve_kept : (RosterRules.indexed sampleStatement 0
    (collapse [SolvedSample.memberRemoves, SolvedSample.otherRemoves])).SolvedBy
      (computeRosterChecked sampleStatement
        [SolvedSample.memberRemoves, SolvedSample.otherRemoves] 0).applied
      (computeRosterChecked sampleStatement
        [SolvedSample.memberRemoves, SolvedSample.otherRemoves] 0).applied ∧
    (computeRosterChecked sampleStatement
      [SolvedSample.memberRemoves, SolvedSample.otherRemoves] 0).applied "k" = true := by
  have hranks : (RosterRules.indexed sampleStatement 0
      (collapse [SolvedSample.memberRemoves, SolvedSample.otherRemoves])).RanksRemovals
        fun id => if id = "k" then 1 else 0 := by
    unfold RosterRules.RanksRemovals
    decide
  exact ⟨(verdicts_solve sampleStatement _ 0 hranks).1, by decide⟩

end Pbr
