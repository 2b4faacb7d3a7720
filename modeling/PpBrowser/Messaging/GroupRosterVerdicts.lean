import Mathlib.Data.List.Induction
import PpBrowser.Messaging.GroupRosterReading

/-!
# GroupRosterVerdicts — one verdict per change

What the judging loops mark each change with, and that a change's
verdict is the one its own kind's loop gave it.
-/

namespace Pbr

open Lib

/-- `after` is `before` with a verdict for each change of `l`, its status
and reason as `Q` allows. -/
structure Judged (Q : CheckedGroupChange → GroupChangeStatus → GroupChangeReason → Prop)
    (l : Changes) (before after : StrMap GroupChangeVerdict) : Prop where
  marked : ∀ c ∈ l, ∃ status reason,
    after[c.id]? = some (verdictOf c status reason) ∧ Q c status reason
  kept : ∀ k : String, (∀ c ∈ l, c.id ≠ k) → after[k]? = before[k]?

namespace Judged

variable {Q : CheckedGroupChange → GroupChangeStatus → GroupChangeReason → Prop}
  {l l' : Changes} {m m' m'' : StrMap GroupChangeVerdict}

theorem refl (m : StrMap GroupChangeVerdict) : Judged Q [] m m :=
  ⟨by simp, fun _ _ => rfl⟩

/-- One more change judged, over changes that ids tell apart. -/
theorem mark {c : CheckedGroupChange} {status : GroupChangeStatus} {reason : GroupChangeReason}
    (hq : Q c status reason) (h : Judged Q l m m') (hid : ∀ d ∈ l, d.id = c.id → d = c) :
    Judged Q (c :: l) m (Pbr.mark m' c status reason) := by
  have hget (k : String) : (Pbr.mark m' c status reason)[k]? =
      if c.id = k then some (verdictOf c status reason) else m'[k]? := by
    simp [Pbr.mark, Std.ExtTreeMap.getElem?_insert]
  refine ⟨fun d hd => ?_, fun k hk => ?_⟩
  · rw [hget]
    rcases List.mem_cons.mp hd with rfl | hd
    · exact ⟨status, reason, by simp, hq⟩
    · by_cases hdc : d.id = c.id
      · obtain rfl := hid d hd hdc
        exact ⟨status, reason, by simp, hq⟩
      · obtain ⟨st, re, hm, hq'⟩ := h.marked d hd
        exact ⟨st, re, by simp [Ne.symm hdc, hm], hq'⟩
  · rw [hget, if_neg (hk c (by simp))]
    exact h.kept k fun d hd => hk d (by simp [hd])

theorem congr_mem (hl : ∀ c, c ∈ l ↔ c ∈ l') (h : Judged Q l m m') : Judged Q l' m m' :=
  ⟨fun c hc => h.marked c ((hl c).mpr hc), fun k hk => h.kept k fun c hc => hk c ((hl c).mp hc)⟩

theorem trans (h : Judged Q l m m') (h' : Judged Q l' m' m'')
    (hid : ∀ c ∈ l, ∀ d ∈ l', c.id ≠ d.id) : Judged Q (l ++ l') m m'' := by
  refine ⟨fun c hc => ?_, fun k hk => ?_⟩
  · rcases List.mem_append.mp hc with hc | hc
    · obtain ⟨st, re, hm, hq⟩ := h.marked c hc
      exact ⟨st, re, (h'.kept c.id fun d hd => (hid c hc d hd).symm).trans hm, hq⟩
    · exact h'.marked c hc
  · rw [h'.kept k fun d hd => hk d (by simp [hd]), h.kept k fun d hd => hk d (by simp [hd])]

/-- A loop whose every step marks its change and keeps `inv`. -/
theorem foldl {A : Type} (verdicts : A → StrMap GroupChangeVerdict)
    (step : A → CheckedGroupChange → A) (inv : A → Prop) (l : Changes) (hid : ∀ c ∈ l, ∀ d ∈ l, c.id = d.id → c = d)
    (hstep : ∀ s, inv s → ∀ c ∈ l, inv (step s c) ∧ ∃ status reason,
      verdicts (step s c) = Pbr.mark (verdicts s) c status reason ∧ Q c status reason) {s : A} (hs : inv s) :
    inv (l.foldl step s) ∧ Judged Q l (verdicts s) (verdicts (l.foldl step s)) := by
  induction l using List.reverseRecOn with
  | nil => exact ⟨hs, refl _⟩
  | append_singleton l c ih =>
    obtain ⟨hinv, ih⟩ := ih (fun a ha b hb => hid a (by simp [ha]) b (by simp [hb]))
      fun s hs a ha => hstep s hs a (by simp [ha])
    obtain ⟨hinv', st, re, hm, hq⟩ := hstep (l.foldl step s) hinv c (by simp)
    rw [List.foldl_append, List.foldl_cons, List.foldl_nil, hm]
    refine ⟨hinv', ?_⟩
    refine (mark hq ih fun d hd h => hid d (by simp [hd]) c (by simp) h).congr_mem fun d => ?_
    simp [or_comm]

end Judged

namespace RosterRules

variable (x : RosterRules) (v : Fact → Bool)

/-! ## The parts of the view -/

/-- The static reasons of the view's adds. -/
def reasons : StrMap GroupChangeReason := x.staticReasonsOf.under x.oracle

/-- Who is in, as the view has it. -/
def joined : Joined := (x.runAdds.under x.oracle).2

/-- The verdicts after the adds, removes and leaves. -/
def verdictsAfterLeaves : Verdicts :=
  (x.judgeRemovesAndLeaves
    ((x.adds.foldlM (x.judgeAdd x.reasons x.joined) x.verdicts).under x.oracle)).under x.oracle

def renamed : Verdicts × String × Nat :=
  (x.judgeRenames x.joined x.verdictsAfterLeaves).under x.oracle

def linked : Verdicts × Links := (x.judgeLinks x.joined x.renamed.1).under x.oracle

theorem under_runAdds : x.runAdds.under v = (x.staticReasonsOf.under v,
      (x.acceptPasses (x.staticReasonsOf.under v) (x.openAdds (x.staticReasonsOf.under v))
        ((x.openAdds (x.staticReasonsOf.under v)).length + 1) (x.standingMembers.under v)).under v) := by
  simp only [runAdds, Asking.under_bind, Asking.under_pure]

theorem view_eq :
    x.view = { x.viewHead with
      title := x.renamed.2.1, titleVersion := x.renamed.2.2
      removed := (x.removedRows x.joined).under x.oracle
      members := x.joined.in_.toList.filterMap (x.memberRow x.joined)
      links := x.liveLinks x.joined x.linked.2
      endedLinks := x.endedLinks x.joined x.linked.2
      verdicts := values x.linked.1 } := by
  simp only [view, judge, build, Asking.under_bind, Asking.under_map, linked, renamed,
    verdictsAfterLeaves, joined, reasons, under_runAdds]

/-! ## What each change comes to -/

/-- What an `Entitlement` of `c` came to over the final roster. -/
def entitledTo (c : CheckedGroupChange) (action : GroupAction) : GroupChangeReason :=
  ((x.entitlement c action .member (x.fromRoster x.joined)).under x.oracle).1

/-- What each kind's loop may mark a change of it with. -/
def Outcome (c : CheckedGroupChange) (status : GroupChangeStatus) (reason : GroupChangeReason) :
    Prop :=
  match c.change.kind with
  | .add => (status, reason) = (x.addOutcome x.reasons x.joined c).under x.oracle
  | .remove =>
    reason = (x.removeOutcome c).under x.oracle ∧
      status = if reason = .none then .applied else .void
  | .leave =>
    reason = (if (x.leaveOutcome c).under x.oracle = .none ∧ !x.knownLeaver c.change.signer
      then .signerNotJoined else (x.leaveOutcome c).under x.oracle) ∧
    status = if reason = .none then .applied else .void
  | .rename =>
    if x.entitledTo c .rename = .none then
      (status = .superseded ∧ (reason = .olderTitle ∨ reason = .lostRename)) ∨
        (status = .applied ∧ reason = .none)
    else status = .void ∧ reason = x.entitledTo c .rename
  | .linkAdd =>
    if x.entitledTo c .makeInviteLink = .none then
      (status = .void ∧ reason = .duplicateLink) ∨ (status = .applied ∧ reason = .none)
    else status = .void ∧ reason = x.entitledTo c .makeInviteLink
  | .linkRevoke =>
    match x.linked.2.links[c.change.linkId]? with
    | none => status = .void ∧ reason = .noSuchLink
    | some link =>
      reason = x.entitledTo c
        (if c.change.signer = link.maker then .send else .revokeInviteLink) ∧
      status = if reason = .none then .applied else .void

/-! ## The judging loops -/

section Loops

variable {x} (hx : x.WellIndexed)

include hx

theorem eq_of_id {c d : CheckedGroupChange} (hc : c ∈ x.heldChanges) (hd : d ∈ x.heldChanges)
    (h : c.id = d.id) : c = d := by
  have hc := held_of_mem hx hc
  rw [h, held_of_mem hx hd] at hc
  exact (Option.some.inj hc).symm

theorem judged_adds (m : Verdicts) : Judged x.Outcome x.adds m
      ((x.adds.foldlM (x.judgeAdd x.reasons x.joined) m).under x.oracle) := by
  rw [Asking.under_foldlM]
  refine (Judged.foldl (fun m => m) _ (fun _ => True) x.adds (fun a ha b hb => ?_)
    (fun m _ a ha => ⟨trivial, ?_⟩) trivial).2
  · exact eq_of_id hx ((mem_adds hx).mp ha).1 ((mem_adds hx).mp hb).1
  · refine ⟨_, _, Asking.under_map .., ?_⟩
    simp only [Outcome, ((mem_adds hx).mp ha).2]

theorem judged_removes (m : Verdicts) : Judged x.Outcome (values x.removesOf).flatten m
      (((values x.removesOf).flatten.foldlM x.judgeRemove m).under x.oracle) := by
  rw [Asking.under_foldlM]
  refine (Judged.foldl (fun m => m) _ (fun _ => True) _ (fun a ha b hb => ?_)
    (fun m _ r hr => ⟨trivial, ?_⟩) trivial).2
  · exact eq_of_id hx ((mem_removes hx).mp ha).1 ((mem_removes hx).mp hb).1
  · refine ⟨_, _, Asking.under_map .., ?_⟩
    simp only [Outcome, ((mem_removes hx).mp hr).2, and_self]

theorem judged_leaves (m : Verdicts) : Judged x.Outcome (values x.leavesBy).flatten m
      (((values x.leavesBy).flatten.foldlM x.judgeLeave m).under x.oracle) := by
  rw [Asking.under_foldlM]
  refine (Judged.foldl (fun m => m) _ (fun _ => True) _ (fun a ha b hb => ?_)
    (fun m _ l hl => ⟨trivial, ?_⟩) trivial).2
  · exact eq_of_id hx ((mem_leaves hx).mp ha).1 ((mem_leaves hx).mp hb).1
  · refine ⟨_, _, Asking.under_map .., ?_⟩
    simp only [Outcome, ((mem_leaves hx).mp hl).2, and_self]

omit hx in
theorem under_judgeRename (acc : Verdicts × BestRename) (c : CheckedGroupChange) :
    (x.judgeRename x.joined acc c).under x.oracle = if x.entitledTo c .rename = .none then x.enterRename acc c
          ((x.entitlement c .rename .member (x.fromRoster x.joined)).under x.oracle).2
      else (mark acc.1 c .void (x.entitledTo c .rename), acc.2) := by
  rw [judgeRename, Asking.under_map]
  rfl

omit hx in
theorem under_judgeLinkAdd (acc : Verdicts × Links) (c : CheckedGroupChange) :
    (x.judgeLinkAdd x.joined acc c).under x.oracle = enterLink acc c (x.entitledTo c .makeInviteLink) := by
  rw [judgeLinkAdd, Asking.under_map]
  rfl

omit hx in
theorem under_judgeLinkRevoke (acc : Verdicts × Links) (c : CheckedGroupChange) :
    (x.judgeLinkRevoke x.joined acc c).under x.oracle =
      match acc.2.links[c.change.linkId]? with
      | none => (mark acc.1 c .void .noSuchLink, acc.2)
      | some link =>
        let reason := x.entitledTo c
          (if c.change.signer = link.maker then .send else .revokeInviteLink)
        (mark acc.1 c (if reason = .none then .applied else .void) reason,
          if reason = .none then
            { acc.2 with revoked := acc.2.revoked.insert c.change.linkId }
          else acc.2) := by
  simp only [judgeLinkRevoke]
  cases acc.2.links[c.change.linkId]? with
  | none => rfl
  | some link =>
    rw [Asking.under_map]
    rfl

/-- The best rename so far is an entitled one. -/
def BestEntitled (x : RosterRules) (best : BestRename) : Prop :=
  ∀ c version rank, best = some (c, version, rank) →
    c ∈ x.renames ∧ x.entitledTo c .rename = .none

theorem judged_renames (m : Verdicts) :
    Judged x.Outcome x.renames m ((x.judgeRenames x.joined m).under x.oracle).1 := by
  have hid : ∀ a ∈ x.renames, ∀ b ∈ x.renames, a.id = b.id → a = b := fun a ha b hb =>
    eq_of_id hx ((mem_renames hx).mp ha).1 ((mem_renames hx).mp hb).1
  have hstep (acc : Verdicts × BestRename) (hacc : x.BestEntitled acc.2)
      (c : CheckedGroupChange) (hc : c ∈ x.renames) :
      x.BestEntitled ((x.judgeRename x.joined acc c).under x.oracle).2 ∧ ∃ status reason,
        ((x.judgeRename x.joined acc c).under x.oracle).1 = mark acc.1 c status reason ∧
          x.Outcome c status reason := by
    rw [under_judgeRename]
    simp only [Outcome, ((mem_renames hx).mp hc).2]
    by_cases he : x.entitledTo c .rename = .none
    · simp only [if_pos he]
      unfold enterRename
      split
      · exact ⟨hacc, _, _, rfl, .inl ⟨rfl, .inl rfl⟩⟩
      · refine ⟨fun c' version rank h => ?_, _, _, rfl, .inl ⟨rfl, .inr rfl⟩⟩
        simp only at h
        split at h
        · cases h
          exact ⟨hc, he⟩
        · exact hacc _ _ _ h
    · simp only [if_neg he]
      exact ⟨hacc, _, _, rfl, rfl, rfl⟩
  obtain ⟨hbest, hfold⟩ := Judged.foldl (A := Verdicts × BestRename) Prod.fst _
    (fun acc => x.BestEntitled acc.2) x.renames hid hstep (s := (m, none))
    (fun _ _ _ h => by cases h)
  simp only [judgeRenames, Asking.under_map, Asking.under_foldlM]
  cases hb : (x.renames.foldl (fun acc c => (x.judgeRename x.joined acc c).under x.oracle)
      (m, none)).2 with
  | none => exact hfold
  | some best =>
    obtain ⟨c, version, rank⟩ := best
    obtain ⟨hc, he⟩ := hbest _ _ _ hb
    have hq : x.Outcome c .applied .none := by
      simp only [Outcome, ((mem_renames hx).mp hc).2, if_pos he]
      exact .inr ⟨trivial, trivial⟩
    refine (hfold.mark hq fun d hd h => hid d hd c hc h).congr_mem fun d => ?_
    simp only [List.mem_cons, or_iff_right_iff_imp]
    exact fun h => h ▸ hc

theorem judged_linkAdds (m : Verdicts) :
    Judged x.Outcome x.linkAdds m ((x.judgeLinkAdds x.joined m).under x.oracle).1 := by
  simp only [judgeLinkAdds, Asking.under_map, Asking.under_foldlM]
  refine (Judged.foldl (A := Verdicts × Links) Prod.fst _ (fun _ => True) _ (fun a ha b hb => ?_)
    (fun acc _ c hc => ⟨trivial, ?_⟩) (s := (m, { links := x.statementLinks })) trivial).2
  · exact eq_of_id hx ((mem_linkAdds hx).mp ha).1 ((mem_linkAdds hx).mp hb).1
  · rw [under_judgeLinkAdd]
    simp only [Outcome, ((mem_linkAdds hx).mp hc).2, enterLink]
    by_cases he : x.entitledTo c .makeInviteLink = .none
    · simp only [if_neg (not_not_intro he), if_pos he]
      split
      · exact ⟨_, _, rfl, .inl ⟨rfl, rfl⟩⟩
      · exact ⟨_, _, rfl, .inr ⟨rfl, rfl⟩⟩
    · simp only [ne_eq, he, not_false_eq_true, ↓reduceIte]
      exact ⟨_, _, rfl, rfl, rfl⟩

omit hx in
theorem judgeLinkRevoke_tables (acc : Verdicts × Links) (c : CheckedGroupChange) :
    ((x.judgeLinkRevoke x.joined acc c).under x.oracle).2.links = acc.2.links ∧
      ((x.judgeLinkRevoke x.joined acc c).under x.oracle).2.goneMakersLinks = acc.2.goneMakersLinks := by
  rw [under_judgeLinkRevoke]
  split
  · exact ⟨rfl, rfl⟩
  · next link _ =>
      by_cases he : x.entitledTo c
          (if c.change.signer = link.maker then .send else .revokeInviteLink) = .none
      · simp only [if_pos he, and_self]
      · simp only [if_neg he, and_self]

theorem judged_links (m : Verdicts) (hm : x.renamed.1 = m) :
    Judged x.Outcome (x.linkAdds ++ x.linkRevokes) m x.linked.1 := by
  have hlinked : x.linked = x.linkRevokes.foldl
      (fun acc c => (x.judgeLinkRevoke x.joined acc c).under x.oracle)
      ((x.judgeLinkAdds x.joined m).under x.oracle) := by
    simp only [linked, judgeLinks, Asking.under_bind, Asking.under_foldlM, hm]
  -- every step looks its link up in the tables `judgeLinkAdds` left
  let links := ((x.judgeLinkAdds x.joined m).under x.oracle).2.links
  have hlinks : x.linked.2.links = links := by
    rw [hlinked]
    exact List.foldlRecOn x.linkRevokes _ (motive := fun acc => acc.2.links = links) rfl
      fun acc hacc c _ => (judgeLinkRevoke_tables acc c).1.trans hacc
  refine Judged.trans (judged_linkAdds hx m) ?_ ?_
  · rw [hlinked]
    refine (Judged.foldl (A := Verdicts × Links) Prod.fst _ (fun acc => acc.2.links = links) _
      (fun a ha b hb => ?_) (fun acc hacc c hc => ⟨?_, ?_⟩) rfl).2
    · exact eq_of_id hx ((mem_linkRevokes hx).mp ha).1 ((mem_linkRevokes hx).mp hb).1
    · exact (judgeLinkRevoke_tables acc c).1.trans hacc
    · have hk := ((mem_linkRevokes hx).mp hc).2
      rw [under_judgeLinkRevoke, hacc]
      simp only [Outcome, hk, hlinks]
      cases links[c.change.linkId]? with
      | none | some link => exact ⟨_, _, rfl, rfl, rfl⟩
  · intro c hc d hd h
    obtain ⟨hc, hkc⟩ := (mem_linkAdds hx).mp hc
    obtain ⟨hd, hkd⟩ := (mem_linkRevokes hx).mp hd
    rw [eq_of_id hx hc hd h, hkd] at hkc
    cases hkc

theorem id_ne {c d : CheckedGroupChange} (hc : c ∈ x.heldChanges) (hd : d ∈ x.heldChanges)
    (hk : c.change.kind ≠ d.change.kind) : c.id ≠ d.id :=
  fun h => hk (by rw [eq_of_id hx hc hd h])

/-- Every held change gets one verdict, by its own kind's rule; the others
keep what `Classify` marked them with. -/
theorem judged_view : Judged x.Outcome x.heldChanges x.verdicts x.linked.1 := by
  have hleft : Judged x.Outcome ((values x.removesOf).flatten ++ (values x.leavesBy).flatten)
      ((x.adds.foldlM (x.judgeAdd x.reasons x.joined) x.verdicts).under x.oracle)
      x.verdictsAfterLeaves := by
    simp only [verdictsAfterLeaves, judgeRemovesAndLeaves, Asking.under_bind]
    refine (judged_removes hx _).trans (judged_leaves hx _) fun r hr l hl => ?_
    obtain ⟨hr, hkr⟩ := (mem_removes hx).mp hr
    obtain ⟨hl, hkl⟩ := (mem_leaves hx).mp hl
    exact id_ne hx hr hl (by simp [hkr, hkl])
  have hrenamed := (hleft.trans (judged_renames hx x.verdictsAfterLeaves) fun c hc d hd => by
    obtain ⟨hd, hkd⟩ := (mem_renames hx).mp hd
    rcases List.mem_append.mp hc with hc | hc
    · obtain ⟨hc, hkc⟩ := (mem_removes hx).mp hc
      exact id_ne hx hc hd (by simp [hkc, hkd])
    · obtain ⟨hc, hkc⟩ := (mem_leaves hx).mp hc
      exact id_ne hx hc hd (by simp [hkc, hkd]))
  have hlinked := hrenamed.trans (judged_links hx x.renamed.1 rfl) fun c hc d hd => by
    have hd : d ∈ x.heldChanges ∧ (d.change.kind = .linkAdd ∨ d.change.kind = .linkRevoke) := by
      rcases List.mem_append.mp hd with hd | hd
      · exact ⟨((mem_linkAdds hx).mp hd).1, .inl ((mem_linkAdds hx).mp hd).2⟩
      · exact ⟨((mem_linkRevokes hx).mp hd).1, .inr ((mem_linkRevokes hx).mp hd).2⟩
    have hc : c ∈ x.heldChanges ∧ c.change.kind ≠ .linkAdd ∧ c.change.kind ≠ .linkRevoke := by
      rcases List.mem_append.mp hc with hc | hc
      · rcases List.mem_append.mp hc with hc | hc
        · obtain ⟨hc, hk⟩ := (mem_removes hx).mp hc
          simp [hc, hk]
        · obtain ⟨hc, hk⟩ := (mem_leaves hx).mp hc
          simp [hc, hk]
      · obtain ⟨hc, hk⟩ := (mem_renames hx).mp hc
        simp [hc, hk]
    exact id_ne hx hc.1 hd.1 fun h => hd.2.elim (h ▸ hc.2.1) (h ▸ hc.2.2)
  refine ((judged_adds hx x.verdicts).trans hlinked fun a ha d hd => ?_).congr_mem fun c => ?_
  · obtain ⟨ha, hk⟩ := (mem_adds hx).mp ha
    simp only [List.mem_append, mem_removes hx, mem_leaves hx, mem_renames hx, mem_linkAdds hx,
      mem_linkRevokes hx] at hd
    have hd' : d ∈ x.heldChanges ∧ d.change.kind ≠ .add := by
      rcases hd with ((⟨hd, hk⟩ | ⟨hd, hk⟩) | ⟨hd, hk⟩) | ⟨hd, hk⟩ | ⟨hd, hk⟩ <;> simp [hd, hk]
    exact id_ne hx ha hd'.1 fun h => hd'.2 (h ▸ hk)
  · simp only [List.mem_append, mem_adds hx, mem_removes hx, mem_leaves hx, mem_renames hx,
      mem_linkAdds hx, mem_linkRevokes hx]
    cases c.change.kind <;> simp

end Loops

/-! ## Verdicts by id -/

section Verdicts

variable {s : GroupRosterStatement} {now : Int} {changes : List CheckedGroupChange}

section

variable (hn : (changes.map CheckedGroupChange.id).Nodup)
include hn

theorem keyed_linked : Keyed GroupChangeVerdict.id (indexed s now changes).linked.1 := by
  intro k v hv
  have hx : (indexed s now changes).WellIndexed := wellIndexed hn
  have hj := judged_view hx
  by_cases hk : ∃ c ∈ (indexed s now changes).heldChanges, c.id = k
  · obtain ⟨c, hc, rfl⟩ := hk
    obtain ⟨st, re, hm, -⟩ := hj.marked c hc
    rw [hm] at hv
    cases hv
    rfl
  · rw [hj.kept k fun c hc h => hk ⟨c, hc, h⟩, verdicts_indexed hn] at hv
    obtain ⟨c, -, -, rfl, rfl⟩ := hv
    unfold classified
    split <;> rfl

theorem verdict_view (k : String) :
    (indexed s now changes).view.verdict k = (indexed s now changes).linked.1[k]? := by
  rw [view_eq]
  exact (keyed_linked hn).find?_values k

theorem verdict_of_held {c : CheckedGroupChange} (hc : c ∈ (indexed s now changes).heldChanges) :
    ∃ status reason, (indexed s now changes).view.verdict c.id = some (verdictOf c status reason) ∧
        (indexed s now changes).Outcome c status reason := by
  rw [verdict_view hn]
  exact (judged_view (wellIndexed hn)).marked c hc

theorem verdict_of_classified
    {c : CheckedGroupChange} (hc : c ∈ changes) (hcl : classifyOne s (foldedIds s) c ≠ none) :
    (indexed s now changes).view.verdict c.id = some (classified s c) := by
  rw [verdict_view hn, (judged_view (wellIndexed hn)).kept, verdicts_indexed hn]
  · exact ⟨c, hc, hcl, rfl, rfl⟩
  · intro d hd hid
    obtain ⟨hd, hdcl⟩ := (mem_heldChanges_indexed hn).mp hd
    have : d = c := List.inj_on_of_nodup_map hn hd hc hid
    exact hcl (this ▸ hdcl)

theorem verdict_isSome_iff (k : String) :
    ((indexed s now changes).view.verdict k).isSome ↔ ∃ c ∈ changes, c.id = k := by
  constructor
  · intro h
    rw [verdict_view hn] at h
    obtain ⟨v, hv⟩ := Option.isSome_iff_exists.mp h
    by_cases hk : ∃ c ∈ (indexed s now changes).heldChanges, c.id = k
    · obtain ⟨c, hc, rfl⟩ := hk
      exact ⟨c, ((mem_heldChanges_indexed hn).mp hc).1, rfl⟩
    · rw [(judged_view (wellIndexed hn)).kept k fun c hc h => hk ⟨c, hc, h⟩,
        verdicts_indexed hn] at hv
      obtain ⟨c, hc, -, hid, -⟩ := hv
      exact ⟨c, hc, hid⟩
  · rintro ⟨c, hc, rfl⟩
    by_cases hcl : classifyOne s (foldedIds s) c = none
    · have hheld : c ∈ (indexed s now changes).heldChanges := (mem_heldChanges_indexed hn).mpr ⟨hc, hcl⟩
      obtain ⟨st, re, h, -⟩ := verdict_of_held hn hheld
      simp [h]
    · simp [verdict_of_classified hn hc hcl]

theorem verdicts_sorted : ((indexed s now changes).view.verdicts.map (·.id)).Pairwise (· < ·) := by
  rw [view_eq]
  simp only
  rw [(keyed_linked hn).map_values]
  exact Std.ExtTreeMap.ordered_keys.imp compare_lt_iff_lt.mp

end

end Verdicts

/-! ## Verdicts of a run -/

section Run

variable {s : GroupRosterStatement} {now : Int} {changes : List CheckedGroupChange}

variable {c : CheckedGroupChange} {folded : StrSet} {s : GroupRosterStatement} {status : GroupChangeStatus}
  {reason : GroupChangeReason}

theorem classifyOne_eq_none : classifyOne s folded c = none ↔ c.change.groupId = s.groupId ∧ c.id ∉ folded ∧
        s.changeFloorEpoch ≤ c.change.baseEpoch ∧ s.dissolved = false ∧ c.proof = .proved := by
  unfold classifyOne
  by_cases hgroup : c.change.groupId = s.groupId
  swap
  · simp [hgroup]
  by_cases hfolded : c.id ∈ folded
  · simp [hfolded, hgroup]
  by_cases hfloor : c.change.baseEpoch < s.changeFloorEpoch
  · simp [hfolded, hgroup, hfloor]
  cases hd : s.dissolved with
  | true => simp [hgroup, hfolded, hfloor]
  | false => cases hp : c.proof <;> simp [hgroup, hfolded, Nat.not_lt.mp hfloor, hfloor]

theorem proved_of_held (h : classifyOne s folded c = none) : c.proof = .proved ∧ s.dissolved = false := by
  obtain ⟨-, -, -, hd, hp⟩ := classifyOne_eq_none.mp h
  exact ⟨hp, hd⟩

theorem classifyOne_some (h : classifyOne s folded c = some (status, reason)) :
    status = .dropped ∨ (status = .void ∧ reason = .noCard) := by
  have dropped {r : GroupChangeReason}
      (h : some (GroupChangeStatus.dropped, r) = some (status, reason)) : status = .dropped := by
    cases h
    rfl
  unfold classifyOne at h
  split at h
  · exact .inl (dropped h)
  split at h
  · exact .inl (dropped h)
  split at h
  · exact .inl (dropped h)
  split at h
  · exact .inl (dropped h)
  cases hp : c.proof with
  | malformed | badSignature => rw [hp] at h; exact .inl (dropped h)
  | noCard =>
    rw [hp] at h
    cases h
    exact .inr ⟨rfl, rfl⟩
  | proved =>
    rw [hp] at h
    cases h

theorem run_dissolved (hd : s.dissolved = true) :
    run s now changes = { (indexed s now changes).viewHead with
      title := s.title, titleVersion := s.titleVersion
      verdicts := values (indexed s now changes).verdicts } := by
  have hverdicts : (indexed s now changes).verdicts = ((start s now).classify changes).verdicts :=
    indexed_kept.2.2.2.2.2
  have hs : ((start s now).classify changes).s = s := by rw [classify_eq]; rfl
  simp only [run, hd, if_true, viewHead, hverdicts, hs, indexed_s]

theorem keyed_verdicts (hn : (changes.map CheckedGroupChange.id).Nodup) :
    Keyed GroupChangeVerdict.id (indexed s now changes).verdicts := by
  intro k v hv
  obtain ⟨c, -, -, rfl, rfl⟩ := (verdicts_indexed hn).mp hv
  unfold classified
  split <;> rfl

theorem not_held_of_dissolved (hd : s.dissolved = true) (folded : StrSet)
    (c : CheckedGroupChange) : classifyOne s folded c ≠ none := by
  intro h
  rw [(proved_of_held h).2] at hd
  cases hd

theorem run_verdicts_sorted (hn : (changes.map CheckedGroupChange.id).Nodup) :
    ((run s now changes).verdicts.map (·.id)).Pairwise (· < ·) := by
  cases hd : s.dissolved with
  | false =>
    rw [run_eq_view hd now hn]
    exact verdicts_sorted hn
  | true =>
    rw [run_dissolved hd]
    show ((values _).map GroupChangeVerdict.id).Pairwise (· < ·)
    rw [(keyed_verdicts hn).map_values]
    exact Std.ExtTreeMap.ordered_keys.imp compare_lt_iff_lt.mp

theorem run_verdict_classified (now : Int) (hn : (changes.map CheckedGroupChange.id).Nodup) (hc : c ∈ changes)
    (hcl : classifyOne s (foldedIds s) c ≠ none) : (run s now changes).verdict c.id = some (classified s c) := by
  cases hd : s.dissolved with
  | false =>
    rw [run_eq_view hd now hn]
    exact verdict_of_classified hn hc hcl
  | true =>
    rw [run_dissolved hd]
    show (values _).find? _ = _
    rw [(keyed_verdicts hn).find?_values, verdicts_indexed hn]
    exact ⟨c, hc, hcl, rfl, rfl⟩

/-- The verdict of a change `Classify` holds. -/
theorem run_verdict_held (s : GroupRosterStatement) (now : Int)
    (hn : (changes.map CheckedGroupChange.id).Nodup) (hc : c ∈ changes) (hcl : classifyOne s (foldedIds s) c = none) :
    ∃ status reason, (run s now changes).verdict c.id = some (verdictOf c status reason) ∧
      (indexed s now changes).Outcome c status reason := by
  rw [run_eq_view (proved_of_held hcl).2 now hn]
  exact verdict_of_held hn ((mem_heldChanges_indexed hn).mpr ⟨hc, hcl⟩)

theorem Outcome.not_dropped {x : RosterRules} (h : x.Outcome c status reason) : status ≠ .dropped := by
  have happlied (r : GroupChangeReason) :
      (if r = .none then GroupChangeStatus.applied else .void) ≠ .dropped := by
    split <;> simp
  unfold Outcome at h
  split at h
  · have hst := congrArg Prod.fst h
    simp only [addOutcome, Asking.under_ite, Asking.under_pure, Asking.under_map, apply_ite Prod.fst]
      at hst
    subst hst
    split
    · split <;> simp
    · split
      · simp
      · split <;> simp
  · exact h.2 ▸ happlied _
  · exact h.2 ▸ happlied _
  · split at h
    · rcases h with ⟨h, -⟩ | ⟨h, -⟩ <;> simp [h]
    · simp [h.1]
  · split at h
    · rcases h with ⟨h, -⟩ | ⟨h, -⟩ <;> simp [h]
    · simp [h.1]
  · split at h
    · simp [h.1]
    · exact h.2 ▸ happlied _

/-- A change's verdict is under its own id and of its own epoch, and drops
it just when `Classify` does. -/
theorem run_verdict (s : GroupRosterStatement) (now : Int)
    (hn : (changes.map CheckedGroupChange.id).Nodup) (hc : c ∈ changes) :
    ∃ v, (run s now changes).verdict c.id = some v ∧ v.id = c.id ∧ v.baseEpoch = c.change.baseEpoch ∧
      (v.status = .dropped ↔ ∃ reason, classifyOne s (foldedIds s) c = some (.dropped, reason)) := by
  cases hcl : classifyOne s (foldedIds s) c with
  | none =>
    obtain ⟨st, re, hv, hq⟩ := run_verdict_held s now hn hc hcl
    exact ⟨_, hv, rfl, rfl, by simpa [verdictOf] using hq.not_dropped⟩
  | some outcome =>
    refine ⟨_, run_verdict_classified now hn hc (by simp [hcl]), ?_⟩
    obtain ⟨st, re⟩ := outcome
    simp [classified, hcl, verdictOf]

theorem exists_of_mem_verdicts (hn : (changes.map CheckedGroupChange.id).Nodup)
    {v : GroupChangeVerdict} (hv : v ∈ (run s now changes).verdicts) :
    ∃ c ∈ changes, c.id = v.id ∧ (run s now changes).verdict c.id = some v := by
  have hid : ∃ c ∈ changes, c.id = v.id := by
    cases hd : s.dissolved with
    | false =>
      rw [run_eq_view hd now hn] at hv
      apply (verdict_isSome_iff hn v.id).mp
      rw [GroupRosterView.verdict, List.find?_isSome]
      exact ⟨v, hv, by simp⟩
    | true =>
      rw [run_dissolved hd] at hv
      obtain ⟨k, hk⟩ := mem_values.mp hv
      obtain ⟨c, hc, -, hid, -⟩ := (verdicts_indexed hn).mp hk
      exact ⟨c, hc, hid.trans (keyed_verdicts hn k v hk).symm⟩
  obtain ⟨c, hc, hid⟩ := hid
  obtain ⟨v', hv', hvid, -⟩ := run_verdict s now hn hc
  obtain rfl : v' = v := List.inj_on_of_nodup_map ((run_verdicts_sorted hn).imp ne_of_lt)
    (List.mem_of_find?_eq_some hv') hv (hvid.trans hid)
  exact ⟨c, hc, hid, hv'⟩

theorem mem_verdict_ids (hn : (changes.map CheckedGroupChange.id).Nodup) {id : String} :
    id ∈ (run s now changes).verdicts.map (·.id) ↔ id ∈ changes.map CheckedGroupChange.id := by
  constructor
  · intro h
    obtain ⟨v, hv, rfl⟩ := List.mem_map.mp h
    obtain ⟨c, hc, hid, -⟩ := exists_of_mem_verdicts hn hv
    exact List.mem_map.mpr ⟨c, hc, hid⟩
  · intro h
    obtain ⟨c, hc, rfl⟩ := List.mem_map.mp h
    obtain ⟨v, hv, hid, -⟩ := run_verdict s now hn hc
    exact List.mem_map.mpr ⟨v, List.mem_of_find?_eq_some hv, hid⟩

end Run

end RosterRules

end Pbr
