import PpBrowser.Messaging.GroupRosterReplay
import PpBrowser.Messaging.GroupRosterRows

/-!
# GroupRosterUndone — adds that a leave or a remove names

R1 and R2: while a leave or a remove counts, the adds it names bring nobody
in; once a fold has taken such an add in, no copy of it does again. A
removal on the statement's removed list bars every add of its account but
the re-admit that names it. A leave is not on any list: what undoes the adds
it names is the leave, while it is held, or their own fold.
-/

namespace Pbr

open Lib RosterRules

/-- `n` is a leave by `account` or a remove of it, and names the add `id`. -/
structure Undoes (n : GroupChange) (account id : String) : Prop where
  out : (n.kind = .leave ∧ n.signer = account) ∨ (n.kind = .remove ∧ n.member = account)
  names : id ∈ n.adds

/-- The view lists `account` because of the add `id`. -/
def GroupRosterView.BroughtIn (view : GroupRosterView) (account id : String) : Prop :=
  ∃ row ∈ view.members, row.identity = account ∧ row.addedIn = id ∧ row.addedIn ≠ ""

namespace RosterRules

variable {x : RosterRules}

/-! ## What the verdict says is what the memos hold -/

variable {V : List Fact}

theorem cut_of_needs {f g : Fact} (hV : ∀ h ∈ V, x.needs h f → h = f)
    (hg : x.needs g f) (hne : g ≠ f) : x.memo.cut V g = x.oracle g :=
  Memo.cut_of_notMem fun hmem => hne (hV g hmem hg)

theorem standsUnder_cut {account : String}
    (h : x.standsUnder x.oracle account = true) : x.standsUnder (x.memo.cut V) account = true := by
  simp only [standsUnder, presentUnder, leftUnder, Bool.and_eq_true, Bool.not_eq_true',
    List.any_eq_false] at h ⊢
  obtain ⟨⟨hin, hremoved⟩, hleft⟩ := h
  refine ⟨⟨hin, ?_⟩, fun l hl hcut => hleft l hl (Memo.holds_of_cut hcut)⟩
  rw [← Bool.not_eq_true]
  intro hcut
  have hheld := Memo.holds_of_cut hcut
  rw [show x.memo.holds ⟨.removed, account⟩ = x.oracle ⟨.removed, account⟩ from rfl,
    hremoved] at hheld
  cases hheld

theorem presentUnder_cut {account : String} (h : x.presentUnder x.oracle account = true) :
    x.presentUnder (x.memo.cut V) account = true := by
  simp only [presentUnder, Bool.and_eq_true, Bool.not_eq_true'] at h ⊢
  refine ⟨h.1, ?_⟩
  rw [← Bool.not_eq_true]
  intro hcut
  have hheld := Memo.holds_of_cut hcut
  rw [show x.memo.holds ⟨.removed, account⟩ = x.oracle ⟨.removed, account⟩ from rfl,
    h.2] at hheld
  cases hheld

section Asked

variable (x) (v : Fact → Bool)

theorem asked_removes (hx : x.WellIndexed) {r : CheckedGroupChange} (hr : r ∈ x.heldChanges)
    (hk : r.change.kind = .remove) : ⟨.removes, r.id⟩ ∈ x.judge.asked v := by
  have hloop (m : Verdicts) : ⟨.removes, r.id⟩ ∈ (x.judgeRemovesAndLeaves m).asked v := by
    rw [judgeRemovesAndLeaves, Asking.asked_bind]
    refine List.mem_append_left _ (Asking.asked_foldlM v ((mem_removes hx).mpr ⟨hr, hk⟩)
      (fun m => ?_) m)
    rw [judgeRemove, Asking.asked_map, removeOutcome, Asking.asked_bind]
    exact List.mem_append_left _ List.mem_cons_self
  simp only [judge, Asking.asked_bind, List.mem_append]
  exact .inr (.inr (.inl (hloop _)))

theorem asked_leaves (hx : x.WellIndexed) {l : CheckedGroupChange} (hl : l ∈ x.heldChanges)
    (hk : l.change.kind = .leave) : ⟨.leaves, l.id⟩ ∈ x.judge.asked v := by
  have hloop (m : Verdicts) : ⟨.leaves, l.id⟩ ∈ (x.judgeRemovesAndLeaves m).asked v := by
    rw [judgeRemovesAndLeaves, Asking.asked_bind]
    refine List.mem_append_right _ (Asking.asked_foldlM v ((mem_leaves hx).mpr ⟨hl, hk⟩)
      (fun m => ?_) _)
    rw [judgeLeave, Asking.asked_map, leaveOutcome, Asking.asked_bind]
    exact List.mem_append_left _ List.mem_cons_self
  simp only [judge, Asking.asked_bind, List.mem_append]
  exact .inr (.inr (.inl (hloop _)))

end Asked

section Counts

variable (hx : x.WellIndexed) {reason : GroupChangeReason} {r : CheckedGroupChange} {l : CheckedGroupChange}

include hx

/-- A remove whose reason comes to none counts: cut facts only help it. -/
theorem oracle_of_removeReason (hr : r ∈ x.heldChanges)
    (hk : r.change.kind = .remove) (h : (x.removeReason r).under x.oracle = .none) :
    x.oracle ⟨.removes, r.id⟩ = true := by
  have hheld := held_of_mem hx hr
  obtain ⟨V, -, hV, hbody⟩ := oracle_justified hx (knows_of_asked hx (x.asked_removes x.oracle hx hr hk))
  have hremoveKept : x.memo.cut V ⟨.removeKept, r.id⟩ = x.oracle ⟨.removeKept, r.id⟩ :=
    cut_of_needs hV ⟨r, hheld, .removes, by simp [hk, askedFirst], rfl⟩ (by simp)
  have hleaveKept : x.memo.cut V ⟨.leaveKept, r.id⟩ = x.oracle ⟨.leaveKept, r.id⟩ :=
    cut_of_needs hV ⟨r, hheld, .removes, by simp [hk, askedFirst], rfl⟩ (by simp)
  rw [hbody]
  simp only [factBody, hheld, Asking.under_map, decide_eq_true_eq]
  rw [under_removeReason] at h ⊢
  split at h
  · cases h
  · next howner =>
      rw [if_neg howner, entitlement_none_iff]
      rw [entitlement_none_iff] at h
      rw [hremoveKept]
      rcases h with h | ⟨hadmitted, hstate⟩
      · exact .inl h
      · right
        refine ⟨by rwa [admitted, hleaveKept, ← admitted], ?_⟩
        simp only [under_fromStatement, hleaveKept] at hstate ⊢
        rcases hstate with ⟨hin, hallows⟩ | ⟨-, hkept, hpresent, hallows⟩
        · left
          rw [if_pos hin] at hallows
          exact ⟨standsUnder_cut hin, by rwa [if_pos (standsUnder_cut hin)]⟩
        · rw [if_pos hpresent] at hallows
          cases hstands : x.standsUnder (x.memo.cut V) r.change.signer with
          | true => exact .inl ⟨rfl, by simpa using hallows⟩
          | false =>
            right
            exact ⟨rfl, hkept, presentUnder_cut hpresent,
              by rwa [if_pos (presentUnder_cut hpresent)]⟩

theorem oracle_of_leaveReason (hl : l ∈ x.heldChanges)
    (hk : l.change.kind = .leave) (h : (x.leaveReason l).under x.oracle = .none) :
    x.oracle ⟨.leaves, l.id⟩ = true := by
  have hheld := held_of_mem hx hl
  obtain ⟨V, -, hV, hbody⟩ := oracle_justified hx (knows_of_asked hx (x.asked_leaves x.oracle hx hl hk))
  have hremoveKept : x.memo.cut V ⟨.removeKept, l.id⟩ = x.oracle ⟨.removeKept, l.id⟩ :=
    cut_of_needs hV ⟨l, hheld, .leaves, by simp [hk, askedFirst], rfl⟩ (by simp)
  rw [hbody]
  simp only [factBody, hheld, Asking.under_map, decide_eq_true_eq]
  rwa [under_leaveReason, hremoveKept, ← under_leaveReason]

theorem removes_of_applied (hr : r ∈ x.heldChanges) (hk : r.change.kind = .remove)
    (ho : x.Outcome r .applied reason) : x.oracle ⟨.removes, r.id⟩ = true := by
  simp only [Outcome, hk] at ho
  have hnone : reason = .none := by
    by_contra hne
    simp [hne] at ho
  rw [hnone] at ho
  by_contra hfalse
  refine hfalse (oracle_of_removeReason hx hr hk ?_)
  simpa [removeOutcome, validRemove, hfalse] using ho.1.symm

theorem leaves_of_applied (hl : l ∈ x.heldChanges) (hk : l.change.kind = .leave)
    (ho : x.Outcome l .applied reason) : x.oracle ⟨.leaves, l.id⟩ = true := by
  simp only [Outcome, hk] at ho
  have hnone : reason = .none := by
    by_contra hne
    simp [hne] at ho
  have houtcome : (x.leaveOutcome l).under x.oracle = .none := by
    have hreason := ho.1
    rw [hnone] at hreason
    split at hreason
    · cases hreason
    · exact hreason.symm
  by_contra hfalse
  refine hfalse (oracle_of_leaveReason hx hl hk ?_)
  simpa [leaveOutcome, validLeave, hfalse] using houtcome

end Counts

/-! ## Who an add brings in -/

theorem broughtIn_view (hx : x.WellIndexed) {account id : String} (h : x.view.BroughtIn account id) :
    ∃ a ∈ x.heldChanges, a.change.kind = .add ∧ a.id = id ∧ a.change.member = account ∧
      (x.staticAddReason a).under x.oracle = .none := by
  obtain ⟨row, hrow, rfl, rfl, hadded⟩ := h
  rcases memberRow_cases (mem_view_members.mp hrow).2 with ⟨a, hjoined, heq⟩ | ⟨-, m, -, heq⟩
  · obtain ⟨hopen, hmember, hreason, -⟩ := (grown_joined x).joined _ a hjoined
    have ha : a ∈ x.adds := List.mem_of_mem_filter hopen
    obtain ⟨hheld, hk⟩ := (mem_adds hx).mp ha
    refine ⟨a, hheld, hk, by rw [heq], hmember, ?_⟩
    have hstatic := x.under_staticReasonsOf x.oracle (nodup_adds hx) ha
    exact Option.mem_unique hstatic hreason
  · rw [heq] at hadded
    exact absurd rfl hadded

section Run

variable {s : GroupRosterStatement} {now : Int} {changes : List CheckedGroupChange}
  (hn : (changes.map CheckedGroupChange.id).Nodup)

include hn

theorem broughtIn_run {account id : String} (h : (run s now changes).BroughtIn account id) :
    ∃ a ∈ changes, classifyOne s (foldedIds s) a = none ∧ a.change.kind = .add ∧ a.id = id ∧
      a.change.member = account ∧
      ((indexed s now changes).staticAddReason a).under (indexed s now changes).oracle = .none := by
  cases hd : s.dissolved with
  | true =>
    obtain ⟨row, hrow, -⟩ := h
    rw [run_dissolved hd] at hrow
    cases hrow
  | false =>
    rw [run_eq_view hd now hn] at h
    obtain ⟨a, ha, hrest⟩ := broughtIn_view (wellIndexed hn) h
    obtain ⟨ha, hcl⟩ := (mem_heldChanges_indexed hn).mp ha
    exact ⟨a, ha, hcl, hrest⟩

variable {n : CheckedGroupChange} {v : GroupChangeVerdict} {r : GroupRemovedMember}

section

variable (hmem : n ∈ changes) (hv : (run s now changes).verdict n.id = some v)
  (happlied : v.status = .applied)
include hmem hv happlied

theorem held_of_applied : n ∈ (indexed s now changes).heldChanges ∧
      ∃ reason, (indexed s now changes).Outcome n .applied reason := by
  cases hcl : classifyOne s (foldedIds s) n with
  | some outcome =>
    obtain ⟨status, reason⟩ := outcome
    rw [run_verdict_classified now hn hmem (by simp [hcl])] at hv
    obtain rfl := Option.some.inj hv
    simp only [classified, hcl, verdictOf] at happlied
    rcases classifyOne_some hcl with hst | ⟨hst, -⟩ <;> rw [hst] at happlied <;> cases happlied
  | none =>
    obtain ⟨status, reason, hv', ho⟩ := run_verdict_held s now hn hmem hcl
    obtain rfl := Option.mem_unique hv' hv
    obtain rfl : status = .applied := happlied
    exact ⟨(mem_heldChanges_indexed hn).mpr ⟨hmem, hcl⟩, reason, ho⟩

/-- While a leave or a remove counts, an add it names brings nobody in. -/
theorem not_broughtIn_of_applied {account id : String} (hundoes : Undoes n.change account id) :
    ¬ (run s now changes).BroughtIn account id := by
  intro hin
  obtain ⟨hheld, reason, ho⟩ := held_of_applied hn hmem hv happlied
  obtain ⟨a, -, -, -, rfl, rfl, hstatic⟩ := broughtIn_run hn hin
  have hx : (indexed s now changes).WellIndexed := wellIndexed hn
  rw [under_staticAddReason] at hstatic
  rcases hundoes.out with ⟨hk, hsigner⟩ | ⟨hk, hmember⟩
  · -- a leave
    have hleave := leaves_of_applied hx hheld hk ho
    have hnamed : ((indexed s now changes).leavesBy.of a.change.member).any (fun l =>
        (indexed s now changes).oracle ⟨.leaves, l.id⟩ && l.change.adds.contains a.id) = true :=
      List.any_eq_true.mpr ⟨n, (mem_leavesBy hx).mpr ⟨hheld, hk, hsigner⟩, by simp [hleave, hundoes.names]⟩
    rw [hnamed] at hstatic
    split at hstatic
    · cases hstatic
    · split at hstatic
      · cases hstatic
      · split at hstatic <;> cases hstatic
  · have hremove := removes_of_applied hx hheld hk ho
    have hnamed : ((indexed s now changes).removesOf.of a.change.member).any (fun r =>
        (indexed s now changes).oracle ⟨.removes, r.id⟩ && r.change.adds.contains a.id) = true :=
      List.any_eq_true.mpr ⟨n, (mem_removesOf hx).mpr ⟨hheld, hk, hmember⟩,
        by simp [hremove, hundoes.names]⟩
    rw [if_pos hnamed] at hstatic
    cases hstatic

end

/-- A removed account is brought in by the re-admit of its removal only. -/
theorem not_broughtIn_of_removed (hremoved : (s.removed.map (·.identity)).Nodup) (hr : r ∈ s.removed) {id : String}
    (hreadmits : ∀ a ∈ changes, a.change.kind = .add → a.id = id →
      a.change.readmits = "" ∨ a.change.readmits ≠ r.removal) : ¬ (run s now changes).BroughtIn r.identity id := by
  intro hin
  obtain ⟨a, ha, -, hk, hid, hmember, hstatic⟩ := broughtIn_run hn hin
  have hrow : (indexed s now changes).sRemoved[a.change.member]? = some r :=
    (sRemoved_iff hremoved).mpr ⟨hr, hmember.symm⟩
  have hbarred : ((indexed s now changes).readmitted a).under (indexed s now changes).oracle =
      false := by
    rw [readmitted, hrow, Asking.under_pure, decide_eq_false_iff_not]
    rintro ⟨hne, heq⟩
    rcases hreadmits a ha hk hid with h | h
    · exact hne h
    · exact h heq
  rw [under_staticAddReason, hbarred] at hstatic
  split at hstatic
  · cases hstatic
  · split at hstatic <;> cases hstatic

/-- The removed list a live fold leaves: who has a row and is not listed. -/
theorem mem_folded_removed (hd : s.dissolved = false)
    (hremoved : (s.removed.map (·.identity)).Nodup) {row : GroupRemovedMember}
    (hrow : ((indexed s now changes).removedMap (indexed s now changes).oracle)[row.identity]? =
      some row) (hout : (run s now changes).lists row.identity = false) :
    row ∈ (foldChanges s (run s now changes)).removed := by
  have hkeyed : Keyed (·.identity)
      ((indexed s now changes).removedMap (indexed s now changes).oracle) :=
    keyed_removedMap hremoved _
  rw [foldChanges_live hd]
  show row ∈ (run s now changes).removed
  rw [run_eq_view hd now hn] at hout ⊢
  refine (mem_view_removed _ hkeyed).mpr ⟨hrow, ?_⟩
  rw [← Bool.not_eq_true, lists_view] at hout
  exact hout

section

variable (hremoved : (s.removed.map (·.identity)).Nodup)
include hremoved

/-- A removal that counts is on the next statement's removed list, unless
its account is listed by another add. -/
theorem removed_of_applied (hmem : n ∈ changes) (hv : (run s now changes).verdict n.id = some v)
    (happlied : v.status = .applied) (hk : n.change.kind = .remove)
    (hout : (run s now changes).lists n.change.member = false) :
    ∃ r ∈ (foldChanges s (run s now changes)).removed, r.identity = n.change.member := by
  have hx : (indexed s now changes).WellIndexed := wellIndexed hn
  obtain ⟨hheld, reason, ho⟩ := held_of_applied hn hmem hv happlied
  have hd : s.dissolved = false := (proved_of_held ((mem_heldChanges_indexed hn).mp hheld).2).2
  have hremove := removes_of_applied hx hheld hk ho
  obtain ⟨d, hfirst⟩ : ∃ d, firstRemove (indexed s now changes).oracle
      ((indexed s now changes).removesOf.of n.change.member) = some d := by
    rw [← Option.isSome_iff_exists, firstRemove, List.find?_isSome]
    exact ⟨n, (mem_removesOf hx).mpr ⟨hheld, hk, rfl⟩, hremove⟩
  have hrow := (indexed s now changes).getElem?_removedMap (indexed s now changes).oracle
    n.change.member
  rw [hfirst] at hrow
  exact ⟨removalRow n.change.member d, mem_folded_removed hn hd hremoved hrow hout, rfl⟩

theorem removed_stays (hr : r ∈ s.removed) (hout : (run s now changes).lists r.identity = false) :
    ∃ r' ∈ (foldChanges s (run s now changes)).removed, r'.identity = r.identity := by
  cases hd : s.dissolved with
  | true =>
    rw [foldChanges_dissolved hd]
    exact ⟨r, hr, rfl⟩
  | false =>
    have hs : (indexed s now changes).sRemoved[r.identity]? = some r := (sRemoved_iff hremoved).mpr ⟨hr, rfl⟩
    have hrow := (indexed s now changes).getElem?_removedMap (indexed s now changes).oracle
      r.identity
    split at hrow
    · next d _ =>
        exact ⟨removalRow r.identity d, mem_folded_removed hn hd hremoved hrow hout, rfl⟩
    · rw [hs] at hrow
      exact ⟨r, mem_folded_removed hn hd hremoved hrow hout, rfl⟩

theorem nodup_folded_removed : ((foldChanges s (run s now changes)).removed.map (·.identity)).Nodup := by
  cases hd : s.dissolved with
  | true =>
    rw [foldChanges_dissolved hd]
    exact hremoved
  | false =>
    have hkeyed : Keyed (·.identity)
        ((indexed s now changes).removedMap (indexed s now changes).oracle) :=
      keyed_removedMap hremoved _
    rw [foldChanges_live hd]
    show ((run s now changes).removed.map (·.identity)).Nodup
    rw [run_eq_view hd now hn]
    exact (removed_sorted _ hkeyed).imp ne_of_lt

end

/-- A held add that a counting remove of its account names is undone. -/
theorem undone_of_applied (hmem : n ∈ changes) (hv : (run s now changes).verdict n.id = some v)
    (happlied : v.status = .applied) (hk : n.change.kind = .remove) {a : CheckedGroupChange}
    (ha : a ∈ changes) (hcl : classifyOne s (foldedIds s) a = none) (hka : a.change.kind = .add)
    (hmember : n.change.member = a.change.member) (hnames : a.id ∈ n.change.adds) :
    (run s now changes).verdict a.id = some (verdictOf a .undone .namedByRemove) := by
  have hx : (indexed s now changes).WellIndexed := wellIndexed hn
  obtain ⟨hheld, reason, ho⟩ := held_of_applied hn hmem hv happlied
  have hremove := removes_of_applied hx hheld hk ho
  have haheld : a ∈ (indexed s now changes).heldChanges := (mem_heldChanges_indexed hn).mpr ⟨ha, hcl⟩
  have hadds : a ∈ (indexed s now changes).adds := (mem_adds hx).mpr ⟨haheld, hka⟩
  have hnamed : ((indexed s now changes).removesOf.of a.change.member).any (fun r =>
      (indexed s now changes).oracle ⟨.removes, r.id⟩ && r.change.adds.contains a.id) = true :=
    List.any_eq_true.mpr ⟨n, (mem_removesOf hx).mpr ⟨hheld, hk, hmember⟩, by
      simp [hremove, hnames]⟩
  have hreason : (indexed s now changes).reasons[a.id]? = some .namedByRemove := by
    rw [reasons, under_staticReasonsOf _ _ (nodup_adds hx) hadds, under_staticAddReason,
      if_pos hnamed]
  obtain ⟨status, reason', hva, hoa⟩ := run_verdict_held s now hn ha hcl
  rw [hva]
  simp only [Outcome, hka] at hoa
  -- a remove's naming is looked at before who signed the add
  have hnot : a.id ∉ (indexed s now changes).joined.accepted := by
    intro hacc
    obtain ⟨b, hb, hid⟩ := (grown_joined (indexed s now changes)).accepted a.id hacc
    have hopen := List.of_mem_filter hb
    rw [hid, hreason] at hopen
    simp at hopen
  simp only [addOutcome, hreason, Option.getD_some, if_neg hnot, if_true, Asking.under_pure] at hoa
  obtain ⟨rfl, rfl⟩ := Prod.mk.inj hoa
  rfl

end Run

end RosterRules

/-! ## Runs -/

theorem Undoes.of_sameSigned {n d : GroupChange} {account id : String} (h : Undoes n account id)
    (hs : GroupChange.SameSigned n d) : Undoes d account id := by
  rcases h.out with ⟨hk, hsigner⟩ | ⟨hk, hmember⟩
  · have hnamed : (GroupChange.fieldsOf n.kind).named := by rw [hk]; decide
    exact ⟨.inl ⟨hs.kind ▸ hk, hs.signer ▸ hsigner⟩, (hs.adds hnamed).mem_iff.mp h.names⟩
  · have hnamed : (GroupChange.fieldsOf n.kind).named := by rw [hk]; decide
    have hfield : (GroupChange.fieldsOf n.kind).member := by rw [hk]; decide
    exact ⟨.inr ⟨hs.kind ▸ hk, hs.member hfield ▸ hmember⟩,
      (hs.adds hnamed).mem_iff.mp h.names⟩

/-- The owner's folds, over some of the changes that ever arrive, while
nothing that has arrived lists `account`. -/
def FoldUnlisted (K : GroupCrypto) (arrived : GroupChange → Prop) (account : String)
    (s t : GroupRosterStatement) : Prop :=
  ∃ changes cards now, (∀ c ∈ changes, arrived c) ∧
    (computeRoster K s changes cards now).lists account = false ∧
    t = foldChanges s (computeRoster K s changes cards now)

/-- Over `s`, no changes that ever arrive list `account` because of `id`. -/
def StaysOut (K : GroupCrypto) (arrived : GroupChange → Prop) (account id : String)
    (s : GroupRosterStatement) : Prop :=
  ∀ changes cards now, (∀ c ∈ changes, arrived c) →
    ¬ (computeRoster K s changes cards now).BroughtIn account id

section Runs

variable {K : GroupCrypto} {arrived : GroupChange → Prop} {s t : GroupRosterStatement}
  {account : String}

theorem removed_of_unlisted (h : Relation.ReflTransGen (FoldUnlisted K arrived account) s t)
    (hremoved : (s.removed.map (·.identity)).Nodup) (hon : ∃ r ∈ s.removed, r.identity = account) :
    (t.removed.map (·.identity)).Nodup ∧ ∃ r ∈ t.removed, r.identity = account := by
  induction h with
  | refl => exact ⟨hremoved, hon⟩
  | tail _ hstep ih =>
    obtain ⟨changes, cards, now, -, hout, rfl⟩ := hstep
    obtain ⟨hnodup, r, hr, rfl⟩ := ih
    rw [computeRoster, computeRosterChecked] at hout ⊢
    exact ⟨nodup_folded_removed (nodup_collapse _) hnodup,
      removed_stays (nodup_collapse _) hnodup hr hout⟩

variable {a : GroupChange}

/-- Who is on the removed list is kept out by every add that does not
re-admit that removal. -/
theorem staysOut_of_removed (hcf : GroupChange.CollisionFree K arrived)
    (hr : ∀ c, arrived c → c.Ranged) (hremoved : (s.removed.map (·.identity)).Nodup)
    {r : GroupRemovedMember} (hmem : r ∈ s.removed) (ha : arrived a)
    (hreadmits : a.readmits = "" ∨ a.readmits ≠ r.removal) : StaysOut K arrived r.identity (a.id K) s := by
  intro changes cards now harr
  refine not_broughtIn_of_removed (nodup_collapse _) hremoved hmem fun d hd hk hid => ?_
  obtain ⟨hdmem, hdid⟩ := mem_of_mem_checkChanges (mem_of_mem_collapse hd)
  have hsame := GroupChange.sameSigned_of_signBytes (hr _ (harr _ hdmem)) (hr a ha)
    (hcf _ a (harr _ hdmem) ha (hdid ▸ hid))
  rw [hsame.readmits (by rw [hk]; decide)]
  exact hreadmits

/-- Once a fold has taken the add in, no copy of it brings anyone in. -/
theorem staysOut_of_folded (hcf : GroupChange.CollisionFree K arrived)
    (hr : ∀ c, arrived c → c.Ranged) (hfloor : s.changeFloorEpoch ≤ s.rosterEpoch)
    {changes : List GroupChange} {cards : GroupCardLookup} {now : Int}
    (harr : ∀ c ∈ changes, arrived c) (ha : a ∈ changes) {w : GroupChangeVerdict}
    (hw : (computeRoster K s changes cards now).verdict (a.id K) = some w)
    (hfold : foldsIn w = true) (hbase : a.baseEpoch ≤ s.rosterEpoch ∨ topFloor ≤ s.rosterEpoch)
    (htake : TakesIn s (computeRoster K s changes cards now) t)
    {u : GroupRosterStatement} (hrun : Relation.ReflTransGen (OwnerAct K arrived) t u) :
    StaysOut K arrived account (a.id K) u := by
  intro later cards' now' harr' hin
  obtain ⟨d, hd, hcl, -, hid, -⟩ := broughtIn_run (nodup_collapse _) hin
  obtain ⟨hdmem, hdid⟩ := mem_of_mem_checkChanges (mem_of_mem_collapse hd)
  obtain ⟨reason, hdrop⟩ := dropped_of_folded hcf hr hfloor harr ha hw hfold htake hbase hrun
    (harr' _ hdmem) (hdid ▸ hid) hid
  rw [hcl] at hdrop
  cases hdrop

/-- A leave or a remove that counts over `s` and names the add `a`: while it
counts, `a` brings nobody in; once `a` is folded, nothing brings it back (a
held add that a remove names is folded); and after the fold of a remove, its
account is brought back first by a re-admit of the removal on record, not by
`a`. -/
theorem named_add_stays_out (hcf : GroupChange.CollisionFree K arrived)
    (hr : ∀ c, arrived c → c.Ranged) (hfloor : s.changeFloorEpoch ≤ s.rosterEpoch)
    (hremoved : (s.removed.map (·.identity)).Nodup)
    {changes : List GroupChange} {cards : GroupCardLookup} {now : Int}
    (harr : ∀ c ∈ changes, arrived c) {n : GroupChange} (hn : n ∈ changes)
    {v : GroupChangeVerdict}
    (hv : (computeRoster K s changes cards now).verdict (n.id K) = some v)
    (happlied : v.status = .applied) (ha : arrived a)
    (hundoes : Undoes n account (a.id K)) :
    ¬ (computeRoster K s changes cards now).BroughtIn account (a.id K) ∧
    (∀ w, a ∈ changes → (computeRoster K s changes cards now).verdict (a.id K) = some w →
      (n.kind = .remove → a.kind = .add → a.member = account →
        w.status = .undone ∨ w.status = .dropped ∨ w.reason = .noCard) ∧
      (foldsIn w = true → a.baseEpoch ≤ s.rosterEpoch ∨ topFloor ≤ s.rosterEpoch →
        ∀ t u, TakesIn s (computeRoster K s changes cards now) t →
          Relation.ReflTransGen (OwnerAct K arrived) t u → StaysOut K arrived account (a.id K) u)) ∧
    (n.kind = .remove → (computeRoster K s changes cards now).lists account = false →
      ∀ t, Relation.ReflTransGen (FoldUnlisted K arrived account)
          (foldChanges s (computeRoster K s changes cards now)) t →
        ∃ r ∈ t.removed, r.identity = account ∧
          (a.readmits = "" ∨ a.readmits ≠ r.removal → StaysOut K arrived account (a.id K) t)) := by
  obtain ⟨d, hd, hid, hdc, hdid⟩ := exists_mem_checked (K := K) cards now hn
  have hnodup := nodup_collapse (checkChanges K changes cards now)
  have hsame := GroupChange.sameSigned_of_signBytes (hr n (harr n hn)) (hr _ (harr _ hdc))
    (hcf n _ (harr n hn) (harr _ hdc) hdid.symm)
  have hundoesd : Undoes d.change account (a.id K) := hundoes.of_sameSigned hsame
  rw [← hid] at hv
  refine ⟨not_broughtIn_of_applied hnodup hd hv happlied hundoesd,
    fun w haw hw => ⟨fun hk hka hmember => ?_, fun hfold hbase t u htake hrun => ?_⟩,
    fun hk hout t hrun => ?_⟩
  · obtain ⟨b, hb, hbid, hbc, hbid'⟩ := exists_mem_checked (K := K) cards now haw
    have hsameb := GroupChange.sameSigned_of_signBytes (hr a ha) (hr _ (harr _ hbc))
      (hcf a _ ha (harr _ hbc) hbid'.symm)
    have hkd : d.change.kind = .remove := hsame.kind ▸ hk
    have hkb : b.change.kind = .add := hsameb.kind ▸ hka
    have hmemberd : d.change.member = account := by
      rcases hundoesd.out with ⟨hl, -⟩ | ⟨-, h⟩
      · rw [hkd] at hl
        cases hl
      · exact h
    have hmemberb : b.change.member = account := by
      rw [← hsameb.member (by rw [hka]; decide), hmember]
    rw [← hbid] at hw
    cases hcl : classifyOne s (foldedIds s) b with
    | none =>
      have hundone := undone_of_applied hnodup hd hv happlied hkd hb hcl hkb
        (hmemberd.trans hmemberb.symm) (hbid ▸ hundoesd.names)
      obtain rfl := Option.mem_unique hundone hw
      exact .inl rfl
    | some outcome =>
      obtain ⟨status, reason⟩ := outcome
      have hheld : classifyOne s (foldedIds s) b ≠ none := by simp [hcl]
      have hclassified := run_verdict_classified now hnodup hb hheld
      obtain rfl := Option.mem_unique hclassified hw
      simp only [classified, hcl, verdictOf]
      rcases classifyOne_some hcl with h | ⟨-, h⟩
      · exact .inr (.inl h)
      · exact .inr (.inr h)
  · exact staysOut_of_folded hcf hr hfloor harr haw hw hfold hbase htake hrun
  · have hkd : d.change.kind = .remove := hsame.kind ▸ hk
    obtain rfl : d.change.member = account := by
      rcases hundoesd.out with ⟨hl, -⟩ | ⟨-, h⟩
      · rw [hkd] at hl
        cases hl
      · exact h
    have hon := removed_of_applied hnodup hremoved hd hv happlied hkd hout
    obtain ⟨hnodupt, r, hmem, hrid⟩ :=
      removed_of_unlisted hrun (nodup_folded_removed hnodup hremoved) hon
    refine ⟨r, hmem, hrid, fun hreadmits => ?_⟩
    rw [← hrid]
    exact staysOut_of_removed hcf hr hnodupt hmem ha hreadmits

end Runs

/-! ### A remover the owner puts out -/

namespace UndoneSample

/-- The member `m` adds `x`. -/
def add : GroupChange :=
  { groupId := "g", baseEpoch := 1, signer := "m", signerDevice := "d", member := "x"
    inviteNonce := "i" }

/-- The admin `a` removes `x`; it has seen the add. -/
def remove : GroupChange :=
  { groupId := "g", baseEpoch := 1, signer := "a", signerDevice := "d"
    kind := .remove, member := "x", adds := [add.id sampleCrypto] }

/-- The owner removes `a`, and keeps nothing of it. -/
def removeRemover : GroupChange :=
  { groupId := "g", baseEpoch := 1, signer := "o", signerDevice := "d"
    kind := .remove, member := "a" }

theorem undoes : Undoes remove "x" (add.id sampleCrypto) :=
  ⟨.inr ⟨rfl, rfl⟩, List.mem_singleton_self _⟩

instance (view : GroupRosterView) (account id : String) :
    Decidable (view.BroughtIn account id) :=
  inferInstanceAs (Decidable (∃ row ∈ view.members, _))

end UndoneSample

set_option maxRecDepth 20000 in
/-- R3: the remove counts until the owner puts its signer out and keeps none
of its changes; the add it named then brings `x` in. -/
theorem remover_out_brings_in :
    Undoes UndoneSample.remove "x" (UndoneSample.add.id sampleCrypto) ∧
    ((computeRoster sampleCrypto sampleStatement [UndoneSample.add, UndoneSample.remove]
      sampleCards 0).verdict (UndoneSample.remove.id sampleCrypto)).any (·.status = .applied) ∧
    (computeRoster sampleCrypto sampleStatement
      [UndoneSample.add, UndoneSample.remove, UndoneSample.removeRemover] sampleCards 0).BroughtIn
        "x" (UndoneSample.add.id sampleCrypto) :=
  ⟨UndoneSample.undoes, by decide, by decide⟩

set_option maxRecDepth 20000 in
/-- The add arrives after the fold of the remove that names it. -/
theorem named_add_stays_out_sample :
    StaysOut sampleCrypto (· ∈ [UndoneSample.add, UndoneSample.remove]) "x"
      (UndoneSample.add.id sampleCrypto)
      (foldChanges sampleStatement
        (computeRoster sampleCrypto sampleStatement [UndoneSample.remove] sampleCards 0)) := by
  have happlied : ((computeRoster sampleCrypto sampleStatement [UndoneSample.remove]
      sampleCards 0).verdict (UndoneSample.remove.id sampleCrypto)).any (·.status = .applied) := by
    decide
  obtain ⟨v, hv, happlied⟩ := (Option.any_eq_true _ _).mp happlied
  have hranged : ∀ c ∈ [UndoneSample.add, UndoneSample.remove], c.Ranged := by
    intro c hc
    rcases List.mem_pair.mp hc with rfl | rfl
    · exact ⟨by decide, by decide, by decide⟩
    · exact ⟨by decide, by decide, by decide⟩
  have hcf : GroupChange.CollisionFree sampleCrypto
      (· ∈ [UndoneSample.add, UndoneSample.remove]) := by
    have hids : ∀ a ∈ [UndoneSample.add, UndoneSample.remove],
        ∀ b ∈ [UndoneSample.add, UndoneSample.remove],
          a.id sampleCrypto = b.id sampleCrypto → a.signBytes = b.signBytes := by decide
    exact fun a b ha hb => hids a ha b hb
  have harr : ∀ c ∈ [UndoneSample.remove], c ∈ [UndoneSample.add, UndoneSample.remove] := by
    simp
  obtain ⟨-, -, hout⟩ := named_add_stays_out hcf hranged (by decide) (by decide) harr
    List.mem_cons_self hv (by simpa using happlied) List.mem_cons_self UndoneSample.undoes
  obtain ⟨r, -, -, hstays⟩ := hout rfl (by decide) _ .refl
  exact hstays (.inl rfl)

end Pbr
