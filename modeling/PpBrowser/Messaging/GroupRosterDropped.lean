import PpBrowser.Messaging.GroupRosterKept

/-!
# GroupRosterDropped — what the roster does not see

`Classify` drops a change on its own evidence, and no rule looks at it
again: two lists of checked changes that agree on every change `Classify`
does not drop give the same roster, and the same verdict of every change
that is not dropped.
-/

namespace Pbr

open Lib

/-- What a view shows, its verdicts apart. -/
def GroupRosterView.shown (view : GroupRosterView) : GroupRosterView := { view with verdicts := [] }

namespace RosterRules

/-- `Classify` drops the change. -/
def drops (s : GroupRosterStatement) (c : CheckedGroupChange) : Bool :=
  (classifyOne s (foldedIds s) c).any (·.1 = .dropped)

/-- The same verdicts, but for what is dropped. -/
structure SameKept (m m' : Verdicts) : Prop where
  keyed : Keyed GroupChangeVerdict.id m
  keyed' : Keyed GroupChangeVerdict.id m'
  same : ∀ (k : String) (v : GroupChangeVerdict), v.status ≠ .dropped →
    (m[k]? = some v ↔ m'[k]? = some v)

/-- Views that show the same, with the same verdicts but for what is dropped. -/
structure SameShown (a b : GroupRosterView) : Prop where
  shown : a.shown = b.shown
  verdict : ∀ (k : String) (v : GroupChangeVerdict), v.status ≠ .dropped →
    (a.verdict k = some v ↔ b.verdict k = some v)

theorem SameKept.mark {m m' : Verdicts} (h : SameKept m m') (c : CheckedGroupChange)
    (status : GroupChangeStatus) (reason : GroupChangeReason) :
    SameKept (mark m c status reason) (mark m' c status reason) where
  keyed := h.keyed.insert (verdictOf c status reason)
  keyed' := h.keyed'.insert (verdictOf c status reason)
  same k v hv := by
    simp only [Pbr.mark, Std.ExtTreeMap.getElem?_insert]
    split
    · exact Iff.rfl
    · exact h.same k v hv

/-! ## The rules only add verdicts -/

section Judge

variable (x : RosterRules) (j : Joined) {m m' : Verdicts} {acc acc' : Verdicts × Links}

/-- The same verdicts but for what is dropped, and the same beside them. -/
def Beside {α : Type} (a b : Verdicts × α) : Prop := SameKept a.1 b.1 ∧ a.2 = b.2

theorem rel_judgeAdd (reasons : StrMap GroupChangeReason) (h : SameKept m m') (a : CheckedGroupChange) :
    Asking.Rel SameKept (x.judgeAdd reasons j m a) (x.judgeAdd reasons j m' a) :=
  (Asking.Rel.refl (fun _ => rfl) _).map fun _ _ houtcome => houtcome ▸ h.mark a _ _

theorem rel_judgeRemove (h : SameKept m m') (r : CheckedGroupChange) :
    Asking.Rel SameKept (x.judgeRemove m r) (x.judgeRemove m' r) :=
  (Asking.Rel.refl (fun _ => rfl) _).map fun _ _ houtcome => houtcome ▸ h.mark r _ _

theorem rel_judgeLeave (h : SameKept m m') (l : CheckedGroupChange) :
    Asking.Rel SameKept (x.judgeLeave m l) (x.judgeLeave m' l) :=
  (Asking.Rel.refl (fun _ => rfl) _).map fun _ _ houtcome => houtcome ▸ h.mark l _ _

theorem rel_judgeRemovesAndLeaves (h : SameKept m m') :
    Asking.Rel SameKept (x.judgeRemovesAndLeaves m) (x.judgeRemovesAndLeaves m') :=
  (Asking.Rel.foldlM (fun _ _ r h => rel_judgeRemove x h r) _ h).bind fun _ _ h =>
    Asking.Rel.foldlM (fun _ _ l h => rel_judgeLeave x h l) _ h

theorem rel_judgeRename {acc acc' : Verdicts × BestRename} (h : Beside acc acc') (c : CheckedGroupChange) :
    Asking.Rel Beside (x.judgeRename j acc c) (x.judgeRename j acc' c) := by
  obtain ⟨m, best⟩ := acc
  obtain ⟨m', best'⟩ := acc'
  obtain ⟨h, rfl⟩ : SameKept m m' ∧ best = best' := h
  refine (Asking.Rel.refl (fun _ => rfl) _).map fun judged judged' hjudged => ?_
  subst hjudged
  unfold enterRename
  split
  · split
    · exact ⟨h.mark c _ _, rfl⟩
    · exact ⟨h.mark c _ _, rfl⟩
  · exact ⟨h.mark c _ _, rfl⟩

theorem rel_judgeRenames (h : SameKept m m') : Asking.Rel Beside (x.judgeRenames j m) (x.judgeRenames j m') := by
  have hfold : Asking.Rel Beside (x.renames.foldlM (x.judgeRename j) (m, none))
      (x.renames.foldlM (x.judgeRename j) (m', none)) :=
    Asking.Rel.foldlM (fun _ _ c h => rel_judgeRename x j h c) _ ⟨h, rfl⟩
  refine hfold.map fun judged judged' hjudged => ?_
  obtain ⟨m, best⟩ := judged
  obtain ⟨m', best'⟩ := judged'
  obtain ⟨h, rfl⟩ : SameKept m m' ∧ best = best' := hjudged
  cases best with
  | none => exact ⟨h, rfl⟩
  | some best => exact ⟨h.mark best.1 _ _, rfl⟩

theorem rel_judgeLinkAdd (h : Beside acc acc') (c : CheckedGroupChange) :
    Asking.Rel Beside (x.judgeLinkAdd j acc c) (x.judgeLinkAdd j acc' c) := by
  obtain ⟨m, l⟩ := acc
  obtain ⟨m', l'⟩ := acc'
  obtain ⟨h, rfl⟩ : SameKept m m' ∧ l = l' := h
  refine (Asking.Rel.refl (fun _ => rfl) _).map fun judged judged' hjudged => ?_
  subst hjudged
  unfold enterLink
  dsimp only
  split
  · exact ⟨h.mark c _ _, rfl⟩
  · split
    · exact ⟨h.mark c _ _, rfl⟩
    · exact ⟨h.mark c _ _, rfl⟩

theorem rel_judgeLinkRevoke (h : Beside acc acc') (c : CheckedGroupChange) :
    Asking.Rel Beside (x.judgeLinkRevoke j acc c) (x.judgeLinkRevoke j acc' c) := by
  obtain ⟨m, l⟩ := acc
  obtain ⟨m', l'⟩ := acc'
  obtain ⟨h, rfl⟩ : SameKept m m' ∧ l = l' := h
  unfold judgeLinkRevoke
  dsimp only
  split
  · exact .done ⟨h.mark c _ _, rfl⟩
  · refine (Asking.Rel.refl (fun _ => rfl) _).map fun judged judged' hjudged => ?_
    subst hjudged
    exact ⟨h.mark c _ _, rfl⟩

theorem rel_judgeLinks (h : SameKept m m') : Asking.Rel Beside (x.judgeLinks j m) (x.judgeLinks j m') := by
  have hadds : Asking.Rel Beside (x.judgeLinkAdds j m) (x.judgeLinkAdds j m') := by
    have hfold := Asking.Rel.foldlM (fun _ _ c h => rel_judgeLinkAdd x j h c) x.linkAdds
      (show Beside (m, ({ links := x.statementLinks } : Links)) (m', _) from ⟨h, rfl⟩)
    refine hfold.map fun judged judged' hjudged => ?_
    obtain ⟨m, l⟩ := judged
    obtain ⟨m', l'⟩ := judged'
    obtain ⟨h, rfl⟩ : SameKept m m' ∧ l = l' := hjudged
    exact ⟨h, rfl⟩
  exact hadds.bind fun _ _ h => Asking.Rel.foldlM (fun _ _ c h => rel_judgeLinkRevoke x j h c) _ h

theorem rel_build (l : Links) (title : String) (titleVersion : Nat) (h : SameKept m m') :
    Asking.Rel SameShown (x.build j l title titleVersion m) (x.build j l title titleVersion m') :=
  (Asking.Rel.refl (fun _ => rfl) _).map fun removed removed' hremoved => by
    subst hremoved
    refine ⟨rfl, fun k v hv => ?_⟩
    show (values m).find? _ = _ ↔ (values m').find? _ = _
    rw [h.keyed.find?_values, h.keyed'.find?_values]
    exact h.same k v hv

theorem acceptPasses_verdicts (v : Verdicts) (reasons : StrMap GroupChangeReason)
    (openAdds : Changes) (n : Nat) : { x with verdicts := v }.acceptPasses reasons openAdds n j =
      x.acceptPasses reasons openAdds n j := by
  induction n generalizing j with
  | zero => rfl
  | succ n ih =>
    unfold acceptPasses
    simp only [ih]
    rfl

theorem runAdds_verdicts (v : Verdicts) : { x with verdicts := v }.runAdds = x.runAdds := by
  unfold runAdds
  simp only [acceptPasses_verdicts]
  rfl

/-- The rules run over other dropped verdicts ask the same and show the same. -/
theorem rel_judge (h : SameKept x.verdicts m') : Asking.Rel SameShown x.judge { x with verdicts := m' }.judge := by
  unfold judge
  rw [runAdds_verdicts x m']
  refine (Asking.Rel.refl (fun _ => rfl) x.runAdds).bind fun adds adds' hadds => ?_
  subst hadds
  refine (Asking.Rel.foldlM (fun _ _ a h => rel_judgeAdd x adds.2 adds.1 h a) _ h).bind
    fun _ _ h => ?_
  refine (rel_judgeRemovesAndLeaves x h).bind fun _ _ h => ?_
  refine (rel_judgeRenames x adds.2 h).bind fun renamed renamed' hrenamed => ?_
  obtain ⟨m₁, title⟩ := renamed
  obtain ⟨m₂, title'⟩ := renamed'
  obtain ⟨h, rfl⟩ : SameKept m₁ m₂ ∧ title = title' := hrenamed
  refine (rel_judgeLinks x adds.2 h).bind fun linked linked' hlinked => ?_
  obtain ⟨m₁, links⟩ := linked
  obtain ⟨m₂, links'⟩ := linked'
  obtain ⟨h, rfl⟩ : SameKept m₁ m₂ ∧ links = links' := hlinked
  exact rel_build x adds.2 links title.1 title.2 h

end Judge

/-! ## A run without what is dropped -/

section Run

variable {s : GroupRosterStatement} {now : Int} {changes changes' : List CheckedGroupChange}
  {c : CheckedGroupChange}

/-- The lists hold the same changes, but for those `Classify` drops. -/
def AgreeOnKept (s : GroupRosterStatement) (changes changes' : List CheckedGroupChange) : Prop :=
  ∀ c, drops s c = false → (c ∈ changes ↔ c ∈ changes')

theorem not_drops_of_held (h : classifyOne s (foldedIds s) c = none) : drops s c = false := by rw [drops, h]; rfl

theorem not_drops_of_void {reason : GroupChangeReason}
    (h : classifyOne s (foldedIds s) c = some (.void, reason)) : drops s c = false := by
  rw [drops, h]; rfl

theorem foldl_indexStep_verdicts (x : RosterRules) (v : Verdicts) (l : Changes) :
    l.foldl indexStep { x with verdicts := v } = { l.foldl indexStep x with verdicts := v } := by
  induction l generalizing x with
  | nil => rfl
  | cons c l ih =>
    have hstep : indexStep { x with verdicts := v } c = { indexStep x c with verdicts := v } := by
      unfold indexStep
      cases c.change.kind <;> rfl
    rw [List.foldl_cons, List.foldl_cons, hstep, ih]

variable (now)

theorem classify_held_of_agree (hn : (changes.map CheckedGroupChange.id).Nodup)
    (hn' : (changes'.map CheckedGroupChange.id).Nodup) (h : AgreeOnKept s changes changes') :
    ((start s now).classify changes').held = ((start s now).classify changes).held := by
  rw [← indexed_kept.2.2.2.2.1, ← indexed_kept.2.2.2.2.1]
  apply Std.ExtTreeMap.ext_getElem?
  intro k
  apply Option.ext
  intro c
  rw [held_indexed hn', held_indexed hn]
  constructor
  · rintro ⟨hc, hcl, hk⟩
    exact ⟨(h c (not_drops_of_held hcl)).mpr hc, hcl, hk⟩
  · rintro ⟨hc, hcl, hk⟩
    exact ⟨(h c (not_drops_of_held hcl)).mp hc, hcl, hk⟩

theorem classify_joining_of_agree (h : AgreeOnKept s changes changes') :
    ((start s now).classify changes').joining = ((start s now).classify changes).joining := by
  apply Std.ExtTreeSet.ext_mem
  intro a
  rw [mem_joining_classify, mem_joining_classify]
  apply and_congr_right
  intro _
  constructor
  · rintro ⟨c, hc, reason, hcl, hadd⟩
    exact ⟨c, (h c (not_drops_of_void hcl)).mpr hc, reason, hcl, hadd⟩
  · rintro ⟨c, hc, reason, hcl, hadd⟩
    exact ⟨c, (h c (not_drops_of_void hcl)).mp hc, reason, hcl, hadd⟩

section

variable (hn : (changes.map CheckedGroupChange.id).Nodup) (hn' : (changes'.map CheckedGroupChange.id).Nodup)
  (h : AgreeOnKept s changes changes')
include hn hn' h

/-- What is dropped leaves a verdict and nothing else. -/
theorem indexed_of_agree :
    indexed s now changes' =
      { indexed s now changes with verdicts := (indexed s now changes').verdicts } := by
  have hclassify : (start s now).classify changes' =
      { (start s now).classify changes with
        verdicts := ((start s now).classify changes').verdicts } := by
    rw [classify_eq, classify_eq]
    have hheld := classify_held_of_agree now hn hn' h
    have hjoining := classify_joining_of_agree now h
    rw [classify_eq, classify_eq] at hheld hjoining
    simp only at hheld hjoining ⊢
    rw [hheld, hjoining]
  rw [indexed_kept.2.2.2.2.2]
  unfold indexed index
  rw [classify_held_of_agree now hn hn' h, ← foldl_indexStep_verdicts, ← hclassify]

theorem sameKept_indexed : SameKept (indexed s now changes).verdicts (indexed s now changes').verdicts where
  keyed := keyed_verdicts hn
  keyed' := keyed_verdicts hn'
  same k v hv := by
    rw [verdicts_indexed hn, verdicts_indexed hn']
    have hdrops {c : CheckedGroupChange} (hcl : classifyOne s (foldedIds s) c ≠ none)
        (hc : classified s c = v) : drops s c = false := by
      subst hc
      cases hcase : classifyOne s (foldedIds s) c with
      | none => exact absurd hcase hcl
      | some outcome =>
        simp only [classified, hcase, verdictOf] at hv
        simp [drops, hcase, hv]
    constructor
    · rintro ⟨c, hc, hcl, hk, hcv⟩
      exact ⟨c, (h c (hdrops hcl hcv)).mp hc, hcl, hk, hcv⟩
    · rintro ⟨c, hc, hcl, hk, hcv⟩
      exact ⟨c, (h c (hdrops hcl hcv)).mpr hc, hcl, hk, hcv⟩

/-- Runs over changes that agree but for what is dropped show the same. -/
theorem sameShown_run : SameShown (run s now changes) (run s now changes') := by
  have hverdicts := sameKept_indexed now hn hn' h
  have hindexed := indexed_of_agree now hn hn' h
  cases hd : s.dissolved with
  | true =>
    rw [run_dissolved hd, run_dissolved hd]
    refine ⟨by simp only [GroupRosterView.shown, viewHead, indexed_s], fun k v hv => ?_⟩
    show (values _).find? _ = _ ↔ (values _).find? _ = _
    rw [hverdicts.keyed.find?_values, hverdicts.keyed'.find?_values]
    exact hverdicts.same k v hv
  | false =>
    simp only [run, hd, Bool.false_eq_true, if_false]
    have hanswer : (indexed s now changes').answer = (indexed s now changes).answer := by
      rw [hindexed]
      rfl
    have hjudge := (rel_judge _ hverdicts).run (indexed s now changes).answer {}
    rw [← hindexed] at hjudge
    show SameShown ((indexed s now changes).judge.run (indexed s now changes).answer {}).1
      ((indexed s now changes').judge.run (indexed s now changes').answer {}).1
    rw [hanswer]
    exact hjudge.1

end

theorem drops_iff : drops s c = true ↔ ∃ reason, classifyOne s (foldedIds s) c = some (.dropped, reason) := by
  rw [drops]
  cases classifyOne s (foldedIds s) c with
  | none => simp
  | some outcome =>
    obtain ⟨status, reason⟩ := outcome
    simp

/-- The dropped verdicts are those of the changes `Classify` drops. -/
theorem mem_dropped_verdicts (hn : (changes.map CheckedGroupChange.id).Nodup) {id : String} :
    id ∈ ((run s now changes).verdicts.filter (·.status = .dropped)).map (·.id) ↔
      ∃ c ∈ changes, c.id = id ∧ drops s c = true := by
  constructor
  · intro h
    obtain ⟨v, hv, rfl⟩ := List.mem_map.mp h
    obtain ⟨hv, hdropped⟩ := List.mem_filter.mp hv
    obtain ⟨c, hc, hid, hverdict⟩ := exists_of_mem_verdicts hn hv
    obtain ⟨v', hv', -, -, hiff⟩ := run_verdict s now hn hc
    obtain rfl : v = v' := Option.mem_unique hverdict hv'
    exact ⟨c, hc, hid, drops_iff.mpr (hiff.mp (by simpa using hdropped))⟩
  · rintro ⟨c, hc, rfl, hdrops⟩
    obtain ⟨v, hv, hid, -, hiff⟩ := run_verdict s now hn hc
    have hdropped := hiff.mpr (drops_iff.mp hdrops)
    exact List.mem_map.mpr ⟨v, List.mem_filter.mpr ⟨List.mem_of_find?_eq_some hv,
      by simpa using hdropped⟩, hid⟩

end Run

end RosterRules

section Checked

variable {s : GroupRosterStatement} {changes changes' : List CheckedGroupChange}

/-- Checked changes that agree but for what is dropped give the same roster. -/
theorem sameShown_computeRosterChecked (now : Int) (hn : (changes.map CheckedGroupChange.id).Nodup)
    (hn' : (changes'.map CheckedGroupChange.id).Nodup) (h : RosterRules.AgreeOnKept s changes changes') :
    RosterRules.SameShown (computeRosterChecked s changes now) (computeRosterChecked s changes' now) := by
  refine RosterRules.sameShown_run now (nodup_collapse _) (nodup_collapse _) fun c hc => ?_
  rw [mem_collapse_of_nodup hn, mem_collapse_of_nodup hn']
  exact h c hc

theorem mem_dropped_checked {now : Int} (hn : (changes.map CheckedGroupChange.id).Nodup) {id : String} :
    id ∈ ((computeRosterChecked s changes now).verdicts.filter (·.status = .dropped)).map (·.id) ↔
      ∃ c ∈ changes, c.id = id ∧ RosterRules.drops s c = true := by
  rw [computeRosterChecked, RosterRules.mem_dropped_verdicts now (nodup_collapse _)]
  simp only [mem_collapse_of_nodup hn]

theorem verdict_of_dropped {now : Int} {id : String}
    (h : id ∈ ((computeRosterChecked s changes now).verdicts.filter (·.status = .dropped)).map (·.id)) :
    ∃ v, (computeRosterChecked s changes now).verdict id = some v ∧ v.status = .dropped := by
  obtain ⟨v, hv, rfl⟩ := List.mem_map.mp h
  obtain ⟨hv, hdropped⟩ := List.mem_filter.mp hv
  obtain ⟨c, -, hid, hverdict⟩ := RosterRules.exists_of_mem_verdicts (nodup_collapse _) hv
  exact ⟨v, hid ▸ hverdict, by simpa using hdropped⟩

end Checked

/-! ## The apply path run again -/

open Lib RosterRules

/-! ## A settled store -/

section Settled

variable {store : GroupRosterStore} {g : String} {view : GroupRosterView}

theorem writeRows_still (applied : GroupViewApplied) (hn : (view.members.map (·.identity)).Nodup)
    (hrows : ShowsMembers (store.roster g) view) : writeRows store g view applied = (applied, store) := by
  have hlisted (i : String) : ((store.roster g)[i]?).isSome = view.lists i := by
    have h := congrArg Option.isSome (hrows i)
    rwa [Option.isSome_map, Option.isSome_map] at h
  have hgone : (values (store.roster g)).filterMap (fun r =>
      if view.lists r.memberIdentity then none else some r.memberIdentity) = [] := by
    apply List.eq_nil_iff_forall_not_mem.mpr
    intro i hi
    obtain ⟨hrow, hout⟩ := (mem_gone g).mp hi
    rw [hlisted i, hout] at hrow
    cases hrow
  have hfind {m : GroupRosterViewMember} (hm : m ∈ view.members) : view.find m.identity = some m :=
    (GroupRosterView.find_eq_some_iff hn).mpr ⟨hm, rfl⟩
  have hjoined : view.members.filterMap (fun m =>
      if (store.roster g).contains m.identity then none else some m.identity) = [] := by
    apply List.filterMap_eq_nil_iff.mpr
    intro m hm
    have hin : (store.roster g).contains m.identity = true := by
      rw [Std.ExtTreeMap.contains_eq_isSome_getElem?, hlisted, GroupRosterView.lists, hfind hm]
      rfl
    rw [hin, if_pos rfl]
  have hwritten : view.members.filter
      (fun m => !unchangedRow (store.roster g)[m.identity]? m) = [] := by
    apply List.filter_eq_nil_iff.mpr
    intro m hm
    have hrow := hrows m.identity
    rw [hfind hm] at hrow
    cases hhad : (store.roster g)[m.identity]? with
    | none =>
      rw [hhad] at hrow
      cases hrow
    | some r =>
      rw [hhad] at hrow
      simp only [Option.map_some, Option.some.injEq, Prod.mk.injEq] at hrow
      simp [unchangedRow, hrow]
  simp only [writeRows, hgone, hjoined, List.append_nil, List.foldl_nil,
    GroupRosterStore.foldl_writeRow, hwritten, List.map_nil]

/-- What the apply path leaves alone: nothing to mark, nothing to drop, and
rows and metadata that are the view's already. -/
structure SettledFor (store : GroupRosterStore) (g : String) (held : GroupRosterStatement)
    (view : GroupRosterView) (m : GroupMetadata) : Prop where
  changes : store.changes[g]? ≠ some ∅
  lines : ∀ row ∈ store.listGroupChanges g, getsLine view row = false
  dropped : ∀ id ∈ droppedIds (unreadableIds store g) view, (store.heldRows g)[id]? = none
  rows : ShowsMembers (store.roster g) view
  metadata : sameMetadata (updateMetadata held view m) m = true

theorem SettledFor.appliedBy {held : GroupRosterStatement} {m : GroupMetadata}
    (h : SettledFor store g held view m) (hn : (view.members.map (·.identity)).Nodup) :
    appliedBy store g held view m = ({ view := some view }, store) := by
  have hlines : (store.listGroupChanges g).filter (getsLine view) = [] := by
    apply List.filter_eq_nil_iff.mpr
    intro row hrow
    rw [h.lines row hrow]
    simp
  have hsettled : settledBy store g view = ([], store) := by
    rw [settledBy, settleHeld_eq, hlines]
    show ([], store.deleteGroupChanges g _) = _
    rw [GroupRosterStore.deleteGroupChanges_of_notHeld h.changes h.dropped]
  have hwritten : writtenBy store g view = ({}, store) := by
    rw [writtenBy, hsettled]
    exact writeRows_still _ hn h.rows
  have hupdated := updateMetadata_of_same held view m h.metadata
  have hsame : sameMetadata m m = true := by
    rw [← hupdated]
    simpa only [hupdated] using h.metadata
  simp only [Pbr.appliedBy, hwritten, hupdated, hsame, if_true, ne_eq, not_true_eq_false, if_false]

end Settled

/-! ## What the first run leaves -/

/-- The ids of the held changes `Classify` drops. -/
def classifyDrops (K : GroupCrypto) (store : GroupRosterStore) (g : String)
    (held : GroupRosterStatement) (cards : GroupCardLookup) (now : Int) : List String :=
  ((checkChanges K (heldChanges store g) cards now).filter (drops held)).map (·.id)

/-- The held changes without those `Classify` drops. -/
def keptChanges (K : GroupCrypto) (store : GroupRosterStore) (g : String)
    (held : GroupRosterStatement) (cards : GroupCardLookup) (now : Int) : List GroupChange :=
  ((store.listGroupChanges g).filter fun row =>
    row.changeId ∉ classifyDrops K store g held cards now).filterMap parseChange

/-- The view of `held` with the kept changes. -/
def keptView (K : GroupCrypto) (store : GroupRosterStore) (g : String)
    (held : GroupRosterStatement) (cards : GroupCardLookup) (now : Int) : GroupRosterView :=
  computeRosterChecked held (checkChanges K (keptChanges K store g held cards now) cards now) now

/-- No dropped change proves one that is kept: checked against their own
cards, the kept changes check as they do against all. Asked where the apply
path goes through, that is of a group that goes on and holds a statement no
older than its roster. -/
def DropsNoProof (K : GroupCrypto) (store : GroupRosterStore) (g : String)
    (cards : GroupCardLookup) (now : Int) : Prop :=
  ∀ m held, store.loadMetadata g = some m → m.syncState ≠ .dissolved → m.held = some held →
    m.rosterEpoch ≤ held.rosterEpoch →
    AgreeOnKept held (checkChanges K (heldChanges store g) cards now)
      (checkChanges K (keptChanges K store g held cards now) cards now)

section FirstRun

variable (K : GroupCrypto) (store : GroupRosterStore) (g : String) (held : GroupRosterStatement)
  (cards : GroupCardLookup) (now : Int)

theorem mem_droppedIds {id : String} : id ∈ droppedIds (unreadableIds store g) (heldView K store g held cards now) ↔
      id ∈ unreadableIds store g ∨ id ∈ classifyDrops K store g held cards now := by
  rw [droppedIds, List.mem_append, heldView, mem_dropped_checked (nodup_checkChanges ..), classifyDrops,
    List.mem_map]
  simp only [List.mem_filter]
  constructor
  · rintro (h | ⟨c, hc, hid, hdrops⟩)
    · exact .inl h
    · exact .inr ⟨c, ⟨hc, hdrops⟩, hid⟩
  · rintro (h | ⟨c, ⟨hc, hdrops⟩, hid⟩)
    · exact .inl h
    · exact .inr ⟨c, hc, hid, hdrops⟩

theorem unreadable_of_mem {row : StoredGroupChange} (hrow : row ∈ store.listGroupChanges g)
    (h : row.changeId ∈ unreadableIds store g) : parseChange row = none := by
  obtain ⟨row', hrow', hid⟩ := List.mem_map.mp h
  obtain ⟨hrow', hnone⟩ := List.mem_filter.mp hrow'
  obtain rfl : row' = row := List.inj_on_of_nodup_map (store.nodup_listed g) hrow' hrow hid
  simpa using hnone

theorem not_dropped_of_getsLine {row : StoredGroupChange} (hrow : row ∈ store.listGroupChanges g)
    (h : getsLine (heldView K store g held cards now) row = true) :
    row.changeId ∉ droppedIds (unreadableIds store g) (heldView K store g held cards now) := by
  simp only [getsLine, Bool.and_eq_true] at h
  obtain ⟨⟨-, happlied⟩, hsome⟩ := h
  intro hdropped
  rcases List.mem_append.mp hdropped with hunread | hdropped
  · rw [unreadable_of_mem store g hrow hunread] at hsome
    cases hsome
  · obtain ⟨v, hv, hstatus⟩ := verdict_of_dropped hdropped
    rw [heldView, hv, Option.any_some, hstatus] at happlied
    simp at happlied

/-- The row, marked where it gets its line. -/
def markedRow (view : GroupRosterView) (row : StoredGroupChange) : StoredGroupChange :=
  if getsLine view row then row.shown else row

@[simp] theorem markedRow_changeId (view : GroupRosterView) (row : StoredGroupChange) :
    (markedRow view row).changeId = row.changeId := by
  unfold markedRow
  split <;> rfl

@[simp] theorem parseChange_markedRow (view : GroupRosterView) (row : StoredGroupChange) :
    parseChange (markedRow view row) = parseChange row := by
  unfold markedRow
  split <;> rfl

/-- The first run leaves the rows it does not drop, marked. -/
theorem heldRows_settledBy (id : String) :
    ((settledBy store g (heldView K store g held cards now)).2.heldRows g)[id]? =
      ((store.heldRows g)[id]?).bind fun row =>
        if id ∈ droppedIds (unreadableIds store g) (heldView K store g held cards now) then none
        else some (markedRow (heldView K store g held cards now) row) := by
  rw [settledBy, heldRows_settleHeld]
  cases hrow : (store.heldRows g)[id]? with
  | none => rfl
  | some row =>
    obtain rfl : row.changeId = id := store.keyed_heldRows g _ _ hrow
    have hlisted := GroupRosterStore.mem_listGroupChanges.mpr hrow
    simp only [Option.bind_some, markedRow]
    cases hline : getsLine (heldView K store g held cards now) row with
    | true =>
      rw [if_pos rfl, if_neg (not_dropped_of_getsLine K store g held cards now hlisted hline)]
      rfl
    | false => rfl

theorem listGroupChanges_settledBy : (settledBy store g (heldView K store g held cards now)).2.listGroupChanges g =
      ((store.listGroupChanges g).filter fun row => row.changeId ∉
            droppedIds (unreadableIds store g) (heldView K store g held cards now)).map
        (markedRow (heldView K store g held cards now)) := by
  apply eq_of_keys_sorted (·.changeId)
  · exact GroupRosterStore.listed_sorted _ _
  · rw [List.map_map]
    show (List.map (fun row => (markedRow _ row).changeId) _).Pairwise _
    simp only [markedRow_changeId]
    exact (store.listed_sorted g).sublist (List.filter_sublist.map _)
  · intro row
    rw [GroupRosterStore.mem_listGroupChanges, heldRows_settledBy, List.mem_map]
    simp only [List.mem_filter, GroupRosterStore.mem_listGroupChanges, Option.bind_eq_some_iff]
    constructor
    · rintro ⟨row', hrow', hkept⟩
      split at hkept
      · cases hkept
      · next hnot =>
          obtain hmarked := Option.some.inj hkept
          have hid : row'.changeId = row.changeId := store.keyed_heldRows g _ _ hrow'
          exact ⟨row', ⟨hid ▸ hrow', by simpa [hid] using hnot⟩, hmarked⟩
    · rintro ⟨row', ⟨hrow', hnot⟩, rfl⟩
      rw [markedRow_changeId]
      exact ⟨row', hrow', if_neg (by simpa using hnot)⟩

theorem heldChanges_settledBy : heldChanges (settledBy store g (heldView K store g held cards now)).2 g =
      keptChanges K store g held cards now := by
  rw [heldChanges, listGroupChanges_settledBy, List.filterMap_map]
  show List.filterMap (fun row => parseChange (markedRow _ row)) _ = _
  simp only [parseChange_markedRow]
  rw [keptChanges, List.filterMap_filter, List.filterMap_filter]
  apply List.filterMap_congr
  intro row hrow
  -- a row that does not parse counts on neither side
  by_cases hunread : row.changeId ∈ unreadableIds store g
  · simp [unreadable_of_mem store g hrow hunread]
  · simp [mem_droppedIds, hunread]

end FirstRun

section SecondRun

variable {K : GroupCrypto} {store : GroupRosterStore} {g : String} {held : GroupRosterStatement}
  {cards : GroupCardLookup} {now : Int} {m : GroupMetadata}

theorem changes_writeRows (view : GroupRosterView) (applied : GroupViewApplied) :
    (writeRows store g view applied).2.changes = store.changes := by
  have hremoved (ids : List String) (store : GroupRosterStore) :
      (ids.foldl (·.removeMember g ·) store).changes = store.changes := by
    induction ids generalizing store with
    | nil => rfl
    | cons i ids ih => rw [List.foldl_cons, ih, GroupRosterStore.changes_removeMember]
  have hwritten (rows : List GroupRosterMember) (store : GroupRosterStore) :
      (rows.foldl (·.upsertMember g ·) store).changes = store.changes := by
    induction rows generalizing store with
    | nil => rfl
    | cons r rows ih => rw [List.foldl_cons, ih]; rfl
  rw [writeRows, GroupRosterStore.foldl_writeRow, hwritten, hremoved]

theorem changes_settledBy (view : GroupRosterView) : (settledBy store g view).2.changes[g]? ≠ some ∅ := by
  have hmarked (rows : List StoredGroupChange) (store : GroupRosterStore)
      (h : store.changes[g]? ≠ some ∅) :
      (rows.foldl (·.upsertGroupChange ·) store).changes[g]? ≠ some ∅ := by
    induction rows generalizing store with
    | nil => exact h
    | cons r rows ih => exact ih _ (GroupRosterStore.changes_upsertGroupChange h r)
  rw [settledBy, settleHeld_eq]
  exact hmarked _ _ (GroupRosterStore.changes_deleteGroupChanges _ _ _)

theorem changes_appliedBy (view : GroupRosterView) : (appliedBy store g held view m).2.changes[g]? ≠ some ∅ := by
  have hwritten : (writtenBy store g view).2.changes[g]? ≠ some ∅ := by
    rw [writtenBy, changes_writeRows]
    exact changes_settledBy view
  unfold appliedBy
  dsimp only
  split
  · exact hwritten
  · exact hwritten

theorem heldRows_appliedBy (view : GroupRosterView) (h : String) :
    (appliedBy store g held view m).2.heldRows h = (settledBy store g view).2.heldRows h := by
  have hwritten : (writtenBy store g view).2.heldRows h = (settledBy store g view).2.heldRows h := by
    rw [writtenBy, heldRows_writeRows]
  unfold appliedBy
  dsimp only
  split
  · exact hwritten
  · exact hwritten

theorem listGroupChanges_appliedBy (view : GroupRosterView) :
    (appliedBy store g held view m).2.listGroupChanges g = (settledBy store g view).2.listGroupChanges g := by
  rw [GroupRosterStore.listGroupChanges, heldRows_appliedBy, GroupRosterStore.listGroupChanges]

theorem heldChanges_appliedBy (view : GroupRosterView) :
    heldChanges (appliedBy store g held view m).2 g = heldChanges (settledBy store g view).2 g := by
  rw [heldChanges, listGroupChanges_appliedBy, heldChanges]

theorem heldView_appliedBy :
    heldView K (appliedBy store g held (heldView K store g held cards now) m).2 g held cards now =
      keptView K store g held cards now := by
  rw [heldView, heldChanges_appliedBy, heldChanges_settledBy, keptView]

theorem currentView_eq (hm : store.loadMetadata g = some m) (hheld : m.held = some held) :
    currentView K store g cards now = some (heldView K store g held cards now) := by
  simp [currentView, hm, hheld, heldView]

theorem sameMetadata_again {view view' : GroupRosterView} (htitle : view'.title = view.title)
    (hversion : view'.titleVersion = view.titleVersion) :
    sameMetadata (updateMetadata held view' (updateMetadata held view m)) (updateMetadata held view m) = true := by
  by_cases hnew : view.title ≠ "" ∧ view.titleVersion > m.titleVersion
  · simp [updateMetadata, sameMetadata, hnew, htitle, hversion]
  · simp [updateMetadata, sameMetadata, hnew, htitle, hversion]

variable (hagree : AgreeOnKept held (checkChanges K (heldChanges store g) cards now)
  (checkChanges K (keptChanges K store g held cards now) cards now))
include hagree

theorem sameShown_keptView : SameShown (heldView K store g held cards now) (keptView K store g held cards now) :=
  sameShown_computeRosterChecked now (nodup_checkChanges ..) (nodup_checkChanges ..) hagree

/-- What the kept changes' view drops is not held any more. -/
theorem dropped_keptView {id : String}
    (h : id ∈ ((keptView K store g held cards now).verdicts.filter (·.status = .dropped)).map
      (·.id)) : id ∈ classifyDrops K store g held cards now := by
  obtain ⟨c, hc, rfl, hdrops⟩ := (mem_dropped_checked (nodup_checkChanges ..)).mp h
  -- its copy among all the held changes: was it kept, it would be this one
  have hchange : c.change ∈ heldChanges store g := by
    obtain ⟨row, hrow, hparse⟩ := List.mem_filterMap.mp (mem_of_mem_checkChanges hc).1
    exact List.mem_filterMap.mpr ⟨row, List.mem_of_mem_filter hrow, hparse⟩
  obtain ⟨d, hd, hid⟩ : ∃ d ∈ checkChanges K (heldChanges store g) cards now, d.id = c.id := by
    obtain ⟨d, hd, hid⟩ := exists_mem_checked cards now (K := K) hchange
    exact ⟨d, mem_of_mem_collapse hd, hid.1.trans (mem_of_mem_checkChanges hc).2.symm⟩
  refine List.mem_map.mpr ⟨d, List.mem_filter.mpr ⟨hd, ?_⟩, hid⟩
  by_contra hkept
  have hkept : drops held d = false := by simpa using hkept
  have hd' := (hagree d hkept).mp hd
  obtain rfl : d = c := List.inj_on_of_nodup_map (nodup_checkChanges ..) hd' hc hid
  rw [hkept] at hdrops
  cases hdrops

theorem settledFor_appliedBy : SettledFor (appliedBy store g held (heldView K store g held cards now) m).2 g held
      (keptView K store g held cards now) (updateMetadata held (heldView K store g held cards now) m) := by
  have hsame := sameShown_keptView hagree
  have hmembers : (keptView K store g held cards now).members =
      (heldView K store g held cards now).members :=
    (congrArg GroupRosterView.members hsame.shown).symm
  have hlisted : (appliedBy store g held (heldView K store g held cards now) m).2.listGroupChanges g
      = _ := (listGroupChanges_appliedBy _).trans (listGroupChanges_settledBy K store g held cards now)
  refine ⟨changes_appliedBy _, fun row hrow => ?_, fun id hid => ?_, ?_, ?_⟩
  · -- a row that would get its line now got it then
    rw [hlisted] at hrow
    obtain ⟨r, -, rfl⟩ := List.mem_map.mp hrow
    rw [← Bool.not_eq_true]
    intro hline
    simp only [getsLine, Bool.and_eq_true, Bool.not_eq_true', markedRow_changeId,
      parseChange_markedRow] at hline
    obtain ⟨⟨hshown, happlied⟩, hparse⟩ := hline
    obtain ⟨v, hv, hstatus⟩ : ∃ v, (keptView K store g held cards now).verdict r.changeId = some v ∧
        v.status = .applied := by
      cases hv : (keptView K store g held cards now).verdict r.changeId with
      | none => simp [hv] at happlied
      | some v => exact ⟨v, rfl, by simpa [hv] using happlied⟩
    have hv := (hsame.verdict _ v (by rw [hstatus]; simp)).mpr hv
    cases hfirst : getsLine (heldView K store g held cards now) r with
    | true =>
      rw [markedRow, if_pos hfirst] at hshown
      cases hshown
    | false =>
      rw [markedRow, if_neg (by simp [hfirst])] at hshown
      simp [getsLine, hshown, hv, hstatus, hparse] at hfirst
  · -- no row is left under it
    by_contra hheld
    obtain ⟨row, hrow⟩ := Option.ne_none_iff_exists'.mp hheld
    obtain rfl : row.changeId = id := GroupRosterStore.keyed_heldRows _ g _ _ hrow
    have hmem := GroupRosterStore.mem_listGroupChanges.mpr hrow
    have hread := unreadable_of_mem _ g hmem
    rw [hlisted] at hmem
    obtain ⟨r, hr, rfl⟩ := List.mem_map.mp hmem
    obtain ⟨hr, hkept⟩ := List.mem_filter.mp hr
    simp only [mem_droppedIds, not_or, decide_eq_true_eq] at hkept
    simp only [markedRow_changeId, parseChange_markedRow] at hid hread
    rcases List.mem_append.mp hid with hunread | hdropped
    · exact hkept.1 (List.mem_map.mpr ⟨r, List.mem_filter.mpr ⟨hr, by simp [hread hunread]⟩, rfl⟩)
    · exact hkept.2 (dropped_keptView hagree hdropped)
  · intro i
    have hfind : (keptView K store g held cards now).find i =
        (heldView K store g held cards now).find i := by
      rw [GroupRosterView.find, GroupRosterView.find, hmembers]
    rw [hfind]
    exact showsMembers_appliedBy held m (nodup_members _ _ _) i
  · exact sameMetadata_again (congrArg GroupRosterView.title hsame.shown).symm
      (congrArg GroupRosterView.titleVersion hsame.shown).symm

end SecondRun

/-! ## Who proves the kept changes

`HoldCarried` holds every change of a signer with the card one of them
carried: the cards found for a kept change's signer are then the same
without the dropped ones. -/

section Cards

variable {K : GroupCrypto} {store : GroupRosterStore} {g : String} {held : GroupRosterStatement}
  {cards : GroupCardLookup} {now : Int}

/-- Every held change is under its own id, as `HoldChange` writes it. -/
def HeldById (K : GroupCrypto) (store : GroupRosterStore) (g : String) : Prop :=
  ∀ row ∈ store.listGroupChanges g, ∀ c ∈ parseChange row, c.id K = row.changeId

theorem HeldById.nodup_ids (h : HeldById K store g) : ((heldChanges store g).map (GroupChange.id K)).Nodup := by
  have hrows : (store.listGroupChanges g).Pairwise fun a b => a.changeId ≠ b.changeId :=
    List.pairwise_map.mp (store.nodup_listed g)
  rw [List.Nodup, List.pairwise_map, heldChanges, List.pairwise_filterMap]
  apply hrows.imp_of_mem
  intro a b ha hb hne c hc d hd
  rw [h a ha c hc, h b hb d hd]
  exact hne

theorem keptChanges_sublist : (keptChanges K store g held cards now).Sublist (heldChanges store g) :=
  List.filter_sublist.filterMap _

theorem mem_checkChanges_of_nodup {changes : List GroupChange}
    (hn : (changes.map (GroupChange.id K)).Nodup) {c : CheckedGroupChange} : c ∈ checkChanges K changes cards now ↔
      ∃ change ∈ changes, checkOne K change (provedCards K change.signer changes cards now) = c := by
  have hn' : ((changes.map fun c => checkOne K c (provedCards K c.signer changes cards now)).map
      CheckedGroupChange.id).Nodup := by
    rw [List.map_map]
    show (changes.map fun c => (checkOne K c _).id).Nodup
    simpa only [checkOne_id] using hn
  rw [checkChanges, mem_collapse_of_nodup hn', List.mem_map]

/-- Where the kept changes' signers have the same cards without the dropped
changes, no kept change loses its proof. -/
theorem agreeOnKept_of_cards (hids : HeldById K store g) (hcards : ∀ c ∈ keptChanges K store g held cards now,
      provedCards K c.signer (keptChanges K store g held cards now) cards now =
        provedCards K c.signer (heldChanges store g) cards now) :
    AgreeOnKept held (checkChanges K (heldChanges store g) cards now)
      (checkChanges K (keptChanges K store g held cards now) cards now) := by
  have hn := hids.nodup_ids
  have hn' : ((keptChanges K store g held cards now).map (GroupChange.id K)).Nodup :=
    hn.sublist (keptChanges_sublist.map _)
  intro c hdrops
  rw [mem_checkChanges_of_nodup hn, mem_checkChanges_of_nodup hn']
  constructor
  · rintro ⟨change, hchange, rfl⟩
    obtain ⟨row, hrow, hparse⟩ := List.mem_filterMap.mp hchange
    have hkept : row.changeId ∉ classifyDrops K store g held cards now := by
      rw [← hids row hrow change hparse]
      intro hmem
      obtain ⟨d, hd, hid⟩ := List.mem_map.mp hmem
      obtain ⟨hd, hdrop⟩ := List.mem_filter.mp hd
      obtain ⟨change', hchange', rfl⟩ := (mem_checkChanges_of_nodup hn).mp hd
      rw [checkOne_id] at hid
      obtain rfl : change' = change := List.inj_on_of_nodup_map hn hchange' hchange hid
      rw [hdrops] at hdrop
      cases hdrop
    have hmem : change ∈ keptChanges K store g held cards now :=
      List.mem_filterMap.mpr ⟨row, List.mem_filter.mpr ⟨hrow, by simpa using hkept⟩, hparse⟩
    exact ⟨change, hmem, by rw [hcards change hmem]⟩
  · rintro ⟨change, hchange, rfl⟩
    exact ⟨change, keptChanges_sublist.subset hchange, by rw [hcards change hchange]⟩

end Cards

section ApplyAgain

variable {K : GroupCrypto} {store after : GroupRosterStore} {g : String} {cards : GroupCardLookup}
  {now : Int} {applied : GroupViewApplied}

/-- The apply path is over with an ended group after one run. -/
theorem applyView_dissolved_again {m : GroupMetadata} (hm : store.loadMetadata g = some m)
    (hd : m.syncState = .dissolved) :
    applyView K (store.deleteGroupChanges g ((store.listGroupChanges g).map (·.changeId))) g cards now =
      .ok ({}, store.deleteGroupChanges g ((store.listGroupChanges g).map (·.changeId))) := by
  have hrows : (store.deleteGroupChanges g
      ((store.listGroupChanges g).map (·.changeId))).heldRows g = ∅ := by
    rw [GroupRosterStore.heldRows_deleteGroupChanges, if_pos rfl]
    apply Std.ExtTreeMap.ext_getElem?
    intro id
    rw [getElem?_eraseAll]
    cases hrow : (store.heldRows g)[id]? with
    | none => simp
    | some row =>
      obtain rfl : row.changeId = id := store.keyed_heldRows g _ _ hrow
      rw [if_pos (List.mem_map.mpr ⟨row, GroupRosterStore.mem_listGroupChanges.mpr hrow, rfl⟩)]
      simp
  rw [applyView_dissolved (by rw [GroupRosterStore.loadMetadata_deleteGroupChanges, hm]) hd,
    GroupRosterStore.deleteGroupChanges_of_notHeld
      (GroupRosterStore.changes_deleteGroupChanges _ _ _) fun id _ => by rw [hrows]; simp]

/-- Where no dropped change proves one that is kept, a run of the apply path
leaves nothing to a second one, and the roster it leaves is the one before. -/
theorem applied_is_settled (h : applyView K store g cards now = .ok (applied, after))
    (hproof : DropsNoProof K store g cards now) :
    (∃ again, applyView K after g cards now = .ok (again, after) ∧ again.joined = [] ∧
      again.gone = [] ∧ again.newlyApplied = [] ∧ again.newTitle = none ∧
      again.view.map (·.shown) = applied.view.map (·.shown)) ∧
    ∀ view, applied.view = some view →
      (currentView K (settledBy store g view).2 g cards now).map (·.shown) =
        (currentView K store g cards now).map (·.shown) ∧
      (currentView K after g cards now).map (·.shown) =
        (currentView K store g cards now).map (·.shown) := by
  obtain ⟨m, hm, ⟨hd, hresult⟩ | ⟨hd, hold, hresult⟩ | ⟨held, hd, hheld, hepoch, hresult⟩⟩ :=
    applyView_cases h
  · obtain ⟨rfl, rfl⟩ := Prod.mk.inj hresult
    refine ⟨⟨{}, applyView_dissolved_again hm hd, rfl, rfl, rfl, rfl, rfl⟩, fun view hview => ?_⟩
    cases hview
  · obtain ⟨rfl, rfl⟩ := Prod.mk.inj hresult
    refine ⟨⟨{}, applyView_idle hm hd hold, rfl, rfl, rfl, rfl, rfl⟩, fun view hview => ?_⟩
    cases hview
  · have hagree := hproof m held hm hd hheld hepoch
    have hsame := sameShown_keptView hagree
    have hview : (appliedBy store g held (heldView K store g held cards now) m).1.view =
        some (heldView K store g held cards now) := rfl
    rw [← hresult] at hview
    obtain rfl : after = _ := congrArg Prod.snd hresult
    have hload := loadMetadata_appliedBy hm held (heldView K store g held cards now)
    have hlater : (updateMetadata held (heldView K store g held cards now) m).held = some held := by
      rw [updateMetadata_held, hheld]
    have happly : applyView K (appliedBy store g held (heldView K store g held cards now) m).2 g
        cards now = _ :=
      applyView_eq hload (by rwa [updateMetadata_syncState]) hlater
        (by rw [updateMetadata_rosterEpoch])
    rw [heldView_appliedBy, (settledFor_appliedBy hagree).appliedBy (nodup_members _ _ _)] at happly
    refine ⟨⟨_, happly, rfl, rfl, rfl, rfl, ?_⟩, fun view hsome => ?_⟩
    · rw [hview, Option.map_some, Option.map_some, hsame.shown]
    · obtain rfl : heldView K store g held cards now = view :=
        Option.mem_unique hview hsome
      have hsettled : (settledBy store g (heldView K store g held cards now)).2.loadMetadata g =
          some m := by rw [settledBy, loadMetadata_settleHeld, hm]
      rw [currentView_eq hm hheld, currentView_eq hsettled hheld, currentView_eq hload hlater,
        heldView_appliedBy, heldView, heldChanges_settledBy, ← keptView]
      exact ⟨congrArg some hsame.shown.symm, congrArg some hsame.shown.symm⟩

end ApplyAgain

/-! ## A card that goes with its change -/

def sampleCardOf (account : String) : AccountCard :=
  { keys := { accountId := account, signingPublicKeyB64 := "k", kemPublicKeyB64 := "k"
              kemBindingSignatureB64 := "k" }
    devices := [{ peerId := "d", signingPublicKeyB64 := "k", kemPublicKeyB64 := "k" }]
    cardSignatureB64 := "s" }

/-- `b`'s add of `member`, with its card or without. -/
def sampleAddOf (member : String) (epoch : Nat) (card : Option AccountCard) : GroupChange :=
  { groupId := "g", baseEpoch := epoch, signer := "b", signerDevice := "d", member
    inviteNonce := "i", signatureB64 := "s", signerCard := card }

/-- `b`'s statement, to which a change of epoch 1 is too old. -/
def sampleFloor : GroupRosterStatement := { sampleOwned "b" 5 [] with changeFloorEpoch := 2 }

def noCards : GroupCardLookup := fun _ => none

/-- A device that holds `b`'s statement and took `changes` one by one. -/
def sampleHolding (changes : List GroupChange) : GroupRosterStore :=
  changes.foldl (fun store c => (holdChange sampleCrypto store c noCards 0 false).2)
    (({} : GroupRosterStore).upsertMetadata
      { groupId := "g", ownerIdentity := "b", rosterEpoch := 5
        rosterStatementJson := some sampleFloor.toJson })

/-- What two runs of the apply path show and report gone. -/
def sampleTwice (store : GroupRosterStore) :
    Option (List String × List String × List String) := do
  let (first, after) ← (applyView sampleCrypto store "g" noCards 0).toOption
  let (again, _) ← (applyView sampleCrypto after "g" noCards 0).toOption
  pure ((first.view.map (·.members.map (·.identity))).getD [], again.gone,
    (again.view.map (·.members.map (·.identity))).getD [])

set_option maxRecDepth 20000 in
/-- `b` adds `x`; its card came with an older add, too old to count. The
first run drops that one, and with it the proof that `x` was added. -/
theorem dropped_card_unproves :
    sampleTwice (sampleHolding [sampleAddOf "x" 5 none,
      sampleAddOf "y" 1 (some (sampleCardOf "b"))]) =
      some (["b", "c", "x"], ["x"], ["b", "c"]) := by decide

set_option maxRecDepth 20000 in
/-- Where the add carries the card itself, the second run has nothing to do. -/
theorem applied_is_settled_sample : ∃ applied after again,
    applyView sampleCrypto (sampleHolding [sampleAddOf "x" 5 (some (sampleCardOf "b")),
      sampleAddOf "y" 1 (some (sampleCardOf "b"))]) "g" noCards 0 = .ok (applied, after) ∧
    applyView sampleCrypto after "g" noCards 0 = .ok (again, after) ∧ again.gone = [] := by
  generalize hstore : sampleHolding [sampleAddOf "x" 5 (some (sampleCardOf "b")),
    sampleAddOf "y" 1 (some (sampleCardOf "b"))] = store
  have hheld : (store.loadMetadata "g").bind (·.held) = some sampleFloor := by
    subst hstore
    decide
  have hproof : DropsNoProof sampleCrypto store "g" noCards 0 := by
    intro m held hm _ hmheld _
    rw [hm, Option.bind_some, hmheld, Option.some.injEq] at hheld
    subst hheld
    apply agreeOnKept_of_cards
    · unfold HeldById
      subst hstore
      decide
    · subst hstore
      decide
  cases happly : applyView sampleCrypto store "g" noCards 0 with
  | error e =>
    have hok : (applyView sampleCrypto store "g" noCards 0).toOption.isSome = true := by
      subst hstore
      decide
    rw [happly] at hok
    cases hok
  | ok result =>
    obtain ⟨applied, after⟩ := result
    obtain ⟨⟨again, hagain, -, hgone, -⟩, -⟩ := applied_is_settled happly hproof
    exact ⟨applied, after, again, rfl, hagain, hgone⟩

end Pbr
