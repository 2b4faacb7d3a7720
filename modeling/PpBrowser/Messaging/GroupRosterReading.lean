import PpBrowser.Messaging.GroupRosterIndex

/-!
# GroupRosterReading — what the memoised facts come to

The five memos of `RosterRules` recurse into one another and cut cycles
to false. `Lib.Memo` turns a run into a reading: the view is
`judge` under `oracle`, what the memos hold at the end, and each fact the
memos hold is its body's value under the oracle with the facts then being
computed cut.

`needs` is the order the code asks in: whether a `remove` or a `leave` is
kept is asked only to judge that very change, so those facts are never
among the cut when the change is judged first.
-/

namespace Pbr

open Lib

namespace RosterRules

variable (x : RosterRules) {s : GroupRosterStatement}

/-! ## The order of asking -/

/-- The memo asked of a change before `memo` is; a memo that is never
asked of its kind stands before itself. -/
def askedFirst : GroupChangeKind → MemoName → Option MemoName
  | .remove, .removeKept | .remove, .leaveKept => some .removes
  | .leave, .removeKept => some .leaves
  | .remove, .leaves => some .leaves
  | .leave, .removes => some .removes
  | _, _ => none

def needs (g h : Fact) : Prop :=
  ∃ c, x.held[g.key]? = some c ∧ ∃ memo, askedFirst c.change.kind g.memo = some memo ∧
    h = ⟨memo, g.key⟩

/-- The facts that can ask another. -/
def askable : List Fact :=
  x.held.keys.flatMap (fun id =>
    [⟨.removes, id⟩, ⟨.leaves, id⟩, ⟨.removeKept, id⟩, ⟨.leaveKept, id⟩]) ++
  x.removesOf.keys.map (Fact.mk .removed)

theorem length_askable_lt : x.askable.length < x.memoDepth := by
  have h (ids : List String) : (ids.flatMap fun id : String => ([⟨.removes, id⟩, ⟨.leaves, id⟩,
      ⟨.removeKept, id⟩, ⟨.leaveKept, id⟩] : List Fact)).length = 4 * ids.length := by
    induction ids with
    | nil => rfl
    | cons id ids ih =>
      rw [List.flatMap_cons, List.length_append, ih]
      simp only [List.length_cons, List.length_nil]
      omega
  rw [askable, List.length_append, h, List.length_map, Std.ExtTreeMap.length_keys,
    Std.ExtTreeMap.length_keys, memoDepth]
  omega

theorem factBody_outside {f : Fact} (h : f ∉ x.askable) : ∃ b, x.factBody f = .done b := by
  obtain ⟨memo, key⟩ := f
  have hheld (hm : memo ≠ .removed) : x.held[key]? = none := by
    by_contra hc
    refine h (List.mem_append_left _ (List.mem_flatMap.mpr ⟨key, ?_, ?_⟩))
    · rw [Std.ExtTreeMap.mem_keys, Std.ExtTreeMap.mem_iff_isSome_getElem?]
      exact Option.isSome_iff_ne_none.mpr hc
    · cases memo <;> simp at hm ⊢
  cases memo with
  | removed =>
    have hkey : x.removesOf[key]? = none := by
      by_contra hc
      refine h (List.mem_append_right _ (List.mem_map.mpr ⟨key, ?_, rfl⟩))
      rw [Std.ExtTreeMap.mem_keys, Std.ExtTreeMap.mem_iff_isSome_getElem?]
      exact Option.isSome_iff_ne_none.mpr hc
    exact ⟨false, by simp [factBody, removedByChangeBody, StrMap.of, hkey, Asking.pure_eq]⟩
  | removes | leaves | removeKept | leaveKept =>
    exact ⟨false, by simp [factBody, hheld (by simp), Asking.pure_eq]⟩

section Guarded

variable {x} (hx : x.WellIndexed) {known : Fact → Prop}

include hx

variable {c : CheckedGroupChange} {r : CheckedGroupChange} {l : CheckedGroupChange} {a : CheckedGroupChange}

theorem held_of_mem (h : c ∈ x.heldChanges) : x.held[c.id]? = some c :=
  hx.keyed.mem_values.mp h

omit hx in
theorem guarded_removed (account : String) : (removedByChange account).Guarded x.needs known := by
  refine .fact ?_
  rintro g ⟨c, -, memo, h, -⟩
  cases hk : c.change.kind <;> simp [askedFirst, hk] at h

theorem guarded_validRemove (hr : r ∈ x.heldChanges)
    (hk : r.change.kind = .remove) : (validRemove r).Guarded x.needs known := by
  refine .fact ?_
  rintro g ⟨c, hc, memo, h, -⟩
  rw [held_of_mem hx hr] at hc
  cases hc
  simp [askedFirst, hk] at h

theorem guarded_validLeave (hl : l ∈ x.heldChanges)
    (hk : l.change.kind = .leave) : (validLeave l).Guarded x.needs known := by
  refine .fact ?_
  rintro g ⟨c, hc, memo, h, -⟩
  rw [held_of_mem hx hl] at hc
  cases hc
  simp [askedFirst, hk] at h

/-- `c` is held, and a remove or leave was asked for first. -/
def Asked (x : RosterRules) (known : Fact → Prop) (c : CheckedGroupChange) : Prop :=
  x.held[c.id]? = some c ∧ (c.change.kind = .remove → known ⟨.removes, c.id⟩) ∧
    (c.change.kind = .leave → known ⟨.leaves, c.id⟩)

omit hx in
theorem guarded_removeKept (hc : x.Asked known c) : (removeKept c).Guarded x.needs known := by
  refine .fact ?_
  rintro g ⟨c', hc', memo, h, rfl⟩
  rw [hc.1] at hc'
  cases hc'
  cases hk : c.change.kind <;> simp [askedFirst, hk] at h
  · exact h ▸ hc.2.2 hk
  · exact h ▸ hc.2.1 hk

omit hx in
theorem guarded_leaveKept (hc : x.Asked known c) : (leaveKept c).Guarded x.needs known := by
  refine .fact ?_
  rintro g ⟨c', hc', memo, h, rfl⟩
  rw [hc.1] at hc'
  cases hc'
  cases hk : c.change.kind <;> simp [askedFirst, hk] at h
  exact h ▸ hc.2.1 hk

theorem guarded_leftByChange (account : String) : (x.leftByChange account).Guarded x.needs known := by
  refine .anyM fun l hl => ?_
  rw [hx.leavesBy] at hl
  simp only [List.mem_filter, decide_eq_true_eq] at hl
  exact guarded_validLeave hx hl.1 hl.2.1

theorem guarded_statementStands (account : String) : (x.statementStands account).Guarded x.needs known :=
  .ite (.pure _) ((guarded_removed account).bind fun _ =>
    .ite (.pure _) (.map _ (guarded_leftByChange hx account)))

theorem guarded_fromStatement (account : String) : (x.fromStatement account).Guarded x.needs known :=
  (show (x.presentInStatement account).Guarded x.needs known from
    .ite (.map _ (guarded_removed account)) (.pure _)).bind fun _ =>
    (Asking.Guarded.ite (.map _ (guarded_leftByChange hx account)) (.pure _)).bind fun _ => .pure _

theorem guarded_fromRoster (j : Joined) (account : String) :
    (x.fromRoster j account).Guarded x.needs known := .map _ (guarded_fromStatement hx account)

theorem guarded_notInReason (account : String) : (x.notInReason account).Guarded x.needs known :=
  .map _ (.ite (.pure _) ((guarded_removed account).bind fun _ =>
    .ite (.pure _) (guarded_leftByChange hx account)))

theorem guarded_entitlement (hc : x.Asked known c)
    (action : GroupAction) (target : MemberRole) {state : String → Rule SignerState}
    (hs : ∀ account, (state account).Guarded x.needs known) :
    (x.entitlement c action target state).Guarded x.needs known :=
  (guarded_removeKept hc).bind fun _ => .ite (.pure _) <| .ite (.pure _) <|
    (guarded_leaveKept hc).bind fun _ => .ite (.pure _) <|
      (hs _).bind fun _ => .ite (.pure _) <|
        (guarded_notInReason hx _).bind fun _ => .pure _

theorem guarded_removeReason (hr : x.Asked known r) : (x.removeReason r).Guarded x.needs known :=
  .ite (.pure _) (.map _ (guarded_entitlement hx hr _ _ (guarded_fromStatement hx)))

omit hx in
theorem guarded_leaveReason (hl : x.Asked known l) : (x.leaveReason l).Guarded x.needs known :=
  .ite (.pure _) (.ite (.pure _) (.map _ (guarded_removeKept hl)))

theorem guarded_factBody {f : Fact} (hf : ¬ x.needs f f) : (x.factBody f).Guarded x.needs (· = f) := by
  obtain ⟨memo, key⟩ := f
  cases memo with
  | removed =>
    refine .anyM fun r hr => ?_
    rw [hx.removesOf] at hr
    simp only [List.mem_filter, decide_eq_true_eq] at hr
    exact guarded_validRemove hx hr.1 hr.2.1
  | removeKept =>
    simp only [factBody]
    cases x.held[key]? with
    | none => exact .pure _
    | some c =>
      refine .anyM fun r hr => ?_
      rw [hx.keptByRemove] at hr
      obtain ⟨hr, hk, -⟩ := (mem_keepersOf _).mp hr
      exact .ite (guarded_validRemove hx hr hk) (.pure _)
  | leaveKept =>
    simp only [factBody]
    cases x.held[key]? with
    | none => exact .pure _
    | some c =>
      simp only [leaveKeptBody]
      cases hl : x.keptByLeave[c.id]? with
      | none => exact .pure _
      | some leaves =>
        refine (guarded_removed _).bind fun _ => .ite (.pure _) (.anyM fun l hl' => ?_)
        have hof := hx.keptByLeave c.id
        rw [StrMap.of, hl] at hof
        rw [show leaves = keepersOf .leave x.heldChanges c.id from hof] at hl'
        obtain ⟨hl', hk, -⟩ := (mem_keepersOf _).mp hl'
        exact .ite (guarded_validLeave hx hl' hk) (.pure _)
  | removes =>
    simp only [factBody]
    cases hc : x.held[key]? with
    | none => exact .pure _
    | some c =>
      have hid := hx.keyed _ _ hc
      subst hid
      refine .map _ (guarded_removeReason hx ⟨hc, fun _ => rfl, fun hk => ?_⟩)
      exact absurd ⟨c, hc, .removes, by simp [askedFirst, hk], rfl⟩ hf
  | leaves =>
    simp only [factBody]
    cases hc : x.held[key]? with
    | none => exact .pure _
    | some c =>
      have hid := hx.keyed _ _ hc
      subst hid
      refine .map _ (guarded_leaveReason ⟨hc, fun hk => ?_, fun _ => rfl⟩)
      exact absurd ⟨c, hc, .leaves, by simp [askedFirst, hk], rfl⟩ hf

theorem bodies : Memo.Bodies x.factBody x.needs x.askable where
  outside _ := x.factBody_outside
  guarded _ := guarded_factBody hx

/-! ### The order in `judge` -/

/-- Changes that are neither removes nor leaves need no earlier ask. -/
theorem asked_of_mem (h : c ∈ x.heldChanges)
    (hr : c.change.kind ≠ .remove) (hl : c.change.kind ≠ .leave) : x.Asked known c :=
  ⟨held_of_mem hx h, fun hk => absurd hk hr, fun hk => absurd hk hl⟩

theorem mem_adds : a ∈ x.adds ↔ a ∈ x.heldChanges ∧ a.change.kind = .add := by
  rw [hx.adds]; simp

theorem nodup_adds : (x.adds.map (·.id)).Nodup := by
  rw [hx.adds]
  refine List.Nodup.sublist (List.filter_sublist.map _) ?_
  rw [heldChanges, hx.keyed.map_values]
  exact Std.ExtTreeMap.nodup_keys

theorem mem_renames : c ∈ x.renames ↔ c ∈ x.heldChanges ∧ c.change.kind = .rename := by
  rw [hx.renames]; simp

theorem mem_linkAdds : c ∈ x.linkAdds ↔ c ∈ x.heldChanges ∧ c.change.kind = .linkAdd := by
  rw [hx.linkAdds]; simp

theorem mem_linkRevokes : c ∈ x.linkRevokes ↔ c ∈ x.heldChanges ∧ c.change.kind = .linkRevoke := by
  rw [hx.linkRevokes]; simp

theorem mem_removesOf {a : String} :
    r ∈ x.removesOf.of a ↔ r ∈ x.heldChanges ∧ r.change.kind = .remove ∧ r.change.member = a := by
  rw [hx.removesOf]; simp

theorem mem_leavesBy {a : String} :
    l ∈ x.leavesBy.of a ↔ l ∈ x.heldChanges ∧ l.change.kind = .leave ∧ l.change.signer = a := by
  rw [hx.leavesBy]; simp

omit hx in
/-- The lists of an index are those found under its keys. -/
theorem mem_flatten_values {index : StrMap Changes} : c ∈ (values index).flatten ↔ ∃ k, c ∈ index.of k := by
  simp only [List.mem_flatten, mem_values]
  constructor
  · rintro ⟨l, ⟨k, hk⟩, hc⟩
    exact ⟨k, by simpa [StrMap.of, hk] using hc⟩
  · rintro ⟨k, hc⟩
    cases hk : index[k]? with
    | none => simp [StrMap.of, hk] at hc
    | some l => exact ⟨l, ⟨k, hk⟩, by simpa [StrMap.of, hk] using hc⟩

theorem mem_removes : r ∈ (values x.removesOf).flatten ↔ r ∈ x.heldChanges ∧ r.change.kind = .remove := by
  rw [mem_flatten_values]
  simp [mem_removesOf hx]

theorem mem_leaves : l ∈ (values x.leavesBy).flatten ↔ l ∈ x.heldChanges ∧ l.change.kind = .leave := by
  rw [mem_flatten_values]
  simp [mem_leavesBy hx]

theorem asked_add (h : a ∈ x.adds) : x.Asked known a := by
  obtain ⟨h, hk⟩ := (mem_adds hx).mp h
  exact asked_of_mem hx h (by simp [hk]) (by simp [hk])

theorem guarded_readmitted (a : CheckedGroupChange) : (x.readmitted a).Guarded x.needs known := by
  unfold readmitted
  cases x.sRemoved[a.change.member]? with
  | some _ => exact .pure _
  | none =>
    refine .ite (.pure _) (.anyM fun r hr => ?_)
    obtain ⟨hr, hk, -⟩ := (mem_removesOf hx).mp hr
    exact .ite (guarded_validRemove hx hr hk) (.pure _)

theorem guarded_staticAddReason (a : CheckedGroupChange) : (x.staticAddReason a).Guarded x.needs known := by
  have hremoves : ((x.removesOf.of a.change.member).anyM fun r =>
      (· && r.change.adds.contains a.id) <$> validRemove r).Guarded x.needs known := by
    refine .anyM fun r hr => ?_
    obtain ⟨hr, hk, -⟩ := (mem_removesOf hx).mp hr
    exact .map _ (guarded_validRemove hx hr hk)
  have hleaves : ((x.leavesBy.of a.change.member).anyM fun l =>
      (· && l.change.adds.contains a.id) <$> validLeave l).Guarded x.needs known := by
    refine .anyM fun l hl => ?_
    obtain ⟨hl, hk, -⟩ := (mem_leavesBy hx).mp hl
    exact .map _ (guarded_validLeave hx hl hk)
  exact hremoves.bind fun _ => .ite (.pure _) <| (guarded_removed _).bind fun _ =>
    .ite (.pure _) <| (guarded_readmitted hx a).bind fun _ => .ite (.pure _) <|
      hleaves.bind fun _ => .ite (.pure _) (.pure _)

theorem guarded_addEntitlement (j : Joined) (h : a ∈ x.adds) : (x.addEntitlement j a).Guarded x.needs known :=
  .map _ (guarded_entitlement hx (asked_add hx h) _ _ (guarded_fromRoster hx j))

section

variable {openAdds : Changes} (reasons : StrMap GroupChangeReason) (h : ∀ a ∈ openAdds, a ∈ x.adds)
include reasons h

theorem guarded_acceptPass (j : Joined) : (x.acceptPass reasons openAdds j).Guarded x.needs known :=
  .foldlM (fun a ha _ => .ite (.pure _)
    (.map _ (.map _ (guarded_addEntitlement hx _ (h a ha))))) _

theorem guarded_acceptPasses (n : Nat) (j : Joined) :
    (x.acceptPasses reasons openAdds n j).Guarded x.needs known := by
  induction n generalizing j with
  | zero => exact .pure _
  | succ n ih =>
    exact (guarded_acceptPass hx reasons h j).bind fun _ => .ite (ih _) (.pure _)

end

theorem guarded_runAdds : x.runAdds.Guarded x.needs known := by
  refine (Asking.Guarded.foldlM (fun a _ j => ?_) _).bind fun j =>
    (Asking.Guarded.foldlM (fun a _ m => .map _ (guarded_staticAddReason hx a)) _).bind fun reasons =>
      (guarded_acceptPasses hx reasons (fun a ha => (List.mem_filter.mp ha).1) _ j).bind fun _ =>
        .pure _
  exact (guarded_removed a).bind fun _ => (guarded_statementStands hx a).bind fun _ => .pure _

theorem guarded_judgeAdds (reasons : StrMap GroupChangeReason) (j : Joined) (verdicts : Verdicts) :
    (x.adds.foldlM (x.judgeAdd reasons j) verdicts).Guarded x.needs known :=
  .foldlM (fun _ ha _ => .map _ <| .ite (.pure _) <| .ite (.pure _) <| .ite (.pure _) <|
    .map _ (guarded_addEntitlement hx j ha)) _

theorem guarded_judgeRemove (hr : r ∈ x.heldChanges) (hk : r.change.kind = .remove) (verdicts : Verdicts) :
    (x.judgeRemove verdicts r).Guarded x.needs known := by
  have hask : x.Asked (fun h => known h ∨ h = ⟨.removes, r.id⟩) r :=
    ⟨held_of_mem hx hr, ⟨fun _ => .inr rfl, fun h => (by rw [hk] at h; cases h)⟩⟩
  exact .map _ (.fact_bind (guarded_validRemove hx hr hk).1 fun _ =>
    .ite (.pure _) (guarded_removeReason hx hask))

theorem guarded_judgeLeave (hl : l ∈ x.heldChanges) (hk : l.change.kind = .leave) (verdicts : Verdicts) :
    (x.judgeLeave verdicts l).Guarded x.needs known := by
  have hask : x.Asked (fun h => known h ∨ h = ⟨.leaves, l.id⟩) l :=
    ⟨held_of_mem hx hl, ⟨fun h => (by rw [hk] at h; cases h), fun _ => .inr rfl⟩⟩
  exact .map _ (.fact_bind (guarded_validLeave hx hl hk).1 fun _ =>
    .ite (.pure _) (guarded_leaveReason hask))

theorem guarded_judgeRemovesAndLeaves (verdicts : Verdicts) :
    (x.judgeRemovesAndLeaves verdicts).Guarded x.needs known := by
  refine (Asking.Guarded.foldlM (fun r hr v => ?_) _).bind fun _ => .foldlM (fun l hl v => ?_) _
  · obtain ⟨hr, hk⟩ := (mem_removes hx).mp hr
    exact guarded_judgeRemove hx hr hk v
  · obtain ⟨hl, hk⟩ := (mem_leaves hx).mp hl
    exact guarded_judgeLeave hx hl hk v

theorem guarded_judgeRenames (j : Joined) (verdicts : Verdicts) :
    (x.judgeRenames j verdicts).Guarded x.needs known := by
  refine .map _ (.foldlM (fun c hc _ => .map _ ?_) _)
  obtain ⟨hc, hk⟩ := (mem_renames hx).mp hc
  exact guarded_entitlement hx (asked_of_mem hx hc (by simp [hk]) (by simp [hk])) _ _
    (guarded_fromRoster hx j)

theorem guarded_judgeLinkRevoke (j : Joined) (acc : Verdicts × Links)
    (hc : x.Asked known c) : (x.judgeLinkRevoke j acc c).Guarded x.needs known := by
  obtain ⟨verdicts, l⟩ := acc
  simp only [judgeLinkRevoke]
  cases l.links[c.change.linkId]? with
  | none => exact .pure _
  | some _ => exact .map _ (guarded_entitlement hx hc _ _ (guarded_fromRoster hx j))

theorem guarded_judgeLinks (j : Joined) (verdicts : Verdicts) : (x.judgeLinks j verdicts).Guarded x.needs known := by
  refine Asking.Guarded.bind (.map _ (.foldlM (fun c hc _ => .map _ ?_) _)) fun _ =>
    .foldlM (fun c hc _ => guarded_judgeLinkRevoke hx j _ ?_) _
  · obtain ⟨hc, hk⟩ := (mem_linkAdds hx).mp hc
    exact guarded_entitlement hx (asked_of_mem hx hc (by simp [hk]) (by simp [hk])) _ _
      (guarded_fromRoster hx j)
  · obtain ⟨hc, hk⟩ := (mem_linkRevokes hx).mp hc
    exact asked_of_mem hx hc (by simp [hk]) (by simp [hk])

theorem guarded_namedRemoval (member : String) {removes : Changes}
    (h : ∀ r ∈ removes, r ∈ x.heldChanges ∧ r.change.kind = .remove) :
    (namedRemoval member removes).Guarded x.needs known := by
  induction removes with
  | nil => exact .pure _
  | cons r removes ih =>
    obtain ⟨hr, hk⟩ := h r (by simp)
    exact (guarded_validRemove hx hr hk).bind fun _ =>
      .ite (.pure _) (ih fun r hr => h r (by simp [hr]))

theorem guarded_removedRows (j : Joined) : (x.removedRows j).Guarded x.needs known := by
  refine .map _ (.foldlM (fun entry he _ => .map _ (guarded_namedRemoval hx _ fun r hr => ?_)) _)
  have hv : entry.2 ∈ values x.removesOf := List.mem_map.mpr ⟨entry, he, rfl⟩
  exact (mem_removes hx).mp (List.mem_flatten.mpr ⟨_, hv, hr⟩)

theorem guarded_judge : x.judge.Guarded x.needs known :=
  (guarded_runAdds hx).bind fun _ => (guarded_judgeAdds hx _ _ _).bind fun _ =>
    (guarded_judgeRemovesAndLeaves hx _).bind fun _ => (guarded_judgeRenames hx _ _).bind fun _ =>
      (guarded_judgeLinks hx _ _).bind fun _ => .map _ (guarded_removedRows hx _)

end Guarded

/-! ## The oracle -/

/-- The memos at the end of a run. -/
def memo : Memo Fact := (x.judge.run x.answer {}).2

/-- What the memos hold at the end of a run. -/
def oracle : Fact → Bool := x.memo.holds

/-- The view as a reading: `judge` under the oracle. -/
def view : GroupRosterView := x.judge.under x.oracle

section Oracle

variable {x} (hx : x.WellIndexed)

include hx

theorem run_judge : (x.judge.run x.answer {}).1 = x.view :=
  Memo.run_holds (bodies hx) x.length_askable_lt (guarded_judge hx)

variable {f : Fact}

/-- What the memos hold of a fact is its body's value with the facts then
being computed cut; what needs that fact is not among them. -/
theorem oracle_justified (hf : x.memo.Knows f) : ∃ V : List Fact, f ∈ V ∧ (∀ g ∈ V, x.needs g f → g = f) ∧
      x.oracle f = (x.factBody f).under (x.memo.cut V) :=
  Memo.run_justified (bodies hx) x.length_askable_lt (guarded_judge hx) hf

theorem oracle_true (hf : x.oracle f = true) : ∃ V : List Fact, f ∈ V ∧ (∀ g ∈ V, x.needs g f → g = f) ∧
      (x.factBody f).under (x.memo.cut V) = true := by
  have hk : x.memo.Knows f := ⟨true, by simpa [oracle, Memo.holds] using hf⟩
  obtain ⟨V, hV, hn, h⟩ := oracle_justified hx hk
  exact ⟨V, hV, hn, h ▸ hf⟩

/-- What `judge` asked is known. -/
theorem knows_of_asked (hf : f ∈ x.judge.asked x.oracle) : x.memo.Knows f :=
  Memo.run_knows (bodies hx) x.length_askable_lt (guarded_judge hx) hf

end Oracle

/-- The view over a live statement is the reading of its indexed changes. -/
theorem run_eq_view (hs : s.dissolved = false) (now : Int)
    {changes : List CheckedGroupChange} (hn : (changes.map CheckedGroupChange.id).Nodup) :
    run s now changes = (indexed s now changes).view := by
  rw [← run_judge (wellIndexed hn)]
  simp [run, hs, indexed]

theorem computeRosterChecked_eq_view (hs : s.dissolved = false) (changes : List CheckedGroupChange) (now : Int) :
    computeRosterChecked s changes now = (indexed s now (collapse changes)).view :=
  run_eq_view hs now (nodup_collapse changes)

end RosterRules

/-! ## Each rule under a valuation -/

namespace RosterRules

variable (x : RosterRules) (v : Fact → Bool)

/-! ## Facts -/

/-- The statement lists `account` and no counting remove takes it out. -/
def presentUnder (account : String) : Bool :=
  x.inStatement account && !v ⟨.removed, account⟩

/-- Some leave of `account` counts. -/
def leftUnder (account : String) : Bool :=
  (x.leavesBy.of account).any fun l => v ⟨.leaves, l.id⟩

/-- The statement's membership of `account` stands. -/
def standsUnder (account : String) : Bool :=
  x.presentUnder v account && !x.leftUnder v account

/-- `account` is out for good. -/
def knownOutUnder (account : String) : Bool :=
  x.inStatement account || x.sRemoved.contains account || v ⟨.removed, account⟩ ||
    x.leftUnder v account

theorem under_leftByChange (account : String) : (x.leftByChange account).under v = x.leftUnder v account := by
  simp only [leftByChange, leftUnder, validLeave, Asking.under_anyM, Asking.under_fact]

theorem under_presentInStatement (account : String) :
    (x.presentInStatement account).under v = x.presentUnder v account := by
  unfold presentInStatement presentUnder
  cases x.inStatement account <;> simp [removedByChange]

theorem under_statementStands (account : String) : (x.statementStands account).under v = x.standsUnder v account := by
  unfold statementStands standsUnder presentUnder
  cases x.inStatement account <;> cases h : v ⟨.removed, account⟩ <;>
    simp [removedByChange, under_leftByChange, h]

theorem under_fromStatement (account : String) :
    (x.fromStatement account).under v =
      { present := x.presentUnder v account, in_ := x.standsUnder v account
        roleNow := if x.standsUnder v account then x.statementRole account else .member
        roleBeforeLeave := if x.presentUnder v account then x.statementRole account else .member } := by
  unfold fromStatement standsUnder
  cases h : x.presentUnder v account <;>
    simp [under_presentInStatement, under_leftByChange, h]

theorem under_fromRoster (j : Joined) (account : String) :
    (x.fromRoster j account).under v =
      { (x.fromStatement account).under v with
        in_ := j.in_.contains account, present := j.present.contains account } := by
  simp only [fromRoster, Asking.under_map]

theorem under_notInReason (account : String) : (x.notInReason account).under v =
      if x.knownOutUnder v account then .signerOut else .signerNotJoined := by
  unfold notInReason knownOut knownOutUnder
  cases x.inStatement account <;> cases x.sRemoved.contains account <;>
    cases h : v ⟨.removed, account⟩ <;> simp [removedByChange, under_leftByChange, h]

/-! ## Entitlement -/

section Entitlement

variable {v}
variable (c : CheckedGroupChange) (action : GroupAction) (target : MemberRole)
  (state : String → Rule SignerState)

/-- R3 and R6 past the keep of a remove: the signer may do it at the
statement's role, and from its device or by its leave. -/
def admitted : Bool :=
  groupAllows action (x.statementRole c.change.signer) x.s.preset target &&
    (c.deviceCurrent || v ⟨.leaveKept, c.id⟩)

theorem under_entitlement :
    (x.entitlement c action target state).under v =
      if v ⟨.removeKept, c.id⟩ then (.none, x.statementRole c.change.signer)
      else if !groupAllows action (x.statementRole c.change.signer) x.s.preset target then
        (.notAllowed, .member)
      else if !c.deviceCurrent && !v ⟨.leaveKept, c.id⟩ then (.deviceOffCard, .member)
      else
        let st := (state c.change.signer).under v
        if st.in_ || (v ⟨.leaveKept, c.id⟩ && st.present) then
          let acting := if st.in_ then st.roleNow else st.roleBeforeLeave
          if groupAllows action acting x.s.preset target then (.none, acting)
          else (.notAllowed, .member)
        else (if x.knownOutUnder v c.change.signer then .signerOut else .signerNotJoined,
          .member) := by
  simp only [entitlement, removeKept, leaveKept, Asking.under_bind, Asking.under_fact,
    Asking.under_ite, Asking.under_pure, under_notInReason]

/-- A change counts: a counting remove of its signer keeps it, or its signer
is in, or present with a leave that keeps it, at a role that allows it. -/
theorem entitlement_none_iff : ((x.entitlement c action target state).under v).1 = .none ↔
      v ⟨.removeKept, c.id⟩ = true ∨ (x.admitted (v := v) c action target = true ∧
        ((((state c.change.signer).under v).in_ = true ∧
            groupAllows action ((state c.change.signer).under v).roleNow x.s.preset target) ∨
          (((state c.change.signer).under v).in_ = false ∧ v ⟨.leaveKept, c.id⟩ = true ∧
            ((state c.change.signer).under v).present = true ∧
            groupAllows action ((state c.change.signer).under v).roleBeforeLeave x.s.preset target))) := by
  rw [under_entitlement]
  unfold admitted
  generalize (state c.change.signer).under v = st
  grind

end Entitlement

/-! ## Fact bodies -/

theorem under_removedByChangeBody (account : String) : (x.removedByChangeBody account).under v =
      (x.removesOf.of account).any fun r => v ⟨.removes, r.id⟩ := by
  simp only [removedByChangeBody, validRemove, Asking.under_anyM, Asking.under_fact]

theorem under_removeKeptBody (c : CheckedGroupChange) : (x.removeKeptBody c).under v =
      (x.keptByRemove.of c.id).any fun r => decide (r.change.member = c.change.signer) && v ⟨.removes, r.id⟩ := by
  simp only [removeKeptBody, validRemove, Asking.under_anyM, Asking.under_ite,
    Asking.under_fact, Asking.under_pure]
  congr 1
  funext r
  split <;> simp [*]

theorem under_leaveKeptBody (c : CheckedGroupChange) : (x.leaveKeptBody c).under v =
      (x.keptByLeave.contains c.id && !v ⟨.removed, c.change.signer⟩ && (x.keptByLeave.of c.id).any fun l =>
          decide (l.change.signer = c.change.signer) && v ⟨.leaves, l.id⟩) := by
  unfold leaveKeptBody
  rw [Std.ExtTreeMap.contains_eq_isSome_getElem?, StrMap.of]
  cases hl : x.keptByLeave[c.id]? with
  | none => simp
  | some leaves =>
    cases hr : v ⟨.removed, c.change.signer⟩ <;>
      simp [removedByChange, validLeave, hr]

theorem under_leaveReason (l : CheckedGroupChange) : (x.leaveReason l).under v =
      if !groupAllows .leave (x.statementRole l.change.signer) x.s.preset .member then .notAllowed
      else if l.deviceCurrent || v ⟨.removeKept, l.id⟩ then .none else .deviceOffCard := by
  unfold leaveReason
  cases groupAllows .leave (x.statementRole l.change.signer) x.s.preset .member <;>
    cases l.deviceCurrent <;> cases h : v ⟨.removeKept, l.id⟩ <;> simp [removeKept, h]

theorem under_removeReason (r : CheckedGroupChange) : (x.removeReason r).under v =
      if r.change.member = x.s.ownerIdentity then .notAllowed
      else ((x.entitlement r .remove (x.statementRole r.change.member) x.fromStatement).under v).1 := by
  simp only [removeReason, Asking.under_ite, Asking.under_pure, Asking.under_map]

/-! ## What the oracle holds -/

section Oracle

variable {x} (hx : x.WellIndexed)

include hx

/-- A counting remove: its reason comes to none with facts cut that are not
whether it is kept. -/
theorem oracle_removes {id : String} (h : x.oracle ⟨.removes, id⟩ = true) :
    ∃ r, x.held[id]? = some r ∧ r.id = id ∧ ∃ V : List Fact,
      (∀ g ∈ V, x.needs g ⟨.removes, id⟩ → g = ⟨.removes, id⟩) ∧ (x.removeReason r).under (x.memo.cut V) = .none := by
  obtain ⟨V, -, hn, hb⟩ := oracle_true hx h
  simp only [factBody] at hb
  cases hr : x.held[id]? with
  | none => simp [hr] at hb
  | some r =>
    simp only [hr, Asking.under_map, decide_eq_true_eq] at hb
    exact ⟨r, rfl, hx.keyed _ _ hr, V, hn, hb⟩

theorem oracle_leaves {id : String} (h : x.oracle ⟨.leaves, id⟩ = true) :
    ∃ l, x.held[id]? = some l ∧ l.id = id ∧ ∃ V : List Fact, (∀ g ∈ V, x.needs g ⟨.leaves, id⟩ → g = ⟨.leaves, id⟩) ∧
        (x.leaveReason l).under (x.memo.cut V) = .none := by
  obtain ⟨V, -, hn, hb⟩ := oracle_true hx h
  simp only [factBody] at hb
  cases hl : x.held[id]? with
  | none => simp [hl] at hb
  | some l =>
    simp only [hl, Asking.under_map, decide_eq_true_eq] at hb
    exact ⟨l, rfl, hx.keyed _ _ hl, V, hn, hb⟩

/-- A kept change: some counting remove of its signer keeps it. -/
theorem oracle_removeKept {id : String} (h : x.oracle ⟨.removeKept, id⟩ = true) :
    ∃ c r, x.held[id]? = some c ∧ r ∈ x.heldChanges ∧ r.change.kind = .remove ∧
      id ∈ r.change.keeps ∧ r.change.member = c.change.signer ∧ x.oracle ⟨.removes, r.id⟩ = true := by
  obtain ⟨V, -, -, hb⟩ := oracle_true hx h
  simp only [factBody] at hb
  cases hc : x.held[id]? with
  | none => simp [hc] at hb
  | some c =>
    have hid := hx.keyed _ _ hc
    subst hid
    rw [hc] at hb
    simp only [under_removeKeptBody, List.any_eq_true, Bool.and_eq_true, decide_eq_true_eq,
      hx.keptByRemove] at hb
    obtain ⟨r, hr, hm, hv⟩ := hb
    obtain ⟨hr, hk, hkeep⟩ := (mem_keepersOf _).mp hr
    exact ⟨c, r, rfl, hr, hk, hkeep, hm, Memo.holds_of_cut hv⟩

theorem oracle_removed {account : String} (h : x.oracle ⟨.removed, account⟩ = true) :
    ∃ r ∈ x.heldChanges, r.change.kind = .remove ∧ r.change.member = account ∧ x.oracle ⟨.removes, r.id⟩ = true := by
  obtain ⟨V, -, -, hb⟩ := oracle_true hx h
  simp only [factBody, under_removedByChangeBody, List.any_eq_true] at hb
  obtain ⟨r, hr, hv⟩ := hb
  obtain ⟨hr, hk, hm⟩ := (mem_removesOf hx).mp hr
  exact ⟨r, hr, hk, hm, Memo.holds_of_cut hv⟩

theorem oracle_removed_owner : x.oracle ⟨.removed, x.s.ownerIdentity⟩ = false := by
  by_contra hne
  obtain ⟨r, hr, -, hm, hv⟩ := oracle_removed hx (by simpa using hne)
  obtain ⟨r', hr', -, V, -, hreason⟩ := oracle_removes hx hv
  rw [held_of_mem hx hr] at hr'
  cases hr'
  simp [under_removeReason, hm] at hreason

theorem statementRole_of_leaves {id : String} (h : x.oracle ⟨.leaves, id⟩ = true)
    {l : CheckedGroupChange} (hl : x.held[id]? = some l) : x.statementRole l.change.signer ≠ .owner := by
  intro hrole
  obtain ⟨l', hl', -, V, -, hreason⟩ := oracle_leaves hx h
  rw [hl] at hl'
  cases hl'
  simp [under_leaveReason, groupAllows, hrole] at hreason

theorem leftUnder_oracle {account : String} (h : x.leftUnder x.oracle account = true) :
    ∃ l ∈ x.heldChanges, l.change.kind = .leave ∧ l.change.signer = account ∧ x.oracle ⟨.leaves, l.id⟩ = true := by
  simp only [leftUnder, List.any_eq_true] at h
  obtain ⟨l, hl, hv⟩ := h
  obtain ⟨hl, hk, hs⟩ := (mem_leavesBy hx).mp hl
  exact ⟨l, hl, hk, hs, hv⟩

end Oracle

/-! ## The members -/

/-- The statement's members that stand, with those present. -/
theorem under_standingMembers (account : String) :
    (account ∈ (x.standingMembers.under v).in_ ↔ x.standsUnder v account = true) ∧
      (account ∈ (x.standingMembers.under v).present ↔ x.presentUnder v account = true) := by
  have hstep (l : List String) (j : Joined) :
      (account ∈ ((l.foldlM x.standStep j).under v).in_ ↔
        account ∈ j.in_ ∨ (account ∈ l ∧ x.standsUnder v account = true)) ∧
      (account ∈ ((l.foldlM x.standStep j).under v).present ↔
        account ∈ j.present ∨ (account ∈ l ∧ v ⟨.removed, account⟩ = false)) := by
    induction l generalizing j with
    | nil => simp
    | cons identity l ih =>
      rw [List.foldlM_cons, Asking.under_bind, (ih _).1, (ih _).2]
      simp only [standStep, Asking.under_bind, Asking.under_pure, removedByChange,
        Asking.under_fact, under_statementStands, List.mem_cons]
      by_cases hid : account = identity
      · subst hid
        cases v ⟨.removed, account⟩ <;> cases x.standsUnder v account <;> simp
      · cases v ⟨.removed, identity⟩ <;> cases x.standsUnder v identity <;>
          simp [hid, Ne.symm hid]
  have hmem : account ∈ x.sMembers.toList.map Prod.fst ↔ x.inStatement account = true := by
    rw [Std.ExtTreeMap.map_fst_toList_eq_keys, Std.ExtTreeMap.mem_keys, inStatement,
      Std.ExtTreeMap.contains_iff_mem]
  obtain ⟨hin, hpresent⟩ := hstep (x.sMembers.toList.map Prod.fst) {}
  refine ⟨hin.trans ?_, hpresent.trans ?_⟩
  · rw [hmem]
    simp [standsUnder, presentUnder]
    tauto
  · rw [hmem]
    simp [presentUnder]

theorem standingMembers_rest : (x.standingMembers.under v).accepted = ∅ ∧ (x.standingMembers.under v).joinedBy = ∅ ∧
      (x.standingMembers.under v).in_.size ≤ x.sMembers.size := by
  have hstep (l : List String) (j : Joined) :
      ((l.foldlM x.standStep j).under v).accepted = j.accepted ∧
      ((l.foldlM x.standStep j).under v).joinedBy = j.joinedBy ∧
      ((l.foldlM x.standStep j).under v).in_.size ≤ j.in_.size + l.length := by
    induction l generalizing j with
    | nil => simp
    | cons identity l ih =>
      rw [List.foldlM_cons, Asking.under_bind]
      obtain ⟨h₁, h₂, h₃⟩ := ih ((x.standStep j identity).under v)
      have hj : ((x.standStep j identity).under v).accepted = j.accepted ∧
          ((x.standStep j identity).under v).joinedBy = j.joinedBy := by
        simp only [standStep, Asking.under_bind, Asking.under_pure, and_self]
      refine ⟨h₁.trans hj.1, h₂.trans hj.2, h₃.trans ?_⟩
      have : ((x.standStep j identity).under v).in_.size ≤ j.in_.size + 1 := by
        simp only [standStep, Asking.under_bind, Asking.under_pure]
        split
        · exact Std.ExtTreeSet.size_insert_le
        · omega
      rw [List.length_cons]
      omega
  obtain ⟨h₁, h₂, h₃⟩ := hstep (x.sMembers.toList.map Prod.fst) {}
  refine ⟨h₁, h₂, h₃.trans ?_⟩
  simp

theorem under_staticReasonsOf {a : CheckedGroupChange} (hn : (x.adds.map (·.id)).Nodup) (ha : a ∈ x.adds) :
    (x.staticReasonsOf.under v)[a.id]? = some ((x.staticAddReason a).under v) := by
  simp only [staticReasonsOf, Asking.under_foldlM, Asking.under_map]
  exact getElem?_fill_of_mem (·.id) (fun a => (x.staticAddReason a).under v) hn ∅ ha

theorem under_staticAddReason (a : CheckedGroupChange) : (x.staticAddReason a).under v =
      if (x.removesOf.of a.change.member).any fun r =>
          v ⟨.removes, r.id⟩ && r.change.adds.contains a.id then .namedByRemove
      else if v ⟨.removed, a.change.member⟩ && x.statementRole a.change.signer = .member then .removedMember
      else if !(x.readmitted a).under v then .notReadmitted else if (x.leavesBy.of a.change.member).any fun l =>
          v ⟨.leaves, l.id⟩ && l.change.adds.contains a.id then .namedByLeave else .none := by
  simp only [staticAddReason, validRemove, validLeave, removedByChange, Asking.under_bind,
    Asking.under_ite, Asking.under_pure, Asking.under_anyM, Asking.under_map, Asking.under_fact]

section Accept

variable {x v} {reasons : StrMap GroupChangeReason} {openAdds : Changes} {P : Joined → Prop}

/-- What taking in an entitled open add preserves holds when the adds are
done. -/
theorem acceptPasses_induct (step : ∀ j a j', P j → a ∈ openAdds → a.id ∉ j.accepted →
      (x.addEntitlement j a).under v = .none → takeIn reasons j a = some j' → P j')
    (n : Nat) (j : Joined) (hj : P j) : P ((x.acceptPasses reasons openAdds n j).under v) := by
  have hpass (j : Joined) (hj : P j) : P ((x.acceptPass reasons openAdds j).under v).2 := by
    refine Asking.under_foldlM_induct v (P := fun acc : Bool × Joined => P acc.2) hj fun a ha acc hacc => ?_
    simp only [acceptStep, Asking.under_ite, Asking.under_pure, Asking.under_map, tryAccept]
    split
    · exact hacc
    · next hid =>
        by_cases he : (x.addEntitlement acc.2 a).under v = .none
        · cases ht : takeIn reasons acc.2 a with
          | none => simpa [he, ht] using hacc
          | some j' => simpa [he, ht] using step _ _ _ hacc ha hid he ht
        · simpa [he] using hacc
  induction n generalizing j with
  | zero => exact hj
  | succ n ih =>
    rw [acceptPasses, Asking.under_bind, Asking.under_ite]
    split
    · exact ih _ (hpass j hj)
    · exact hpass j hj

end Accept

end RosterRules

end Pbr
