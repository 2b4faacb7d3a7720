import PpBrowser.Messaging.GroupRosterMembers

/-!
# GroupRosterRows — the removed accounts and links of the view

`RemovedRows` and `LinkRows` in terms of the statement, the counting
removes and the link changes that count.
-/

namespace Pbr

open Lib

namespace RosterRules

/-! ## Removed accounts -/

section Removed

variable (x : RosterRules) (v : Fact → Bool)

/-- The lowest remove in the list that counts. -/
def firstRemove (removes : Changes) : Option CheckedGroupChange :=
  removes.find? fun r => v ⟨.removes, r.id⟩

def removalRow (member : String) (r : CheckedGroupChange) : GroupRemovedMember :=
  { identity := member, removal := r.id, removedBy := r.change.signer }

theorem under_namedRemoval (member : String) (removes : Changes) :
    (namedRemoval member removes).under v = (firstRemove v removes).map (removalRow member) := by
  induction removes with
  | nil => rfl
  | cons r removes ih =>
    simp only [namedRemoval, validRemove, Asking.under_bind, Asking.under_fact,
      Asking.under_ite, Asking.under_pure, ih, firstRemove, List.find?_cons]
    cases v ⟨.removes, r.id⟩ <;> rfl

/-- The removed map before those who are back are taken off. -/
def removedMap : StrMap GroupRemovedMember :=
  (x.removesOf.toList.foldlM removalStep x.sRemoved).under v

theorem under_removedRows (j : Joined) : (x.removedRows j).under v =
      ((x.removedMap v).toList.filter fun entry => entry.1 ∉ j.in_).map Prod.snd := by
  rw [removedRows, Asking.under_map]
  rfl

/-- The removed row of an account: by the lowest counting remove of it, else
the statement's. -/
theorem getElem?_removedMap (account : String) :
    (x.removedMap v)[account]? =
      match firstRemove v (x.removesOf.of account) with
      | some r => some (removalRow account r)
      | none => x.sRemoved[account]? := by
  have hfold (l : List (String × Changes)) (m : StrMap GroupRemovedMember)
      (hn : (l.map Prod.fst).Nodup) :
      ((l.foldlM removalStep m).under v)[account]? =
        match (l.find? fun e => e.1 = account).bind fun e => firstRemove v e.2 with
        | some r => some (removalRow account r)
        | none => m[account]? := by
    induction l generalizing m with
    | nil => rfl
    | cons e l ih =>
      obtain ⟨he, hn⟩ := List.nodup_cons.mp hn
      rw [List.foldlM_cons, Asking.under_bind, ih _ hn, removalStep, Asking.under_map,
        under_namedRemoval]
      by_cases hk : e.1 = account
      · have hl : l.find? (fun e => e.1 = account) = none := by
          rw [List.find?_eq_none]
          intro e' he' h
          exact he (List.mem_map.mpr ⟨e', he', by simpa [hk] using h⟩)
        simp only [hl, Option.bind_none, List.find?_cons, hk, decide_true, Option.bind_some]
        cases firstRemove v e.2 with
        | none => rfl
        | some r => simp [removalRow]
      · simp only [List.find?_cons, hk, decide_false]
        cases (l.find? fun e => e.1 = account).bind fun e => firstRemove v e.2 with
        | some r => rfl
        | none =>
          cases firstRemove v e.2 with
          | none => rfl
          | some r => simp [Std.ExtTreeMap.getElem?_insert, hk]
  have hkeys : (x.removesOf.toList.map Prod.fst).Nodup := by
    rw [Std.ExtTreeMap.map_fst_toList_eq_keys]
    exact Std.ExtTreeMap.nodup_keys
  rw [removedMap, hfold _ _ hkeys, StrMap.of]
  cases hl : x.removesOf.toList.find? (fun e => e.1 = account) with
  | some e =>
    have hk : e.1 = account := by simpa using List.find?_some hl
    have he := Std.ExtTreeMap.mem_toList_iff_getElem?_eq_some.mp (List.mem_of_find?_eq_some hl)
    rw [hk] at he
    rw [he]
    rfl
  | none =>
    cases hg : x.removesOf[account]? with
    | none => rfl
    | some l =>
      have := List.find?_eq_none.mp hl _
        (Std.ExtTreeMap.mem_toList_iff_getElem?_eq_some.mpr hg)
      simp at this

theorem mem_view_removed {row : GroupRemovedMember} (hkeyed : Keyed (·.identity) (x.removedMap x.oracle)) :
    row ∈ x.view.removed ↔ (x.removedMap x.oracle)[row.identity]? = some row ∧ row.identity ∉ x.joined.in_ := by
  rw [view_eq]
  simp only [under_removedRows, List.mem_map, List.mem_filter, decide_eq_true_eq, Prod.exists,
    exists_eq_right, Std.ExtTreeMap.mem_toList_iff_getElem?_eq_some]
  constructor
  · rintro ⟨k, hk, hin⟩
    obtain rfl : row.identity = k := hkeyed k row hk
    exact ⟨hk, hin⟩
  · rintro ⟨hk, hin⟩
    exact ⟨_, hk, hin⟩

theorem removed_sorted (hkeyed : Keyed (·.identity) (x.removedMap x.oracle)) :
    (x.view.removed.map (·.identity)).Pairwise (· < ·) := by
  rw [view_eq]
  simp only [under_removedRows, List.map_map]
  have hmap : ((x.removedMap x.oracle).toList.filter fun e => e.1 ∉ x.joined.in_).map
      ((·.identity) ∘ Prod.snd) =
      ((x.removedMap x.oracle).toList.filter fun e => e.1 ∉ x.joined.in_).map Prod.fst := by
    refine List.map_congr_left fun e he => ?_
    exact hkeyed e.1 e.2
      (Std.ExtTreeMap.mem_toList_iff_getElem?_eq_some.mp (List.mem_filter.mp he).1)
  rw [hmap]
  refine List.Pairwise.sublist (List.filter_sublist.map Prod.fst) ?_
  rw [Std.ExtTreeMap.map_fst_toList_eq_keys]
  exact Std.ExtTreeMap.ordered_keys.imp compare_lt_iff_lt.mp

end Removed

theorem keyed_removedMap {s : GroupRosterStatement} (hremoved : (s.removed.map (·.identity)).Nodup) {now : Int}
    {changes : List CheckedGroupChange} (v : Fact → Bool) :
    Keyed (·.identity) ((indexed s now changes).removedMap v) := by
  intro k row hrow
  rw [getElem?_removedMap] at hrow
  split at hrow
  · cases hrow
    rfl
  · exact ((sRemoved_iff hremoved).mp hrow).2

/-! ## Links -/

section Links

variable {x : RosterRules} {link : GroupInviteLink}

/-- The tables hold each link under its id, and no gone maker's link is
among the known ones. -/
structure WellLinked (l : Links) : Prop where
  links : Keyed (·.linkId) l.links
  gone : Keyed (·.linkId) l.goneMakersLinks
  apart : ∀ k : String, k ∈ l.goneMakersLinks → k ∉ l.links

/-- What a `link_add` does to the tables: nothing but remember a gone maker's,
nothing for a known id, or enter its link. -/
theorem enterLink_cases (acc : Verdicts × Links) (c : CheckedGroupChange) (reason : GroupChangeReason) :
    (reason ≠ .none ∧ (enterLink acc c reason).2.links = acc.2.links ∧
      ((enterLink acc c reason).2.goneMakersLinks = acc.2.goneMakersLinks ∨
        (enterLink acc c reason).2.goneMakersLinks =
          acc.2.goneMakersLinks.insertIfNew c.change.linkId (linkOf c.change))) ∨
    (reason = .none ∧ c.change.linkId ∈ acc.2.links ∧ (enterLink acc c reason).2 = acc.2) ∨
    (reason = .none ∧ c.change.linkId ∉ acc.2.links ∧ (enterLink acc c reason).2 =
      { acc.2 with links := acc.2.links.insert c.change.linkId (linkOf c.change) }) := by
  unfold enterLink
  by_cases hr : reason = .none
  · refine .inr ?_
    simp only [hr, ne_eq, not_true_eq_false, ↓reduceIte, true_and,
      ← Std.ExtTreeMap.contains_iff_mem]
    cases hc : acc.2.links.contains c.change.linkId
    · exact .inr ⟨by simp, by simp⟩
    · exact .inl ⟨rfl, by simp⟩
  · refine .inl ⟨hr, ?_⟩
    simp only [ne_eq, hr, not_false_eq_true, ↓reduceIte]
    by_cases ho : reason = .signerOut
    · simp [ho]
    · simp [ho]

theorem enterLink_keyed {acc : Verdicts × Links} {c : CheckedGroupChange}
    {reason : GroupChangeReason} (h : Keyed (·.linkId) acc.2.links)
    (hg : Keyed (·.linkId) acc.2.goneMakersLinks) : Keyed (·.linkId) (enterLink acc c reason).2.links ∧
      Keyed (·.linkId) (enterLink acc c reason).2.goneMakersLinks := by
  rcases enterLink_cases acc c reason with ⟨-, hl, hgone⟩ | ⟨-, -, he⟩ | ⟨-, -, he⟩
  · rw [hl]
    refine ⟨h, ?_⟩
    rcases hgone with hgone | hgone <;> rw [hgone]
    · exact hg
    · intro k link hk
      rw [Std.ExtTreeMap.getElem?_insertIfNew] at hk
      split at hk
      · next hnew =>
          cases hk
          simpa [linkOf] using hnew.1
      · exact hg k link hk
  · rw [he]
    exact ⟨h, hg⟩
  · rw [he]
    exact ⟨h.insert (linkOf c.change), hg⟩

theorem statementLinks_keyed : Keyed (·.linkId) x.statementLinks := by
  intro k link hk
  rcases of_getElem?_fill (·.linkId) (fun l : GroupInviteLink => l) x.s.links ∅ hk with h | h
  · obtain ⟨l, -, hid, rfl⟩ := h
    exact hid
  · simp at h

theorem mem_foldl_erase {α : Type} (keys : List String) (m : StrMap α) {k : String} :
    k ∈ keys.foldl (·.erase ·) m ↔ k ∉ keys ∧ k ∈ m := by
  induction keys generalizing m with
  | nil => simp
  | cons key keys ih =>
    rw [List.foldl_cons, ih, Std.ExtTreeMap.mem_erase, List.mem_cons]
    simp only [Std.LawfulEqCmp.compare_eq_iff_eq, ne_eq, not_or, eq_comm (a := k)]
    tauto

theorem foldl_erase_getElem? {α : Type} (keys : List String) (m : StrMap α) {k : String} {a : α}
    (h : (keys.foldl (·.erase ·) m)[k]? = some a) : m[k]? = some a := by
  induction keys generalizing m with
  | nil => exact h
  | cons key keys ih =>
    have := ih _ h
    rw [Std.ExtTreeMap.getElem?_erase] at this
    split at this
    · cases this
    · exact this

theorem wellLinked_linked : WellLinked x.linked.2 := by
  -- the tables after the link adds
  have hfold : Keyed (·.linkId) ((x.linkAdds.foldlM (x.judgeLinkAdd x.joined)
        (x.renamed.1, { links := x.statementLinks })).under x.oracle).2.links ∧
      Keyed (·.linkId) ((x.linkAdds.foldlM (x.judgeLinkAdd x.joined)
        (x.renamed.1, { links := x.statementLinks })).under x.oracle).2.goneMakersLinks := by
    have hstart : Keyed (·.linkId) x.statementLinks ∧
        Keyed (·.linkId) (∅ : StrMap GroupInviteLink) :=
      ⟨statementLinks_keyed, keyed_empty GroupInviteLink.linkId⟩
    refine Asking.under_foldlM_induct x.oracle (b := (x.renamed.1, { links := x.statementLinks }))
      (P := fun acc : Verdicts × Links =>
        Keyed (·.linkId) acc.2.links ∧ Keyed (·.linkId) acc.2.goneMakersLinks)
      hstart fun c _ acc hacc => ?_
    rw [under_judgeLinkAdd]
    exact enterLink_keyed hacc.1 hacc.2
  have hadds : WellLinked ((x.judgeLinkAdds x.joined x.renamed.1).under x.oracle).2 := by
    simp only [judgeLinkAdds, Asking.under_map]
    refine ⟨hfold.1, fun k link hk => hfold.2 k link (foldl_erase_getElem? _ _ hk), fun k hk => ?_⟩
    rw [mem_foldl_erase, Std.ExtTreeMap.mem_keys] at hk
    exact hk.1
  simp only [linked, judgeLinks, Asking.under_bind]
  refine Asking.under_foldlM_induct x.oracle (P := fun acc : Verdicts × Links =>
    WellLinked acc.2) hadds fun c _ acc hacc => ?_
  obtain ⟨hlinks, hgone⟩ := judgeLinkRevoke_tables acc c
  exact ⟨hlinks ▸ hacc.links, hgone ▸ hacc.gone, hlinks ▸ hgone ▸ hacc.apart⟩

theorem knownLinks_linkIds : (x.knownLinks x.joined x.linked.2).map (·.linkId) = x.linked.2.links.keys := by
  rw [knownLinks, List.map_map, ← Std.ExtTreeMap.map_fst_toList_eq_keys]
  exact List.map_congr_left fun e he => wellLinked_linked.links e.1 e.2
    (Std.ExtTreeMap.mem_toList_iff_getElem?_eq_some.mp he)

theorem mem_view_links : link ∈ x.view.links ↔ link ∈ x.knownLinks x.joined x.linked.2 ∧
      x.linkEnd x.joined x.linked.2 link = none := by
  rw [view_eq]
  simp only [liveLinks, List.mem_filter, Option.isNone_iff_eq_none]

theorem links_sorted : (x.view.links.map (·.linkId)).Pairwise (· < ·) := by
  rw [view_eq]
  refine List.Pairwise.sublist (List.filter_sublist.map _) ?_
  rw [knownLinks_linkIds]
  exact Std.ExtTreeMap.ordered_keys.imp compare_lt_iff_lt.mp

theorem maker_mem (h : link ∈ x.view.links) : link.maker ∈ x.joined.in_ := by
  have hend := (mem_view_links.mp h).2
  unfold linkEnd at hend
  split at hend
  · cases hend
  · split at hend
    · cases hend
    · next hin => exact not_not.mp hin

theorem mem_view_endedLinks {ended : GroupEndedLink} : ended ∈ x.view.endedLinks ↔
      (ended.link ∈ x.knownLinks x.joined x.linked.2 ∧ x.linkEnd x.joined x.linked.2 ended.link = some ended.end_) ∨
      (ended.end_ = .makerOut ∧ ∃ k : String, x.linked.2.goneMakersLinks[k]? = some ended.link) := by
  rw [view_eq]
  obtain ⟨link, end_⟩ := ended
  simp only [endedLinks, List.mem_insertionSort, List.mem_append, List.mem_filterMap,
    Option.map_eq_some_iff, GroupEndedLink.mk.injEq, List.mem_map, mem_values]
  constructor
  · rintro (⟨l, hl, e, he, rfl, rfl⟩ | ⟨l, ⟨k, hk⟩, rfl, rfl⟩)
    · exact .inl ⟨hl, he⟩
    · exact .inr ⟨rfl, k, hk⟩
  · rintro (⟨hl, he⟩ | ⟨rfl, k, hk⟩)
    · exact .inl ⟨link, hl, end_, he, rfl, rfl⟩
    · exact .inr ⟨link, ⟨k, hk⟩, rfl, rfl⟩

theorem live_ended_disjoint {ended : GroupEndedLink}
    (hl : link ∈ x.view.links) (he : ended ∈ x.view.endedLinks) : link.linkId ≠ ended.link.linkId := by
  intro hid
  obtain ⟨hknown, hend⟩ := mem_view_links.mp hl
  have hkey : link.linkId ∈ x.linked.2.links.keys := by
    rw [← knownLinks_linkIds]
    exact List.mem_map.mpr ⟨link, hknown, rfl⟩
  rcases mem_view_endedLinks.mp he with ⟨hknown', hend'⟩ | ⟨-, k, hk⟩
  · have hnodup : ((x.knownLinks x.joined x.linked.2).map (·.linkId)).Nodup := by
      rw [knownLinks_linkIds]
      exact Std.ExtTreeMap.nodup_keys
    rw [List.inj_on_of_nodup_map hnodup hknown hknown' hid, hend'] at hend
    cases hend
  · have hgone : ended.link.linkId = k := (wellLinked_linked (x := x)).gone k _ hk
    refine (wellLinked_linked (x := x)).apart k ?_ ?_
    · rw [Std.ExtTreeMap.mem_iff_isSome_getElem?, hk]
      rfl
    · rw [← hgone, ← hid]
      exact Std.ExtTreeMap.mem_keys.mp hkey

/-- A link known to the view is the statement's or a held link add's. -/
theorem knownLinks_source (hx : x.WellIndexed) (h : link ∈ x.knownLinks x.joined x.linked.2) :
    (∃ l ∈ x.s.links, l.linkId = link.linkId) ∨
      ∃ c ∈ x.heldChanges, c.change.kind = .linkAdd ∧ c.change.linkId = link.linkId := by
  have hfold : ∀ k : String, k ∈ x.linked.2.links → (∃ l ∈ x.s.links, l.linkId = k) ∨
      ∃ c ∈ x.heldChanges, c.change.kind = .linkAdd ∧ c.change.linkId = k := by
    simp only [linked, judgeLinks, Asking.under_bind]
    refine Asking.under_foldlM_induct x.oracle (P := fun acc : Verdicts × Links =>
      ∀ k : String, k ∈ acc.2.links → (∃ l ∈ x.s.links, l.linkId = k) ∨
        ∃ c ∈ x.heldChanges, c.change.kind = .linkAdd ∧ c.change.linkId = k) ?_ ?_
    · simp only [judgeLinkAdds, Asking.under_map]
      refine Asking.under_foldlM_induct x.oracle (P := fun acc : Verdicts × Links =>
        ∀ k : String, k ∈ acc.2.links → (∃ l ∈ x.s.links, l.linkId = k) ∨
          ∃ c ∈ x.heldChanges, c.change.kind = .linkAdd ∧ c.change.linkId = k) ?_ ?_
      · intro k hk
        rw [statementLinks, ← Std.ExtTreeMap.contains_iff_mem,
          contains_fill (·.linkId) (fun l : GroupInviteLink => l)] at hk
        exact .inl (by simpa using hk)
      · intro c hc acc hacc k hk
        rw [under_judgeLinkAdd] at hk
        rcases enterLink_cases acc c (x.entitledTo c .makeInviteLink) with
          ⟨-, hl, -⟩ | ⟨-, -, he⟩ | ⟨-, -, he⟩
        · exact hacc k (hl ▸ hk)
        · exact hacc k (he ▸ hk)
        · rw [he] at hk
          simp only [Std.ExtTreeMap.mem_insert, Std.LawfulEqCmp.compare_eq_iff_eq] at hk
          rcases hk with hk | hk
          · obtain ⟨hc, hkind⟩ := (mem_linkAdds hx).mp hc
            exact .inr ⟨c, hc, hkind, hk⟩
          · exact hacc k hk
    · intro c _ acc hacc k hk
      rw [(judgeLinkRevoke_tables acc c).1] at hk
      exact hacc k hk
  refine hfold link.linkId ?_
  rw [← Std.ExtTreeMap.mem_keys, ← knownLinks_linkIds]
  exact List.mem_map.mpr ⟨link, h, rfl⟩

end Links

end RosterRules

end Pbr
