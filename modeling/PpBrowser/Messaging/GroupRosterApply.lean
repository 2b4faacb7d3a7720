import PpBrowser.Messaging.GroupRosterMembers
import PpBrowser.Messaging.GroupRosterSync

/-!
# GroupRosterApply — what the apply path writes

One lemma for each write of `ApplyView`: the rows become the view's
members (`roster_writeRows`), the dropped changes go and the counting ones
get their line (`heldRows_settleHeld`), the metadata follows the statement;
and what `applyView` and `keepStatement` do as a whole, by cases
(`applyView_cases`, `keepStatement_cases`).
-/

namespace Pbr

open Lib

/-! ## Rows -/

namespace GroupRosterStore

variable {store : GroupRosterStore} {g : String}

section Removing

variable (ids : List String)

@[simp] theorem loadMetadata_removeMembers (h : String) :
    (ids.foldl (·.removeMember g ·) store).loadMetadata h = store.loadMetadata h := by
  induction ids generalizing store with
  | nil => rfl
  | cons i ids ih => rw [List.foldl_cons, ih, loadMetadata_removeMember]

@[simp] theorem heldRows_removeMembers (h : String) :
    (ids.foldl (·.removeMember g ·) store).heldRows h = store.heldRows h := by
  induction ids generalizing store with
  | nil => rfl
  | cons i ids ih => rw [List.foldl_cons, ih, heldRows_removeMember]

theorem roster_removeMembers (h : String) : (ids.foldl (·.removeMember g ·) store).roster h =
      if h = g then ids.foldl (·.erase ·) (store.roster g) else store.roster h := by
  induction ids generalizing store with
  | nil =>
    by_cases hg : h = g
    · rw [if_pos hg, hg]; rfl
    · rw [if_neg hg]; rfl
  | cons i ids ih =>
    rw [List.foldl_cons, ih, roster_removeMember, roster_removeMember, if_pos rfl,
      List.foldl_cons]
    by_cases hg : h = g
    · rw [if_pos hg, if_pos hg]
    · rw [if_neg hg, if_neg hg, if_neg hg]

end Removing

section Writing

variable (current : StrMap GroupRosterMember) (members : List GroupRosterViewMember)

/-- The rows `writeRow` writes: those that say something new. -/
theorem foldl_writeRow : members.foldl (writeRow g current) store =
      ((members.filter fun m => !unchangedRow current[m.identity]? m).map fun m =>
        memberRowOf current[m.identity]? m).foldl (·.upsertMember g ·) store := by
  induction members generalizing store with
  | nil => rfl
  | cons m members ih =>
    rw [List.foldl_cons, ih]
    cases hsame : unchangedRow current[m.identity]? m with
    | true => rw [List.filter_cons_of_neg (by simp [hsame]), writeRow, if_pos hsame]
    | false =>
      rw [List.filter_cons_of_pos (by simp [hsame]), List.map_cons, List.foldl_cons, writeRow,
        if_neg (by simp [hsame])]

variable (rows : List GroupRosterMember)

@[simp] theorem loadMetadata_upsertMembers (h : String) :
    (rows.foldl (·.upsertMember g ·) store).loadMetadata h = store.loadMetadata h := by
  induction rows generalizing store with
  | nil => rfl
  | cons r rows ih => rw [List.foldl_cons, ih, loadMetadata_upsertMember]

@[simp] theorem heldRows_upsertMembers (h : String) :
    (rows.foldl (·.upsertMember g ·) store).heldRows h = store.heldRows h := by
  induction rows generalizing store with
  | nil => rfl
  | cons r rows ih => rw [List.foldl_cons, ih, heldRows_upsertMember]

theorem roster_upsertMembers (h : String) : (rows.foldl (·.upsertMember g ·) store).roster h =
      if h = g then rows.foldl (fun m r => m.insert r.memberIdentity r) (store.roster g) else store.roster h := by
  induction rows generalizing store with
  | nil =>
    by_cases hg : h = g
    · rw [if_pos hg, hg]; rfl
    · rw [if_neg hg]; rfl
  | cons r rows ih =>
    rw [List.foldl_cons, ih, roster_upsertMember, roster_upsertMember, if_pos rfl,
      List.foldl_cons]
    by_cases hg : h = g
    · rw [if_pos hg, if_pos hg]
    · rw [if_neg hg, if_neg hg, if_neg hg]

end Writing

end GroupRosterStore

theorem rowOf_of_unchanged {had : Option GroupRosterMember} {m : GroupRosterViewMember}
    (hkey : ∀ r ∈ had, r.memberIdentity = m.identity) (h : unchangedRow had m = true) :
    had = some (memberRowOf had m) := by
  cases had with
  | none => simp [unchangedRow] at h
  | some r =>
    simp only [unchangedRow, Option.any_some, decide_eq_true_eq] at h
    obtain ⟨hrole, hjoined, hadded⟩ := h
    simp only [memberRowOf, Option.map_some, Option.getD_some, ← hkey r rfl, ← hrole, ← hjoined,
      ← hadded]

theorem GroupRosterView.find_eq_some_iff {view : GroupRosterView}
    (hn : (view.members.map (·.identity)).Nodup) {identity : String} {m : GroupRosterViewMember} :
    view.find identity = some m ↔ m ∈ view.members ∧ m.identity = identity := by
  constructor
  · intro h
    exact ⟨List.mem_of_find?_eq_some h, by simpa using List.find?_some h⟩
  · rintro ⟨hm, rfl⟩
    cases hf : view.find m.identity with
    | none => simpa using List.find?_eq_none.mp hf m hm
    | some m₂ =>
      have hid : m₂.identity = m.identity := by simpa using List.find?_some hf
      rw [List.inj_on_of_nodup_map hn (List.mem_of_find?_eq_some hf) hm hid]

section WriteRows

variable (store : GroupRosterStore) (g : String) (view : GroupRosterView)
  (applied : GroupViewApplied)

@[simp] theorem loadMetadata_writeRows (h : String) :
    (writeRows store g view applied).2.loadMetadata h = store.loadMetadata h := by
  rw [writeRows, GroupRosterStore.foldl_writeRow, GroupRosterStore.loadMetadata_upsertMembers,
    GroupRosterStore.loadMetadata_removeMembers]

@[simp] theorem heldRows_writeRows (h : String) :
    (writeRows store g view applied).2.heldRows h = store.heldRows h := by
  rw [writeRows, GroupRosterStore.foldl_writeRow, GroupRosterStore.heldRows_upsertMembers,
    GroupRosterStore.heldRows_removeMembers]

variable {store view}

theorem mem_gone {i : String} : i ∈ (values (store.roster g)).filterMap (fun r =>
      if view.lists r.memberIdentity then none else some r.memberIdentity) ↔
      ((store.roster g)[i]?).isSome = true ∧ view.lists i = false := by
  rw [List.mem_filterMap]
  constructor
  · rintro ⟨r, hr, hi⟩
    have hrow : (store.roster g)[r.memberIdentity]? = some r := (store.keyed_rosters g).mem_values.mp hr
    cases hlists : view.lists r.memberIdentity with
    | true => simp [hlists] at hi
    | false =>
      obtain rfl : r.memberIdentity = i := by simpa [hlists] using hi
      exact ⟨Option.isSome_of_eq_some hrow, hlists⟩
  · rintro ⟨hrow, hlists⟩
    obtain ⟨r, hr⟩ := Option.isSome_iff_exists.mp hrow
    obtain rfl := store.keyed_rosters g i r hr
    exact ⟨r, (store.keyed_rosters g).mem_values.mpr hr, by simp [hlists]⟩

/-- The rows become the view's members; the contact ids we had stay. -/
theorem roster_writeRows (hn : (view.members.map (·.identity)).Nodup) (i : String) :
    ((writeRows store g view applied).2.roster g)[i]? = (view.find i).map (memberRowOf (store.roster g)[i]?) := by
  rw [writeRows, GroupRosterStore.foldl_writeRow, GroupRosterStore.roster_upsertMembers,
    if_pos rfl, GroupRosterStore.roster_removeMembers, if_pos rfl]
  cases hfind : view.find i with
  | none =>
    have hlists : view.lists i = false := by rw [GroupRosterView.lists, hfind]; rfl
    rw [getElem?_write_of_notMem, getElem?_eraseAll]
    · cases hrow : (store.roster g)[i]? with
      | none => simp
      | some r => rw [if_pos ((mem_gone g).mpr ⟨by rw [hrow]; rfl, hlists⟩)]; rfl
    · intro r hr hi
      obtain ⟨m, hm, rfl⟩ := List.mem_map.mp hr
      have hfound := (GroupRosterView.find_eq_some_iff hn).mpr ⟨List.mem_of_mem_filter hm, hi⟩
      rw [hfind] at hfound
      cases hfound
  | some m =>
    obtain ⟨hm, rfl⟩ := (GroupRosterView.find_eq_some_iff hn).mp hfind
    have hlists : view.lists m.identity = true := by rw [GroupRosterView.lists, hfind]; rfl
    cases hsame : unchangedRow (store.roster g)[m.identity]? m with
    | true =>
      -- the row stands, and no other member is written under its account
      rw [getElem?_write_of_notMem, getElem?_eraseAll, if_neg]
      · exact rowOf_of_unchanged (fun r hr => store.keyed_rosters g _ r hr) hsame
      · intro hgone
        have hout := ((mem_gone g).mp hgone).2
        rw [hlists] at hout
        cases hout
      · intro r hr hi
        obtain ⟨m₂, hm₂, rfl⟩ := List.mem_map.mp hr
        obtain ⟨hm₂, hnew⟩ := List.mem_filter.mp hm₂
        obtain rfl := List.inj_on_of_nodup_map hn hm₂ hm hi
        simp [hsame] at hnew
    | false =>
      have hwritten : memberRowOf (store.roster g)[m.identity]? m ∈
          (view.members.filter fun m => !unchangedRow (store.roster g)[m.identity]? m).map
            fun m => memberRowOf (store.roster g)[m.identity]? m :=
        List.mem_map.mpr ⟨m, List.mem_filter.mpr ⟨hm, by simp [hsame]⟩, rfl⟩
      refine getElem?_write_of_mem (·.memberIdentity) ?_ _ hwritten
      rw [List.map_map]
      exact hn.sublist (List.filter_sublist.map _)

end WriteRows

/-! ## Held changes -/

/-- The row gets its line in the chat now. -/
def getsLine (view : GroupRosterView) (row : StoredGroupChange) : Bool :=
  !row.lineShown && (view.verdict row.changeId).any (·.status = .applied) &&
    (parseChange row).isSome

def StoredGroupChange.shown (row : StoredGroupChange) : StoredGroupChange :=
  { row with lineShown := true }

theorem foldl_settleStep (view : GroupRosterView) (rows : List StoredGroupChange)
    (acc : List GroupChange) (store : GroupRosterStore) : rows.foldl (settleStep view) (acc, store) =
      (acc ++ (rows.filter (getsLine view)).filterMap parseChange,
        ((rows.filter (getsLine view)).map (·.shown)).foldl (·.upsertGroupChange ·) store) := by
  induction rows generalizing acc store with
  | nil => simp
  | cons row rows ih =>
    rw [List.foldl_cons]
    cases hline : getsLine view row with
    | false =>
      have hstep : settleStep view (acc, store) row = (acc, store) := by
        unfold settleStep
        cases hshown : row.lineShown with
        | true => simp
        | false =>
          cases happlied : (view.verdict row.changeId).any (·.status = .applied) with
          | false => simp
          | true =>
            have hnone : parseChange row = none := by
              simpa [getsLine, hshown, happlied] using hline
            simp [hnone]
      rw [hstep, ih, List.filter_cons_of_neg (by simp [hline])]
    | true =>
      obtain ⟨⟨hshown, happlied⟩, hsome⟩ := by
        simpa only [getsLine, Bool.and_eq_true, Bool.not_eq_true'] using hline
      obtain ⟨change, hchange⟩ := Option.isSome_iff_exists.mp hsome
      have hstep : settleStep view (acc, store) row =
          (acc ++ [change], store.upsertGroupChange row.shown) := by
        unfold settleStep
        simp [hshown, happlied, hchange, StoredGroupChange.shown]
      rw [hstep, ih, List.filter_cons_of_pos hline, List.filterMap_cons_some hchange,
        List.map_cons, List.foldl_cons, List.append_assoc, List.singleton_append]

namespace GroupRosterStore

section Marking

variable {store : GroupRosterStore} {g : String} (rows : List StoredGroupChange)

@[simp] theorem loadMetadata_upsertGroupChanges (h : String) :
    (rows.foldl (·.upsertGroupChange ·) store).loadMetadata h = store.loadMetadata h := by
  induction rows generalizing store with
  | nil => rfl
  | cons r rows ih => rw [List.foldl_cons, ih, loadMetadata_upsertGroupChange]

variable {rows}

theorem heldRows_upsertGroupChanges (hg : ∀ r ∈ rows, r.groupId = g) :
    (rows.foldl (·.upsertGroupChange ·) store).heldRows g =
      rows.foldl (fun m r => m.insert r.changeId r) (store.heldRows g) := by
  induction rows generalizing store with
  | nil => rfl
  | cons r rows ih =>
    rw [List.foldl_cons, ih fun r hr => hg r (List.mem_cons_of_mem _ hr), List.foldl_cons,
      heldRows_upsertGroupChange, hg r List.mem_cons_self, if_pos rfl]

end Marking

theorem keyed_heldRows (store : GroupRosterStore) (g : String) :
    Keyed (·.changeId) (store.heldRows g) := (store.keyed_changes g).keyed

theorem mem_listGroupChanges {store : GroupRosterStore} {g : String} {row : StoredGroupChange} :
    row ∈ store.listGroupChanges g ↔ (store.heldRows g)[row.changeId]? = some row :=
  (store.keyed_heldRows g).mem_values

theorem groupId_of_listed {store : GroupRosterStore} {g : String} {row : StoredGroupChange}
    (h : row ∈ store.listGroupChanges g) : row.groupId = g :=
  (store.keyed_changes g _ row (mem_listGroupChanges.mp h)).1

theorem listed_sorted (store : GroupRosterStore) (g : String) :
    ((store.listGroupChanges g).map (·.changeId)).Pairwise (· < ·) := by
  rw [listGroupChanges, (store.keyed_heldRows g).map_values]
  exact Std.ExtTreeMap.ordered_keys.imp compare_lt_iff_lt.mp

theorem nodup_listed (store : GroupRosterStore) (g : String) :
    ((store.listGroupChanges g).map (·.changeId)).Nodup := (store.listed_sorted g).imp ne_of_lt

end GroupRosterStore

section SettleHeld

variable (store : GroupRosterStore) (g : String) (unreadable : List String)
  (view : GroupRosterView)

theorem settleHeld_eq : settleHeld store g (store.listGroupChanges g) unreadable view =
      (((store.listGroupChanges g).filter (getsLine view)).filterMap parseChange,
        (((store.listGroupChanges g).filter (getsLine view)).map (·.shown)).foldl (·.upsertGroupChange ·)
          (store.deleteGroupChanges g (droppedIds unreadable view))) := by
  rw [settleHeld, foldl_settleStep, List.nil_append]

@[simp] theorem loadMetadata_settleHeld (h : String) :
    (settleHeld store g (store.listGroupChanges g) unreadable view).2.loadMetadata h = store.loadMetadata h := by
  rw [settleHeld_eq]
  simp

/-- A row that gets its line is marked; of the others those not dropped
stay. -/
theorem heldRows_settleHeld (id : String) :
    ((settleHeld store g (store.listGroupChanges g) unreadable view).2.heldRows g)[id]? =
      ((store.heldRows g)[id]?).bind fun row => if getsLine view row then some row.shown
        else if id ∈ droppedIds unreadable view then none else some row := by
  have hgroup : ∀ r ∈ ((store.listGroupChanges g).filter (getsLine view)).map (·.shown),
      r.groupId = g := by
    intro r hr
    obtain ⟨row, hrow, rfl⟩ := List.mem_map.mp hr
    show row.groupId = g
    exact GroupRosterStore.groupId_of_listed (List.mem_of_mem_filter hrow)
  have hnodup : ((((store.listGroupChanges g).filter (getsLine view)).map (·.shown)).map
      (·.changeId)).Nodup := by
    rw [List.map_map]
    exact (store.nodup_listed g).sublist (List.filter_sublist.map _)
  rw [settleHeld_eq, GroupRosterStore.heldRows_upsertGroupChanges hgroup,
    GroupRosterStore.heldRows_deleteGroupChanges, if_pos rfl]
  by_cases hmarked : ∃ row, (store.heldRows g)[id]? = some row ∧ getsLine view row = true
  · obtain ⟨row, hrow, hline⟩ := hmarked
    obtain rfl : row.changeId = id := store.keyed_heldRows g _ _ hrow
    have hmem : row.shown ∈ ((store.listGroupChanges g).filter (getsLine view)).map (·.shown) :=
      List.mem_map.mpr ⟨row, List.mem_filter.mpr
        ⟨GroupRosterStore.mem_listGroupChanges.mpr hrow, hline⟩, rfl⟩
    rw [hrow, Option.bind_some, if_pos hline]
    exact getElem?_write_of_mem (·.changeId) hnodup _ hmem
  · rw [getElem?_write_of_notMem, getElem?_eraseAll]
    · cases hrow : (store.heldRows g)[id]? with
      | none => simp
      | some row =>
        rw [Option.bind_some, if_neg fun hline => hmarked ⟨row, hrow, hline⟩]
    · intro r hr hid
      obtain ⟨row, hrow, rfl⟩ := List.mem_map.mp hr
      obtain ⟨hrow, hline⟩ := List.mem_filter.mp hrow
      exact hmarked ⟨row, hid ▸ GroupRosterStore.mem_listGroupChanges.mp hrow, hline⟩

end SettleHeld

/-! ## Metadata -/

section UpdateMetadata

variable (held : GroupRosterStatement) (view : GroupRosterView) (m : GroupMetadata)

@[simp] theorem updateMetadata_groupId : (updateMetadata held view m).groupId = m.groupId := by
  unfold updateMetadata
  split <;> rfl

@[simp] theorem updateMetadata_held : (updateMetadata held view m).held = m.held := by
  unfold updateMetadata
  split <;> rfl

@[simp] theorem updateMetadata_syncState : (updateMetadata held view m).syncState = m.syncState := by
  unfold updateMetadata
  split <;> rfl

@[simp] theorem updateMetadata_ownerIdentity : (updateMetadata held view m).ownerIdentity = held.ownerIdentity := by
  unfold updateMetadata
  split <;> rfl

@[simp] theorem updateMetadata_rosterEpoch : (updateMetadata held view m).rosterEpoch = held.rosterEpoch := by
  unfold updateMetadata
  split <;> rfl

@[simp] theorem updateMetadata_policy : (updateMetadata held view m).policy = { preset := held.preset } := by
  unfold updateMetadata
  split <;> rfl

/-- Metadata that is the same already is what `updateMetadata` gives. -/
theorem updateMetadata_of_same (h : sameMetadata (updateMetadata held view m) m = true) :
    updateMetadata held view m = m := by
  simp only [sameMetadata, decide_eq_true_eq] at h
  obtain ⟨howner, hepoch, hpreset, htitle, hversion⟩ := h
  unfold updateMetadata at howner hepoch hpreset htitle hversion ⊢
  cases m with
  | mk groupId ownerIdentity title rosterEpoch policy titleVersion json syncState request at_ =>
    cases policy with
    | mk preset =>
      split at howner <;> simp_all

end UpdateMetadata

/-! ## The apply path -/

def heldStatement (store : GroupRosterStore) (groupId : String) : Option GroupRosterStatement :=
  (store.loadMetadata groupId).bind (·.held)

/-- The view of `held` with the changes a group holds. -/
def heldView (K : GroupCrypto) (store : GroupRosterStore) (groupId : String)
    (held : GroupRosterStatement) (cards : GroupCardLookup) (nowMs : Int) : GroupRosterView :=
  computeRosterChecked held (checkChanges K (heldChanges store groupId) cards nowMs) nowMs

/-- The ids of the held rows that read as no change of the group. -/
def unreadableIds (store : GroupRosterStore) (groupId : String) : List String :=
  ((store.listGroupChanges groupId).filter (parseChange · |>.isNone)).map (·.changeId)

section ApplyView

variable {K : GroupCrypto} {store : GroupRosterStore} {g : String} {cards : GroupCardLookup}
  {now : Int} {m : GroupMetadata} {result : GroupViewApplied × GroupRosterStore}

theorem applyView_missing (hm : store.loadMetadata g = none) :
    applyView K store g cards now = .error ("Group metadata not found: " ++ g) := by
  simp [applyView, GroupRosterStore.metadataOf, hm]

theorem applyView_dissolved (hm : store.loadMetadata g = some m) (hd : m.syncState = .dissolved) :
    applyView K store g cards now = .ok ({},
      store.deleteGroupChanges g ((store.listGroupChanges g).map (·.changeId))) := by
  simp [applyView, GroupRosterStore.metadataOf, hm, hd]

/-- With no statement held, or an older one, the roster is left as it is. -/
theorem applyView_idle (hm : store.loadMetadata g = some m) (hd : m.syncState ≠ .dissolved)
    (hold : ∀ held ∈ m.held, held.rosterEpoch < m.rosterEpoch) : applyView K store g cards now = .ok ({}, store) := by
  cases hheld : m.held with
  | none =>
    simp [applyView, GroupRosterStore.metadataOf, hm, hd, hheld]
  | some held =>
    have hlt := hold held hheld
    simp [applyView, GroupRosterStore.metadataOf, hm, hd, hheld, hlt]

/-- What the apply path settles, writes and says of `held`'s view. -/
def settledBy (store : GroupRosterStore) (g : String) (view : GroupRosterView) :
    List GroupChange × GroupRosterStore :=
  settleHeld store g (store.listGroupChanges g) (unreadableIds store g) view

def writtenBy (store : GroupRosterStore) (g : String) (view : GroupRosterView) :
    GroupViewApplied × GroupRosterStore :=
  writeRows (settledBy store g view).2 g view { newlyApplied := (settledBy store g view).1 }

def appliedBy (store : GroupRosterStore) (g : String) (held : GroupRosterStatement)
    (view : GroupRosterView) (m : GroupMetadata) : GroupViewApplied × GroupRosterStore :=
  let updated := updateMetadata held view m
  ({ (writtenBy store g view).1 with
      newTitle := if updated.title ≠ m.title then some updated.title else none
      view := some view },
    if sameMetadata updated m then (writtenBy store g view).2
    else (writtenBy store g view).2.upsertMetadata updated)

theorem applyView_eq (hm : store.loadMetadata g = some m) (hd : m.syncState ≠ .dissolved)
    {held : GroupRosterStatement} (hheld : m.held = some held) (hepoch : m.rosterEpoch ≤ held.rosterEpoch) :
    applyView K store g cards now = .ok (appliedBy store g held (heldView K store g held cards now) m) := by
  have hlt : ¬ held.rosterEpoch < m.rosterEpoch := by omega
  unfold applyView
  simp only [GroupRosterStore.metadataOf, hm, hd, hheld, hlt, bind, Except.bind, pure,
    Except.pure, if_false, loadMetadata_writeRows, loadMetadata_settleHeld]
  rfl

@[simp] theorem loadMetadata_writtenBy (view : GroupRosterView) (h : String) :
    (writtenBy store g view).2.loadMetadata h = store.loadMetadata h := by
  rw [writtenBy, loadMetadata_writeRows, settledBy, loadMetadata_settleHeld]

section

variable (hm : store.loadMetadata g = some m) (held : GroupRosterStatement) (view : GroupRosterView)
include hm held view

/-- The metadata after the apply path: it follows the statement. -/
theorem loadMetadata_appliedBy :
    (appliedBy store g held view m).2.loadMetadata g = some (updateMetadata held view m) := by
  have hgroup : m.groupId = g := GroupRosterStore.groupId_of_loadMetadata hm
  unfold appliedBy
  dsimp only
  cases hsame : sameMetadata (updateMetadata held view m) m with
  | true =>
    rw [if_pos rfl, loadMetadata_writtenBy, hm, updateMetadata_of_same held view m hsame]
  | false =>
    rw [if_neg (by simp), GroupRosterStore.loadMetadata_upsertMetadata, updateMetadata_groupId,
      hgroup, if_pos rfl]

theorem loadMetadata_appliedBy_other {h : String} (hne : h ≠ g) :
    (appliedBy store g held view m).2.loadMetadata h = store.loadMetadata h := by
  have hgroup : m.groupId = g := GroupRosterStore.groupId_of_loadMetadata hm
  unfold appliedBy
  dsimp only
  cases hsame : sameMetadata (updateMetadata held view m) m with
  | true => rw [if_pos rfl, loadMetadata_writtenBy]
  | false =>
    rw [if_neg (by simp), GroupRosterStore.loadMetadata_upsertMetadata, updateMetadata_groupId,
      hgroup, if_neg hne, loadMetadata_writtenBy]

end

theorem applyView_cases (h : applyView K store g cards now = .ok result) :
    ∃ m, store.loadMetadata g = some m ∧ ((m.syncState = .dissolved ∧ result = ({},
          store.deleteGroupChanges g ((store.listGroupChanges g).map (·.changeId)))) ∨
        (m.syncState ≠ .dissolved ∧ (∀ held ∈ m.held, held.rosterEpoch < m.rosterEpoch) ∧
          result = ({}, store)) ∨ ∃ held, m.syncState ≠ .dissolved ∧ m.held = some held ∧
          m.rosterEpoch ≤ held.rosterEpoch ∧
          result = appliedBy store g held (heldView K store g held cards now) m) := by
  cases hm : store.loadMetadata g with
  | none =>
    rw [applyView_missing hm] at h
    cases h
  | some m =>
    refine ⟨m, rfl, ?_⟩
    by_cases hd : m.syncState = .dissolved
    · rw [applyView_dissolved hm hd] at h
      exact .inl ⟨hd, (Except.ok.inj h).symm⟩
    by_cases hold : ∀ held ∈ m.held, held.rosterEpoch < m.rosterEpoch
    · rw [applyView_idle hm hd hold] at h
      exact .inr (.inl ⟨hd, hold, (Except.ok.inj h).symm⟩)
    · obtain ⟨held, hheld, hepoch⟩ : ∃ held ∈ m.held, ¬ held.rosterEpoch < m.rosterEpoch := by
        simpa only [not_forall, exists_prop] using hold
      rw [applyView_eq hm hd hheld (Nat.le_of_not_lt hepoch)] at h
      exact .inr (.inr ⟨held, hd, hheld, Nat.le_of_not_lt hepoch, (Except.ok.inj h).symm⟩)

theorem heldStatement_applyView (h : applyView K store g cards now = .ok result) (other : String) :
    heldStatement result.2 other = heldStatement store other := by
  obtain ⟨m, hm, ⟨-, rfl⟩ | ⟨-, -, rfl⟩ | ⟨held, -, hheld, -, rfl⟩⟩ := applyView_cases h
  · rw [heldStatement, GroupRosterStore.loadMetadata_deleteGroupChanges]
    rfl
  · rfl
  · rw [heldStatement, heldStatement]
    by_cases hg : other = g
    · rw [hg, loadMetadata_appliedBy hm, hm, Option.bind_some, Option.bind_some,
        updateMetadata_held]
    · rw [loadMetadata_appliedBy_other hm held _ hg]

end ApplyView

/-! ## Keeping a statement -/

section KeepStatement

variable {K : GroupCrypto} {store after : GroupRosterStore} {s : GroupRosterStatement}

/-- The metadata with `s` as the statement held. -/
def GroupMetadata.keeping (m : GroupMetadata) (s : GroupRosterStatement) : GroupMetadata :=
  { m with rosterStatementJson := some s.toJson, policy := { preset := s.preset } }

/-- The ways keeping a statement can go: it is not kept and nothing
changes, or it was a valid one of a group that goes on, and won. -/
theorem keepStatement_cases {kept : Bool} (h : keepStatement K store s = .ok (kept, after)) :
    s.dissolved = false ∧ ∃ m, store.loadMetadata s.groupId = some m ∧ ((kept = false ∧ after = store) ∨
        (kept = true ∧ m.syncState ≠ .dissolved ∧ s.verify K m.ownerIdentity = .ok () ∧
          candidateWins m.held s = true ∧ after = store.upsertMetadata (m.keeping s))) := by
  unfold keepStatement GroupRosterStore.metadataOf at h
  cases hd : s.dissolved with
  | true => simp [hd] at h
  | false =>
  refine ⟨rfl, ?_⟩
  cases hm : store.loadMetadata s.groupId with
  | none => simp [hd, hm] at h
  | some m =>
  refine ⟨m, rfl, ?_⟩
  simp only [hd, hm, bind, Except.bind, pure, Except.pure, Bool.false_eq_true, if_false] at h
  by_cases hover : m.syncState = .dissolved
  · rw [if_pos hover] at h
    obtain ⟨hkept, hafter⟩ := Prod.mk.inj (Except.ok.inj h)
    exact .inl ⟨hkept.symm, hafter.symm⟩
  rw [if_neg hover] at h
  cases hverify : s.verify K m.ownerIdentity with
  | error e => simp [hverify] at h
  | ok u =>
  cases hwins : candidateWins m.held s with
  | false =>
    simp only [hverify, hwins, Bool.not_false, if_true] at h
    obtain ⟨hkept, hafter⟩ := Prod.mk.inj (Except.ok.inj h)
    exact .inl ⟨hkept.symm, hafter.symm⟩
  | true =>
    simp only [hverify, hwins, Bool.not_true, Bool.false_eq_true, if_false] at h
    obtain ⟨hkept, hafter⟩ := Prod.mk.inj (Except.ok.inj h)
    exact .inr ⟨hkept.symm, hover, rfl, rfl, hafter.symm⟩

theorem heldStatement_kept (hs : s.Storable) {m : GroupMetadata}
    (hm : store.loadMetadata s.groupId = some m) (other : String) :
    heldStatement (store.upsertMetadata (m.keeping s)) other =
      if other = s.groupId then some s.stored else heldStatement store other := by
  have hgroup : m.groupId = s.groupId := GroupRosterStore.groupId_of_loadMetadata hm
  have hkeeping : (m.keeping s).groupId = s.groupId := hgroup
  rw [heldStatement, GroupRosterStore.loadMetadata_upsertMetadata, hkeeping]
  by_cases hother : other = s.groupId
  · rw [if_pos hother, if_pos hother, Option.bind_some, GroupMetadata.held,
      GroupMetadata.keeping, Option.bind_some, GroupRosterStatement.fromJson_toJson hs]
    rfl
  · rw [if_neg hother, if_neg hother, heldStatement]

end KeepStatement

end Pbr
