import PpBrowser.Messaging.GroupRosterDropped
import PpBrowser.Messaging.GroupRosterFrame
import PpBrowser.Messaging.GroupSignedJson

/-!
# GroupChangeHeld — another copy of a held change

Copies of one change differ in what is not signed: the signature and the
card they carry. `HoldChange` writes a new copy over the one it has unless
that one carries a card and the new one none; when the change is proved
still is decided by the cards that are left.
-/

namespace Pbr

open Lib GroupRosterStore

/-! ## What a held change proves -/

/-- Some copy of the change `id` is proved over `changes`. -/
def provedIn (K : GroupCrypto) (changes : List GroupChange) (cards : GroupCardLookup) (now : Int)
    (id : String) : Bool :=
  (checkChanges K changes cards now).any fun c => c.id = id ∧ c.proof = .proved

/-- The chat has its line for the held change `id`. -/
def lineShownFor (store : GroupRosterStore) (g id : String) : Bool :=
  ((store.heldRows g)[id]?).any (·.lineShown)

/-- What holding another copy of the change `id` must not lower. -/
structure NotLowered (K : GroupCrypto) (store after : GroupRosterStore) (g id : String)
    (cards : GroupCardLookup) (now : Int) : Prop where
  proof : provedIn K (heldChanges store g) cards now id = true →
    provedIn K (heldChanges after g) cards now id = true
  line : lineShownFor store g id = true → lineShownFor after g id = true

section Conditions

variable (K : GroupCrypto) (store : GroupRosterStore) (c : GroupChange) (cards : GroupCardLookup)
  (now : Int)

/-- The check of a change by itself. -/
def checkAlone : CheckedGroupChange := checkOne K c (provedCards K c.signer [c] cards now)

/-- `HoldChange` leaves the copy it has: the group is not held or over, `c`
by itself is refused, or the copy carries a card and `c` none. -/
def KeepsCopy : Prop :=
  (∀ m, store.loadMetadata c.groupId = some m → m.syncState = .dissolved) ∨
    changeHeldOf (checkAlone K c cards now).proof = .refused ∨
    c.signerCard = none ∧
      (((store.heldRows c.groupId)[c.id K]?).bind parseChange).any (·.signerCard.isSome) = true

/-- The held changes with `c` in the place of the copy it replaces. -/
def inPlace : List GroupChange :=
  (store.listGroupChanges c.groupId).filterMap fun row =>
    if row.changeId = c.id K then some c else parseChange row

/-- The signature of `c` verifies for the first card that lists its device,
of those the lookup, `c` and the other held changes of its signer have. -/
def ProvesInPlace : Prop :=
  (checkOne K c (provedCards K c.signer (inPlace K store c) cards now)).proof = .proved

end Conditions

section Proved

variable {K : GroupCrypto} {cards : GroupCardLookup} {now : Int}

theorem provedIn_iff {changes : List GroupChange} (hn : (changes.map (GroupChange.id K)).Nodup)
    {id : String} : provedIn K changes cards now id = true ↔ ∃ c ∈ changes, c.id K = id ∧
      (checkOne K c (provedCards K c.signer changes cards now)).proof = .proved := by
  simp only [provedIn, List.any_eq_true, decide_eq_true_eq]
  constructor
  · rintro ⟨d, hd, hid, hproof⟩
    obtain ⟨c, hc, rfl⟩ := (mem_checkChanges_of_nodup hn).mp hd
    exact ⟨c, hc, by simpa using hid, hproof⟩
  · rintro ⟨c, hc, hid, hproof⟩
    exact ⟨_, (mem_checkChanges_of_nodup hn).mpr ⟨c, hc, rfl⟩, by simpa using hid, hproof⟩

theorem checkChanges_singleton (c : GroupChange) : checkChanges K [c] cards now = [checkAlone K c cards now] := by
  have hmem (d : CheckedGroupChange) :
      d ∈ checkChanges K [c] cards now ↔ d ∈ [checkAlone K c cards now] := by
    rw [mem_checkChanges_of_nodup (by simp)]
    simp only [List.mem_singleton, exists_eq_left]
    exact eq_comm
  have hsorted : ((checkChanges K [c] cards now).map CheckedGroupChange.id).Pairwise (· < ·) :=
    collapse_sorted _
  exact eq_of_keys_sorted CheckedGroupChange.id hsorted (by simp) hmem

end Proved

/-! ## What `HoldChange` writes -/

section Hold

variable {K : GroupCrypto} {store : GroupRosterStore} {c : GroupChange} {cards : GroupCardLookup}
  {now : Int} {g : String}

/-- A row written over another of its id takes its place. -/
theorem listGroupChanges_upsert {row new : StoredGroupChange}
    (hrow : (store.heldRows g)[new.changeId]? = some row) (hgroup : new.groupId = g) :
    (store.upsertGroupChange new).listGroupChanges g =
      (store.listGroupChanges g).map fun r => if r.changeId = new.changeId then new else r := by
  apply eq_of_keys_sorted StoredGroupChange.changeId
  · exact listed_sorted _ g
  · have hids : ((store.listGroupChanges g).map fun r => if r.changeId = new.changeId then new else r).map
        StoredGroupChange.changeId = (store.listGroupChanges g).map StoredGroupChange.changeId := by
      rw [List.map_map]
      apply List.map_congr_left
      intro r _
      show (if r.changeId = new.changeId then new else r).changeId = r.changeId
      by_cases hr : r.changeId = new.changeId
      · rw [if_pos hr, hr]
      · rw [if_neg hr]
    rw [hids]
    exact listed_sorted store g
  · intro r
    rw [mem_listGroupChanges, heldRows_upsertGroupChange, if_pos hgroup.symm, hgroup,
      Std.ExtTreeMap.getElem?_insert, List.mem_map]
    constructor
    · intro h
      by_cases hr : new.changeId = r.changeId
      · rw [if_pos (by simpa using hr), Option.some.injEq] at h
        refine ⟨row, mem_listGroupChanges.mpr ?_, ?_⟩
        · rw [(store.keyed_changes g _ row hrow).2]
          exact hrow
        · rw [if_pos (store.keyed_changes g _ row hrow).2, h]
      · rw [if_neg (by simpa using hr)] at h
        exact ⟨r, mem_listGroupChanges.mpr h, if_neg (Ne.symm hr)⟩
    · rintro ⟨r', hr', rfl⟩
      by_cases hr : r'.changeId = new.changeId
      · simp [hr]
      · rw [if_neg hr, if_neg (by simpa using Ne.symm hr)]
        exact mem_listGroupChanges.mp hr'

/-- The row `HoldChange` writes for `c`. -/
def newRow (K : GroupCrypto) (c : GroupChange) (now : Int) (shown : Bool) : StoredGroupChange :=
  { groupId := c.groupId, changeId := c.id K, changeJson := some c.toJson, receivedAt := now
    lineShown := shown }

theorem holdChange_had {row : StoredGroupChange} (hrow : (store.heldRows c.groupId)[c.id K]? = some row)
    (lineShown : Bool) : KeepsCopy K store c cards now ∧ ((holdChange K store c cards now lineShown).2 = store ∨
          (holdChange K store c cards now lineShown).2 = store.upsertGroupChange row.shown) ∨
      ¬ KeepsCopy K store c cards now ∧ (holdChange K store c cards now lineShown).2 =
        store.upsertGroupChange (newRow K c now (lineShown || row.lineShown)) := by
  have hid : (checkAlone K c cards now).id = c.id K := checkOne_id ..
  unfold holdChange
  dsimp only
  rw [checkChanges_singleton, List.head?_cons]
  cases hm : store.loadMetadata c.groupId with
  | none =>
    left
    refine ⟨.inl ?_, .inl rfl⟩
    intro m hsome
    rw [hm] at hsome
    cases hsome
  | some m =>
    dsimp only
    rw [hid, hrow]
    by_cases hrefused : m.syncState = .dissolved ∨
        changeHeldOf (checkAlone K c cards now).proof = .refused
    · rw [if_pos hrefused]
      left
      refine ⟨?_, .inl rfl⟩
      rcases hrefused with hd | hrefused
      · left
        intro m' hm'
        rw [hm] at hm'
        cases hm'
        exact hd
      · exact .inr (.inl hrefused)
    rw [if_neg hrefused, if_neg (by simp)]
    dsimp only
    by_cases hkeeps : ((some row).bind parseChange).any (·.signerCard.isSome) = true ∧
        c.signerCard.isNone = true
    · rw [if_pos hkeeps]
      left
      refine ⟨.inr (.inr ⟨Option.isNone_iff_eq_none.mp hkeeps.2, by rw [hrow]; exact hkeeps.1⟩), ?_⟩
      by_cases hshown : lineShown = true ∧ (!row.lineShown) = true
      · rw [if_pos hshown]
        exact .inr rfl
      · rw [if_neg hshown]
        exact .inl rfl
    · rw [if_neg hkeeps]
      right
      refine ⟨?_, rfl⟩
      rintro (hover | hover | hcarried)
      · exact hrefused (.inl (hover m hm))
      · exact hrefused (.inr hover)
      · rw [hrow] at hcarried
        exact hkeeps ⟨hcarried.2, by rw [hcarried.1]; rfl⟩

theorem heldChanges_upsert (new : StoredGroupChange) {row : StoredGroupChange}
    (hrow : (store.heldRows g)[new.changeId]? = some row) (hgroup : new.groupId = g) :
    heldChanges (store.upsertGroupChange new) g = (store.listGroupChanges g).filterMap fun r =>
      if r.changeId = new.changeId then parseChange new else parseChange r := by
  rw [heldChanges, listGroupChanges_upsert hrow hgroup, List.filterMap_map]
  apply List.filterMap_congr
  intro r _
  show parseChange (if r.changeId = new.changeId then new else r) = _
  rw [apply_ite parseChange]

theorem heldChanges_shown {row : StoredGroupChange} (hrow : row ∈ store.listGroupChanges g) :
    heldChanges (store.upsertGroupChange row.shown) g = heldChanges store g := by
  have hgroup : row.groupId = g := groupId_of_listed hrow
  have hheld : (store.heldRows g)[row.changeId]? = some row := mem_listGroupChanges.mp hrow
  rw [heldChanges_upsert row.shown hheld hgroup]
  apply List.filterMap_congr
  intro r hr
  by_cases hid : r.changeId = row.shown.changeId
  · rw [if_pos hid]
    obtain rfl : r = row := List.inj_on_of_nodup_map (store.nodup_listed g) hr hrow hid
    rfl
  · rw [if_neg hid]

theorem parseChange_newRow (hread : GroupChange.fromJson c.toJson = .ok c) (shown : Bool) :
    parseChange (newRow K c now shown) = some c := by
  simp only [parseChange, newRow, Option.bind_eq_bind, Option.bind_some, hread, Except.toOption, ne_eq,
    not_true_eq_false, if_false]

/-- Held beside a copy of it, `c` is in its place. -/
theorem heldChanges_newRow {row : StoredGroupChange} (hread : GroupChange.fromJson c.toJson = .ok c)
    (hrow : (store.heldRows c.groupId)[c.id K]? = some row) (shown : Bool) :
    heldChanges (store.upsertGroupChange (newRow K c now shown)) c.groupId = inPlace K store c := by
  rw [heldChanges_upsert (newRow K c now shown) hrow rfl, parseChange_newRow hread]
  rfl

/-- What `HoldChange` writes: nothing, a line mark, or the row of `c`. -/
theorem holdChange_writes (c : GroupChange) (lineShown : Bool) :
    (holdChange K store c cards now lineShown).2 = store ∨ (∃ row ∈ store.listGroupChanges c.groupId,
        (holdChange K store c cards now lineShown).2 = store.upsertGroupChange row.shown) ∨
      ∃ shown, (holdChange K store c cards now lineShown).2 = store.upsertGroupChange (newRow K c now shown) := by
  have hid : (checkAlone K c cards now).id = c.id K := checkOne_id ..
  cases hrow : (store.heldRows c.groupId)[c.id K]? with
  | some row =>
    rcases holdChange_had hrow lineShown with ⟨-, h | h⟩ | ⟨-, h⟩
    · exact .inl h
    · refine .inr (.inl ⟨row, mem_listGroupChanges.mpr ?_, h⟩)
      rw [(store.keyed_changes _ _ row hrow).2]
      exact hrow
    · exact .inr (.inr ⟨_, h⟩)
  | none =>
    unfold holdChange
    dsimp only
    rw [checkChanges_singleton, List.head?_cons]
    cases store.loadMetadata c.groupId with
    | none => exact .inl rfl
    | some m =>
      dsimp only
      rw [hid, hrow]
      split
      · exact .inl rfl
      split
      · exact .inl rfl
      · exact .inr (.inr ⟨lineShown, rfl⟩)

end Hold

/-! ## The stores the code leaves -/

/-- The stores the code's writes leave, as far as their changes go:
`HoldChange` and `SettleHeld` write them, the other writes of changes only
drop some, and what else is written leaves them alone. -/
inductive HeldWritten (K : GroupCrypto) : GroupRosterStore → Prop
  | start {store : GroupRosterStore} (h : store.changes = ∅) : HeldWritten K store
  | same {store after : GroupRosterStore} (h : HeldWritten K store) (hsame : after.changes = store.changes) :
      HeldWritten K after
  | hold {store : GroupRosterStore} (h : HeldWritten K store) {c : GroupChange}
      (hread : GroupChange.fromJson c.toJson = .ok c) (cards : GroupCardLookup) (now : Int) (lineShown : Bool) :
      HeldWritten K (holdChange K store c cards now lineShown).2
  | settle {store : GroupRosterStore} (h : HeldWritten K store) (g : String) (unreadable : List String)
      (view : GroupRosterView) :
      HeldWritten K (settleHeld store g (store.listGroupChanges g) unreadable view).2
  | delete {store : GroupRosterStore} (h : HeldWritten K store) (g : String) (ids : List String) :
      HeldWritten K (store.deleteGroupChanges g ids)
  | ended {store after : GroupRosterStore} (h : HeldWritten K store) {g : String} {ending : GroupEnding}
      (hend : store.endGroup g ending = some after) : HeldWritten K after

theorem heldRows_endGroup {store after : GroupRosterStore} {g : String} {ending : GroupEnding}
    (h : store.endGroup g ending = some after) (other : String) :
    after.heldRows other = if other = g then ∅ else store.heldRows other := by
  unfold endGroup at h
  cases hm : store.loadMetadata g with
  | none => simp [hm] at h
  | some m =>
    rw [hm] at h
    dsimp only at h
    split at h
    · cases h
    · cases h
      exact rowsOf_erase _ _ _

/-- Every row holds the change its id names, in whatever group. -/
def RowsById (K : GroupCrypto) (store : GroupRosterStore) : Prop :=
  ∀ g k row, (store.heldRows g)[k]? = some row → ∀ c ∈ parseChange row, c.id K = k

namespace RowsById

variable {K : GroupCrypto} {store after : GroupRosterStore} (h : RowsById K store)

include h

theorem heldById (g : String) : HeldById K store g := fun row hrow c hc =>
  h g row.changeId row (mem_listGroupChanges.mp hrow) c hc

theorem upsert {row : StoredGroupChange} (hrow : ∀ c ∈ parseChange row, c.id K = row.changeId) :
    RowsById K (store.upsertGroupChange row) := by
  intro g k r hr c hc
  rw [heldRows_upsertGroupChange] at hr
  by_cases hg : g = row.groupId
  · rw [if_pos hg] at hr
    rcases of_getElem?_insert hr with ⟨hk, rfl⟩ | ⟨-, hr⟩
    · rw [hrow c hc, hk]
    · exact h row.groupId k r hr c hc
  · rw [if_neg hg] at hr
    exact h g k r hr c hc

theorem less (hless : ∀ (g k : String) (row : StoredGroupChange), (after.heldRows g)[k]? = some row →
    (store.heldRows g)[k]? = some row) : RowsById K after := fun g k row hrow => h g k row (hless g k row hrow)

theorem delete (g : String) (ids : List String) : RowsById K (store.deleteGroupChanges g ids) := by
  apply h.less
  intro g' k row hrow
  rw [heldRows_deleteGroupChanges] at hrow
  split at hrow
  · next hg =>
      rw [getElem?_eraseAll] at hrow
      split at hrow
      · cases hrow
      · exact hg ▸ hrow
  · exact hrow

theorem shownAll {rows : List StoredGroupChange} {g : String} (hrows : ∀ row ∈ rows, row ∈ store.listGroupChanges g)
    {from_ : GroupRosterStore} (hfrom : RowsById K from_) :
    RowsById K ((rows.map (·.shown)).foldl (·.upsertGroupChange ·) from_) := by
  induction rows generalizing from_ with
  | nil => exact hfrom
  | cons row rows ih =>
    apply ih
    · exact fun r hr => hrows r (List.mem_cons_of_mem row hr)
    · apply hfrom.upsert
      intro c hc
      exact h.heldById g row (hrows row List.mem_cons_self) c hc

end RowsById

theorem HeldWritten.byId {K : GroupCrypto} {store : GroupRosterStore} (h : HeldWritten K store) :
    RowsById K store := by
  induction h with
  | start hnone =>
    intro g k row hrow
    simp [heldRows, rowsOf, hnone] at hrow
  | same _ hsame ih =>
    apply ih.less
    intro g k row hrow
    rw [heldRows, hsame] at hrow
    exact hrow
  | @hold store _ c hread cards now lineShown ih =>
    rcases holdChange_writes (K := K) c lineShown with
      hsame | ⟨row, hrow, hafter⟩ | ⟨shown, hafter⟩
    · rw [hsame]
      exact ih
    · rw [hafter]
      exact ih.upsert fun d hd => ih.heldById _ row hrow d hd
    · rw [hafter]
      apply ih.upsert
      intro d hd
      rw [parseChange_newRow hread] at hd
      cases hd
      rfl
  | settle _ g unreadable view ih =>
    rw [settleHeld_eq]
    apply ih.shownAll
    · exact fun row hrow => (List.mem_filter.mp hrow).1
    · exact ih.delete g _
  | delete _ g ids ih => exact ih.delete g ids
  | ended _ hend ih =>
    apply ih.less
    intro g k row hrow
    rw [heldRows_endGroup hend] at hrow
    split at hrow
    · simp at hrow
    · exact hrow

/-! ## When another copy lowers nothing -/

section Lowered

variable {K : GroupCrypto} {store : GroupRosterStore} {c : GroupChange} {cards : GroupCardLookup} {now : Int}

theorem heldRow_of_proved (hw : HeldWritten K store) {g id : String}
    (h : provedIn K (heldChanges store g) cards now id = true) : ∃ row, (store.heldRows g)[id]? = some row := by
  have hids := hw.byId.heldById g
  obtain ⟨d, hd, rfl, -⟩ := (provedIn_iff hids.nodup_ids).mp h
  obtain ⟨row, hrow, hparse⟩ := List.mem_filterMap.mp hd
  refine ⟨row, ?_⟩
  rw [hids row hrow d hparse]
  exact mem_listGroupChanges.mp hrow

/-- Over the changes left, `c` in its place, its id is proved when `c` is. -/
theorem provedIn_inPlace (hn : ((inPlace K store c).map (GroupChange.id K)).Nodup)
    {row : StoredGroupChange} (hrow : (store.heldRows c.groupId)[c.id K]? = some row) :
    provedIn K (inPlace K store c) cards now (c.id K) = true ↔ ProvesInPlace K store c cards now := by
  have hrowId : row.changeId = c.id K := (store.keyed_changes _ _ row hrow).2
  have hc : c ∈ inPlace K store c := by
    refine List.mem_filterMap.mpr ⟨row, mem_listGroupChanges.mpr ?_, if_pos hrowId⟩
    rw [hrowId]
    exact hrow
  rw [provedIn_iff hn]
  constructor
  · rintro ⟨d, hd, hid, hproof⟩
    obtain rfl : d = c := List.inj_on_of_nodup_map hn hd hc hid
    exact hproof
  · exact fun hproof => ⟨c, hc, rfl, hproof⟩

/-- Holding another copy of a change leaves it proved and its line mark set
just when `HoldChange` leaves the copy it has, none was proved, or the new
copy proves itself over the cards that are left. -/
theorem holdChange_not_lowered (hw : HeldWritten K store) (hread : GroupChange.fromJson c.toJson = .ok c)
    (lineShown : Bool) :
    NotLowered K store (holdChange K store c cards now lineShown).2 c.groupId (c.id K) cards now ↔
      KeepsCopy K store c cards now ∨
        provedIn K (heldChanges store c.groupId) cards now (c.id K) = false ∨
        ProvesInPlace K store c cards now := by
  cases hrow : (store.heldRows c.groupId)[c.id K]? with
  | none =>
    -- no copy is held: nothing is proved and no line is shown
    have hproved : provedIn K (heldChanges store c.groupId) cards now (c.id K) = false := by
      by_contra hne
      obtain ⟨row, hsome⟩ := heldRow_of_proved hw (by simpa using hne)
      rw [hrow] at hsome
      cases hsome
    have hline : lineShownFor store c.groupId (c.id K) = false := by
      rw [lineShownFor, hrow]
      rfl
    refine iff_of_true ⟨?_, ?_⟩ (.inr (.inl hproved))
    · intro h
      rw [hproved] at h
      cases h
    · intro h
      rw [hline] at h
      cases h
  | some row =>
    have hrowId : row.changeId = c.id K := (store.keyed_changes _ _ row hrow).2
    have hlisted : row ∈ store.listGroupChanges c.groupId := by
      rw [mem_listGroupChanges, hrowId]
      exact hrow
    have hgroup : row.groupId = c.groupId := groupId_of_listed hlisted
    rcases holdChange_had hrow lineShown with
      ⟨hkeeps, hsame | hshown⟩ | ⟨hkeeps, hnew⟩
    · rw [hsame]
      exact iff_of_true ⟨id, id⟩ (.inl hkeeps)
    · rw [hshown]
      refine iff_of_true ⟨?_, ?_⟩ (.inl hkeeps)
      · rw [heldChanges_shown hlisted]
        exact id
      · intro _
        rw [lineShownFor, heldRows_upsertGroupChange]
        simp [StoredGroupChange.shown, hgroup, hrowId]
    · have hwritten : HeldWritten K (store.upsertGroupChange
          (newRow K c now (lineShown || row.lineShown))) := by
        rw [← hnew]
        exact hw.hold hread cards now lineShown
      have hn := (hwritten.byId.heldById c.groupId).nodup_ids
      rw [hnew]
      rw [heldChanges_newRow hread hrow] at hn
      have hline : lineShownFor store c.groupId (c.id K) = true →
          lineShownFor (store.upsertGroupChange (newRow K c now (lineShown || row.lineShown)))
            c.groupId (c.id K) = true := by
        intro h
        rw [lineShownFor, hrow, Option.any_some] at h
        rw [lineShownFor, heldRows_upsertGroupChange]
        simp [newRow, h]
      have hproof := @provedIn_inPlace _ _ _ cards now hn _ hrow
      rw [← heldChanges_newRow hread hrow] at hproof
      constructor
      · intro h
        right
        cases hbefore : provedIn K (heldChanges store c.groupId) cards now (c.id K) with
        | false => exact .inl rfl
        | true => exact .inr (hproof.mp (h.proof hbefore))
      · rintro (h | hbefore | hproves)
        · exact absurd h hkeeps
        · refine ⟨?_, hline⟩
          intro h
          rw [hbefore] at h
          cases h
        · exact ⟨fun _ => hproof.mpr hproves, hline⟩

end Lowered

/-! ### A copy with a card of nobody's -/

namespace HeldSample

/-- A card of `account` that lists one device. -/
def card (account device : String) : AccountCard :=
  { keys := { accountId := account, signingPublicKeyB64 := "k", kemPublicKeyB64 := "k"
              kemBindingSignatureB64 := "b" }
    devices := [{ peerId := device, signingPublicKeyB64 := "k", kemPublicKeyB64 := "k" }]
    cardSignatureB64 := "c" }

/-- The add the admin `a` signs, with a card that lists its device. -/
def carried : GroupChange := { sampleSignedAdd "s" with signerCard := some (card "a" "d") }

/-- The same add with the card of someone else. -/
def foreign : GroupChange := { sampleSignedAdd "s" with signerCard := some (card "z" "e") }

/-- No card is known. -/
def noCards : GroupCardLookup := fun _ => none

/-- A device that holds the group and the add as it came. -/
def held : GroupRosterStore :=
  (holdChange sampleCrypto (({} : GroupRosterStore).upsertMetadata { groupId := "g" }) carried noCards 0
    false).2

theorem held_written : HeldWritten sampleCrypto held := by
  apply HeldWritten.hold
  · exact .start rfl
  · decide

end HeldSample

open HeldSample in
set_option maxRecDepth 20000 in
/-- The copy held proves itself by the card it carries; a copy with a card
of someone else, which proves nothing, takes its place. -/
theorem foreign_card_lowers : HeldWritten sampleCrypto held ∧
    ¬ NotLowered sampleCrypto held (holdChange sampleCrypto held foreign noCards 0 false).2 "g"
      (foreign.id sampleCrypto) noCards 0 := by
  refine ⟨held_written, fun h => ?_⟩
  have hbefore : provedIn sampleCrypto (heldChanges held "g") noCards 0 (foreign.id sampleCrypto) = true := by
    decide
  have hafter : provedIn sampleCrypto (heldChanges
      (holdChange sampleCrypto held foreign noCards 0 false).2 "g") noCards 0
        (foreign.id sampleCrypto) = false := by
    decide
  have hproved := h.proof hbefore
  rw [hafter] at hproved
  cases hproved

open HeldSample in
set_option maxRecDepth 20000 in
theorem holdChange_not_lowered_sample :
    NotLowered sampleCrypto held (holdChange sampleCrypto held carried noCards 0 true).2 "g"
      (carried.id sampleCrypto) noCards 0 := by
  have hread : GroupChange.fromJson carried.toJson = .ok carried := by decide
  have hproves : ProvesInPlace sampleCrypto held carried noCards 0 := by
    unfold ProvesInPlace
    decide
  exact (holdChange_not_lowered held_written hread true).mpr (.inr (.inr hproves))

end Pbr
