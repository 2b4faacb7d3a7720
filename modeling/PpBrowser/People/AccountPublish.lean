import PpBrowser.Lib.TableMerge
import PpBrowser.People.ContactClock

/-!
# AccountPublish — publishing settles and loses nothing

`MergeForPublish` merges five tables by five rules. Each is known by its
lookups: of groups and floors the two sides' rows meet, a register is the
stored one unless ours is newer, and a row goes with its register. A merge
that meets its own result again writes nothing.
-/

namespace Pbr.AccountLocker

open Lib

variable {a b ours stored state m : AccountLockerState} {id account provider : String}

/-- No list has two entries of one id. -/
structure UniqueIds (state : AccountLockerState) : Prop where
  clock : DistinctKeys (·.accountId) state.contactClock
  groups : DistinctKeys (·.groupId) state.extras.groups
  floors : DistinctKeys (·.accountId) state.extras.cardFloors
  providers : state.providers.Nodup

instance (state : AccountLockerState) : Decidable (UniqueIds state) :=
  decidable_of_iff (DistinctKeys (·.accountId) state.contactClock ∧ DistinctKeys (·.groupId) state.extras.groups ∧
      DistinctKeys (·.accountId) state.extras.cardFloors ∧ state.providers.Nodup)
    ⟨fun ⟨clock, groups, floors, providers⟩ => ⟨clock, groups, floors, providers⟩,
      fun h => ⟨h.clock, h.groups, h.floors, h.providers⟩⟩

def groupOf (state : AccountLockerState) (id : String) : Option AccountStateGroup :=
  rowOf (·.groupId) id state.extras.groups

def floorOf (state : AccountLockerState) (account : String) : Option AccountCardFloor :=
  rowOf (·.accountId) account state.extras.cardFloors

/-! ## Groups -/

variable {mine theirs : AccountStateGroup} {providers : List String}

theorem mergeGroup_cases (mine theirs : AccountStateGroup) :
    mergeGroup mine theirs = mine ∨ mergeGroup mine theirs = theirs := by
  rw [mergeGroup]
  split <;> split
  · exact .inr rfl
  · exact .inl rfl
  · exact .inr rfl
  · exact .inl rfl

theorem mergeGroup_groupId (mine theirs : AccountStateGroup) (h : mine.groupId = theirs.groupId) :
    (mergeGroup mine theirs).groupId = theirs.groupId := by
  rcases mergeGroup_cases mine theirs with heq | heq
  · rw [heq, h]
  · rw [heq]

theorem mergeGroup_self (mine : AccountStateGroup) : mergeGroup mine mine = mine := by
  rcases mergeGroup_cases mine mine with heq | heq
  · exact heq
  · exact heq

theorem mergeGroup_absorbs (mine theirs : AccountStateGroup) :
    mergeGroup mine (mergeGroup mine theirs) = mergeGroup mine theirs := by
  rcases mergeGroup_cases mine theirs with heq | heq
  · rw [heq]
    exact mergeGroup_self mine
  · rw [heq, heq]

theorem mergeGroup_dissolved (mine theirs : AccountStateGroup) :
    (mergeGroup mine theirs).dissolved = (mine.dissolved || theirs.dissolved) := by
  rw [mergeGroup]
  cases hmine : mine.dissolved <;> cases htheirs : theirs.dissolved <;> simp [hmine, htheirs]
  · split <;> assumption
  · split <;> assumption

/-- Of copies that are not ended, or are both, the greater epoch is kept. -/
theorem mergeGroup_rosterEpoch (h : mine.dissolved = theirs.dissolved) :
    (mergeGroup mine theirs).rosterEpoch = max mine.rosterEpoch theirs.rosterEpoch := by
  rw [mergeGroup]
  by_cases hdissolved : mine.dissolved
  · have htheirs : theirs.dissolved := h ▸ hdissolved
    simp only [hdissolved, htheirs, true_or, if_true, Bool.not_true, Bool.false_eq_true, false_or, true_and]
    split <;> omega
  · have htheirs : ¬ theirs.dissolved := h ▸ hdissolved
    rw [if_neg (not_or.mpr ⟨hdissolved, htheirs⟩)]
    split <;> omega

theorem mergeGroup_of_dissolved (h : mine.dissolved ≠ theirs.dissolved) :
    mergeGroup mine theirs = if mine.dissolved then mine else theirs := by
  rw [mergeGroup]
  cases hmine : mine.dissolved <;> cases htheirs : theirs.dissolved <;> simp_all

theorem mergeGroup_left (hmine : ¬ mine.dissolved) (htheirs : ¬ theirs.dissolved)
    (hepoch : mine.rosterEpoch = theirs.rosterEpoch) :
    (mergeGroup mine theirs).left = (mine.left || theirs.left) := by
  rw [mergeGroup, if_neg (not_or.mpr ⟨hmine, htheirs⟩), hepoch]
  cases hleft : mine.left <;> cases hleft' : theirs.left <;> simp [hleft, hleft']

/-- Two ended copies of one epoch whose marks differ. -/
def EndedApart (mine theirs : AccountStateGroup) : Prop :=
  mine.dissolved ∧ theirs.dissolved ∧ mine.rosterEpoch = theirs.rosterEpoch ∧ mine.left ≠ theirs.left

instance : Decidable (EndedApart mine theirs) := inferInstanceAs (Decidable (_ ∧ _))

theorem mergeGroup_symm (mine theirs : AccountStateGroup) :
    (mergeGroup mine theirs).dissolved = (mergeGroup theirs mine).dissolved ∧
    (mergeGroup mine theirs).rosterEpoch = (mergeGroup theirs mine).rosterEpoch ∧
    (¬ EndedApart mine theirs → (mergeGroup mine theirs).left = (mergeGroup theirs mine).left) := by
  refine ⟨?_, ?_, ?_⟩
  · rw [mergeGroup_dissolved, mergeGroup_dissolved, Bool.or_comm]
  · by_cases h : mine.dissolved = theirs.dissolved
    · rw [mergeGroup_rosterEpoch h, mergeGroup_rosterEpoch h.symm, Nat.max_comm]
    · rw [mergeGroup_of_dissolved h, mergeGroup_of_dissolved (Ne.symm h)]
      cases hmine : mine.dissolved <;> cases htheirs : theirs.dissolved <;> simp_all
  · intro hapart
    by_cases hne : mine.dissolved = theirs.dissolved
    · by_cases hepoch : mine.rosterEpoch = theirs.rosterEpoch
      · by_cases hdissolved : mine.dissolved
        · have hleft : mine.left = theirs.left := by
            by_contra hleft
            exact hapart ⟨hdissolved, hne ▸ hdissolved, hepoch, hleft⟩
          rcases mergeGroup_cases mine theirs with heq | heq <;>
            rcases mergeGroup_cases theirs mine with heq' | heq' <;> simp [heq, heq', hleft]
        · have htheirs : ¬ theirs.dissolved := hne ▸ hdissolved
          rw [mergeGroup_left hdissolved htheirs hepoch, mergeGroup_left htheirs hdissolved hepoch.symm, Bool.or_comm]
      · -- the copy of the greater epoch is kept from both sides
        have hsame : mergeGroup mine theirs = mergeGroup theirs mine := by
          have hmax := mergeGroup_rosterEpoch hne
          have hmax' := mergeGroup_rosterEpoch hne.symm
          rcases mergeGroup_cases mine theirs with heq | heq <;>
            rcases mergeGroup_cases theirs mine with heq' | heq' <;> rw [heq] at hmax ⊢ <;>
            rw [heq'] at hmax' ⊢ <;> omega
        rw [hsame]
    · rw [mergeGroup_of_dissolved hne, mergeGroup_of_dissolved (Ne.symm hne)]
      cases hmine : mine.dissolved <;> cases htheirs : theirs.dissolved <;> simp_all

/-! ## What is published -/

def floorMet (mine theirs : AccountCardFloor) : AccountCardFloor :=
  { mine with issuedAt := max mine.issuedAt theirs.issuedAt }

theorem floorMet_accountId (mine theirs : AccountCardFloor) (h : mine.accountId = theirs.accountId) :
    (floorMet mine theirs).accountId = theirs.accountId := h

theorem meetGroup_eq : meetGroup = meetRow (·.groupId) mergeGroup := by
  funext groups theirs
  rw [meetGroup, meetRow]
  cases rowOf (·.groupId) theirs.groupId groups <;> rfl

theorem meetFloor_eq : meetFloor = meetRow (·.accountId) floorMet := by
  funext floors theirs
  rw [meetFloor, meetRow]
  cases rowOf (·.accountId) theirs.accountId floors <;> rfl

theorem groups_mergeForPublish : (mergeForPublish ours stored).extras.groups =
    Lib.sortRows (·.groupId) (meetAll (·.groupId) mergeGroup ours.extras.groups stored.extras.groups) := by
  rw [meetAll, ← meetGroup_eq]
  rfl

theorem cardFloors_mergeForPublish : (mergeForPublish ours stored).extras.cardFloors =
    Lib.sortRows (·.accountId) (meetAll (·.accountId) floorMet ours.extras.cardFloors stored.extras.cardFloors) := by
  rw [meetAll, ← meetFloor_eq]
  rfl

theorem groupOf_mergeForPublish (hours : UniqueIds ours) (hstored : UniqueIds stored) :
    groupOf (mergeForPublish ours stored) id = Option.merge mergeGroup (groupOf ours id) (groupOf stored id) := by
  rw [groupOf, groups_mergeForPublish, rowOf_sortRows (distinctKeys_meetAll hours.groups),
    rowOf_meetAll mergeGroup_groupId hstored.groups]
  rfl

theorem floorOf_mergeForPublish (hours : UniqueIds ours) (hstored : UniqueIds stored) :
    floorOf (mergeForPublish ours stored) account =
      Option.merge floorMet (floorOf ours account) (floorOf stored account) := by
  rw [floorOf, cardFloors_mergeForPublish, rowOf_sortRows (distinctKeys_meetAll hours.floors),
    rowOf_meetAll floorMet_accountId hstored.floors]
  rfl

theorem mem_meetProvider {p : String} : p ∈ meetProvider providers provider ↔ p ∈ providers ∨ p = provider := by
  rw [meetProvider]
  split
  · constructor
    · exact .inl
    · intro h
      rcases h with h | rfl
      · exact h
      · assumption
  · rw [List.mem_append, List.mem_singleton]

theorem nodup_meetProvider (h : providers.Nodup) : (meetProvider providers provider).Nodup := by
  rw [meetProvider]
  split
  · exact h
  · next hnew =>
    refine List.nodup_append.mpr ⟨h, List.nodup_singleton _, ?_⟩
    intro p hp q hq heq
    rw [List.mem_singleton.mp hq] at heq
    exact hnew (heq ▸ hp)

theorem mem_meetProviders {providers theirs : List String} {p : String} :
    p ∈ theirs.foldl meetProvider providers ↔ p ∈ providers ∨ p ∈ theirs := by
  induction theirs generalizing providers with
  | nil => simp
  | cons q theirs ih =>
    rw [List.foldl_cons, ih, mem_meetProvider, List.mem_cons, or_assoc]

theorem nodup_meetProviders {providers theirs : List String} (h : providers.Nodup) :
    (theirs.foldl meetProvider providers).Nodup := by
  induction theirs generalizing providers with
  | nil => exact h
  | cons q theirs ih => exact ih (nodup_meetProvider h)

theorem mem_providers_mergeForPublish :
    provider ∈ (mergeForPublish ours stored).providers ↔ provider ∈ ours.providers ∨ provider ∈ stored.providers := by
  rw [← mem_meetProviders]
  exact List.mem_insertionSort _

/-- A state in the one order, as a merge leaves it. -/
structure InOrder (state : AccountLockerState) : Prop where
  contacts : state.contacts.Pairwise (accountOf · < accountOf ·)
  clock : state.contactClock.Pairwise (·.accountId < ·.accountId)
  groups : state.extras.groups.Pairwise (·.groupId < ·.groupId)
  floors : state.extras.cardFloors.Pairwise (·.accountId < ·.accountId)
  providers : state.providers.Pairwise (· < ·)

theorem InOrder.uniqueIds (h : InOrder state) : UniqueIds state where
  clock := distinctKeys_of_sorted h.clock
  groups := distinctKeys_of_sorted h.groups
  floors := distinctKeys_of_sorted h.floors
  providers := h.providers.imp fun hlt => ne_of_lt hlt

theorem sorted_mergedContacts : (mergeContacts ours stored).1.Pairwise (accountOf · < accountOf ·) := by
  have hsorted : (contactAccounts (ours.contacts ++ stored.contacts)).Pairwise (· < ·) := sorted_contactAccounts
  refine List.Pairwise.filterMap _ ?_ hsorted
  intro a b hlt c hc c' hc'
  rw [(mergedRow_some hc).2.1, (mergedRow_some hc').2.1]
  exact hlt

theorem inOrder_mergeForPublish (hours : UniqueIds ours) : InOrder (mergeForPublish ours stored) where
  contacts := sorted_mergedContacts
  clock := List.pairwise_map.mpr sorted_winners
  groups := by
    rw [groups_mergeForPublish]
    exact sorted_sortRows (distinctKeys_meetAll hours.groups)
  floors := by
    rw [cardFloors_mergeForPublish]
    exact sorted_sortRows (distinctKeys_meetAll hours.floors)
  providers := by
    have hnodup : (stored.providers.foldl meetProvider ours.providers).Nodup := nodup_meetProviders hours.providers
    exact sorted_sortRows hnodup

/-! ## Meeting it again -/

/-- Whatever the side has, `m` has as new. -/
structure Absorbs (m side : AccountLockerState) : Prop where
  relayUserId : side.relayUserId = m.relayUserId
  nickname : side.nickname = m.nickname
  contacts : ∀ account, mergedRow side m account = rowOfSide m account
  clock : ∀ account, newer (·.atMs) (ContactClock.find m.contactClock account)
    (ContactClock.find side.contactClock account) = ContactClock.find m.contactClock account
  groups : ∀ id, Option.merge mergeGroup (groupOf side id) (groupOf m id) = groupOf m id
  floors : ∀ account, Option.merge floorMet (floorOf side account) (floorOf m account) = floorOf m account
  providers : side.providers ⊆ m.providers

theorem rowOfSide_mergeForPublish : rowOfSide (mergeForPublish ours stored) account = mergedRow ours stored account := by
  apply Option.ext
  intro row
  have hrow : rowOfSide (mergeForPublish ours stored) account = some row ↔
      row ∈ (mergeContacts ours stored).1 ∧ accountOf row = account := rowOf_eq_some distinctKeys_mergedContacts
  rw [hrow, mem_mergedContacts]
  constructor
  · intro ⟨hmerged, haccount⟩
    rw [← haccount]
    exact hmerged
  · intro hmerged
    have haccount := (mergedRow_some hmerged).2.1
    rw [haccount]
    exact ⟨hmerged, rfl⟩

theorem state_ext (hid : a.relayUserId = b.relayUserId) (hnickname : a.nickname = b.nickname)
    (hcontacts : a.contacts = b.contacts) (hclock : a.contactClock = b.contactClock)
    (hgroups : a.extras.groups = b.extras.groups) (hfloors : a.extras.cardFloors = b.extras.cardFloors)
    (hproviders : a.providers = b.providers) : a = b := by
  obtain ⟨aid, anickname, acontacts, ⟨agroups, afloors⟩, aproviders, aclock⟩ := a
  obtain ⟨bid, bnickname, bcontacts, ⟨bgroups, bfloors⟩, bproviders, bclock⟩ := b
  simp_all

theorem mergeForPublish_of_absorbs (hside : UniqueIds state) (horder : InOrder m) (habsorbs : Absorbs m state) :
    mergeForPublish state m = m := by
  have hunique := horder.uniqueIds
  have horder' := @inOrder_mergeForPublish _ m hside
  have hcontacts : (mergeForPublish state m).contacts = m.contacts := by
    apply eq_of_rowOf_eq horder'.contacts horder.contacts
    intro account
    exact rowOfSide_mergeForPublish.trans (habsorbs.contacts account)
  have hclock : (mergeForPublish state m).contactClock = m.contactClock := by
    apply eq_of_rowOf_eq horder'.clock horder.clock
    intro account
    exact (find_mergedClock hside.clock hunique.clock).trans (habsorbs.clock account)
  have hgroups : (mergeForPublish state m).extras.groups = m.extras.groups := by
    apply eq_of_rowOf_eq horder'.groups horder.groups
    intro id
    exact (groupOf_mergeForPublish hside hunique).trans (habsorbs.groups id)
  have hfloors : (mergeForPublish state m).extras.cardFloors = m.extras.cardFloors := by
    apply eq_of_rowOf_eq horder'.floors horder.floors
    intro account
    exact (floorOf_mergeForPublish hside hunique).trans (habsorbs.floors account)
  have hproviders : (mergeForPublish state m).providers = m.providers := by
    apply sorted_ext horder'.providers horder.providers
    intro p
    rw [mem_providers_mergeForPublish]
    constructor
    · intro hp
      exact hp.elim (fun h => habsorbs.providers h) fun h => h
    · exact .inr
  exact state_ext habsorbs.relayUserId habsorbs.nickname hcontacts hclock hgroups hfloors hproviders

theorem floorMet_self (mine : AccountCardFloor) : floorMet mine mine = mine := by
  simp [floorMet]

theorem floorMet_absorbs (mine theirs : AccountCardFloor) :
    floorMet mine (floorMet mine theirs) = floorMet mine theirs := by
  simp [floorMet]

theorem newer_absorbs {mine theirs : Option ContactClockEntry} :
    newer (·.atMs) (newer (·.atMs) theirs mine) mine = newer (·.atMs) theirs mine := by
  cases mine with
  | none => exact newer_none
  | some r =>
    obtain ⟨r', hr', hle⟩ := newer_incoming (·.atMs) theirs (rfl : some r = some r)
    rw [hr', newer, if_neg (not_lt.mpr hle)]

/-- A row goes with its register: met by a merge, it is the merge's. -/
theorem mergedRow_of_winner {entry : ContactClockEntry} (haccount : account ≠ "")
    (h : rowOf (·.1.accountId) account (winners ours stored) = some (entry, true)) : mergedRow ours stored account =
      if entry.present then (rowOfSide stored account).or (rowOfSide ours account) else none := by
  simp only [mergedRow, if_neg haccount, h]
  cases entry.present <;> rfl

theorem mergedRow_of_none (haccount : account ≠ "") (h : rowOf (·.1.accountId) account (winners ours stored) = none) :
    mergedRow ours stored account = (rowOfSide ours account).or (rowOfSide stored account) := by
  simp only [mergedRow, if_neg haccount, h]

/-- Met by a side whose register is no newer and whose row it has, the row of
a merge is left. -/
theorem mergedRow_absorbs (hours : UniqueIds ours) (hside : UniqueIds state)
    (hclock : newer (·.atMs) (ContactClock.find (mergeForPublish ours stored).contactClock account)
      (ContactClock.find state.contactClock account) =
        ContactClock.find (mergeForPublish ours stored).contactClock account)
    (hunread : account ≠ "" → rowOf (·.1.accountId) account (winners ours stored) = none →
      (rowOfSide state account).or (mergedRow ours stored account) = mergedRow ours stored account)
    (hpresent : ∀ winner, account ≠ "" → rowOf (·.1.accountId) account (winners ours stored) = some winner →
      winner.1.present →
      (mergedRow ours stored account).or (rowOfSide state account) = mergedRow ours stored account) :
    mergedRow state (mergeForPublish ours stored) account = rowOfSide (mergeForPublish ours stored) account := by
  rw [rowOfSide_mergeForPublish]
  by_cases haccount : account = ""
  · simp [mergedRow, haccount]
  have hunique := (@inOrder_mergeForPublish _ stored hours).uniqueIds
  have hfind : ContactClock.find (mergeForPublish ours stored).contactClock account =
      (rowOf (·.1.accountId) account (winners ours stored)).map (·.1) := rowOf_map_fst
  have hwinner := @rowOf_winners _ _ account hside.clock hunique.clock
  rw [hfind] at hwinner hclock
  cases hwin : rowOf (·.1.accountId) account (winners ours stored) with
  | none =>
    rw [hwin] at hwinner hclock
    cases hmine : ContactClock.find state.contactClock account with
    | some mine =>
      rw [hmine] at hclock
      cases hclock
    | none =>
      rw [hmine] at hwinner
      rw [mergedRow_of_none haccount hwinner, rowOfSide_mergeForPublish]
      exact hunread haccount hwin
  | some winner =>
    rw [hwin] at hwinner hclock
    have htrue : rowOf (·.1.accountId) account (winners state (mergeForPublish ours stored)) =
        some (winner.1, true) := by
      rw [hwinner]
      cases hmine : ContactClock.find state.contactClock account with
      | none => rfl
      | some mine =>
        rw [hmine] at hclock
        obtain ⟨r', hr', hle⟩ := newer_incoming (·.atMs) (some winner.1) (rfl : some mine = some mine)
        have hentry : winner.1 = r' := Option.mem_unique hclock hr'
        rw [← hentry] at hle
        exact if_pos hle
    rw [mergedRow_of_winner haccount htrue, rowOfSide_mergeForPublish]
    by_cases hentry : winner.1.present
    · rw [if_pos hentry]
      exact hpresent winner haccount hwin hentry
    · -- removed: neither side's row is published
      rw [if_neg hentry, mergedRow, if_neg haccount, hwin]
      simp [hentry]

theorem absorbs_ours (hours : UniqueIds ours) (hstored : UniqueIds stored) :
    Absorbs (mergeForPublish ours stored) ours where
  relayUserId := rfl
  nickname := rfl
  contacts := by
    intro account
    apply mergedRow_absorbs hours hours
    · have hfind : ContactClock.find (mergeForPublish ours stored).contactClock account = _ :=
        find_mergedClock hours.clock hstored.clock
      rw [hfind]
      exact newer_absorbs
    · intro haccount hwin
      rw [mergedRow_of_none haccount hwin]
      cases rowOfSide ours account <;> rfl
    · intro winner haccount hwin hpresent
      simp only [mergedRow, if_neg haccount, hwin, hpresent]
      cases winner.2 <;> cases rowOfSide ours account <;> cases rowOfSide stored account <;> rfl
  clock := by
    intro account
    have hfind : ContactClock.find (mergeForPublish ours stored).contactClock account = _ :=
      find_mergedClock hours.clock hstored.clock
    rw [hfind]
    exact newer_absorbs
  groups := by
    intro id
    rw [groupOf_mergeForPublish hours hstored]
    exact merge_absorbs mergeGroup_absorbs mergeGroup_self
  floors := by
    intro account
    rw [floorOf_mergeForPublish hours hstored]
    exact merge_absorbs floorMet_absorbs floorMet_self
  providers := by
    intro p hp
    exact mem_providers_mergeForPublish.mpr (.inl hp)

theorem absorbs_self (hours : UniqueIds ours) :
    Absorbs (mergeForPublish ours stored) (mergeForPublish ours stored) where
  relayUserId := rfl
  nickname := rfl
  contacts := by
    intro account
    apply mergedRow_absorbs hours (inOrder_mergeForPublish hours).uniqueIds newer_self
    · intro _ _
      rw [rowOfSide_mergeForPublish, Option.or_self]
    · intro _ _ _ _
      rw [rowOfSide_mergeForPublish, Option.or_self]
  clock := fun _ => newer_self
  groups := fun _ => merge_self mergeGroup_self
  floors := fun _ => merge_self floorMet_self
  providers := fun _ hp => hp

/-! ## What a publish keeps -/

/-- A side's copy of a group. -/
def Copy (a b : AccountLockerState) (id : String) (copy : AccountStateGroup) : Prop :=
  groupOf a id = some copy ∨ groupOf b id = some copy

/-- The copies of a group both sides have, either way round. -/
def Copies (a b : AccountLockerState) (id : String) (copy other : AccountStateGroup) : Prop :=
  groupOf a id = some copy ∧ groupOf b id = some other ∨ groupOf b id = some copy ∧ groupOf a id = some other

/-- A publish settles at once and loses nothing, and what it leaves of the
groups, floors and providers is the same from both sides. -/
structure Settles (a b : AccountLockerState) : Prop where
  again : mergeForPublish a (mergeForPublish a b) = mergeForPublish a b
  settled : mergeForPublish (mergeForPublish a b) (mergeForPublish a b) = mergeForPublish a b
  groups : ∀ id, (groupOf (mergeForPublish a b) id).isSome ↔ (groupOf a id).isSome ∨ (groupOf b id).isSome
  epochs : ∀ id copy merged, Copy a b id copy → groupOf (mergeForPublish a b) id = some merged →
    (∀ other, Copy a b id other → ¬ other.dissolved) → copy.rosterEpoch ≤ merged.rosterEpoch
  dissolved : ∀ id copy merged, Copy a b id copy → groupOf (mergeForPublish a b) id = some merged →
    copy.dissolved → merged.dissolved
  floors : ∀ account, (floorOf (mergeForPublish a b) account).map (·.issuedAt) =
    Option.merge max ((floorOf a account).map (·.issuedAt)) ((floorOf b account).map (·.issuedAt))
  providers : ∀ provider, provider ∈ (mergeForPublish a b).providers ↔ provider ∈ a.providers ∨ provider ∈ b.providers
  sameGroups : ∀ id, (groupOf (mergeForPublish a b) id).map (fun g => (g.dissolved, g.rosterEpoch)) =
    (groupOf (mergeForPublish b a) id).map (fun g => (g.dissolved, g.rosterEpoch))
  sameFloors : (mergeForPublish a b).extras.cardFloors = (mergeForPublish b a).extras.cardFloors
  sameProviders : (mergeForPublish a b).providers = (mergeForPublish b a).providers

/-- At one epoch a copy that has left wins over one that has not, of copies
`Of` tells. -/
def LeftWins (a b : AccountLockerState) (Of : AccountStateGroup → AccountStateGroup → Prop) : Prop :=
  ∀ id copy other, Copies a b id copy other → Of copy other → copy.rosterEpoch = other.rosterEpoch →
    copy.left → ¬ other.left → groupOf (mergeForPublish a b) id = some copy

/-- The mark of having left is the same from both sides, of groups whose
copies `Of` tells. -/
def LeftSame (a b : AccountLockerState) (Of : AccountStateGroup → AccountStateGroup → Prop) : Prop :=
  ∀ id, (∀ copy other, groupOf a id = some copy → groupOf b id = some other → Of copy other) →
    (groupOf (mergeForPublish a b) id).map (·.left) = (groupOf (mergeForPublish b a) id).map (·.left)

section

variable (ha : UniqueIds a) (hb : UniqueIds b)
include ha hb

/-- What is so of each side's copy alone and of the two met, is so of the
copy published. -/
theorem merged_copy {P : AccountStateGroup → AccountStateGroup → Prop} {copy merged : AccountStateGroup} (hcopy : Copy a b id copy)
    (hmerged : groupOf (mergeForPublish a b) id = some merged) (hsame : P copy copy)
    (hmeet : ∀ mine theirs, groupOf a id = some mine → groupOf b id = some theirs →
      P mine (mergeGroup mine theirs) ∧ P theirs (mergeGroup mine theirs)) : P copy merged := by
  rw [groupOf_mergeForPublish ha hb] at hmerged
  cases hmine : groupOf a id with
  | none =>
    rw [hmine, Option.merge_none_left] at hmerged
    rw [Copy, hmine, hmerged] at hcopy
    rcases hcopy with hcopy | hcopy
    · cases hcopy
    · rw [Option.some.inj hcopy]
      exact Option.some.inj hcopy ▸ hsame
  | some mine =>
    cases htheirs : groupOf b id with
    | none =>
      rw [hmine, htheirs, Option.merge_none_right] at hmerged
      rw [Copy, hmine, htheirs] at hcopy
      rcases hcopy with hcopy | hcopy
      · rw [← Option.some.inj hmerged, Option.some.inj hcopy]
        exact Option.some.inj hcopy ▸ hsame
      · cases hcopy
    | some theirs =>
      rw [hmine, htheirs, Option.merge_some_some] at hmerged
      rw [Copy, hmine, htheirs] at hcopy
      obtain ⟨hp, hq⟩ := hmeet mine theirs hmine htheirs
      rw [← Option.some.inj hmerged]
      rcases hcopy with hcopy | hcopy
      · exact Option.some.inj hcopy ▸ hp
      · exact Option.some.inj hcopy ▸ hq

theorem settles : Settles a b where
  again := mergeForPublish_of_absorbs ha (inOrder_mergeForPublish ha) (absorbs_ours ha hb)
  settled := mergeForPublish_of_absorbs (inOrder_mergeForPublish ha).uniqueIds (inOrder_mergeForPublish ha)
    (absorbs_self ha)
  groups := by
    intro id
    rw [groupOf_mergeForPublish ha hb]
    cases groupOf a id <;> cases groupOf b id <;> simp
  epochs := by
    intro id copy merged hcopy hmerged hlive
    apply merged_copy (P := fun copy merged => copy.rosterEpoch ≤ merged.rosterEpoch) ha hb hcopy hmerged (le_refl _)
    intro mine theirs hmine htheirs
    have hmineLive := hlive mine (.inl hmine)
    have htheirsLive := hlive theirs (.inr htheirs)
    have hsame : mine.dissolved = theirs.dissolved := by
      rw [Bool.eq_false_iff.mpr hmineLive, Bool.eq_false_iff.mpr htheirsLive]
    rw [mergeGroup_rosterEpoch hsame]
    exact ⟨le_max_left _ _, le_max_right _ _⟩
  dissolved := by
    intro id copy merged hcopy hmerged
    apply merged_copy (P := fun copy merged => copy.dissolved → merged.dissolved) ha hb hcopy hmerged (fun h => h)
    intro mine theirs _ _
    rw [mergeGroup_dissolved, Bool.or_eq_true]
    exact ⟨.inl, .inr⟩
  floors := by
    intro account
    rw [floorOf_mergeForPublish ha hb]
    cases floorOf a account <;> cases floorOf b account <;> rfl
  providers := fun _ => mem_providers_mergeForPublish
  sameGroups := by
    intro id
    rw [groupOf_mergeForPublish ha hb, groupOf_mergeForPublish hb ha]
    cases groupOf a id with
    | none => simp
    | some mine =>
      cases groupOf b id with
      | none => simp
      | some theirs =>
        obtain ⟨hdissolved, hepoch, -⟩ := mergeGroup_symm mine theirs
        simp [hdissolved, hepoch]
  sameFloors := by
    apply eq_of_rowOf_eq (inOrder_mergeForPublish ha).floors (inOrder_mergeForPublish hb).floors
    intro account
    have hab : rowOf (·.accountId) account (mergeForPublish a b).extras.cardFloors = _ :=
      floorOf_mergeForPublish ha hb
    have hba : rowOf (·.accountId) account (mergeForPublish b a).extras.cardFloors = _ :=
      floorOf_mergeForPublish hb ha
    rw [hab, hba]
    cases hmine : floorOf a account with
    | none => simp
    | some mine =>
      cases htheirs : floorOf b account with
      | none => simp
      | some theirs =>
        have haccount : mine.accountId = theirs.accountId :=
          (rowOf_some hmine).2.trans (rowOf_some htheirs).2.symm
        simp [floorMet, haccount, max_comm]
  sameProviders := by
    apply sorted_ext (inOrder_mergeForPublish ha).providers (inOrder_mergeForPublish hb).providers
    intro provider
    rw [mem_providers_mergeForPublish, mem_providers_mergeForPublish, or_comm]

/-- A copy that has left wins over one of its epoch that is neither left nor
ended. -/
theorem leftWins : LeftWins a b fun _ other => ¬ other.dissolved := by
  intro id copy other hcopies hlive hepoch hleft hnot
  rw [groupOf_mergeForPublish ha hb]
  rcases hcopies with ⟨hcopy, hother⟩ | ⟨hcopy, hother⟩
  · rw [hcopy, hother, Option.merge_some_some]
    by_cases hdissolved : copy.dissolved
    · rw [mergeGroup_of_dissolved (by simp_all), if_pos hdissolved]
    · rw [mergeGroup, if_neg (not_or.mpr ⟨hdissolved, hlive⟩), if_neg]
      rw [hepoch, hleft]
      simp [hnot]
  · rw [hcopy, hother, Option.merge_some_some]
    by_cases hdissolved : copy.dissolved
    · rw [mergeGroup_of_dissolved (by simp_all), if_neg hlive]
    · rw [mergeGroup, if_neg (not_or.mpr ⟨hlive, hdissolved⟩), if_pos]
      exact .inr ⟨hepoch, .inl hleft⟩

theorem leftSame : LeftSame a b fun copy other => ¬ EndedApart copy other := by
  intro id hapart
  rw [groupOf_mergeForPublish ha hb, groupOf_mergeForPublish hb ha]
  cases hmine : groupOf a id with
  | none => simp
  | some mine =>
    cases htheirs : groupOf b id with
    | none => simp
    | some theirs =>
      obtain ⟨-, -, hleft⟩ := mergeGroup_symm mine theirs
      simp [hleft (hapart mine theirs hmine htheirs)]

end

/-- Publishing settles, loses nothing and leaves the same from both sides.
An ended copy decides for itself, so the mark of having left follows it. -/
theorem publish_settles (ha : UniqueIds a) (hb : UniqueIds b) :
    Settles a b ∧ (LeftWins a b fun _ other => ¬ other.dissolved) ∧
      LeftSame a b fun copy other => ¬ EndedApart copy other :=
  ⟨settles ha hb, leftWins ha hb, leftSame ha hb⟩

def sampleEnded (left : Bool) : AccountLockerState where
  relayUserId := "me"
  extras := { groups := [{ groupId := "g", rosterEpoch := 1, left, dissolved := true }] }

def sampleMember : AccountLockerState where
  relayUserId := "me"
  extras :=
    { groups := [{ groupId := "g", rosterEpoch := 2 }, { groupId := "h", left := true }]
      cardFloors := [{ accountId := "friend", issuedAt := 5 }] }
  providers := ["relay"]

theorem publish_settles_ended_and_member :
    Settles (sampleEnded true) sampleMember ∧
      (LeftWins (sampleEnded true) sampleMember fun _ other => ¬ other.dissolved) ∧
      LeftSame (sampleEnded true) sampleMember fun copy other => ¬ EndedApart copy other :=
  publish_settles (by decide) (by decide)

/-- Two ended copies that differ in having left: each side keeps its own. -/
theorem ended_copies_keep_own_mark :
    UniqueIds (sampleEnded false) ∧ UniqueIds (sampleEnded true) ∧
      ¬ (Settles (sampleEnded false) (sampleEnded true) ∧
        (LeftWins (sampleEnded false) (sampleEnded true) fun _ _ => True) ∧
        LeftSame (sampleEnded false) (sampleEnded true) fun _ _ => True) := by
  refine ⟨by decide, by decide, ?_⟩
  intro ⟨_, _, hsame⟩
  exact absurd (hsame "g" fun _ _ _ _ => trivial) (by decide)

end Pbr.AccountLocker
