import PpBrowser.Messaging.GroupOwnerEvents

/-!
# GroupOwnerOrder — an honest owner's events in the order it made them

The owner makes an event on its own roster first: the add, the removal and
the hand-over at the roster's next epoch, the rename at its next title
version. A copy of the roster that is in step with the owner's takes the
events one after the other, and none of them is stale.
-/

namespace Pbr

open Lib Lib.Writing

/-! ## When a handler accepts -/

section Accepts

variable {store : GroupRosterStore} {m : GroupMetadata} {actor : String} {now : Int}

theorem applyMemberJoined_ok {p : MemberJoinedPayload} (hm : store.loadMetadata p.groupId = some m)
    (howner : m.ownerIdentity = actor) (hnews : m.rosterEpoch < p.rosterEpoch)
    (hmember : p.memberIdentity ≠ "") : applyMemberJoined store p actor now =
      .ok (OwnerEvents.written actor now m store (.joined p)) := by
  have hread : loadMetadataRequired store p.groupId = .ok m := by simp [loadMetadataRequired, hm]
  have hnewer : requireNewerEpoch m p.rosterEpoch = .ok () := if_neg (by omega)
  simp [applyMemberJoined, hread, howner, hnewer, hmember, OwnerEvents.written, OwnerEvents.updated]

theorem applyMemberRemoved_iff {p : MemberRemovedPayload} {after : GroupRosterStore} :
    applyMemberRemoved store p actor = .ok after ↔
      ∃ m, store.loadMetadata p.groupId = some m ∧ m.ownerIdentity = actor ∧
        p.memberIdentity ≠ actor ∧ m.rosterEpoch < p.rosterEpoch ∧
        OwnerEvents.written actor 0 m store (.removed p) = after := by
  cases hm : store.loadMetadata p.groupId with
  | none => simp [applyMemberRemoved, loadMetadataRequired, hm]
  | some m =>
    have hread : loadMetadataRequired store p.groupId = .ok m := by
      simp [loadMetadataRequired, hm]
    by_cases howner : m.ownerIdentity = actor
    swap
    · simp [applyMemberRemoved, hread, howner]
    by_cases hself : p.memberIdentity = actor
    · simp [applyMemberRemoved, hread, howner, hself]
    by_cases hepoch : p.rosterEpoch ≤ m.rosterEpoch
    · simp [applyMemberRemoved, hread, howner, hself, requireNewerEpoch, hepoch]
    · simp [applyMemberRemoved, hread, howner, hself, requireNewerEpoch, hepoch,
        Nat.lt_of_not_le hepoch, OwnerEvents.written, OwnerEvents.updated]

theorem applyOwnerTransferred_iff {p : OwnerTransferredPayload} {after : GroupRosterStore} :
    applyOwnerTransferred store p actor now = .ok after ↔
      ∃ m, store.loadMetadata p.groupId = some m ∧ m.ownerIdentity = actor ∧ m.rosterEpoch < p.rosterEpoch ∧
        (p.newOwnerIdentity ≠ "" ∧ p.newOwnerIdentity ≠ actor) ∧ store.isMember p.groupId p.newOwnerIdentity = true ∧
        OwnerEvents.written actor now m store (.transferred p) = after := by
  cases hm : store.loadMetadata p.groupId with
  | none => simp [applyOwnerTransferred, loadMetadataRequired, hm]
  | some m =>
    have hread : loadMetadataRequired store p.groupId = .ok m := by
      simp [loadMetadataRequired, hm]
    by_cases howner : m.ownerIdentity = actor
    swap
    · simp [applyOwnerTransferred, hread, howner]
    by_cases hepoch : p.rosterEpoch ≤ m.rosterEpoch
    · simp [applyOwnerTransferred, hread, howner, requireNewerEpoch, hepoch]
    by_cases hnew : p.newOwnerIdentity = "" ∨ p.newOwnerIdentity = actor
    · have hno : ¬ (p.newOwnerIdentity ≠ "" ∧ p.newOwnerIdentity ≠ actor) := by tauto
      simp [applyOwnerTransferred, hread, howner, requireNewerEpoch, hepoch, hnew, hno]
    · have hyes : p.newOwnerIdentity ≠ "" ∧ p.newOwnerIdentity ≠ actor := by tauto
      cases hmember : store.isMember p.groupId p.newOwnerIdentity <;>
        simp [applyOwnerTransferred, hread, howner, requireNewerEpoch, hepoch, hmember, hyes,
          Nat.lt_of_not_le hepoch, OwnerEvents.written, OwnerEvents.updated]

theorem applyGroupRenamed_ok {p : GroupRenamedPayload} (hm : store.loadMetadata p.groupId = some m)
    (hactor : actor ≠ "") (howner : m.ownerIdentity = actor) (hnews : m.titleVersion < p.titleVersion) :
    applyGroupRenamed store p actor = .ok (true, OwnerEvents.written actor 0 m store (.renamed p)) := by
  have hread : loadMetadataRequired store p.groupId = .ok m := by simp [loadMetadataRequired, hm]
  simp [applyGroupRenamed, hread, howner, hactor, Nat.not_le.mpr hnews, OwnerEvents.written,
    OwnerEvents.updated]

end Accepts

/-! ## An honest owner -/

/-- The `member_joined` an owner publishes: its whole roster, at the epoch
the add made (`PublishMemberJoined`). -/
def publishMemberJoined (store : GroupRosterStore) (groupId memberIdentity : String)
    (rosterEpoch : Nat) : MemberJoinedPayload :=
  { groupId, memberIdentity, rosterEpoch
    members := (store.listMembers groupId).map fun row =>
      { memberIdentity := row.memberIdentity, role := row.role } }

/-- The owner's rename of its own copy, at the epoch that copy has. -/
def renameAsOwner (store : GroupRosterStore) (m : GroupMetadata) (title : String) :
    GroupRenamedPayload × GroupRosterStore :=
  let renamed := { m with title, titleVersion := u64 (m.titleVersion + 1) }
  ({ groupId := m.groupId, title, titleVersion := renamed.titleVersion
     rosterEpoch := m.rosterEpoch }, store.upsertMetadata renamed)

/-- `owner` makes an event of group `g` on its own roster. No epoch and no
title version a `uint64_t` cannot hold is reached. -/
inductive Makes (g owner : String) : GroupRosterStore → OwnerEvent → GroupRosterStore → Prop
  | joined {store : GroupRosterStore} {m : GroupMetadata} {member : String} {now : Int}
      (hm : store.loadMetadata g = some m) (howner : m.ownerIdentity = owner)
      (hmember : member ≠ "") (hfits : m.rosterEpoch + 1 < 2 ^ 64) :
      Makes g owner store
        (.joined (publishMemberJoined (addAsOwner store m member owner now) g member
          (u64 (m.rosterEpoch + 1))))
        (addAsOwner store m member owner now)
  | removed {store after : GroupRosterStore} {m : GroupMetadata} {member : String}
      (hm : store.loadMetadata g = some m)
      (happly : applyMemberRemoved store { groupId := g, memberIdentity := member
                                           rosterEpoch := u64 (m.rosterEpoch + 1) } owner =
        .ok after) :
      Makes g owner store (.removed { groupId := g, memberIdentity := member
                                      rosterEpoch := u64 (m.rosterEpoch + 1) }) after
  | transferred {store after : GroupRosterStore} {m : GroupMetadata} {newOwner : String}
      {leavePrevious : Bool} {now : Int} (hm : store.loadMetadata g = some m)
      (happly : applyOwnerTransferred store { groupId := g, newOwnerIdentity := newOwner
                                              rosterEpoch := u64 (m.rosterEpoch + 1)
                                              leavePrevious } owner now = .ok after) :
      Makes g owner store (.transferred { groupId := g, newOwnerIdentity := newOwner
                                          rosterEpoch := u64 (m.rosterEpoch + 1)
                                          leavePrevious }) after
  | renamed {store : GroupRosterStore} {m : GroupMetadata} (title : String)
      (hm : store.loadMetadata g = some m) (howner : m.ownerIdentity = owner)
      (hlocal : owner ≠ "") (hfits : m.titleVersion + 1 < 2 ^ 64) :
      Makes g owner store (.renamed (renameAsOwner store m title).1)
        (renameAsOwner store m title).2

/-- Whatever else happens on the owner's device and sends no event: a
statement signed, a setting changed, changes folded. It hands the group to
nobody, lowers nothing and adds nobody. -/
structure Rests (g : String) (store after : GroupRosterStore) : Prop where
  metadata : ∀ m, store.loadMetadata g = some m → ∃ u, after.loadMetadata g = some u ∧
    u.ownerIdentity = m.ownerIdentity ∧ m.rosterEpoch ≤ u.rosterEpoch ∧
    m.titleVersion ≤ u.titleVersion
  members : ∀ identity, after.isMember g identity = true → store.isMember g identity = true

/-- The events an honest owner sends, in the order it makes them. -/
inductive Sends (g owner : String) : GroupRosterStore → List OwnerEvent → GroupRosterStore → Prop
  | done (store : GroupRosterStore) : Sends g owner store [] store
  | made {store next after : GroupRosterStore} {e : OwnerEvent} {rest : List OwnerEvent}
      (h : Makes g owner store e next) (hrest : Sends g owner next rest after) :
      Sends g owner store (e :: rest) after
  | rested {store next after : GroupRosterStore} {rest : List OwnerEvent}
      (h : Rests g store next) (hrest : Sends g owner next rest after) :
      Sends g owner store rest after

/-! ## A copy in step -/

/-- `copy` is not ahead of the owner's roster, knows its owner and lists
everyone it lists. -/
structure InStep (g : String) (own copy : GroupRosterStore) : Prop where
  metadata : ∃ m n, own.loadMetadata g = some m ∧ copy.loadMetadata g = some n ∧
    n.ownerIdentity = m.ownerIdentity ∧ n.rosterEpoch ≤ m.rosterEpoch ∧
    n.titleVersion ≤ m.titleVersion
  members : ∀ identity, own.isMember g identity = true → copy.isMember g identity = true

theorem InStep.copied {g : String} {own copy : GroupRosterStore} (h : InStep g own copy)
    {m : GroupMetadata} (hm : own.loadMetadata g = some m) :
    ∃ n, copy.loadMetadata g = some n ∧ n.ownerIdentity = m.ownerIdentity ∧
      n.rosterEpoch ≤ m.rosterEpoch ∧ n.titleVersion ≤ m.titleVersion := by
  obtain ⟨m', n, hm', hn⟩ := h.metadata
  obtain rfl := Option.mem_unique hm hm'
  exact ⟨n, hn⟩

theorem InStep.rested {g : String} {own next copy : GroupRosterStore} (h : InStep g own copy)
    (hrest : Rests g own next) : InStep g next copy := by
  obtain ⟨m, n, hm, hn, howner, hepoch, htitle⟩ := h.metadata
  obtain ⟨u, hu, hsame, hepoch', htitle'⟩ := hrest.metadata m hm
  exact ⟨⟨u, n, hu, hn, howner.trans hsame.symm, hepoch.trans hepoch', htitle.trans htitle'⟩,
    fun identity hin => h.members identity (hrest.members identity hin)⟩

namespace OwnerEvent

/-- What the event says, the roster shows. -/
def Effect (store : GroupRosterStore) : OwnerEvent → Prop
  | joined p => store.isMember p.groupId p.memberIdentity = true
  | transferred p => ∃ m, store.loadMetadata p.groupId = some m ∧
      m.ownerIdentity = p.newOwnerIdentity ∧ store.isMember p.groupId p.newOwnerIdentity = true
  | removed p => store.isMember p.groupId p.memberIdentity = false
  | renamed p => ∃ m, store.loadMetadata p.groupId = some m ∧ m.title = p.title ∧
      m.titleVersion = p.titleVersion

end OwnerEvent

section Joined

variable {g : String} {now : Int}

/-- The rows of a `member_joined` take nobody out. -/
theorem isMember_upsertJoined (store : GroupRosterStore) (entries : List MemberJoinedEntry)
    {identity : String} (h : store.isMember g identity = true ∨
      ∃ entry ∈ entries, entry.memberIdentity = identity ∧ identity ≠ "") :
    (entries.foldl (upsertJoined g now) store).isMember g identity = true := by
  induction entries generalizing store with
  | nil =>
    rcases h with h | ⟨entry, hentry, -⟩
    · exact h
    · cases hentry
  | cons entry entries ih =>
    rw [List.foldl_cons]
    refine ih _ ?_
    rcases h with h | ⟨other, hother, hid, hne⟩
    · left
      rw [upsertJoined]
      split
      · exact h
      · rw [GroupRosterStore.isMember_upsertMember, h, Bool.or_true]
    · rcases List.mem_cons.mp hother with rfl | hother
      · left
        rw [upsertJoined, if_neg (hid ▸ hne), GroupRosterStore.isMember_upsertMember]
        simp [hid]
      · exact .inr ⟨other, hother, hid, hne⟩

end Joined

theorem loadMetadata_written (actor : String) (now : Int) (store : GroupRosterStore)
    {m : GroupMetadata} {e : OwnerEvent} (hm : m.groupId = e.groupId) :
    (OwnerEvents.written actor now m store e).loadMetadata e.groupId = some (OwnerEvents.updated m e) := by
  have hreliable : Reliable (⟨store, []⟩ : Faulty GroupRosterStore) := by simp [Reliable]
  have hgives : Gives (OwnerEvents.writes actor now m e) ⟨store, []⟩ ()
    (OwnerEvents.written actor now m store e) := OwnerEvents.gives_writes hreliable
  obtain ⟨d', hrun, hstore, -⟩ := hgives
  rw [← hstore]
  exact OwnerEvents.loadMetadata_of_writes_ok hm hrun

section Made

variable {g owner : String} {own next copy : GroupRosterStore} {m : GroupMetadata}
  (h : InStep g own copy) (hm : own.loadMetadata g = some m) (now : Int)

include h hm

theorem InStep.joined {member : String} {at_ : Int} (howner : m.ownerIdentity = owner)
    (hmember : member ≠ "") (hfits : m.rosterEpoch + 1 < 2 ^ 64)
    {p : MemberJoinedPayload} (hp : p = publishMemberJoined (addAsOwner own m member owner at_) g
      member (u64 (m.rosterEpoch + 1))) : ∃ after, applyMemberJoined copy p owner now = .ok after ∧
      InStep g (addAsOwner own m member owner at_) after ∧ after.isMember g member = true := by
  obtain ⟨n, hn, hnowner, hepoch, htitle⟩ := h.copied hm
  have hfit : u64 (m.rosterEpoch + 1) = m.rosterEpoch + 1 := Nat.mod_eq_of_lt hfits
  have hgroup : m.groupId = g := GroupRosterStore.groupId_of_loadMetadata hm
  have hpg : p.groupId = g := by rw [hp]; rfl
  have hpm : p.memberIdentity = member := by rw [hp]; rfl
  have hpe : p.rosterEpoch = m.rosterEpoch + 1 := by rw [hp]; exact hfit
  have hn' : copy.loadMetadata p.groupId = some n := by rw [hpg]; exact hn
  have hin (id : String) (hid : copy.isMember g id = true ∨ (member = id ∧ id ≠ "")) :
      (OwnerEvents.written owner now n copy (.joined p)).isMember g id = true := by
    rw [OwnerEvents.written, GroupRosterStore.isMember_upsertMetadata, hpg]
    refine isMember_upsertJoined _ _ (hid.imp_right fun hid => ?_)
    exact ⟨_, List.mem_cons_self, hpm.trans hid.1, hid.2⟩
  refine ⟨_, applyMemberJoined_ok hn' (hnowner.trans howner) (by omega) (by rwa [hpm]),
    ⟨⟨{ m with rosterEpoch := m.rosterEpoch + 1 }, { n with rosterEpoch := p.rosterEpoch }, ?_, ?_,
      hnowner, hpe.le, htitle⟩, fun id hid => ?_⟩,
    hin member (.inr ⟨rfl, hmember⟩)⟩
  · rw [addAsOwner, GroupRosterStore.loadMetadata_upsertMetadata, if_pos hgroup.symm, hfit]
  · have hgroup' : n.groupId = (OwnerEvent.joined p).groupId := GroupRosterStore.groupId_of_loadMetadata hn'
    have hw := loadMetadata_written owner now copy hgroup'
    rwa [OwnerEvent.groupId, hpg] at hw
  · rw [addAsOwner, GroupRosterStore.isMember_upsertMetadata, hgroup,
      GroupRosterStore.isMember_upsertMember, Bool.or_eq_true, decide_eq_true_eq] at hid
    rcases hid with rfl | hid
    · exact hin _ (.inr ⟨rfl, hmember⟩)
    · exact hin _ (.inl (h.members id hid))

theorem InStep.removed {p : MemberRemovedPayload} (hpg : p.groupId = g)
    (happly : applyMemberRemoved own p owner = .ok next) :
    ∃ after, applyMemberRemoved copy p owner = .ok after ∧ InStep g next after ∧
      after.isMember g p.memberIdentity = false := by
  obtain ⟨m', hm', howner, hself, hnewer, rfl⟩ := applyMemberRemoved_iff.mp happly
  subst hpg
  obtain rfl := Option.mem_unique hm hm'
  obtain ⟨n, hn, hnowner, hepoch, htitle⟩ := h.copied hm
  refine ⟨_, applyMemberRemoved_iff.mpr ⟨n, hn, hnowner.trans howner, hself,
      lt_of_le_of_lt hepoch hnewer, rfl⟩,
    ⟨⟨_, _, loadMetadata_written owner 0 own (e := .removed p)
        (GroupRosterStore.groupId_of_loadMetadata hm),
      loadMetadata_written owner 0 copy (e := .removed p)
        (GroupRosterStore.groupId_of_loadMetadata hn),
      hnowner, le_refl _, htitle⟩, fun id hid => ?_⟩, ?_⟩
  · simp only [OwnerEvents.written, GroupRosterStore.isMember_upsertMetadata,
      GroupRosterStore.isMember_removeMember, Bool.and_eq_true] at hid ⊢
    exact ⟨hid.1, h.members id hid.2⟩
  · simp [OwnerEvents.written]

theorem InStep.transferred {p : OwnerTransferredPayload} {at_ : Int} (hpg : p.groupId = g)
    (happly : applyOwnerTransferred own p owner at_ = .ok next) :
    ∃ after, applyOwnerTransferred copy p owner now = .ok after ∧ InStep g next after ∧
      (∃ w, after.loadMetadata g = some w ∧ w.ownerIdentity = p.newOwnerIdentity) ∧
      after.isMember g p.newOwnerIdentity = true := by
  obtain ⟨m', hm', howner, hnewer, hnew, hmember, rfl⟩ := applyOwnerTransferred_iff.mp happly
  subst hpg
  obtain rfl := Option.mem_unique hm hm'
  obtain ⟨n, hn, hnowner, hepoch, htitle⟩ := h.copied hm
  have hload {s : GroupRosterStore} {k : GroupMetadata} {t : Int}
      (hk : s.loadMetadata p.groupId = some k) :=
    loadMetadata_written owner t s (e := .transferred p)
      (GroupRosterStore.groupId_of_loadMetadata hk)
  have hin (s : GroupRosterStore) (k : GroupMetadata) (t : Int) (id : String) :
      (OwnerEvents.written owner t k s (.transferred p)).isMember p.groupId id =
        if p.leavePrevious then
          decide (owner ≠ id) && (decide (p.newOwnerIdentity = id) || s.isMember p.groupId id)
        else decide (owner = id) || (decide (p.newOwnerIdentity = id) || s.isMember p.groupId id) := by
    simp only [OwnerEvents.written]
    split <;> simp
  refine ⟨_, applyOwnerTransferred_iff.mpr ⟨n, hn, hnowner.trans howner,
      lt_of_le_of_lt hepoch hnewer, hnew, h.members _ hmember, rfl⟩,
    ⟨⟨_, _, hload hm, hload hn, rfl, le_refl _, htitle⟩, fun id hid => ?_⟩,
    ⟨_, hload hn, rfl⟩, ?_⟩
  · rw [hin] at hid ⊢
    split at hid
    · next hleave =>
        simp only [hleave, if_true, Bool.and_eq_true, Bool.or_eq_true] at hid ⊢
        exact ⟨hid.1, hid.2.imp_right (h.members id)⟩
    · next hstay =>
        simp only [hstay, Bool.false_eq_true, if_false, Bool.or_eq_true] at hid ⊢
        exact hid.imp_right (Or.imp_right (h.members id))
  · rw [hin]
    have hne : owner ≠ p.newOwnerIdentity := fun heq => hnew.2 heq.symm
    split <;> simp [hne]

theorem InStep.renamed (title : String) (howner : m.ownerIdentity = owner) (hlocal : owner ≠ "")
    (hfits : m.titleVersion + 1 < 2 ^ 64) :
    ∃ after, applyGroupRenamed copy (renameAsOwner own m title).1 owner = .ok (true, after) ∧
      InStep g (renameAsOwner own m title).2 after ∧ ∃ w, after.loadMetadata g = some w ∧ w.title = title ∧
        w.titleVersion = u64 (m.titleVersion + 1) := by
  obtain ⟨n, hn, hnowner, hepoch, htitle⟩ := h.copied hm
  have hgroup : m.groupId = g := GroupRosterStore.groupId_of_loadMetadata hm
  have hfit : u64 (m.titleVersion + 1) = m.titleVersion + 1 := Nat.mod_eq_of_lt hfits
  have hn' : copy.loadMetadata (renameAsOwner own m title).1.groupId = some n := by
    show copy.loadMetadata m.groupId = some n
    rw [hgroup]
    exact hn
  have hnews : n.titleVersion < (renameAsOwner own m title).1.titleVersion := by
    show n.titleVersion < u64 (m.titleVersion + 1)
    omega
  have hw := loadMetadata_written owner 0 copy (e := .renamed (renameAsOwner own m title).1)
    (GroupRosterStore.groupId_of_loadMetadata hn')
  have hpg : (renameAsOwner own m title).1.groupId = g := hgroup
  rw [OwnerEvent.groupId, hpg] at hw
  refine ⟨_, applyGroupRenamed_ok hn' hlocal (hnowner.trans howner) hnews,
    ⟨⟨{ m with title, titleVersion := u64 (m.titleVersion + 1) }, _, ?_, hw, hnowner, ?_,
      le_refl _⟩, h.members⟩, _, hw, rfl, rfl⟩
  · show (own.upsertMetadata _).loadMetadata g = _
    rw [GroupRosterStore.loadMetadata_upsertMetadata, if_pos hgroup.symm]
  · exact max_le hepoch (le_refl _)

end Made

/-- A copy in step takes what the owner makes, and is in step again. -/
theorem InStep.made {g owner : String} {own next copy : GroupRosterStore} {e : OwnerEvent}
    (h : InStep g own copy) (hmade : Makes g owner own e next) (now : Int) :
    ∃ after, e.applied owner now copy = .ok (true, after) ∧ InStep g next after ∧ e.Effect after := by
  cases hmade with
  | joined hm howner hmember hfits =>
    obtain ⟨after, happly, hstep, hin⟩ := h.joined hm now howner hmember hfits rfl
    exact ⟨after, by rw [OwnerEvent.applied, happly]; rfl, hstep, hin⟩
  | removed hm happly =>
    obtain ⟨after, happly', hstep, hout⟩ := h.removed hm rfl happly
    exact ⟨after, by rw [OwnerEvent.applied, happly']; rfl, hstep, hout⟩
  | transferred hm happly =>
    obtain ⟨after, happly', hstep, ⟨w, hw, howner⟩, hin⟩ := h.transferred hm now rfl happly
    exact ⟨after, by rw [OwnerEvent.applied, happly']; rfl, hstep, w, hw, howner, hin⟩
  | renamed title hm howner hlocal hfits =>
    obtain ⟨after, happly, hstep, w, hw, htitle, hversion⟩ := h.renamed hm title howner hlocal hfits
    have hgroup : (renameAsOwner own _ title).1.groupId = g := GroupRosterStore.groupId_of_loadMetadata hm
    exact ⟨after, happly, hstep, w, by rw [hgroup]; exact hw, htitle, hversion⟩

/-! ## Every event of an honest owner takes effect -/

/-- Every arrival of the run takes effect at its turn. -/
def AllTake : List Arrival → Faulty GroupRosterStore → Prop
  | [], _ => True
  | a :: rest, d => ∃ d', a.event.applyTo a.actor a.now d = (.ok true, d') ∧
      a.event.Effect d'.store ∧ AllTake rest d'

theorem allTake_of_sends {g owner : String} {own after : GroupRosterStore} {es : List OwnerEvent}
    (hsends : Sends g owner own es after) {d : Faulty GroupRosterStore} (hd : Reliable d)
    (hstep : InStep g own d.store) {run : List Arrival} (hrun : run.map (·.event) = es)
    (hactor : ∀ a ∈ run, a.actor = owner) : AllTake run d := by
  induction hsends generalizing d run with
  | done store =>
    rw [List.map_eq_nil_iff] at hrun
    rw [hrun]
    trivial
  | rested hrests _ ih => exact ih hd (hstep.rested hrests) hrun hactor
  | made hmade _ ih =>
    cases run with
    | nil => cases hrun
    | cons a run =>
      obtain ⟨rfl, hrest⟩ := List.cons.inj hrun
      obtain ⟨after, happlied, hstep', heffect⟩ := hstep.made hmade a.now
      obtain rfl := hactor a List.mem_cons_self
      obtain ⟨d', htook, rfl, hd'⟩ := OwnerEvent.gives_applyTo hd happlied
      exact ⟨d', htook, heffect,
        ih hd' hstep' hrest fun b hb => hactor b (List.mem_cons_of_mem _ hb)⟩

/-- Whatever fails, epochs and titles only rise and no event takes effect
twice. While no write fails, an error leaves the store as it was; and a copy
in step with an honest owner's roster takes every event the owner sends in
the order it made them. -/
theorem owner_events_take_effect (d : Faulty GroupRosterStore) :
    (∀ run, Raises d.store (applyAll run d).store) ∧
    (∀ (e : OwnerEvent) (actor : String) (now : Int) (d' : Faulty GroupRosterStore),
      e.applyTo actor now d = (.ok true, d') → ∀ run actor' now',
        ∃ r, e.applyTo actor' now' (applyAll run d') = (r, applyAll run d') ∧ r ≠ .ok true) ∧
    (Reliable d →
      (∀ (e : OwnerEvent) (actor : String) (now : Int) (error : String),
        (e.applyTo actor now d).1 = .error error → (e.applyTo actor now d).2 = d) ∧
      ∀ (g owner : String) (own after : GroupRosterStore) (es : List OwnerEvent),
        Sends g owner own es after → InStep g own d.store →
        ∀ run : List Arrival, run.map (·.event) = es → (∀ a ∈ run, a.actor = owner) →
          AllTake run d) :=
  ⟨fun run => raises_applyAll run d,
    fun _ _ _ _ htook run actor' now' => refused_again htook run actor' now',
    fun hd => ⟨fun _ _ _ _ herror => OwnerEvent.unchanged_of_error hd herror,
      fun _ _ _ _ _ hsends hstep _ hrun hactor =>
        allTake_of_sends hsends hd hstep hrun hactor⟩⟩

/-! ### A failed write, and a rename sent before an add -/

namespace OwnerSample

def metadata : GroupMetadata := { groupId := "g", ownerIdentity := "o", rosterEpoch := 1 }

/-- The owner `o` and the member `a`, at epoch 1. -/
def roster : GroupRosterStore :=
  ((({} : GroupRosterStore).upsertMetadata metadata).upsertMember "g"
    { memberIdentity := "o", role := .owner }).upsertMember "g" { memberIdentity := "a" }

def transfer : OwnerEvent :=
  .transferred { groupId := "g", newOwnerIdentity := "a", rosterEpoch := 2, leavePrevious := true }

/-- `o`'s roster once it has added `x`, and the `member_joined` of that. -/
def added : GroupRosterStore := addAsOwner roster metadata "x" "o" 0

def join : OwnerEvent := .joined (publishMemberJoined added "g" "x" 2)

/-- The rename `o` makes next. -/
def rename : OwnerEvent := .renamed (renameAsOwner added { metadata with rosterEpoch := 2 } "t").1

/-- The hand-over where the new owner's row is not written. -/
def handedOver : Roe Bool × Faulty GroupRosterStore :=
  transfer.applyTo "o" 0 ⟨roster, [false, true]⟩

/-- A copy of the first roster after the rename. -/
def renamed : Roe Bool × Faulty GroupRosterStore := rename.applyTo "o" 0 ⟨roster, []⟩

theorem loadMetadata_roster : roster.loadMetadata "g" = some metadata := by
  simp [roster, metadata]

theorem loadMetadata_added : added.loadMetadata "g" = some { metadata with rosterEpoch := 2 } := by
  simp [added, addAsOwner, metadata, u64]

end OwnerSample

set_option maxRecDepth 20000 in
/-- A hand-over whose row is not written ends in an error, and the owner and
the epoch are the new ones: it never arrives again. And a rename made after
an add but sent before its `member_joined` carries the add's epoch, which
makes the `member_joined` stale. -/
theorem owner_event_lost :
    (OwnerSample.handedOver.1.toOption = none ∧
      (OwnerSample.handedOver.2.store.loadMetadata "g").map
        (fun m => (m.ownerIdentity, m.rosterEpoch)) = some ("a", 2) ∧
      (OwnerSample.transfer.applyTo "o" 0 OwnerSample.handedOver.2).1 =
        .error "Transfer rejected: actor is not the group owner") ∧
    (OwnerSample.added.loadMetadata "g").map (·.rosterEpoch) = some 2 ∧
      OwnerSample.renamed.1 = .ok true ∧
      (OwnerSample.join.applyTo "o" 0 OwnerSample.renamed.2).1 = .error "Stale roster_epoch" := by
  decide

set_option maxRecDepth 20000 in
/-- In the order made, the `member_joined` and the rename take effect. -/
theorem owner_events_take_effect_sample :
    AllTake [⟨OwnerSample.join, "o", 0⟩, ⟨OwnerSample.rename, "o", 0⟩] ⟨OwnerSample.roster, []⟩ := by
  have hjoin : Makes "g" "o" OwnerSample.roster OwnerSample.join OwnerSample.added :=
    .joined (m := OwnerSample.metadata) OwnerSample.loadMetadata_roster rfl (by decide) (by decide)
  have hrename : Makes "g" "o" OwnerSample.added OwnerSample.rename
      (renameAsOwner OwnerSample.added { OwnerSample.metadata with rosterEpoch := 2 } "t").2 :=
    .renamed "t" OwnerSample.loadMetadata_added rfl (by decide) (by decide)
  have hstep : InStep "g" OwnerSample.roster OwnerSample.roster :=
    ⟨⟨_, _, OwnerSample.loadMetadata_roster, OwnerSample.loadMetadata_roster, rfl, le_refl _,
      le_refl _⟩, fun _ h => h⟩
  obtain ⟨-, -, hreliable⟩ := owner_events_take_effect ⟨OwnerSample.roster, []⟩
  exact (hreliable (by simp [Reliable])).2 "g" "o" _ _ _ (.made hjoin (.made hrename (.done _)))
    hstep _ rfl (by simp)

end Pbr
