import PpBrowser.Messaging.GroupRosterFrame
import PpBrowser.Messaging.GroupRosterKept
import PpBrowser.Messaging.RelayReceivePipeline

/-!
# GroupJoinBundle — a join bundle kept whole or not at all

`ApplyJoinBundle` checks a bundle with its own statement and changes, and
then applies the group's roster with the statement that wins, the changes
that were held and the epoch it has. Where the two rosters differ the bundle
is refused after it was kept.
-/

namespace Pbr

open Lib GroupRosterStore

/-! ## Holding changes beside metadata -/

section Commute

variable {K : GroupCrypto} {store : GroupRosterStore} {cards : GroupCardLookup} {now : Int}
  {m m' : GroupMetadata}

/-- Holding a change asks the metadata only whether the group is over. -/
theorem holdChange_upsertMetadata (hm : store.loadMetadata m'.groupId = some m)
    (hstate : m'.syncState = m.syncState) (c : GroupChange) (lineShown : Bool) :
    (holdChange K (store.upsertMetadata m') c cards now lineShown).2 =
      (holdChange K store c cards now lineShown).2.upsertMetadata m' := by
  have hload : (store.upsertMetadata m').loadMetadata c.groupId =
      if c.groupId = m'.groupId then some m' else store.loadMetadata c.groupId :=
    loadMetadata_upsertMetadata ..
  have hrows : (store.upsertMetadata m').heldRows c.groupId = store.heldRows c.groupId := rfl
  have hlisted : (store.upsertMetadata m').listGroupChanges c.groupId =
      store.listGroupChanges c.groupId := rfl
  unfold holdChange
  dsimp only
  rw [hload, hrows, hlisted]
  by_cases hg : c.groupId = m'.groupId
  · rw [if_pos hg, hg, hm]
    cases (checkChanges K [c] cards now).head? with
    | none => rfl
    | some checked =>
      dsimp only
      rw [hstate]
      split
      · rfl
      split
      · rfl
      split
      · split
        · split <;> rfl
        · rfl
      · rfl
  · rw [if_neg hg]
    cases store.loadMetadata c.groupId with
    | none => rfl
    | some mc =>
      cases (checkChanges K [c] cards now).head? with
      | none => rfl
      | some checked =>
        dsimp only
        split
        · rfl
        split
        · rfl
        split
        · split
          · split <;> rfl
          · rfl
        · rfl

theorem loadMetadata_holdChange (c : GroupChange) (lineShown : Bool) (g : String) :
    (holdChange K store c cards now lineShown).2.loadMetadata g = store.loadMetadata g := by
  rcases holdChange_cases (K := K) c lineShown with
    hsame | ⟨m, row, -, -, -, hafter⟩
  · rw [hsame]
  · rw [hafter]
    exact loadMetadata_upsertGroupChange ..

theorem loadMetadata_holdCarried (changes : List GroupChange) (lineShown : Bool) (g : String) :
    (holdCarried K store changes cards now lineShown).loadMetadata g = store.loadMetadata g := by
  unfold holdCarried
  induction changes.map (withCarried (carriedCards changes)) generalizing store with
  | nil => rfl
  | cons c cs ih =>
    rw [List.foldl_cons, ih]
    exact loadMetadata_holdChange c lineShown g

theorem holdCarried_upsertMetadata (hm : store.loadMetadata m'.groupId = some m)
    (hstate : m'.syncState = m.syncState) (changes : List GroupChange) (lineShown : Bool) :
    holdCarried K (store.upsertMetadata m') changes cards now lineShown =
      (holdCarried K store changes cards now lineShown).upsertMetadata m' := by
  unfold holdCarried
  induction changes.map (withCarried (carriedCards changes)) generalizing store with
  | nil => rfl
  | cons c cs ih =>
    rw [List.foldl_cons, List.foldl_cons, holdChange_upsertMetadata hm hstate]
    apply ih
    rw [loadMetadata_holdChange]
    exact hm

end Commute

/-! ## The roster that is applied -/

/-- The statement `g` has once the bundle's was offered to its group. -/
def inForce (store : GroupRosterStore) (s : GroupRosterStatement) (g : String) :
    Option GroupRosterStatement :=
  (store.loadMetadata g).bind fun m =>
    if s.groupId = g ∧ m.syncState ≠ .dissolved ∧ candidateWins m.held s = true then
      (GroupRosterStatement.fromJson s.toJson).toOption
    else m.held

/-- The roster that is applied has `us`: the statement in force is no older
than the epoch of `g`, which goes on, and lists us with the changes that the
store holds of those carried. -/
def JoinApplies (K : GroupCrypto) (store : GroupRosterStore) (s : GroupRosterStatement)
    (changes : List GroupChange) (g us : String) (cards : GroupCardLookup) (now : Int) : Prop :=
  ∃ m held, store.loadMetadata g = some m ∧ m.syncState ≠ .dissolved ∧ inForce store s g = some held ∧
    m.rosterEpoch ≤ held.rosterEpoch ∧
    (heldView K (holdCarried K store changes cards now true) g held cards now).lists us = true

section Kept

variable {K : GroupCrypto} {store : GroupRosterStore} {s : GroupRosterStatement}
  {changes : List GroupChange} {us : String} {cards : GroupCardLookup} {now : Int}

theorem verified_of_checkJoin (h : checkJoin K store s changes cards now us = .ok ()) :
    ∃ m, store.loadMetadata s.groupId = some m ∧ s.dissolved = false ∧ s.verify K m.ownerIdentity = .ok () := by
  unfold checkJoin at h
  obtain ⟨m, hm, h⟩ := roe_bind_ok.mp h
  obtain ⟨hlive, h⟩ := of_guard_ok h
  obtain ⟨⟨⟩, hverify, -⟩ := roe_bind_ok.mp h
  refine ⟨m, ?_, by simpa using hlive, hverify⟩
  unfold metadataOf at hm
  cases hload : store.loadMetadata s.groupId with
  | none =>
    rw [hload] at hm
    cases hm
  | some m' =>
    rw [hload] at hm
    cases hm
    rfl

/-- A store after `KeepStatement`: the statement in force, and nothing else
that the apply path or the holding of changes asks. -/
structure KeptOn (store kept : GroupRosterStore) (s : GroupRosterStatement) : Prop where
  metadata : ∀ g m, store.loadMetadata g = some m → ∃ mk, kept.loadMetadata g = some mk ∧
    mk.syncState = m.syncState ∧ mk.rosterEpoch = m.rosterEpoch ∧ mk.held = inForce store s g
  changes : ∀ (K : GroupCrypto) changes cards now g, heldChanges (holdCarried K kept changes cards now true) g =
    heldChanges (holdCarried K store changes cards now true) g

/-- A bundle that passes `CheckJoin` has its statement offered. -/
theorem keepStatement_of_checkJoin (h : checkJoin K store s changes cards now us = .ok ()) :
    ∃ wins kept, keepStatement K store s = .ok (wins, kept) ∧ KeptOn store kept s := by
  obtain ⟨m, hm, hlive, hverify⟩ := verified_of_checkJoin h
  have hgroup : m.groupId = s.groupId := groupId_of_loadMetadata hm
  by_cases hwins : m.syncState ≠ .dissolved ∧ candidateWins m.held s = true
  · refine ⟨true, store.upsertMetadata (m.keeping s), ?_, ?_, ?_⟩
    · simp [keepStatement, metadataOf, hm, hlive, hwins.1, hwins.2, hverify, GroupMetadata.keeping]
    · intro g mg hmg
      have hload : (store.upsertMetadata (m.keeping s)).loadMetadata g =
          if g = s.groupId then some (m.keeping s) else store.loadMetadata g := by
        rw [loadMetadata_upsertMetadata, show (m.keeping s).groupId = s.groupId from hgroup]
      by_cases hg : g = s.groupId
      · subst hg
        obtain rfl : m = mg := Option.mem_unique hm hmg
        refine ⟨m.keeping s, by rw [hload, if_pos rfl], rfl, rfl, ?_⟩
        rw [inForce, hm, Option.bind_some, if_pos ⟨rfl, hwins⟩]
        rfl
      · refine ⟨mg, by rw [hload, if_neg hg, hmg], rfl, rfl, ?_⟩
        rw [inForce, hmg, Option.bind_some, if_neg fun hsame => hg hsame.1.symm]
    · intro K changes cards now g
      rw [holdCarried_upsertMetadata (show store.loadMetadata (m.keeping s).groupId = some m from
        hgroup ▸ hm) rfl]
      rfl
  · refine ⟨false, store, ?_, ?_, fun _ _ _ _ _ => rfl⟩
    · by_cases hd : m.syncState = .dissolved
      · simp [keepStatement, metadataOf, hm, hlive, hd]
      · have hloses : candidateWins m.held s = false := by simpa [hd] using hwins
        simp [keepStatement, metadataOf, hm, hlive, hd, hverify, hloses]
    · intro g mg hmg
      refine ⟨mg, hmg, rfl, rfl, ?_⟩
      rw [inForce, hmg, Option.bind_some]
      by_cases hg : s.groupId = g
      · subst hg
        obtain rfl : m = mg := Option.mem_unique hm hmg
        rw [if_neg fun hsame => hwins hsame.2]
      · rw [if_neg fun hsame => hg hsame.1]

theorem isMember_of_shown {after : GroupRosterStore} {g : String} {view : GroupRosterView}
    (h : ShowsMembers (after.roster g) view) (us : String) : after.isMember g us = view.lists us := by
  have hrow := h us
  rw [isMember, findMember, GroupRosterView.lists]
  cases hr : (after.roster g)[us]? <;> cases hv : view.find us <;> simp_all

/-- The apply path after the bundle was kept: it has us just when
`JoinApplies`, and then they are in the rows. -/
theorem applyView_after (K : GroupCrypto) (changes : List GroupChange) (us : String) (cards : GroupCardLookup)
    (now : Int) {kept : GroupRosterStore} (hkept : KeptOn store kept s) {g : String} {m : GroupMetadata}
    (hm : store.loadMetadata g = some m) : ∃ applied after,
      applyView K (holdCarried K kept changes cards now true) g cards now = .ok (applied, after) ∧
        (applied.view.any (·.lists us) = true ↔ JoinApplies K store s changes g us cards now) ∧
        (applied.view.any (·.lists us) = true → after.isMember g us = true) := by
  obtain ⟨mk, hmk, hstate, hepoch, hheld⟩ := hkept.metadata g m hm
  have hload : (holdCarried K kept changes cards now true).loadMetadata g = some mk := by
    rw [loadMetadata_holdCarried]
    exact hmk
  by_cases hd : mk.syncState = .dissolved
  · refine ⟨_, _, applyView_dissolved hload hd, ?_, by simp⟩
    refine iff_of_false (by simp) ?_
    rintro ⟨m', held, hm', hlive, -⟩
    obtain rfl : m = m' := Option.mem_unique hm hm'
    exact hlive (hstate ▸ hd)
  by_cases hidle : ∀ held ∈ mk.held, held.rosterEpoch < mk.rosterEpoch
  · refine ⟨_, _, applyView_idle hload hd hidle, ?_, by simp⟩
    refine iff_of_false (by simp) ?_
    rintro ⟨m', held, hm', -, hforce, hle, -⟩
    obtain rfl : m = m' := Option.mem_unique hm hm'
    have hlt := hidle held (hheld.trans hforce)
    omega
  · obtain ⟨held, hforce, hle⟩ : ∃ held ∈ mk.held, ¬ held.rosterEpoch < mk.rosterEpoch := by
      simpa only [not_forall, exists_prop] using hidle
    have hview : heldView K (holdCarried K kept changes cards now true) g held cards now =
        heldView K (holdCarried K store changes cards now true) g held cards now := by
      rw [heldView, heldView, hkept.changes]
    refine ⟨_, _, applyView_eq hload hd hforce (Nat.le_of_not_lt hle), ?_, ?_⟩
    · show Option.any _ (some _) = true ↔ _
      rw [Option.any_some, hview]
      constructor
      · intro hlists
        exact ⟨m, held, hm, hstate ▸ hd, hheld.symm.trans hforce, by omega, hlists⟩
      · rintro ⟨m', held', -, -, hforce', -, hlists⟩
        obtain rfl : held = held' := Option.some.inj (hforce.symm.trans (hheld.trans hforce'))
        exact hlists
    · intro hlists
      refine (isMember_of_shown (showsMembers_appliedBy held mk ?_) us).trans hlists
      exact nodup_members _ _ _

end Kept

/-! ## The bundle -/

section Bundle

variable (pipeline : RelayReceivePipeline) (device : GroupDevice) (now : Int) (joined : MemberJoinedPayload)
  (nonce : String) (statement : Option GroupRosterStatement) (changes : List GroupChange) (actor : String)

/-- The bundle is from who may send it and its statement and changes prove a
roster with us in it: what it carries is kept. -/
def BundleKept (s : GroupRosterStatement) : Prop :=
  statement = some s ∧
    (∃ m, device.roster.loadMetadata joined.groupId = some m ∧
      (pipeline.fromInviter device joined.groupId nonce actor = true ∨ m.ownerIdentity = actor)) ∧
    checkJoin pipeline.crypto device.roster s (changes.filter (·.groupId = joined.groupId))
      pipeline.accountCards now pipeline.localAccount = .ok ()

/-- A refused bundle leaves the store as it was; one with a statement that is
taken lists us. -/
structure WholeOrNothing (handled : Handled) : Prop where
  refused : ∀ e, handled.1 = .error e → handled.2.roster = device.roster
  joined : handled.1 = .ok () → statement.isSome = true →
    handled.2.roster.isMember joined.groupId pipeline.localAccount = true

variable {pipeline device now joined nonce statement changes actor}

theorem isMember_finishView (applied : GroupViewApplied) (g us : String) :
    (pipeline.finishView device g applied).roster.isMember g us = device.roster.isMember g us := by
  unfold RelayReceivePipeline.finishView
  split
  · rfl
  · split
    · unfold RelayReceivePipeline.markRemovedHere
      split
      · rfl
      · split <;> rfl
    · rfl

/-- A bundle that is not kept changes nothing, or is the owner's own word. -/
theorem applyJoinBundle_unkept (h : ∀ s, ¬ BundleKept pipeline device now joined nonce statement changes actor s) :
    WholeOrNothing pipeline device joined statement
      (pipeline.applyJoinBundle device now joined nonce statement changes actor) := by
  unfold RelayReceivePipeline.applyJoinBundle
  cases hm : device.roster.loadMetadata joined.groupId with
  | none => exact ⟨fun _ _ => rfl, fun hok => (by cases hok)⟩
  | some m =>
    dsimp only
    by_cases hstranger : !pipeline.fromInviter device joined.groupId nonce actor ∧ m.ownerIdentity ≠ actor
    · rw [if_pos hstranger]
      exact ⟨fun _ _ => rfl, fun hok => (by cases hok)⟩
    rw [if_neg hstranger]
    cases hs : statement with
    | none =>
      dsimp only
      split
      · exact ⟨fun _ _ => rfl, fun hok => (by cases hok)⟩
      · cases applyMemberJoined device.roster joined actor now with
        | error e => exact ⟨fun _ _ => rfl, fun hok => (by cases hok)⟩
        | ok roster => exact ⟨fun e he => (by cases he), fun _ hsome => (by cases hsome)⟩
    | some s =>
      dsimp only
      cases hcheck : checkJoin pipeline.crypto device.roster s (changes.filter (·.groupId = joined.groupId))
          pipeline.accountCards now pipeline.localAccount with
      | error e => exact ⟨fun _ _ => rfl, fun hok => (by cases hok)⟩
      | ok u =>
        refine absurd ⟨hs, ⟨m, hm, ?_⟩, hcheck⟩ (h s)
        by_contra hneither
        rw [not_or] at hneither
        exact hstranger ⟨by simpa using hneither.1, hneither.2⟩

theorem applyJoinBundle_kept {s : GroupRosterStatement}
    (h : BundleKept pipeline device now joined nonce statement changes actor s) :
    ∃ wins kept applied after, keepStatement pipeline.crypto device.roster s = .ok (wins, kept) ∧
      applyView pipeline.crypto (holdCarried pipeline.crypto kept
        (changes.filter (·.groupId = joined.groupId)) pipeline.accountCards now true) joined.groupId
        pipeline.accountCards now = .ok (applied, after) ∧
      (JoinApplies pipeline.crypto device.roster s (changes.filter (·.groupId = joined.groupId))
            joined.groupId pipeline.localAccount pipeline.accountCards now ∧
          after.isMember joined.groupId pipeline.localAccount = true ∧
          pipeline.applyJoinBundle device now joined nonce statement changes actor =
            (.ok (), pipeline.finishView { device with roster := after } joined.groupId applied) ∨
        ¬ JoinApplies pipeline.crypto device.roster s (changes.filter (·.groupId = joined.groupId))
            joined.groupId pipeline.localAccount pipeline.accountCards now ∧
          pipeline.applyJoinBundle device now joined nonce statement changes actor =
            (.error "join bundle: the roster it proves does not have us", { device with roster := after })) := by
  obtain ⟨rfl, ⟨m, hm, hfrom⟩, hcheck⟩ := h
  obtain ⟨wins, kept, hkeep, hkept⟩ := keepStatement_of_checkJoin hcheck
  obtain ⟨applied, after, happly, hlists, hlisted⟩ := applyView_after pipeline.crypto
    (changes.filter (·.groupId = joined.groupId)) pipeline.localAccount pipeline.accountCards now hkept hm
  refine ⟨wins, kept, applied, after, hkeep, happly, ?_⟩
  have hstranger : ¬ (!pipeline.fromInviter device joined.groupId nonce actor ∧ m.ownerIdentity ≠ actor) := by
    rintro ⟨hnot, hne⟩
    rcases hfrom with hinviter | howner
    · simp [hinviter] at hnot
    · exact hne howner
  unfold RelayReceivePipeline.applyJoinBundle
  simp only [hm, if_neg hstranger, hcheck, hkeep, happly]
  by_cases hview : applied.view.any (·.lists pipeline.localAccount) = true
  · left
    refine ⟨hlists.mp hview, hlisted hview, ?_⟩
    rw [if_neg (by simp [hview])]
  · right
    refine ⟨fun hjoins => hview (hlists.mpr hjoins), ?_⟩
    rw [if_pos (by simpa using hview)]

/-- A bundle is kept whole or not at all where the roster that is applied of
one that is kept has us. Where it does not, the bundle is refused with its
statement, its changes and the view applied left in the store. -/
theorem join_bundle_whole_or_nothing :
    ((∀ s, BundleKept pipeline device now joined nonce statement changes actor s →
        JoinApplies pipeline.crypto device.roster s (changes.filter (·.groupId = joined.groupId))
          joined.groupId pipeline.localAccount pipeline.accountCards now) →
      WholeOrNothing pipeline device joined statement
        (pipeline.applyJoinBundle device now joined nonce statement changes actor)) ∧
    ∀ s, BundleKept pipeline device now joined nonce statement changes actor s →
      ¬ JoinApplies pipeline.crypto device.roster s (changes.filter (·.groupId = joined.groupId))
        joined.groupId pipeline.localAccount pipeline.accountCards now →
      ∃ wins kept applied after, keepStatement pipeline.crypto device.roster s = .ok (wins, kept) ∧
        applyView pipeline.crypto (holdCarried pipeline.crypto kept
          (changes.filter (·.groupId = joined.groupId)) pipeline.accountCards now true) joined.groupId
          pipeline.accountCards now = .ok (applied, after) ∧
        pipeline.applyJoinBundle device now joined nonce statement changes actor =
          (.error "join bundle: the roster it proves does not have us", { device with roster := after }) := by
  constructor
  · intro hjoins
    by_cases hkept : ∃ s, BundleKept pipeline device now joined nonce statement changes actor s
    · obtain ⟨s, hs⟩ := hkept
      obtain ⟨wins, kept, applied, after, -, -, ⟨-, hlisted, hresult⟩ | ⟨hno, -⟩⟩ := applyJoinBundle_kept hs
      · rw [hresult]
        refine ⟨fun e he => (by cases he), fun _ _ => ?_⟩
        rw [isMember_finishView]
        exact hlisted
      · exact absurd (hjoins s hs) hno
    · exact applyJoinBundle_unkept (not_exists.mp hkept)
  · intro s hs hno
    obtain ⟨wins, kept, applied, after, hkeep, happly, ⟨hjoins', -⟩ | ⟨-, hresult⟩⟩ := applyJoinBundle_kept hs
    · exact absurd hjoins' hno
    · exact ⟨wins, kept, applied, after, hkeep, happly, hresult⟩

end Bundle

/-! ### A statement older than the epoch -/

namespace JoinSample

/-- The device of `b`, which `c` brings in. -/
def pipeline : RelayReceivePipeline :=
  { crypto := sampleSigning, accountCards := sampleCards, localAccount := "b" }

/-- The group at an epoch, as accepting the invite left it. -/
def accepted (epoch : Nat) : GroupDevice :=
  { roster := ({} : GroupRosterStore).upsertMetadata
      { groupId := "g", ownerIdentity := "c", rosterEpoch := epoch } }

def joined : MemberJoinedPayload := { groupId := "g", memberIdentity := "b" }

/-- What the device keeps of the group's statement. -/
def keptStatement (device : GroupDevice) : Option GroupRosterStatement :=
  (device.roster.loadMetadata "g").bind (·.held)

end JoinSample

open JoinSample in
set_option maxRecDepth 20000 in
/-- The bundle proves the join by a statement older than the epoch the
device has: it is refused and its statement stays. -/
theorem refused_bundle_kept : ¬ WholeOrNothing pipeline (accepted 9) joined (some sampleStripped)
    (pipeline.applyJoinBundle (accepted 9) 0 joined "" (some sampleStripped) [] "c") := by
  intro h
  have hrefused : (pipeline.applyJoinBundle (accepted 9) 0 joined "" (some sampleStripped) [] "c").1 =
      .error "join bundle: the roster it proves does not have us" := by
    decide
  have hstatement : keptStatement
      (pipeline.applyJoinBundle (accepted 9) 0 joined "" (some sampleStripped) [] "c").2 =
        some sampleStripped := by
    decide
  rw [keptStatement, h.refused _ hrefused] at hstatement
  revert hstatement
  decide

open JoinSample in
set_option maxRecDepth 20000 in
theorem join_bundle_whole_or_nothing_sample : WholeOrNothing pipeline (accepted 7) joined
    (some sampleStripped)
    (pipeline.applyJoinBundle (accepted 7) 0 joined "" (some sampleStripped) [] "c") := by
  apply join_bundle_whole_or_nothing.1
  rintro s ⟨hs, -⟩
  obtain rfl : sampleStripped = s := Option.some.inj hs
  refine ⟨{ groupId := "g", ownerIdentity := "c", rosterEpoch := 7 }, sampleStripped, by rfl, ?_⟩
  decide

end Pbr
