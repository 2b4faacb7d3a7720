import PpBrowser.Messaging.GroupRosterFrame
import PpBrowser.Messaging.GroupRosterOwners
import PpBrowser.Messaging.GroupRosterWellFormed

/-!
# GroupOwnerDraft — what the owner signs next

`OwnerDraft` takes the members and the title from the stored rows and
metadata, and the folded ids from a view computed when it signs. Where the
rows already stand as that view has it, nothing folded is lost; a change
that came after the owner's own next epoch is folded all the same, and was
never taken in.
-/

namespace Pbr

open Lib GroupRosterStore

/-! ## The draft -/

def statementRows (members : List GroupRosterMember) : List GroupRosterStatementMember :=
  members.map fun m =>
    { identity := m.memberIdentity, role := m.role, joinedAt := m.joinedAt, addedBy := m.addedBy }

/-- The statement the owner folds over: the one held, else the rows alone. -/
def foldStart (metadata : GroupMetadata) (rows : List GroupRosterStatementMember) :
    GroupRosterStatement :=
  metadata.held.getD
    { groupId := metadata.groupId, members := rows, preset := metadata.policy.preset
      ownerIdentity := metadata.ownerIdentity }

/-- `FoldBase`: that statement, and its view of the changes held. -/
def foldBase (K : GroupCrypto) (store : GroupRosterStore) (metadata : GroupMetadata)
    (rows : List GroupRosterStatementMember) (cards : GroupCardLookup) (nowMs : Int) :
    GroupRosterView × GroupRosterStatement :=
  let base := foldStart metadata rows
  (heldView K store metadata.groupId base cards nowMs, base)

/-- The draft before its folded ids: one the owner brought back is a member,
not removed. -/
def draftLists (metadata : GroupMetadata) (rows : List GroupRosterStatementMember)
    (chain : List GroupOwnerTransfer) (ownerIdentity ownerKeyB64 : String)
    (base : GroupRosterStatement) (view : GroupRosterView) : GroupRosterStatement :=
  let draft : GroupRosterStatement :=
    { groupId := metadata.groupId, rosterEpoch := max metadata.rosterEpoch base.rosterEpoch
      members := rows, ownerChain := chain, preset := metadata.policy.preset
      title := metadata.title, titleVersion := metadata.titleVersion
      ownerIdentity, ownerPublicKeyB64 := ownerKeyB64 }
  { draft with
    removed := view.removed.filter fun r => !draft.lists r.identity
    links := view.links.filter fun l => draft.lists l.maker }

/-- The draft with its folded ids; one that says something new at its base's
epoch takes the next epoch. -/
def draftOver (base : GroupRosterStatement) (view : GroupRosterView)
    (draft : GroupRosterStatement) : GroupRosterStatement :=
  let folded := foldInto base view draft
  if base.ownerSignatureB64 ≠ "" ∧ folded.rosterEpoch = base.rosterEpoch ∧
      folded.signBytes ≠ base.signBytes then
    foldInto base view { folded with rosterEpoch := u64 (folded.rosterEpoch + 1) }
  else folded

/-- `OwnerDraft`: the statement the owner would sign now, its signature
left out. -/
def ownerDraft (K : GroupCrypto) (store : GroupRosterStore) (metadata : GroupMetadata)
    (rows : List GroupRosterStatementMember) (chain : List GroupOwnerTransfer)
    (ownerIdentity ownerKeyB64 : String) (cards : GroupCardLookup) (nowMs : Int) :
    GroupRosterStatement :=
  let (view, base) := foldBase K store metadata rows cards nowMs
  draftOver base view (draftLists metadata rows chain ownerIdentity ownerKeyB64 base view)

/-- `HoldsFoldable`: some change held would be folded. -/
def holdsFoldable (K : GroupCrypto) (store : GroupRosterStore) (groupId : String)
    (cards : GroupCardLookup) (nowMs : Int) : Bool :=
  (store.loadMetadata groupId).any fun metadata =>
    metadata.syncState = .active ∧
      (foldBase K store metadata (statementRows (store.listMembers groupId)) cards nowMs).1.verdicts.any
        foldsIn

/-- `SignRoster`: the draft under the account's signature, the roster at its
epoch, the statement kept and the view applied. -/
def signRoster (K : GroupCrypto) (store : GroupRosterStore) (groupId : String)
    (handed : Option GroupOwnerTransfer) (account keyB64 : String)
    (signB64 : ByteVector → String) (cards : GroupCardLookup) (nowMs : Int) :
    Roe (GroupRosterStatement × GroupRosterStore) := do
  let metadata ← store.metadataOf groupId
  if metadata.ownerIdentity ≠ account then throw "Only the group owner signs its roster"
  let chain := ((metadata.held.map (·.ownerChain)).getD []) ++ handed.toList
  let draft := (ownerDraft K store metadata (statementRows (store.listMembers groupId)) chain
    account keyB64 cards nowMs).sortLists
  let statement := { draft with ownerSignatureB64 := signB64 draft.signBytes }
  let store :=
    if statement.rosterEpoch > metadata.rosterEpoch then
      store.upsertMetadata { metadata with rosterEpoch := statement.rosterEpoch }
    else store
  let (_, store) ← keepStatement K store statement
  let (_, store) ← applyView K store groupId cards nowMs
  return (statement, store)

/-! ## The lists it passes -/

/-- What `CheckLists` checks. -/
structure SoundLists (s : GroupRosterStatement) : Prop where
  removedIds : ∀ r ∈ s.removed, r.identity ≠ ""
  removed : (s.removed.map (·.identity)).Nodup
  removedOut : ∀ r ∈ s.removed, s.lists r.identity = false
  linkIds : ∀ l ∈ s.links, l.linkId ≠ ""
  links : (s.links.map (·.linkId)).Nodup
  foldedIds : ∀ f ∈ s.folded, f.id ≠ ""
  folded : (s.folded.map (·.id)).Nodup
  floor : s.changeFloorEpoch ≤ s.rosterEpoch
  aboveFloor : ∀ f ∈ s.folded, s.changeFloorEpoch ≤ f.baseEpoch

variable {s : GroupRosterStatement}

theorem soundLists_iff : s.checkLists = .ok () ↔ SoundLists s := by
  rw [GroupRosterStatement.checkLists_iff]
  simp only [GroupRosterStatement.allUnique_iff, List.mem_map, forall_exists_index, and_imp,
    forall_apply_eq_imp_iff₂, List.any_eq_false, decide_eq_true_eq, not_lt, Bool.not_eq_true]
  constructor
  · rintro ⟨⟨h1, h2⟩, h3, ⟨h4, h5⟩, ⟨h6, h7⟩, h8, h9⟩
    exact ⟨h1, h2, h3, h4, h5, h6, h7, h8, h9⟩
  · intro h
    exact ⟨⟨h.removedIds, h.removed⟩, h.removedOut, ⟨h.linkIds, h.links⟩,
      ⟨h.foldedIds, h.folded⟩, h.floor, h.aboveFloor⟩

theorem soundLists_of_structured (h : s.Structured) : SoundLists s := by
  refine ⟨h.removedIds, h.removed, fun r hr => ?_, h.linkIds, h.links, h.foldedIds, h.folded,
    h.floor, h.aboveFloor⟩
  rw [← Bool.not_eq_true, GroupRosterStatement.lists_iff]
  rintro ⟨m, hm, hid⟩
  exact h.removedOut r hr m hm hid

theorem soundLists_stored (h : SoundLists s) : SoundLists s.stored := by
  have hlists (identity : String) : s.stored.lists identity = s.lists identity := by
    unfold GroupRosterStatement.lists
    show (s.members.map GroupRosterStatement.storedMember).any _ = _
    rw [List.any_map]
    rfl
  refine ⟨h.removedIds, h.removed, fun r hr => ?_, fun l hl => ?_, ?_, h.foldedIds, h.folded,
    h.floor, h.aboveFloor⟩
  · rw [hlists]
    exact h.removedOut r hr
  · obtain ⟨link, hlink, rfl⟩ := List.mem_map.mp hl
    exact h.linkIds link hlink
  · show ((s.links.map GroupRosterStatement.storedLink).map (·.linkId)).Nodup
    rw [List.map_map]
    exact h.links

theorem soundLists_foldStart {m : GroupMetadata} {rows : List GroupRosterStatementMember}
    (h : ∀ held ∈ m.held, SoundLists held) : SoundLists (foldStart m rows) := by
  unfold foldStart
  cases hheld : m.held with
  | some held => exact h held hheld
  | none => constructor <;> simp

theorem nodup_map_filter {α : Type} {key : α → String} {l : List α} (p : α → Bool)
    (h : (l.map key).Nodup) : ((l.filter p).map key).Nodup :=
  h.sublist (List.filter_sublist.map key)

section View

open RosterRules

variable {base : GroupRosterStatement} {now : Int} {changes : List CheckedGroupChange}

/-- What the draft copies from the view of a statement with sound lists. -/
structure SoundView (view : GroupRosterView) : Prop where
  removedIds : ∀ r ∈ view.removed, r.identity ≠ ""
  removed : (view.removed.map (·.identity)).Nodup
  linkIds : ∀ l ∈ view.links, l.linkId ≠ ""
  links : (view.links.map (·.linkId)).Nodup
  verdictIds : ∀ v ∈ view.verdicts, v.id ≠ ""
  verdicts : (view.verdicts.map (·.id)).Nodup

theorem soundView_run (hbase : SoundLists base) (hn : (changes.map CheckedGroupChange.id).Nodup)
    (hshaped : ∀ c ∈ changes, c.proof = .proved → c.change.shaped = true)
    (hids : ∀ c ∈ changes, c.id ≠ "") : SoundView (run base now changes) := by
  have hverdictIds (v : GroupChangeVerdict) (hv : v ∈ (run base now changes).verdicts) :
      v.id ≠ "" := by
    obtain ⟨c, hc, hid, -⟩ := exists_of_mem_verdicts hn hv
    rw [← hid]
    exact hids c hc
  have hverdicts : ((run base now changes).verdicts.map (·.id)).Nodup := (run_verdicts_sorted hn).imp ne_of_lt
  cases hd : base.dissolved with
  | true =>
    have hrun : run base now changes = _ := run_dissolved hd
    refine ⟨?_, ?_, ?_, ?_, hverdictIds, hverdicts⟩
    all_goals
      rw [hrun]
      simp [viewHead]
  | false =>
    have hview : run base now changes = (indexed base now changes).view := run_eq_view hd now hn
    refine ⟨?_, ?_, ?_, ?_, hverdictIds, hverdicts⟩
    · intro r hr
      exact removed_ne_empty hbase.removed hbase.removedIds hn hshaped (hview ▸ hr)
    · rw [hview]
      exact (removed_sorted _ (keyed_removedMap hbase.removed _)).imp ne_of_lt
    · intro l hl
      exact linkId_ne_empty hbase.linkIds hn hshaped (hview ▸ hl)
    · rw [hview]
      exact links_sorted.imp ne_of_lt

variable {view : GroupRosterView} {next : GroupRosterStatement}

/-- The lists of a draft, before its folded ids. -/
structure DraftLists (base next : GroupRosterStatement) : Prop where
  removedIds : ∀ r ∈ next.removed, r.identity ≠ ""
  removed : (next.removed.map (·.identity)).Nodup
  removedOut : ∀ r ∈ next.removed, next.lists r.identity = false
  linkIds : ∀ l ∈ next.links, l.linkId ≠ ""
  links : (next.links.map (·.linkId)).Nodup
  floor : base.changeFloorEpoch ≤ next.rosterEpoch

theorem DraftLists.foldInto (hbase : SoundLists base) (hview : SoundView view)
    (h : DraftLists base next) : SoundLists (foldInto base view next) := by
  refine ⟨h.removedIds, h.removed, h.removedOut, h.linkIds, h.links, ?_,
    foldInto_folded_sorted.imp ne_of_lt, ?_, fun f hf => (mem_foldInto_folded.mp hf).2⟩
  · intro f hf
    rcases (foldedMap_iff hbase.folded hview.verdicts).mp (mem_foldInto_folded.mp hf).1 with
      ⟨f', hf', hid, -⟩ | ⟨-, v, hv, -, hid, -⟩
    · rw [← hid]
      exact hbase.foldedIds f' hf'
    · rw [← hid]
      exact hview.verdictIds v hv
  · have hfloor := h.floor
    rw [foldInto_floor]
    show max _ _ ≤ next.rosterEpoch
    omega

theorem draftLists_sound (hbase : SoundLists base) (hview : SoundView view) (m : GroupMetadata)
    (rows : List GroupRosterStatementMember) (chain : List GroupOwnerTransfer) (owner key : String) :
    DraftLists base (draftLists m rows chain owner key base view) := by
  refine ⟨?_, nodup_map_filter _ hview.removed, ?_, ?_, nodup_map_filter _ hview.links,
    hbase.floor.trans (le_max_right _ _)⟩
  · intro r hr
    exact hview.removedIds r (List.mem_filter.mp hr).1
  · intro r hr
    obtain ⟨-, hout⟩ := List.mem_filter.mp hr
    rw [Bool.not_eq_true'] at hout
    exact hout
  · intro l hl
    exact hview.linkIds l (List.mem_filter.mp hl).1

theorem draftOver_cases (base : GroupRosterStatement) (view : GroupRosterView) (next : GroupRosterStatement) :
    (draftOver base view next = foldInto base view next ∧
      (base.ownerSignatureB64 ≠ "" → next.rosterEpoch = base.rosterEpoch →
        (foldInto base view next).signBytes = base.signBytes)) ∨
    (next.rosterEpoch = base.rosterEpoch ∧ draftOver base view next =
      foldInto base view { next with rosterEpoch := u64 (base.rosterEpoch + 1) }) := by
  have hepoch : (foldInto base view next).rosterEpoch = next.rosterEpoch := rfl
  unfold draftOver
  dsimp only
  by_cases hnew : base.ownerSignatureB64 ≠ "" ∧ (foldInto base view next).rosterEpoch =
      base.rosterEpoch ∧ (foldInto base view next).signBytes ≠ base.signBytes
  · have hsame : next.rosterEpoch = base.rosterEpoch := hnew.2.1
    rw [if_pos hnew, hepoch, hsame]
    exact .inr ⟨rfl, rfl⟩
  · rw [if_neg hnew]
    refine .inl ⟨rfl, fun hsigned hsame => ?_⟩
    by_contra hdiff
    exact hnew ⟨hsigned, hsame, hdiff⟩

end View

/-! ## What counts shows -/

namespace RosterRules

variable {x : RosterRules} {base : GroupRosterStatement} {now : Int}
  {changes : List CheckedGroupChange}

/-- The member of every add taken in, unless a leave names it, is in. -/
def AcceptedIn (x : RosterRules) (j : Joined) : Prop :=
  ∀ a ∈ x.openAdds x.reasons, a.id ∈ j.accepted → x.reasons[a.id]? = some .none →
    a.change.member ∈ j.in_

theorem AcceptedIn.takeIn (hx : x.WellIndexed) {j j' : Joined} {a : CheckedGroupChange}
    (h : x.AcceptedIn j) (ha : a ∈ x.openAdds x.reasons) (ht : takeIn x.reasons j a = some j') : x.AcceptedIn j' := by
  intro b hb hacc hreason
  have hsame (hid : a.id = b.id) : a = b := by
    have ha := ((mem_adds hx).mp (List.mem_filter.mp ha).1).1
    have hb := ((mem_adds hx).mp (List.mem_filter.mp hb).1).1
    exact eq_of_id hx ha hb hid
  have hbefore (hne : a.id ≠ b.id) (hin : b.id ∈ j.accepted.insert a.id) : b.id ∈ j.accepted := by
    rw [Std.ExtTreeSet.mem_insert] at hin
    exact hin.resolve_left fun hid => hne (compare_eq_iff_eq.mp hid)
  by_cases hid : a.id = b.id
  · obtain rfl := hsame hid
    rcases takeIn_cases ht with ⟨hleave, -⟩ | ⟨-, hin, rfl⟩ | ⟨-, -, -, rfl⟩
    · rw [hreason] at hleave
      cases hleave
    · exact hin
    · exact Std.ExtTreeSet.mem_insert_self
  · rcases takeIn_cases ht with ⟨-, rfl⟩ | ⟨-, -, rfl⟩ | ⟨-, -, -, rfl⟩
    · exact h b hb (hbefore hid hacc) hreason
    · exact h b hb (hbefore hid hacc) hreason
    · exact Std.ExtTreeSet.mem_insert.mpr (.inr (h b hb (hbefore hid hacc) hreason))

theorem acceptedIn_joined (hx : x.WellIndexed) : x.AcceptedIn x.joined := by
  rw [joined_eq]
  refine acceptPasses_induct (P := x.AcceptedIn)
    (fun j a j' hj ha _ _ ht => hj.takeIn hx ha ht) _ _ ?_
  intro a _ hacc
  rw [(x.standingMembers_rest x.oracle).1] at hacc
  exact absurd hacc Std.ExtTreeSet.not_mem_empty

variable {c : CheckedGroupChange} {v : GroupChangeVerdict}

theorem lists_of_applied_add (hn : (changes.map CheckedGroupChange.id).Nodup)
    (hc : c ∈ changes) (hk : c.change.kind = .add) (hv : (run base now changes).verdict c.id = some v)
    (happlied : v.status = .applied) : (run base now changes).lists c.change.member = true := by
  have hcl : classifyOne base (foldedIds base) c = none :=
    held_of_foldsIn hn hc hv (by simp [foldsIn, happlied])
  obtain ⟨st, re, hv', hout⟩ := run_verdict_held base now hn hc hcl
  rw [hv, Option.some.injEq] at hv'
  subst hv'
  have hst : st = .applied := happlied
  have hx : (indexed base now changes).WellIndexed := wellIndexed hn
  rw [run_eq_view (proved_of_held hcl).2 now hn, lists_view]
  generalize hindexed : indexed base now changes = x at *
  have hadd : c ∈ x.adds := by
    apply (mem_adds hx).mpr
    rw [← hindexed]
    exact ⟨(mem_heldChanges_indexed hn).mpr ⟨hc, hcl⟩, hk⟩
  simp only [Outcome, hk] at hout
  unfold addOutcome at hout
  by_cases hacc : c.id ∈ x.joined.accepted
  · obtain ⟨a, ha, hid⟩ := x.grown_joined.accepted c.id hacc
    obtain rfl : a = c := eq_of_id hx ((mem_adds hx).mp (List.mem_filter.mp ha).1).1
      ((mem_adds hx).mp hadd).1 hid
    have hopen : x.reasons[a.id]? = some .none ∨ x.reasons[a.id]? = some .namedByLeave := by
      simpa using (List.mem_filter.mp ha).2
    rcases hopen with hopen | hopen
    · exact acceptedIn_joined hx a ha hacc hopen
    · simp [hacc, hopen, hst] at hout
  · -- an add not taken in is undone or void
    rw [if_neg hacc] at hout
    have hstatus := congrArg Prod.fst hout
    simp only [Asking.under_ite, Asking.under_pure, Asking.under_map, apply_ite Prod.fst, hst]
      at hstatus
    split at hstatus
    · cases hstatus
    · split at hstatus <;> cases hstatus

/-- No rename counts before the renames are all compared, and the best of
them is one of them. -/
theorem judged_loop (hx : x.WellIndexed) (m : Verdicts) :
    (∀ best ∈ ((x.renames.foldlM (x.judgeRename x.joined) (m, none)).under x.oracle).2, best.1 ∈ x.renames) ∧
    Judged (fun _ status _ => status ≠ .applied) x.renames m
      ((x.renames.foldlM (x.judgeRename x.joined) (m, none)).under x.oracle).1 := by
  rw [Asking.under_foldlM]
  refine Judged.foldl (A := Verdicts × BestRename) Prod.fst _
    (fun acc => ∀ best ∈ acc.2, best.1 ∈ x.renames) x.renames
    (fun a ha b hb => ?_) (fun acc hacc c hc => ?_) (s := (m, none)) (by simp)
  · exact eq_of_id hx ((mem_renames hx).mp ha).1 ((mem_renames hx).mp hb).1
  · rw [under_judgeRename]
    by_cases hentitled : x.entitledTo c .rename = .none
    · rw [if_pos hentitled]
      unfold enterRename
      split
      · exact ⟨hacc, _, _, rfl, by simp⟩
      · refine ⟨fun best hbest => ?_, _, _, rfl, by simp⟩
        dsimp only at hbest
        split at hbest
        · cases hbest
          exact hc
        · exact hacc best hbest
    · rw [if_neg hentitled]
      exact ⟨hacc, _, _, rfl, by simp⟩

theorem title_of_marked_rename (hx : x.WellIndexed) (hc : c ∈ x.renames) {re : GroupChangeReason}
    (hv : x.renamed.1[c.id]? = some (verdictOf c .applied re)) :
    x.renamed.2 = (c.change.title, c.change.titleVersion) := by
  obtain ⟨hbest, hmarked, -⟩ := judged_loop hx x.verdictsAfterLeaves
  obtain ⟨st, re', hloop, hne⟩ := hmarked c hc
  have hlost : (some (verdictOf c .applied re)) ≠ some (verdictOf c st re') := by
    intro h
    exact hne (congrArg GroupChangeVerdict.status (Option.some.inj h)).symm
  unfold renamed judgeRenames at hv ⊢
  rw [Asking.under_map] at hv ⊢
  generalize (x.renames.foldlM (x.judgeRename x.joined)
    (x.verdictsAfterLeaves, none)).under x.oracle = judged at *
  obtain ⟨verdicts, best⟩ := judged
  cases best with
  | none => exact absurd (hv.symm.trans hloop) hlost
  | some best =>
    obtain ⟨d, version, rank⟩ := best
    have hd : d ∈ x.renames := hbest _ rfl
    by_cases hid : d.id = c.id
    · obtain rfl : d = c := eq_of_id hx ((mem_renames hx).mp hd).1 ((mem_renames hx).mp hc).1 hid
      rfl
    · dsimp only at hv
      rw [Pbr.mark, Std.ExtTreeMap.getElem?_insert, if_neg (by simpa using hid)] at hv
      exact absurd (hv.symm.trans hloop) hlost

theorem title_of_applied_rename (hn : (changes.map CheckedGroupChange.id).Nodup)
    (hc : c ∈ changes) (hk : c.change.kind = .rename) (hv : (run base now changes).verdict c.id = some v)
    (happlied : v.status = .applied) : (run base now changes).title = c.change.title ∧
      (run base now changes).titleVersion = c.change.titleVersion := by
  have hcl : classifyOne base (foldedIds base) c = none :=
    held_of_foldsIn hn hc hv (by simp [foldsIn, happlied])
  have hx : (indexed base now changes).WellIndexed := wellIndexed hn
  have hheld : c ∈ (indexed base now changes).heldChanges := (mem_heldChanges_indexed hn).mpr ⟨hc, hcl⟩
  rw [run_eq_view (proved_of_held hcl).2 now hn] at hv ⊢
  rw [verdict_view hn] at hv
  generalize indexed base now changes = x at *
  have hrename : c ∈ x.renames := (mem_renames hx).mpr ⟨hheld, hk⟩
  -- the links judged after the renames have other ids
  have hkept : x.linked.1[c.id]? = x.renamed.1[c.id]? := by
    apply (judged_links hx x.renamed.1 rfl).kept
    intro d hd
    rcases List.mem_append.mp hd with hd | hd
    · obtain ⟨hd, hkd⟩ := (mem_linkAdds hx).mp hd
      exact id_ne hx hd hheld (by simp [hkd, hk])
    · obtain ⟨hd, hkd⟩ := (mem_linkRevokes hx).mp hd
      exact id_ne hx hd hheld (by simp [hkd, hk])
  obtain ⟨st, re, hmarked, -⟩ := (judged_view hx).marked c hheld
  rw [hmarked, Option.some.injEq] at hv
  subst hv
  rw [show st = .applied from happlied, hkept] at hmarked
  have htitle := title_of_marked_rename hx hrename hmarked
  rw [view_eq, htitle]
  exact ⟨rfl, rfl⟩

end RosterRules

/-! ## Statements held over a run -/

/-- What a device does to the rosters it stores. -/
inductive RosterCall where
  | keepStatement (statement : GroupRosterStatement)
  | applyView (groupId : String) (cards : GroupCardLookup) (nowMs : Int)
  | holdChange (change : GroupChange) (cards : GroupCardLookup) (nowMs : Int) (lineShown : Bool)
  | memberJoined (payload : MemberJoinedPayload) (actor : String) (nowMs : Int)
  | ownerTransferred (payload : OwnerTransferredPayload) (actor : String) (nowMs : Int)
  | memberRemoved (payload : MemberRemovedPayload) (actor : String)
  | groupRenamed (payload : GroupRenamedPayload) (actor : String)
  | addAsOwner (groupId member localIdentity : String) (nowMs : Int)
  | dissolved (statement : GroupRosterStatement) (localIdentity : String) (actor : Option String)
  | signRoster (groupId : String) (handed : Option GroupOwnerTransfer) (account keyB64 : String)
      (signB64 : ByteVector → String) (cards : GroupCardLookup) (nowMs : Int)

/-- The store after the call: one that fails leaves it as it was. -/
def RosterCall.run (K : GroupCrypto) (store : GroupRosterStore) : RosterCall → GroupRosterStore
  | keepStatement s => storeAfter store (Pbr.keepStatement K store s)
  | applyView g cards now => storeAfter store (Pbr.applyView K store g cards now)
  | holdChange c cards now lineShown => (Pbr.holdChange K store c cards now lineShown).2
  | memberJoined p actor now => (applyMemberJoined store p actor now).toOption.getD store
  | ownerTransferred p actor now => (applyOwnerTransferred store p actor now).toOption.getD store
  | memberRemoved p actor => (applyMemberRemoved store p actor).toOption.getD store
  | groupRenamed p actor => storeAfter store (applyGroupRenamed store p actor)
  | addAsOwner g member localIdentity now =>
    match store.loadMetadata g with
    | none => store
    | some m => Pbr.addAsOwner store m member localIdentity now
  | dissolved s localIdentity actor => storeAfter store (applyDissolved K store s localIdentity actor)
  | signRoster g handed account key signB64 cards now =>
    storeAfter store (Pbr.signRoster K store g handed account key signB64 cards now)

/-- Each held statement after is one held before, or one with sound lists. -/
def HeldFrom (store after : GroupRosterStore) : Prop :=
  ∀ g, heldStatement after g = heldStatement store g ∨
    ∃ held, heldStatement after g = some held ∧ SoundLists held

namespace HeldFrom

variable {a b c store after : GroupRosterStore} {g : String}

theorem trans (hab : HeldFrom a b) (hbc : HeldFrom b c) : HeldFrom a c := by
  intro g
  rcases hbc g with hsame | hnew
  · rw [hsame]
    exact hab g
  · exact .inr hnew

theorem same (h : ∀ g, after.loadMetadata g = store.loadMetadata g) : HeldFrom store after :=
  fun g => .inl (by rw [heldStatement, heldStatement, h])

theorem metadata {m u : GroupMetadata} (hm : store.loadMetadata u.groupId = some m)
    (hu : u.held = m.held) : HeldFrom store (store.upsertMetadata u) := by
  intro g
  left
  rw [heldStatement, heldStatement, loadMetadata_upsertMetadata]
  by_cases hg : g = u.groupId
  · rw [if_pos hg, hg, hm, Option.bind_some, Option.bind_some, hu]
  · rw [if_neg hg]

variable {K : GroupCrypto}

variable {s : GroupRosterStatement} {now : Int} {actor : String} {cards : GroupCardLookup}

theorem keepStatement (hK : K.Sound) {kept : Bool}
    (h : Pbr.keepStatement K store s = .ok (kept, after)) : HeldFrom store after := by
  obtain ⟨-, m, hm, ⟨-, rfl⟩ | ⟨-, -, hverify, -, rfl⟩⟩ := keepStatement_cases h
  · exact same fun _ => rfl
  · have hverified := GroupRosterStatement.verified_of_verify hverify
    intro g
    rw [heldStatement_kept (hverified.storable hK) hm g]
    by_cases hg : g = s.groupId
    · rw [if_pos hg]
      exact .inr ⟨s.stored, rfl, soundLists_stored (soundLists_of_structured hverified.structured)⟩
    · exact .inl (if_neg hg)

theorem applyView {result : GroupViewApplied × GroupRosterStore}
    (h : Pbr.applyView K store g cards now = .ok result) : HeldFrom store result.2 :=
  fun other => .inl (heldStatement_applyView h other)

theorem upsertJoined (g : String) (now : Int) (entries : List MemberJoinedEntry) (h : String) :
    (entries.foldl (Pbr.upsertJoined g now) store).loadMetadata h = store.loadMetadata h := by
  induction entries generalizing store with
  | nil => rfl
  | cons entry entries ih =>
    rw [List.foldl_cons, ih, Pbr.upsertJoined]
    split
    · rfl
    · rw [loadMetadata_upsertMember]

theorem memberJoined {p : MemberJoinedPayload}
    (h : applyMemberJoined store p actor now = .ok after) : HeldFrom store after := by
  obtain ⟨m, hm, h⟩ := roe_bind_ok.mp h
  obtain ⟨-, h⟩ := of_guard_ok h
  obtain ⟨-, -, h⟩ := roe_bind_ok.mp h
  obtain ⟨-, h⟩ := of_guard_ok h
  cases h
  have hm := loadMetadata_of_required hm
  have hgroup : m.groupId = p.groupId := groupId_of_loadMetadata hm
  apply (same (upsertJoined p.groupId now _)).trans
  apply metadata (m := m)
  · rw [upsertJoined]
    show store.loadMetadata m.groupId = some m
    rw [hgroup]
    exact hm
  · rfl

theorem ownerTransferred {p : OwnerTransferredPayload}
    (h : applyOwnerTransferred store p actor now = .ok after) : HeldFrom store after := by
  obtain ⟨m, hm, h⟩ := roe_bind_ok.mp h
  obtain ⟨-, h⟩ := of_guard_ok h
  obtain ⟨-, -, h⟩ := roe_bind_ok.mp h
  obtain ⟨-, h⟩ := of_guard_ok h
  obtain ⟨-, h⟩ := of_guard_ok h
  cases h
  have hm := loadMetadata_of_required hm
  have hgroup : m.groupId = p.groupId := groupId_of_loadMetadata hm
  let u : GroupMetadata := { m with ownerIdentity := p.newOwnerIdentity, rosterEpoch := p.rosterEpoch }
  have hu : store.loadMetadata u.groupId = some m := by
    show store.loadMetadata m.groupId = some m
    rw [hgroup]
    exact hm
  apply (metadata hu rfl).trans
  apply same
  intro h
  split
  · rw [loadMetadata_removeMember, loadMetadata_upsertMember]
  · rw [loadMetadata_upsertMember, loadMetadata_upsertMember]

theorem memberRemoved {p : MemberRemovedPayload}
    (h : applyMemberRemoved store p actor = .ok after) : HeldFrom store after := by
  obtain ⟨m, hm, h⟩ := roe_bind_ok.mp h
  obtain ⟨-, h⟩ := of_guard_ok h
  obtain ⟨-, h⟩ := of_guard_ok h
  obtain ⟨-, -, h⟩ := roe_bind_ok.mp h
  cases h
  have hm := loadMetadata_of_required hm
  have hgroup : m.groupId = p.groupId := groupId_of_loadMetadata hm
  apply (same fun _ => loadMetadata_removeMember ..).trans
  apply metadata (m := m)
  · rw [loadMetadata_removeMember]
    show store.loadMetadata m.groupId = some m
    rw [hgroup]
    exact hm
  · rfl

theorem groupRenamed {p : GroupRenamedPayload} {newer : Bool}
    (h : applyGroupRenamed store p actor = .ok (newer, after)) : HeldFrom store after := by
  obtain ⟨m, hm, h⟩ := roe_bind_ok.mp h
  obtain ⟨-, h⟩ := of_guard_ok h
  have hm := loadMetadata_of_required hm
  have hgroup : m.groupId = p.groupId := groupId_of_loadMetadata hm
  by_cases hold : p.titleVersion ≤ m.titleVersion
  · rw [if_pos hold] at h
    cases h
    exact same fun _ => rfl
  · rw [if_neg hold] at h
    cases h
    apply metadata (m := m)
    · show store.loadMetadata m.groupId = some m
      rw [hgroup]
      exact hm
    · rfl

theorem addAsOwner {m : GroupMetadata} (hm : store.loadMetadata g = some m)
    (member localIdentity : String) (now : Int) :
    HeldFrom store (Pbr.addAsOwner store m member localIdentity now) := by
  have hgroup : m.groupId = g := groupId_of_loadMetadata hm
  apply (same fun _ => loadMetadata_upsertMember ..).trans
  apply metadata (m := m)
  · rw [loadMetadata_upsertMember]
    show store.loadMetadata m.groupId = some m
    rw [hgroup]
    exact hm
  · rfl

theorem holdChange (change : GroupChange) (cards : GroupCardLookup) (now : Int)
    (lineShown : Bool) : HeldFrom store (Pbr.holdChange K store change cards now lineShown).2 := by
  rcases holdChange_cases (K := K) change lineShown with
    hsame | ⟨m, row, -, -, -, hafter⟩
  · rw [hsame]
    exact same fun _ => rfl
  · rw [hafter]
    exact same fun _ => loadMetadata_upsertGroupChange ..

theorem heldStatement_endGroup {ending : GroupEnding} (h : store.endGroup g ending = some after)
    (other : String) : heldStatement after other = if other = g then
        ending.statementJson.bind fun json => (GroupRosterStatement.fromJson json).toOption
      else heldStatement store other := by
  unfold endGroup at h
  cases hm : store.loadMetadata g with
  | none => simp [hm] at h
  | some m =>
    have hgroup : m.groupId = g := groupId_of_loadMetadata hm
    rw [hm] at h
    by_cases hd : m.syncState = .dissolved
    · simp [hd] at h
    · simp only [if_neg hd, Option.some.injEq] at h
      subst h
      rw [heldStatement, loadMetadata, Std.ExtTreeMap.getElem?_insert, hgroup]
      by_cases hother : other = g
      · rw [if_pos hother, if_pos (by simp [hother])]
        rfl
      · rw [if_neg hother, if_neg (by simpa using Ne.symm hother)]
        rfl

/-- The dissolve kept is one that passed `Verify`. -/
theorem dissolved (hK : K.Sound) {localIdentity : String} {actor : Option String} {ended : Bool}
    (h : applyDissolved K store s localIdentity actor = .ok (ended, after)) : HeldFrom store after := by
  have hstays : HeldFrom store store := same fun _ => rfl
  unfold applyDissolved at h
  cases hm : store.loadMetadata s.groupId with
  | none =>
    rw [hm] at h
    cases h
    exact hstays
  | some m =>
    rw [hm] at h
    dsimp only at h
    split at h
    · cases h
      exact hstays
    split at h
    · cases h
    split at h
    · cases h
    split at h
    · cases h
    next hverify =>
    split at h
    · cases h
    split at h
    · cases h
    split at h
    · cases h
      exact hstays
    next hend =>
    cases h
    have hverified := GroupRosterStatement.verified_of_verify hverify
    intro g
    rw [heldStatement_endGroup hend]
    by_cases hg : g = s.groupId
    · rw [if_pos hg]
      refine .inr ⟨s.stored, ?_,
        soundLists_stored (soundLists_of_structured hverified.structured)⟩
      show (GroupRosterStatement.fromJson s.toJson).toOption = _
      rw [GroupRosterStatement.fromJson_toJson (hverified.storable hK)]
      rfl
    · exact .inl (if_neg hg)

theorem signRoster (hK : K.Sound) {handed : Option GroupOwnerTransfer} {account keyB64 : String}
    {signB64 : ByteVector → String}
    (h : Pbr.signRoster K store g handed account keyB64 signB64 cards now = .ok (s, after)) :
    HeldFrom store after := by
  obtain ⟨m, hm, h⟩ := roe_bind_ok.mp h
  rw [metadataOf_eq_ok] at hm
  obtain ⟨-, h⟩ := of_guard_ok h
  obtain ⟨⟨kept, mid⟩, hkeep, h⟩ := roe_bind_ok.mp h
  obtain ⟨⟨applied, last⟩, hview, h⟩ := roe_bind_ok.mp h
  cases h
  have hgroup : m.groupId = g := groupId_of_loadMetadata hm
  refine trans ?_ ((keepStatement hK hkeep).trans (applyView hview))
  split
  · apply metadata (m := m)
    · show store.loadMetadata m.groupId = some m
      rw [hgroup]
      exact hm
    · rfl
  · exact same fun _ => rfl

end HeldFrom

section Runs

variable {K : GroupCrypto}

variable {store : GroupRosterStore}

theorem heldFrom_storeAfter {α : Type} {result : Roe (α × GroupRosterStore)}
    (h : ∀ a after, result = .ok (a, after) → HeldFrom store after) : HeldFrom store (storeAfter store result) := by
  cases result with
  | error e => exact .same fun _ => rfl
  | ok pair => exact h pair.1 pair.2 rfl

theorem heldFrom_getD {result : Roe GroupRosterStore} (h : ∀ after, result = .ok after → HeldFrom store after) :
    HeldFrom store (result.toOption.getD store) := by
  cases result with
  | error e => exact .same fun _ => rfl
  | ok after => exact h after rfl

/-- Whatever a device does, a statement it comes to hold has sound lists. -/
theorem heldFrom_run (hK : K.Sound) (store : GroupRosterStore) (call : RosterCall) :
    HeldFrom store (call.run K store) := by
  cases call with
  | keepStatement s => exact heldFrom_storeAfter fun _ _ h => .keepStatement hK h
  | applyView g cards now => exact heldFrom_storeAfter fun _ _ h => .applyView h
  | holdChange c cards now lineShown => exact .holdChange c cards now lineShown
  | memberJoined p actor now => exact heldFrom_getD fun _ h => .memberJoined h
  | ownerTransferred p actor now => exact heldFrom_getD fun _ h => .ownerTransferred h
  | memberRemoved p actor => exact heldFrom_getD fun _ h => .memberRemoved h
  | groupRenamed p actor => exact heldFrom_storeAfter fun _ _ h => .groupRenamed h
  | addAsOwner g member localIdentity now =>
    cases hm : store.loadMetadata g with
    | none =>
      apply HeldFrom.same
      intro h
      simp [RosterCall.run, hm]
    | some m =>
      have hrun : (RosterCall.addAsOwner g member localIdentity now).run K store =
          Pbr.addAsOwner store m member localIdentity now := by
        simp [RosterCall.run, hm]
      rw [hrun]
      exact .addAsOwner hm member localIdentity now
  | dissolved s localIdentity actor => exact heldFrom_storeAfter fun _ _ h => .dissolved hK h
  | signRoster g handed account key signB64 cards now =>
    exact heldFrom_storeAfter fun _ _ h => .signRoster hK h

def runRoster (K : GroupCrypto) (store : GroupRosterStore) (calls : List RosterCall) :
    GroupRosterStore :=
  calls.foldl (RosterCall.run K) store

theorem soundLists_of_run (hK : K.Sound) {calls : List RosterCall}
    (hstart : ∀ g held, heldStatement store g = some held → SoundLists held) {g : String}
    {held : GroupRosterStatement}
    (hheld : heldStatement (runRoster K store calls) g = some held) : SoundLists held := by
  induction calls generalizing store with
  | nil => exact hstart g held hheld
  | cons call rest ih =>
    refine ih ?_ hheld
    intro g held hheld
    rcases heldFrom_run hK store call g with hsame | ⟨new, hnew, hsound⟩
    · exact hstart g held (hsame ▸ hheld)
    · obtain rfl : new = held := Option.mem_unique hnew hheld
      exact hsound

end Runs

/-! ## What the owner signs -/

/-- The account a change puts in or out. -/
def GroupChange.about (c : GroupChange) : Option String :=
  match c.kind with
  | .add | .remove => some c.member
  | .leave => some c.signer
  | _ => none

namespace OwnerDraft

variable (base : GroupRosterStatement) (view : GroupRosterView)
  (changes : List CheckedGroupChange) (owner : String)

/-- A change of the view that counts. -/
def Counts (c : CheckedGroupChange) : Prop :=
  c ∈ changes ∧ ∃ v, view.verdict c.id = some v ∧ v.status = .applied

/-- An add that counts puts the account in. -/
def Added (account : String) : Prop :=
  ∃ c, Counts view changes c ∧ c.change.kind = .add ∧ c.change.member = account

/-- The owner put the account in since its last statement. -/
def BroughtBack (rows : List GroupRosterStatementMember) (account : String) : Prop :=
  ∃ row ∈ rows, row.identity = account ∧ row.addedBy = owner ∧ row ∉ base.members

/-- The statement says what a change of it says, unless a later word of the
same account or title undid it. -/
def Reflects (s : GroupRosterStatement) (c : CheckedGroupChange) : Prop :=
  match c.change.kind with
  | .add => s.lists c.change.member = true
  | .remove => s.lists c.change.member = true →
      Added view changes c.change.member ∨ BroughtBack base owner s.members c.change.member
  | .leave => s.lists c.change.signer = true →
      Added view changes c.change.signer ∨ BroughtBack base owner s.members c.change.signer
  | .rename => s.title = c.change.title ∨ c.change.titleVersion < s.titleVersion
  | .linkAdd | .linkRevoke => True

/-- The rows and the title stand as the view has what counts. -/
structure TakenIn (rows : List GroupRosterStatementMember) (m : GroupMetadata) : Prop where
  /-- An account put in or out is a row just when the view lists it, unless
  the owner brought it back. -/
  listed : ∀ c, Counts view changes c → ∀ account ∈ c.change.about,
    ((∃ row ∈ rows, row.identity = account) ↔ view.lists account = true) ∨
      BroughtBack base owner rows account
  /-- An account put out that the view still lists was added. -/
  out : ∀ c, Counts view changes c → c.change.kind = .remove ∨ c.change.kind = .leave →
    ∀ account ∈ c.change.about, view.lists account = true → Added view changes account
  title : ∀ c, Counts view changes c → c.change.kind = .rename →
    m.title = view.title ∨ view.titleVersion < m.titleVersion

/-- What the owner promises of the statement it signs next. -/
structure Promised (s : GroupRosterStatement) : Prop where
  epoch : base.rosterEpoch ≤ s.rosterEpoch
  once : base.ownerSignatureB64 ≠ "" → s.rosterEpoch = base.rosterEpoch →
    s.signBytes = base.signBytes
  lists : s.checkLists = .ok ()
  reflects : ∀ c, Counts view changes c → (∃ f ∈ s.folded, f.id = c.id) →
    (∀ f ∈ base.folded, f.id ≠ c.id) → Reflects base view changes owner s c

end OwnerDraft

section Draft

open RosterRules OwnerDraft

variable {base : GroupRosterStatement} {now : Int} {changes : List CheckedGroupChange}
  {owner : String} {rows : List GroupRosterStatementMember} {m : GroupMetadata}

theorem OwnerDraft.TakenIn.again {view : GroupRosterView} (h : TakenIn base view changes owner rows m)
    {c : CheckedGroupChange} (hc : Counts view changes c)
    (hk : c.change.kind = .remove ∨ c.change.kind = .leave) {account : String}
    (habout : account ∈ c.change.about) (hrow : ∃ row ∈ rows, row.identity = account) :
    Added view changes account ∨ BroughtBack base owner rows account := by
  rcases h.listed c hc account habout with hiff | hback
  · exact .inl (h.out c hc hk account habout (hiff.mp hrow))
  · exact .inr hback

/-- A statement with those rows and that title says what counts. -/
theorem OwnerDraft.TakenIn.reflects (hn : (changes.map CheckedGroupChange.id).Nodup)
    (h : TakenIn base (computeRosterChecked base changes now) changes owner rows m) {s : GroupRosterStatement}
    (hmembers : s.members = rows) (htitle : s.title = m.title)
    (hversion : s.titleVersion = m.titleVersion) {c : CheckedGroupChange}
    (hc : Counts (computeRosterChecked base changes now) changes c) :
    Reflects base (computeRosterChecked base changes now) changes owner s c := by
  obtain ⟨hmem, v, hv, happlied⟩ := hc
  have hkept : c ∈ collapse changes := (mem_collapse_of_nodup hn).mpr hmem
  have hlists (account : String) : s.lists account = true ↔ ∃ row ∈ rows, row.identity = account := by
    rw [GroupRosterStatement.lists_iff, hmembers]
  unfold Reflects
  cases hk : c.change.kind with
  | add =>
    have habout : c.change.member ∈ c.change.about := by simp [GroupChange.about, hk]
    apply (hlists _).mpr
    rcases h.listed c ⟨hmem, v, hv, happlied⟩ _ habout with hiff | ⟨row, hrow, hid, -⟩
    · exact hiff.mpr (lists_of_applied_add (nodup_collapse changes) hkept hk hv happlied)
    · exact ⟨row, hrow, hid⟩
  | remove =>
    intro hin
    rw [hmembers]
    exact h.again ⟨hmem, v, hv, happlied⟩ (.inl hk) (by simp [GroupChange.about, hk])
      ((hlists _).mp hin)
  | leave =>
    intro hin
    rw [hmembers]
    exact h.again ⟨hmem, v, hv, happlied⟩ (.inr hk) (by simp [GroupChange.about, hk])
      ((hlists _).mp hin)
  | rename =>
    obtain ⟨hshown, hshownVersion⟩ := title_of_applied_rename (nodup_collapse changes) hkept hk hv happlied
    dsimp only
    rw [htitle, hversion, ← hshown, ← hshownVersion]
    exact h.title c ⟨hmem, v, hv, happlied⟩ hk
  | linkAdd | linkRevoke => trivial

/-- The draft keeps the owner's promises where its rows have taken in what
counts. -/
theorem promised_draftOver (hbase : SoundLists base) (hepoch : base.rosterEpoch < 2 ^ 64 - 1)
    (hn : (changes.map CheckedGroupChange.id).Nodup) (hview : SoundView (computeRosterChecked base changes now))
    (htaken : TakenIn base (computeRosterChecked base changes now) changes owner rows m)
    (chain : List GroupOwnerTransfer) (key : String) :
    Promised base (computeRosterChecked base changes now) changes owner (draftOver base (computeRosterChecked base changes now)
      (draftLists m rows chain owner key base (computeRosterChecked base changes now))) := by
  have hlists := draftLists_sound hbase hview m rows chain owner key
  have hmax : base.rosterEpoch ≤ max m.rosterEpoch base.rosterEpoch := le_max_right _ _
  rcases draftOver_cases base (computeRosterChecked base changes now)
    (draftLists m rows chain owner key base (computeRosterChecked base changes now)) with
    ⟨hdraft, honce⟩ | ⟨-, hdraft⟩
  · rw [hdraft]
    refine ⟨hmax, honce, soundLists_iff.mpr (hlists.foldInto hbase hview), fun c hc _ _ => ?_⟩
    exact htaken.reflects hn rfl rfl rfl hc
  · -- a statement that says something new: the next epoch
    rw [hdraft, u64_succ hepoch]
    have hnext : DraftLists base { draftLists m rows chain owner key base (computeRosterChecked base changes now)
        with rosterEpoch := base.rosterEpoch + 1 } :=
      ⟨hlists.removedIds, hlists.removed, hlists.removedOut, hlists.linkIds, hlists.links,
        hbase.floor.trans (Nat.le_succ _)⟩
    refine ⟨Nat.le_succ _, fun _ hsame => ?_, soundLists_iff.mpr (hnext.foldInto hbase hview),
      fun c hc _ _ => htaken.reflects hn rfl rfl rfl hc⟩
    exact absurd hsame (Nat.succ_ne_self _)

end Draft

section Owner

open OwnerDraft

variable {K : GroupCrypto}

end Owner

/-! ## A leave that is lost -/

/-- `b`'s leave of the sample group, under its card's device. -/
def sampleLeave : GroupChange :=
  { groupId := "g", kind := .leave, baseEpoch := 5, signer := "b", signerDevice := "d"
    signatureB64 := "d" }

def sampleKeyedCards : GroupCardLookup := fun account =>
  some { keys := { accountId := account }
         devices := [{ peerId := "d", signingPublicKeyB64 := "d" }] }

/-- The calls of `c`'s device: it keeps its own statement, then goes on. -/
def sampleOwning (calls : List RosterCall) : List RosterCall :=
  .keepStatement (sampleOwned "c" 5 []) :: .applyView "g" sampleKeyedCards 0 :: calls

/-- `b`'s leave is received and applied. -/
def sampleLeft : List RosterCall :=
  [.holdChange sampleLeave sampleKeyedCards 0 false, .applyView "g" sampleKeyedCards 0]

/-- What `c` would sign: its members and who added them, and for each change
held its signer, what became of it and whether it is folded. -/
def sampleNext (calls : List RosterCall) :
    Option (List (String × String) × List (String × Option GroupChangeStatus × Bool)) := do
  let store := runRoster sampleSigning (sampleDevice "c") calls
  let m ← store.loadMetadata "g"
  let rows := statementRows (store.listMembers "g")
  let draft := ownerDraft sampleSigning store m rows [] "c" "c" sampleKeyedCards 0
  let view := heldView sampleSigning store "g" (foldStart m rows) sampleKeyedCards 0
  pure (draft.members.map fun row => (row.identity, row.addedBy),
    (checkChanges sampleSigning (heldChanges store "g") sampleKeyedCards 0).map fun c =>
      (c.change.signer, (view.verdict c.id).map (·.status), draft.folded.any (·.id = c.id)))

end Pbr
