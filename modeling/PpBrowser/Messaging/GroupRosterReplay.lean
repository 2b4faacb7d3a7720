import Mathlib.Logic.Relation
import PpBrowser.Messaging.GroupRosterFold

/-!
# GroupRosterReplay — a folded change that arrives again

An owner's statements one after the other, each taking in a view over the
one before. `FoldInto` records a folded change with the lower of its
`base_epoch` and the statement's epoch, and trims the record once the
change floor is above that; `Classify` tests the change's own
`base_epoch` against the floor. The two agree for a change made against
no later statement than the one it is folded over, and for no other
(while there are epochs left for the floor to rise to).
-/

namespace Pbr

open Lib RosterRules

/-! ## Owner acts -/

/-- `t` takes in a view over `s`: the fold of it, or a draft of the owner's
(`OwnerDraft`) with the fold's bookkeeping. -/
inductive TakesIn (s : GroupRosterStatement) (view : GroupRosterView) :
    GroupRosterStatement → Prop
  | fold : TakesIn s view (foldChanges s view)
  | draft (draft : GroupRosterStatement) (hepoch : draft.rosterEpoch < 2 ^ 64) :
      TakesIn s view (foldInto s view draft)

/-- The owner's next statement, over some of the changes that ever arrive. -/
def OwnerAct (K : GroupCrypto) (arrived : GroupChange → Prop) (s t : GroupRosterStatement) :
    Prop :=
  ∃ changes cards now, (∀ c ∈ changes, arrived c) ∧
    TakesIn s (computeRoster K s changes cards now) t

/-- Whatever the owner does from `s` on, `c` is dropped when it arrives
again. -/
def NeverCounts (K : GroupCrypto) (arrived : GroupChange → Prop) (c : GroupChange)
    (s : GroupRosterStatement) : Prop :=
  ∀ t, Relation.ReflTransGen (OwnerAct K arrived) s t →
    ∀ changes cards now, c ∈ changes → (∀ a ∈ changes, arrived a) →
      ∃ v, (computeRoster K t changes cards now).verdict (c.id K) = some v ∧ v.status = .dropped

/-! ## One act -/

/-- `id` is recorded at `epoch`, or the floor has passed that. -/
def Settled (id : String) (epoch : Nat) (s : GroupRosterStatement) : Prop :=
  (recorded s)[id]? = some epoch ∨ epoch < s.changeFloorEpoch

/-- The highest floor a `uint64_t` epoch raises. -/
def topFloor : Nat := 2 ^ 64 - 1 - kChangeFloorLag

section Act

variable {s t : GroupRosterStatement} {view : GroupRosterView}

theorem settled_foldInto (hv : (view.verdicts.map (·.id)).Nodup) {id : String} {epoch : Nat}
    (h : Settled id epoch s) (draft : GroupRosterStatement) : Settled id epoch (foldInto s view draft) := by
  by_cases hfloor : (foldInto s view draft).changeFloorEpoch ≤ epoch
  · left
    rw [recorded_foldInto, getElem?_foldedMap hv]
    rcases h with h | h
    · exact ⟨.inl h, hfloor⟩
    · rw [foldInto_floor] at hfloor
      omega
  · right
    omega

theorem TakesIn.settled (h : TakesIn s view t) (hv : (view.verdicts.map (·.id)).Nodup)
    {id : String} {epoch : Nat} (hs : Settled id epoch s) : Settled id epoch t := by
  cases h with
  | draft draft => exact settled_foldInto hv hs draft
  | fold =>
    cases hd : s.dissolved with
    | true => rw [foldChanges_dissolved hd]; exact hs
    | false => rw [foldChanges_live hd]; exact settled_foldInto hv hs _

theorem floor_foldInto_le {draft : GroupRosterStatement} (h : draft.rosterEpoch < 2 ^ 64) :
    (foldInto s view draft).changeFloorEpoch ≤ max s.changeFloorEpoch topFloor := by
  rw [foldInto_floor, topFloor]
  omega

theorem TakesIn.floor_le (h : TakesIn s view t) : t.changeFloorEpoch ≤ max s.changeFloorEpoch topFloor := by
  cases h with
  | draft draft hepoch => exact floor_foldInto_le hepoch
  | fold =>
    cases hd : s.dissolved with
    | true => rw [foldChanges_dissolved hd]; exact le_max_left _ _
    | false =>
      rw [foldChanges_live hd]
      exact floor_foldInto_le (Nat.mod_lt _ (by decide))

/-- What an act folds is settled at its own epoch or the statement's. -/
theorem TakesIn.folded (h : TakesIn s view t) (hv : (view.verdicts.map (·.id)).Nodup)
    (hd : s.dissolved = false) {v : GroupChangeVerdict} (hmem : v ∈ view.verdicts)
    (hfold : foldsIn v = true) (hnew : (recorded s)[v.id]? = none) :
    Settled v.id (min v.baseEpoch s.rosterEpoch) t := by
  have main (draft : GroupRosterStatement) :
      Settled v.id (min v.baseEpoch s.rosterEpoch) (foldInto s view draft) := by
    by_cases hfloor : (foldInto s view draft).changeFloorEpoch ≤ min v.baseEpoch s.rosterEpoch
    · left
      rw [recorded_foldInto, getElem?_foldedMap hv]
      exact ⟨.inr ⟨hnew, v, hmem, hfold, rfl, rfl⟩, hfloor⟩
    · right
      omega
  cases h with
  | draft draft => exact main draft
  | fold => rw [foldChanges_live hd]; exact main _

end Act

/-! ## Runs -/

section Runs

variable {K : GroupCrypto} {arrived : GroupChange → Prop} {s t : GroupRosterStatement}

theorem nodup_verdicts (K : GroupCrypto) (s : GroupRosterStatement) (changes : List GroupChange)
    (cards : GroupCardLookup) (now : Int) : ((computeRoster K s changes cards now).verdicts.map (·.id)).Nodup :=
  (run_verdicts_sorted (nodup_collapse _)).imp ne_of_lt

theorem settled_of_run (h : Relation.ReflTransGen (OwnerAct K arrived) s t) {id : String}
    {epoch : Nat} (hs : Settled id epoch s) : Settled id epoch t := by
  induction h with
  | refl => exact hs
  | tail _ hact ih =>
    obtain ⟨changes, cards, now, -, htake⟩ := hact
    exact htake.settled (nodup_verdicts ..) ih

theorem floor_le_of_run (h : Relation.ReflTransGen (OwnerAct K arrived) s t) :
    t.changeFloorEpoch ≤ max s.changeFloorEpoch topFloor := by
  induction h with
  | refl => exact le_max_left _ _
  | tail _ hact ih =>
    obtain ⟨changes, cards, now, -, htake⟩ := hact
    have := htake.floor_le
    omega

theorem dropped_of_settled {c : CheckedGroupChange} {epoch : Nat} (h : Settled c.id epoch s)
    (hepoch : epoch = c.change.baseEpoch ∨ s.changeFloorEpoch ≤ epoch) :
    ∃ reason, classifyOne s (foldedIds s) c = some (.dropped, reason) := by
  unfold classifyOne
  by_cases hgroup : c.change.groupId ≠ s.groupId
  · exact ⟨_, if_pos hgroup⟩
  rw [if_neg hgroup]
  by_cases hfolded : c.id ∈ foldedIds s
  · exact ⟨_, if_pos hfolded⟩
  rw [if_neg hfolded]
  have hfloor : c.change.baseEpoch < s.changeFloorEpoch := by
    rcases h with h | h
    · rw [mem_foldedIds, ← recorded_isSome, h] at hfolded
      exact absurd rfl hfolded
    · omega
  exact ⟨_, if_pos hfloor⟩

variable {c : GroupChange} {cards : GroupCardLookup} {changes : List GroupChange} {now : Int}
  {v : GroupChangeVerdict}

section

variable (hcf : GroupChange.CollisionFree K arrived) (hr : ∀ a, arrived a → a.Ranged)
  (hfloor : s.changeFloorEpoch ≤ s.rosterEpoch) (harr : ∀ a ∈ changes, arrived a) (hc : c ∈ changes)
  (hv : (computeRoster K s changes cards now).verdict (c.id K) = some v) (hfold : foldsIn v = true)
  (htake : TakesIn s (computeRoster K s changes cards now) t)
  (hbase : c.baseEpoch ≤ s.rosterEpoch ∨ topFloor ≤ s.rosterEpoch)
include hcf hr hfloor harr hc hv hfold htake hbase

/-- Every copy of a change folded at no later epoch than its own is dropped
from then on; so is one of a change folded at an epoch no floor rises over. -/
theorem dropped_of_folded {u : GroupRosterStatement} (hrun : Relation.ReflTransGen (OwnerAct K arrived) t u)
    {d' : CheckedGroupChange} (hdarr : arrived d'.change) (hdid : d'.change.id K = c.id K)
    (hid' : d'.id = c.id K) : ∃ reason, classifyOne u (foldedIds u) d' = some (.dropped, reason) := by
  -- every copy under the id is of one epoch
  have hepoch (a : GroupChange) (ha : arrived a) (hid : a.id K = c.id K) :
      a.baseEpoch = c.baseEpoch :=
    (GroupChange.sameSigned_of_signBytes (hr a ha) (hr c (harr c hc))
      (hcf a c ha (harr c hc) hid)).baseEpoch
  obtain ⟨d, hd, hid, hdc, hdid'⟩ := exists_mem_checked (K := K) cards now hc
  have hn := nodup_collapse (checkChanges K changes cards now)
  have hcl := held_of_foldsIn hn hd (hid ▸ hv) hfold
  obtain ⟨-, hnotFolded, -, hlive, -⟩ := classifyOne_eq_none.mp hcl
  have hsettled : Settled (c.id K) (min c.baseEpoch s.rosterEpoch) t := by
    obtain ⟨v', hv', hvid, hvbase, -⟩ := run_verdict s now hn hd
    obtain rfl : v' = v := Option.some.inj (hv'.symm.trans (hid ▸ hv))
    have hnew : (recorded s)[v'.id]? = none := by
      rw [mem_foldedIds, ← recorded_isSome, Option.not_isSome_iff_eq_none] at hnotFolded
      rw [hvid]
      exact hnotFolded
    have h := htake.folded (nodup_verdicts ..) hlive (List.mem_of_find?_eq_some hv) hfold hnew
    rw [hvid, hid, hvbase, hepoch _ (harr _ hdc) hdid'] at h
    exact h
  refine dropped_of_settled (hid' ▸ settled_of_run hrun hsettled) ?_
  rw [hepoch _ hdarr hdid]
  have hfloor' := htake.floor_le
  have hfloor'' := floor_le_of_run hrun
  omega

theorem neverCounts_of_folded : NeverCounts K arrived c t := by
  intro u hrun later cards' now' hcl harr'
  obtain ⟨d', hd', hid', hdc', hdid'⟩ := exists_mem_checked (K := K) cards' now' hcl
  have hdrop := dropped_of_folded hcf hr hfloor harr hc hv hfold htake hbase hrun
    (harr' _ hdc') hdid' hid'
  obtain ⟨w, hw, -, -, hdropped⟩ := run_verdict u now' (nodup_collapse _) hd'
  exact ⟨w, hid' ▸ hw, hdropped.mpr hdrop⟩

end

/-- A statement as a fold leaves it: the floor lags no further behind than
allowed, and every record is at or above it. -/
structure Trimmed (s : GroupRosterStatement) : Prop where
  live : s.dissolved = false
  lag : s.rosterEpoch - kChangeFloorLag ≤ s.changeFloorEpoch
  above : ∀ (id : String) (epoch : Nat),
    (recorded s)[id]? = some epoch → s.changeFloorEpoch ≤ epoch

theorem trimmed_foldChanges (view : GroupRosterView) (hd : s.dissolved = false) : Trimmed (foldChanges s view) := by
  rw [foldChanges_live hd]
  refine ⟨hd, ?_, fun id epoch h => (recorded_foldInto.mp h).2⟩
  rw [foldInto_floor]
  exact le_max_right _ _

/-- A fold over no changes: the next epoch, and nothing more recorded. -/
theorem idle_fold (K : GroupCrypto) (cards : GroupCardLookup) (now : Int) (h : Trimmed s)
    (hepoch : s.rosterEpoch + 1 < 2 ^ 64) : ∃ t, t = foldChanges s (computeRoster K s [] cards now) ∧ Trimmed t ∧
      t.groupId = s.groupId ∧ t.rosterEpoch = s.rosterEpoch + 1 ∧
      t.changeFloorEpoch = max s.changeFloorEpoch (s.rosterEpoch + 1 - kChangeFloorLag) ∧
      ∀ (id : String) (epoch : Nat), (recorded t)[id]? = some epoch → (recorded s)[id]? = some epoch := by
  have hu : u64 (s.rosterEpoch + 1) = s.rosterEpoch + 1 := Nat.mod_eq_of_lt hepoch
  refine ⟨_, rfl, trimmed_foldChanges _ h.live, ?_⟩
  rw [foldChanges_live h.live]
  refine ⟨rfl, hu, ?_, fun id epoch hrec => ?_⟩
  · rw [foldInto_floor]
    show max _ (u64 _ - _) = _
    rw [hu]
  · rcases (getElem?_foldedMap (nodup_verdicts ..)).mp (recorded_foldInto.mp hrec).1 with
      hs | ⟨-, v, hv, -⟩
    · exact hs
    · -- no change, no verdict
      have hsome : ((computeRoster K s [] cards now).verdict v.id).isSome := by
        rw [GroupRosterView.verdict, List.find?_isSome]
        exact ⟨v, hv, by simp⟩
      rw [computeRoster, computeRosterChecked, run_eq_view h.live now (nodup_collapse _),
        verdict_isSome_iff (nodup_collapse _)] at hsome
      obtain ⟨c, hc, -⟩ := hsome
      cases hc

/-- Folds over no changes, `n` of them. -/
theorem idle_run (K : GroupCrypto) (arrived : GroupChange → Prop) (h : Trimmed s) (n : Nat)
    (hepoch : s.rosterEpoch + n < 2 ^ 64) :
    ∃ t, Relation.ReflTransGen (OwnerAct K arrived) s t ∧ Trimmed t ∧ t.groupId = s.groupId ∧
      t.rosterEpoch = s.rosterEpoch + n ∧
      t.changeFloorEpoch = max s.changeFloorEpoch (s.rosterEpoch + n - kChangeFloorLag) ∧
      ∀ (id : String) (epoch : Nat), (recorded t)[id]? = some epoch → (recorded s)[id]? = some epoch := by
  induction n with
  | zero => exact ⟨s, .refl, h, rfl, rfl, (max_eq_left h.lag).symm, fun _ _ hrec => hrec⟩
  | succ n ih =>
    obtain ⟨t, hrun, ht, hgroup, hnext, hfloor, hrec⟩ := ih (by omega)
    obtain ⟨u, rfl, hu, hgroup', hnext', hfloor', hrec'⟩ := idle_fold K sampleCards 0 ht (by omega)
    refine ⟨_, hrun.tail ⟨[], _, _, by simp, .fold⟩, hu, hgroup'.trans hgroup, by omega, ?_,
      fun id epoch hr => hrec id epoch (hrec' id epoch hr)⟩
    rw [hfloor', hfloor, hnext]
    omega

/-- A change folded at an earlier epoch than its own counts again once the
floor has passed that epoch. -/
theorem counts_again (hcf : GroupChange.CollisionFree K arrived) (hr : ∀ a, arrived a → a.Ranged)
    (hfloor : s.changeFloorEpoch ≤ s.rosterEpoch) (harr : ∀ a ∈ changes, arrived a) (hc : c ∈ changes)
    (hv : (computeRoster K s changes cards now).verdict (c.id K) = some v)
    (hfold : foldsIn v = true) (hbase : s.rosterEpoch < c.baseEpoch) (htop : s.rosterEpoch < topFloor) :
    ¬ NeverCounts K arrived c (foldChanges s (computeRoster K s changes cards now)) := by
  intro hnever
  obtain ⟨d, hd, hid, hdc, hdid⟩ := exists_mem_checked (K := K) cards now hc
  have hn := nodup_collapse (checkChanges K changes cards now)
  have hcl := held_of_foldsIn hn hd (hid ▸ hv) hfold
  obtain ⟨hgroup, hnotFolded, -, hlive, hproved⟩ := classifyOne_eq_none.mp hcl
  have hdbase : d.change.baseEpoch = c.baseEpoch :=
    (GroupChange.sameSigned_of_signBytes (hr _ (harr _ hdc)) (hr _ (harr _ hc))
      (hcf _ _ (harr _ hdc) (harr _ hc) hdid)).baseEpoch
  have hnext : (foldChanges s (computeRoster K s changes cards now)).rosterEpoch =
      s.rosterEpoch + 1 := by
    rw [foldChanges_live hlive]
    exact Nat.mod_eq_of_lt (by simp only [topFloor] at htop; omega)
  have hnextFloor : (foldChanges s (computeRoster K s changes cards now)).changeFloorEpoch ≤
      s.rosterEpoch := by
    rw [foldChanges_live hlive, foldInto_floor]
    show max _ (u64 _ - _) ≤ _
    rw [show u64 (s.rosterEpoch + 1) = s.rosterEpoch + 1 from
      Nat.mod_eq_of_lt (by simp only [topFloor] at htop; omega)]
    simp only [kChangeFloorLag]
    omega
  -- as many folds more as the floor lags
  obtain ⟨t, hrun, ht, htgroup, -, htfloor, hrec⟩ :=
    idle_run K arrived (trimmed_foldChanges (computeRoster K s changes cards now) hlive)
      kChangeFloorLag (by rw [hnext]; simp only [topFloor, kChangeFloorLag] at htop ⊢; omega)
  have htfloor : t.changeFloorEpoch = s.rosterEpoch + 1 := by
    rw [htfloor, hnext]
    omega
  have hheld : classifyOne t (foldedIds t) d = none := by
    refine classifyOne_eq_none.mpr ⟨?_, ?_, by omega, ht.live, hproved⟩
    · rw [hgroup, htgroup, foldChanges_live hlive]
      rfl
    · intro hfolded
      rw [mem_foldedIds, ← recorded_isSome, Option.isSome_iff_exists] at hfolded
      obtain ⟨epoch, hepoch⟩ := hfolded
      have habove := ht.above _ _ hepoch
      have hnew := hrec _ _ hepoch
      rw [foldChanges_live hlive, recorded_foldInto, getElem?_foldedMap (nodup_verdicts ..)] at hnew
      rcases hnew.1 with hold | ⟨-, w, -, -, -, hmin⟩
      · refine hnotFolded (mem_foldedIds.mpr (recorded_isSome.mp ?_))
        rw [hold]
        rfl
      · omega
  obtain ⟨w, hw, hdropped⟩ := hnever t hrun changes cards now hc harr
  obtain ⟨w', hw', -, -, hiff⟩ := run_verdict t now hn hd
  obtain rfl : w' = w := Option.some.inj (hw'.symm.trans (hid ▸ hw))
  rw [hheld] at hiff
  simpa using hiff.mp hdropped

/-- A change taken in over `s` never counts again, whatever the owner does
later, if it was made against no later statement than `s` (or `s` is one of
the last statements there can be); a fold takes it in for good only then. -/
theorem folded_never_counts (hcf : GroupChange.CollisionFree K arrived)
    (hr : ∀ a, arrived a → a.Ranged) (hfloor : s.changeFloorEpoch ≤ s.rosterEpoch)
    (harr : ∀ a ∈ changes, arrived a) (hc : c ∈ changes)
    (hv : (computeRoster K s changes cards now).verdict (c.id K) = some v)
    (hfold : foldsIn v = true) :
    (c.baseEpoch ≤ s.rosterEpoch ∨ topFloor ≤ s.rosterEpoch →
      ∀ t, TakesIn s (computeRoster K s changes cards now) t → NeverCounts K arrived c t) ∧
    (NeverCounts K arrived c (foldChanges s (computeRoster K s changes cards now)) →
      c.baseEpoch ≤ s.rosterEpoch ∨ topFloor ≤ s.rosterEpoch) := by
  constructor
  · intro hbase t htake
    exact neverCounts_of_folded hcf hr hfloor harr hc hv hfold htake hbase
  · intro hnever
    by_contra hbase
    exact counts_again hcf hr hfloor harr hc hv hfold (by omega) (by omega) hnever

end Runs

/-! ## A sample change -/

/-- Admin `a` adds `x`, against the statement of `epoch`. -/
def sampleAdd (epoch : Nat) : GroupChange :=
  { groupId := "g", baseEpoch := epoch, signer := "a", signerDevice := "d", member := "x"
    inviteNonce := "i" }

theorem ranged_sampleAdd {epoch : Nat} (h : epoch < 2 ^ 64) : (sampleAdd epoch).Ranged := by
  refine ⟨?_, ?_, ?_⟩
  · show ∀ t ∈ ["g", "a", "d", "x", "i", "", "", "", ""], t.utf8ByteSize < 2 ^ 32
    decide
  · show ∀ n ∈ [epoch, 0, 0, 0, 0], n < 2 ^ 64
    simpa using h
  · simp [sampleAdd]

theorem collisionFree_single (K : GroupCrypto) (c : GroupChange) : GroupChange.CollisionFree K (· = c) := by
  rintro a b rfl rfl -
  rfl

set_option maxRecDepth 20000 in
/-- The add from the future folds in as what it is, and 32 more folds later
it is no longer dropped. -/
theorem future_add_counts_again :
    ((computeRoster sampleCrypto sampleStatement [sampleAdd 5] sampleCards 0).verdict
      ((sampleAdd 5).id sampleCrypto)).any foldsIn = true ∧
    ¬ NeverCounts sampleCrypto (· = sampleAdd 5) (sampleAdd 5) (foldChanges sampleStatement
      (computeRoster sampleCrypto sampleStatement [sampleAdd 5] sampleCards 0)) := by
  have hfolds : ((computeRoster sampleCrypto sampleStatement [sampleAdd 5] sampleCards 0).verdict
      ((sampleAdd 5).id sampleCrypto)).any foldsIn = true := by decide
  obtain ⟨v, hv, hfold⟩ := (Option.any_eq_true _ _).mp hfolds
  refine ⟨hfolds, counts_again (collisionFree_single _ _) ?_ (by decide) (by simp) (by simp) hv
    hfold (by decide) (by decide)⟩
  rintro a rfl
  exact ranged_sampleAdd (by decide)

set_option maxRecDepth 20000 in
theorem folded_never_counts_sample :
    NeverCounts sampleCrypto (· = sampleAdd 1) (sampleAdd 1) (foldChanges sampleStatement
      (computeRoster sampleCrypto sampleStatement [sampleAdd 1] sampleCards 0)) := by
  have hfolds : ((computeRoster sampleCrypto sampleStatement [sampleAdd 1] sampleCards 0).verdict
      ((sampleAdd 1).id sampleCrypto)).any foldsIn = true := by decide
  obtain ⟨v, hv, hfold⟩ := (Option.any_eq_true _ _).mp hfolds
  refine (folded_never_counts (collisionFree_single _ _) ?_ (by decide) (by simp) (by simp) hv
    hfold).1 (.inl (by decide)) _ .fold
  rintro a rfl
  exact ranged_sampleAdd (by decide)

end Pbr
