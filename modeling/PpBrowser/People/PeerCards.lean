import PpBrowser.Lib.Newest
import PpBrowser.Lib.Runs
import PpBrowser.People.AccountCard

/-!
# PeerCards — what a device knows about an account from its cards

`PeerCards.cpp`: every card is checked before it is kept, the newest account
card is the account's word, and one older than a floor is refused.
-/

namespace Pbr

open Lib

/-- What a device knows about an account from the cards it has checked. -/
structure PeerCardRecord where
  keys : KeyCard
  nickname : String := ""
  /-- The newest account card's; 0 while only a key card is known. -/
  issuedAt : Int := 0
  devices : List String := []
  source : String := ""
  newestCard : Option AccountCard := none
  deriving DecidableEq, Repr

structure PeerCardFloor where
  accountId : String
  issuedAt : Int := 0
  deriving DecidableEq, Repr

/-- `MergeKeyCard`: it fills the keys while no account card has been seen. -/
def mergeKeyCard (known : Option PeerCardRecord) (card : KeyCard) (source : String) : PeerCardRecord :=
  match known with
  | none => { keys := card, source }
  | some known =>
    if known.issuedAt = 0 ∧ ¬ known.keys.sameKeys card then { known with keys := card, source } else known

/-- What an account card says of its account. -/
def PeerCardRecord.ofCard (card : AccountCard) (source : String) : PeerCardRecord :=
  { keys := card.keys, nickname := card.nickname, issuedAt := card.issuedAt
    devices := card.devicePeerIds, source, newestCard := some card }

/-- `MergeAccountCard`: an older one changes nothing. -/
def mergeAccountCard (known : Option PeerCardRecord) (card : AccountCard) (source : String) :
    PeerCardRecord :=
  match known with
  | none => .ofCard card source
  | some known => if card.issuedAt < known.issuedAt then known else .ofCard card source

/-- The rows, each under its own account, and the floors (0 where there is
none). -/
structure PeerCardStore where
  record : String → Option PeerCardRecord
  floor : String → Int
  filed : ∀ {account kept}, record account = some kept → kept.keys.accountId = account

namespace PeerCardStore

def empty : PeerCardStore where
  record _ := none
  floor _ := 0
  filed h := by cases h

variable (store : PeerCardStore) (kept : PeerCardRecord)

def put : PeerCardStore where
  record := Function.update store.record kept.keys.accountId (some kept)
  floor := store.floor
  filed {account found} h := by
    by_cases ha : account = kept.keys.accountId
    · subst ha
      obtain rfl : kept = found := by simpa using h
      rfl
    · exact store.filed (by simpa [ha] using h)

/-- A lower floor changes nothing. -/
def raiseFloor (floor : PeerCardFloor) : PeerCardStore :=
  { store with
    floor := Function.update store.floor floor.accountId (max (store.floor floor.accountId) floor.issuedAt) }

/-- The newest issue time known of an account: a kept card's or a floor's. -/
def newestKnown (account : String) : Int :=
  max ((store.record account).elim 0 (·.issuedAt)) (store.floor account)

variable {store} {kept} {account : String}

theorem put_record (h : kept.keys.accountId = account) : (store.put kept).record account = some kept := by
  subst h
  exact Function.update_self ..

theorem put_record_ne (h : account ≠ kept.keys.accountId) : (store.put kept).record account = store.record account :=
  Function.update_of_ne h ..

@[simp] theorem raiseFloor_record (floor : PeerCardFloor) : (store.raiseFloor floor).record = store.record := rfl

theorem le_raiseFloor (floor : PeerCardFloor) : store.floor account ≤ (store.raiseFloor floor).floor account := by
  simp only [raiseFloor]
  by_cases h : account = floor.accountId
  · subst h
    rw [Function.update_self]
    exact le_max_left _ _
  · rw [Function.update_of_ne h]

end PeerCardStore

namespace PeerCards

variable (K : CardCrypto) (store : PeerCardStore)

def addKeyCard (card : KeyCard) (source : String) : Roe (PeerCardRecord × PeerCardStore) := do
  card.verify K
  let merged := mergeKeyCard (store.record card.accountId) card source
  pure (merged, store.put merged)

def addAccountCard (card : AccountCard) (nowMs : Int) (source : String) :
    Roe (PeerCardRecord × PeerCardStore) := do
  card.verify K nowMs
  if card.issuedAt < store.floor card.keys.accountId then
    .error "account card: older than the newest this device knew for the account"
  else
    let merged := mergeAccountCard (store.record card.keys.accountId) card source
    pure (merged, store.put merged)

def raiseFloors (floors : List PeerCardFloor) : PeerCardStore :=
  (floors.filter fun floor => floor.accountId ≠ "" ∧ floor.issuedAt > 0).foldl PeerCardStore.raiseFloor store

/-! ## Calls -/

inductive Call where
  | addKeyCard (card : KeyCard) (source : String)
  | addAccountCard (card : AccountCard) (nowMs : Int) (source : String)
  | raiseFloors (floors : List PeerCardFloor)

/-- A device's store and, of one account, the account cards that reached the
floor in force and the key cards that were taken, in the order they came. -/
structure Run where
  store : PeerCardStore := .empty
  reached : List AccountCard := []
  keyCards : List KeyCard := []

variable (account : String) (run : Run)

def step (run : Run) : Call → Run
  | .addKeyCard card source =>
    match addKeyCard K run.store card source with
    | .error _ => run
    | .ok (_, store) =>
      { run with
        store
        keyCards := if card.accountId = account then run.keyCards ++ [card] else run.keyCards }
  | .addAccountCard card nowMs source =>
    match addAccountCard K run.store card nowMs source with
    | .error _ => run
    | .ok (_, store) =>
      { run with
        store
        reached := if card.keys.accountId = account then run.reached ++ [card] else run.reached }
  | .raiseFloors floors => { run with store := raiseFloors run.store floors }

def runOf (calls : List Call) : Run := calls.foldl (step K account) {}

/-- What is kept of the account: keys, nickname, devices, newest card. -/
def shown : Option (KeyCard × String × List String × Option AccountCard) :=
  (run.store.record account).map fun kept => (kept.keys, kept.nickname, kept.devices, kept.newestCard)

/-! ## What is kept -/

/-- The stored issue time, the floor and the newest known do not go back. -/
structure Forward (before after : Run) : Prop where
  issuedAt : ∀ kept ∈ before.store.record account, ∃ kept' ∈ after.store.record account,
    kept.issuedAt ≤ kept'.issuedAt
  floor : before.store.floor account ≤ after.store.floor account
  newestKnown : before.store.newestKnown account ≤ after.store.newestKnown account

/-- A call that is to change nothing: a key card where a signed card gave the
keys, an account card older than the floor or the stored card. -/
def Outdated (run : Run) : Call → Prop
  | .addKeyCard card _ =>
    card.accountId = account ∧ ∃ kept ∈ run.store.record account, kept.newestCard.isSome
  | .addAccountCard card _ _ =>
    card.keys.accountId = account ∧ (card.issuedAt < run.store.floor account ∨
      ∃ kept ∈ run.store.record account, card.issuedAt < kept.issuedAt)
  | .raiseFloors _ => False

/-- Keys the newest of which are kept while no account card has come. -/
def takeKeys (known : Option KeyCard) (card : KeyCard) : Option KeyCard :=
  match known with
  | none => some card
  | some keys => if keys.sameKeys card then some keys else some card

/-- The record is the newest account card's, or else the key cards'. -/
def Holds (cards : List AccountCard) (keyCards : List KeyCard) (record : Option PeerCardRecord) : Prop :=
  match newest AccountCard.issuedAt cards with
  | some card => ∃ source, record = some (.ofCard card source)
  | none =>
    match keyCards.foldl takeKeys none with
    | some keys => ∃ source, record = some { keys, source }
    | none => record = none

/-- What carries the record from call to call. -/
structure Inv (run : Run) : Prop where
  holds : Holds run.reached run.keyCards (run.store.record account)
  dated : ∀ card ∈ run.reached, 0 < card.issuedAt

variable {K} {store} {account} {run : Run} {out : PeerCardRecord × PeerCardStore}

theorem addKeyCard_ok {card : KeyCard} {source : String} (h : addKeyCard K store card source = .ok out) :
    out = (mergeKeyCard (store.record card.accountId) card source,
      store.put (mergeKeyCard (store.record card.accountId) card source)) := by
  obtain ⟨-, -, h⟩ := roe_bind_ok.mp h
  exact (Except.ok.inj h).symm

theorem addAccountCard_ok {card : AccountCard} {nowMs : Int} {source : String} (h : addAccountCard K store card nowMs source = .ok out) :
    0 < card.issuedAt ∧ store.floor card.keys.accountId ≤ card.issuedAt ∧
      out = (mergeAccountCard (store.record card.keys.accountId) card source,
        store.put (mergeAccountCard (store.record card.keys.accountId) card source)) := by
  obtain ⟨_, hverified, h⟩ := roe_bind_ok.mp h
  split at h
  · cases h
  · rename_i hfloor
    exact ⟨card.issuedAt_pos hverified, Int.not_lt.mp hfloor, (Except.ok.inj h).symm⟩

theorem mergeKeyCard_account (card : KeyCard) (source : String) :
    (mergeKeyCard (store.record card.accountId) card source).keys.accountId = card.accountId := by
  cases hknown : store.record card.accountId with
  | none => rfl
  | some known =>
    simp only [mergeKeyCard]
    split
    · rfl
    · exact store.filed hknown

theorem mergeAccountCard_account (card : AccountCard) (source : String) :
    (mergeAccountCard (store.record card.keys.accountId) card source).keys.accountId = card.keys.accountId := by
  cases hknown : store.record card.keys.accountId with
  | none => rfl
  | some known =>
    simp only [mergeAccountCard]
    split
    · exact store.filed hknown
    · rfl

theorem raiseFloors_record (floors : List PeerCardFloor) : (raiseFloors store floors).record = store.record := by
  unfold raiseFloors
  generalize floors.filter _ = kept
  induction kept generalizing store with
  | nil => rfl
  | cons floor kept ih => rw [List.foldl_cons, ih, PeerCardStore.raiseFloor_record]

theorem le_raiseFloors (floors : List PeerCardFloor) :
    store.floor account ≤ (raiseFloors store floors).floor account := by
  unfold raiseFloors
  generalize floors.filter _ = kept
  induction kept generalizing store with
  | nil => exact le_refl _
  | cons floor kept ih => exact le_trans (store.le_raiseFloor floor) ih

/-! ## One call -/

section

variable (h : Inv account run)
include h

/-- A record with a newest card is a card's, and it is dated. -/
theorem Inv.card_of_record {kept : PeerCardRecord} (hkept : run.store.record account = some kept) :
    (∃ card source, newest AccountCard.issuedAt run.reached = some card ∧ kept = .ofCard card source ∧
      0 < card.issuedAt) ∨ (∃ keys source, newest AccountCard.issuedAt run.reached = none ∧
      run.keyCards.foldl takeKeys none = some keys ∧ kept = { keys, source }) := by
  have hholds := h.holds
  unfold Holds at hholds
  rw [hkept] at hholds
  split at hholds
  · rename_i card hnewest
    obtain ⟨source, hrecord⟩ := hholds
    refine .inl ⟨card, source, hnewest, Option.some.inj hrecord, ?_⟩
    exact h.dated card (newest_greatest hnewest).1
  · rename_i hnewest
    split at hholds
    · rename_i keys hkeys
      obtain ⟨source, hrecord⟩ := hholds
      exact .inr ⟨keys, source, hnewest, hkeys, Option.some.inj hrecord⟩
    · cases hholds

theorem Inv.of_none (hnone : run.store.record account = none) :
    newest AccountCard.issuedAt run.reached = none ∧ run.keyCards.foldl takeKeys none = none := by
  have hholds := h.holds
  unfold Holds at hholds
  rw [hnone] at hholds
  split at hholds
  · obtain ⟨source, hrecord⟩ := hholds
    cases hrecord
  · rename_i hnewest
    split at hholds
    · obtain ⟨source, hrecord⟩ := hholds
      cases hrecord
    · rename_i hkeys
      exact ⟨hnewest, hkeys⟩

theorem Inv.keyCard (card : KeyCard) (source : String) : Holds run.reached (run.keyCards ++ [card])
      (some (mergeKeyCard (run.store.record account) card source)) := by
  unfold Holds
  rw [List.foldl_append]
  cases hknown : run.store.record account with
  | none =>
    obtain ⟨hnewest, hkeys⟩ := h.of_none hknown
    rw [hnewest, hkeys]
    exact ⟨source, rfl⟩
  | some known =>
    rcases h.card_of_record hknown with ⟨newestCard, kept, hnewest, rfl, hdated⟩ | ⟨keys, kept, hnewest, hkeys, rfl⟩
    · rw [hnewest]
      have hsigned : (PeerCardRecord.ofCard newestCard kept).issuedAt ≠ 0 := Ne.symm (Int.ne_of_lt hdated)
      refine ⟨kept, ?_⟩
      simp only [mergeKeyCard]
      rw [if_neg fun hundated => hsigned hundated.1]
    · rw [hnewest, hkeys]
      simp only [List.foldl_cons, List.foldl_nil, takeKeys, mergeKeyCard, true_and]
      cases hsame : keys.sameKeys card with
      | true => exact ⟨kept, by simp⟩
      | false => exact ⟨source, by simp⟩

theorem Inv.accountCard {card : AccountCard} (hdated : 0 < card.issuedAt) (source : String) :
    Holds (run.reached ++ [card]) run.keyCards (some (mergeAccountCard (run.store.record account) card source)) := by
  unfold Holds
  rw [newest_append_one]
  cases hknown : run.store.record account with
  | none =>
    rw [(h.of_none hknown).1]
    exact ⟨source, rfl⟩
  | some known =>
    rcases h.card_of_record hknown with ⟨newestCard, kept, hnewest, rfl, -⟩ | ⟨keys, kept, hnewest, hkeys, rfl⟩
    · rw [hnewest]
      simp only [takeNewer, mergeAccountCard]
      by_cases holder : card.issuedAt < newestCard.issuedAt
      · have hkept : card.issuedAt < (PeerCardRecord.ofCard newestCard kept).issuedAt := holder
        rw [if_pos holder, if_pos hkept]
        exact ⟨kept, rfl⟩
      · have hreplaced : ¬ card.issuedAt < (PeerCardRecord.ofCard newestCard kept).issuedAt := holder
        rw [if_neg holder, if_neg hreplaced]
        exact ⟨source, rfl⟩
    · rw [hnewest]
      simp only [takeNewer, mergeAccountCard]
      rw [if_neg (by omega)]
      exact ⟨source, rfl⟩

theorem step_inv (call : Call) : Inv account (step K account run call) := by
  cases call with
  | addKeyCard card source =>
    simp only [step]
    split
    · exact h
    rename_i record store hadd
    obtain ⟨rfl, rfl⟩ := Prod.mk.inj (addKeyCard_ok hadd)
    refine ⟨?_, h.dated⟩
    by_cases ha : card.accountId = account
    · subst ha
      simp only [if_true]
      rw [PeerCardStore.put_record (mergeKeyCard_account card source)]
      exact h.keyCard card source
    · simp only [if_neg ha]
      rw [PeerCardStore.put_record_ne]
      · exact h.holds
      · rw [mergeKeyCard_account]
        exact Ne.symm ha
  | addAccountCard card nowMs source =>
    simp only [step]
    split
    · exact h
    rename_i record store hadd
    obtain ⟨hdated, -, hout⟩ := addAccountCard_ok hadd
    obtain ⟨rfl, rfl⟩ := Prod.mk.inj hout
    by_cases ha : card.keys.accountId = account
    · subst ha
      simp only [if_true]
      refine ⟨?_, fun other hother => ?_⟩
      · rw [PeerCardStore.put_record (mergeAccountCard_account card source)]
        exact h.accountCard hdated source
      · rcases List.mem_append.mp hother with hother | hother
        · exact h.dated other hother
        · rw [List.mem_singleton.mp hother]
          exact hdated
    · simp only [if_neg ha]
      refine ⟨?_, h.dated⟩
      rw [PeerCardStore.put_record_ne]
      · exact h.holds
      · rw [mergeAccountCard_account]
        exact Ne.symm ha
  | raiseFloors floors =>
    refine ⟨?_, h.dated⟩
    simp only [step]
    rw [raiseFloors_record]
    exact h.holds

end

theorem start_inv : Inv account {} where
  holds := rfl
  dated _ hcard := nomatch hcard

/-! ## Nothing goes back -/

theorem issuedAt_mergeKeyCard {known : PeerCardRecord} (card : KeyCard) (source : String) :
    (mergeKeyCard (some known) card source).issuedAt = known.issuedAt := by
  simp only [mergeKeyCard]
  split <;> rfl

theorem le_mergeAccountCard {known : PeerCardRecord} (card : AccountCard) (source : String) :
    known.issuedAt ≤ (mergeAccountCard (some known) card source).issuedAt := by
  simp only [mergeAccountCard]
  split
  · exact le_refl _
  · rename_i hnewer
    exact Int.not_lt.mp hnewer

theorem issuedAt_step {kept : PeerCardRecord} (hkept : run.store.record account = some kept) (call : Call) :
    ∃ kept' ∈ (step K account run call).store.record account, kept.issuedAt ≤ kept'.issuedAt := by
  have hself : ∃ kept' ∈ run.store.record account, kept.issuedAt ≤ kept'.issuedAt := ⟨kept, hkept, le_refl _⟩
  cases call with
  | addKeyCard card source =>
    simp only [step]
    split
    · exact hself
    rename_i record store hadd
    obtain ⟨rfl, rfl⟩ := Prod.mk.inj (addKeyCard_ok hadd)
    by_cases ha : card.accountId = account
    · subst ha
      refine ⟨_, PeerCardStore.put_record (mergeKeyCard_account card source), ?_⟩
      rw [hkept, issuedAt_mergeKeyCard]
    · refine ⟨kept, ?_, le_refl _⟩
      rw [Option.mem_def, PeerCardStore.put_record_ne]
      · exact hkept
      · rw [mergeKeyCard_account]
        exact Ne.symm ha
  | addAccountCard card nowMs source =>
    simp only [step]
    split
    · exact hself
    rename_i record store hadd
    obtain ⟨rfl, rfl⟩ := Prod.mk.inj (addAccountCard_ok hadd).2.2
    by_cases ha : card.keys.accountId = account
    · subst ha
      refine ⟨_, PeerCardStore.put_record (mergeAccountCard_account card source), ?_⟩
      rw [hkept]
      exact le_mergeAccountCard card source
    · refine ⟨kept, ?_, le_refl _⟩
      rw [Option.mem_def, PeerCardStore.put_record_ne]
      · exact hkept
      · rw [mergeAccountCard_account]
        exact Ne.symm ha
  | raiseFloors floors =>
    refine ⟨kept, ?_, le_refl _⟩
    simp only [step]
    rw [raiseFloors_record]
    exact hkept

theorem floor_step (call : Call) : run.store.floor account ≤ (step K account run call).store.floor account := by
  cases call with
  | addKeyCard card source =>
    simp only [step]
    split
    · exact le_refl _
    rename_i record store hadd
    obtain ⟨rfl, rfl⟩ := Prod.mk.inj (addKeyCard_ok hadd)
    exact le_refl _
  | addAccountCard card nowMs source =>
    simp only [step]
    split
    · exact le_refl _
    rename_i record store hadd
    obtain ⟨rfl, rfl⟩ := Prod.mk.inj (addAccountCard_ok hadd).2.2
    exact le_refl _
  | raiseFloors floors => exact le_raiseFloors floors

theorem Inv.issuedAt_nonneg (h : Inv account run) {kept : PeerCardRecord}
    (hkept : run.store.record account = some kept) : 0 ≤ kept.issuedAt := by
  rcases h.card_of_record hkept with ⟨card, source, -, rfl, hdated⟩ | ⟨keys, source, -, -, rfl⟩
  · exact Int.le_of_lt hdated
  · exact le_refl 0

theorem Inv.forward (h : Inv account run) (call : Call) : Forward account run (step K account run call) where
  issuedAt _ hkept := issuedAt_step hkept call
  floor := floor_step call
  newestKnown := by
    have hfloor := @floor_step K account run call
    have hissued : (run.store.record account).elim 0 (·.issuedAt) ≤
        ((step K account run call).store.record account).elim 0 (·.issuedAt) := by
      cases hbefore : run.store.record account with
      | none =>
        cases hafter : (step K account run call).store.record account with
        | none => exact le_refl _
        | some kept => exact (step_inv h call).issuedAt_nonneg hafter
      | some kept =>
        obtain ⟨kept', hafter, hle⟩ := issuedAt_step (K := K) hbefore call
        rw [Option.mem_def] at hafter
        rw [hafter]
        exact hle
    unfold PeerCardStore.newestKnown
    omega

/-- A key card changes nothing once a signed card gave the keys, and neither
does an account card older than the floor or the stored card. -/
theorem Inv.outdated (h : Inv account run) {call : Call} (hout : Outdated account run call) :
    (step K account run call).store.record account = run.store.record account := by
  cases call with
  | addKeyCard card source =>
    obtain ⟨rfl, kept, hkept, hsigned⟩ := hout
    simp only [step]
    split
    · rfl
    rename_i record store hadd
    obtain ⟨rfl, rfl⟩ := Prod.mk.inj (addKeyCard_ok hadd)
    rw [PeerCardStore.put_record (mergeKeyCard_account card source)]
    rw [Option.mem_def] at hkept
    rcases h.card_of_record hkept with ⟨newestCard, by_, -, rfl, hdated⟩ | ⟨keys, by_, -, -, rfl⟩
    · have hsigned : (PeerCardRecord.ofCard newestCard by_).issuedAt ≠ 0 := Ne.symm (Int.ne_of_lt hdated)
      rw [hkept]
      simp only [mergeKeyCard]
      rw [if_neg fun hundated => hsigned hundated.1]
    · cases hsigned
  | addAccountCard card nowMs source =>
    obtain ⟨rfl, hold⟩ := hout
    simp only [step]
    split
    · rfl
    rename_i record store hadd
    obtain ⟨-, hfloor, hout⟩ := addAccountCard_ok hadd
    obtain ⟨rfl, rfl⟩ := Prod.mk.inj hout
    rw [PeerCardStore.put_record (mergeAccountCard_account card source)]
    rcases hold with hold | ⟨kept, hkept, hold⟩
    · exact absurd hold (Int.not_lt.mpr hfloor)
    · rw [Option.mem_def] at hkept
      rw [hkept]
      simp only [mergeAccountCard]
      rw [if_pos hold]
  | raiseFloors floors => exact hout.elim

/-! ## The order they come in -/

theorem Inv.shown_eq (h : Inv account run) : shown account run =
    match newest AccountCard.issuedAt run.reached with
    | some card => some (card.keys, card.nickname, card.devicePeerIds, some card)
    | none => (run.keyCards.foldl takeKeys none).map fun keys => (keys, "", [], none) := by
  have hholds := h.holds
  unfold Holds at hholds
  unfold shown
  split at hholds
  · rename_i card hnewest
    obtain ⟨source, hrecord⟩ := hholds
    rw [hrecord]
    rfl
  · rename_i hnewest
    split at hholds
    · rename_i keys hkeys
      obtain ⟨source, hrecord⟩ := hholds
      rw [hrecord, hkeys]
      rfl
    · rename_i hkeys
      rw [hholds, hkeys]
      rfl

theorem runOf_inv (calls : List Call) : Inv account (runOf K account calls) := by
  have hany : Admits (step K account) (fun _ _ => True) {} calls := admits_true
  have hinv : ∀ run ∈ states (step K account) {} calls, Inv account run :=
    hany.invariant (fun _ call h _ => step_inv h call) start_inv
  exact hinv _ foldl_mem_states

/-- **A peer's keys do not roll back**, and they are the newest card's in
whatever order the cards come, where two do not share its issue time. -/
theorem peer_cards_newest (K : CardCrypto) (account : String) (calls : List Call) :
    (states (step K account) {} calls).Pairwise (Forward account) ∧
      Admits (step K account) (fun run call => Outdated account run call →
        (step K account run call).store.record account = run.store.record account) {} calls ∧
      ∀ calls' : List Call,
        (∀ card, card ∈ (runOf K account calls).reached ↔ card ∈ (runOf K account calls').reached) →
        (runOf K account calls).keyCards = (runOf K account calls').keyCards →
        (∀ card card', Greatest AccountCard.issuedAt (runOf K account calls).reached card →
          Greatest AccountCard.issuedAt (runOf K account calls).reached card' → card = card') →
        shown account (runOf K account calls) = shown account (runOf K account calls') := by
  have hcarry : Admits (step K account) (fun run _ => Inv account run ∧ True) {} calls :=
    admits_true.carry (fun _ call h _ => step_inv h call) start_inv
  refine ⟨?_, hcarry.mono fun run call h hout => h.1.outdated hout, fun calls' hsame hkeys hone => ?_⟩
  · rw [pairwise_states_iff]
    · exact hcarry.mono fun run call h => h.1.forward call
    · intro a b c hab hbc
      refine ⟨fun kept hkept => ?_, le_trans hab.floor hbc.floor, le_trans hab.newestKnown hbc.newestKnown⟩
      obtain ⟨kept', hkept', hle⟩ := hab.issuedAt kept hkept
      obtain ⟨kept'', hkept'', hle'⟩ := hbc.issuedAt kept' hkept'
      exact ⟨kept'', hkept'', le_trans hle hle'⟩
  · rw [(runOf_inv calls).shown_eq, (runOf_inv calls').shown_eq, newest_congr hsame hone, hkeys]

/-- Primitives to run the checks on examples: a text decodes to as many bytes
as its first letter says, and everything verifies. -/
def sampleCardCrypto : CardCrypto where
  base64Decode text := some (List.replicate
    (if text = "kem" then kHybridKemPublicKeyBytes
      else if text = "sig" then kMlDsa65SignatureBytes else kMlDsa65PublicKeyBytes) 0)
  mlDsaVerify _ _ _ := some true
  accountIdFromMlDsaPublicKey _ := some "account:a"
  peerIdFromMlDsaPublicKey _ := some "phone"

def sampleCard (nickname : String) (issuedAt : Int) : AccountCard where
  keys := ⟨"account:a", "key", "kem", "sig"⟩
  nickname := nickname
  devices := [⟨"phone", "key", "kem"⟩]
  issuedAt := issuedAt
  cardSignatureB64 := "sig"

theorem sampleCard_verify (nickname : String) {issuedAt : Int} (h : 0 < issuedAt)
    (hnow : issuedAt ≤ kAccountCardClockSkewMs) :
    (sampleCard nickname issuedAt).verify sampleCardCrypto 0 = .ok () := by
  have hdated : ¬ (issuedAt ≤ 0 ∨ kAccountCardClockSkewMs < issuedAt) := by omega
  simp [AccountCard.verify, sampleCard, KeyCard.verify, KeyCard.checkSigned,
    KeyCard.kemBindingSignBytes, KeyCard.decodeKeys, sampleCardCrypto, AccountCardDevice.verify, AccountCard.signBytes, AccountCard.deviceSignBytes, AccountCard.devicePeerIds, kMaxAccountCardDevices, hdated, List.insertionSort]

/-- The cards handed over at time 0, one after the other. -/
def sampleCalls (cards : List AccountCard) : List Call :=
  cards.map fun card => .addAccountCard card 0 "contact_card"

/-- Without a floor every card that verifies counts. -/
theorem sampleCalls_reached {cards : List AccountCard}
    (h : ∀ card ∈ cards, card.verify K 0 = .ok () ∧ card.keys.accountId = account) :
    (runOf K account (sampleCalls cards)).reached = cards ∧
      (runOf K account (sampleCalls cards)).keyCards = [] := by
  suffices hrun : ∀ run : Run, run.store.floor account = 0 →
      ((sampleCalls cards).foldl (step K account) run).reached = run.reached ++ cards ∧
        ((sampleCalls cards).foldl (step K account) run).keyCards = run.keyCards from hrun {} rfl
  induction cards with
  | nil =>
    intro run hfloor
    exact ⟨(List.append_nil _).symm, rfl⟩
  | cons card cards ih =>
    intro run hfloor
    obtain ⟨hverified, rfl⟩ := h card List.mem_cons_self
    have hreached : ¬ card.issuedAt < run.store.floor card.keys.accountId := by
      have hdated := card.issuedAt_pos hverified
      omega
    have hstep : step K card.keys.accountId run (.addAccountCard card 0 "contact_card") =
        { run with
          store := run.store.put
            (mergeAccountCard (run.store.record card.keys.accountId) card "contact_card")
          reached := run.reached ++ [card] } := by
      simp [step, addAccountCard, hverified, hreached]
    rw [sampleCalls, List.map_cons, List.foldl_cons, hstep]
    obtain ⟨hcards, hkeys⟩ := ih (fun other hother => h other (List.mem_cons_of_mem _ hother))
      { run with
        store := run.store.put
          (mergeAccountCard (run.store.record card.keys.accountId) card "contact_card")
        reached := run.reached ++ [card] } hfloor
    refine ⟨?_, hkeys⟩
    rw [sampleCalls] at hcards
    rw [hcards]
    simp

theorem sampleCalls_sample {x y : AccountCard} (hx : x ∈ [sampleCard "ann" 1, sampleCard "bob" 1, sampleCard "bob" 2])
    (hy : y ∈ [sampleCard "ann" 1, sampleCard "bob" 1, sampleCard "bob" 2]) :
    (runOf sampleCardCrypto "account:a" (sampleCalls [x, y])).reached = [x, y] ∧
      (runOf sampleCardCrypto "account:a" (sampleCalls [x, y])).keyCards = [] := by
  have hverify (card : AccountCard) (h : card ∈ [sampleCard "ann" 1, sampleCard "bob" 1, sampleCard "bob" 2]) :
      card.verify sampleCardCrypto 0 = .ok () ∧ card.keys.accountId = "account:a" := by
    simp only [List.mem_cons, List.not_mem_nil, or_false] at h
    rcases h with rfl | rfl | rfl
    · exact ⟨sampleCard_verify "ann" (by decide) (by decide), rfl⟩
    · exact ⟨sampleCard_verify "bob" (by decide) (by decide), rfl⟩
    · exact ⟨sampleCard_verify "bob" (by decide) (by decide), rfl⟩
  apply sampleCalls_reached
  intro card hcard
  simp only [List.mem_cons, List.not_mem_nil, or_false] at hcard
  rcases hcard with rfl | rfl
  · exact hverify _ hx
  · exact hverify _ hy

theorem peer_cards_newest_sample :
    shown "account:a" (runOf sampleCardCrypto "account:a" (sampleCalls [sampleCard "ann" 1, sampleCard "bob" 2])) =
      shown "account:a" (runOf sampleCardCrypto "account:a" (sampleCalls [sampleCard "bob" 2, sampleCard "ann" 1])) := by
  obtain ⟨hcards, hkeys⟩ := sampleCalls_sample (x := sampleCard "ann" 1) (y := sampleCard "bob" 2) (by simp) (by simp)
  obtain ⟨hcards', hkeys'⟩ := sampleCalls_sample (x := sampleCard "bob" 2) (y := sampleCard "ann" 1) (by simp) (by simp)
  refine (peer_cards_newest sampleCardCrypto "account:a"
    (sampleCalls [sampleCard "ann" 1, sampleCard "bob" 2])).2.2 _ (fun card => ?_) ?_ fun card card' h h' => ?_
  · rw [hcards, hcards']
    simp only [List.mem_cons, List.not_mem_nil, or_false]
    exact or_comm
  · rw [hkeys, hkeys']
  · rw [hcards] at h h'
    have hbob (c : AccountCard) (hc : Greatest AccountCard.issuedAt [sampleCard "ann" 1, sampleCard "bob" 2] c) :
        c = sampleCard "bob" 2 := by
      obtain ⟨hmem, hle⟩ := hc
      simp only [List.mem_cons, List.not_mem_nil, or_false] at hmem
      rcases hmem with rfl | rfl
      · exact absurd (hle (sampleCard "bob" 2) (by simp)) (by decide)
      · rfl
    rw [hbob card h, hbob card' h']

/-- Two cards of one issue time: the one that comes last is kept. -/
theorem peer_cards_tie :
    shown "account:a" (runOf sampleCardCrypto "account:a" (sampleCalls [sampleCard "ann" 1, sampleCard "bob" 1])) ≠
      shown "account:a" (runOf sampleCardCrypto "account:a" (sampleCalls [sampleCard "bob" 1, sampleCard "ann" 1])) := by
  rw [(runOf_inv _).shown_eq, (runOf_inv _).shown_eq,
    (sampleCalls_sample (x := sampleCard "ann" 1) (y := sampleCard "bob" 1) (by simp) (by simp)).1,
    (sampleCalls_sample (x := sampleCard "bob" 1) (y := sampleCard "ann" 1) (by simp) (by simp)).1]
  decide

end PeerCards

end Pbr
