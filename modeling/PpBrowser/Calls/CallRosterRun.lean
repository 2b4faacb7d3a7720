import PpBrowser.Calls.CallSessionQueries
import PpBrowser.Lib.Runs

/-!
# CallRosterRun — call news in any order

One device hears of a call: rosters, joins, leaves and declines, in any
order and any number of times. What a roster says was so when it was made;
when that was, and when those it lists as left had left, is not on the wire
and stands beside it here to say what a stale one is.

A roster is written entry by entry, so a run is a list of writes. The epoch
and the device's own row come out right in every run (`mediaEpochOf_run`,
`own_roster`). A stale roster undoes newer news just when it lists someone
who joined as gone, or someone who left as joined with a stamp the row does
not have (`undisturbed_iff`).
-/

namespace Pbr

open CallSessions

/-! ## News -/

/-- What a device hears about one call. -/
inductive CallNews where
  /-- Made at `madeAt`; `leftAt` is when those it lists as left had left. -/
  | roster (madeAt : Int) (leftAt : String → Option Int) (mediaEpoch : Nat)
      (participants : List CallRosterEntry)
  /-- `CommitRemoteJoin`: an accept, stamped here. -/
  | joined (identity : String) (media : CallParticipantMedia) (joinedAt : Int)
  /-- `ParticipantGone`, heard at `nowMs` of someone who left at `leftAt`. -/
  | left (identity : String) (leftAt nowMs : Int)
  /-- `HandleInboundDecline`. -/
  | declined (identity : String)

inductive CallWrite where
  | epoch (mediaEpoch : Nat)
  | entry (madeAt : Int) (leftAt : Option Int) (entry : CallRosterEntry)
  | joined (identity : String) (media : CallParticipantMedia) (joinedAt : Int)
  | left (identity : String) (leftAt nowMs : Int)
  | declined (identity : String)

/-- The writes of a piece of news, in order. -/
def CallNews.writes : CallNews → List CallWrite
  | .roster madeAt leftAt mediaEpoch participants =>
    .epoch mediaEpoch :: participants.map fun entry => .entry madeAt (leftAt entry.identity) entry
  | .joined identity media joinedAt => [.joined identity media joinedAt]
  | .left identity leftAt nowMs => [.left identity leftAt nowMs]
  | .declined identity => [.declined identity]

variable (localIdentity callId : String)

def applyWrite (store : CallSessions) : CallWrite → CallSessions
  | .epoch mediaEpoch => raiseEpoch store callId mediaEpoch
  | .entry _ _ entry => applyRosterEntry localIdentity callId store entry
  | .joined identity media joinedAt =>
    store.upsertParticipant { callId, identity, state := .joined, media, joinedAt := some joinedAt }
  | .left identity _ nowMs =>
    store.upsertParticipant { callId, identity, state := .left, leftAt := some nowMs }
  | .declined identity => store.upsertParticipant { callId, identity, state := .declined }

/-- A piece of news taken in. -/
def applyNews (store : CallSessions) : CallNews → CallSessions
  | .roster _ _ mediaEpoch participants =>
    applyCallRosterToStore store { callId, mediaEpoch, participants } localIdentity
  | .joined identity media joinedAt =>
    store.upsertParticipant { callId, identity, state := .joined, media, joinedAt := some joinedAt }
  | .left identity _ nowMs =>
    store.upsertParticipant { callId, identity, state := .left, leftAt := some nowMs }
  | .declined identity => store.upsertParticipant { callId, identity, state := .declined }

variable {localIdentity callId} {store : CallSessions} {news : CallNews} {run : List CallNews}

/-! ## The epoch -/

def mediaEpochOf (store : CallSessions) (callId : String) : Option Nat :=
  (store.loadSession callId).map (·.mediaEpoch)

/-- The epoch a roster carries. -/
def CallNews.mediaEpoch? : CallNews → Option Nat
  | .roster _ _ mediaEpoch _ => some mediaEpoch
  | _ => none

def rosterEpochs (run : List CallNews) : List Nat := run.filterMap CallNews.mediaEpoch?

variable {mediaEpoch : Nat} {entry : CallRosterEntry} {participants : List CallRosterEntry}

theorem mediaEpochOf_raiseEpoch : mediaEpochOf (raiseEpoch store callId mediaEpoch) callId =
      (mediaEpochOf store callId).map (max · mediaEpoch) := by
  rw [raiseEpoch, mediaEpochOf, mediaEpochOf]
  cases hload : store.loadSession callId with
  | none => simp [hload]
  | some session =>
    have hkey := store.session_keyed hload
    by_cases hlt : mediaEpoch > session.mediaEpoch
    · have hmax : max session.mediaEpoch mediaEpoch = mediaEpoch := by omega
      subst hkey
      dsimp only
      rw [if_pos hlt]
      have hsaved : (store.upsertSession { session with mediaEpoch }).loadSession session.callId =
          some { session with mediaEpoch } := loadSession_upsertSession
      simp [hsaved, hmax]
    · have hmax : max session.mediaEpoch mediaEpoch = session.mediaEpoch := by omega
      dsimp only
      rw [if_neg hlt, hload]
      simp [hmax]

theorem loadSession_stampOwn : (stampOwn store callId entry).loadSession callId = store.loadSession callId := by
  rw [stampOwn]
  split
  · rfl
  · split
    · rfl
    · split <;> rfl

theorem loadSession_applyRosterEntry :
    (applyRosterEntry localIdentity callId store entry).loadSession callId = store.loadSession callId := by
  rw [applyRosterEntry]
  split
  · rfl
  · split
    · exact loadSession_stampOwn
    · split
      · rfl
      · split
        · split
          · rfl
          · split <;> rfl
        · rfl

theorem loadSession_foldl : (participants.foldl (applyRosterEntry localIdentity callId) store).loadSession callId =
      store.loadSession callId := by
  induction participants generalizing store with
  | nil => rfl
  | cons entry participants ih => rw [List.foldl_cons, ih, loadSession_applyRosterEntry]

theorem mediaEpochOf_applyNews : mediaEpochOf (applyNews localIdentity callId store news) callId =
    (mediaEpochOf store callId).map fun kept => news.mediaEpoch?.toList.foldl max kept := by
  cases news with
  | roster madeAt leftAt mediaEpoch participants =>
    rw [mediaEpochOf, applyNews, applyCallRosterToStore, loadSession_foldl]
    exact mediaEpochOf_raiseEpoch
  | joined identity media joinedAt | left identity leftAt nowMs | declined identity =>
    simp only [applyNews, CallNews.mediaEpoch?, mediaEpochOf, loadSession_upsertParticipant]
    exact Option.map_id'.symm

theorem mediaEpochOf_run : mediaEpochOf (run.foldl (applyNews localIdentity callId) store) callId =
    (mediaEpochOf store callId).map fun kept => (rosterEpochs run).foldl max kept := by
  induction run generalizing store with
  | nil => simp [rosterEpochs]
  | cons news run ih =>
    rw [List.foldl_cons, ih, mediaEpochOf_applyNews, Option.map_map]
    congr 1
    funext kept
    cases hepoch : news.mediaEpoch? with
    | none | some mediaEpoch => simp [rosterEpochs, hepoch]

theorem le_foldl_max (epochs : List Nat) (kept : Nat) : kept ≤ epochs.foldl max kept := by
  induction epochs generalizing kept with
  | nil => exact Nat.le_refl kept
  | cons epoch epochs ih => exact Nat.le_trans (Nat.le_max_left kept epoch) (ih _)

/-! ## The device's own row -/

def stateOf (store : CallSessions) (callId identity : String) : Option CallParticipantState :=
  (store.findParticipant callId identity).map (·.state)

variable {identity : String}

theorem stateOf_upsert {participant : CallParticipant} (hcall : participant.callId = callId) :
    stateOf (store.upsertParticipant participant) callId identity =
      if identity = participant.identity then some participant.state else stateOf store callId identity := by
  rw [stateOf, findParticipant_upsert]
  by_cases h : identity = participant.identity
  · rw [if_pos ⟨hcall.symm, h⟩, if_pos h]
    simp
  · rw [if_neg fun hboth => h hboth.2, if_neg h, stateOf]

theorem stateOf_stampOwn : stateOf (stampOwn store callId entry) callId identity = stateOf store callId identity := by
  rw [stampOwn]
  split
  · rfl
  · split
    · rfl
    · rename_i own hown
      split
      · obtain ⟨hcall, hidentity⟩ := keys_of_find hown
        have hcall' : ({ own with joinedAt := entry.joinedAt } : CallParticipant).callId = callId := hcall
        rw [stateOf_upsert hcall']
        by_cases h : identity = own.identity
        · rw [if_pos h, h, hidentity, stateOf, hown]
          rfl
        · rw [if_neg h]
      · rfl

theorem stateOf_entry_ne (h : identity ≠ entry.identity) :
    stateOf (applyRosterEntry localIdentity callId store entry) callId identity = stateOf store callId identity := by
  have hwrite : ∀ participant : CallParticipant, participant.callId = callId →
      participant.identity = entry.identity →
      stateOf (store.upsertParticipant participant) callId identity = stateOf store callId identity := by
    intro participant hcall hidentity
    rw [stateOf_upsert hcall, if_neg (by rwa [hidentity])]
  rw [applyRosterEntry]
  split
  · rfl
  · split
    · exact stateOf_stampOwn
    · split
      · exact hwrite _ rfl rfl
      · rename_i existing hfind
        obtain ⟨hcall, hidentity⟩ := keys_of_find hfind
        split
        · split
          · rfl
          · split
            · exact hwrite _ hcall hidentity
            · exact hwrite _ rfl rfl
        · exact hwrite _ rfl rfl

theorem stateOf_entry_own : stateOf (applyRosterEntry localIdentity callId store entry) callId localIdentity =
      stateOf store callId localIdentity := by
  by_cases hown : localIdentity = entry.identity
  · rw [applyRosterEntry]
    by_cases hempty : entry.identity = ""
    · rw [if_pos hempty]
    · rw [if_neg hempty, if_pos ⟨by rwa [hown], hown.symm⟩]
      exact stateOf_stampOwn
  · exact stateOf_entry_ne hown

theorem stateOf_raiseEpoch :
    stateOf (raiseEpoch store callId mediaEpoch) callId identity = stateOf store callId identity := by
  rw [raiseEpoch]
  split
  · rfl
  · split <;> rfl

theorem own_roster {madeAt : Int} {leftAt : String → Option Int} :
    stateOf (applyNews localIdentity callId store (.roster madeAt leftAt mediaEpoch participants))
      callId localIdentity = stateOf store callId localIdentity := by
  rw [applyNews, applyCallRosterToStore]
  dsimp only
  have hentries : ∀ (participants : List CallRosterEntry) (raised : CallSessions),
      stateOf (participants.foldl (applyRosterEntry localIdentity callId) raised) callId
        localIdentity = stateOf raised callId localIdentity := by
    intro participants
    induction participants with
    | nil => exact fun raised => rfl
    | cons entry participants ih =>
      intro raised
      rw [List.foldl_cons, ih, stateOf_entry_own]
  rw [hentries, stateOf_raiseEpoch]

/-! ## Stale rosters -/

/-- A device: its store, and what it has heard. -/
structure CallDevice where
  store : CallSessions
  heard : List CallWrite := []

variable (localIdentity callId) in
def CallDevice.hear (device : CallDevice) (write : CallWrite) : CallDevice where
  store := applyWrite localIdentity callId device.store write
  heard := write :: device.heard

def CallWrite.TellsJoin (identity : String) (stamp : Int) : CallWrite → Prop
  | .joined joiner _ joinedAt => joiner = identity ∧ joinedAt = stamp
  | .entry _ _ listed =>
    listed.identity = identity ∧ listed.state = .joined ∧ listed.joinedAt = some stamp
  | _ => False

def CallWrite.TellsLeave (identity : String) (leftAt : Int) : CallWrite → Prop
  | .left leaver time _ => leaver = identity ∧ time = leftAt
  | .entry _ time listed => listed.identity = identity ∧ listed.state = .left ∧ time = some leftAt
  | _ => False

namespace CallDevice

variable (device : CallDevice) (identity : String) (madeAt : Int)

/-- A join made after `madeAt` is known. -/
def KnowsJoinAfter : Prop :=
  ∃ write ∈ device.heard, ∃ stamp, write.TellsJoin identity stamp ∧ madeAt < stamp

/-- They are known to have left, after `madeAt` and after every known
join. -/
def KnowsLeaveAfter : Prop :=
  ∃ write ∈ device.heard, ∃ leftAt, write.TellsLeave identity leftAt ∧ madeAt < leftAt ∧
    ∀ other ∈ device.heard, ∀ stamp, other.TellsJoin identity stamp → stamp ≤ leftAt

end CallDevice

variable (localIdentity callId) in
/-- A stale entry undoes no newer news: who joined after it was made stays
joined, and who left after it was made does not come back. -/
def Undisturbed (device : CallDevice) : CallWrite → Prop
  | .entry madeAt leftAt entry =>
    entry.identity ≠ "" → localIdentity = "" ∨ entry.identity ≠ localIdentity →
    (device.KnowsJoinAfter entry.identity madeAt →
      stateOf device.store callId entry.identity = some .joined →
      stateOf (device.hear localIdentity callId (.entry madeAt leftAt entry)).store callId
        entry.identity = some .joined) ∧
    (device.KnowsLeaveAfter entry.identity madeAt →
      stateOf device.store callId entry.identity ≠ some .joined →
      stateOf (device.hear localIdentity callId (.entry madeAt leftAt entry)).store callId
        entry.identity ≠ some .joined)
  | _ => True

variable (localIdentity callId) in
/-- A stale entry does not list someone who joined as gone, nor someone who
left as joined with a stamp their row does not know of. -/
def Harmless (device : CallDevice) : CallWrite → Prop
  | .entry madeAt _ entry =>
    entry.identity ≠ "" → localIdentity = "" ∨ entry.identity ≠ localIdentity →
    (device.KnowsJoinAfter entry.identity madeAt →
      stateOf device.store callId entry.identity = some .joined → isGone entry.state = false) ∧
    (device.KnowsLeaveAfter entry.identity madeAt → ∀ row,
      device.store.findParticipant callId entry.identity = some row → row.state ≠ .joined →
      rejoined row entry = false)
  | _ => True

/-- Who is known to have left has a row, joined or gone. -/
def LeftRows (localIdentity callId : String) (device : CallDevice) : Prop :=
  ∀ write ∈ device.heard, ∀ identity leftAt, write.TellsLeave identity leftAt → identity ≠ "" →
    localIdentity = "" ∨ identity ≠ localIdentity →
    ∃ state, stateOf device.store callId identity = some state ∧ (state = .joined ∨ isGone state)

section
variable {device : CallDevice} {write : CallWrite} {entry : CallRosterEntry}
  {existing : CallParticipant}

theorem stateOf_entry (hne : entry.identity ≠ "") (hremote : localIdentity = "" ∨ entry.identity ≠ localIdentity) :
    stateOf (applyRosterEntry localIdentity callId store entry) callId entry.identity =
      some (rosterState entry (store.findParticipant callId entry.identity)) :=
  find_applyRosterEntry hne hremote

theorem rosterState_settled (h : existing.state = .joined ∨ isGone existing.state) :
    rosterState entry (some existing) = .joined ∨ isGone (rosterState entry (some existing)) := by
  simp only [rosterState]
  by_cases hcoming : isComing entry.state
  · rw [if_pos hcoming]
    by_cases hstale : ¬ rejoined existing entry ∧ isGone existing.state
    · rw [if_pos hstale]
      exact .inr hstale.2
    · rw [if_neg hstale]
      by_cases hjoined : existing.state = .joined ∧ entry.state ≠ .joined
      · rw [if_pos hjoined]
        exact .inl rfl
      · rw [if_neg hjoined]
        left
        rcases h with h | h
        · by_contra hne
          exact hjoined ⟨h, hne⟩
        · have hback : rejoined existing entry := by
            by_contra hnot
            exact hstale ⟨hnot, h⟩
          simp only [rejoined, Bool.and_eq_true, decide_eq_true_eq] at hback
          exact hback.1.1
  · rw [if_neg hcoming]
    right
    cases hstate : entry.state <;> simp_all [isComing, isGone]

theorem isComing_eq_not_isGone (state : CallParticipantState) : isComing state = !isGone state := by
  cases state <;> rfl

theorem state_of_rejoined (h : rejoined existing entry) : entry.state = .joined := by
  simp only [rejoined, Bool.and_eq_true, decide_eq_true_eq] at h
  exact h.1.1

theorem rosterState_joined (h : existing.state = .joined) :
    rosterState entry (some existing) = .joined ↔ isGone entry.state = false := by
  have hkept : ¬ isGone existing.state := by simp [h, isGone]
  simp only [rosterState, isComing_eq_not_isGone]
  cases hgone : isGone entry.state with
  | true =>
    simp only [Bool.not_true, Bool.false_eq_true, if_false, reduceCtorEq, iff_false]
    intro hjoined
    simp [hjoined, isGone] at hgone
  | false =>
    simp only [Bool.not_false, if_true, iff_true]
    rw [if_neg fun hboth => hkept hboth.2]
    by_cases hjoined : entry.state = .joined
    · rw [if_neg fun hboth => hboth.2 hjoined, hjoined]
    · rw [if_pos ⟨h, hjoined⟩]

theorem rosterState_gone (h : isGone existing.state) :
    rosterState entry (some existing) ≠ .joined ↔ rejoined existing entry = false := by
  have hnot : existing.state ≠ .joined := by
    intro hjoined
    simp [hjoined, isGone] at h
  cases hback : rejoined existing entry with
  | true =>
    have hstate := state_of_rejoined hback
    simp [rosterState, hback, hstate, hnot, isComing]
  | false =>
    simp only [rosterState, hback, iff_true]
    by_cases hcoming : isComing entry.state
    · rw [if_pos hcoming, if_pos ⟨by simp, h⟩]
      exact hnot
    · rw [if_neg hcoming]
      intro hjoined
      simp [hjoined, isComing] at hcoming

/-- What a write leaves of a row that is joined or gone is joined or gone. -/
theorem settled_applyWrite {state : CallParticipantState} (hne : identity ≠ "")
    (hremote : localIdentity = "" ∨ identity ≠ localIdentity)
    (h : stateOf store callId identity = some state) (hsettled : state = .joined ∨ isGone state) :
    ∃ state', stateOf (applyWrite localIdentity callId store write) callId identity = some state' ∧
      (state' = .joined ∨ isGone state') := by
  have hupsert : ∀ participant : CallParticipant, participant.callId = callId →
      (participant.state = .joined ∨ isGone participant.state) →
      ∃ state', stateOf (store.upsertParticipant participant) callId identity = some state' ∧
        (state' = .joined ∨ isGone state') := by
    intro participant hcall hnew
    rw [stateOf_upsert hcall]
    by_cases hown : identity = participant.identity
    · exact ⟨_, if_pos hown, hnew⟩
    · exact ⟨state, by rw [if_neg hown, h], hsettled⟩
  cases write with
  | epoch mediaEpoch => exact ⟨state, stateOf_raiseEpoch.trans h, hsettled⟩
  | entry madeAt leftAt entry =>
    by_cases hown : identity = entry.identity
    · subst hown
      obtain ⟨existing, hfind, hstate⟩ := Option.map_eq_some_iff.mp h
      subst hstate
      exact ⟨_, (stateOf_entry hne hremote).trans (by rw [hfind]), rosterState_settled hsettled⟩
    · exact ⟨state, (stateOf_entry_ne hown).trans h, hsettled⟩
  | joined joiner media joinedAt => exact hupsert _ rfl (.inl rfl)
  | left leaver leftAt nowMs | declined decliner => exact hupsert _ rfl (.inr rfl)

theorem LeftRows.hear (h : LeftRows localIdentity callId device) :
    LeftRows localIdentity callId (device.hear localIdentity callId write) := by
  intro told htold identity leftAt htells hne hremote
  rcases List.mem_cons.mp htold with rfl | htold
  · -- the write is the leave
    cases told with
    | epoch mediaEpoch | joined joiner media joinedAt | declined decliner => exact htells.elim
    | left leaver time nowMs =>
      obtain ⟨rfl, -⟩ := htells
      exact ⟨.left, (stateOf_upsert rfl).trans (if_pos rfl), .inr rfl⟩
    | entry madeAt time entry =>
      obtain ⟨rfl, hleft, -⟩ := htells
      refine ⟨_, stateOf_entry hne hremote, .inr ?_⟩
      cases device.store.findParticipant callId entry.identity with
      | none => simp [rosterState, hleft, isGone]
      | some existing => simp [rosterState, hleft, isComing, isGone]
  · obtain ⟨state, hstate, hsettled⟩ := h told htold identity leftAt htells hne hremote
    exact settled_applyWrite hne hremote hstate hsettled

/-- A write undoes no newer news just when it is harmless. -/
theorem undisturbed_iff (h : LeftRows localIdentity callId device) :
    Undisturbed localIdentity callId device write ↔ Harmless localIdentity callId device write := by
  cases write with
  | epoch mediaEpoch | joined joiner media joinedAt | left leaver leftAt nowMs
  | declined decliner => exact Iff.rfl
  | entry madeAt leftAt entry =>
    simp only [Undisturbed, Harmless]
    refine forall_congr' fun hne => forall_congr' fun hremote => ?_
    have hafter : stateOf (device.hear localIdentity callId (.entry madeAt leftAt entry)).store
        callId entry.identity =
          some (rosterState entry (device.store.findParticipant callId entry.identity)) :=
      stateOf_entry hne hremote
    rw [hafter]
    refine and_congr ?_ ?_
    · refine forall_congr' fun _ => forall_congr' fun hjoined => ?_
      obtain ⟨existing, hfind, hstate⟩ := Option.map_eq_some_iff.mp hjoined
      rw [hfind, Option.some.injEq]
      exact rosterState_joined hstate
    · refine forall_congr' fun hknows => ?_
      obtain ⟨told, htold, time, htells, -, -⟩ := hknows
      obtain ⟨state, hstate, hsettled⟩ := h told htold entry.identity time htells hne hremote
      obtain ⟨existing, hfind, rfl⟩ := Option.map_eq_some_iff.mp hstate
      rw [hstate, hfind]
      simp only [ne_eq, Option.some.injEq, forall_eq']
      refine forall_congr' fun hnot => ?_
      rcases hsettled with hjoined | hgone
      · exact absurd hjoined hnot
      · exact rosterState_gone hgone

end

/-- In every run of call news: the epoch stored is the greatest of the first
and those heard, and never goes down; no roster changes the state of the
device's own row; and stale rosters undo no newer news just when each of
their entries is harmless. -/
theorem roster_news (localIdentity callId : String) (store : CallSessions) (run : List CallNews) :
    mediaEpochOf (run.foldl (applyNews localIdentity callId) store) callId =
      (mediaEpochOf store callId).map (fun kept => (rosterEpochs run).foldl max kept) ∧
    (∀ before after, run = before ++ after → ∀ kept,
      mediaEpochOf (before.foldl (applyNews localIdentity callId) store) callId = some kept →
      ∃ now, mediaEpochOf (run.foldl (applyNews localIdentity callId) store) callId = some now ∧
        kept ≤ now) ∧
    (∀ before madeAt leftAt mediaEpoch participants after,
      run = before ++ .roster madeAt leftAt mediaEpoch participants :: after →
      stateOf (applyNews localIdentity callId (before.foldl (applyNews localIdentity callId) store)
          (.roster madeAt leftAt mediaEpoch participants)) callId localIdentity =
        stateOf (before.foldl (applyNews localIdentity callId) store) callId localIdentity) ∧
    (Lib.Admits (CallDevice.hear localIdentity callId) (Undisturbed localIdentity callId) { store }
        (run.flatMap CallNews.writes) ↔
      Lib.Admits (CallDevice.hear localIdentity callId) (Harmless localIdentity callId) { store }
        (run.flatMap CallNews.writes)) := by
  refine ⟨mediaEpochOf_run, ?_, ?_, ?_⟩
  · intro before after hsplit kept hkept
    subst hsplit
    rw [List.foldl_append, mediaEpochOf_run, hkept]
    exact ⟨_, rfl, le_foldl_max _ _⟩
  · intro before madeAt leftAt mediaEpoch participants after hsplit
    exact own_roster
  · have hstart : LeftRows localIdentity callId { store } := by
      intro told htold
      simp at htold
    exact Lib.admits_congr (fun device write h => h.hear) (fun device write h => undisturbed_iff h)
      hstart

/-- Bob joins, leaves and joins again; a roster made before he came back says
that he left. -/
def sampleStaleLeave : List CallNews :=
  [.joined "account:bob" {} 10, .left "account:bob" 12 13, .joined "account:bob" {} 20,
    .roster 15 (fun _ => some 12) 1 [{ identity := "account:bob", state := .left, joinedAt := some 10 }]]

/-- Bob joins and leaves, and a roster says that he is back; a second one,
made before that, still has his first stay. He leaves, and a third one, made
before he left, has him in the call. -/
def sampleStaleJoin : List CallNews :=
  [.joined "account:bob" {} 10, .left "account:bob" 12 13,
    .roster 21 (fun _ => none) 1 [{ identity := "account:bob", joinedAt := some 20 }],
    .roster 11 (fun _ => none) 1 [{ identity := "account:bob", joinedAt := some 10 }],
    .left "account:bob" 30 31,
    .roster 25 (fun _ => none) 1 [{ identity := "account:bob", joinedAt := some 20 }]]

/-- What the run leaves of a participant. -/
def samplePart (run : List CallNews) (identity : String) :
    Option (CallParticipantState × Option Int) :=
  ((run.foldl (applyNews "account:me" "call:a") CallSessions.empty).findParticipant "call:a"
    identity).map fun row => (row.state, row.joinedAt)

/-- A stale roster takes Bob, who is back, out of the call; another brings
him back after he left. -/
theorem stale_roster_undoes_news :
    samplePart (sampleStaleLeave.take 3) "account:bob" = some (.joined, some 20) ∧
    samplePart sampleStaleLeave "account:bob" = some (.left, some 10) ∧
    ¬ Lib.Admits (CallDevice.hear "account:me" "call:a") (Undisturbed "account:me" "call:a")
      { store := CallSessions.empty } (sampleStaleLeave.flatMap CallNews.writes) ∧
    samplePart (sampleStaleJoin.take 5) "account:bob" = some (.left, some 10) ∧
    samplePart sampleStaleJoin "account:bob" = some (.joined, some 20) ∧
    ¬ Lib.Admits (CallDevice.hear "account:me" "call:a") (Undisturbed "account:me" "call:a")
      { store := CallSessions.empty } (sampleStaleJoin.flatMap CallNews.writes) := by
  refine ⟨by decide, by decide, ?_, by decide, by decide, ?_⟩
  · intro h
    obtain ⟨-, -, -, -, hstale, -⟩ := h
    have hjoined := (hstale (by decide) (.inr (by decide))).1
      ⟨_, List.mem_cons_of_mem _ List.mem_cons_self, 20, ⟨rfl, rfl⟩, by decide⟩ (by decide)
    exact absurd hjoined (by decide)
  · intro h
    obtain ⟨-, -, -, -, -, -, -, -, hstale, -⟩ := h
    have hgone := (hstale (by decide) (.inr (by decide))).2
      ⟨_, List.mem_cons_of_mem _ List.mem_cons_self, 30, ⟨rfl, rfl⟩, by decide, ?_⟩ (by decide)
    · exact absurd hgone (by decide)
    · intro other hother stamp htells
      simp only [CallDevice.hear, List.mem_cons, List.not_mem_nil, or_false] at hother
      rcases hother with rfl | rfl | rfl | rfl | rfl | rfl | rfl | rfl <;>
        simp [CallWrite.TellsJoin] at htells <;> omega

end Pbr
