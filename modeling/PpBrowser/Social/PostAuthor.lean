import Mathlib.Data.List.Chain
import PpBrowser.Social.PostForms
import PpBrowser.Social.PostStoreAnswers

/-!
# PostAuthor — a device writes its lane

`PostAuthor.h` and `PostAuthor.cpp` over an `IPostStore`: the entry and the
record of the lane are two writes, and either may fail or not be reached.
-/

namespace Pbr

open Lib

/-! ## The store underneath -/

/-- A store of posts and what it keeps: each write does to the log of entries
what the log says, and a device's record is the last one put. -/
structure IPostStore where
  State : Type
  empty : State
  step : State → PostStoreOp → State
  at_ : State → ByteVector → PostLane → UInt64 → List StoredPostEntry
  ownLane : State → ByteVector → Option OwnPostLane
  bindBytes : ByteVector → Option ByteVector
  log : State → PostLog
  log_empty : log empty = fun _ => none
  log_step : ∀ store op, log (step store op) = PostLog.step bindBytes (log store) op
  selfKeyed : ∀ store, (log store).SelfKeyed
  mem_at : ∀ {store entry author lane seq}, entry ∈ at_ store author lane seq ↔
    (log store).Kept entry ∧ entry.author = author ∧ entry.lane = lane ∧ entry.seq = seq
  ownLane_empty : ∀ device, ownLane empty device = none
  ownLane_put : ∀ store lane device, ownLane (step store (.putOwnLane lane)) device =
    if lane.device = device then some lane else ownLane store device
  ownLane_keep : ∀ store op device, (∀ lane, op ≠ .putOwnLane lane) →
    ownLane (step store op) device = ownLane store device

theorem InMemoryPostStore.ownLane_keep {store : InMemoryPostStore} {op : PostStoreOp} (device : ByteVector)
    (h : ∀ lane, op ≠ .putOwnLane lane) : (store.step op).ownLane device = store.ownLane device := by
  cases op with
  | addStub row =>
    simp only [step, addStub]
    split
    · split <;> rfl
    · rfl
  | stubOut author lane seq entryHash why =>
    simp only [step, stubOut]
    split <;> rfl
  | putHead head parsed =>
    simp only [step, putHead]
    split
    · split <;> rfl
    · rfl
  | putOwnLane lane => exact absurd rfl (h lane)

theorem SqlitePostStore.ownLane_keep {store : SqlitePostStore} {op : PostStoreOp} (device : ByteVector)
    (h : ∀ lane, op ≠ .putOwnLane lane) : (store.step op).ownLane device = store.ownLane device := by
  cases op with
  | addStub row =>
    simp only [step, addStub]
    split
    · split <;> rfl
    · rfl
  | stubOut author lane seq entryHash why =>
    simp only [step, stubOut]
    split <;> rfl
  | putHead head parsed =>
    simp only [step, putHead]
    split
    · rfl
    · split
      · split <;> rfl
      · rfl
  | putOwnLane lane => exact absurd rfl (h lane)

namespace IPostStore

def inMemory : IPostStore where
  State := InMemoryPostStore
  empty := .run []
  step := InMemoryPostStore.step
  at_ := InMemoryPostStore.at_
  ownLane := InMemoryPostStore.ownLane
  bindBytes := some
  log := InMemoryPostStore.log
  log_empty := rfl
  log_step _ _ := InMemoryPostStore.log_step
  selfKeyed _ := InMemoryPostStore.selfKeyed
  mem_at := InMemoryPostStore.mem_at
  ownLane_empty _ := rfl
  ownLane_put store lane device := by
    simp only [InMemoryPostStore.step, InMemoryPostStore.putOwnLane, InMemoryPostStore.ownLane, Function.update_apply,
      eq_comm]
  ownLane_keep _ _ device h := InMemoryPostStore.ownLane_keep device h

def sqlite : IPostStore where
  State := SqlitePostStore
  empty := .run []
  step := SqlitePostStore.step
  at_ := SqlitePostStore.at_
  ownLane := SqlitePostStore.ownLane
  bindBytes := bindBlob
  log := SqlitePostStore.log
  log_empty := rfl
  log_step _ _ := SqlitePostStore.log_step
  selfKeyed _ := SqlitePostStore.selfKeyed
  mem_at := SqlitePostStore.mem_at
  ownLane_empty _ := rfl
  ownLane_put store lane device := by
    simp only [SqlitePostStore.step, SqlitePostStore.putOwnLane, SqlitePostStore.ownLane, Function.update_apply]
    by_cases h : lane.device = device
    · subst h
      simp
    · simp [h, Ne.symm h]
  ownLane_keep _ _ device h := SqlitePostStore.ownLane_keep device h

end IPostStore

/-! ## The author -/

structure PostAuthor where
  accountId : ByteVector
  /-- This device's PeerId. -/
  device : ByteVector
  signer : PostSigner

/-- Where an append ends early, with the store's error text. -/
inductive PostFault where
  | none
  | ownLane (text : String)
  | at_ (text : String)
  | addEntry (text : String)
  | putOwnLane (text : String)
  /-- The process stops between the entry and the record. -/
  | stopped
  deriving DecidableEq

namespace PostAuthor

variable (posts : IPostStore) (crypto : PostCrypto) (author : PostAuthor)

/-- The record, unless an entry sits at its next place; else a new lane. -/
def currentLane (store : posts.State) (drawn : PostLane) (fault : PostFault) : Roe OwnPostLane :=
  match fault with
  | .ownLane text => .error text
  | _ =>
    match posts.ownLane store author.device with
    | none => .ok { device := author.device, lane := drawn }
    | some own =>
      match fault with
      | .at_ text => .error text
      | _ =>
        if posts.at_ store author.accountId own.lane own.nextSeq = [] then .ok own
        else .ok { device := author.device, lane := drawn }

/-- The entry an append writes behind `own`. -/
def nextEntry (own : OwnPostLane) (kind : PostKind) (body : ByteVector) (nowMs : Int64) : PostEntry where
  author := author.accountId
  lane := own.lane
  seq := own.nextSeq
  prev := if own.nextSeq = 1 then .filled 0 else own.lastHash
  claimedAt := max nowMs own.lastClaimedAt
  kind := kind.byte
  body

/-- What an append does before it writes: the lane, the entry and its signature. -/
def draft (store : posts.State) (kind : PostKind) (body : ByteVector) (nowMs : Int64) (drawn : PostLane)
    (fault : PostFault) : Roe (OwnPostLane × PostEntry × SignedPostEntry) := do
  PostBodies.checkPostBody kind.byte body author.accountId
  let own ← author.currentLane posts store drawn fault
  let entry := author.nextEntry own kind body nowMs
  let signed ← Posts.signPostEntry entry author.signer
  .ok (own, entry, signed)

/-- The record once the entry is written. -/
def advanced (own : OwnPostLane) (entry : PostEntry) (hash : PostHash) : OwnPostLane :=
  { own with nextSeq := entry.seq + 1, lastHash := hash, lastClaimedAt := entry.claimedAt }

/-- `Append`: the store after it, and its answer unless the process stopped. -/
def append (store : posts.State) (kind : PostKind) (body : ByteVector) (nowMs : Int64) (drawn : PostLane)
    (fault : PostFault) : posts.State × Option (Roe SignedPostEntry) :=
  match author.draft posts store kind body nowMs drawn fault with
  | .error text => (store, some (.error text))
  | .ok (own, entry, signed) =>
    let hash := Posts.postEntryHash crypto signed.canonical
    let added := posts.step store (.addStub (postEntryRow signed entry hash))
    match fault with
    | .addEntry text => (store, some (.error text))
    | .stopped => (added, none)
    | .putOwnLane text => (added, some (.error text))
    | _ => (posts.step added (.putOwnLane (advanced own entry hash)), some (.ok signed))

end PostAuthor

/-! ## What a device writes in its lanes, whatever happens -/

/-! ## Places -/

/-- The log knows an entry there. -/
def PostLog.Holds (log : PostLog) (author : ByteVector) (lane : PostLane) (seq : UInt64) : Prop :=
  ∃ hash, (log ⟨author, lane, seq, hash⟩).isSome

theorem PostLog.addStub_isSome {bind : ByteVector → Option ByteVector} {log : PostLog} {row : StoredPostEntry}
    {ref : PostRef} : (PostLog.addStub bind log row ref).isSome ↔ (log ref).isSome ∨ ref = row.ref := by
  by_cases heq : ref = row.ref
  · subst heq
    cases hlog : log row.ref with
    | none => simp [PostLog.addStub_none hlog]
    | some kept => simp [PostLog.addStub_some hlog]
  · simp [PostLog.addStub_of_ne (Ne.symm heq), heq]

namespace IPostStore

variable {posts : IPostStore} {store : posts.State} {author : ByteVector} {lane : PostLane} {seq : UInt64}

theorem at_eq_nil : posts.at_ store author lane seq = [] ↔ ¬ (posts.log store).Holds author lane seq := by
  rw [List.eq_nil_iff_forall_not_mem]
  constructor
  · intro h ⟨hash, hsome⟩
    have hkeyed : (posts.log store).SelfKeyed := posts.selfKeyed store
    obtain ⟨entry, hkept, href⟩ := hkeyed.isSome_iff.mp hsome
    obtain ⟨hauthor, hlane, hseq, -⟩ := PostRef.eq_iff.mp href
    exact h entry (posts.mem_at.mpr ⟨hkept, hauthor, hlane, hseq⟩)
  · intro h entry hmem
    obtain ⟨hkept, rfl, rfl, rfl⟩ := posts.mem_at.mp hmem
    exact h ⟨entry.entryHash, Option.isSome_iff_exists.mpr ⟨entry, hkept⟩⟩

end IPostStore

/-! ## An append -/

def PostFault.adds : PostFault → Bool
  | .addEntry _ => false
  | _ => true

/-- The record is put behind the entry. -/
def PostFault.saves : PostFault → Bool
  | .addEntry _ | .putOwnLane _ | .stopped => false
  | _ => true

def PostFault.IsPutOwnLane (fault : PostFault) : Prop := ∃ text, fault = .putOwnLane text

namespace PostAuthor

variable {posts : IPostStore} {crypto : PostCrypto} {author : PostAuthor} {store : posts.State} {kind : PostKind}
  {body : ByteVector} {nowMs : Int64} {drawn : PostLane} {fault : PostFault} {own : OwnPostLane} {entry : PostEntry}
  {signed : SignedPostEntry}

/-- The lane is the recorded one with its next place free, or a new one. -/
theorem currentLane_ok (h : author.currentLane posts store drawn fault = .ok own) :
    (posts.ownLane store author.device = some own ∧ ¬ (posts.log store).Holds author.accountId own.lane own.nextSeq) ∨
    (own = { device := author.device, lane := drawn } ∧ ∀ record, posts.ownLane store author.device = some record →
      (posts.log store).Holds author.accountId record.lane record.nextSeq) := by
  unfold currentLane at h
  split at h
  · cases h
  split at h
  next hnone =>
    obtain rfl := Except.ok.inj h
    exact .inr ⟨rfl, fun record hrecord => by rw [hnone] at hrecord; cases hrecord⟩
  next record hrecord =>
    split at h
    · cases h
    · split at h
      next hfree =>
        obtain rfl := Except.ok.inj h
        exact .inl ⟨hrecord, IPostStore.at_eq_nil.mp hfree⟩
      next htaken =>
        obtain rfl := Except.ok.inj h
        refine .inr ⟨rfl, ?_⟩
        intro other hother
        obtain rfl := Option.mem_unique hrecord hother
        exact not_not.mp (mt IPostStore.at_eq_nil.mpr htaken)

theorem draft_ok (h : author.draft posts store kind body nowMs drawn fault = .ok (own, entry, signed)) :
    author.currentLane posts store drawn fault = .ok own ∧ entry = author.nextEntry own kind body nowMs ∧
      signed.canonical = Posts.postEntryCanonicalBytes entry := by
  obtain ⟨_, -, h⟩ := roe_bind_ok.mp h
  obtain ⟨lane, hlane, h⟩ := roe_bind_ok.mp h
  obtain ⟨signature, hsigned, h⟩ := roe_bind_ok.mp h
  obtain ⟨rfl, heq⟩ := Prod.mk.inj (Except.ok.inj h)
  obtain ⟨rfl, rfl⟩ := Prod.mk.inj heq
  exact ⟨hlane, rfl, (Posts.parsePostEntry_signed hsigned).1⟩

end PostAuthor

/-! ## A device -/

/-- A device's store, the entries its appends added, in order, and the
records they put. -/
structure PostDevice (posts : IPostStore) where
  store : posts.State
  written : List PostEntry
  records : List OwnPostLane

inductive PostDeviceOp where
  | append (kind : PostKind) (body : ByteVector) (nowMs : Int64) (drawn : PostLane) (fault : PostFault)
  /-- An older record is put back. -/
  | restore (record : OwnPostLane)
  /-- Another copy's entries, and whatever else is written to the store. -/
  | arrive (op : PostStoreOp)

namespace PostDevice

variable {posts : IPostStore} (crypto : PostCrypto) (author : PostAuthor) (device : PostDevice posts)

def log : PostLog := posts.log device.store

/-- An entry of the account's lane sits there. -/
def Holds (lane : PostLane) (seq : UInt64) : Prop := device.log.Holds author.accountId lane seq

/-- The lane is new here. -/
def Fresh (lane : PostLane) : Prop := ∀ seq, ¬ device.Holds author lane seq

def writtenIn (lane : PostLane) : List PostEntry := device.written.filter (·.lane = lane)

def hashOf (entry : PostEntry) : PostHash := Posts.postEntryHash crypto (Posts.postEntryCanonicalBytes entry)

/-- One step; the ghost lists follow what is added and put. -/
def step : PostDeviceOp → PostDevice posts
  | .append kind body nowMs drawn fault =>
    let after := (author.append posts crypto device.store kind body nowMs drawn fault).1
    match author.draft posts device.store kind body nowMs drawn fault with
    | .error _ => { device with store := after }
    | .ok (own, entry, signed) => {
        store := after
        written := if fault.adds then device.written ++ [entry] else device.written
        records := if fault.saves then
            PostAuthor.advanced own entry (Posts.postEntryHash crypto signed.canonical) :: device.records
          else device.records }
  | .restore record => { device with store := posts.step device.store (.putOwnLane record) }
  | .arrive op => { device with store := posts.step device.store op }

/-- A drawn lane is new, a record put back was put before, and only the
device puts its record. -/
def Allows : PostDeviceOp → Prop
  | .append _ _ _ drawn _ => device.Fresh author drawn
  | .restore record => record ∈ device.records
  | .arrive op => ∀ lane, op = .putOwnLane lane → lane.device ≠ author.device

/-- The devices of any run from an empty store. -/
inductive Reached : PostDevice posts → Prop
  | start : Reached ⟨posts.empty, [], []⟩
  | step {device op} (h : Reached device) (hop : device.Allows author op) : Reached (device.step crypto author op)

/-- Entry after entry from seq 1. -/
structure Chained (entries : List PostEntry) : Prop where
  first : ∀ entry, entries.head? = some entry → entry.seq = 1 ∧ entry.prev = .filled 0
  follows : entries.IsChain fun prev next => Posts.checkPostChain prev (hashOf crypto prev) next = .ok ()

/-- The record stands behind the last entry, or its next place is taken. -/
def Continues (entries : List PostEntry) (record : OwnPostLane) : Prop :=
  (∃ last, entries.getLast? = some last ∧ record.nextSeq = last.seq + 1 ∧ record.lastHash = hashOf crypto last ∧
    record.lastClaimedAt = last.claimedAt) ∨
  ∃ entry ∈ entries, entry.seq = record.nextSeq

structure Sound : Prop where
  mine : ∀ entry ∈ device.written, entry.author = author.accountId
  held : ∀ entry ∈ device.written, device.Holds author entry.lane entry.seq
  chained : ∀ lane, Chained crypto (device.writtenIn lane)
  recorded : ∀ record, posts.ownLane device.store author.device = some record → record ∈ device.records
  own : ∀ record ∈ device.records, record.device = author.device
  continues : ∀ record ∈ device.records, Continues crypto (device.writtenIn record.lane) record

variable {crypto author device}

variable {entry : PostEntry} {lane : PostLane} {drawn : PostLane} {fault : PostFault} {own : OwnPostLane}
  {signed : SignedPostEntry}

theorem mem_writtenIn : entry ∈ device.writtenIn lane ↔ entry ∈ device.written ∧ entry.lane = lane := by
  rw [writtenIn, List.mem_filter, decide_eq_true_eq]

theorem Sound.start : Sound crypto author (⟨posts.empty, [], []⟩ : PostDevice posts) where
  mine _ h := absurd h List.not_mem_nil
  held _ h := absurd h List.not_mem_nil
  chained _ := ⟨fun _ h => (by cases h), List.isChain_nil⟩
  recorded record h := by
    rw [posts.ownLane_empty] at h
    cases h
  own _ h := absurd h List.not_mem_nil
  continues _ h := absurd h List.not_mem_nil

/-- Nothing the store forgets, and no record that was not put. -/
theorem Sound.frame (h : Sound crypto author device) {store : posts.State}
    (hholds : ∀ {lane seq}, device.Holds author lane seq → (posts.log store).Holds author.accountId lane seq)
    (hown : ∀ record, posts.ownLane store author.device = some record → record ∈ device.records) :
    Sound crypto author { device with store := store } where
  mine := h.mine
  held entry hmem := hholds (h.held entry hmem)
  chained := h.chained
  recorded := hown
  own := h.own
  continues := h.continues

theorem holds_step {store : posts.State} {op : PostStoreOp} {seq : UInt64}
    (h : (posts.log store).Holds author.accountId lane seq) :
    (posts.log (posts.step store op)).Holds author.accountId lane seq := by
  obtain ⟨hash, hsome⟩ := h
  refine ⟨hash, ?_⟩
  rw [posts.log_step]
  exact PostLog.step_isSome hsome

theorem Sound.restore (h : Sound crypto author device) {record : OwnPostLane} (hrecord : record ∈ device.records) :
    Sound crypto author { device with store := posts.step device.store (.putOwnLane record) } := by
  apply h.frame holds_step
  intro other hother
  rw [posts.ownLane_put] at hother
  split at hother
  · obtain rfl := Option.some.inj hother
    exact hrecord
  · exact h.recorded other hother

theorem Sound.arrive (h : Sound crypto author device) {op : PostStoreOp}
    (hop : ∀ lane, op = .putOwnLane lane → lane.device ≠ author.device) :
    Sound crypto author { device with store := posts.step device.store op } := by
  apply h.frame holds_step
  intro record hrecord
  by_cases hput : ∃ lane, op = .putOwnLane lane
  · obtain ⟨lane, rfl⟩ := hput
    rw [posts.ownLane_put, if_neg (hop lane rfl)] at hrecord
    exact h.recorded record hrecord
  · rw [posts.ownLane_keep _ _ _ fun lane heq => hput ⟨lane, heq⟩] at hrecord
    exact h.recorded record hrecord

/-! ## The next entry -/

theorem checkPostChain_ok {prev next : PostEntry} {prevHash : PostHash} :
    Posts.checkPostChain prev prevHash next = .ok () ↔
      prev.author = next.author ∧ prev.lane = next.lane ∧ next.seq = prev.seq + 1 ∧ next.prev = prevHash ∧
        prev.claimedAt ≤ next.claimedAt := by
  unfold Posts.checkPostChain
  simp only [refuseIf_bind_ok, refuseIf_ok, not_or, not_not, not_lt, and_assoc, ne_eq]

/-- The lane an append writes in: one this device has written nothing in, or
the recorded one, behind its last entry. -/
theorem Sound.place (h : Sound crypto author device) (kind : PostKind) (body : ByteVector) (nowMs : Int64)
    (hfresh : device.Fresh author drawn) (hlane : author.currentLane posts device.store drawn fault = .ok own) :
    (own = { device := author.device, lane := drawn } ∧ device.writtenIn own.lane = []) ∨
    ∃ last, (device.writtenIn own.lane).getLast? = some last ∧
      Posts.checkPostChain last (hashOf crypto last) (author.nextEntry own kind body nowMs) = .ok () := by
  rcases PostAuthor.currentLane_ok hlane with ⟨hown, hfree⟩ | ⟨rfl, -⟩
  · right
    have hrecord := h.recorded own hown
    rcases h.continues own hrecord with ⟨last, hlast, hseq, hhash, hclaimed⟩ | ⟨entry, hentry, hseq⟩
    · obtain ⟨hwritten, hlane⟩ := mem_writtenIn.mp (List.mem_of_getLast? hlast)
      -- the lane's first entry sits at seq 1, so the next one does not
      have hnext : own.nextSeq ≠ 1 := by
        intro hone
        cases hhead : (device.writtenIn own.lane).head? with
        | none =>
          rw [List.head?_eq_none_iff.mp hhead] at hlast
          cases hlast
        | some first =>
          obtain ⟨hfirst, -⟩ := (h.chained own.lane).first first hhead
          obtain ⟨hmem, hsame⟩ := mem_writtenIn.mp (List.mem_of_head? hhead)
          have hheld := h.held first hmem
          rw [hsame, hfirst, ← hone] at hheld
          exact hfree hheld
      refine ⟨last, hlast, checkPostChain_ok.mpr ⟨h.mine last hwritten, hlane, hseq, ?_, ?_⟩⟩
      · rw [PostAuthor.nextEntry, if_neg hnext, hhash]
      · rw [← hclaimed]
        exact le_max_right _ _
    · obtain ⟨hwritten, hsame⟩ := mem_writtenIn.mp hentry
      have hheld := h.held entry hwritten
      rw [hsame, hseq] at hheld
      exact absurd hheld hfree
  · left
    refine ⟨rfl, List.eq_nil_iff_forall_not_mem.mpr ?_⟩
    intro entry hentry
    obtain ⟨hwritten, hsame⟩ := mem_writtenIn.mp hentry
    have hheld := h.held entry hwritten
    rw [hsame] at hheld
    exact hfresh _ hheld

/-- The device once the drafted entry is added. -/
def withEntry (crypto : PostCrypto) (device : PostDevice posts) (entry : PostEntry) (signed : SignedPostEntry) :
    PostDevice posts where
  store := posts.step device.store (.addStub (postEntryRow signed entry (hashOf crypto entry)))
  written := device.written ++ [entry]
  records := device.records

theorem writtenIn_withEntry : (device.withEntry crypto entry signed).writtenIn lane =
      if entry.lane = lane then device.writtenIn lane ++ [entry] else device.writtenIn lane := by
  rw [writtenIn, withEntry, List.filter_append, List.filter_singleton]
  by_cases hlane : entry.lane = lane <;> simp [hlane, writtenIn]

section

variable (h : Sound crypto author device)
include h

theorem Sound.withEntry {kind : PostKind} {body : ByteVector} {nowMs : Int64} (hfresh : device.Fresh author drawn)
    (hdraft : author.draft posts device.store kind body nowMs drawn fault = .ok (own, entry, signed)) :
    Sound crypto author (device.withEntry crypto entry signed) := by
  obtain ⟨hlane, rfl, -⟩ := PostAuthor.draft_ok hdraft
  have hplace := h.place kind body nowMs hfresh hlane
  have hholds : ∀ {lane seq}, device.Holds author lane seq →
      (device.withEntry crypto (author.nextEntry own kind body nowMs) signed).Holds author lane seq := holds_step
  constructor
  · intro entry hmem
    rcases List.mem_append.mp hmem with hmem | hmem
    · exact h.mine entry hmem
    · rw [List.mem_singleton.mp hmem]
      rfl
  · intro entry hmem
    rcases List.mem_append.mp hmem with hmem | hmem
    · exact hholds (h.held entry hmem)
    · rw [List.mem_singleton.mp hmem]
      refine ⟨hashOf crypto (author.nextEntry own kind body nowMs), ?_⟩
      rw [PostDevice.log, PostDevice.withEntry, posts.log_step]
      exact PostLog.addStub_isSome.mpr (.inr rfl)
  · intro lane
    rw [writtenIn_withEntry]
    split
    next hsame =>
      have hsame : own.lane = lane := hsame
      subst hsame
      rcases hplace with ⟨rfl, hempty⟩ | ⟨last, hlast, hfollows⟩
      · rw [hempty]
        refine ⟨?_, List.isChain_singleton _⟩
        rintro entry ⟨⟩
        exact ⟨rfl, rfl⟩
      · refine ⟨?_, (h.chained own.lane).follows.append (List.isChain_singleton _) ?_⟩
        · intro entry hhead
          cases hwritten : device.writtenIn own.lane with
          | nil =>
            rw [hwritten] at hlast
            cases hlast
          | cons first rest =>
            rw [hwritten] at hhead
            exact (h.chained own.lane).first entry (by rw [hwritten]; exact hhead)
        · intro prev hprev next hnext
          obtain rfl := Option.mem_unique hlast hprev
          obtain rfl := Option.some.inj hnext
          exact hfollows
    · exact h.chained lane
  · intro record hrecord
    rw [PostDevice.withEntry, posts.ownLane_keep _ _ _ (fun _ heq => by cases heq)] at hrecord
    exact h.recorded record hrecord
  · exact h.own
  · intro record hrecord
    rw [writtenIn_withEntry]
    split
    next hsame =>
      have hsame : own.lane = record.lane := hsame
      rcases h.continues record hrecord with ⟨last, hlast, hseq, -, -⟩ | ⟨entry, hentry, hseq⟩
      · rw [← hsame] at hlast
        rcases hplace with ⟨-, hempty⟩ | ⟨last', hlast', hfollows⟩
        · rw [hempty] at hlast
          cases hlast
        · obtain rfl := Option.mem_unique hlast hlast'
          obtain ⟨-, -, hnext, -, -⟩ := checkPostChain_ok.mp hfollows
          exact .inr ⟨_, List.mem_append_right _ List.mem_cons_self, hnext.trans hseq.symm⟩
      · exact .inr ⟨entry, List.mem_append_left _ hentry, hseq⟩
    · exact h.continues record hrecord

/-- The record put behind the entry just added. -/
theorem Sound.saved
    (hlast : (device.writtenIn own.lane).getLast? = some entry) (hown : own.device = author.device) :
    Sound crypto author { device with
      store := posts.step device.store (.putOwnLane (PostAuthor.advanced own entry (hashOf crypto entry)))
      records := PostAuthor.advanced own entry (hashOf crypto entry) :: device.records } := by
  constructor
  · exact h.mine
  · exact fun entry hmem => holds_step (h.held entry hmem)
  · exact h.chained
  · intro record hrecord
    have hdevice : (PostAuthor.advanced own entry (hashOf crypto entry)).device = author.device := hown
    rw [posts.ownLane_put, if_pos hdevice] at hrecord
    obtain rfl := Option.some.inj hrecord
    exact List.mem_cons_self
  · intro record hmem
    rcases List.mem_cons.mp hmem with rfl | hmem
    · exact hown
    · exact h.own record hmem
  · intro record hmem
    rcases List.mem_cons.mp hmem with rfl | hmem
    · exact .inl ⟨entry, hlast, rfl, rfl, rfl⟩
    · exact h.continues record hmem

theorem draft_own
    (hlane : author.currentLane posts device.store drawn fault = .ok own) : own.device = author.device := by
  rcases PostAuthor.currentLane_ok hlane with ⟨hown, -⟩ | ⟨rfl, -⟩
  · exact h.own own (h.recorded own hown)
  · rfl

theorem Sound.append {kind : PostKind} {body : ByteVector} {nowMs : Int64} (hfresh : device.Fresh author drawn) :
    Sound crypto author (device.step crypto author (.append kind body nowMs drawn fault)) := by
  rw [step, PostAuthor.append]
  cases hdraft : author.draft posts device.store kind body nowMs drawn fault with
  | error text => exact h
  | ok drafted =>
    obtain ⟨own, entry, signed⟩ := drafted
    obtain ⟨hlane, hentry, hcanonical⟩ := PostAuthor.draft_ok hdraft
    have hadded := h.withEntry hfresh hdraft
    have hlast : ((device.withEntry crypto entry signed).writtenIn own.lane).getLast? = some entry := by
      have hsame : entry.lane = own.lane := by rw [hentry]; rfl
      rw [writtenIn_withEntry, if_pos hsame, List.getLast?_concat]
    have hsaved := hadded.saved hlast (draft_own h hlane)
    have hhash : Posts.postEntryHash crypto signed.canonical = hashOf crypto entry := by
      rw [hcanonical]
      rfl
    dsimp only
    rw [hhash]
    cases fault with
    | none | ownLane text | at_ text => exact hsaved
    | addEntry text => exact h
    | putOwnLane text | stopped => exact hadded

end

theorem Reached.sound (h : Reached crypto author device) : Sound crypto author device := by
  induction h with
  | start => exact .start
  | @step device op _ hop ih =>
    cases op with
    | append kind body nowMs drawn fault => exact ih.append hop
    | restore record => exact ih.restore hop
    | arrive op => exact ih.arrive hop

/-! ## What an append adds -/

/-- The call gets as far as adding its entry. -/
def Writes (author : PostAuthor) (device : PostDevice posts) (kind : PostKind) (body : ByteVector) (nowMs : Int64)
    (drawn : PostLane) (fault : PostFault) : Prop :=
  (∃ drafted, author.draft posts device.store kind body nowMs drawn fault = .ok drafted) ∧ fault.adds

/-- The recorded lane's next place is free and a later one is not. -/
def Gapped (author : PostAuthor) (device : PostDevice posts) : Prop :=
  ∃ own, posts.ownLane device.store author.device = some own ∧ ¬ device.Holds author own.lane own.nextSeq ∧
    ∃ seq, own.nextSeq < seq ∧ device.Holds author own.lane seq

/-- What is new in the log is past all its lane held. -/
def AddsPast (author : PostAuthor) (before after : PostDevice posts) : Prop :=
  ∀ ref, (after.log ref).isSome → before.log ref = none → ∀ seq, before.Holds author ref.lane seq → seq < ref.seq

def AddsNothing (before after : PostDevice posts) : Prop := ∀ ref, (after.log ref).isSome → (before.log ref).isSome

variable {kind : PostKind} {body : ByteVector} {nowMs : Int64} {drawn : PostLane} {fault : PostFault}

theorem log_append_not_writes (h : ¬ Writes author device kind body nowMs drawn fault) :
    (device.step crypto author (.append kind body nowMs drawn fault)).log = device.log := by
  rw [step, PostAuthor.append]
  cases hdraft : author.draft posts device.store kind body nowMs drawn fault with
  | error text => rfl
  | ok drafted =>
    cases fault with
    | addEntry text => rfl
    | none | ownLane text | at_ text | putOwnLane text | stopped =>
      exact absurd ⟨⟨drafted, hdraft⟩, rfl⟩ h

variable (crypto) in
/-- What the log knows once an entry is drafted and added. -/
theorem log_append_writes
    (hdraft : author.draft posts device.store kind body nowMs drawn fault = .ok (own, entry, signed))
    (hadds : fault.adds) (ref : PostRef) :
    ((device.step crypto author (.append kind body nowMs drawn fault)).log ref).isSome ↔
      (device.log ref).isSome ∨ ref = ⟨entry.author, entry.lane, entry.seq, hashOf crypto entry⟩ := by
  obtain ⟨-, -, hcanonical⟩ := PostAuthor.draft_ok hdraft
  have hhash : Posts.postEntryHash crypto signed.canonical = hashOf crypto entry := by
    rw [hcanonical]
    rfl
  have hlog : (device.step crypto author (.append kind body nowMs drawn fault)).log =
      PostLog.addStub posts.bindBytes device.log (postEntryRow signed entry (hashOf crypto entry)) := by
    rw [step, PostAuthor.append, hdraft]
    dsimp only [log]
    rw [hhash]
    cases fault with
    | addEntry text => cases hadds
    | none | ownLane text | at_ text | putOwnLane text | stopped =>
      simp only [posts.log_step, PostLog.step]
  rw [hlog]
  exact PostLog.addStub_isSome

section

variable (hfresh : device.Fresh author drawn)
include hfresh

theorem not_holds_draft (hlane : author.currentLane posts device.store drawn fault = .ok own) :
    ¬ device.Holds author own.lane own.nextSeq := by
  rcases PostAuthor.currentLane_ok hlane with ⟨-, hfree⟩ | ⟨rfl, -⟩
  · exact hfree
  · exact hfresh _

theorem past_iff (hlane : author.currentLane posts device.store drawn fault = .ok own) :
    (∀ seq, device.Holds author own.lane seq → seq < own.nextSeq) ↔ ¬ Gapped author device := by
  rcases PostAuthor.currentLane_ok hlane with ⟨hown, hfree⟩ | ⟨rfl, htaken⟩
  · constructor
    · rintro hpast ⟨other, hother, -, seq, hlt, hheld⟩
      obtain rfl := Option.mem_unique hown hother
      exact absurd (hpast seq hheld) (not_lt.mpr hlt.le)
    · intro hgap seq hheld
      by_contra hle
      rcases (not_lt.mp hle).lt_or_eq with hlt | heq
      · exact hgap ⟨own, hown, hfree, seq, hlt, hheld⟩
      · rw [← heq] at hheld
        exact hfree hheld
  · constructor
    · rintro - ⟨record, hrecord, hfree, -⟩
      exact hfree (htaken record hrecord)
    · exact fun _ seq hheld => absurd hheld (hfresh seq)

theorem addsPast_iff : AddsPast author device (device.step crypto author (.append kind body nowMs drawn fault)) ↔
      (Writes author device kind body nowMs drawn fault → ¬ Gapped author device) := by
  by_cases hwrites : Writes author device kind body nowMs drawn fault
  · obtain ⟨⟨⟨own, entry, signed⟩, hdraft⟩, hadds⟩ := hwrites
    obtain ⟨hlane, rfl, -⟩ := PostAuthor.draft_ok hdraft
    have hnew := log_append_writes crypto hdraft hadds
    have hfree := not_holds_draft hfresh hlane
    rw [← past_iff hfresh hlane]
    constructor
    · intro hpast _ seq hheld
      refine hpast _ ((hnew _).mpr (.inr rfl)) ?_ seq hheld
      by_contra hsome
      exact hfree ⟨_, Option.ne_none_iff_isSome.mp hsome⟩
    · intro hpast ref hsome hnone seq hheld
      rcases (hnew ref).mp hsome with hold | rfl
      · rw [hnone] at hold
        cases hold
      · exact hpast ⟨⟨_, hdraft⟩, hadds⟩ seq hheld
  · constructor
    · exact fun _ h => absurd h hwrites
    · intro _ ref hsome hnone
      rw [log_append_not_writes hwrites, hnone] at hsome
      cases hsome

theorem addsNothing_iff :
    (∀ text, (author.append posts crypto device.store kind body nowMs drawn fault).2 = some (.error text) →
      AddsNothing device (device.step crypto author (.append kind body nowMs drawn fault))) ↔
      (Writes author device kind body nowMs drawn fault → ¬ fault.IsPutOwnLane) := by
  by_cases hwrites : Writes author device kind body nowMs drawn fault
  · obtain ⟨⟨⟨own, entry, signed⟩, hdraft⟩, hadds⟩ := hwrites
    obtain ⟨hlane, rfl, -⟩ := PostAuthor.draft_ok hdraft
    have hnew := log_append_writes crypto hdraft hadds
    have hfree := not_holds_draft hfresh hlane
    constructor
    · rintro hnothing - ⟨text, rfl⟩
      have hanswer : (author.append posts crypto device.store kind body nowMs drawn (.putOwnLane text)).2 =
          some (.error text) := by
        rw [PostAuthor.append, hdraft]
      exact hfree ⟨_, hnothing text hanswer _ ((hnew _).mpr (.inr rfl))⟩
    · intro hput text hanswer
      rw [PostAuthor.append, hdraft] at hanswer
      have hput := hput ⟨⟨_, hdraft⟩, hadds⟩
      cases fault with
      | addEntry text => cases hadds
      | putOwnLane text => exact absurd ⟨text, rfl⟩ hput
      | none | ownLane text | at_ text | stopped => cases hanswer
  · constructor
    · exact fun _ h => absurd h hwrites
    · intro _ text _ ref hsome
      rwa [log_append_not_writes hwrites] at hsome

end

/-- In every run what a device wrote chains in each lane, and an append goes
past all its lane holds and leaves nothing with an error exactly when it
writes nothing, or its place has no gap before it and the record is put. -/
theorem lanes_unforked (h : Reached crypto author device) :
    (∀ lane, Chained crypto (device.writtenIn lane)) ∧
    ∀ kind body nowMs drawn fault, device.Fresh author drawn →
      ((AddsPast author device (device.step crypto author (.append kind body nowMs drawn fault)) ∧
        ∀ text, (author.append posts crypto device.store kind body nowMs drawn fault).2 = some (.error text) →
          AddsNothing device (device.step crypto author (.append kind body nowMs drawn fault))) ↔
        (Writes author device kind body nowMs drawn fault → ¬ Gapped author device ∧ ¬ fault.IsPutOwnLane)) := by
  refine ⟨h.sound.chained, ?_⟩
  intro kind body nowMs drawn fault hfresh
  rw [addsPast_iff hfresh, addsNothing_iff hfresh]
  exact ⟨fun hboth hwrites => ⟨hboth.1 hwrites, hboth.2 hwrites⟩,
    fun hboth => ⟨fun hwrites => (hboth hwrites).1, fun hwrites => (hboth hwrites).2⟩⟩

/-! ## Where a lane forks -/

def sampleAuthor : PostAuthor := ⟨[97], [98], Posts.samplePostSigner⟩

def sampleBody : ByteVector := PostBodies.encodeLaneCloseBody ⟨.filled 0, 1⟩

theorem sampleBody_checked : PostBodies.checkPostBody PostKind.laneClose.byte sampleBody sampleAuthor.accountId = .ok () := by
  decide

theorem sign_sample (own : OwnPostLane) (nowMs : Int64) :
    ∃ signed, Posts.signPostEntry (sampleAuthor.nextEntry own .laneClose sampleBody nowMs) sampleAuthor.signer =
      .ok signed := by
  have hdomain : (kEntryDomain ++ PostWire.putU8 kEntryVersion).length = 26 := by decide
  have hbody : sampleBody.length = 24 := by decide
  have hlength : (Posts.postEntryCanonicalBytes (sampleAuthor.nextEntry own .laneClose sampleBody nowMs)).length = 140 := by
    rw [Posts.postEntryCanonicalBytes, List.length_append, hdomain, Posts.writeEntry_length]
    change 26 + (8 + 1 + 65 + (8 + sampleBody.length) + 8) = 140
    rw [hbody]
  refine ⟨⟨Posts.postEntryCanonicalBytes (sampleAuthor.nextEntry own .laneClose sampleBody nowMs),
    List.replicate kMlDsa65SignatureBytes 0⟩, ?_⟩
  unfold Posts.signPostEntry
  simp only [refuseIf_bind_ok]
  refine ⟨?_, ?_, rfl⟩
  · rintro (hmany | hunordered)
    · exact absurd hmany (Nat.not_lt.mpr (Nat.zero_le _))
    · exact hunordered rfl
  · rw [hlength]
    decide

theorem draft_sample {store : IPostStore.inMemory.State} (nowMs : Int64)
    (h : sampleAuthor.currentLane .inMemory store drawn fault = .ok own) :
    ∃ signed, sampleAuthor.draft .inMemory store .laneClose sampleBody nowMs drawn fault =
      .ok (own, sampleAuthor.nextEntry own .laneClose sampleBody nowMs, signed) := by
  obtain ⟨signed, hsigned⟩ := sign_sample own nowMs
  refine ⟨signed, ?_⟩
  rw [PostAuthor.draft, sampleBody_checked, roe_ok_bind, h, roe_ok_bind]
  dsimp only
  rw [hsigned]
  rfl

def sampleStart : PostDevice .inMemory := ⟨IPostStore.inMemory.empty, [], []⟩

/-- The record a first append starts from, its entry, and what it leaves. -/
def sampleOwn : OwnPostLane := { device := [98], lane := .filled 1 }

def sampleEntry : PostEntry := sampleAuthor.nextEntry sampleOwn .laneClose sampleBody 0

def sampleOp (fault : PostFault) : PostDeviceOp := .append .laneClose sampleBody 0 (.filled 1) fault

def sampleDevice : PostDevice .inMemory := sampleStart.step Posts.samplePostCrypto sampleAuthor (sampleOp .none)

/-- An entry of another copy comes, two places on. -/
def sampleRival : PostEntry := { sampleEntry with seq := 3 }

def sampleArrival : PostStoreOp := .addEntry ⟨[], []⟩ sampleRival (.filled 0)

def sampleGapped : PostDevice .inMemory := sampleDevice.step Posts.samplePostCrypto sampleAuthor (.arrive sampleArrival)

theorem fresh_start (lane : PostLane) : sampleStart.Fresh sampleAuthor lane := by
  intro seq ⟨hash, hsome⟩
  rw [log, sampleStart, IPostStore.inMemory.log_empty] at hsome
  cases hsome

theorem draft_start (h : fault = .none ∨ fault.IsPutOwnLane) :
    ∃ signed, sampleAuthor.draft .inMemory sampleStart.store .laneClose sampleBody 0 (.filled 1) fault =
      .ok (sampleOwn, sampleEntry, signed) := by
  apply draft_sample 0
  rcases h with rfl | ⟨text, rfl⟩ <;> rfl

theorem reached_sampleDevice : Reached Posts.samplePostCrypto sampleAuthor sampleDevice :=
  .step .start (fresh_start (.filled 1))

theorem lanes_unforked_sample :
    sampleDevice.written = [sampleEntry] ∧ Chained Posts.samplePostCrypto (sampleDevice.writtenIn (.filled 1)) := by
  refine ⟨?_, (lanes_unforked reached_sampleDevice).1 (.filled 1)⟩
  obtain ⟨signed, hdraft⟩ := draft_start (.inl rfl)
  rw [sampleDevice, sampleOp, step, hdraft]
  rfl

theorem reached_sampleGapped : Reached Posts.samplePostCrypto sampleAuthor sampleGapped :=
  .step reached_sampleDevice fun _ h => by cases h

theorem known_sampleGapped (ref : PostRef) : (sampleGapped.log ref).isSome ↔
    ref = ⟨[97], .filled 1, 1, hashOf Posts.samplePostCrypto sampleEntry⟩ ∨ ref = ⟨[97], .filled 1, 3, .filled 0⟩ := by
  obtain ⟨signed, hdraft⟩ := draft_start (.inl rfl)
  have hdevice := log_append_writes Posts.samplePostCrypto hdraft rfl ref
  have hstart : sampleStart.log ref = none := by
    rw [log, sampleStart, IPostStore.inMemory.log_empty]
  rw [hstart, Option.isSome_none] at hdevice
  rw [sampleGapped, step, log, IPostStore.inMemory.log_step, sampleArrival, PostLog.step, PostLog.addStub_isSome]
  apply or_congr_left
  exact hdevice.trans (by simp [sampleEntry, PostAuthor.nextEntry, sampleAuthor, sampleOwn])

theorem ownLane_sampleGapped : ∃ own, IPostStore.inMemory.ownLane sampleGapped.store sampleAuthor.device = some own ∧
    own.lane = .filled 1 ∧ own.nextSeq = 2 := by
  obtain ⟨signed, hdraft⟩ := draft_start (.inl rfl)
  refine ⟨PostAuthor.advanced sampleOwn sampleEntry (Posts.postEntryHash Posts.samplePostCrypto signed.canonical), ?_,
    rfl, rfl⟩
  have hdevice : (PostAuthor.advanced sampleOwn sampleEntry
      (Posts.postEntryHash Posts.samplePostCrypto signed.canonical)).device = sampleAuthor.device := rfl
  rw [sampleGapped, step, IPostStore.inMemory.ownLane_keep _ _ _ (fun _ h => by cases h), sampleDevice, sampleOp, step,
    hdraft, PostAuthor.append, hdraft]
  dsimp only
  rw [IPostStore.inMemory.ownLane_put, if_pos hdevice]

theorem gapped_sampleGapped : Gapped sampleAuthor sampleGapped := by
  obtain ⟨own, hown, hlane, hnext⟩ := ownLane_sampleGapped
  refine ⟨own, hown, ?_, 3, by rw [hnext]; decide, ?_⟩
  · rintro ⟨hash, hsome⟩
    rw [hlane, hnext] at hsome
    rcases (known_sampleGapped _).mp hsome with heq | heq
    · have hseq : (2 : UInt64) = 1 := congrArg PostRef.seq heq
      exact absurd hseq (by decide)
    · have hseq : (2 : UInt64) = 3 := congrArg PostRef.seq heq
      exact absurd hseq (by decide)
  · rw [hlane]
    exact ⟨.filled 0, (known_sampleGapped _).mpr (.inr rfl)⟩

theorem fresh_sampleGapped : sampleGapped.Fresh sampleAuthor (.filled 2) := by
  intro seq ⟨hash, hsome⟩
  have hlane : PostLane.filled 2 = PostLane.filled 1 := by
    rcases (known_sampleGapped _).mp hsome with heq | heq
    · exact congrArg PostRef.lane heq
    · exact congrArg PostRef.lane heq
  exact absurd hlane (by decide)

theorem writes_sampleGapped : Writes sampleAuthor sampleGapped .laneClose sampleBody 0 (.filled 2) .none := by
  obtain ⟨own, hown, -, -⟩ := ownLane_sampleGapped
  obtain ⟨lane, hlane⟩ : ∃ lane, sampleAuthor.currentLane .inMemory sampleGapped.store (.filled 2) .none = .ok lane := by
    unfold PostAuthor.currentLane
    rw [hown]
    dsimp only
    split_ifs
    · exact ⟨_, rfl⟩
    · exact ⟨_, rfl⟩
  obtain ⟨signed, hdraft⟩ := draft_sample 0 hlane
  exact ⟨⟨_, hdraft⟩, rfl⟩

/-- An append adds an entry before one its lane holds, and one that fails to
put the record leaves its entry. -/
theorem lanes_forked :
    (¬ ∀ device : PostDevice .inMemory, Reached Posts.samplePostCrypto sampleAuthor device →
      ∀ kind body nowMs drawn fault, device.Fresh sampleAuthor drawn →
        AddsPast sampleAuthor device
          (device.step Posts.samplePostCrypto sampleAuthor (.append kind body nowMs drawn fault))) ∧
    ¬ ∀ device : PostDevice .inMemory, Reached Posts.samplePostCrypto sampleAuthor device →
      ∀ kind body nowMs drawn fault, device.Fresh sampleAuthor drawn → ∀ text,
        (sampleAuthor.append .inMemory Posts.samplePostCrypto device.store kind body nowMs drawn fault).2 =
          some (.error text) →
        AddsNothing device (device.step Posts.samplePostCrypto sampleAuthor (.append kind body nowMs drawn fault)) := by
  constructor
  · intro h
    have hpast := h sampleGapped reached_sampleGapped .laneClose sampleBody 0 (.filled 2) .none fresh_sampleGapped
    exact (addsPast_iff fresh_sampleGapped).mp hpast writes_sampleGapped gapped_sampleGapped
  · intro h
    have hnothing := h sampleStart .start .laneClose sampleBody 0 (.filled 1) (.putOwnLane "disk full")
      (fresh_start (.filled 1))
    obtain ⟨signed, hdraft⟩ := draft_start (.inr ⟨"disk full", rfl⟩)
    exact (addsNothing_iff (fresh_start (.filled 1))).mp hnothing ⟨⟨_, hdraft⟩, rfl⟩ ⟨"disk full", rfl⟩

end PostDevice

end Pbr
