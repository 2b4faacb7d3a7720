import Mathlib.Logic.Function.Basic
import PpBrowser.Lib.Rows
import PpBrowser.Lib.Runs
import PpBrowser.Social.PostTypes

/-!
# PostStore — where a device keeps posts, in memory and in SQLite

`IPostStore`, `InMemoryPostStore` and `SqlitePostStore`. The in-memory store
is nested ordered maps, the SQLite one a table held in the order of its
primary key, with a `uint64_t` kept as the `int64_t` of its bits. Beneath both
is what they keep: for each exact entry its row, if any (`PostLog`). No read
or write fails.
-/

namespace Pbr

open Lib

/-- Why an entry's bytes are not kept. -/
inductive PostStub where
  | none | deleted | unkept
  deriving DecidableEq, Repr

/-- One entry as kept: its signed bytes unless it is a stub. -/
structure StoredPostEntry where
  author : ByteVector
  lane : PostLane
  seq : UInt64
  entryHash : PostHash
  kind : UInt8 := 0
  claimedAt : Int64 := 0
  size : UInt64 := 0
  signedBytes : Option ByteVector := none
  stub : PostStub := .none
  deriving DecidableEq, Repr

inductive Added where
  | new | duplicate | fork
  deriving DecidableEq, Repr

/-- A device's own lane. -/
structure OwnPostLane where
  device : ByteVector
  lane : PostLane
  nextSeq : UInt64 := 1
  lastHash : PostHash := .filled 0
  lastClaimedAt : Int64 := 0
  deriving DecidableEq, Repr

abbrev PostPlaceKey := ByteVector ×ₗ PostLane ×ₗ UInt64

def postPlace (author : ByteVector) (lane : PostLane) (seq : UInt64) : PostPlaceKey := toLex (author, toLex (lane, seq))

namespace StoredPostEntry

variable (row : StoredPostEntry)

def ref : PostRef := { author := row.author, lane := row.lane, seq := row.seq, entryHash := row.entryHash }

def place : PostPlaceKey := postPlace row.author row.lane row.seq

/-- The row as first kept. -/
def stored : StoredPostEntry := { row with stub := if row.signedBytes.isSome then .none else row.stub }

/-- An unkept stub that gains the bytes. -/
def filled (signedBytes : Option ByteVector) : StoredPostEntry := { row with signedBytes, stub := .none }

def stubbed (why : PostStub) : StoredPostEntry := { row with signedBytes := none, stub := why }

/-- A row with bytes comes to an unkept stub without. -/
def Fills (kept : StoredPostEntry) : Prop := kept.signedBytes = none ∧ row.signedBytes.isSome ∧ kept.stub = .unkept

instance (kept : StoredPostEntry) : Decidable (row.Fills kept) := inferInstanceAs (Decidable (_ ∧ _))

end StoredPostEntry

def serializeSignedPostEntry (entry : SignedPostEntry) : ByteVector := entry.canonical ++ entry.signature

/-- The row of a verified entry, as `AddEntry` hands it to `AddStub`. -/
def postEntryRow (entry : SignedPostEntry) (parsed : PostEntry) (entryHash : PostHash) : StoredPostEntry where
  author := parsed.author
  lane := parsed.lane
  seq := parsed.seq
  entryHash
  kind := parsed.kind
  claimedAt := parsed.claimedAt
  size := .ofNat (entry.canonical.length + entry.signature.length)
  signedBytes := some (serializeSignedPostEntry entry)

/-! ## In memory -/

/-- The entries at one place, by hash. -/
structure PostPlace where
  place : PostPlaceKey
  held : RowMap StoredPostEntry.entryHash := {}
  placed : ∀ entry ∈ held.rows, entry.place = place := by simp

namespace PostPlace

variable (place : PostPlace) (entry : StoredPostEntry)

def hold (h : entry.place = place.place) : PostPlace where
  place := place.place
  held := place.held.insert entry
  placed := by
    intro row hrow
    rcases mem_putSorted_of hrow with rfl | hrow
    · exact h
    · exact place.placed row hrow

end PostPlace

structure InMemoryPostStore where
  entries : RowMap PostPlace.place := {}
  heads : ByteVector → Option (Int64 × SignedPostHead) := fun _ => none
  ownLanes : ByteVector → Option OwnPostLane := fun _ => none

namespace InMemoryPostStore

variable (store : InMemoryPostStore)

def placeAt (place : PostPlaceKey) : PostPlace := (store.entries.find place).getD { place }

theorem placeAt_place (place : PostPlaceKey) : (store.placeAt place).place = place := by
  rw [placeAt]
  cases h : store.entries.find place with
  | none => rfl
  | some kept => exact RowMap.key_of_find h

theorem place_of_find {place : PostPlaceKey} {hash : PostHash} {kept : StoredPostEntry}
    (h : (store.placeAt place).held.find hash = some kept) : kept.place = (store.placeAt place).place :=
  (store.placeAt place).placed kept (RowMap.mem_of_find h)

def keep (place : PostPlace) : InMemoryPostStore := { store with entries := store.entries.insert place }

def addStub (row : StoredPostEntry) : InMemoryPostStore × Added :=
  let place := store.placeAt row.place
  match h : place.held.find row.entryHash with
  | some kept =>
    have hplace : kept.place = place.place := store.place_of_find h
    if row.Fills kept then (store.keep (place.hold (kept.filled row.signedBytes) hplace), .duplicate)
    else (store, .duplicate)
  | none =>
    (store.keep (place.hold row.stored (store.placeAt_place row.place).symm),
      if place.held.rows ≠ [] then .fork else .new)

def stubOut (author : ByteVector) (lane : PostLane) (seq : UInt64) (entryHash : PostHash) (why : PostStub) :
    InMemoryPostStore :=
  let place := store.placeAt (postPlace author lane seq)
  match h : place.held.find entryHash with
  | some kept =>
    have hplace : kept.place = place.place := store.place_of_find h
    store.keep (place.hold (kept.stubbed why) hplace)
  | none => store

def at_ (author : ByteVector) (lane : PostLane) (seq : UInt64) : List StoredPostEntry :=
  match store.entries.find (postPlace author lane seq) with
  | some place => place.held.rows
  | none => []

/-- From `lower_bound` on, to the end of the lane or of the page. -/
def range (author : ByteVector) (lane : PostLane) (fromSeq : UInt64) (limit : Nat) : List StoredPostEntry :=
  let fromPlace := store.entries.rows.dropWhile (·.place < postPlace author lane fromSeq)
  let ofLane := fromPlace.takeWhile fun place => (ofLex place.place).1 = author ∧ (ofLex (ofLex place.place).2).1 = lane
  (ofLane.flatMap (·.held.rows)).take (min limit kMaxPostPageEntries)

/-- Each lane's last place: places come in the order of their seqs. -/
def lanesOf (author : ByteVector) : List PostHeadLane :=
  let lanes : RowMap PostHeadLane.lane := store.entries.rows.foldl (fun lanes place =>
    match place.held.rows.head? with
    | none => lanes
    | some first =>
      if (ofLex place.place).1 ≠ author then lanes
      else lanes.insert {
        lane := (ofLex (ofLex place.place).2).1, seq := (ofLex (ofLex place.place).2).2
        entryHash := first.entryHash }) {}
  lanes.rows

def hasFork (author : ByteVector) : Bool :=
  store.entries.rows.any fun place => (ofLex place.place).1 = author && 1 < place.held.rows.length

def putHead (head : SignedPostHead) (parsed : PostHead) : InMemoryPostStore :=
  match store.heads parsed.author with
  | some (issuedAt, _) =>
    if parsed.issuedAt > issuedAt then
      { store with heads := Function.update store.heads parsed.author (some (parsed.issuedAt, head)) }
    else store
  | none => { store with heads := Function.update store.heads parsed.author (some (parsed.issuedAt, head)) }

def head (author : ByteVector) : Option SignedPostHead := (store.heads author).map (·.2)

def ownLane (device : ByteVector) : Option OwnPostLane := store.ownLanes device

def putOwnLane (lane : OwnPostLane) : InMemoryPostStore :=
  { store with ownLanes := Function.update store.ownLanes lane.device (some lane) }

end InMemoryPostStore

/-! ## In SQLite -/

/-- A row of `post_entries`. -/
structure PostRow where
  author : ByteVector
  lane : PostLane
  seq : Int64
  entryHash : PostHash
  kind : UInt8
  claimedAt : Int64
  size : Int64
  signed : Option ByteVector
  stub : PostStub
  deriving DecidableEq, Repr

namespace PostRow

abbrev Key := ByteVector ×ₗ PostLane ×ₗ Int64 ×ₗ PostHash

def key (author : ByteVector) (lane : PostLane) (seq : Int64) (entryHash : PostHash) : Key :=
  toLex (author, toLex (lane, toLex (seq, entryHash)))

def primaryKey (row : PostRow) : Key := key row.author row.lane row.seq row.entryHash

end PostRow

/-- `sqlite3_bind_blob` of a vector: one with no bytes has no data and binds `NULL`. -/
def bindBlob (bytes : ByteVector) : Option ByteVector := if bytes = [] then none else some bytes

def rowOfEntry (entry : StoredPostEntry) : PostRow where
  author := entry.author
  lane := entry.lane
  seq := entry.seq.toInt64
  entryHash := entry.entryHash
  kind := entry.kind
  claimedAt := entry.claimedAt
  size := entry.size.toInt64
  signed := entry.signedBytes.bind bindBlob
  stub := if entry.signedBytes.isSome then .none else entry.stub

def entryFromRow (row : PostRow) : StoredPostEntry where
  author := row.author
  lane := row.lane
  seq := row.seq.toUInt64
  entryHash := row.entryHash
  kind := row.kind
  claimedAt := row.claimedAt
  size := row.size.toUInt64
  signedBytes := row.signed
  stub := row.stub

/-- A row of `post_own_lanes`. -/
structure OwnLaneRow where
  lane : PostLane
  nextSeq : Int64
  lastHash : PostHash
  lastClaimedAt : Int64

structure SqlitePostStore where
  postEntries : RowMap PostRow.primaryKey := {}
  postHeads : ByteVector → Option (Int64 × SignedPostHead) := fun _ => none
  postOwnLanes : ByteVector → Option OwnLaneRow := fun _ => none

namespace SqlitePostStore

variable (store : SqlitePostStore)

/-- `INSERT` and `UPDATE` by the primary key. -/
def write (row : PostRow) : SqlitePostStore := { store with postEntries := store.postEntries.insert row }

def addStub (row : StoredPostEntry) : SqlitePostStore × Added :=
  let existing := store.postEntries.rows.filter fun r =>
    r.author = row.author ∧ r.lane = row.lane ∧ r.seq = row.seq.toInt64
  match existing.find? (·.entryHash = row.entryHash) with
  | some kept =>
    let heldAsStub := kept.signed = none
    if heldAsStub ∧ row.signedBytes.isSome ∧ kept.stub = .unkept then
      (store.write { kept with signed := row.signedBytes.bind bindBlob, stub := .none }, .duplicate)
    else (store, .duplicate)
  | none => (store.write (rowOfEntry row), if existing ≠ [] then .fork else .new)

def stubOut (author : ByteVector) (lane : PostLane) (seq : UInt64) (entryHash : PostHash) (why : PostStub) :
    SqlitePostStore :=
  match store.postEntries.find (PostRow.key author lane seq.toInt64 entryHash) with
  | some kept => store.write { kept with signed := none, stub := why }
  | none => store

def at_ (author : ByteVector) (lane : PostLane) (seq : UInt64) : List StoredPostEntry :=
  (store.postEntries.rows.filter fun r => r.author = author ∧ r.lane = lane ∧ r.seq = seq.toInt64).map entryFromRow

def range (author : ByteVector) (lane : PostLane) (fromSeq : UInt64) (limit : Nat) : List StoredPostEntry :=
  ((store.postEntries.rows.filter fun r => r.author = author ∧ r.lane = lane ∧ fromSeq.toInt64 ≤ r.seq).take
    (min limit kMaxPostPageEntries)).map entryFromRow

/-- The author's rows at the highest seq of their lane, grouped by lane, with
the least hash of each group. -/
def lanesOf (author : ByteVector) : List PostHeadLane :=
  let rows := store.postEntries.rows.filter (·.author = author)
  let tops := rows.filter fun e => ∀ r ∈ rows, r.lane = e.lane → r.seq ≤ e.seq
  (tops.map (·.lane)).dedup.filterMap fun lane =>
    let group := tops.filter (·.lane = lane)
    match group.head?, (group.map (·.entryHash)).min? with
    | some e, some entryHash => some { lane, seq := e.seq.toUInt64, entryHash }
    | _, _ => none

/-- Some `(lane, seq)` has more than one row of the author. -/
def hasFork (author : ByteVector) : Bool :=
  let rows := store.postEntries.rows.filter (·.author = author)
  rows.any fun e => 1 < (rows.filter fun r => r.lane = e.lane ∧ r.seq = e.seq).length

/-- `canonical` and `signature` are `NOT NULL`: a head that binds one as
`NULL` is an error and writes nothing. -/
def putHead (head : SignedPostHead) (parsed : PostHead) : SqlitePostStore :=
  if bindBlob head.canonical = none ∨ bindBlob head.signature = none then store
  else
    match store.postHeads parsed.author with
    | some (issuedAt, _) =>
      if parsed.issuedAt > issuedAt then
        { store with postHeads := Function.update store.postHeads parsed.author (some (parsed.issuedAt, head)) }
      else store
    | none => { store with postHeads := Function.update store.postHeads parsed.author (some (parsed.issuedAt, head)) }

def head (author : ByteVector) : Option SignedPostHead := (store.postHeads author).map (·.2)

def ownLane (device : ByteVector) : Option OwnPostLane :=
  (store.postOwnLanes device).map fun row => {
    device, lane := row.lane, nextSeq := row.nextSeq.toUInt64, lastHash := row.lastHash
    lastClaimedAt := row.lastClaimedAt }

def putOwnLane (lane : OwnPostLane) : SqlitePostStore :=
  { store with postOwnLanes := Function.update store.postOwnLanes lane.device (some {
      lane := lane.lane, nextSeq := lane.nextSeq.toInt64, lastHash := lane.lastHash
      lastClaimedAt := lane.lastClaimedAt }) }

end SqlitePostStore

/-! ## What a post store keeps of each entry -/

/-- The row kept of each entry. -/
abbrev PostLog := PostRef → Option StoredPostEntry

inductive PostStoreOp where
  | addStub (row : StoredPostEntry)
  | stubOut (author : ByteVector) (lane : PostLane) (seq : UInt64) (entryHash : PostHash) (why : PostStub)
  | putHead (head : SignedPostHead) (parsed : PostHead)
  | putOwnLane (lane : OwnPostLane)

abbrev PostStoreOp.addEntry (entry : SignedPostEntry) (parsed : PostEntry) (entryHash : PostHash) : PostStoreOp :=
  .addStub (postEntryRow entry parsed entryHash)

namespace PostLog

variable (bind : ByteVector → Option ByteVector) (log : PostLog)

def addStub (row : StoredPostEntry) : PostLog :=
  match log row.ref with
  | some kept =>
    if row.Fills kept then Function.update log row.ref (some (kept.filled (row.signedBytes.bind bind))) else log
  | none => Function.update log row.ref (some { row.stored with signedBytes := row.signedBytes.bind bind })

def stubOut (ref : PostRef) (why : PostStub) : PostLog :=
  match log ref with
  | some kept => Function.update log ref (some (kept.stubbed why))
  | none => log

def step : PostStoreOp → PostLog
  | .addStub row => addStub bind log row
  | .stubOut author lane seq entryHash why => stubOut log { author, lane, seq, entryHash } why
  | .putHead _ _ => log
  | .putOwnLane _ => log

/-- What a run leaves of each entry. -/
def run (ops : List PostStoreOp) : PostLog := ops.foldl (step bind) fun _ => none

/-- Two entries at one place. -/
def Forked (author : ByteVector) : Prop :=
  ∃ a b : PostRef, a.author = author ∧ b.author = author ∧ a.lane = b.lane ∧ a.seq = b.seq ∧
    a.entryHash ≠ b.entryHash ∧ (log a).isSome ∧ (log b).isSome

/-- The entry's bytes went, and not for lack of understanding. -/
def Closed (ref : PostRef) : Prop := ∃ kept, log ref = some kept ∧ kept.signedBytes = none ∧ kept.stub ≠ .unkept

/-- The author deletes the entry: its stub, or a stub of it from elsewhere. -/
def Deletes (ref : PostRef) : PostStoreOp → Prop
  | .addStub row => row.ref = ref ∧ row.signedBytes = none ∧ row.stub = .deleted
  | .stubOut author lane seq entryHash why => ref = { author, lane, seq, entryHash } ∧ why = .deleted
  | _ => False

/-- A delete finds the entry, a Deleted stub finds it unknown or closed, and
no closed entry is stubbed as unkept. -/
def Honors : PostStoreOp → Prop
  | .addStub row => row.signedBytes = none → row.stub = .deleted → log row.ref = none ∨ log.Closed row.ref
  | .stubOut author lane seq entryHash why =>
    (why = .deleted → (log { author, lane, seq, entryHash }).isSome) ∧
      (why = .unkept → ¬ log.Closed { author, lane, seq, entryHash })
  | _ => True

variable {bind log} {ref : PostRef} {row kept : StoredPostEntry} {why : PostStub} {op : PostStoreOp}

/-! ## One operation -/

theorem addStub_eq_some (h : log row.ref = some kept) : addStub bind log row =
    if row.Fills kept then Function.update log row.ref (some (kept.filled (row.signedBytes.bind bind))) else log := by
  rw [addStub, h]

theorem addStub_eq_none (h : log row.ref = none) : addStub bind log row =
    Function.update log row.ref (some { row.stored with signedBytes := row.signedBytes.bind bind }) := by
  rw [addStub, h]

theorem stubOut_eq_some (h : log ref = some kept) :
    stubOut log ref why = Function.update log ref (some (kept.stubbed why)) := by
  rw [stubOut, h]

theorem stubOut_eq_none (h : log ref = none) : stubOut log ref why = log := by
  rw [stubOut, h]

theorem addStub_of_ne (h : row.ref ≠ ref) : addStub bind log row ref = log ref := by
  cases hlog : log row.ref with
  | none => rw [addStub_eq_none hlog, Function.update_of_ne (Ne.symm h)]
  | some kept =>
    rw [addStub_eq_some hlog]
    split
    · rw [Function.update_of_ne (Ne.symm h)]
    · rfl

theorem addStub_some (h : log row.ref = some kept) : addStub bind log row row.ref =
      some (if row.Fills kept then kept.filled (row.signedBytes.bind bind) else kept) := by
  rw [addStub_eq_some h]
  split
  · rw [Function.update_self]
  · exact h

theorem addStub_none (h : log row.ref = none) :
    addStub bind log row row.ref = some { row.stored with signedBytes := row.signedBytes.bind bind } := by
  rw [addStub_eq_none h, Function.update_self]

theorem stubOut_of_ne {other : PostRef} (h : other ≠ ref) : stubOut log other why ref = log ref := by
  cases hlog : log other with
  | none => rw [stubOut_eq_none hlog]
  | some kept => rw [stubOut_eq_some hlog, Function.update_of_ne (Ne.symm h)]

theorem stubOut_self : stubOut log ref why ref = (log ref).map (·.stubbed why) := by
  cases hlog : log ref with
  | none => rw [stubOut_eq_none hlog, hlog, Option.map_none]
  | some kept => rw [stubOut_eq_some hlog, Function.update_self, Option.map_some]

theorem step_isSome (h : (log ref).isSome) : (step bind log op ref).isSome := by
  cases op with
  | addStub row =>
    by_cases heq : row.ref = ref
    · subst heq
      obtain ⟨kept, hkept⟩ := Option.isSome_iff_exists.mp h
      simp [step, addStub_some hkept]
    · rwa [step, addStub_of_ne heq]
  | stubOut author lane seq entryHash why =>
    by_cases heq : (⟨author, lane, seq, entryHash⟩ : PostRef) = ref
    · rw [step, heq, stubOut_self]
      simpa using h
    · rwa [step, stubOut_of_ne heq]
  | putHead head parsed | putOwnLane lane => exact h

theorem Closed.step (h : log.Closed ref) (hop : log.Honors op) : (PostLog.step bind log op).Closed ref := by
  obtain ⟨kept, hkept, hbytes, hstub⟩ := h
  cases op with
  | addStub row =>
    by_cases heq : row.ref = ref
    · subst heq
      have hfills : ¬ row.Fills kept := fun hfills => hstub hfills.2.2
      exact ⟨kept, by rw [PostLog.step, addStub_some hkept, if_neg hfills], hbytes, hstub⟩
    · exact ⟨kept, by rwa [PostLog.step, addStub_of_ne heq], hbytes, hstub⟩
  | stubOut author lane seq entryHash why =>
    by_cases heq : (⟨author, lane, seq, entryHash⟩ : PostRef) = ref
    · refine ⟨kept.stubbed why, ?_, rfl, ?_⟩
      · rw [PostLog.step, heq, stubOut_self, hkept]
        rfl
      · intro hwhy
        refine hop.2 hwhy ?_
        rw [heq]
        exact ⟨kept, hkept, hbytes, hstub⟩
    · exact ⟨kept, by rwa [PostLog.step, stubOut_of_ne heq], hbytes, hstub⟩
  | putHead head parsed | putOwnLane lane => exact ⟨kept, hkept, hbytes, hstub⟩

theorem Deletes.closed (h : Deletes ref op) (hop : log.Honors op) : (PostLog.step bind log op).Closed ref := by
  cases op with
  | addStub row =>
    obtain ⟨rfl, hbytes, hstub⟩ := h
    rcases hop hbytes hstub with hnone | hclosed
    · refine ⟨_, addStub_none hnone, ?_, ?_⟩
      · simp [hbytes]
      · simp [StoredPostEntry.stored, hbytes, hstub]
    · exact hclosed.step hop
  | stubOut author lane seq entryHash why =>
    obtain ⟨rfl, rfl⟩ := h
    obtain ⟨kept, hkept⟩ := Option.isSome_iff_exists.mp (hop.1 rfl)
    refine ⟨kept.stubbed .deleted, ?_, rfl, by simp [StoredPostEntry.stubbed]⟩
    rw [PostLog.step, stubOut_self, hkept]
    rfl
  | putHead head parsed | putOwnLane lane => exact h.elim

/-! ## Runs -/

variable {ops more : List PostStoreOp} {author : ByteVector}

theorem run_append : run bind (ops ++ more) = more.foldl (step bind) (run bind ops) := List.foldl_append

theorem foldl_isSome (h : (log ref).isSome) : (ops.foldl (step bind) log ref).isSome := by
  induction ops generalizing log with
  | nil => exact h
  | cons op ops ih => exact ih (step_isSome h)

theorem run_isSome (h : (run bind ops ref).isSome) : (run bind (ops ++ more) ref).isSome := by
  rw [run_append]
  exact foldl_isSome h

theorem run_forked (h : (run bind ops).Forked author) : (run bind (ops ++ more)).Forked author := by
  obtain ⟨a, b, ha, hb, hlane, hseq, hhash, hasome, hbsome⟩ := h
  exact ⟨a, b, ha, hb, hlane, hseq, hhash, run_isSome hasome, run_isSome hbsome⟩

theorem foldl_closed (h : log.Closed ref) (hops : Admits (step bind) Honors log ops) :
    (ops.foldl (step bind) log).Closed ref := by
  induction ops generalizing log with
  | nil => exact h
  | cons op ops ih => exact ih (h.step hops.1) hops.2

theorem foldl_deleted (hops : Admits (step bind) Honors log ops) (h : ∃ op ∈ ops, Deletes ref op) :
    (ops.foldl (step bind) log).Closed ref := by
  induction ops generalizing log with
  | nil => simp at h
  | cons op ops ih =>
    obtain ⟨delete, hmem, hdelete⟩ := h
    rcases List.mem_cons.mp hmem with rfl | hmem
    · show (ops.foldl (step bind) (step bind log delete)).Closed ref
      exact foldl_closed (hdelete.closed hops.1) hops.2
    · exact ih hops.2 ⟨delete, hmem, hdelete⟩

/-- In a run whose steps are all honored an entry deleted in it is closed at
its end. -/
theorem run_deleted (hops : Admits (step bind) Honors (fun _ => none) ops) (h : ∃ op ∈ ops, Deletes ref op) :
    (run bind ops).Closed ref := foldl_deleted hops h

end PostLog

/-! ## In memory -/

namespace InMemoryPostStore

variable {store : InMemoryPostStore} {ref : PostRef} {row kept : StoredPostEntry}

def step (store : InMemoryPostStore) : PostStoreOp → InMemoryPostStore
  | .addStub row => (store.addStub row).1
  | .stubOut author lane seq entryHash why => store.stubOut author lane seq entryHash why
  | .putHead head parsed => store.putHead head parsed
  | .putOwnLane lane => store.putOwnLane lane

def run (ops : List PostStoreOp) : InMemoryPostStore := ops.foldl step {}

/-- What the store keeps of each entry. -/
def log (store : InMemoryPostStore) : PostLog := fun ref =>
  (store.placeAt (postPlace ref.author ref.lane ref.seq)).held.find ref.entryHash

theorem log_row : store.log row.ref = (store.placeAt row.place).held.find row.entryHash := rfl

theorem postPlace_inj {a b : PostRef} (h : postPlace a.author a.lane a.seq = postPlace b.author b.lane b.seq)
    (hhash : a.entryHash = b.entryHash) : a = b := by
  have hpair := toLex.injective h
  obtain ⟨hauthor, hrest⟩ := Prod.mk.inj hpair
  obtain ⟨hlane, hseq⟩ := Prod.mk.inj (toLex.injective hrest)
  cases a
  cases b
  simp_all

/-- A row is kept under its own place and hash. -/
theorem ref_of_log (h : store.log ref = some kept) : kept.ref = ref := by
  have hfound : (store.placeAt (postPlace ref.author ref.lane ref.seq)).held.find ref.entryHash = some kept := h
  have hplace : kept.place = _ := store.place_of_find hfound
  have hhash : kept.entryHash = ref.entryHash := RowMap.key_of_find hfound
  rw [placeAt_place] at hplace
  have href : postPlace kept.ref.author kept.ref.lane kept.ref.seq = postPlace ref.author ref.lane ref.seq := hplace
  exact postPlace_inj href hhash

theorem placeAt_keep {place : PostPlace} {key : PostPlaceKey} :
    (store.keep place).placeAt key = if place.place = key then place else store.placeAt key := by
  rw [placeAt, keep, RowMap.find_insert]
  split
  · rfl
  · rfl

theorem log_hold {place : PostPlaceKey} {entry : StoredPostEntry} (h : entry.place = (store.placeAt place).place) :
    (store.keep ((store.placeAt place).hold entry h)).log = Function.update store.log entry.ref (some entry) := by
  have hplace : entry.place = place := h.trans (store.placeAt_place place)
  subst hplace
  funext ref
  rw [log, placeAt_keep]
  have hkey : ((store.placeAt entry.place).hold entry h).place = entry.place := store.placeAt_place entry.place
  rw [hkey]
  by_cases href : entry.ref = ref
  · subst href
    rw [if_pos (by rfl), Function.update_self]
    show ((store.placeAt entry.place).held.insert entry).find entry.entryHash = _
    rw [RowMap.find_insert, if_pos rfl]
  · rw [Function.update_of_ne (Ne.symm href)]
    by_cases hsame : entry.place = postPlace ref.author ref.lane ref.seq
    · rw [if_pos hsame]
      have hhash : entry.entryHash ≠ ref.entryHash := fun hhash => href (postPlace_inj hsame hhash)
      show ((store.placeAt entry.place).held.insert entry).find ref.entryHash = _
      rw [RowMap.find_insert, if_neg hhash, hsame]
      rfl
    · rw [if_neg hsame]
      rfl

theorem log_addStub : (store.addStub row).1.log = store.log.addStub some row := by
  have hbind : row.signedBytes.bind some = row.signedBytes := by simp
  rw [addStub]
  split
  next kept hkept =>
    rw [PostLog.addStub_eq_some (log_row.trans hkept), hbind]
    dsimp only
    split
    · have hkref : kept.ref = row.ref := ref_of_log (log_row.trans hkept)
      have href : (kept.filled row.signedBytes).ref = row.ref := hkref
      rw [← href]
      exact log_hold _
    · rfl
  next hnone =>
    rw [PostLog.addStub_eq_none (log_row.trans hnone), hbind]
    exact log_hold _

theorem log_stubOut {author : ByteVector} {lane : PostLane} {seq : UInt64} {entryHash : PostHash} {why : PostStub} :
    (store.stubOut author lane seq entryHash why).log = store.log.stubOut { author, lane, seq, entryHash } why := by
  have hlog : store.log { author, lane, seq, entryHash } =
      (store.placeAt (postPlace author lane seq)).held.find entryHash := rfl
  rw [stubOut]
  split
  next kept hkept =>
    have hkref : kept.ref = { author, lane, seq, entryHash } := ref_of_log (hlog.trans hkept)
    have href : (kept.stubbed why).ref = { author, lane, seq, entryHash } := hkref
    rw [PostLog.stubOut_eq_some (hlog.trans hkept), ← href]
    exact log_hold _
  next hnone =>
    rw [PostLog.stubOut_eq_none (hlog.trans hnone)]

theorem log_step {op : PostStoreOp} : (store.step op).log = store.log.step some op := by
  cases op with
  | addStub row => exact log_addStub
  | stubOut author lane seq entryHash why => exact log_stubOut
  | putHead head parsed =>
    simp only [step, putHead, PostLog.step]
    split
    · split
      · rfl
      · rfl
    · rfl
  | putOwnLane lane => rfl

theorem log_run {ops : List PostStoreOp} : (run ops).log = PostLog.run some ops := by
  have hfrom : ∀ store : InMemoryPostStore, (ops.foldl step store).log = ops.foldl (PostLog.step some) store.log := by
    induction ops with
    | nil => exact fun store => rfl
    | cons op ops ih =>
      intro store
      rw [List.foldl_cons, ih, log_step, List.foldl_cons]
  exact hfrom {}

end InMemoryPostStore

/-! ## In SQLite -/

namespace SqlitePostStore

variable {store : SqlitePostStore} {ref : PostRef} {row kept : StoredPostEntry} {r : PostRow}

def step (store : SqlitePostStore) : PostStoreOp → SqlitePostStore
  | .addStub row => (store.addStub row).1
  | .stubOut author lane seq entryHash why => store.stubOut author lane seq entryHash why
  | .putHead head parsed => store.putHead head parsed
  | .putOwnLane lane => store.putOwnLane lane

def run (ops : List PostStoreOp) : SqlitePostStore := ops.foldl step {}

/-- The primary key of an entry's row. -/
def keyOf (ref : PostRef) : PostRow.Key := PostRow.key ref.author ref.lane ref.seq.toInt64 ref.entryHash

/-- What the store keeps of each entry. -/
def log (store : SqlitePostStore) : PostLog := fun ref => (store.postEntries.find (keyOf ref)).map entryFromRow

theorem keyOf_ref : keyOf (entryFromRow r).ref = r.primaryKey := rfl

theorem keyOf_inj {a b : PostRef} (h : keyOf a = keyOf b) : a = b := by
  obtain ⟨hauthor, hrest⟩ := Prod.mk.inj (toLex.injective h)
  obtain ⟨hlane, hrest⟩ := Prod.mk.inj (toLex.injective hrest)
  obtain ⟨hseq, hhash⟩ := Prod.mk.inj (toLex.injective hrest)
  have hbits : a.seq = b.seq := congrArg Int64.toUInt64 hseq
  cases a
  cases b
  simp_all

theorem log_write : (store.write r).log = Function.update store.log (entryFromRow r).ref (some (entryFromRow r)) := by
  funext ref
  rw [log, write, RowMap.find_insert]
  by_cases href : (entryFromRow r).ref = ref
  · subst href
    rw [if_pos keyOf_ref.symm, Function.update_self, Option.map_some]
  · have hkey : r.primaryKey ≠ keyOf ref := fun hkey => href (keyOf_inj hkey)
    rw [if_neg hkey, Function.update_of_ne (Ne.symm href)]
    rfl

/-- The row `AddStub` meets is the one under the entry's primary key. -/
theorem find_existing : (store.postEntries.rows.filter fun r => r.author = row.author ∧ r.lane = row.lane ∧
      r.seq = row.seq.toInt64).find? (·.entryHash = row.entryHash) = store.postEntries.find (keyOf row.ref) := by
  rw [List.find?_filter, RowMap.find, rowOf]
  congr 1
  funext r
  simp only [decide_eq_true_eq]
  rw [decide_eq_decide]
  constructor
  · rintro ⟨⟨hauthor, hlane, hseq⟩, hhash⟩
    rw [PostRow.primaryKey, hauthor, hlane, hseq, hhash]
    rfl
  · intro hkey
    obtain ⟨hauthor, hrest⟩ := Prod.mk.inj (toLex.injective hkey)
    obtain ⟨hlane, hrest⟩ := Prod.mk.inj (toLex.injective hrest)
    obtain ⟨hseq, hhash⟩ := Prod.mk.inj (toLex.injective hrest)
    exact ⟨⟨hauthor, hlane, hseq⟩, hhash⟩

theorem log_addStub : (store.addStub row).1.log = store.log.addStub bindBlob row := by
  rw [addStub, find_existing]
  split
  next kept hkept =>
    have hlog : store.log row.ref = some (entryFromRow kept) := by rw [log, hkept, Option.map_some]
    have hkey : kept.primaryKey = keyOf row.ref := RowMap.key_of_find hkept
    have href : (entryFromRow kept).ref = row.ref := keyOf_inj hkey
    rw [PostLog.addStub_eq_some hlog]
    dsimp only
    by_cases hfills : row.Fills (entryFromRow kept)
    · have hunkept : kept.signed = none ∧ row.signedBytes.isSome ∧ kept.stub = .unkept := hfills
      rw [if_pos hfills, if_pos hunkept, ← href]
      exact log_write
    · have hunkept : ¬ (kept.signed = none ∧ row.signedBytes.isSome ∧ kept.stub = .unkept) := hfills
      rw [if_neg hfills, if_neg hunkept]
  next hnone =>
    have hlog : store.log row.ref = none := by rw [log, hnone, Option.map_none]
    rw [PostLog.addStub_eq_none hlog]
    exact log_write

theorem log_stubOut {author : ByteVector} {lane : PostLane} {seq : UInt64} {entryHash : PostHash} {why : PostStub} :
    (store.stubOut author lane seq entryHash why).log = store.log.stubOut { author, lane, seq, entryHash } why := by
  rw [stubOut]
  split
  next kept hkept =>
    have hlog : store.log { author, lane, seq, entryHash } = some (entryFromRow kept) := by
      rw [log, keyOf, hkept, Option.map_some]
    have hkey : kept.primaryKey = PostRow.key author lane seq.toInt64 entryHash := RowMap.key_of_find hkept
    have href : (entryFromRow kept).ref = { author, lane, seq, entryHash } := keyOf_inj hkey
    rw [PostLog.stubOut_eq_some hlog, ← href]
    exact log_write
  next hnone =>
    have hlog : store.log { author, lane, seq, entryHash } = none := by rw [log, keyOf, hnone, Option.map_none]
    rw [PostLog.stubOut_eq_none hlog]

theorem log_step {op : PostStoreOp} : (store.step op).log = store.log.step bindBlob op := by
  cases op with
  | addStub row => exact log_addStub
  | stubOut author lane seq entryHash why => exact log_stubOut
  | putHead head parsed =>
    simp only [step, putHead, PostLog.step]
    split
    · rfl
    · split
      · split
        · rfl
        · rfl
      · rfl
  | putOwnLane lane => rfl

theorem log_run {ops : List PostStoreOp} : (run ops).log = PostLog.run bindBlob ops := by
  have hfrom : ∀ store : SqlitePostStore, (ops.foldl step store).log = ops.foldl (PostLog.step bindBlob) store.log := by
    induction ops with
    | nil => exact fun store => rfl
    | cons op ops ih =>
      intro store
      rw [List.foldl_cons, ih, log_step, List.foldl_cons]
  exact hfrom {}

end SqlitePostStore

end Pbr
