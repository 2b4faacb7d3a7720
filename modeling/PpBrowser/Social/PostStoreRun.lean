import PpBrowser.Social.PostStoreAnswers

/-!
# PostStoreRun — deleted posts and the two stores over whole runs

In every run entries and forks stay. A deleted entry stays without its bytes
where each step honors the deletes (`PostLog.Honors`), and the two stores
answer alike where each step is one a signed column and a blob hold as given
(`Plain`).
-/

namespace Pbr

open Lib

/-- The columns hold what the operation gives. -/
def PostStoreOp.Plain : PostStoreOp → Prop
  | .addStub row => row.seq.toNat < 2 ^ 63 ∧ row.signedBytes ≠ some []
  | .stubOut _ _ _ _ _ => True
  | .putHead head _ => head.canonical ≠ [] ∧ head.signature ≠ []
  | .putOwnLane _ => True

variable {ops more : List PostStoreOp} {op : PostStoreOp} {author : ByteVector} {lane : PostLane} {seq : UInt64}
  {memory : InMemoryPostStore}

namespace PostLog

variable {log : PostLog} {bind : ByteVector → Option ByteVector}

theorem step_bindBlob (h : op.Plain) : log.step bindBlob op = log.step some op := by
  cases op with
  | addStub row =>
    have hbind : row.signedBytes.bind bindBlob = row.signedBytes.bind some := by
      cases hbytes : row.signedBytes with
      | none => rfl
      | some bytes =>
        have hne : bytes ≠ [] := fun hnil => h.2 (hnil ▸ hbytes)
        rw [Option.bind_some, Option.bind_some, bindBlob, if_neg hne]
    rw [step, step, addStub, addStub, hbind]
  | stubOut author lane seq entryHash why | putHead head parsed | putOwnLane lane => rfl

theorem run_bindBlob (h : ∀ op ∈ ops, op.Plain) : run bindBlob ops = run some ops := by
  have hfrom : ∀ log : PostLog, ops.foldl (step bindBlob) log = ops.foldl (step some) log := by
    induction ops with
    | nil => exact fun log => rfl
    | cons op ops ih =>
      intro log
      rw [List.foldl_cons, List.foldl_cons, step_bindBlob (h op List.mem_cons_self)]
      exact ih (fun op hop => h op (List.mem_cons_of_mem _ hop)) _
  exact hfrom _

theorem step_fits (hfits : log.Fits) (h : op.Plain) : (log.step bind op).Fits := by
  intro ref hsome
  cases op with
  | addStub row =>
    by_cases heq : row.ref = ref
    · rw [← heq]
      exact h.1
    · rw [step, addStub_of_ne heq] at hsome
      exact hfits hsome
  | stubOut author lane seq entryHash why =>
    by_cases heq : (⟨author, lane, seq, entryHash⟩ : PostRef) = ref
    · rw [step, heq, stubOut_self] at hsome
      exact hfits (by simpa using hsome)
    · rw [step, stubOut_of_ne heq] at hsome
      exact hfits hsome
  | putHead head parsed | putOwnLane lane => exact hfits hsome

theorem run_fits (h : ∀ op ∈ ops, op.Plain) : (run bind ops).Fits := by
  have hfrom : ∀ log : PostLog, log.Fits → PostLog.Fits (ops.foldl (step bind) log) := by
    induction ops with
    | nil => exact fun log hfits => hfits
    | cons op ops ih =>
      intro log hfits
      exact ih (fun op hop => h op (List.mem_cons_of_mem _ hop)) _ (step_fits hfits (h op List.mem_cons_self))
  have hempty : PostLog.Fits fun _ => none := by
    intro ref hsome
    cases hsome
  intro ref hsome
  exact hfrom _ hempty hsome

end PostLog

/-! ## The tables beside the entries -/

/-- The heads and own lanes of the two stores agree. -/
structure SameTables (memory : InMemoryPostStore) (sqlite : SqlitePostStore) : Prop where
  heads : sqlite.postHeads = memory.heads
  ownLane : ∀ device, sqlite.ownLane device = memory.ownLane device

theorem SameTables.step {sqlite : SqlitePostStore} (h : SameTables memory sqlite)
    (hop : op.Plain) : SameTables (memory.step op) (sqlite.step op) := by
  cases op with
  | addStub row =>
    have hmemory : (memory.addStub row).1.heads = memory.heads ∧ (memory.addStub row).1.ownLanes = memory.ownLanes := by
      rw [InMemoryPostStore.addStub]
      split
      · dsimp only
        split
        · exact ⟨rfl, rfl⟩
        · exact ⟨rfl, rfl⟩
      · exact ⟨rfl, rfl⟩
    have hsqlite : (sqlite.addStub row).1.postHeads = sqlite.postHeads ∧
        (sqlite.addStub row).1.postOwnLanes = sqlite.postOwnLanes := by
      rw [SqlitePostStore.addStub]
      split
      · dsimp only
        split
        · exact ⟨rfl, rfl⟩
        · exact ⟨rfl, rfl⟩
      · exact ⟨rfl, rfl⟩
    refine ⟨hsqlite.1.trans (h.heads.trans hmemory.1.symm), ?_⟩
    intro device
    have hown := h.ownLane device
    rw [SqlitePostStore.ownLane, InMemoryPostStore.ownLane] at hown ⊢
    rw [SqlitePostStore.step, InMemoryPostStore.step, hsqlite.2, hmemory.2, hown]
  | stubOut author lane seq entryHash why =>
    have hmemory : (memory.stubOut author lane seq entryHash why).heads = memory.heads ∧
        (memory.stubOut author lane seq entryHash why).ownLanes = memory.ownLanes := by
      rw [InMemoryPostStore.stubOut]
      split
      · exact ⟨rfl, rfl⟩
      · exact ⟨rfl, rfl⟩
    have hsqlite : (sqlite.stubOut author lane seq entryHash why).postHeads = sqlite.postHeads ∧
        (sqlite.stubOut author lane seq entryHash why).postOwnLanes = sqlite.postOwnLanes := by
      rw [SqlitePostStore.stubOut]
      split
      · exact ⟨rfl, rfl⟩
      · exact ⟨rfl, rfl⟩
    refine ⟨hsqlite.1.trans (h.heads.trans hmemory.1.symm), ?_⟩
    intro device
    have hown := h.ownLane device
    rw [SqlitePostStore.ownLane, InMemoryPostStore.ownLane] at hown ⊢
    rw [SqlitePostStore.step, InMemoryPostStore.step, hsqlite.2, hmemory.2, hown]
  | putHead head parsed =>
    have hbound : ¬ (bindBlob head.canonical = none ∨ bindBlob head.signature = none) := by
      simp [bindBlob, hop.1, hop.2]
    rw [SqlitePostStore.step, InMemoryPostStore.step, SqlitePostStore.putHead, InMemoryPostStore.putHead,
      if_neg hbound, h.heads]
    split
    · split
      · exact ⟨rfl, h.ownLane⟩
      · exact h
    · exact ⟨rfl, h.ownLane⟩
  | putOwnLane lane =>
    refine ⟨h.heads, ?_⟩
    intro device
    have hown := h.ownLane device
    rw [SqlitePostStore.ownLane, InMemoryPostStore.ownLane] at hown ⊢
    rw [SqlitePostStore.step, InMemoryPostStore.step, SqlitePostStore.putOwnLane, InMemoryPostStore.putOwnLane]
    by_cases hdevice : device = lane.device
    · subst hdevice
      simp
    · simp [hdevice, hown]

theorem sameTables_run (h : ∀ op ∈ ops, op.Plain) : SameTables (InMemoryPostStore.run ops) (SqlitePostStore.run ops) := by
  have hfrom : ∀ memory sqlite, SameTables memory sqlite →
      SameTables (ops.foldl InMemoryPostStore.step memory) (ops.foldl SqlitePostStore.step sqlite) := by
    induction ops with
    | nil => exact fun memory sqlite hsame => hsame
    | cons op ops ih =>
      intro memory sqlite hsame
      exact ih (fun op hop => h op (List.mem_cons_of_mem _ hop)) _ _ (hsame.step (h op List.mem_cons_self))
  exact hfrom {} {} ⟨rfl, fun device => rfl⟩

/-! ## Equal answers -/

structure SameAnswers (memory : InMemoryPostStore) (sqlite : SqlitePostStore) : Prop where
  added : ∀ row, (memory.addStub row).2 = (sqlite.addStub row).2
  at_ : ∀ author lane seq, memory.at_ author lane seq = sqlite.at_ author lane seq
  range : ∀ author lane fromSeq limit, fromSeq.toNat < 2 ^ 63 →
    memory.range author lane fromSeq limit = sqlite.range author lane fromSeq limit
  lanesOf : ∀ author, memory.lanesOf author = sqlite.lanesOf author
  hasFork : ∀ author, memory.hasFork author = sqlite.hasFork author
  head : ∀ author, memory.head author = sqlite.head author
  ownLane : ∀ device, memory.ownLane device = sqlite.ownLane device

theorem sameAnswers {sqlite : SqlitePostStore} (hlog : memory.log = sqlite.log)
    (hfits : sqlite.log.Fits) (htables : SameTables memory sqlite) : SameAnswers memory sqlite := by
  have hat : ∀ author lane seq, memory.at_ author lane seq = sqlite.at_ author lane seq := by
    intro author lane seq
    refine sorted_ext InMemoryPostStore.at_sorted SqlitePostStore.at_sorted ?_
    intro entry
    rw [InMemoryPostStore.mem_at, SqlitePostStore.mem_at, hlog]
  constructor
  case added =>
    intro row
    have hkeeps : (memory.placeAt row.place).held.rows = sqlite.at_ row.author row.lane row.seq := by
      rw [← hat, InMemoryPostStore.at_eq]
      rfl
    have hfind : (memory.placeAt row.place).held.find row.entryHash =
        (sqlite.postEntries.find (SqlitePostStore.keyOf row.ref)).map entryFromRow := congrFun hlog row.ref
    rw [InMemoryPostStore.addStub, SqlitePostStore.addStub, SqlitePostStore.find_existing]
    split
    next kept hkept =>
      rw [hkept] at hfind
      obtain ⟨r, hr, -⟩ := Option.map_eq_some_iff.mp hfind.symm
      rw [hr]
      dsimp only
      split
      · split
        · rfl
        · rfl
      · split
        · rfl
        · rfl
    next hnone =>
      rw [hnone] at hfind
      rw [Option.map_eq_none_iff.mp hfind.symm]
      dsimp only
      rw [hkeeps, SqlitePostStore.at_]
      simp
  case at_ => exact hat
  case range =>
    intro author lane fromSeq limit hseq
    rw [InMemoryPostStore.range_eq, SqlitePostStore.range_eq]
    congr 1
    refine sorted_ext InMemoryPostStore.laneFrom_sorted (SqlitePostStore.laneFrom_sorted hfits) ?_
    intro entry
    rw [InMemoryPostStore.mem_laneFrom, SqlitePostStore.mem_laneFrom hfits hseq, hlog]
  case lanesOf =>
    intro author
    refine sorted_ext InMemoryPostStore.lanesOf_sorted SqlitePostStore.lanesOf_sorted ?_
    intro top
    rw [InMemoryPostStore.mem_lanesOf, SqlitePostStore.mem_lanesOf hfits, hlog]
  case hasFork =>
    intro author
    rw [Bool.eq_iff_iff, InMemoryPostStore.hasFork_iff, SqlitePostStore.hasFork_iff, hlog]
  case head =>
    intro author
    rw [InMemoryPostStore.head, SqlitePostStore.head, htables.heads]
  case ownLane => exact fun device => (htables.ownLane device).symm

/-! ## Runs -/

/-- The entry has no bytes where it is kept. -/
def Bytesless (rows : List StoredPostEntry) (ref : PostRef) : Prop :=
  ∀ entry ∈ rows, entry.entryHash = ref.entryHash → entry.signedBytes = none

theorem at_known {log : PostLog} (hself : log.SelfKeyed) {rows : List StoredPostEntry} {ref : PostRef}
    (hrows : ∀ entry, entry ∈ rows ↔
      log.Kept entry ∧ entry.author = ref.author ∧ entry.lane = ref.lane ∧ entry.seq = ref.seq) :
    ref.entryHash ∈ rows.map (·.entryHash) ↔ (log ref).isSome := by
  rw [List.mem_map, hself.isSome_iff]
  constructor
  · intro ⟨entry, hentry, hhash⟩
    obtain ⟨hkept, hauthor, hlane, hseq⟩ := (hrows entry).mp hentry
    exact ⟨entry, hkept, PostRef.eq_iff.mpr ⟨hauthor, hlane, hseq, hhash⟩⟩
  · intro ⟨entry, hkept, href⟩
    obtain ⟨hauthor, hlane, hseq, hhash⟩ := PostRef.eq_iff.mp href
    exact ⟨entry, (hrows entry).mpr ⟨hkept, hauthor, hlane, hseq⟩, hhash⟩

theorem at_closed {log : PostLog} {rows : List StoredPostEntry} {ref : PostRef} (hrows : ∀ entry, entry ∈ rows ↔
      log.Kept entry ∧ entry.author = ref.author ∧ entry.lane = ref.lane ∧ entry.seq = ref.seq)
    (h : log.Closed ref) : Bytesless rows ref := by
  intro entry hentry hhash
  obtain ⟨hkept, hauthor, hlane, hseq⟩ := (hrows entry).mp hentry
  obtain ⟨kept, hkeptRef, hbytes, -⟩ := h
  have href : entry.ref = ref := PostRef.eq_iff.mpr ⟨hauthor, hlane, hseq, hhash⟩
  rw [PostLog.Kept, href] at hkept
  obtain rfl := Option.mem_unique hkeptRef hkept
  exact hbytes

/-- What the store answers of an entry's place. -/
abbrev InMemoryPostStore.atRef (store : InMemoryPostStore) (ref : PostRef) : List StoredPostEntry :=
  store.at_ ref.author ref.lane ref.seq

abbrev SqlitePostStore.atRef (store : SqlitePostStore) (ref : PostRef) : List StoredPostEntry :=
  store.at_ ref.author ref.lane ref.seq

/-- In every run entries and forks stay; where each step honors the deletes a
deleted entry has no bytes; where each step fits the columns the stores
answer alike. -/
theorem post_stores_keep (ops : List PostStoreOp) :
    (∀ more ref, ref.entryHash ∈ ((InMemoryPostStore.run ops).atRef ref).map (·.entryHash) →
      ref.entryHash ∈ ((InMemoryPostStore.run (ops ++ more)).atRef ref).map (·.entryHash)) ∧
    (∀ more ref, ref.entryHash ∈ ((SqlitePostStore.run ops).atRef ref).map (·.entryHash) →
      ref.entryHash ∈ ((SqlitePostStore.run (ops ++ more)).atRef ref).map (·.entryHash)) ∧
    (∀ more author, (InMemoryPostStore.run ops).hasFork author → (InMemoryPostStore.run (ops ++ more)).hasFork author) ∧
    (∀ more author, (SqlitePostStore.run ops).hasFork author → (SqlitePostStore.run (ops ++ more)).hasFork author) ∧
    (Admits (PostLog.step some) PostLog.Honors (fun _ => none) ops → ∀ ref, (∃ op ∈ ops, PostLog.Deletes ref op) →
      Bytesless ((InMemoryPostStore.run ops).atRef ref) ref) ∧
    (Admits (PostLog.step bindBlob) PostLog.Honors (fun _ => none) ops →
      ∀ ref, (∃ op ∈ ops, PostLog.Deletes ref op) → Bytesless ((SqlitePostStore.run ops).atRef ref) ref) ∧
    ((∀ op ∈ ops, op.Plain) → SameAnswers (InMemoryPostStore.run ops) (SqlitePostStore.run ops)) := by
  refine ⟨?_, ?_, ?_, ?_, ?_, ?_, ?_⟩
  · intro more ref
    rw [at_known InMemoryPostStore.selfKeyed fun entry => InMemoryPostStore.mem_at,
      at_known InMemoryPostStore.selfKeyed fun entry => InMemoryPostStore.mem_at, InMemoryPostStore.log_run,
      InMemoryPostStore.log_run]
    exact PostLog.run_isSome
  · intro more ref
    rw [at_known SqlitePostStore.selfKeyed fun entry => SqlitePostStore.mem_at,
      at_known SqlitePostStore.selfKeyed fun entry => SqlitePostStore.mem_at, SqlitePostStore.log_run,
      SqlitePostStore.log_run]
    exact PostLog.run_isSome
  · intro more author
    rw [InMemoryPostStore.hasFork_iff, InMemoryPostStore.hasFork_iff, InMemoryPostStore.log_run,
      InMemoryPostStore.log_run]
    exact PostLog.run_forked
  · intro more author
    rw [SqlitePostStore.hasFork_iff, SqlitePostStore.hasFork_iff, SqlitePostStore.log_run, SqlitePostStore.log_run]
    exact PostLog.run_forked
  · intro hops ref hdeleted
    refine at_closed (fun entry => InMemoryPostStore.mem_at) ?_
    rw [InMemoryPostStore.log_run]
    exact PostLog.run_deleted hops hdeleted
  · intro hops ref hdeleted
    refine at_closed (fun entry => SqlitePostStore.mem_at) ?_
    rw [SqlitePostStore.log_run]
    exact PostLog.run_deleted hops hdeleted
  · intro hplain
    have hlog : (InMemoryPostStore.run ops).log = (SqlitePostStore.run ops).log := by
      rw [InMemoryPostStore.log_run, SqlitePostStore.log_run, PostLog.run_bindBlob hplain]
    have hfits : (SqlitePostStore.run ops).log.Fits := by
      rw [SqlitePostStore.log_run]
      exact PostLog.run_fits hplain
    exact sameAnswers hlog hfits (sameTables_run hplain)

/-! ## A deleted post that comes back -/

def samplePost (seq : UInt64) (hash : UInt8) : StoredPostEntry where
  author := [97]
  lane := .filled 1
  seq
  entryHash := .filled hash
  signedBytes := some [1]

/-- Deleted, then stubbed as unkept, an entry gains its bytes again; and of a
seq past `2^63` the stores show different lanes. -/
theorem deleted_comes_back :
    ((InMemoryPostStore.run [.addStub (samplePost 1 1), .stubOut [97] (.filled 1) 1 (.filled 1) .deleted,
      .stubOut [97] (.filled 1) 1 (.filled 1) .unkept, .addStub (samplePost 1 1)]).at_ [97] (.filled 1) 1).map
        (·.signedBytes) = [some [1]] ∧
    ((SqlitePostStore.run [.addStub (samplePost 1 1), .stubOut [97] (.filled 1) 1 (.filled 1) .deleted,
      .stubOut [97] (.filled 1) 1 (.filled 1) .unkept, .addStub (samplePost 1 1)]).at_ [97] (.filled 1) 1).map
        (·.signedBytes) = [some [1]] ∧
    (InMemoryPostStore.run [.addStub (samplePost 1 1), .addStub (samplePost 0x8000000000000000 2)]).lanesOf [97] ≠
      (SqlitePostStore.run [.addStub (samplePost 1 1), .addStub (samplePost 0x8000000000000000 2)]).lanesOf [97] := by
  refine ⟨by decide, by decide, by decide⟩

end Pbr
