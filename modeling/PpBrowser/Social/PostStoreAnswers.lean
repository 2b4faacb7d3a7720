import PpBrowser.Lib.Sorted
import PpBrowser.Social.PostStore

/-!
# PostStoreAnswers — what both stores answer from the same log

Each answer of a store is a list in a known order whose members the log
decides. SQLite orders seqs as signed integers: where every seq is below
`2^63` that is their order, and the two stores answer alike.
-/

namespace Pbr

open Lib

/-- What the log decides of an author's lane: its highest place and the least
hash there. -/
structure PostLog.IsTop (log : PostLog) (author : ByteVector) (top : PostHeadLane) : Prop where
  known : (log ⟨author, top.lane, top.seq, top.entryHash⟩).isSome
  highest : ∀ {seq hash}, (log ⟨author, top.lane, seq, hash⟩).isSome → seq ≤ top.seq
  least : ∀ {hash}, (log ⟨author, top.lane, top.seq, hash⟩).isSome → top.entryHash ≤ hash

/-- A row of an entry is kept under the entry. -/
def PostLog.Kept (log : PostLog) (entry : StoredPostEntry) : Prop := log entry.ref = some entry

/-- Rows are kept under their own entries. -/
def PostLog.SelfKeyed (log : PostLog) : Prop := ∀ {ref kept}, log ref = some kept → kept.ref = ref

theorem PostLog.SelfKeyed.isSome_iff {log : PostLog} (h : log.SelfKeyed) {ref : PostRef} :
    (log ref).isSome ↔ ∃ entry, log.Kept entry ∧ entry.ref = ref := by
  constructor
  · intro hsome
    obtain ⟨kept, hkept⟩ := Option.isSome_iff_exists.mp hsome
    have href := h hkept
    exact ⟨kept, by rwa [PostLog.Kept, href], href⟩
  · rintro ⟨entry, hkept, rfl⟩
    exact Option.isSome_iff_exists.mpr ⟨entry, hkept⟩

theorem PostRef.eq_iff {entry : StoredPostEntry} {author : ByteVector} {lane : PostLane} {seq : UInt64}
    {hash : PostHash} : entry.ref = ⟨author, lane, seq, hash⟩ ↔
      entry.author = author ∧ entry.lane = lane ∧ entry.seq = seq ∧ entry.entryHash = hash := by
  rw [StoredPostEntry.ref, PostRef.mk.injEq]

theorem lt_of_postPlace {a b : ByteVector} {l m : PostLane} {s t : UInt64} (h : postPlace a l s < postPlace b m t)
    (hauthor : a = b) (hlane : l = m) : s < t := by
  subst hauthor hlane
  simpa [postPlace, Prod.Lex.toLex_lt_toLex] using h

theorem place_eq_iff {entry : StoredPostEntry} {author : ByteVector} {lane : PostLane} {seq : UInt64} :
    entry.place = postPlace author lane seq ↔ entry.author = author ∧ entry.lane = lane ∧ entry.seq = seq := by
  rw [StoredPostEntry.place, postPlace, postPlace, toLex_inj, Prod.mk.injEq, toLex_inj, Prod.mk.injEq]

namespace InMemoryPostStore

variable {store : InMemoryPostStore} {entry : StoredPostEntry} {author : ByteVector} {lane : PostLane} {seq : UInt64}
  {place : PostPlace}

theorem placeAt_of_mem (h : place ∈ store.entries.rows) : store.placeAt place.place = place := by
  rw [placeAt, RowMap.find_of_mem h]
  rfl

theorem mem_held {key : PostPlaceKey} :
    entry ∈ (store.placeAt key).held.rows ↔ store.log.Kept entry ∧ entry.place = key := by
  constructor
  · intro h
    have hplace : entry.place = key := ((store.placeAt key).placed entry h).trans (store.placeAt_place key)
    refine ⟨?_, hplace⟩
    rw [PostLog.Kept, log_row, hplace]
    exact RowMap.find_of_mem h
  · rintro ⟨hkept, rfl⟩
    rw [PostLog.Kept, log_row] at hkept
    exact RowMap.mem_of_find hkept

theorem mem_of_place (h : place ∈ store.entries.rows) :
    entry ∈ place.held.rows ↔ store.log.Kept entry ∧ entry.place = place.place := by
  rw [← mem_held, placeAt_of_mem h]

theorem exists_place (h : store.log.Kept entry) :
    ∃ place ∈ store.entries.rows, place.place = entry.place ∧ entry ∈ place.held.rows := by
  have hmem : entry ∈ (store.placeAt entry.place).held.rows := mem_held.mpr ⟨h, rfl⟩
  rw [placeAt] at hmem
  cases hfind : store.entries.find entry.place with
  | none => simp [hfind] at hmem
  | some place =>
    rw [hfind] at hmem
    exact ⟨place, RowMap.mem_of_find hfind, RowMap.key_of_find hfind, hmem⟩

theorem at_eq : store.at_ author lane seq = (store.placeAt (postPlace author lane seq)).held.rows := by
  rw [at_, placeAt]
  cases store.entries.find (postPlace author lane seq) with
  | none | some place => rfl

theorem mem_at : entry ∈ store.at_ author lane seq ↔
    store.log.Kept entry ∧ entry.author = author ∧ entry.lane = lane ∧ entry.seq = seq := by
  rw [at_eq, mem_held, place_eq_iff]

theorem at_sorted : (store.at_ author lane seq).Pairwise (·.entryHash < ·.entryHash) := by
  rw [at_eq]
  exact RowMap.sorted _

/-! ## Pages -/

variable (store) in
/-- The lane from a seq on, before it is cut to a page. -/
def laneFrom (author : ByteVector) (lane : PostLane) (fromSeq : UInt64) : List StoredPostEntry :=
  (((store.entries.rows.dropWhile (·.place < postPlace author lane fromSeq)).takeWhile fun place =>
    (ofLex place.place).1 = author ∧ (ofLex (ofLex place.place).2).1 = lane)).flatMap (·.held.rows)

theorem range_eq {limit : Nat} :
    store.range author lane seq limit = (store.laneFrom author lane seq).take (min limit kMaxPostPageEntries) := rfl

theorem ofLane_eq_filter :
    (store.entries.rows.dropWhile (·.place < postPlace author lane seq)).takeWhile (fun place =>
      (ofLex place.place).1 = author ∧ (ofLex (ofLex place.place).2).1 = lane) =
    store.entries.rows.filter fun place => postPlace author lane seq ≤ place.place ∧
      (ofLex place.place).1 = author ∧ (ofLex (ofLex place.place).2).1 = lane := by
  have hdrop : store.entries.rows.dropWhile (·.place < postPlace author lane seq) =
      store.entries.rows.filter (postPlace author lane seq ≤ ·.place) := by
    rw [dropWhile_eq_filter (store.entries.sorted.imp ?_)]
    · congr 1
      funext place
      rw [Bool.eq_iff_iff]
      simp
    · intro a b hab hb
      simp only [decide_eq_true_eq] at hb ⊢
      exact lt_trans hab hb
  rw [hdrop, takeWhile_eq_filter ?_, List.filter_filter]
  · congr 1
    funext place
    rw [Bool.eq_iff_iff]
    simp [and_comm]
  · refine (store.entries.sorted.filter _).imp_of_mem ?_
    intro a b ha hb hab hp
    simp only [decide_eq_true_eq, List.mem_filter] at ha hp ⊢
    -- between `(author, lane, seq)` and a place of the lane lie places of the lane only
    obtain ⟨hauthor, hfrom, hto⟩ := lex_between ha.2 (le_of_lt hab) hp.1.symm
    obtain ⟨hlane, -, -⟩ := lex_between hfrom hto hp.2.symm
    exact ⟨hauthor, hlane⟩

theorem mem_laneFrom : entry ∈ store.laneFrom author lane seq ↔
    store.log.Kept entry ∧ entry.author = author ∧ entry.lane = lane ∧ seq ≤ entry.seq := by
  rw [laneFrom, ofLane_eq_filter, List.mem_flatMap]
  constructor
  · intro ⟨place, hplace, hentry⟩
    obtain ⟨hmem, hp⟩ := List.mem_filter.mp hplace
    obtain ⟨hfrom, hauthor, hlane⟩ := of_decide_eq_true hp
    obtain ⟨hkept, hat⟩ := (mem_of_place hmem).mp hentry
    rw [← hat] at hfrom hauthor hlane
    obtain rfl : entry.author = author := hauthor
    obtain rfl : entry.lane = lane := hlane
    obtain ⟨-, hfrom, -⟩ := lex_between hfrom le_rfl rfl
    obtain ⟨-, hfrom, -⟩ := lex_between hfrom le_rfl rfl
    exact ⟨hkept, rfl, rfl, hfrom⟩
  · rintro ⟨hkept, rfl, rfl, hfrom⟩
    obtain ⟨place, hmem, hat, hentry⟩ := exists_place hkept
    refine ⟨place, List.mem_filter.mpr ⟨hmem, ?_⟩, hentry⟩
    rw [decide_eq_true_eq, hat]
    refine ⟨?_, rfl, rfl⟩
    simpa [StoredPostEntry.place, postPlace, Prod.Lex.toLex_le_toLex] using hfrom

theorem laneFrom_sorted : (store.laneFrom author lane seq).Pairwise fun a b =>
    toLex (a.seq, a.entryHash) < toLex (b.seq, b.entryHash) := by
  rw [laneFrom, ofLane_eq_filter, List.pairwise_flatMap]
  refine ⟨?_, ?_⟩
  · intro place hplace
    obtain ⟨hmem, -⟩ := List.mem_filter.mp hplace
    refine place.held.sorted.imp_of_mem ?_
    intro a b ha hb hab
    obtain ⟨-, -, hseq⟩ := place_eq_iff.mp ((place.placed a ha).trans (place.placed b hb).symm)
    exact Prod.Lex.toLex_lt_toLex.mpr (.inr ⟨hseq, hab⟩)
  · refine (store.entries.sorted.filter _).imp_of_mem ?_
    intro p q hp hq hpq a ha b hb
    obtain ⟨hpmem, hp⟩ := List.mem_filter.mp hp
    obtain ⟨hqmem, hq⟩ := List.mem_filter.mp hq
    obtain ⟨-, hpauthor, hplane⟩ := of_decide_eq_true hp
    obtain ⟨-, hqauthor, hqlane⟩ := of_decide_eq_true hq
    rw [← p.placed a ha] at hpauthor hplane hpq
    rw [← q.placed b hb] at hqauthor hqlane hpq
    have hauthor : a.author = b.author := hpauthor.trans hqauthor.symm
    have hlane : a.lane = b.lane := hplane.trans hqlane.symm
    exact Prod.Lex.toLex_lt_toLex.mpr (.inl (lt_of_postPlace hpq hauthor hlane))

/-! ## Lanes and forks -/

/-- What a place adds to the author's lanes. -/
def laneOf (author : ByteVector) (place : PostPlace) : Option PostHeadLane :=
  place.held.rows.head?.bind fun first =>
    if (ofLex place.place).1 ≠ author then none
    else some {
      lane := (ofLex (ofLex place.place).2).1, seq := (ofLex (ofLex place.place).2).2, entryHash := first.entryHash }

theorem lanesOf_eq : store.lanesOf author =
    ((store.entries.rows.filterMap (laneOf author)).foldl RowMap.insert ({} : RowMap PostHeadLane.lane)).rows := by
  rw [lanesOf, List.foldl_filterMap]
  congr 2
  funext lanes place
  rw [laneOf]
  cases place.held.rows.head? with
  | none => rfl
  | some first =>
    rw [Option.bind_some]
    dsimp only
    by_cases hauthor : (ofLex place.place).1 ≠ author
    · rw [if_pos hauthor, if_pos hauthor]
    · rw [if_neg hauthor, if_neg hauthor]

theorem selfKeyed : store.log.SelfKeyed := ref_of_log

theorem laneOf_some {top : PostHeadLane} (hplace : place ∈ store.entries.rows) :
    laneOf author place = some top ↔ place.place = postPlace author top.lane top.seq ∧
      (store.log ⟨author, top.lane, top.seq, top.entryHash⟩).isSome ∧
      ∀ {hash}, (store.log ⟨author, top.lane, top.seq, hash⟩).isSome → top.entryHash ≤ hash := by
  have hknown : place.place = postPlace author top.lane top.seq → ∀ hash,
      (store.log ⟨author, top.lane, top.seq, hash⟩).isSome ↔ ∃ entry ∈ place.held.rows, entry.entryHash = hash := by
    intro hat hash
    rw [selfKeyed.isSome_iff]
    constructor
    · intro ⟨entry, hkept, href⟩
      obtain ⟨hauthor, hlane, hseq, hhash⟩ := PostRef.eq_iff.mp href
      exact ⟨entry, (mem_of_place hplace).mpr ⟨hkept, hat ▸ place_eq_iff.mpr ⟨hauthor, hlane, hseq⟩⟩, hhash⟩
    · intro ⟨entry, hmem, hhash⟩
      obtain ⟨hkept, hentry⟩ := (mem_of_place hplace).mp hmem
      obtain ⟨hauthor, hlane, hseq⟩ := place_eq_iff.mp (hentry.trans hat)
      exact ⟨entry, hkept, PostRef.eq_iff.mpr ⟨hauthor, hlane, hseq, hhash⟩⟩
  constructor
  · intro h
    rw [laneOf] at h
    obtain ⟨first, hfirst, h⟩ := Option.bind_eq_some_iff.mp h
    split at h
    · cases h
    next hauthor =>
      obtain rfl := Option.some.inj h
      have hat : place.place = postPlace author (ofLex (ofLex place.place).2).1 (ofLex (ofLex place.place).2).2 := by
        rw [← not_not.mp hauthor]
        rfl
      obtain ⟨hmem, hleast⟩ := (head?_eq_some_iff_least place.held.sorted).mp hfirst
      refine ⟨hat, (hknown hat _).mpr ⟨first, hmem, rfl⟩, ?_⟩
      intro hash hsome
      obtain ⟨entry, hentry, rfl⟩ := (hknown hat hash).mp hsome
      exact hleast entry hentry
  · intro ⟨hat, hsome, hleast⟩
    obtain ⟨first, hmem, hhash⟩ := (hknown hat _).mp hsome
    have hfirst : place.held.rows.head? = some first := by
      refine (head?_eq_some_iff_least place.held.sorted).mpr ⟨hmem, ?_⟩
      intro entry hentry
      rw [hhash]
      exact hleast ((hknown hat entry.entryHash).mpr ⟨entry, hentry, rfl⟩)
    rw [laneOf, hfirst, Option.bind_some, if_neg (by simp [hat, postPlace]), hat, hhash]
    rfl

theorem exists_laneOf {hash : PostHash} (h : (store.log ⟨author, lane, seq, hash⟩).isSome) :
    ∃ place ∈ store.entries.rows, ∃ top, laneOf author place = some top ∧ top.lane = lane ∧ top.seq = seq := by
  obtain ⟨entry, hkept, href⟩ := selfKeyed.isSome_iff.mp h
  obtain ⟨hauthor, hlane, hseq, -⟩ := PostRef.eq_iff.mp href
  obtain ⟨place, hplace, hat, hentry⟩ := exists_place hkept
  have hplaceAt : place.place = postPlace author lane seq := hat.trans (place_eq_iff.mpr ⟨hauthor, hlane, hseq⟩)
  cases hhead : place.held.rows.head? with
  | none =>
    rw [List.head?_eq_none_iff.mp hhead] at hentry
    cases hentry
  | some first =>
    refine ⟨place, hplace, { lane, seq, entryHash := first.entryHash }, ?_, rfl, rfl⟩
    rw [laneOf, hhead, Option.bind_some, hplaceAt]
    exact if_neg (not_not.mpr rfl)

theorem mem_lanesOf {top : PostHeadLane} : top ∈ store.lanesOf author ↔ store.log.IsTop author top := by
  have hgrows : (store.entries.rows.filterMap (laneOf author)).Pairwise fun a b => a.lane = b.lane → a.seq < b.seq := by
    rw [List.pairwise_filterMap]
    refine store.entries.sorted.imp_of_mem ?_
    intro p q hp hq hpq a ha b hb hlane
    obtain ⟨hpat, -⟩ := (laneOf_some hp).mp ha
    obtain ⟨hqat, -⟩ := (laneOf_some hq).mp hb
    rw [hpat, hqat] at hpq
    exact lt_of_postPlace hpq rfl hlane
  have hmem : ∀ {top}, top ∈ store.entries.rows.filterMap (laneOf author) ↔
      (store.log ⟨author, top.lane, top.seq, top.entryHash⟩).isSome ∧
        ∀ {hash}, (store.log ⟨author, top.lane, top.seq, hash⟩).isSome → top.entryHash ≤ hash := by
    intro top
    rw [List.mem_filterMap]
    constructor
    · intro ⟨place, hplace, htop⟩
      exact ((laneOf_some hplace).mp htop).2
    · intro ⟨hsome, hleast⟩
      obtain ⟨entry, hkept, href⟩ := selfKeyed.isSome_iff.mp hsome
      obtain ⟨hauthor, hlane, hseq, -⟩ := PostRef.eq_iff.mp href
      obtain ⟨place, hplace, hat, -⟩ := exists_place hkept
      exact ⟨place, hplace, (laneOf_some hplace).mpr ⟨hat.trans (place_eq_iff.mpr ⟨hauthor, hlane, hseq⟩), hsome, hleast⟩⟩
  rw [lanesOf_eq, RowMap.mem_insertAll_iff hgrows, hmem]
  constructor
  · intro ⟨⟨hsome, hleast⟩, hhighest⟩
    refine ⟨hsome, ?_, hleast⟩
    intro seq hash hother
    obtain ⟨place, hplace, other, htop, hlane, rfl⟩ := exists_laneOf hother
    exact hhighest other (List.mem_filterMap.mpr ⟨place, hplace, htop⟩) hlane
  · intro h
    refine ⟨⟨h.known, h.least⟩, ?_⟩
    intro other hother hlane
    have hknown := (hmem.mp hother).1
    rw [hlane] at hknown
    exact h.highest hknown

theorem lanesOf_sorted : (store.lanesOf author).Pairwise (·.lane < ·.lane) := by
  rw [lanesOf_eq]
  exact RowMap.sorted _

theorem hasFork_iff : store.hasFork author = true ↔ store.log.Forked author := by
  rw [hasFork, List.any_eq_true]
  constructor
  · intro ⟨place, hplace, h⟩
    rw [Bool.and_eq_true, decide_eq_true_eq, decide_eq_true_eq] at h
    obtain ⟨a, ha, b, hb, hne⟩ := (one_lt_length_iff place.held.sorted).mp h.2
    obtain ⟨hakept, haat⟩ := (mem_of_place hplace).mp ha
    obtain ⟨hbkept, hbat⟩ := (mem_of_place hplace).mp hb
    obtain ⟨hauthor, hlane, hseq⟩ := place_eq_iff.mp (haat.trans hbat.symm)
    have haauthor : a.author = author := by rw [← h.1, ← haat]; rfl
    refine ⟨a.ref, b.ref, haauthor, hauthor.symm.trans haauthor, hlane, hseq, hne, ?_, ?_⟩
    · exact Option.isSome_iff_exists.mpr ⟨a, hakept⟩
    · exact Option.isSome_iff_exists.mpr ⟨b, hbkept⟩
  · intro ⟨r, q, hr, hq, hlane, hseq, hne, hrsome, hqsome⟩
    obtain ⟨a, hakept, rfl⟩ := selfKeyed.isSome_iff.mp hrsome
    obtain ⟨b, hbkept, rfl⟩ := selfKeyed.isSome_iff.mp hqsome
    obtain ⟨place, hplace, hat, ha⟩ := exists_place hakept
    have hb : b ∈ place.held.rows := by
      refine (mem_of_place hplace).mpr ⟨hbkept, ?_⟩
      rw [hat]
      exact place_eq_iff.mpr ⟨hq.trans hr.symm, hlane.symm, hseq.symm⟩
    refine ⟨place, hplace, ?_⟩
    rw [Bool.and_eq_true, decide_eq_true_eq, decide_eq_true_eq]
    exact ⟨by rw [hat]; exact hr, (one_lt_length_iff place.held.sorted).mpr ⟨a, ha, b, hb, hne⟩⟩

end InMemoryPostStore

/-! ## In SQLite -/

theorem toInt_toInt64 {a : UInt64} (h : a.toNat < 2 ^ 63) : a.toInt64.toInt = a.toNat := by
  rw [← Int64.toInt_toBitVec, UInt64.toBitVec_toInt64, BitVec.toInt_eq_toNat_of_lt]
  · simp
  · simp only [UInt64.toNat_toBitVec]
    omega

/-- Below `2^63` the signed column orders seqs as they are. -/
theorem toInt64_le_iff {a b : UInt64} (ha : a.toNat < 2 ^ 63) (hb : b.toNat < 2 ^ 63) :
    a.toInt64 ≤ b.toInt64 ↔ a ≤ b := by
  rw [Int64.le_iff_toInt_le, toInt_toInt64 ha, toInt_toInt64 hb, UInt64.le_iff_toNat_le]
  omega

theorem toInt64_lt_iff {a b : UInt64} (ha : a.toNat < 2 ^ 63) (hb : b.toNat < 2 ^ 63) :
    a.toInt64 < b.toInt64 ↔ a < b := by
  rw [lt_iff_not_ge, lt_iff_not_ge]
  exact not_congr (toInt64_le_iff hb ha)

/-- Every seq known fits a signed column. -/
def PostLog.Fits (log : PostLog) : Prop := ∀ {ref}, (log ref).isSome → ref.seq.toNat < 2 ^ 63

namespace SqlitePostStore

variable {store : SqlitePostStore} {entry : StoredPostEntry} {author : ByteVector} {lane : PostLane} {seq : UInt64}
  {r : PostRow}

theorem selfKeyed : store.log.SelfKeyed := by
  intro ref kept h
  obtain ⟨r, hr, rfl⟩ := Option.map_eq_some_iff.mp h
  have hkey : r.primaryKey = keyOf ref := RowMap.key_of_find hr
  exact keyOf_inj hkey

theorem kept_iff : store.log.Kept entry ↔ ∃ r ∈ store.postEntries.rows, entryFromRow r = entry := by
  constructor
  · intro h
    obtain ⟨r, hr, hentry⟩ := Option.map_eq_some_iff.mp h
    exact ⟨r, RowMap.mem_of_find hr, hentry⟩
  · rintro ⟨r, hr, rfl⟩
    refine Option.map_eq_some_iff.mpr ⟨r, ?_, rfl⟩
    rw [keyOf_ref]
    exact RowMap.find_of_mem hr

theorem seq_eq_iff : r.seq = seq.toInt64 ↔ (entryFromRow r).seq = seq :=
  ⟨fun h => congrArg Int64.toUInt64 h, fun h => congrArg UInt64.toInt64 h⟩

theorem mem_at : entry ∈ store.at_ author lane seq ↔
    store.log.Kept entry ∧ entry.author = author ∧ entry.lane = lane ∧ entry.seq = seq := by
  rw [at_, List.mem_map, kept_iff]
  constructor
  · rintro ⟨r, hr, rfl⟩
    obtain ⟨hmem, hp⟩ := List.mem_filter.mp hr
    obtain ⟨hauthor, hlane, hseq⟩ := of_decide_eq_true hp
    exact ⟨⟨r, hmem, rfl⟩, hauthor, hlane, seq_eq_iff.mp hseq⟩
  · rintro ⟨⟨r, hmem, rfl⟩, hauthor, hlane, hseq⟩
    exact ⟨r, List.mem_filter.mpr ⟨hmem, decide_eq_true ⟨hauthor, hlane, seq_eq_iff.mpr hseq⟩⟩, rfl⟩

theorem seq_lt_of_key {a b : PostRow} (h : a.primaryKey < b.primaryKey) (hauthor : a.author = b.author)
    (hlane : a.lane = b.lane) : a.seq < b.seq ∨ a.seq = b.seq ∧ a.entryHash < b.entryHash := by
  simpa [PostRow.primaryKey, PostRow.key, Prod.Lex.toLex_lt_toLex, hauthor, hlane] using h

theorem at_sorted : (store.at_ author lane seq).Pairwise (·.entryHash < ·.entryHash) := by
  rw [at_, List.pairwise_map]
  refine (store.postEntries.sorted.filter _).imp_of_mem ?_
  intro a b ha hb hab
  obtain ⟨haauthor, halane, haseq⟩ := of_decide_eq_true (List.mem_filter.mp ha).2
  obtain ⟨hbauthor, hblane, hbseq⟩ := of_decide_eq_true (List.mem_filter.mp hb).2
  rcases seq_lt_of_key hab (haauthor.trans hbauthor.symm) (halane.trans hblane.symm) with hlt | ⟨-, hlt⟩
  · rw [haseq, hbseq] at hlt
    exact absurd hlt (lt_irrefl _)
  · exact hlt

variable (store) in
def laneFrom (author : ByteVector) (lane : PostLane) (fromSeq : UInt64) : List StoredPostEntry :=
  (store.postEntries.rows.filter fun r => r.author = author ∧ r.lane = lane ∧ fromSeq.toInt64 ≤ r.seq).map entryFromRow

theorem range_eq {limit : Nat} :
    store.range author lane seq limit = (store.laneFrom author lane seq).take (min limit kMaxPostPageEntries) := by
  rw [range, laneFrom, List.map_take]

theorem fits_of_mem (hfits : store.log.Fits) (h : r ∈ store.postEntries.rows) :
    (entryFromRow r).seq.toNat < 2 ^ 63 := by
  have hkept : store.log.Kept (entryFromRow r) := kept_iff.mpr ⟨r, h, rfl⟩
  have hsome : (store.log (entryFromRow r).ref).isSome := Option.isSome_iff_exists.mpr ⟨_, hkept⟩
  exact hfits hsome

theorem mem_laneFrom (hfits : store.log.Fits) (hseq : seq.toNat < 2 ^ 63) : entry ∈ store.laneFrom author lane seq ↔
    store.log.Kept entry ∧ entry.author = author ∧ entry.lane = lane ∧ seq ≤ entry.seq := by
  have hle : ∀ {r}, r ∈ store.postEntries.rows → (seq.toInt64 ≤ r.seq ↔ seq ≤ (entryFromRow r).seq) :=
    fun hr => toInt64_le_iff hseq (fits_of_mem hfits hr)
  rw [laneFrom, List.mem_map, kept_iff]
  constructor
  · rintro ⟨r, hr, rfl⟩
    obtain ⟨hmem, hp⟩ := List.mem_filter.mp hr
    obtain ⟨hauthor, hlane, hfrom⟩ := of_decide_eq_true hp
    exact ⟨⟨r, hmem, rfl⟩, hauthor, hlane, (hle hmem).mp hfrom⟩
  · rintro ⟨⟨r, hmem, rfl⟩, hauthor, hlane, hfrom⟩
    exact ⟨r, List.mem_filter.mpr ⟨hmem, decide_eq_true ⟨hauthor, hlane, (hle hmem).mpr hfrom⟩⟩, rfl⟩

theorem laneFrom_sorted (hfits : store.log.Fits) : (store.laneFrom author lane seq).Pairwise fun a b =>
    toLex (a.seq, a.entryHash) < toLex (b.seq, b.entryHash) := by
  rw [laneFrom, List.pairwise_map]
  refine (store.postEntries.sorted.filter _).imp_of_mem ?_
  intro a b ha hb hab
  obtain ⟨hamem, ha⟩ := List.mem_filter.mp ha
  obtain ⟨hbmem, hb⟩ := List.mem_filter.mp hb
  obtain ⟨haauthor, halane, -⟩ := of_decide_eq_true ha
  obtain ⟨hbauthor, hblane, -⟩ := of_decide_eq_true hb
  rw [Prod.Lex.toLex_lt_toLex]
  rcases seq_lt_of_key hab (haauthor.trans hbauthor.symm) (halane.trans hblane.symm) with hlt | ⟨heq, hlt⟩
  · exact .inl ((toInt64_lt_iff (fits_of_mem hfits hamem) (fits_of_mem hfits hbmem)).mp hlt)
  · exact .inr ⟨congrArg Int64.toUInt64 heq, hlt⟩

/-! ## Lanes and forks -/

variable (store) in
/-- The author's rows. -/
def ofAuthor (author : ByteVector) : List PostRow := store.postEntries.rows.filter (·.author = author)

variable (store) in
/-- The author's rows at the highest seq of their lane. -/
def tops (author : ByteVector) : List PostRow :=
  (store.ofAuthor author).filter fun e => ∀ r ∈ store.ofAuthor author, r.lane = e.lane → r.seq ≤ e.seq

theorem exists_row {hash : PostHash} (h : (store.log ⟨author, lane, seq, hash⟩).isSome) :
    ∃ r ∈ store.ofAuthor author, r.lane = lane ∧ r.seq = seq.toInt64 ∧ r.entryHash = hash := by
  obtain ⟨entry, hkept, href⟩ := selfKeyed.isSome_iff.mp h
  obtain ⟨r, hr, rfl⟩ := kept_iff.mp hkept
  obtain ⟨hauthor, hlane, hseq, hhash⟩ := PostRef.eq_iff.mp href
  exact ⟨r, List.mem_filter.mpr ⟨hr, decide_eq_true hauthor⟩, hlane, seq_eq_iff.mpr hseq, hhash⟩

theorem known_of_row (h : r ∈ store.ofAuthor author) :
    (store.log ⟨author, r.lane, r.seq.toUInt64, r.entryHash⟩).isSome := by
  obtain ⟨hmem, hauthor⟩ := List.mem_filter.mp h
  obtain rfl := of_decide_eq_true hauthor
  exact Option.isSome_iff_exists.mpr ⟨entryFromRow r, kept_iff.mpr ⟨r, hmem, rfl⟩⟩

theorem mem_tops : r ∈ store.tops author ↔
    r ∈ store.ofAuthor author ∧ ∀ r' ∈ store.ofAuthor author, r'.lane = r.lane → r'.seq ≤ r.seq := by
  rw [tops, List.mem_filter, decide_eq_true_eq]

/-- The lane of a group, its seq and its least hash. -/
def topOf (group : List PostRow) (lane : PostLane) : Option PostHeadLane :=
  match group.head?, (group.map (·.entryHash)).min? with
  | some e, some entryHash => some { lane, seq := e.seq.toUInt64, entryHash }
  | _, _ => none

theorem lanesOf_eq : store.lanesOf author = ((store.tops author).map (·.lane)).dedup.filterMap fun lane =>
    topOf ((store.tops author).filter (·.lane = lane)) lane := rfl

theorem topOf_some {group : List PostRow} {top : PostHeadLane} : topOf group lane = some top ↔
    top.lane = lane ∧ (∃ e, group.head? = some e ∧ top.seq = e.seq.toUInt64) ∧
      (group.map (·.entryHash)).min? = some top.entryHash := by
  rw [topOf]
  constructor
  · intro h
    split at h
    next e hash hhead hmin =>
      obtain rfl := Option.some.inj h
      exact ⟨rfl, ⟨e, hhead, rfl⟩, hmin⟩
    · cases h
  · rintro ⟨rfl, ⟨e, hhead, hseq⟩, hmin⟩
    rw [hhead, hmin]
    simp [← hseq]

theorem row_le_iff (hfits : store.log.Fits) {r' : PostRow} (hr : r ∈ store.ofAuthor author)
    (hr' : r' ∈ store.ofAuthor author) : r.seq.toUInt64 ≤ r'.seq.toUInt64 ↔ r.seq ≤ r'.seq :=
  (toInt64_le_iff (fits_of_mem hfits (List.mem_filter.mp hr).1) (fits_of_mem hfits (List.mem_filter.mp hr').1)).symm

/-- A row of a group whose hash none of its seq is below is its lane's top. -/
theorem isTop_of_group (hfits : store.log.Fits) {e : PostRow} (he : e ∈ store.tops author) {hash : PostHash}
    (hhash : ∃ r ∈ store.tops author, r.lane = e.lane ∧ r.entryHash = hash)
    (hleast : ∀ r ∈ store.tops author, r.lane = e.lane → hash ≤ r.entryHash) :
    store.log.IsTop author { lane := e.lane, seq := e.seq.toUInt64, entryHash := hash } := by
  obtain ⟨hemem, hetop⟩ := mem_tops.mp he
  constructor
  case known =>
    obtain ⟨r, hr, hlane, rfl⟩ := hhash
    obtain ⟨hrmem, hrtop⟩ := mem_tops.mp hr
    have hseq : r.seq = e.seq := le_antisymm (hetop r hrmem hlane) (hrtop e hemem hlane.symm)
    have hknown := known_of_row hrmem
    rw [hlane, hseq] at hknown
    exact hknown
  case highest =>
    intro seq hash hknown
    obtain ⟨r, hr, hlane, hseq, -⟩ := exists_row hknown
    have hle := (row_le_iff hfits hr hemem).mpr (hetop r hr hlane)
    rw [hseq] at hle
    exact hle
  case least =>
    intro hash' hknown
    obtain ⟨r, hr, hlane, hseq, rfl⟩ := exists_row hknown
    have hsame : r.seq = e.seq := hseq
    refine hleast r (mem_tops.mpr ⟨hr, ?_⟩) hlane
    intro r' hr' hlane'
    rw [hsame]
    exact hetop r' hr' (hlane'.trans hlane)

theorem mem_lanesOf (hfits : store.log.Fits) {top : PostHeadLane} :
    top ∈ store.lanesOf author ↔ store.log.IsTop author top := by
  rw [lanesOf_eq, List.mem_filterMap]
  constructor
  · rintro ⟨lane, -, htop⟩
    obtain ⟨hlane, ⟨e, hhead, hseq⟩, hmin⟩ := topOf_some.mp htop
    obtain ⟨hhash, hleast⟩ := List.min?_eq_some_iff.mp hmin
    obtain ⟨hetop, helane⟩ := List.mem_filter.mp (List.mem_of_head? hhead)
    have helane : e.lane = lane := of_decide_eq_true helane
    have hgroup : ∀ {r}, r ∈ (store.tops author).filter (·.lane = lane) ↔ r ∈ store.tops author ∧ r.lane = e.lane := by
      intro r
      rw [List.mem_filter, decide_eq_true_eq, helane]
    have hisTop : store.log.IsTop author { lane := e.lane, seq := e.seq.toUInt64, entryHash := top.entryHash } := by
      refine isTop_of_group hfits hetop ?_ ?_
      · obtain ⟨r, hr, hrhash⟩ := List.mem_map.mp hhash
        exact ⟨r, (hgroup.mp hr).1, (hgroup.mp hr).2, hrhash⟩
      · intro r hr hrlane
        exact hleast r.entryHash (List.mem_map.mpr ⟨r, hgroup.mpr ⟨hr, hrlane⟩, rfl⟩)
    rw [helane, ← hlane, ← hseq] at hisTop
    exact hisTop
  · intro h
    obtain ⟨r, hr, hlane, hseq, hhash⟩ := exists_row h.known
    have hrtop : r ∈ store.tops author := by
      refine mem_tops.mpr ⟨hr, ?_⟩
      intro r' hr' hlane'
      have hknown := known_of_row hr'
      rw [hlane', hlane] at hknown
      have hle := h.highest hknown
      have hrseq : r.seq.toUInt64 = top.seq := congrArg Int64.toUInt64 hseq
      rw [← hrseq] at hle
      exact (row_le_iff hfits hr' hr).mp hle
    have hgroup : ∀ {r'}, r' ∈ (store.tops author).filter (·.lane = top.lane) ↔
        r' ∈ store.tops author ∧ r'.lane = top.lane := by
      intro r'
      rw [List.mem_filter, decide_eq_true_eq]
    have hsame : ∀ r' ∈ (store.tops author).filter (·.lane = top.lane), r'.seq = r.seq := by
      intro r' hr'
      obtain ⟨hrtop', hrlane'⟩ := hgroup.mp hr'
      obtain ⟨hrmem', hrbound'⟩ := mem_tops.mp hrtop'
      exact le_antisymm ((mem_tops.mp hrtop).2 r' hrmem' (hrlane'.trans hlane.symm))
        (hrbound' r hr (hlane.trans hrlane'.symm))
    refine ⟨top.lane, List.mem_dedup.mpr (List.mem_map.mpr ⟨r, hrtop, hlane⟩), topOf_some.mpr ⟨rfl, ?_, ?_⟩⟩
    · cases hhead : ((store.tops author).filter (·.lane = top.lane)).head? with
      | none =>
        have hmem := hgroup.mpr ⟨hrtop, hlane⟩
        rw [List.head?_eq_none_iff.mp hhead] at hmem
        cases hmem
      | some e =>
        refine ⟨e, rfl, ?_⟩
        rw [hsame e (List.mem_of_head? hhead), hseq]
        rfl
    · refine List.min?_eq_some_iff.mpr ⟨List.mem_map.mpr ⟨r, hgroup.mpr ⟨hrtop, hlane⟩, hhash⟩, ?_⟩
      intro hash hmem
      obtain ⟨r', hr', rfl⟩ := List.mem_map.mp hmem
      have hknown := known_of_row (mem_tops.mp (hgroup.mp hr').1).1
      rw [(hgroup.mp hr').2, hsame r' hr', hseq] at hknown
      exact h.least hknown

theorem lane_le_of_key {a b : PostRow} (h : a.primaryKey < b.primaryKey) (hauthor : a.author = b.author) :
    a.lane ≤ b.lane := by
  have hkey : a.lane < b.lane ∨ a.lane = b.lane ∧ (a.seq < b.seq ∨ a.seq = b.seq ∧ a.entryHash < b.entryHash) := by
    simpa [PostRow.primaryKey, PostRow.key, Prod.Lex.toLex_lt_toLex, hauthor] using h
  rcases hkey with hlt | ⟨heq, -⟩
  · exact le_of_lt hlt
  · exact le_of_eq heq

theorem lanesOf_sorted : (store.lanesOf author).Pairwise (·.lane < ·.lane) := by
  have hle : ((store.tops author).map (·.lane)).Pairwise (· ≤ ·) := by
    rw [List.pairwise_map]
    have hrows := (store.postEntries.sorted.filter (·.author = author)).filter fun e =>
      ∀ r ∈ store.ofAuthor author, r.lane = e.lane → r.seq ≤ e.seq
    refine hrows.imp_of_mem ?_
    intro a b ha hb hab
    have haauthor := of_decide_eq_true (List.mem_filter.mp (List.mem_filter.mp ha).1).2
    have hbauthor := of_decide_eq_true (List.mem_filter.mp (List.mem_filter.mp hb).1).2
    exact lane_le_of_key hab (haauthor.trans hbauthor.symm)
  have hlt : ((store.tops author).map (·.lane)).dedup.Pairwise (· < ·) := by
    have hsub := hle.sublist (List.dedup_sublist _)
    exact (hsub.and (List.nodup_dedup _)).imp fun h => lt_of_le_of_ne h.1 h.2
  rw [lanesOf_eq, List.pairwise_filterMap]
  refine hlt.imp ?_
  intro a b hab x hx y hy
  rw [(topOf_some.mp hx).1, (topOf_some.mp hy).1]
  exact hab

theorem hasFork_iff : store.hasFork author = true ↔ store.log.Forked author := by
  have hsorted : ∀ e : PostRow, ((store.ofAuthor author).filter fun r => r.lane = e.lane ∧ r.seq = e.seq).Pairwise
      (·.entryHash < ·.entryHash) := by
    intro e
    refine ((store.postEntries.sorted.filter _).filter _).imp_of_mem ?_
    intro a b ha hb hab
    obtain ⟨ha, haat⟩ := List.mem_filter.mp ha
    obtain ⟨hb, hbat⟩ := List.mem_filter.mp hb
    obtain ⟨halane, haseq⟩ := of_decide_eq_true haat
    obtain ⟨hblane, hbseq⟩ := of_decide_eq_true hbat
    have hauthor := (of_decide_eq_true (List.mem_filter.mp ha).2).trans (of_decide_eq_true (List.mem_filter.mp hb).2).symm
    rcases seq_lt_of_key hab hauthor (halane.trans hblane.symm) with hlt | ⟨-, hlt⟩
    · rw [haseq, hbseq] at hlt
      exact absurd hlt (lt_irrefl _)
    · exact hlt
  have hany : store.hasFork author = (store.ofAuthor author).any fun e =>
      1 < ((store.ofAuthor author).filter fun r => r.lane = e.lane ∧ r.seq = e.seq).length := rfl
  rw [hany, List.any_eq_true]
  constructor
  · rintro ⟨e, -, h⟩
    obtain ⟨a, ha, b, hb, hne⟩ := (one_lt_length_iff (hsorted e)).mp (of_decide_eq_true h)
    obtain ⟨hamem, haat⟩ := List.mem_filter.mp ha
    obtain ⟨hbmem, hbat⟩ := List.mem_filter.mp hb
    obtain ⟨halane, haseq⟩ := of_decide_eq_true haat
    obtain ⟨hblane, hbseq⟩ := of_decide_eq_true hbat
    have hseq : a.seq.toUInt64 = b.seq.toUInt64 := congrArg Int64.toUInt64 (haseq.trans hbseq.symm)
    exact ⟨_, _, rfl, rfl, halane.trans hblane.symm, hseq, hne, known_of_row hamem, known_of_row hbmem⟩
  · intro ⟨p, q, hp, hq, hlane, hseq, hne, hpsome, hqsome⟩
    obtain ⟨pauthor, plane, pseq, phash⟩ := p
    obtain ⟨qauthor, qlane, qseq, qhash⟩ := q
    obtain rfl : pauthor = author := hp
    obtain rfl : qauthor = pauthor := hq
    obtain ⟨a, ha, halane, haseq, hahash⟩ := exists_row hpsome
    obtain ⟨b, hb, hblane, hbseq, hbhash⟩ := exists_row hqsome
    have hba : b.lane = a.lane ∧ b.seq = a.seq :=
      ⟨hblane.trans (hlane.symm.trans halane.symm), hbseq.trans ((congrArg UInt64.toInt64 hseq.symm).trans haseq.symm)⟩
    refine ⟨a, ha, decide_eq_true ((one_lt_length_iff (hsorted a)).mpr ⟨a, ?_, b, ?_, ?_⟩)⟩
    · exact List.mem_filter.mpr ⟨ha, decide_eq_true ⟨rfl, rfl⟩⟩
    · exact List.mem_filter.mpr ⟨hb, decide_eq_true hba⟩
    · rw [hahash, hbhash]
      exact hne

end SqlitePostStore

end Pbr
