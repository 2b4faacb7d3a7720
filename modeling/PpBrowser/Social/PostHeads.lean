import Mathlib.Data.Set.Finite.List
import Mathlib.Order.Preorder.Finite
import PpBrowser.Social.PostAuthor
import PpBrowser.Social.PostStoreRun

/-!
# PostHeads — the head an author keeps

`PostAuthor::IssueHead` over a store that keeps an author's newest head. An
entry's claimed time never goes back within its lane, but a head takes the
clock as it is, and the store keeps one only when it is newer.
-/

namespace Pbr

open Lib

/-! ## The store underneath -/

/-- A store of posts with the lanes it shows and the head it keeps. -/
structure IPostHeadStore extends IPostStore where
  lanesOf : State → ByteVector → List PostHeadLane
  /-- The head kept of an account, with its time. -/
  headRow : State → ByteVector → Option (Int64 × SignedPostHead)
  /-- The columns hold the head; else `PutHead` is an error. -/
  holdsHead : SignedPostHead → Bool
  mem_lanesOf : ∀ {store author top}, PostLog.Fits (log store) →
    (top ∈ lanesOf store author ↔ (log store).IsTop author top)
  headRow_empty : ∀ account, headRow empty account = none
  headRow_put : ∀ store head parsed account, headRow (step store (.putHead head parsed)) account =
    if holdsHead head ∧ parsed.author = account ∧ (headRow store account).all (·.1 < parsed.issuedAt) then
      some (parsed.issuedAt, head)
    else headRow store account
  headRow_keep : ∀ store op account, (∀ head parsed, op ≠ .putHead head parsed) →
    headRow (step store op) account = headRow store account

theorem InMemoryPostStore.heads_put {store : InMemoryPostStore} {head : SignedPostHead} {parsed : PostHead}
    {account : ByteVector} : (store.putHead head parsed).heads account =
      if parsed.author = account ∧ (store.heads account).all (·.1 < parsed.issuedAt) then
        some (parsed.issuedAt, head) else store.heads account := by
  by_cases haccount : parsed.author = account
  · subst haccount
    rw [putHead]
    cases hrow : store.heads parsed.author with
    | none => simp
    | some row =>
      by_cases hnewer : row.1 < parsed.issuedAt
      · simp [hnewer]
      · simp [hnewer, hrow]
  · rw [if_neg fun h => haccount h.1, putHead]
    split
    · split
      · exact Function.update_of_ne (Ne.symm haccount) _ _
      · rfl
    · exact Function.update_of_ne (Ne.symm haccount) _ _

theorem SqlitePostStore.postHeads_put {store : SqlitePostStore} {head : SignedPostHead} {parsed : PostHead}
    {account : ByteVector} : (store.putHead head parsed).postHeads account =
      if (bindBlob head.canonical).isSome ∧ (bindBlob head.signature).isSome ∧ parsed.author = account ∧
          (store.postHeads account).all (·.1 < parsed.issuedAt) then some (parsed.issuedAt, head)
      else store.postHeads account := by
  rw [putHead]
  by_cases hbound : bindBlob head.canonical = none ∨ bindBlob head.signature = none
  · rw [if_pos hbound, if_neg]
    rintro ⟨hcanonical, hsignature, -⟩
    rcases hbound with h | h
    · rw [h] at hcanonical
      cases hcanonical
    · rw [h] at hsignature
      cases hsignature
  · rw [if_neg hbound]
    obtain ⟨hcanonical, hsignature⟩ := not_or.mp hbound
    rw [← Ne, ← Option.isSome_iff_ne_none] at hcanonical hsignature
    by_cases haccount : parsed.author = account
    · subst haccount
      cases hrow : store.postHeads parsed.author with
      | none => simp [hcanonical, hsignature]
      | some row =>
        by_cases hnewer : row.1 < parsed.issuedAt
        · simp [hcanonical, hsignature, hnewer]
        · simp [hnewer, hrow]
    · rw [if_neg fun h => haccount h.2.2.1]
      split
      · split
        · exact Function.update_of_ne (Ne.symm haccount) _ _
        · rfl
      · exact Function.update_of_ne (Ne.symm haccount) _ _

theorem InMemoryPostStore.heads_keep {store : InMemoryPostStore} {op : PostStoreOp}
    (h : ∀ head parsed, op ≠ .putHead head parsed) : (store.step op).heads = store.heads := by
  cases op with
  | addStub row =>
    simp only [step, addStub]
    split
    · split <;> rfl
    · rfl
  | stubOut author lane seq entryHash why =>
    simp only [step, stubOut]
    split <;> rfl
  | putHead head parsed => exact absurd rfl (h head parsed)
  | putOwnLane lane => rfl

theorem SqlitePostStore.postHeads_keep {store : SqlitePostStore} {op : PostStoreOp}
    (h : ∀ head parsed, op ≠ .putHead head parsed) : (store.step op).postHeads = store.postHeads := by
  cases op with
  | addStub row =>
    simp only [step, addStub]
    split
    · split <;> rfl
    · rfl
  | stubOut author lane seq entryHash why =>
    simp only [step, stubOut]
    split <;> rfl
  | putHead head parsed => exact absurd rfl (h head parsed)
  | putOwnLane lane => rfl

namespace IPostHeadStore

def inMemory : IPostHeadStore where
  toIPostStore := .inMemory
  lanesOf := InMemoryPostStore.lanesOf
  headRow := InMemoryPostStore.heads
  holdsHead _ := true
  mem_lanesOf _ := InMemoryPostStore.mem_lanesOf
  headRow_empty _ := rfl
  headRow_put _ _ _ _ := InMemoryPostStore.heads_put.trans (by simp)
  headRow_keep _ _ account h := congrFun (InMemoryPostStore.heads_keep h) account

def sqlite : IPostHeadStore where
  toIPostStore := .sqlite
  lanesOf := SqlitePostStore.lanesOf
  headRow := SqlitePostStore.postHeads
  holdsHead head := (bindBlob head.canonical).isSome && (bindBlob head.signature).isSome
  mem_lanesOf h := SqlitePostStore.mem_lanesOf h
  headRow_empty _ := rfl
  headRow_put _ _ _ _ := SqlitePostStore.postHeads_put.trans (by simp [and_assoc])
  headRow_keep _ _ account h := congrFun (SqlitePostStore.postHeads_keep h) account

def head (posts : IPostHeadStore) (store : posts.State) (account : ByteVector) : Option SignedPostHead :=
  (posts.headRow store account).map (·.2)

end IPostHeadStore

/-! ## The author -/

/-- Which call of the store fails, with its error text. -/
inductive PostHeadFault where
  | none
  | lanesOf (text : String)
  | putHead (text : String)
  deriving DecidableEq

namespace PostAuthor

variable (posts : IPostHeadStore) (author : PostAuthor)

/-- The head of the account's lanes as the store shows them. -/
def headOf (store : posts.State) (nowMs : Int64) (targets : List ByteVector) : PostHead where
  author := author.accountId
  issuedAt := nowMs
  lanes := posts.lanesOf store author.accountId
  targets

def signHead (store : posts.State) (nowMs : Int64) (targets : List ByteVector) (fault : PostHeadFault) :
    Roe SignedPostHead :=
  match fault with
  | .lanesOf text => .error text
  | _ => do
    let head := author.headOf posts store nowMs targets
    -- a head names every lane or it lets a carrier hide one
    refuseIf (head.lanes.length > kMaxPostHeadLanes) "post: more lanes than a head can name"
    Posts.signPostHead head author.signer

/-- `IssueHead`: the store after it, and its answer. -/
def issueHead (store : posts.State) (nowMs : Int64) (targets : List ByteVector) (fault : PostHeadFault) :
    posts.State × Roe SignedPostHead :=
  match author.signHead posts store nowMs targets fault with
  | .error text => (store, .error text)
  | .ok signed =>
    match fault with
    | .putHead text => (store, .error text)
    | _ =>
      if posts.holdsHead signed then
        (posts.step store (.putHead signed (author.headOf posts store nowMs targets)), .ok signed)
      else (store, .error "Failed to write head")

end PostAuthor

/-! ## Runs -/

/-- A call on the store, by any author. -/
inductive PostWriteOp where
  | append (author : PostAuthor) (kind : PostKind) (body : ByteVector) (nowMs : Int64) (drawn : PostLane)
      (fault : PostFault)
  | issueHead (author : PostAuthor) (nowMs : Int64) (targets : List ByteVector) (fault : PostHeadFault)

namespace PostHeads

variable (posts : IPostHeadStore) (crypto : PostCrypto)

def step (store : posts.State) : PostWriteOp → posts.State
  | .append author kind body nowMs drawn fault =>
    (author.append posts.toIPostStore crypto store kind body nowMs drawn fault).1
  | .issueHead author nowMs targets fault => (author.issueHead posts store nowMs targets fault).1

/-- The store after a run of calls from an empty one. -/
def run (ops : List PostWriteOp) : posts.State := ops.foldl (step posts crypto) posts.empty

/-- The head names every lane of the account at its newest seq. -/
structure NamesAll (log : PostLog) (account : ByteVector) (lanes : List PostHeadLane) : Prop where
  every : ∀ lane seq hash, (log ⟨account, lane, seq, hash⟩).isSome →
    ∃ named ∈ lanes, named.lane = lane ∧ seq ≤ named.seq
  newest : ∀ named ∈ lanes, log.IsTop account named

/-- An issue of a head that succeeds where the run `before` has led. -/
def Issues (before : List PostWriteOp) (author : PostAuthor) (nowMs : Int64) (targets : List ByteVector)
    (fault : PostHeadFault) (signed : SignedPostHead) : Prop :=
  (author.issueHead posts (run posts crypto before) nowMs targets fault).2 = .ok signed

/-- What is claimed of the heads of a run. -/
structure HeadsKept (ops : List PostWriteOp) : Prop where
  /-- The head just issued is the one kept. -/
  kept : ∀ before author nowMs targets fault after signed,
    ops = before ++ .issueHead author nowMs targets fault :: after →
    Issues posts crypto before author nowMs targets fault signed →
      posts.head (run posts crypto (before ++ [.issueHead author nowMs targets fault])) author.accountId = some signed
  /-- It is the signed bytes of a head that names every lane. -/
  named : ∀ before author nowMs targets fault after signed,
    ops = before ++ .issueHead author nowMs targets fault :: after →
    Issues posts crypto before author nowMs targets fault signed →
      signed.canonical = Posts.postHeadCanonicalBytes (author.headOf posts (run posts crypto before) nowMs targets) ∧
        NamesAll (posts.log (run posts crypto (before ++ [.issueHead author nowMs targets fault])))
          author.accountId (author.headOf posts (run posts crypto before) nowMs targets).lanes
  /-- One issued later names no fewer lanes and no lower seq. -/
  grows : ∀ before mid after nowMs targets nowMs' targets' (author author' : PostAuthor),
    ops = before ++ mid ++ after → author'.accountId = author.accountId →
      ∀ named ∈ (author.headOf posts (run posts crypto before) nowMs targets).lanes,
        ∃ named' ∈ (author'.headOf posts (run posts crypto (before ++ mid)) nowMs' targets').lanes,
          named'.lane = named.lane ∧ named.seq ≤ named'.seq
  /-- Two kept heads of one time are the same. -/
  distinct : ∀ before mid after account row row', ops = before ++ mid ++ after →
    posts.headRow (run posts crypto before) account = some row →
    posts.headRow (run posts crypto (before ++ mid)) account = some row' → row.1 = row'.1 → row = row'

/-- Each head is issued past the time of the one kept. -/
def ClockGoesOn (ops : List PostWriteOp) : Prop :=
  ∀ before author nowMs targets fault after, ops = before ++ .issueHead author nowMs targets fault :: after →
    ∀ row, posts.headRow (run posts crypto before) author.accountId = some row → row.1 < nowMs

variable {posts crypto} {ops before mid after : List PostWriteOp} {op : PostWriteOp} {store : posts.State}
  {account : ByteVector} {author : PostAuthor} {nowMs : Int64} {targets : List ByteVector} {fault : PostHeadFault}
  {signed : SignedPostHead} {row row' : Int64 × SignedPostHead} {n : Nat} {body : ByteVector}

/-! ## One call -/

/-- What an append does to the store: nothing, or an entry and perhaps its
record. -/
theorem append_cases {kind : PostKind} {drawn : PostLane} {fault : PostFault} :
    (author.append posts.toIPostStore crypto store kind body nowMs drawn fault).1 = store ∨
    ∃ own entry signed, author.draft posts.toIPostStore store kind body nowMs drawn fault = .ok (own, entry, signed) ∧
      ((author.append posts.toIPostStore crypto store kind body nowMs drawn fault).1 =
          posts.step store (.addStub (postEntryRow signed entry (Posts.postEntryHash crypto signed.canonical))) ∨
        (author.append posts.toIPostStore crypto store kind body nowMs drawn fault).1 = posts.step
            (posts.step store (.addStub (postEntryRow signed entry (Posts.postEntryHash crypto signed.canonical))))
            (.putOwnLane (PostAuthor.advanced own entry (Posts.postEntryHash crypto signed.canonical)))) := by
  rw [PostAuthor.append]
  cases hdraft : author.draft posts.toIPostStore store kind body nowMs drawn fault with
  | error text => exact .inl rfl
  | ok drafted =>
    obtain ⟨own, entry, signed⟩ := drafted
    cases fault with
    | addEntry text => exact .inl rfl
    | stopped | putOwnLane text => exact .inr ⟨own, entry, signed, rfl, .inl rfl⟩
    | none | ownLane text | at_ text => exact .inr ⟨own, entry, signed, rfl, .inr rfl⟩

theorem issueHead_cases : (author.issueHead posts store nowMs targets fault).1 = store ∨
    ∃ signed, (author.issueHead posts store nowMs targets fault).1 =
      posts.step store (.putHead signed (author.headOf posts store nowMs targets)) := by
  rw [PostAuthor.issueHead]
  cases author.signHead posts store nowMs targets fault with
  | error text => exact .inl rfl
  | ok signed =>
    cases fault with
    | putHead text => exact .inl rfl
    | none | lanesOf text =>
      dsimp only
      split
      · exact .inr ⟨signed, rfl⟩
      · exact .inl rfl

theorem signHead_ok (h : author.signHead posts store nowMs targets fault = .ok signed) :
    signed.canonical = Posts.postHeadCanonicalBytes (author.headOf posts store nowMs targets) := by
  cases fault with
  | lanesOf text => cases h
  | none | putHead text =>
    obtain ⟨-, hsigned⟩ := refuseIf_bind_ok.mp h
    exact (Posts.signPostHead_ok hsigned).2.2.1

/-- An issue that succeeds has signed the head of the lanes and put it. -/
theorem issueHead_ok (h : (author.issueHead posts store nowMs targets fault).2 = .ok signed) :
    posts.holdsHead signed ∧ signed.canonical = Posts.postHeadCanonicalBytes (author.headOf posts store nowMs targets) ∧
      (author.issueHead posts store nowMs targets fault).1 =
        posts.step store (.putHead signed (author.headOf posts store nowMs targets)) := by
  rw [PostAuthor.issueHead] at h ⊢
  cases hsign : author.signHead posts store nowMs targets fault with
  | error text =>
    rw [hsign] at h
    cases h
  | ok made =>
    rw [hsign] at h
    have hcanonical := signHead_ok hsign
    cases fault with
    | putHead text => cases h
    | none =>
      dsimp only at h ⊢
      split at h
      · next hholds =>
        obtain rfl := Except.ok.inj h
        exact ⟨hholds, hcanonical, by rw [if_pos hholds]⟩
      · cases h
    | lanesOf text => cases hsign

theorem log_putHead {head : SignedPostHead} {parsed : PostHead} :
    posts.log (posts.step store (.putHead head parsed)) = posts.log store := by
  rw [posts.log_step]
  rfl

theorem log_putOwnLane {lane : OwnPostLane} : posts.log (posts.step store (.putOwnLane lane)) = posts.log store := by
  rw [posts.log_step]
  rfl

theorem step_isSome {ref : PostRef} (h : (posts.log store ref).isSome) :
    (posts.log (step posts crypto store op) ref).isSome := by
  have hstep : ∀ {store : posts.State} {op}, (posts.log store ref).isSome → (posts.log (posts.step store op) ref).isSome := by
    intro store op h
    rw [posts.log_step]
    exact PostLog.step_isSome h
  cases op with
  | append author kind body nowMs drawn fault =>
    rw [step]
    rcases append_cases with heq | ⟨own, entry, signed, -, heq | heq⟩
    · rw [heq]
      exact h
    · rw [heq]
      exact hstep h
    · rw [heq]
      exact hstep (hstep h)
  | issueHead author nowMs targets fault =>
    rw [step]
    rcases issueHead_cases with heq | ⟨signed, heq⟩
    · rw [heq]
      exact h
    · rw [heq]
      exact hstep h

theorem headRow_append {kind : PostKind} {drawn : PostLane} {fault : PostFault} :
    posts.headRow (step posts crypto store (.append author kind body nowMs drawn fault)) account =
      posts.headRow store account := by
  rw [step]
  rcases append_cases with heq | ⟨own, entry, signed, -, heq | heq⟩
  · rw [heq]
  · rw [heq, posts.headRow_keep _ _ _ (by simp)]
  · rw [heq, posts.headRow_keep _ _ _ (by simp), posts.headRow_keep _ _ _ (by simp)]

theorem headRow_step (h : posts.headRow store account = some row) :
    ∃ row', posts.headRow (step posts crypto store op) account = some row' ∧ (row' = row ∨ row.1 < row'.1) := by
  cases op with
  | append author kind body nowMs drawn fault => exact ⟨row, headRow_append.trans h, .inl rfl⟩
  | issueHead author nowMs targets fault =>
    rw [step]
    rcases issueHead_cases with heq | ⟨signed, heq⟩
    · rw [heq]
      exact ⟨row, h, .inl rfl⟩
    · rw [heq, posts.headRow_put, h]
      split
      · next hput =>
        refine ⟨_, rfl, .inr ?_⟩
        simpa using hput.2.2
      · exact ⟨row, rfl, .inl rfl⟩

/-- After an issue that succeeds the store keeps that head exactly when it is
newer than the one kept, or is the same. -/
theorem head_issueHead (h : (author.issueHead posts store nowMs targets fault).2 = .ok signed) :
    posts.head (author.issueHead posts store nowMs targets fault).1 author.accountId = some signed ↔
      ∀ row, posts.headRow store author.accountId = some row → row.1 < nowMs ∨ row.2 = signed := by
  obtain ⟨hholds, -, heq⟩ := issueHead_ok h
  rw [heq, IPostHeadStore.head, posts.headRow_put]
  cases hrow : posts.headRow store author.accountId with
  | none => simp [hholds, PostAuthor.headOf]
  | some row =>
    by_cases hnewer : row.1 < nowMs
    · simp [hholds, PostAuthor.headOf, hnewer]
    · simp [hholds, PostAuthor.headOf, hnewer]

/-! ## The newest of a lane -/

theorem finite_hashes : Finite PostHash := by
  have hbytes : Finite UInt8 := Finite.of_injective UInt8.toFin fun a b h => UInt8.toFin_inj.mp h
  exact (List.finite_length_eq UInt8 kPostHashBytes).to_subtype

theorem exists_top {log : PostLog} {lane : PostLane} {seq : UInt64} {hash : PostHash}
    (h : (log ⟨account, lane, seq, hash⟩).isSome) :
    ∃ top, log.IsTop account top ∧ top.lane = lane ∧ seq ≤ top.seq := by
  have hseqs : Finite UInt64 := Finite.of_injective UInt64.toFin fun a b h => UInt64.toFin_inj.mp h
  have hhashes := finite_hashes
  obtain ⟨newest, ⟨at_, hat⟩, hnewest⟩ := Set.Finite.exists_maximal (s := {s | log.Holds account lane s})
    (Set.toFinite _) ⟨seq, hash, h⟩
  obtain ⟨least, hleast, hbelow⟩ := Set.Finite.exists_minimal (s := {a | (log ⟨account, lane, newest, a⟩).isSome})
    (Set.toFinite _) ⟨at_, hat⟩
  have hhighest : ∀ {s a}, (log ⟨account, lane, s, a⟩).isSome → s ≤ newest := by
    intro s a hs
    rcases le_total s newest with hle | hle
    · exact hle
    · exact hnewest ⟨a, hs⟩ hle
  refine ⟨⟨lane, newest, least⟩, ⟨hleast, hhighest, ?_⟩, rfl, hhighest h⟩
  intro a ha
  rcases le_total least a with hle | hle
  · exact hle
  · exact hbelow ha hle

/-! ## Seqs of a run -/

/-- No seq is past the calls made. -/
structure Within (posts : IPostHeadStore) (n : Nat) (store : posts.State) : Prop where
  seqs : ∀ ref, (posts.log store ref).isSome → ref.seq.toNat ≤ n
  records : ∀ device own, posts.ownLane store device = some own → own.nextSeq.toNat ≤ n + 1

theorem Within.mono {m : Nat} (h : Within posts n store) (hle : n ≤ m) : Within posts m store where
  seqs ref href := le_trans (h.seqs ref href) hle
  records device own hown := le_trans (h.records device own hown) (Nat.succ_le_succ hle)

theorem within_empty : Within posts 0 posts.empty where
  seqs := by
    intro ref href
    rw [posts.log_empty] at href
    cases href
  records := by
    intro device own hown
    rw [posts.ownLane_empty] at hown
    cases hown

theorem Within.addStub {entry : StoredPostEntry} (h : Within posts n store) (hseq : entry.seq.toNat ≤ n + 1) :
    Within posts (n + 1) (posts.step store (.addStub entry)) where
  seqs := by
    intro ref href
    rw [posts.log_step, PostLog.step, PostLog.addStub_isSome] at href
    rcases href with href | rfl
    · exact le_trans (h.seqs ref href) (Nat.le_succ n)
    · exact hseq
  records := by
    intro device own hown
    rw [posts.ownLane_keep _ _ _ (by simp)] at hown
    exact (h.mono (Nat.le_succ n)).records device own hown

theorem Within.putOwnLane {lane : OwnPostLane} (h : Within posts n store) (hseq : lane.nextSeq.toNat ≤ n + 1) :
    Within posts n (posts.step store (.putOwnLane lane)) where
  seqs := by
    intro ref href
    rw [log_putOwnLane] at href
    exact h.seqs ref href
  records := by
    intro device own hown
    rw [posts.ownLane_put] at hown
    split at hown
    · rw [← Option.some.inj hown]
      exact hseq
    · exact h.records device own hown

theorem Within.step (h : Within posts n store) : Within posts (n + 1) (step posts crypto store op) := by
  cases op with
  | append author kind body nowMs drawn fault =>
    rw [PostHeads.step]
    rcases append_cases with heq | ⟨own, entry, signed, hdraft, heq⟩
    · rw [heq]
      exact h.mono (Nat.le_succ n)
    obtain ⟨hlane, rfl, -⟩ := PostAuthor.draft_ok hdraft
    have hnext : own.nextSeq.toNat ≤ n + 1 := by
      rcases PostAuthor.currentLane_ok hlane with ⟨hown, -⟩ | ⟨rfl, -⟩
      · exact h.records _ _ hown
      · exact Nat.succ_le_succ (Nat.zero_le n)
    have hadded := @Within.addStub _ _ _ (postEntryRow signed (author.nextEntry own kind body nowMs)
      (Posts.postEntryHash crypto signed.canonical)) h hnext
    rcases heq with heq | heq
    · rw [heq]
      exact hadded
    · rw [heq]
      apply hadded.putOwnLane
      show (own.nextSeq + 1).toNat ≤ n + 1 + 1
      rw [UInt64.toNat_add]
      exact le_trans (Nat.mod_le _ _) (Nat.succ_le_succ hnext)
  | issueHead author nowMs targets fault =>
    rw [PostHeads.step]
    rcases issueHead_cases with heq | ⟨signed, heq⟩
    · rw [heq]
      exact h.mono (Nat.le_succ n)
    · rw [heq]
      constructor
      case seqs =>
        intro ref href
        rw [log_putHead] at href
        exact (h.mono (Nat.le_succ n)).seqs ref href
      case records =>
        intro device own hown
        rw [posts.ownLane_keep _ _ _ (by simp)] at hown
        exact (h.mono (Nat.le_succ n)).records device own hown

/-! ## Runs -/

theorem run_append : run posts crypto (before ++ mid) = mid.foldl (step posts crypto) (run posts crypto before) :=
  List.foldl_append

theorem run_concat : run posts crypto (before ++ [op]) = step posts crypto (run posts crypto before) op := by
  rw [run_append]
  rfl

theorem within_run : Within posts ops.length (run posts crypto ops) := by
  induction ops using List.reverseRecOn with
  | nil => exact within_empty
  | append_singleton ops op ih =>
    rw [run_concat, List.length_append]
    exact ih.step

theorem fits_run (h : ops.length < 2 ^ 63) : (posts.log (run posts crypto ops)).Fits := by
  intro ref href
  exact lt_of_le_of_lt (within_run.seqs ref href) h

theorem run_isSome {ref : PostRef} (h : (posts.log (run posts crypto before) ref).isSome) :
    (posts.log (run posts crypto (before ++ mid)) ref).isSome := by
  induction mid using List.reverseRecOn with
  | nil =>
    rw [List.append_nil]
    exact h
  | append_singleton mid op ih =>
    rw [← List.append_assoc, run_concat]
    exact step_isSome ih

theorem headRow_run (h : posts.headRow (run posts crypto before) account = some row) :
    ∃ row', posts.headRow (run posts crypto (before ++ mid)) account = some row' ∧ (row' = row ∨ row.1 < row'.1) := by
  induction mid using List.reverseRecOn with
  | nil =>
    rw [List.append_nil]
    exact ⟨row, h, .inl rfl⟩
  | append_singleton mid op ih =>
    obtain ⟨between, hbetween, hfrom⟩ := ih
    obtain ⟨row', hrow', hnext⟩ := headRow_step hbetween
    rw [← List.append_assoc, run_concat]
    refine ⟨row', hrow', ?_⟩
    rcases hnext with rfl | hnext
    · exact hfrom
    · rcases hfrom with rfl | hfrom
      · exact .inr hnext
      · exact .inr (lt_trans hfrom hnext)

theorem namesAll (h : (posts.log store).Fits) : NamesAll (posts.log store) account (posts.lanesOf store account) where
  every := by
    intro lane seq hash hsome
    obtain ⟨top, htop, hlane, hle⟩ := exists_top hsome
    exact ⟨top, (posts.mem_lanesOf h).mpr htop, hlane, hle⟩
  newest := fun _ hnamed => (posts.mem_lanesOf h).mp hnamed

/-- Where each head is issued past the time of the one kept, the head an
author keeps names all that the author wrote. -/
theorem heads_kept (hclock : ClockGoesOn posts crypto ops) (hshort : ops.length < 2 ^ 63) :
    HeadsKept posts crypto ops where
  kept := by
    intro before author nowMs targets fault after signed hops hissued
    rw [run_concat]
    apply (head_issueHead hissued).mpr
    intro row hrow
    exact .inl (hclock before author nowMs targets fault after hops row hrow)
  named := by
    intro before author nowMs targets fault after signed hops hissued
    obtain ⟨-, hcanonical, heq⟩ := issueHead_ok hissued
    refine ⟨hcanonical, ?_⟩
    have hfits : (posts.log (run posts crypto before)).Fits := by
      apply fits_run
      rw [hops, List.length_append] at hshort
      omega
    rw [run_concat, step, heq, log_putHead]
    exact namesAll hfits
  grows := by
    intro before mid after nowMs targets nowMs' targets' author author' hops haccount named hnamed
    have hlength : (before ++ mid).length < 2 ^ 63 := by
      rw [hops, List.length_append] at hshort
      omega
    have hbefore : before.length < 2 ^ 63 := by
      rw [List.length_append] at hlength
      omega
    have htop := (namesAll (fits_run hbefore)).newest named hnamed
    have hlater := @namesAll _ _ author'.accountId (@fits_run posts crypto _ hlength)
    rw [haccount] at hlater
    rw [PostAuthor.headOf, haccount]
    exact hlater.every named.lane named.seq named.entryHash (run_isSome htop.known)
  distinct := by
    intro before mid after account row row' _ hrow hrow' htime
    obtain ⟨found, hfound, hnext⟩ := headRow_run hrow
    obtain rfl := Option.mem_unique hrow' hfound
    rcases hnext with heq | hlt
    · exact heq.symm
    · rw [htime] at hlt
      exact absurd hlt (lt_irrefl _)

/-! ## A clock that steps back -/

def sampleIssue (nowMs : Int64) : PostWriteOp := .issueHead PostDevice.sampleAuthor nowMs [] .none

/-- The head of a store without entries. -/
def sampleSigned (nowMs : Int64) : SignedPostHead where
  canonical := Posts.postHeadCanonicalBytes { author := [97], issuedAt := nowMs }
  signature := List.replicate kMlDsa65SignatureBytes 0

def sampleWrites : List PostWriteOp :=
  [.append PostDevice.sampleAuthor .laneClose PostDevice.sampleBody 0 (.filled 1) .none, sampleIssue 10]

theorem heads_kept_sample : HeadsKept .sqlite Posts.samplePostCrypto sampleWrites := by
  refine heads_kept ?_ (by decide)
  intro before author nowMs targets fault after hops row hrow
  cases before with
  | nil => cases hops
  | cons op before =>
    obtain ⟨rfl, hrest⟩ := List.cons.inj hops
    cases before with
    | nil =>
      rw [run, List.foldl_cons, List.foldl_nil, headRow_append, IPostHeadStore.sqlite.headRow_empty] at hrow
      cases hrow
    | cons op before =>
      have hlength := congrArg List.length hrest
      simp at hlength

theorem issue_sample {store : InMemoryPostStore} (h : store.lanesOf [97] = []) (nowMs : Int64) :
    PostDevice.sampleAuthor.issueHead .inMemory store nowMs [] .none =
      (store.putHead (sampleSigned nowMs) { author := [97], issuedAt := nowMs }, .ok (sampleSigned nowMs)) := by
  have hhead : PostDevice.sampleAuthor.headOf .inMemory store nowMs [] = { author := [97], issuedAt := nowMs } :=
    congrArg (fun lanes => ({ author := [97], issuedAt := nowMs, lanes } : PostHead)) h
  have hsigned : PostDevice.sampleAuthor.signHead .inMemory store nowMs [] .none = .ok (sampleSigned nowMs) := by
    refine refuseIf_bind_ok.mpr ⟨?_, ?_⟩
    · rw [hhead]
      exact Nat.not_lt.mpr (Nat.zero_le _)
    · rw [hhead]
      exact Posts.signPostHead_sample _ (Nat.zero_le _) rfl
  unfold PostAuthor.issueHead
  rw [hsigned, hhead]
  rfl

/-- A head issued after the clock stepped back is not the one kept. -/
theorem head_not_kept : ¬ HeadsKept .inMemory Posts.samplePostCrypto [sampleIssue 10, sampleIssue 5] := by
  intro h
  have hfirst : run IPostHeadStore.inMemory Posts.samplePostCrypto [sampleIssue 10] =
      InMemoryPostStore.putHead {} (sampleSigned 10) { author := [97], issuedAt := 10 } :=
    congrArg Prod.fst (issue_sample rfl 10)
  have hissued : Issues .inMemory Posts.samplePostCrypto [sampleIssue 10] PostDevice.sampleAuthor 5 [] .none
      (sampleSigned 5) := by
    rw [Issues, hfirst]
    exact congrArg Prod.snd (issue_sample rfl 5)
  have hkept := h.kept [sampleIssue 10] PostDevice.sampleAuthor 5 [] .none [] (sampleSigned 5) rfl hissued
  rw [run_concat] at hkept
  have hrow : IPostHeadStore.inMemory.headRow (run .inMemory Posts.samplePostCrypto [sampleIssue 10]) [97] =
      some (10, sampleSigned 10) := by
    rw [hfirst]
    rfl
  rcases (head_issueHead hissued).mp hkept _ hrow with hlater | hsame
  · exact absurd hlater (by decide)
  · have hcanonical : (sampleSigned 10).canonical ≠ (sampleSigned 5).canonical := by decide
    exact hcanonical (congrArg SignedPostHead.canonical hsame)

end PostHeads

end Pbr
