import Mathlib.Data.List.Chain
import PpBrowser.Messaging.GroupRosterApply

/-!
# GroupRosterOwners — owner chains and who may win

What `Verify` says of an owner chain (`ChainSound`), what `candidateWins`
says of two statements, and from both: over which runs of statements a
former owner stays out.

A statement's signature does not cover its chain, and the transfers a
device knows are those of the statement it holds. So what a run may not do
is lose a transfer from the held chain (`KeepsTransfers`).
-/

namespace Pbr

/-- What the roster code relies on in its signatures: the empty one
verifies nothing, no key's account is empty, and a signature verifies
under one key only. -/
structure GroupCrypto.Sound (K : GroupCrypto) : Prop where
  signature : ∀ key bytes sig, K.base64Decode "" = some sig →
    K.mlDsaVerify key bytes sig ≠ some true
  account : ∀ key, K.accountIdFromMlDsaPublicKey key ≠ some ""
  oneKey : ∀ key other bytes bytesOther sig, K.mlDsaVerify key bytes sig = some true →
    K.mlDsaVerify other bytesOther sig = some true → key = other

namespace GroupRosterStatement

/-! ## What Verify says of a chain -/

section Verify

variable {K : GroupCrypto} {chain : List GroupOwnerTransfer} {identity sig : String} {rosterEpoch : Nat}

/-- A signature that verifies under a key of `identity`'s. -/
def SignedBy (K : GroupCrypto) (identity signatureB64 : String) : Prop :=
  ∃ key bytes sig, K.accountIdFromMlDsaPublicKey key = some identity ∧
    K.base64Decode signatureB64 = some sig ∧ K.mlDsaVerify key bytes sig = some true

theorem signedBy_of_checkSignature {identity publicKeyB64 signatureB64 : String} {bytes : ByteVector}
    (h : checkSignature K identity publicKeyB64 bytes signatureB64 = .ok ()) : SignedBy K identity signatureB64 := by
  unfold checkSignature at h
  cases hkey : K.base64Decode publicKeyB64 with
  | none => simp [hkey] at h
  | some key =>
    rw [hkey] at h
    dsimp only at h
    by_cases haccount : K.accountIdFromMlDsaPublicKey key = some identity
    · rw [if_neg (not_not.mpr haccount)] at h
      cases hsig : K.base64Decode signatureB64 with
      | none => simp [hsig] at h
      | some sig =>
        rw [hsig] at h
        dsimp only at h
        by_cases hok : K.mlDsaVerify key bytes sig = some true
        · exact ⟨key, bytes, sig, haccount, hsig, hok⟩
        · simp [hok] at h
    · simp [haccount] at h

theorem SignedBy.identity_ne (hK : K.Sound) (h : SignedBy K identity sig) : identity ≠ "" := by
  obtain ⟨key, bytes, s, haccount, -, -⟩ := h
  rintro rfl
  exact hK.account key haccount

theorem SignedBy.signature_ne (hK : K.Sound) (h : SignedBy K identity sig) : sig ≠ "" := by
  obtain ⟨key, bytes, s, -, hsig, hok⟩ := h
  rintro rfl
  exact hK.signature key bytes s hsig hok

theorem SignedBy.unique (hK : K.Sound) {a b sig : String} (ha : SignedBy K a sig)
    (hb : SignedBy K b sig) : a = b := by
  obtain ⟨key, bytes, s, hkey, hs, hok⟩ := ha
  obtain ⟨key', bytes', s', hkey', hs', hok'⟩ := hb
  obtain rfl : s = s' := Option.mem_unique hs hs'
  obtain rfl := hK.oneKey key key' bytes bytes' s hok hok'
  exact Option.mem_unique hkey hkey'

/-- A chain as `Verify` accepts it for a statement of `owner`'s at
`rosterEpoch`. -/
structure ChainSound (K : GroupCrypto) (owner : String) (rosterEpoch : Nat)
    (chain : List GroupOwnerTransfer) : Prop where
  signed : ∀ t ∈ chain, SignedBy K t.fromIdentity t.signatureB64
  linked : chain.IsChain (·.toIdentity = ·.fromIdentity)
  rising : chain.Pairwise (·.rosterEpoch < ·.rosterEpoch)
  upTo : ∀ t ∈ chain, t.rosterEpoch ≤ rosterEpoch
  ends : ∀ t ∈ chain.getLast?, t.toIdentity = owner

/-- One transfer checked after another: what `checkChain` leaves of them. -/
theorem of_checkChain {groupId : String} {lastTo : Option String} {lastEpoch : Nat}
    (h : checkChain K groupId rosterEpoch lastTo lastEpoch chain = .ok ()) :
    (∀ t ∈ chain, SignedBy K t.fromIdentity t.signatureB64) ∧ chain.IsChain (·.toIdentity = ·.fromIdentity) ∧
      chain.Pairwise (·.rosterEpoch < ·.rosterEpoch) ∧
      (∀ t ∈ chain, lastEpoch < t.rosterEpoch ∧ t.rosterEpoch ≤ rosterEpoch) ∧
      ∀ t ∈ chain.head?, ∀ a ∈ lastTo, a = t.fromIdentity := by
  induction chain generalizing lastTo lastEpoch with
  | nil => simp
  | cons t rest ih =>
    unfold checkChain at h
    by_cases hlink : lastTo.any (t.fromIdentity ≠ ·) = true
    · simp only [if_pos hlink, reduceCtorEq] at h
    rw [if_neg hlink] at h
    by_cases hepoch : t.rosterEpoch ≤ lastEpoch ∨ t.rosterEpoch > rosterEpoch
    · simp only [if_pos hepoch, reduceCtorEq] at h
    rw [if_neg hepoch] at h
    cases hsig : checkSignature K t.fromIdentity t.fromPublicKeyB64
        (transferSignBytes groupId t) t.signatureB64 with
    | error e => simp [hsig] at h
    | ok u =>
      rw [hsig] at h
      obtain ⟨hsigned, hlinked, hrising, hrange, hhead⟩ := ih h
      have hfrom : ∀ a ∈ lastTo, a = t.fromIdentity := by
        intro a ha
        by_contra hne
        exact hlink ((Option.any_eq_true _ _).mpr ⟨a, ha, by simpa using Ne.symm hne⟩)
      refine ⟨?_, ?_, ?_, ?_, ?_⟩
      · intro u hu
        rcases List.mem_cons.mp hu with rfl | hu
        · exact signedBy_of_checkSignature hsig
        · exact hsigned u hu
      · rw [List.isChain_cons]
        exact ⟨fun u hu => hhead u hu t.toIdentity rfl, hlinked⟩
      · exact List.pairwise_cons.mpr ⟨fun u hu => (hrange u hu).1, hrising⟩
      · intro u hu
        rcases List.mem_cons.mp hu with rfl | hu
        · omega
        · have := (hrange u hu).1
          have := (hrange u hu).2
          omega
      · intro u hu
        obtain rfl : t = u := by simpa using hu
        exact hfrom

/-- What `Verify` says of a statement's signer and chain. -/
structure Vouched (K : GroupCrypto) (s : GroupRosterStatement) : Prop where
  signed : SignedBy K s.ownerIdentity s.ownerSignatureB64
  chain : ChainSound K s.ownerIdentity s.rosterEpoch s.ownerChain

/-- What it says of the whole statement. -/
structure Verified (K : GroupCrypto) (s : GroupRosterStatement) : Prop extends Vouched K s where
  structured : s.Structured

theorem verified_of_verify {s : GroupRosterStatement} {knownOwner : String}
    (h : s.verify K knownOwner = .ok ()) : Verified K s := by
  unfold verify at h
  cases hstruct : s.checkStructure with
  | error e => simp [hstruct] at h
  | ok u =>
  cases hsig : checkSignature K s.ownerIdentity s.ownerPublicKeyB64 s.signBytes
      s.ownerSignatureB64 with
  | error e => simp [hstruct, hsig] at h
  | ok u =>
  cases hchain : checkChain K s.groupId s.rosterEpoch none 0 s.ownerChain with
  | error e => simp [hstruct, hsig, hchain] at h
  | ok u =>
  by_cases hlast : s.ownerChain.getLast?.any (·.toIdentity ≠ s.ownerIdentity) = true
  · simp only [hstruct, hsig, hchain, bind, Except.bind, if_pos hlast, reduceCtorEq] at h
  obtain ⟨hsigned, hlinked, hrising, hrange, -⟩ := of_checkChain hchain
  refine ⟨⟨signedBy_of_checkSignature hsig, hsigned, hlinked, hrising,
    fun t ht => (hrange t ht).2, ?_⟩, checkStructure_iff.mp hstruct⟩
  intro t ht
  by_contra hne
  exact hlast ((Option.any_eq_true _ _).mpr ⟨t, ht, by simpa using hne⟩)

/-- The transfer after one that is not the last starts where it ended. -/
theorem ChainSound.last_or_next {owner : String} (h : ChainSound K owner rosterEpoch chain)
    {t : GroupOwnerTransfer} (ht : t ∈ chain) : t ∈ chain.getLast? ∨ ∃ u ∈ chain, t.toIdentity = u.fromIdentity := by
  have hlinked := h.linked
  clear h
  induction chain with
  | nil => simp at ht
  | cons u rest ih =>
    rw [List.isChain_cons] at hlinked
    rcases List.mem_cons.mp ht with rfl | ht
    · cases rest with
      | nil => exact .inl rfl
      | cons v rest => exact .inr ⟨v, by simp, hlinked.1 v rfl⟩
    · rcases ih ht hlinked.2 with hlast | ⟨v, hv, hto⟩
      · exact .inl (by rw [List.getLast?_cons_of_ne_nil (List.ne_nil_of_mem ht)]; exact hlast)
      · exact .inr ⟨v, List.mem_cons_of_mem _ hv, hto⟩

theorem Verified.storable (hK : K.Sound) {s : GroupRosterStatement} (h : Verified K s) : s.Storable := by
  refine ⟨h.structured.groupId, h.structured.ownerIdentity, fun t ht => ?_⟩
  refine ⟨(h.chain.signed t ht).identity_ne hK, ?_, (h.chain.signed t ht).signature_ne hK⟩
  rcases h.chain.last_or_next ht with hlast | ⟨u, hu, hto⟩
  · rw [h.chain.ends t hlast]
    exact h.structured.ownerIdentity
  · rw [hto]
    exact (h.chain.signed u hu).identity_ne hK

end Verify

/-! ## The last transfer -/

/-- The last transfer of a chain with transfers: to the owner, and the
newest. -/
theorem ChainSound.exists_last {K : GroupCrypto} {owner : String} {rosterEpoch : Nat}
    {chain : List GroupOwnerTransfer} (h : ChainSound K owner rosterEpoch chain)
    {t : GroupOwnerTransfer} (ht : t ∈ chain) : ∃ last ∈ chain, last.toIdentity = owner ∧
      ∀ u ∈ chain, u = last ∨ u.rosterEpoch < last.rosterEpoch := by
  obtain ⟨last, hlast⟩ := Option.isSome_iff_exists.mp
    (List.getLast?_isSome.mpr (List.ne_nil_of_mem ht))
  obtain ⟨front, rfl⟩ := List.getLast?_eq_some_iff.mp hlast
  refine ⟨last, by simp, h.ends last hlast, ?_⟩
  intro u hu
  rcases List.mem_append.mp hu with hu | hu
  · exact .inr ((List.pairwise_append.mp h.rising).2.2 u hu last (by simp))
  · exact .inl (by simpa using hu)

/-! ## Which of two statements wins -/

theorem ownerHandedOn_eq_false {known : List GroupOwnerTransfer} {s : GroupRosterStatement} :
    ownerHandedOn known s = false ↔
      ∀ away ∈ known, away.fromIdentity = s.ownerIdentity → away.rosterEpoch ≤ s.rosterEpoch →
        ∃ again ∈ known, again.toIdentity = s.ownerIdentity ∧
          away.rosterEpoch < again.rosterEpoch ∧ again.rosterEpoch ≤ s.rosterEpoch := by
  simp only [ownerHandedOn, List.any_eq_false, decide_eq_true_eq, not_and, not_not,
    List.any_eq_true, gt_iff_lt]

end GroupRosterStatement

open GroupRosterStatement

/-- A candidate that wins over `held`: it was not handed on, and newer unless
`held` was; or it is `held`'s equal in signature and epoch. -/
theorem candidateWins_cases {held s : GroupRosterStatement} (h : candidateWins (some held) s = true) :
    (ownerHandedOn (held.ownerChain ++ s.ownerChain) s = false ∧
        (ownerHandedOn (held.ownerChain ++ s.ownerChain) held = false → held.rosterEpoch < s.rosterEpoch)) ∨
      (ownerHandedOn (held.ownerChain ++ s.ownerChain) held = false ∧
        held.ownerSignatureB64 = s.ownerSignatureB64 ∧ held.rosterEpoch = s.rosterEpoch) := by
  simp only [candidateWins, pick, List.flatMap_cons, List.flatMap_nil, List.append_nil,
    List.foldl_cons, List.foldl_nil] at h
  cases hheld : ownerHandedOn (held.ownerChain ++ s.ownerChain) held with
  | true =>
    cases hs : ownerHandedOn (held.ownerChain ++ s.ownerChain) s with
    | true => simp [pickStep, hheld, hs] at h
    | false => exact .inl ⟨rfl, by simp⟩
  | false =>
    by_cases hnew : ownerHandedOn (held.ownerChain ++ s.ownerChain) s = false ∧
        held.rosterEpoch < s.rosterEpoch
    · exact .inl ⟨hnew.1, fun _ => hnew.2⟩
    · -- the held statement is picked, so it is the candidate's equal
      have hpick : pickStep (held.ownerChain ++ s.ownerChain) (some held) s = some held := by
        unfold pickStep
        cases hs : ownerHandedOn (held.ownerChain ++ s.ownerChain) s with
        | true => rfl
        | false =>
          have hle : ¬ held.rosterEpoch < s.rosterEpoch := fun hlt => hnew ⟨hs, hlt⟩
          simp [hle]
      have hfirst : pickStep (held.ownerChain ++ s.ownerChain) none held = some held := by
        simp [pickStep, hheld]
      rw [hfirst, hpick] at h
      exact .inr ⟨rfl, by simpa using h⟩

/-! ## A former owner stays out -/

/-- The chain shows that `b` handed the group on at `epoch`, and no later
transfer to `b`. -/
def HandedOn (chain : List GroupOwnerTransfer) (b : String) (epoch : Nat) : Prop :=
  (∃ t ∈ chain, t.fromIdentity = b ∧ t.rosterEpoch = epoch) ∧
    ∀ t ∈ chain, t.toIdentity = b → t.rosterEpoch ≤ epoch

/-- The chain shows a transfer to `b` after `epoch`. -/
def Regained (chain : List GroupOwnerTransfer) (b : String) (epoch : Nat) : Prop :=
  ∃ t ∈ chain, t.toIdentity = b ∧ epoch < t.rosterEpoch

/-- No transfer of the chain is from an account to itself. -/
def NoSelfTransfer (chain : List GroupOwnerTransfer) : Prop :=
  ∀ t ∈ chain, t.fromIdentity ≠ t.toIdentity

/-- The candidate's chain keeps what the held one shows of `b`: every
transfer to `b` and, unless the candidate is `b`'s own, every transfer from
`b`. -/
def KeepsTransfers (b : String) (held s : GroupRosterStatement) : Prop :=
  (∀ t ∈ held.ownerChain, t.toIdentity = b → t ∈ s.ownerChain) ∧
    (s.ownerIdentity ≠ b → ∀ t ∈ held.ownerChain, t.fromIdentity = b → t ∈ s.ownerChain)

/-- A held statement whose chain tells that `b` is out since `epoch`, or in
again. -/
structure TellsOut (K : GroupCrypto) (b : String) (epoch : Nat) (held : GroupRosterStatement) :
    Prop where
  vouched : Vouched K held
  noSelf : NoSelfTransfer held.ownerChain
  shown : (∃ t ∈ held.ownerChain, t.fromIdentity = b ∧ t.rosterEpoch = epoch) ∨
    Regained held.ownerChain b epoch

section Step

variable {K : GroupCrypto} {b : String} {epoch : Nat} {held s : GroupRosterStatement}

/-- The last transfer of a chain is to its owner, so `b` owns the statement
only after it got the group back. -/
theorem TellsOut.regained (h : TellsOut K b epoch held) (howner : held.ownerIdentity = b) :
    Regained held.ownerChain b epoch := by
  rcases h.shown with ⟨t, ht, hfrom, hepoch⟩ | hback
  · obtain ⟨last, hlast, hto, hmax⟩ := h.vouched.chain.exists_last ht
    rcases hmax t ht with rfl | hlt
    · exact absurd (hfrom.trans (howner.symm.trans hto.symm)) (h.noSelf _ ht)
    · exact ⟨last, hlast, hto.trans howner, by omega⟩
  · exact hback

/-- The statement held is not handed on by its own chain, nor by transfers
older than its last. -/
theorem not_handedOn_held (hv : Vouched K held) (hself : NoSelfTransfer held.ownerChain)
    {t : GroupOwnerTransfer} (ht : t ∈ held.ownerChain) {others : List GroupOwnerTransfer}
    (hothers : ∀ u ∈ others, u.rosterEpoch < t.rosterEpoch) :
    ownerHandedOn (held.ownerChain ++ others) held = false := by
  obtain ⟨last, hlast, hto, hmax⟩ := hv.chain.exists_last ht
  have hnewest : t.rosterEpoch ≤ last.rosterEpoch := by
    rcases hmax t ht with rfl | hlt
    · exact Nat.le_refl _
    · exact Nat.le_of_lt hlt
  rw [ownerHandedOn_eq_false]
  intro away haway hfrom _
  have hlt : away.rosterEpoch < last.rosterEpoch := by
    rcases List.mem_append.mp haway with haway | haway
    · rcases hmax away haway with rfl | hlt
      · exact absurd (hfrom.trans hto.symm) (hself _ haway)
      · exact hlt
    · have := hothers away haway
      omega
  exact ⟨last, List.mem_append_left _ hlast, hto, hlt, hv.chain.upTo last hlast⟩

/-- `b`'s own statement wins over one that tells `b` is out only by a
transfer back to `b` among those known. -/
theorem regained_of_wins (hK : K.Sound) (hheld : TellsOut K b epoch held) (hs : Vouched K s)
    (howner : s.ownerIdentity = b) (hwins : candidateWins (some held) s = true) :
    Regained (held.ownerChain ++ s.ownerChain) b epoch := by
  rcases hheld.shown with ⟨t, ht, hfrom, hepoch⟩ | ⟨t, ht, hback⟩
  swap
  · exact ⟨t, List.mem_append_left _ ht, hback⟩
  have hheldEpoch := hheld.vouched.chain.upTo t ht
  by_cases hlate : epoch ≤ s.rosterEpoch
  · -- the transfer is known to whoever picks: only one back lets `b` in
    have hpicked : ownerHandedOn (held.ownerChain ++ s.ownerChain) s = false := by
      rcases candidateWins_cases hwins with ⟨hs, -⟩ | ⟨hheldOn, hsig, hsame⟩
      · exact hs
      · have hone : held.ownerIdentity = s.ownerIdentity :=
          SignedBy.unique hK hheld.vouched.signed (hsig ▸ hs.signed)
        rw [ownerHandedOn_eq_false] at hheldOn ⊢
        rwa [hone, hsame] at hheldOn
    obtain ⟨again, hagain, hto, hlt, -⟩ := ownerHandedOn_eq_false.mp hpicked t
      (List.mem_append_left _ ht) (hfrom.trans howner.symm) (hepoch ▸ hlate)
    exact ⟨again, hagain, hto.trans howner, hepoch ▸ hlt⟩
  · -- a statement from before the transfer does not win over a later one
    exfalso
    have hnot : ownerHandedOn (held.ownerChain ++ s.ownerChain) held = false := by
      apply not_handedOn_held hheld.vouched hheld.noSelf ht
      intro u hu
      have := hs.chain.upTo u hu
      omega
    rcases candidateWins_cases hwins with ⟨-, hnewer⟩ | ⟨-, -, hsame⟩
    · have := hnewer hnot
      omega
    · omega

theorem TellsOut.step (hK : K.Sound) (hheld : TellsOut K b epoch held) (hs : Vouched K s)
    (hself : NoSelfTransfer s.ownerChain) (hwins : candidateWins (some held) s = true)
    (hkeeps : KeepsTransfers b held s) : TellsOut K b epoch s := by
  refine ⟨hs, hself, ?_⟩
  by_cases howner : s.ownerIdentity = b
  · obtain ⟨t, ht, hto, hlt⟩ := regained_of_wins hK hheld hs howner hwins
    rcases List.mem_append.mp ht with ht | ht
    · exact .inr ⟨t, hkeeps.1 t ht hto, hto, hlt⟩
    · exact .inr ⟨t, ht, hto, hlt⟩
  · rcases hheld.shown with ⟨t, ht, hfrom, hepoch⟩ | ⟨t, ht, hto, hlt⟩
    · exact .inl ⟨t, hkeeps.2 howner t ht hfrom, hfrom, hepoch⟩
    · exact .inr ⟨t, hkeeps.1 t ht hto, hto, hlt⟩

end Step

/-! ## Runs -/

/-- A call that keeps or applies a statement. -/
inductive StatementCall where
  | keepStatement (statement : GroupRosterStatement)
  | applyView (groupId : String) (cards : GroupCardLookup) (nowMs : Int)

/-- The store a function leaves: one that fails leaves it as it was. -/
def storeAfter {α : Type} (store : GroupRosterStore) (result : Roe (α × GroupRosterStore)) :
    GroupRosterStore :=
  match result with
  | .ok (_, after) => after
  | .error _ => store

def StatementCall.run (K : GroupCrypto) (store : GroupRosterStore) :
    StatementCall → GroupRosterStore
  | keepStatement s => storeAfter store (Pbr.keepStatement K store s)
  | applyView g cards now => storeAfter store (Pbr.applyView K store g cards now)

def runCalls (K : GroupCrypto) (store : GroupRosterStore) (calls : List StatementCall) :
    GroupRosterStore :=
  calls.foldl (StatementCall.run K) store

/-- The statement is valid for the owner known and wins over the one held. -/
def Accepts (K : GroupCrypto) (store : GroupRosterStore) (s : GroupRosterStatement) : Prop :=
  ∃ m, store.loadMetadata s.groupId = some m ∧ s.verify K m.ownerIdentity = .ok () ∧
    candidateWins m.held s = true

/-- A statement the call gives group `g`, if accepted, has no transfer from
an account to itself and keeps what the held chain shows of `b`. -/
def StatementCall.Keeps (K : GroupCrypto) (g b : String) (store : GroupRosterStore) :
    StatementCall → Prop
  | keepStatement s => s.groupId = g → Accepts K store s →
      NoSelfTransfer s.ownerChain ∧ ∀ held ∈ heldStatement store g, KeepsTransfers b held s
  | applyView _ _ _ => True

def RunKeeps (K : GroupCrypto) (g b : String) : GroupRosterStore → List StatementCall → Prop
  | _, [] => True
  | store, call :: rest => call.Keeps K g b store ∧ RunKeeps K g b (call.run K store) rest

section Runs

variable {K : GroupCrypto} {g b : String} {epoch : Nat} {calls : List StatementCall}

/-- What a call does to the statement held: nothing, or it is one accepted. -/
theorem heldStatement_run (hK : K.Sound) (store : GroupRosterStore) (call : StatementCall) :
    heldStatement (call.run K store) g = heldStatement store g ∨
      ∃ s, call = .keepStatement s ∧ s.groupId = g ∧ Accepts K store s ∧ Verified K s ∧
        candidateWins (heldStatement store g) s = true ∧ heldStatement (call.run K store) g = some s.stored := by
  cases call with
  | applyView other cards now =>
    rw [show StatementCall.run K store (.applyView other cards now) =
      storeAfter store (applyView K store other cards now) from rfl]
    cases happly : applyView K store other cards now with
    | error e => exact .inl rfl
    | ok result => exact .inl (heldStatement_applyView happly g)
  | keepStatement s =>
    rw [show StatementCall.run K store (.keepStatement s) =
      storeAfter store (keepStatement K store s) from rfl]
    cases hkeep : keepStatement K store s with
    | error e => exact .inl rfl
    | ok result =>
      obtain ⟨kept, after⟩ := result
      obtain ⟨-, m, hm, ⟨-, rfl⟩ | ⟨-, -, hverify, hwins, rfl⟩⟩ := keepStatement_cases hkeep
      · exact .inl rfl
      · have hverified := verified_of_verify hverify
        have hheld := heldStatement_kept (hverified.storable hK) hm g
        by_cases hg : g = s.groupId
        · rw [if_pos hg] at hheld
          have hstore : heldStatement store g = m.held := by
            rw [heldStatement, hg, hm, Option.bind_some]
          exact .inr ⟨s, rfl, hg.symm, ⟨m, hm, hverify, hwins⟩, hverified,
            hstore ▸ hwins, hheld⟩
        · rw [if_neg hg] at hheld
          exact .inl hheld

theorem vouched_of_run (hK : K.Sound) {store : GroupRosterStore}
    (hstart : ∀ held ∈ heldStatement store g, Vouched K held ∧ NoSelfTransfer held.ownerChain)
    (hkeeps : RunKeeps K g b store calls) : ∀ held ∈ heldStatement (runCalls K store calls) g,
      Vouched K held ∧ NoSelfTransfer held.ownerChain := by
  induction calls generalizing store with
  | nil => exact hstart
  | cons call rest ih =>
    refine ih ?_ hkeeps.2
    intro held hheld
    rcases heldStatement_run hK store call (g := g) with hsame | ⟨s, rfl, hg, hacc, hs, -, hnew⟩
    · exact hstart held (hsame ▸ hheld)
    · obtain rfl : s.stored = held := Option.mem_unique hnew hheld
      exact ⟨⟨hs.signed, hs.chain⟩, (hkeeps.1 hg hacc).1⟩

/-- Over a run that keeps the transfers shown, the statement held goes on
telling that `b` is out or in again. -/
theorem tellsOut_of_run (hK : K.Sound) {store : GroupRosterStore}
    (hkeeps : RunKeeps K g b store calls) {held : GroupRosterStatement}
    (hheld : heldStatement store g = some held) (hout : TellsOut K b epoch held) :
    ∃ later, heldStatement (runCalls K store calls) g = some later ∧ TellsOut K b epoch later := by
  induction calls generalizing store held with
  | nil => exact ⟨held, hheld, hout⟩
  | cons call rest ih =>
    rcases heldStatement_run hK store call (g := g) with
      hsame | ⟨s, rfl, hg, hacc, hs, hwins, hnew⟩
    · exact ih hkeeps.2 (hsame.trans hheld) hout
    · obtain ⟨hself, htransfers⟩ := hkeeps.1 hg hacc
      have hstep := hout.step hK hs.toVouched hself (hheld ▸ hwins) (htransfers held hheld)
      exact ih hkeeps.2 hnew ⟨⟨hstep.vouched.signed, hstep.vouched.chain⟩, hself, hstep.shown⟩

theorem runKeeps_append {store : GroupRosterStore} {before after : List StatementCall}
    (h : RunKeeps K g b store (before ++ after)) :
    RunKeeps K g b store before ∧ RunKeeps K g b (runCalls K store before) after := by
  induction before generalizing store with
  | nil => exact ⟨trivial, h⟩
  | cons call rest ih => exact ⟨⟨h.1, (ih h.2).1⟩, (ih h.2).2⟩

/-- A former owner never gets the group back by itself, in every run whose
accepted statements keep the transfers the held chain shows of it. -/
theorem former_owner_stays_out (hK : K.Sound) (store : GroupRosterStore)
    (before after : List StatementCall)
    (hstart : ∀ held ∈ heldStatement store g, Vouched K held ∧ NoSelfTransfer held.ownerChain)
    (hkeeps : RunKeeps K g b store (before ++ after)) {held later : GroupRosterStatement}
    (hheld : heldStatement (runCalls K store before) g = some held)
    (hout : HandedOn held.ownerChain b epoch)
    (hlater : heldStatement (runCalls K store (before ++ after)) g = some later)
    (howner : later.ownerIdentity = b) : Regained later.ownerChain b epoch := by
  obtain ⟨hbefore, hafter⟩ := runKeeps_append hkeeps
  obtain ⟨hvouched, hself⟩ := vouched_of_run hK hstart hbefore held hheld
  obtain ⟨last, hlast, htells⟩ :=
    tellsOut_of_run hK hafter hheld ⟨hvouched, hself, .inl hout.1⟩
  rw [runCalls, List.foldl_append] at hlater
  obtain rfl : last = later := Option.mem_unique hlast hlater
  exact htells.regained howner

end Runs

/-! ## A chain forgotten -/

/-- Primitives to run statements on: a key is its account's name, and the
key's own text is its signature. -/
def sampleSigning : GroupCrypto :=
  { sampleCrypto with
    mlDsaVerify := fun key _ signature => some (signature = key ∧ key ≠ [])
    accountIdFromMlDsaPublicKey := fun key =>
      if key = [] then none else sampleCrypto.accountIdFromMlDsaPublicKey key }

theorem sampleSigning_sound : sampleSigning.Sound where
  signature := by
    intro key bytes sig hsig hok
    obtain rfl : [] = sig := Option.some.inj hsig
    simp [sampleSigning] at hok
  account := by
    intro key hkey
    by_cases hempty : key = []
    · simp [sampleSigning, hempty] at hkey
    · simp [sampleSigning, sampleCrypto, hempty] at hkey
  oneKey := by
    intro key other bytes bytesOther sig h h'
    simp only [sampleSigning, Option.some.injEq, decide_eq_true_eq] at h h'
    rw [← h.1, ← h'.1]

def sampleTransfer (a b : String) (epoch : Nat) : GroupOwnerTransfer :=
  { fromIdentity := a, fromPublicKeyB64 := a, toIdentity := b, rosterEpoch := epoch
    signatureB64 := a }

/-- A statement of the sample group, of the accounts `b` and `c`. -/
def sampleOwned (owner : String) (epoch : Nat) (chain : List GroupOwnerTransfer) :
    GroupRosterStatement :=
  { groupId := "g", rosterEpoch := epoch, ownerIdentity := owner, ownerPublicKeyB64 := owner
    ownerSignatureB64 := owner, ownerChain := chain
    members := ["b", "c"].map fun account =>
      { identity := account, role := if account = owner then .owner else .member } }

def sampleDevice (owner : String) : GroupRosterStore :=
  ({} : GroupRosterStore).upsertMetadata { groupId := "g", ownerIdentity := owner }

/-- `c` gave the group to `b` and got it back. -/
def sampleReturned : GroupRosterStatement :=
  sampleOwned "c" 5 [sampleTransfer "c" "b" 3, sampleTransfer "b" "c" 5]

/-- `c`'s next statement, its chain left out by who passed it on. -/
def sampleStripped : GroupRosterStatement := sampleOwned "c" 7 []

/-- `b`'s statement of any epoch, with the chain that once made it owner. -/
def sampleComeback : GroupRosterStatement := sampleOwned "b" 100 [sampleTransfer "c" "b" 3]

/-- `b`'s statement after `c` gave it the group again. -/
def sampleGivenBack : GroupRosterStatement :=
  sampleOwned "b" 9 (sampleReturned.ownerChain ++ [sampleTransfer "c" "b" 8])

set_option maxRecDepth 20000 in
/-- `b` owns the group again by a transfer after the one that took it out. -/
theorem former_owner_stays_out_sample : Regained sampleGivenBack.ownerChain "b" 5 := by
  have hreturned : heldStatement (runCalls sampleSigning (sampleDevice "c")
      [.keepStatement sampleReturned]) "g" = some sampleReturned := by decide
  have hgiven : heldStatement (runCalls sampleSigning (sampleDevice "c")
      [.keepStatement sampleReturned, .keepStatement sampleGivenBack]) "g" =
      some sampleGivenBack := by decide
  have hnone : heldStatement (sampleDevice "c") "g" = none := by decide
  have hhanded : HandedOn sampleReturned.ownerChain "b" 5 := by
    unfold HandedOn
    decide
  refine former_owner_stays_out sampleSigning_sound (sampleDevice "c")
    [.keepStatement sampleReturned] [.keepStatement sampleGivenBack] ?_ ?_ hreturned hhanded hgiven rfl
  · intro held hheld
    rw [hnone] at hheld
    cases hheld
  · refine ⟨fun _ _ => ⟨by unfold NoSelfTransfer; decide, ?_⟩,
      fun _ _ => ⟨by unfold NoSelfTransfer; decide, ?_⟩, trivial⟩
    · intro held hheld
      rw [hnone] at hheld
      cases hheld
    · intro held hheld
      obtain rfl : sampleReturned = held := Option.mem_unique hreturned hheld
      unfold KeepsTransfers
      decide

set_option maxRecDepth 20000 in
/-- The held copy replaced by one with its chain stripped, a former owner's
statement wins without a transfer back. -/
theorem stripped_chain_lets_back : sampleSigning.Sound ∧
    heldStatement (runCalls sampleSigning (sampleDevice "c")
        [.keepStatement sampleReturned]) "g" = some sampleReturned ∧
      HandedOn sampleReturned.ownerChain "b" 5 ∧
      heldStatement (runCalls sampleSigning (sampleDevice "c")
        [.keepStatement sampleReturned, .applyView "g" sampleCards 0,
          .keepStatement sampleStripped, .keepStatement sampleComeback]) "g" =
        some sampleComeback ∧
      sampleComeback.ownerIdentity = "b" ∧ ¬ Regained sampleComeback.ownerChain "b" 5 := by
  refine ⟨sampleSigning_sound, by decide, ?_, by decide, rfl, ?_⟩
  · unfold HandedOn
    decide
  · unfold Regained
    decide

end Pbr
