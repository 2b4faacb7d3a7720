import PpBrowser.Social.CasStore

/-!
# CasHistory — what the store was given, over whole runs

A store beside what its operations have put in it and not deleted. A held
object is got back, unless its public bytes look sealed; a kept object stays
kept exactly while every put of it keeps it.
-/

namespace Pbr

open Lib CasStore

variable {crypto : CasCrypto} {store : CasStore} {side : CasRealm} {id bytes key : ByteVector} {provenance : String}

/-- What is sealed opens again under its key. -/
def CasCrypto.Opens (crypto : CasCrypto) : Prop :=
  ∀ nonce dek plaintext aad cipher, crypto.encrypt nonce dek plaintext aad = .ok cipher →
    crypto.decrypt dek cipher aad = .ok plaintext

/-- Public bytes that look like a sealed block. -/
def LooksSealed (bytes : ByteVector) : Prop := kPpbaMagic.isPrefixOf bytes

instance : Decidable (LooksSealed bytes) := inferInstanceAs (Decidable (_ = true))

namespace CasStore

variable (crypto store) in
/-- `GetPrivate` with a key, `GetPublic` without. -/
def get : CasRealm → ByteVector → ByteVector → Roe ByteVector
  | .privateRealm, contentId, dek => getPrivate crypto store contentId dek
  | .publicRealm, contentId, _ => store.getPublic contentId

variable (store) in
/-- The file of the object is within the limit. -/
def Fits (side : CasRealm) (id : ByteVector) : Prop :=
  ∀ block, store.blocks side id = some block → block.length ≤ kMaxCasBlockFileBytes

variable (store) in
/-- A kept public object: pinned, with what it was published from. -/
def KeptAs (id : ByteVector) (provenance : String) : Prop :=
  ∃ row, store.casObjects .publicRealm id = some row ∧ row.pinned = true ∧ row.publishedFromHex = provenance

/-- The operation is asked to let the public object go. -/
def CasOp.Withdraws (op : CasOp) (id : ByteVector) : Prop := op = .unpublish id ∨ op = .delete .publicRealm id

def PublicPut.KeepsAs (put : PublicPut) (provenance : String) : Prop :=
  put.pinned = true ∧ cText put.publishedFromHex = provenance

/-! ## Reading -/

theorem readBlockFile_ok {block : ByteVector} (hblock : store.blocks side id = some block) (hfits : store.Fits side id) :
    store.readBlockFile side id = .ok block := by
  rw [readBlockFile, hblock]
  dsimp only
  exact if_neg (Nat.not_lt.mpr (hfits block hblock))

theorem getPublic_eq (hlength : id.length = kCasContentIdSize) (hblock : store.blocks .publicRealm id = some bytes)
    (hfits : store.Fits .publicRealm id) : store.getPublic id = .ok bytes ↔ ¬ LooksSealed bytes := by
  rw [getPublic, validateContentId_ok.mpr hlength, roe_ok_bind, readBlockFile_ok hblock hfits, roe_ok_bind,
    refuseIf_bind_ok]
  exact and_iff_left rfl

theorem isPrefixOf_magic (cipher : ByteVector) : kPpbaMagic.isPrefixOf (kPpbaMagic ++ cipher) :=
  List.isPrefixOf_iff_prefix.mpr (List.prefix_append _ _)

theorem drop_magic (cipher : ByteVector) : (kPpbaMagic ++ cipher).drop 4 = cipher :=
  List.drop_left' (by decide)

theorem getPrivate_eq (hcipher : crypto.Opens) (hstored : StoredAs crypto store .privateRealm id bytes key)
    (hfits : store.Fits .privateRealm id) : getPrivate crypto store id key = .ok bytes := by
  obtain ⟨hlength, -, hprofile, hkey, nonce, cipher, hblock, hencrypt⟩ := hstored
  have hread := readBlockFile_ok hblock hfits
  rw [getPrivate, validateContentId_ok.mpr hlength, roe_ok_bind, refuseIf_bind_ok, refuseIf_bind_ok, hread, roe_ok_bind,
    refuseIf_bind_ok, drop_magic]
  exact ⟨not_not.mpr hkey, hprofile, not_not.mpr (isPrefixOf_magic cipher), hcipher _ _ _ _ _ hencrypt⟩

theorem StoredAs.get_iff (hcipher : crypto.Opens) (hstored : StoredAs crypto store side id bytes key)
    (hfits : store.Fits side id) :
    store.get crypto side id key = .ok bytes ↔ ¬ (side = .publicRealm ∧ LooksSealed bytes) := by
  cases side with
  | privateRealm =>
    have hget : store.get crypto .privateRealm id key = .ok bytes := getPrivate_eq hcipher hstored hfits
    rw [hget]
    simp
  | publicRealm =>
    have hget := getPublic_eq hstored.1 hstored.2.2 hfits
    rw [get, hget]
    simp

/-! ## The realms apart -/

variable {after : CasStore} {op : CasOp}

theorem readBlockFile_congr (h : after.blocks side id = store.blocks side id) :
    after.readBlockFile side id = store.readBlockFile side id := by
  rw [readBlockFile, readBlockFile, h]

theorem get_congr (hblock : after.blocks side id = store.blocks side id)
    (hprofile : after.profileId = store.profileId) : after.get crypto side id key = store.get crypto side id key := by
  cases side with
  | privateRealm =>
    rw [get, get, getPrivate, getPrivate, readBlockFile_congr hblock, hprofile]
  | publicRealm => rw [get, get, getPublic, getPublic, readBlockFile_congr hblock]

theorem lookup_congr (h : after.casObjects side id = store.casObjects side id) :
    after.lookup side id = store.lookup side id := by
  rw [lookup, lookup, h]

/-! ## Kept objects -/

theorem KeptAs.congr (h : after.casObjects .publicRealm id = store.casObjects .publicRealm id) :
    after.KeptAs id provenance ↔ store.KeptAs id provenance := by
  rw [KeptAs, KeptAs, h]

theorem KeptAs.put_iff {put : PublicPut} (h : Puts put store after) (hid : put.contentId = id) :
    after.KeptAs id provenance ↔ put.KeepsAs provenance := by
  obtain ⟨kept, hpinned, hsource, hrows⟩ := h.rows
  have hrow : after.casObjects .publicRealm id = some kept := by
    rw [hrows, if_pos ⟨rfl, hid.symm⟩]
  rw [KeptAs, PublicPut.KeepsAs, hrow, ← hpinned, ← hsource]
  constructor
  · rintro ⟨row, hsome, hkept⟩
    obtain rfl := Option.some.inj hsome
    exact hkept
  · intro hkept
    exact ⟨kept, rfl, hkept⟩

theorem casObjects_publicPut {put : PublicPut} (hput : publicPut crypto store op = some put)
    (h : ¬ (Takes crypto store op put ∧ put.contentId = id)) :
    (step crypto store op).casObjects .publicRealm id = store.casObjects .publicRealm id := by
  by_cases htakes : Takes crypto store op put
  · obtain ⟨kept, -, -, hrows⟩ := (step_takes htakes).rows
    exact hrows.trans (if_neg fun hboth => h ⟨htakes, hboth.2.symm⟩)
  · rw [step_not_takes hput htakes]

/-- Without a put of it, an object that is not withdrawn keeps its row. -/
theorem casObjects_step (hwithdraws : ¬ op.Withdraws id) (h : ∀ put, Takes crypto store op put → put.contentId ≠ id) :
    (step crypto store op).casObjects .publicRealm id = store.casObjects .publicRealm id := by
  have hpublic : ∀ {put}, publicPut crypto store op = some put →
      (step crypto store op).casObjects .publicRealm id = store.casObjects .publicRealm id := by
    intro put hput
    exact casObjects_publicPut hput fun hboth => h put hboth.1 hboth.2
  cases op with
  | putPrivate contentId plaintext dek mime filename pinned nonce nowMs =>
    apply (step_other _).2
    exact fun h => by cases h
  | putPublic put nowMs | cacheFetchedPublicCas contentId bytes mime filename nowMs =>
    exact hpublic rfl
  | publishFromPrivate privateContentId dek nowMs =>
    cases hput : publicPut crypto store (.publishFromPrivate privateContentId dek nowMs) with
    | none => rw [step_publish_error hput]
    | some put => exact hpublic hput
  | unpublish contentId =>
    have hid : id ≠ contentId := by
      rintro rfl
      exact hwithdraws (.inl rfl)
    rcases step_unpublish crypto with hstep | hstep
    · rw [hstep]
    · rw [hstep]
      exact casObjects_setPinned (.inl hid)
  | delete realm contentId =>
    rcases step_delete crypto with ⟨hstep, -⟩ | ⟨hstep, -⟩
    · rw [hstep]
    · rw [hstep]
      apply casObjects_writeRow.trans
      apply if_neg
      rintro ⟨rfl, rfl⟩
      exact hwithdraws (.inr rfl)

theorem keptAs_step_iff (hkept : store.KeptAs id provenance) (hwithdraws : ¬ op.Withdraws id) :
    (step crypto store op).KeptAs id provenance ↔
      ∀ put, Takes crypto store op put → put.contentId = id → put.KeepsAs provenance := by
  constructor
  · intro hafter put htakes hid
    exact (KeptAs.put_iff (step_takes htakes) hid).mp hafter
  · intro hputs
    by_cases hput : ∃ put, Takes crypto store op put ∧ put.contentId = id
    · obtain ⟨put, htakes, hid⟩ := hput
      exact (KeptAs.put_iff (step_takes htakes) hid).mpr (hputs put htakes hid)
    · have hrow := casObjects_step hwithdraws fun put htakes hid => hput ⟨put, htakes, hid⟩
      exact (KeptAs.congr hrow).mpr hkept

end CasStore

/-! ## Histories -/

/-- A store and what was put in it and not deleted, each with its key. -/
structure CasHistory where
  store : CasStore
  held : CasRealm → ByteVector → Option (ByteVector × ByteVector) := fun _ _ => none

namespace CasHistory

variable {history : CasHistory}

variable (crypto) in
def step (history : CasHistory) (op : CasOp) : CasHistory :=
  let store := CasStore.step crypto history.store op
  match change crypto history.store op with
  | none => { history with store }
  | some (side, id, value) =>
    { store, held := fun side' id' => if side' = side ∧ id' = id then value else history.held side' id' }

variable (crypto) in
inductive Reached : CasHistory → Prop where
  | start (profileDir profileId : String) : Reached { store := { profileDir, profileId } }
  | step {history : CasHistory} {op : CasOp} (h : Reached history) : Reached (history.step crypto op)

variable {op : CasOp}

@[simp] theorem store_step : (history.step crypto op).store = history.store.step crypto op := by
  rw [step]
  split <;> rfl

variable (crypto) in
def Sound (history : CasHistory) : Prop :=
  ∀ side id bytes key, history.held side id = some (bytes, key) → StoredAs crypto history.store side id bytes key

theorem Sound.step (h : Sound crypto history) : Sound crypto (history.step crypto op) := by
  intro side id bytes key hheld
  have hchanges := @changes_step crypto history.store op
  rw [store_step]
  rw [CasHistory.step] at hheld
  cases hchange : change crypto history.store op with
  | none =>
    rw [hchange] at hheld hchanges
    exact (h side id bytes key hheld).congr (hchanges side id) step_profileId
  | some changed =>
    obtain ⟨side', id', value⟩ := changed
    rw [hchange] at hheld hchanges
    dsimp only at hheld
    by_cases hboth : side = side' ∧ id = id'
    · rw [if_pos hboth] at hheld
      obtain ⟨rfl, rfl⟩ := hboth
      exact hchanges.2 bytes key hheld
    · rw [if_neg hboth] at hheld
      exact (h side id bytes key hheld).congr (hchanges.1 side id hboth) step_profileId

theorem Reached.sound (h : Reached crypto history) : Sound crypto history := by
  induction h with
  | start profileDir profileId =>
    intro side id bytes key hheld
    cases hheld
  | step _ ih => exact ih.step

/-! ## Serving -/

/-- Bytes a serve gives out: within the limit, and not looking sealed. -/
def Servable (bytes : ByteVector) : Prop := bytes.length ≤ kMaxCasBlockFileBytes ∧ ¬ LooksSealed bytes

/-- The object is kept, and its bytes can be served. -/
def Serves (history : CasHistory) (id : ByteVector) (provenance : String) : Prop :=
  history.store.KeptAs id provenance ∧
    ∃ bytes key, history.held .publicRealm id = some (bytes, key) ∧ Servable bytes

variable (crypto) in
/-- The operation leaves the object kept: no withdrawal, and each put of it
keeps it with bytes that can be served. -/
def Leaves (id : ByteVector) (provenance : String) (history : CasHistory) (op : CasOp) : Prop :=
  ¬ op.Withdraws id ∧ ∀ put, Takes crypto history.store op put → put.contentId = id →
    put.KeepsAs provenance ∧ Servable put.publishedBytes

theorem Serves.load (hserves : Serves history id provenance) (hsound : Sound crypto history) :
    ∃ bytes, history.store.loadPinnedPublicCasBytes id = .ok bytes ∧ crypto.attachmentContentHash bytes = id := by
  obtain ⟨⟨row, hrow, hpinned, -⟩, bytes, key, hheld, hlimit, hplain⟩ := hserves
  obtain ⟨hlength, hhash, hblock⟩ := hsound _ _ _ _ hheld
  have hfits : history.store.Fits .publicRealm id := by
    intro block hsome
    obtain rfl := Option.mem_unique hblock hsome
    exact hlimit
  refine ⟨bytes, ?_, hhash⟩
  rw [loadPinnedPublicCasBytes, lookup, validateContentId_ok.mpr hlength, roe_ok_bind, hrow, roe_ok_bind]
  dsimp only
  rw [if_pos hpinned]
  exact (getPublic_eq hlength hblock hfits).mpr hplain

/-- What an operation that does not withdraw the object changes of what is
held of it: the bytes of a put of it. -/
theorem held_step (hwithdraws : ¬ op.Withdraws id) :
    (history.step crypto op).held .publicRealm id = history.held .publicRealm id ∨
      ∃ put, Takes crypto history.store op put ∧ put.contentId = id ∧
        (history.step crypto op).held .publicRealm id = some (put.publishedBytes, []) := by
  have hpublic : ∀ put, publicPut crypto history.store op = some put →
      change crypto history.store op = publicChange crypto history.store put →
      (history.step crypto op).held .publicRealm id = history.held .publicRealm id ∨
        ∃ put, Takes crypto history.store op put ∧ put.contentId = id ∧
          (history.step crypto op).held .publicRealm id = some (put.publishedBytes, []) := by
    intro put hput hchange
    rw [publicChange] at hchange
    cases hcheck : checkPublic crypto history.store put with
    | error text =>
      rw [hcheck] at hchange
      left
      rw [CasHistory.step, hchange]
    | ok _ =>
      rw [hcheck] at hchange
      by_cases hid : id = put.contentId
      · right
        refine ⟨put, ⟨hput, hcheck⟩, hid.symm, ?_⟩
        rw [CasHistory.step, hchange]
        exact if_pos ⟨rfl, hid⟩
      · left
        rw [CasHistory.step, hchange]
        exact if_neg fun hboth => hid hboth.2
  cases op with
  | putPrivate contentId plaintext dek mime filename pinned nonce nowMs =>
    left
    rw [CasHistory.step, change]
    cases sealPrivate crypto history.store contentId plaintext dek nonce with
    | error text => rfl
    | ok cipher =>
      dsimp only
      apply if_neg
      rintro ⟨hside, -⟩
      cases hside
  | putPublic put nowMs => exact hpublic put rfl rfl
  | publishFromPrivate privateContentId dek nowMs =>
    cases hput : publicPut crypto history.store (.publishFromPrivate privateContentId dek nowMs) with
    | none =>
      left
      have hchange : change crypto history.store (.publishFromPrivate privateContentId dek nowMs) = none := by
        unfold change
        dsimp only
        rw [hput]
      rw [CasHistory.step, hchange]
    | some put =>
      apply hpublic put hput
      unfold change
      dsimp only
      rw [hput]
      rfl
  | cacheFetchedPublicCas contentId bytes mime filename nowMs => exact hpublic _ rfl rfl
  | unpublish contentId => exact .inl rfl
  | delete realm contentId =>
    left
    rw [CasHistory.step, change]
    split_ifs with hlength
    · apply if_neg
      rintro ⟨rfl, rfl⟩
      exact hwithdraws (.inr rfl)
    · rfl

theorem Serves.step (h : Serves history id provenance) (hleaves : Leaves crypto id provenance history op) :
    Serves (history.step crypto op) id provenance := by
  obtain ⟨hkept, bytes, key, hheld, hservable⟩ := h
  obtain ⟨hwithdraws, hputs⟩ := hleaves
  constructor
  · rw [store_step, keptAs_step_iff hkept hwithdraws]
    intro put htakes hid
    exact (hputs put htakes hid).1
  · rcases held_step hwithdraws with hsame | ⟨put, htakes, hid, hput⟩
    · exact ⟨bytes, key, hsame.trans hheld, hservable⟩
    · exact ⟨put.publishedBytes, [], hput, (hputs put htakes hid).2⟩

/-- In every history: what is held is got back, unless its public bytes look
sealed; an operation on one realm leaves the other; a kept object stays kept
over an operation exactly if each put of it keeps it, and over a run of such
operations it is served. -/
theorem content_kept (hcipher : crypto.Opens) (h : Reached crypto history) :
    (∀ side id bytes key, history.held side id = some (bytes, key) → history.store.Fits side id →
      crypto.attachmentContentHash bytes = id ∧
        (history.store.get crypto side id key = .ok bytes ↔ ¬ (side = .publicRealm ∧ LooksSealed bytes))) ∧
    (∀ op side, side ≠ op.writes → ∀ id key,
      (history.store.step crypto op).get crypto side id key = history.store.get crypto side id key ∧
        (history.store.step crypto op).lookup side id = history.store.lookup side id) ∧
    (∀ op id provenance, history.store.KeptAs id provenance → ¬ op.Withdraws id →
      ((history.store.step crypto op).KeptAs id provenance ↔
        ∀ put, Takes crypto history.store op put → put.contentId = id → put.KeepsAs provenance)) ∧
    ∀ ops id provenance, Serves history id provenance →
      Admits (step crypto) (Leaves crypto id provenance) history ops →
      ∀ after ∈ states (step crypto) history ops, after.store.KeptAs id provenance ∧
        ∃ bytes, after.store.loadPinnedPublicCasBytes id = .ok bytes ∧ crypto.attachmentContentHash bytes = id := by
  refine ⟨?_, ?_, ?_, ?_⟩
  · intro side id bytes key hheld hfits
    have hstored := h.sound side id bytes key hheld
    exact ⟨hstored.2.1, hstored.get_iff hcipher hfits⟩
  · intro op side hside id key
    obtain ⟨hblocks, hrows⟩ := step_other hside
    exact ⟨get_congr (hblocks id) step_profileId, lookup_congr (hrows id)⟩
  · intro op id provenance hkept hwithdraws
    exact keptAs_step_iff hkept hwithdraws
  · intro ops id provenance hserves hops after hafter
    have hstep : ∀ state op, Serves state id provenance ∧ Sound crypto state → Leaves crypto id provenance state op →
        Serves (state.step crypto op) id provenance ∧ Sound crypto (state.step crypto op) := by
      intro state op hstate hleaves
      exact ⟨hstate.1.step hleaves, hstate.2.step⟩
    obtain ⟨hafter, hsound⟩ := hops.invariant hstep ⟨hserves, h.sound⟩ after hafter
    exact ⟨hafter.1, hafter.load hsound⟩

/-! ## A sample -/

/-- A crypto that seals nothing, with a hash that fills up to its size. -/
def sampleCrypto : CasCrypto where
  attachmentContentHash bytes := (bytes ++ List.replicate 32 0).take 32
  bytesToHex bytes := String.ofList (bytes.map fun byte => Char.ofNat (97 + byte.toNat % 16))
  encrypt _ _ plaintext _ := .ok plaintext
  decrypt _ blob _ := .ok blob

def sampleId (bytes : ByteVector) : ByteVector := sampleCrypto.attachmentContentHash bytes

/-- A put of the bytes under their hash. -/
def samplePut (bytes : ByteVector) : PublicPut where
  contentId := sampleId bytes
  publishedBytes := bytes
  mime := "text/plain"
  filename := ""
  publishedFromHex := ""
  pinned := true

def sampleStart : CasHistory := { store := { profileDir := "d", profileId := "p" } }

def sampleHeld (bytes : ByteVector) : CasHistory := sampleStart.step sampleCrypto (.putPublic (samplePut bytes) 0)

/-- The same bytes come from a peer. -/
def sampleFetch (bytes : ByteVector) : CasOp := .cacheFetchedPublicCas (sampleId bytes) bytes "text/plain" "" 0

theorem sampleCrypto_opens : sampleCrypto.Opens := by
  intro nonce dek plaintext aad cipher h
  obtain rfl := Except.ok.inj h
  rfl

theorem reached_sampleHeld (bytes : ByteVector) : Reached sampleCrypto (sampleHeld bytes) := .step (.start "d" "p")

theorem keptAs_sampleHeld : (sampleHeld [1]).store.KeptAs (sampleId [1]) "" := ⟨_, rfl, rfl, rfl⟩

theorem fits_sampleHeld {bytes : ByteVector}
    (hheld : (sampleHeld bytes).store.blocks .publicRealm (sampleId bytes) = some bytes)
    (hlength : bytes.length ≤ kMaxCasBlockFileBytes) : (sampleHeld bytes).store.Fits .publicRealm (sampleId bytes) := by
  intro block hblock
  obtain rfl := Option.mem_unique hheld hblock
  exact hlength

theorem content_kept_sample :
    (sampleHeld [1]).store.get sampleCrypto .publicRealm (sampleId [1]) [] = .ok [1] ∧
    ∃ bytes, ((sampleHeld [1]).step sampleCrypto (sampleFetch [2])).store.loadPinnedPublicCasBytes (sampleId [1]) =
      .ok bytes ∧ sampleCrypto.attachmentContentHash bytes = sampleId [1] := by
  obtain ⟨hget, -, -, hserved⟩ := content_kept sampleCrypto_opens (reached_sampleHeld [1])
  constructor
  · apply (hget .publicRealm (sampleId [1]) [1] [] rfl (fits_sampleHeld rfl (by decide))).2.mpr
    rintro ⟨-, hsealed⟩
    exact absurd hsealed (by decide)
  · have hserves : Serves (sampleHeld [1]) (sampleId [1]) "" :=
      ⟨keptAs_sampleHeld, [1], [], rfl, by decide, by decide⟩
    have hleaves : Leaves sampleCrypto (sampleId [1]) "" (sampleHeld [1]) (sampleFetch [2]) := by
      constructor
      · rintro (h | h) <;> cases h
      · rintro put ⟨hput, -⟩ hid
        obtain rfl := Option.some.inj hput
        exact absurd hid (by decide)
    exact (hserved [sampleFetch [2]] (sampleId [1]) "" hserves ⟨hleaves, trivial⟩ _ foldl_mem_states).2

/-- Public bytes that start with the magic are put and not got back, and a
kept object that comes again from a peer is no longer kept. -/
theorem content_not_kept :
    (¬ ∀ history, Reached sampleCrypto history → ∀ side id bytes key, history.held side id = some (bytes, key) →
      history.store.Fits side id → history.store.get sampleCrypto side id key = .ok bytes) ∧
    ¬ ∀ history, Reached sampleCrypto history → ∀ op id provenance, history.store.KeptAs id provenance →
      ¬ op.Withdraws id → (history.store.step sampleCrypto op).KeptAs id provenance := by
  constructor
  · intro h
    have hheld : (sampleHeld kPpbaMagic).held .publicRealm (sampleId kPpbaMagic) = some (kPpbaMagic, []) := rfl
    have hfits : (sampleHeld kPpbaMagic).store.Fits .publicRealm (sampleId kPpbaMagic) := fits_sampleHeld rfl (by decide)
    have hstored := (reached_sampleHeld kPpbaMagic).sound _ _ _ _ hheld
    have hget := h _ (reached_sampleHeld kPpbaMagic) _ _ _ _ hheld hfits
    exact (hstored.get_iff sampleCrypto_opens hfits).mp hget ⟨rfl, by decide⟩
  · intro h
    have hkept := h _ (reached_sampleHeld [1]) (sampleFetch [1]) _ _ keptAs_sampleHeld (by rintro (h | h) <;> cases h)
    obtain ⟨row, hrow, hpinned, -⟩ := hkept
    obtain rfl := Option.some.inj hrow
    cases hpinned

end CasHistory

end Pbr
