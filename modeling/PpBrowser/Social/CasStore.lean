import Mathlib.Logic.Function.Basic
import PpBrowser.Base.CryptoConstants
import PpBrowser.Base.Words
import PpBrowser.Lib.Runs

/-!
# CasStore — the content store and its index

`CasStore.cpp`, the serve gate and the cache of `CasLibrary.cpp`, and
`SqliteObjectIndex.cpp`. A block is a file at a path told by its realm and id,
and the index has a row for each. Private blocks are sealed behind a magic,
public ones are the bytes. File and index writes do not fail.
-/

namespace Pbr

/-- What the content store calls and does not define. -/
structure CasCrypto where
  /-- `AttachmentContentHash`: BLAKE2b-256 of the plaintext. -/
  attachmentContentHash : ByteVector → ByteVector
  bytesToHex : ByteVector → String
  /-- `FileCipher::Encrypt(dek, plaintext, aad)` with the nonce it draws. -/
  encrypt : ByteVector → ByteVector → ByteVector → String → Roe ByteVector
  /-- `FileCipher::Decrypt(dek, blob, aad)`. -/
  decrypt : ByteVector → ByteVector → String → Roe ByteVector

def kCasContentIdSize : Nat := 32
def kMaxCasBlockFileBytes : Nat := 128 * 1024 * 1024
def kPpbaMagic : ByteVector := stringBytes "PPBA"

inductive CasRealm where
  | privateRealm | publicRealm
  deriving DecidableEq, Repr

structure CasObjectMeta where
  realm : CasRealm
  contentId : ByteVector
  mime : String := ""
  filename : String := ""
  byteLength : Nat := 0
  /-- Hex of the private id it was published from. -/
  publishedFromHex : String := ""
  pinned : Bool := true
  createdAtMs : Int := 0
  deriving DecidableEq, Repr

/-- A text bound by its `c_str()`: up to the first NUL. -/
def cText (text : String) : String := String.ofList (text.toList.takeWhile (· ≠ '\x00'))

structure CasStore where
  profileDir : String
  profileId : String
  blocks : CasRealm → ByteVector → Option ByteVector := fun _ _ => none
  casObjects : CasRealm → ByteVector → Option CasObjectMeta := fun _ _ => none

namespace CasStore

variable (crypto : CasCrypto) (store : CasStore)

/-! ## The index -/

def validateContentId (contentId : ByteVector) : Roe Unit :=
  refuseIf (contentId.length ≠ kCasContentIdSize) "Invalid CAS content id"

def writeRow (realm : CasRealm) (contentId : ByteVector) (row : Option CasObjectMeta) : CasStore :=
  let rows := Function.update (store.casObjects realm) contentId row
  { store with casObjects := Function.update store.casObjects realm rows }

/-- The row as written: a new one is stamped, one that is there keeps its time. -/
def indexRow (row : CasObjectMeta) (nowMs : Int) : CasObjectMeta :=
  let createdAtMs :=
    match store.casObjects row.realm row.contentId with
    | some kept => kept.createdAtMs
    | none => if row.createdAtMs > 0 then row.createdAtMs else nowMs
  { row with
    mime := cText row.mime, filename := cText row.filename, publishedFromHex := cText row.publishedFromHex
    createdAtMs }

/-- All but the time of a row that is there is the new row's. -/
def upsert (row : CasObjectMeta) (nowMs : Int) : CasStore :=
  store.writeRow row.realm row.contentId (some (store.indexRow row nowMs))

def lookup (realm : CasRealm) (contentId : ByteVector) : Roe (Option CasObjectMeta) := do
  validateContentId contentId
  .ok (store.casObjects realm contentId)

def setPinned (realm : CasRealm) (contentId : ByteVector) (pinned : Bool) : CasStore :=
  match store.casObjects realm contentId with
  | some row => store.writeRow realm contentId (some { row with pinned })
  | none => store

/-! ## Blocks -/

/-- The file at a path becomes this, or goes. -/
def setBlock (realm : CasRealm) (contentId : ByteVector) (bytes : Option ByteVector) : CasStore :=
  let files := Function.update (store.blocks realm) contentId bytes
  { store with blocks := Function.update store.blocks realm files }

def writeBlockFile (realm : CasRealm) (contentId bytes : ByteVector) : CasStore :=
  store.setBlock realm contentId (some bytes)

def removeBlockFile (realm : CasRealm) (contentId : ByteVector) : CasStore := store.setBlock realm contentId none

def readBlockFile (realm : CasRealm) (contentId : ByteVector) : Roe ByteVector :=
  match store.blocks realm contentId with
  | none => .error "CAS block not found"
  | some bytes =>
    if bytes.length > kMaxCasBlockFileBytes then .error "CAS block is over the size limit" else .ok bytes

def verifyContentIdMatchesPlaintext (contentId plaintext : ByteVector) : Roe Unit :=
  refuseIf (crypto.attachmentContentHash plaintext ≠ contentId) "CAS content id does not match plaintext hash"

def buildCasPrivateAad (profileId contentIdHex : String) : String :=
  "cas-private|" ++ profileId ++ "|" ++ contentIdHex ++ "|1"

/-- The checks of `PutPrivate` and what it seals. -/
def sealPrivate (contentId plaintext dek nonce : ByteVector) : Roe ByteVector := do
  refuseIf (store.profileDir = "" ∨ store.profileId = "") "CAS private put requires profile_dir and profile_id"
  validateContentId contentId
  refuseIf (plaintext = []) "CAS private plaintext is empty"
  refuseIf (dek.length ≠ kDataEncryptionKeySize) "Invalid DEK size for CAS private put"
  verifyContentIdMatchesPlaintext crypto contentId plaintext
  crypto.encrypt nonce dek plaintext (buildCasPrivateAad store.profileId (crypto.bytesToHex contentId))

def putPrivate (contentId plaintext dek : ByteVector) (mime filename : String) (pinned : Bool) (nonce : ByteVector)
    (nowMs : Int) : CasStore × Roe Unit :=
  match sealPrivate crypto store contentId plaintext dek nonce with
  | .error text => (store, .error text)
  | .ok cipher =>
    let written := store.writeBlockFile .privateRealm contentId (kPpbaMagic ++ cipher)
    (written.upsert { realm := .privateRealm, contentId, mime, filename, byteLength := plaintext.length, pinned } nowMs,
      .ok ())

def getPrivate (contentId dek : ByteVector) : Roe ByteVector := do
  validateContentId contentId
  refuseIf (dek.length ≠ kDataEncryptionKeySize) "Invalid DEK size for CAS private get"
  refuseIf (store.profileId = "") "CAS private get requires profile_id"
  let raw ← store.readBlockFile .privateRealm contentId
  refuseIf (¬ kPpbaMagic.isPrefixOf raw) "CAS private block is not PPBA-wrapped"
  crypto.decrypt dek (raw.drop 4) (buildCasPrivateAad store.profileId (crypto.bytesToHex contentId))

/-- An object put in the public realm. -/
structure PublicPut where
  contentId : ByteVector
  publishedBytes : ByteVector
  mime : String
  filename : String
  publishedFromHex : String
  pinned : Bool

def checkPublic (put : PublicPut) : Roe Unit := do
  refuseIf (store.profileDir = "") "CAS public put requires profile_dir"
  validateContentId put.contentId
  refuseIf (put.publishedBytes = []) "CAS public payload is empty"
  verifyContentIdMatchesPlaintext crypto put.contentId put.publishedBytes

def PublicPut.row (put : PublicPut) : CasObjectMeta where
  realm := .publicRealm
  contentId := put.contentId
  mime := put.mime
  filename := put.filename
  byteLength := put.publishedBytes.length
  publishedFromHex := put.publishedFromHex
  pinned := put.pinned

def putPublic (put : PublicPut) (nowMs : Int) : CasStore × Roe Unit :=
  match checkPublic crypto store put with
  | .error text => (store, .error text)
  | .ok () => ((store.writeBlockFile .publicRealm put.contentId put.publishedBytes).upsert put.row nowMs, .ok ())

def getPublic (contentId : ByteVector) : Roe ByteVector := do
  validateContentId contentId
  let raw ← store.readBlockFile .publicRealm contentId
  refuseIf (kPpbaMagic.isPrefixOf raw) "CAS public block must not be PPBA-wrapped"
  .ok raw

def delete (realm : CasRealm) (contentId : ByteVector) : CasStore × Roe Unit :=
  match validateContentId contentId with
  | .error text => (store, .error text)
  | .ok () => ((store.removeBlockFile realm contentId).writeRow realm contentId none, .ok ())

/-- What `PublishFromPrivate` puts: the plaintext, pinned, under the private row's names. -/
def publication (privateContentId dek : ByteVector) : Roe PublicPut := do
  let plaintext ← getPrivate crypto store privateContentId dek
  let row ← store.lookup .privateRealm privateContentId
  match row with
  | none => .error "Private CAS object not found in index"
  | some row => .ok {
      contentId := crypto.attachmentContentHash plaintext, publishedBytes := plaintext, mime := row.mime
      filename := row.filename, publishedFromHex := crypto.bytesToHex privateContentId, pinned := true }

def publishFromPrivate (privateContentId dek : ByteVector) (nowMs : Int) : CasStore × Roe ByteVector :=
  match publication crypto store privateContentId dek with
  | .error text => (store, .error text)
  | .ok put =>
    match putPublic crypto store put nowMs with
    | (after, .ok ()) => (after, .ok put.contentId)
    | (after, .error text) => (after, .error text)

def unpublish (publicContentId : ByteVector) : CasStore × Roe Unit :=
  match (do
    validateContentId publicContentId
    let row ← store.lookup .publicRealm publicContentId
    refuseIf (row = none) "Public CAS object not found" : Roe Unit) with
  | .error text => (store, .error text)
  | .ok () => (store.setPinned .publicRealm publicContentId false, .ok ())

/-! ## The library -/

/-- The serve gate: pinned public objects only. -/
def loadPinnedPublicCasBytes (contentId : ByteVector) : Roe ByteVector := do
  let row ← store.lookup .publicRealm contentId
  match row with
  | none => .error "Public CAS object not found"
  | some row =>
    if row.pinned then store.getPublic contentId else .error "Public CAS object is not Kept (provide refused)"

/-- A public object fetched from a peer: unpinned. -/
def fetchedPut (contentId bytes : ByteVector) (mime filename : String) : PublicPut where
  contentId
  publishedBytes := bytes
  mime
  filename
  publishedFromHex := ""
  pinned := false

def cacheFetchedPublicCas (contentId bytes : ByteVector) (mime filename : String) (nowMs : Int) : CasStore × Roe Unit :=
  putPublic crypto store (fetchedPut contentId bytes mime filename) nowMs

end CasStore

/-! ## What is put is given back, what is kept stays kept -/

open Lib

namespace CasStore

variable {crypto : CasCrypto} {store : CasStore} {side side' : CasRealm} {contentId id : ByteVector}

/-! ## Writes -/

theorem blocks_setBlock {bytes : Option ByteVector} : (store.setBlock side contentId bytes).blocks side' id =
    if side' = side ∧ id = contentId then bytes else store.blocks side' id := by
  rw [setBlock]
  by_cases hside : side' = side
  · subst hside
    by_cases hid : id = contentId
    · subst hid
      simp
    · simp [hid]
  · simp [hside]

theorem casObjects_writeRow {row : Option CasObjectMeta} : (store.writeRow side contentId row).casObjects side' id =
    if side' = side ∧ id = contentId then row else store.casObjects side' id := by
  rw [writeRow]
  by_cases hside : side' = side
  · subst hside
    by_cases hid : id = contentId
    · subst hid
      simp
    · simp [hid]
  · simp [hside]

variable {nowMs : Int} {pinned : Bool} {put : PublicPut} {op : CasOp}

theorem casObjects_upsert {row : CasObjectMeta} : (store.upsert row nowMs).casObjects side id =
    if side = row.realm ∧ id = row.contentId then some (store.indexRow row nowMs) else store.casObjects side id :=
  casObjects_writeRow

theorem casObjects_setPinned (h : id ≠ contentId ∨ side' ≠ side) :
    (store.setPinned side contentId pinned).casObjects side' id = store.casObjects side' id := by
  rw [setPinned]
  split
  · rw [casObjects_writeRow, if_neg]
    rintro ⟨hside, hid⟩
    rcases h with h | h
    · exact h hid
    · exact h hside
  · rfl

theorem blocks_setPinned : (store.setPinned side contentId pinned).blocks = store.blocks := by
  rw [setPinned]
  split <;> rfl

/-! ## Operations -/

inductive CasOp where
  | putPrivate (contentId plaintext dek : ByteVector) (mime filename : String) (pinned : Bool) (nonce : ByteVector)
      (nowMs : Int)
  | putPublic (put : PublicPut) (nowMs : Int)
  | publishFromPrivate (privateContentId dek : ByteVector) (nowMs : Int)
  | cacheFetchedPublicCas (contentId bytes : ByteVector) (mime filename : String) (nowMs : Int)
  | unpublish (publicContentId : ByteVector)
  | delete (realm : CasRealm) (contentId : ByteVector)

variable (crypto store) in
def step : CasOp → CasStore
  | .putPrivate contentId plaintext dek mime filename pinned nonce nowMs =>
    (putPrivate crypto store contentId plaintext dek mime filename pinned nonce nowMs).1
  | .putPublic put nowMs => (putPublic crypto store put nowMs).1
  | .publishFromPrivate privateContentId dek nowMs => (publishFromPrivate crypto store privateContentId dek nowMs).1
  | .cacheFetchedPublicCas contentId bytes mime filename nowMs =>
    (cacheFetchedPublicCas crypto store contentId bytes mime filename nowMs).1
  | .unpublish publicContentId => (store.unpublish publicContentId).1
  | .delete realm contentId => (store.delete realm contentId).1

/-- The realm an operation writes. -/
def CasOp.writes : CasOp → CasRealm
  | .putPrivate .. => .privateRealm
  | .delete realm _ => realm
  | _ => .publicRealm

variable (crypto store) in
/-- What an operation puts in the public realm if it is taken. -/
def publicPut : CasOp → Option PublicPut
  | .putPublic put _ => some put
  | .publishFromPrivate privateContentId dek _ => (publication crypto store privateContentId dek).toOption
  | .cacheFetchedPublicCas contentId bytes mime filename _ => some (fetchedPut contentId bytes mime filename)
  | _ => none

variable (crypto store) in
def Takes (op : CasOp) (put : PublicPut) : Prop :=
  publicPut crypto store op = some put ∧ checkPublic crypto store put = .ok ()

/-- A taken public put: its block, its row, and nothing else. -/
structure Puts (put : PublicPut) (before after : CasStore) : Prop where
  blocks : ∀ {realm id}, after.blocks realm id =
    if realm = .publicRealm ∧ id = put.contentId then some put.publishedBytes else before.blocks realm id
  rows : ∃ kept : CasObjectMeta, kept.pinned = put.pinned ∧ kept.publishedFromHex = cText put.publishedFromHex ∧
    ∀ {realm id}, after.casObjects realm id =
      if realm = .publicRealm ∧ id = put.contentId then some kept else before.casObjects realm id

theorem putPublic_ok (h : checkPublic crypto store put = .ok ()) :
    Puts put store (putPublic crypto store put nowMs).1 := by
  rw [putPublic, h]
  constructor
  · intro realm id
    exact blocks_setBlock
  · exact ⟨_, rfl, rfl, casObjects_upsert⟩

theorem putPublic_error (h : checkPublic crypto store put ≠ .ok ()) :
    (putPublic crypto store put nowMs).1 = store := by
  rw [putPublic]
  split
  · rfl
  next hok => exact absurd hok h

theorem publishFromPrivate_fst {privateContentId dek : ByteVector}
    (h : publication crypto store privateContentId dek = .ok put) :
    (publishFromPrivate crypto store privateContentId dek nowMs).1 = (putPublic crypto store put nowMs).1 := by
  rw [publishFromPrivate, h]
  dsimp only
  rcases putPublic crypto store put nowMs with ⟨after, _ | _⟩ <;> rfl

theorem step_publicPut (h : publicPut crypto store op = some put) :
    ∃ nowMs, step crypto store op = (putPublic crypto store put nowMs).1 := by
  cases op with
  | putPrivate contentId plaintext dek mime filename pinned nonce nowMs
  | unpublish publicContentId | delete realm contentId => cases h
  | putPublic put nowMs | cacheFetchedPublicCas contentId bytes mime filename nowMs =>
    obtain rfl := Option.some.inj h
    exact ⟨nowMs, rfl⟩
  | publishFromPrivate privateContentId dek nowMs =>
    rw [publicPut] at h
    cases hpublication : publication crypto store privateContentId dek with
    | error text =>
      rw [hpublication] at h
      cases h
    | ok published =>
      rw [hpublication] at h
      obtain rfl := Option.some.inj h
      exact ⟨nowMs, publishFromPrivate_fst hpublication⟩

theorem step_takes (h : Takes crypto store op put) : Puts put store (step crypto store op) := by
  obtain ⟨nowMs, hstep⟩ := step_publicPut h.1
  rw [hstep]
  exact putPublic_ok h.2

/-- A sealed private put: its block, its row, and nothing else. -/
theorem step_putPrivate {plaintext dek nonce cipher : ByteVector} {mime filename : String}
    (h : sealPrivate crypto store contentId plaintext dek nonce = .ok cipher) :
    (∀ {realm id}, (step crypto store (.putPrivate contentId plaintext dek mime filename pinned nonce nowMs)).blocks realm id =
      if realm = .privateRealm ∧ id = contentId then some (kPpbaMagic ++ cipher) else store.blocks realm id) ∧
    ∀ {id}, (step crypto store (.putPrivate contentId plaintext dek mime filename pinned nonce nowMs)).casObjects
      .publicRealm id = store.casObjects .publicRealm id := by
  rw [step, putPrivate, h]
  refine ⟨blocks_setBlock, ?_⟩
  intro id
  exact casObjects_upsert.trans (if_neg fun h => by cases h.1)

theorem step_putPrivate_error {plaintext dek nonce : ByteVector} {mime filename text : String}
    (h : sealPrivate crypto store contentId plaintext dek nonce = .error text) :
    step crypto store (.putPrivate contentId plaintext dek mime filename pinned nonce nowMs) = store := by
  rw [step, putPrivate, h]

/-- A public put that is not taken. -/
theorem step_not_takes (hput : publicPut crypto store op = some put)
    (h : ¬ Takes crypto store op put) : step crypto store op = store := by
  obtain ⟨nowMs, hstep⟩ := step_publicPut hput
  rw [hstep]
  exact putPublic_error fun hok => h ⟨hput, hok⟩

theorem step_publish_error {privateContentId dek : ByteVector}
    (h : publicPut crypto store (.publishFromPrivate privateContentId dek nowMs) = none) :
    step crypto store (.publishFromPrivate privateContentId dek nowMs) = store := by
  rw [publicPut] at h
  rw [step, publishFromPrivate]
  cases hpublication : publication crypto store privateContentId dek with
  | error text => rfl
  | ok put =>
    rw [hpublication] at h
    cases h

variable (crypto) in
theorem step_unpublish : step crypto store (.unpublish contentId) = store ∨
    step crypto store (.unpublish contentId) = store.setPinned .publicRealm contentId false := by
  rw [step, unpublish]
  split
  · exact .inl rfl
  · exact .inr rfl

variable (crypto) in
theorem step_delete : (step crypto store (.delete side contentId) = store ∧ contentId.length ≠ kCasContentIdSize) ∨
    (step crypto store (.delete side contentId) = (store.removeBlockFile side contentId).writeRow side contentId none ∧
      contentId.length = kCasContentIdSize) := by
  rw [step, delete, validateContentId, refuseIf]
  by_cases hlength : contentId.length = kCasContentIdSize
  · rw [if_neg (not_not.mpr hlength)]
    exact .inr ⟨rfl, hlength⟩
  · rw [if_pos hlength]
    exact .inl ⟨rfl, hlength⟩

/-- An operation leaves the realm it does not write as it was. -/
theorem step_other (h : side ≠ op.writes) : (∀ id, (step crypto store op).blocks side id = store.blocks side id) ∧
      ∀ id, (step crypto store op).casObjects side id = store.casObjects side id := by
  have hpublic : ∀ {put}, op.writes = .publicRealm → publicPut crypto store op = some put →
      (∀ id, (step crypto store op).blocks side id = store.blocks side id) ∧
        ∀ id, (step crypto store op).casObjects side id = store.casObjects side id := by
    intro put hwrites hput
    rw [hwrites] at h
    by_cases htakes : Takes crypto store op put
    · have hputs := step_takes htakes
      obtain ⟨kept, -, -, hrows⟩ := hputs.rows
      exact ⟨fun id => hputs.blocks.trans (if_neg fun hboth => h hboth.1),
        fun id => hrows.trans (if_neg fun hboth => h hboth.1)⟩
    · rw [step_not_takes hput htakes]
      exact ⟨fun _ => rfl, fun _ => rfl⟩
  cases op with
  | putPrivate contentId plaintext dek mime filename pinned nonce nowMs =>
    obtain rfl : side = .publicRealm := by
      cases side with
      | privateRealm => exact absurd rfl h
      | publicRealm => rfl
    cases hseal : sealPrivate crypto store contentId plaintext dek nonce with
    | error text =>
      rw [step_putPrivate_error hseal]
      exact ⟨fun _ => rfl, fun _ => rfl⟩
    | ok cipher =>
      obtain ⟨hblocks, hrows⟩ := step_putPrivate hseal
      exact ⟨fun id => hblocks.trans (if_neg fun hboth => by cases hboth.1), fun id => hrows⟩
  | putPublic put nowMs | cacheFetchedPublicCas contentId bytes mime filename nowMs =>
    exact hpublic rfl rfl
  | publishFromPrivate privateContentId dek nowMs =>
    cases hput : publicPut crypto store (.publishFromPrivate privateContentId dek nowMs) with
    | none =>
      rw [step_publish_error hput]
      exact ⟨fun _ => rfl, fun _ => rfl⟩
    | some put => exact hpublic rfl hput
  | unpublish contentId =>
    rcases step_unpublish crypto with hstep | hstep
    · rw [hstep]
      exact ⟨fun _ => rfl, fun _ => rfl⟩
    · rw [hstep, blocks_setPinned]
      exact ⟨fun _ => rfl, fun _ => casObjects_setPinned (.inr h)⟩
  | delete realm contentId =>
    rcases step_delete crypto with ⟨hstep, -⟩ | ⟨hstep, -⟩
    · rw [hstep]
      exact ⟨fun _ => rfl, fun _ => rfl⟩
    · rw [hstep]
      exact ⟨fun _ => blocks_setBlock.trans (if_neg fun hboth => h hboth.1),
        fun _ => casObjects_writeRow.trans (if_neg fun hboth => h hboth.1)⟩

theorem step_profileId : (step crypto store op).profileId = store.profileId := by
  have hput : ∀ {put nowMs}, (putPublic crypto store put nowMs).1.profileId = store.profileId := by
    intro put nowMs
    rw [putPublic]
    split <;> rfl
  cases op with
  | putPrivate contentId plaintext dek mime filename pinned nonce nowMs =>
    rw [step, putPrivate]
    split <;> rfl
  | putPublic put nowMs | cacheFetchedPublicCas contentId bytes mime filename nowMs => exact hput
  | publishFromPrivate privateContentId dek nowMs =>
    cases hpublication : publication crypto store privateContentId dek with
    | error text => rw [step, publishFromPrivate, hpublication]
    | ok put =>
      rw [step, publishFromPrivate_fst hpublication]
      exact hput
  | unpublish contentId =>
    rcases step_unpublish crypto with hstep | hstep
    · rw [hstep]
    · rw [hstep, setPinned]
      split <;> rfl
  | delete realm contentId =>
    rcases step_delete crypto with ⟨hstep, -⟩ | ⟨hstep, -⟩
    · rw [hstep]
    · rw [hstep]
      rfl

theorem validateContentId_ok : validateContentId contentId = .ok () ↔ contentId.length = kCasContentIdSize := by
  rw [validateContentId, refuseIf_ok, not_not]

theorem sealPrivate_ok {plaintext dek nonce cipher : ByteVector}
    (h : sealPrivate crypto store contentId plaintext dek nonce = .ok cipher) :
    store.profileId ≠ "" ∧ contentId.length = kCasContentIdSize ∧ dek.length = kDataEncryptionKeySize ∧
      crypto.attachmentContentHash plaintext = contentId ∧
      crypto.encrypt nonce dek plaintext (buildCasPrivateAad store.profileId (crypto.bytesToHex contentId)) = .ok cipher := by
  simp only [sealPrivate, validateContentId, verifyContentIdMatchesPlaintext, refuseIf_bind_ok, not_or, not_not] at h
  obtain ⟨⟨-, hprofile⟩, hid, -, hdek, hhash, hcipher⟩ := h
  exact ⟨hprofile, hid, hdek, hhash, hcipher⟩

theorem checkPublic_ok (h : checkPublic crypto store put = .ok ()) :
    put.contentId.length = kCasContentIdSize ∧ crypto.attachmentContentHash put.publishedBytes = put.contentId := by
  simp only [checkPublic, validateContentId, verifyContentIdMatchesPlaintext, refuseIf_bind_ok, refuseIf_ok,
    not_not] at h
  exact ⟨h.2.1, h.2.2.2⟩

/-! ## What an operation holds -/

variable (crypto store) in
def publicChange (put : PublicPut) : Option (CasRealm × ByteVector × Option (ByteVector × ByteVector)) :=
  match checkPublic crypto store put with
  | .ok () => some (.publicRealm, put.contentId, some (put.publishedBytes, []))
  | .error _ => none

variable (crypto store) in
/-- The object an operation puts, with the key it is put with, or deletes. -/
def change : CasOp → Option (CasRealm × ByteVector × Option (ByteVector × ByteVector))
  | .putPrivate contentId plaintext dek _ _ _ nonce _ =>
    match sealPrivate crypto store contentId plaintext dek nonce with
    | .ok _ => some (.privateRealm, contentId, some (plaintext, dek))
    | .error _ => none
  | .delete realm contentId => if contentId.length = kCasContentIdSize then some (realm, contentId, none) else none
  | op =>
    match publicPut crypto store op with
    | none => none
    | some put =>
      match checkPublic crypto store put with
      | .ok () => some (.publicRealm, put.contentId, some (put.publishedBytes, []))
      | .error _ => none

variable (crypto store) in
/-- The block of an object put: sealed under the key, or the bytes. -/
def StoredAs (side : CasRealm) (id bytes key : ByteVector) : Prop :=
  id.length = kCasContentIdSize ∧ crypto.attachmentContentHash bytes = id ∧
    match side with
    | .privateRealm => store.profileId ≠ "" ∧ key.length = kDataEncryptionKeySize ∧ ∃ nonce cipher,
        store.blocks .privateRealm id = some (kPpbaMagic ++ cipher) ∧
          crypto.encrypt nonce key bytes (buildCasPrivateAad store.profileId (crypto.bytesToHex id)) = .ok cipher
    | .publicRealm => store.blocks .publicRealm id = some bytes

theorem StoredAs.congr {after : CasStore} {bytes key : ByteVector} (h : StoredAs crypto store side id bytes key)
    (hblock : after.blocks side id = store.blocks side id) (hprofile : after.profileId = store.profileId) :
    StoredAs crypto after side id bytes key := by
  obtain ⟨hlength, hhash, hstored⟩ := h
  refine ⟨hlength, hhash, ?_⟩
  cases side with
  | privateRealm =>
    dsimp only at hstored ⊢
    rw [hblock, hprofile]
    exact hstored
  | publicRealm => exact hblock.trans hstored

/-- An operation changes no block but the one of its object. -/
def Changes (crypto : CasCrypto) (before after : CasStore) :
    Option (CasRealm × ByteVector × Option (ByteVector × ByteVector)) → Prop
  | none => ∀ side id, after.blocks side id = before.blocks side id
  | some (side, id, value) =>
    (∀ side' id', ¬ (side' = side ∧ id' = id) → after.blocks side' id' = before.blocks side' id') ∧
      ∀ bytes key, value = some (bytes, key) → StoredAs crypto after side id bytes key

theorem changes_publicPut (hput : publicPut crypto store op = some put) :
    Changes crypto store (step crypto store op) (publicChange crypto store put) := by
  rw [publicChange]
  cases hcheck : checkPublic crypto store put with
  | error text =>
    have hnot : ¬ Takes crypto store op put := by
      rintro ⟨-, hok⟩
      rw [hcheck] at hok
      cases hok
    rw [step_not_takes hput hnot]
    exact fun _ _ => rfl
  | ok _ =>
    have hputs := step_takes ⟨hput, hcheck⟩
    obtain ⟨hlength, hhash⟩ := checkPublic_ok hcheck
    refine ⟨fun side' id' hne => hputs.blocks.trans (if_neg hne), ?_⟩
    rintro bytes key ⟨⟩
    exact ⟨hlength, hhash, hputs.blocks.trans (if_pos ⟨rfl, rfl⟩)⟩

theorem changes_step (op : CasOp) : Changes crypto store (step crypto store op) (change crypto store op) := by
  cases op with
  | putPrivate contentId plaintext dek mime filename pinned nonce nowMs =>
    rw [change]
    cases hseal : sealPrivate crypto store contentId plaintext dek nonce with
    | error text =>
      rw [step_putPrivate_error hseal]
      exact fun _ _ => rfl
    | ok cipher =>
      have hblocks : ∀ {side id}, (step crypto store
          (.putPrivate contentId plaintext dek mime filename pinned nonce nowMs)).blocks side id = _ :=
        (step_putPrivate hseal).1
      obtain ⟨hprofile, hlength, hdek, hhash, hcipher⟩ := sealPrivate_ok hseal
      refine ⟨fun side' id' hne => hblocks.trans (if_neg hne), ?_⟩
      rintro bytes key ⟨⟩
      refine ⟨hlength, hhash, ?_⟩
      dsimp only
      rw [step_profileId]
      exact ⟨hprofile, hdek, nonce, cipher, hblocks.trans (if_pos ⟨rfl, rfl⟩), hcipher⟩
  | putPublic put nowMs | cacheFetchedPublicCas contentId bytes mime filename nowMs =>
    exact changes_publicPut rfl
  | publishFromPrivate privateContentId dek nowMs =>
    unfold change
    dsimp only
    cases hput : publicPut crypto store (.publishFromPrivate privateContentId dek nowMs) with
    | none =>
      rw [step_publish_error hput]
      exact fun _ _ => rfl
    | some put => exact changes_publicPut hput
  | unpublish contentId =>
    rcases step_unpublish crypto with hstep | hstep
    · rw [hstep]
      exact fun _ _ => rfl
    · rw [hstep]
      intro side id
      rw [blocks_setPinned]
  | delete realm contentId =>
    rw [change]
    rcases step_delete crypto with ⟨hstep, hlength⟩ | ⟨hstep, hlength⟩
    · rw [hstep, if_neg hlength]
      exact fun _ _ => rfl
    · rw [hstep, if_pos hlength]
      exact ⟨fun side' id' hne => blocks_setBlock.trans (if_neg hne), fun bytes key h => by cases h⟩

end CasStore

end Pbr
