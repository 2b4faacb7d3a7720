import Mathlib.Data.List.Sort
import Mathlib.Logic.Function.Basic
import PpBrowser.Base.Words

/-!
# IPeerSessionStore — the sessions a device keeps with its peers

`IPeerSessionStore.h`, `PeerSessionKey.h`, and what a row means for an
epoch's key. A store is its rows; a row is kept under its own key. Reading
and writing a row does not fail here: the disk under a store is not part of
what the rows mean.
-/

namespace Pbr

/-! ## Rows -/

inductive CryptoChannel where
  | e2e | e2ePublic
  deriving DecidableEq, Repr

/-- Where a public chat's key is held (E027). -/
inductive PublicKeyScope where
  | account | deviceSelf | devicePair | lockedOut
  deriving DecidableEq, Repr

/-- A session with a peer, by identity and channel, and the peer's device
where the session is one of a device pair (M021). -/
structure PeerSessionKey where
  peerIdentityKind : String
  peerIdentityValue : String
  channel : CryptoChannel := .e2e
  peerDevice : String := ""
  deriving DecidableEq, Repr

structure RetiredPskEntry where
  epoch : Nat
  masterPskB64 : String
  retiredAt : Int
  deriving DecidableEq, Repr

structure PeerSessionRecord where
  key : PeerSessionKey
  sessionEpoch : Nat := 1
  masterPskB64 : Option String := none
  pskFingerprint : Option String := none
  retiredPsks : List RetiredPskEntry := []
  keyScope : PublicKeyScope := .account
  threadKemPkB64 : Option String := none
  threadKemSkB64 : Option String := none
  peerThreadKemPkB64 : Option String := none
  lastPskRotateAt : Option Int := none
  pskRotateMsgCount : Nat := 0
  lastRotationId : Option String := none
  /-- The session's id: the hash of the key_init that opened it. -/
  autoKeySessionId : Option String := none
  /-- The key_init of a session opened here, while the peer has not been
  heard under it. -/
  autoKeyInitPending : Option String := none
  /-- The latest signed timestamp of what the peer sent under the session. -/
  autoKeyPeerHeardMs : Option Int := none
  /-- The next send starts the pair's next epoch (D014). -/
  restartPending : Bool := false
  deriving DecidableEq, Repr

/-! ## The store -/

/-- A device's rows, each under its own key. -/
structure PeerSessions where
  row : PeerSessionKey → Option PeerSessionRecord
  keyed : ∀ {key record}, row key = some record → record.key = key

namespace PeerSessions

variable (store : PeerSessions) (key : PeerSessionKey) (record : PeerSessionRecord)

def empty : PeerSessions where
  row _ := none
  keyed h := by simp at h

def load : Option PeerSessionRecord := store.row key

def save : PeerSessions where
  row := Function.update store.row record.key (some record)
  keyed {key found} h := by
    by_cases hk : key = record.key
    · subst hk
      obtain rfl : record = found := by simpa using h
      rfl
    · exact store.keyed (by simpa [hk] using h)

variable {store} {key} {record}

@[simp] theorem load_empty : empty.load key = none := rfl

@[simp] theorem load_save_self (h : record.key = key) : (store.save record).load key = some record := by
  subst h
  exact Function.update_self ..

@[simp] theorem load_save_ne (h : key ≠ record.key) : (store.save record).load key = store.load key :=
  Function.update_of_ne h ..

theorem key_of_load (h : store.load key = some record) : record.key = key := store.keyed h

end PeerSessions

/-! ## An epoch's key -/

/-- The master PSK a row has for an epoch: the current one, or a retired
one. -/
def PeerSessionRecord.resolveMasterPsk (record : PeerSessionRecord) (envelopeEpoch : Nat) :
    Option String :=
  if envelopeEpoch = record.sessionEpoch ∧ record.masterPskB64.isSome then record.masterPskB64
  else (record.retiredPsks.find? (·.epoch = envelopeEpoch)).map (·.masterPskB64)

def PeerSessions.resolveMasterPskForEpoch (store : PeerSessions) (key : PeerSessionKey)
    (envelopeEpoch : Nat) : Option String :=
  (store.load key).bind (·.resolveMasterPsk envelopeEpoch)

/-! ## The retired tail -/

/-- How many retired epochs a row keeps. -/
def kMaxRetiredPskEpochs : Nat := 8

/-- `PskBundleCodec::CapRetiredTail`. -/
def capRetiredTail (retired : List RetiredPskEntry) (activeEpoch : Nat) : List RetiredPskEntry :=
  let kept := (retired.filter fun entry => ¬ entry.epoch ≥ activeEpoch).insertionSort
    fun a b => a.epoch ≤ b.epoch
  if kept.length ≤ kMaxRetiredPskEpochs then kept else kept.drop (kept.length - kMaxRetiredPskEpochs)

/-- Retired epochs are distinct and below the active one. -/
structure PeerSessionRecord.SoundTail (record : PeerSessionRecord) : Prop where
  below : ∀ entry ∈ record.retiredPsks, entry.epoch < record.sessionEpoch
  distinct : (record.retiredPsks.map (·.epoch)).Nodup

end Pbr
