import PpBrowser.Delivery.IPeerSessionStore

/-!
# E2ePublicSessionLogic — the session of a public chat

`E2ePublicSessionLogic.cpp`: a pair's session is opened for a first send,
followed when the peer opens one, and restarted at a later epoch when this
device has lost its numbering (D014).
-/

namespace Pbr

/-- What the session code calls and does not define: base64, the generic
hash, and the account KEM. -/
structure PairCrypto where
  base64Encode : ByteVector → String
  base64Decode : String → Roe ByteVector
  genericHash : ByteVector → ByteVector
  bytesToHex : ByteVector → String
  /-- `AutoKeyEstablishment::DeriveMasterPskFromKeyInit`. -/
  deriveMasterPskFromKeyInit : ByteVector → String → Roe ByteVector

structure AutoKeyEncapsulation where
  masterPsk : ByteVector
  keyInitB64 : String
  deriving DecidableEq, Repr

structure E2ePublicPskEnsureResult where
  masterPsk : ByteVector
  /-- The key_init to attach to this send. -/
  keyInitB64 : Option String := none
  created : Bool := false
  deriving DecidableEq, Repr

/-- Which session an envelope was read under. -/
structure AutoKeyRead where
  masterPsk : ByteVector
  /-- Read under the session the envelope's key_init opens. -/
  viaKeyInit : Bool := false
  deriving DecidableEq, Repr

/-- A key_init that is there and not empty. -/
def attached : Option String → Option String
  | some keyInit => if keyInit = "" then none else some keyInit
  | none => none

section Logic

variable (C : PairCrypto) (store : PeerSessions) (targetKey : PeerSessionKey)

def autoKeySessionId (keyInitB64 : String) : String :=
  C.bytesToHex (C.genericHash (stringBytes keyInitB64))

/-! ## Opening -/

/-- The row with the session just opened in it: what it holds besides is
kept. -/
def openedRow (sessionEpoch : Nat) (established : AutoKeyEncapsulation) : PeerSessionRecord :=
  { (store.load targetKey).getD { key := targetKey } with
    key := targetKey
    sessionEpoch
    masterPskB64 := some (C.base64Encode established.masterPsk)
    autoKeySessionId := some (autoKeySessionId C established.keyInitB64)
    autoKeyInitPending := some established.keyInitB64 }

/-- The key_init to attach under a key the row has: its own, while the peer
has not been heard under it. -/
def pendingKeyInit (sessionEpoch : Nat) : Option String :=
  match store.load targetKey with
  | some record => if record.sessionEpoch = sessionEpoch then record.autoKeyInitPending else none
  | none => none

/-- `EnsureE2ePublicMasterPsk`. The peer's KEM key is asked for only when a
session has to be opened; `encapsulateForRecipient` answers with what this
call draws. -/
def ensureE2ePublicMasterPsk (sessionEpoch : Nat) (peerKemPublic : Roe ByteVector)
    (encapsulateForRecipient : ByteVector → Roe AutoKeyEncapsulation) :
    Roe (E2ePublicPskEnsureResult × PeerSessions) :=
  if targetKey.channel ≠ .e2ePublic then .error "EnsureE2ePublicMasterPsk requires e2e_public"
  else
    match store.resolveMasterPskForEpoch targetKey sessionEpoch with
    | some existing => do
      let masterPsk ← C.base64Decode existing
      return ({ masterPsk, keyInitB64 := pendingKeyInit store targetKey sessionEpoch }, store)
    | none => do
      let peerPublic ← peerKemPublic
      if peerPublic = [] then throw "Peer KEM public key required"
      let established ← encapsulateForRecipient peerPublic
      return ({ masterPsk := established.masterPsk, keyInitB64 := some established.keyInitB64
                created := true },
        store.save (openedRow C store targetKey sessionEpoch established))

/-! ## Reading -/

namespace PeerSessionRecord

variable (record : PeerSessionRecord)

/-- `note_heard`: the row with the peer heard at this time, if that is
later. -/
def noteHeard (timestampMs : Int) : Option PeerSessionRecord :=
  match record.autoKeyPeerHeardMs with
  | some heard =>
    if timestampMs > heard then some { record with autoKeyPeerHeardMs := some timestampMs } else none
  | none => some { record with autoKeyPeerHeardMs := some timestampMs }

/-- The row moved to the session a key_init opened. -/
def follow (sessionEpoch : Nat) (masterPsk : ByteVector) (keyInit : String) (timestampMs : Int) :
    PeerSessionRecord :=
  { record with
    sessionEpoch
    masterPskB64 := some (C.base64Encode masterPsk)
    autoKeySessionId := some (Pbr.autoKeySessionId C keyInit)
    autoKeyInitPending := none
    autoKeyPeerHeardMs := some timestampMs }

/-- The row with its current key, if it has one, retired at `epoch`. -/
def retire (epoch : Nat) (retiredAt : Int) : PeerSessionRecord :=
  match record.masterPskB64 with
  | some masterPskB64 =>
    { record with retiredPsks := record.retiredPsks ++ [{ epoch, masterPskB64, retiredAt }] }
  | none => record

/-- A session opened here that the peer has not been heard under, of a lower
id than `theirs`. -/
def winsTie (theirs : String) : Bool :=
  match record.autoKeySessionId with
  | some ours => record.autoKeyInitPending.isSome && ours < theirs
  | none => false

/-- The peer has since written under the stored session. -/
def heardSince (timestampMs : Int) : Bool :=
  match record.autoKeyPeerHeardMs with
  | some heard => timestampMs ≤ heard
  | none => false

end PeerSessionRecord

/-- What an envelope read under the stored session leaves: the peer has it,
and a session opened here is confirmed. -/
def confirmed (record : PeerSessionRecord) (timestampMs : Int) : Option PeerSessionRecord :=
  match record.noteHeard timestampMs, record.autoKeyInitPending with
  | some heard, some _ => some { heard with autoKeyInitPending := none }
  | some heard, none => some heard
  | none, some _ => some { record with autoKeyInitPending := none }
  | none, none => none

/-- What an envelope read under its own key_init leaves, in the epoch of the
row or of a row without a key. -/
def followed (record : PeerSessionRecord) (sessionEpoch : Nat) (masterPsk : ByteVector)
    (keyInit : String) (timestampMs : Int) : Option PeerSessionRecord :=
  let theirs := autoKeySessionId C keyInit
  if record.masterPskB64.isSome ∧ record.autoKeySessionId = some theirs then
    record.noteHeard timestampMs  -- already ours
  else if record.masterPskB64.isSome ∧ record.winsTie theirs then
    none  -- both opened at once; the peer moves to ours
  else if record.masterPskB64.isSome ∧ record.heardSince timestampMs then
    none  -- an opener older than what the peer wrote since
  else
    some (record.follow C sessionEpoch masterPsk keyInit timestampMs)

/-- The row an envelope leaves, where it changes it. -/
def reconciledRow (sessionEpoch : Nat) (read : AutoKeyRead) (envelopeKeyInitB64 : Option String)
    (timestampMs : Int) : Option PeerSessionRecord :=
  let loaded := store.load targetKey
  let record := loaded.getD { key := targetKey, sessionEpoch }
  let current := loaded.isSome ∧ record.masterPskB64.isSome
  if current ∧ record.sessionEpoch > sessionEpoch then
    none  -- an earlier epoch (retired)
  else if current ∧ record.sessionEpoch < sessionEpoch then
    -- the peer started the pair's next epoch with a session it opened
    if read.viaKeyInit then
      (attached envelopeKeyInitB64).map fun keyInit =>
        (record.retire record.sessionEpoch timestampMs).follow C sessionEpoch read.masterPsk keyInit
          timestampMs
    else none
  else if ¬ read.viaKeyInit then
    confirmed record timestampMs
  else
    (attached envelopeKeyInitB64).bind fun keyInit =>
      followed C record sessionEpoch read.masterPsk keyInit timestampMs

def reconcileE2ePublicSession (sessionEpoch : Nat) (read : AutoKeyRead)
    (envelopeKeyInitB64 : Option String) (timestampMs : Int) : PeerSessions :=
  match reconciledRow C store targetKey sessionEpoch read envelopeKeyInitB64 timestampMs with
  | some record => store.save record
  | none => store

/-! ## Restarting -/

/-- What a restart leaves of a row: no current session. -/
def restartedRow (record : PeerSessionRecord) (oldEpoch newEpoch : Nat) (nowMs : Int) :
    PeerSessionRecord :=
  { (if oldEpoch < newEpoch then record.retire oldEpoch nowMs else record) with
    sessionEpoch := newEpoch
    masterPskB64 := none
    pskFingerprint := none
    autoKeySessionId := none
    autoKeyInitPending := none
    autoKeyPeerHeardMs := none
    restartPending := false }

def restartE2ePublicSession (oldEpoch newEpoch : Nat) (nowMs : Int) : PeerSessions :=
  match store.load targetKey with
  | some record => store.save (restartedRow record oldEpoch newEpoch nowMs)
  | none => store

end Logic

end Pbr
