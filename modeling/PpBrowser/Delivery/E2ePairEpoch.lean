import PpBrowser.Delivery.E2ePublicSessionLogic
import PpBrowser.Lib.Runs

/-!
# E2ePairEpoch — the epoch of a pair over a run

A device opens, reads and restarts a session of one pair in any order. The
pair's epoch goes back just when an opener of an earlier epoch is followed
after a restart has cleared the key, or a session is opened for an epoch
below the row's that has no key left. A retired epoch then need not be below
the active one either.
-/

namespace Pbr

open Lib

/-! ## Runs -/

/-- What happens to a pair's session. -/
inductive PairCall where
  /-- A send; the KEM answers with what this call draws. -/
  | ensure (sessionEpoch : Nat) (peerKemPublic : Roe ByteVector)
      (encapsulateForRecipient : ByteVector → Roe AutoKeyEncapsulation)
  /-- An envelope that was read. -/
  | reconcile (sessionEpoch : Nat) (read : AutoKeyRead) (envelopeKeyInitB64 : Option String)
      (timestampMs : Int)
  /-- `StartNextPairEpochIfRestored`, for a row it has found. -/
  | restart (newEpoch : Nat) (nowMs : Int)

section Calls

variable (C : PairCrypto) (key : PeerSessionKey)

/-- A call that fails leaves the rows as they were. -/
def pairCall (store : PeerSessions) : PairCall → PeerSessions
  | .ensure sessionEpoch peerKemPublic encapsulate =>
    match ensureE2ePublicMasterPsk C store key sessionEpoch peerKemPublic encapsulate with
    | .ok (_, saved) => saved
    | .error _ => store
  | .reconcile sessionEpoch read envelopeKeyInitB64 timestampMs =>
    reconcileE2ePublicSession C store key sessionEpoch read envelopeKeyInitB64 timestampMs
  | .restart newEpoch nowMs =>
    match store.load key with
    | some record => restartE2ePublicSession store key record.sessionEpoch newEpoch nowMs
    | none => store

/-- A pair's epoch; 0 before it has a row. -/
def pairEpoch (store : PeerSessions) : Nat :=
  match store.load key with
  | some record => record.sessionEpoch
  | none => 0

def SoundPair (store : PeerSessions) : Prop := ∀ record, store.load key = some record → record.SoundTail

/-- A restart moves the pair up. -/
def RestartsUp (store : PeerSessions) : PairCall → Prop
  | .restart newEpoch _ => pairEpoch key store < newEpoch
  | _ => True

/-- The session an `ensure` opens, where it opens one. -/
def opens (store : PeerSessions) (sessionEpoch : Nat) (peerKemPublic : Roe ByteVector)
    (encapsulate : ByteVector → Roe AutoKeyEncapsulation) : Option AutoKeyEncapsulation :=
  if key.channel = .e2ePublic ∧ store.resolveMasterPskForEpoch key sessionEpoch = none then
    match peerKemPublic with
    | .ok peerPublic => if peerPublic = [] then none else (encapsulate peerPublic).toOption
    | .error _ => none
  else none

/-- A session is opened for an earlier epoch that has no key, or an opener
of one is read while the row has no key. -/
def GoesBack (store : PeerSessions) : PairCall → Prop
  | .ensure sessionEpoch peerKemPublic encapsulate =>
    sessionEpoch < pairEpoch key store ∧
      (opens key store sessionEpoch peerKemPublic encapsulate).isSome
  | .reconcile sessionEpoch read envelopeKeyInitB64 _ =>
    sessionEpoch < pairEpoch key store ∧ read.viaKeyInit ∧
      (attached envelopeKeyInitB64).isSome ∧
      (store.load key).bind (·.masterPskB64) = none
  | .restart _ _ => False

instance (store : PeerSessions) : ∀ call, Decidable (RestartsUp key store call)
  | .restart newEpoch _ => inferInstanceAs (Decidable (pairEpoch key store < newEpoch))
  | .ensure .. => inferInstanceAs (Decidable True)
  | .reconcile .. => inferInstanceAs (Decidable True)

instance (store : PeerSessions) : ∀ call, Decidable (GoesBack key store call)
  | .ensure sessionEpoch peerKemPublic encapsulate =>
    inferInstanceAs (Decidable (sessionEpoch < pairEpoch key store ∧
      (opens key store sessionEpoch peerKemPublic encapsulate).isSome))
  | .reconcile sessionEpoch read envelopeKeyInitB64 _ =>
    inferInstanceAs (Decidable (sessionEpoch < pairEpoch key store ∧ read.viaKeyInit ∧
      (attached envelopeKeyInitB64).isSome ∧ (store.load key).bind (·.masterPskB64) = none))
  | .restart .. => inferInstanceAs (Decidable False)

/-- The epoch never decreases, and every retired epoch is distinct and below
the active one. -/
structure NeverBack (passed : List PeerSessions) : Prop where
  epochs : passed.Pairwise fun before after => pairEpoch key before ≤ pairEpoch key after
  tails : ∀ store ∈ passed, SoundPair key store

end Calls

/-! ## What one call does -/

section Steps

variable {C : PairCrypto} {key : PeerSessionKey} {store : PeerSessions} {record : PeerSessionRecord}

theorem pairEpoch_of_load (h : store.load key = some record) : pairEpoch key store = record.sessionEpoch := by
  simp [pairEpoch, h]

theorem pairEpoch_save (h : record.key = key) : pairEpoch key (store.save record) = record.sessionEpoch :=
  pairEpoch_of_load (PeerSessions.load_save_self h)

theorem soundPair_save (h : record.key = key) (hsound : record.SoundTail) : SoundPair key (store.save record) := by
  intro saved hsaved
  rw [PeerSessions.load_save_self h] at hsaved
  obtain rfl : record = saved := by simpa using hsaved
  exact hsound

theorem soundTail_getD (hsound : SoundPair key store) {fresh : PeerSessionRecord}
    (hfresh : fresh.retiredPsks = []) : ((store.load key).getD fresh).SoundTail := by
  cases hload : store.load key with
  | none => exact ⟨by simp [hfresh], by simp [hfresh]⟩
  | some record => exact hsound record hload

theorem key_getD (store : PeerSessions) (fresh : PeerSessionRecord) (hfresh : fresh.key = key) :
    ((store.load key).getD fresh).key = key := by
  cases hload : store.load key with
  | none => exact hfresh
  | some record => exact PeerSessions.key_of_load hload

theorem PeerSessionRecord.SoundTail.raise {old new : PeerSessionRecord} (h : old.SoundTail)
    (htail : new.retiredPsks = old.retiredPsks) (hepoch : old.sessionEpoch ≤ new.sessionEpoch) : new.SoundTail where
  below entry hentry := by
    rw [htail] at hentry
    exact Nat.lt_of_lt_of_le (h.below entry hentry) hepoch
  distinct := by
    rw [htail]
    exact h.distinct

/-- The active epoch joins the tail when a later one takes its place. -/
theorem PeerSessionRecord.SoundTail.retire {old new : PeerSessionRecord} (h : old.SoundTail)
    {psk : String} {retiredAt : Int}
    (htail : new.retiredPsks = old.retiredPsks ++ [⟨old.sessionEpoch, psk, retiredAt⟩])
    (hepoch : old.sessionEpoch < new.sessionEpoch) : new.SoundTail where
  below entry hentry := by
    rw [htail] at hentry
    rcases List.mem_append.mp hentry with hentry | hentry
    · exact Nat.lt_trans (h.below entry hentry) hepoch
    · obtain rfl := List.mem_singleton.mp hentry
      exact hepoch
  distinct := by
    rw [htail, List.map_append, List.nodup_append]
    refine ⟨h.distinct, by simp, ?_⟩
    intro epoch hepoch' other hother
    obtain ⟨entry, hentry, rfl⟩ := List.mem_map.mp hepoch'
    obtain rfl : other = old.sessionEpoch := by simpa using hother
    exact Nat.ne_of_lt (h.below entry hentry)

/-! ### Opening -/

variable {sessionEpoch : Nat} {new : PeerSessionRecord} {timestampMs : Int}
  {encapsulate : ByteVector → Roe AutoKeyEncapsulation} {peerKemPublic : Roe ByteVector}
  {keyInit : Option String}

/-- An `ensure` saves the row of the session it opens, and nothing else. -/
theorem pairCall_ensure :
    pairCall C key store (.ensure sessionEpoch peerKemPublic encapsulate) =
      match opens key store sessionEpoch peerKemPublic encapsulate with
      | some established => store.save (openedRow C store key sessionEpoch established)
      | none => store := by
  simp only [pairCall, ensureE2ePublicMasterPsk, opens]
  by_cases hchannel : key.channel = .e2ePublic
  · cases hstored : store.resolveMasterPskForEpoch key sessionEpoch with
    | some existing =>
      cases hpsk : C.base64Decode existing with
      | error e => simp [hchannel, hpsk]
      | ok masterPsk => simp [hchannel, hpsk]
    | none =>
      cases peerKemPublic with
      | error e => simp [hchannel]
      | ok peerPublic =>
        by_cases hempty : peerPublic = []
        · simp [hchannel, hempty]
        · cases hdraw : encapsulate peerPublic with
          | error e => simp [hchannel, hempty, hdraw, Except.toOption]
          | ok established =>
            simp [hchannel, hempty, hdraw, Except.toOption]
  · simp [hchannel]

theorem soundPair_ensure (hsound : SoundPair key store)
    (hback : ¬ GoesBack key store (.ensure sessionEpoch peerKemPublic encapsulate)) :
    let after := pairCall C key store (.ensure sessionEpoch peerKemPublic encapsulate)
    pairEpoch key store ≤ pairEpoch key after ∧ SoundPair key after := by
  rw [pairCall_ensure]
  cases hopens : opens key store sessionEpoch peerKemPublic encapsulate with
  | none => exact ⟨Nat.le_refl _, hsound⟩
  | some established =>
    have hepoch : pairEpoch key store ≤ sessionEpoch := by
      by_contra hlt
      exact hback ⟨by omega, by simp [hopens]⟩
    have hkey : (openedRow C store key sessionEpoch established).key = key := rfl
    refine ⟨?_, soundPair_save hkey ?_⟩
    · show pairEpoch key store ≤ pairEpoch key (store.save _)
      rw [pairEpoch_save hkey]
      exact hepoch
    · cases hload : store.load key with
      | none => exact ⟨by simp [openedRow, hload], by simp [openedRow, hload]⟩
      | some record =>
        rw [pairEpoch_of_load hload] at hepoch
        exact (hsound record hload).raise (by simp [openedRow, hload]) hepoch

/-! ### Reading -/

theorem confirmed_keeps (h : confirmed record timestampMs = some new) :
    new.key = record.key ∧ new.sessionEpoch = record.sessionEpoch ∧ new.retiredPsks = record.retiredPsks := by
  simp only [confirmed, PeerSessionRecord.noteHeard] at h
  grind

theorem noteHeard_keeps (h : record.noteHeard timestampMs = some new) :
    new.key = record.key ∧ new.sessionEpoch = record.sessionEpoch ∧ new.retiredPsks = record.retiredPsks := by
  simp only [PeerSessionRecord.noteHeard] at h
  grind

/-- The three things reading an envelope does to a row: it keeps the epoch,
it retires the active epoch for a later one, or it moves to the envelope's
epoch where the row has no key or is in it already. -/
theorem reconciledRow_cases {read : AutoKeyRead}
    (h : reconciledRow C store key sessionEpoch read keyInit timestampMs = some new) :
    let old := (store.load key).getD { key, sessionEpoch }
    new.key = key ∧
      ((new.sessionEpoch = old.sessionEpoch ∧ new.retiredPsks = old.retiredPsks) ∨
        (old.sessionEpoch < sessionEpoch ∧ new.sessionEpoch = sessionEpoch ∧
          ∃ psk, new.retiredPsks = old.retiredPsks ++ [⟨old.sessionEpoch, psk, timestampMs⟩]) ∨
        (new.sessionEpoch = sessionEpoch ∧ new.retiredPsks = old.retiredPsks ∧
          (sessionEpoch < old.sessionEpoch → old.masterPskB64 = none ∧ read.viaKeyInit ∧
            (attached keyInit).isSome))) := by
  have hkey := key_getD store { key, sessionEpoch } rfl
  have hrow : store.load key = none →
      ((store.load key).getD { key, sessionEpoch }).sessionEpoch = sessionEpoch := by
    intro hload
    simp [hload]
  intro old
  simp only [reconciledRow] at h
  split at h
  · cases h
  rename_i hearlier
  split at h
  · -- the next epoch: only an opener moves the pair there
    rename_i hlater
    split at h
    · obtain ⟨opener, -, rfl⟩ := Option.map_eq_some_iff.mp h
      obtain ⟨psk, hpsk⟩ := Option.isSome_iff_exists.mp hlater.1.2
      refine ⟨?_, .inr (.inl ⟨hlater.2, rfl, psk, ?_⟩)⟩
      · simp [PeerSessionRecord.follow, PeerSessionRecord.retire, hpsk, hkey]
      · simp [PeerSessionRecord.follow, PeerSessionRecord.retire, hpsk, old]
    · cases h
  rename_i hlater
  split at h
  · obtain ⟨hk, hepoch, htail⟩ := confirmed_keeps h
    exact ⟨hk.trans hkey, .inl ⟨hepoch, htail⟩⟩
  rename_i hvia
  obtain ⟨opener, hopener, hfollowed⟩ := Option.bind_eq_some_iff.mp h
  simp only [followed] at hfollowed
  split at hfollowed
  · obtain ⟨hk, hepoch, htail⟩ := noteHeard_keeps hfollowed
    exact ⟨hk.trans hkey, .inl ⟨hepoch, htail⟩⟩
  split at hfollowed
  · cases hfollowed
  split at hfollowed
  · cases hfollowed
  obtain rfl := Option.some.inj hfollowed
  refine ⟨hkey, .inr (.inr ⟨rfl, rfl, ?_⟩)⟩
  intro hlt
  refine ⟨?_, by simpa using hvia, by simp [hopener]⟩
  by_contra hpsk
  -- a row with a key and a later epoch is left alone
  refine hearlier ⟨⟨?_, Option.isSome_iff_ne_none.mpr hpsk⟩, hlt⟩
  by_contra hload
  exact absurd (hrow (by simpa using hload)) (Nat.ne_of_gt hlt)

theorem soundPair_reconcile (hsound : SoundPair key store)
    {read : AutoKeyRead}
    (hback : ¬ GoesBack key store (.reconcile sessionEpoch read keyInit timestampMs)) :
    let after := pairCall C key store (.reconcile sessionEpoch read keyInit timestampMs)
    pairEpoch key store ≤ pairEpoch key after ∧ SoundPair key after := by
  simp only [pairCall, reconcileE2ePublicSession]
  cases hrow : reconciledRow C store key sessionEpoch read keyInit timestampMs with
  | none => exact ⟨Nat.le_refl _, hsound⟩
  | some new =>
    obtain ⟨hkey, hcases⟩ := reconciledRow_cases hrow
    set old := (store.load key).getD { key, sessionEpoch } with hold
    have htail : old.SoundTail := soundTail_getD hsound rfl
    have hle : pairEpoch key store ≤ old.sessionEpoch := by
      cases hload : store.load key with
      | none => simp [pairEpoch, hload]
      | some record => simp [pairEpoch, hload, hold]
    have hnew : pairEpoch key (store.save new) = new.sessionEpoch := pairEpoch_save hkey
    suffices h : old.sessionEpoch ≤ new.sessionEpoch ∧ new.SoundTail from
      ⟨by simpa [hnew] using Nat.le_trans hle h.1, soundPair_save hkey h.2⟩
    rcases hcases with ⟨hepoch, hsame⟩ | ⟨hlt, hepoch, psk, hretired⟩ | ⟨hepoch, hsame, hdown⟩
    · exact ⟨by omega, htail.raise hsame (by omega)⟩
    · exact ⟨by omega, htail.retire hretired (by omega)⟩
    · have hup : old.sessionEpoch ≤ sessionEpoch := by
        by_contra hlt
        obtain ⟨hpsk, hvia, hopener⟩ := hdown (by omega)
        cases hload : store.load key with
        | none =>
          have : old.sessionEpoch = sessionEpoch := by simp [hold, hload]
          omega
        | some record =>
          have hrecord : old = record := by simp [hold, hload]
          refine hback ⟨?_, hvia, hopener, ?_⟩
          · rw [pairEpoch_of_load hload, ← hrecord]
            omega
          · simpa [hload, ← hrecord] using hpsk
      exact ⟨by omega, htail.raise hsame (by omega)⟩

/-! ### Restarting -/

theorem soundPair_restart (hsound : SoundPair key store) {newEpoch : Nat} {nowMs : Int}
    (hup : RestartsUp key store (.restart newEpoch nowMs)) :
    let after := pairCall C key store (.restart newEpoch nowMs)
    pairEpoch key store ≤ pairEpoch key after ∧ SoundPair key after := by
  simp only [pairCall]
  cases hload : store.load key with
  | none => exact ⟨Nat.le_refl _, hsound⟩
  | some record =>
    have hlt : record.sessionEpoch < newEpoch := by
      simpa [RestartsUp, pairEpoch_of_load hload] using hup
    set new := restartedRow record record.sessionEpoch newEpoch nowMs with hnew
    have hepoch : new.sessionEpoch = newEpoch := rfl
    have hafter : restartE2ePublicSession store key record.sessionEpoch newEpoch nowMs =
        store.save new := by simp [restartE2ePublicSession, hload, hnew]
    have hkey : new.key = key := by
      rw [← PeerSessions.key_of_load hload]
      cases hpsk : record.masterPskB64 <;>
        simp [hnew, restartedRow, PeerSessionRecord.retire, hlt, hpsk]
    simp only [hafter]
    refine ⟨?_, soundPair_save hkey ?_⟩
    · rw [pairEpoch_save hkey, pairEpoch_of_load hload]
      omega
    · cases hpsk : record.masterPskB64 with
      | none =>
        refine (hsound record hload).raise ?_ (by omega)
        simp [hnew, restartedRow, PeerSessionRecord.retire, hlt, hpsk]
      | some psk =>
        have htail : new.retiredPsks =
            record.retiredPsks ++ [⟨record.sessionEpoch, psk, nowMs⟩] := by
          simp [hnew, restartedRow, PeerSessionRecord.retire, hlt, hpsk]
        exact (hsound record hload).retire htail (by omega)

/-! ## Whole runs -/

/-- A call that does not go back keeps the epoch from falling and the tail
sound. -/
theorem soundPair_call (hsound : SoundPair key store) {event : PairCall}
    (hup : RestartsUp key store event) (hback : ¬ GoesBack key store event) :
    pairEpoch key store ≤ pairEpoch key (pairCall C key store event) ∧
      SoundPair key (pairCall C key store event) := by
  cases event with
  | ensure sessionEpoch peerKemPublic encapsulate => exact soundPair_ensure hsound hback
  | reconcile sessionEpoch read keyInit timestampMs => exact soundPair_reconcile hsound hback
  | restart newEpoch nowMs => exact soundPair_restart hsound hup

theorem pairEpoch_lt_of_goesBack {event : PairCall} (hback : GoesBack key store event) :
    pairEpoch key (pairCall C key store event) < pairEpoch key store := by
  cases event with
  | ensure sessionEpoch peerKemPublic encapsulate =>
    obtain ⟨hlt, hopens⟩ := hback
    obtain ⟨established, hestablished⟩ := Option.isSome_iff_exists.mp hopens
    rw [pairCall_ensure, hestablished]
    have hkey : (openedRow C store key sessionEpoch established).key = key := rfl
    show pairEpoch key (store.save _) < _
    rw [pairEpoch_save hkey]
    exact hlt
  | reconcile sessionEpoch read keyInit timestampMs =>
    obtain ⟨hlt, hvia, hopener, hpsk⟩ := hback
    obtain ⟨opener, hattached⟩ := Option.isSome_iff_exists.mp hopener
    cases hload : store.load key with
    | none => simp [pairEpoch, hload] at hlt
    | some record =>
      have hpsk : record.masterPskB64 = none := by simpa [hload] using hpsk
      have hrow : reconciledRow C store key sessionEpoch read keyInit timestampMs =
          some (record.follow C sessionEpoch read.masterPsk opener timestampMs) := by
        simp [reconciledRow, hload, hpsk, hvia, hattached, followed]
      have hkey : record.key = key := PeerSessions.key_of_load hload
      simp only [pairCall, reconcileE2ePublicSession, hrow]
      rw [pairEpoch_save (by exact hkey)]
      exact hlt
  | restart newEpoch nowMs => exact hback.elim

theorem neverBack_iff {start : PeerSessions} {calls : List PairCall} :
    NeverBack key (states (pairCall C key) start calls) ↔ Admits (pairCall C key)
          (fun store call => pairEpoch key store ≤ pairEpoch key (pairCall C key store call)) start calls ∧
        ∀ store ∈ states (pairCall C key) start calls, SoundPair key store := by
  let R : PeerSessions → PeerSessions → Prop := fun before after =>
    pairEpoch key before ≤ pairEpoch key after
  have hpairwise : (states (pairCall C key) start calls).Pairwise R ↔
      Admits (pairCall C key) (fun store call => R store (pairCall C key store call)) start calls :=
    pairwise_states_iff Nat.le_trans
  exact ⟨fun h => ⟨hpairwise.mp h.epochs, h.tails⟩, fun h => ⟨hpairwise.mpr h.1, h.2⟩⟩

end Steps

/-- Primitives to run the code on examples: base64 and the hash leave text as
it is, and a key_init is its own key. -/
def samplePairCrypto : PairCrypto where
  base64Encode bytes := String.ofList (bytes.map fun b => Char.ofNat b.toNat)
  base64Decode text := .ok (stringBytes text)
  genericHash bytes := bytes
  bytesToHex bytes := String.ofList (bytes.map fun b => Char.ofNat b.toNat)
  deriveMasterPskFromKeyInit _ keyInit := .ok (stringBytes keyInit)

def samplePair : PeerSessionKey :=
  { peerIdentityKind := "account", peerIdentityValue := "account:bob", channel := .e2ePublic }

/-- A send that draws the session `"a"`. -/
def sampleSend (sessionEpoch : Nat) : PairCall :=
  .ensure sessionEpoch (.ok [1]) fun _ => .ok ⟨stringBytes "a", "a"⟩

/-- An envelope of epoch 1 read under the session `"b"` it opens. -/
def sampleLateOpener : PairCall := .reconcile 1 ⟨stringBytes "b", true⟩ (some "b") 5

end Pbr
