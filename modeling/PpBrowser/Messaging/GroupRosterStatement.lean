import PpBrowser.Messaging.GroupChange

/-!
# GroupRosterStatement — the owner-signed roster

`GroupRosterStatement.cpp`: the bytes an owner signs, `Verify` with its
structural checks (`checkStructure`), and which statement wins
(`ownerHandedOn`, `pick`).
-/

namespace Pbr

namespace GroupRosterStatement

/-! ## Signed bytes -/

def kStatementTag : String := "pp-browser:group-roster-statement-v3"
def kDissolvedTag : String := "pp-browser:group-dissolved-v3"
def kTransferTag : String := "pp-browser:group-owner-transfer-v1"

def memberRoleToString : MemberRole → String
  | .owner => "owner"
  | .admin => "admin"
  | .member => "member"

def groupPresetToString : GroupPreset → String
  | .open_ => "open"
  | .managed => "managed"

def putMember (m : GroupRosterStatementMember) : ByteVector :=
  putString m.identity ++ putString (memberRoleToString m.role) ++ putUInt (castUInt m.joinedAt) ++
    putString m.addedBy

def putRemoved (r : GroupRemovedMember) : ByteVector :=
  putString r.identity ++ putString r.removal ++ putString r.removedBy

def putLink (l : GroupInviteLink) : ByteVector :=
  putString l.linkId ++ putString l.secretHash ++ putString l.maker ++
    putUInt (castUInt l.expiresAt) ++ putUInt l.maxUses ++ putUInt l.uses

def putFolded (f : GroupFoldedChange) : ByteVector := putString f.id ++ putUInt f.baseEpoch

/-- A list's length, then its rows. -/
def putRows {α : Type} (put : α → ByteVector) (rows : List α) : ByteVector :=
  putUInt rows.length ++ rows.flatMap put

/-- `SortLists`: every list by its key. -/
def sortLists (s : GroupRosterStatement) : GroupRosterStatement :=
  { s with
    members := s.members.insertionSort (·.identity ≤ ·.identity)
    removed := s.removed.insertionSort (·.identity ≤ ·.identity)
    links := s.links.insertionSort (·.linkId ≤ ·.linkId)
    folded := s.folded.insertionSort (·.id ≤ ·.id) }

/-- The bytes the owner signs; the owner chain is not among them. -/
def signBytes (s : GroupRosterStatement) : ByteVector :=
  let sorted := s.sortLists
  putString (if s.dissolved then kDissolvedTag else kStatementTag) ++ putString sorted.groupId ++
    putUInt sorted.rosterEpoch ++ putString sorted.ownerIdentity ++
    putRows putMember sorted.members ++ putString (groupPresetToString sorted.preset) ++
    putString sorted.title ++ putUInt sorted.titleVersion ++ putRows putRemoved sorted.removed ++
    putRows putLink sorted.links ++ putRows putFolded sorted.folded ++
    putUInt sorted.changeFloorEpoch

/-- The bytes a transferring owner signs. -/
def transferSignBytes (groupId : String) (t : GroupOwnerTransfer) : ByteVector :=
  putString kTransferTag ++ putString groupId ++ putString t.fromIdentity ++
    putString t.toIdentity ++ putUInt t.rosterEpoch

/-! ## Verify -/

/-- `AllUnique`: no key empty or repeated. -/
def allUnique (keys : List String) : Bool := (∀ k ∈ keys, k ≠ "") ∧ keys.Nodup

/-- Members unique, and one of them, the signer, the owner. -/
def checkMembers (s : GroupRosterStatement) : Roe Unit :=
  if !allUnique (s.members.map (·.identity)) then
    .error "roster statement: empty or repeated member"
  else
    let owners := s.members.filter (·.role = .owner)
    if owners.length = 1 ∧ owners.all (·.identity = s.ownerIdentity) then .ok ()
    else .error "roster statement: its signer must be its one owner"

/-- The lists a fold writes. -/
def checkLists (s : GroupRosterStatement) : Roe Unit :=
  if !allUnique (s.removed.map (·.identity)) then
    .error "roster statement: empty or repeated removed account"
  else if s.removed.any (fun r => s.lists r.identity) then
    .error "roster statement: a removed account is also a member"
  else if !allUnique (s.links.map (·.linkId)) then
    .error "roster statement: empty or repeated link id"
  else if !allUnique (s.folded.map (·.id)) then
    .error "roster statement: empty or repeated folded change"
  else if s.changeFloorEpoch > s.rosterEpoch then
    .error "roster statement: change floor above its epoch"
  else if s.folded.any (·.baseEpoch < s.changeFloorEpoch) then
    .error "roster statement: a folded change below the change floor"
  else .ok ()

/-- What `Verify` checks before any signature. -/
def checkStructure (s : GroupRosterStatement) : Roe Unit :=
  if s.groupId = "" ∨ s.ownerIdentity = "" then
    .error "roster statement: missing group or owner"
  else do
    s.checkMembers
    s.checkLists

def checkSignature (K : GroupCrypto) (identity publicKeyB64 : String) (bytes : ByteVector)
    (signatureB64 : String) : Roe Unit :=
  match K.base64Decode publicKeyB64 with
  | none => .error ("roster statement: bad key for " ++ identity)
  | some key =>
    if K.accountIdFromMlDsaPublicKey key ≠ some identity then
      .error ("roster statement: key is not " ++ identity ++ "'s")
    else
      match K.base64Decode signatureB64 with
      | none => .error "roster statement: bad signature encoding"
      | some signature =>
        if K.mlDsaVerify key bytes signature = some true then .ok ()
        else .error ("roster statement: signature does not verify for " ++ identity)

/-- The transfers left of the chain, after one that ended at `lastTo`
(none at its start) and took effect at `lastEpoch`. -/
def checkChain (K : GroupCrypto) (groupId : String) (rosterEpoch : Nat) :
    Option String → Nat → List GroupOwnerTransfer → Roe Unit
  | _, _, [] => .ok ()
  | lastTo, lastEpoch, t :: rest =>
    if lastTo.any (t.fromIdentity ≠ ·) then .error "roster statement: owner chain is broken"
    else if t.rosterEpoch ≤ lastEpoch ∨ t.rosterEpoch > rosterEpoch then
      .error "roster statement: owner chain epochs out of order"
    else do
      checkSignature K t.fromIdentity t.fromPublicKeyB64 (transferSignBytes groupId t)
        t.signatureB64
      checkChain K groupId rosterEpoch (some t.toIdentity) t.rosterEpoch rest

/-- Valid for a device that knows `knownOwner` (empty: knows none). -/
def verify (K : GroupCrypto) (s : GroupRosterStatement) (knownOwner : String) : Roe Unit := do
  s.checkStructure
  checkSignature K s.ownerIdentity s.ownerPublicKeyB64 s.signBytes s.ownerSignatureB64
  checkChain K s.groupId s.rosterEpoch none 0 s.ownerChain
  if s.ownerChain.getLast?.any (·.toIdentity ≠ s.ownerIdentity) then
    .error "roster statement: owner chain does not end at its owner"
  else if knownOwner = "" ∨ knownOwner = s.ownerIdentity ∨
      s.ownerChain.any (·.fromIdentity = knownOwner) then .ok ()
  else
    .error ("roster statement: signed by " ++ s.ownerIdentity ++ ", not by the owner we know (" ++
      knownOwner ++ ") or one it handed the group to")

/-! ## Which statement wins -/

/-- `candidate`'s owner had handed the group on by the candidate's epoch, as
far as the transfers `known` tell. -/
def ownerHandedOn (known : List GroupOwnerTransfer) (candidate : GroupRosterStatement) : Bool :=
  known.any fun away =>
    away.fromIdentity = candidate.ownerIdentity ∧ away.rosterEpoch ≤ candidate.rosterEpoch ∧
    ¬ known.any fun again =>
      again.toIdentity = candidate.ownerIdentity ∧ again.rosterEpoch > away.rosterEpoch ∧
      again.rosterEpoch ≤ candidate.rosterEpoch

def pickStep (known : List GroupOwnerTransfer) (best : Option GroupRosterStatement)
    (s : GroupRosterStatement) : Option GroupRosterStatement :=
  if ownerHandedOn known s then best
  else if best.all (s.rosterEpoch > ·.rosterEpoch) then some s else best

/-- The statement to adopt among valid ones. -/
def pick (valid : List GroupRosterStatement) : Option GroupRosterStatement :=
  valid.foldl (pickStep (valid.flatMap (·.ownerChain))) none

/-! ## What the structural checks give -/

theorem allUnique_iff {keys : List String} : allUnique keys = true ↔ (∀ k ∈ keys, k ≠ "") ∧ keys.Nodup := by
  simp [allUnique]

variable {s : GroupRosterStatement}

theorem lists_iff {identity : String} : s.lists identity = true ↔ ∃ m ∈ s.members, m.identity = identity := by
  simp [lists]

/-- A statement that passes the structural checks. -/
structure Structured (s : GroupRosterStatement) : Prop where
  groupId : s.groupId ≠ ""
  ownerIdentity : s.ownerIdentity ≠ ""
  identities : ∀ m ∈ s.members, m.identity ≠ ""
  members : (s.members.map (·.identity)).Nodup
  ownerRow : ∃ m ∈ s.members, m.role = .owner
  owner : ∀ m ∈ s.members, m.role = .owner → m.identity = s.ownerIdentity
  removedIds : ∀ r ∈ s.removed, r.identity ≠ ""
  removed : (s.removed.map (·.identity)).Nodup
  removedOut : ∀ r ∈ s.removed, ∀ m ∈ s.members, m.identity ≠ r.identity
  linkIds : ∀ l ∈ s.links, l.linkId ≠ ""
  links : (s.links.map (·.linkId)).Nodup
  foldedIds : ∀ f ∈ s.folded, f.id ≠ ""
  folded : (s.folded.map (·.id)).Nodup
  floor : s.changeFloorEpoch ≤ s.rosterEpoch
  aboveFloor : ∀ f ∈ s.folded, s.changeFloorEpoch ≤ f.baseEpoch

theorem owners_iff (hn : (s.members.map (·.identity)).Nodup) : ((s.members.filter (·.role = .owner)).length = 1 ∧
      (s.members.filter (·.role = .owner)).all (·.identity = s.ownerIdentity) = true) ↔
    (∃ m ∈ s.members, m.role = .owner) ∧ ∀ m ∈ s.members, m.role = .owner → m.identity = s.ownerIdentity := by
  constructor
  · rintro ⟨h1, hall⟩
    rw [List.all_eq_true] at hall
    refine ⟨?_, fun m hm hr => ?_⟩
    · obtain ⟨m, hm⟩ := List.exists_mem_of_length_pos (by omega :
        0 < (s.members.filter (·.role = .owner)).length)
      simp only [List.mem_filter, decide_eq_true_eq] at hm
      exact ⟨m, hm⟩
    · have hm' : m ∈ s.members.filter (·.role = .owner) := by simp [hm, hr]
      simpa using hall m hm'
  · rintro ⟨⟨m, hm, hr⟩, hall⟩
    have hnd : ((s.members.filter (·.role = .owner)).map (·.identity)).Nodup :=
      hn.sublist (List.filter_sublist.map _)
    refine ⟨?_, ?_⟩
    · -- distinct identities, all the owner's: at most one row
      have hm' : m ∈ s.members.filter (·.role = .owner) := by simp [hm, hr]
      have hpos := List.length_pos_of_mem hm'
      have hle : ((s.members.filter (·.role = .owner)).map (·.identity)).length ≤ 1 := by
        rw [show (1 : Nat) = [s.ownerIdentity].length from rfl]
        refine (List.subperm_of_subset hnd fun i hi => ?_).length_le
        obtain ⟨m', hm', rfl⟩ := List.mem_map.mp hi
        simp only [List.mem_filter, decide_eq_true_eq] at hm'
        simp [hall m' hm'.1 hm'.2]
      rw [List.length_map] at hle
      omega
    · rw [List.all_eq_true]
      intro m' hm'
      simp only [List.mem_filter, decide_eq_true_eq] at hm'
      simpa using hall m' hm'.1 hm'.2

theorem checkMembers_iff : s.checkMembers = .ok () ↔
      ((∀ m ∈ s.members, m.identity ≠ "") ∧ (s.members.map (·.identity)).Nodup) ∧ (∃ m ∈ s.members, m.role = .owner) ∧
          ∀ m ∈ s.members, m.role = .owner → m.identity = s.ownerIdentity := by
  unfold checkMembers
  cases hu : allUnique (s.members.map (·.identity)) with
  | false =>
    refine ⟨fun h => (by simp at h), fun h => ?_⟩
    rw [show allUnique (s.members.map (·.identity)) = true from
      allUnique_iff.mpr ⟨by simpa using h.1.1, h.1.2⟩] at hu
    cases hu
  | true =>
    obtain ⟨hne, hn⟩ := allUnique_iff.mp hu
    have hiff := owners_iff (s := s) hn
    have hne : ∀ m ∈ s.members, m.identity ≠ "" := by simpa using hne
    simp only [Bool.not_true, Bool.false_eq_true, if_false]
    split
    · next h => exact ⟨fun _ => ⟨⟨hne, hn⟩, hiff.mp h⟩, fun _ => rfl⟩
    · next h => exact ⟨fun hf => (by cases hf), fun hf => absurd (hiff.mpr hf.2) h⟩

theorem checkLists_iff : s.checkLists = .ok () ↔ allUnique (s.removed.map (·.identity)) = true ∧
        (s.removed.any (fun r => s.lists r.identity)) = false ∧
          allUnique (s.links.map (·.linkId)) = true ∧ allUnique (s.folded.map (·.id)) = true ∧
            s.changeFloorEpoch ≤ s.rosterEpoch ∧ (s.folded.any (·.baseEpoch < s.changeFloorEpoch)) = false := by
  unfold checkLists
  split
  · next h => simp_all
  split
  · next h => simp_all
  split
  · next h => simp_all
  split
  · next h => simp_all
  split
  · next h => simp_all
  split
  · next h => simp_all
  · next h₁ h₂ h₃ h₄ h₅ h₆ => simp_all

theorem checkStructure_iff : s.checkStructure = .ok () ↔ s.Structured := by
  have hbind : s.checkStructure = .ok () ↔ ¬ (s.groupId = "" ∨ s.ownerIdentity = "") ∧
      s.checkMembers = .ok () ∧ s.checkLists = .ok () := by
    unfold checkStructure
    split
    · next h => simp [h]
    · next h =>
        cases hm : s.checkMembers with
        | error e => simp
        | ok u => simp [h]
  rw [hbind, checkMembers_iff, checkLists_iff]
  simp only [allUnique_iff, List.mem_map, forall_exists_index, and_imp,
    forall_apply_eq_imp_iff₂, List.any_eq_false, lists_iff, not_or, not_exists, not_and,
    decide_eq_true_eq, not_lt]
  constructor
  · rintro ⟨⟨hg, ho⟩, ⟨⟨h1, h2⟩, h3, h4⟩, ⟨h5, h6⟩, h7, ⟨h8, h9⟩, ⟨h10, h11⟩, h12, h13⟩
    exact ⟨hg, ho, h1, h2, h3, h4, h5, h6, h7, h8, h9, h10, h11, h12, h13⟩
  · rintro ⟨hg, ho, h1, h2, h3, h4, h5, h6, h7, h8, h9, h10, h11, h12, h13⟩
    exact ⟨⟨hg, ho⟩, ⟨⟨h1, h2⟩, h3, h4⟩, ⟨h5, h6⟩, h7, ⟨h8, h9⟩, ⟨h10, h11⟩, h12, h13⟩

end GroupRosterStatement

/-- A statement to run the code on: an owner, two admins and a member. -/
def sampleStatement : GroupRosterStatement :=
  { groupId := "g", rosterEpoch := 1, ownerIdentity := "o"
    members := [{ identity := "a", role := .admin }, { identity := "b", role := .admin },
      { identity := "m" }, { identity := "o", role := .owner }] }

example : sampleStatement.checkStructure = .ok () := by decide

end Pbr
