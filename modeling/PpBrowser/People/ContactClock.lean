import Mathlib.Data.List.Induction
import Mathlib.Data.List.Sort
import Mathlib.Data.String.Basic
import PpBrowser.Lib.NewestWins
import PpBrowser.Lib.Rows

/-!
# ContactClock — each contact's sync register

A device's registers of its contacts (`lib/people/ContactClock.cpp`): noticing
the user's edits, and taking the newer registers of another device with the
rows they stand for. The address book the plan is applied to is the contacts
store's.

Left out: a contact's network addresses and icon.
-/

namespace Pbr

open Lib

inductive ContactIdKind where
  | account | relayUser | peerId
  deriving DecidableEq, Repr

structure ContactId where
  kind : ContactIdKind
  value : String
  primary : Bool := false
  deriving DecidableEq, Repr

inductive TrustLevel where
  | unknown | friendly | blocked
  deriving DecidableEq, Repr

/-- `ContactLocal`: what the user set. -/
structure ContactLocal where
  displayName : String := ""
  trust : TrustLevel := .unknown
  deriving DecidableEq, Repr

/-- `ContactRemote`: what the directory said last. -/
structure ContactRemote where
  nickname : String := ""
  ids : List ContactId := []
  fetchedAt : Int := 0
  deriving DecidableEq, Repr

structure Contact where
  id : String
  localFields : ContactLocal := {}
  remote : ContactRemote := {}
  /-- The mirrors of the two, for callers that read flat fields. -/
  displayName : String := ""
  serverNickname : String := ""
  ids : List ContactId := []
  trust : TrustLevel := .unknown
  deriving DecidableEq, Repr

def syncContactMirrors (contact : Contact) : Contact :=
  { contact with
    displayName := contact.localFields.displayName
    serverNickname := contact.remote.nickname
    ids := contact.remote.ids
    trust := contact.localFields.trust }

/-- The flat fields of a row that has nothing else. -/
def promoteFlatFieldsToNested (contact : Contact) : Contact :=
  if contact.localFields.displayName = "" ∧ contact.remote.nickname = "" ∧ contact.remote.ids = [] ∧
      contact.remote.fetchedAt = 0 then
    { contact with
      localFields := { displayName := contact.displayName, trust := contact.trust }
      remote := { contact.remote with nickname := contact.serverNickname, ids := contact.ids } }
  else contact

/-- The first Account ID with a value; empty when there is none. -/
def firstAccount (ids : List ContactId) : String :=
  match ids.find? fun id => id.kind = .account ∧ id.value ≠ "" with
  | some id => id.value
  | none => ""

/-- Empty for a contact that is not synced. -/
def contactClockAccount (contact : Contact) : String :=
  if firstAccount contact.remote.ids ≠ "" then firstAccount contact.remote.ids
  else firstAccount contact.ids

/-- One contact's register. -/
structure ContactClockEntry where
  accountId : String
  atMs : Int := 0
  present : Bool := true
  digest : String := ""
  deriving DecidableEq, Repr

/-- `ContactClock::Plan`. -/
structure ContactPlan where
  upsert : List Contact := []
  removeContactIds : List String := []

/-! ## The address book -/

/-- `ContactsStore::Upsert`. -/
def upsertContact (contacts : List Contact) (contact : Contact) : List Contact :=
  put (·.id) (syncContactMirrors (promoteFlatFieldsToNested contact)) contacts

/-- `ContactsStore::Remove`. -/
def removeContact (contacts : List Contact) (contactId : String) : List Contact :=
  contacts.eraseP (·.id = contactId)

/-- `TakeRemoteContacts`, once the plan is made. -/
def ContactPlan.apply (plan : ContactPlan) (contacts : List Contact) : List Contact :=
  plan.removeContactIds.foldl removeContact (plan.upsert.foldl upsertContact contacts)

namespace ContactClock

/-- A clock's registers, in the order they were first met. -/
abbrev Entries := List ContactClockEntry

/-- `ContactUserFieldsDigest`: the first half of a BLAKE2b-256 over the JSON
text of the user's fields. -/
abbrev Digest := ContactLocal → String

variable (digest : Digest)

def find (entries : Entries) (accountId : String) : Option ContactClockEntry :=
  rowOf (·.accountId) accountId entries

/-- The accounts in the address book, each with its digest. -/
def presentAccounts (contacts : List Contact) : List (String × String) :=
  contacts.foldl (fun present contact =>
    if contactClockAccount contact ≠ "" then
      putSorted Prod.fst (contactClockAccount contact, digest contact.localFields) present
    else present) []

/-- An account of the address book, met by the clock. -/
def notePresent (nowMs : Int) (state : Bool × Entries) (account : String × String) : Bool × Entries :=
  match find state.2 account.1 with
  | none =>
    (true, put (·.accountId) { accountId := account.1, atMs := nowMs, digest := account.2 } state.2)
  | some entry =>
    if !entry.present ∨ entry.digest ≠ account.2 then
      (true, put (·.accountId)
        { accountId := account.1, atMs := max nowMs (entry.atMs + 1), digest := account.2 } state.2)
    else state

/-- A register whose contact is no longer there. -/
def noteGone (nowMs : Int) (present : List (String × String)) (entry : ContactClockEntry) :
    ContactClockEntry :=
  if entry.present ∧ (rowOf Prod.fst entry.accountId present).isNone then
    { accountId := entry.accountId, atMs := max nowMs (entry.atMs + 1), present := false, digest := "" }
  else entry

/-- Whether a register changed, and the registers. -/
def observe (entries : Entries) (contacts : List Contact) (nowMs : Int) : Bool × Entries :=
  let present := presentAccounts digest contacts
  let (changed, entries) := present.foldl (notePresent nowMs) (false, entries)
  (changed || entries.any (fun entry => noteGone nowMs present entry ≠ entry),
    entries.map (noteGone nowMs present))

/-- The remote row; or this device's, with the user's fields. -/
def takenRow (localRow : Option Contact) (remote : Contact) : Contact :=
  match localRow with
  | none => remote
  | some row => syncContactMirrors { row with localFields := remote.localFields }

/-- A register of another device, met by ours. -/
def takeRemote (remoteContacts localContacts : List Contact) (state : ContactPlan × Entries)
    (theirs : ContactClockEntry) : ContactPlan × Entries :=
  let (plan, entries) := state
  -- ours is as new or newer
  if (find entries theirs.accountId).any (·.atMs ≥ theirs.atMs) then state
  else
    let localRow := rowOf contactClockAccount theirs.accountId localContacts
    if theirs.present then
      match rowOf contactClockAccount theirs.accountId remoteContacts with
      -- an entry without its contact: nothing to put in
      | none => state
      | some remote =>
        let plan :=
          if localRow.all (fun row => digest row.localFields ≠ theirs.digest) then
            { plan with upsert := plan.upsert ++ [takenRow localRow remote] }
          else plan
        (plan, put (·.accountId) theirs entries)
    else
      let plan := match localRow with
        | none => plan
        | some row => { plan with removeContactIds := plan.removeContactIds ++ [row.id] }
      (plan, put (·.accountId) theirs entries)

/-- What a remote set changes here, and the registers after it. -/
def mergeRemote (entries remoteEntries : Entries) (remoteContacts localContacts : List Contact) :
    ContactPlan × Entries :=
  remoteEntries.foldl (takeRemote digest remoteContacts localContacts) ({}, entries)

/-! ## Registers, account by account -/

/-- What the user set on an account's contact, if it is in the address book. -/
def syncedFields (contacts : List Contact) (account : String) : Option ContactLocal :=
  if account = "" then none else (rowOf contactClockAccount account contacts).map (·.localFields)

/-- No account has two contacts. -/
def OneContactEach (contacts : List Contact) : Prop :=
  contacts.Pairwise fun c c' => contactClockAccount c ≠ "" → contactClockAccount c ≠ contactClockAccount c'

/-- The register of an account, changed at `atMs` to what the address book says. -/
def entryOf (accountId : String) (atMs : Int) (fields : Option ContactLocal) : ContactClockEntry where
  accountId := accountId
  atMs := atMs
  present := fields.isSome
  digest := (fields.map digest).getD ""

/-- The user changed the account since its register. -/
def edited (entry : Option ContactClockEntry) (fields : Option ContactLocal) : Bool :=
  match entry, fields with
  | none, fields => fields.isSome
  | some entry, some fields => !entry.present ∨ entry.digest ≠ digest fields
  | some entry, none => entry.present

/-- The time an edit gets: past any the register has had. -/
def editTime (entry : Option ContactClockEntry) (nowMs : Int) : Int :=
  match entry with
  | none => nowMs
  | some entry => max nowMs (entry.atMs + 1)

/-- The digest a register says the contact has, if it says it is there. -/
def shown (entry : Option ContactClockEntry) : Option String :=
  entry.bind fun entry => if entry.present then some entry.digest else none

variable {digest} {entries : Entries} {contacts : List Contact} {account : String} {nowMs : Int}
  {present : List (String × String)} {entry : ContactClockEntry}

theorem rowOf_presentAccounts_foldl (hcontacts : OneContactEach contacts) :
    rowOf Prod.fst account (contacts.foldl (fun present contact =>
      if contactClockAccount contact ≠ "" then
        putSorted Prod.fst (contactClockAccount contact, digest contact.localFields) present
      else present) present) =
    match syncedFields contacts account with
    | some fields => some (account, digest fields)
    | none => rowOf Prod.fst account present := by
  induction contacts generalizing present with
  | nil => simp [syncedFields, rowOf]
  | cons c rest ih =>
    obtain ⟨hc, hrest⟩ := List.pairwise_cons.mp hcontacts
    rw [List.foldl_cons, ih hrest]
    by_cases hnone : contactClockAccount c = ""
    · have hsame : syncedFields (c :: rest) account = syncedFields rest account := by
        by_cases haccount : account = ""
        · simp [syncedFields, haccount]
        · have hne : contactClockAccount c ≠ account := by rw [hnone]; exact Ne.symm haccount
          simp [syncedFields, haccount, rowOf_cons, hne]
      rw [hsame]
      simp [hnone]
    · simp only [hnone, ne_eq, not_false_eq_true, if_true]
      rw [rowOf_putSorted]
      by_cases heq : contactClockAccount c = account
      · -- the rest has no contact of this account
        have hnew : syncedFields rest account = none := by
          rw [syncedFields]
          split
          · rfl
          · have hnot : rowOf contactClockAccount account rest = none := by
              rw [rowOf, List.find?_eq_none]
              intro c' hc'
              have hne := hc c' hc' hnone
              rw [heq] at hne
              simpa using Ne.symm hne
            simp [hnot]
        have haccount : account ≠ "" := heq ▸ hnone
        have hself : syncedFields (c :: rest) account = some c.localFields := by
          simp [syncedFields, haccount, rowOf_cons, heq]
        simp [hnew, hself, heq]
      · have hsame : syncedFields (c :: rest) account = syncedFields rest account := by
          simp [syncedFields, rowOf_cons, heq]
        rw [hsame]
        simp [heq]

theorem rowOf_presentAccounts (hcontacts : OneContactEach contacts) :
    rowOf Prod.fst account (presentAccounts digest contacts) =
      (syncedFields contacts account).map fun fields => (account, digest fields) := by
  rw [presentAccounts, rowOf_presentAccounts_foldl hcontacts]
  cases syncedFields contacts account with
  | none | some fields => rfl

theorem sorted_presentAccounts : (presentAccounts digest contacts).Pairwise (·.1 < ·.1) := by
  rw [presentAccounts]
  induction contacts using List.reverseRecOn with
  | nil => simp
  | append_singleton rest c ih =>
    rw [List.foldl_append, List.foldl_cons, List.foldl_nil]
    split
    · exact sorted_putSorted ih
    · exact ih

theorem find_put : find (put (·.accountId) entry entries) account =
      if entry.accountId = account then some entry else find entries account := rowOf_put

/-- An account met by the clock changes its own register only. -/
theorem find_notePresent {state : Bool × Entries} {met : String × String} :
    find (notePresent nowMs state met).2 account =
      if met.1 = account ∧ (find state.2 account).all (fun entry => !entry.present ∨ entry.digest ≠ met.2) then
        some { accountId := account, atMs := editTime (find state.2 account) nowMs, digest := met.2 }
      else find state.2 account := by
  by_cases hmet : met.1 = account
  · subst hmet
    rw [notePresent]
    cases hfind : find state.2 met.1 with
    | none => simp [find_put, editTime]
    | some entry =>
      by_cases hchanged : (!entry.present) = true ∨ entry.digest ≠ met.2
      · have hall : (some entry).all (fun entry => !entry.present ∨ entry.digest ≠ met.2) = true := by
          simpa using hchanged
        simp only [hchanged, if_true, find_put, hall, and_self, editTime]
      · have hall : (some entry).all (fun entry => !entry.present ∨ entry.digest ≠ met.2) = false := by
          simpa using hchanged
        simp only [hchanged, if_false, hall, and_false, Bool.false_eq_true]
        exact hfind
  · rw [if_neg (by simp [hmet]), notePresent]
    split
    · simp [find_put, hmet]
    · split
      · simp [find_put, hmet]
      · rfl

theorem find_notePresent_foldl {state : Bool × Entries} (hpresent : DistinctKeys Prod.fst present) :
    find (present.foldl (notePresent nowMs) state).2 account =
      match rowOf Prod.fst account present with
      | none => find state.2 account
      | some met => find (notePresent nowMs state met).2 account := by
  induction present generalizing state with
  | nil => rfl
  | cons met rest ih =>
    obtain ⟨hmet, hrest⟩ := List.pairwise_cons.mp hpresent
    rw [List.foldl_cons, ih hrest, rowOf_cons]
    by_cases heq : met.1 = account
    · have hnot : rowOf Prod.fst account rest = none := by
        rw [rowOf, List.find?_eq_none]
        intro other hother
        have hne := hmet other hother
        rw [heq] at hne
        simpa using Ne.symm hne
      simp [hnot, heq]
    · have hsame : find (notePresent nowMs state met).2 account = find state.2 account := by
        rw [find_notePresent, if_neg (by simp [heq])]
      rw [if_neg heq]
      cases hrow : rowOf Prod.fst account rest with
      | none => exact hsame
      | some other => simp only [find_notePresent, hsame]

theorem find_some (h : find entries account = some entry) :
    entry ∈ entries ∧ entry.accountId = account := rowOf_some h

theorem edited_some {entry : Option ContactClockEntry} {fields : ContactLocal} : edited digest entry (some fields) =
      entry.all fun entry => !entry.present ∨ entry.digest ≠ digest fields := by
  cases entry with
  | none | some entry => rfl

theorem noteGone_accountId : (noteGone nowMs present entry).accountId = entry.accountId := by
  rw [noteGone]
  split <;> rfl

theorem lt_editTime : entry.atMs < editTime (some entry) nowMs := by
  simp only [editTime]
  omega

/-- The registers after a look at the address book: an account's register is
new just where the user changed it. -/
theorem find_observe (hcontacts : OneContactEach contacts) : find (observe digest entries contacts nowMs).2 account =
      if edited digest (find entries account) (syncedFields contacts account) then
        some (entryOf digest account (editTime (find entries account) nowMs) (syncedFields contacts account))
      else find entries account := by
  have hdistinct : DistinctKeys Prod.fst (presentAccounts digest contacts) :=
    distinctKeys_of_sorted sorted_presentAccounts
  have hnoted : find (observe digest entries contacts nowMs).2 account =
      (find ((presentAccounts digest contacts).foldl (notePresent nowMs) (false, entries)).2 account).map
        (noteGone nowMs (presentAccounts digest contacts)) := rowOf_map fun _ => noteGone_accountId
  have hrow : rowOf Prod.fst account (presentAccounts digest contacts) = _ := rowOf_presentAccounts hcontacts
  rw [hnoted, find_notePresent_foldl hdistinct, hrow]
  cases hfields : syncedFields contacts account with
  | some fields =>
    rw [hfields] at hrow
    -- a register of an account that is there is not gone
    have hstays : ∀ entry : ContactClockEntry, entry.accountId = account →
        noteGone nowMs (presentAccounts digest contacts) entry = entry := by
      intro entry hentry
      rw [noteGone, hentry, hrow]
      simp
    simp only [Option.map_some, find_notePresent, true_and, edited_some]
    split
    · rw [Option.map_some, hstays _ rfl]
      rfl
    · cases hfind : find entries account with
      | none => rfl
      | some entry => rw [Option.map_some, hstays entry (find_some hfind).2]
  | none =>
    rw [hfields] at hrow
    cases hfind : find entries account with
    | none => simp [edited]
    | some entry =>
      obtain ⟨-, hentry⟩ := find_some hfind
      simp only [Option.map_none, Option.map_some, edited, noteGone, hentry, hrow, entryOf,
        editTime, Option.isNone_none, and_true, Option.isSome_none, Option.getD_none]
      by_cases hthere : entry.present
      · simp [hthere]
      · simp [hthere]

theorem distinctKeys_observe (hentries : DistinctKeys (·.accountId) entries) :
    DistinctKeys (·.accountId) (observe digest entries contacts nowMs).2 := by
  have hnoted : ∀ (present : List (String × String)) (state : Bool × Entries),
      DistinctKeys (·.accountId) state.2 →
        DistinctKeys (·.accountId) (present.foldl (notePresent nowMs) state).2 := by
    intro present
    induction present with
    | nil => exact fun _ h => h
    | cons met rest ih =>
      intro state h
      apply ih
      rw [notePresent]
      split
      · exact distinctKeys_put h
      · split
        · exact distinctKeys_put h
        · exact h
  have hfolded := hnoted (presentAccounts digest contacts) (false, entries) hentries
  refine List.pairwise_map.mpr (hfolded.imp fun hne => ?_)
  simpa only [noteGone_accountId] using hne

/-! ## A remote set -/

variable (digest) in
/-- The row a newer register puts in, if one is to be. -/
def upsertFor (remoteContacts localContacts : List Contact) (theirs : ContactClockEntry) : Option Contact :=
  let localRow := rowOf contactClockAccount theirs.accountId localContacts
  if theirs.present ∧ localRow.all (fun row => digest row.localFields ≠ theirs.digest) then
    (rowOf contactClockAccount theirs.accountId remoteContacts).map (takenRow localRow)
  else none

/-- The row a newer register takes out. -/
def goneRow (localContacts : List Contact) (theirs : ContactClockEntry) : Option Contact :=
  if theirs.present then none else rowOf contactClockAccount theirs.accountId localContacts

/-- A register that is taken over: a newer one, with its row. -/
def takes (entries : Entries) (remoteContacts : List Contact) (theirs : ContactClockEntry) : Bool :=
  (find entries theirs.accountId).all (fun ours => ours.atMs < theirs.atMs) ∧
    (theirs.present → (rowOf contactClockAccount theirs.accountId remoteContacts).isSome)

variable {remoteContacts localContacts : List Contact} {theirs : ContactClockEntry} {plan : ContactPlan}
  {remoteEntries : Entries}

theorem takeRemote_eq : takeRemote digest remoteContacts localContacts (plan, entries) theirs =
      if takes entries remoteContacts theirs then
        (⟨plan.upsert ++ (upsertFor digest remoteContacts localContacts theirs).toList,
          plan.removeContactIds ++ ((goneRow localContacts theirs).map (·.id)).toList⟩,
          put (·.accountId) theirs entries) else (plan, entries) := by
  have hnewer : (find entries theirs.accountId).any (·.atMs ≥ theirs.atMs) =
      !(find entries theirs.accountId).all (fun ours => ours.atMs < theirs.atMs) := by
    cases find entries theirs.accountId with
    | none => rfl
    | some ours =>
      by_cases hlt : ours.atMs < theirs.atMs
      · simp [hlt]
      · simp [hlt, not_lt.mp hlt]
  rw [takeRemote, takes, hnewer]
  by_cases hall : (find entries theirs.accountId).all (fun ours => ours.atMs < theirs.atMs)
  · simp only [hall, Bool.not_true, Bool.false_eq_true, if_false, true_and]
    by_cases hthere : theirs.present
    · simp only [hthere, if_true, true_implies, upsertFor, goneRow, true_and]
      cases rowOf contactClockAccount theirs.accountId remoteContacts with
      | none => simp
      | some remote =>
        simp only [Option.isSome_some, decide_true, if_true, Option.map_some]
        split
        · simp
        · simp
    · simp only [hthere, upsertFor, goneRow]
      cases rowOf contactClockAccount theirs.accountId localContacts with
      | none | some row => simp
  · simp [hall]

section

variable (hremote : DistinctKeys (·.accountId) remoteEntries)
include hremote

/-- What a remote set comes to here, its accounts met one by one. -/
theorem mergeRemote_foldl : remoteEntries.foldl (takeRemote digest remoteContacts localContacts) (plan, entries) =
      (⟨plan.upsert ++ (remoteEntries.filter (takes entries remoteContacts)).filterMap
          (upsertFor digest remoteContacts localContacts),
        plan.removeContactIds ++ ((remoteEntries.filter (takes entries remoteContacts)).filterMap
          (goneRow localContacts)).map (·.id)⟩,
        putAll (·.accountId) entries (remoteEntries.filter (takes entries remoteContacts))) := by
  induction remoteEntries generalizing plan entries with
  | nil => simp [putAll]
  | cons theirs rest ih =>
    obtain ⟨htheirs, hrest⟩ := List.pairwise_cons.mp hremote
    rw [List.foldl_cons, takeRemote_eq]
    by_cases htakes : takes entries remoteContacts theirs
    · -- a later account finds its own register as it was
      have hsame : rest.filter (takes (put (·.accountId) theirs entries) remoteContacts) =
          rest.filter (takes entries remoteContacts) := by
        apply List.filter_congr
        intro other hother
        rw [takes, takes, find_put, if_neg (htheirs other hother)]
      rw [if_pos htakes, ih hrest, hsame, List.filter_cons_of_pos htakes]
      simp only [List.filterMap_cons, putAll, List.foldl_cons]
      cases upsertFor digest remoteContacts localContacts theirs <;>
        cases goneRow localContacts theirs <;> simp
    · rw [if_neg htakes, ih hrest, List.filter_cons_of_neg htakes]

theorem mergeRemote_plan : (mergeRemote digest entries remoteEntries remoteContacts localContacts).1 =
      ⟨(remoteEntries.filter (takes entries remoteContacts)).filterMap
          (upsertFor digest remoteContacts localContacts),
        ((remoteEntries.filter (takes entries remoteContacts)).filterMap (goneRow localContacts)).map (·.id)⟩ := by
  rw [mergeRemote, mergeRemote_foldl hremote]
  rfl

/-- The registers after a remote set: each account's own or the newer one. -/
theorem find_mergeRemote : find (mergeRemote digest entries remoteEntries remoteContacts localContacts).2 account =
      ((find remoteEntries account).filter (takes entries remoteContacts)).or (find entries account) := by
  rw [mergeRemote, mergeRemote_foldl hremote]
  exact (rowOf_putAll (hremote.filter _)).trans (congrArg (Option.or · _) (rowOf_filter hremote))

end

theorem distinctKeys_mergeRemote (hentries : DistinctKeys (·.accountId) entries)
    (hremote : DistinctKeys (·.accountId) remoteEntries) : DistinctKeys (·.accountId)
      (mergeRemote digest entries remoteEntries remoteContacts localContacts).2 := by
  rw [mergeRemote, mergeRemote_foldl hremote]
  exact distinctKeys_putAll hentries

end ContactClock

/-! ## What a device publishes of the account -/

structure AccountStateGroupMember where
  identity : String
  role : String
  joinedAt : Int := 0
  contactId : String := ""
  deriving DecidableEq, Repr

/-- A group as the locker keeps it. -/
structure AccountStateGroup where
  groupId : String
  title : String := ""
  ownerIdentity : String := ""
  rosterEpoch : Nat := 0
  titleVersion : Nat := 0
  policyJson : String := ""
  members : List AccountStateGroupMember := []
  rosterStatementJson : String := ""
  /-- The account is out of the group as of `rosterEpoch`. -/
  left : Bool := false
  /-- The owner ended the group. -/
  dissolved : Bool := false
  deriving DecidableEq, Repr

structure AccountCardFloor where
  accountId : String
  issuedAt : Int := 0
  deriving DecidableEq, Repr

structure AccountStateExtras where
  groups : List AccountStateGroup := []
  cardFloors : List AccountCardFloor := []
  deriving DecidableEq, Repr

structure AccountLockerState where
  relayUserId : String := ""
  nickname : String := ""
  contacts : List Contact := []
  extras : AccountStateExtras := {}
  providers : List String := []
  contactClock : List ContactClockEntry := []
  deriving DecidableEq, Repr

namespace AccountLocker

/-- The account of a row, by the directory's ids only. -/
def accountOf (contact : Contact) : String := firstAccount contact.remote.ids

/-- A register and whether it is the stored one. -/
abbrev Winner := ContactClockEntry × Bool

/-- The stored register stands, unless ours is newer. -/
def meetStored (winners : List Winner) (entry : ContactClockEntry) : List Winner :=
  match rowOf (·.1.accountId) entry.accountId winners with
  | some (ours, _) =>
    if entry.atMs ≥ ours.atMs then putSorted (·.1.accountId) (entry, true) winners else winners
  | none => putSorted (·.1.accountId) (entry, true) winners

/-- `account → (entry, from stored)`. -/
def winners (ours stored : AccountLockerState) : List Winner :=
  stored.contactClock.foldl meetStored
    (ours.contactClock.foldl (fun winners entry => putSorted (·.1.accountId) (entry, false) winners) [])

/-- The first row of an account. -/
def rowOfSide (side : AccountLockerState) (account : String) : Option Contact :=
  rowOf accountOf account side.contacts

/-- The accounts of the rows, in order. -/
def contactAccounts (contacts : List Contact) : List String :=
  contacts.foldl (fun accounts contact => putSorted id (accountOf contact) accounts) []

def mergedRow (ours stored : AccountLockerState) (account : String) : Option Contact :=
  let mine := rowOfSide ours account
  let theirs := rowOfSide stored account
  if account = "" then none
  else
    match rowOf (·.1.accountId) account (winners ours stored) with
    -- no register on either side
    | none => mine.or theirs
    | some (entry, fromStored) =>
      -- removed, on whichever device was last
      if !entry.present then none
      else if fromStored then theirs.or mine
      else mine.or theirs

/-- `MergeContacts`: the rows and the registers to publish. -/
def mergeContacts (ours stored : AccountLockerState) : List Contact × List ContactClockEntry :=
  ((contactAccounts (ours.contacts ++ stored.contacts)).filterMap (mergedRow ours stored),
    (winners ours stored).map (·.1))

/-- The stored group, met by ours of the same id. -/
def mergeGroup (mine theirs : AccountStateGroup) : AccountStateGroup :=
  if mine.dissolved ∨ theirs.dissolved then
    -- a group the owner ended stays ended
    if !mine.dissolved ∨ theirs.dissolved ∧ theirs.rosterEpoch > mine.rosterEpoch then theirs else mine
  else if theirs.rosterEpoch > mine.rosterEpoch ∨
      theirs.rosterEpoch = mine.rosterEpoch ∧ (theirs.left ∨ !mine.left) then
    theirs
  else mine

def meetGroup (groups : List AccountStateGroup) (theirs : AccountStateGroup) : List AccountStateGroup :=
  match rowOf (·.groupId) theirs.groupId groups with
  | none => groups ++ [theirs]
  | some mine => put (·.groupId) (mergeGroup mine theirs) groups

def meetFloor (floors : List AccountCardFloor) (theirs : AccountCardFloor) : List AccountCardFloor :=
  match rowOf (·.accountId) theirs.accountId floors with
  | none => floors ++ [theirs]
  | some mine =>
    put (·.accountId) { mine with issuedAt := max mine.issuedAt theirs.issuedAt } floors

def meetProvider (providers : List String) (provider : String) : List String :=
  if provider ∈ providers then providers else providers ++ [provider]

def mergeForPublish (ours stored : AccountLockerState) : AccountLockerState :=
  let (contacts, contactClock) := mergeContacts ours stored
  { ours with
    contacts
    contactClock
    -- one order whichever device merges
    extras :=
      { groups := (stored.extras.groups.foldl meetGroup ours.extras.groups).insertionSort
          (·.groupId ≤ ·.groupId)
        cardFloors := (stored.extras.cardFloors.foldl meetFloor ours.extras.cardFloors).insertionSort
          (·.accountId ≤ ·.accountId) }
    providers := (stored.providers.foldl meetProvider ours.providers).insertionSort (· ≤ ·) }

/-! ## Contacts by their clocks -/

variable {ours stored : AccountLockerState} {account : String} {contact : Contact}

theorem rowOf_meetStored {winners : List Winner} {entry : ContactClockEntry} :
    rowOf (·.1.accountId) account (meetStored winners entry) = if entry.accountId = account ∧
          (rowOf (·.1.accountId) account winners).all (fun winner => winner.1.atMs ≤ entry.atMs) then
        some (entry, true) else rowOf (·.1.accountId) account winners := by
  by_cases heq : entry.accountId = account
  · subst heq
    rw [meetStored]
    cases hwinner : rowOf (fun w : Winner => w.1.accountId) entry.accountId winners with
    | none => simp [rowOf_putSorted]
    | some winner =>
      by_cases hlate : winner.1.atMs ≤ entry.atMs
      · simp [hlate, rowOf_putSorted]
      · simp [hlate, hwinner]
  · rw [if_neg (by simp [heq]), meetStored]
    split
    · split
      · rw [rowOf_putSorted, if_neg heq]
      · rfl
    · rw [rowOf_putSorted, if_neg heq]

theorem rowOf_meetStored_foldl {entries : List ContactClockEntry} {winners : List Winner}
    (hentries : DistinctKeys (·.accountId) entries) :
    rowOf (·.1.accountId) account (entries.foldl meetStored winners) =
      match ContactClock.find entries account with
      | none => rowOf (·.1.accountId) account winners
      | some entry => rowOf (·.1.accountId) account (meetStored winners entry) := by
  induction entries generalizing winners with
  | nil => rfl
  | cons entry rest ih =>
    obtain ⟨hentry, hrest⟩ := List.pairwise_cons.mp hentries
    rw [List.foldl_cons, ih hrest, ContactClock.find, ContactClock.find, rowOf_cons]
    by_cases heq : entry.accountId = account
    · have hnot : rowOf (·.accountId) account rest = none := heq ▸ rowOf_eq_none_of_fresh hentry
      simp [hnot, heq]
    · rw [if_neg heq]
      have hsame : rowOf (·.1.accountId) account (meetStored winners entry) =
          rowOf (·.1.accountId) account winners := by
        rw [rowOf_meetStored, if_neg (by simp [heq])]
      cases hrow : rowOf (·.accountId) account rest with
      | none => exact hsame
      | some other => simp only [rowOf_meetStored, hsame]

theorem rowOf_ours_foldl {entries : List ContactClockEntry} {winners : List Winner}
    (hentries : DistinctKeys (·.accountId) entries) : rowOf (·.1.accountId) account
        (entries.foldl (fun winners entry => putSorted (·.1.accountId) (entry, false) winners) winners) =
      ((ContactClock.find entries account).map (·, false)).or (rowOf (·.1.accountId) account winners) := by
  induction entries generalizing winners with
  | nil => rfl
  | cons entry rest ih =>
    obtain ⟨hentry, hrest⟩ := List.pairwise_cons.mp hentries
    rw [List.foldl_cons, ih hrest, rowOf_putSorted, ContactClock.find, ContactClock.find, rowOf_cons]
    by_cases heq : entry.accountId = account
    · have hnot : rowOf (·.accountId) account rest = none := heq ▸ rowOf_eq_none_of_fresh hentry
      simp [hnot, heq]
    · rw [if_neg heq, if_neg heq]

section

variable (hours : DistinctKeys (·.accountId) ours.contactClock)
  (hstored : DistinctKeys (·.accountId) stored.contactClock)
include hours hstored

/-- The register published for an account: ours only when it is newer. -/
theorem rowOf_winners :
    rowOf (·.1.accountId) account (winners ours stored) =
      match ContactClock.find ours.contactClock account, ContactClock.find stored.contactClock account with
      | none, none => none
      | none, some theirs => some (theirs, true)
      | some mine, none => some (mine, false)
      | some mine, some theirs => if mine.atMs ≤ theirs.atMs then some (theirs, true) else some (mine, false) := by
  rw [winners, rowOf_meetStored_foldl hstored]
  have hmine : rowOf (·.1.accountId) account (ours.contactClock.foldl
      (fun winners entry => putSorted (·.1.accountId) (entry, false) winners) []) = _ :=
    rowOf_ours_foldl hours
  simp only [rowOf_meetStored, hmine]
  cases hfind : ContactClock.find ours.contactClock account with
  | none =>
    cases htheirs : ContactClock.find stored.contactClock account with
    | none => rfl
    | some theirs => simp [(ContactClock.find_some htheirs).2, rowOf]
  | some mine =>
    cases htheirs : ContactClock.find stored.contactClock account with
    | none => rfl
    | some theirs => simp [(ContactClock.find_some htheirs).2]

theorem winners_entry : (rowOf (·.1.accountId) account (winners ours stored)).map (·.1) =
      newer (·.atMs) (ContactClock.find stored.contactClock account)
        (ContactClock.find ours.contactClock account) := by
  rw [rowOf_winners hours hstored]
  cases ContactClock.find ours.contactClock account with
  | none => cases ContactClock.find stored.contactClock account <;> rfl
  | some mine =>
    cases ContactClock.find stored.contactClock account with
    | none => rfl
    | some theirs =>
      by_cases hle : mine.atMs ≤ theirs.atMs
      · simp [newer, hle, not_lt.mpr hle]
      · simp [newer, hle, not_le.mp hle]

end

theorem sorted_winners : (winners ours stored).Pairwise (·.1.accountId < ·.1.accountId) := by
  have hours : ∀ (entries : List ContactClockEntry) (winners : List Winner),
      winners.Pairwise (·.1.accountId < ·.1.accountId) →
        (entries.foldl (fun winners entry => putSorted (·.1.accountId) (entry, false) winners)
          winners).Pairwise (·.1.accountId < ·.1.accountId) := by
    intro entries
    induction entries with
    | nil => exact fun _ h => h
    | cons entry rest ih => exact fun winners h => ih _ (sorted_putSorted h)
  have hstored : ∀ (entries : List ContactClockEntry) (winners : List Winner),
      winners.Pairwise (·.1.accountId < ·.1.accountId) →
        (entries.foldl meetStored winners).Pairwise (·.1.accountId < ·.1.accountId) := by
    intro entries
    induction entries with
    | nil => exact fun _ h => h
    | cons entry rest ih =>
      intro winners h
      apply ih
      rw [meetStored]
      split
      · split
        · exact sorted_putSorted h
        · exact h
      · exact sorted_putSorted h
  exact hstored _ _ (hours _ _ List.Pairwise.nil)

theorem distinctKeys_mergedClock : DistinctKeys (·.accountId) (mergeContacts ours stored).2 :=
  List.pairwise_map.mpr (distinctKeys_of_sorted sorted_winners)

theorem rowOf_map_fst {winners : List Winner} :
    ContactClock.find (winners.map (·.1)) account = (rowOf (·.1.accountId) account winners).map (·.1) := by
  rw [ContactClock.find, rowOf, rowOf, List.find?_map]
  rfl

/-- Each account's published register is the stored one, or ours when newer. -/
theorem find_mergedClock (hours : DistinctKeys (·.accountId) ours.contactClock)
    (hstored : DistinctKeys (·.accountId) stored.contactClock) :
    ContactClock.find (mergeContacts ours stored).2 account =
      newer (·.atMs) (ContactClock.find stored.contactClock account)
        (ContactClock.find ours.contactClock account) := by
  rw [← winners_entry hours hstored]
  exact rowOf_map_fst

theorem sorted_contactAccounts {contacts : List Contact} : (contactAccounts contacts).Pairwise (· < ·) := by
  rw [contactAccounts]
  induction contacts using List.reverseRecOn with
  | nil => exact List.Pairwise.nil
  | append_singleton rest c ih =>
    rw [List.foldl_append, List.foldl_cons, List.foldl_nil]
    exact sorted_putSorted ih

theorem mem_contactAccounts {contacts : List Contact} (h : contact ∈ contacts) :
    accountOf contact ∈ contactAccounts contacts := by
  rw [contactAccounts]
  induction contacts using List.reverseRecOn with
  | nil => cases h
  | append_singleton rest c ih =>
    rw [List.foldl_append, List.foldl_cons, List.foldl_nil]
    rcases List.mem_append.mp h with h | h
    · by_cases heq : accountOf contact = accountOf c
      · rw [heq]
        exact mem_putSorted_self
      · exact mem_putSorted_of_mem (ih h) heq
    · rw [List.mem_singleton.mp h]
      exact mem_putSorted_self

theorem mergedRow_some (h : mergedRow ours stored account = some contact) :
    account ≠ "" ∧ accountOf contact = account ∧ (contact ∈ ours.contacts ∨ contact ∈ stored.contacts) := by
  have hside : ∀ {a b : Option Contact}, a.or b = some contact → a = some contact ∨ b = some contact := by
    intro a b hor
    cases a with
    | none => exact .inr hor
    | some a => exact .inl hor
  have hrow : rowOfSide ours account = some contact ∨ rowOfSide stored account = some contact := by
    simp only [mergedRow] at h
    split at h
    · cases h
    · split at h
      · exact hside h
      · split at h
        · cases h
        · split at h
          · exact (hside h).symm
          · exact hside h
  have haccount : account ≠ "" := by
    intro hempty
    simp [mergedRow, hempty] at h
  rcases hrow with hrow | hrow
  · exact ⟨haccount, (rowOf_some hrow).2, .inl (rowOf_some hrow).1⟩
  · exact ⟨haccount, (rowOf_some hrow).2, .inr (rowOf_some hrow).1⟩

theorem mem_mergedContacts :
    contact ∈ (mergeContacts ours stored).1 ↔ mergedRow ours stored (accountOf contact) = some contact := by
  simp only [mergeContacts, List.mem_filterMap]
  constructor
  · intro h
    obtain ⟨account, -, hrow⟩ := h
    rw [(mergedRow_some hrow).2.1]
    exact hrow
  · intro hrow
    refine ⟨accountOf contact, mem_contactAccounts (List.mem_append.mpr (mergedRow_some hrow).2.2), hrow⟩

theorem distinctKeys_mergedContacts : DistinctKeys accountOf (mergeContacts ours stored).1 := by
  have hsorted : (contactAccounts (ours.contacts ++ stored.contacts)).Pairwise (· < ·) := sorted_contactAccounts
  refine List.Pairwise.filterMap _ ?_ hsorted
  intro a b hlt c hc c' hc'
  rw [(mergedRow_some hc).2.1, (mergedRow_some hc').2.1]
  exact ne_of_lt hlt

end AccountLocker

end Pbr
