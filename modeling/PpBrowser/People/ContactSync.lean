import Mathlib.Data.Set.Function
import PpBrowser.Lib.Runs
import PpBrowser.People.ContactClock

/-!
# ContactSync — two devices of an account and their contacts

Two devices edit their address books, publish them into the account locker
and catch up with what is stored (`AccountLockerWorkflow::Publish`), in any
interleaving. Their registers are replicas of one another: where no two of
an account share a time with different contents, both devices end with the
contacts of the newest edits.
-/

namespace Pbr

open Lib ContactClock AccountLocker

/-! ## Address books -/

/-- An address book the contacts store can hold, its rows kept by who they
are: an id stands for one account (`owner`) as long as it has one, and an
account for one contact. -/
structure ContactBook (owner : String → String) (known : Set ContactLocal) (contacts : List Contact) : Prop where
  ids : DistinctKeys (·.id) contacts
  mirrored : ∀ c ∈ contacts, c.ids = c.remote.ids
  oneEach : OneContactEach contacts
  owned : ∀ c ∈ contacts, contactClockAccount c ≠ "" → contactClockAccount c = owner c.id
  known : ∀ c ∈ contacts, c.localFields ∈ known

variable {owner : String → String} {known : Set ContactLocal} {contacts : List Contact} {c c' : Contact}
  {account : String} {f : ContactLocal}

/-- A row of a kept account. -/
structure ContactRow (owner : String → String) (known : Set ContactLocal) (c : Contact) : Prop where
  mirrored : c.ids = c.remote.ids
  account : contactClockAccount c ≠ ""
  owned : contactClockAccount c = owner c.id
  known : c.localFields ∈ known

theorem ContactBook.row (h : ContactBook owner known contacts) (hc : c ∈ contacts)
    (haccount : contactClockAccount c ≠ "") : ContactRow owner known c :=
  ⟨h.mirrored c hc, haccount, h.owned c hc haccount, h.known c hc⟩

theorem accountOf_eq (h : c.ids = c.remote.ids) : accountOf c = contactClockAccount c := by
  rw [accountOf, contactClockAccount, h]
  split
  · rfl
  · rfl

/-- An account's rows are one row. -/
def OneRowEach (contacts : List Contact) : Prop :=
  ∀ c ∈ contacts, ∀ c' ∈ contacts, contactClockAccount c ≠ "" →
    contactClockAccount c = contactClockAccount c' → c = c'

theorem OneRowEach.of_oneContactEach (h : OneContactEach contacts) : OneRowEach contacts := by
  intro c hc c' hc'
  refine List.Pairwise.forall_of_forall_of_flip (R := fun c c' => contactClockAccount c ≠ "" →
    contactClockAccount c = contactClockAccount c' → c = c') ?_ ?_ ?_ hc hc'
  · intro _ _ _ _
    rfl
  · exact h.imp fun hne haccount heq => absurd heq (hne haccount)
  · refine h.imp fun {a b} hne haccount heq => ?_
    rw [heq] at haccount
    exact absurd heq.symm (hne haccount)

theorem OneRowEach.oneContactEach (h : OneRowEach contacts) (hids : DistinctKeys (·.id) contacts) :
    OneContactEach contacts :=
  hids.imp_of_mem fun hc hc' hne haccount heq => hne (congrArg (·.id) (h _ hc _ hc' haccount heq))

theorem syncedFields_eq_some (h : OneRowEach contacts) : syncedFields contacts account = some f ↔
      account ≠ "" ∧ ∃ c ∈ contacts, contactClockAccount c = account ∧ c.localFields = f := by
  by_cases haccount : account = ""
  · simp [syncedFields, haccount]
  · rw [syncedFields, if_neg haccount]
    constructor
    · intro hrow
      obtain ⟨c, hc, rfl⟩ := Option.map_eq_some_iff.mp hrow
      exact ⟨haccount, c, (rowOf_some hc).1, (rowOf_some hc).2, rfl⟩
    · intro hrow
      obtain ⟨-, c, hc, hid, rfl⟩ := hrow
      cases hfound : rowOf contactClockAccount account contacts with
      | none =>
        rw [rowOf, List.find?_eq_none] at hfound
        exact absurd hid (by simpa using hfound c hc)
      | some c' =>
        obtain ⟨hc', hid'⟩ := rowOf_some hfound
        rw [h c hc c' hc' (hid ▸ haccount) (hid.trans hid'.symm)]
        rfl

/-! ## Rows put in and taken out -/

theorem stored_row (h : ContactRow owner known c) :
    ∃ c', upsertContact contacts c = put (·.id) c' contacts ∧ c'.id = c.id ∧
      c'.localFields = c.localFields ∧ contactClockAccount c' = contactClockAccount c ∧
      ContactRow owner known c' := by
  have hids : c.remote.ids ≠ [] := by
    intro hempty
    apply h.account
    simp [contactClockAccount, h.mirrored, hempty, firstAccount]
  have hsame : promoteFlatFieldsToNested c = c := by
    rw [promoteFlatFieldsToNested, if_neg]
    intro hflat
    exact hids hflat.2.2.1
  have haccount : contactClockAccount (syncContactMirrors c) = contactClockAccount c := by
    rw [contactClockAccount, contactClockAccount, h.mirrored]
    rfl
  refine ⟨syncContactMirrors c, ?_, rfl, rfl, haccount, ?_⟩
  · rw [upsertContact, hsame]
  · exact ⟨rfl, haccount ▸ h.account, haccount ▸ h.owned, h.known⟩

section

variable (h : ContactBook owner known contacts)
include h

/-- A kept row put into a book: it takes the place of its account's row. -/
theorem ContactBook.upsert (hc : ContactRow owner known c)
    (hplace : ∀ old ∈ contacts, contactClockAccount old = contactClockAccount c → old.id = c.id) :
    ContactBook owner known (upsertContact contacts c) ∧ (∀ a, syncedFields (upsertContact contacts c) a =
        if contactClockAccount c = a then some c.localFields else syncedFields contacts a) ∧
      ∀ row, contactClockAccount row ≠ "" → contactClockAccount row ≠ contactClockAccount c →
        (row ∈ upsertContact contacts c ↔ row ∈ contacts) := by
  obtain ⟨c', hput, hid, hfields, haccount, hrow⟩ := stored_row hc
  rw [hput]
  have hmem : ∀ row, row ∈ put (·.id) c' contacts ↔ row = c' ∨ row ∈ contacts ∧ row.id ≠ c'.id :=
    fun row => mem_put h.ids
  have hids : DistinctKeys (·.id) (put (·.id) c' contacts) := distinctKeys_put h.ids
  have hold : OneRowEach contacts := .of_oneContactEach h.oneEach
  -- no row that stays is of this account
  have hgone : ∀ row ∈ contacts, row.id ≠ c'.id → contactClockAccount row ≠ contactClockAccount c' := by
    intro row hrow hne hsame
    exact hne ((hplace row hrow (hsame.trans haccount)).trans hid.symm)
  have hone : OneRowEach (put (·.id) c' contacts) := by
    intro row hrow row' hrow' hrowAccount hsame
    rcases (hmem row).mp hrow with rfl | ⟨hstays, hne⟩
    · rcases (hmem row').mp hrow' with rfl | ⟨hstays', hne'⟩
      · rfl
      · exact absurd hsame.symm (hgone row' hstays' hne')
    · rcases (hmem row').mp hrow' with rfl | ⟨hstays', -⟩
      · exact absurd hsame (hgone row hstays hne)
      · exact hold row hstays row' hstays' hrowAccount hsame
  have hstays : ∀ row, contactClockAccount row ≠ "" → contactClockAccount row ≠ contactClockAccount c →
      (row ∈ put (·.id) c' contacts ↔ row ∈ contacts) := by
    intro row hrowAccount hne
    rw [hmem]
    constructor
    · intro hmemRow
      rcases hmemRow with rfl | ⟨hmemRow, -⟩
      · exact absurd haccount hne
      · exact hmemRow
    · intro hmemRow
      refine .inr ⟨hmemRow, ?_⟩
      intro hsameId
      -- an id stands for one account
      exact hne (by rw [hc.owned, h.owned row hmemRow hrowAccount, hsameId, hid])
  refine ⟨⟨hids, ?_, hone.oneContactEach hids, ?_, ?_⟩, ?_, ?_⟩
  · intro row hmemRow
    rcases (hmem row).mp hmemRow with rfl | ⟨hmemRow, -⟩
    · exact hrow.mirrored
    · exact h.mirrored row hmemRow
  · intro row hmemRow hrowAccount
    rcases (hmem row).mp hmemRow with rfl | ⟨hmemRow, -⟩
    · exact hrow.owned
    · exact h.owned row hmemRow hrowAccount
  · intro row hmemRow
    rcases (hmem row).mp hmemRow with rfl | ⟨hmemRow, -⟩
    · exact hrow.known
    · exact h.known row hmemRow
  · intro a
    by_cases ha : contactClockAccount c = a
    · rw [if_pos ha, syncedFields_eq_some hone]
      exact ⟨ha ▸ hc.account, c', (hmem c').mpr (.inl rfl), haccount.trans ha, hfields⟩
    · rw [if_neg ha]
      ext f
      rw [syncedFields_eq_some hone, syncedFields_eq_some hold]
      constructor
      · intro hf
        obtain ⟨hne, row, hmemRow, hrowAccount, hrowFields⟩ := hf
        rcases (hmem row).mp hmemRow with rfl | ⟨hmemRow, -⟩
        · exact absurd (haccount.symm.trans hrowAccount) ha
        · exact ⟨hne, row, hmemRow, hrowAccount, hrowFields⟩
      · intro hf
        obtain ⟨hne, row, hmemRow, hrowAccount, hrowFields⟩ := hf
        exact ⟨hne, row, (hstays row (hrowAccount ▸ hne) (hrowAccount ▸ Ne.symm ha)).mpr hmemRow,
          hrowAccount, hrowFields⟩
  · exact hstays

theorem ContactBook.remove (hc : c ∈ contacts) (haccount : contactClockAccount c ≠ "") :
    ContactBook owner known (removeContact contacts c.id) ∧ (∀ a, syncedFields (removeContact contacts c.id) a =
        if contactClockAccount c = a then none else syncedFields contacts a) ∧
      ∀ row ∈ contacts, contactClockAccount row ≠ "" → contactClockAccount row ≠ contactClockAccount c →
        row ∈ removeContact contacts c.id := by
  have hmem : ∀ row, row ∈ removeContact contacts c.id ↔ row ∈ contacts ∧ row.id ≠ c.id :=
    fun row => mem_eraseP_key h.ids
  have hsublist : (removeContact contacts c.id).Sublist contacts := List.eraseP_sublist
  have hold : OneRowEach contacts := .of_oneContactEach h.oneEach
  have hone : OneRowEach (removeContact contacts c.id) :=
    fun row hrow row' hrow' => hold row (hsublist.subset hrow) row' (hsublist.subset hrow')
  have hstays : ∀ row ∈ contacts, contactClockAccount row ≠ "" →
      contactClockAccount row ≠ contactClockAccount c → row ∈ removeContact contacts c.id := by
    intro row hrow hrowAccount hne
    refine (hmem row).mpr ⟨hrow, ?_⟩
    intro hsameId
    exact hne (by rw [h.owned row hrow hrowAccount, h.owned c hc haccount, hsameId])
  refine ⟨⟨h.ids.sublist hsublist, fun row hrow => h.mirrored row (hsublist.subset hrow),
    h.oneEach.sublist hsublist, fun row hrow => h.owned row (hsublist.subset hrow),
    fun row hrow => h.known row (hsublist.subset hrow)⟩, ?_, ?_⟩
  · intro a
    by_cases ha : contactClockAccount c = a
    · rw [if_pos ha, Option.eq_none_iff_forall_ne_some]
      intro f hf
      obtain ⟨-, row, hrow, hrowAccount, -⟩ := (syncedFields_eq_some hone).mp hf
      obtain ⟨hrow, hne⟩ := (hmem row).mp hrow
      exact hne (congrArg (·.id) (hold c hc row hrow haccount (ha.trans hrowAccount.symm)).symm)
    · rw [if_neg ha]
      ext f
      rw [syncedFields_eq_some hone, syncedFields_eq_some hold]
      refine and_congr_right fun hne => exists_congr fun row => ?_
      constructor
      · intro hrow
        exact ⟨hsublist.subset hrow.1, hrow.2⟩
      · intro hrow
        exact ⟨hstays row hrow.1 (hrow.2.1 ▸ hne) (hrow.2.1 ▸ Ne.symm ha), hrow.2⟩
  · exact hstays

theorem ContactBook.upsertAll {rows : List Contact}
    (hrows : ∀ c ∈ rows, ContactRow owner known c) (hdistinct : DistinctKeys contactClockAccount rows)
    (hplace : ∀ c ∈ rows, ∀ old ∈ contacts,
      contactClockAccount old = contactClockAccount c → old.id = c.id) :
    ContactBook owner known (rows.foldl upsertContact contacts) ∧
      (∀ a, syncedFields (rows.foldl upsertContact contacts) a =
        match rowOf contactClockAccount a rows with
        | some c => some c.localFields
        | none => syncedFields contacts a) ∧
      ∀ row ∈ contacts, contactClockAccount row ≠ "" →
        rowOf contactClockAccount (contactClockAccount row) rows = none →
          row ∈ rows.foldl upsertContact contacts := by
  induction rows generalizing contacts with
  | nil => exact ⟨h, fun _ => rfl, fun _ hrow _ _ => hrow⟩
  | cons c rest ih =>
    obtain ⟨hc, hrest⟩ := List.pairwise_cons.mp hdistinct
    obtain ⟨hbook, hfields, hmem⟩ := h.upsert (hrows c List.mem_cons_self)
      (hplace c List.mem_cons_self)
    obtain ⟨hbook', hfields', hmem'⟩ := ih hbook (fun r hr => hrows r (List.mem_cons_of_mem _ hr)) hrest
      fun r hr old hold hsame => by
        have haccount : contactClockAccount old ≠ "" := hsame ▸ (hrows r (List.mem_cons_of_mem _ hr)).account
        have hne : contactClockAccount old ≠ contactClockAccount c := hsame ▸ Ne.symm (hc r hr)
        exact hplace r (List.mem_cons_of_mem _ hr) old ((hmem old haccount hne).mp hold) hsame
    refine ⟨hbook', fun a => ?_, ?_⟩
    · rw [List.foldl_cons, hfields' a, rowOf_cons, hfields a]
      by_cases ha : contactClockAccount c = a
      · rw [if_pos ha, if_pos ha, ← ha, rowOf_eq_none_of_fresh hc]
      · rw [if_neg ha, if_neg ha]
    · intro row hrow haccount hnone
      rw [rowOf_cons] at hnone
      by_cases ha : contactClockAccount c = contactClockAccount row
      · rw [if_pos ha] at hnone
        cases hnone
      · rw [if_neg ha] at hnone
        exact hmem' row ((hmem row haccount (Ne.symm ha)).mpr hrow) haccount hnone

theorem ContactBook.removeAll {gone : List Contact} (hgone : ∀ c ∈ gone, c ∈ contacts ∧ contactClockAccount c ≠ "")
    (hdistinct : DistinctKeys contactClockAccount gone) :
    ContactBook owner known ((gone.map (·.id)).foldl removeContact contacts) ∧
      ∀ a, syncedFields ((gone.map (·.id)).foldl removeContact contacts) a =
        if (rowOf contactClockAccount a gone).isSome then none else syncedFields contacts a := by
  induction gone generalizing contacts with
  | nil => exact ⟨h, fun _ => rfl⟩
  | cons c rest ih =>
    obtain ⟨hc, hrest⟩ := List.pairwise_cons.mp hdistinct
    obtain ⟨hmemc, haccount⟩ := hgone c List.mem_cons_self
    obtain ⟨hbook, hfields, hmem⟩ := h.remove hmemc haccount
    obtain ⟨hbook', hfields'⟩ := ih hbook
      (fun r hr => by
        obtain ⟨hmemr, hraccount⟩ := hgone r (List.mem_cons_of_mem _ hr)
        exact ⟨hmem r hmemr hraccount (Ne.symm (hc r hr)), hraccount⟩) hrest
    refine ⟨hbook', fun a => ?_⟩
    rw [List.map_cons, List.foldl_cons, hfields' a, rowOf_cons, hfields a]
    by_cases ha : contactClockAccount c = a
    · rw [if_pos ha, if_pos ha]
      simp
    · rw [if_neg ha, if_neg ha]

end

/-! ## A book and its registers -/

variable (digest : Digest)

/-- Registers that say what their book holds. -/
structure ContactSide (owner : String → String) (known : Set ContactLocal) (contacts : List Contact)
    (clock : Entries) : Prop where
  book : ContactBook owner known contacts
  registers : DistinctKeys (·.accountId) clock
  named : find clock "" = none
  agrees : ∀ a, (syncedFields contacts a).map digest = shown (find clock a)

variable {digest} {clock : Entries} {stored : List Contact} {storedClock : Entries} {entry : ContactClockEntry}
  {nowMs : Int} {a : String}

section

variable (h : ContactSide digest owner known contacts clock)
include h

theorem ContactSide.shown_eq (hentry : find clock a = some entry) :
    (syncedFields contacts a).map digest = if entry.present then some entry.digest else none := by
  rw [h.agrees, hentry]
  rfl

theorem ContactSide.account_ne (hentry : find clock a = some entry) : a ≠ "" := by
  intro hempty
  rw [hempty, h.named] at hentry
  cases hentry

/-- A look at the address book brings the registers up to it. -/
theorem ContactSide.observe {book : List Contact} (hbook : ContactBook owner known book) :
    ContactSide digest owner known book (observe digest clock book nowMs).2 where
  book := hbook
  registers := distinctKeys_observe h.registers
  named := by
    rw [find_observe hbook.oneEach, h.named]
    simp [syncedFields, edited]
  agrees := by
    intro a
    rw [find_observe hbook.oneEach]
    by_cases hedited : edited digest (find clock a) (syncedFields book a)
    · rw [if_pos hedited]
      cases syncedFields book a with
      | none | some f => simp [shown, entryOf]
    · rw [if_neg hedited]
      cases hfields : syncedFields book a with
      | none =>
        rw [hfields] at hedited
        cases hfind : find clock a with
        | none => rfl
        | some entry => simpa [hfind, edited, shown] using hedited
      | some f =>
        rw [hfields] at hedited
        cases hfind : find clock a with
        | none => simp [hfind, edited] at hedited
        | some entry =>
          obtain ⟨hpresent, hdigest⟩ : entry.present = true ∧ entry.digest = digest f := by
            simpa [hfind, edited] using hedited
          simp [shown, hpresent, hdigest]

end

theorem ContactSide.takes_eq (h : ContactSide digest owner known stored storedClock)
    (hentry : find storedClock a = some entry) :
    takes clock stored entry = (find clock a).all fun ours => ours.atMs < entry.atMs := by
  have hid := (find_some hentry).2
  have hrow : entry.present = true → (rowOf contactClockAccount a stored).isSome := by
    intro hpresent
    have hagrees := h.shown_eq hentry
    rw [if_pos hpresent, Option.map_eq_some_iff] at hagrees
    obtain ⟨f, hf, -⟩ := hagrees
    rw [syncedFields, if_neg (h.account_ne hentry), Option.map_eq_some_iff] at hf
    obtain ⟨row, hrow, -⟩ := hf
    simp [hrow]
  rw [takes, hid]
  by_cases hpresent : entry.present
  · simp [hrow hpresent]
  · simp [hpresent]

theorem ContactSide.find_mergeRemote (h : ContactSide digest owner known stored storedClock) :
    find (mergeRemote digest clock storedClock stored contacts).2 a =
      newer (·.atMs) (find clock a) (find storedClock a) := by
  rw [ContactClock.find_mergeRemote h.registers]
  cases hentry : find storedClock a with
  | none => cases find clock a <;> rfl
  | some entry =>
    rw [Option.filter_some, h.takes_eq hentry]
    cases find clock a with
    | none => simp [newer]
    | some ours =>
      by_cases hlt : ours.atMs < entry.atMs
      · simp [newer, hlt]
      · simp [newer, hlt]

theorem takenRow_account {row : Contact} (remote : Contact) (h : row.ids = row.remote.ids) :
    contactClockAccount (takenRow (some row) remote) = contactClockAccount row := by
  rw [takenRow, contactClockAccount, contactClockAccount, h]
  rfl

theorem upsertFor_account (h : ContactBook owner known contacts)
    (hc : upsertFor digest stored contacts entry = some c) : contactClockAccount c = entry.accountId := by
  rw [upsertFor] at hc
  split at hc
  · obtain ⟨remote, hremote, rfl⟩ := Option.map_eq_some_iff.mp hc
    cases hlocal : rowOf contactClockAccount entry.accountId contacts with
    | none => exact (rowOf_some hremote).2
    | some row =>
      obtain ⟨hrow, haccount⟩ := rowOf_some hlocal
      exact (takenRow_account remote (h.mirrored row hrow)).trans haccount
  · cases hc

theorem goneRow_some (hc : goneRow contacts entry = some c) :
    c ∈ contacts ∧ contactClockAccount c = entry.accountId ∧ entry.present = false := by
  rw [goneRow] at hc
  split at hc
  · cases hc
  · next hnot => exact ⟨(rowOf_some hc).1, (rowOf_some hc).2, by simpa using hnot⟩

theorem upsertFor_some (h : ContactSide digest owner known contacts clock)
    (hstored : ContactSide digest owner known stored storedClock)
    (hentry : find storedClock a = some entry) (hc : upsertFor digest stored contacts entry = some c) :
    ContactRow owner known c ∧ contactClockAccount c = a ∧ digest c.localFields = entry.digest ∧
      ∀ old ∈ contacts, contactClockAccount old = contactClockAccount c → old.id = c.id := by
  have hid := (find_some hentry).2
  have haccount := hstored.account_ne hentry
  rw [upsertFor, hid] at hc
  split at hc
  · next hput =>
      obtain ⟨remote, hremote, rfl⟩ := Option.map_eq_some_iff.mp hc
      obtain ⟨hmem, hremoteAccount⟩ := rowOf_some hremote
      have hremoteRow : ContactRow owner known remote := hstored.book.row hmem (hremoteAccount ▸ haccount)
      have hdigest : digest remote.localFields = entry.digest := by
        have hagrees := hstored.shown_eq hentry
        rw [syncedFields, if_neg haccount, hremote, if_pos hput.1] at hagrees
        exact Option.some.inj hagrees
      cases hlocal : rowOf contactClockAccount a contacts with
      | none =>
        refine ⟨hremoteRow, hremoteAccount, hdigest, ?_⟩
        intro old hold hsame
        rw [rowOf, List.find?_eq_none] at hlocal
        exact absurd (hsame.trans hremoteAccount) (by simpa using hlocal old hold)
      | some row =>
        -- this device's row, with the user's fields
        obtain ⟨hrow, hrowAccount⟩ := rowOf_some hlocal
        have hmirrored := h.book.mirrored row hrow
        have hsame := takenRow_account remote hmirrored
        have hne : contactClockAccount row ≠ "" := hrowAccount ▸ haccount
        refine ⟨⟨rfl, hsame ▸ hne, ?_, hremoteRow.known⟩, hsame.trans hrowAccount, hdigest, ?_⟩
        · exact hsame.trans (h.book.owned row hrow hne)
        · intro old hold holdAccount
          have hone := OneRowEach.of_oneContactEach h.book.oneEach
          exact congrArg (·.id) (hone row hrow old hold hne (holdAccount.trans hsame).symm).symm
  · cases hc

/-- A taken register that puts no row in finds its digest here. -/
theorem upsertFor_none (ha : a ≠ "") (hid : entry.accountId = a) (hpresent : entry.present = true)
    (htakes : takes clock stored entry = true) (hnone : upsertFor digest stored contacts entry = none) :
    (syncedFields contacts a).map digest = some entry.digest := by
  rw [takes, decide_eq_true_eq] at htakes
  obtain ⟨remote, hremote⟩ := Option.isSome_iff_exists.mp (htakes.2 hpresent)
  rw [upsertFor, hremote, hid] at hnone
  have hsame : ¬(rowOf contactClockAccount a contacts).all (fun row => digest row.localFields ≠ entry.digest) := by
    intro hall
    rw [if_pos ⟨hpresent, hall⟩] at hnone
    cases hnone
  rw [syncedFields, if_neg ha]
  cases hrow : rowOf contactClockAccount a contacts with
  | none => simp [hrow] at hsame
  | some row => simpa [hrow] using hsame

/-- The remote set taken: the book and the registers, each account's newer one. -/
theorem ContactSide.catchUp (h : ContactSide digest owner known contacts clock)
    (hstored : ContactSide digest owner known stored storedClock) : ContactSide digest owner known
      ((mergeRemote digest clock storedClock stored contacts).1.apply contacts)
      (mergeRemote digest clock storedClock stored contacts).2 := by
  rw [mergeRemote_plan hstored.registers, ContactPlan.apply]
  have hwon : DistinctKeys (·.accountId) (storedClock.filter (takes clock stored)) := hstored.registers.filter _
  have hfind : ∀ entry ∈ storedClock.filter (takes clock stored),
      find storedClock entry.accountId = some entry :=
    fun entry hentry => rowOf_of_mem hstored.registers (List.mem_filter.mp hentry).1
  -- the rows put in
  have hups : ∀ c ∈ (storedClock.filter (takes clock stored)).filterMap (upsertFor digest stored contacts),
      ContactRow owner known c ∧
        ∀ old ∈ contacts, contactClockAccount old = contactClockAccount c → old.id = c.id := by
    intro c hc
    obtain ⟨entry, hentry, hc⟩ := List.mem_filterMap.mp hc
    obtain ⟨hrow, -, -, hplace⟩ := upsertFor_some h hstored (hfind entry hentry) hc
    exact ⟨hrow, hplace⟩
  obtain ⟨hbook, hfields, hmem⟩ := h.book.upsertAll (fun c hc => (hups c hc).1)
    (distinctKeys_filterMap hwon fun _ _ hc => upsertFor_account h.book hc) (fun c hc => (hups c hc).2)
  have hput : ∀ a, rowOf contactClockAccount a
      ((storedClock.filter (takes clock stored)).filterMap (upsertFor digest stored contacts)) =
        ((find storedClock a).filter (takes clock stored)).bind (upsertFor digest stored contacts) := by
    intro a
    rw [rowOf_filterMap hwon fun _ _ hc => upsertFor_account h.book hc]
    exact congrArg (Option.bind · _) (rowOf_filter hstored.registers)
  -- the rows taken out
  have hgone : ∀ c ∈ (storedClock.filter (takes clock stored)).filterMap (goneRow contacts),
      c ∈ ((storedClock.filter (takes clock stored)).filterMap
        (upsertFor digest stored contacts)).foldl upsertContact contacts ∧ contactClockAccount c ≠ "" := by
    intro c hc
    obtain ⟨entry, hentry, hc⟩ := List.mem_filterMap.mp hc
    obtain ⟨hcontact, haccount, habsent⟩ := goneRow_some hc
    have hne : contactClockAccount c ≠ "" := haccount ▸ hstored.account_ne (hfind entry hentry)
    refine ⟨hmem c hcontact hne ?_, hne⟩
    rw [hput, haccount, hfind entry hentry]
    simp [Option.filter, (List.mem_filter.mp hentry).2, upsertFor, habsent]
  obtain ⟨hbook', hfields'⟩ := hbook.removeAll hgone
    (distinctKeys_filterMap hwon fun _ _ hc => (goneRow_some hc).2.1)
  have htaken : ∀ a, rowOf contactClockAccount a
      ((storedClock.filter (takes clock stored)).filterMap (goneRow contacts)) =
        ((find storedClock a).filter (takes clock stored)).bind (goneRow contacts) := by
    intro a
    rw [rowOf_filterMap hwon fun _ _ hc => (goneRow_some hc).2.1]
    exact congrArg (Option.bind · _) (rowOf_filter hstored.registers)
  refine ⟨hbook', distinctKeys_mergeRemote h.registers hstored.registers, ?_, ?_⟩
  · rw [hstored.find_mergeRemote, h.named, hstored.named]
    rfl
  · intro a
    rw [ContactClock.find_mergeRemote hstored.registers, hfields' a, hfields a, hput a, htaken a]
    cases hwinner : (find storedClock a).filter (takes clock stored) with
    | none => simpa using h.agrees a
    | some entry =>
      obtain ⟨hentry, htakes⟩ := Option.filter_eq_some_iff.mp hwinner
      have hid := (find_some hentry).2
      have ha := hstored.account_ne hentry
      by_cases hpresent : entry.present
      · have hnotGone : goneRow contacts entry = none := by simp [goneRow, hpresent]
        simp only [Option.bind_some, hnotGone, Option.isSome_none, Bool.false_eq_true, if_false,
          Option.some_or, shown, hpresent, if_true]
        cases hput : upsertFor digest stored contacts entry with
        | none => exact upsertFor_none ha hid hpresent htakes hput
        | some c =>
          obtain ⟨-, -, hdigest, -⟩ := upsertFor_some h hstored hentry hput
          exact congrArg some hdigest
      · have hnotPut : upsertFor digest stored contacts entry = none := by simp [upsertFor, hpresent]
        simp only [Option.bind_some, hnotPut, goneRow, hpresent, if_false, hid, Option.some_or, shown,
          Bool.false_eq_true]
        cases hrow : rowOf contactClockAccount a contacts with
        | none => simp [syncedFields, hrow]
        | some row => simp

variable {ours theirs : AccountLockerState}

theorem ContactBook.rowOfSide_eq {side : AccountLockerState}
    (h : ContactBook owner known side.contacts) (ha : a ≠ "") :
    syncedFields side.contacts a = (rowOfSide side a).map (·.localFields) := by
  have hsame : rowOf contactClockAccount a side.contacts = rowOf accountOf a side.contacts :=
    rowOf_congr fun c hc => (accountOf_eq (h.mirrored c hc)).symm
  rw [syncedFields, if_neg ha, hsame]
  rfl

section

variable (hours : ContactSide digest owner known ours.contacts ours.contactClock)
  (htheirs : ContactSide digest owner known theirs.contacts theirs.contactClock)
include hours htheirs

theorem mergedRow_shown (ha : a ≠ "") : ((mergedRow ours theirs a).map (·.localFields)).map digest =
      shown (newer (·.atMs) (find theirs.contactClock a) (find ours.contactClock a)) := by
  have hmine := hours.agrees a
  have hstored := htheirs.agrees a
  rw [hours.book.rowOfSide_eq ha] at hmine
  rw [htheirs.book.rowOfSide_eq ha] at hstored
  -- the row of a side whose present register won
  have hfirst : ∀ {row other : Option Contact} {entry : ContactClockEntry}, entry.present = true →
      (row.map (·.localFields)).map digest = shown (some entry) →
        ((row.or other).map (·.localFields)).map digest = shown (some entry) := by
    intro row other entry hpresent hrow
    cases row with
    | none => simp [shown, hpresent] at hrow
    | some row => exact hrow
  have hnone : ∀ {row : Option Contact}, (row.map (·.localFields)).map digest = none → row = none := by
    intro row hrow
    simpa using hrow
  have hwinner : rowOf (·.1.accountId) a (winners ours theirs) = _ :=
    rowOf_winners hours.registers htheirs.registers
  simp only [mergedRow, ha, if_false, hwinner]
  cases hm : find ours.contactClock a with
  | none =>
    rw [hm] at hmine
    have hnoMine := hnone hmine
    cases ht : find theirs.contactClock a with
    | none =>
      rw [ht] at hstored
      simp [hnoMine, hnone hstored, newer, shown]
    | some entry =>
      rw [ht] at hstored
      by_cases hpresent : entry.present
      · simp only [hpresent, Bool.not_true, Bool.false_eq_true, if_false, if_true]
        exact hfirst hpresent hstored
      · simp [hpresent, newer, shown]
  | some mine =>
    rw [hm] at hmine
    cases ht : find theirs.contactClock a with
    | none =>
      by_cases hpresent : mine.present
      · simp only [hpresent, Bool.not_true, Bool.false_eq_true, if_false]
        exact hfirst hpresent hmine
      · simp [hpresent, newer, shown]
    | some entry =>
      rw [ht] at hstored
      by_cases hle : mine.atMs ≤ entry.atMs
      · simp only [hle, if_true, newer, not_lt.mpr hle, if_false]
        by_cases hpresent : entry.present
        · simp only [hpresent, Bool.not_true, Bool.false_eq_true, if_false]
          exact hfirst hpresent hstored
        · simp [hpresent, shown]
      · simp only [hle, if_false, newer, not_le.mp hle, if_true]
        by_cases hpresent : mine.present
        · simp only [hpresent, Bool.not_true, Bool.false_eq_true, if_false]
          exact hfirst hpresent hmine
        · simp [hpresent, shown]

/-- What is published: one row for each account, each with its newer register. -/
theorem ContactSide.publish : ContactSide digest owner known (mergeForPublish ours theirs).contacts
      (mergeForPublish ours theirs).contactClock := by
  have hrow : ∀ c ∈ (mergeContacts ours theirs).1, c.ids = c.remote.ids ∧ c.localFields ∈ known ∧
      contactClockAccount c ≠ "" ∧ contactClockAccount c = owner c.id := by
    intro c hc
    have hmerged := mergedRow_some (mem_mergedContacts.mp hc)
    rcases hmerged.2.2 with hside | hside
    · have hmirrored := hours.book.mirrored c hside
      have haccount : contactClockAccount c ≠ "" := accountOf_eq hmirrored ▸ hmerged.1
      exact ⟨hmirrored, hours.book.known c hside, haccount, hours.book.owned c hside haccount⟩
    · have hmirrored := htheirs.book.mirrored c hside
      have haccount : contactClockAccount c ≠ "" := accountOf_eq hmirrored ▸ hmerged.1
      exact ⟨hmirrored, htheirs.book.known c hside, haccount, htheirs.book.owned c hside haccount⟩
  have hdistinct : DistinctKeys accountOf (mergeContacts ours theirs).1 := distinctKeys_mergedContacts
  have hids : DistinctKeys (·.id) (mergeContacts ours theirs).1 := by
    refine hdistinct.imp_of_mem fun hc hc' hne hsame => hne ?_
    rw [accountOf_eq (hrow _ hc).1, accountOf_eq (hrow _ hc').1, (hrow _ hc).2.2.2, (hrow _ hc').2.2.2]
    exact congrArg owner hsame
  have hone : OneRowEach (mergeContacts ours theirs).1 := by
    intro c hc c' hc' _ hsame
    rw [← accountOf_eq (hrow c hc).1, ← accountOf_eq (hrow c' hc').1] at hsame
    exact eq_of_rowOf hdistinct (rowOf_of_mem hdistinct hc') hc hsame
  refine ⟨⟨hids, fun c hc => (hrow c hc).1, hone.oneContactEach hids, fun c hc _ => (hrow c hc).2.2.2,
    fun c hc => (hrow c hc).2.1⟩, distinctKeys_mergedClock, ?_, ?_⟩
  · rw [mergeForPublish, find_mergedClock hours.registers htheirs.registers, hours.named, htheirs.named]
    rfl
  · intro a
    by_cases ha : a = ""
    · subst ha
      rw [mergeForPublish, find_mergedClock hours.registers htheirs.registers, hours.named, htheirs.named]
      rfl
    · have hfields : syncedFields (mergeContacts ours theirs).1 a =
          (mergedRow ours theirs a).map (·.localFields) := by
        ext f
        rw [syncedFields_eq_some hone, Option.map_eq_some_iff]
        constructor
        · intro hf
          obtain ⟨-, c, hc, haccount, hcf⟩ := hf
          refine ⟨c, ?_, hcf⟩
          rw [← haccount, ← accountOf_eq (hrow c hc).1]
          exact mem_mergedContacts.mp hc
        · intro hf
          obtain ⟨c, hc, hcf⟩ := hf
          have haccount := (mergedRow_some hc).2.1
          have hmem : c ∈ (mergeContacts ours theirs).1 := mem_mergedContacts.mpr (haccount ▸ hc)
          exact ⟨ha, c, hmem, (accountOf_eq (hrow c hmem).1).symm.trans haccount, hcf⟩
      rw [mergeForPublish, find_mergedClock hours.registers htheirs.registers]
      exact (congrArg (Option.map digest) hfields).trans (mergedRow_shown hours htheirs ha)

end

end Pbr
