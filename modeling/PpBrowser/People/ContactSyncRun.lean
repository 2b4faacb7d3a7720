import PpBrowser.People.ContactSync

/-!
# ContactSyncRun — two devices of an account, in any interleaving

The address books of two devices of one account, edited, published into the
account locker and brought up to what it holds
(`AccountLockerWorkflow::Publish`, its two halves apart). The registers are
replicas: the newest wins on every way, and each book says what its
registers say.
-/

namespace Pbr

open Lib ContactClock AccountLocker

structure SyncDevice where
  contacts : List Contact := []
  clock : Entries := []

/-- What a device publishes of its contacts. -/
def SyncDevice.state (device : SyncDevice) : AccountLockerState where
  contacts := device.contacts
  contactClock := device.clock

/-- What the user did to one account's contact; no fields, when it was removed. -/
structure ContactEdit where
  side : Side
  accountId : String
  atMs : Int
  fields : Option ContactLocal

/-- The devices and the account locker. -/
structure ContactNet where
  device : Side → SyncDevice := fun _ => {}
  stored : Option AccountLockerState := none
  /-- The edits noticed so far; no step reads them. -/
  edits : List ContactEdit := []

inductive ContactEvent where
  /-- The address book is now `contacts`, and the clock looks at it. -/
  | edit (s : Side) (contacts : List Contact) (nowMs : Int)
  | publish (s : Side)
  | catchUp (s : Side)

namespace ContactNet

variable (digest : Digest)

def setDevice (net : ContactNet) (s : Side) (device : SyncDevice) : ContactNet :=
  { net with device := fun t => if t = s then device else net.device t }

/-- The registers a look at the address book changed. -/
def editsOf (s : Side) (before after : Entries) (contacts : List Contact) : List ContactEdit :=
  (after.filter fun entry => find before entry.accountId ≠ some entry).map fun entry =>
    { side := s
      accountId := entry.accountId
      atMs := entry.atMs
      fields := syncedFields contacts entry.accountId }

def step (net : ContactNet) : ContactEvent → ContactNet
  | .edit s contacts nowMs =>
    let before := (net.device s).clock
    let clock := (observe digest before contacts nowMs).2
    { net.setDevice s { contacts, clock } with
      edits := net.edits ++ editsOf s before clock contacts }
  | .publish s =>
    let ours := (net.device s).state
    match net.stored with
    | none => { net with stored := some ours }
    | some stored => { net with stored := some (mergeForPublish ours stored) }
  | .catchUp s =>
    match net.stored with
    | none => net
    | some stored =>
      let ours := net.device s
      let (plan, clock) := mergeRemote digest ours.clock stored.contactClock stored.contacts ours.contacts
      net.setDevice s { contacts := plan.apply ours.contacts, clock }

/-- The registers of the devices and of the locker. -/
def replicas (net : ContactNet) : Replicas String ContactClockEntry where
  device := fun s a => find (net.device s).clock a
  store := fun a => net.stored.bind fun stored => find stored.contactClock a

/-- An edit gives no account a time that the other device or the locker has
for it with other contents. -/
def Timely (net : ContactNet) (s : Side) (contacts : List Contact) (nowMs : Int) : Prop :=
  ∀ a entry, net.replicas.device s.other a = some entry ∨ net.replicas.store a = some entry →
    edited digest (net.replicas.device s a) (syncedFields contacts a) →
      entry.atMs = editTime (net.replicas.device s a) nowMs →
        entry = entryOf digest a entry.atMs (syncedFields contacts a)

/-- An edit of an address book that the contacts store can hold, at a time
of its own. -/
def Proper (owner : String → String) (known : Set ContactLocal) (net : ContactNet) : ContactEvent → Prop
  | .edit s contacts nowMs => ContactBook owner known contacts ∧ net.Timely digest s contacts nowMs
  | .publish _ => True
  | .catchUp _ => True

/-- Neither publishing nor catching up changes a register. -/
def Settled (net : ContactNet) : Prop :=
  ∀ s, (net.step digest (.publish s)).replicas = net.replicas ∧
    (net.step digest (.catchUp s)).replicas = net.replicas

/-- `fields` are those of an edit no older than any other of the account. -/
def NewestOf (edits : List ContactEdit) (a : String) (fields : Option ContactLocal) : Prop :=
  (fields = none ∧ ∀ e ∈ edits, e.accountId ≠ a) ∨
    ∃ newest ∈ edits, newest.accountId = a ∧ newest.fields = fields ∧
      ∀ e ∈ edits, e.accountId = a → e.atMs < newest.atMs ∨ e.atMs = newest.atMs ∧ e.fields = fields

end ContactNet

def ContactEdit.write (digest : Digest) (e : ContactEdit) : RegisterWrite String ContactClockEntry where
  side := e.side
  key := e.accountId
  register := entryOf digest e.accountId e.atMs e.fields

namespace ContactNet

variable {digest : Digest} {owner : String → String} {known : Set ContactLocal} {net : ContactNet} {s : Side}
  {contacts : List Contact} {nowMs : Int} {a : String}

/-! ## The steps on the registers -/

variable (digest owner known) in
/-- What every admitted step keeps. -/
structure Consistent (net : ContactNet) : Prop where
  side : ∀ s, ContactSide digest owner known (net.device s).contacts (net.device s).clock
  stored : ∀ stored, net.stored = some stored →
    ContactSide digest owner known stored.contacts stored.contactClock
  sound : Replicas.Sound (·.atMs) (net.edits.map (ContactEdit.write digest)) net.replicas
  known : ∀ e ∈ net.edits, ∀ f, e.fields = some f → f ∈ known

theorem device_setDevice {device : SyncDevice} {t : Side} :
    (net.setDevice s device).device t = if t = s then device else net.device t := rfl

theorem replicas_publish (h : Consistent digest owner known net) :
    (net.step digest (.publish s)).replicas = net.replicas.publish (·.atMs) s := by
  rw [step]
  cases hstored : net.stored with
  | none =>
    simp only [replicas, Replicas.publish, hstored, SyncDevice.state]
    rfl
  | some stored =>
    simp only [replicas, Replicas.publish, hstored, Option.bind_some]
    congr 1
    funext a
    exact find_mergedClock (h.side s).registers (h.stored stored hstored).registers

theorem replicas_catchUp (h : Consistent digest owner known net) :
    (net.step digest (.catchUp s)).replicas = net.replicas.catchUp (·.atMs) s := by
  have hdevice : ∀ t a, (net.step digest (.catchUp s)).replicas.device t a =
      (net.replicas.catchUp (·.atMs) s).device t a := by
    intro t a
    rw [step]
    cases hstored : net.stored with
    | none =>
      by_cases ht : t = s
      · subst ht
        simp [replicas, Replicas.catchUp, hstored]
      · simp [replicas, Replicas.catchUp, ht]
    | some stored =>
      by_cases ht : t = s
      · subst ht
        simp only [replicas, Replicas.catchUp, hstored, device_setDevice, if_true, Option.bind_some]
        exact (h.stored stored hstored).find_mergeRemote
      · simp [replicas, Replicas.catchUp, device_setDevice, ht]
  have hstore : (net.step digest (.catchUp s)).replicas.store = (net.replicas.catchUp (·.atMs) s).store := by
    rw [step]
    cases hstored : net.stored with
    | none => rfl
    | some stored => simp [replicas, Replicas.catchUp, setDevice, hstored]
  exact congrArg₂ Replicas.mk (funext fun t => funext (hdevice t)) hstore

theorem replicas_edit : (net.step digest (.edit s contacts nowMs)).replicas =
      net.replicas.write s (find (observe digest (net.device s).clock contacts nowMs).2) := by
  refine congrArg₂ Replicas.mk (funext fun t => funext fun a => ?_) rfl
  by_cases ht : t = s
  · subst ht
    simp [step, device_setDevice]
  · simp [step, device_setDevice, ht, replicas]

theorem mem_editsOf {e : ContactEdit} (h : ContactSide digest owner known (net.device s).contacts (net.device s).clock)
    (hbook : ContactBook owner known contacts) :
    e ∈ editsOf s (net.device s).clock (observe digest (net.device s).clock contacts nowMs).2 contacts ↔
      e.side = s ∧ e.fields = syncedFields contacts e.accountId ∧
        e.atMs = editTime (find (net.device s).clock e.accountId) nowMs ∧
        edited digest (find (net.device s).clock e.accountId) (syncedFields contacts e.accountId) := by
  have hafter : DistinctKeys (·.accountId) (observe digest (net.device s).clock contacts nowMs).2 :=
    distinctKeys_observe h.registers
  have hfind : ∀ a, find (observe digest (net.device s).clock contacts nowMs).2 a = _ :=
    fun a => find_observe hbook.oneEach
  simp only [editsOf, List.mem_map, List.mem_filter, decide_eq_true_eq]
  constructor
  · intro he
    obtain ⟨entry, ⟨hentry, hnew⟩, rfl⟩ := he
    have hfound : find (observe digest (net.device s).clock contacts nowMs).2 entry.accountId = some entry :=
      rowOf_of_mem hafter hentry
    rw [hfind] at hfound
    split at hfound
    · next hedited =>
        refine ⟨rfl, rfl, ?_, hedited⟩
        exact (congrArg (·.atMs) (Option.some.inj hfound)).symm
    · exact absurd hfound hnew
  · intro he
    obtain ⟨hside, hfields, hat, hedited⟩ := he
    have hfound := hfind e.accountId
    rw [if_pos hedited] at hfound
    refine ⟨_, ⟨(find_some hfound).1, ?_⟩, ?_⟩
    · intro hsame
      have hlater : ∀ entry, find (net.device s).clock e.accountId = some entry →
          entry.atMs < editTime (find (net.device s).clock e.accountId) nowMs := by
        intro entry hentry
        rw [hentry]
        exact lt_editTime
      exact lt_irrefl _ (hlater _ hsame)
    · obtain ⟨side, accountId, atMs, fields⟩ := e
      simp only at hside hfields hat
      rw [hside, hfields, hat]
      rfl

theorem Consistent.edit (h : Consistent digest owner known net) (hbook : ContactBook owner known contacts)
    (htimely : net.Timely digest s contacts nowMs) :
    Consistent digest owner known (net.step digest (.edit s contacts nowMs)) where
  side := by
    intro t
    by_cases ht : t = s
    · subst ht
      simpa [step, device_setDevice] using (h.side t).observe hbook
    · simpa [step, device_setDevice, ht] using h.side t
  stored := h.stored
  known := by
    intro e he f hf
    rcases List.mem_append.mp he with he | he
    · exact h.known e he f hf
    · obtain ⟨-, hfields, -⟩ := (mem_editsOf (h.side s) hbook).mp he
      rw [hf] at hfields
      obtain ⟨-, c, hc, -, rfl⟩ :=
        (syncedFields_eq_some (OneRowEach.of_oneContactEach hbook.oneEach)).mp hfields.symm
      exact hbook.known c hc
  sound := by
    rw [replicas_edit]
    have hedits : (net.step digest (.edit s contacts nowMs)).edits.map (ContactEdit.write digest) =
        net.edits.map (ContactEdit.write digest) ++ (editsOf s (net.device s).clock
          (observe digest (net.device s).clock contacts nowMs).2 contacts).map (ContactEdit.write digest) :=
      List.map_append
    rw [hedits]
    apply h.sound.write
    · intro a
      rw [find_observe hbook.oneEach]
      by_cases hedited : edited digest (find (net.device s).clock a) (syncedFields contacts a)
      · rw [if_pos hedited]
        refine .inr ⟨_, rfl, ?_, ?_, ?_⟩
        · intro old hold
          have hold' : find (net.device s).clock a = some old := hold
          rw [hold']
          exact lt_editTime
        · intro r hr htime
          -- at that time the other device and the locker have this or nothing
          have helsewhere : net.replicas.device s.other a = some r ∨ net.replicas.store a = some r →
              r = entryOf digest a (editTime (find (net.device s).clock a) nowMs)
                (syncedFields contacts a) := by
            intro hentry
            rw [← (show r.atMs = editTime (find (net.device s).clock a) nowMs from htime)]
            exact htimely a r hentry hedited htime
          rcases hr with ⟨t, hr⟩ | hr
          · rcases Side.eq_or_eq_other s t with rfl | rfl
            · have hr' : find (net.device t).clock a = some r := hr
              have hlt : r.atMs < editTime (find (net.device t).clock a) nowMs := by
                rw [hr']
                exact lt_editTime
              exact absurd htime (ne_of_lt hlt)
            · exact helsewhere (.inl hr)
          · exact helsewhere (.inr hr)
        · refine List.mem_map.mpr ⟨⟨s, a, editTime (find (net.device s).clock a) nowMs,
            syncedFields contacts a⟩, (mem_editsOf (h.side s) hbook).mpr ⟨rfl, rfl, rfl, hedited⟩, rfl⟩
      · exact .inl (if_neg hedited)
    · intro w hw
      obtain ⟨e, he, rfl⟩ := List.mem_map.mp hw
      obtain ⟨hside, hfields, hat, hedited⟩ := (mem_editsOf (h.side s) hbook).mp he
      refine ⟨hside, ?_⟩
      rw [find_observe hbook.oneEach, ContactEdit.write, if_pos hedited, hfields, hat]

theorem Consistent.publish (h : Consistent digest owner known net) :
    Consistent digest owner known (net.step digest (.publish s)) where
  side := by
    intro t
    rw [step]
    cases hstored : net.stored with
    | none | some stored => exact h.side t
  stored := by
    intro stored hnew
    rw [step] at hnew
    cases hstored : net.stored with
    | none =>
      rw [hstored] at hnew
      obtain rfl := Option.some.inj hnew
      exact h.side s
    | some old =>
      rw [hstored] at hnew
      obtain rfl := Option.some.inj hnew
      have hours : ContactSide digest owner known (net.device s).state.contacts
          (net.device s).state.contactClock := h.side s
      exact hours.publish (h.stored old hstored)
  known := by
    rw [step]
    cases hstored : net.stored with
    | none | some stored => exact h.known
  sound := by
    rw [replicas_publish h]
    have hedits : (net.step digest (.publish s)).edits = net.edits := by
      rw [step]
      cases hstored : net.stored <;> rfl
    rw [hedits]
    exact h.sound.publish

theorem Consistent.catchUp (h : Consistent digest owner known net) :
    Consistent digest owner known (net.step digest (.catchUp s)) where
  side := by
    intro t
    rw [step]
    cases hstored : net.stored with
    | none => exact h.side t
    | some stored =>
      by_cases ht : t = s
      · subst ht
        simpa [device_setDevice] using (h.side t).catchUp (h.stored stored hstored)
      · simpa [device_setDevice, ht] using h.side t
  stored := by
    intro stored hnew
    rw [step] at hnew
    cases hstored : net.stored with
    | none =>
      rw [hstored] at hnew
      exact h.stored stored (hstored.symm ▸ hnew)
    | some old =>
      rw [hstored] at hnew
      exact h.stored stored hnew
  known := by
    rw [step]
    cases hstored : net.stored with
    | none | some stored => exact h.known
  sound := by
    rw [replicas_catchUp h]
    have hedits : (net.step digest (.catchUp s)).edits = net.edits := by
      rw [step]
      cases hstored : net.stored <;> rfl
    rw [hedits]
    exact h.sound.catchUp

theorem consistent_initial : Consistent digest owner known {} where
  side := fun _ =>
    ⟨⟨.nil, by simp, .nil, by simp, by simp⟩, .nil, rfl, fun a => by simp [syncedFields, rowOf, find, shown]⟩
  stored := by simp
  sound := by
    have hnone : ∀ k r, ¬(ContactNet.replicas {}).Has k r := by
      intro k r hr
      rcases hr with ⟨t, hr⟩ | hr
      · cases hr
      · cases hr
    exact ⟨fun k r _ hr => absurd hr (hnone k r), fun k r hr => absurd hr (hnone k r), by simp⟩
  known := by simp

theorem consistent_run {events : List ContactEvent}
    (hrun : Admits (step digest) (Proper digest owner known) {} events) :
    Consistent digest owner known (events.foldl (step digest) {}) := by
  have hstep : ∀ net e, Consistent digest owner known net → Proper digest owner known net e →
      Consistent digest owner known (net.step digest e) := by
    intro net e h he
    cases e with
    | edit s contacts nowMs => exact h.edit he.1 he.2
    | publish s => exact h.publish
    | catchUp s => exact h.catchUp
  exact hrun.invariant hstep consistent_initial _ foldl_mem_states

/-! ## What the devices settle on -/

theorem Consistent.quiet (h : Consistent digest owner known net) (hsettled : net.Settled digest) :
    Replicas.Quiet (·.atMs) net.replicas := by
  intro t k
  obtain ⟨hpublish, hcatchUp⟩ := hsettled t
  rw [replicas_publish h] at hpublish
  rw [replicas_catchUp h] at hcatchUp
  refine ⟨congrFun (congrArg Replicas.store hpublish) k, ?_⟩
  have hdevice := congrFun (congrFun (congrArg Replicas.device hcatchUp) t) k
  simpa [Replicas.catchUp] using hdevice

theorem Consistent.fields_eq (h : Consistent digest owner known net) (hdigest : Set.InjOn digest known)
    {e : ContactEdit} (he : e ∈ net.edits)
    (hregister : find (net.device s).clock e.accountId = some (entryOf digest e.accountId e.atMs e.fields)) :
    syncedFields (net.device s).contacts e.accountId = e.fields := by
  have hagrees := (h.side s).shown_eq hregister
  cases hfields : e.fields with
  | none => simpa [hfields, entryOf] using hagrees
  | some f =>
    rw [hfields] at hagrees
    obtain ⟨f', hf', hsame⟩ : ∃ f', syncedFields (net.device s).contacts e.accountId = some f' ∧
        digest f' = digest f := by
      simpa [entryOf, Option.map_eq_some_iff] using hagrees
    obtain ⟨-, c, hc, -, rfl⟩ := (syncedFields_eq_some
      (OneRowEach.of_oneContactEach (h.side s).book.oneEach)).mp hf'
    rw [hf', hdigest ((h.side s).book.known c hc) (h.known e he f hfields) hsame]

theorem entryOf_inj {a' : String} {atMs atMs' : Int} {fields fields' : Option ContactLocal}
    (hdigest : Set.InjOn digest known) (hfields : ∀ f, fields = some f → f ∈ known)
    (hfields' : ∀ f, fields' = some f → f ∈ known)
    (h : entryOf digest a atMs fields = entryOf digest a' atMs' fields') : atMs = atMs' ∧ fields = fields' := by
  simp only [entryOf, ContactClockEntry.mk.injEq] at h
  obtain ⟨-, hat, hpresent, hsame⟩ := h
  refine ⟨hat, ?_⟩
  cases fields with
  | none =>
    cases fields' with
    | none => rfl
    | some f' => cases hpresent
  | some f =>
    cases fields' with
    | none => cases hpresent
    | some f' => rw [hdigest (hfields f rfl) (hfields' f' rfl) hsame]

/-- On each device every edit made there gave way only to a later one. -/
theorem Consistent.held (h : Consistent digest owner known net) (hdigest : Set.InjOn digest known)
    {e : ContactEdit} (he : e ∈ net.edits) : ∃ e' ∈ net.edits, e'.accountId = e.accountId ∧
      find (net.device e.side).clock e.accountId = some (entryOf digest e.accountId e'.atMs e'.fields) ∧
      syncedFields (net.device e.side).contacts e.accountId = e'.fields ∧
      (e.atMs < e'.atMs ∨ e.atMs = e'.atMs ∧ e.fields = e'.fields) := by
  obtain ⟨r, hr, hnewer⟩ := h.sound.kept _ (List.mem_map_of_mem he)
  obtain ⟨w, hw, hkey, rfl⟩ := h.sound.written e.accountId r (.inl ⟨e.side, hr⟩)
  obtain ⟨e', he', rfl⟩ := List.mem_map.mp hw
  have haccount : e'.accountId = e.accountId := hkey
  have hregister : find (net.device e.side).clock e'.accountId =
      some (entryOf digest e'.accountId e'.atMs e'.fields) := by
    rw [haccount]
    exact hr.trans (congrArg some (by rw [ContactEdit.write, haccount]))
  have hfields := h.fields_eq hdigest he' hregister
  rw [haccount] at hregister hfields
  refine ⟨e', he', haccount, hregister, hfields, ?_⟩
  rcases hnewer with hlt | hsame
  · exact .inl hlt
  · obtain ⟨hat, hsameFields⟩ := entryOf_inj hdigest (h.known e' he') (h.known e he) hsame
    exact .inr ⟨hat.symm, hsameFields.symm⟩

theorem Consistent.newestOf (h : Consistent digest owner known net) (hdigest : Set.InjOn digest known)
    (hsettled : net.Settled digest) : NewestOf net.edits a (syncedFields (net.device s).contacts a) := by
  have hquiet := h.quiet hsettled
  have hsame : find (net.device s).clock a = net.replicas.store a := h.sound.device_eq_store hquiet
  by_cases hedit : ∃ e ∈ net.edits, e.accountId = a
  · obtain ⟨e, he, rfl⟩ := hedit
    obtain ⟨newest, hnewest, haccount, hregister, -, -⟩ := h.held hdigest he
    have hstore : net.replicas.store e.accountId =
        some (entryOf digest newest.accountId newest.atMs newest.fields) := by
      rw [haccount, ← hregister]
      exact (h.sound.device_eq_store hquiet).symm
    have hfields : syncedFields (net.device s).contacts newest.accountId = newest.fields := by
      apply h.fields_eq hdigest hnewest
      rw [haccount, hsame, hstore, haccount]
    rw [haccount] at hfields
    refine .inr ⟨newest, hnewest, haccount, hfields.symm, ?_⟩
    intro e' he' haccount'
    obtain ⟨r, hr, hnewer⟩ := h.sound.newest hquiet _ (List.mem_map_of_mem he')
    have hr' : net.replicas.store e.accountId = some r := haccount' ▸ hr
    obtain rfl := Option.mem_unique hstore hr'
    rcases hnewer with hlt | heq
    · exact .inl hlt
    · obtain ⟨hat, hsameFields⟩ := entryOf_inj hdigest (h.known newest hnewest) (h.known e' he') heq
      exact .inr ⟨hat.symm, hsameFields.symm.trans hfields.symm⟩
  · have hnone : find (net.device s).clock a = none := by
      cases hfind : find (net.device s).clock a with
      | none => rfl
      | some r =>
        obtain ⟨w, hw, hkey, -⟩ := h.sound.written a r (.inl ⟨s, hfind⟩)
        obtain ⟨e, he, rfl⟩ := List.mem_map.mp hw
        exact absurd ⟨e, he, hkey⟩ hedit
    have hagrees := (h.side s).agrees a
    rw [hnone] at hagrees
    refine .inl ⟨by simpa [shown] using hagrees, ?_⟩
    intro e he haccount
    exact hedit ⟨e, he, haccount⟩

theorem NewestOf.unique {edits : List ContactEdit} {fields fields' : Option ContactLocal}
    (h : NewestOf edits a fields) (h' : NewestOf edits a fields') : fields = fields' := by
  rcases h with ⟨rfl, hnone⟩ | ⟨newest, hmem, haccount, hfields, hall⟩
  · rcases h' with ⟨rfl, -⟩ | ⟨newest', hmem', haccount', -, -⟩
    · rfl
    · exact absurd haccount' (hnone newest' hmem')
  · rcases h' with ⟨-, hnone⟩ | ⟨newest', hmem', haccount', hfields', hall'⟩
    · exact absurd haccount (hnone newest hmem)
    · rcases hall newest' hmem' haccount' with hlt | ⟨-, hsame⟩
      · rcases hall' newest hmem haccount with hlt' | ⟨-, hsame⟩
        · exact absurd hlt (lt_asymm hlt')
        · exact hfields.symm.trans hsame
      · exact hsame.symm.trans hfields'

theorem Consistent.published_row (h : Consistent digest owner known net) {stored : AccountLockerState}
    (hstored : net.stored = some stored) {entry : ContactClockEntry} (hentry : entry ∈ stored.contactClock)
    (hpresent : entry.present = true) : ∃ c ∈ stored.contacts, contactClockAccount c = entry.accountId := by
  have hside := h.stored stored hstored
  have hagrees := hside.shown_eq (rowOf_of_mem hside.registers hentry)
  rw [if_pos hpresent, Option.map_eq_some_iff] at hagrees
  obtain ⟨f, hf, -⟩ := hagrees
  obtain ⟨-, c, hc, haccount, -⟩ :=
    (syncedFields_eq_some (OneRowEach.of_oneContactEach hside.book.oneEach)).mp hf
  exact ⟨c, hc, haccount⟩

/-- One round of publishing by both and catching up by both. -/
def syncRound : List ContactEvent := [.publish .left, .publish .right, .catchUp .left, .catchUp .right]

theorem Consistent.settled_round (h : Consistent digest owner known net) :
    (syncRound.foldl (step digest) net).Settled digest := by
  have hleft := h.publish (s := .left)
  have hboth := hleft.publish (s := .right)
  have hcaught := hboth.catchUp (s := .left)
  have hround := hcaught.catchUp (s := .right)
  have hreplicas : (syncRound.foldl (step digest) net).replicas =
      (((net.replicas.publish (·.atMs) .left).publish (·.atMs) .right).catchUp (·.atMs) .left).catchUp
        (·.atMs) .right := by
    rw [← replicas_publish h, ← replicas_publish hleft, ← replicas_catchUp hboth, ← replicas_catchUp hcaught]
    rfl
  have hquiet : Replicas.Quiet (·.atMs) (syncRound.foldl (step digest) net).replicas := by
    rw [hreplicas]
    exact h.sound.quiet
  intro s
  have hround' : Consistent digest owner known (syncRound.foldl (step digest) net) := hround
  rw [replicas_publish hround', replicas_catchUp hround']
  generalize (syncRound.foldl (step digest) net).replicas = replicas at hquiet
  constructor
  · exact congrArg (Replicas.mk replicas.device) (funext fun k => (hquiet s k).1)
  · refine congrArg (Replicas.mk · replicas.store) (funext fun t => funext fun k => ?_)
    by_cases ht : t = s
    · subst ht
      simpa using (hquiet t k).2
    · simp [ht]

end ContactNet

open ContactNet in
/-- Two devices of one account end with the same contacts, wherever no two
of their edits of a contact share a time with different contents: once
nothing changes any more both hold, for each account, the fields of an edit
no older than any other. An edit made on a device gives way there only to a
later one, so a removed contact is back only by a later edit; every present
register is published with its row; and a round of publishing and catching
up settles. -/
theorem contacts_settle {digest : Digest} {owner : String → String} {known : Set ContactLocal}
    (hdigest : Set.InjOn digest known) {events : List ContactEvent}
    (hrun : Admits (step digest) (ContactNet.Proper digest owner known) {} events) :
    let net := events.foldl (step digest) {}
    (net.Settled digest → ∀ a,
      syncedFields (net.device .left).contacts a = syncedFields (net.device .right).contacts a ∧
        NewestOf net.edits a (syncedFields (net.device .left).contacts a)) ∧
    (∀ e ∈ net.edits, ∃ e' ∈ net.edits, e'.accountId = e.accountId ∧
      syncedFields (net.device e.side).contacts e.accountId = e'.fields ∧
        (e.atMs < e'.atMs ∨ e.atMs = e'.atMs ∧ e.fields = e'.fields)) ∧
    (∀ stored, net.stored = some stored → ∀ entry ∈ stored.contactClock, entry.present →
      ∃ c ∈ stored.contacts, contactClockAccount c = entry.accountId) ∧
    (syncRound.foldl (step digest) net).Settled digest := by
  intro net
  have h : Consistent digest owner known net := consistent_run hrun
  refine ⟨?_, ?_, ?_, h.settled_round⟩
  · intro hsettled a
    have hleft := h.newestOf (s := .left) (a := a) hdigest hsettled
    have hright := h.newestOf (s := .right) (a := a) hdigest hsettled
    exact ⟨hleft.unique hright, hleft⟩
  · intro e he
    obtain ⟨e', he', haccount, -, hfields, hlater⟩ := h.held hdigest he
    exact ⟨e', he', haccount, hfields, hlater⟩
  · intro stored hstored entry hentry hpresent
    exact h.published_row hstored hentry hpresent

/-! ## Samples -/

namespace ContactNet

/-- A contact of one account, named by the user. -/
def sampleContact (id account name : String) : Contact where
  id := id
  localFields := { displayName := name }
  remote := { ids := [{ kind := .account, value := account, primary := true }] }
  displayName := name
  ids := [{ kind := .account, value := account, primary := true }]

def sampleDigest : Digest := fun fields => fields.displayName

theorem sampleDigest_injOn : Set.InjOn sampleDigest {fields | fields.trust = .unknown} := by
  intro f hf f' hf' h
  obtain ⟨name, trust⟩ := f
  obtain ⟨name', trust'⟩ := f'
  have htrust : trust = .unknown := hf
  have htrust' : trust' = .unknown := hf'
  have hname : name = name' := h
  rw [htrust, htrust', hname]

def sampleEdit : ContactEvent := .edit .left [sampleContact "c1" "account:bob" "Bob"] 100

theorem sampleEdit_proper : Proper sampleDigest (fun _ => "account:bob")
    {fields | fields.trust = .unknown} {} sampleEdit := by
  refine ⟨⟨List.pairwise_singleton .., ?_, List.pairwise_singleton .., ?_, ?_⟩, ?_⟩
  · simp [sampleContact]
  · simp [sampleContact, contactClockAccount, firstAccount]
  · simp [sampleContact]
  · intro a entry hentry
    rcases hentry with hentry | hentry
    · cases hentry
    · cases hentry

/-- One device adds a contact, and both sync. -/
theorem contacts_settle_sample :
    let net := (sampleEdit :: syncRound).foldl (step sampleDigest) {}
    net.Settled sampleDigest ∧
      syncedFields (net.device .right).contacts "account:bob" = some { displayName := "Bob" } := by
  intro net
  have hedit : Admits (step sampleDigest) (Proper sampleDigest (fun _ => "account:bob")
      {fields | fields.trust = .unknown}) {} [sampleEdit] := ⟨sampleEdit_proper, trivial⟩
  have hevents : Admits (step sampleDigest) (Proper sampleDigest (fun _ => "account:bob")
      {fields | fields.trust = .unknown}) {} (sampleEdit :: syncRound) :=
    ⟨sampleEdit_proper, trivial, trivial, trivial, trivial, trivial⟩
  have hround := (contacts_settle sampleDigest_injOn hedit).2.2.2
  have hsame := (contacts_settle sampleDigest_injOn hevents).1 hround "account:bob"
  refine ⟨hround, hsame.1.symm.trans ?_⟩
  decide +kernel

/-- Both devices name a contact at the same time, and both sync. -/
def tiedEvents : List ContactEvent :=
  .edit .left [sampleContact "c1" "account:bob" "Bob"] 100 ::
    .edit .right [sampleContact "c2" "account:bob" "Bobby"] 100 :: syncRound

theorem settled_of_unchanged {net : ContactNet} {digest : Digest}
    (hpublish : ∀ s, (net.step digest (.publish s)).stored = net.stored)
    (hcatchUp : ∀ s t, ((net.step digest (.catchUp s)).device t).clock = (net.device t).clock) :
    net.Settled digest := by
  have hdevice : ∀ s, (net.step digest (.publish s)).device = net.device := by
    intro s
    rw [step]
    cases net.stored <;> rfl
  have hstored : ∀ s, (net.step digest (.catchUp s)).stored = net.stored := by
    intro s
    rw [step]
    cases hnet : net.stored with
    | none | some stored => exact hnet
  intro s
  constructor
  · simp only [replicas, hpublish s, hdevice s]
  · simp only [replicas, hstored s, hcatchUp s]

/-- Where two edits share a time nothing changes any more, and the devices
hold different contacts. -/
theorem equal_times_split :
    let net := tiedEvents.foldl (step sampleDigest) {}
    net.Settled sampleDigest ∧
      syncedFields (net.device .left).contacts "account:bob" = some { displayName := "Bob" } ∧
      syncedFields (net.device .right).contacts "account:bob" = some { displayName := "Bobby" } := by
  refine ⟨settled_of_unchanged ?_ ?_, by decide +kernel, by decide +kernel⟩
  · decide +kernel
  · decide +kernel

end ContactNet

end Pbr
