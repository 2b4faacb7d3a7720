import Mathlib.Data.List.Basic
import Mathlib.Logic.Function.Basic
import PpBrowser.Lib.Runs
import PpBrowser.Secrets.DataKeyVault

/-!
# UnlockedKeys — the vault's key and who holds it

`ProfileSecretsEngine.cpp`. A consumer is told by its name; what it holds is
kept beside the engine, and one that refuses a key keeps what it had. What
the grace and the biometric store answer comes with a call.
-/

namespace Pbr

/-- `GraceUnlock::Status` and `BiometricUnlock::Status`. -/
inductive UnlockStatus where
  | found | expired | missing | unavailable | canceled
  deriving DecidableEq, Repr

/-- An engine, the vault of its profile, and what the consumers hold; no key
is the empty one. `initialized_` goes with the vault object. -/
structure ProfileSecretsEngine (Consumer : Type) where
  initialized : Bool
  vault : DataKeyVault
  dekConsumers : List Consumer := []
  unlocked : Bool := false
  held : Consumer → ByteVector

/-- What a call finds outside: the vault's world and who refuses a key. -/
structure SecretsWorld (Consumer : Type) extends VaultWorld where
  refuses : Consumer → Bool := fun _ => false

namespace ProfileSecretsEngine

variable {Consumer : Type} [DecidableEq Consumer]

/-- `SetDek` of each consumer in turn, up to one that refuses. -/
def setDeks (refuses : Consumer → Bool) (dek : ByteVector) :
    List Consumer → (Consumer → ByteVector) → Roe Unit × (Consumer → ByteVector)
  | [], held => (.ok (), held)
  | consumer :: rest, held =>
    if refuses consumer then (.error "DEK refused", held)
    else setDeks refuses dek rest (Function.update held consumer dek)

variable (K : VaultCrypto) (world : SecretsWorld Consumer) (engine : ProfileSecretsEngine Consumer)

def registerDekConsumer (consumer : Consumer) : ProfileSecretsEngine Consumer :=
  if consumer ∈ engine.dekConsumers then engine
  else { engine with dekConsumers := engine.dekConsumers ++ [consumer] }

def unregisterDekConsumer (consumer : Consumer) : ProfileSecretsEngine Consumer :=
  { engine with dekConsumers := engine.dekConsumers.filter (· ≠ consumer) }

def distributeDek (dek : ByteVector) : Roe Unit × ProfileSecretsEngine Consumer :=
  let (result, held) := setDeks world.refuses dek engine.dekConsumers engine.held
  (result, { engine with held })

/-- Clears what the consumers hold, and the list. -/
def clearDekConsumers : ProfileSecretsEngine Consumer :=
  { engine with
    held := fun consumer => if consumer ∈ engine.dekConsumers then [] else engine.held consumer
    dekConsumers := [] }

def lock : ProfileSecretsEngine Consumer :=
  { engine.clearDekConsumers with vault := engine.vault.lock, unlocked := false }

/-- The part of `Unlock` that leaves the vault open. -/
def openVault (pin : String) : Roe DataKeyVault :=
  if ¬ engine.vault.exists_ then engine.vault.create K world.toVaultWorld pin
  else if ¬ engine.vault.isUnlocked then engine.vault.unlock K world.toVaultWorld pin
  else .ok engine.vault

def unlock (pin : String) : Roe Unit × ProfileSecretsEngine Consumer :=
  if ¬ engine.initialized then (.error "Profile secrets service not initialized", engine)
  else if engine.unlocked then (.ok (), engine)
  else if pin = "" then (.error "PIN is required", engine)
  else
    match engine.openVault K world pin with
    | .error e => (.error e, engine)
    | .ok vault =>
      let engine := { engine with vault }
      match vault.getDek with
      | .error e => (.error e, engine)
      | .ok dek =>
        match engine.distributeDek world dek with
        | (.error e, engine) => (.error e, engine.lock)
        | (.ok _, engine) => (.ok (), { engine with unlocked := true })

def redistributeUnlockedDek : Roe Unit × ProfileSecretsEngine Consumer :=
  if ¬ engine.initialized ∨ ¬ engine.vault.isUnlocked then (.error "Profile vault is not unlocked", engine)
  else
    match engine.vault.getDek with
    | .error e => (.error e, engine)
    | .ok dek =>
      match engine.distributeDek world dek with
      | (.error e, engine) => (.error e, engine)
      | (.ok _, engine) => (.ok (), { engine with unlocked := true })

/-- `TryGraceUnlock` and `TryBiometricUnlock`, with what the store answers:
they differ in the store, and in forgetting there a key the vault does not
take. -/
def tryHeldDek (supported : Bool) (found : Roe (UnlockStatus × ByteVector)) :
    Roe UnlockStatus × ProfileSecretsEngine Consumer :=
  if ¬ engine.initialized ∨ ¬ supported then (.ok .missing, engine)
  else
    match found with
    | .error e => (.error e, engine)
    | .ok (status, dek) =>
      if status ≠ .found ∨ engine.unlocked then (.ok status, engine)
      else if ¬ engine.vault.exists_ then (.ok .missing, engine)
      else
        match engine.vault.unlockWithDek dek with
        | .error _ => (.ok .missing, engine)
        | .ok vault =>
          match redistributeUnlockedDek world { engine with vault } with
          | (.error e, engine) => (.error e, engine.lock)
          | (.ok _, engine) => (.ok status, engine)

def tryGraceUnlock (supported : Bool) (found : Roe (UnlockStatus × ByteVector)) :
    Roe UnlockStatus × ProfileSecretsEngine Consumer :=
  engine.tryHeldDek world supported found

def tryBiometricUnlock (supported : Bool) (found : Roe (UnlockStatus × ByteVector)) :
    Roe UnlockStatus × ProfileSecretsEngine Consumer :=
  engine.tryHeldDek world supported found

def verifyPin (pin : String) : Roe Unit := do
  refuseIf (¬ engine.initialized) "Profile secrets service not initialized"
  let bytes ← engine.vault.readVaultFile world.toVaultWorld
  let _ ← unwrapDekFromVaultBytes K bytes engine.vault.profileId pin
  return ()

def changePin (currentPin newPin : String) : Roe Unit × ProfileSecretsEngine Consumer :=
  if ¬ engine.initialized then (.error "Profile secrets service not initialized", engine)
  else
    match engine.vault.changePin K world.toVaultWorld currentPin newPin with
    | .error e => (.error e, engine)
    | .ok vault => (.ok (), { engine with vault })

/-! ## Calls -/

inductive Call (Consumer : Type) where
  | unlock (pin : String) (world : SecretsWorld Consumer)
  | lock
  | tryGraceUnlock (supported : Bool) (found : Roe (UnlockStatus × ByteVector)) (world : SecretsWorld Consumer)
  | tryBiometricUnlock (supported : Bool) (found : Roe (UnlockStatus × ByteVector)) (world : SecretsWorld Consumer)
  | changePin (currentPin newPin : String) (world : SecretsWorld Consumer)
  | verifyPin (pin : String) (world : SecretsWorld Consumer)
  | redistributeUnlockedDek (world : SecretsWorld Consumer)
  | registerDekConsumer (consumer : Consumer)
  | unregisterDekConsumer (consumer : Consumer)

def after : Call Consumer → ProfileSecretsEngine Consumer
  | .unlock pin world => (engine.unlock K world pin).2
  | .lock => engine.lock
  | .tryGraceUnlock supported found world => (engine.tryGraceUnlock world supported found).2
  | .tryBiometricUnlock supported found world => (engine.tryBiometricUnlock world supported found).2
  | .changePin currentPin newPin world => (engine.changePin K world currentPin newPin).2
  | .verifyPin _ _ => engine
  | .redistributeUnlockedDek world => (engine.redistributeUnlockedDek world).2
  | .registerDekConsumer consumer => engine.registerDekConsumer consumer
  | .unregisterDekConsumer consumer => engine.unregisterDekConsumer consumer

/-- The call answers that the profile is unlocked. -/
def ReportsUnlock : Call Consumer → Prop
  | .unlock pin world => (engine.unlock K world pin).1 = .ok ()
  | .tryGraceUnlock supported found world => (engine.tryGraceUnlock world supported found).1 = .ok .found
  | .tryBiometricUnlock supported found world => (engine.tryBiometricUnlock world supported found).1 = .ok .found
  | .redistributeUnlockedDek world => (engine.redistributeUnlockedDek world).1 = .ok ()
  | _ => False

end ProfileSecretsEngine

end Pbr

/-! ## Who holds a key, over whole runs -/

namespace Pbr.ProfileSecretsEngine

open DataKeyVault

variable {Consumer : Type} [DecidableEq Consumer]

/-! ## What a call does to the keys -/

section

variable {refuses : Consumer → Bool} {dek : ByteVector} {consumers : List Consumer} {held : Consumer → ByteVector}
  {consumer : Consumer}

theorem setDeks_of_notMem (h : consumer ∉ consumers) :
    (setDeks refuses dek consumers held).2 consumer = held consumer := by
  induction consumers generalizing held with
  | nil => rfl
  | cons first rest ih =>
    rw [List.mem_cons, not_or] at h
    unfold setDeks
    split
    · rfl
    · rw [ih h.2, Function.update_of_ne h.1]

theorem setDeks_ok (h : (setDeks refuses dek consumers held).1 = .ok ())
    (hmem : consumer ∈ consumers) : (setDeks refuses dek consumers held).2 consumer = dek := by
  induction consumers generalizing held with
  | nil => cases hmem
  | cons first rest ih =>
    unfold setDeks at h ⊢
    split_ifs at h ⊢
    by_cases hrest : consumer ∈ rest
    · exact ih h hrest
    · obtain rfl : consumer = first := by simpa [hrest] using hmem
      rw [setDeks_of_notMem hrest, Function.update_self]

end

variable {K : VaultCrypto} {world : SecretsWorld Consumer} {engine : ProfileSecretsEngine Consumer}

/-- What becomes of a distribution: the consumers off the list keep what they
have, and those on it have the key if all took it. -/
theorem distributeDek_cases (engine : ProfileSecretsEngine Consumer) (world : SecretsWorld Consumer) (dek : ByteVector) :
    ∃ held, (∀ consumer, consumer ∉ engine.dekConsumers → held consumer = engine.held consumer) ∧
      ((∃ e, engine.distributeDek world dek = (.error e, { engine with held })) ∨
        engine.distributeDek world dek = (.ok (), { engine with held }) ∧
          ∀ consumer ∈ engine.dekConsumers, held consumer = dek) := by
  refine ⟨(setDeks world.refuses dek engine.dekConsumers engine.held).2, ?_, ?_⟩
  · intro consumer hoff
    exact setDeks_of_notMem hoff
  · cases hresult : (setDeks world.refuses dek engine.dekConsumers engine.held).1 with
    | error e =>
      refine .inl ⟨e, ?_⟩
      rw [distributeDek, ← hresult]
    | ok _ =>
      refine .inr ⟨?_, ?_⟩
      · rw [distributeDek, ← hresult]
      · intro consumer hmem
        exact setDeks_ok hresult hmem

/-! ## The invariant -/

/-- A locked engine has no key anywhere; a consumer that a lock dropped has
none; and the open vault's key is the one its file wraps. -/
structure Kept (K : VaultCrypto) (engine : ProfileSecretsEngine Consumer) (enrolled : List Consumer) : Prop where
  locked : engine.unlocked = false → engine.vault.dek = [] ∧ ∀ consumer ∈ enrolled, engine.held consumer = []
  dropped : ∀ consumer ∈ enrolled, consumer ∉ engine.dekConsumers → engine.held consumer = []
  opened : engine.unlocked = true → engine.vault.dek ≠ []
  wraps : engine.vault.dek ≠ [] → engine.vault.Wraps K engine.vault.dek

variable {enrolled : List Consumer}

section

variable (hdropped : ∀ consumer ∈ enrolled, consumer ∉ engine.dekConsumers → engine.held consumer = [])
include hdropped

theorem kept_lock : Kept K engine.lock enrolled := by
  have hcleared : ∀ consumer ∈ enrolled, engine.lock.held consumer = [] := by
    intro consumer hmem
    show (if consumer ∈ engine.dekConsumers then [] else engine.held consumer) = []
    split_ifs with hlisted
    · rfl
    · exact hdropped consumer hmem hlisted
  constructor
  · intro _
    exact ⟨rfl, hcleared⟩
  · intro consumer hmem _
    exact hcleared consumer hmem
  · intro h
    cases h
  · intro h
    exact absurd rfl h

/-- The tail of every unlock: the open vault's key is handed out, and the
engine is unlocked or, where a consumer refused, locked again. -/
theorem kept_distribute
    (hsome : engine.vault.dek ≠ []) (hwraps : engine.vault.Wraps K engine.vault.dek) {held : Consumer → ByteVector}
    (hheld : ∀ consumer, consumer ∉ engine.dekConsumers → held consumer = engine.held consumer) :
    Kept K { engine with held, unlocked := true } enrolled ∧ Kept K { engine with held }.lock enrolled := by
  have hdropped' : ∀ consumer ∈ enrolled, consumer ∉ engine.dekConsumers → held consumer = [] := by
    intro consumer hmem hoff
    rw [hheld consumer hoff]
    exact hdropped consumer hmem hoff
  refine ⟨⟨?_, hdropped', fun _ => hsome, fun _ => hwraps⟩, kept_lock hdropped'⟩
  intro h
  cases h

end

/-! ## Unlocking calls -/

/-- How a call that may unlock ends, and whether it reports an unlock. -/
inductive Unlocking (K : VaultCrypto) (engine : ProfileSecretsEngine Consumer) : Bool → ProfileSecretsEngine Consumer → Prop
  /-- Refused, or nothing found. -/
  | refused : Unlocking K engine false engine
  /-- It was unlocked: nothing is handed out. -/
  | already (h : engine.unlocked = true) : Unlocking K engine true engine
  /-- The file wraps no key. -/
  | empty (vault : DataKeyVault) (hlocked : engine.unlocked = false) (h : vault.dek = []) :
      Unlocking K engine false { engine with vault }
  /-- A consumer refused, of an unlocked engine. -/
  | kept (held : Consumer → ByteVector) (hunlocked : engine.unlocked = true)
      (hoff : ∀ consumer, consumer ∉ engine.dekConsumers → held consumer = engine.held consumer) :
      Unlocking K engine false { engine with held }
  /-- A consumer refused, and the engine is locked. -/
  | locked (held : Consumer → ByteVector) (vault : DataKeyVault)
      (hoff : ∀ consumer, consumer ∉ engine.dekConsumers → held consumer = engine.held consumer) :
      Unlocking K engine false { engine with vault, held }.lock
  | unlocked (held : Consumer → ByteVector) (vault : DataKeyVault) (hsome : vault.dek ≠ [])
      (hwraps : vault.Wraps K vault.dek)
      (hoff : ∀ consumer, consumer ∉ engine.dekConsumers → held consumer = engine.held consumer)
      (hlisted : ∀ consumer ∈ engine.dekConsumers, held consumer = vault.dek) :
      Unlocking K engine true { engine with vault, held, unlocked := true }

omit [DecidableEq Consumer] in
theorem wraps_of_openVault (hK : K.Sound) (hkept : Kept K engine enrolled) {pin : String} {vault : DataKeyVault}
    (h : engine.openVault K world pin = .ok vault) (hsome : vault.dek ≠ []) : vault.Wraps K vault.dek := by
  unfold openVault at h
  split_ifs at h with hfile hopen
  · obtain rfl := Except.ok.inj h
    exact hkept.wraps hsome
  · obtain ⟨hopens, hvault⟩ := unlock_ok h
    rw [hvault]
    exact ⟨pin, hopens⟩
  · exact ⟨pin, create_ok hK h⟩

theorem unlocking_unlock (hK : K.Sound) (hkept : Kept K engine enrolled) (pin : String) (world : SecretsWorld Consumer) :
    ∃ reported, Unlocking K engine reported (engine.unlock K world pin).2 ∧
      ((engine.unlock K world pin).1 = .ok () ↔ reported = true) := by
  unfold unlock
  split_ifs with _ hunlocked hpin
  · exact ⟨true, .already hunlocked, by simp⟩
  · exact ⟨false, .refused, by simp⟩
  · cases hopened : engine.openVault K world pin with
    | error e => exact ⟨false, .refused, by simp⟩
    | ok vault =>
      dsimp only
      by_cases hempty : vault.dek = []
      · rw [getDek, if_pos hempty]
        exact ⟨false, .empty vault (by simpa using hunlocked) hempty, by simp⟩
      · rw [getDek, if_neg hempty]
        dsimp only
        obtain ⟨held, hoff, ⟨e, hrefused⟩ | ⟨hgiven, hlisted⟩⟩ :=
          distributeDek_cases { engine with vault } world vault.dek
        · rw [hrefused]
          exact ⟨false, .locked held vault hoff, by simp⟩
        · rw [hgiven]
          exact ⟨true, .unlocked held vault hempty (wraps_of_openVault hK hkept hopened hempty) hoff hlisted, by simp⟩
  · exact ⟨false, .refused, by simp⟩

theorem unlocking_redistribute (hkept : Kept K engine enrolled) (world : SecretsWorld Consumer) :
    ∃ reported, Unlocking K engine reported (engine.redistributeUnlockedDek world).2 ∧
      ((engine.redistributeUnlockedDek world).1 = .ok () ↔ reported = true) ∧
      (reported = true → ∀ consumer ∈ engine.dekConsumers,
        (engine.redistributeUnlockedDek world).2.held consumer = (engine.redistributeUnlockedDek world).2.vault.dek) := by
  unfold redistributeUnlockedDek
  split_ifs with hclosed
  · exact ⟨false, .refused, by simp, by simp⟩
  · have hsome : engine.vault.dek ≠ [] := by simpa [isUnlocked] using (not_or.mp hclosed).2
    have hunlocked : engine.unlocked = true := by
      by_contra hlocked
      exact hsome (hkept.locked (by simpa using hlocked)).1
    rw [getDek, if_neg hsome]
    dsimp only
    obtain ⟨held, hoff, ⟨e, hrefused⟩ | ⟨hgiven, hlisted⟩⟩ := distributeDek_cases engine world engine.vault.dek
    · rw [hrefused]
      exact ⟨false, .kept held hunlocked hoff, by simp, by simp⟩
    · rw [hgiven]
      exact ⟨true, .unlocked held engine.vault hsome (hkept.wraps hsome) hoff hlisted, by simp, fun _ => hlisted⟩

/-- A key a store holds is the vault's. -/
def Genuine (K : VaultCrypto) (engine : ProfileSecretsEngine Consumer) (found : Roe (UnlockStatus × ByteVector)) : Prop :=
  ∀ dek, found = .ok (.found, dek) → engine.vault.file ≠ none → engine.vault.Wraps K dek

theorem unlocking_tryHeldDek {found : Roe (UnlockStatus × ByteVector)} (hgenuine : Genuine K engine found)
    (supported : Bool) (world : SecretsWorld Consumer) :
    ∃ reported, Unlocking K engine reported (engine.tryHeldDek world supported found).2 ∧
      ((engine.tryHeldDek world supported found).1 = .ok .found ↔ reported = true) := by
  unfold tryHeldDek
  by_cases hout : ¬ engine.initialized = true ∨ ¬ supported = true
  · rw [if_pos hout]
    exact ⟨false, .refused, by simp⟩
  rw [if_neg hout]
  have hinitialized : engine.initialized = true := by simpa using (not_or.mp hout).1
  cases found with
  | error e => exact ⟨false, .refused, by simp⟩
  | ok answer =>
    obtain ⟨status, dek⟩ := answer
    dsimp only
    by_cases hstatus : status ≠ .found ∨ engine.unlocked = true
    · rw [if_pos hstatus]
      by_cases hfound : status = .found
      · exact ⟨true, .already (hstatus.resolve_left (not_not.mpr hfound)), by simp [hfound]⟩
      · exact ⟨false, .refused, by simp [hfound]⟩
    obtain ⟨hfound, hlocked⟩ := not_or.mp hstatus
    obtain rfl := not_not.mp hfound
    rw [if_neg hstatus]
    by_cases hfile : ¬ engine.vault.exists_ = true
    · rw [if_pos hfile]
      exact ⟨false, .refused, by simp⟩
    rw [if_neg hfile, unlockWithDek]
    by_cases hsize : dek.length ≠ kDataEncryptionKeySize
    · rw [if_pos hsize]
      exact ⟨false, .refused, by simp⟩
    have hsome : dek ≠ [] := by
      rintro rfl
      exact hsize (by decide)
    have hwraps : DataKeyVault.Wraps K { engine.vault with dek } dek := by
      apply hgenuine dek rfl
      intro hnone
      simp [exists_, hnone] at hfile
    rw [if_neg hsize]
    dsimp only
    unfold redistributeUnlockedDek
    rw [if_neg (by simp [isUnlocked, hinitialized, hsome]), getDek, if_neg hsome]
    dsimp only
    obtain ⟨held, hoff, ⟨e, hrefused⟩ | ⟨hgiven, hlisted⟩⟩ :=
      distributeDek_cases { engine with vault := { engine.vault with dek } } world dek
    · rw [hrefused]
      exact ⟨false, .locked held _ hoff, by simp⟩
    · rw [hgiven]
      exact ⟨true, .unlocked held _ hsome hwraps hoff hlisted, by simp⟩

/-- However the call ends, the invariant holds, of a listed engine's every
consumer. -/
theorem kept_unlocking (hkept : Kept K engine enrolled) {reported : Bool} {after : ProfileSecretsEngine Consumer}
    (h : Unlocking K engine reported after) : Kept K after enrolled := by
  cases h with
  | refused | already _ => exact hkept
  | empty vault hlocked hempty =>
    constructor
    · intro _
      exact ⟨hempty, (hkept.locked hlocked).2⟩
    · exact hkept.dropped
    · intro hunlocked
      exact absurd (hlocked.symm.trans hunlocked) (by decide)
    · intro hsome
      exact absurd hempty hsome
  | kept held hunlocked hoff =>
    have hopened := hkept.opened hunlocked
    have h := (kept_distribute hkept.dropped hopened (hkept.wraps hopened) hoff).1
    rw [← hunlocked] at h
    exact h
  | locked held vault hoff =>
    apply kept_lock
    intro consumer hmem hnot
    exact (hoff consumer hnot).trans (hkept.dropped consumer hmem hnot)
  | unlocked held vault hsome hwraps hoff hlisted =>
    exact (@kept_distribute _ _ _ { engine with vault } _ hkept.dropped hsome hwraps _ hoff).1

/-- The consumer holds the key the file wraps. -/
def HoldsVaultDek (K : VaultCrypto) (engine : ProfileSecretsEngine Consumer) (consumer : Consumer) : Prop :=
  engine.held consumer ≠ [] ∧ engine.vault.Wraps K (engine.held consumer)

/-- A reported unlock reaches who is on the list; where the engine was
unlocked, who is handed the key again or had it. -/
theorem holds_of_reported (hkept : Kept K engine enrolled) {after : ProfileSecretsEngine Consumer}
    (h : Unlocking K engine true after) (hlisted : ∀ consumer ∈ enrolled, consumer ∈ engine.dekConsumers)
    (hheld : engine.unlocked = true → (∀ consumer ∈ engine.dekConsumers, after.held consumer = after.vault.dek) ∨
        ∀ consumer ∈ enrolled, engine.held consumer = engine.vault.dek) :
    ∀ consumer ∈ enrolled, HoldsVaultDek K after consumer := by
  intro consumer hmem
  cases h with
  | already hunlocked =>
    have hopened := hkept.opened hunlocked
    have hdek : engine.held consumer = engine.vault.dek := by
      rcases hheld hunlocked with hagain | hhad
      · exact hagain consumer (hlisted consumer hmem)
      · exact hhad consumer hmem
    rw [HoldsVaultDek, hdek]
    exact ⟨hopened, hkept.wraps hopened⟩
  | unlocked held vault hsome hwraps hoff hgiven =>
    have hdek : held consumer = vault.dek := hgiven consumer (hlisted consumer hmem)
    rw [HoldsVaultDek]
    dsimp only
    rw [hdek]
    exact ⟨hsome, hwraps⟩

/-! ## Runs -/

/-- Who was registered and not unregistered since. -/
def enroll (enrolled : List Consumer) : Call Consumer → List Consumer
  | .registerDekConsumer consumer => if consumer ∈ enrolled then enrolled else enrolled ++ [consumer]
  | .unregisterDekConsumer consumer => enrolled.filter (· ≠ consumer)
  | _ => enrolled

/-- An engine with who should have its key. -/
abbrev Watched (Consumer : Type) := ProfileSecretsEngine Consumer × List Consumer

def Watched.step (K : VaultCrypto) (s : Watched Consumer) (call : Call Consumer) : Watched Consumer :=
  (s.1.after K call, enroll s.2 call)

/-- What the stores answer is the vault's key. -/
def GenuineCall (K : VaultCrypto) (engine : ProfileSecretsEngine Consumer) : Call Consumer → Prop
  | .tryGraceUnlock _ found _ => Genuine K engine found
  | .tryBiometricUnlock _ found _ => Genuine K engine found
  | _ => True

/-- The calls that keep clear of a wrong end. -/
def Clear (K : VaultCrypto) (s : Watched Consumer) : Call Consumer → Prop
  | .registerDekConsumer consumer => s.1.unlocked = false → s.1.held consumer = []
  | .changePin currentPin newPin world =>
    s.1.vault.dek = [] → newPin ≠ "" → world.readable = true → world.writable = true →
      ∀ dek, ¬ s.1.vault.Opens K currentPin dek
  | .redistributeUnlockedDek _ => ∀ consumer ∈ s.2, consumer ∈ s.1.dekConsumers
  | .unlock _ _ | .tryGraceUnlock _ _ _ | .tryBiometricUnlock _ _ _ =>
    (∀ consumer ∈ s.2, consumer ∈ s.1.dekConsumers) ∧
      (s.1.unlocked = true → ∀ consumer ∈ s.2, s.1.held consumer = s.1.vault.dek)
  | _ => True

/-- What a call owes the consumers. -/
structure Upheld (K : VaultCrypto) (s : Watched Consumer) (call : Call Consumer) : Prop where
  reported : s.1.ReportsUnlock K call → ∀ consumer ∈ s.2, HoldsVaultDek K (s.1.after K call) consumer
  wrongPin : ∀ pin world, call = .unlock pin world → s.1.unlocked = false → s.1.vault.file ≠ none →
    (∀ dek, ¬ s.1.vault.Opens K pin dek) → (s.1.unlock K world pin).1 ≠ .ok ()
  verifyPin : ∀ pin world, call = .verifyPin pin world → s.1.after K call = s.1

/-- No key anywhere while locked. -/
def LockedAway (s : Watched Consumer) : Prop :=
  s.1.unlocked = false → s.1.vault.dek = [] ∧ ∀ consumer ∈ s.2, s.1.held consumer = []

theorem mem_enroll_register {consumer other : Consumer} (h : other ∈ enroll enrolled (.registerDekConsumer consumer)) :
    other = consumer ∨ other ∈ enrolled := by
  unfold enroll at h
  dsimp only at h
  split_ifs at h
  · exact .inr h
  · rcases List.mem_append.mp h with hmem | hlast
    · exact .inr hmem
    · exact .inl (List.mem_singleton.mp hlast)

theorem kept_register (hkept : Kept K engine enrolled) {consumer : Consumer}
    (hclear : engine.unlocked = false → engine.held consumer = []) :
    Kept K (engine.registerDekConsumer consumer) (enroll enrolled (.registerDekConsumer consumer)) := by
  have hsame : engine.registerDekConsumer consumer =
      { engine with dekConsumers := (engine.registerDekConsumer consumer).dekConsumers } := by
    rw [registerDekConsumer]
    split <;> rfl
  have hlisted : ∀ other, other = consumer ∨ other ∈ engine.dekConsumers →
      other ∈ (engine.registerDekConsumer consumer).dekConsumers := by
    intro other hother
    rw [registerDekConsumer]
    split_ifs with hmem
    · rcases hother with rfl | hother
      · exact hmem
      · exact hother
    · exact List.mem_append.mpr (hother.symm.imp id List.mem_singleton.mpr)
  rw [hsame]
  constructor
  · intro hlocked
    refine ⟨(hkept.locked hlocked).1, ?_⟩
    intro other hmem
    rcases mem_enroll_register hmem with rfl | hold
    · exact hclear hlocked
    · exact (hkept.locked hlocked).2 other hold
  · intro other hmem hoff
    rcases mem_enroll_register hmem with hnew | hold
    · exact absurd (hlisted other (.inl hnew)) hoff
    · exact hkept.dropped other hold fun hother => hoff (hlisted other (.inr hother))
  · exact hkept.opened
  · exact hkept.wraps

theorem kept_unregister (hkept : Kept K engine enrolled) (consumer : Consumer) :
    Kept K (engine.unregisterDekConsumer consumer) (enroll enrolled (.unregisterDekConsumer consumer)) := by
  constructor
  · intro hlocked
    refine ⟨(hkept.locked hlocked).1, ?_⟩
    intro other hmem
    exact (hkept.locked hlocked).2 other (List.mem_filter.mp hmem).1
  · intro other hmem hoff
    obtain ⟨hold, hother⟩ := List.mem_filter.mp hmem
    apply hkept.dropped other hold
    intro hlisted
    exact hoff (List.mem_filter.mpr ⟨hlisted, hother⟩)
  · exact hkept.opened
  · exact hkept.wraps

omit [DecidableEq Consumer] in
theorem kept_changePin (hK : K.Sound) (hkept : Kept K engine enrolled) {currentPin newPin : String}
    (hclear : engine.vault.dek = [] → newPin ≠ "" → world.readable = true → world.writable = true →
      ∀ dek, ¬ engine.vault.Opens K currentPin dek) :
    Kept K (engine.changePin K world currentPin newPin).2 enrolled := by
  unfold changePin
  split_ifs
  · cases hchanged : engine.vault.changePin K world.toVaultWorld currentPin newPin with
    | error e => exact hkept
    | ok vault =>
      obtain ⟨⟨hnew, hreadable, hwritable⟩, dek, hopens, hopens', hdek⟩ := changePin_ok hK hchanged
      have hopen : engine.vault.dek ≠ [] := fun hlocked => hclear hlocked hnew hreadable hwritable dek hopens
      rw [if_neg hopen] at hdek
      have hunlocked : engine.unlocked = true := by
        by_contra hlocked
        exact hopen (hkept.locked (by simpa using hlocked)).1
      -- the file wraps the key it wrapped
      have hsame : engine.vault.dek = dek := (hkept.wraps hopen).unique hK ⟨currentPin, hopens⟩
      constructor
      · intro hlocked
        exact absurd (hunlocked.symm.trans hlocked) (by decide)
      · exact hkept.dropped
      · intro _
        exact hdek.trans_ne hopen
      · intro _
        show vault.Wraps K vault.dek
        rw [hdek, hsame]
        exact ⟨newPin, hopens'⟩
  · exact hkept

theorem unlock_wrongPin (hkept : Kept K engine enrolled) {pin : String} (hlocked : engine.unlocked = false)
    (hfile : engine.vault.file ≠ none) (hwrong : ∀ dek, ¬ engine.vault.Opens K pin dek) :
    (engine.unlock K world pin).1 ≠ .ok () := by
  intro h
  have hexists : engine.vault.exists_ = true := Option.isSome_iff_ne_none.mpr hfile
  have hclosed : engine.vault.isUnlocked = false := by simp [isUnlocked, (hkept.locked hlocked).1]
  unfold unlock at h
  split_ifs at h with _ hunlocked
  · exact absurd (hlocked.symm.trans hunlocked) (by decide)
  unfold openVault at h
  rw [hexists, hclosed] at h
  cases hopened : engine.vault.unlock K world.toVaultWorld pin with
  | error e => simp [hopened] at h
  | ok vault => exact hwrong vault.dek (unlock_ok hopened).1

/-- What every call that may unlock keeps and owes. -/
theorem kept_reported (hkept : Kept K engine enrolled) {reported : Bool} {after : ProfileSecretsEngine Consumer} {p : Prop}
    (h : Unlocking K engine reported after) (hreported : p ↔ reported = true)
    (hlisted : ∀ consumer ∈ enrolled, consumer ∈ engine.dekConsumers)
    (hheld : reported = true → engine.unlocked = true →
      (∀ consumer ∈ engine.dekConsumers, after.held consumer = after.vault.dek) ∨
        ∀ consumer ∈ enrolled, engine.held consumer = engine.vault.dek) :
    Kept K after enrolled ∧ (p → ∀ consumer ∈ enrolled, HoldsVaultDek K after consumer) := by
  refine ⟨kept_unlocking hkept h, ?_⟩
  intro hp
  obtain rfl := hreported.mp hp
  exact holds_of_reported hkept h hlisted (hheld rfl)

theorem kept_step (hK : K.Sound) {s : Watched Consumer} (hkept : Kept K s.1 s.2) {call : Call Consumer}
    (hgenuine : GenuineCall K s.1 call) (hclear : Clear K s call) :
    Kept K (Watched.step K s call).1 (Watched.step K s call).2 ∧ Upheld K s call := by
  cases call with
  | unlock pin world =>
    obtain ⟨reported, hends, hreported⟩ := unlocking_unlock hK hkept pin world
    obtain ⟨hafter, hholds⟩ := kept_reported hkept hends hreported hclear.1 fun _ hunlocked => .inr (hclear.2 hunlocked)
    refine ⟨hafter, hholds, ?_, nofun⟩
    intro pin' world' hcall hlocked hfile hwrong
    exact unlock_wrongPin hkept hlocked hfile hwrong
  | lock => exact ⟨kept_lock hkept.dropped, nofun, nofun, nofun⟩
  | tryGraceUnlock supported found world | tryBiometricUnlock supported found world =>
    obtain ⟨reported, hends, hreported⟩ := unlocking_tryHeldDek hgenuine supported world
    obtain ⟨hafter, hholds⟩ := kept_reported hkept hends hreported hclear.1 fun _ hunlocked => .inr (hclear.2 hunlocked)
    exact ⟨hafter, hholds, nofun, nofun⟩
  | changePin currentPin newPin world => exact ⟨kept_changePin hK hkept hclear, nofun, nofun, nofun⟩
  | verifyPin pin world => exact ⟨hkept, nofun, nofun, fun _ _ _ => rfl⟩
  | redistributeUnlockedDek world =>
    obtain ⟨reported, hends, hreported, hagain⟩ := unlocking_redistribute hkept world
    obtain ⟨hafter, hholds⟩ := kept_reported hkept hends hreported hclear fun h _ => .inl (hagain h)
    exact ⟨hafter, hholds, nofun, nofun⟩
  | registerDekConsumer consumer => exact ⟨kept_register hkept hclear, nofun, nofun, nofun⟩
  | unregisterDekConsumer consumer => exact ⟨kept_unregister hkept consumer, nofun, nofun, nofun⟩

/-- An engine before its first call. -/
def start (vault : DataKeyVault) (held : Consumer → ByteVector) (initialized : Bool) : Watched Consumer :=
  ({ initialized, vault := vault.lock, held }, [])

/-- In a run of clear calls every call keeps what it owes, and no key is left
while the engine is locked. -/
theorem unlocked_keys_kept (hK : K.Sound) (vault : DataKeyVault) (held : Consumer → ByteVector) (initialized : Bool)
    (calls : List (Call Consumer))
    (hgenuine : Lib.Admits (Watched.step K) (fun s call => GenuineCall K s.1 call) (start vault held initialized) calls)
    (hclear : Lib.Admits (Watched.step K) (Clear K) (start vault held initialized) calls) :
    Lib.Admits (Watched.step K) (Upheld K) (start vault held initialized) calls ∧
      ∀ s ∈ Lib.states (Watched.step K) (start vault held initialized) calls, LockedAway s := by
  have hstart : Kept K (start vault held initialized).1 (start vault held initialized).2 :=
    ⟨fun _ => ⟨rfl, nofun⟩, nofun, nofun, fun h => absurd rfl h⟩
  have hboth := hgenuine.and hclear
  have hkeeps : ∀ (s : Watched Consumer) (call : Call Consumer), Kept K s.1 s.2 → GenuineCall K s.1 call ∧ Clear K s call →
      Kept K (Watched.step K s call).1 (Watched.step K s call).2 := by
    intro s call hkept h
    exact (kept_step hK hkept h.1 h.2).1
  constructor
  · apply (hboth.carry hkeeps hstart).mono
    intro s call ⟨hkept, hgenuine, hclear⟩
    exact (kept_step hK hkept hgenuine hclear).2
  · intro s hs
    exact (hboth.invariant hkeeps hstart s hs).locked

/-- libsodium for a run: three PINs derive keys of their own, and a key seals
by being written before what it seals. -/
def pinVault : VaultCrypto where
  pwhash pin _ _ _ :=
    if pin = "1234" then some (List.replicate 32 1)
    else if pin = "5678" then some (List.replicate 32 2)
    else if pin = "0000" then some (List.replicate 32 3)
    else none
  aeadEncrypt key plaintext _ _ := if key.length = 32 then some (key ++ plaintext) else none
  aeadDecrypt key ciphertext _ _ := if key.length = 32 ∧ ciphertext.take 32 = key then some (ciphertext.drop 32) else none

theorem pinVault_sound : pinVault.Sound where
  opens key plaintext aad nonce ciphertext h := by
    simp only [pinVault, Option.ite_none_right_eq_some, Option.some.injEq] at h ⊢
    obtain ⟨hsize, rfl⟩ := h
    refine ⟨⟨⟨hsize, ?_⟩, ?_⟩, ?_⟩
    · rw [← hsize, List.take_left]
    · rw [← hsize, List.drop_left]
    · rw [List.length_append, hsize]
      exact Nat.le_trans (by decide) (Nat.le_add_right _ _)
  onlyRight pin pin' salt opslimit memlimit kek kek' ciphertext aad nonce dek dek' hkek hkek' h h' := by
    have hsame : kek = kek' := by
      simp only [pinVault, Option.ite_none_right_eq_some] at h h'
      exact h.1.2.symm.trans h'.1.2
    subst hsame
    simp only [pinVault] at hkek hkek'
    -- of three PINs two that are not the same derive keys that are not
    split_ifs at hkek hkek' <;>
      first
      | exact absurd (hkek.trans hkek'.symm) (by decide)
      | simp_all

def calmWorld : SecretsWorld String where
  salt := Vector.replicate _ 0
  nonce := Vector.replicate _ 0
  fresh := Vector.replicate _ 7

def newProfile : Watched String := start ⟨"default", none, []⟩ (fun _ => []) true

/-- The PIN is changed on a locked vault. -/
def changedLocked : Watched String :=
  [Call.unlock "1234" calmWorld, .lock, .changePin "1234" "5678" calmWorld].foldl (Watched.step pinVault) newProfile

/-- The engine is unlocked again after a lock. -/
def unlockedAgain : Watched String :=
  [Call.registerDekConsumer "identity", .unlock "1234" calmWorld, .lock, .unlock "1234" calmWorld].foldl
    (Watched.step pinVault) newProfile

/-- A PIN change on a locked vault leaves it open, and any PIN unlocks the
engine; after a lock an unlock hands its key to nobody. -/
theorem locked_vault_opens :
    (¬ LockedAway changedLocked ∧ (∀ dek, ¬ changedLocked.1.vault.Opens pinVault "0000" dek) ∧
      (changedLocked.1.unlock pinVault calmWorld "0000").1 = .ok ()) ∧
    unlockedAgain.1.unlocked = true ∧ unlockedAgain.2 = ["identity"] ∧ unlockedAgain.1.held "identity" = [] := by
  refine ⟨⟨?_, ?_, rfl⟩, rfl, rfl, rfl⟩
  · intro h
    exact absurd (h rfl).1 (by decide)
  · intro dek ⟨bytes, hfile, hopens⟩
    have hrefused : unwrapDekFromVaultBytes pinVault (changedLocked.1.vault.file.getD []) "default" "0000" =
        .error "Incorrect PIN or corrupt vault" := rfl
    rw [hfile] at hrefused
    cases hrefused.symm.trans hopens

/-- A run that keeps clear: the PIN is changed while the vault is open, and a
consumer that comes late is handed the key. -/
def clearCalls : List (Call String) :=
  [.registerDekConsumer "identity", .unlock "1234" calmWorld, .changePin "1234" "5678" calmWorld,
    .registerDekConsumer "blobs", .redistributeUnlockedDek calmWorld, .lock]

theorem unlocked_keys_kept_sample :
    Lib.Admits (Watched.step pinVault) (Upheld pinVault) newProfile clearCalls ∧
      ∀ s ∈ Lib.states (Watched.step pinVault) newProfile clearCalls, LockedAway s := by
  apply unlocked_keys_kept pinVault_sound
  · exact ⟨trivial, trivial, trivial, trivial, trivial, trivial, trivial⟩
  · refine ⟨fun _ => rfl, ⟨?_, nofun⟩, fun hlocked => ?_, fun _ => rfl, ?_, trivial, trivial⟩
    · decide
    · exact absurd hlocked (by decide)
    · show ∀ consumer ∈ ["identity", "blobs"], consumer ∈ ["identity", "blobs"]
      exact fun _ => id

/-! ## The PIN of the file -/

/-- The PIN the file is behind after a call: that of a change that went
through. -/
def pinAfter (K : VaultCrypto) (engine : ProfileSecretsEngine Consumer) (pin : String) : Call Consumer → String
  | .changePin currentPin newPin world => if (engine.changePin K world currentPin newPin).1.isOk then newPin else pin
  | _ => pin

def pinStep (K : VaultCrypto) (s : ProfileSecretsEngine Consumer × String) (call : Call Consumer) :
    ProfileSecretsEngine Consumer × String :=
  (s.1.after K call, pinAfter K s.1 s.2 call)

section

variable {pin : String} {dek : ByteVector} (h : engine.vault.Opens K pin dek)
include h

/-- What hands a key out writes no file. -/
theorem opens_redistribute : (engine.redistributeUnlockedDek world).2.vault.Opens K pin dek := by
  unfold redistributeUnlockedDek
  split_ifs
  · exact h
  · cases engine.vault.getDek with
    | error e => exact h
    | ok given =>
      dsimp only
      obtain ⟨held, -, ⟨e, hends⟩ | ⟨hends, -⟩⟩ := distributeDek_cases engine world given
      · rw [hends]
        exact h
      · rw [hends]
        exact h

theorem opens_tryHeldDek (supported : Bool) (found : Roe (UnlockStatus × ByteVector)) :
    (engine.tryHeldDek world supported found).2.vault.Opens K pin dek := by
  unfold tryHeldDek
  split
  · exact h
  cases found with
  | error e => exact h
  | ok answer =>
    dsimp only
    split
    · exact h
    split
    · exact h
    unfold unlockWithDek
    split
    · exact h
    next vault hopened =>
      split_ifs at hopened
      obtain rfl := Except.ok.inj hopened
      have hgiven : Opens K (redistributeUnlockedDek world
          { engine with vault := { engine.vault with dek := answer.2 } }).2.vault pin dek := opens_redistribute h
      split
      all_goals
        next hends =>
          rw [hends] at hgiven
          exact hgiven

theorem opens_unlock (typed : String) : (engine.unlock K world typed).2.vault.Opens K pin dek := by
  unfold unlock
  split
  · exact h
  split
  · exact h
  split
  · exact h
  split
  · exact h
  next vault hopened =>
    have hvault : vault.Opens K pin dek := by
      obtain ⟨bytes, hfile, -⟩ := id h
      unfold openVault at hopened
      split_ifs at hopened with hnone
      · obtain rfl := Except.ok.inj hopened
        exact h
      · rw [(unlock_ok hopened).2]
        exact h
      · simp [exists_, hfile] at hnone
    dsimp only
    split
    · exact hvault
    next given _ =>
      obtain ⟨held, -, ⟨e, hends⟩ | ⟨hends, -⟩⟩ := distributeDek_cases { engine with vault } world given
      · rw [hends]
        exact hvault
      · rw [hends]
        exact hvault

theorem opens_after (hK : K.Sound) (call : Call Consumer) :
    (engine.after K call).vault.Opens K (pinAfter K engine pin call) dek := by
  cases call with
  | unlock typed world => exact opens_unlock h typed
  | lock | verifyPin typed world | unregisterDekConsumer consumer => exact h
  | tryGraceUnlock supported found world | tryBiometricUnlock supported found world => exact opens_tryHeldDek h supported found
  | changePin currentPin newPin world =>
    unfold after pinAfter changePin
    by_cases hout : ¬ engine.initialized = true
    · simp only [if_pos hout]
      exact h
    simp only [if_neg hout]
    cases hchanged : engine.vault.changePin K world.toVaultWorld currentPin newPin with
    | error e => exact h
    | ok vault =>
      obtain ⟨-, dek', hopens, hopens', -⟩ := changePin_ok hK hchanged
      obtain rfl := Wraps.unique hK ⟨pin, h⟩ ⟨currentPin, hopens⟩
      exact hopens'
  | redistributeUnlockedDek world => exact opens_redistribute h
  | registerDekConsumer consumer =>
    show (engine.registerDekConsumer consumer).vault.Opens K pin dek
    unfold registerDekConsumer
    split_ifs
    · exact h
    · exact h

end

/-- Whatever is called, the file opens by the PIN of the last change that
went through and by no other, and to the key it always had. No other PIN is
verified. -/
theorem file_opens_by_last_pin (hK : K.Sound) {pin : String} {dek : ByteVector} (h : engine.vault.Opens K pin dek)
    (calls : List (Call Consumer)) : ∀ s ∈ Lib.states (pinStep K) (engine, pin) calls,
      (∀ pin' dek', s.1.vault.Opens K pin' dek' ↔ pin' = s.2 ∧ dek' = dek) ∧
      ∀ pin' world, s.1.verifyPin K world pin' = .ok () → pin' = s.2 := by
  have hstep : ∀ (s : ProfileSecretsEngine Consumer × String) call, s.1.vault.Opens K s.2 dek → True →
      (pinStep K s call).1.vault.Opens K (pinStep K s call).2 dek := fun _ call hs _ => opens_after hs hK call
  intro s hs
  obtain ⟨bytes, hfile, hopen⟩ := Lib.admits_true.invariant hstep h s hs
  constructor
  · intro pin' dek'
    constructor
    · rintro ⟨bytes', hfile', hopen'⟩
      obtain rfl := Option.mem_unique hfile hfile'
      obtain rfl := pin_of_unwrap hK hopen hopen'
      exact ⟨rfl, Except.ok.inj (hopen'.symm.trans hopen)⟩
    · rintro ⟨rfl, rfl⟩
      exact ⟨bytes, hfile, hopen⟩
  · intro pin' world hverified
    simp only [verifyPin, roe_bind_ok] at hverified
    obtain ⟨-, -, bytes', hread, dek', hopen', -⟩ := hverified
    obtain rfl := Option.mem_unique hfile (readVaultFile_ok hread).1
    exact pin_of_unwrap hK hopen' hopen

theorem file_opens_by_last_pin_sample :
    ([Call.lock, .changePin "0000" "1234" calmWorld, .changePin "1234" "5678" calmWorld].foldl (pinStep pinVault)
      (Prod.fst (Watched.step pinVault newProfile (.unlock "1234" calmWorld)), "1234")).1.vault.Opens pinVault "5678"
      (List.replicate 32 7) :=
  (file_opens_by_last_pin pinVault_sound ⟨_, rfl, rfl⟩ _ _ Lib.foldl_mem_states).1 _ _ |>.mpr ⟨by decide, rfl⟩

end Pbr.ProfileSecretsEngine
