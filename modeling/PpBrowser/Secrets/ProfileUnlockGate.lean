import Mathlib.Data.List.Basic
import Mathlib.Data.List.Nodup
import Mathlib.Tactic.SplitIfs
import PpBrowser.Lib.Runs

/-!
# ProfileUnlockGate — the door of the vault and the callers who wait at it

The gate's flags, the callers it queues, and beside them what its flags speak
of: the attempts handed to `run_heavy`, the face / fingerprint prompts out,
the screen the user has before them. An entry point is a function of the gate
and of what the ports and the vault answer while it runs. Work given to
`run_heavy` is answered by a later event; a gate without that port answers at
once, which is the same event coming next.
-/

namespace Pbr

/-- Which grace attempt: the first, the read again once the handler is
registered, a later retry. -/
inductive GraceStep where
  | first
  | recheck
  | retry
  deriving DecidableEq, Repr

/-- What the gate hands to `run_heavy` and waits for. -/
inductive UnlockAttempt where
  /-- A PIN, typed or the default one: unlock, then messaging. -/
  | pin
  /-- An account brought here, then the PIN. -/
  | accountImport
  /-- Messaging on a vault already open. -/
  | messaging
  | grace (step : GraceStep)
  /-- Messaging on the vault the answer of this prompt opened. -/
  | biometricReady (prompt : Nat)
  deriving DecidableEq, Repr

/-- A face / fingerprint prompt out, and the door it was raised at. -/
structure BiometricPrompt where
  id : Nat
  door : Nat
  deriving DecidableEq, Repr

inductive UnlockScreen where
  | identityFork
  | chooser
  | door
  deriving DecidableEq, Repr

/-- What the gate did to the vault and told its callers. -/
inductive UnlockEffect where
  /-- `StartBiometric` showed this prompt. -/
  | prompt (id : Nat)
  /-- `Finish(unlocked)`. -/
  | finished (unlocked : Bool)
  /-- The answer of this prompt locked the vault. -/
  | lock (prompt : Nat)
  deriving DecidableEq, Repr

/-- What the ports and the vault answer while one entry point runs. -/
structure UnlockAnswers where
  /-- `messaging_initialized`, `messaging_ready`. -/
  initialized : Bool := true
  ready : Bool := false
  /-- The port `ensure_messaging_ready` is bound. -/
  canEnsure : Bool := true
  /-- The secrets engine's own state. -/
  vaultInitialized : Bool := true
  hasVault : Bool := true
  isUnlocked : Bool := false
  pinIsDefault : Bool := false
  /-- `try_grace_unlock` is bound and the window is not 0. -/
  graceOn : Bool := false
  /-- Both biometric ports are bound and the switch is on. -/
  biometricOn : Bool := false
  /-- `app_shown` and `protected_data_available`; unset, yes. -/
  appShown : Bool := true
  protectedData : Bool := true
  pendingPushCall : Bool := false
  /-- `on_protected_data_available` is bound. -/
  canRegister : Bool := true
  /-- `show_identity_fork` is bound; else the chooser stands in. -/
  hasIdentityFork : Bool := true
  deriving DecidableEq, Repr

/-- `ProfileSecretsEngine::NeedsUnlock`. -/
def UnlockAnswers.needsUnlock (a : UnlockAnswers) : Bool :=
  a.vaultInitialized && a.hasVault && !a.isUnlocked

/-- The gate's members, then what is out in the world because of them. -/
structure ProfileUnlockGate where
  /-- The callers waiting, by the number of their `EnsureUnlocked`. -/
  pending : List Nat := []
  showing : Bool := false
  inProgress : Bool := false
  deferredStarted : Bool := false
  gracePending : Bool := false
  waitingDevice : Bool := false
  waitGeneration : Nat := 0
  handlerRegistered : Bool := false
  doorUp : Bool := false
  promptedThisDoor : Bool := false
  inFlight : Bool := false
  unlockedBeside : Bool := false
  doorGeneration : Nat := 0
  /-- The attempts and the prompts out. -/
  running : List UnlockAttempt := []
  prompts : List BiometricPrompt := []
  /-- What the shell last showed, until it was dismissed. -/
  screen : Option UnlockScreen := none
  nextCaller : Nat := 0
  nextPrompt : Nat := 0
  /-- The callers called back, and with what. -/
  called : List (Nat × Bool) := []
  /-- What was done, newest first. -/
  log : List UnlockEffect := []
  deriving DecidableEq, Repr

/-- How a grace attempt ends: what the entry says, and where it opened the
vault whether messaging started. -/
inductive GraceAnswer where
  | found (ready : Bool)
  | unavailable
  /-- The read failed, or the entry is missing or expired. -/
  | closed
  deriving DecidableEq, Repr

/-- How a prompt ends. -/
inductive BiometricAnswer where
  | error
  | found
  | canceled
  | unavailable
  | missing
  deriving DecidableEq, Repr

namespace ProfileUnlockGate

variable (a : UnlockAnswers) (g : ProfileUnlockGate)

/-! ## The queue and the screens -/

/-- A caller answered on the spot; one who left no callback is not. -/
def answer (caller : Option Nat) (unlocked : Bool) : ProfileUnlockGate :=
  { g with called := g.called ++ caller.toList.map (·, unlocked) }

def enqueue (caller : Option Nat) : ProfileUnlockGate :=
  { g with pending := g.pending ++ caller.toList }

def drainQueue (unlocked : Bool) : ProfileUnlockGate :=
  { g with pending := [], showing := false,
           called := g.called ++ g.pending.map (·, unlocked) }

def endDeviceUnlockWait : ProfileUnlockGate :=
  { g with waitGeneration := g.waitGeneration + 1, waitingDevice := false }

def stopGrace : ProfileUnlockGate :=
  { g.endDeviceUnlockWait with gracePending := false, handlerRegistered := false }

/-- The door closes: an answer still on its way is for a door that is gone. -/
def closeDoor : ProfileUnlockGate :=
  { g with doorUp := false, promptedThisDoor := false, doorGeneration := g.doorGeneration + 1 }

/-- The unlock is over: the door closes, the screen goes, the callers are
told. -/
def finish (unlocked : Bool) : ProfileUnlockGate :=
  let g := { g with unlockedBeside := g.unlockedBeside || (unlocked && g.inFlight) }
  let g := g.stopGrace.closeDoor
  let g := { g with inProgress := false, screen := none, log := .finished unlocked :: g.log }
  g.drainQueue unlocked

def requestShowIdentityFork (caller : Option Nat) : ProfileUnlockGate :=
  let g := g.enqueue caller
  if g.showing then g
  else { g with showing := true,
                screen := some (if a.hasIdentityFork then .identityFork else .chooser) }

def requestShowUnlock (caller : Option Nat) : ProfileUnlockGate :=
  let g := g.enqueue caller
  if g.showing then g
  else { g with showing := true, doorUp := true, promptedThisDoor := false,
                doorGeneration := g.doorGeneration + 1, screen := some .door }

/-- A failure on the screen that is up; a silent one raises the door first. -/
def reportError : ProfileUnlockGate :=
  let g := { g with inProgress := false }
  if g.showing then g else g.requestShowUnlock none

/-! ## Attempts and prompts -/

/-- The flag is set and the work goes to `run_heavy`. -/
def start (attempt : UnlockAttempt) : ProfileUnlockGate :=
  { g with inProgress := true, running := g.running ++ [attempt] }

/-- A PIN while another unlock or a prompt runs is declined. -/
def runUnlockAndReadyAsync : ProfileUnlockGate :=
  if g.inProgress || g.inFlight then g else g.start .pin

def completeAccountImport : ProfileUnlockGate :=
  if g.inProgress || g.inFlight then g else g.start .accountImport

def biometricPossible : Bool :=
  a.biometricOn && !g.inProgress && !g.inFlight && !a.isUnlocked && a.hasVault

/-- The automatic prompt: once a door, on screen, after the grace window. -/
def biometricDue : Bool :=
  !g.promptedThisDoor && !g.gracePending && g.biometricPossible a && a.appShown && a.protectedData

def startBiometric : ProfileUnlockGate :=
  { g with promptedThisDoor := true, inFlight := true, unlockedBeside := false,
           prompts := g.prompts ++ [⟨g.nextPrompt, g.doorGeneration⟩],
           nextPrompt := g.nextPrompt + 1,
           log := .prompt g.nextPrompt :: g.log }

def promptIfDue : ProfileUnlockGate :=
  if g.biometricDue a then g.startBiometric else g

def tryBiometric : ProfileUnlockGate :=
  if !g.doorUp || !g.biometricPossible a then g else g.startBiometric

def unlockWithoutGrace : ProfileUnlockGate :=
  if g.biometricDue a then (g.requestShowUnlock none).startBiometric
  else g.requestShowUnlock none

def runGraceAttempt (step : GraceStep) : ProfileUnlockGate :=
  g.start (.grace step)

/-! ## The callers' entry points -/

/-- The deferred unlock itself, once begun. -/
def deferredUnlock : ProfileUnlockGate :=
  if !a.initialized then g.drainQueue false
  else if a.ready then g.drainQueue true
  else if !a.needsUnlock then
    if a.isUnlocked then
      -- Neither flag is read here, nor before the grace attempt below.
      if !a.canEnsure then g.drainQueue false else g.start .messaging
    else g.requestShowIdentityFork a none
  else if a.pinIsDefault then g.runUnlockAndReadyAsync
  else if a.graceOn then g.runGraceAttempt .first
  else g.unlockWithoutGrace a

def beginDeferredUnlockAfterFirstPresent : ProfileUnlockGate :=
  if g.deferredStarted then g
  else ({ g with deferredStarted := true }).deferredUnlock a

def ensureUnlocked (caller : Option Nat) : ProfileUnlockGate :=
  if !a.initialized then g.answer caller false
  else if a.ready then g.answer caller true
  else if g.inProgress then g.enqueue caller
  else if a.isUnlocked then
    if !a.canEnsure then g.answer caller false else (g.enqueue caller).start .messaging
  else if !a.hasVault then g.requestShowIdentityFork a caller
  else if a.pinIsDefault then (g.enqueue caller).beginDeferredUnlockAfterFirstPresent a
  else (g.requestShowUnlock caller).promptIfDue a

/-! ## What the screens send -/

def completeWithPin : ProfileUnlockGate := g.runUnlockAndReadyAsync

def completeWithDefaultPin : ProfileUnlockGate := g.runUnlockAndReadyAsync

/-- Without its port the import fails on the spot. -/
def completeLinkDevice (canImport : Bool) : ProfileUnlockGate :=
  if canImport then g.completeAccountImport else g.reportError

def completePhraseRestore (canRestore : Bool) : ProfileUnlockGate :=
  if canRestore then g.completeAccountImport else g.reportError

/-- Back: to the identity fork where there is no account yet, else the unlock
is over. -/
def cancel : ProfileUnlockGate :=
  if !a.hasVault then ({ g with showing := false }).requestShowIdentityFork a none
  else g.finish false

def useDevicePinInstead : ProfileUnlockGate := g.endDeviceUnlockWait

/-- The protected-data handler and the foreground both come here. -/
def retryGrace : ProfileUnlockGate :=
  if !g.gracePending || g.inProgress || g.inFlight || a.isUnlocked then g
  else g.runGraceAttempt .retry

def onForeground : ProfileUnlockGate :=
  if g.gracePending then
    if !a.protectedData then g else g.retryGrace a
  else if g.doorUp && g.biometricDue a then g.startBiometric
  else g

/-- The wait for the phone's unlock ran out, unless it ended before. -/
def deviceUnlockWaitOver (generation : Nat) : ProfileUnlockGate :=
  if generation = g.waitGeneration then g.endDeviceUnlockWait else g

/-! ## Answers of the work handed out -/

def onGraceUnavailable : GraceStep → ProfileUnlockGate
  | .first =>
    -- Registered first, then read once more: the phone may be unlocked between.
    let g := { g with handlerRegistered := g.handlerRegistered || a.canRegister }
    g.runGraceAttempt .recheck
  | .recheck =>
    let g := ({ g with gracePending := true }).requestShowUnlock none
    if a.pendingPushCall then { g with waitingDevice := true } else g
  | .retry => g.endDeviceUnlockWait

def onGraceAttemptDone (step : GraceStep) (answer : GraceAnswer) : ProfileUnlockGate :=
  let g := { g with inProgress := false }
  match answer with
  | .found true => g.finish true
  | .found false => g.stopGrace.reportError
  | .unavailable => g.onGraceUnavailable a step
  | .closed =>
    let g := g.stopGrace
    if step = .retry then g.promptIfDue a else g.unlockWithoutGrace a

/-- The work of a PIN, an import or a prompt came back. -/
def onReady (ok : Bool) : ProfileUnlockGate :=
  if ok then g.finish true else g.reportError

/-- Messaging on an open vault: the callers are told either way. -/
def onMessagingDone (ok : Bool) : ProfileUnlockGate := g.finish ok

/-- Messaging on the vault a prompt opened: on a failure it is locked again. -/
def onBiometricReady (prompt : Nat) (ok : Bool) : ProfileUnlockGate :=
  if ok then g.finish true else ({ g with log := .lock prompt :: g.log }).reportError

def onBiometricDone (p : BiometricPrompt) (answer : BiometricAnswer) : ProfileUnlockGate :=
  let g := { g with inFlight := false }
  if p.door ≠ g.doorGeneration ∨ g.doorUp = false ∨ g.inProgress = true then
    -- The answer is void; a vault it opened is locked unless another unlock has it.
    if answer = .found ∧ g.unlockedBeside = false ∧ g.inProgress = false then
      { g with log := .lock p.id :: g.log }
    else g
  else
    match answer with
    | .found => g.start (.biometricReady p.id)
    | _ => g

/-! ## Events -/

/-- How the work of one attempt ended; an attempt reads the part that is
its own. -/
structure AttemptOutcome where
  ok : Bool := true
  grace : GraceAnswer := .closed
  deriving DecidableEq, Repr

inductive Event where
  | ensureUnlocked (leavesCallback : Bool) (a : UnlockAnswers)
  | beginDeferred (a : UnlockAnswers)
  | completeWithPin
  | completeWithDefaultPin
  | completeLinkDevice (canImport : Bool)
  | completePhraseRestore (canRestore : Bool)
  | cancel (a : UnlockAnswers)
  | useDevicePinInstead
  | onForeground (a : UnlockAnswers)
  | tryBiometric (a : UnlockAnswers)
  /-- The phone was unlocked: the handler, or what it posted. -/
  | protectedData (a : UnlockAnswers)
  | deviceUnlockWaitOver (generation : Nat)
  /-- The `i`-th attempt out comes back. -/
  | attemptDone (i : Nat) (outcome : AttemptOutcome) (a : UnlockAnswers)
  /-- The `i`-th prompt out is answered. -/
  | promptDone (i : Nat) (answer : BiometricAnswer)
  deriving DecidableEq, Repr

def attemptDone (attempt : UnlockAttempt) (outcome : AttemptOutcome) : ProfileUnlockGate :=
  match attempt with
  | .pin => g.onReady outcome.ok
  | .accountImport => g.onReady outcome.ok
  | .messaging => g.onMessagingDone outcome.ok
  | .grace step => g.onGraceAttemptDone a step outcome.grace
  | .biometricReady prompt => g.onBiometricReady prompt outcome.ok

/-- One event; work that is not out cannot come back. -/
def next (g : ProfileUnlockGate) : Event → ProfileUnlockGate
  | .ensureUnlocked leaves a =>
    let caller := if leaves then some g.nextCaller else none
    ({ g with nextCaller := g.nextCaller + 1 }).ensureUnlocked a caller
  | .beginDeferred a => g.beginDeferredUnlockAfterFirstPresent a
  | .completeWithPin => g.completeWithPin
  | .completeWithDefaultPin => g.completeWithDefaultPin
  | .completeLinkDevice canImport => g.completeLinkDevice canImport
  | .completePhraseRestore canRestore => g.completePhraseRestore canRestore
  | .cancel a => g.cancel a
  | .useDevicePinInstead => g.useDevicePinInstead
  | .onForeground a => g.onForeground a
  | .tryBiometric a => g.tryBiometric a
  | .protectedData a => g.retryGrace a
  | .deviceUnlockWaitOver generation => g.deviceUnlockWaitOver generation
  | .attemptDone i outcome a =>
    match g.running[i]? with
    | none => g
    | some attempt => ({ g with running := g.running.eraseIdx i }).attemptDone a attempt outcome
  | .promptDone i answer =>
    match g.prompts[i]? with
    | none => g
    | some p => ({ g with prompts := g.prompts.eraseIdx i }).onBiometricDone p answer

end ProfileUnlockGate
/-! ## Every caller answered once, one unlock at a time -/

namespace ProfileUnlockGate

open Lib

/-- Another unlock was reported open since this prompt was shown. -/
def OpenedSince (prompt : Nat) (log : List UnlockEffect) : Prop :=
  .finished true ∈ log.takeWhile (· ≠ .prompt prompt)

/-- What the gate promises its callers. -/
structure Keeps (g : ProfileUnlockGate) : Prop where
  /-- Each callback is called at most once. -/
  once : (g.called.map (·.1)).Nodup
  /-- Nobody waits with nothing that can answer. -/
  answerable : g.pending ≠ [] → g.running ≠ [] ∨ g.prompts ≠ [] ∨ g.screen ≠ none
  alone : g.running.length ≤ 1
  /-- No prompt's answer locks what another unlock reported open. -/
  locks : ∀ p earlier, (.lock p :: earlier) <:+ g.log → ¬ OpenedSince p earlier

/-! ## Runs off the four slips -/

/-- `EnsureUnlocked` reaches the default PIN's branch. -/
def asksDefaultPin (a : UnlockAnswers) (g : ProfileUnlockGate) : Bool :=
  a.initialized && !a.ready && !g.inProgress && !a.isUnlocked && a.hasVault && a.pinIsDefault

/-- The deferred unlock comes to a start that reads neither flag. -/
def startsUnasked (a : UnlockAnswers) : Bool :=
  a.initialized && !a.ready &&
    (if a.needsUnlock then !a.pinIsDefault && a.graceOn else a.isUnlocked && a.canEnsure)

/-- The event stays off the slips in the state it finds. -/
def Orderly (g : ProfileUnlockGate) : Event → Prop
  | .ensureUnlocked leavesCallback a =>
    leavesCallback = true → asksDefaultPin a g = true →
      g.showing = true ∨ (g.deferredStarted = false ∧ g.inFlight = false)
  | .beginDeferred a => g.deferredStarted = false → startsUnasked a = true → g.inProgress = false
  | .cancel a => a.hasVault = true → g.inProgress = false
  | .completeLinkDevice canImport => canImport = false → g.inProgress = false
  | .completePhraseRestore canRestore => canRestore = false → g.inProgress = false
  | _ => True

instance (g : ProfileUnlockGate) : (e : Event) → Decidable (Orderly g e)
  | .ensureUnlocked _ _ => inferInstanceAs (Decidable (_ → _ → _))
  | .beginDeferred _ => inferInstanceAs (Decidable (_ → _ → _))
  | .cancel _ => inferInstanceAs (Decidable (_ → _))
  | .completeLinkDevice _ => inferInstanceAs (Decidable (_ → _))
  | .completePhraseRestore _ => inferInstanceAs (Decidable (_ → _))
  | .completeWithPin => inferInstanceAs (Decidable True)
  | .completeWithDefaultPin => inferInstanceAs (Decidable True)
  | .useDevicePinInstead => inferInstanceAs (Decidable True)
  | .onForeground _ => inferInstanceAs (Decidable True)
  | .tryBiometric _ => inferInstanceAs (Decidable True)
  | .protectedData _ => inferInstanceAs (Decidable True)
  | .deviceUnlockWaitOver _ => inferInstanceAs (Decidable True)
  | .attemptDone _ _ _ => inferInstanceAs (Decidable True)
  | .promptDone _ _ => inferInstanceAs (Decidable True)

/-! ## What every move keeps -/

/-- Everyone called back or waiting. -/
def callers (g : ProfileUnlockGate) : List Nat := g.called.map (·.1) ++ g.pending

structure Sound (g : ProfileUnlockGate) : Prop where
  fresh : ∀ k ∈ g.callers, k < g.nextCaller
  once : g.callers.Nodup
  inFlight : g.inFlight = !g.prompts.isEmpty
  onePrompt : g.prompts.length ≤ 1
  /-- A prompt of the door that is up, or with no unlock beside it, has seen
  none reported. -/
  current : ∀ p ∈ g.prompts, p.door ≤ g.doorGeneration ∧
    (p.door = g.doorGeneration ∨ g.unlockedBeside = false → ¬ OpenedSince p.id g.log)
  locks : ∀ p earlier, (.lock p :: earlier) <:+ g.log → ¬ OpenedSince p earlier
  inProgress : g.inProgress = !g.running.isEmpty
  alone : g.running.length ≤ 1
  closed : ∀ p, .biometricReady p ∈ g.running → ¬ OpenedSince p g.log
  /-- A grace entry still awaited, or read once more, has the door up. -/
  graceShown : g.gracePending = true ∨ .grace .retry ∈ g.running → g.showing = true
  graceDeferred : g.gracePending = true ∨ (∃ step, .grace step ∈ g.running) →
    g.deferredStarted = true
  shown : g.showing = true → g.screen ≠ none

/-- Whoever waits has an attempt running or something on the screen. -/
def Answered (g : ProfileUnlockGate) : Prop :=
  g.pending ≠ [] → g.running ≠ [] ∨ g.showing = true

variable {g : ProfileUnlockGate}

theorem Sound.keeps (h : Sound g) (ha : Answered g) : Keeps g where
  once := (List.nodup_append.mp h.once).1
  answerable := by
    intro hp
    rcases ha hp with hr | hs
    · exact .inl hr
    · exact .inr (.inr (h.shown hs))
  alone := h.alone
  locks := h.locks

theorem sound_initial : Sound {} := by
  constructor <;> simp [callers]

/-- A caller nobody has seen yet. -/
def Newcomer (g : ProfileUnlockGate) (caller : Option Nat) : Prop :=
  ∀ k ∈ caller, k < g.nextCaller ∧ k ∉ g.callers

section Moves

variable {g : ProfileUnlockGate} {a : UnlockAnswers} {caller : Option Nat}

variable {log : List UnlockEffect} {p : Nat} {b : Bool} {attempt : UnlockAttempt} {i : Nat}
  {outcome : AttemptOutcome} {ok : Bool} {step : GraceStep}

theorem not_openedSince_shown : ¬ OpenedSince p (.prompt p :: log) := by
  simp [OpenedSince]

theorem openedSince_cons {e : UnlockEffect}
    (he : e ≠ .finished true) (h : OpenedSince p (e :: log)) : OpenedSince p log := by
  unfold OpenedSince at h ⊢
  rw [List.takeWhile_cons] at h
  split at h
  · simpa [Ne.symm he] using h
  · cases h

theorem newcomer_none : Newcomer g none := by
  intro k hk
  cases hk

theorem Sound.answer (h : Sound g) (hnew : Newcomer g caller) :
    Sound (g.answer caller b) := by
  cases caller with
  | none => exact { h with fresh := by simpa [callers, answer] using h.fresh
                           once := by simpa [callers, answer] using h.once }
  | some k =>
    have hperm : (g.answer (some k) b).callers.Perm (k :: g.callers) := by
      simp only [callers, ProfileUnlockGate.answer, Option.toList_some, List.map_append,
        List.map_cons, List.map_nil, List.append_assoc]
      exact List.perm_middle
    obtain ⟨hlt, hnot⟩ := hnew k rfl
    refine { h with fresh := ?_, once := ?_ }
    · intro j hj
      rcases List.mem_cons.mp (hperm.mem_iff.mp hj) with rfl | hj
      · exact hlt
      · exact h.fresh j hj
    · exact hperm.nodup_iff.mpr (List.nodup_cons.mpr ⟨hnot, h.once⟩)

theorem Sound.enqueue (h : Sound g) (hnew : Newcomer g caller) : Sound (g.enqueue caller) := by
  have hcallers : (g.enqueue caller).callers = g.callers ++ caller.toList := by
    simp [callers, ProfileUnlockGate.enqueue]
  refine { h with fresh := ?_, once := ?_ }
  · intro k hk
    rw [hcallers] at hk
    rcases List.mem_append.mp hk with hk | hk
    · exact h.fresh k hk
    · exact (hnew k (Option.mem_toList.mp hk)).1
  · rw [hcallers]
    cases caller with
    | none => simpa using h.once
    | some k =>
      rw [Option.toList_some, ← List.concat_eq_append, List.nodup_concat]
      exact ⟨(hnew k rfl).2, h.once⟩

theorem callers_drainQueue : (g.drainQueue b).callers = g.callers := by
  simp [callers, drainQueue, Function.comp_def]

/-- The queue may go, and the screen with it, where no grace entry is
awaited. -/
theorem Sound.drainQueue (h : Sound g) (hpend : g.gracePending = false)
    (hretry : .grace .retry ∉ g.running) : Sound (g.drainQueue b) :=
  { h with
    fresh := by
      intro k hk
      rw [callers_drainQueue] at hk
      exact h.fresh k hk
    once := by
      rw [callers_drainQueue]
      exact h.once
    graceShown := by
      intro hg
      rcases hg with hg | hg
      · exact absurd hg (by simp [ProfileUnlockGate.drainQueue, hpend])
      · exact absurd hg hretry
    shown := by simp [ProfileUnlockGate.drainQueue] }

theorem Sound.endDeviceUnlockWait (h : Sound g) : Sound g.endDeviceUnlockWait :=
  { h with }

theorem Sound.stopGrace (h : Sound g) : Sound g.stopGrace :=
  { h with
    graceShown := by
      rintro (hg | hg)
      · cases hg
      · exact h.graceShown (.inr hg)
    graceDeferred := by
      rintro (hg | hg)
      · cases hg
      · exact h.graceDeferred (.inr hg) }

/-- A log that only grows by what is neither a lock nor a reported unlock. -/
theorem locks_cons {e : UnlockEffect} (h : ∀ p earlier, (.lock p :: earlier) <:+ log → ¬ OpenedSince p earlier)
    (he : ∀ p, e = .lock p → ¬ OpenedSince p log) :
    ∀ p earlier, (.lock p :: earlier) <:+ e :: log → ¬ OpenedSince p earlier := by
  intro p earlier hsuf
  rcases List.suffix_cons_iff.mp hsuf with heq | hsuf
  · cases heq
    exact he p rfl
  · exact h p earlier hsuf

/-- An unlock is over where nothing runs any more: a prompt still out knows
it, by its door and by the flag beside it. -/
theorem Sound.finish (h : Sound g) (hrun : g.running = []) : Sound (g.finish b) :=
  { h with
    fresh := by
      intro k hk
      exact h.fresh k ((callers_drainQueue (g := g) (b := b)) ▸ hk)
    once := by
      have hcallers : (g.finish b).callers = g.callers := callers_drainQueue (g := g) (b := b)
      rw [hcallers]
      exact h.once
    current := by
      intro p hp
      obtain ⟨hle, hnot⟩ := h.current p hp
      have hflight : g.inFlight = true := by
        rw [h.inFlight]
        cases hps : g.prompts with
        | nil => exact absurd (hps ▸ hp) List.not_mem_nil
        | cons q qs => rfl
      refine ⟨Nat.le_succ_of_le hle, ?_⟩
      rintro (hdoor | hbeside)
      · exact absurd hdoor (by
          change p.door ≠ g.doorGeneration + 1
          omega)
      · obtain ⟨hbefore, hb⟩ : g.unlockedBeside = false ∧ b = false := by
          change (g.unlockedBeside || (b && g.inFlight)) = false at hbeside
          simpa [hflight] using hbeside
        subst hb
        exact fun ho => hnot (.inr hbefore) (openedSince_cons (by simp) ho)
    locks := locks_cons h.locks (by simp)
    inProgress := by
      change false = !g.running.isEmpty
      simp [hrun]
    closed := by
      intro p hp
      exact absurd (hrun ▸ hp : UnlockAttempt.biometricReady p ∈ []) List.not_mem_nil
    graceShown := by
      rintro (hg | hg)
      · cases hg
      · exact absurd (hrun ▸ hg : UnlockAttempt.grace .retry ∈ []) List.not_mem_nil
    graceDeferred := by
      rintro (hg | ⟨step, hg⟩)
      · cases hg
      · exact absurd (hrun ▸ hg : UnlockAttempt.grace step ∈ []) List.not_mem_nil
    shown := by
      intro hs
      cases hs }

theorem Sound.requestShowIdentityFork (h : Sound g) (hnew : Newcomer g caller) :
    Sound (g.requestShowIdentityFork a caller) := by
  have hq := h.enqueue hnew
  unfold ProfileUnlockGate.requestShowIdentityFork
  dsimp only
  by_cases hs : (g.enqueue caller).showing = true
  · rw [if_pos hs]
    exact hq
  · rw [if_neg hs]
    exact { hq with graceShown := fun _ => rfl, shown := by simp }

theorem Sound.requestShowUnlock (h : Sound g) (hnew : Newcomer g caller) : Sound (g.requestShowUnlock caller) := by
  have hq := h.enqueue hnew
  unfold ProfileUnlockGate.requestShowUnlock
  dsimp only
  split_ifs with hs
  · exact hq
  · refine { hq with current := ?_, graceShown := fun _ => rfl, shown := by simp }
    intro p hp
    obtain ⟨hle, hnot⟩ := hq.current p hp
    refine ⟨Nat.le_succ_of_le hle, ?_⟩
    rintro (hdoor | hbeside)
    · change p.door = g.doorGeneration + 1 at hdoor
      change p.door ≤ g.doorGeneration at hle
      omega
    · exact hnot (.inr hbeside)

theorem Sound.start (h : Sound g) (hidle : g.inProgress = false)
    (hretry : attempt = .grace .retry → g.showing = true)
    (hgrace : ∀ step, attempt = .grace step → g.deferredStarted = true)
    (hready : ∀ p, attempt = .biometricReady p → ¬ OpenedSince p g.log) :
    Sound (g.start attempt) := by
  have hrun : g.running = [] := by simpa [h.inProgress] using hidle
  have hmem : ∀ {x}, x ∈ (g.start attempt).running → x = attempt := by
    intro x hx
    simpa [ProfileUnlockGate.start, hrun] using hx
  exact
    { h with
      inProgress := by simp [ProfileUnlockGate.start]
      alone := by simp [ProfileUnlockGate.start, hrun]
      closed := fun p hp => hready p (hmem hp).symm
      graceShown := by
        rintro (hg | hg)
        · exact h.graceShown (.inl hg)
        · exact hretry (hmem hg).symm
      graceDeferred := by
        rintro (hg | ⟨step, hg⟩)
        · exact h.graceDeferred (.inl hg)
        · exact hgrace step (hmem hg).symm }

theorem Sound.startBiometric (h : Sound g) (hflight : g.inFlight = false) :
    Sound g.startBiometric := by
  have hnone : g.prompts = [] := by simpa [h.inFlight] using hflight
  exact
    { h with
      inFlight := by simp [ProfileUnlockGate.startBiometric]
      onePrompt := by simp [ProfileUnlockGate.startBiometric, hnone]
      current := by
        intro p hp
        obtain rfl : p = ⟨g.nextPrompt, g.doorGeneration⟩ := by
          simpa [ProfileUnlockGate.startBiometric, hnone] using hp
        exact ⟨Nat.le_refl _, fun _ => not_openedSince_shown⟩
      locks := locks_cons h.locks (by simp)
      closed := fun p hp ho => h.closed p hp (openedSince_cons (by simp) ho) }

/-! ### The entry points

Each keeps `Sound`, and leaves nobody waiting where nobody was; what it needs
of the state besides is what `Orderly` gives. -/

theorem Sound.reportError (h : Sound g) (hrun : g.running = []) : Sound g.reportError := by
  have hidle : Sound { g with inProgress := false } := { h with inProgress := by simp [hrun] }
  unfold ProfileUnlockGate.reportError
  dsimp only
  split_ifs with hs
  · exact hidle
  · exact hidle.requestShowUnlock newcomer_none

theorem Sound.runUnlockAndReadyAsync (h : Sound g) : Sound g.runUnlockAndReadyAsync := by
  unfold ProfileUnlockGate.runUnlockAndReadyAsync
  split_ifs with hbusy
  · exact h
  · simp only [Bool.or_eq_true, not_or, Bool.not_eq_true] at hbusy
    exact h.start hbusy.1 (by simp) (by simp) (by simp)

theorem Sound.completeAccountImport (h : Sound g) : Sound g.completeAccountImport := by
  unfold ProfileUnlockGate.completeAccountImport
  split_ifs with hbusy
  · exact h
  · simp only [Bool.or_eq_true, not_or, Bool.not_eq_true] at hbusy
    exact h.start hbusy.1 (by simp) (by simp) (by simp)

theorem not_inFlight_of_possible (h : g.biometricPossible a = true) : g.inFlight = false := by
  simp only [biometricPossible, Bool.and_eq_true, Bool.not_eq_true'] at h
  exact h.1.1.2

theorem not_inFlight_of_due (h : g.biometricDue a = true) : g.inFlight = false := by
  simp only [biometricDue, Bool.and_eq_true] at h
  exact not_inFlight_of_possible h.1.1.2

theorem Sound.promptIfDue (h : Sound g) : Sound (g.promptIfDue a) := by
  unfold ProfileUnlockGate.promptIfDue
  split_ifs with hdue
  · exact h.startBiometric (not_inFlight_of_due hdue)
  · exact h

theorem inFlight_requestShowUnlock : (g.requestShowUnlock caller).inFlight = g.inFlight := by
  unfold ProfileUnlockGate.requestShowUnlock
  dsimp only
  split_ifs <;> rfl

section

variable (h : Sound g)
include h

theorem Sound.unlockWithoutGrace : Sound (g.unlockWithoutGrace a) := by
  have hdoor := h.requestShowUnlock newcomer_none
  unfold ProfileUnlockGate.unlockWithoutGrace
  split_ifs with hdue
  · exact hdoor.startBiometric (inFlight_requestShowUnlock.trans (not_inFlight_of_due hdue))
  · exact hdoor

/-- The deferred unlock, begun before any grace entry was read; its starts
that read no flag find nothing in progress. -/
theorem Sound.deferredUnlock (hstarted : g.deferredStarted = true)
    (hpend : g.gracePending = false) (hnever : ∀ step, .grace step ∉ g.running)
    (hasked : startsUnasked a = true → g.inProgress = false) : Sound (g.deferredUnlock a) := by
  unfold ProfileUnlockGate.deferredUnlock
  split_ifs with hinit hready hneeds hopen hensure hpin hgrace
  · exact h.drainQueue hpend (hnever .retry)
  · exact h.drainQueue hpend (hnever .retry)
  · exact h.drainQueue hpend (hnever .retry)
  · exact h.start (hasked (by simp_all [startsUnasked])) (by simp) (by simp) (by simp)
  · exact h.requestShowIdentityFork newcomer_none
  · exact h.runUnlockAndReadyAsync
  · exact h.start (hasked (by simp_all [startsUnasked])) (by simp) (fun _ _ => hstarted) (by simp)
  · exact h.unlockWithoutGrace

theorem Sound.beginDeferred (hasked : g.deferredStarted = false → startsUnasked a = true → g.inProgress = false) :
    Sound (g.beginDeferredUnlockAfterFirstPresent a) := by
  unfold beginDeferredUnlockAfterFirstPresent
  split_ifs with hstarted
  · exact h
  · have hset : Sound { g with deferredStarted := true } := { h with graceDeferred := fun _ => rfl }
    apply hset.deferredUnlock rfl
    · by_contra hp
      exact hstarted (h.graceDeferred (.inl (by simpa using hp)))
    · intro step hs
      exact hstarted (h.graceDeferred (.inr ⟨step, hs⟩))
    · exact hasked (by simpa using hstarted)

theorem Sound.ensureUnlocked (hnew : Newcomer g caller) : Sound (g.ensureUnlocked a caller) := by
  unfold ProfileUnlockGate.ensureUnlocked
  have hq := h.enqueue hnew
  have hqueued : (g.enqueue caller).inProgress = g.inProgress := rfl
  split_ifs with hinit hready hbusy hopen hensure hvault hpin
  · exact h.answer hnew
  · exact h.answer hnew
  · exact hq
  · exact h.answer hnew
  · exact hq.start (by simpa [hqueued] using hbusy) (by simp) (by simp) (by simp)
  · exact h.requestShowIdentityFork hnew
  · exact hq.beginDeferred (fun _ _ => by simpa [hqueued] using hbusy)
  · exact (h.requestShowUnlock hnew).promptIfDue

theorem Sound.cancel (hidle : a.hasVault = true → g.inProgress = false) : Sound (g.cancel a) := by
  unfold ProfileUnlockGate.cancel
  split_ifs with hvault
  · have hq := h.enqueue newcomer_none
    exact ({ hq with graceShown := fun _ => rfl, shown := by simp } :
      Sound { g.enqueue none with showing := true, screen := some _ })
  · exact h.finish (by simpa [h.inProgress] using hidle (by simpa using hvault))

theorem Sound.retryGrace : Sound (g.retryGrace a) := by
  unfold ProfileUnlockGate.retryGrace
  split_ifs with hbar
  · exact h
  · simp only [Bool.or_eq_true, Bool.not_eq_true', not_or, Bool.not_eq_true,
      Bool.not_eq_false] at hbar
    obtain ⟨⟨⟨hpend, hidle⟩, -⟩, -⟩ := hbar
    exact h.start hidle (fun _ => h.graceShown (.inl hpend))
      (fun _ _ => h.graceDeferred (.inl hpend)) (by simp)

theorem Sound.onForeground : Sound (g.onForeground a) := by
  unfold ProfileUnlockGate.onForeground
  split_ifs with hpend hprot hdue
  · exact h
  · exact h.retryGrace
  · simp only [Bool.and_eq_true] at hdue
    exact h.startBiometric (not_inFlight_of_due hdue.2)
  · exact h

theorem Sound.tryBiometric : Sound (g.tryBiometric a) := by
  unfold ProfileUnlockGate.tryBiometric
  split_ifs with hbar
  · exact h
  · simp only [Bool.or_eq_true, Bool.not_eq_true', not_or, Bool.not_eq_false] at hbar
    exact h.startBiometric (not_inFlight_of_possible hbar.2)

end

/-! ### Work that comes back -/

theorem Sound.released (h : Sound g)
    (hi : g.running[i]? = some attempt) :
    g.running = [attempt] ∧ g.running.eraseIdx i = [] ∧
      Sound { g with running := g.running.eraseIdx i, inProgress := false } := by
  have hrun : g.running = [attempt] ∧ g.running.eraseIdx i = [] := by
    have hlen := h.alone
    cases hr : g.running with
    | nil => simp [hr] at hi
    | cons x xs =>
      obtain rfl : xs = [] := by simpa [hr] using hlen
      cases i with
      | zero => simpa [hr] using hi
      | succ i => simp [hr] at hi
  refine ⟨hrun.1, hrun.2, ?_⟩
  rw [hrun.2]
  exact
    { h with
      inProgress := rfl
      alone := Nat.zero_le 1
      closed := by simp
      graceShown := fun hg => h.graceShown (.inl (by simpa using hg))
      graceDeferred := fun hg => h.graceDeferred (.inl (by simpa using hg)) }

/-- Whatever comes back, the flag is taken down before it is read. -/
theorem attemptDone_released : g.attemptDone a attempt outcome =
      ({ g with inProgress := false }).attemptDone a attempt outcome := by
  cases attempt <;> rfl

theorem Sound.onReady (h : Sound g) (hrun : g.running = []) : Sound (g.onReady ok) := by
  unfold ProfileUnlockGate.onReady
  split_ifs
  · exact h.finish hrun
  · exact h.reportError hrun

theorem Sound.onBiometricReady (h : Sound g) (hrun : g.running = [])
    (hnot : ¬ OpenedSince p g.log) : Sound (g.onBiometricReady p ok) := by
  unfold ProfileUnlockGate.onBiometricReady
  split_ifs
  · exact h.finish hrun
  · have hlock : Sound { g with log := .lock p :: g.log } :=
      { h with
        current := by
          intro q hq
          obtain ⟨hle, hcur⟩ := h.current q hq
          exact ⟨hle, fun hd ho => hcur hd (openedSince_cons (by simp) ho)⟩
        locks := by
          apply locks_cons h.locks
          rintro q hq
          cases hq
          exact hnot
        closed := by simp [hrun] }
    exact hlock.reportError hrun

theorem showing_requestShowUnlock : (g.requestShowUnlock caller).showing = true := by
  unfold ProfileUnlockGate.requestShowUnlock
  dsimp only
  split_ifs with hs
  · exact hs
  · rfl

theorem requestShowUnlock_gracePending : ({ g with gracePending := b }).requestShowUnlock caller =
      { g.requestShowUnlock caller with gracePending := b } := by
  unfold ProfileUnlockGate.requestShowUnlock
  dsimp only [ProfileUnlockGate.enqueue]
  split_ifs <;> rfl

theorem deferredStarted_requestShowUnlock : (g.requestShowUnlock caller).deferredStarted = g.deferredStarted := by
  unfold ProfileUnlockGate.requestShowUnlock
  dsimp only
  split_ifs <;> rfl

theorem Sound.onGraceUnavailable (h : Sound g) (hidle : g.inProgress = false)
    (hstarted : g.deferredStarted = true) : Sound (g.onGraceUnavailable a step) := by
  cases step with
  | first =>
    have hset : Sound { g with
        handlerRegistered := g.handlerRegistered || a.canRegister } := { h with }
    exact hset.start hidle (by simp) (fun _ _ => hstarted) (by simp)
  | recheck =>
    have hdoor : Sound (({ g with gracePending := true }).requestShowUnlock none) := by
      rw [requestShowUnlock_gracePending]
      exact
        { h.requestShowUnlock newcomer_none with
          graceShown := fun _ => showing_requestShowUnlock
          graceDeferred := fun _ => deferredStarted_requestShowUnlock.trans hstarted }
    unfold ProfileUnlockGate.onGraceUnavailable
    dsimp only
    split_ifs
    · exact { hdoor with }
    · exact hdoor
  | retry => exact h.endDeviceUnlockWait

theorem Sound.onGraceAttemptDone {answer : GraceAnswer} (h : Sound g)
    (hrun : g.running = []) (hstarted : g.deferredStarted = true) : Sound (g.onGraceAttemptDone a step answer) := by
  have hidle : Sound { g with inProgress := false } := { h with inProgress := by simp [hrun] }
  cases answer with
  | found ready =>
    cases ready with
    | true => exact hidle.finish hrun
    | false => exact hidle.stopGrace.reportError hrun
  | unavailable => exact hidle.onGraceUnavailable rfl hstarted
  | closed =>
    unfold ProfileUnlockGate.onGraceAttemptDone
    dsimp only
    split_ifs with hretry
    · exact hidle.stopGrace.promptIfDue
    · exact hidle.stopGrace.unlockWithoutGrace

theorem Sound.attemptDone (h : Sound g) (hi : g.running[i]? = some attempt) :
    Sound (({ g with running := g.running.eraseIdx i }).attemptDone a attempt outcome) := by
  rw [attemptDone_released]
  obtain ⟨hone, hrun, hrel⟩ := h.released hi
  have hmem : attempt ∈ g.running := by simp [hone]
  cases attempt with
  | pin | accountImport => exact hrel.onReady hrun
  | messaging => exact hrel.finish hrun
  | grace step => exact hrel.onGraceAttemptDone hrun (h.graceDeferred (.inr ⟨step, hmem⟩))
  | biometricReady p => exact hrel.onBiometricReady hrun (h.closed p hmem)

theorem Sound.promptDone {p : BiometricPrompt} {answer : BiometricAnswer}
    (h : Sound g) (hi : g.prompts[i]? = some p) :
    Sound (({ g with prompts := g.prompts.eraseIdx i }).onBiometricDone p answer) := by
  obtain ⟨hp, hrest⟩ : p ∈ g.prompts ∧ g.prompts.eraseIdx i = [] := by
    have hlen := h.onePrompt
    cases hr : g.prompts with
    | nil => simp [hr] at hi
    | cons x xs =>
      obtain rfl : xs = [] := by simpa [hr] using hlen
      cases i with
      | zero => simp_all
      | succ i => simp [hr] at hi
  obtain ⟨-, hcur⟩ := h.current p hp
  have hout : Sound { g with prompts := g.prompts.eraseIdx i, inFlight := false } := by
    rw [hrest]
    exact { h with inFlight := rfl, onePrompt := Nat.zero_le 1, current := by simp }
  unfold onBiometricDone
  dsimp only
  split_ifs with hgone hlock
  · exact
      { hout with
        current := by simp [hrest]
        locks := by
          apply locks_cons h.locks
          rintro q hq
          cases hq
          exact hcur (.inr hlock.2.1)
        closed := fun q hq ho => h.closed q hq (openedSince_cons (by simp) ho) }
  · exact hout
  · simp only [not_or, not_not, Bool.not_eq_true, Bool.not_eq_false] at hgone
    cases answer with
    | found =>
      apply hout.start hgone.2.2 (by simp) (by simp)
      rintro q hq
      cases hq
      exact hcur (.inl hgone.1)
    | error | canceled | unavailable | missing => exact hout

/-! ### Nobody is left waiting -/

theorem answered_of_showing (h : g.showing = true) : Answered g := fun _ => .inr h

theorem answered_of_running (h : g.running ≠ []) : Answered g := fun _ => .inl h

theorem answered_of_nobody (h : g.pending = []) : Answered g := fun hp => absurd h hp

theorem answered_start : Answered (g.start attempt) :=
  answered_of_running (by simp [ProfileUnlockGate.start])

theorem showing_requestShowIdentityFork : (g.requestShowIdentityFork a caller).showing = true := by
  unfold ProfileUnlockGate.requestShowIdentityFork
  dsimp only
  by_cases hs : (g.enqueue caller).showing = true
  · rw [if_pos hs]
    exact hs
  · rw [if_neg hs]

theorem showing_promptIfDue : (g.promptIfDue a).showing = g.showing := by
  unfold ProfileUnlockGate.promptIfDue
  split_ifs <;> rfl

theorem showing_unlockWithoutGrace : (g.unlockWithoutGrace a).showing = true := by
  unfold ProfileUnlockGate.unlockWithoutGrace
  split_ifs
  · exact showing_requestShowUnlock
  · exact showing_requestShowUnlock

theorem showing_reportError : g.reportError.showing = true := by
  unfold ProfileUnlockGate.reportError
  dsimp only
  split_ifs with hs
  · exact hs
  · exact showing_requestShowUnlock

theorem Answered.runUnlockAndReadyAsync (h : Answered g) : Answered g.runUnlockAndReadyAsync := by
  unfold ProfileUnlockGate.runUnlockAndReadyAsync
  split_ifs
  · exact h
  · exact answered_start

theorem Answered.completeAccountImport (h : Answered g) : Answered g.completeAccountImport := by
  unfold ProfileUnlockGate.completeAccountImport
  split_ifs
  · exact h
  · exact answered_start

/-- Where the door would not be raised, the deferred unlock answers whoever
waits only if its PIN is not declined. -/
theorem answered_deferredUnlock (h : Answered g ∨ (g.inProgress = false ∧ g.inFlight = false)) :
    Answered (g.deferredUnlock a) := by
  unfold ProfileUnlockGate.deferredUnlock
  split_ifs
  · exact answered_of_nobody rfl
  · exact answered_of_nobody rfl
  · exact answered_of_nobody rfl
  · exact answered_start
  · exact answered_of_showing showing_requestShowIdentityFork
  · rcases h with h | ⟨hidle, hflight⟩
    · exact h.runUnlockAndReadyAsync
    · simp only [ProfileUnlockGate.runUnlockAndReadyAsync, hidle, hflight]
      exact answered_start
  · exact answered_start
  · exact answered_of_showing showing_unlockWithoutGrace

theorem Answered.beginDeferred (h : Answered g) : Answered (g.beginDeferredUnlockAfterFirstPresent a) := by
  unfold beginDeferredUnlockAfterFirstPresent
  split_ifs
  · exact h
  · exact answered_deferredUnlock (.inl h)

/-- One more caller, who in the default PIN's branch finds a screen or a
deferred unlock still to begin. -/
theorem Answered.ensureUnlocked (h : Answered g) (hs : Sound g) (hasked : caller ≠ none → asksDefaultPin a g = true →
      g.showing = true ∨ (g.deferredStarted = false ∧ g.inFlight = false)) :
    Answered (g.ensureUnlocked a caller) := by
  unfold ProfileUnlockGate.ensureUnlocked
  split_ifs with hinit hready hbusy hopen hensure hvault hpin
  · exact h
  · exact h
  · apply answered_of_running
    have hrun := hs.inProgress
    intro hnone
    change g.running = [] at hnone
    simp [hbusy, hnone] at hrun
  · exact h
  · exact answered_start
  · exact answered_of_showing showing_requestShowIdentityFork
  · have hasks : asksDefaultPin a g = true := by simp_all [asksDefaultPin]
    cases caller with
    | none =>
      have hsame : Answered (g.enqueue none) := by
        simpa [Answered, ProfileUnlockGate.enqueue] using h
      exact hsame.beginDeferred
    | some k =>
      rcases hasked (by simp) hasks with hshow | ⟨hstarted, hflight⟩
      · exact Answered.beginDeferred (answered_of_showing hshow)
      · unfold beginDeferredUnlockAfterFirstPresent
        rw [if_neg (by simp [ProfileUnlockGate.enqueue, hstarted])]
        have hidle : g.inProgress = false := by simpa using hbusy
        exact answered_deferredUnlock (.inr ⟨hidle, hflight⟩)
  · exact answered_of_showing (showing_promptIfDue.trans showing_requestShowUnlock)

theorem Answered.cancel : Answered (g.cancel a) := by
  unfold ProfileUnlockGate.cancel
  split_ifs
  · exact answered_of_showing showing_requestShowIdentityFork
  · exact answered_of_nobody rfl

theorem Answered.retryGrace (h : Answered g) : Answered (g.retryGrace a) := by
  unfold ProfileUnlockGate.retryGrace
  split_ifs
  · exact h
  · exact answered_start

theorem Answered.onForeground (h : Answered g) : Answered (g.onForeground a) := by
  unfold ProfileUnlockGate.onForeground
  split_ifs
  · exact h
  · exact h.retryGrace
  · exact h
  · exact h

theorem Answered.tryBiometric (h : Answered g) : Answered (g.tryBiometric a) := by
  unfold ProfileUnlockGate.tryBiometric
  split_ifs
  · exact h
  · exact h

theorem answered_onReady : Answered (g.onReady ok) := by
  unfold ProfileUnlockGate.onReady
  split_ifs
  · exact answered_of_nobody rfl
  · exact answered_of_showing showing_reportError

/-- A grace attempt that comes back tells its callers, tries once more or has
the door up. -/
theorem answered_onGraceAttemptDone {answer : GraceAnswer} (hretry : step = .retry → g.showing = true) :
    Answered (g.onGraceAttemptDone a step answer) := by
  cases answer with
  | found ready =>
    cases ready with
    | true => exact answered_of_nobody rfl
    | false => exact answered_of_showing showing_reportError
  | unavailable =>
    cases step with
    | first => exact answered_start
    | recheck =>
      apply answered_of_showing
      unfold ProfileUnlockGate.onGraceAttemptDone ProfileUnlockGate.onGraceUnavailable
      dsimp only
      split_ifs
      · exact showing_requestShowUnlock
      · exact showing_requestShowUnlock
    | retry => exact answered_of_showing (hretry rfl)
  | closed =>
    apply answered_of_showing
    unfold ProfileUnlockGate.onGraceAttemptDone
    dsimp only
    split_ifs with heq
    · exact showing_promptIfDue.trans (hretry heq)
    · exact showing_unlockWithoutGrace

theorem answered_attemptDone (hretry : attempt = .grace .retry → g.showing = true) :
    Answered (g.attemptDone a attempt outcome) := by
  cases attempt with
  | pin | accountImport => exact answered_onReady
  | messaging => exact answered_of_nobody rfl
  | grace step => exact answered_onGraceAttemptDone (fun h => hretry (h ▸ rfl))
  | biometricReady p =>
    unfold ProfileUnlockGate.attemptDone ProfileUnlockGate.onBiometricReady
    dsimp only
    split_ifs
    · exact answered_of_nobody rfl
    · exact answered_of_showing showing_reportError

theorem Answered.onBiometricDone {p : BiometricPrompt} {answer : BiometricAnswer}
    (h : Answered g) : Answered (g.onBiometricDone p answer) := by
  unfold ProfileUnlockGate.onBiometricDone
  dsimp only
  split_ifs
  · exact h
  · exact h
  · cases answer with
    | found => exact answered_start
    | error | canceled | unavailable | missing => exact h

end Moves

/-! ## Every run -/

theorem Sound.next {e : Event} (h : Sound g) (he : Orderly g e) : Sound (g.next e) := by
  cases e with
  | ensureUnlocked leaves a =>
    have hbump : Sound { g with nextCaller := g.nextCaller + 1 } :=
      { h with fresh := fun k hk => Nat.lt_succ_of_lt (h.fresh k hk) }
    apply hbump.ensureUnlocked
    intro k hk
    cases leaves with
    | false => cases hk
    | true =>
      obtain rfl : g.nextCaller = k := by simpa using hk
      exact ⟨Nat.lt_succ_self _, fun hmem => Nat.lt_irrefl _ (h.fresh _ hmem)⟩
  | beginDeferred a => exact h.beginDeferred he
  | completeWithPin | completeWithDefaultPin => exact h.runUnlockAndReadyAsync
  | completeLinkDevice canImport =>
    cases canImport with
    | true => exact h.completeAccountImport
    | false => exact h.reportError (by simpa [h.inProgress] using he rfl)
  | completePhraseRestore canRestore =>
    cases canRestore with
    | true => exact h.completeAccountImport
    | false => exact h.reportError (by simpa [h.inProgress] using he rfl)
  | cancel a => exact h.cancel he
  | useDevicePinInstead => exact h.endDeviceUnlockWait
  | onForeground a => exact h.onForeground
  | tryBiometric a => exact h.tryBiometric
  | protectedData a => exact h.retryGrace
  | deviceUnlockWaitOver generation =>
    simp only [ProfileUnlockGate.next, ProfileUnlockGate.deviceUnlockWaitOver]
    split_ifs
    · exact h.endDeviceUnlockWait
    · exact h
  | attemptDone i outcome a =>
    cases hi : g.running[i]? with
    | none => simpa [ProfileUnlockGate.next, hi] using h
    | some attempt => simpa only [ProfileUnlockGate.next, hi] using h.attemptDone hi
  | promptDone i answer =>
    cases hi : g.prompts[i]? with
    | none => simpa [ProfileUnlockGate.next, hi] using h
    | some p => simpa only [ProfileUnlockGate.next, hi] using h.promptDone hi

theorem Answered.next {e : Event} (h : Answered g) (hs : Sound g) (he : Orderly g e) : Answered (g.next e) := by
  cases e with
  | ensureUnlocked leaves a =>
    have hbump : Sound { g with nextCaller := g.nextCaller + 1 } :=
      { hs with fresh := fun k hk => Nat.lt_succ_of_lt (hs.fresh k hk) }
    have hsame : Answered { g with nextCaller := g.nextCaller + 1 } := h
    apply hsame.ensureUnlocked hbump
    intro hleaves hasks
    exact he (by simpa using hleaves) hasks
  | beginDeferred a => exact h.beginDeferred
  | completeWithPin | completeWithDefaultPin => exact h.runUnlockAndReadyAsync
  | completeLinkDevice canImport =>
    cases canImport with
    | true => exact h.completeAccountImport
    | false => exact answered_of_showing showing_reportError
  | completePhraseRestore canRestore =>
    cases canRestore with
    | true => exact h.completeAccountImport
    | false => exact answered_of_showing showing_reportError
  | cancel a => exact Answered.cancel
  | useDevicePinInstead => exact h
  | onForeground a => exact h.onForeground
  | tryBiometric a => exact h.tryBiometric
  | protectedData a => exact h.retryGrace
  | deviceUnlockWaitOver generation =>
    simp only [ProfileUnlockGate.next, ProfileUnlockGate.deviceUnlockWaitOver]
    split_ifs
    · exact h
    · exact h
  | attemptDone i outcome a =>
    cases hi : g.running[i]? with
    | none => simpa only [ProfileUnlockGate.next, hi] using h
    | some attempt =>
      simp only [ProfileUnlockGate.next, hi]
      apply answered_attemptDone
      intro hretry
      exact hs.graceShown (.inr (hretry ▸ List.mem_of_getElem? hi))
  | promptDone i answer =>
    cases hi : g.prompts[i]? with
    | none => simpa only [ProfileUnlockGate.next, hi] using h
    | some p =>
      simp only [ProfileUnlockGate.next, hi]
      exact Answered.onBiometricDone h

end ProfileUnlockGate

open Lib ProfileUnlockGate

/-- In every run of the gate off its slips, with the work and the prompts
handed out coming back in any order and with any result, each caller is
called at most once, none waits with nothing that can answer, one attempt
runs at a time, and no late prompt's answer locks what another unlock
opened. -/
theorem unlock_gate_keeps {events : List Event} (h : Admits next Orderly {} events) :
    ∀ g ∈ states next {} events, g.Keeps := by
  have hkeep : ∀ g ∈ states next {} events, Sound g ∧ Answered g :=
    h.invariant (fun g e hg he => ⟨hg.1.next he, hg.2.next hg.1 he⟩)
      ⟨sound_initial, answered_of_nobody rfl⟩
  intro g hg
  exact (hkeep g hg).1.keeps (hkeep g hg).2

/-- A grace entry that does not open, a prompt canceled at the door, a typed
PIN while a second caller waits. -/
theorem unlock_gate_keeps_pin :
    (List.foldl next {}
      [.beginDeferred { graceOn := true, biometricOn := true },
       .ensureUnlocked true { graceOn := true, biometricOn := true },
       .attemptDone 0 { grace := .closed } { graceOn := true, biometricOn := true },
       .promptDone 0 .canceled, .completeWithPin, .ensureUnlocked true {},
       .attemptDone 0 {} {}]).Keeps :=
  unlock_gate_keeps (by decide) _ foldl_mem_states

/-- The default PIN refused, the door canceled, a caller come afresh: it
waits for a deferred unlock that was begun before, and nothing is there to
answer it. -/
theorem unlock_gate_strands :
    ¬ ∀ g ∈ states next {}
      [.beginDeferred { pinIsDefault := true },
       .attemptDone 0 { ok := false } { pinIsDefault := true },
       .cancel { pinIsDefault := true },
       .ensureUnlocked true { pinIsDefault := true }], g.Keeps := by
  intro h
  have hlast := (h _ foldl_mem_states).answerable (by decide)
  revert hlast
  decide

end Pbr
