import Mathlib.Algebra.GroupWithZero.Nat
import Mathlib.Data.List.Basic
import Mathlib.Logic.Function.Basic

/-!
# MediaDeviceArbiter — leases on the media devices

One arbiter: its holder table, the leases it granted, the queues of its two
device threads and what its backend has open. Every mutex-guarded section is a
step of its own, and so is every piece of work a device thread does without
stopping for another. Waiting leaves no trace here: a waiter that gives up is
one that releases early. The lanes run; what Shutdown leaves to its callers is
out.
-/

namespace Pbr

inductive MediaDeviceKind where
  | mic | speaker | camera
  deriving DecidableEq, Repr

/-- Which kinds admit one holder at a time. -/
structure MediaDeviceSharePolicy where
  exclusiveMic : Bool := true
  exclusiveSpeaker : Bool := false
  exclusiveCamera : Bool := true
  deriving DecidableEq, Repr

def MediaDeviceSharePolicy.exclusive (policy : MediaDeviceSharePolicy) : MediaDeviceKind → Bool
  | .mic => policy.exclusiveMic
  | .speaker => policy.exclusiveSpeaker
  | .camera => policy.exclusiveCamera

inductive MediaDeviceLane where
  | audio | camera
  deriving DecidableEq, Repr

/-- `LaneFor`: mic and speaker share one. -/
def MediaDeviceKind.lane : MediaDeviceKind → MediaDeviceLane
  | .camera => .camera
  | .mic => .audio
  | .speaker => .audio

/-! ## Leases -/

/-- How far an acquire, and later a release, has come. -/
inductive LeaseStage where
  /-- `Hold` granted it; its open is not queued yet. -/
  | held
  | acquired
  /-- `Release` took the endpoint; the place is still held. -/
  | marked (closing : Option Nat)
  /-- `Unhold` ran; the close is not queued yet. -/
  | freed (closing : Option Nat)
  | gone
  deriving DecidableEq, Repr

/-- The endpoint a release holds in its hands. -/
def LeaseStage.closing : LeaseStage → Option Nat
  | .marked closing => closing
  | .freed closing => closing
  | _ => none

structure LeaseSlot where
  kind : MediaDeviceKind
  /-- Half of a voice-processing unit: never reopened alone. -/
  voiceDuplex : Bool := false
  stage : LeaseStage := .held
  endpoint : Option Nat := none
  /-- `released`: which lease was the next to be granted then. -/
  released : Option Nat := none
  deriving DecidableEq, Repr

/-! ## Device threads -/

/-- A task of a lane, or what is left of the one it runs. -/
inductive LaneWork where
  /-- The open of a new lease, not begun. -/
  | open (lease : Nat)
  | openDuplex (mic speaker : Nat)
  | reopen (lease : Nat)
  | close (endpoint : Nat)
  /-- The backend is opening this endpoint. -/
  | opening (lease endpoint : Nat)
  /-- It came back, to be installed. -/
  | opened (lease : Nat) (endpoint : Option Nat)
  | openingDuplex (mic speaker micEndpoint speakerEndpoint : Nat)
  | openedDuplex (mic speaker micEndpoint speakerEndpoint : Nat)
  /-- The mic's lease was released: its endpoint closes, the speaker's is still
  to be installed. -/
  | closeThenOpened (endpoint speaker speakerEndpoint : Nat)
  /-- The one half of a pair that opened. -/
  | closeHalf (endpoint : Nat)
  /-- A reopen that found its lease wanted. -/
  | take (lease : Nat)
  /-- It took this endpoint, closes it and waits. -/
  | settle (lease : Nat) (endpoint : Option Nat)
  | openAgain (lease : Nat)
  deriving DecidableEq, Repr

structure MediaDeviceArbiter where
  policy : MediaDeviceSharePolicy
  leases : Nat → Option LeaseSlot := fun _ => none
  holders : List (MediaDeviceKind × Nat) := []
  nextId : Nat := 1
  /-- The tasks of each lane, the running one first. -/
  work : MediaDeviceLane → List LaneWork := fun _ => []
  /-- The endpoints the backend opens, has open or closes, and for which lease. -/
  openFor : Nat → Option Nat := fun _ => none
  nextEndpoint : Nat := 0

namespace MediaDeviceArbiter

variable (arbiter : MediaDeviceArbiter)

def setLease (lease : Nat) (slot : LeaseSlot) : MediaDeviceArbiter :=
  { arbiter with leases := Function.update arbiter.leases lease (some slot) }

def setWork (lane : MediaDeviceLane) (work : List LaneWork) : MediaDeviceArbiter :=
  { arbiter with work := Function.update arbiter.work lane work }

def post (lane : MediaDeviceLane) (task : LaneWork) : MediaDeviceArbiter :=
  arbiter.setWork lane (arbiter.work lane ++ [task])

/-! ## Acquire -/

/-- `Core::Hold`: refused while an exclusive kind has a holder. -/
def hold (kind : MediaDeviceKind) (voiceDuplex : Bool) : MediaDeviceArbiter :=
  if arbiter.policy.exclusive kind && arbiter.holders.any (·.1 = kind) then arbiter
  else
    { arbiter.setLease arbiter.nextId { kind, voiceDuplex } with
      holders := arbiter.holders ++ [(kind, arbiter.nextId)]
      nextId := arbiter.nextId + 1 }

/-- The mic given back by a voice duplex whose speaker was refused. -/
def unholdMic (lease : Nat) : MediaDeviceArbiter :=
  match arbiter.leases lease with
  | none => arbiter
  | some slot =>
    if slot.stage = .held ∧ slot.voiceDuplex then
      { arbiter with
        leases := Function.update arbiter.leases lease none
        holders := arbiter.holders.filter (·.2 ≠ lease) }
    else arbiter

/-- `AcquireAudio`, `AcquireCamera`: the open queued. -/
def postOpen (lease : Nat) : MediaDeviceArbiter :=
  match arbiter.leases lease with
  | none => arbiter
  | some slot =>
    if slot.stage = .held ∧ ¬ slot.voiceDuplex then
      (arbiter.setLease lease { slot with stage := .acquired }).post slot.kind.lane (.open lease)
    else arbiter

/-- `AcquireVoiceDuplex`: one open for both. -/
def postOpenDuplex (mic speaker : Nat) : MediaDeviceArbiter :=
  match arbiter.leases mic, arbiter.leases speaker with
  | some micSlot, some speakerSlot =>
    if (micSlot.stage = .held ∧ micSlot.voiceDuplex ∧ micSlot.kind = .mic) ∧
        speakerSlot.stage = .held ∧ speakerSlot.voiceDuplex ∧ speakerSlot.kind = .speaker then
      ((arbiter.setLease mic { micSlot with stage := .acquired }).setLease speaker
        { speakerSlot with stage := .acquired }).post .audio (.openDuplex mic speaker)
    else arbiter
  | _, _ => arbiter

/-- `Reopen`: of an audio lease that is no duplex half. -/
def postReopen (lease : Nat) : MediaDeviceArbiter :=
  match arbiter.leases lease with
  | none => arbiter
  | some slot =>
    if slot.stage ≠ .held ∧ ¬ slot.voiceDuplex ∧ slot.kind ≠ .camera then arbiter.post .audio (.reopen lease)
    else arbiter

/-! ## Release, in its three sections -/

def release (lease : Nat) : MediaDeviceArbiter :=
  match arbiter.leases lease with
  | none => arbiter
  | some slot =>
    if slot.stage = .acquired then
      arbiter.setLease lease
        { slot with
          stage := .marked slot.endpoint
          endpoint := none
          released := some arbiter.nextId }
    else arbiter

/-- `Core::Unhold`. -/
def unhold (lease : Nat) : MediaDeviceArbiter :=
  match arbiter.leases lease with
  | none => arbiter
  | some slot =>
    match slot.stage with
    | .marked closing =>
      { arbiter.setLease lease { slot with stage := .freed closing } with
        holders := arbiter.holders.filter (·.2 ≠ lease) }
    | _ => arbiter

def postClose (lease : Nat) : MediaDeviceArbiter :=
  match arbiter.leases lease with
  | none => arbiter
  | some slot =>
    match slot.stage with
    | .freed none => arbiter.setLease lease { slot with stage := .gone }
    | .freed (some endpoint) =>
      (arbiter.setLease lease { slot with stage := .gone }).post slot.kind.lane (.close endpoint)
    | _ => arbiter

/-! ## A lane at work -/

def wanted (lease : Nat) : Bool := (arbiter.leases lease).any (·.released = none)

/-- The backend's open begins. -/
def beginOpen (lease : Nat) : MediaDeviceArbiter :=
  { arbiter with
    openFor := Function.update arbiter.openFor arbiter.nextEndpoint (some lease)
    nextEndpoint := arbiter.nextEndpoint + 1 }

/-- An endpoint is destroyed, or did not come to be. -/
def closed (endpoint : Nat) : MediaDeviceArbiter :=
  { arbiter with openFor := Function.update arbiter.openFor endpoint none }

def closedAll (endpoints : List Nat) : MediaDeviceArbiter := endpoints.foldl closed arbiter

/-- `Install` into a lease that is wanted: what it had is destroyed. -/
def install (lease : Nat) (endpoint : Option Nat) : MediaDeviceArbiter :=
  match arbiter.leases lease with
  | none => arbiter
  | some slot => (arbiter.closedAll slot.endpoint.toList).setLease lease { slot with endpoint }

/-- The first piece of a lane's work, done; `ok` and `okSpeaker` are what the
backend's open comes to. -/
def perform (lane : MediaDeviceLane) (rest : List LaneWork) (ok okSpeaker : Bool) : LaneWork → MediaDeviceArbiter
  | .open lease | .openAgain lease =>
    if arbiter.wanted lease then
      (arbiter.beginOpen lease).setWork lane (.opening lease arbiter.nextEndpoint :: rest)
    else arbiter.setWork lane rest
  | .opening lease endpoint =>
    if ok then arbiter.setWork lane (.opened lease (some endpoint) :: rest)
    else (arbiter.closed endpoint).setWork lane (.opened lease none :: rest)
  | .opened lease endpoint =>
    if arbiter.wanted lease then (arbiter.install lease endpoint).setWork lane rest
    else arbiter.setWork lane (endpoint.toList.map .close ++ rest)
  | .openDuplex mic speaker =>
    if arbiter.wanted mic then
      ((arbiter.beginOpen mic).beginOpen speaker).setWork lane
        (.openingDuplex mic speaker arbiter.nextEndpoint (arbiter.nextEndpoint + 1) :: rest)
    else arbiter.setWork lane rest
  | .openingDuplex mic speaker micEndpoint speakerEndpoint =>
    match ok, okSpeaker with
    | true, true => arbiter.setWork lane (.openedDuplex mic speaker micEndpoint speakerEndpoint :: rest)
    | true, false => (arbiter.closed speakerEndpoint).setWork lane (.closeHalf micEndpoint :: rest)
    | false, true => (arbiter.closed micEndpoint).setWork lane (.closeHalf speakerEndpoint :: rest)
    | false, false => ((arbiter.closed micEndpoint).closed speakerEndpoint).setWork lane rest
  | .openedDuplex mic speaker micEndpoint speakerEndpoint =>
    if arbiter.wanted mic then
      (arbiter.install mic (some micEndpoint)).setWork lane (.opened speaker (some speakerEndpoint) :: rest)
    else arbiter.setWork lane (.closeThenOpened micEndpoint speaker speakerEndpoint :: rest)
  | .closeThenOpened endpoint speaker speakerEndpoint =>
    (arbiter.closed endpoint).setWork lane (.opened speaker (some speakerEndpoint) :: rest)
  | .reopen lease => arbiter.setWork lane (if arbiter.wanted lease then .take lease :: rest else rest)
  | .take lease =>
    match arbiter.leases lease with
    | none => arbiter.setWork lane rest
    | some slot =>
      (arbiter.setLease lease { slot with endpoint := none }).setWork lane (.settle lease slot.endpoint :: rest)
  | .settle lease endpoint => (arbiter.closedAll endpoint.toList).setWork lane (.openAgain lease :: rest)
  | .close endpoint | .closeHalf endpoint => (arbiter.closed endpoint).setWork lane rest

def runLane (lane : MediaDeviceLane) (ok okSpeaker : Bool) : MediaDeviceArbiter :=
  match arbiter.work lane with
  | [] => arbiter
  | work :: rest => arbiter.perform lane rest ok okSpeaker work

/-! ## Steps -/

inductive Step where
  | hold (kind : MediaDeviceKind) (voiceDuplex : Bool)
  | unholdMic (lease : Nat)
  | postOpen (lease : Nat)
  | postOpenDuplex (mic speaker : Nat)
  | postReopen (lease : Nat)
  | release (lease : Nat)
  | unhold (lease : Nat)
  | postClose (lease : Nat)
  | lane (lane : MediaDeviceLane) (ok okSpeaker : Bool)
  deriving DecidableEq, Repr

/-- One section of some thread. -/
def step (arbiter : MediaDeviceArbiter) : Step → MediaDeviceArbiter
  | .hold kind voiceDuplex => arbiter.hold kind voiceDuplex
  | .unholdMic lease => arbiter.unholdMic lease
  | .postOpen lease => arbiter.postOpen lease
  | .postOpenDuplex mic speaker => arbiter.postOpenDuplex mic speaker
  | .postReopen lease => arbiter.postReopen lease
  | .release lease => arbiter.release lease
  | .unhold lease => arbiter.unhold lease
  | .postClose lease => arbiter.postClose lease
  | .lane lane ok okSpeaker => arbiter.runLane lane ok okSpeaker

end MediaDeviceArbiter
/-! ## Where a device's endpoints are -/

/-! ## What a piece of work is about -/

namespace LaneWork

def leases : LaneWork → List Nat
  | .open lease | .reopen lease | .take lease | .openAgain lease => [lease]
  | .opening lease _ | .opened lease _ | .settle lease _ => [lease]
  | .openDuplex mic speaker | .openingDuplex mic speaker _ _ | .openedDuplex mic speaker _ _ => [mic, speaker]
  | .closeThenOpened _ speaker _ => [speaker]
  | .close _ | .closeHalf _ => []

/-- Those it opens for the first time. -/
def opens : LaneWork → List Nat
  | .open lease => [lease]
  | .openDuplex mic speaker => [mic, speaker]
  | _ => []

/-- The endpoints in its hands, those it knows the lease of first. -/
def owned : LaneWork → List (Nat × Nat)
  | .opening lease endpoint => [(endpoint, lease)]
  | .opened lease endpoint | .settle lease endpoint => endpoint.toList.map (·, lease)
  | .openingDuplex mic speaker micEndpoint speakerEndpoint
  | .openedDuplex mic speaker micEndpoint speakerEndpoint => [(micEndpoint, mic), (speakerEndpoint, speaker)]
  | .closeThenOpened _ speaker speakerEndpoint => [(speakerEndpoint, speaker)]
  | _ => []

def endpoints : LaneWork → List Nat
  | .close endpoint | .closeHalf endpoint => [endpoint]
  | .closeThenOpened endpoint _ speakerEndpoint => [endpoint, speakerEndpoint]
  | work => work.owned.map (·.1)

/-- As a thread posts it: not begun. -/
def queued : LaneWork → Bool
  | .open _ | .openDuplex _ _ | .reopen _ | .close _ => true
  | _ => false

/-- How many sections a piece of work takes at most. -/
def weight : LaneWork → Nat
  | .close _ | .closeHalf _ => 1
  | .opened _ _ => 2
  | .opening _ _ | .closeThenOpened _ _ _ => 3
  | .open _ | .openAgain _ | .openedDuplex _ _ _ _ => 4
  | .settle _ _ | .openingDuplex _ _ _ _ => 5
  | .take _ | .openDuplex _ _ => 6
  | .reopen _ => 7

attribute [simp] leases opens owned endpoints queued weight

variable {work : LaneWork}

theorem mem_leases_of_opens {lease : Nat} (h : lease ∈ work.opens) : lease ∈ work.leases := by
  cases work <;> simp_all

theorem endpoints_of_opens {lease : Nat} (h : lease ∈ work.opens) : work.endpoints = [] := by
  cases work <;> simp_all

theorem close_of_queued {e : Nat} (h : work.queued = true) (he : e ∈ work.endpoints) : work = .close e := by
  cases work <;> simp_all

end LaneWork

namespace MediaDeviceArbiter

variable {s : MediaDeviceArbiter}

/-! ## Where endpoints are -/

/-- What the lease, its release or a lane's work has in its hands. -/
def Has (s : MediaDeviceArbiter) (endpoint lease : Nat) : Prop :=
  (∃ slot, s.leases lease = some slot ∧ (slot.endpoint = some endpoint ∨ slot.stage.closing = some endpoint)) ∨
    ∃ lane, ∃ work ∈ s.work lane, (endpoint, lease) ∈ work.owned

/-- Slots as `Hold`, `Release` and `Install` leave them. -/
structure SlotSound (s : MediaDeviceArbiter) (lease : Nat) (slot : LeaseSlot) : Prop where
  lt : lease < s.nextId
  released : slot.released = none ↔ slot.stage = .held ∨ slot.stage = .acquired
  after : ∀ n, slot.released = some n → lease < n ∧ n ≤ s.nextId
  endpoint : slot.endpoint ≠ none → slot.stage = .acquired
  holder : slot.stage = .held ∨ slot.stage = .acquired ∨ (∃ closing, slot.stage = .marked closing) →
    (slot.kind, lease) ∈ s.holders

/-- No endpoint is lost, and none is open twice for one lease. -/
structure Tracked (s : MediaDeviceArbiter) : Prop where
  slots : ∀ lease slot, s.leases lease = some slot → SlotSound s lease slot
  held : ∀ lease slot, s.leases lease = some slot → slot.stage = .held → ∀ e, s.openFor e ≠ some lease
  lt : ∀ e lease, s.openFor e = some lease → e < s.nextEndpoint
  worked_lt : ∀ lane, ∀ work ∈ s.work lane, ∀ e ∈ work.endpoints, e < s.nextEndpoint
  has_lt : ∀ e lease, s.Has e lease → e < s.nextEndpoint
  owner : ∀ e lease, s.Has e lease → ∀ lease', s.openFor e = some lease' → lease' = lease
  placed : ∀ e lease, s.openFor e = some lease → ∃ slot, s.leases lease = some slot ∧
    (slot.endpoint = some e ∨ slot.stage.closing = some e ∨ ∃ work ∈ s.work slot.kind.lane, e ∈ work.endpoints)
  closes : ∀ lane e, .close e ∈ s.work lane → ∀ lease slot, s.openFor e = some lease →
    s.leases lease = some slot → slot.released ≠ none
  named : ∀ lane, ∀ work ∈ s.work lane, ∀ lease ∈ work.leases,
    ∃ slot, s.leases lease = some slot ∧ slot.stage ≠ .held ∧ slot.kind.lane = lane
  pairs : ∀ lane mic speaker, .openDuplex mic speaker ∈ s.work lane → ∀ micSlot speakerSlot,
    s.leases mic = some micSlot → s.leases speaker = some speakerSlot →
      micSlot.kind = .mic ∧ speakerSlot.kind = .speaker
  fresh : ∀ lane, ∀ work ∈ s.work lane, ∀ lease ∈ work.opens, ∀ e, s.openFor e ≠ some lease
  order : ∀ lane, (s.work lane).Pairwise fun work later => ∀ lease ∈ work.leases, lease ∉ later.opens
  tail : ∀ lane, ∀ work ∈ (s.work lane).tail, work.queued = true
  single : ∀ e e' lease, s.openFor e = some lease → s.openFor e' = some lease → e = e'
  again : ∀ lane lease, .openAgain lease ∈ s.work lane → ∀ slot, s.leases lease = some slot →
    slot.released ≠ none ∨ ∀ e, s.openFor e ≠ some lease
  settled : ∀ lane lease endpoint, .settle lease endpoint ∈ s.work lane → ∀ slot, s.leases lease = some slot →
    slot.released ≠ none ∨ ∀ e, s.openFor e = some lease → endpoint = some e

/-- A lane's work about the endpoints of `lease`: it opens one, or closes one. -/
def About (s : MediaDeviceArbiter) (lease : Nat) (work : LaneWork) : Prop :=
  lease ∈ work.opens ∨ ∃ e, work = .close e ∧ s.openFor e = some lease

/-- What is open for `earlier` is closed before `later` is opened. -/
def Before (s : MediaDeviceArbiter) (earlier later : Nat) : Prop :=
  ∀ slot slot', s.leases earlier = some slot → s.leases later = some slot' → slot'.stage ≠ .held →
    slot.stage.closing = none ∧
    (s.work slot'.kind.lane).Pairwise (fun work next => later ∈ work.leases → ¬ s.About earlier next) ∧
    ((∀ work ∈ s.work slot'.kind.lane, later ∉ work.opens) →
      (∀ e, s.openFor e ≠ some earlier) ∧ ∀ work ∈ s.work slot'.kind.lane, earlier ∉ work.opens)

/-- `later` was granted after `earlier` was released, or after its release
began. -/
def GrantedAfter (s : MediaDeviceArbiter) (earlier later : Nat) : Prop :=
  ∃ slot slot' n, s.leases earlier = some slot ∧ s.leases later = some slot' ∧ slot.kind = slot'.kind ∧
    slot.released = some n ∧ n ≤ later

structure InOrder (s : MediaDeviceArbiter) : Prop where
  before : ∀ earlier later, s.GrantedAfter earlier later → s.Before earlier later
  exclusive : ∀ earlier later slot slot', s.leases earlier = some slot → s.leases later = some slot' →
    slot.kind = slot'.kind → s.policy.exclusive slot.kind = true → earlier < later →
      ∃ n, slot.released = some n ∧ n ≤ later

theorem SlotSound.congr {s' : MediaDeviceArbiter} {lease : Nat} {slot : LeaseSlot} (h : SlotSound s lease slot)
    (hid : s.nextId ≤ s'.nextId) (hholders : (slot.kind, lease) ∈ s.holders → (slot.kind, lease) ∈ s'.holders) :
    SlotSound s' lease slot where
  lt := Nat.lt_of_lt_of_le h.lt hid
  released := h.released
  after := fun n hn => ⟨(h.after n hn).1, Nat.le_trans (h.after n hn).2 hid⟩
  endpoint := h.endpoint
  holder := fun hstage => hholders (h.holder hstage)

theorem SlotSound.endpoint_none {lease : Nat} {slot : LeaseSlot} (h : SlotSound s lease slot)
    (hreleased : slot.released ≠ none) : slot.endpoint = none := by
  by_contra hsome
  exact hreleased (h.released.mpr (.inr (h.endpoint hsome)))

end MediaDeviceArbiter
end Pbr
