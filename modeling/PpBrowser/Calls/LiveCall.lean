import Mathlib.Data.String.Basic
import PpBrowser.Lib.Rows

/-!
# LiveCall — the calls this device has

`CallLifecycleTypes.h`, `CallMediaStatusLogic.h` and `LiveCall.cpp`: one call
as it lives from admission to close, and the table of them. What is read off
a call for the screen stands here as far as an operation reads it. The clock
is an argument of the operations that read it; logging and the change hook
leave no trace.
-/

namespace Pbr

open Lib

/-! ## State, status and path -/

inductive CallPhase where
  | idle | ringing | accepting | outboundCalling | joinedLocal | mediaPending | mediaConnecting | inCall
  | connectFailed
  deriving DecidableEq, Repr

/-- How a call's media is doing. -/
inductive CallMediaStatus where
  | none | deciding | directConnecting | hopWaiting | hopAttaching | directLive | hopLive | migrating
  | degradedTxOnly | failed | reconnecting
  deriving DecidableEq, Repr

/-- Which path carries a call's media. -/
inductive CallMediaPath where
  | undecided | direct | hop
  deriving DecidableEq, Repr

inductive CallArmedPlanner where
  | none | lifecycle | bridge | topology
  deriving DecidableEq, Repr

inductive CallDirectPlannerPhase where
  | idle | arming | keyWait | connecting | live | degradedTxOnly | stopping | reconnecting
  deriving DecidableEq, Repr

inductive CallHopPlannerPhase where
  | idle | waitingAttach | migrating | attaching | live | stopping
  deriving DecidableEq, Repr

inductive LiveCallOrigin where
  | placed | invited
  deriving DecidableEq, Repr

inductive LiveCallState where
  | calling | ringing | accepting | joined | ended
  deriving DecidableEq, Repr

inductive LiveCallEndReason where
  | none | localLeave | remoteEnded | declined | declinedByPeer | expired | unanswered | superseded
  | startFailed | mediaUnavailable | shutdown | orphaned | merged | answeredElsewhere
  deriving DecidableEq, Repr

/-- Ended calls kept findable for late readers. -/
def kEndedKept : Nat := 16

def isActiveState (state : LiveCallState) : Bool :=
  state = .calling || state = .accepting || state = .joined

def isLiveStatus (status : CallMediaStatus) : Bool :=
  status = .directLive || status = .hopLive

def isConnectingStatus : CallMediaStatus → Bool
  | .directConnecting | .hopWaiting | .hopAttaching | .migrating | .reconnecting | .degradedTxOnly => true
  | _ => false

def allowsDirect (status : CallMediaStatus) : Bool :=
  status = .directConnecting || status = .degradedTxOnly || status = .directLive || status = .reconnecting

def allowsHop (status : CallMediaStatus) : Bool :=
  status = .hopWaiting || status = .hopAttaching || status = .hopLive || status = .migrating

def plannerFor : CallMediaStatus → CallArmedPlanner
  | .deciding => .lifecycle
  | .directConnecting | .directLive | .degradedTxOnly | .reconnecting => .bridge
  | .hopWaiting | .hopAttaching | .hopLive | .migrating => .topology
  | .none | .failed => .none

variable {status : CallMediaStatus}

theorem allowsDirect_iff : allowsDirect status ↔ plannerFor status = .bridge := by
  cases status <;> decide

theorem allowsHop_iff : allowsHop status ↔ plannerFor status = .topology := by
  cases status <;> decide

theorem not_allowsDirect_of_allowsHop (h : allowsHop status) : ¬ allowsDirect status := by
  rw [allowsDirect_iff, allowsHop_iff.mp h]
  decide

/-- A group planner phase as a status; `none`: no change. -/
def mediaStatusForHopProgress : CallHopPlannerPhase → Option CallMediaStatus
  | .waitingAttach => some .hopWaiting
  | .attaching => some .hopAttaching
  | .live => some .hopLive
  | .migrating => some .migrating
  | .idle | .stopping => none

/-- A 1:1 planner phase as a status; `none`: no change. -/
def mediaStatusForDirectProgress : CallDirectPlannerPhase → Option CallMediaStatus
  | .arming | .connecting | .keyWait => some .directConnecting
  | .degradedTxOnly => some .degradedTxOnly
  | .reconnecting => some .reconnecting
  | .live | .idle | .stopping => none

/-- The 1:1 planner may ask to arm in the phases where a call is set up. -/
def shouldHonorDirectArmingRequest (phase : CallPhase) : Bool :=
  phase = .accepting || phase = .joinedLocal || phase = .mediaPending || phase = .mediaConnecting

theorem allowsHop_of_hopProgress {phase : CallHopPlannerPhase}
    (h : mediaStatusForHopProgress phase = some status) : allowsHop status := by
  cases phase <;> simp [mediaStatusForHopProgress] at h <;> subst h <;> decide

/-! ## A call -/

structure LiveCallMediaProgress where
  status : CallMediaStatus := .none
  /-- Media went live since the last failure. -/
  reachedLive : Bool := false
  /-- The answerer waits for the call's media key. -/
  keyPending : Bool := false
  /-- When the media first went live (0: never). -/
  liveSinceMs : Int := 0
  path : CallMediaPath := .undecided
  /-- A media path was started for the call. -/
  mediaAttempted : Bool := false
  deriving DecidableEq, Repr

/-- What `SetStatus` leaves of the progress. -/
def LiveCallMediaProgress.enter (progress : LiveCallMediaProgress) (nowMs : Int) (next : CallMediaStatus) :
    LiveCallMediaProgress :=
  { progress with
    status := next
    -- a Hop status puts the call on the hop for good, a Direct one decides an undecided path
    path :=
      if allowsHop next then .hop
      else if allowsDirect next ∧ progress.path = .undecided then .direct
      else progress.path
    reachedLive :=
      if isLiveStatus next then true else if next = .failed then false else progress.reachedLive
    keyPending := if isLiveStatus next ∨ next = .failed then false else progress.keyPending
    liveSinceMs := if isLiveStatus next ∧ progress.liveSinceMs = 0 then nowMs else progress.liveSinceMs }

structure LiveCall where
  callId : String
  /-- Tells a re-admitted id from the call that had it before. -/
  callInstance : Nat := 0
  origin : LiveCallOrigin := .placed
  state : LiveCallState := .calling
  endReason : LiveCallEndReason := .none
  stateAtClose : LiveCallState := .ended
  peers : List String := []
  admittedAtMs : Int := 0
  progress : LiveCallMediaProgress := {}
  activity : String := ""
  deriving DecidableEq, Repr

namespace LiveCall

def isOpen (call : LiveCall) : Bool := call.state ≠ .ended

def endedByPeer (call : LiveCall) : Bool :=
  call.state = .ended && call.stateAtClose ≠ .ringing &&
    (call.endReason = .remoteEnded || call.endReason = .declinedByPeer)

/-- What the call shows as. -/
def phase (call : LiveCall) : CallPhase :=
  match call.state with
  | .ringing => .ringing
  | .accepting => .accepting
  | .ended => .idle
  | .calling | .joined =>
    if call.progress.status = .failed then .connectFailed
    else if call.progress.reachedLive then .inCall
    else if call.state = .calling then .outboundCalling -- nobody answered yet
    else if call.progress.keyPending then .mediaPending
    else if isConnectingStatus call.progress.status ∨ call.origin = .placed then .mediaConnecting
    else .joinedLocal

end LiveCall

/-! ## The table -/

structure LiveCalls where
  /-- `calls_`, by id. -/
  calls : RowMap LiveCall.callId := {}
  mediaCancelGen : Nat := 0
  lastEndedByPeer : String := ""
  endedOrder : List String := []
  nextInstance : Nat := 1

namespace LiveCalls

variable (calls : LiveCalls) (nowMs : Int) (callId : String)

def find : Option LiveCall := calls.calls.find callId

/-- The first Calling, Accepting or Joined call, by id. -/
def active : Option LiveCall := calls.calls.rows.find? (isActiveState ·.state)

/-- The open call an operation names; no id names the active call. -/
def resolve : Option LiveCall :=
  (if callId = "" then calls.active else calls.find callId).filter (·.isOpen)

/-- `call` in the place of the call with its id. -/
def write (call : LiveCall) : LiveCalls := { calls with calls := calls.calls.insert call }

/-- A `uint64_t` counted up. -/
def countUp (n : Nat) : Nat := (n + 1) % 2 ^ 64

/-- `SetStatus`: deciding a path anew turns the cancel generation over. -/
def setStatus (call : LiveCall) (next : CallMediaStatus) : LiveCalls :=
  { calls.write { call with progress := call.progress.enter nowMs next } with
    mediaCancelGen :=
      if next = .deciding ∧ call.progress.status ≠ .deciding then countUp calls.mediaCancelGen
      else calls.mediaCancelGen }

/-! ### Media progress -/

def setMediaStatus (status : CallMediaStatus) : LiveCalls :=
  match calls.resolve callId with
  | none => calls
  | some call => calls.setStatus nowMs call status

def notePath (path : CallMediaPath) : LiveCalls :=
  match calls.resolve callId with
  | none => calls
  | some call =>
    if path = .undecided ∨ call.progress.path = path ∨ call.progress.path = .hop then calls
    else calls.write { call with progress := { call.progress with path } }

/-- Any state but unknown. -/
def noteMediaAttempted : LiveCalls :=
  match calls.find callId with
  | none => calls
  | some call =>
    if call.progress.mediaAttempted then calls
    else calls.write { call with progress := { call.progress with mediaAttempted := true } }

def noteActivity (text : String) : LiveCalls :=
  match calls.find callId with
  | none => calls
  | some call => if call.activity = text then calls else calls.write { call with activity := text }

def reportDirectProgress (phase : CallDirectPlannerPhase) : LiveCalls :=
  match mediaStatusForDirectProgress phase with
  | none => calls
  | some status => calls.setMediaStatus nowMs callId status

def reportHopProgress (phase : CallHopPlannerPhase) : LiveCalls :=
  match mediaStatusForHopProgress phase with
  | none => calls
  | some status => calls.setMediaStatus nowMs callId status

def requestDirectArming : LiveCalls :=
  match calls.resolve callId with
  | none => calls
  | some call =>
    if ¬ allowsDirect call.progress.status ∧ shouldHonorDirectArmingRequest call.phase then
      calls.setStatus nowMs call .directConnecting
    else calls

/-- Never takes a running path back to Deciding. -/
def noteOutboundStarted : LiveCalls :=
  match calls.resolve callId with
  | none => calls
  | some call =>
    if call.progress.status = .none ∨ call.progress.status = .deciding ∨ call.progress.status = .failed then
      calls.setStatus nowMs call .deciding
    else calls

def noteMediaDeferred : LiveCalls :=
  match calls.resolve callId with
  | none => calls
  | some call =>
    if call.phase = .accepting ∨ call.phase = .joinedLocal ∨ call.phase = .outboundCalling ∨
        call.phase = .mediaConnecting then
      calls.write { call with progress := { call.progress with keyPending := true } }
    else calls

def noteMediaKeyReady : LiveCalls :=
  match calls.resolve callId with
  | none => calls
  | some call =>
    if call.phase ≠ .mediaPending ∧ call.phase ≠ .joinedLocal ∧ call.phase ≠ .accepting then calls
    else
      let call := { call with progress := { call.progress with keyPending := false } }
      -- no path yet: Direct until a SoftMigrate
      if call.progress.status = .none ∨ call.progress.status = .deciding then
        calls.setStatus nowMs call .directConnecting
      else calls.write call

def noteMediaConnected : LiveCalls :=
  match calls.resolve callId with
  | none => calls
  | some call =>
    if call.progress.status = .hopAttaching ∨ call.progress.status = .hopWaiting ∨
        call.progress.status = .hopLive ∨ call.progress.status = .migrating then
      calls.setStatus nowMs call .hopLive
    else if call.progress.status ≠ .directLive then calls.setStatus nowMs call .directLive
    else calls.write { call with progress := { call.progress with reachedLive := true } }

def noteDirectHandedToHop : LiveCalls :=
  match calls.resolve callId with
  | none => calls
  | some call =>
    match call.progress.status with
    | .hopWaiting | .hopAttaching | .hopLive | .migrating => calls -- the hop's own progress owns the status
    | _ => calls.setStatus nowMs call .hopWaiting

def noteMediaFailed : LiveCalls :=
  match calls.resolve callId with
  | none => calls
  | some call => calls.setStatus nowMs call .failed

/-! ### From admission to close -/

/-- The peers named, each once. -/
def admittedPeers (peers : List String) : List String :=
  peers.foldl (fun kept peer => if peer ≠ "" ∧ peer ∉ kept then kept ++ [peer] else kept) []

def admitCall (origin : LiveCallOrigin) (state : LiveCallState) (peers : List String) : LiveCalls :=
  { calls.write
      { callId, callInstance := calls.nextInstance, origin, state, admittedAtMs := nowMs
        peers := admittedPeers peers } with
    endedOrder := calls.endedOrder.filter (· ≠ callId)
    nextInstance := countUp calls.nextInstance }

def admitPlaced (peers : List String) : LiveCalls := calls.admitCall nowMs callId .placed .calling peers

/-- A redelivered invite for an open call changes nothing. -/
def admitInvited (peers : List String) : LiveCalls :=
  match calls.find callId with
  | some call => if call.isOpen then calls else calls.admitCall nowMs callId .invited .ringing peers
  | none => calls.admitCall nowMs callId .invited .ringing peers

def markAccepting : LiveCalls :=
  match calls.find callId with
  | none => calls
  | some call =>
    if call.state ≠ .ringing then calls else calls.write { call with state := .accepting, progress := {} }

def markAcceptFailed : LiveCalls :=
  match calls.find callId with
  | none => calls
  | some call => if call.state ≠ .accepting then calls else calls.write { call with state := .ringing }

def markJoined : LiveCalls :=
  match calls.find callId with
  | none => calls
  | some call =>
    if ¬ call.isOpen ∨ call.state = .joined then calls
    -- our accept landed: the call decides its path
    else if call.origin = .invited ∧ call.progress.status = .none then
      calls.setStatus nowMs { call with state := .joined } .deciding
    else calls.write { call with state := .joined }

def addPeer (identity : String) : LiveCalls :=
  match calls.find callId with
  | none => calls
  | some call =>
    if ¬ call.isOpen ∨ identity = "" ∨ identity ∈ call.peers then calls
    else calls.write { call with peers := call.peers ++ [identity] }

def removePeer (identity : String) : LiveCalls :=
  match calls.find callId with
  | none => calls
  | some call =>
    if ¬ call.isOpen then calls
    else calls.write { call with peers := call.peers.filter (· ≠ identity) }

/-- The loop of `PruneEnded`: the longest ended calls go. -/
def dropOldest : List String → RowMap LiveCall.callId → List String × RowMap LiveCall.callId
  | [], kept => ([], kept)
  | id :: order, kept =>
    if kEndedKept < (id :: order).length then dropOldest order (kept.erase id) else (id :: order, kept)

def pruneEnded : LiveCalls :=
  { calls with
    calls := (dropOldest calls.endedOrder calls.calls).2
    endedOrder := (dropOldest calls.endedOrder calls.calls).1 }

/-- A call as `Close` leaves it. -/
def closed (call : LiveCall) (reason : LiveCallEndReason) : LiveCall :=
  { call with stateAtClose := call.state, state := .ended, endReason := reason }

def close (reason : LiveCallEndReason) : LiveCalls :=
  match calls.find callId with
  | none => calls
  | some call =>
    if ¬ call.isOpen then calls
    else
      { calls.write (closed call reason) with
        mediaCancelGen := countUp calls.mediaCancelGen
        lastEndedByPeer := if (closed call reason).endedByPeer then callId else calls.lastEndedByPeer
        endedOrder := calls.endedOrder ++ [callId] }.pruneEnded

end LiveCalls

end Pbr
