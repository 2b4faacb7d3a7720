import PpBrowser.Calls.LiveCall
import PpBrowser.Lib.Runs

/-!
# LiveCallRun — the table of calls over a run of operations

Every operation leaves the table alone, edits one call in place, admits one
or closes one (`moves`); what it may do to a call it edits stands in
`Edited`. The list of ended calls, the instances, what a closed call keeps
and what the hop holds on to follow from that.
-/

namespace Pbr

open Lib

/-! ## Operations -/

inductive LiveCallsOpKind where
  | setMediaStatus (status : CallMediaStatus)
  | notePath (path : CallMediaPath)
  | noteMediaAttempted
  | noteActivity (text : String)
  | reportDirectProgress (phase : CallDirectPlannerPhase)
  | reportHopProgress (phase : CallHopPlannerPhase)
  | requestDirectArming
  | noteOutboundStarted
  | noteMediaDeferred
  | noteMediaKeyReady
  | noteMediaConnected
  | noteDirectHandedToHop
  | noteMediaFailed
  | admitPlaced (peers : List String)
  | admitInvited (peers : List String)
  | markAccepting
  | markAcceptFailed
  | markJoined
  | addPeer (identity : String)
  | removePeer (identity : String)
  | close (reason : LiveCallEndReason)
  deriving DecidableEq

/-- An operation on the call with an id, when the clock reads `nowMs`. -/
structure LiveCallsOp where
  nowMs : Int := 1
  callId : String
  kind : LiveCallsOpKind
  deriving DecidableEq

def LiveCallsOp.isAdmission (op : LiveCallsOp) : Bool :=
  match op.kind with
  | .admitPlaced _ | .admitInvited _ => true
  | _ => false

namespace LiveCalls

def step (calls : LiveCalls) (op : LiveCallsOp) : LiveCalls :=
  match op.kind with
  | .setMediaStatus status => calls.setMediaStatus op.nowMs op.callId status
  | .notePath path => calls.notePath op.callId path
  | .noteMediaAttempted => calls.noteMediaAttempted op.callId
  | .noteActivity text => calls.noteActivity op.callId text
  | .reportDirectProgress phase => calls.reportDirectProgress op.nowMs op.callId phase
  | .reportHopProgress phase => calls.reportHopProgress op.nowMs op.callId phase
  | .requestDirectArming => calls.requestDirectArming op.nowMs op.callId
  | .noteOutboundStarted => calls.noteOutboundStarted op.nowMs op.callId
  | .noteMediaDeferred => calls.noteMediaDeferred op.callId
  | .noteMediaKeyReady => calls.noteMediaKeyReady op.nowMs op.callId
  | .noteMediaConnected => calls.noteMediaConnected op.nowMs op.callId
  | .noteDirectHandedToHop => calls.noteDirectHandedToHop op.nowMs op.callId
  | .noteMediaFailed => calls.noteMediaFailed op.nowMs op.callId
  | .admitPlaced peers => calls.admitPlaced op.nowMs op.callId peers
  | .admitInvited peers => calls.admitInvited op.nowMs op.callId peers
  | .markAccepting => calls.markAccepting op.callId
  | .markAcceptFailed => calls.markAcceptFailed op.callId
  | .markJoined => calls.markJoined op.nowMs op.callId
  | .addPeer identity => calls.addPeer op.callId identity
  | .removePeer identity => calls.removePeer op.callId identity
  | .close reason => calls.close op.callId reason

/-- An operation sets a Direct status on the call it names. -/
def setsDirect (call : LiveCall) : LiveCallsOpKind → Bool
  | .setMediaStatus status => allowsDirect status
  | .reportDirectProgress phase => (mediaStatusForDirectProgress phase).isSome
  | .requestDirectArming =>
    !allowsDirect call.progress.status && shouldHonorDirectArmingRequest call.phase
  | .noteMediaKeyReady =>
    (call.phase = .mediaPending || call.phase = .joinedLocal || call.phase = .accepting) &&
      (call.progress.status = .none || call.progress.status = .deciding)
  | .noteMediaConnected => !allowsHop call.progress.status && call.progress.status ≠ .directLive
  | _ => false

/-- The instance `callInstance` of a call is accepted: its media starts over. -/
def AcceptsAnew (calls : LiveCalls) (op : LiveCallsOp) (callId : String) (callInstance : Nat) : Prop :=
  op.kind = .markAccepting ∧ op.callId = callId ∧
    ∃ call, calls.find callId = some call ∧ call.callInstance = callInstance ∧ call.state = .ringing

/-- A Direct status is set on the instance `callInstance` of a call. -/
def SetsDirect (calls : LiveCalls) (op : LiveCallsOp) (callId : String) (callInstance : Nat) : Prop :=
  ∃ call, calls.resolve op.callId = some call ∧ call.callId = callId ∧ call.callInstance = callInstance ∧
    setsDirect call op.kind

/-! ## What an operation does -/

variable {calls calls' : LiveCalls} {op : LiveCallsOp} {call call' : LiveCall} {callId : String} {nowMs : Int}
  {identity : String}

/-- What an operation may change of a call it does not admit or close. -/
structure Edited (calls : LiveCalls) (op : LiveCallsOp) (call call' : LiveCall) : Prop where
  callId : call'.callId = call.callId
  callInstance : call'.callInstance = call.callInstance
  endReason : call'.endReason = call.endReason
  stateAtClose : call'.stateAtClose = call.stateAtClose
  isOpen : call'.isOpen = call.isOpen
  closed : call.isOpen = false → call'.progress = call.progress ∨
    call'.progress = { call.progress with mediaAttempted := true }
  hop : call.progress.path = .hop → call'.progress.path = .hop ∨
    op.kind = .markAccepting ∧ op.callId = call.callId ∧ call.state = .ringing
  direct : allowsDirect call'.progress.status → allowsDirect call.progress.status ∨
    calls.resolve op.callId = some call ∧ setsDirect call op.kind

/-- What an operation may do to the table. -/
inductive Moves (calls : LiveCalls) (op : LiveCallsOp) : LiveCalls → Prop where
  | stays : Moves calls op calls
  | edits {call call' : LiveCall} (mediaCancelGen : Nat) (found : calls.find call.callId = some call)
      (edited : Edited calls op call call') : Moves calls op { calls.write call' with mediaCancelGen }
  | admits (origin : LiveCallOrigin) (state : LiveCallState) (peers : List String) (opens : state ≠ .ended)
      (counted : op.isAdmission) : Moves calls op (calls.admitCall op.nowMs op.callId origin state peers)
  | closes {call : LiveCall} (reason : LiveCallEndReason) (mediaCancelGen : Nat) (lastEndedByPeer : String)
      (found : calls.find op.callId = some call) (opened : call.isOpen) :
      Moves calls op
        { calls.write (LiveCalls.closed call reason) with
          mediaCancelGen, lastEndedByPeer, endedOrder := calls.endedOrder ++ [op.callId] }.pruneEnded

theorem callId_of_find (h : calls.find callId = some call) : call.callId = callId :=
  RowMap.key_of_find h

theorem find_self (h : calls.find callId = some call) : calls.find call.callId = some call := by
  rw [callId_of_find h]
  exact h

theorem resolve_some (h : calls.resolve callId = some call) : calls.find call.callId = some call ∧ call.isOpen := by
  rw [resolve, Option.filter_eq_some_iff] at h
  refine ⟨?_, h.2⟩
  by_cases hid : callId = ""
  · rw [if_pos hid] at h
    exact RowMap.find_of_mem (List.mem_of_find?_eq_some h.1)
  · rw [if_neg hid] at h
    exact find_self h.1

theorem absurd_of_open {p : Prop} (hopen : call.isOpen) (hclosed : call.isOpen = false) : p := by
  simp [hopen] at hclosed

theorem enter_path_hop {progress : LiveCallMediaProgress} {next : CallMediaStatus}
    (h : progress.path = .hop) : (progress.enter nowMs next).path = .hop := by
  simp [LiveCallMediaProgress.enter, h]

theorem moves_setStatus {next : CallMediaStatus} (h : calls.resolve op.callId = some call)
    (hdirect : allowsDirect next → setsDirect call op.kind) : Moves calls op (calls.setStatus nowMs call next) := by
  obtain ⟨found, hopen⟩ := resolve_some h
  refine .edits _ found ⟨rfl, rfl, rfl, rfl, rfl, absurd_of_open hopen, ?_, ?_⟩
  · intro hhop
    exact .inl (enter_path_hop hhop)
  · intro hnext
    exact .inr ⟨h, hdirect hnext⟩

theorem moves_setMediaStatus {next : CallMediaStatus}
    (hdirect : ∀ call, allowsDirect next → setsDirect call op.kind) :
    Moves calls op (calls.setMediaStatus nowMs op.callId next) := by
  rw [setMediaStatus]
  cases h : calls.resolve op.callId with
  | none => exact .stays
  | some call => exact moves_setStatus h (hdirect call)

theorem moves_edited (found : calls.find callId = some call) (h : Edited calls op call call') :
    Moves calls op (calls.write call') :=
  .edits calls.mediaCancelGen (find_self found) h

theorem moves_notePath {path : CallMediaPath} : Moves calls op (calls.notePath callId path) := by
  rw [notePath]
  cases h : calls.resolve callId with
  | none => exact .stays
  | some call =>
    dsimp only
    split
    · exact .stays
    next hpath =>
      refine moves_edited (resolve_some h).1 ⟨rfl, rfl, rfl, rfl, rfl, absurd_of_open (resolve_some h).2, ?_, .inl⟩
      intro hhop
      exact absurd (.inr (.inr hhop)) hpath

theorem moves_noteMediaAttempted : Moves calls op (calls.noteMediaAttempted callId) := by
  rw [noteMediaAttempted]
  cases h : calls.find callId with
  | none => exact .stays
  | some call =>
    dsimp only
    split
    · exact .stays
    · exact moves_edited h ⟨rfl, rfl, rfl, rfl, rfl, fun _ => .inr rfl, .inl, .inl⟩

theorem moves_noteActivity {text : String} : Moves calls op (calls.noteActivity callId text) := by
  rw [noteActivity]
  cases h : calls.find callId with
  | none => exact .stays
  | some call =>
    dsimp only
    split
    · exact .stays
    · exact moves_edited h ⟨rfl, rfl, rfl, rfl, rfl, fun _ => .inl rfl, .inl, .inl⟩

theorem moves_reportDirectProgress {phase : CallDirectPlannerPhase} (hkind : op.kind = .reportDirectProgress phase) :
    Moves calls op (calls.reportDirectProgress op.nowMs op.callId phase) := by
  rw [reportDirectProgress]
  cases hstatus : mediaStatusForDirectProgress phase with
  | none => exact .stays
  | some status =>
    apply moves_setMediaStatus
    intro call _
    simp [hkind, setsDirect, hstatus]

theorem moves_reportHopProgress {phase : CallHopPlannerPhase} :
    Moves calls op (calls.reportHopProgress op.nowMs op.callId phase) := by
  rw [reportHopProgress]
  cases hstatus : mediaStatusForHopProgress phase with
  | none => exact .stays
  | some status =>
    apply moves_setMediaStatus
    intro call hdirect
    exact absurd hdirect (not_allowsDirect_of_allowsHop (allowsHop_of_hopProgress hstatus))

theorem moves_requestDirectArming (hkind : op.kind = .requestDirectArming) :
    Moves calls op (calls.requestDirectArming op.nowMs op.callId) := by
  rw [requestDirectArming]
  cases h : calls.resolve op.callId with
  | none => exact .stays
  | some call =>
    dsimp only
    split
    next harms =>
      apply moves_setStatus h
      intro _
      simpa [hkind, setsDirect] using harms
    · exact .stays

theorem moves_noteOutboundStarted : Moves calls op (calls.noteOutboundStarted op.nowMs op.callId) := by
  rw [noteOutboundStarted]
  cases h : calls.resolve op.callId with
  | none => exact .stays
  | some call =>
    dsimp only
    split
    · exact moves_setStatus h (fun hdirect => absurd hdirect (by decide))
    · exact .stays

theorem moves_noteMediaDeferred : Moves calls op (calls.noteMediaDeferred callId) := by
  rw [noteMediaDeferred]
  cases h : calls.resolve callId with
  | none => exact .stays
  | some call =>
    dsimp only
    split
    · exact moves_edited (resolve_some h).1 ⟨rfl, rfl, rfl, rfl, rfl, absurd_of_open (resolve_some h).2, .inl, .inl⟩
    · exact .stays

theorem moves_noteMediaKeyReady (hkind : op.kind = .noteMediaKeyReady) :
    Moves calls op (calls.noteMediaKeyReady op.nowMs op.callId) := by
  rw [noteMediaKeyReady]
  cases h : calls.resolve op.callId with
  | none => exact .stays
  | some call =>
    obtain ⟨found, hopen⟩ := resolve_some h
    dsimp only
    split
    · exact .stays
    next hphase =>
      split
      next hstatus =>
        refine .edits _ found ⟨rfl, rfl, rfl, rfl, rfl, absurd_of_open hopen, ?_, ?_⟩
        · intro hhop
          exact .inl (enter_path_hop hhop)
        · intro _
          refine .inr ⟨h, ?_⟩
          have hnamed : call.phase = .mediaPending ∨ call.phase = .joinedLocal ∨ call.phase = .accepting := by
            by_contra hnone
            simp only [not_or] at hnone
            exact hphase ⟨hnone.1, hnone.2.1, hnone.2.2⟩
          simp only [hkind, setsDirect, Bool.and_eq_true, Bool.or_eq_true, decide_eq_true_eq]
          exact ⟨or_assoc.mpr hnamed, hstatus⟩
      · exact moves_edited (resolve_some h).1 ⟨rfl, rfl, rfl, rfl, rfl, absurd_of_open (resolve_some h).2, .inl, .inl⟩

theorem moves_noteMediaConnected (hkind : op.kind = .noteMediaConnected) :
    Moves calls op (calls.noteMediaConnected op.nowMs op.callId) := by
  rw [noteMediaConnected]
  cases h : calls.resolve op.callId with
  | none => exact .stays
  | some call =>
    dsimp only
    split
    · exact moves_setStatus h (fun hdirect => absurd hdirect (by decide))
    next hhop =>
      split
      next hlive =>
        apply moves_setStatus h
        intro _
        have hnot : allowsHop call.progress.status = false := by
          simp only [not_or] at hhop
          simp [allowsHop, hhop]
        simp [hkind, setsDirect, hnot, hlive]
      · exact moves_edited (resolve_some h).1 ⟨rfl, rfl, rfl, rfl, rfl, absurd_of_open (resolve_some h).2, .inl, .inl⟩

theorem moves_noteDirectHandedToHop : Moves calls op (calls.noteDirectHandedToHop op.nowMs op.callId) := by
  rw [noteDirectHandedToHop]
  cases h : calls.resolve op.callId with
  | none => exact .stays
  | some call =>
    dsimp only
    split
    all_goals first
      | exact .stays
      | exact moves_setStatus h (fun hdirect => absurd hdirect (by decide))

theorem moves_noteMediaFailed : Moves calls op (calls.noteMediaFailed op.nowMs op.callId) := by
  rw [noteMediaFailed]
  cases h : calls.resolve op.callId with
  | none => exact .stays
  | some call => exact moves_setStatus h (fun hdirect => absurd hdirect (by decide))

theorem moves_admitInvited {peers : List String} (hkind : op.kind = .admitInvited peers) :
    Moves calls op (calls.admitInvited op.nowMs op.callId peers) := by
  have hadmits : Moves calls op (calls.admitCall op.nowMs op.callId .invited .ringing peers) :=
    .admits _ _ _ (by decide) (by simp [LiveCallsOp.isAdmission, hkind])
  rw [admitInvited]
  split
  · split
    · exact .stays
    · exact hadmits
  · exact hadmits

theorem moves_markAccepting (hkind : op.kind = .markAccepting) : Moves calls op (calls.markAccepting op.callId) := by
  rw [markAccepting]
  cases h : calls.find op.callId with
  | none => exact .stays
  | some call =>
    dsimp only
    split
    · exact .stays
    next hringing =>
      have hstate : call.state = .ringing := not_not.mp hringing
      have hopen : call.isOpen = true := by simp [LiveCall.isOpen, hstate]
      refine .edits calls.mediaCancelGen (find_self h)
        ⟨rfl, rfl, rfl, rfl, ?_, absurd_of_open hopen, ?_, ?_⟩
      · rw [hopen]
        rfl
      · intro _
        exact .inr ⟨hkind, (callId_of_find h).symm, hstate⟩
      · intro hdirect
        exact absurd hdirect (by simp [allowsDirect])

theorem moves_markAcceptFailed : Moves calls op (calls.markAcceptFailed callId) := by
  rw [markAcceptFailed]
  cases h : calls.find callId with
  | none => exact .stays
  | some call =>
    dsimp only
    split
    · exact .stays
    next haccepting =>
      have hstate : call.state = .accepting := not_not.mp haccepting
      refine moves_edited h ⟨rfl, rfl, rfl, rfl, ?_, fun _ => .inl rfl, .inl, .inl⟩
      simp [LiveCall.isOpen, hstate]

theorem moves_markJoined : Moves calls op (calls.markJoined op.nowMs op.callId) := by
  rw [markJoined]
  cases h : calls.find op.callId with
  | none => exact .stays
  | some call =>
    dsimp only
    split
    · exact .stays
    next hnot =>
      have hopen : call.isOpen = true := by
        simp only [not_or, not_not] at hnot
        exact hnot.1
      split
      · refine .edits _ (find_self h)
          ⟨rfl, rfl, rfl, rfl, ?_, absurd_of_open hopen, ?_, ?_⟩
        · rw [hopen]
          rfl
        · intro hhop
          exact .inl (enter_path_hop hhop)
        · intro hdirect
          exact absurd hdirect (by simp [LiveCallMediaProgress.enter, allowsDirect])
      · refine moves_edited h ⟨rfl, rfl, rfl, rfl, ?_, fun _ => .inl rfl, .inl, .inl⟩
        rw [hopen]
        rfl

theorem moves_addPeer : Moves calls op (calls.addPeer callId identity) := by
  rw [addPeer]
  cases h : calls.find callId with
  | none => exact .stays
  | some call =>
    dsimp only
    split
    · exact .stays
    · exact moves_edited h ⟨rfl, rfl, rfl, rfl, rfl, fun _ => .inl rfl, .inl, .inl⟩

theorem moves_removePeer : Moves calls op (calls.removePeer callId identity) := by
  rw [removePeer]
  cases h : calls.find callId with
  | none => exact .stays
  | some call =>
    dsimp only
    split
    · exact .stays
    · exact moves_edited h ⟨rfl, rfl, rfl, rfl, rfl, fun _ => .inl rfl, .inl, .inl⟩

theorem moves_close {reason : LiveCallEndReason} : Moves calls op (calls.close op.callId reason) := by
  rw [close]
  cases h : calls.find op.callId with
  | none => exact .stays
  | some call =>
    dsimp only
    split
    · exact .stays
    next hopen => exact .closes reason _ _ h (not_not.mp hopen)

/-- What an operation does to the table is one of four things. -/
theorem moves : Moves calls op (calls.step op) := by
  rw [step]
  cases hkind : op.kind with
  | setMediaStatus status =>
    apply moves_setMediaStatus
    intro call hdirect
    simpa [hkind, setsDirect] using hdirect
  | notePath path => exact moves_notePath
  | noteMediaAttempted => exact moves_noteMediaAttempted
  | noteActivity text => exact moves_noteActivity
  | reportDirectProgress phase => exact moves_reportDirectProgress hkind
  | reportHopProgress phase => exact moves_reportHopProgress
  | requestDirectArming => exact moves_requestDirectArming hkind
  | noteOutboundStarted => exact moves_noteOutboundStarted
  | noteMediaDeferred => exact moves_noteMediaDeferred
  | noteMediaKeyReady => exact moves_noteMediaKeyReady hkind
  | noteMediaConnected => exact moves_noteMediaConnected hkind
  | noteDirectHandedToHop => exact moves_noteDirectHandedToHop
  | noteMediaFailed => exact moves_noteMediaFailed
  | admitPlaced peers => exact .admits _ _ _ (by decide) (by simp [LiveCallsOp.isAdmission, hkind])
  | admitInvited peers => exact moves_admitInvited hkind
  | markAccepting => exact moves_markAccepting hkind
  | markAcceptFailed => exact moves_markAcceptFailed
  | markJoined => exact moves_markJoined
  | addPeer identity => exact moves_addPeer
  | removePeer identity => exact moves_removePeer
  | close reason => exact moves_close

/-! ## The list of ended calls -/

/-- `endedOrder` lists the ended calls that are kept, each once. -/
structure Lists (endedOrder : List String) (kept : RowMap LiveCall.callId) : Prop where
  nodup : endedOrder.Nodup
  mem_iff : ∀ {callId}, callId ∈ endedOrder ↔ ∃ call, kept.find callId = some call ∧ call.isOpen = false

structure EndedOrderKept (calls : LiveCalls) : Prop where
  lists : Lists calls.endedOrder calls.calls
  length_le : calls.endedOrder.length ≤ kEndedKept

variable {endedOrder : List String} {kept : RowMap LiveCall.callId} {callInstance : Nat}

theorem Lists.insert_edited (h : Lists endedOrder kept) (hid : call'.callId = call.callId)
    (found : kept.find call.callId = some call) (hopen : call'.isOpen = call.isOpen) :
    Lists endedOrder (kept.insert call') := by
  refine ⟨h.nodup, ?_⟩
  intro callId
  rw [h.mem_iff, RowMap.find_insert, hid]
  by_cases hcall : call.callId = callId
  · subst hcall
    simp [found, hopen]
  · rw [if_neg hcall]

theorem Lists.insert_admitted (h : Lists endedOrder kept) (hopen : call.isOpen) :
    Lists (endedOrder.filter (· ≠ call.callId)) (kept.insert call) := by
  refine ⟨h.nodup.filter _, ?_⟩
  intro callId
  rw [List.mem_filter, h.mem_iff, RowMap.find_insert]
  by_cases hcall : call.callId = callId
  · subst hcall
    simp [hopen]
  · rw [if_neg hcall]
    simp [Ne.symm hcall]

theorem Lists.insert_closed (h : Lists endedOrder kept) (hid : call'.callId = call.callId)
    (found : kept.find call.callId = some call) (hopen : call.isOpen) (hclosed : call'.isOpen = false) :
    Lists (endedOrder ++ [call.callId]) (kept.insert call') := by
  have hnew : call.callId ∉ endedOrder := by
    intro hmem
    obtain ⟨call₀, hfound, hended⟩ := h.mem_iff.mp hmem
    obtain rfl : call = call₀ := Option.mem_unique found hfound
    exact absurd_of_open hopen hended
  refine ⟨?_, ?_⟩
  · rw [List.nodup_append]
    refine ⟨h.nodup, by simp, ?_⟩
    intro id hid other hother
    rw [List.mem_singleton.mp hother]
    intro hsame
    exact hnew (hsame ▸ hid)
  · intro callId
    rw [List.mem_append, List.mem_singleton, h.mem_iff, RowMap.find_insert, hid]
    by_cases hcall : call.callId = callId
    · subst hcall
      simp [hclosed]
    · rw [if_neg hcall]
      simp [Ne.symm hcall]

theorem Lists.erase_head (h : Lists (callId :: endedOrder) kept) : Lists endedOrder (kept.erase callId) := by
  obtain ⟨hfresh, hnodup⟩ := List.nodup_cons.mp h.nodup
  refine ⟨hnodup, ?_⟩
  intro other
  rw [RowMap.find_erase]
  by_cases hother : other = callId
  · subst hother
    simp [hfresh]
  · rw [if_neg hother, ← h.mem_iff]
    simp [hother]

theorem Lists.dropOldest (h : Lists endedOrder kept) :
    Lists (dropOldest endedOrder kept).1 (dropOldest endedOrder kept).2 ∧
      (LiveCalls.dropOldest endedOrder kept).1.length ≤ kEndedKept := by
  induction endedOrder generalizing kept with
  | nil => exact ⟨h, Nat.zero_le _⟩
  | cons callId endedOrder ih =>
    rw [LiveCalls.dropOldest]
    by_cases hmany : kEndedKept < (callId :: endedOrder).length
    · rw [if_pos hmany]
      exact ih h.erase_head
    · rw [if_neg hmany]
      exact ⟨h, Nat.not_lt.mp hmany⟩

theorem find_dropOldest (h : (dropOldest endedOrder kept).2.find callId = some call) :
    kept.find callId = some call := by
  induction endedOrder generalizing kept with
  | nil => exact h
  | cons first endedOrder ih =>
    rw [dropOldest] at h
    split at h
    · have hfound := ih h
      rw [RowMap.find_erase] at hfound
      split at hfound
      · cases hfound
      · exact hfound
    · exact h

theorem EndedOrderKept.moves (h : calls.EndedOrderKept) (hmoves : Moves calls op calls') :
    calls'.EndedOrderKept := by
  cases hmoves with
  | stays => exact h
  | edits gen found edited =>
    exact ⟨h.lists.insert_edited edited.callId found edited.isOpen, h.length_le⟩
  | admits origin state peers opens counted =>
    refine ⟨?_, ?_⟩
    · let admitted : LiveCall :=
        { callId := op.callId, callInstance := calls.nextInstance, origin, state
          admittedAtMs := op.nowMs, peers := admittedPeers peers }
      have hopen : admitted.isOpen := by simpa [LiveCall.isOpen, admitted] using opens
      exact (h.lists.insert_admitted hopen : Lists _ (calls.calls.insert admitted))
    · exact (List.length_filter_le _ _).trans h.length_le
  | @closes call reason gen last found opened =>
    have hself : calls.calls.find call.callId = some call := find_self found
    have hlists : Lists (calls.endedOrder ++ [call.callId]) (calls.calls.insert (LiveCalls.closed call reason)) :=
      h.lists.insert_closed rfl hself opened rfl
    rw [callId_of_find found] at hlists
    exact ⟨hlists.dropOldest.1, hlists.dropOldest.2⟩

/-! ## A call over time -/

/-- What an instance found after an operation was before it. -/
structure Traced (calls : LiveCalls) (op : LiveCallsOp) (call call' : LiveCall) : Prop where
  callInstance : call'.callInstance = call.callInstance
  closed : call.isOpen = false → call'.isOpen = false ∧ call'.endReason = call.endReason ∧
    call'.stateAtClose = call.stateAtClose ∧ (call'.progress = call.progress ∨
      call'.progress = { call.progress with mediaAttempted := true })
  hop : call.progress.path = .hop → call'.progress.path = .hop ∨
    op.kind = .markAccepting ∧ op.callId = call.callId ∧ call.state = .ringing
  direct : allowsDirect call'.progress.status → allowsDirect call.progress.status ∨
    calls.resolve op.callId = some call ∧ setsDirect call op.kind

theorem Traced.rfl : Traced calls op call call where
  callInstance := Eq.refl _
  closed h := ⟨h, Eq.refl _, Eq.refl _, .inl (Eq.refl _)⟩
  hop := .inl
  direct := .inl

theorem Edited.traced (h : Edited calls op call call') : Traced calls op call call' where
  callInstance := h.callInstance
  closed hclosed := ⟨h.isOpen.trans hclosed, h.endReason, h.stateAtClose, h.closed hclosed⟩
  hop := h.hop
  direct := h.direct

/-- A call found after an operation was there before it, or is the one
admitted and has the next instance. -/
theorem Moves.traced (h : Moves calls op calls') (found' : calls'.find callId = some call') :
    (∃ call, calls.find callId = some call ∧ Traced calls op call call') ∨
      op.callId = callId ∧ call'.callInstance = calls.nextInstance ∧ op.isAdmission ∧
        calls'.nextInstance = countUp calls.nextInstance := by
  cases h with
  | stays => exact .inl ⟨call', found', .rfl⟩
  | @edits call edit gen found edited =>
    have hfind : (calls.calls.insert edit).find callId = some call' := found'
    rw [RowMap.find_insert, edited.callId] at hfind
    by_cases hcall : call.callId = callId
    · rw [if_pos hcall] at hfind
      obtain rfl := Option.some.inj hfind
      exact .inl ⟨call, hcall ▸ found, edited.traced⟩
    · rw [if_neg hcall] at hfind
      exact .inl ⟨call', hfind, .rfl⟩
  | admits origin state peers opens counted =>
    have hfind : (calls.calls.insert _).find callId = some call' := found'
    rw [RowMap.find_insert] at hfind
    by_cases hcall : op.callId = callId
    · rw [if_pos hcall] at hfind
      obtain rfl := Option.some.inj hfind
      exact .inr ⟨hcall, Eq.refl _, counted, Eq.refl _⟩
    · rw [if_neg hcall] at hfind
      exact .inl ⟨call', hfind, .rfl⟩
  | @closes call reason gen last found opened =>
    have hid := callId_of_find found
    have hfind : (calls.calls.insert (LiveCalls.closed call reason)).find callId = some call' :=
      find_dropOldest found'
    rw [RowMap.find_insert] at hfind
    by_cases hcall : call.callId = callId
    · have hmatch : (LiveCalls.closed call reason).callId = callId := hcall
      rw [if_pos hmatch] at hfind
      obtain rfl := Option.some.inj hfind
      refine .inl ⟨call, ?_, ⟨Eq.refl _, absurd_of_open opened, .inl, .inl⟩⟩
      rw [← hcall]
      exact find_self found
    · have hmatch : (LiveCalls.closed call reason).callId ≠ callId := hcall
      rw [if_neg hmatch] at hfind
      exact .inl ⟨call', hfind, .rfl⟩

theorem Moves.nextInstance (h : Moves calls op calls') : calls'.nextInstance = calls.nextInstance ∨
    op.isAdmission ∧ calls'.nextInstance = countUp calls.nextInstance := by
  cases h with
  | stays | edits gen found edited | closes reason gen last found opened => exact .inl rfl
  | admits origin state peers opens counted => exact .inr ⟨counted, rfl⟩

/-! ## Runs -/

/-- No two calls have one instance, and the next is new. -/
structure InstancesUnique (calls : LiveCalls) : Prop where
  lt_next : ∀ {callId call}, calls.find callId = some call → call.callInstance < calls.nextInstance
  unique : ∀ {callId callId' call call'}, calls.find callId = some call → calls.find callId' = some call' →
    call.callInstance = call'.callInstance → callId = callId'

/-- What a closed call keeps. A media path may still be noted as attempted. -/
structure KeepsClosed (call call' : LiveCall) : Prop where
  callInstance : call'.callInstance = call.callInstance
  closed : call.isOpen = false → call'.isOpen = false ∧ call'.endReason = call.endReason ∧
    call'.stateAtClose = call.stateAtClose ∧ (call'.progress = call.progress ∨
      call'.progress = { call.progress with mediaAttempted := true })

/-- From a state to a later one: an instance is newer than all there were, or
is the one its id had, and then it keeps what it was closed with. -/
structure Later (calls calls' : LiveCalls) : Prop where
  next_le : calls.nextInstance ≤ calls'.nextInstance
  kept : ∀ {callId call'}, calls'.find callId = some call' → calls.nextInstance ≤ call'.callInstance ∨
    ∃ call, calls.find callId = some call ∧ KeepsClosed call call'

/-- The instance counter does not turn over. -/
def Counts (calls : LiveCalls) (op : LiveCallsOp) : Prop := op.isAdmission → calls.nextInstance + 1 < 2 ^ 64

theorem KeepsClosed.trans {call'' : LiveCall} (h : KeepsClosed call call') (h' : KeepsClosed call' call'') :
    KeepsClosed call call'' := by
  refine ⟨h'.callInstance.trans h.callInstance, ?_⟩
  intro hclosed
  obtain ⟨hclosed', hreason, hstate, hprogress⟩ := h.closed hclosed
  obtain ⟨hclosed'', hreason', hstate', hprogress'⟩ := h'.closed hclosed'
  refine ⟨hclosed'', hreason'.trans hreason, hstate'.trans hstate, ?_⟩
  rcases hprogress with hprogress | hprogress
  · rw [hprogress] at hprogress'
    exact hprogress'
  · right
    rcases hprogress' with hprogress' | hprogress'
    · exact hprogress'.trans hprogress
    · rw [hprogress', hprogress]

theorem Later.trans {a b c : LiveCalls} (hab : Later a b) (hbc : Later b c) : Later a c := by
  refine ⟨hab.next_le.trans hbc.next_le, ?_⟩
  intro callId call'' hfind
  rcases hbc.kept hfind with hnew | ⟨call', hfind', hkeeps'⟩
  · exact .inl (hab.next_le.trans hnew)
  rcases hab.kept hfind' with hnew | ⟨call, hfound, hkeeps⟩
  · exact .inl (hkeeps'.callInstance ▸ hnew)
  · exact .inr ⟨call, hfound, hkeeps.trans hkeeps'⟩

theorem countUp_of_lt {n : Nat} (h : n + 1 < 2 ^ 64) : countUp n = n + 1 := Nat.mod_eq_of_lt h

theorem Counts.next_le (h : Counts calls op) : calls.nextInstance ≤ (calls.step op).nextInstance := by
  rcases (moves : Moves calls op (calls.step op)).nextInstance with heq | ⟨hcounted, heq⟩
  · exact heq.ge
  · rw [heq, countUp_of_lt (h hcounted)]
    exact Nat.le_succ _

theorem Counts.later (h : Counts calls op) : Later calls (calls.step op) := by
  refine ⟨h.next_le, ?_⟩
  intro callId call' hfind
  rcases moves.traced hfind with ⟨call, hfound, htraced⟩ | ⟨-, hinstance, -, -⟩
  · exact .inr ⟨call, hfound, htraced.callInstance, htraced.closed⟩
  · exact .inl hinstance.ge

theorem InstancesUnique.step (h : calls.InstancesUnique) (hcounts : Counts calls op) :
    (calls.step op).InstancesUnique := by
  -- an old call is below the old counter, a new one has it
  have hlt : ∀ {callId call'}, (calls.step op).find callId = some call' →
      call'.callInstance < (calls.step op).nextInstance := by
    intro callId call' hfind
    rcases moves.traced hfind with ⟨call, hfound, htraced⟩ | ⟨-, hinstance, hcounted, hnext⟩
    · rw [htraced.callInstance]
      exact (h.lt_next hfound).trans_le hcounts.next_le
    · rw [hinstance, hnext, countUp_of_lt (hcounts hcounted)]
      exact Nat.lt_succ_self _
  refine ⟨hlt, ?_⟩
  intro callId callId' call call' hfind hfind' hsame
  rcases moves.traced hfind with ⟨old, hfound, htraced⟩ | ⟨hid, hinstance, -, -⟩
  · have hold := htraced.callInstance
    rcases moves.traced hfind' with ⟨old', hfound', htraced'⟩ | ⟨-, hinstance', -, -⟩
    · exact h.unique hfound hfound' (hold.symm.trans (hsame.trans htraced'.callInstance))
    · have hbelow := h.lt_next hfound
      omega
  · rcases moves.traced hfind' with ⟨old', hfound', htraced'⟩ | ⟨hid', -, -, -⟩
    · have hold' := htraced'.callInstance
      have hbelow := h.lt_next hfound'
      omega
    · exact hid.symm.trans hid'

/-- A run of fewer admissions than the counter has numbers left. -/
theorem admits_counts {run : List LiveCallsOp}
    (h : calls.nextInstance + run.countP LiveCallsOp.isAdmission < 2 ^ 64) : Admits step Counts calls run := by
  induction run generalizing calls with
  | nil => trivial
  | cons op run ih =>
    rw [List.countP_cons] at h
    have hcounts : Counts calls op := by
      intro hadmission
      rw [if_pos hadmission] at h
      omega
    refine ⟨hcounts, ih ?_⟩
    rcases (moves : Moves calls op (calls.step op)).nextInstance with heq | ⟨hcounted, heq⟩
    · rw [heq]
      omega
    · rw [heq, countUp_of_lt (hcounts hcounted)]
      rw [if_pos hcounted] at h
      omega

/-- The instance `callInstance` was handed out, and where it stands under
`callId` its call meets `p`. -/
def Holds (p : LiveCall → Prop) (callId : String) (callInstance : Nat) (calls : LiveCalls) : Prop :=
  callInstance < calls.nextInstance ∧
    ∀ call, calls.find callId = some call → call.callInstance = callInstance → p call

theorem Holds.step {p : LiveCall → Prop} (h : Holds p callId callInstance calls)
    (hcounts : Counts calls op) (hkeeps : ∀ call call', calls.find callId = some call →
      call.callInstance = callInstance → Traced calls op call call' → p call → p call') :
    Holds p callId callInstance (calls.step op) := by
  refine ⟨h.1.trans_le hcounts.next_le, ?_⟩
  intro call' hfind hinstance
  rcases moves.traced hfind with ⟨call, hfound, htraced⟩ | ⟨-, hnew, -, -⟩
  · have hsame : call.callInstance = callInstance := htraced.callInstance.symm.trans hinstance
    exact hkeeps call call' hfound hsame htraced (h.2 call hfound hsame)
  · have hbelow := h.1
    omega

/-- On the hop an instance stays there until its call is accepted anew. -/
theorem hop_step (h : Holds (·.progress.path = .hop) callId callInstance calls)
    (hcounts : Counts calls op) (hnot : ¬ calls.AcceptsAnew op callId callInstance) :
    Holds (·.progress.path = .hop) callId callInstance (calls.step op) := by
  apply h.step hcounts
  intro call call' hfound hinstance htraced hhop
  rcases htraced.hop hhop with hhop | ⟨hkind, hid, hringing⟩
  · exact hhop
  · rw [callId_of_find hfound] at hid
    exact absurd ⟨hkind, hid, call, hfound, hinstance, hringing⟩ hnot

/-- A status arms the Direct planner only where an operation sets it. -/
theorem direct_step (h : Holds (¬ allowsDirect ·.progress.status) callId callInstance calls)
    (hcounts : Counts calls op) (hnot : ¬ calls.SetsDirect op callId callInstance) :
    Holds (¬ allowsDirect ·.progress.status) callId callInstance (calls.step op) := by
  apply h.step hcounts
  intro call call' hfound hinstance htraced hnone hdirect
  rcases htraced.direct hdirect with hdirect | ⟨hresolve, hsets⟩
  · exact hnone hdirect
  · exact hnot ⟨call, hresolve, callId_of_find hfound, hinstance, hsets⟩

theorem endedOrderKept_empty : EndedOrderKept {} where
  lists := ⟨List.nodup_nil, by simp⟩
  length_le := Nat.zero_le _

theorem instancesUnique_empty : InstancesUnique {} where
  lt_next h := by cases h
  unique h := by cases h

theorem not_direct {status : CallMediaStatus} (h : ¬ allowsDirect status) :
    plannerFor status ≠ .bridge ∧ status ≠ .directLive := by
  refine ⟨fun hbridge => h (allowsDirect_iff.mpr hbridge), ?_⟩
  intro hlive
  exact h (hlive ▸ rfl)

/-- The ended calls that are kept are listed, each once and at most
`kEndedKept`. While the instance counter lasts, instances are unique and
increasing, a closed call keeps why and how it closed and its media progress
but for the mark of an attempt, a call on the hop stays there until it is
accepted anew, and its status turns Direct only where a Direct status is set
on it. -/
theorem live_calls_keep (run : List LiveCallsOp) :
    (∀ calls ∈ states step {} run, calls.EndedOrderKept) ∧
    (run.countP LiveCallsOp.isAdmission < 2 ^ 64 - 1 →
      (∀ calls ∈ states step {} run, calls.InstancesUnique) ∧
      (states step {} run).Pairwise Later ∧
      ∀ before after, before ++ after = run → ∀ callId call,
        (before.foldl step {}).find callId = some call → call.progress.path = .hop →
          (Admits step (fun calls op => ¬ calls.AcceptsAnew op callId call.callInstance)
              (before.foldl step {}) after →
            ∀ calls ∈ states step (before.foldl step {}) after, ∀ call',
              calls.find callId = some call' → call'.callInstance = call.callInstance →
                call'.progress.path = .hop) ∧
          (plannerFor call.progress.status ≠ .bridge →
            Admits step (fun calls op => ¬ calls.SetsDirect op callId call.callInstance)
              (before.foldl step {}) after →
            ∀ calls ∈ states step (before.foldl step {}) after, ∀ call',
              calls.find callId = some call' → call'.callInstance = call.callInstance →
                plannerFor call'.progress.status ≠ .bridge ∧ call'.progress.status ≠ .directLive)) := by
  refine ⟨?_, ?_⟩
  · exact admits_true.invariant (fun _ _ h _ => h.moves moves) endedOrderKept_empty
  intro hfew
  have hcounts : Admits step Counts {} run := by
    apply admits_counts
    show 1 + _ < 2 ^ 64
    omega
  refine ⟨?_, ?_, ?_⟩
  · exact hcounts.invariant (fun _ _ h hc => h.step hc) instancesUnique_empty
  · apply (pairwise_states_iff (R := Later) Later.trans).mpr
    exact hcounts.mono fun _ _ hc => hc.later
  intro before after hrun callId call hfound hhop
  rw [← hrun, admits_append] at hcounts
  have hunique : (before.foldl step {}).InstancesUnique :=
    hcounts.1.invariant (fun _ _ h hc => h.step hc) instancesUnique_empty _ foldl_mem_states
  have hstart : ∀ {p : LiveCall → Prop}, p call →
      Holds p callId call.callInstance (before.foldl step {}) := by
    intro p hp
    refine ⟨hunique.lt_next hfound, ?_⟩
    intro other hother _
    rw [hfound] at hother
    exact Option.some.inj hother ▸ hp
  refine ⟨?_, ?_⟩
  · intro hnever calls hcalls call' hfind hinstance
    have hholds := (hcounts.2.and hnever).invariant (fun _ _ h hc => hop_step h hc.1 hc.2)
      (hstart hhop) calls hcalls
    exact hholds.2 call' hfind hinstance
  · intro hnone hnever calls hcalls call' hfind hinstance
    have hstarts : ¬ allowsDirect call.progress.status := fun h => hnone (allowsDirect_iff.mp h)
    have hholds := (hcounts.2.and hnever).invariant (fun _ _ h hc => direct_step h hc.1 hc.2)
      (hstart (p := (¬ allowsDirect ·.progress.status)) hstarts) calls hcalls
    exact not_direct (hholds.2 call' hfind hinstance)

/-- A 1:1 call handed to the hop, whose media failed. -/
def handedToHop : List LiveCallsOp :=
  [{ callId := "call:1", kind := .admitPlaced ["account:bob"] }, { callId := "call:1", kind := .markJoined },
   { callId := "call:1", kind := .noteDirectHandedToHop }, { callId := "call:1", kind := .noteMediaFailed }]

/-- The hop attaches again and the call is closed. -/
theorem live_calls_keep_sample :
    (∀ calls ∈ states step {} (handedToHop ++
      [{ callId := "call:1", kind := .reportHopProgress .live }, { callId := "call:1", kind := .close .localLeave }]),
        calls.EndedOrderKept) ∧
      ∃ call, (handedToHop.foldl step {}).find "call:1" = some call ∧ call.progress.path = .hop := by
  refine ⟨(live_calls_keep _).1, ?_⟩
  exact ⟨((handedToHop.foldl step {}).find "call:1").get (by decide +kernel), by decide +kernel, by decide +kernel⟩

/-- The progress kept under an id after a run. -/
def progressAfter (run : List LiveCallsOp) (callId : String) : Option (Nat × LiveCallState × LiveCallMediaProgress) :=
  ((run.foldl step {}).find callId).map fun call => (call.callInstance, call.state, call.progress)

/-- A path started late marks a closed call; an accept tried again takes a
call off the hop; a late report of the direct attempt makes a call on the hop
live on the direct path. All three leave the instance. -/
theorem late_reports :
    (progressAfter [{ callId := "call:1", kind := .admitPlaced [] }, { callId := "call:1", kind := .close .localLeave }]
        "call:1" = some (1, .ended, {}) ∧
      progressAfter [{ callId := "call:1", kind := .admitPlaced [] }, { callId := "call:1", kind := .close .localLeave },
        { callId := "call:1", kind := .noteMediaAttempted }] "call:1" =
          some (1, .ended, { mediaAttempted := true })) ∧
    (progressAfter [{ callId := "call:1", kind := .admitInvited [] }, { callId := "call:1", kind := .markAccepting },
        { callId := "call:1", kind := .reportHopProgress .attaching },
        { callId := "call:1", kind := .markAcceptFailed }] "call:1" =
          some (1, .ringing, { status := .hopAttaching, path := .hop }) ∧
      progressAfter [{ callId := "call:1", kind := .admitInvited [] }, { callId := "call:1", kind := .markAccepting },
        { callId := "call:1", kind := .reportHopProgress .attaching },
        { callId := "call:1", kind := .markAcceptFailed }, { callId := "call:1", kind := .markAccepting }] "call:1" =
          some (1, .accepting, {})) ∧
    (progressAfter handedToHop "call:1" = some (1, .joined, { status := .failed, path := .hop }) ∧
      progressAfter (handedToHop ++ [{ callId := "call:1", kind := .noteMediaConnected }]) "call:1" =
        some (1, .joined, { status := .directLive, path := .hop, reachedLive := true, liveSinceMs := 1 })) := by
  decide +kernel

end LiveCalls

end Pbr
