import PpBrowser.Delivery.E2ePublicSessionRun
import PpBrowser.Delivery.SenderNumbers
import PpBrowser.Messaging.InboundRetract

/-!
# OutboundMessage — a message's number

`OutboundMessage.cpp`: a message to a thread takes its thread's next number
and is then checked and stored; a copy for a device of the peer takes the
pair's next number and is then sealed. A store answers or gives up; where it
gives up is part of a call.
-/

namespace Pbr

open Lib

/-- A thread, by the row that numbers it. -/
inductive ThreadTarget where
  | direct (target : DirectChatTarget)
  | group (groupId : String)
  deriving DecidableEq, Repr

/-- What a message is handed to delivery with. -/
structure Numbered (α : Type) where
  message : α
  senderSeq : Nat
  sessionEpoch : Nat

/-- Where the thread store gives up: before it bumps the number, reading the
epoch, counting the reactions, before the row is written, after it. -/
structure AppendFaults where
  allocate : Option String := none
  epoch : Option String := none
  count : Option String := none
  append : Option String := none
  outbox : Option String := none

/-- A call of `SealPairCopy`: what it is given, what it draws, and where the
session store gives up. `plaintext` is the payload's encoding. -/
structure PairSend where
  message : ThreadMessage
  senderAccountId : String
  pair : PeerSessionKey
  peerDeviceKem : ByteVector
  plaintext : Roe ByteVector
  encapsulateForRecipient : ByteVector → Roe AutoKeyEncapsulation
  nonce : Roe ByteVector
  load : Option String := none
  ensure : Option String := none
  allocate : Option String := none

/-- A step that a fault ends. -/
def givesUp (fault : Option String) : Roe Unit :=
  match fault with
  | some text => .error text
  | none => .ok ()

/-- The sessions and numbers, `group_targets`, and each thread's rows. -/
structure OutboundStore where
  numbers : SenderNumbers := {}
  groupTargets : String → Option MemberSeqRow := fun _ => none
  transcripts : ThreadTarget → ThreadTranscript := fun _ => []

section

variable (rows : ThreadTranscript) (message : ThreadMessage) (faults : AppendFaults)

def checkAnnotationCap : Roe Unit :=
  if message.contentType ≠ ChatContentType.annotation then .ok ()
  else
    let targetId := message.targetMessageId.getD ""
    if targetId = "" then .error "Annotation missing target_message_id"
    -- the cap guards against reaction floods; it must never stop a delete
    else if message.saysRetract then .ok ()
    else
      match faults.count with
      | some text => .error text
      | none =>
        if rows.countAnnotationsForTarget targetId ≥ kMaxAnnotationsPerTarget then
          .error "Too many reactions on this message"
        else .ok ()

/-- `AppendMessage`, of a store that can give up. -/
def appendRow : ThreadTranscript × Roe ThreadMessage :=
  if message.text.utf8ByteSize > kMaxComposeTextBytes then (rows, .error "Message text exceeds compose limit")
  else
    match faults.append, rows.appendMessage message, faults.outbox with
    | some text, _, _ => (rows, .error text)
    | none, .error text, _ => (rows, .error text)
    -- the row stays when its outbox row fails
    | none, .ok (_, rows), some text => (rows, .error text)
    | none, .ok (stored, rows), none => (rows, .ok stored)

end

namespace OutboundStore

section

variable (store : OutboundStore) (thread : ThreadTarget) (message : ThreadMessage) (faults : AppendFaults)

/-! ## The thread's number -/

def allocateSenderSeq : Roe (Nat × OutboundStore) := do
  givesUp faults.allocate
  match thread with
  | .direct target =>
    let (numbers, seq) := store.numbers.allocateThreadSeq target
    return (← seq, { store with numbers })
  | .group groupId =>
    match store.groupTargets groupId with
    | none => throw "No group target for group_id"
    | some row =>
      let bumped : MemberSeqRow := { row with nextSeq := bumpedSeq row.nextSeq }
      return (row.nextSeq, { store with groupTargets := Function.update store.groupTargets groupId (some bumped) })

def getChatTargetSessionEpoch : Roe Nat := do
  givesUp faults.epoch
  match thread with
  | .direct target => store.numbers.sessions.chatTargetSessionEpoch target.key
  | .group groupId =>
    match store.groupTargets groupId with
    | none => throw "No group target"
    | some row => return row.sessionEpoch

def appendOutboundMessage : OutboundStore × Roe (Numbered ThreadMessage) :=
  match store.allocateSenderSeq thread faults with
  | .error text => (store, .error text)
  | .ok (senderSeq, store) =>
    match store.getChatTargetSessionEpoch thread faults with
    | .error text => (store, .error text)
    | .ok sessionEpoch =>
      match checkAnnotationCap (store.transcripts thread) message faults with
      | .error text => (store, .error text)
      | .ok () =>
        let (rows, stored) := appendRow (store.transcripts thread) message faults
        ({ store with transcripts := Function.update store.transcripts thread rows },
          stored.map (Numbered.mk · senderSeq sessionEpoch))

end

/-! ## The pair's number -/

variable (K : PayloadCrypto) (store : OutboundStore) (send : PairSend)

/-- The epoch of a pair's session: of the row there is. -/
def pairEpoch (pair : PeerSessionKey) : Nat := (store.numbers.sessions.load pair).elim 1 (·.sessionEpoch)

/-- `EnsureE2ePublicMasterPsk`, over the numbered rows. -/
def ensurePairSession : Roe (E2ePublicPskEnsureResult × OutboundStore) := do
  givesUp send.load
  if send.peerDeviceKem = [] then throw "Peer KEM public key required"
  givesUp send.ensure
  let epoch := store.pairEpoch send.pair
  let (ensured, sessions) ← ensureE2ePublicMasterPsk K.toPairCrypto store.numbers.sessions send.pair epoch
    (.ok send.peerDeviceKem) send.encapsulateForRecipient
  -- a save counts on from its own epoch's row
  let count := store.numbers.savedSeq { key := send.pair, sessionEpoch := epoch }
  let nextOutgoingSeq :=
    if ensured.created then Function.update store.numbers.nextOutgoingSeq send.pair count
    else store.numbers.nextOutgoingSeq
  return (ensured, { store with numbers := { store.numbers with sessions, nextOutgoingSeq } })

def encryptNumbered (senderSeq sessionEpoch : Nat) (ensured : E2ePublicPskEnsureResult) : Roe E2eEncryptResult := do
  let params : E2eEncryptParams :=
    { channel := send.pair.channel, peerContactId := send.pair.peerIdentityValue
      senderContactId := send.senderAccountId, messageId := send.message.id, senderSeq, sessionEpoch
      timestamp := send.message.timestamp }
  let plaintext ← send.plaintext
  E2eRelayPayloadCodec.encryptChatPayloadWithAutoKey K params plaintext ensured.masterPsk ensured.keyInitB64 send.nonce

def allocatePairSeq : Roe (Nat × OutboundStore) := do
  givesUp send.allocate
  let (numbers, seq) := store.numbers.allocateDeviceSeq send.pair
  return (← seq, { store with numbers })

/-- The store a copy finds its session in. -/
def pairSession : Roe (E2ePublicPskEnsureResult × OutboundStore) :=
  if send.pair.peerDevice = "" ∨ send.pair.channel ≠ .e2ePublic then
    .error "A pair copy is for one device, on a public chat"
  else store.ensurePairSession K send

def sealPairCopy : OutboundStore × Roe (Numbered E2eEncryptResult) :=
  let epoch := store.pairEpoch send.pair
  match store.pairSession K send with
  | .error text => (store, .error text)
  | .ok (ensured, store) =>
    match store.allocatePairSeq send with
    | .error text => (store, .error text)
    | .ok (senderSeq, numbered) =>
      let sealed := encryptNumbered K send senderSeq epoch ensured
      (numbered, sealed.map (Numbered.mk · senderSeq epoch))

end OutboundStore

/-! ## The numbers a run of sends hands out -/

inductive OutboundCounter where
  | session (key : PeerSessionKey)
  | group (groupId : String)
  deriving DecidableEq

def ThreadTarget.counter : ThreadTarget → OutboundCounter
  | .direct target => .session target.key
  | .group groupId => .group groupId

inductive OutboundSend where
  | append (thread : ThreadTarget) (message : ThreadMessage) (faults : AppendFaults)
  | sealCopy (send : PairSend)

def OutboundSend.counter : OutboundSend → OutboundCounter
  | .append thread _ _ => thread.counter
  | .sealCopy send => .session send.pair

namespace OutboundStore

variable (K : PayloadCrypto) (store : OutboundStore)

/-- A counter's epoch and next number; a session to be opened starts at 1. -/
def next : OutboundCounter → Nat × Nat
  | .session key => (store.numbers.row (.session key)).getD (1, 1)
  | .group groupId => (store.groupTargets groupId).elim (1, 1) fun row => (row.sessionEpoch, row.nextSeq)

/-- The store a send leaves, and what a message handed to delivery is
numbered. -/
def attempt : OutboundSend → OutboundStore × Roe (Nat × Nat)
  | .append thread message faults =>
    let (after, appended) := store.appendOutboundMessage thread message faults
    (after, appended.map fun numbered => (numbered.sessionEpoch, numbered.senderSeq))
  | .sealCopy send =>
    let (after, copy) := store.sealPairCopy K send
    (after, copy.map fun numbered => (numbered.sessionEpoch, numbered.senderSeq))

/-- The send gets as far as its number. -/
def Takes : OutboundSend → Prop
  | .append thread _ faults => ∃ taken, store.allocateSenderSeq thread faults = .ok taken
  | .sealCopy send => ∃ session, store.pairSession K send = .ok session ∧ send.allocate = none

/-- Nothing refuses the send once it has its number. -/
def Passes : OutboundSend → Prop
  | .append thread message faults =>
    faults.epoch = none ∧ checkAnnotationCap (store.transcripts thread) message faults = .ok () ∧
      message.text.utf8ByteSize ≤ kMaxComposeTextBytes ∧ faults.append = none ∧
      ¬(store.transcripts thread).hasMessageId message.id ∧ faults.outbox = none
  | .sealCopy send =>
    ∀ session, store.pairSession K send = .ok session →
      ∃ encrypted, encryptNumbered K send (store.next (.session send.pair)).2 (store.pairEpoch send.pair) session.1 =
        .ok encrypted

/-- The send leaves no gap: it is refused before it has a number, or not at
all. -/
def LeavesNoGap (send : OutboundSend) : Prop := store.Takes K send → store.Passes K send

/-- A counter's number that a send hands to delivery, with its epoch. -/
def handedBy (counter : OutboundCounter) (send : OutboundSend) : Option (Nat × Nat) :=
  if send.counter = counter then (store.attempt K send).2.toOption else none

def handed (counter : OutboundCounter) (sends : List OutboundSend) : List (Nat × Nat) :=
  (trail (fun store send => (store.attempt K send).1) store sends).filterMap fun x => x.1.handedBy K counter x.2

/-- One number is taken off a counter. -/
structure TookOne (counter : OutboundCounter) (before after : OutboundStore) : Prop where
  taken : after.next counter = ((before.next counter).1, bumpedSeq (before.next counter).2)
  others : ∀ other, other ≠ counter → after.next other = before.next other

variable {K} {store} {after : OutboundStore} {thread : ThreadTarget} {message : ThreadMessage} {faults : AppendFaults}
  {send : PairSend} {counter : OutboundCounter} {epoch number : Nat} {record : PeerSessionRecord}
  {session : E2ePublicPskEnsureResult × OutboundStore}

/-! ## What one send does -/

theorem next_session {key : PeerSessionKey} (hload : store.numbers.sessions.load key = some record) :
    store.next (.session key) = (record.sessionEpoch, store.numbers.nextOutgoingSeq key) := by
  rw [next, SenderNumbers.row_session hload, Option.getD_some]

theorem tookOne_bumped {key : PeerSessionKey}
    (hload : store.numbers.sessions.load key = some record) :
    TookOne (.session key) store
      { store with
        numbers := { store.numbers with
          nextOutgoingSeq :=
            Function.update store.numbers.nextOutgoingSeq key (bumpedSeq (store.numbers.nextOutgoingSeq key)) } } := by
  have hmoves := @SenderNumbers.row_bumped _ _ _ (bumpedSeq (store.numbers.nextOutgoingSeq key)) hload
  constructor
  · rw [next_session hload, next]
    dsimp only
    rw [hmoves.row, Option.getD_some]
  · intro other hne
    cases other with
    | group groupId => rfl
    | session other =>
      show Option.getD _ _ = Option.getD _ _
      rw [hmoves.others _ fun h => hne (congrArg OutboundCounter.session (SenderCounter.session.inj h))]

theorem allocateSenderSeq_ok (h : store.allocateSenderSeq thread faults = .ok (number, after)) :
    TookOne thread.counter store after ∧ number = (store.next thread.counter).2 ∧
      after.transcripts = store.transcripts ∧
      after.getChatTargetSessionEpoch thread faults = givesUp faults.epoch >>= fun _ =>
        .ok (store.next thread.counter).1 := by
  obtain ⟨-, h⟩ := roe_then_ok.mp h
  cases thread with
  | direct target =>
    cases hload : store.numbers.sessions.load target.key with
    | none =>
      simp only [SenderNumbers.allocateThreadSeq, hload] at h
      cases h
    | some record =>
      simp only [SenderNumbers.allocateThreadSeq, hload] at h
      obtain ⟨rfl, rfl⟩ := Prod.mk.inj (Except.ok.inj h)
      refine ⟨tookOne_bumped hload, ?_, rfl, ?_⟩
      · rw [ThreadTarget.counter, next_session hload]
      · rw [ThreadTarget.counter, next_session hload, getChatTargetSessionEpoch]
        dsimp only
        rw [SenderNumbers.chatTargetSessionEpoch_some hload]
  | group groupId =>
    cases hrow : store.groupTargets groupId with
    | none =>
      simp only [hrow] at h
      cases h
    | some row =>
      simp only [hrow] at h
      obtain ⟨rfl, rfl⟩ := Prod.mk.inj (Except.ok.inj h)
      refine ⟨⟨?_, ?_⟩, ?_, rfl, ?_⟩
      · simp [ThreadTarget.counter, next, hrow]
      · intro other hne
        cases other with
        | session key => rfl
        | group other =>
          have hother : other ≠ groupId := fun h => hne (congrArg OutboundCounter.group h)
          simp [next, Function.update_of_ne hother]
      · simp [ThreadTarget.counter, next, hrow]
      · simp [ThreadTarget.counter, next, hrow, getChatTargetSessionEpoch]

theorem ensureE2ePublicMasterPsk_ok {C : PairCrypto} {sessions sessions' : PeerSessions} {pair : PeerSessionKey}
    {peerKem : Roe ByteVector} {encapsulate : ByteVector → Roe AutoKeyEncapsulation}
    {ensured : E2ePublicPskEnsureResult}
    (h : ensureE2ePublicMasterPsk C sessions pair epoch peerKem encapsulate = .ok (ensured, sessions')) :
    (ensured.created = false ∧ sessions' = sessions ∧ ∃ record, sessions.load pair = some record) ∨
      (ensured.created = true ∧ ∃ established, sessions' = sessions.save (openedRow C sessions pair epoch established)) := by
  rw [ensureE2ePublicMasterPsk] at h
  by_cases hchannel : pair.channel = .e2ePublic
  · rw [if_neg (not_not.mpr hchannel)] at h
    cases hresolve : sessions.resolveMasterPskForEpoch pair epoch with
    | some existing =>
      rw [hresolve] at h
      obtain ⟨masterPsk, -, h⟩ := roe_bind_ok.mp h
      obtain ⟨rfl, rfl⟩ := Prod.mk.inj (Except.ok.inj h)
      obtain ⟨record, hload, -⟩ := Option.bind_eq_some_iff.mp hresolve
      exact .inl ⟨rfl, rfl, record, hload⟩
    | none =>
      rw [hresolve] at h
      obtain ⟨peerPublic, -, h⟩ := roe_bind_ok.mp h
      by_cases hempty : peerPublic = []
      · rw [if_pos hempty] at h
        cases h
      · rw [if_neg hempty] at h
        obtain ⟨established, -, h⟩ := roe_bind_ok.mp h
        obtain ⟨rfl, rfl⟩ := Prod.mk.inj (Except.ok.inj h)
        exact .inr ⟨rfl, established, rfl⟩
  · rw [if_pos hchannel] at h
    cases h

theorem ensurePairSession_next (h : store.ensurePairSession K send = .ok session) (counter : OutboundCounter) :
    session.2.next counter = store.next counter ∧ ∃ record, session.2.numbers.sessions.load send.pair = some record := by
  obtain ⟨-, h⟩ := roe_then_ok.mp h
  by_cases hkem : send.peerDeviceKem = []
  · rw [if_pos hkem] at h
    cases h
  · rw [if_neg hkem] at h
    obtain ⟨-, h⟩ := roe_then_ok.mp h
    obtain ⟨⟨ensured, sessions⟩, hensure, h⟩ := roe_bind_ok.mp h
    obtain rfl := Except.ok.inj h
    rcases ensureE2ePublicMasterPsk_ok hensure with ⟨hcreated, rfl, hload⟩ | ⟨hcreated, established, rfl⟩
    · simp only [hcreated]
      exact ⟨rfl, hload⟩
    · simp only [hcreated, if_true]
      have hmoves := SenderNumbers.row_save store.numbers
        (openedRow K.toPairCrypto store.numbers.sessions send.pair (store.pairEpoch send.pair) established)
      refine ⟨?_, _, PeerSessions.load_save_self rfl⟩
      cases counter with
      | group groupId => rfl
      | session key =>
        by_cases hkey : key = send.pair
        · subst hkey
          refine (congrArg (Option.getD · (1, 1)) hmoves.row).trans ?_
          -- the saved row has the epoch and the count of the one before, or starts both
          show (store.pairEpoch send.pair, store.numbers.savedSeq { key := send.pair, sessionEpoch := _ }) = _
          rw [SenderNumbers.savedSeq, next, SenderNumbers.row, pairEpoch]
          cases hload : store.numbers.sessions.load send.pair with
          | none => rfl
          | some record => simp [openedRow]
        · exact congrArg (Option.getD · (1, 1)) (hmoves.others _ fun h => hkey (SenderCounter.session.inj h))

theorem pairSession_ok : store.pairSession K send = .ok session ↔
      send.pair.peerDevice ≠ "" ∧ send.pair.channel = .e2ePublic ∧ store.ensurePairSession K send = .ok session := by
  rw [pairSession]
  split_ifs with hrefused
  · exact iff_of_false nofun fun ⟨hdevice, hchannel, _⟩ => hrefused.elim hdevice fun h => h hchannel
  · obtain ⟨hdevice, hchannel⟩ := not_or.mp hrefused
    exact ⟨fun h => ⟨hdevice, not_not.mp hchannel, h⟩, fun h => h.2.2⟩

theorem appendRow_ok {rows : ThreadTranscript} : (∃ stored, (appendRow rows message faults).2 = .ok stored) ↔
      message.text.utf8ByteSize ≤ kMaxComposeTextBytes ∧ faults.append = none ∧ ¬rows.hasMessageId message.id ∧
        faults.outbox = none := by
  rw [appendRow, ThreadTranscript.appendMessage]
  by_cases hlong : message.text.utf8ByteSize > kMaxComposeTextBytes
  · rw [if_pos hlong]
    exact iff_of_false (by rintro ⟨_, ⟨⟩⟩) fun h => absurd h.1 (Nat.not_le.mpr hlong)
  · rw [if_neg hlong, if_neg hlong]
    cases faults.append with
    | some text => simp
    | none =>
      have hid : (if message.displayOrder = 0 then { message with displayOrder := rows.nextDisplayOrder }
          else message).id = message.id := by
        split_ifs <;> rfl
      dsimp only
      rw [hid]
      by_cases hknown : rows.hasMessageId message.id
      · simp [hknown]
      · cases faults.outbox with
        | some text => simp [hknown]
        | none => simp [hknown, Nat.le_of_not_gt hlong]

/-- A pair's copy takes the number of its session. -/
theorem allocatePairSeq_eq (hdevice : send.pair.peerDevice ≠ "")
    (hload : store.numbers.sessions.load send.pair = some record) :
    (send.allocate = none → ∃ after, store.allocatePairSeq send = .ok ((store.next (.session send.pair)).2, after) ∧
      TookOne (.session send.pair) store after) ∧
    (send.allocate ≠ none → ∃ text, store.allocatePairSeq send = .error text) := by
  rw [allocatePairSeq]
  cases send.allocate with
  | some text => exact ⟨nofun, fun _ => ⟨text, rfl⟩⟩
  | none =>
    refine ⟨fun _ => ⟨_, ?_, tookOne_bumped hload⟩, fun h => absurd rfl h⟩
    rw [next_session hload, SenderNumbers.allocateDeviceSeq, if_neg hdevice, hload]
    rfl

theorem attempt_refused {send : OutboundSend} (h : ¬store.Takes K send) :
    (∀ counter, (store.attempt K send).1.next counter = store.next counter) ∧
      ∃ text, (store.attempt K send).2 = .error text := by
  cases send with
  | append thread message faults =>
    cases hallocate : store.allocateSenderSeq thread faults with
    | ok taken => exact absurd ⟨taken, hallocate⟩ h
    | error text =>
      rw [attempt, appendOutboundMessage, hallocate]
      exact ⟨fun _ => rfl, text, rfl⟩
  | sealCopy send =>
    cases hsession : store.pairSession K send with
    | error text =>
      rw [attempt, sealPairCopy, hsession]
      exact ⟨fun _ => rfl, text, rfl⟩
    | ok session =>
      obtain ⟨hdevice, -, hensure⟩ := pairSession_ok.mp hsession
      obtain ⟨record, hload⟩ := (ensurePairSession_next hensure (.session send.pair)).2
      obtain ⟨text, herror⟩ := (allocatePairSeq_eq hdevice hload).2 fun hnone => h ⟨session, hsession, hnone⟩
      rw [attempt, sealPairCopy, hsession]
      dsimp only
      rw [herror]
      exact ⟨fun counter => (ensurePairSession_next hensure counter).1, text, rfl⟩

/-- One that does takes its counter's, and is handed to delivery under it
where nothing refuses it after. -/
theorem attempt_took {send : OutboundSend} (h : store.Takes K send) :
    TookOne send.counter store (store.attempt K send).1 ∧
      (store.Passes K send → (store.attempt K send).2 = .ok (store.next send.counter)) ∧
      (¬store.Passes K send → ∃ text, (store.attempt K send).2 = .error text) := by
  cases send with
  | append thread message faults =>
    obtain ⟨⟨number, after⟩, hallocate⟩ := h
    obtain ⟨htook, rfl, hrows, hepoch⟩ := allocateSenderSeq_ok hallocate
    rw [attempt, appendOutboundMessage, hallocate]
    dsimp only
    rw [hepoch]
    cases hfault : faults.epoch with
    | some text => exact ⟨htook, fun hpasses => (by cases hpasses.1.symm.trans hfault), fun _ => ⟨text, rfl⟩⟩
    | none =>
      simp only [givesUp, roe_ok_bind]
      rw [hrows]
      cases hcap : checkAnnotationCap (store.transcripts thread) message faults with
      | error text =>
        exact ⟨htook, fun hpasses => (by cases hpasses.2.1.symm.trans hcap), fun _ => ⟨text, rfl⟩⟩
      | ok _ =>
        have hrow := @appendRow_ok message faults (store.transcripts thread)
        refine ⟨⟨htook.taken, htook.others⟩, ?_⟩
        cases hstored : (appendRow (store.transcripts thread) message faults).2 with
        | error text =>
          rw [hstored] at hrow
          exact ⟨fun hpasses => (by rcases hrow.mpr hpasses.2.2 with ⟨_, ⟨⟩⟩), fun _ => ⟨text, rfl⟩⟩
        | ok stored => exact ⟨fun _ => rfl, fun h => absurd ⟨hfault, hcap, hrow.mp ⟨stored, hstored⟩⟩ h⟩
  | sealCopy send =>
    obtain ⟨session, hsession, hnone⟩ := h
    obtain ⟨hdevice, -, hensure⟩ := pairSession_ok.mp hsession
    have hnext := fun counter => (ensurePairSession_next hensure counter).1
    obtain ⟨record, hload⟩ := (ensurePairSession_next hensure (.session send.pair)).2
    obtain ⟨after, hallocate, htook⟩ := (allocatePairSeq_eq hdevice hload).1 hnone
    rw [attempt, sealPairCopy, hsession]
    dsimp only
    rw [hallocate, hnext]
    refine ⟨⟨?_, ?_⟩, ?_⟩
    · rw [OutboundSend.counter, htook.taken, hnext]
    · intro other hne
      rw [htook.others other hne, hnext]
    · have hepoch : store.next (.session send.pair) = (store.pairEpoch send.pair, (store.next (.session send.pair)).2) := by
        rw [pairEpoch, next, SenderNumbers.row]
        cases store.numbers.sessions.load send.pair with
        | none | some record => rfl
      rw [OutboundSend.counter, hepoch]
      cases hencrypted : encryptNumbered K send (store.next (.session send.pair)).2 (store.pairEpoch send.pair) session.1 with
      | error text =>
        dsimp only
        rw [hencrypted]
        refine ⟨?_, fun _ => ⟨text, rfl⟩⟩
        intro hpasses
        obtain ⟨encrypted, hok⟩ := hpasses session hsession
        cases hok.symm.trans hencrypted
      | ok encrypted =>
        dsimp only
        rw [hencrypted]
        refine ⟨fun _ => rfl, fun h => absurd ?_ h⟩
        intro found hfound
        obtain rfl := Except.ok.inj (hsession.symm.trans hfound)
        exact ⟨encrypted, hencrypted⟩

/-! ## Runs -/

/-- A send that leaves no gap hands its counter's number to delivery and
takes it, or leaves the counters alone. -/
theorem attempt_noGap {send : OutboundSend} (h : store.LeavesNoGap K send)
    (hbelow : (store.next counter).2 < kMaxSeq) : store.handedBy K counter send = none ∧
        (store.attempt K send).1.next counter = store.next counter ∨
      store.handedBy K counter send = some (store.next counter) ∧
        (store.attempt K send).1.next counter = ((store.next counter).1, (store.next counter).2 + 1) := by
  rw [handedBy]
  by_cases htakes : store.Takes K send
  · obtain ⟨htook, hpasses, -⟩ := attempt_took htakes
    by_cases hcounter : send.counter = counter
    · subst hcounter
      rw [if_pos rfl, hpasses (h htakes), htook.taken, bumpedSeq, Nat.min_eq_left hbelow]
      exact .inr ⟨rfl, rfl⟩
    · rw [if_neg hcounter, htook.others counter (Ne.symm hcounter)]
      exact .inl ⟨rfl, rfl⟩
  · obtain ⟨hnext, text, herror⟩ := attempt_refused htakes
    rw [herror, hnext]
    refine .inl ⟨?_, rfl⟩
    split_ifs <;> rfl

theorem handed_noGap {sends : List OutboundSend} (hnext : store.next counter = (epoch, number))
    (hbelow : number + sends.length ≤ kMaxSeq)
    (h : Admits (fun store send => (store.attempt K send).1) (LeavesNoGap K) store sends) :
    ∃ count, store.handed K counter sends = (List.range' number count).map (Prod.mk epoch) := by
  induction sends generalizing store number with
  | nil => exact ⟨0, rfl⟩
  | cons send sends ih =>
    rw [List.length_cons] at hbelow
    rw [handed, trail, List.filterMap_cons]
    rcases attempt_noGap h.1 (by rw [hnext]; omega) with ⟨hnone, hsame⟩ | ⟨hsome, hup⟩
    · rw [hnone]
      exact ih (hsame.trans hnext) (by omega) h.2
    · obtain ⟨count, hcount⟩ := ih (by rw [hup, hnext]) (by omega) h.2
      rw [hsome, hnext]
      exact ⟨count + 1, congrArg (List.cons _) hcount⟩

variable (K) in
/-- A send that fails leaves its counter as it was exactly if it has taken no
number, or the count is at its end; and a run of sends none of which fails
with a number hands out each counter's numbers from 1 on. -/
theorem failed_send_uses_no_number :
    (∀ store send,
      (∀ text, (attempt K store send).2 = .error text →
          (attempt K store send).1.next send.counter = store.next send.counter) ↔
        store.LeavesNoGap K send ∨ (store.next send.counter).2 = kMaxSeq) ∧
    ∀ (store : OutboundStore) (counter : OutboundCounter) (epoch : Nat) (sends : List OutboundSend),
      store.next counter = (epoch, 1) → sends.length < kMaxSeq →
      Admits (fun store send => (attempt K store send).1) (LeavesNoGap K) store sends →
      ∃ count, store.handed K counter sends = (List.range' 1 count).map (Prod.mk epoch) := by
  constructor
  · intro store send
    by_cases htakes : store.Takes K send
    · obtain ⟨htook, hpasses, hfails⟩ := attempt_took htakes
      rw [htook.taken, LeavesNoGap, Prod.ext_iff, bumpedSeq]
      constructor
      · intro hkept
        by_cases hpass : store.Passes K send
        · exact .inl fun _ => hpass
        · obtain ⟨text, herror⟩ := hfails hpass
          have hsame := (hkept text herror).2
          dsimp only at hsame
          omega
      · rintro (hnone | hlast) text herror
        · rw [hpasses (hnone htakes)] at herror
          cases herror
        · exact ⟨rfl, by dsimp only; omega⟩
    · obtain ⟨hnext, -⟩ := attempt_refused htakes
      exact iff_of_true (fun _ _ => hnext _) (.inl fun h => absurd h htakes)
  · intro store counter epoch sends hnext hlength hsends
    exact handed_noGap hnext (by omega) hsends

/-- A public chat, just opened, with as many reactions to a message as it
takes. -/
def sampleOutbound : OutboundStore where
  numbers := SenderNumbers.upsertChatTarget {} ⟨"account", "bob", .e2ePublic⟩
  transcripts _ := (List.range kMaxAnnotationsPerTarget).map reactionAt

def sampleChat : ThreadTarget := .direct ⟨"account", "bob", .e2ePublic⟩

theorem refused_reaction_takes_number :
    let refused := sampleOutbound.appendOutboundMessage sampleChat (reactionAt kMaxAnnotationsPerTarget) {}
    refused.2.isOk = false ∧ sampleOutbound.next sampleChat.counter = (1, 1) ∧
      refused.1.next sampleChat.counter = (1, 2) ∧
      sampleOutbound.handed samplePayloadCrypto sampleChat.counter
        [.append sampleChat (reactionAt kMaxAnnotationsPerTarget) {},
          .append sampleChat { id := "next", senderContactId := "self", text := "hello" } {}] = [(1, 2)] := by
  refine ⟨by decide, by decide, by decide, by decide⟩

theorem failed_send_uses_no_number_sample :
    ∃ count, sampleOutbound.handed samplePayloadCrypto sampleChat.counter
      [.append sampleChat { id := "first", senderContactId := "self", text := "hello" } {},
        .append sampleChat { id := "next", senderContactId := "self", text := "again" } {}] =
      (List.range' 1 count).map (Prod.mk 1) := by
  apply (failed_send_uses_no_number samplePayloadCrypto).2 sampleOutbound sampleChat.counter 1
  · decide
  · decide
  · refine ⟨fun _ => ?_, fun _ => ?_, trivial⟩
    · exact ⟨rfl, rfl, by decide, rfl, by decide, rfl⟩
    · exact ⟨rfl, rfl, by decide, rfl, by decide, rfl⟩

end OutboundStore

end Pbr
