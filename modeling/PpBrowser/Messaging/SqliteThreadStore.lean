import PpBrowser.Messaging.RelayIngest

/-!
# SqliteThreadStore — the rows of a profile's chats

The tables of `profile.db` and of each chat's `thread.db`, as far as the
outbox and a chat's epoch ask for them: a message row with its sealed content,
the outbox, the chat targets, the catalog of chats and the sync state. What
else a message has is kept as it is.
-/

namespace Pbr

open Lib

inductive MessageDelivery where
  | localOnly | pending | relayed | failed
  deriving DecidableEq, Repr

/-- `ThreadKind`, with the assistant's chats. -/
inductive CatalogKind where
  | ai | direct | group
  deriving DecidableEq, Repr

/-- A `ThreadMessage`; `content` is what no statement here asks for. -/
structure StoreMessage (C : Type) where
  id : String
  threadId : String
  /-- Not positive until the message has its place. -/
  displayOrder : Int := 0
  relayVisible : Bool := false
  delivery : MessageDelivery := .localOnly
  sessionEpoch : Option Nat := none
  content : C

structure MessageRow (C : Type) where
  message : StoreMessage C
  contentEnc : ByteVector

structure OutboxRow where
  messageId : String
  threadId : String
  updatedAt : Int
  deriving DecidableEq, Repr

structure ChatTargetRow where
  localThreadId : String
  sessionEpoch : Nat := 1
  nextOutgoingSeq : Nat := 1
  deriving DecidableEq, Repr

/-- A row of `threads`; the epoch is a cache of the chat target's. -/
structure CatalogRow where
  id : String
  kind : CatalogKind
  peerIdentityKind : String := ""
  peerIdentityValue : String := ""
  sessionEpoch : Option Nat := none
  deriving DecidableEq, Repr

@[ext]
structure ThreadStore (C : Type) where
  /-- The `messages` of each chat's own database. -/
  messages : String → List (MessageRow C) := fun _ => []
  outbox : List OutboxRow := []
  chatTargets : List ChatTargetRow := []
  threads : List CatalogRow := []
  syncState : List SyncStateRow := []

namespace MessageRow

variable {C : Type} (row : MessageRow C)

def id : String := row.message.id

end MessageRow

namespace ThreadStore

variable {C : Type} (s : ThreadStore C)

/-! ## Statements -/

/-- `RemoveOutboxRow`, its statement. -/
def removeOutboxRow (messageId : String) : ThreadStore C :=
  { s with outbox := s.outbox.filter (·.messageId ≠ messageId) }

/-- `UpsertOutboxRow`, its statement. -/
def upsertOutboxRow (messageId threadId : String) (now : Int) : ThreadStore C :=
  { s with outbox := put OutboxRow.messageId { messageId, threadId, updatedAt := now } s.outbox }

/-- The messages of a chat but those that pass. -/
def deleteMessages (threadId : String) (p : MessageRow C → Bool) : ThreadStore C :=
  { s with messages := Function.update s.messages threadId ((s.messages threadId).filter (!p ·)) }

def insertMessage (threadId : String) (row : MessageRow C) : ThreadStore C :=
  { s with messages := Function.update s.messages threadId (s.messages threadId ++ [row]) }

/-- The chat target of a chat goes to an epoch, its numbers start again. -/
def updateChatTarget (threadId : String) (epoch : Nat) : ThreadStore C :=
  { s with chatTargets := s.chatTargets.map fun row =>
      if row.localThreadId = threadId then { row with sessionEpoch := epoch, nextOutgoingSeq := 1 } else row }

def updateThreadEpoch (threadId : String) (epoch : Nat) : ThreadStore C :=
  { s with threads := s.threads.map fun row => if row.id = threadId then { row with sessionEpoch := some epoch } else row }

def upsertSyncState (row : SyncStateRow) : ThreadStore C :=
  { s with syncState := put SyncStateRow.key row s.syncState }

end ThreadStore

end Pbr
