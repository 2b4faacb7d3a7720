import PpBrowser.Base.Words
import PpBrowser.Lib.Json
import PpBrowser.Lib.Rows

/-!
# ThreadTranscript — the stored rows of one chat

The message rows of a thread store (`IThreadTranscript`, as
`SqliteThreadStore` keeps them), oldest first. A row is the message it reads
back as; a payload's JSON text is the object it reads back as.
-/

namespace Pbr

open Lib Lib.Json

inductive ChatContentType where
  | text | system | annotation | contactCard | cryptoTx | attachment | unsupported
  /-- The local tombstone, never on the wire. -/
  | deleted
  deriving DecidableEq, Repr

structure TranscriptChatAction where
  label : String
  message : String
  payload : Option String := none
  deriving DecidableEq, Repr

structure ThreadMessage where
  id : String
  senderContactId : String
  /-- 0 until the row is stored. -/
  displayOrder : Nat := 0
  contentType : ChatContentType := .text
  text : String := ""
  /-- `none` for a text that is no JSON object, an empty one too. -/
  payloadJson : Option Object := none
  targetMessageId : Option String := none
  aiInvokeMode : Option String := none
  contentRml : Option String := none
  chatActions : List TranscriptChatAction := []
  workingSetJson : Option String := none
  aiImageJson : Option String := none
  timestamp : Int := 0

def kMaxComposeTextBytes : Nat := 64 * 1024

namespace ThreadMessage

/-- The row without its place in the chat. -/
def content (m : ThreadMessage) : ThreadMessage := { m with displayOrder := 0 }

/-- The id-only row a deleted message leaves. -/
def tombstone (m : ThreadMessage) : ThreadMessage :=
  { m with
    contentType := .deleted
    text := ""
    payloadJson := none
    contentRml := none
    chatActions := []
    workingSetJson := none
    aiImageJson := none
    aiInvokeMode := none
    targetMessageId := none }

@[simp] theorem tombstone_id (m : ThreadMessage) : m.tombstone.id = m.id := rfl
@[simp] theorem tombstone_contentType (m : ThreadMessage) : m.tombstone.contentType = .deleted := rfl
@[simp] theorem tombstone_targetMessageId (m : ThreadMessage) : m.tombstone.targetMessageId = none := rfl
@[simp] theorem content_tombstone (m : ThreadMessage) : m.tombstone.content = m.content.tombstone := rfl

end ThreadMessage

/-- The rows, in display order. -/
abbrev ThreadTranscript := List ThreadMessage

namespace ThreadTranscript

open ThreadMessage

variable (rows : ThreadTranscript)

def nextDisplayOrder : Nat := (rows.map (·.displayOrder)).foldl max 0 + 1

def getMessage (messageId : String) : Option ThreadMessage := rowOf (·.id) messageId rows

def hasMessageId (messageId : String) : Bool := rows.any (·.id = messageId)

def getAnnotationsForTarget (targetMessageId : String) : List ThreadMessage :=
  rows.filter fun row => row.contentType = ChatContentType.annotation ∧ row.targetMessageId = some targetMessageId

def countAnnotationsForTarget (targetMessageId : String) : Nat :=
  if targetMessageId = "" then 0 else (rows.getAnnotationsForTarget targetMessageId).length

/-- `AppendMessage`: the row as stored; an id is stored once. -/
def appendMessage (message : ThreadMessage) : Roe (ThreadMessage × ThreadTranscript) :=
  if message.text.utf8ByteSize > kMaxComposeTextBytes then
    .error "Message text exceeds compose limit"
  else
    let stored :=
      if message.displayOrder = 0 then { message with displayOrder := rows.nextDisplayOrder }
      else message
    if rows.hasMessageId stored.id then .error "Failed to append message"
    else .ok (stored, rows ++ [stored])

/-- Whether `UpdateMessage` writes over the row: a tombstone is final. -/
def updates (message row : ThreadMessage) : Bool :=
  row.id = message.id ∧ (row.contentType ≠ .deleted ∨ message.contentType = .deleted)

/-- Every field but the row's place; whether a row changed. -/
def updateMessage (message : ThreadMessage) : Bool × ThreadTranscript :=
  (rows.any (updates message), rows.map fun row =>
    if updates message row then { message with displayOrder := row.displayOrder } else row)

/-- "Delete for me"; false when the id is unknown. -/
def deleteMessageContent (messageId : String) : Bool × ThreadTranscript :=
  match rows.getMessage messageId with
  | none => (false, rows)
  | some message =>
    if message.contentType = .deleted then (true, rows) else rows.updateMessage message.tombstone

variable {rows}

/-- The rows, apart from where they stand. -/
def contents (rows : ThreadTranscript) : List ThreadMessage := rows.map ThreadMessage.content

/-- What is stored under an id, apart from where it stands. -/
def stored (rows : ThreadTranscript) (messageId : String) : Option ThreadMessage :=
  (rows.getMessage messageId).map ThreadMessage.content

theorem stored_eq (messageId : String) : rows.stored messageId = rowOf (·.id) messageId rows.contents := by
  rw [stored, getMessage, rowOf, rowOf, contents, List.find?_map]
  rfl

theorem countAnnotationsForTarget_contents (targetMessageId : String) :
    countAnnotationsForTarget rows.contents targetMessageId = countAnnotationsForTarget rows targetMessageId := by
  simp only [countAnnotationsForTarget, getAnnotationsForTarget, contents, List.filter_map,
    List.length_map]
  rfl

/-- The row a deletion of `messageId` leaves of `row`. -/
def struck (messageId : String) (row : ThreadMessage) : ThreadMessage :=
  if row.id = messageId ∧ row.contentType ≠ .deleted then row.tombstone else row

theorem map_struck_of_unstruck {messageId : String}
    (h : ∀ row ∈ rows, row.id = messageId → row.contentType = .deleted) : rows.map (struck messageId) = rows := by
  have hsame : rows.map (struck messageId) = rows.map fun row => row := by
    apply List.map_congr_left
    intro row hrow
    rw [struck, if_neg]
    intro hstrike
    exact hstrike.2 (h row hrow hstrike.1)
  rw [hsame, List.map_id']

/-- In a table a deletion strikes one row, and leaves a tombstone as it is. -/
theorem deleteMessageContent_rows (h : DistinctKeys (·.id) rows) (messageId : String) :
    (rows.deleteMessageContent messageId).2 = rows.map (struck messageId) := by
  rw [deleteMessageContent]
  cases hget : rows.getMessage messageId with
  | none =>
    have hnone : ∀ row ∈ rows, row.id ≠ messageId := by
      simpa [getMessage, rowOf] using hget
    exact (map_struck_of_unstruck fun row hrow hid => absurd hid (hnone row hrow)).symm
  | some message =>
    obtain ⟨hmem, rfl⟩ := rowOf_some hget
    have hone : ∀ row ∈ rows, row.id = message.id → row = message :=
      fun row hrow hsame => eq_of_rowOf h hget hrow hsame
    by_cases hdeleted : message.contentType = .deleted
    · rw [map_struck_of_unstruck fun row hrow hid => hone row hrow hid ▸ hdeleted]
      exact congrArg Prod.snd (if_pos hdeleted)
    · simp only [hdeleted, if_false, updateMessage]
      apply List.map_congr_left
      intro row hrow
      by_cases hsame : row.id = message.id
      · rw [hone row hrow hsame]
        simp [updates, struck, hdeleted]
        rfl
      · simp [updates, struck, hsame]

end ThreadTranscript

end Pbr
