import Mathlib.Data.List.Induction
import Mathlib.Data.List.Perm.Subperm
import PpBrowser.Messaging.ThreadTranscript

/-!
# InboundRetract — delete for everyone

The end of the receive pipeline's way with a chat message
(`ProcessGroupEnvelope`, and `ProcessDirectEnvelope` alike): a message its
sender withdrew before it came, the cap on reactions, the stored row, and
the withdrawal of a message already here.
-/

namespace Pbr

open Lib Lib.Json

def kMaxAnnotationsPerTarget : Nat := 32

def kAnnotationTypeReaction : String := "reaction"
def kAnnotationTypeReactionClear : String := "reaction_clear"
def kAnnotationTypeRetract : String := "retract"

structure ChatAnnotationFields where
  text : String := ""
  annotationType : String
  targetMessageId : String
  value : String
  deriving DecidableEq, Repr

/-- `ChatPayloadCodec::DecodeAnnotationJson`. -/
def decodeAnnotationJson (payloadJson : Option Object) : Roe ChatAnnotationFields :=
  match payloadJson with
  | none => .error "Invalid annotation JSON"
  | some json =>
    let fields : ChatAnnotationFields :=
      { annotationType := (json.getString "annotation_type").getD ""
        targetMessageId := (json.getString "target_message_id").getD ""
        value := (json.getString "value").getD "" }
    if fields.annotationType = "" ∨ fields.targetMessageId = "" then
      .error "Invalid annotation payload"
    else .ok fields

namespace ThreadMessage

/-- The payload reads as a retract's. -/
def saysRetract (m : ThreadMessage) : Bool :=
  match decodeAnnotationJson m.payloadJson with
  | .ok fields => fields.annotationType = kAnnotationTypeRetract
  | .error _ => false

/-- Only a message can be withdrawn, not a reaction or a system line. -/
def withdrawable (m : ThreadMessage) : Bool :=
  m.contentType ≠ .deleted ∧ m.contentType ≠ ChatContentType.annotation ∧ m.contentType ≠ .system

end ThreadMessage

/-- `annotation` withdraws `target`: a retract, aimed at it, from the
target's own sender. -/
def isRetractOf ( annotation target : ThreadMessage) : Bool :=
  annotation.contentType = ChatContentType.annotation ∧ annotation.targetMessageId = some target.id ∧
    annotation.senderContactId = target.senderContactId ∧ annotation.saysRetract

/-- What a receive says of retracts. -/
structure RetractOutcome where
  deletedBySender : Bool := false
  suppressInboxChrome : Bool := false
  /-- The row as it was, for `on_message_retracted_`. -/
  onMessageRetracted : Option ThreadMessage := none

section

variable (store : ThreadTranscript) (persisted : ThreadMessage) (outcome : RetractOutcome)

def rejectIfAnnotationCapExceeded : Roe Unit :=
  if persisted.contentType ≠ ChatContentType.annotation then .ok ()
  else
    let targetId := persisted.targetMessageId.getD ""
    if targetId = "" then .ok ()
    -- the cap guards against reaction floods; it must never stop a delete
    else if persisted.saysRetract then .ok ()
    else if store.countAnnotationsForTarget targetId ≥ kMaxAnnotationsPerTarget then
      .error "Annotation cap exceeded for target"
    else .ok ()

def applyInboundRetract : RetractOutcome × ThreadTranscript :=
  match persisted.contentType, persisted.targetMessageId with
  | ChatContentType.annotation, some targetId =>
    if ¬persisted.saysRetract then (outcome, store)
    else
      let outcome := { outcome with deletedBySender := true, suppressInboxChrome := true }
      -- a history placeholder for a message its sender deleted: it fills the seq
      if targetId = persisted.id then (outcome, (store.deleteMessageContent persisted.id).2)
      else
        match store.getMessage targetId with
        | none => (outcome, store)
        | some target =>
          if ¬target.withdrawable then (outcome, store)
          else if ¬isRetractOf persisted target then (outcome, store)
          else
            let (deleted, store) := store.deleteMessageContent target.id
            ({ outcome with onMessageRetracted := if deleted then some target else none }, store)
  | _, _ => (outcome, store)

/-- The message as it is stored: a tombstone when a stored retract withdraws it. -/
def tombstoneIfRetractedBeforeArrival : RetractOutcome × ThreadMessage :=
  if ¬persisted.withdrawable then (outcome, persisted)
  else if store.countAnnotationsForTarget persisted.id = 0 then (outcome, persisted)
  else if (store.getAnnotationsForTarget persisted.id).any (isRetractOf · persisted) then
    ({ outcome with deletedBySender := true, suppressInboxChrome := true },
      { persisted with
        contentType := .deleted
        text := ""
        payloadJson := none
        contentRml := none })
  else (outcome, persisted)

/-- A message the classifier lets in, to its row. -/
def persist : Roe RetractOutcome × ThreadTranscript :=
  let (outcome, persisted) := tombstoneIfRetractedBeforeArrival store persisted {}
  match rejectIfAnnotationCapExceeded store persisted with
  | .error e => (.error e, store)
  | .ok () =>
    match store.appendMessage persisted with
    | .error e => (.error e, store)
    | .ok (_, store) =>
      let (outcome, store) := applyInboundRetract store persisted outcome
      (.ok outcome, store)

end

/-- Messages persisted one after another. -/
def persistAll (messages : List ThreadMessage) : ThreadTranscript :=
  messages.foldl (fun store m => (persist store m).2) []

/-! ## What the decoders promise -/

/-- A message as the wire decoders leave it, with an id, and of a size a
row takes. -/
structure Accepted (m : ThreadMessage) : Prop where
  id_ne : m.id ≠ ""
  fits : m.text.utf8ByteSize ≤ kMaxComposeTextBytes
  unplaced : m.displayOrder = 0
  not_deleted : m.contentType ≠ .deleted
  /-- Only an annotation has a target. -/
  untargeted : m.contentType ≠ ChatContentType.annotation → m.targetMessageId = none
  contentRml : m.contentRml = none
  chatActions : m.chatActions = []
  workingSetJson : m.workingSetJson = none
  aiImageJson : m.aiImageJson = none
  aiInvokeMode : m.aiInvokeMode = none

/-! ## What the messages come to -/

/-- The retract `r` makes a tombstone of `m`: a message of its sender's, or
itself (the placeholder for a message deleted at its sender's). -/
def withdraws (r m : ThreadMessage) : Bool := isRetractOf r m ∧ (m.withdrawable ∨ r.id = m.id)

def withdrawn (messages : List ThreadMessage) (m : ThreadMessage) : Bool :=
  messages.any (withdraws · m)

/-- The row a message comes to, if it has one. -/
def settled (messages : List ThreadMessage) (m : ThreadMessage) : ThreadMessage :=
  if withdrawn messages m then m.tombstone else m

/-- A reaction, under the cap: any annotation with a target but a retract. -/
def isReaction (m : ThreadMessage) : Bool :=
  m.contentType = ChatContentType.annotation ∧ m.targetMessageId.getD "" ≠ "" ∧ ¬m.saysRetract

/-- The annotation stays a row naming `targetId`; a placeholder does not. -/
def names (targetId : String) (m : ThreadMessage) : Bool :=
  m.contentType = ChatContentType.annotation ∧ m.targetMessageId = some targetId ∧ ¬withdraws m m

/-- More annotations name the reaction's target than the cap lets in. -/
def flooded (messages : List ThreadMessage) (m : ThreadMessage) : Bool :=
  isReaction m ∧
    kMaxAnnotationsPerTarget < messages.countP (names (m.targetMessageId.getD ""))

/-- What one retract does to a row. -/
def strikeBy (r row : ThreadMessage) : ThreadMessage := if withdraws r row then row.tombstone else row

open ThreadMessage ThreadTranscript

variable {r m row : ThreadMessage} {messages kept : List ThreadMessage} {store : ThreadTranscript}
  {outcome : RetractOutcome} {messageId : String} {targetId : String}

@[simp] theorem tombstone_tombstone : m.tombstone.tombstone = m.tombstone := rfl

theorem annotated_of_withdraws (h : withdraws r m = true) : r.contentType = ChatContentType.annotation ∧ r.saysRetract := by
  simp only [withdraws, isRetractOf, decide_eq_true_eq] at h
  exact ⟨h.1.1, h.1.2.2.2⟩

theorem withdraws_target (h : withdraws r m = true) : r.targetMessageId = some m.id := by
  simp only [withdraws, isRetractOf, decide_eq_true_eq] at h
  exact h.1.2.1

@[simp] theorem withdraws_content : withdraws r row.content = withdraws r row := rfl

theorem content_strikeBy : (strikeBy r row).content = strikeBy r row.content := by
  by_cases h : withdraws r row
  · simp [strikeBy, h]
  · simp [strikeBy, h]

@[simp] theorem strikeBy_tombstone : strikeBy r row.tombstone = row.tombstone := by
  simp [strikeBy]

theorem settled_id : (settled messages m).id = m.id := by
  rw [settled]
  split <;> rfl

theorem settled_append : settled (messages ++ [r]) m = strikeBy r (settled messages m) := by
  have happend : withdrawn (messages ++ [r]) m = (withdrawn messages m || withdraws r m) := by
    simp [withdrawn]
  by_cases hwithdrawn : withdrawn messages m
  · simp [settled, happend, hwithdrawn]
  · simp [settled, happend, hwithdrawn, strikeBy]

theorem map_strikeBy_of_unstruck {rows : List ThreadMessage} (h : ∀ row ∈ rows, withdraws r row = false) :
    rows.map (strikeBy r) = rows := by
  have hsame : rows.map (strikeBy r) = rows.map fun row => row := by
    apply List.map_congr_left
    intro row hrow
    simp [strikeBy, h row hrow]
  rw [hsame, List.map_id']

theorem withdraws_of_target_ne (h : r.targetMessageId ≠ some row.id) : withdraws r row = false := by
  rw [Bool.eq_false_iff]
  intro hwithdraws
  exact h (withdraws_target hwithdraws)

theorem withdraws_of_not_retract (h : ¬(r.contentType = ChatContentType.annotation ∧ r.saysRetract)) :
    withdraws r row = false := by
  rw [Bool.eq_false_iff]
  intro hwithdraws
  exact h (annotated_of_withdraws hwithdraws)

/-! ## One message -/

/-- A message of an id not stored yet is stored as the stored retracts leave it. -/
theorem tombstoneIfRetractedBeforeArrival_eq (hm : Accepted m) (hfresh : ∀ row ∈ store, row.id ≠ m.id) :
    (tombstoneIfRetractedBeforeArrival store m outcome).2 = settled store m := by
  have hwithdrawn : withdrawn store m = (m.withdrawable && store.any (isRetractOf · m)) := by
    rw [withdrawn, Bool.eq_iff_iff]
    simp only [List.any_eq_true, Bool.and_eq_true, withdraws, decide_eq_true_eq]
    constructor
    · intro h
      obtain ⟨row, hrow, hretract, hcan⟩ := h
      rcases hcan with hcan | hsame
      · exact ⟨hcan, row, hrow, hretract⟩
      · exact absurd hsame (hfresh row hrow)
    · intro h
      obtain ⟨hcan, row, hrow, hretract⟩ := h
      exact ⟨row, hrow, hretract, .inl hcan⟩
  have hany : (store.getAnnotationsForTarget m.id).any (isRetractOf · m) =
      store.any (isRetractOf · m) := by
    rw [getAnnotationsForTarget, List.any_filter]
    congr 1
    funext row
    by_cases hretract : isRetractOf row m
    · have h := hretract
      simp only [isRetractOf, decide_eq_true_eq] at h
      simp [hretract, h.1, h.2.1]
    · simp [hretract]
  rw [tombstoneIfRetractedBeforeArrival, settled, hwithdrawn, ← hany]
  by_cases hcan : m.withdrawable
  · rw [if_neg (by simp [hcan]), hcan, Bool.true_and]
    have hcontent : m.contentType ≠ ChatContentType.annotation := by
      simp only [withdrawable, decide_eq_true_eq] at hcan
      exact hcan.2.1
    by_cases hnone : store.countAnnotationsForTarget m.id = 0
    · rw [if_pos hnone]
      have hempty : store.getAnnotationsForTarget m.id = [] := by
        rw [countAnnotationsForTarget, if_neg hm.id_ne] at hnone
        exact List.eq_nil_of_length_eq_zero hnone
      simp [hempty]
    · rw [if_neg hnone]
      split
      · simp only [tombstone, hm.untargeted hcontent, hm.chatActions, hm.workingSetJson,
          hm.aiImageJson, hm.aiInvokeMode]
      · rfl
  · rw [if_pos (by simp [hcan])]
    simp [hcan]

theorem rejectIfAnnotationCapExceeded_eq : rejectIfAnnotationCapExceeded store m = if isReaction m ∧
          kMaxAnnotationsPerTarget ≤ store.countAnnotationsForTarget (m.targetMessageId.getD "") then
        .error "Annotation cap exceeded for target" else .ok () := by
  rw [rejectIfAnnotationCapExceeded]
  by_cases hannotated : m.contentType = ChatContentType.annotation
  · by_cases htarget : m.targetMessageId.getD "" = ""
    · simp [hannotated, htarget, isReaction]
    · by_cases hretract : m.saysRetract
      · simp [hannotated, htarget, hretract, isReaction]
      · simp [hannotated, htarget, hretract, isReaction]
  · simp [hannotated, isReaction]

theorem appendMessage_eq (hid : ∀ row ∈ store, row.id ≠ m.id)
    (hfits : m.text.utf8ByteSize ≤ kMaxComposeTextBytes) (hunplaced : m.displayOrder = 0) :
    store.appendMessage m = .ok ({ m with displayOrder := store.nextDisplayOrder },
        store ++ [{ m with displayOrder := store.nextDisplayOrder }]) := by
  rw [appendMessage, if_neg (by omega), if_pos hunplaced]
  have hnew : store.hasMessageId m.id = false := by
    simpa [hasMessageId] using hid
  simp [hnew]

theorem map_strikeBy_of_named (htarget : m.targetMessageId = some targetId)
    (h : ∀ row ∈ store, row.id = targetId → strikeBy m row = struck targetId row) :
    store.map (strikeBy m) = store.map (struck targetId) := by
  apply List.map_congr_left
  intro row hrow
  by_cases hid : row.id = targetId
  · exact h row hrow hid
  · have hnot : withdraws m row = false := withdraws_of_target_ne (by simp [htarget, Ne.symm hid])
    simp [strikeBy, struck, hid, hnot]

theorem strikeBy_placeholder (hannotated : m.contentType = ChatContentType.annotation) (hsaid : m.saysRetract)
    (hown : m.targetMessageId = some m.id) (hrow : row.content = m.content) : strikeBy m row = struck m.id row := by
  have hid : row.id = m.id := congrArg (·.id) hrow
  have htype : row.contentType = ChatContentType.annotation := (congrArg (·.contentType) hrow).trans hannotated
  have hsender : row.senderContactId = m.senderContactId := congrArg (·.senderContactId) hrow
  have hwithdraws : withdraws m row = true := by
    simp [withdraws, isRetractOf, hannotated, hown, hid, hsender, hsaid]
  simp [strikeBy, struck, hwithdraws, hid, htype]

theorem applyInboundRetract_store (hstore : DistinctKeys (·.id) store)
    (hself : ∀ row ∈ store, row.id = m.id → row.content = m.content) :
    (applyInboundRetract store m outcome).2 = store.map (strikeBy m) := by
  by_cases hretract : m.contentType = ChatContentType.annotation ∧ m.saysRetract
  · obtain ⟨hannotated, hsaid⟩ := hretract
    rw [applyInboundRetract, hannotated]
    cases htarget : m.targetMessageId with
    | none => exact (map_strikeBy_of_unstruck fun row _ => withdraws_of_target_ne (by simp [htarget])).symm
    | some targetId =>
      simp only [hsaid, not_true_eq_false, if_false]
      by_cases hown : targetId = m.id
      · subst hown
        rw [if_pos rfl, deleteMessageContent_rows hstore, map_strikeBy_of_named htarget]
        intro row hrow hid
        exact strikeBy_placeholder hannotated hsaid htarget (hself row hrow hid)
      · rw [if_neg hown]
        cases hget : store.getMessage targetId with
        | none =>
          have hnone : ∀ row ∈ store, row.id ≠ targetId := by
            simpa [getMessage, rowOf] using hget
          exact (map_strikeBy_of_unstruck fun row hrow =>
            withdraws_of_target_ne (by simp [htarget, Ne.symm (hnone row hrow)])).symm
        | some target =>
          obtain ⟨-, rfl⟩ := rowOf_some hget
          have hone : ∀ row ∈ store, row.id = target.id → row = target :=
            fun row hrow hsame => eq_of_rowOf hstore hget hrow hsame
          -- when `target` stays, so does every row
          have hstays : withdraws m target = false → store = store.map (strikeBy m) := by
            intro hnot
            rw [map_strikeBy_of_unstruck]
            intro row hrow
            by_cases hid : row.id = target.id
            · rw [hone row hrow hid, hnot]
            · exact withdraws_of_target_ne (by simp [htarget, Ne.symm hid])
          by_cases hcan : target.withdrawable
          · by_cases hof : isRetractOf m target
            · simp only [hcan, hof, not_true_eq_false, if_false]
              rw [deleteMessageContent_rows hstore, map_strikeBy_of_named htarget]
              intro row hrow hid
              rw [hone row hrow hid]
              have hlive : target.contentType ≠ .deleted := by
                simp only [withdrawable, decide_eq_true_eq] at hcan
                exact hcan.1
              simp [strikeBy, struck, withdraws, hof, hcan, hlive]
            · simp only [hcan, hof, not_true_eq_false, if_false]
              exact hstays (by simp [withdraws, hof])
          · simp only [hcan]
            exact hstays (by simp [withdraws, hcan, Ne.symm hown])
  · rw [map_strikeBy_of_unstruck fun row _ => withdraws_of_not_retract hretract, applyInboundRetract]
    split
    · next targetId hannotated _ =>
        rw [if_pos]
        intro hsaid
        exact hretract ⟨hannotated, hsaid⟩
    · rfl

theorem not_annotation_of_withdrawn (hfresh : ∀ row ∈ store, row.id ≠ m.id)
    (h : withdrawn store m = true) : m.contentType ≠ ChatContentType.annotation := by
  obtain ⟨row, hrow, hwithdraws⟩ := List.any_eq_true.mp h
  simp only [withdraws, decide_eq_true_eq] at hwithdraws
  rcases hwithdraws.2 with hcan | hsame
  · simp only [withdrawable, decide_eq_true_eq] at hcan
    exact hcan.2.1
  · exact absurd hsame (hfresh row hrow)

theorem persist_contents (hstore : DistinctKeys (·.id) store) (hm : Accepted m)
    (hfresh : ∀ row ∈ store, row.id ≠ m.id) : (persist store m).2.contents = if isReaction m ∧
          kMaxAnnotationsPerTarget ≤ store.countAnnotationsForTarget (m.targetMessageId.getD "") then
        store.contents else store.contents.map (strikeBy m) ++ [strikeBy m (settled store m)] := by
  have harrived : (tombstoneIfRetractedBeforeArrival store m {}).2 = settled store m :=
    tombstoneIfRetractedBeforeArrival_eq hm hfresh
  rw [persist]
  generalize tombstoneIfRetractedBeforeArrival store m {} = arrived at harrived
  obtain ⟨outcome, p⟩ := arrived
  simp only at harrived
  -- as a reaction, and as a retract, the row counts as the message did
  have hsame : isReaction p = isReaction m ∧ (isReaction m → p.targetMessageId = m.targetMessageId) ∧
      strikeBy p = strikeBy m := by
    by_cases hwithdrawn : withdrawn store m
    · have hplain := not_annotation_of_withdrawn hfresh hwithdrawn
      have hp : p = m.tombstone := by rw [harrived, settled, if_pos hwithdrawn]
      have hreaction : isReaction m = false := by simp [isReaction, hplain]
      refine ⟨by rw [hreaction, hp]; simp [isReaction], by simp [hreaction], ?_⟩
      funext row
      have hnot : withdraws p row = false := withdraws_of_not_retract (by simp [hp])
      have hnot' : withdraws m row = false := withdraws_of_not_retract (by simp [hplain])
      simp [strikeBy, hnot, hnot']
    · have hp : p = m := by rw [harrived, settled, if_neg hwithdrawn]
      simp [hp]
  obtain ⟨hreaction, htarget, hstrike⟩ := hsame
  simp only [rejectIfAnnotationCapExceeded_eq, hreaction]
  by_cases hfull : isReaction m ∧
      kMaxAnnotationsPerTarget ≤ store.countAnnotationsForTarget (m.targetMessageId.getD "")
  · rw [if_pos hfull, if_pos ⟨hfull.1, by rw [htarget hfull.1]; exact hfull.2⟩]
  · have hopen : ¬(isReaction m = true ∧
        kMaxAnnotationsPerTarget ≤ store.countAnnotationsForTarget (p.targetMessageId.getD "")) := by
      intro h
      rw [htarget h.1] at h
      exact hfull h
    have hid : p.id = m.id := by rw [harrived, settled_id]
    have hfits : p.text.utf8ByteSize ≤ kMaxComposeTextBytes := by
      rw [harrived, settled]
      split
      · exact Nat.zero_le _
      · exact hm.fits
    have hunplaced : p.displayOrder = 0 := by
      rw [harrived, settled]
      split <;> exact hm.unplaced
    have hcontent : p.content = p := by rw [content, ← hunplaced]
    have happended := appendMessage_eq (by rw [hid]; exact hfresh) hfits hunplaced
    rw [if_neg hfull, if_neg hopen]
    simp only [happended]
    have hdistinct : DistinctKeys (·.id)
        (store ++ [{ p with displayOrder := store.nextDisplayOrder }]) := by
      rw [DistinctKeys, List.pairwise_append]
      refine ⟨hstore, List.pairwise_singleton .., ?_⟩
      intro row hrow last hlast
      rw [List.mem_singleton.mp hlast]
      simpa [hid] using hfresh row hrow
    rw [applyInboundRetract_store hdistinct, hstrike]
    · simp only [contents, List.map_append, List.map_map, List.map_cons, List.map_nil]
      congr 1
      · apply List.map_congr_left
        intro row _
        exact content_strikeBy
      · simp only [content_strikeBy, ← harrived]
        congr 2
    · intro row hrow hrowId
      rcases List.mem_append.mp hrow with hrow | hrow
      · exact absurd (hrowId.trans hid) (hfresh row hrow)
      · rw [List.mem_singleton.mp hrow]
        rfl

/-! ## A whole run -/

/-- The rows of a run: what the messages it kept come to. A message not kept
is a reaction to a target that was full by then. -/
structure Keeps (messages kept : List ThreadMessage) (store : ThreadTranscript) : Prop where
  sublist : kept.Sublist messages
  contents : store.contents = kept.map (settled messages)
  full : ∀ m ∈ messages, m ∉ kept →
    isReaction m ∧ kMaxAnnotationsPerTarget ≤ kept.countP (names (m.targetMessageId.getD ""))

theorem withdrawn_annotation (hids : DistinctKeys (·.id) messages) (hm : m ∈ messages)
    (hannotated : m.contentType = ChatContentType.annotation) : withdrawn messages m = withdraws m m := by
  rw [Bool.eq_iff_iff, withdrawn, List.any_eq_true]
  constructor
  · intro h
    obtain ⟨r, hr, hwithdraws⟩ := h
    have hown : r.id = m.id := by
      simp only [withdraws, withdrawable, decide_eq_true_eq] at hwithdraws
      rcases hwithdraws.2 with hcan | hown
      · exact absurd hannotated hcan.2.1
      · exact hown
    have hsame : r = m := eq_of_rowOf hids (rowOf_of_mem hids hm) hr hown
    rw [hsame] at hwithdraws
    exact hwithdraws
  · intro h
    exact ⟨m, hm, h⟩

theorem Keeps.count (h : Keeps messages kept store) (hids : DistinctKeys (·.id) messages) (htarget : targetId ≠ "") :
    store.countAnnotationsForTarget targetId = kept.countP (names targetId) := by
  rw [← countAnnotationsForTarget_contents, countAnnotationsForTarget, if_neg htarget,
    getAnnotationsForTarget, ← List.countP_eq_length_filter, h.contents, List.countP_map]
  apply List.countP_congr
  intro m hm
  have hmem : m ∈ messages := h.sublist.subset hm
  by_cases hannotated : m.contentType = ChatContentType.annotation
  · have hown := withdrawn_annotation hids hmem hannotated
    by_cases hplaceholder : withdraws m m
    · simp [settled, hown, hplaceholder, names]
    · simp [settled, hown, hplaceholder, names]
  · by_cases hwithdrawn : withdrawn messages m
    · simp [settled, hwithdrawn, names, hannotated]
    · simp [settled, hwithdrawn, names, hannotated]

theorem Keeps.ids (h : Keeps messages kept store) : store.map (·.id) = kept.map (·.id) := by
  have hcontents := congrArg (List.map (·.id)) h.contents
  simp only [ThreadTranscript.contents, List.map_map] at hcontents
  calc store.map (·.id) = store.map ((·.id) ∘ ThreadMessage.content) := rfl
    _ = kept.map ((·.id) ∘ settled messages) := hcontents
    _ = kept.map (·.id) := List.map_congr_left fun _ _ => settled_id

theorem distinctKeys_iff {rows : List ThreadMessage} :
    DistinctKeys (·.id) rows ↔ (rows.map (·.id)).Pairwise (· ≠ ·) := by
  rw [DistinctKeys, List.pairwise_map]

section

variable (h : Keeps messages kept store)
include h

/-- The stored retracts are those of the messages that came. -/
theorem Keeps.settled_new (hids : DistinctKeys (·.id) messages)
    (hfresh : ∀ old ∈ messages, old.id ≠ m.id) : settled store m = settled messages m := by
  have hsame : withdrawn store m = withdrawn messages m := by
    have hcontents : withdrawn store m = withdrawn store.contents m := by
      rw [withdrawn, withdrawn, ThreadTranscript.contents, List.any_map]
      rfl
    rw [hcontents, h.contents, withdrawn, List.any_map, Bool.eq_iff_iff, withdrawn,
      List.any_eq_true, List.any_eq_true]
    constructor
    · intro hrow
      obtain ⟨r, hr, hwithdraws⟩ := hrow
      refine ⟨r, h.sublist.subset hr, ?_⟩
      by_cases hwithdrawn : withdrawn messages r
      · have htype := annotated_of_withdraws hwithdraws
        simp [settled, hwithdrawn] at htype
      · simpa [settled, hwithdrawn] using hwithdraws
    · intro hr
      obtain ⟨r, hr, hwithdraws⟩ := hr
      obtain ⟨hannotated, hsaid⟩ := annotated_of_withdraws hwithdraws
      -- a retract is always kept, and this one is no placeholder
      have hkept : r ∈ kept := by
        by_contra hnot
        have hfull := (h.full r hr hnot).1
        simp [isReaction, hsaid] at hfull
      have hown : withdraws r r = false := by
        apply withdraws_of_target_ne
        rw [withdraws_target hwithdraws]
        simpa using Ne.symm (hfresh r hr)
      refine ⟨r, hkept, ?_⟩
      simpa [settled, withdrawn_annotation hids hr hannotated, hown] using hwithdraws
  rw [settled, settled, hsame]

theorem Keeps.distinct (hids : DistinctKeys (·.id) messages) : DistinctKeys (·.id) store := by
  rw [distinctKeys_iff, h.ids, ← distinctKeys_iff]
  exact hids.sublist h.sublist

theorem Keeps.fresh (hfresh : ∀ old ∈ messages, old.id ≠ m.id) : ∀ row ∈ store, row.id ≠ m.id := by
  intro row hrow
  have hrowId : row.id ∈ kept.map (·.id) := by
    rw [← h.ids]
    exact List.mem_map_of_mem hrow
  obtain ⟨old, hold, hid⟩ := List.mem_map.mp hrowId
  rw [← hid]
  exact hfresh old (h.sublist.subset hold)

theorem Keeps.persist (hids : DistinctKeys (·.id) messages)
    (hm : Accepted m) (hfresh : ∀ old ∈ messages, old.id ≠ m.id) :
    ∃ kept', Keeps (messages ++ [m]) kept' (persist store m).2 := by
  have hsettled : kept.map (settled (messages ++ [m])) = store.contents.map (strikeBy m) := by
    rw [h.contents, List.map_map]
    exact List.map_congr_left fun _ _ => settled_append
  have hcontents := persist_contents (h.distinct hids) hm (h.fresh hfresh)
  by_cases hfull : isReaction m ∧
      kMaxAnnotationsPerTarget ≤ store.countAnnotationsForTarget (m.targetMessageId.getD "")
  · rw [if_pos hfull] at hcontents
    have htarget : m.targetMessageId.getD "" ≠ "" ∧ ¬m.saysRetract := by
      have hreaction := hfull.1
      simp only [isReaction, decide_eq_true_eq] at hreaction
      exact hreaction.2
    refine ⟨kept, h.sublist.trans (List.sublist_append_left ..), ?_, ?_⟩
    · rw [hcontents, hsettled,
        map_strikeBy_of_unstruck fun _ _ => withdraws_of_not_retract fun hr => htarget.2 hr.2]
    · intro old hold hnot
      rcases List.mem_append.mp hold with hold | hold
      · exact h.full old hold hnot
      · rw [List.mem_singleton.mp hold, ← h.count hids htarget.1]
        exact hfull
  · rw [if_neg hfull] at hcontents
    refine ⟨kept ++ [m], h.sublist.append (List.Sublist.refl _), ?_, ?_⟩
    · rw [hcontents, List.map_append, hsettled, h.settled_new hids hfresh, List.map_singleton,
        settled_append]
    · intro old hold hnot
      rw [List.mem_append, not_or] at hnot
      rcases List.mem_append.mp hold with hold | hold
      · obtain ⟨hreaction, hcount⟩ := h.full old hold hnot.1
        refine ⟨hreaction, hcount.trans ?_⟩
        rw [List.countP_append]
        exact Nat.le_add_right _ _
      · exact absurd hold hnot.2

end

theorem exists_keeps (hids : DistinctKeys (·.id) messages) (haccepted : ∀ m ∈ messages, Accepted m) :
    ∃ kept, Keeps messages kept (persistAll messages) := by
  induction messages using List.reverseRecOn with
  | nil => exact ⟨[], List.Sublist.refl _, rfl, by simp⟩
  | append_singleton messages m ih =>
    rw [DistinctKeys, List.pairwise_append] at hids
    obtain ⟨kept, hkept⟩ := ih hids.1 fun old hold => haccepted old (by simp [hold])
    have hfresh : ∀ old ∈ messages, old.id ≠ m.id := fun old hold => hids.2.2 old hold m (by simp)
    have hstep := hkept.persist hids.1 (haccepted m (by simp)) hfresh
    rw [persistAll, List.foldl_append]
    exact hstep

theorem Keeps.stored_of_mem (h : Keeps messages kept store) (hids : DistinctKeys (·.id) messages)
    (hm : m ∈ kept) : store.stored m.id = some (settled messages m) := by
  have hrows : DistinctKeys (·.id) store.contents := by
    rw [h.contents, DistinctKeys, List.pairwise_map]
    exact (hids.sublist h.sublist).imp fun hne => by rwa [settled_id, settled_id]
  rw [stored_eq, rowOf_eq_some hrows, h.contents]
  exact ⟨List.mem_map_of_mem hm, settled_id⟩

theorem Keeps.stored_of_not_mem (h : Keeps messages kept store)
    (hnot : ∀ m ∈ kept, m.id ≠ messageId) : store.stored messageId = none := by
  rw [stored_eq, rowOf, h.contents, List.find?_eq_none]
  intro row hrow
  obtain ⟨m, hm, rfl⟩ := List.mem_map.mp hrow
  simpa [settled_id] using hnot m hm

theorem countP_lt_of_sublist {p : ThreadMessage → Bool} (h : kept.Sublist messages) (hm : m ∈ messages)
    (hp : p m = true) (hnot : m ∉ kept) : kept.countP p < messages.countP p := by
  induction h with
  | slnil => simp at hm
  | @cons kept messages a h ih =>
    rcases List.mem_cons.mp hm with rfl | hm
    · rw [List.countP_cons_of_pos hp]
      exact Nat.lt_succ_of_le h.countP_le
    · rw [List.countP_cons]
      exact Nat.lt_of_lt_of_le (ih hm hnot) (Nat.le_add_right _ _)
  | @cons_cons kept messages a h ih =>
    rw [List.mem_cons, not_or] at hnot
    have hm : m ∈ messages := (List.mem_cons.mp hm).resolve_left hnot.1
    have hlt := ih hm hnot.2
    rw [List.countP_cons, List.countP_cons]
    omega

theorem names_of_isReaction (h : isReaction m = true) : names (m.targetMessageId.getD "") m = true := by
  simp only [isReaction, decide_eq_true_eq] at h
  obtain ⟨hannotated, htarget, hsaid⟩ := h
  have hown : withdraws m m = false := withdraws_of_not_retract fun hr => hsaid hr.2
  cases hnamed : m.targetMessageId with
  | none => simp [hnamed] at htarget
  | some targetId => simp [names, hannotated, hnamed, hown]

theorem Keeps.mem_of_not_flooded (h : Keeps messages kept store) (hm : m ∈ messages)
    (hroom : flooded messages m = false) : m ∈ kept := by
  by_contra hnot
  obtain ⟨hreaction, hfull⟩ := h.full m hm hnot
  have hlt := countP_lt_of_sublist h.sublist hm (names_of_isReaction hreaction) hnot
  simp only [flooded, hreaction, decide_eq_false_iff_not, true_and] at hroom
  omega

/-- The last of too many reactions to a target is refused. -/
theorem stored_last_of_flooded (hids : DistinctKeys (·.id) (messages ++ [m]))
    (haccepted : ∀ old ∈ messages ++ [m], Accepted old) (hflooded : flooded (messages ++ [m]) m = true) :
    (persistAll (messages ++ [m])).stored m.id = none := by
  have hbefore := hids
  rw [DistinctKeys, List.pairwise_append] at hbefore
  obtain ⟨kept, hkept⟩ := exists_keeps hbefore.1 fun old hold => haccepted old (by simp [hold])
  have hfresh : ∀ old ∈ messages, old.id ≠ m.id := fun old hold => hbefore.2.2 old hold m (by simp)
  obtain ⟨hreaction, hmany⟩ : isReaction m = true ∧
      kMaxAnnotationsPerTarget < (messages ++ [m]).countP (names (m.targetMessageId.getD "")) := by
    simpa [flooded] using hflooded
  -- the others fill the target, or one of them was refused already
  have hfull : kMaxAnnotationsPerTarget ≤ kept.countP (names (m.targetMessageId.getD "")) := by
    by_contra hroom
    have hall : ∀ old ∈ messages, names (m.targetMessageId.getD "") old → old ∈ kept := by
      intro old hold hnames
      by_contra hnot
      obtain ⟨-, hfull⟩ := hkept.full old hold hnot
      have hsame : old.targetMessageId = some (m.targetMessageId.getD "") := by
        simp only [names, decide_eq_true_eq] at hnames
        exact hnames.2.1
      rw [hsame, Option.getD_some] at hfull
      exact hroom hfull
    have hcount : messages.countP (names (m.targetMessageId.getD "")) ≤
        kept.countP (names (m.targetMessageId.getD "")) := by
      rw [List.countP_eq_length_filter, List.countP_eq_length_filter]
      have hnodup : messages.Nodup := hbefore.1.imp fun hne heq => hne (congrArg (·.id) heq)
      apply (List.subperm_of_subset (hnodup.filter _) _).length_le
      intro old hold
      obtain ⟨hold, hnames⟩ := List.mem_filter.mp hold
      exact List.mem_filter.mpr ⟨hall old hold hnames, hnames⟩
    rw [List.countP_append, List.countP_singleton] at hmany
    split at hmany
    · omega
    · omega
  have htarget : m.targetMessageId.getD "" ≠ "" := by
    simp only [isReaction, decide_eq_true_eq] at hreaction
    exact hreaction.2.1
  have hcontents := persist_contents (hkept.distinct hbefore.1) (haccepted m (by simp))
    (hkept.fresh hfresh)
  rw [hkept.count hbefore.1 htarget, if_pos ⟨hreaction, hfull⟩] at hcontents
  have hnone := hkept.stored_of_not_mem fun old hold => hfresh old (hkept.sublist.subset hold)
  rw [persistAll, List.foldl_append, stored_eq]
  rw [stored_eq] at hnone
  exact (congrArg (rowOf (·.id) m.id) hcontents).trans hnone

/-! ## Any order -/

variable {other : List ThreadMessage}

theorem withdrawn_perm (hperm : messages.Perm other) : withdrawn other m = withdrawn messages m := by
  rw [Bool.eq_iff_iff, withdrawn, withdrawn, List.any_eq_true, List.any_eq_true]
  exact exists_congr fun r => and_congr_left' hperm.mem_iff.symm

theorem flooded_perm (hperm : messages.Perm other) : flooded other m = flooded messages m := by
  rw [flooded, flooded, hperm.countP_eq]

theorem distinctKeys_perm (hperm : messages.Perm other) (hids : DistinctKeys (·.id) messages) :
    DistinctKeys (·.id) other := hids.perm hperm fun hne => hne.symm

theorem stored_eq_settled (hids : DistinctKeys (·.id) messages)
    (haccepted : ∀ m ∈ messages, Accepted m) (hm : m ∈ messages) (hroom : flooded messages m = false) :
    (persistAll messages).stored m.id = some (settled messages m) := by
  obtain ⟨kept, hkept⟩ := exists_keeps hids haccepted
  exact hkept.stored_of_mem hids (hkept.mem_of_not_flooded hm hroom)

theorem stored_of_perm (hids : DistinctKeys (·.id) messages)
    (haccepted : ∀ m ∈ messages, Accepted m) (hperm : messages.Perm other)
    (hroom : ∀ m ∈ messages, m.id = messageId → flooded messages m = false) :
    (persistAll other).stored messageId = (persistAll messages).stored messageId := by
  have hids' := distinctKeys_perm hperm hids
  have haccepted' : ∀ m ∈ other, Accepted m := fun m hm => haccepted m (hperm.mem_iff.mpr hm)
  by_cases hmessage : ∃ m ∈ messages, m.id = messageId
  · obtain ⟨m, hm, rfl⟩ := hmessage
    have hroom' : flooded other m = false := (flooded_perm hperm).trans (hroom m hm rfl)
    rw [stored_eq_settled hids haccepted hm (hroom m hm rfl),
      stored_eq_settled hids' haccepted' (hperm.mem_iff.mp hm) hroom', settled, settled,
      withdrawn_perm hperm]
  · obtain ⟨kept, hkept⟩ := exists_keeps hids haccepted
    obtain ⟨kept', hkept'⟩ := exists_keeps hids' haccepted'
    rw [hkept.stored_of_not_mem, hkept'.stored_of_not_mem]
    · intro m hm hid
      exact hmessage ⟨m, hperm.mem_iff.mpr (hkept'.sublist.subset hm), hid⟩
    · intro m hm hid
      exact hmessage ⟨m, hkept.sublist.subset hm, hid⟩

theorem settled_of_withdrawable (hm : m.withdrawable = true) :
    settled messages m = if ∃ r ∈ messages, isRetractOf r m then m.tombstone else m := by
  have hsame : withdrawn messages m = true ↔ ∃ r ∈ messages, isRetractOf r m = true := by
    simp [withdrawn, withdraws, hm]
  simp only [settled, hsame]

theorem settled_of_not_withdrawable (hids : DistinctKeys (·.id) messages) (hmem : m ∈ messages)
    (hm : m.withdrawable = false) : settled messages m = if isRetractOf m m then m.tombstone else m := by
  have hsame : withdrawn messages m = isRetractOf m m := by
    rw [Bool.eq_iff_iff, withdrawn, List.any_eq_true]
    constructor
    · intro h
      obtain ⟨r, hr, hwithdraws⟩ := h
      simp only [withdraws, hm, decide_eq_true_eq] at hwithdraws
      have hown : r.id = m.id := by simpa using hwithdraws.2
      rw [eq_of_rowOf hids (rowOf_of_mem hids hmem) hr hown] at hwithdraws
      exact hwithdraws.1
    · intro h
      exact ⟨m, hmem, by simp [withdraws, h]⟩
  rw [settled, hsame]

theorem rejectIfAnnotationCapExceeded_retract (h : r.saysRetract = true) :
    rejectIfAnnotationCapExceeded store r = .ok () := by
  rw [rejectIfAnnotationCapExceeded_eq, if_neg]
  simp [isReaction, h]

/-- An annotation of `messageId`'s, as it is decoded. -/
def annotationOf (id sender annotationType targetId : String) : ThreadMessage where
  id := id
  senderContactId := sender
  contentType := ChatContentType.annotation
  payloadJson := some ⟨[("annotation_type", .str annotationType), ("target_message_id", .str targetId)]⟩
  targetMessageId := some targetId

theorem accepted_annotationOf {id sender annotationType targetId : String} (h : id ≠ "") :
    Accepted (annotationOf id sender annotationType targetId) where
  id_ne := h
  fits := Nat.zero_le _
  unplaced := rfl
  not_deleted := by simp [annotationOf]
  untargeted := fun hplain => absurd rfl hplain
  contentRml := rfl
  chatActions := rfl
  workingSetJson := rfl
  aiImageJson := rfl
  aiInvokeMode := rfl

/-- A line, its sender's retract of it, and another's. -/
def sampleMessages : List ThreadMessage :=
  [annotationOf "r1" "ann" "retract" "m1", { id := "m1", senderContactId := "ann", text := "hello" },
    annotationOf "r2" "bob" "retract" "m1"]

def reactionAt (n : Nat) : ThreadMessage :=
  annotationOf (String.ofList (List.replicate (n + 1) 'r')) "ann" kAnnotationTypeReaction "m1"

/-- One reaction more than a target takes. -/
def sampleReactions : List ThreadMessage := (List.range (kMaxAnnotationsPerTarget + 1)).map reactionAt

end Pbr
