import PpBrowser.Delivery.PeerRequestAuth
import PpBrowser.Messaging.ThreadTranscript

/-!
# ChatBlobResponder — a chat file under its message's own key

`AttachmentContentCipher.cpp` with the attachment fields of a message
(`ChatPayloadCodec.cpp`), how a file is prepared for sending
(`ChatAttachmentPrepare.cpp`) and what the receiver checks of the bytes it
fetched (`AttachmentFetch.cpp`). The AEAD, the content hash and the hex text
are parameters.
-/

namespace Pbr

open Lib.Json

def kAttachmentContentHashSize : Nat := 32
def kAttachmentContentKeySize : Nat := 32
def kAttachmentBlobNonceSize : Nat := 24
def kAttachmentCipherOverheadBytes : Nat := 16

structure ChatAttachmentFields where
  url : String := ""
  mime : String := ""
  filename : String := ""
  byteLength : Nat := 0
  contentHash : ByteVector := []
  contentKey : ByteVector := []
  blobNonce : ByteVector := []
  deriving DecidableEq, Repr

/-! ## JSON -/

def bytesToJsonArray (bytes : ByteVector) : Value := .array (bytes.map fun byte => .num byte.toNat)

/-- The bytes of an array; elements that are no number are passed over. -/
def readByteArray (json : Object) (key : String) : ByteVector :=
  ((json.getArray key).getD []).filterMap fun byte =>
    match byte with
    | .num n => if 0 ≤ n then some (.ofNat n.toNat) else none
    | _ => none

def attachmentFieldsJsonObject (fields : ChatAttachmentFields) : Object :=
  ({} : Object)
    |>.set "url" (.str fields.url)
    |>.set "mime" (.str fields.mime)
    |>.set "filename" (.str fields.filename)
    |>.set "byte_length" (uintValue fields.byteLength)
    |>.set "content_hash" (bytesToJsonArray fields.contentHash)
    |>.set "content_key" (bytesToJsonArray fields.contentKey)
    |>.set "blob_nonce" (bytesToJsonArray fields.blobNonce)

/-- What `DecodeAttachmentJson` takes; the url may be empty. -/
def ChatAttachmentFields.Valid (fields : ChatAttachmentFields) : Prop :=
  fields.mime ≠ "" ∧ fields.byteLength ≠ 0 ∧ fields.contentHash.length = kAttachmentContentHashSize ∧
    fields.contentKey.length = kAttachmentContentKeySize ∧
    fields.blobNonce.length = kAttachmentBlobNonceSize

instance (fields : ChatAttachmentFields) : Decidable fields.Valid := inferInstanceAs (Decidable (_ ∧ _))

def decodeAttachmentJson (payloadJson : Option Object) : Roe ChatAttachmentFields :=
  match payloadJson with
  | none => .error "Invalid attachment JSON"
  | some json =>
    let fields : ChatAttachmentFields := {
      url := (json.getString "url").getD ""
      mime := (json.getString "mime").getD ""
      filename := (json.getString "filename").getD ""
      byteLength := (json.getNonNegInt "byte_length").getD 0
      contentHash := readByteArray json "content_hash"
      contentKey := readByteArray json "content_key"
      blobNonce := readByteArray json "blob_nonce" }
    if fields.Valid then .ok fields else .error "Invalid attachment payload"

theorem readByteArray_of_get {json : Object} {key : String} {bytes : ByteVector}
    (h : json.get? key = some (bytesToJsonArray bytes)) : readByteArray json key = bytes := by
  rw [readByteArray, Object.getArray, h]
  simp [bytesToJsonArray, List.filterMap_map]

theorem decodeAttachmentJson_valid {payload : Option Object} {fields : ChatAttachmentFields}
    (h : decodeAttachmentJson payload = .ok fields) : fields.Valid := by
  cases payload with
  | none => cases h
  | some json =>
    simp only [decodeAttachmentJson] at h
    split at h
    · cases h
      assumption
    · cases h

theorem decodeAttachmentJson_attachmentFieldsJsonObject {fields : ChatAttachmentFields}
    (h : fields.Valid) : decodeAttachmentJson (some (attachmentFieldsJsonObject fields)) = .ok fields := by
  have hhash : readByteArray (attachmentFieldsJsonObject fields) "content_hash" = fields.contentHash :=
    readByteArray_of_get (by simp [attachmentFieldsJsonObject])
  have hkey : readByteArray (attachmentFieldsJsonObject fields) "content_key" = fields.contentKey :=
    readByteArray_of_get (by simp [attachmentFieldsJsonObject])
  have hnonce : readByteArray (attachmentFieldsJsonObject fields) "blob_nonce" = fields.blobNonce :=
    readByteArray_of_get (by simp [attachmentFieldsJsonObject])
  have hread : (⟨((attachmentFieldsJsonObject fields).getString "url").getD "",
      ((attachmentFieldsJsonObject fields).getString "mime").getD "",
      ((attachmentFieldsJsonObject fields).getString "filename").getD "",
      ((attachmentFieldsJsonObject fields).getNonNegInt "byte_length").getD 0,
      fields.contentHash, fields.contentKey, fields.blobNonce⟩ : ChatAttachmentFields) = fields := by
    simp [attachmentFieldsJsonObject]
  simp only [decodeAttachmentJson, hhash, hkey, hnonce, hread]
  rw [if_pos h]

/-! ## The cipher -/

/-- What is called and not defined here. -/
structure ContentCrypto where
  contentHash : ByteVector → Roe ByteVector
  /-- `MessageCipher::Encrypt`: key, plaintext, AAD, nonce; the ciphertext. -/
  aeadSeal : ByteVector → ByteVector → ByteVector → ByteVector → Roe ByteVector
  /-- `MessageCipher::Decrypt`: key, nonce, ciphertext, AAD. -/
  aeadOpen : ByteVector → ByteVector → ByteVector → ByteVector → Roe ByteVector
  bytesToHex : ByteVector → String
  hexToBytes : String → Option ByteVector

/-- The AEAD opens exactly what it sealed, adds its tag, and takes keys and
nonces of their sizes; a hash has its size; hex text is read back. -/
structure ContentCrypto.Correct (C : ContentCrypto) : Prop where
  open_ok : ∀ key nonce ciphertext aad plaintext,
    C.aeadOpen key nonce ciphertext aad = .ok plaintext ↔ C.aeadSeal key plaintext aad nonce = .ok ciphertext
  length : ∀ {key plaintext aad nonce ciphertext}, C.aeadSeal key plaintext aad nonce = .ok ciphertext →
    ciphertext.length = plaintext.length + kAttachmentCipherOverheadBytes
  seals : ∀ key plaintext aad nonce, key.length = kAttachmentContentKeySize →
    nonce.length = kAttachmentBlobNonceSize → ∃ ciphertext, C.aeadSeal key plaintext aad nonce = .ok ciphertext
  hashSize : ∀ {plaintext hash}, C.contentHash plaintext = .ok hash → hash.length = kAttachmentContentHashSize
  hex : ∀ bytes, C.hexToBytes (C.bytesToHex bytes) = some bytes

variable (C : ContentCrypto)

namespace AttachmentContentCipher

/-- `Encrypt`, with the nonce it draws, is this too. -/
def encryptWithNonce (contentKey plaintext nonce : ByteVector) : Roe ByteVector :=
  if contentKey.length ≠ kSessionKeySize then .error "Invalid attachment content key size"
  else do
    let hash ← C.contentHash plaintext
    C.aeadSeal contentKey plaintext hash nonce

def decrypt (contentKey nonce ciphertext contentHash : ByteVector) : Roe ByteVector :=
  if contentHash.length ≠ kAttachmentContentHashSize then .error "Invalid attachment content hash size"
  else if contentKey.length ≠ kSessionKeySize then .error "Invalid attachment content key size"
  else do
    let plaintext ← C.aeadOpen contentKey nonce ciphertext contentHash
    let hash ← C.contentHash plaintext
    if hash ≠ contentHash then .error "Attachment content hash mismatch" else .ok plaintext

end AttachmentContentCipher

/-- `PrepareChatAttachmentFromBytes` with the key and the nonce it draws: the
message's fields and the ciphertext. `mimeOf` guesses a type by the name. -/
def prepareChatAttachmentFromBytes (plaintext : ByteVector) (filename mime : String) (maxBytes : Nat)
    (contentKey nonce : ByteVector) (mimeOf : String → String) : Roe (ChatAttachmentFields × ByteVector) :=
  if plaintext = [] then .error "Attachment file is empty"
  else if plaintext.length > maxBytes then .error "Attachment is over the size limit"
  else do
    let ciphertext ← AttachmentContentCipher.encryptWithNonce C contentKey plaintext nonce
    let contentHash ← C.contentHash plaintext
    let filename := if filename = "" then "attachment" else filename
    return ({ filename, contentHash, contentKey
              mime := if mime = "" then mimeOf filename else mime
              byteLength := plaintext.length
              blobNonce := nonce }, ciphertext)

def expectedCiphertextBytes (fields : ChatAttachmentFields) : Nat :=
  fields.byteLength + kAttachmentCipherOverheadBytes

/-- What `FetchAndDecryptAttachmentAsync` makes of the bytes it was given: the
length the message declared, then the decryption. -/
def decryptFetched (fields : ChatAttachmentFields) (ciphertext : ByteVector) : Roe ByteVector :=
  if fields.byteLength = 0 ∨ ciphertext.length ≠ expectedCiphertextBytes fields then
    .error "Attachment size does not match what the message declared"
  else AttachmentContentCipher.decrypt C fields.contentKey fields.blobNonce ciphertext fields.contentHash

variable {C}

/-- Bytes pass the receiver's checks exactly when they are the file sealed
under the message's own key and nonce, where no other file has its hash. -/
theorem decryptFetched_ok_iff (hC : C.Correct) {fields : ChatAttachmentFields} (hvalid : fields.Valid)
    {plaintext ciphertext : ByteVector} (hhash : C.contentHash plaintext = .ok fields.contentHash)
    (hlen : fields.byteLength = plaintext.length)
    (honly : ∀ other, C.contentHash other = .ok fields.contentHash → other = plaintext) :
    (∃ opened, decryptFetched C fields ciphertext = .ok opened) ↔
      C.aeadSeal fields.contentKey plaintext fields.contentHash fields.blobNonce = .ok ciphertext := by
  obtain ⟨-, hnonzero, hhashSize, hkeySize, -⟩ := hvalid
  have hkey : fields.contentKey.length = kSessionKeySize := hkeySize
  unfold decryptFetched
  constructor
  · rintro ⟨opened, hopened⟩
    split at hopened
    · cases hopened
    · rw [AttachmentContentCipher.decrypt, if_neg (by simp [hhashSize]), if_neg (by simp [hkey])] at hopened
      obtain ⟨found, hfound, hopened⟩ := roe_bind_ok.mp hopened
      obtain ⟨hash, hread, hopened⟩ := roe_bind_ok.mp hopened
      split at hopened
      · cases hopened
      · rename_i hsame
        simp only [ne_eq, not_not] at hsame
        subst hsame
        obtain rfl := honly found hread
        exact (hC.open_ok _ _ _ _ _).mp hfound
  · intro hsealed
    have hlength := hC.length hsealed
    refine ⟨plaintext, ?_⟩
    have hsize : ciphertext.length = expectedCiphertextBytes fields := by
      rw [hlength, expectedCiphertextBytes, hlen]
    rw [if_neg (by simp [hnonzero, hsize]),
      AttachmentContentCipher.decrypt, if_neg (by simp [hhashSize]), if_neg (by simp [hkey]),
      (hC.open_ok _ _ _ _ _).mpr hsealed]
    simp [hhash]

/-! ## Who may fetch a chat file, and what they get -/

def kLocalSelfContactId : String := "local:self"
def kMaxDirectAttachmentBytes : Nat := 4 * 1024 * 1024

/-- How many messages the responder looks through, the newest. -/
def kFindAttachmentPage : Nat := 10000

def ThreadChannel.isE2e (channel : ThreadChannel) : Bool := channel = .e2e || channel = .e2ePublic

structure ChatThread where
  id : String
  channel : ThreadChannel
  deriving DecidableEq, Repr

/-- What the responder reads of the thread store. -/
structure ChatBlobThreads where
  /-- `FindDirectThread`: by identity kind, value and channel. -/
  findDirectThread : String → String → ThreadChannel → Roe (Option ChatThread)
  /-- The rows of a thread, oldest first. -/
  transcript : String → Roe ThreadTranscript

/-- `GetMessagesPage` without a start: the newest rows, oldest first. -/
def getMessagesPage (rows : ThreadTranscript) (limit : Nat) : ThreadTranscript :=
  rows.drop (rows.length - limit)

structure ChatBlobContentSource where
  privatePlaintext : Option (ByteVector → Roe ByteVector) := none
  pinnedPublic : Option (ByteVector → Roe ByteVector) := none

/-- The link the request came on, and the keys to check it with. -/
structure ChatBlobRequester where
  remotePeerId : String
  signingKeys : Option PeerRequestAuth.Keys
  nowMs : Int64

/-- This device: its relay identity, its threads and content, and the bytes
peers pushed, by thread and hash. -/
structure ChatBlobDevice where
  localRelayUserId : String
  threads : ChatBlobThreads
  content : ChatBlobContentSource
  pending : String → ByteVector → Option ByteVector

variable (C : ContentCrypto) (device : ChatBlobDevice)

/-- The thread the request is about, once it is the signer's own. -/
def authorizeRequest (request : ChatBlobRequest) (requester : ChatBlobRequester) : Roe ChatThread := do
  refuseIf (device.localRelayUserId = "") "Local relay identity missing"
  refuseIf (request.peerIdentityValue ≠ device.localRelayUserId)
    "Chat-blob request targets a different peer stream"
  refuseIf (request.requesterIdentityValue = "" ∨ request.threadId = "")
    "Chat-blob request missing auth fields"
  match requester.signingKeys with
  | none => .error "Request not authorized"
  | some keys =>
    PeerRequest.verify keys (.blob request) requester.remotePeerId requester.nowMs
    -- Who signed, not who the body names.
    match device.threads.findDirectThread "account" request.auth.requesterAccountId request.channel with
    | .ok (some thread) => do
      refuseIf (thread.id ≠ request.threadId) "Chat-blob thread mismatch"
      refuseIf (thread.channel.isE2e = false) "Chat-blob requires E2E direct thread"
      return thread
    | _ => .error "Requester is not a chat participant"

/-- The attachment fields of a row this device sent, where it has any. -/
def sentAttachment (message : ThreadMessage) : Option ChatAttachmentFields :=
  if message.contentType ≠ .attachment ∨ message.senderContactId ≠ kLocalSelfContactId then none
  else (decodeAttachmentJson message.payloadJson).toOption

/-- The first of the page's own attachments with this hash. -/
def findAttachmentFields (threadId : String) (contentHash : ByteVector) : Roe ChatAttachmentFields := do
  let rows ← device.threads.transcript threadId
  match (getMessagesPage rows kFindAttachmentPage).findSome? fun message =>
      (sentAttachment message).filter (·.contentHash = contentHash) with
  | some fields => .ok fields
  | none => .error "Attachment not found in thread history"

/-- `ServeFetch`, op FetchPublic. -/
def serveFetchPublic (request : ChatBlobRequest) : Roe ByteVector := do
  refuseIf (device.localRelayUserId = "") "Local relay identity missing"
  refuseIf (request.peerIdentityValue ≠ device.localRelayUserId)
    "Chat-blob request targets a different peer stream"
  refuseIf (request.requesterIdentityValue = "") "Public CAS fetch missing requester identity"
  match device.content.pinnedPublic with
  | none => .error "Public content is not served here"
  | some pinnedPublic =>
    match C.hexToBytes request.contentHashHex with
    | none => .error "Invalid public CAS content id"
    | some contentId => do
      refuseIf (contentId.length ≠ kAttachmentContentHashSize) "Invalid public CAS content id"
      let bytes ← pinnedPublic contentId
      refuseIf (bytes.length > kMaxDirectAttachmentBytes) "Public CAS object too large"
      return bytes

/-- The bytes for one hash: what a peer pushed, else the content sealed anew
under the found message's key. -/
def serveAttachment (threadId : String) (hash : ByteVector) : Roe ByteVector := do
  let fields ← findAttachmentFields device threadId hash
  match device.pending threadId hash with
  | some pending => .ok pending
  | none =>
    match device.content.privatePlaintext with
    | none => .error "Attachment content unavailable (profile locked)"
    | some privatePlaintext => do
      let plaintext ← privatePlaintext fields.contentHash
      AttachmentContentCipher.encryptWithNonce C fields.contentKey plaintext fields.blobNonce

def serveFetch (request : ChatBlobRequest) (requester : ChatBlobRequester) : Roe ByteVector :=
  match request.op with
  | .fetchPublic => serveFetchPublic C device request
  | .push => .error "Expected fetch chat-blob request"
  | .fetch => do
    let _ ← authorizeRequest device request requester
    match C.hexToBytes request.contentHashHex with
    | none => .error "Invalid attachment content hash"
    | some hash => do
      refuseIf (hash.length ≠ kAttachmentContentHashSize) "Invalid attachment content hash"
      serveAttachment C device request.threadId hash

variable {C device} {threadId : String}

/-! ## Who is served -/

/-- An authorized request is signed by the account whose end-to-end thread it
names by this device's own id. -/
theorem authorizeRequest_ok {request : ChatBlobRequest} {requester : ChatBlobRequester} {thread : ChatThread}
    (h : authorizeRequest device request requester = .ok thread) : (∃ keys, requester.signingKeys = some keys ∧
      PeerRequest.verify keys (.blob request) requester.remotePeerId requester.nowMs = .ok ()) ∧
    device.threads.findDirectThread "account" request.auth.requesterAccountId request.channel =
      .ok (some thread) ∧ thread.id = request.threadId ∧ thread.channel.isE2e = true := by
  simp only [authorizeRequest, refuseIf_bind_ok] at h
  obtain ⟨-, -, -, h⟩ := h
  split at h
  · cases h
  · rename_i keys hkeys
    obtain ⟨_, hverify, h⟩ := roe_bind_ok.mp h
    split at h
    · rename_i found hfound
      simp only [refuseIf_bind_ok, not_not] at h
      obtain ⟨hid, hchannel, h⟩ := h
      cases h
      exact ⟨⟨keys, hkeys, hverify⟩, hfound, hid, by simpa using hchannel⟩
    · cases h

theorem sentAttachment_some {message : ThreadMessage} {fields : ChatAttachmentFields}
    (h : sentAttachment message = some fields) :
    message.contentType = .attachment ∧ message.senderContactId = kLocalSelfContactId ∧
      decodeAttachmentJson message.payloadJson = .ok fields := by
  unfold sentAttachment at h
  split at h
  · cases h
  · rename_i hsent
    simp only [ne_eq, not_or, not_not] at hsent
    refine ⟨hsent.1, hsent.2, ?_⟩
    cases hd : decodeAttachmentJson message.payloadJson with
    | error e => simp [hd, Except.toOption] at h
    | ok found => simpa [hd, Except.toOption] using h

theorem findAttachmentFields_ok {hash : ByteVector} {fields : ChatAttachmentFields}
    (h : findAttachmentFields device threadId hash = .ok fields) :
    ∃ rows, device.threads.transcript threadId = .ok rows ∧
      ∃ message ∈ rows, sentAttachment message = some fields ∧ fields.contentHash = hash := by
  simp only [findAttachmentFields, roe_bind_ok] at h
  obtain ⟨rows, hrows, h⟩ := h
  refine ⟨rows, hrows, ?_⟩
  split at h
  · rename_i found hfound
    cases h
    obtain ⟨message, hmem, hsent⟩ := List.exists_of_findSome?_eq_some hfound
    obtain ⟨hsent, hhash⟩ := Option.filter_eq_some_iff.mp hsent
    exact ⟨message, List.mem_of_mem_drop hmem, hsent, by simpa using hhash⟩
  · cases h

/-- Bytes served: pushed for that thread and hash, or an attachment this
device sent, sealed under its own key. -/
theorem serveAttachment_ok {hash bytes : ByteVector} (h : serveAttachment C device threadId hash = .ok bytes) :
    ∃ fields, findAttachmentFields device threadId hash = .ok fields ∧ (device.pending threadId hash = some bytes ∨
        ∃ read plaintext, device.content.privatePlaintext = some read ∧ read fields.contentHash = .ok plaintext ∧
          AttachmentContentCipher.encryptWithNonce C fields.contentKey plaintext fields.blobNonce = .ok bytes) := by
  obtain ⟨fields, hfields, h⟩ := roe_bind_ok.mp h
  refine ⟨fields, hfields, ?_⟩
  split at h
  · rename_i pending hpending
    cases h
    exact .inl hpending
  · split at h
    · cases h
    · rename_i read hread
      obtain ⟨plaintext, hplain, h⟩ := roe_bind_ok.mp h
      exact .inr ⟨read, plaintext, hread, hplain, h⟩

theorem serveFetch_ok {request : ChatBlobRequest} {requester : ChatBlobRequester} {bytes : ByteVector}
    (hop : request.op = .fetch) (h : serveFetch C device request requester = .ok bytes) :
    ∃ thread hash, authorizeRequest device request requester = .ok thread ∧
      C.hexToBytes request.contentHashHex = some hash ∧
      serveAttachment C device request.threadId hash = .ok bytes := by
  simp only [serveFetch, hop] at h
  obtain ⟨thread, hauth, h⟩ := roe_bind_ok.mp h
  split at h
  · cases h
  · rename_i hash hhash
    obtain ⟨-, h⟩ := refuseIf_bind_ok.mp h
    exact ⟨thread, hash, hauth, hhash, h⟩

/-! ## What the answer is worth to the one who asks -/

/-- The peer asks, from a message this device sent them in their own thread
and still stores with its content. -/
structure AsksFrom (C : ContentCrypto) (device : ChatBlobDevice) (request : ChatBlobRequest)
    (requester : ChatBlobRequester) (thread : ChatThread) (fields : ChatAttachmentFields)
    (plaintext : ByteVector) : Prop where
  op : request.op = .fetch
  named : device.localRelayUserId ≠ "" ∧ request.peerIdentityValue = device.localRelayUserId ∧
    request.requesterIdentityValue ≠ "" ∧ request.threadId ≠ ""
  hash : request.contentHashHex = C.bytesToHex fields.contentHash
  verified : ∃ keys, requester.signingKeys = some keys ∧
    PeerRequest.verify keys (.blob request) requester.remotePeerId requester.nowMs = .ok ()
  found : device.threads.findDirectThread "account" request.auth.requesterAccountId request.channel =
    .ok (some thread)
  channel : thread.channel.isE2e = true
  sent : ∃ rows, device.threads.transcript thread.id = .ok rows ∧
    ∃ message ∈ rows, sentAttachment message = some fields
  content : ∃ read, device.content.privatePlaintext = some read ∧ read fields.contentHash = .ok plaintext
  /-- As the file was prepared. -/
  prepared : C.contentHash plaintext = .ok fields.contentHash ∧ fields.byteLength = plaintext.length

/-- The bytes for the message's hash are the ones the message was sent with:
the request names this device's id of the thread, and what the peer pushed for
the hash, or else the content under the first key found for it, is the
content under the message's own key. -/
def ServesOwn (C : ContentCrypto) (device : ChatBlobDevice) (request : ChatBlobRequest) (thread : ChatThread)
    (fields : ChatAttachmentFields) (plaintext : ByteVector) : Prop :=
  request.threadId = thread.id ∧ ∃ found, findAttachmentFields device thread.id fields.contentHash = .ok found ∧
    ((device.pending thread.id fields.contentHash).map Except.ok).getD
        (C.aeadSeal found.contentKey plaintext fields.contentHash found.blobNonce) =
      C.aeadSeal fields.contentKey plaintext fields.contentHash fields.blobNonce

section Asked

variable {request : ChatBlobRequest} {requester : ChatBlobRequester} {thread : ChatThread}
  {fields : ChatAttachmentFields} {plaintext : ByteVector}

theorem AsksFrom.valid (h : AsksFrom C device request requester thread fields plaintext) : fields.Valid := by
  obtain ⟨_, _, message, _, hsent⟩ := h.sent
  exact decodeAttachmentJson_valid (sentAttachment_some hsent).2.2

theorem AsksFrom.serveFetch_eq (hC : C.Correct) (h : AsksFrom C device request requester thread fields plaintext) :
    serveFetch C device request requester =
      if thread.id = request.threadId then serveAttachment C device thread.id fields.contentHash
      else .error "Chat-blob thread mismatch" := by
  obtain ⟨hlocal, hpeer, hname, hid⟩ := h.named
  obtain ⟨keys, hkeys, hverify⟩ := h.verified
  have hauth : authorizeRequest device request requester =
      if thread.id = request.threadId then .ok thread else .error "Chat-blob thread mismatch" := by
    simp only [authorizeRequest, refuseIf, hlocal, hpeer, hname, hid, hkeys, hverify, h.found, h.channel]
    by_cases hsame : thread.id = request.threadId
    · simp [hsame]
    · simp [hsame]
  simp only [serveFetch, h.op, hauth]
  by_cases hsame : thread.id = request.threadId
  · have hsize : ¬ fields.contentHash.length ≠ kAttachmentContentHashSize := by
      simp [h.valid.2.2.1]
    rw [if_pos hsame, if_pos hsame, roe_ok_bind, h.hash, hC.hex, ← hsame]
    simp only [refuseIf, if_neg hsize, roe_ok_bind]
  · rw [if_neg hsame, if_neg hsame, roe_error_bind]

/-- The answer for the hash, once a message with it is found. -/
theorem AsksFrom.serveAttachment_eq (h : AsksFrom C device request requester thread fields plaintext)
    {found : ChatAttachmentFields} (hfound : findAttachmentFields device thread.id fields.contentHash = .ok found) :
    serveAttachment C device thread.id fields.contentHash =
      ((device.pending thread.id fields.contentHash).map Except.ok).getD
        (C.aeadSeal found.contentKey plaintext fields.contentHash found.blobNonce) := by
  obtain ⟨_, _, message, _, hsent, hhash⟩ := findAttachmentFields_ok hfound
  obtain ⟨-, -, -, hkey, -⟩ := decodeAttachmentJson_valid (sentAttachment_some hsent).2.2
  obtain ⟨read, hread, hplain⟩ := h.content
  simp only [serveAttachment, hfound, roe_ok_bind]
  cases hpending : device.pending thread.id fields.contentHash with
  | some pending => rfl
  | none =>
    have hsize : ¬ found.contentKey.length ≠ kSessionKeySize := not_not.mpr hkey
    simp only [hread, hhash, hplain, roe_ok_bind, AttachmentContentCipher.encryptWithNonce,
      if_neg hsize, h.prepared.1]
    rfl

/-- The answer opens for the message it was asked from exactly when it is the
message's own ciphertext. -/
theorem AsksFrom.opens_iff (hC : C.Correct) (h : AsksFrom C device request requester thread fields plaintext)
    (honly : ∀ other, C.contentHash other = .ok fields.contentHash → other = plaintext) :
    (∃ bytes, serveFetch C device request requester = .ok bytes ∧
      ∃ opened, decryptFetched C fields bytes = .ok opened) ↔ ServesOwn C device request thread fields plaintext := by
  obtain ⟨own, hown⟩ := hC.seals fields.contentKey plaintext fields.contentHash fields.blobNonce
    h.valid.2.2.2.1 h.valid.2.2.2.2
  have hopens : ∀ bytes, (∃ opened, decryptFetched C fields bytes = .ok opened) ↔ bytes = own := by
    intro bytes
    rw [decryptFetched_ok_iff hC h.valid h.prepared.1 h.prepared.2 honly, hown, Except.ok.injEq]
    exact eq_comm
  have hserved : (∃ bytes, serveFetch C device request requester = .ok bytes ∧
      ∃ opened, decryptFetched C fields bytes = .ok opened) ↔
      serveFetch C device request requester = .ok own := by
    constructor
    · rintro ⟨bytes, hbytes, hopened⟩
      rw [hbytes, (hopens bytes).mp hopened]
    · intro hbytes
      exact ⟨own, hbytes, (hopens own).mpr rfl⟩
  rw [hserved, h.serveFetch_eq hC]
  unfold ServesOwn
  rw [hown]
  by_cases hsame : thread.id = request.threadId
  · rw [if_pos hsame]
    constructor
    · intro hans
      obtain ⟨found, hfound, -⟩ := serveAttachment_ok hans
      refine ⟨hsame.symm, found, hfound, ?_⟩
      rw [← hans, h.serveAttachment_eq hfound]
    · rintro ⟨-, found, hfound, hans⟩
      rw [h.serveAttachment_eq hfound, hans]
  · rw [if_neg hsame]
    constructor
    · intro hans
      cases hans
    · rintro ⟨hid, -⟩
      exact absurd hid.symm hsame

end Asked

/-- Bytes leave this device only for the account that signed, and only those
of a file this device sent in that account's own end-to-end thread, or what
was pushed there for the hash. And they open for the message they were asked
from exactly when they are that message's own. -/
theorem chat_blob_serves (hC : C.Correct) (device : ChatBlobDevice) (requester : ChatBlobRequester) :
    (∀ request bytes, request.op = .fetch → serveFetch C device request requester = .ok bytes →
      ∃ thread rows message fields,
        (∃ keys, requester.signingKeys = some keys ∧
          PeerRequest.verify keys (.blob request) requester.remotePeerId requester.nowMs = .ok ()) ∧
        device.threads.findDirectThread "account" request.auth.requesterAccountId request.channel =
          .ok (some thread) ∧ thread.channel.isE2e = true ∧
        device.threads.transcript thread.id = .ok rows ∧ message ∈ rows ∧
        sentAttachment message = some fields ∧
        (device.pending thread.id fields.contentHash = some bytes ∨
          ∃ read plaintext, device.content.privatePlaintext = some read ∧
            read fields.contentHash = .ok plaintext ∧
            AttachmentContentCipher.encryptWithNonce C fields.contentKey plaintext fields.blobNonce =
              .ok bytes)) ∧
    ∀ request thread fields plaintext, AsksFrom C device request requester thread fields plaintext →
      (∀ other, C.contentHash other = .ok fields.contentHash → other = plaintext) →
      ((∃ bytes, serveFetch C device request requester = .ok bytes ∧
        ∃ opened, decryptFetched C fields bytes = .ok opened) ↔
        ServesOwn C device request thread fields plaintext) := by
  constructor
  · intro request bytes hop hserved
    obtain ⟨thread, hash, hauth, -, hans⟩ := serveFetch_ok hop hserved
    obtain ⟨hsigned, hthread, hid, hchannel⟩ := authorizeRequest_ok hauth
    obtain ⟨fields, hfound, hbytes⟩ := serveAttachment_ok hans
    obtain ⟨rows, hrows, message, hmem, hsent, rfl⟩ := findAttachmentFields_ok hfound
    rw [← hid] at hrows hbytes
    exact ⟨thread, rows, message, fields, hsigned, hthread, hchannel, hrows, hmem, hsent, hbytes⟩
  · intro request thread fields plaintext hasks honly
    exact hasks.opens_iff hC honly

/-! ## One file sent twice -/

section Twice

/-- A cipher that shows its key: the plaintext behind a tag of key and nonce. -/
def clearCrypto : ContentCrypto where
  contentHash plaintext := .ok (List.replicate 32 (if plaintext = [7] then 1 else 0))
  aeadSeal key plaintext _ nonce :=
    if key.length = 32 ∧ nonce.length = 24 then .ok (plaintext ++ (key.take 8 ++ nonce.take 8))
    else .error "size"
  aeadOpen key nonce ciphertext _ :=
    let plaintext := ciphertext.take (ciphertext.length - 16)
    if key.length = 32 ∧ nonce.length = 24 ∧ ciphertext = plaintext ++ (key.take 8 ++ nonce.take 8) then
      .ok plaintext
    else .error "tag"
  bytesToHex bytes := String.ofList (bytes.map fun byte => Char.ofNat byte.toNat)
  hexToBytes text := some (text.toList.map fun c => .ofNat c.toNat)

theorem clearCrypto_correct : clearCrypto.Correct where
  open_ok := by
    intro key nonce ciphertext aad plaintext
    simp only [clearCrypto]
    constructor
    · intro h
      split at h
      · rename_i hsizes
        cases h
        rw [if_pos ⟨hsizes.1, hsizes.2.1⟩, ← hsizes.2.2]
      · cases h
    · intro h
      split at h
      · rename_i hsizes
        cases h
        have htake : (plaintext ++ (key.take 8 ++ nonce.take 8)).take
            ((plaintext ++ (key.take 8 ++ nonce.take 8)).length - 16) = plaintext := by
          simp [hsizes.1, hsizes.2]
        rw [htake, if_pos ⟨hsizes.1, hsizes.2, rfl⟩]
      · cases h
  length := by
    intro key plaintext aad nonce ciphertext h
    simp only [clearCrypto] at h
    split at h
    · rename_i hsizes
      cases h
      simp [hsizes.1, hsizes.2, kAttachmentCipherOverheadBytes]
    · cases h
  seals := by
    intro key plaintext aad nonce hkey hnonce
    exact ⟨_, if_pos ⟨hkey, hnonce⟩⟩
  hashSize := by
    intro plaintext hash h
    cases h
    simp [kAttachmentContentHashSize]
  hex := by
    intro bytes
    simp [clearCrypto, Function.comp_def, ofNat_charOfNat]

/-- A file of one byte, under the key `k`. -/
def sentFile (k : UInt8) : ChatAttachmentFields where
  mime := "image/png"
  byteLength := 1
  contentHash := List.replicate 32 1
  contentKey := List.replicate 32 k
  blobNonce := List.replicate 24 0

def sentRow (id : String) (k : UInt8) : ThreadMessage where
  id := id
  senderContactId := kLocalSelfContactId
  contentType := .attachment
  payloadJson := some (attachmentFieldsJsonObject (sentFile k))

/-- The file sent to one peer twice, each time under its own key. -/
def twiceDevice : ChatBlobDevice where
  localRelayUserId := "relay:self"
  threads := {
    findDirectThread := fun _ _ _ => .ok (some { id := "thread", channel := .e2e })
    transcript := fun _ => .ok [sentRow "first" 1, sentRow "second" 2] }
  content := { privatePlaintext := some fun _ => .ok [7] }
  pending := fun _ _ => none

def fileRequest : ChatBlobRequest where
  requesterIdentityValue := "relay:peer"
  peerIdentityValue := "relay:self"
  threadId := "thread"
  contentHashHex := clearCrypto.bytesToHex (List.replicate 32 1)
  auth := { requesterAccountId := "peer", requesterPeerId := "link", timestampMs := 0, signature := "signed" }

def fileRequester : ChatBlobRequester where
  remotePeerId := "link"
  signingKeys := some {
    base64Decode := fun _ => some []
    mlDsaVerify := fun _ _ _ => some true
    accountIdFromMlDsaPublicKey := fun _ => none
    peerIdFromMlDsaPublicKey := fun _ => none
    resolve := fun _ _ => .ok "key" }
  nowMs := 0

theorem sentAttachment_sentRow (id : String) (k : UInt8) : sentAttachment (sentRow id k) = some (sentFile k) := by
  have hdecode : decodeAttachmentJson (sentRow id k).payloadJson = .ok (sentFile k) :=
    decodeAttachmentJson_attachmentFieldsJsonObject
      ⟨by simp [sentFile], by simp [sentFile], rfl, List.length_replicate, rfl⟩
  rw [sentAttachment, if_neg (by simp [sentRow]), hdecode]
  rfl

theorem asksFrom_twice {k : UInt8} (hk : k = 1 ∨ k = 2) :
    AsksFrom clearCrypto twiceDevice fileRequest fileRequester { id := "thread", channel := .e2e }
      (sentFile k) [7] where
  op := rfl
  named := ⟨by decide, rfl, by decide, by decide⟩
  hash := rfl
  verified := ⟨_, rfl, by decide⟩
  found := rfl
  channel := rfl
  sent := by
    refine ⟨_, rfl, ?_⟩
    rcases hk with rfl | rfl
    · exact ⟨sentRow "first" 1, by simp, sentAttachment_sentRow _ _⟩
    · exact ⟨sentRow "second" 2, by simp, sentAttachment_sentRow _ _⟩
  content := ⟨_, rfl, rfl⟩
  prepared := ⟨by simp [clearCrypto, sentFile], rfl⟩

theorem only_content {k : UInt8} (other : ByteVector)
    (h : clearCrypto.contentHash other = .ok (sentFile k).contentHash) : other = [7] := by
  by_contra hne
  simp [clearCrypto, sentFile, hne] at h

theorem find_twice : findAttachmentFields twiceDevice "thread" (List.replicate 32 1) = .ok (sentFile 1) := by
  have hfirst : (sentAttachment (sentRow "first" 1)).filter (·.contentHash = List.replicate 32 1) =
      some (sentFile 1) := by
    rw [sentAttachment_sentRow]
    rfl
  have hpage : getMessagesPage [sentRow "first" 1, sentRow "second" 2] kFindAttachmentPage =
      [sentRow "first" 1, sentRow "second" 2] := rfl
  simp only [findAttachmentFields, twiceDevice, roe_ok_bind, hpage, List.findSome?_cons, hfirst]

/-- Asked from the first message, the answer opens. -/
theorem chat_blob_serves_first :
    ∃ bytes, serveFetch clearCrypto twiceDevice fileRequest fileRequester = .ok bytes ∧
      ∃ opened, decryptFetched clearCrypto (sentFile 1) bytes = .ok opened :=
  ((chat_blob_serves clearCrypto_correct twiceDevice fileRequester).2 fileRequest _ _ _
    (asksFrom_twice (.inl rfl)) only_content).mpr ⟨rfl, sentFile 1, find_twice, rfl⟩

/-- Asked from the second, the same file comes sealed under the first's key. -/
theorem chat_blob_second_unread :
    AsksFrom clearCrypto twiceDevice fileRequest fileRequester { id := "thread", channel := .e2e }
      (sentFile 2) [7] ∧
    ¬ ∃ bytes, serveFetch clearCrypto twiceDevice fileRequest fileRequester = .ok bytes ∧
      ∃ opened, decryptFetched clearCrypto (sentFile 2) bytes = .ok opened := by
  have hasks := asksFrom_twice (k := 2) (.inr rfl)
  refine ⟨hasks, ?_⟩
  rw [hasks.opens_iff clearCrypto_correct only_content]
  rintro ⟨-, found, hfound, hsame⟩
  cases hfound.symm.trans find_twice
  revert hsame
  decide

end Twice

theorem contentHash_of_decryptFetched {fields : ChatAttachmentFields} {received opened : ByteVector}
    (h : decryptFetched C fields received = .ok opened) : C.contentHash opened = .ok fields.contentHash := by
  unfold decryptFetched AttachmentContentCipher.decrypt at h
  split_ifs at h
  obtain ⟨found, -, h⟩ := roe_bind_ok.mp h
  obtain ⟨hash, hhash, h⟩ := roe_bind_ok.mp h
  split_ifs at h with hsame
  obtain rfl := Except.ok.inj h
  rwa [← not_not.mp hsame]

/-- What is prepared of a file is read back from its message, and the receiver
opens the bytes that were made of it and no others, and to the file. -/
theorem prepared_attachment_received (hC : C.Correct) {plaintext contentKey nonce hash : ByteVector} {filename mime : String}
    {maxBytes : Nat} {mimeOf : String → String} (hsome : plaintext ≠ []) (hmax : plaintext.length ≤ maxBytes)
    (hkey : contentKey.length = kAttachmentContentKeySize) (hnonce : nonce.length = kAttachmentBlobNonceSize)
    (hmime : ∀ name, mimeOf name ≠ "") (hhash : C.contentHash plaintext = .ok hash)
    (honly : ∀ other, C.contentHash other = .ok hash → other = plaintext) :
    ∃ fields ciphertext,
      prepareChatAttachmentFromBytes C plaintext filename mime maxBytes contentKey nonce mimeOf = .ok (fields, ciphertext) ∧
      decodeAttachmentJson (some (attachmentFieldsJsonObject fields)) = .ok fields ∧
      ∀ received opened, decryptFetched C fields received = .ok opened ↔ received = ciphertext ∧ opened = plaintext := by
  obtain ⟨ciphertext, hsealed⟩ := hC.seals contentKey plaintext hash nonce hkey hnonce
  have hencrypt : AttachmentContentCipher.encryptWithNonce C contentKey plaintext nonce = .ok ciphertext := by
    have hsize : contentKey.length = kSessionKeySize := hkey
    rw [AttachmentContentCipher.encryptWithNonce, if_neg (not_not.mpr hsize), hhash]
    exact hsealed
  have hprepared : ∃ name type, type ≠ "" ∧
      prepareChatAttachmentFromBytes C plaintext filename mime maxBytes contentKey nonce mimeOf =
        .ok (⟨"", type, name, plaintext.length, hash, contentKey, nonce⟩, ciphertext) := by
    refine ⟨if filename = "" then "attachment" else filename,
      if mime = "" then mimeOf (if filename = "" then "attachment" else filename) else mime, ?_, ?_⟩
    · split
      · exact hmime _
      · assumption
    · rw [prepareChatAttachmentFromBytes, if_neg hsome, if_neg (not_lt.mpr hmax), hencrypt, hhash]
      rfl
  obtain ⟨name, type, htype, hprepared⟩ := hprepared
  have hvalid : ChatAttachmentFields.Valid ⟨"", type, name, plaintext.length, hash, contentKey, nonce⟩ :=
    ⟨htype, mt List.length_eq_zero_iff.mp hsome, hC.hashSize hhash, hkey, hnonce⟩
  refine ⟨_, ciphertext, hprepared, decodeAttachmentJson_attachmentFieldsJsonObject hvalid, fun received opened => ?_⟩
  have hopens (received : ByteVector) := @decryptFetched_ok_iff _ hC _ hvalid plaintext received hhash rfl honly
  constructor
  · intro h
    have hagain := (hopens received).mp ⟨opened, h⟩
    exact ⟨Except.ok.inj (hagain.symm.trans hsealed), honly opened (contentHash_of_decryptFetched h)⟩
  · rintro ⟨rfl, rfl⟩
    obtain ⟨found, hfound⟩ := (hopens received).mpr hsealed
    obtain rfl := honly found (contentHash_of_decryptFetched hfound)
    exact hfound

theorem prepared_attachment_received_sample : ∃ fields ciphertext,
    prepareChatAttachmentFromBytes clearCrypto [7] "a.bin" "" 100 (List.replicate 32 5) (List.replicate 24 6)
      (fun _ => "application/octet-stream") = .ok (fields, ciphertext) ∧
    decodeAttachmentJson (some (attachmentFieldsJsonObject fields)) = .ok fields ∧
    ∀ received opened, decryptFetched clearCrypto fields received = .ok opened ↔ received = ciphertext ∧ opened = [7] :=
  prepared_attachment_received clearCrypto_correct (by decide) (by decide) (by decide) (by decide)
    (fun _ => by decide) rfl (@only_content 1)

end Pbr
