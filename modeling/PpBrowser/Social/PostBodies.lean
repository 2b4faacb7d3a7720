import Mathlib.Data.List.Sort
import PpBrowser.Base.CryptoConstants
import PpBrowser.Social.PostWire

/-!
# PostBodies — what the kinds of entries carry

`PostBodies.h` and `PostBodies.cpp`: the seven bodies, how they are written
and read, and what is checked of them before signing and by every reader.
-/

namespace Pbr

open Lib

def kMaxPostTextBytes : Nat := 4 * 1024
def kMaxPostMedia : Nat := 4
def kMaxPostMediaObjectBytes : Nat := 16 * 1024 * 1024
def kMaxPostAltBytes : Nat := 1024
def kMaxPostPlaceholderBytes : Nat := 32
def kMaxPostFacets : Nat := 32
def kMaxPostMentions : Nat := 16
def kMaxPostLinkUrlBytes : Nat := 512
def kMaxPostHashtagBytes : Nat := 64
def kMaxPostContentWarningBytes : Nat := 256
def kMaxPostLabels : Nat := 4
def kMaxPostLabelBytes : Nat := 32
def kMaxPostLanguages : Nat := 3
def kMaxPostLanguageBytes : Nat := 35
def kMaxPostAuthorBytes : Nat := 128
def kMaxPostMimeBytes : Nat := 128
def kMaxPostReactionBytes : Nat := 32
def kMaxPostDisplayNameBytes : Nat := 128
def kMaxPostBioBytes : Nat := 1024
def kMaxPostServices : Nat := 8
def kMaxPostServiceKindBytes : Nat := 64
def kMaxPostServiceTermsBytes : Nat := 1024
/-- Canonical bytes, signature apart. -/
def kMaxPostEntryBytes : Nat := 8 * 1024

/-! ## Shapes -/

structure PostMedia where
  contentId : PostHash
  mime : ByteVector
  size : UInt64
  alt : ByteVector
  width : UInt32
  height : UInt32
  durationMs : UInt32
  placeholder : ByteVector
  deriving DecidableEq, Repr

/-- A byte span of the text and what it means. -/
structure PostFacet where
  start : UInt64
  stop : UInt64
  type : UInt8
  value : ByteVector
  deriving DecidableEq, Repr

structure PostReply where
  root : PostRef
  parent : PostRef
  deriving DecidableEq, Repr

structure PostBody where
  text : ByteVector := []
  media : List PostMedia := []
  facets : List PostFacet := []
  reply : Option PostReply := none
  quote : Option PostRef := none
  contentWarning : ByteVector := []
  labels : List ByteVector := []
  languages : List ByteVector := []
  deriving DecidableEq, Repr

structure EditBody where
  target : PostRef
  replacement : PostBody
  deriving DecidableEq, Repr

/-- Kinds delete and repost: one target. -/
structure TargetBody where
  target : PostRef
  deriving DecidableEq, Repr

structure ReactBody where
  target : PostRef
  reaction : ByteVector
  deriving DecidableEq, Repr

structure PostService where
  kind : ByteVector
  terms : ByteVector
  deriving DecidableEq, Repr

structure ProfileBody where
  displayName : ByteVector
  bio : ByteVector
  avatar : Option PostHash
  services : List PostService
  deriving DecidableEq, Repr

structure LaneCloseBody where
  lane : PostLane
  lastSeq : UInt64
  deriving DecidableEq, Repr

structure DisavowBody where
  targets : List PostRef
  deriving DecidableEq, Repr

inductive PostKind where
  | post | edit | delete | react | repost | profile | laneClose | disavow
  deriving DecidableEq, Repr

def PostKind.byte : PostKind → UInt8
  | .post => 1
  | .edit => 2
  | .delete => 3
  | .react => 4
  | .repost => 5
  | .profile => 6
  | .laneClose => 7
  | .disavow => 8

/-- A kind this version understands. -/
def postKindOf (kind : UInt8) : Option PostKind :=
  if kind = 1 then some .post
  else if kind = 2 then some .edit
  else if kind = 3 then some .delete
  else if kind = 4 then some .react
  else if kind = 5 then some .repost
  else if kind = 6 then some .profile
  else if kind = 7 then some .laneClose
  else if kind = 8 then some .disavow
  else none

namespace PostBodies

open PostWire

/-! ## Writing -/

def writeStrings (values : List ByteVector) : ByteVector := putCount values.length ++ values.flatMap putUtf8

def writeMedia (media : PostMedia) : ByteVector :=
  putHash media.contentId ++ putUtf8 media.mime ++ putU64 media.size ++ putUtf8 media.alt ++ putU32 media.width ++
    putU32 media.height ++ putU32 media.durationMs ++ putBytes media.placeholder

def writeFacet (facet : PostFacet) : ByteVector :=
  putU64 facet.start ++ putU64 facet.stop ++ putU8 facet.type ++ putUtf8 facet.value

def writeReply (reply : PostReply) : ByteVector := putRef reply.root ++ putRef reply.parent

def writePost (body : PostBody) : ByteVector :=
  putUtf8 body.text ++ (putCount body.media.length ++ body.media.flatMap writeMedia) ++
    (putCount body.facets.length ++ body.facets.flatMap writeFacet) ++
    (putBool body.reply.isSome ++ body.reply.elim [] writeReply) ++
    (putBool body.quote.isSome ++ body.quote.elim [] putRef) ++ putUtf8 body.contentWarning ++
    writeStrings body.labels ++ writeStrings body.languages

def writeService (service : PostService) : ByteVector := putUtf8 service.kind ++ putUtf8 service.terms

def encodePostBody (body : PostBody) : ByteVector := writePost body

def encodeEditBody (body : EditBody) : ByteVector := putRef body.target ++ writePost body.replacement

def encodeTargetBody (body : TargetBody) : ByteVector := putRef body.target

def encodeReactBody (body : ReactBody) : ByteVector := putRef body.target ++ putUtf8 body.reaction

def encodeProfileBody (body : ProfileBody) : ByteVector :=
  putUtf8 body.displayName ++ putUtf8 body.bio ++ (putBool body.avatar.isSome ++ body.avatar.elim [] putHash) ++
    (putCount body.services.length ++ body.services.flatMap writeService)

def encodeLaneCloseBody (body : LaneCloseBody) : ByteVector := putLane body.lane ++ putU64 body.lastSeq

def encodeDisavowBody (body : DisavowBody) : ByteVector := putCount body.targets.length ++ body.targets.flatMap putRef

/-! ## Reading -/

/-- Rows behind a count that is within its limit. -/
def readRows {α : Type} (row : Reader UInt8 α) (limit : Nat → Bool) : Reader UInt8 (List α) := do
  let count ← Read.count
  if limit count then row.rows (fun _ _ => true) count none else Reader.fail

def readStrings (maxCount : Nat) : Reader UInt8 (List ByteVector) := readRows Read.utf8 (· ≤ maxCount)

/-- A value behind a flag. -/
def readOptional {α : Type} (value : Reader UInt8 α) : Reader UInt8 (Option α) := do
  let flag ← Read.bool
  if flag then do
    let a ← value
    pure (some a)
  else pure none

def readOneMedia : Reader UInt8 PostMedia := do
  let contentId ← Read.hash
  let mime ← Read.utf8
  let size ← Read.u64
  let alt ← Read.utf8
  let width ← Read.u32
  let height ← Read.u32
  let durationMs ← Read.u32
  let placeholder ← Read.bytes
  pure ⟨contentId, mime, size, alt, width, height, durationMs, placeholder⟩

def readMedia : Reader UInt8 (List PostMedia) := readRows readOneMedia (· ≤ kMaxPostMedia)

def readFacet : Reader UInt8 PostFacet := do
  let start ← Read.u64
  let stop ← Read.u64
  let type ← Read.u8
  let value ← Read.utf8
  pure ⟨start, stop, type, value⟩

def readFacets : Reader UInt8 (List PostFacet) := readRows readFacet (· ≤ kMaxPostFacets)

def readReply : Reader UInt8 PostReply := do
  let root ← Read.ref
  let parent ← Read.ref
  pure ⟨root, parent⟩

def readPost : Reader UInt8 PostBody := do
  let text ← Read.utf8
  let media ← readMedia
  let facets ← readFacets
  let reply ← readOptional readReply
  let quote ← readOptional Read.ref
  let contentWarning ← Read.utf8
  let labels ← readStrings kMaxPostLabels
  let languages ← readStrings kMaxPostLanguages
  pure ⟨text, media, facets, reply, quote, contentWarning, labels, languages⟩

def readEdit : Reader UInt8 EditBody := do
  let target ← Read.ref
  let replacement ← readPost
  pure ⟨target, replacement⟩

def readTarget : Reader UInt8 TargetBody := do
  let target ← Read.ref
  pure ⟨target⟩

def readReact : Reader UInt8 ReactBody := do
  let target ← Read.ref
  let reaction ← Read.utf8
  pure ⟨target, reaction⟩

def readService : Reader UInt8 PostService := do
  let kind ← Read.utf8
  let terms ← Read.utf8
  pure ⟨kind, terms⟩

def readProfile : Reader UInt8 ProfileBody := do
  let displayName ← Read.utf8
  let bio ← Read.utf8
  let avatar ← readOptional Read.hash
  let services ← readRows readService (· ≤ kMaxPostServices)
  pure ⟨displayName, bio, avatar, services⟩

def readLaneClose : Reader UInt8 LaneCloseBody := do
  let lane ← Read.lane
  let lastSeq ← Read.u64
  pure ⟨lane, lastSeq⟩

/-- Each ref is at least 65 bytes: the count can be no more than the bytes allow. -/
def readDisavow : Reader UInt8 DisavowBody := do
  let targets ← readRows Read.ref fun count => count ≠ 0 && count ≤ kMaxPostEntryBytes / 65
  pure ⟨targets⟩

/-- Everything read, nothing left over. -/
def decode {α : Type} (read : Reader UInt8 α) (what : String) (bytes : ByteVector) : Roe α :=
  match read bytes with
  | some (value, []) => .ok value
  | _ => .error ("post: malformed " ++ what)

def decodePostBody (bytes : ByteVector) : Roe PostBody := decode readPost "post" bytes
def decodeEditBody (bytes : ByteVector) : Roe EditBody := decode readEdit "edit" bytes
def decodeTargetBody (bytes : ByteVector) : Roe TargetBody := decode readTarget "target" bytes
def decodeReactBody (bytes : ByteVector) : Roe ReactBody := decode readReact "react" bytes
def decodeProfileBody (bytes : ByteVector) : Roe ProfileBody := decode readProfile "profile" bytes
def decodeLaneCloseBody (bytes : ByteVector) : Roe LaneCloseBody := decode readLaneClose "lane_close" bytes
def decodeDisavowBody (bytes : ByteVector) : Roe DisavowBody := decode readDisavow "disavow" bytes

/-! ## Checks -/

/-- How many bytes the character takes and the bits its first byte holds. -/
def utf8Lead (c : UInt8) : Option (Nat × Nat) :=
  if c < 0x80 then some (1, c.toNat)
  else if c &&& 0xE0 = 0xC0 then some (2, (c &&& 0x1F).toNat)
  else if c &&& 0xF0 = 0xE0 then some (3, (c &&& 0x0F).toNat)
  else if c &&& 0xF8 = 0xF0 then some (4, (c &&& 0x07).toNat)
  else none

/-- The least code point of a length: a shorter form is required below it. -/
def minForLen : Nat → Nat
  | 2 => 0x80
  | 3 => 0x800
  | 4 => 0x10000
  | _ => 0

/-- What follows the first character, if that is well formed. -/
def afterCharacter : ByteVector → Option ByteVector
  | [] => none
  | c :: rest =>
    match utf8Lead c with
    | none => none
    | some (len, bits) =>
      let continuation := rest.take (len - 1)
      let codePoint := continuation.foldl (fun cp byte => cp * 64 + (byte &&& 0x3F).toNat) bits
      if rest.length < len - 1 || continuation.any (· &&& 0xC0 ≠ 0x80) || codePoint < minForLen len ||
          codePoint > 0x10FFFF || (0xD800 ≤ codePoint && codePoint ≤ 0xDFFF) then none
      else some (rest.drop (len - 1))

/-- Character after character, at most one for each byte. -/
def wellFormedFor : Nat → ByteVector → Bool
  | _, [] => true
  | 0, _ => false
  | n + 1, text =>
    match afterCharacter text with
    | some rest => wellFormedFor n rest
    | none => false

/-- No overlongs, surrogates or code points past U+10FFFF. -/
def isWellFormedUtf8 (text : ByteVector) : Bool := wellFormedFor text.length text

def checkRef (ref : PostRef) : Roe Unit :=
  refuseIf (ref.author = [] ∨ ref.author.length > kMaxPostAuthorBytes ∨ ¬ isWellFormedUtf8 ref.author ∨ ref.seq = 0)
    "post: malformed ref"

def checkOwnRef (ref : PostRef) (author : ByteVector) : Roe Unit := do
  checkRef ref
  refuseIf (ref.author ≠ author) "post: names another author's entry"

def isUtf8Within (text : ByteVector) (maxBytes : Nat) : Bool := text.length ≤ maxBytes && isWellFormedUtf8 text

/-- The end of the text or a byte that is not a continuation byte. -/
def isUtf8Boundary (text : ByteVector) (offset : Nat) : Bool :=
  offset = text.length || (text[offset]?).any fun byte => byte &&& 0xC0 ≠ 0x80

def isTagByte (upper : Bool) (c : UInt8) : Bool :=
  (97 ≤ c && c ≤ 122) || (48 ≤ c && c ≤ 57) || c = 45 || (upper && 65 ≤ c && c ≤ 90)

def isTagToken (value : ByteVector) (maxBytes : Nat) (upper : Bool) : Bool :=
  value ≠ [] && value.length ≤ maxBytes && value.all (isTagByte upper)

def isHttps (value : ByteVector) : Bool := (stringBytes "https://").isPrefixOf value

def checkMedia (media : PostMedia) : Roe Unit := do
  refuseIf (media.mime = [] ∨ ¬ isUtf8Within media.mime kMaxPostMimeBytes ∨ media.size = 0 ∨
    media.size.toNat > kMaxPostMediaObjectBytes) "post: media too large or unnamed"
  refuseIf (¬ isUtf8Within media.alt kMaxPostAltBytes ∨ media.placeholder.length > kMaxPostPlaceholderBytes)
    "post: media alt text or placeholder too long"

def kMention : UInt8 := 1
def kLink : UInt8 := 2
def kHashtag : UInt8 := 3

def checkFacetValue (facet : PostFacet) : Roe Unit :=
  if facet.type = kMention then
    refuseIf (¬ (facet.value ≠ [] ∧ isUtf8Within facet.value kMaxPostAuthorBytes)) "post: bad mention"
  else if facet.type = kLink then
    refuseIf (¬ (isUtf8Within facet.value kMaxPostLinkUrlBytes ∧ isHttps facet.value))
      "post: a link is not an https URL"
  else if facet.type = kHashtag then
    refuseIf (¬ (facet.value ≠ [] ∧ facet.value.head? ≠ some 35 ∧ isUtf8Within facet.value kMaxPostHashtagBytes))
      "post: bad hashtag"
  else refuseIf (¬ (facet.type ≠ 0 ∧ isUtf8Within facet.value kMaxPostLinkUrlBytes)) "post: bad facet"

/-- Facet after facet, each past what the ones before it cover. -/
def checkFacetsFrom (text : ByteVector) (covered : Nat) : List PostFacet → Roe Unit
  | [] => .ok ()
  | facet :: facets =>
    (do
      refuseIf (facet.start.toNat < covered ∨ facet.start ≥ facet.stop ∨ facet.stop.toNat > text.length ∨
        ¬ isUtf8Boundary text facet.start.toNat ∨ ¬ isUtf8Boundary text facet.stop.toNat)
        "post: facets out of order, overlapping or off the text"
      checkFacetValue facet
      checkFacetsFrom text facet.stop.toNat facets)

def checkFacets (body : PostBody) : Roe Unit := do
  checkFacetsFrom body.text 0 body.facets
  refuseIf (body.facets.length > kMaxPostFacets ∨
    (body.facets.filter fun facet => facet.type = kMention).length > kMaxPostMentions) "post: too many facets"

def checkFilterFields (body : PostBody) : Roe Unit := do
  refuseIf (¬ isUtf8Within body.contentWarning kMaxPostContentWarningBytes)
    "post: content warning too long or not UTF-8"
  refuseIf (body.labels.length > kMaxPostLabels ∨ ¬ body.labels.all (isTagToken · kMaxPostLabelBytes false))
    "post: bad labels"
  refuseIf (body.languages.length > kMaxPostLanguages ∨ ¬ body.languages.all (isTagToken · kMaxPostLanguageBytes true))
    "post: bad languages"

/-- The refs of a post: a reply's two and a quote's. -/
def refsOf (body : PostBody) : List PostRef :=
  (body.reply.elim [] fun reply => [reply.root, reply.parent]) ++ body.quote.toList

def checkPostFields (body : PostBody) : Roe Unit := do
  refuseIf (¬ isUtf8Within body.text kMaxPostTextBytes) "post: text too long or not UTF-8"
  refuseIf (body.media.length > kMaxPostMedia) "post: too many media"
  body.media.forM checkMedia
  refuseIf (body.text = [] ∧ body.media = []) "post: empty"
  checkFacets body
  (refsOf body).forM checkRef
  checkFilterFields body

def checkService (service : PostService) : Roe Unit :=
  refuseIf (service.kind = [] ∨ service.kind.length > kMaxPostServiceKindBytes ∨
    service.terms.length > kMaxPostServiceTermsBytes ∨ ¬ isWellFormedUtf8 service.kind ∨
    ¬ isWellFormedUtf8 service.terms) "post: bad service"

def checkProfile (profile : ProfileBody) : Roe Unit := do
  refuseIf (profile.displayName.length > kMaxPostDisplayNameBytes ∨ ¬ isWellFormedUtf8 profile.displayName ∨
    profile.bio.length > kMaxPostBioBytes ∨ ¬ isWellFormedUtf8 profile.bio)
    "post: profile fields too long or not UTF-8"
  profile.services.forM checkService

def checkReact (react : ReactBody) : Roe Unit := do
  refuseIf (react.reaction = [] ∨ react.reaction.length > kMaxPostReactionBytes ∨
    ¬ isWellFormedUtf8 react.reaction) "post: bad reaction"
  checkRef react.target

/-- The body decodes for its kind and is within the limits; an unknown kind passes. -/
def checkPostBody (kind : UInt8) (body author : ByteVector) : Roe Unit :=
  match postKindOf kind with
  | none => .ok ()
  | some .post => do
    let post ← decodePostBody body
    checkPostFields post
  | some .edit => do
    let edit ← decodeEditBody body
    checkOwnRef edit.target author
    checkPostFields edit.replacement
  | some .delete => do
    let target ← decodeTargetBody body
    checkOwnRef target.target author
  | some .repost => do
    let target ← decodeTargetBody body
    checkRef target.target
  | some .react => do
    let react ← decodeReactBody body
    checkReact react
  | some .profile => do
    let profile ← decodeProfileBody body
    checkProfile profile
  | some .laneClose => do
    let close ← decodeLaneCloseBody body
    refuseIf (close.lastSeq = 0) "post: lane_close names no seq"
  | some .disavow => do
    let disavow ← decodeDisavowBody body
    disavow.targets.forM (checkOwnRef · author)

end PostBodies

/-! ## Entries and head statements as signed -/

/-- What the post code calls and does not define. -/
structure PostCrypto where
  blake2b256 : ByteVector → PostHash
  /-- `MlDsa::Verify(key, message, signature)`: `none` is its error. -/
  mlDsaVerify : ByteVector → ByteVector → ByteVector → Option Bool
  accountIdFromMlDsaPublicKey : ByteVector → Option ByteVector

/-- Signs with the account's key. -/
abbrev PostSigner := ByteVector → Roe ByteVector

def kMaxPostExtensions : Nat := 16
def kMaxPostHeadLanes : Nat := 64
def kMaxPostHeadTargets : Nat := 8
def kMaxPostTargetUrlBytes : Nat := 256
def kMaxPostClockSkewMs : Int := 5 * 60 * 1000

def kEntryDomain : ByteVector := stringBytes "pp-browser:post-entry-v1" ++ [0]
def kHeadDomain : ByteVector := stringBytes "pp-browser:post-head-v1" ++ [0]
def kMediaDomain : ByteVector := stringBytes "pp-browser:post-media-v1" ++ [0]
def kReportDomain : ByteVector := stringBytes "pp-browser:post-report-v1" ++ [0]
def kReportSubjectEntry : UInt8 := 1
def kReportSubjectMedia : UInt8 := 2
def kEntryVersion : UInt8 := 1
def kHeadVersion : UInt8 := 1

namespace Posts

open PostWire PostBodies

variable (crypto : PostCrypto)

/-! ## Entries -/

def writeExtension (extension : PostExtension) : ByteVector := putU16 extension.tag ++ putBytes extension.value

/-- The canonical bytes after the version. -/
def writeEntry (entry : PostEntry) : ByteVector :=
  putUtf8 entry.author ++ putLane entry.lane ++ putU64 entry.seq ++ putHash entry.prev ++
    putI64 entry.claimedAt ++ putU8 entry.kind ++ putBytes entry.body ++
    (putCount entry.extensions.length ++ entry.extensions.flatMap writeExtension)

def postEntryCanonicalBytes (entry : PostEntry) : ByteVector :=
  kEntryDomain ++ putU8 kEntryVersion ++ writeEntry entry

def readExtension : Reader UInt8 PostExtension := do
  let tag ← Read.u16
  let value ← Read.bytes
  pure ⟨tag, value⟩

/-- The tag is past the one before it. -/
def extensionFollows (last : Option PostExtension) (next : PostExtension) : Bool :=
  last.all fun last => last.tag < next.tag

/-- At most 16, tags strictly increasing: one canonical form. -/
def readExtensions : Reader UInt8 (List PostExtension) := do
  let count ← Read.count
  if count ≤ kMaxPostExtensions then readExtension.rows extensionFollows count none else Reader.fail

def readEntry : Reader UInt8 PostEntry := do
  let author ← Read.utf8
  let lane ← Read.lane
  let seq ← Read.u64
  let prev ← Read.hash
  let claimedAt ← Read.i64
  let kind ← Read.u8
  let body ← Read.bytes
  let extensions ← readExtensions
  pure ⟨author, lane, seq, prev, claimedAt, kind, body, extensions⟩

/-- `Expect(domain)` and the version byte. -/
def readVersion (domain : ByteVector) (version : UInt8) : Reader UInt8 Unit := do
  Read.expect domain
  let got ← Read.u8
  if got = version then pure () else Reader.fail

def parsePostEntry (canonical : ByteVector) : Roe PostEntry :=
  if canonical.length > kMaxPostEntryBytes then .error "post: entry over the size limit"
  else match readVersion kEntryDomain kEntryVersion canonical with
    | none => .error "post: not a v1 entry"
    | some (_, bytes) =>
      match readEntry bytes with
      | some (entry, []) => .ok entry
      | _ => .error "post: malformed entry"

def postEntryHash (canonical : ByteVector) : PostHash := crypto.blake2b256 canonical

/-- `adjacent_find` finds no pair that does not increase. -/
def tagsIncrease : List PostExtension → Bool
  | a :: b :: rest => a.tag < b.tag && tagsIncrease (b :: rest)
  | _ => true

def signPostEntry (entry : PostEntry) (signer : PostSigner) : Roe SignedPostEntry := do
  refuseIf (entry.extensions.length > kMaxPostExtensions ∨ ¬ tagsIncrease entry.extensions)
    "post: extensions must be at most 16, tags increasing"
  let canonical := postEntryCanonicalBytes entry
  refuseIf (canonical.length > kMaxPostEntryBytes) "post: entry over the size limit"
  let signature ← signer canonical
  .ok { canonical, signature }

/-- The key is the account's: it hashes to the id and signed the bytes. -/
def checkAccountSignature (accountId key canonical signature : ByteVector) : Roe Unit := do
  refuseIf (crypto.accountIdFromMlDsaPublicKey key ≠ some accountId) "post: key is not the author's"
  refuseIf (signature.length ≠ kMlDsa65SignatureBytes) "post: bad signature size"
  refuseIf (crypto.mlDsaVerify key canonical signature ≠ some true) "post: signature does not verify"

def isZero (hash : PostHash) : Bool := hash.val.all (· = 0)

/-- An entry valid on its own. -/
def verifyPostEntry (signedEntry : SignedPostEntry) (authorSigningKey : ByteVector) (nowMs : Int64) :
    Roe PostEntry := do
  let entry ← parsePostEntry signedEntry.canonical
  refuseIf (entry.author = [] ∨ entry.author.length > kMaxPostAuthorBytes) "post: bad author"
  checkAccountSignature crypto entry.author authorSigningKey signedEntry.canonical signedEntry.signature
  refuseIf (entry.seq = 0 ∨ decide (entry.seq = 1) ≠ isZero entry.prev) "post: seq and prev disagree"
  refuseIf (entry.kind = 0) "post: no kind"
  refuseIf (entry.claimedAt.toInt > nowMs.toInt + kMaxPostClockSkewMs) "post: claimed time is in the future"
  checkPostBody entry.kind entry.body entry.author
  pure entry

/-- `next` follows `prev` in one lane. -/
def checkPostChain (prev : PostEntry) (prevHash : PostHash) (next : PostEntry) : Roe Unit := do
  refuseIf (prev.author ≠ next.author ∨ prev.lane ≠ next.lane) "post: not the same lane"
  refuseIf (next.seq ≠ prev.seq + 1 ∨ next.prev ≠ prevHash) "post: does not follow"
  refuseIf (next.claimedAt < prev.claimedAt) "post: claimed time goes back"

/-- The author signed two histories. -/
def isPostFork (a : PostEntry) (aHash : PostHash) (b : PostEntry) (bHash : PostHash) : Bool :=
  a.author = b.author && a.lane = b.lane && a.seq = b.seq && aHash ≠ bHash

/-! ## Head statements -/

/-- `std::sort` by lane. -/
def sortLanes (lanes : List PostHeadLane) : List PostHeadLane := lanes.insertionSort fun a b => a.lane ≤ b.lane

def writeHeadLane (lane : PostHeadLane) : ByteVector := putLane lane.lane ++ putU64 lane.seq ++ putHash lane.entryHash

/-- The bytes after the version of a head whose lanes are in their order. -/
def writeHead (head : PostHead) : ByteVector :=
  putUtf8 head.author ++ putI64 head.issuedAt ++ (putCount head.lanes.length ++ head.lanes.flatMap writeHeadLane) ++
    (putCount head.targets.length ++ head.targets.flatMap putUtf8)

def postHeadCanonicalBytes (head : PostHead) : ByteVector :=
  kHeadDomain ++ putU8 kHeadVersion ++ writeHead { head with lanes := sortLanes head.lanes }

/-- The lane is past the one before it. -/
def laneFollows (last : Option PostLane) (lane : PostLane) : Bool := last.all (· < lane)

def readHeadPlace : Reader UInt8 (PostLane × UInt64) := do
  let lane ← Read.lane
  let seq ← Read.u64
  pure (lane, seq)

/-- The lanes one by one. A hash that is missing is noticed by the next read
after it: the next lane's seq or, behind the last lane, the count of targets. -/
def readHeadLanes : Nat → Option PostLane → ByteVector → Roe (List PostHeadLane × ByteVector)
  | 0, _, bytes => .ok ([], bytes)
  | n + 1, last, bytes =>
    match readHeadPlace bytes with
    | none => .error "post: head lanes unsorted, repeated or empty"
    | some ((lane, seq), bytes) =>
      if seq = 0 || !laneFollows last lane then .error "post: head lanes unsorted, repeated or empty"
      else match Read.hash bytes with
        | none =>
          .error (if n = 0 then "post: head has too many targets"
            else "post: head lanes unsorted, repeated or empty")
        | some (entryHash, bytes) => do
          let (lanes, bytes) ← readHeadLanes n (some lane) bytes
          .ok (⟨lane, seq, entryHash⟩ :: lanes, bytes)

/-- An https URL within the limit. -/
def isTarget (target : ByteVector) : Bool :=
  target.length ≤ kMaxPostTargetUrlBytes && isHttps target && isWellFormedUtf8 target

/-- A count no greater than the limit. -/
def readCountWithin (limit : Nat) : Reader UInt8 Nat := do
  let count ← Read.count
  if count ≤ limit then pure count else Reader.fail

def readHeadOpening : Reader UInt8 (ByteVector × Int64 × Nat) := do
  let author ← Read.utf8
  let issuedAt ← Read.i64
  let count ← readCountWithin kMaxPostHeadLanes
  pure (author, issuedAt, count)

def parsePostHead (canonical : ByteVector) : Roe PostHead :=
  if canonical.length > kMaxPostEntryBytes then .error "post: head over the size limit"
  else match readVersion kHeadDomain kHeadVersion canonical with
    | none => .error "post: not a v1 head"
    | some (_, bytes) =>
      match readHeadOpening bytes with
      | none => .error "post: head has too many lanes"
      | some ((author, issuedAt, count), bytes) => do
        let (lanes, bytes) ← readHeadLanes count none bytes
        match readCountWithin kMaxPostHeadTargets bytes with
        | none => .error "post: head has too many targets"
        | some (count, bytes) =>
          match Read.utf8.rows (fun _ target => isTarget target) count none bytes with
          | none => .error "post: a head target is not an https URL"
          | some (targets, bytes) =>
            if bytes ≠ [] || author = [] || author.length > kMaxPostAuthorBytes then
              .error "post: malformed head"
            else .ok { author, issuedAt, lanes, targets }

def postHeadHash (canonical : ByteVector) : PostHash := crypto.blake2b256 canonical

def signPostHead (head : PostHead) (signer : PostSigner) : Roe SignedPostHead := do
  refuseIf (head.lanes.length > kMaxPostHeadLanes) "post: head has too many lanes"
  refuseIf (head.targets.length > kMaxPostHeadTargets ∨ ¬ head.targets.all isTarget)
    "post: head targets must be at most 8 https URLs"
  let canonical := postHeadCanonicalBytes head
  let signature ← signer canonical
  .ok { canonical, signature }

/-- A head statement signed by its author's key, not from the future. -/
def verifyPostHead (signedHead : SignedPostHead) (authorSigningKey : ByteVector) (nowMs : Int64) : Roe PostHead := do
  let head ← parsePostHead signedHead.canonical
  checkAccountSignature crypto head.author authorSigningKey signedHead.canonical signedHead.signature
  refuseIf (head.issuedAt.toInt > nowMs.toInt + kMaxPostClockSkewMs) "post: head issued in the future"
  pure head

/-! ## Media and reports -/

/-- What an author signs to upload a post's media to a relay. -/
def postMediaPresignSignBytes (accountId : ByteVector) (contentId : PostHash) (size : UInt64) (mime : ByteVector)
    (issuedAt : Int64) : ByteVector :=
  kMediaDomain ++ putU8 1 ++ putUtf8 accountId ++ putHash contentId ++ putU64 size ++ putUtf8 mime ++ putI64 issuedAt

def writeReportHeader (reporter : ByteVector) (subjectKind : UInt8) : ByteVector :=
  kReportDomain ++ putU8 1 ++ putUtf8 reporter ++ putU8 subjectKind

def reportTail (reason note : ByteVector) (issuedAt : Int64) : ByteVector :=
  putUtf8 reason ++ putUtf8 note ++ putI64 issuedAt

def postEntryReportSignBytes (reporter : ByteVector) (entry : PostRef) (reason note : ByteVector) (issuedAt : Int64) :
    ByteVector :=
  writeReportHeader reporter kReportSubjectEntry ++ putRef entry ++ reportTail reason note issuedAt

/-- What a reporter signs to report a media object. -/
def postMediaReportSignBytes (reporter : ByteVector) (contentId : PostHash) (reason note : ByteVector)
    (issuedAt : Int64) : ByteVector :=
  writeReportHeader reporter kReportSubjectMedia ++ putHash contentId ++ reportTail reason note issuedAt

end Posts

end Pbr
