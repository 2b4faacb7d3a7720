import PpBrowser.Lib.Asking
import PpBrowser.Lib.Keyed
import PpBrowser.Messaging.GroupChange

/-!
# GroupRosterRules — the roster from a statement and changes

`GroupRosterRules.cpp`: signature checks (`checkChanges`), the class
`RosterRules` with its rules R1–R6 (`RosterRules.run`), and the owner's
fold (`foldChanges`).

The class memoises five facts (`removes_memo_`, `leaves_memo_`,
`remove_kept_memo_`, `leave_kept_memo_`, `removed_memo_`); every rule
that asks one is an `Asking` program, and `run` answers it with
`Lib.solve`: computed once, kept, and false when met again while being
computed. The order of the asks is the order of the C++ calls, short
circuits included.
-/

namespace Pbr

open Lib

/-! ## Verdicts and the view -/

inductive GroupChangeProof where
  | proved | malformed | noCard | badSignature
  deriving DecidableEq, Repr

/-- A change after its signature check. -/
structure CheckedGroupChange where
  change : GroupChange
  id : String
  proof : GroupChangeProof := .noCard
  /-- Its device is on the signer's newest card. -/
  deviceCurrent : Bool := false
  deriving DecidableEq, Repr

inductive GroupChangeStatus where
  | applied | superseded | undone | void | dropped
  deriving DecidableEq, Repr

inductive GroupChangeReason where
  | none
  | otherGroup | folded | tooOld | dissolved | malformed | badSignature
  | noCard | signerNotJoined | noSuchLink
  | deviceOffCard | signerOut | notAllowed | removedMember | notReadmitted
  | groupFull | duplicateLink
  | namedByLeave | namedByRemove | olderTitle | lostRename
  deriving DecidableEq, Repr

structure GroupChangeVerdict where
  id : String
  kind : GroupChangeKind := .add
  signer : String := ""
  baseEpoch : Nat := 0
  status : GroupChangeStatus := .void
  reason : GroupChangeReason := .none
  deriving DecidableEq, Repr

structure GroupRosterViewMember where
  identity : String
  role : MemberRole := .member
  joinedAt : Int := 0
  addedBy : String := ""
  /-- The add that brought them in; empty when the statement lists them. -/
  addedIn : String := ""
  deriving DecidableEq, Repr

inductive GroupLinkEnd where
  | revoked | makerOut | expired
  deriving DecidableEq, Repr

structure GroupEndedLink where
  link : GroupInviteLink
  end_ : GroupLinkEnd := .revoked
  deriving DecidableEq, Repr

/-- How many statements a change may lag behind. -/
def kChangeFloorLag : Nat := 32

/-- The roster: the latest statement plus every unfolded change. -/
structure GroupRosterView where
  groupId : String := ""
  statementEpoch : Nat := 0
  ownerIdentity : String := ""
  preset : GroupPreset := .open_
  dissolved : Bool := false
  members : List GroupRosterViewMember := []
  removed : List GroupRemovedMember := []
  links : List GroupInviteLink := []
  endedLinks : List GroupEndedLink := []
  title : String := ""
  titleVersion : Nat := 0
  verdicts : List GroupChangeVerdict := []
  deriving DecidableEq, Repr

namespace GroupRosterView

def find (view : GroupRosterView) (identity : String) : Option GroupRosterViewMember :=
  view.members.find? (·.identity = identity)

def lists (view : GroupRosterView) (identity : String) : Bool :=
  (view.find identity).isSome

def verdict (view : GroupRosterView) (changeId : String) : Option GroupChangeVerdict :=
  view.verdicts.find? (·.id = changeId)

end GroupRosterView

/-! ## Checking signatures -/

/-- `GroupCardLookup`: the newest card held for an account, if any. -/
abbrev GroupCardLookup := String → Option AccountCard

/-- A lookup to run the code on: every account's card lists its device `d`. -/
def sampleCards : GroupCardLookup := fun account =>
  some { keys := { accountId := account }, devices := [{ peerId := "d" }] }

/-- Newest first: higher `issued_at`, then the lower signature. -/
def newerCard (a b : AccountCard) : Bool :=
  b.issuedAt < a.issuedAt ∨
    (b.issuedAt = a.issuedAt ∧ a.cardSignatureB64 < b.cardSignatureB64)

/-- Every card that proves itself for `account`, newest first. -/
def provedCards (K : GroupCrypto) (account : String) (changes : List GroupChange)
    (cards : GroupCardLookup) (nowMs : Int) : List AccountCard :=
  let candidates := (cards account).toList ++
    (changes.filter (·.signer = account)).filterMap (·.signerCard)
  let proved := candidates.foldl (fun proved card =>
    if card ∉ proved ∧ card.keys.accountId = account ∧ K.verifyAccountCard card nowMs
    then proved ++ [card] else proved) []
  proved.insertionSort (fun a b => ¬ newerCard b a)

/-- The first card listing the signing device decides. -/
def checkOne (K : GroupCrypto) (change : GroupChange) (cards : List AccountCard) :
    CheckedGroupChange :=
  let checked : CheckedGroupChange := { change, id := change.id K }
  if !change.shaped then { checked with proof := .malformed }
  else
    match cards.findIdx? (fun card => (findCardDevice card change.signerDevice).isSome) with
    | some i =>
      match (cards[i]?).bind (findCardDevice · change.signerDevice) with
      | some device =>
        { checked with
          proof := if (change.verifyDeviceSignature K device).isOk then .proved
            else .badSignature
          deviceCurrent := i = 0 }
      | none => { checked with proof := .noCard }
    | none => { checked with proof := .noCard }

/-- Proved before missing a card before the rest. -/
def copyRank (c : CheckedGroupChange) : Nat :=
  match c.proof with
  | .proved => 0
  | .noCard => 1
  | _ => 2

/-- Of two copies of one change, whether `a` is the one to keep. -/
def betterCopy (a b : CheckedGroupChange) : Bool :=
  if copyRank a ≠ copyRank b then copyRank a < copyRank b
  else a.change.signatureB64 < b.change.signatureB64

def collapseStep (best : StrMap CheckedGroupChange) (c : CheckedGroupChange) :
    StrMap CheckedGroupChange :=
  match best[c.id]? with
  | none => best.insert c.id c
  | some kept => if betterCopy c kept then best.insert c.id c else best

/-- One copy per id, in id order. -/
def collapse (changes : List CheckedGroupChange) : List CheckedGroupChange :=
  values (changes.foldl collapseStep ∅)

/-- Verify each change against its signer's cards. -/
def checkChanges (K : GroupCrypto) (changes : List GroupChange) (cards : GroupCardLookup)
    (nowMs : Int) : List CheckedGroupChange :=
  collapse (changes.map fun c => checkOne K c (provedCards K c.signer changes cards nowMs))

/-! ## The rules -/

def roleRank : MemberRole → Nat
  | .owner => 2
  | .admin => 1
  | .member => 0

/-- Where a signer stands, as one rule sees it. -/
structure SignerState where
  in_ : Bool := false
  /-- Came in and was not removed (a leaver is present, not in). -/
  present : Bool := false
  roleNow : MemberRole := .member
  roleBeforeLeave : MemberRole := .member

/-- The five memos of `RosterRules`. -/
inductive MemoName where
  | removes | leaves | removeKept | leaveKept | removed
  deriving DecidableEq, Repr

/-- A memo and a key in it: a change id, or an account for `removed`. -/
structure Fact where
  memo : MemoName
  key : String
  deriving DecidableEq, Repr

abbrev Rule := Asking Fact

abbrev Changes := List CheckedGroupChange

def StrMap.of {α : Type} (index : StrMap (List α)) (key : String) : List α :=
  (index[key]?).getD []

def StrMap.pushBack {α : Type} (index : StrMap (List α)) (key : String) (c : α) :
    StrMap (List α) :=
  index.insert key (index.of key ++ [c])

/-- What `Classify` and `Index` fill: the statement's maps, the held
changes and their indexes. -/
structure RosterRules where
  s : GroupRosterStatement
  now : Int
  sMembers : StrMap GroupRosterStatementMember
  sRemoved : StrMap GroupRemovedMember
  held : StrMap CheckedGroupChange := ∅
  verdicts : StrMap GroupChangeVerdict := ∅
  /-- Accounts some held add (proved or not) names. -/
  joining : StrSet := ∅
  adds : Changes := []
  renames : Changes := []
  linkAdds : Changes := []
  linkRevokes : Changes := []
  removesOf : StrMap Changes := ∅
  leavesBy : StrMap Changes := ∅
  keptByRemove : StrMap Changes := ∅
  keptByLeave : StrMap Changes := ∅

def verdictOf (c : CheckedGroupChange) (status : GroupChangeStatus)
    (reason : GroupChangeReason) : GroupChangeVerdict :=
  { id := c.id, kind := c.change.kind, signer := c.change.signer
    baseEpoch := c.change.baseEpoch, status, reason }

/-- `verdicts_[c.id] = …`. -/
def mark (verdicts : StrMap GroupChangeVerdict) (c : CheckedGroupChange)
    (status : GroupChangeStatus) (reason : GroupChangeReason) : StrMap GroupChangeVerdict :=
  verdicts.insert c.id (verdictOf c status reason)

namespace RosterRules

/-- The constructor: the statement's rows by account. -/
def start (s : GroupRosterStatement) (now : Int) : RosterRules :=
  { s, now
    sMembers := s.members.foldl (fun m row => m.insert row.identity row) ∅
    sRemoved := s.removed.foldl (fun m row => m.insert row.identity row) ∅ }

/-! ### Sorting the changes in -/

/-- Why `Classify` does not hold `c`, if it does not. -/
def classifyOne (s : GroupRosterStatement) (folded : StrSet) (c : CheckedGroupChange) :
    Option (GroupChangeStatus × GroupChangeReason) :=
  if c.change.groupId ≠ s.groupId then some (.dropped, .otherGroup)
  else if c.id ∈ folded then some (.dropped, .folded)
  else if c.change.baseEpoch < s.changeFloorEpoch then some (.dropped, .tooOld)
  else if s.dissolved then some (.dropped, .dissolved)
  else
    match c.proof with
    | .malformed => some (.dropped, .malformed)
    | .badSignature => some (.dropped, .badSignature)
    | .noCard => some (.void, .noCard)
    | .proved => none

def classifyStep (folded : StrSet) (x : RosterRules) (c : CheckedGroupChange) : RosterRules :=
  match classifyOne x.s folded c with
  | none => { x with held := x.held.insert c.id c }
  | some (status, reason) =>
    { x with
      verdicts := mark x.verdicts c status reason
      joining := if status = .void then
          x.joining.insert (if c.change.kind = .add then c.change.member else "")
        else x.joining }

def foldedIds (s : GroupRosterStatement) : StrSet :=
  s.folded.foldl (fun ids f => ids.insert f.id) ∅

/-- Drop what is not this group's live business; hold the rest (unproved
ones as void, for later). -/
def classify (x : RosterRules) (changes : List CheckedGroupChange) : RosterRules :=
  let x := changes.foldl (classifyStep (foldedIds x.s)) x
  { x with joining := x.joining.erase "" }

def indexStep (x : RosterRules) (c : CheckedGroupChange) : RosterRules :=
  match c.change.kind with
  | .add => { x with adds := x.adds ++ [c], joining := x.joining.insert c.change.member }
  | .remove =>
    { x with
      removesOf := x.removesOf.pushBack c.change.member c
      keptByRemove := c.change.keeps.foldl (·.pushBack · c) x.keptByRemove }
  | .leave =>
    { x with
      leavesBy := x.leavesBy.pushBack c.change.signer c
      keptByLeave := c.change.keeps.foldl (·.pushBack · c) x.keptByLeave }
  | .rename => { x with renames := x.renames ++ [c] }
  | .linkAdd => { x with linkAdds := x.linkAdds ++ [c] }
  | .linkRevoke => { x with linkRevokes := x.linkRevokes ++ [c] }

def index (x : RosterRules) : RosterRules :=
  (values x.held).foldl indexStep x

/-! ### Facts (removals, leaves, keeps) -/

section Rules

variable (x : RosterRules)

def statementRole (account : String) : MemberRole :=
  match x.sMembers[account]? with
  | none => .member
  | some m => m.role

def inStatement (account : String) : Bool := x.sMembers.contains account

def validRemove (r : CheckedGroupChange) : Rule Bool := .fact ⟨.removes, r.id⟩
def validLeave (l : CheckedGroupChange) : Rule Bool := .fact ⟨.leaves, l.id⟩
def removeKept (c : CheckedGroupChange) : Rule Bool := .fact ⟨.removeKept, c.id⟩
def leaveKept (c : CheckedGroupChange) : Rule Bool := .fact ⟨.leaveKept, c.id⟩
def removedByChange (account : String) : Rule Bool := .fact ⟨.removed, account⟩

/-- R3: a `remove` of the signer, itself valid, lists `c` in its keeps. -/
def removeKeptBody (c : CheckedGroupChange) : Rule Bool :=
  (x.keptByRemove.of c.id).anyM fun r =>
    if r.change.member = c.change.signer then validRemove r else pure false

/-- R3: the signer's own valid `leave` lists `c`, and nobody removed the
signer. -/
def leaveKeptBody (c : CheckedGroupChange) : Rule Bool :=
  match x.keptByLeave[c.id]? with
  | none => pure false
  | some leaves => do
    if ← removedByChange c.change.signer then pure false
    else leaves.anyM fun l =>
      if l.change.signer = c.change.signer then validLeave l else pure false

def removedByChangeBody (account : String) : Rule Bool :=
  (x.removesOf.of account).anyM validRemove

def leftByChange (account : String) : Rule Bool :=
  (x.leavesBy.of account).anyM validLeave

/-- The statement's membership of `account` stands: listed, not removed,
not left. -/
def statementStands (account : String) : Rule Bool := do
  if !x.inStatement account then pure false
  else if ← removedByChange account then pure false
  else not <$> x.leftByChange account

def presentInStatement (account : String) : Rule Bool :=
  if x.inStatement account then not <$> removedByChange account else pure false

def fromStatement (account : String) : Rule SignerState := do
  let present ← x.presentInStatement account
  let in_ ← (if present then not <$> x.leftByChange account else pure false)
  pure {
    present, in_
    roleNow := if in_ then x.statementRole account else .member
    roleBeforeLeave := if present then x.statementRole account else .member }

/-- Known to the statement, removed or left. -/
def knownOut (account : String) : Rule Bool :=
  if x.inStatement account || x.sRemoved.contains account then pure true
  else do
    if ← removedByChange account then pure true
    else x.leftByChange account

/-- Not in the group: for good, or not yet (no add of them stands). -/
def notInReason (account : String) : Rule GroupChangeReason :=
  (fun known => if known then .signerOut else .signerNotJoined) <$> x.knownOut account

/-- R3 and R6 for `c`, and the role it was judged at (`member` when it is
refused). -/
def entitlement (c : CheckedGroupChange) (action : GroupAction) (target : MemberRole)
    (state : String → Rule SignerState) : Rule (GroupChangeReason × MemberRole) := do
  let signer := c.change.signer
  if ← removeKept c then pure (.none, x.statementRole signer)
  -- the statement's role is the most the signer can hold
  else if !groupAllows action (x.statementRole signer) x.s.preset target then
    pure (.notAllowed, .member)
  else do
    let leaveKept ← leaveKept c
    if !c.deviceCurrent && !leaveKept then pure (.deviceOffCard, .member)
    else do
      let st ← state signer
      if st.in_ || (leaveKept && st.present) then
        let acting := if st.in_ then st.roleNow else st.roleBeforeLeave
        pure (if groupAllows action acting x.s.preset target then (.none, acting)
          else (.notAllowed, .member))
      else do
        let reason ← x.notInReason signer
        pure (reason, .member)

def removeReason (r : CheckedGroupChange) : Rule GroupChangeReason :=
  if r.change.member = x.s.ownerIdentity then pure .notAllowed
  else Prod.fst <$> x.entitlement r .remove (x.statementRole r.change.member) x.fromStatement

/-- Anyone but the owner leaves, from a device on the card. -/
def leaveReason (l : CheckedGroupChange) : Rule GroupChangeReason :=
  if !groupAllows .leave (x.statementRole l.change.signer) x.s.preset .member then
    pure .notAllowed
  else if l.deviceCurrent then pure .none
  else (fun kept => if kept then .none else .deviceOffCard) <$> removeKept l

/-- What a memo computes for its key; `held_` has the change it names. -/
def factBody (f : Fact) : Rule Bool :=
  match f.memo with
  | .removed => x.removedByChangeBody f.key
  | memo =>
    match x.held[f.key]? with
    | none => pure false
    | some c =>
      match memo with
      | .removes => (fun reason => decide (reason = .none)) <$> x.removeReason c
      | .leaves => (fun reason => decide (reason = .none)) <$> x.leaveReason c
      | .removeKept => x.removeKeptBody c
      | _ => x.leaveKeptBody c

/-- Every memo key that can ask further: four a held change, one an
account some held change removes. -/
def memoDepth : Nat := 4 * x.held.size + x.removesOf.size + 2

def answer : Fact → Memo Fact → Bool × Memo Fact := solve x.factBody x.memoDepth

/-! ### Adds (R1, R2, R5) -/

/-- R2: an add of someone removed names the removal, and no other add
names one. -/
def readmitted (a : CheckedGroupChange) : Rule Bool :=
  match x.sRemoved[a.change.member]? with
  | some removed =>
    pure (a.change.readmits ≠ "" ∧ a.change.readmits = removed.removal : Bool)
  | none =>
    if a.change.readmits = "" then pure true
    else (x.removesOf.of a.change.member).anyM fun r =>
      if r.id = a.change.readmits then validRemove r else pure false

/-- R1 / R2 reasons an add fails or is undone, before who signed it
matters. -/
def staticAddReason (a : CheckedGroupChange) : Rule GroupChangeReason := do
  let removes := x.removesOf.of a.change.member
  if ← removes.anyM fun r => (· && r.change.adds.contains a.id) <$> validRemove r then
    pure .namedByRemove
  else if (← removedByChange a.change.member) && x.statementRole a.change.signer = .member then
    pure .removedMember
  else if !(← x.readmitted a) then pure .notReadmitted
  else if ← (x.leavesBy.of a.change.member).anyM fun l =>
      (· && l.change.adds.contains a.id) <$> validLeave l then
    pure .namedByLeave
  else pure .none

/-- `in_`, `present_`, `accepted_` and `joined_by_`. -/
structure Joined where
  in_ : StrSet := ∅
  present : StrSet := ∅
  accepted : StrSet := ∅
  joinedBy : StrMap CheckedGroupChange := ∅

def fromRoster (j : Joined) (account : String) : Rule SignerState :=
  (fun st => { st with in_ := j.in_.contains account, present := j.present.contains account })
    <$> x.fromStatement account

def addEntitlement (j : Joined) (a : CheckedGroupChange) : Rule GroupChangeReason :=
  let action : GroupAction := if a.change.readmits = "" then .invite else GroupAction.readmit
  Prod.fst <$> x.entitlement a action .member (x.fromRoster j)

/-- What an entitled add does: an add a leave names makes its member
present only (no place). `none`: no place left. -/
def takeIn (staticReasons : StrMap GroupChangeReason) (j : Joined) (a : CheckedGroupChange) :
    Option Joined :=
  let member := a.change.member
  if staticReasons[a.id]? = some .namedByLeave then
    some { j with present := j.present.insert member, accepted := j.accepted.insert a.id }
  else if member ∈ j.in_ then some { j with accepted := j.accepted.insert a.id }
  else if j.in_.size ≥ kMaxGroupMembers then none -- R5
  else some {
    in_ := j.in_.insert member, present := j.present.insert member
    joinedBy := j.joinedBy.insert member a, accepted := j.accepted.insert a.id }

/-- Take `a` in if its signer stands now. `none`: not taken. -/
def tryAccept (staticReasons : StrMap GroupChangeReason) (j : Joined)
    (a : CheckedGroupChange) : Rule (Option Joined) :=
  (fun reason => if reason = .none then takeIn staticReasons j a else none)
    <$> x.addEntitlement j a

def standStep (j : Joined) (identity : String) : Rule Joined := do
  let removed ← removedByChange identity
  let stands ← x.statementStands identity
  pure { j with
    present := if removed then j.present else j.present.insert identity
    in_ := if stands then j.in_.insert identity else j.in_ }

/-- The statement's members that stand. -/
def standingMembers : Rule Joined :=
  (x.sMembers.toList.map Prod.fst).foldlM x.standStep {}

def acceptStep (staticReasons : StrMap GroupChangeReason) (acc : Bool × Joined)
    (a : CheckedGroupChange) : Rule (Bool × Joined) :=
  if a.id ∈ acc.2.accepted then pure acc
  else (fun | none => acc | some j => (true, j)) <$> x.tryAccept staticReasons acc.2 a

/-- One pass over the open adds; `true` when one was taken. -/
def acceptPass (staticReasons : StrMap GroupChangeReason) (openAdds : Changes) (j : Joined) :
    Rule (Bool × Joined) :=
  openAdds.foldlM (x.acceptStep staticReasons) (false, j)

/-- Passes until none takes an add; a pass that takes one shortens what is
open, so `openAdds.length + 1` of them are enough. -/
def acceptPasses (staticReasons : StrMap GroupChangeReason) (openAdds : Changes) :
    Nat → Joined → Rule Joined
  | 0, j => pure j
  | n + 1, j => do
    let pass ← x.acceptPass staticReasons openAdds j
    if pass.1 then acceptPasses staticReasons openAdds n pass.2 else pure pass.2

/-- The static reason of every held add. -/
def staticReasonsOf : Rule (StrMap GroupChangeReason) :=
  x.adds.foldlM (fun reasons a => reasons.insert a.id <$> x.staticAddReason a) ∅

/-- The adds whose static reason leaves them open. -/
def openAdds (staticReasons : StrMap GroupChangeReason) : Changes :=
  x.adds.filter fun a =>
    staticReasons[a.id]? = some .none ∨ staticReasons[a.id]? = some .namedByLeave

/-- The statement's members that stand, then the adds in change-id order,
over and over until none more is taken in. -/
def runAdds : Rule (StrMap GroupChangeReason × Joined) := do
  let j ← x.standingMembers
  let staticReasons ← x.staticReasonsOf
  let openAdds := x.openAdds staticReasons
  let j ← x.acceptPasses staticReasons openAdds (openAdds.length + 1) j
  pure (staticReasons, j)

abbrev Verdicts := StrMap GroupChangeVerdict

def addOutcome (staticReasons : StrMap GroupChangeReason) (j : Joined)
    (a : CheckedGroupChange) : Rule (GroupChangeStatus × GroupChangeReason) :=
  let staticReason := (staticReasons[a.id]?).getD .none
  if a.id ∈ j.accepted then
    pure (if staticReason = .namedByLeave then (.undone, .namedByLeave) else (.applied, .none))
  else if staticReason = .namedByRemove then pure (.undone, .namedByRemove)
  else if staticReason ≠ .none ∧ staticReason ≠ .namedByLeave then pure (.void, staticReason)
  else
    (fun reason => (.void, if reason = .none then .groupFull else reason))
      <$> x.addEntitlement j a

def judgeAdd (staticReasons : StrMap GroupChangeReason) (j : Joined) (verdicts : Verdicts)
    (a : CheckedGroupChange) : Rule Verdicts :=
  (fun outcome => mark verdicts a outcome.1 outcome.2) <$> x.addOutcome staticReasons j a

/-! ### Removes, leaves, renames, links -/

def removeOutcome (r : CheckedGroupChange) : Rule GroupChangeReason := do
  if ← validRemove r then pure .none else x.removeReason r

def judgeRemove (verdicts : Verdicts) (r : CheckedGroupChange) : Rule Verdicts :=
  (fun reason => mark verdicts r (if reason = .none then .applied else .void) reason)
    <$> x.removeOutcome r

/-- The statement or some add knows the signer of a leave. -/
def knownLeaver (signer : String) : Bool :=
  x.inStatement signer || x.sRemoved.contains signer || x.joining.contains signer

def leaveOutcome (l : CheckedGroupChange) : Rule GroupChangeReason := do
  if ← validLeave l then pure .none else x.leaveReason l

/-- A leave by someone neither the statement nor any add knows may matter
once their add arrives. -/
def judgeLeave (verdicts : Verdicts) (l : CheckedGroupChange) : Rule Verdicts :=
  (fun outcome =>
    let reason : GroupChangeReason :=
      if outcome = .none ∧ !x.knownLeaver l.change.signer then .signerNotJoined else outcome
    mark verdicts l (if reason = .none then .applied else .void) reason)
    <$> x.leaveOutcome l

def judgeRemovesAndLeaves (verdicts : Verdicts) : Rule Verdicts := do
  let verdicts ← (values x.removesOf).flatten.foldlM x.judgeRemove verdicts
  (values x.leavesBy).flatten.foldlM x.judgeLeave verdicts

/-- The rename that wins so far, with its version and role rank. -/
abbrev BestRename := Option (CheckedGroupChange × Nat × Nat)

/-- `rank > best_rank`; the renames are in id order, so on a tie the lower
id stays. -/
def betterRename (best : BestRename) (version rank : Nat) : Bool :=
  match best with
  | none => true
  | some (_, bestVersion, bestRank) =>
    bestVersion < version ∨ (bestVersion = version ∧ bestRank < rank)

/-- What an entitled rename does, at the role it was judged at. -/
def enterRename (acc : Verdicts × BestRename) (c : CheckedGroupChange) (role : MemberRole) :
    Verdicts × BestRename :=
  if c.change.titleVersion ≤ x.s.titleVersion then
    (mark acc.1 c .superseded .olderTitle, acc.2)
  else
    (mark acc.1 c .superseded .lostRename,
      if betterRename acc.2 c.change.titleVersion (roleRank role) then
        some (c, c.change.titleVersion, roleRank role)
      else acc.2)

def judgeRename (j : Joined) (acc : Verdicts × BestRename) (c : CheckedGroupChange) :
    Rule (Verdicts × BestRename) :=
  (fun judged => if judged.1 = .none then x.enterRename acc c judged.2
      else (mark acc.1 c .void judged.1, acc.2))
    <$> x.entitlement c .rename .member (x.fromRoster j)

/-- R4: the highest title version, then the higher role, then the lower
change id. -/
def judgeRenames (j : Joined) (verdicts : Verdicts) : Rule (Verdicts × String × Nat) :=
  (fun judged => match judged.2 with
    | none => (judged.1, x.s.title, x.s.titleVersion)
    | some (c, _, _) =>
      (mark judged.1 c .applied .none, c.change.title, c.change.titleVersion))
    <$> x.renames.foldlM (x.judgeRename j) (verdicts, none)

def linkOf (ch : GroupChange) : GroupInviteLink :=
  { linkId := ch.linkId, secretHash := ch.secretHash, maker := ch.signer
    expiresAt := ch.expiresAt, maxUses := ch.maxUses }

/-- `links_`, `gone_makers_links_` and `revoked_`. -/
structure Links where
  links : StrMap GroupInviteLink := ∅
  goneMakersLinks : StrMap GroupInviteLink := ∅
  revoked : StrSet := ∅

/-- What a `link_add` judged `reason` does. -/
def enterLink (acc : Verdicts × Links) (c : CheckedGroupChange) (reason : GroupChangeReason) :
    Verdicts × Links :=
  let (verdicts, l) := acc
  let linkId := c.change.linkId
  if reason ≠ .none then
    (mark verdicts c .void reason,
      if reason = .signerOut then
        -- it died with its maker
        { l with goneMakersLinks := l.goneMakersLinks.insertIfNew linkId (linkOf c.change) }
      else l)
  else if l.links.contains linkId then (mark verdicts c .void .duplicateLink, l)
  else
    (mark verdicts c .applied .none,
      { l with links := l.links.insert linkId (linkOf c.change) })

def judgeLinkAdd (j : Joined) (acc : Verdicts × Links) (c : CheckedGroupChange) :
    Rule (Verdicts × Links) :=
  (fun judged => enterLink acc c judged.1)
    <$> x.entitlement c .makeInviteLink .member (x.fromRoster j)

def statementLinks : StrMap GroupInviteLink :=
  x.s.links.foldl (fun m link => m.insert link.linkId link) ∅

def judgeLinkAdds (j : Joined) (verdicts : Verdicts) : Rule (Verdicts × Links) :=
  (fun (verdicts, l) => (verdicts,
    { l with goneMakersLinks := l.links.keys.foldl (·.erase ·) l.goneMakersLinks }))
    <$> x.linkAdds.foldlM (x.judgeLinkAdd j) (verdicts, { links := x.statementLinks })

/-- A link's maker revokes it, as do the owner and admins. -/
def judgeLinkRevoke (j : Joined) (acc : Verdicts × Links) (c : CheckedGroupChange) :
    Rule (Verdicts × Links) :=
  let (verdicts, l) := acc
  match l.links[c.change.linkId]? with
  | none => pure (mark verdicts c .void .noSuchLink, l)
  | some link =>
    let action : GroupAction :=
      if c.change.signer = link.maker then .send else .revokeInviteLink
    (fun (reason, _) => (mark verdicts c (if reason = .none then .applied else .void) reason,
      if reason = .none then { l with revoked := l.revoked.insert c.change.linkId } else l))
      <$> x.entitlement c action .member (x.fromRoster j)

def judgeLinks (j : Joined) (verdicts : Verdicts) : Rule (Verdicts × Links) := do
  let acc ← x.judgeLinkAdds j verdicts
  x.linkRevokes.foldlM (x.judgeLinkRevoke j) acc

/-! ### The view -/

/-- The row of a member: the add that brought them in, else the
statement's (which lists everyone else who is in). -/
def memberRow (j : Joined) (identity : String) : Option GroupRosterViewMember :=
  match j.joinedBy[identity]? with
  | some a => some { identity, role := .member, joinedAt := a.change.at_
                     addedBy := a.change.signer, addedIn := a.id }
  | none => (x.sMembers[identity]?).map fun m =>
    { identity, role := m.role, joinedAt := m.joinedAt, addedBy := m.addedBy }

/-- The first valid remove of a list in id order names the removal. -/
def namedRemoval (member : String) : Changes → Rule (Option GroupRemovedMember)
  | [] => pure none
  | r :: rest => do
    if ← validRemove r then
      pure (some { identity := member, removal := r.id, removedBy := r.change.signer })
    else namedRemoval member rest

def removalStep (removed : StrMap GroupRemovedMember) (entry : String × Changes) :
    Rule (StrMap GroupRemovedMember) :=
  (fun | some row => removed.insert entry.1 row | none => removed)
    <$> namedRemoval entry.1 entry.2

def removedRows (j : Joined) : Rule (List GroupRemovedMember) :=
  (fun removed => (removed.toList.filter fun entry => entry.1 ∉ j.in_).map Prod.snd)
    <$> x.removesOf.toList.foldlM removalStep x.sRemoved

/-- How many accepted adds carry a link's id. -/
def usesOf (j : Joined) (linkId : String) : Nat :=
  x.adds.countP fun a => a.change.linkId ≠ "" ∧ a.id ∈ j.accepted ∧ a.change.linkId = linkId

/-- Why a known link no longer works, if it does not. -/
def linkEnd (j : Joined) (l : Links) (link : GroupInviteLink) : Option GroupLinkEnd :=
  if link.linkId ∈ l.revoked then some .revoked
  else if link.maker ∉ j.in_ then some .makerOut
  else if link.expiresAt ≤ x.now then some .expired
  else none

/-- The known links with the joins each brought. -/
def knownLinks (j : Joined) (l : Links) : List GroupInviteLink :=
  l.links.toList.map fun entry =>
    { entry.2 with uses := u64 (entry.2.uses + x.usesOf j entry.1) }

def liveLinks (j : Joined) (l : Links) : List GroupInviteLink :=
  (x.knownLinks j l).filter fun link => (x.linkEnd j l link).isNone

def endedLinks (j : Joined) (l : Links) : List GroupEndedLink :=
  let known := (x.knownLinks j l).filterMap fun link =>
    (x.linkEnd j l link).map (GroupEndedLink.mk link)
  let gone := (values l.goneMakersLinks).map fun link => GroupEndedLink.mk link .makerOut
  (known ++ gone).insertionSort fun a b => a.link.linkId ≤ b.link.linkId

/-- The head of the view, which every statement gives. -/
def viewHead : GroupRosterView :=
  { groupId := x.s.groupId, statementEpoch := x.s.rosterEpoch
    ownerIdentity := x.s.ownerIdentity, preset := x.s.preset
    dissolved := x.s.dissolved }

def build (j : Joined) (l : Links) (title : String) (titleVersion : Nat)
    (verdicts : Verdicts) : Rule GroupRosterView :=
  (fun removed => { x.viewHead with
    title, titleVersion, removed
    members := j.in_.toList.filterMap (x.memberRow j)
    links := x.liveLinks j l
    endedLinks := x.endedLinks j l
    verdicts := values verdicts })
    <$> x.removedRows j

/-- Everything after `Classify` and `Index`. -/
def judge : Rule GroupRosterView := do
  let adds ← x.runAdds
  let j := adds.2
  let verdicts ← x.adds.foldlM (x.judgeAdd adds.1 j) x.verdicts
  let verdicts ← x.judgeRemovesAndLeaves verdicts
  let renamed ← x.judgeRenames j verdicts
  let linked ← x.judgeLinks j renamed.1
  x.build j linked.2 renamed.2.1 renamed.2.2 linked.1

end Rules

/-- One run of R1–R6 over a statement and a set of checked changes. -/
def run (s : GroupRosterStatement) (now : Int) (changes : List CheckedGroupChange) :
    GroupRosterView :=
  let x := (start s now).classify changes
  if s.dissolved then
    { x.viewHead with
      title := s.title, titleVersion := s.titleVersion
      verdicts := values x.verdicts }
  else
    let x := x.index
    (x.judge.run x.answer {}).1

end RosterRules

def computeRosterChecked (latest : GroupRosterStatement) (changes : List CheckedGroupChange)
    (nowMs : Int) : GroupRosterView :=
  RosterRules.run latest nowMs (collapse changes)

def computeRoster (K : GroupCrypto) (latest : GroupRosterStatement) (changes : List GroupChange)
    (cards : GroupCardLookup) (nowMs : Int) : GroupRosterView :=
  computeRosterChecked latest (checkChanges K changes cards nowMs) nowMs

/-! ## The fold -/

/-- Whether the owner folds a change with this verdict. -/
def foldsIn (v : GroupChangeVerdict) : Bool :=
  match v.status with
  | .applied | .superseded | .undone => true
  | .dropped => false
  | .void =>
    match v.reason with
    | .deviceOffCard | .signerOut | .notAllowed | .removedMember | .notReadmitted
    | .groupFull | .duplicateLink => true
    | _ => false

/-- The folded ids with their recorded epochs, before the floor trims them. -/
def foldedMap (current : GroupRosterStatement) (view : GroupRosterView) : StrMap Nat :=
  let before := current.folded.foldl (fun m f => m.insert f.id f.baseEpoch) ∅
  view.verdicts.foldl (fun m v =>
    if foldsIn v then m.insertIfNew v.id (min v.baseEpoch current.rosterEpoch) else m) before

/-- The fold's bookkeeping on `next` (its `rosterEpoch` already set). -/
def foldInto (current : GroupRosterStatement) (view : GroupRosterView)
    (next : GroupRosterStatement) : GroupRosterStatement :=
  let lagged := if next.rosterEpoch > kChangeFloorLag then next.rosterEpoch - kChangeFloorLag else 0
  let changeFloorEpoch := max current.changeFloorEpoch lagged
  { next with
    changeFloorEpoch
    folded := ((foldedMap current view).toList.filter fun e => changeFloorEpoch ≤ e.2).map
      fun e => { id := e.1, baseEpoch := e.2 } }

/-- The owner's next statement, unsigned. -/
def foldChanges (current : GroupRosterStatement) (view : GroupRosterView) :
    GroupRosterStatement :=
  let next := { current with rosterEpoch := u64 (current.rosterEpoch + 1), ownerSignatureB64 := "" }
  if current.dissolved then next
  else
    foldInto current view { next with
      members := view.members.map fun m =>
        { identity := m.identity, role := m.role, joinedAt := m.joinedAt, addedBy := m.addedBy }
      removed := view.removed
      links := view.links
      title := view.title
      titleVersion := view.titleVersion }

end Pbr
