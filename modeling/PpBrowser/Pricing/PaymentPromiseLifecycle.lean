import Mathlib.Logic.Function.Basic
import PpBrowser.Pricing.PaymentPromiseCodec

/-!
# PaymentPromiseLifecycle — offers, acceptances and outcomes on one device

`PaymentPromiseInbound.cpp`, `PaymentPromiseLifecycle.cpp` and the tables of
`PaymentPromiseStore.cpp`. Account signatures and the directory's keys are
outside: `PromiseKeys` is what a device can do with them. Whether the table
reaches the disk does not change it.
-/

namespace Pbr

/-- This device's account and the signatures it can make and check. -/
structure PromiseKeys (Key : Type) where
  localAccount : String
  /-- An account's signing key, as the directory publishes it. -/
  keyOf : String → Key
  /-- `SignAccountBytes` of the unlocked account. -/
  sign : ByteVector → String
  /-- `Base64Decode` and `MlDsa::Verify`; an error is no. -/
  verify : Key → ByteVector → String → Bool
  localAccount_ne : localAccount ≠ ""
  sign_ne : ∀ bytes, sign bytes ≠ ""
  sign_verifies : ∀ bytes, verify (keyOf localAccount) bytes (sign bytes)

namespace PaymentPromiseCodec

variable {Key : Type} (keys : PromiseKeys Key)

def verifyPromiseSignature (key : Key) (promise : PaymentPromise) (signatureB64 : String) : Bool :=
  signatureB64 ≠ "" && keys.verify key (buildPromiseSignBytes promise) signatureB64

def verifyOutcomeSignature (key : Key) (promise : PaymentPromise) : Bool :=
  promise.outcomeSignatureB64 ≠ "" && paymentPromiseStateIsTerminal promise.state &&
    keys.verify key (buildOutcomeSignBytes promise) promise.outcomeSignatureB64

end PaymentPromiseCodec

open PaymentPromiseCodec

/-- The party that is not `localAccount`; none when it is not exactly one party. -/
def paymentPromiseCounterparty (promise : PaymentPromise) (localAccount : String) : Option String :=
  if localAccount = "" ∨ promise.payerAccountId = promise.payeeAccountId then none
  else if promise.payerAccountId = localAccount then some promise.payeeAccountId
  else if promise.payeeAccountId = localAccount then some promise.payerAccountId
  else none

variable {Key : Type} (keys : PromiseKeys Key)

/-- What a promise received from the counterparty may change. -/
def mergeInboundPaymentPromise (committed : Option PaymentPromise) (incoming : PaymentPromise)
    (localAccount : String) (counterpartyKey : Key) : Roe PaymentPromise :=
  match paymentPromiseCounterparty incoming localAccount with
  | none => .error "payment promise is not between us and one counterparty"
  | some counterparty =>
    let counterpartyIsPayer := incoming.payerAccountId = counterparty
    let theirSignature :=
      if counterpartyIsPayer then incoming.payerSignatureB64 else incoming.payeeSignatureB64
    if incoming.state = .offered then
      if committed.isSome then .error "payment promise already exists"
      else if !verifyPromiseSignature keys counterpartyKey incoming theirSignature then
        .error "payment promise signature does not verify"
      else
        .ok { incoming with
          -- ours only when we sign it
          payerSignatureB64 := if counterpartyIsPayer then incoming.payerSignatureB64 else ""
          payeeSignatureB64 := if counterpartyIsPayer then "" else incoming.payeeSignatureB64
          outcomeActorAccountId := "", outcomeSignatureB64 := "", outcomeAtMs := 0, outcomeNote := ""
          localAvoid := false }
    else
      match committed with
      | none => .error "payment promise not found"
      | some committed =>
        if buildPromiseSignBytes committed ≠ buildPromiseSignBytes incoming then
          .error "payment promise terms changed"
        else if incoming.state = .accepted then
          if committed.state ≠ .offered then .error "only an offered payment promise can be accepted"
          else if !verifyPromiseSignature keys counterpartyKey incoming theirSignature then
            .error "payment promise signature does not verify"
          else
            .ok { committed with
              payerSignatureB64 := if counterpartyIsPayer then theirSignature else committed.payerSignatureB64
              payeeSignatureB64 := if counterpartyIsPayer then committed.payeeSignatureB64 else theirSignature
              state := .accepted }
        else if paymentPromiseStateIsTerminal incoming.state then
          if paymentPromiseStateIsTerminal committed.state then
            .error "payment promise already has an outcome"
          else if incoming.outcomeActorAccountId ≠ counterparty then
            .error "payment promise outcome not by the counterparty"
          else if !verifyOutcomeSignature keys counterpartyKey incoming then
            .error "payment promise outcome signature does not verify"
          else
            .ok { committed with
              state := incoming.state, outcomeActorAccountId := incoming.outcomeActorAccountId
              outcomeSignatureB64 := incoming.outcomeSignatureB64, outcomeAtMs := incoming.outcomeAtMs
              outcomeNote := incoming.outcomeNote }
        else .error "payment promise state cannot be received"

/-! ## The store -/

/-- `rows_` and `pending_inbound_`. Beside each id stands who offered the
committed promise and who accepted it, which the store does not keep. -/
structure PaymentPromiseStore where
  rows : String → Option PaymentPromise := fun _ => none
  pendingInbound : String → Option PaymentPromise := fun _ => none
  offeredBy : String → Option String := fun _ => none
  acceptedBy : String → Option String := fun _ => none

namespace PaymentPromiseStore

variable (store : PaymentPromiseStore)

def upsert (promise : PaymentPromise) : PaymentPromiseStore :=
  { store with rows := Function.update store.rows promise.promiseId (some promise) }

def stageInbound (promise : PaymentPromise) : PaymentPromiseStore :=
  if promise.promiseId = "" then store
  else { store with pendingInbound := Function.update store.pendingInbound promise.promiseId (some promise) }

def commitInbound (row : PaymentPromise) : PaymentPromiseStore :=
  { store with
    rows := Function.update store.rows row.promiseId (some row)
    pendingInbound := Function.update store.pendingInbound row.promiseId none }

def ignoreInbound (promiseId : String) : PaymentPromiseStore :=
  { store with pendingInbound := Function.update store.pendingInbound promiseId none }

def offered (promiseId account : String) : PaymentPromiseStore :=
  { store with offeredBy := Function.update store.offeredBy promiseId (some account) }

def accepted (promiseId account : String) : PaymentPromiseStore :=
  { store with acceptedBy := Function.update store.acceptedBy promiseId (some account) }

end PaymentPromiseStore

/-! ## The lifecycle -/

namespace PaymentPromiseLifecycle

structure OfferParams where
  counterpartyAccountId : String
  localIsPayer : Bool := true
  amountMinor : Int := 0
  serviceRef : String := ""
  termsHashB64 : String := ""
  contentCommitmentB64 : String := ""
  releaseRule : PaymentPromiseReleaseRule := .payerAck
  expiresAtMs : Int := 0
  deriving DecidableEq, Repr

/-- The offer under the id drawn for it, before it is signed. -/
def draft (params : OfferParams) (promiseId : String) (nowMs : Int) : PaymentPromise where
  promiseId
  payerAccountId := if params.localIsPayer then keys.localAccount else params.counterpartyAccountId
  payeeAccountId := if params.localIsPayer then params.counterpartyAccountId else keys.localAccount
  amountMinor := params.amountMinor
  serviceRef := params.serviceRef
  termsHashB64 := params.termsHashB64
  contentCommitmentB64 := params.contentCommitmentB64
  releaseRule := params.releaseRule
  createdAtMs := nowMs
  expiresAtMs := params.expiresAtMs

/-- The local party signs what it offers. -/
def signOffer (params : OfferParams) (promise : PaymentPromise) : PaymentPromise :=
  if params.localIsPayer then { promise with payerSignatureB64 := keys.sign (buildPromiseSignBytes promise) }
  else { promise with payeeSignatureB64 := keys.sign (buildPromiseSignBytes promise) }

def createOffer (store : PaymentPromiseStore) (params : OfferParams) (promiseId : String) (nowMs : Int) :
    PaymentPromiseStore :=
  if params.counterpartyAccountId = "" ∨ params.amountMinor < 0 ∨
      keys.localAccount = params.counterpartyAccountId then store
  else
    (store.upsert (signOffer keys params (draft keys params promiseId nowMs))).offered promiseId keys.localAccount

def isParty (promise : PaymentPromise) (accountId : String) : Bool :=
  promise.payerAccountId = accountId || promise.payeeAccountId = accountId

/-- The slot of the account's own signature. -/
def slot (promise : PaymentPromise) (accountId : String) : String :=
  if promise.payerAccountId = accountId then promise.payerSignatureB64 else promise.payeeSignatureB64

/-- The accepting party signs if it has not already. -/
def countersign (promise : PaymentPromise) : PaymentPromise :=
  if slot promise keys.localAccount ≠ "" then promise
  else if promise.payerAccountId = keys.localAccount then
    { promise with payerSignatureB64 := keys.sign (buildPromiseSignBytes promise) }
  else { promise with payeeSignatureB64 := keys.sign (buildPromiseSignBytes promise) }

def accept (store : PaymentPromiseStore) (promiseId : String) : PaymentPromiseStore :=
  match store.rows promiseId with
  | none => store
  | some promise =>
    if promise.state ≠ .offered ∨ !isParty promise keys.localAccount then store
    else
      (store.upsert { countersign keys promise with state := .accepted }).accepted promiseId keys.localAccount

def markDelivering (store : PaymentPromiseStore) (promiseId : String) : PaymentPromiseStore :=
  match store.rows promiseId with
  | none => store
  | some promise =>
    if promise.state ≠ .accepted ∧ promise.state ≠ .delivering then store
    else store.upsert { promise with state := .delivering }

/-- The promise with its outcome, before it is signed. -/
def concluded (promise : PaymentPromise) (outcome : PaymentPromiseState) (note : String) (nowMs : Int) :
    PaymentPromise :=
  { promise with
    state := outcome, outcomeActorAccountId := keys.localAccount, outcomeAtMs := nowMs, outcomeNote := note }

def recordOutcome (store : PaymentPromiseStore) (promiseId : String) (outcome : PaymentPromiseState)
    (note : String) (nowMs : Int) : PaymentPromiseStore :=
  if !paymentPromiseStateIsTerminal outcome then store
  else
    match store.rows promiseId with
    | none => store
    | some promise =>
      if paymentPromiseStateIsTerminal promise.state ∨ !isParty promise keys.localAccount then store
      else
        let promise := concluded keys promise outcome note nowMs
        store.upsert { promise with outcomeSignatureB64 := keys.sign (buildOutcomeSignBytes promise) }

/-- The user's accept of a staged receipt; the counterparty's key was found. -/
def commitInbound (store : PaymentPromiseStore) (promiseId : String) : PaymentPromiseStore :=
  match store.pendingInbound promiseId with
  | none => store
  | some pending =>
    match paymentPromiseCounterparty pending keys.localAccount with
    | none => store
    | some counterparty =>
      match mergeInboundPaymentPromise keys (store.rows promiseId) pending keys.localAccount
          (keys.keyOf counterparty) with
      | .error _ => store
      | .ok row =>
        let store' := store.commitInbound row
        if pending.state = .offered then store'.offered promiseId counterparty
        else if pending.state = .accepted then store'.accepted promiseId counterparty
        else store'

end PaymentPromiseLifecycle

end Pbr
