import PpBrowser.Base.Words
import PpBrowser.Lib.Json
import PpBrowser.Lib.Lines

/-!
# PaymentPromiseCodec — a promise as JSON and as signed text

`PaymentPromiseTypes.h` and `PaymentPromiseCodec.cpp`. JSON text is the
object it reads back as. What is signed is a text of `key=value` lines in
which nothing is escaped.
-/

namespace Pbr

open Lib Lib.Json

/-! ## The receipt -/

def kPricingCurrencyId : String := "pp_credit"

inductive PaymentPromiseState where
  | offered | accepted | delivering | released | rejected | expired | disputed
  deriving DecidableEq, Repr

inductive PaymentPromiseReleaseRule where
  | payerAck | dualAck | timeoutAutoRelease
  deriving DecidableEq, Repr

def paymentPromiseStateToString : PaymentPromiseState → String
  | .offered => "offered"
  | .accepted => "accepted"
  | .delivering => "delivering"
  | .released => "released"
  | .rejected => "rejected"
  | .expired => "expired"
  | .disputed => "disputed"

def paymentPromiseStateFromString (value : String) : PaymentPromiseState :=
  if value = "accepted" then .accepted
  else if value = "delivering" then .delivering
  else if value = "released" then .released
  else if value = "rejected" then .rejected
  else if value = "expired" then .expired
  else if value = "disputed" then .disputed
  else .offered

def paymentPromiseReleaseRuleToString : PaymentPromiseReleaseRule → String
  | .dualAck => "dual_ack"
  | .timeoutAutoRelease => "timeout_auto_release"
  | .payerAck => "payer_ack"

def paymentPromiseReleaseRuleFromString (value : String) : PaymentPromiseReleaseRule :=
  if value = "dual_ack" then .dualAck
  else if value = "timeout_auto_release" then .timeoutAutoRelease
  else .payerAck

def paymentPromiseStateIsTerminal : PaymentPromiseState → Bool
  | .released | .rejected | .expired | .disputed => true
  | .offered | .accepted | .delivering => false

/-- Durable local receipt for one promised payment obligation. -/
structure PaymentPromise where
  promiseId : String := ""
  payerAccountId : String := ""
  payeeAccountId : String := ""
  amountMinor : Int := 0
  currency : String := kPricingCurrencyId
  serviceRef : String := ""
  termsHashB64 : String := ""
  contentCommitmentB64 : String := ""
  releaseRule : PaymentPromiseReleaseRule := .payerAck
  createdAtMs : Int := 0
  expiresAtMs : Int := 0
  state : PaymentPromiseState := .offered
  payerSignatureB64 : String := ""
  payeeSignatureB64 : String := ""
  outcomeActorAccountId : String := ""
  outcomeSignatureB64 : String := ""
  outcomeAtMs : Int := 0
  outcomeNote : String := ""
  localAvoid : Bool := false
  deriving DecidableEq, Repr

theorem state_roundtrip (state : PaymentPromiseState) :
    paymentPromiseStateFromString (paymentPromiseStateToString state) = state := by
  cases state <;> decide

theorem releaseRule_roundtrip (rule : PaymentPromiseReleaseRule) :
    paymentPromiseReleaseRuleFromString (paymentPromiseReleaseRuleToString rule) = rule := by
  cases rule <;> decide

theorem paymentPromiseStateToString_inj {a b : PaymentPromiseState}
    (h : paymentPromiseStateToString a = paymentPromiseStateToString b) : a = b := by
  rw [← state_roundtrip a, h, state_roundtrip]

theorem paymentPromiseReleaseRuleToString_inj {a b : PaymentPromiseReleaseRule}
    (h : paymentPromiseReleaseRuleToString a = paymentPromiseReleaseRuleToString b) : a = b := by
  rw [← releaseRule_roundtrip a, h, releaseRule_roundtrip]

namespace PaymentPromise

/-- The currency in force: empty means the default. -/
def currencyOrDefault (promise : PaymentPromise) : String :=
  if promise.currency = "" then kPricingCurrencyId else promise.currency

/-- Its integers are `int64_t`s. -/
structure Ranged (promise : PaymentPromise) : Prop where
  amountMinor : IsInt64 promise.amountMinor
  createdAtMs : IsInt64 promise.createdAtMs
  expiresAtMs : IsInt64 promise.expiresAtMs
  outcomeAtMs : IsInt64 promise.outcomeAtMs

/-- It names itself and its parties. -/
structure Named (promise : PaymentPromise) : Prop where
  promiseId : promise.promiseId ≠ ""
  payerAccountId : promise.payerAccountId ≠ ""
  payeeAccountId : promise.payeeAccountId ≠ ""

end PaymentPromise

namespace PaymentPromiseCodec

/-! ## JSON -/

/-- `getIf<int64_t>`. -/
def getInt64 (json : Object) (key : String) : Option Int := (json.getInt key).filter (IsInt64 ·)

def promiseToObject (promise : PaymentPromise) : Object :=
  let json : Object := {}
  let json := json.set "promise_id" (.str promise.promiseId)
  let json := json.set "payer_account_id" (.str promise.payerAccountId)
  let json := json.set "payee_account_id" (.str promise.payeeAccountId)
  let json := json.set "amount_minor" (.num promise.amountMinor)
  let json := json.set "currency" (.str promise.currencyOrDefault)
  let json := json.set "service_ref" (.str promise.serviceRef)
  let json := json.set "terms_hash_b64" (.str promise.termsHashB64)
  let json := json.set "content_commitment_b64" (.str promise.contentCommitmentB64)
  let json := json.set "release_rule" (.str (paymentPromiseReleaseRuleToString promise.releaseRule))
  let json := json.set "created_at_ms" (.num promise.createdAtMs)
  let json := json.set "expires_at_ms" (.num promise.expiresAtMs)
  let json := json.set "state" (.str (paymentPromiseStateToString promise.state))
  let json := json.set "payer_signature_b64" (.str promise.payerSignatureB64)
  let json := json.set "payee_signature_b64" (.str promise.payeeSignatureB64)
  let json := json.set "outcome_actor_account_id" (.str promise.outcomeActorAccountId)
  let json := json.set "outcome_signature_b64" (.str promise.outcomeSignatureB64)
  let json := json.set "outcome_at_ms" (.num promise.outcomeAtMs)
  let json := json.set "outcome_note" (.str promise.outcomeNote)
  json.set "local_avoid" (.bool promise.localAvoid)

def promiseFromObject (json : Object) : PaymentPromise where
  promiseId := (json.getString "promise_id").getD ""
  payerAccountId := (json.getString "payer_account_id").getD ""
  payeeAccountId := (json.getString "payee_account_id").getD ""
  amountMinor := (getInt64 json "amount_minor").getD 0
  currency := (json.getString "currency").getD kPricingCurrencyId
  serviceRef := (json.getString "service_ref").getD ""
  termsHashB64 := (json.getString "terms_hash_b64").getD ""
  contentCommitmentB64 := (json.getString "content_commitment_b64").getD ""
  releaseRule := paymentPromiseReleaseRuleFromString ((json.getString "release_rule").getD "payer_ack")
  createdAtMs := (getInt64 json "created_at_ms").getD 0
  expiresAtMs := (getInt64 json "expires_at_ms").getD 0
  state := paymentPromiseStateFromString ((json.getString "state").getD "offered")
  payerSignatureB64 := (json.getString "payer_signature_b64").getD ""
  payeeSignatureB64 := (json.getString "payee_signature_b64").getD ""
  outcomeActorAccountId := (json.getString "outcome_actor_account_id").getD ""
  outcomeSignatureB64 := (json.getString "outcome_signature_b64").getD ""
  outcomeAtMs := (getInt64 json "outcome_at_ms").getD 0
  outcomeNote := (json.getString "outcome_note").getD ""
  localAvoid := (json.getBool "local_avoid").getD false

def encode (promise : PaymentPromise) : Object := promiseToObject promise

def decode (json : Object) : Roe PaymentPromise :=
  let promise := promiseFromObject json
  if promise.promiseId = "" then .error "payment promise missing promise_id"
  else if promise.payerAccountId = "" ∨ promise.payeeAccountId = "" then
    .error "payment promise missing payer/payee account id"
  else .ok promise

/-! ## What is signed -/

def appendField (key value : String) : String := key ++ "=" ++ value ++ "\n"

def promiseSignText (promise : PaymentPromise) : String :=
  "pp-browser:payment-promise-sign-v1\n" ++
  appendField "promise_id" promise.promiseId ++
  appendField "payer_account_id" promise.payerAccountId ++
  appendField "payee_account_id" promise.payeeAccountId ++
  appendField "amount_minor" (toString promise.amountMinor) ++
  appendField "currency" promise.currencyOrDefault ++
  appendField "service_ref" promise.serviceRef ++
  appendField "terms_hash_b64" promise.termsHashB64 ++
  appendField "content_commitment_b64" promise.contentCommitmentB64 ++
  appendField "release_rule" (paymentPromiseReleaseRuleToString promise.releaseRule) ++
  appendField "created_at_ms" (toString promise.createdAtMs) ++
  appendField "expires_at_ms" (toString promise.expiresAtMs)

def buildPromiseSignBytes (promise : PaymentPromise) : ByteVector := stringBytes (promiseSignText promise)

def outcomeSignText (promise : PaymentPromise) : String :=
  "pp-browser:payment-promise-outcome-sign-v1\n" ++
  appendField "promise_id" promise.promiseId ++
  appendField "state" (paymentPromiseStateToString promise.state) ++
  appendField "outcome_actor_account_id" promise.outcomeActorAccountId ++
  appendField "outcome_at_ms" (toString promise.outcomeAtMs) ++
  appendField "outcome_note" promise.outcomeNote ++
  appendField "content_commitment_b64" promise.contentCommitmentB64

def buildOutcomeSignBytes (promise : PaymentPromise) : ByteVector := stringBytes (outcomeSignText promise)

end PaymentPromiseCodec

end Pbr
