import Std.Data.String.ToInt
import PpBrowser.Pricing.PaymentPromiseCodec

/-!
# PaymentPromiseSignBytes — which terms a signature covers

A promise read back from its JSON is the promise written, with the default
currency named. The signed text escapes nothing, so a value may hold what
reads as the lines after it; the text has one reading just when none does
(`Lib.Lines`).
-/

namespace Pbr

open Lib Lib.Json

namespace PaymentPromiseCodec

variable {promise other : PaymentPromise} {json : Object}

/-! ## Round trip -/

theorem isInt64_getInt64 (key : String) : IsInt64 ((getInt64 json key).getD 0) := by
  rw [getInt64]
  cases h : (json.getInt key).filter (IsInt64 ·) with
  | none => decide
  | some n =>
    rw [Option.filter_eq_some_iff] at h
    simpa using h.2

theorem promiseFromObject_set (h : promise.Ranged) (currency : String) :
    promiseFromObject ((promiseToObject promise).set "currency" (.str currency)) = { promise with currency } := by
  have hamount := h.amountMinor
  have hcreated := h.createdAtMs
  have hexpires := h.expiresAtMs
  have houtcome := h.outcomeAtMs
  simp [promiseFromObject, promiseToObject, getInt64, Option.filter, hamount, hcreated, hexpires,
    houtcome, state_roundtrip, releaseRule_roundtrip]

theorem promiseFromObject_toObject (h : promise.Ranged) :
    promiseFromObject (promiseToObject promise) = { promise with currency := promise.currencyOrDefault } := by
  have hamount := h.amountMinor
  have hcreated := h.createdAtMs
  have hexpires := h.expiresAtMs
  have houtcome := h.outcomeAtMs
  simp [promiseFromObject, promiseToObject, getInt64, Option.filter, hamount, hcreated, hexpires,
    houtcome, state_roundtrip, releaseRule_roundtrip]

/-- A promise written is read back with its currency named. -/
theorem decode_encode (hnamed : promise.Named) (hranged : promise.Ranged) :
    decode (encode promise) = .ok { promise with currency := promise.currencyOrDefault } := by
  simp only [decode, encode, promiseFromObject_toObject hranged]
  rw [if_neg hnamed.promiseId, if_neg (not_or.mpr ⟨hnamed.payerAccountId, hnamed.payeeAccountId⟩)]

/-- What `decode` gives is any promise that names itself and its parties. -/
theorem decode_ok_iff : (∃ json, decode json = .ok promise) ↔ promise.Named ∧ promise.Ranged := by
  constructor
  · intro ⟨json, h⟩
    simp only [decode] at h
    split at h
    · cases h
    next hid =>
      split at h
      · cases h
      next hparties =>
        obtain rfl := Except.ok.inj h
        obtain ⟨hpayer, hpayee⟩ := not_or.mp hparties
        exact ⟨⟨hid, hpayer, hpayee⟩, isInt64_getInt64 _, isInt64_getInt64 _, isInt64_getInt64 _, isInt64_getInt64 _⟩
  · intro ⟨hnamed, hranged⟩
    refine ⟨(promiseToObject promise).set "currency" (.str promise.currency), ?_⟩
    simp only [decode, promiseFromObject_set hranged]
    rw [if_neg hnamed.promiseId, if_neg (not_or.mpr ⟨hnamed.payerAccountId, hnamed.payeeAccountId⟩)]

theorem currencyOrDefault_ne : promise.currencyOrDefault ≠ "" := by
  rw [PaymentPromise.currencyOrDefault]
  split
  · decide
  next h => exact h

theorem currencyOrDefault_default :
    { promise with currency := promise.currencyOrDefault }.currencyOrDefault = promise.currencyOrDefault :=
  if_neg currencyOrDefault_ne

/-! ## Lines -/

theorem toString_inj {a b : Int} (h : toString a = toString b) : a = b := Int.repr_injective h

theorem break_notMem_repr (n : Nat) : '\n' ∉ (Nat.repr n).toList := by
  intro h
  have hdigit : ('\n').isDigit := by
    apply Nat.isDigit_of_mem_toDigits (b := 10) (by decide) (by decide) (n := n)
    simpa [Nat.repr] using h
  exact absurd hdigit (by decide)

/-- An integer's digits hold no line break. -/
theorem break_notMem_toString (n : Int) : '\n' ∉ (toString n).toList := by
  cases n with
  | ofNat n => exact break_notMem_repr n
  | negSucc n =>
    show '\n' ∉ ("-" ++ Nat.repr (n + 1)).toList
    rw [String.toList_append, List.mem_append, not_or]
    exact ⟨by decide, break_notMem_repr _⟩

def isInteger (text : List Char) : Prop := ∃ n : Int, IsInt64 n ∧ text = (toString n).toList

def isStateName (text : List Char) : Prop := ∃ state, text = (paymentPromiseStateToString state).toList

/-- The line of a promise's id, whose place is fixed. -/
def idLine : Lines.Line Char where
  opens _ := False
  fits := (· ≠ [])

/-- The lines of the signed terms after the id, as far as they hold text. -/
def termLines : List (Lines.KeyLine Char) :=
  [{ key := "payer_account_id".toList, fits := (· ≠ []) },
   { key := "payee_account_id".toList, fits := (· ≠ []) },
   { key := "amount_minor".toList, inner := some (isInteger, "currency".toList), fits := (· ≠ []) },
   { key := "service_ref".toList, fits := fun _ => True },
   { key := "terms_hash_b64".toList, fits := fun _ => True },
   { key := "content_commitment_b64".toList, fits := fun _ => True }]

def outcomeLines : List (Lines.KeyLine Char) :=
  [{ key := "state".toList, inner := some (isStateName, "outcome_actor_account_id".toList), fits := fun _ => True },
   { key := "outcome_at_ms".toList, inner := some (isInteger, "outcome_note".toList), fits := fun _ => True },
   { key := "content_commitment_b64".toList, fits := fun _ => True }]

def opening (key : String) : List Char := '\n' :: (key.toList ++ ['='])

def openingAfter (key value second : String) : List Char :=
  '\n' :: (key.toList ++ '=' :: (value.toList ++ '\n' :: (second.toList ++ ['='])))

def termForm : List (Lines.Line Char) := termLines.map (Lines.KeyLine.toLine '\n' '=')

def outcomeForm : List (Lines.Line Char) := outcomeLines.map (Lines.KeyLine.toLine '\n' '=')

def termsOf (promise : PaymentPromise) : List (List Char × List Char) :=
  [(opening "payer_account_id", promise.payerAccountId.toList),
   (opening "payee_account_id", promise.payeeAccountId.toList),
   (openingAfter "amount_minor" (toString promise.amountMinor) "currency", promise.currencyOrDefault.toList),
   (opening "service_ref", promise.serviceRef.toList),
   (opening "terms_hash_b64", promise.termsHashB64.toList),
   (opening "content_commitment_b64", promise.contentCommitmentB64.toList)]

def outcomeOf (promise : PaymentPromise) : List (List Char × List Char) :=
  [(openingAfter "state" (paymentPromiseStateToString promise.state) "outcome_actor_account_id",
      promise.outcomeActorAccountId.toList),
   (openingAfter "outcome_at_ms" (toString promise.outcomeAtMs) "outcome_note", promise.outcomeNote.toList),
   (opening "content_commitment_b64", promise.contentCommitmentB64.toList)]

theorem termLines_apart : Lines.KeysApart '\n' '=' termLines where
  clean := by decide
  inner := by
    intro line hline inner hinner
    simp only [termLines, List.mem_cons, List.not_mem_nil, or_false] at hline
    rcases hline with rfl | rfl | rfl | rfl | rfl | rfl <;> cases hinner
    refine ⟨?_, by decide, by decide, by decide⟩
    intro text ⟨n, _, htext⟩
    rw [htext]
    exact break_notMem_toString n
  nodup := by decide

theorem outcomeLines_apart : Lines.KeysApart '\n' '=' outcomeLines where
  clean := by decide
  inner := by
    intro line hline inner hinner
    simp only [outcomeLines, List.mem_cons, List.not_mem_nil, or_false] at hline
    rcases hline with rfl | rfl | rfl <;> cases hinner
    · refine ⟨?_, by decide, by decide, by decide⟩
      intro text ⟨state, htext⟩
      rw [htext]
      cases state <;> decide
    · refine ⟨?_, by decide, by decide, by decide⟩
      intro text ⟨n, _, htext⟩
      rw [htext]
      exact break_notMem_toString n
  nodup := by decide

theorem termForm_apart : Lines.Apart termForm := termLines_apart.apart (by decide)

theorem outcomeForm_apart : Lines.Apart outcomeForm := outcomeLines_apart.apart (by decide)

/-! ## The text and its lines -/

/-- What precedes the value of the id. -/
def idOpening (header : String) : List Char := header.toList ++ "promise_id".toList ++ ['=']

/-- The last three lines of the terms, whose values hold no line break. -/
def termsEnd (promise : PaymentPromise) : List Char :=
  '\n' :: ("release_rule".toList ++ '=' :: (paymentPromiseReleaseRuleToString promise.releaseRule).toList ++
    '\n' :: ("created_at_ms".toList ++ '=' :: (toString promise.createdAtMs).toList ++
      '\n' :: ("expires_at_ms".toList ++ '=' :: (toString promise.expiresAtMs).toList ++ ['\n'])))

theorem appendField_toList (key value : String) :
    (appendField key value).toList = key.toList ++ '=' :: (value.toList ++ ['\n']) := by
  have heq : "=".toList = ['='] := rfl
  have hbreak : "\n".toList = ['\n'] := rfl
  rw [appendField, String.toList_append, String.toList_append, String.toList_append, heq, hbreak]
  simp only [List.append_assoc, List.cons_append, List.nil_append]

theorem promiseSignText_toList : (promiseSignText promise).toList =
    idOpening "pp-browser:payment-promise-sign-v1\n" ++
      (Lines.text promise.promiseId.toList (termsOf promise) ++ termsEnd promise) := by
  unfold promiseSignText idOpening
  simp only [String.toList_append, appendField_toList, termsOf, termsEnd, opening, openingAfter, Lines.text,
    List.append_assoc, List.cons_append, List.nil_append]

theorem outcomeSignText_toList : (outcomeSignText promise).toList =
    idOpening "pp-browser:payment-promise-outcome-sign-v1\n" ++
      (Lines.text promise.promiseId.toList (outcomeOf promise) ++ ['\n']) := by
  unfold outcomeSignText idOpening
  simp only [String.toList_append, appendField_toList, outcomeOf, opening, openingAfter, Lines.text,
    List.append_assoc, List.cons_append, List.nil_append]

/-- The two signed texts part before the first of them says `sign`. -/
theorem promiseSignBytes_ne : buildPromiseSignBytes promise ≠ buildOutcomeSignBytes other := by
  intro h
  have htexts : (promiseSignText promise).toList = (outcomeSignText other).toList :=
    congrArg String.toList (stringBytes_inj h)
  rw [promiseSignText_toList, outcomeSignText_toList] at htexts
  have hheads := congrArg (List.take 28) htexts
  rw [List.take_append_of_le_length (by decide), List.take_append_of_le_length (by decide)] at hheads
  exact absurd hheads (by decide)

variable {X Y a a' b b' c c' : List Char} {lines : List (List Char × List Char)}

/-- Three last lines without breaks are told from what precedes them. -/
theorem three_lines_inj (ha : '\n' ∉ a) (ha' : '\n' ∉ a') (hb : '\n' ∉ b) (hb' : '\n' ∉ b') (hc : '\n' ∉ c)
    (hc' : '\n' ∉ c') (h : X ++ '\n' :: (a ++ '\n' :: (b ++ '\n' :: (c ++ ['\n']))) =
      Y ++ '\n' :: (a' ++ '\n' :: (b' ++ '\n' :: (c' ++ ['\n'])))) : X = Y ∧ a = a' ∧ b = b' ∧ c = c' := by
  have hall : (((X ++ '\n' :: a) ++ '\n' :: b) ++ '\n' :: c) ++ ['\n'] =
      (((Y ++ '\n' :: a') ++ '\n' :: b') ++ '\n' :: c') ++ ['\n'] := by simpa using h
  obtain ⟨hab, rfl⟩ := Lines.append_last_mark_inj hc hc' (List.append_cancel_right hall)
  obtain ⟨hxa, rfl⟩ := Lines.append_last_mark_inj hb hb' hab
  obtain ⟨hx, rfl⟩ := Lines.append_last_mark_inj ha ha' hxa
  exact ⟨hx, rfl, rfl, rfl⟩

theorem break_notMem_keyed {key : List Char} {value : List Char} (hkey : '\n' ∉ key) (hvalue : '\n' ∉ value) :
    '\n' ∉ key ++ '=' :: value := by
  simp [hkey, hvalue]

theorem keyed_inj {key value value' : List Char} (h : key ++ '=' :: value = key ++ '=' :: value') :
    value = value' := List.tail_eq_of_cons_eq (List.append_cancel_left h)

/-- Equal signed terms are equal lines and equal last values. -/
theorem promiseSignBytes_eq_iff : buildPromiseSignBytes other = buildPromiseSignBytes promise ↔
    Lines.text other.promiseId.toList (termsOf other) = Lines.text promise.promiseId.toList (termsOf promise) ∧
      other.releaseRule = promise.releaseRule ∧ other.createdAtMs = promise.createdAtMs ∧
      other.expiresAtMs = promise.expiresAtMs := by
  constructor
  · intro h
    have htexts : (promiseSignText other).toList = (promiseSignText promise).toList :=
      congrArg String.toList (stringBytes_inj h)
    rw [promiseSignText_toList, promiseSignText_toList] at htexts
    have hrule : ∀ rule, '\n' ∉ (paymentPromiseReleaseRuleToString rule).toList := by
      intro rule
      cases rule <;> decide
    obtain ⟨hlines, hrules, hcreated, hexpires⟩ := three_lines_inj
      (break_notMem_keyed (by decide) (hrule _)) (break_notMem_keyed (by decide) (hrule _))
      (break_notMem_keyed (by decide) (break_notMem_toString _))
      (break_notMem_keyed (by decide) (break_notMem_toString _))
      (break_notMem_keyed (by decide) (break_notMem_toString _))
      (break_notMem_keyed (by decide) (break_notMem_toString _)) (List.append_cancel_left htexts)
    exact ⟨hlines, paymentPromiseReleaseRuleToString_inj (String.toList_inj.mp (keyed_inj hrules)),
      toString_inj (String.toList_inj.mp (keyed_inj hcreated)),
      toString_inj (String.toList_inj.mp (keyed_inj hexpires))⟩
  · intro ⟨hlines, hrule, hcreated, hexpires⟩
    have hend : termsEnd other = termsEnd promise := by rw [termsEnd, termsEnd, hrule, hcreated, hexpires]
    have htexts : (promiseSignText other).toList = (promiseSignText promise).toList := by
      rw [promiseSignText_toList, promiseSignText_toList, hlines, hend]
    exact congrArg stringBytes (String.toList_inj.mp htexts)

theorem outcomeSignBytes_eq_iff : buildOutcomeSignBytes other = buildOutcomeSignBytes promise ↔
    Lines.text other.promiseId.toList (outcomeOf other) =
      Lines.text promise.promiseId.toList (outcomeOf promise) := by
  constructor
  · intro h
    have htexts : (outcomeSignText other).toList = (outcomeSignText promise).toList :=
      congrArg String.toList (stringBytes_inj h)
    rw [outcomeSignText_toList, outcomeSignText_toList] at htexts
    exact List.append_cancel_right (List.append_cancel_left htexts)
  · intro hlines
    have htexts : (outcomeSignText other).toList = (outcomeSignText promise).toList := by
      rw [outcomeSignText_toList, outcomeSignText_toList, hlines]
    exact congrArg stringBytes (String.toList_inj.mp htexts)

/-! ## One meaning -/

/-- The same signed terms; an empty currency is the default one. -/
structure SameTerms (a b : PaymentPromise) : Prop where
  promiseId : a.promiseId = b.promiseId
  payerAccountId : a.payerAccountId = b.payerAccountId
  payeeAccountId : a.payeeAccountId = b.payeeAccountId
  amountMinor : a.amountMinor = b.amountMinor
  currency : a.currencyOrDefault = b.currencyOrDefault
  serviceRef : a.serviceRef = b.serviceRef
  termsHashB64 : a.termsHashB64 = b.termsHashB64
  contentCommitmentB64 : a.contentCommitmentB64 = b.contentCommitmentB64
  releaseRule : a.releaseRule = b.releaseRule
  createdAtMs : a.createdAtMs = b.createdAtMs
  expiresAtMs : a.expiresAtMs = b.expiresAtMs

structure SameOutcome (a b : PaymentPromise) : Prop where
  promiseId : a.promiseId = b.promiseId
  state : a.state = b.state
  outcomeActorAccountId : a.outcomeActorAccountId = b.outcomeActorAccountId
  outcomeAtMs : a.outcomeAtMs = b.outcomeAtMs
  outcomeNote : a.outcomeNote = b.outcomeNote
  contentCommitmentB64 : a.contentCommitmentB64 = b.contentCommitmentB64

theorem SameTerms.refl : SameTerms promise promise :=
  ⟨rfl, rfl, rfl, rfl, rfl, rfl, rfl, rfl, rfl, rfl, rfl⟩

theorem SameTerms.trans {a b c : PaymentPromise} (h : SameTerms a b) (h' : SameTerms b c) : SameTerms a c :=
  ⟨h.1.trans h'.1, h.2.trans h'.2, h.3.trans h'.3, h.4.trans h'.4, h.5.trans h'.5, h.6.trans h'.6,
    h.7.trans h'.7, h.8.trans h'.8, h.9.trans h'.9, h.10.trans h'.10, h.11.trans h'.11⟩

theorem SameOutcome.refl : SameOutcome promise promise := ⟨rfl, rfl, rfl, rfl, rfl, rfl⟩

theorem SameOutcome.trans {a b c : PaymentPromise} (h : SameOutcome a b) (h' : SameOutcome b c) : SameOutcome a c :=
  ⟨h.1.trans h'.1, h.2.trans h'.2, h.3.trans h'.3, h.4.trans h'.4, h.5.trans h'.5, h.6.trans h'.6⟩

/-- No text of the signed terms holds the opening of its own line or of the
next one where a promise could be cut. -/
def PlainTerms (promise : PaymentPromise) : Prop :=
  Lines.AllPlain idLine promise.promiseId.toList termForm (termsOf promise)

/-- The same of the signed outcome. -/
def PlainOutcome (promise : PaymentPromise) : Prop :=
  Lines.AllPlain idLine promise.promiseId.toList outcomeForm (outcomeOf promise)

theorem toList_ne {text : String} (h : text ≠ "") : text.toList ≠ [] := by
  intro hnil
  exact h (String.toList_inj.mp hnil)

theorem ofList_ne {text : List Char} (h : text ≠ []) : String.ofList text ≠ "" := by
  intro hempty
  exact h (by simpa using congrArg String.toList hempty)

theorem grows_nonempty {opens : List Char → Prop} : Lines.Grows ({ opens, fits := (· ≠ []) } : Lines.Line Char) := by
  intro x v y hv hnil
  simp only [List.append_eq_nil_iff] at hnil
  exact hv hnil.2.1

theorem termForm_grows : ∀ line ∈ idLine :: termForm, Lines.Grows line := by
  intro line hline
  simp only [termForm, termLines, List.map_cons, List.map_nil, List.mem_cons, List.not_mem_nil, or_false] at hline
  rcases hline with rfl | rfl | rfl | rfl | rfl | rfl | rfl
  · exact grows_nonempty
  · exact grows_nonempty
  · exact grows_nonempty
  · exact grows_nonempty
  all_goals exact fun _ => trivial

theorem outcomeForm_grows : ∀ line ∈ idLine :: outcomeForm, Lines.Grows line := by
  intro line hline
  simp only [outcomeForm, outcomeLines, List.map_cons, List.map_nil, List.mem_cons, List.not_mem_nil,
    or_false] at hline
  rcases hline with rfl | rfl | rfl | rfl
  · exact grows_nonempty
  all_goals exact fun _ => trivial

theorem reads_termsOf (hnamed : promise.Named) (hranged : promise.Ranged) : Lines.Reads termForm (termsOf promise) := by
  refine .cons ⟨rfl, toList_ne hnamed.payerAccountId⟩ (.cons ⟨rfl, toList_ne hnamed.payeeAccountId⟩ (.cons ⟨?_, ?_⟩
    (.cons ⟨rfl, trivial⟩ (.cons ⟨rfl, trivial⟩ (.cons ⟨rfl, trivial⟩ .nil)))))
  · exact ⟨_, ⟨promise.amountMinor, hranged.amountMinor, rfl⟩, rfl⟩
  · exact toList_ne currencyOrDefault_ne

theorem reads_outcomeOf (hranged : promise.Ranged) : Lines.Reads outcomeForm (outcomeOf promise) := by
  refine .cons ⟨?_, trivial⟩ (.cons ⟨?_, trivial⟩ (.cons ⟨rfl, trivial⟩ .nil))
  · exact ⟨_, ⟨promise.state, rfl⟩, rfl⟩
  · exact ⟨_, ⟨promise.outcomeAtMs, hranged.outcomeAtMs, rfl⟩, rfl⟩

theorem exists_termsOf {id : List Char} (hid : id ≠ [])
    (hranged : promise.Ranged) (h : Lines.Reads termForm lines) :
    ∃ q : PaymentPromise, q.Named ∧ q.Ranged ∧ q.promiseId.toList = id ∧ termsOf q = lines ∧
      q.releaseRule = promise.releaseRule ∧ q.createdAtMs = promise.createdAtMs ∧
      q.expiresAtMs = promise.expiresAtMs := by
  obtain ⟨payer, lines₁, ⟨hpayer, hpayerFits⟩, h₁, rfl⟩ := List.forall₂_cons_left_iff.mp h
  obtain ⟨payee, lines₂, ⟨hpayee, hpayeeFits⟩, h₂, rfl⟩ := List.forall₂_cons_left_iff.mp h₁
  obtain ⟨currency, lines₃, ⟨⟨_, ⟨amount, hamount, rfl⟩, hcurrency⟩, hcurrencyFits⟩, h₃, rfl⟩ :=
    List.forall₂_cons_left_iff.mp h₂
  obtain ⟨service, lines₄, ⟨hservice, -⟩, h₄, rfl⟩ := List.forall₂_cons_left_iff.mp h₃
  obtain ⟨terms, lines₅, ⟨hterms, -⟩, h₅, rfl⟩ := List.forall₂_cons_left_iff.mp h₄
  obtain ⟨content, lines₆, ⟨hcontent, -⟩, h₆, rfl⟩ := List.forall₂_cons_left_iff.mp h₅
  obtain rfl := List.forall₂_nil_left_iff.mp h₆
  refine ⟨{ promise with
    promiseId := .ofList id, payerAccountId := .ofList payer.2, payeeAccountId := .ofList payee.2
    amountMinor := amount, currency := .ofList currency.2, serviceRef := .ofList service.2
    termsHashB64 := .ofList terms.2, contentCommitmentB64 := .ofList content.2 }, ?_, ?_, ?_, ?_, rfl, rfl, rfl⟩
  · exact ⟨ofList_ne hid, ofList_ne hpayerFits, ofList_ne hpayeeFits⟩
  · exact ⟨hamount, hranged.createdAtMs, hranged.expiresAtMs, hranged.outcomeAtMs⟩
  · simp
  · simp only [termsOf, PaymentPromise.currencyOrDefault, if_neg (ofList_ne hcurrencyFits), String.toList_ofList]
    simp only [List.cons.injEq, and_true]
    exact ⟨Prod.ext hpayer.symm rfl, Prod.ext hpayee.symm rfl, Prod.ext hcurrency.symm rfl,
      Prod.ext hservice.symm rfl, Prod.ext hterms.symm rfl, Prod.ext hcontent.symm rfl⟩

theorem exists_outcomeOf {id : List Char} (hid : id ≠ [])
    (hnamed : promise.Named) (hranged : promise.Ranged) (h : Lines.Reads outcomeForm lines) :
    ∃ q : PaymentPromise, q.Named ∧ q.Ranged ∧ q.promiseId.toList = id ∧ outcomeOf q = lines := by
  obtain ⟨actor, lines₁, ⟨⟨_, ⟨state, rfl⟩, hactor⟩, -⟩, h₁, rfl⟩ := List.forall₂_cons_left_iff.mp h
  obtain ⟨note, lines₂, ⟨⟨_, ⟨atMs, hat, rfl⟩, hnote⟩, -⟩, h₂, rfl⟩ := List.forall₂_cons_left_iff.mp h₁
  obtain ⟨content, lines₃, ⟨hcontent, -⟩, h₃, rfl⟩ := List.forall₂_cons_left_iff.mp h₂
  obtain rfl := List.forall₂_nil_left_iff.mp h₃
  refine ⟨{ promise with
    promiseId := .ofList id, state, outcomeActorAccountId := .ofList actor.2, outcomeAtMs := atMs
    outcomeNote := .ofList note.2, contentCommitmentB64 := .ofList content.2 }, ?_, ?_, ?_, ?_⟩
  · exact ⟨ofList_ne hid, hnamed.payerAccountId, hnamed.payeeAccountId⟩
  · exact ⟨hranged.amountMinor, hranged.createdAtMs, hranged.expiresAtMs, hat⟩
  · simp
  · simp only [outcomeOf, String.toList_ofList]
    simp only [List.cons.injEq, and_true]
    exact ⟨Prod.ext hactor.symm rfl, Prod.ext hnote.symm rfl, Prod.ext hcontent.symm rfl⟩

theorem openingAfter_inj {key second value value' : String} (hvalue : '\n' ∉ value.toList)
    (hvalue' : '\n' ∉ value'.toList) (h : openingAfter key value second = openingAfter key value' second) :
    value = value' := by
  have htail := List.tail_eq_of_cons_eq (List.append_cancel_left (List.tail_eq_of_cons_eq h))
  exact String.toList_inj.mp (Lines.append_mark_inj hvalue hvalue' htail).1

theorem sameTerms_iff : SameTerms other promise ↔ other.promiseId.toList = promise.promiseId.toList ∧
    termsOf other = termsOf promise ∧ other.releaseRule = promise.releaseRule ∧
    other.createdAtMs = promise.createdAtMs ∧ other.expiresAtMs = promise.expiresAtMs := by
  constructor
  · intro h
    refine ⟨congrArg _ h.promiseId, ?_, h.releaseRule, h.createdAtMs, h.expiresAtMs⟩
    simp only [termsOf, h.payerAccountId, h.payeeAccountId, h.amountMinor, h.currency, h.serviceRef,
      h.termsHashB64, h.contentCommitmentB64]
  · intro ⟨hid, hterms, hrule, hcreated, hexpires⟩
    simp only [termsOf, List.cons.injEq, Prod.mk.injEq, true_and, and_true, String.toList_inj] at hid hterms
    obtain ⟨hpayer, hpayee, ⟨hamount, hcurrency⟩, hservice, hhash, hcontent⟩ := hterms
    have hamount := openingAfter_inj (break_notMem_toString _) (break_notMem_toString _) hamount
    exact ⟨hid, hpayer, hpayee, toString_inj hamount, hcurrency, hservice, hhash, hcontent, hrule, hcreated, hexpires⟩

theorem sameOutcome_iff : SameOutcome other promise ↔ other.promiseId.toList = promise.promiseId.toList ∧
    outcomeOf other = outcomeOf promise := by
  constructor
  · intro h
    refine ⟨congrArg _ h.promiseId, ?_⟩
    simp only [outcomeOf, h.state, h.outcomeActorAccountId, h.outcomeAtMs, h.outcomeNote, h.contentCommitmentB64]
  · intro ⟨hid, houtcome⟩
    simp only [outcomeOf, List.cons.injEq, Prod.mk.injEq, true_and, and_true, String.toList_inj] at hid houtcome
    obtain ⟨⟨hstate, hactor⟩, ⟨hat, hnote⟩, hcontent⟩ := houtcome
    have hname : ∀ state, '\n' ∉ (paymentPromiseStateToString state).toList := by
      intro state
      cases state <;> decide
    have hstate := openingAfter_inj (hname _) (hname _) hstate
    have hat := openingAfter_inj (break_notMem_toString _) (break_notMem_toString _) hat
    exact ⟨hid, paymentPromiseStateToString_inj hstate, hactor, toString_inj hat, hnote, hcontent⟩

/-- Equal promise bytes are equal terms just when the terms are plain. -/
theorem terms_unique_iff (hnamed : promise.Named) (hranged : promise.Ranged) :
    (∀ q, (∃ json, decode json = .ok q) → buildPromiseSignBytes q = buildPromiseSignBytes promise →
      SameTerms q promise) ↔ PlainTerms promise := by
  rw [PlainTerms, ← Lines.unique_iff termForm_apart termForm_grows
    (reads_termsOf hnamed hranged) (toList_ne hnamed.promiseId) (fun _ h => h)]
  constructor
  · intro h id lines hid hlines htext
    obtain ⟨q, hqnamed, hqranged, rfl, rfl, hrule, hcreated, hexpires⟩ := exists_termsOf hid hranged hlines
    have hsame := h q (decode_ok_iff.mpr ⟨hqnamed, hqranged⟩)
      (promiseSignBytes_eq_iff.mpr ⟨htext, hrule, hcreated, hexpires⟩)
    have hparts := sameTerms_iff.mp hsame
    exact ⟨hparts.1, hparts.2.1⟩
  · intro h q hq hbytes
    obtain ⟨hqnamed, hqranged⟩ := decode_ok_iff.mp hq
    obtain ⟨htext, hrest⟩ := promiseSignBytes_eq_iff.mp hbytes
    obtain ⟨hid, hterms⟩ := h _ _ (toList_ne hqnamed.promiseId) (reads_termsOf hqnamed hqranged) htext
    exact sameTerms_iff.mpr ⟨hid, hterms, hrest⟩

theorem outcome_unique_iff (hnamed : promise.Named) (hranged : promise.Ranged) :
    (∀ q, (∃ json, decode json = .ok q) → buildOutcomeSignBytes q = buildOutcomeSignBytes promise →
      SameOutcome q promise) ↔ PlainOutcome promise := by
  rw [PlainOutcome, ← Lines.unique_iff outcomeForm_apart outcomeForm_grows
    (reads_outcomeOf hranged) (toList_ne hnamed.promiseId) (fun _ h => h)]
  constructor
  · intro h id lines hid hlines htext
    obtain ⟨q, hqnamed, hqranged, rfl, rfl⟩ := exists_outcomeOf hid hnamed hranged hlines
    exact sameOutcome_iff.mp (h q (decode_ok_iff.mpr ⟨hqnamed, hqranged⟩) (outcomeSignBytes_eq_iff.mpr htext))
  · intro h q hq hbytes
    obtain ⟨hqnamed, hqranged⟩ := decode_ok_iff.mp hq
    exact sameOutcome_iff.mpr (h _ _ (toList_ne hqnamed.promiseId) (reads_outcomeOf hqranged)
      (outcomeSignBytes_eq_iff.mp hbytes))

/-- Read back from its JSON, a promise has the sign bytes, state, signatures
and outcome it had. -/
structure KeptBy (promise back : PaymentPromise) : Prop where
  promiseBytes : buildPromiseSignBytes back = buildPromiseSignBytes promise
  outcomeBytes : buildOutcomeSignBytes back = buildOutcomeSignBytes promise
  state : back.state = promise.state
  payerSignatureB64 : back.payerSignatureB64 = promise.payerSignatureB64
  payeeSignatureB64 : back.payeeSignatureB64 = promise.payeeSignatureB64
  outcomeSignatureB64 : back.outcomeSignatureB64 = promise.outcomeSignatureB64
  outcome : SameOutcome back promise

theorem kept_by_encode (hnamed : promise.Named) (hranged : promise.Ranged) :
    ∃ back, decode (encode promise) = .ok back ∧ KeptBy promise back := by
  refine ⟨_, decode_encode hnamed hranged, ?_, ?_, rfl, rfl, rfl, rfl, ?_⟩
  · unfold buildPromiseSignBytes promiseSignText
    rw [currencyOrDefault_default]
  · rfl
  · exact ⟨rfl, rfl, rfl, rfl, rfl, rfl⟩

/-- A promise's signature covers its terms only, and its outcome's signature
its outcome, just when no text in them imitates the lines around it. Promise
and outcome bytes never coincide, and a promise survives its JSON. -/
theorem signature_covers_one (promise : PaymentPromise) (hnamed : promise.Named) (hranged : promise.Ranged) :
    ((∀ q, (∃ json, decode json = .ok q) → buildPromiseSignBytes q = buildPromiseSignBytes promise →
        SameTerms q promise) ∧
      (∀ q, (∃ json, decode json = .ok q) → buildOutcomeSignBytes q = buildOutcomeSignBytes promise →
        SameOutcome q promise) ∧
      (∀ q, buildPromiseSignBytes promise ≠ buildOutcomeSignBytes q) ∧
      ∃ back, decode (encode promise) = .ok back ∧ KeptBy promise back) ↔
      PlainTerms promise ∧ PlainOutcome promise := by
  rw [terms_unique_iff hnamed hranged, outcome_unique_iff hnamed hranged]
  constructor
  · intro h
    exact ⟨h.1, h.2.1⟩
  · intro h
    exact ⟨h.1, h.2, fun q => promiseSignBytes_ne, kept_by_encode hnamed hranged⟩

theorem plain_of_no_break (h : ∀ text ∈ [promise.promiseId, promise.payerAccountId, promise.payeeAccountId,
    promise.currencyOrDefault, promise.serviceRef, promise.termsHashB64, promise.contentCommitmentB64,
    promise.outcomeActorAccountId, promise.outcomeNote], '\n' ∉ text.toList) :
    PlainTerms promise ∧ PlainOutcome promise := by
  simp only [List.forall_mem_cons] at h
  obtain ⟨hid, hpayer, hpayee, hcurrency, hservice, hterms, hcontent, hactor, hnote, -⟩ := h
  refine ⟨Lines.allPlain_of_notMem (fun _ hopens => hopens.elim) hid ?_,
    Lines.allPlain_of_notMem (fun _ hopens => hopens.elim) hid ?_⟩
  · simp only [termsOf, List.forall_mem_cons]
    exact ⟨hpayer, hpayee, hcurrency, hservice, hterms, hcontent, fun _ h => by cases h⟩
  · simp only [outcomeOf, List.forall_mem_cons]
    exact ⟨hactor, hnote, hcontent, fun _ h => by cases h⟩

/-- A promise with a service reference and nothing in it that breaks a line. -/
def samplePromise : PaymentPromise :=
  { promiseId := "promise:1", payerAccountId := "account:a", payeeAccountId := "account:b", amountMinor := 5,
    serviceRef := "job" }

theorem signature_covers_one_sample : PlainTerms samplePromise ∧ ∀ q, (∃ json, decode json = .ok q) →
    buildPromiseSignBytes q = buildPromiseSignBytes samplePromise → SameTerms q samplePromise := by
  have hranged : samplePromise.Ranged := ⟨by decide, by decide, by decide, by decide⟩
  have hplain : PlainTerms samplePromise ∧ PlainOutcome samplePromise := plain_of_no_break (by decide)
  exact ⟨hplain.1, ((signature_covers_one samplePromise ⟨by decide, by decide, by decide⟩ hranged).mpr hplain).1⟩

/-- A service reference that goes on as the line after it. -/
def brokenPromise : PaymentPromise := { samplePromise with serviceRef := "job\nterms_hash_b64=x" }

/-- What else its signed text says. -/
def otherPromise : PaymentPromise := { samplePromise with termsHashB64 := "x\nterms_hash_b64=" }

/-- One signature covers two promises with different services and terms. -/
theorem two_meanings : (∃ json, decode json = .ok brokenPromise) ∧ (∃ json, decode json = .ok otherPromise) ∧
    buildPromiseSignBytes otherPromise = buildPromiseSignBytes brokenPromise ∧
    ¬ SameTerms otherPromise brokenPromise := by
  have hranged : samplePromise.Ranged := ⟨by decide, by decide, by decide, by decide⟩
  refine ⟨decode_ok_iff.mpr ⟨⟨by decide, by decide, by decide⟩, hranged.1, hranged.2, hranged.3, hranged.4⟩,
    decode_ok_iff.mpr ⟨⟨by decide, by decide, by decide⟩, hranged.1, hranged.2, hranged.3, hranged.4⟩, ?_, ?_⟩
  · decide +kernel
  · intro h
    exact absurd h.serviceRef (by decide)

end PaymentPromiseCodec

end Pbr
