import PpBrowser.Lib.Runs
import PpBrowser.Pricing.PaymentPromiseLifecycle
import PpBrowser.Pricing.PaymentPromiseSignBytes

/-!
# PaymentPromiseRun — promises under local acts and what the counterparty sends

A run is the user's acts on one device and receipts staged from outside in
any order. An act that stops at a locked account or an unknown key changes
nothing and is left out. In every run a committed promise keeps its terms,
an outcome stays and nothing goes back to an offer (`Follows`). That an
accepted promise is signed by both, and accepted by the party that did not
offer it, holds in runs where each side accepts the other's offer only
(`RowOk`).
-/

namespace Pbr

open Lib PaymentPromiseCodec PaymentPromiseLifecycle

variable {Key : Type} (keys : PromiseKeys Key)

inductive PromiseOp where
  | createOffer (params : OfferParams) (promiseId : String) (nowMs : Int)
  | accept (promiseId : String)
  | markDelivering (promiseId : String)
  | recordOutcome (promiseId : String) (outcome : PaymentPromiseState) (note : String) (nowMs : Int)
  | stageInbound (promise : PaymentPromise)
  | commitInbound (promiseId : String)
  | ignoreInbound (promiseId : String)

namespace PaymentPromiseStore

def step (store : PaymentPromiseStore) : PromiseOp → PaymentPromiseStore
  | .createOffer params promiseId nowMs => createOffer keys store params promiseId nowMs
  | .accept promiseId => accept keys store promiseId
  | .markDelivering promiseId => markDelivering store promiseId
  | .recordOutcome promiseId outcome note nowMs => recordOutcome keys store promiseId outcome note nowMs
  | .stageInbound promise => store.stageInbound promise
  | .commitInbound promiseId => PaymentPromiseLifecycle.commitInbound keys store promiseId
  | .ignoreInbound promiseId => store.ignoreInbound promiseId

/-- An offer is made under an id no committed promise has. -/
def Fresh (store : PaymentPromiseStore) : PromiseOp → Prop
  | .createOffer _ promiseId _ => store.rows promiseId = none
  | _ => True

/-- The user accepts what the counterparty offered; what the counterparty
accepts is our offer, and what it sends of a committed promise has its terms. -/
def Agrees (store : PaymentPromiseStore) : PromiseOp → Prop
  | .accept promiseId => ∀ row, store.rows promiseId = some row → slot row keys.localAccount = ""
  | .commitInbound promiseId => ∀ row incoming, store.rows promiseId = some row →
      store.pendingInbound promiseId = some incoming → SameTerms incoming row ∧
        (incoming.state = .accepted → slot row keys.localAccount ≠ "")
  | _ => True

variable {store : PaymentPromiseStore} {promiseId : String} {row row' incoming : PaymentPromise}

/-! ## What a transition keeps -/

/-- What becomes of a committed promise. -/
structure Follows (row row' : PaymentPromise) : Prop where
  promiseId : row'.promiseId = row.promiseId
  payerAccountId : row'.payerAccountId = row.payerAccountId
  payeeAccountId : row'.payeeAccountId = row.payeeAccountId
  promiseBytes : buildPromiseSignBytes row' = buildPromiseSignBytes row
  terms : SameTerms row' row
  outcome : paymentPromiseStateIsTerminal row.state →
    row'.state = row.state ∧ SameOutcome row' row ∧ row'.outcomeSignatureB64 = row.outcomeSignatureB64
  onward : row.state ≠ .offered → row'.state ≠ .offered

theorem Follows.refl : Follows row row where
  promiseId := rfl
  payerAccountId := rfl
  payeeAccountId := rfl
  promiseBytes := rfl
  terms := .refl
  outcome _ := ⟨rfl, .refl, rfl⟩
  onward := id

theorem Follows.trans {a b c : PaymentPromise} (h : Follows a b) (h' : Follows b c) : Follows a c where
  promiseId := h'.promiseId.trans h.promiseId
  payerAccountId := h'.payerAccountId.trans h.payerAccountId
  payeeAccountId := h'.payeeAccountId.trans h.payeeAccountId
  promiseBytes := h'.promiseBytes.trans h.promiseBytes
  terms := h'.terms.trans h.terms
  outcome hterminal := by
    obtain ⟨hstate, hsame, hsignature⟩ := h.outcome hterminal
    obtain ⟨hstate', hsame', hsignature'⟩ := h'.outcome (by rw [hstate]; exact hterminal)
    exact ⟨hstate'.trans hstate, hsame'.trans hsame, hsignature'.trans hsignature⟩
  onward hstate := h'.onward (h.onward hstate)

/-- From a store to a later one every committed promise follows its earlier
self, and who offered it and who accepted it stays. -/
structure Later (store store' : PaymentPromiseStore) : Prop where
  rows : ∀ {promiseId row}, store.rows promiseId = some row → ∃ row', store'.rows promiseId = some row' ∧ Follows row row'
  offeredBy : ∀ {promiseId row}, store.rows promiseId = some row → store'.offeredBy promiseId = store.offeredBy promiseId
  acceptedBy : ∀ {promiseId}, store.acceptedBy promiseId ≠ none → store'.acceptedBy promiseId = store.acceptedBy promiseId

theorem Later.trans {a b c : PaymentPromiseStore} (hab : Later a b) (hbc : Later b c) : Later a c where
  rows hrow := by
    obtain ⟨row', hrow', hfollows⟩ := hab.rows hrow
    obtain ⟨row'', hrow'', hfollows'⟩ := hbc.rows hrow'
    exact ⟨row'', hrow'', hfollows.trans hfollows'⟩
  offeredBy hrow := by
    obtain ⟨row', hrow', -⟩ := hab.rows hrow
    exact (hbc.offeredBy hrow').trans (hab.offeredBy hrow)
  acceptedBy haccepted := by
    have hab' := hab.acceptedBy haccepted
    exact (hbc.acceptedBy (by rwa [hab'])).trans hab'

/-- Rows and receipts stand under their own ids; what was accepted is no
longer an offer. -/
structure Keyed (store : PaymentPromiseStore) : Prop where
  rows : ∀ {promiseId row}, store.rows promiseId = some row → row.promiseId = promiseId
  accepted : ∀ {promiseId}, store.acceptedBy promiseId ≠ none →
    ∃ row, store.rows promiseId = some row ∧ row.state ≠ .offered
  pending : ∀ {promiseId row}, store.pendingInbound promiseId = some row → row.promiseId = promiseId

variable {store' : PaymentPromiseStore} {committed : Option PaymentPromise} {offeredBy acceptedBy : Option String}

theorem keyed_update {rows : String → Option PaymentPromise}
    (h : ∀ {promiseId row}, rows promiseId = some row → row.promiseId = promiseId) {id : String}
    (hid : row'.promiseId = promiseId) (hrow : Function.update rows promiseId (some row') id = some row) :
    row.promiseId = id := by
  by_cases heq : id = promiseId
  · subst heq
    obtain rfl : row' = row := by simpa using hrow
    exact hid
  · exact h (by simpa [heq] using hrow)

/-! ## The transitions -/

/-- What a commit of a staged receipt gives, by the state it comes in. -/
inductive Merges (keys : PromiseKeys Key) (committed : Option PaymentPromise) (incoming : PaymentPromise)
    (counterparty : String) : PaymentPromise → Prop where
  | offer (hnone : committed = none) (hstate : incoming.state = .offered)
      (hsigned : verifyPromiseSignature keys (keys.keyOf counterparty) incoming (slot incoming counterparty))
      {row : PaymentPromise} (hbytes : buildPromiseSignBytes row = buildPromiseSignBytes incoming)
      (hterms : SameTerms row incoming) (hrowState : row.state = .offered)
      (htheirs : slot row counterparty = slot incoming counterparty)
      (hours : slot row keys.localAccount = "") : Merges keys committed incoming counterparty row
  | acceptance {ours : PaymentPromise} (hsome : committed = some ours)
      (hbytes : buildPromiseSignBytes ours = buildPromiseSignBytes incoming) (hstate : incoming.state = .accepted)
      (hoffered : ours.state = .offered)
      (hsigned : verifyPromiseSignature keys (keys.keyOf counterparty) incoming (slot incoming counterparty)) :
      Merges keys committed incoming counterparty
        { ours with
          payerSignatureB64 := if incoming.payerAccountId = counterparty then slot incoming counterparty
            else ours.payerSignatureB64
          payeeSignatureB64 := if incoming.payerAccountId = counterparty then ours.payeeSignatureB64
            else slot incoming counterparty
          state := .accepted }
  | outcome {ours : PaymentPromise} (hsome : committed = some ours)
      (hbytes : buildPromiseSignBytes ours = buildPromiseSignBytes incoming)
      (hterminal : paymentPromiseStateIsTerminal incoming.state)
      (hopen : ¬ paymentPromiseStateIsTerminal ours.state)
      (hactor : incoming.outcomeActorAccountId = counterparty)
      (hsigned : verifyOutcomeSignature keys (keys.keyOf counterparty) incoming) :
      Merges keys committed incoming counterparty
        { ours with
          state := incoming.state, outcomeActorAccountId := incoming.outcomeActorAccountId
          outcomeSignatureB64 := incoming.outcomeSignatureB64, outcomeAtMs := incoming.outcomeAtMs
          outcomeNote := incoming.outcomeNote }

/-- A row with the acceptance a receipt brings. -/
abbrev withAcceptance (row incoming : PaymentPromise) (counterparty : String) : PaymentPromise :=
  { row with
    payerSignatureB64 := if incoming.payerAccountId = counterparty then slot incoming counterparty
      else row.payerSignatureB64
    payeeSignatureB64 := if incoming.payerAccountId = counterparty then row.payeeSignatureB64
      else slot incoming counterparty
    state := .accepted }

/-- A row with the outcome a receipt brings. -/
abbrev withOutcome (row incoming : PaymentPromise) : PaymentPromise :=
  { row with
    state := incoming.state, outcomeActorAccountId := incoming.outcomeActorAccountId
    outcomeSignatureB64 := incoming.outcomeSignatureB64, outcomeAtMs := incoming.outcomeAtMs
    outcomeNote := incoming.outcomeNote }

/-- A row with an outcome signed here. -/
abbrev signedOutcome (row : PaymentPromise) (outcome : PaymentPromiseState) (note : String) (nowMs : Int) :
    PaymentPromise :=
  { concluded keys row outcome note nowMs with
    outcomeSignatureB64 := keys.sign (buildOutcomeSignBytes (concluded keys row outcome note nowMs)) }

variable {counterparty : String} {op : PromiseOp} {a b : PaymentPromise} {account : String}
  {params : OfferParams}

theorem counterparty_cases (h : paymentPromiseCounterparty incoming keys.localAccount = some counterparty) :
    incoming.payerAccountId ≠ incoming.payeeAccountId ∧
      (incoming.payerAccountId = keys.localAccount ∧ incoming.payeeAccountId = counterparty ∨
        incoming.payeeAccountId = keys.localAccount ∧ incoming.payerAccountId = counterparty) := by
  rw [paymentPromiseCounterparty] at h
  split at h
  · cases h
  next hparties =>
    refine ⟨fun heq => hparties (.inr heq), ?_⟩
    split at h
    next hpayer => exact .inl ⟨hpayer, Option.some.inj h⟩
    · split at h
      next hpayee => exact .inr ⟨hpayee, Option.some.inj h⟩
      · cases h

theorem merges_offer (hnone : committed = none) (hstate : incoming.state = .offered)
    (hcounterparty : paymentPromiseCounterparty incoming keys.localAccount = some counterparty)
    (hsigned : verifyPromiseSignature keys (keys.keyOf counterparty) incoming (slot incoming counterparty)) :
    Merges keys committed incoming counterparty
      { incoming with
        payerSignatureB64 := if incoming.payerAccountId = counterparty then incoming.payerSignatureB64 else ""
        payeeSignatureB64 := if incoming.payerAccountId = counterparty then "" else incoming.payeeSignatureB64
        outcomeActorAccountId := "", outcomeSignatureB64 := "", outcomeAtMs := 0, outcomeNote := ""
        localAvoid := false } := by
  obtain ⟨hne, hparties⟩ := counterparty_cases keys hcounterparty
  refine .offer hnone hstate hsigned rfl ⟨rfl, rfl, rfl, rfl, rfl, rfl, rfl, rfl, rfl, rfl, rfl⟩ hstate ?_ ?_
  · by_cases hpayer : incoming.payerAccountId = counterparty
    · simp [slot, hpayer]
    · simp [slot, hpayer]
  · rcases hparties with ⟨hlocal, hother⟩ | ⟨hlocal, hother⟩
    · have hpayer : incoming.payerAccountId ≠ counterparty := hother ▸ hne
      simp [slot, hlocal, hlocal ▸ hpayer]
    · have hpayer : counterparty ≠ keys.localAccount := hother ▸ hlocal ▸ hne
      simp [slot, hother, hpayer]

theorem merges (hcounterparty : paymentPromiseCounterparty incoming keys.localAccount = some counterparty)
    (h : mergeInboundPaymentPromise keys committed incoming keys.localAccount (keys.keyOf counterparty) = .ok row) :
    Merges keys committed incoming counterparty row := by
  simp only [mergeInboundPaymentPromise, hcounterparty] at h
  by_cases hoffered : incoming.state = .offered
  · rw [if_pos hoffered] at h
    by_cases hsome : committed.isSome
    · rw [if_pos hsome] at h
      cases h
    rw [if_neg hsome] at h
    by_cases hsigned : verifyPromiseSignature keys (keys.keyOf counterparty) incoming (slot incoming counterparty)
    · rw [if_neg (by simpa [slot] using hsigned)] at h
      obtain rfl := Except.ok.inj h
      exact merges_offer keys (by simpa using hsome) hoffered hcounterparty hsigned
    · rw [if_pos (by simpa [slot] using hsigned)] at h
      cases h
  rw [if_neg hoffered] at h
  cases committed with
  | none => cases h
  | some ours =>
    dsimp only at h
    by_cases hbytes : buildPromiseSignBytes ours = buildPromiseSignBytes incoming
    · rw [if_neg (not_not.mpr hbytes)] at h
      by_cases haccepted : incoming.state = .accepted
      · rw [if_pos haccepted] at h
        by_cases hstate : ours.state = .offered
        · rw [if_neg (not_not.mpr hstate)] at h
          by_cases hsigned :
              verifyPromiseSignature keys (keys.keyOf counterparty) incoming (slot incoming counterparty)
          · rw [if_neg (by simpa [slot] using hsigned)] at h
            obtain rfl := Except.ok.inj h
            exact .acceptance rfl hbytes haccepted hstate hsigned
          · rw [if_pos (by simpa [slot] using hsigned)] at h
            cases h
        · rw [if_pos hstate] at h
          cases h
      rw [if_neg haccepted] at h
      by_cases hterminal : paymentPromiseStateIsTerminal incoming.state
      · rw [if_pos hterminal] at h
        by_cases hopen : paymentPromiseStateIsTerminal ours.state
        · rw [if_pos hopen] at h
          cases h
        rw [if_neg hopen] at h
        by_cases hactor : incoming.outcomeActorAccountId = counterparty
        · rw [if_neg (not_not.mpr hactor)] at h
          by_cases hsigned : verifyOutcomeSignature keys (keys.keyOf counterparty) incoming
          · rw [if_neg (by simpa using hsigned)] at h
            obtain rfl := Except.ok.inj h
            exact .outcome rfl hbytes hterminal hopen hactor hsigned
          · rw [if_pos (by simpa using hsigned)] at h
            cases h
        · rw [if_pos hactor] at h
          cases h
      · rw [if_neg hterminal] at h
        cases h
    · rw [if_pos hbytes] at h
      cases h

/-! ## What an act does -/

/-- A row is written under its id, with who offered and who accepted it. -/
structure Written (store store' : PaymentPromiseStore) (row' : PaymentPromise)
    (offeredBy acceptedBy : Option String) : Prop where
  rows : store'.rows = Function.update store.rows row'.promiseId (some row')
  offeredBy : store'.offeredBy = Function.update store.offeredBy row'.promiseId offeredBy
  acceptedBy : store'.acceptedBy = Function.update store.acceptedBy row'.promiseId acceptedBy
  pending : ∀ {id receipt}, store'.pendingInbound id = some receipt → store.pendingInbound id = some receipt

inductive Moves (store : PaymentPromiseStore) : PromiseOp → PaymentPromiseStore → Prop where
  | keeps {op : PromiseOp} {store' : PaymentPromiseStore} (rows : store'.rows = store.rows)
      (offeredBy : store'.offeredBy = store.offeredBy) (acceptedBy : store'.acceptedBy = store.acceptedBy)
      (pending : ∀ {id receipt}, store'.pendingInbound id = some receipt →
        store.pendingInbound id = some receipt ∨ receipt.promiseId = id) : Moves store op store'
  | offers {params : OfferParams} {promiseId : String} {nowMs : Int} {store' : PaymentPromiseStore}
      (hother : keys.localAccount ≠ params.counterpartyAccountId)
      (written : Written store store' (signOffer keys params (draft keys params promiseId nowMs))
        (some keys.localAccount) (store.acceptedBy promiseId)) :
      Moves store (.createOffer params promiseId nowMs) store'
  | accepts {promiseId : String} {row : PaymentPromise} {store' : PaymentPromiseStore}
      (found : store.rows promiseId = some row) (offered : row.state = .offered)
      (party : isParty row keys.localAccount)
      (written : Written store store' { countersign keys row with state := .accepted }
        (store.offeredBy promiseId) (some keys.localAccount)) : Moves store (.accept promiseId) store'
  | delivers {promiseId : String} {row : PaymentPromise} {store' : PaymentPromiseStore}
      (found : store.rows promiseId = some row) (agreed : row.state = .accepted ∨ row.state = .delivering)
      (written : Written store store' { row with state := .delivering } (store.offeredBy promiseId)
        (store.acceptedBy promiseId)) : Moves store (.markDelivering promiseId) store'
  | concludes {promiseId note : String} {outcome : PaymentPromiseState} {nowMs : Int} {row : PaymentPromise}
      {store' : PaymentPromiseStore} (found : store.rows promiseId = some row)
      (opened : ¬ paymentPromiseStateIsTerminal row.state) (terminal : paymentPromiseStateIsTerminal outcome)
      (party : isParty row keys.localAccount)
      (written : Written store store' { concluded keys row outcome note nowMs with
          outcomeSignatureB64 := keys.sign (buildOutcomeSignBytes (concluded keys row outcome note nowMs)) }
        (store.offeredBy promiseId) (store.acceptedBy promiseId)) :
      Moves store (.recordOutcome promiseId outcome note nowMs) store'
  | commits {promiseId counterparty : String} {incoming row : PaymentPromise} {store' : PaymentPromiseStore}
      (staged : store.pendingInbound promiseId = some incoming)
      (between : paymentPromiseCounterparty incoming keys.localAccount = some counterparty)
      (merged : Merges keys (store.rows promiseId) incoming counterparty row)
      (written : Written store store' row
        (if incoming.state = .offered then some counterparty else store.offeredBy promiseId)
        (if incoming.state = .accepted then some counterparty else store.acceptedBy promiseId)) :
      Moves store (.commitInbound promiseId) store'

theorem Moves.refl : Moves keys store op store := .keeps rfl rfl rfl .inl

theorem signOffer_promiseId : (signOffer keys params row).promiseId = row.promiseId := by
  rw [signOffer]
  split <;> rfl

theorem countersign_promiseId : (countersign keys row).promiseId = row.promiseId := by
  rw [countersign]
  split
  · rfl
  · split <;> rfl

theorem written_upsert (hid : row'.promiseId = promiseId) :
    Written store (store.upsert row') row' (store.offeredBy promiseId) (store.acceptedBy promiseId) where
  rows := rfl
  offeredBy := by rw [hid, Function.update_eq_self, PaymentPromiseStore.upsert]
  acceptedBy := by rw [hid, Function.update_eq_self, PaymentPromiseStore.upsert]
  pending := id

theorem Written.offered {a : String} (h : Written store store' row' (store.offeredBy promiseId) acceptedBy)
    (hid : row'.promiseId = promiseId) : Written store (store'.offered promiseId a) row' (some a) acceptedBy where
  rows := h.rows
  offeredBy := by rw [PaymentPromiseStore.offered, h.offeredBy, hid, Function.update_idem]
  acceptedBy := h.acceptedBy
  pending := h.pending

theorem Written.accepted {a : String} (h : Written store store' row' offeredBy (store.acceptedBy promiseId))
    (hid : row'.promiseId = promiseId) : Written store (store'.accepted promiseId a) row' offeredBy (some a) where
  rows := h.rows
  offeredBy := h.offeredBy
  acceptedBy := by rw [PaymentPromiseStore.accepted, h.acceptedBy, hid, Function.update_idem]
  pending := h.pending

theorem written_commit (hid : row'.promiseId = promiseId) :
    Written store (store.commitInbound row') row' (store.offeredBy promiseId) (store.acceptedBy promiseId) where
  rows := rfl
  offeredBy := by rw [hid, Function.update_eq_self, PaymentPromiseStore.commitInbound]
  acceptedBy := by rw [hid, Function.update_eq_self, PaymentPromiseStore.commitInbound]
  pending := by
    intro id receipt h
    simp only [PaymentPromiseStore.commitInbound] at h
    by_cases heq : id = row'.promiseId
    · simp [heq] at h
    · simpa [heq] using h

theorem Merges.merged_promiseId (h : Merges keys committed incoming counterparty row)
    (hcommitted : ∀ ours, committed = some ours → ours.promiseId = promiseId)
    (hincoming : incoming.promiseId = promiseId) : row.promiseId = promiseId := by
  cases h with
  | offer hnone hstate hsigned hbytes hterms hrowState htheirs hours =>
    exact hterms.promiseId.trans hincoming
  | acceptance hsome hbytes hstate hoffered hsigned
  | outcome hsome hbytes hterminal hopen hactor hsigned =>
    have hid := hcommitted _ hsome
    exact hid

theorem moves (h : store.Keyed) (op : PromiseOp) : Moves keys store op (store.step keys op) := by
  cases op with
  | createOffer params promiseId nowMs =>
    simp only [PaymentPromiseStore.step, createOffer]
    split
    · exact .refl keys
    next hparams =>
      simp only [not_or] at hparams
      have hid : (signOffer keys params (draft keys params promiseId nowMs)).promiseId = promiseId :=
        signOffer_promiseId keys
      exact .offers hparams.2.2 ((written_upsert hid).offered hid)
  | accept promiseId =>
    simp only [PaymentPromiseStore.step, accept]
    cases found : store.rows promiseId with
    | none => exact .refl keys
    | some row =>
      dsimp only
      split
      · exact .refl keys
      next hstate =>
        simp only [not_or, not_not, Bool.not_eq_true, Bool.not_eq_false'] at hstate
        have hid : ({ countersign keys row with state := .accepted } : PaymentPromise).promiseId = promiseId :=
          (countersign_promiseId keys).trans (h.rows found)
        exact .accepts found hstate.1 hstate.2 ((written_upsert hid).accepted hid)
  | markDelivering promiseId =>
    simp only [PaymentPromiseStore.step, markDelivering]
    cases found : store.rows promiseId with
    | none => exact .refl keys
    | some row =>
      dsimp only
      split
      · exact .refl keys
      next hstate =>
        have hagreed : row.state = .accepted ∨ row.state = .delivering := by
          by_contra hnone
          exact hstate (not_or.mp hnone)
        have hid : row.promiseId = promiseId := h.rows found
        exact .delivers found hagreed (written_upsert hid)
  | recordOutcome promiseId outcome note nowMs =>
    simp only [PaymentPromiseStore.step, recordOutcome]
    split
    · exact .refl keys
    next hterminal =>
      cases found : store.rows promiseId with
      | none => exact .refl keys
      | some row =>
        dsimp only
        split
        · exact .refl keys
        next hopen =>
          simp only [not_or, Bool.not_eq_true, Bool.not_eq_false'] at hopen
          have hid : row.promiseId = promiseId := h.rows found
          exact .concludes found (by simp [hopen.1]) (by simpa using hterminal) hopen.2 (written_upsert hid)
  | stageInbound promise =>
    simp only [PaymentPromiseStore.step, PaymentPromiseStore.stageInbound]
    split
    · exact .refl keys
    · refine .keeps rfl rfl rfl ?_
      intro id receipt hpending
      by_cases hid : id = promise.promiseId
      · subst hid
        obtain rfl : promise = receipt := by simpa using hpending
        exact .inr rfl
      · exact .inl (by simpa [hid] using hpending)
  | commitInbound promiseId =>
    simp only [PaymentPromiseStore.step, PaymentPromiseLifecycle.commitInbound]
    cases staged : store.pendingInbound promiseId with
    | none => exact .refl keys
    | some incoming =>
      dsimp only
      cases between : paymentPromiseCounterparty incoming keys.localAccount with
      | none => exact .refl keys
      | some counterparty =>
        dsimp only
        cases hmerge : mergeInboundPaymentPromise keys (store.rows promiseId) incoming keys.localAccount
            (keys.keyOf counterparty) with
        | error e => exact .refl keys
        | ok row =>
          dsimp only
          have hmerges := merges keys between hmerge
          have hid := hmerges.merged_promiseId keys (fun ours => h.rows) (h.pending staged)
          refine .commits staged between hmerges ?_
          by_cases hoffered : incoming.state = .offered
          · have hnot : incoming.state ≠ .accepted := by simp [hoffered]
            rw [if_pos hoffered, if_pos hoffered, if_neg hnot]
            exact (written_commit hid).offered hid
          · rw [if_neg hoffered, if_neg hoffered]
            split
            · exact (written_commit hid).accepted hid
            · exact written_commit hid
  | ignoreInbound promiseId =>
    refine .keeps rfl rfl rfl ?_
    intro id receipt hpending
    simp only [PaymentPromiseStore.step, PaymentPromiseStore.ignoreInbound] at hpending
    by_cases hid : id = promiseId
    · simp [hid] at hpending
    · exact .inl (by simpa [hid] using hpending)

/-! ## Keys and terms -/

section

variable (h : Written store store' row' offeredBy acceptedBy)
include h

/-- A store written to is the store it was, but for one row. -/
theorem Written.row_cases {id : String} (hrow : store'.rows id = some row) :
    id = row'.promiseId ∧ row = row' ∧ store'.offeredBy id = offeredBy ∧ store'.acceptedBy id = acceptedBy ∨
      id ≠ row'.promiseId ∧ store.rows id = some row ∧ store'.offeredBy id = store.offeredBy id ∧
        store'.acceptedBy id = store.acceptedBy id := by
  rw [h.offeredBy, h.acceptedBy]
  rw [h.rows] at hrow
  by_cases hid : id = row'.promiseId
  · subst hid
    obtain rfl : row' = row := by simpa using hrow
    exact .inl ⟨rfl, rfl, by simp, by simp⟩
  · exact .inr ⟨hid, by simpa [hid] using hrow, by simp [hid], by simp [hid]⟩

theorem Written.later (hkeyed : store.Keyed) (found : store.rows promiseId = some row) (hfollows : Follows row row')
    (hoffered : offeredBy = store.offeredBy promiseId)
    (haccepted : acceptedBy = store.acceptedBy promiseId ∨ row.state = .offered) : Later store store' := by
  have hid : row'.promiseId = promiseId := hfollows.promiseId.trans (hkeyed.rows found)
  constructor
  case rows =>
    intro id old hold
    rw [h.rows, hid]
    by_cases heq : id = promiseId
    · subst heq
      obtain rfl : row = old := Option.mem_unique found hold
      exact ⟨row', by simp, hfollows⟩
    · exact ⟨old, by simp [heq, hold], .refl⟩
  case offeredBy =>
    intro id old hold
    rw [h.offeredBy, hid, hoffered, Function.update_eq_self]
  case acceptedBy =>
    intro id hsome
    rw [h.acceptedBy, hid]
    rcases haccepted with rfl | hstate
    · rw [Function.update_eq_self]
    · have heq : id ≠ promiseId := by
        intro heq
        obtain ⟨old, hold, hnot⟩ := hkeyed.accepted (heq ▸ hsome)
        exact hnot (Option.mem_unique found hold ▸ hstate)
      rw [Function.update_of_ne heq]

theorem Written.later_new (hkeyed : store.Keyed) (hnone : store.rows row'.promiseId = none) : Later store store' := by
  have hother : ∀ {id row}, store.rows id = some row → id ≠ row'.promiseId := by
    intro id row hrow heq
    rw [heq, hnone] at hrow
    cases hrow
  constructor
  case rows =>
    intro id old hold
    exact ⟨old, by simp [h.rows, hother hold, hold], .refl⟩
  case offeredBy =>
    intro id old hold
    rw [h.offeredBy, Function.update_of_ne (hother hold)]
  case acceptedBy =>
    intro id hsome
    obtain ⟨old, hold, -⟩ := hkeyed.accepted hsome
    rw [h.acceptedBy, Function.update_of_ne (hother hold)]

theorem Written.keyed (hkeyed : store.Keyed)
    (haccepted : acceptedBy ≠ none → row'.state ≠ .offered) : store'.Keyed where
  rows hrow := by
    rw [h.rows] at hrow
    exact keyed_update hkeyed.rows rfl hrow
  pending hrow := hkeyed.pending (h.pending hrow)
  accepted := by
    intro id hsome
    rw [h.rows]
    rw [h.acceptedBy] at hsome
    by_cases hid : id = row'.promiseId
    · subst hid
      exact ⟨row', by simp, haccepted (by simpa using hsome)⟩
    · obtain ⟨row, hrow, hstate⟩ := hkeyed.accepted (by simpa [hid] using hsome)
      exact ⟨row, by simp [hid, hrow], hstate⟩

end

theorem sameTerms_bytes (h : SameTerms a b) : buildPromiseSignBytes a = buildPromiseSignBytes b := by
  unfold buildPromiseSignBytes promiseSignText
  rw [h.promiseId, h.payerAccountId, h.payeeAccountId, h.amountMinor, h.currency, h.serviceRef, h.termsHashB64,
    h.contentCommitmentB64, h.releaseRule, h.createdAtMs, h.expiresAtMs]

theorem follows_of_open (hopen : ¬ paymentPromiseStateIsTerminal row.state) (hterms : SameTerms row' row)
    (honward : row'.state ≠ .offered) : Follows row row' where
  promiseId := hterms.promiseId
  payerAccountId := hterms.payerAccountId
  payeeAccountId := hterms.payeeAccountId
  promiseBytes := sameTerms_bytes hterms
  terms := hterms
  outcome hterminal := absurd hterminal hopen
  onward _ := honward

theorem open_of_offered (h : row.state = .offered) : ¬ paymentPromiseStateIsTerminal row.state := by
  rw [h]
  decide

theorem terminal_onward {state : PaymentPromiseState} (h : paymentPromiseStateIsTerminal state) :
    state ≠ .offered ∧ ¬ (state = .accepted ∨ state = .delivering) := by
  cases state <;> simp_all [paymentPromiseStateIsTerminal]

theorem open_of_agreed (h : row.state = .accepted ∨ row.state = .delivering) :
    ¬ paymentPromiseStateIsTerminal row.state := fun hterminal => (terminal_onward hterminal).2 h

theorem delivers_follows (hagreed : row.state = .accepted ∨ row.state = .delivering) :
    Follows row { row with state := .delivering } :=
  follows_of_open (open_of_agreed hagreed) (by constructor <;> rfl) (by simp)

theorem concludes_follows {outcome : PaymentPromiseState} {note : String} {nowMs : Int}
    (hopen : ¬ paymentPromiseStateIsTerminal row.state) (hterminal : paymentPromiseStateIsTerminal outcome) :
    Follows row (signedOutcome keys row outcome note nowMs) :=
  follows_of_open hopen (by constructor <;> rfl) (terminal_onward hterminal).1

theorem acceptance_follows (hstate : row.state = .offered) : Follows row (withAcceptance row incoming counterparty) :=
  follows_of_open (open_of_offered hstate) (by constructor <;> rfl) (by simp)

theorem outcome_follows (hopen : ¬ paymentPromiseStateIsTerminal row.state)
    (hterminal : paymentPromiseStateIsTerminal incoming.state) : Follows row (withOutcome row incoming) :=
  follows_of_open hopen (by constructor <;> rfl) (terminal_onward hterminal).1

theorem accepted_follows (hstate : row.state = .offered) :
    Follows row { countersign keys row with state := .accepted } := by
  refine follows_of_open (open_of_offered hstate) ?_ (by simp)
  rw [countersign]
  split
  · constructor <;> rfl
  · split
    · constructor <;> rfl
    · constructor <;> rfl

/-- A commit over a committed promise is an acceptance of an offer or an outcome. -/
structure Onward (ours incoming row : PaymentPromise) : Prop where
  follows : Follows ours row
  received : incoming.state ≠ .offered
  acceptance : incoming.state = .accepted → ours.state = .offered
  state : row.state ≠ .offered

theorem Merges.onward {ours : PaymentPromise}
    (h : Merges keys (some ours) incoming counterparty row) : Onward ours incoming row := by
  generalize hcommitted : some ours = committed at h
  cases h with
  | offer hnone => simp [← hcommitted] at hnone
  | acceptance hsome hbytes hstate hoffered hsigned =>
    obtain rfl := Option.some.inj (hcommitted.trans hsome)
    exact ⟨acceptance_follows hoffered, by simp [hstate], fun _ => hoffered, by simp⟩
  | outcome hsome hbytes hterminal hopen hactor hsigned =>
    obtain rfl := Option.some.inj (hcommitted.trans hsome)
    obtain ⟨hnotOffered, hnotAgreed⟩ := terminal_onward hterminal
    exact ⟨outcome_follows hopen hterminal, hnotOffered, fun hstate => absurd (.inl hstate) hnotAgreed, hnotOffered⟩

theorem Merges.offered (h : Merges keys none incoming counterparty row) : incoming.state = .offered := by
  generalize hcommitted : none = committed at h
  cases h with
  | offer hnone hstate => exact hstate
  | acceptance hsome | outcome hsome => simp [← hcommitted] at hsome

/-- No step changes the terms of a committed promise, its outcome, or makes
it an offer again. -/
theorem step_later (h : store.Keyed) (hfresh : store.Fresh op) :
    (store.step keys op).Keyed ∧ Later store (store.step keys op) := by
  have hmoves := moves keys h op
  generalize store.step keys op = store' at hmoves ⊢
  cases hmoves with
  | keeps rows offeredBy acceptedBy pending =>
    constructor
    · constructor
      case rows =>
        intro promiseId row hrow
        exact h.rows (by rwa [rows] at hrow)
      case accepted =>
        rw [rows, acceptedBy]
        exact h.accepted
      case pending =>
        intro promiseId row hrow
        rcases pending hrow with hold | hid
        · exact h.pending hold
        · exact hid
    · constructor
      case rows =>
        intro promiseId row hrow
        exact ⟨row, by rwa [rows], .refl⟩
      case offeredBy => simp [offeredBy]
      case acceptedBy => simp [acceptedBy]
  | @offers params promiseId nowMs store' hother written =>
    have hnone : store.rows promiseId = none := hfresh
    refine ⟨written.keyed h ?_, written.later_new h ?_⟩
    · intro haccepted
      obtain ⟨row, hrow, -⟩ := h.accepted haccepted
      simp [hnone] at hrow
    · rw [signOffer_promiseId]
      exact hnone
  | accepts found offered party written =>
    exact ⟨written.keyed h (by simp), written.later h found (accepted_follows keys offered) rfl (.inr offered)⟩
  | delivers found agreed written =>
    exact ⟨written.keyed h (by simp), written.later h found (delivers_follows agreed) rfl (.inl rfl)⟩
  | concludes found opened terminal party written =>
    refine ⟨written.keyed h fun _ => (terminal_onward terminal).1, ?_⟩
    exact written.later h found (concludes_follows keys opened terminal) rfl (.inl rfl)
  | @commits promiseId counterparty incoming row' store' staged between merged written =>
    have hid := merged.merged_promiseId keys (fun ours => h.rows) (h.pending staged)
    cases found : store.rows promiseId with
    | none =>
      rw [found] at merged
      have hnotAccepted : incoming.state ≠ .accepted := by simp [merged.offered keys]
      rw [if_neg hnotAccepted] at written
      refine ⟨written.keyed h ?_, written.later_new h (by rw [hid, found])⟩
      intro haccepted
      obtain ⟨row, hrow, -⟩ := h.accepted haccepted
      simp [found] at hrow
    | some row =>
      rw [found] at merged
      have honward := merged.onward keys
      refine ⟨written.keyed h fun _ => honward.state, written.later h found honward.follows ?_ ?_⟩
      · rw [if_neg honward.received]
      · by_cases haccepted : incoming.state = .accepted
        · exact .inr (honward.acceptance haccepted)
        · exact .inl (by rw [if_neg haccepted])

/-! ## Agreed by both -/

/-- The account's slot holds its signature over the row's own terms. -/
def SignedBy (row : PaymentPromise) (account : String) : Prop :=
  verifyPromiseSignature keys (keys.keyOf account) row (slot row account)

/-- A committed promise between two parties, with who offered and who
accepted it. -/
structure RowOk (row : PaymentPromise) (offeredBy acceptedBy : Option String) : Prop where
  parties : row.payerAccountId ≠ row.payeeAccountId
  ours : isParty row keys.localAccount
  /-- The party that offered it signed it. -/
  offerer : ∃ account, offeredBy = some account ∧ isParty row account ∧ SignedBy keys row account
  /-- While an offer it is accepted by none, and signed by us only if ours. -/
  waiting : row.state = .offered →
    acceptedBy = none ∧ (slot row keys.localAccount ≠ "" → offeredBy = some keys.localAccount) ∧
      (slot row keys.localAccount = "" → offeredBy ≠ some keys.localAccount)
  /-- The other party accepted it and signed it. -/
  accepter : ∀ account, acceptedBy = some account →
    offeredBy ≠ some account ∧ isParty row account ∧ SignedBy keys row account
  agreed : row.state = .accepted ∨ row.state = .delivering → acceptedBy ≠ none
  outcome : paymentPromiseStateIsTerminal row.state → isParty row row.outcomeActorAccountId ∧
    verifyOutcomeSignature keys (keys.keyOf row.outcomeActorAccountId) row

theorem SignedBy.ne (h : SignedBy keys row account) : slot row account ≠ "" := by
  simp only [SignedBy, verifyPromiseSignature, Bool.and_eq_true, decide_eq_true_eq] at h
  exact h.1

theorem SignedBy.congr (h : SignedBy keys row account)
    (hbytes : buildPromiseSignBytes row' = buildPromiseSignBytes row)
    (hslot : slot row' account = slot row account) : SignedBy keys row' account := by
  rw [SignedBy, verifyPromiseSignature, hbytes, hslot]
  exact h

theorem isParty_iff : isParty row account ↔ row.payerAccountId = account ∨ row.payeeAccountId = account := by
  simp [isParty]

theorem SameTerms.isParty (h : SameTerms a b) : isParty a account = isParty b account := by
  rw [PaymentPromiseLifecycle.isParty, PaymentPromiseLifecycle.isParty, h.payerAccountId, h.payeeAccountId]

theorem RowOk.signatures (h : RowOk keys row offeredBy acceptedBy) (haccepted : acceptedBy ≠ none) :
    SignedBy keys row row.payerAccountId ∧ SignedBy keys row row.payeeAccountId := by
  obtain ⟨a, hoffered, hparty, hsigned⟩ := h.offerer
  obtain ⟨b, hb⟩ := Option.ne_none_iff_exists'.mp haccepted
  obtain ⟨hne, hparty', hsigned'⟩ := h.accepter b hb
  have hab : a ≠ b := fun heq => hne (heq ▸ hoffered)
  rcases (isParty_iff.mp hparty), (isParty_iff.mp hparty') with ⟨hpayer | hpayee, hpayer' | hpayee'⟩
  · exact absurd (hpayer.symm.trans hpayer') hab
  · exact ⟨hpayer ▸ hsigned, hpayee' ▸ hsigned'⟩
  · exact ⟨hpayer' ▸ hsigned', hpayee ▸ hsigned⟩
  · exact absurd (hpayee.symm.trans hpayee') hab

theorem Follows.isParty (h : Follows row row') : isParty row' account = isParty row account :=
  SameTerms.isParty h.terms

/-- A row past its offer, with the offerer's signature as it was. -/
theorem RowOk.next {accepted : Option String} (h : RowOk keys row offeredBy acceptedBy) (hfollows : Follows row row')
    (hofferer : ∀ a, offeredBy = some a → isParty row a → slot row' a = slot row a) (hstate : row'.state ≠ .offered)
    (haccepter : ∀ a, accepted = some a → offeredBy ≠ some a ∧ isParty row a ∧ SignedBy keys row' a)
    (hagreed : row'.state = .accepted ∨ row'.state = .delivering → accepted ≠ none)
    (houtcome : paymentPromiseStateIsTerminal row'.state → isParty row' row'.outcomeActorAccountId ∧
      verifyOutcomeSignature keys (keys.keyOf row'.outcomeActorAccountId) row') :
    RowOk keys row' offeredBy accepted where
  parties := by
    rw [hfollows.payerAccountId, hfollows.payeeAccountId]
    exact h.parties
  ours := by
    rw [hfollows.isParty]
    exact h.ours
  offerer := by
    obtain ⟨a, hoffered, hparty, hsigned⟩ := h.offerer
    refine ⟨a, hoffered, ?_, hsigned.congr keys hfollows.promiseBytes (hofferer a hoffered hparty)⟩
    rw [hfollows.isParty]
    exact hparty
  waiting hoffered := absurd hoffered hstate
  accepter := by
    intro b hb
    rw [hfollows.isParty]
    exact haccepter b hb
  agreed := hagreed
  outcome := houtcome

/-- A change of state or outcome leaves the signatures. -/
theorem RowOk.restate (h : RowOk keys row offeredBy acceptedBy) (hfollows : Follows row row')
    (hslots : ∀ account, slot row' account = slot row account) (hstate : row'.state ≠ .offered)
    (hagreed : row'.state = .accepted ∨ row'.state = .delivering → acceptedBy ≠ none)
    (houtcome : paymentPromiseStateIsTerminal row'.state → isParty row' row'.outcomeActorAccountId ∧
      verifyOutcomeSignature keys (keys.keyOf row'.outcomeActorAccountId) row') :
    RowOk keys row' offeredBy acceptedBy := by
  refine h.next keys hfollows (fun a _ _ => hslots a) hstate ?_ hagreed houtcome
  intro b hb
  obtain ⟨hne, hparty, hsigned⟩ := h.accepter b hb
  exact ⟨hne, hparty, hsigned.congr keys hfollows.promiseBytes (hslots b)⟩

/-- An offer the other party accepts: its slot is signed, the offerer's stays. -/
theorem RowOk.acceptedBy_other (h : RowOk keys row offeredBy none) (hfollows : Follows row row')
    (hother : offeredBy ≠ some account) (hparty : isParty row account) (hsigned : SignedBy keys row' account)
    (hslots : ∀ a, isParty row a → a ≠ account → slot row' a = slot row a) (hstate : row'.state = .accepted) :
    RowOk keys row' offeredBy (some account) := by
  refine h.next keys hfollows ?_ (by simp [hstate]) ?_ (by simp) (by simp [hstate, paymentPromiseStateIsTerminal])
  · intro a hoffered hparty'
    exact hslots a hparty' fun heq => hother (heq ▸ hoffered)
  · intro b hb
    obtain rfl := Option.some.inj hb
    exact ⟨hother, hparty, hsigned⟩

theorem rowOk_new (hne : row.payerAccountId ≠ row.payeeAccountId) (hstate : row.state = .offered)
    (hours : isParty row keys.localAccount) (hparty : isParty row account) (hsigned : SignedBy keys row account)
    (hlocal : slot row keys.localAccount ≠ "" ↔ account = keys.localAccount) : RowOk keys row (some account) none where
  parties := hne
  ours := hours
  offerer := ⟨account, rfl, hparty, hsigned⟩
  waiting _ := ⟨rfl, fun hsome => congrArg some (hlocal.mp hsome), fun hnone heq =>
    hlocal.mpr (Option.some.inj heq) hnone⟩
  accepter := by simp
  agreed := by simp [hstate]
  outcome := by simp [hstate, paymentPromiseStateIsTerminal]

theorem rowOk_offer {nowMs : Int} (hother : keys.localAccount ≠ params.counterpartyAccountId) :
    RowOk keys (signOffer keys params (draft keys params promiseId nowMs)) (some keys.localAccount) none := by
  have hsign := keys.sign_ne (buildPromiseSignBytes (draft keys params promiseId nowMs))
  have hverifies := keys.sign_verifies (buildPromiseSignBytes (draft keys params promiseId nowMs))
  have hslot : slot (signOffer keys params (draft keys params promiseId nowMs)) keys.localAccount =
      keys.sign (buildPromiseSignBytes (draft keys params promiseId nowMs)) := by
    cases hpayer : params.localIsPayer with
    | true => simp [slot, signOffer, draft, hpayer]
    | false => simp [slot, signOffer, draft, hpayer, hother.symm]
  have hbytes : buildPromiseSignBytes (signOffer keys params (draft keys params promiseId nowMs)) =
      buildPromiseSignBytes (draft keys params promiseId nowMs) := by
    rw [signOffer]
    split
    · rfl
    · rfl
  have hours : isParty (signOffer keys params (draft keys params promiseId nowMs)) keys.localAccount := by
    cases hpayer : params.localIsPayer with
    | true | false => simp [isParty, signOffer, draft, hpayer]
  have hstate : (signOffer keys params (draft keys params promiseId nowMs)).state = .offered := by
    rw [signOffer]
    split
    · rfl
    · rfl
  refine rowOk_new keys ?_ hstate hours hours ?_ ?_
  · cases hpayer : params.localIsPayer with
    | true => simpa [signOffer, draft, hpayer] using hother
    | false => simpa [signOffer, draft, hpayer] using hother.symm
  · rw [SignedBy, verifyPromiseSignature, hslot, hbytes]
    simp [hsign, hverifies]
  · simp [hslot, hsign]

theorem rowOk_inbound (hcounterparty : paymentPromiseCounterparty incoming keys.localAccount = some counterparty)
    (hsigned : verifyPromiseSignature keys (keys.keyOf counterparty) incoming (slot incoming counterparty))
    (hbytes : buildPromiseSignBytes row = buildPromiseSignBytes incoming) (hterms : SameTerms row incoming)
    (hstate : row.state = .offered) (htheirs : slot row counterparty = slot incoming counterparty)
    (hours : slot row keys.localAccount = "") : RowOk keys row (some counterparty) none := by
  obtain ⟨hne, hparties⟩ := counterparty_cases keys hcounterparty
  have hother : counterparty ≠ keys.localAccount := by
    rcases hparties with ⟨hlocal, hcp⟩ | ⟨hlocal, hcp⟩
    · exact hcp ▸ hlocal ▸ hne.symm
    · exact hcp ▸ hlocal ▸ hne
  refine rowOk_new keys ?_ hstate ?_ ?_ (SignedBy.congr keys hsigned hbytes htheirs) (by simp [hours, hother])
  · rw [hterms.payerAccountId, hterms.payeeAccountId]
    exact hne
  · rw [SameTerms.isParty hterms, isParty_iff]
    exact hparties.imp And.left And.left
  · rw [SameTerms.isParty hterms, isParty_iff]
    exact (hparties.imp And.right And.right).symm

theorem RowOk.accepted (h : RowOk keys row offeredBy acceptedBy) (hstate : row.state = .offered)
    (htheirs : slot row keys.localAccount = "") :
    RowOk keys { countersign keys row with state := .accepted } offeredBy (some keys.localAccount) := by
  obtain ⟨rfl, -, hother⟩ := h.waiting hstate
  have hfollows := accepted_follows keys hstate
  have hsign := keys.sign_ne (buildPromiseSignBytes row)
  have hslot : slot { countersign keys row with state := .accepted } keys.localAccount =
      keys.sign (buildPromiseSignBytes row) := by
    by_cases hpayer : row.payerAccountId = keys.localAccount
    · simp [slot, countersign, hpayer] at htheirs ⊢
      simp [htheirs]
    · simp [slot, countersign, hpayer] at htheirs ⊢
      simp [htheirs, hpayer]
  refine h.acceptedBy_other keys hfollows (hother htheirs) h.ours ?_ ?_ rfl
  · have hverifies := keys.sign_verifies (buildPromiseSignBytes row)
    rw [SignedBy, verifyPromiseSignature, hslot, hfollows.promiseBytes]
    simp [hsign, hverifies]
  · intro account hparty hne
    have hours := isParty_iff.mp h.ours
    have htheir := isParty_iff.mp hparty
    by_cases hpayer : row.payerAccountId = keys.localAccount
    · have hnot : keys.localAccount ≠ account := hne.symm
      simp [slot, countersign, hpayer, hnot] at htheirs ⊢
      simp [htheirs, hnot]
    · have hpayee : row.payerAccountId = account := by
        rcases htheir with hthem | hthem
        · exact hthem
        · exact absurd ((hours.resolve_left hpayer).symm.trans hthem) hne.symm
      simp [slot, countersign, hpayer] at htheirs ⊢
      simp [htheirs, hpayee]

theorem RowOk.acceptance (h : RowOk keys row offeredBy acceptedBy)
    (hcounterparty : paymentPromiseCounterparty incoming keys.localAccount = some counterparty)
    (hterms : SameTerms incoming row) (hbytes : buildPromiseSignBytes row = buildPromiseSignBytes incoming)
    (hstate : row.state = .offered) (hours : slot row keys.localAccount ≠ "")
    (hsigned : verifyPromiseSignature keys (keys.keyOf counterparty) incoming (slot incoming counterparty)) :
    RowOk keys (withAcceptance row incoming counterparty) offeredBy (some counterparty) := by
  obtain ⟨rfl, hoffered, -⟩ := h.waiting hstate
  obtain ⟨hne, hparties⟩ := counterparty_cases keys hcounterparty
  rw [hterms.payerAccountId, hterms.payeeAccountId] at hparties hne
  have hfollows := @acceptance_follows _ incoming counterparty hstate
  have hother : keys.localAccount ≠ counterparty := by
    rcases hparties with ⟨hlocal, hcp⟩ | ⟨hlocal, hcp⟩
    · exact hcp ▸ hlocal ▸ hne
    · exact hcp ▸ hlocal ▸ hne.symm
  refine h.acceptedBy_other keys hfollows ?_ (isParty_iff.mpr (hparties.imp And.right And.right).symm) ?_ ?_ rfl
  · rw [hoffered hours]
    exact fun heq => hother (Option.some.inj heq)
  · refine SignedBy.congr keys hsigned (hfollows.promiseBytes.trans hbytes) ?_
    by_cases hpayer : row.payerAccountId = counterparty
    · simp [slot, hterms.payerAccountId, hpayer]
    · simp [slot, hterms.payerAccountId, hpayer]
  · intro account hparty haccount
    rcases hparties with ⟨hlocal, hcp⟩ | ⟨hlocal, hcp⟩
    · have hpayer : row.payerAccountId = account :=
        (isParty_iff.mp hparty).resolve_right fun hpayee => haccount (hpayee.symm.trans hcp)
      have hnot : account ≠ counterparty := haccount
      simp [slot, hterms.payerAccountId, hpayer, hnot]
    · have hnot : counterparty ≠ account := haccount.symm
      simp [slot, hterms.payerAccountId, hcp, hnot]

/-- Every committed promise is agreed as far as its state says. -/
structure Sound (store : PaymentPromiseStore) : Prop where
  keyed : store.Keyed
  rows : ∀ {promiseId row}, store.rows promiseId = some row →
    RowOk keys row (store.offeredBy promiseId) (store.acceptedBy promiseId)
  unknown : ∀ {promiseId}, store.rows promiseId = none → store.acceptedBy promiseId = none

theorem Written.sound (h : Written store store' row' offeredBy acceptedBy) (hkeyed : store'.Keyed)
    (hsound : store.Sound keys) (hrow : RowOk keys row' offeredBy acceptedBy) : store'.Sound keys where
  keyed := hkeyed
  rows hold := by
    rcases h.row_cases hold with ⟨-, rfl, hoffered, haccepted⟩ | ⟨-, hold, hoffered, haccepted⟩
    · rw [hoffered, haccepted]
      exact hrow
    · rw [hoffered, haccepted]
      exact hsound.rows hold
  unknown := by
    intro id hnone
    rw [h.rows] at hnone
    by_cases hid : id = row'.promiseId
    · simp [hid] at hnone
    · rw [h.acceptedBy, Function.update_of_ne hid]
      exact hsound.unknown (by simpa [hid] using hnone)

theorem verifyOutcomeSignature_sign {outcome : PaymentPromiseState} {note : String} {nowMs : Int}
    (hterminal : paymentPromiseStateIsTerminal outcome) :
    verifyOutcomeSignature keys (keys.keyOf keys.localAccount) (signedOutcome keys row outcome note nowMs) := by
  have hsign := keys.sign_ne (buildOutcomeSignBytes (concluded keys row outcome note nowMs))
  have hverifies := keys.sign_verifies (buildOutcomeSignBytes (concluded keys row outcome note nowMs))
  simp only [verifyOutcomeSignature, Bool.and_eq_true, decide_eq_true_eq]
  exact ⟨⟨hsign, hterminal⟩, hverifies⟩

theorem verifyOutcomeSignature_merged {key : Key} (hterms : SameTerms incoming row)
    (h : verifyOutcomeSignature keys key incoming) : verifyOutcomeSignature keys key (withOutcome row incoming) := by
  have hbytes : buildOutcomeSignBytes (withOutcome row incoming) = buildOutcomeSignBytes incoming := by
    unfold buildOutcomeSignBytes outcomeSignText
    rw [hterms.promiseId, hterms.contentCommitmentB64]
  rw [verifyOutcomeSignature, hbytes]
  exact h

theorem Sound.step (h : store.Sound keys) (hfresh : store.Fresh op) (hagrees : store.Agrees keys op) :
    (store.step keys op).Sound keys := by
  have hmoves := moves keys h.keyed op
  have hkeyed := (step_later keys h.keyed hfresh).1
  generalize store.step keys op = store' at hmoves hkeyed ⊢
  cases hmoves with
  | keeps rows offeredBy acceptedBy pending =>
    refine ⟨hkeyed, ?_, ?_⟩
    · intro promiseId row hrow
      rw [offeredBy, acceptedBy]
      rw [rows] at hrow
      exact h.rows hrow
    · intro promiseId hnone
      rw [acceptedBy]
      rw [rows] at hnone
      exact h.unknown hnone
  | offers hother written =>
    refine written.sound keys hkeyed h ?_
    rw [h.unknown hfresh]
    exact rowOk_offer keys hother
  | accepts found offered party written =>
    exact written.sound keys hkeyed h ((h.rows found).accepted keys offered (hagrees _ found))
  | delivers found agreed written =>
    have hrow := h.rows found
    refine written.sound keys hkeyed h (hrow.restate keys (delivers_follows agreed) (fun account => rfl) (by simp) ?_ ?_)
    · exact fun _ => hrow.agreed agreed
    · simp [paymentPromiseStateIsTerminal]
  | concludes found opened terminal party written =>
    obtain ⟨honward, hnotAgreed⟩ := terminal_onward terminal
    refine written.sound keys hkeyed h
      ((h.rows found).restate keys (concludes_follows keys opened terminal) (fun account => rfl) honward ?_ ?_)
    · exact fun hagreed => absurd hagreed hnotAgreed
    · exact fun _ => ⟨party, verifyOutcomeSignature_sign keys terminal⟩
  | @commits promiseId counterparty incoming row' store' staged between merged written =>
    refine written.sound keys hkeyed h ?_
    generalize hcommitted : store.rows promiseId = committed at merged
    cases merged with
    | offer hnone hstate hsigned hbytes hterms hrowState htheirs hours =>
      subst hnone
      have hnotAccepted : incoming.state ≠ .accepted := by simp [hstate]
      rw [if_pos hstate, if_neg hnotAccepted, h.unknown hcommitted]
      exact rowOk_inbound keys between hsigned hbytes hterms hrowState htheirs hours
    | @acceptance ours hsome hbytes hstate hoffered hsigned =>
      subst hsome
      obtain ⟨hterms, hslot⟩ := hagrees ours incoming hcommitted staged
      have hnotOffered : incoming.state ≠ .offered := by simp [hstate]
      rw [if_neg hnotOffered, if_pos hstate]
      exact (h.rows hcommitted).acceptance keys between hterms hbytes hoffered (hslot hstate) hsigned
    | @outcome ours hsome hbytes hterminal hopen hactor hsigned =>
      subst hsome
      obtain ⟨hterms, -⟩ := hagrees ours incoming hcommitted staged
      obtain ⟨hnotOffered, hnotAgreed⟩ := terminal_onward hterminal
      rw [if_neg hnotOffered, if_neg fun hstate => hnotAgreed (.inl hstate)]
      refine (h.rows hcommitted).restate keys (outcome_follows hopen hterminal) (fun account => rfl) hnotOffered ?_ ?_
      · exact fun hagreed => absurd hagreed hnotAgreed
      · intro _
        refine ⟨?_, ?_⟩
        · obtain ⟨-, hparties⟩ := counterparty_cases keys between
          rw [hterms.payerAccountId, hterms.payeeAccountId] at hparties
          refine isParty_iff.mpr ?_
          rw [← hactor] at hparties
          exact (hparties.imp And.right And.right).symm
        · have hverified := verifyOutcomeSignature_merged keys hterms hsigned
          rw [← hactor] at hverified
          exact hverified

/-! ## Runs -/

/-- Signed by payer and payee over its own terms, and accepted by the party
that did not offer it. -/
structure AgreedByBoth (row : PaymentPromise) (offeredBy acceptedBy : Option String) : Prop where
  payer : SignedBy keys row row.payerAccountId
  payee : SignedBy keys row row.payeeAccountId
  accepter : ∃ offerer account, offeredBy = some offerer ∧ acceptedBy = some account ∧ offerer ≠ account ∧
    isParty row offerer ∧ isParty row account

theorem RowOk.agreedByBoth (h : RowOk keys row offeredBy acceptedBy) (haccepted : acceptedBy ≠ none) :
    AgreedByBoth keys row offeredBy acceptedBy := by
  obtain ⟨hpayer, hpayee⟩ := h.signatures keys haccepted
  obtain ⟨a, hoffered, hparty, -⟩ := h.offerer
  obtain ⟨b, hb⟩ := Option.ne_none_iff_exists'.mp haccepted
  obtain ⟨hne, hparty', -⟩ := h.accepter b hb
  have hab : a ≠ b := fun heq => hne (heq ▸ hoffered)
  exact ⟨hpayer, hpayee, a, b, hoffered, hb, hab, hparty, hparty'⟩

theorem keyed_empty : Keyed {} where
  rows h := by cases h
  accepted h := absurd rfl h
  pending h := by cases h

theorem sound_empty : Sound keys {} where
  keyed := keyed_empty
  rows h := by cases h
  unknown _ := rfl

/-- Account `me`; a signature names its account and the bytes. -/
def sampleKeys : PromiseKeys String where
  localAccount := "me"
  keyOf account := account
  sign bytes := "me" ++ ":" ++ toString bytes
  verify key bytes signature := signature = key ++ ":" ++ toString bytes
  localAccount_ne := by decide
  sign_ne bytes := by simp
  sign_verifies bytes := by simp

def theirTerms : PaymentPromise where
  promiseId := "p"
  payerAccountId := "them"
  payeeAccountId := "me"

def theirSignature : String := "them" ++ ":" ++ toString (buildPromiseSignBytes theirTerms)

def theirOffer : PaymentPromise := { theirTerms with payerSignatureB64 := theirSignature }

def theirAcceptance : PaymentPromise := { theirOffer with state := .accepted }

def ourParams : OfferParams where
  counterpartyAccountId := "them"

theorem accept_signed (found : store.rows promiseId = some row) (hstate : row.state = .offered)
    (hparty : isParty row keys.localAccount) (hsigned : slot row keys.localAccount ≠ "") :
    accept keys store promiseId =
      (store.upsert { row with state := .accepted }).accepted promiseId keys.localAccount := by
  have hnot : ¬ (row.state ≠ .offered ∨ !isParty row keys.localAccount) := by simp [hstate, hparty]
  rw [accept, found]
  dsimp only
  rw [if_neg hnot, countersign, if_pos hsigned]

/-- An acceptance received is committed of any offer with its terms. -/
theorem commit_acceptance (found : store.rows promiseId = some row)
    (staged : store.pendingInbound promiseId = some incoming) (hstate : row.state = .offered)
    (hreceived : incoming.state = .accepted) (hterms : SameTerms row incoming)
    (hpayer : incoming.payerAccountId = counterparty) (hpayee : incoming.payeeAccountId = keys.localAccount)
    (hother : counterparty ≠ keys.localAccount)
    (hsigned : verifyPromiseSignature keys (keys.keyOf counterparty) incoming incoming.payerSignatureB64) :
    PaymentPromiseLifecycle.commitInbound keys store promiseId =
      (store.commitInbound { row with payerSignatureB64 := incoming.payerSignatureB64, state := .accepted }).accepted
        promiseId counterparty := by
  have hbetween : paymentPromiseCounterparty incoming keys.localAccount = some counterparty := by
    simp [paymentPromiseCounterparty, keys.localAccount_ne, hpayer, hpayee, hother]
  have hmerge : mergeInboundPaymentPromise keys (some row) incoming keys.localAccount (keys.keyOf counterparty) =
      .ok { row with payerSignatureB64 := incoming.payerSignatureB64, state := .accepted } := by
    simp [mergeInboundPaymentPromise, hbetween, hreceived, sameTerms_bytes hterms, hstate, hpayer, hsigned]
  rw [PaymentPromiseLifecycle.commitInbound, staged]
  dsimp only
  rw [hbetween]
  dsimp only
  rw [found, hmerge]
  simp [hreceived]

theorem commit_offer (hnone : store.rows promiseId = none)
    (staged : store.pendingInbound promiseId = some incoming) (hreceived : incoming.state = .offered)
    (hpayer : incoming.payerAccountId = counterparty) (hpayee : incoming.payeeAccountId = keys.localAccount)
    (hother : counterparty ≠ keys.localAccount)
    (hsigned : verifyPromiseSignature keys (keys.keyOf counterparty) incoming incoming.payerSignatureB64) :
    PaymentPromiseLifecycle.commitInbound keys store promiseId =
      (store.commitInbound { incoming with
        payeeSignatureB64 := "", outcomeActorAccountId := "", outcomeSignatureB64 := "", outcomeAtMs := 0
        outcomeNote := "", localAvoid := false }).offered promiseId counterparty := by
  have hbetween : paymentPromiseCounterparty incoming keys.localAccount = some counterparty := by
    simp [paymentPromiseCounterparty, keys.localAccount_ne, hpayer, hpayee, hother]
  rw [PaymentPromiseLifecycle.commitInbound, staged]
  dsimp only
  rw [hbetween]
  dsimp only
  rw [hnone]
  simp [mergeInboundPaymentPromise, hbetween, hreceived, hpayer, hsigned]

theorem verifyPromiseSignature_congr {key : Key} {signature : String} (h : SameTerms a b) :
    verifyPromiseSignature keys key a signature = verifyPromiseSignature keys key b signature := by
  rw [verifyPromiseSignature, sameTerms_bytes h, verifyPromiseSignature]

theorem theirTerms_signed : verifyPromiseSignature sampleKeys "them" theirTerms theirSignature := by
  simp [verifyPromiseSignature, sampleKeys, theirSignature]

theorem theirOffer_signed : verifyPromiseSignature sampleKeys "them" theirOffer theirOffer.payerSignatureB64 :=
  (verifyPromiseSignature_congr sampleKeys (by constructor <;> rfl)).trans theirTerms_signed

theorem theirAcceptance_signed :
    verifyPromiseSignature sampleKeys "them" theirAcceptance theirAcceptance.payerSignatureB64 :=
  (verifyPromiseSignature_congr sampleKeys (by constructor <;> rfl)).trans theirTerms_signed

def offerStaged : PaymentPromiseStore := step sampleKeys {} (.stageInbound theirOffer)

def offerCommitted : PaymentPromiseStore := (offerStaged.commitInbound theirOffer).offered "p" "them"

theorem offerStaged_eq : offerStaged = { pendingInbound := Function.update (fun _ => none) "p" (some theirOffer) } := by
  rw [offerStaged, step, stageInbound, if_neg (by decide)]
  rfl

theorem offerCommitted_eq : step sampleKeys offerStaged (.commitInbound "p") = offerCommitted := by
  have hstaged : offerStaged.pendingInbound "p" = some theirOffer := by simp [offerStaged_eq]
  have hnone : offerStaged.rows "p" = none := by simp [offerStaged_eq]
  have hpayer : theirOffer.payerAccountId = "them" := rfl
  have hpayee : theirOffer.payeeAccountId = sampleKeys.localAccount := rfl
  have hother : "them" ≠ sampleKeys.localAccount := by decide
  have hcommit := commit_offer sampleKeys hnone hstaged rfl hpayer hpayee hother theirOffer_signed
  rw [step, hcommit]
  rfl

theorem offerCommitted_rows : offerCommitted.rows "p" = some theirOffer := by
  have hid : theirOffer.promiseId = "p" := rfl
  simp [offerCommitted, PaymentPromiseStore.offered, PaymentPromiseStore.commitInbound, hid]

end PaymentPromiseStore

end Pbr
