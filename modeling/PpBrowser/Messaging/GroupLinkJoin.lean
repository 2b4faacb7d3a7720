import PpBrowser.Messaging.GroupRosterRules

/-!
# GroupLinkJoin — answering a request to join by link

`JudgeJoin` of `GroupLinkJoin.cpp`. A pointer or an optional the code reads
without asking whether it is there gives no judgement here; none is read so.
-/

namespace Pbr

inductive GroupJoinRefusal where
  | expired | revoked | usedUp | removed | groupFull | rate
  deriving DecidableEq, Repr

/-- What the answerer does with a request. -/
inductive JoinJudgement.Kind where
  | accept | refuse | drop
  deriving DecidableEq, Repr

structure JoinJudgement where
  kind : JoinJudgement.Kind := .drop
  reason : GroupJoinRefusal := .revoked
  deriving DecidableEq, Repr

/-- One request's facts, as the answering device holds them; the limiter's
state is of any type. -/
structure JoinCase (ρ : Type) where
  view : Option GroupRosterView := none
  madeHereExpiresAt : Option Int := none
  madeHereSecret : ByteVector := []
  linkId : String := ""
  secret : ByteVector := []
  joiner : String := ""
  localIdentity : String := ""
  nowMs : Int := 0
  withinRate : Option (ρ → Bool × ρ) := none

def kSecretHashTag : String := "pp-browser:group-link-secret-v1"

namespace GroupCrypto

variable (K : GroupCrypto)

def secretHash (linkId : String) (secret : ByteVector) : String :=
  K.bytesToHex (K.blake2b256
    (putString kSecretHashTag ++ putString linkId ++ (bigEndian 4 secret.length ++ secret)))

def secretMatches (link : GroupInviteLink) (secret : ByteVector) : Bool :=
  K.secretHash link.linkId secret = link.secretHash

end GroupCrypto

def secretsEqual (a b : ByteVector) : Bool := a ≠ [] ∧ a = b

namespace GroupRosterView

variable (view : GroupRosterView)

def liveLink (linkId : String) : Option GroupInviteLink := view.links.find? (·.linkId = linkId)

def endedLink (linkId : String) : Option GroupEndedLink := view.endedLinks.find? (·.link.linkId = linkId)

/-- In the group and still allowed to bring people in. -/
def mayAdmit (localIdentity : String) : Bool :=
  match view.find localIdentity with
  | some self => groupAllows .invite self.role view.preset .member
  | none => false

end GroupRosterView

namespace JoinCase

variable {ρ : Type} (K : GroupCrypto) (join : JoinCase ρ)

def live : Option GroupInviteLink := join.view.bind (·.liveLink join.linkId)

def ended : Option GroupEndedLink := join.view.bind (·.endedLink join.linkId)

def known : Option GroupInviteLink := join.live <|> join.ended.map (·.link)

def secretChecks : Bool :=
  match join.known with
  | some known => K.secretMatches known join.secret
  | none => join.madeHereExpiresAt.isSome ∧ secretsEqual join.madeHereSecret join.secret

/-- Why the link no longer lets anyone in, if it does not. -/
def linkEnded : Option (Option GroupJoinRefusal) :=
  match join.known, join.ended with
  | none, _ => join.madeHereExpiresAt.map fun expires =>
      some (if expires ≤ join.nowMs then .expired else .revoked)
  | some _, some ended => some (some (if ended.end_ = .expired then .expired else .revoked))
  | some _, none => some none

def refuse (reason : GroupJoinRefusal) : JoinJudgement := { kind := .refuse, reason }

/-- The checks on a link that lives. -/
def judgeLive (view : GroupRosterView) (live : GroupInviteLink) : JoinJudgement :=
  if !view.mayAdmit join.localIdentity then refuse .revoked
  else if 0 < live.maxUses ∧ live.maxUses ≤ live.uses then refuse .usedUp
  else if view.removed.any (·.identity = join.joiner) then refuse .removed
  else if !view.lists join.joiner ∧ kMaxGroupMembers ≤ view.members.length then refuse .groupFull
  else { kind := .accept }

def askRate (rate : ρ) : Bool × ρ :=
  match join.withinRate with
  | some ask => ask rate
  | none => (true, rate)

/-- The checks after the secret and the rate. -/
def judgeLink : Option JoinJudgement :=
  match join.linkEnded with
  | none => none
  | some (some reason) => some (refuse reason)
  | some none =>
    match join.view, join.live with
    | some view, some live => some (join.judgeLive view live)
    | _, _ => none

/-- The rate is asked only once the secret matched. -/
def judgeJoin (rate : ρ) : Option JoinJudgement × ρ :=
  if !join.secretChecks K then (some {}, rate)
  else if !(join.askRate rate).1 then (some (refuse .rate), (join.askRate rate).2)
  else (join.judgeLink, (join.askRate rate).2)

/-! ## What a request learns and what lets it in -/

/-- The secret is neither the one the roster's link hashes nor the one kept. -/
def Unmatched : Prop :=
  (∀ link, join.known = some link → K.secretMatches link join.secret = false) ∧
  secretsEqual join.madeHereSecret join.secret = false

structure LetsIn (rate : ρ) (view : GroupRosterView) (link : GroupInviteLink) : Prop where
  held : join.view = some view
  live : view.liveLink join.linkId = some link
  notEnded : view.endedLink join.linkId = none
  secret : K.secretMatches link join.secret = true
  within : ∀ ask, join.withinRate = some ask → (ask rate).1 = true
  mayAdmit : view.mayAdmit join.localIdentity = true
  uses : link.maxUses = 0 ∨ link.uses < link.maxUses
  notRemoved : ∀ r ∈ view.removed, r.identity ≠ join.joiner
  room : view.lists join.joiner = true ∨ view.members.length < kMaxGroupMembers

variable {K join} {rate : ρ} {view : GroupRosterView} {link : GroupInviteLink}

theorem judgeLive_accept_iff : join.judgeLive view link = { kind := .accept } ↔
    view.mayAdmit join.localIdentity = true ∧ (link.maxUses = 0 ∨ link.uses < link.maxUses) ∧
    (∀ r ∈ view.removed, r.identity ≠ join.joiner) ∧
    (view.lists join.joiner = true ∨ view.members.length < kMaxGroupMembers) := by
  have hrefuse : ∀ reason, refuse reason ≠ { kind := .accept } := by
    intro reason h
    cases h
  rw [judgeLive]
  split_ifs with hmay huses hremoved hfull
  · simp_all
  · simp only [hrefuse, false_iff]
    omega
  · simp_all
  · have hnot : ¬ (view.lists join.joiner = true ∨ view.members.length < kMaxGroupMembers) := by
      rintro (hlists | hroom)
      · simp [hlists] at hfull
      · exact absurd hroom (Nat.not_lt.mpr hfull.2)
    simp [hrefuse, hnot]
  · refine iff_of_true rfl ⟨by simpa using hmay, by omega, by simpa using hremoved, ?_⟩
    cases hlists : view.lists join.joiner with
    | true => exact .inl rfl
    | false => exact .inr (by simpa [hlists] using hfull)

theorem judgeJoin_unmatched (h : join.Unmatched K) : join.judgeJoin K rate = (some {}, rate) := by
  have hsecret : join.secretChecks K = false := by
    rw [secretChecks]
    cases hknown : join.known with
    | none => simp [h.2]
    | some link => exact h.1 link hknown
  simp [judgeJoin, hsecret]

theorem linkEnded_none (h : join.linkEnded = some none) :
    ∃ view link, join.view = some view ∧ join.live = some link ∧ join.ended = none := by
  rw [linkEnded] at h
  cases hended : join.ended with
  | some ended => cases hknown : join.known <;> simp [hknown, hended] at h
  | none =>
    cases hlive : join.live with
    | none => simp [known, hlive, hended] at h
    | some link =>
      cases hview : join.view with
      | none => simp [live, hview] at hlive
      | some view => exact ⟨view, link, rfl, rfl, rfl⟩

theorem judgeJoin_isSome : (join.judgeJoin K rate).1.isSome := by
  rw [judgeJoin]
  split_ifs with hsecret hrate
  · rfl
  · rfl
  · show join.judgeLink.isSome
    cases hends : join.linkEnded with
    | none =>
      have hknown : join.known = none ∧ join.madeHereExpiresAt = none := by
        unfold linkEnded at hends
        cases hknown : join.known <;> cases hended : join.ended <;> simp_all
      simp [secretChecks, hknown] at hsecret
    | some ends =>
      cases ends with
      | some reason => simp [judgeLink, hends]
      | none =>
        obtain ⟨view, link, hview, hlive, -⟩ := linkEnded_none hends
        simp [judgeLink, hends, hview, hlive]

theorem judgeJoin_accept_iff : (join.judgeJoin K rate).1 = some { kind := .accept } ↔
    ∃ view link, join.LetsIn K rate view link := by
  have hrefuse : ∀ reason, refuse reason ≠ { kind := .accept } := by
    intro reason h
    cases h
  constructor
  · intro h
    rw [judgeJoin] at h
    split_ifs at h with hsecret hrate
    · cases h
    · exact absurd (Option.some.inj h) (hrefuse _)
    have hends : join.linkEnded = some none := by
      cases hends : join.linkEnded with
      | none => simp [judgeLink, hends] at h
      | some ends =>
        cases ends with
        | none => rfl
        | some reason => simp [judgeLink, hends, hrefuse] at h
    obtain ⟨view, link, hview, hlive, hended⟩ := linkEnded_none hends
    have haccept : join.judgeLive view link = { kind := .accept } := by
      simpa [judgeLink, hends, hview, hlive] using h
    obtain ⟨hmay, huses, hremoved, hroom⟩ := judgeLive_accept_iff.mp haccept
    refine ⟨view, link, hview, ?_, ?_, ?_, ?_, hmay, huses, hremoved, hroom⟩
    · simpa [live, hview] using hlive
    · simpa [ended, hview] using hended
    · simpa [secretChecks, known, hlive] using hsecret
    · intro ask hask
      simpa [askRate, hask] using hrate
  · rintro ⟨view, link, h⟩
    have hlive : join.live = some link := by simp [live, h.held, h.live]
    have hended : join.ended = none := by simp [ended, h.held, h.notEnded]
    have hsecret : join.secretChecks K = true := by simp [secretChecks, known, hlive, h.secret]
    have hends : join.linkEnded = some none := by simp [linkEnded, known, hlive, hended]
    have haccept := judgeLive_accept_iff.mpr ⟨h.mayAdmit, h.uses, h.notRemoved, h.room⟩
    have hrate : (join.askRate rate).1 = true := by
      rw [askRate]
      cases hask : join.withinRate with
      | none => rfl
      | some ask => exact h.within ask hask
    simp [judgeJoin, hsecret, hrate, judgeLink, hends, h.held, hlive, haccept]

/-- Two devices asked with a secret that neither knows answer alike, and
spend nothing, whatever their groups; no answer reads a view or an expiry
that is not there; and a joiner is let in exactly by a live link's secret
with room, use and rate left, by a member that may add. -/
theorem join_requests_judged (K : GroupCrypto) (join : JoinCase ρ) (rate : ρ) :
    (∀ (join' : JoinCase ρ) (rate' : ρ), join'.linkId = join.linkId → join'.secret = join.secret →
      join.Unmatched K → join'.Unmatched K →
      join.judgeJoin K rate = (some {}, rate) ∧ join'.judgeJoin K rate' = (some {}, rate')) ∧
    (join.judgeJoin K rate).1.isSome ∧
    ((join.judgeJoin K rate).1 = some { kind := .accept } ↔ ∃ view link, join.LetsIn K rate view link) :=
  ⟨fun _ _ _ _ h h' => ⟨judgeJoin_unmatched h, judgeJoin_unmatched h'⟩, judgeJoin_isSome, judgeJoin_accept_iff⟩

/-- A live link, a member that may add, room and rate, and another secret. -/
def wrongSecret : JoinCase Unit where
  view := some {
    members := [{ identity := "account:a", role := .owner }], links := [{ linkId := "l", secretHash := "h" }] }
  linkId := "l"
  joiner := "account:b"
  localIdentity := "account:a"

/-- All of what the view and the rate ask does not let in without the secret. -/
theorem wrong_secret_dropped :
    ¬ ∀ (K : GroupCrypto) (join : JoinCase Unit) (view : GroupRosterView) (link : GroupInviteLink),
      join.view = some view → view.liveLink join.linkId = some link → view.endedLink join.linkId = none →
      join.withinRate = none → view.mayAdmit join.localIdentity = true →
      (link.maxUses = 0 ∨ link.uses < link.maxUses) → (∀ r ∈ view.removed, r.identity ≠ join.joiner) →
      view.members.length < kMaxGroupMembers → (join.judgeJoin K ()).1 = some { kind := .accept } := by
  intro h
  have haccept := h { sampleCrypto with bytesToHex := fun _ => "" } wrongSecret _ _ rfl rfl rfl rfl rfl (.inl rfl)
    (by simp) (by decide)
  rw [judgeJoin_unmatched ⟨by rintro link ⟨⟩; rfl, rfl⟩] at haccept
  cases haccept

end JoinCase

end Pbr
