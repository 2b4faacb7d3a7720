import PpBrowser.Lib.Runs
import PpBrowser.Media.DeviceSteps

/-!
# MediaDeviceArbiterRun — one endpoint of an exclusive kind

A release frees its place before it queues the close of what it had open. An
acquire that comes in between can queue its open ahead of that close, and the
lane then opens the device a second time. While no open is queued in such a
gap, a lane meets every close before the open of any lease granted after it.
-/

namespace Pbr
namespace MediaDeviceArbiter

open Lib

variable {s : MediaDeviceArbiter} {lane : MediaDeviceLane} {work task : LaneWork} {rest next : List LaneWork}
  {openFor : Nat → Option Nat} {nextEndpoint : Nat} {new : List (Nat × Nat)} {lease : Nat} {slot slot' : LeaseSlot}
  {holders : List (MediaDeviceKind × Nat)} {leases : Nat → Option LeaseSlot} {kind : MediaDeviceKind}
  {voiceDuplex : Bool}

/-! ## Every step -/

structure Sound (s : MediaDeviceArbiter) : Prop where
  tracked : s.Tracked
  inOrder : s.InOrder

section

variable (h : s.Sound)
include h

theorem Sound.reslot {t : MediaDeviceArbiter} (hr : s.Reslots t) : t.Sound :=
  ⟨h.tracked.reslot hr, h.inOrder.reslot h.tracked hr⟩

theorem Sound.hold : (s.hold kind voiceDuplex).Sound := by
  unfold MediaDeviceArbiter.hold
  split_ifs with hheld
  · exact h
  · refine h.reslot (h.tracked.reslots_granted fun hexclusive holder hin hkind => hheld ?_)
    rw [hexclusive, Bool.true_and, List.any_eq_true]
    exact ⟨holder, hin, by simpa using hkind⟩

theorem Sound.unholdMic : (s.unholdMic lease).Sound := by
  unfold MediaDeviceArbiter.unholdMic
  split
  · exact h
  · rename_i slot hslot
    split_ifs with hheld
    · exact h.reslot (h.tracked.reslots_dropped hslot hheld.1)
    · exact h

theorem Sound.posted (hposts : s.Posts lane task leases)
    (hqueued : ∀ later ∈ task.opens, s.ClosesQueued later) : (s.posted lane task leases).Sound :=
  ⟨h.tracked.posted hposts, h.inOrder.posted h.tracked hposts hqueued⟩

theorem Sound.rewritten (hslot : s.Rewrites lease slot slot' holders openFor) :
    (s.rewritten lease slot' holders openFor).Sound :=
  h.reslot (hslot.reslots h.tracked)

theorem Sound.moved (hwork : s.work lane = work :: rest) (hmoves : s.Moves lane work next openFor nextEndpoint new) :
    (s.moved lane (next ++ rest) openFor nextEndpoint).Sound :=
  ⟨h.tracked.moved hwork hmoves, h.inOrder.moved h.tracked hwork hmoves⟩

theorem Sound.postOpen (hqueued : s.ClosesQueued lease) : (s.postOpen lease).Sound := by
  unfold MediaDeviceArbiter.postOpen
  split
  · exact h
  rename_i slot hslot
  split_ifs with hheld
  · refine h.posted ?_ (by simpa using hqueued)
    constructor
    case queued => rfl
    case slots =>
      intro other
      by_cases hsame : other = lease
      · subst hsame
        exact .inr ⟨by simp, slot, hslot, by simp [setLease]⟩
      · exact .inl (by simp [setLease, Function.update_of_ne hsame])
    case opens =>
      intro other hin
      obtain rfl : other = lease := by simpa using hin
      exact ⟨slot, hslot, hheld.1⟩
    case named =>
      intro other hin
      obtain rfl : other = lease := by simpa using hin
      exact ⟨{ slot with stage := .acquired }, by simp [setLease], by simp, rfl⟩
    case pairs => simp
    case closes => simp
  · exact h

theorem Sound.postOpenDuplex {mic speaker : Nat} (hmic : s.ClosesQueued mic)
    (hspeaker : s.ClosesQueued speaker) : (s.postOpenDuplex mic speaker).Sound := by
  unfold MediaDeviceArbiter.postOpenDuplex
  split
  · rename_i micSlot speakerSlot hmicSlot hspeakerSlot
    split_ifs with hheld
    · obtain ⟨⟨hmicHeld, -, hmicKind⟩, hspeakerHeld, -, hspeakerKind⟩ := hheld
      have hne : mic ≠ speaker := by
        rintro rfl
        rw [hmicSlot] at hspeakerSlot
        cases hspeakerSlot
        rw [hmicKind] at hspeakerKind
        cases hspeakerKind
      have hnow : ((s.setLease mic { micSlot with stage := .acquired }).setLease speaker
          { speakerSlot with stage := .acquired }).leases mic = some { micSlot with stage := .acquired } := by
        simp [setLease, Function.update_of_ne hne]
      refine h.posted ?_ ?_
      · constructor
        case queued => rfl
        case slots =>
          intro other
          by_cases hother : other = speaker
          · subst hother
            exact .inr ⟨by simp, speakerSlot, hspeakerSlot, by simp [setLease]⟩
          by_cases hother' : other = mic
          · subst hother'
            exact .inr ⟨by simp, micSlot, hmicSlot, hnow⟩
          · exact .inl (by simp [setLease, Function.update_of_ne hother, Function.update_of_ne hother'])
        case opens =>
          intro other hin
          have hin' : other = mic ∨ other = speaker := by simpa using hin
          rcases hin' with rfl | rfl
          · exact ⟨micSlot, hmicSlot, hmicHeld⟩
          · exact ⟨speakerSlot, hspeakerSlot, hspeakerHeld⟩
        case named =>
          intro other hin
          have hin' : other = mic ∨ other = speaker := by simpa using hin
          rcases hin' with rfl | rfl
          · exact ⟨_, hnow, by simp, by rw [hmicKind]; rfl⟩
          · exact ⟨{ speakerSlot with stage := .acquired }, by simp [setLease], by simp, by rw [hspeakerKind]; rfl⟩
        case pairs =>
          intro mic' speaker' heq m p hm hp
          obtain ⟨rfl, rfl⟩ : mic = mic' ∧ speaker = speaker' := by simpa using heq
          rw [hmicSlot] at hm
          rw [hspeakerSlot] at hp
          cases hm
          cases hp
          exact ⟨hmicKind, hspeakerKind⟩
        case closes => simp
      · intro later hin
        have hin' : later = mic ∨ later = speaker := by simpa using hin
        rcases hin' with rfl | rfl
        · exact hmic
        · exact hspeaker
    · exact h
  · exact h

theorem Sound.postReopen : (s.postReopen lease).Sound := by
  unfold MediaDeviceArbiter.postReopen
  split
  · exact h
  rename_i slot hslot
  split_ifs with hmay
  · refine h.posted (?_ : s.Posts .audio (.reopen lease) s.leases) (by simp)
    constructor
    case queued => rfl
    case slots => exact fun _ => .inl rfl
    case opens => simp
    case named =>
      intro other hin
      obtain rfl : other = lease := by simpa using hin
      refine ⟨slot, hslot, hmay.1, ?_⟩
      cases hkind : slot.kind with
      | mic | speaker => rfl
      | camera => exact absurd hkind hmay.2.2
    case pairs => simp
    case closes => simp
  · exact h

theorem Sound.release : (s.release lease).Sound := by
  unfold MediaDeviceArbiter.release
  split
  · exact h
  rename_i slot hslot
  split_ifs with hacquired
  · have hsound := h.tracked.slots lease slot hslot
    have hnone : slot.released = none := hsound.released.mpr (.inr hacquired)
    refine h.rewritten (?_ : s.Rewrites lease slot _ s.holders s.openFor)
    constructor
    case found => exact hslot
    case kind => rfl
    case stage => simp [hacquired]
    case sound =>
      constructor
      case lt => exact hsound.lt
      case released => simp
      case after =>
        intro n hn
        cases hn
        exact ⟨hsound.lt, Nat.le_refl _⟩
      case endpoint => simp
      case holder => exact fun _ => hsound.holder (.inr (.inl hacquired))
    case others => exact fun _ _ _ => id
    case opened => exact fun _ _ => id
    case released => simp [hnone]
    case now =>
      intro n hn
      cases hn
      exact .inr (Nat.le_refl _)
    case closing => exact fun hne => absurd hnone hne
    case has =>
      intro e hin
      have hin' : slot.endpoint = some e := by simpa [LeaseStage.closing] using hin
      exact .inl ⟨slot, hslot, .inl hin'⟩
    case kept =>
      intro e hin _
      have hin' : slot.endpoint = some e := by simpa [hacquired, LeaseStage.closing] using hin
      exact .inr (.inl (by simpa [LeaseStage.closing] using hin'))
  · exact h

theorem Sound.unhold : (s.unhold lease).Sound := by
  unfold MediaDeviceArbiter.unhold
  split
  · exact h
  rename_i slot hslot
  split
  · rename_i closing hmarked
    have hsound := h.tracked.slots lease slot hslot
    refine h.rewritten (?_ : s.Rewrites lease slot _ (s.holders.filter (·.2 ≠ lease)) s.openFor)
    constructor
    case found => exact hslot
    case kind => rfl
    case stage => simp [hmarked]
    case sound =>
      constructor
      case lt => exact hsound.lt
      case released =>
        rw [hsound.released]
        simp [hmarked]
      case after => exact hsound.after
      case endpoint =>
        intro hne
        have := hsound.endpoint hne
        rw [hmarked] at this
        cases this
      case holder => simp
    case others =>
      intro other hne kind hin
      exact List.mem_filter.mpr ⟨hin, by simp [hne]⟩
    case opened => exact fun _ _ => id
    case released => exact fun _ => id
    case now => exact fun _ => .inl
    case closing =>
      intro _ hnone
      simpa [hmarked, LeaseStage.closing] using hnone
    case has =>
      intro e hin
      exact .inl ⟨slot, hslot, by simpa [hmarked, LeaseStage.closing] using hin⟩
    case kept =>
      intro e hin _
      rcases hin with hin | hin
      · exact .inl hin
      · exact .inr (.inl (by simpa [hmarked, LeaseStage.closing] using hin))
  · exact h

/-- A freed lease whose close, where there is one, is queued. -/
theorem Sound.gone {closing : Option Nat} (hslot : s.leases lease = some slot) (hfreed : slot.stage = .freed closing)
    (hqueued : ∀ e, closing = some e → ∃ work ∈ s.work slot.kind.lane, e ∈ work.endpoints) :
    (s.setLease lease { slot with stage := .gone }).Sound := by
  have hsound := h.tracked.slots lease slot hslot
  refine h.rewritten (?_ : s.Rewrites lease slot _ s.holders s.openFor)
  constructor
  case found => exact hslot
  case kind => rfl
  case stage => simp [hfreed]
  case sound =>
    constructor
    case lt => exact hsound.lt
    case released =>
      rw [hsound.released]
      simp [hfreed]
    case after => exact hsound.after
    case endpoint =>
      intro hne
      have := hsound.endpoint hne
      rw [hfreed] at this
      cases this
    case holder => simp
  case others => exact fun _ _ _ => id
  case opened => exact fun _ _ => id
  case released => exact fun _ => id
  case now => exact fun _ => .inl
  case closing => exact fun _ _ => rfl
  case has =>
    intro e hin
    have hin' : slot.endpoint = some e := by simpa [LeaseStage.closing] using hin
    exact .inl ⟨slot, hslot, .inl hin'⟩
  case kept =>
    intro e hin _
    rcases hin with hin | hin
    · exact .inl hin
    · exact .inr (.inr (hqueued e (by simpa [hfreed, LeaseStage.closing] using hin)))

theorem Sound.postClose : (s.postClose lease).Sound := by
  unfold MediaDeviceArbiter.postClose
  split
  · exact h
  rename_i slot hslot
  split
  · rename_i hfreed
    exact h.gone hslot hfreed (by simp)
  · rename_i e hfreed
    have hhas : s.Has e lease := .inl ⟨slot, hslot, .inr (by simp [hfreed, LeaseStage.closing])⟩
    have hposted : (s.posted slot.kind.lane (.close e) s.leases).Sound := by
      refine h.posted ?_ (by simp)
      constructor
      case queued => rfl
      case slots => exact fun _ => .inl rfl
      case opens => simp
      case named => simp
      case pairs => simp
      case closes =>
        intro e' heq
        obtain rfl : e = e' := by simpa using heq
        refine ⟨h.tracked.has_lt e lease hhas, fun other found he hfound => ?_⟩
        obtain rfl := h.tracked.owner e lease hhas other he
        have : found = slot := Option.mem_unique hfound hslot
        rw [this, hfreed]
        rfl
    refine hposted.gone hslot hfreed fun e' heq => ⟨.close e, ?_, ?_⟩
    · simp
    · cases heq
      simp
  · exact h

end

/-! ## Lanes at work -/

theorem Moves.shrink (hopened : ∀ e lease, openFor e = some lease → s.openFor e = some lease)
    (hlength : next.length ≤ 1) (hleases : ∀ later ∈ next, ∀ lease ∈ later.leases, lease ∈ work.leases)
    (hopens : ∀ later ∈ next, later.opens = []) (howned : ∀ later ∈ next, ∀ x ∈ later.owned, s.Has x.1 x.2)
    (hendpoints : ∀ later ∈ next, ∀ e ∈ later.endpoints, e < s.nextEndpoint)
    (hkept : ∀ e ∈ work.endpoints, ∀ lease, openFor e = some lease →
      (∃ slot, s.leases lease = some slot ∧ slot.endpoint = some e) ∨ ∃ later ∈ next, e ∈ later.endpoints)
    (hcloses : ∀ e, .close e ∈ next → ∀ lease slot, openFor e = some lease → s.leases lease = some slot →
      slot.released ≠ none) (hagain : ∀ lease, .openAgain lease ∈ next → ∀ slot, s.leases lease = some slot →
      slot.released ≠ none ∨ ∀ e, openFor e ≠ some lease)
    (hsettled : ∀ lease endpoint, .settle lease endpoint ∈ next → ∀ slot, s.leases lease = some slot →
      slot.released ≠ none ∨ ∀ e, openFor e = some lease → endpoint = some e) :
    s.Moves lane work next openFor s.nextEndpoint [] where
  le := Nat.le_refl _
  opened := fun e lease he => .inl (hopened e lease he)
  new_lt := by simp
  new_lease := by simp
  new_wanted := by simp
  new_inj := by simp
  new_next := by simp
  length := hlength
  leases := hleases
  opens := hopens
  owned := fun later hlater x hx => .inl (howned later hlater x hx)
  endpoints := hendpoints
  kept := hkept
  closes := hcloses
  again := hagain
  settled := hsettled

theorem Moves.done (hopened : ∀ e lease, openFor e = some lease → s.openFor e = some lease)
    (hkept : ∀ e ∈ work.endpoints, ∀ lease, openFor e = some lease →
      ∃ slot, s.leases lease = some slot ∧ slot.endpoint = some e) :
    s.Moves lane work [] openFor s.nextEndpoint [] := by
  apply Moves.shrink hopened
  case hkept => exact fun e he lease hopen => .inl (hkept e he lease hopen)
  all_goals simp

theorem openFor_of_closed {e e' lease : Nat} (h : (s.closed e).openFor e' = some lease) :
    e' ≠ e ∧ s.openFor e' = some lease := by
  by_cases hsame : e' = e
  · subst hsame
    simp [closed] at h
  · exact ⟨hsame, by simpa [closed, Function.update_of_ne hsame] using h⟩

theorem opened_closed (e e' lease : Nat) (h : (s.closed e).openFor e' = some lease) : s.openFor e' = some lease :=
  (openFor_of_closed h).2

theorem not_open_closed (e lease : Nat) : (s.closed e).openFor e ≠ some lease := fun h => (openFor_of_closed h).1 rfl

theorem wanted_iff (h : s.leases lease = some slot) : s.wanted lease = true ↔ slot.released = none := by
  simp [wanted, h]

/-- `OpenOnDevice`, of a lease that has nothing open. -/
theorem Sound.beginOpen (h : s.Sound) (hwork : s.work lane = work :: rest)
    (hleases : work.leases = [lease]) (hendpoints : work.endpoints = [])
    (hopens : lease ∈ work.opens ∨ work = .openAgain lease) : (if s.wanted lease then
      (s.beginOpen lease).setWork lane (.opening lease s.nextEndpoint :: rest) else s.setWork lane rest).Sound := by
  have hhead := head_mem hwork
  obtain ⟨slot, hslot, -⟩ := h.tracked.named lane work hhead lease (by simp only [hleases, List.mem_singleton])
  split_ifs with hwanted
  · have hnone : slot.released = none := (wanted_iff hslot).mp hwanted
    have hnothing : ∀ e, s.openFor e ≠ some lease := by
      rcases hopens with hin | rfl
      · exact h.tracked.fresh lane work hhead lease hin
      · rcases h.tracked.again lane lease hhead slot hslot with hreleased | hall
        · exact absurd hnone hreleased
        · exact hall
    have hmoves : s.Moves lane work [.opening lease s.nextEndpoint]
        (Function.update s.openFor s.nextEndpoint (some lease)) (s.nextEndpoint + 1) [(s.nextEndpoint, lease)] := by
      constructor
      case le => exact Nat.le_succ _
      case opened =>
        intro e other he
        by_cases hsame : e = s.nextEndpoint
        · subst hsame
          rw [Function.update_self] at he
          cases he
          exact .inr List.mem_cons_self
        · rw [Function.update_of_ne hsame] at he
          exact .inl he
      case new_lt => simp
      case new_lease =>
        intro x hx
        obtain rfl := List.mem_singleton.mp hx
        exact ⟨by simp only [hleases, List.mem_singleton], hnothing⟩
      case new_wanted =>
        intro x hx
        obtain rfl := List.mem_singleton.mp hx
        exact .inr ⟨slot, hslot, hnone⟩
      case new_inj =>
        intro x hx y hy
        obtain rfl := List.mem_singleton.mp hx
        obtain rfl := List.mem_singleton.mp hy
        simp
      case new_next =>
        intro x hx
        obtain rfl := List.mem_singleton.mp hx
        exact ⟨_, List.mem_cons_self, by simp⟩
      case length => simp
      case leases =>
        intro later hlater other hin
        obtain rfl := List.mem_singleton.mp hlater
        rw [hleases]
        exact hin
      case opens => simp
      case owned => simp
      case endpoints => simp
      case kept =>
        rw [hendpoints]
        simp
      case closes => simp
      case again => simp
      case settled => simp
    exact h.moved hwork hmoves
  · exact h.moved hwork (Moves.done (fun _ _ => id) (by rw [hendpoints]; simp))

theorem Sound.beginOpenDuplex (h : s.Sound) {mic speaker : Nat}
    (hwork : s.work lane = .openDuplex mic speaker :: rest) : (if s.wanted mic then
      ((s.beginOpen mic).beginOpen speaker).setWork lane
        (.openingDuplex mic speaker s.nextEndpoint (s.nextEndpoint + 1) :: rest) else s.setWork lane rest).Sound := by
  have hhead := head_mem hwork
  obtain ⟨micSlot, hmic, -⟩ := h.tracked.named lane _ hhead mic (by simp)
  obtain ⟨speakerSlot, hspeaker, -⟩ := h.tracked.named lane _ hhead speaker (by simp)
  have hkinds := h.tracked.pairs lane mic speaker hhead micSlot speakerSlot hmic hspeaker
  have hne : mic ≠ speaker := by
    rintro rfl
    rw [hmic] at hspeaker
    cases hspeaker
    rw [hkinds.1] at hkinds
    cases hkinds.2
  split_ifs with hwanted
  · have hmoves : s.Moves lane (.openDuplex mic speaker)
        [.openingDuplex mic speaker s.nextEndpoint (s.nextEndpoint + 1)]
        ((s.beginOpen mic).beginOpen speaker).openFor (s.nextEndpoint + 1 + 1)
        [(s.nextEndpoint, mic), (s.nextEndpoint + 1, speaker)] := by
      constructor
      case le => omega
      case opened =>
        intro e other he
        by_cases hsecond : e = s.nextEndpoint + 1
        · subst hsecond
          have : some speaker = some other := by simpa [MediaDeviceArbiter.beginOpen] using he
          cases this
          exact .inr (by simp)
        by_cases hfirst : e = s.nextEndpoint
        · subst hfirst
          have : some mic = some other := by
            simpa [MediaDeviceArbiter.beginOpen, Function.update_of_ne hsecond] using he
          cases this
          exact .inr (by simp)
        · left
          simpa [MediaDeviceArbiter.beginOpen, Function.update_of_ne hsecond, Function.update_of_ne hfirst] using he
      case new_lt =>
        simp only [List.mem_cons, List.not_mem_nil, or_false, forall_eq_or_imp, forall_eq]
        omega
      case new_lease =>
        intro x hx
        have hfresh := h.tracked.fresh lane _ hhead
        rcases List.mem_cons.mp hx with rfl | hx
        · exact ⟨by simp, hfresh mic (by simp)⟩
        · obtain rfl := List.mem_singleton.mp hx
          exact ⟨by simp, hfresh speaker (by simp)⟩
      case new_wanted =>
        intro x hx
        rcases List.mem_cons.mp hx with rfl | hx
        · exact .inl (by simp)
        · obtain rfl := List.mem_singleton.mp hx
          exact .inl (by simp)
      case new_inj =>
        intro x hx y hy
        rcases List.mem_cons.mp hx with rfl | hx
        · rcases List.mem_cons.mp hy with rfl | hy
          · simp
          · obtain rfl := List.mem_singleton.mp hy
            simp [hne]
        · obtain rfl := List.mem_singleton.mp hx
          rcases List.mem_cons.mp hy with rfl | hy
          · simp [hne.symm]
          · obtain rfl := List.mem_singleton.mp hy
            simp
      case new_next =>
        intro x hx
        refine ⟨_, List.mem_cons_self, ?_⟩
        rcases List.mem_cons.mp hx with rfl | hx
        · simp
        · obtain rfl := List.mem_singleton.mp hx
          simp
      case length => simp
      case leases => simp
      case opens => simp
      case owned =>
        intro later hlater x hx
        obtain rfl := List.mem_singleton.mp hlater
        exact .inr hx
      case endpoints =>
        intro later hlater e he
        obtain rfl := List.mem_singleton.mp hlater
        have he' : e = s.nextEndpoint ∨ e = s.nextEndpoint + 1 := by
          simpa using he
        omega
      case kept => simp
      case closes => simp
      case again => simp
      case settled => simp
    exact h.moved hwork hmoves
  · exact h.moved hwork (Moves.done (fun _ _ => id) (by simp))

variable {endpoint : Option Nat} {answers : List (Bool × Bool)} {mic speaker em es : Nat}

/-- The endpoint a lease had is destroyed under the one it gets. -/
theorem Sound.install (h : s.Sound) (hslot : s.leases lease = some slot)
    (hstage : slot.stage ≠ .held) (hnone : slot.released = none) (hhas : ∀ e, endpoint = some e → s.Has e lease) :
    (s.install lease endpoint).Sound := by
  have hsound := h.tracked.slots lease slot hslot
  have hrewrites : ∀ openFor : Nat → Option Nat, (∀ e other, openFor e = some other → s.openFor e = some other) →
      (∀ e, slot.endpoint = some e → openFor e ≠ some lease) →
        s.Rewrites lease slot { slot with endpoint } s.holders openFor := by
    intro openFor hopened hclosed
    constructor
    case found => exact hslot
    case kind => rfl
    case stage => exact ⟨hstage, hstage⟩
    case sound =>
      constructor
      case lt => exact hsound.lt
      case released => exact hsound.released
      case after => exact hsound.after
      case endpoint =>
        intro _
        rcases hsound.released.mp hnone with hheld | hacquired
        · exact absurd hheld hstage
        · exact hacquired
      case holder => exact hsound.holder
    case others => exact fun _ _ _ => id
    case opened => exact hopened
    case released => exact fun _ => id
    case now => exact fun _ => .inl
    case closing => exact fun _ => id
    case has =>
      intro e hin
      rcases hin with hin | hin
      · exact hhas e hin
      · exact .inl ⟨slot, hslot, .inr hin⟩
    case kept =>
      intro e hin he
      rcases hin with hin | hin
      · exact absurd he (hclosed e hin)
      · exact .inr (.inl hin)
  unfold MediaDeviceArbiter.install
  rw [hslot]
  dsimp only
  cases hend : slot.endpoint with
  | none => exact h.rewritten (hrewrites s.openFor (fun _ _ => id) (by simp [hend]))
  | some old =>
    refine h.rewritten (hrewrites (s.closed old).openFor (fun e other he => (openFor_of_closed he).2) ?_)
    intro e he
    rw [hend] at he
    cases he
    simp [closed]

theorem install_parts (hslot : s.leases lease = some slot) :
    (s.install lease endpoint).work = s.work ∧ (s.install lease endpoint).nextEndpoint = s.nextEndpoint ∧
      (s.install lease endpoint).leases lease = some { slot with endpoint } := by
  unfold MediaDeviceArbiter.install
  rw [hslot]
  dsimp only
  cases slot.endpoint with
  | none | some old => exact ⟨rfl, rfl, by simp [setLease]⟩

/-- An opened endpoint is installed, or closes at once where its lease was released. -/
theorem Sound.opened (h : s.Sound) (hwork : s.work lane = .opened lease endpoint :: rest)
    (ok okSpeaker : Bool) : (s.perform lane rest ok okSpeaker (.opened lease endpoint)).Sound := by
  have hhead := head_mem hwork
  have hhas := has_owned hwork
  have hlt := h.tracked.worked_lt lane _ hhead
  obtain ⟨slot, hslot, hstage, -⟩ := h.tracked.named lane _ hhead lease (by simp)
  have hhas' : ∀ e, endpoint = some e → s.Has e lease := by
    intro e he
    exact hhas (e, lease) (by simp [he])
  have hin : ∀ e ∈ (LaneWork.opened lease endpoint).endpoints, endpoint = some e := by
    intro e he
    simpa using he
  dsimp only [MediaDeviceArbiter.perform]
  split_ifs with hwanted
  · have hnone : slot.released = none := (wanted_iff hslot).mp hwanted
    have hinstalled := h.install hslot hstage hnone hhas'
    have hwork' : (s.install lease endpoint).work lane = .opened lease endpoint :: rest := by
      rw [(install_parts hslot).1, hwork]
    have hleases : (s.install lease endpoint).leases lease = some { slot with endpoint } :=
      (install_parts hslot).2.2
    have hmoves : (s.install lease endpoint).Moves lane (.opened lease endpoint) []
        (s.install lease endpoint).openFor (s.install lease endpoint).nextEndpoint [] := by
      apply Moves.done (fun _ _ => id)
      intro e he other hopen
      have hhas'' : (s.install lease endpoint).Has e lease := .inl ⟨_, hleases, .inl (hin e he)⟩
      obtain rfl := hinstalled.tracked.owner e lease hhas'' other hopen
      exact ⟨_, hleases, hin e he⟩
    exact hinstalled.moved hwork' hmoves
  · have hreleased : slot.released ≠ none := fun hnone => hwanted ((wanted_iff hslot).mpr hnone)
    have hmoves : s.Moves lane (.opened lease endpoint) (endpoint.toList.map .close) s.openFor
        s.nextEndpoint [] := by
      cases endpoint with
      | none => exact Moves.done (fun _ _ => id) (by simp)
      | some e =>
        apply Moves.shrink (fun _ _ => id)
        case hcloses =>
          intro e' he' other found hopen hfound
          obtain rfl : e' = e := by simpa using he'
          obtain rfl := h.tracked.owner e' lease (hhas' e' rfl) other hopen
          have : found = slot := Option.mem_unique hfound hslot
          exact this ▸ hreleased
        case hendpoints => simpa using hlt
        all_goals simp
    exact h.moved hwork hmoves

/-- The backend comes back with both halves of a pair, with one or with none. -/
theorem Sound.openingDuplex (h : s.Sound) (hwork : s.work lane = .openingDuplex mic speaker em es :: rest)
    (ok okSpeaker : Bool) : (s.perform lane rest ok okSpeaker (.openingDuplex mic speaker em es)).Sound := by
  have hhead := head_mem hwork
  have hhas := has_owned hwork
  have hlt := h.tracked.worked_lt lane _ hhead
  dsimp only [MediaDeviceArbiter.perform]
  cases ok with
  | true =>
    cases okSpeaker with
    | true =>
      have hmoves : s.Moves lane (.openingDuplex mic speaker em es) [.openedDuplex mic speaker em es]
          s.openFor s.nextEndpoint [] := by
        apply Moves.shrink (fun _ _ => id)
        case howned =>
          intro later hlater x hx
          obtain rfl := List.mem_singleton.mp hlater
          exact hhas x hx
        case hendpoints => simpa using hlt
        all_goals simp
      exact h.moved hwork hmoves
    | false =>
      have hmoves : s.Moves lane (.openingDuplex mic speaker em es) [.closeHalf em]
          (s.closed es).openFor s.nextEndpoint [] := by
        apply Moves.shrink (opened_closed es)
        case hendpoints =>
          simpa using hlt em (by simp)
        case hkept =>
          intro e he other hopen
          have he' : e = em ∨ e = es := by simpa using he
          rcases he' with rfl | rfl
          · exact .inr ⟨_, List.mem_cons_self, by simp⟩
          · exact absurd hopen (not_open_closed e other)
        all_goals simp
      exact h.moved hwork hmoves
  | false =>
    cases okSpeaker with
    | true =>
      have hmoves : s.Moves lane (.openingDuplex mic speaker em es) [.closeHalf es]
          (s.closed em).openFor s.nextEndpoint [] := by
        apply Moves.shrink (opened_closed em)
        case hendpoints =>
          simpa using hlt es (by simp)
        case hkept =>
          intro e he other hopen
          have he' : e = em ∨ e = es := by simpa using he
          rcases he' with rfl | rfl
          · exact absurd hopen (not_open_closed e other)
          · exact .inr ⟨_, List.mem_cons_self, by simp⟩
        all_goals simp
      exact h.moved hwork hmoves
    | false =>
      have hboth : ∀ e other, ((s.closed em).closed es).openFor e = some other →
          e ≠ em ∧ e ≠ es ∧ s.openFor e = some other := by
        intro e other he
        obtain ⟨hne, he'⟩ := openFor_of_closed he
        obtain ⟨hne', hold⟩ := openFor_of_closed he'
        exact ⟨hne', hne, hold⟩
      have hmoves : s.Moves lane (.openingDuplex mic speaker em es) []
          ((s.closed em).closed es).openFor s.nextEndpoint [] := by
        apply Moves.done (fun e other he => (hboth e other he).2.2)
        intro e he other hopen
        have he' : e = em ∨ e = es := by simpa using he
        rcases he' with rfl | rfl
        · exact absurd rfl (hboth e other hopen).1
        · exact absurd rfl (hboth e other hopen).2.1
      exact h.moved hwork hmoves

/-- The mic's half of a pair is installed, the speaker's is still to be. -/
theorem Sound.openedDuplex (h : s.Sound) (hwork : s.work lane = .openedDuplex mic speaker em es :: rest)
    (ok okSpeaker : Bool) : (s.perform lane rest ok okSpeaker (.openedDuplex mic speaker em es)).Sound := by
  have hhead := head_mem hwork
  have hhas := has_owned hwork
  have hlt := h.tracked.worked_lt lane _ hhead
  obtain ⟨slot, hslot, hstage, -⟩ := h.tracked.named lane _ hhead mic (by simp)
  have hmic : s.Has em mic := hhas (em, mic) (by simp)
  have hspeaker : s.Has es speaker := hhas (es, speaker) (by simp)
  have hlt' : es < s.nextEndpoint := hlt es (by simp)
  dsimp only [MediaDeviceArbiter.perform]
  split_ifs with hwanted
  · have hnone : slot.released = none := (wanted_iff hslot).mp hwanted
    have hinstalled : (s.install mic (some em)).Sound := h.install hslot hstage hnone (by
      intro e he
      cases he
      exact hmic)
    obtain ⟨hsameWork, hsameNext, hleases⟩ : (s.install mic (some em)).work = s.work ∧
        (s.install mic (some em)).nextEndpoint = s.nextEndpoint ∧
        (s.install mic (some em)).leases mic = some { slot with endpoint := some em } := install_parts hslot
    have hwork' : (s.install mic (some em)).work lane = .openedDuplex mic speaker em es :: rest := by
      rw [hsameWork, hwork]
    have hhas' : (s.install mic (some em)).Has es speaker :=
      .inr ⟨lane, _, by rw [hwork']; exact List.mem_cons_self, by simp⟩
    have hmoves : (s.install mic (some em)).Moves lane (.openedDuplex mic speaker em es)
        [.opened speaker (some es)] (s.install mic (some em)).openFor
        (s.install mic (some em)).nextEndpoint [] := by
      apply Moves.shrink (fun _ _ => id)
      case howned => simpa using hhas'
      case hendpoints => simpa [hsameNext] using hlt'
      case hkept =>
        intro e he other hopen
        have he' : e = em ∨ e = es := by simpa using he
        rcases he' with rfl | rfl
        · obtain rfl := hinstalled.tracked.owner e mic (.inl ⟨_, hleases, .inl rfl⟩) other hopen
          exact .inl ⟨_, hleases, rfl⟩
        · exact .inr ⟨_, List.mem_cons_self, by simp⟩
      all_goals simp
    exact hinstalled.moved hwork' hmoves
  · have hmoves : s.Moves lane (.openedDuplex mic speaker em es) [.closeThenOpened em speaker es] s.openFor
        s.nextEndpoint [] := by
      apply Moves.shrink (fun _ _ => id)
      case howned => simpa using hspeaker
      case hendpoints => simpa using hlt
      all_goals simp
    exact h.moved hwork hmoves

theorem Sound.take (h : s.Sound) (hwork : s.work lane = .take lease :: rest)
    (ok okSpeaker : Bool) : (s.perform lane rest ok okSpeaker (.take lease)).Sound := by
  have hhead := head_mem hwork
  obtain ⟨slot, hslot, hstage, -⟩ := h.tracked.named lane _ hhead lease (by simp)
  have hsound := h.tracked.slots lease slot hslot
  have hhas' : ∀ e, slot.endpoint = some e → s.Has e lease := fun e he => .inl ⟨slot, hslot, .inl he⟩
  have hmoves : s.Moves lane (.take lease) [.settle lease slot.endpoint] s.openFor s.nextEndpoint [] := by
    apply Moves.shrink (fun _ _ => id)
    case howned => simpa using hhas'
    case hendpoints =>
      simpa using fun e he => h.tracked.has_lt e lease (hhas' e he)
    case hsettled =>
      intro lease' endpoint heq found hfound
      obtain ⟨rfl, rfl⟩ : lease' = lease ∧ endpoint = slot.endpoint := by simpa using heq
      have : found = slot := Option.mem_unique hfound hslot
      subst this
      by_cases hnone : found.released = none
      · right
        intro e he
        obtain ⟨found', hfound', hplace⟩ := h.tracked.placed e lease' he
        have : found' = found := Option.mem_unique hfound' hslot
        subst this
        rcases hplace with hplace | hplace | ⟨piece, hpiece, hplace⟩
        · exact hplace
        · rcases hsound.released.mp hnone with hheld | hacquired
          · simp [hheld, LeaseStage.closing] at hplace
          · simp [hacquired, LeaseStage.closing] at hplace
        · obtain ⟨found'', hfound'', -, hlane⟩ := h.tracked.named lane _ hhead lease' (by simp)
          have : found'' = found' := Option.mem_unique hfound'' hslot
          subst this
          rw [hlane, hwork] at hpiece
          rcases List.mem_cons.mp hpiece with rfl | hpiece
          · simp at hplace
          · have hqueued := h.tracked.tail lane piece (by rw [hwork]; exact hpiece)
            have hclose := LaneWork.close_of_queued hqueued hplace
            have hin : .close e ∈ s.work lane := by
              rw [hwork, ← hclose]
              exact List.mem_cons_of_mem _ hpiece
            exact absurd hnone (h.tracked.closes lane e hin lease' found'' he hslot)
      · exact .inl hnone
    all_goals simp
  have hmoved := h.moved hwork hmoves
  have hrewrites : (s.moved lane ([.settle lease slot.endpoint] ++ rest) s.openFor s.nextEndpoint).Rewrites lease
      slot { slot with endpoint := none } s.holders s.openFor := by
    constructor
    case found => exact hslot
    case kind => rfl
    case stage => exact ⟨hstage, hstage⟩
    case sound =>
      constructor
      case lt => exact hsound.lt
      case released => exact hsound.released
      case after => exact hsound.after
      case endpoint => simp
      case holder => exact hsound.holder
    case others => exact fun _ _ _ => id
    case opened => exact fun _ _ => id
    case released => exact fun _ => id
    case now => exact fun _ => .inl
    case closing => exact fun _ => id
    case has =>
      intro e hin
      have hin' : slot.stage.closing = some e := by simpa using hin
      exact .inl ⟨slot, hslot, .inr hin'⟩
    case kept =>
      intro e hin _
      rcases hin with hin | hin
      · obtain ⟨found, hfound, -, hlane⟩ := h.tracked.named lane _ hhead lease (by simp)
        have : found = slot := Option.mem_unique hfound hslot
        subst this
        refine .inr (.inr ⟨.settle lease found.endpoint, ?_, ?_⟩)
        · simp [MediaDeviceArbiter.moved, hlane]
        · simp [hin]
      · exact .inr (.inl hin)
  have hdone := hmoved.rewritten hrewrites
  dsimp only [MediaDeviceArbiter.perform]
  rw [hslot]
  exact hdone

theorem Sound.settle (h : s.Sound) (hwork : s.work lane = .settle lease endpoint :: rest)
    (ok okSpeaker : Bool) : (s.perform lane rest ok okSpeaker (.settle lease endpoint)).Sound := by
  have hhead := head_mem hwork
  have hmoves : s.Moves lane (.settle lease endpoint) [.openAgain lease] (s.closedAll endpoint.toList).openFor
      s.nextEndpoint [] := by
    have hall : ∀ e other, (s.closedAll endpoint.toList).openFor e = some other →
        endpoint ≠ some e ∧ s.openFor e = some other := by
      intro e other he
      cases endpoint with
      | none => exact ⟨by simp, he⟩
      | some old =>
        obtain ⟨hne, hold⟩ := openFor_of_closed he
        exact ⟨by simpa using hne.symm, hold⟩
    apply Moves.shrink (fun e other he => (hall e other he).2)
    case hkept =>
      intro e he other hopen
      exact absurd (by simpa using he) (hall e other hopen).1
    case hagain =>
      intro lease' heq slot hslot
      obtain rfl : lease' = lease := by simpa using heq
      rcases h.tracked.settled lane lease' endpoint hhead slot hslot with hreleased | heach
      · exact .inl hreleased
      · exact .inr fun e he => (hall e lease' he).1 (heach e (hall e lease' he).2)
    all_goals simp
  have hdone := h.moved hwork hmoves
  cases endpoint with
  | none | some old => exact hdone

theorem Sound.perform (h : s.Sound) (hwork : s.work lane = work :: rest) (ok okSpeaker : Bool) :
    (s.perform lane rest ok okSpeaker work).Sound := by
  have hhead := head_mem hwork
  have hhas := has_owned hwork
  have hlt := h.tracked.worked_lt lane work hhead
  cases work with
  | «open» lease =>
    exact h.beginOpen hwork rfl rfl (.inl (by simp))
  | openAgain lease => exact h.beginOpen hwork rfl rfl (.inr rfl)
  | openDuplex mic speaker => exact h.beginOpenDuplex hwork
  | reopen lease =>
    dsimp only [MediaDeviceArbiter.perform]
    split_ifs with hwanted
    · have hmoves : s.Moves lane (.reopen lease) [.take lease] s.openFor s.nextEndpoint [] := by
        apply Moves.shrink (fun _ _ => id)
        all_goals simp
      exact h.moved hwork hmoves
    · exact h.moved hwork (Moves.done (fun _ _ => id) (by simp))
  | close e | closeHalf e =>
    refine h.moved hwork (Moves.done (opened_closed e) ?_)
    intro e' he' other hopen
    obtain rfl : e' = e := by simpa using he'
    exact absurd hopen (not_open_closed e' other)
  | opening lease e =>
    dsimp only [MediaDeviceArbiter.perform]
    split_ifs with hok
    · have hmoves : s.Moves lane (.opening lease e) [.opened lease (some e)] s.openFor s.nextEndpoint [] := by
        apply Moves.shrink (fun _ _ => id)
        case howned => simpa using hhas
        case hendpoints => simpa using hlt
        all_goals simp
      exact h.moved hwork hmoves
    · have hmoves : s.Moves lane (.opening lease e) [.opened lease none] (s.closed e).openFor s.nextEndpoint [] := by
        apply Moves.shrink (opened_closed e)
        case hkept =>
          intro e' he' other hopen
          obtain rfl : e' = e := by simpa using he'
          exact absurd hopen (not_open_closed e' other)
        all_goals simp
      exact h.moved hwork hmoves
  | opened lease endpoint => exact h.opened hwork ok okSpeaker
  | openingDuplex mic speaker em es => exact h.openingDuplex hwork ok okSpeaker
  | openedDuplex mic speaker em es => exact h.openedDuplex hwork ok okSpeaker
  | closeThenOpened e speaker es =>
    have hspeaker : s.Has es speaker := hhas (es, speaker) (by simp)
    have hmoves : s.Moves lane (.closeThenOpened e speaker es) [.opened speaker (some es)]
        (s.closed e).openFor s.nextEndpoint [] := by
      apply Moves.shrink (opened_closed e)
      case howned => simpa using hspeaker
      case hendpoints =>
        simpa using hlt es (by simp)
      case hkept =>
        intro e' he' other hopen
        have he'' : e' = e ∨ e' = es := by simpa using he'
        rcases he'' with rfl | rfl
        · exact absurd hopen (not_open_closed e' other)
        · exact .inr ⟨_, List.mem_cons_self, by simp⟩
      all_goals simp
    exact h.moved hwork hmoves
  | take lease => exact h.take hwork ok okSpeaker
  | settle lease endpoint => exact h.settle hwork ok okSpeaker

/-- The step queues no open ahead of a close that is still to be queued. -/
def QueuesInOrder (s : MediaDeviceArbiter) : Step → Prop
  | .postOpen lease => s.ClosesQueued lease
  | .postOpenDuplex mic speaker => s.ClosesQueued mic ∧ s.ClosesQueued speaker
  | _ => True

instance : (step : Step) → Decidable (s.QueuesInOrder step)
  | .postOpen lease => inferInstanceAs (Decidable (s.ClosesQueued lease))
  | .postOpenDuplex mic speaker => inferInstanceAs (Decidable (s.ClosesQueued mic ∧ s.ClosesQueued speaker))
  | .hold _ _ | .unholdMic _ | .postReopen _ | .release _ | .unhold _ | .postClose _ | .lane _ _ _ =>
    inferInstanceAs (Decidable True)

theorem Sound.step (h : s.Sound) {step : Step} (hok : s.QueuesInOrder step) : (s.step step).Sound := by
  cases step with
  | hold kind voiceDuplex => exact h.hold
  | unholdMic lease => exact h.unholdMic
  | postOpen lease => exact h.postOpen hok
  | postOpenDuplex mic speaker => exact h.postOpenDuplex hok.1 hok.2
  | postReopen lease => exact h.postReopen
  | release lease => exact h.release
  | unhold lease => exact h.unhold
  | postClose lease => exact h.postClose
  | lane lane ok okSpeaker =>
    show (s.runLane lane ok okSpeaker).Sound
    unfold MediaDeviceArbiter.runLane
    split
    · exact h
    · rename_i work rest hwork
      exact h.perform hwork ok okSpeaker

theorem sound_start (policy : MediaDeviceSharePolicy) : Sound { policy } := by
  constructor
  · constructor <;> simp [Has]
  · constructor
    · rintro earlier later ⟨slot, slot', n, hslot, -⟩
      cases hslot
    · intro earlier later slot slot' hslot
      cases hslot

/-! ## What runs keep -/

/-- What may be said of the endpoints in every state. -/
structure DevicesSound (s : MediaDeviceArbiter) : Prop where
  /-- One endpoint of an exclusive kind at most. -/
  exclusive : ∀ e e' lease lease' slot slot', s.openFor e = some lease → s.openFor e' = some lease' →
    s.leases lease = some slot → s.leases lease' = some slot' → slot.kind = slot'.kind →
      s.policy.exclusive slot.kind = true → e = e'
  /-- Nothing of a released lease is open once a lease granted later is opened. -/
  ordered : ∀ earlier later, s.GrantedAfter earlier later → (∃ e, s.openFor e = some later) →
    ∀ e, s.openFor e ≠ some earlier
  /-- No endpoint of a released lease can be read. -/
  unreadable : ∀ lease slot, s.leases lease = some slot → slot.released ≠ none → slot.endpoint = none
  /-- Where one is open its close is on the way. -/
  closing : ∀ lease slot e, s.leases lease = some slot → slot.released ≠ none → s.openFor e = some lease →
    slot.stage.closing = some e ∨ ∃ work ∈ s.work slot.kind.lane, e ∈ work.endpoints

theorem Sound.ordered (h : s.Sound) {earlier later : Nat} (hafter : s.GrantedAfter earlier later)
    {e : Nat} (hopen : s.openFor e = some later) : ∀ e', s.openFor e' ≠ some earlier := by
  obtain ⟨slot, slot', n, hslot, hslot', hrest⟩ := hafter
  have hheld : slot'.stage ≠ .held := fun hheld => h.tracked.held later slot' hslot' hheld e hopen
  refine ((h.inOrder.before earlier later ⟨slot, slot', n, hslot, hslot', hrest⟩ slot slot' hslot hslot' hheld).2.2
    ?_).1
  intro work hwork hopens
  exact h.tracked.fresh _ work hwork later hopens e hopen

theorem Sound.devices (h : s.Sound) : s.DevicesSound := by
  constructor
  case exclusive =>
    intro e e' lease lease' slot slot' he he' hslot hslot' hkind hexclusive
    have hnot : ∀ a b slotA slotB eA eB, s.leases a = some slotA → s.leases b = some slotB →
        slotA.kind = slotB.kind → s.policy.exclusive slotA.kind = true → s.openFor eA = some a →
          s.openFor eB = some b → ¬ a < b := by
      intro a b slotA slotB eA eB hA hB hk hx heA heB hlt
      obtain ⟨n, hn, hle⟩ := h.inOrder.exclusive a b slotA slotB hA hB hk hx hlt
      exact h.ordered ⟨slotA, slotB, n, hA, hB, hk, hn, hle⟩ heB eA heA
    rcases Nat.lt_trichotomy lease lease' with hlt | rfl | hgt
    · exact absurd hlt (hnot lease lease' slot slot' e e' hslot hslot' hkind hexclusive he he')
    · exact h.tracked.single e e' lease he he'
    · exact absurd hgt (hnot lease' lease slot' slot e' e hslot' hslot hkind.symm (hkind ▸ hexclusive) he' he)
  case ordered =>
    rintro earlier later hafter ⟨e, he⟩
    exact h.ordered hafter he
  case unreadable => exact fun lease slot hslot => (h.tracked.slots lease slot hslot).endpoint_none
  case closing =>
    intro lease slot e hslot hreleased he
    obtain ⟨found, hfound, hplace⟩ := h.tracked.placed e lease he
    have : found = slot := Option.mem_unique hfound hslot
    subst this
    rcases hplace with hplace | hplace
    · rw [(h.tracked.slots lease found hslot).endpoint_none hreleased] at hplace
      cases hplace
    · exact hplace

/-! ## A lane comes to the end of its work -/

def workLeft (s : MediaDeviceArbiter) (lane : MediaDeviceLane) : Nat := ((s.work lane).map (·.weight)).sum

@[simp] theorem work_setWork {pieces : List LaneWork} : (s.setWork lane pieces).work lane = pieces := by
  simp [setWork]

/-- Some of the work gets done, whatever the backend answers. -/
theorem workLeft_runLane (hwork : s.work lane = work :: rest) (ok okSpeaker : Bool) :
    (s.runLane lane ok okSpeaker).workLeft lane < s.workLeft lane := by
  have hdone : ∀ arbiter : MediaDeviceArbiter, ∀ next : List LaneWork,
      (next.map (·.weight)).sum < work.weight →
        (arbiter.setWork lane (next ++ rest)).workLeft lane < s.workLeft lane := by
    intro arbiter next hlt
    simp only [workLeft, work_setWork, hwork, List.map_append, List.sum_append, List.map_cons, List.sum_cons]
    omega
  unfold MediaDeviceArbiter.runLane
  rw [hwork]
  dsimp only
  cases work with
  | «open» lease | openAgain lease =>
    dsimp only [perform]
    split_ifs
    · exact hdone _ [.opening lease s.nextEndpoint] (by simp)
    · exact hdone _ [] (by simp)
  | openDuplex mic speaker =>
    dsimp only [perform]
    split_ifs
    · exact hdone _ [.openingDuplex mic speaker s.nextEndpoint (s.nextEndpoint + 1)] (by simp)
    · exact hdone _ [] (by simp)
  | reopen lease =>
    dsimp only [perform]
    split_ifs
    · exact hdone _ [.take lease] (by simp)
    · exact hdone _ [] (by simp)
  | close e | closeHalf e => exact hdone (s.closed e) [] (by simp)
  | opening lease e =>
    dsimp only [perform]
    split_ifs
    · exact hdone _ [.opened lease (some e)] (by simp)
    · exact hdone _ [.opened lease none] (by simp)
  | opened lease endpoint =>
    dsimp only [perform]
    split_ifs
    · exact hdone _ [] (by simp)
    · refine hdone _ (endpoint.toList.map .close) ?_
      cases endpoint with
      | none | some e => simp
  | openingDuplex mic speaker em es =>
    cases ok with
    | true =>
      cases okSpeaker with
      | true => exact hdone _ [.openedDuplex mic speaker em es] (by simp)
      | false => exact hdone (s.closed es) [.closeHalf em] (by simp)
    | false =>
      cases okSpeaker with
      | true => exact hdone (s.closed em) [.closeHalf es] (by simp)
      | false => exact hdone ((s.closed em).closed es) [] (by simp)
  | openedDuplex mic speaker em es =>
    dsimp only [perform]
    split_ifs
    · exact hdone _ [.opened speaker (some es)] (by simp)
    · exact hdone _ [.closeThenOpened em speaker es] (by simp)
  | closeThenOpened e speaker es =>
    exact hdone (s.closed e) [.opened speaker (some es)] (by simp)
  | take lease =>
    dsimp only [perform]
    cases s.leases lease with
    | none => exact hdone s [] (by simp)
    | some slot => exact hdone _ [.settle lease slot.endpoint] (by simp)
  | settle lease endpoint =>
    exact hdone (s.closedAll endpoint.toList) [.openAgain lease] (by simp)

/-- The lane alone at work, the backend giving these answers. -/
def runOn (s : MediaDeviceArbiter) (lane : MediaDeviceLane) (answers : List (Bool × Bool)) : MediaDeviceArbiter :=
  (answers.map fun answer => Step.lane lane answer.1 answer.2).foldl step s

theorem Sound.runOn (h : s.Sound) : (s.runOn lane answers).Sound := by
  induction answers generalizing s with
  | nil => exact h
  | cons answer answers ih => exact ih (h.step (show s.QueuesInOrder (.lane lane answer.1 answer.2) from trivial))

theorem work_runOn (hlength : s.workLeft lane ≤ answers.length) : (s.runOn lane answers).work lane = [] := by
  have hidle : ∀ answers : List (Bool × Bool), ∀ t : MediaDeviceArbiter, t.work lane = [] →
      (t.runOn lane answers).work lane = [] := by
    intro answers
    induction answers with
    | nil => exact fun _ ht => ht
    | cons answer answers ih =>
      intro t ht
      apply ih
      show (t.runLane lane answer.1 answer.2).work lane = []
      unfold MediaDeviceArbiter.runLane
      rw [ht]
      exact ht
  induction answers generalizing s with
  | nil =>
    cases hwork : s.work lane with
    | nil => exact hwork
    | cons work rest =>
      have hpos : 0 < work.weight := by cases work <;> simp
      have hle : s.workLeft lane ≤ 0 := hlength
      simp only [workLeft, hwork, List.map_cons, List.sum_cons] at hle
      omega
  | cons answer answers ih =>
    cases hwork : s.work lane with
    | nil => exact hidle _ s hwork
    | cons work rest =>
      have hlt := workLeft_runLane hwork answer.1 answer.2
      apply ih
      show (s.runLane lane answer.1 answer.2).workLeft lane ≤ answers.length
      rw [List.length_cons] at hlength
      omega

/-- Once its release has come to its end, what a lease had open is closed when
the lane has done the work it has. -/
theorem Sound.drains (h : s.Sound) (hlength : s.workLeft lane ≤ answers.length)
    (hslot : (s.runOn lane answers).leases lease = some slot) (hlane : slot.kind.lane = lane)
    (hgone : slot.stage = .gone) : ∀ e, (s.runOn lane answers).openFor e ≠ some lease := by
  intro e he
  have hdone : (s.runOn lane answers).Sound := h.runOn
  have hreleased : slot.released ≠ none := by
    intro hnone
    rcases (hdone.tracked.slots lease slot hslot).released.mp hnone with hstage | hstage
    · simp [hgone] at hstage
    · simp [hgone] at hstage
  rcases hdone.devices.closing lease slot e hslot hreleased he with hclosing | ⟨work, hwork, -⟩
  · simp [hgone, LeaseStage.closing] at hclosing
  · rw [hlane, work_runOn hlength] at hwork
    cases hwork

/-- While no open is queued ahead of the close of a lease released before its
own was granted, a device of an exclusive kind is open once at most. -/
theorem devices_open_once (policy : MediaDeviceSharePolicy) (steps : List Step)
    (hrun : Admits step QueuesInOrder { policy } steps) :
    ∀ s ∈ states step { policy } steps, s.DevicesSound ∧
      ∀ lane answers, s.workLeft lane ≤ answers.length → ∀ lease slot,
        (s.runOn lane answers).leases lease = some slot → slot.kind.lane = lane → slot.stage = .gone →
          ∀ e, (s.runOn lane answers).openFor e ≠ some lease := by
  have hsound : ∀ s ∈ states step { policy } steps, Sound s :=
    hrun.invariant (fun _ _ h hok => h.step hok) (sound_start policy)
  intro s hs
  exact ⟨(hsound s hs).devices, fun lane answers hlength lease slot hslot hlane hgone =>
    (hsound s hs).drains hlength hslot hlane hgone⟩

section Examples

/-- One thread has the mic open. -/
def firstMic : List Step :=
  [.hold .mic false, .postOpen 1, .lane .audio true true, .lane .audio true true, .lane .audio true true]

/-- It gives the mic back, and another takes it. -/
theorem devices_open_once_again :
    (List.foldl step { policy := {} } (firstMic ++ [.release 1, .unhold 1, .hold .mic false, .postClose 1, .postOpen 2,
      .lane .audio true true, .lane .audio true true])).DevicesSound :=
  (devices_open_once {} _ (by decide) _ foldl_mem_states).1

/-- The other's open is queued before the close: the mic is open twice. -/
theorem mic_open_twice :
    ¬ ∀ (policy : MediaDeviceSharePolicy) (steps : List Step), ∀ s ∈ states step { policy } steps, s.DevicesSound := by
  intro hall
  have hsound := hall {} (firstMic ++ [.release 1, .unhold 1, .hold .mic false, .postOpen 2, .postClose 1,
    .lane .audio true true]) _ foldl_mem_states
  have hsame := hsound.exclusive 0 1 1 2 { kind := .mic, stage := .gone, released := some 2 }
    { kind := .mic, stage := .acquired } rfl rfl rfl rfl rfl rfl
  cases hsame

end Examples

end MediaDeviceArbiter
end Pbr
