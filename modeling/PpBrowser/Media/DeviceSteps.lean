import Mathlib.Tactic.SplitIfs
import PpBrowser.Media.MediaDeviceArbiter

/-!
# DeviceSteps — the kinds of step that keep the track

A lane's piece of work done, a lease's slot written, a task posted, a lease
granted, a lease given back unopened: each keeps every endpoint tracked, and
the closes before the later opens.
-/

namespace Pbr
namespace MediaDeviceArbiter

variable {s : MediaDeviceArbiter}

/-! ## A lane's piece of work done -/

/-- What doing the piece `work` of `lane` comes to: `next` of it is left, and
the endpoints `new` are opened. -/
structure Moves (s : MediaDeviceArbiter) (lane : MediaDeviceLane) (work : LaneWork) (next : List LaneWork)
    (openFor : Nat → Option Nat) (nextEndpoint : Nat) (new : List (Nat × Nat)) : Prop where
  le : s.nextEndpoint ≤ nextEndpoint
  opened : ∀ e lease, openFor e = some lease → s.openFor e = some lease ∨ (e, lease) ∈ new
  new_lt : ∀ x ∈ new, s.nextEndpoint ≤ x.1 ∧ x.1 < nextEndpoint
  new_lease : ∀ x ∈ new, x.2 ∈ work.leases ∧ ∀ e, s.openFor e ≠ some x.2
  new_wanted : ∀ x ∈ new, x.2 ∈ work.opens ∨ ∃ slot, s.leases x.2 = some slot ∧ slot.released = none
  new_inj : ∀ x ∈ new, ∀ y ∈ new, x.1 = y.1 ↔ x.2 = y.2
  new_next : ∀ x ∈ new, ∃ later ∈ next, x.1 ∈ later.endpoints
  length : next.length ≤ 1
  leases : ∀ later ∈ next, ∀ lease ∈ later.leases, lease ∈ work.leases
  opens : ∀ later ∈ next, later.opens = []
  owned : ∀ later ∈ next, ∀ x ∈ later.owned, s.Has x.1 x.2 ∨ x ∈ new
  endpoints : ∀ later ∈ next, ∀ e ∈ later.endpoints, e < nextEndpoint
  kept : ∀ e ∈ work.endpoints, ∀ lease, openFor e = some lease →
    (∃ slot, s.leases lease = some slot ∧ slot.endpoint = some e) ∨ ∃ later ∈ next, e ∈ later.endpoints
  closes : ∀ e, .close e ∈ next → ∀ lease slot, openFor e = some lease → s.leases lease = some slot →
    slot.released ≠ none
  again : ∀ lease, .openAgain lease ∈ next → ∀ slot, s.leases lease = some slot →
    slot.released ≠ none ∨ ∀ e, openFor e ≠ some lease
  settled : ∀ lease endpoint, .settle lease endpoint ∈ next → ∀ slot, s.leases lease = some slot →
    slot.released ≠ none ∨ ∀ e, openFor e = some lease → endpoint = some e

variable {lane lane' : MediaDeviceLane} {work : LaneWork} {rest next : List LaneWork}
  {openFor : Nat → Option Nat} {nextEndpoint : Nat} {new : List (Nat × Nat)}

/-- The arbiter after a piece of work of `lane`. -/
def moved (s : MediaDeviceArbiter) (lane : MediaDeviceLane) (work : List LaneWork) (openFor : Nat → Option Nat)
    (nextEndpoint : Nat) : MediaDeviceArbiter :=
  { s with work := Function.update s.work lane work, openFor, nextEndpoint }

variable {piece : LaneWork} {found : LeaseSlot} {other : Nat}

theorem head_mem (hwork : s.work lane = work :: rest) : work ∈ s.work lane := hwork ▸ List.mem_cons_self

theorem has_owned (hwork : s.work lane = work :: rest) : ∀ x ∈ work.owned, s.Has x.1 x.2 :=
  fun _ hx => .inr ⟨lane, work, head_mem hwork, hx⟩

theorem mem_moved (hwork : s.work lane = work :: rest)
    (h : piece ∈ (s.moved lane (next ++ rest) openFor nextEndpoint).work lane') :
    (lane' = lane ∧ (piece ∈ next ∨ piece ∈ rest ∧ piece ∈ s.work lane')) ∨
      (lane' ≠ lane ∧ piece ∈ s.work lane') := by
  by_cases hlane : lane' = lane
  · subst hlane
    left
    refine ⟨rfl, ?_⟩
    have hmem : piece ∈ next ++ rest := by simpa [moved] using h
    rcases List.mem_append.mp hmem with hnext | hrest
    · exact .inl hnext
    · exact .inr ⟨hrest, by rw [hwork]; exact List.mem_cons_of_mem _ hrest⟩
  · right
    refine ⟨hlane, ?_⟩
    simpa [moved, Function.update_of_ne hlane] using h

theorem has_moved (hwork : s.work lane = work :: rest) (hmoves : s.Moves lane work next openFor nextEndpoint new)
    {e lease : Nat} (h : (s.moved lane (next ++ rest) openFor nextEndpoint).Has e lease) :
    s.Has e lease ∨ (e, lease) ∈ new := by
  rcases h with ⟨slot, hslot, hin⟩ | ⟨lane', piece, hpiece, howned⟩
  · exact .inl (.inl ⟨slot, hslot, hin⟩)
  · rcases mem_moved hwork hpiece with ⟨-, hnext | ⟨-, hold⟩⟩ | ⟨-, hold⟩
    · exact hmoves.owned piece hnext _ howned
    · exact .inl (.inr ⟨lane', piece, hold, howned⟩)
    · exact .inl (.inr ⟨lane', piece, hold, howned⟩)

theorem Tracked.moved (h : s.Tracked) (hwork : s.work lane = work :: rest)
    (hmoves : s.Moves lane work next openFor nextEndpoint new) :
    (s.moved lane (next ++ rest) openFor nextEndpoint).Tracked := by
  have hhead := head_mem hwork
  -- a lease opened now is of this lane
  have hlane : ∀ x ∈ new, ∀ lane', ∀ piece ∈ s.work lane', x.2 ∈ piece.leases → lane' = lane := by
    intro x hx lane' piece hpiece hin
    obtain ⟨slot, hslot, -, hl⟩ := h.named lane work hhead x.2 (hmoves.new_lease x hx).1
    obtain ⟨slot', hslot', -, hl'⟩ := h.named lane' piece hpiece x.2 hin
    rw [hslot] at hslot'
    cases hslot'
    exact hl'.symm.trans hl
  have hrestTail : ∀ piece ∈ rest, piece.queued = true := by
    intro piece hpiece
    exact h.tail lane piece (by rw [hwork]; exact hpiece)
  have horder : (∀ later ∈ rest, ∀ lease ∈ work.leases, lease ∉ later.opens) ∧
      rest.Pairwise fun work later => ∀ lease ∈ work.leases, lease ∉ later.opens := by
    have := h.order lane
    rw [hwork] at this
    exact List.pairwise_cons.mp this
  have hnext : next = [] ∨ ∃ later, next = [later] := by
    cases hn : next with
    | nil => exact .inl rfl
    | cons later more =>
      have := hmoves.length
      rw [hn, List.length_cons] at this
      have hmore : more = [] := List.length_eq_zero_iff.mp (by omega)
      exact .inr ⟨later, by rw [hmore]⟩
  constructor
  case slots =>
    intro lease slot hslot
    exact (h.slots lease slot hslot).congr (Nat.le_refl _) id
  case held =>
    intro lease slot hslot hheld e he
    rcases hmoves.opened e lease he with hold | hnew
    · exact h.held lease slot hslot hheld e hold
    · obtain ⟨slot', hslot', hne, -⟩ := h.named lane work hhead lease (hmoves.new_lease _ hnew).1
      have : slot = slot' := Option.mem_unique hslot hslot'
      exact hne (this ▸ hheld)
  case lt =>
    intro e lease he
    rcases hmoves.opened e lease he with hold | hnew
    · exact Nat.lt_of_lt_of_le (h.lt e lease hold) hmoves.le
    · exact (hmoves.new_lt _ hnew).2
  case worked_lt =>
    intro lane' piece hpiece e he
    rcases mem_moved hwork hpiece with ⟨-, hin | ⟨-, hold⟩⟩ | ⟨-, hold⟩
    · exact hmoves.endpoints piece hin e he
    · exact Nat.lt_of_lt_of_le (h.worked_lt lane' piece hold e he) hmoves.le
    · exact Nat.lt_of_lt_of_le (h.worked_lt lane' piece hold e he) hmoves.le
  case has_lt =>
    intro e lease he
    rcases has_moved hwork hmoves he with hold | hnew
    · exact Nat.lt_of_lt_of_le (h.has_lt e lease hold) hmoves.le
    · exact (hmoves.new_lt _ hnew).2
  case owner =>
    intro e lease he lease' hopen
    rcases has_moved hwork hmoves he with hold | hnew
    · rcases hmoves.opened e lease' hopen with hopen | hopen
      · exact h.owner e lease hold lease' hopen
      · have := h.has_lt e lease hold
        have := (hmoves.new_lt _ hopen).1
        dsimp only at this
        omega
    · rcases hmoves.opened e lease' hopen with hopen | hopen
      · have := h.lt e lease' hopen
        have := (hmoves.new_lt _ hnew).1
        dsimp only at this
        omega
      · exact (hmoves.new_inj _ hopen _ hnew).mp rfl
  case placed =>
    intro e lease he
    rcases hmoves.opened e lease he with hold | hnew
    · obtain ⟨slot, hslot, hin⟩ := h.placed e lease hold
      refine ⟨slot, hslot, ?_⟩
      rcases hin with hin | hin | ⟨piece, hpiece, hin⟩
      · exact .inl hin
      · exact .inr (.inl hin)
      · by_cases hsame : slot.kind.lane = lane
        · rw [hsame, hwork] at hpiece
          rcases List.mem_cons.mp hpiece with rfl | hpiece
          · rcases hmoves.kept e hin lease he with ⟨slot', hslot', hin'⟩ | ⟨later, hlater, hin'⟩
            · have : slot' = slot := Option.mem_unique hslot' hslot
              exact .inl (this ▸ hin')
            · refine .inr (.inr ⟨later, ?_, hin'⟩)
              simp [MediaDeviceArbiter.moved, hsame, hlater]
          · refine .inr (.inr ⟨piece, ?_, hin⟩)
            simp [MediaDeviceArbiter.moved, hsame, hpiece]
        · refine .inr (.inr ⟨piece, ?_, hin⟩)
          simpa [MediaDeviceArbiter.moved, Function.update_of_ne hsame] using hpiece
    · obtain ⟨slot, hslot, -, hsame⟩ := h.named lane work hhead lease (hmoves.new_lease _ hnew).1
      obtain ⟨later, hlater, hin⟩ := hmoves.new_next _ hnew
      refine ⟨slot, hslot, .inr (.inr ⟨later, ?_, hin⟩)⟩
      simp [MediaDeviceArbiter.moved, hsame, hlater]
  case closes =>
    intro lane' e hclose lease slot he hslot
    have hold : .close e ∈ s.work lane' → slot.released ≠ none := by
      intro hin
      rcases hmoves.opened e lease he with hopen | hnew
      · exact h.closes lane' e hin lease slot hopen hslot
      · have := h.worked_lt lane' _ hin e (by simp)
        have := (hmoves.new_lt _ hnew).1
        dsimp only at this
        omega
    rcases mem_moved hwork hclose with ⟨-, hin | ⟨-, hin⟩⟩ | ⟨-, hin⟩
    · exact hmoves.closes e hin lease slot he hslot
    · exact hold hin
    · exact hold hin
  case named =>
    intro lane' piece hpiece lease hin
    rcases mem_moved hwork hpiece with ⟨rfl, hnext | ⟨-, hold⟩⟩ | ⟨-, hold⟩
    · exact h.named lane' work hhead lease (hmoves.leases piece hnext lease hin)
    · exact h.named lane' piece hold lease hin
    · exact h.named lane' piece hold lease hin
  case pairs =>
    intro lane' mic speaker hpair
    rcases mem_moved hwork hpair with ⟨-, hnext | ⟨-, hold⟩⟩ | ⟨-, hold⟩
    · cases hmoves.opens _ hnext
    · exact h.pairs lane' mic speaker hold
    · exact h.pairs lane' mic speaker hold
  case fresh =>
    intro lane' piece hpiece lease hin e he
    rcases mem_moved hwork hpiece with ⟨rfl, hnext | ⟨hrest, hold⟩⟩ | ⟨hne, hold⟩
    · rw [hmoves.opens _ hnext] at hin
      cases hin
    · rcases hmoves.opened e lease he with hopen | hnew
      · exact h.fresh lane' piece hold lease hin e hopen
      · exact horder.1 piece hrest lease (hmoves.new_lease _ hnew).1 hin
    · rcases hmoves.opened e lease he with hopen | hnew
      · exact h.fresh lane' piece hold lease hin e hopen
      · exact hne (hlane _ hnew lane' piece hold (LaneWork.mem_leases_of_opens hin))
  case order =>
    intro lane'
    by_cases hsame : lane' = lane
    · subst hsame
      rcases hnext with rfl | ⟨later, rfl⟩
      · simpa [MediaDeviceArbiter.moved] using horder.2
      · have hfirst : ∀ piece ∈ rest, ∀ lease ∈ later.leases, lease ∉ piece.opens := by
          intro piece hpiece lease hin
          exact horder.1 piece hpiece lease (hmoves.leases later List.mem_cons_self lease hin)
        simpa [MediaDeviceArbiter.moved] using And.intro hfirst horder.2
    · simpa [MediaDeviceArbiter.moved, Function.update_of_ne hsame] using h.order lane'
  case tail =>
    intro lane'
    by_cases hsame : lane' = lane
    · subst hsame
      rcases hnext with rfl | ⟨later, rfl⟩
      · intro piece hpiece
        have hpiece' : piece ∈ rest.tail := by simpa [MediaDeviceArbiter.moved] using hpiece
        exact hrestTail piece (List.mem_of_mem_tail hpiece')
      · intro piece hpiece
        exact hrestTail piece (by simpa [MediaDeviceArbiter.moved] using hpiece)
    · simpa [MediaDeviceArbiter.moved, Function.update_of_ne hsame] using h.tail lane'
  case single =>
    intro e e' lease he he'
    rcases hmoves.opened e lease he with hold | hnew
    · rcases hmoves.opened e' lease he' with hold' | hnew'
      · exact h.single e e' lease hold hold'
      · exact absurd hold ((hmoves.new_lease _ hnew').2 e)
    · rcases hmoves.opened e' lease he' with hold' | hnew'
      · exact absurd hold' ((hmoves.new_lease _ hnew).2 e')
      · exact (hmoves.new_inj _ hnew _ hnew').mpr rfl
  case again =>
    intro lane' lease hagain slot hslot
    rcases mem_moved hwork hagain with ⟨-, hnext | ⟨hrest, -⟩⟩ | ⟨hne, hold⟩
    · exact hmoves.again lease hnext slot hslot
    · have := hrestTail _ hrest
      cases this
    · rcases h.again lane' lease hold slot hslot with hreleased | hnone
      · exact .inl hreleased
      · right
        intro e he
        rcases hmoves.opened e lease he with hopen | hnew
        · exact hnone e hopen
        · exact hne (hlane _ hnew lane' _ hold (by simp))
  case settled =>
    intro lane' lease endpoint hsettle slot hslot
    rcases mem_moved hwork hsettle with ⟨-, hnext | ⟨hrest, -⟩⟩ | ⟨hne, hold⟩
    · exact hmoves.settled lease endpoint hnext slot hslot
    · have := hrestTail _ hrest
      cases this
    · rcases h.settled lane' lease endpoint hold slot hslot with hreleased | hall
      · exact .inl hreleased
      · right
        intro e he
        rcases hmoves.opened e lease he with hopen | hnew
        · exact hall e hopen
        · exact absurd (hlane _ hnew lane' _ hold (by simp)) hne

/-- Endpoints that were known already: what a lane is about only shrinks. -/
theorem about_of_about (h : s.Tracked) {openFor : Nat → Option Nat} {new : List (Nat × Nat)}
    (hopened : ∀ e lease, openFor e = some lease → s.openFor e = some lease ∨ (e, lease) ∈ new)
    (hnew : ∀ x ∈ new, s.nextEndpoint ≤ x.1) (hpiece : piece ∈ s.work lane) {earlier : Nat}
    (habout : earlier ∈ piece.opens ∨ ∃ e, piece = .close e ∧ openFor e = some earlier) : s.About earlier piece := by
  rcases habout with hopens | ⟨e, rfl, he⟩
  · exact .inl hopens
  · rcases hopened e earlier he with hold | hin
    · exact .inr ⟨e, rfl, hold⟩
    · have := h.worked_lt lane _ hpiece e (by simp)
      have := hnew _ hin
      dsimp only at this
      omega

/-- One piece of work does not open two leases of one kind. -/
theorem Tracked.opens_apart (h : s.Tracked) (hhead : work ∈ s.work lane) {earlier later : Nat}
    (hopening : later ∈ work.opens) {r l : LeaseSlot} (hr : s.leases earlier = some r) (hl : s.leases later = some l)
    (hkind : r.kind = l.kind) (hne : earlier ≠ later) : earlier ∉ work.opens := by
  intro hboth
  cases work with
  | «open» lease =>
    have h1 : earlier = lease := by simpa using hboth
    have h2 : later = lease := by simpa using hopening
    exact hne (h1.trans h2.symm)
  | openDuplex mic speaker =>
    have h1 : earlier = mic ∨ earlier = speaker := by simpa using hboth
    have h2 : later = mic ∨ later = speaker := by simpa using hopening
    have hkinds := h.pairs lane mic speaker hhead
    rcases h1 with rfl | rfl
    · rcases h2 with rfl | rfl
      · exact hne rfl
      · obtain ⟨hm, hp⟩ := hkinds r l hr hl
        rw [hkind, hp] at hm
        cases hm
    · rcases h2 with rfl | rfl
      · obtain ⟨hm, hp⟩ := hkinds l r hl hr
        rw [hkind, hm] at hp
        cases hp
      · exact hne rfl
  | _ => cases hopening

/-- When the open of `later` comes up, every close of `earlier` was ahead of
it: nothing of `earlier` is open, and nothing of it is to be opened. -/
theorem InOrder.opens_alone (h : s.InOrder) (ht : s.Tracked) (hwork : s.work lane = work :: rest)
    {earlier later : Nat} (hopening : later ∈ work.opens) {r l : LeaseSlot} {n : Nat}
    (hr : s.leases earlier = some r) (hl : s.leases later = some l) (hkind : r.kind = l.kind)
    (hreleased : r.released = some n) (hn : n ≤ later) :
    (∀ e, s.openFor e ≠ some earlier) ∧ ∀ piece ∈ rest, earlier ∉ piece.opens := by
  have hhead := head_mem hwork
  have hin : later ∈ work.leases := LaneWork.mem_leases_of_opens hopening
  obtain ⟨l', hl', hstage, hlane⟩ := ht.named lane work hhead later hin
  have : l' = l := Option.mem_unique hl' hl
  subst this
  obtain ⟨hclosing, hpairs, -⟩ :=
    h.before earlier later ⟨r, l', n, hr, hl, hkind, hreleased, hn⟩ r l' hr hl hstage
  rw [hlane, hwork] at hpairs
  have hfirst := (List.pairwise_cons.mp hpairs).1
  constructor
  · intro e he
    obtain ⟨slot, hslot, hplace⟩ := ht.placed e earlier he
    have : slot = r := Option.mem_unique hslot hr
    subst this
    rcases hplace with hplace | hplace | ⟨piece, hpiece, hplace⟩
    · rw [(ht.slots earlier slot hr).endpoint_none (by simp [hreleased])] at hplace
      cases hplace
    · rw [hclosing] at hplace
      cases hplace
    · rw [hkind, hlane, hwork] at hpiece
      rcases List.mem_cons.mp hpiece with rfl | hpiece
      · rw [LaneWork.endpoints_of_opens hopening] at hplace
        cases hplace
      · have hqueued := ht.tail lane piece (by rw [hwork]; exact hpiece)
        exact hfirst piece hpiece hin (.inr ⟨e, LaneWork.close_of_queued hqueued hplace, he⟩)
  · exact fun piece hpiece hopens => hfirst piece hpiece hin (.inl hopens)

theorem InOrder.moved (h : s.InOrder) (ht : s.Tracked) (hwork : s.work lane = work :: rest)
    (hmoves : s.Moves lane work next openFor nextEndpoint new) :
    (s.moved lane (next ++ rest) openFor nextEndpoint).InOrder := by
  have hhead := head_mem hwork
  have hmono : ∀ (lane' : MediaDeviceLane) (piece : LaneWork), piece ∈ s.work lane' → ∀ earlier,
      (s.moved lane (next ++ rest) openFor nextEndpoint).About earlier piece → s.About earlier piece :=
    fun _ _ hpiece _ habout => about_of_about ht hmoves.opened (fun x hx => (hmoves.new_lt x hx).1) hpiece habout
  constructor
  case exclusive => exact h.exclusive
  case before =>
    intro earlier later hafter slot slot' hslot hslot' hstage
    obtain ⟨r, l, n, hr, hl, hkind, hreleased, hn⟩ := hafter
    have hrs : r = slot := Option.mem_unique hr hslot
    have hls : l = slot' := Option.mem_unique hl hslot'
    subst hrs hls
    obtain ⟨hclosing, hpairs, hbegun⟩ :=
      h.before earlier later ⟨r, l, n, hr, hl, hkind, hreleased, hn⟩ r l hslot hslot' hstage
    have hlt := (ht.slots earlier r hr).after n hreleased
    have hreleased' : r.released ≠ none := by simp [hreleased]
    -- nothing is opened for a lease that was released, unless its own open is on the way
    have hnot : ∀ e, (e, earlier) ∈ new → earlier ∈ work.opens := by
      intro e he
      rcases hmoves.new_wanted _ he with hin | ⟨slot, hslot, hnone⟩
      · exact hin
      · have : slot = r := Option.mem_unique hslot hr
        exact absurd (this ▸ hnone) hreleased'
    refine ⟨hclosing, ?_, ?_⟩
    · by_cases hsame : l.kind.lane = lane
      · have hrest : (work :: rest).Pairwise (fun work next => later ∈ work.leases → ¬ s.About earlier next) := by
          rw [← hwork, ← hsame]
          exact hpairs
        obtain ⟨hfirst, hrest⟩ := List.pairwise_cons.mp hrest
        have hkept : ∀ piece ∈ rest,
            (s.moved lane (next ++ rest) openFor nextEndpoint).About earlier piece → s.About earlier piece := by
          intro piece hpiece
          exact hmono lane piece (by rw [hwork]; exact List.mem_cons_of_mem _ hpiece) earlier
        have hrest' : rest.Pairwise fun work piece => later ∈ work.leases →
            ¬ (s.moved lane (next ++ rest) openFor nextEndpoint).About earlier piece :=
          hrest.imp_of_mem fun _ hpiece hpair hin habout => hpair hin (hkept _ hpiece habout)
        have hgoal : (next ++ rest).Pairwise fun work piece => later ∈ work.leases →
            ¬ (s.moved lane (next ++ rest) openFor nextEndpoint).About earlier piece := by
          refine List.pairwise_append.mpr ⟨?_, hrest', ?_⟩
          · have hlen := hmoves.length
            match hn : next, hlen with
            | [], _ => exact List.Pairwise.nil
            | [_], _ => exact List.pairwise_singleton _ _
          · intro piece hpiece last hlast hin habout
            exact hfirst last hlast (hmoves.leases piece hpiece later hin) (hkept last hlast habout)
        simpa [MediaDeviceArbiter.moved, hsame] using hgoal
      · have hgoal : (s.work l.kind.lane).Pairwise fun work piece => later ∈ work.leases →
            ¬ (s.moved lane (next ++ rest) openFor nextEndpoint).About earlier piece :=
          hpairs.imp_of_mem fun _ hpiece hpair hin habout => hpair hin (hmono _ _ hpiece earlier habout)
        simpa [MediaDeviceArbiter.moved, Function.update_of_ne hsame] using hgoal
    · intro hnone
      by_cases hsame : l.kind.lane = lane
      · have hnone' : ∀ piece ∈ next ++ rest, later ∉ piece.opens := by
          simpa [MediaDeviceArbiter.moved, hsame] using hnone
        by_cases hopening : later ∈ work.opens
        · -- the open of `later` begins
          obtain ⟨hclosed, hrest⟩ := h.opens_alone ht hwork hopening hr hl hkind hreleased hn
          have hapart := ht.opens_apart hhead hopening hr hl hkind (by omega)
          constructor
          · intro e he
            rcases hmoves.opened e earlier he with hold | hnew
            · exact hclosed e hold
            · exact hapart (hnot e hnew)
          · intro piece hpiece hopens
            have hpiece' : piece ∈ next ++ rest := by simpa [MediaDeviceArbiter.moved, hsame] using hpiece
            rcases List.mem_append.mp hpiece' with hnext | hrest'
            · rw [hmoves.opens piece hnext] at hopens
              cases hopens
            · exact hrest piece hrest' hopens
        · have hold := hbegun (by
            intro piece hpiece
            rw [hsame, hwork] at hpiece
            rcases List.mem_cons.mp hpiece with rfl | hpiece
            · exact hopening
            · exact hnone' piece (List.mem_append_right _ hpiece))
          constructor
          · intro e he
            rcases hmoves.opened e earlier he with hopen | hnew
            · exact hold.1 e hopen
            · exact hold.2 work (hsame ▸ hhead) (hnot e hnew)
          · intro piece hpiece hopens
            have hpiece' : piece ∈ next ++ rest := by simpa [MediaDeviceArbiter.moved, hsame] using hpiece
            rcases List.mem_append.mp hpiece' with hnext | hrest
            · rw [hmoves.opens piece hnext] at hopens
              cases hopens
            · exact hold.2 piece (by rw [hsame, hwork]; exact List.mem_cons_of_mem _ hrest) hopens
      · have hother : (s.moved lane (next ++ rest) openFor nextEndpoint).work l.kind.lane = s.work l.kind.lane := by
          simp [MediaDeviceArbiter.moved, Function.update_of_ne hsame]
        rw [hother] at hnone ⊢
        have hold := hbegun hnone
        refine ⟨fun e he => ?_, hold.2⟩
        rcases hmoves.opened e earlier he with hopen | hnew
        · exact hold.1 e hopen
        · obtain ⟨slot, hslot', -, hlane'⟩ := ht.named lane work hhead earlier (hmoves.new_lease _ hnew).1
          have : slot = r := Option.mem_unique hslot' hr
          subst this
          exact hsame (hkind ▸ hlane')

/-! ## Slots written -/

/-- What the slot of a lease may become while no task is posted. -/
structure SlotKept (s : MediaDeviceArbiter) (old found : LeaseSlot) : Prop where
  kind : found.kind = old.kind
  stage : found.stage = .held ↔ old.stage = .held
  released : ∀ n, old.released = some n → found.released = some n
  now : ∀ n, found.released = some n → old.released = some n ∨ s.nextId ≤ n
  closing : old.released ≠ none → old.stage.closing = none → found.stage.closing = none

/-- The slot of a lease just granted. -/
structure SlotNew (s : MediaDeviceArbiter) (lease : Nat) (found : LeaseSlot) : Prop where
  lease : lease = s.nextId
  held : found.stage = .held
  released : found.released = none
  alone : s.policy.exclusive found.kind = true → ∀ holder ∈ s.holders, holder.1 ≠ found.kind

/-- Only slots are written: the lanes keep their work, and no endpoint opens. -/
structure Reslots (s t : MediaDeviceArbiter) : Prop where
  work : t.work = s.work
  policy : t.policy = s.policy
  nextEndpoint : t.nextEndpoint = s.nextEndpoint
  opened : ∀ e lease, t.openFor e = some lease → s.openFor e = some lease
  sound : ∀ lease found, t.leases lease = some found → SlotSound t lease found
  old : ∀ lease found, t.leases lease = some found →
    (∃ old, s.leases lease = some old ∧ s.SlotKept old found) ∨ s.SlotNew lease found
  kept : ∀ lease old, s.leases lease = some old → old.stage ≠ .held ∨ (∃ e, s.openFor e = some lease) →
    ∃ found, t.leases lease = some found
  has : ∀ lease found, t.leases lease = some found → ∀ e, found.endpoint = some e ∨ found.stage.closing = some e →
    s.Has e lease
  placed : ∀ e lease old found, t.openFor e = some lease → s.leases lease = some old → t.leases lease = some found →
    old.endpoint = some e ∨ old.stage.closing = some e →
      found.endpoint = some e ∨ found.stage.closing = some e ∨ ∃ work ∈ s.work old.kind.lane, e ∈ work.endpoints

variable {t : MediaDeviceArbiter} {before : LeaseSlot} {lease : Nat}

theorem slotKept_self : s.SlotKept found found where
  kind := rfl
  stage := Iff.rfl
  released := fun _ => id
  now := fun _ => .inl
  closing := fun _ => id

theorem SlotKept.released_ne (h : s.SlotKept before found) (hne : before.released ≠ none) : found.released ≠ none := by
  obtain ⟨n, hn⟩ := Option.ne_none_iff_exists'.mp hne
  simp [h.released n hn]

theorem Reslots.slot (hr : s.Reslots t) (h : s.Tracked) (hold : s.leases lease = some before)
    (hfound : t.leases lease = some found) : s.SlotKept before found := by
  rcases hr.old lease found hfound with ⟨old, hold', hkept⟩ | hnew
  · exact Option.mem_unique hold' hold ▸ hkept
  · exact absurd hnew.lease (Nat.ne_of_lt (h.slots lease before hold).lt)

theorem Tracked.reslot (h : s.Tracked) (hr : s.Reslots t) : t.Tracked := by
  have hhas : ∀ e lease, t.Has e lease → s.Has e lease := by
    intro e lease hin
    rcases hin with ⟨found, hfound, hin⟩ | hin
    · exact hr.has lease found hfound e hin
    · rw [hr.work] at hin
      exact .inr hin
  -- the lease of a piece of work had a slot, and has one still
  have hnamed : ∀ lane, ∀ piece ∈ s.work lane, ∀ lease ∈ piece.leases, ∀ found, t.leases lease = some found →
      ∃ old, s.leases lease = some old ∧ s.SlotKept old found := by
    intro lane piece hpiece lease hin found hfound
    obtain ⟨old, hold, -⟩ := h.named lane piece hpiece lease hin
    exact ⟨old, hold, hr.slot h hold hfound⟩
  have hopen : ∀ e lease, t.openFor e = some lease → ∀ found, t.leases lease = some found →
      ∃ old, s.leases lease = some old ∧ s.SlotKept old found := by
    intro e lease he found hfound
    obtain ⟨old, hold, -⟩ := h.placed e lease (hr.opened e lease he)
    exact ⟨old, hold, hr.slot h hold hfound⟩
  constructor
  case slots => exact hr.sound
  case held =>
    intro lease found hfound hheld e he
    obtain ⟨old, hold, hkept⟩ := hopen e lease he found hfound
    exact h.held lease old hold (hkept.stage.mp hheld) e (hr.opened e lease he)
  case lt =>
    rw [hr.nextEndpoint]
    exact fun e lease he => h.lt e lease (hr.opened e lease he)
  case worked_lt =>
    rw [hr.work, hr.nextEndpoint]
    exact h.worked_lt
  case has_lt =>
    rw [hr.nextEndpoint]
    exact fun e lease hin => h.has_lt e lease (hhas e lease hin)
  case owner => exact fun e lease hin lease' he => h.owner e lease (hhas e lease hin) lease' (hr.opened e lease' he)
  case placed =>
    intro e lease he
    obtain ⟨old, hold, hplace⟩ := h.placed e lease (hr.opened e lease he)
    obtain ⟨found, hfound⟩ := hr.kept lease old hold (.inr ⟨e, hr.opened e lease he⟩)
    refine ⟨found, hfound, ?_⟩
    rw [(hr.slot h hold hfound).kind, hr.work]
    rcases or_assoc.mpr hplace with hplace | hplace
    · exact hr.placed e lease old found he hold hfound hplace
    · exact .inr (.inr hplace)
  case closes =>
    rw [hr.work]
    intro lane e hclose lease found he hfound
    obtain ⟨old, hold, hkept⟩ := hopen e lease he found hfound
    exact hkept.released_ne (h.closes lane e hclose lease old (hr.opened e lease he) hold)
  case named =>
    rw [hr.work]
    intro lane piece hpiece lease hin
    obtain ⟨old, hold, hstage, hlane⟩ := h.named lane piece hpiece lease hin
    obtain ⟨found, hfound⟩ := hr.kept lease old hold (.inl hstage)
    have hkept := hr.slot h hold hfound
    exact ⟨found, hfound, mt hkept.stage.mp hstage, by rw [hkept.kind]; exact hlane⟩
  case pairs =>
    rw [hr.work]
    intro lane mic speaker hpair micSlot speakerSlot hmic hspeaker
    obtain ⟨oldMic, holdMic, hmicKept⟩ := hnamed lane _ hpair mic (by simp) micSlot hmic
    obtain ⟨oldSpeaker, holdSpeaker, hspeakerKept⟩ := hnamed lane _ hpair speaker (by simp) speakerSlot hspeaker
    rw [hmicKept.kind, hspeakerKept.kind]
    exact h.pairs lane mic speaker hpair oldMic oldSpeaker holdMic holdSpeaker
  case fresh =>
    rw [hr.work]
    exact fun lane piece hpiece lease hin e he => h.fresh lane piece hpiece lease hin e (hr.opened e lease he)
  case order =>
    rw [hr.work]
    exact h.order
  case tail =>
    rw [hr.work]
    exact h.tail
  case single => exact fun e e' lease he he' => h.single e e' lease (hr.opened e lease he) (hr.opened e' lease he')
  case again =>
    rw [hr.work]
    intro lane lease hagain found hfound
    obtain ⟨old, hold, hkept⟩ := hnamed lane _ hagain lease (by simp) found hfound
    rcases h.again lane lease hagain old hold with hreleased | hnone
    · exact .inl (hkept.released_ne hreleased)
    · exact .inr fun e he => hnone e (hr.opened e lease he)
  case settled =>
    rw [hr.work]
    intro lane lease endpoint hsettle found hfound
    obtain ⟨old, hold, hkept⟩ := hnamed lane _ hsettle lease (by simp) found hfound
    rcases h.settled lane lease endpoint hsettle old hold with hreleased | hall
    · exact .inl (hkept.released_ne hreleased)
    · exact .inr fun e he => hall e (hr.opened e lease he)

theorem InOrder.reslot (h : s.InOrder) (ht : s.Tracked) (hr : s.Reslots t) : t.InOrder := by
  constructor
  case before =>
    intro earlier later ⟨r', l', n, hr', hl', hkind, hreleased, hn⟩ r l hearlier hlater hstage
    obtain rfl := Option.mem_unique hr' hearlier
    obtain rfl := Option.mem_unique hl' hlater
    rcases hr.old earlier r' hr' with ⟨oldR, holdR, hkeptR⟩ | hnew
    · rcases hr.old later l' hl' with ⟨oldL, holdL, hkeptL⟩ | hnew
      · have hreleasedR : oldR.released = some n := by
          rcases hkeptR.now n hreleased with hsame | hlate
          · exact hsame
          · have := (ht.slots later oldL holdL).lt
            omega
        have hafter : s.GrantedAfter earlier later :=
          ⟨oldR, oldL, n, holdR, holdL, by rw [← hkeptR.kind, ← hkeptL.kind]; exact hkind, hreleasedR, hn⟩
        obtain ⟨hnone, hpairs, hbegun⟩ :=
          h.before earlier later hafter oldR oldL holdR holdL (mt hkeptL.stage.mpr hstage)
        rw [hkeptL.kind, hr.work]
        refine ⟨hkeptR.closing (by simp [hreleasedR]) hnone, ?_, ?_⟩
        · apply hpairs.imp
          intro piece next hpair hin habout
          apply hpair hin
          rcases habout with hopens | ⟨e, hclose, he⟩
          · exact .inl hopens
          · exact .inr ⟨e, hclose, hr.opened e earlier he⟩
        · intro hnone
          obtain ⟨hno, hnone'⟩ := hbegun hnone
          exact ⟨fun e he => hno e (hr.opened e earlier he), hnone'⟩
      · exact absurd hnew.held hstage
    · rw [hnew.released] at hreleased
      cases hreleased
  case exclusive =>
    rw [hr.policy]
    intro earlier later r l hearlier hlater hkind hexclusive hlt
    rcases hr.old earlier r hearlier with ⟨oldR, holdR, hkeptR⟩ | hnewR
    · rcases hr.old later l hlater with ⟨oldL, holdL, hkeptL⟩ | hnewL
      · obtain ⟨n, hn, hle⟩ := h.exclusive earlier later oldR oldL holdR holdL
          (by rw [← hkeptR.kind, ← hkeptL.kind]; exact hkind) (by rw [← hkeptR.kind]; exact hexclusive) hlt
        exact ⟨n, hkeptR.released n hn, hle⟩
      · -- granted now: every earlier lease of this kind has freed its place
        have hsound := ht.slots earlier oldR holdR
        have hnot : (oldR.kind, earlier) ∉ s.holders := by
          intro hin
          rw [hkind] at hexclusive
          exact hnewL.alone hexclusive _ hin (hkeptR.kind.symm.trans hkind)
        cases hreleased : oldR.released with
        | none =>
          rcases hsound.released.mp hreleased with hstage | hstage
          · exact absurd (hsound.holder (.inl hstage)) hnot
          · exact absurd (hsound.holder (.inr (.inl hstage))) hnot
        | some n => exact ⟨n, hkeptR.released n hreleased, hnewL.lease ▸ (hsound.after n hreleased).2⟩
    · rw [hnewR.lease] at hlt
      rcases hr.old later l hlater with ⟨oldL, holdL, -⟩ | hnewL
      · exact absurd (ht.slots later oldL holdL).lt (Nat.not_lt_of_gt hlt)
      · exact absurd hnewL.lease (Nat.ne_of_gt hlt)

/-! ## A lease's slot written -/

/-- What a lease's slot may become while nothing is posted. -/
structure Rewrites (s : MediaDeviceArbiter) (lease : Nat) (slot slot' : LeaseSlot)
    (holders : List (MediaDeviceKind × Nat)) (openFor : Nat → Option Nat) : Prop where
  found : s.leases lease = some slot
  kind : slot'.kind = slot.kind
  stage : slot.stage ≠ .held ∧ slot'.stage ≠ .held
  sound : SlotSound { s with holders } lease slot'
  others : ∀ other, other ≠ lease → ∀ kind, (kind, other) ∈ s.holders → (kind, other) ∈ holders
  opened : ∀ e other, openFor e = some other → s.openFor e = some other
  released : ∀ n, slot.released = some n → slot'.released = some n
  now : ∀ n, slot'.released = some n → slot.released = some n ∨ s.nextId ≤ n
  closing : slot.released ≠ none → slot.stage.closing = none → slot'.stage.closing = none
  has : ∀ e, slot'.endpoint = some e ∨ slot'.stage.closing = some e → s.Has e lease
  kept : ∀ e, slot.endpoint = some e ∨ slot.stage.closing = some e → openFor e = some lease →
    slot'.endpoint = some e ∨ slot'.stage.closing = some e ∨ ∃ work ∈ s.work slot.kind.lane, e ∈ work.endpoints

def rewritten (s : MediaDeviceArbiter) (lease : Nat) (slot' : LeaseSlot)
    (holders : List (MediaDeviceKind × Nat)) (openFor : Nat → Option Nat) : MediaDeviceArbiter :=
  { s with leases := Function.update s.leases lease (some slot'), holders, openFor }

variable {slot slot' : LeaseSlot} {holders : List (MediaDeviceKind × Nat)}

theorem leases_rewritten (h : (s.rewritten lease slot' holders openFor).leases other = some found) :
    (other = lease ∧ found = slot') ∨ (other ≠ lease ∧ s.leases other = some found) := by
  by_cases hsame : other = lease
  · subst hsame
    left
    have : some slot' = some found := by simpa [rewritten] using h
    exact ⟨rfl, (Option.some.inj this).symm⟩
  · right
    exact ⟨hsame, by simpa [rewritten, Function.update_of_ne hsame] using h⟩

theorem Rewrites.reslots (hslot : s.Rewrites lease slot slot' holders openFor) (h : s.Tracked) :
    s.Reslots (s.rewritten lease slot' holders openFor) := by
  constructor
  case work | policy | nextEndpoint => rfl
  case opened => exact hslot.opened
  case sound =>
    intro other found hfound
    rcases leases_rewritten hfound with ⟨rfl, rfl⟩ | ⟨hne, hold⟩
    · exact hslot.sound.congr (Nat.le_refl _) id
    · exact (h.slots other found hold).congr (Nat.le_refl _) (hslot.others other hne _)
  case old =>
    intro other found hfound
    rcases leases_rewritten hfound with ⟨rfl, rfl⟩ | ⟨-, hold⟩
    · exact .inl ⟨slot, hslot.found, hslot.kind, iff_of_false hslot.stage.2 hslot.stage.1, hslot.released, hslot.now,
        hslot.closing⟩
    · exact .inl ⟨found, hold, slotKept_self⟩
  case kept =>
    intro other old hold _
    by_cases hsame : other = lease
    · subst hsame
      exact ⟨slot', by simp [MediaDeviceArbiter.rewritten]⟩
    · exact ⟨old, by simpa [MediaDeviceArbiter.rewritten, Function.update_of_ne hsame] using hold⟩
  case has =>
    intro other found hfound e hin
    rcases leases_rewritten hfound with ⟨rfl, rfl⟩ | ⟨-, hold⟩
    · exact hslot.has e hin
    · exact .inl ⟨found, hold, hin⟩
  case placed =>
    intro e other old found he hold hfound hplace
    rcases leases_rewritten hfound with ⟨rfl, rfl⟩ | ⟨-, hsame⟩
    · obtain rfl := Option.mem_unique hold hslot.found
      exact hslot.kept e hplace he
    · obtain rfl := Option.mem_unique hold hsame
      exact hplace.imp_right .inl

/-! ## A task posted -/

/-- A task that may be queued on `lane`; the leases it opens are held no longer
without an open. -/
structure Posts (s : MediaDeviceArbiter) (lane : MediaDeviceLane) (task : LaneWork)
    (leases : Nat → Option LeaseSlot) : Prop where
  queued : task.queued = true
  slots : ∀ other, leases other = s.leases other ∨ other ∈ task.opens ∧ ∃ slot, s.leases other = some slot ∧
    leases other = some { slot with stage := .acquired }
  opens : ∀ other ∈ task.opens, ∃ slot, s.leases other = some slot ∧ slot.stage = .held
  named : ∀ other ∈ task.leases, ∃ slot, leases other = some slot ∧ slot.stage ≠ .held ∧ slot.kind.lane = lane
  pairs : ∀ mic speaker, task = .openDuplex mic speaker → ∀ micSlot speakerSlot,
    s.leases mic = some micSlot → s.leases speaker = some speakerSlot →
      micSlot.kind = .mic ∧ speakerSlot.kind = .speaker
  closes : ∀ e, task = .close e → e < s.nextEndpoint ∧
    ∀ other slot, s.openFor e = some other → s.leases other = some slot → slot.stage.closing = some e

def posted (s : MediaDeviceArbiter) (lane : MediaDeviceLane) (task : LaneWork) (leases : Nat → Option LeaseSlot) :
    MediaDeviceArbiter :=
  { s with leases, work := Function.update s.work lane (s.work lane ++ [task]) }

variable {task : LaneWork} {leases : Nat → Option LeaseSlot}

@[simp] theorem work_posted : (s.posted lane task leases).work lane = s.work lane ++ [task] := by
  simp [posted]

theorem work_posted_ne (h : lane' ≠ lane) : (s.posted lane task leases).work lane' = s.work lane' := by
  simp [posted, Function.update_of_ne h]

theorem mem_posted (h : piece ∈ (s.posted lane task leases).work lane') :
    piece ∈ s.work lane' ∨ lane' = lane ∧ piece = task := by
  by_cases hsame : lane' = lane
  · subst hsame
    have hmem : piece ∈ s.work lane' ∨ piece = task := by simpa [posted] using h
    rcases hmem with hold | rfl
    · exact .inl hold
    · exact .inr ⟨rfl, rfl⟩
  · exact .inl (by simpa [posted, Function.update_of_ne hsame] using h)

theorem mem_posted_of (h : piece ∈ s.work lane') : piece ∈ (s.posted lane task leases).work lane' := by
  by_cases hsame : lane' = lane
  · subst hsame
    simp [posted, h]
  · simpa [posted, Function.update_of_ne hsame] using h

theorem Posts.old (h : s.Posts lane task leases)
    (hfound : leases other = some found) : ∃ old, s.leases other = some old ∧ found.kind = old.kind ∧
      found.released = old.released ∧ found.endpoint = old.endpoint ∧ found.stage.closing = old.stage.closing ∧
      (found = old ∨ old.stage = .held ∧ found.stage = .acquired ∧ other ∈ task.opens) := by
  rcases h.slots other with hsame | ⟨hin, old, hold, hnew⟩
  · rw [hsame] at hfound
    exact ⟨found, hfound, rfl, rfl, rfl, rfl, .inl rfl⟩
  · obtain ⟨held, hheld, hstage⟩ := h.opens other hin
    have : held = old := Option.mem_unique hheld hold
    subst this
    rw [hnew] at hfound
    cases hfound
    exact ⟨held, hold, rfl, rfl, rfl, by simp [hstage, LeaseStage.closing], .inr ⟨hstage, rfl, hin⟩⟩

theorem Posts.after (h : s.Posts lane task leases) {old : LeaseSlot}
    (hold : s.leases other = some old) : ∃ found, leases other = some found ∧ found.kind = old.kind ∧
      found.endpoint = old.endpoint ∧ (found = old ∨ old.stage = .held ∧ found.stage = .acquired) := by
  rcases h.slots other with hsame | ⟨hin, slot, hslot, hnew⟩
  · exact ⟨old, hsame.trans hold, rfl, rfl, .inl rfl⟩
  · obtain ⟨held, hheld, hstage⟩ := h.opens other hin
    have : held = old := Option.mem_unique hheld hold
    subst this
    have : slot = held := Option.mem_unique hslot hold
    subst this
    exact ⟨_, hnew, rfl, rfl, .inr ⟨hstage, rfl⟩⟩

theorem Tracked.posted (h : s.Tracked) (hposts : s.Posts lane task leases) : (s.posted lane task leases).Tracked := by
  have hclose : ∀ e ∈ task.endpoints, task = .close e := fun e he => LaneWork.close_of_queued hposts.queued he
  have howned : task.owned = [] := by
    have hq := hposts.queued
    cases task <;> simp_all
  have hhas : ∀ e other, (s.posted lane task leases).Has e other → s.Has e other := by
    intro e other hin
    rcases hin with ⟨found, hfound, hin⟩ | ⟨lane', piece, hpiece, hin⟩
    · obtain ⟨old, hold, -, -, hendpoint, hclosing, -⟩ := hposts.old hfound
      left
      refine ⟨old, hold, ?_⟩
      rwa [hendpoint, hclosing] at hin
    · rcases mem_posted hpiece with hold | ⟨-, rfl⟩
      · exact .inr ⟨lane', piece, hold, hin⟩
      · rw [howned] at hin
        cases hin
  constructor
  case slots =>
    intro other found hfound
    obtain ⟨old, hold, hkind, hreleased, hendpoint, -, rfl | ⟨hstage, hnow, -⟩⟩ := hposts.old hfound
    · exact (h.slots other found hold).congr (Nat.le_refl _) id
    · have hsound := h.slots other old hold
      constructor
      case lt => exact hsound.lt
      case released =>
        rw [hreleased, hsound.released]
        simp [hstage, hnow]
      case after =>
        rw [hreleased]
        exact hsound.after
      case endpoint => exact fun _ => hnow
      case holder =>
        rw [hkind]
        exact fun _ => hsound.holder (.inl hstage)
  case held =>
    intro other found hfound hheld
    obtain ⟨old, hold, -, -, -, -, rfl | ⟨-, hnow, -⟩⟩ := hposts.old hfound
    · exact h.held other found hold hheld
    · rw [hnow] at hheld
      cases hheld
  case lt => exact h.lt
  case worked_lt =>
    intro lane' piece hpiece e he
    rcases mem_posted hpiece with hold | ⟨-, rfl⟩
    · exact h.worked_lt lane' piece hold e he
    · exact (hposts.closes e (hclose e he)).1
  case has_lt => exact fun e other hin => h.has_lt e other (hhas e other hin)
  case owner => exact fun e other hin => h.owner e other (hhas e other hin)
  case placed =>
    intro e other he
    obtain ⟨old, hold, hplace⟩ := h.placed e other he
    obtain ⟨found, hfound, hkind, hendpoint, hstage⟩ := hposts.after hold
    refine ⟨found, hfound, ?_⟩
    rw [hkind, hendpoint]
    rcases hplace with hplace | hplace | ⟨piece, hpiece, hplace⟩
    · exact .inl hplace
    · rcases hstage with rfl | ⟨hheld, -⟩
      · exact .inr (.inl hplace)
      · exact absurd he (h.held other old hold hheld e)
    · exact .inr (.inr ⟨piece, mem_posted_of hpiece, hplace⟩)
  case closes =>
    intro lane' e hin other found he hfound
    obtain ⟨old, hold, -, hreleased, -, -, -⟩ := hposts.old hfound
    rw [hreleased]
    rcases mem_posted hin with hin | ⟨-, htask⟩
    · exact h.closes lane' e hin other old he hold
    · have hclosing := (hposts.closes e htask.symm).2 other old he hold
      intro hnone
      rcases (h.slots other old hold).released.mp hnone with hstage | hstage
      · simp [hstage, LeaseStage.closing] at hclosing
      · simp [hstage, LeaseStage.closing] at hclosing
  case named =>
    intro lane' piece hpiece other hin
    rcases mem_posted hpiece with hold | ⟨rfl, rfl⟩
    · obtain ⟨old, hslot, hstage, hlane⟩ := h.named lane' piece hold other hin
      obtain ⟨found, hfound, hkind, -, hsame⟩ := hposts.after hslot
      refine ⟨found, hfound, ?_, by rw [hkind]; exact hlane⟩
      rcases hsame with rfl | ⟨hheld, -⟩
      · exact hstage
      · exact absurd hheld hstage
    · exact hposts.named other hin
  case pairs =>
    intro lane' mic speaker hin micSlot speakerSlot hmic hspeaker
    obtain ⟨oldMic, holdMic, hmicKind, -⟩ := hposts.old hmic
    obtain ⟨oldSpeaker, holdSpeaker, hspeakerKind, -⟩ := hposts.old hspeaker
    rw [hmicKind, hspeakerKind]
    rcases mem_posted hin with hin | ⟨-, htask⟩
    · exact h.pairs lane' mic speaker hin oldMic oldSpeaker holdMic holdSpeaker
    · exact hposts.pairs mic speaker htask.symm oldMic oldSpeaker holdMic holdSpeaker
  case fresh =>
    intro lane' piece hpiece other hin
    rcases mem_posted hpiece with hold | ⟨-, rfl⟩
    · exact h.fresh lane' piece hold other hin
    · obtain ⟨slot, hslot, hstage⟩ := hposts.opens other hin
      exact h.held other slot hslot hstage
  case order =>
    intro lane'
    by_cases hsame : lane' = lane
    · subst hsame
      have hlast : ∀ piece ∈ s.work lane', ∀ other ∈ piece.leases, other ∉ task.opens := by
        intro piece hpiece other hin hopens
        obtain ⟨slot, hslot, hstage, -⟩ := h.named lane' piece hpiece other hin
        obtain ⟨slot', hslot', hheld⟩ := hposts.opens other hopens
        have : slot = slot' := Option.mem_unique hslot hslot'
        exact hstage (this ▸ hheld)
      have hgoal : (s.work lane' ++ [task]).Pairwise fun work later => ∀ other ∈ work.leases, other ∉ later.opens := by
        refine List.pairwise_append.mpr ⟨h.order lane', List.pairwise_singleton _ _, ?_⟩
        intro piece hpiece last hlast'
        rw [List.mem_singleton.mp hlast']
        exact hlast piece hpiece
      simpa [MediaDeviceArbiter.posted] using hgoal
    · simpa [MediaDeviceArbiter.posted, Function.update_of_ne hsame] using h.order lane'
  case tail =>
    intro lane' piece hpiece
    by_cases hsame : lane' = lane
    · subst hsame
      have hpiece' : piece ∈ (s.work lane' ++ [task]).tail := by simpa [MediaDeviceArbiter.posted] using hpiece
      cases hwork : s.work lane' with
      | nil => simp [hwork] at hpiece'
      | cons first more =>
        rw [hwork] at hpiece'
        have hin : piece ∈ more ∨ piece = task := by simpa using hpiece'
        rcases hin with hin | rfl
        · exact h.tail lane' piece (by rw [hwork]; exact hin)
        · exact hposts.queued
    · exact h.tail lane' piece (by simpa [MediaDeviceArbiter.posted, Function.update_of_ne hsame] using hpiece)
  case single => exact h.single
  case again =>
    intro lane' other hin found hfound
    obtain ⟨old, hold, -, hreleased, -, -, -⟩ := hposts.old hfound
    rw [hreleased]
    rcases mem_posted hin with hin | ⟨-, htask⟩
    · exact h.again lane' other hin old hold
    · have hq := hposts.queued
      rw [← htask] at hq
      cases hq
  case settled =>
    intro lane' other endpoint hin found hfound
    obtain ⟨old, hold, -, hreleased, -, -, -⟩ := hposts.old hfound
    rw [hreleased]
    rcases mem_posted hin with hin | ⟨-, htask⟩
    · exact h.settled lane' other endpoint hin old hold
    · have hq := hposts.queued
      rw [← htask] at hq
      cases hq

/-- No lease of its kind that was released before `later` was granted still
holds an endpoint whose close is not queued. -/
def ClosesQueued (s : MediaDeviceArbiter) (later : Nat) : Prop :=
  ∀ earlier < s.nextId, s.GrantedAfter earlier later →
    (s.leases earlier).all (fun slot => slot.stage.closing = none) = true

instance (earlier later : Nat) : Decidable (s.GrantedAfter earlier later) :=
  decidable_of_iff
    ((match s.leases earlier, s.leases later with
      | some slot, some slot' => slot.kind = slot'.kind && slot.released.any (· ≤ later)
      | _, _ => false : Bool) = true) (by
    unfold GrantedAfter
    cases hr : s.leases earlier with
    | none => simp
    | some slot =>
      cases hl : s.leases later with
      | none => simp
      | some slot' =>
        cases hreleased : slot.released with
        | none => simp [hreleased]
        | some n => simp [hreleased])

instance (later : Nat) : Decidable (s.ClosesQueued later) :=
  inferInstanceAs (Decidable (∀ earlier < s.nextId, _ → _))

theorem InOrder.posted (h : s.InOrder) (ht : s.Tracked) (hposts : s.Posts lane task leases)
    (hqueued : ∀ later ∈ task.opens, s.ClosesQueued later) : (s.posted lane task leases).InOrder := by
  constructor
  case before =>
    intro earlier later hafter r' l' hr' hl' hstage
    obtain ⟨r, l, n, hr, hl, hkind, hreleased, hn⟩ := hafter
    have : r = r' := Option.mem_unique hr hr'
    have : l = l' := Option.mem_unique hl hl'
    subst_vars
    obtain ⟨oldR, holdR, hkindR, hreleasedR, -, hclosingR, -⟩ := hposts.old hr
    obtain ⟨oldL, holdL, hkindL, -, -, -, hsameL⟩ := hposts.old hl
    rw [hreleasedR] at hreleased
    have hafter : s.GrantedAfter earlier later :=
      ⟨oldR, oldL, n, holdR, holdL, by rw [← hkindR, ← hkindL]; exact hkind, hreleased, hn⟩
    -- the task does not open `earlier`, which was released
    have hnotOpens : earlier ∉ task.opens := by
      intro hin
      obtain ⟨slot, hslot, hheld⟩ := hposts.opens earlier hin
      have : slot = oldR := Option.mem_unique hslot holdR
      subst this
      have := (ht.slots earlier slot holdR).released.mpr (.inl hheld)
      rw [this] at hreleased
      cases hreleased
    rw [hclosingR]
    rcases hsameL with rfl | ⟨hheld, -, hopens⟩
    · obtain ⟨hnone, hpairs, hbegun⟩ := h.before earlier later hafter oldR l holdR holdL hstage
      refine ⟨hnone, ?_, ?_⟩
      · by_cases hsame : l.kind.lane = lane
        · subst hsame
          have hgoal : (s.work l.kind.lane ++ [task]).Pairwise fun work next =>
              later ∈ work.leases → ¬ s.About earlier next := by
            refine List.pairwise_append.mpr ⟨hpairs, List.pairwise_singleton _ _, ?_⟩
            intro piece _ last hlast _ habout
            rw [List.mem_singleton.mp hlast] at habout
            rcases habout with hin | ⟨e, htask, he⟩
            · exact hnotOpens hin
            · have hclosing := (hposts.closes e htask).2 earlier oldR he holdR
              rw [hnone] at hclosing
              cases hclosing
          rw [work_posted]
          exact hgoal
        · rw [work_posted_ne hsame]
          exact hpairs
      · intro hno
        obtain ⟨hclosed, hnot⟩ := hbegun fun piece hpiece => hno piece (mem_posted_of hpiece)
        refine ⟨hclosed, fun piece hpiece => ?_⟩
        rcases mem_posted hpiece with hold | ⟨-, rfl⟩
        · exact hnot piece hold
        · exact hnotOpens
    · -- the open of `later` itself
      have hin : later ∈ task.leases := LaneWork.mem_leases_of_opens hopens
      obtain ⟨found, hfound, -, hlane⟩ := hposts.named later hin
      have : found = l := Option.mem_unique hfound hl
      subst this
      have hnone : oldR.stage.closing = none := by
        have := hqueued later hopens earlier (ht.slots earlier oldR holdR).lt hafter
        simpa [holdR] using this
      refine ⟨hnone, ?_, ?_⟩
      · have hnobody : ∀ piece ∈ s.work found.kind.lane, later ∉ piece.leases := by
          intro piece hpiece hnamed
          obtain ⟨slot, hslot, hne, -⟩ := ht.named _ piece hpiece later hnamed
          have : slot = oldL := Option.mem_unique hslot holdL
          exact hne (this ▸ hheld)
        have hgoal : (s.work found.kind.lane ++ [task]).Pairwise fun work next =>
            later ∈ work.leases → ¬ (s.posted lane task leases).About earlier next := by
          refine List.pairwise_append.mpr ⟨?_, List.pairwise_singleton _ _, ?_⟩
          · exact List.pairwise_of_forall_mem_list fun piece hpiece _ _ hnamed => absurd hnamed (hnobody piece hpiece)
          · intro piece hpiece _ _ hnamed
            exact absurd hnamed (hnobody piece hpiece)
        subst hlane
        rw [work_posted]
        exact hgoal
      · intro hno
        refine absurd hopens (hno task ?_)
        subst hlane
        simp [MediaDeviceArbiter.posted]
  case exclusive =>
    intro earlier later r l hr hl hkind hexclusive hlt
    obtain ⟨oldR, holdR, hkindR, hreleasedR, -⟩ := hposts.old hr
    obtain ⟨oldL, holdL, hkindL, -⟩ := hposts.old hl
    rw [hreleasedR]
    exact h.exclusive earlier later oldR oldL holdR holdL (by rw [← hkindR, ← hkindL]; exact hkind)
      (by rw [← hkindR]; exact hexclusive) hlt

/-! ## Leases granted and given back -/

/-- The arbiter with one lease more. -/
def granted (s : MediaDeviceArbiter) (kind : MediaDeviceKind) (voiceDuplex : Bool) : MediaDeviceArbiter :=
  { s.setLease s.nextId { kind, voiceDuplex } with
    holders := s.holders ++ [(kind, s.nextId)]
    nextId := s.nextId + 1 }

variable {kind : MediaDeviceKind} {voiceDuplex : Bool}

theorem leases_granted (h : (s.granted kind voiceDuplex).leases other = some found) :
    (other = s.nextId ∧ found = { kind, voiceDuplex }) ∨ (other ≠ s.nextId ∧ s.leases other = some found) := by
  by_cases hsame : other = s.nextId
  · subst hsame
    left
    have : some ({ kind, voiceDuplex } : LeaseSlot) = some found := by simpa [granted, setLease] using h
    exact ⟨rfl, (Option.some.inj this).symm⟩
  · right
    exact ⟨hsame, by simpa [granted, setLease, Function.update_of_ne hsame] using h⟩

theorem Tracked.reslots_granted (h : s.Tracked)
    (hfree : s.policy.exclusive kind = true → ∀ holder ∈ s.holders, holder.1 ≠ kind) :
    s.Reslots (s.granted kind voiceDuplex) := by
  constructor
  case work | policy | nextEndpoint => rfl
  case opened => exact fun _ _ => id
  case sound =>
    intro other found hfound
    rcases leases_granted hfound with ⟨rfl, rfl⟩ | ⟨-, hold⟩
    · constructor
      case lt => exact Nat.lt_succ_self _
      case released => simp
      case after => simp
      case endpoint => simp
      case holder => simp [MediaDeviceArbiter.granted]
    · exact (h.slots other found hold).congr (Nat.le_succ _) (List.mem_append_left _)
  case old =>
    intro other found hfound
    rcases leases_granted hfound with ⟨rfl, rfl⟩ | ⟨-, hold⟩
    · exact .inr ⟨rfl, rfl, rfl, hfree⟩
    · exact .inl ⟨found, hold, slotKept_self⟩
  case kept =>
    intro other old hold _
    have hne : other ≠ s.nextId := Nat.ne_of_lt (h.slots other old hold).lt
    exact ⟨old, by simpa [granted, setLease, Function.update_of_ne hne] using hold⟩
  case has =>
    intro other found hfound e hin
    rcases leases_granted hfound with ⟨-, rfl⟩ | ⟨-, hold⟩
    · simp [LeaseStage.closing] at hin
    · exact .inl ⟨found, hold, hin⟩
  case placed =>
    intro e other old found _ hold hfound hplace
    rcases leases_granted hfound with ⟨rfl, -⟩ | ⟨-, hsame⟩
    · exact absurd (h.slots _ old hold).lt (Nat.lt_irrefl _)
    · obtain rfl := Option.mem_unique hold hsame
      exact hplace.imp_right .inl

/-- The arbiter without a lease that was only held. -/
def dropped (s : MediaDeviceArbiter) (lease : Nat) : MediaDeviceArbiter :=
  { s with
    leases := Function.update s.leases lease none
    holders := s.holders.filter (·.2 ≠ lease) }

theorem leases_dropped (h : (s.dropped lease).leases other = some found) :
    other ≠ lease ∧ s.leases other = some found := by
  by_cases hsame : other = lease
  · subst hsame
    simp [dropped] at h
  · exact ⟨hsame, by simpa [dropped, Function.update_of_ne hsame] using h⟩

theorem Tracked.reslots_dropped (h : s.Tracked) (hslot : s.leases lease = some slot) (hheld : slot.stage = .held) :
    s.Reslots (s.dropped lease) := by
  constructor
  case work | policy | nextEndpoint => rfl
  case opened => exact fun _ _ => id
  case sound =>
    intro other found hfound
    obtain ⟨hne, hold⟩ := leases_dropped hfound
    refine (h.slots other found hold).congr (Nat.le_refl _) fun hin => ?_
    exact List.mem_filter.mpr ⟨hin, by simp [hne]⟩
  case old => exact fun other found hfound => .inl ⟨found, (leases_dropped hfound).2, slotKept_self⟩
  case kept =>
    intro other old hold hused
    have hother : other ≠ lease := by
      rintro rfl
      obtain rfl := Option.mem_unique hold hslot
      rcases hused with hstage | ⟨e, he⟩
      · exact hstage hheld
      · exact h.held other old hslot hheld e he
    exact ⟨old, by simpa [MediaDeviceArbiter.dropped, Function.update_of_ne hother] using hold⟩
  case has => exact fun other found hfound e hin => .inl ⟨found, (leases_dropped hfound).2, hin⟩
  case placed =>
    intro e other old found _ hold hfound hplace
    obtain rfl := Option.mem_unique hold (leases_dropped hfound).2
    exact hplace.imp_right .inl

end MediaDeviceArbiter
end Pbr
