import Mathlib.Order.Defs.LinearOrder
import PpBrowser.Lib.Sides

/-!
# NewestWins — two replicas and a store, register by register

Each of two devices and a store they share holds a register for a key, with
a time. A device writes registers, publishes them into the store and catches
up with it; each way the newer register is taken, and at a tie the one in
place stays. Where no tie has two contents, what both settle on is the
newest register written.
-/

namespace Pbr.Lib

variable {κ ρ τ : Type} [LinearOrder τ] (time : ρ → τ)

/-- The register left in place: another takes it over only when it is newer. -/
def newer (inPlace incoming : Option ρ) : Option ρ :=
  match inPlace, incoming with
  | none, r => r
  | some r, none => some r
  | some r, some r' => if time r < time r' then some r' else some r

variable {time} {inPlace incoming : Option ρ} {r : ρ}

variable (time inPlace incoming) in
theorem newer_cases : newer time inPlace incoming = inPlace ∨ newer time inPlace incoming = incoming := by
  match inPlace, incoming with
  | none, _ => exact .inr rfl
  | some r, none => exact .inl rfl
  | some r, some r' =>
    rw [newer]
    split
    · exact .inr rfl
    · exact .inl rfl

variable (time incoming) in
/-- What is left is no older than what was in place. -/
theorem newer_inPlace (h : inPlace = some r) :
    ∃ r', newer time inPlace incoming = some r' ∧ (time r < time r' ∨ r' = r) := by
  subst h
  cases incoming with
  | none => exact ⟨r, rfl, .inr rfl⟩
  | some r' =>
    by_cases hlt : time r < time r'
    · exact ⟨r', if_pos hlt, .inl hlt⟩
    · exact ⟨r, if_neg hlt, .inr rfl⟩

variable (time inPlace) in
theorem newer_incoming (h : incoming = some r) : ∃ r', newer time inPlace incoming = some r' ∧ time r ≤ time r' := by
  subst h
  cases inPlace with
  | none => exact ⟨r, rfl, le_refl _⟩
  | some r' =>
    by_cases hlt : time r' < time r
    · exact ⟨r, if_pos hlt, le_refl _⟩
    · exact ⟨r', if_neg hlt, not_lt.mp hlt⟩

@[simp] theorem newer_none : newer time inPlace none = inPlace := by
  cases inPlace with
  | none | some r => rfl

theorem newer_self : newer time inPlace inPlace = inPlace := by
  cases inPlace with
  | none => rfl
  | some r => exact if_neg (lt_irrefl _)

/-- The registers of the devices and of their store. -/
structure Replicas (κ ρ : Type) where
  device : Side → κ → Option ρ
  store : κ → Option ρ

/-- A register a device wrote. -/
structure RegisterWrite (κ ρ : Type) where
  side : Side
  key : κ
  register : ρ

namespace Replicas

/-- A register is held somewhere. -/
def Has (net : Replicas κ ρ) (k : κ) (r : ρ) : Prop :=
  (∃ s, net.device s k = some r) ∨ net.store k = some r

variable (time) in
/-- What holds of the registers after the writes of a run. -/
structure Sound (writes : List (RegisterWrite κ ρ)) (net : Replicas κ ρ) : Prop where
  /-- Two registers of a key with one time are the same. -/
  tieFree : ∀ k r r', net.Has k r → net.Has k r' → time r = time r' → r = r'
  written : ∀ k r, net.Has k r → ∃ w ∈ writes, w.key = k ∧ w.register = r
  /-- A write gave way only to a newer register. -/
  kept : ∀ w ∈ writes, ∃ r, net.device w.side w.key = some r ∧
    (time w.register < time r ∨ r = w.register)

/-! ## The steps -/

variable {net : Replicas κ ρ} {writes : List (RegisterWrite κ ρ)} {s : Side} {k : κ} {r' : ρ}

/-- The device's registers become `registers`. -/
def write (net : Replicas κ ρ) (s : Side) (registers : κ → Option ρ) : Replicas κ ρ where
  device := fun t => if t = s then registers else net.device t
  store := net.store

variable (time) in
def publish (net : Replicas κ ρ) (s : Side) : Replicas κ ρ where
  device := net.device
  store := fun k => newer time (net.store k) (net.device s k)

variable (time) in
def catchUp (net : Replicas κ ρ) (s : Side) : Replicas κ ρ where
  device := fun t => if t = s then fun k => newer time (net.device s k) (net.store k) else net.device t
  store := net.store

theorem has_publish (h : (net.publish time s).Has k r) : net.Has k r := by
  rcases h with h | h
  · exact .inl h
  · rcases newer_cases time (net.store k) (net.device s k) with hc | hc
    · exact .inr (hc ▸ h)
    · exact .inl ⟨s, hc ▸ h⟩

theorem has_catchUp (h : (net.catchUp time s).Has k r) : net.Has k r := by
  rcases h with ⟨t, h⟩ | h
  · by_cases ht : t = s
    · simp only [catchUp, if_pos ht] at h
      rcases newer_cases time (net.device s k) (net.store k) with hc | hc
      · exact .inl ⟨s, hc ▸ h⟩
      · exact .inr (hc ▸ h)
    · simp only [catchUp, if_neg ht] at h
      exact .inl ⟨t, h⟩
  · exact .inr h

theorem Sound.publish (h : Sound time writes net) : Sound time writes (net.publish time s) where
  tieFree := fun k r r' hr hr' => h.tieFree k r r' (has_publish hr) (has_publish hr')
  written := fun k r hr => h.written k r (has_publish hr)
  kept := h.kept

theorem Sound.catchUp (h : Sound time writes net) : Sound time writes (net.catchUp time s) where
  tieFree := fun k r r' hr hr' => h.tieFree k r r' (has_catchUp hr) (has_catchUp hr')
  written := fun k r hr => h.written k r (has_catchUp hr)
  kept := by
    intro w hw
    obtain ⟨r, hr, hnewer⟩ := h.kept w hw
    by_cases hside : w.side = s
    · obtain ⟨r', hr', hnewer'⟩ := newer_inPlace time (net.store w.key) hr
      refine ⟨r', by rw [← hr', hside]; simp [Replicas.catchUp], ?_⟩
      rcases hnewer' with hlt | rfl
      · rcases hnewer with hlt' | rfl
        · exact .inl (hlt'.trans hlt)
        · exact .inl hlt
      · exact hnewer
    · exact ⟨r, by simpa [Replicas.catchUp, hside] using hr, hnewer⟩

/-- A write keeps to the rules when each register it changes gets a later
time, one that no other register of the key has with other contents. -/
theorem Sound.write (h : Sound time writes net) {registers : κ → Option ρ} {news : List (RegisterWrite κ ρ)}
    (hchange : ∀ k, registers k = net.device s k ∨ ∃ r, registers k = some r ∧
      (∀ old, net.device s k = some old → time old < time r) ∧
      (∀ r', net.Has k r' → time r' = time r → r' = r) ∧ ⟨s, k, r⟩ ∈ news)
    (hnews : ∀ w ∈ news, w.side = s ∧ registers w.key = some w.register) :
    Sound time (writes ++ news) (net.write s registers) := by
  have hhas : ∀ {k r}, (net.write s registers).Has k r → net.Has k r ∨ registers k = some r ∧
      (∀ r', net.Has k r' → time r' = time r → r' = r) ∧ ⟨s, k, r⟩ ∈ news := by
    intro k r hr
    rcases hr with ⟨t, hr⟩ | hr
    · by_cases ht : t = s
      · simp only [Replicas.write, if_pos ht] at hr
        rcases hchange k with hsame | ⟨r', hr', -, htie, hnew⟩
        · exact .inl (.inl ⟨s, hsame ▸ hr⟩)
        · obtain rfl : r = r' := Option.mem_unique hr hr'
          exact .inr ⟨hr', htie, hnew⟩
      · simp only [Replicas.write, if_neg ht] at hr
        exact .inl (.inl ⟨t, hr⟩)
    · exact .inl (.inr hr)
  refine ⟨?_, ?_, ?_⟩
  · intro k r r' hr hr' htime
    rcases hhas hr with hold | ⟨hnew, htie, -⟩
    · rcases hhas hr' with hold' | ⟨-, htie', -⟩
      · exact h.tieFree k r r' hold hold' htime
      · exact htie' r hold htime
    · rcases hhas hr' with hold' | ⟨hnew', -, -⟩
      · exact (htie r' hold' htime.symm).symm
      · exact Option.mem_unique hnew hnew'
  · intro k r hr
    rcases hhas hr with hold | ⟨-, -, hnew⟩
    · obtain ⟨w, hw, hkey⟩ := h.written k r hold
      exact ⟨w, List.mem_append_left _ hw, hkey⟩
    · exact ⟨_, List.mem_append_right _ hnew, rfl, rfl⟩
  · intro w hw
    rcases List.mem_append.mp hw with hw | hw
    · obtain ⟨r, hr, hnewer⟩ := h.kept w hw
      by_cases hside : w.side = s
      · rw [hside] at hr
        simp only [Replicas.write, if_pos hside]
        rcases hchange w.key with hsame | ⟨r', hr', hlater, -⟩
        · exact ⟨r, hsame.trans hr, hnewer⟩
        · refine ⟨r', hr', .inl ?_⟩
          rcases hnewer with hlt | rfl
          · exact hlt.trans (hlater r hr)
          · exact hlater _ hr
      · exact ⟨r, by simpa [Replicas.write, hside] using hr, hnewer⟩
    · obtain ⟨hside, hregister⟩ := hnews w hw
      exact ⟨w.register, by simpa [Replicas.write, hside] using hregister, .inr rfl⟩

/-! ## Settling -/

/-- Neither publishing nor catching up changes a register. -/
def Quiet (time : ρ → τ) (net : Replicas κ ρ) : Prop :=
  ∀ s k, newer time (net.store k) (net.device s k) = net.store k ∧
    newer time (net.device s k) (net.store k) = net.device s k

/-- When nothing changes, each device has what the store has. -/
theorem Sound.device_eq_store (h : Sound time writes net) (hquiet : Quiet time net) :
    net.device s k = net.store k := by
  obtain ⟨hpublish, hcatchUp⟩ := hquiet s k
  cases hdevice : net.device s k with
  | none =>
    rw [hdevice] at hcatchUp
    exact hcatchUp.symm
  | some r =>
    cases hstore : net.store k with
    | none =>
      rw [hdevice, hstore] at hpublish
      cases hpublish
    | some r' =>
      rw [hdevice, hstore] at hpublish hcatchUp
      have hle : time r ≤ time r' := by
        obtain ⟨x, hx, hle⟩ := newer_incoming time (some r') (rfl : some r = some r)
        obtain rfl := Option.mem_unique hpublish hx
        exact hle
      have hge : time r' ≤ time r := by
        obtain ⟨x, hx, hle⟩ := newer_incoming time (some r) (rfl : some r' = some r')
        obtain rfl := Option.mem_unique hcatchUp hx
        exact hle
      exact congrArg some (h.tieFree k r r' (.inl ⟨s, hdevice⟩) (.inr hstore) (le_antisymm hle hge))

/-- What is settled on is the newest register written. -/
theorem Sound.newest (h : Sound time writes net) (hquiet : Quiet time net) (w : RegisterWrite κ ρ)
    (hw : w ∈ writes) : ∃ r, net.store w.key = some r ∧ (time w.register < time r ∨ r = w.register) := by
  obtain ⟨r, hr, hnewer⟩ := h.kept w hw
  exact ⟨r, (h.device_eq_store hquiet).symm.trans hr, hnewer⟩

/-- The store has every register of the device, or a newer one. -/
def Covered (time : ρ → τ) (net : Replicas κ ρ) (s : Side) : Prop :=
  ∀ k r, net.device s k = some r → ∃ r', net.store k = some r' ∧ time r ≤ time r'

theorem covered_publish : Covered time (net.publish time s) s := fun _ _ hr => newer_incoming time _ hr

theorem Covered.publish {t : Side} (h : Covered time net t) : Covered time (net.publish time s) t := by
  intro k r hr
  obtain ⟨r', hr', hle⟩ := h k r hr
  obtain ⟨r'', hr'', hnewer⟩ := newer_inPlace time (net.device s k) hr'
  refine ⟨r'', hr'', ?_⟩
  rcases hnewer with hlt | rfl
  · exact hle.trans hlt.le
  · exact hle

/-- A covered device takes over the store's registers. -/
theorem Sound.catchUp_covered (h : Sound time writes net) (hcovered : Covered time net s) :
    newer time (net.device s k) (net.store k) = net.store k := by
  cases hdevice : net.device s k with
  | none => rfl
  | some r =>
    obtain ⟨r', hr', hle⟩ := hcovered k r hdevice
    rw [hr', newer]
    split
    · rfl
    · next hlt =>
        have heq : time r = time r' := le_antisymm hle (not_lt.mp hlt)
        exact congrArg some (h.tieFree k r r' (.inl ⟨s, hdevice⟩) (.inr hr') heq)

/-- Once each has published and then caught up, nothing changes any more. -/
theorem Sound.quiet (h : Sound time writes net) :
    Quiet time ((((net.publish time .left).publish time .right).catchUp time .left).catchUp time .right) := by
  have hpublished : Sound time writes ((net.publish time .left).publish time .right) := h.publish.publish
  have hcovered : ∀ t, Covered time ((net.publish time .left).publish time .right) t := by
    intro t
    cases t with
    | left => exact covered_publish.publish
    | right => exact covered_publish
  generalize (net.publish time .left).publish time .right = published at hpublished hcovered
  have hsame : ∀ t k, (((published.catchUp time .left).catchUp time .right)).device t k = published.store k := by
    intro t k
    cases t with
    | left => simp [Replicas.catchUp, hpublished.catchUp_covered (hcovered .left)]
    | right => simp [Replicas.catchUp, hpublished.catchUp_covered (hcovered .right)]
  intro t k
  rw [hsame t k]
  exact ⟨newer_self, newer_self⟩

end Replicas

end Pbr.Lib
