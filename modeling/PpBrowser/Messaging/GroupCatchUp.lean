import PpBrowser.Messaging.GroupChangeHeld

/-!
# GroupCatchUp — a catch-up asked for reply by reply

`ask_more`: a member whose reply left changes out asks again, after the last
change it was sent. Between two replies both copies may change.
-/

namespace Pbr

open Lib GroupRosterStore

variable {K : GroupCrypto} {jsonSize : Json.Object → Nat} {g after : String} {store : GroupRosterStore}

/-- The replies to a member that asks after `after` and on, each with the
store that answers and the hash the member asks with. -/
def askOn (K : GroupCrypto) (jsonSize : Json.Object → Nat) (groupId : String) :
    String → List (GroupRosterStore × String) → List CarriedChanges
  | _, [] => []
  | after, (store, changesHash) :: rounds =>
    let carried := addChangesTo K jsonSize store { groupId, changesHash, after }
    carried :: match carried.changes.getLast? with
      | none => []
      | some last => if carried.more then askOn K jsonSize groupId (last.id K) rounds else []

/-- The change as it is held, or without its card. -/
def Rides (held change : GroupChange) : Prop := change = held ∨ change = { held with signerCard := none }

theorem Rides.id_eq {held change : GroupChange} (h : Rides held change) : change.id K = held.id K := by
  obtain rfl | rfl := h <;> rfl

theorem rides_cardOnce (carded : StrSet) (change : GroupChange) : Rides change (cardOnce carded change).1 := by
  unfold cardOnce
  split_ifs
  · exact .inl rfl
  · exact .inr rfl
  · exact .inl rfl

/-- A reply holds the first of the rows' changes, as many as it has room for. -/
theorem fillReply_spec (K : GroupCrypto) (jsonSize : Json.Object → Nat) (rows : List StoredGroupChange)
    (carded : StrSet) (count bytes : Nat) :
    let carried := fillReply jsonSize carded count bytes rows
    (∃ sent rest, rows.filterMap parseChange = sent ++ rest ∧
      carried.changes.map (·.id K) = sent.map (·.id K) ∧ (∀ change ∈ carried.changes, ∃ held ∈ sent, Rides held change) ∧
      (carried.more = false → rest = [])) ∧
    (carried.more = true → carried.changes = [] → count ≠ 0) ∧
    (count ≤ kMaxReplyChanges → count + carried.changes.length ≤ kMaxReplyChanges) := by
  induction rows generalizing carded count bytes with
  | nil => exact ⟨⟨[], [], rfl, rfl, nofun, fun _ => rfl⟩, nofun, id⟩
  | cons row rows ih =>
    unfold fillReply
    cases hparse : parseChange row with
    | none =>
      rw [List.filterMap_cons_none hparse]
      exact ih carded count bytes
    | some change =>
      rw [List.filterMap_cons_some hparse]
      dsimp only
      have hrides := rides_cardOnce carded change
      split
      next hfull =>
        refine ⟨⟨[], _, rfl, rfl, nofun, nofun⟩, fun _ _ hzero => ?_, id⟩
        simp [noRoom, hzero, kMaxReplyChanges] at hfull
      next hroom =>
        obtain ⟨⟨sent, rest, hrows, hids, hsent, hall⟩, -, hfew⟩ :=
          ih (cardOnce carded change).2 (count + 1) (bytes + jsonSize (cardOnce carded change).1.toJson)
        refine ⟨⟨change :: sent, rest, ?_, ?_, ?_, hall⟩, nofun, fun _ => ?_⟩
        · rw [hrows]
          rfl
        · rw [List.map_cons, List.map_cons, hids, hrides.id_eq]
        · rintro other (_ | ⟨_, hother⟩)
          · exact ⟨change, List.mem_cons_self, hrides⟩
          · obtain ⟨held, hheld, hother⟩ := hsent other hother
            exact ⟨held, List.mem_cons_of_mem _ hheld, hother⟩
        · have hcount : count < kMaxReplyChanges := by
            by_contra hover
            simp [noRoom, not_lt.mp hover] at hroom
          have hlength := hfew hcount
          rw [List.length_cons]
          omega

/-- A change held, of those after `after`. -/
def Wanted (K : GroupCrypto) (g after : String) (store : GroupRosterStore) (id : String) : Prop :=
  (after = "" ∨ after < id) ∧ ∃ change ∈ heldChanges store g, change.id K = id

/-- One reply: the first of what is wanted, in order. -/
theorem addChangesTo_spec (jsonSize : Json.Object → Nat) (after : String) (hheld : HeldById K store g)
    {changesHash : String} (hlacks : (copyState K store g).changesHash ≠ changesHash) :
    let carried := addChangesTo K jsonSize store { groupId := g, changesHash, after }
    carried.changes.length ≤ kMaxReplyChanges ∧ (carried.more = true → carried.changes ≠ []) ∧
    (∀ change ∈ carried.changes, ∃ held ∈ heldChanges store g, Rides held change) ∧
    ∃ rest, (carried.changes.map (·.id K) ++ rest).Pairwise (· < ·) ∧ (carried.more = false → rest = []) ∧
      ∀ id, id ∈ carried.changes.map (·.id K) ++ rest ↔ Wanted K g after store id := by
  intro carried
  have hsorted : (store.listGroupChanges g).Pairwise fun a b => a.changeId < b.changeId :=
    List.pairwise_map.mp (store.listed_sorted g)
  have hcarried : carried = fillReply jsonSize ∅ 0 0
      ((store.listGroupChanges g).filter fun row => after = "" ∨ after < row.changeId) := by
    show addChangesTo K jsonSize store _ = _
    rw [addChangesTo, if_neg hlacks, sortRows, (hsorted.imp le_of_lt).insertionSort_eq]
  obtain ⟨⟨sent, rest, hsplit, hids, hsent, hall⟩, hsome, hfew⟩ := fillReply_spec K jsonSize
    ((store.listGroupChanges g).filter fun row => after = "" ∨ after < row.changeId) ∅ 0 0
  rw [← hcarried] at hids hsent hall hsome hfew
  have hmem : ∀ change, change ∈ sent ++ rest ↔ ∃ row, (row ∈ store.listGroupChanges g ∧
      (after = "" ∨ after < row.changeId)) ∧ parseChange row = some change := by
    intro change
    rw [← hsplit]
    simp [List.mem_filterMap]
  refine ⟨by simpa using hfew (Nat.zero_le _), fun hmore hnil => hsome hmore hnil rfl, ?_, rest.map (·.id K), ?_, ?_, ?_⟩
  · intro change hchange
    obtain ⟨held, hin, hrides⟩ := hsent change hchange
    obtain ⟨row, hrow, hparse⟩ := (hmem held).mp (List.mem_append_left _ hin)
    exact ⟨held, List.mem_filterMap.mpr ⟨row, hrow.1, hparse⟩, hrides⟩
  · rw [hids, ← List.map_append, ← hsplit, List.pairwise_map, List.pairwise_filterMap]
    apply (hsorted.filter _).imp_of_mem
    intro a b ha hb hlt c hc d hd
    rw [hheld a (List.mem_filter.mp ha).1 c hc, hheld b (List.mem_filter.mp hb).1 d hd]
    exact hlt
  · intro hmore
    rw [hall hmore]
    rfl
  · intro id
    rw [hids, ← List.map_append, List.mem_map]
    constructor
    · rintro ⟨change, hchange, rfl⟩
      obtain ⟨row, ⟨hrow, hafter⟩, hparse⟩ := (hmem change).mp hchange
      rw [← hheld row hrow change hparse] at hafter
      exact ⟨hafter, change, List.mem_filterMap.mpr ⟨row, hrow, hparse⟩, rfl⟩
    · rintro ⟨hafter, change, hchange, rfl⟩
      obtain ⟨row, hrow, hparse⟩ := List.mem_filterMap.mp hchange
      rw [hheld row hrow change hparse] at hafter
      exact ⟨change, (hmem change).mpr ⟨row, ⟨hrow, hafter⟩, hparse⟩, rfl⟩

/-- What a member that asks on is sent: held changes in id order, each once,
and all that was held throughout, or else a new one with each reply. -/
structure CaughtUp (K : GroupCrypto) (g after : String) (rounds : List (GroupRosterStore × String))
    (replies : List CarriedChanges) : Prop where
  few : ∀ reply ∈ replies, reply.changes.length ≤ kMaxReplyChanges
  held : ∀ change ∈ replies.flatMap (·.changes),
    ∃ round ∈ rounds, ∃ held ∈ heldChanges round.1 g, Rides held change
  ordered : ((replies.flatMap (·.changes)).map (·.id K)).Pairwise (· < ·)
  onward : ∀ change ∈ replies.flatMap (·.changes), after = "" ∨ after < change.id K
  complete : rounds.length ≤ (replies.flatMap (·.changes)).length ∨
    ∀ id, (∀ round ∈ rounds, Wanted K g after round.1 id) → ∃ change ∈ replies.flatMap (·.changes), change.id K = id

theorem catch_up_delivers (hid : ∀ change : GroupChange, change.id K ≠ "") {rounds : List (GroupRosterStore × String)}
    (hheld : ∀ round ∈ rounds, HeldById K round.1 g)
    (hlacks : ∀ round ∈ rounds, (copyState K round.1 g).changesHash ≠ round.2) :
    CaughtUp K g after rounds (askOn K jsonSize g after rounds) := by
  induction rounds generalizing after with
  | nil => exact ⟨nofun, nofun, .nil, nofun, .inl (Nat.zero_le _)⟩
  | cons round rounds ih =>
    obtain ⟨hheld, hheldLater⟩ := List.forall_mem_cons.mp hheld
    obtain ⟨hlacks, hlacksLater⟩ := List.forall_mem_cons.mp hlacks
    obtain ⟨hfew, hsome, hrides, rest, hsorted, hall, hwanted⟩ :=
      addChangesTo_spec jsonSize after hheld hlacks
    unfold askOn
    dsimp only at hfew hsome hrides hsorted hall hwanted ⊢
    generalize addChangesTo K jsonSize round.1 _ = carried at hfew hsome hrides hsorted hall hwanted ⊢
    have hhere : ∀ change ∈ carried.changes, ∃ other ∈ round :: rounds, ∃ held ∈ heldChanges other.1 g, Rides held change :=
      fun change hchange => ⟨round, List.mem_cons_self, hrides change hchange⟩
    have hafter : ∀ change ∈ carried.changes, after = "" ∨ after < change.id K := fun change hchange =>
      ((hwanted _).mp (List.mem_append_left _ (List.mem_map_of_mem hchange))).1
    have hsent := List.pairwise_append.mp hsorted
    cases hmore : carried.more with
    | false =>
      -- the last reply: nothing of what is wanted is left out
      have hlast : (match carried.changes.getLast? with
          | none => []
          | some last => if false = true then askOn K jsonSize g (last.id K) rounds else []) = [] := by
        split <;> rfl
      rw [hlast]
      obtain rfl := hall hmore
      rw [List.append_nil] at hwanted
      constructor
      · exact List.forall_mem_singleton.mpr hfew
      all_goals rw [List.flatMap_cons, List.flatMap_nil, List.append_nil]
      · exact hhere
      · exact hsent.1
      · exact hafter
      · exact .inr fun id hall => List.mem_map.mp ((hwanted id).mpr (hall round List.mem_cons_self))
    | true =>
      obtain ⟨last, hlast⟩ := Option.ne_none_iff_exists'.mp (mt List.getLast?_eq_none_iff.mp (hsome hmore))
      obtain ⟨init, hinit⟩ := List.getLast?_eq_some_iff.mp hlast
      have hin : last ∈ carried.changes := hinit ▸ List.mem_append_right _ List.mem_cons_self
      have hbefore : ∀ change ∈ carried.changes, change.id K ≤ last.id K := by
        have hpairs := List.pairwise_append.mp (hinit ▸ List.pairwise_map.mp hsent.1)
        rw [hinit, List.forall_mem_append]
        exact ⟨fun change hchange => (hpairs.2.2 change hchange last List.mem_cons_self).le,
          List.forall_mem_singleton.mpr le_rfl⟩
      rw [hlast]
      simp only [if_true]
      have hnext := @ih (last.id K) hheldLater hlacksLater
      have hlater := fun change hchange => (hnext.onward change hchange).resolve_left (hid last)
      constructor
      · exact List.forall_mem_cons.mpr ⟨hfew, hnext.few⟩
      all_goals rw [List.flatMap_cons]
      · refine List.forall_mem_append.mpr ⟨hhere, fun change hchange => ?_⟩
        obtain ⟨other, hother, hheld⟩ := hnext.held change hchange
        exact ⟨other, List.mem_cons_of_mem _ hother, hheld⟩
      · rw [List.map_append, List.pairwise_append]
        refine ⟨hsent.1, hnext.ordered, List.forall_mem_map.mpr fun change hchange => List.forall_mem_map.mpr ?_⟩
        exact fun later hlater' => (hbefore change hchange).trans_lt (hlater later hlater')
      · refine List.forall_mem_append.mpr ⟨hafter, fun change hchange => ?_⟩
        exact (hafter last hin).imp_right (lt_trans · (hlater change hchange))
      · refine hnext.complete.imp (fun hends => ?_) fun hends id hall => ?_
        · have hlength := List.length_pos_of_mem hin
          rw [List.length_cons, List.length_append]
          omega
        · rcases List.mem_append.mp ((hwanted id).mpr (hall round List.mem_cons_self)) with hsent' | hrest
          · obtain ⟨change, hchange, rfl⟩ := List.mem_map.mp hsent'
            exact ⟨change, List.mem_append_left _ hchange, rfl⟩
          · have hlt := hsent.2.2 _ (List.mem_map_of_mem hin) id hrest
            obtain ⟨change, hchange, rfl⟩ := hends id fun other hother =>
              ⟨.inr hlt, (hall other (List.mem_cons_of_mem _ hother)).2⟩
            exact ⟨change, List.mem_append_right _ hchange, rfl⟩

open HeldSample in
theorem catch_up_delivers_sample :
    CaughtUp sampleCrypto "g" "" [(held, "")] (askOn sampleCrypto (fun _ => 1) "g" "" [(held, "")]) := by
  have htext : ∀ bytes, sampleCrypto.bytesToHex (sampleCrypto.blake2b256 bytes) ≠ "" := by
    intro bytes h
    exact absurd (congrArg String.toList h) (by simp [sampleCrypto])
  apply catch_up_delivers (fun change => htext _)
  · rintro _ (_ | ⟨_, hnone⟩)
    · exact held_written.byId.heldById "g"
    · cases hnone
  · rintro _ (_ | ⟨_, hnone⟩)
    · exact htext _
    · cases hnone

end Pbr
