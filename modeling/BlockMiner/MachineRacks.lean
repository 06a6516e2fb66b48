import BlockMiner.MachineSlots

/-!
# Rooms and racks

Three copies of one fact: the slot of a machine in a room, the machine its
rack holds, and the machine the next rack is blocked by. `RacksOk` is the
invariant that keeps them in step, together with what the schema promises
of the racks (a rack has a room, `(roomId, position)` and `userMinerId` are
unique). Each step of the floor keeps it: removing a machine, because it
releases the machine's racks; placing one below the rooms; opening a room;
and holding a machine, if it has at most two slots. Moving a machine keeps
it only when no rack holds the machine, since `moveMachine` changes the slot
and leaves the rack alone. `KeepsRacks` is that condition on the operations,
and `rooms_consistent` the result about runs.
-/

namespace BlockMiner.Machines

/-- **Room and rack consistency.** -/
structure RoomsConsistent (cfg : Config) (F : Floor) : Prop where
  /-- An occupied rack holds a machine of its user, at the slot of the rack. -/
  occupied : ∀ {r k m}, F.rack r = some k → k.userMinerId = some m →
    ∃ s room, F.spot m = some s ∧ s.userId = k.userId ∧ F.room k.roomId = some room
      ∧ s.slotIndex = rackSlotIndex cfg room.roomNumber k.position
  notBoth : ∀ {r k}, F.rack r = some k → ¬(k.userMinerId.isSome ∧ k.blockedByMinerId.isSome)
  /-- A large machine blocks the next rack of its room, and no other. -/
  blocksNext : ∀ {r k m s}, F.rack r = some k → k.userMinerId = some m → F.spot m = some s →
    s.slotSize = 2 → ∃ r' k', F.rack r' = some k' ∧ k'.roomId = k.roomId
      ∧ k'.position = k.position + 1
      ∧ ∀ i, (∃ j, F.rack i = some j ∧ j.blockedByMinerId = some m) ↔ i = r'
  /-- A blocked rack names the machine of the rack before it. -/
  blockedNext : ∀ {r k m}, F.rack r = some k → k.blockedByMinerId = some m →
    ∃ r' k', F.rack r' = some k' ∧ k'.roomId = k.roomId ∧ k.position = k'.position + 1
      ∧ k'.userMinerId = some m
  /-- A machine in a room is held by exactly one rack. -/
  heldOnce : ∀ {m s}, F.spot m = some s → ROOM_SLOTS ≤ s.slotIndex →
    ∃! r, ∃ k, F.rack r = some k ∧ k.userMinerId = some m

/-- The invariant. -/
structure RacksOk (cfg : Config) (F : Floor) : Prop where
  rooms : ∀ {r k}, F.rack r = some k → F.room k.roomId ≠ none
  unique : ∀ {r r' k k'}, F.rack r = some k → F.rack r' = some k' → k.roomId = k'.roomId →
    k.position = k'.position → r = r'
  once : ∀ {r r' k k' m}, F.rack r = some k → F.rack r' = some k' → k.userMinerId = some m →
    k'.userMinerId = some m → r = r'
  holds : ∀ {r k m}, F.rack r = some k → k.userMinerId = some m →
    ∃ s room, F.spot m = some s ∧ s.userId = k.userId ∧ F.room k.roomId = some room
      ∧ s.slotIndex = rackSlotIndex cfg room.roomNumber k.position
  free : ∀ {r k}, F.rack r = some k → k.userMinerId = none ∨ k.blockedByMinerId = none
  blocks : ∀ {r k m s}, F.rack r = some k → k.userMinerId = some m → F.spot m = some s →
    s.slotSize = 2 → ∃ r' k', F.rack r' = some k' ∧ k'.roomId = k.roomId
      ∧ k'.position = k.position + 1 ∧ k'.blockedByMinerId = some m
  blocked : ∀ {r k m}, F.rack r = some k → k.blockedByMinerId = some m →
    ∃ r' k', F.rack r' = some k' ∧ k'.roomId = k.roomId ∧ k.position = k'.position + 1
      ∧ k'.userMinerId = some m
  held : ∀ {m s}, F.spot m = some s → ROOM_SLOTS ≤ s.slotIndex →
    ∃ r k, F.rack r = some k ∧ k.userMinerId = some m

theorem RacksOk.consistent {cfg : Config} {F : Floor} (h : RacksOk cfg F) :
    RoomsConsistent cfg F where
  occupied := h.holds
  notBoth hk := by
    rintro ⟨hm, hb⟩
    rcases h.free hk with hnone | hnone
    · rw [hnone] at hm
      cases hm
    · rw [hnone] at hb
      cases hb
  blocksNext {r k m s} hk hm hs hsize := by
    obtain ⟨r', k', hk', hroom, hpos, hb⟩ := h.blocks hk hm hs hsize
    refine ⟨r', k', hk', hroom, hpos, fun i => ⟨?_, ?_⟩⟩
    · rintro ⟨j, hj, hjb⟩
      obtain ⟨r₁, k₁, hk₁, hroom₁, hpos₁, hm₁⟩ := h.blocked hj hjb
      obtain rfl := h.once hk hk₁ hm hm₁
      obtain rfl := Option.some.inj (hk.symm.trans hk₁)
      exact h.unique hj hk' (hroom₁.symm.trans hroom.symm) (hpos₁.trans hpos.symm)
    · rintro rfl
      exact ⟨k', hk', hb⟩
  blockedNext := h.blocked
  heldOnce {m s} hs hslot := by
    obtain ⟨r, k, hk, hm⟩ := h.held hs hslot
    refine ⟨r, ⟨k, hk, hm⟩, ?_⟩
    rintro r' ⟨k', hk', hm'⟩
    exact h.once hk' hk hm' hm

/-! ## Rack rows after a step of the floor -/

section RackRows

variable {F : Floor} {id r m : ℕ} {k : UserRack}

/-- What is left of a reference to a machine when `id` is released. -/
theorem released_eq_some {x : Option ℕ} :
    (if x = some id then none else x) = some m ↔ m ≠ id ∧ x = some m := by
  split
  case isTrue h => simp [h, eq_comm]
  case isFalse h =>
    constructor
    · intro hm
      exact ⟨fun heq => h (heq ▸ hm), hm⟩
    · exact And.right

theorem release_userMinerId :
    (k.release id).userMinerId = some m ↔ m ≠ id ∧ k.userMinerId = some m := released_eq_some

theorem release_blockedByMinerId :
    (k.release id).blockedByMinerId = some m ↔ m ≠ id ∧ k.blockedByMinerId = some m :=
  released_eq_some

theorem remove_rack_eq_some :
    (F.remove id).rack r = some k ↔ ∃ k₀, F.rack r = some k₀ ∧ k₀.release id = k :=
  Option.map_eq_some_iff

theorem remove_rack (h : F.rack r = some k) : (F.remove id).rack r = some (k.release id) :=
  congrArg (Option.map (UserRack.release id)) h

theorem openRoom_rack_eq_some {u : UserId} {roomId roomNumber base racks : ℕ} :
    (F.openRoom u roomId roomNumber base racks).rack r = some k ↔
      ((base ≤ r ∧ r < base + racks) ∧ k =
          { userId := u, roomId, position := r - base, userMinerId := none
            blockedByMinerId := none })
        ∨ ¬(base ≤ r ∧ r < base + racks) ∧ F.rack r = some k := by
  show (if _ then _ else _) = some k ↔ _
  split
  case isTrue h => simp [h, eq_comm]
  case isFalse h => simp [h]

/-- The rack of `hold` after the step. -/
def UserRack.hold (id rackId : ℕ) (blocks : Option ℕ) (r : ℕ) (k : UserRack) : UserRack :=
  { k with
    userMinerId := if r = rackId then some id else k.userMinerId
    blockedByMinerId := if blocks = some r then some id else k.blockedByMinerId }

theorem hold_rack_eq_some {s : Spot} {rackId : ℕ} {blocks : Option ℕ} :
    (F.hold id s rackId blocks).rack r = some k ↔
      ∃ k₀, F.rack r = some k₀ ∧ k₀.hold id rackId blocks r = k :=
  Option.map_eq_some_iff

theorem hold_rack {s : Spot} {rackId : ℕ} {blocks : Option ℕ} (h : F.rack r = some k) :
    (F.hold id s rackId blocks).rack r = some (k.hold id rackId blocks r) :=
  congrArg (Option.map (UserRack.hold id rackId blocks r)) h

/-- A reference that may have been set to the new machine. -/
theorem set_eq_some {p : Prop} [Decidable p] {x : Option ℕ} (hne : x ≠ some id) :
    (if p then some id else x) = some m ↔ (p ∧ m = id) ∨ (¬p ∧ m ≠ id ∧ x = some m) := by
  split
  case isTrue hp => simp [hp, eq_comm]
  case isFalse hp =>
    simp only [hp, false_and, false_or, not_false_eq_true, true_and, ne_eq]
    exact ⟨fun hm => ⟨fun heq => hne (heq ▸ hm), hm⟩, And.right⟩

/-- What a rack holds after `hold`, if it did not hold the machine before. -/
theorem hold_userMinerId {rackId : ℕ} {blocks : Option ℕ} (hne : k.userMinerId ≠ some id) :
    (k.hold id rackId blocks r).userMinerId = some m ↔
      (r = rackId ∧ m = id) ∨ (r ≠ rackId ∧ m ≠ id ∧ k.userMinerId = some m) :=
  set_eq_some hne

theorem hold_blockedByMinerId {rackId : ℕ} {blocks : Option ℕ}
    (hne : k.blockedByMinerId ≠ some id) :
    (k.hold id rackId blocks r).blockedByMinerId = some m ↔
      (blocks = some r ∧ m = id) ∨ (blocks ≠ some r ∧ m ≠ id ∧ k.blockedByMinerId = some m) :=
  set_eq_some hne

end RackRows

/-! ## The racks that `installMiner` takes -/

theorem slotCount_eq_two {slotSize : ℕ} (hlarge : 2 ≤ slotCount slotSize) (hsize : slotSize ≤ 2) :
    slotCount slotSize = 2 := by
  unfold slotCount at hlarge ⊢
  split
  case isTrue hzero =>
    rw [if_pos hzero] at hlarge
    omega
  case isFalse hzero =>
    rw [if_neg hzero] at hlarge
    omega

theorem UserRack.isFree_iff {k : UserRack} :
    k.isFree = true ↔ k.userMinerId = none ∧ k.blockedByMinerId = none := by
  simp [UserRack.isFree]

section Taken

variable {cfg : Config} {F : Floor} {u rackId : ℕ} {rack : UserRack} {s : Spot} {blocks : Option ℕ}
  (hcan : CanHold cfg F u rackId rack s blocks)
include hcan

/-- The rack that is blocked, if any, is free and the next one, unless the
machine is larger than two slots. -/
theorem CanHold.next (hsize : s.slotSize ≤ 2) {r : ℕ} (hb : blocks = some r) :
    ∃ k, F.rack r = some k ∧ k.userMinerId = none ∧ k.blockedByMinerId = none
      ∧ k.roomId = rack.roomId ∧ k.position = rack.position + 1 := by
  subst hb
  obtain ⟨hlarge, k, hk, hroom, hfree, hpos⟩ := hcan.blocked
  obtain ⟨hm, hb⟩ := UserRack.isFree_iff.mp hfree
  exact ⟨k, hk, hm, hb, hroom, by rw [hpos, slotCount_eq_two hlarge hsize]⟩

theorem CanHold.blocks_ne (hsize : s.slotSize ≤ 2) : blocks ≠ some rackId := by
  intro hb
  obtain ⟨k, hk, -, -, -, hpos⟩ := hcan.next hsize hb
  obtain rfl := Option.some.inj (hcan.found.symm.trans hk)
  omega

/-- A rack that held a machine still does. -/
theorem CanHold.keeps_held {id r m : ℕ} {k : UserRack} (hk : F.rack r = some k)
    (hm : k.userMinerId = some m) : (k.hold id rackId blocks r).userMinerId = some m := by
  refine (if_neg ?_).trans hm
  rintro rfl
  obtain rfl := Option.some.inj (hcan.found.symm.trans hk)
  rw [(UserRack.isFree_iff.mp hcan.free).1] at hm
  cases hm

/-- A rack that was blocked still is, by the same machine. -/
theorem CanHold.keeps_blocked (hsize : s.slotSize ≤ 2) {id r m : ℕ} {k : UserRack}
    (hk : F.rack r = some k) (hb : k.blockedByMinerId = some m) :
    (k.hold id rackId blocks r).blockedByMinerId = some m := by
  refine (if_neg fun heq => ?_).trans hb
  obtain ⟨k', hk', -, hnone, -⟩ := hcan.next hsize heq
  obtain rfl := Option.some.inj (hk.symm.trans hk')
  rw [hnone] at hb
  cases hb

end Taken

/-! ## The steps of the floor -/

section Steps

variable {cfg : Config} {F : Floor} (h : RacksOk cfg F)
include h

/-- A machine that does not exist is in no rack and blocks none. -/
theorem RacksOk.absent {id : ℕ} (hnone : F.spot id = none) {r : ℕ} {k : UserRack}
    (hk : F.rack r = some k) : k.userMinerId ≠ some id ∧ k.blockedByMinerId ≠ some id := by
  have hnot {r k} (hk : F.rack r = some k) : k.userMinerId ≠ some id := by
    intro hm
    obtain ⟨s, room, hs, -⟩ := h.holds hk hm
    rw [hnone] at hs
    cases hs
  refine ⟨hnot hk, fun hb => ?_⟩
  obtain ⟨r', k', hk', -, -, hm⟩ := h.blocked hk hb
  exact hnot hk' hm

theorem RacksOk.remove (id : ℕ) : RacksOk cfg (F.remove id) where
  rooms hk := by
    obtain ⟨k₀, hk₀, rfl⟩ := remove_rack_eq_some.mp hk
    exact h.rooms (k := k₀) hk₀
  unique hk hk' hroom hpos := by
    obtain ⟨k₀, hk₀, rfl⟩ := remove_rack_eq_some.mp hk
    obtain ⟨k₁, hk₁, rfl⟩ := remove_rack_eq_some.mp hk'
    exact h.unique hk₀ hk₁ hroom hpos
  once hk hk' hm hm' := by
    obtain ⟨k₀, hk₀, rfl⟩ := remove_rack_eq_some.mp hk
    obtain ⟨k₁, hk₁, rfl⟩ := remove_rack_eq_some.mp hk'
    exact h.once hk₀ hk₁ (release_userMinerId.mp hm).2 (release_userMinerId.mp hm').2
  holds hk hm := by
    obtain ⟨k₀, hk₀, rfl⟩ := remove_rack_eq_some.mp hk
    obtain ⟨hne, hm₀⟩ := release_userMinerId.mp hm
    obtain ⟨s, room, hs, hrest⟩ := h.holds hk₀ hm₀
    exact ⟨s, room, remove_spot_eq_some.mpr ⟨hne, hs⟩, hrest⟩
  free hk := by
    obtain ⟨k₀, hk₀, rfl⟩ := remove_rack_eq_some.mp hk
    rcases h.free hk₀ with hnone | hnone
    · exact Or.inl (by simp [UserRack.release, hnone])
    · exact Or.inr (by simp [UserRack.release, hnone])
  blocks hk hm hs hsize := by
    obtain ⟨k₀, hk₀, rfl⟩ := remove_rack_eq_some.mp hk
    obtain ⟨hne, hm₀⟩ := release_userMinerId.mp hm
    obtain ⟨r', k', hk', hroom, hpos, hb⟩ := h.blocks hk₀ hm₀ (remove_spot_eq_some.mp hs).2 hsize
    exact ⟨r', _, remove_rack hk', hroom, hpos, release_blockedByMinerId.mpr ⟨hne, hb⟩⟩
  blocked hk hb := by
    obtain ⟨k₀, hk₀, rfl⟩ := remove_rack_eq_some.mp hk
    obtain ⟨hne, hb₀⟩ := release_blockedByMinerId.mp hb
    obtain ⟨r', k', hk', hroom, hpos, hm⟩ := h.blocked hk₀ hb₀
    exact ⟨r', _, remove_rack hk', hroom, hpos, release_userMinerId.mpr ⟨hne, hm⟩⟩
  held hs hslot := by
    obtain ⟨hne, hs₀⟩ := remove_spot_eq_some.mp hs
    obtain ⟨r, k, hk, hm⟩ := h.held hs₀ hslot
    exact ⟨r, _, remove_rack hk, release_userMinerId.mpr ⟨hne, hm⟩⟩

/-- A new machine below the rooms. -/
theorem RacksOk.place {id : ℕ} {s : Spot} (hfresh : F.spot id = none)
    (hlt : s.slotIndex < ROOM_SLOTS) : RacksOk cfg (F.place id s) :=
  have hne {r k m} (hk : F.rack r = some k) (hm : k.userMinerId = some m) : m ≠ id := by
    rintro rfl
    exact (h.absent hfresh hk).1 hm
  { h with
    holds := fun hk hm => by
      obtain ⟨t, room, ht, hrest⟩ := h.holds hk hm
      exact ⟨t, room, (place_spot_of_ne (hne hk hm)).trans ht, hrest⟩
    blocks := fun hk hm hs => h.blocks hk hm ((place_spot_of_ne (hne hk hm)).symm.trans hs)
    held := fun {m t} ht hslot => by
      by_cases hm : m = id
      · subst hm
        obtain rfl := Option.some.inj ((place_spot_self F m s).symm.trans ht)
        exact absurd hslot (Nat.not_le_of_lt hlt)
      · rw [place_spot_of_ne hm] at ht
        exact h.held ht hslot }

/-- A machine that no rack holds moves below the rooms. -/
theorem RacksOk.move {id slotIndex : ℕ}
    (hnot : ∀ {r k}, F.rack r = some k → k.userMinerId ≠ some id) (hlt : slotIndex < ROOM_SLOTS) :
    RacksOk cfg (F.move id slotIndex) :=
  have hne {r k m} (hk : F.rack r = some k) (hm : k.userMinerId = some m) : m ≠ id := by
    rintro rfl
    exact hnot hk hm
  { h with
    holds := fun hk hm => by
      obtain ⟨t, room, ht, hrest⟩ := h.holds hk hm
      exact ⟨t, room, (move_spot_of_ne (hne hk hm)).trans ht, hrest⟩
    blocks := fun hk hm hs => h.blocks hk hm ((move_spot_of_ne (hne hk hm)).symm.trans hs)
    held := fun {m t} ht hslot => by
      by_cases hm : m = id
      · subst hm
        cases hs : F.spot m with
        | none =>
            have hgone : (F.move m slotIndex).spot m = none := by
              show (if m = m then (F.spot m).map _ else F.spot m) = none
              rw [if_pos rfl, hs, Option.map_none]
            rw [hgone] at ht
            cases ht
        | some s =>
            obtain rfl := Option.some.inj ((move_spot_self hs).symm.trans ht)
            exact absurd hslot (Nat.not_le_of_lt hlt)
      · rw [move_spot_of_ne hm] at ht
        exact h.held ht hslot }

theorem RacksOk.openRoom {u roomId roomNumber base racks : ℕ} (hroom : F.room roomId = none)
    (hracks : ∀ r, base ≤ r → F.rack r = none) :
    RacksOk cfg (F.openRoom u roomId roomNumber base racks) := by
  -- an old rack is numbered below the new ones and is in another room
  have hold {r k} (hk : F.rack r = some k) :
      (F.openRoom u roomId roomNumber base racks).rack r = some k := by
    refine openRoom_rack_eq_some.mpr (Or.inr ⟨fun hr => ?_, hk⟩)
    rw [hracks r hr.1] at hk
    cases hk
  have hother {r k} (hk : F.rack r = some k) : k.roomId ≠ roomId := fun heq =>
    h.rooms hk (heq ▸ hroom)
  have hrow {r k} (hk : F.rack r = some k) :
      (F.openRoom u roomId roomNumber base racks).room k.roomId = F.room k.roomId :=
    Function.update_of_ne (hother hk) _ _
  have hheld {r k m} (hk : (F.openRoom u roomId roomNumber base racks).rack r = some k)
      (hm : k.userMinerId = some m) : F.rack r = some k := by
    rcases openRoom_rack_eq_some.mp hk with ⟨-, rfl⟩ | ⟨-, hk⟩
    · cases hm
    · exact hk
  constructor
  case rooms =>
    intro r k hk
    rcases openRoom_rack_eq_some.mp hk with ⟨-, rfl⟩ | ⟨-, hk⟩
    · show Function.update F.room roomId _ roomId ≠ none
      rw [Function.update_self]
      exact Option.some_ne_none _
    · rw [hrow hk]
      exact h.rooms hk
  case unique =>
    intro r r' k k' hk hk' hroomId hpos
    rcases openRoom_rack_eq_some.mp hk with ⟨hr, rfl⟩ | ⟨-, hk⟩ <;>
      rcases openRoom_rack_eq_some.mp hk' with ⟨hr', rfl⟩ | ⟨-, hk'⟩
    · have hpos' : r - base = r' - base := hpos
      omega
    · exact absurd hroomId.symm (hother hk')
    · exact absurd hroomId (hother hk)
    · exact h.unique hk hk' hroomId hpos
  case once =>
    intro r r' k k' m hk hk' hm hm'
    exact h.once (hheld hk hm) (hheld hk' hm') hm hm'
  case holds =>
    intro r k m hk hm
    have hk := hheld hk hm
    rw [hrow hk]
    exact h.holds hk hm
  case free =>
    intro r k hk
    rcases openRoom_rack_eq_some.mp hk with ⟨-, rfl⟩ | ⟨-, hk⟩
    · exact Or.inl rfl
    · exact h.free hk
  case blocks =>
    intro r k m s hk hm hs hsize
    obtain ⟨r', k', hk', hrest⟩ := h.blocks (hheld hk hm) hm hs hsize
    exact ⟨r', k', hold hk', hrest⟩
  case blocked =>
    intro r k m hk hb
    rcases openRoom_rack_eq_some.mp hk with ⟨-, rfl⟩ | ⟨-, hk⟩
    · cases hb
    · obtain ⟨r', k', hk', hrest⟩ := h.blocked hk hb
      exact ⟨r', k', hold hk', hrest⟩
  case held =>
    intro m s hs hslot
    obtain ⟨r, k, hk, hm⟩ := h.held hs hslot
    exact ⟨r, k, hold hk, hm⟩

/-- A machine of at most two slots is installed in a free rack. -/
theorem RacksOk.hold {u rackId id : ℕ} {rack : UserRack} {s : Spot} {blocks : Option ℕ}
    (hcan : CanHold cfg F u rackId rack s blocks) (hfresh : F.spot id = none)
    (hsize : s.slotSize ≤ 2) : RacksOk cfg (F.hold id s rackId blocks) := by
  have hother := hcan.blocks_ne hsize
  have hholds {r k m} (hk : F.rack r = some k) :
      (k.hold id rackId blocks r).userMinerId = some m ↔
        (r = rackId ∧ m = id) ∨ (r ≠ rackId ∧ m ≠ id ∧ k.userMinerId = some m) :=
    hold_userMinerId (h.absent hfresh hk).1
  have hblocks {r k m} (hk : F.rack r = some k) :
      (k.hold id rackId blocks r).blockedByMinerId = some m ↔
        (blocks = some r ∧ m = id) ∨ (blocks ≠ some r ∧ m ≠ id ∧ k.blockedByMinerId = some m) :=
    hold_blockedByMinerId (h.absent hfresh hk).2
  have hself : (F.hold id s rackId blocks).rack rackId = some (rack.hold id rackId blocks rackId) :=
    hold_rack hcan.found
  constructor
  case rooms =>
    intro r k hk
    obtain ⟨k₀, hk₀, rfl⟩ := hold_rack_eq_some.mp hk
    exact h.rooms (k := k₀) hk₀
  case unique =>
    intro r r' k k' hk hk' hroom hpos
    obtain ⟨k₀, hk₀, rfl⟩ := hold_rack_eq_some.mp hk
    obtain ⟨k₁, hk₁, rfl⟩ := hold_rack_eq_some.mp hk'
    exact h.unique hk₀ hk₁ hroom hpos
  case once =>
    intro r r' k k' m hk hk' hm hm'
    obtain ⟨k₀, hk₀, rfl⟩ := hold_rack_eq_some.mp hk
    obtain ⟨k₁, hk₁, rfl⟩ := hold_rack_eq_some.mp hk'
    rcases (hholds hk₀).mp hm with ⟨rfl, rfl⟩ | ⟨-, hne, hm₀⟩ <;>
      rcases (hholds hk₁).mp hm' with ⟨rfl, heq⟩ | ⟨-, hne', hm₁⟩
    · rfl
    · exact absurd rfl hne'
    · exact absurd heq hne
    · exact h.once hk₀ hk₁ hm₀ hm₁
  case holds =>
    intro r k m hk hm
    obtain ⟨k₀, hk₀, rfl⟩ := hold_rack_eq_some.mp hk
    rcases (hholds hk₀).mp hm with ⟨rfl, rfl⟩ | ⟨-, hne, hm₀⟩
    · obtain rfl := Option.some.inj (hcan.found.symm.trans hk₀)
      obtain ⟨room, hroom, hslot⟩ := hcan.slot
      exact ⟨s, room, hold_spot_self F m s r blocks, hcan.spotUser.trans hcan.user.symm, hroom,
        hslot⟩
    · obtain ⟨t, room, ht, hrest⟩ := h.holds hk₀ hm₀
      exact ⟨t, room, (hold_spot_of_ne hne).trans ht, hrest⟩
  case free =>
    intro r k hk
    obtain ⟨k₀, hk₀, rfl⟩ := hold_rack_eq_some.mp hk
    by_cases hr : r = rackId
    · subst hr
      obtain rfl := Option.some.inj (hcan.found.symm.trans hk₀)
      exact Or.inr ((if_neg hother).trans (UserRack.isFree_iff.mp hcan.free).2)
    by_cases hb : blocks = some r
    · obtain ⟨k₁, hk₁, hnone, -⟩ := hcan.next hsize hb
      obtain rfl := Option.some.inj (hk₀.symm.trans hk₁)
      exact Or.inl ((if_neg hr).trans hnone)
    · rcases h.free hk₀ with hnone | hnone
      · exact Or.inl ((if_neg hr).trans hnone)
      · exact Or.inr ((if_neg hb).trans hnone)
  case blocks =>
    intro r k m t hk hm ht htwo
    obtain ⟨k₀, hk₀, rfl⟩ := hold_rack_eq_some.mp hk
    rcases (hholds hk₀).mp hm with ⟨rfl, rfl⟩ | ⟨-, hne, hm₀⟩
    · obtain rfl := Option.some.inj (hcan.found.symm.trans hk₀)
      obtain rfl := Option.some.inj ((hold_spot_self F m s r blocks).symm.trans ht)
      cases hb : blocks with
      | none =>
          have hcase := hcan.blocked
          rw [hb] at hcase
          have hsmall : slotCount s.slotSize < 2 := hcase
          rw [htwo] at hsmall
          exact absurd hsmall (by decide)
      | some next =>
          obtain ⟨k₁, hk₁, -, -, hroom, hpos⟩ := hcan.next hsize hb
          subst hb
          exact ⟨next, _, hold_rack hk₁, hroom, hpos, (hblocks hk₁).mpr (Or.inl ⟨rfl, rfl⟩)⟩
    · rw [hold_spot_of_ne hne] at ht
      obtain ⟨r', k', hk', hroom, hpos, hb⟩ := h.blocks hk₀ hm₀ ht htwo
      exact ⟨r', _, hold_rack hk', hroom, hpos, hcan.keeps_blocked hsize hk' hb⟩
  case blocked =>
    intro r k m hk hb
    obtain ⟨k₀, hk₀, rfl⟩ := hold_rack_eq_some.mp hk
    rcases (hblocks hk₀).mp hb with ⟨heq, rfl⟩ | ⟨-, -, hb₀⟩
    · obtain ⟨k₁, hk₁, -, -, hroom, hpos⟩ := hcan.next hsize heq
      obtain rfl := Option.some.inj (hk₀.symm.trans hk₁)
      exact ⟨rackId, _, hself, hroom.symm, hpos, (hholds hcan.found).mpr (Or.inl ⟨rfl, rfl⟩)⟩
    · obtain ⟨r', k', hk', hroom, hpos, hm⟩ := h.blocked hk₀ hb₀
      exact ⟨r', _, hold_rack hk', hroom, hpos, hcan.keeps_held hk' hm⟩
  case held =>
    intro m t ht hslot
    by_cases hm : m = id
    · exact ⟨rackId, _, hself, (hholds hcan.found).mpr (Or.inl ⟨rfl, hm⟩)⟩
    · rw [hold_spot_of_ne hm] at ht
      obtain ⟨r, k, hk, hm₀⟩ := h.held ht hslot
      exact ⟨r, _, hold_rack hk, hcan.keeps_held hk hm₀⟩

/-- Emptying the rack of a machine releases all its racks: what it blocks is
in the same room. -/
theorem RacksOk.uninstall_eq {rackId id : ℕ} {rack : UserRack} (hrack : F.rack rackId = some rack)
    (hheld : rack.userMinerId = some id) : F.uninstall rackId rack.roomId id = F.remove id := by
  refine congrArg (Floor.mk _ · _) (funext fun r => ?_)
  cases hk : F.rack r with
  | none => rfl
  | some k =>
      have hmachine : (r = rackId ∨ k.userMinerId = some id) ↔ k.userMinerId = some id := by
        refine or_iff_right_of_imp ?_
        rintro rfl
        obtain rfl := Option.some.inj (hrack.symm.trans hk)
        exact hheld
      have hblock : (k.roomId = rack.roomId ∧ k.blockedByMinerId = some id) ↔
          k.blockedByMinerId = some id := by
        refine and_iff_right_of_imp fun hb => ?_
        obtain ⟨r', k', hk', hroom, -, hm⟩ := h.blocked hk hb
        obtain rfl := h.once hrack hk' hheld hm
        obtain rfl := Option.some.inj (hrack.symm.trans hk')
        exact hroom.symm
      simp only [Option.map_some, hmachine, hblock]
      rfl

end Steps

/-! ## Runs -/

theorem RacksOk.removals {cfg : Config} {F F₁ : Floor} (h : RacksOk cfg F)
    (hremovals : Removals F F₁) : RacksOk cfg F₁ := by
  induction hremovals with
  | refl => exact h
  | tail _ hlast ih =>
      obtain ⟨id, rfl⟩ := hlast
      exact ih.remove id

/-- Removing machines puts none into a rack. -/
theorem removals_held {F F₁ : Floor} {m : ℕ}
    (hnot : ∀ {r k}, F.rack r = some k → k.userMinerId ≠ some m) (hremovals : Removals F F₁) :
    ∀ {r k}, F₁.rack r = some k → k.userMinerId ≠ some m := by
  induction hremovals with
  | refl => exact hnot
  | tail _ hlast ih =>
      obtain ⟨id, rfl⟩ := hlast
      intro r k hk hm
      obtain ⟨k₀, hk₀, rfl⟩ := remove_rack_eq_some.mp hk
      exact ih hk₀ (release_userMinerId.mp hm).2

/-- No machine that a rack holds is moved, and no machine of more than two
slots is installed in a rack. -/
def KeepsRacks (db : Db) : Op → Prop
  | .moveMachine _ machineId _ => ∀ p ∈ db.rack.rows, p.2.userMinerId ≠ some machineId
  | .installMiner _ _ inventoryId =>
      ∀ item ∈ db.inventory.row inventoryId, item.machine.slotSize ≤ 2
  | _ => True

instance (db : Db) : ∀ op, Decidable (KeepsRacks db op)
  | .moveMachine _ machineId _ =>
      inferInstanceAs (Decidable (∀ p ∈ db.rack.rows, p.2.userMinerId ≠ some machineId))
  | .installMiner _ _ inventoryId =>
      inferInstanceAs (Decidable (∀ item ∈ db.inventory.row inventoryId, item.machine.slotSize ≤ 2))
  | .createInventoryWithOwnedMachine .. | .bulkCreateInventoryWithOwnedMachines ..
  | .installInventoryItem .. | .removeInventoryItem .. | .removeMachine ..
  | .moveToVaultFromInventory .. | .moveToVaultFromRack .. | .retrieveFromVaultToInventory ..
  | .retrieveFromVaultToRack .. | .buyRoom .. | .uninstallMiner .. | .cleanupExpiredInventory .. =>
      inferInstanceAs (Decidable True)

/-- **Step lemma.** -/
theorem RacksOk.step {cfg : Config} {db : Db} {op : Op} {F' : Floor}
    (h : RacksOk cfg (floor db)) (hkeeps : KeepsRacks db op) (he : Effect cfg db op F') :
    RacksOk cfg F' := by
  have hbelow {slotIndex} (hlt : slotIndex < SLOTS) : slotIndex < ROOM_SLOTS :=
    Nat.lt_of_lt_of_le hlt (by decide)
  cases he with
  | same => exact h
  | removed id => exact h.remove id
  | installed hlt _ hslot hcleared hfresh _ =>
      exact (h.removals hcleared.removals).place hfresh (hslot ▸ hbelow hlt)
  | retrieved hlt _ hslot hcleared hfresh _ =>
      exact (h.removals hcleared.removals).place hfresh (hslot ▸ hbelow hlt)
  | moved hlt _ _ hcleared _ =>
      refine (h.removals hcleared.removals).move (removals_held ?_ hcleared.removals) (hbelow hlt)
      intro r k hk
      exact hkeeps (r, k) (Table.mem_rows.mpr hk)
  | opened hroom hracks => exact h.openRoom hroom hracks
  | held hitem hsize hcan hfresh => exact h.hold hcan hfresh (hsize ▸ hkeeps _ hitem)
  | uninstalled hrack hheld =>
      rw [h.uninstall_eq hrack hheld]
      exact h.remove _

/-- Without rooms there is nothing to keep. -/
theorem RacksOk.of_empty (cfg : Config) : RacksOk cfg (floor .empty) where
  rooms hk := by cases hk
  unique hk := by cases hk
  once hk := by cases hk
  holds hk := by cases hk
  free hk := by cases hk
  blocks hk := by cases hk
  blocked hk := by cases hk
  held hs := by cases hs

theorem RacksOk.run {cfg : Config} {db db' : Db} {ops : List Op} (h : RacksOk cfg (floor db))
    (hkeeps : (system cfg).Meets KeepsRacks db ops)
    (hrun : (system cfg).run db ops = some db') : RacksOk cfg (floor db') :=
  (system cfg).run_invariant (I := fun db => RacksOk cfg (floor db))
    (fun _ _ _ h hC hstep => h.step hC (exec_effect (toOption_eq_some.mp hstep)))
    h hkeeps hrun

/-- **Rooms and racks agree.** In a run that moves no machine out of a rack
with `moveMachine` and installs no machine of more than two slots, rooms
and racks stay consistent. -/
theorem rooms_consistent {cfg : Config} {db db' : Db} {ops : List Op}
    (h : RacksOk cfg (floor db)) (hkeeps : (system cfg).Meets KeepsRacks db ops)
    (hrun : (system cfg).run db ops = some db') : RoomsConsistent cfg (floor db') :=
  (h.run hkeeps hrun).consistent

/-- A large machine installed in the first rack of a room and taken out, and
another one installed after it. -/
def installedInTurn : List Op :=
  [.buyRoom 1, .bulkCreateInventoryWithOwnedMachines 1 (customMachine 2) 2, .installMiner 1 1 1,
    .uninstallMiner 1 1, .installMiner 1 2 2, .removeMachine 1 2]

theorem rooms_consistent_inTurn :
    ∃ db, (system defaults).run .empty installedInTurn = some db
      ∧ RoomsConsistent defaults (floor db) :=
  have hrun : ((system defaults).run .empty installedInTurn).isSome := by decide +kernel
  ⟨_, (Option.some_get hrun).symm,
    rooms_consistent (.of_empty _) (by decide +kernel) (Option.some_get hrun).symm⟩

/-- A machine installed in a rack of a room and moved to slot 0. -/
def movedOutOfRack : List Op :=
  [.buyRoom 1, .createInventoryWithOwnedMachine 1 (customMachine 1) none, .installMiner 1 1 1,
    .moveMachine 1 1 0]

theorem move_keeps_rack :
    ¬ ∀ (cfg : Config) (db db' : Db) (ops : List Op), RacksOk cfg (floor db) →
        (system cfg).run db ops = some db' → RoomsConsistent cfg (floor db') := by
  intro h
  have hmoved : ∃ db ∈ (system defaults).run .empty movedOutOfRack,
      (∃ k ∈ (floor db).rack 1, k.userMinerId = some 1)
        ∧ ∃ s ∈ (floor db).spot 1, s.slotIndex = 0 := by
    decide +kernel
  obtain ⟨db, hrun, ⟨k, hk, hm⟩, s, hs, hslot⟩ := hmoved
  obtain ⟨t, room, ht, -, -, hindex⟩ :=
    (h defaults .empty db movedOutOfRack (.of_empty _) hrun).occupied hk hm
  obtain rfl := Option.some.inj (ht.symm.trans hs)
  have hge := rackSlotIndex_ge defaults room.roomNumber k.position
  rw [← hindex, hslot] at hge
  exact absurd hge (by decide)

end BlockMiner.Machines
