import Mathlib.Logic.Relation
import BlockMiner.Machines

/-!
# The floor: who stands where

What the slots, the racks and the rooms have to do with each other depends
on a machine's user, slot and size only. `floor` is that view of the
tables, and `Effect` says once what each operation can do to it: take
machines away, place one (with what it has cleared before), move one, open
a room, hold a machine in a rack, or take it out of one.
-/

namespace BlockMiner.Machines

structure Spot where
  userId : UserId
  slotIndex : ℕ
  slotSize : ℕ
deriving DecidableEq

structure Floor where
  spot : ℕ → Option Spot
  rack : ℕ → Option UserRack
  room : ℕ → Option UserRoom

def UserMiner.spot (m : UserMiner) : Spot := ⟨m.userId, m.slotIndex, m.specs.slotSize⟩

def floor (db : Db) : Floor where
  spot i := (db.userMiner.row i).map UserMiner.spot
  rack := db.rack.row
  room := db.room.row

theorem floor_spot {db : Db} {i : ℕ} {m : UserMiner} (h : db.userMiner.row i = some m) :
    (floor db).spot i = some m.spot := congrArg (Option.map UserMiner.spot) h

theorem floor_spot_eq_some {db : Db} {i : ℕ} {s : Spot} :
    (floor db).spot i = some s ↔ ∃ m, db.userMiner.row i = some m ∧ m.spot = s :=
  Option.map_eq_some_iff

/-- The rack without any trace of machine `id`. -/
def UserRack.release (id : ℕ) (k : UserRack) : UserRack :=
  { k with
    userMinerId := if k.userMinerId = some id then none else k.userMinerId
    blockedByMinerId := if k.blockedByMinerId = some id then none else k.blockedByMinerId }

namespace Floor

variable (F : Floor)

/-- Machine `id` is taken away and its racks are released. -/
def remove (id : ℕ) : Floor where
  spot := Function.update F.spot id none
  rack r := (F.rack r).map (·.release id)
  room := F.room

def place (id : ℕ) (s : Spot) : Floor := { F with spot := Function.update F.spot id (some s) }

def move (id slotIndex : ℕ) : Floor :=
  { F with spot := fun i => if i = id then (F.spot i).map ({ · with slotIndex }) else F.spot i }

/-- Machine `id` is placed and held by a rack, and blocks another one if it
is a large one. -/
def hold (id : ℕ) (s : Spot) (rackId : ℕ) (blocks : Option ℕ) : Floor where
  spot := Function.update F.spot id (some s)
  rack r := (F.rack r).map fun k =>
    { k with
      userMinerId := if r = rackId then some id else k.userMinerId
      blockedByMinerId := if blocks = some r then some id else k.blockedByMinerId }
  room := F.room

/-- Machine `id` is taken away, the rack emptied, and the racks that `id`
blocks in that room freed. -/
def uninstall (rackId roomId id : ℕ) : Floor where
  spot := Function.update F.spot id none
  rack r := (F.rack r).map fun k =>
    { k with
      userMinerId := if r = rackId ∨ k.userMinerId = some id then none else k.userMinerId
      blockedByMinerId :=
        if k.roomId = roomId ∧ k.blockedByMinerId = some id then none else k.blockedByMinerId }
  room := F.room

/-- A new room with its racks, numbered from `base`. -/
def openRoom (u : UserId) (roomId roomNumber base racks : ℕ) : Floor where
  spot := F.spot
  rack r :=
    if base ≤ r ∧ r < base + racks then
      some
        { userId := u, roomId, position := r - base, userMinerId := none, blockedByMinerId := none }
    else F.rack r
  room := Function.update F.room roomId (some ⟨u, roomNumber⟩)

end Floor

section Spots

variable {F : Floor} {id i : ℕ} {s : Spot}

theorem remove_spot_eq_some : (F.remove id).spot i = some s ↔ i ≠ id ∧ F.spot i = some s := by
  show Function.update F.spot id none i = some s ↔ _
  rw [Function.update_apply]
  split
  case isTrue h => simp [h]
  case isFalse h => simp [h]

theorem place_spot_of_ne {t : Spot} (hi : i ≠ id) : (F.place id t).spot i = F.spot i :=
  Function.update_of_ne hi _ _

theorem place_spot_self (F : Floor) (id : ℕ) (s : Spot) : (F.place id s).spot id = some s :=
  Function.update_self _ _ _

theorem move_spot_of_ne {slotIndex : ℕ} (hi : i ≠ id) :
    (F.move id slotIndex).spot i = F.spot i := if_neg hi

theorem move_spot_self {slotIndex : ℕ} (hs : F.spot id = some s) :
    (F.move id slotIndex).spot id = some { s with slotIndex } := by
  show (if id = id then (F.spot id).map _ else F.spot id) = _
  rw [if_pos rfl, hs, Option.map_some]

theorem hold_spot_of_ne {t : Spot} {rackId : ℕ} {blocks : Option ℕ} (hi : i ≠ id) :
    (F.hold id t rackId blocks).spot i = F.spot i := Function.update_of_ne hi _ _

theorem hold_spot_self (F : Floor) (id : ℕ) (s : Spot) (rackId : ℕ) (blocks : Option ℕ) :
    (F.hold id s rackId blocks).spot id = some s := Function.update_self _ _ _

end Spots

/-- Some machines are taken away. -/
abbrev Removals : Floor → Floor → Prop := Relation.ReflTransGen fun F F' => ∃ id, F' = F.remove id

/-- `F₁` is what the queries before a placement leave of `F`: no machine of
the user but the one that moves starts in the target slots, and, if the placement looks
back, no large one in the slot before an odd target, unless there are two. -/
structure Cleared (F F₁ : Floor) (u slotIndex slots : ℕ) (mover : Option ℕ) (looksBack : Prop) :
    Prop where
  removals : Removals F F₁
  kept : ∀ {i s}, F₁.spot i = some s → F.spot i = some s
  moverKept : ∀ {i}, mover = some i → F₁.spot i = F.spot i
  apart : ∀ {i s}, F₁.spot i = some s → s.userId = u → mover ≠ some i → slotIndex ≤ s.slotIndex →
    slotIndex + slots ≤ s.slotIndex
  back : looksBack → slotIndex % 2 = 1 → ∀ {i s}, F₁.spot i = some s → s.userId = u →
    mover ≠ some i → s.slotIndex + 1 = slotIndex → s.slotSize = 2 →
    ∃ j t, j ≠ i ∧ F.spot j = some t ∧ t.userId = u ∧ t.slotIndex = s.slotIndex

/-- No machine of the user other than `self` stands at the slot. -/
def Floor.Vacant (F : Floor) (u slotIndex : ℕ) (self : Option ℕ) : Prop :=
  ∀ i s, F.spot i = some s → s.userId = u → s.slotIndex = slotIndex → self = some i

/-- A rack and what `installMiner` finds for it. -/
structure CanHold (cfg : Config) (F : Floor) (u : UserId) (rackId : ℕ) (rack : UserRack) (s : Spot)
    (blocks : Option ℕ) : Prop where
  found : F.rack rackId = some rack
  user : rack.userId = u
  free : rack.isFree = true
  slot : ∃ room, F.room rack.roomId = some room
    ∧ s.slotIndex = rackSlotIndex cfg room.roomNumber rack.position
  spotUser : s.userId = u
  blocked : match blocks with
    | none => slotCount s.slotSize < 2
    | some id => 2 ≤ slotCount s.slotSize ∧ ∃ adjacent, F.rack id = some adjacent
        ∧ adjacent.roomId = rack.roomId ∧ adjacent.isFree = true
        ∧ adjacent.position = rack.position + (slotCount s.slotSize - 1)

/-- What an operation can do to the floor. -/
inductive Effect (cfg : Config) (db : Db) : Op → Floor → Prop
  | same {op} : Effect cfg db op (floor db)
  | removed {op} (id : ℕ) : Effect cfg db op ((floor db).remove id)
  | installed {u slotIndex inventoryId F₁ id s} (hlt : slotIndex < SLOTS) (hu : s.userId = u)
      (hslot : s.slotIndex = slotIndex)
      (hclear : Cleared (floor db) F₁ u slotIndex s.slotSize none True) (hfresh : F₁.spot id = none)
      (hvacant : F₁.Vacant u slotIndex none) :
      Effect cfg db (.installInventoryItem u slotIndex inventoryId) (F₁.place id s)
  | retrieved {u vaultId slotIndex F₁ id s} (hlt : slotIndex < SLOTS) (hu : s.userId = u)
      (hslot : s.slotIndex = slotIndex)
      (hclear : Cleared (floor db) F₁ u slotIndex s.slotSize none False)
      (hfresh : F₁.spot id = none) (hvacant : F₁.Vacant u slotIndex none) :
      Effect cfg db (.retrieveFromVaultToRack u vaultId slotIndex) (F₁.place id s)
  | moved {u id slotIndex F₁ s} (hlt : slotIndex < SLOTS) (hs : (floor db).spot id = some s)
      (hu : s.userId = u) (hclear : Cleared (floor db) F₁ u slotIndex s.slotSize (some id) True)
      (hvacant : F₁.Vacant u slotIndex (some id)) :
      Effect cfg db (.moveMachine u id slotIndex) (F₁.move id slotIndex)
  | opened {u roomId roomNumber base} (hroom : db.room.row roomId = none)
      (hracks : ∀ r, base ≤ r → db.rack.row r = none) :
      Effect cfg db (.buyRoom u) ((floor db).openRoom u roomId roomNumber base cfg.RACKS_PER_ROOM)
  | held {u rackId inventoryId id rack s blocks item}
      (hitem : db.inventory.row inventoryId = some item)
      (hsize : s.slotSize = item.machine.slotSize)
      (hcan : CanHold cfg (floor db) u rackId rack s blocks) (hfresh : (floor db).spot id = none) :
      Effect cfg db (.installMiner u rackId inventoryId) ((floor db).hold id s rackId blocks)
  | uninstalled {u rackId rack id} (hrack : db.rack.row rackId = some rack)
      (hheld : rack.userMinerId = some id) :
      Effect cfg db (.uninstallMiner u rackId) ((floor db).uninstall rackId rack.roomId id)

/-! ## Writes that can fail -/

section Writes

variable {db db' : Db}

theorem createInventory_eq_some {r : Inventory} (h : db.createInventory r = some db') :
    db' = { db with inventory := db.inventory.insert r } := by
  unfold Db.createInventory at h
  split at h
  case isTrue => cases h
  case isFalse => exact (Option.some.inj h).symm

theorem createVault_eq_some {r : Vault} (h : db.createVault r = some db') :
    db' = { db with vault := db.vault.insert r } := by
  unfold Db.createVault at h
  split at h
  case isTrue => cases h
  case isFalse => exact (Option.some.inj h).symm

/-- The slot is vacant. -/
theorem createUserMiner_eq_some {m : UserMiner} (h : db.createUserMiner m = some db') :
    db' = { db with userMiner := db.userMiner.insert m }
      ∧ ∀ i r, db.userMiner.row i = some r → r.userId = m.userId → r.slotIndex ≠ m.slotIndex := by
  unfold Db.createUserMiner at h
  split at h
  case isTrue => cases h
  case isFalse =>
    split at h
    case isTrue => cases h
    case isFalse hnone =>
      refine ⟨(Option.some.inj h).symm, fun i r hr hu hslot => hnone ?_⟩
      exact List.any_eq_true.mpr ⟨(i, r), Table.mem_rows.mpr hr, decide_eq_true ⟨hu, hslot⟩⟩

/-- The slot is vacant but for the machine that moves. -/
theorem setSlotIndex_eq_some {id slotIndex : ℕ} {u : UserId}
    (h : db.setSlotIndex id slotIndex u = some db') :
    db' = { db with userMiner := db.userMiner.modify id fun m => { m with slotIndex } }
      ∧ ∀ i r, db.userMiner.row i = some r → r.userId = u → r.slotIndex = slotIndex → i = id := by
  unfold Db.setSlotIndex at h
  split at h
  case isTrue => cases h
  case isFalse hnone =>
    refine ⟨(Option.some.inj h).symm, fun i r hr hu hslot => ?_⟩
    by_contra hne
    refine hnone (List.any_eq_true.mpr ⟨(i, r), Table.mem_rows.mpr hr, ?_⟩)
    exact decide_eq_true ⟨hne, hu, hslot⟩

theorem syncOwnedMachineSnapshot_eq_some {om : ℕ} {location : MachineInstanceLocation}
    {machine : Snapshot} (h : db.syncOwnedMachineSnapshot om location machine = some db') :
    db' = { db with owned := db.owned.modify om fun o => { o with location, machine } } := by
  unfold Db.syncOwnedMachineSnapshot at h
  split at h
  case isTrue => cases h
  case isFalse => exact (Option.some.inj h).symm

/-! ## The floor after each write -/

theorem floor_setOwnedMachineId (db : Db) (om : ℕ) (p : Place) :
    floor (db.setOwnedMachineId om p) = floor db := by
  obtain ⟨_ | _ | _, id⟩ := p
  · rfl
  · refine congrArg (Floor.mk · _ _) (funext fun i => ?_)
    show ((db.userMiner.modify id _).row i).map UserMiner.spot = _
    rw [Table.modify_row]
    split
    · rw [Option.map_map]
      rfl
    · rfl
  · rfl

theorem floor_ensureOwnedMachine (db : Db) (p : Place) (u : UserId) (machine : Snapshot)
    (om : Option ℕ) : floor (db.ensureOwnedMachine p u machine om).1 = floor db := by
  cases om with
  | some om => rfl
  | none => exact floor_setOwnedMachineId _ _ p

theorem floor_createInventory {r : Inventory} (h : db.createInventory r = some db') :
    floor db' = floor db := by
  rw [createInventory_eq_some h]
  rfl

theorem floor_createVault {r : Vault} (h : db.createVault r = some db') :
    floor db' = floor db := by
  rw [createVault_eq_some h]
  rfl

/-- A machine is created at a vacant slot, under a fresh id. -/
theorem createUserMiner_floor {m : UserMiner} (h : db.createUserMiner m = some db') :
    floor db' = (floor db).place db.userMiner.nextId m.spot
      ∧ (floor db).Vacant m.userId m.slotIndex none := by
  obtain ⟨rfl, hvacant⟩ := createUserMiner_eq_some h
  constructor
  · refine congrArg (Floor.mk · _ _) ?_
    funext i
    show ((db.userMiner.insert m).row i).map UserMiner.spot = _
    rw [Table.insert_row, Function.update_apply]
    split
    · rfl
    · rfl
  · intro i s hs hu hslot
    obtain ⟨r, hr, rfl⟩ := floor_spot_eq_some.mp hs
    exact absurd hslot (hvacant i r hr hu)

theorem setSlotIndex_floor {id slotIndex : ℕ} {u : UserId}
    (h : db.setSlotIndex id slotIndex u = some db') :
    floor db' = (floor db).move id slotIndex ∧ (floor db).Vacant u slotIndex (some id) := by
  obtain ⟨rfl, hvacant⟩ := setSlotIndex_eq_some h
  constructor
  · refine congrArg (Floor.mk · _ _) (funext fun i => ?_)
    show ((db.userMiner.modify id _).row i).map UserMiner.spot = _
    rw [Table.modify_row]
    by_cases hi : i = id
    · rw [if_pos hi, if_pos hi, Option.map_map]
      show _ = ((db.userMiner.row i).map UserMiner.spot).map _
      rw [Option.map_map]
      rfl
    · rw [if_neg hi, if_neg hi]
      rfl
  · intro i s hs hu hslot
    obtain ⟨r, hr, rfl⟩ := floor_spot_eq_some.mp hs
    exact congrArg some (hvacant i r hr hu hslot).symm

/-- What `carry` leaves: the created row, the identity synced (which the
floor does not see), and the old row deleted. -/
theorem carry_ok {owned : Db × ℕ} {p : Place} {location : MachineInstanceLocation}
    {machine : Snapshot} {create : Db → ℕ → Option Db}
    (h : Db.carry owned p location machine create = some db') :
    ∃ db₁ db₂, create owned.1 owned.2 = some db₁
      ∧ db₁.syncOwnedMachineSnapshot owned.2 location machine = some db₂
      ∧ db' = db₂.deleteChild p := by
  obtain ⟨db₂, hsync, rfl⟩ := Option.map_eq_some_iff.mp h
  obtain ⟨db₁, hcreate, hsync⟩ := Option.bind_eq_some_iff.mp hsync
  exact ⟨db₁, db₂, hcreate, hsync, rfl⟩

theorem floor_syncOwnedMachineSnapshot {om : ℕ} {location : MachineInstanceLocation}
    {machine : Snapshot} (h : db.syncOwnedMachineSnapshot om location machine = some db') :
    floor db' = floor db := by
  rw [syncOwnedMachineSnapshot_eq_some h]
  rfl

/-- The floor after a machine that was not released is deleted. -/
def Floor.delete (F : Floor) (id : ℕ) : Floor where
  spot := Function.update F.spot id none
  rack r := (F.rack r).map fun k =>
    { k with userMinerId := if k.userMinerId = some id then none else k.userMinerId }
  room := F.room

theorem floor_deleteChild (db : Db) (p : Place) :
    floor (db.deleteChild p) = if p.1 = .RACK then (floor db).delete p.2 else floor db := by
  obtain ⟨_ | _ | _, id⟩ := p
  · rfl
  · rw [if_pos rfl]
    refine congrArg₂ (Floor.mk · · _) (funext fun i => ?_) (funext fun r => ?_)
    · show ((db.userMiner.delete id).row i).map UserMiner.spot = _
      rw [Table.delete_row, Function.update_apply]
      split
      · rfl
      · rfl
    · show (db.rack.updateMany _ _).row r = (db.rack.row r).map _
      rw [Table.updateMany_row]
      refine congrArg (Option.map · (db.rack.row r)) (funext fun k => ?_)
      by_cases hk : k.userMinerId = some id
      · simp [hk]
      · simp [hk]
  · rfl

theorem floor_release_delete (db : Db) (id : ℕ) :
    (floor (db.releaseUserMinerFromRacks id)).delete id = (floor db).remove id := by
  refine congrArg (Floor.mk _ · _) (funext fun r => ?_)
  show (((db.rack.updateMany _ _).updateMany _ _).row r).map _ = (db.rack.row r).map _
  rw [Table.updateMany_row, Table.updateMany_row, Option.map_map, Option.map_map]
  refine congrArg (Option.map · (db.rack.row r)) (funext fun k => ?_)
  by_cases hm : k.userMinerId = some id <;> by_cases hb : k.blockedByMinerId = some id <;>
    simp [UserRack.release, hm, hb]

theorem floor_evict (db : Db) (snapshot : Specs → Snapshot) (u : UserId) (m : ℕ × UserMiner) :
    floor (db.evict snapshot u m) = (floor db).remove m.1 := by
  unfold Db.evict
  rw [floor_deleteChild, if_pos rfl, ← floor_release_delete]
  rfl

end Writes

/-! ## Clearing the slots -/

section Clearing

variable {snapshot : Specs → Snapshot} {db : Db} {u slotIndex slots : ℕ} {self : Option ℕ}

theorem evictAll_spot (ms : List (ℕ × UserMiner)) (db : Db) (i : ℕ) (s : Spot) :
    (floor (ms.foldl (fun db m => db.evict snapshot u m) db)).spot i = some s ↔
      i ∉ ms.map Prod.fst ∧ (floor db).spot i = some s := by
  induction ms generalizing db with
  | nil => simp
  | cons m ms ih =>
      rw [List.foldl_cons, ih, floor_evict, remove_spot_eq_some, List.map_cons, List.mem_cons]
      tauto

theorem evictAll_removals (ms : List (ℕ × UserMiner)) (db : Db) :
    Removals (floor db) (floor (ms.foldl (fun db m => db.evict snapshot u m) db)) := by
  induction ms generalizing db with
  | nil => exact Relation.ReflTransGen.refl
  | cons m ms ih =>
      refine Relation.ReflTransGen.head ⟨m.1, ?_⟩ (ih (db.evict snapshot u m))
      exact floor_evict db snapshot u m

theorem mem_overlapping {i : ℕ} :
    i ∈ (db.userMiner.findMany (Db.overlaps u slotIndex slots self)).map Prod.fst ↔
      ∃ m, db.userMiner.row i = some m ∧ Db.overlaps u slotIndex slots self i m = true := by
  constructor
  · intro h
    obtain ⟨⟨j, m⟩, hm, rfl⟩ := List.mem_map.mp h
    exact ⟨m, Table.mem_findMany.mp hm⟩
  · rintro ⟨m, hm⟩
    exact List.mem_map.mpr ⟨(i, m), Table.mem_findMany.mpr hm, rfl⟩

/-- The machines in the target slots are gone, the others stand. -/
theorem evictOverlapping_spot {i : ℕ} {s : Spot} :
    (floor (db.evictOverlapping snapshot u slotIndex slots self)).spot i = some s ↔
      (floor db).spot i = some s
        ∧ ¬(s.userId = u ∧ slotIndex ≤ s.slotIndex ∧ s.slotIndex < slotIndex + slots
          ∧ self ≠ some i) := by
  unfold Db.evictOverlapping
  rw [evictAll_spot, mem_overlapping]
  constructor
  · rintro ⟨hnot, hs⟩
    refine ⟨hs, fun hover => hnot ?_⟩
    obtain ⟨m, hm, rfl⟩ := floor_spot_eq_some.mp hs
    exact ⟨m, hm, decide_eq_true hover⟩
  · rintro ⟨hs, hnot⟩
    refine ⟨?_, hs⟩
    rintro ⟨m, hm, hover⟩
    obtain rfl := Option.some.inj ((floor_spot hm).symm.trans hs)
    exact hnot (of_decide_eq_true hover)

theorem evictOverlapping_cleared :
    Cleared (floor db) (floor (db.evictOverlapping snapshot u slotIndex slots self)) u slotIndex
      slots self False where
  removals := evictAll_removals _ db
  kept h := (evictOverlapping_spot.mp h).1
  moverKept {i} hi := by
    apply Option.ext
    intro s
    rw [evictOverlapping_spot]
    exact and_iff_left (fun h => h.2.2.2 hi)
  apart {i s} hs hu hself hle := by
    by_contra hlt
    exact (evictOverlapping_spot.mp hs).2 ⟨hu, hle, by omega, hself⟩
  back h := h.elim

/-- What looking back evicts: nothing, or the first machine of the user in
the slot before an odd target, when it is a large one. -/
theorem evictPrevious_cases (db : Db) (snapshot : Specs → Snapshot) (u slotIndex : ℕ)
    (self : Option ℕ) :
    (db.evictPrevious snapshot u slotIndex self = db
        ∧ ∀ i m, db.userMiner.row i = some m → Db.isPrevious u slotIndex self i m = true →
          m.specs.slotSize = 2 →
          ∃ j m', j ≠ i ∧ db.userMiner.row j = some m' ∧ Db.isPrevious u slotIndex self j m' = true)
      ∨ ∃ id m, db.userMiner.row id = some m ∧ Db.isPrevious u slotIndex self id m = true
          ∧ m.specs.slotSize = 2
          ∧ db.evictPrevious snapshot u slotIndex self = db.evict snapshot u (id, m) := by
  unfold Db.evictPrevious
  cases hfirst : db.userMiner.findFirst (Db.isPrevious u slotIndex self) with
  | none =>
      refine Or.inl ⟨rfl, fun i m hm hprev => ?_⟩
      rw [Table.findFirst_eq_none.mp hfirst i m hm] at hprev
      cases hprev
  | some found =>
      obtain ⟨id, m⟩ := found
      obtain ⟨hm, hprev⟩ := Table.findFirst_eq_some hfirst
      by_cases hsize : m.specs.slotSize = 2
      · exact Or.inr ⟨id, m, hm, hprev, hsize, if_pos hsize⟩
      · refine Or.inl ⟨if_neg hsize, fun i m' hm' _ hsize' => ⟨id, m, ?_, hm, hprev⟩⟩
        rintro rfl
        obtain rfl := Option.some.inj (hm.symm.trans hm')
        exact hsize hsize'

/-- Looking back, after the target slots are cleared. -/
theorem Cleared.evictPrevious {F : Floor}
    (h : Cleared F (floor db) u slotIndex slots self False) :
    Cleared F (floor (db.evictPrevious snapshot u slotIndex self)) u slotIndex slots self True := by
  rcases evictPrevious_cases db snapshot u slotIndex self with
    ⟨heq, hprev⟩ | ⟨id, m, hm, hprev, hsize, heq⟩
  · rw [heq]
    refine { h with back := fun _ hodd {i s} hs hu hself hslot hsize => ?_ }
    obtain ⟨r, hr, rfl⟩ := floor_spot_eq_some.mp hs
    obtain ⟨j, r', hne, hr', hj⟩ := hprev i r hr
      (decide_eq_true ⟨hodd, hu, Nat.eq_sub_of_add_eq hslot, hself⟩) hsize
    have hj' := of_decide_eq_true hj
    refine ⟨j, r'.spot, hne, h.kept (floor_spot hr'), hj'.2.1, ?_⟩
    exact hj'.2.2.1.trans (Nat.eq_sub_of_add_eq hslot).symm
  · rw [heq, floor_evict]
    have hprev := of_decide_eq_true hprev
    refine ⟨h.removals.tail ⟨id, rfl⟩, fun {i s} hs => h.kept (remove_spot_eq_some.mp hs).2,
      fun {i} hi => ?_, fun {i s} hs => h.apart (remove_spot_eq_some.mp hs).2, ?_⟩
    · rw [← h.moverKept hi]
      refine Function.update_of_ne ?_ _ _
      rintro rfl
      exact hprev.2.2.2 hi
    · intro _ hodd i s hs hu hself hslot hsize'
      obtain ⟨hne, hs⟩ := remove_spot_eq_some.mp hs
      refine ⟨id, m.spot, hne.symm, h.kept (floor_spot hm), hprev.2.1, ?_⟩
      exact hprev.2.2.1.trans (Nat.eq_sub_of_add_eq hslot).symm

end Clearing

end BlockMiner.Machines
