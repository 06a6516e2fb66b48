import BlockMiner.MachineEffect
import BlockMiner.MachineRacks

/-!
# Two reports on the racks

`listRooms` counts the racks of the user's rooms, and a rack that a large
machine blocks counts as occupied; `getSlotsSummary` counts the racks of the
user, and only those that hold a machine. `installMiner` goes by the first
notion. The racks are the same, since every rack is in a room of its user
(`Owned`), so the two reports agree if and only if no large machine stands in
a rack.
-/

namespace BlockMiner.Machines

variable (cfg : Config)

/-! ## The reports -/

structure Occupancy where
  totalRacks : ℕ
  occupiedRacks : ℕ
  freeRacks : ℤ

structure SlotsSummary extends Occupancy where
  inventoryCount : ℕ

namespace Db

variable (db : Db) (u : UserId)

/-- The racks of a room. -/
def racksOf (roomId : ℕ) : List (ℕ × UserRack) := db.rack.findMany fun _ k => k.roomId = roomId

/-- The counts of the answer. -/
def listRooms : Occupancy :=
  let rooms := db.room.findMany fun _ room => room.userId = u
  let totalRacks := (rooms.map fun room => (db.racksOf room.1).length).sum
  let occupiedRacks := (rooms.map fun room =>
    ((db.racksOf room.1).filter fun k =>
      k.2.userMinerId.isSome || k.2.blockedByMinerId.isSome).length).sum
  { totalRacks, occupiedRacks, freeRacks := (totalRacks : ℤ) - occupiedRacks }

def getSlotsSummary : SlotsSummary :=
  let totalRacks := (db.rack.findMany fun _ k => k.userId = u).length
  let occupiedRacks := (db.rack.findMany fun _ k => k.userId = u && k.userMinerId.isSome).length
  { totalRacks, occupiedRacks, freeRacks := (totalRacks : ℤ) - occupiedRacks
    inventoryCount := (db.inventory.findMany fun _ item => item.userId = u).length }

end Db

/-- An install is refused because a rack is occupied. -/
def refusedAsOccupied : Except Refusal Db → Bool
  | .error .rackOccupied | .error .adjacentRackOccupied => true
  | _ => false

/-- The racks of the user on which the item could be installed as far as they are concerned. -/
def installableRacks (db : Db) (u : UserId) (inventoryId : ℕ) : List (ℕ × UserRack) :=
  (db.rack.findMany fun _ k => k.userId = u).filter fun k =>
    !refusedAsOccupied (db.installMiner cfg u k.1 inventoryId)

/-- The reports say the same, and what an install of a machine of one slot goes by. -/
structure ReportsAgree (db : Db) (u : UserId) : Prop where
  same : db.listRooms u = (db.getSlotsSummary u).toOccupancy
  installable : ∀ inventoryId item, inventoryId ≠ 0 →
    db.getInventoryItem u inventoryId = some item → slotCount item.machine.slotSize = 1 →
      (db.getSlotsSummary u).freeRacks = (installableRacks cfg db u inventoryId).length

/-- A machine of two slots stands in a rack of the user. -/
def HasLarge (db : Db) (u : UserId) : Prop :=
  ∃ r k m machine, db.rack.row r = some k ∧ k.userId = u ∧ k.userMinerId = some m
    ∧ db.userMiner.row m = some machine ∧ machine.specs.slotSize = 2

/-! ## Whose racks they are -/

/-- A rack is in a room of its user, and is blocked by a large machine only. -/
structure Owned (F : Floor) : Prop where
  room : ∀ {r k}, F.rack r = some k → ∃ room, F.room k.roomId = some room ∧ room.userId = k.userId
  large : ∀ {r k m s}, F.rack r = some k → k.blockedByMinerId = some m → F.spot m = some s →
    s.slotSize = 2

section Steps

variable {cfg} {F : Floor} (h : Owned F)
include h

theorem Owned.remove (id : ℕ) : Owned (F.remove id) where
  room hk := by
    obtain ⟨k₀, hk₀, rfl⟩ := remove_rack_eq_some.mp hk
    exact h.room (k := k₀) hk₀
  large hk hb hs := by
    obtain ⟨k₀, hk₀, rfl⟩ := remove_rack_eq_some.mp hk
    exact h.large hk₀ (release_blockedByMinerId.mp hb).2 (remove_spot_eq_some.mp hs).2

theorem Owned.openRoom {u roomId roomNumber base racks : ℕ} (hroom : F.room roomId = none) :
    Owned (F.openRoom u roomId roomNumber base racks) where
  room {r k} hk := by
    rcases openRoom_rack_eq_some.mp hk with ⟨-, rfl⟩ | ⟨-, hk⟩
    · exact ⟨_, Function.update_self _ _ _, rfl⟩
    · obtain ⟨room, hrow, hu⟩ := h.room hk
      have hne : k.roomId ≠ roomId := by
        intro heq
        rw [heq, hroom] at hrow
        cases hrow
      exact ⟨room, (Function.update_of_ne hne _ _).trans hrow, hu⟩
  large hk hb hs := by
    rcases openRoom_rack_eq_some.mp hk with ⟨-, rfl⟩ | ⟨-, hk⟩
    · cases hb
    · exact h.large hk hb hs

theorem Owned.hold {u rackId id : ℕ} {rack : UserRack} {s : Spot} {blocks : Option ℕ}
    (hok : RacksOk cfg F) (hcan : CanHold cfg F u rackId rack s blocks) (hfresh : F.spot id = none)
    (hsize : s.slotSize ≤ 2) : Owned (F.hold id s rackId blocks) where
  room hk := by
    obtain ⟨k₀, hk₀, rfl⟩ := hold_rack_eq_some.mp hk
    exact h.room (k := k₀) hk₀
  large {r k m t} hk hb ht := by
    obtain ⟨k₀, hk₀, rfl⟩ := hold_rack_eq_some.mp hk
    rcases (hold_blockedByMinerId (hok.absent hfresh hk₀).2).mp hb with
      ⟨hblocks, rfl⟩ | ⟨-, hne, hb₀⟩
    · obtain rfl := Option.some.inj ((hold_spot_self F m s rackId blocks).symm.trans ht)
      have hcase := hcan.blocked
      rw [hblocks] at hcase
      have hlarge : 2 ≤ slotCount s.slotSize := hcase.1
      unfold slotCount at hlarge
      split at hlarge <;> omega
    · rw [hold_spot_of_ne hne] at ht
      exact h.large hk₀ hb₀ ht

end Steps

/-! ## Runs -/

/-- A purchase of a room, an install or an uninstall of a machine of one or two slots, or a
machine that a user comes by. -/
def RoomRequest (db : Db) : Op → Prop
  | .buyRoom _ | .uninstallMiner _ _ | .createInventoryWithOwnedMachine _ _ _ => True
  | .installMiner _ _ inventoryId =>
      ∀ item ∈ db.inventory.row inventoryId, item.machine.slotSize ≤ 2
  | _ => False

instance (db : Db) : ∀ op, Decidable (RoomRequest db op)
  | .installMiner _ _ inventoryId =>
      inferInstanceAs (Decidable (∀ item ∈ db.inventory.row inventoryId, item.machine.slotSize ≤ 2))
  | .createInventoryWithOwnedMachine .. | .buyRoom .. | .uninstallMiner .. =>
      inferInstanceAs (Decidable True)
  | .bulkCreateInventoryWithOwnedMachines .. | .installInventoryItem .. | .removeInventoryItem ..
  | .removeMachine .. | .moveToVaultFromInventory .. | .moveToVaultFromRack ..
  | .retrieveFromVaultToInventory .. | .retrieveFromVaultToRack .. | .moveMachine ..
  | .cleanupExpiredInventory .. => inferInstanceAs (Decidable False)

theorem RoomRequest.keepsRacks {db : Db} {op : Op} (h : RoomRequest db op) : KeepsRacks db op := by
  cases op with
  | installMiner u rackId inventoryId => exact h
  | moveMachine => cases h
  | _ => trivial

theorem Owned.step {db : Db} {op : Op} {F' : Floor} (h : Owned (floor db))
    (hok : RacksOk cfg (floor db)) (hop : RoomRequest db op) (he : Effect cfg db op F') :
    Owned F' := by
  cases he with
  | same => exact h
  | removed id => exact h.remove id
  | installed | retrieved | moved => cases hop
  | opened hroom hracks => exact h.openRoom hroom
  | held hitem hsize hcan hfresh => exact h.hold hok hcan hfresh (hsize ▸ hop _ hitem)
  | uninstalled hrack hheld =>
      rw [hok.uninstall_eq hrack hheld]
      exact h.remove _

/-- No rack has the id 0, nor will one. -/
structure PositiveIds (db : Db) : Prop where
  nextId : 0 < db.rack.nextId
  zero : db.rack.row 0 = none

theorem rack_ensureOwnedMachine (db : Db) (p : Place) (u : UserId) (machine : Snapshot)
    (om : Option ℕ) : (db.ensureOwnedMachine p u machine om).1.rack = db.rack := by
  cases om with
  | some om => rfl
  | none => obtain ⟨_ | _ | _, id⟩ := p <;> rfl

theorem rack_nextId_carry {owned : Db × ℕ} {p : Place} {location : MachineInstanceLocation}
    {machine : Snapshot} {create : Db → ℕ → Option Db} {db' : Db}
    (hcreate : ∀ {d om d₁}, create d om = some d₁ → d₁.rack.nextId = d.rack.nextId)
    (h : Db.carry owned p location machine create = some db') :
    db'.rack.nextId = owned.1.rack.nextId := by
  obtain ⟨db₁, db₂, hdb₁, hsync, rfl⟩ := carry_ok h
  obtain rfl := syncOwnedMachineSnapshot_eq_some hsync
  refine Eq.trans ?_ (hcreate hdb₁)
  obtain ⟨_ | _ | _, id⟩ := p <;> rfl

theorem rack_nextId_installInRack {db db' : Db} {u rackId inventoryId slotIndex : ℕ}
    {item : Inventory} {blocks : Option ℕ}
    (h : db.installInRack u rackId inventoryId slotIndex item blocks = some db') :
    db'.rack.nextId = db.rack.nextId := by
  refine (rack_nextId_carry (fun {d om d₁} hcreate => ?_) h).trans
    (congrArg Table.nextId (rack_ensureOwnedMachine ..))
  obtain ⟨installed, huser, rfl⟩ := Option.map_eq_some_iff.mp hcreate
  obtain ⟨rfl, -⟩ := createUserMiner_eq_some huser
  cases blocks <;> rfl

/-- Only a new room brings racks. -/
theorem rack_none_effect {db : Db} {op : Op} {F' : Floor} (hop : RoomRequest db op)
    (hroom : ∀ u, op ≠ .buyRoom u) (he : Effect cfg db op F') {r : ℕ}
    (hnone : db.rack.row r = none) : F'.rack r = none := by
  cases he with
  | same => exact hnone
  | removed id => exact congrArg (Option.map _) hnone
  | installed | retrieved | moved => cases hop
  | opened => exact absurd rfl (hroom _)
  | held => exact congrArg (Option.map _) hnone
  | uninstalled => exact congrArg (Option.map _) hnone

theorem PositiveIds.step {db db' : Db} {op : Op} (h : PositiveIds db) (hop : RoomRequest db op)
    (hexec : exec cfg db op = .ok db') : PositiveIds db' := by
  have hrow : (∀ u, op ≠ .buyRoom u) → db'.rack.row 0 = none := fun hroom =>
    rack_none_effect cfg hop hroom (exec_effect hexec) h.zero
  cases op with
  | createInventoryWithOwnedMachine u machine expiresAt =>
      obtain rfl := Except.ok.inj hexec
      exact ⟨h.nextId, h.zero⟩
  | buyRoom u =>
      obtain ⟨roomNumber, rfl⟩ := buyRoom_eq_ok hexec
      obtain ⟨hnextId, hrows⟩ := db.rack.foldl_insert_range (fun position =>
        { userId := u, roomId := db.room.nextId, position, userMinerId := none
          blockedByMinerId := none }) cfg.RACKS_PER_ROOM
      have hpos := h.nextId
      refine ⟨?_, ?_⟩
      · show 0 < (List.foldl _ db.rack _).nextId
        rw [hnextId]
        omega
      · show (List.foldl _ db.rack _).row 0 = _
        rw [hrows, if_neg (by omega), h.zero]
  | installMiner u rackId inventoryId =>
      obtain ⟨_, _, _, _, -, -, -, hinstall⟩ := installMiner_eq_ok hexec
      exact ⟨(rack_nextId_installInRack hinstall).symm ▸ h.nextId, hrow nofun⟩
  | uninstallMiner u rackId =>
      obtain ⟨rack, id, m, minerName, imageUrl, -, -, -, -, hcarry⟩ := uninstallMiner_eq_ok hexec
      have hnextId : db'.rack.nextId = (db.emptyRack rackId rack.roomId id).rack.nextId :=
        (rack_nextId_carry (fun hcreate => by rw [createInventory_eq_some hcreate]) hcarry).trans
          (congrArg Table.nextId (rack_ensureOwnedMachine ..))
      exact ⟨hnextId.symm ▸ h.nextId, hrow nofun⟩
  | _ => cases hop

/-- What the reports rest on. -/
structure Kept (db : Db) : Prop where
  racks : RacksOk cfg (floor db)
  owned : Owned (floor db)
  ids : PositiveIds db

theorem kept_run {db : Db} {ops : List Op} (hops : (system cfg).Meets RoomRequest .empty ops)
    (hrun : (system cfg).run .empty ops = some db) : Kept cfg db := by
  refine (system cfg).run_invariant (I := Kept cfg) (fun db op db' h hop hstep => ?_)
    ⟨.of_empty cfg, ⟨(nomatch ·), (nomatch ·)⟩, Nat.one_pos, rfl⟩ hops hrun
  have hexec := toOption_eq_some.mp hstep
  exact ⟨h.racks.step hop.keepsRacks (exec_effect hexec),
    h.owned.step cfg h.racks hop (exec_effect hexec), h.ids.step cfg hop hexec⟩

/-! ## Counting -/

/-- What is counted under each of some keys is what is counted under one of them. -/
theorem sum_length_filter {α : Type*} (key : α → ℕ) (l : List α) {ids : List ℕ}
    (h : ids.Nodup) : (ids.map fun i => (l.filter fun a => key a = i).length).sum
      = (l.filter fun a => key a ∈ ids).length := by
  simp only [← List.countP_eq_length_filter]
  induction ids with
  | nil => simp
  | cons i ids ih =>
      obtain ⟨hi, hids⟩ := List.nodup_cons.mp h
      rw [List.map_cons, List.sum_cons, ih hids]
      clear ih
      induction l with
      | nil => rfl
      | cons a l ih =>
          simp only [List.countP_cons, List.mem_cons, decide_eq_true_eq] at ih ⊢
          by_cases heq : key a = i
          · have hnot : key a ∉ ids := heq ▸ hi
            simp only [heq, hi, true_or, if_true, if_false]
            omega
          · simp only [heq, false_or, if_false]
            omega

section Counts

variable {db : Db} (h : Owned (floor db)) (u : UserId)
include h

/-- The racks in the user's rooms are the user's racks. -/
theorem sum_racksOf (p : UserRack → Bool) :
    ((db.room.findMany fun _ room => room.userId = u).map fun room =>
        ((db.racksOf room.1).filter fun k => p k.2).length).sum
      = (db.rack.findMany fun _ k => k.userId = u && p k).length := by
  have hnodup := Table.nodup_findMany db.room fun _ room => room.userId = u
  have hsum := sum_length_filter (fun k : ℕ × UserRack => k.2.roomId)
    (db.rack.rows.filter fun k => p k.2) hnodup
  rw [List.map_map] at hsum
  have hrooms : ∀ room : ℕ × UserRoom, ((db.racksOf room.1).filter fun k => p k.2)
      = (db.rack.rows.filter fun k => p k.2).filter fun k => k.2.roomId = room.1 := by
    intro room
    rw [Db.racksOf, Table.findMany, List.filter_filter, List.filter_filter]
    exact List.filter_congr fun k _ => Bool.and_comm ..
  have husers : (db.rack.findMany fun _ k => k.userId = u && p k)
      = (db.rack.rows.filter fun k => p k.2).filter fun k =>
        k.2.roomId ∈ (db.room.findMany fun _ room => room.userId = u).map Prod.fst := by
    rw [Table.findMany, List.filter_filter]
    refine List.filter_congr fun k hk => congrArg (· && p k.2) (decide_eq_decide.mpr ?_)
    obtain ⟨room, hroom, howner⟩ := h.room (r := k.1) (k := k.2) (Table.mem_rows.mp hk)
    constructor
    · intro hu
      exact List.mem_map.mpr ⟨(k.2.roomId, room),
        Table.mem_findMany.mpr ⟨hroom, decide_eq_true (howner.trans hu)⟩, rfl⟩
    · intro hmem
      obtain ⟨⟨i, room'⟩, hfound, rfl : i = k.2.roomId⟩ := List.mem_map.mp hmem
      obtain ⟨hrow, hu⟩ := Table.mem_findMany.mp hfound
      obtain rfl := Option.some.inj (hroom.symm.trans hrow)
      exact howner.symm.trans (of_decide_eq_true hu)
  rw [husers, ← hsum]
  exact congrArg List.sum (List.map_congr_left fun room _ => congrArg List.length (hrooms room))

theorem listRooms_eq : db.listRooms u =
    { totalRacks := (db.rack.findMany fun _ k => k.userId = u).length
      occupiedRacks := (db.rack.findMany fun _ k => k.userId = u && !k.isFree).length
      freeRacks := ((db.rack.findMany fun _ k => k.userId = u).length : ℤ)
        - (db.rack.findMany fun _ k => k.userId = u && !k.isFree).length } := by
  have htotal := sum_racksOf h u fun _ => true
  have hoccupied := sum_racksOf h u fun k => !k.isFree
  simp only [List.filter_true, Bool.and_true] at htotal
  have hfree : ∀ k : UserRack, (k.userMinerId.isSome || k.blockedByMinerId.isSome) = !k.isFree := by
    intro k
    rw [UserRack.isFree, Bool.not_and, Option.not_isNone, Option.not_isNone]
  unfold Db.listRooms
  simp only [hfree, htotal, hoccupied]

end Counts

/-- What `getSlotsSummary` counts as occupied is among what `listRooms` does. -/
theorem findMany_held (db : Db) (u : UserId) :
    (db.rack.findMany fun _ k => k.userId = u && k.userMinerId.isSome)
      = (db.rack.findMany fun _ k => k.userId = u && !k.isFree).filter fun k =>
        k.2.userMinerId.isSome := by
  rw [Table.findMany, Table.findMany, List.filter_filter]
  refine List.filter_congr fun k _ => ?_
  rw [UserRack.isFree]
  cases k.2.userMinerId <;> simp

theorem same_iff {db : Db} (h : Owned (floor db)) (u : UserId) :
    db.listRooms u = (db.getSlotsSummary u).toOccupancy
      ↔ ∀ r k, db.rack.row r = some k → k.userId = u → k.isFree = false →
        k.userMinerId.isSome = true := by
  have hcounts : db.listRooms u = (db.getSlotsSummary u).toOccupancy
      ↔ (db.rack.findMany fun _ k => k.userId = u && k.userMinerId.isSome).length
        = (db.rack.findMany fun _ k => k.userId = u && !k.isFree).length := by
    rw [listRooms_eq h, Db.getSlotsSummary]
    constructor
    · intro hsame
      exact (Occupancy.mk.inj hsame).2.1.symm
    · intro hsame
      rw [hsame]
  rw [hcounts, findMany_held, List.length_filter_eq_length_iff]
  constructor
  · intro hall r k hk hu hfree
    exact hall (r, k) (Table.mem_findMany.mpr ⟨hk, by simp [hu, hfree]⟩)
  · rintro hall ⟨r, k⟩ hmem
    obtain ⟨hk, hp⟩ := Table.mem_findMany.mp hmem
    simp only [Bool.and_eq_true, decide_eq_true_eq, Bool.not_eq_true'] at hp
    exact hall r k hk hp.1 hp.2

section Reports

variable {cfg} {db : Db} (h : Kept cfg db) (u : UserId)
include h

/-- The racks of one room have one user. -/
theorem Kept.user_eq {r r' : ℕ} {k k' : UserRack} (hk : db.rack.row r = some k)
    (hk' : db.rack.row r' = some k') (hroom : k'.roomId = k.roomId) : k'.userId = k.userId := by
  obtain ⟨room, hrow, hu⟩ := h.owned.room (r := r) hk
  obtain ⟨room', hrow', hu'⟩ := h.owned.room (r := r') hk'
  rw [hroom, hrow] at hrow'
  obtain rfl := Option.some.inj hrow'
  exact hu'.symm.trans hu

theorem Kept.same_iff : db.listRooms u = (db.getSlotsSummary u).toOccupancy ↔ ¬HasLarge db u := by
  rw [Machines.same_iff h.owned]
  constructor
  · rintro hall ⟨r, k, m, machine, hk, hu, hm, hmachine, hsize⟩
    obtain ⟨r', k', hk', hroom, -, hblocked⟩ :=
      h.racks.blocks (r := r) hk hm (floor_spot hmachine) hsize
    have hheld := hall r' k' hk' ((h.user_eq hk hk' hroom).trans hu)
      (by simp [UserRack.isFree, hblocked])
    rcases h.racks.free hk' with hnone | hnone
    · rw [hnone] at hheld
      cases hheld
    · rw [hnone] at hblocked
      cases hblocked
  · intro hnone r k hk hu hfree
    by_contra hheld
    have hempty : k.userMinerId = none := by simpa using hheld
    obtain ⟨m, hblocked⟩ : ∃ m, k.blockedByMinerId = some m := by
      rw [← Option.isSome_iff_exists]
      simpa [UserRack.isFree, hempty] using hfree
    obtain ⟨r', k', hk', hroom, -, hm⟩ := h.racks.blocked (r := r) hk hblocked
    obtain ⟨s, -, hs, -⟩ := h.racks.holds hk' hm
    have hsize := h.owned.large (r := r) hk hblocked hs
    obtain ⟨machine, hmachine, rfl⟩ := floor_spot_eq_some.mp hs
    exact hnone ⟨r', k', m, machine, hk', (h.user_eq hk hk' hroom).trans hu, hm, hmachine, hsize⟩

/-- A machine of one slot is refused as occupied exactly where the rack is not free. -/
theorem Kept.refused_iff {r inventoryId : ℕ} {k : UserRack} {item : Inventory}
    (hinventory : inventoryId ≠ 0) (hitem : db.getInventoryItem u inventoryId = some item)
    (hsmall : slotCount item.machine.slotSize = 1) (hk : db.rack.row r = some k)
    (hu : k.userId = u) :
    refusedAsOccupied (db.installMiner cfg u r inventoryId) = !k.isFree := by
  have hr : r ≠ 0 := by
    rintro rfl
    rw [h.ids.zero] at hk
    cases hk
  have hrack : (db.rack.row r).filter (fun k => k.userId = u) = some k :=
    Option.filter_eq_some_iff.mpr ⟨hk, decide_eq_true hu⟩
  obtain ⟨room, hroom, -⟩ := h.owned.room (r := r) hk
  have hroom : db.room.row k.roomId = some room := hroom
  unfold Db.installMiner
  rw [if_neg (by simp [hr, hinventory]), hrack]
  simp only [hroom, hitem, hsmall, Nat.one_lt_two, if_true]
  cases hfree : k.isFree with
  | false => rfl
  | true =>
      rw [Bool.not_true, if_neg Bool.false_ne_true]
      cases db.installInRack _ _ _ _ _ _ <;> rfl

theorem Kept.installableRacks_eq {inventoryId : ℕ} {item : Inventory}
    (hinventory : inventoryId ≠ 0) (hitem : db.getInventoryItem u inventoryId = some item)
    (hsmall : slotCount item.machine.slotSize = 1) :
    installableRacks cfg db u inventoryId
      = (db.rack.findMany fun _ k => k.userId = u).filter fun k => k.2.isFree := by
  refine List.filter_congr ?_
  rintro ⟨r, k⟩ hmem
  obtain ⟨hk, hu⟩ := Table.mem_findMany.mp hmem
  rw [h.refused_iff u hinventory hitem hsmall hk (of_decide_eq_true hu), Bool.not_not]

/-- What `listRooms` counts as free is what a machine of one slot can be installed on. -/
theorem Kept.freeRacks_eq {inventoryId : ℕ} {item : Inventory}
    (hinventory : inventoryId ≠ 0) (hitem : db.getInventoryItem u inventoryId = some item)
    (hsmall : slotCount item.machine.slotSize = 1) :
    (db.listRooms u).freeRacks = (installableRacks cfg db u inventoryId).length := by
  have hsplit := List.length_eq_length_filter_add (fun k : ℕ × UserRack => k.2.isFree)
    (l := db.rack.findMany fun _ k => k.userId = u)
  have hoccupied : ((db.rack.findMany fun _ k => k.userId = u).filter fun k => !k.2.isFree)
      = db.rack.findMany fun _ k => k.userId = u && !k.isFree := by
    rw [Table.findMany, Table.findMany, List.filter_filter]
    exact List.filter_congr fun k _ => Bool.and_comm ..
  rw [listRooms_eq h.owned, h.installableRacks_eq u hinventory hitem hsmall]
  rw [hoccupied] at hsplit
  simp only
  omega

end Reports

/-- **Occupancy.** In every state that purchases of rooms, installs and uninstalls of machines
of either size reach, the reports agree if and only if no machine of two slots stands in a
rack of the user. -/
theorem reports_agree_iff {db : Db} {ops : List Op}
    (hops : (system cfg).Meets RoomRequest .empty ops)
    (hrun : (system cfg).run .empty ops = some db) (u : UserId) :
    ReportsAgree cfg db u ↔ ¬HasLarge db u := by
  have h := kept_run cfg hops hrun
  constructor
  · intro hagree
    exact (h.same_iff u).mp hagree.same
  · intro hnone
    have hsame := (h.same_iff u).mpr hnone
    refine ⟨hsame, fun inventoryId item hinventory hitem hsmall => ?_⟩
    rw [← h.freeRacks_eq u hinventory hitem hsmall, hsame]

/-- A room, and a machine in its first rack. -/
def installedOne (slotSize : ℕ) : List Op :=
  [.buyRoom 1, .createInventoryWithOwnedMachine 1 (customMachine slotSize) none,
    .installMiner 1 1 1]

theorem reports_agree_iff_small :
    ∃ db, (system defaults).run .empty (installedOne 1) = some db
      ∧ (ReportsAgree defaults db 1 ↔ ¬HasLarge db 1) :=
  have hrun : ((system defaults).run .empty (installedOne 1)).isSome := by decide +kernel
  ⟨_, (Option.some_get hrun).symm,
    reports_agree_iff defaults (by decide +kernel) (Option.some_get hrun).symm 1⟩

/-- A large machine occupies two racks for `listRooms`, and one for `getSlotsSummary`. -/
theorem reports_differ :
    ¬∀ (cfg : Config) (db : Db) (ops : List Op) (u : UserId),
      (system cfg).Meets RoomRequest .empty ops → (system cfg).run .empty ops = some db →
        ReportsAgree cfg db u := by
  intro h
  have hcounts : ∃ db ∈ (system defaults).run .empty (installedOne 2),
      (db.listRooms 1).occupiedRacks = 2 ∧ (db.getSlotsSummary 1).occupiedRacks = 1 := by
    decide +kernel
  obtain ⟨db, hrun, htwo, hone⟩ := hcounts
  have hsame := congrArg Occupancy.occupiedRacks
    (h defaults db (installedOne 2) 1 (by decide +kernel) hrun).same
  rw [htwo, hone] at hsame
  cases hsame

end BlockMiner.Machines
