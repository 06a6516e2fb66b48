import BlockMiner.MachineSteps

/-!
# The effect of each operation

`exec_effect` proves of every accepted operation that it does to the floor
what `Effect` says. The results on slots and racks are derived from it
alone.
-/

namespace BlockMiner.Machines

section Operations

variable {cfg : Config} {db db' : Db} {u : UserId}

theorem carry_floor {owned : Db × ℕ} {p : Place} {location : MachineInstanceLocation}
    {machine : Snapshot} {create : Db → ℕ → Option Db}
    (h : Db.carry owned p location machine create = some db') :
    ∃ db₁, create owned.1 owned.2 = some db₁
      ∧ floor db' = if p.1 = .RACK then (floor db₁).delete p.2 else floor db₁ := by
  obtain ⟨db₁, db₂, hcreate, hsync, rfl⟩ := carry_ok h
  exact ⟨db₁, hcreate, by rw [floor_deleteChild, floor_syncOwnedMachineSnapshot hsync]⟩

theorem nextId_ensureOwnedMachine (db : Db) (p : Place) (u : UserId) (machine : Snapshot)
    (om : Option ℕ) :
    (db.ensureOwnedMachine p u machine om).1.userMiner.nextId = db.userMiner.nextId := by
  cases om with
  | some om => rfl
  | none => obtain ⟨_ | _ | _, id⟩ := p <;> rfl

/-- A machine placed from the inventory or the warehouse. -/
theorem carry_place {p q : Place} {v : UserId} {snap machine : Snapshot} {om : Option ℕ}
    {location : MachineInstanceLocation} {mk : ℕ → UserMiner} (hp : p.1 ≠ .RACK) (s : Spot)
    (hmk : ∀ om, (mk om).spot = s)
    (h : Db.carry (db.ensureOwnedMachine q v snap om) p location machine
      (fun db om => db.createUserMiner (mk om)) = some db') :
    floor db' = (floor db).place db.userMiner.nextId s ∧ (floor db).Vacant s.userId s.slotIndex none
      ∧ (floor db).spot db.userMiner.nextId = none := by
  obtain ⟨db₁, hcreate, hfloor⟩ := carry_floor h
  obtain ⟨hplace, hvacant⟩ := createUserMiner_floor hcreate
  rw [floor_ensureOwnedMachine] at hplace hvacant
  rw [nextId_ensureOwnedMachine, hmk] at hplace
  rw [if_neg hp, hplace] at hfloor
  refine ⟨hfloor, ?_, ?_⟩
  · rw [← hmk (db.ensureOwnedMachine q v snap om).2]
    exact hvacant
  · show (db.userMiner.row _).map _ = none
    rw [db.userMiner.fresh _ le_rfl, Option.map_none]

theorem installInventoryItem_effect {slotIndex inventoryId : ℕ}
    (h : db.installInventoryItem cfg u slotIndex inventoryId = .ok db') :
    Effect cfg db (.installInventoryItem u slotIndex inventoryId) (floor db') := by
  obtain ⟨item, machine, imageUrl, hlt, -, hcarry⟩ := installInventoryItem_eq_ok h
  obtain ⟨hfloor, hvacant, hfresh⟩ := carry_place (by nofun)
    ⟨u, slotIndex, slotCount item.machine.slotSize⟩ (fun _ => rfl) hcarry
  rw [hfloor]
  exact .installed hlt rfl rfl evictOverlapping_cleared.evictPrevious hfresh hvacant

theorem retrieveFromVaultToRack_effect {vaultId slotIndex : ℕ}
    (h : db.retrieveFromVaultToRack cfg u vaultId slotIndex = .ok db') :
    Effect cfg db (.retrieveFromVaultToRack u vaultId slotIndex) (floor db') := by
  obtain ⟨item, hlt, -, hcarry⟩ := retrieveFromVaultToRack_eq_ok h
  obtain ⟨hfloor, hvacant, hfresh⟩ := carry_place (by nofun)
    ⟨u, slotIndex, slotCount item.machine.slotSize⟩ (fun _ => rfl) hcarry
  rw [hfloor]
  exact .retrieved hlt rfl rfl evictOverlapping_cleared hfresh hvacant

theorem moveMachine_effect {machineId target : ℕ}
    (h : db.moveMachine cfg u machineId target = .ok db') :
    Effect cfg db (.moveMachine u machineId target) (floor db') := by
  obtain ⟨m, hlt, hm, hset⟩ := moveMachine_eq_ok h
  obtain ⟨hrow, hu⟩ := getMachineById_eq_some hm
  obtain ⟨hfloor, hvacant⟩ := setSlotIndex_floor hset
  rw [hfloor]
  exact .moved (s := m.spot) hlt (floor_spot hrow) hu evictOverlapping_cleared.evictPrevious hvacant

theorem removeMachine_effect {machineId : ℕ} (h : db.removeMachine cfg u machineId = .ok db') :
    Effect cfg db (.removeMachine u machineId) (floor db') := by
  obtain ⟨m, -, hcarry⟩ := removeMachine_eq_ok h
  obtain ⟨db₁, hcreate, hfloor⟩ := carry_floor hcarry
  rw [if_pos rfl, floor_createInventory hcreate, Db.ensureOwnedMachineForUserMiner,
    floor_ensureOwnedMachine, floor_release_delete] at hfloor
  rw [hfloor]
  exact .removed machineId

theorem moveToVaultFromRack_effect {itemId : ℕ}
    (h : db.moveToVaultFromRack cfg u itemId = .ok db') :
    Effect cfg db (.moveToVaultFromRack u itemId) (floor db') := by
  obtain ⟨m, -, hcarry⟩ := moveToVaultFromRack_eq_ok h
  obtain ⟨db₁, hcreate, hfloor⟩ := carry_floor hcarry
  rw [if_pos rfl, floor_createVault hcreate, floor_release_delete,
    Db.ensureOwnedMachineForUserMiner, floor_ensureOwnedMachine] at hfloor
  rw [hfloor]
  exact .removed itemId

theorem moveToVaultFromInventory_effect {itemId : ℕ}
    (h : db.moveToVaultFromInventory cfg u itemId = .ok db') : floor db' = floor db := by
  obtain ⟨item, -, hcarry⟩ := moveToVaultFromInventory_eq_ok h
  obtain ⟨db₁, hcreate, hfloor⟩ := carry_floor hcarry
  rw [hfloor, if_neg nofun, floor_createVault hcreate, Db.ensureOwnedMachineForInventory,
    floor_ensureOwnedMachine]

theorem retrieveFromVaultToInventory_effect {vaultId : ℕ}
    (h : db.retrieveFromVaultToInventory cfg u vaultId = .ok db') : floor db' = floor db := by
  obtain ⟨item, -, hcarry⟩ := retrieveFromVaultToInventory_eq_ok h
  obtain ⟨db₁, hcreate, hfloor⟩ := carry_floor hcarry
  rw [hfloor, if_neg nofun, floor_createInventory hcreate, Db.ensureOwnedMachineForVault,
    floor_ensureOwnedMachine]

theorem removeInventoryItem_effect {inventoryId : ℕ}
    (h : db.removeInventoryItem u inventoryId = .ok db') : floor db' = floor db := by
  obtain ⟨row, -, hdone⟩ := removeInventoryItem_eq_ok h
  split at hdone
  case h_1 =>
    rw [hdone]
    rfl
  case h_2 =>
    rw [hdone]
    rfl

theorem bulkCreate_floor (db : Db) (machine : Snapshot) (quantity : ℕ) :
    floor (db.bulkCreateInventoryWithOwnedMachines u machine quantity) = floor db := by
  unfold Db.bulkCreateInventoryWithOwnedMachines
  induction quantity with
  | zero => rfl
  | succ n ih =>
      rw [List.range_succ, List.foldl_append]
      exact ih

theorem buyRoom_effect (h : db.buyRoom cfg u = .ok db') :
    Effect cfg db (.buyRoom u) (floor db') := by
  obtain ⟨roomNumber, rfl⟩ := buyRoom_eq_ok h
  obtain ⟨-, hrows⟩ := db.rack.foldl_insert_range (fun position =>
    { userId := u, roomId := db.room.nextId, position, userMinerId := none
      blockedByMinerId := none }) cfg.RACKS_PER_ROOM
  have hfloor : floor { db with
        room := db.room.insert { userId := u, roomNumber }
        rack := Db.createRacks cfg u db.room.nextId db.rack }
      = (floor db).openRoom u db.room.nextId roomNumber db.rack.nextId cfg.RACKS_PER_ROOM :=
    congrArg₂ (Floor.mk _ · ·) (funext hrows) (Table.insert_row_update _ _)
  rw [hfloor]
  exact .opened (db.room.fresh _ le_rfl) (fun r => db.rack.fresh r)

/-- The rack rows once a machine is held and, if it is a large one, blocks. -/
theorem hold_row (t : Table UserRack) (id rackId r : ℕ) (blocks : Option ℕ) :
    (blocks.elim (t.modify rackId fun k => { k with userMinerId := some id }) fun b =>
        (t.modify rackId fun k => { k with userMinerId := some id }).modify b fun k =>
          { k with blockedByMinerId := some id }).row r
      = (t.row r).map fun k =>
          { k with
            userMinerId := if r = rackId then some id else k.userMinerId
            blockedByMinerId := if blocks = some r then some id else k.blockedByMinerId } := by
  cases hrow : t.row r with
  | none => cases blocks <;> simp [Table.modify_row, hrow]
  | some k =>
      have hheld : (t.modify rackId fun k => { k with userMinerId := some id }).row r
          = some { k with userMinerId := if r = rackId then some id else k.userMinerId } := by
        rw [Table.modify_row, hrow]
        split
        case isTrue hr => rfl
        case isFalse hr => rfl
      cases blocks with
      | none => simpa using hheld
      | some b =>
          rw [Option.elim_some, Table.modify_row, hheld]
          by_cases hb : r = b
          · simp [hb]
          · simp [hb, Ne.symm hb]

theorem installInRack_floor {rackId inventoryId slotIndex : ℕ} {item : Inventory}
    {blocks : Option ℕ}
    (h : db.installInRack u rackId inventoryId slotIndex item blocks = some db') :
    floor db' = (floor db).hold db.userMiner.nextId ⟨u, slotIndex, item.machine.slotSize⟩ rackId
        blocks
      ∧ (floor db).spot db.userMiner.nextId = none ∧ (floor db).Vacant u slotIndex none := by
  obtain ⟨db₁, hcreate, hfloor⟩ := carry_floor h
  obtain ⟨db₂, huser, rfl⟩ := Option.map_eq_some_iff.mp hcreate
  obtain ⟨hplace, hvacant⟩ := createUserMiner_floor huser
  unfold Db.ensureOwnedMachineForInventory at hplace hvacant hfloor
  rw [floor_ensureOwnedMachine] at hplace hvacant
  rw [nextId_ensureOwnedMachine] at hplace hfloor
  refine ⟨?_, ?_, hvacant⟩
  · rw [hfloor, if_neg nofun]
    have hrack : db₂.rack.row = db.rack.row := congrArg Floor.rack hplace
    refine (Floor.mk.injEq ..).mpr ⟨congrArg Floor.spot hplace, ?_, congrArg Floor.room hplace⟩
    funext r
    show (blocks.elim _ _ : Table UserRack).row r = (db.rack.row r).map _
    rw [hold_row, hrack]
  · show (db.userMiner.row _).map _ = none
    rw [db.userMiner.fresh _ le_rfl, Option.map_none]

theorem installMiner_effect {rackId inventoryId : ℕ}
    (h : db.installMiner cfg u rackId inventoryId = .ok db') :
    Effect cfg db (.installMiner u rackId inventoryId) (floor db') := by
  obtain ⟨rack, room, item, blocks, -, hitem, hcan, hinstall⟩ := installMiner_eq_ok h
  obtain ⟨hfloor, hfresh, -⟩ := installInRack_floor hinstall
  rw [hfloor]
  exact .held (Option.filter_eq_some_iff.mp hitem).1 rfl hcan hfresh

theorem floor_emptyRack_delete (db : Db) (rackId roomId id : ℕ) :
    (floor (db.emptyRack rackId roomId id)).delete id = (floor db).uninstall rackId roomId id := by
  refine congrArg (Floor.mk _ · _) (funext fun r => ?_)
  show (((db.rack.modify rackId _).updateMany _ _).row r).map _ = (db.rack.row r).map _
  rw [Table.updateMany_row, Table.modify_row]
  cases hrow : db.rack.row r with
  | none => simp
  | some k =>
      by_cases hr : r = rackId <;>
        by_cases hb : k.roomId = roomId ∧ k.blockedByMinerId = some id <;>
          by_cases hm : k.userMinerId = some id <;> simp [hr, hb, hm]

/-- The machine taken out of an emptied rack. -/
theorem carry_emptied {rackId roomId id : ℕ} {m : UserMiner} {minerName : String} {snap : Snapshot}
    {mk : ℕ → Inventory}
    (h : Db.carry ((db.emptyRack rackId roomId id).ensureOwnedMachineForUserMiner id m minerName)
      (.RACK, id) .INVENTORY snap (fun db om => db.createInventory (mk om)) = some db') :
    floor db' = (floor db).uninstall rackId roomId id := by
  obtain ⟨db₁, hcreate, hfloor⟩ := carry_floor h
  rw [if_pos rfl, floor_createInventory hcreate, Db.ensureOwnedMachineForUserMiner,
    floor_ensureOwnedMachine, floor_emptyRack_delete] at hfloor
  exact hfloor

theorem uninstallMiner_effect {rackId : ℕ} (h : db.uninstallMiner cfg u rackId = .ok db') :
    Effect cfg db (.uninstallMiner u rackId) (floor db') := by
  obtain ⟨rack, id, m, minerName, imageUrl, hrack, -, hheld, -, hcarry⟩ := uninstallMiner_eq_ok h
  rw [carry_emptied hcarry]
  exact .uninstalled hrack hheld

/-- **Inversion.** What an accepted operation has done to the floor. -/
theorem exec_effect {op : Op} (h : exec cfg db op = .ok db') :
    Effect cfg db op (floor db') := by
  have same {op : Op} (heq : floor db' = floor db) : Effect cfg db op (floor db') := by
    rw [heq]
    exact .same
  cases op with
  | createInventoryWithOwnedMachine u machine expiresAt =>
      obtain rfl := Except.ok.inj h
      exact .same
  | bulkCreateInventoryWithOwnedMachines u machine quantity =>
      obtain rfl := Except.ok.inj h
      exact same (bulkCreate_floor db machine quantity)
  | installInventoryItem u slotIndex inventoryId => exact installInventoryItem_effect h
  | removeInventoryItem u inventoryId => exact same (removeInventoryItem_effect h)
  | removeMachine u machineId => exact removeMachine_effect h
  | moveMachine u machineId target => exact moveMachine_effect h
  | moveToVaultFromInventory u itemId => exact same (moveToVaultFromInventory_effect h)
  | moveToVaultFromRack u itemId => exact moveToVaultFromRack_effect h
  | retrieveFromVaultToInventory u vaultId => exact same (retrieveFromVaultToInventory_effect h)
  | retrieveFromVaultToRack u vaultId slotIndex => exact retrieveFromVaultToRack_effect h
  | buyRoom u => exact buyRoom_effect h
  | installMiner u rackId inventoryId => exact installMiner_effect h
  | uninstallMiner u rackId => exact uninstallMiner_effect h
  | cleanupExpiredInventory now =>
      obtain rfl := Except.ok.inj h
      exact .same

end Operations

end BlockMiner.Machines
