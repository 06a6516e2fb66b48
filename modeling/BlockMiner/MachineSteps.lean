import BlockMiner.MachineFloor

/-!
# What an accepted operation has found and done

One lemma for each operation that can be refused: the rows it has read and
the transaction it has committed. The later modules take an operation apart
with these and do not unfold it.
-/

namespace BlockMiner.Machines

section Accepted

variable {cfg : Config} {db db' : Db} {u : UserId}

/-! ## Rows -/

theorem commit_eq_ok {x : Option Db} (h : Db.commit x = .ok db') : x = some db' := by
  cases x with
  | none => cases h
  | some y => exact congrArg some (Except.ok.inj h)

theorem getInventoryItem_eq_some {id : ℕ} {item : Inventory}
    (h : db.getInventoryItem u id = some item) :
    db.inventory.row id = some item ∧ item.userId = u := by
  obtain ⟨hrow, hu⟩ := Option.filter_eq_some_iff.mp h
  exact ⟨hrow, of_decide_eq_true hu⟩

theorem getVaultItem_eq_some {id : ℕ} {item : Vault} (h : db.getVaultItem u id = some item) :
    db.vault.row id = some item ∧ item.userId = u := by
  obtain ⟨hrow, hu⟩ := Option.filter_eq_some_iff.mp h
  exact ⟨hrow, of_decide_eq_true hu⟩

theorem getMachineById_eq_some {id : ℕ} {m : UserMiner} (h : db.getMachineById u id = some m) :
    db.userMiner.row id = some m ∧ m.userId = u := by
  obtain ⟨hm, hu⟩ := Option.filter_eq_some_iff.mp h
  exact ⟨hm, of_decide_eq_true hu⟩

theorem heldMachine_eq_some {rack : UserRack} {id : ℕ} {m : UserMiner}
    (h : (rack.userMinerId.bind fun id => (db.userMiner.row id).map fun m => (id, m))
      = some (id, m)) : rack.userMinerId = some id ∧ db.userMiner.row id = some m := by
  obtain ⟨_, hheld, hm⟩ := Option.bind_eq_some_iff.mp h
  obtain ⟨_, hminer, hpair⟩ := Option.map_eq_some_iff.mp hm
  obtain ⟨rfl, rfl⟩ := Prod.mk.inj hpair
  exact ⟨hheld, hminer⟩

/-! ## The inventory -/

theorem installInventoryItem_eq_ok {slotIndex inventoryId : ℕ}
    (h : db.installInventoryItem cfg u slotIndex inventoryId = .ok db') :
    ∃ item machine imageUrl, slotIndex < SLOTS ∧ db.getInventoryItem u inventoryId = some item
      ∧ Db.carry
          (((db.evictOverlapping (rackSnapshot cfg) u slotIndex (slotCount item.machine.slotSize)
            none).evictPrevious (rackSnapshot cfg) u slotIndex none).ensureOwnedMachineForInventory
              inventoryId item)
          (.INVENTORY, inventoryId) .RACK machine (fun db om =>
            db.createUserMiner
              { userId := u, slotIndex, ownedMachineId := some om
                specs := { item.machine.toSpecs with
                  slotSize := slotCount item.machine.slotSize
                  imageUrl } })
          = some db' := by
  unfold Db.installInventoryItem at h
  split at h
  case isTrue => cases h
  case isFalse hlt =>
    split at h
    case h_1 => cases h
    case h_2 item hitem =>
      simp only at h
      split at h
      case isTrue => cases h
      case isFalse =>
        exact ⟨item, _, _, Nat.lt_of_not_le hlt, hitem, commit_eq_ok h⟩

theorem deleteOwnedMachine_eq_some {om : ℕ} (h : db.deleteOwnedMachine om = some db') :
    db' = { db with owned := db.owned.delete om } := by
  unfold Db.deleteOwnedMachine at h
  split at h
  case isTrue => cases h
  case isFalse => exact (Option.some.inj h).symm

theorem removeInventoryItem_eq_ok {inventoryId : ℕ}
    (h : db.removeInventoryItem u inventoryId = .ok db') :
    ∃ row, db.getInventoryItem u inventoryId = some row ∧
      match row.ownedMachineId with
      | none => db' = db.deleteChild (.INVENTORY, inventoryId)
      | some om => db' =
          { db.deleteChild (.INVENTORY, inventoryId) with
            owned := (db.deleteChild (.INVENTORY, inventoryId)).owned.delete om } := by
  unfold Db.removeInventoryItem at h
  split at h
  case h_1 => cases h
  case h_2 row hrow =>
    refine ⟨row, hrow, ?_⟩
    cases hom : row.ownedMachineId with
    | none =>
        simp only [hom] at h
        exact (Except.ok.inj h).symm
    | some om =>
        simp only [hom] at h
        exact deleteOwnedMachine_eq_some (commit_eq_ok h)

/-! ## The older racks -/

theorem removeMachine_eq_ok {machineId : ℕ} (h : db.removeMachine cfg u machineId = .ok db') :
    ∃ m, db.getMachineById u machineId = some m
      ∧ Db.carry ((db.releaseUserMinerFromRacks machineId).ensureOwnedMachineForUserMiner machineId
            m (rackSnapshot cfg m.specs).minerName) (.RACK, machineId) .INVENTORY
            (rackSnapshot cfg m.specs) (fun db om =>
              db.createInventory
                { userId := u, machine := rackSnapshot cfg m.specs, expiresAt := none
                  ownedMachineId := some om })
          = some db' := by
  unfold Db.removeMachine at h
  split at h
  case h_1 => cases h
  case h_2 m hm => exact ⟨m, hm, commit_eq_ok h⟩

theorem moveMachine_eq_ok {machineId target : ℕ}
    (h : db.moveMachine cfg u machineId target = .ok db') :
    ∃ m, target < SLOTS ∧ db.getMachineById u machineId = some m
      ∧ ((db.evictOverlapping (moveSnapshot cfg) u target m.specs.slotSize
          (some machineId)).evictPrevious (moveSnapshot cfg) u target
            (some machineId)).setSlotIndex machineId target u = some db' := by
  unfold Db.moveMachine at h
  split at h
  case isTrue => cases h
  case isFalse hlt =>
    split at h
    case h_1 => cases h
    case h_2 m hm =>
      split at h
      case isTrue => cases h
      case isFalse => exact ⟨m, Nat.lt_of_not_le hlt, hm, commit_eq_ok h⟩

/-! ## The warehouse -/

/-- What is stored of a machine. -/
def vaultSnapshot (cfg : Config) (machine : Snapshot) : Snapshot :=
  { machine with minerId := safeVaultMinerId cfg machine.minerId }

theorem moveToVaultFromInventory_eq_ok {itemId : ℕ}
    (h : db.moveToVaultFromInventory cfg u itemId = .ok db') :
    ∃ item, db.getInventoryItem u itemId = some item
      ∧ Db.carry (db.ensureOwnedMachineForInventory itemId item) (.INVENTORY, itemId) .WAREHOUSE
          (vaultSnapshot cfg item.machine) (fun db om =>
            db.createVault
              { userId := u, machine := vaultSnapshot cfg item.machine, ownedMachineId := some om })
          = some db' := by
  unfold Db.moveToVaultFromInventory at h
  split at h
  case h_1 => cases h
  case h_2 item hitem => exact ⟨item, hitem, commit_eq_ok h⟩

theorem moveToVaultFromRack_eq_ok {itemId : ℕ}
    (h : db.moveToVaultFromRack cfg u itemId = .ok db') :
    ∃ m, db.getMachineById u itemId = some m
      ∧ Db.carry (db.ensureOwnedMachineForUserMiner itemId m (rackSnapshot cfg m.specs).minerName)
          (.RACK, itemId) .WAREHOUSE (vaultSnapshot cfg (rackSnapshot cfg m.specs)) (fun db om =>
            (db.releaseUserMinerFromRacks itemId).createVault
              { userId := u, machine := vaultSnapshot cfg (rackSnapshot cfg m.specs)
                ownedMachineId := some om })
          = some db' := by
  unfold Db.moveToVaultFromRack at h
  split at h
  case h_1 => cases h
  case h_2 m hm => exact ⟨m, hm, commit_eq_ok h⟩

theorem retrieveFromVaultToInventory_eq_ok {vaultId : ℕ}
    (h : db.retrieveFromVaultToInventory cfg u vaultId = .ok db') :
    ∃ item, db.getVaultItem u vaultId = some item
      ∧ Db.carry (db.ensureOwnedMachineForVault vaultId item) (.WAREHOUSE, vaultId) .INVENTORY
          (vaultSnapshot cfg item.machine) (fun db om =>
            db.createInventory
              { userId := u, machine := vaultSnapshot cfg item.machine, expiresAt := none
                ownedMachineId := some om })
          = some db' := by
  unfold Db.retrieveFromVaultToInventory at h
  split at h
  case h_1 => cases h
  case h_2 item hitem => exact ⟨item, hitem, commit_eq_ok h⟩

theorem retrieveFromVaultToRack_eq_ok {vaultId slotIndex : ℕ}
    (h : db.retrieveFromVaultToRack cfg u vaultId slotIndex = .ok db') :
    ∃ item, slotIndex < SLOTS ∧ db.getVaultItem u vaultId = some item
      ∧ Db.carry ((db.evictOverlapping (rackSnapshot cfg) u slotIndex
            (slotCount item.machine.slotSize) none).ensureOwnedMachineForVault vaultId item)
          (.WAREHOUSE, vaultId) .RACK (vaultSnapshot cfg item.machine) (fun db om =>
            db.createUserMiner
              { userId := u, slotIndex, ownedMachineId := some om
                specs := { (vaultSnapshot cfg item.machine).toSpecs with
                  slotSize := slotCount item.machine.slotSize } })
          = some db' := by
  unfold Db.retrieveFromVaultToRack at h
  split at h
  case h_1 => cases h
  case h_2 item hitem =>
    split at h
    case isTrue => cases h
    case isFalse hlt =>
      simp only at h
      split at h
      case isTrue => cases h
      case isFalse =>
        exact ⟨item, Nat.lt_of_not_le hlt, hitem, commit_eq_ok h⟩

/-! ## The rooms -/

theorem buyRoom_eq_ok (h : db.buyRoom cfg u = .ok db') :
    ∃ roomNumber, db' =
      { db with
        room := db.room.insert { userId := u, roomNumber }
        rack := Db.createRacks cfg u db.room.nextId db.rack } := by
  unfold Db.buyRoom at h
  simp only at h
  split at h
  case isTrue => cases h
  case isFalse =>
    split at h
    case isTrue => cases h
    case isFalse => exact ⟨_, (Except.ok.inj h).symm⟩

/-- What `installMiner` has found when it installs the item. -/
theorem installMiner_eq_ok {rackId inventoryId : ℕ}
    (h : db.installMiner cfg u rackId inventoryId = .ok db') :
    ∃ rack room item blocks, db.room.row rack.roomId = some room
      ∧ db.getInventoryItem u inventoryId = some item
      ∧ CanHold cfg (floor db) u rackId rack
          ⟨u, rackSlotIndex cfg room.roomNumber rack.position, item.machine.slotSize⟩ blocks
      ∧ db.installInRack u rackId inventoryId (rackSlotIndex cfg room.roomNumber rack.position) item
          blocks = some db' := by
  unfold Db.installMiner at h
  split at h
  case isTrue => cases h
  case isFalse =>
    split at h
    case h_1 => cases h
    case h_2 rack hrack =>
      obtain ⟨hrack, hu⟩ := Option.filter_eq_some_iff.mp hrack
      split at h
      case h_1 => cases h
      case h_2 room hroom =>
        split at h
        case isTrue => cases h
        case isFalse hfree =>
          have hfree : rack.isFree = true := by simpa using hfree
          split at h
          case h_1 => cases h
          case h_2 item hitem =>
            simp only at h
            split at h
            case isTrue hsmall =>
              exact ⟨rack, room, item, none, hroom, hitem,
                ⟨hrack, of_decide_eq_true hu, hfree, ⟨room, hroom, rfl⟩, rfl, hsmall⟩,
                commit_eq_ok h⟩
            case isFalse hlarge =>
              split at h
              case h_1 => cases h
              case h_2 adjacent hadj =>
                split at h
                case isTrue => cases h
                case isFalse hadjFree =>
                  obtain ⟨hadjRow, hadj⟩ := Table.findFirst_eq_some hadj
                  obtain ⟨hroomId, hposition⟩ := of_decide_eq_true hadj
                  have hadjFree : adjacent.2.isFree = true := by simpa using hadjFree
                  exact ⟨rack, room, item, some adjacent.1, hroom, hitem,
                    ⟨hrack, of_decide_eq_true hu, hfree, ⟨room, hroom, rfl⟩, rfl,
                      Nat.le_of_not_lt hlarge, adjacent.2, hadjRow, hroomId, hadjFree, hposition⟩,
                    commit_eq_ok h⟩

/-- What `uninstallMiner` has found when it takes the machine out. -/
theorem uninstallMiner_eq_ok {rackId : ℕ} (h : db.uninstallMiner cfg u rackId = .ok db') :
    ∃ rack id m minerName imageUrl, db.rack.row rackId = some rack ∧ rack.userId = u
      ∧ rack.userMinerId = some id ∧ db.userMiner.row id = some m
      ∧ Db.carry ((db.emptyRack rackId rack.roomId id).ensureOwnedMachineForUserMiner id m
            minerName) (.RACK, id) .INVENTORY
            { rackSnapshot cfg m.specs with imageUrl, minerName } (fun db om =>
              db.createInventory
                { userId := u, machine := { rackSnapshot cfg m.specs with imageUrl, minerName }
                  expiresAt := none, ownedMachineId := some om })
          = some db' := by
  unfold Db.uninstallMiner at h
  split at h
  case isTrue => cases h
  case isFalse =>
    split at h
    case h_1 => cases h
    case h_2 rack hrack =>
      obtain ⟨hrow, hu⟩ := Option.filter_eq_some_iff.mp hrack
      split at h
      case h_1 => cases h
      case h_2 machineId m hmachine =>
        obtain ⟨hheld, hminer⟩ := heldMachine_eq_some hmachine
        exact ⟨rack, machineId, _, _, _, hrow, of_decide_eq_true hu, hheld, hminer, commit_eq_ok h⟩

end Accepted

end BlockMiner.Machines
