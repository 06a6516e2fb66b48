import BlockMiner.Engine
import BlockMiner.Run
import BlockMiner.Table

/-!
# Machines: inventory, racks and warehouse

A machine a user owns is a row of `userOwnedMachine`; where it is, it has a
child row: in the inventory, in a rack (`userMiner`, at a slot) or in the
warehouse (`vault`). Two families of endpoints move it around. The older one
(`installInventoryItem`, `removeMachine`, `moveMachine`, `moveToVault`,
`retrieveFromVault`) places machines at the slots 0 to 79 and sends whatever
is in the way to the inventory; the rooms (`installMiner`,
`uninstallMiner`) place them in racks, whose slots begin at 1000, and keep
the machine of a rack, and the rack it blocks, in the rack rows.

Each operation is one function into `Except Refusal Db`, so a refused
operation, or one whose transaction fails, leaves the tables as they are.
Operations are taken one at a time. Timestamps other than `expiresAt` are
not read by any of them and are left out, as is the price of a room, which
is in the spending model.
-/

namespace BlockMiner.Machines

inductive MachineInstanceLocation where
  | INVENTORY | RACK | WAREHOUSE
deriving DecidableEq

/-- A child row: its table and its id. -/
abbrev Place := MachineInstanceLocation × ℕ

structure Specs where
  minerId : Option ℕ
  level : ℕ
  hashRate : ℚ
  slotSize : ℕ
  imageUrl : Option String

structure Snapshot extends Specs where
  minerName : String

/-- A machine that is in no catalog. -/
def customMachine (slotSize : ℕ) : Snapshot :=
  { minerId := none, level := 1, hashRate := 10, slotSize, imageUrl := none, minerName := "Custom" }

structure Inventory where
  userId : UserId
  machine : Snapshot
  expiresAt : Option ℕ
  ownedMachineId : Option ℕ

structure UserMiner where
  userId : UserId
  slotIndex : ℕ
  specs : Specs
  ownedMachineId : Option ℕ

structure Vault where
  userId : UserId
  machine : Snapshot
  ownedMachineId : Option ℕ

structure UserOwnedMachine where
  userId : UserId
  location : MachineInstanceLocation
  machine : Snapshot

structure UserRoom where
  userId : UserId
  roomNumber : ℕ

structure UserRack where
  userId : UserId
  roomId : ℕ
  position : ℕ
  userMinerId : Option ℕ
  blockedByMinerId : Option ℕ

def UserRack.isFree (r : UserRack) : Bool := r.userMinerId.isNone && r.blockedByMinerId.isNone

structure Db where
  inventory : Table Inventory
  userMiner : Table UserMiner
  vault : Table Vault
  owned : Table UserOwnedMachine
  room : Table UserRoom
  rack : Table UserRack

/-- A row of the catalog of machines. -/
structure Miner where
  name : String
  imageUrl : Option String

structure Config where
  miner : ℕ → Option Miner
  RACKS_PER_ROOM : ℕ
  ROOM_MAX : ℕ

/-- The defaults, with an empty catalog. -/
def defaults : Config := { miner := fun _ => none, RACKS_PER_ROOM := 192, ROOM_MAX := 4 }

inductive Refusal where
  | invalidId | invalidSlot | notFound | largeMachineOddSlot
  | maxRoomsReached | rackOccupied | noSpace | adjacentRackOccupied | rackEmpty
  | transactionFailed

def SLOTS : ℕ := 80

def DEFAULT_MINER_IMAGE_URL : String := "/machines/reward1.png"

/-- `Number(slotSize || 1)` -/
def slotCount (slotSize : ℕ) : ℕ := if slotSize = 0 then 1 else slotSize

/-- Slots of racks begin at 1000. -/
def rackSlotIndex (cfg : Config) (roomNumber position : ℕ) : ℕ :=
  1000 + (roomNumber - 1) * cfg.RACKS_PER_ROOM + position

/-- The catalog row a machine refers to. -/
def catalogRow (cfg : Config) (minerId : Option ℕ) : Option Miner := minerId.bind cfg.miner

def catalogName (cfg : Config) (minerId : Option ℕ) : Option String :=
  (catalogRow cfg minerId).map (·.name)

def catalogImage (cfg : Config) (minerId : Option ℕ) : Option String :=
  (catalogRow cfg minerId).bind (·.imageUrl)

/-- `text || ...`: the empty text counts as none. -/
def truthy (text : Option String) : Option String := text.filter (· ≠ "")

def displayName (cfg : Config) (minerId : Option ℕ) : String :=
  (truthy (catalogName cfg minerId)).getD "Miner"

/-- `m.imageUrl || m.miner?.imageUrl || null` -/
def displayImage (cfg : Config) (specs : Specs) : Option String :=
  (truthy specs.imageUrl).or (truthy (catalogImage cfg specs.minerId))

def safeVaultMinerId (cfg : Config) (minerId : Option ℕ) : Option ℕ :=
  minerId.filter fun id => (cfg.miner id).isSome

/-- What the snapshot of a machine taken out of a rack shows. Catalog ids
begin at 1, so `minerId || null` is `minerId`. -/
def rackSnapshot (cfg : Config) (specs : Specs) : Snapshot :=
  { specs with imageUrl := displayImage cfg specs, minerName := displayName cfg specs.minerId }

/-- `moveMachine` shows an image that is empty in the catalog as it is. -/
def moveSnapshot (cfg : Config) (specs : Specs) : Snapshot :=
  { rackSnapshot cfg specs with
    imageUrl := (truthy specs.imageUrl).or (catalogImage cfg specs.minerId) }

/-- The unique index on `ownedMachineId` refuses a second row. -/
def taken (ownedMachineId : Option ℕ) (others : List (Option ℕ)) : Bool :=
  ownedMachineId.isSome && others.contains ownedMachineId

namespace Db

variable (db : Db)

/-! ## Rows and their identity -/

def getInventoryItem (u : UserId) (id : ℕ) : Option Inventory :=
  (db.inventory.row id).filter fun r => r.userId = u

def getVaultItem (u : UserId) (id : ℕ) : Option Vault :=
  (db.vault.row id).filter fun r => r.userId = u

def getMachineById (u : UserId) (id : ℕ) : Option UserMiner :=
  (db.userMiner.row id).filter fun r => r.userId = u

def createInventory (r : Inventory) : Option Db :=
  if taken r.ownedMachineId (db.inventory.rows.map (·.2.ownedMachineId)) then none
  else some { db with inventory := db.inventory.insert r }

def createVault (r : Vault) : Option Db :=
  if taken r.ownedMachineId (db.vault.rows.map (·.2.ownedMachineId)) then none
  else some { db with vault := db.vault.insert r }

/-- `(userId, slotIndex)` is unique too. -/
def createUserMiner (m : UserMiner) : Option Db :=
  if taken m.ownedMachineId (db.userMiner.rows.map (·.2.ownedMachineId)) then none
  else if db.userMiner.rows.any fun r => r.2.userId = m.userId ∧ r.2.slotIndex = m.slotIndex then
    none
  else some { db with userMiner := db.userMiner.insert m }

def setSlotIndex (id slotIndex : ℕ) (u : UserId) : Option Db :=
  if db.userMiner.rows.any fun r =>
      r.1 ≠ id ∧ r.2.userId = u ∧ r.2.slotIndex = slotIndex then none
  else some { db with userMiner := db.userMiner.modify id fun m => { m with slotIndex } }

/-- A deleted machine leaves its rack empty (`ON DELETE SET NULL`). -/
def deleteChild : Place → Db
  | (.INVENTORY, id) => { db with inventory := db.inventory.delete id }
  | (.RACK, id) =>
      { db with
        userMiner := db.userMiner.delete id
        rack := db.rack.updateMany (·.userMinerId = some id) fun r =>
          { r with userMinerId := none } }
  | (.WAREHOUSE, id) => { db with vault := db.vault.delete id }

def setOwnedMachineId (om : ℕ) : Place → Db
  | (.INVENTORY, id) =>
      { db with inventory := db.inventory.modify id fun r => { r with ownedMachineId := some om } }
  | (.RACK, id) =>
      { db with userMiner := db.userMiner.modify id fun r => { r with ownedMachineId := some om } }
  | (.WAREHOUSE, id) =>
      { db with vault := db.vault.modify id fun r => { r with ownedMachineId := some om } }

/-- A row without an identity gets one; returns the identity of the row. -/
def ensureOwnedMachine (p : Place) (u : UserId) (machine : Snapshot) : Option ℕ → Db × ℕ
  | some om => (db, om)
  | none =>
      (setOwnedMachineId
        { db with owned := db.owned.insert { userId := u, location := p.1, machine } }
        db.owned.nextId p, db.owned.nextId)

def ensureOwnedMachineForInventory (id : ℕ) (row : Inventory) : Db × ℕ :=
  db.ensureOwnedMachine (.INVENTORY, id) row.userId row.machine row.ownedMachineId

def ensureOwnedMachineForUserMiner (id : ℕ) (m : UserMiner) (minerDisplayName : String) : Db × ℕ :=
  db.ensureOwnedMachine (.RACK, id) m.userId { m.specs with minerName := minerDisplayName }
    m.ownedMachineId

def ensureOwnedMachineForVault (id : ℕ) (row : Vault) : Db × ℕ :=
  db.ensureOwnedMachine (.WAREHOUSE, id) row.userId row.machine row.ownedMachineId

def createInventoryWithOwnedMachine (u : UserId) (machine : Snapshot) (expiresAt : Option ℕ) : Db :=
  { db with
    owned := db.owned.insert { userId := u, location := .INVENTORY, machine }
    inventory := db.inventory.insert
      { userId := u, machine, expiresAt, ownedMachineId := some db.owned.nextId } }

/-- `update` throws where the row does not exist. -/
def syncOwnedMachineSnapshot (om : ℕ) (location : MachineInstanceLocation) (machine : Snapshot) :
    Option Db :=
  if (db.owned.row om).isNone then none
  else some { db with owned := db.owned.modify om fun o => { o with location, machine } }

/-- The end of every transaction that moves a machine: with the identity of
the row at `p` create the new row, sync the snapshot, delete the old row. -/
def carry (owned : Db × ℕ) (p : Place) (location : MachineInstanceLocation) (machine : Snapshot)
    (create : Db → ℕ → Option Db) : Option Db :=
  ((create owned.1 owned.2).bind (·.syncOwnedMachineSnapshot owned.2 location machine)).map
    (·.deleteChild p)

def releaseUserMinerFromRacks (id : ℕ) : Db :=
  { db with
    rack := (db.rack.updateMany (·.userMinerId = some id) fun r =>
        { r with userMinerId := none }).updateMany (·.blockedByMinerId = some id) fun r =>
          { r with blockedByMinerId := none } }

/-! ## Making room for a machine -/

section Evicting

variable (snapshot : Specs → Snapshot)

/-- Send a machine to the inventory, as a new machine. -/
def evict (u : UserId) (m : ℕ × UserMiner) : Db :=
  ((db.releaseUserMinerFromRacks m.1).createInventoryWithOwnedMachine u (snapshot m.2.specs)
    none).deleteChild (.RACK, m.1)

/-- The query for the machines in the target slots, other than `self`. -/
def overlaps (u : UserId) (slotIndex slots : ℕ) (self : Option ℕ) (id : ℕ) (m : UserMiner) : Bool :=
  m.userId = u ∧ slotIndex ≤ m.slotIndex ∧ m.slotIndex < slotIndex + slots ∧ self ≠ some id

def evictOverlapping (u : UserId) (slotIndex slots : ℕ) (self : Option ℕ) : Db :=
  (db.userMiner.findMany (overlaps u slotIndex slots self)).foldl
    (fun db m => db.evict snapshot u m) db

/-- The query for the machine in the slot before an odd one. -/
def isPrevious (u : UserId) (slotIndex : ℕ) (self : Option ℕ) (id : ℕ) (m : UserMiner) : Bool :=
  slotIndex % 2 = 1 ∧ m.userId = u ∧ m.slotIndex = slotIndex - 1 ∧ self ≠ some id

def evictPrevious (u : UserId) (slotIndex : ℕ) (self : Option ℕ) : Db :=
  match db.userMiner.findFirst (isPrevious u slotIndex self) with
  | none => db
  | some m => if m.2.specs.slotSize = 2 then db.evict snapshot u m else db

end Evicting

variable (cfg : Config)

/-- The result of a transaction. -/
def commit : Option Db → Except Refusal Db
  | none => .error .transactionFailed
  | some db => .ok db

/-! ## The inventory -/

def bulkCreateInventoryWithOwnedMachines (u : UserId) (machine : Snapshot) (quantity : ℕ) : Db :=
  (List.range quantity).foldl (fun db _ => db.createInventoryWithOwnedMachine u machine none) db

def installInventoryItem (u : UserId) (slotIndex inventoryId : ℕ) : Except Refusal Db :=
  if SLOTS ≤ slotIndex then .error .invalidSlot
  else
    match db.getInventoryItem u inventoryId with
    | none => .error .notFound
    | some item =>
        let slotSize := slotCount item.machine.slotSize
        if slotSize = 2 ∧ slotIndex % 2 ≠ 0 then .error .largeMachineOddSlot
        else
          let cleared := (db.evictOverlapping (rackSnapshot cfg) u slotIndex slotSize
            none).evictPrevious (rackSnapshot cfg) u slotIndex none
          let imageUrl := some ((truthy item.machine.imageUrl).getD DEFAULT_MINER_IMAGE_URL)
          commit <| carry (cleared.ensureOwnedMachineForInventory inventoryId item)
            (.INVENTORY, inventoryId) .RACK { item.machine with imageUrl } fun db om =>
              db.createUserMiner
                { userId := u, slotIndex, specs := { item.machine.toSpecs with slotSize, imageUrl }
                  ownedMachineId := some om }

/-- `onDelete: Restrict`: an identity is not deleted while a row refers to it. -/
def deleteOwnedMachine (om : ℕ) : Option Db :=
  if (db.owned.row om).isNone ∨ taken (some om) (db.inventory.rows.map (·.2.ownedMachineId))
      ∨ taken (some om) (db.userMiner.rows.map (·.2.ownedMachineId))
      ∨ taken (some om) (db.vault.rows.map (·.2.ownedMachineId)) then none
  else some { db with owned := db.owned.delete om }

def removeInventoryItem (u : UserId) (inventoryId : ℕ) : Except Refusal Db :=
  match db.getInventoryItem u inventoryId with
  | none => .error .notFound
  | some row =>
      let removed := db.deleteChild (.INVENTORY, inventoryId)
      match row.ownedMachineId with
      | none => .ok removed
      | some om => commit (removed.deleteOwnedMachine om)

/-- The first query of `startGamePowerCleanup`. -/
def cleanupExpiredInventory (now : ℕ) : Db :=
  { db with inventory := db.inventory.deleteMany fun r => r.expiresAt.any (· < now) }

/-! ## The older racks -/

def removeMachine (u : UserId) (machineId : ℕ) : Except Refusal Db :=
  match db.getMachineById u machineId with
  | none => .error .notFound
  | some m =>
      let snap := rackSnapshot cfg m.specs
      let released := db.releaseUserMinerFromRacks machineId
      commit <| carry (released.ensureOwnedMachineForUserMiner machineId m snap.minerName)
        (.RACK, machineId) .INVENTORY snap fun db om =>
          db.createInventory
            { userId := u, machine := snap, expiresAt := none, ownedMachineId := some om }

def moveMachine (u : UserId) (machineId targetSlotIndex : ℕ) : Except Refusal Db :=
  if SLOTS ≤ targetSlotIndex then .error .invalidSlot
  else
    match db.getMachineById u machineId with
    | none => .error .notFound
    | some m =>
        if m.specs.slotSize = 2 ∧ targetSlotIndex % 2 ≠ 0 then .error .largeMachineOddSlot
        else
          let cleared := (db.evictOverlapping (moveSnapshot cfg) u targetSlotIndex m.specs.slotSize
            (some machineId)).evictPrevious (moveSnapshot cfg) u targetSlotIndex (some machineId)
          commit (cleared.setSlotIndex machineId targetSlotIndex u)

/-! ## The warehouse -/

def moveToVaultFromInventory (u : UserId) (itemId : ℕ) : Except Refusal Db :=
  match db.getInventoryItem u itemId with
  | none => .error .notFound
  | some item =>
      let snap := { item.machine with minerId := safeVaultMinerId cfg item.machine.minerId }
      commit <| carry (db.ensureOwnedMachineForInventory itemId item) (.INVENTORY, itemId)
        .WAREHOUSE snap fun db om =>
          db.createVault { userId := u, machine := snap, ownedMachineId := some om }

def moveToVaultFromRack (u : UserId) (itemId : ℕ) : Except Refusal Db :=
  match db.getMachineById u itemId with
  | none => .error .notFound
  | some m =>
      let snap :=
        { rackSnapshot cfg m.specs with minerId := safeVaultMinerId cfg m.specs.minerId }
      commit <| carry (db.ensureOwnedMachineForUserMiner itemId m snap.minerName) (.RACK, itemId)
        .WAREHOUSE snap fun db om =>
          (db.releaseUserMinerFromRacks itemId).createVault
            { userId := u, machine := snap, ownedMachineId := some om }

def retrieveFromVaultToInventory (u : UserId) (vaultId : ℕ) : Except Refusal Db :=
  match db.getVaultItem u vaultId with
  | none => .error .notFound
  | some item =>
      let snap := { item.machine with minerId := safeVaultMinerId cfg item.machine.minerId }
      commit <| carry (db.ensureOwnedMachineForVault vaultId item) (.WAREHOUSE, vaultId)
        .INVENTORY snap fun db om =>
          db.createInventory
            { userId := u, machine := snap, expiresAt := none, ownedMachineId := some om }

/-- Unlike the other two, this placement does not look at the slot before. -/
def retrieveFromVaultToRack (u : UserId) (vaultId slotIndex : ℕ) : Except Refusal Db :=
  match db.getVaultItem u vaultId with
  | none => .error .notFound
  | some item =>
      if SLOTS ≤ slotIndex then .error .invalidSlot
      else
        let slotSize := slotCount item.machine.slotSize
        if slotSize = 2 ∧ slotIndex % 2 ≠ 0 then .error .largeMachineOddSlot
        else
          let cleared := db.evictOverlapping (rackSnapshot cfg) u slotIndex slotSize none
          let snap := { item.machine with minerId := safeVaultMinerId cfg item.machine.minerId }
          commit <| carry (cleared.ensureOwnedMachineForVault vaultId item) (.WAREHOUSE, vaultId)
            .RACK snap fun db om =>
              db.createUserMiner
                { userId := u, slotIndex, specs := { snap.toSpecs with slotSize }
                  ownedMachineId := some om }

/-! ## The rooms -/

/-- `userRack.createMany` for a new room. -/
def createRacks (u : UserId) (roomId : ℕ) (racks : Table UserRack) : Table UserRack :=
  (List.range cfg.RACKS_PER_ROOM).foldl
    (fun t position => t.insert
      { userId := u, roomId, position, userMinerId := none, blockedByMinerId := none }) racks

/-- A purchase that is paid. -/
def buyRoom (u : UserId) : Except Refusal Db :=
  let nextRoom := (db.room.findMany fun _ r => r.userId = u).length + 1
  if cfg.ROOM_MAX < nextRoom then .error .maxRoomsReached
  -- `(userId, roomNumber)` is unique
  else if db.room.rows.any fun r => r.2.userId = u ∧ r.2.roomNumber = nextRoom then
    .error .transactionFailed
  else
    .ok { db with
      room := db.room.insert { userId := u, roomNumber := nextRoom }
      rack := createRacks cfg u db.room.nextId db.rack }

/-- The rack that `installMiner` blocks for a machine of several slots. -/
def adjacentRack (rack : UserRack) (slotSize : ℕ) : Option (ℕ × UserRack) :=
  db.rack.findFirst fun _ r => r.roomId = rack.roomId ∧ r.position = rack.position + (slotSize - 1)

/-- The writes of `installMiner`; `blocks` is the rack to block, if any. -/
def installInRack (u : UserId) (rackId inventoryId slotIndex : ℕ) (item : Inventory)
    (blocks : Option ℕ) : Option Db :=
  carry (db.ensureOwnedMachineForInventory inventoryId item) (.INVENTORY, inventoryId) .RACK
    item.machine fun db om =>
      (db.createUserMiner
        { userId := u, slotIndex, specs := item.machine.toSpecs, ownedMachineId := some om }).map
          fun installed =>
            let held := installed.rack.modify rackId fun r =>
              { r with userMinerId := some db.userMiner.nextId }
            { installed with
              rack := blocks.elim held fun id => held.modify id fun r =>
                { r with blockedByMinerId := some db.userMiner.nextId } }

def installMiner (u : UserId) (rackId inventoryId : ℕ) : Except Refusal Db :=
  if rackId = 0 ∨ inventoryId = 0 then .error .invalidId
  else
    match (db.rack.row rackId).filter fun r => r.userId = u with
    | none => .error .notFound
    | some rack =>
        match db.room.row rack.roomId with
        | none => .error .notFound
        | some room =>
            if !rack.isFree then .error .rackOccupied
            else
              match db.getInventoryItem u inventoryId with
              | none => .error .notFound
              | some item =>
                  let slotSize := slotCount item.machine.slotSize
                  let slotIndex := rackSlotIndex cfg room.roomNumber rack.position
                  if slotSize < 2 then
                    commit (db.installInRack u rackId inventoryId slotIndex item none)
                  else
                    match db.adjacentRack rack slotSize with
                    | none => .error .noSpace
                    | some adjacent =>
                        if !adjacent.2.isFree then .error .adjacentRackOccupied
                        else
                          commit
                            (db.installInRack u rackId inventoryId slotIndex item (some adjacent.1))

/-- The rack rows after `uninstallMiner` has emptied a rack of its machine. -/
def emptyRack (rackId roomId machineId : ℕ) : Db :=
  { db with
    rack := (db.rack.modify rackId fun r => { r with userMinerId := none }).updateMany
      (fun r => r.roomId = roomId ∧ r.blockedByMinerId = some machineId) fun r =>
        { r with blockedByMinerId := none } }

def uninstallMiner (u : UserId) (rackId : ℕ) : Except Refusal Db :=
  if rackId = 0 then .error .invalidId
  else
    match (db.rack.row rackId).filter fun r => r.userId = u with
    | none => .error .notFound
    | some rack =>
        match rack.userMinerId.bind fun id => (db.userMiner.row id).map fun m => (id, m) with
        | none => .error .rackEmpty
        | some (machineId, m) =>
            let minerName := (truthy (catalogName cfg m.specs.minerId)).getD
              (if m.specs.minerId.isNone then "Máquina custom" else "Máquina")
            let imageUrl := m.specs.imageUrl.or (catalogImage cfg m.specs.minerId)
            let snap := { rackSnapshot cfg m.specs with imageUrl, minerName }
            let emptied := db.emptyRack rackId rack.roomId machineId
            commit <| carry (emptied.ensureOwnedMachineForUserMiner machineId m minerName)
              (.RACK, machineId) .INVENTORY snap fun db om =>
                db.createInventory
                  { userId := u, machine := snap, expiresAt := none, ownedMachineId := some om }

end Db

/-! ## The operations -/

inductive Op where
  | createInventoryWithOwnedMachine (u : UserId) (machine : Snapshot) (expiresAt : Option ℕ)
  | bulkCreateInventoryWithOwnedMachines (u : UserId) (machine : Snapshot) (quantity : ℕ)
  | installInventoryItem (u : UserId) (slotIndex inventoryId : ℕ)
  | removeInventoryItem (u : UserId) (inventoryId : ℕ)
  | removeMachine (u : UserId) (machineId : ℕ)
  | moveMachine (u : UserId) (machineId targetSlotIndex : ℕ)
  | moveToVaultFromInventory (u : UserId) (itemId : ℕ)
  | moveToVaultFromRack (u : UserId) (itemId : ℕ)
  | retrieveFromVaultToInventory (u : UserId) (vaultId : ℕ)
  | retrieveFromVaultToRack (u : UserId) (vaultId slotIndex : ℕ)
  | buyRoom (u : UserId)
  | installMiner (u : UserId) (rackId inventoryId : ℕ)
  | uninstallMiner (u : UserId) (rackId : ℕ)
  | cleanupExpiredInventory (now : ℕ)

def exec (cfg : Config) (db : Db) : Op → Except Refusal Db
  | .createInventoryWithOwnedMachine u machine expiresAt =>
      .ok (db.createInventoryWithOwnedMachine u machine expiresAt)
  | .bulkCreateInventoryWithOwnedMachines u machine quantity =>
      .ok (db.bulkCreateInventoryWithOwnedMachines u machine quantity)
  | .installInventoryItem u slotIndex inventoryId =>
      db.installInventoryItem cfg u slotIndex inventoryId
  | .removeInventoryItem u inventoryId => db.removeInventoryItem u inventoryId
  | .removeMachine u machineId => db.removeMachine cfg u machineId
  | .moveMachine u machineId target => db.moveMachine cfg u machineId target
  | .moveToVaultFromInventory u itemId => db.moveToVaultFromInventory cfg u itemId
  | .moveToVaultFromRack u itemId => db.moveToVaultFromRack cfg u itemId
  | .retrieveFromVaultToInventory u vaultId => db.retrieveFromVaultToInventory cfg u vaultId
  | .retrieveFromVaultToRack u vaultId slotIndex =>
      db.retrieveFromVaultToRack cfg u vaultId slotIndex
  | .buyRoom u => db.buyRoom cfg u
  | .installMiner u rackId inventoryId => db.installMiner cfg u rackId inventoryId
  | .uninstallMiner u rackId => db.uninstallMiner cfg u rackId
  | .cleanupExpiredInventory now => .ok (db.cleanupExpiredInventory now)

def Db.empty : Db := ⟨.empty, .empty, .empty, .empty, .empty, .empty⟩

/-- One completed operation after the other; a refused one changes nothing. -/
def system (cfg : Config) : System Db Op := ⟨fun db op => (exec cfg db op).toOption⟩

end BlockMiner.Machines
