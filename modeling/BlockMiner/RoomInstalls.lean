import BlockMiner.MachineRacks
import BlockMiner.Service

/-!
# Concurrent installs in a room

`installMiner` reads the rack with its room, the inventory item and, for a
machine of several slots, the rack it will block, each in a query of its
own; then one transaction writes. `uninstallMiner` reads the rack with its
machine, and then one transaction writes. Nothing that was read is checked
again: the updates of the rack rows name an id and no condition. What can
make a transaction fail is a unique index (`(userId, slotIndex)` of
`userMiner` and the identity of a child row) or an update or delete of a row
that is gone.

A transaction only writes, and a row it has written waits for its commit, so
under READ COMMITTED transactions take effect one after the other: each is
one step here. The tables and the writes are those of the machine model.
-/

namespace BlockMiner.Rooms

open Machines

structure State where
  db : Db
  /-- Ghost: the inventory item of every install, the last one first. -/
  installed : List ℕ

inductive Request where
  | installMiner (u : UserId) (rackId inventoryId : ℕ)
  | uninstallMiner (u : UserId) (rackId : ℕ)

/-- The parameters of `installMiner`. -/
structure Install where
  userId : UserId
  rackId : ℕ
  inventoryId : ℕ

/-- A request in flight, with what it has read, before its next query. -/
inductive Call where
  | rack (q : Install)
  | item (q : Install) (rack : UserRack) (room : UserRoom)
  | adjacent (q : Install) (rack : UserRack) (room : UserRoom) (item : Inventory)
  | install (q : Install) (rack : UserRack) (room : UserRoom) (item : Inventory)
      (blocks : Option ℕ)
  | machine (u : UserId) (rackId : ℕ)
  | uninstall (u : UserId) (rackId : ℕ) (rack : UserRack) (machineId : ℕ) (m : UserMiner)

/-- What becomes of the query or transaction a call waits for. -/
inductive Answer where
  | ok | error
deriving DecidableEq

variable (cfg : Config) (db : Db)

/-! ## The reads -/

def readRack (q : Install) : Except Refusal Call :=
  match (db.rack.row q.rackId).filter fun r => r.userId = q.userId with
  | none => .error .notFound
  | some rack =>
      match db.room.row rack.roomId with
      | none => .error .notFound
      | some room => if !rack.isFree then .error .rackOccupied else .ok (.item q rack room)

def readItem (q : Install) (rack : UserRack) (room : UserRoom) : Except Refusal Call :=
  match db.getInventoryItem q.userId q.inventoryId with
  | none => .error .notFound
  | some item =>
      if slotCount item.machine.slotSize < 2 then .ok (.install q rack room item none)
      else .ok (.adjacent q rack room item)

def readAdjacent (q : Install) (rack : UserRack) (room : UserRoom) (item : Inventory) :
    Except Refusal Call :=
  match db.adjacentRack rack (slotCount item.machine.slotSize) with
  | none => .error .noSpace
  | some adjacent =>
      if !adjacent.2.isFree then .error .adjacentRackOccupied
      else .ok (.install q rack room item (some adjacent.1))

def readMachine (u : UserId) (rackId : ℕ) : Except Refusal Call :=
  match (db.rack.row rackId).filter fun r => r.userId = u with
  | none => .error .notFound
  | some rack =>
      match rack.userMinerId.bind fun id => (db.userMiner.row id).map fun m => (id, m) with
      | none => .error .rackEmpty
      | some (machineId, m) => .ok (.uninstall u rackId rack machineId m)

/-! ## The transactions -/

/-- Its last write deletes the item, which throws where the item is gone. -/
def installTx (q : Install) (rack : UserRack) (room : UserRoom) (item : Inventory)
    (blocks : Option ℕ) : Option Db :=
  if (db.inventory.row q.inventoryId).isNone then none
  else
    db.installInRack q.userId q.rackId q.inventoryId
      (rackSlotIndex cfg room.roomNumber rack.position) item blocks

/-- Its last write deletes the machine, which throws where it is gone. -/
def uninstallTx (u : UserId) (rackId : ℕ) (rack : UserRack) (machineId : ℕ) (m : UserMiner) :
    Option Db :=
  if (db.userMiner.row machineId).isNone then none
  else
    let minerName := (truthy (catalogName cfg m.specs.minerId)).getD
      (if m.specs.minerId.isNone then "Máquina custom" else "Máquina")
    let imageUrl := m.specs.imageUrl.or (catalogImage cfg m.specs.minerId)
    let snap := { rackSnapshot cfg m.specs with imageUrl, minerName }
    let emptied := db.emptyRack rackId rack.roomId machineId
    Db.carry (emptied.ensureOwnedMachineForUserMiner machineId m minerName)
      (.RACK, machineId) .INVENTORY snap fun db om =>
        db.createInventory
          { userId := u, machine := snap, expiresAt := none, ownedMachineId := some om }

/-! ## The service -/

/-- The call to go on with, if the request is not refused. -/
def query : Call → Except Refusal Call
  | .rack q => readRack db q
  | .item q rack room => readItem db q rack room
  | .adjacent q rack room item => readAdjacent db q rack room item
  | .machine u rackId => readMachine db u rackId
  | c@(.install ..) | c@(.uninstall ..) => .ok c

def start (s : State) : Request → Option (State × List Call)
  | .installMiner u rackId inventoryId =>
      some (s, if rackId = 0 ∨ inventoryId = 0 then [] else [.rack ⟨u, rackId, inventoryId⟩])
  | .uninstallMiner u rackId => some (s, if rackId = 0 then [] else [.machine u rackId])

/-- A transaction that fails is rolled back. -/
def resume (s : State) : Call → Answer → Option (State × Option Call)
  | _, .error => some (s, none)
  | .install q rack room item blocks, .ok =>
      match installTx cfg s.db q rack room item blocks with
      | none => some (s, none)
      | some db => some (⟨db, q.inventoryId :: s.installed⟩, none)
  | .uninstall u rackId rack machineId m, .ok =>
      match uninstallTx cfg s.db u rackId rack machineId m with
      | none => some (s, none)
      | some db => some ({ s with db }, none)
  | c, .ok => some (s, (query s.db c).toOption)

def service : Service State Call Request Answer := ⟨start, resume cfg⟩

/-! ## A request alone

Without others in between, a request does what the operation of the machine
model does. -/

def alone : ℕ → State → Call → State
  | 0, s, _ => s
  | n + 1, s, c =>
      match resume cfg s c .ok with
      | some (s', some c') => alone n s' c'
      | some (s', none) => s'
      | none => s

variable {cfg}

/-- The call is before a query, not before its transaction. -/
def Call.reads : Call → Bool
  | .rack .. | .item .. | .adjacent .. | .machine .. => true
  | .install .. | .uninstall .. => false

theorem resume_read {s : State} {c : Call} (hreads : c.reads = true) :
    resume cfg s c .ok = some (s, (query s.db c).toOption) := by
  cases c <;> first | rfl | cases hreads

theorem alone_read {n : ℕ} {s : State} {c : Call} (hreads : c.reads = true) :
    alone cfg (n + 1) s c = match query s.db c with
      | .ok c' => alone cfg n s c'
      | .error _ => s := by
  rw [alone, resume_read hreads]
  cases query s.db c <;> rfl

theorem alone_install {n : ℕ} {s : State} {q : Install} {rack : UserRack} {room : UserRoom}
    {item : Inventory} {blocks : Option ℕ}
    (hitem : s.db.getInventoryItem q.userId q.inventoryId = some item) :
    (alone cfg (n + 1) s (.install q rack room item blocks)).db =
      (Db.commit (s.db.installInRack q.userId q.rackId q.inventoryId
        (rackSlotIndex cfg room.roomNumber rack.position) item blocks)).toOption.getD s.db := by
  have hthere : (s.db.inventory.row q.inventoryId).isNone = false := by
    rw [(Option.filter_eq_some_iff.mp hitem).1]
    rfl
  rw [alone, resume, installTx, hthere, if_neg (by decide)]
  cases s.db.installInRack q.userId q.rackId q.inventoryId
    (rackSlotIndex cfg room.roomNumber rack.position) item blocks <;> rfl

theorem alone_installMiner (s : State) {u : UserId} {rackId inventoryId : ℕ}
    (hrack : rackId ≠ 0) (hinventory : inventoryId ≠ 0) :
    (alone cfg 4 s (.rack ⟨u, rackId, inventoryId⟩)).db
      = (exec cfg s.db (.installMiner u rackId inventoryId)).toOption.getD s.db := by
  rw [exec, Db.installMiner, if_neg (by simp [hrack, hinventory]), alone_read rfl, query, readRack]
  dsimp only
  cases (s.db.rack.row rackId).filter fun r => r.userId = u with
  | none => rfl
  | some rack =>
      dsimp only
      cases s.db.room.row rack.roomId with
      | none => rfl
      | some room =>
          dsimp only
          cases !rack.isFree with
          | true => rfl
          | false =>
              simp only [Bool.false_eq_true, if_false]
              rw [alone_read rfl, query, readItem]
              dsimp only
              cases hitem : s.db.getInventoryItem u inventoryId with
              | none => rfl
              | some item =>
                  dsimp only
                  by_cases hsmall : slotCount item.machine.slotSize < 2
                  · rw [if_pos hsmall, if_pos hsmall]
                    exact alone_install hitem
                  · rw [if_neg hsmall, if_neg hsmall]
                    dsimp only
                    rw [alone_read rfl, query, readAdjacent]
                    cases s.db.adjacentRack rack (slotCount item.machine.slotSize) with
                    | none => rfl
                    | some adjacent =>
                        dsimp only
                        cases !adjacent.2.isFree with
                        | true => rfl
                        | false => exact alone_install hitem

theorem alone_uninstallMiner (s : State) {u : UserId} {rackId : ℕ} (hrack : rackId ≠ 0) :
    (alone cfg 2 s (.machine u rackId)).db
      = (exec cfg s.db (.uninstallMiner u rackId)).toOption.getD s.db := by
  rw [exec, Db.uninstallMiner, if_neg hrack, alone_read rfl, query, readMachine]
  cases (s.db.rack.row rackId).filter fun r => r.userId = u with
  | none => rfl
  | some rack =>
      dsimp only
      cases hheld : rack.userMinerId.bind fun id =>
        (s.db.userMiner.row id).map fun m => (id, m) with
      | none => rfl
      | some found =>
          obtain ⟨machineId, m⟩ := found
          have hthere : (s.db.userMiner.row machineId).isNone = false := by
            rw [(heldMachine_eq_some hheld).2]
            rfl
          dsimp only
          rw [alone, resume, uninstallTx, hthere, if_neg (by decide)]
          dsimp only
          cases Db.carry _ _ _ _ _ <;> rfl

end BlockMiner.Rooms
