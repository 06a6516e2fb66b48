import BlockMiner.MachineRacks
import BlockMiner.MachineRegistry

/-!
# Every owned machine lives in one place

`LivesOnce` is what the schema says of `userOwnedMachine` and no constraint
enforces: each row is referenced by exactly one child row, in the table its
location names, of the same user. The operations keep it, with two
exceptions. An eviction creates a new machine and deletes the old child row,
and the cleanup deletes inventory rows: when the deleted row has an
identity, the identity stays behind with no place. `KeepsIdentities` asks
that this does not happen; `lives_once` is the result about runs. It also
uses that a rack holds a machine of its own user (`RacksOwn`), which every
operation keeps.
-/

namespace BlockMiner.Machines

/-- The child row refers to the identity. -/
def Refers (db : Db) (p : Place) (om : ℕ) : Prop := (registry db).Holds p om

/-- **One place for every owned machine.** -/
structure LivesOnce (db : Db) : Prop where
  once : ∀ {om o}, db.owned.row om = some o →
    ∃ p : Place, p.1 = o.location ∧ ∀ q, Refers db q om ↔ q = p
  owner : ∀ {p u om}, child db p = some (u, some om) →
    ∃ o, db.owned.row om = some o ∧ o.userId = u

theorem livesOnce_iff {db : Db} : LivesOnce db ↔ Consistent db := by
  constructor
  · intro h
    refine ⟨fun {p u om} hp => ?_, fun {p q om} hp hq => ?_, fun {om x} hom => ?_⟩
    · obtain ⟨o, ho, rfl⟩ := h.owner hp
      obtain ⟨p₀, hloc, honly⟩ := h.once ho
      obtain rfl := (honly p).mp ⟨_, hp⟩
      show (db.owned.row om).map _ = _
      rw [ho, hloc]
      rfl
    · obtain ⟨u, hu⟩ := id hp
      obtain ⟨o, ho, -⟩ := h.owner hu
      obtain ⟨p₀, -, honly⟩ := h.once ho
      exact ((honly p).mp hp).trans ((honly q).mp hq).symm
    · obtain ⟨o, ho, -⟩ := Option.map_eq_some_iff.mp hom
      obtain ⟨p, -, honly⟩ := h.once ho
      exact ⟨p, (honly p).mpr rfl⟩
  · intro h
    refine ⟨fun {om o} ho => ?_, fun {p u om} hp => ?_⟩
    · have hitem : (registry db).item om = some (o.userId, o.location) := by
        show (db.owned.row om).map _ = _
        rw [ho]
        rfl
      exact h.one_place hitem
    · obtain ⟨o, ho, heq⟩ := Option.map_eq_some_iff.mp (h.sound hp)
      exact ⟨o, ho, (Prod.mk.inj heq).1⟩

/-! ## Racks hold machines of their user -/

def RacksOwn (F : Floor) : Prop :=
  ∀ r k m, F.rack r = some k → k.userMinerId = some m →
    ∃ s, F.spot m = some s ∧ s.userId = k.userId

section RacksOwn

variable {F : Floor} (h : RacksOwn F)
include h

theorem RacksOwn.remove (id : ℕ) : RacksOwn (F.remove id) := by
  intro r k m hk hm
  obtain ⟨k₀, hk₀, rfl⟩ := remove_rack_eq_some.mp hk
  obtain ⟨hne, hm₀⟩ := release_userMinerId.mp hm
  obtain ⟨s, hs, hu⟩ := h _ _ _ hk₀ hm₀
  exact ⟨s, remove_spot_eq_some.mpr ⟨hne, hs⟩, hu⟩

theorem RacksOwn.removals {F₁ : Floor} (hremovals : Removals F F₁) : RacksOwn F₁ := by
  induction hremovals with
  | refl => exact h
  | tail _ hlast ih =>
      obtain ⟨id, rfl⟩ := hlast
      exact ih.remove id

theorem RacksOwn.ne_of_fresh {id r m : ℕ} {k : UserRack} (hfresh : F.spot id = none)
    (hk : F.rack r = some k) (hm : k.userMinerId = some m) : m ≠ id := by
  rintro rfl
  obtain ⟨s, hs, -⟩ := h _ _ _ hk hm
  rw [hfresh] at hs
  cases hs

theorem RacksOwn.place {id : ℕ} (hfresh : F.spot id = none) (s : Spot) :
    RacksOwn (F.place id s) := by
  intro r k m hk hm
  obtain ⟨t, ht, hu⟩ := h _ _ _ hk hm
  exact ⟨t, (place_spot_of_ne (h.ne_of_fresh hfresh hk hm)).trans ht, hu⟩

theorem RacksOwn.move (id slotIndex : ℕ) : RacksOwn (F.move id slotIndex) := by
  intro r k m hk hm
  obtain ⟨t, ht, hu⟩ := h _ _ _ hk hm
  by_cases hne : m = id
  · subst hne
    exact ⟨_, move_spot_self ht, hu⟩
  · exact ⟨t, (move_spot_of_ne hne).trans ht, hu⟩

theorem RacksOwn.openRoom (u roomId roomNumber base racks : ℕ) :
    RacksOwn (F.openRoom u roomId roomNumber base racks) := by
  intro r k m hk hm
  rcases openRoom_rack_eq_some.mp hk with ⟨-, rfl⟩ | ⟨-, hold⟩
  · cases hm
  · exact h _ _ _ hold hm

theorem RacksOwn.hold {cfg : Config} {u rackId id : ℕ} {rack : UserRack} {s : Spot}
    {blocks : Option ℕ} (hcan : CanHold cfg F u rackId rack s blocks) (hfresh : F.spot id = none) :
    RacksOwn (F.hold id s rackId blocks) := by
  intro r k m hk hm
  obtain ⟨k₀, hk₀, rfl⟩ := hold_rack_eq_some.mp hk
  have hnot : k₀.userMinerId ≠ some id := fun hm => h.ne_of_fresh hfresh hk₀ hm rfl
  rcases (hold_userMinerId hnot).mp hm with ⟨rfl, rfl⟩ | ⟨-, hne, hm₀⟩
  · obtain rfl := Option.some.inj (hcan.found.symm.trans hk₀)
    exact ⟨s, hold_spot_self F m s r blocks, hcan.spotUser.trans hcan.user.symm⟩
  · obtain ⟨t, ht, hu⟩ := h _ _ _ hk₀ hm₀
    exact ⟨t, (hold_spot_of_ne hne).trans ht, hu⟩

theorem RacksOwn.uninstall (rackId roomId id : ℕ) : RacksOwn (F.uninstall rackId roomId id) := by
  intro r k m hk hm
  obtain ⟨k₀, hk₀, rfl⟩ := Option.map_eq_some_iff.mp hk
  have hif : (if r = rackId ∨ k₀.userMinerId = some id then none else k₀.userMinerId) = some m := hm
  split at hif
  case isTrue => cases hif
  case isFalse hnot =>
    obtain ⟨t, ht, hu⟩ := h _ _ _ hk₀ hif
    refine ⟨t, (Function.update_of_ne ?_ _ _).trans ht, hu⟩
    rintro rfl
    exact hnot (Or.inr hif)

end RacksOwn

theorem RacksOwn.step {cfg : Config} {db : Db} {op : Op} {F' : Floor} (h : RacksOwn (floor db))
    (he : Effect cfg db op F') : RacksOwn F' := by
  cases he with
  | same => exact h
  | removed id => exact h.remove id
  | installed _ _ _ hcleared hfresh _ | retrieved _ _ _ hcleared hfresh _ =>
      exact (h.removals hcleared.removals).place hfresh _
  | moved _ _ _ hcleared _ => exact (h.removals hcleared.removals).move _ _
  | opened _ _ => exact h.openRoom _ _ _ _ _
  | held _ _ hcan hfresh => exact h.hold hcan hfresh
  | uninstalled _ _ => exact h.uninstall _ _ _

theorem racksOwn_empty : RacksOwn (floor .empty) := fun _ _ _ hk => by cases hk

/-! ## Steps -/

/-- No machine with an identity is evicted or deleted by the cleanup. -/
def KeepsIdentities (db : Db) : Op → Prop
  | .installInventoryItem u slotIndex inventoryId =>
      ∀ item ∈ db.getInventoryItem u inventoryId,
        EvictsAnonymous db u slotIndex (slotCount item.machine.slotSize) none true
  | .moveMachine u machineId target =>
      ∀ m ∈ db.getMachineById u machineId,
        EvictsAnonymous db u target m.specs.slotSize (some machineId) true
  | .retrieveFromVaultToRack u vaultId slotIndex =>
      ∀ item ∈ db.getVaultItem u vaultId,
        EvictsAnonymous db u slotIndex (slotCount item.machine.slotSize) none false
  | .cleanupExpiredInventory now =>
      ∀ p ∈ db.inventory.rows, p.2.expiresAt.any (· < now) = true → p.2.ownedMachineId = none
  | _ => True

instance (db : Db) : ∀ op, Decidable (KeepsIdentities db op)
  | .installInventoryItem u slotIndex inventoryId =>
      inferInstanceAs (Decidable (∀ item ∈ db.getInventoryItem u inventoryId,
        EvictsAnonymous db u slotIndex (slotCount item.machine.slotSize) none true))
  | .moveMachine u machineId target =>
      inferInstanceAs (Decidable (∀ m ∈ db.getMachineById u machineId,
        EvictsAnonymous db u target m.specs.slotSize (some machineId) true))
  | .retrieveFromVaultToRack u vaultId slotIndex =>
      inferInstanceAs (Decidable (∀ item ∈ db.getVaultItem u vaultId,
        EvictsAnonymous db u slotIndex (slotCount item.machine.slotSize) none false))
  | .cleanupExpiredInventory now =>
      inferInstanceAs (Decidable (∀ p ∈ db.inventory.rows,
        p.2.expiresAt.any (· < now) = true → p.2.ownedMachineId = none))
  | .createInventoryWithOwnedMachine .. | .bulkCreateInventoryWithOwnedMachines ..
  | .removeInventoryItem .. | .removeMachine .. | .moveToVaultFromInventory ..
  | .moveToVaultFromRack .. | .retrieveFromVaultToInventory .. | .buyRoom .. | .installMiner ..
  | .uninstallMiner .. => inferInstanceAs (Decidable True)

theorem getInventoryItem_child {db : Db} {u id : ℕ} {item : Inventory}
    (hitem : db.getInventoryItem u id = some item) :
    item.userId = u ∧ child db (.INVENTORY, id) = some (u, item.ownedMachineId) := by
  obtain ⟨hrow, rfl⟩ := getInventoryItem_eq_some hitem
  exact ⟨rfl, congrArg (Option.map _) hrow⟩

theorem getVaultItem_child {db : Db} {u id : ℕ} {item : Vault}
    (hitem : db.getVaultItem u id = some item) :
    item.userId = u ∧ child db (.WAREHOUSE, id) = some (u, item.ownedMachineId) := by
  obtain ⟨hrow, rfl⟩ := getVaultItem_eq_some hitem
  exact ⟨rfl, congrArg (Option.map _) hrow⟩

theorem getMachineById_child {db : Db} {u id : ℕ} {m : UserMiner}
    (hm : db.getMachineById u id = some m) :
    m.userId = u ∧ child db (.RACK, id) = some (u, m.ownedMachineId) := by
  obtain ⟨hrow, rfl⟩ := getMachineById_eq_some hm
  exact ⟨rfl, congrArg (Option.map _) hrow⟩

section Steps

variable {cfg : Config} {db db' : Db} {u : UserId} (h : Consistent db)
include h

theorem bulkCreate_consistent (machine : Snapshot) (quantity : ℕ) :
    Consistent (db.bulkCreateInventoryWithOwnedMachines u machine quantity) := by
  unfold Db.bulkCreateInventoryWithOwnedMachines
  induction quantity with
  | zero => exact h
  | succ n ih =>
      rw [List.range_succ, List.foldl_append]
      exact createInventoryWithOwnedMachine_consistent ih u machine none

theorem installInventoryItem_consistent {slotIndex inventoryId : ℕ}
    (hkeeps : KeepsIdentities db (.installInventoryItem u slotIndex inventoryId))
    (hok : db.installInventoryItem cfg u slotIndex inventoryId = .ok db') : Consistent db' := by
  obtain ⟨item, machine, imageUrl, -, hitem, hcarry⟩ := installInventoryItem_eq_ok hok
  obtain ⟨rfl, hchild⟩ := getInventoryItem_child hitem
  have hevictions := Evictions.evictBoth (rackSnapshot cfg) h (hkeeps item hitem)
  exact carry_ensured hevictions.consistent (hevictions.kept (by nofun) hchild)
    createUserMiner_creates hcarry

theorem removeInventoryItem_consistent {inventoryId : ℕ}
    (hok : db.removeInventoryItem u inventoryId = .ok db') : Consistent db' := by
  obtain ⟨row, hrow, hdone⟩ := removeInventoryItem_eq_ok hok
  obtain ⟨rfl, hchild⟩ := getInventoryItem_child hrow
  split at hdone
  case h_1 hnone =>
    subst hdone
    refine deleteChild_consistent h ?_
    rintro i ⟨v, hv⟩
    rw [hnone] at hchild
    cases hv.symm.trans hchild
  case h_2 om hom =>
    subst hdone
    rw [hom] at hchild
    show (registry _).Consistent Prod.fst
    rw [registry_deleteOwned, registry_deleteChild]
    exact Registry.Consistent.dispose h ⟨_, hchild⟩

theorem removeMachine_consistent {machineId : ℕ}
    (hok : db.removeMachine cfg u machineId = .ok db') : Consistent db' := by
  obtain ⟨m, hm, hcarry⟩ := removeMachine_eq_ok hok
  obtain ⟨rfl, hchild⟩ := getMachineById_child hm
  let released := db.releaseUserMinerFromRacks machineId
  have hreleased : child released (.RACK, machineId) = some (m.userId, m.ownedMachineId) := hchild
  have hcons : Consistent released := h
  exact carry_ensured hcons hreleased createInventory_creates hcarry

/-- Moving a machine changes its slot only. -/
theorem setSlotIndex_consistent {id slotIndex : ℕ}
    (hset : db.setSlotIndex id slotIndex u = some db') : Consistent db' := by
  obtain ⟨rfl, -⟩ := setSlotIndex_eq_some hset
  show (registry _).Consistent Prod.fst
  rw [show registry { db with userMiner := db.userMiner.modify id fun m => { m with slotIndex } }
      = registry db from ?_]
  · exact h
  · refine Registry.ext rfl (funext fun q => ?_)
    obtain ⟨_ | _ | _, i⟩ := q
    · rfl
    · show ((db.userMiner.modify id _).row i).map _ = _
      rw [Table.modify_row]
      split
      · rw [Option.map_map]
        rfl
      · rfl
    · rfl

theorem moveMachine_consistent {machineId target : ℕ}
    (hkeeps : KeepsIdentities db (.moveMachine u machineId target))
    (hok : db.moveMachine cfg u machineId target = .ok db') : Consistent db' := by
  obtain ⟨m, -, hm, hset⟩ := moveMachine_eq_ok hok
  have hevictions := Evictions.evictBoth (moveSnapshot cfg) h (hkeeps m hm)
  exact setSlotIndex_consistent hevictions.consistent hset

theorem moveToVaultFromInventory_consistent {itemId : ℕ}
    (hok : db.moveToVaultFromInventory cfg u itemId = .ok db') : Consistent db' := by
  obtain ⟨item, hitem, hcarry⟩ := moveToVaultFromInventory_eq_ok hok
  obtain ⟨rfl, hchild⟩ := getInventoryItem_child hitem
  exact carry_ensured h hchild createVault_creates hcarry

theorem moveToVaultFromRack_consistent {itemId : ℕ}
    (hok : db.moveToVaultFromRack cfg u itemId = .ok db') : Consistent db' := by
  obtain ⟨m, hm, hcarry⟩ := moveToVaultFromRack_eq_ok hok
  obtain ⟨rfl, hchild⟩ := getMachineById_child hm
  refine carry_ensured h hchild (fun {d om d₁} hcreate => ?_) hcarry
  have hreleased : Creates (d.releaseUserMinerFromRacks itemId) _ _ d₁ :=
    createVault_creates hcreate
  exact hreleased

theorem retrieveFromVaultToInventory_consistent {vaultId : ℕ}
    (hok : db.retrieveFromVaultToInventory cfg u vaultId = .ok db') : Consistent db' := by
  obtain ⟨item, hitem, hcarry⟩ := retrieveFromVaultToInventory_eq_ok hok
  obtain ⟨rfl, hchild⟩ := getVaultItem_child hitem
  exact carry_ensured h hchild createInventory_creates hcarry

theorem retrieveFromVaultToRack_consistent {vaultId slotIndex : ℕ}
    (hkeeps : KeepsIdentities db (.retrieveFromVaultToRack u vaultId slotIndex))
    (hok : db.retrieveFromVaultToRack cfg u vaultId slotIndex = .ok db') : Consistent db' := by
  obtain ⟨item, -, hitem, hcarry⟩ := retrieveFromVaultToRack_eq_ok hok
  obtain ⟨rfl, hchild⟩ := getVaultItem_child hitem
  have hevictions := Evictions.evictOverlapping (rackSnapshot cfg) h (hkeeps item hitem)
  exact carry_ensured hevictions.consistent (hevictions.kept (by nofun) hchild)
    createUserMiner_creates hcarry

/-- Buying a room changes rooms and racks only. -/
theorem buyRoom_consistent (hok : db.buyRoom cfg u = .ok db') : Consistent db' := by
  obtain ⟨roomNumber, rfl⟩ := buyRoom_eq_ok hok
  exact h

theorem installInRack_consistent {rackId inventoryId slotIndex : ℕ} {item : Inventory}
    {blocks : Option ℕ} (hitem : db.getInventoryItem u inventoryId = some item)
    (hok : db.installInRack u rackId inventoryId slotIndex item blocks = some db') :
    Consistent db' := by
  obtain ⟨rfl, hchild⟩ := getInventoryItem_child hitem
  refine carry_ensured h hchild (fun {d om d₁} hcreate => ?_) hok
  obtain ⟨d₂, huser, rfl⟩ := Option.map_eq_some_iff.mp hcreate
  have hcreates : Creates d _ _ d₂ := createUserMiner_creates huser
  exact hcreates

theorem installMiner_consistent {rackId inventoryId : ℕ}
    (hok : db.installMiner cfg u rackId inventoryId = .ok db') : Consistent db' := by
  obtain ⟨rack, room, item, blocks, -, hitem, -, hinstall⟩ := installMiner_eq_ok hok
  exact installInRack_consistent h hitem hinstall

/-- The machine is of the user because the rack is. -/
theorem uninstallMiner_consistent {rackId : ℕ} (hracks : RacksOwn (floor db))
    (hok : db.uninstallMiner cfg u rackId = .ok db') : Consistent db' := by
  obtain ⟨rack, id, m, minerName, imageUrl, hrack, hu, hheld, hm, hcarry⟩ :=
    uninstallMiner_eq_ok hok
  obtain ⟨s, hs, hsu⟩ := hracks _ _ _ hrack hheld
  obtain rfl := Option.some.inj ((floor_spot hm).symm.trans hs)
  obtain rfl : m.userId = u := hsu.trans hu
  let emptied := db.emptyRack rackId rack.roomId id
  have hemptied : child emptied (.RACK, id) = some (m.userId, m.ownedMachineId) :=
    congrArg (Option.map _) hm
  have hcons : Consistent emptied := h
  exact carry_ensured hcons hemptied createInventory_creates hcarry

theorem cleanupExpiredInventory_consistent {now : ℕ}
    (hkeeps : KeepsIdentities db (.cleanupExpiredInventory now)) :
    Consistent (db.cleanupExpiredInventory now) := by
  refine Registry.Consistent.vacate h rfl fun p => ?_
  obtain ⟨_ | _ | _, id⟩ := p
  case INVENTORY =>
    have hslot : (registry (db.cleanupExpiredInventory now)).slot (.INVENTORY, id)
        = ((db.inventory.row id).filter fun r => !r.expiresAt.any (· < now)).map
            fun r => (r.userId, r.ownedMachineId) :=
      congrArg (Option.map _) (Table.deleteMany_row ..)
    rw [hslot]
    cases hrow : db.inventory.row id with
    | none => exact Or.inl (congrArg (Option.map _) hrow.symm)
    | some r =>
        by_cases hexpired : r.expiresAt.any (· < now) = true
        · refine Or.inr ⟨by simp [hexpired], ?_⟩
          rintro i ⟨v, hv⟩
          obtain ⟨r', hr', heq⟩ := Option.map_eq_some_iff.mp hv
          obtain rfl := Option.some.inj (hrow.symm.trans hr')
          have hnone := hkeeps (id, r) (Table.mem_rows.mpr hrow) hexpired
          cases hnone.symm.trans (Prod.mk.inj heq).2
        · refine Or.inl ?_
          rw [Option.filter_some, if_pos (by simpa using hexpired)]
          exact congrArg (Option.map _) hrow.symm
  case RACK => exact Or.inl rfl
  case WAREHOUSE => exact Or.inl rfl

end Steps

/-- **Step lemma.** -/
theorem Consistent.step {cfg : Config} {db db' : Db} {op : Op} (h : Consistent db)
    (hracks : RacksOwn (floor db)) (hkeeps : KeepsIdentities db op)
    (hexec : exec cfg db op = .ok db') : Consistent db' := by
  cases op with
  | createInventoryWithOwnedMachine u machine expiresAt =>
      obtain rfl := Except.ok.inj hexec
      exact createInventoryWithOwnedMachine_consistent h u machine expiresAt
  | bulkCreateInventoryWithOwnedMachines u machine quantity =>
      obtain rfl := Except.ok.inj hexec
      exact bulkCreate_consistent h machine quantity
  | installInventoryItem u slotIndex inventoryId =>
      exact installInventoryItem_consistent h hkeeps hexec
  | removeInventoryItem u inventoryId => exact removeInventoryItem_consistent h hexec
  | removeMachine u machineId => exact removeMachine_consistent h hexec
  | moveMachine u machineId target => exact moveMachine_consistent h hkeeps hexec
  | moveToVaultFromInventory u itemId => exact moveToVaultFromInventory_consistent h hexec
  | moveToVaultFromRack u itemId => exact moveToVaultFromRack_consistent h hexec
  | retrieveFromVaultToInventory u vaultId =>
      exact retrieveFromVaultToInventory_consistent h hexec
  | retrieveFromVaultToRack u vaultId slotIndex =>
      exact retrieveFromVaultToRack_consistent h hkeeps hexec
  | buyRoom u => exact buyRoom_consistent h hexec
  | installMiner u rackId inventoryId => exact installMiner_consistent h hexec
  | uninstallMiner u rackId => exact uninstallMiner_consistent h hracks hexec
  | cleanupExpiredInventory now =>
      obtain rfl := Except.ok.inj hexec
      exact cleanupExpiredInventory_consistent h hkeeps

/-- **Owned machines live once.** In a run that neither evicts a machine
with an identity nor lets one expire, every owned machine keeps exactly one
place, the one its location names, and every identity its owner. -/
theorem lives_once {cfg : Config} {db db' : Db} {ops : List Op} (h : LivesOnce db)
    (hracks : RacksOwn (floor db)) (hkeeps : (system cfg).Meets KeepsIdentities db ops)
    (hrun : (system cfg).run db ops = some db') : LivesOnce db' := by
  have hstep (db : Db) (op : Op) (db' : Db) (hdb : Consistent db ∧ RacksOwn (floor db))
      (hC : KeepsIdentities db op) (hs : (system cfg).step db op = some db') :
      Consistent db' ∧ RacksOwn (floor db') := by
    have hexec : exec cfg db op = .ok db' := toOption_eq_some.mp hs
    exact ⟨hdb.1.step hdb.2 hC hexec, hdb.2.step (exec_effect hexec)⟩
  have hinv := (system cfg).run_invariant hstep ⟨livesOnce_iff.mp h, hracks⟩ hkeeps hrun
  exact livesOnce_iff.mpr hinv.1

theorem livesOnce_empty : LivesOnce .empty where
  once ho := by cases ho
  owner {p _ _} hp := by obtain ⟨_ | _ | _, _⟩ := p <;> cases hp

/-- A machine that goes through all its places: a rack, the warehouse, a rack of a room. -/
def movedAround : List Op :=
  [.createInventoryWithOwnedMachine 1 (customMachine 1) none, .installInventoryItem 1 0 1,
    .moveMachine 1 1 3, .moveToVaultFromRack 1 1, .retrieveFromVaultToInventory 1 1, .buyRoom 1,
    .installMiner 1 1 2, .uninstallMiner 1 1]

theorem lives_once_movedAround :
    ∃ db, (system defaults).run .empty movedAround = some db ∧ LivesOnce db :=
  have hrun : ((system defaults).run .empty movedAround).isSome := by decide +kernel
  ⟨_, (Option.some_get hrun).symm,
    lives_once livesOnce_empty racksOwn_empty (by decide +kernel) (Option.some_get hrun).symm⟩

/-- A machine installed over another one. -/
def installedTwice : List Op :=
  [.createInventoryWithOwnedMachine 1 (customMachine 1) none, .installInventoryItem 1 0 1,
    .createInventoryWithOwnedMachine 1 (customMachine 1) none, .installInventoryItem 1 0 2]

/-- The evicted machine gets a new identity, and the old one is in no place. -/
theorem eviction_orphans :
    ¬ ∀ (cfg : Config) (db db' : Db) (ops : List Op), LivesOnce db → RacksOwn (floor db) →
        (system cfg).run db ops = some db' → LivesOnce db' := by
  intro h
  have horphan : ∃ db ∈ (system defaults).run .empty installedTwice, (db.owned.row 1).isSome
      ∧ (∀ r ∈ db.inventory.rows, r.2.ownedMachineId ≠ some 1)
      ∧ (∀ r ∈ db.userMiner.rows, r.2.ownedMachineId ≠ some 1)
      ∧ ∀ r ∈ db.vault.rows, r.2.ownedMachineId ≠ some 1 := by
    decide +kernel
  obtain ⟨db, hrun, howned, hinventory, huserMiner, hvault⟩ := horphan
  have hlives := h defaults .empty db installedTwice livesOnce_empty racksOwn_empty hrun
  obtain ⟨o, ho⟩ := Option.isSome_iff_exists.mp howned
  obtain ⟨⟨location, id⟩, -, honly⟩ := hlives.once ho
  obtain ⟨u, hu⟩ := (honly _).mpr rfl
  cases location with
  | INVENTORY =>
      obtain ⟨r, hr, heq⟩ := Option.map_eq_some_iff.mp hu
      exact hinventory _ (Table.mem_rows.mpr hr) (Prod.mk.inj heq).2
  | RACK =>
      obtain ⟨r, hr, heq⟩ := Option.map_eq_some_iff.mp hu
      exact huserMiner _ (Table.mem_rows.mpr hr) (Prod.mk.inj heq).2
  | WAREHOUSE =>
      obtain ⟨r, hr, heq⟩ := Option.map_eq_some_iff.mp hu
      exact hvault _ (Table.mem_rows.mpr hr) (Prod.mk.inj heq).2

end BlockMiner.Machines
