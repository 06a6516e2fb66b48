import BlockMiner.MachineFloor
import BlockMiner.Registry

/-!
# The tables as a registry of machines

Identities (`userOwnedMachine` rows) are the items and child rows the slots.
Creating a machine registers a new item, `carry` transfers one, and an
eviction registers a new machine and empties the slot of the old one, which
keeps the registry consistent when the old row has no identity.
-/

namespace BlockMiner.Machines

/-- A child row: its user and its identity. -/
def child (db : Db) : Place → Option (UserId × Option ℕ)
  | (.INVENTORY, id) => (db.inventory.row id).map fun r => (r.userId, r.ownedMachineId)
  | (.RACK, id) => (db.userMiner.row id).map fun r => (r.userId, r.ownedMachineId)
  | (.WAREHOUSE, id) => (db.vault.row id).map fun r => (r.userId, r.ownedMachineId)

def registry (db : Db) : Registry ℕ Place UserId MachineInstanceLocation where
  item om := (db.owned.row om).map fun o => (o.userId, o.location)
  slot := child db

/-- The registry is consistent. -/
def Consistent (db : Db) : Prop := (registry db).Consistent Prod.fst

/-! ## The registry after each write -/

section Writes

variable {db db' : Db}

theorem child_deleteChild (db : Db) (p q : Place) :
    child (db.deleteChild p) q = if q = p then none else child db q := by
  obtain ⟨_ | _ | _, id⟩ := p <;> obtain ⟨_ | _ | _, id'⟩ := q <;> by_cases hid : id' = id <;>
    simp [child, Db.deleteChild, Table.delete_row, hid]

theorem registry_deleteChild (db : Db) (p : Place) :
    registry (db.deleteChild p) = (registry db).setSlot p none := by
  refine Registry.ext ?_ (funext fun q => ?_)
  · obtain ⟨_ | _ | _, id⟩ := p <;> rfl
  · exact (child_deleteChild db p q).trans (Function.update_apply ..).symm

theorem child_setOwnedMachineId {p : Place} {u : UserId} {x : Option ℕ}
    (hp : child db p = some (u, x)) (om : ℕ) (q : Place) :
    child (db.setOwnedMachineId om p) q = if q = p then some (u, some om) else child db q := by
  by_cases hq : q = p
  · subst hq
    rw [if_pos rfl]
    obtain ⟨_ | _ | _, id⟩ := q <;>
      · obtain ⟨r, hr, heq⟩ := Option.map_eq_some_iff.mp hp
        simp [child, Db.setOwnedMachineId, Table.modify_row, hr, (Prod.mk.inj heq).1]
  · rw [if_neg hq]
    obtain ⟨_ | _ | _, id⟩ := p <;> obtain ⟨_ | _ | _, id'⟩ := q <;>
      simp_all [child, Db.setOwnedMachineId, Table.modify_row]

theorem registry_setOwnedMachineId {p : Place} {u : UserId} {x : Option ℕ}
    (hp : child db p = some (u, x)) (om : ℕ) :
    registry (db.setOwnedMachineId om p) = (registry db).setSlot p (some (u, some om)) := by
  refine Registry.ext ?_ (funext fun q => ?_)
  · obtain ⟨_ | _ | _, id⟩ := p <;> rfl
  · exact (child_setOwnedMachineId hp om q).trans (Function.update_apply ..).symm

/-- The place of the next row of a child table. -/
def nextPlace (db : Db) : MachineInstanceLocation → Place
  | .INVENTORY => (.INVENTORY, db.inventory.nextId)
  | .RACK => (.RACK, db.userMiner.nextId)
  | .WAREHOUSE => (.WAREHOUSE, db.vault.nextId)

theorem child_nextPlace (db : Db) (location : MachineInstanceLocation) :
    child db (nextPlace db location) = none := by
  cases location with
  | INVENTORY => exact congrArg (Option.map _) (db.inventory.fresh _ le_rfl)
  | RACK => exact congrArg (Option.map _) (db.userMiner.fresh _ le_rfl)
  | WAREHOUSE => exact congrArg (Option.map _) (db.vault.fresh _ le_rfl)

/-- A child row is created, in the next place of its table. -/
def Creates (db : Db) (location : MachineInstanceLocation) (x : UserId × Option ℕ) (db' : Db) :
    Prop :=
  registry db' = (registry db).setSlot (nextPlace db location) (some x)

theorem createInventory_creates {r : Inventory} (h : db.createInventory r = some db') :
    Creates db .INVENTORY (r.userId, r.ownedMachineId) db' := by
  rw [createInventory_eq_some h]
  refine Registry.ext rfl (funext fun q => ?_)
  obtain ⟨_ | _ | _, id⟩ := q <;> by_cases hid : id = db.inventory.nextId <;>
    simp [registry, Registry.setSlot, nextPlace, child, Table.insert_row, hid]

theorem createUserMiner_creates {m : UserMiner} (h : db.createUserMiner m = some db') :
    Creates db .RACK (m.userId, m.ownedMachineId) db' := by
  rw [(createUserMiner_eq_some h).1]
  refine Registry.ext rfl (funext fun q => ?_)
  obtain ⟨_ | _ | _, id⟩ := q <;> by_cases hid : id = db.userMiner.nextId <;>
    simp [registry, Registry.setSlot, nextPlace, child, Table.insert_row, hid]

theorem createVault_creates {r : Vault} (h : db.createVault r = some db') :
    Creates db .WAREHOUSE (r.userId, r.ownedMachineId) db' := by
  rw [createVault_eq_some h]
  refine Registry.ext rfl (funext fun q => ?_)
  obtain ⟨_ | _ | _, id⟩ := q <;> by_cases hid : id = db.vault.nextId <;>
    simp [registry, Registry.setSlot, nextPlace, child, Table.insert_row, hid]

theorem registry_syncOwnedMachineSnapshot {om : ℕ} {location k : MachineInstanceLocation}
    {u : UserId} {machine : Snapshot} (hom : (registry db).item om = some (u, k))
    (h : db.syncOwnedMachineSnapshot om location machine = some db') :
    registry db' = (registry db).setItem om (some (u, location)) := by
  rw [syncOwnedMachineSnapshot_eq_some h]
  obtain ⟨o, ho, heq⟩ := Option.map_eq_some_iff.mp hom
  refine Registry.ext (funext fun i => ?_) rfl
  show ((db.owned.modify om _).row i).map _ = Function.update (registry db).item om _ i
  rw [Table.modify_row, Function.update_apply]
  by_cases hi : i = om
  · rw [if_pos hi, if_pos hi, hi, ho]
    exact congrArg (fun v => some (v, location)) (Prod.mk.inj heq).1
  · rw [if_neg hi, if_neg hi]
    rfl

theorem item_nextId (db : Db) : (registry db).item db.owned.nextId = none :=
  congrArg (Option.map _) (db.owned.fresh _ le_rfl)

theorem registry_insertOwned (db : Db) (o : UserOwnedMachine) :
    registry { db with owned := db.owned.insert o }
      = (registry db).setItem db.owned.nextId (some (o.userId, o.location)) := by
  refine Registry.ext (funext fun i => ?_) rfl
  show ((db.owned.insert o).row i).map _ = Function.update (registry db).item _ _ i
  rw [Table.insert_row, Function.update_apply]
  split
  · rfl
  · rfl

theorem registry_deleteOwned (db : Db) (om : ℕ) :
    registry { db with owned := db.owned.delete om } = (registry db).setItem om none := by
  refine Registry.ext (funext fun i => ?_) rfl
  show ((db.owned.delete om).row i).map _ = Function.update (registry db).item om none i
  rw [Table.delete_row, Function.update_apply]
  split
  · rfl
  · rfl

/-- A row without an identity is deleted. -/
theorem deleteChild_consistent {p : Place} (h : Consistent db)
    (hempty : ∀ i, ¬(registry db).Holds p i) : Consistent (db.deleteChild p) := by
  show (registry (db.deleteChild p)).Consistent Prod.fst
  rw [registry_deleteChild]
  refine Registry.Consistent.vacate h rfl fun q => ?_
  by_cases hq : q = p
  · subst hq
    exact Or.inr ⟨Function.update_self _ _ _, hempty⟩
  · exact Or.inl (Function.update_of_ne hq _ _)

end Writes

/-! ## Giving a row its identity, and carrying it over -/

section Carrying

variable {db db' : Db}

/-- Afterwards the row has the identity that is returned. -/
theorem ensureOwnedMachine_consistent {p : Place} {u : UserId} {om : Option ℕ} (machine : Snapshot)
    (h : Consistent db) (hp : child db p = some (u, om)) :
    Consistent (db.ensureOwnedMachine p u machine om).1
      ∧ child (db.ensureOwnedMachine p u machine om).1 p
          = some (u, some (db.ensureOwnedMachine p u machine om).2) := by
  cases om with
  | some om => exact ⟨h, hp⟩
  | none =>
      let db₁ : Db := { db with owned := db.owned.insert { userId := u, location := p.1, machine } }
      have hp₁ : child db₁ p = some (u, none) := by
        obtain ⟨_ | _ | _, id⟩ := p <;> exact hp
      have hempty : ∀ j, ¬(registry db).Holds p j := by
        rintro j ⟨v, hv⟩
        cases hv.symm.trans hp
      constructor
      · show ((registry (db₁.setOwnedMachineId db.owned.nextId p))).Consistent Prod.fst
        rw [registry_setOwnedMachineId hp₁, registry_insertOwned]
        exact h.register u (item_nextId db) hempty
      · exact (child_setOwnedMachineId hp₁ _ p).trans (if_pos rfl)

/-- A row with an identity is replaced by a new row that carries it. -/
theorem carry_consistent {owned : Db × ℕ} {p : Place} {u : UserId}
    {location : MachineInstanceLocation} {machine : Snapshot} {create : Db → ℕ → Option Db}
    (h : Consistent owned.1) (hp : child owned.1 p = some (u, some owned.2))
    (hcreate : ∀ {d om d₁}, create d om = some d₁ → Creates d location (u, some om) d₁)
    (hcarry : Db.carry owned p location machine create = some db') : Consistent db' := by
  obtain ⟨db₁, db₂, hdb₁, hsync, rfl⟩ := carry_ok hcarry
  have hcreated : registry db₁ = _ := hcreate hdb₁
  have hitem : (registry db₁).item owned.2 = some (u, p.1) := by
    rw [hcreated]
    exact h.sound hp
  have hkind : (nextPlace owned.1 location).1 = location := by cases location <;> rfl
  have hfree : ∀ j, ¬(registry owned.1).Holds (nextPlace owned.1 location) j := by
    rintro j ⟨v, hv⟩
    cases hv.symm.trans (child_nextPlace owned.1 location)
  have htransfer := h.transfer hp hfree
  rw [hkind] at htransfer
  show (registry (db₂.deleteChild p)).Consistent Prod.fst
  rw [registry_deleteChild, registry_syncOwnedMachineSnapshot hitem hsync, hcreated]
  exact htransfer

theorem carry_ensured {p : Place} {u : UserId} {om : Option ℕ} {snap machine : Snapshot}
    {location : MachineInstanceLocation} {create : Db → ℕ → Option Db}
    (h : Consistent db) (hp : child db p = some (u, om))
    (hcreate : ∀ {d om d₁}, create d om = some d₁ → Creates d location (u, some om) d₁)
    (hcarry : Db.carry (db.ensureOwnedMachine p u snap om) p location machine create = some db') :
    Consistent db' := by
  obtain ⟨hcons, hchild⟩ := ensureOwnedMachine_consistent snap h hp
  exact carry_consistent hcons hchild hcreate hcarry

theorem registry_createInventoryWithOwnedMachine (db : Db) (u : UserId) (machine : Snapshot)
    (expiresAt : Option ℕ) :
    registry (db.createInventoryWithOwnedMachine u machine expiresAt)
      = ((registry db).setItem db.owned.nextId (some (u, .INVENTORY))).setSlot
          (nextPlace db .INVENTORY) (some (u, some db.owned.nextId)) := by
  rw [← registry_insertOwned db { userId := u, location := .INVENTORY, machine }]
  refine Registry.ext rfl (funext fun q => ?_)
  obtain ⟨_ | _ | _, id⟩ := q <;> by_cases hid : id = db.inventory.nextId <;>
    simp [registry, Registry.setSlot, nextPlace, child, Table.insert_row, hid,
      Db.createInventoryWithOwnedMachine]

theorem createInventoryWithOwnedMachine_consistent (h : Consistent db) (u : UserId)
    (machine : Snapshot) (expiresAt : Option ℕ) :
    Consistent (db.createInventoryWithOwnedMachine u machine expiresAt) := by
  have hfree : ∀ j, ¬(registry db).Holds (nextPlace db .INVENTORY) j := by
    rintro j ⟨v, hv⟩
    cases hv.symm.trans (child_nextPlace db .INVENTORY)
  show (registry _).Consistent Prod.fst
  rw [registry_createInventoryWithOwnedMachine]
  exact h.register u (item_nextId db) hfree

end Carrying

/-! ## Evictions -/

/-- The placement evicts the machine: it is in a target slot, or, if the
placement looks back, it is a large one in the slot before. -/
def evicts (u : UserId) (slotIndex slots : ℕ) (mover : Option ℕ) (looksBack : Bool) (id : ℕ)
    (m : UserMiner) : Bool :=
  Db.overlaps u slotIndex slots mover id m
    || (looksBack && Db.isPrevious u slotIndex mover id m && m.specs.slotSize = 2)

/-- No machine with an identity is evicted. -/
def EvictsAnonymous (db : Db) (u : UserId) (slotIndex slots : ℕ) (mover : Option ℕ)
    (looksBack : Bool) : Prop :=
  ∀ p ∈ db.userMiner.rows, evicts u slotIndex slots mover looksBack p.1 p.2 = true →
    p.2.ownedMachineId = none

instance (db : Db) (u slotIndex slots : ℕ) (mover : Option ℕ) (looksBack : Bool) :
    Decidable (EvictsAnonymous db u slotIndex slots mover looksBack) :=
  inferInstanceAs (Decidable (∀ p ∈ db.userMiner.rows, _))

/-- Machines have been evicted, and the registry is still consistent. -/
structure Evictions (db db₁ : Db) : Prop where
  consistent : Consistent db₁
  kept : ∀ {p x}, p.1 ≠ .RACK → child db p = some x → child db₁ p = some x
  sub : ∀ {i m}, db₁.userMiner.row i = some m → db.userMiner.row i = some m

section Evicting

variable {snapshot : Specs → Snapshot} {db db₁ db₂ : Db} {u : UserId}

theorem Evictions.trans (h : Evictions db db₁) (h' : Evictions db₁ db₂) : Evictions db db₂ :=
  ⟨h'.consistent, fun hp hx => h'.kept hp (h.kept hp hx), fun hm => h.sub (h'.sub hm)⟩

theorem Evictions.evict {m : ℕ × UserMiner} (h : Consistent db)
    (hanon : ∀ r, db.userMiner.row m.1 = some r → r.ownedMachineId = none) :
    Evictions db (db.evict snapshot u m) := by
  let released := db.releaseUserMinerFromRacks m.1
  let created := released.createInventoryWithOwnedMachine u (snapshot m.2.specs) none
  have hcreated : Consistent created := createInventoryWithOwnedMachine_consistent h u _ _
  have hempty : ∀ i, ¬(registry created).Holds (.RACK, m.1) i := by
    rintro i ⟨v, hv⟩
    obtain ⟨r, hr, heq⟩ := Option.map_eq_some_iff.mp hv
    have hnone := hanon r hr
    cases hnone.symm.trans (Prod.mk.inj heq).2
  refine ⟨?_, fun {p x} hp hx => ?_, fun {i r} hr => ?_⟩
  · exact deleteChild_consistent hcreated hempty
  · have hne : p ≠ (.RACK, m.1) := by
      rintro rfl
      exact hp rfl
    show child (created.deleteChild (.RACK, m.1)) p = some x
    rw [child_deleteChild, if_neg hne]
    have hnext : p ≠ nextPlace db .INVENTORY := by
      rintro rfl
      rw [child_nextPlace] at hx
      cases hx
    have hslot := congrArg (fun R => Registry.slot R p)
      (registry_createInventoryWithOwnedMachine released u (snapshot m.2.specs) none)
    refine hslot.trans ((Function.update_of_ne hnext _ _).trans hx)
  · have hr' : (db.userMiner.delete m.1).row i = some r := hr
    rw [Table.delete_row] at hr'
    split at hr'
    case isTrue => cases hr'
    case isFalse => exact hr'

theorem Evictions.evictAll (ms : List (ℕ × UserMiner)) (h : Consistent db)
    (hanon : ∀ m ∈ ms, ∀ r, db.userMiner.row m.1 = some r → r.ownedMachineId = none) :
    Evictions db (ms.foldl (fun db m => db.evict snapshot u m) db) := by
  induction ms generalizing db with
  | nil => exact ⟨h, fun _ hx => hx, fun hm => hm⟩
  | cons m ms ih =>
      have hfirst : Evictions db (db.evict snapshot u m) :=
        .evict h (hanon m (List.mem_cons_self ..))
      refine hfirst.trans (ih hfirst.consistent fun m' hm' r hr => ?_)
      exact hanon m' (List.mem_cons_of_mem m hm') r (hfirst.sub hr)

variable (snapshot)

theorem Evictions.evictOverlapping {slotIndex slots : ℕ} {mover : Option ℕ} {looksBack : Bool}
    (h : Consistent db) (hanon : EvictsAnonymous db u slotIndex slots mover looksBack) :
    Evictions db (db.evictOverlapping snapshot u slotIndex slots mover) := by
  refine .evictAll _ h fun m hm r hr => ?_
  obtain ⟨hrow, hover⟩ := Table.mem_findMany.mp hm
  obtain rfl := Option.some.inj (hrow.symm.trans hr)
  exact hanon m (Table.mem_rows.mpr hrow) (Bool.or_eq_true_iff.mpr (Or.inl hover))

/-- Both queries of a placement that looks back. -/
theorem Evictions.evictBoth {slotIndex slots : ℕ} {mover : Option ℕ} (h : Consistent db)
    (hanon : EvictsAnonymous db u slotIndex slots mover true) :
    Evictions db ((db.evictOverlapping snapshot u slotIndex slots mover).evictPrevious snapshot u
      slotIndex mover) := by
  have hover : Evictions db (db.evictOverlapping snapshot u slotIndex slots mover) :=
    .evictOverlapping snapshot h hanon
  rcases evictPrevious_cases (db.evictOverlapping snapshot u slotIndex slots mover) snapshot u
    slotIndex mover with ⟨heq, -⟩ | ⟨id, m, hm, hprev, hsize, heq⟩
  · rw [heq]
    exact hover
  · rw [heq]
    refine hover.trans (.evict hover.consistent fun r hr => ?_)
    obtain rfl := Option.some.inj (hm.symm.trans hr)
    refine hanon (id, m) (Table.mem_rows.mpr (hover.sub hm)) ?_
    simp [evicts, hprev, hsize]

end Evicting

end BlockMiner.Machines
