import Mathlib.Algebra.Order.Group.Multiset
import BlockMiner.MachineOwned

/-!
# Moved machines keep their attributes

What a machine is worth to its user are five attributes, and each move
copies them by hand from one table to another. `holdings` is the multiset of
them over the three tables, per user. A move replaces one of its members
(`carry_conserves`) and the machines it evicts keep theirs
(`evictOverlapping_sheds`), so a move conserves the holdings exactly when
the machine it carries keeps its attributes. Three columns get lost on the
way: racks and the warehouse have no `expiresAt`, a placement below the
rooms turns a slot size of 0 into 1, and the warehouse forgets a catalog id
that has no row. `KeepsAttributes` says of each operation that it meets none
of them.
-/

namespace BlockMiner.Machines

@[ext]
structure Attributes where
  minerId : Option ℕ
  level : ℕ
  hashRate : ℚ
  slotSize : ℕ
  expiry : Option ℕ
deriving DecidableEq

def Specs.attributes (s : Specs) (expiry : Option ℕ) : Attributes :=
  ⟨s.minerId, s.level, s.hashRate, s.slotSize, expiry⟩

/-- One machine of the user. -/
def owns (u : UserId) (a : Attributes) : UserId → Multiset Attributes := Pi.single u {a}

/-- The machines of each user across inventory, racks and warehouse. -/
def holdings (db : Db) : UserId → Multiset Attributes :=
  db.inventory.contents (fun r => owns r.userId (r.machine.attributes r.expiresAt))
    + db.userMiner.contents (fun m => owns m.userId (m.specs.attributes none))
    + db.vault.contents (fun r => owns r.userId (r.machine.attributes none))

theorem owns_injective (u : UserId) : Function.Injective (owns u) := by
  intro a b h
  have hu : ({a} : Multiset Attributes) = {b} := by
    rw [← Pi.single_eq_same (M := fun _ => Multiset Attributes) u {a},
      ← Pi.single_eq_same (M := fun _ => Multiset Attributes) u {b}]
    exact congrFun h u
  exact Multiset.singleton_inj.mp hu

/-- A child row's user and attributes. -/
def machineAt (db : Db) : Place → Option (UserId × Attributes)
  | (.INVENTORY, id) =>
      (db.inventory.row id).map fun r => (r.userId, r.machine.attributes r.expiresAt)
  | (.RACK, id) => (db.userMiner.row id).map fun m => (m.userId, m.specs.attributes none)
  | (.WAREHOUSE, id) => (db.vault.row id).map fun r => (r.userId, r.machine.attributes none)

/-! ## Holdings after each write -/

section Writes

variable {db db' : Db} {p : Place} {u : UserId} {a : Attributes}

theorem holdings_deleteChild (h : machineAt db p = some (u, a)) :
    holdings (db.deleteChild p) + owns u a = holdings db := by
  obtain ⟨location, id⟩ := p
  cases location with
  | INVENTORY =>
      obtain ⟨r, hr, heq⟩ := Option.map_eq_some_iff.mp h
      obtain ⟨rfl, rfl⟩ := Prod.mk.inj heq
      rw [holdings, holdings, ← Table.contents_delete hr]
      show _ + _ + _ + _ = _ + _ + _ + _
      ac_rfl
  | RACK =>
      obtain ⟨m, hm, heq⟩ := Option.map_eq_some_iff.mp h
      obtain ⟨rfl, rfl⟩ := Prod.mk.inj heq
      rw [holdings, holdings, ← Table.contents_delete hm]
      show _ + _ + _ + _ = _ + (_ + _) + _
      ac_rfl
  | WAREHOUSE =>
      obtain ⟨r, hr, heq⟩ := Option.map_eq_some_iff.mp h
      obtain ⟨rfl, rfl⟩ := Prod.mk.inj heq
      rw [holdings, holdings, ← Table.contents_delete hr]
      show _ + _ + _ + _ = _ + _ + (_ + _)
      ac_rfl

theorem holdings_setOwnedMachineId (db : Db) (om : ℕ) (p : Place) :
    holdings (db.setOwnedMachineId om p) = holdings db := by
  obtain ⟨location, id⟩ := p
  cases location with
  | INVENTORY => exact congrArg (· + _ + _) (Table.contents_modify_of_eq fun _ _ => rfl)
  | RACK => exact congrArg (_ + · + _) (Table.contents_modify_of_eq fun _ _ => rfl)
  | WAREHOUSE => exact congrArg (_ + _ + ·) (Table.contents_modify_of_eq fun _ _ => rfl)

/-- Only the identity of the row changes. -/
theorem machineAt_setOwnedMachineId (db : Db) (om : ℕ) (p q : Place) :
    machineAt (db.setOwnedMachineId om p) q = machineAt db q := by
  obtain ⟨_ | _ | _, id⟩ := p <;> obtain ⟨_ | _ | _, id'⟩ := q <;> try rfl
  all_goals
    simp only [machineAt, Db.setOwnedMachineId, Table.modify_row]
    split
    · rw [Option.map_map]
      rfl
    · rfl

theorem ensureOwnedMachine_keeps (db : Db) (p : Place) (v : UserId) (machine : Snapshot)
    (om : Option ℕ) :
    holdings (db.ensureOwnedMachine p v machine om).1 = holdings db
      ∧ ∀ q, machineAt (db.ensureOwnedMachine p v machine om).1 q = machineAt db q := by
  cases om with
  | some om => exact ⟨rfl, fun _ => rfl⟩
  | none =>
      refine ⟨holdings_setOwnedMachineId _ _ p, fun q => ?_⟩
      rw [Db.ensureOwnedMachine, machineAt_setOwnedMachineId]
      obtain ⟨_ | _ | _, id⟩ := q <;> rfl

/-- A row is added, and the old ones stay. -/
structure Adds (db : Db) (u : UserId) (a : Attributes) (db' : Db) : Prop where
  adds : holdings db' = holdings db + owns u a
  kept : ∀ {q x}, machineAt db q = some x → machineAt db' q = some x

theorem createInventory_adds {r : Inventory} (h : db.createInventory r = some db') :
    Adds db r.userId (r.machine.attributes r.expiresAt) db' := by
  obtain rfl := createInventory_eq_some h
  constructor
  case adds =>
    show (db.inventory.insert r).contents _ + _ + _ = _ + _ + _ + _
    rw [Table.contents_insert]
    ac_rfl
  case kept =>
    intro q x hx
    obtain ⟨_ | _ | _, id⟩ := q
    · obtain ⟨r', hr', rfl⟩ := Option.map_eq_some_iff.mp hx
      exact congrArg (Option.map _) (Table.insert_row_of_some hr' r)
    · exact hx
    · exact hx

theorem createUserMiner_adds {m : UserMiner} (h : db.createUserMiner m = some db') :
    Adds db m.userId (m.specs.attributes none) db' := by
  obtain ⟨rfl, -⟩ := createUserMiner_eq_some h
  constructor
  case adds =>
    show _ + (db.userMiner.insert m).contents _ + _ = _ + _ + _ + _
    rw [Table.contents_insert]
    ac_rfl
  case kept =>
    intro q x hx
    obtain ⟨_ | _ | _, id⟩ := q
    · exact hx
    · obtain ⟨m', hm', rfl⟩ := Option.map_eq_some_iff.mp hx
      exact congrArg (Option.map _) (Table.insert_row_of_some hm' m)
    · exact hx

theorem createVault_adds {r : Vault} (h : db.createVault r = some db') :
    Adds db r.userId (r.machine.attributes none) db' := by
  obtain rfl := createVault_eq_some h
  constructor
  case adds =>
    show _ + _ + (db.vault.insert r).contents _ = _ + _ + _ + _
    rw [Table.contents_insert]
    ac_rfl
  case kept =>
    intro q x hx
    obtain ⟨_ | _ | _, id⟩ := q
    · exact hx
    · exact hx
    · obtain ⟨r', hr', rfl⟩ := Option.map_eq_some_iff.mp hx
      exact congrArg (Option.map _) (Table.insert_row_of_some hr' r)

/-- The snapshot is no part of what a user holds. -/
theorem holdings_syncOwnedMachineSnapshot {om : ℕ} {location : MachineInstanceLocation}
    {machine : Snapshot} (h : db.syncOwnedMachineSnapshot om location machine = some db') :
    holdings db' = holdings db ∧ ∀ q, machineAt db' q = machineAt db q := by
  obtain rfl := syncOwnedMachineSnapshot_eq_some h
  refine ⟨rfl, fun q => ?_⟩
  obtain ⟨_ | _ | _, id⟩ := q <;> rfl

end Writes

/-! ## Carrying a machine over -/

section Carrying

variable {db db' : Db} {p : Place} {u : UserId} {a b : Attributes}

/-- The new row takes the place of the old one. -/
theorem carry_holdings {owned : Db × ℕ} {location : MachineInstanceLocation} {machine : Snapshot}
    {create : Db → ℕ → Option Db} (hp : machineAt owned.1 p = some (u, a))
    (hcreate : ∀ {d om d₁}, create d om = some d₁ → Adds d u b d₁)
    (hcarry : Db.carry owned p location machine create = some db') :
    holdings db' + owns u a = holdings owned.1 + owns u b := by
  obtain ⟨db₁, db₂, hdb₁, hsync, rfl⟩ := carry_ok hcarry
  have hadds := hcreate hdb₁
  obtain ⟨hsame, hat⟩ := holdings_syncOwnedMachineSnapshot hsync
  have hstill : machineAt db₂ p = some (u, a) := (hat p).trans (hadds.kept hp)
  rw [holdings_deleteChild hstill, hsame, hadds.adds]

/-- **What a move conserves.** The holdings, if and only if the machine is
written down with the attributes it had. -/
theorem carry_conserves {v : UserId} {snap machine : Snapshot} {om : Option ℕ}
    {location : MachineInstanceLocation} {create : Db → ℕ → Option Db} {db₀ : Db}
    (hbefore : holdings db = holdings db₀) (hp : machineAt db p = some (u, a))
    (hcreate : ∀ {d om d₁}, create d om = some d₁ → Adds d u b d₁)
    (hcarry : Db.carry (db.ensureOwnedMachine p v snap om) p location machine create = some db') :
    holdings db' = holdings db₀ ↔ a = b := by
  obtain ⟨hsame, hat⟩ := ensureOwnedMachine_keeps db p v snap om
  have hmoved := carry_holdings ((hat p).trans hp) hcreate hcarry
  rw [hsame, hbefore] at hmoved
  constructor
  · intro heq
    rw [heq] at hmoved
    exact owns_injective u (add_left_cancel hmoved)
  · rintro rfl
    exact add_right_cancel hmoved

end Carrying

/-! ## Evictions -/

section Evicting

variable {snapshot : Specs → Snapshot} {db : Db} {u : UserId}

/-- The snapshot shows the attributes as they are. -/
def ShowsAttributes (snapshot : Specs → Snapshot) : Prop :=
  ∀ s, (snapshot s).attributes none = s.attributes none

theorem rackSnapshot_shows (cfg : Config) : ShowsAttributes (rackSnapshot cfg) := fun _ => rfl

theorem moveSnapshot_shows (cfg : Config) : ShowsAttributes (moveSnapshot cfg) := fun _ => rfl

/-- Machines have been evicted: the holdings are the same, and so are the
rows in the inventory and the warehouse. -/
structure Sheds (db db₁ : Db) : Prop where
  holdings : holdings db₁ = holdings db
  kept : ∀ {q x}, q.1 ≠ .RACK → machineAt db q = some x → machineAt db₁ q = some x

theorem Sheds.trans {db₁ db₂ : Db} (h : Sheds db db₁) (h' : Sheds db₁ db₂) : Sheds db db₂ :=
  ⟨h'.holdings.trans h.holdings, fun hq hx => h'.kept hq (h.kept hq hx)⟩

theorem evict_row (db : Db) (u : UserId) (m : ℕ × UserMiner) (i : ℕ) :
    (db.evict snapshot u m).userMiner.row i = if i = m.1 then none else db.userMiner.row i := rfl

theorem evict_sheds (hshows : ShowsAttributes snapshot) {m : ℕ × UserMiner}
    (hm : db.userMiner.row m.1 = some m.2) (hu : m.2.userId = u) :
    Sheds db (db.evict snapshot u m) := by
  subst hu
  let created := (db.releaseUserMinerFromRacks m.1).createInventoryWithOwnedMachine m.2.userId
    (snapshot m.2.specs) none
  have hadds : Machines.holdings created
      = Machines.holdings db + owns m.2.userId (m.2.specs.attributes none) := by
    rw [← hshows m.2.specs]
    show (db.inventory.insert _).contents _ + _ + _ = _ + _ + _ + _
    rw [Table.contents_insert]
    ac_rfl
  have hat : machineAt created (.RACK, m.1)
      = some (m.2.userId, m.2.specs.attributes none) := congrArg (Option.map _) hm
  constructor
  case holdings =>
    have hdeleted := holdings_deleteChild hat
    rw [hadds] at hdeleted
    exact add_right_cancel hdeleted
  case kept =>
    intro q x hq hx
    obtain ⟨_ | _ | _, id⟩ := q
    · obtain ⟨r, hr, rfl⟩ := Option.map_eq_some_iff.mp hx
      exact congrArg (Option.map _) (Table.insert_row_of_some hr _)
    · exact absurd rfl hq
    · exact hx

/-- Different machines of the user, evicted one after the other. -/
theorem evictAll_sheds (hshows : ShowsAttributes snapshot) (ms : List (ℕ × UserMiner))
    (hnodup : (ms.map Prod.fst).Nodup)
    (hms : ∀ m ∈ ms, db.userMiner.row m.1 = some m.2 ∧ m.2.userId = u) :
    Sheds db (ms.foldl (fun db m => db.evict snapshot u m) db) := by
  induction ms generalizing db with
  | nil => exact ⟨rfl, fun _ hx => hx⟩
  | cons m ms ih =>
      obtain ⟨hnot, hnodup⟩ := List.nodup_cons.mp hnodup
      obtain ⟨hm, hu⟩ := hms m (List.mem_cons_self ..)
      refine (evict_sheds hshows hm hu).trans (ih hnodup fun m' hm' => ?_)
      obtain ⟨hrow, hu'⟩ := hms m' (List.mem_cons_of_mem m hm')
      have hne : m'.1 ≠ m.1 := by
        intro heq
        exact hnot (heq ▸ List.mem_map_of_mem hm')
      rw [evict_row, if_neg hne]
      exact ⟨hrow, hu'⟩

theorem evictOverlapping_sheds (hshows : ShowsAttributes snapshot) (db : Db)
    (u slotIndex slots : ℕ) (self : Option ℕ) :
    Sheds db (db.evictOverlapping snapshot u slotIndex slots self) := by
  refine evictAll_sheds hshows _ (Table.nodup_findMany ..) fun m hm => ?_
  obtain ⟨hrow, hover⟩ := Table.mem_findMany.mp hm
  exact ⟨hrow, (of_decide_eq_true hover).1⟩

theorem evictPrevious_sheds (hshows : ShowsAttributes snapshot) (db : Db) (u slotIndex : ℕ)
    (self : Option ℕ) : Sheds db (db.evictPrevious snapshot u slotIndex self) := by
  rcases evictPrevious_cases db snapshot u slotIndex self with
    ⟨heq, -⟩ | ⟨id, m, hm, hprev, -, heq⟩
  · rw [heq]
    exact ⟨rfl, fun _ hx => hx⟩
  · rw [heq]
    exact evict_sheds hshows hm (of_decide_eq_true hprev).2.1

theorem evictBoth_sheds (hshows : ShowsAttributes snapshot) (db : Db) (u slotIndex slots : ℕ)
    (self : Option ℕ) :
    Sheds db ((db.evictOverlapping snapshot u slotIndex slots self).evictPrevious snapshot u
      slotIndex self) :=
  (evictOverlapping_sheds hshows db u slotIndex slots self).trans
    (evictPrevious_sheds hshows _ u slotIndex self)

end Evicting

/-! ## The operations -/

/-- A catalog id that the warehouse keeps. -/
def Cataloged (cfg : Config) (minerId : Option ℕ) : Prop := ∀ id ∈ minerId, (cfg.miner id).isSome

instance (cfg : Config) (minerId : Option ℕ) : Decidable (Cataloged cfg minerId) :=
  inferInstanceAs (Decidable (∀ id ∈ minerId, _))

/-- No attribute is lost: a machine that leaves the inventory never expires,
one that is placed below the rooms has a slot size, and one that goes in or
out of the warehouse is in the catalog, if it has a catalog id. -/
def KeepsAttributes (cfg : Config) (db : Db) : Op → Prop
  | .installInventoryItem u _ inventoryId => ∀ item ∈ db.getInventoryItem u inventoryId,
      item.expiresAt = none ∧ item.machine.slotSize ≠ 0
  | .installMiner u _ inventoryId => ∀ item ∈ db.getInventoryItem u inventoryId,
      item.expiresAt = none
  | .moveToVaultFromInventory u itemId => ∀ item ∈ db.getInventoryItem u itemId,
      item.expiresAt = none ∧ Cataloged cfg item.machine.minerId
  | .moveToVaultFromRack u itemId => ∀ m ∈ db.getMachineById u itemId,
      Cataloged cfg m.specs.minerId
  | .retrieveFromVaultToInventory u vaultId => ∀ item ∈ db.getVaultItem u vaultId,
      Cataloged cfg item.machine.minerId
  | .retrieveFromVaultToRack u vaultId _ => ∀ item ∈ db.getVaultItem u vaultId,
      Cataloged cfg item.machine.minerId ∧ item.machine.slotSize ≠ 0
  | _ => True

instance (cfg : Config) (db : Db) : ∀ op, Decidable (KeepsAttributes cfg db op)
  | .installInventoryItem u _ inventoryId =>
      inferInstanceAs (Decidable (∀ item ∈ db.getInventoryItem u inventoryId, _))
  | .installMiner u _ inventoryId =>
      inferInstanceAs (Decidable (∀ item ∈ db.getInventoryItem u inventoryId, _))
  | .moveToVaultFromInventory u itemId =>
      inferInstanceAs (Decidable (∀ item ∈ db.getInventoryItem u itemId, _))
  | .moveToVaultFromRack u itemId =>
      inferInstanceAs (Decidable (∀ m ∈ db.getMachineById u itemId, _))
  | .retrieveFromVaultToInventory u vaultId =>
      inferInstanceAs (Decidable (∀ item ∈ db.getVaultItem u vaultId, _))
  | .retrieveFromVaultToRack u vaultId _ =>
      inferInstanceAs (Decidable (∀ item ∈ db.getVaultItem u vaultId, _))
  | .createInventoryWithOwnedMachine .. | .bulkCreateInventoryWithOwnedMachines ..
  | .removeInventoryItem .. | .removeMachine .. | .moveMachine .. | .buyRoom ..
  | .uninstallMiner .. | .cleanupExpiredInventory .. => inferInstanceAs (Decidable True)

theorem slotCount_eq_self {slotSize : ℕ} : slotSize = slotCount slotSize ↔ slotSize ≠ 0 := by
  unfold slotCount
  split
  case isTrue h => omega
  case isFalse h => simp [h]

theorem safeVaultMinerId_eq_self {cfg : Config} {minerId : Option ℕ} :
    minerId = safeVaultMinerId cfg minerId ↔ Cataloged cfg minerId := by
  cases minerId with
  | none => exact iff_of_true rfl nofun
  | some id =>
      rw [safeVaultMinerId, Option.filter_some]
      cases hrow : (cfg.miner id).isSome with
      | true => simp [Cataloged, hrow]
      | false => simp [Cataloged, hrow]

section Operations

variable {cfg : Config} {db db' : Db} {u : UserId}

theorem getInventoryItem_machineAt {id : ℕ} {item : Inventory}
    (h : db.getInventoryItem u id = some item) :
    machineAt db (.INVENTORY, id) = some (u, item.machine.attributes item.expiresAt) := by
  obtain ⟨hrow, rfl⟩ := getInventoryItem_eq_some h
  exact congrArg (Option.map _) hrow

theorem getMachineById_machineAt {id : ℕ} {m : UserMiner} (h : db.getMachineById u id = some m) :
    machineAt db (.RACK, id) = some (u, m.specs.attributes none) := by
  obtain ⟨hrow, rfl⟩ := getMachineById_eq_some h
  exact congrArg (Option.map _) hrow

theorem getVaultItem_machineAt {id : ℕ} {item : Vault} (h : db.getVaultItem u id = some item) :
    machineAt db (.WAREHOUSE, id) = some (u, item.machine.attributes none) := by
  obtain ⟨hrow, rfl⟩ := getVaultItem_eq_some h
  exact congrArg (Option.map _) hrow

theorem installInventoryItem_conserves {slotIndex inventoryId : ℕ}
    (h : db.installInventoryItem cfg u slotIndex inventoryId = .ok db') :
    holdings db' = holdings db ↔
      KeepsAttributes cfg db (.installInventoryItem u slotIndex inventoryId) := by
  obtain ⟨item, machine, imageUrl, -, hitem, hcarry⟩ := installInventoryItem_eq_ok h
  have hsheds := evictBoth_sheds (rackSnapshot_shows cfg) db u slotIndex
    (slotCount item.machine.slotSize) none
  rw [carry_conserves hsheds.holdings (hsheds.kept (by nofun) (getInventoryItem_machineAt hitem))
    (b := Specs.attributes { item.machine.toSpecs with
      slotSize := slotCount item.machine.slotSize } none) (fun h => createUserMiner_adds h) hcarry]
  simp [KeepsAttributes, hitem, Attributes.ext_iff, Specs.attributes, slotCount_eq_self, and_comm]

theorem removeMachine_conserves {machineId : ℕ} (h : db.removeMachine cfg u machineId = .ok db') :
    holdings db' = holdings db := by
  obtain ⟨m, hm, hcarry⟩ := removeMachine_eq_ok h
  let released := db.releaseUserMinerFromRacks machineId
  have hat : machineAt released (.RACK, machineId) = some (u, m.specs.attributes none) :=
    getMachineById_machineAt hm
  have hsame : holdings released = holdings db := rfl
  exact (carry_conserves hsame hat (b := m.specs.attributes none)
    (fun h => createInventory_adds h) hcarry).mpr rfl

/-- The moved machine changes its slot only. -/
theorem setSlotIndex_holdings {id slotIndex : ℕ} (h : db.setSlotIndex id slotIndex u = some db') :
    holdings db' = holdings db := by
  obtain ⟨rfl, -⟩ := setSlotIndex_eq_some h
  exact congrArg (_ + · + _) (Table.contents_modify_of_eq fun _ _ => rfl)

theorem moveMachine_conserves {machineId target : ℕ}
    (h : db.moveMachine cfg u machineId target = .ok db') : holdings db' = holdings db := by
  obtain ⟨m, -, -, hset⟩ := moveMachine_eq_ok h
  have hsheds := evictBoth_sheds (moveSnapshot_shows cfg) db u target m.specs.slotSize
    (some machineId)
  exact (setSlotIndex_holdings hset).trans hsheds.holdings

theorem moveToVaultFromInventory_conserves {itemId : ℕ}
    (h : db.moveToVaultFromInventory cfg u itemId = .ok db') :
    holdings db' = holdings db ↔ KeepsAttributes cfg db (.moveToVaultFromInventory u itemId) := by
  obtain ⟨item, hitem, hcarry⟩ := moveToVaultFromInventory_eq_ok h
  rw [carry_conserves rfl (getInventoryItem_machineAt hitem)
    (b := (vaultSnapshot cfg item.machine).attributes none) (fun h => createVault_adds h) hcarry]
  simp [KeepsAttributes, hitem, Attributes.ext_iff, Specs.attributes, vaultSnapshot,
    safeVaultMinerId_eq_self, and_comm]

theorem moveToVaultFromRack_conserves {itemId : ℕ}
    (h : db.moveToVaultFromRack cfg u itemId = .ok db') :
    holdings db' = holdings db ↔ KeepsAttributes cfg db (.moveToVaultFromRack u itemId) := by
  obtain ⟨m, hm, hcarry⟩ := moveToVaultFromRack_eq_ok h
  have hcreate {d : Db} {om : ℕ} {d₁ : Db}
      (hd₁ : (d.releaseUserMinerFromRacks itemId).createVault
        { userId := u, machine := vaultSnapshot cfg (rackSnapshot cfg m.specs)
          ownedMachineId := some om } = some d₁) :
      Adds d u ((vaultSnapshot cfg (rackSnapshot cfg m.specs)).attributes none) d₁ := by
    obtain ⟨hadds, hkept⟩ := createVault_adds hd₁
    exact ⟨hadds, hkept⟩
  rw [carry_conserves rfl (getMachineById_machineAt hm) hcreate hcarry]
  simp [KeepsAttributes, hm, Attributes.ext_iff, Specs.attributes, vaultSnapshot, rackSnapshot,
    safeVaultMinerId_eq_self]

theorem retrieveFromVaultToInventory_conserves {vaultId : ℕ}
    (h : db.retrieveFromVaultToInventory cfg u vaultId = .ok db') :
    holdings db' = holdings db ↔
      KeepsAttributes cfg db (.retrieveFromVaultToInventory u vaultId) := by
  obtain ⟨item, hitem, hcarry⟩ := retrieveFromVaultToInventory_eq_ok h
  rw [carry_conserves rfl (getVaultItem_machineAt hitem)
    (b := (vaultSnapshot cfg item.machine).attributes none) (fun h => createInventory_adds h)
    hcarry]
  simp [KeepsAttributes, hitem, Attributes.ext_iff, Specs.attributes, vaultSnapshot,
    safeVaultMinerId_eq_self]

theorem retrieveFromVaultToRack_conserves {vaultId slotIndex : ℕ}
    (h : db.retrieveFromVaultToRack cfg u vaultId slotIndex = .ok db') :
    holdings db' = holdings db ↔
      KeepsAttributes cfg db (.retrieveFromVaultToRack u vaultId slotIndex) := by
  obtain ⟨item, -, hitem, hcarry⟩ := retrieveFromVaultToRack_eq_ok h
  have hsheds := evictOverlapping_sheds (rackSnapshot_shows cfg) db u slotIndex
    (slotCount item.machine.slotSize) none
  rw [carry_conserves hsheds.holdings (hsheds.kept (by nofun) (getVaultItem_machineAt hitem))
    (b := Specs.attributes { (vaultSnapshot cfg item.machine).toSpecs with
      slotSize := slotCount item.machine.slotSize } none) (fun h => createUserMiner_adds h) hcarry]
  simp [KeepsAttributes, hitem, Attributes.ext_iff, Specs.attributes, vaultSnapshot,
    safeVaultMinerId_eq_self, slotCount_eq_self]

theorem installMiner_conserves {rackId inventoryId : ℕ}
    (h : db.installMiner cfg u rackId inventoryId = .ok db') :
    holdings db' = holdings db ↔ KeepsAttributes cfg db (.installMiner u rackId inventoryId) := by
  obtain ⟨rack, room, item, blocks, -, hitem, -, hinstall⟩ := installMiner_eq_ok h
  have hcreate {d : Db} {om : ℕ} {d₁ d₂ : Db} {t : Table UserRack}
      (hd₁ : d.createUserMiner
        { userId := u, slotIndex := rackSlotIndex cfg room.roomNumber rack.position
          specs := item.machine.toSpecs, ownedMachineId := some om } = some d₁)
      (hd₂ : { d₁ with rack := t } = d₂) : Adds d u (item.machine.attributes none) d₂ := by
    subst hd₂
    obtain ⟨hadds, hkept⟩ := createUserMiner_adds hd₁
    exact ⟨hadds, hkept⟩
  rw [carry_conserves rfl (getInventoryItem_machineAt hitem)
    (b := item.machine.attributes none) (fun hd₂ => by
      obtain ⟨d₁, hd₁, heq⟩ := Option.map_eq_some_iff.mp hd₂
      exact hcreate hd₁ heq) hinstall]
  simp [KeepsAttributes, hitem, Attributes.ext_iff, Specs.attributes]

/-- The machine is of the user because the rack is. -/
theorem uninstallMiner_conserves {rackId : ℕ} (hracks : RacksOwn (floor db))
    (h : db.uninstallMiner cfg u rackId = .ok db') : holdings db' = holdings db := by
  obtain ⟨rack, id, m, minerName, imageUrl, hrack, hu, hheld, hm, hcarry⟩ :=
    uninstallMiner_eq_ok h
  obtain ⟨s, hs, hsu⟩ := hracks _ _ _ hrack hheld
  obtain rfl := Option.some.inj ((floor_spot hm).symm.trans hs)
  obtain rfl : m.userId = u := hsu.trans hu
  let emptied := db.emptyRack rackId rack.roomId id
  have hat : machineAt emptied (.RACK, id) = some (m.userId, m.specs.attributes none) :=
    congrArg (Option.map _) hm
  have hsame : holdings emptied = holdings db := rfl
  exact (carry_conserves hsame hat (b := m.specs.attributes none)
    (fun h => createInventory_adds h) hcarry).mpr rfl

end Operations

/-! ## Sequences of operations -/

/-- The operations that move a machine. -/
def Op.moves : Op → Bool
  | .installInventoryItem .. | .removeMachine .. | .moveMachine .. | .moveToVaultFromInventory ..
  | .moveToVaultFromRack .. | .retrieveFromVaultToInventory .. | .retrieveFromVaultToRack ..
  | .installMiner .. | .uninstallMiner .. => true
  | .createInventoryWithOwnedMachine .. | .bulkCreateInventoryWithOwnedMachines ..
  | .removeInventoryItem .. | .buyRoom .. | .cleanupExpiredInventory .. => false

/-- The tables after an operation, accepted or refused. -/
def outcome (cfg : Config) (db : Db) (op : Op) : Db := (exec cfg db op).toOption.getD db

/-- One operation after the other, whatever becomes of each. -/
def attempts (cfg : Config) : System Db Op := ⟨fun db op => some (outcome cfg db op)⟩

/-- If the operation moves a machine, every user has the same machines as before. -/
def Conserves (cfg : Config) (db : Db) (op : Op) : Prop :=
  op.moves = true → ∀ u, holdings (outcome cfg db op) u = holdings db u

theorem outcome_of_ok {cfg : Config} {db db' : Db} {op : Op} (h : exec cfg db op = .ok db') :
    outcome cfg db op = db' := by
  rw [outcome, h]
  rfl

theorem outcome_of_refused {cfg : Config} {db : Db} {op : Op}
    (h : (exec cfg db op).isOk = false) : outcome cfg db op = db := by
  unfold outcome
  cases hexec : exec cfg db op with
  | error e => rfl
  | ok db' =>
      rw [hexec] at h
      cases h

/-- **Step lemma.** -/
theorem exec_conserves {cfg : Config} {db db' : Db} {op : Op} (hracks : RacksOwn (floor db))
    (hmoves : op.moves = true) (h : exec cfg db op = .ok db') :
    holdings db' = holdings db ↔ KeepsAttributes cfg db op := by
  cases op with
  | createInventoryWithOwnedMachine => cases hmoves
  | bulkCreateInventoryWithOwnedMachines => cases hmoves
  | removeInventoryItem => cases hmoves
  | buyRoom => cases hmoves
  | cleanupExpiredInventory => cases hmoves
  | installInventoryItem => exact installInventoryItem_conserves h
  | removeMachine => exact iff_of_true (removeMachine_conserves h) trivial
  | moveMachine => exact iff_of_true (moveMachine_conserves h) trivial
  | moveToVaultFromInventory => exact moveToVaultFromInventory_conserves h
  | moveToVaultFromRack => exact moveToVaultFromRack_conserves h
  | retrieveFromVaultToInventory => exact retrieveFromVaultToInventory_conserves h
  | retrieveFromVaultToRack => exact retrieveFromVaultToRack_conserves h
  | installMiner => exact installMiner_conserves h
  | uninstallMiner => exact iff_of_true (uninstallMiner_conserves hracks h) trivial

/-- A refused operation conserves everything. -/
theorem conserves_iff {cfg : Config} {db : Db} {op : Op} (hracks : RacksOwn (floor db)) :
    Conserves cfg db op ↔ ((exec cfg db op).isOk = true → KeepsAttributes cfg db op) := by
  cases hexec : exec cfg db op with
  | error e =>
      have hsame : outcome cfg db op = db := outcome_of_refused (by rw [hexec]; rfl)
      exact iff_of_true (fun _ u => by rw [hsame]) nofun
  | ok db' =>
      rw [Conserves, outcome_of_ok hexec, ← funext_iff]
      cases hmoves : op.moves with
      | true => simp [exec_conserves hracks hmoves hexec, Except.isOk, Except.toBool]
      | false =>
          refine iff_of_true nofun fun _ => ?_
          cases op <;> trivial

theorem racksOwn_outcome {cfg : Config} {db : Db} {op : Op} (h : RacksOwn (floor db)) :
    RacksOwn (floor (outcome cfg db op)) := by
  cases hexec : exec cfg db op with
  | error e => rwa [outcome_of_refused (by rw [hexec]; rfl)]
  | ok db' =>
      rw [outcome_of_ok hexec]
      exact h.step (exec_effect hexec)

/-- **Moved machines are conserved.** In a sequence of operations, refused
ones included, every move leaves every user the machines they had, with
their attributes, if and only if every move that is accepted keeps the
attributes of the machine it carries. -/
theorem machines_conserved {cfg : Config} {db : Db} {ops : List Op} (h : RacksOwn (floor db)) :
    (attempts cfg).Meets (Conserves cfg) db ops ↔
      (attempts cfg).Meets (fun db op => (exec cfg db op).isOk = true → KeepsAttributes cfg db op)
        db ops := by
  refine (attempts cfg).meets_iff (C := fun _ _ => True) (I := fun db => RacksOwn (floor db))
    (fun db op db' hdb _ hs => ?_) (fun db op hdb _ => conserves_iff hdb) h
    ((attempts cfg).meets_of_forall (fun _ _ => trivial) db ops)
  obtain rfl := Option.some.inj hs
  exact racksOwn_outcome hdb

/-- A machine moved around, and two refused moves. -/
def movedAndRefused : List Op := movedAround ++ [.removeMachine 1 1, .moveToVaultFromInventory 2 3]

theorem machines_conserved_movedAround :
    (attempts defaults).Meets (Conserves defaults) .empty movedAndRefused :=
  (machines_conserved racksOwn_empty).mpr (by decide +kernel)

/-- A machine that expires is created and installed: the rack does not know
when it expires. -/
theorem install_drops_expiry :
    ¬ ∀ (cfg : Config) (db : Db) (ops : List Op), RacksOwn (floor db) →
        (attempts cfg).Meets (Conserves cfg) db ops := by
  intro h
  let create := Op.createInventoryWithOwnedMachine 1 (customMachine 1) (some 5)
  have hcreated : RacksOwn (floor (outcome defaults .empty create)) :=
    racksOwn_outcome racksOwn_empty
  have hrun := h defaults (outcome defaults .empty create) [.installInventoryItem 1 0 1] hcreated
  have hkeeps := (conserves_iff hcreated).mp hrun.1 (by decide +kernel)
  exact absurd hkeeps (by decide +kernel)

end BlockMiner.Machines
