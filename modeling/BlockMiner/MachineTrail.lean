import BlockMiner.MachineRegistry
import BlockMiner.MachineSteps

/-!
# Where a machine comes from

The operations move a machine by creating a row in its new place and deleting
the old one, and a machine in the way is created anew in the inventory. Its
`origin` goes with it: `Trail.exec` runs an operation and keeps, for every child
row, what the machine in it stems from. From an origin that is in one place at
most no operation makes two, and one only comes into a rack when its machine
is placed there (`Follows`).
-/

namespace BlockMiner.Machines

/-- The tables, and what the machines in them stem from. -/
structure Trail where
  db : Db
  origin : Place → Option ℕ

namespace Trail

/-- The new row for a machine that is evicted has its origin. -/
def evict (snapshot : Specs → Snapshot) (u : UserId) (t : Trail) (m : ℕ × UserMiner) : Trail where
  db := t.db.evict snapshot u m
  origin := Function.update t.origin (nextPlace t.db .INVENTORY) (t.origin (.RACK, m.1))

section Evicting

variable (snapshot : Specs → Snapshot) (u slotIndex : ℕ) (self : Option ℕ) (t : Trail)

def evictOverlapping (slots : ℕ) : Trail :=
  (t.db.userMiner.findMany (Db.overlaps u slotIndex slots self)).foldl (evict snapshot u) t

def evictPrevious : Trail :=
  match t.db.userMiner.findFirst (Db.isPrevious u slotIndex self) with
  | none => t
  | some m => if m.2.specs.slotSize = 2 then t.evict snapshot u m else t

end Evicting

/-- An operation's evictions. -/
def cleared (cfg : Config) (t : Trail) : Op → Trail
  | .installInventoryItem u slotIndex inventoryId =>
      match t.db.getInventoryItem u inventoryId with
      | none => t
      | some item =>
          (t.evictOverlapping (rackSnapshot cfg) u slotIndex none
            (slotCount item.machine.slotSize)).evictPrevious (rackSnapshot cfg) u slotIndex none
  | .moveMachine u machineId target =>
      match t.db.getMachineById u machineId with
      | none => t
      | some m =>
          (t.evictOverlapping (moveSnapshot cfg) u target (some machineId)
            m.specs.slotSize).evictPrevious (moveSnapshot cfg) u target (some machineId)
  | .retrieveFromVaultToRack u vaultId slotIndex =>
      match t.db.getVaultItem u vaultId with
      | none => t
      | some item =>
          t.evictOverlapping (rackSnapshot cfg) u slotIndex none (slotCount item.machine.slotSize)
  | _ => t

end Trail

/-- The row that an operation carries over, and to which table. -/
def carried (db : Db) : Op → Option (Place × MachineInstanceLocation)
  | .installInventoryItem _ _ inventoryId | .installMiner _ _ inventoryId =>
      some ((.INVENTORY, inventoryId), .RACK)
  | .removeMachine _ machineId => some ((.RACK, machineId), .INVENTORY)
  | .moveToVaultFromInventory _ itemId => some ((.INVENTORY, itemId), .WAREHOUSE)
  | .moveToVaultFromRack _ itemId => some ((.RACK, itemId), .WAREHOUSE)
  | .retrieveFromVaultToInventory _ vaultId => some ((.WAREHOUSE, vaultId), .INVENTORY)
  | .retrieveFromVaultToRack _ vaultId _ => some ((.WAREHOUSE, vaultId), .RACK)
  | .uninstallMiner _ rackId =>
      ((db.rack.row rackId).bind (·.userMinerId)).map fun id => ((.RACK, id), .INVENTORY)
  | _ => none

/-- The row that an operation carries into a rack. -/
def racked (db : Db) (op : Op) : Option Place :=
  ((carried db op).filter (·.2 = .RACK)).map (·.1)

namespace Trail

/-- What the rows that an operation leaves stem from. -/
def after (cfg : Config) (t : Trail) (op : Op) (db : Db) : Trail where
  db := db
  origin :=
    let cleared := t.cleared cfg op
    match carried t.db op with
    | none => cleared.origin
    | some (p, location) =>
        Function.update cleared.origin (nextPlace cleared.db location) (cleared.origin p)

def exec (cfg : Config) (t : Trail) (op : Op) : Except Refusal Trail :=
  (Machines.exec cfg t.db op).map (t.after cfg op)

end Trail

/-! ## Rows that are there -/

def Live (db : Db) (p : Place) : Prop := (child db p).isSome = true

theorem not_live_nextPlace (db : Db) (location : MachineInstanceLocation) :
    ¬Live db (nextPlace db location) := by
  simp [Live, child_nextPlace]

/-- The same rows are there, and the sequences are as far. -/
structure SameRows (db db' : Db) : Prop where
  live : ∀ p, Live db' p ↔ Live db p
  next : ∀ location, nextPlace db' location = nextPlace db location

/-- One row more, in its table. -/
structure AddsRow (db : Db) (location : MachineInstanceLocation) (db' : Db) : Prop where
  live : ∀ p, Live db' p → Live db p ∨ p = nextPlace db location
  next : ∀ l, (nextPlace db' l).2 = (nextPlace db l).2 + if l = location then 1 else 0

section Rows

variable {db db' : Db}

theorem SameRows.of_tables (hinventory : db'.inventory = db.inventory)
    (hminer : db'.userMiner = db.userMiner) (hvault : db'.vault = db.vault) : SameRows db db' where
  live p := by
    obtain ⟨_ | _ | _, id⟩ := p <;> simp [Live, child, hinventory, hminer, hvault]
  next location := by
    cases location <;> simp [nextPlace, hinventory, hminer, hvault]

theorem SameRows.trans {db'' : Db} (h : SameRows db db') (h' : SameRows db' db'') :
    SameRows db db'' where
  live p := (h'.live p).trans (h.live p)
  next location := (h'.next location).trans (h.next location)

theorem AddsRow.of_same {location : MachineInstanceLocation} {d : Db} (h : SameRows db d)
    (hadds : AddsRow d location db') : AddsRow db location db' where
  live p hp := (hadds.live p hp).imp (h.live p).mp fun heq => heq.trans (h.next location)
  next l := by rw [hadds.next, h.next]

theorem AddsRow.same {location : MachineInstanceLocation} {d : Db} (hadds : AddsRow db location d)
    (h : SameRows d db') : AddsRow db location db' where
  live p hp := hadds.live p ((h.live p).mp hp)
  next l := by rw [h.next, hadds.next]

theorem setOwnedMachineId_same (db : Db) (om : ℕ) (p : Place) :
    SameRows db (db.setOwnedMachineId om p) where
  live q := by
    obtain ⟨_ | _ | _, id⟩ := p <;> obtain ⟨_ | _ | _, id'⟩ := q <;>
      by_cases hid : id' = id <;>
        simp [Live, child, Db.setOwnedMachineId, Table.modify_row, hid]
  next location := by
    obtain ⟨_ | _ | _, id⟩ := p <;> cases location <;> rfl

theorem ensureOwnedMachine_same (db : Db) (p : Place) (u : UserId) (machine : Snapshot)
    (om : Option ℕ) : SameRows db (db.ensureOwnedMachine p u machine om).1 := by
  cases om with
  | some om => exact ⟨fun _ => Iff.rfl, fun _ => rfl⟩
  | none =>
      let registered : Db :=
        { db with owned := db.owned.insert { userId := u, location := p.1, machine } }
      have hsame : SameRows db registered := .of_tables rfl rfl rfl
      exact hsame.trans (setOwnedMachineId_same registered db.owned.nextId p)

theorem AddsRow.createInventory {r : Inventory} (h : db.createInventory r = some db') :
    AddsRow db .INVENTORY db' := by
  rw [createInventory_eq_some h]
  constructor
  · intro p hp
    obtain ⟨_ | _ | _, id⟩ := p <;> by_cases hid : id = db.inventory.nextId <;>
      simp_all [Live, child, nextPlace, Table.insert_row]
  · intro l
    cases l <;> rfl

theorem AddsRow.createUserMiner {m : UserMiner} (h : db.createUserMiner m = some db') :
    AddsRow db .RACK db' := by
  rw [(createUserMiner_eq_some h).1]
  constructor
  · intro p hp
    obtain ⟨_ | _ | _, id⟩ := p <;> by_cases hid : id = db.userMiner.nextId <;>
      simp_all [Live, child, nextPlace, Table.insert_row]
  · intro l
    cases l <;> rfl

theorem AddsRow.createVault {r : Vault} (h : db.createVault r = some db') :
    AddsRow db .WAREHOUSE db' := by
  rw [createVault_eq_some h]
  constructor
  · intro p hp
    obtain ⟨_ | _ | _, id⟩ := p <;> by_cases hid : id = db.vault.nextId <;>
      simp_all [Live, child, nextPlace, Table.insert_row]
  · intro l
    cases l <;> rfl

theorem nextPlace_deleteChild (db : Db) (p : Place) (location : MachineInstanceLocation) :
    nextPlace (db.deleteChild p) location = nextPlace db location := by
  obtain ⟨_ | _ | _, id⟩ := p <;> cases location <;> rfl

theorem live_deleteChild {p q : Place} : Live (db.deleteChild p) q ↔ q ≠ p ∧ Live db q := by
  unfold Live
  rw [child_deleteChild]
  by_cases hq : q = p <;> simp [hq]

end Rows

/-! ## Following the origins -/

namespace Trail

/-- Origins are of rows that have been there, and each is in one place at most. -/
structure Sound (t : Trail) : Prop where
  used : ∀ p c, t.origin p = some c → p.2 < (nextPlace t.db p.1).2
  once : ∀ p q c, Live t.db p → Live t.db q → t.origin p = some c → t.origin q = some c → p = q

/-- A row that is given an origin of its own. -/
theorem Sound.label {t : Trail} (h : t.Sound) {q : Place} {c : ℕ}
    (hq : q.2 < (nextPlace t.db q.1).2) (hnew : ∀ p, t.origin p ≠ some c) :
    Sound ⟨t.db, Function.update t.origin q (some c)⟩ where
  used p d hp := by
    rcases eq_or_ne p q with rfl | hne
    · exact hq
    · exact h.used p d ((Function.update_of_ne hne _ _).symm.trans hp)
  once p r d hp hr hpd hrd := by
    simp only [Function.update_apply] at hpd hrd
    split at hpd <;> split at hrd
    case isTrue.isTrue hpq hrq => exact hpq.trans hrq.symm
    case isTrue.isFalse =>
      obtain rfl := Option.some.inj hpd
      exact absurd hrd (hnew r)
    case isFalse.isTrue =>
      obtain rfl := Option.some.inj hrd
      exact absurd hpd (hnew p)
    case isFalse.isFalse => exact h.once p r d hp hr hpd hrd

/-- What an operation does to the origins; `racked` is the row that it carries into a
rack, if it does. -/
structure Follows (t t' : Trail) (racked : Option Place) : Prop where
  sound : t'.Sound
  stems : ∀ p c, t'.origin p = some c → ∃ q, t.origin q = some c
  racks : ∀ id c, Live t'.db (.RACK, id) → t'.origin (.RACK, id) = some c →
    (Live t.db (.RACK, id) ∧ t.origin (.RACK, id) = some c)
      ∨ ∃ p ∈ racked, t.origin p = some c

section Following

variable {t t' : Trail}

theorem Follows.refl (h : t.Sound) : t.Follows t none :=
  ⟨h, fun p _ hp => ⟨p, hp⟩, fun _ _ hlive hc => Or.inl ⟨hlive, hc⟩⟩

theorem Follows.trans {t'' : Trail} {racked : Option Place} (h : t.Follows t' none)
    (h' : t'.Follows t'' racked)
    (hsame : ∀ p ∈ racked, t'.origin p = t.origin p) : t.Follows t'' racked where
  sound := h'.sound
  stems p c hp := by
    obtain ⟨q, hq⟩ := h'.stems p c hp
    exact h.stems q c hq
  racks id c hlive hc := by
    rcases h'.racks id c hlive hc with ⟨hold, horigin⟩ | ⟨p, hp, horigin⟩
    · rcases h.racks id c hold horigin with hfirst | ⟨p, hp, -⟩
      · exact Or.inl hfirst
      · cases hp
    · exact Or.inr ⟨p, hp, hsame p hp ▸ horigin⟩

/-- The rows that are there are old, or new without an origin. -/
theorem Follows.keep (h : t.Sound) {db' : Db}
    (hlive : ∀ p, Live db' p → Live t.db p ∨ (nextPlace t.db p.1).2 ≤ p.2)
    (hnext : ∀ location, (nextPlace t.db location).2 ≤ (nextPlace db' location).2) :
    t.Follows ⟨db', t.origin⟩ none := by
  have hold : ∀ p c, Live db' p → t.origin p = some c → Live t.db p := by
    intro p c hp hc
    rcases hlive p hp with hold | hnew
    · exact hold
    · have hused := h.used p c hc
      omega
  refine ⟨⟨fun p c hp => (h.used p c hp).trans_le (hnext p.1), ?_⟩, fun p _ hp => ⟨p, hp⟩, ?_⟩
  · intro p q c hp hq hpc hqc
    exact h.once p q c (hold p c hp hpc) (hold q c hq hqc) hpc hqc
  · intro id c hp hc
    exact Or.inl ⟨hold _ c hp hc, hc⟩

/-- A row is created for the machine of `p`, which is deleted. -/
theorem Follows.move (h : t.Sound) {db' : Db} {p : Place} {location : MachineInstanceLocation}
    (hp : Live t.db p)
    (hlive : ∀ q, Live db' q → (q ≠ p ∧ Live t.db q) ∨ q = nextPlace t.db location)
    (hnext : ∀ l, (nextPlace db' l).2
      = (nextPlace t.db l).2 + if l = location then 1 else 0) :
    t.Follows ⟨db', Function.update t.origin (nextPlace t.db location) (t.origin p)⟩
      (if location = .RACK then some p else none) := by
  have hkind : (nextPlace t.db location).1 = location := by cases location <;> rfl
  have hnew : ∀ q c, Function.update t.origin (nextPlace t.db location) (t.origin p) q = some c →
      (q = nextPlace t.db location ∧ t.origin p = some c)
        ∨ (q ≠ nextPlace t.db location ∧ t.origin q = some c) := by
    intro q c hq
    rw [Function.update_apply] at hq
    split at hq
    case isTrue heq => exact Or.inl ⟨heq, hq⟩
    case isFalse hne => exact Or.inr ⟨hne, hq⟩
  have hold : ∀ q, Live db' q → q ≠ nextPlace t.db location → q ≠ p ∧ Live t.db q :=
    fun q hq hne => (hlive q hq).resolve_right hne
  refine ⟨⟨?_, ?_⟩, ?_, ?_⟩
  · intro q c hq
    rw [hnext]
    rcases hnew q c hq with ⟨rfl, -⟩ | ⟨-, hc⟩
    · rw [hkind, if_pos rfl]
      omega
    · have := h.used q c hc
      omega
  · intro q r c hq hr hqc hrc
    rcases hnew q c hqc with ⟨rfl, hpc⟩ | ⟨hqne, hqc⟩ <;>
      rcases hnew r c hrc with ⟨rfl, hpc'⟩ | ⟨hrne, hrc⟩
    · rfl
    · obtain ⟨hne, hr⟩ := hold r hr hrne
      exact absurd (h.once r p c hr hp hrc hpc) hne
    · obtain ⟨hne, hq⟩ := hold q hq hqne
      exact absurd (h.once q p c hq hp hqc hpc') hne
    · exact h.once q r c (hold q hq hqne).2 (hold r hr hrne).2 hqc hrc
  · intro q c hq
    rcases hnew q c hq with ⟨-, hpc⟩ | ⟨-, hqc⟩
    · exact ⟨p, hpc⟩
    · exact ⟨q, hqc⟩
  · intro id c hlive' hc
    rcases hnew _ c hc with ⟨heq, hpc⟩ | ⟨hne, hqc⟩
    · have hrack : location = .RACK := by rw [← hkind, ← heq]
      exact Or.inr ⟨p, by simp [hrack], hpc⟩
    · exact Or.inl ⟨(hold _ hlive' hne).2, hqc⟩

/-- The end of the transactions. -/
theorem Follows.carry (h : t.Sound) {owned : Db × ℕ} {db' : Db} {p : Place}
    {location : MachineInstanceLocation} {machine : Snapshot} {create : Db → ℕ → Option Db}
    (hsame : SameRows t.db owned.1) (hp : Live t.db p)
    (hcreate : ∀ {d om d₁}, create d om = some d₁ → AddsRow d location d₁)
    (hcarry : Db.carry owned p location machine create = some db') :
    t.Follows ⟨db', Function.update t.origin (nextPlace t.db location) (t.origin p)⟩
      (if location = .RACK then some p else none) := by
  obtain ⟨db₁, db₂, hdb₁, hsync, rfl⟩ := carry_ok hcarry
  have hsynced : SameRows db₁ db₂ := by
    rw [syncOwnedMachineSnapshot_eq_some hsync]
    exact .of_tables rfl rfl rfl
  have hadds : AddsRow t.db location db₂ := .of_same hsame ((hcreate hdb₁).same hsynced)
  refine Follows.move h hp (fun q hq => ?_) fun l => ?_
  · obtain ⟨hne, hq⟩ := live_deleteChild.mp hq
    exact (hadds.live q hq).imp_left fun hold => ⟨hne, hold⟩
  · rw [nextPlace_deleteChild, hadds.next]

/-- An eviction is a move to the inventory. -/
theorem Follows.evict (h : t.Sound) (snapshot : Specs → Snapshot) (u : UserId)
    {m : ℕ × UserMiner} (hm : Live t.db (.RACK, m.1)) :
    t.Follows (t.evict snapshot u m) none := by
  change t.Follows ⟨t.db.evict snapshot u m,
      Function.update t.origin (nextPlace t.db .INVENTORY) (t.origin (.RACK, m.1))⟩
    (if MachineInstanceLocation.INVENTORY = .RACK then some (.RACK, m.1) else none)
  refine Follows.move h hm (fun q hq => ?_) fun l => ?_
  · obtain ⟨hne, hq⟩ := live_deleteChild.mp hq
    obtain ⟨_ | _ | _, id⟩ := q <;> by_cases hid : id = t.db.inventory.nextId <;>
      simp_all [Live, child, nextPlace, Table.insert_row, Db.createInventoryWithOwnedMachine,
        Db.releaseUserMinerFromRacks]
  · cases l <;> rfl

/-- What evictions do: the rows outside the racks stay. -/
structure Clears (t t' : Trail) : Prop where
  follows : t.Follows t' none
  kept : ∀ p, p.1 ≠ .RACK → Live t.db p → Live t'.db p ∧ t'.origin p = t.origin p

theorem Clears.refl (h : t.Sound) : t.Clears t := ⟨.refl h, fun _ _ hp => ⟨hp, rfl⟩⟩

theorem Clears.trans {t'' : Trail} (h : t.Clears t') (h' : t'.Clears t'') : t.Clears t'' where
  follows := h.follows.trans h'.follows fun p hp => by cases hp
  kept p hkind hp := by
    obtain ⟨hlive, horigin⟩ := h.kept p hkind hp
    obtain ⟨hlive', horigin'⟩ := h'.kept p hkind hlive
    exact ⟨hlive', horigin'.trans horigin⟩

theorem live_evict {snapshot : Specs → Snapshot} {u : UserId} {m : ℕ × UserMiner} {p : Place}
    (hne : p ≠ (.RACK, m.1)) (hp : Live t.db p) : Live (t.evict snapshot u m).db p := by
  refine live_deleteChild.mpr ⟨hne, ?_⟩
  have hnext : p ≠ nextPlace t.db .INVENTORY := by
    rintro rfl
    exact not_live_nextPlace _ _ hp
  obtain ⟨_ | _ | _, id⟩ := p <;>
    simp_all [Live, child, nextPlace, Table.insert_row, Db.createInventoryWithOwnedMachine,
      Db.releaseUserMinerFromRacks]

theorem Clears.evict (h : t.Sound) (snapshot : Specs → Snapshot) (u : UserId)
    {m : ℕ × UserMiner} (hm : Live t.db (.RACK, m.1)) : t.Clears (t.evict snapshot u m) where
  follows := .evict h snapshot u hm
  kept p hkind hp := by
    refine ⟨live_evict (fun heq => hkind (congrArg Prod.fst heq)) hp, ?_⟩
    refine Function.update_of_ne ?_ _ _
    rintro rfl
    exact not_live_nextPlace _ _ hp

theorem Clears.evictAll (snapshot : Specs → Snapshot) (u : UserId) {ms : List (ℕ × UserMiner)}
    (h : t.Sound) (hnodup : (ms.map Prod.fst).Nodup) (hms : ∀ m ∈ ms, Live t.db (.RACK, m.1)) :
    t.Clears (ms.foldl (Trail.evict snapshot u) t) := by
  induction ms generalizing t with
  | nil => exact .refl h
  | cons m ms ih =>
      rw [List.map_cons, List.nodup_cons] at hnodup
      have hfirst : t.Clears (t.evict snapshot u m) :=
        .evict h snapshot u (hms m List.mem_cons_self)
      refine hfirst.trans (ih hfirst.follows.sound hnodup.2 fun m' hm' => ?_)
      refine live_evict ?_ (hms m' (List.mem_cons_of_mem m hm'))
      intro heq
      exact hnodup.1 (List.mem_map.mpr ⟨m', hm', congrArg Prod.snd heq⟩)

theorem live_userMiner {db : Db} {id : ℕ} {m : UserMiner} (h : db.userMiner.row id = some m) :
    Live db (.RACK, id) := by
  simp [Live, child, h]

theorem Clears.evictOverlapping (h : t.Sound) (snapshot : Specs → Snapshot) (u slotIndex : ℕ)
    (self : Option ℕ) (slots : ℕ) :
    t.Clears (t.evictOverlapping snapshot u slotIndex self slots) :=
  .evictAll snapshot u h (Table.nodup_findMany ..) fun _ hm =>
    live_userMiner (Table.mem_findMany.mp hm).1

theorem Clears.evictPrevious (h : t.Sound) (snapshot : Specs → Snapshot) (u slotIndex : ℕ)
    (self : Option ℕ) : t.Clears (t.evictPrevious snapshot u slotIndex self) := by
  unfold Trail.evictPrevious
  split
  case h_1 => exact .refl h
  case h_2 m hm =>
    split
    case isTrue => exact .evict h snapshot u (live_userMiner (Table.findFirst_eq_some hm).1)
    case isFalse => exact .refl h

theorem Clears.evictBoth (h : t.Sound) (snapshot : Specs → Snapshot) (u slotIndex : ℕ)
    (self : Option ℕ) (slots : ℕ) :
    t.Clears ((t.evictOverlapping snapshot u slotIndex self slots).evictPrevious snapshot u
      slotIndex self) :=
  have hover := Clears.evictOverlapping h snapshot u slotIndex self slots
  hover.trans (.evictPrevious hover.follows.sound snapshot u slotIndex self)

/-- The tables after the evictions are those of the operation. -/
theorem evictAll_db (snapshot : Specs → Snapshot) (u : UserId) (ms : List (ℕ × UserMiner))
    (t : Trail) :
    (ms.foldl (Trail.evict snapshot u) t).db
      = ms.foldl (fun db m => db.evict snapshot u m) t.db := by
  induction ms generalizing t with
  | nil => rfl
  | cons m ms ih => exact ih (t.evict snapshot u m)

theorem evictOverlapping_db (snapshot : Specs → Snapshot) (u slotIndex : ℕ) (self : Option ℕ)
    (slots : ℕ) : (t.evictOverlapping snapshot u slotIndex self slots).db
      = t.db.evictOverlapping snapshot u slotIndex slots self :=
  evictAll_db ..

theorem evictPrevious_db (snapshot : Specs → Snapshot) (u slotIndex : ℕ) (self : Option ℕ) :
    (t.evictPrevious snapshot u slotIndex self).db
      = t.db.evictPrevious snapshot u slotIndex self := by
  unfold Trail.evictPrevious Db.evictPrevious
  cases t.db.userMiner.findFirst (Db.isPrevious u slotIndex self) with
  | none => rfl
  | some m =>
      simp only
      split
      · rfl
      · rfl

/-- An operation that clears its place and carries a row to it. -/
theorem Clears.carry (h : t.Clears t') {owned : Db × ℕ} {db' : Db} {p : Place}
    {location : MachineInstanceLocation} {machine : Snapshot} {create : Db → ℕ → Option Db}
    (hsame : SameRows t'.db owned.1) (hkind : p.1 ≠ .RACK) (hp : Live t.db p)
    (hcreate : ∀ {d om d₁}, create d om = some d₁ → AddsRow d location d₁)
    (hcarry : Db.carry owned p location machine create = some db') :
    t.Follows ⟨db', Function.update t'.origin (nextPlace t'.db location) (t'.origin p)⟩
      (if location = .RACK then some p else none) := by
  obtain ⟨hlive, horigin⟩ := h.kept p hkind hp
  refine h.follows.trans (.carry h.follows.sound hsame hlive hcreate hcarry) fun q hq => ?_
  split at hq
  case isTrue =>
    obtain rfl := Option.mem_some_iff.mp hq
    exact horigin
  case isFalse => cases hq

end Following

/-! ## The operations -/

section Operations

variable {cfg : Config} {t : Trail} {db' : Db}

theorem installInventoryItem_follows (h : t.Sound) {u slotIndex inventoryId : ℕ}
    (hok : t.db.installInventoryItem cfg u slotIndex inventoryId = .ok db') :
    t.Follows (t.after cfg (.installInventoryItem u slotIndex inventoryId) db')
      (some (.INVENTORY, inventoryId)) := by
  obtain ⟨item, machine, imageUrl, -, hitem, hcarry⟩ := installInventoryItem_eq_ok hok
  have hlive : Live t.db (.INVENTORY, inventoryId) := by
    simp [Live, child, (getInventoryItem_eq_some hitem).1]
  have hclears := Clears.evictBoth h (rackSnapshot cfg) u slotIndex none
    (slotCount item.machine.slotSize)
  have hfollows := hclears.carry
    (by
      rw [evictPrevious_db, evictOverlapping_db]
      exact ensureOwnedMachine_same ..) (by simp) hlive AddsRow.createUserMiner hcarry
  simpa [after, carried, cleared, hitem] using hfollows

theorem retrieveFromVaultToRack_follows (h : t.Sound) {u vaultId slotIndex : ℕ}
    (hok : t.db.retrieveFromVaultToRack cfg u vaultId slotIndex = .ok db') :
    t.Follows (t.after cfg (.retrieveFromVaultToRack u vaultId slotIndex) db')
      (some (.WAREHOUSE, vaultId)) := by
  obtain ⟨item, -, hitem, hcarry⟩ := retrieveFromVaultToRack_eq_ok hok
  have hlive : Live t.db (.WAREHOUSE, vaultId) := by
    simp [Live, child, (getVaultItem_eq_some hitem).1]
  have hclears := Clears.evictOverlapping h (rackSnapshot cfg) u slotIndex none
    (slotCount item.machine.slotSize)
  have hfollows := hclears.carry
    (by
      rw [evictOverlapping_db]
      exact ensureOwnedMachine_same ..) (by simp) hlive AddsRow.createUserMiner hcarry
  simpa [after, carried, cleared, hitem] using hfollows

theorem moveMachine_follows (h : t.Sound) {u machineId target : ℕ}
    (hok : t.db.moveMachine cfg u machineId target = .ok db') :
    t.Follows (t.after cfg (.moveMachine u machineId target) db') none := by
  obtain ⟨m, -, hm, hset⟩ := moveMachine_eq_ok hok
  have hclears := Clears.evictBoth h (moveSnapshot cfg) u target (some machineId) m.specs.slotSize
  have hafter : t.after cfg (.moveMachine u machineId target) db' =
      ⟨db', ((t.evictOverlapping (moveSnapshot cfg) u target (some machineId)
        m.specs.slotSize).evictPrevious (moveSnapshot cfg) u target (some machineId)).origin⟩ := by
    simp [after, carried, cleared, hm]
  rw [hafter]
  refine hclears.follows.trans (Follows.keep hclears.follows.sound (fun p hp => ?_) fun l => ?_)
    fun p hp => by cases hp
  · rw [evictPrevious_db, evictOverlapping_db]
    rw [(setSlotIndex_eq_some hset).1] at hp
    refine Or.inl ?_
    obtain ⟨_ | _ | _, id⟩ := p <;> by_cases hid : id = machineId <;>
      simpa [Live, child, Table.modify_row, hid] using hp
  · rw [evictPrevious_db, evictOverlapping_db, (setSlotIndex_eq_some hset).1]
    cases l <;> rfl

theorem installMiner_follows (h : t.Sound) {u rackId inventoryId : ℕ}
    (hok : t.db.installMiner cfg u rackId inventoryId = .ok db') :
    t.Follows (t.after cfg (.installMiner u rackId inventoryId) db')
      (some (.INVENTORY, inventoryId)) := by
  obtain ⟨rack, room, item, blocks, -, hitem, -, hcarry⟩ := installMiner_eq_ok hok
  have hlive : Live t.db (.INVENTORY, inventoryId) := by
    simp [Live, child, (getInventoryItem_eq_some hitem).1]
  unfold Db.installInRack at hcarry
  refine Follows.carry h (ensureOwnedMachine_same ..) hlive (fun hcreate => ?_) hcarry
  obtain ⟨installed, hinstalled, rfl⟩ := Option.map_eq_some_iff.mp hcreate
  exact (AddsRow.createUserMiner hinstalled).same (.of_tables rfl rfl rfl)

theorem removeMachine_follows (h : t.Sound) {u machineId : ℕ}
    (hok : t.db.removeMachine cfg u machineId = .ok db') :
    t.Follows (t.after cfg (.removeMachine u machineId) db') none := by
  obtain ⟨m, hm, hcarry⟩ := removeMachine_eq_ok hok
  have hreleased : SameRows t.db (t.db.releaseUserMinerFromRacks machineId) :=
    .of_tables rfl rfl rfl
  exact Follows.carry h (hreleased.trans (ensureOwnedMachine_same ..))
    (live_userMiner (getMachineById_eq_some hm).1) AddsRow.createInventory hcarry

theorem uninstallMiner_follows (h : t.Sound) {u rackId : ℕ}
    (hok : t.db.uninstallMiner cfg u rackId = .ok db') :
    t.Follows (t.after cfg (.uninstallMiner u rackId) db') none := by
  obtain ⟨rack, id, m, minerName, imageUrl, hrack, -, hheld, hm, hcarry⟩ := uninstallMiner_eq_ok hok
  have hemptied : SameRows t.db (t.db.emptyRack rackId rack.roomId id) := .of_tables rfl rfl rfl
  have hfollows := Follows.carry h (hemptied.trans (ensureOwnedMachine_same ..)) (live_userMiner hm)
    AddsRow.createInventory hcarry
  simpa [after, carried, cleared, hrack, hheld] using hfollows

theorem moveToVaultFromInventory_follows (h : t.Sound) {u itemId : ℕ}
    (hok : t.db.moveToVaultFromInventory cfg u itemId = .ok db') :
    t.Follows (t.after cfg (.moveToVaultFromInventory u itemId) db') none := by
  obtain ⟨item, hitem, hcarry⟩ := moveToVaultFromInventory_eq_ok hok
  have hlive : Live t.db (.INVENTORY, itemId) := by
    simp [Live, child, (getInventoryItem_eq_some hitem).1]
  exact Follows.carry h (ensureOwnedMachine_same ..) hlive AddsRow.createVault hcarry

theorem moveToVaultFromRack_follows (h : t.Sound) {u itemId : ℕ}
    (hok : t.db.moveToVaultFromRack cfg u itemId = .ok db') :
    t.Follows (t.after cfg (.moveToVaultFromRack u itemId) db') none := by
  obtain ⟨m, hm, hcarry⟩ := moveToVaultFromRack_eq_ok hok
  have hcreate : ∀ {d d₁ : Db} {r : Vault},
      (d.releaseUserMinerFromRacks itemId).createVault r = some d₁ → AddsRow d .WAREHOUSE d₁ :=
    fun {d} {_} {_} hd =>
      AddsRow.of_same (d := d.releaseUserMinerFromRacks itemId) (.of_tables rfl rfl rfl)
        (AddsRow.createVault hd)
  exact Follows.carry h (ensureOwnedMachine_same ..)
    (live_userMiner (getMachineById_eq_some hm).1) hcreate hcarry

theorem retrieveFromVaultToInventory_follows (h : t.Sound) {u vaultId : ℕ}
    (hok : t.db.retrieveFromVaultToInventory cfg u vaultId = .ok db') :
    t.Follows (t.after cfg (.retrieveFromVaultToInventory u vaultId) db') none := by
  obtain ⟨item, hitem, hcarry⟩ := retrieveFromVaultToInventory_eq_ok hok
  have hlive : Live t.db (.WAREHOUSE, vaultId) := by
    simp [Live, child, (getVaultItem_eq_some hitem).1]
  exact Follows.carry h (ensureOwnedMachine_same ..) hlive AddsRow.createInventory hcarry

/-- New machines have no origin. -/
theorem createInventory_follows (h : t.Sound) (u : UserId) (machine : Snapshot)
    (expiresAt : Option ℕ) :
    t.Follows ⟨t.db.createInventoryWithOwnedMachine u machine expiresAt, t.origin⟩ none := by
  refine Follows.keep h (fun p hp => ?_) fun l => ?_
  · obtain ⟨_ | _ | _, id⟩ := p <;> by_cases hid : id = t.db.inventory.nextId <;>
      simp_all [Live, child, nextPlace, Table.insert_row, Db.createInventoryWithOwnedMachine]
  · cases l <;> simp [nextPlace, Db.createInventoryWithOwnedMachine]

theorem bulkCreate_follows (h : t.Sound) (u : UserId) (machine : Snapshot) (quantity : ℕ) :
    t.Follows ⟨t.db.bulkCreateInventoryWithOwnedMachines u machine quantity, t.origin⟩ none := by
  unfold Db.bulkCreateInventoryWithOwnedMachines
  induction quantity with
  | zero => exact .refl h
  | succ n ih =>
      rw [List.range_succ, List.foldl_append]
      exact ih.trans (createInventory_follows ih.sound u machine none) fun p hp => by cases hp

/-- Rows are deleted. -/
theorem Follows.delete (h : t.Sound) (hlive : ∀ p, Live db' p → Live t.db p)
    (hnext : ∀ l, nextPlace db' l = nextPlace t.db l) : t.Follows ⟨db', t.origin⟩ none :=
  .keep h (fun p hp => Or.inl (hlive p hp)) fun l => (hnext l ▸ le_rfl)

theorem removeInventoryItem_follows (h : t.Sound) {u inventoryId : ℕ}
    (hok : t.db.removeInventoryItem u inventoryId = .ok db') : t.Follows ⟨db', t.origin⟩ none := by
  obtain ⟨row, -, hdb⟩ := removeInventoryItem_eq_ok hok
  refine Follows.delete h (fun p hp => ?_) fun l => ?_
  · cases hom : row.ownedMachineId with
    | none =>
        rw [hom] at hdb
        subst hdb
        exact (live_deleteChild.mp hp).2
    | some om =>
        rw [hom] at hdb
        subst hdb
        have hp' : Live (t.db.deleteChild (.INVENTORY, inventoryId)) p := by
          obtain ⟨_ | _ | _, id⟩ := p <;> exact hp
        exact (live_deleteChild.mp hp').2
  · cases hom : row.ownedMachineId with
    | none =>
        rw [hom] at hdb
        subst hdb
        exact nextPlace_deleteChild _ _ l
    | some om =>
        rw [hom] at hdb
        subst hdb
        cases l <;> rfl

theorem cleanupExpiredInventory_follows (h : t.Sound) (now : ℕ) :
    t.Follows ⟨t.db.cleanupExpiredInventory now, t.origin⟩ none := by
  refine Follows.delete h (fun p hp => ?_) fun l => ?_
  · obtain ⟨_ | _ | _, id⟩ := p
    · cases hrow : t.db.inventory.row id with
      | none => simp [Live, child, Db.cleanupExpiredInventory, Table.deleteMany_row, hrow] at hp
      | some r => simp [Live, child, hrow]
    · exact hp
    · exact hp
  · cases l <;> rfl

/-- **Step lemma.** -/
theorem exec_follows {op : Op} {t' : Trail} (h : t.Sound) (hok : t.exec cfg op = .ok t') :
    t.Follows t' (racked t.db op) := by
  unfold Trail.exec at hok
  cases hexec : Machines.exec cfg t.db op with
  | error e =>
      rw [hexec] at hok
      cases hok
  | ok db' =>
      rw [hexec] at hok
      obtain rfl := Except.ok.inj hok
      cases op with
      | createInventoryWithOwnedMachine u machine expiresAt =>
          obtain rfl := Except.ok.inj hexec
          exact createInventory_follows h u machine expiresAt
      | bulkCreateInventoryWithOwnedMachines u machine quantity =>
          obtain rfl := Except.ok.inj hexec
          exact bulkCreate_follows h u machine quantity
      | installInventoryItem u slotIndex inventoryId => exact installInventoryItem_follows h hexec
      | removeInventoryItem u inventoryId => exact removeInventoryItem_follows h hexec
      | removeMachine u machineId => exact removeMachine_follows h hexec
      | moveMachine u machineId target => exact moveMachine_follows h hexec
      | moveToVaultFromInventory u itemId => exact moveToVaultFromInventory_follows h hexec
      | moveToVaultFromRack u itemId => exact moveToVaultFromRack_follows h hexec
      | retrieveFromVaultToInventory u vaultId =>
          exact retrieveFromVaultToInventory_follows h hexec
      | retrieveFromVaultToRack u vaultId slotIndex =>
          exact retrieveFromVaultToRack_follows h hexec
      | buyRoom u =>
          obtain ⟨roomNumber, rfl⟩ := buyRoom_eq_ok hexec
          refine Follows.delete h (fun p hp => ?_) fun l => ?_
          · obtain ⟨_ | _ | _, id⟩ := p <;> exact hp
          · cases l <;> rfl
      | installMiner u rackId inventoryId => exact installMiner_follows h hexec
      | uninstallMiner u rackId =>
          have hnone : racked t.db (.uninstallMiner u rackId) = none := by
            simp only [racked, carried]
            cases (t.db.rack.row rackId).bind (·.userMinerId) <;> rfl
          rw [hnone]
          exact uninstallMiner_follows h hexec
      | cleanupExpiredInventory now =>
          obtain rfl := Except.ok.inj hexec
          exact cleanupExpiredInventory_follows h now

end Operations

end Trail

end BlockMiner.Machines
