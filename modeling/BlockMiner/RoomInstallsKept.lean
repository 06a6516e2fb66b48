import BlockMiner.RoomInstalls

/-!
# Rooms after concurrent installs

The writes of an install were checked against what the call has read, and
what it has read may have changed. `Knows` is what a call can still rely on:
racks and rooms stay where they are, and a machine that still exists is
still in the rack it was read in. With it, a transaction that goes through
meets `CanHold` at the state it commits in but for two facts. That the start
rack is not occupied follows from the unique index on the slot; that it is
not blocked, and that the rack to be blocked is not occupied, nothing
enforces. `StillFree` asks for these, and `installs_keep_rooms` is the
result about runs.
-/

namespace BlockMiner.Rooms

open Machines

/-! ## What others cannot change -/

section Persists

variable {F : Floor} {id : ℕ}

/-- Racks and rooms stay where they are, and a rack keeps its machine as long
as the machine exists. -/
structure Persists (F F' : Floor) : Prop where
  room : F'.room = F.room
  rack : ∀ {r k}, F.rack r = some k → ∃ k', F'.rack r = some k' ∧ k'.userId = k.userId
    ∧ k'.roomId = k.roomId ∧ k'.position = k.position
    ∧ ∀ m, k.userMinerId = some m → F'.spot m ≠ none → k'.userMinerId = some m

theorem hold_persists {s : Spot} {rackId : ℕ} {blocks : Option ℕ}
    (hfree : ∀ k, F.rack rackId = some k → k.userMinerId = none) :
    Persists F (F.hold id s rackId blocks) := by
  refine ⟨rfl, fun {r k} hk => ⟨_, hold_rack hk, rfl, rfl, rfl, fun m hm _ => ?_⟩⟩
  refine (if_neg ?_).trans hm
  rintro rfl
  rw [hfree k hk] at hm
  cases hm

theorem remove_persists (F : Floor) (id : ℕ) : Persists F (F.remove id) := by
  refine ⟨rfl, fun {r k} hk => ⟨_, remove_rack hk, rfl, rfl, rfl, fun m hm hspot => ?_⟩⟩
  refine release_userMinerId.mpr ⟨?_, hm⟩
  rintro rfl
  exact hspot (Function.update_self _ _ _)

end Persists

/-- No id of an inventory item or a machine is handed out twice. -/
structure Ages (db db' : Db) : Prop where
  inventory : db.inventory.Ages db'.inventory
  userMiner : db.userMiner.Ages db'.userMiner

section Aging

variable {db db' : Db}

theorem Ages.refl (db : Db) : Ages db db := ⟨.refl _, .refl _⟩

theorem Ages.trans {db'' : Db} (h : Ages db db') (h' : Ages db' db'') : Ages db db'' :=
  ⟨h.inventory.trans h'.inventory, h.userMiner.trans h'.userMiner⟩

theorem ensureOwnedMachine_ages (db : Db) (p : Machines.Place) (u : UserId) (machine : Snapshot)
    (om : Option ℕ) : Ages db (db.ensureOwnedMachine p u machine om).1 := by
  cases om with
  | some om => exact .refl db
  | none =>
      obtain ⟨location, id⟩ := p
      cases location with
      | INVENTORY => exact ⟨Table.ages_modify .., .refl _⟩
      | RACK => exact ⟨.refl _, Table.ages_modify ..⟩
      | WAREHOUSE => exact ⟨.refl _, .refl _⟩

theorem createInventory_ages {r : Inventory} (h : db.createInventory r = some db') :
    Ages db db' := by
  obtain rfl := createInventory_eq_some h
  exact ⟨Table.ages_insert .., .refl _⟩

theorem createUserMiner_ages {m : UserMiner} (h : db.createUserMiner m = some db') :
    Ages db db' := by
  obtain ⟨rfl, -⟩ := createUserMiner_eq_some h
  exact ⟨.refl _, Table.ages_insert ..⟩

theorem syncOwnedMachineSnapshot_ages {om : ℕ} {location : MachineInstanceLocation}
    {machine : Snapshot} (h : db.syncOwnedMachineSnapshot om location machine = some db') :
    Ages db db' := by
  obtain rfl := syncOwnedMachineSnapshot_eq_some h
  exact ⟨.refl _, .refl _⟩

theorem deleteChild_ages (db : Db) (p : Machines.Place) : Ages db (db.deleteChild p) := by
  obtain ⟨location, id⟩ := p
  cases location with
  | INVENTORY => exact ⟨Table.ages_delete .., .refl _⟩
  | RACK => exact ⟨.refl _, Table.ages_delete ..⟩
  | WAREHOUSE => exact ⟨.refl _, .refl _⟩

theorem carry_ages {owned : Db × ℕ} {p : Machines.Place} {location : MachineInstanceLocation}
    {machine : Snapshot} {create : Db → ℕ → Option Db} (howned : Ages db owned.1)
    (hcreate : ∀ {d om d₁}, create d om = some d₁ → Ages d d₁)
    (h : Db.carry owned p location machine create = some db') : Ages db db' := by
  obtain ⟨db₁, db₂, hdb₁, hsync, rfl⟩ := carry_ok h
  have hcreated : Ages db db₁ := howned.trans (hcreate hdb₁)
  exact (hcreated.trans (syncOwnedMachineSnapshot_ages hsync)).trans (deleteChild_ages db₂ p)

end Aging

/-! ## The transactions -/

section Transactions

variable {cfg : Config} {db db' : Db}

/-- A transaction of `installMiner` that goes through. -/
structure Installed (cfg : Config) (db : Db) (q : Install) (rack : UserRack) (room : UserRoom)
    (item : Inventory) (blocks : Option ℕ) (db' : Db) : Prop where
  there : (db.inventory.row q.inventoryId).isSome
  gone : db'.inventory.row q.inventoryId = none
  floor : Machines.floor db' = (Machines.floor db).hold db.userMiner.nextId
    ⟨q.userId, rackSlotIndex cfg room.roomNumber rack.position, item.machine.slotSize⟩ q.rackId
    blocks
  fresh : (Machines.floor db).spot db.userMiner.nextId = none
  vacant : (Machines.floor db).Vacant q.userId
    (rackSlotIndex cfg room.roomNumber rack.position) none
  ages : Ages db db'

theorem installTx_eq_some {q : Install} {rack : UserRack} {room : UserRoom} {item : Inventory}
    {blocks : Option ℕ} (h : installTx cfg db q rack room item blocks = some db') :
    Installed cfg db q rack room item blocks db' := by
  unfold installTx at h
  split at h
  case isTrue => cases h
  case isFalse hthere =>
    obtain ⟨hfloor, hfresh, hvacant⟩ := installInRack_floor h
    refine ⟨Option.isSome_iff_ne_none.mpr (by simpa using hthere), ?_, hfloor, hfresh, hvacant, ?_⟩
    · obtain ⟨db₁, db₂, -, -, rfl⟩ := carry_ok h
      exact if_pos rfl
    · refine carry_ages (ensureOwnedMachine_ages ..) (fun {d om d₁} hcreate => ?_) h
      obtain ⟨d₂, huser, rfl⟩ := Option.map_eq_some_iff.mp hcreate
      obtain ⟨hinventory, huserMiner⟩ := createUserMiner_ages huser
      exact ⟨hinventory, huserMiner⟩

theorem uninstallTx_eq_some {u : UserId} {rackId machineId : ℕ} {rack : UserRack} {m : UserMiner}
    (h : uninstallTx cfg db u rackId rack machineId m = some db') :
    db.userMiner.row machineId ≠ none
      ∧ floor db' = (floor db).uninstall rackId rack.roomId machineId ∧ Ages db db' := by
  unfold uninstallTx at h
  split at h
  case isTrue => cases h
  case isFalse hthere =>
    refine ⟨fun hnone => hthere (by rw [hnone]; rfl), carry_emptied h, ?_⟩
    have hemptied : Ages db (db.emptyRack rackId rack.roomId machineId) := ⟨.refl _, .refl _⟩
    exact carry_ages (hemptied.trans (ensureOwnedMachine_ages ..)) createInventory_ages h

end Transactions

/-! ## What a call can rely on -/

/-- The start rack is of the user and in its place. -/
def Located (F : Floor) (q : Install) (rack : UserRack) (room : UserRoom) : Prop :=
  F.room rack.roomId = some room ∧ ∃ k, F.rack q.rackId = some k ∧ k.userId = q.userId
    ∧ k.roomId = rack.roomId ∧ k.position = rack.position

/-- The rack to block is the one the machine reaches to. -/
def Reaches (F : Floor) (rack : UserRack) (item : Inventory) : Option ℕ → Prop
  | none => slotCount item.machine.slotSize < 2
  | some b => 2 ≤ slotCount item.machine.slotSize ∧ ∃ k, F.rack b = some k
      ∧ k.roomId = rack.roomId
      ∧ k.position = rack.position + (slotCount item.machine.slotSize - 1)

def Knows (db : Db) : Call → Prop
  | .rack _ | .machine .. => True
  | .item q rack room => Located (floor db) q rack room
  | .adjacent q rack room item =>
      Located (floor db) q rack room ∧ 2 ≤ slotCount item.machine.slotSize
  | .install q rack room item blocks =>
      Located (floor db) q rack room ∧ Reaches (floor db) rack item blocks
  | .uninstall _ rackId rack machineId _ => machineId < db.userMiner.nextId
      ∧ (db.userMiner.row machineId ≠ none → ∃ k, db.rack.row rackId = some k
        ∧ k.roomId = rack.roomId ∧ k.userMinerId = some machineId)

section Knowledge

variable {db db' : Db} (hpersists : Persists (floor db) (floor db'))
include hpersists

theorem Located.mono {q : Install} {rack : UserRack} {room : UserRoom}
    (h : Located (floor db) q rack room) : Located (floor db') q rack room := by
  obtain ⟨hroom, k, hk, hu, hroomId, hpos⟩ := h
  obtain ⟨k', hk', hu', hroomId', hpos', -⟩ := hpersists.rack hk
  refine ⟨?_, k', hk', hu'.trans hu, hroomId'.trans hroomId, hpos'.trans hpos⟩
  rw [hpersists.room]
  exact hroom

theorem Reaches.mono {rack : UserRack} {item : Inventory} {blocks : Option ℕ}
    (h : Reaches (floor db) rack item blocks) : Reaches (floor db') rack item blocks := by
  cases blocks with
  | none => exact h
  | some b =>
      obtain ⟨hlarge, k, hk, hroomId, hpos⟩ := h
      obtain ⟨k', hk', -, hroomId', hpos', -⟩ := hpersists.rack hk
      exact ⟨hlarge, k', hk', hroomId'.trans hroomId, hpos'.trans hpos⟩

theorem Knows.mono (hages : Ages db db') {c : Call} (h : Knows db c) : Knows db' c := by
  cases c with
  | rack q => trivial
  | machine u rackId => trivial
  | item q rack room => exact Located.mono hpersists h
  | adjacent q rack room item => exact ⟨Located.mono hpersists h.1, h.2⟩
  | install q rack room item blocks =>
      exact ⟨Located.mono hpersists h.1, Reaches.mono hpersists h.2⟩
  | uninstall u rackId rack machineId m =>
      obtain ⟨hlt, hheld⟩ := h
      refine ⟨hlt.trans_le hages.userMiner.nextId, fun hthere => ?_⟩
      have hbefore : db.userMiner.row machineId ≠ none := by
        intro hnone
        exact hthere (hages.userMiner.gone hlt hnone)
      obtain ⟨k, hk, hroomId, hm⟩ := hheld hbefore
      obtain ⟨k', hk', -, hroomId', -, hkeeps⟩ := hpersists.rack hk
      refine ⟨k', hk', hroomId'.trans hroomId, hkeeps _ hm fun hnone => ?_⟩
      exact hthere (Option.map_eq_none_iff.mp hnone)

end Knowledge

/-! ## What a call knows after its reads -/

section Reads

variable {db : Db} {c' : Call}

theorem readRack_knows {q : Install} (h : readRack db q = .ok c') : Knows db c' := by
  unfold readRack at h
  split at h
  case h_1 => cases h
  case h_2 rack hrack =>
    obtain ⟨hrow, hu⟩ := Option.filter_eq_some_iff.mp hrack
    split at h
    case h_1 => cases h
    case h_2 room hroom =>
      split at h
      case isTrue => cases h
      case isFalse =>
        obtain rfl := Except.ok.inj h
        exact ⟨hroom, rack, hrow, of_decide_eq_true hu, rfl, rfl⟩

theorem readItem_knows {q : Install} {rack : UserRack} {room : UserRoom}
    (hlocated : Located (floor db) q rack room) (h : readItem db q rack room = .ok c') :
    Knows db c' := by
  unfold readItem at h
  split at h
  case h_1 => cases h
  case h_2 item hitem =>
    split at h
    case isTrue hsmall =>
      obtain rfl := Except.ok.inj h
      exact ⟨hlocated, hsmall⟩
    case isFalse hlarge =>
      obtain rfl := Except.ok.inj h
      exact ⟨hlocated, Nat.le_of_not_lt hlarge⟩

theorem readAdjacent_knows {q : Install} {rack : UserRack} {room : UserRoom} {item : Inventory}
    (hlocated : Located (floor db) q rack room) (hlarge : 2 ≤ slotCount item.machine.slotSize)
    (h : readAdjacent db q rack room item = .ok c') : Knows db c' := by
  unfold readAdjacent at h
  split at h
  case h_1 => cases h
  case h_2 adjacent hadjacent =>
    split at h
    case isTrue => cases h
    case isFalse =>
      obtain rfl := Except.ok.inj h
      obtain ⟨hrow, hplace⟩ := Table.findFirst_eq_some hadjacent
      obtain ⟨hroomId, hpos⟩ := of_decide_eq_true hplace
      exact ⟨hlocated, hlarge, adjacent.2, hrow, hroomId, hpos⟩

theorem readMachine_knows {u : UserId} {rackId : ℕ} (h : readMachine db u rackId = .ok c') :
    Knows db c' := by
  unfold readMachine at h
  split at h
  case h_1 => cases h
  case h_2 rack hrack =>
    obtain ⟨hrow, -⟩ := Option.filter_eq_some_iff.mp hrack
    split at h
    case h_1 => cases h
    case h_2 machineId m hmachine =>
      obtain rfl := Except.ok.inj h
      obtain ⟨hheld, hminer⟩ := heldMachine_eq_some hmachine
      exact ⟨Table.row_lt hminer, fun _ => ⟨rack, hrow, rfl, hheld⟩⟩

theorem query_knows {c : Call} (hknows : Knows db c) (h : query db c = .ok c') :
    Knows db c' := by
  cases c with
  | rack q => exact readRack_knows h
  | item q rack room => exact readItem_knows hknows h
  | adjacent q rack room item => exact readAdjacent_knows hknows.1 hknows.2 h
  | machine u rackId => exact readMachine_knows h
  | install q rack room item blocks =>
      obtain rfl := Except.ok.inj h
      exact hknows
  | uninstall u rackId rack machineId m =>
      obtain rfl := Except.ok.inj h
      exact hknows

end Reads

/-! ## Steps -/

/-- The items are of at most two slots; and when an install goes ahead, with
its item still there and its rack not occupied, that rack is not blocked
and the rack it is about to block not occupied. -/
def StillFree (s : State) : Call → Answer → Prop
  | .install q _ _ item blocks, .ok => item.machine.slotSize ≤ 2
      ∧ ((s.db.inventory.row q.inventoryId).isSome = true →
        ∀ k ∈ s.db.rack.row q.rackId, k.userMinerId = none → k.blockedByMinerId = none
          ∧ ∀ b ∈ blocks, ∀ k' ∈ s.db.rack.row b, k'.userMinerId = none)
  | _, _ => True

instance (s : State) : ∀ c a, Decidable (StillFree s c a)
  | .install q _ _ item blocks, .ok => inferInstanceAs (Decidable (item.machine.slotSize ≤ 2
      ∧ ((s.db.inventory.row q.inventoryId).isSome = true →
        ∀ k ∈ s.db.rack.row q.rackId, k.userMinerId = none → k.blockedByMinerId = none
          ∧ ∀ b ∈ blocks, ∀ k' ∈ s.db.rack.row b, k'.userMinerId = none)))
  | .rack .., _ | .item .., _ | .adjacent .., _ | .install .., .error | .machine .., _
  | .uninstall .., _ => inferInstanceAs (Decidable True)

/-- The invariant. -/
structure Intact (cfg : Config) (s : State) : Prop where
  racks : RacksOk cfg (floor s.db)
  gone : ∀ {i}, i ∈ s.installed → i < s.db.inventory.nextId ∧ s.db.inventory.row i = none
  once : s.installed.Nodup

section Steps

variable {cfg : Config} {s : State} (h : Intact cfg s)
include h

/-- An installed item stays gone. -/
theorem Intact.still_gone {db' : Db} (hages : Ages s.db db') {i : ℕ} (hi : i ∈ s.installed) :
    i < db'.inventory.nextId ∧ db'.inventory.row i = none := by
  obtain ⟨hlt, hnone⟩ := h.gone hi
  exact ⟨hlt.trans_le hages.inventory.nextId, hages.inventory.gone hlt hnone⟩

/-- A machine in the rack would stand at the slot the install has taken. -/
theorem Intact.unoccupied {q : Install} {rack k : UserRack} {room : UserRoom}
    (hroom : (floor s.db).room k.roomId = some room) (hk : (floor s.db).rack q.rackId = some k)
    (hu : k.userId = q.userId) (hpos : k.position = rack.position)
    (hvacant : (floor s.db).Vacant q.userId
      (rackSlotIndex cfg room.roomNumber rack.position) none) :
    k.userMinerId = none := by
  cases hm : k.userMinerId with
  | none => rfl
  | some m =>
      obtain ⟨spot, room', hspot, hsu, hroom', hslot⟩ := h.racks.holds hk hm
      obtain rfl := Option.some.inj (hroom.symm.trans hroom')
      rw [hpos] at hslot
      cases hvacant m spot hspot (hsu.trans hu) hslot

/-- An unoccupied rack blocks nothing, so the rack after it is not blocked. -/
theorem Intact.unblocked {r b : ℕ} {k k' : UserRack} (hk : (floor s.db).rack r = some k)
    (hfree : k.userMinerId = none) (hk' : (floor s.db).rack b = some k')
    (hroomId : k'.roomId = k.roomId) (hpos : k'.position = k.position + 1) :
    k'.blockedByMinerId = none := by
  cases hb : k'.blockedByMinerId with
  | none => rfl
  | some m =>
      obtain ⟨r₀, k₀, hk₀, hroomId₀, hpos₀, hm⟩ := h.racks.blocked hk' hb
      have hposition : k₀.position = k.position := by omega
      obtain rfl := h.racks.unique hk₀ hk (hroomId₀.trans hroomId) hposition
      obtain rfl := Option.some.inj (hk₀.symm.trans hk)
      rw [hfree] at hm
      cases hm

theorem Intact.canHold {q : Install} {rack k : UserRack} {room : UserRoom} {item : Inventory}
    {blocks : Option ℕ} (hroom : (floor s.db).room k.roomId = some room)
    (hk : (floor s.db).rack q.rackId = some k) (hu : k.userId = q.userId)
    (hroomId : k.roomId = rack.roomId) (hpos : k.position = rack.position)
    (hreaches : Reaches (floor s.db) rack item blocks) (hsize : item.machine.slotSize ≤ 2)
    (hm : k.userMinerId = none) (hb : k.blockedByMinerId = none)
    (hnext : ∀ b ∈ blocks, ∀ k' ∈ s.db.rack.row b, k'.userMinerId = none) :
    CanHold cfg (floor s.db) q.userId q.rackId k
      ⟨q.userId, rackSlotIndex cfg room.roomNumber rack.position, item.machine.slotSize⟩
      blocks where
  found := hk
  user := hu
  free := UserRack.isFree_iff.mpr ⟨hm, hb⟩
  slot := ⟨room, hroom, by rw [hpos]⟩
  spotUser := rfl
  blocked := by
    cases blocks with
    | none => exact hreaches
    | some b =>
        obtain ⟨hlarge, k', hk', hroomId', hpos'⟩ := hreaches
        have hfree' : k'.blockedByMinerId = none := by
          refine h.unblocked hk hm hk' (hroomId'.trans hroomId.symm) ?_
          rw [hpos', slotCount_eq_two hlarge hsize, hpos]
        exact ⟨hlarge, k', hk', hroomId'.trans hroomId.symm,
          UserRack.isFree_iff.mpr ⟨hnext b rfl k' hk', hfree'⟩, by rw [hpos', hpos]⟩

theorem Intact.install {q : Install} {rack : UserRack} {room : UserRoom} {item : Inventory}
    {blocks : Option ℕ} {db' : Db} (hknows : Knows s.db (.install q rack room item blocks))
    (hfree : StillFree s (.install q rack room item blocks) .ok)
    (hok : Installed cfg s.db q rack room item blocks db') :
    Intact cfg ⟨db', q.inventoryId :: s.installed⟩ ∧ Persists (floor s.db) (floor db') := by
  obtain ⟨⟨hroom, k, hk, hu, hroomId, hpos⟩, hreaches⟩ := hknows
  obtain ⟨hsize, hfree⟩ := hfree
  rw [← hroomId] at hroom
  have hm : k.userMinerId = none := h.unoccupied hroom hk hu hpos hok.vacant
  obtain ⟨hb, hnext⟩ := hfree hok.there k hk hm
  have hcan := h.canHold hroom hk hu hroomId hpos hreaches hsize hm hb hnext
  have hlt : q.inventoryId < s.db.inventory.nextId := by
    obtain ⟨item, hitem⟩ := Option.isSome_iff_exists.mp hok.there
    exact Table.row_lt hitem
  refine ⟨⟨?_, fun {i} hi => ?_, List.nodup_cons.mpr ⟨fun hi => ?_, h.once⟩⟩, ?_⟩
  · show RacksOk cfg (floor db')
    rw [hok.floor]
    exact h.racks.hold hcan hok.fresh hsize
  · rcases List.mem_cons.mp hi with rfl | hi
    · exact ⟨hlt.trans_le hok.ages.inventory.nextId, hok.gone⟩
    · exact h.still_gone hok.ages hi
  · -- an item that has been installed is gone, and this one was there
    have hthere := hok.there
    rw [(h.gone hi).2] at hthere
    cases hthere
  · rw [hok.floor]
    refine hold_persists fun k' hk' => ?_
    obtain rfl := Option.some.inj (hk.symm.trans hk')
    exact hm

theorem Intact.uninstall {u : UserId} {rackId machineId : ℕ} {rack : UserRack} {m : UserMiner}
    {db' : Db} (hknows : Knows s.db (.uninstall u rackId rack machineId m))
    (hok : uninstallTx cfg s.db u rackId rack machineId m = some db') :
    Intact cfg { s with db := db' } ∧ Persists (floor s.db) (floor db') ∧ Ages s.db db' := by
  obtain ⟨hthere, hfloor, hages⟩ := uninstallTx_eq_some hok
  obtain ⟨k, hk, hroomId, hheld⟩ := hknows.2 hthere
  have hremove : floor db' = (floor s.db).remove machineId := by
    rw [hfloor, ← hroomId]
    exact h.racks.uninstall_eq hk hheld
  refine ⟨⟨?_, fun hi => h.still_gone hages hi, h.once⟩, ?_, hages⟩
  · show RacksOk cfg (floor db')
    rw [hremove]
    exact h.racks.remove machineId
  · rw [hremove]
    exact remove_persists _ _

end Steps

/-! ## Runs -/

section Runs

variable {cfg : Config}

theorem mem_unless {p : Prop} [Decidable p] {c d : Call} (h : c ∈ if p then [] else [d]) :
    c = d := by
  split at h
  case isTrue => cases h
  case isFalse => exact List.mem_singleton.mp h

theorem start_eq_some {s s' : State} {r : Request} {cs : List Call}
    (h : start s r = some (s', cs)) : s' = s ∧ ∀ c ∈ cs, Knows s.db c := by
  cases r with
  | installMiner u rackId inventoryId =>
      obtain ⟨rfl, rfl⟩ := Prod.mk.inj (Option.some.inj h)
      refine ⟨rfl, fun c hc => ?_⟩
      obtain rfl := mem_unless hc
      trivial
  | uninstallMiner u rackId =>
      obtain ⟨rfl, rfl⟩ := Prod.mk.inj (Option.some.inj h)
      refine ⟨rfl, fun c hc => ?_⟩
      obtain rfl := mem_unless hc
      trivial

/-- What a step of a call does: nothing but the call's own reads, or a
transaction that goes through. -/
theorem resume_cases {s s' : State} {c : Call} {a : Answer} {next : Option Call}
    (h : resume cfg s c a = some (s', next)) :
    (s' = s ∧ ∀ c' ∈ next, query s.db c = .ok c')
      ∨ (next = none ∧ a = .ok ∧ ∃ q rack room item blocks db',
          c = .install q rack room item blocks
            ∧ installTx cfg s.db q rack room item blocks = some db'
            ∧ s' = ⟨db', q.inventoryId :: s.installed⟩)
      ∨ (next = none ∧ ∃ u rackId rack machineId m db', c = .uninstall u rackId rack machineId m
          ∧ uninstallTx cfg s.db u rackId rack machineId m = some db'
          ∧ s' = { s with db := db' }) := by
  cases a with
  | error =>
      have hend : resume cfg s c .error = some (s, none) := by cases c <;> rfl
      obtain ⟨rfl, rfl⟩ := Prod.mk.inj (Option.some.inj (hend.symm.trans h))
      exact Or.inl ⟨rfl, fun _ hc => by cases hc⟩
  | ok =>
      have hread (hreads : c.reads = true) : s' = s ∧ ∀ c' ∈ next, query s.db c = .ok c' := by
        rw [resume_read hreads] at h
        obtain ⟨rfl, rfl⟩ := Prod.mk.inj (Option.some.inj h)
        exact ⟨rfl, fun c' hc' => toOption_eq_some.mp hc'⟩
      cases c with
      | rack q => exact Or.inl (hread rfl)
      | item q rack room => exact Or.inl (hread rfl)
      | adjacent q rack room item => exact Or.inl (hread rfl)
      | machine u rackId => exact Or.inl (hread rfl)
      | install q rack room item blocks =>
          unfold resume at h
          cases htx : installTx cfg s.db q rack room item blocks with
          | none =>
              simp only [htx] at h
              obtain ⟨rfl, rfl⟩ := Prod.mk.inj (Option.some.inj h)
              exact Or.inl ⟨rfl, fun _ hc => by cases hc⟩
          | some db' =>
              simp only [htx] at h
              obtain ⟨rfl, rfl⟩ := Prod.mk.inj (Option.some.inj h)
              exact Or.inr (Or.inl ⟨rfl, rfl, q, rack, room, item, blocks, db', rfl, htx, rfl⟩)
      | uninstall u rackId rack machineId m =>
          unfold resume at h
          cases htx : uninstallTx cfg s.db u rackId rack machineId m with
          | none =>
              simp only [htx] at h
              obtain ⟨rfl, rfl⟩ := Prod.mk.inj (Option.some.inj h)
              exact Or.inl ⟨rfl, fun _ hc => by cases hc⟩
          | some db' =>
              simp only [htx] at h
              obtain ⟨rfl, rfl⟩ := Prod.mk.inj (Option.some.inj h)
              exact Or.inr (Or.inr ⟨rfl, u, rackId, rack, machineId, m, db', rfl, htx, rfl⟩)

/-- **Step lemma.** -/
theorem Intact.resume {s s' : State} {c : Call} {a : Answer} {next : Option Call}
    (h : Intact cfg s) (hknows : Knows s.db c) (hfree : StillFree s c a)
    (hresume : Rooms.resume cfg s c a = some (s', next)) :
    Intact cfg s' ∧ (∀ d, Knows s.db d → Knows s'.db d) ∧ ∀ c' ∈ next, Knows s'.db c' := by
  rcases resume_cases hresume with ⟨rfl, hnext⟩
    | ⟨rfl, rfl, q, rack, room, item, blocks, db', rfl, htx, rfl⟩
    | ⟨rfl, u, rackId, rack, machineId, m, db', rfl, htx, rfl⟩
  · exact ⟨h, fun _ hd => hd, fun c' hc' => query_knows hknows (hnext c' hc')⟩
  · have hok := installTx_eq_some htx
    obtain ⟨hintact, hpersists⟩ := h.install hknows hfree hok
    exact ⟨hintact, fun _ hd => hd.mono hpersists hok.ages, fun _ hc => by cases hc⟩
  · obtain ⟨hintact, hpersists, hages⟩ := h.uninstall hknows htx
    exact ⟨hintact, fun _ hd => hd.mono hpersists hages, fun _ hc => by cases hc⟩

/-- No rack is occupied and blocked, and a blocked rack is blocked by the
machine in the rack before it. -/
structure RoomsIntact (db : Db) : Prop where
  notBoth : ∀ {r k}, db.rack.row r = some k → ¬(k.userMinerId.isSome ∧ k.blockedByMinerId.isSome)
  blockedNext : ∀ {r k m}, db.rack.row r = some k → k.blockedByMinerId = some m →
    ∃ r' k', db.rack.row r' = some k' ∧ k'.roomId = k.roomId ∧ k.position = k'.position + 1
      ∧ k'.userMinerId = some m

/-- **Concurrent installs keep the rooms.** From consistent rooms, in every
interleaving of any number of requests in which the racks of each install
are still free when its transaction goes ahead, the rooms are intact in
every state, and no inventory item is installed twice. -/
theorem installs_keep_rooms {db : Db} {t : InFlight State Call}
    {es : List (Event Request Answer)} (h : RacksOk cfg (floor db))
    (hfree : (service cfg).sys.Meets (Service.Guard StillFree) ⟨⟨db, []⟩, .empty⟩ es)
    (hrun : (service cfg).sys.run ⟨⟨db, []⟩, .empty⟩ es = some t) :
    RoomsIntact t.db.db ∧ t.db.installed.Nodup := by
  have hstart : Service.Holds (Intact cfg) (fun s => Knows s.db) ⟨⟨db, []⟩, .empty⟩ :=
    ⟨⟨h, nofun, List.nodup_nil⟩, fun _ _ hc => by cases hc⟩
  have hend := (service cfg).invariant
    (fun s r s' cs hs hr => by
      obtain ⟨rfl, hcs⟩ := start_eq_some hr
      exact ⟨hs, fun _ hd => hd, hcs⟩)
    (fun s c a s' next hs hknows hC hr => hs.resume hknows hC hr) hstart hfree hrun
  have hrooms := hend.1.racks.consistent
  exact ⟨⟨hrooms.notBoth, hrooms.blockedNext⟩, hend.1.once⟩

end Runs

/-- A room of user 1, with a machine of two slots and one of one slot to install. -/
def stocked : List Op :=
  [.buyRoom 1, .createInventoryWithOwnedMachine 1 (customMachine 2) none,
    .createInventoryWithOwnedMachine 1 (customMachine 1) none]

def stockedRoom : Db := ((system defaults).run .empty stocked).getD .empty

theorem stockedRoom_ok : RacksOk defaults (floor stockedRoom) := by
  have hrun : (system defaults).run .empty stocked = some stockedRoom :=
    Option.eq_some_of_isSome (o := (system defaults).run .empty stocked) (by decide +kernel)
  exact RacksOk.run (.of_empty _) (by decide +kernel) hrun

/-- The machines are installed at the same time in racks 1 and 3, and the
large one is taken out again. -/
def besideEachOther : List (Event Request Answer) :=
  [.start (.installMiner 1 1 1), .start (.installMiner 1 3 2), .resume 1 .ok, .resume 2 .ok,
    .resume 1 .ok, .resume 2 .ok, .resume 1 .ok, .resume 2 .ok, .start (.uninstallMiner 1 1),
    .resume 1 .ok, .resume 3 .ok, .resume 3 .ok]

theorem installs_keep_rooms_besideEachOther :
    ∃ t, (service defaults).sys.run ⟨⟨stockedRoom, []⟩, .empty⟩ besideEachOther = some t
      ∧ RoomsIntact t.db.db ∧ t.db.installed.Nodup :=
  have hrun : ((service defaults).sys.run ⟨⟨stockedRoom, []⟩, .empty⟩ besideEachOther).isSome := by
    decide +kernel
  ⟨_, (Option.some_get hrun).symm,
    installs_keep_rooms stockedRoom_ok (by decide +kernel) (Option.some_get hrun).symm⟩

/-- The small machine goes into rack 2, which the large one in rack 1 is to block. -/
def intoEachOther : List (Event Request Answer) :=
  [.start (.installMiner 1 1 1), .start (.installMiner 1 2 2), .resume 1 .ok, .resume 2 .ok,
    .resume 1 .ok, .resume 2 .ok, .resume 1 .ok, .resume 2 .ok, .resume 1 .ok]

theorem installs_collide :
    ¬ ∀ (cfg : Config) (db : Db) (t : InFlight State Call) (es : List (Event Request Answer)),
        RacksOk cfg (floor db) →
        (∀ p ∈ db.inventory.rows, p.2.machine.slotSize = 1 ∨ p.2.machine.slotSize = 2) →
        (service cfg).sys.run ⟨⟨db, []⟩, .empty⟩ es = some t →
        RoomsIntact t.db.db ∧ t.db.installed.Nodup := by
  intro h
  have hcollision : ∃ t ∈ (service defaults).sys.run ⟨⟨stockedRoom, []⟩, .empty⟩ intoEachOther,
      ∃ k ∈ t.db.db.rack.row 2, k.userMinerId.isSome ∧ k.blockedByMinerId.isSome := by
    decide +kernel
  obtain ⟨t, hrun, k, hk, hboth⟩ := hcollision
  have hintact := h defaults stockedRoom t intoEachOther stockedRoom_ok (by decide +kernel) hrun
  exact hintact.1.notBoth hk hboth

end BlockMiner.Rooms
