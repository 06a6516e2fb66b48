import Mathlib.Data.Finset.Disjoint
import BlockMiner.MachineEffect

/-!
# No two machines occupy the same slot

A large machine (`slotSize` 2) covers its slot and the next one, any other
covers its slot. The invariant `SlotsDisjoint u` is that the covered sets of
user `u`'s machines below the racks of the rooms are pairwise disjoint.

A placement evicts what starts in its target slots, so the one machine that
can get in its way is a large one in the slot before (`Straddled`).
`installInventoryItem` and `moveMachine` look there when the target is odd;
`retrieveFromVaultToRack` never does. `KeepsClear` asks that there be no
such machine where the code does not look, and `slots_disjoint` proves that
runs of any operations that meet it keep the invariant.
-/

namespace BlockMiner.Machines

/-- The slots a machine covers. -/
def Spot.covered (s : Spot) : Finset ℕ :=
  if s.slotSize = 2 then {s.slotIndex, s.slotIndex + 1} else {s.slotIndex}

/-- The first slot of a rack in a room. -/
def ROOM_SLOTS : ℕ := 1000

/-- The machine is not in a room. -/
abbrev Spot.isLegacy (s : Spot) : Prop := s.slotIndex < ROOM_SLOTS

def SlotsDisjoint (u : UserId) (F : Floor) : Prop :=
  ∀ i j s t, F.spot i = some s → F.spot j = some t → i ≠ j → s.userId = u → t.userId = u →
    s.isLegacy → t.isLegacy → Disjoint s.covered t.covered

/-- A large machine of the user, other than `mover`, covers the slot from
the slot before. -/
def Straddled (db : Db) (u slotIndex : ℕ) (mover : Option ℕ) : Prop :=
  ∃ p ∈ db.userMiner.rows, mover ≠ some p.1 ∧ p.2.userId = u ∧ p.2.specs.slotSize = 2
    ∧ p.2.slotIndex + 1 = slotIndex

instance (db : Db) (u slotIndex : ℕ) (mover : Option ℕ) :
    Decidable (Straddled db u slotIndex mover) :=
  inferInstanceAs (Decidable (∃ p ∈ db.userMiner.rows, _))

/-- A placement for user `u` whose code does not look at the slot before
its target finds no large machine there. -/
def KeepsClear (u : UserId) (db : Db) : Op → Prop
  | .installInventoryItem v slotIndex _ =>
      v = u → slotIndex % 2 = 0 → ¬Straddled db u slotIndex none
  | .moveMachine v machineId target =>
      v = u → target % 2 = 0 → ¬Straddled db u target (some machineId)
  | .retrieveFromVaultToRack v _ slotIndex => v = u → ¬Straddled db u slotIndex none
  | _ => True

instance (u : UserId) (db : Db) : ∀ op, Decidable (KeepsClear u db op)
  | .installInventoryItem v slotIndex _ =>
      inferInstanceAs (Decidable (v = u → slotIndex % 2 = 0 → ¬Straddled db u slotIndex none))
  | .moveMachine v machineId target =>
      inferInstanceAs (Decidable (v = u → target % 2 = 0 → ¬Straddled db u target (some machineId)))
  | .retrieveFromVaultToRack v _ slotIndex =>
      inferInstanceAs (Decidable (v = u → ¬Straddled db u slotIndex none))
  | .createInventoryWithOwnedMachine .. | .bulkCreateInventoryWithOwnedMachines ..
  | .removeInventoryItem .. | .removeMachine .. | .moveToVaultFromInventory ..
  | .moveToVaultFromRack .. | .retrieveFromVaultToInventory .. | .buyRoom .. | .installMiner ..
  | .uninstallMiner .. | .cleanupExpiredInventory .. => inferInstanceAs (Decidable True)

/-! ## Covered slots -/

/-- Two machines are apart when they start in different slots and neither
reaches into the other's. -/
theorem covered_disjoint_iff {s t : Spot} :
    Disjoint s.covered t.covered ↔
      s.slotIndex ≠ t.slotIndex ∧ (s.slotSize = 2 → s.slotIndex + 1 ≠ t.slotIndex)
        ∧ (t.slotSize = 2 → t.slotIndex + 1 ≠ s.slotIndex) := by
  unfold Spot.covered
  by_cases hs : s.slotSize = 2 <;> by_cases ht : t.slotSize = 2 <;>
    simp [hs, ht] <;> omega

theorem straddled_of_spot {db : Db} {u slotIndex i : ℕ} {mover : Option ℕ} {t : Spot}
    (ht : (floor db).spot i = some t) (hne : mover ≠ some i) (hu : t.userId = u)
    (hsize : t.slotSize = 2) (hslot : t.slotIndex + 1 = slotIndex) :
    Straddled db u slotIndex mover := by
  obtain ⟨m, hm, rfl⟩ := floor_spot_eq_some.mp ht
  exact ⟨(i, m), Table.mem_rows.mpr hm, hne, hu, hsize, hslot⟩

theorem SlotsDisjoint.mono {u : UserId} {F F' : Floor} (h : SlotsDisjoint u F)
    (hsub : ∀ {i s}, F'.spot i = some s → F.spot i = some s) : SlotsDisjoint u F' :=
  fun i j s t hs ht => h i j s t (hsub hs) (hsub ht)

/-- One machine is new or has moved; the others were there before, apart
from each other, and are apart from it. -/
theorem SlotsDisjoint.insert {u : UserId} {F F' : Floor} (h : SlotsDisjoint u F) (id : ℕ)
    (hsub : ∀ {i s}, i ≠ id → F'.spot i = some s → F.spot i = some s)
    (hnew : ∀ {s j t}, F'.spot id = some s → j ≠ id → F'.spot j = some t → s.userId = u →
      t.userId = u → s.isLegacy → Disjoint s.covered t.covered) : SlotsDisjoint u F' := by
  intro i j s t hs ht hij hsu htu hsl htl
  by_cases hi : i = id
  · subst hi
    exact hnew hs (Ne.symm hij) ht hsu htu hsl
  by_cases hj : j = id
  · subst hj
    exact (hnew ht hij hs htu hsu htl).symm
  · exact h i j s t (hsub hi hs) (hsub hj ht) hij hsu htu hsl htl

/-- **Clearing is enough.** What the queries of a placement leave is apart
from the placed machine, provided no large machine is left in the slot
before where the placement does not look. -/
theorem Cleared.disjoint {db : Db} {F₁ : Floor} {u : UserId} {slotIndex j : ℕ}
    {mover : Option ℕ} {looksBack : Prop} {s t : Spot}
    (hclear : Cleared (floor db) F₁ u slotIndex s.slotSize mover looksBack)
    (hvacant : F₁.Vacant u slotIndex mover) (hdisjoint : SlotsDisjoint u (floor db))
    (hlt : slotIndex < SLOTS) (hslot : s.slotIndex = slotIndex)
    (hback : (looksBack → slotIndex % 2 = 0) → ¬Straddled db u slotIndex mover)
    (ht : F₁.spot j = some t) (hne : mover ≠ some j) (hu : t.userId = u) :
    Disjoint s.covered t.covered := by
  have hsame : t.slotIndex ≠ slotIndex := fun heq => hne (hvacant j t ht hu heq)
  rw [covered_disjoint_iff, hslot]
  refine ⟨hsame.symm, fun hsize hnext => ?_, fun hsize hprev => ?_⟩
  · -- a machine in the second slot of a large one has been evicted
    have happart := hclear.apart ht hu hne (by omega)
    omega
  by_cases hlooks : looksBack → slotIndex % 2 = 0
  · exact hback hlooks (straddled_of_spot (hclear.kept ht) hne hu hsize hprev)
  · -- the code has looked back; only a second machine in that slot could be left
    obtain ⟨hlooks, hodd⟩ := Classical.not_imp.mp hlooks
    obtain ⟨i, t', hne', ht', hu', hslot'⟩ :=
      hclear.back hlooks (by omega) ht hu hne hprev hsize
    have hlegacy : t.isLegacy := by
      show t.slotIndex < 1000
      have hslots : slotIndex < 80 := hlt
      omega
    have hlegacy' : t'.isLegacy := by
      show t'.slotIndex < 1000
      rw [hslot']
      exact hlegacy
    have happart := hdisjoint i j t' t ht' (hclear.kept ht) hne' hu' hu hlegacy' hlegacy
    exact (covered_disjoint_iff.mp happart).1 hslot'

/-! ## Steps and runs -/

theorem rackSlotIndex_ge (cfg : Config) (roomNumber position : ℕ) :
    ROOM_SLOTS ≤ rackSlotIndex cfg roomNumber position := by
  show 1000 ≤ 1000 + _ + position
  omega

/-- A placed machine keeps the covered slots apart. -/
theorem SlotsDisjoint.place {db : Db} {F₁ : Floor} {u v slotIndex id : ℕ} {looksBack : Prop}
    {s : Spot} (h : SlotsDisjoint u (floor db))
    (hclear : Cleared (floor db) F₁ v slotIndex s.slotSize none looksBack)
    (hvacant : F₁.Vacant v slotIndex none) (hlt : slotIndex < SLOTS) (hu : s.userId = v)
    (hslot : s.slotIndex = slotIndex)
    (hback : v = u → (looksBack → slotIndex % 2 = 0) → ¬Straddled db u slotIndex none) :
    SlotsDisjoint u (F₁.place id s) := by
  refine h.insert id (fun hi hs => ?_) (fun hs hj ht hsu htu _ => ?_)
  · rw [place_spot_of_ne hi] at hs
    exact hclear.kept hs
  · rw [place_spot_self] at hs
    obtain rfl := Option.some.inj hs
    rw [place_spot_of_ne hj] at ht
    obtain rfl : v = u := hu.symm.trans hsu
    exact hclear.disjoint hvacant h hlt hslot (hback rfl) ht nofun htu

/-- **Step lemma.** -/
theorem SlotsDisjoint.step {cfg : Config} {db : Db} {u : UserId} {op : Op} {F' : Floor}
    (h : SlotsDisjoint u (floor db)) (hclear : KeepsClear u db op) (he : Effect cfg db op F') :
    SlotsDisjoint u F' := by
  cases he with
  | same => exact h
  | removed id => exact h.mono fun hs => (remove_spot_eq_some.mp hs).2
  | installed hlt hu hslot hcleared _ hvacant =>
      exact h.place hcleared hvacant hlt hu hslot fun hv heven => hclear hv (heven trivial)
  | retrieved hlt hu hslot hcleared _ hvacant =>
      exact h.place hcleared hvacant hlt hu hslot fun hv _ => hclear hv
  | @moved v id slotIndex F₁ s hlt hs hu hcleared hvacant =>
      have hs₁ : F₁.spot id = some s := (hcleared.moverKept rfl).trans hs
      refine h.insert id (fun hi ht => ?_) (fun hs' hj ht hsu htu _ => ?_)
      · rw [move_spot_of_ne hi] at ht
        exact hcleared.kept ht
      · rw [move_spot_self hs₁] at hs'
        obtain rfl := Option.some.inj hs'
        rw [move_spot_of_ne hj] at ht
        obtain rfl : v = u := hu.symm.trans hsu
        exact Cleared.disjoint (s := { s with slotIndex }) hcleared hvacant h hlt rfl
          (fun heven => hclear rfl (heven trivial)) ht (fun heq => hj (Option.some.inj heq).symm)
          htu
  | opened _ _ => exact h
  | @held v rackId inventoryId id rack s blocks item hitem hsize hcan hfresh =>
      -- a machine in a rack of a room is not below the rooms
      refine h.insert id (fun hi ht => ?_) (fun hs' _ _ _ _ hlegacy => ?_)
      · rw [hold_spot_of_ne hi] at ht
        exact ht
      · rw [hold_spot_self] at hs'
        obtain rfl := Option.some.inj hs'
        obtain ⟨room, -, hslot⟩ := hcan.slot
        have hge := rackSlotIndex_ge cfg room.roomNumber rack.position
        have hlt : s.slotIndex < ROOM_SLOTS := hlegacy
        omega
  | uninstalled _ _ => exact h.mono fun hs => (remove_spot_eq_some.mp hs).2

/-- **No shared slots.** In a run in which no placement for the user meets
a large machine in the slot before where the code does not look, the
covered slots of the user's machines outside the rooms stay disjoint. -/
theorem slots_disjoint {cfg : Config} {u : UserId} {db db' : Db} {ops : List Op}
    (h : SlotsDisjoint u (floor db)) (hclear : (system cfg).Meets (KeepsClear u) db ops)
    (hrun : (system cfg).run db ops = some db') : SlotsDisjoint u (floor db') :=
  (system cfg).run_invariant (I := fun db => SlotsDisjoint u (floor db))
    (fun _ _ _ h hC hstep => h.step hC (exec_effect (toOption_eq_some.mp hstep))) h hclear hrun

/-- A large machine in slots 0 and 1, and a small one installed in slot 1,
which evicts it. -/
def installedOver : List Op :=
  [.createInventoryWithOwnedMachine 1 (customMachine 2) none, .installInventoryItem 1 0 1,
    .createInventoryWithOwnedMachine 1 (customMachine 1) none, .installInventoryItem 1 1 2,
    .moveMachine 1 2 3]

theorem slots_disjoint_installedOver :
    ∃ db, (system defaults).run .empty installedOver = some db ∧ SlotsDisjoint 1 (floor db) :=
  have hrun : ((system defaults).run .empty installedOver).isSome := by decide +kernel
  ⟨_, (Option.some_get hrun).symm,
    slots_disjoint (fun _ _ _ _ hs => by cases hs) (by decide +kernel)
      (Option.some_get hrun).symm⟩

/-- The small machine is retrieved from the warehouse instead. -/
def retrievedOver : List Op :=
  [.createInventoryWithOwnedMachine 1 (customMachine 2) none, .installInventoryItem 1 0 1,
    .createInventoryWithOwnedMachine 1 (customMachine 1) none, .moveToVaultFromInventory 1 2,
    .retrieveFromVaultToRack 1 1 1]

theorem retrieve_shares_slot :
    ¬ ∀ (cfg : Config) (u : UserId) (db db' : Db) (ops : List Op), SlotsDisjoint u (floor db) →
        (system cfg).run db ops = some db' → SlotsDisjoint u (floor db') := by
  intro h
  have hshared : ∃ db ∈ (system defaults).run .empty retrievedOver,
      (floor db).spot 1 = some ⟨1, 0, 2⟩ ∧ (floor db).spot 2 = some ⟨1, 1, 1⟩ := by
    decide +kernel
  obtain ⟨db, hrun, hlarge, hsmall⟩ := hshared
  have hdisjoint := h defaults 1 .empty db retrievedOver (fun _ _ _ _ hs => by cases hs) hrun
    1 2 _ _ hlarge hsmall (by decide) rfl rfl (by decide) (by decide)
  exact (covered_disjoint_iff.mp hdisjoint).2.1 rfl rfl

end BlockMiner.Machines
