import Mathlib.Logic.Function.Basic

/-!
# Registries: items that live in one slot each

Items are registered to an owner with the kind of slot they are in; slots
belong to an owner and may hold an item. A registry is consistent when the
two sides agree: what a slot holds is registered to the slot's owner with
the slot's kind, no item is held twice, and every item is held.

The rules say which changes keep a registry consistent: registering a new
item, transferring an item from one slot to another, emptying slots that
hold no item, and disposing of an item with its slot.
-/

namespace BlockMiner

@[ext]
structure Registry (ι π υ κ : Type*) where
  item : ι → Option (υ × κ)
  slot : π → Option (υ × Option ι)

namespace Registry

variable {ι π υ κ : Type*}

/-- The slot exists and holds the item. -/
def Holds (R : Registry ι π υ κ) (p : π) (i : ι) : Prop := ∃ u, R.slot p = some (u, some i)

structure Consistent (kind : π → κ) (R : Registry ι π υ κ) : Prop where
  sound : ∀ {p u i}, R.slot p = some (u, some i) → R.item i = some (u, kind p)
  unique : ∀ {p q i}, R.Holds p i → R.Holds q i → p = q
  placed : ∀ {i x}, R.item i = some x → ∃ p, R.Holds p i

def setItem [DecidableEq ι] (R : Registry ι π υ κ) (i : ι) (x : Option (υ × κ)) :
    Registry ι π υ κ :=
  { R with item := Function.update R.item i x }

def setSlot [DecidableEq π] (R : Registry ι π υ κ) (p : π) (x : Option (υ × Option ι)) :
    Registry ι π υ κ :=
  { R with slot := Function.update R.slot p x }

theorem holds_setSlot [DecidableEq π] {R : Registry ι π υ κ} {p q : π} {i : ι}
    {x : Option (υ × Option ι)} :
    (R.setSlot p x).Holds q i ↔ (q = p ∧ ∃ u, x = some (u, some i)) ∨ (q ≠ p ∧ R.Holds q i) := by
  simp only [Holds, setSlot, Function.update_apply]
  split
  case isTrue h => simp [h]
  case isFalse h => simp [h]

namespace Consistent

variable {kind : π → κ} {R : Registry ι π υ κ} (h : R.Consistent kind)
include h

/-- **One place.** An item is held by exactly one slot, of its kind. -/
theorem one_place {i : ι} {u : υ} {k : κ} (hi : R.item i = some (u, k)) :
    ∃ p, kind p = k ∧ ∀ q, R.Holds q i ↔ q = p := by
  obtain ⟨p, hp⟩ := h.placed hi
  obtain ⟨v, hv⟩ := id hp
  have hkind := (h.sound hv).symm.trans hi
  refine ⟨p, (Prod.mk.inj (Option.some.inj hkind)).2, fun q => ⟨fun hq => h.unique hq hp, ?_⟩⟩
  rintro rfl
  exact hp

/-- An item that is not registered is in no slot. -/
theorem not_holds {i : ι} (hi : R.item i = none) (p : π) : ¬R.Holds p i := by
  rintro ⟨u, hp⟩
  rw [h.sound hp] at hi
  cases hi

/-- Some slots that hold no item are emptied. -/
theorem vacate {R' : Registry ι π υ κ} (hitem : R'.item = R.item)
    (hslot : ∀ p, R'.slot p = R.slot p ∨ R'.slot p = none ∧ ∀ i, ¬R.Holds p i) :
    R'.Consistent kind := by
  have hholds {p i} : R'.Holds p i ↔ R.Holds p i := by
    rcases hslot p with heq | ⟨hnone, hempty⟩
    · simp only [Holds, heq]
    · refine iff_of_false ?_ (hempty i)
      rintro ⟨u, hp⟩
      rw [hnone] at hp
      cases hp
  refine ⟨fun {p u i} hp => ?_, fun hp hq => h.unique (hholds.mp hp) (hholds.mp hq), fun hi => ?_⟩
  · rcases hslot p with heq | ⟨hnone, -⟩
    · rw [hitem]
      exact h.sound (heq ▸ hp)
    · rw [hnone] at hp
      cases hp
  · rw [hitem] at hi
    obtain ⟨p, hp⟩ := h.placed hi
    exact ⟨p, hholds.mpr hp⟩

variable [DecidableEq ι] [DecidableEq π]

/-- A new item in a slot that holds none. -/
theorem register {i : ι} {p : π} (u : υ) (hi : R.item i = none) (hp : ∀ j, ¬R.Holds p j) :
    ((R.setItem i (some (u, kind p))).setSlot p (some (u, some i))).Consistent kind := by
  constructor
  case sound =>
    intro q v j hq
    simp only [setSlot, setItem, Function.update_apply] at hq ⊢
    by_cases hqp : q = p
    · rw [if_pos hqp] at hq
      obtain ⟨rfl, hj⟩ := Prod.mk.inj (Option.some.inj hq)
      obtain rfl := Option.some.inj hj
      rw [if_pos rfl, hqp]
    · rw [if_neg hqp] at hq
      rw [if_neg, h.sound hq]
      rintro rfl
      exact h.not_holds hi q ⟨v, hq⟩
  case unique =>
    intro q q' j hq hq'
    rcases holds_setSlot.mp hq with ⟨rfl, v, hv⟩ | ⟨-, hold⟩ <;>
      rcases holds_setSlot.mp hq' with ⟨rfl, v', hv'⟩ | ⟨-, hold'⟩
    · rfl
    · obtain rfl := Option.some.inj (Prod.mk.inj (Option.some.inj hv)).2
      exact absurd hold' (h.not_holds hi q')
    · obtain rfl := Option.some.inj (Prod.mk.inj (Option.some.inj hv')).2
      exact absurd hold (h.not_holds hi q)
    · exact h.unique hold hold'
  case placed =>
    intro j x hj
    by_cases hji : j = i
    · subst hji
      exact ⟨p, holds_setSlot.mpr (Or.inl ⟨rfl, u, rfl⟩)⟩
    · have hj' : R.item j = some x := (Function.update_of_ne hji _ _).symm.trans hj
      obtain ⟨q, hq⟩ := h.placed hj'
      refine ⟨q, holds_setSlot.mpr (Or.inr ⟨?_, hq⟩)⟩
      rintro rfl
      exact hp j hq

/-- An item is disposed of together with its slot. -/
theorem dispose {p : π} {i : ι} (hp : R.Holds p i) :
    ((R.setSlot p none).setItem i none).Consistent kind := by
  have hholds {r j} : ((R.setSlot p none).setItem i none).Holds r j ↔ r ≠ p ∧ R.Holds r j := by
    show (R.setSlot p none).Holds r j ↔ _
    rw [holds_setSlot]
    refine or_iff_right ?_
    rintro ⟨-, u, hu⟩
    cases hu
  constructor
  case sound =>
    intro r v j hr
    obtain ⟨hrp, -⟩ := hholds.mp ⟨v, hr⟩
    have hr' : R.slot r = some (v, some j) := (Function.update_of_ne hrp _ _).symm.trans hr
    refine (Function.update_of_ne ?_ _ _).trans (h.sound hr')
    rintro rfl
    exact hrp (h.unique ⟨v, hr'⟩ hp)
  case unique =>
    intro r r' j hr hr'
    exact h.unique (hholds.mp hr).2 (hholds.mp hr').2
  case placed =>
    intro j x hj
    have hji : j ≠ i := by
      rintro rfl
      have hnone : ((R.setSlot p none).setItem j none).item j = none := Function.update_self _ _ _
      cases hj.symm.trans hnone
    have hj' : R.item j = some x := (Function.update_of_ne hji _ _).symm.trans hj
    obtain ⟨r, hr⟩ := h.placed hj'
    refine ⟨r, hholds.mpr ⟨?_, hr⟩⟩
    rintro rfl
    obtain ⟨u, hu⟩ := hp
    obtain ⟨v, hv⟩ := hr
    exact hji (Option.some.inj (Prod.mk.inj (Option.some.inj (hv.symm.trans hu))).2)

/-- An item changes its slot: it is disposed of and registered again. -/
theorem transfer {p q : π} {u : υ} {i : ι} (hp : R.slot p = some (u, some i))
    (hq : ∀ j, ¬R.Holds q j) :
    (((R.setSlot q (some (u, some i))).setItem i (some (u, kind q))).setSlot p none).Consistent
      kind := by
  have hne : p ≠ q := by
    rintro rfl
    exact hq i ⟨u, hp⟩
  have hdisposed := h.dispose ⟨u, hp⟩
  have hfree : ∀ j, ¬((R.setSlot p none).setItem i none).Holds q j := by
    rintro j ⟨v, hv⟩
    exact hq j ⟨v, (Function.update_of_ne hne.symm _ _).symm.trans hv⟩
  have hregistered := hdisposed.register u (Function.update_self _ _ _) hfree
  have heq : ((R.setSlot q (some (u, some i))).setItem i (some (u, kind q))).setSlot p none
      = (((R.setSlot p none).setItem i none).setItem i (some (u, kind q))).setSlot q
          (some (u, some i)) :=
    Registry.ext (Function.update_idem ..).symm (Function.update_comm hne.symm ..)
  rw [heq]
  exact hregistered

end Consistent

end Registry

end BlockMiner
