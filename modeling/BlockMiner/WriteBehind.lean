import Mathlib.Algebra.Order.Group.Defs
import Mathlib.Tactic.Abel

/-!
# A balance kept in two copies

A store and a cache that both hold the balance of one account. The cache
remembers in `mark` how much of its balance the store has, and `flush` passes
the difference on. A change may go to both (`shift`), to the store alone
(`credit`), to the cache with its mark (`notify`), or to the balance of the
cache alone (`spend`), to be flushed later.

A check against one copy does not see what was admitted against the other.
`Ordered` is the order of the three numbers that keeps the account from going
below zero; it is lost by a change that the balance of the cache does not
cover.
-/

namespace BlockMiner

structure Copies (α : Type*) where
  store : α
  balance : α
  mark : α

namespace Copies

variable {α : Type*} [AddCommGroup α]

/-- What the account holds. -/
def settled (c : Copies α) : α := c.store + (c.balance - c.mark)

def credit (amount : α) (c : Copies α) : Copies α := { c with store := c.store + amount }

def notify (amount : α) (c : Copies α) : Copies α :=
  { c with balance := c.balance + amount, mark := c.mark + amount }

def shift (amount : α) (c : Copies α) : Copies α := (c.credit amount).notify amount

def spend (amount : α) (c : Copies α) : Copies α := { c with balance := c.balance - amount }

def flush (c : Copies α) : Copies α := ⟨c.settled, c.balance, c.balance⟩

theorem notify_notify (a b : α) (c : Copies α) : (c.notify a).notify b = c.notify (a + b) := by
  simp only [notify, add_assoc]

theorem notify_zero (c : Copies α) : c.notify 0 = c := by
  simp only [notify, add_zero]

variable [LinearOrder α]

/-- The cache is not overdrawn, it owes at most what it has, and the store
has at least what the cache takes for written. -/
structure Ordered (c : Copies α) : Prop where
  nonneg : 0 ≤ c.balance
  owing : c.balance ≤ c.mark
  written : c.mark ≤ c.store

theorem Ordered.store_nonneg {c : Copies α} (h : c.Ordered) : 0 ≤ c.store :=
  h.nonneg.trans (h.owing.trans h.written)

variable [IsOrderedAddMonoid α]

theorem Ordered.balance_le_settled {c : Copies α} (h : c.Ordered) : c.balance ≤ c.settled := by
  have hgap : 0 ≤ c.store - c.mark := sub_nonneg.mpr h.written
  have heq : c.settled = c.balance + (c.store - c.mark) := by
    unfold settled
    abel
  rw [heq]
  exact le_add_of_nonneg_right hgap

theorem Ordered.settled_nonneg {c : Copies α} (h : c.Ordered) : 0 ≤ c.settled :=
  h.nonneg.trans h.balance_le_settled

theorem Ordered.credit {c : Copies α} {amount : α} (h : c.Ordered) (hamount : 0 ≤ amount) :
    (c.credit amount).Ordered where
  nonneg := h.nonneg
  owing := h.owing
  written := h.written.trans (le_add_of_nonneg_right hamount)

/-- A change of both copies, which a withdrawal makes with a negative amount. -/
theorem Ordered.shift {c : Copies α} {amount : α} (h : c.Ordered)
    (hcovered : 0 ≤ c.balance + amount) : (c.shift amount).Ordered where
  nonneg := hcovered
  owing := add_le_add_left h.owing amount
  written := add_le_add_left h.written amount

theorem Ordered.spend {c : Copies α} {amount : α} (h : c.Ordered) (hamount : 0 ≤ amount)
    (hcovered : amount ≤ c.balance) : (c.spend amount).Ordered where
  nonneg := sub_nonneg.mpr hcovered
  owing := (sub_le_self _ hamount).trans h.owing
  written := h.written

theorem Ordered.flush {c : Copies α} (h : c.Ordered) : c.flush.Ordered where
  nonneg := h.nonneg
  owing := le_rfl
  written := h.balance_le_settled

/-- Both copies learn of some of what the store is credited with. -/
theorem Ordered.credit_notify {c : Copies α} {amount known : α} (h : c.Ordered)
    (hknown : 0 ≤ known) (hamount : known ≤ amount) :
    ((c.credit amount).notify known).Ordered where
  nonneg := add_nonneg h.nonneg hknown
  owing := add_le_add_left h.owing known
  written := add_le_add h.written hamount

end Copies

end BlockMiner
