import BlockMiner.Engine
import BlockMiner.Transactions
import BlockMiner.Withdrawal

/-!
# Withdrawal requests, statement by statement

`createWithdrawal` and `updateTransactionStatus` of `models/walletModel.js`
with the statements of their transactions as steps, and with the engine whose
in-memory balance they move. `applyUserBalanceDelta` runs inside the
transaction, before its commit, and changes the engine at once; the commit can
still fail. The rows and the writes are those of the withdrawal model, whose
ghost counters nothing here reads.

`runtimeSet` says whether `miningRuntime.js` has been given the engine, which
`server.js` hands to `miningEngineInstance.js` only.
-/

namespace BlockMiner.WithdrawalRequests

open Withdrawal (Address Status Row)

structure Wallet where
  db : Withdrawal.Db
  engine : Engine

inductive Write where
  | debit (u : UserId) (amount : ℚ)
  | create (u : UserId) (amount : ℚ) (address : Address)
  | setStatus (id : ℕ) (status : Status) (txHash : Option ℕ) (row : Row) (now : ℕ)
  | refund (row : Row)

/-- A row lock. -/
inductive Lock where
  | user (u : UserId)
  | transaction (id : ℕ)
deriving DecidableEq

inductive Point where
  | findPending (u : UserId) (amount : ℚ) (address : Address)
  | findUser (u : UserId) (amount : ℚ) (address : Address)
  | debitUser (u : UserId) (amount : ℚ) (address : Address)
  | createRow (u : UserId) (amount : ℚ) (address : Address)
  | createDelta (u : UserId) (amount : ℚ)
  | createCommit (u : UserId) (amount : ℚ)
  | findTransaction (id : ℕ) (status : Status) (txHash : Option ℕ)
  | updateTransaction (id : ℕ) (status : Status) (txHash : Option ℕ) (row : Row)
  | refundUser (id : ℕ) (status : Status) (row : Row)
  | refundDelta (id : ℕ) (status : Status) (row : Row)
  /-- With the row that was refunded, if one was. -/
  | updateCommit (id : ℕ) (status : Status) (refunded : Option Row)
  /-- The commit of a transaction that found no row. -/
  | done

inductive Request where
  | createWithdrawal (u : UserId) (amount : ℚ) (address : Address)
  | updateTransactionStatus (id : ℕ) (status : Status) (txHash : Option ℕ)

inductive Answer where
  | ok (now : ℕ)
  | error
deriving DecidableEq

/-! ## Writes -/

def addBalance (db : Withdrawal.Db) (u : UserId) (delta : ℚ) : Withdrawal.Db :=
  { db with polBalance := Function.update db.polBalance u (db.polBalance u + delta) }

def createRow (db : Withdrawal.Db) (u : UserId) (amount : ℚ) (address : Address) :
    Withdrawal.Db :=
  { db with
    transactions := db.transactions.insert
      { userId := u, amount, address := some address, status := .pending, fundsReserved := true,
        txHash := none, completedAt := none, refunds := 0, sends := 0, broadcast := false } }

def setStatus (db : Withdrawal.Db) (id : ℕ) (status : Status) (txHash : Option ℕ) (row : Row)
    (now : ℕ) : Withdrawal.Db :=
  { db with
    transactions := db.transactions.modify id fun r =>
      { r with
        status, txHash := txHash.or row.txHash
        completedAt := if status = .completed then some now else row.completedAt } }

def apply (w : Wallet) : Write → Wallet
  | .debit u amount => { w with db := addBalance w.db u (-amount) }
  | .create u amount address => { w with db := createRow w.db u amount address }
  | .setStatus id status txHash row now => { w with db := setStatus w.db id status txHash row now }
  | .refund row => { w with db := addBalance w.db row.userId row.amount }

def locks : Write → List Lock
  | .debit u _ => [.user u]
  | .create _ _ _ => []
  | .setStatus id _ _ _ _ => [.transaction id]
  | .refund row => [.user row.userId]

/-! ## Programs -/

def start : Request → Option Point
  | .createWithdrawal u amount address => some (.findPending u amount address)
  | .updateTransactionStatus id status txHash => some (.findTransaction id status txHash)

def needs : Point → Answer → List Lock
  | .debitUser u _ _, .ok _ => [.user u]
  | .updateTransaction id _ _ _, .ok _ => [.transaction id]
  | .refundUser _ _ row, .ok _ => [.user row.userId]
  | _, _ => []

def findPending (w : Wallet) (u : UserId) : Option (ℕ × Row) :=
  w.db.transactions.findFirst fun _ r => r.userId = u ∧ r.status = .pending

variable (runtimeSet : Bool)

def moveEngine (u : UserId) (delta : ℚ) (w : Wallet) : Wallet :=
  { w with engine := w.engine.applyUserBalanceDelta runtimeSet u delta }

/-- A call to `applyUserBalanceDelta` does not fail; any other statement
can, and the transaction is rolled back. -/
def step : Point → Wallet → Answer → Option (Next Wallet Write Point)
  | .findPending u amount address, w, .ok _ =>
      match findPending w u with
      | some _ => some (.rollback none)
      | none => some (.goto (.findUser u amount address))
  | .findUser u amount address, w, .ok _ =>
      if w.db.polBalance u < amount then some (.rollback none)
      else some (.goto (.debitUser u amount address))
  | .debitUser u amount address, _, .ok _ =>
      some (.write (.debit u amount) (.createRow u amount address))
  | .createRow u amount address, _, .ok _ =>
      some (.write (.create u amount address) (.createDelta u amount))
  | .createDelta u amount, _, .ok _ =>
      some (.put (moveEngine runtimeSet u (-amount)) (some (.createCommit u amount)))
  | .findTransaction id status txHash, w, .ok _ =>
      match w.db.transactions.row id with
      | none => some (.goto .done)
      | some row => some (.goto (.updateTransaction id status txHash row))
  | .updateTransaction id status txHash row, _, .ok now =>
      some (.write (.setStatus id status txHash row now)
        (if Withdrawal.Db.refundDue status row then .refundUser id status row
        else .updateCommit id status none))
  | .refundUser id status row, _, .ok _ => some (.write (.refund row) (.refundDelta id status row))
  | .refundDelta id status row, _, .ok _ =>
      some (.put (moveEngine runtimeSet row.userId row.amount)
        (some (.updateCommit id status (some row))))
  | .createCommit _ _, _, .ok _ | .updateCommit _ _ _, _, .ok _ | .done, _, .ok _ =>
      some (.commit none)
  | .createDelta _ _, _, .error | .refundDelta _ _ _, _, .error => none
  | _, _, .error => some (.rollback none)

def transactions : Transactions Wallet Write Lock Request Point Answer where
  apply := apply
  locks := locks
  start := start
  needs := needs
  step := step runtimeSet
  covers {p w a wr p'} h k hk := by
    cases a with
    | error => cases p <;> cases h
    | ok now =>
        cases p with
        | debitUser | createRow | updateTransaction | refundUser =>
            obtain ⟨rfl, rfl⟩ := h
            exact hk
        | findPending u amount address =>
            simp only [step] at h
            split at h <;> cases h
        | findUser u amount address =>
            simp only [step] at h
            split at h <;> cases h
        | findTransaction id status txHash =>
            simp only [step] at h
            split at h <;> cases h
        | _ => cases h

end BlockMiner.WithdrawalRequests
