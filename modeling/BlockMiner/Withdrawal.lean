import BlockMiner.Service
import BlockMiner.Engine

/-!
# POL withdrawals

`createWithdrawal` reserves the amount of a withdrawal by taking it off the
balance; from then on the row moves through its statuses under three
independent hands:

- the admin (`approveWithdrawal`, `rejectWithdrawal`,
  `completeWithdrawal`), each with a check of its own before it writes;
- `updateTransactionStatus`, which reads the row, then updates it and, on
  the way to `failed`, refunds the amount. The check and the update are in
  one transaction, which READ COMMITTED does not make atomic;
- the senders `processPendingWithdrawals` (the cron) and
  `processApprovedWithdrawal`, which send on chain from a row read earlier
  and write their outcome afterwards, the second without a refund.

A row carries three observations no step reads: `refunds` and `sends`
count the refunds made and the payments sent for it, and `broadcast` says
that the payment went out, through a sender or, as the admin reports when
completing a row, by hand.
-/

namespace BlockMiner.Withdrawal

abbrev Address := Nat

inductive Status where
  | pending
  | approved
  | completed
  | failed
deriving DecidableEq

/-- The statuses in which a withdrawal still waits for its payment. -/
def Status.isOpen : Status → Bool
  | .pending | .approved => true
  | .completed | .failed => false

structure Row where
  userId : UserId
  amount : ℚ
  address : Option Address
  status : Status
  fundsReserved : Bool
  txHash : Option Nat
  completedAt : Option Nat
  refunds : Nat
  sends : Nat
  broadcast : Bool

structure Db where
  transactions : Table Row
  polBalance : UserId → ℚ

/-- Who called `updateTransactionStatus`: an admin route, or the cron, with
the withdrawals it has still to send. -/
inductive Caller where
  | admin
  | cron (rest : List (Nat × Row))

/-- A call that waits for its next step; a `Row` in it is as it was read. -/
inductive Call where
  | createBalance (u : UserId) (amount : ℚ) (address : Address)
  | createCommit (u : UserId) (amount : ℚ) (address : Address)
  | approveWrite (id : Nat)
  | updateRead (id : Nat) (status : Status) (txHash : Option Nat) (caller : Caller)
  | updateCommit (id : Nat) (status : Status) (txHash : Option Nat) (row : Row) (caller : Caller)
  /-- The cron, in `wallet.sendTransaction`. -/
  | sending (id : Nat) (row : Row) (rest : List (Nat × Row))
  /-- `processApprovedWithdrawal`, up to and in `wallet.sendTransaction`. -/
  | preflight (id : Nat) (row : Row)
  | saveHash (id : Nat) (txHash : Nat)
  /-- In `tx.wait(1)`. -/
  | waiting (id : Nat)
  | markCompleted (id : Nat)
  /-- The `catch` block, for `INSUFFICIENT_FUNDS`. -/
  | backToApproved (id : Nat)
  /-- The `catch` block, for any other error; `sent` says whether the
  payment had been sent before it. -/
  | markFailed (id : Nat) (sent : Bool)

inductive Request where
  | createWithdrawal (u : UserId) (amount : ℚ) (address : Address)
  | approveWithdrawal (id : Nat)
  | rejectWithdrawal (id : Nat)
  | completeWithdrawal (id : Nat) (txHash : Nat)
  | updateTransactionStatus (id : Nat) (status : Status) (txHash : Option Nat)
  | processPendingWithdrawals
  | processApprovedWithdrawal (id : Nat)

inductive Answer where
  | ok (now : Nat)
  /-- `sendTransaction` succeeded. -/
  | sent (txHash : Nat)
  /-- The hot wallet cannot pay for the transaction. -/
  | insufficientFunds
  /-- The step threw. -/
  | error

def WITHDRAW_MIN_POL : ℚ := 10

namespace Db

variable (db : Db)

/-- The status of a row, when it is there. -/
def status? (id : Nat) : Option Status := (db.transactions.row id).map (·.status)

/-! ### createWithdrawal -/

/-- `requestWithdrawal`'s validation and the query for a pending row. -/
def createWithdrawal (u : UserId) (amount : ℚ) (address : Address) : List Call :=
  if amount < WITHDRAW_MIN_POL then []
  else
    match db.transactions.findFirst fun _ r => r.userId = u ∧ r.status = .pending with
    | some _ => []
    | none => [.createBalance u amount address]

/-- The balance check. -/
def createBalance (u : UserId) (amount : ℚ) (address : Address) : Option Call :=
  if db.polBalance u < amount then none else some (.createCommit u amount address)

def createCommit (u : UserId) (amount : ℚ) (address : Address) : Db where
  transactions := db.transactions.insert
    { userId := u, amount, address := some address, status := .pending, fundsReserved := true,
      txHash := none, completedAt := none, refunds := 0, sends := 0, broadcast := false }
  polBalance := Function.update db.polBalance u (db.polBalance u - amount)

/-! ### Status writes -/

/-- `prisma.transaction.update` with `data: { status }`, and `completedAt`
for a completed row. A row recorded as completed counts as paid. -/
def setStatus (id : Nat) (status : Status) (completedAt : Option Nat) : Db :=
  { db with
    transactions := db.transactions.modify id fun r =>
      { r with
        status, completedAt := completedAt.or r.completedAt
        broadcast := r.broadcast || status = .completed } }

/-- Whether `updateTransactionStatus` refunds, from the row it has read. -/
def refundDue (status : Status) (row : Row) : Bool :=
  status = .failed ∧ row.status ≠ .failed ∧ row.status ≠ .completed ∧ row.fundsReserved

/-- The writes of `updateTransactionStatus`. -/
def updateTransactionStatus (id : Nat) (status : Status) (txHash : Option Nat) (row : Row)
    (now : Nat) : Db :=
  let refund := refundDue status row
  { transactions := db.transactions.modify id fun r =>
      { r with
        status, txHash := txHash.or row.txHash
        completedAt := if status = .completed then some now else row.completedAt
        refunds := r.refunds + if refund then 1 else 0
        broadcast := r.broadcast || status = .completed }
    polBalance := if refund then
        Function.update db.polBalance row.userId (db.polBalance row.userId + row.amount)
      else db.polBalance }

/-- A payment for row `id` was accepted by the network. -/
def recordSend (id : Nat) : Db :=
  { db with
    transactions := db.transactions.modify id fun r =>
      { r with sends := r.sends + 1, broadcast := true } }

def saveHash (id txHash : Nat) : Db :=
  { db with transactions := db.transactions.modify id fun r => { r with txHash := some txHash } }

end Db

/-! ## The service -/

/-- The `for` loop of the cron: rows without an address are skipped. -/
def cronNext : List (Nat × Row) → Option Call
  | [] => none
  | (id, row) :: rest => if row.address.isNone then cronNext rest else some (.sending id row rest)

def Caller.next : Caller → Option Call
  | .admin => none
  | .cron rest => cronNext rest

def start (db : Db) : Request → List Call
  | .createWithdrawal u amount address => db.createWithdrawal u amount address
  | .approveWithdrawal id => if db.status? id = some .pending then [.approveWrite id] else []
  | .rejectWithdrawal id =>
      if (db.status? id).any (·.isOpen) then [.updateRead id .failed none .admin] else []
  | .completeWithdrawal id txHash =>
      if (db.status? id).any (·.isOpen) then [.updateRead id .completed (some txHash) .admin]
      else []
  | .updateTransactionStatus id status txHash => [.updateRead id status txHash .admin]
  | .processPendingWithdrawals =>
      (cronNext (db.transactions.findMany fun _ r => r.status = .approved)).toList
  | .processApprovedWithdrawal id =>
      match db.transactions.row id with
      | none => []
      | some row => if row.status = .approved then [.preflight id row] else []

def resume (db : Db) : Call → Answer → Option (Db × Option Call)
  | .createBalance u amount address, .ok _ => some (db, db.createBalance u amount address)
  | .createCommit u amount address, .ok _ => some (db.createCommit u amount address, none)
  | .createBalance _ _ _, .error | .createCommit _ _ _, .error => some (db, none)
  | .approveWrite id, .ok _ => some (db.setStatus id .approved none, none)
  | .approveWrite _, .error => some (db, none)
  | .updateRead id status txHash caller, .ok _ =>
      match db.transactions.row id with
      | none => some (db, caller.next)
      | some row => some (db, some (.updateCommit id status txHash row caller))
  | .updateCommit id status txHash row caller, .ok now =>
      some (db.updateTransactionStatus id status txHash row now, caller.next)
  -- the admin routes answer 500, the cron logs and goes on
  | .updateRead _ _ _ caller, .error | .updateCommit _ _ _ _ caller, .error =>
      some (db, caller.next)
  | .sending id _ rest, .sent txHash =>
      some (db.recordSend id, some (.updateRead id .completed (some txHash) (.cron rest)))
  | .sending _ _ rest, .error => some (db, cronNext rest)
  | .preflight id _, .sent txHash => some (db.recordSend id, some (.saveHash id txHash))
  | .preflight id _, .insufficientFunds => some (db, some (.backToApproved id))
  | .preflight id _, .error => some (db, some (.markFailed id false))
  | .saveHash id txHash, .ok _ => some (db.saveHash id txHash, some (.waiting id))
  | .waiting id, .ok _ => some (db, some (.markCompleted id))
  | .markCompleted id, .ok now => some (db.setStatus id .completed (some now), none)
  | .saveHash id _, .error | .waiting id, .error | .markCompleted id, .error =>
      some (db, some (.markFailed id true))
  | .backToApproved id, .ok _ => some (db.setStatus id .approved none, none)
  | .markFailed id _, .ok _ => some (db.setStatus id .failed none, none)
  | .backToApproved _, .error | .markFailed _ _, .error => some (db, none)
  | _, _ => none

def service : Service Db Call Request Answer where
  start db r := some (db, start db r)
  resume := resume

/-! ## What a step does to a row -/

/-- The row for which a step sends a payment. -/
def sendsFor : Call → Answer → Option Nat
  | .sending id _ _, .sent _ | .preflight id _, .sent _ => some id
  | _, _ => none

/-- The row whose status a step writes, with the status, and whether the
step refunds it. -/
def statusWrite : Call → Answer → Option (Nat × Status × Bool)
  | .approveWrite id, .ok _ | .backToApproved id, .ok _ => some (id, .approved, false)
  | .updateCommit id status _ row _, .ok _ => some (id, status, Db.refundDue status row)
  | .markCompleted id, .ok _ => some (id, .completed, false)
  | .markFailed id _, .ok _ => some (id, .failed, false)
  | _, _ => none

end BlockMiner.Withdrawal
