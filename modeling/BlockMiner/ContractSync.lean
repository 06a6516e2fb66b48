import BlockMiner.Deposit

/-!
# The scan of the deposit contract

`runContractDepositSyncOnce` asks for the `DepositReceived` logs of the blocks
after `lastScannedBlock`, registers a deposit row for each beneficiary it knows,
and moves the cursor. A run waits at every query, so runs that the timer starts
early overlap; each has its own `Scan` and the logs it has still to look at.

A query that fails ends the run and leaves the cursor. An insert that fails is
caught: the loop goes on and the cursor moves past the log.

`firstScannedBlock`, `processed` and `created` are records for the statements to
talk about; no step reads them.
-/

namespace BlockMiner.ContractSync

open Deposit (Address)

/-! ## The chain -/

/-- A log of the contract. -/
structure Log where
  index : ℕ
  /-- The beneficiary, when the log parses as `DepositReceived`. -/
  userId : Option Address
  /-- `none` where it is empty. -/
  transactionHash : Option ℕ

/-- A log that the loop does not skip. -/
structure Received where
  block : ℕ
  index : ℕ
  beneficiary : Address
  txHash : ℕ
deriving DecidableEq

/-- The deposits that a block has received. The chain is the list of its blocks. -/
def received (chain : List (List Log)) (block : ℕ) : List Received :=
  (chain.getD block []).filterMap fun log =>
    log.userId.bind fun beneficiary =>
      log.transactionHash.map fun txHash => ⟨block, log.index, beneficiary, txHash⟩

/-! ## State -/

structure Config where
  SMART_CONTRACT_ADDRESS : Option Address
  CONTRACT_DEPOSIT_SYNC_FROM_BLOCK : Option ℕ

structure Db where
  chain : List (List Log)
  deposits : Deposit.Db
  lastScannedBlock : Option ℕ
  /-- The lowest block that a completed run has scanned. -/
  firstScannedBlock : Option ℕ
  /-- The logs that the loop has been through, and whether the beneficiary was
  linked to a user. -/
  processed : List (Received × Bool)
  /-- The hashes of the rows that the scan has created. -/
  created : List ℕ

/-- The blocks of a run. -/
structure Scan where
  fromBlock : ℕ
  latest : ℕ
deriving DecidableEq

def Scan.logs (scan : Scan) (chain : List (List Log)) : List Received :=
  (List.range' scan.fromBlock (scan.latest + 1 - scan.fromBlock)).flatMap (received chain)

/-! ## Calls -/

/-- What a run waits for; `rest` are the logs after the present one. -/
inductive Call where
  | getBlockNumber
  | getLogs (scan : Scan)
  | findUser (scan : Scan) (log : Received) (rest : List Received)
  | findExisting (scan : Scan) (log : Received) (userId : UserId) (rest : List Received)
  | create (scan : Scan) (log : Received) (userId : UserId) (rest : List Received)
deriving DecidableEq

inductive Request where
  | runContractDepositSyncOnce
  /-- The chain grows by a block. -/
  | mine (logs : List Log)
  /-- Other requests have changed the tables. -/
  | others (deposits : Deposit.Db)

inductive Answer where
  /-- The node may be behind. -/
  | blockNumber (latest : ℕ)
  | ok
  | error
deriving DecidableEq

/-- Deposit rows are not deleted, and keep their hash. -/
def KeepsRows (db db' : Deposit.Db) : Prop :=
  ∀ r ∈ db.transactions.rows, ∃ r' ∈ db'.transactions.rows,
    r'.1 = r.1 ∧ r'.2.txHash = r.2.txHash

instance (db db' : Deposit.Db) : Decidable (KeepsRows db db') :=
  inferInstanceAs (Decidable (∀ r ∈ db.transactions.rows, _))

def DEFAULT_LOOKBACK : ℕ := 5000

namespace Db

variable (db : Db)

def fromBlock (config : Config) (latest : ℕ) : ℕ :=
  match db.lastScannedBlock with
  | none =>
      config.CONTRACT_DEPOSIT_SYNC_FROM_BLOCK.getD
        (if DEFAULT_LOOKBACK < latest then latest - DEFAULT_LOOKBACK + 1 else 0)
  | some last => last + 1

/-- The cursor moves to the latest block of the run. -/
def finish (scan : Scan) : Db :=
  { db with
    lastScannedBlock := some scan.latest
    firstScannedBlock :=
      some (db.firstScannedBlock.elim scan.fromBlock fun first => min first scan.fromBlock) }

/-- `for (const log of logs)`. -/
def next (scan : Scan) : List Received → Db × Option Call
  | [] => (db.finish scan, none)
  | log :: rest => (db, some (.findUser scan log rest))

/-- The loop has been through a log. -/
def process (log : Received) (linked : Bool) : Db :=
  { db with processed := db.processed ++ [(log, linked)] }

def walletUser (beneficiary : Address) : Option (ℕ × Deposit.UserRow) :=
  db.deposits.users.findFirst fun _ user => user.walletAddress = some beneficiary

def existing (txHash : ℕ) : Option (ℕ × Deposit.TransactionRow) :=
  db.deposits.transactions.findFirst fun _ r => r.txHash = some ⟨txHash, 0⟩

def register (userId : UserId) (txHash : ℕ) : Db :=
  { db with
    deposits := db.deposits.insertTransaction (Deposit.Db.pendingRow userId 0 ⟨txHash, 0⟩)
    created := db.created ++ [txHash] }

end Db

/-! ## The service -/

variable (config : Config)

def start (db : Db) : Request → Option (Db × List Call)
  | .runContractDepositSyncOnce =>
      some (db, if config.SMART_CONTRACT_ADDRESS.isSome then [.getBlockNumber] else [])
  | .mine logs => some ({ db with chain := db.chain ++ [logs] }, [])
  | .others deposits =>
      if KeepsRows db.deposits deposits then some ({ db with deposits := deposits }, []) else none

def resume (db : Db) : Call → Answer → Option (Db × Option Call)
  | .getBlockNumber, .blockNumber latest =>
      if latest < db.chain.length then
        let fromBlock := db.fromBlock config latest
        if latest < fromBlock then some ({ db with lastScannedBlock := some latest }, none)
        else some (db, some (.getLogs ⟨fromBlock, latest⟩))
      else none
  | .getLogs scan, .ok => some (db.next scan (scan.logs db.chain))
  | .findUser scan log rest, .ok =>
      match db.walletUser log.beneficiary with
      | none => some ((db.process log false).next scan rest)
      | some (userId, _) => some (db, some (.findExisting scan log userId rest))
  | .findExisting scan log userId rest, .ok =>
      match db.existing log.txHash with
      | some _ => some ((db.process log true).next scan rest)
      | none => some (db, some (.create scan log userId rest))
  | .create scan log userId rest, .ok =>
      some (((db.register userId log.txHash).process log true).next scan rest)
  -- the insert is caught
  | .create scan log _ rest, .error => some ((db.process log true).next scan rest)
  | .getBlockNumber, .error | .getLogs _, .error | .findUser _ _ _, .error
  | .findExisting _ _ _ _, .error => some (db, none)
  | _, _ => none

def service : Service Db Call Request Answer where
  start := start config
  resume := resume config

/-- Both queries of a log at one moment are those of `Deposit.Db.contractLog`. -/
theorem contractLog_eq (db : Db) (log : Received) :
    (db.deposits.contractLog log.beneficiary log.txHash).2
      = match db.walletUser log.beneficiary, db.existing log.txHash with
        | some (userId, _), none => [.syncCreate userId log.txHash]
        | _, _ => [] := by
  unfold Deposit.Db.contractLog Db.walletUser Db.existing
  cases db.deposits.users.findFirst fun _ user => user.walletAddress = some log.beneficiary with
  | none => rfl
  | some found =>
      cases db.deposits.transactions.findFirst fun _ r => r.txHash = some ⟨log.txHash, 0⟩ with
      | none => rfl
      | some _ => rfl

end BlockMiner.ContractSync
