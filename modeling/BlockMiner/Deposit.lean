import BlockMiner.Service
import BlockMiner.Engine

/-!
# POL deposits

The five ways a deposit reaches a user's `polBalance`, as requests of one
service over the `transactions`, `users` and `deposit_tickets` tables:

- `submitDeposit` registers a row that waits for verification;
- `runDepositVerifier` verifies all waiting rows in parallel and credits
  what the chain shows (`verifyOnePendingDeposit`);
- `runContractDepositSyncOnce` registers rows for contract events;
- `createDepositRequest`, called by the block scanner and by
  `requestDeposit`, checks and credits on its own;
- `adminApproveTicket` credits by hand.

Each of them looks for an earlier deposit of the same transaction with a
query of its own, before the transaction in which it credits.

A stored hash is a text: `submitDeposit` and the contract sync store the
trimmed lower-case spelling, the others store what they are given. Only
the deposit rows of `transactions` are kept here. `credits` is a log of
the balance increments for the statements to talk about; no step reads it.
-/

namespace BlockMiner.Deposit

/-- An address; the code compares addresses in lower case. -/
abbrev Address := Nat

/-- A transaction hash as stored: which hash, and in which spelling. -/
structure HashText where
  hash : Nat
  /-- 0 is the trimmed lower-case spelling. -/
  spelling : Nat
deriving DecidableEq

/-- `txHash.trim().toLowerCase()`. -/
def HashText.normalize (t : HashText) : HashText := { t with spelling := 0 }

inductive Status where
  | pending_verification
  | completed
  | failed
deriving DecidableEq

/-- The `error` a failed row carries in `rawTx`. -/
inductive VerifyError where
  | verification_timeout
  | tx_reverted
  | wrong_chain
  | wrong_destination
  | no_deposit_event
  | value_event_mismatch
  | wallet_mismatch
  | amount_too_small
  | duplicate_txhash (existingId : Nat)
deriving DecidableEq

structure TransactionRow where
  userId : UserId
  amount : ℚ
  txHash : Option HashText
  fromAddress : Option Address
  status : Status
  verifyAttempts : Nat
  completedAt : Option Nat
  error : Option VerifyError
deriving DecidableEq

/-- The on-chain transaction a row is about. -/
def TransactionRow.hash (r : TransactionRow) : Option Nat := r.txHash.map HashText.hash

inductive TicketStatus where
  | open
  | analyzing
  | approved
  | rejected
  | credited
deriving DecidableEq

structure TicketRow where
  userId : UserId
  walletAddress : Address
  txHash : Option HashText
  status : TicketStatus
  creditedAmount : Option ℚ
  resolvedAt : Option Nat

structure UserRow where
  walletAddress : Option Address
  polBalance : ℚ

structure Credit where
  hash : Option Nat
  userId : UserId
  amount : ℚ

structure Db where
  transactions : Table TransactionRow
  users : Table UserRow
  tickets : Table TicketRow
  credits : List Credit

/-- The deposit settings read from the environment. -/
structure Config where
  depositWallet : Option Address
  smartContract : Option Address
  requiredConfs : Nat
  minDepositPol : ℚ

/-! ## What the chain answers -/

structure DepositReceived where
  userId : Address
  sender : Address
  amount : Nat

structure Log where
  address : Address
  /-- The event, when the log parses as `DepositReceived`. -/
  event : Option DepositReceived

structure Receipt where
  status : Nat
  blockNumber : Nat
  logs : List Log

structure OnchainTx where
  chainId : Nat
  toAddress : Option Address
  fromAddress : Option Address
  value : Nat

/-- The answers of one call's RPC requests. The outer `none` is a request
that threw, the inner one a transaction the node does not know. -/
structure Rpc where
  receipt : Option (Option Receipt)
  tx : Option (Option OnchainTx)
  latestBlock : Option Nat

def formatEther (wei : Nat) : ℚ := (wei : ℚ) / 10 ^ 18

def extractDepositReceivedFromReceipt (receipt : Receipt) (contract : Address) :
    Option DepositReceived :=
  receipt.logs.findSome? fun log => if log.address = contract then log.event else none

def contractDepositMatchesLinkedWallet (linked : Option Address) (userId : Address)
    (txFrom : Option Address) : Bool :=
  match linked with
  | none => false
  | some wallet => wallet = userId && txFrom = some userId

/-! ## Verification -/

/-- What `verifyOnePendingDeposit` concludes from the chain. -/
inductive Verdict where
  | retry
  | failed (error : VerifyError)
  | verified (amount : ℚ) (fromAddress : Option Address)

/-- The amount the transaction deposits, or why it is not a deposit of the
user whose linked wallet is `linked`. -/
def depositedAmount (config : Config) (linked : Option Address) (receipt : Receipt)
    (tx : OnchainTx) : Except VerifyError ℚ :=
  let isContract := config.smartContract.isSome ∧ tx.toAddress = config.smartContract
  let isTreasury := config.depositWallet.isSome ∧ tx.toAddress = config.depositWallet
  if isContract then
    match config.smartContract.bind (extractDepositReceivedFromReceipt receipt) with
    | none => .error .no_deposit_event
    | some event =>
      if tx.value ≠ event.amount then .error .value_event_mismatch
      else if contractDepositMatchesLinkedWallet linked event.userId tx.fromAddress then
        .ok (formatEther event.amount)
      else .error .wallet_mismatch
  else if isTreasury then .ok (formatEther tx.value)
  else .error .wrong_destination

/-- The chain checks of `verifyOnePendingDeposit`, in their order. -/
def verifyOnChain (config : Config) (linked : Option Address) (rpc : Rpc) : Verdict :=
  match rpc.receipt with
  | none | some none => .retry
  | some (some receipt) =>
    if receipt.status ≠ 1 then .failed .tx_reverted
    else
      match rpc.tx with
      | none | some none => .retry
      | some (some tx) =>
        if tx.chainId ≠ 137 then .failed .wrong_chain
        else
          match depositedAmount config linked receipt tx with
          | .error e => .failed e
          | .ok amount =>
            match rpc.latestBlock with
            | none => .retry
            | some latest =>
              if (latest : Int) - receipt.blockNumber + 1 < config.requiredConfs then .retry
              else if amount < config.minDepositPol then .failed .amount_too_small
              else .verified amount tx.fromAddress

def DEPOSIT_VERIFY_MAX_ATTEMPTS : Nat := 96

/-! ## Calls -/

/-- A request that waits for its next step. `tx` is the row as it was read. -/
inductive Call where
  /-- `submitDeposit` after it found no deposit of its own user. -/
  | submitOther (u : UserId) (txHash : HashText) (claimed : ℚ)
  /-- `submitDeposit` after it found no claim of another user. -/
  | submitCreate (u : UserId) (txHash : HashText) (claimed : ℚ)
  /-- `verifyOnePendingDeposit`, waiting for the chain. -/
  | verifying (id : Nat) (tx : TransactionRow)
  /-- `verifyOnePendingDeposit` after it found a completed duplicate. -/
  | failing (id : Nat) (tx : TransactionRow) (error : VerifyError)
  /-- `verifyOnePendingDeposit`, about to credit. -/
  | crediting (id : Nat) (tx : TransactionRow) (amount : ℚ) (fromAddress : Option Address)
  /-- The contract sync, about to register a log it found no deposit for. -/
  | syncCreate (u : UserId) (hash : Nat)
  /-- `createDepositRequest` after it found no deposit of that text. -/
  | depositing (u : UserId) (amount : ℚ) (txHash : HashText)
  /-- `createDepositRequest` after the chain confirmed the transaction. -/
  | depositCommit (u : UserId) (amount : ℚ) (txHash : HashText)
  /-- `adminApproveTicket` after it read the ticket. -/
  | approving (id : Nat) (ticket : TicketRow) (amount : ℚ)

inductive Request where
  | submitDeposit (u : UserId) (txHash : HashText) (claimedAmount : ℚ)
  | runDepositVerifier
  /-- One `DepositReceived` log of `runContractDepositSyncOnce`. -/
  | contractLog (beneficiary : Address) (hash : Nat)
  | createDepositRequest (u : UserId) (amount : ℚ) (txHash : HashText)
  | adminApproveTicket (id : Nat) (amount : ℚ)

inductive Answer where
  | chain (rpc : Rpc)
  | done (now : Nat)
  /-- The database step threw. -/
  | error

namespace Db

/-- `polBalance: { increment: amount }`, entered into the log. -/
def creditUser (db : Db) (hash : Option Nat) (u : UserId) (amount : ℚ) : Db :=
  { db with
    users := db.users.modify u fun user => { user with polBalance := user.polBalance + amount }
    credits := db.credits ++ [⟨hash, u, amount⟩] }

def insertTransaction (db : Db) (row : TransactionRow) : Db :=
  { db with transactions := db.transactions.insert row }

/-- A row as `submitDeposit` and the contract sync create it. -/
def pendingRow (u : UserId) (amount : ℚ) (txHash : HashText) : TransactionRow where
  userId := u
  amount := amount
  txHash := some txHash
  fromAddress := none
  status := .pending_verification
  verifyAttempts := 0
  completedAt := none
  error := none

/-- A row as the crediting paths without verification create it. -/
def completedRow (u : UserId) (amount : ℚ) (txHash : Option HashText)
    (fromAddress : Option Address) (now : Nat) : TransactionRow where
  userId := u
  amount := amount
  txHash := txHash
  fromAddress := fromAddress
  status := .completed
  verifyAttempts := 0
  completedAt := some now
  error := none

/-- `data: { verifyAttempts: attempts }`. -/
def setAttempts (db : Db) (id attempts : Nat) : Db :=
  { db with
    transactions := db.transactions.modify id fun r => { r with verifyAttempts := attempts } }

/-- `data: { status: "failed", verifyAttempts: attempts, rawTx }`. -/
def setFailed (db : Db) (id attempts : Nat) (error : VerifyError) : Db :=
  { db with
    transactions := db.transactions.modify id fun r =>
      { r with status := .failed, verifyAttempts := attempts, error := some error } }

/-! ### submitDeposit -/

/-- Validation and the first query: a deposit of that hash by this user, in
whatever status, ends the request. -/
def submitDeposit (config : Config) (db : Db) (u : UserId) (txHash : HashText) (claimed : ℚ) :
    Db × List Call :=
  let normalizedHash := txHash.normalize
  if claimed < 0 ∨ (0 < claimed ∧ claimed < config.minDepositPol) then (db, [])
  else
    match db.transactions.findFirst fun _ r => r.txHash = some normalizedHash ∧ r.userId = u with
    | some _ => (db, [])
    | none => (db, [.submitOther u normalizedHash claimed])

/-- The second query: a completed or waiting claim of another user. -/
def submitOther (db : Db) (u : UserId) (txHash : HashText) (claimed : ℚ) : Db × Option Call :=
  match db.transactions.findFirst fun _ r =>
      r.txHash = some txHash ∧ (r.status = .completed ∨ r.status = .pending_verification)
        ∧ r.userId ≠ u with
  | some _ => (db, none)
  | none => (db, some (.submitCreate u txHash claimed))

/-! ### runDepositVerifier -/

def runDepositVerifier (db : Db) : Db × List Call :=
  let pending := (db.transactions.findMany fun _ r => r.status = .pending_verification).take 50
  (db, pending.map fun row => .verifying row.1 row.2)

/-- The completed deposit of the same hash that blocks a second credit. -/
def duplicate (db : Db) (id : Nat) (tx : TransactionRow) : Option (Nat × TransactionRow) :=
  db.transactions.findFirst fun i r => r.txHash = tx.txHash ∧ r.status = .completed ∧ i ≠ id

/-- `verifyOnePendingDeposit` up to its write or its crediting transaction. -/
def verifyOnePendingDeposit (config : Config) (db : Db) (id : Nat) (tx : TransactionRow)
    (rpc : Rpc) : Db × Option Call :=
  let attempts := tx.verifyAttempts + 1
  if DEPOSIT_VERIFY_MAX_ATTEMPTS < attempts then
    (db.setFailed id attempts .verification_timeout, none)
  else
    match verifyOnChain config ((db.users.row tx.userId).bind (·.walletAddress)) rpc with
    | .retry => (db.setAttempts id attempts, none)
    | .failed e => (db.setFailed id attempts e, none)
    | .verified amount fromAddress =>
      match db.duplicate id tx with
      | some (existingId, _) => (db, some (.failing id tx (.duplicate_txhash existingId)))
      | none => (db, some (.crediting id tx amount fromAddress))

/-- The crediting transaction of `verifyOnePendingDeposit`. The row it
credits is on account of the hash stored in it. -/
def creditVerified (db : Db) (id : Nat) (tx : TransactionRow) (amount : ℚ)
    (fromAddress : Option Address) (now : Nat) : Db :=
  match db.transactions.row id, db.users.row tx.userId with
  | some row, some _ =>
    { db with
      transactions := db.transactions.modify id fun r =>
        { r with
          status := .completed, amount := amount, fromAddress := fromAddress,
          completedAt := some now, verifyAttempts := tx.verifyAttempts + 1, error := none }
      }.creditUser row.hash tx.userId amount
  | _, _ => db

/-! ### runContractDepositSyncOnce -/

def contractLog (db : Db) (beneficiary : Address) (hash : Nat) : Db × List Call :=
  match db.users.findFirst fun _ user => user.walletAddress = some beneficiary with
  | none => (db, [])
  | some (walletUser, _) =>
    match db.transactions.findFirst fun _ r => r.txHash = some ⟨hash, 0⟩ with
    | some _ => (db, [])
    | none => (db, [.syncCreate walletUser hash])

/-! ### createDepositRequest -/

def createDepositRequest (db : Db) (u : UserId) (amount : ℚ) (txHash : HashText) :
    Db × List Call :=
  if amount = 0 then (db, [])
  else
    match db.transactions.findFirst fun _ r => r.txHash = some txHash with
    | some _ => (db, [])
    | none => (db, [.depositing u amount txHash])

/-- The chain checks of `createDepositRequest`: destination, chain, amount
with 0.1% tolerance, and success. -/
def depositConfirmed (config : Config) (amount : ℚ) (rpc : Rpc) : Bool :=
  match config.depositWallet, rpc.tx, rpc.receipt with
  | some wallet, some (some tx), some (some receipt) =>
    tx.toAddress = some wallet ∧ tx.chainId = 137 ∧ amount * (999 / 1000) ≤ formatEther tx.value
      ∧ receipt.status = 1
  | _, _, _ => false

/-- The writes of `createDepositRequest`. -/
def creditDeposit (db : Db) (u : UserId) (amount : ℚ) (txHash : HashText) (now : Nat) : Db :=
  match db.users.row u with
  | none => db
  | some _ =>
    (db.insertTransaction (completedRow u amount (some txHash) none now)).creditUser
      (some txHash.hash) u amount

/-! ### adminApproveTicket -/

def adminApproveTicket (db : Db) (id : Nat) (amount : ℚ) : Db × List Call :=
  if amount ≤ 0 then (db, [])
  else
    match db.tickets.row id with
    | none => (db, [])
    | some ticket =>
      if ticket.status = .approved ∨ ticket.status = .credited then (db, [])
      else (db, [.approving id ticket amount])

/-- The transaction of `adminApproveTicket`. -/
def creditTicket (db : Db) (id : Nat) (ticket : TicketRow) (amount : ℚ) (now : Nat) : Db :=
  match db.users.row ticket.userId with
  | none => db
  | some _ =>
    let db := db.insertTransaction
      (completedRow ticket.userId amount ticket.txHash (some ticket.walletAddress) now)
    { db with
      tickets := db.tickets.modify id fun t =>
        { t with status := .credited, creditedAmount := some amount, resolvedAt := some now }
      }.creditUser (ticket.txHash.map HashText.hash) ticket.userId amount

end Db

/-! ## The service -/

variable (config : Config)

def start (db : Db) : Request → Db × List Call
  | .submitDeposit u txHash claimed => db.submitDeposit config u txHash claimed
  | .runDepositVerifier => db.runDepositVerifier
  | .contractLog beneficiary hash => db.contractLog beneficiary hash
  | .createDepositRequest u amount txHash => db.createDepositRequest u amount txHash
  | .adminApproveTicket id amount => db.adminApproveTicket id amount

def resume (db : Db) : Call → Answer → Option (Db × Option Call)
  | .submitOther u txHash claimed, .done _ => some (db.submitOther u txHash claimed)
  | .submitCreate u txHash claimed, .done _ =>
      some (db.insertTransaction (Db.pendingRow u claimed txHash), none)
  | .verifying id tx, .chain rpc => some (db.verifyOnePendingDeposit config id tx rpc)
  | .failing id tx error, .done _ =>
      some (db.setFailed id (tx.verifyAttempts + 1) error, none)
  | .crediting id tx amount fromAddress, .done now =>
      some (db.creditVerified id tx amount fromAddress now, none)
  | .verifying id tx, .error | .failing id tx _, .error | .crediting id tx _ _, .error =>
      some (db.setAttempts id (tx.verifyAttempts + 1), none)
  | .syncCreate u hash, .done _ =>
      some (db.insertTransaction (Db.pendingRow u 0 ⟨hash, 0⟩), none)
  | .depositing u amount txHash, .chain rpc =>
      some (db, if Db.depositConfirmed config amount rpc then some (.depositCommit u amount txHash)
        else none)
  | .depositCommit u amount txHash, .done now =>
      some (db.creditDeposit u amount txHash now, none)
  | .approving id ticket amount, .done now => some (db.creditTicket id ticket amount now, none)
  | .submitOther _ _ _, .error | .submitCreate _ _ _, .error | .syncCreate _ _, .error
  | .depositing _ _ _, .error | .depositCommit _ _ _, .error | .approving _ _ _, .error =>
      some (db, none)
  | _, _ => none

def service : Service Db Call Request Answer where
  start db r := some (start config db r)
  resume := resume config

end BlockMiner.Deposit
