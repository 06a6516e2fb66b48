import BlockMiner.DepositBacked
import BlockMiner.DepositContractAccounts
import Mathlib

/-!
# From the contract to the balance

A transaction that the contract has accepted leaves `DepositReceived` logs in its receipt;
the scan registers its hash for the beneficiary; the verifier looks at the destination, the
sender and the value of the transaction itcontract. They agree where the transaction is a call
of the contract: then the contract has logged one deposit, of its sender and its value
(`Executes.deposits_eq`). A deposit through another contract has another destination.
-/

namespace BlockMiner.Deposit

open DepositContract (State callAll Calls call_calls)

/-! ## Receipts -/

/-- A log of the contract as the verifier parses it. -/
def receiptEvent : DepositContract.Log → Option DepositReceived
  | .DepositReceived userId sender amount _ => some ⟨userId, sender, amount⟩
  | .Withdrawn _ _ => none

/-- The deposits at a contract that a receipt shows. -/
def Receipt.deposits (receipt : Receipt) (contract : Address) : List DepositReceived :=
  (receipt.logs.filter (·.address = contract)).filterMap (·.event)

/-- What a receipt shows a wallet to have deposited. -/
def Receipt.depositedBy (receipt : Receipt) (contract wallet : Address) : ℕ :=
  (((receipt.deposits contract).filter (·.userId = wallet)).map (·.amount)).sum

/-- The sender and the value of a call. -/
def sentWith : DepositContract.Call → Option (DepositContract.Address × ℕ)
  | .deposit sender value _ | .withdraw sender value _ _ | .pause sender value
  | .unpause sender value | .transferOwnership sender value _ | .renounceOwnership sender value
  | .receive sender value => some (sender, value)
  | .force _ => none

/-- A transaction in which the contract was called so, and its receipt. Where the contract
is its destination, there is one call, of its sender and with its value. -/
structure Executes (contract : DepositContract.Address) (timestamp : ℕ) (s : State)
    (calls : List DepositContract.Call) (tx : OnchainTx) (receipt : Receipt) : Prop where
  logged : receipt.deposits contract
    = ((callAll contract timestamp s calls).logs.drop s.logs.length).filterMap receiptEvent
  direct : tx.toAddress = some (contract : ℕ) → ∃ c sender, calls = [c]
    ∧ sentWith c = some (sender, tx.value) ∧ tx.fromAddress = some (sender : ℕ)

theorem extract_eq_head? (receipt : Receipt) (contract : Address) :
    extractDepositReceivedFromReceipt receipt contract = (receipt.deposits contract).head? := by
  unfold extractDepositReceivedFromReceipt Receipt.deposits
  induction receipt.logs with
  | nil => rfl
  | cons log logs ih =>
      by_cases haddress : log.address = contract
      · cases hevent : log.event with
        | none => simp [haddress, hevent, ih]
        | some event => simp [haddress, hevent]
      · simp [haddress, ih]

section Execution

variable {contract : DepositContract.Address} {timestamp : ℕ} {s : State}
variable {calls : List DepositContract.Call} {tx : OnchainTx} {receipt : Receipt}

/-- A call of the contract logs one deposit at most, of its sender and its value. -/
theorem Executes.deposits_eq (h : Executes contract timestamp s calls tx receipt)
    (hdirect : tx.toAddress = some (contract : ℕ)) {event : DepositReceived}
    (hevent : event ∈ receipt.deposits contract) :
    receipt.deposits contract = [event] ∧ tx.fromAddress = some event.userId
      ∧ event.amount = tx.value := by
  obtain ⟨c, sender, rfl, hsent, hfrom⟩ := h.direct hdirect
  have hlogged := h.logged
  have hsome : receipt.deposits contract ≠ [] := List.ne_nil_of_mem hevent
  cases hc : DepositContract.call contract timestamp s c with
  | none =>
      have hnil : receipt.deposits contract = [] := by simpa [callAll, hc] using hlogged
      exact absurd hnil hsome
  | some t =>
      have hall : callAll contract timestamp s [c] = t := by simp [callAll, hc]
      rw [hall] at hlogged
      rcases (call_calls hc).logs with hlogs | ⟨recipient, amount, hlogs⟩ | ⟨u, value, rfl, hlogs⟩
      · rw [hlogs, List.drop_length] at hlogged
        exact absurd hlogged hsome
      · rw [hlogs, List.drop_left] at hlogged
        exact absurd hlogged hsome
      · rw [hlogs, List.drop_left] at hlogged
        obtain ⟨rfl, hvalue⟩ : u = sender ∧ value = tx.value := by simpa [sentWith] using hsent
        rw [hlogged] at hevent ⊢
        obtain rfl := List.mem_singleton.mp hevent
        exact ⟨rfl, hfrom, hvalue⟩

end Execution

/-! ## The verification -/

/-- A verification with nothing in between, up to its end. -/
def verifyAlone (config : Config) (db : Db) (id : ℕ) (tx : TransactionRow) (rpc : Rpc)
    (now : ℕ) : Db :=
  match db.verifyOnePendingDeposit config id tx rpc with
  | (db', none) => db'
  | (db', some c) => ((resume config db' c (.done now)).map Prod.fst).getD db'

/-- The deposit is completed and its user has the amount. -/
structure Credited (db db' : Db) (id : ℕ) (userId : UserId) (amount : ℚ) : Prop where
  completed : ∃ row, db'.transactions.row id = some row ∧ row.status = .completed
    ∧ row.amount = amount
  credited : db'.polBalance? userId = (db.polBalance? userId).map (· + amount)

section Verification

variable {config : Config} {db : Db} {id : ℕ} {row : TransactionRow} {rpc : Rpc} {now : ℕ}

theorem not_credited_setFailed {attempts : ℕ} {error : VerifyError} {amount : ℚ}
    {userId : UserId} : ¬Credited db (db.setFailed id attempts error) id userId amount := by
  rintro ⟨⟨failed, hrow, hstatus, -⟩, -⟩
  rcases Table.modify_row_eq_some.mp hrow with ⟨-, old, -, rfl⟩ | ⟨hne, -⟩
  · cases hstatus
  · exact hne rfl

theorem credited_creditVerified {amount : ℚ} {fromAddress : Option Address} {user : UserRow}
    (hrow : db.transactions.row id = some row) (huser : db.users.row row.userId = some user) :
    Credited db (db.creditVerified id row amount fromAddress now) id row.userId amount := by
  simp only [Db.creditVerified, hrow, huser]
  let paid : TransactionRow :=
    { row with
      status := .completed, amount := amount, fromAddress := fromAddress, completedAt := some now
      verifyAttempts := row.verifyAttempts + 1, error := none }
  refine ⟨⟨paid, ?_, rfl, rfl⟩, ?_⟩
  · show (db.transactions.modify id _).row id = some paid
    rw [Table.modify_row, if_pos rfl, hrow]
    rfl
  · rw [polBalance?_creditUser, if_pos rfl]
    rfl

theorem verifyAlone_timeout (h : DEPOSIT_VERIFY_MAX_ATTEMPTS ≤ row.verifyAttempts) :
    verifyAlone config db id row rpc now
      = db.setFailed id (row.verifyAttempts + 1) .verification_timeout := by
  have hlate : DEPOSIT_VERIFY_MAX_ATTEMPTS < row.verifyAttempts + 1 := by omega
  simp [verifyAlone, Db.verifyOnePendingDeposit, hlate]

theorem verifyAlone_failed {error : VerifyError}
    (hattempts : row.verifyAttempts < DEPOSIT_VERIFY_MAX_ATTEMPTS)
    (h : verifyOnChain config (db.linkedWallet row.userId) rpc = .failed error) :
    verifyAlone config db id row rpc now = db.setFailed id (row.verifyAttempts + 1) error := by
  have hearly : ¬DEPOSIT_VERIFY_MAX_ATTEMPTS < row.verifyAttempts + 1 := by omega
  rw [Db.linkedWallet] at h
  simp [verifyAlone, Db.verifyOnePendingDeposit, hearly, h]

theorem verifyAlone_verified {amount : ℚ} {fromAddress : Option Address}
    (hattempts : row.verifyAttempts < DEPOSIT_VERIFY_MAX_ATTEMPTS)
    (h : verifyOnChain config (db.linkedWallet row.userId) rpc = .verified amount fromAddress) :
    verifyAlone config db id row rpc now =
      match db.duplicate id row with
      | some (existingId, _) =>
          db.setFailed id (row.verifyAttempts + 1) (.duplicate_txhash existingId)
      | none => db.creditVerified id row amount fromAddress now := by
  have hearly : ¬DEPOSIT_VERIFY_MAX_ATTEMPTS < row.verifyAttempts + 1 := by omega
  rw [Db.linkedWallet] at h
  cases hduplicate : db.duplicate id row with
  | none => simp [verifyAlone, Db.verifyOnePendingDeposit, hearly, h, hduplicate, resume]
  | some found => simp [verifyAlone, Db.verifyOnePendingDeposit, hearly, h, hduplicate, resume]

theorem verifyOnChain_small {linked : Option Address} {receipt : Receipt} {tx : OnchainTx}
    {amount : ℚ} {latest : ℕ} (hreceipt : rpc.receipt = some (some receipt))
    (htx : rpc.tx = some (some tx)) (hstatus : receipt.status = 1) (hchain : tx.chainId = 137)
    (hamount : depositedAmount config linked receipt tx = .ok amount)
    (hlatest : rpc.latestBlock = some latest)
    (hconfs : (config.requiredConfs : ℤ) ≤ (latest : ℤ) - receipt.blockNumber + 1)
    (hsmall : amount < config.minDepositPol) :
    verifyOnChain config linked rpc = .failed .amount_too_small := by
  simp [verifyOnChain, hreceipt, htx, hstatus, hchain, hamount, hlatest, not_lt.mpr hconfs, hsmall]

end Verification

/-! ## One wallet, two ways

The wallet 7 of user 1 deposits 0.01 POL with the contract 9, in transaction 5. -/

def depositConfig (minDepositPol : ℚ) : Config where
  depositWallet := some 100
  smartContract := some ((9 : DepositContract.Address) : ℕ)
  requiredConfs := 3
  minDepositPol

/-- The row is as the scan has registered it. -/
def registered : Db where
  transactions := .insert .empty (Db.pendingRow 1 0 ⟨5, 0⟩)
  users := .insert .empty ⟨some ((7 : DepositContract.Address) : ℕ), 0⟩
  tickets := .empty
  credits := []

def newContract : State := ⟨1, false, false, 0, fun _ => [], 0, [], 0, []⟩

/-- The wallet calls the contract. -/
def depositCalls : List DepositContract.Call := [.deposit 7 DepositContract.MIN_DEPOSIT 7]

def depositReceipt : Receipt where
  status := 1
  blockNumber := 10
  logs := [⟨(9 : DepositContract.Address),
    some ⟨(7 : DepositContract.Address), (7 : DepositContract.Address), 10 ^ 16⟩⟩]

/-- From an account to a destination, with a value. -/
def depositTx (sender recipient : DepositContract.Address) (value : ℕ) : OnchainTx :=
  ⟨137, some (recipient : ℕ), some (sender : ℕ), value⟩

def answers (tx : OnchainTx) : Rpc := ⟨some (some depositReceipt), some (some tx), some 20⟩

/-- The wallet is the sender. -/
theorem executes_direct :
    Executes 9 0 newContract depositCalls (depositTx 7 9 (10 ^ 16)) depositReceipt where
  logged := rfl
  direct _ := ⟨_, 7, rfl, rfl, rfl⟩

/-- The wallet is a contract that account 6 has called. -/
theorem executes_wallet :
    Executes 9 0 newContract depositCalls (depositTx 6 7 0) depositReceipt where
  logged := rfl
  direct h := absurd h (by decide)

end BlockMiner.Deposit
