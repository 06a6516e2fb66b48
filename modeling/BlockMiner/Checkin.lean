import BlockMiner.Json
import BlockMiner.Service
import Mathlib.Data.List.Sort

/-!
# Daily check-ins

`controllers/checkinController.js`: the five entry points that write the rows
of `daily_checkins`, as requests of one service. Every query and every update
is a statement of its own, and the answers of the chain come between them;
`act` is what a call does at one of them, the row it writes and how it goes on.
A unique violation, or an update of a row that is missing, throws and ends the
call, and so does any other error (`Answer.error`), where the code does not
catch it.

A hash denotes the same transaction in upper and lower case (`onChain`), and
the chain answers for the transaction. The SHA-256 of a free check-in is a
parameter, and wallets do not change. Streaks, milestones and notifications
come after the writes and are left out, as is the text in the HTTP responses.

`basis` is not a column: it records the transaction on whose account the row
has been confirmed.
-/

namespace BlockMiner.Checkin

/-! ## The chain -/

/-- The transaction a hash denotes. -/
def onChain (txHash : String) : String := String.ofList (txHash.toList.map Char.toLower)

/-- `tx` of the node with its receipt. The value is `none` for a text that
`BigInt` rejects, and `receipt` says whether the transaction succeeded. -/
structure ChainTx where
  fromAddr : String
  toAddr : String
  value : Option ℤ
  receipt : Option Bool

inductive State where
  | confirmed
  | pending
  | failed (reason : String)
deriving DecidableEq

def normalizeAddr (a : String) : String :=
  String.ofList ((trimStr a.toList).map Char.toLower)

def ZERO_ADDR : String := "0x0000000000000000000000000000000000000000"

def evaluateCheckinTx (tx : Option ChainTx) (userWalletLower receiverLower : String)
    (minValueWei : ℤ) : State :=
  match tx with
  | none => .pending
  | some tx =>
      if normalizeAddr tx.fromAddr ≠ userWalletLower then
        .failed "Transaction sender does not match your linked wallet."
      else if normalizeAddr tx.toAddr = "" ∨ normalizeAddr tx.toAddr = ZERO_ADDR then
        .failed "Invalid transaction (no recipient)."
      else if normalizeAddr tx.toAddr ≠ receiverLower then
        .failed "Payment must go to the official check-in address."
      else
        match tx.value with
        | none => .failed "Invalid transaction value."
        | some valueWei =>
            if valueWei < minValueWei then
              .failed "Amount sent is below the required check-in payment."
            else
              match tx.receipt with
              | none => .pending
              | some true => .confirmed
              | some false => .failed "Transaction failed on-chain (reverted or out of gas)."

def isHexDigit (c : Char) : Bool :=
  ('0' ≤ c && c ≤ '9') || ('a' ≤ c && c ≤ 'f') || ('A' ≤ c && c ≤ 'F')

/-- `TX_HASH_RE` on the trimmed text, which is the result. -/
def assertValidTxHash (txHash : String) : Option String :=
  match trimStr txHash.toList with
  | '0' :: 'x' :: digits =>
      if digits.length = 64 ∧ digits.all isHexDigit then some (String.ofList ('0' :: 'x' :: digits))
      else none
  | _ => none

/-! ## Tables -/

inductive Status where
  | pending
  | confirmed
  | failed
deriving DecidableEq

structure DailyCheckin where
  userId : ℕ
  checkinDate : String
  createdAt : ℤ
  confirmedAt : Option ℤ
  txHash : String
  status : Status
  amount : ℚ
  chainId : ℕ
  paymentMethod : String
  basis : Option String
deriving DecidableEq

structure Db where
  checkins : Table DailyCheckin
  wallets : ℕ → Option String

structure Config where
  /-- Empty where payments are disabled. -/
  receiver : String
  minWei : ℤ
  POLYGON_CHAIN_ID : ℕ
  getBrazilCheckinDateKey : ℤ → String
  syntheticFreeTxHash : ℕ → String → String
  chain : ℤ → String → Option ChainTx

/-! ## Requests -/

inductive Request where
  | claimCheckin (userId : ℕ)
  | confirmCheckin (userId : ℕ) (txHash : String)
  | checkinWallet (userId : ℕ) (txHash : String)
  | tryFinalizeTodayCheckin (userId : ℕ) (walletAddress : Option String)
  | processStalePendingCheckins (batchSize : ℕ)

inductive Answer where
  | ok (now : ℤ)
  | error
deriving DecidableEq

/-- The payment of a request. -/
structure Payment where
  userId : ℕ
  txHash : String
  wallet : String
  today : String

/-- A pending row as `tryFinalizeCheckinRow` was given it. -/
structure Finalizing where
  id : ℕ
  txHash : String
  wallet : String

inductive Call where
  | claimFind (userId : ℕ)
  | claimUpsert (userId : ℕ) (today : String)
  | confirmUser (userId : ℕ) (txHash : String)
  | confirmFind (userId : ℕ) (txHash wallet : String)
  /-- `existing` is the id of today's row. -/
  | confirmDup (p : Payment) (existing : Option ℕ)
  | confirmSave (p : Payment) (existing : Option ℕ)
  | confirmEvaluate (p : Payment)
  | confirmFail (p : Payment)
  | confirmDone (p : Payment)
  | walletUser (userId : ℕ) (txHash : String)
  | walletFind (userId : ℕ) (txHash wallet : String)
  | walletUpsert (p : Payment)
  | todayFind (userId : ℕ) (wallet : String)
  | staleFind (batchSize : ℕ)
  | evaluate (f : Finalizing) (rest : List Finalizing)
  | finalizeConfirm (f : Finalizing) (rest : List Finalizing)
  | finalizeFail (f : Finalizing) (rest : List Finalizing)

/-! ## Writes -/

inductive Write where
  | create (row : DailyCheckin)
  /-- `claimCheckin` finds a row. -/
  | claim (id : ℕ) (txHash : String) (now : ℤ)
  /-- `confirmCheckin` finds a row that is not confirmed. -/
  | resubmit (id : ℕ) (txHash : String)
  /-- `checkinWallet` finds a row. -/
  | resubmitWallet (id : ℕ) (txHash : String)
  /-- The chain has confirmed the payment. -/
  | confirm (id : ℕ) (payment : String) (now : ℤ)
  | fail (id : ℕ)

variable (config : Config)

/-- `Number(minWei) / 1e18` -/
def checkinAmount : ℚ := config.minWei / 10 ^ 18

/-- The row that a write updates, and how. -/
def Write.update : Write → Option (ℕ × (DailyCheckin → DailyCheckin))
  | .create _ => none
  | .claim id txHash now => some (id, fun row =>
      { row with
        txHash, status := .confirmed, confirmedAt := some now, amount := 0
        chainId := config.POLYGON_CHAIN_ID })
  | .resubmit id txHash => some (id, fun row =>
      { row with txHash, status := .pending, confirmedAt := none })
  | .resubmitWallet id txHash => some (id, fun row =>
      { row with
        txHash, status := .pending, paymentMethod := "wallet", amount := 1 / 100
        chainId := config.POLYGON_CHAIN_ID })
  | .confirm id payment now => some (id, fun row =>
      { row with
        status := .confirmed, confirmedAt := some now, amount := checkinAmount config
        chainId := config.POLYGON_CHAIN_ID, basis := some payment })
  | .fail id => some (id, fun row => { row with status := .failed })

def apply (db : Db) (w : Write) : Db :=
  match w with
  | .create row => { db with checkins := db.checkins.insert row }
  | w =>
      match w.update config with
      | none => db
      | some (id, f) => { db with checkins := db.checkins.modify id f }

/-! ## Queries -/

def byDay (db : Db) (userId : ℕ) (checkinDate : String) : Option (ℕ × DailyCheckin) :=
  db.checkins.findFirst fun _ row => row.userId = userId && row.checkinDate = checkinDate

def byHash (db : Db) (txHash : String) : Option (ℕ × DailyCheckin) :=
  db.checkins.findFirst fun _ row => row.txHash = txHash

/-- The unique index of the hashes allows it in this row. -/
def hashFree (db : Db) (txHash : String) (id : Option ℕ) : Bool :=
  (byHash db txHash).all fun found => some found.1 = id

def newRow (userId : ℕ) (checkinDate txHash : String) (now : ℤ) : DailyCheckin where
  userId := userId
  checkinDate := checkinDate
  createdAt := now
  confirmedAt := none
  txHash := txHash
  status := .pending
  amount := 1 / 100
  chainId := config.POLYGON_CHAIN_ID
  paymentMethod := "wallet"
  basis := none

def paymentCheckinEnabled : Bool := config.receiver ≠ ""

/-- What `tryFinalizeCheckinRow` makes of a row before it asks the chain. -/
def finalizing (wallet : Option String) (found : ℕ × DailyCheckin) : Option Finalizing :=
  let (id, row) := found
  if row.status = .pending ∧ row.txHash ≠ config.syntheticFreeTxHash row.userId row.checkinDate
      ∧ config.receiver ≠ "" ∧ normalizeAddr config.receiver ≠ ZERO_ADDR then
    (wallet.filter (· ≠ "")).map fun wallet => ⟨id, row.txHash, wallet⟩
  else none

/-- The rows of `processStalePendingCheckins`. -/
def stalePending (db : Db) (now : ℤ) (batchSize : ℕ) : List (ℕ × DailyCheckin) :=
  let found := db.checkins.findMany fun _ row =>
    row.status = .pending && now - 72 * 3600000 ≤ row.createdAt
  (found.insertionSort fun r r' => r.2.createdAt ≤ r'.2.createdAt).take batchSize

def next : List Finalizing → Option Call
  | [] => none
  | f :: rest => some (.evaluate f rest)

/-! ## Steps -/

def start : Request → List Call
  | .claimCheckin userId => [.claimFind userId]
  | .confirmCheckin userId txHash =>
      if paymentCheckinEnabled config then
        ((assertValidTxHash txHash).map (.confirmUser userId)).toList
      else []
  | .checkinWallet userId txHash => if txHash = "" then [] else [.walletUser userId txHash]
  | .tryFinalizeTodayCheckin userId walletAddress =>
      ((walletAddress.filter (· ≠ "")).map (.todayFind userId)).toList
  | .processStalePendingCheckins batchSize => [.staleFind batchSize]

def evaluatePayment (txHash wallet : String) (now : ℤ) : State :=
  evaluateCheckinTx (config.chain now (onChain txHash)) (normalizeAddr wallet)
    (normalizeAddr config.receiver) config.minWei

/-- What a call writes with a statement, and how it goes on. -/
def act (db : Db) : Call → Answer → Option Write × Option Call
  -- tryFinalizeCheckinRow
  | .evaluate f rest, .ok now =>
      match evaluatePayment config f.txHash f.wallet now with
      | .confirmed => (none, some (.finalizeConfirm f rest))
      | .failed _ => (none, some (.finalizeFail f rest))
      | .pending => (none, next rest)
  | .finalizeConfirm f rest, .ok now => (some (.confirm f.id (onChain f.txHash) now), next rest)
  | .finalizeFail f rest, .ok _ => (some (.fail f.id), next rest)
  | .evaluate _ rest, .error | .finalizeConfirm _ rest, .error | .finalizeFail _ rest, .error =>
      (none, next rest)
  | _, .error => (none, none)
  -- claimCheckin
  | .claimFind userId, .ok now =>
      let today := config.getBrazilCheckinDateKey now
      if (byDay db userId today).any fun found => found.2.status = .confirmed then (none, none)
      else (none, some (.claimUpsert userId today))
  | .claimUpsert userId today, .ok now =>
      let txHash := config.syntheticFreeTxHash userId today
      match byDay db userId today with
      | some (id, _) =>
          if hashFree db txHash (some id) then (some (.claim id txHash now), none) else (none, none)
      | none =>
          if hashFree db txHash none then
            (some (.create
              { newRow config userId today txHash now with
                status := .confirmed, confirmedAt := some now, amount := 0 }), none)
          else (none, none)
  -- confirmCheckin
  | .confirmUser userId txHash, .ok _ =>
      match (db.wallets userId).filter fun wallet => String.ofList (trimStr wallet.toList) ≠ "" with
      | none => (none, none)
      | some wallet => (none, some (.confirmFind userId txHash wallet))
  | .confirmFind userId txHash wallet, .ok now =>
      let today := config.getBrazilCheckinDateKey now
      let existing := byDay db userId today
      if existing.any fun found => found.2.status = .confirmed then (none, none)
      else (none, some (.confirmDup ⟨userId, txHash, wallet, today⟩ (existing.map Prod.fst)))
  | .confirmDup p existing, .ok _ =>
      if (byHash db p.txHash).any fun dup =>
          dup.2.userId ≠ p.userId || dup.2.checkinDate ≠ p.today then (none, none)
      else (none, some (.confirmSave p existing))
  | .confirmSave p (some id), .ok _ =>
      if hashFree db p.txHash (some id) then
        (some (.resubmit id p.txHash), some (.confirmEvaluate p))
      else (none, none)
  | .confirmSave p none, .ok now =>
      if hashFree db p.txHash none && (byDay db p.userId p.today).isNone then
        (some (.create
          { newRow config p.userId p.today p.txHash now with amount := checkinAmount config }),
          some (.confirmEvaluate p))
      else (none, none)
  | .confirmEvaluate p, .ok now =>
      match evaluatePayment config p.txHash p.wallet now with
      | .confirmed => (none, some (.confirmDone p))
      | .failed _ => (none, some (.confirmFail p))
      | .pending => (none, none)
  | .confirmFail p, .ok _ => ((byDay db p.userId p.today).map fun found => .fail found.1, none)
  | .confirmDone p, .ok now =>
      ((byDay db p.userId p.today).map fun found => .confirm found.1 (onChain p.txHash) now, none)
  -- checkinWallet
  | .walletUser userId txHash, .ok _ =>
      match (db.wallets userId).filter (· ≠ "") with
      | none => (none, none)
      | some wallet => (none, some (.walletFind userId txHash wallet))
  | .walletFind userId txHash wallet, .ok now =>
      let today := config.getBrazilCheckinDateKey now
      if (byDay db userId today).any fun found => found.2.status = .confirmed then (none, none)
      else (none, some (.walletUpsert ⟨userId, txHash, wallet, today⟩))
  | .walletUpsert p, .ok now =>
      let row := newRow config p.userId p.today p.txHash now
      match byDay db p.userId p.today with
      | some (id, _) =>
          if hashFree db p.txHash (some id) then
            (some (.resubmitWallet id p.txHash),
              next (finalizing config (some p.wallet) (id, row)).toList)
          else (none, none)
      | none =>
          if hashFree db p.txHash none then
            (some (.create row),
              next (finalizing config (some p.wallet) (db.checkins.nextId, row)).toList)
          else (none, none)
  -- tryFinalizeTodayCheckin
  | .todayFind userId wallet, .ok now =>
      (none, next ((byDay db userId (config.getBrazilCheckinDateKey now)).bind
        (finalizing config (some wallet))).toList)
  -- processStalePendingCheckins
  | .staleFind batchSize, .ok now =>
      (none, next ((stalePending db now batchSize).filterMap fun found =>
        finalizing config (db.wallets found.2.userId) found))

def service : Service Db Call Request Answer where
  start db r := some (db, start config r)
  resume db call a :=
    let (w, next) := act config db call a
    some (w.elim db (apply config db), next)

end BlockMiner.Checkin
