import BlockMiner.Engine
import BlockMiner.Json
import BlockMiner.Run

/-!
# Swapping POL and USDC

`controllers/swapController.js`. `executeSwap` takes any JSON values as
amount and assets: everything but the text `POL` as `fromAsset` swaps USDC to
POL, `toAsset` is only logged, and the amount is what `Number` makes of it.
Requests run one after the other. `failsAt` is the await of a request at which
the database fails, if it does: the transaction is then rolled back, but
neither the change in the engine, which the callback makes before its last
await, nor the audit row, which is written on another connection.

Amounts are exact; a number that is not finite or does not fit
`DECIMAL(20, 8)` is refused by the update. The price service answers with a
positive price, or with none.
-/

namespace BlockMiner.Swap

/-- A positive number. -/
abbrev Price := { price : ℚ // 0 < price }

def PRICE_TTL_MS : ℕ := 2 * 60 * 1000

structure Balances where
  polBalance : ℚ
  usdcBalance : ℚ
deriving DecidableEq

/-- The body of a request; `none` is an absent field. -/
structure Body where
  fromAsset : Option (Json JsNumber)
  toAsset : Option (Json JsNumber)
  amount : Option (Json JsNumber)

/-- An audit row with the action `swap`. -/
structure AuditLog where
  userId : UserId
  body : Body
  amount : ℚ
  output : ℚ
  rate : ℚ

structure Db where
  users : UserId → Option Balances
  auditLogs : List AuditLog

structure State where
  db : Db
  engine : Engine
  /-- The price and when it was fetched. -/
  priceCache : Option (Price × ℕ)

/-- The awaits of the transaction. -/
inductive Await where
  | findUnique
  | update
  | createAuditLog
  | commit
deriving DecidableEq

structure Request where
  userId : UserId
  body : Body
  now : ℕ
  /-- What the price service answers, if it is asked. -/
  fetched : Option Price
  failsAt : Option Await

inductive Refusal where
  | userMissing
  | insufficientPol
  | insufficientUsdc
  | notADecimal
  | databaseError

structure Reply where
  rate : ℚ
  output : ℚ

/-- The price, and the cache after it. -/
def getPolUsdPrice (cache : Option (Price × ℕ)) (now : ℕ) (fetched : Option Price) :
    Price × Option (Price × ℕ) :=
  let fetch : Price × Option (Price × ℕ) := match fetched with
    | some price => (price, some (price, now))
    | none => (⟨1, one_pos⟩, cache)
  match cache with
  | some (price, timestamp) => if now < timestamp + PRICE_TTL_MS then (price, cache) else fetch
  | none => fetch

/-- `fromAsset === "POL"` -/
def Body.fromPol (body : Body) : Bool :=
  match body.fromAsset with
  | some (.string s) => s = "POL"
  | _ => false

/-- The balance a swap is taken from, and the other one. -/
def Balances.source (b : Balances) (fromPol : Bool) : ℚ :=
  if fromPol then b.polBalance else b.usdcBalance

def Balances.target (b : Balances) (fromPol : Bool) : ℚ := b.source !fromPol

/-- What an amount of the source is worth in the target. -/
def convert (rate : ℚ) (fromPol : Bool) (amount : ℚ) : ℚ :=
  if fromPol then amount * rate else amount / rate

/-- `output`, for an amount that may not be finite. -/
def output (rate : ℚ) (fromPol : Bool) (amountNum : JsNumber) : JsNumber :=
  if fromPol then amountNum.mulPos rate else amountNum.divPos rate

def moved (b : Balances) (fromPol : Bool) (amount credit : ℚ) : Balances :=
  if fromPol then ⟨b.polBalance - amount, b.usdcBalance + credit⟩
  else ⟨b.polBalance + credit, b.usdcBalance - amount⟩

/-- A `DECIMAL(20, 8)`. -/
def fitsColumn (x : ℚ) : Prop := |x| < 10 ^ 12

instance (x : ℚ) : Decidable (fitsColumn x) := inferInstanceAs (Decidable (_ < _))

/-- What the update writes, if it can: the amount, its output, the balances. -/
def planned (b : Balances) (rate : ℚ) (fromPol : Bool) (amountNum : JsNumber) :
    Option (ℚ × ℚ × Balances) :=
  match amountNum, output rate fromPol amountNum with
  | .finite amount, .finite credit =>
      let b' := moved b fromPol amount credit
      if fitsColumn b'.polBalance ∧ fitsColumn b'.usdcBalance then some (amount, credit, b')
      else none
  | _, _ => none

/-- The delta handed to the engine, whose balance is the POL balance. -/
def polDelta (fromPol : Bool) (amount credit : ℚ) : ℚ := if fromPol then -amount else credit

def executeSwap (runtimeSet : Bool) (s : State) (r : Request) : State × Except Refusal Reply :=
  let fromPol := r.body.fromPol
  let amountNum := Number r.body.amount
  let (price, priceCache) := getPolUsdPrice s.priceCache r.now r.fetched
  let rate := price.val
  let s := { s with priceCache }
  if r.failsAt = some .findUnique then (s, .error .databaseError)
  else match s.db.users r.userId with
  | none => (s, .error .userMissing)
  | some b =>
    if amountNum.above (b.source fromPol) then
      (s, .error (if fromPol then .insufficientPol else .insufficientUsdc))
    else match planned b rate fromPol amountNum with
    | none => (s, .error .notADecimal)
    | some (amount, credit, b') =>
      if r.failsAt = some .update then (s, .error .databaseError)
      else
        let engine :=
          Engine.applyUserBalanceDelta runtimeSet s.engine r.userId (polDelta fromPol amount credit)
        if r.failsAt = some .createAuditLog then ({ s with engine }, .error .databaseError)
        else
          let auditLogs := ⟨r.userId, r.body, amount, credit, rate⟩ :: s.db.auditLogs
          if r.failsAt = some .commit then
            ({ s with db := { s.db with auditLogs }, engine }, .error .databaseError)
          else
            let users := Function.update s.db.users r.userId (some b')
            ({ s with db := { users, auditLogs }, engine }, .ok ⟨rate, credit⟩)

/-- The requests of all users, one after the other. -/
def sys (runtimeSet : Bool) : System State Request :=
  ⟨fun s r => some (executeSwap runtimeSet s r).1⟩

end BlockMiner.Swap
