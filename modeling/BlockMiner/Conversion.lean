import BlockMiner.BlkCycle
import BlockMiner.Spending

/-!
# POL to BLK

`models/blkEconomyModel.js` and `models/blkWalletModel.js`: the economy
configuration with its validation, and the conversion of a user's POL into
BLK under that configuration. A conversion reads the user, the last
conversion and, where there is a daily limit, the sum of the day's
conversions, and then writes; each read is an await, and conversions of the
same user commit in between. The update of the balances takes the row lock up
to the commit, so the writes are one step.

Number columns keep eight decimals (the boost four), and a number that is not
one is `none`. `createdAt` is the instant of the writes. A rate that the
column has rounded to zero gives infinity, which the column for the amount
refuses; here it gives zero, which the estimate refuses.
-/

namespace BlockMiner.Conversion

open Spending (round8 startUtcDay DAY_MS)

/-! ## The economy configuration -/

/-- `BlkEconomyConfig`, in its two parts. -/
structure EconomyConfig extends Spending.BlkEconomyConfig, BlkCycle.CycleConfig

def DEFAULT_ROW : EconomyConfig where
  polPerBlk := 100
  convertFeeBps := 500
  minConvertPol := 50
  dailyConvertLimitBlk := none
  convertCooldownSec := 300
  blkCycleReward := 3 / 100
  blkCycleIntervalSec := 600
  blkCycleActivitySec := 900
  blkCycleMinHashrate := 1 / 10 ^ 8
  blkCyclePaused := false
  blkCycleBoost := 1

/-- `Number(x)`; `none` for one that is not a number. -/
abbrev Parsed := Option ℚ

/-- The fields of the request body; `none` is an absent field. In the limit
`some none` is `null` or the empty text. -/
structure Patch where
  polPerBlk : Option Parsed := none
  convertFeeBps : Option Parsed := none
  minConvertPol : Option Parsed := none
  dailyConvertLimitBlk : Option (Option Parsed) := none
  convertCooldownSec : Option Parsed := none
  blkCycleReward : Option Parsed := none
  blkCycleIntervalSec : Option Parsed := none
  blkCycleActivitySec : Option Parsed := none
  blkCycleMinHashrate : Option Parsed := none
  blkCyclePaused : Option Bool := none
  blkCycleBoost : Option Parsed := none

/-- The errors of `updateBlkEconomyConfig`, by the field they are about. -/
inductive ConfigError where
  | polPerBlk | convertFeeBps | minConvertPol | dailyConvertLimitBlk | convertCooldownSec
  | blkCycleReward | blkCycleIntervalSec | blkCycleActivitySec | blkCycleMinHashrate
  | blkCycleBoost
deriving DecidableEq

/-- One field of the patch: kept when absent, refused when its check fails,
else stored. -/
def patched {α : Type} (error : ConfigError) (check : ℚ → Bool) (store : ℚ → α)
    (field : Option Parsed) (old : α) : Except ConfigError α :=
  match field with
  | none => .ok old
  | some none => .error error
  | some (some n) => if check n then .ok (store n) else .error error

/-- The limit, which can also be removed. -/
def patchedLimit (field : Option (Option Parsed)) (old : Option ℚ) :
    Except ConfigError (Option ℚ) :=
  match field with
  | none => .ok old
  | some none => .ok none
  | some (some n) =>
      patched .dailyConvertLimitBlk (0 < ·) (fun n => some (round8 n)) (some n) none

/-- `Number.isInteger(n) && low <= n` -/
def isIntegerFrom (low : ℚ) (n : ℚ) : Bool := n.den = 1 && low ≤ n

def toInt (n : ℚ) : ℕ := n.num.toNat

def round4 (n : ℚ) : ℚ := ⌊n * 10 ^ 4 + 1 / 2⌋ / 10 ^ 4

def updateBlkEconomyConfig (row : EconomyConfig) (patch : Patch) :
    Except ConfigError EconomyConfig := do
  let polPerBlk ← patched .polPerBlk (0 < ·) round8 patch.polPerBlk row.polPerBlk
  let convertFeeBps ← patched .convertFeeBps (fun b => isIntegerFrom 0 b && b ≤ 10000) toInt
    patch.convertFeeBps row.convertFeeBps
  let minConvertPol ← patched .minConvertPol (0 < ·) round8 patch.minConvertPol row.minConvertPol
  let dailyConvertLimitBlk ← patchedLimit patch.dailyConvertLimitBlk row.dailyConvertLimitBlk
  let convertCooldownSec ← patched .convertCooldownSec (isIntegerFrom 0) toInt
    patch.convertCooldownSec row.convertCooldownSec
  let blkCycleReward ← patched .blkCycleReward (0 ≤ ·) round8 patch.blkCycleReward
    row.blkCycleReward
  let blkCycleIntervalSec ← patched .blkCycleIntervalSec (isIntegerFrom 60) toInt
    patch.blkCycleIntervalSec row.blkCycleIntervalSec
  let blkCycleActivitySec ← patched .blkCycleActivitySec (isIntegerFrom 60) toInt
    patch.blkCycleActivitySec row.blkCycleActivitySec
  let blkCycleMinHashrate ← patched .blkCycleMinHashrate (0 ≤ ·) round8
    patch.blkCycleMinHashrate row.blkCycleMinHashrate
  let blkCyclePaused := patch.blkCyclePaused.getD row.blkCyclePaused
  let blkCycleBoost ← patched .blkCycleBoost (0 ≤ ·) round4 patch.blkCycleBoost row.blkCycleBoost
  return { polPerBlk, convertFeeBps, minConvertPol, dailyConvertLimitBlk, convertCooldownSec,
           blkCycleReward, blkCycleIntervalSec, blkCycleActivitySec, blkCycleMinHashrate,
           blkCyclePaused, blkCycleBoost }

/-- The row, from its default on. -/
def configurations : System EconomyConfig Patch :=
  ⟨fun row patch => (updateBlkEconomyConfig row patch).toOption⟩

/-! ## The estimate -/

structure Estimate where
  polGross : ℚ
  feePol : ℚ
  netPol : ℚ
  blkOut : ℚ
  polPerBlk : ℚ
deriving DecidableEq

def estimatePolToBlk (config : EconomyConfig) (pol : ℚ) : Option Estimate :=
  if 0 < pol then
    let feePol := round8 (pol * config.convertFeeBps / 10000)
    let netPol := round8 (pol - feePol)
    some { polGross := pol, feePol, netPol, blkOut := round8 (netPol / config.polPerBlk)
           polPerBlk := config.polPerBlk }
  else none

/-! ## Conversions of one user -/

/-- A completed `blk_convert` transaction; `rawTx` holds the estimate. -/
structure ConversionRow where
  createdAt : ℕ
  amount : ℚ
  fee : ℚ
  completedAt : ℕ
  rawTx : Estimate
deriving DecidableEq

structure Db where
  polBalance : ℚ
  blkBalance : ℚ
  isBanned : Bool
  conversions : List ConversionRow

inductive Refusal where
  | invalidPolAmount | accountRestricted | minimumConversion | roundsToZero | conversionCooldown
  | dailyLimitExceeded | insufficientBalance
deriving DecidableEq

inductive Call where
  | user (est : Estimate)
  | last (est : Estimate) (seen : ℚ)
  | daily (est : Estimate) (seen : ℚ)
  | commit (est : Estimate) (seen : ℚ)

inductive Request where
  | convertPolToBlk (polAmount : ℚ)

/-- The database has answered, at time `now`, or the request throws. -/
inductive Answer where
  | ok (now : ℕ)
  | error

variable (config : EconomyConfig) (db : Db)

/-- `elapsed < convertCooldownSec`, for the last conversion. -/
def onCooldown (now : ℕ) : Bool :=
  let lastCreatedAt : Option ℕ := (db.conversions.map (·.createdAt)).max?
  lastCreatedAt.any fun (last : ℕ) =>
    0 < config.convertCooldownSec ∧ ((now : ℚ) - last) / 1000 < config.convertCooldownSec

/-- The aggregate over the conversions of the day. -/
def used (now : ℕ) : ℚ :=
  ((db.conversions.filter fun c => startUtcDay now ≤ c.createdAt).map (·.amount)).sum

def overDailyLimit (now : ℕ) (blkOut : ℚ) : Bool :=
  config.dailyConvertLimitBlk.any fun cap => cap + 1 / 10 ^ 12 < used db now + blkOut

def checkBalance (est : Estimate) (seen : ℚ) : Except Refusal Call :=
  if seen < est.polGross then .error .insufficientBalance else .ok (.commit est seen)

/-- `convertPolToBlk` up to the query for the user. -/
def convertPolToBlk (polAmount : ℚ) : Except Refusal Call :=
  match estimatePolToBlk config (round8 polAmount) with
  | none => .error .invalidPolAmount
  | some est => .ok (.user est)

/-- The user has been read; `assertConvertRules` begins. -/
def readUser (est : Estimate) : Except Refusal Call :=
  if db.isBanned then .error .accountRestricted
  else if est.polGross < config.minConvertPol then .error .minimumConversion
  else if est.blkOut ≤ 0 then .error .roundsToZero
  else .ok (.last est db.polBalance)

def readLast (est : Estimate) (seen : ℚ) (now : ℕ) : Except Refusal Call :=
  if onCooldown config db now then .error .conversionCooldown
  else if config.dailyConvertLimitBlk.isSome then .ok (.daily est seen)
  else checkBalance est seen

def readDaily (est : Estimate) (seen : ℚ) (now : ℕ) : Except Refusal Call :=
  if overDailyLimit config db now est.blkOut then .error .dailyLimitExceeded
  else checkBalance est seen

/-- The writes of the transaction. -/
def commit (est : Estimate) (now : ℕ) : Db :=
  { db with
    polBalance := db.polBalance - est.polGross
    blkBalance := db.blkBalance + est.blkOut
    conversions :=
      { createdAt := now, amount := est.blkOut, fee := est.feePol, completedAt := now
        rawTx := est }
        :: db.conversions }

def query (now : ℕ) : Call → Except Refusal Call
  | .user est => readUser config db est
  | .last est seen => readLast config db est seen now
  | .daily est seen => readDaily config db est seen now
  | .commit est seen => .ok (.commit est seen)

def start : Request → Option (Db × List Call)
  | .convertPolToBlk polAmount => some (db, (convertPolToBlk config polAmount).toOption.toList)

def resume : Call → Answer → Option (Db × Option Call)
  | .commit est _, .ok now => some (commit db est now, none)
  | c, .ok now => some (db, (query config db now c).toOption)
  | _, .error => some (db, none)

def service : Service Db Call Request Answer := ⟨start config, resume config⟩

/-- The spending model's estimate is the amount of this one. -/
theorem spending_estimate (pol : ℚ) :
    Spending.estimatePolToBlk config.toBlkEconomyConfig pol
      = (estimatePolToBlk config pol).map (·.blkOut) := by
  unfold Spending.estimatePolToBlk estimatePolToBlk
  split <;> rfl

end BlockMiner.Conversion
