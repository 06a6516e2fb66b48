import Mathlib.Algebra.Order.Floor.Ring
import Mathlib.Data.Rat.Floor
import Mathlib.Logic.Function.Basic
import BlockMiner.Service

/-!
# What one user spends

Seven endpoints take money off a user's balance: `createWithdrawal`,
`purchaseMiner`, `buyRoom`, `purchaseEventMinerForUser`,
`purchaseMiniPassLevels`, `purchaseMiniPassComplete` and
`convertPolToBlk`. Each reads its rows query by query, the balance among
them, decides in JavaScript, and then writes. A transaction holds the row
locks of its writes up to the commit, so writes and commit are one step
(`Spend.commit`); under READ COMMITTED the reads before it are steps of
their own, and other requests commit in between.

A request in flight is a `Call`. Once it has passed its checks it is
`Call.commit`, with the writes it will make and, in `seen`, the balance its
check read. The prices, the season and the economy settings are the
server's configuration (`Catalog`). The machines a purchase grants are in
the machine model.
-/

namespace BlockMiner.Spending

/-- The balances an offer can be paid from. -/
inductive Currency where
  | POL | BTC | ETH | USDT | USDC | ZER
deriving DecidableEq

/-- A miner that `getActiveMinerById` finds. -/
structure ShopMiner where
  price : ℚ
  baseHashRate : ℚ
  slotSize : ℕ

structure OfferEvent where
  startsAt : ℕ
  endsAt : ℕ
  isActive : Bool
  deleted : Bool

structure EventMiner where
  event : OfferEvent
  price : ℚ
  /-- `none` for a text that names no supported currency. -/
  currency : Option Currency
  stockUnlimited : Bool
  stockCount : Option ℕ
  isActive : Bool
  isFree : Bool
  claimLimitPerUser : ℕ

structure Season where
  startsAt : ℕ
  endsAt : ℕ
  maxLevel : ℕ
  xpPerLevel : ℕ
  buyLevelPricePol : ℚ
  completePassPricePol : ℚ
  isActive : Bool
  deleted : Bool

structure BlkEconomyConfig where
  polPerBlk : ℚ
  convertFeeBps : ℕ
  minConvertPol : ℚ
  dailyConvertLimitBlk : Option ℚ
  convertCooldownSec : ℕ

/-- The configuration the endpoints read. -/
structure Catalog where
  shopMiner : ℕ → Option ShopMiner
  SHOP_MAX_BULK_QUANTITY : ℤ
  /-- `ROOM_PRICES`; `none` where the text is not a number. -/
  roomPrices : List (Option ℚ)
  ROOM_MAX : ℕ
  eventMiner : ℕ → Option EventMiner
  season : ℕ → Option Season
  blkEconomy : BlkEconomyConfig

/-- The rows of the user that the endpoints read and write. -/
structure Db where
  balance : Currency → ℚ
  blkBalance : ℚ
  isBanned : Bool
  pendingWithdrawals : List ℚ
  /-- The numbers of the unlocked rooms. -/
  rooms : List ℕ
  soldCount : ℕ → ℕ
  eventPurchases : ℕ → ℕ
  /-- The experience in a season's enrollment. -/
  totalXp : ℕ → ℕ
  /-- The completed `blk_convert` transactions: when, and how much BLK. -/
  conversions : List (ℕ × ℚ)

/-- What the transaction of a request that has passed its checks writes. -/
inductive Spend where
  | createWithdrawal (amount : ℚ)
  | purchaseMiner (totalPrice : ℚ)
  | buyRoom (nextRoom : ℕ) (price : ℚ)
  | claimEventMiner (eventMinerId quantity : ℕ)
  | purchaseEventMiner (eventMinerId quantity : ℕ) (currency : Currency) (totalPrice : ℚ)
  | purchaseMiniPass (seasonId xp : ℕ) (price : ℚ)
  | convertPolToBlk (polGross blkOut : ℚ)

/-- A request that waits for its next query. -/
inductive Call where
  | withdrawalUser (amount : ℚ)
  | roomUser (nextRoom : ℕ) (price : ℚ)
  | eventClaims (eventMinerId quantity : ℕ)
  | eventUser (eventMinerId quantity : ℕ)
  | levelsEnrollment (seasonId q : ℕ) (seen : ℚ)
  | completeEnrollment (seasonId : ℕ) (seen : ℚ)
  | convertLast (polGross blkOut seen : ℚ)
  | convertDaily (polGross blkOut seen : ℚ)
  | commit (spend : Spend) (seen : ℚ)

inductive Request where
  | createWithdrawal (amount : ℚ)
  | purchaseMiner (minerId : ℕ) (quantity : ℤ)
  | buyRoom
  | purchaseOfferMiner (eventMinerId : ℕ) (quantity : ℤ) (now : ℕ)
  | purchaseMiniPassLevels (seasonId : ℕ) (quantity : ℤ) (now : ℕ)
  | purchaseMiniPassComplete (seasonId now : ℕ)
  | convertPolToBlk (polAmount : ℚ)

/-- The database has run the query, at time `now`, or the request throws. -/
inductive Answer where
  | ok (now : ℕ)
  | error

/-- The refusals of the seven endpoints. -/
inductive Refusal where
  | minimumWithdrawal | pendingWithdrawalExists
  | invalidMinerId | invalidQuantity | minerNotFound | minerDataInvalid | slotSizeInvalid
  | maxRoomsReached | invalidPriceConfig
  | eventMinerNotFound | eventNotActive | minerUnavailable | claimLimitExceeded | invalidPrice
  | userBlocked | seasonNotFound | seasonNotLive | priceNotConfigured | alreadyMax
  | invalidPolAmount | minimumConversion | roundsToZero | conversionCooldown | dailyLimitExceeded
  | insufficientBalance

/-! ## Helpers of the endpoints -/

def normalizeOfferCurrency (currency : Option Currency) : Currency := currency.getD .POL

def isOfferEventLiveAt (now : ℕ) (event : OfferEvent) : Bool :=
  !event.deleted && event.isActive && event.startsAt ≤ now && now ≤ event.endsAt

def hasEventMinerStock (miner : EventMiner) (soldCount : ℕ) : Bool :=
  miner.isActive && (miner.stockUnlimited || miner.stockCount.any (soldCount < ·))

def isMiniPassSeasonLive (season : Season) (now : ℕ) : Bool :=
  !season.deleted && season.isActive && season.startsAt ≤ now && now ≤ season.endsAt

def xpCapForSeason (maxLevel xpPerLevel : ℕ) : ℕ := (max 1 maxLevel - 1) * max 1 xpPerLevel

def xpRemainingToCap (totalXp maxLevel xpPerLevel : ℕ) : ℕ :=
  xpCapForSeason maxLevel xpPerLevel - totalXp

/-- `Math.round(n * 1e8) / 1e8`; `Math.round` rounds halves up. -/
def round8 (n : ℚ) : ℚ := ⌊n * 10 ^ 8 + 1 / 2⌋ / 10 ^ 8

/-- The `blkOut` of the estimate. -/
def estimatePolToBlk (config : BlkEconomyConfig) (pol : ℚ) : Option ℚ :=
  if 0 < pol then
    let feePol := round8 (pol * config.convertFeeBps / 10000)
    let netPol := round8 (pol - feePol)
    some (round8 (netPol / config.polPerBlk))
  else none

/-- Milliseconds in a day. -/
def DAY_MS : ℕ := 86400000

def startUtcDay (now : ℕ) : ℕ := now - now % DAY_MS

namespace Db

variable (cat : Catalog) (db : Db)

/-- The check every endpoint makes before it spends: the balance it has
read covers the price. -/
def checkBalance (seen price : ℚ) (spend : Spend) : Except Refusal Call :=
  if seen < price then .error .insufficientBalance else .ok (.commit spend seen)

/-! ### createWithdrawal -/

def WITHDRAW_MIN_POL : ℚ := 10

/-- `requestWithdrawal`'s validation and the query for a pending row. -/
def createWithdrawal (amount : ℚ) : Except Refusal Call :=
  if amount < WITHDRAW_MIN_POL then .error .minimumWithdrawal
  else if db.pendingWithdrawals ≠ [] then .error .pendingWithdrawalExists
  else .ok (.withdrawalUser amount)

def withdrawalUser (amount : ℚ) : Except Refusal Call :=
  checkBalance (db.balance .POL) amount (.createWithdrawal amount)

/-! ### purchaseMiner -/

def purchaseMiner (minerId : ℕ) (quantity : ℤ) : Except Refusal Call :=
  if minerId = 0 then .error .invalidMinerId
  else if quantity < 1 ∨ cat.SHOP_MAX_BULK_QUANTITY < quantity then .error .invalidQuantity
  else
    match cat.shopMiner minerId with
    | none => .error .minerNotFound
    | some miner =>
        if miner.price ≤ 0 ∨ miner.baseHashRate ≤ 0 then .error .minerDataInvalid
        else if miner.slotSize < 1 ∨ 2 < miner.slotSize then .error .slotSizeInvalid
        else
          checkBalance (db.balance .POL) (miner.price * quantity)
            (.purchaseMiner (miner.price * quantity))

/-! ### buyRoom -/

def buyRoom : Except Refusal Call :=
  let nextRoom := db.rooms.length + 1
  if cat.ROOM_MAX < nextRoom then .error .maxRoomsReached
  else
    match (cat.roomPrices[nextRoom - 1]?).getD (some 0) with
    | none => .error .invalidPriceConfig
    | some price =>
        if price < 0 then .error .invalidPriceConfig else .ok (.roomUser nextRoom price)

def roomUser (nextRoom : ℕ) (price : ℚ) : Except Refusal Call :=
  checkBalance (db.balance .POL) price (.buyRoom nextRoom price)

/-! ### purchaseEventMinerForUser -/

/-- `purchaseOfferMiner` clamps the quantity. -/
def purchaseEventMinerForUser (eventMinerId : ℕ) (quantity : ℤ) (now : ℕ) :
    Except Refusal Call :=
  let quantity := (max 1 (min 25 quantity)).toNat
  match cat.eventMiner eventMinerId with
  | none => .error .eventMinerNotFound
  | some em =>
      if em.event.deleted then .error .eventMinerNotFound
      else if !isOfferEventLiveAt now em.event then .error .eventNotActive
      else if !em.isActive || !hasEventMinerStock em (db.soldCount eventMinerId) then
        .error .minerUnavailable
      else if em.isFree then
        if 0 < em.claimLimitPerUser then .ok (.eventClaims eventMinerId quantity)
        else .ok (.commit (.claimEventMiner eventMinerId quantity) 0)
      else if em.price ≤ 0 then .error .invalidPrice
      else .ok (.eventUser eventMinerId quantity)

def eventClaims (eventMinerId quantity : ℕ) : Except Refusal Call :=
  match cat.eventMiner eventMinerId with
  | none => .error .eventMinerNotFound
  | some em =>
      if em.claimLimitPerUser < db.eventPurchases eventMinerId + quantity then
        .error .claimLimitExceeded
      else .ok (.commit (.claimEventMiner eventMinerId quantity) 0)

def eventUser (eventMinerId quantity : ℕ) : Except Refusal Call :=
  match cat.eventMiner eventMinerId with
  | none => .error .eventMinerNotFound
  | some em =>
      let currency := normalizeOfferCurrency em.currency
      checkBalance (db.balance currency) (em.price * quantity)
        (.purchaseEventMiner eventMinerId quantity currency (em.price * quantity))

/-! ### purchaseMiniPassLevels and purchaseMiniPassComplete -/

/-- The checks the two purchases begin with; `price` is the season's price
for the purchase. They read the user before anything else. -/
def miniPassSeason (seasonId : ℕ) (price : Season → ℚ) (now : ℕ) (next : Call) :
    Except Refusal Call :=
  if db.isBanned then .error .userBlocked
  else
    match cat.season seasonId with
    | none => .error .seasonNotFound
    | some season =>
        if season.deleted || !season.isActive then .error .seasonNotFound
        else if !isMiniPassSeasonLive season now then .error .seasonNotLive
        else if price season ≤ 0 then .error .priceNotConfigured
        else .ok next

def purchaseMiniPassLevels (seasonId : ℕ) (quantity : ℤ) (now : ℕ) : Except Refusal Call :=
  miniPassSeason cat db seasonId (·.buyLevelPricePol) now
    (.levelsEnrollment seasonId (min 50 (max 1 quantity)).toNat (db.balance .POL))

def levelsEnrollment (seasonId q : ℕ) (seen : ℚ) : Except Refusal Call :=
  match cat.season seasonId with
  | none => .error .seasonNotFound
  | some season =>
      let xpPerLevel := max 1 season.xpPerLevel
      let remaining := xpRemainingToCap (db.totalXp seasonId) season.maxLevel xpPerLevel
      if remaining = 0 then .error .alreadyMax
      else
        let xpGrant := min (q * xpPerLevel) remaining
        -- `Math.ceil(xpGrant / xpPerLevel)`
        let levelsEffective := (xpGrant + xpPerLevel - 1) / xpPerLevel
        let price := season.buyLevelPricePol * levelsEffective
        checkBalance seen price (.purchaseMiniPass seasonId xpGrant price)

def purchaseMiniPassComplete (seasonId now : ℕ) : Except Refusal Call :=
  miniPassSeason cat db seasonId (·.completePassPricePol) now
    (.completeEnrollment seasonId (db.balance .POL))

def completeEnrollment (seasonId : ℕ) (seen : ℚ) : Except Refusal Call :=
  match cat.season seasonId with
  | none => .error .seasonNotFound
  | some season =>
      let need := xpRemainingToCap (db.totalXp seasonId) season.maxLevel (max 1 season.xpPerLevel)
      if need = 0 then .error .alreadyMax
      else
        checkBalance seen season.completePassPricePol
          (.purchaseMiniPass seasonId need season.completePassPricePol)

/-! ### convertPolToBlk -/

/-- Up to the query for the last conversion. -/
def convertPolToBlk (polAmount : ℚ) : Except Refusal Call :=
  let polGross := round8 polAmount
  match estimatePolToBlk cat.blkEconomy polGross with
  | none => .error .invalidPolAmount
  | some blkOut =>
      if db.isBanned then .error .userBlocked
      else if polGross < cat.blkEconomy.minConvertPol then .error .minimumConversion
      else if blkOut ≤ 0 then .error .roundsToZero
      else .ok (.convertLast polGross blkOut (db.balance .POL))

/-- The cooldown; the aggregate is only queried where there is a limit. -/
def convertLast (polGross blkOut seen : ℚ) (now : ℕ) : Except Refusal Call :=
  let last := (db.conversions.map (·.1)).max?
  let cooldown := cat.blkEconomy.convertCooldownSec
  if last.any fun last => 0 < cooldown ∧ ((now : ℚ) - last) / 1000 < cooldown then
    .error .conversionCooldown
  else if cat.blkEconomy.dailyConvertLimitBlk.isSome then
    .ok (.convertDaily polGross blkOut seen)
  else checkBalance seen polGross (.convertPolToBlk polGross blkOut)

def convertDaily (polGross blkOut seen : ℚ) (now : ℕ) : Except Refusal Call :=
  let used := ((db.conversions.filter fun c => startUtcDay now ≤ c.1).map (·.2)).sum
  if cat.blkEconomy.dailyConvertLimitBlk.any (· + 1 / 10 ^ 12 < used + blkOut) then
    .error .dailyLimitExceeded
  else checkBalance seen polGross (.convertPolToBlk polGross blkOut)

end Db

/-! ## The transactions -/

/-- The balance a spend is paid from, and the amount it takes off it. -/
def Spend.payment : Spend → Option (Currency × ℚ)
  | .createWithdrawal amount => some (.POL, amount)
  | .purchaseMiner totalPrice => some (.POL, totalPrice)
  | .buyRoom _ price => if 0 < price then some (.POL, price) else none
  | .claimEventMiner _ _ => none
  | .purchaseEventMiner _ _ currency totalPrice => some (currency, totalPrice)
  | .purchaseMiniPass _ _ price => some (.POL, price)
  | .convertPolToBlk polGross _ => some (.POL, polGross)

/-- `data: { [balanceField]: { decrement: price } }` -/
def Db.pay (db : Db) : Option (Currency × ℚ) → Db
  | none => db
  | some (currency, price) =>
      { db with balance := Function.update db.balance currency (db.balance currency - price) }

/-- `incrementSoldCountOptimistic`, when it does not run out of attempts. -/
def incrementSoldCount (cat : Catalog) (db : Db) (eventMinerId quantity : ℕ) : Option Db :=
  (cat.eventMiner eventMinerId).bind fun m =>
    if m.stockUnlimited || db.soldCount eventMinerId + quantity ≤ m.stockCount.getD 0 then
      some { db with
        soldCount := Function.update db.soldCount eventMinerId
          (db.soldCount eventMinerId + quantity) }
    else none

/-- The rows of `eventPurchase.createMany`. -/
def Db.recordPurchases (db : Db) (eventMinerId quantity : ℕ) : Db :=
  { db with
    eventPurchases := Function.update db.eventPurchases eventMinerId
      (db.eventPurchases eventMinerId + quantity) }

/-- `applyMiniPassXp`, which reads the season once more. -/
def applyMiniPassXp (cat : Catalog) (now : ℕ) (db : Db) (seasonId amount : ℕ) : Option Db :=
  (cat.season seasonId).bind fun season =>
    if isMiniPassSeasonLive season now then
      some { db with
        totalXp := Function.update db.totalXp seasonId (db.totalXp seasonId + amount) }
    else none

/-- The other writes of the transaction; `none` when one of them throws and
takes the payment back with it. -/
def Spend.writes (cat : Catalog) (now : ℕ) (db : Db) : Spend → Option Db
  | .createWithdrawal amount =>
      some { db with pendingWithdrawals := amount :: db.pendingWithdrawals }
  | .purchaseMiner _ => some db
  -- `roomNumber` is unique for a user
  | .buyRoom nextRoom _ =>
      if nextRoom ∈ db.rooms then none else some { db with rooms := nextRoom :: db.rooms }
  | .claimEventMiner id quantity | .purchaseEventMiner id quantity _ _ =>
      (incrementSoldCount cat db id quantity).map (·.recordPurchases id quantity)
  | .purchaseMiniPass seasonId xp _ => applyMiniPassXp cat now db seasonId xp
  | .convertPolToBlk _ blkOut =>
      some { db with
        blkBalance := db.blkBalance + blkOut
        conversions := (now, blkOut) :: db.conversions }

def Spend.commit (cat : Catalog) (now : ℕ) (db : Db) (spend : Spend) : Option Db :=
  (spend.writes cat now db).map (·.pay spend.payment)

/-! ## The service -/

def start (cat : Catalog) (db : Db) : Request → Except Refusal Call
  | .createWithdrawal amount => db.createWithdrawal amount
  | .purchaseMiner minerId quantity => db.purchaseMiner cat minerId quantity
  | .buyRoom => db.buyRoom cat
  | .purchaseOfferMiner id quantity now => db.purchaseEventMinerForUser cat id quantity now
  | .purchaseMiniPassLevels id quantity now => db.purchaseMiniPassLevels cat id quantity now
  | .purchaseMiniPassComplete id now => db.purchaseMiniPassComplete cat id now
  | .convertPolToBlk polAmount => db.convertPolToBlk cat polAmount

/-- A call that has queried moves on to its next query, or is refused. -/
def query (cat : Catalog) (db : Db) (now : ℕ) : Call → Except Refusal Call
  | .withdrawalUser amount => db.withdrawalUser amount
  | .roomUser nextRoom price => db.roomUser nextRoom price
  | .eventClaims id quantity => db.eventClaims cat id quantity
  | .eventUser id quantity => db.eventUser cat id quantity
  | .levelsEnrollment id q seen => db.levelsEnrollment cat id q seen
  | .completeEnrollment id seen => db.completeEnrollment cat id seen
  | .convertLast polGross blkOut seen => db.convertLast cat polGross blkOut seen now
  | .convertDaily polGross blkOut seen => db.convertDaily cat polGross blkOut seen now
  | .commit spend seen => .ok (.commit spend seen)

def resume (cat : Catalog) (db : Db) : Call → Answer → Option (Db × Option Call)
  | .commit spend _, .ok now => some ((spend.commit cat now db).getD db, none)
  | c, .ok now => some (db, (query cat db now c).toOption)
  | _, .error => some (db, none)

def service (cat : Catalog) : Service Db Call Request Answer where
  start db r := some (db, (start cat db r).toOption.toList)
  resume := resume cat

end BlockMiner.Spending
