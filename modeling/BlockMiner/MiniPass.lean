import BlockMiner.Json
import BlockMiner.LevelRewards
import BlockMiner.Missions
import BlockMiner.Transactions
import Mathlib

/-!
# The Mini Pass, statement by statement

`services/miniPass`: `applyMiniPassXp`, the transaction of one mission of a
notification, the two purchases and the claim of a level reward, with the
statements of their transactions as steps.

A transaction that calls `applyMiniPassXp` is given by its calls; on its own
the function is one call. An enrollment is upserted with an empty update,
which reads the row and inserts it when it is missing, and locks nothing
otherwise. A unique violation leaves a transaction that can only be rolled
back, also where the code catches it. Seasons and rewards are fixed, and read
with the statement that follows. Amounts are exact. The audit log, the
metadata of a grant and what happens after the commit are left out.

`fulfilled` is not a table: it records for whom which reward was delivered.
-/

namespace BlockMiner.MiniPass

open LevelRewards (Reward Catalog Delivery Holdings User fulfillMiniPassLevelReward)
open Missions (Mission Progress)

/-! ## Seasons and levels -/

structure Season where
  startsAt : ℤ
  endsAt : ℤ
  maxLevel : ℤ
  xpPerLevel : ℤ
  buyLevelPricePol : ℚ
  completePassPricePol : ℚ
  isActive : Bool
  deletedAt : Option ℤ

structure LevelReward where
  id : ℕ
  seasonId : ℕ
  level : ℤ
  reward : Reward

/-- Ids start at 1. -/
structure Config where
  seasons : ℕ → Option Season
  levelRewards : List LevelReward
  catalog : Catalog
  seasons_zero : seasons 0 = none
  levelRewards_nodup : (levelRewards.map LevelReward.id).Nodup

def isMiniPassSeasonLive (season : Season) (now : ℤ) : Bool :=
  season.deletedAt.isNone && season.isActive && season.startsAt ≤ now && now ≤ season.endsAt

namespace Season

/-- `Math.max(1, Math.floor(Number(season.xpPerLevel) || 1))` -/
def step (season : Season) : ℕ := max 1 season.xpPerLevel.toNat

def levels (season : Season) : ℕ := max 1 season.maxLevel.toNat

end Season

def computePassLevel (totalXp xpPerLevel maxLevel : ℕ) : ℕ :=
  min (max 1 maxLevel) (max 1 (1 + totalXp / max 1 xpPerLevel))

def xpCapForSeason (maxLevel xpPerLevel : ℕ) : ℕ := (max 1 maxLevel - 1) * max 1 xpPerLevel

def xpRemainingToCap (totalXp maxLevel xpPerLevel : ℕ) : ℕ :=
  xpCapForSeason maxLevel xpPerLevel - totalXp

/-! ## Tables -/

structure LedgerRow where
  userId : ℕ
  seasonId : ℕ
  amount : ℕ
  source : String
  idempotencyKey : String
  missionId : Option ℕ
  periodKey : Option String

/-- `levelsAdded` is 0 for a complete pass. -/
structure Purchase where
  userId : ℕ
  seasonId : ℕ
  levelsAdded : ℕ
  xpAdded : ℕ
  pricePaid : ℚ

structure Db where
  holdings : Holdings
  enrollments : ℕ → ℕ → Option ℕ
  xpLedger : List LedgerRow
  dedupeTicks : List (ℕ × String)
  progress : ℕ → ℕ → String → Option Progress
  purchases : Table Purchase
  claims : List (ℕ × ℕ)
  fulfilled : List (ℕ × ℕ)

/-- `enr?.totalXp ?? 0` -/
def Db.totalXp (db : Db) (u s : ℕ) : ℕ := (db.enrollments u s).getD 0

/-! ## Requests -/

structure XpCall where
  userId : ℕ
  seasonId : ℕ
  amount : JsNumber
  source : String
  idempotencyKey : String
  missionId : Option ℕ
  periodKey : Option String

/-- The amount of a call with valid input. -/
def XpCall.granted (call : XpCall) : Option ℕ :=
  match call.amount with
  | .finite q =>
      if call.userId ≠ 0 ∧ call.seasonId ≠ 0 ∧ call.idempotencyKey ≠ "" ∧ 0 < ⌊q⌋ then
        some ⌊q⌋.toNat
      else none
  | .infinite _ | .nan => none

/-- The transaction for one mission of a notification. -/
structure Bump where
  userId : ℕ
  seasonId : ℕ
  mission : Mission
  delta : ℚ
  dedupeKey : String
  periodKey : String

/-- A purchase of levels, with the quantity of the request, or of the rest of
the pass. -/
structure Order where
  userId : ℕ
  seasonId : ℕ
  quantity : Option JsNumber

structure Claim where
  userId : ℕ
  seasonId : ℕ
  levelRewardId : ℕ

inductive Request where
  | applyMiniPassXp (calls : List XpCall)
  | bumpMission (bump : Bump)
  | purchase (order : Order)
  | claimMiniPassLevelReward (claim : Claim)

inductive Answer where
  | ok (now : ℤ)
  | error
deriving DecidableEq

/-! ## Writes -/

inductive Write where
  | createEnrollment (u s : ℕ)
  | createLedger (row : LedgerRow)
  | incrementXp (u s n : ℕ)
  | createTick (missionId : ℕ) (dedupeKey : String)
  | upsertProgress (u missionId : ℕ) (periodKey : String) (delta : ℚ)
  | completeProgress (u missionId : ℕ) (periodKey : String) (now : ℤ)
  | debit (u : ℕ) (price : ℚ)
  | createPurchase (id : ℕ) (row : Purchase)
  | createClaim (u rewardId : ℕ)
  | deliver (u rewardId : ℕ) (delivery : Delivery)

/-- A row, or the entry of a unique index. -/
inductive Lock where
  | user (u : ℕ)
  | enrollment (u s : ℕ)
  | idempotencyKey (k : String)
  | tick (missionId : ℕ) (dedupeKey : String)
  | progress (u missionId : ℕ) (periodKey : String)
  | claim (u rewardId : ℕ)
deriving DecidableEq

def setEnrollment (db : Db) (u s totalXp : ℕ) : Db :=
  { db with
    enrollments := fun u' s' => if u' = u ∧ s' = s then some totalXp else db.enrollments u' s' }

def setProgress (db : Db) (u missionId : ℕ) (periodKey : String) (row : Progress) : Db :=
  { db with progress := Missions.setRow db.progress u missionId periodKey row }

/-- An enrollment is only created where there is none, and only incremented
where there is one. -/
def apply (db : Db) : Write → Db
  | .createEnrollment u s => setEnrollment db u s (db.totalXp u s)
  | .createLedger row => { db with xpLedger := row :: db.xpLedger }
  | .incrementXp u s n => setEnrollment db u s (db.totalXp u s + n)
  | .createTick missionId dedupeKey =>
      { db with dedupeTicks := (missionId, dedupeKey) :: db.dedupeTicks }
  | .upsertProgress u missionId periodKey delta =>
      setProgress db u missionId periodKey <|
        match db.progress u missionId periodKey with
        | none => ⟨delta, none⟩
        | some row => { row with currentValue := row.currentValue + delta }
  | .completeProgress u missionId periodKey now =>
      match db.progress u missionId periodKey with
      | none => db
      | some row => setProgress db u missionId periodKey { row with completedAt := some now }
  | .debit u price =>
      { db with
        holdings := db.holdings.updateUser u fun user =>
          { user with polBalance := user.polBalance - price } }
  | .createPurchase id row => { db with purchases := db.purchases.place id row }
  | .createClaim u rewardId => { db with claims := (u, rewardId) :: db.claims }
  | .deliver u rewardId delivery =>
      { db with
        holdings := db.holdings.deliver u delivery
        fulfilled := (u, rewardId) :: db.fulfilled }

def locks : Write → List Lock
  | .createEnrollment u s | .incrementXp u s _ => [.enrollment u s]
  | .createLedger row => [.idempotencyKey row.idempotencyKey]
  | .createTick missionId dedupeKey => [.tick missionId dedupeKey]
  | .upsertProgress u missionId periodKey _ | .completeProgress u missionId periodKey _ =>
      [.progress u missionId periodKey]
  | .debit u _ => [.user u]
  | .createPurchase _ _ => []
  | .createClaim u rewardId => [.claim u rewardId]
  | .deliver u _ delivery => if delivery.paysBalance then [.user u] else []

/-! ## Points -/

/-- A purchase as it has been priced. -/
structure Sale where
  order : Order
  season : Season
  currentXp : ℕ
  levelsAdded : ℕ
  xpAdded : ℕ
  price : ℚ

/-- What a transaction does after `applyMiniPassXp`. -/
inductive After where
  | calls (rest : List XpCall)
  | purchase (sale : Sale)

/-- What a transaction does after it has upserted an enrollment. -/
inductive Enrolled where
  | xp (call : XpCall) (n : ℕ) (after : After)
  | purchase (order : Order) (season : Season) (polBalance : ℚ)
  | claim (claim : Claim) (season : Season) (reward : LevelReward)

inductive Point where
  /-- In `applyMiniPassXp`, with the amount it grants. -/
  | findSeason (call : XpCall) (n : ℕ) (after : After)
  | createLedger (call : XpCall) (n : ℕ) (after : After)
  | incrementXp (call : XpCall) (n : ℕ) (after : After)
  | findEnrollment (u s : ℕ) (next : Enrolled)
  | createEnrollment (u s : ℕ) (next : Enrolled)
  | consumeDedupe (bump : Bump)
  | upsertProgress (bump : Bump)
  | readProgress (bump : Bump)
  | completeProgress (bump : Bump)
  | findBuyer (order : Order)
  | readXp (order : Order) (season : Season) (polBalance : ℚ)
  | debitBuyer (sale : Sale)
  | nextPurchaseId (sale : Sale)
  | createPurchase (sale : Sale) (id : ℕ)
  | commitPurchase (sale : Sale)
  | findClaimant (claim : Claim)
  | readLevel (claim : Claim) (season : Season) (reward : LevelReward)
  | createClaim (claim : Claim) (reward : LevelReward)
  | fulfill (claim : Claim) (reward : LevelReward)
  | commitClaim (claim : Claim) (reward : LevelReward)
  | commit

/-- The next call of a transaction with valid input; the others return at once. -/
def nextCall : List XpCall → Point
  | [] => .commit
  | call :: rest =>
      match call.granted with
      | none => nextCall rest
      | some n => .findSeason call n (.calls rest)

def After.next : After → Point
  | .calls rest => nextCall rest
  | .purchase sale => .commitPurchase sale

def Enrolled.next : Enrolled → Point
  | .xp call n after => .createLedger call n after
  | .purchase order season polBalance => .readXp order season polBalance
  | .claim c season reward => .readLevel c season reward

/-- `applyMiniPassXp` inside a transaction. -/
def applyMiniPassXp (call : XpCall) (after : After) : Point :=
  match call.granted with
  | none => after.next
  | some n => .findSeason call n after

def start : Request → Option Point
  | .applyMiniPassXp calls => some (nextCall calls)
  | .bumpMission bump => some (.consumeDedupe bump)
  | .purchase order => some (.findBuyer order)
  | .claimMiniPassLevelReward claim => some (.findClaimant claim)

/-! ## Steps -/

def ledgerRow (call : XpCall) (n : ℕ) : LedgerRow where
  userId := call.userId
  seasonId := call.seasonId
  amount := n
  source := call.source
  idempotencyKey := call.idempotencyKey
  missionId := call.missionId
  periodKey := call.periodKey

/-- The grant of a completed mission; the amount is an integer. -/
def Bump.xpCall (bump : Bump) : XpCall where
  userId := bump.userId
  seasonId := bump.seasonId
  amount := .finite (max 0 bump.mission.xpReward)
  source := "MISSION"
  idempotencyKey := "mini-pass-mission-" ++ toString bump.mission.id ++ "-" ++ bump.periodKey
  missionId := some bump.mission.id
  periodKey := some bump.periodKey

/-- `Math.min(50, Math.max(1, Math.floor(Number(quantity) || 1)))` -/
def quantityOf : JsNumber → ℕ
  | .finite q => if q = 0 then 1 else (min 50 (max 1 ⌊q⌋)).toNat
  | .infinite negative => if negative then 1 else 50
  | .nan => 1

/-- What the order grants, and its levels and its price, for the experience read. -/
def Order.priced (order : Order) (season : Season) (currentXp : ℕ) : Sale :=
  let remaining := xpRemainingToCap currentXp season.levels season.step
  match order.quantity with
  | some quantity =>
      let xpGrant := min (quantityOf quantity * season.step) remaining
      let levelsEffective := (xpGrant + season.step - 1) / season.step
      { order, season, currentXp, levelsAdded := levelsEffective, xpAdded := xpGrant
        price := season.buyLevelPricePol * levelsEffective }
  | none =>
      { order, season, currentXp, levelsAdded := 0, xpAdded := remaining
        price := season.completePassPricePol }

def Order.priceConfigured (order : Order) (season : Season) : Bool :=
  match order.quantity with
  | some _ => 0 < season.buyLevelPricePol
  | none => 0 < season.completePassPricePol

def Sale.row (sale : Sale) : Purchase where
  userId := sale.order.userId
  seasonId := sale.order.seasonId
  levelsAdded := sale.levelsAdded
  xpAdded := sale.xpAdded
  pricePaid := sale.price

def Sale.xpCall (sale : Sale) (id : ℕ) : XpCall where
  userId := sale.order.userId
  seasonId := sale.order.seasonId
  amount := .finite sale.xpAdded
  source := "PURCHASE"
  idempotencyKey :=
    (if sale.order.quantity.isSome then "mini-pass-buy-level-" else "mini-pass-complete-")
      ++ toString id
  missionId := none
  periodKey := none

variable (config : Config)

/-- The season of a purchase or a claim. -/
def liveSeason (seasonId : ℕ) (now : ℤ) : Option Season :=
  (config.seasons seasonId).filter fun season => isMiniPassSeasonLive season now

/-- A user who is not banned. -/
def allowedUser (db : Db) (u : ℕ) : Option User :=
  (db.holdings.users u).filter fun user => !user.isBanned

def findReward (seasonId levelRewardId : ℕ) : Option LevelReward :=
  config.levelRewards.find? fun r => r.id = levelRewardId && r.seasonId = seasonId

def userLevel (db : Db) (u s : ℕ) (season : Season) : ℕ :=
  computePassLevel (db.totalXp u s) season.step season.levels

def needs : Point → Answer → List Lock
  | .createLedger call _ _, .ok _ => [.idempotencyKey call.idempotencyKey]
  | .incrementXp call _ _, .ok _ => [.enrollment call.userId call.seasonId]
  | .createEnrollment u s _, .ok _ => [.enrollment u s]
  | .consumeDedupe bump, .ok _ => [.tick bump.mission.id bump.dedupeKey]
  | .upsertProgress bump, .ok _ | .completeProgress bump, .ok _ =>
      [.progress bump.userId bump.mission.id bump.periodKey]
  | .debitBuyer sale, .ok _ => [.user sale.order.userId]
  | .createClaim claim reward, .ok _ => [.claim claim.userId reward.id]
  | .fulfill claim reward, .ok _ =>
      if reward.reward.rewardKind.paysBalance then [.user claim.userId] else []
  | _, _ => []

/-- Any statement can fail, and the transaction is rolled back. -/
def step : Point → Db → Answer → Option (Next Db Write Point)
  | _, _, .error => some (.rollback none)
  -- applyMiniPassXp
  | .findSeason call n after, _, .ok now =>
      match liveSeason config call.seasonId now with
      | none => some (.rollback none)
      | some _ => some (.goto (.findEnrollment call.userId call.seasonId (.xp call n after)))
  | .createLedger call n after, db, .ok _ =>
      if db.xpLedger.any fun row => row.idempotencyKey = call.idempotencyKey then
        some (.rollback none)
      else some (.write (.createLedger (ledgerRow call n)) (.incrementXp call n after))
  | .incrementXp call n after, _, .ok _ =>
      some (.write (.incrementXp call.userId call.seasonId n) after.next)
  | .findEnrollment u s next, db, .ok _ =>
      match db.enrollments u s with
      | some _ => some (.goto next.next)
      | none => some (.goto (.createEnrollment u s next))
  | .createEnrollment u s next, db, .ok _ =>
      match db.enrollments u s with
      | some _ => some (.rollback none)
      | none => some (.write (.createEnrollment u s) next.next)
  -- a mission
  | .consumeDedupe bump, db, .ok _ =>
      if (bump.mission.id, bump.dedupeKey) ∈ db.dedupeTicks then some (.rollback none)
      else
        some (.write (.createTick bump.mission.id bump.dedupeKey)
          (if bump.mission.targetValue ≤ 0 then .commit else .upsertProgress bump))
  | .upsertProgress bump, _, .ok _ =>
      some (.write (.upsertProgress bump.userId bump.mission.id bump.periodKey bump.delta)
        (.readProgress bump))
  | .readProgress bump, db, .ok _ =>
      match db.progress bump.userId bump.mission.id bump.periodKey with
      | none => some (.goto .commit)
      | some row =>
          if row.completedAt.isSome ∨ row.currentValue < bump.mission.targetValue then
            some (.goto .commit)
          else some (.goto (.completeProgress bump))
  | .completeProgress bump, db, .ok now =>
      match db.progress bump.userId bump.mission.id bump.periodKey with
      | none => some (.goto .commit)
      | some row =>
          if row.completedAt.isSome then some (.goto .commit)
          else
            some (.write (.completeProgress bump.userId bump.mission.id bump.periodKey now)
              (if bump.mission.xpReward ≤ 0 then .commit
              else applyMiniPassXp bump.xpCall (.calls [])))
  -- a purchase
  | .findBuyer order, db, .ok now =>
      match allowedUser db order.userId, liveSeason config order.seasonId now with
      | some user, some season =>
          if order.priceConfigured season then
            some (.goto (.findEnrollment order.userId order.seasonId
              (.purchase order season user.polBalance)))
          else some (.rollback none)
      | _, _ => some (.rollback none)
  | .readXp order season polBalance, db, .ok _ =>
      let sale := order.priced season (db.totalXp order.userId order.seasonId)
      if xpRemainingToCap sale.currentXp season.levels season.step = 0
          ∨ polBalance < sale.price then
        some (.rollback none)
      else some (.goto (.debitBuyer sale))
  | .debitBuyer sale, _, .ok _ =>
      some (.write (.debit sale.order.userId sale.price) (.nextPurchaseId sale))
  | .nextPurchaseId sale, db, .ok _ =>
      some (.put (fun db => { db with purchases := db.purchases.reserve })
        (some (.createPurchase sale db.purchases.nextId)))
  | .createPurchase sale id, _, .ok _ =>
      some (.write (.createPurchase id sale.row)
        (applyMiniPassXp (sale.xpCall id) (.purchase sale)))
  -- a claim
  | .findClaimant claim, db, .ok now =>
      match allowedUser db claim.userId, liveSeason config claim.seasonId now,
          findReward config claim.seasonId claim.levelRewardId with
      | some _, some season, some reward =>
          some (.goto (.findEnrollment claim.userId claim.seasonId (.claim claim season reward)))
      | _, _, _ => some (.rollback none)
  | .readLevel claim season reward, db, .ok _ =>
      if (userLevel db claim.userId claim.seasonId season : ℤ) < reward.level then
        some (.rollback none)
      else some (.goto (.createClaim claim reward))
  | .createClaim claim reward, db, .ok _ =>
      if (claim.userId, reward.id) ∈ db.claims then some (.rollback none)
      else some (.write (.createClaim claim.userId reward.id) (.fulfill claim reward))
  | .fulfill claim reward, _, .ok now =>
      match fulfillMiniPassLevelReward config.catalog reward.reward now with
      | .error _ => some (.rollback none)
      | .ok delivery =>
          some (.write (.deliver claim.userId reward.id delivery) (.commitClaim claim reward))
  | .commit, _, .ok _ | .commitPurchase _, _, .ok _ | .commitClaim _ _, _, .ok _ =>
      some (.commit none)

/-- A write takes the locks its statement waits for. -/
theorem covers {p p' : Point} {db : Db} {a : Answer} {w : Write}
    (h : step config p db a = some (.write w p')) : ∀ k ∈ locks w, k ∈ needs p a := by
  cases a with
  | error => cases p <;> cases h
  | ok now =>
      intro k hk
      cases p with
      | incrementXp | upsertProgress | debitBuyer | createPurchase =>
          obtain ⟨rfl, -⟩ := Next.write.inj (Option.some.inj h)
          exact hk
      | createLedger | createEnrollment | consumeDedupe | createClaim =>
          simp only [step] at h
          split at h <;> try cases h
          exact hk
      | fulfill claim reward =>
          simp only [step] at h
          split at h
          case h_1 => cases h
          case h_2 delivery hdelivery =>
            obtain ⟨rfl, -⟩ := Next.write.inj (Option.some.inj h)
            rw [needs, ← LevelRewards.paysBalance_fulfill hdelivery]
            exact hk
      | completeProgress bump =>
          simp only [step] at h
          split at h
          · cases h
          · split at h
            · cases h
            · obtain ⟨rfl, -⟩ := Next.write.inj (Option.some.inj h)
              exact hk
      | findSeason | findEnrollment | readXp | findClaimant | readLevel =>
          simp only [step] at h
          split at h <;> cases h
      | readProgress | findBuyer =>
          simp only [step] at h
          split at h
          · first
            | cases h
            | split at h <;> cases h
          · first
            | cases h
            | split at h <;> cases h
      | nextPurchaseId | commit | commitPurchase | commitClaim => cases h

def transactions : Transactions Db Write Lock Request Point Answer where
  apply := apply
  locks := locks
  start := start
  needs := needs
  step := step config
  covers := covers config

/-! ## Inversion -/

/-- What the statement at a point can do, for the database it sees. -/
inductive Moves (v : Db) : Point → Next Db Write Point → Prop
  | failed (p : Point) : Moves v p (.rollback none)
  | foundSeason (call : XpCall) (n : ℕ) (after : After) :
      Moves v (.findSeason call n after)
        (.goto (.findEnrollment call.userId call.seasonId (.xp call n after)))
  | ledgered (call : XpCall) (n : ℕ) (after : After)
      (hnew : ∀ row ∈ v.xpLedger, row.idempotencyKey ≠ call.idempotencyKey) :
      Moves v (.createLedger call n after)
        (.write (.createLedger (ledgerRow call n)) (.incrementXp call n after))
  | incremented (call : XpCall) (n : ℕ) (after : After) :
      Moves v (.incrementXp call n after)
        (.write (.incrementXp call.userId call.seasonId n) after.next)
  | enrolled (u s : ℕ) (next : Enrolled) : Moves v (.findEnrollment u s next) (.goto next.next)
  | unenrolled (u s : ℕ) (next : Enrolled) :
      Moves v (.findEnrollment u s next) (.goto (.createEnrollment u s next))
  | enrolls (u s : ℕ) (next : Enrolled) :
      Moves v (.createEnrollment u s next) (.write (.createEnrollment u s) next.next)
  | ticked (bump : Bump) :
      Moves v (.consumeDedupe bump)
        (.write (.createTick bump.mission.id bump.dedupeKey)
          (if bump.mission.targetValue ≤ 0 then .commit else .upsertProgress bump))
  | bumped (bump : Bump) :
      Moves v (.upsertProgress bump)
        (.write (.upsertProgress bump.userId bump.mission.id bump.periodKey bump.delta)
          (.readProgress bump))
  | unfinished (bump : Bump) : Moves v (.readProgress bump) (.goto .commit)
  | finished (bump : Bump) : Moves v (.readProgress bump) (.goto (.completeProgress bump))
  | completedBefore (bump : Bump) : Moves v (.completeProgress bump) (.goto .commit)
  | completed (bump : Bump) (now : ℤ) :
      Moves v (.completeProgress bump)
        (.write (.completeProgress bump.userId bump.mission.id bump.periodKey now)
          (if bump.mission.xpReward ≤ 0 then .commit
          else applyMiniPassXp bump.xpCall (.calls [])))
  | buyer (order : Order) (season : Season) (user : User)
      (hseason : config.seasons order.seasonId = some season)
      (huser : v.holdings.users order.userId = some user) :
      Moves v (.findBuyer order)
        (.goto (.findEnrollment order.userId order.seasonId
          (.purchase order season user.polBalance)))
  | priced (order : Order) (season : Season) (polBalance : ℚ)
      (hopen : xpRemainingToCap (v.totalXp order.userId order.seasonId) season.levels season.step
        ≠ 0) :
      Moves v (.readXp order season polBalance)
        (.goto (.debitBuyer (order.priced season (v.totalXp order.userId order.seasonId))))
  | debited (sale : Sale) :
      Moves v (.debitBuyer sale)
        (.write (.debit sale.order.userId sale.price) (.nextPurchaseId sale))
  | numbered (sale : Sale) :
      Moves v (.nextPurchaseId sale)
        (.put (fun db => { db with purchases := db.purchases.reserve })
          (some (.createPurchase sale v.purchases.nextId)))
  | purchased (sale : Sale) (id : ℕ) :
      Moves v (.createPurchase sale id)
        (.write (.createPurchase id sale.row) (applyMiniPassXp (sale.xpCall id) (.purchase sale)))
  | claimant (claim : Claim) (season : Season) (reward : LevelReward)
      (hseason : config.seasons claim.seasonId = some season)
      (hreward : findReward config claim.seasonId claim.levelRewardId = some reward) :
      Moves v (.findClaimant claim)
        (.goto (.findEnrollment claim.userId claim.seasonId (.claim claim season reward)))
  | eligible (claim : Claim) (season : Season) (reward : LevelReward)
      (hlevel : reward.level ≤ userLevel v claim.userId claim.seasonId season) :
      Moves v (.readLevel claim season reward) (.goto (.createClaim claim reward))
  | claims (claim : Claim) (reward : LevelReward) (hnew : (claim.userId, reward.id) ∉ v.claims) :
      Moves v (.createClaim claim reward)
        (.write (.createClaim claim.userId reward.id) (.fulfill claim reward))
  | fulfills (claim : Claim) (reward : LevelReward) (delivery : Delivery) (now : ℤ)
      (hdelivery : fulfillMiniPassLevelReward config.catalog reward.reward now = .ok delivery) :
      Moves v (.fulfill claim reward)
        (.write (.deliver claim.userId reward.id delivery) (.commitClaim claim reward))
  | commits : Moves v .commit (.commit none)
  | commitsPurchase (sale : Sale) : Moves v (.commitPurchase sale) (.commit none)
  | commitsClaim (claim : Claim) (reward : LevelReward) :
      Moves v (.commitClaim claim reward) (.commit none)

theorem liveSeason_eq_some {seasonId : ℕ} {now : ℤ} {season : Season}
    (h : liveSeason config seasonId now = some season) : config.seasons seasonId = some season :=
  (Option.filter_eq_some_iff.mp h).1

/-- **Inversion.** -/
theorem step_moves {p : Point} {v : Db} {a : Answer} {next : Next Db Write Point}
    (h : step config p v a = some next) : Moves config v p next := by
  cases a with
  | error =>
      obtain rfl : Next.rollback none = next := by
        cases p <;> exact Option.some.inj h
      exact .failed p
  | ok now =>
      cases p with
      | findSeason call n after =>
          simp only [step] at h
          split at h <;> obtain rfl := Option.some.inj h
          · exact .failed _
          · exact .foundSeason call n after
      | createLedger call n after =>
          simp only [step] at h
          split at h <;> obtain rfl := Option.some.inj h
          case isTrue => exact .failed _
          case isFalse hnew => exact .ledgered call n after (by simpa using hnew)
      | incrementXp call n after =>
          obtain rfl := Option.some.inj h
          exact .incremented call n after
      | findEnrollment u s next =>
          simp only [step] at h
          split at h <;> obtain rfl := Option.some.inj h
          · exact .enrolled u s next
          · exact .unenrolled u s next
      | createEnrollment u s next =>
          simp only [step] at h
          split at h <;> obtain rfl := Option.some.inj h
          · exact .failed _
          · exact .enrolls u s next
      | consumeDedupe bump =>
          simp only [step] at h
          split at h <;> obtain rfl := Option.some.inj h
          · exact .failed _
          · exact .ticked bump
      | upsertProgress bump =>
          obtain rfl := Option.some.inj h
          exact .bumped bump
      | readProgress bump =>
          simp only [step] at h
          split at h
          · obtain rfl := Option.some.inj h
            exact .unfinished bump
          · split at h <;> obtain rfl := Option.some.inj h
            · exact .unfinished bump
            · exact .finished bump
      | completeProgress bump =>
          simp only [step] at h
          split at h
          · obtain rfl := Option.some.inj h
            exact .completedBefore bump
          · split at h <;> obtain rfl := Option.some.inj h
            · exact .completedBefore bump
            · exact .completed bump now
      | findBuyer order =>
          simp only [step] at h
          split at h
          case h_1 user season huser hseason =>
            split at h <;> obtain rfl := Option.some.inj h
            · exact .buyer order season user (liveSeason_eq_some config hseason)
                (Option.filter_eq_some_iff.mp huser).1
            · exact .failed _
          case h_2 =>
            obtain rfl := Option.some.inj h
            exact .failed _
      | readXp order season polBalance =>
          simp only [step] at h
          split at h <;> obtain rfl := Option.some.inj h
          case isTrue => exact .failed _
          case isFalse hopen =>
            refine .priced order season polBalance fun hzero => hopen (.inl ?_)
            unfold Order.priced
            split <;> exact hzero
      | debitBuyer sale =>
          obtain rfl := Option.some.inj h
          exact .debited sale
      | nextPurchaseId sale =>
          obtain rfl := Option.some.inj h
          exact .numbered sale
      | createPurchase sale id =>
          obtain rfl := Option.some.inj h
          exact .purchased sale id
      | commitPurchase sale =>
          obtain rfl := Option.some.inj h
          exact .commitsPurchase sale
      | findClaimant claim =>
          simp only [step] at h
          split at h <;> obtain rfl := Option.some.inj h
          case h_1 user season reward huser hseason hreward =>
            exact .claimant claim season reward (liveSeason_eq_some config hseason) hreward
          case h_2 => exact .failed _
      | readLevel claim season reward =>
          simp only [step] at h
          split at h <;> obtain rfl := Option.some.inj h
          case isTrue => exact .failed _
          case isFalse hlevel => exact .eligible claim season reward (not_lt.mp hlevel)
      | createClaim claim reward =>
          simp only [step] at h
          split at h <;> obtain rfl := Option.some.inj h
          case isTrue => exact .failed _
          case isFalse hnew => exact .claims claim reward hnew
      | fulfill claim reward =>
          simp only [step] at h
          split at h <;> obtain rfl := Option.some.inj h
          case h_1 => exact .failed _
          case h_2 delivery hdelivery => exact .fulfills claim reward delivery now hdelivery
      | commitClaim claim reward =>
          obtain rfl := Option.some.inj h
          exact .commitsClaim claim reward
      | commit =>
          obtain rfl := Option.some.inj h
          exact .commits

end BlockMiner.MiniPass
