import Mathlib.Algebra.Order.Ring.Rat
import Mathlib.Logic.Function.Basic

/-!
# Level rewards

`miniPassRewardFulfillmentService.js`: what a reward of the Mini Pass or of a
daily task delivers. The statements of a delivery add rows of the user and
increment one of the user's balances, and read tables that do not change
here, so a delivery is one write (`Holdings.deliver`). The game under which
temporary hash rate is stored is created if it is missing; that is left out.

`other` is any other text in the column of the reward kind.
-/

namespace BlockMiner.LevelRewards

inductive RewardKind where
  | NONE
  | SHOP_MINER
  | EVENT_MINER
  | HASHRATE_TEMP
  | BLK
  | POL
  | other
deriving DecidableEq

structure Reward where
  rewardKind : RewardKind
  minerId : Option ℕ
  eventMinerId : Option ℕ
  hashRate : Option ℚ
  hashRateDays : Option ℤ
  blkAmount : Option ℚ
  polAmount : Option ℚ
deriving DecidableEq

/-- A row of `miners`, with `baseHashRate` as its hash rate, or of `event_miners`. -/
structure MinerRow where
  name : String
  hashRate : Option ℚ
  slotSize : Option ℕ
  imageUrl : Option String
deriving DecidableEq

structure Catalog where
  miners : ℕ → Option MinerRow
  eventMiners : ℕ → Option MinerRow

/-- A machine in the inventory. -/
structure Machine where
  minerId : Option ℕ
  minerName : String
  level : ℕ
  hashRate : ℚ
  slotSize : ℕ
  imageUrl : String
  acquiredAt : ℤ
deriving DecidableEq

/-- Temporary hash rate, a row of `UserPowerGame`. -/
structure PowerGame where
  hashRate : ℚ
  playedAt : ℤ
  expiresAt : ℤ
deriving DecidableEq

inductive Delivery where
  | none
  | machine (m : Machine)
  | power (g : PowerGame)
  | blk (amount : ℚ)
  | pol (amount : ℚ)
deriving DecidableEq

inductive Failure where
  | MINER_REQUIRED
  | MINER_NOT_FOUND
  | EVENT_MINER_REQUIRED
  | EVENT_MINER_NOT_FOUND
  | HASHRATE_INVALID
  | BLK_INVALID
  | POL_INVALID
  | UNKNOWN_REWARD_KIND
deriving DecidableEq

/-- `x || d` -/
def orDefault {α : Type} [DecidableEq α] (zero d : α) (x : Option α) : α :=
  x.elim d fun a => if a = zero then d else a

def machineOf (minerId : Option ℕ) (row : MinerRow) (now : ℤ) : Machine where
  minerId := minerId
  minerName := row.name
  level := 1
  hashRate := row.hashRate.getD 0
  slotSize := orDefault 0 1 row.slotSize
  imageUrl := orDefault "" "/machines/reward1.png" row.imageUrl
  acquiredAt := now

def powerOf (hashRate : ℚ) (hashRateDays : Option ℤ) (now : ℤ) : PowerGame where
  hashRate := hashRate
  playedAt := now
  expiresAt := now + max 1 (orDefault 0 7 hashRateDays) * 24 * 60 * 60 * 1000

/-- The id of a reward's miner, which is `!minerId` when missing or zero. -/
def idOf (minerId : Option ℕ) : Option ℕ := minerId.filter (· ≠ 0)

/-- What `fulfillMiniPassLevelReward` delivers. -/
def fulfillMiniPassLevelReward (catalog : Catalog) (reward : Reward) (now : ℤ) :
    Except Failure Delivery :=
  match reward.rewardKind with
  | .NONE => .ok .none
  | .SHOP_MINER =>
      match idOf reward.minerId with
      | none => .error .MINER_REQUIRED
      | some minerId =>
          match catalog.miners minerId with
          | none => .error .MINER_NOT_FOUND
          | some miner => .ok (.machine (machineOf (some minerId) miner now))
  | .EVENT_MINER =>
      match idOf reward.eventMinerId with
      | none => .error .EVENT_MINER_REQUIRED
      | some eventMinerId =>
          match catalog.eventMiners eventMinerId with
          | none => .error .EVENT_MINER_NOT_FOUND
          | some em => .ok (.machine (machineOf none em now))
  | .HASHRATE_TEMP =>
      let hr := reward.hashRate.getD 0
      if hr ≤ 0 then .error .HASHRATE_INVALID
      else .ok (.power (powerOf hr reward.hashRateDays now))
  | .BLK =>
      let amt := reward.blkAmount.getD 0
      if amt ≤ 0 then .error .BLK_INVALID else .ok (.blk amt)
  | .POL =>
      let amt := reward.polAmount.getD 0
      if amt ≤ 0 then .error .POL_INVALID else .ok (.pol amt)
  | .other => .error .UNKNOWN_REWARD_KIND

/-- The reward is paid into a balance of the user. -/
def RewardKind.paysBalance : RewardKind → Bool
  | .BLK | .POL => true
  | _ => false

def Delivery.paysBalance : Delivery → Bool
  | .blk _ | .pol _ => true
  | _ => false

theorem paysBalance_fulfill {catalog : Catalog} {reward : Reward} {now : ℤ} {delivery : Delivery}
    (h : fulfillMiniPassLevelReward catalog reward now = .ok delivery) :
    delivery.paysBalance = reward.rewardKind.paysBalance := by
  unfold fulfillMiniPassLevelReward at h
  cases hkind : reward.rewardKind with
  | NONE =>
      simp only [hkind] at h
      cases h
      rfl
  | SHOP_MINER | EVENT_MINER =>
      simp only [hkind] at h
      split at h
      · cases h
      · split at h <;> cases h
        rfl
  | HASHRATE_TEMP | BLK | POL =>
      simp only [hkind] at h
      split at h <;> cases h
      rfl
  | other =>
      simp only [hkind] at h
      cases h

/-! ## Holdings -/

structure User where
  isBanned : Bool
  polBalance : ℚ
  blkBalance : ℚ
deriving DecidableEq

/-- What users have. -/
structure Holdings where
  users : ℕ → Option User
  inventory : List (ℕ × Machine)
  powerGames : List (ℕ × PowerGame)

def Holdings.updateUser (h : Holdings) (u : ℕ) (f : User → User) : Holdings :=
  { h with users := Function.update h.users u ((h.users u).map f) }

def Holdings.deliver (h : Holdings) (u : ℕ) : Delivery → Holdings
  | .none => h
  | .machine m => { h with inventory := (u, m) :: h.inventory }
  | .power g => { h with powerGames := (u, g) :: h.powerGames }
  | .blk amount => h.updateUser u fun user => { user with blkBalance := user.blkBalance + amount }
  | .pol amount => h.updateUser u fun user => { user with polBalance := user.polBalance + amount }

end BlockMiner.LevelRewards
