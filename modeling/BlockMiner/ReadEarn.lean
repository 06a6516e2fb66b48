import BlockMiner.Json
import BlockMiner.LevelRewards
import BlockMiner.Transactions
import Mathlib

/-!
# Read and Earn redemptions

`services/readEarnService.js`: `redeemReadEarnCampaign`, with the statements
of its transaction as steps. A redemption looks at its campaign before the
transaction and in it, looks for a row of the user, counts the rows of the
campaign where there is a limit, compares the code, delivers the reward and
creates its row. The instant of the request decides whether the campaign is
live. Pairs of a user and a campaign are unique in the rows.

Campaigns and the catalog do not change. The comparison of a code with its
hash is a parameter. The game under which hash rate is stored, which is created
if it is missing, is left out, and so is what happens after the commit.

The rewards are not a table: they record what was delivered for which row.
`requestedAt` is not a column.
-/

namespace BlockMiner.ReadEarn

open LevelRewards (Delivery Holdings Machine MinerRow PowerGame orDefault)

/-! ## Tables -/

/-- The text of the column in lower case, or any other text. -/
inductive RewardType where
  | blk
  | hashrate
  | machine
  | other
deriving DecidableEq

structure Campaign where
  title : String
  codeHash : String
  rewardType : RewardType
  rewardAmount : ℚ
  rewardMinerId : Option ℕ
  hashrateValidityDays : ℤ
  startsAt : ℤ
  expiresAt : ℤ
  isActive : Bool
  maxRedemptions : Option ℕ

structure Config where
  campaigns : ℕ → Option Campaign
  miners : ℕ → Option MinerRow
  /-- `bcrypt.compare` -/
  compare : String → String → Bool

structure Snapshot where
  rewardType : RewardType
  rewardAmount : ℚ
  rewardMinerId : Option ℕ
  hashrateValidityDays : Option ℤ
deriving DecidableEq

structure Redemption where
  userId : ℕ
  campaignId : ℕ
  rewardSnapshot : Snapshot
  ip : Option String
  userAgent : Option String
  redeemedAt : ℤ
  requestedAt : ℤ
deriving DecidableEq

structure Notification where
  userId : ℕ
  message : String
deriving DecidableEq

structure Reward where
  userId : ℕ
  campaignId : ℕ
  delivery : Delivery
deriving DecidableEq

structure Db where
  holdings : Holdings
  redemptions : List Redemption
  notifications : List Notification
  rewards : List Reward

/-! ## Checks -/

/-- `REDEEM_GENERIC` and `REDEEM_ALREADY`. -/
inductive RedeemCode where
  | READ_EARN_UNAVAILABLE
  | READ_EARN_ALREADY_CLAIMED
deriving DecidableEq

def isReadEarnCampaignLive (c : Campaign) (now : ℤ) : Bool :=
  if !c.isActive then false
  else if now < c.startsAt then false
  else if c.expiresAt < now then false
  else true

/-- The rows of a campaign. -/
def Db.count (db : Db) (campaignId : ℕ) : ℕ :=
  db.redemptions.countP fun row => row.campaignId = campaignId

def Redemption.key (row : Redemption) : ℕ × ℕ := (row.userId, row.campaignId)

scoped instance lawfulBEq_pair : LawfulBEq (ℕ × ℕ) := inferInstance

def Db.keys (db : Db) : List (ℕ × ℕ) := db.redemptions.map Redemption.key

/-- The limit of a campaign, where there is one, is reached by the rows that are there. -/
def isFull (db : Db) (c : Campaign) (campaignId : ℕ) : Bool :=
  c.maxRedemptions.any fun max => max ≤ db.count campaignId

def validityDays (c : Campaign) : ℤ := max 1 (orDefault 0 7 (some c.hashrateValidityDays))

def machineLevel (amt : ℚ) : ℕ := max 1 (min 100 (orDefault 0 1 (some ⌊amt⌋.toNat)))

def machineOf (minerId : ℕ) (miner : MinerRow) (amt : ℚ) (t : ℤ) : Machine where
  minerId := some minerId
  minerName := miner.name
  level := machineLevel amt
  hashRate := miner.hashRate.getD 0
  slotSize := miner.slotSize.getD 1
  -- a missing image is the empty text
  imageUrl := miner.imageUrl.getD ""
  acquiredAt := t

/-- What a redemption delivers; `none` where it is aborted. -/
def rewardOf (config : Config) (c : Campaign) (t : ℤ) : Option Delivery :=
  let amt := c.rewardAmount
  match c.rewardType with
  | .blk => if 0 < amt then some (.blk amt) else none
  | .hashrate =>
      if 0 < amt then some (.power ⟨amt, t, t + validityDays c * 86400000⟩) else none
  | .machine => do
      let minerId ← LevelRewards.idOf c.rewardMinerId
      let miner ← config.miners minerId
      return .machine (machineOf minerId miner amt t)
  | .other => none

def snapshotOf (c : Campaign) : Snapshot where
  rewardType := c.rewardType
  rewardAmount := c.rewardAmount
  rewardMinerId := c.rewardMinerId
  hashrateValidityDays := if c.rewardType = .hashrate then some (validityDays c) else none

/-! ## Requests -/

structure Request where
  userId : ℕ
  campaignId : ℕ
  rawCode : String
  ip : Option String
  userAgent : Option String
  now : ℤ

/-- `String(rawCode || "").trim()` -/
def Request.code (r : Request) : String := String.ofList (trimStr r.rawCode.toList)

/-- `code.length`, in UTF-16 units. -/
def jsLength (text : String) : ℕ :=
  (text.toList.map fun ch => if 0xFFFF < ch.toNat then 2 else 1).sum

def Request.row (r : Request) (c : Campaign) (redeemedAt : ℤ) : Redemption where
  userId := r.userId
  campaignId := r.campaignId
  rewardSnapshot := snapshotOf c
  ip := r.ip.map fun ip => String.ofList (ip.toList.take 64)
  userAgent := r.userAgent.map fun agent => String.ofList (agent.toList.take 512)
  redeemedAt := redeemedAt
  requestedAt := r.now

def Request.notification (r : Request) (c : Campaign) : Notification :=
  ⟨r.userId, "Read & Earn: " ++ c.title⟩

inductive Answer where
  | ok (now : ℤ)
  | error
deriving DecidableEq

/-! ## Writes -/

inductive Write where
  | deliver (reward : Reward)
  | createRedemption (row : Redemption)
  | notify (notification : Notification)

inductive Lock where
  | user (userId : ℕ)
  | redemption (key : ℕ × ℕ)
deriving DecidableEq

def apply (db : Db) : Write → Db
  | .deliver reward =>
      { db with
        holdings := db.holdings.deliver reward.userId reward.delivery
        rewards := reward :: db.rewards }
  | .createRedemption row => { db with redemptions := row :: db.redemptions }
  | .notify notification => { db with notifications := notification :: db.notifications }

/-- Only a balance is an update of a row. -/
def locks : Write → List Lock
  | .deliver reward => if reward.delivery.paysBalance then [.user reward.userId] else []
  | .createRedemption row => [.redemption row.key]
  | .notify _ => []

/-! ## Points -/

inductive Point where
  | preview (r : Request)
  | findCampaign (r : Request)
  | findExisting (r : Request) (c : Campaign)
  | count (r : Request) (c : Campaign)
  | compare (r : Request) (c : Campaign)
  | reward (r : Request) (c : Campaign)
  | createRedemption (r : Request) (c : Campaign) (delivery : Delivery)
  | notify (r : Request) (c : Campaign) (delivery : Delivery) (redeemedAt : ℤ)
  | commit (r : Request) (c : Campaign) (delivery : Delivery) (redeemedAt : ℤ)

def start (r : Request) : Option Point :=
  if r.code = "" ∨ 128 < jsLength r.code then none else some (.preview r)

variable (config : Config)

def needs : Point → Answer → List Lock
  | .reward r c, .ok now =>
      if (rewardOf config c now).any Delivery.paysBalance then [.user r.userId] else []
  | .createRedemption r _ _, .ok _ => [.redemption (r.userId, r.campaignId)]
  | _, _ => []

/-- An update of a balance throws where the user is missing. -/
def deliverable (db : Db) (userId : ℕ) (delivery : Delivery) : Bool :=
  !delivery.paysBalance || (db.holdings.users userId).isSome

/-- Any statement can fail, and the transaction is rolled back. -/
def step : Point → Db → Answer → Option (Next Db Write Point)
  | _, _, .error => some (.rollback none)
  | .preview r, _, .ok _ =>
      if (config.campaigns r.campaignId).any (isReadEarnCampaignLive · r.now) then
        some (.goto (.findCampaign r))
      else some (.rollback none)
  | .findCampaign r, _, .ok _ =>
      match config.campaigns r.campaignId with
      | none => some (.rollback none)
      | some c =>
          if isReadEarnCampaignLive c r.now then some (.goto (.findExisting r c))
          else some (.rollback none)
  | .findExisting r c, db, .ok _ =>
      if (r.userId, r.campaignId) ∈ db.keys then some (.rollback none)
      else some (.goto (if c.maxRedemptions.isSome then .count r c else .compare r c))
  | .count r c, db, .ok _ =>
      if isFull db c r.campaignId then some (.rollback none) else some (.goto (.compare r c))
  | .compare r c, _, .ok _ =>
      if config.compare r.code c.codeHash then some (.goto (.reward r c))
      else some (.rollback none)
  | .reward r c, db, .ok now =>
      match (rewardOf config c now).filter (deliverable db r.userId) with
      | none => some (.rollback none)
      | some delivery =>
          some (.write (.deliver ⟨r.userId, r.campaignId, delivery⟩)
            (.createRedemption r c delivery))
  | .createRedemption r c delivery, db, .ok now =>
      -- the index
      if (r.userId, r.campaignId) ∈ db.keys then some (.rollback none)
      else some (.write (.createRedemption (r.row c now)) (.notify r c delivery now))
  | .notify r c delivery redeemedAt, _, .ok _ =>
      some (.write (.notify (r.notification c)) (.commit r c delivery redeemedAt))
  | .commit .., _, .ok _ => some (.commit none)

/-! ## Inversion -/

/-- What the statement at a point can do, for the database it sees. -/
inductive Moves (v : Db) : Point → Answer → Next Db Write Point → Prop
  | failed (p : Point) (a : Answer) : Moves v p a (.rollback none)
  | previewed (r : Request) (a : Answer) : Moves v (.preview r) a (.goto (.findCampaign r))
  | found (r : Request) (c : Campaign) (a : Answer)
      (hfound : config.campaigns r.campaignId = some c)
      (hlive : isReadEarnCampaignLive c r.now = true) :
      Moves v (.findCampaign r) a (.goto (.findExisting r c))
  | unredeemed (r : Request) (c : Campaign) (a : Answer) :
      Moves v (.findExisting r c) a
        (.goto (if c.maxRedemptions.isSome then .count r c else .compare r c))
  | counted (r : Request) (c : Campaign) (a : Answer) :
      Moves v (.count r c) a (.goto (.compare r c))
  | compared (r : Request) (c : Campaign) (a : Answer) :
      Moves v (.compare r c) a (.goto (.reward r c))
  | delivers (r : Request) (c : Campaign) (delivery : Delivery) (now : ℤ)
      (hreward : rewardOf config c now = some delivery) :
      Moves v (.reward r c) (.ok now)
        (.write (.deliver ⟨r.userId, r.campaignId, delivery⟩) (.createRedemption r c delivery))
  | creates (r : Request) (c : Campaign) (delivery : Delivery) (now : ℤ)
      (hnew : (r.userId, r.campaignId) ∉ v.keys) :
      Moves v (.createRedemption r c delivery) (.ok now)
        (.write (.createRedemption (r.row c now)) (.notify r c delivery now))
  | notifies (r : Request) (c : Campaign) (delivery : Delivery) (redeemedAt : ℤ) (a : Answer) :
      Moves v (.notify r c delivery redeemedAt) a
        (.write (.notify (r.notification c)) (.commit r c delivery redeemedAt))
  | commits (r : Request) (c : Campaign) (delivery : Delivery) (redeemedAt now : ℤ) :
      Moves v (.commit r c delivery redeemedAt) (.ok now) (.commit none)

/-- **Inversion.** -/
theorem step_moves {p : Point} {v : Db} {a : Answer} {next : Next Db Write Point}
    (h : step config p v a = some next) : Moves config v p a next := by
  cases a with
  | error =>
      obtain rfl : Next.rollback none = next := by
        cases p <;> exact Option.some.inj h
      exact .failed p _
  | ok now =>
      cases p with
      | preview r =>
          simp only [step] at h
          split at h <;> obtain rfl := Option.some.inj h
          · exact .previewed r _
          · exact .failed _ _
      | findCampaign r =>
          simp only [step] at h
          split at h
          case h_1 =>
            obtain rfl := Option.some.inj h
            exact .failed _ _
          case h_2 c hfound =>
            split at h <;> obtain rfl := Option.some.inj h
            case isTrue hlive => exact .found r c _ hfound hlive
            case isFalse => exact .failed _ _
      | findExisting r c =>
          simp only [step] at h
          split at h <;> obtain rfl := Option.some.inj h
          · exact .failed _ _
          · exact .unredeemed r c _
      | count r c =>
          simp only [step] at h
          split at h <;> obtain rfl := Option.some.inj h
          · exact .failed _ _
          · exact .counted r c _
      | compare r c =>
          simp only [step] at h
          split at h <;> obtain rfl := Option.some.inj h
          · exact .compared r c _
          · exact .failed _ _
      | reward r c =>
          simp only [step] at h
          split at h
          case h_1 =>
            obtain rfl := Option.some.inj h
            exact .failed _ _
          case h_2 delivery hreward =>
            obtain rfl := Option.some.inj h
            exact .delivers r c delivery now (Option.filter_eq_some_iff.mp hreward).1
      | createRedemption r c delivery =>
          simp only [step] at h
          split at h <;> obtain rfl := Option.some.inj h
          case isTrue => exact .failed _ _
          case isFalse hnew => exact .creates r c delivery now hnew
      | notify r c delivery redeemedAt =>
          obtain rfl := Option.some.inj h
          exact .notifies r c delivery redeemedAt _
      | commit r c delivery redeemedAt =>
          obtain rfl := Option.some.inj h
          exact .commits r c delivery redeemedAt now

/-- A write takes the locks its statement waits for. -/
theorem covers {p p' : Point} {db : Db} {a : Answer} {w : Write}
    (h : step config p db a = some (.write w p')) : ∀ k ∈ locks w, k ∈ needs config p a := by
  intro k hk
  generalize hnext : Next.write w p' = next at h
  cases step_moves config h with
  | delivers r c delivery now hreward =>
      obtain ⟨rfl, -⟩ := Next.write.inj hnext
      simp only [needs, hreward, Option.any_some]
      exact hk
  | creates r c delivery now =>
      obtain ⟨rfl, -⟩ := Next.write.inj hnext
      exact hk
  | notifies =>
      obtain ⟨rfl, -⟩ := Next.write.inj hnext
      cases hk
  | _ => cases hnext

def transactions : Transactions Db Write Lock Request Point Answer where
  apply := apply
  locks := locks
  start := start
  needs := needs config
  step := step config
  covers := covers config

end BlockMiner.ReadEarn
