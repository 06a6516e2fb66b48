import BlockMiner.HashRate
import Mathlib

/-!
# The hash rate of a user, in the profile and in the ranking

The total of a user is added up in three places, each from its own query:
`getOrCreateMinerProfile` and `syncUserBaseHashRate` of
`models/minerProfileModel.js`, and `aggregateUserHashrates` of
`services/networkHashrateService.js` over rows selected by `rankingUserSelect`.
The ranking is sorted by the last.

Hash rates are exact. A machine is never `null`; of the optional fields only
the grants of the second version can be left out of a selection.
-/

namespace BlockMiner.NetworkHashrate

/-! ## Tables -/

structure Game where
  slug : String
  name : String

structure UserMiner where
  userId : ℕ
  hashRate : ℚ
  isActive : Bool

structure UserPowerGame where
  userId : ℕ
  hashRate : ℚ
  expiresAt : ℤ
  game : Game

structure YoutubeWatchPower where
  userId : ℕ
  hashRate : ℚ
  expiresAt : ℤ

/-- The columns that are read here. -/
structure User where
  id : ℕ
  username : Option String
  name : String
  isCreator : Bool
  youtubeUrl : Option String
  polBalance : Option ℚ
  miningPayoutMode : String
  refCode : Option String
  referrals : ℕ

structure Db where
  users : List User
  userMiner : List UserMiner
  /-- By its user. -/
  userInventory : List ℕ
  userPowerGame : List UserPowerGame
  youtubeWatchPower : List YoutubeWatchPower
  autoMiningGpu : List HashRate.AutoMiningGpu
  autoMiningV2PowerGrant : List HashRate.AutoMiningV2PowerGrant

/-! ## The profile -/

section Profile

variable (db : Db) (v2Ok : Bool) (userId : ℕ) (now : ℤ)

def activeMiners : List UserMiner := db.userMiner.filter fun m => m.userId = userId ∧ m.isActive

def gamePowers : List UserPowerGame :=
  db.userPowerGame.filter fun g => g.userId = userId ∧ now < g.expiresAt

def ytPowers : List YoutubeWatchPower :=
  db.youtubeWatchPower.filter fun y => y.userId = userId ∧ now < y.expiresAt

def gpuPowers : List HashRate.AutoMiningGpu :=
  db.autoMiningGpu.filter fun p => p.userId = userId ∧ p.isClaimed ∧ p.expiresAt.any (now < ·)

def autoMiningV2Grants : List HashRate.AutoMiningV2PowerGrant :=
  if v2Ok then db.autoMiningV2PowerGrant.filter fun g => g.userId = userId ∧ now < g.expiresAt
  else []

structure MinerProfile where
  id : ℕ
  username : Option String
  rigs : ℕ
  inventoryCount : ℕ
  base_hash_rate : ℚ
  machine_hash_rate : ℚ
  game_hash_rate : ℚ
  youtube_hash_rate : ℚ
  auto_mining_hash_rate : ℚ
  balance : ℚ
  lifetime_mined : ℚ
  refCode : Option String
  referralCount : ℕ
  mining_payout_mode : PayoutMode

/-- A user without a referral code gets a new one. -/
def ensureRefCode (newRefCode : String) (user : User) : User :=
  if user.refCode.all (· = "") then { user with refCode := some newRefCode } else user

/-- `none` where it throws, for a user that is not there. -/
def getOrCreateMinerProfile (newRefCode : String) : Option (Db × MinerProfile) :=
  (db.users.find? (·.id = userId)).map fun user =>
    let profile := ensureRefCode newRefCode user
    let db := { db with
      users := db.users.map fun user =>
        if user.id = userId then ensureRefCode newRefCode user else user }
    let machineHashRate := ((activeMiners db userId).map (·.hashRate)).sum
    let gameHashRate := ((gamePowers db userId now).map (·.hashRate)).sum
    let ytHashRate := ((ytPowers db userId now).map (·.hashRate)).sum
    let legacyGpuHashRate := ((gpuPowers db userId now).map (·.gpuHashRate)).sum
    let v2GpuHashRate := ((autoMiningV2Grants db v2Ok userId now).map (·.hashRate)).sum
    let gpuHashRate := legacyGpuHashRate + v2GpuHashRate
    (db,
      { id := profile.id
        username := profile.username
        rigs := (activeMiners db userId).length
        inventoryCount := (db.userInventory.filter (· = userId)).length
        base_hash_rate := machineHashRate + gameHashRate + ytHashRate + gpuHashRate
        machine_hash_rate := machineHashRate
        game_hash_rate := gameHashRate
        youtube_hash_rate := ytHashRate
        auto_mining_hash_rate := gpuHashRate
        balance := profile.polBalance.getD 0
        lifetime_mined := 0
        refCode := profile.refCode
        referralCount := profile.referrals
        mining_payout_mode := if profile.miningPayoutMode = "blk" then .blk else .pol })

def syncUserBaseHashRate : ℚ :=
  let machineHashRate := ((activeMiners db userId).map (·.hashRate)).sum
  let gameHashRate := ((gamePowers db userId now).map (·.hashRate)).sum
  let ytHashRate := ((ytPowers db userId now).map (·.hashRate)).sum
  let legacyGpuHashRate := ((gpuPowers db userId now).map (·.gpuHashRate)).sum
  let v2GpuHashRate := ((autoMiningV2Grants db v2Ok userId now).map (·.hashRate)).sum
  machineHashRate + gameHashRate + ytHashRate + (legacyGpuHashRate + v2GpuHashRate)

end Profile

/-! ## The ranking -/

def CHECKIN_BONUS_GAME_SLUG : String := "checkin-streak-bonus"

structure SelectedMiner where
  hashRate : ℚ
  isActive : Bool

structure SelectedPower where
  hashRate : ℚ
  game : Game

/-- A user as `rankingUserSelect` selects it; without the tables of the second
version there are no grants. -/
structure SelectedUser where
  id : ℕ
  username : Option String
  name : String
  isCreator : Bool
  youtubeUrl : Option String
  miners : List SelectedMiner
  gamePowers : List SelectedPower
  ytPowers : List ℚ
  gpuAccess : List ℚ
  autoMiningV2Grants : Option (List ℚ)

/-- The row of a user, with the rows of the relations. -/
def rankingUserSelect (db : Db) (now : ℤ) (includeV2 : Bool) (user : User) : SelectedUser where
  id := user.id
  username := user.username
  name := user.name
  isCreator := user.isCreator
  youtubeUrl := user.youtubeUrl
  miners := (db.userMiner.filter fun m => m.userId = user.id ∧ m.isActive).map fun m =>
    ⟨m.hashRate, m.isActive⟩
  gamePowers := (db.userPowerGame.filter fun g => g.userId = user.id ∧ now < g.expiresAt).map
    fun g => ⟨g.hashRate, g.game⟩
  ytPowers := (db.youtubeWatchPower.filter fun y => y.userId = user.id ∧ now < y.expiresAt).map
    (·.hashRate)
  gpuAccess := (db.autoMiningGpu.filter fun p =>
      p.userId = user.id ∧ p.isClaimed ∧ p.expiresAt.any (now < ·)).map (·.gpuHashRate)
  autoMiningV2Grants :=
    if includeV2 then
      some ((db.autoMiningV2PowerGrant.filter fun g =>
        g.userId = user.id ∧ now < g.expiresAt).map (·.hashRate))
    else none

structure Aggregate where
  permanentHashrate : ℚ
  temporaryMinigameHashrate : ℚ
  temporaryCheckinHashrate : ℚ
  temporaryYoutubeHashrate : ℚ
  temporaryAutoMiningHashrate : ℚ
  temporaryHashrate : ℚ
  totalHashrate : ℚ

/-- The sums of the games, `gameMinigameHr` and `gameCheckinHr`, with one more power. -/
def addPower (sums : ℚ × ℚ) (g : SelectedPower) : ℚ × ℚ :=
  if g.game.slug = CHECKIN_BONUS_GAME_SLUG then (sums.1, sums.2 + g.hashRate)
  else (sums.1 + g.hashRate, sums.2)

def gameHashrates (gameRows : List SelectedPower) : ℚ × ℚ := gameRows.foldl addPower (0, 0)

def aggregateUserHashrates (user : SelectedUser) (onlyActive : Bool) : Aggregate :=
  let machineHr := ((user.miners.filter fun m => !onlyActive || m.isActive).map (·.hashRate)).sum
  let (gameMinigameHr, gameCheckinHr) := gameHashrates user.gamePowers
  let ytHr := user.ytPowers.sum
  let legacyGpuHr := user.gpuAccess.sum
  let v2GpuHr := (user.autoMiningV2Grants.getD []).sum
  let gpuHr := legacyGpuHr + v2GpuHr
  let temporaryHr := gameMinigameHr + gameCheckinHr + ytHr + gpuHr
  { permanentHashrate := machineHr
    temporaryMinigameHashrate := gameMinigameHr
    temporaryCheckinHashrate := gameCheckinHr
    temporaryYoutubeHashrate := ytHr
    temporaryAutoMiningHashrate := gpuHr
    temporaryHashrate := temporaryHr
    totalHashrate := machineHr + temporaryHr }

structure RankingRow where
  id : ℕ
  username : String
  name : String
  isCreator : Bool
  youtubeUrl : Option String
  totalHashRate : ℚ
  baseHashRate : ℚ
  gameHashRate : ℚ

def rankingRow (u : SelectedUser) : RankingRow :=
  let agg := aggregateUserHashrates u true
  { id := u.id
    username := (u.username.filter (· ≠ "")).getD "Miner"
    name := u.name
    isCreator := u.isCreator
    youtubeUrl := u.youtubeUrl
    totalHashRate := agg.totalHashrate
    baseHashRate := agg.permanentHashrate
    gameHashRate := agg.temporaryHashrate }

def buildRankingRows (users : List SelectedUser) : List RankingRow :=
  (users.map rankingRow).mergeSort fun a b => b.totalHashRate ≤ a.totalHashRate

structure Rank where
  rank : ℕ
  totalUsers : ℕ
  totalHashrate : ℚ

def computeUserRank (sortedRows : List RankingRow) (userId : ℕ) : Option Rank := do
  let idx ← sortedRows.findIdx? (·.id = userId)
  let row ← sortedRows[idx]?
  return { rank := idx + 1, totalUsers := sortedRows.length, totalHashrate := row.totalHashRate }

/-! ## One total -/

theorem foldl_addPower (sums : ℚ × ℚ) (gameRows : List SelectedPower) :
    (gameRows.foldl addPower sums).1 + (gameRows.foldl addPower sums).2
      = sums.1 + sums.2 + (gameRows.map (·.hashRate)).sum := by
  induction gameRows generalizing sums with
  | nil => simp
  | cons g rows ih =>
      rw [List.foldl_cons, List.map_cons, List.sum_cons, ih, addPower]
      split
      · ring
      · ring

theorem gameHashrates_add (gameRows : List SelectedPower) :
    (gameHashrates gameRows).1 + (gameHashrates gameRows).2
      = (gameRows.map (·.hashRate)).sum := by
  simpa [gameHashrates] using foldl_addPower (0, 0) gameRows

/-- A total has two parts, and five. -/
structure Aggregate.Adds (agg : Aggregate) : Prop where
  parts : agg.totalHashrate = agg.permanentHashrate + agg.temporaryHashrate
  sources : agg.totalHashrate
    = agg.permanentHashrate + agg.temporaryMinigameHashrate + agg.temporaryCheckinHashrate
      + agg.temporaryYoutubeHashrate + agg.temporaryAutoMiningHashrate

theorem aggregate_adds (user : SelectedUser) (onlyActive : Bool) :
    (aggregateUserHashrates user onlyActive).Adds where
  parts := rfl
  sources := by
    simp only [aggregateUserHashrates]
    ring

/-- The selection of a user has the total of the user. -/
theorem aggregate_total (db : Db) (now : ℤ) (v2Ok : Bool) (user : User) :
    (aggregateUserHashrates (rankingUserSelect db now v2Ok user) true).totalHashrate
      = syncUserBaseHashRate db v2Ok user.id now := by
  have hgames := gameHashrates_add (rankingUserSelect db now v2Ok user).gamePowers
  have hminers : ((rankingUserSelect db now v2Ok user).miners.filter fun m =>
      !true || m.isActive).map (·.hashRate) = (activeMiners db user.id).map (·.hashRate) := by
    simp only [rankingUserSelect, activeMiners, List.filter_map, List.map_map, List.filter_filter]
    refine congrArg (List.map _) (List.filter_congr fun m _ => ?_)
    simp only [Function.comp_apply, Bool.not_true, Bool.false_or]
    cases m.isActive <;> simp
  have hpowers : (rankingUserSelect db now v2Ok user).gamePowers.map (·.hashRate)
      = (gamePowers db user.id now).map (·.hashRate) := by
    simp [rankingUserSelect, gamePowers]
  have hgrants : (rankingUserSelect db now v2Ok user).autoMiningV2Grants.getD []
      = (autoMiningV2Grants db v2Ok user.id now).map (·.hashRate) := by
    cases v2Ok <;> simp [rankingUserSelect, autoMiningV2Grants]
  rw [hpowers] at hgames
  simp only [aggregateUserHashrates, syncUserBaseHashRate]
  rw [hminers, hgrants, ← hgames]
  simp only [rankingUserSelect, ytPowers, gpuPowers]
  ring

theorem profile_total {db : Db} {user : User} (h : user ∈ db.users) (v2Ok : Bool) (now : ℤ)
    (newRefCode : String) :
    ∃ db' profile, getOrCreateMinerProfile db v2Ok user.id now newRefCode = some (db', profile)
      ∧ profile.base_hash_rate = syncUserBaseHashRate db v2Ok user.id now := by
  have hfound : (db.users.find? (·.id = user.id)).isSome :=
    List.find?_isSome.mpr ⟨user, h, decide_eq_true rfl⟩
  obtain ⟨row, hrow⟩ := Option.isSome_iff_exists.mp hfound
  exact ⟨_, _, by rw [getOrCreateMinerProfile, hrow]; rfl, rfl⟩

/-! ## The tables of the operations -/

/-- The tables that the operations on hash rates change; `minigame` and `socket` are the games
their powers are for. -/
def ofHashRate (db : HashRate.Db) (minigame socket : Game) : Db where
  users := []
  userMiner := db.machines.userMiner.rows.map fun r =>
    ⟨r.2.userId, r.2.specs.hashRate, db.isActive r.1⟩
  userInventory := []
  userPowerGame :=
    (db.minigame.powers.map fun g => ⟨g.userId, g.hashRate, g.expiresAt, minigame⟩)
      ++ db.games.powers.map fun g => ⟨g.userId, 50, g.expiresAt, socket⟩
  youtubeWatchPower := db.watch.powers.rows.map fun r => ⟨r.2.userId, r.2.hashRate, r.2.expiresAt⟩
  autoMiningGpu := db.autoMiningGpu
  autoMiningV2PowerGrant := db.autoMiningV2PowerGrant.getD []

/-- The sum is the one that the operations refresh the engine with. -/
theorem sync_ofHashRate (db : HashRate.Db) (minigame socket : Game) (u : ℕ) (now : ℤ) :
    syncUserBaseHashRate (ofHashRate db minigame socket) db.autoMiningV2PowerGrant.isSome u now
      = HashRate.syncUserBaseHashRate db u now := by
  have hgrants : autoMiningV2Grants (ofHashRate db minigame socket)
      db.autoMiningV2PowerGrant.isSome u now = HashRate.autoMiningV2Grants db u now := by
    cases h : db.autoMiningV2PowerGrant <;>
      simp [autoMiningV2Grants, HashRate.autoMiningV2Grants, ofHashRate, h]
  unfold syncUserBaseHashRate
  rw [hgrants]
  simp only [HashRate.syncUserBaseHashRate, HashRate.machineHashRate, HashRate.gameHashRate,
    HashRate.ytHashRate, HashRate.gpuHashRate, activeMiners, gamePowers, ytPowers, gpuPowers,
    HashRate.activeMiners, HashRate.gamePowers, HashRate.ytPowers, HashRate.gpuPowers, ofHashRate,
    Table.findMany, List.filter_append, List.filter_map, List.map_append, List.map_map]
  rfl

/-! ## The order -/

theorem buildRankingRows_sorted (users : List SelectedUser) :
    (buildRankingRows users).Pairwise fun a b => b.totalHashRate ≤ a.totalHashRate := by
  have htrans : ∀ a b c : RankingRow, decide (b.totalHashRate ≤ a.totalHashRate) = true →
      decide (c.totalHashRate ≤ b.totalHashRate) = true →
        decide (c.totalHashRate ≤ a.totalHashRate) = true := by
    intro a b c hab hbc
    exact decide_eq_true ((of_decide_eq_true hbc).trans (of_decide_eq_true hab))
  have htotal : ∀ a b : RankingRow, (decide (b.totalHashRate ≤ a.totalHashRate)
      || decide (a.totalHashRate ≤ b.totalHashRate)) = true := by
    intro a b
    simpa using le_total b.totalHashRate a.totalHashRate
  exact (List.pairwise_mergeSort htrans htotal (users.map rankingRow)).imp of_decide_eq_true

/-- Where a rank stands in the list. -/
structure Rank.Standing (r : Rank) (rows : List RankingRow) (userId : ℕ)
    (before after : List RankingRow) (row : RankingRow) : Prop where
  listed : rows = before ++ row :: after
  id : row.id = userId
  rank : r.rank = before.length + 1
  total : r.totalHashrate = row.totalHashRate
  users : r.totalUsers = rows.length
  atLeast : ∀ x ∈ before, row.totalHashRate ≤ x.totalHashRate
  larger : ∀ x ∈ rows, row.totalHashRate < x.totalHashRate → x ∈ before

theorem standing_of_rank {rows : List RankingRow} {userId : ℕ} {r : Rank}
    (hsorted : rows.Pairwise fun a b => b.totalHashRate ≤ a.totalHashRate)
    (h : computeUserRank rows userId = some r) :
    ∃ before row after, r.Standing rows userId before after row := by
  simp only [computeUserRank, Option.bind_eq_bind, Option.bind_eq_some_iff, Option.pure_def,
    Option.some.injEq] at h
  obtain ⟨idx, hidx, row, hrow, rfl⟩ := h
  obtain ⟨hlt, rfl⟩ := List.getElem?_eq_some_iff.mp hrow
  have hid := (List.findIdx?_eq_some_iff_getElem.mp hidx).choose_spec.1
  have hsplit : rows = rows.take idx ++ rows[idx] :: rows.drop (idx + 1) := by
    rw [List.getElem_cons_drop, List.take_append_drop]
  have hparts := hsorted
  rw [hsplit, List.pairwise_append, List.pairwise_cons] at hparts
  obtain ⟨-, ⟨hafter, -⟩, hbefore⟩ := hparts
  refine ⟨_, _, _, hsplit, by simpa using hid, ?_, rfl, rfl, ?_, ?_⟩
  · simp only [List.length_take]
    omega
  · exact fun x hx => hbefore x hx _ List.mem_cons_self
  · intro x hx hlarger
    rw [hsplit] at hx
    rcases List.mem_append.mp hx with hx | hx
    · exact hx
    · rcases List.mem_cons.mp hx with rfl | hx
      · exact absurd hlarger (lt_irrefl _)
      · exact absurd (hafter x hx) hlarger.not_ge

theorem computeUserRank_isSome {rows : List RankingRow} {row : RankingRow} (h : row ∈ rows) :
    (computeUserRank rows row.id).isSome := by
  cases hidx : rows.findIdx? (·.id = row.id) with
  | none =>
      have hnone := List.findIdx?_eq_none_iff.mp hidx row h
      simp at hnone
  | some idx =>
      have hlt := (List.findIdx?_eq_some_iff_getElem.mp hidx).choose
      simp [computeUserRank, hidx, hlt]

end BlockMiner.NetworkHashrate
