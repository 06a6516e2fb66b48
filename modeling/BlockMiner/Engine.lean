import BlockMiner.OrdMap
import Mathlib.Algebra.Order.Field.Rat

/-!
# The mining engine

The in-memory engine of `server/src/miningEngine.js`, with exact
arithmetic for its JavaScript numbers. The engine keeps one `Miner` object
per user; `miners` indexes the objects by id and `minersByUserId` holds a
second reference to the same object. `MinerStore` models this sharing: the
object lives under its id and the user index stores the id, and the
fields `id_ok`/`user_ok` say that the two indexes describe the same set of
objects, so a store with a dangling or doubled reference cannot be built.

The block reward path is split as the source splits it:

- `tick` accumulates round work and, when the block is due, distributes;
- `distributeRewards` pays synchronously and hands a `PendingBlock` to the
  persist callback (`none` when the callback is not called);
- `rollbackBlock` is the handler that runs if the callback rejects.

`rewardBase`, `blockTarget` and `blockDurationMs` are engine fields that
nothing reassigns after the constructor.
-/

namespace BlockMiner

abbrev UserId := Nat

/-- A `uuidv4` token. -/
abbrev MinerId := Nat

inductive PayoutMode where
  | pol
  | blk
deriving DecidableEq, Repr

structure Miner where
  id : MinerId
  userId : UserId
  walletAddress : Option String
  /-- `none` stands for the generated `Miner-xxxxx` placeholder. -/
  username : Option String
  rigs : Nat
  baseHashRate : ℚ
  active : Bool
  boostMultiplier : ℚ
  boostEndsAt : Nat
  balance : ℚ
  lastPersistedBalance : ℚ
  lifetimeMined : ℚ
  connected : Bool
  refCode : Option String
  referralCount : Nat
  miningPayoutMode : PayoutMode
deriving DecidableEq

/-- The loaded miners under both of their indexes. -/
structure MinerStore where
  miners : OrdMap MinerId Miner
  minersByUserId : OrdMap UserId MinerId
  id_ok : ∀ id m, miners.get? id = some m →
    m.id = id ∧ m.userId ≠ 0 ∧ minersByUserId.get? m.userId = some id
  user_ok : ∀ u id, minersByUserId.get? u = some id →
    ∃ m, miners.get? id = some m ∧ m.userId = u

namespace MinerStore

def empty : MinerStore where
  miners := .empty
  minersByUserId := .empty
  id_ok := by simp
  user_ok := by simp

/-- Mutate the object stored under `id`; its identity stays. -/
def modify (st : MinerStore) (id : MinerId) (f : Miner → Miner) : MinerStore :=
  match h : st.miners.get? id with
  | none => st
  | some m =>
    { miners := st.miners.set id { f m with id := m.id, userId := m.userId }
      minersByUserId := st.minersByUserId
      id_ok := by
        intro x m' hx
        rw [OrdMap.get?_set] at hx
        split at hx
        case isTrue heq =>
          obtain rfl := Option.some.inj hx
          exact heq ▸ st.id_ok id m h
        case isFalse => exact st.id_ok x m' hx
      user_ok := by
        intro u x hx
        obtain ⟨m', hm', hu⟩ := st.user_ok u x hx
        by_cases heq : x = id
        · subst heq
          obtain rfl := Option.some.inj (h.symm.trans hm')
          exact ⟨_, OrdMap.get?_set_self .., hu⟩
        · exact ⟨m', by rw [OrdMap.get?_set_of_ne _ heq, hm'], hu⟩ }

/-- Add a new object under a fresh id for a user that has none yet. -/
def add (st : MinerStore) (m : Miner) (hid : st.miners.get? m.id = none)
    (huser : st.minersByUserId.get? m.userId = none) (h0 : m.userId ≠ 0) : MinerStore where
  miners := st.miners.set m.id m
  minersByUserId := st.minersByUserId.set m.userId m.id
  id_ok := by
    intro x m' hx
    rw [OrdMap.get?_set] at hx
    split at hx
    case isTrue heq =>
      obtain rfl := Option.some.inj hx
      exact ⟨heq.symm, h0, by rw [OrdMap.get?_set_self, heq]⟩
    case isFalse hne =>
      obtain ⟨h1, h2, h3⟩ := st.id_ok x m' hx
      refine ⟨h1, h2, ?_⟩
      rw [OrdMap.get?_set_of_ne _ (fun hu => ?_), h3]
      rw [hu, huser] at h3
      cases h3
  user_ok := by
    intro u x hx
    rw [OrdMap.get?_set] at hx
    split at hx
    case isTrue heq =>
      obtain rfl := Option.some.inj hx
      exact ⟨m, OrdMap.get?_set_self .., heq.symm⟩
    case isFalse hne =>
      obtain ⟨m', hm', hu⟩ := st.user_ok u x hx
      refine ⟨m', ?_, hu⟩
      rw [OrdMap.get?_set_of_ne _ (fun hxid => ?_), hm']
      rw [hxid, hid] at hm'
      cases hm'

end MinerStore

structure BlockRecord where
  blockNumber : Nat
  reward : ℚ
  minerCount : Nat
  timestamp : Nat
  userRewards : OrdMap UserId ℚ

def rewardBase : ℚ := 3 / 10

def blockTarget : ℚ := 100

def blockDurationMs : Nat := 10 * 60 * 1000

structure Engine where
  store : MinerStore
  roundWork : OrdMap MinerId ℚ
  blockNumber : Nat
  blockProgress : ℚ
  blockStartedAt : Nat
  nextBlockAt : Nat
  lastBlockAt : Nat
  totalMinted : ℚ
  lastReward : ℚ
  activeMiners : Nat
  currentNetworkHashRate : ℚ
  blockHistory : List BlockRecord

namespace Engine

/-- The constructor, run at time `now`. -/
def new (now : Nat) : Engine where
  store := .empty
  roundWork := .empty
  blockNumber := 1
  blockProgress := 0
  blockStartedAt := now
  nextBlockAt := now + blockDurationMs
  lastBlockAt := now
  totalMinted := 0
  lastReward := 0
  activeMiners := 0
  currentNetworkHashRate := 0
  blockHistory := []

/-- `this.miners.get(minerId)`. -/
def miner? (e : Engine) (minerId : MinerId) : Option Miner := e.store.miners.get? minerId

def findMinerByUserId (e : Engine) (userId : UserId) : Option Miner :=
  if userId = 0 then none
  else (e.store.minersByUserId.get? userId).bind e.store.miners.get?

/-- Mutate a loaded miner object. -/
def modifyMiner (e : Engine) (minerId : MinerId) (f : Miner → Miner) : Engine :=
  { e with store := e.store.modify minerId f }

/-! ## Profiles -/

/-- What the profile loader and the callers of `createOrGetMiner` hand
over; `none` is an absent field. The two spellings of a field are two
fields, as in the source. -/
structure Profile where
  rigs : Option Nat := none
  base_hash_rate : Option ℚ := none
  baseHashRate : Option ℚ := none
  balance : Option ℚ := none
  lifetimeMined : Option ℚ := none
  refCode : Option String := none
  referralCount : Option Nat := none
  mining_payout_mode : Option PayoutMode := none
  miningPayoutMode : Option PayoutMode := none

/-- JavaScript `x || d` on numbers: absent and zero both give the default. -/
def orDefault {α : Type*} [Zero α] [DecidableEq α] (x : Option α) (d : α) : α :=
  match x with
  | none => d
  | some v => if v = 0 then d else v

def Profile.payoutMode (p : Profile) : PayoutMode :=
  if p.mining_payout_mode = some .blk ∨ p.miningPayoutMode = some .blk then .blk else .pol

/-- The balance rule shared by reload and re-join: take the database value
over when it is the larger one. -/
def syncBalance (dbBalance : ℚ) (m : Miner) : Miner :=
  if m.balance < dbBalance then
    { m with balance := dbBalance, lastPersistedBalance := dbBalance }
  else m

/-- The update `reloadMinerProfile` makes on the user's miner. -/
def reloaded (p : Profile) (m : Miner) : Miner :=
  syncBalance (orDefault p.balance 0)
    { m with
      rigs := orDefault p.rigs 1
      baseHashRate := orDefault p.base_hash_rate 0
      refCode := p.refCode
      referralCount := p.referralCount.getD 0
      miningPayoutMode := p.payoutMode }

/-- `reloadMinerProfile` once the loader has answered; only the state
changes are modelled, not the socket emissions. -/
def reloadMinerProfile (e : Engine) (userId : UserId) (profile : Option Profile) : Engine :=
  match profile, e.findMinerByUserId userId with
  | some p, some miner => e.modifyMiner miner.id (reloaded p)
  | _, _ => e

structure JoinRequest where
  userId : UserId
  username : Option String
  walletAddress : Option String
  profile : Option Profile

/-- The update `createOrGetMiner` makes on a miner that is already loaded. -/
def rejoin (req : JoinRequest) (m : Miner) : Miner :=
  let m := { m with
    username := req.username.or m.username
    walletAddress := req.walletAddress.or m.walletAddress }
  match req.profile with
  | none => m
  | some p =>
    syncBalance (orDefault p.balance 0)
      { m with
        rigs := orDefault p.rigs 1
        baseHashRate := orDefault p.base_hash_rate (orDefault p.baseHashRate 0)
        refCode := p.refCode
        referralCount := p.referralCount.getD 0
        miningPayoutMode := p.payoutMode }

/-- The object `createOrGetMiner` builds for a user without one. -/
def newMiner (id : MinerId) (req : JoinRequest) : Miner :=
  let p := req.profile.getD {}
  { id
    userId := req.userId
    walletAddress := req.walletAddress
    username := req.username
    rigs := orDefault p.rigs 1
    baseHashRate := orDefault p.base_hash_rate (orDefault p.baseHashRate 0)
    active := true
    boostMultiplier := 1
    boostEndsAt := 0
    balance := orDefault p.balance 0
    lastPersistedBalance := orDefault p.balance 0
    lifetimeMined := orDefault p.lifetimeMined 0
    connected := true
    refCode := p.refCode.filter (· ≠ "")
    referralCount := p.referralCount.getD 0
    miningPayoutMode := p.payoutMode }

/-- `createOrGetMiner`, with the `uuidv4()` it draws as an argument. It is
`none` where the model does not follow the source: a uuid already in use,
or user id 0, which is not a database id. -/
def createOrGetMiner (e : Engine) (uuid : MinerId) (req : JoinRequest) : Option Engine :=
  match e.findMinerByUserId req.userId with
  | some existing => some (e.modifyMiner existing.id (rejoin req))
  | none =>
    if h : e.store.miners.get? uuid = none ∧ e.store.minersByUserId.get? req.userId = none
        ∧ req.userId ≠ 0 then
      some { e with
        store := e.store.add (newMiner uuid req) h.1 h.2.1 h.2.2
        roundWork := e.roundWork.set uuid 0 }
    else none

/-! ## Setters of the socket handlers -/

def setConnected (e : Engine) (minerId : MinerId) (connected : Bool) : Engine :=
  e.modifyMiner minerId fun m => { m with connected }

def setActive (e : Engine) (minerId : MinerId) (active : Bool) : Engine :=
  e.modifyMiner minerId fun m => { m with active }

/-- An empty address is stored as `null`. -/
def setWallet (e : Engine) (minerId : MinerId) (walletAddress : Option String) : Engine :=
  e.modifyMiner minerId fun m => { m with walletAddress := walletAddress.filter (· ≠ "") }

/-! ## Purchases -/

/-- The engine's answers; `needs` carries the price shown to the user and
`rigBought` the new number of rigs. -/
inductive Reply where
  | minerNotFound
  | insufficientForBoost
  | boostActive
  | needs (rigCost : ℚ)
  | rigBought (rigs : Nat)
deriving DecidableEq

def Reply.ok : Reply → Bool
  | .boostActive | .rigBought _ => true
  | _ => false

def boostCost : ℚ := 35 / 100

def boosted (now : Nat) (m : Miner) : Miner :=
  { m with
    balance := m.balance - boostCost
    boostMultiplier := 125 / 100
    boostEndsAt := now + 30000 }

def applyBoost (e : Engine) (minerId : MinerId) (now : Nat) : Engine × Reply :=
  match e.miner? minerId with
  | none => (e, .minerNotFound)
  | some miner =>
    if miner.balance < boostCost then (e, .insufficientForBoost)
    else (e.modifyMiner minerId (boosted now), .boostActive)

def rigCost (m : Miner) : ℚ := 2 + ((m.rigs : ℚ) - 1) * (8 / 10)

def withRig (m : Miner) : Miner :=
  { m with
    balance := m.balance - rigCost m
    rigs := m.rigs + 1
    baseHashRate := m.baseHashRate + 18 }

def upgradeRig (e : Engine) (minerId : MinerId) : Engine × Reply :=
  match e.miner? minerId with
  | none => (e, .minerNotFound)
  | some miner =>
    if miner.balance < rigCost miner then (e, .needs (rigCost miner))
    else (e.modifyMiner minerId withRig, .rigBought (miner.rigs + 1))

/-! ## Blocks -/

def getMinerHashRate (m : Miner) : ℚ :=
  if m.active then m.baseHashRate * m.boostMultiplier else 0

/-- One entry of the reward list handed to the persist callback. -/
structure MinerReward where
  minerId : MinerId
  userId : UserId
  username : Option String
  walletAddress : Option String
  rigs : Nat
  baseHashRate : ℚ
  workAccumulated : ℚ
  sharePercentage : ℚ
  rewardAmount : ℚ
  balanceAfter : ℚ
  lifetimeMined : ℚ

/-- The argument of the persist callback. -/
structure BlockPayload where
  blockNumber : Nat
  blockReward : ℚ
  totalWork : ℚ
  minerRewards : List MinerReward
  now : Nat

structure Snapshot where
  balance : ℚ
  lifetimeMined : ℚ

/-- A block whose persist callback has been called and has not settled:
its payload and the snapshot the rejection handler closes over. -/
structure PendingBlock where
  payload : BlockPayload
  balanceSnapshot : OrdMap MinerId Snapshot

/-- Accumulators of the payment loop of `distributeRewards`. -/
structure PayAcc where
  engine : Engine
  minerRewards : List MinerReward
  userRewardsMap : OrdMap UserId ℚ
  balanceSnapshot : OrdMap MinerId Snapshot

/-- `this.roundWork.set(minerId, work)`. -/
def setWork (e : Engine) (minerId : MinerId) (work : ℚ) : Engine :=
  { e with roundWork := e.roundWork.set minerId work }

/-- The reward moves the balance and its persisted mark together. -/
def rewarded (reward : ℚ) (m : Miner) : Miner :=
  { m with
    balance := m.balance + reward
    lastPersistedBalance := m.lastPersistedBalance + reward
    lifetimeMined := m.lifetimeMined + reward }

def rewardEntry (miner : Miner) (work share reward : ℚ) : MinerReward where
  minerId := miner.id
  userId := miner.userId
  username := miner.username
  walletAddress := miner.walletAddress
  rigs := miner.rigs
  baseHashRate := miner.baseHashRate
  workAccumulated := work
  sharePercentage := share * 100
  rewardAmount := reward
  balanceAfter := miner.balance + reward
  lifetimeMined := miner.lifetimeMined + reward

/-- The paying branch of the loop, for the miner loaded under `minerId`. -/
def payReward (acc : PayAcc) (minerId : MinerId) (miner : Miner) (work share reward : ℚ) :
    PayAcc :=
  let paid := acc.engine.modifyMiner minerId (rewarded reward)
  { engine := { paid with totalMinted := paid.totalMinted + reward }.setWork minerId 0
    minerRewards := acc.minerRewards ++ [rewardEntry miner work share reward]
    userRewardsMap := acc.userRewardsMap.set miner.userId reward
    balanceSnapshot := acc.balanceSnapshot.set minerId
      { balance := miner.balance, lifetimeMined := miner.lifetimeMined } }

/-- Body of the payment loop for one `roundWork` entry. -/
def payMiner (blockReward totalWork : ℚ) (acc : PayAcc) (entry : MinerId × ℚ) : PayAcc :=
  let (minerId, work) := entry
  match acc.engine.miner? minerId with
  | none => { acc with engine := acc.engine.setWork minerId 0 }
  | some miner =>
    if work ≤ 0 then { acc with engine := acc.engine.setWork minerId 0 }
    else
      let share := work / totalWork
      payReward acc minerId miner work share (blockReward * share)

def finalizeBlockDistribution (e : Engine) (now : Nat) : Engine :=
  { e with
    blockNumber := e.blockNumber + 1
    blockProgress := 0
    lastBlockAt := now
    blockStartedAt := now
    nextBlockAt := now + blockDurationMs }

/-- `blockHistory.unshift(record)`, kept to 12 entries. -/
def pushHistory (e : Engine) (record : BlockRecord) : Engine :=
  { e with blockHistory := (record :: e.blockHistory).take 12 }

def totalWork (e : Engine) : ℚ := (e.roundWork.entries.map Prod.snd).sum

def distributeRewards (e : Engine) (now : Nat) : Engine × Option PendingBlock :=
  if e.totalWork ≤ 0 then
    let cleared := e.roundWork.entries.foldl (fun e entry => e.setWork entry.1 0) e
    let recorded := { cleared with lastReward := 0 }.pushHistory
      { blockNumber := e.blockNumber, reward := 0, minerCount := e.activeMiners,
        timestamp := now, userRewards := .empty }
    (recorded.finalizeBlockDistribution now, none)
  else
    let acc := e.roundWork.entries.foldl (payMiner rewardBase e.totalWork)
      ⟨e, [], .empty, .empty⟩
    let pending : Option PendingBlock :=
      if acc.minerRewards = [] then none
      else some
        { payload :=
            { blockNumber := e.blockNumber, blockReward := rewardBase,
              totalWork := e.totalWork, minerRewards := acc.minerRewards, now }
          balanceSnapshot := acc.balanceSnapshot }
    let recorded := acc.engine.pushHistory
      { blockNumber := e.blockNumber, reward := rewardBase, minerCount := e.activeMiners,
        timestamp := now, userRewards := acc.userRewardsMap }
    ({ recorded with lastReward := rewardBase }.finalizeBlockDistribution now, pending)

def restoredTo (snapshot : Snapshot) (m : Miner) : Miner :=
  { m with balance := snapshot.balance, lifetimeMined := snapshot.lifetimeMined }

/-- The `.catch` handler of the persist callback, for one snapshot entry. -/
def rollbackMiner (payload : BlockPayload) (e : Engine) (entry : MinerId × Snapshot) : Engine :=
  let (minerId, snapshot) := entry
  match e.miner? minerId, payload.minerRewards.find? (·.minerId = minerId) with
  | some _, some rewardEntry =>
    let restored := e.modifyMiner minerId (restoredTo snapshot)
    { restored with totalMinted := restored.totalMinted - rewardEntry.rewardAmount }
  | _, _ => e

def rollbackBlock (e : Engine) (p : PendingBlock) : Engine :=
  p.balanceSnapshot.entries.foldl (rollbackMiner p.payload) e

structure TickAcc where
  engine : Engine
  totalHashRate : ℚ
  activeMiners : Nat

/-- Expire a boost whose end has passed. -/
def expireBoost (now : Nat) (m : Miner) : Miner :=
  if 0 < m.boostEndsAt ∧ m.boostEndsAt ≤ now then
    { m with boostMultiplier := 1, boostEndsAt := 0 }
  else m

/-- Body of the accumulation loop of `tick` for one miner. -/
def accumulateMiner (now : Nat) (acc : TickAcc) (entry : MinerId × Miner) : TickAcc :=
  let (minerId, miner) := entry
  let miner := expireBoost now miner
  let hashRate := getMinerHashRate miner
  let e := acc.engine.modifyMiner minerId (expireBoost now)
  { engine := match miner.miningPayoutMode with
      | .pol => e.setWork minerId ((e.roundWork.get? minerId).getD 0 + hashRate)
      | .blk => e
    totalHashRate := acc.totalHashRate + hashRate
    activeMiners := if 0 < hashRate then acc.activeMiners + 1 else acc.activeMiners }

/-- The part of `tick` before the block is closed. -/
def accumulateWork (e : Engine) (now : Nat) : Engine :=
  let acc := e.store.miners.entries.foldl (accumulateMiner now) ⟨e, 0, 0⟩
  { acc.engine with
    currentNetworkHashRate := acc.totalHashRate
    activeMiners := acc.activeMiners }

/-- `tick`; the `Date.now()` calls of one tick read one instant. -/
def tick (e : Engine) (now : Nat) : Engine × Option PendingBlock :=
  let accumulated := e.accumulateWork now
  let (closed, pending) :=
    if accumulated.nextBlockAt ≤ now then accumulated.distributeRewards now
    else (accumulated, none)
  let elapsed : ℚ := ((now - closed.blockStartedAt : Nat) : ℚ)
  ({ closed with blockProgress := min blockTarget (elapsed / blockDurationMs * blockTarget) },
    pending)

/-! ## Balance notifications and the persist delta -/

/-- A change the database already has: both balances move. -/
def shifted (delta : ℚ) (m : Miner) : Miner :=
  { m with
    balance := m.balance + delta
    lastPersistedBalance := m.lastPersistedBalance + delta }

/-- `applyUserBalanceDelta` of `runtime/miningRuntime.js`. That module keeps
an engine reference of its own, set by its own `setMiningEngine`; `runtimeSet`
says whether it was. (`server.js` installs the engine through
`miningEngineInstance.js`, a different reference.) -/
def applyUserBalanceDelta (runtimeSet : Bool) (e : Engine) (userId : UserId) (delta : ℚ) :
    Engine :=
  match runtimeSet, e.findMinerByUserId userId with
  | true, some miner => e.modifyMiner miner.id (shifted delta)
  | _, _ => e

/-- The change `persistMinerProfile` computes for a miner. -/
def persistDelta (m : Miner) : ℚ := m.balance - m.lastPersistedBalance

/-- Changes below this threshold are not written. -/
def nothingToPersist (delta : ℚ) : Prop := |delta| < 1 / 10000000

instance (delta : ℚ) : Decidable (nothingToPersist delta) :=
  inferInstanceAs (Decidable (|delta| < 1 / 10000000))

/-- The last statement of `persistMinerProfile`, after its `await`. -/
def markPersisted (e : Engine) (minerId : MinerId) : Engine :=
  e.modifyMiner minerId fun m => { m with lastPersistedBalance := m.balance }

end Engine

end BlockMiner
