import BlockMiner.EngineRollback
import BlockMiner.EngineLedger
import BlockMiner.Spending
import BlockMiner.WriteBehind

/-!
# Spending against the engine and against the table

`createWithdrawal`, `purchaseMiner` and `buyRoom` check the price against the
users table, `applyBoost` and `upgradeRig` against the balance of the loaded
miner; `applyUserBalanceDelta` tells the engine of the first, and
`persistMinerProfile` writes the second to the table later. One complete
operation runs at a time (`Op`): the checks and writes of the first three are
those of the spending model, with the POL column in the ledger's `World`.

A user with a loaded miner has the money in two `Copies`. The order that
keeps it from going below zero survives every operation but two
(`Covered`): a purchase from the table that the engine's copy does not cover,
or of which the engine is not told, and a block that is rolled back.
-/

namespace BlockMiner.EngineSpending

open Engine

structure State where
  world : World
  /-- The other columns and rows of each user; the POL column is the
  world's. -/
  accounts : UserId → Spending.Db

/-- The rows of a user as the endpoints read them. -/
def State.account (s : State) (u : UserId) : Spending.Db :=
  { s.accounts u with
    balance := Function.update (s.accounts u).balance .POL (s.world.polBalance u) }

/-- The requests that are checked against the table. -/
inductive DbSpend where
  | createWithdrawal (amount : ℚ)
  | purchaseMiner (minerId : ℕ) (quantity : ℤ)
  | buyRoom

def DbSpend.request : DbSpend → Spending.Request
  | .createWithdrawal amount => .createWithdrawal amount
  | .purchaseMiner minerId quantity => .purchaseMiner minerId quantity
  | .buyRoom => .buyRoom

inductive Op where
  | dbSpend (u : UserId) (request : DbSpend) (now : Nat)
  | applyBoost (minerId : MinerId) (now : Nat)
  | upgradeRig (minerId : MinerId)
  /-- `persisted` says whether the callback resolves or rejects. -/
  | tick (now : Nat) (persisted : Bool)
  | persistMinerProfile (minerId : MinerId)

section Operations

variable (cat : Spending.Catalog)

/-- What a request spends: its checks, up to the transaction. -/
def admitted (db : Spending.Db) (request : DbSpend) (now : Nat) : Option Spending.Spend :=
  match (Spending.start cat db request.request).bind (Spending.query cat db now) with
  | .ok (.commit spend _) => some spend
  | _ => none

/-- What a request that goes through spends, and the rows it leaves. -/
def State.taken (s : State) (u : UserId) (request : DbSpend) (now : Nat) :
    Option (Spending.Spend × Spending.Db) :=
  (admitted cat (s.account u) request now).bind fun spend =>
    (spend.commit cat now (s.account u)).map fun db => (spend, db)

/-- `applyUserBalanceDelta(userId, -price)`, when there was a price to pay. -/
def mirror (w : World) (u : UserId) (spend : Spending.Spend) : World :=
  match spend.payment with
  | none => w
  | some (_, price) => w.applyUserBalanceDelta u (-price)

def State.dbSpend (s : State) (u : UserId) (request : DbSpend) (now : Nat) : State :=
  match s.taken cat u request now with
  | none => s
  | some (spend, db) =>
      { world := mirror
          { s.world with
            polBalance := Function.update s.world.polBalance u (db.balance .POL) } u spend
        accounts := Function.update s.accounts u db }

/-- A tick and its persist callback. -/
def tick (w : World) (now : Nat) (persisted : Bool) : World :=
  let (engine, pending) := w.engine.tick now
  if persisted then { w with engine }.persistBlockRewards (rewardsOf pending)
  else { w with engine := engine.reject pending }

def step (s : State) : Op → State
  | .dbSpend u request now => s.dbSpend cat u request now
  | .applyBoost id now =>
      { s with world := { s.world with engine := (s.world.engine.applyBoost id now).1 } }
  | .upgradeRig id =>
      { s with world := { s.world with engine := (s.world.engine.upgradeRig id).1 } }
  | .tick now persisted => { s with world := tick s.world now persisted }
  | .persistMinerProfile id => { s with world := s.world.persistMinerProfile id }

def spending : System State Op := ⟨fun s op => some (step cat s op)⟩

/-- The POL price of a spend. -/
def priceOf (spend : Spending.Spend) : ℚ :=
  match spend.payment with
  | some (.POL, price) => price
  | _ => 0

/-- The money of `u` is safe in a step: a purchase that `u` pays from the
table is mirrored, and covered by the engine's copy as well; a block that pays
`u` is persisted. -/
def Covered (u : UserId) (s : State) : Op → Prop
  | .dbSpend v request now => v = u → ∀ taken ∈ s.taken cat v request now, 0 < priceOf taken.1 →
      s.world.runtimeSet = true
        ∧ ∀ m ∈ s.world.engine.findMinerByUserId u, priceOf taken.1 ≤ m.balance
  | .tick now false => ∀ reward ∈ rewardsOf (s.world.engine.tick now).2, reward.userId ≠ u
  | _ => True

instance (u : UserId) (s : State) : ∀ op, Decidable (Covered cat u s op) := fun op => by
  unfold Covered
  split <;> infer_instance

end Operations

/-! ## The two copies -/

/-- A user's money in the table and in the loaded miner. -/
def copies (w : World) (u : UserId) : Option (Copies ℚ) :=
  (w.engine.findMinerByUserId u).map fun m =>
    ⟨w.polBalance u, m.balance, m.lastPersistedBalance⟩

theorem settled_of_copies {w : World} {u : UserId} {c : Copies ℚ} (h : copies w u = some c) :
    w.settled u = c.settled := by
  obtain ⟨m, hm, rfl⟩ := Option.map_eq_some_iff.mp h
  rw [World.settled, unpersisted_of_find hm]
  rfl

theorem polBalance_of_copies {w : World} {u : UserId} {c : Copies ℚ} (h : copies w u = some c) :
    w.polBalance u = c.store := by
  obtain ⟨m, -, rfl⟩ := Option.map_eq_some_iff.mp h
  rfl

section Moves

variable (w : World) (u : UserId)

theorem copies_increment (v : UserId) (amount : ℚ) :
    copies (w.increment v amount) u
      = (copies w u).map (Copies.credit (if u = v then amount else 0)) := by
  unfold copies
  rw [Option.map_map]
  refine congrArg (Option.map · _) (funext fun m => ?_)
  simp only [World.increment, Function.comp_apply, Copies.credit, Function.update_apply]
  by_cases hu : u = v
  · rw [if_pos hu, if_pos hu, hu]
  · rw [if_neg hu, if_neg hu, add_zero]

/-- What a change of one miner does to the copies of its user. -/
theorem copies_modifyMiner {id : MinerId} {m : Miner} (hm : w.engine.miner? id = some m)
    {f : Miner → Miner} (move : Copies ℚ → Copies ℚ)
    (hmove : move ⟨w.polBalance m.userId, m.balance, m.lastPersistedBalance⟩
      = ⟨w.polBalance m.userId, (f m).balance, (f m).lastPersistedBalance⟩) :
    copies { w with engine := w.engine.modifyMiner id f } u
      = if u = m.userId then (copies w u).map move else copies w u := by
  unfold copies
  simp only [find_modifyMiner hm]
  by_cases hu : u = m.userId
  · subst hu
    rw [if_pos rfl, if_pos rfl, find_of_miner? hm, Option.map_some, Option.map_some,
      Option.map_some, hmove]
  · rw [if_neg hu, if_neg hu]

theorem copies_applyUserBalanceDelta (v : UserId) (delta : ℚ) :
    copies (w.applyUserBalanceDelta v delta) u
      = (copies w u).map
          (Copies.notify (if w.runtimeSet = true ∧ u = v then delta else 0)) := by
  have hzero : (copies w u).map (Copies.notify 0) = copies w u := by
    rw [funext Copies.notify_zero, Option.map_id']
  rcases applyUserBalanceDelta_cases w.runtimeSet w.engine v delta with
    ⟨heq, hnone⟩ | ⟨m, hset, hm, hv, heq⟩
  · have hsame : w.applyUserBalanceDelta v delta = w := by
      rw [World.applyUserBalanceDelta, heq]
    rw [hsame]
    split
    case isTrue hmine =>
      obtain ⟨hset, rfl⟩ := hmine
      rcases hnone with hnot | hmiss
      · rw [hset] at hnot
        cases hnot
      · rw [copies, hmiss, Option.map_none, Option.map_none]
    case isFalse => exact hzero.symm
  · subst hv
    rw [World.applyUserBalanceDelta, heq, copies_modifyMiner w u hm (Copies.notify delta) rfl]
    by_cases hu : u = m.userId
    · rw [if_pos hu, if_pos ⟨hset, hu⟩]
    · rw [if_neg hu, if_neg fun h => hu h.2, hzero]

/-! ## Blocks -/

/-- The part of a block's rewards that is `u`'s own mining. -/
def ownRewards (rewards : List MinerReward) : ℚ :=
  (rewards.map fun r => if u = r.userId then r.rewardAmount else 0).sum

/-- What a list of balance changes brings to `u`. -/
def deltasOf (ds : List (UserId × ℚ)) : ℚ := (ds.map fun d => if u = d.1 then d.2 else 0).sum

theorem ownRewards_nonneg {rewards : List MinerReward} (h : ∀ r ∈ rewards, 0 < r.rewardAmount) :
    0 ≤ ownRewards u rewards := by
  refine List.sum_nonneg fun x hx => ?_
  obtain ⟨r, hr, rfl⟩ := List.mem_map.mp hx
  split
  · exact (h r hr).le
  · exact le_rfl

/-- What a miner is paid is what its user is paid. -/
theorem paidTo_eq_ownRewards {e : Engine} {m : Miner} (hm : e.miner? m.id = some m)
    {rewards : List MinerReward}
    (h : ∀ r ∈ rewards, ∃ m, e.miner? r.minerId = some m ∧ m.userId = r.userId) :
    paidTo rewards m.id = ownRewards m.userId rewards := by
  induction rewards with
  | nil => rfl
  | cons r rewards ih =>
      have ih := ih fun r' hr' => h r' (List.mem_cons_of_mem r hr')
      obtain ⟨m', hm', huser⟩ := h r List.mem_cons_self
      have hsame : r.minerId = m.id ↔ m.userId = r.userId := by
        constructor
        · intro hid
          rw [hid, hm] at hm'
          obtain rfl := Option.some.inj hm'
          exact huser
        · intro hid
          have hfind := find_of_miner? hm'
          rw [huser, ← hid, find_of_miner? hm] at hfind
          obtain rfl := Option.some.inj hfind
          exact (miner?_id hm').symm
      unfold paidTo ownRewards at ih ⊢
      rw [List.map_cons, List.sum_cons, List.filter_cons, ← ih]
      by_cases hid : r.minerId = m.id
      · rw [if_pos (decide_eq_true hid), if_pos (hsame.mp hid), List.map_cons, List.sum_cons]
      · rw [if_neg (by simpa using hid), if_neg (mt hsame.mpr hid), zero_add]

/-- The engine's part of a tick. -/
theorem copies_tick (now : Nat) :
    copies { w with engine := (w.engine.tick now).1 } u
      = (copies w u).map
          (Copies.notify (ownRewards u (rewardsOf (w.engine.tick now).2))) := by
  have hcopies : ∀ e : Engine, copies { w with engine := e } u
      = ((e.findMinerByUserId u).map Miner.ledger).map fun row =>
          ⟨w.polBalance u, row.balance, row.lastPersistedBalance⟩ := by
    intro e
    rw [copies, Option.map_map]
    rfl
  have hpaid := tick_paid w.engine now
  rw [hcopies, hpaid.find, copies]
  cases hfind : w.engine.findMinerByUserId u with
  | none => rfl
  | some m =>
      obtain ⟨hm, rfl⟩ := find_eq_some_iff.mp hfind
      rw [Option.map_some, paidTo_eq_ownRewards hm hpaid.loaded]
      rfl

theorem copies_persistReward (r : MinerReward) :
    copies (w.persistReward r) u
      = (copies w u).map (Copies.credit (rewardCredit w.referredBy u r)) := by
  unfold World.persistReward rewardCredit
  cases World.referralDelta w.referredBy r with
  | none => simp only [copies_increment, add_zero]
  | some d =>
      simp only [copies_increment, Option.map_map]
      refine congrArg (Option.map · _) (funext fun c => ?_)
      simp only [Function.comp_apply, Copies.credit, add_assoc]

theorem copies_persistRewards (rewards : List MinerReward) (w : World) :
    copies (rewards.foldl World.persistReward w) u
      = (copies w u).map (Copies.credit (rewards.map (rewardCredit w.referredBy u)).sum) := by
  induction rewards generalizing w with
  | nil =>
      have hzero : Copies.credit (0 : ℚ) = id := funext fun c => by simp [Copies.credit]
      rw [List.map_nil, List.sum_nil, hzero, Option.map_id, id]
      rfl
  | cons r rewards ih =>
      rw [List.foldl_cons, ih, copies_persistReward, persistReward_referredBy, Option.map_map,
        List.map_cons, List.sum_cons]
      refine congrArg (Option.map · _) (funext fun c => ?_)
      simp only [Function.comp_apply, Copies.credit, add_assoc]

theorem copies_notifications (ds : List (UserId × ℚ)) (w : World) :
    copies (ds.foldl (fun w d => w.applyUserBalanceDelta d.1 d.2) w) u
      = (copies w u).map
          (Copies.notify (if w.runtimeSet = true then deltasOf u ds else 0)) := by
  induction ds generalizing w with
  | nil =>
      have hzero : (if w.runtimeSet = true then deltasOf u [] else 0) = 0 := by
        split <;> rfl
      rw [hzero, funext Copies.notify_zero, Option.map_id']
      rfl
  | cons d ds ih =>
      rw [List.foldl_cons, ih, copies_applyUserBalanceDelta, Option.map_map]
      refine congrArg (Option.map · _) (funext fun c => ?_)
      rw [Function.comp_apply, Copies.notify_notify]
      refine congrArg (Copies.notify · c) ?_
      show (if w.runtimeSet = true ∧ u = d.1 then d.2 else 0)
        + (if w.runtimeSet = true then deltasOf u ds else 0)
          = if w.runtimeSet = true then deltasOf u (d :: ds) else 0
      cases w.runtimeSet with
      | true => simp [deltasOf]
      | false => simp

/-- The commissions are credited, and passed on to the engine. -/
theorem sum_rewardCredit (referredBy : UserId → Option UserId) (rewards : List MinerReward) :
    (rewards.map (rewardCredit referredBy u)).sum
      = ownRewards u rewards + deltasOf u (rewards.filterMap (World.referralDelta referredBy)) := by
  induction rewards with
  | nil => simp [ownRewards, deltasOf]
  | cons r rewards ih =>
      rw [List.map_cons, List.sum_cons, ih, rewardCredit, List.filterMap_cons]
      unfold ownRewards deltasOf
      cases World.referralDelta referredBy r with
      | none =>
          rw [List.map_cons, List.sum_cons]
          ring
      | some d =>
          simp only [List.map_cons, List.sum_cons]
          ring

theorem deltasOf_nonneg (referredBy : UserId → Option UserId) (rewards : List MinerReward) :
    0 ≤ deltasOf u (rewards.filterMap (World.referralDelta referredBy)) := by
  refine List.sum_nonneg fun x hx => ?_
  obtain ⟨d, hd, rfl⟩ := List.mem_map.mp hx
  obtain ⟨r, -, hr⟩ := List.mem_filterMap.mp hd
  unfold World.referralDelta at hr
  split at hr
  case isTrue hpos =>
    obtain ⟨referrer, -, rfl⟩ := Option.map_eq_some_iff.mp hr
    split
    · exact mul_nonneg hpos.le (by norm_num)
    · exact le_rfl
  case isFalse => cases hr

/-- A tick whose block is persisted: `u` is credited with its own rewards and
its commissions, and the engine may not hear of the commissions. -/
theorem copies_tick_persisted (now : Nat) : ∃ known amount, 0 ≤ known ∧ known ≤ amount
    ∧ copies (tick w now true) u
      = (copies w u).map fun c => (c.credit amount).notify known := by
  have hpaid := tick_paid w.engine now
  have hown := ownRewards_nonneg u hpaid.positive
  have hcommission := deltasOf_nonneg u w.referredBy (rewardsOf (w.engine.tick now).2)
  refine ⟨ownRewards u (rewardsOf (w.engine.tick now).2)
      + (if w.runtimeSet = true then
          deltasOf u ((rewardsOf (w.engine.tick now).2).filterMap
            (World.referralDelta w.referredBy)) else 0),
    ((rewardsOf (w.engine.tick now).2).map (rewardCredit w.referredBy u)).sum, ?_, ?_, ?_⟩
  · refine add_nonneg hown ?_
    split
    · exact hcommission
    · exact le_rfl
  · rw [sum_rewardCredit]
    refine add_le_add_right ?_ _
    split
    · exact le_rfl
    · exact hcommission
  · show copies ({ w with engine := (w.engine.tick now).1 }.persistBlockRewards
      (rewardsOf (w.engine.tick now).2)) u = _
    have hset : ∀ (rewards : List MinerReward) (w : World),
        (rewards.foldl World.persistReward w).runtimeSet = w.runtimeSet := by
      intro rewards
      induction rewards with
      | nil => exact fun _ => rfl
      | cons r rewards ih =>
          intro w
          rw [List.foldl_cons, ih]
          unfold World.persistReward
          cases World.referralDelta w.referredBy r <;> rfl
    rw [World.persistBlockRewards, copies_notifications, copies_persistRewards, copies_tick,
      Option.map_map, Option.map_map, hset]
    refine congrArg (Option.map · _) (funext fun c => ?_)
    simp only [Function.comp_apply, Copies.credit, Copies.notify, add_assoc]

/-- A rollback touches the miners that the block paid. -/
theorem copies_rollback {payload : BlockPayload} (entries : List (MinerId × Snapshot)) (w : World)
    (hnot : ∀ r ∈ payload.minerRewards, ∀ m, w.engine.miner? r.minerId = some m → m.userId ≠ u) :
    copies { w with engine := entries.foldl (rollbackMiner payload) w.engine } u
      = copies w u := by
  induction entries generalizing w with
  | nil => rfl
  | cons entry entries ih =>
      have hone : copies { w with engine := rollbackMiner payload w.engine entry } u = copies w u
          ∧ ∀ r ∈ payload.minerRewards, ∀ m,
            (rollbackMiner payload w.engine entry).miner? r.minerId = some m → m.userId ≠ u := by
        obtain ⟨id, snapshot⟩ := entry
        simp only [rollbackMiner]
        split
        case h_1 m reward hm hreward =>
          have hid : reward.minerId = id := by simpa using List.find?_some hreward
          have hother : u ≠ m.userId := by
            refine fun heq => hnot reward (List.mem_of_find?_eq_some hreward) m ?_ heq.symm
            rw [hid]
            exact hm
          refine ⟨?_, fun r hr m' hm' => ?_⟩
          · show copies { w with engine := w.engine.modifyMiner id (restoredTo snapshot) } u = _
            unfold copies
            simp only [find_modifyMiner hm, if_neg hother]
          · have hlook : (w.engine.modifyMiner id (restoredTo snapshot)).miner? r.minerId
                = some m' := hm'
            rw [miner?_modifyMiner] at hlook
            split at hlook
            · obtain ⟨m₀, hm₀, rfl⟩ := Option.map_eq_some_iff.mp hlook
              exact hnot r hr m₀ hm₀
            · exact hnot r hr m' hlook
        case h_2 => exact ⟨rfl, hnot⟩
      rw [List.foldl_cons]
      exact (ih { w with engine := rollbackMiner payload w.engine entry } hone.2).trans hone.1

/-- A tick whose block is rolled back, where the block paid `u` nothing. -/
theorem copies_tick_rejected (now : Nat)
    (hnot : ∀ reward ∈ rewardsOf (w.engine.tick now).2, reward.userId ≠ u) :
    copies (tick w now false) u = copies w u := by
  have hpaid := tick_paid w.engine now
  have hzero : ownRewards u (rewardsOf (w.engine.tick now).2) = 0 := by
    refine List.sum_eq_zero fun x hx => ?_
    obtain ⟨r, hr, rfl⟩ := List.mem_map.mp hx
    exact if_neg (Ne.symm (hnot r hr))
  have htick : copies { w with engine := (w.engine.tick now).1 } u = copies w u := by
    rw [copies_tick, hzero, funext Copies.notify_zero, Option.map_id']
  rw [← htick]
  show copies { w with engine := (w.engine.tick now).1.reject (w.engine.tick now).2 } u = _
  cases hpending : (w.engine.tick now).2 with
  | none => rfl
  | some p =>
      rw [hpending] at hnot hpaid
      refine copies_rollback u p.balanceSnapshot.entries
        { w with engine := (w.engine.tick now).1 } fun r hr m hm huser => hnot r hr ?_
      obtain ⟨m₀, hm₀, hu⟩ := hpaid.loaded r hr
      have hrow := hpaid.rows r.minerId
      rw [ledger?, ledger?, hm₀, Option.map_some, Option.map_some] at hrow
      have hm' : (w.engine.tick now).1.miner? r.minerId = some m := hm
      rw [hm', Option.map_some] at hrow
      have hsame : m.userId = m₀.userId := congrArg LedgerRow.userId (Option.some.inj hrow)
      rw [← hu, ← hsame]
      exact huser

end Moves

/-! ## Purchases -/

section Purchases

variable {cat : Spending.Catalog} {db : Spending.Db}

theorem checkBalance_eq_ok {seen price : ℚ} {spend : Spending.Spend} {c : Spending.Call}
    (h : Spending.Db.checkBalance seen price spend = .ok c) : c = .commit spend seen := by
  obtain ⟨-, h⟩ := ite_error_eq_ok.mp h
  exact (Except.ok.inj h).symm

/-- The three requests pay in POL, and only where there is a price. -/
def PaysPol (spend : Spending.Spend) : Prop :=
  spend.payment = none ∨ ∃ price, 0 < price ∧ spend.payment = some (.POL, price)

/-- What the transactions of the three requests write beside the payment
leaves the balances alone. -/
def KeepsBalances (spend : Spending.Spend) : Prop :=
  ∀ cat now db db', spend.writes cat now db = some db' → db'.balance = db.balance

theorem createWithdrawal_pays {amount : ℚ} (h : 0 < amount) :
    PaysPol (.createWithdrawal amount) ∧ KeepsBalances (.createWithdrawal amount) := by
  refine ⟨Or.inr ⟨amount, h, rfl⟩, fun cat now db db' hwrites => ?_⟩
  obtain rfl := Option.some.inj hwrites
  rfl

theorem purchaseMiner_pays {totalPrice : ℚ} (h : 0 < totalPrice) :
    PaysPol (.purchaseMiner totalPrice) ∧ KeepsBalances (.purchaseMiner totalPrice) := by
  refine ⟨Or.inr ⟨totalPrice, h, rfl⟩, fun cat now db db' hwrites => ?_⟩
  obtain rfl := Option.some.inj hwrites
  rfl

theorem buyRoom_pays (nextRoom : ℕ) (price : ℚ) :
    PaysPol (.buyRoom nextRoom price) ∧ KeepsBalances (.buyRoom nextRoom price) := by
  constructor
  · show (if 0 < price then some (Spending.Currency.POL, price) else none) = none ∨ _
    by_cases hprice : 0 < price
    · exact Or.inr ⟨price, hprice, if_pos hprice⟩
    · exact Or.inl (if_neg hprice)
  · intro cat now db db' hwrites
    have hwrites : (if nextRoom ∈ db.rooms then none
        else some { db with rooms := nextRoom :: db.rooms }) = some db' := hwrites
    split at hwrites
    case isTrue => cases hwrites
    case isFalse =>
      obtain rfl := Option.some.inj hwrites
      rfl

theorem admitted_pays {request : DbSpend} {now : Nat} {spend : Spending.Spend}
    (h : admitted cat db request now = some spend) : PaysPol spend ∧ KeepsBalances spend := by
  unfold admitted at h
  split at h
  case h_2 => cases h
  case h_1 spend' seen hquery =>
    obtain rfl := Option.some.inj h
    obtain ⟨c, hstart, hquery⟩ := bind_eq_ok hquery
    cases request with
    | createWithdrawal amount =>
        obtain ⟨hmin, hstart⟩ := ite_error_eq_ok.mp hstart
        obtain ⟨-, hstart⟩ := ite_error_eq_ok.mp hstart
        obtain rfl := Except.ok.inj hstart
        have heq := checkBalance_eq_ok hquery
        obtain ⟨rfl, -⟩ := Spending.Call.commit.inj heq
        refine createWithdrawal_pays (lt_of_lt_of_le ?_ (not_lt.mp hmin))
        norm_num [Spending.Db.WITHDRAW_MIN_POL]
    | purchaseMiner minerId quantity =>
        obtain ⟨-, hstart⟩ := ite_error_eq_ok.mp hstart
        obtain ⟨hquantity, hstart⟩ := ite_error_eq_ok.mp hstart
        split at hstart
        case h_1 => cases hstart
        case h_2 miner _ =>
          obtain ⟨hprice, hstart⟩ := ite_error_eq_ok.mp hstart
          obtain ⟨-, hstart⟩ := ite_error_eq_ok.mp hstart
          obtain rfl := checkBalance_eq_ok hstart
          obtain ⟨rfl, -⟩ := Spending.Call.commit.inj (Except.ok.inj hquery)
          push Not at hprice hquantity
          have hone : (0 : ℚ) < quantity := by
            have hpos : 0 < quantity := by omega
            exact_mod_cast hpos
          exact purchaseMiner_pays (mul_pos hprice.1 hone)
    | buyRoom =>
        obtain ⟨-, hstart⟩ := ite_error_eq_ok.mp hstart
        split at hstart
        case h_1 => cases hstart
        case h_2 price _ =>
          obtain ⟨-, hstart⟩ := ite_error_eq_ok.mp hstart
          obtain rfl := Except.ok.inj hstart
          obtain ⟨rfl, -⟩ := Spending.Call.commit.inj (checkBalance_eq_ok hquery)
          exact buyRoom_pays _ price

theorem taken_spec {s : State} {u : UserId} {request : DbSpend} {now : Nat}
    {spend : Spending.Spend} (h : s.taken cat u request now = some (spend, db)) :
    PaysPol spend ∧ db.balance .POL = s.world.polBalance u - priceOf spend := by
  obtain ⟨spend', hadmit, hmap⟩ := Option.bind_eq_some_iff.mp h
  obtain ⟨db₁, hcommit, heq⟩ := Option.map_eq_some_iff.mp hmap
  obtain ⟨rfl, rfl⟩ := Prod.mk.inj heq
  obtain ⟨hpays, hkeeps⟩ := admitted_pays hadmit
  refine ⟨hpays, ?_⟩
  obtain ⟨db₂, hwrites, rfl⟩ := Option.map_eq_some_iff.mp hcommit
  have hbalance := congrFun (hkeeps _ _ _ _ hwrites) .POL
  have hread : (s.account u).balance .POL = s.world.polBalance u := by simp [State.account]
  rw [hread] at hbalance
  rcases hpays with hnone | ⟨price, -, hprice⟩
  · rw [priceOf, hnone, sub_zero]
    exact hbalance
  · rw [priceOf, hprice]
    show Function.update db₂.balance .POL (db₂.balance .POL - price) .POL = _
    rw [Function.update_self, hbalance]

/-- A purchase from the table takes its price off the settled amount. -/
theorem dbSpend_settled {s : State} {u : UserId} {request : DbSpend} {now : Nat}
    {spend : Spending.Spend} (h : s.taken cat u request now = some (spend, db)) :
    (s.dbSpend cat u request now).world.settled u = s.world.settled u - priceOf spend := by
  obtain ⟨hpays, hbalance⟩ := taken_spec h
  have hmirror : ∀ w : World, (mirror w u spend).settled u = w.settled u := by
    intro w
    unfold mirror
    split
    · rfl
    · exact settled_applyUserBalanceDelta ..
  unfold State.dbSpend
  rw [h]
  show (mirror _ u spend).settled u = _
  rw [hmirror, hbalance, sub_eq_add_neg, sub_eq_add_neg]
  refine (settled_increment s.world u u (-priceOf spend)).trans ?_
  rw [if_pos rfl]

/-- Where the engine's balance is the settled amount, as it is at the start,
the purchases that overdraw it are those that it does not cover. -/
theorem dbSpend_nonneg_iff {s : State} {u : UserId} {request : DbSpend} {now : Nat}
    {spend : Spending.Spend} {m : Miner} (h : s.taken cat u request now = some (spend, db))
    (hsettled : s.world.settled u = m.balance) :
    0 ≤ (s.dbSpend cat u request now).world.settled u ↔ priceOf spend ≤ m.balance := by
  rw [dbSpend_settled h, hsettled, sub_nonneg]

end Purchases

theorem rigCost_nonneg (m : Miner) : 0 ≤ rigCost m := by
  have hrigs : (0 : ℚ) ≤ m.rigs := Nat.cast_nonneg _
  unfold rigCost
  linarith

/-! ## The order of the copies -/

/-- The user has a loaded miner, and the two copies are in order. -/
def Sound (u : UserId) (w : World) : Prop := ∃ c, copies w u = some c ∧ c.Ordered

section Steps

variable {cat : Spending.Catalog} {w : World} {u : UserId}

theorem Sound.same {w' : World} (h : Sound u w) (hsame : copies w' u = copies w u) :
    Sound u w' := by
  obtain ⟨c, hc, hordered⟩ := h
  exact ⟨c, hsame.trans hc, hordered⟩

/-- A purchase of price `cost` in the engine, checked there. -/
theorem Sound.purchase {id : MinerId} {m : Miner} {f : Miner → Miner} {cost : ℚ} (h : Sound u w)
    (hm : w.engine.miner? id = some m) (hcost : 0 ≤ cost) (hcovered : cost ≤ m.balance)
    (hbalance : (f m).balance = m.balance - cost)
    (hmark : (f m).lastPersistedBalance = m.lastPersistedBalance) :
    Sound u { w with engine := w.engine.modifyMiner id f } := by
  obtain ⟨c, hc, hordered⟩ := h
  have hmove := copies_modifyMiner w u hm (f := f) (Copies.spend cost) (by
    rw [hbalance, hmark]
    rfl)
  by_cases hu : u = m.userId
  · rw [if_pos hu, hc, Option.map_some] at hmove
    have hown : c.balance = m.balance := by
      subst hu
      rw [copies, find_of_miner? hm, Option.map_some] at hc
      obtain rfl := Option.some.inj hc
      rfl
    exact ⟨_, hmove, hordered.spend hcost (hown ▸ hcovered)⟩
  · rw [if_neg hu] at hmove
    exact ⟨c, hmove.trans hc, hordered⟩

theorem Sound.persist (h : Sound u w) (id : MinerId) : Sound u (w.persistMinerProfile id) := by
  unfold World.persistMinerProfile
  cases hm : w.engine.miner? id with
  | none => exact h
  | some m =>
      simp only
      split
      case isTrue => exact h
      case isFalse =>
        obtain ⟨c, hc, hordered⟩ := h
        have hloaded : (w.increment m.userId (persistDelta m)).engine.miner? id = some m := hm
        have hmark := copies_modifyMiner (w.increment m.userId (persistDelta m)) u hloaded
          (f := fun m => { m with lastPersistedBalance := m.balance })
          (fun c => ⟨c.store, c.balance, c.balance⟩) rfl
        rw [copies_increment, hc, Option.map_some] at hmark
        by_cases hu : u = m.userId
        · subst hu
          rw [copies, find_of_miner? hm, Option.map_some] at hc
          obtain rfl := Option.some.inj hc
          rw [if_pos rfl, if_pos rfl, Option.map_some] at hmark
          exact ⟨_, hmark, hordered.flush⟩
        · have hzero : Copies.credit (0 : ℚ) c = c := by
            unfold Copies.credit
            rw [add_zero]
          rw [if_neg hu, if_neg hu, hzero] at hmark
          exact ⟨c, hmark, hordered⟩

theorem Sound.tick {now : Nat} {persisted : Bool} (h : Sound u w)
    (hnot : persisted = false → ∀ reward ∈ rewardsOf (w.engine.tick now).2, reward.userId ≠ u) :
    Sound u (tick w now persisted) := by
  cases persisted with
  | false => exact h.same (copies_tick_rejected w u now (hnot rfl))
  | true =>
      obtain ⟨c, hc, hordered⟩ := h
      obtain ⟨known, amount, hknown, hamount, hcopies⟩ := copies_tick_persisted w u now
      rw [hc, Option.map_some] at hcopies
      exact ⟨_, hcopies, hordered.credit_notify hknown hamount⟩

theorem Sound.dbSpend {s : State} {v : UserId} {request : DbSpend} {now : Nat}
    (h : Sound u s.world) (hcovered : Covered cat u s (.dbSpend v request now)) :
    Sound u (s.dbSpend cat v request now).world := by
  unfold State.dbSpend
  split
  case h_1 => exact h
  case h_2 spend db htaken =>
    obtain ⟨hpays, hbalance⟩ := taken_spec htaken
    have hpaid : { s.world with
        polBalance := Function.update s.world.polBalance v (db.balance .POL) }
          = s.world.increment v (-priceOf spend) := by
      rw [hbalance, sub_eq_add_neg]
      rfl
    rw [hpaid]
    obtain ⟨c, hc, hordered⟩ := h
    have hzero : Copies.credit (0 : ℚ) c = c := by
      unfold Copies.credit
      rw [add_zero]
    rcases hpays with hnone | ⟨price, hpos, hprice⟩
    · have hfree : priceOf spend = 0 := by rw [priceOf, hnone]
      have hsame : mirror (s.world.increment v (-priceOf spend)) v spend
          = s.world.increment v (-priceOf spend) := by rw [mirror, hnone]
      refine ⟨c, ?_, hordered⟩
      show copies (mirror (s.world.increment v (-priceOf spend)) v spend) u = some c
      rw [hsame, copies_increment, hfree, neg_zero, ite_self, hc, Option.map_some, hzero]
    · have hcost : priceOf spend = price := by rw [priceOf, hprice]
      have hsame : mirror (s.world.increment v (-priceOf spend)) v spend
          = (s.world.increment v (-price)).applyUserBalanceDelta v (-price) := by
        rw [mirror, hprice, hcost]
      show Sound u (mirror (s.world.increment v (-priceOf spend)) v spend)
      rw [hsame]
      by_cases hu : u = v
      · subst hu
        obtain ⟨hset, hcover⟩ := hcovered rfl (spend, db) htaken (hcost ▸ hpos)
        obtain ⟨m, hm, rfl⟩ := Option.map_eq_some_iff.mp hc
        have hcover : price ≤ m.balance := hcost ▸ hcover m hm
        refine ⟨Copies.shift (-price) _, ?_, hordered.shift ?_⟩
        · rw [copies_applyUserBalanceDelta, copies_increment, hc, if_pos rfl,
            if_pos ⟨hset, rfl⟩]
          rfl
        · show 0 ≤ m.balance + -price
          linarith
      · refine ⟨c, ?_, hordered⟩
        rw [copies_applyUserBalanceDelta, copies_increment, hc, if_neg hu, if_neg fun h => hu h.2,
          Option.map_some, Option.map_some, hzero, Copies.notify_zero]

/-- **Step lemma.** A step that meets its condition keeps the copies of the
user in order. -/
theorem step_sound {s : State} {op : Op} (h : Sound u s.world) (hcovered : Covered cat u s op) :
    Sound u (step cat s op).world := by
  cases op with
  | dbSpend v request now => exact h.dbSpend hcovered
  | applyBoost id now =>
      show Sound u { s.world with engine := (s.world.engine.applyBoost id now).1 }
      rcases applyBoost_covered s.world.engine id now with ⟨heq, -⟩ | ⟨m, hm, hcost, heq, -⟩
      · rw [heq]
        exact h
      · rw [heq]
        exact h.purchase hm (by norm_num [boostCost]) hcost rfl rfl
  | upgradeRig id =>
      show Sound u { s.world with engine := (s.world.engine.upgradeRig id).1 }
      rcases upgradeRig_covered s.world.engine id with ⟨heq, -⟩ | ⟨m, hm, hcost, heq, -⟩
      · rw [heq]
        exact h
      · rw [heq]
        exact h.purchase hm (rigCost_nonneg m) hcost rfl rfl
  | tick now persisted =>
      refine h.tick fun hrejected => ?_
      subst hrejected
      exact hcovered
  | persistMinerProfile id => exact h.persist id

end Steps

/-! ## Runs -/

/-- The user's settled amount and the two balances are equal, and not
negative. -/
def Level (u : UserId) (s : State) : Prop :=
  ∃ m ∈ s.world.engine.findMinerByUserId u,
    s.world.settled u = s.world.polBalance u ∧ s.world.polBalance u = m.balance
      ∧ 0 ≤ m.balance

instance (u : UserId) (s : State) : Decidable (Level u s) := by
  unfold Level
  infer_instance

theorem Level.sound {u : UserId} {s : State} (h : Level u s) : Sound u s.world := by
  obtain ⟨m, hm, hsettled, hequal, hnonneg⟩ := h
  have hc : copies s.world u = some ⟨s.world.polBalance u, m.balance, m.lastPersistedBalance⟩ := by
    rw [copies, hm, Option.map_some]
  have hmark : m.balance = m.lastPersistedBalance := by
    rw [settled_of_copies hc] at hsettled
    have hsettled : s.world.polBalance u + (m.balance - m.lastPersistedBalance)
      = s.world.polBalance u := hsettled
    linarith
  exact ⟨_, hc, hnonneg, hmark.le, by rw [← hmark, hequal]⟩

/-- One user, id 1, with 20 POL and a loaded miner, id 7. -/
def exampleStart : State where
  world :=
    { engine := ((Engine.new 0).createOrGetMiner 7
        { userId := 1, username := some "alice", walletAddress := none,
          profile := some { balance := some 20, base_hash_rate := some 10 } }).getD (.new 0)
      polBalance := fun u => if u = 1 then 20 else 0
      referredBy := fun _ => none
      runtimeSet := true }
  accounts _ :=
    { balance := fun _ => 0, blkBalance := 0, isBanned := false, pendingWithdrawals := []
      rooms := [], soldCount := fun _ => 0, eventPurchases := fun _ => 0, totalXp := fun _ => 0
      conversions := [] }

/-- One miner at 5 POL; the first room is free, the second costs 2. -/
def exampleCatalog : Spending.Catalog where
  shopMiner _ := some { price := 5, baseHashRate := 10, slotSize := 1 }
  SHOP_MAX_BULK_QUANTITY := 25
  roomPrices := [some 0, some 2]
  ROOM_MAX := 4
  eventMiner _ := none
  season _ := none
  blkEconomy :=
    { polPerBlk := 1, convertFeeBps := 0, minConvertPol := 0, dailyConvertLimitBlk := none
      convertCooldownSec := 0 }

/-- A boost, a withdrawal, two rooms, a rig and a miner, with a persist in
between. -/
def coveredOps : List Op :=
  [.applyBoost 7 0, .dbSpend 1 (.createWithdrawal 10) 1, .dbSpend 1 .buyRoom 2,
    .dbSpend 1 .buyRoom 3, .upgradeRig 7, .tick 600000 true, .persistMinerProfile 7,
    .dbSpend 1 (.purchaseMiner 1 1) 4]

end BlockMiner.EngineSpending
