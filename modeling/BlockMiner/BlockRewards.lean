import BlockMiner.Referrals
import BlockMiner.EngineSpending
import Mathlib.Data.List.TakeWhile

/-!
# What a block pays

`persistBlockRewards` statement by statement: a transaction over the rewards, in
which any statement may fail, and after its commit a delta to the engine for each
commission. The notices are written outside the transaction, so that those of a
transaction that fails stay.

A block pays exactly what it should (`PaidExactly`) if and only if the two records
of a referrer agree for those it pays, and the engine is told (`Sound`). The first
fails for everyone who was referred at registration.
-/

namespace BlockMiner.BlockRewards

open Engine Referrals EngineSpending

/-! ## Statements -/

/-- The statements that fail, those of a reward by its position. -/
structure Failures where
  miningRewardsLog : ℕ → Bool
  reward : ℕ → Bool
  findUser : ℕ → Bool
  commission : ℕ → Bool
  referralEarning : ℕ → Bool
  notification : ℕ → Bool
  blockDistribution : Bool
  commit : Bool

structure State where
  db : Db
  engine : Engine
  /-- See `Engine.applyUserBalanceDelta`. -/
  runtimeSet : Bool

def referredBy (db : Db) (u : UserId) : Option UserId := (db.users.row u).bind (·.referredBy)

def polBalance (db : Db) (u : UserId) : ℚ := (db.users.row u).elim 0 (·.polBalance)

/-- The columns that the ledger of the engine knows. -/
def State.world (s : State) : World where
  engine := s.engine
  polBalance := polBalance s.db
  referredBy := referredBy s.db
  runtimeSet := s.runtimeSet

def logRow (b : BlockPayload) (r : MinerReward) : MiningRewardsLog where
  userId := r.userId
  blockNumber := b.blockNumber
  workAccumulated := r.workAccumulated
  totalNetworkWork := b.totalWork
  sharePercentage := r.sharePercentage
  rewardAmount := r.rewardAmount
  balanceAfterReward := r.balanceAfter
  createdAt := b.now

def earningRow (b : BlockPayload) (r : MinerReward) (d : UserId × ℚ) : ReferralEarning where
  referrerId := d.1
  referredId := r.userId
  amount := d.2
  source := b.blockNumber
  createdAt := b.now

def distributionRow (b : BlockPayload) : BlockDistribution where
  blockNumber := b.blockNumber
  reward := b.blockReward
  minerCount := b.minerRewards.length
  totalWork := b.totalWork
  createdAt := b.now
  minerRewards := b.minerRewards.map fun r =>
    ⟨r.userId, r.workAccumulated, r.sharePercentage, r.rewardAmount, b.now⟩

/-- `polBalance: { increment: amount }`. -/
def credit (u : UserId) (amount : ℚ) (db : Db) : Db :=
  { db with
    users := db.users.modify u fun user => { user with polBalance := user.polBalance + amount } }

def log (b : BlockPayload) (r : MinerReward) (db : Db) : Db :=
  { db with miningRewardsLog := db.miningRewardsLog ++ [logRow b r] }

def earn (b : BlockPayload) (r : MinerReward) (d : UserId × ℚ) (db : Db) : Db :=
  { db with referralEarnings := db.referralEarnings ++ [earningRow b r d] }

/-- The transaction as far as it has come, and `pendingReferralDeltas`. -/
structure Tx where
  db : Db
  deltas : List (UserId × ℚ)

/-- A statement that needs the row of a user. A transaction that fails leaves the
notices it has sent. -/
def Tx.exec (t : Tx) (fails : Bool) (u : UserId) (write : Db → Db) :
    Except (List Notification) Tx :=
  if fails = true ∨ t.db.users.row u = none then .error t.db.notifications
  else .ok { t with db := write t.db }

section Persist

variable (f : Failures) (b : BlockPayload)

/-- `createNotification`, which catches its own errors. -/
def Tx.notify (t : Tx) (i : ℕ) (r : MinerReward) : Tx :=
  if 0 < r.rewardAmount ∧ f.notification i = false then
    { t with
      db := { t.db with
        notifications := t.db.notifications ++ [⟨r.userId, b.blockNumber, r.rewardAmount⟩] } }
  else t

/-- One round of the loop. -/
def persistReward (i : ℕ) (t : Tx) (r : MinerReward) : Except (List Notification) Tx := do
  let t ← t.exec (f.miningRewardsLog i) r.userId (log b r)
  let t ← t.exec (f.reward i) r.userId (credit r.userId r.rewardAmount)
  let t ← t.exec (f.findUser i) r.userId id
  match World.referralDelta (referredBy t.db) r with
  | none => return t.notify f b i r
  | some d => do
      let t ← t.exec (f.commission i) d.1 (credit d.1 d.2)
      let t ← t.exec (f.referralEarning i) d.1 (earn b r d)
      return { t with deltas := t.deltas ++ [d] }.notify f b i r

def persistRewards (t : Tx) : List (MinerReward × ℕ) → Except (List Notification) Tx
  | [] => .ok t
  | (r, i) :: rest => (persistReward f b i t r).bind fun t => persistRewards t rest

/-- The block, and the commit. -/
def distribute (t : Tx) : Except (List Notification) Tx :=
  if f.blockDistribution ∨ (∃ d ∈ t.db.blockDistributions, d.blockNumber = b.blockNumber)
      ∨ f.commit then .error t.db.notifications
  else .ok { t with
    db := { t.db with blockDistributions := t.db.blockDistributions ++ [distributionRow b] } }

def persistBlockRewards (s : State) : State :=
  match (persistRewards f b ⟨s.db, []⟩ b.minerRewards.zipIdx).bind (distribute f b) with
  | .error notifications => { s with db := { s.db with notifications := notifications } }
  | .ok t =>
      { s with
        db := t.db
        engine :=
          (t.deltas.foldl (fun w d => w.applyUserBalanceDelta d.1 d.2) s.world).engine }

end Persist

/-! ## The property -/

/-- The commission for a reward: one percent to the referrer in the user's row of
`referrals`. -/
def commission (db : Db) (r : MinerReward) : Option (UserId × ℚ) :=
  if r.rewardAmount = 0 then none
  else (db.referral r.userId).map fun found => (found.2.referrerId, r.rewardAmount * (1 / 100))

def totalBalance (db : Db) : ℚ := db.users.sum fun _ user => user.polBalance

structure PaidExactly (b : BlockPayload) (s s' : State) : Prop where
  balances : ∀ u row, s.db.users.row u = some row →
    polBalance s'.db u = row.polBalance + ownRewards u b.minerRewards
      + deltasOf u (b.minerRewards.filterMap (commission s.db))
  total : totalBalance s'.db = totalBalance s.db + (b.minerRewards.map (·.rewardAmount)).sum
    + ((b.minerRewards.filter fun r => (s.db.referral r.userId).isSome).map
      (·.rewardAmount)).sum / 100
  rewardLogs : s'.db.miningRewardsLog = s.db.miningRewardsLog ++ b.minerRewards.map (logRow b)
  commissionLogs : s'.db.referralEarnings = s.db.referralEarnings
    ++ b.minerRewards.filterMap fun r => (commission s.db r).map (earningRow b r)
  engine : ∀ u, (s'.engine.findMinerByUserId u).map Miner.balance
    = (s.engine.findMinerByUserId u).map fun m =>
      m.balance + deltasOf u (b.minerRewards.filterMap (commission s.db))

def PaidOrNothing (b : BlockPayload) (s s' : State) : Prop := s' = s ∨ PaidExactly b s s'

/-! ## The condition -/

section Condition

variable (f : Failures) (b : BlockPayload) (s : State)

/-- A statement of this reward fails, or a user is missing. -/
def RewardFails (db : Db) (p : MinerReward × ℕ) : Prop :=
  db.users.row p.1.userId = none ∨ f.miningRewardsLog p.2 = true ∨ f.reward p.2 = true
    ∨ f.findUser p.2 = true ∨ ∃ d ∈ World.referralDelta (referredBy db) p.1,
      db.users.row d.1 = none ∨ f.commission p.2 = true ∨ f.referralEarning p.2 = true

instance (db : Db) (p : MinerReward × ℕ) : Decidable (RewardFails f db p) :=
  inferInstanceAs (Decidable (_ ∨ _ ∨ _ ∨ _ ∨ ∃ d ∈ World.referralDelta (referredBy db) p.1, _))

/-- The rewards before the first that fails. -/
def attempted : List (MinerReward × ℕ) :=
  b.minerRewards.zipIdx.takeWhile fun p => ¬RewardFails f s.db p

def Commits : Prop :=
  (∀ p ∈ b.minerRewards.zipIdx, ¬RewardFails f s.db p) ∧ f.blockDistribution = false
    ∧ (∀ d ∈ s.db.blockDistributions, d.blockNumber ≠ b.blockNumber) ∧ f.commit = false

/-- Whoever has a row in `referrals` and is paid has a `referredBy`. -/
def ReferrersKnown : Prop :=
  ∀ r ∈ b.minerRewards, r.rewardAmount ≠ 0 → (s.db.referral r.userId).isSome →
    0 < r.rewardAmount ∧ (referredBy s.db r.userId).isSome

/-- The engine is known to the runtime, unless no referrer is loaded. -/
def EngineTold : Prop :=
  s.runtimeSet = true ∨ ∀ r ∈ b.minerRewards, ∀ c ∈ commission s.db r,
    s.engine.findMinerByUserId c.1 = none

/-- No notice is sent before the statement that fails. -/
def NoNotice : Prop :=
  ∀ p ∈ attempted f b s, ¬(0 < p.1.rewardAmount ∧ f.notification p.2 = false)

def Sound : Prop :=
  (Commits f b s → ReferrersKnown b s ∧ EngineTold b s) ∧ (¬Commits f b s → NoNotice f b s)

end Condition

/-! ## One reward -/

section Steps
variable (f : Failures) (b : BlockPayload)

@[simp] theorem credit_row_eq_none {u v : UserId} {amount : ℚ} {db : Db} :
    (credit u amount db).users.row v = none ↔ db.users.row v = none := by
  simp only [credit, Table.modify_row]
  split
  · simp
  · rfl

@[simp] theorem log_row (r : MinerReward) (db : Db) (u : UserId) :
    (log b r db).users.row u = db.users.row u := rfl

@[simp] theorem referredBy_credit (u : UserId) (amount : ℚ) (db : Db) :
    referredBy (credit u amount db) = referredBy db := by
  funext v
  simp only [referredBy, credit, Table.modify_row]
  split
  · cases db.users.row v <;> rfl
  · rfl

@[simp] theorem referredBy_log (r : MinerReward) (db : Db) :
    referredBy (log b r db) = referredBy db := rfl

/-- The rows of a reward that goes through, and with its notice. -/
def settle (t : Tx) (r : MinerReward) : Tx :=
  match World.referralDelta (referredBy t.db) r with
  | none => { t with db := credit r.userId r.rewardAmount (log b r t.db) }
  | some d =>
      { db := earn b r d (credit d.1 d.2 (credit r.userId r.rewardAmount (log b r t.db)))
        deltas := t.deltas ++ [d] }

def paid (t : Tx) (p : MinerReward × ℕ) : Tx := (settle b t p.1).notify f b p.2 p.1

/-- A statement and what follows it. -/
theorem exec_bind {α : Type} (t : Tx) (fails : Bool) (u : UserId) (write : Db → Db)
    (rest : Tx → Except (List Notification) α) :
    (t.exec fails u write >>= rest)
      = if fails = true ∨ t.db.users.row u = none then .error t.db.notifications
        else rest { t with db := write t.db } := by
  unfold Tx.exec
  split <;> rfl

theorem persistReward_of_fails {t : Tx} {p : MinerReward × ℕ} (h : RewardFails f t.db p) :
    persistReward f b p.2 t p.1 = .error t.db.notifications := by
  obtain ⟨r, i⟩ := p
  simp only [persistReward, exec_bind]
  split
  · rfl
  case isFalse hlog =>
    split
    · rfl
    case isFalse hreward =>
      split
      · rfl
      case isFalse hread =>
        simp only [not_or, credit_row_eq_none, log_row] at hlog hreward hread
        obtain ⟨d, hd, hfails⟩ : ∃ d ∈ World.referralDelta (referredBy t.db) r,
            t.db.users.row d.1 = none ∨ f.commission i = true ∨ f.referralEarning i = true := by
          simpa [RewardFails, hlog, hreward, hread] using h
        simp only [id, referredBy_credit, referredBy_log, Option.mem_def.mp hd]
        split
        · rfl
        case isFalse hcommission =>
          simp only [not_or, credit_row_eq_none, log_row] at hcommission
          refine if_pos (Or.inl ?_)
          simpa [hcommission] using hfails

theorem persistReward_of_not_fails {t : Tx} {p : MinerReward × ℕ} (h : ¬RewardFails f t.db p) :
    persistReward f b p.2 t p.1 = .ok (paid f b t p) := by
  obtain ⟨r, i⟩ := p
  simp only [RewardFails, not_or, not_exists, not_and] at h
  obtain ⟨hrow, hlog, hreward, hread, hcommission⟩ := h
  simp only [persistReward, exec_bind, hlog, hrow, hreward, hread, credit_row_eq_none, log_row,
    Bool.false_eq_true, or_self, if_false, id, referredBy_credit, referredBy_log, paid, settle]
  cases hd : World.referralDelta (referredBy t.db) r with
  | none => rfl
  | some d =>
      obtain ⟨hreferrer, hpay, hearn⟩ := hcommission d hd
      simp only [hreferrer, hpay, hearn, credit_row_eq_none, log_row, Bool.false_eq_true, or_self,
        if_false]
      rfl

/-- No reward changes who is there and who is referred. -/
theorem rewardFails_congr {db db' : Db} (hrow : ∀ u, db'.users.row u = none ↔ db.users.row u = none)
    (hreferred : referredBy db' = referredBy db) (p : MinerReward × ℕ) :
    RewardFails f db' p ↔ RewardFails f db p := by
  simp only [RewardFails, hrow, hreferred]

/-! ## What the loop has paid -/

/-- What rewards that go through have changed. -/
structure Effect (t t' : Tx) (rs : List MinerReward) : Prop where
  rows : ∀ u, t'.db.users.row u = none ↔ t.db.users.row u = none
  referredBy : referredBy t'.db = referredBy t.db
  distributions : t'.db.blockDistributions = t.db.blockDistributions
  balances : ∀ u, polBalance t'.db u
    = polBalance t.db u + (rs.map (rewardCredit (BlockRewards.referredBy t.db) u)).sum
  total : totalBalance t'.db = totalBalance t.db + (rs.map (·.rewardAmount)).sum
    + ((rs.filterMap (World.referralDelta (BlockRewards.referredBy t.db))).map Prod.snd).sum
  logs : t'.db.miningRewardsLog = t.db.miningRewardsLog ++ rs.map (logRow b)
  earnings : t'.db.referralEarnings = t.db.referralEarnings ++ rs.filterMap fun r =>
    (World.referralDelta (BlockRewards.referredBy t.db) r).map (earningRow b r)
  deltas : t'.deltas
    = t.deltas ++ rs.filterMap (World.referralDelta (BlockRewards.referredBy t.db))

theorem polBalance_credit {u : UserId} {db : Db} (h : db.users.row u ≠ none) (amount : ℚ)
    (v : UserId) : polBalance (credit u amount db) v
      = polBalance db v + if v = u then amount else 0 := by
  obtain ⟨row, hrow⟩ := Option.ne_none_iff_exists'.mp h
  simp only [polBalance, credit, Table.modify_row]
  by_cases hv : v = u
  · subst hv
    simp [hrow]
  · simp [hv]

theorem totalBalance_credit {u : UserId} {db : Db} (h : db.users.row u ≠ none) (amount : ℚ) :
    totalBalance (credit u amount db) = totalBalance db + amount := by
  obtain ⟨row, hrow⟩ := Option.ne_none_iff_exists'.mp h
  rw [totalBalance, credit, Table.sum_modify hrow, totalBalance]
  ring

@[simp] theorem earn_row (r : MinerReward) (d : UserId × ℚ) (db : Db) (u : UserId) :
    (earn b r d db).users.row u = db.users.row u := rfl

@[simp] theorem referredBy_earn (r : MinerReward) (d : UserId × ℚ) (db : Db) :
    referredBy (earn b r d db) = referredBy db := rfl

@[simp] theorem polBalance_log (r : MinerReward) (db : Db) :
    polBalance (log b r db) = polBalance db := rfl

@[simp] theorem polBalance_earn (r : MinerReward) (d : UserId × ℚ) (db : Db) :
    polBalance (earn b r d db) = polBalance db := rfl

@[simp] theorem totalBalance_log (r : MinerReward) (db : Db) :
    totalBalance (log b r db) = totalBalance db := rfl

@[simp] theorem totalBalance_earn (r : MinerReward) (d : UserId × ℚ) (db : Db) :
    totalBalance (earn b r d db) = totalBalance db := rfl

theorem effect_notify {t t' : Tx} {rs : List MinerReward} (h : Effect b t t' rs) (i : ℕ)
    (r : MinerReward) : Effect b t (t'.notify f b i r) rs := by
  unfold Tx.notify
  split
  · exact ⟨h.rows, h.referredBy, h.distributions, h.balances, h.total, h.logs, h.earnings,
      h.deltas⟩
  · exact h

theorem effect_settle {t : Tx} {r : MinerReward} {i : ℕ} (h : ¬RewardFails f t.db (r, i)) :
    Effect b t (settle b t r) [r] := by
  simp only [RewardFails, not_or, not_exists, not_and] at h
  obtain ⟨hrow, -, -, -, hcommission⟩ := h
  have hlog : (log b r t.db).users.row r.userId ≠ none := hrow
  unfold settle
  split
  case h_1 hnone =>
    refine ⟨?_, ?_, rfl, ?_, ?_, ?_, ?_, ?_⟩
    · simp
    · simp
    · intro u
      simp [polBalance_credit hlog, rewardCredit, hnone]
    · simp [totalBalance_credit hlog, hnone]
    · simp [credit, log]
    · simp [credit, log, hnone]
    · simp [hnone]
  case h_2 d hd =>
    have hreferrer : (credit r.userId r.rewardAmount (log b r t.db)).users.row d.1 ≠ none := by
      simpa using (hcommission d hd).1
    refine ⟨?_, ?_, rfl, ?_, ?_, ?_, ?_, ?_⟩
    · simp
    · simp
    · intro u
      simp [polBalance_credit hreferrer, polBalance_credit hlog, rewardCredit, hd, add_assoc]
    · simp [totalBalance_credit hreferrer, totalBalance_credit hlog, hd]
    · simp [earn, credit, log]
    · simp [earn, credit, log, hd]
    · simp [hd]

theorem effect_paid {t : Tx} {p : MinerReward × ℕ} (h : ¬RewardFails f t.db p) :
    Effect b t (paid f b t p) [p.1] :=
  effect_notify f b (effect_settle f b h) p.2 p.1

theorem Effect.refl (t : Tx) : Effect b t t [] := by
  constructor <;> simp

theorem Effect.trans {t t' t'' : Tx} {rs rs' : List MinerReward} (h : Effect b t t' rs)
    (h' : Effect b t' t'' rs') : Effect b t t'' (rs ++ rs') where
  rows u := (h'.rows u).trans (h.rows u)
  referredBy := h'.referredBy.trans h.referredBy
  distributions := h'.distributions.trans h.distributions
  balances u := by
    rw [h'.balances, h.balances, h.referredBy, List.map_append, List.sum_append, add_assoc]
  total := by
    rw [h'.total, h.total, h.referredBy]
    simp only [List.map_append, List.sum_append, List.filterMap_append]
    ring
  logs := by rw [h'.logs, h.logs, List.map_append, List.append_assoc]
  earnings := by
    rw [h'.earnings, h.earnings, h.referredBy, List.filterMap_append, List.append_assoc]
  deltas := by rw [h'.deltas, h.deltas, h.referredBy, List.filterMap_append, List.append_assoc]

theorem effect_fold {ps : List (MinerReward × ℕ)} {t : Tx}
    (h : ∀ p ∈ ps, ¬RewardFails f t.db p) :
    Effect b t (ps.foldl (paid f b) t) (ps.map Prod.fst) := by
  induction ps generalizing t with
  | nil => exact Effect.refl b t
  | cons p ps ih =>
      have hone := effect_paid f b (h p List.mem_cons_self)
      refine hone.trans b (ih ?_)
      intro q hq
      rw [rewardFails_congr f hone.rows hone.referredBy]
      exact h q (List.mem_cons_of_mem p hq)

/-- The loop goes through the rewards before the first that fails. -/
theorem persistRewards_eq (ps : List (MinerReward × ℕ)) (t : Tx) :
    persistRewards f b t ps
      = if ∃ p ∈ ps, RewardFails f t.db p then
          .error ((ps.takeWhile fun p => ¬RewardFails f t.db p).foldl
            (paid f b) t).db.notifications
        else .ok (ps.foldl (paid f b) t) := by
  induction ps generalizing t with
  | nil => rfl
  | cons p ps ih =>
      obtain ⟨r, i⟩ := p
      by_cases hp : RewardFails f t.db (r, i)
      · rw [if_pos ⟨_, List.mem_cons_self, hp⟩, List.takeWhile_cons_of_neg (by simpa using hp)]
        have herror := persistReward_of_fails f b hp
        simp only at herror
        rw [persistRewards, herror]
        rfl
      · have hone := effect_paid f b hp
        have hsame : RewardFails f (paid f b t (r, i)).db = RewardFails f t.db :=
          funext fun q => propext (rewardFails_congr f hone.rows hone.referredBy q)
        have hok := persistReward_of_not_fails f b hp
        simp only at hok
        rw [persistRewards, hok, List.takeWhile_cons_of_pos (by simpa using hp)]
        simp only [Except.bind, ih, hsame, List.foldl_cons, List.mem_cons, exists_eq_or_imp, hp,
          false_or]

end Steps

/-! ## The transaction -/

section Transaction

variable (f : Failures) (b : BlockPayload)

/-- The notice that a reward gives rise to. -/
def notice (p : MinerReward × ℕ) : Option Notification :=
  if 0 < p.1.rewardAmount ∧ f.notification p.2 = false then
    some ⟨p.1.userId, b.blockNumber, p.1.rewardAmount⟩
  else none

theorem settle_notifications (t : Tx) (r : MinerReward) :
    (settle b t r).db.notifications = t.db.notifications := by
  unfold settle
  split <;> rfl

theorem paid_notifications (t : Tx) (p : MinerReward × ℕ) :
    (paid f b t p).db.notifications = t.db.notifications ++ (notice f b p).toList := by
  unfold paid Tx.notify notice
  split
  · simp [settle_notifications]
  · simp [settle_notifications]

theorem fold_notifications (ps : List (MinerReward × ℕ)) (t : Tx) :
    (ps.foldl (paid f b) t).db.notifications
      = t.db.notifications ++ ps.filterMap (notice f b) := by
  induction ps generalizing t with
  | nil => simp
  | cons p ps ih =>
      rw [List.foldl_cons, ih, paid_notifications, List.append_assoc, List.filterMap_cons]
      cases notice f b p <;> rfl

theorem noNotice_iff {s : State} :
    NoNotice f b s ↔ (attempted f b s).filterMap (notice f b) = [] := by
  rw [List.filterMap_eq_nil_iff]
  refine forall₂_congr fun p _ => ?_
  simp [notice]

/-- A transaction that fails leaves its notices. -/
theorem persist_of_not_commits {s : State} (h : ¬Commits f b s) :
    persistBlockRewards f b s = { s with
      db := { s.db with
        notifications := s.db.notifications ++ (attempted f b s).filterMap (notice f b) } } := by
  unfold persistBlockRewards
  rw [persistRewards_eq]
  by_cases hfails : ∃ p ∈ b.minerRewards.zipIdx, RewardFails f s.db p
  · rw [if_pos hfails]
    simp only [Except.bind, fold_notifications]
    rfl
  · rw [if_neg hfails]
    have hall : ∀ p ∈ b.minerRewards.zipIdx, ¬RewardFails f s.db p := by
      intro p hp hbad
      exact hfails ⟨p, hp, hbad⟩
    have hattempted : attempted f b s = b.minerRewards.zipIdx := by
      rw [attempted, List.takeWhile_eq_self_iff]
      intro p hp
      simpa using hall p hp
    have hsame := (effect_fold f b (t := ⟨s.db, []⟩) hall).distributions
    have herror : f.blockDistribution = true
        ∨ (∃ d ∈ s.db.blockDistributions, d.blockNumber = b.blockNumber) ∨ f.commit = true := by
      by_contra hnot
      simp only [not_or, not_exists, not_and, Bool.not_eq_true] at hnot
      exact h ⟨hall, hnot.1, hnot.2.1, hnot.2.2⟩
    rw [Except.bind, distribute, hsame, if_pos herror, fold_notifications, hattempted]

theorem persist_of_commits {s : State} (h : Commits f b s) :
    ∃ t, Effect b ⟨s.db, []⟩ t b.minerRewards ∧ persistBlockRewards f b s = { s with
      db := { t.db with blockDistributions := s.db.blockDistributions ++ [distributionRow b] }
      engine :=
        (t.deltas.foldl (fun w d => w.applyUserBalanceDelta d.1 d.2) s.world).engine } := by
  obtain ⟨hall, hdistribution, hnumber, hcommit⟩ := h
  have hfold := effect_fold f b (t := ⟨s.db, []⟩) hall
  have heffect : Effect b ⟨s.db, []⟩ (b.minerRewards.zipIdx.foldl (paid f b) ⟨s.db, []⟩)
      b.minerRewards := by
    simpa using hfold
  refine ⟨_, heffect, ?_⟩
  have hnone : ¬∃ p ∈ b.minerRewards.zipIdx, RewardFails f s.db p := by
    simpa using hall
  have hgood : ¬(f.blockDistribution = true
      ∨ (∃ d ∈ s.db.blockDistributions, d.blockNumber = b.blockNumber) ∨ f.commit = true) := by
    simpa [hdistribution, hcommit] using hnumber
  unfold persistBlockRewards
  rw [persistRewards_eq, if_neg hnone, Except.bind, distribute, hfold.distributions, if_neg hgood]

end Transaction


/-! ## Commissions -/

section Commissions

variable {db : Db}

/-- Who is paid a commission is the referrer in the row. -/
theorem commission_of_referralDelta (h : LinkInv db) {r : MinerReward} {d : UserId × ℚ}
    (hd : World.referralDelta (referredBy db) r = some d) :
    commission db r = some d ∧ 0 < r.rewardAmount ∧ (referredBy db r.userId).isSome := by
  unfold World.referralDelta at hd
  split at hd
  case isFalse => cases hd
  case isTrue hpos =>
    obtain ⟨referrer, hreferrer, rfl⟩ := Option.map_eq_some_iff.mp hd
    have hset := (Option.mem_filter_iff.mp hreferrer).1
    obtain ⟨user, hrow, huser⟩ := Option.bind_eq_some_iff.mp hset
    obtain ⟨i, hi⟩ := h.backed r.userId user referrer hrow huser
    have hfound : db.referral r.userId = some (i, ⟨referrer, r.userId⟩) := h.referral hi
    refine ⟨?_, hpos, Option.isSome_iff_exists.mpr ⟨_, hset⟩⟩
    simp [commission, hpos.ne', hfound]

/-- Where the records agree, so do the payments. -/
theorem commission_eq (h : LinkInv db) {r : MinerReward}
    (hknown : r.rewardAmount ≠ 0 → (db.referral r.userId).isSome →
      0 < r.rewardAmount ∧ (referredBy db r.userId).isSome) :
    commission db r = World.referralDelta (referredBy db) r := by
  cases hd : World.referralDelta (referredBy db) r with
  | some d => exact (commission_of_referralDelta h hd).1
  | none =>
      unfold commission
      split
      · rfl
      case isFalse hne =>
        cases hreferral : db.referral r.userId with
        | none => rfl
        | some found =>
            obtain ⟨hpos, hset⟩ := hknown hne (by simp [hreferral])
            obtain ⟨referrer, hreferrer⟩ := Option.isSome_iff_exists.mp hset
            obtain ⟨user, hrow, huser⟩ := Option.bind_eq_some_iff.mp hreferrer
            obtain ⟨i, hi⟩ := h.backed r.userId user referrer hrow huser
            have hne0 : referrer ≠ 0 := h.referrer i _ hi
            simp [World.referralDelta, hpos, hreferrer, hne0] at hd

theorem sum_commission (db : Db) (rs : List MinerReward) :
    ((rs.filterMap (commission db)).map Prod.snd).sum
      = ((rs.filter fun r => (db.referral r.userId).isSome).map (·.rewardAmount)).sum / 100 := by
  induction rs with
  | nil => simp
  | cons r rs ih =>
      by_cases hzero : r.rewardAmount = 0
      · have hnone : commission db r = none := if_pos hzero
        rw [List.filterMap_cons_none hnone, ih]
        cases hsome : (db.referral r.userId).isSome <;> simp [hsome, hzero]
      · cases hreferral : db.referral r.userId with
        | none =>
            have hnone : commission db r = none := by simp [commission, hzero, hreferral]
            rw [List.filterMap_cons_none hnone, ih]
            simp [hreferral]
        | some found =>
            have hsome : commission db r
                = some (found.2.referrerId, r.rewardAmount * (1 / 100)) := by
              simp [commission, hzero, hreferral]
            rw [List.filterMap_cons_some hsome, List.map_cons, List.sum_cons, ih]
            simp only [hreferral, Option.isSome_some, List.filter_cons_of_pos, List.map_cons,
              List.sum_cons]
            ring

/-- A list whose maps differ only in what one of them leaves out. -/
theorem filterMap_eq_of_le {α β : Type*} {g g' : α → Option β}
    (hle : ∀ a y, g a = some y → g' a = some y) {l : List α}
    (h : l.filterMap g = l.filterMap g') : ∀ a ∈ l, g a = g' a := by
  have hlength : ∀ l : List α, (l.filterMap g).length ≤ (l.filterMap g').length := by
    intro l
    induction l with
    | nil => simp
    | cons a l ih =>
        cases hg : g a with
        | some y => simpa [List.filterMap_cons, hg, hle a y hg] using ih
        | none =>
            cases hg' : g' a with
            | none => simpa [List.filterMap_cons, hg, hg'] using ih
            | some y =>
                simp only [List.filterMap_cons, hg, hg', List.length_cons]
                omega
  induction l with
  | nil => simp
  | cons a l ih =>
      cases hg : g a with
      | some y =>
          rw [List.filterMap_cons_some hg, List.filterMap_cons_some (hle a y hg)] at h
          simpa [hg, hle a y hg] using ih (List.cons.inj h).2
      | none =>
          cases hg' : g' a with
          | none =>
              rw [List.filterMap_cons_none hg, List.filterMap_cons_none hg'] at h
              simpa [hg, hg'] using ih h
          | some y =>
              rw [List.filterMap_cons_none hg, List.filterMap_cons_some hg'] at h
              have hshort := hlength l
              rw [h, List.length_cons] at hshort
              omega

end Commissions

/-- What the engine's miners have after the deltas. -/
theorem engine_balance (s : State) (ds : List (UserId × ℚ)) (u : UserId) :
    ((ds.foldl (fun w d => w.applyUserBalanceDelta d.1 d.2) s.world).engine.findMinerByUserId
        u).map Miner.balance
      = (s.engine.findMinerByUserId u).map fun m =>
        m.balance + if s.runtimeSet = true then deltasOf u ds else 0 := by
  have hcopies := congrArg (Option.map Copies.balance) (copies_notifications u ds s.world)
  simp only [copies, Option.map_map, Function.comp_def, Copies.notify] at hcopies
  exact hcopies


/-! ## The verdict -/

section Verdict

variable {f : Failures} {b : BlockPayload} {s : State}

/-- Each user is paid what the list of the commissions says. -/
theorem deltasOf_eq_zero {u : UserId} {ds : List (UserId × ℚ)} (h : ∀ d ∈ ds, d.1 ≠ u) :
    deltasOf u ds = 0 := by
  refine List.sum_eq_zero fun x hx => ?_
  obtain ⟨d, hd, rfl⟩ := List.mem_map.mp hx
  exact if_neg (h d hd).symm

theorem deltasOf_pos {ds : List (UserId × ℚ)} (hpos : ∀ d ∈ ds, 0 < d.2) {d : UserId × ℚ}
    (hd : d ∈ ds) : 0 < deltasOf d.1 ds := by
  have hnonneg : ∀ ds : List (UserId × ℚ), (∀ d ∈ ds, 0 < d.2) → 0 ≤ deltasOf d.1 ds := by
    intro ds hpos
    refine List.sum_nonneg fun x hx => ?_
    obtain ⟨d', hd', rfl⟩ := List.mem_map.mp hx
    split
    · exact (hpos d' hd').le
    · exact le_rfl
  induction ds with
  | nil => cases hd
  | cons d' ds ih =>
      have htail : ∀ d ∈ ds, 0 < d.2 := fun d hd => hpos d (List.mem_cons_of_mem d' hd)
      have hhead := hpos d' List.mem_cons_self
      have hsplit : deltasOf d.1 (d' :: ds) = (if d.1 = d'.1 then d'.2 else 0) + deltasOf d.1 ds :=
        rfl
      rw [hsplit]
      rcases List.mem_cons.mp hd with rfl | hmem
      · rw [if_pos rfl]
        exact add_pos_of_pos_of_nonneg hhead (hnonneg ds htail)
      · refine add_pos_of_nonneg_of_pos ?_ (ih htail hmem)
        split
        · exact hhead.le
        · exact le_rfl

/-- A committed block whose referrers are known. -/
theorem paidExactly_of_commits (hs : LinkInv s.db) (h : Commits f b s)
    (hknown : ReferrersKnown b s) (htold : EngineTold b s) :
    PaidExactly b s (persistBlockRewards f b s) := by
  obtain ⟨t, heffect, hpersist⟩ := persist_of_commits f b h
  have hsame : ∀ r ∈ b.minerRewards,
      World.referralDelta (referredBy s.db) r = commission s.db r :=
    fun r hr => (commission_eq hs (hknown r hr)).symm
  have hdeltas : b.minerRewards.filterMap (World.referralDelta (referredBy s.db))
      = b.minerRewards.filterMap (commission s.db) :=
    List.filterMap_congr hsame
  rw [hpersist]
  refine ⟨?_, ?_, heffect.logs, ?_, ?_⟩
  · intro u row hrow
    have hbalance := heffect.balances u
    rw [sum_rewardCredit, hdeltas, ← add_assoc] at hbalance
    simpa [polBalance, hrow] using hbalance
  · have htotal := heffect.total
    rw [hdeltas, sum_commission] at htotal
    exact htotal
  · have hearnings := heffect.earnings
    rw [List.filterMap_congr fun r hr => congrArg (Option.map (earningRow b r)) (hsame r hr)]
      at hearnings
    exact hearnings
  · intro u
    have hall : t.deltas = b.minerRewards.filterMap (commission s.db) := by
      rw [heffect.deltas, hdeltas]
      rfl
    rw [hall, engine_balance]
    rcases htold with hset | hunloaded
    · simp [hset]
    · cases hloaded : s.engine.findMinerByUserId u with
      | none => rfl
      | some m =>
          have hzero : deltasOf u (b.minerRewards.filterMap (commission s.db)) = 0 := by
            refine deltasOf_eq_zero ?_
            rintro c hc rfl
            obtain ⟨r, hr, hcr⟩ := List.mem_filterMap.mp hc
            rw [hunloaded r hr c hcr] at hloaded
            cases hloaded
          simp [hzero]

theorem known_of_paidExactly (hs : LinkInv s.db) (h : Commits f b s)
    (hpaid : PaidExactly b s (persistBlockRewards f b s)) :
    ReferrersKnown b s ∧ EngineTold b s := by
  obtain ⟨t, heffect, hpersist⟩ := persist_of_commits f b h
  rw [hpersist] at hpaid
  have hlogs := List.append_cancel_left (heffect.earnings.symm.trans hpaid.commissionLogs)
  have hsame : ∀ r ∈ b.minerRewards,
      World.referralDelta (referredBy s.db) r = commission s.db r := by
    intro r hr
    have hrow := filterMap_eq_of_le (g := fun r =>
      (World.referralDelta (referredBy s.db) r).map (earningRow b r)) ?_ hlogs r hr
    · cases hd : World.referralDelta (referredBy s.db) r with
      | some d => exact (commission_of_referralDelta hs hd).1.symm
      | none =>
          rw [hd] at hrow
          exact (Option.map_eq_none_iff.mp hrow.symm).symm
    · intro r y hy
      obtain ⟨d, hd, rfl⟩ := Option.map_eq_some_iff.mp hy
      rw [(commission_of_referralDelta hs hd).1]
      rfl
  have hpositive : ∀ c ∈ b.minerRewards.filterMap (commission s.db), 0 < c.2 := by
    intro c hc
    obtain ⟨r, hr, hcr⟩ := List.mem_filterMap.mp hc
    have hpos := (commission_of_referralDelta hs ((hsame r hr).trans hcr)).2.1
    obtain ⟨-, hcr⟩ := Option.ite_none_left_eq_some.mp hcr
    obtain ⟨found, -, rfl⟩ := Option.map_eq_some_iff.mp hcr
    exact mul_pos hpos (by norm_num)
  constructor
  · intro r hr hne hsome
    obtain ⟨found, hfound⟩ := Option.isSome_iff_exists.mp hsome
    have hcr : commission s.db r = some (found.2.referrerId, r.rewardAmount * (1 / 100)) := by
      simp [commission, hne, hfound]
    exact (commission_of_referralDelta hs ((hsame r hr).trans hcr)).2
  · by_contra hnot
    simp only [EngineTold, not_or, not_forall] at hnot
    obtain ⟨hset, r, hr, c, hc, hloaded⟩ := hnot
    obtain ⟨m, hm⟩ := Option.ne_none_iff_exists'.mp hloaded
    have hbalance := hpaid.engine c.1
    rw [engine_balance, hm, if_neg hset] at hbalance
    have hmore := deltasOf_pos hpositive (List.mem_filterMap.mpr ⟨r, hr, hc⟩)
    simp only [Option.map_some, Option.some.injEq] at hbalance
    linarith

end Verdict

/-! User 1 refers user 2, who mines a block of one POL. -/

def registerReferrer : List (Event Request Answer) :=
  [.start (.register "10.0.0.1" none "a"), .resume 1 .ok, .resume 1 .ok]

/-- User 2 registers with the code of user 1. -/
def registeredWithCode : List (Event Request Answer) :=
  registerReferrer ++ [.start (.register "10.0.0.2" (some "a") "b"), .resume 2 .ok, .resume 2 .ok,
    .resume 2 .ok]

/-- User 2 registers, and links the referrer. -/
def linkedLater : List (Event Request Answer) :=
  registerReferrer ++ [.start (.register "10.0.0.2" none "b"), .resume 2 .ok, .resume 2 .ok,
    .start (.linkReferral 2 "a" "10.0.0.2"), .resume 3 .ok, .resume 3 .ok, .resume 3 .ok]

def oneReward : MinerReward where
  minerId := 1
  userId := 2
  username := none
  walletAddress := none
  rigs := 1
  baseHashRate := 10
  workAccumulated := 10
  sharePercentage := 100
  rewardAmount := 1
  balanceAfter := 1
  lifetimeMined := 1

def oneBlock : BlockPayload := ⟨1, 1, 10, [oneReward], 0⟩

def noFailures : Failures where
  miningRewardsLog _ := false
  reward _ := false
  findUser _ := false
  commission _ := false
  referralEarning _ := false
  notification _ := false
  blockDistribution := false
  commit := false

def stateAfter (es : List (Event Request Answer)) : State := ⟨dbAfter es, Engine.new 0, true⟩

end BlockMiner.BlockRewards
