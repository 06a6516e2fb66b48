import BlockMiner.EngineDistribute

/-!
# The mining calculator of the client

`client/src/utils/calculatorEngine.js` against the engine, with exact
arithmetic: what a block pays to miners whose hash rates stay the same, and
what the calculator says of it. A block is any run of methods of the engine
after an empty round, up to the tick that is due, in which every tick finds
the same miners with the same rates (`Steady`); then the work of a miner is
its rate once for each tick (`Accumulated`), and the ticks cancel out of its
share.

Numbers are finite here. `toUSD`, which formats an amount, is left out.
-/

namespace BlockMiner

namespace Calculator

def BLOCK_REWARD_POL : ℚ := 15 / 100

def BLOCK_INTERVAL_MIN : ℚ := 10

def BLOCKS_PER_HOUR : ℚ := 60 / BLOCK_INTERVAL_MIN

def BLOCKS_PER_DAY : ℚ := BLOCKS_PER_HOUR * 24

def BLOCKS_PER_WEEK : ℚ := BLOCKS_PER_DAY * 7

def BLOCKS_PER_MONTH : ℚ := BLOCKS_PER_DAY * 30

def calcShare (myHashRate networkHashRate : ℚ) : ℚ :=
  if networkHashRate ≤ 0 then 0
  else if myHashRate ≤ 0 then 0
  else myHashRate / networkHashRate

structure Rewards where
  share : ℚ
  perBlock : ℚ
  perHour : ℚ
  perDay : ℚ
  perWeek : ℚ
  perMonth : ℚ

def calcRewards (myHashRate networkHashRate : ℚ) : Rewards :=
  let share := calcShare myHashRate networkHashRate
  let perBlock := BLOCK_REWARD_POL * share
  { share
    perBlock
    perHour := perBlock * BLOCKS_PER_HOUR
    perDay := perBlock * BLOCKS_PER_DAY
    perWeek := perBlock * BLOCKS_PER_WEEK
    perMonth := perBlock * BLOCKS_PER_MONTH }

/-- The blocks of the engine in a period. -/
def blocksIn (periodMs : ℚ) : ℚ := periodMs / blockDurationMs

def hourMs : ℚ := 60 * 60 * 1000

/-- The figures are those of a reward for each block. -/
structure Agrees (reward : ℚ) (figures : Rewards) : Prop where
  perBlock : figures.perBlock = reward
  perHour : figures.perHour = reward * blocksIn hourMs
  perDay : figures.perDay = reward * blocksIn (24 * hourMs)
  perWeek : figures.perWeek = reward * blocksIn (7 * 24 * hourMs)
  perMonth : figures.perMonth = reward * blocksIn (30 * 24 * hourMs)

/-- The calculator has the number of blocks right, whatever it has for one. -/
theorem agrees_iff (reward myHashRate networkHashRate : ℚ) :
    Agrees reward (calcRewards myHashRate networkHashRate)
      ↔ (calcRewards myHashRate networkHashRate).perBlock = reward := by
  constructor
  · exact Agrees.perBlock
  · rintro rfl
    have hminutes : ((blockDurationMs : ℕ) : ℚ) = 600000 := by norm_num [blockDurationMs]
    refine ⟨rfl, ?_, ?_, ?_, ?_⟩ <;>
      simp only [calcRewards, blocksIn, hminutes, hourMs, BLOCKS_PER_MONTH, BLOCKS_PER_WEEK,
        BLOCKS_PER_DAY, BLOCKS_PER_HOUR, BLOCK_INTERVAL_MIN] <;> ring

end Calculator

namespace Engine

open Calculator

/-! ## Steady miners -/

/-- The loaded miners with the hash rates a tick at `now` finds. -/
def ratesAt (e : Engine) (now : Nat) : List (MinerId × ℚ) :=
  e.store.miners.entries.map fun entry => (entry.1, getMinerHashRate (expireBoost now entry.2))

/-- A tick at `now` finds the miners with these rates, all in POL mode. -/
structure SteadyAt (rates : List (MinerId × ℚ)) (e : Engine) (now : Nat) : Prop where
  rates : e.ratesAt now = rates
  pol : ∀ entry ∈ e.store.miners.entries, entry.2.miningPayoutMode = .pol

instance (rates : List (MinerId × ℚ)) (e : Engine) (now : Nat) :
    Decidable (SteadyAt rates e now) :=
  decidable_of_iff (e.ratesAt now = rates
      ∧ ∀ entry ∈ e.store.miners.entries, entry.2.miningPayoutMode = .pol)
    ⟨fun h => ⟨h.1, h.2⟩, fun h => ⟨h.rates, h.pol⟩⟩

/-- Within a block: no tick is due, and all find the same. -/
def Steady (rates : List (MinerId × ℚ)) (e : Engine) : Method → Prop
  | .tick now => now < e.nextBlockAt ∧ SteadyAt rates e now
  | .distributeRewards _ => False
  | _ => True

instance (rates : List (MinerId × ℚ)) (e : Engine) :
    ∀ m, Decidable (Steady rates e m) := fun m => by
  unfold Steady
  split <;> infer_instance

/-- The network's hash rate. -/
def networkOf (rates : List (MinerId × ℚ)) : ℚ := (rates.map Prod.snd).sum

def rateOf (rates : List (MinerId × ℚ)) (id : MinerId) : ℚ := (rates.lookup id).getD 0

@[simp] theorem expireBoost_mode (now : Nat) (m : Miner) :
    (expireBoost now m).miningPayoutMode = m.miningPayoutMode := by
  unfold expireBoost
  split <;> rfl

/-- In POL mode all of the hash rate is work. -/
theorem dueWork_pol {now : Nat} {m : Miner} (h : m.miningPayoutMode = .pol) :
    dueWork now m = getMinerHashRate (expireBoost now m) := by
  unfold dueWork
  rw [expireBoost_mode, h]

theorem lookup_map_snd {α β κ : Type*} [DecidableEq κ] (f : α → β) (k : κ) (es : List (κ × α)) :
    (es.map fun entry => (entry.1, f entry.2)).lookup k = (es.lookup k).map f := by
  induction es with
  | nil => rfl
  | cons entry es ih =>
      rw [List.map_cons, OrdMap.lookup_cons_ite, OrdMap.lookup_cons_ite, ih]
      by_cases hk : k = entry.1
      · rw [if_pos hk, if_pos hk, Option.map_some]
      · rw [if_neg hk, if_neg hk]

theorem SteadyAt.due {rates : List (MinerId × ℚ)} {e : Engine} {now : Nat}
    (h : SteadyAt rates e now) (id : MinerId) :
    ((e.miner? id).map (dueWork now)).getD 0 = rateOf rates id := by
  rw [rateOf, ← h.rates, ratesAt,
    lookup_map_snd (fun m => getMinerHashRate (expireBoost now m))]
  cases hm : e.store.miners.entries.lookup id with
  | none =>
      have hmiss : e.miner? id = none := hm
      rw [hmiss]
      rfl
  | some m =>
      have hload : e.miner? id = some m := hm
      have hpol := h.pol (id, m) (OrdMap.mem_entries.mpr hm)
      rw [hload, Option.map_some, Option.map_some, dueWork_pol hpol]

theorem SteadyAt.dueAll {rates : List (MinerId × ℚ)} {e : Engine} {now : Nat}
    (h : SteadyAt rates e now) :
    (e.store.miners.entries.map fun entry => dueWork now entry.2).sum = networkOf rates := by
  rw [networkOf, ← h.rates, ratesAt, List.map_map]
  refine congrArg List.sum (List.map_congr_left fun entry hentry => ?_)
  exact dueWork_pol (h.pol entry hentry)

theorem SteadyAt.loaded {rates : List (MinerId × ℚ)} {e : Engine} {now : Nat}
    (h : SteadyAt rates e now) {id : MinerId} (hid : id ∈ rates.map Prod.fst) :
    (e.miner? id).isSome := by
  rw [← h.rates, ratesAt, List.map_map] at hid
  obtain ⟨entry, hentry, rfl⟩ := List.mem_map.mp hid
  have hget : e.miner? entry.1 = some entry.2 := OrdMap.mem_entries.mp hentry
  show (e.miner? entry.1).isSome
  rw [hget]
  rfl

/-! ## Within a block -/

/-- The miners stay loaded and the round as it was, but for the entry of a
miner that joins. -/
structure Leaves (e e' : Engine) : Prop where
  loaded : ∀ id, (e.miner? id).isSome → (e'.miner? id).isSome
  round : e'.roundWork = e.roundWork
    ∨ ∃ id, e.miner? id = none ∧ e'.roundWork = e.roundWork.set id 0

theorem Leaves.refl (e : Engine) : Leaves e e := ⟨fun _ h => h, Or.inl rfl⟩

theorem leaves_modifyMiner (e : Engine) (id : MinerId) (f : Miner → Miner) :
    Leaves e (e.modifyMiner id f) where
  round := Or.inl rfl
  loaded x hx := by
    rw [miner?_modifyMiner]
    split
    · rw [Option.isSome_map]
      exact hx
    · exact hx

theorem leaves_rollback (payload : BlockPayload) (entries : List (MinerId × Snapshot))
    (e : Engine) : Leaves e (entries.foldl (rollbackMiner payload) e) := by
  induction entries generalizing e with
  | nil => exact .refl e
  | cons entry entries ih =>
      have hone : Leaves e (rollbackMiner payload e entry)
          ∧ (rollbackMiner payload e entry).roundWork = e.roundWork := by
        obtain ⟨minerId, snapshot⟩ := entry
        simp only [rollbackMiner]
        split
        · have hmod := leaves_modifyMiner e minerId (restoredTo snapshot)
          exact ⟨⟨hmod.loaded, hmod.round⟩, rfl⟩
        · exact ⟨.refl e, rfl⟩
      obtain ⟨hloaded, hround⟩ := ih (rollbackMiner payload e entry)
      rw [List.foldl_cons]
      refine ⟨fun id hid => hloaded id (hone.1.loaded id hid), ?_⟩
      rw [hone.2] at hround
      rcases hround with hsame | ⟨id, hmiss, hset⟩
      · exact Or.inl hsame
      · refine Or.inr ⟨id, ?_, hset⟩
        refine Option.not_isSome_iff_eq_none.mp fun hsome => ?_
        have hstill := hone.1.loaded id hsome
        rw [hmiss] at hstill
        cases hstill

theorem leaves_join {e e' : Engine} {uuid : MinerId} {req : JoinRequest}
    (h : e.createOrGetMiner uuid req = some e') : Leaves e e' := by
  unfold createOrGetMiner at h
  split at h
  case h_1 existing _ =>
    obtain rfl := Option.some.inj h
    exact leaves_modifyMiner ..
  case h_2 =>
    split at h
    case isTrue hfree =>
      obtain rfl := Option.some.inj h
      refine ⟨fun id hid => ?_, Or.inr ⟨uuid, hfree.1, rfl⟩⟩
      show ((e.store.miners.set uuid _).get? id).isSome
      rw [OrdMap.get?_set]
      split
      · rfl
      · exact hid
    case isFalse => cases h

/-- What is neither a tick nor a distribution. -/
theorem callMethod_leaves {e e' : Engine} {m : Method} (h : callMethod e m = some e')
    (htick : ∀ now, m ≠ .tick now) (hdistribute : ∀ now, m ≠ .distributeRewards now) :
    Leaves e e' := by
  cases m with
  | createOrGetMiner uuid req => exact leaves_join h
  | reloadMinerProfile userId profile =>
      obtain rfl := Option.some.inj h
      rcases reloadMinerProfile_cases e userId profile with heq | ⟨p, m, -, -, heq⟩
      · rw [heq]
        exact .refl e
      · rw [heq]
        exact leaves_modifyMiner ..
  | setConnected | setActive | setWallet | markPersisted =>
      obtain rfl := Option.some.inj h
      exact leaves_modifyMiner ..
  | applyBoost minerId now =>
      obtain rfl := Option.some.inj h
      rcases applyBoost_cases e minerId now with ⟨heq, -⟩ | ⟨m, -, heq, -⟩
      · rw [heq]
        exact .refl e
      · rw [heq]
        exact leaves_modifyMiner ..
  | upgradeRig minerId =>
      obtain rfl := Option.some.inj h
      rcases upgradeRig_cases e minerId with ⟨heq, -⟩ | ⟨m, -, heq, -⟩
      · rw [heq]
        exact .refl e
      · rw [heq]
        exact leaves_modifyMiner ..
  | applyUserBalanceDelta runtimeSet userId delta =>
      obtain rfl := Option.some.inj h
      rcases applyUserBalanceDelta_cases runtimeSet e userId delta with
        ⟨heq, -⟩ | ⟨m, -, -, -, heq⟩
      · rw [heq]
        exact .refl e
      · rw [heq]
        exact leaves_modifyMiner ..
  | distributeRewards now => exact absurd rfl (hdistribute now)
  | tick now => exact absurd rfl (htick now)
  | rollbackBlock pending =>
      obtain rfl := Option.some.inj h
      exact leaves_rollback ..

/-- The round after `n` ticks of a block. -/
structure Accumulated (rates : List (MinerId × ℚ)) (n : ℕ) (e : Engine) : Prop where
  work : ∀ id, e.workOf id = n * rateOf rates id
  total : e.totalWork = n * networkOf rates
  loaded : n ≠ 0 → ∀ id ∈ rates.map Prod.fst, (e.miner? id).isSome

theorem rateOf_of_not_mem {rates : List (MinerId × ℚ)} {id : MinerId}
    (h : id ∉ rates.map Prod.fst) : rateOf rates id = 0 := by
  rw [rateOf, OrdMap.lookup_of_not_mem h]
  rfl

theorem Accumulated.leaves {rates : List (MinerId × ℚ)} {n : ℕ} {e e' : Engine}
    (h : Accumulated rates n e) (hleaves : Leaves e e') : Accumulated rates n e' := by
  have hloaded : n ≠ 0 → ∀ id ∈ rates.map Prod.fst, (e'.miner? id).isSome :=
    fun hn id hid => hleaves.loaded id (h.loaded hn id hid)
  rcases hleaves.round with hsame | ⟨id, hmiss, hset⟩
  · refine ⟨?_, ?_, hloaded⟩
    · unfold workOf
      rw [hsame]
      exact h.work
    · unfold totalWork
      rw [hsame]
      exact h.total
  · -- who joins has done no work, for it was not there at an earlier tick
    have hzero : (n : ℚ) * rateOf rates id = 0 := by
      by_cases hn : n = 0
      · rw [hn, Nat.cast_zero, zero_mul]
      · have hnot : id ∉ rates.map Prod.fst := by
          intro hid
          have hsome := h.loaded hn id hid
          rw [hmiss] at hsome
          cases hsome
        rw [rateOf_of_not_mem hnot, mul_zero]
    refine ⟨fun x => ?_, ?_, hloaded⟩
    · rw [workOf, hset, OrdMap.get?_set]
      by_cases hx : x = id
      · rw [if_pos hx, hx, hzero]
        rfl
      · rw [if_neg hx]
        exact h.work x
    · have hwork : (e.roundWork.get? id).getD 0 = 0 := (h.work id).trans hzero
      rw [totalWork, hset, OrdMap.sum_set, hwork, sub_zero, add_zero]
      exact h.total

/-- One more tick. -/
theorem Accumulated.accumulate {rates : List (MinerId × ℚ)} {n : ℕ} {e : Engine} {now : Nat}
    (h : Accumulated rates n e) (hsteady : SteadyAt rates e now) :
    Accumulated rates (n + 1) (e.accumulateWork now) where
  work id := by
    rw [accumulateWork_workOf, h.work, hsteady.due]
    push_cast
    ring
  total := by
    rw [accumulateWork_totalWork, h.total, hsteady.dueAll]
    push_cast
    ring
  loaded _ id hid := by
    rw [miner?_isSome_of_rows (accumulateWork_paid e now)]
    exact hsteady.loaded hid

theorem Accumulated.tick {rates : List (MinerId × ℚ)} {n : ℕ} {e : Engine} {now : Nat}
    (h : Accumulated rates n e) (hsteady : SteadyAt rates e now) (hdue : now < e.nextBlockAt) :
    Accumulated rates (n + 1) (e.tick now).1 := by
  have hacc := h.accumulate hsteady
  have hnot : ¬ (e.accumulateWork now).nextBlockAt ≤ now := by
    rw [accumulateWork_nextBlockAt]
    omega
  unfold Engine.tick
  simp only [if_neg hnot]
  exact ⟨hacc.work, hacc.total, hacc.loaded⟩

/-- **Run lemma.** By induction on the methods: in a block, the round has the
rate of each miner once for each tick. -/
theorem accumulated_run {rates : List (MinerId × ℚ)} {calls : List Method} {e e' : Engine}
    {n : ℕ} (h : Accumulated rates n e) (hsteady : methods.Meets (Steady rates) e calls)
    (hrun : methods.run e calls = some e') : ∃ n', Accumulated rates n' e' := by
  refine methods.run_invariant (I := fun e => ∃ n, Accumulated rates n e) ?_ ⟨n, h⟩ hsteady hrun
  rintro e m e' ⟨n, h⟩ hC hstep
  have hcall : callMethod e m = some e' := hstep
  cases m with
  | tick now =>
      obtain rfl := Option.some.inj hstep
      exact ⟨n + 1, h.tick hC.2 hC.1⟩
  | distributeRewards now => exact absurd hC id
  | _ =>
      refine ⟨n, h.leaves (callMethod_leaves hcall ?_ ?_)⟩
      · intro now hm
        cases hm
      · intro now hm
        cases hm

/-! ## The end of the block -/

/-- What a distribution pays to a miner, for its part of the work. -/
theorem distributeRewards_paidTo {e : Engine} (now : Nat) (hwork : 0 < e.totalWork)
    (id : MinerId) :
    paidTo (rewardsOf (e.distributeRewards now).2) id
      = if e.payable (id, e.workOf id) = true then rewardBase * (e.workOf id / e.totalWork)
        else 0 := by
  have hbase : (0 : ℚ) < rewardBase := by norm_num [rewardBase]
  obtain ⟨-, hlist⟩ := payLoop_paid hbase hwork e.roundWork.entries ⟨e, [], .empty, .empty⟩
    (Paid.refl e)
  have hrewards : rewardsOf (e.distributeRewards now).2
      = (e.roundWork.entries.foldl (payMiner rewardBase e.totalWork)
          ⟨e, [], .empty, .empty⟩).minerRewards := by
    unfold distributeRewards
    simp only [if_neg (not_le.mpr hwork)]
    split
    case isTrue hnil => exact hnil.symm
    case isFalse => rfl
  rw [hrewards, paidTo_eq_sumAt, hlist, List.map_nil, List.nil_append,
    sumAt_payable _ _ _ _ _ e.roundWork.nodup]
  rfl

theorem payLoop_network (reward work : ℚ) (entries : List (MinerId × ℚ)) (acc : PayAcc) :
    (entries.foldl (payMiner reward work) acc).engine.currentNetworkHashRate
      = acc.engine.currentNetworkHashRate := by
  induction entries generalizing acc with
  | nil => rfl
  | cons entry entries ih =>
      rw [List.foldl_cons, ih]
      rcases payMiner_cases reward work acc entry with heq | ⟨m, -, heq⟩
      · rw [heq]
        rfl
      · rw [heq]
        rfl

theorem distributeRewards_network (e : Engine) (now : Nat) :
    (e.distributeRewards now).1.currentNetworkHashRate = e.currentNetworkHashRate := by
  unfold distributeRewards
  by_cases hwork : e.totalWork ≤ 0
  · simp only [if_pos hwork, clearLoop_eq]
    rfl
  · simp only [if_neg hwork]
    exact payLoop_network rewardBase e.totalWork e.roundWork.entries ⟨e, [], .empty, .empty⟩

theorem accumulateLoop_total (now : Nat) (entries : List (MinerId × Miner)) (acc : TickAcc) :
    (entries.foldl (accumulateMiner now) acc).totalHashRate
      = acc.totalHashRate
        + (entries.map fun entry => getMinerHashRate (expireBoost now entry.2)).sum := by
  induction entries generalizing acc with
  | nil => exact (add_zero _).symm
  | cons entry entries ih =>
      rw [List.foldl_cons, ih, List.map_cons, List.sum_cons, ← add_assoc]
      rfl

/-- The hash rate of the network that a tick publishes. -/
theorem tick_network {rates : List (MinerId × ℚ)} {e : Engine} {now : Nat}
    (hsteady : SteadyAt rates e now) :
    (e.tick now).1.currentNetworkHashRate = networkOf rates := by
  have hacc : (e.accumulateWork now).currentNetworkHashRate = networkOf rates := by
    rw [networkOf, ← hsteady.rates, ratesAt, List.map_map]
    exact (accumulateLoop_total now e.store.miners.entries ⟨e, 0, 0⟩).trans (zero_add _)
  unfold Engine.tick
  by_cases hdue : (e.accumulateWork now).nextBlockAt ≤ now
  · simp only [if_pos hdue]
    exact (distributeRewards_network ..).trans hacc
  · simp only [if_neg hdue]
    exact hacc

/-- What a tick gives a miner. -/
def rewardOf (e : Engine) (now : Nat) (id : MinerId) : ℚ := paidTo (rewardsOf (e.tick now).2) id

/-- The share of the work is that of the hash rate. -/
theorem Accumulated.rewardOf {rates : List (MinerId × ℚ)} {n : ℕ} {e : Engine} {now : Nat}
    (h : Accumulated rates n e) (hsteady : SteadyAt rates e now) (hdue : e.nextBlockAt ≤ now)
    (hpositive : 0 < networkOf rates) {id : MinerId} (hid : id ∈ rates.map Prod.fst) :
    e.rewardOf now id = rewardBase * calcShare (rateOf rates id) (networkOf rates) := by
  have hacc := h.accumulate hsteady
  have hticks : (0 : ℚ) < ((n + 1 : ℕ) : ℚ) := by positivity
  have hwork : 0 < (e.accumulateWork now).totalWork := by
    rw [hacc.total]
    exact mul_pos hticks hpositive
  have hdue' : (e.accumulateWork now).nextBlockAt ≤ now := by
    rw [accumulateWork_nextBlockAt]
    exact hdue
  have hpays : e.rewardOf now id
      = paidTo (rewardsOf ((e.accumulateWork now).distributeRewards now).2) id := by
    unfold Engine.rewardOf Engine.tick
    simp only [if_pos hdue']
  have hloaded := hacc.loaded (Nat.succ_ne_zero n) id hid
  rw [hpays, distributeRewards_paidTo now hwork, hacc.work, hacc.total]
  unfold payable calcShare
  rw [hloaded, Bool.true_and, if_neg (not_le.mpr hpositive)]
  by_cases hrate : rateOf rates id ≤ 0
  · have hnot : ¬ 0 < ((n + 1 : ℕ) : ℚ) * rateOf rates id :=
      not_lt.mpr (mul_nonpos_of_nonneg_of_nonpos hticks.le hrate)
    rw [if_pos hrate, decide_eq_false hnot, if_neg (by simp), mul_zero]
  · have hrate' : 0 < ((n + 1 : ℕ) : ℚ) * rateOf rates id := mul_pos hticks (not_le.mp hrate)
    rw [if_neg hrate, decide_eq_true hrate', if_pos rfl,
      mul_div_mul_left _ _ (ne_of_gt hticks)]

/-- Where the network's rate is positive, so is that of a miner. -/
theorem exists_positive_rate {rates : List (MinerId × ℚ)} (h : 0 < networkOf rates) :
    ∃ entry ∈ rates, 0 < entry.2 := by
  refine List.exists_lt_of_sum_lt (fun _ => 0) Prod.snd ?_
  rw [List.map_const', List.sum_replicate, nsmul_zero]
  exact h

/-- **The calculator never agrees with the engine.** A block pays every miner
twice what the calculator says of its hash rate and the published one of the
network, so that for no set of miners the figures are right for all. -/
theorem calculator_disagrees {rates : List (MinerId × ℚ)} {calls : List Method} {e e' : Engine}
    {now : Nat} (hempty : ∀ entry ∈ e.roundWork.entries, entry.2 = 0)
    (hsteady : methods.Meets (Steady rates) e calls) (hrun : methods.run e calls = some e')
    (hlast : SteadyAt rates e' now) (hdue : e'.nextBlockAt ≤ now)
    (hpositive : 0 < networkOf rates) :
    (∀ id ∈ rates.map Prod.fst, e'.rewardOf now id
      = 2 * (calcRewards (rateOf rates id)
          (e'.tick now).1.currentNetworkHashRate).perBlock)
    ∧ ¬ ∀ id ∈ rates.map Prod.fst, Agrees (e'.rewardOf now id)
        (calcRewards (rateOf rates id) (e'.tick now).1.currentNetworkHashRate) := by
  have hopen : Accumulated rates 0 e := by
    refine ⟨fun id => ?_, ?_, fun h => absurd rfl h⟩
    · rw [workOf, Nat.cast_zero, zero_mul]
      cases hget : e.roundWork.get? id with
      | none => rfl
      | some work => exact hempty (id, work) (OrdMap.mem_entries.mpr hget)
    · rw [totalWork, Nat.cast_zero, zero_mul]
      refine List.sum_eq_zero fun work hwork => ?_
      obtain ⟨entry, hentry, rfl⟩ := List.mem_map.mp hwork
      exact hempty entry hentry
  obtain ⟨n, hacc⟩ := accumulated_run hopen hsteady hrun
  have hdouble : ∀ id ∈ rates.map Prod.fst, e'.rewardOf now id
      = 2 * (calcRewards (rateOf rates id) (e'.tick now).1.currentNetworkHashRate).perBlock := by
    intro id hid
    rw [hacc.rewardOf hlast hdue hpositive hid, tick_network hlast]
    simp only [calcRewards, rewardBase, BLOCK_REWARD_POL]
    ring
  refine ⟨hdouble, fun hagrees => ?_⟩
  obtain ⟨entry, hentry, hrate⟩ := exists_positive_rate hpositive
  have hid : entry.1 ∈ rates.map Prod.fst := List.mem_map_of_mem hentry
  have hsame := (agrees_iff ..).mp (hagrees entry.1 hid)
  have hnodup : (rates.map Prod.fst).Nodup := by
    rw [← hlast.rates, ratesAt, List.map_map]
    exact e'.store.miners.nodup
  have hrateOf : rateOf rates entry.1 = entry.2 := by
    rw [rateOf, (OrdMap.lookup_eq_some_iff_mem hnodup).mpr hentry]
    rfl
  have hshare : 0 < calcShare (rateOf rates entry.1) (networkOf rates) := by
    unfold calcShare
    rw [hrateOf, if_neg (not_le.mpr hpositive), if_neg (not_le.mpr hrate)]
    exact div_pos hrate hpositive
  rw [hdouble entry.1 hid, tick_network hlast] at hsame
  simp only [calcRewards, BLOCK_REWARD_POL] at hsame
  linarith

/-- Two miners join, and two ticks pass. -/
def twoMiners : List Method :=
  [.createOrGetMiner 1 ⟨101, some "alpha", none, some { baseHashRate := some 10 }⟩,
    .createOrGetMiner 2 ⟨202, some "beta", none, some { baseHashRate := some 20 }⟩,
    .tick 1000, .tick 2000]

theorem calculator_disagrees_twoMiners :
    ∃ e, methods.run (new 0) twoMiners = some e
      ∧ (∀ id ∈ [1, 2], e.rewardOf 600000 id
        = 2 * (calcRewards (rateOf [(1, 10), (2, 20)] id)
            (e.tick 600000).1.currentNetworkHashRate).perBlock)
      ∧ ¬ ∀ id ∈ [1, 2], Agrees (e.rewardOf 600000 id)
        (calcRewards (rateOf [(1, 10), (2, 20)] id)
          (e.tick 600000).1.currentNetworkHashRate) := by
  have hrun : (methods.run (new 0) twoMiners).isSome := by decide +kernel
  have hempty : ∀ entry ∈ (new 0).roundWork.entries, entry.2 = 0 := List.forall_mem_nil _
  have hsteady : methods.Meets (Steady [(1, 10), (2, 20)]) (new 0) twoMiners := by
    decide +kernel
  have hlast : SteadyAt [(1, 10), (2, 20)] ((methods.run (new 0) twoMiners).get hrun) 600000 := by
    decide +kernel +revert
  have hdue : ((methods.run (new 0) twoMiners).get hrun).nextBlockAt ≤ 600000 := by
    decide +kernel +revert
  exact ⟨_, (Option.some_get hrun).symm, calculator_disagrees hempty hsteady
    (Option.some_get hrun).symm hlast hdue (by decide +kernel)⟩

/-- A third of the network's hash rate brings 0.1 POL; the calculator says
0.05. -/
theorem calculator_halves :
    ∃ e, methods.run (new 0) twoMiners = some e
      ∧ SteadyAt [(1, 10), (2, 20)] e 600000 ∧ e.nextBlockAt = 600000
      ∧ e.rewardOf 600000 1 = 1 / 10
      ∧ (e.tick 600000).1.currentNetworkHashRate = 30
      ∧ (calcRewards 10 30).perBlock = 1 / 20
      ∧ ¬ Agrees (e.rewardOf 600000 1)
        (calcRewards 10 (e.tick 600000).1.currentNetworkHashRate) := by
  have hrun : (methods.run (new 0) twoMiners).isSome := by decide +kernel
  have hreward : ((methods.run (new 0) twoMiners).get hrun).rewardOf 600000 1 = 1 / 10 := by
    decide +kernel +revert
  have hnetwork : (((methods.run (new 0) twoMiners).get hrun).tick
      600000).1.currentNetworkHashRate = 30 := by decide +kernel +revert
  have hsteady : SteadyAt [(1, 10), (2, 20)] ((methods.run (new 0) twoMiners).get hrun) 600000 := by
    decide +kernel +revert
  have hnext : ((methods.run (new 0) twoMiners).get hrun).nextBlockAt = 600000 := by
    decide +kernel +revert
  have hfigure : (calcRewards 10 30).perBlock = 1 / 20 := by decide +kernel
  refine ⟨_, (Option.some_get hrun).symm, hsteady, hnext, hreward, hnetwork, hfigure, fun h => ?_⟩
  have hsame := h.perBlock
  rw [hreward, hnetwork, hfigure] at hsame
  exact absurd hsame (by decide +kernel)

end Engine

end BlockMiner
