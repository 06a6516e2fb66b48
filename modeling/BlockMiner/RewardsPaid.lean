import BlockMiner.RewardDefinitions
import BlockMiner.Run

/-!
# Which rewards can be paid

An accepted amount may round to nothing when it is stored, and a balance may
have no room for it. Every other reward that was accepted and stored can be
paid.
-/

namespace BlockMiner.RewardDefinitions

section Statements

variable (env : Env)

inductive Accepted (body : Body) : Definition → Prop
  | level {reward : Reward JsNumber} (h : levelReward env body = .ok reward) :
      Accepted body (.level reward)
  | dailyTask {task : DailyTaskDefinition} {autoSortOrder : Bool}
      (h : parseCreateDailyTaskDefinition env body = .ok (task, autoSortOrder)) :
      Accepted body (.dailyTask task)
  | offer {offer : InternalOfferwallOffer} (h : parseAdminOfferBody env body = .ok offer) :
      Accepted body (.offer offer)

/-- The machines the reward refers to exist. -/
def References (reward : Reward Decimal20_8) : Prop :=
  (∀ id ∈ reward.minerId, (env.miner id).isSome)
    ∧ ∀ id ∈ reward.eventMinerId, (env.eventMiner id).isSome

/-- The reward is there for the user: for a daily task, it is active and completed, and has
not been claimed. -/
def Enrolled (visit : Visit) (user : User) : Row → Prop
  | .dailyTask taskType isActive _ =>
      user.isBanned = false ∧ isActive = true
        ∧ (taskType = "LOGIN_DAY" → visit.checkinEnabled = true)
        ∧ ∃ p, visit.progress = some p ∧ p.completedAt.isSome ∧ p.rewardClaimedAt = none
  | .level _ | .offer _ => True

/-- How much a user has of a kind of reward. -/
def holding (kind : String) (user : User) : ℚ :=
  if kind = REWARD_BLK then user.blkBalance.units
  else if kind = REWARD_POL then user.polBalance.units
  else if kind = REWARD_HASHRATE_TEMP then (user.powers.map (·.hashRate)).sum
  else if kind = REWARD_SHOP_MINER then user.inventory.countP (·.minerId.isSome)
  else user.inventory.countP (·.minerId.isNone)

/-- The payment goes through and, unless nothing was declared, credits some of the kind. -/
def Pays (kind : String) (user : User) (paid : Except String (User × Summary)) : Prop :=
  ∃ user' summary, paid = .ok (user', summary)
    ∧ (kind ≠ REWARD_NONE → holding kind user < holding kind user')

/-- An amount that rounds to a unit or more, and that the balance has room for. -/
def Fits (amount : ℚ) (balance : Decimal20_8) : Prop :=
  5 / 10 ^ 9 ≤ amount ∧ balance.units + roundUnits amount < 10 ^ 20

def Payable (reward : Reward JsNumber) (user : User) : Prop :=
  (∀ q, reward.blkAmount = some (.finite q) → Fits q user.blkBalance)
    ∧ ∀ q, reward.polAmount = some (.finite q) → Fits q user.polBalance

end Statements

variable {env : Env}

/-! ## What is accepted -/

/-- What each kind of an accepted reward has in its columns. -/
inductive Declared : Reward JsNumber → Prop
  | none : Declared (base REWARD_NONE)
  | shopMiner {id : ℤ} (h : 0 < id) :
      Declared { base REWARD_SHOP_MINER with minerId := some id }
  | eventMiner {id : ℤ} (h : 0 < id) :
      Declared { base REWARD_EVENT_MINER with eventMinerId := some id }
  | hashRate {hr : ℚ} {days : ℤ} (h : 0 < hr) :
      Declared { base REWARD_HASHRATE_TEMP with hashRate := some hr, hashRateDays := some days }
  | blk {amt : JsNumber} : Declared { base REWARD_BLK with blkAmount := some amt }
  | pol {amt : JsNumber} : Declared { base REWARD_POL with polAmount := some amt }

theorem positive?_pos {limit : Option ℚ} {x : JsNumber} {q : ℚ} (h : positive? limit x = some q) :
    0 < q := by
  have hq := (Option.filter_eq_some_iff.1 h).2
  simp only [Bool.and_eq_true, decide_eq_true_eq] at hq
  exact hq.1

theorem positiveInt_pos {n : Body} {id : ℤ} (h : positiveInt env n = .ok (some id)) : 0 < id := by
  obtain ⟨text, -, h⟩ := bind_eq_ok h
  simpa using (Option.filter_eq_some_iff.1 (Except.ok.inj h)).2

theorem validated_declared {input : LevelRewardInput} {r : Reward JsNumber}
    (h : validateAndNormalizeLevelRewardInput env input = .ok r) : Declared r := by
  simp only [validateAndNormalizeLevelRewardInput] at h
  generalize toUpperCase _ = kind at h
  split_ifs at h with hnone hshop hevent hrate hblk hpol
  · cases h
    exact hnone ▸ .none
  · obtain ⟨id, hid, h⟩ := bind_eq_ok h
    obtain ⟨mid, hmid, h⟩ := bind_eq_ok h
    cases h
    exact hshop ▸ .shopMiner (positiveInt_pos (valid_eq_ok.mp hmid ▸ hid))
  · obtain ⟨id, hid, h⟩ := bind_eq_ok h
    obtain ⟨eid, heid, h⟩ := bind_eq_ok h
    cases h
    exact hevent ▸ .eventMiner (positiveInt_pos (valid_eq_ok.mp heid ▸ hid))
  · obtain ⟨x, -, h⟩ := bind_eq_ok h
    obtain ⟨text, -, h⟩ := bind_eq_ok h
    obtain ⟨hr, hhr, h⟩ := bind_eq_ok h
    obtain ⟨days, -, h⟩ := bind_eq_ok h
    cases h
    exact hrate ▸ .hashRate (positive?_pos (valid_eq_ok.mp hhr))
  · obtain ⟨amt, -, h⟩ := bind_eq_ok h
    cases h
    exact hblk ▸ .blk
  · obtain ⟨amt, -, h⟩ := bind_eq_ok h
    cases h
    exact hpol ▸ .pol
  · cases h

theorem levelReward_declared {body : Body} {r : Reward JsNumber}
    (h : levelReward env body = .ok r) : Declared r := by
  obtain ⟨kind, -, h⟩ := bind_eq_ok h
  obtain ⟨-, -, h⟩ := bind_eq_ok h
  exact validated_declared h

theorem idOf_pos {value : Body} {message : String} {id : ℤ}
    (h : idOf env value message = .ok id) : 0 < id := by
  obtain ⟨text, -, h⟩ := bind_eq_ok h
  have hid := (Option.filter_eq_some_iff.1 (valid_eq_ok.mp h)).2
  simp only [decide_eq_true_eq] at hid
  omega

theorem dailyTaskReward_declared {kind : String} {b : String → Body} {r : Reward JsNumber}
    (hkind : kind ∈ ADMIN_CREATE_REWARD_KINDS) (h : dailyTaskReward env kind b = .ok r) :
    Declared r := by
  unfold dailyTaskReward at h
  split_ifs at h with hblk hpol hrate hshop hevent
  · obtain ⟨a, -, h⟩ := bind_eq_ok h
    cases h
    exact hblk ▸ .blk
  · obtain ⟨a, -, h⟩ := bind_eq_ok h
    cases h
    exact hpol ▸ .pol
  · obtain ⟨x, -, h⟩ := bind_eq_ok h
    obtain ⟨text, -, h⟩ := bind_eq_ok h
    obtain ⟨hr, hhr, h⟩ := bind_eq_ok h
    obtain ⟨days, -, h⟩ := bind_eq_ok h
    cases h
    exact hrate ▸ .hashRate (positive?_pos (valid_eq_ok.mp hhr))
  · obtain ⟨id, hid, h⟩ := bind_eq_ok h
    cases h
    exact hshop ▸ .shopMiner (idOf_pos hid)
  · obtain ⟨id, hid, h⟩ := bind_eq_ok h
    cases h
    exact hevent ▸ .eventMiner (idOf_pos hid)
  · simp [ADMIN_CREATE_REWARD_KINDS, *] at hkind

theorem parseCreateDailyTaskDefinition_declared {body : Body} {task : DailyTaskDefinition}
    {auto : Bool} (h : parseCreateDailyTaskDefinition env body = .ok (task, auto)) :
    Declared task.reward := by
  obtain ⟨-, -, h⟩ := bind_eq_ok h
  obtain ⟨-, -, h⟩ := bind_eq_ok h
  obtain ⟨-, -, h⟩ := bind_eq_ok h
  obtain ⟨target, -, h⟩ := bind_eq_ok h
  obtain ⟨targetValue, -, h⟩ := bind_eq_ok h
  obtain ⟨-, -, h⟩ := bind_eq_ok h
  obtain ⟨_, hkind, h⟩ := bind_eq_ok h
  obtain ⟨sortOrder, -, h⟩ := bind_eq_ok h
  obtain ⟨gameSlug, -, h⟩ := bind_eq_ok h
  obtain ⟨-, -, h⟩ := bind_eq_ok h
  obtain ⟨offerId, -, h⟩ := bind_eq_ok h
  obtain ⟨reward, hreward, h⟩ := bind_eq_ok h
  cases h
  exact dailyTaskReward_declared (by simpa using refuseIf_eq_ok.mp hkind) hreward

theorem offerReward_declared {kind : String} {b : String → Body} {r : Reward JsNumber}
    (hkind : kind ∈ OFFER_REWARD_KINDS)
    (h : offerReward env kind b = .ok r) : Declared r ∧ r.rewardKind = kind := by
  unfold offerReward at h
  split_ifs at h with hblk hpol
  · obtain ⟨a, -, h⟩ := bind_eq_ok h
    cases h
    exact ⟨hblk ▸ .blk, rfl⟩
  · obtain ⟨a, -, h⟩ := bind_eq_ok h
    cases h
    exact ⟨hpol ▸ .pol, rfl⟩
  · obtain ⟨x, -, h⟩ := bind_eq_ok h
    obtain ⟨days, -, h⟩ := bind_eq_ok h
    obtain ⟨hr, hhr, h⟩ := bind_eq_ok h
    cases h
    have hrate : kind = REWARD_HASHRATE_TEMP := by
      simpa [OFFER_REWARD_KINDS, hblk, hpol] using hkind
    exact ⟨hrate ▸ .hashRate (positive?_pos (valid_eq_ok.mp hhr)), rfl⟩

theorem parseAdminOfferBody_declared {body : Body} {offer : InternalOfferwallOffer}
    (h : parseAdminOfferBody env body = .ok offer) :
    Declared offer.reward ∧ offer.reward.rewardKind ∈ OFFER_REWARD_KINDS := by
  obtain ⟨-, -, h⟩ := bind_eq_ok h
  obtain ⟨kind, -, h⟩ := bind_eq_ok h
  obtain ⟨-, -, h⟩ := bind_eq_ok h
  obtain ⟨title, -, h⟩ := bind_eq_ok h
  obtain ⟨-, -, h⟩ := bind_eq_ok h
  obtain ⟨description, -, h⟩ := bind_eq_ok h
  obtain ⟨iframeUrl, -, h⟩ := bind_eq_ok h
  obtain ⟨minViewSeconds, -, h⟩ := bind_eq_ok h
  obtain ⟨dailyLimitPerUser, -, h⟩ := bind_eq_ok h
  obtain ⟨sortOrder, -, h⟩ := bind_eq_ok h
  obtain ⟨rewardKind, -, h⟩ := bind_eq_ok h
  obtain ⟨_, hkind, h⟩ := bind_eq_ok h
  obtain ⟨mode, -, h⟩ := bind_eq_ok h
  obtain ⟨reward, hreward, h⟩ := bind_eq_ok h
  obtain ⟨taskMetadata, -, h⟩ := bind_eq_ok h
  have hoffer : reward = offer.reward := congrArg (·.reward) (Except.ok.inj h)
  have hkind : toUpperCase (trim rewardKind) ∈ OFFER_REWARD_KINDS := by
    simpa using refuseIf_eq_ok.mp hkind
  obtain ⟨hdeclared, hsame⟩ := offerReward_declared hkind hreward
  exact hoffer ▸ ⟨hdeclared, hsame ▸ hkind⟩

theorem Accepted.declared {body : Body} {definition : Definition}
    (h : Accepted env body definition) : Declared definition.reward := by
  cases h with
  | level h => exact levelReward_declared h
  | dailyTask h => exact parseCreateDailyTaskDefinition_declared h
  | offer h => exact (parseAdminOfferBody_declared h).1

/-! ## What is stored -/

/-- The columns of the row of a reward. -/
structure Stored (r : Reward JsNumber) (s : Reward Decimal20_8) : Prop where
  rewardKind : s.rewardKind = r.rewardKind
  minerId : s.minerId = r.minerId
  eventMinerId : s.eventMinerId = r.eventMinerId
  hashRate : s.hashRate = r.hashRate
  blkAmount : column toDecimal20_8 r.blkAmount = some s.blkAmount
  polAmount : column toDecimal20_8 r.polAmount = some s.polAmount

theorem intColumn_eq {id id' : Option ℤ} (h : intColumn id = some id') : id' = id := by
  cases id with
  | none => exact (Option.some.inj h).symm
  | some n =>
    obtain ⟨m, hm, rfl⟩ := Option.map_eq_some_iff.1 h
    change (if fitsInt n then some n else none) = some m at hm
    split at hm
    · exact hm.symm
    · cases hm

theorem store_stored {r : Reward JsNumber} {s : Reward Decimal20_8} (h : r.store = some s) :
    Stored r s := by
  obtain ⟨minerId, hminer, h⟩ := Option.bind_eq_some_iff.1 h
  obtain ⟨eventMinerId, hevent, h⟩ := Option.bind_eq_some_iff.1 h
  obtain ⟨days, hdays, h⟩ := Option.bind_eq_some_iff.1 h
  obtain ⟨blk, hblk, h⟩ := Option.bind_eq_some_iff.1 h
  obtain ⟨pol, hpol, h⟩ := Option.bind_eq_some_iff.1 h
  obtain rfl := Option.some.inj h
  exact ⟨rfl, intColumn_eq hminer, intColumn_eq hevent, rfl, hblk, hpol⟩

theorem Definition.store_reward {definition : Definition} {row : Row}
    (h : definition.store = some row) : Stored definition.reward row.reward := by
  cases definition with
  | level reward =>
    obtain ⟨s, hs, rfl⟩ := Option.map_eq_some_iff.1 h
    exact store_stored hs
  | dailyTask task =>
    obtain ⟨-, -, h⟩ := Option.bind_eq_some_iff.1 h
    obtain ⟨s, hs, h⟩ := Option.bind_eq_some_iff.1 h
    obtain rfl := Option.some.inj h
    exact store_stored hs
  | offer o =>
    obtain ⟨s, hs, rfl⟩ := Option.map_eq_some_iff.1 h
    exact store_stored hs

theorem roundUnits_pos {q : ℚ} : 0 < roundUnits q ↔ 5 / 10 ^ 9 ≤ q := by
  unfold roundUnits
  split
  case isTrue hneg =>
    have hfloor : 0 ≤ ⌊-q * 10 ^ 8 + 1 / 2⌋ := Int.floor_nonneg.2 (by linarith)
    constructor
    · intro h
      omega
    · intro h
      linarith
  case isFalse hpos =>
    rw [← Int.add_one_le_iff, zero_add, Int.le_floor]
    push_cast
    constructor
    · intro h
      linarith
    · intro h
      linarith

/-- The amount of a row is the rounded one. -/
theorem column_units {amt : JsNumber} {stored : Option Decimal20_8}
    (h : column toDecimal20_8 (some amt) = some stored) :
    ∃ q d, amt = .finite q ∧ stored = some d ∧ d.units = roundUnits q := by
  obtain ⟨d, hd, rfl⟩ := Option.map_eq_some_iff.1 h
  obtain ⟨q, hq, hd⟩ := Option.bind_eq_some_iff.1 hd
  refine ⟨q, d, ?_, rfl, ?_⟩
  · cases amt <;> simp_all [finite?]
  · unfold ofUnits at hd
    split at hd
    · obtain rfl := Option.some.inj hd
      rfl
    · cases hd

/-! ## What is paid -/

theorem increment_of_lt {balance amt : Decimal20_8} (hpos : 0 < amt.units)
    (hroom : balance.units + amt.units < 10 ^ 20) :
    ∃ after, increment balance amt = .ok after ∧ balance.units < after.units := by
  have hbound : |balance.units + amt.units| < 10 ^ 20 := by
    have hbalance := abs_lt.1 balance.bound
    exact abs_lt.2 ⟨by linarith, hroom⟩
  refine ⟨⟨_, hbound⟩, ?_, by simpa using hpos⟩
  rw [increment, ofUnits, dif_pos hbound]
  rfl

theorem increment_of_le {balance amt : Decimal20_8}
    (hfull : 10 ^ 20 ≤ balance.units + amt.units) (after : Decimal20_8) :
    increment balance amt ≠ .ok after := by
  have hbound : ¬|balance.units + amt.units| < 10 ^ 20 := by
    intro h
    exact absurd (abs_lt.1 h).2 (not_lt.2 hfull)
  rw [increment, ofUnits, dif_neg hbound]
  intro h
  cases h

theorem owed_eq {amt : Decimal20_8} {message : String} (h : 0 < amt.units) :
    owed (some amt) message = .ok amt := by
  rw [owed, Option.filter_some, if_pos (decide_eq_true h)]
  rfl

theorem not_pays_error {kind message : String} {user : User} :
    ¬Pays kind user (.error message) := by
  rintro ⟨user', summary, h, -⟩
  cases h

/-- An amount of zero is refused, whatever the message. -/
theorem owed_error {amt : Decimal20_8} {message : String} (h : ¬0 < amt.units) :
    owed (some amt) message = .error message := by
  rw [owed, Option.filter_some, if_neg (by simpa using h)]
  rfl

theorem pays_amount (balance : User → Decimal20_8) {credit : Decimal20_8 → User} {kind : String}
    {user : User} {amt : Decimal20_8} {message : String}
    (hholding : ∀ user, holding kind user = (balance user).units)
    (hcredit : ∀ after, balance (credit after) = after) :
    Pays kind user (do
        let amt ← owed (some amt) message
        return (credit (← increment (balance user) amt), .amount kind amt))
      ↔ 0 < amt.units ∧ (balance user).units + amt.units < 10 ^ 20 := by
  constructor
  · rintro ⟨user', summary, h, -⟩
    obtain ⟨d, hd, h⟩ := bind_eq_ok h
    by_cases hpos : 0 < amt.units
    · rw [owed_eq hpos] at hd
      cases hd
      obtain ⟨after, hafter, -⟩ := bind_eq_ok h
      exact ⟨hpos, not_le.1 fun hfull => increment_of_le hfull after hafter⟩
    · rw [owed_error hpos] at hd
      cases hd
  · rintro ⟨hpos, hroom⟩
    obtain ⟨after, hafter, hmore⟩ := increment_of_lt hpos hroom
    refine ⟨credit after, .amount kind amt, ?_, fun _ => ?_⟩
    · rw [owed_eq hpos]
      simp [hafter, bind, Except.bind, pure, Except.pure]
    · rw [hholding, hholding, hcredit]
      exact_mod_cast hmore

theorem pays_blk {user : User} {amt : Decimal20_8} {message : String} :
    Pays REWARD_BLK user (do payBlk user (← owed (some amt) message))
      ↔ 0 < amt.units ∧ user.blkBalance.units + amt.units < 10 ^ 20 :=
  pays_amount (·.blkBalance) (fun _ => if_pos rfl) fun _ => rfl

theorem pays_pol {user : User} {amt : Decimal20_8} {message : String} :
    Pays REWARD_POL user (do payPol user (← owed (some amt) message))
      ↔ 0 < amt.units ∧ user.polBalance.units + amt.units < 10 ^ 20 :=
  pays_amount (·.polBalance) (fun _ => if_neg (by decide)) fun _ => rfl

theorem pays_hashRate {user : User} {game : String} {now days : ℤ} {hr : ℚ} (h : 0 < hr) :
    Pays REWARD_HASHRATE_TEMP user (.ok (payHashRate user game now hr days)) := by
  refine ⟨_, _, rfl, fun _ => ?_⟩
  simpa [holding, payHashRate, REWARD_HASHRATE_TEMP, REWARD_POL, REWARD_BLK] using h

theorem pays_shopMiner {user : User} {id now : ℤ} {minerName : String} {hashRate : ℚ}
    {slotSize : ℕ} {imageUrl : Option String} :
    Pays REWARD_SHOP_MINER user (.ok (payMachine user REWARD_SHOP_MINER (some id) minerName
      hashRate slotSize imageUrl now)) := by
  refine ⟨_, _, rfl, fun _ => ?_⟩
  simp [holding, REWARD_SHOP_MINER, REWARD_HASHRATE_TEMP, REWARD_POL, REWARD_BLK]

theorem pays_eventMiner {user : User} {now : ℤ} {minerName : String} {hashRate : ℚ}
    {slotSize : ℕ} {imageUrl : Option String} :
    Pays REWARD_EVENT_MINER user (.ok (payMachine user REWARD_EVENT_MINER none minerName
      hashRate slotSize imageUrl now)) := by
  refine ⟨_, _, rfl, fun _ => ?_⟩
  simp [holding, REWARD_EVENT_MINER, REWARD_SHOP_MINER, REWARD_HASHRATE_TEMP,
    REWARD_POL, REWARD_BLK]

theorem required_eq {α : Type} {id : ℤ} {row : ℤ → Option α} {missing notFound : String}
    (hid : 0 < id) (hrow : (row id).isSome) :
    ∃ r, required (some id) row missing notFound = .ok (id, r) := by
  obtain ⟨r, hr⟩ := Option.isSome_iff_exists.1 hrow
  refine ⟨r, ?_⟩
  have hne : id ≠ 0 := by omega
  simp [required, Option.filter, hne, hr]

theorem Fits.iff_units {q : ℚ} {d balance : Decimal20_8} (h : d.units = roundUnits q) :
    (0 < d.units ∧ balance.units + d.units < 10 ^ 20) ↔ Fits q balance := by
  rw [h, roundUnits_pos, Fits]

theorem payable_of_none {r : Reward JsNumber} {user : User} (hblk : r.blkAmount = none)
    (hpol : r.polAmount = none) : Payable r user := by
  refine ⟨fun q h => ?_, fun q h => ?_⟩
  · simp [hblk] at h
  · simp [hpol] at h

theorem payable_blk {r : Reward JsNumber} {user : User} {q : ℚ}
    (hblk : r.blkAmount = some (.finite q)) (hpol : r.polAmount = none) :
    Payable r user ↔ Fits q user.blkBalance := by
  simp [Payable, hblk, hpol]

theorem payable_pol {r : Reward JsNumber} {user : User} {q : ℚ}
    (hblk : r.blkAmount = none) (hpol : r.polAmount = some (.finite q)) :
    Payable r user ↔ Fits q user.polBalance := by
  simp [Payable, hblk, hpol]

theorem toUpperCase_kind :
    ∀ kind ∈ REWARD_KINDS, kind ≠ "" ∧ toUpperCase kind = kind := by
  decide

theorem Declared.kind_mem {r : Reward JsNumber} (h : Declared r) : r.rewardKind ∈ REWARD_KINDS := by
  cases h <;> simp [REWARD_KINDS, base]

/-- The kind of a row is read as it was accepted. -/
theorem Stored.kind {r : Reward JsNumber} {s : Reward Decimal20_8} (hs : Stored r s)
    (hr : Declared r) :
    toUpperCase (if s.rewardKind = "" then REWARD_NONE else s.rewardKind) = r.rewardKind
      ∧ toUpperCase s.rewardKind = r.rewardKind := by
  obtain ⟨hne, hupper⟩ := toUpperCase_kind r.rewardKind hr.kind_mem
  rw [hs.rewardKind, if_neg hne]
  exact ⟨hupper, hupper⟩

theorem fulfillMiniPassLevelReward_pays {r : Reward JsNumber} {s : Reward Decimal20_8}
    (hr : Declared r) (hs : Stored r s) (hrefs : References env s) (now : ℤ) (user : User) :
    Pays r.rewardKind user (fulfillMiniPassLevelReward env now user s) ↔ Payable r user := by
  unfold fulfillMiniPassLevelReward
  rw [(hs.kind hr).1]
  cases hr with
  | none =>
    exact iff_of_true ⟨user, .nothing, rfl, fun h => absurd rfl h⟩ (payable_of_none rfl rfl)
  | shopMiner hid =>
    refine iff_of_true ?_ (payable_of_none rfl rfl)
    obtain ⟨miner, hfound⟩ := required_eq hid (hrefs.1 _ hs.minerId)
    change Pays REWARD_SHOP_MINER user (Except.bind (required s.minerId env.miner _ _) _)
    rw [hs.minerId, hfound]
    exact pays_shopMiner
  | eventMiner hid =>
    refine iff_of_true ?_ (payable_of_none rfl rfl)
    obtain ⟨em, hfound⟩ := required_eq hid (hrefs.2 _ hs.eventMinerId)
    change Pays REWARD_EVENT_MINER user (Except.bind (required s.eventMinerId env.eventMiner _ _) _)
    rw [hs.eventMinerId, hfound]
    exact pays_eventMiner
  | @hashRate hr days hpos =>
    refine iff_of_true ?_ (payable_of_none rfl rfl)
    have hrate : s.hashRate.getD 0 = hr := congrArg (·.getD 0) hs.hashRate
    change Pays REWARD_HASHRATE_TEMP user (if s.hashRate.getD 0 ≤ 0 then _ else _)
    rw [hrate, if_neg (not_le.2 hpos)]
    exact pays_hashRate hpos
  | blk =>
    obtain ⟨q, d, rfl, hstored, hd⟩ := column_units hs.blkAmount
    change Pays REWARD_BLK user (do payBlk user (← owed s.blkAmount _)) ↔ _
    rw [hstored, pays_blk, Fits.iff_units hd, payable_blk rfl rfl]
  | pol =>
    obtain ⟨q, d, rfl, hstored, hd⟩ := column_units hs.polAmount
    change Pays REWARD_POL user (do payPol user (← owed s.polAmount _)) ↔ _
    rw [hstored, pays_pol, Fits.iff_units hd, payable_pol rfl rfl]

theorem grantInternalOfferwallRewardInTx_pays {r : Reward JsNumber} {s : Reward Decimal20_8}
    (hr : Declared r) (hkind : r.rewardKind ∈ OFFER_REWARD_KINDS) (hs : Stored r s) (now : ℤ)
    (user : User) :
    Pays r.rewardKind user (grantInternalOfferwallRewardInTx now user s) ↔ Payable r user := by
  unfold grantInternalOfferwallRewardInTx
  rw [(hs.kind hr).2]
  cases hr with
  | none => exact absurd hkind (by decide)
  | shopMiner hid =>
    exact absurd (show REWARD_SHOP_MINER ∈ OFFER_REWARD_KINDS from hkind) (by decide)
  | eventMiner hid =>
    exact absurd (show REWARD_EVENT_MINER ∈ OFFER_REWARD_KINDS from hkind) (by decide)
  | @hashRate hr days hpos =>
    refine iff_of_true ?_ (payable_of_none rfl rfl)
    have hrate : s.hashRate.getD 0 = hr := congrArg (·.getD 0) hs.hashRate
    change Pays REWARD_HASHRATE_TEMP user (if s.hashRate.getD 0 ≤ 0 then _ else _)
    rw [hrate, if_neg (not_le.2 hpos)]
    exact pays_hashRate hpos
  | blk =>
    obtain ⟨q, d, rfl, hstored, hd⟩ := column_units hs.blkAmount
    change Pays REWARD_BLK user (do payBlk user (← owed s.blkAmount _)) ↔ _
    rw [hstored, pays_blk, Fits.iff_units hd, payable_blk rfl rfl]
  | pol =>
    obtain ⟨q, d, rfl, hstored, hd⟩ := column_units hs.polAmount
    change Pays REWARD_POL user (do payPol user (← owed s.polAmount _)) ↔ _
    rw [hstored, pays_pol, Fits.iff_units hd, payable_pol rfl rfl]

/-- A claim that is let in pays what `fulfillMiniPassLevelReward` pays. -/
theorem claimDailyTaskReward_pays {visit : Visit} {user : User} {taskType kind : String}
    {isActive : Bool} {s : Reward Decimal20_8}
    (henrolled : Enrolled visit user (.dailyTask taskType isActive s)) :
    Pays kind user (claimDailyTaskReward env visit user taskType isActive s)
      ↔ Pays kind user (fulfillMiniPassLevelReward env visit.now user s) := by
  obtain ⟨hbanned, rfl, hcheckin, p, hp, hcompleted, hunclaimed⟩ := henrolled
  have hvisible : (taskType = "LOGIN_DAY" && !visit.checkinEnabled) = false := by
    by_cases h : taskType = "LOGIN_DAY" <;> simp [h, hcheckin]
  simp only [claimDailyTaskReward, hbanned, hvisible, hp, Option.any_some, hcompleted, hunclaimed,
    Bool.not_true, Bool.or_false, Option.isSome_none, Bool.false_eq_true, if_false]
  cases fulfillMiniPassLevelReward env visit.now user s with
  | ok paid => exact Iff.rfl
  | error message => exact iff_of_false not_pays_error not_pays_error

/-- **An accepted reward is paid** exactly if its amount rounds to a unit or more and the
balance has room for it; a reward without an amount is paid always. -/
theorem paid_iff_payable {body : Body} {definition : Definition} {row : Row} {visit : Visit}
    {user : User} (haccepted : Accepted env body definition)
    (hstored : definition.store = some row) (hrefs : References env row.reward)
    (henrolled : Enrolled visit user row) :
    Pays definition.reward.rewardKind user (pay env visit user row)
      ↔ Payable definition.reward user := by
  have hdeclared := haccepted.declared
  have hs := Definition.store_reward hstored
  cases row with
  | level s => exact fulfillMiniPassLevelReward_pays hdeclared hs hrefs visit.now user
  | dailyTask taskType isActive s =>
    exact (claimDailyTaskReward_pays henrolled).trans
      (fulfillMiniPassLevelReward_pays hdeclared hs hrefs visit.now user)
  | offer s =>
    cases haccepted with
    | level h =>
      obtain ⟨s, -, h⟩ := Option.map_eq_some_iff.1 hstored
      cases h
    | dailyTask h =>
      obtain ⟨-, -, hstored⟩ := Option.bind_eq_some_iff.1 hstored
      obtain ⟨s, -, h⟩ := Option.bind_eq_some_iff.1 hstored
      cases h
    | offer h =>
      exact grantInternalOfferwallRewardInTx_pays hdeclared (parseAdminOfferBody_declared h).2 hs
        visit.now user

/-! ## Two daily tasks -/

/-- Without numbers, offers and machines. -/
def textEnv : Env where
  numberText := fun _ => ""
  double := id
  decimal := fun _ => none
  iframeUrl := .ok
  normalizeTaskMetadata := fun _ metadata => .ok metadata
  miner := fun _ => none
  eventMiner := fun _ => none

def taskBody (amount : String) : Body :=
  some (.object [("slug", .string "mine-some"), ("taskType", .string "MINE_BLK"),
    ("targetValue", .string "10"), ("translationKey", .string "tasks.mine"),
    ("rewardKind", .string "BLK"), ("rewardBlkAmount", .string amount)])

def mineTask (amount : ℚ) : DailyTaskDefinition where
  slug := "mine-some"
  taskType := "MINE_BLK"
  targetValue := 10
  translationKey := "tasks.mine"
  reward := { base "BLK" with blkAmount := some (.finite amount) }
  gameSlug := none
  internalOfferwallOfferId := none
  sortOrder := 0
  isActive := true

def newcomer : User := ⟨false, ⟨0, by decide⟩, ⟨0, by decide⟩, [], []⟩

def mineRow (amount : Decimal20_8) : Row :=
  .dailyTask "MINE_BLK" true { base "BLK" with blkAmount := some amount }

def completedVisit : Visit := ⟨1000, true, some ⟨some 900, none⟩⟩

theorem mineRow_enrolled (amount : Decimal20_8) :
    Enrolled completedVisit newcomer (mineRow amount) :=
  ⟨rfl, rfl, by decide, ⟨some 900, none⟩, rfl, rfl, rfl⟩

theorem mineRow_references (amount : Decimal20_8) :
    References textEnv (mineRow amount).reward := by
  constructor
  · intro id h
    cases h
  · intro id h
    cases h

theorem paid_iff_payable_mineTask :
    Payable (mineTask (3 / 2)).reward newcomer
      ∧ Pays "BLK" newcomer
        (pay textEnv completedVisit newcomer (mineRow ⟨150000000, by decide⟩)) := by
  have hpayable : Payable (mineTask (3 / 2)).reward newcomer :=
    (payable_blk rfl rfl).2 (by unfold Fits; decide +kernel)
  have haccepted : parseCreateDailyTaskDefinition textEnv (taskBody "1.5")
      = .ok (mineTask (3 / 2), false) := by
    decide +kernel
  have hstored : (Definition.dailyTask (mineTask (3 / 2))).store
      = some (mineRow ⟨150000000, by decide⟩) := by
    decide +kernel
  exact ⟨hpayable, (paid_iff_payable (.dailyTask haccepted) hstored (mineRow_references _)
    (mineRow_enrolled _)).2 hpayable⟩

/-- A billionth of a BLK is accepted, stored as nothing, and not paid. -/
theorem rounded_away_unpaid :
    ∃ definition row, Accepted textEnv (taskBody "0.000000001") definition
      ∧ definition.store = some row ∧ References textEnv row.reward
      ∧ Enrolled completedVisit newcomer row
      ∧ ¬Pays definition.reward.rewardKind newcomer (pay textEnv completedVisit newcomer row) := by
  have haccepted : parseCreateDailyTaskDefinition textEnv (taskBody "0.000000001")
      = .ok (mineTask (1 / 10 ^ 9), false) := by
    decide +kernel
  have hstored : (Definition.dailyTask (mineTask (1 / 10 ^ 9))).store
      = some (mineRow ⟨0, by decide⟩) := by
    decide +kernel
  have hpaid : pay textEnv completedVisit newcomer (mineRow ⟨0, by decide⟩) = .error "error" := by
    rfl
  exact ⟨_, _, .dailyTask haccepted, hstored, mineRow_references _, mineRow_enrolled _,
    hpaid ▸ not_pays_error⟩

end BlockMiner.RewardDefinitions
