import BlockMiner.Json
import BlockMiner.LevelRewards
import BlockMiner.Missions
import BlockMiner.Transactions

/-!
# Daily tasks, statement by statement

`services/dailyTasks`: `bumpDailyTasksForUser`, with one transaction for each
definition that the signal is for, and `claimDailyTaskReward`. The upsert of a
progress row is one statement, which inserts the row or increments it.

The definitions are fixed, with positive targets; the clock, and whether the
check-in page is in the sidebar, are read before the first transaction.
Amounts are exact: the deltas of all callers have at most the eight decimals
of the column. A unique violation leaves a transaction that can only be rolled
back; the bump goes on with the next definition.

Only the first two fields of a tick are columns: the others record what the
bump that wrote it adds. `granted` records for which rows of progress the
reward was delivered. The audit log is left out.
-/

namespace BlockMiner.DailyTasks

open LevelRewards
open Missions (TaskType TaskDefinition TaskProgress isActiveDefinition slugMatches)

/-! ## Definitions -/

structure DailyTaskDefinition extends TaskDefinition where
  rewardKind : RewardKind
  rewardMinerId : Option ℕ
  rewardEventMinerId : Option ℕ
  rewardHashRate : Option ℚ
  rewardHashRateDays : Option ℤ
  rewardBlkAmount : Option ℚ
  rewardPolAmount : Option ℚ
  targetValue_pos : 0 < targetValue

structure Config where
  definitions : List DailyTaskDefinition
  catalog : Catalog
  getDailyTaskPeriodKey : ℤ → String
  definitions_nodup : (definitions.map fun d => d.id).Nodup

def rewardPayloadFromDefinition (definition : DailyTaskDefinition) : Reward where
  rewardKind := definition.rewardKind
  minerId := definition.rewardMinerId
  eventMinerId := definition.rewardEventMinerId
  hashRate := definition.rewardHashRate
  hashRateDays := definition.rewardHashRateDays
  blkAmount := definition.rewardBlkAmount
  polAmount := definition.rewardPolAmount

/-! ## Tables -/

/-- The unique key of a row of progress. -/
structure ProgressKey where
  userId : ℕ
  taskDefinitionId : ℕ
  periodKey : String
deriving DecidableEq

structure Tick where
  taskDefinitionId : ℕ
  dedupeKey : String
  progressKey : ProgressKey
  delta : ℚ
deriving DecidableEq

structure Db where
  holdings : Holdings
  ticks : List Tick
  progress : ProgressKey → Option TaskProgress
  granted : List ProgressKey

/-! ## Requests -/

structure Bump where
  userId : ℕ
  taskType : TaskType
  dedupeKey : String
  delta : JsNumber
  gameSlug : Option String
  internalOfferwallOfferId : Option ℕ

/-- The delta of a bump with valid input. -/
def Bump.amount (bump : Bump) : Option {q : ℚ // 0 < q} :=
  match bump.delta with
  | .finite q =>
      if h : bump.userId ≠ 0 ∧ bump.dedupeKey ≠ "" ∧ 0 < q then some ⟨q, h.2.2⟩ else none
  | .infinite _ | .nan => none

/-- A claim, with what the sidebar shows. -/
structure Claim where
  userId : ℕ
  taskDefinitionId : ℕ
  checkinEnabled : Bool

inductive Request where
  | bumpDailyTasksForUser (bump : Bump)
  | claimDailyTaskReward (claim : Claim)

inductive Answer where
  | ok (now : ℤ)
  | error
deriving DecidableEq

/-! ## Writes -/

inductive Write where
  | createTick (tick : Tick)
  | upsertProgress (key : ProgressKey) (delta : ℚ)
  | completeProgress (key : ProgressKey) (now : ℤ)
  | claimProgress (key : ProgressKey) (now : ℤ)
  | deliver (key : ProgressKey) (delivery : Delivery)

inductive Lock where
  | tick (taskDefinitionId : ℕ) (dedupeKey : String)
  | progress (key : ProgressKey)
  | user (u : ℕ)
deriving DecidableEq

/-- A row after the upsert. -/
def bumped (delta : ℚ) : Option TaskProgress → TaskProgress
  | none => ⟨delta, none, none⟩
  | some row => { row with currentValue := row.currentValue + delta }

def setProgress (db : Db) (key : ProgressKey) (row : Option TaskProgress) : Db :=
  { db with progress := Function.update db.progress key row }

def apply (db : Db) : Write → Db
  | .createTick tick => { db with ticks := tick :: db.ticks }
  | .upsertProgress key delta => setProgress db key (some (bumped delta (db.progress key)))
  | .completeProgress key now =>
      setProgress db key ((db.progress key).map fun row => { row with completedAt := some now })
  | .claimProgress key now =>
      setProgress db key ((db.progress key).map fun row => { row with rewardClaimedAt := some now })
  | .deliver key delivery =>
      { db with
        holdings := db.holdings.deliver key.userId delivery
        granted := key :: db.granted }

def locks : Write → List Lock
  | .createTick tick => [.tick tick.taskDefinitionId tick.dedupeKey]
  | .upsertProgress key _ | .completeProgress key _ | .claimProgress key _ => [.progress key]
  | .deliver key delivery => if delivery.paysBalance then [.user key.userId] else []

/-! ## Points -/

/-- A bump at one definition, with those that come after it. -/
structure Bumping where
  userId : ℕ
  dedupeKey : String
  delta : {q : ℚ // 0 < q}
  periodKey : String
  now : ℤ
  definition : DailyTaskDefinition
  rest : List DailyTaskDefinition

namespace Bumping

def key (b : Bumping) : ProgressKey := ⟨b.userId, b.definition.id, b.periodKey⟩

def tick (b : Bumping) : Tick := ⟨b.definition.id, b.dedupeKey, b.key, b.delta⟩

end Bumping

/-- A claim in its transaction. -/
structure Claiming where
  claim : Claim
  periodKey : String
  definition : DailyTaskDefinition

def Claiming.key (c : Claiming) : ProgressKey :=
  ⟨c.claim.userId, c.claim.taskDefinitionId, c.periodKey⟩

inductive Point where
  | findDefinitions (bump : Bump) (delta : {q : ℚ // 0 < q})
  | tryConsumeDedupe (b : Bumping)
  | upsertProgress (b : Bumping)
  | readBumped (b : Bumping)
  | completeProgress (b : Bumping)
  | commitBump (b : Bumping)
  | getPeriodKey (claim : Claim)
  | findClaimant (claim : Claim) (periodKey : String)
  | readProgress (c : Claiming)
  | claimProgress (c : Claiming)
  | fulfill (c : Claiming)
  | commitClaim (c : Claiming)

def start : Request → Option Point
  | .bumpDailyTasksForUser bump => bump.amount.map (.findDefinitions bump)
  | .claimDailyTaskReward claim => some (.getPeriodKey claim)

/-- The next definitions of a bump. -/
def Bumping.next (b : Bumping) : Option Point :=
  match b.rest with
  | [] => none
  | definition :: rest => some (.tryConsumeDedupe { b with definition, rest })

variable (config : Config)

/-- The definitions a bump is for. -/
def definitionsFor (bump : Bump) (now : ℤ) : List DailyTaskDefinition :=
  config.definitions.filter fun d =>
    isActiveDefinition bump.taskType now d.toTaskDefinition
      && (bump.taskType ≠ .INTERNAL_OFFERWALL || d.internalOfferwallOfferId.all fun offerId =>
        bump.internalOfferwallOfferId = some offerId)
      && slugMatches d.gameSlug bump.gameSlug

/-- The definition of a claim. -/
def findDefinition (claim : Claim) : Option DailyTaskDefinition :=
  (config.definitions.find? fun d => d.id = claim.taskDefinitionId && d.isActive).filter fun d =>
    d.taskType ≠ .LOGIN_DAY || claim.checkinEnabled

def allowedUser (db : Db) (u : ℕ) : Option User :=
  (db.holdings.users u).filter fun user => !user.isBanned

def completed (row : TaskProgress) : Bool := row.completedAt.isSome

def claimed (row : TaskProgress) : Bool := row.rewardClaimedAt.isSome

def needs : Point → Answer → List Lock
  | .tryConsumeDedupe b, .ok _ => [.tick b.definition.id b.dedupeKey]
  | .upsertProgress b, .ok _ | .completeProgress b, .ok _ => [.progress b.key]
  | .claimProgress c, .ok _ => [.progress c.key]
  | .fulfill c, .ok _ => if c.definition.rewardKind.paysBalance then [.user c.claim.userId] else []
  | _, _ => []

/-- Any statement can fail, and the call ends there. -/
def step : Point → Db → Answer → Option (Next Db Write Point)
  | _, _, .error => some (.rollback none)
  | .findDefinitions bump delta, _, .ok now =>
      match definitionsFor config bump now with
      | [] => some (.rollback none)
      | definition :: rest =>
          some (.goto (.tryConsumeDedupe
            { userId := bump.userId, dedupeKey := bump.dedupeKey, delta, now, definition, rest
              periodKey := config.getDailyTaskPeriodKey now }))
  | .tryConsumeDedupe b, db, .ok _ =>
      if db.ticks.any fun t =>
          t.taskDefinitionId = b.definition.id && t.dedupeKey = b.dedupeKey then
        some (.rollback b.next)
      else
        some (.write (.createTick b.tick)
          (if b.definition.targetValue ≤ 0 then .commitBump b else .upsertProgress b))
  | .upsertProgress b, _, .ok _ => some (.write (.upsertProgress b.key b.delta) (.readBumped b))
  | .readBumped b, db, .ok _ =>
      match db.progress b.key with
      | none => some (.goto (.commitBump b))
      | some row =>
          if claimed row || completed row || row.currentValue < b.definition.targetValue then
            some (.goto (.commitBump b))
          else some (.goto (.completeProgress b))
  | .completeProgress b, db, .ok _ =>
      if (db.progress b.key).any fun row => !completed row && !claimed row then
        some (.write (.completeProgress b.key b.now) (.commitBump b))
      else some (.goto (.commitBump b))
  | .commitBump b, _, .ok _ => some (.commit b.next)
  | .getPeriodKey claim, _, .ok now =>
      some (.goto (.findClaimant claim (config.getDailyTaskPeriodKey now)))
  | .findClaimant claim periodKey, db, .ok _ =>
      match allowedUser db claim.userId, findDefinition config claim with
      | some _, some definition => some (.goto (.readProgress ⟨claim, periodKey, definition⟩))
      | _, _ => some (.rollback none)
  | .readProgress c, db, .ok _ =>
      if (db.progress c.key).any fun row => completed row && !claimed row then
        some (.goto (.claimProgress c))
      else some (.rollback none)
  | .claimProgress c, db, .ok now =>
      if (db.progress c.key).any fun row => completed row && !claimed row then
        some (.write (.claimProgress c.key now) (.fulfill c))
      else some (.rollback none)
  | .fulfill c, _, .ok now =>
      match fulfillMiniPassLevelReward config.catalog (rewardPayloadFromDefinition c.definition)
          now with
      | .error _ => some (.rollback none)
      | .ok delivery => some (.write (.deliver c.key delivery) (.commitClaim c))
  | .commitClaim _, _, .ok _ => some (.commit none)

/-! ## Inversion -/

/-- What the statement at a point can do, for the database it sees. -/
inductive Moves (v : Db) : Point → Next Db Write Point → Prop
  | failed (p : Point) : Moves v p (.rollback none)
  | found (bump : Bump) (delta : {q : ℚ // 0 < q}) (b : Bumping)
      (hmem : ∀ d ∈ b.definition :: b.rest, d ∈ config.definitions) :
      Moves v (.findDefinitions bump delta) (.goto (.tryConsumeDedupe b))
  | duplicate (b : Bumping) : Moves v (.tryConsumeDedupe b) (.rollback b.next)
  | consumed (b : Bumping)
      (hnew : ∀ t ∈ v.ticks, (t.taskDefinitionId, t.dedupeKey) ≠ (b.definition.id, b.dedupeKey)) :
      Moves v (.tryConsumeDedupe b) (.write (.createTick b.tick) (.upsertProgress b))
  | bumps (b : Bumping) :
      Moves v (.upsertProgress b) (.write (.upsertProgress b.key b.delta) (.readBumped b))
  | settled (b : Bumping) (hsettled : ∀ row ∈ v.progress b.key,
        claimed row = true ∨ completed row = true ∨ row.currentValue < b.definition.targetValue) :
      Moves v (.readBumped b) (.goto (.commitBump b))
  | reached (b : Bumping) (row : TaskProgress) (hrow : v.progress b.key = some row)
      (hcompleted : completed row = false) (hclaimed : claimed row = false)
      (hreached : b.definition.targetValue ≤ row.currentValue) :
      Moves v (.readBumped b) (.goto (.completeProgress b))
  | completes (b : Bumping) :
      Moves v (.completeProgress b) (.write (.completeProgress b.key b.now) (.commitBump b))
  | completedBefore (b : Bumping) (hbefore : ∀ row ∈ v.progress b.key,
        completed row = true ∨ claimed row = true) :
      Moves v (.completeProgress b) (.goto (.commitBump b))
  | commitsBump (b : Bumping) : Moves v (.commitBump b) (.commit b.next)
  | dated (claim : Claim) (periodKey : String) :
      Moves v (.getPeriodKey claim) (.goto (.findClaimant claim periodKey))
  | claimant (claim : Claim) (periodKey : String) (definition : DailyTaskDefinition)
      (hmem : definition ∈ config.definitions) (hid : definition.id = claim.taskDefinitionId) :
      Moves v (.findClaimant claim periodKey) (.goto (.readProgress ⟨claim, periodKey, definition⟩))
  | claimable (c : Claiming) : Moves v (.readProgress c) (.goto (.claimProgress c))
  | claims (c : Claiming) (now : ℤ) (row : TaskProgress) (hrow : v.progress c.key = some row)
      (hcompleted : completed row = true) (hclaimed : claimed row = false) :
      Moves v (.claimProgress c) (.write (.claimProgress c.key now) (.fulfill c))
  | fulfills (c : Claiming) (delivery : Delivery) (now : ℤ)
      (hdelivery : fulfillMiniPassLevelReward config.catalog
        (rewardPayloadFromDefinition c.definition) now = .ok delivery) :
      Moves v (.fulfill c) (.write (.deliver c.key delivery) (.commitClaim c))
  | commitsClaim (c : Claiming) : Moves v (.commitClaim c) (.commit none)

theorem mem_of_findDefinition {claim : Claim} {d : DailyTaskDefinition}
    (h : findDefinition config claim = some d) :
    d ∈ config.definitions ∧ d.id = claim.taskDefinitionId := by
  have hfind := (Option.filter_eq_some_iff.mp h).1
  have hfound := List.find?_some hfind
  simp only [Bool.and_eq_true, decide_eq_true_eq] at hfound
  exact ⟨List.mem_of_find?_eq_some hfind, hfound.1⟩

/-- **Inversion.** -/
theorem step_moves {p : Point} {v : Db} {a : Answer} {next : Next Db Write Point}
    (h : step config p v a = some next) : Moves config v p next := by
  cases a with
  | error =>
      obtain rfl : Next.rollback none = next := by
        cases p <;> exact Option.some.inj h
      exact .failed p
  | ok now =>
      cases p with
      | findDefinitions bump delta =>
          simp only [step] at h
          split at h <;> obtain rfl := Option.some.inj h
          case h_1 => exact .failed _
          case h_2 definition rest hdefs =>
            refine .found bump delta _ fun d hd => ?_
            have hmem : d ∈ definitionsFor config bump now := hdefs ▸ hd
            exact (List.mem_filter.mp hmem).1
      | tryConsumeDedupe b =>
          simp only [step] at h
          split at h <;> obtain rfl := Option.some.inj h
          case isTrue => exact .duplicate b
          case isFalse hnew =>
            rw [if_neg (not_le.mpr b.definition.targetValue_pos)]
            refine .consumed b fun t ht heq => hnew ?_
            obtain ⟨hid, hkey⟩ := Prod.mk.inj heq
            simp only [List.any_eq_true, Bool.and_eq_true, decide_eq_true_eq]
            exact ⟨t, ht, hid, hkey⟩
      | upsertProgress b =>
          obtain rfl := Option.some.inj h
          exact .bumps b
      | readBumped b =>
          simp only [step] at h
          split at h
          case h_1 hnone =>
            obtain rfl := Option.some.inj h
            refine .settled b fun row hrow => ?_
            rw [hnone] at hrow
            cases hrow
          case h_2 row hrow =>
            split at h <;> obtain rfl := Option.some.inj h
            case isTrue hsettled =>
              refine .settled b fun row' hrow' => ?_
              obtain rfl := Option.some.inj (hrow.symm.trans hrow')
              simpa [or_assoc] using hsettled
            case isFalse hopen =>
              simp only [Bool.or_eq_true, decide_eq_true_eq, not_or, Bool.not_eq_true,
                not_lt] at hopen
              exact .reached b row hrow hopen.1.2 hopen.1.1 hopen.2
      | completeProgress b =>
          simp only [step] at h
          split at h <;> obtain rfl := Option.some.inj h
          case isTrue => exact .completes b
          case isFalse hbefore =>
            refine .completedBefore b fun row hrow => ?_
            rw [Option.mem_def.mp hrow, Option.any_some] at hbefore
            cases hc : completed row <;> simp_all
      | commitBump b =>
          obtain rfl := Option.some.inj h
          exact .commitsBump b
      | getPeriodKey claim =>
          obtain rfl := Option.some.inj h
          exact .dated claim _
      | findClaimant claim periodKey =>
          simp only [step] at h
          split at h <;> obtain rfl := Option.some.inj h
          case h_1 user definition huser hdefinition =>
            obtain ⟨hmem, hid⟩ := mem_of_findDefinition config hdefinition
            exact .claimant claim periodKey definition hmem hid
          case h_2 => exact .failed _
      | readProgress c =>
          simp only [step] at h
          split at h <;> obtain rfl := Option.some.inj h
          · exact .claimable c
          · exact .failed _
      | claimProgress c =>
          simp only [step] at h
          split at h <;> obtain rfl := Option.some.inj h
          case isTrue hopen =>
            cases hrow : v.progress c.key with
            | none =>
                rw [hrow] at hopen
                cases hopen
            | some row =>
                rw [hrow, Option.any_some, Bool.and_eq_true, Bool.not_eq_true'] at hopen
                exact .claims c now row hrow hopen.1 hopen.2
          case isFalse => exact .failed _
      | fulfill c =>
          simp only [step] at h
          split at h <;> obtain rfl := Option.some.inj h
          case h_1 => exact .failed _
          case h_2 delivery hdelivery => exact .fulfills c delivery now hdelivery
      | commitClaim c =>
          obtain rfl := Option.some.inj h
          exact .commitsClaim c

/-- A write takes the locks its statement waits for. -/
theorem covers {p p' : Point} {db : Db} {a : Answer} {w : Write}
    (h : step config p db a = some (.write w p')) : ∀ k ∈ locks w, k ∈ needs p a := by
  intro k hk
  cases a with
  | error => cases p <;> cases h
  | ok now =>
      generalize hnext : Next.write w p' = next at h
      cases step_moves config h with
      | consumed | bumps | completes | claims =>
          obtain ⟨rfl, -⟩ := Next.write.inj hnext
          exact hk
      | fulfills c delivery now' hdelivery =>
          obtain ⟨rfl, -⟩ := Next.write.inj hnext
          have hpays := paysBalance_fulfill hdelivery
          rw [locks, hpays] at hk
          exact hk
      | _ => cases hnext

def transactions : Transactions Db Write Lock Request Point Answer where
  apply := apply
  locks := locks
  start := start
  needs := needs
  step := step config
  covers := covers config

end BlockMiner.DailyTasks
