import BlockMiner.DailyTaskPeriod
import BlockMiner.DailyTasksExact
import BlockMiner.IsoDate

/-!
# The dashboard of the daily tasks

`dailyTaskDashboardService.js`: the definitions that are active and valid at an
instant, without those whose page is not in the sidebar, each with the progress
of a user in the period of that instant.

What is shown is told from two dates of a row, and a claim reads the same two
dates. So in every state that bumps and claims lead to, whatever the order of
their statements, the status of a task tells what has been accepted and
delivered for it, and a claim delivers exactly what is shown as completed.

The texts and the order of a definition are read from `listing`; definitions
of the same order come as they are found.
-/

namespace BlockMiner.DailyTasks

open DailyTaskPeriod (getNextDailyTaskResetAt midpoint_between searchReset)
open IsoDate (TimeValue timeClip toISOString)
open LevelRewards
open Missions (TaskType TaskProgress)

/-! ## The dashboard -/

inductive Status where
  | AVAILABLE
  | IN_PROGRESS
  | COMPLETED
  | CLAIMED
deriving DecidableEq

inductive RewardSummary where
  | amount (kind : RewardKind) (amount : ℚ)
  | hashRate (hashRate : ℚ) (days : ℤ)
  | kind (kind : RewardKind)

/-- The columns of a definition that are only shown. -/
structure Listing where
  slug : String
  translationKey : String
  sortOrder : ℤ

structure TaskRow where
  id : ℕ
  slug : String
  taskType : TaskType
  translationKey : String
  targetValue : ℚ
  currentValue : ℚ
  status : Status
  reward : RewardSummary
  gameSlug : Option String

structure Dashboard where
  periodKey : String
  serverTime : String
  nextResetAt : String
  tasks : List TaskRow

def CHECKIN_APP_PATH : String := "/checkin"

def INTERNAL_OFFERWALL_PATH : String := "/internal-offerwall"

def filterDailyTaskDefsForSidebar (defs : List DailyTaskDefinition) (visiblePaths : List String) :
    List DailyTaskDefinition :=
  let checkinOn := CHECKIN_APP_PATH ∈ visiblePaths
  let offerwallOn := INTERNAL_OFFERWALL_PATH ∈ visiblePaths
  defs.filter fun d =>
    match d.taskType with
    | .LOGIN_DAY => checkinOn
    | .INTERNAL_OFFERWALL => offerwallOn
    | _ => true

def deriveStatus (row : Option TaskProgress) : Status :=
  if row.any claimed then .CLAIMED
  else if row.any completed then .COMPLETED
  else if 0 < row.elim 0 TaskProgress.currentValue then .IN_PROGRESS
  else .AVAILABLE

def rewardSummary (d : DailyTaskDefinition) : RewardSummary :=
  match d.rewardKind, d.rewardBlkAmount, d.rewardPolAmount with
  | .BLK, some amount, _ => .amount .BLK amount
  | .POL, _, some amount => .amount .POL amount
  | .HASHRATE_TEMP, _, _ => .hashRate (d.rewardHashRate.getD 0) (d.rewardHashRateDays.getD 1)
  | kind, _, _ => .kind kind

section Dashboard

variable (config : Config) (listing : ℕ → Listing)

/-- The definitions that can be shown at an instant, in order. -/
def validDefinitions (now : ℤ) : List DailyTaskDefinition :=
  (config.definitions.filter fun d =>
    d.isActive && d.validFrom.all (· ≤ now) && d.validUntil.all (now ≤ ·)).insertionSort
      fun d d' => (listing d.id).sortOrder ≤ (listing d'.id).sortOrder

def taskRow (row : Option TaskProgress) (d : DailyTaskDefinition) : TaskRow where
  id := d.id
  slug := (listing d.id).slug
  taskType := d.taskType
  translationKey := (listing d.id).translationKey
  targetValue := d.targetValue
  currentValue := row.elim 0 TaskProgress.currentValue
  status := deriveStatus row
  reward := rewardSummary d
  gameSlug := d.gameSlug

/-- `none` where it throws: near the end of time the next reset is no date. -/
def getDailyTasksDashboard (db : Db) (visiblePaths : List String) (now : TimeValue)
    (userId : ℕ) : Option Dashboard := do
  let periodKey := config.getDailyTaskPeriodKey now.ms
  let nextResetAt ← timeClip (getNextDailyTaskResetAt config.getDailyTaskPeriodKey now.ms)
  return {
    periodKey
    serverTime := toISOString now
    nextResetAt := toISOString nextResetAt
    tasks := (filterDailyTaskDefsForSidebar (validDefinitions config listing now.ms)
      visiblePaths).map fun d => taskRow listing (db.progress ⟨userId, d.id, periodKey⟩) d }

end Dashboard

/-! ## What is told -/

/-- The status of a task tells what was accepted and delivered for its row of progress. -/
structure Told (db : Db) (key : ProgressKey) (task : TaskRow) : Prop where
  value : task.currentValue = accepted db key
  claimed_iff : task.status = .CLAIMED ↔ key ∈ db.granted
  completed_iff : task.status = .COMPLETED
    ↔ key ∉ db.granted ∧ task.targetValue ≤ task.currentValue
  inProgress_iff : task.status = .IN_PROGRESS
    ↔ 0 < task.currentValue ∧ task.currentValue < task.targetValue
  available_iff : task.status = .AVAILABLE ↔ task.currentValue ≤ 0

section Facts

variable {config : Config} {listing : ℕ → Listing} {db : Db} {key : ProgressKey}

theorem deriveStatus_claimed (row : Option TaskProgress) :
    deriveStatus row = .CLAIMED ↔ row.any claimed = true := by
  unfold deriveStatus
  split_ifs with h₁ h₂ h₃ <;> simp [h₁]

theorem deriveStatus_completed (row : Option TaskProgress) :
    deriveStatus row = .COMPLETED ↔ row.any claimed = false ∧ row.any completed = true := by
  unfold deriveStatus
  split_ifs with h₁ h₂ h₃ <;> simp_all

theorem any_claimed_iff (h : Granted db) (key : ProgressKey) :
    (db.progress key).any claimed = true ↔ key ∈ db.granted := by
  rw [h.claimed_iff, Option.any_eq_true]
  rfl

/-- A row is completed where its value has reached the target. -/
theorem any_completed_iff (h : RowsSound config db.progress) {d : DailyTaskDefinition}
    (hd : d ∈ config.definitions) (hid : d.id = key.taskDefinitionId) :
    (db.progress key).any completed = true ↔ d.targetValue ≤ currentValue db key := by
  unfold currentValue
  cases hrow : db.progress key with
  | none =>
    have hpos := d.targetValue_pos
    simp only [Option.any_none, Bool.false_eq_true, Option.elim_none, false_iff, not_le]
    exact hpos
  | some row => exact (h key row hrow).completed_iff d hd hid

/-- Nothing is claimed before it is completed. -/
theorem completed_of_claimed (h : RowsSound config db.progress) (key : ProgressKey)
    (hclaimed : (db.progress key).any claimed = true) :
    (db.progress key).any completed = true := by
  cases hrow : db.progress key with
  | none =>
    rw [hrow] at hclaimed
    cases hclaimed
  | some row =>
    rw [hrow] at hclaimed
    exact (h key row hrow).claimed hclaimed

theorem told_taskRow (h : Exact config db) {d : DailyTaskDefinition}
    (hd : d ∈ config.definitions) (hid : d.id = key.taskDefinitionId) :
    Told db key (taskRow listing (db.progress key) d) := by
  have hcompleted := any_completed_iff h.rows hd hid
  have hgranted := any_claimed_iff h.granted key
  have hclaimed := completed_of_claimed h.rows key
  have hpos := d.targetValue_pos
  refine ⟨h.values key, (deriveStatus_claimed _).trans hgranted, ?_, ?_, ?_⟩
  · show deriveStatus _ = _ ↔ _ ∧ d.targetValue ≤ currentValue db key
    rw [deriveStatus_completed, ← hcompleted, ← hgranted, Bool.not_eq_true]
  · show deriveStatus _ = _ ↔ 0 < currentValue db key ∧ currentValue db key < d.targetValue
    unfold deriveStatus
    split_ifs with h₁ h₂ h₃
    · have hreached := hcompleted.mp (hclaimed h₁)
      exact ⟨fun h => (by cases h), fun h => absurd hreached (not_le.mpr h.2)⟩
    · exact ⟨fun h => (by cases h), fun h => absurd (hcompleted.mp h₂) (not_le.mpr h.2)⟩
    · exact ⟨fun _ => ⟨h₃, not_le.mp (mt hcompleted.mpr h₂)⟩, fun _ => rfl⟩
    · exact ⟨fun h => (by cases h), fun h => absurd h.1 h₃⟩
  · show deriveStatus _ = _ ↔ currentValue db key ≤ 0
    unfold deriveStatus
    split_ifs with h₁ h₂ h₃
    · have hreached := hcompleted.mp (hclaimed h₁)
      exact ⟨fun h => (by cases h), fun h => absurd (hpos.trans_le hreached) (not_lt.mpr h)⟩
    · have hreached := hcompleted.mp h₂
      exact ⟨fun h => (by cases h), fun h => absurd (hpos.trans_le hreached) (not_lt.mpr h)⟩
    · exact ⟨fun h => (by cases h), fun h => absurd h₃ (not_lt.mpr h)⟩
    · exact ⟨fun _ => not_lt.mp h₃, fun _ => rfl⟩

theorem searchReset_mem {key : ℤ → String} {today : String} {lo hi : ℤ} (h : lo ≤ hi) :
    lo ≤ searchReset key today lo hi ∧ searchReset key today lo hi ≤ hi := by
  fun_induction searchReset key today lo hi with
  | case1 lo hi hgap htoday ih =>
    have hmid := midpoint_between hgap
    have hreset := ih hmid.2.le
    exact ⟨hmid.1.le.trans hreset.1, hreset.2⟩
  | case2 lo hi hgap hother ih =>
    have hmid := midpoint_between hgap
    have hreset := ih hmid.1.le
    exact ⟨hreset.1, hreset.2.trans hmid.2.le⟩
  | case3 lo hi hgap => exact ⟨h, le_rfl⟩

/-- There is a dashboard up to fifty hours before the end of time. -/
theorem exists_dashboard (config : Config) (listing : ℕ → Listing) (db : Db)
    (visiblePaths : List String) {now : TimeValue} (u : ℕ)
    (h : now.ms + 50 * 3600000 ≤ 8640000000000000) :
    ∃ dashboard, getDailyTasksDashboard config listing db visiblePaths now u = some dashboard := by
  have hreset : now.ms ≤ getNextDailyTaskResetAt config.getDailyTaskPeriodKey now.ms
      ∧ getNextDailyTaskResetAt config.getDailyTaskPeriodKey now.ms ≤ now.ms + 50 * 3600000 :=
    searchReset_mem (by omega)
  have hnow := abs_le.mp now.range
  have hrange : |getNextDailyTaskResetAt config.getDailyTaskPeriodKey now.ms| ≤ 8640000000000000 :=
    abs_le.mpr ⟨by omega, by omega⟩
  simp [getDailyTasksDashboard, timeClip, dif_pos hrange]

end Facts

/-! ## A claim alone -/

section Claims

variable (config : Config)

/-- The reward of a definition is delivered for a row, and nothing else. -/
structure DeliversRow (db db' : Db) (key : ProgressKey) (d : DailyTaskDefinition) : Prop where
  granted : db'.granted = key :: db.granted
  holdings : ∃ now delivery,
    fulfillMiniPassLevelReward config.catalog (rewardPayloadFromDefinition d) now = .ok delivery
    ∧ db'.holdings = db.holdings.deliver key.userId delivery

def Fulfillable (d : DailyTaskDefinition) : Prop :=
  ∀ now, ∃ delivery,
    fulfillMiniPassLevelReward config.catalog (rewardPayloadFromDefinition d) now = .ok delivery

variable {config} {db : Db}

/-- A claim that has found its definition. -/
theorem alone_readProgress (db : Db) (clock : ℕ → ℤ) (i : ℕ) (c : Claiming)
    (hfulfillable : Fulfillable config c.definition) :
    ∃ db', (transactions config).Alone (fun j => .ok (clock j)) i db ⟨.readProgress c, []⟩ db'
      ∧ (Claimable db c.key ∧ DeliversRow config db db' c.key c.definition
        ∨ ¬Claimable db c.key ∧ db' = db) := by
  have hopen : (db.progress c.key).any (fun row => completed row && !claimed row) = true
      ↔ Claimable db c.key := by
    simp [Claimable, Option.any_eq_true]
  by_cases h : Claimable db c.key
  · obtain ⟨delivery, hdelivery⟩ := hfulfillable (clock (i + 2))
    have hread : step config (.readProgress c) db (.ok (clock i))
        = some (.goto (.claimProgress c)) := if_pos (hopen.mpr h)
    have hclaim : step config (.claimProgress c) db (.ok (clock (i + 1)))
        = some (.write (.claimProgress c.key (clock (i + 1))) (.fulfill c)) :=
      if_pos (hopen.mpr h)
    have hfulfill : step config (.fulfill c)
        ((transactions config).applyAll db [.claimProgress c.key (clock (i + 1))])
          (.ok (clock (i + 2))) = some (.write (.deliver c.key delivery) (.commitClaim c)) := by
      simp only [step, hdelivery]
    exact ⟨_, .next hread rfl (.next hclaim rfl (.next hfulfill rfl (.last rfl rfl rfl))),
      .inl ⟨h, rfl, clock (i + 2), delivery, hdelivery, rfl⟩⟩
  · have hread : step config (.readProgress c) db (.ok (clock i)) = some (.rollback none) :=
      if_neg (mt hopen.mp h)
    exact ⟨db, .last hread rfl rfl, .inr ⟨h, rfl⟩⟩

theorem findDefinition_eq {d : DailyTaskDefinition} (hd : d ∈ config.definitions)
    (hactive : d.isActive = true) {claim : Claim} (hid : claim.taskDefinitionId = d.id)
    (hlogin : d.taskType = .LOGIN_DAY → claim.checkinEnabled = true) :
    findDefinition config claim = some d := by
  have hfind : config.definitions.find? (fun d => d.id = claim.taskDefinitionId && d.isActive)
      = some d := by
    cases hfound : config.definitions.find? (fun d => d.id = claim.taskDefinitionId && d.isActive)
      with
    | none =>
      have hnone := List.find?_eq_none.mp hfound d hd
      simp [hid, hactive] at hnone
    | some d' =>
      have hmatch := List.find?_some hfound
      simp only [Bool.and_eq_true, decide_eq_true_eq] at hmatch
      rw [List.inj_on_of_nodup_map config.definitions_nodup (List.mem_of_find?_eq_some hfound) hd
        (hmatch.1.trans hid)]
  unfold findDefinition
  rw [hfind, Option.filter_some, if_pos]
  by_cases h : d.taskType = .LOGIN_DAY
  · simp [hlogin h]
  · simp [h]

/-- A claim of a definition that it can find. -/
theorem alone_claim (db : Db) (clock : ℕ → ℤ) {claim : Claim} {d : DailyTaskDefinition}
    {user : User} (huser : allowedUser db claim.userId = some user)
    (hfind : findDefinition config claim = some d) (hfulfillable : Fulfillable config d) :
    ∃ db', (transactions config).Alone (fun j => .ok (clock j)) 0 db ⟨.getPeriodKey claim, []⟩ db'
      ∧ (Claimable db ⟨claim.userId, claim.taskDefinitionId, config.getDailyTaskPeriodKey (clock 0)⟩
          ∧ DeliversRow config db db'
              ⟨claim.userId, claim.taskDefinitionId, config.getDailyTaskPeriodKey (clock 0)⟩ d
        ∨ ¬Claimable db
              ⟨claim.userId, claim.taskDefinitionId, config.getDailyTaskPeriodKey (clock 0)⟩
          ∧ db' = db) := by
  have hclaimant : step config (.findClaimant claim (config.getDailyTaskPeriodKey (clock 0))) db
      (.ok (clock 1))
        = some (.goto (.readProgress ⟨claim, config.getDailyTaskPeriodKey (clock 0), d⟩)) := by
    simp only [step, huser, hfind]
  obtain ⟨db', halone, hdb'⟩ := alone_readProgress db clock 2
    ⟨claim, config.getDailyTaskPeriodKey (clock 0), d⟩ hfulfillable
  exact ⟨db', .next rfl rfl (.next hclaimant rfl halone), hdb'⟩

theorem claimable_iff {key : ProgressKey} :
    Claimable db key ↔ deriveStatus (db.progress key) = .COMPLETED := by
  rw [deriveStatus_completed]
  unfold Claimable
  cases db.progress key with
  | none => simp
  | some row => simp [and_comm]

/-- With no other call in flight, a claim by a user who is not banned of a task that is shown,
in the period of the dashboard, delivers its reward if and only if it is shown as completed,
and otherwise changes nothing. -/
def ClaimsAsTold (config : Config) (s : InFlight Db (Tx Write Point)) (u : ℕ)
    (visiblePaths : List String) (dashboard : Dashboard) : Prop :=
  (∀ i, s.calls.row i = none) → allowedUser s.db u ≠ none → ∀ clock : ℕ → ℤ,
    config.getDailyTaskPeriodKey (clock 0) = dashboard.periodKey →
    ∀ d ∈ config.definitions, Fulfillable config d →
    ∀ task ∈ dashboard.tasks, task.id = d.id →
      ∃ n t,
        (transactions config).sys.run s
          (.start (.claimDailyTaskReward ⟨u, task.id, CHECKIN_APP_PATH ∈ visiblePaths⟩)
            :: (List.range' 0 n).map fun i => .resume s.calls.nextId (.ok (clock i))) = some t
        ∧ (∀ i, t.calls.row i = none)
        ∧ (DeliversRow config s.db t.db ⟨u, task.id, dashboard.periodKey⟩ d
            ↔ task.status = .COMPLETED)
        ∧ (task.status ≠ .COMPLETED → t.db = s.db)

theorem mem_shown {visiblePaths : List String} {now : ℤ} {listing : ℕ → Listing}
    {d : DailyTaskDefinition}
    (h : d ∈ filterDailyTaskDefsForSidebar (validDefinitions config listing now) visiblePaths) :
    d ∈ config.definitions ∧ d.isActive = true
      ∧ (d.taskType = .LOGIN_DAY → CHECKIN_APP_PATH ∈ visiblePaths) := by
  obtain ⟨hvalid, hpage⟩ := List.mem_filter.mp h
  obtain ⟨hmem, hactive⟩ := List.mem_filter.mp
    ((List.perm_insertionSort _ _).mem_iff.mp hvalid)
  simp only [Bool.and_eq_true] at hactive
  refine ⟨hmem, hactive.1.1, fun hlogin => ?_⟩
  rw [hlogin] at hpage
  exact of_decide_eq_true hpage

theorem not_delivers_self {key : ProgressKey} {d : DailyTaskDefinition} :
    ¬DeliversRow config db db key d := by
  intro h
  have hlength := congrArg List.length h.granted
  rw [List.length_cons] at hlength
  omega

/-- The rows of a dashboard. -/
theorem tasks_eq {listing : ℕ → Listing} {visiblePaths : List String} {now : TimeValue} {u : ℕ}
    {dashboard : Dashboard}
    (h : getDailyTasksDashboard config listing db visiblePaths now u = some dashboard) :
    dashboard.periodKey = config.getDailyTaskPeriodKey now.ms
    ∧ ∀ task ∈ dashboard.tasks, ∃ d ∈ filterDailyTaskDefsForSidebar
        (validDefinitions config listing now.ms) visiblePaths,
      task = taskRow listing (db.progress ⟨u, d.id, dashboard.periodKey⟩) d := by
  obtain ⟨reset, -, hdashboard⟩ := Option.bind_eq_some_iff.mp h
  obtain rfl := Option.some.inj hdashboard
  refine ⟨rfl, fun task htask => ?_⟩
  obtain ⟨d, hd, rfl⟩ := List.mem_map.mp htask
  exact ⟨d, hd, rfl⟩

theorem claims_as_told (s : InFlight Db (Tx Write Point)) {listing : ℕ → Listing}
    {visiblePaths : List String} {now : TimeValue} {u : ℕ} {dashboard : Dashboard}
    (h : getDailyTasksDashboard config listing s.db visiblePaths now u = some dashboard) :
    ClaimsAsTold config s u visiblePaths dashboard := by
  intro hquiet huser clock hperiod d hd hfulfillable task htask hid
  obtain ⟨user, huser⟩ := Option.ne_none_iff_exists'.mp huser
  obtain ⟨d', hshown, rfl⟩ := (tasks_eq h).2 task htask
  obtain ⟨hd', hactive, hlogin⟩ := mem_shown hshown
  obtain rfl := List.inj_on_of_nodup_map config.definitions_nodup hd' hd hid
  let claim : Claim := ⟨u, d'.id, CHECKIN_APP_PATH ∈ visiblePaths⟩
  have hfind : findDefinition config claim = some d' :=
    findDefinition_eq hd' hactive rfl fun htype => decide_eq_true (hlogin htype)
  have huser' : allowedUser s.db claim.userId = some user := huser
  obtain ⟨db', halone, hdb'⟩ := alone_claim s.db clock huser' hfind hfulfillable
  rw [hperiod] at hdb'
  have hrow : (s.calls.insert (⟨.getPeriodKey claim, []⟩ : Tx Write Point)).row s.calls.nextId
      = some ⟨.getPeriodKey claim, []⟩ := Table.insert_row_self ..
  have hothers : ∀ j, j ≠ s.calls.nextId →
      (s.calls.insert (⟨.getPeriodKey claim, []⟩ : Tx Write Point)).row j = none := by
    intro j hj
    rw [Table.insert_row, if_neg hj, hquiet]
  obtain ⟨n, t, hrun, rfl, hnone⟩ := halone.run hrow hothers
  have hstatus : (taskRow listing (s.db.progress ⟨u, d'.id, dashboard.periodKey⟩) d').status
      = .COMPLETED ↔ Claimable s.db ⟨u, d'.id, dashboard.periodKey⟩ := claimable_iff.symm
  refine ⟨n, t, (System.run_cons_eq_some _).mpr ⟨_, rfl, hrun⟩, hnone, ?_, ?_⟩
  · rw [hstatus]
    rcases hdb' with ⟨hclaimable, hdelivers⟩ | ⟨hnot, hsame⟩
    · exact iff_of_true hdelivers hclaimable
    · rw [hsame]
      exact iff_of_false not_delivers_self hnot
  · rw [Ne, hstatus]
    intro hnot
    rcases hdb' with ⟨hclaimable, -⟩ | ⟨-, hsame⟩
    · exact absurd hclaimable hnot
    · exact hsame

theorem exact_run {db : Db} (hdb : Exact config db) {es : List (Event Request Answer)}
    {t : InFlight Db (Tx Write Point)}
    (hrun : (transactions config).sys.run (Transactions.idle db) es = some t) :
    Exact config t.db := by
  refine ⟨(sound_run config hdb.toSound hrun).db, fun key => ?_,
    ((dedupeKeys config).distinct_run hdb.keys hrun).db⟩
  have hvalue : accepted t.db key - currentValue t.db key
      = accepted db key - currentValue db key :=
    congrFun ((deltas config).value_run hrun).db key
  rw [hdb.values key, sub_self] at hvalue
  exact (sub_eq_zero.mp hvalue).symm

end Claims

end BlockMiner.DailyTasks
