import BlockMiner.DailyTasks
import BlockMiner.TransactionRules

/-!
# Progress and rewards of daily tasks are exact

The ticks and the rows of progress are two copies of the same deltas, so their
difference is an account (`deltas`), and the ticks have a unique index
(`dedupeKeys`). Whether a row is completed and claimed is an invariant of the
committed rows (`RowSound`): a bump that has upserted a row, and a claim that
has marked it, hold its lock, so what they have read of it is still so when
they commit (`Pending`).
-/

namespace BlockMiner.DailyTasks

open LevelRewards
open Missions (TaskType TaskDefinition TaskProgress)

variable (config : Config)

/-! ## The deltas -/

/-- The deltas accepted for a row of progress. -/
def accepted (db : Db) (key : ProgressKey) : ℚ :=
  (db.ticks.map fun t => if t.progressKey = key then t.delta else 0).sum

def currentValue (db : Db) (key : ProgressKey) : ℚ :=
  (db.progress key).elim 0 TaskProgress.currentValue

theorem currentValue_setProgress (db : Db) (key key' : ProgressKey) (row : Option TaskProgress) :
    currentValue (setProgress db key row) key'
      = if key' = key then row.elim 0 TaskProgress.currentValue else currentValue db key' := by
  simp only [currentValue, setProgress, Function.update_apply]
  split <;> rfl

/-- What a write adds to the deltas of the ticks. -/
def ticked (key : ProgressKey) : Write → ℚ
  | .createTick t => if t.progressKey = key then t.delta else 0
  | _ => 0

/-- What a write adds to the value of a row. -/
def added (key : ProgressKey) : Write → ℚ
  | .upsertProgress key' delta => if key = key' then delta else 0
  | _ => 0

theorem accepted_apply (db : Db) (w : Write) (key : ProgressKey) :
    accepted (apply db w) key = ticked key w + accepted db key := by
  cases w with
  | createTick t => rfl
  | _ => exact (zero_add _).symm

theorem currentValue_bumped (delta : ℚ) (row : Option TaskProgress) :
    (bumped delta row).currentValue = row.elim 0 TaskProgress.currentValue + delta := by
  cases row with
  | none => exact (zero_add delta).symm
  | some row => rfl

theorem currentValue_apply (db : Db) (w : Write) (key : ProgressKey) :
    currentValue (apply db w) key = currentValue db key + added key w := by
  cases w with
  | createTick t => exact (add_zero _).symm
  | deliver key' delivery => exact (add_zero _).symm
  | upsertProgress key' delta =>
      rw [apply, currentValue_setProgress, added]
      split
      case isTrue h =>
        subst h
        exact currentValue_bumped delta _
      case isFalse => rw [add_zero]
  | completeProgress key' now | claimProgress key' now =>
      show _ = currentValue db key + 0
      rw [apply, currentValue_setProgress, add_zero]
      split
      case isTrue h =>
        subst h
        unfold currentValue
        cases db.progress key <;> rfl
      case isFalse => rfl

/-- What a bump still has to add to a row. -/
def owed : Point → ProgressKey → ℚ
  | .upsertProgress b, key => if key = b.key then b.delta else 0
  | _, _ => 0

theorem owed_next (b : Bumping) : ∀ p ∈ b.next, owed p = 0 := by
  intro p hp
  unfold Bumping.next at hp
  split at hp
  · cases hp
  · obtain rfl := Option.some.inj hp
    rfl

def deltas : (transactions config).Account (ProgressKey → ℚ) where
  value db key := accepted db key - currentValue db key
  change w key := ticked key w - added key w
  debt := owed
  value_apply db w := by
    funext key
    show accepted (apply db w) key - currentValue (apply db w) key = _
    rw [accepted_apply, currentValue_apply]
    simp only [Pi.add_apply]
    abel
  debt_start {r p} h := by
    cases r with
    | bumpDailyTasksForUser bump =>
        obtain ⟨delta, -, rfl⟩ := Option.map_eq_some_iff.mp h
        rfl
    | claimDailyTaskReward claim =>
        obtain rfl := Option.some.inj h
        rfl
  settles h := by
    have hnone : ∀ p ∈ (none : Option Point), owed p = 0 := fun _ hp => nomatch hp
    cases step_moves config h with
    | failed => exact hnone
    | duplicate b => exact owed_next b
    | commitsBump b => exact ⟨rfl, owed_next b⟩
    | commitsClaim c => exact ⟨rfl, hnone⟩
    | found | settled | reached | completedBefore | dated | claimant | claimable => rfl
    | consumed b hnew =>
        show owed (.upsertProgress b) = owed _ + fun key => _
        funext key
        simp [owed, ticked, added, Bumping.tick, eq_comm]
    | bumps b =>
        show owed (.readBumped b) = owed (.upsertProgress b) + fun key => _
        funext key
        simp [owed, ticked, added]
    | completes | claims | fulfills =>
        funext key
        simp [owed, ticked, added]

def dedupeKeys : (transactions config).UniqueIndex (ℕ × String) where
  keys db := db.ticks.map fun t => (t.taskDefinitionId, t.dedupeKey)
  entered
    | .createTick t => [(t.taskDefinitionId, t.dedupeKey)]
    | _ => []
  lock k := .tick k.1 k.2
  keys_apply db w := by cases w <;> exact .refl _
  locked w k hk := by
    cases w with
    | createTick t =>
        obtain rfl := List.mem_singleton.mp hk
        exact List.mem_singleton_self _
    | _ => cases hk
  admits h := by
    cases step_moves config h with
    | consumed b hnew =>
        refine ⟨List.nodup_singleton _, fun k hk hmem => ?_⟩
        obtain rfl := List.mem_singleton.mp hk
        obtain ⟨t, ht, heq⟩ := List.mem_map.mp hmem
        exact hnew t ht heq
    | bumps | completes | claims | fulfills => exact ⟨List.nodup_nil, fun _ hk => nomatch hk⟩
    | _ => trivial

/-! ## Rows -/

/-- A row is completed if and only if it has reached the target, and only
claimed where it is completed. -/
structure RowSound (key : ProgressKey) (row : TaskProgress) : Prop where
  completed_iff : ∀ d ∈ config.definitions, d.id = key.taskDefinitionId →
    (completed row = true ↔ d.targetValue ≤ row.currentValue)
  claimed : claimed row = true → completed row = true

def RowsSound (rows : ProgressKey → Option TaskProgress) : Prop :=
  ∀ key row, rows key = some row → RowSound config key row

/-- The rewards that have been delivered are those of the claimed rows, once each. -/
structure Granted (db : Db) : Prop where
  once : db.granted.Nodup
  claimed_iff : ∀ key, key ∈ db.granted ↔ ∃ row ∈ db.progress key, claimed row = true

structure Sound (db : Db) : Prop where
  rows : RowsSound config db.progress
  granted : Granted db

theorem RowsSound.update {rows : ProgressKey → Option TaskProgress} (h : RowsSound config rows)
    {key : ProgressKey} {row : TaskProgress} (hrow : RowSound config key row) :
    RowsSound config (Function.update rows key (some row)) := by
  intro key' row' h'
  rw [Function.update_apply] at h'
  split at h'
  case isTrue hkey =>
    obtain rfl := Option.some.inj h'
    exact hkey ▸ hrow
  case isFalse => exact h key' row' h'

/-- A row that is replaced, and claimed if and only if it was. -/
theorem Granted.update {db db' : Db} {key : ProgressKey} {row : TaskProgress} (h : Granted db)
    (hprogress : db'.progress = Function.update db.progress key (some row))
    (hgranted : db'.granted = db.granted)
    (hsame : claimed row = true ↔ ∃ old ∈ db.progress key, claimed old = true) : Granted db' := by
  refine ⟨hgranted ▸ h.once, fun key' => ?_⟩
  rw [hgranted, h.claimed_iff, hprogress, Function.update_apply]
  split
  case isTrue hkey =>
    rw [hkey, ← hsame]
    simp
  case isFalse => rfl

/-- A row that was not claimed is, and its reward is delivered. -/
theorem Granted.grant {db db' : Db} {key : ProgressKey} {old row : TaskProgress} (h : Granted db)
    (hold : db.progress key = some old) (hunclaimed : claimed old = false)
    (hprogress : db'.progress = Function.update db.progress key (some row))
    (hgranted : db'.granted = key :: db.granted) (hclaimed : claimed row = true) :
    Granted db' := by
  have hnew : key ∉ db.granted := by
    intro hmem
    obtain ⟨row', hrow', hclaimed'⟩ := (h.claimed_iff key).mp hmem
    obtain rfl := Option.some.inj (hold.symm.trans hrow')
    rw [hunclaimed] at hclaimed'
    cases hclaimed'
  refine ⟨hgranted ▸ List.nodup_cons.mpr ⟨hnew, h.once⟩, fun key' => ?_⟩
  rw [hgranted, List.mem_cons, h.claimed_iff, hprogress, Function.update_apply]
  split
  case isTrue hkey => simp [hkey, hclaimed]
  case isFalse hkey => simp [hkey]

/-! ## What a call has pending -/

def Bumping.Known (b : Bumping) : Prop := ∀ d ∈ b.definition :: b.rest, d ∈ config.definitions

structure Claiming.Known (c : Claiming) : Prop where
  mem : c.definition ∈ config.definitions
  id : c.definition.id = c.claim.taskDefinitionId

namespace Bumping

/-- The writes of a bump that has added its delta. -/
def upserted (b : Bumping) : List Write := [.createTick b.tick, .upsertProgress b.key b.delta]

/-- The row once it is added. -/
def row (b : Bumping) (db : Db) : TaskProgress := bumped b.delta (db.progress b.key)

/-- A row that has just reached the target. -/
structure Reaches (b : Bumping) (row : TaskProgress) : Prop where
  completed : completed row = false
  claimed : claimed row = false
  reached : b.definition.targetValue ≤ row.currentValue

/-- A row that is left as it is. -/
def Settled (b : Bumping) (row : TaskProgress) : Prop :=
  DailyTasks.claimed row = true ∨ DailyTasks.completed row = true
    ∨ row.currentValue < b.definition.targetValue

/-- The writes of a bump that is ready to commit. -/
def Done (b : Bumping) (db : Db) (ws : List Write) : Prop :=
  ws = b.upserted ∧ b.Settled (b.row db)
    ∨ ws = b.upserted ++ [.completeProgress b.key b.now] ∧ b.Reaches (b.row db)

end Bumping

/-- The reward of the row can be claimed. -/
def Claimable (db : Db) (key : ProgressKey) : Prop :=
  ∃ row, db.progress key = some row ∧ completed row = true ∧ claimed row = false

/-- The writes of a claim that is ready to commit. -/
def Claiming.Done (c : Claiming) (db : Db) (ws : List Write) : Prop :=
  Claimable db c.key ∧ ∃ now instant delivery,
    ws = [.claimProgress c.key now, .deliver c.key delivery]
    ∧ fulfillMiniPassLevelReward config.catalog (rewardPayloadFromDefinition c.definition) instant
      = .ok delivery

/-- The writes a call has pending, and what they rely on. -/
def Pending (db : Db) (tx : Tx Write Point) : Prop :=
  match tx.point with
  | .findDefinitions _ _ | .getPeriodKey _ | .findClaimant _ _ => tx.writes = []
  | .tryConsumeDedupe b => b.Known config ∧ tx.writes = []
  | .upsertProgress b => b.Known config ∧ tx.writes = [.createTick b.tick]
  | .readBumped b => b.Known config ∧ tx.writes = b.upserted
  | .completeProgress b => b.Known config ∧ tx.writes = b.upserted ∧ b.Reaches (b.row db)
  | .commitBump b => b.Known config ∧ b.Done db tx.writes
  | .readProgress c | .claimProgress c => c.Known config ∧ tx.writes = []
  | .fulfill c => c.Known config
      ∧ ∃ now, tx.writes = [.claimProgress c.key now] ∧ Claimable db c.key
  | .commitClaim c => c.Known config ∧ c.Done config db tx.writes

/-- What a call relies on is about the rows it has locked. -/
theorem Pending.stable {db db' : Db} {tx : Tx Write Point} (h : Pending config db tx)
    (hsame : ∀ key, Lock.progress key ∈ (transactions config).held tx →
      db'.progress key = db.progress key) : Pending config db' tx := by
  have hheld : ∀ {w key}, w ∈ tx.writes → Lock.progress key ∈ locks w →
      db'.progress key = db.progress key :=
    fun hw hk => hsame _ ((transactions config).mem_held.mpr ⟨_, hw, hk⟩)
  have hupserted : ∀ {b : Bumping}, .upsertProgress b.key b.delta ∈ tx.writes →
      b.row db' = b.row db := by
    intro b hmem
    rw [Bumping.row, hheld hmem (List.mem_singleton_self _)]
    rfl
  have hclaimed : ∀ key now, .claimProgress key now ∈ tx.writes → Claimable db key →
      Claimable db' key := by
    rintro key now hmem ⟨row, hrow, hopen⟩
    exact ⟨row, (hheld hmem (List.mem_singleton_self _)).trans hrow, hopen⟩
  obtain ⟨p, ws⟩ := tx
  cases p with
  | completeProgress b =>
      obtain ⟨hknown, hws, hreaches⟩ := h
      have hrow : b.row db' = b.row db := hupserted (by rw [hws]; simp [Bumping.upserted])
      exact ⟨hknown, hws, hrow ▸ hreaches⟩
  | commitBump b =>
      obtain ⟨hknown, hpending⟩ := h
      have hrow : b.row db' = b.row db := hupserted (by
        rcases hpending with ⟨hws, -⟩ | ⟨hws, -⟩
        · rw [hws]
          simp [Bumping.upserted]
        · rw [hws]
          simp [Bumping.upserted])
      rw [Bumping.Done, ← hrow] at hpending
      exact ⟨hknown, hpending⟩
  | fulfill c =>
      obtain ⟨hknown, now, hws, hopen⟩ := h
      exact ⟨hknown, now, hws, hclaimed _ now (by rw [hws]; simp) hopen⟩
  | commitClaim c =>
      obtain ⟨hknown, hopen, now, instant, delivery, hws, hdelivery⟩ := h
      exact ⟨hknown, hclaimed _ now (by rw [hws]; simp) hopen, now, instant, delivery, hws,
        hdelivery⟩
  | _ => exact h

theorem progress_apply {w : Write} {key : ProgressKey} (h : Lock.progress key ∉ locks w) (db : Db) :
    (apply db w).progress key = db.progress key := by
  cases w with
  | createTick | deliver => rfl
  | upsertProgress key' | completeProgress key' | claimProgress key' =>
      refine Function.update_of_ne ?_ _ _
      rintro rfl
      exact h (List.mem_singleton_self _)

/-- A transaction leaves the rows it has not locked. -/
theorem progress_view {tx : Tx Write Point} {key : ProgressKey}
    (h : Lock.progress key ∉ (transactions config).held tx) (db : Db) :
    ((transactions config).view db tx).progress key = db.progress key := by
  obtain ⟨p, ws⟩ := tx
  show ((transactions config).applyAll db ws).progress key = db.progress key
  change Lock.progress key ∉ ws.flatMap locks at h
  induction ws generalizing db with
  | nil => rfl
  | cons w ws ih =>
      rw [List.flatMap_cons, List.mem_append, not_or] at h
      exact (ih (apply db w) h.2).trans (progress_apply h.1 db)

/-- A step leaves the rows that its call has not locked. -/
theorem progress_dbAfter {tx : Tx Write Point} {db : Db} {a : Answer} {next : Next Db Write Point}
    (hstep : step config tx.point ((transactions config).view db tx) a = some next)
    {key : ProgressKey} (h : Lock.progress key ∉ (transactions config).held tx) :
    ((transactions config).dbAfter db tx next).progress key = db.progress key := by
  have hmoves := step_moves config hstep
  obtain ⟨p, ws⟩ := tx
  cases next with
  | goto p | write w p | rollback next => rfl
  | commit next => exact progress_view config h db
  | put f next => cases hmoves

theorem pending_next {db : Db} {b : Bumping} (h : b.Known config) :
    ∀ p ∈ b.next, Pending config db ⟨p, []⟩ := by
  intro p hp
  unfold Bumping.next at hp
  split at hp
  case h_1 => cases hp
  case h_2 definition rest hrest =>
    obtain rfl := Option.some.inj hp
    refine ⟨fun d hd => h d ?_, rfl⟩
    rw [hrest]
    exact List.mem_cons_of_mem _ hd

theorem progress_upserted (b : Bumping) (db : Db) :
    ((transactions config).applyAll db b.upserted).progress
      = Function.update db.progress b.key (some (b.row db)) := rfl

/-- A step keeps what a call has pending. -/
theorem pending_step {db : Db} {tx tx' : Tx Write Point} {a : Answer} {next : Next Db Write Point}
    (h : Pending config db tx)
    (hstep : step config tx.point ((transactions config).view db tx) a = some next)
    (htx' : tx.after next = some tx') : Pending config db tx' := by
  have hmoves := step_moves config hstep
  obtain ⟨p, ws⟩ := tx
  change Moves config ((transactions config).applyAll db ws) _ _ at hmoves
  generalize hv : (transactions config).applyAll db ws = v at hmoves
  cases hmoves with
  | failed | commitsClaim => cases htx'
  | duplicate b =>
      obtain ⟨p, hp, rfl⟩ := Option.map_eq_some_iff.mp htx'
      exact pending_next config h.1 p hp
  | commitsBump b =>
      obtain ⟨p, hp, rfl⟩ := Option.map_eq_some_iff.mp htx'
      exact pending_next config h.1 p hp
  | found bump delta b hmem =>
      obtain rfl := Option.some.inj htx'
      exact ⟨hmem, h⟩
  | consumed b hnew =>
      obtain rfl := Option.some.inj htx'
      obtain ⟨hknown, rfl⟩ : b.Known config ∧ ws = [] := h
      exact ⟨hknown, rfl⟩
  | bumps b =>
      obtain rfl := Option.some.inj htx'
      obtain ⟨hknown, rfl⟩ : b.Known config ∧ ws = [.createTick b.tick] := h
      exact ⟨hknown, rfl⟩
  | settled b hsettled =>
      obtain rfl := Option.some.inj htx'
      obtain ⟨hknown, rfl⟩ : b.Known config ∧ ws = b.upserted := h
      subst hv
      rw [progress_upserted, Function.update_self] at hsettled
      exact ⟨hknown, .inl ⟨rfl, hsettled _ rfl⟩⟩
  | reached b row hrow hcompleted hclaimed hreached =>
      obtain rfl := Option.some.inj htx'
      obtain ⟨hknown, rfl⟩ : b.Known config ∧ ws = b.upserted := h
      subst hv
      rw [progress_upserted, Function.update_self] at hrow
      obtain rfl := Option.some.inj hrow
      exact ⟨hknown, rfl, hcompleted, hclaimed, hreached⟩
  | completes b =>
      obtain rfl := Option.some.inj htx'
      obtain ⟨hknown, rfl, hreaches⟩ : b.Known config ∧ ws = b.upserted ∧ b.Reaches (b.row db) := h
      exact ⟨hknown, .inr ⟨rfl, hreaches⟩⟩
  | completedBefore b hbefore =>
      obtain ⟨hknown, rfl, hreaches⟩ : b.Known config ∧ ws = b.upserted ∧ b.Reaches (b.row db) := h
      subst hv
      rw [progress_upserted, Function.update_self] at hbefore
      rcases hbefore _ rfl with hcompleted | hclaimed
      · rw [hreaches.completed] at hcompleted
        cases hcompleted
      · rw [hreaches.claimed] at hclaimed
        cases hclaimed
  | dated claim periodKey =>
      obtain rfl := Option.some.inj htx'
      exact h
  | claimant claim periodKey definition hmem hid =>
      obtain rfl := Option.some.inj htx'
      exact ⟨⟨hmem, hid⟩, h⟩
  | claimable c =>
      obtain rfl := Option.some.inj htx'
      exact h
  | claims c now row hrow hcompleted hclaimed =>
      obtain rfl := Option.some.inj htx'
      obtain ⟨hknown, rfl⟩ : c.Known config ∧ ws = [] := h
      subst hv
      exact ⟨hknown, now, rfl, row, hrow, hcompleted, hclaimed⟩
  | fulfills c delivery now hdelivery =>
      obtain rfl := Option.some.inj htx'
      obtain ⟨hknown, instant, rfl, hopen⟩ : c.Known config
        ∧ ∃ instant, ws = [.claimProgress c.key instant] ∧ Claimable db c.key := h
      exact ⟨hknown, hopen, instant, now, delivery, rfl, hdelivery⟩

/-! ## Commits -/

theorem claimed_bumped (delta : ℚ) (old : Option TaskProgress) :
    claimed (bumped delta old) = old.any claimed := by
  cases old <;> rfl

theorem definition_eq {b : Bumping} (hb : b.Known config) {d : DailyTaskDefinition}
    (hd : d ∈ config.definitions) (hid : d.id = b.key.taskDefinitionId) : d = b.definition :=
  List.inj_on_of_nodup_map config.definitions_nodup hd (hb _ (List.mem_cons_self ..)) hid

theorem rowSound_settled {db : Db} {b : Bumping} (hrows : RowsSound config db.progress)
    (hb : b.Known config) (hsettled : b.Settled (b.row db)) :
    RowSound config b.key (b.row db) := by
  have hdelta : (0 : ℚ) < b.delta := b.delta.2
  cases hold : db.progress b.key with
  | none =>
      have hrow : b.row db = ⟨b.delta, none, none⟩ := by rw [Bumping.row, hold]; rfl
      rw [hrow] at hsettled ⊢
      have hbelow : (b.delta : ℚ) < b.definition.targetValue := by
        rcases hsettled with hclaimed | hcompleted | hbelow
        · cases hclaimed
        · cases hcompleted
        · exact hbelow
      refine ⟨fun d hd hid => ?_, fun hclaimed => nomatch hclaimed⟩
      obtain rfl := definition_eq config hb hd hid
      exact ⟨fun hcompleted => (nomatch hcompleted), fun h => absurd h (not_le.mpr hbelow)⟩
  | some old =>
      have hsound := hrows _ _ hold
      have hrow : b.row db = { old with currentValue := old.currentValue + b.delta } := by
        rw [Bumping.row, hold]
        rfl
      rw [hrow] at hsettled ⊢
      refine ⟨fun d hd hid => ?_, hsound.claimed⟩
      have hiff := hsound.completed_iff d hd hid
      obtain rfl := definition_eq config hb hd hid
      constructor
      · intro hcompleted
        exact (hiff.mp hcompleted).trans (le_add_of_nonneg_right hdelta.le)
      · intro hreached
        rcases hsettled with hclaimed | hcompleted | hbelow
        · exact hsound.claimed hclaimed
        · exact hcompleted
        · exact absurd hreached (not_le.mpr hbelow)

theorem rowSound_reaches {db : Db} {b : Bumping} (hb : b.Known config)
    (hreaches : b.Reaches (b.row db)) (now : ℤ) :
    RowSound config b.key { b.row db with completedAt := some now } := by
  refine ⟨fun d hd hid => ?_, fun _ => rfl⟩
  obtain rfl := definition_eq config hb hd hid
  exact ⟨fun _ => hreaches.reached, fun _ => rfl⟩

theorem claimed_row_iff (b : Bumping) (db : Db) :
    claimed (b.row db) = true ↔ ∃ old ∈ db.progress b.key, claimed old = true := by
  rw [Bumping.row, claimed_bumped]
  cases db.progress b.key <;> simp

/-- A commit leaves the rows and the rewards as they should be. -/
theorem sound_view {db : Db} {tx : Tx Write Point} (hdb : Sound config db)
    (h : Pending config db tx) {next : Option Point}
    (hmoves : Moves config ((transactions config).view db tx) tx.point (.commit next)) :
    Sound config ((transactions config).view db tx) := by
  obtain ⟨p, ws⟩ := tx
  show Sound config ((transactions config).applyAll db ws)
  cases hmoves with
  | commitsBump b =>
      obtain ⟨hb, hdone⟩ : b.Known config ∧ b.Done db ws := h
      rcases hdone with ⟨rfl, hsettled⟩ | ⟨rfl, hreaches⟩
      · exact ⟨hdb.rows.update config (rowSound_settled config hdb.rows hb hsettled),
          hdb.granted.update (progress_upserted config b db) rfl (claimed_row_iff b db)⟩
      · have hprogress : ((transactions config).applyAll db
            (b.upserted ++ [.completeProgress b.key b.now])).progress
              = Function.update db.progress b.key
                (some { b.row db with completedAt := some b.now }) := by
          rw [Transactions.applyAll_append]
          show (apply ((transactions config).applyAll db b.upserted)
            (.completeProgress b.key b.now)).progress = _
          simp only [apply, setProgress, progress_upserted, Function.update_self,
            Function.update_idem]
          rfl
        refine ⟨?_, hdb.granted.update hprogress rfl (claimed_row_iff b db)⟩
        rw [hprogress]
        exact hdb.rows.update config (rowSound_reaches config hb hreaches b.now)
  | commitsClaim c =>
      obtain ⟨-, ⟨row, hrow, hcompleted, hclaimed⟩, now, instant, delivery, rfl, -⟩ :
        c.Known config ∧ c.Done config db ws := h
      have hprogress : ((transactions config).applyAll db
          [.claimProgress c.key now, .deliver c.key delivery]).progress
            = Function.update db.progress c.key
              (some { row with rewardClaimedAt := some now }) := by
        show Function.update db.progress c.key (Option.map _ (db.progress c.key)) = _
        rw [hrow]
        rfl
      refine ⟨?_, hdb.granted.grant hrow hclaimed hprogress rfl rfl⟩
      rw [hprogress]
      refine hdb.rows.update config ⟨fun d hd hid => ?_, fun _ => hcompleted⟩
      exact (hdb.rows _ _ hrow).completed_iff d hd hid

/-! ## Runs -/

/-- One reward is delivered, of the definition of its row. -/
def Grants (db db' : Db) : Prop :=
  ∃ (key : ProgressKey) (definition : DailyTaskDefinition) (now : ℤ) (delivery : Delivery),
    definition ∈ config.definitions ∧ definition.id = key.taskDefinitionId
    ∧ fulfillMiniPassLevelReward config.catalog (rewardPayloadFromDefinition definition) now
      = .ok delivery
    ∧ db'.granted = key :: db.granted ∧ db'.holdings = db.holdings.deliver key.userId delivery

theorem grants_dbAfter {db : Db} {tx : Tx Write Point} {a : Answer} {next : Next Db Write Point}
    (h : Pending config db tx)
    (hstep : step config tx.point ((transactions config).view db tx) a = some next) :
    (((transactions config).dbAfter db tx next).granted = db.granted
      ∧ ((transactions config).dbAfter db tx next).holdings = db.holdings)
    ∨ Grants config db ((transactions config).dbAfter db tx next) := by
  have hmoves := step_moves config hstep
  obtain ⟨p, ws⟩ := tx
  cases next with
  | goto p' | write w p' | rollback next => exact .inl ⟨rfl, rfl⟩
  | put f next => cases hmoves
  | commit next =>
      show (((transactions config).applyAll db ws).granted = _ ∧ _)
        ∨ Grants config db ((transactions config).applyAll db ws)
      clear hstep
      cases hmoves with
      | commitsBump b =>
          obtain ⟨-, hdone⟩ : b.Known config ∧ b.Done db ws := h
          rcases hdone with ⟨rfl, -⟩ | ⟨rfl, -⟩
          · exact .inl ⟨rfl, rfl⟩
          · exact .inl ⟨rfl, rfl⟩
      | commitsClaim c =>
          obtain ⟨hknown, -, now, instant, delivery, rfl, hdelivery⟩ :
            c.Known config ∧ c.Done config db ws := h
          exact .inr ⟨c.key, c.definition, instant, delivery, hknown.mem, hknown.id, hdelivery,
            rfl, rfl⟩

theorem pending_start (db : Db) {r : Request} {p : Point} (h : start r = some p) :
    Pending config db ⟨p, []⟩ := by
  cases r with
  | bumpDailyTasksForUser bump =>
      obtain ⟨delta, -, rfl⟩ := Option.map_eq_some_iff.mp h
      rfl
  | claimDailyTaskReward claim =>
      obtain rfl := Option.some.inj h
      rfl

theorem sound_run {db : Db} (hdb : Sound config db) {es : List (Event Request Answer)}
    {t : InFlight Db (Tx Write Point)}
    (hrun : (transactions config).sys.run (Transactions.idle db) es = some t) :
    (transactions config).Holds (Sound config) (Pending config) t := by
  refine (transactions config).kept_run ?_ ?_ ?_ ((transactions config).holds_idle hdb) hrun
  · exact fun db r p _ h => pending_start config db h
  · intro db tx a next hdb htx hstep
    have hpending : ∀ tx', tx.after next = some tx' → Pending config db tx' :=
      fun _ htx' => pending_step config htx hstep htx'
    cases next with
    | goto p | write w p | rollback next => exact ⟨hdb, hpending⟩
    | put f next =>
        have hmoves := step_moves config hstep
        obtain ⟨p, ws⟩ := tx
        cases hmoves
    | commit next =>
        refine ⟨sound_view config hdb htx (step_moves config hstep), fun tx' htx' => ?_⟩
        refine (hpending tx' htx').stable config fun key hkey => ?_
        obtain ⟨p, -, rfl⟩ := Option.map_eq_some_iff.mp htx'
        cases hkey
  · intro db tx a next tx' _ _ hstep htx' hlocks
    refine htx'.stable config fun key hkey => ?_
    exact progress_dbAfter config hstep fun hheld => hlocks _ (.inl hheld) hkey

/-- What every committed state of the daily tasks satisfies. -/
structure Exact (db : Db) : Prop extends Sound config db where
  values : ∀ key, currentValue db key = accepted db key
  keys : (db.ticks.map fun t => (t.taskDefinitionId, t.dedupeKey)).Nodup

/-- Play two games for 5 BLK. -/
def playTwo : Config where
  definitions :=
    [{ id := 1, taskType := .PLAY_GAMES, targetValue := 2, gameSlug := none
       internalOfferwallOfferId := none, isActive := true, validFrom := none, validUntil := none
       rewardKind := .BLK, rewardMinerId := none, rewardEventMinerId := none
       rewardHashRate := none, rewardHashRateDays := none, rewardBlkAmount := some 5
       rewardPolAmount := none, targetValue_pos := by decide +kernel }]
  catalog := ⟨fun _ => none, fun _ => none⟩
  getDailyTaskPeriodKey _ := "2026-01-01"
  definitions_nodup := List.nodup_singleton 1

def oneUser : Db where
  holdings :=
    { users := fun u => if u = 1 then some ⟨false, 0, 0⟩ else none
      inventory := []
      powerGames := [] }
  ticks := []
  progress _ := none
  granted := []

theorem oneUser_exact (config : Config) : Exact config oneUser where
  rows _ _ h := nomatch h
  granted := ⟨List.nodup_nil, fun _ => ⟨fun h => (nomatch h), fun ⟨_, h, _⟩ => nomatch h⟩⟩
  values _ := rfl
  keys := List.nodup_nil

def gamePlayed (id : String) : Request :=
  .bumpDailyTasksForUser ⟨1, .PLAY_GAMES, "game-" ++ id, .finite 1, none, none⟩

/-- Two games at once, the second of them told twice, and two claims at once. -/
def playedAndClaimed : List (Event Request Answer) :=
  .start (gamePlayed "7") :: .start (gamePlayed "8") :: .start (gamePlayed "8")
    :: List.replicate 2 (.resume 1 (.ok 5)) ++ List.replicate 2 (.resume 2 (.ok 5))
    ++ List.replicate 3 (.resume 1 (.ok 6)) ++ List.replicate 4 (.resume 2 (.ok 6))
    ++ List.replicate 2 (.resume 3 (.ok 7))
    ++ .start (.claimDailyTaskReward ⟨1, 1, true⟩) :: .start (.claimDailyTaskReward ⟨1, 1, true⟩)
      :: List.replicate 3 (.resume 4 (.ok 8)) ++ List.replicate 6 (.resume 5 (.ok 8))
    ++ [.resume 4 (.ok 9)]

end BlockMiner.DailyTasks
