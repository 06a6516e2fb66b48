import BlockMiner.Missions

/-!
# Progress of different users

A run of all notifications is compared with the run of one user's, by the
unwinding rule: the transactions of the others leave the user's rows alone,
and the user's own do the same on both sides as long as no unique key they
use is taken by somebody else (`Clear`).

The keys of games and BLK rewards name a row that belongs to one user. The
key of a check-in names the day only, and the idempotency key of a completed
mission the mission and the period only, so the second user to send either
is taken for a repetition of the first.
-/

namespace BlockMiner

/-! ## Lists with the same elements of one owner -/

section SameOwn

variable {α : Type*} {own : α → Bool} {l l' : List α}

/-- `l'` has the own elements of `l`, and maybe fewer of the others. -/
def SameOwn (own : α → Bool) (l l' : List α) : Prop :=
  l'.filter own = l.filter own ∧ ∀ x ∈ l', own x = false → x ∈ l

theorem SameOwn.refl (l : List α) : SameOwn own l l := ⟨rfl, fun _ hx _ => hx⟩

theorem SameOwn.cons (h : SameOwn own l l') (x : α) : SameOwn own (x :: l) (x :: l') := by
  refine ⟨?_, fun y hy hown => ?_⟩
  · rw [List.filter_cons, List.filter_cons, h.1]
  · rcases List.mem_cons.mp hy with rfl | hold
    · exact List.mem_cons_self ..
    · exact List.mem_cons_of_mem x (h.2 y hold hown)

theorem SameOwn.cons_other (h : SameOwn own l l') {x : α} (hx : own x = false) :
    SameOwn own (x :: l) l' := by
  refine ⟨?_, fun y hy hown => List.mem_cons_of_mem x (h.2 y hy hown)⟩
  rw [List.filter_cons_of_neg (by simp [hx]), h.1]

/-- A test that only own elements pass. -/
theorem SameOwn.any (h : SameOwn own l l') {q : α → Bool}
    (hq : ∀ x ∈ l, q x = true → own x = true) : l'.any q = l.any q := by
  have hmem (x : α) (hx : q x = true) : x ∈ l' ↔ x ∈ l := by
    constructor
    · intro hx'
      cases hown : own x with
      | true =>
          have hfilter := List.mem_filter.mpr ⟨hx', hown⟩
          rw [h.1] at hfilter
          exact (List.mem_filter.mp hfilter).1
      | false => exact h.2 x hx' hown
    · intro hxl
      have hfilter := List.mem_filter.mpr ⟨hxl, hq x hxl hx⟩
      rw [← h.1] at hfilter
      exact (List.mem_filter.mp hfilter).1
  rw [Bool.eq_iff_iff, List.any_eq_true, List.any_eq_true]
  exact exists_congr fun x => and_congr_left fun hx => hmem x hx

end SameOwn

namespace Missions

/-! ## What belongs to a user -/

/-- The progress of a user, and the experience credited to the user. -/
structure View where
  missionProgress : ℕ → String → Option Progress
  taskProgress : ℕ → String → Option TaskProgress
  totalXp : ℕ → Option ℤ
  xpLedger : List XpLedgerRow

def view (u : ℕ) (db : Db) : View where
  missionProgress := db.missionProgress u
  taskProgress := db.taskProgress u
  totalXp := db.enrollments u
  xpLedger := db.xpLedger.filter (·.userId = u)

/-- `db'` shows the user the same as `db`, with fewer rows of the others. -/
structure Shows (u : ℕ) (db db' : Db) : Prop where
  missionProgress : db'.missionProgress u = db.missionProgress u
  taskProgress : db'.taskProgress u = db.taskProgress u
  enrollments : db'.enrollments u = db.enrollments u
  missionTicks : SameOwn (fun t => t.userId = u) db.missionTicks db'.missionTicks
  taskTicks : SameOwn (fun t => t.userId = u) db.taskTicks db'.taskTicks
  xpLedger : SameOwn (fun r => r.userId = u) db.xpLedger db'.xpLedger

theorem Shows.view_eq {u : ℕ} {db db' : Db} (h : Shows u db db') : view u db' = view u db := by
  unfold view
  rw [h.missionProgress, h.taskProgress, h.enrollments, h.xpLedger.1]

/-- No unique key that a transaction of the user is about to use is taken by
somebody else. -/
def Clear (u : ℕ) (db : Db) : Tx → Prop
  | .mission tx => tx.userId = u →
      (∀ t ∈ db.missionTicks, t.ownerId = tx.mission.id → t.dedupeKey = tx.dedupeKey →
        t.userId = u)
      ∧ (tx.completes db = true → 0 < tx.xpReward →
        ∀ r ∈ db.xpLedger, r.idempotencyKey = tx.idempotencyKey → r.userId = u)
  | .task tx => tx.userId = u →
      ∀ t ∈ db.taskTicks, t.ownerId = tx.definition.id → t.dedupeKey = tx.dedupeKey → t.userId = u

instance (u : ℕ) (db : Db) : ∀ tx, Decidable (Clear u db tx)
  | .mission tx => inferInstanceAs (Decidable (tx.userId = u →
      (∀ t ∈ db.missionTicks, t.ownerId = tx.mission.id → t.dedupeKey = tx.dedupeKey →
        t.userId = u)
      ∧ (tx.completes db = true → 0 < tx.xpReward →
        ∀ r ∈ db.xpLedger, r.idempotencyKey = tx.idempotencyKey → r.userId = u)))
  | .task tx => inferInstanceAs (Decidable (tx.userId = u →
      ∀ t ∈ db.taskTicks, t.ownerId = tx.definition.id → t.dedupeKey = tx.dedupeKey →
        t.userId = u))

/-! ## Transactions of the others -/

theorem setRow_other {α : Type} {rows : ℕ → ℕ → String → Option α} {u v o : ℕ} {p : String}
    {row : α} (h : u ≠ v) : setRow rows v o p row u = rows u := by
  funext o' p'
  exact if_neg fun hcond => h hcond.1

theorem setEnrollment_other {rows : ℕ → ℕ → Option ℤ} {u v s : ℕ} {totalXp : ℤ} (h : u ≠ v) :
    setEnrollment rows v s totalXp u = rows u := by
  funext s'
  exact if_neg fun hcond => h hcond.1

/-- The key is free, and its tick belongs to the user. -/
theorem tryConsumeDedupe_eq_some {ticks ticks' : List Tick} {o v : ℕ} {key : String}
    (h : tryConsumeDedupe ticks o key v = some ticks') : ticks' = ⟨o, key, v⟩ :: ticks := by
  unfold tryConsumeDedupe at h
  split at h
  case isTrue => cases h
  case isFalse => exact (Option.some.inj h).symm

section Other

variable {u : ℕ} {db db' : Db} (h : Shows u db db')
include h

theorem setProgress_other {tx : MissionTx} (hu : u ≠ tx.userId) (row : Progress) :
    Shows u (tx.setProgress row db) db' :=
  { h with missionProgress := h.missionProgress.trans (setRow_other hu).symm }

theorem applyMiniPassXp_other {tx : MissionTx} (hu : u ≠ tx.userId) {amount : ℤ} {db₁ : Db}
    (hrun : tx.applyMiniPassXp amount db = some db₁) : Shows u db₁ db' := by
  unfold MissionTx.applyMiniPassXp at hrun
  split_ifs at hrun
  · obtain rfl := Option.some.inj hrun
    exact h
  · obtain rfl := Option.some.inj hrun
    exact { h with
      enrollments := h.enrollments.trans (setEnrollment_other hu).symm
      xpLedger := h.xpLedger.cons_other (decide_eq_false hu.symm) }

theorem bumpMissionProgress_other {tx : MissionTx} (hu : u ≠ tx.userId) {db₁ : Db}
    (hrun : tx.bumpMissionProgress db = some db₁) : Shows u db₁ db' := by
  unfold MissionTx.bumpMissionProgress at hrun
  split_ifs at hrun
  · obtain rfl := Option.some.inj hrun
    exact h
  · obtain rfl := Option.some.inj hrun
    exact setProgress_other h hu _
  · exact applyMiniPassXp_other (setProgress_other h hu _) hu hrun
  · obtain rfl := Option.some.inj hrun
    exact setProgress_other h hu _

theorem mission_other {tx : MissionTx} (hu : u ≠ tx.userId) : Shows u (tx.run db) db' := by
  unfold MissionTx.run
  split
  case h_1 => exact h
  case h_2 ticks hticks =>
    have hadded : Shows u { db with missionTicks := ticks } db' := by
      rw [tryConsumeDedupe_eq_some hticks]
      exact { h with missionTicks := h.missionTicks.cons_other (decide_eq_false hu.symm) }
    cases hrun : tx.bumpMissionProgress { db with missionTicks := ticks } with
    | none => exact h
    | some db₁ => exact bumpMissionProgress_other hadded hu hrun

theorem task_other {tx : TaskTx} (hu : u ≠ tx.userId) : Shows u (tx.run db) db' := by
  unfold TaskTx.run
  split
  case h_1 => exact h
  case h_2 ticks hticks =>
    have hadded : Shows u { db with taskTicks := ticks } db' := by
      rw [tryConsumeDedupe_eq_some hticks]
      exact { h with taskTicks := h.taskTicks.cons_other (decide_eq_false hu.symm) }
    have hset (row : TaskProgress) :
        Shows u (tx.setProgress row { db with taskTicks := ticks }) db' :=
      { hadded with taskProgress := hadded.taskProgress.trans (setRow_other hu).symm }
    unfold TaskTx.bumpOneTask
    dsimp only
    split_ifs
    · exact hadded
    · exact hset _
    · exact hset _
    · exact hset _

end Other

/-! ## Transactions of the user -/

theorem setRow_own {α : Type} {rows rows' : ℕ → ℕ → String → Option α} {u o : ℕ} {p : String}
    {row : α} (h : rows' u = rows u) : setRow rows' u o p row u = setRow rows u o p row u := by
  funext o' p'
  unfold setRow
  rw [h]

theorem setEnrollment_own {rows rows' : ℕ → ℕ → Option ℤ} {u s : ℕ} {totalXp : ℤ}
    (h : rows' u = rows u) :
    setEnrollment rows' u s totalXp u = setEnrollment rows u s totalXp u := by
  funext s'
  unfold setEnrollment
  rw [h]

/-- The key is taken on both sides or on neither. -/
theorem tryConsumeDedupe_own {ticks ticks' : List Tick} {u o : ℕ} {key : String}
    (h : SameOwn (fun t => t.userId = u) ticks ticks')
    (hclear : ∀ t ∈ ticks, t.ownerId = o → t.dedupeKey = key → t.userId = u) :
    (tryConsumeDedupe ticks o key u = none ∧ tryConsumeDedupe ticks' o key u = none)
      ∨ (tryConsumeDedupe ticks o key u = some (⟨o, key, u⟩ :: ticks)
        ∧ tryConsumeDedupe ticks' o key u = some (⟨o, key, u⟩ :: ticks')) := by
  have hany := h.any (q := fun t => t.ownerId = o && t.dedupeKey = key) fun t ht hkey => by
    simp only [Bool.and_eq_true, decide_eq_true_eq] at hkey ⊢
    exact hclear t ht hkey.1 hkey.2
  unfold tryConsumeDedupe
  rw [hany]
  split
  · exact Or.inl ⟨rfl, rfl⟩
  · exact Or.inr ⟨rfl, rfl⟩

section Own

variable {u : ℕ} {db db' : Db} (h : Shows u db db')
include h

theorem setProgress_own {tx : MissionTx} (hu : tx.userId = u) (row : Progress) :
    Shows u (tx.setProgress row db) (tx.setProgress row db') := by
  subst hu
  exact { h with missionProgress := setRow_own h.missionProgress }

/-- Both transactions are rolled back, or both go through. -/
theorem applyMiniPassXp_own {tx : MissionTx} (hu : tx.userId = u) (amount : ℤ)
    (hclear : ∀ r ∈ db.xpLedger, r.idempotencyKey = tx.idempotencyKey → r.userId = u) :
    (tx.applyMiniPassXp amount db = none ∧ tx.applyMiniPassXp amount db' = none)
      ∨ ∃ e e', tx.applyMiniPassXp amount db = some e ∧ tx.applyMiniPassXp amount db' = some e'
        ∧ Shows u e e' := by
  subst hu
  have hany := h.xpLedger.any (q := fun r => r.idempotencyKey = tx.idempotencyKey)
    fun r hr hkey => decide_eq_true (hclear r hr (of_decide_eq_true hkey))
  unfold MissionTx.applyMiniPassXp
  rw [hany, h.enrollments]
  split_ifs
  · exact Or.inr ⟨_, _, rfl, rfl, h⟩
  · exact Or.inl ⟨rfl, rfl⟩
  · exact Or.inl ⟨rfl, rfl⟩
  · exact Or.inr ⟨_, _, rfl, rfl, { h with
      enrollments := setEnrollment_own h.enrollments
      xpLedger := h.xpLedger.cons _ }⟩

theorem completes_own {tx : MissionTx} (hu : tx.userId = u) :
    tx.completes db' = tx.completes db := by
  subst hu
  unfold MissionTx.completes
  rw [h.missionProgress]

theorem bumpMissionProgress_own {tx : MissionTx} (hu : tx.userId = u)
    (hclear : tx.completes db = true → 0 < tx.xpReward →
      ∀ r ∈ db.xpLedger, r.idempotencyKey = tx.idempotencyKey → r.userId = u) :
    (tx.bumpMissionProgress db = none ∧ tx.bumpMissionProgress db' = none)
      ∨ ∃ e e', tx.bumpMissionProgress db = some e ∧ tx.bumpMissionProgress db' = some e'
        ∧ Shows u e e' := by
  have hrow : db'.missionProgress tx.userId tx.mission.id tx.periodKey
      = db.missionProgress tx.userId tx.mission.id tx.periodKey := by
    rw [hu, h.missionProgress]
  unfold MissionTx.bumpMissionProgress
  simp only [completes_own h hu, hrow]
  split_ifs with htarget hcompletes hxp
  · exact Or.inr ⟨_, _, rfl, rfl, h⟩
  · exact Or.inr ⟨_, _, rfl, rfl, setProgress_own h hu _⟩
  · exact applyMiniPassXp_own (setProgress_own h hu _) hu tx.xpReward
      (hclear hcompletes (not_le.mp hxp))
  · exact Or.inr ⟨_, _, rfl, rfl, setProgress_own h hu _⟩

theorem mission_own {tx : MissionTx} (hu : tx.userId = u) (hclear : Clear u db (.mission tx)) :
    Shows u (tx.run db) (tx.run db') := by
  obtain ⟨hticks, hxp⟩ := hclear hu
  subst hu
  unfold MissionTx.run
  rcases tryConsumeDedupe_own h.missionTicks hticks with ⟨hnone, hnone'⟩ | ⟨hsome, hsome'⟩
  · rw [hnone, hnone']
    exact h
  · rw [hsome, hsome']
    have hadded : Shows tx.userId
        { db with missionTicks := ⟨tx.mission.id, tx.dedupeKey, tx.userId⟩ :: db.missionTicks }
        { db' with missionTicks := ⟨tx.mission.id, tx.dedupeKey, tx.userId⟩ :: db'.missionTicks } :=
      { h with missionTicks := h.missionTicks.cons _ }
    show Shows _ ((tx.bumpMissionProgress _).getD db) ((tx.bumpMissionProgress _).getD db')
    rcases bumpMissionProgress_own hadded rfl hxp with ⟨hnone, hnone'⟩ | ⟨e, e', he, he', hshows⟩
    · rw [hnone, hnone']
      exact h
    · rw [he, he']
      exact hshows

theorem task_own {tx : TaskTx} (hu : tx.userId = u) (hclear : Clear u db (.task tx)) :
    Shows u (tx.run db) (tx.run db') := by
  have hticks := hclear hu
  subst hu
  unfold TaskTx.run
  rcases tryConsumeDedupe_own h.taskTicks hticks with ⟨hnone, hnone'⟩ | ⟨hsome, hsome'⟩
  · rw [hnone, hnone']
    exact h
  · rw [hsome, hsome']
    have hadded : Shows tx.userId
        { db with taskTicks := ⟨tx.definition.id, tx.dedupeKey, tx.userId⟩ :: db.taskTicks }
        { db' with taskTicks := ⟨tx.definition.id, tx.dedupeKey, tx.userId⟩ :: db'.taskTicks } :=
      { h with taskTicks := h.taskTicks.cons _ }
    have hset (row : TaskProgress) : Shows tx.userId
        (tx.setProgress row
          { db with taskTicks := ⟨tx.definition.id, tx.dedupeKey, tx.userId⟩ :: db.taskTicks })
        (tx.setProgress row
          { db' with taskTicks := ⟨tx.definition.id, tx.dedupeKey, tx.userId⟩ :: db'.taskTicks }) :=
      { hadded with taskProgress := setRow_own hadded.taskProgress }
    show Shows _ (tx.bumpOneTask _) (tx.bumpOneTask _)
    unfold TaskTx.bumpOneTask
    simp only [h.taskProgress]
    split_ifs
    · exact hadded
    · exact hset _
    · exact hset _
    · exact hset _

end Own

/-! ## Runs -/

/-- The transactions of a notification are its user's. -/
theorem txs_userId (config : Config) (n : Notification) :
    ∀ tx ∈ txs config n, tx.userId = n.userId := by
  have hmissions (missionType : MissionType) (keep : Mission → Bool) (delta : ℚ) (key : String)
      (tx : Tx) (htx : tx ∈ missionTxs config n.userId n.now missionType keep delta key) :
      tx.userId = n.userId := by
    obtain ⟨season, -, hseason⟩ := List.mem_flatMap.mp htx
    split at hseason
    case isTrue =>
      obtain ⟨mission, -, rfl⟩ := List.mem_map.mp hseason
      rfl
    case isFalse => cases hseason
  have htasks (taskType : TaskType) (key : String) (delta : ℚ) (slug : Option String)
      (offerId : Option ℕ) (tx : Tx)
      (htx : tx ∈ bumpDailyTasksForUser config n.userId n.now taskType key delta slug offerId) :
      tx.userId = n.userId := by
    unfold bumpDailyTasksForUser at htx
    split at htx
    case isTrue => cases htx
    case isFalse =>
      obtain ⟨d, -, rfl⟩ := List.mem_map.mp htx
      rfl
  intro tx htx
  unfold txs notifyMiniPassGamePlayed notifyDailyTaskGamePlayed notifyMiniPassBlkReward
    notifyDailyTaskBlkMined notifyMiniPassLoginDay notifyDailyTaskLoginDay at htx
  cases hsignal : n.signal <;> simp only [hsignal] at htx <;>
    rcases List.mem_append.mp htx with hmission | htask
  all_goals first
    | split at hmission
      · cases hmission
      · exact hmissions _ _ _ _ tx hmission
    | split at htask
      · cases htask
      · exact htasks _ _ _ _ _ tx htask

theorem filter_flatMap_txs (config : Config) (u : ℕ) (ns : List Notification) :
    (ns.flatMap (txs config)).filter (fun tx => tx.userId = u)
      = (ns.filter fun n => n.userId = u).flatMap (txs config) := by
  induction ns with
  | nil => rfl
  | cons n ns ih =>
      rw [List.flatMap_cons, List.filter_append, ih]
      by_cases hn : n.userId = u
      · have hall : (txs config n).filter (fun tx => tx.userId = u) = txs config n :=
          List.filter_eq_self.mpr fun tx htx =>
            decide_eq_true ((txs_userId config n tx htx).trans hn)
        rw [hall, List.filter_cons_of_pos (by simp [hn]), List.flatMap_cons]
      · have hnone : (txs config n).filter (fun tx => tx.userId = u) = [] :=
          List.filter_eq_nil_iff.mpr fun tx htx heq =>
            hn ((txs_userId config n tx htx).symm.trans (of_decide_eq_true heq))
        rw [hnone, List.filter_cons_of_neg (by simp [hn]), List.nil_append]

theorem run_eq_foldl (is : List Tx) (db : Db) :
    sys.run db is = some (is.foldl (fun db tx => tx.run db) db) := by
  induction is generalizing db with
  | nil => rfl
  | cons tx is ih => exact ih (tx.run db)

/-- **Independence of progress.** Where every transaction of a user finds its
unique keys clear of the others, deleting the notifications of all others
changes nothing for the user. -/
theorem progress_independent (config : Config) (db : Db) (ns : List Notification) (u : ℕ)
    (hclear : sys.Meets (Clear u) db (ns.flatMap (txs config))) :
    view u (notifyAll config db (ns.filter fun n => n.userId = u))
      = view u (notifyAll config db ns) := by
  have hrefl : Shows u db db := ⟨rfl, rfl, rfl, .refl _, .refl _, .refl _⟩
  obtain ⟨t, ht, hshows⟩ := sys.run_unwinding (R := Shows u) (fun tx => tx.userId = u)
    (fun s s' tx t h hmine hstep => by
      obtain rfl := Option.some.inj hstep
      have hu : u ≠ tx.userId := fun heq => of_decide_eq_false hmine heq.symm
      cases tx with
      | mission tx => exact mission_other h hu
      | task tx => exact task_other h hu)
    (fun s s' tx t h hmine hC hstep => by
      obtain rfl := Option.some.inj hstep
      refine ⟨tx.run s', rfl, ?_⟩
      cases tx with
      | mission tx => exact mission_own h (of_decide_eq_true hmine) hC
      | task tx => exact task_own h (of_decide_eq_true hmine) hC)
    hrefl hclear (run_eq_foldl _ db)
  rw [filter_flatMap_txs, run_eq_foldl] at ht
  obtain rfl := Option.some.inj ht
  exact hshows.view_eq

/-- Nothing done yet. -/
def newDb : Db := ⟨[], fun _ _ _ => none, [], fun _ _ _ => none, fun _ _ => none, []⟩

/-- A mission and a task for the check-in, and a mission for games. -/
def january : Config where
  seasons := [{ id := 1, startsAt := 0, endsAt := 10 ^ 9, isActive := true, deletedAt := none
                missions := [⟨1, .EVENT, .LOGIN_DAY, 1, 50, none, true⟩,
                  ⟨2, .EVENT, .PLAY_GAMES, 2, 20, none, true⟩] }]
  definitions := [⟨1, .LOGIN_DAY, 1, none, none, true, none, none⟩]
  brazilDateKey := fun _ => "1970-01-01"

/-- User 1 checks in and user 2 plays. -/
def differentSignals : List Notification :=
  [⟨2, 0, .gamePlayed 7 none⟩, ⟨1, 0, .loginDay "1970-01-01"⟩, ⟨2, 0, .gamePlayed 8 none⟩]

theorem progress_independent_differentSignals :
    (view 2 (notifyAll january newDb differentSignals)).totalXp 1 = some 20
      ∧ view 2 (notifyAll january newDb (differentSignals.filter fun n => n.userId = 2))
        = view 2 (notifyAll january newDb differentSignals) :=
  ⟨by decide +kernel, progress_independent january newDb differentSignals 2 (by decide +kernel)⟩

/-- Both users check in on one day. -/
def sameDay : List Notification :=
  [⟨1, 0, .loginDay "1970-01-01"⟩, ⟨2, 0, .loginDay "1970-01-01"⟩]

/-- Both users complete the mission for games, each with games of its own. -/
def sameMission : List Notification :=
  [⟨1, 0, .gamePlayed 5 none⟩, ⟨1, 0, .gamePlayed 6 none⟩, ⟨2, 0, .gamePlayed 7 none⟩,
    ⟨2, 0, .gamePlayed 8 none⟩]

/-- The check-in of the other user costs the mission and the task of the day,
and the completed mission of the other user costs the experience. -/
theorem progress_dependent :
    (view 2 (notifyAll january newDb sameDay)).missionProgress 1 "__EVENT__" = none
      ∧ (view 2 (notifyAll january newDb sameDay)).taskProgress 1 "1970-01-01" = none
      ∧ (view 2 (notifyAll january newDb (sameDay.filter fun n => n.userId = 2))).missionProgress 1
        "__EVENT__" = some ⟨1, some 0⟩
      ∧ (view 2 (notifyAll january newDb (sameDay.filter fun n => n.userId = 2))).taskProgress 1
        "1970-01-01" = some ⟨1, some 0, none⟩
      ∧ (view 2 (notifyAll january newDb sameMission)).totalXp 1 = none
      ∧ (view 2 (notifyAll january newDb (sameMission.filter fun n => n.userId = 2))).totalXp 1
        = some 20 := by
  decide +kernel

end Missions

end BlockMiner
