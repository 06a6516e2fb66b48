import BlockMiner.MiniPass
import BlockMiner.TransactionRules

/-!
# The experience ledger

The experience of an enrollment and the ledger are two copies, written by two
statements of one transaction. `Moves` lists what each statement can do. The
difference of the copies is an account in which a call owes a grant between
its two writes (`balance`), and the idempotency keys are a unique index
(`idempotencyKeys`); the rules for these give the invariants in every
interleaving. A committed state only differs from the one before by a commit,
and the writes of a commit only add experience (`totalXp_mono`).
-/

namespace BlockMiner.MiniPass

open LevelRewards (Reward Catalog Delivery Holdings User fulfillMiniPassLevelReward)

variable (config : Config)

/-! ## The two copies -/

/-- The ledger rows of a user and a season, added up. -/
def ledgerTotal (db : Db) (u s : ℕ) : ℕ :=
  (db.xpLedger.map fun row => if row.userId = u ∧ row.seasonId = s then row.amount else 0).sum

theorem totalXp_setEnrollment (db : Db) (u s x u' s' : ℕ) :
    (setEnrollment db u s x).totalXp u' s' = if u' = u ∧ s' = s then x else db.totalXp u' s' := by
  unfold Db.totalXp setEnrollment
  simp only
  split <;> rfl

/-- The experience a write adds to an enrollment. -/
def gained (u s : ℕ) : Write → ℕ
  | .incrementXp u' s' n => if u = u' ∧ s = s' then n else 0
  | _ => 0

theorem totalXp_apply (db : Db) (w : Write) (u s : ℕ) :
    (apply db w).totalXp u s = db.totalXp u s + gained u s w := by
  cases w with
  | createEnrollment u' s' =>
      rw [apply, totalXp_setEnrollment]
      split
      case isTrue h => rw [h.1, h.2]; rfl
      case isFalse => rfl
  | incrementXp u' s' n =>
      rw [apply, totalXp_setEnrollment, gained]
      split
      case isTrue h => rw [h.1, h.2]
      case isFalse => rfl
  | completeProgress u' m k now =>
      simp only [apply]
      split <;> rfl
  | _ => rfl

/-- The pending writes only add experience. -/
theorem totalXp_view (db : Db) (tx : Tx Write Point) (u s : ℕ) :
    ((transactions config).view db tx).totalXp u s
      = db.totalXp u s + (tx.writes.map (gained u s)).sum := by
  obtain ⟨p, ws⟩ := tx
  show ((transactions config).applyAll db ws).totalXp u s = _ + (ws.map _).sum
  induction ws generalizing db with
  | nil => rfl
  | cons w ws ih =>
      rw [Transactions.applyAll_cons, ih, List.map_cons, List.sum_cons, ← add_assoc]
      exact congrArg (· + _) (totalXp_apply db w u s)

theorem xpLedger_apply (db : Db) (w : Write) :
    (apply db w).xpLedger
      = (match w with | .createLedger row => [row] | _ => []) ++ db.xpLedger := by
  cases w with
  | completeProgress u' m k now =>
      simp only [apply]
      split <;> rfl
  | _ => rfl

/-! ## The account -/

/-- By how much the ledger of `us` is ahead of its enrollment after a write. -/
def ahead (w : Write) (us : ℕ × ℕ) : ℤ :=
  match w with
  | .createLedger row => if row.userId = us.1 ∧ row.seasonId = us.2 then row.amount else 0
  | w => -gained us.1 us.2 w

/-- What a call still has to add to an enrollment. -/
def owed : Point → ℕ × ℕ → ℤ
  | .incrementXp call n _, us => if us.1 = call.userId ∧ us.2 = call.seasonId then n else 0
  | _, _ => 0

theorem owed_nextCall (calls : List XpCall) : owed (nextCall calls) = 0 := by
  induction calls with
  | nil => rfl
  | cons call rest ih =>
      rw [nextCall]
      split
      · exact ih
      · rfl

theorem owed_after (after : After) : owed after.next = 0 := by
  cases after with
  | calls rest => exact owed_nextCall rest
  | purchase sale => rfl

theorem owed_enrolled (next : Enrolled) : owed next.next = 0 := by
  cases next <;> rfl

theorem owed_applyMiniPassXp (call : XpCall) (after : After) :
    owed (applyMiniPassXp call after) = 0 := by
  unfold applyMiniPassXp
  split
  · exact owed_after after
  · rfl

theorem difference_apply (db : Db) (w : Write) (u s : ℕ) :
    (ledgerTotal (apply db w) u s : ℤ) - (apply db w).totalXp u s
      = ledgerTotal db u s - db.totalXp u s + ahead w (u, s) := by
  rw [totalXp_apply]
  have hledger : ledgerTotal (apply db w) u s = ledgerTotal db u s
      + (match w with
        | .createLedger row => if row.userId = u ∧ row.seasonId = s then row.amount else 0
        | _ => 0) := by
    rw [ledgerTotal, xpLedger_apply]
    cases w with
    | createLedger row => exact Nat.add_comm _ _
    | _ => rfl
  rw [hledger]
  cases w with
  | createLedger row =>
      simp only [ahead, gained]
      split
      · push_cast
        omega
      · push_cast
        omega
  | incrementXp u' s' n =>
      simp only [ahead]
      push_cast
      omega
  | _ => simp [ahead, gained]

def balance : (transactions config).Account (ℕ × ℕ → ℤ) where
  value db us := (ledgerTotal db us.1 us.2 : ℤ) - db.totalXp us.1 us.2
  change := ahead
  debt := owed
  value_apply db w := funext fun us => difference_apply db w us.1 us.2
  debt_start {r p} h := by
    cases r <;> obtain rfl := Option.some.inj h
    · exact owed_nextCall _
    · rfl
    · rfl
    · rfl
  settles h := by
    have hnone : ∀ p' ∈ (none : Option Point), owed p' = 0 := fun _ hp => nomatch hp
    cases step_moves config h with
    | failed => exact hnone
    | commits | commitsPurchase | commitsClaim => exact ⟨rfl, hnone⟩
    | foundSeason | unenrolled | unfinished | finished | completedBefore | buyer | priced
    | claimant | eligible => rfl
    | enrolled u s next => exact owed_enrolled next
    | ledgered call n after =>
        show owed (.incrementXp call n after) = owed _ + ahead _
        funext us
        simp [owed, ahead, ledgerRow, eq_comm]
    | incremented call n after =>
        show owed after.next = owed (.incrementXp call n after) + ahead _
        rw [owed_after]
        funext us
        simp only [owed, ahead, gained, Pi.add_apply, Pi.zero_apply]
        split <;> simp
    | enrolls u s next =>
        show owed next.next = 0 + ahead _
        rw [owed_enrolled]
        rfl
    | ticked bump =>
        show owed (ite _ _ _) = 0 + ahead _
        split <;> rfl
    | bumped | debited | claims | fulfills => rfl
    | completed bump now =>
        show owed (ite _ _ _) = 0 + ahead _
        split
        · rfl
        · rw [owed_applyMiniPassXp]
          rfl
    | numbered sale =>
        refine ⟨fun _ => rfl, fun p' hp => ?_⟩
        obtain rfl := Option.some.inj hp
        rfl
    | purchased sale id =>
        show owed (applyMiniPassXp _ _) = 0 + ahead _
        rw [owed_applyMiniPassXp]
        rfl

/-! ## The idempotency keys -/

def idempotencyKeys : (transactions config).UniqueIndex String where
  keys db := db.xpLedger.map LedgerRow.idempotencyKey
  entered
    | .createLedger row => [row.idempotencyKey]
    | _ => []
  lock := .idempotencyKey
  keys_apply db w := by
    show ((apply db w).xpLedger.map _).Perm _
    rw [xpLedger_apply, List.map_append]
    cases w <;> exact .refl _
  locked w k hk := by
    cases w with
    | createLedger row =>
        obtain rfl := List.mem_singleton.mp hk
        exact List.mem_singleton_self _
    | _ => cases hk
  admits h := by
    cases step_moves config h with
    | failed | commits | commitsPurchase | commitsClaim | foundSeason | enrolled | unenrolled
    | unfinished | finished | completedBefore | buyer | priced | claimant | eligible => trivial
    | ledgered call n after hnew =>
        refine ⟨List.nodup_singleton _, fun k hk hmem => ?_⟩
        obtain rfl := List.mem_singleton.mp hk
        obtain ⟨row, hrow, heq⟩ := List.mem_map.mp hmem
        exact hnew row hrow heq
    | incremented | enrolls | ticked | bumped | completed | debited | purchased | claims
    | fulfills => exact ⟨List.nodup_nil, fun _ hk => nomatch hk⟩
    | numbered => exact fun _ => rfl

/-! ## Steps -/

/-- Outside a commit, nothing becomes of the experience. -/
theorem totalXp_dbAfter {tx : Tx Write Point} {db : Db} {a : Answer} {next : Next Db Write Point}
    (h : step config tx.point ((transactions config).view db tx) a = some next)
    (hnext : next ≠ .commit none) (u s : ℕ) :
    ((transactions config).dbAfter db tx next).totalXp u s = db.totalXp u s := by
  have hmoves := step_moves config h
  obtain ⟨p, ws⟩ := tx
  cases next with
  | goto p | write w p | rollback next => rfl
  | put f next =>
      cases hmoves with
      | numbered sale => rfl
  | commit next => cases hmoves <;> exact absurd rfl hnext

/-- No step takes experience away. -/
theorem totalXp_after {tx : Tx Write Point} {db : Db} {a : Answer} {next : Next Db Write Point}
    (h : step config tx.point ((transactions config).view db tx) a = some next) (u s : ℕ) :
    db.totalXp u s ≤ ((transactions config).dbAfter db tx next).totalXp u s := by
  by_cases hnext : next = .commit none
  · subst hnext
    show _ ≤ ((transactions config).view db tx).totalXp u s
    rw [totalXp_view]
    exact Nat.le_add_right ..
  · exact (totalXp_dbAfter config h hnext u s).ge

theorem totalXp_mono {s s' : InFlight Db (Tx Write Point)} {e : Event Request Answer}
    (h : (transactions config).stepTx s e = some s') (u sid : ℕ) :
    s.db.totalXp u sid ≤ s'.db.totalXp u sid := by
  cases e with
  | start r => rw [((transactions config).step_start h).1]
  | resume call a =>
      obtain ⟨tx, next, hrow, -, hstep, rfl⟩ := (transactions config).step_resume h
      exact totalXp_after config hstep u sid

theorem computePassLevel_mono {x y : ℕ} (h : x ≤ y) (xpPerLevel maxLevel : ℕ) :
    computePassLevel x xpPerLevel maxLevel ≤ computePassLevel y xpPerLevel maxLevel := by
  have hdiv := Nat.div_le_div_right (c := max 1 xpPerLevel) h
  unfold computePassLevel
  omega

/-- The call is still there after the step. -/
def stillRuns (s' : InFlight Db (Tx Write Point)) : Event Request Answer → Prop
  | .start _ => False
  | .resume call _ => s'.calls.row call ≠ none

/-- A call finds its idempotency key taken. -/
def reportsDuplicate (s : InFlight Db (Tx Write Point)) : Event Request Answer → Prop
  | .start _ => False
  | .resume call a => a ≠ .error ∧ ∃ tx, s.calls.row call = some tx ∧ ∃ xpCall n after,
      tx.point = .createLedger xpCall n after
        ∧ ∃ row ∈ ((transactions config).view s.db tx).xpLedger,
            row.idempotencyKey = xpCall.idempotencyKey

theorem totalXp_still {s s' : InFlight Db (Tx Write Point)} {e : Event Request Answer}
    (h : (transactions config).stepTx s e = some s') (he : stillRuns s' e) (u sid : ℕ) :
    s'.db.totalXp u sid = s.db.totalXp u sid := by
  cases e with
  | start r => cases he
  | resume call a =>
      obtain ⟨tx, next, hrow, -, hstep, rfl⟩ := (transactions config).step_resume h
      refine totalXp_dbAfter config hstep ?_ u sid
      rintro rfl
      refine he ?_
      show (s.calls.delete call).row call = none
      rw [Table.delete_row, if_pos rfl]

theorem totalXp_duplicate {s s' : InFlight Db (Tx Write Point)} {e : Event Request Answer}
    (h : (transactions config).stepTx s e = some s') (he : reportsDuplicate config s e)
    (u sid : ℕ) : s'.db.totalXp u sid = s.db.totalXp u sid := by
  cases e with
  | start r => cases he
  | resume call a =>
      obtain ⟨tx, next, hrow, -, hstep, rfl⟩ := (transactions config).step_resume h
      refine totalXp_dbAfter config hstep ?_ u sid
      rintro rfl
      obtain ⟨-, tx', hrow', xpCall, n, after, hp, -⟩ := he
      obtain rfl := Option.some.inj (hrow.symm.trans hrow')
      rw [hp] at hstep
      cases step_moves config hstep

/-! ## Runs -/

/-- The enrollments hold what the ledger adds up to, under distinct keys. -/
structure Ledgered (db : Db) : Prop where
  totals : ∀ u s, db.totalXp u s = ledgerTotal db u s
  keys : (db.xpLedger.map LedgerRow.idempotencyKey).Nodup

/-- **Integrity of the ledger.** In every committed state every enrollment has
the sum of its ledger rows and no idempotency key occurs twice; no step takes
experience or levels away, and only commits add any, of calls that have not
found their key taken. -/
theorem ledger_integrity {db : Db} (hdb : Ledgered db) {es : List (Event Request Answer)}
    {t : InFlight Db (Tx Write Point)}
    (hrun : (transactions config).sys.run (Transactions.idle db) es = some t) :
    Ledgered t.db ∧ ∀ e t', (transactions config).stepTx t e = some t' →
      (∀ u s, t.db.totalXp u s ≤ t'.db.totalXp u s
        ∧ ∀ season, userLevel t.db u s season ≤ userLevel t'.db u s season)
      ∧ (stillRuns t' e ∨ reportsDuplicate config t e →
        ∀ u s, t'.db.totalXp u s = t.db.totalXp u s) := by
  have hbalance := ((balance config).value_run hrun).db
  have hkeys := ((idempotencyKeys config).distinct_run hdb.keys hrun).db
  refine ⟨⟨fun u s => ?_, hkeys⟩, fun e t' h => ⟨fun u s => ?_, ?_⟩⟩
  · have heq : (ledgerTotal t.db u s : ℤ) - t.db.totalXp u s
        = ledgerTotal db u s - db.totalXp u s := congrFun hbalance (u, s)
    have hstart := hdb.totals u s
    omega
  · have hle := totalXp_mono config h u s
    exact ⟨hle, fun season => computePassLevel_mono hle _ _⟩
  · rintro (hstill | hduplicate) u s
    · exact totalXp_still config h hstill u s
    · exact totalXp_duplicate config h hduplicate u s

/-- One season of ten levels. -/
def oneSeason : Config where
  seasons s :=
    if s = 1 then
      some { startsAt := 0, endsAt := 100, maxLevel := 10, xpPerLevel := 100,
             buyLevelPricePol := 1, completePassPricePol := 5, isActive := true, deletedAt := none }
    else none
  levelRewards := []
  catalog := ⟨fun _ => none, fun _ => none⟩
  seasons_zero := rfl
  levelRewards_nodup := List.nodup_nil

/-- Users 1 and 2 with 10 POL each. -/
def twoUsers : Db where
  holdings :=
    { users := fun u => if u = 1 ∨ u = 2 then some ⟨false, 10, 0⟩ else none
      inventory := []
      powerGames := [] }
  enrollments _ _ := none
  xpLedger := []
  dedupeTicks := []
  progress _ _ _ := none
  purchases := .empty
  claims := []
  fulfilled := []

theorem twoUsers_ledgered : Ledgered twoUsers := ⟨fun _ _ => rfl, List.nodup_nil⟩

def bonus : XpCall where
  userId := 1
  seasonId := 1
  amount := .finite 30
  source := "MISSION"
  idempotencyKey := "bonus"
  missionId := none
  periodKey := none

/-- The bonus is granted once and asked for again, and a level is bought. -/
def grantedAndBought : List (Event Request Answer) :=
  .start (.applyMiniPassXp [bonus]) :: List.replicate 6 (.resume 1 (.ok 5))
    ++ .start (.applyMiniPassXp [bonus]) :: List.replicate 3 (.resume 2 (.ok 6))
    ++ .start (.purchase ⟨1, 1, some (.finite 1)⟩) :: List.replicate 11 (.resume 3 (.ok 7))

theorem ledger_integrity_bought :
    ∃ t, (transactions oneSeason).sys.run (Transactions.idle twoUsers) grantedAndBought = some t
      ∧ t.db.totalXp 1 1 = 130 ∧ Ledgered t.db := by
  have hrun : ∃ t ∈ (transactions oneSeason).sys.run (Transactions.idle twoUsers) grantedAndBought,
      t.db.totalXp 1 1 = 130 := by
    decide +kernel
  obtain ⟨t, hrun, hxp⟩ := hrun
  exact ⟨t, hrun, hxp, (ledger_integrity oneSeason twoUsers_ledgered hrun).1⟩

end BlockMiner.MiniPass
