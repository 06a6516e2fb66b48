import BlockMiner.EngineFacts
import BlockMiner.TransactionRules
import BlockMiner.WithdrawalRequests
import Mathlib.Tactic.Abel
import Mathlib.Tactic.Linarith

/-!
# What a withdrawal request reserves

`Owes` says which writes a call has pending at each point, and `Effect` sums
up its steps: those that change nothing, those that move the engine, and the
two commits. From these, for every run:

- a creation conserves the balance plus what open withdrawals reserve
  (`created_reserved`), with no condition;
- the engine has moved by what was committed and by what the calls in flight
  have already put into it (`InStep`), if every move is followed by its commit;
- no user has two pending withdrawals (`OnePending`), if none has become
  pending since the check.

`Lawful` is the condition for the last two.
-/

namespace BlockMiner.WithdrawalRequests

open Withdrawal (Address Status Row)

variable (runtimeSet : Bool)

/-! ## Pending writes and effects -/

/-- The writes a call has made at each point. -/
def Owes (tx : Tx Write Point) : Prop :=
  match tx.point with
  | .createRow u amount _ => tx.writes = [.debit u amount]
  | .createDelta u amount | .createCommit u amount =>
      ∃ address, tx.writes = [.debit u amount, .create u amount address]
  | .refundUser id status row =>
      ∃ txHash now, tx.writes = [.setStatus id status txHash row now]
  | .refundDelta id status row | .updateCommit id status (some row) =>
      ∃ txHash now, tx.writes = [.setStatus id status txHash row now, .refund row]
  | .updateCommit id status none =>
      ∃ txHash row now, tx.writes = [.setStatus id status txHash row now]
  | _ => tx.writes = []

/-- What a call has already moved in the engine. -/
def moved : Point → Option (UserId × ℚ)
  | .createCommit u amount => some (u, -amount)
  | .updateCommit _ _ (some row) => some (row.userId, row.amount)
  | _ => none

/-- What a step of call `tx` makes of the wallet and of the call. -/
inductive Effect (w : Wallet) (tx : Tx Write Point) (a : Answer) :
    Wallet → Option (Tx Write Point) → Prop
  | quiet (tx' : Tx Write Point) (hm : moved tx.point = none) (hm' : moved tx'.point = none)
      (ho : Owes tx') : Effect w tx a w (some tx')
  | ended (hm : moved tx.point = none) : Effect w tx a w none
  | failed (he : a = .error) : Effect w tx a w none
  | moved (u : UserId) (delta : ℚ) (p : Point) (hm : moved tx.point = none)
      (hp : moved p = some (u, delta)) (ho : Owes ⟨p, tx.writes⟩) :
      Effect w tx a (moveEngine runtimeSet u delta w) (some ⟨p, tx.writes⟩)
  | created (u : UserId) (amount : ℚ) (address : Address) (hp : tx.point = .createCommit u amount)
      (ha : a ≠ .error) :
      Effect w tx a { w with db := createRow (addBalance w.db u (-amount)) u amount address } none
  | updated (id : ℕ) (status : Status) (txHash : Option ℕ) (row : Row) (now : ℕ)
      (hp : tx.point = .updateCommit id status none) (ha : a ≠ .error) :
      Effect w tx a { w with db := setStatus w.db id status txHash row now } none
  | refunded (id : ℕ) (status : Status) (txHash : Option ℕ) (row : Row) (now : ℕ)
      (hp : tx.point = .updateCommit id status (some row)) (ha : a ≠ .error) :
      Effect w tx a
        { w with db := addBalance (setStatus w.db id status txHash row now) row.userId row.amount }
        none

/-- **Inversion.** Every step of a call has one of the effects. -/
theorem step_effect {w : Wallet} {tx : Tx Write Point} {a : Answer}
    {next : Next Wallet Write Point} (ho : Owes tx)
    (h : step runtimeSet tx.point ((transactions runtimeSet).view w tx) a = some next) :
    Effect runtimeSet w tx a ((transactions runtimeSet).dbAfter w tx next) (tx.after next) := by
  obtain ⟨p, ws⟩ := tx
  cases a with
  | error =>
      cases p with
      | createDelta | refundDelta => cases h
      | _ =>
          obtain rfl := Option.some.inj h
          exact .failed rfl
  | ok now =>
      have hok : Answer.ok now ≠ .error := by
        intro hok
        cases hok
      cases p with
      | findPending u amount address =>
          obtain rfl : ws = [] := ho
          simp only [step] at h
          split at h <;> obtain rfl := Option.some.inj h
          · exact .ended rfl
          · exact .quiet _ rfl rfl rfl
      | findUser u amount address =>
          obtain rfl : ws = [] := ho
          simp only [step] at h
          split at h <;> obtain rfl := Option.some.inj h
          · exact .ended rfl
          · exact .quiet _ rfl rfl rfl
      | debitUser u amount address =>
          obtain rfl : ws = [] := ho
          obtain rfl := Option.some.inj h
          exact .quiet _ rfl rfl rfl
      | createRow u amount address =>
          obtain rfl : ws = [.debit u amount] := ho
          obtain rfl := Option.some.inj h
          exact .quiet _ rfl rfl ⟨address, rfl⟩
      | createDelta u amount =>
          obtain rfl := Option.some.inj h
          exact .moved u (-amount) (.createCommit u amount) rfl rfl ho
      | createCommit u amount =>
          obtain ⟨address, rfl⟩ : ∃ address, ws = _ := ho
          obtain rfl := Option.some.inj h
          exact .created u amount address rfl hok
      | findTransaction id status txHash =>
          obtain rfl : ws = [] := ho
          simp only [step] at h
          split at h <;> obtain rfl := Option.some.inj h
          · exact .quiet _ rfl rfl rfl
          · exact .quiet _ rfl rfl rfl
      | updateTransaction id status txHash row =>
          obtain rfl : ws = [] := ho
          obtain rfl := Option.some.inj h
          cases hdue : Withdrawal.Db.refundDue status row with
          | true => exact .quiet ⟨.refundUser id status row, _⟩ rfl rfl ⟨txHash, now, rfl⟩
          | false => exact .quiet ⟨.updateCommit id status none, _⟩ rfl rfl ⟨txHash, row, now, rfl⟩
      | refundUser id status row =>
          obtain ⟨txHash, now', rfl⟩ : ∃ txHash now', ws = _ := ho
          obtain rfl := Option.some.inj h
          exact .quiet _ rfl rfl ⟨txHash, now', rfl⟩
      | refundDelta id status row =>
          obtain rfl := Option.some.inj h
          exact .moved row.userId row.amount (.updateCommit id status (some row)) rfl rfl ho
      | updateCommit id status refunded =>
          cases refunded with
          | none =>
              obtain ⟨txHash, row, now', rfl⟩ : ∃ txHash row now', ws = _ := ho
              obtain rfl := Option.some.inj h
              exact .updated id status txHash row now' rfl hok
          | some row =>
              obtain ⟨txHash, now', rfl⟩ : ∃ txHash now', ws = _ := ho
              obtain rfl := Option.some.inj h
              exact .refunded id status txHash row now' rfl hok
      | done =>
          obtain rfl : ws = [] := ho
          obtain rfl := Option.some.inj h
          exact .ended rfl

/-- A call owes the writes of its new point. -/
theorem Effect.owes {w w' : Wallet} {tx tx' : Tx Write Point} {a : Answer}
    (h : Effect runtimeSet w tx a w' (some tx')) : Owes tx' := by
  cases h with
  | quiet tx'' hm hm' ho => exact ho
  | moved u delta p hm hp ho => exact ho

theorem owes_step {s s' : InFlight Wallet (Tx Write Point)} {e : Event Request Answer}
    (hs : (transactions runtimeSet).Holds (fun _ => True) (fun _ => Owes) s)
    (h : (transactions runtimeSet).stepTx s e = some s') :
    (transactions runtimeSet).Holds (fun _ => True) (fun _ => Owes) s' := by
  refine (transactions runtimeSet).kept_step ?_ ?_ ?_ hs h
  · intro db r p _ hr
    cases r <;> cases hr <;> rfl
  · intro w tx a next _ ho hstep
    refine ⟨trivial, fun tx' htx' => ?_⟩
    have heffect := step_effect runtimeSet ho hstep
    rw [htx'] at heffect
    exact heffect.owes
  · exact fun _ _ _ _ _ _ _ _ ho _ => ho

/-- In every run the calls owe what their points say. -/
theorem owes_run {w : Wallet} {t : InFlight Wallet (Tx Write Point)}
    {es : List (Event Request Answer)}
    (hrun : (transactions runtimeSet).sys.run (Transactions.idle w) es = some t) :
    (transactions runtimeSet).Holds (fun _ => True) (fun _ => Owes) t :=
  (transactions runtimeSet).sys.run_kept (fun _ _ _ hs h => owes_step runtimeSet hs h)
    ((transactions runtimeSet).holds_idle trivial) hrun

/-! ## Creations -/

/-- What the open withdrawals of a user reserve. -/
def reserved (db : Withdrawal.Db) (u : UserId) : ℚ :=
  db.transactions.sum fun _ r => if r.userId = u ∧ r.status.isOpen then r.amount else 0

theorem reserved_createRow (db : Withdrawal.Db) (u : UserId) (amount : ℚ) (address : Address)
    (v : UserId) :
    reserved (createRow db u amount address) v
      = reserved db v + if u = v then amount else 0 := by
  rw [reserved, createRow, Table.sum_insert]
  simp [reserved, Status.isOpen]

theorem addBalance_polBalance (db : Withdrawal.Db) (u : UserId) (delta : ℚ) (v : UserId) :
    (addBalance db u delta).polBalance v = db.polBalance v + if u = v then delta else 0 := by
  show Function.update db.polBalance u _ v = _
  rw [Function.update_apply]
  by_cases h : v = u
  · rw [if_pos h, if_pos h.symm, h]
  · rw [if_neg h, if_neg (Ne.symm h), add_zero]

/-- The statements of a creation make the row of the withdrawal model. -/
theorem createRow_addBalance (db : Withdrawal.Db) (u : UserId) (amount : ℚ) (address : Address) :
    createRow (addBalance db u (-amount)) u amount address = db.createCommit u amount address := by
  simp only [createRow, addBalance, Withdrawal.Db.createCommit, ← sub_eq_add_neg]

/-- The call that moves is a creation. -/
def creating (s : InFlight Wallet (Tx Write Point)) : Event Request Answer → Prop
  | .start _ => False
  | .resume call _ => ∃ tx, s.calls.row call = some tx ∧
      match tx.point with
      | .findPending _ _ _ | .findUser _ _ _ | .debitUser _ _ _ | .createRow _ _ _
      | .createDelta _ _ | .createCommit _ _ => True
      | _ => False

/-- Every step of a creation, its commit and its failures among them, leaves
what a user has and what is reserved for it as they were together. -/
theorem created_reserved {s s' : InFlight Wallet (Tx Write Point)} {e : Event Request Answer}
    (hs : (transactions runtimeSet).Holds (fun _ => True) (fun _ => Owes) s)
    (hc : creating s e) (h : (transactions runtimeSet).stepTx s e = some s') (v : UserId) :
    s'.db.db.polBalance v + reserved s'.db.db v = s.db.db.polBalance v + reserved s.db.db v := by
  cases e with
  | start r => cases hc
  | resume call a =>
      obtain ⟨tx, next, hrow, -, hstep, rfl⟩ := (transactions runtimeSet).step_resume h
      obtain ⟨tx', hrow', hc⟩ := hc
      obtain rfl := Option.some.inj (hrow.symm.trans hrow')
      have heffect := step_effect runtimeSet (hs.calls call tx hrow) hstep
      generalize (transactions runtimeSet).dbAfter s.db tx next = w' at heffect ⊢
      generalize tx.after next = next' at heffect
      cases heffect with
      | quiet | ended | failed | moved => rfl
      | created u amount address hp ha =>
          show (addBalance s.db.db u (-amount)).polBalance v
            + reserved (createRow _ u amount address) v = _
          rw [reserved_createRow, addBalance_polBalance]
          show _ + (reserved s.db.db v + _) = _
          split
          · ring
          · ring
      | updated id status txHash row now hp ha => simp only [hp] at hc
      | refunded id status txHash row now hp ha => simp only [hp] at hc

/-! ## The engine -/

def engineBalance (w : Wallet) (u : UserId) : Option ℚ :=
  (w.engine.findMinerByUserId u).map (·.balance)

theorem engineBalance_move {w : Wallet} {v : UserId} {b : ℚ} (h : engineBalance w v = some b)
    (u : UserId) (delta : ℚ) :
    engineBalance (moveEngine runtimeSet u delta w) v
      = some (b + if runtimeSet = true ∧ u = v then delta else 0) := by
  obtain ⟨m, hm, rfl⟩ := Option.map_eq_some_iff.mp h
  obtain ⟨hminer, hv⟩ := Engine.find_eq_some_iff.mp hm
  unfold engineBalance moveEngine Engine.applyUserBalanceDelta
  cases runtimeSet with
  | false => simp [hm]
  | true =>
      by_cases huv : u = v
      · subst huv
        simp [hm, Engine.find_modifyMiner hminer, hv, Engine.shifted]
      · cases hu : w.engine.findMinerByUserId u with
        | none => simp [hm, huv]
        | some m' =>
            obtain ⟨hminer', hu'⟩ := Engine.find_eq_some_iff.mp hu
            simp [Engine.find_modifyMiner hminer', hu', Ne.symm huv, huv, hm]

/-- What a call has moved in the engine for a user, and not yet committed. -/
def ahead (v : UserId) (tx : Tx Write Point) : ℚ :=
  (moved tx.point).elim 0 fun m => if runtimeSet = true ∧ m.1 = v then m.2 else 0

/-- Since `w`, the engine has moved the loaded miners by what was committed
and by what the calls in flight are ahead. -/
def InStep (w : Wallet) (s : InFlight Wallet (Tx Write Point)) : Prop :=
  ∀ v b, engineBalance w v = some b →
    engineBalance s.db v = some (b + (s.db.db.polBalance v - w.db.polBalance v)
      + s.calls.sum fun _ => ahead runtimeSet v)

/-- A move of the engine that the commit confirms, or that moves nothing. -/
def Confirmed (w : Wallet) (a : Answer) (m : UserId × ℚ) : Prop :=
  m.2 = 0 ∨ w.engine.findMinerByUserId m.1 = none ∨ (runtimeSet = true ↔ a ≠ .error)

/-- No other row becomes a second pending one through this commit. -/
def Admitted (w : Wallet) : Point → Prop
  | .createCommit u _ => findPending w u = none
  | .updateCommit id status _ => ∀ r ∈ w.db.transactions.row id, status = .pending →
      w.db.transactions.findFirst
        (fun i r' => i ≠ id ∧ r'.userId = r.userId ∧ r'.status = .pending) = none
  | _ => True

instance (w : Wallet) : ∀ p, Decidable (Admitted w p)
  | .createCommit _ _ => inferInstanceAs (Decidable (_ = none))
  | .updateCommit id status _ =>
      inferInstanceAs (Decidable (∀ r ∈ w.db.transactions.row id, status = .pending → _ = none))
  | .findPending _ _ _ | .findUser _ _ _ | .debitUser _ _ _ | .createRow _ _ _ | .createDelta _ _
  | .findTransaction _ _ _ | .updateTransaction _ _ _ _ | .refundUser _ _ _ | .refundDelta _ _ _
  | .done => inferInstanceAs (Decidable True)

instance (w : Wallet) (a : Answer) (m : UserId × ℚ) : Decidable (Confirmed runtimeSet w a m) :=
  inferInstanceAs (Decidable (_ ∨ _ = none ∨ (_ ↔ _)))

/-- The condition on the steps. -/
def Lawful (w : Wallet) (tx : Tx Write Point) (a : Answer) : Prop :=
  (∀ m ∈ moved tx.point, Confirmed runtimeSet w a m) ∧ (a ≠ .error → Admitted w tx.point)

instance (w : Wallet) (tx : Tx Write Point) (a : Answer) : Decidable (Lawful runtimeSet w tx a) :=
  inferInstanceAs (Decidable ((∀ m ∈ moved tx.point, _) ∧ (_ → _)))

theorem ahead_of_none {tx : Tx Write Point} (h : moved tx.point = none) (v : UserId) :
    ahead runtimeSet v tx = 0 := by
  rw [ahead, h, Option.elim_none]

/-- For a loaded miner, a call at its commit is ahead by what it commits, and
by nothing when the commit fails. -/
theorem ahead_of_confirmed {w : Wallet} {tx : Tx Write Point} {a : Answer} {u v : UserId}
    {delta b : ℚ} (hm : moved tx.point = some (u, delta))
    (hc : Confirmed runtimeSet w a (u, delta)) (hv : engineBalance w v = some b) :
    ahead runtimeSet v tx = if a ≠ .error ∧ u = v then delta else 0 := by
  rw [ahead, hm, Option.elim_some]
  rcases hc with rfl | hnone | hiff
  · simp
  · have hne : u ≠ v := by
      rintro rfl
      obtain ⟨m, hsome, -⟩ := Option.map_eq_some_iff.mp hv
      exact absurd (hsome.symm.trans hnone) (by simp)
    simp [hne]
  · exact if_congr (and_congr_left' hiff) rfl rfl

theorem inStep_step {w : Wallet} {s s' : InFlight Wallet (Tx Write Point)}
    {e : Event Request Answer}
    (hs : (transactions runtimeSet).Holds (fun _ => True) (fun _ => Owes) s)
    (hin : InStep runtimeSet w s) (hC : Transactions.Guard (Lawful runtimeSet) s e)
    (h : (transactions runtimeSet).stepTx s e = some s') : InStep runtimeSet w s' := by
  intro v b hb
  have hv := hin v b hb
  cases e with
  | start r =>
      rw [((transactions runtimeSet).step_start h).1, (transactions runtimeSet).sum_start h]
      · exact hv
      · intro p hp
        cases r <;> cases hp <;> rfl
  | resume call a =>
      obtain ⟨tx, next, hrow, -, hstep, rfl⟩ := (transactions runtimeSet).step_resume h
      have heffect := step_effect runtimeSet (hs.calls call tx hrow) hstep
      have hlawful := (hC tx hrow).1
      show engineBalance ((transactions runtimeSet).dbAfter s.db tx next) v = _
      dsimp only
      rw [Service.sum_advance hrow]
      generalize (transactions runtimeSet).dbAfter s.db tx next = w' at heffect ⊢
      generalize tx.after next = next' at heffect ⊢
      cases heffect with
      | quiet tx' hm hm' ho =>
          rw [hv, ahead_of_none _ hm, Option.elim_some, ahead_of_none _ hm', sub_zero, add_zero]
      | ended hm => rw [hv, ahead_of_none _ hm, Option.elim_none, sub_zero, add_zero]
      | failed he =>
          have hzero : ahead runtimeSet v tx = 0 := by
            cases hm : moved tx.point with
            | none => exact ahead_of_none _ hm v
            | some m => simpa [he] using ahead_of_confirmed runtimeSet hm (hlawful m hm) hv
          rw [hv, hzero, Option.elim_none, sub_zero, add_zero]
      | moved u delta p hm hp ho =>
          rw [engineBalance_move runtimeSet hv, ahead_of_none _ hm, Option.elim_some, ahead, hp,
            Option.elim_some]
          show _ = some (b + (s.db.db.polBalance v - _) + _)
          congr 1
          ring
      | created u amount address hp ha =>
          have hm : moved tx.point = some (u, -amount) := by rw [hp]; rfl
          rw [ahead_of_confirmed runtimeSet hm (hlawful _ hm) hv, Option.elim_none]
          show engineBalance s.db v = some (b + ((addBalance _ u (-amount)).polBalance v - _) + _)
          rw [hv, addBalance_polBalance]
          simp only [ha, ne_eq, not_false_eq_true, true_and]
          congr 1
          ring
      | updated id status txHash row now hp ha =>
          have hm : moved tx.point = none := by rw [hp]; rfl
          rw [ahead_of_none _ hm, Option.elim_none, sub_zero, add_zero]
          exact hv
      | refunded id status txHash row now hp ha =>
          have hm : moved tx.point = some (row.userId, row.amount) := by rw [hp]; rfl
          rw [ahead_of_confirmed runtimeSet hm (hlawful _ hm) hv, Option.elim_none]
          show engineBalance s.db v = some
            (b + ((addBalance (setStatus _ id status txHash row now) _ _).polBalance v - _) + _)
          rw [hv, addBalance_polBalance]
          simp only [ha, ne_eq, not_false_eq_true, true_and]
          show _ = some (b + (s.db.db.polBalance v + _ - _) + _)
          congr 1
          ring

/-! ## Pending withdrawals -/

/-- No user has two pending withdrawals. -/
def OnePending (db : Withdrawal.Db) : Prop :=
  ∀ i j r r', db.transactions.row i = some r → db.transactions.row j = some r' →
    r.userId = r'.userId → r.status = .pending → r'.status = .pending → i = j

theorem not_pending_of_findPending {w : Wallet} {u : UserId} (h : findPending w u = none) {i : ℕ}
    {r : Row} (hrow : w.db.transactions.row i = some r) (hu : r.userId = u) :
    r.status ≠ .pending := by
  intro hstatus
  have hnone := Table.findFirst_eq_none.mp h i r hrow
  simp [hu, hstatus] at hnone

theorem onePending_create {w : Wallet} {u : UserId} (hone : OnePending w.db)
    (h : findPending w u = none) (amount : ℚ) (address : Address) :
    OnePending (createRow (addBalance w.db u (-amount)) u amount address) := by
  intro i j r r' hi hj huser hr hr'
  rcases Table.insert_row_eq_some.mp hi with ⟨rfl, rfl⟩ | hi
  · rcases Table.insert_row_eq_some.mp hj with ⟨rfl, -⟩ | hj
    · rfl
    · exact absurd hr' (not_pending_of_findPending h hj huser.symm)
  · rcases Table.insert_row_eq_some.mp hj with ⟨rfl, rfl⟩ | hj
    · exact absurd hr (not_pending_of_findPending h hi huser)
    · exact hone i j r r' hi hj huser hr hr'

theorem onePending_setStatus {w : Wallet} {id : ℕ} {status : Status} {refunded : Option Row}
    (hone : OnePending w.db) (h : Admitted w (.updateCommit id status refunded))
    (txHash : Option ℕ) (row : Row) (now : ℕ) :
    OnePending (setStatus w.db id status txHash row now) := by
  -- a row that is made pending against one that was pending before
  have hother : ∀ {j r r'}, w.db.transactions.row id = some r → j ≠ id →
      w.db.transactions.row j = some r' → r'.userId = r.userId → status = .pending →
      r'.status ≠ .pending := by
    intro j r r' hid hne hj huser hstatus hr'
    have hnone := Table.findFirst_eq_none.mp (h r hid hstatus) j r' hj
    simp [hne, huser, hr'] at hnone
  intro i j r r' hi hj huser hr hr'
  rcases Table.modify_row_eq_some.mp hi with ⟨rfl, r₀, hi', rfl⟩ | ⟨hine, hi'⟩
  · rcases Table.modify_row_eq_some.mp hj with ⟨rfl, -⟩ | ⟨hjne, hj'⟩
    · rfl
    · exact absurd hr' (hother hi' hjne hj' huser.symm hr)
  · rcases Table.modify_row_eq_some.mp hj with ⟨rfl, r₀, hj', rfl⟩ | ⟨hjne, hj'⟩
    · exact absurd hr (hother hj' hine hi' huser hr')
    · exact hone i j r r' hi' hj' huser hr hr'

theorem onePending_step {s s' : InFlight Wallet (Tx Write Point)} {e : Event Request Answer}
    (hs : (transactions runtimeSet).Holds (fun _ => True) (fun _ => Owes) s)
    (hone : OnePending s.db.db) (hC : Transactions.Guard (Lawful runtimeSet) s e)
    (h : (transactions runtimeSet).stepTx s e = some s') : OnePending s'.db.db := by
  cases e with
  | start r => exact ((transactions runtimeSet).step_start h).1 ▸ hone
  | resume call a =>
      obtain ⟨tx, next, hrow, -, hstep, rfl⟩ := (transactions runtimeSet).step_resume h
      have heffect := step_effect runtimeSet (hs.calls call tx hrow) hstep
      have hadmitted : a ≠ .error → Admitted s.db tx.point := (hC tx hrow).2
      generalize (transactions runtimeSet).dbAfter s.db tx next = w' at heffect ⊢
      generalize tx.after next = next' at heffect
      cases heffect with
      | quiet | ended | failed | moved => exact hone
      | created u amount address hp ha =>
          rw [hp] at hadmitted
          exact onePending_create hone (hadmitted ha) amount address
      | updated id status txHash row now hp ha =>
          rw [hp] at hadmitted
          exact onePending_setStatus hone (hadmitted ha) txHash row now
      | refunded id status txHash row now hp ha =>
          rw [hp] at hadmitted
          exact onePending_setStatus hone (hadmitted ha) txHash row now

/-! ## Runs -/

/-- One user with 100 POL, in the table and in the engine. -/
def oneUser : Wallet where
  db := ⟨.empty, fun _ => 100⟩
  engine := ((Engine.new 0).createOrGetMiner 7
    ⟨1, none, none, some { balance := some 100 }⟩).getD (.new 0)

theorem oneUser_onePending : OnePending oneUser.db :=
  fun _ _ _ _ hi => (nomatch hi)

/-- A withdrawal, a second request that finds it pending, and its refund. -/
def requestedAndFailed : List (Event Request Answer) :=
  [.start (.createWithdrawal 1 50 9), .resume 1 (.ok 0), .resume 1 (.ok 0), .resume 1 (.ok 0),
    .resume 1 (.ok 0), .resume 1 (.ok 0), .resume 1 (.ok 0), .start (.createWithdrawal 1 20 9),
    .resume 2 (.ok 1), .start (.updateTransactionStatus 1 .failed none), .resume 3 (.ok 2),
    .resume 3 (.ok 2), .resume 3 (.ok 2), .resume 3 (.ok 2), .resume 3 (.ok 2)]

/-- Two requests look for a pending withdrawal before either creates its own. -/
def requestedTwice : List (Event Request Answer) :=
  [.start (.createWithdrawal 1 50 9), .start (.createWithdrawal 1 50 9), .resume 1 (.ok 0),
    .resume 2 (.ok 0), .resume 1 (.ok 0), .resume 2 (.ok 0), .resume 1 (.ok 0), .resume 1 (.ok 0),
    .resume 1 (.ok 0), .resume 1 (.ok 0), .resume 2 (.ok 0), .resume 2 (.ok 0), .resume 2 (.ok 0),
    .resume 2 (.ok 0)]

end BlockMiner.WithdrawalRequests
