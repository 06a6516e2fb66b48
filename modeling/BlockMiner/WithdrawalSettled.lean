import BlockMiner.Withdrawal
import Mathlib.Tactic.Ring
import Mathlib.Tactic.Linarith

/-!
# Withdrawal funds are settled once

A withdrawal is settled by paying it out or by refunding it, and until then
its amount is reserved. `Row.Sound` says this of the refund counter of one
row: no refund of a row that was broadcast, one refund of a failed row
that was not, none of any other.

`Effect` lists what a step of a call can do to the database, so that an
invariant is checked against six kinds of writes. Three of them decide a
settlement and can find the row settled the other way in the meantime: a
status write, a refund, and a send. `Lawful` is the condition that they
do not.
-/

namespace BlockMiner.Withdrawal

/-- What a step of call `c` with answer `a` makes of the database. -/
inductive Effect (db : Db) (c : Call) (a : Answer) : Db → Prop
  | unchanged (hs : sendsFor c a = none) (hw : statusWrite c a = none) : Effect db c a db
  | created (u : UserId) (amount : ℚ) (address : Address) (hs : sendsFor c a = none)
      (hw : statusWrite c a = none) : Effect db c a (db.createCommit u amount address)
  | sent (id : Nat) (hs : sendsFor c a = some id) (hw : statusWrite c a = none) :
      Effect db c a (db.recordSend id)
  | hashed (id txHash : Nat) (hs : sendsFor c a = none) (hw : statusWrite c a = none) :
      Effect db c a (db.saveHash id txHash)
  | wrote (id : Nat) (status : Status) (completedAt : Option Nat) (hs : sendsFor c a = none)
      (hw : statusWrite c a = some (id, status, false)) :
      Effect db c a (db.setStatus id status completedAt)
  | updated (id : Nat) (status : Status) (txHash : Option Nat) (row : Row) (caller : Caller)
      (now : Nat) (hc : c = .updateCommit id status txHash row caller)
      (hs : sendsFor c a = none)
      (hw : statusWrite c a = some (id, status, Db.refundDue status row)) :
      Effect db c a (db.updateTransactionStatus id status txHash row now)

/-- A step that throws has written nothing. -/
theorem resume_error {db db' : Db} {c : Call} {next : Option Call}
    (h : resume db c .error = some (db', next)) : Effect db c .error db' := by
  cases c <;>
    · obtain rfl := congrArg Prod.fst (Option.some.inj h)
      exact .unchanged rfl rfl

/-- **Inversion.** Every step of a call has one of the six effects. -/
theorem resume_effect {db db' : Db} {c : Call} {a : Answer} {next : Option Call}
    (h : resume db c a = some (db', next)) : Effect db c a db' := by
  cases a with
  | error => exact resume_error h
  | insufficientFunds =>
      cases c with
      | preflight id row =>
          obtain rfl := congrArg Prod.fst (Option.some.inj h)
          exact .unchanged rfl rfl
      | _ => cases h
  | sent txHash =>
      cases c with
      | sending id row rest =>
          obtain rfl := congrArg Prod.fst (Option.some.inj h)
          exact .sent id rfl rfl
      | preflight id row =>
          obtain rfl := congrArg Prod.fst (Option.some.inj h)
          exact .sent id rfl rfl
      | _ => cases h
  | ok now =>
      cases c with
      | createBalance u amount address =>
          obtain rfl := congrArg Prod.fst (Option.some.inj h)
          exact .unchanged rfl rfl
      | createCommit u amount address =>
          obtain rfl := congrArg Prod.fst (Option.some.inj h)
          exact .created u amount address rfl rfl
      | approveWrite id | backToApproved id =>
          obtain rfl := congrArg Prod.fst (Option.some.inj h)
          exact .wrote id .approved none rfl rfl
      | updateRead id status txHash caller =>
          simp only [resume] at h
          split at h <;>
            · obtain rfl := congrArg Prod.fst (Option.some.inj h)
              exact .unchanged rfl rfl
      | updateCommit id status txHash row caller =>
          obtain rfl := congrArg Prod.fst (Option.some.inj h)
          exact .updated id status txHash row caller now rfl rfl rfl
      | saveHash id txHash =>
          obtain rfl := congrArg Prod.fst (Option.some.inj h)
          exact .hashed id txHash rfl rfl
      | waiting id =>
          obtain rfl := congrArg Prod.fst (Option.some.inj h)
          exact .unchanged rfl rfl
      | markCompleted id =>
          obtain rfl := congrArg Prod.fst (Option.some.inj h)
          exact .wrote id .completed (some now) rfl rfl
      | markFailed id sent =>
          obtain rfl := congrArg Prod.fst (Option.some.inj h)
          exact .wrote id .failed none rfl rfl
      | sending _ _ _ | preflight _ _ => cases h

/-! ## The invariant -/

/-- The refunds of a row are those its settlement calls for. -/
def Row.Sound (r : Row) : Prop :=
  r.refunds = (if r.broadcast then 0 else if r.status = .failed then 1 else 0)
    ∧ (r.status = .completed → r.broadcast = true)

/-- A status write without a refund fits the settlement of the row. -/
def Row.MayBecome (r : Row) (status : Status) : Prop :=
  r.broadcast = true ∨ (r.status = .failed ↔ status = .failed)

/-- A row may be refunded if it was neither paid nor refunded before. -/
def Row.MayRefund (r : Row) : Prop := r.broadcast = false ∧ r.status ≠ .failed

/-- A row may be paid if it was not refunded before. -/
def Row.MaySend (r : Row) : Prop := r.broadcast = true ∨ r.status ≠ .failed

instance (r : Row) (status : Status) : Decidable (r.MayBecome status) :=
  inferInstanceAs (Decidable (_ ∨ _))

instance (r : Row) : Decidable r.MayRefund := inferInstanceAs (Decidable (_ ∧ _))

instance (r : Row) : Decidable r.MaySend := inferInstanceAs (Decidable (_ ∨ _))

/-- The step settles a row only as its present state allows. -/
structure Lawful (db : Db) (c : Call) (a : Answer) : Prop where
  send : ∀ id ∈ sendsFor c a, ∀ r ∈ db.transactions.row id, r.MaySend
  write : ∀ w ∈ statusWrite c a, ∀ r ∈ db.transactions.row w.1,
    if w.2.2 then r.MayRefund else r.MayBecome w.2.1

instance (db : Db) (c : Call) (a : Answer) : Decidable (Lawful db c a) :=
  decidable_of_iff
    ((∀ id ∈ sendsFor c a, ∀ r ∈ db.transactions.row id, r.MaySend)
      ∧ ∀ w ∈ statusWrite c a, ∀ r ∈ db.transactions.row w.1,
        if w.2.2 then r.MayRefund else r.MayBecome w.2.1)
    ⟨fun h => ⟨h.1, h.2⟩, fun h => ⟨h.send, h.write⟩⟩

theorem Row.Sound.send {r : Row} (h : r.Sound) (hmay : r.MaySend) :
    ({ r with sends := r.sends + 1, broadcast := true } : Row).Sound := by
  refine ⟨?_, fun _ => rfl⟩
  show r.refunds = 0
  rw [h.1]
  rcases hmay with hb | hne
  · rw [if_pos hb]
  · rw [if_neg hne, ite_self]

theorem Row.Sound.become {r : Row} {status : Status} (h : r.Sound) (hmay : r.MayBecome status) :
    r.refunds = (if (r.broadcast || decide (status = .completed)) then 0
        else if status = .failed then 1 else 0)
      ∧ (status = .completed → (r.broadcast || decide (status = .completed)) = true) := by
  refine ⟨?_, fun hs => by simp [hs]⟩
  rw [h.1]
  rcases hmay with hb | hiff
  · simp [hb]
  · cases hb : r.broadcast with
    | true => simp
    | false =>
        by_cases hs : status = .completed
        · have hne : r.status ≠ .failed := fun hf => by
            rw [hiff.mp hf] at hs
            cases hs
          simp [hs, hne]
        · simp only [hs, decide_false, Bool.or_false, Bool.false_eq_true, if_false]
          exact if_congr hiff rfl rfl

theorem refundDue_failed {status : Status} {row : Row} (h : Db.refundDue status row = true) :
    status = .failed := by
  simp only [Db.refundDue, decide_eq_true_eq] at h
  exact h.1

/-- **Step lemma.** A lawful step keeps every row sound. -/
theorem Effect.sound {db db' : Db} {c : Call} {a : Answer} (h : Effect db c a db')
    (hlaw : Lawful db c a) (hs : ∀ id r, db.transactions.row id = some r → r.Sound) :
    ∀ id r, db'.transactions.row id = some r → r.Sound := by
  cases h with
  | unchanged _ _ => exact hs
  | created u amount address _ _ =>
      exact Table.forall_insert (P := fun _ => Row.Sound) hs ⟨rfl, fun h => by cases h⟩
  | sent id hsend _ =>
      exact Table.forall_modify (P := fun _ => Row.Sound) hs fun r hr =>
        (hs id r hr).send (hlaw.send id hsend r hr)
  | hashed id txHash _ _ =>
      exact Table.forall_modify (P := fun _ => Row.Sound)
        (f := fun r => { r with txHash := some txHash }) hs fun r hr => hs id r hr
  | wrote id status completedAt _ hw =>
      refine Table.forall_modify (P := fun _ => Row.Sound) hs fun r hr => ?_
      exact (hs id r hr).become (hlaw.write _ hw r hr)
  | updated id status txHash row caller now _ _ hw =>
      refine Table.forall_modify (P := fun _ => Row.Sound) hs fun r hr => ?_
      have hmay := hlaw.write _ hw r hr
      cases hdue : Db.refundDue status row with
      | false =>
          simp only [hdue, Bool.false_eq_true, if_false] at hmay
          have hbecome := (hs id r hr).become hmay
          simpa [Row.Sound, hdue] using hbecome
      | true =>
          simp only [hdue, if_true] at hmay
          obtain ⟨hb, hne⟩ := hmay
          have hzero : r.refunds = 0 := by
            rw [(hs id r hr).1, hb, if_neg hne]
            rfl
          simp [Row.Sound, refundDue_failed hdue, hb, hzero]

/-! ## Conservation -/

/-- What the row keeps off the balance of `u`. -/
def held (u : UserId) (_ : Nat) (r : Row) : ℚ :=
  if r.userId = u then r.amount * (1 - r.refunds) else 0

def paidOut (u : UserId) (_ : Nat) (r : Row) : ℚ :=
  if r.userId = u ∧ r.broadcast = true then r.amount else 0

def reserved (u : UserId) (_ : Nat) (r : Row) : ℚ :=
  if r.userId = u ∧ r.broadcast = false ∧ r.status.isOpen = true then r.amount else 0

theorem Row.Sound.held_eq {r : Row} (h : r.Sound) (u : UserId) (i : Nat) :
    held u i r = paidOut u i r + reserved u i r := by
  obtain ⟨hrefunds, hcompleted⟩ := h
  unfold held paidOut reserved
  by_cases hu : r.userId = u
  · cases hb : r.broadcast with
    | true => simp [hu, hrefunds, hb]
    | false =>
        cases hs : r.status with
        | completed =>
            rw [hcompleted hs] at hb
            cases hb
        | _ => simp [hu, hrefunds, hb, hs, Status.isOpen]
  · simp [hu]

namespace Db

/-- The balance of `u` with all that withdrawals keep off it. -/
def funds (db : Db) (u : UserId) : ℚ := db.polBalance u + db.transactions.sum (held u)

end Db

/-- The row a call of `updateTransactionStatus` remembers is still there,
with its user and amount. -/
def RowMatches (db : Db) (c : Call) : Prop :=
  ∀ id status txHash row caller, c = .updateCommit id status txHash row caller →
    ∃ r, db.transactions.row id = some r ∧ r.userId = row.userId ∧ r.amount = row.amount

theorem Effect.keeps {db db' : Db} {c d : Call} {a : Answer} (h : Effect db c a db')
    (hd : RowMatches db d) : RowMatches db' d := by
  intro id status txHash row caller heq
  obtain ⟨r, hrow, hr⟩ := hd id status txHash row caller heq
  cases h with
  | unchanged _ _ => exact ⟨r, hrow, hr⟩
  | created u amount address _ _ => exact ⟨r, Table.insert_row_of_some hrow _, hr⟩
  | sent _ _ _ | hashed _ _ _ _ | wrote _ _ _ _ _ | updated _ _ _ _ _ _ _ _ _ =>
      refine Table.modify_keeps (P := fun r => r.userId = row.userId ∧ r.amount = row.amount)
        hrow hr ?_
      exact fun _ h => h

theorem cronNext_matches {db : Db} {c : Call} :
    ∀ {rest : List (Nat × Row)}, cronNext rest = some c → RowMatches db c
  | [], h => by cases h
  | (id, row) :: rest, h => by
      unfold cronNext at h
      split at h
      case isTrue => exact cronNext_matches h
      case isFalse =>
        obtain rfl := Option.some.inj h
        exact fun _ _ _ _ _ hc => by cases hc

theorem caller_next_matches {db : Db} {c : Call} {caller : Caller} (h : caller.next = some c) :
    RowMatches db c := by
  cases caller with
  | admin => cases h
  | cron rest => exact cronNext_matches h

/-- Only the read of `updateTransactionStatus` makes a call remember a row
to write, and it has just read it. -/
theorem resume_matches {db db' : Db} {c c' : Call} {a : Answer}
    (h : resume db c a = some (db', some c')) : RowMatches db' c' := by
  cases c with
  | createBalance u amount address =>
      cases a with
      | ok now =>
          have hnext := congrArg Prod.snd (Option.some.inj h)
          simp only [Db.createBalance] at hnext
          split at hnext
          case isTrue => cases hnext
          case isFalse =>
            obtain rfl := Option.some.inj hnext
            exact fun _ _ _ _ _ hc => by cases hc
      | _ => cases h
  | updateRead id status txHash caller =>
      cases a with
      | ok now =>
          simp only [resume] at h
          split at h
          case h_1 => exact caller_next_matches (congrArg Prod.snd (Option.some.inj h))
          case h_2 row hrow =>
            obtain ⟨rfl, hc'⟩ := Prod.mk.inj (Option.some.inj h)
            obtain rfl := Option.some.inj hc'
            rintro _ _ _ _ _ ⟨⟩
            exact ⟨row, hrow, rfl, rfl⟩
      | error => exact caller_next_matches (congrArg Prod.snd (Option.some.inj h))
      | sent _ | insufficientFunds => cases h
  | updateCommit id status txHash row caller =>
      cases a with
      | ok now | error => exact caller_next_matches (congrArg Prod.snd (Option.some.inj h))
      | sent _ | insufficientFunds => cases h
  | sending id row rest =>
      cases a with
      | sent txHash =>
          cases h
          exact fun _ _ _ _ _ hc => by cases hc
      | error => exact cronNext_matches (congrArg Prod.snd (Option.some.inj h))
      | ok _ | insufficientFunds => cases h
  | _ =>
      cases a <;> cases h <;> exact fun _ _ _ _ _ hc => by cases hc

theorem start_matches {db : Db} {r : Request} {c : Call} (h : c ∈ start db r) :
    RowMatches db c := by
  cases r with
  | createWithdrawal u amount address =>
      simp only [start, Db.createWithdrawal] at h
      split at h
      case isTrue => cases h
      case isFalse =>
        split at h
        · cases h
        · obtain rfl := List.mem_singleton.mp h
          exact fun _ _ _ _ _ hc => by cases hc
  | approveWithdrawal id | rejectWithdrawal id | completeWithdrawal id txHash =>
      simp only [start] at h
      split at h
      case isTrue =>
        obtain rfl := List.mem_singleton.mp h
        exact fun _ _ _ _ _ hc => by cases hc
      case isFalse => cases h
  | updateTransactionStatus id status txHash =>
      obtain rfl := List.mem_singleton.mp h
      exact fun _ _ _ _ _ hc => by cases hc
  | processPendingWithdrawals => exact cronNext_matches (Option.mem_toList.mp h)
  | processApprovedWithdrawal id =>
      simp only [start] at h
      split at h
      case h_1 => cases h
      case h_2 row hrow =>
        split at h
        case isTrue =>
          obtain rfl := List.mem_singleton.mp h
          exact fun _ _ _ _ _ hc => by cases hc
        case isFalse => cases h

/-- A refund puts back what the row kept; nothing else moves the funds. -/
theorem Effect.funds {db db' : Db} {c : Call} {a : Answer} (h : Effect db c a db')
    (hmatch : RowMatches db c) (u : UserId) : db'.funds u = db.funds u := by
  cases h with
  | unchanged _ _ => rfl
  | created v amount address _ _ =>
      simp only [Db.funds, Db.createCommit, Table.sum_insert, held, Function.update_apply]
      split
      case isTrue huv =>
        subst huv
        simp
      case isFalse huv =>
        rw [if_neg (Ne.symm huv), add_zero]
  | sent id _ _ | hashed id txHash _ _ | wrote id status completedAt _ _ =>
      exact congrArg (db.polBalance u + ·) (Table.sum_modify_of_eq fun r _ => rfl)
  | updated id status txHash row caller now hc _ _ =>
      obtain ⟨r, hrow, huser, hamount⟩ := hmatch id status txHash row caller hc
      simp only [Db.funds, Db.updateTransactionStatus, Table.sum_modify hrow, held]
      cases Db.refundDue status row with
      | false => simp
      | true =>
          simp only [if_true, Function.update_apply, huser, hamount]
          by_cases hu : row.userId = u
          · subst hu
            simp only [if_true]
            push_cast
            ring
          · simp only [if_neg hu, if_neg (Ne.symm hu)]
            ring

/-! ## Runs -/

/-- Every withdrawal of `db` is settled once, counting from `db₀`. -/
structure SettledOnce (db₀ db : Db) : Prop where
  refundedOnce : ∀ id r, db.transactions.row id = some r → r.refunds ≤ 1
  notAfterBroadcast : ∀ id r, db.transactions.row id = some r → r.broadcast = true → r.refunds = 0
  failedRefunded : ∀ id r, db.transactions.row id = some r → r.status = .failed →
    r.broadcast = false → r.refunds = 1
  conserved : ∀ u, db.polBalance u + db.transactions.sum (paidOut u)
    + db.transactions.sum (reserved u) = db₀.polBalance u

/-- No withdrawal exists and no call is in flight. -/
def Fresh (s : InFlight Db Call) : Prop :=
  (∀ id, s.db.transactions.row id = none) ∧ ∀ i, s.calls.row i = none

theorem settledOnce_of_sound {db₀ db : Db}
    (hsound : ∀ id r, db.transactions.row id = some r → r.Sound)
    (hfunds : ∀ u, db.funds u = db₀.polBalance u) : SettledOnce db₀ db where
  refundedOnce id r hr := by
    rw [(hsound id r hr).1]
    split
    · exact Nat.zero_le 1
    · split
      · exact Nat.le_refl 1
      · exact Nat.zero_le 1
  notAfterBroadcast id r hr hb := by rw [(hsound id r hr).1, if_pos hb]
  failedRefunded id r hr hf hb := by
    rw [(hsound id r hr).1, if_neg (by rw [hb]; exact Bool.false_ne_true), if_pos hf]
  conserved u := by
    rw [← hfunds u, Db.funds, add_assoc, ← Table.sum_add]
    congr 1
    exact Table.sum_congr fun i r hr => ((hsound i r hr).held_eq u i).symm

/-- User 1 with 100 POL. -/
def oneUser : InFlight Db Call where
  db := { transactions := .empty, polBalance := fun u => if u = 1 then 100 else 0 }
  calls := .empty

theorem oneUser_fresh : Fresh oneUser := ⟨fun _ => rfl, fun _ => rfl⟩

/-- A withdrawal that is approved and sent, and one that is rejected. -/
def paidAndRejected : List (Event Request Answer) :=
  [.start (.createWithdrawal 1 50 9), .resume 1 (.ok 0), .resume 1 (.ok 0),
    .start (.approveWithdrawal 1), .resume 2 (.ok 1),
    .start (.processApprovedWithdrawal 1), .resume 3 (.sent 77), .resume 3 (.ok 2),
    .resume 3 (.ok 3), .resume 3 (.ok 4),
    .start (.createWithdrawal 1 20 9), .resume 4 (.ok 5), .resume 4 (.ok 5),
    .start (.rejectWithdrawal 2), .resume 5 (.ok 6), .resume 5 (.ok 6)]

/-- Two admins reject the same withdrawal; both read it as pending. -/
def rejectedTwice : List (Event Request Answer) :=
  [.start (.createWithdrawal 1 50 9), .resume 1 (.ok 0), .resume 1 (.ok 0),
    .start (.rejectWithdrawal 1), .start (.rejectWithdrawal 1), .resume 2 (.ok 1),
    .resume 3 (.ok 1), .resume 2 (.ok 2), .resume 3 (.ok 2)]

end BlockMiner.Withdrawal
