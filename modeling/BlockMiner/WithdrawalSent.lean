import BlockMiner.WithdrawalSettled

/-!
# A withdrawal is sent once

Both senders decide to pay from a row they have read earlier, and the row
stays `approved` until a later write of the same call. So what stands
between a row and a second payment is that write: `sentFor` names the row
a call has paid and still has to write the outcome of.

`Exclusive` asks of a step that it sends only for a row that is approved
at that moment and that no call in flight has paid, that it does not open
a closed row again, and that the write after a payment does not fail.
Under it a paid row is closed, or a call in flight is about to close it
(`SentInv`).
-/

namespace BlockMiner.Withdrawal

/-- The row that a call has paid and not yet written the outcome of. -/
def sentFor : Call → Option Nat
  | .updateRead id .completed _ (.cron _) | .updateCommit id .completed _ _ (.cron _)
  | .saveHash id _ | .waiting id | .markCompleted id | .markFailed id true => some id
  | _ => none

/-- The call's remaining write is its last chance to record a payment. -/
def lastWrite : Call → Bool
  | .updateRead _ _ _ (.cron _) | .updateCommit _ _ _ _ (.cron _) | .markFailed _ true => true
  | _ => false

/-- The step sends for an approved, unpaid row only, opens no closed row,
and does not lose the record of a payment. -/
structure SendsSafely (s : InFlight Db Call) (c : Call) (a : Answer) : Prop where
  approved : ∀ id ∈ sendsFor c a, s.db.status? id = some .approved
  unpaid : ∀ id ∈ sendsFor c a, ∀ p ∈ s.calls.rows, sentFor p.2 ≠ some id
  closed : ∀ w ∈ statusWrite c a, w.2.1.isOpen = true →
    ∀ st ∈ s.db.status? w.1, st.isOpen = true
  recorded : a = .error → lastWrite c = false

def Exclusive (s : InFlight Db Call) : Event Request Answer → Prop
  | .start _ => True
  | .resume call a => ∀ c ∈ s.calls.row call, SendsSafely s c a

deriving instance DecidableEq for Answer

instance (s : InFlight Db Call) (c : Call) (a : Answer) : Decidable (SendsSafely s c a) :=
  decidable_of_iff
    ((∀ id ∈ sendsFor c a, s.db.status? id = some .approved)
      ∧ (∀ id ∈ sendsFor c a, ∀ p ∈ s.calls.rows, sentFor p.2 ≠ some id)
      ∧ (∀ w ∈ statusWrite c a, w.2.1.isOpen = true →
          ∀ st ∈ s.db.status? w.1, st.isOpen = true)
      ∧ (a = .error → lastWrite c = false))
    ⟨fun h => ⟨h.1, h.2.1, h.2.2.1, h.2.2.2⟩,
      fun h => ⟨h.approved, h.unpaid, h.closed, h.recorded⟩⟩

instance (s : InFlight Db Call) : ∀ e, Decidable (Exclusive s e)
  | .start _ => inferInstanceAs (Decidable True)
  | .resume call a => inferInstanceAs (Decidable (∀ c ∈ s.calls.row call, SendsSafely s c a))

/-! ## What a step does to the sends and statuses -/

/-- The status a step leaves a row with. -/
def statusAfter (c : Call) (a : Answer) (id : Nat) (status : Status) : Status :=
  match statusWrite c a with
  | some (i, status', _) => if i = id then status' else status
  | none => status

/-- `r'` is row `id` after the step, `r` before it. -/
structure Moves (c : Call) (a : Answer) (id : Nat) (r r' : Row) : Prop where
  sends : r'.sends = r.sends + if sendsFor c a = some id then 1 else 0
  status : r'.status = statusAfter c a id r.status

theorem moves_modify {db : Db} {c : Call} {a : Answer} {j : Nat} {f : Row → Row}
    (hf : ∀ r, Moves c a j r (f r)) (hother : ∀ id r, id ≠ j → Moves c a id r r) {id : Nat}
    {r' : Row} (h : (db.transactions.modify j f).row id = some r') :
    ∃ r, db.transactions.row id = some r ∧ Moves c a id r r' := by
  rcases Table.modify_row_eq_some.mp h with ⟨rfl, r, hr, rfl⟩ | ⟨hne, hr⟩
  · exact ⟨r, hr, hf r⟩
  · exact ⟨r', hr, hother id r' hne⟩

/-- Every row after a step is a row before it that has moved, or the
withdrawal that was created. -/
theorem Effect.moves {db db' : Db} {c : Call} {a : Answer} (h : Effect db c a db') {id : Nat}
    {r' : Row} (hr' : db'.transactions.row id = some r') :
    r'.sends = 0 ∨ ∃ r, db.transactions.row id = some r ∧ Moves c a id r r' := by
  cases h with
  | unchanged hs hw => exact Or.inr ⟨r', hr', by simp [hs], by simp [statusAfter, hw]⟩
  | created u amount address hs hw =>
      rcases Table.insert_row_eq_some.mp hr' with ⟨-, rfl⟩ | hold
      · exact Or.inl rfl
      · exact Or.inr ⟨r', hold, by simp [hs], by simp [statusAfter, hw]⟩
  | sent j hs hw =>
      refine Or.inr (moves_modify (fun r => ?_) (fun id r hne => ?_) hr')
      · exact ⟨by simp [hs], by simp [statusAfter, hw]⟩
      · exact ⟨by simp [hs, Ne.symm hne], by simp [statusAfter, hw]⟩
  | hashed j txHash hs hw =>
      refine Or.inr (moves_modify (fun r => ?_) (fun id r hne => ?_) hr')
      · exact ⟨by simp [hs], by simp [statusAfter, hw]⟩
      · exact ⟨by simp [hs], by simp [statusAfter, hw]⟩
  | wrote j status completedAt hs hw =>
      refine Or.inr (moves_modify (fun r => ?_) (fun id r hne => ?_) hr')
      · exact ⟨by simp [hs], by simp [statusAfter, hw]⟩
      · exact ⟨by simp [hs], by simp [statusAfter, hw, Ne.symm hne]⟩
  | updated j status txHash row caller now _ hs hw =>
      refine Or.inr (moves_modify (fun r => ?_) (fun id r hne => ?_) hr')
      · exact ⟨by simp [hs], by simp [statusAfter, hw]⟩
      · exact ⟨by simp [hs], by simp [statusAfter, hw, Ne.symm hne]⟩

/-- A call that sends goes on to record it. -/
theorem resume_sent {db db' : Db} {c : Call} {a : Answer} {next : Option Call} {id : Nat}
    (h : resume db c a = some (db', next)) (hs : sendsFor c a = some id) :
    ∃ c', next = some c' ∧ sentFor c' = some id := by
  cases c with
  | sending id' row rest =>
      cases a with
      | sent txHash =>
          obtain rfl := Option.some.inj hs
          exact ⟨_, (congrArg Prod.snd (Option.some.inj h)).symm, rfl⟩
      | _ => cases hs
  | preflight id' row =>
      cases a with
      | sent txHash =>
          obtain rfl := Option.some.inj hs
          exact ⟨_, (congrArg Prod.snd (Option.some.inj h)).symm, rfl⟩
      | _ => cases hs
  | _ => cases hs

/-- A call that has paid a row goes on to record it, or closes the row now,
unless its last write fails or the row is gone. -/
theorem resume_records {db db' : Db} {c : Call} {a : Answer} {next : Option Call} {id : Nat}
    (h : resume db c a = some (db', next)) (hc : sentFor c = some id)
    (hlast : a = .error → lastWrite c = false) (hrow : (db.transactions.row id).isSome) :
    (∃ c', next = some c' ∧ sentFor c' = some id)
      ∨ ∀ status, (statusAfter c a id status).isOpen = false := by
  cases c with
  | updateRead id' status txHash caller =>
      cases caller with
      | admin => cases status <;> cases hc
      | cron rest =>
          cases status with
          | completed =>
              obtain rfl := Option.some.inj hc
              cases a with
              | ok now =>
                  simp only [resume] at h
                  split at h
                  case h_1 hnone =>
                    rw [hnone] at hrow
                    cases hrow
                  case h_2 row _ =>
                    exact Or.inl ⟨_, (congrArg Prod.snd (Option.some.inj h)).symm, rfl⟩
              | error => cases hlast rfl
              | sent _ | insufficientFunds => cases h
          | _ => cases hc
  | updateCommit id' status txHash row caller =>
      cases caller with
      | admin => cases status <;> cases hc
      | cron rest =>
          cases status with
          | completed =>
              obtain rfl := Option.some.inj hc
              cases a with
              | ok now =>
                  exact Or.inr fun status => by simp [statusAfter, statusWrite, Status.isOpen]
              | error => cases hlast rfl
              | sent _ | insufficientFunds => cases h
          | _ => cases hc
  | saveHash id' txHash | waiting id' =>
      obtain rfl := Option.some.inj hc
      cases a with
      | ok now | error => exact Or.inl ⟨_, (congrArg Prod.snd (Option.some.inj h)).symm, rfl⟩
      | sent _ | insufficientFunds => cases h
  | markCompleted id' =>
      obtain rfl := Option.some.inj hc
      cases a with
      | ok now => exact Or.inr fun status => by simp [statusAfter, statusWrite, Status.isOpen]
      | error => exact Or.inl ⟨_, (congrArg Prod.snd (Option.some.inj h)).symm, rfl⟩
      | sent _ | insufficientFunds => cases h
  | markFailed id' sent =>
      cases sent with
      | false => cases hc
      | true =>
          obtain rfl := Option.some.inj hc
          cases a with
          | ok now => exact Or.inr fun status => by simp [statusAfter, statusWrite, Status.isOpen]
          | error => cases hlast rfl
          | sent _ | insufficientFunds => cases h
  | _ => cases hc

/-! ## The invariant -/

/-- Some call in flight has paid row `id`. -/
def Paying (calls : Table Call) (id : Nat) : Prop :=
  ∃ i c, calls.row i = some c ∧ sentFor c = some id

/-- A row is paid at most once, and a paid row is closed or about to be. -/
def SentInv (s : InFlight Db Call) : Prop :=
  ∀ id r, s.db.transactions.row id = some r →
    r.sends ≤ 1 ∧ (r.sends = 1 → r.status.isOpen = false ∨ Paying s.calls id)

theorem SentInv.start {s s' : InFlight Db Call} {req : Request} (hinv : SentInv s)
    (h : service.step s (.start req) = some s') : SentInv s' := by
  obtain ⟨db, cs, hstart, rfl⟩ := service.step_start h
  obtain ⟨rfl, rfl⟩ := Prod.mk.inj (Option.some.inj hstart)
  intro id r hr
  refine ⟨(hinv id r hr).1, fun hone => ?_⟩
  rcases (hinv id r hr).2 hone with hclosed | ⟨i, c, hc, hsent⟩
  · exact Or.inl hclosed
  · exact Or.inr ⟨i, c, Service.foldl_insert_keeps _ hc, hsent⟩

/-- A safe send finds its row unpaid. -/
theorem SentInv.unpaid {s : InFlight Db Call} {c : Call} {a : Answer} {id : Nat} {r : Row}
    (hinv : SentInv s) (hsafe : SendsSafely s c a) (hs : sendsFor c a = some id)
    (hr : s.db.transactions.row id = some r) : r.sends = 0 := by
  have hle := (hinv id r hr).1
  by_contra hne
  have happroved : r.status = .approved := by
    have h := hsafe.approved id hs
    rw [Db.status?, hr] at h
    exact Option.some.inj h
  rcases (hinv id r hr).2 (by omega) with hclosed | ⟨i, d, hd, hsent⟩
  · rw [happroved] at hclosed
    cases hclosed
  · exact hsafe.unpaid id hs (i, d) (Table.mem_rows.mpr hd) hsent

/-- A row that is closed stays closed in a safe step. -/
theorem SendsSafely.stays_closed {s : InFlight Db Call} {c : Call} {a : Answer} {id : Nat}
    {r : Row} (hsafe : SendsSafely s c a) (hr : s.db.transactions.row id = some r)
    (hclosed : r.status.isOpen = false) : (statusAfter c a id r.status).isOpen = false := by
  unfold statusAfter
  cases hw : statusWrite c a with
  | none => exact hclosed
  | some w =>
      obtain ⟨j, st, refund⟩ := w
      simp only
      split
      case isTrue hj =>
        subst hj
        by_contra hopen
        have hstill := hsafe.closed _ hw (by simpa using hopen) r.status (by
          rw [Db.status?, hr]
          rfl)
        rw [hclosed] at hstill
        cases hstill
      case isFalse => exact hclosed

/-- **Step lemma.** A safe step of a call keeps the invariant. -/
theorem SentInv.resume {s s' : InFlight Db Call} {call : Nat} {a : Answer} (hinv : SentInv s)
    (hsafe : Exclusive s (.resume call a)) (h : service.step s (.resume call a) = some s') :
    SentInv s' := by
  obtain ⟨c, db, next, hc, hresume, rfl⟩ := service.step_resume h
  have hok := hsafe c hc
  intro id r' hr'
  rcases (resume_effect hresume).moves hr' with hzero | ⟨r, hr, hsends, hstatus⟩
  · exact ⟨by omega, fun hone => by omega⟩
  by_cases hs : sendsFor c a = some id
  · -- the step pays the row, for the first time
    obtain ⟨c', rfl, hsent⟩ := resume_sent hresume hs
    rw [if_pos hs, hinv.unpaid hok hs hr] at hsends
    exact ⟨by omega, fun _ => Or.inr ⟨call, c', Service.advance_self hc, hsent⟩⟩
  rw [if_neg hs, add_zero] at hsends
  refine ⟨hsends ▸ (hinv id r hr).1, fun hone => ?_⟩
  rcases (hinv id r hr).2 (hsends ▸ hone) with hclosed | ⟨i, d, hd, hsent⟩
  · exact Or.inl (hstatus ▸ hok.stays_closed hr hclosed)
  by_cases hi : i = call
  · -- the paying call itself moves on
    subst hi
    obtain rfl := Option.some.inj (hc.symm.trans hd)
    rcases resume_records hresume hsent hok.recorded (by rw [hr]; rfl) with
      ⟨c', rfl, hsent'⟩ | hcloses
    · exact Or.inr ⟨i, c', Service.advance_self hc, hsent'⟩
    · exact Or.inl (hstatus ▸ hcloses r.status)
  · exact Or.inr ⟨i, d, Service.advance_keeps hi hd, hsent⟩

/-- **One broadcast.** In a run whose steps send safely, every withdrawal
is sent at most once. -/
theorem sent_once {s t : InFlight Db Call} {es : List (Event Request Answer)} (hs : Fresh s)
    (hsafe : service.sys.Meets Exclusive s es) (hrun : service.sys.run s es = some t) :
    ∀ id r, t.db.transactions.row id = some r → r.sends ≤ 1 := by
  have hinv : SentInv s := fun id r hr => by
    rw [hs.1 id] at hr
    cases hr
  have hend : SentInv t := service.sys.run_invariant
    (fun s e s' hI hC hstep => by
      cases e with
      | start req => exact hI.start hstep
      | resume call a => exact hI.resume hC hstep)
    hinv hsafe hrun
  exact fun id r hr => (hend id r hr).1

/-- Two cron runs in turn; the second finds nothing left to send. -/
def sentInTurn : List (Event Request Answer) :=
  [.start (.createWithdrawal 1 50 9), .resume 1 (.ok 0), .resume 1 (.ok 0),
    .start (.approveWithdrawal 1), .resume 2 (.ok 1),
    .start .processPendingWithdrawals, .resume 3 (.sent 77), .resume 3 (.ok 2),
    .resume 3 (.ok 2), .start .processPendingWithdrawals]

theorem sent_once_inTurn :
    ∃ t, service.sys.run oneUser sentInTurn = some t
      ∧ ∀ id r, t.db.transactions.row id = some r → r.sends ≤ 1 :=
  have hrun : (service.sys.run oneUser sentInTurn).isSome := by decide +kernel
  ⟨_, (Option.some_get hrun).symm,
    sent_once oneUser_fresh (by decide +kernel) (Option.some_get hrun).symm⟩

/-- The next cron run starts while the previous one is still waiting for
`sendTransaction`. -/
def sentOverlapping : List (Event Request Answer) :=
  [.start (.createWithdrawal 1 50 9), .resume 1 (.ok 0), .resume 1 (.ok 0),
    .start (.approveWithdrawal 1), .resume 2 (.ok 1),
    .start .processPendingWithdrawals, .start .processPendingWithdrawals,
    .resume 3 (.sent 77), .resume 4 (.sent 78)]

theorem cron_sends_twice :
    ¬ ∀ (s t : InFlight Db Call) (es : List (Event Request Answer)), Fresh s →
        service.sys.run s es = some t →
        ∀ id r, t.db.transactions.row id = some r → r.sends ≤ 1 := by
  intro h
  have htwice : ∃ t ∈ service.sys.run oneUser sentOverlapping,
      ∃ r ∈ t.db.transactions.row 1, r.sends = 2 := by
    decide +kernel
  obtain ⟨t, hrun, r, hr, htwo⟩ := htwice
  have honce := h oneUser t sentOverlapping oneUser_fresh hrun 1 r hr
  omega

end BlockMiner.Withdrawal
