import BlockMiner.DepositContract
import Mathlib.Algebra.Order.BigOperators.Group.Finset

/-!
# The accounts of the deposit contract

The counter, the records, the logs and the balance tell the same story after every call
(`Accounts`). While a withdrawal is under way the guard is set: what its recipient calls
can only move the ownership and the pause, or force POL in (`Guarded`).
-/

namespace BlockMiner.DepositContract

/-! ## Sums -/

section Sums

/-- The record that a log stands for. -/
def Log.record (u : Address) : Log → Option DepositRecord
  | .DepositReceived userId sender amount timestamp =>
      if userId = u then some ⟨sender, amount, timestamp⟩ else none
  | .Withdrawn _ _ => none

def Log.received : Log → ℕ
  | .DepositReceived _ _ amount _ => amount
  | .Withdrawn _ _ => 0

def Log.withdrawn : Log → ℕ
  | .DepositReceived _ _ _ _ => 0
  | .Withdrawn _ amount => amount

/-- The sum of the `DepositReceived` amounts. -/
def received (logs : List Log) : ℕ := (logs.map Log.received).sum

/-- The sum of the `Withdrawn` amounts. -/
def withdrawn (logs : List Log) : ℕ := (logs.map Log.withdrawn).sum

def total (records : List DepositRecord) : ℕ := (records.map (·.amount)).sum

@[simp] theorem received_append (logs logs' : List Log) :
    received (logs ++ logs') = received logs + received logs' := by
  simp [received]

@[simp] theorem withdrawn_append (logs logs' : List Log) :
    withdrawn (logs ++ logs') = withdrawn logs + withdrawn logs' := by
  simp [withdrawn]

@[simp] theorem received_deposit (u sender : Address) (amount timestamp : ℕ) :
    received [.DepositReceived u sender amount timestamp] = amount := rfl

@[simp] theorem received_withdrawal (recipient : Address) (amount : ℕ) :
    received [.Withdrawn recipient amount] = 0 := rfl

@[simp] theorem withdrawn_deposit (u sender : Address) (amount timestamp : ℕ) :
    withdrawn [.DepositReceived u sender amount timestamp] = 0 := rfl

@[simp] theorem withdrawn_withdrawal (recipient : Address) (amount : ℕ) :
    withdrawn [.Withdrawn recipient amount] = amount := rfl

@[simp] theorem total_append (records records' : List DepositRecord) :
    total (records ++ records') = total records + total records' := by
  simp [total]

/-- Every log is one of one user's records, or of none. -/
theorem sum_total_filterMap (logs : List Log) :
    ∑ u, total (logs.filterMap (Log.record u)) = received logs := by
  induction logs with
  | nil => simp [total, received]
  | cons log logs ih =>
      have hsplit : ∀ u, total ((log :: logs).filterMap (Log.record u))
          = total (log.record u).toList + total (logs.filterMap (Log.record u)) := by
        intro u
        cases hr : log.record u with
        | none => simp [hr, total]
        | some r => simp [hr, total]
      have hone : ∑ u, total (log.record u).toList = log.received := by
        cases log with
        | DepositReceived userId sender amount timestamp =>
            rw [Finset.sum_eq_single userId]
            · simp [Log.record, Log.received, total]
            · intro u _ hu
              simp [Log.record, hu.symm, total]
            · simp
        | Withdrawn recipient amount => simp [Log.record, Log.received, total]
      rw [Finset.sum_congr rfl fun u _ => hsplit u, Finset.sum_add_distrib, ih, hone]
      simp [received]

end Sums

/-! ## Under the guard -/

/-- What may change while a withdrawal is under way: the owner, the pause, and the balance
by what is forced in. -/
structure Guarded (s t : State) : Prop where
  entered : t.entered = s.entered
  totalDeposits : t.totalDeposits = s.totalDeposits
  userDeposits : t.userDeposits = s.userDeposits
  logs : t.logs = s.logs
  payments : t.payments = s.payments
  balance : t.balance + s.forced = s.balance + t.forced

theorem Guarded.refl (s : State) : Guarded s s := ⟨rfl, rfl, rfl, rfl, rfl, rfl⟩

theorem Guarded.trans {s t r : State} (h : Guarded s t) (h' : Guarded t r) : Guarded s r where
  entered := h'.entered.trans h.entered
  totalDeposits := h'.totalDeposits.trans h.totalDeposits
  userDeposits := h'.userDeposits.trans h.userDeposits
  logs := h'.logs.trans h.logs
  payments := h'.payments.trans h.payments
  balance := by
    have h₁ := h.balance
    have h₂ := h'.balance
    omega

section Calls

variable {self : Address} {timestamp : ℕ} {s t : State}

theorem nonReentrant_eq_some {body : State → Option State} (h : nonReentrant s body = some t) :
    s.entered = false ∧ ∃ r, body { s with entered := true } = some r
      ∧ t = { r with entered := false } := by
  unfold nonReentrant at h
  split at h
  · cases h
  · obtain ⟨r, hr, rfl⟩ := Option.map_eq_some_iff.mp h
    exact ⟨Bool.eq_false_iff.mpr ‹_›, r, hr, rfl⟩

theorem onlyOwner_eq_some {sender : Address} {body : Option State} :
    onlyOwner s sender body = some t ↔ sender = s.owner ∧ body = some t := by
  unfold onlyOwner
  split <;> simp_all

theorem nonPayable_eq_some {value : ℕ} {body : Option State} :
    nonPayable value body = some t ↔ value = 0 ∧ body = some t := by
  unfold nonPayable
  split <;> simp_all

/-- **Inversion.** What a call does that does not revert. -/
inductive Calls (self : Address) (timestamp : ℕ) (s : State) : Call → State → Prop
  | deposit (u : Address) (value totalDeposits : ℕ) (hguard : s.entered = false)
      (hmin : MIN_DEPOSIT ≤ value)
      (htotal : checkedAdd s.totalDeposits value = some totalDeposits) :
      Calls self timestamp s (.deposit u value u)
        { s with
          balance := s.balance + value
          totalDeposits
          userDeposits := Function.update s.userDeposits u
            (s.userDeposits u ++ [⟨u, value, timestamp⟩])
          logs := s.logs ++ [.DepositReceived u u value timestamp] }
  | withdraw (callback : List Call) (hguard : s.entered = false) :
      Calls self timestamp s (.withdraw s.owner 0 callback true)
        (let returned := callAll self timestamp
            (pay { s with entered := true } s.owner) callback
         { returned with
           entered := false, logs := returned.logs ++ [.Withdrawn s.owner s.balance] })
  | moved (c : Call) (owner : Address) (paused : Bool) :
      Calls self timestamp s c { s with owner, paused }
  | forced (value : ℕ) :
      Calls self timestamp s (.force value)
        { s with balance := s.balance + value, forced := s.forced + value }

theorem call_calls {c : Call} (h : call self timestamp s c = some t) :
    Calls self timestamp s c t := by
  cases c with
  | deposit sender value userId =>
      rw [call] at h
      obtain ⟨hguard, r, hr, rfl⟩ := nonReentrant_eq_some h
      obtain ⟨-, hr⟩ := Option.ite_none_left_eq_some.mp hr
      obtain ⟨hmin, hr⟩ := Option.ite_none_left_eq_some.mp hr
      obtain ⟨-, hr⟩ := Option.ite_none_left_eq_some.mp hr
      obtain ⟨hsender, hr⟩ := Option.ite_none_left_eq_some.mp hr
      obtain rfl := not_not.mp hsender
      obtain ⟨totalDeposits, htotal, rfl⟩ := Option.map_eq_some_iff.mp hr
      obtain ⟨owner, paused, entered⟩ := s
      obtain rfl : entered = false := hguard
      exact .deposit userId value totalDeposits rfl (not_lt.mp hmin) htotal
  | withdraw sender value callback accepts =>
      rw [call] at h
      obtain ⟨hvalue, h⟩ := nonPayable_eq_some.mp h
      obtain ⟨hsender, h⟩ := onlyOwner_eq_some.mp h
      obtain ⟨hguard, r, hr, rfl⟩ := nonReentrant_eq_some h
      subst hvalue hsender
      obtain ⟨-, hr⟩ := Option.ite_none_left_eq_some.mp hr
      obtain ⟨haccepts, hr⟩ := Option.ite_none_right_eq_some.mp hr
      obtain rfl := Option.some.inj hr
      obtain rfl : accepts = true := (Bool.and_eq_true_iff.mp haccepts).1
      exact .withdraw callback hguard
  | pause sender value =>
      rw [call] at h
      obtain ⟨-, h⟩ := nonPayable_eq_some.mp h
      obtain ⟨-, h⟩ := onlyOwner_eq_some.mp h
      obtain ⟨-, h⟩ := Option.ite_none_left_eq_some.mp h
      obtain rfl := Option.some.inj h
      exact .moved _ s.owner true
  | unpause sender value =>
      rw [call] at h
      obtain ⟨-, h⟩ := nonPayable_eq_some.mp h
      obtain ⟨-, h⟩ := onlyOwner_eq_some.mp h
      obtain ⟨-, h⟩ := Option.ite_none_right_eq_some.mp h
      obtain rfl := Option.some.inj h
      exact .moved _ s.owner false
  | transferOwnership sender value newOwner =>
      rw [call] at h
      obtain ⟨-, h⟩ := nonPayable_eq_some.mp h
      obtain ⟨-, h⟩ := onlyOwner_eq_some.mp h
      obtain ⟨-, h⟩ := Option.ite_none_left_eq_some.mp h
      obtain rfl := Option.some.inj h
      exact .moved _ newOwner s.paused
  | renounceOwnership sender value =>
      rw [call] at h
      obtain ⟨-, h⟩ := nonPayable_eq_some.mp h
      obtain ⟨-, h⟩ := onlyOwner_eq_some.mp h
      obtain rfl := Option.some.inj h
      exact .moved _ 0 s.paused
  | receive sender value =>
      rw [call] at h
      cases h
  | force value =>
      rw [call] at h
      obtain rfl := Option.some.inj h
      exact .forced value

theorem guarded_call {c : Call} (hs : s.entered = true) (h : call self timestamp s c = some t) :
    Guarded s t := by
  cases call_calls h with
  | deposit u value totalDeposits hguard => simp [hs] at hguard
  | withdraw callback hguard => simp [hs] at hguard
  | moved _ owner paused => exact ⟨rfl, rfl, rfl, rfl, rfl, rfl⟩
  | forced value => exact ⟨rfl, rfl, rfl, rfl, rfl, by dsimp only; omega⟩

/-- Whatever the recipient of a withdrawal calls. -/
theorem guarded_callAll {cs : List Call} (hs : s.entered = true) :
    Guarded s (callAll self timestamp s cs) := by
  induction cs generalizing s with
  | nil => exact .refl s
  | cons c cs ih =>
      rw [callAll]
      cases hc : call self timestamp s c with
      | none => exact ih hs
      | some t =>
          have hmove := guarded_call hs hc
          exact hmove.trans (ih (hmove.entered.trans hs))

/-- A withdrawal has entered before its recipient is paid. -/
theorem guarded_callback (self : Address) (timestamp : ℕ) (s : State) (callback : List Call) :
    Guarded (pay { s with entered := true } s.owner)
      (callAll self timestamp (pay { s with entered := true } s.owner) callback) :=
  guarded_callAll rfl

/-! ## The invariant -/

/-- The counter, the records, the logs and the balance agree. -/
structure Accounts (s : State) : Prop where
  records : ∀ u, s.userDeposits u = s.logs.filterMap (Log.record u)
  totalDeposits : s.totalDeposits = received s.logs
  fits : s.totalDeposits < 2 ^ 256
  balance : s.balance + withdrawn s.logs = s.totalDeposits + s.forced
  filed : ∀ u, ∀ r ∈ s.userDeposits u, r.sender = u ∧ MIN_DEPOSIT ≤ r.amount
  paid : ∀ p ∈ s.payments, p.recipient = p.owner
  sent : (s.payments.map Payment.amount).sum = withdrawn s.logs

theorem Accounts.deployed {initialOwner : Address} {held : ℕ}
    (h : deploy initialOwner held = some s) : Accounts s := by
  obtain ⟨-, h⟩ := Option.ite_none_left_eq_some.mp h
  obtain rfl := Option.some.inj h
  exact ⟨fun _ => rfl, rfl, Nat.two_pow_pos 256, by simp [withdrawn], by simp, by simp, rfl⟩

theorem checkedAdd_eq_some {a b c : ℕ} :
    checkedAdd a b = some c ↔ c = a + b ∧ a + b < 2 ^ 256 := by
  rw [checkedAdd, Option.ite_none_right_eq_some, Option.some_inj, and_comm, eq_comm]

theorem Accounts.call {c : Call} (hs : Accounts s) (h : Calls self timestamp s c t) :
    Accounts t := by
  cases h with
  | deposit u value totalDeposits hguard hmin htotal =>
      obtain ⟨rfl, hfits⟩ := checkedAdd_eq_some.mp htotal
      refine ⟨fun v => ?_, ?_, hfits, ?_, fun v r hr => ?_, hs.paid, ?_⟩
      · by_cases hv : v = u
        · obtain rfl := hv
          simp [Log.record, hs.records v]
        · simp [Log.record, hs.records v, hv, Ne.symm hv]
      · simp [hs.totalDeposits]
      · have hbalance := hs.balance
        simp only [withdrawn_append, withdrawn_deposit]
        omega
      · by_cases hv : v = u
        · obtain rfl := hv
          simp only [Function.update_self, List.mem_append, List.mem_singleton] at hr
          rcases hr with hold | rfl
          · exact hs.filed v r hold
          · exact ⟨rfl, hmin⟩
        · simp only [Function.update_of_ne hv] at hr
          exact hs.filed v r hr
      · simpa using hs.sent
  | withdraw callback hguard =>
      have hback := guarded_callback self timestamp s callback
      generalize callAll self timestamp _ callback = returned at hback
      have hlogs : returned.logs = s.logs := hback.logs
      have hdeposits : returned.userDeposits = s.userDeposits := hback.userDeposits
      have htotal : returned.totalDeposits = s.totalDeposits := hback.totalDeposits
      have hpayments : returned.payments = s.payments ++ [⟨s.owner, s.balance, s.owner⟩] :=
        hback.payments
      have hforced : returned.balance + s.forced = 0 + returned.forced := hback.balance
      refine ⟨fun v => ?_, ?_, ?_, ?_, fun v r hr => ?_, fun p hp => ?_, ?_⟩
      · simp [hlogs, hdeposits, hs.records v, Log.record]
      · simp [hlogs, htotal, hs.totalDeposits]
      · exact htotal ▸ hs.fits
      · have hbalance := hs.balance
        simp only [hlogs, htotal, withdrawn_append, withdrawn_withdrawal]
        omega
      · exact hs.filed v r (hdeposits ▸ hr)
      · rw [show _ = _ from hpayments] at hp
        rcases List.mem_append.mp hp with hold | hnew
        · exact hs.paid p hold
        · obtain rfl := List.mem_singleton.mp hnew
          rfl
      · simp [hlogs, hpayments, hs.sent]
  | moved _ owner paused =>
      exact ⟨hs.records, hs.totalDeposits, hs.fits, hs.balance, hs.filed, hs.paid, hs.sent⟩
  | forced value =>
      refine ⟨hs.records, hs.totalDeposits, hs.fits, ?_, hs.filed, hs.paid, hs.sent⟩
      have hbalance := hs.balance
      dsimp only
      omega

/-- A call logs one deposit, one withdrawal, or nothing. -/
theorem Calls.logs {c : Call} (h : Calls self timestamp s c t) :
    t.logs = s.logs ∨ (∃ recipient amount, t.logs = s.logs ++ [.Withdrawn recipient amount])
      ∨ ∃ u value, c = .deposit u value u
        ∧ t.logs = s.logs ++ [.DepositReceived u u value timestamp] := by
  cases h with
  | deposit u value totalDeposits => exact Or.inr (Or.inr ⟨u, value, rfl, rfl⟩)
  | withdraw callback hguard =>
      have hback := guarded_callback self timestamp s callback
      exact Or.inr (Or.inl ⟨s.owner, s.balance, congrArg (· ++ _) hback.logs⟩)
  | moved _ owner paused => exact Or.inl rfl
  | forced value => exact Or.inl rfl

/-- Only a deposit from an address adds to its records. -/
theorem Calls.userDeposits {c : Call} {u : Address} (h : Calls self timestamp s c t)
    (hc : ∀ value userId, c ≠ .deposit u value userId) : t.userDeposits u = s.userDeposits u := by
  cases h with
  | deposit v value totalDeposits =>
      have hv : u ≠ v := by
        rintro rfl
        exact hc value u rfl
      exact Function.update_of_ne hv _ _
  | withdraw callback hguard =>
      have hback := guarded_callback self timestamp s callback
      exact congrFun hback.userDeposits u
  | moved _ owner paused => rfl
  | forced value => rfl

end Calls

/-! ## Amounts by timestamp -/

section Amounts

/-- The records of one timestamp. -/
def recordedAt (timestamp : ℕ) (records : List DepositRecord) : List DepositRecord :=
  records.filter (·.timestamp = timestamp)

theorem total_recordedAt_le (timestamp : ℕ) (records : List DepositRecord) :
    total (recordedAt timestamp records) ≤ total records := by
  induction records with
  | nil => exact le_rfl
  | cons r records ih =>
      by_cases hr : r.timestamp = timestamp
      · simpa [recordedAt, total, hr] using ih
      · have hle : total records ≤ total (r :: records) := by simp [total]
        simpa [recordedAt, hr] using ih.trans hle

/-- Its loop does not overflow while the sum fits. -/
theorem foldlM_amounts {timestamp : ℕ} {records : List DepositRecord} {start : ℕ}
    (hfits : start + total (recordedAt timestamp records) < 2 ^ 256) :
    records.foldlM
        (fun sum r => if r.timestamp = timestamp then checkedAdd sum r.amount else some sum) start
      = some (start + total (recordedAt timestamp records)) := by
  induction records generalizing start with
  | nil => rfl
  | cons r records ih =>
      by_cases hr : r.timestamp = timestamp
      · have hsum : total (recordedAt timestamp (r :: records))
            = r.amount + total (recordedAt timestamp records) := by
          simp [recordedAt, total, hr]
        rw [hsum] at hfits ⊢
        have hadd : checkedAdd start r.amount = some (start + r.amount) :=
          checkedAdd_eq_some.mpr ⟨rfl, by omega⟩
        rw [List.foldlM_cons, if_pos hr, hadd]
        show List.foldlM _ _ _ = _
        rw [ih (by omega), add_assoc]
      · have hsum : recordedAt timestamp (r :: records) = recordedAt timestamp records := by
          simp [recordedAt, hr]
        rw [hsum] at hfits ⊢
        rw [List.foldlM_cons, if_neg hr]
        exact ih hfits

/-- Every record has one of the timestamps. -/
theorem sum_recordedAt {timestamps : Finset ℕ} {records : List DepositRecord}
    (h : ∀ r ∈ records, r.timestamp ∈ timestamps) :
    ∑ t ∈ timestamps, total (recordedAt t records) = total records := by
  induction records with
  | nil => simp [recordedAt, total]
  | cons r records ih =>
      have hsplit : ∀ t, total (recordedAt t (r :: records))
          = (if r.timestamp = t then r.amount else 0) + total (recordedAt t records) := by
        intro t
        by_cases hr : r.timestamp = t
        · simp [recordedAt, total, hr]
        · simp [recordedAt, hr]
      rw [Finset.sum_congr rfl fun t _ => hsplit t, Finset.sum_add_distrib,
        ih fun r' hr' => h r' (List.mem_cons_of_mem r hr')]
      simp [h r List.mem_cons_self, total]

end Amounts

/-! ## Runs -/

section Runs

variable {self : Address} {s t : State}

/-- The timestamps of a user's records. -/
def timestamps (s : State) (u : Address) : Finset ℕ :=
  ((s.userDeposits u).map DepositRecord.timestamp).toFinset

theorem le_sum_univ {α : Type} [Fintype α] (f : α → ℕ) (a : α) : f a ≤ ∑ b, f b :=
  Finset.single_le_sum (fun _ _ => Nat.zero_le _) (Finset.mem_univ a)

theorem Accounts.total_lt (hs : Accounts s) (u : Address) :
    total (s.userDeposits u) < 2 ^ 256 := by
  have hle : total (s.userDeposits u) ≤ ∑ v, total (s.userDeposits v) :=
    le_sum_univ (fun v => total (s.userDeposits v)) u
  have hsum : ∑ v, total (s.userDeposits v) = s.totalDeposits := by
    rw [Finset.sum_congr rfl fun v _ => congrArg total (hs.records v), sum_total_filterMap,
      hs.totalDeposits]
  exact (hle.trans hsum.le).trans_lt hs.fits

theorem Accounts.getDepositAmount (hs : Accounts s) (u : Address) (timestamp : ℕ) :
    getDepositAmount s u timestamp
      = some (total (recordedAt timestamp (s.userDeposits u))) := by
  have hfits : 0 + total (recordedAt timestamp (s.userDeposits u)) < 2 ^ 256 := by
    have hle := total_recordedAt_le timestamp (s.userDeposits u)
    have hlt := hs.total_lt u
    omega
  rw [DepositContract.getDepositAmount, foldlM_amounts hfits, Nat.zero_add]

/-- What a user, an auditor and the owner read off the contract. -/
structure Sound (self : Address) (s : State) : Prop where
  recorded : s.totalDeposits = ∑ u, total (s.userDeposits u)
  logged : s.totalDeposits = received s.logs
  balance : s.balance + withdrawn s.logs = s.totalDeposits + s.forced
  filed : ∀ u, ∀ r ∈ s.userDeposits u, r.sender = u ∧ MIN_DEPOSIT ≤ r.amount
  /-- Only the owner receives POL, and what it receives is logged. -/
  paid : (∀ p ∈ s.payments, p.recipient = p.owner)
    ∧ (s.payments.map Payment.amount).sum = withdrawn s.logs
  amounts : ∀ u, ∃ amount : ℕ → ℕ, (∀ timestamp, getDepositAmount s u timestamp
      = some (amount timestamp))
    ∧ ∑ timestamp ∈ timestamps s u, amount timestamp = total (s.userDeposits u)
  /-- A call that reverts changes nothing, also inside of another. -/
  reverted : ∀ timestamp c, call self timestamp s c = none →
    (system self).step s ⟨timestamp, c⟩ = some s
      ∧ ∀ cs, callAll self timestamp s (c :: cs) = callAll self timestamp s cs
  /-- The records of a user are its own. -/
  own : ∀ u tx s', (system self).step s tx = some s' →
    (∀ value userId, tx.call ≠ .deposit u value userId) → s'.userDeposits u = s.userDeposits u

theorem step_eq {tx : Transaction} (h : (system self).step s tx = some t) :
    call self tx.timestamp s tx.call = some t ∨ t = s := by
  obtain rfl := Option.some.inj h
  cases hc : call self tx.timestamp s tx.call with
  | none => exact Or.inr rfl
  | some r => exact Or.inl rfl

theorem Accounts.step {tx : Transaction} (hs : Accounts s)
    (h : (system self).step s tx = some t) : Accounts t := by
  rcases step_eq h with hcall | rfl
  · exact hs.call (call_calls hcall)
  · exact hs

theorem Accounts.sound (hs : Accounts s) : Sound self s where
  recorded := by
    rw [Finset.sum_congr rfl fun u _ => congrArg total (hs.records u), sum_total_filterMap,
      hs.totalDeposits]
  logged := hs.totalDeposits
  balance := hs.balance
  filed := hs.filed
  paid := ⟨hs.paid, hs.sent⟩
  amounts u :=
    ⟨fun timestamp => total (recordedAt timestamp (s.userDeposits u)), hs.getDepositAmount u,
      sum_recordedAt fun r hr => List.mem_toFinset.mpr (List.mem_map_of_mem hr)⟩
  reverted timestamp c hc := ⟨by simp [system, hc], fun cs => by simp [callAll, hc]⟩
  own u tx s' h hother := by
    rcases step_eq h with hcall | rfl
    · exact (call_calls hcall).userDeposits hother
    · rfl

/-- The accounts agree after every sequence of calls. -/
theorem deposits_sound_of_run {initialOwner : Address} {held : ℕ} {deployed : State}
    {txs : List Transaction} (hdeploy : deploy initialOwner held = some deployed)
    (hrun : (system self).run deployed txs = some s) : Sound self s := by
  have hs : Accounts s :=
    (system self).run_kept (fun _ _ _ (hs : Accounts _) h => hs.step h) (.deployed hdeploy) hrun
  exact hs.sound

/-- Two deposits of address 2 in one block, and a withdrawal in which the owner, 1, tries
to withdraw again, to deposit, and forces in 7 wei. -/
def calls : List Transaction :=
  [⟨5, .deposit 2 MIN_DEPOSIT 2⟩, ⟨5, .deposit 2 (2 * MIN_DEPOSIT) 2⟩,
    ⟨6, .withdraw 1 0 [.withdraw 1 0 [] true, .deposit 1 MIN_DEPOSIT 1, .force 7] true⟩]

theorem deposits_sound_of_run_calls :
    ∃ deployed s, deploy 1 3 = some deployed ∧ (system 9).run deployed calls = some s
      ∧ Sound 9 s ∧ s.balance = 7 ∧ getDepositAmount s 2 5 = some (3 * MIN_DEPOSIT) := by
  exact ⟨_, _, rfl, rfl, @deposits_sound_of_run 9 _ 1 3 _ calls rfl rfl, by decide +kernel,
    by decide +kernel⟩

end Runs

end BlockMiner.DepositContract
