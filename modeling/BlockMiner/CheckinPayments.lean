import BlockMiner.Checkin

/-!
# What a payment confirms

A check-in is confirmed by an update of a row that another request may have
given another hash, or another day's row the same payment, since the hash was
saved. `Allowed` says for each write which rows it may find; `apply_iff` is
that a write leaves the payments as they should be, and the confirmed rows
confirmed, if and only if it is allowed.
-/

namespace BlockMiner.Checkin

variable (config : Config)

/-! ## What should hold -/

/-- A payment confirms one row, which stores its hash. -/
structure PaymentsSound (db : Db) : Prop where
  once : ∀ i j row row', db.checkins.row i = some row → db.checkins.row j = some row' →
    row.status = .confirmed → row'.status = .confirmed →
    ∀ payment, row.basis = some payment → row'.basis = some payment → i = j
  stored : ∀ i row, db.checkins.row i = some row → row.status = .confirmed →
    ∀ payment, row.basis = some payment → onChain row.txHash = payment

def ConfirmedKept (db db' : Db) : Prop :=
  ∀ i row, db.checkins.row i = some row → row.status = .confirmed →
    ∃ row', db'.checkins.row i = some row' ∧ row'.status = .confirmed

/-- Payments only confirm. -/
structure Sound (db : Db) : Prop extends PaymentsSound db where
  confirmed : ∀ i row, db.checkins.row i = some row → row.basis ≠ none → row.status = .confirmed

/-- The rows that a write may find. -/
def Allowed (db : Db) : Write → Prop
  | .create _ => True
  | .claim id txHash _ => ∀ row ∈ db.checkins.row id, ∀ payment ∈ row.basis,
      onChain txHash = payment
  | .resubmit id _ | .resubmitWallet id _ | .fail id => ∀ row ∈ db.checkins.row id,
      row.status ≠ .confirmed
  | .confirm id payment _ => ∀ row ∈ db.checkins.row id, onChain row.txHash = payment
      ∧ ∀ found ∈ db.checkins.rows, found.2.status = .confirmed →
        found.2.basis = some payment → found.1 = id

instance (db : Db) : ∀ w, Decidable (Allowed db w)
  | .create _ => inferInstanceAs (Decidable True)
  | .claim id _ _ => inferInstanceAs (Decidable (∀ row ∈ db.checkins.row id, _))
  | .resubmit id _ => inferInstanceAs (Decidable (∀ row ∈ db.checkins.row id, _))
  | .resubmitWallet id _ => inferInstanceAs (Decidable (∀ row ∈ db.checkins.row id, _))
  | .fail id => inferInstanceAs (Decidable (∀ row ∈ db.checkins.row id, _))
  | .confirm id _ _ => inferInstanceAs (Decidable (∀ row ∈ db.checkins.row id, _))

/-! ## A row that changes -/

section Modify

variable {db : Db} {id : ℕ} {row : DailyCheckin} {f : DailyCheckin → DailyCheckin}

def modified (db : Db) (id : ℕ) (f : DailyCheckin → DailyCheckin) : Db :=
  { db with checkins := db.checkins.modify id f }

theorem modified_row_self (hrow : db.checkins.row id = some row) :
    (modified db id f).checkins.row id = some (f row) := by
  show (db.checkins.modify id f).row id = _
  rw [Table.modify_row, if_pos rfl, hrow, Option.map_some]

theorem modified_row_of_ne {i : ℕ} (hi : i ≠ id) :
    (modified db id f).checkins.row i = db.checkins.row i := by
  show (db.checkins.modify id f).row i = _
  rw [Table.modify_row, if_neg hi]

/-- An update of a row that is missing. -/
theorem modified_of_none (hrow : db.checkins.row id = none) (i : ℕ) :
    (modified db id f).checkins.row i = db.checkins.row i := by
  by_cases hi : i = id
  · show (db.checkins.modify id f).row i = _
    rw [Table.modify_row, if_pos hi, hi, hrow, Option.map_none]
  · exact modified_row_of_ne hi

theorem paymentsSound_modified (h : PaymentsSound db) (hrow : db.checkins.row id = some row) :
    PaymentsSound (modified db id f) ↔
      ((f row).status = .confirmed → ∀ payment, (f row).basis = some payment →
        onChain (f row).txHash = payment ∧ ∀ j row', db.checkins.row j = some row' →
          row'.status = .confirmed → row'.basis = some payment → j ≠ id → False) := by
  constructor
  · intro h' hconfirmed payment hbasis
    have hself := modified_row_self (f := f) hrow
    refine ⟨h'.stored id _ hself hconfirmed payment hbasis, ?_⟩
    intro j row' hj hconfirmed' hbasis' hne
    have hj' := (modified_row_of_ne (f := f) hne).trans hj
    exact hne (h'.once j id row' _ hj' hself hconfirmed' hconfirmed payment hbasis' hbasis)
  · intro hnew
    refine ⟨fun i j r r' hi hj hr hr' payment hb hb' => ?_, fun i r hi hr payment hb => ?_⟩
    · by_cases hii : i = id
      · by_cases hjj : j = id
        · rw [hii, hjj]
        · rw [hii, modified_row_self hrow] at hi
          obtain rfl := Option.some.inj hi
          rw [modified_row_of_ne hjj] at hj
          exact ((hnew hr payment hb).2 j r' hj hr' hb' hjj).elim
      · rw [modified_row_of_ne hii] at hi
        by_cases hjj : j = id
        · rw [hjj, modified_row_self hrow] at hj
          obtain rfl := Option.some.inj hj
          exact ((hnew hr' payment hb').2 i r hi hr hb hii).elim
        · rw [modified_row_of_ne hjj] at hj
          exact h.once i j r r' hi hj hr hr' payment hb hb'
    · by_cases hii : i = id
      · rw [hii, modified_row_self hrow] at hi
        obtain rfl := Option.some.inj hi
        exact (hnew hr payment hb).1
      · rw [modified_row_of_ne hii] at hi
        exact h.stored i r hi hr payment hb

theorem confirmedKept_modified (hrow : db.checkins.row id = some row) :
    ConfirmedKept db (modified db id f) ↔
      (row.status = .confirmed → (f row).status = .confirmed) := by
  constructor
  · intro h hconfirmed
    obtain ⟨row', hrow', hconfirmed'⟩ := h id row hrow hconfirmed
    rw [modified_row_self hrow] at hrow'
    obtain rfl := Option.some.inj hrow'
    exact hconfirmed'
  · intro h i r hi hr
    by_cases hii : i = id
    · subst hii
      obtain rfl := Option.some.inj (hrow.symm.trans hi)
      exact ⟨_, modified_row_self hrow, h hr⟩
    · exact ⟨r, (modified_row_of_ne hii).trans hi, hr⟩

/-- What an update has to do with the row it finds. -/
theorem modified_iff (h : PaymentsSound db) :
    PaymentsSound (modified db id f) ∧ ConfirmedKept db (modified db id f) ↔
      ∀ row ∈ db.checkins.row id, (row.status = .confirmed → (f row).status = .confirmed)
        ∧ ((f row).status = .confirmed → ∀ payment, (f row).basis = some payment →
          onChain (f row).txHash = payment ∧ ∀ j row', db.checkins.row j = some row' →
            row'.status = .confirmed → row'.basis = some payment → j ≠ id → False) := by
  cases hrow : db.checkins.row id with
  | some row =>
      rw [paymentsSound_modified h hrow, confirmedKept_modified hrow]
      simp only [Option.mem_some_iff, forall_eq']
      exact and_comm
  | none =>
      have hsame := modified_of_none (f := f) hrow
      refine ⟨fun _ row hmem => (nomatch hmem), fun _ => ⟨⟨?_, ?_⟩, ?_⟩⟩
      · intro i j r r' hi hj
        exact h.once i j r r' ((hsame i).symm.trans hi) ((hsame j).symm.trans hj)
      · intro i r hi
        exact h.stored i r ((hsame i).symm.trans hi)
      · intro i r hi hr
        exact ⟨r, (hsame i).trans hi, hr⟩

end Modify

/-! ## The writes -/

section Apply

variable {db : Db} (hdb : Sound db)
include hdb

theorem create_sound {row : DailyCheckin} (hnone : row.basis = none) :
    PaymentsSound (apply config db (.create row))
      ∧ ConfirmedKept db (apply config db (.create row)) := by
  have hrows : ∀ {i r payment}, (apply config db (.create row)).checkins.row i = some r →
      r.basis = some payment → db.checkins.row i = some r := by
    intro i r payment hi hb
    rcases Table.insert_row_eq_some.mp hi with ⟨-, rfl⟩ | hold
    · rw [hnone] at hb
      cases hb
    · exact hold
  refine ⟨⟨?_, ?_⟩, ?_⟩
  · intro i j r r' hi hj hr hr' payment hb hb'
    exact hdb.once i j r r' (hrows hi hb) (hrows hj hb') hr hr' payment hb hb'
  · intro i r hi hr payment hb
    exact hdb.stored i r (hrows hi hb) hr payment hb
  · intro i r hi hr
    exact ⟨r, Table.insert_row_of_some hi row, hr⟩

/-- **Writes.** A write leaves every payment with one row that stores its hash,
and the confirmed rows confirmed, if and only if it is allowed. -/
theorem apply_iff {w : Write} (hw : ∀ row, w = .create row → row.basis = none) :
    PaymentsSound (apply config db w) ∧ ConfirmedKept db (apply config db w) ↔ Allowed db w := by
  cases w with
  | create row => exact iff_of_true (create_sound config hdb (hw row rfl)) trivial
  | claim id txHash now =>
      refine (modified_iff hdb.toPaymentsSound).trans (forall₂_congr fun row hrow => ?_)
      constructor
      · intro h payment hb
        exact (h.2 rfl payment hb).1
      · refine fun h => ⟨fun _ => rfl, fun _ payment hb => ⟨h payment hb, ?_⟩⟩
        intro j row' hj hr' hb' hne
        have hr := hdb.confirmed id row hrow (by rw [show row.basis = some payment from hb]; simp)
        exact hne (hdb.once j id row' row hj hrow hr' hr payment hb' hb)
  | resubmit id txHash | resubmitWallet id txHash | fail id =>
      refine (modified_iff hdb.toPaymentsSound).trans (forall₂_congr fun row hrow => ?_)
      constructor
      · intro h hconfirmed
        cases h.1 hconfirmed
      · intro h
        exact ⟨fun hconfirmed => absurd hconfirmed h, fun hconfirmed => nomatch hconfirmed⟩
  | confirm id payment now =>
      refine (modified_iff hdb.toPaymentsSound).trans (forall₂_congr fun row hrow => ?_)
      constructor
      · intro h
        obtain ⟨hhash, hothers⟩ := h.2 rfl payment rfl
        refine ⟨hhash, fun found hfound hconfirmed hbasis => ?_⟩
        by_contra hne
        exact hothers found.1 found.2 (Table.mem_rows.mp hfound) hconfirmed hbasis hne
      · rintro ⟨hhash, hothers⟩
        refine ⟨fun _ => rfl, fun _ payment' hb => ?_⟩
        obtain rfl := Option.some.inj hb
        refine ⟨hhash, fun j row' hj hr' hb' hne => hne ?_⟩
        exact hothers (j, row') (Table.mem_rows.mpr hj) hr' hb'

/-- After a write that is allowed, still only confirmed rows have a basis. -/
theorem apply_confirmed {w : Write} (hw : ∀ row, w = .create row → row.basis = none)
    (h : Allowed db w) : ∀ i row, (apply config db w).checkins.row i = some row →
      row.basis ≠ none → row.status = .confirmed := by
  have hmodified : ∀ {id f}, (∀ row ∈ db.checkins.row id, (f row).basis ≠ none →
      (f row).status = .confirmed) → ∀ i row, (modified db id f).checkins.row i = some row →
        row.basis ≠ none → row.status = .confirmed := by
    intro id f hf i row hi
    rcases Table.modify_row_eq_some.mp hi with ⟨rfl, old, hold, rfl⟩ | ⟨-, hold⟩
    · exact hf old hold
    · exact hdb.confirmed i row hold
  cases w with
  | create row =>
      intro i r hi hb
      rcases Table.insert_row_eq_some.mp hi with ⟨-, rfl⟩ | hold
      · exact absurd (hw r rfl) hb
      · exact hdb.confirmed i r hold hb
  | claim id txHash now | confirm id payment now => exact hmodified fun row _ _ => rfl
  | resubmit id txHash | resubmitWallet id txHash | fail id =>
      refine hmodified fun row hrow hb => ?_
      exact absurd (hdb.confirmed id row hrow hb) (h row hrow)

end Apply

/-! ## Steps -/

/-- The write of an event. -/
def writes (s : InFlight Db Call) : Event Request Answer → Option Write
  | .start _ => none
  | .resume call a => (s.calls.row call).bind fun c => (act config s.db c a).1

theorem act_create {db : Db} {c : Call} {a : Answer} {row : DailyCheckin}
    (h : (act config db c a).1 = some (.create row)) : row.basis = none := by
  cases a with
  | error => cases c <;> cases h
  | ok now =>
      cases c with
      | claimUpsert userId today =>
          simp only [act] at h
          split at h <;> split at h <;> cases h
          rfl
      | confirmSave p existing =>
          cases existing with
          | some id =>
              simp only [act] at h
              split at h <;> cases h
          | none =>
              simp only [act] at h
              split at h <;> cases h
              rfl
      | walletUpsert p =>
          simp only [act] at h
          split at h <;> split at h <;> cases h
          rfl
      | confirmFail p | confirmDone p =>
          obtain ⟨found, -, hfound⟩ := Option.map_eq_some_iff.mp h
          cases hfound
      | finalizeConfirm | finalizeFail | todayFind | staleFind => cases h
      | evaluate | confirmUser | confirmEvaluate | walletUser =>
          simp only [act] at h
          split at h <;> cases h
      | claimFind | confirmFind | confirmDup | walletFind =>
          simp only [act] at h
          split at h <;> cases h

theorem writes_create {s : InFlight Db Call} {e : Event Request Answer} {w : Write}
    (h : writes config s e = some w) (row : DailyCheckin) (hw : w = .create row) :
    row.basis = none := by
  cases e with
  | start r => cases h
  | resume call a =>
      obtain ⟨c, -, h⟩ := Option.bind_eq_some_iff.mp h
      exact act_create config (h.trans (congrArg some hw))

theorem step_db {s s' : InFlight Db Call} {e : Event Request Answer}
    (h : (service config).step s e = some s') :
    s'.db = (writes config s e).elim s.db (apply config s.db) := by
  cases e with
  | start r =>
      obtain rfl := Option.some.inj h
      rfl
  | resume call a =>
      obtain ⟨c, db, next, hc, hr, rfl⟩ := (service config).step_resume h
      obtain ⟨rfl, -⟩ := Prod.mk.inj (Option.some.inj hr)
      rw [writes, hc]
      rfl

/-- An event that writes can happen. -/
theorem step_of_writes {s : InFlight Db Call} {e : Event Request Answer} {w : Write}
    (h : writes config s e = some w) : ∃ s', (service config).step s e = some s' := by
  cases e with
  | start r => cases h
  | resume call a =>
      obtain ⟨c, hc, -⟩ := Option.bind_eq_some_iff.mp h
      exact ⟨_, by rw [Service.step, hc]; rfl⟩

/-! ## Runs -/

/-- The step leaves every payment with one row that stores its hash, and every
confirmed row confirmed. -/
def PaymentsKept (s : InFlight Db Call) (e : Event Request Answer) : Prop :=
  ∀ s', (service config).step s e = some s' →
    PaymentsSound s'.db ∧ ConfirmedKept s.db s'.db

/-- The write of the step is allowed. -/
def WriteAllowed (s : InFlight Db Call) (e : Event Request Answer) : Prop :=
  ∀ w ∈ writes config s e, Allowed s.db w

instance (s : InFlight Db Call) (e : Event Request Answer) : Decidable (WriteAllowed config s e) :=
  inferInstanceAs (Decidable (∀ w ∈ writes config s e, _))

theorem confirmedKept_refl (db : Db) : ConfirmedKept db db :=
  fun _ row hrow hconfirmed => ⟨row, hrow, hconfirmed⟩

theorem paymentsKept_iff {s : InFlight Db Call} (hs : Sound s.db) (e : Event Request Answer) :
    PaymentsKept config s e ↔ WriteAllowed config s e := by
  cases hw : writes config s e with
  | none =>
      refine iff_of_true (fun s' h => ?_) fun w hmem => ?_
      · rw [step_db config h, hw]
        exact ⟨hs.toPaymentsSound, confirmedKept_refl s.db⟩
      · rw [hw] at hmem
        cases hmem
  | some w =>
      have hiff := apply_iff config hs (writes_create config hw)
      constructor
      · intro hkept w' hw'
        obtain rfl := Option.some.inj (hw.symm.trans hw')
        obtain ⟨s', h⟩ := step_of_writes config hw
        have hafter := hkept s' h
        rw [step_db config h, hw] at hafter
        exact hiff.mp hafter
      · intro hallowed s' h
        rw [step_db config h, hw]
        exact hiff.mpr (hallowed w hw)

theorem sound_step {s s' : InFlight Db Call} {e : Event Request Answer} (hs : Sound s.db)
    (hkept : PaymentsKept config s e) (h : (service config).step s e = some s') :
    Sound s'.db := by
  refine ⟨(hkept s' h).1, ?_⟩
  have hallowed := (paymentsKept_iff config hs e).mp hkept
  rw [step_db config h]
  cases hw : writes config s e with
  | none => exact hs.confirmed
  | some w => exact apply_confirmed config hs (writes_create config hw) (hallowed w hw)

/-- **Check-in payments.** In a run no payment confirms two rows, every row that
a payment has confirmed stores its hash, and confirmed rows stay confirmed, if
and only if every write finds a row that it is allowed to change. -/
theorem payments_not_reused {s : InFlight Db Call} (hs : Sound s.db)
    {es : List (Event Request Answer)} :
    (service config).sys.Meets (PaymentsKept config) s es
      ↔ (service config).sys.Meets (WriteAllowed config) s es :=
  (service config).sys.meets_iff_of_kept (I := fun s => Sound s.db)
    (fun _ _ _ hs hkept h => sound_step config hs hkept h)
    (fun _ e hs => paymentsKept_iff config hs e) hs

/-! ### One payment on two days -/

def payment : String := "0x" ++ String.ofList (List.replicate 64 'b')

def upperCasePayment : String := "0x" ++ String.ofList (List.replicate 64 'B')

/-- The chain knows one payment, of `minWei` to the receiver. The free check-ins
are those of user 1. -/
def onePayment : Config where
  receiver := "0xAb00000000000000000000000000000000000001"
  minWei := 10 ^ 16
  POLYGON_CHAIN_ID := 137
  getBrazilCheckinDateKey now := if now < 24 * 3600000 then "2026-01-01" else "2026-01-02"
  syntheticFreeTxHash _ checkinDate :=
    if checkinDate = "2026-01-01" then
      "0xaf1f4d1990137820f9dbf36437250d83d00fcff89722425505dcdc6da0b9f519"
    else "0x62f22ca1b55aacf0af938b8ebd992a2cbca41ec03889218fd9a53348283af04e"
  chain _ txHash :=
    if txHash = payment then
      some
        { fromAddr := "0xcd00000000000000000000000000000000000002"
          toAddr := "0xab00000000000000000000000000000000000001"
          value := some (10 ^ 16)
          receipt := some true }
    else none

/-- Before the first check-in of user 1. -/
def notCheckedIn : InFlight Db Call where
  db :=
    { checkins := .empty
      wallets := fun userId =>
        if userId = 1 then some "0xCd00000000000000000000000000000000000002" else none }
  calls := .empty

theorem notCheckedIn_sound : Sound notCheckedIn.db :=
  ⟨⟨fun _ _ _ _ hrow => (nomatch hrow), fun _ _ hrow => (nomatch hrow)⟩,
    fun _ _ hrow => (nomatch hrow)⟩

/-- The steps of a `confirmCheckin` that nothing interrupts. -/
def confirmCheckinAt (call : ℕ) (txHash : String) (now : ℤ) : List (Event Request Answer) :=
  .start (.confirmCheckin 1 txHash) :: List.replicate 6 (.resume call (.ok now))

def confirmedBy (t : InFlight Db Call) (id : ℕ) (payment : String) : Prop :=
  ∃ row ∈ t.db.checkins.row id, row.status = .confirmed ∧ row.basis = some payment

instance (t : InFlight Db Call) (id : ℕ) (payment : String) :
    Decidable (confirmedBy t id payment) :=
  inferInstanceAs (Decidable (∃ row ∈ t.db.checkins.row id, _))

/-- One day's check-in, confirmed by its payment. -/
theorem payments_not_reused_paid :
    (service onePayment).sys.Meets (PaymentsKept onePayment) notCheckedIn
        (confirmCheckinAt 1 payment 0)
      ∧ ∃ t ∈ (service onePayment).sys.run notCheckedIn (confirmCheckinAt 1 payment 0),
        confirmedBy t 1 payment := by
  -- one evaluation for both
  have hrun : (service onePayment).sys.Meets (WriteAllowed onePayment) notCheckedIn
        (confirmCheckinAt 1 payment 0)
      ∧ ∃ t ∈ (service onePayment).sys.run notCheckedIn (confirmCheckinAt 1 payment 0),
        confirmedBy t 1 payment := by
    decide +kernel
  exact ⟨(payments_not_reused onePayment notCheckedIn_sound).mpr hrun.1, hrun.2⟩

/-- On the second day the hash is sent in upper case. -/
def paidTwice : List (Event Request Answer) :=
  confirmCheckinAt 1 payment 0 ++ confirmCheckinAt 2 upperCasePayment (24 * 3600000)

theorem payment_reused :
    ¬∀ es t, (service onePayment).sys.run notCheckedIn es = some t → PaymentsSound t.db := by
  intro h
  have hrun : ∃ t ∈ (service onePayment).sys.run notCheckedIn paidTwice,
      confirmedBy t 1 payment ∧ confirmedBy t 2 payment := by
    decide +kernel
  obtain ⟨t, hrun, ⟨row, hrow, hconfirmed, hbasis⟩, ⟨row', hrow', hconfirmed', hbasis'⟩⟩ := hrun
  have hsame := (h paidTwice t hrun).once 1 2 row row' hrow hrow' hconfirmed hconfirmed' payment
    hbasis hbasis'
  exact absurd hsame (by decide)

end BlockMiner.Checkin
