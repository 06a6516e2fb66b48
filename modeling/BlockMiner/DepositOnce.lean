import BlockMiner.Deposit
import Mathlib.Tactic.Ring

/-!
# A deposit is credited at most once

Every crediting transaction leaves a row of its hash with `completedAt`
set, and nothing clears that column again, not even a verifier that marks
a credited row as failed. So a hash is credited once as long as every
crediting transaction commits while no row of its hash has `completedAt`
set (`FirstCredit`). The duplicate checks of the code are made earlier, on
other columns and on the stored spelling, and do not establish this.

`resume_cases` says what one step can do: it is quiet, or it pays one
credit and records it.
-/

namespace BlockMiner.Deposit

namespace Db

/-- The logged credits on account of an on-chain transaction. -/
def creditsFor (db : Db) (h : Nat) : List Credit := db.credits.filter fun c => c.hash = some h

def credited (db : Db) (h : Nat) : ℚ := ((db.creditsFor h).map (·.amount)).sum

/-- Some row of that transaction has been completed before. -/
def alreadyCompleted (db : Db) (h : Nat) : Bool :=
  (db.transactions.findFirst fun _ r => r.hash = some h ∧ r.completedAt.isSome).isSome

def polBalance? (db : Db) (u : UserId) : Option ℚ := (db.users.row u).map (·.polBalance)

end Db

/-- What was credited for a transaction is the amount of one credit, if
there was any. -/
def CreditedOnce (db : Db) : Prop :=
  ∀ h, db.credited h = 0 ∨ ∃ c ∈ db.credits, c.hash = some h ∧ db.credited h = c.amount

/-- The transaction a step credits, when it is a crediting step. -/
def creditHash (db : Db) : Call → Answer → Option Nat
  | .crediting id _ _ _, .done _ => (db.transactions.row id).bind (·.hash)
  | .depositCommit _ _ txHash, .done _ => some txHash.hash
  | .approving _ ticket _, .done _ => ticket.txHash.map HashText.hash
  | _, _ => none

/-- A crediting step finds no row of its transaction completed before. -/
def FirstCredit (db : Db) (c : Call) (a : Answer) : Prop :=
  ∀ h ∈ creditHash db c a, db.alreadyCompleted h = false

instance (db : Db) (c : Call) (a : Answer) : Decidable (FirstCredit db c a) :=
  inferInstanceAs (Decidable (∀ h ∈ creditHash db c a, db.alreadyCompleted h = false))

theorem alreadyCompleted_iff {db : Db} {h : Nat} :
    db.alreadyCompleted h = true ↔
      ∃ i r, db.transactions.row i = some r ∧ r.hash = some h ∧ r.completedAt.isSome := by
  constructor
  · intro hdone
    obtain ⟨⟨i, r⟩, hir⟩ := Option.isSome_iff_exists.mp hdone
    obtain ⟨hrow, hp⟩ := Table.findFirst_eq_some hir
    simp only [decide_eq_true_eq] at hp
    exact ⟨i, r, hrow, hp⟩
  · rintro ⟨i, r, hrow, hh, hc⟩
    by_contra hnot
    have hnone : (db.transactions.findFirst fun _ r =>
        r.hash = some h ∧ r.completedAt.isSome) = none := by
      simpa [Db.alreadyCompleted] using hnot
    have hrow' := Table.findFirst_eq_none.mp hnone i r hrow
    simp [hh, hc] at hrow'

/-! ## What a step can do -/

/-- No credit, and no completed row is lost. -/
structure Quiet (db db' : Db) : Prop where
  credits : db'.credits = db.credits
  users : db'.users = db.users
  completed : ∀ h, db.alreadyCompleted h = true → db'.alreadyCompleted h = true

/-- One credit `c`, recorded by a completed row of its transaction. -/
structure Pays (db db' : Db) (c : Credit) : Prop where
  credits : db'.credits = db.credits ++ [c]
  users : ∀ u, db'.polBalance? u
    = (db.polBalance? u).map (· + if u = c.userId then c.amount else 0)
  completed : ∀ h, db.alreadyCompleted h = true → db'.alreadyCompleted h = true
  recorded : ∀ h, c.hash = some h → db'.alreadyCompleted h = true

theorem Quiet.refl (db : Db) : Quiet db db := ⟨rfl, rfl, fun _ h => h⟩

/-- Updating one row keeps the completed rows, if the update does. -/
theorem completed_modify {db db' : Db} {id : Nat} {f : TransactionRow → TransactionRow}
    (h' : db'.transactions = db.transactions.modify id f)
    (hf : ∀ r, (f r).hash = r.hash ∧ (r.completedAt.isSome → (f r).completedAt.isSome))
    {h : Nat} (hdone : db.alreadyCompleted h = true) : db'.alreadyCompleted h = true := by
  obtain ⟨i, r, hrow, hh, hc⟩ := alreadyCompleted_iff.mp hdone
  refine alreadyCompleted_iff.mpr ?_
  by_cases hi : i = id
  · refine ⟨i, f r, ?_, (hf r).1.trans hh, (hf r).2 hc⟩
    rw [h', Table.modify_row, if_pos hi, hrow, Option.map_some]
  · refine ⟨i, r, ?_, hh, hc⟩
    rw [h', Table.modify_row, if_neg hi, hrow]

theorem completed_insert {db db' : Db} {row : TransactionRow}
    (h' : db'.transactions = db.transactions.insert row) {h : Nat}
    (hdone : db.alreadyCompleted h = true) : db'.alreadyCompleted h = true := by
  obtain ⟨i, r, hrow, hh, hc⟩ := alreadyCompleted_iff.mp hdone
  exact alreadyCompleted_iff.mpr
    ⟨i, r, by rw [h', Table.insert_row_of_some hrow], hh, hc⟩

/-- The new row itself counts as completed, if it is. -/
theorem completed_inserted {db db' : Db} {row : TransactionRow}
    (h' : db'.transactions = db.transactions.insert row) {h : Nat} (hh : row.hash = some h)
    (hc : row.completedAt.isSome) : db'.alreadyCompleted h = true :=
  alreadyCompleted_iff.mpr ⟨db.transactions.nextId, row,
    by rw [h', Table.insert_row_self], hh, hc⟩

theorem polBalance?_creditUser (db : Db) (hash : Option Nat) (u v : UserId) (amount : ℚ) :
    (db.creditUser hash u amount).polBalance? v
      = (db.polBalance? v).map (· + if v = u then amount else 0) := by
  simp only [Db.polBalance?, Db.creditUser, Table.modify_row]
  split
  · rw [Option.map_map, Option.map_map]
    rfl
  · simp [Function.comp_def]

theorem setAttempts_quiet (db : Db) (id attempts : Nat) : Quiet db (db.setAttempts id attempts) :=
  ⟨rfl, rfl, fun _ => completed_modify (f := fun r => { r with verifyAttempts := attempts }) rfl
    fun _ => ⟨rfl, fun h => h⟩⟩

theorem setFailed_quiet (db : Db) (id attempts : Nat) (e : VerifyError) :
    Quiet db (db.setFailed id attempts e) :=
  ⟨rfl, rfl, fun _ => completed_modify (f := fun r =>
    { r with status := .failed, verifyAttempts := attempts, error := some e }) rfl
    fun _ => ⟨rfl, fun h => h⟩⟩

theorem insertTransaction_quiet (db : Db) (row : TransactionRow) :
    Quiet db (db.insertTransaction row) := ⟨rfl, rfl, fun _ => completed_insert rfl⟩

theorem submitOther_quiet (db : Db) (u : UserId) (txHash : HashText) (claimed : ℚ) :
    Quiet db (db.submitOther u txHash claimed).1 := by
  unfold Db.submitOther
  split <;> exact Quiet.refl db

theorem verifyOnePendingDeposit_quiet (config : Config) (db : Db) (id : Nat)
    (tx : TransactionRow) (rpc : Rpc) :
    Quiet db (db.verifyOnePendingDeposit config id tx rpc).1 := by
  unfold Db.verifyOnePendingDeposit
  by_cases hmax : DEPOSIT_VERIFY_MAX_ATTEMPTS < tx.verifyAttempts + 1
  · simp only [if_pos hmax]
    exact setFailed_quiet ..
  · simp only [if_neg hmax]
    cases verifyOnChain config ((db.users.row tx.userId).bind (·.walletAddress)) rpc with
    | retry => exact setAttempts_quiet ..
    | failed e => exact setFailed_quiet ..
    | verified amount fromAddress =>
        simp only
        cases db.duplicate id tx with
        | none => exact Quiet.refl db
        | some d => exact Quiet.refl db

theorem creditVerified_cases (db : Db) (id : Nat) (tx : TransactionRow) (amount : ℚ)
    (fromAddress : Option Address) (now : Nat) :
    Quiet db (db.creditVerified id tx amount fromAddress now)
      ∨ ∃ c, c.hash = (db.transactions.row id).bind (·.hash)
          ∧ Pays db (db.creditVerified id tx amount fromAddress now) c := by
  unfold Db.creditVerified
  cases hrow : db.transactions.row id with
  | none => exact Or.inl (Quiet.refl db)
  | some row =>
      cases hu : db.users.row tx.userId with
      | none => exact Or.inl (Quiet.refl db)
      | some user =>
          let paid (r : TransactionRow) : TransactionRow :=
            { r with
              status := .completed, amount := amount, fromAddress := fromAddress,
              completedAt := some now, verifyAttempts := tx.verifyAttempts + 1, error := none }
          refine Or.inr ⟨⟨row.hash, tx.userId, amount⟩, rfl, rfl,
            fun u => polBalance?_creditUser .., fun h => ?_, fun h hh => ?_⟩
          · exact completed_modify (f := paid) rfl fun _ => ⟨rfl, fun _ => rfl⟩
          · refine alreadyCompleted_iff.mpr ⟨id, paid row, ?_, hh, rfl⟩
            show (db.transactions.modify id paid).row id = some (paid row)
            rw [Table.modify_row, if_pos rfl, hrow, Option.map_some]

theorem creditDeposit_cases (db : Db) (u : UserId) (amount : ℚ) (txHash : HashText) (now : Nat) :
    Quiet db (db.creditDeposit u amount txHash now)
      ∨ ∃ c, c.hash = some txHash.hash ∧ Pays db (db.creditDeposit u amount txHash now) c := by
  unfold Db.creditDeposit
  cases db.users.row u with
  | none => exact Or.inl (Quiet.refl db)
  | some user =>
      let row := Db.completedRow u amount (some txHash) none now
      exact Or.inr ⟨⟨some txHash.hash, u, amount⟩, rfl, rfl,
        fun u => polBalance?_creditUser .., fun h => completed_insert rfl,
        fun h (hh : row.hash = some h) => completed_inserted rfl hh rfl⟩

theorem creditTicket_cases (db : Db) (id : Nat) (ticket : TicketRow) (amount : ℚ) (now : Nat) :
    Quiet db (db.creditTicket id ticket amount now)
      ∨ ∃ c, c.hash = ticket.txHash.map HashText.hash
          ∧ Pays db (db.creditTicket id ticket amount now) c := by
  unfold Db.creditTicket
  cases db.users.row ticket.userId with
  | none => exact Or.inl (Quiet.refl db)
  | some user =>
      let row := Db.completedRow ticket.userId amount ticket.txHash (some ticket.walletAddress) now
      exact Or.inr ⟨⟨ticket.txHash.map HashText.hash, ticket.userId, amount⟩, rfl, rfl,
        fun u => polBalance?_creditUser .., fun h => completed_insert rfl,
        fun h (hh : row.hash = some h) => completed_inserted rfl hh rfl⟩

/-- Up to its first await a request only reads. -/
theorem start_db (config : Config) (db : Db) (r : Request) : (start config db r).1 = db := by
  cases r with
  | submitDeposit u txHash claimed =>
      dsimp only [start, Db.submitDeposit]
      repeat' split
      all_goals rfl
  | runDepositVerifier => rfl
  | contractLog beneficiary hash =>
      dsimp only [start, Db.contractLog]
      repeat' split
      all_goals rfl
  | createDepositRequest u amount txHash =>
      dsimp only [start, Db.createDepositRequest]
      repeat' split
      all_goals rfl
  | adminApproveTicket id amount =>
      dsimp only [start, Db.adminApproveTicket]
      repeat' split
      all_goals rfl

/-- A call that ends in an error has at most counted an attempt. -/
theorem resume_error {config : Config} {db db' : Db} {c : Call} {next : Option Call}
    (h : resume config db c .error = some (db', next)) : Quiet db db' := by
  cases c with
  | verifying id tx | failing id tx _ | crediting id tx _ _ =>
      obtain ⟨rfl, -⟩ := Prod.mk.inj (Option.some.inj h)
      exact setAttempts_quiet ..
  | _ =>
      obtain ⟨rfl, -⟩ := Prod.mk.inj (Option.some.inj h)
      exact Quiet.refl db

/-- Every step of a call is quiet, or it makes the one credit that
`creditHash` names. -/
theorem resume_cases {config : Config} {db db' : Db} {c : Call} {a : Answer} {next : Option Call}
    (h : resume config db c a = some (db', next)) :
    Quiet db db' ∨ ∃ credit, credit.hash = creditHash db c a ∧ Pays db db' credit := by
  cases a with
  | error => exact Or.inl (resume_error h)
  | chain rpc =>
      cases c with
      | verifying id tx =>
          obtain rfl := congrArg Prod.fst (Option.some.inj h)
          exact Or.inl (verifyOnePendingDeposit_quiet ..)
      | depositing u amount txHash =>
          obtain rfl := congrArg Prod.fst (Option.some.inj h)
          exact Or.inl (Quiet.refl db)
      | _ => cases h
  | done now =>
      cases c with
      | submitOther u txHash claimed =>
          obtain rfl := congrArg Prod.fst (Option.some.inj h)
          exact Or.inl (submitOther_quiet ..)
      | submitCreate u txHash claimed =>
          obtain rfl := congrArg Prod.fst (Option.some.inj h)
          exact Or.inl (insertTransaction_quiet ..)
      | failing id tx error =>
          obtain rfl := congrArg Prod.fst (Option.some.inj h)
          exact Or.inl (setFailed_quiet ..)
      | syncCreate u hash =>
          obtain rfl := congrArg Prod.fst (Option.some.inj h)
          exact Or.inl (insertTransaction_quiet ..)
      | crediting id tx amount fromAddress =>
          obtain rfl := congrArg Prod.fst (Option.some.inj h)
          exact creditVerified_cases ..
      | depositCommit u amount txHash =>
          obtain rfl := congrArg Prod.fst (Option.some.inj h)
          exact creditDeposit_cases ..
      | approving id ticket amount =>
          obtain rfl := congrArg Prod.fst (Option.some.inj h)
          exact creditTicket_cases ..
      | verifying id tx | depositing u amount txHash => cases h

/-! ## Runs -/

/-- `db` extends `db₀` by the credits in `new`, log and balances alike. -/
def Accounted (db₀ db : Db) (new : List Credit) : Prop :=
  db.credits = db₀.credits ++ new ∧ ∀ u, db.polBalance? u
    = (db₀.polBalance? u).map (· + (new.map fun c => if u = c.userId then c.amount else 0).sum)

/-- In every run the balances have grown by what was logged. -/
theorem polBalance_eq_credits (config : Config) {s t : InFlight Db Call}
    {es : List (Event Request Answer)} (hrun : (service config).sys.run s es = some t) :
    ∃ new, Accounted s.db t.db new := by
  have hnone := (service config).sys.meets_of_forall
    (C := Service.Guard fun _ _ _ => True) (fun _ e => by cases e <;> simp [Service.Guard]) s es
  refine (service config).db_invariant (I := fun db => ∃ new, Accounted s.db db new) ?_ ?_
    ⟨[], by simp, fun u => by simp⟩ hnone hrun
  · intro db r db' cs hI hstart
    obtain rfl := (start_db config db r).symm.trans (congrArg Prod.fst (Option.some.inj hstart))
    exact hI
  · rintro db c a db' next ⟨new, hlog, hbal⟩ - hresume
    rcases resume_cases hresume with hquiet | ⟨credit, -, hpays⟩
    · refine ⟨new, hquiet.credits.trans hlog, fun u => ?_⟩
      rw [Db.polBalance?, hquiet.users]
      exact hbal u
    · refine ⟨new ++ [credit], by rw [hpays.credits, hlog, List.append_assoc], fun u => ?_⟩
      rw [hpays.users, hbal, Option.map_map]
      simp [Function.comp_def, add_assoc]

/-- At most one credit per transaction, and the credited ones are recorded. -/
def OnceInv (db : Db) : Prop :=
  ∀ h, (db.creditsFor h).length ≤ 1 ∧ (db.creditsFor h ≠ [] → db.alreadyCompleted h = true)

theorem OnceInv.once {db : Db} (hinv : OnceInv db) : CreditedOnce db := by
  intro h
  have hlen := (hinv h).1
  cases hc : db.creditsFor h with
  | nil => exact Or.inl (by simp [Db.credited, hc])
  | cons c cs =>
      rw [hc, List.length_cons] at hlen
      obtain rfl := List.length_eq_zero_iff.mp (by omega : cs.length = 0)
      have hmem : c ∈ db.creditsFor h := by rw [hc]; exact List.mem_singleton_self c
      obtain ⟨hin, hh⟩ := List.mem_filter.mp hmem
      exact Or.inr ⟨c, hin, by simpa using hh, by simp [Db.credited, hc]⟩

theorem OnceInv.quiet {db db' : Db} (hinv : OnceInv db) (h : Quiet db db') : OnceInv db' := by
  intro x
  have hsame : db'.creditsFor x = db.creditsFor x := by
    rw [Db.creditsFor, h.credits, Db.creditsFor]
  rw [hsame]
  exact ⟨(hinv x).1, fun hne => h.completed x ((hinv x).2 hne)⟩

/-- A first credit of its transaction is the only one. -/
theorem OnceInv.pays {db db' : Db} {c : Credit} (hinv : OnceInv db) (h : Pays db db' c)
    (hfirst : ∀ x, c.hash = some x → db.alreadyCompleted x = false) : OnceInv db' := by
  intro x
  have hcredits : db'.creditsFor x = db.creditsFor x ++ if c.hash = some x then [c] else [] := by
    rw [Db.creditsFor, h.credits, List.filter_append, Db.creditsFor]
    by_cases hx : c.hash = some x <;> simp [hx]
  rw [hcredits]
  by_cases hx : c.hash = some x
  · -- an earlier credit would have left a completed row
    have hnil : db.creditsFor x = [] := by
      by_contra hne
      have hdone := (hinv x).2 hne
      rw [hfirst x hx] at hdone
      cases hdone
    rw [if_pos hx, hnil]
    exact ⟨Nat.le_refl 1, fun _ => h.recorded x hx⟩
  · rw [if_neg hx, List.append_nil]
    exact ⟨(hinv x).1, fun hne => h.completed x ((hinv x).2 hne)⟩

/-- **One credit per deposit.** In a run from an empty log in which every
crediting step is the first of its transaction, each transaction has been
credited at most once. -/
theorem credited_once (config : Config) {s t : InFlight Db Call}
    {es : List (Event Request Answer)} (hstart : s.db.credits = [])
    (hfirst : (service config).sys.Meets (Service.Guard FirstCredit) s es)
    (hrun : (service config).sys.run s es = some t) : CreditedOnce t.db := by
  have hinv : OnceInv s.db := fun h => by simp [Db.creditsFor, hstart]
  refine ((service config).db_invariant ?_ ?_ hinv hfirst hrun).once
  · intro db r db' cs hI hstart
    obtain rfl := (start_db config db r).symm.trans (congrArg Prod.fst (Option.some.inj hstart))
    exact hI
  · intro db c a db' next hI hC hresume
    rcases resume_cases hresume with hquiet | ⟨credit, hhash, hpays⟩
    · exact hI.quiet hquiet
    · exact hI.pays hpays fun x hx => hC x (hhash.symm.trans hx)

/-! A user, id 1, deposits 1 POL in transaction 5. -/

def oneDeposit : Config where
  depositWallet := some 100
  smartContract := none
  requiredConfs := 3
  minDepositPol := 1 / 100

def depositor : InFlight Db Call where
  db :=
    { transactions := .empty, users := .insert .empty ⟨some 7, 0⟩, tickets := .empty
      credits := [] }
  calls := .empty

def confirmed : Rpc where
  receipt := some (some ⟨1, 10, []⟩)
  tx := some (some ⟨137, some 100, some 7, 10 ^ 18⟩)
  latestBlock := some 20

/-- The user submits the hash. -/
def submitted : List (Event Request Answer) :=
  [.start (.submitDeposit 1 ⟨5, 0⟩ 0), .resume 1 (.done 0), .resume 1 (.done 0)]

/-- One verifier run confirms it, and the scanner finds it afterwards. -/
def verifiedOnce : List (Event Request Answer) :=
  submitted ++ [.start .runDepositVerifier, .resume 2 (.chain confirmed), .resume 2 (.done 1),
    .start (.createDepositRequest 1 1 ⟨5, 0⟩)]

theorem credited_once_verifiedOnce :
    ∃ t, (service oneDeposit).sys.run depositor verifiedOnce = some t ∧ CreditedOnce t.db :=
  have hrun : ((service oneDeposit).sys.run depositor verifiedOnce).isSome := by decide +kernel
  ⟨_, (Option.some_get hrun).symm,
    credited_once oneDeposit rfl (by decide +kernel) (Option.some_get hrun).symm⟩

/-- Two verifier runs pick up the same waiting row and both credit it. -/
def verifiedTwice : List (Event Request Answer) :=
  submitted ++ [.start .runDepositVerifier, .start .runDepositVerifier,
    .resume 2 (.chain confirmed), .resume 3 (.chain confirmed),
    .resume 2 (.done 1), .resume 3 (.done 1)]

theorem verifier_credits_twice :
    ¬ ∀ (config : Config) (s t : InFlight Db Call) (es : List (Event Request Answer)),
        s.db.credits = [] → (service config).sys.run s es = some t → CreditedOnce t.db := by
  intro h
  have htwice : ∃ t ∈ (service oneDeposit).sys.run depositor verifiedTwice,
      ¬ (t.db.credited 5 = 0
        ∨ ∃ c ∈ t.db.credits, c.hash = some 5 ∧ t.db.credited 5 = c.amount) := by
    decide +kernel
  obtain ⟨t, hrun, hnot⟩ := htwice
  exact hnot (h oneDeposit depositor t verifiedTwice rfl hrun 5)

end BlockMiner.Deposit
