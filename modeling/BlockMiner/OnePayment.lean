import BlockMiner.CheckinPayments
import BlockMiner.DepositBacked
import Mathlib

/-!
# One payment buys one thing

A paid check-in and a deposit are both proved by the hash of a transaction.
`evaluateCheckinTx` wants it to pay the receiver of the check-ins, the deposit
verifier and `createDepositRequest` want it to pay the treasury or the deposit
contract, and each side looks for an earlier use of the hash in its own table
only. The two services share nothing else, so what they accept together is
decided by the addresses in the environment, from which the receiver is resolved.

The chain knows one transaction for a hash (`World`): what the node tells the
check-ins about it (texts) and what it tells the deposits (numbers) agree.
-/

namespace BlockMiner.OnePayment

open Checkin (normalizeAddr ZERO_ADDR)

/-! ## Texts -/

/-- The number that a text of so many hexadecimal digits denotes, in either case. -/
def hexNumber (length : ℕ) (s : String) : Option ℕ :=
  match (normalizeAddr s).toList with
  | '0' :: 'x' :: digits =>
      match readDigits 16 0 0 digits with
      | (value, count, []) => if count = length then some value else none
      | _ => none
  | _ => none

def addressOf (s : String) : Option Deposit.Address := hexNumber 40 s

def hashOf (s : String) : Option ℕ := hexNumber 64 s

/-- Addresses are compared without blanks and case. -/
theorem addressOf_congr {s s' : String} (h : normalizeAddr s = normalizeAddr s') :
    addressOf s = addressOf s' := by
  rw [addressOf, addressOf, hexNumber, hexNumber, h]

/-! ## Environment and chain -/

/-- The addresses in the environment; one that is not set is the empty text. -/
structure Env where
  CHECKIN_RECEIVER : String
  DEPOSIT_WALLET_ADDRESS : String
  SMART_CONTRACT_ADDRESS : String

def resolveCheckinReceiverFromEnv (env : Env) : String :=
  (([env.CHECKIN_RECEIVER, env.DEPOSIT_WALLET_ADDRESS].map trim).find? fun r =>
    r ≠ "" ∧ normalizeAddr r ≠ ZERO_ADDR).getD ""

/-- What the check-ins and the deposits are told about a transaction. -/
def Agrees (tx : Checkin.ChainTx) (tx' : Deposit.OnchainTx) : Prop :=
  addressOf tx.fromAddr = tx'.fromAddress ∧ addressOf tx.toAddr = tx'.toAddress
    ∧ tx.value = some (tx'.value : ℤ)

/-- The chain, and the settings that are not addresses. -/
structure World where
  /-- The transaction of a hash. -/
  chain : ℕ → Option Deposit.OnchainTx
  checkins : Checkin.Config
  requiredConfs : ℕ
  minDepositPol : ℚ
  agrees : ∀ now txHash tx, checkins.chain now txHash = some tx →
    ∃ h tx', hashOf txHash = some h ∧ chain h = some tx' ∧ Agrees tx tx'

section Configs

variable (env : Env) (w : World)

def checkinConfig : Checkin.Config :=
  { w.checkins with receiver := resolveCheckinReceiverFromEnv env }

def depositConfig : Deposit.Config where
  depositWallet := addressOf env.DEPOSIT_WALLET_ADDRESS
  smartContract := addressOf env.SMART_CONTRACT_ADDRESS
  requiredConfs := w.requiredConfs
  minDepositPol := w.minDepositPol

/-! ## The two services -/

abbrev State := InFlight Checkin.Db Checkin.Call × InFlight Deposit.Db Deposit.Call

abbrev Label := Event Checkin.Request Checkin.Answer ⊕ Event Deposit.Request Deposit.Answer

def sys : System State Label :=
  (Checkin.service (checkinConfig env w)).sys.both (Deposit.service (depositConfig env w)).sys

/-- The node answers with the transaction of the hash it was asked for. -/
def Truthful : Deposit.Call → Deposit.Answer → Prop
  | .verifying _ tx, .chain rpc =>
      ∀ onchain, rpc.tx = some (some onchain) → ∀ h, tx.hash = some h → w.chain h = some onchain
  | .depositing _ _ txHash, .chain rpc =>
      ∀ onchain, rpc.tx = some (some onchain) → w.chain txHash.hash = some onchain
  | _, _ => True

/-- The requests for deposits that are looked at are those that ask the chain:
an administrator's approval of a ticket is not among them. -/
def DepositEvent (s : InFlight Deposit.Db Deposit.Call) :
    Event Deposit.Request Deposit.Answer → Prop
  | .start (.adminApproveTicket _ _) => False
  | .start _ => True
  | .resume call a => ∀ c ∈ s.calls.row call, Truthful w c a

def Allowed (s : State) : Label → Prop
  | .inl _ => True
  | .inr e => DepositEvent w s.2 e

end Configs

/-- No check-in, no deposit and nothing in flight. Both services read the wallets
of the same users. -/
structure Fresh (s : State) : Prop where
  checkins : ∀ i, s.1.db.checkins.row i = none
  checkinCalls : ∀ i, s.1.calls.row i = none
  credits : s.2.db.credits = []
  depositCalls : ∀ i, s.2.calls.row i = none
  wallets : ∀ u, s.2.db.linkedWallet u = (s.1.db.wallets u).bind addressOf

/-- The transaction has confirmed a check-in and is credited as a deposit. -/
def BoughtTwice (t : State) (h : ℕ) : Prop :=
  (∃ i row txHash, t.1.db.checkins.row i = some row ∧ row.status = .confirmed
      ∧ row.basis = some txHash ∧ hashOf txHash = some h)
    ∧ ∃ c ∈ t.2.db.credits, c.hash = some h

/-- No payment is both, in any run on any chain. -/
def BuysOneThing (env : Env) : Prop :=
  ∀ (w : World) (s t : State) (es : List Label), Fresh s → (sys env w).Meets (Allowed w) s es →
    (sys env w).run s es = some t → ∀ h, ¬BoughtTwice t h

/-- The check-ins are paid to an address of their own, or are free. -/
def Separate (env : Env) : Prop :=
  ∀ a ∈ addressOf (resolveCheckinReceiverFromEnv env),
    addressOf env.DEPOSIT_WALLET_ADDRESS ≠ some a ∧ addressOf env.SMART_CONTRACT_ADDRESS ≠ some a

instance (env : Env) : Decidable (Separate env) :=
  inferInstanceAs (Decidable (∀ a ∈ addressOf (resolveCheckinReceiverFromEnv env), _))

/-! ## What confirms a check-in -/

section Checkins

open Checkin

variable (config : Checkin.Config)

/-- The node has shown a transaction to the receiver under this hash. -/
def PaysReceiver (txHash : String) : Prop :=
  ∃ now tx, config.chain now txHash = some tx
    ∧ normalizeAddr tx.toAddr = normalizeAddr config.receiver

theorem evaluateCheckinTx_confirmed {tx : Option ChainTx} {wallet receiver : String} {minWei : ℤ}
    (h : evaluateCheckinTx tx wallet receiver minWei = .confirmed) :
    ∃ tx', tx = some tx' ∧ normalizeAddr tx'.toAddr = receiver := by
  cases tx with
  | none => cases h
  | some tx' =>
      refine ⟨tx', rfl, ?_⟩
      by_contra hne
      simp only [evaluateCheckinTx, if_pos hne] at h
      split at h
      · cases h
      · split at h <;> cases h

theorem evaluatePayment_confirmed {txHash wallet : String} {now : ℤ}
    (h : evaluatePayment config txHash wallet now = .confirmed) :
    PaysReceiver config (onChain txHash) := by
  obtain ⟨tx, htx, hto⟩ := evaluateCheckinTx_confirmed h
  exact ⟨now, tx, htx, hto⟩

/-- The payment a call is about to confirm. -/
def confirming : Checkin.Call → Option String
  | .finalizeConfirm f _ => some (onChain f.txHash)
  | .confirmDone p => some (onChain p.txHash)
  | _ => none

theorem next_not_confirming {rest : List Finalizing} {c : Checkin.Call}
    (h : next rest = some c) : confirming c = none := by
  cases rest with
  | nil => cases h
  | cons f rest =>
      cases h
      rfl

/-- What a statement confirms, its call was about to confirm. -/
theorem act_confirm {db : Checkin.Db} {c : Checkin.Call} {a : Checkin.Answer} {id : ℕ}
    {txHash : String} {now : ℤ} (h : (act config db c a).1 = some (.confirm id txHash now)) :
    confirming c = some txHash := by
  cases a with
  | error => cases c <;> cases h
  | ok now' =>
      cases c with
      | finalizeConfirm f rest =>
          cases h
          rfl
      | confirmDone p =>
          obtain ⟨found, -, hfound⟩ := Option.map_eq_some_iff.mp h
          cases hfound
          rfl
      | confirmFail p =>
          obtain ⟨found, -, hfound⟩ := Option.map_eq_some_iff.mp h
          cases hfound
      | confirmSave p existing =>
          cases existing with
          | some id' =>
              simp only [act] at h
              split at h <;> cases h
          | none =>
              simp only [act] at h
              split at h <;> cases h
      | claimUpsert | walletUpsert =>
          simp only [act] at h
          split at h <;> split at h <;> cases h
      | finalizeFail | todayFind | staleFind => cases h
      | evaluate | confirmUser | confirmEvaluate | walletUser =>
          simp only [act] at h
          split at h <;> cases h
      | claimFind | confirmFind | confirmDup | walletFind =>
          simp only [act] at h
          split at h <;> cases h

/-- A call is about to confirm only what it has evaluated. -/
theorem act_next {db : Checkin.Db} {c c' : Checkin.Call} {a : Checkin.Answer} {txHash : String}
    (h : (act config db c a).2 = some c') (hc' : confirming c' = some txHash) :
    PaysReceiver config txHash := by
  have hnot : ∀ rest, next rest ≠ some c' := by
    intro rest hrest
    rw [next_not_confirming hrest] at hc'
    cases hc'
  cases a with
  | error =>
      cases c with
      | evaluate f rest | finalizeConfirm f rest | finalizeFail f rest => exact absurd h (hnot rest)
      | _ => cases h
  | ok now =>
      cases c with
      | evaluate f rest =>
          simp only [act] at h
          split at h
          case h_1 hconfirmed =>
            cases h
            cases hc'
            exact evaluatePayment_confirmed config hconfirmed
          · cases h
            cases hc'
          · exact absurd h (hnot rest)
      | confirmEvaluate p =>
          simp only [act] at h
          split at h
          case h_1 hconfirmed =>
            cases h
            cases hc'
            exact evaluatePayment_confirmed config hconfirmed
          · cases h
            cases hc'
          · cases h
      | finalizeConfirm f rest | finalizeFail f rest => exact absurd h (hnot rest)
      | todayFind | staleFind => exact absurd h (hnot _)
      | confirmFail | confirmDone => cases h
      | confirmSave p existing =>
          cases existing with
          | some id =>
              simp only [act] at h
              split at h <;> cases h
              cases hc'
          | none =>
              simp only [act] at h
              split at h <;> cases h
              cases hc'
      | claimUpsert userId today =>
          simp only [act] at h
          split at h <;> split at h <;> cases h
      | walletUpsert p =>
          simp only [act] at h
          split at h <;> split at h <;> first | exact absurd h (hnot _) | cases h
      | claimFind | confirmFind | confirmDup | walletFind | confirmUser | walletUser =>
          simp only [act] at h
          split at h <;> cases h
          cases hc'

/-- Every check-in that a payment has confirmed, or is about to, was paid to the
receiver. -/
def CheckinsPaid (s : InFlight Checkin.Db Checkin.Call) : Prop :=
  (∀ i row, s.db.checkins.row i = some row → ∀ txHash ∈ row.basis, PaysReceiver config txHash)
    ∧ ∀ i c, s.calls.row i = some c → ∀ txHash ∈ confirming c, PaysReceiver config txHash

/-- A basis comes with the row that is updated, or with a confirmation. -/
theorem update_basis {w : Checkin.Write} {id : ℕ} {f : DailyCheckin → DailyCheckin}
    (h : w.update config = some (id, f)) (row : DailyCheckin) :
    (f row).basis = row.basis
      ∨ ∃ txHash now, w = .confirm id txHash now ∧ (f row).basis = some txHash := by
  cases w with
  | create => cases h
  | confirm id' txHash now =>
      cases h
      exact Or.inr ⟨txHash, now, rfl, rfl⟩
  | _ =>
      cases h
      exact Or.inl rfl

theorem apply_paid {db : Checkin.Db} {w : Checkin.Write}
    (hdb : ∀ i row, db.checkins.row i = some row → ∀ txHash ∈ row.basis, PaysReceiver config txHash)
    (hcreate : ∀ row, w = .create row → row.basis = none)
    (hconfirm : ∀ id txHash now, w = .confirm id txHash now → PaysReceiver config txHash) :
    ∀ i row, (apply config db w).checkins.row i = some row →
      ∀ txHash ∈ row.basis, PaysReceiver config txHash := by
  intro i row hrow txHash hbasis
  by_cases hw : ∃ row, w = .create row
  · obtain ⟨new, rfl⟩ := hw
    rcases Table.insert_row_eq_some.mp hrow with ⟨-, rfl⟩ | hold
    · rw [hcreate row rfl] at hbasis
      cases hbasis
    · exact hdb i row hold txHash hbasis
  · have happly : (apply config db w).checkins
        = (w.update config).elim db.checkins fun update =>
            db.checkins.modify update.1 update.2 := by
      cases w with
      | create row => exact absurd ⟨row, rfl⟩ hw
      | _ => rfl
    rw [happly] at hrow
    cases hupdate : w.update config with
    | none =>
      rw [hupdate] at hrow
      exact hdb i row hrow txHash hbasis
    | some update =>
      obtain ⟨id, f⟩ := update
      rw [hupdate] at hrow
      rcases Table.modify_row_eq_some.mp hrow with ⟨rfl, old, hold, rfl⟩ | ⟨-, hold⟩
      · rcases update_basis config hupdate old with hsame | ⟨txHash', now, rfl, hnew⟩
        · exact hdb i old hold txHash (hsame ▸ hbasis)
        · obtain rfl := Option.some.inj (hnew.symm.trans hbasis)
          exact hconfirm i txHash' now rfl
      · exact hdb i row hold txHash hbasis

theorem start_not_confirming {r : Checkin.Request} {c : Checkin.Call}
    (h : c ∈ Checkin.start config r) : confirming c = none := by
  cases r with
  | claimCheckin | processStalePendingCheckins =>
      obtain rfl := List.mem_singleton.mp h
      rfl
  | confirmCheckin userId txHash =>
      simp only [Checkin.start] at h
      split at h
      · obtain ⟨_, -, rfl⟩ := Option.map_eq_some_iff.mp (Option.mem_toList.mp h)
        rfl
      · cases h
  | checkinWallet userId txHash =>
      simp only [Checkin.start] at h
      split at h
      · cases h
      · obtain rfl := List.mem_singleton.mp h
        rfl
  | tryFinalizeTodayCheckin userId walletAddress =>
      obtain ⟨_, -, rfl⟩ := Option.map_eq_some_iff.mp (Option.mem_toList.mp h)
      rfl

theorem writes_confirm {s : InFlight Checkin.Db Checkin.Call}
    {e : Event Checkin.Request Checkin.Answer} {id : ℕ} {txHash : String} {now : ℤ}
    (h : writes config s e = some (.confirm id txHash now)) :
    ∃ i c, s.calls.row i = some c ∧ confirming c = some txHash := by
  cases e with
  | start r => cases h
  | resume call a =>
      obtain ⟨c, hc, hw⟩ := Option.bind_eq_some_iff.mp h
      exact ⟨call, c, hc, act_confirm config hw⟩

theorem checkinsPaid_step {s s' : InFlight Checkin.Db Checkin.Call}
    {e : Event Checkin.Request Checkin.Answer} (hs : CheckinsPaid config s)
    (h : (Checkin.service config).step s e = some s') : CheckinsPaid config s' := by
  constructor
  · rw [step_db config h]
    cases hw : writes config s e with
    | none => exact hs.1
    | some w =>
        refine apply_paid config hs.1 (writes_create config hw) ?_
        rintro id txHash now rfl
        obtain ⟨i, c, hc, htx⟩ := writes_confirm config hw
        exact hs.2 i c hc txHash htx
  · intro i c' hc' txHash htx
    cases e with
    | start r =>
        obtain ⟨db, cs, hstart, rfl⟩ := (Checkin.service config).step_start h
        obtain rfl := congrArg Prod.snd (Option.some.inj hstart)
        rcases Service.foldl_insert_row _ hc' with hmem | hold
        · rw [start_not_confirming config hmem] at htx
          cases htx
        · exact hs.2 i c' hold txHash htx
    | resume call a =>
        obtain ⟨c, db, next, hc, hresume, rfl⟩ := (Checkin.service config).step_resume h
        obtain rfl := congrArg Prod.snd (Option.some.inj hresume)
        rcases Service.advance_row hc' with ⟨-, hnext⟩ | ⟨-, hold⟩
        · exact act_next config hnext htx
        · exact hs.2 i c' hold txHash htx

end Checkins

/-! ## What is credited as a deposit -/

section Deposits

open Deposit

variable (env : Env) (w : World)

/-- The transaction of this hash pays the treasury or the contract. -/
def PaysDeposit (h : ℕ) : Prop :=
  ∃ tx, w.chain h = some tx
    ∧ (isContract (depositConfig env w) tx ∨ isTreasury (depositConfig env w) tx)

/-- The row stores this transaction. -/
def Stores (db : Deposit.Db) (id : ℕ) (h : Option ℕ) : Prop :=
  ∃ row, db.transactions.row id = some row ∧ row.hash = h

/-- What a call in flight has seen of the chain. -/
def Seen (db : Deposit.Db) : Deposit.Call → Prop
  | .verifying id tx => Stores db id tx.hash
  | .crediting id tx _ _ => Stores db id tx.hash ∧ ∀ h ∈ tx.hash, PaysDeposit env w h
  | .depositCommit _ _ txHash => PaysDeposit env w txHash.hash
  | .approving _ _ _ => False
  | _ => True

def DepositsPaid (s : InFlight Deposit.Db Deposit.Call) : Prop :=
  (∀ c ∈ s.db.credits, ∀ h ∈ c.hash, PaysDeposit env w h)
    ∧ ∀ i c, s.calls.row i = some c → Seen env w s.db c

/-- No statement changes the transaction of a row. -/
structure HashesKept (db db' : Deposit.Db) : Prop where
  stores : ∀ {id h}, Stores db id h → Stores db' id h

theorem hashesKept_refl (db : Deposit.Db) : HashesKept db db := ⟨id⟩

theorem hashesKept_modify {db db' : Deposit.Db} {id : ℕ} {f : TransactionRow → TransactionRow}
    (h' : db'.transactions = db.transactions.modify id f) (hf : ∀ r, (f r).hash = r.hash) :
    HashesKept db db' := by
  refine ⟨?_⟩
  rintro i h ⟨row, hrow, hh⟩
  obtain ⟨row', hrow', hh'⟩ := Table.modify_keeps (j := id) (f := f) (P := fun r => r.hash = h)
    hrow hh fun r hr => (hf r).trans hr
  exact ⟨row', by rw [h', hrow'], hh'⟩

theorem hashesKept_insert {db db' : Deposit.Db} {row : TransactionRow}
    (h' : db'.transactions = db.transactions.insert row) : HashesKept db db' := by
  refine ⟨?_⟩
  rintro i h ⟨old, hold, hh⟩
  exact ⟨old, by rw [h', Table.insert_row_of_some hold], hh⟩

theorem setAttempts_hashesKept (db : Deposit.Db) (id attempts : ℕ) :
    HashesKept db (db.setAttempts id attempts) :=
  hashesKept_modify (f := fun r => { r with verifyAttempts := attempts }) rfl fun _ => rfl

theorem setFailed_hashesKept (db : Deposit.Db) (id attempts : ℕ) (e : VerifyError) :
    HashesKept db (db.setFailed id attempts e) :=
  hashesKept_modify (f := fun r =>
    { r with status := .failed, verifyAttempts := attempts, error := some e }) rfl fun _ => rfl

theorem verifyOnePendingDeposit_hashesKept {config : Deposit.Config} (db : Deposit.Db) (id : ℕ)
    (tx : TransactionRow) (rpc : Rpc) :
    HashesKept db (db.verifyOnePendingDeposit config id tx rpc).1 := by
  unfold Db.verifyOnePendingDeposit
  dsimp only
  split
  · exact setFailed_hashesKept ..
  · split
    · exact setAttempts_hashesKept ..
    · exact setFailed_hashesKept ..
    · split <;> exact hashesKept_refl db

theorem creditVerified_hashesKept (db : Deposit.Db) (id : ℕ) (tx : TransactionRow) (amount : ℚ)
    (fromAddress : Option Address) (now : ℕ) :
    HashesKept db (db.creditVerified id tx amount fromAddress now) := by
  unfold Db.creditVerified
  split
  · exact hashesKept_modify (f := fun r =>
      { r with
        status := .completed, amount := amount, fromAddress := fromAddress,
        completedAt := some now, verifyAttempts := tx.verifyAttempts + 1, error := none }) rfl
      fun _ => rfl
  · exact hashesKept_refl db

theorem resume_hashesKept {config : Deposit.Config} {db db' : Deposit.Db} {c : Deposit.Call}
    {a : Deposit.Answer} {next : Option Deposit.Call}
    (h : resume config db c a = some (db', next)) : HashesKept db db' := by
  cases a with
  | error =>
      cases c with
      | verifying id tx | failing id tx _ | crediting id tx _ _ =>
          obtain ⟨rfl, -⟩ := Prod.mk.inj (Option.some.inj h)
          exact setAttempts_hashesKept ..
      | _ =>
          obtain ⟨rfl, -⟩ := Prod.mk.inj (Option.some.inj h)
          exact hashesKept_refl db
  | chain rpc =>
      cases c with
      | verifying id tx =>
          obtain rfl := congrArg Prod.fst (Option.some.inj h)
          exact verifyOnePendingDeposit_hashesKept ..
      | depositing u amount txHash =>
          obtain rfl := congrArg Prod.fst (Option.some.inj h)
          exact hashesKept_refl db
      | _ => cases h
  | done now =>
      cases c with
      | submitOther u txHash claimed =>
          obtain rfl := congrArg Prod.fst (Option.some.inj h)
          simp only [Db.submitOther]
          split <;> exact hashesKept_refl db
      | submitCreate u txHash claimed | syncCreate u hash =>
          obtain rfl := congrArg Prod.fst (Option.some.inj h)
          exact hashesKept_insert rfl
      | failing id tx error =>
          obtain rfl := congrArg Prod.fst (Option.some.inj h)
          exact setFailed_hashesKept ..
      | crediting id tx amount fromAddress =>
          obtain rfl := congrArg Prod.fst (Option.some.inj h)
          exact creditVerified_hashesKept ..
      | depositCommit u amount txHash =>
          obtain rfl := congrArg Prod.fst (Option.some.inj h)
          simp only [Db.creditDeposit]
          split
          · exact hashesKept_refl db
          · exact hashesKept_insert rfl
      | approving id ticket amount =>
          obtain rfl := congrArg Prod.fst (Option.some.inj h)
          simp only [Db.creditTicket]
          split
          · exact hashesKept_refl db
          · exact hashesKept_insert rfl
      | verifying id tx | depositing u amount txHash => cases h

/-- What has been seen stays true. -/
theorem Seen.kept {env : Env} {w : World} {db db' : Deposit.Db} (h : HashesKept db db')
    {c : Deposit.Call} (hc : Seen env w db c) : Seen env w db' c := by
  cases c with
  | verifying id tx => exact h.stores hc
  | crediting id tx amount fromAddress => exact ⟨h.stores hc.1, hc.2⟩
  | _ => exact hc

theorem depositConfirmed_pays {config : Deposit.Config} {amount : ℚ} {rpc : Rpc}
    (h : Db.depositConfirmed config amount rpc = true) :
    ∃ tx, rpc.tx = some (some tx) ∧ isTreasury config tx := by
  unfold Db.depositConfirmed at h
  split at h
  case h_1 wallet tx receipt hwallet htx hreceipt =>
    refine ⟨tx, htx, ?_⟩
    simp only [decide_eq_true_eq] at h
    exact ⟨by simp [hwallet], h.1.trans hwallet.symm⟩
  case h_2 => cases h

/-- A call goes on with what it has seen. -/
theorem resume_seen {db db' : Deposit.Db} {c c' : Deposit.Call} {a : Deposit.Answer}
    (hc : Seen env w db c) (ha : Truthful w c a)
    (h : resume (depositConfig env w) db c a = some (db', some c')) : Seen env w db c' := by
  cases c with
  | verifying id tx =>
      cases a with
      | chain rpc =>
          obtain ⟨-, hnext⟩ := Prod.ext_iff.mp (Option.some.inj h)
          simp only [Db.verifyOnePendingDeposit] at hnext
          split at hnext
          · cases hnext
          · split at hnext
            · cases hnext
            · cases hnext
            case h_3 amount fromAddress hverified =>
              split at hnext
              · cases hnext
                trivial
              · cases hnext
                obtain ⟨receipt, onchain, -, htx, -, hamount⟩ := verifyOnChain_verified hverified
                refine ⟨hc, fun h hh => ⟨onchain, ha onchain htx h hh, ?_⟩⟩
                rcases (depositedAmount_ok hamount).2 with ⟨hcontract, -⟩ | ⟨-, htreasury⟩
                · exact Or.inl hcontract
                · exact Or.inr htreasury
      | done now => cases h
      | error => cases h
  | submitOther u txHash claimed =>
      cases a with
      | done now =>
          obtain ⟨-, hnext⟩ := Prod.ext_iff.mp (Option.some.inj h)
          simp only [Db.submitOther] at hnext
          split at hnext
          · cases hnext
          · cases hnext
            trivial
      | chain rpc => cases h
      | error => cases h
  | depositing u amount txHash =>
      cases a with
      | chain rpc =>
          obtain ⟨-, hnext⟩ := Prod.ext_iff.mp (Option.some.inj h)
          simp only at hnext
          split at hnext
          case isTrue hconfirmed =>
            cases hnext
            obtain ⟨tx, htx, htreasury⟩ := depositConfirmed_pays hconfirmed
            exact ⟨tx, ha tx htx, Or.inr htreasury⟩
          case isFalse => cases hnext
      | done now => cases h
      | error => cases h
  | _ => cases a <;> cases h

/-- A request begins with the rows it has read. -/
theorem start_seen {s : InFlight Deposit.Db Deposit.Call} {r : Deposit.Request}
    (hr : DepositEvent w s (.start r)) {c : Deposit.Call}
    (h : c ∈ (start (depositConfig env w) s.db r).2) : Seen env w s.db c := by
  cases r with
  | submitDeposit u txHash claimed =>
      simp only [start, Db.submitDeposit] at h
      split at h
      · simp at h
      · split at h <;> simp at h
        subst h
        trivial
  | runDepositVerifier =>
      simp only [start, Db.runDepositVerifier] at h
      obtain ⟨row, hrow, rfl⟩ := List.mem_map.mp h
      have hrow := List.mem_of_mem_take hrow
      exact ⟨row.2, (Table.mem_findMany.mp hrow).1, rfl⟩
  | contractLog beneficiary hash =>
      simp only [start, Db.contractLog] at h
      split at h
      · simp at h
      · split at h <;> simp at h
        subst h
        trivial
  | createDepositRequest u amount txHash =>
      simp only [start, Db.createDepositRequest] at h
      split at h
      · simp at h
      · split at h <;> simp at h
        subst h
        trivial
  | adminApproveTicket id amount => exact hr.elim

/-- The transaction that a step credits has been seen. -/
theorem creditHash_seen {db : Deposit.Db} {c : Deposit.Call} {a : Deposit.Answer} {h : ℕ}
    (hc : Seen env w db c) (hh : creditHash db c a = some h) : PaysDeposit env w h := by
  cases c with
  | crediting id tx amount fromAddress =>
      cases a with
      | done now =>
          obtain ⟨⟨row, hrow, hsame⟩, hpays⟩ := hc
          simp only [creditHash, hrow, Option.bind_some] at hh
          exact hpays h (hsame.symm.trans hh)
      | _ => cases hh
  | depositCommit u amount txHash =>
      cases a with
      | done now =>
          cases hh
          exact hc
      | _ => cases hh
  | approving id ticket amount => exact hc.elim
  | _ => cases a <;> cases hh

theorem depositsPaid_step {s s' : InFlight Deposit.Db Deposit.Call}
    {e : Event Deposit.Request Deposit.Answer} (hs : DepositsPaid env w s)
    (he : DepositEvent w s e) (h : (Deposit.service (depositConfig env w)).step s e = some s') :
    DepositsPaid env w s' := by
  cases e with
  | start r =>
      obtain ⟨db, cs, hstart, rfl⟩ := (Deposit.service (depositConfig env w)).step_start h
      have hsame := start_db (depositConfig env w) s.db r
      rw [Option.some.inj hstart] at hsame
      obtain rfl := hsame
      refine ⟨hs.1, fun i c hc => ?_⟩
      rcases Service.foldl_insert_row _ hc with hmem | hold
      · exact start_seen env w he ((congrArg Prod.snd (Option.some.inj hstart)).symm ▸ hmem)
      · exact hs.2 i c hold
  | resume call a =>
      obtain ⟨c, db, next, hc, hresume, rfl⟩ :=
        (Deposit.service (depositConfig env w)).step_resume h
      have hseen := hs.2 call c hc
      have hkept := resume_hashesKept hresume
      constructor
      · intro credit hmem h hh
        rcases resume_cases hresume with hquiet | ⟨new, hnew, hpays⟩
        · rw [hquiet.credits] at hmem
          exact hs.1 credit hmem h hh
        · rw [hpays.credits] at hmem
          rcases List.mem_append.mp hmem with hold | hlast
          · exact hs.1 credit hold h hh
          · obtain rfl := List.mem_singleton.mp hlast
            exact creditHash_seen env w hseen (hnew.symm.trans hh)
      · intro i d hd
        rcases Service.advance_row hd with ⟨-, rfl⟩ | ⟨-, hold⟩
        · exact (resume_seen env w hseen (he c hc) hresume).kept hkept
        · exact (hs.2 i d hold).kept hkept

end Deposits

/-! ## A payment on its own -/

section Alone

section Checkins

open Checkin

variable {config : Checkin.Config} {wallets : ℕ → Option String} {txHash wallet : String}

theorem byDay_self {userId : ℕ} {row : DailyCheckin} (hrow : row.userId = userId)  :
    byDay ⟨.insert .empty row, wallets⟩ userId row.checkinDate = some (1, row) := by
  have hrows : (Table.empty.insert row).rows = [(1, row)] := rfl
  simp [byDay, Table.findFirst, Table.findMany, hrows, hrow]

/-- A check-in on its own, paid with a transaction that is confirmed. -/
theorem confirm_alone (hwallet : (wallets 1).filter
      (fun wallet => String.ofList (trimStr wallet.toList) ≠ "") = some wallet)
    (hconfirmed : evaluatePayment config txHash wallet 0 = .confirmed) :
    ∃ db, (Checkin.service config).alone (.ok 0) 6 ⟨.empty, wallets⟩ (.confirmUser 1 txHash)
        = some db
      ∧ ∃ row, db.checkins.row 1 = some row ∧ row.status = .confirmed
        ∧ row.basis = some (onChain txHash) := by
  let today := config.getBrazilCheckinDateKey 0
  let p : Payment := ⟨1, txHash, wallet, today⟩
  let row : DailyCheckin := { newRow config 1 today txHash 0 with amount := checkinAmount config }
  let empty : Checkin.Db := ⟨.empty, wallets⟩
  let saved : Checkin.Db := ⟨.insert .empty row, wallets⟩
  have hday : byDay empty 1 today = none := rfl
  have hhash : byHash empty txHash = none := rfl
  have hsaved : byDay saved 1 today = some (1, row) := byDay_self rfl
  have huser : act config empty (.confirmUser 1 txHash) (.ok 0)
      = (none, some (.confirmFind 1 txHash wallet)) := by
    simp only [act]
    rw [hwallet]
  have hfind : act config empty (.confirmFind 1 txHash wallet) (.ok 0)
      = (none, some (.confirmDup p none)) := by
    simp [act, today, hday, p]
  have hdup : act config empty (.confirmDup p none) (.ok 0)
      = (none, some (.confirmSave p none)) := by
    simp [act, p, hhash]
  have hsave : act config empty (.confirmSave p none) (.ok 0)
      = (some (.create row), some (.confirmEvaluate p)) := by
    simp [act, p, hashFree, hhash, hday, row]
  have hevaluate : act config saved (.confirmEvaluate p) (.ok 0)
      = (none, some (.confirmDone p)) := by
    simp only [act]
    rw [show evaluatePayment config p.txHash p.wallet 0 = .confirmed from hconfirmed]
  have hdone : act config saved (.confirmDone p) (.ok 0)
      = (some (.confirm 1 (onChain txHash) 0), none) := by
    simp [act, p, hsaved]
  have hstep : ∀ {db : Checkin.Db} {c : Checkin.Call} {w : Option Write}
      {next : Option Checkin.Call} {n : ℕ}, act config db c (.ok 0) = (w, next) →
      (Checkin.service config).alone (.ok 0) (n + 1) db c
        = next.elim (some (w.elim db (apply config db)))
            ((Checkin.service config).alone (.ok 0) n (w.elim db (apply config db))) := by
    intro db c w next n hact
    simp [Service.alone, Checkin.service, hact]
  refine ⟨apply config saved (.confirm 1 (onChain txHash) 0), ?_, _, rfl, rfl, rfl⟩
  calc (Checkin.service config).alone (.ok 0) 6 empty (.confirmUser 1 txHash)
    _ = (Checkin.service config).alone (.ok 0) 5 empty (.confirmFind 1 txHash wallet) :=
        hstep huser
    _ = (Checkin.service config).alone (.ok 0) 4 empty (.confirmDup p none) := hstep hfind
    _ = (Checkin.service config).alone (.ok 0) 3 empty (.confirmSave p none) := hstep hdup
    _ = (Checkin.service config).alone (.ok 0) 2 saved (.confirmEvaluate p) := hstep hsave
    _ = (Checkin.service config).alone (.ok 0) 1 saved (.confirmDone p) := hstep hevaluate
    _ = some (apply config saved (.confirm 1 (onChain txHash) 0)) := hstep hdone

/-- The same as a run, which begins with the request. -/
theorem confirm_run (hpay : paymentCheckinEnabled config = true)
    (hvalid : assertValidTxHash txHash = some txHash)
    (hwallet : (wallets 1).filter
      (fun wallet => String.ofList (trimStr wallet.toList) ≠ "") = some wallet)
    (hconfirmed : evaluatePayment config txHash wallet 0 = .confirmed) :
    ∃ es t, (Checkin.service config).sys.run ⟨⟨.empty, wallets⟩, .empty⟩ es = some t
      ∧ ∃ row, t.db.checkins.row 1 = some row ∧ row.status = .confirmed
        ∧ row.basis = some (onChain txHash) := by
  obtain ⟨db, halone, hrow⟩ := confirm_alone hwallet hconfirmed
  have hstart : (Checkin.service config).start ⟨.empty, wallets⟩ (.confirmCheckin 1 txHash)
      = some (⟨.empty, wallets⟩, [.confirmUser 1 txHash]) := by
    simp [Checkin.service, Checkin.start, hpay, hvalid]
  have hcall : (Table.empty.insert (Call.confirmUser 1 txHash)).row 1
      = some (.confirmUser 1 txHash) := rfl
  obtain ⟨k, calls, hrun, -, -⟩ := (Checkin.service config).run_alone halone hcall
  exact ⟨_, _, (Checkin.service config).run_of_start hstart hrun, hrow⟩

end Checkins

section Deposits

open Deposit

variable {config : Deposit.Config}

/-- The submission of a hash, and its verification. -/
def depositAlone (rpc : Rpc) : List (Event Deposit.Request Deposit.Answer) :=
  [.start (.submitDeposit 1 ⟨5, 0⟩ 0), .resume 1 (.done 0), .resume 1 (.done 0),
    .start .runDepositVerifier, .resume 2 (.chain rpc), .resume 2 (.done 0)]

/-- A deposit on its own, whose transaction is verified. -/
theorem credit_run {rpc : Rpc} {amount : ℚ} {fromAddress : Option Address} {users : Table UserRow}
    {user : UserRow} (huser : users.row 1 = some user)
    (hverified : verifyOnChain config user.walletAddress rpc = .verified amount fromAddress) :
    ∃ t, (Deposit.service config).sys.run ⟨⟨.empty, users, .empty, []⟩, .empty⟩
        (depositAlone rpc) = some t ∧ ⟨some 5, 1, amount⟩ ∈ t.db.credits := by
  let S := Deposit.service config
  let row := Db.pendingRow 1 0 ⟨5, 0⟩
  let empty : Deposit.Db := ⟨.empty, users, .empty, []⟩
  let submitted : Deposit.Db := ⟨.insert .empty row, users, .empty, []⟩
  have hfree : ∀ p, (Table.empty : Table TransactionRow).findFirst p = none := fun _ => rfl
  have hsubmit : S.start empty (.submitDeposit 1 ⟨5, 0⟩ 0)
      = some (empty, [.submitOther 1 ⟨5, 0⟩ 0]) := by
    simp [S, Deposit.service, start, Db.submitDeposit, HashText.normalize, empty, hfree]
  have hother : S.resume empty (.submitOther 1 ⟨5, 0⟩ 0) (.done 0)
      = some (empty, some (.submitCreate 1 ⟨5, 0⟩ 0)) := by
    simp [S, Deposit.service, resume, Db.submitOther, empty, hfree]
  have hcreate : S.resume empty (.submitCreate 1 ⟨5, 0⟩ 0) (.done 0)
      = some (submitted, none) := rfl
  have hpending : S.start submitted .runDepositVerifier
      = some (submitted, [.verifying 1 row]) := rfl
  have hnone : submitted.duplicate 1 row = none := rfl
  have hlinked : (submitted.users.row row.userId).bind (·.walletAddress) = user.walletAddress := by
    have huser' : submitted.users.row row.userId = some user := huser
    rw [huser', Option.bind_some]
  have hverify : S.resume submitted (.verifying 1 row) (.chain rpc)
      = some (submitted, some (.crediting 1 row amount fromAddress)) := by
    have hattempts : ¬DEPOSIT_VERIFY_MAX_ATTEMPTS < row.verifyAttempts + 1 := by decide
    simp only [S, Deposit.service, resume, Db.verifyOnePendingDeposit, hlinked, hverified, hnone,
      hattempts, if_false]
  have hcredit : S.resume submitted (.crediting 1 row amount fromAddress) (.done 0)
      = some (submitted.creditVerified 1 row amount fromAddress 0, none) := rfl
  have hcredits : (submitted.creditVerified 1 row amount fromAddress 0).credits
      = [⟨some 5, 1, amount⟩] := by
    have hrow : submitted.transactions.row 1 = some row := rfl
    have huser' : submitted.users.row row.userId = some user := huser
    rw [Db.creditVerified, hrow, huser']
    rfl
  refine ⟨_, S.run_of_start hsubmit <| S.run_of_resume rfl hother <|
    S.run_of_resume rfl hcreate <| S.run_of_start hpending <| S.run_of_resume rfl hverify <|
    S.run_of_resume rfl hcredit rfl, ?_⟩
  rw [hcredits]
  exact List.mem_singleton_self _

end Deposits

end Alone

/-! ## The verdict -/

section Verdict

variable {env : Env}

/-- A receiver of the check-ins is never the zero address. -/
theorem resolveCheckinReceiverFromEnv_ne_zero :
    normalizeAddr (resolveCheckinReceiverFromEnv env) ≠ ZERO_ADDR := by
  intro hzero
  unfold resolveCheckinReceiverFromEnv at hzero
  cases hfind : (([env.CHECKIN_RECEIVER, env.DEPOSIT_WALLET_ADDRESS].map trim).find? fun r =>
      r ≠ "" ∧ normalizeAddr r ≠ ZERO_ADDR) with
  | none =>
      rw [hfind] at hzero
      revert hzero
      decide
  | some r =>
      have hr := List.find?_some hfind
      simp only [decide_eq_true_eq] at hr
      rw [hfind] at hzero
      exact hr.2 hzero

/-- The empty text is no address. -/
theorem normalizeAddr_ne_empty {s : String} {a : Deposit.Address} (h : addressOf s = some a) :
    normalizeAddr s ≠ "" := by
  intro hempty
  rw [addressOf, hexNumber, hempty] at h
  cases h

/-! User 1 has linked the wallet 7. -/

def payer : String := "0x0000000000000000000000000000000000000007"

def paymentHash : String :=
  "0x0000000000000000000000000000000000000000000000000000000000000005"

/-- In wei. -/
def onePol : ℕ := 10 ^ 18

theorem formatEther_onePol : Deposit.formatEther onePol = 1 := by
  norm_num [Deposit.formatEther, onePol]

/-- One POL from the wallet 7, as the check-ins and as the deposits see it. -/
def checkinTx (receiver : String) : Checkin.ChainTx := ⟨payer, receiver, some onePol, some true⟩

def depositTx (receiver : String) : Deposit.OnchainTx := ⟨137, addressOf receiver, some 7, onePol⟩

theorem addressOf_payer : addressOf payer = some 7 := by decide +kernel

theorem agrees_payment (receiver : String) : Agrees (checkinTx receiver) (depositTx receiver) := by
  simp only [Agrees, checkinTx, depositTx, addressOf_payer, and_self]

/-- The chain that knows this payment alone. -/
def payingChain (receiver : String) : World where
  chain _ := some (depositTx receiver)
  checkins :=
    { receiver := receiver
      minWei := onePol
      POLYGON_CHAIN_ID := 137
      getBrazilCheckinDateKey := fun _ => "2026-01-01"
      syntheticFreeTxHash := fun _ _ => ""
      chain := fun _ txHash => if txHash = paymentHash then some (checkinTx receiver) else none }
  requiredConfs := 1
  minDepositPol := 1
  agrees := by
    intro now txHash tx h
    obtain ⟨rfl, htx⟩ := Option.ite_none_right_eq_some.mp h
    obtain rfl := Option.some.inj htx
    exact ⟨5, _, by decide +kernel, rfl, agrees_payment receiver⟩

/-- Were `a` the contract, it would have logged the deposit. -/
def depositReceipt (a : Deposit.Address) : Deposit.Receipt := ⟨1, 1, [⟨a, some ⟨7, 7, onePol⟩⟩]⟩

/-- What the node answers to the verifier. -/
def paymentRpc (receiver : String) (a : Deposit.Address) : Deposit.Rpc where
  receipt := some (some (depositReceipt a))
  tx := some (some (depositTx receiver))
  latestBlock := some 1

/-- Such a payment is verified, to the treasury or to the contract. -/
theorem verifyOnChain_payment {config : Deposit.Config} {receiver : String} {a : Deposit.Address}
    (hconfs : config.requiredConfs = 1) (hmin : config.minDepositPol = 1)
    (ha : addressOf receiver = some a)
    (hpays : config.depositWallet = some a ∨ config.smartContract = some a) :
    Deposit.verifyOnChain config (some 7) (paymentRpc receiver a) = .verified 1 (some 7) := by
  have hsettled : Deposit.Settled config (paymentRpc receiver a).latestBlock (depositReceipt a)
      (depositTx receiver) :=
    ⟨rfl, rfl, ⟨1, rfl, by simp [hconfs, depositReceipt]⟩,
      by simp [hmin, depositTx, formatEther_onePol]⟩
  have hreceipt : (paymentRpc receiver a).receipt = some (some (depositReceipt a)) := rfl
  have htx : (paymentRpc receiver a).tx = some (some (depositTx receiver)) := rfl
  refine Deposit.verifyOnChain_settled hreceipt htx hsettled ?_
  by_cases hcontract : config.smartContract = some a
  · simp [Deposit.depositedAmount, depositTx, ha, hcontract, formatEther_onePol, depositReceipt,
      Deposit.extractDepositReceivedFromReceipt, Deposit.contractDepositMatchesLinkedWallet]
  · have hwallet := hpays.resolve_right hcontract
    have hnot : ¬Deposit.isContract config (depositTx receiver) := by
      simp [Deposit.isContract, depositTx, ha, Ne.symm hcontract]
    have htreasury : Deposit.isTreasury config (depositTx receiver) := by
      simp [Deposit.isTreasury, depositTx, ha, hwallet]
    rw [Deposit.depositedAmount_treasury hnot htreasury, depositTx, formatEther_onePol]

theorem evaluatePayment_payment {config : Checkin.Config} {receiver : String} {a : Deposit.Address}
    (hreceiver : config.receiver = receiver) (hmin : config.minWei = onePol)
    (hchain : ∀ now, config.chain now paymentHash = some (checkinTx receiver))
    (ha : addressOf receiver = some a) (hzero : normalizeAddr receiver ≠ ZERO_ADDR) :
    Checkin.evaluatePayment config paymentHash payer 0 = .confirmed := by
  have hhash : Checkin.onChain paymentHash = paymentHash := by decide +kernel
  simp [Checkin.evaluatePayment, Checkin.evaluateCheckinTx, hhash, hchain, checkinTx, hreceiver,
    normalizeAddr_ne_empty ha, hzero, hmin]

/-- Before the payment. -/
def beforePayment : State :=
  ⟨⟨⟨.empty, fun u => if u = 1 then some payer else none⟩, .empty⟩,
    ⟨⟨.empty, .insert .empty ⟨some 7, 0⟩, .empty, []⟩, .empty⟩⟩

theorem fresh_beforePayment : Fresh beforePayment where
  checkins _ := rfl
  checkinCalls _ := rfl
  credits := rfl
  depositCalls _ := rfl
  wallets u := by
    by_cases hu : u = 1
    · subst hu
      decide +kernel
    · simp [beforePayment, Deposit.Db.linkedWallet, Table.insert_row, Table.empty, hu]

theorem depositAlone_allowed {receiver : String} {a : Deposit.Address}
    {e : Event Deposit.Request Deposit.Answer} (he : e ∈ depositAlone (paymentRpc receiver a))
    (s : InFlight Deposit.Db Deposit.Call) : DepositEvent (payingChain receiver) s e := by
  have hdone : ∀ c now, Truthful (payingChain receiver) c (.done now) := by
    intro c now
    cases c <;> trivial
  have hchain : ∀ c, Truthful (payingChain receiver) c (.chain (paymentRpc receiver a)) := by
    intro c
    cases c with
    | verifying id tx =>
        intro onchain h _ _
        exact Option.some.inj h
    | depositing u amount txHash =>
        intro onchain h
        exact Option.some.inj h
    | _ => trivial
  simp only [depositAlone, List.mem_cons, List.not_mem_nil, or_false] at he
  rcases he with rfl | rfl | rfl | rfl | rfl | rfl
  · trivial
  · exact fun c _ => hdone c 0
  · exact fun c _ => hdone c 0
  · trivial
  · exact fun c _ => hchain c
  · exact fun c _ => hdone c 0

/-- Where the receiver takes deposits too, one payment buys twice. -/
theorem boughtTwice_of_shared {receiver : String} {a : Deposit.Address}
    (hreceiver : resolveCheckinReceiverFromEnv env = receiver) (ha : addressOf receiver = some a)
    (hshared : addressOf env.DEPOSIT_WALLET_ADDRESS = some a
      ∨ addressOf env.SMART_CONTRACT_ADDRESS = some a) :
    ¬BuysOneThing env := by
  intro hone
  let w := payingChain receiver
  have hzero : normalizeAddr receiver ≠ ZERO_ADDR := by
    rw [← hreceiver]
    exact resolveCheckinReceiverFromEnv_ne_zero
  have hchain : ∀ now, (checkinConfig env w).chain now paymentHash = some (checkinTx receiver) := by
    intro now
    simp only [checkinConfig, w, payingChain, if_true]
  have hreceiver' : (checkinConfig env w).receiver = receiver := by
    simp only [checkinConfig, hreceiver]
  have hconfirmed : Checkin.evaluatePayment (checkinConfig env w) paymentHash payer 0
      = .confirmed :=
    evaluatePayment_payment hreceiver' rfl hchain ha hzero
  have hpay : Checkin.paymentCheckinEnabled (checkinConfig env w) = true := by
    simp only [Checkin.paymentCheckinEnabled, checkinConfig, hreceiver, decide_eq_true_eq]
    rintro rfl
    cases ha
  have hvalid : Checkin.assertValidTxHash paymentHash = some paymentHash := by decide +kernel
  have hhash : hashOf (Checkin.onChain paymentHash) = some 5 := by decide +kernel
  have hwallet : (beforePayment.1.db.wallets 1).filter
      (fun wallet => String.ofList (trimStr wallet.toList) ≠ "") = some payer := by
    decide +kernel
  obtain ⟨es, s, hrun, row, hrow, hstatus, hbasis⟩ :=
    confirm_run hpay hvalid hwallet hconfirmed
  have hverified : Deposit.verifyOnChain (depositConfig env w) (some 7) (paymentRpc receiver a)
      = .verified 1 (some 7) := by
    refine verifyOnChain_payment ?_ ?_ ?_ ?_
    · simp only [depositConfig, w, payingChain]
    · simp only [depositConfig, w, payingChain]
    · exact ha
    · simpa only [depositConfig] using hshared
  have huser : beforePayment.2.db.users.row 1 = some ⟨some 7, 0⟩ := rfl
  obtain ⟨t, hrun', hcredit⟩ := credit_run huser hverified
  have hmeets : (sys env w).Meets (Allowed w) beforePayment
      (es.map .inl ++ (depositAlone (paymentRpc receiver a)).map .inr) := by
    refine (sys env w).meets_of_labels _ _ fun e he s => ?_
    rcases List.mem_append.mp he with hleft | hright
    · obtain ⟨e, -, rfl⟩ := List.mem_map.mp hleft
      trivial
    · obtain ⟨e, hmem, rfl⟩ := List.mem_map.mp hright
      exact depositAlone_allowed hmem s.2
  have hleft : (es.map Sum.inl ++ (depositAlone (paymentRpc receiver a)).map Sum.inr).filterMap
      Sum.getLeft? = es := by
    simp [List.filterMap_map, Function.comp_def]
  have hright : (es.map Sum.inl ++ (depositAlone (paymentRpc receiver a)).map Sum.inr).filterMap
      Sum.getRight? = depositAlone (paymentRpc receiver a) := by
    simp [List.filterMap_map, Function.comp_def]
  refine hone w beforePayment (s, t) _ fresh_beforePayment hmeets ?_ 5
    ⟨⟨1, row, _, hrow, hstatus, hbasis, hhash⟩, _, hcredit, rfl⟩
  exact (System.run_both _ _).mpr ⟨hleft.symm ▸ hrun, hright.symm ▸ hrun'⟩

/-- What both services have accepted, both the receiver and the deposits take. -/
theorem separate_payments {w : World} {txHash : String} {h : ℕ} (henv : Separate env)
    (hhash : hashOf txHash = some h) (hpaid : PaysReceiver (checkinConfig env w) txHash)
    (hdeposit : PaysDeposit env w h) : False := by
  obtain ⟨now, tx, htx, hto⟩ := hpaid
  obtain ⟨tx', hchain, hpays⟩ := hdeposit
  obtain ⟨h', onchain, hhash', hchain', hagrees⟩ := w.agrees now txHash tx htx
  obtain rfl : h = h' := Option.some.inj (hhash.symm.trans hhash')
  obtain rfl : tx' = onchain := Option.some.inj (hchain.symm.trans hchain')
  simp only [checkinConfig] at hto
  have hreceiver : tx'.toAddress = addressOf (resolveCheckinReceiverFromEnv env) :=
    hagrees.2.1.symm.trans (addressOf_congr hto)
  simp only [Deposit.isContract, Deposit.isTreasury, depositConfig] at hpays
  rcases hpays with ⟨hset, hsame⟩ | ⟨hset, hsame⟩
  · obtain ⟨a, ha⟩ := Option.isSome_iff_exists.mp hset
    have hshared := hreceiver.symm.trans (hsame.trans ha)
    exact (henv a hshared).2 ha
  · obtain ⟨a, ha⟩ := Option.isSome_iff_exists.mp hset
    have hshared := hreceiver.symm.trans (hsame.trans ha)
    exact (henv a hshared).1 ha

/-- What both services have accepted was shown to them by the chain. -/
theorem paid_run {w : World} {s t : State} {es : List Label} (hs : Fresh s)
    (hes : (sys env w).Meets (Allowed w) s es) (hrun : (sys env w).run s es = some t) :
    CheckinsPaid (checkinConfig env w) t.1 ∧ DepositsPaid env w t.2 := by
  refine (sys env w).run_invariant
    (I := fun s => CheckinsPaid (checkinConfig env w) s.1 ∧ DepositsPaid env w s.2) ?_ ?_ hes hrun
  · intro s e s' hpaid he hstep
    cases e with
    | inl e =>
        obtain ⟨s₁, hs₁, rfl⟩ := Option.map_eq_some_iff.mp hstep
        exact ⟨checkinsPaid_step _ hpaid.1 hs₁, hpaid.2⟩
    | inr e =>
        obtain ⟨s₂, hs₂, rfl⟩ := Option.map_eq_some_iff.mp hstep
        exact ⟨hpaid.1, depositsPaid_step env w hpaid.2 he hs₂⟩
  · refine ⟨⟨?_, ?_⟩, ?_, ?_⟩
    · simp [hs.checkins]
    · simp [hs.checkinCalls]
    · simp [hs.credits]
    · simp [hs.depositCalls]

/-- **One payment buys one thing**, if and only if the check-ins are not paid to
an address that deposits are paid to. -/
theorem one_payment_one_purchase (env : Env) : BuysOneThing env ↔ Separate env := by
  constructor
  · intro hone a ha
    constructor
    · intro htreasury
      exact boughtTwice_of_shared rfl ha (Or.inl htreasury) hone
    · intro hcontract
      exact boughtTwice_of_shared rfl ha (Or.inr hcontract) hone
  · rintro henv w s t es hs hes hrun h ⟨⟨i, row, txHash, hrow, -, hbasis, hhash⟩, c, hc, hch⟩
    obtain ⟨hcheckins, hdeposits⟩ := paid_run hs hes hrun
    exact separate_payments henv hhash (hcheckins.1 i row hrow txHash hbasis)
      (hdeposits.1 c hc h hch)

def treasury : String := "0x0000000000000000000000000000000000000008"

theorem addressOf_treasury : addressOf treasury = some 8 := by decide +kernel

/-- Nothing but the treasury is set. -/
def treasuryOnly : Env := ⟨"", treasury, ""⟩

/-- The check-ins fall back to the treasury, so that a check-in is a deposit. -/
theorem checkin_is_deposit : ¬∀ env : Env, BuysOneThing env := by
  intro hone
  have hreceiver : addressOf (resolveCheckinReceiverFromEnv treasuryOnly) = some 8 := by
    decide +kernel
  exact boughtTwice_of_shared rfl hreceiver (Or.inl addressOf_treasury) (hone treasuryOnly)

end Verdict
end BlockMiner.OnePayment
