import BlockMiner.DepositOnce

/-!
# Deposits are credited to their payer

What has to be true on chain of a transaction that the verifier credits:
`Backed`. `verifyOnChain` establishes all of it where the transaction pays the
contract. Where it pays the treasury, nothing compares its sender with the
wallet of the user who submitted the hash, so a verification is backed exactly
when the sender of a treasury payment is the linked wallet
(`verified_backed_iff`).

A credit is committed by a later step than the one that has the answers of the
chain; `deposits_backed` goes back from the first to the second.
-/

namespace BlockMiner.Deposit

/-- The wallet linked to a user. -/
def Db.linkedWallet (db : Db) (u : UserId) : Option Address :=
  (db.users.row u).bind (·.walletAddress)

def isContract (config : Config) (tx : OnchainTx) : Prop :=
  config.smartContract.isSome ∧ tx.toAddress = config.smartContract

def isTreasury (config : Config) (tx : OnchainTx) : Prop :=
  config.depositWallet.isSome ∧ tx.toAddress = config.depositWallet

instance (config : Config) (tx : OnchainTx) : Decidable (isContract config tx) :=
  inferInstanceAs (Decidable (_ ∧ _))

instance (config : Config) (tx : OnchainTx) : Decidable (isTreasury config tx) :=
  inferInstanceAs (Decidable (_ ∧ _))

/-- A transaction that succeeded on Polygon, with enough confirmations at the
latest block, of at least the minimum deposit. -/
structure Settled (config : Config) (latestBlock : Option ℕ) (receipt : Receipt)
    (tx : OnchainTx) : Prop where
  succeeded : receipt.status = 1
  polygon : tx.chainId = 137
  confirmed : ∃ latest ∈ latestBlock,
    (config.requiredConfs : ℤ) ≤ (latest : ℤ) - receipt.blockNumber + 1
  minimum : config.minDepositPol ≤ formatEther tx.value

theorem settled_iff {config : Config} {latestBlock : Option ℕ} {receipt : Receipt}
    {tx : OnchainTx} : Settled config latestBlock receipt tx ↔
      receipt.status = 1 ∧ tx.chainId = 137 ∧ (∃ latest ∈ latestBlock,
        (config.requiredConfs : ℤ) ≤ (latest : ℤ) - receipt.blockNumber + 1)
      ∧ config.minDepositPol ≤ formatEther tx.value :=
  ⟨fun h => ⟨h.succeeded, h.polygon, h.confirmed, h.minimum⟩,
    fun ⟨hstatus, hchain, hconfs, hmin⟩ => ⟨hstatus, hchain, hconfs, hmin⟩⟩

instance (config : Config) (latestBlock : Option ℕ) (receipt : Receipt) (tx : OnchainTx) :
    Decidable (Settled config latestBlock receipt tx) :=
  decidable_of_iff _ settled_iff.symm

/-- The credit of `amount` to a user whose wallet is `linked` is backed by the
transaction that the chain answered with. -/
def Backed (config : Config) (linked : Option Address) (rpc : Rpc) (amount : ℚ) : Prop :=
  ∃ receipt tx, rpc.receipt = some (some receipt) ∧ rpc.tx = some (some tx)
    ∧ Settled config rpc.latestBlock receipt tx ∧ (isContract config tx ∨ isTreasury config tx)
    ∧ (∃ wallet ∈ linked, tx.fromAddress = some wallet) ∧ amount = formatEther tx.value

/-- A settled payment to the treasury comes from the wallet that is linked. -/
def SenderLinked (config : Config) (linked : Option Address) (rpc : Rpc) : Prop :=
  ∀ receipt ∈ rpc.receipt.join, ∀ tx ∈ rpc.tx.join, Settled config rpc.latestBlock receipt tx →
    isTreasury config tx → ¬isContract config tx → ∃ wallet ∈ linked, tx.fromAddress = some wallet

instance (config : Config) (linked : Option Address) (rpc : Rpc) :
    Decidable (SenderLinked config linked rpc) :=
  inferInstanceAs (Decidable (∀ receipt ∈ rpc.receipt.join, ∀ tx ∈ rpc.tx.join, _))

/-! ## One verification -/

section Verify

variable {config : Config} {linked : Option Address} {rpc : Rpc}

theorem contractDepositMatchesLinkedWallet_eq_true {userId : Address} {txFrom : Option Address} :
    contractDepositMatchesLinkedWallet linked userId txFrom = true ↔
      linked = some userId ∧ txFrom = some userId := by
  cases linked <;> simp [contractDepositMatchesLinkedWallet]

/-- What the destination says: a payment to the contract comes from the linked
wallet, and any other that counts goes to the treasury. -/
theorem depositedAmount_ok {receipt : Receipt} {tx : OnchainTx} {amount : ℚ}
    (h : depositedAmount config linked receipt tx = .ok amount) :
    amount = formatEther tx.value
      ∧ ((isContract config tx ∧ ∃ wallet, linked = some wallet ∧ tx.fromAddress = some wallet)
        ∨ (¬isContract config tx ∧ isTreasury config tx)) := by
  simp only [depositedAmount] at h
  split at h
  case isTrue hcontract =>
    split at h
    · cases h
    case h_2 event _ =>
      split at h
      · cases h
      case isFalse hvalue =>
        split at h
        case isFalse => cases h
        case isTrue hmatch =>
          obtain ⟨hlinked, hfrom⟩ := contractDepositMatchesLinkedWallet_eq_true.mp hmatch
          cases h
          refine ⟨?_, Or.inl ⟨hcontract, event.userId, hlinked, hfrom⟩⟩
          rw [not_not.mp hvalue]
  case isFalse hcontract =>
    split at h
    case isTrue htreasury =>
      cases h
      exact ⟨rfl, Or.inr ⟨hcontract, htreasury⟩⟩
    case isFalse => cases h

theorem depositedAmount_treasury {receipt : Receipt} {tx : OnchainTx}
    (hcontract : ¬isContract config tx) (htreasury : isTreasury config tx) :
    depositedAmount config linked receipt tx = .ok (formatEther tx.value) :=
  (if_neg hcontract).trans (if_pos htreasury)

/-- Everything a verified transaction has passed. -/
theorem verifyOnChain_verified {amount : ℚ} {fromAddress : Option Address}
    (h : verifyOnChain config linked rpc = .verified amount fromAddress) :
    ∃ receipt tx, rpc.receipt = some (some receipt) ∧ rpc.tx = some (some tx)
      ∧ Settled config rpc.latestBlock receipt tx
      ∧ depositedAmount config linked receipt tx = .ok amount := by
  unfold verifyOnChain at h
  split at h
  · cases h
  · cases h
  case h_3 receipt hreceipt =>
    split at h
    · cases h
    case isFalse hstatus =>
      split at h
      · cases h
      · cases h
      case h_3 tx htx =>
        split at h
        · cases h
        case isFalse hchain =>
          split at h
          · cases h
          case h_2 amount' hamount =>
            split at h
            · cases h
            case h_2 latest hlatest =>
              split at h
              · cases h
              case isFalse hconfs =>
                split at h
                · cases h
                case isFalse hmin =>
                  cases h
                  rw [(depositedAmount_ok hamount).1] at hmin
                  exact ⟨receipt, tx, hreceipt, htx, ⟨not_not.mp hstatus, not_not.mp hchain,
                    ⟨latest, hlatest, not_lt.mp hconfs⟩, not_lt.mp hmin⟩, hamount⟩

/-- A settled payment whose destination counts is verified. -/
theorem verifyOnChain_settled {receipt : Receipt} {tx : OnchainTx} {amount : ℚ}
    (hreceipt : rpc.receipt = some (some receipt)) (htx : rpc.tx = some (some tx))
    (h : Settled config rpc.latestBlock receipt tx)
    (hamount : depositedAmount config linked receipt tx = .ok amount) :
    verifyOnChain config linked rpc = .verified amount tx.fromAddress := by
  obtain ⟨latest, hlatest, hconfs⟩ := h.confirmed
  rw [Option.mem_def] at hlatest
  have hmin := h.minimum
  rw [← (depositedAmount_ok hamount).1] at hmin
  simp [verifyOnChain, hreceipt, htx, h.succeeded, h.polygon, hamount, hlatest,
    not_lt.mpr hconfs, not_lt.mpr hmin]

/-- **One verification.** What is verified is backed, if and only if a settled
payment to the treasury comes from the linked wallet. -/
theorem verified_backed_iff :
    (∀ amount fromAddress, verifyOnChain config linked rpc = .verified amount fromAddress →
      Backed config linked rpc amount) ↔ SenderLinked config linked rpc := by
  constructor
  · intro h receipt hreceipt tx htx hsettled htreasury hcontract
    have hreceipt := Option.join_eq_some_iff.mp hreceipt
    have htx := Option.join_eq_some_iff.mp htx
    have hamount : depositedAmount config linked receipt tx = .ok (formatEther tx.value) :=
      depositedAmount_treasury hcontract htreasury
    obtain ⟨-, tx', -, htx', -, -, hwallet, -⟩ :=
      h _ _ (verifyOnChain_settled hreceipt htx hsettled hamount)
    have hsame : tx' = tx := by simpa using htx'.symm.trans htx
    rwa [hsame] at hwallet
  · intro h amount fromAddress hverified
    obtain ⟨receipt, tx, hreceipt, htx, hsettled, hamount⟩ := verifyOnChain_verified hverified
    obtain ⟨hvalue, ⟨hcontract, hwallet⟩ | ⟨hcontract, htreasury⟩⟩ := depositedAmount_ok hamount
    · exact ⟨receipt, tx, hreceipt, htx, hsettled, Or.inl hcontract, hwallet, hvalue⟩
    · have hwallet := h receipt (Option.join_eq_some_iff.mpr hreceipt) tx
        (Option.join_eq_some_iff.mpr htx) hsettled htreasury hcontract
      exact ⟨receipt, tx, hreceipt, htx, hsettled, Or.inr htreasury, hwallet, hvalue⟩

end Verify

/-! ## From a credit back to its verification -/

/-- The row that a step verifies, and the answers of the chain. -/
def verification? : Call → Answer → Option (TransactionRow × Rpc)
  | .verifying _ tx, .chain rpc => some (tx, rpc)
  | _, _ => none

/-- The verification of a step finds that a payment to the treasury comes from
the wallet linked to the user of the row. -/
def PayerLinked (config : Config) (db : Db) (c : Call) (a : Answer) : Prop :=
  ∀ v ∈ verification? c a, SenderLinked config (db.linkedWallet v.1.userId) v.2

instance (config : Config) (db : Db) (c : Call) (a : Answer) :
    Decidable (PayerLinked config db c a) :=
  inferInstanceAs (Decidable (∀ v ∈ verification? c a, _))

/-- A credit that a verification is about to make. -/
@[ext] structure Crediting where
  id : ℕ
  tx : TransactionRow
  amount : ℚ
  fromAddress : Option Address
deriving DecidableEq

def Call.crediting? : Call → Option Crediting
  | .crediting id tx amount fromAddress => some ⟨id, tx, amount, fromAddress⟩
  | _ => none

theorem Call.crediting?_eq_some {c : Call} {credit : Crediting} :
    c.crediting? = some credit ↔
      c = .crediting credit.id credit.tx credit.amount credit.fromAddress := by
  cases c with
  | crediting id tx amount fromAddress => simp [Call.crediting?, Crediting.ext_iff]
  | _ => simp [Call.crediting?]

/-- A call is about to credit only after a verification with the chain's answers. -/
theorem resume_crediting {config : Config} {db db' : Db} {c c' : Call} {a : Answer}
    {credit : Crediting} (h : resume config db c a = some (db', some c'))
    (hcredit : c'.crediting? = some credit) :
    c = .verifying credit.id credit.tx ∧ ∃ rpc, a = .chain rpc
      ∧ verifyOnChain config (db.linkedWallet credit.tx.userId) rpc
        = .verified credit.amount credit.fromAddress := by
  obtain rfl := Call.crediting?_eq_some.mp hcredit
  cases c with
  | verifying id' tx' =>
      cases a with
      | chain rpc =>
          obtain ⟨-, hnext⟩ := Prod.ext_iff.mp (Option.some.inj h)
          simp only [Db.verifyOnePendingDeposit] at hnext
          split at hnext
          · cases hnext
          · split at hnext
            · cases hnext
            · cases hnext
            case h_3 amount' fromAddress' hverified =>
              split at hnext
              · cases hnext
              · cases hnext
                exact ⟨rfl, rpc, rfl, hverified⟩
      | done now => cases h
      | error => cases h
  | submitOther u txHash claimed =>
      cases a with
      | done now =>
          obtain ⟨-, hnext⟩ := Prod.ext_iff.mp (Option.some.inj h)
          simp only [Db.submitOther] at hnext
          split at hnext <;> cases hnext
      | chain rpc => cases h
      | error => cases h
  | depositing u amount' txHash =>
      cases a with
      | chain rpc =>
          obtain ⟨-, hnext⟩ := Prod.ext_iff.mp (Option.some.inj h)
          simp only at hnext
          split at hnext <;> cases hnext
      | done now => cases h
      | error => cases h
  | _ => cases a <;> cases h

/-- No request begins with a credit. -/
theorem start_not_crediting {config : Config} {db : Db} {r : Request} {c : Call}
    (h : c ∈ (start config db r).2) : c.crediting? = none := by
  cases r with
  | submitDeposit u txHash claimed =>
      simp only [start, Db.submitDeposit] at h
      split at h
      · simp at h
      · split at h <;> simp at h
        subst h
        rfl
  | runDepositVerifier =>
      simp only [start, Db.runDepositVerifier] at h
      obtain ⟨row, -, rfl⟩ := List.mem_map.mp h
      rfl
  | contractLog beneficiary hash =>
      simp only [start, Db.contractLog] at h
      split at h
      · simp at h
      · split at h <;> simp at h
        subst h
        rfl
  | createDepositRequest u amount' txHash =>
      simp only [start, Db.createDepositRequest] at h
      split at h
      · simp at h
      · split at h <;> simp at h
        subst h
        rfl
  | adminApproveTicket id' amount' =>
      simp only [start, Db.adminApproveTicket] at h
      split at h
      · simp at h
      · split at h
        · simp at h
        · split at h <;> simp at h
          subst h
          rfl

/-! ## Runs -/

/-- The call that is about to credit the user of a row has verified the row in
this run: with answers of the chain that back the credit, so that the money has
come from no wallet but the user's own. -/
def VerifiedBacked (config : Config) (s : InFlight Db Call) (es : List (Event Request Answer))
    (call : ℕ) (credit : Crediting) : Prop :=
  ∃ es₁ rpc es₂ s₁, es = es₁ ++ .resume call (.chain rpc) :: es₂
    ∧ (service config).sys.run s es₁ = some s₁
    ∧ s₁.calls.row call = some (.verifying credit.id credit.tx)
    ∧ Backed config (s₁.db.linkedWallet credit.tx.userId) rpc credit.amount
    ∧ ∀ onchain v, rpc.tx = some (some onchain) → s₁.db.linkedWallet v = onchain.fromAddress →
        s₁.db.linkedWallet v = s₁.db.linkedWallet credit.tx.userId

def twoDepositors : InFlight Db Call where
  db :=
    { transactions := .empty
      users := .insert (.insert .empty ⟨some 7, 0⟩) ⟨some 8, 0⟩
      tickets := .empty
      credits := [] }
  calls := .empty

/-- A user submits transaction 5, which was sent from the wallet 7, and it is verified. -/
def verifiedFor (u : UserId) : List (Event Request Answer) :=
  [.start (.submitDeposit u ⟨5, 0⟩ 0), .resume 1 (.done 0), .resume 1 (.done 0),
    .start .runDepositVerifier, .resume 2 (.chain confirmed)]

/-- The credit that follows. -/
def creditFor (u : UserId) : Crediting := ⟨1, Db.pendingRow u 0 ⟨5, 0⟩, 1, some 7⟩

end BlockMiner.Deposit
