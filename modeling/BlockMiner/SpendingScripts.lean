import BlockMiner.EngineSpending
import BlockMiner.Script
import BlockMiner.SpendingCovered

/-!
# The statements of a purchase, and the engine

`convertPolToBlk`, `createWithdrawal`, `buyRoom`, `purchaseMiniPassLevels` and
`purchaseMiniPassComplete`, statement by statement. Each takes the price off
`polBalance` in its transaction and tells the engine by `applyUserBalanceDelta`:
the first two inside the transaction, where the statements that follow can
still take the payment back, the others after the commit. Two statements stand
after a commit; `createNotification` catches its failure, the `auditLog.create`
of the mini pass does not, and its failure is answered as the request's.
-/

namespace BlockMiner.SpendingScripts

open Engine EngineSpending

inductive Endpoint where
  | convertPolToBlk (polAmount : ℚ)
  | createWithdrawal (amount : ℚ)
  | buyRoom
  | purchaseMiniPassLevels (seasonId : ℕ) (quantity : ℤ)
  | purchaseMiniPassComplete (seasonId : ℕ)

def Endpoint.request (now : ℕ) : Endpoint → Spending.Request
  | .convertPolToBlk polAmount => .convertPolToBlk polAmount
  | .createWithdrawal amount => .createWithdrawal amount
  | .buyRoom => .buyRoom
  | .purchaseMiniPassLevels seasonId quantity => .purchaseMiniPassLevels seasonId quantity now
  | .purchaseMiniPassComplete seasonId => .purchaseMiniPassComplete seasonId now

/-- A request that has passed its checks. -/
inductive Purchase where
  | convertPolToBlk (polGross blkOut : ℚ)
  | createWithdrawal (amount : ℚ)
  | buyRoom (nextRoom : ℕ) (price : ℚ)
  | purchaseMiniPass (seasonId xp : ℕ) (price : ℚ)
deriving DecidableEq

def Purchase.spend : Purchase → Spending.Spend
  | .convertPolToBlk polGross blkOut => .convertPolToBlk polGross blkOut
  | .createWithdrawal amount => .createWithdrawal amount
  | .buyRoom nextRoom price => .buyRoom nextRoom price
  | .purchaseMiniPass seasonId xp price => .purchaseMiniPass seasonId xp price

def Purchase.ofSpend? : Spending.Spend → Option Purchase
  | .convertPolToBlk polGross blkOut => some (.convertPolToBlk polGross blkOut)
  | .createWithdrawal amount => some (.createWithdrawal amount)
  | .buyRoom nextRoom price => some (.buyRoom nextRoom price)
  | .purchaseMiniPass seasonId xp price => some (.purchaseMiniPass seasonId xp price)
  | _ => none

def Purchase.price (p : Purchase) : ℚ := priceOf p.spend

/-- The statements, by the call; a call made twice has two names. -/
inductive Statement where
  | getBlkEconomyConfig | findUser | findLastConversion | aggregateConversions
  | updateUser | createTransaction | commit
  | findPendingWithdrawal
  | findRooms | createRoom | createRacks | createNotification
  | findSeason | upsertEnrollment | findEnrollment | createPurchase
  | findSeasonForXp | upsertEnrollmentForXp | createXpLedger | updateTotalXp | createXpAuditLog
  | findFreshUser | createAuditLog
deriving DecidableEq

abbrev Step := Action Statement Spending.Db

section Scripts

variable (cat : Spending.Catalog) (later : ℕ)

/-- A statement that only reads, or writes rows that no request here reads. -/
def query (name : Statement) : Step := .statement name id

/-- `tx.user.update` with `polBalance: { decrement: price }`. -/
def decrement (price : ℚ) : Step := .statement .updateUser (·.pay (some (.POL, price)))

/-- What is executed up to the commit, in the source's order. The XP ledger's key
holds the new purchase's id, so its insert finds no duplicate. -/
def Purchase.transaction : Purchase → List Step
  | .convertPolToBlk polGross blkOut =>
      [query .getBlkEconomyConfig, query .findUser, query .findLastConversion]
        ++ (if cat.blkEconomy.dailyConvertLimitBlk.isSome then [query .aggregateConversions]
            else [])
        ++ [.statement .updateUser fun db =>
              { db.pay (some (.POL, polGross)) with blkBalance := db.blkBalance + blkOut },
            .effect,
            .statement .createTransaction fun db =>
              { db with conversions := (later, blkOut) :: db.conversions }]
  | .createWithdrawal amount =>
      [query .findPendingWithdrawal, query .findUser, decrement amount,
        .statement .createTransaction fun db =>
          { db with pendingWithdrawals := amount :: db.pendingWithdrawals },
        .effect]
  | .buyRoom nextRoom price =>
      [query .findRooms, query .findUser]
        ++ (if 0 < price then [decrement price] else [])
        ++ [.statement .createRoom fun db => { db with rooms := nextRoom :: db.rooms },
            query .createRacks]
  | .purchaseMiniPass seasonId xp price =>
      [query .findUser, query .findSeason, query .upsertEnrollment, query .findEnrollment,
        decrement price, query .createPurchase, query .findSeasonForXp,
        query .upsertEnrollmentForXp, query .createXpLedger,
        .statement .updateTotalXp fun db =>
          { db with totalXp := Function.update db.totalXp seasonId (db.totalXp seasonId + xp) },
        query .createXpAuditLog, query .findFreshUser]

/-- What is executed after the commit. -/
def Purchase.afterCommit : Purchase → List Step
  | .convertPolToBlk _ _ | .createWithdrawal _ => []
  | .buyRoom _ price => (if 0 < price then [.effect] else []) ++ [.caught .createNotification]
  | .purchaseMiniPass _ _ _ => [.effect, query .createAuditLog]

def Purchase.script (p : Purchase) : List Step :=
  p.transaction cat later ++ .commit .commit :: p.afterCommit

/-- The statements that the rows themselves refuse: a room number is unique for a
user, and `applyMiniPassXp` throws when the season is no longer live. -/
def Purchase.refused (db : Spending.Db) : Purchase → Statement → Bool
  | .buyRoom nextRoom _, .createRoom => nextRoom ∈ db.rooms
  | .purchaseMiniPass seasonId _ _, .findSeasonForXp =>
      !(cat.season seasonId).any (Spending.isMiniPassSeasonLive · later)
  | _, _ => false

end Scripts

/-! ## A request -/

section Requests

variable (cat : Spending.Catalog)

/-- The checks of a request; there are at most two queries after the first. -/
def accepted (db : Spending.Db) (now : ℕ) (e : Endpoint) : Option Purchase :=
  match ((Spending.start cat db (e.request now)).bind (Spending.query cat db now)).bind
      (Spending.query cat db now) with
  | .ok (.commit spend _) => Purchase.ofSpend? spend
  | _ => none

/-- The statements that fail: those given, and those that the rows refuse. -/
def failures (s : State) (u : UserId) (p : Purchase) (later : ℕ) (fails : Statement → Bool)
    (name : Statement) : Bool :=
  fails name || p.refused cat later (s.account u) name

def outcome (s : State) (u : UserId) (p : Purchase) (later : ℕ) (fails : Statement → Bool) :
    Outcome Spending.Db :=
  Script.run (failures cat s u p later fails) (s.account u) (s.account u) 0 (p.script cat later)

/-- The accepted request runs to its end; `later` is the clock of its writes. -/
def perform (s : State) (u : UserId) (p : Purchase) (later : ℕ) (fails : Statement → Bool) :
    State :=
  let o := outcome cat s u p later fails
  { world := (·.applyUserBalanceDelta u (-p.price))^[o.effects]
      { s.world with polBalance := Function.update s.world.polBalance u (o.db.balance .POL) }
    accounts := Function.update s.accounts u o.db }

end Requests

/-! ## What a script writes -/

section Writes

variable {cat : Spending.Catalog} {later : ℕ}

theorem transaction_no_commit (p : Purchase) :
    ∀ a ∈ p.transaction cat later, Script.isCommit a = false := by
  have hall : (p.transaction cat later).all (!Script.isCommit ·) = true := by
    cases p with
    | convertPolToBlk polGross blkOut =>
        simp only [Purchase.transaction]
        split <;> rfl
    | createWithdrawal amount => rfl
    | buyRoom nextRoom price =>
        simp only [Purchase.transaction]
        split <;> rfl
    | purchaseMiniPass seasonId xp price => rfl
  intro a ha
  simpa using List.all_eq_true.mp hall a ha

theorem afterCommit_no_commit (p : Purchase) :
    ∀ a ∈ p.afterCommit, Script.isCommit a = false := by
  have hall : p.afterCommit.all (!Script.isCommit ·) = true := by
    cases p with
    | buyRoom nextRoom price =>
        simp only [Purchase.afterCommit]
        split <;> rfl
    | convertPolToBlk | createWithdrawal | purchaseMiniPass => rfl
  intro a ha
  simpa using List.all_eq_true.mp hall a ha

/-- A request that pays tells the engine once. -/
theorem script_one_effect {p : Purchase} (h : p.price ≠ 0) :
    (p.script cat later).countP Script.isEffect = 1 := by
  cases p with
  | convertPolToBlk polGross blkOut =>
      simp only [Purchase.script, Purchase.transaction]
      split <;> rfl
  | createWithdrawal amount => rfl
  | buyRoom nextRoom price =>
      have hprice : 0 < price := by
        by_contra hnot
        exact h (by simp [Purchase.price, Purchase.spend, priceOf, Spending.Spend.payment, hnot])
      simp only [Purchase.script, Purchase.transaction, Purchase.afterCommit]
      rw [if_pos hprice, if_pos hprice]
      rfl
  | purchaseMiniPass seasonId xp price => rfl

/-- The statements of the transaction write what the commit of the spend does. -/
theorem writes_transaction {p : Purchase} {db : Spending.Db}
    (h : ∀ name, p.refused cat later db name = false) :
    p.spend.commit cat later db = some (Script.writes db (p.transaction cat later)) := by
  cases p with
  | convertPolToBlk polGross blkOut =>
      simp only [Purchase.transaction]
      split <;> rfl
  | createWithdrawal amount => rfl
  | buyRoom nextRoom price =>
      have hnew : nextRoom ∉ db.rooms := by simpa [Purchase.refused] using h .createRoom
      simp only [Purchase.transaction]
      by_cases hprice : 0 < price
      · simp [Purchase.spend, Spending.Spend.commit, Spending.Spend.writes, hnew, hprice,
          Spending.Spend.payment, Spending.Db.pay, Script.writes, query, decrement]
      · simp [Purchase.spend, Spending.Spend.commit, Spending.Spend.writes, hnew, hprice,
          Spending.Spend.payment, Spending.Db.pay, Script.writes, query]
  | purchaseMiniPass seasonId xp price =>
      have hlive : (cat.season seasonId).any (Spending.isMiniPassSeasonLive · later) = true := by
        simpa [Purchase.refused] using h .findSeasonForXp
      obtain ⟨season, hseason, hlive⟩ := (Option.any_eq_true ..).mp hlive
      simp [Purchase.spend, Spending.Spend.commit, Spending.Spend.writes, Spending.applyMiniPassXp,
        hseason, hlive, Purchase.transaction, Spending.Spend.payment, Spending.Db.pay,
        Script.writes, query, decrement]

end Writes

/-! ## Both copies -/

section Copies

variable {cat : Spending.Catalog} {s : State} {u : UserId} {p : Purchase} {later : ℕ}
  {fails : Statement → Bool}

theorem iterate_deltas (w : World) (delta : ℚ) (n : ℕ) :
    copies ((·.applyUserBalanceDelta u delta)^[n] w) u
      = (copies w u).map (Copies.notify (if w.runtimeSet = true then n * delta else 0)) := by
  induction n generalizing w with
  | zero => simp [funext Copies.notify_zero, ite_self]
  | succ n ih =>
      rw [Function.iterate_succ_apply, ih, copies_applyUserBalanceDelta, Option.map_map]
      refine congrArg (Option.map · _) (funext fun c => ?_)
      have hset : (w.applyUserBalanceDelta u delta).runtimeSet = w.runtimeSet := rfl
      rw [Function.comp_apply, Copies.notify_notify, hset]
      refine congrArg (Copies.notify · c) ?_
      by_cases hruntime : w.runtimeSet = true
      · simp only [hruntime, true_and, if_true]
        push_cast
        ring
      · simp [hruntime]

/-- The statements of the script that fail. -/
abbrev failing (cat : Spending.Catalog) (s : State) (u : UserId) (p : Purchase) (later : ℕ)
    (fails : Statement → Bool) (a : Step) : Bool :=
  Script.failing (failures cat s u p later fails) a

theorem takes_price (p : Purchase) : Spending.takes .POL p.spend.payment = p.price := by
  cases p with
  | buyRoom nextRoom price =>
      by_cases hprice : 0 < price <;>
        simp [Purchase.price, Purchase.spend, priceOf, Spending.Spend.payment, Spending.takes,
          hprice]
  | convertPolToBlk | createWithdrawal | purchaseMiniPass => rfl

/-- What the rows refuse is a statement of the transaction. -/
theorem refused_mem {db : Spending.Db} {name : Statement}
    (h : p.refused cat later db name = true) :
    ∃ write, Action.statement name write ∈ p.transaction cat later := by
  cases p with
  | buyRoom nextRoom price =>
      cases name <;> simp [Purchase.refused] at h
      refine ⟨fun db => { db with rooms := nextRoom :: db.rooms }, ?_⟩
      simp [Purchase.transaction]
  | purchaseMiniPass seasonId xp price =>
      cases name <;> simp [Purchase.refused] at h
      exact ⟨id, by simp [Purchase.transaction, query]⟩
  | convertPolToBlk | createWithdrawal => cases h

/-- A commit that is reached takes the price off the column. -/
theorem outcome_balance :
    (outcome cat s u p later fails).db.balance .POL = s.world.polBalance u
      - (if ∀ a ∈ Script.upTo Script.isCommit (p.script cat later),
            failing cat s u p later fails a = false then p.price else 0) := by
  have hread : (s.account u).balance .POL = s.world.polBalance u := by simp [State.account]
  rw [outcome, Purchase.script,
    Script.run_db (failures cat s u p later fails) (transaction_no_commit p)
      (afterCommit_no_commit p)]
  split
  case isTrue hnone =>
    have hrefused : ∀ name, p.refused cat later (s.account u) name = false := by
      intro name
      by_contra htrue
      obtain ⟨write, hmem⟩ := refused_mem (by simpa using htrue)
      have hfine := hnone (.statement name write) (by
        rw [Script.upTo_append (transaction_no_commit p) rfl]
        exact List.mem_append_left _ hmem)
      simp [Script.failing, failures] at hfine
      exact htrue hfine.2
    rw [Spending.commit_balance (writes_transaction hrefused), hread, takes_price]
  case isFalse => rw [hread, sub_zero]

/-- The engine is told of the price when nothing fails up to the call. -/
theorem outcome_effects (h : p.price ≠ 0) :
    (outcome cat s u p later fails).effects
      = if ∀ a ∈ Script.upTo Script.isEffect (p.script cat later),
          failing cat s u p later fails a = false then 1 else 0 :=
  Script.run_effects_of_one _ (script_one_effect h)

theorem perform_polBalance :
    (perform cat s u p later fails).world.polBalance u
      = (outcome cat s u p later fails).db.balance .POL := by
  have hkeep : ∀ (n : ℕ) (w : World),
      ((·.applyUserBalanceDelta u (-p.price))^[n] w).polBalance = w.polBalance := by
    intro n
    induction n with
    | zero => exact fun _ => rfl
    | succ n ih => exact fun w => (ih _).trans rfl
  simp [perform, hkeep]

theorem perform_find {m : Miner} (h : s.world.engine.findMinerByUserId u = some m) :
    ∃ m', (perform cat s u p later fails).world.engine.findMinerByUserId u = some m'
      ∧ m'.balance = m.balance
        + (if s.world.runtimeSet = true
            then (outcome cat s u p later fails).effects * (-p.price) else 0) := by
  have hcopies := iterate_deltas (u := u) { s.world with
    polBalance := Function.update s.world.polBalance u
      ((outcome cat s u p later fails).db.balance .POL) } (-p.price)
      (outcome cat s u p later fails).effects
  have hstart : copies { s.world with
      polBalance := Function.update s.world.polBalance u
        ((outcome cat s u p later fails).db.balance .POL) } u
        = some ⟨(outcome cat s u p later fails).db.balance .POL, m.balance,
            m.lastPersistedBalance⟩ := by
    simp [copies, h]
  rw [hstart, Option.map_some] at hcopies
  obtain ⟨m', hm', hc⟩ := Option.map_eq_some_iff.mp hcopies
  exact ⟨m', hm', congrArg Copies.balance hc⟩

end Copies

/-! ## The accepted requests -/

section Requests

variable (cat : Spending.Catalog)

/-- Both copies of the balance have changed by the price, where the request has
succeeded, and else by nothing. -/
def Together (s : State) (u : UserId) (p : Purchase) (later : ℕ) (fails : Statement → Bool) :
    Prop :=
  let s' := perform cat s u p later fails
  let change := if (outcome cat s u p later fails).ok then -p.price else 0
  s'.world.polBalance u = s.world.polBalance u + change
    ∧ ∀ m ∈ s.world.engine.findMinerByUserId u,
      ∃ m' ∈ s'.world.engine.findMinerByUserId u, m'.balance = m.balance + change

/-- Nothing fails and the runtime has the engine; or something fails up to the
commit and, if the runtime has the engine, before `applyUserBalanceDelta`. A room
may be free. -/
def Keeps (s : State) (u : UserId) (p : Purchase) (later : ℕ) (fails : Statement → Bool) :
    Prop :=
  let acts := p.script cat later
  p.price = 0 ∨
  if ∀ a ∈ acts, failing cat s u p later fails a = false then s.world.runtimeSet = true
  else (∃ a ∈ Script.upTo Script.isCommit acts, failing cat s u p later fails a = true)
    ∧ (s.world.runtimeSet = true →
        ∃ a ∈ Script.upTo Script.isEffect acts, failing cat s u p later fails a = true)

instance (s : State) (u : UserId) (p : Purchase) (later : ℕ) (fails : Statement → Bool) :
    Decidable (Keeps cat s u p later fails) := by
  unfold Keeps
  infer_instance

theorem together_iff {s : State} {u : UserId} {p : Purchase} {later : ℕ}
    {fails : Statement → Bool} {m : Miner} (hm : s.world.engine.findMinerByUserId u = some m) :
    Together cat s u p later fails ↔ Keeps cat s u p later fails := by
  have hfind : ∃ m', (perform cat s u p later fails).world.engine.findMinerByUserId u = some m'
      ∧ m'.balance = m.balance
        + (if s.world.runtimeSet = true
            then (outcome cat s u p later fails).effects * (-p.price) else 0) :=
    perform_find hm
  obtain ⟨m', hm', hbalance⟩ := hfind
  have hok : (outcome cat s u p later fails).ok = true
      ↔ ∀ a ∈ p.script cat later, failing cat s u p later fails a = false :=
    Script.run_ok _
  unfold Together Keeps
  simp only [perform_polBalance, outcome_balance, hm, hm', Option.mem_some_iff, forall_eq',
    exists_eq_left', hbalance, hok]
  by_cases hprice : p.price = 0
  · simp [hprice]
  rw [outcome_effects hprice]
  by_cases hall : ∀ a ∈ p.script cat later, failing cat s u p later fails a = false
  · have hcommit : ∀ a ∈ Script.upTo Script.isCommit (p.script cat later),
        failing cat s u p later fails a = false := fun a ha => hall a (Script.mem_upTo ha)
    have heffect : ∀ a ∈ Script.upTo Script.isEffect (p.script cat later),
        failing cat s u p later fails a = false := fun a ha => hall a (Script.mem_upTo ha)
    rw [if_pos hall, if_pos hcommit, if_pos heffect, if_pos hall]
    cases s.world.runtimeSet <;> simp [hprice, sub_eq_add_neg]
  · have hcommit : (∃ a ∈ Script.upTo Script.isCommit (p.script cat later),
        failing cat s u p later fails a = true)
          ↔ ¬ ∀ a ∈ Script.upTo Script.isCommit (p.script cat later),
            failing cat s u p later fails a = false := by
      simp
    have heffect : (∃ a ∈ Script.upTo Script.isEffect (p.script cat later),
        failing cat s u p later fails a = true)
          ↔ ¬ ∀ a ∈ Script.upTo Script.isEffect (p.script cat later),
            failing cat s u p later fails a = false := by
      simp
    rw [if_neg hall, if_neg hall, hcommit, heffect]
    by_cases hset : s.world.runtimeSet = true
    · rw [if_pos hset]
      split <;> split <;> simp_all
    · rw [if_neg hset]
      split <;> simp_all

/-- A room is bought in both copies or in neither, once the runtime has the engine:
nothing that follows its commit can fail. -/
theorem buyRoom_keeps {s : State} (u : UserId) (nextRoom : ℕ) (price : ℚ) (later : ℕ)
    (fails : Statement → Bool) (hset : s.world.runtimeSet = true) :
    Keeps cat s u (.buyRoom nextRoom price) later fails := by
  by_cases hprice : (Purchase.buyRoom nextRoom price).price = 0
  · exact Or.inl hprice
  refine Or.inr ?_
  have hpos : 0 < price := by
    by_contra hnot
    exact hprice (by
      simp [Purchase.price, Purchase.spend, priceOf, Spending.Spend.payment, hnot])
  split
  case isTrue => exact hset
  case isFalse hsome =>
    push Not at hsome
    obtain ⟨a, ha, hfails⟩ := hsome
    have hupTo : Script.upTo Script.isCommit
        ((Purchase.buyRoom nextRoom price).transaction cat later
          ++ .commit .commit :: (Purchase.buyRoom nextRoom price).afterCommit)
        = (Purchase.buyRoom nextRoom price).transaction cat later ++ [.commit .commit] :=
      Script.upTo_append (transaction_no_commit (.buyRoom nextRoom price)) rfl
    have hcommit : ∃ a ∈ Script.upTo Script.isCommit
        ((Purchase.buyRoom nextRoom price).script cat later),
        failing cat s u (.buyRoom nextRoom price) later fails a = true := by
      refine ⟨a, ?_, by simpa using hfails⟩
      rw [Purchase.script, hupTo]
      rcases List.mem_append.mp ha with hbefore | hafter
      · exact List.mem_append_left _ hbefore
      · rcases List.mem_cons.mp hafter with rfl | hafter
        · simp
        · simp [Purchase.afterCommit, hpos] at hafter
          rcases hafter with rfl | rfl <;> exact absurd rfl hfails
    refine ⟨hcommit, fun _ => ?_⟩
    obtain ⟨b, hb, hfails⟩ := hcommit
    refine ⟨b, ?_, hfails⟩
    rw [Purchase.script, hupTo] at hb
    have heffect : Script.upTo Script.isEffect
        ((Purchase.buyRoom nextRoom price).script cat later)
          = (Purchase.buyRoom nextRoom price).transaction cat later
            ++ [.commit .commit, .effect] := by
      simp [Purchase.script, Purchase.transaction, Purchase.afterCommit, hpos, Script.upTo,
        Script.isEffect, query, decrement]
    rw [heffect]
    simp at hb ⊢
    tauto

/-- `exampleStart` where the runtime does not have the engine. -/
def exampleUnset : State :=
  { exampleStart with world := { exampleStart.world with runtimeSet := false } }

end Requests

end BlockMiner.SpendingScripts
