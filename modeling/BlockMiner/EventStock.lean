import BlockMiner.LevelRewards
import BlockMiner.Spending
import BlockMiner.Transactions

/-!
# Event purchases, statement by statement

`services/offerEventPurchaseService.js`: `purchaseEventMinerForUser`, with the
statements of its transaction as steps. The sold count is raised by an update
that only finds the row while it has the count that was read, and is tried ten
times; the claims of a user are counted once, before it.

The rows of the event miners are fixed, but for the sold count. The purchase
rows of a transaction are one statement; its machines are written one after
the other with nothing read in between, and are one write here. Amounts are
exact. The notification and the balances in the answer are left out.

`eventMinerId` of a delivered machine is not a column: it records what the
machine was delivered for.
-/

namespace BlockMiner.EventStock

open LevelRewards (Machine orDefault)
open Spending (Currency normalizeOfferCurrency isOfferEventLiveAt hasEventMinerStock)

/-! ## Tables -/

structure EventMiner extends Spending.EventMiner where
  eventId : ℕ
  name : String
  imageUrl : Option String
  hashRate : ℚ
  slotSize : ℤ

/-- The event miners, by id. -/
abbrev Config := ℕ → Option EventMiner

structure EventPurchase where
  userId : ℕ
  eventId : ℕ
  eventMinerId : ℕ
  pricePaid : ℚ
  currency : Currency
deriving DecidableEq

structure Delivered where
  userId : ℕ
  eventMinerId : ℕ
  machine : Machine
deriving DecidableEq

structure Db where
  balances : ℕ → Option (Currency → ℚ)
  soldCount : ℕ → ℕ
  eventPurchases : List EventPurchase
  machines : List Delivered

/-- The purchase rows of a user for a miner. -/
def Db.claims (db : Db) (userId eventMinerId : ℕ) : ℕ :=
  db.eventPurchases.countP fun row => row.userId = userId ∧ row.eventMinerId = eventMinerId

/-! ## Purchases -/

/-- A request, `purchaseEventMinerForUser(userId, eventMinerId, quantity)`. -/
structure Order where
  userId : ℕ
  eventMinerId : ℕ
  quantity : ℕ

/-- An order with the miner it has found, and when. -/
structure Purchase where
  order : Order
  miner : EventMiner
  now : ℕ

namespace Purchase

variable (p : Purchase)

def currency : Currency := normalizeOfferCurrency p.miner.currency

def totalPrice : ℚ := p.miner.price * p.order.quantity

def row : EventPurchase where
  userId := p.order.userId
  eventId := p.miner.eventId
  eventMinerId := p.order.eventMinerId
  pricePaid := if p.miner.isFree then 0 else p.miner.price
  currency := p.currency

def slotSize : ℕ := if p.miner.slotSize = 2 then 2 else 1

def delivered : Delivered where
  userId := p.order.userId
  eventMinerId := p.order.eventMinerId
  machine :=
    { minerId := none
      minerName := "[Event] " ++ p.miner.name
      level := 1
      hashRate := p.miner.hashRate
      slotSize := p.slotSize
      imageUrl := orDefault "" "/machines/reward1.png" p.miner.imageUrl
      acquiredAt := p.now }

end Purchase

inductive Answer where
  | ok (now : ℕ)
  | error
deriving DecidableEq

/-! ## Writes -/

inductive Write where
  | incrementSold (eventMinerId quantity : ℕ)
  | debit (userId : ℕ) (currency : Currency) (amount : ℚ)
  | createPurchases (row : EventPurchase) (quantity : ℕ)
  | deliver (delivered : Delivered) (quantity : ℕ)

inductive Lock where
  | miner (eventMinerId : ℕ)
  | user (userId : ℕ)
deriving DecidableEq

def apply (db : Db) : Write → Db
  | .incrementSold m quantity =>
      { db with soldCount := Function.update db.soldCount m (db.soldCount m + quantity) }
  | .debit u currency amount =>
      { db with
        balances := Function.update db.balances u ((db.balances u).map fun balance =>
          Function.update balance currency (balance currency - amount)) }
  | .createPurchases row quantity =>
      { db with eventPurchases := List.replicate quantity row ++ db.eventPurchases }
  | .deliver delivered quantity =>
      { db with machines := List.replicate quantity delivered ++ db.machines }

def locks : Write → List Lock
  | .incrementSold m _ => [.miner m]
  | .debit u _ _ => [.user u]
  | .createPurchases _ _ | .deliver _ _ => []

/-! ## Points -/

inductive Point where
  | findMiner (order : Order)
  | countClaims (p : Purchase)
  | findUser (p : Purchase)
  /-- `incrementSoldCountOptimistic`, in its attempt. -/
  | readSold (p : Purchase) (attempt : ℕ)
  | incrementSold (p : Purchase) (attempt seen : ℕ)
  | debitUser (p : Purchase)
  | createPurchases (p : Purchase)
  | deliver (p : Purchase)
  | commit (p : Purchase)

def start (order : Order) : Option Point := some (.findMiner order)

variable (config : Config)

def needs : Point → Answer → List Lock
  | .incrementSold p _ _, .ok _ => [.miner p.order.eventMinerId]
  | .debitUser p, .ok _ => [.user p.order.userId]
  | _, _ => []

/-- What is left of a limited stock is not enough. -/
def outOfStock (miner : EventMiner) (soldCount quantity : ℕ) : Bool :=
  !miner.stockUnlimited && (miner.stockCount.getD 0 : ℤ) - soldCount < quantity

/-- The checks on the miner that was found. -/
def available (miner : EventMiner) (soldCount now : ℕ) : Bool :=
  !miner.event.deleted && isOfferEventLiveAt now miner.event && miner.isActive
    && hasEventMinerStock miner.toEventMiner soldCount

/-- Any statement can fail, and the transaction is rolled back. -/
def step : Point → Db → Answer → Option (Next Db Write Point)
  | _, _, .error => some (.rollback none)
  | .findMiner order, db, .ok now =>
      match config order.eventMinerId with
      | none => some (.rollback none)
      | some miner =>
          if !available miner (db.soldCount order.eventMinerId) now then some (.rollback none)
          else if miner.isFree then
            if 0 < miner.claimLimitPerUser then some (.goto (.countClaims ⟨order, miner, now⟩))
            else some (.goto (.readSold ⟨order, miner, now⟩ 0))
          else if miner.price ≤ 0 then some (.rollback none)
          else some (.goto (.findUser ⟨order, miner, now⟩))
  | .countClaims p, db, .ok _ =>
      if p.miner.claimLimitPerUser
          < db.claims p.order.userId p.order.eventMinerId + p.order.quantity
      then some (.rollback none)
      else some (.goto (.readSold p 0))
  | .findUser p, db, .ok _ =>
      match db.balances p.order.userId with
      | none => some (.rollback none)
      | some balance =>
          if balance p.currency < p.totalPrice then some (.rollback none)
          else some (.goto (.readSold p 0))
  | .readSold p attempt, db, .ok _ =>
      if outOfStock p.miner (db.soldCount p.order.eventMinerId) p.order.quantity then
        some (.rollback none)
      else some (.goto (.incrementSold p attempt (db.soldCount p.order.eventMinerId)))
  | .incrementSold p attempt seen, db, .ok _ =>
      if db.soldCount p.order.eventMinerId = seen then
        some (.write (.incrementSold p.order.eventMinerId p.order.quantity)
          (if p.miner.isFree then .createPurchases p else .debitUser p))
      else if attempt + 1 < 10 then some (.goto (.readSold p (attempt + 1)))
      else some (.rollback none)
  | .debitUser p, _, .ok _ =>
      some (.write (.debit p.order.userId p.currency p.totalPrice) (.createPurchases p))
  | .createPurchases p, _, .ok _ =>
      some (.write (.createPurchases p.row p.order.quantity) (.deliver p))
  | .deliver p, _, .ok _ => some (.write (.deliver p.delivered p.order.quantity) (.commit p))
  | .commit _, _, .ok _ => some (.commit none)

/-! ## Inversion -/

/-- What the statement at a point can do, for the database it sees. -/
inductive Moves (v : Db) : Point → Next Db Write Point → Prop
  | failed (p : Point) : Moves v p (.rollback none)
  | foundLimited (p : Purchase) (hminer : config p.order.eventMinerId = some p.miner) :
      Moves v (.findMiner p.order) (.goto (.countClaims p))
  | foundFree (p : Purchase) (hminer : config p.order.eventMinerId = some p.miner) :
      Moves v (.findMiner p.order) (.goto (.readSold p 0))
  | foundPriced (p : Purchase) (hminer : config p.order.eventMinerId = some p.miner) :
      Moves v (.findMiner p.order) (.goto (.findUser p))
  | counted (p : Purchase) : Moves v (.countClaims p) (.goto (.readSold p 0))
  | covered (p : Purchase) : Moves v (.findUser p) (.goto (.readSold p 0))
  | read (p : Purchase) (attempt : ℕ)
      (hstock : outOfStock p.miner (v.soldCount p.order.eventMinerId) p.order.quantity = false) :
      Moves v (.readSold p attempt)
        (.goto (.incrementSold p attempt (v.soldCount p.order.eventMinerId)))
  | sold (p : Purchase) (attempt seen : ℕ) (hseen : v.soldCount p.order.eventMinerId = seen) :
      Moves v (.incrementSold p attempt seen)
        (.write (.incrementSold p.order.eventMinerId p.order.quantity)
          (if p.miner.isFree then .createPurchases p else .debitUser p))
  | retries (p : Purchase) (attempt seen : ℕ) :
      Moves v (.incrementSold p attempt seen) (.goto (.readSold p (attempt + 1)))
  | debited (p : Purchase) :
      Moves v (.debitUser p)
        (.write (.debit p.order.userId p.currency p.totalPrice) (.createPurchases p))
  | created (p : Purchase) :
      Moves v (.createPurchases p) (.write (.createPurchases p.row p.order.quantity) (.deliver p))
  | delivers (p : Purchase) :
      Moves v (.deliver p) (.write (.deliver p.delivered p.order.quantity) (.commit p))
  | commits (p : Purchase) : Moves v (.commit p) (.commit none)

/-- **Inversion.** -/
theorem step_moves {p : Point} {v : Db} {a : Answer} {next : Next Db Write Point}
    (h : step config p v a = some next) : Moves config v p next := by
  cases a with
  | error =>
      obtain rfl : Next.rollback none = next := by
        cases p <;> exact Option.some.inj h
      exact .failed p
  | ok now =>
      cases p with
      | findMiner order =>
          simp only [step] at h
          split at h
          case h_1 =>
            obtain rfl := Option.some.inj h
            exact .failed _
          case h_2 miner hminer =>
            split at h
            · obtain rfl := Option.some.inj h
              exact .failed _
            · split at h
              · split at h <;> obtain rfl := Option.some.inj h
                · exact .foundLimited ⟨order, miner, now⟩ hminer
                · exact .foundFree ⟨order, miner, now⟩ hminer
              · split at h <;> obtain rfl := Option.some.inj h
                · exact .failed _
                · exact .foundPriced ⟨order, miner, now⟩ hminer
      | countClaims p =>
          simp only [step] at h
          split at h <;> obtain rfl := Option.some.inj h
          · exact .failed _
          · exact .counted p
      | findUser p =>
          simp only [step] at h
          split at h
          · obtain rfl := Option.some.inj h
            exact .failed _
          · split at h <;> obtain rfl := Option.some.inj h
            · exact .failed _
            · exact .covered p
      | readSold p attempt =>
          simp only [step] at h
          split at h <;> obtain rfl := Option.some.inj h
          case isTrue => exact .failed _
          case isFalse hstock => exact .read p attempt (Bool.eq_false_iff.mpr hstock)
      | incrementSold p attempt seen =>
          simp only [step] at h
          split at h
          case isTrue hseen =>
            obtain rfl := Option.some.inj h
            exact .sold p attempt seen hseen
          case isFalse =>
            split at h <;> obtain rfl := Option.some.inj h
            · exact .retries p attempt seen
            · exact .failed _
      | debitUser p =>
          obtain rfl := Option.some.inj h
          exact .debited p
      | createPurchases p =>
          obtain rfl := Option.some.inj h
          exact .created p
      | deliver p =>
          obtain rfl := Option.some.inj h
          exact .delivers p
      | commit p =>
          obtain rfl := Option.some.inj h
          exact .commits p

/-- A write takes the locks its statement waits for. -/
theorem covers {p p' : Point} {db : Db} {a : Answer} {w : Write}
    (h : step config p db a = some (.write w p')) : ∀ k ∈ locks w, k ∈ needs p a := by
  intro k hk
  cases a with
  | error => cases p <;> cases h
  | ok now =>
      generalize hnext : Next.write w p' = next at h
      cases step_moves config h with
      | sold | debited =>
          obtain ⟨rfl, -⟩ := Next.write.inj hnext
          exact hk
      | created | delivers =>
          obtain ⟨rfl, -⟩ := Next.write.inj hnext
          cases hk
      | _ => cases hnext

def transactions : Transactions Db Write Lock Order Point Answer where
  apply := apply
  locks := locks
  start := start
  needs := needs
  step := step config
  covers := covers config

end BlockMiner.EventStock
