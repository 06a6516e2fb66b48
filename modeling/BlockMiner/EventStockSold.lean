import BlockMiner.EventStock
import BlockMiner.TransactionRules

/-!
# What event purchases sell

A purchase that has raised the sold count holds the lock of its miner, so the
count is still what it has checked when it commits (`Pending`), and a commit
adds its quantity to the sold count, the purchase rows and the machines
(`Sells`). The number of the user's claims is read before, and nothing holds
it: a claim keeps the limit if and only if its own check would still pass at
its commit.
-/

namespace BlockMiner.EventStock

variable (config : Config)

/-! ## What a purchase has pending -/

/-- The quantity still fits below a limited stock. -/
def Fits (db : Db) (p : Purchase) : Prop :=
  p.miner.stockUnlimited = false → ∀ stockCount ∈ p.miner.stockCount,
    db.soldCount p.order.eventMinerId + p.order.quantity ≤ stockCount

namespace Purchase

variable (p : Purchase)

def Known : Prop := config p.order.eventMinerId = some p.miner

/-- The writes of a purchase that is sold and paid. -/
def paid : List Write :=
  .incrementSold p.order.eventMinerId p.order.quantity
    :: if p.miner.isFree then [] else [.debit p.order.userId p.currency p.totalPrice]

def created : List Write := p.paid ++ [.createPurchases p.row p.order.quantity]

def done : List Write := p.created ++ [.deliver p.delivered p.order.quantity]

end Purchase

/-- The writes a purchase has pending, and what they rely on. -/
def Pending (db : Db) (tx : Tx Write Point) : Prop :=
  match tx.point with
  | .findMiner _ => tx.writes = []
  | .countClaims p | .findUser p | .readSold p _ => p.Known config ∧ tx.writes = []
  | .incrementSold p _ seen => p.Known config ∧ tx.writes = []
      ∧ outOfStock p.miner seen p.order.quantity = false
  | .debitUser p => p.Known config ∧ p.miner.isFree = false
      ∧ tx.writes = [.incrementSold p.order.eventMinerId p.order.quantity] ∧ Fits db p
  | .createPurchases p => p.Known config ∧ tx.writes = p.paid ∧ Fits db p
  | .deliver p => p.Known config ∧ tx.writes = p.created ∧ Fits db p
  | .commit p => p.Known config ∧ tx.writes = p.done ∧ Fits db p

theorem fits_of_outOfStock {db : Db} {p : Purchase}
    (h : outOfStock p.miner (db.soldCount p.order.eventMinerId) p.order.quantity = false) :
    Fits db p := by
  intro hlimited stockCount hstock
  simp only [outOfStock, hlimited, Option.mem_def.mp hstock, Option.getD_some, Bool.not_false,
    Bool.true_and, decide_eq_false_iff_not, not_lt] at h
  omega

/-- What a purchase relies on is about the miner it has locked. -/
theorem Pending.stable {db db' : Db} {tx : Tx Write Point} (h : Pending config db tx)
    (hsame : ∀ m, Lock.miner m ∈ (transactions config).held tx →
      db'.soldCount m = db.soldCount m) : Pending config db' tx := by
  have hfits : ∀ {p : Purchase},
      .incrementSold p.order.eventMinerId p.order.quantity ∈ tx.writes → Fits db p →
        Fits db' p := by
    intro p hmem hfits hlimited stockCount hstock
    rw [hsame p.order.eventMinerId
      ((transactions config).mem_held.mpr ⟨_, hmem, List.mem_singleton_self _⟩)]
    exact hfits hlimited stockCount hstock
  obtain ⟨p, ws⟩ := tx
  cases p with
  | debitUser p =>
      obtain ⟨hknown, hpriced, hws, hold⟩ := h
      exact ⟨hknown, hpriced, hws, hfits (by rw [hws]; simp) hold⟩
  | createPurchases p =>
      obtain ⟨hknown, hws, hold⟩ := h
      exact ⟨hknown, hws, hfits (by rw [hws]; simp [Purchase.paid]) hold⟩
  | deliver p =>
      obtain ⟨hknown, hws, hold⟩ := h
      exact ⟨hknown, hws, hfits (by rw [hws]; simp [Purchase.created, Purchase.paid]) hold⟩
  | commit p =>
      obtain ⟨hknown, hws, hold⟩ := h
      refine ⟨hknown, hws, hfits ?_ hold⟩
      rw [hws]
      simp [Purchase.done, Purchase.created, Purchase.paid]
  | _ => exact h

/-- A step keeps what a purchase has pending. -/
theorem pending_step {db : Db} {tx tx' : Tx Write Point} {a : Answer} {next : Next Db Write Point}
    (h : Pending config db tx)
    (hstep : step config tx.point ((transactions config).view db tx) a = some next)
    (htx' : tx.after next = some tx') : Pending config db tx' := by
  have hmoves := step_moves config hstep
  obtain ⟨p, ws⟩ := tx
  change Moves config ((transactions config).applyAll db ws) _ _ at hmoves
  generalize hv : (transactions config).applyAll db ws = v at hmoves
  cases hmoves with
  | failed | commits => cases htx'
  | foundLimited p hminer | foundFree p hminer | foundPriced p hminer =>
      obtain rfl := Option.some.inj htx'
      exact ⟨hminer, h⟩
  | counted p | covered p =>
      obtain rfl := Option.some.inj htx'
      exact h
  | read p attempt hstock =>
      obtain rfl := Option.some.inj htx'
      obtain ⟨hknown, hws⟩ : p.Known config ∧ ws = [] := h
      exact ⟨hknown, hws, hstock⟩
  | retries p attempt seen =>
      obtain rfl := Option.some.inj htx'
      exact ⟨h.1, h.2.1⟩
  | sold p attempt seen hseen =>
      obtain rfl := Option.some.inj htx'
      obtain ⟨hknown, rfl, hstock⟩ : p.Known config ∧ ws = []
        ∧ outOfStock p.miner seen p.order.quantity = false := h
      subst hv
      have hfits : Fits db p := fits_of_outOfStock (by rw [← hseen] at hstock; exact hstock)
      cases hfree : p.miner.isFree with
      | true => exact ⟨hknown, by simp [Purchase.paid, hfree], hfits⟩
      | false => exact ⟨hknown, hfree, rfl, hfits⟩
  | debited p =>
      obtain rfl := Option.some.inj htx'
      obtain ⟨hknown, hpriced, rfl, hfits⟩ : p.Known config ∧ p.miner.isFree = false
        ∧ ws = [.incrementSold p.order.eventMinerId p.order.quantity] ∧ Fits db p := h
      exact ⟨hknown, by simp [Purchase.paid, hpriced], hfits⟩
  | created p =>
      obtain rfl := Option.some.inj htx'
      obtain ⟨hknown, rfl, hfits⟩ : p.Known config ∧ ws = p.paid ∧ Fits db p := h
      exact ⟨hknown, rfl, hfits⟩
  | delivers p =>
      obtain rfl := Option.some.inj htx'
      obtain ⟨hknown, rfl, hfits⟩ : p.Known config ∧ ws = p.created ∧ Fits db p := h
      exact ⟨hknown, rfl, hfits⟩

theorem soldCount_apply {w : Write} {m : ℕ} (h : Lock.miner m ∉ locks w) (db : Db) :
    (apply db w).soldCount m = db.soldCount m := by
  cases w with
  | incrementSold m' quantity =>
      refine Function.update_of_ne ?_ _ _
      rintro rfl
      exact h (List.mem_singleton_self _)
  | _ => rfl

/-- A step leaves the counts of the miners that its call has not locked. -/
theorem soldCount_dbAfter {tx : Tx Write Point} {db : Db} {a : Answer} {next : Next Db Write Point}
    (hstep : step config tx.point ((transactions config).view db tx) a = some next) {m : ℕ}
    (h : Lock.miner m ∉ (transactions config).held tx) :
    ((transactions config).dbAfter db tx next).soldCount m = db.soldCount m := by
  have hmoves := step_moves config hstep
  obtain ⟨p, ws⟩ := tx
  cases next with
  | goto p | write w p | rollback next => rfl
  | put f next => cases hmoves
  | commit next =>
      clear hstep hmoves
      show ((transactions config).applyAll db ws).soldCount m = db.soldCount m
      change Lock.miner m ∉ ws.flatMap locks at h
      induction ws generalizing db with
      | nil => rfl
      | cons w ws ih =>
          rw [List.flatMap_cons, List.mem_append, not_or] at h
          exact (ih h.2).trans (soldCount_apply h.1 db)

/-! ## Commits -/

/-- A purchase adds its quantity to all three. -/
structure Sells (db db' : Db) (p : Purchase) : Prop where
  known : p.Known config
  fits : Fits db p
  soldCount : db'.soldCount = Function.update db.soldCount p.order.eventMinerId
    (db.soldCount p.order.eventMinerId + p.order.quantity)
  eventPurchases : db'.eventPurchases
    = List.replicate p.order.quantity p.row ++ db.eventPurchases
  machines : db'.machines = List.replicate p.order.quantity p.delivered ++ db.machines

/-- The purchase whose transaction commits with an event. -/
def sells (s : InFlight Db (Tx Write Point)) : Event Order Answer → Option Purchase
  | .start _ => none
  | .resume _ .error => none
  | .resume call (.ok _) => (s.calls.row call).bind fun tx =>
      match tx.point with
      | .commit p => some p
      | _ => none

theorem sells_applyAll {db : Db} {p : Purchase} (hknown : p.Known config) (hfits : Fits db p) :
    Sells config db ((transactions config).applyAll db p.done) p := by
  cases hfree : p.miner.isFree with
  | true =>
      have hdone : p.done = [.incrementSold p.order.eventMinerId p.order.quantity,
          .createPurchases p.row p.order.quantity, .deliver p.delivered p.order.quantity] := by
        simp [Purchase.done, Purchase.created, Purchase.paid, hfree]
      rw [hdone]
      exact ⟨hknown, hfits, rfl, rfl, rfl⟩
  | false =>
      have hdone : p.done = [.incrementSold p.order.eventMinerId p.order.quantity,
          .debit p.order.userId p.currency p.totalPrice,
          .createPurchases p.row p.order.quantity, .deliver p.delivered p.order.quantity] := by
        simp [Purchase.done, Purchase.created, Purchase.paid, hfree]
      rw [hdone]
      exact ⟨hknown, hfits, rfl, rfl, rfl⟩

/-- No stock is oversold. -/
def InStock (db : Db) : Prop :=
  ∀ m miner, config m = some miner → miner.stockUnlimited = false →
    ∀ stockCount ∈ miner.stockCount, db.soldCount m ≤ stockCount

theorem InStock.sells {db db' : Db} {p : Purchase} (h : InStock config db)
    (hsells : Sells config db db' p) : InStock config db' := by
  intro m miner hminer hlimited stockCount hstock
  rw [hsells.soldCount, Function.update_apply]
  split
  case isTrue hm =>
    subst hm
    obtain rfl := Option.some.inj (hsells.known.symm.trans hminer)
    exact hsells.fits hlimited stockCount hstock
  case isFalse => exact h m miner hminer hlimited stockCount hstock

def Stocked (s : InFlight Db (Tx Write Point)) : Prop :=
  (transactions config).Holds (InStock config) (Pending config) s

theorem sells_eq_some {s : InFlight Db (Tx Write Point)} {e : Event Order Answer} {p : Purchase}
    (h : sells s e = some p) : ∃ call now tx, e = .resume call (.ok now)
      ∧ s.calls.row call = some tx ∧ tx.point = .commit p := by
  cases e with
  | start r => cases h
  | resume call a =>
      cases a with
      | error => cases h
      | ok now =>
          obtain ⟨tx, htx, h⟩ := Option.bind_eq_some_iff.mp h
          refine ⟨call, now, tx, rfl, htx, ?_⟩
          split at h
          case h_1 hp => rw [hp, Option.some.inj h]
          case h_2 => cases h

/-- A step sells what its purchase is for, or changes nothing. -/
theorem step_sells {s s' : InFlight Db (Tx Write Point)} {e : Event Order Answer}
    (hs : Stocked config s) (h : (transactions config).stepTx s e = some s') :
    (sells s e = none ∧ s'.db = s.db) ∨ ∃ p, sells s e = some p ∧ Sells config s.db s'.db p := by
  cases hsells : sells s e with
  | some p =>
      obtain ⟨call, now, tx, rfl, hrow, hp⟩ := sells_eq_some hsells
      obtain ⟨tx', next, hrow', -, hstep, rfl⟩ := (transactions config).step_resume h
      obtain rfl := Option.some.inj (hrow.symm.trans hrow')
      obtain rfl : Next.commit none = next := by
        rw [hp] at hstep
        exact Option.some.inj hstep
      have hpending := hs.calls call tx hrow
      obtain ⟨q, ws⟩ := tx
      obtain rfl : q = .commit p := hp
      obtain ⟨hknown, rfl, hfits⟩ : p.Known config ∧ ws = p.done ∧ Fits s.db p := hpending
      exact .inr ⟨p, rfl, sells_applyAll config hknown hfits⟩
  | none =>
      refine .inl ⟨rfl, ?_⟩
      cases e with
      | start r => exact ((transactions config).step_start h).1
      | resume call a =>
          obtain ⟨tx, next, hrow, -, hstep, rfl⟩ := (transactions config).step_resume h
          cases next with
          | goto p | write w p | rollback next => rfl
          | put f next =>
              have hmoves := step_moves config hstep
              obtain ⟨p, ws⟩ := tx
              cases hmoves
          | commit next =>
              have hmoves := step_moves config hstep
              obtain ⟨p, ws⟩ := tx
              cases hmoves with
              | commits p =>
                  cases a with
                  | error => cases hstep
                  | ok now =>
                      rw [sells, hrow] at hsells
                      cases hsells

/-! ## Runs -/

theorem stocked_step {s s' : InFlight Db (Tx Write Point)} {e : Event Order Answer}
    (hs : Stocked config s) (h : (transactions config).stepTx s e = some s') :
    Stocked config s' := by
  have hpending : (transactions config).Holds (fun _ => True) (Pending config) s' := by
    refine (transactions config).kept_step ?_ ?_ ?_ ⟨trivial, hs.calls, hs.locks⟩ h
    · intro db r p _ hr
      obtain rfl := Option.some.inj hr
      rfl
    · intro db tx a next _ htx hstep
      refine ⟨trivial, fun tx' htx' => ?_⟩
      have hpending := pending_step config htx hstep htx'
      cases next with
      | goto p | write w p | rollback next => exact hpending
      | put f next =>
          have hmoves := step_moves config hstep
          obtain ⟨p, ws⟩ := tx
          cases hmoves
      | commit next =>
          refine hpending.stable config fun m hm => ?_
          obtain ⟨p, -, rfl⟩ := Option.map_eq_some_iff.mp htx'
          cases hm
    · intro db tx a next tx' _ _ hstep htx' hlocks
      refine htx'.stable config fun m hm => ?_
      exact soldCount_dbAfter config hstep fun hheld => hlocks _ (.inl hheld) hm
  refine ⟨?_, hpending.calls, hpending.locks⟩
  rcases step_sells config hs h with ⟨-, hdb⟩ | ⟨p, -, hsells⟩
  · exact hdb ▸ hs.db
  · exact hs.db.sells config hsells

/-- What a run sells of a miner: the quantities of the purchases that commit. -/
def sold (m : ℕ) (s : InFlight Db (Tx Write Point)) (es : List (Event Order Answer)) : ℕ :=
  (transactions config).sys.total (fun s e => (sells s e).elim 0 fun p =>
    if p.order.eventMinerId = m then p.order.quantity else 0) s es

/-- A count that grows by what is sold of a miner has grown by that in a run. -/
theorem sold_run (m : ℕ) (count : Db → ℕ)
    (hcount : ∀ db db' p, Sells config db db' p →
      count db' = count db + if p.order.eventMinerId = m then p.order.quantity else 0)
    {s t : InFlight Db (Tx Write Point)} {es : List (Event Order Answer)}
    (hs : Stocked config s) (hrun : (transactions config).sys.run s es = some t) :
    count t.db = count s.db + sold config m s es := by
  refine (transactions config).sys.run_potential (C := fun _ _ => True)
    (φ := fun s => count s.db) ?_ hs (System.meets_of_forall _ (fun _ _ => trivial) _ _) hrun
  intro s e s' hs _ h
  refine ⟨stocked_step config hs h, ?_⟩
  rcases step_sells config hs h with ⟨hnone, hdb⟩ | ⟨p, hp, hsells⟩
  · rw [hnone, hdb]
    rfl
  · rw [hp, hcount _ _ p hsells]
    rfl

theorem countP_replicate_append {α : Type} (f : α → Bool) (n : ℕ) (a : α) (l : List α) :
    (List.replicate n a ++ l).countP f = l.countP f + if f a then n else 0 := by
  rw [List.countP_append, List.countP_replicate, add_comm]

/-! ## Claim limits -/

/-- No user has claimed more of a free miner than its limit. -/
def WithinLimits (db : Db) : Prop :=
  ∀ m miner, config m = some miner → miner.isFree = true → 0 < miner.claimLimitPerUser →
    ∀ u, db.claims u m ≤ miner.claimLimitPerUser

/-- The step keeps the limits. -/
def LimitsKept (s : InFlight Db (Tx Write Point)) (e : Event Order Answer) : Prop :=
  ∀ s' ∈ (transactions config).stepTx s e, WithinLimits config s'.db

/-- A claim that commits would still pass its check. -/
def ClaimFits (s : InFlight Db (Tx Write Point)) (e : Event Order Answer) : Prop :=
  ∀ p ∈ sells s e, p.miner.isFree = true → 0 < p.miner.claimLimitPerUser →
    s.db.claims p.order.userId p.order.eventMinerId + p.order.quantity
      ≤ p.miner.claimLimitPerUser

theorem claims_sells {db db' : Db} {p : Purchase} (h : Sells config db db' p) (u m : ℕ) :
    db'.claims u m = db.claims u m
      + if p.order.userId = u ∧ p.order.eventMinerId = m then p.order.quantity else 0 := by
  simp only [Db.claims, h.eventPurchases, countP_replicate_append, Purchase.row,
    decide_eq_true_eq]

theorem stepTx_sells {s : InFlight Db (Tx Write Point)} {e : Event Order Answer} {p : Purchase}
    (h : sells s e = some p) : ∃ s', (transactions config).stepTx s e = some s' := by
  obtain ⟨call, now, tx, rfl, hrow, hp⟩ := sells_eq_some h
  obtain ⟨q, ws⟩ := tx
  obtain rfl : q = .commit p := hp
  exact ⟨_, (transactions config).stepTx_resume hrow
    ((transactions config).free_nil s.calls call) rfl⟩

/-- A claim keeps the limits if and only if it still fits when it commits. -/
theorem limitsKept_iff {s : InFlight Db (Tx Write Point)} (hs : Stocked config s)
    (hlimits : WithinLimits config s.db) (e : Event Order Answer) :
    LimitsKept config s e ↔ ClaimFits s e := by
  constructor
  · intro hkept p hp hfree hlimit
    obtain ⟨s', h⟩ := stepTx_sells config hp
    rcases step_sells config hs h with ⟨hnone, -⟩ | ⟨p', hp', hsells⟩
    · rw [hnone] at hp
      cases hp
    · obtain rfl := Option.some.inj (hp.symm.trans hp')
      have hle := hkept s' h p.order.eventMinerId p.miner hsells.known hfree hlimit p.order.userId
      rw [claims_sells config hsells, if_pos ⟨rfl, rfl⟩] at hle
      exact hle
  · intro hfits s' h m miner hminer hfree hlimit u
    rcases step_sells config hs h with ⟨-, hdb⟩ | ⟨p, hp, hsells⟩
    · rw [hdb]
      exact hlimits m miner hminer hfree hlimit u
    · rw [claims_sells config hsells]
      split
      case isTrue hmine =>
        obtain ⟨rfl, rfl⟩ := hmine
        obtain rfl := Option.some.inj (hsells.known.symm.trans hminer)
        exact hfits p hp hfree hlimit
      case isFalse => exact hlimits m miner hminer hfree hlimit u

/-! ## Stock and limits -/

/-- The purchase rows for a miner. -/
def Db.bought (db : Db) (m : ℕ) : ℕ := db.eventPurchases.countP fun row => row.eventMinerId = m

/-- The machines delivered for a miner. -/
def Db.delivered (db : Db) (m : ℕ) : ℕ := db.machines.countP fun d => d.eventMinerId = m

/-- **Event stock.** In every run the sold count, the purchase rows and the
machines of a miner have each grown by the quantities of the purchases that
committed, and no limited stock is oversold; and the run keeps the claim limits
if and only if every claim still fits when it commits. -/
theorem stock_and_limits {db : Db} (hstock : InStock config db) (hlimits : WithinLimits config db)
    (es : List (Event Order Answer)) :
    (∀ t, (transactions config).sys.run (Transactions.idle db) es = some t →
      InStock config t.db ∧ ∀ m,
        t.db.soldCount m = db.soldCount m + sold config m (Transactions.idle db) es
        ∧ t.db.bought m = db.bought m + sold config m (Transactions.idle db) es
        ∧ t.db.delivered m = db.delivered m + sold config m (Transactions.idle db) es)
    ∧ ((transactions config).sys.Meets (LimitsKept config) (Transactions.idle db) es
      ↔ (transactions config).sys.Meets ClaimFits (Transactions.idle db) es) := by
  have hidle : Stocked config (Transactions.idle db) := (transactions config).holds_idle hstock
  refine ⟨fun t hrun => ⟨?_, fun m => ⟨?_, ?_, ?_⟩⟩, ?_⟩
  · exact ((transactions config).sys.run_kept (fun _ _ _ hs h => stocked_step config hs h)
      hidle hrun).db
  · refine sold_run config m (fun db => db.soldCount m) (fun db db' p h => ?_) hidle hrun
    simp only [h.soldCount, Function.update_apply, eq_comm (a := m)]
    split
    case isTrue hm => rw [hm]
    case isFalse => rfl
  · refine sold_run config m (fun db => db.bought m) (fun db db' p h => ?_) hidle hrun
    simp only [Db.bought, h.eventPurchases, countP_replicate_append, Purchase.row,
      decide_eq_true_eq]
  · refine sold_run config m (fun db => db.delivered m) (fun db db' p h => ?_) hidle hrun
    simp only [Db.delivered, h.machines, countP_replicate_append, Purchase.delivered,
      decide_eq_true_eq]
  · refine (transactions config).sys.meets_iff_of_kept
      (I := fun s => Stocked config s ∧ WithinLimits config s.db) ?_ ?_ ⟨hidle, hlimits⟩
    · exact fun s e s' hs hkept h => ⟨stocked_step config hs.1 h, hkept s' h⟩
    · exact fun s e hs => limitsKept_iff config hs.1 hs.2 e

/-! ## Two claims at once -/

/-- Miner 1 is free, one for each user and two in stock. -/
def freeMiner : Config := fun m =>
  if m = 1 then
    some
      { event := { startsAt := 0, endsAt := 100, isActive := true, deleted := false }
        price := 0, currency := none, stockUnlimited := false, stockCount := some 2
        isActive := true, isFree := true, claimLimitPerUser := 1
        eventId := 1, name := "Gift", imageUrl := none, hashRate := 3, slotSize := 1 }
  else none

def nothingSold : Db where
  balances _ := some fun _ => 0
  soldCount _ := 0
  eventPurchases := []
  machines := []

theorem nothingSold_inStock (config : Config) : InStock config nothingSold :=
  fun _ _ _ _ _ _ => Nat.zero_le _

theorem nothingSold_withinLimits (config : Config) : WithinLimits config nothingSold :=
  fun _ _ _ _ _ _ => Nat.zero_le _

instance (s : InFlight Db (Tx Write Point)) (e : Event Order Answer) : Decidable (ClaimFits s e) :=
  inferInstanceAs (Decidable (∀ p ∈ sells s e, _))

/-- User 1 and user 2 claim at once; the second has to try again. -/
def claimedByTwo : List (Event Order Answer) :=
  .start ⟨1, 1, 1⟩ :: .start ⟨2, 1, 1⟩
    :: List.replicate 3 (.resume 1 (.ok 5)) ++ List.replicate 3 (.resume 2 (.ok 5))
    ++ List.replicate 4 (.resume 1 (.ok 6)) ++ List.replicate 6 (.resume 2 (.ok 6))

theorem stock_and_limits_two :
    ∃ t, (transactions freeMiner).sys.run (Transactions.idle nothingSold) claimedByTwo = some t
      ∧ t.db.soldCount 1 = 2 ∧ InStock freeMiner t.db
      ∧ (transactions freeMiner).sys.Meets (LimitsKept freeMiner) (Transactions.idle nothingSold)
        claimedByTwo := by
  have hrun : ∃ t ∈ (transactions freeMiner).sys.run (Transactions.idle nothingSold) claimedByTwo,
      t.db.soldCount 1 = 2 := by
    decide +kernel
  obtain ⟨t, hrun, hsold⟩ := hrun
  obtain ⟨hall, hiff⟩ := stock_and_limits freeMiner (nothingSold_inStock freeMiner)
    (nothingSold_withinLimits freeMiner) claimedByTwo
  exact ⟨t, hrun, hsold, (hall t hrun).1, hiff.mpr (by decide +kernel)⟩

/-- User 1 claims twice at once, and both claims are counted before either commits. -/
def claimedTwice : List (Event Order Answer) :=
  .start ⟨1, 1, 1⟩ :: .start ⟨1, 1, 1⟩
    :: List.replicate 3 (.resume 1 (.ok 5)) ++ List.replicate 3 (.resume 2 (.ok 5))
    ++ List.replicate 4 (.resume 1 (.ok 6)) ++ List.replicate 6 (.resume 2 (.ok 6))

theorem claimed_twice :
    ¬∀ es t, (transactions freeMiner).sys.run (Transactions.idle nothingSold) es = some t →
      WithinLimits freeMiner t.db := by
  intro h
  have hrun : ∃ t ∈ (transactions freeMiner).sys.run (Transactions.idle nothingSold) claimedTwice,
      t.db.claims 1 1 = 2 := by
    decide +kernel
  obtain ⟨t, hrun, hclaims⟩ := hrun
  have hle := h claimedTwice t hrun 1 _ rfl rfl Nat.one_pos 1
  rw [hclaims] at hle
  exact absurd hle (by decide)

end BlockMiner.EventStock
