import BlockMiner.MiniPassLedger

/-!
# What a purchase adds

A purchase reads the experience, prices what is missing to the cap, and adds
it when it commits. Nothing it locks keeps the experience where it was, so at
the commit there may be more of it. `priced_fits` says exactly when the sale
still fits: the experience is what was read, or the levels that were asked for
fit below the cap all the same. `Buying` is what carries a sale from the
reading to the commit.
-/

namespace BlockMiner.MiniPass

variable (config : Config)

/-! ## The arithmetic of a sale -/

def Season.cap (season : Season) : ℕ := xpCapForSeason season.levels season.step

def Season.level (season : Season) (totalXp : ℕ) : ℕ :=
  computePassLevel totalXp season.step season.levels

theorem Season.step_pos (season : Season) : 0 < season.step := by
  unfold Season.step
  omega

theorem Season.level_eq (season : Season) (totalXp : ℕ) :
    season.level totalXp = min season.levels (1 + totalXp / season.step) := by
  have hlevels : 1 ≤ season.levels := by unfold Season.levels; omega
  have hstep : 1 ≤ season.step := season.step_pos
  rw [Season.level, computePassLevel, max_eq_right hlevels, max_eq_right hstep,
    max_eq_right (Nat.le_add_right ..)]

theorem Season.cap_eq (season : Season) : season.cap = (season.levels - 1) * season.step := by
  have hlevels : 1 ≤ season.levels := by unfold Season.levels; omega
  rw [Season.cap, xpCapForSeason, max_eq_right hlevels, max_eq_right season.step_pos]

/-- Below the cap a level is gained with every step of experience, and with
the rest up to the cap. -/
theorem Season.level_lt {season : Season} {x g : ℕ} (hx : x < season.cap)
    (hg : season.step ≤ g ∨ x + g = season.cap) :
    season.level x < season.level (x + g) := by
  have hpos := season.step_pos
  have hbelow : x / season.step < season.levels - 1 := by
    rw [Nat.div_lt_iff_lt_mul hpos, ← Season.cap_eq]
    exact hx
  have hmore : x / season.step < (x + g) / season.step := by
    rcases hg with hg | hg
    · have h := Nat.div_le_div_right (c := season.step) (Nat.add_le_add_left hg x)
      rw [Nat.add_div_right _ hpos] at h
      omega
    · rw [hg, Season.cap_eq, Nat.mul_div_cancel _ hpos]
      exact hbelow
  rw [Season.level_eq, Season.level_eq]
  generalize x / season.step = a at hbelow hmore ⊢
  omega

theorem quantityOf_pos (quantity : JsNumber) : 0 < quantityOf quantity := by
  cases quantity with
  | finite q =>
      simp only [quantityOf]
      split <;> omega
  | infinite negative =>
      simp only [quantityOf]
      split <;> omega
  | nan => exact Nat.one_pos

/-- A sale that its order was priced at, with something missing to the cap. -/
structure Sale.Priced (sale : Sale) : Prop where
  userId : sale.order.userId ≠ 0
  seasonId : sale.order.seasonId ≠ 0
  priced : sale = sale.order.priced sale.season sale.currentXp
  missing : sale.currentXp < sale.season.cap

/-- The experience is what the purchase read, or the levels asked for fit. -/
def Sale.Fits (sale : Sale) (totalXp : ℕ) : Prop :=
  totalXp = sale.currentXp ∨ ∃ quantity ∈ sale.order.quantity,
    totalXp + quantityOf quantity * sale.season.step ≤ sale.season.cap

instance (sale : Sale) (totalXp : ℕ) : Decidable (sale.Fits totalXp) :=
  inferInstanceAs (Decidable (_ = _ ∨ ∃ quantity ∈ sale.order.quantity, _ ≤ _))

theorem xpAdded_eq {sale : Sale} (h : sale.Priced) :
    (∃ quantity, sale.order.quantity = some quantity ∧
      sale.xpAdded = min (quantityOf quantity * sale.season.step)
        (sale.season.cap - sale.currentXp))
    ∨ sale.order.quantity = none ∧ sale.xpAdded = sale.season.cap - sale.currentXp := by
  have hpriced := congrArg Sale.xpAdded h.priced
  cases hq : sale.order.quantity with
  | none =>
      refine .inr ⟨rfl, hpriced.trans ?_⟩
      simp only [Order.priced, hq]
      rfl
  | some quantity =>
      refine .inl ⟨quantity, rfl, hpriced.trans ?_⟩
      simp only [Order.priced, hq]
      rfl

/-- Added to at least the experience it was priced at, a sale stays below the
cap and gains a level if and only if it fits. -/
theorem priced_fits {sale : Sale} (h : sale.Priced) {x : ℕ} (hx : sale.currentXp ≤ x) :
    (x + sale.xpAdded ≤ sale.season.cap
      ∧ sale.season.level x < sale.season.level (x + sale.xpAdded)) ↔ sale.Fits x := by
  have hmissing := h.missing
  rcases xpAdded_eq h with ⟨quantity, hq, hadded⟩ | ⟨hq, hadded⟩
  · have hstep : sale.season.step ≤ quantityOf quantity * sale.season.step :=
      Nat.le_mul_of_pos_left _ (quantityOf_pos quantity)
    have hpos := sale.season.step_pos
    unfold Sale.Fits
    simp only [hq, Option.mem_some_iff, exists_eq_left']
    constructor
    · rintro ⟨hcap, -⟩
      omega
    · intro hfits
      have hcap : x + sale.xpAdded ≤ sale.season.cap := by omega
      exact ⟨hcap, Season.level_lt (by omega) (by omega)⟩
  · unfold Sale.Fits
    simp only [hq, Option.not_mem_none, false_and, exists_false, or_false]
    constructor
    · rintro ⟨hcap, -⟩
      omega
    · rintro rfl
      have hcap : sale.currentXp + sale.xpAdded = sale.season.cap := by omega
      exact ⟨hcap.le, Season.level_lt hmissing (.inr hcap)⟩

theorem xpAdded_pos {sale : Sale} (h : sale.Priced) : 0 < sale.xpAdded := by
  have hmissing := h.missing
  rcases xpAdded_eq h with ⟨quantity, hq, hadded⟩ | ⟨hq, hadded⟩
  · have hpos := Nat.mul_pos (quantityOf_pos quantity) sale.season.step_pos
    omega
  · omega

theorem append_ne_empty {a : String} (ha : a.length ≠ 0) (b : String) : a ++ b ≠ "" := by
  intro h
  have hlength := congrArg String.length h
  rw [String.length_append] at hlength
  exact ha (Nat.eq_zero_of_add_eq_zero_right hlength)

/-- The grant of a sale has valid input. -/
theorem granted_xpCall {sale : Sale} (h : sale.Priced) (id : ℕ) :
    (sale.xpCall id).granted = some sale.xpAdded := by
  have hkey : (sale.xpCall id).idempotencyKey ≠ "" := by
    unfold Sale.xpCall
    simp only
    split
    · exact append_ne_empty (by decide) _
    · exact append_ne_empty (by decide) _
  have hpos := xpAdded_pos h
  have hfloor : ⌊(sale.xpAdded : ℚ)⌋ = (sale.xpAdded : ℤ) := Int.floor_natCast _
  unfold XpCall.granted
  show (if _ ∧ _ ∧ _ ∧ 0 < ⌊(sale.xpAdded : ℚ)⌋ then some ⌊(sale.xpAdded : ℚ)⌋.toNat else none) = _
  rw [hfloor, if_pos ⟨h.userId, h.seasonId, hkey, by omega⟩, Int.toNat_natCast]

/-! ## From the reading to the commit -/

/-- A purchase that has not read the experience yet. -/
structure Fresh (order : Order) (ws : List Write) : Prop where
  userId : order.userId ≠ 0
  seasonId : order.seasonId ≠ 0
  added : ∀ u s, (ws.map (gained u s)).sum = 0

/-- A sale under way, which has added `n` so far. -/
structure Underway (db : Db) (sale : Sale) (ws : List Write) (n : ℕ) : Prop where
  priced : sale.Priced
  read : sale.currentXp ≤ db.totalXp sale.order.userId sale.order.seasonId
  added : (ws.map (gained sale.order.userId sale.order.seasonId)).sum = n

/-- The grant of a sale. -/
structure Grants (call : XpCall) (n : ℕ) (sale : Sale) : Prop where
  userId : call.userId = sale.order.userId
  seasonId : call.seasonId = sale.order.seasonId
  amount : n = sale.xpAdded

def After.Buying (db : Db) (ws : List Write) (call : XpCall) (n : ℕ) : After → Prop
  | .calls _ => True
  | .purchase sale => Grants call n sale ∧ Underway db sale ws 0

def Enrolled.Buying (db : Db) (ws : List Write) : Enrolled → Prop
  | .xp call n after => after.Buying db ws call n
  | .purchase order _ _ => Fresh order ws
  | .claim _ _ _ => True

/-- What a purchase has read and has pending, at each point. -/
def Buying (db : Db) (tx : Tx Write Point) : Prop :=
  match tx.point with
  | .findSeason call n after | .createLedger call n after | .incrementXp call n after =>
      after.Buying db tx.writes call n
  | .findEnrollment _ _ next | .createEnrollment _ _ next => next.Buying db tx.writes
  | .findBuyer _ => tx.writes = []
  | .readXp order _ _ => Fresh order tx.writes
  | .debitBuyer sale | .nextPurchaseId sale | .createPurchase sale _ =>
      Underway db sale tx.writes 0
  | .commitPurchase sale => Underway db sale tx.writes sale.xpAdded
  | _ => True

/-! ### While others add experience -/

section Mono

variable {db db' : Db} (hle : ∀ u s, db.totalXp u s ≤ db'.totalXp u s)
include hle

theorem Underway.mono {sale : Sale} {ws : List Write} {n : ℕ} (h : Underway db sale ws n) :
    Underway db' sale ws n :=
  ⟨h.priced, h.read.trans (hle _ _), h.added⟩

theorem After.Buying.mono {ws : List Write} {call : XpCall} {n : ℕ} {after : After}
    (h : after.Buying db ws call n) : after.Buying db' ws call n := by
  cases after with
  | calls rest => trivial
  | purchase sale => exact ⟨h.1, h.2.mono hle⟩

theorem Enrolled.Buying.mono {ws : List Write} {next : Enrolled} (h : next.Buying db ws) :
    next.Buying db' ws := by
  cases next with
  | xp call n after => exact After.Buying.mono hle h
  | purchase order season polBalance => exact h
  | claim c season reward => trivial

theorem Buying.mono {tx : Tx Write Point} (h : Buying db tx) : Buying db' tx := by
  obtain ⟨p, ws⟩ := tx
  cases p with
  | findSeason | createLedger | incrementXp => exact After.Buying.mono hle h
  | findEnrollment | createEnrollment => exact Enrolled.Buying.mono hle h
  | findBuyer | readXp => exact h
  | debitBuyer | nextPurchaseId | createPurchase | commitPurchase => exact Underway.mono hle h
  | _ => trivial

end Mono

/-! ### Over a write -/

theorem gained_append (u s : ℕ) (ws : List Write) (w : Write) :
    ((ws ++ [w]).map (gained u s)).sum = (ws.map (gained u s)).sum + gained u s w := by
  simp

section Writes

variable {db : Db} {ws : List Write} {w : Write} (hw : ∀ u s : ℕ, gained u s w = 0)
include hw

theorem Fresh.write {order : Order} (h : Fresh order ws) : Fresh order (ws ++ [w]) :=
  ⟨h.userId, h.seasonId, fun u s => by rw [gained_append, h.added, hw]⟩

theorem Underway.write {sale : Sale} {n : ℕ} (h : Underway db sale ws n) :
    Underway db sale (ws ++ [w]) n :=
  ⟨h.priced, h.read, by rw [gained_append, h.added, hw, add_zero]⟩

theorem After.Buying.write {call : XpCall} {n : ℕ} {after : After}
    (h : after.Buying db ws call n) : after.Buying db (ws ++ [w]) call n := by
  cases after with
  | calls rest => trivial
  | purchase sale => exact ⟨h.1, h.2.write hw⟩

theorem Enrolled.Buying.write {next : Enrolled} (h : next.Buying db ws) :
    next.Buying db (ws ++ [w]) := by
  cases next with
  | xp call n after => exact After.Buying.write hw h
  | purchase order season polBalance => exact Fresh.write hw h
  | claim c season reward => trivial

end Writes

theorem buying_nextCall (db : Db) (ws : List Write) (calls : List XpCall) :
    Buying db ⟨nextCall calls, ws⟩ := by
  induction calls with
  | nil => trivial
  | cons call rest ih =>
      rw [nextCall]
      split
      · exact ih
      · trivial

theorem buying_enrolled {db : Db} {ws : List Write} {next : Enrolled} (h : next.Buying db ws) :
    Buying db ⟨next.next, ws⟩ := by
  cases next with
  | xp call n after => exact h
  | purchase order season polBalance => exact h
  | claim c season reward => trivial

/-- The step that adds the experience of a sale. -/
theorem buying_incremented {db : Db} {ws : List Write} {call : XpCall} {n : ℕ} {after : After}
    (h : after.Buying db ws call n) :
    Buying db ⟨after.next, ws ++ [.incrementXp call.userId call.seasonId n]⟩ := by
  cases after with
  | calls rest => exact buying_nextCall db _ rest
  | purchase sale =>
      obtain ⟨hgrants, hunderway⟩ := h
      refine ⟨hunderway.priced, hunderway.read, ?_⟩
      rw [gained_append, hunderway.added, gained,
        if_pos ⟨hgrants.userId.symm, hgrants.seasonId.symm⟩, zero_add, hgrants.amount]

@[simp] theorem priced_order (order : Order) (season : Season) (x : ℕ) :
    (order.priced season x).order = order := by
  unfold Order.priced
  split <;> rfl

@[simp] theorem priced_season (order : Order) (season : Season) (x : ℕ) :
    (order.priced season x).season = season := by
  unfold Order.priced
  split <;> rfl

@[simp] theorem priced_currentXp (order : Order) (season : Season) (x : ℕ) :
    (order.priced season x).currentXp = x := by
  unfold Order.priced
  split <;> rfl

/-- The step that reads the experience. -/
theorem underway_priced {db : Db} {order : Order} {ws : List Write} (h : Fresh order ws)
    (season : Season)
    (hopen : xpRemainingToCap (db.totalXp order.userId order.seasonId) season.levels season.step
      ≠ 0) :
    Underway db (order.priced season (db.totalXp order.userId order.seasonId)) ws 0 := by
  refine ⟨⟨?_, ?_, ?_, ?_⟩, ?_, ?_⟩
  · simpa using h.userId
  · simpa using h.seasonId
  · simp
  · simp only [priced_currentXp, priced_season]
    exact Nat.lt_of_sub_ne_zero hopen
  · simp
  · simpa using h.added order.userId order.seasonId

/-! ## Steps -/

/-- Ids start at 1. -/
def NoUserZero (db : Db) : Prop := db.holdings.users 0 = none

theorem users_updateUser_zero {h : LevelRewards.Holdings} (hzero : h.users 0 = none) (u : ℕ)
    (f : LevelRewards.User → LevelRewards.User) : (h.updateUser u f).users 0 = none := by
  show Function.update h.users u ((h.users u).map f) 0 = none
  rw [Function.update_apply]
  split
  case isTrue hu => rw [← hu, hzero, Option.map_none]
  case isFalse => exact hzero

theorem noUserZero_apply {db : Db} (h : NoUserZero db) (w : Write) : NoUserZero (apply db w) := by
  cases w with
  | debit u price => exact users_updateUser_zero h u _
  | deliver u rewardId delivery =>
      cases delivery with
      | blk amount | pol amount => exact users_updateUser_zero h u _
      | _ => exact h
  | completeProgress u m k now =>
      simp only [apply]
      split <;> exact h
  | _ => exact h

theorem noUserZero_view {db : Db} (h : NoUserZero db) (tx : Tx Write Point) :
    NoUserZero ((transactions config).view db tx) := by
  obtain ⟨p, ws⟩ := tx
  show NoUserZero ((transactions config).applyAll db ws)
  induction ws generalizing db with
  | nil => exact h
  | cons w ws ih => exact ih (noUserZero_apply h w)

theorem noUserZero_after {db : Db} {tx : Tx Write Point} {a : Answer}
    {next : Next Db Write Point} (h : NoUserZero db)
    (hstep : step config tx.point ((transactions config).view db tx) a = some next) :
    NoUserZero ((transactions config).dbAfter db tx next) := by
  have hmoves := step_moves config hstep
  obtain ⟨p, ws⟩ := tx
  cases next with
  | goto p | write w p | rollback next => exact h
  | commit next => exact noUserZero_view config h _
  | put f next =>
      cases hmoves with
      | numbered sale => exact h

/-- A step keeps what a purchase has read and pending. -/
theorem buying_step {db : Db} {tx tx' : Tx Write Point} {a : Answer}
    {next : Next Db Write Point} (hdb : NoUserZero db) (h : Buying db tx)
    (hstep : step config tx.point ((transactions config).view db tx) a = some next)
    (htx' : tx.after next = some tx') : Buying db tx' := by
  have hmoves := step_moves config hstep
  have hview := noUserZero_view config hdb tx
  have hxp := totalXp_view config db tx
  obtain ⟨p, ws⟩ := tx
  generalize (transactions config).view db ⟨p, ws⟩ = v at hmoves hview hxp
  cases hmoves with
  | failed | commits | commitsPurchase | commitsClaim => cases htx'
  | foundSeason | unenrolled =>
      obtain rfl := Option.some.inj htx'
      exact h
  | ledgered call n after hnew =>
      obtain rfl := Option.some.inj htx'
      exact After.Buying.write (fun _ _ => rfl) h
  | incremented call n after =>
      obtain rfl := Option.some.inj htx'
      exact buying_incremented h
  | enrolled u s next =>
      obtain rfl := Option.some.inj htx'
      exact buying_enrolled h
  | enrolls u s next =>
      obtain rfl := Option.some.inj htx'
      exact buying_enrolled (Enrolled.Buying.write (fun _ _ => rfl) h)
  | ticked bump =>
      obtain rfl := Option.some.inj htx'
      show Buying db ⟨ite _ _ _, _⟩
      split <;> trivial
  | bumped | unfinished | finished | completedBefore =>
      obtain rfl := Option.some.inj htx'
      trivial
  | completed bump now =>
      obtain rfl := Option.some.inj htx'
      show Buying db ⟨ite _ _ _, _⟩
      split
      · trivial
      · unfold applyMiniPassXp
        split
        · exact buying_nextCall db _ []
        · trivial
  | buyer order season user hseason huser =>
      obtain rfl := Option.some.inj htx'
      refine ⟨?_, ?_, ?_⟩
      · intro hzero
        rw [hzero, hview] at huser
        cases huser
      · intro hzero
        rw [hzero, config.seasons_zero] at hseason
        cases hseason
      · obtain rfl : ws = [] := h
        exact fun _ _ => rfl
  | priced order season polBalance hopen =>
      obtain rfl := Option.some.inj htx'
      have hfresh : Fresh order ws := h
      rw [hxp, hfresh.added, add_zero] at hopen ⊢
      exact underway_priced hfresh season hopen
  | debited sale =>
      obtain rfl := Option.some.inj htx'
      exact Underway.write (fun _ _ => rfl) h
  | numbered sale =>
      obtain rfl := Option.some.inj htx'
      exact h
  | purchased sale id =>
      obtain rfl := Option.some.inj htx'
      have hunderway : Underway db sale ws 0 := h
      rw [applyMiniPassXp, granted_xpCall hunderway.priced]
      exact ⟨⟨rfl, rfl, rfl⟩, hunderway.write fun _ _ => rfl⟩
  | claimant | eligible =>
      obtain rfl := Option.some.inj htx'
      trivial
  | claims | fulfills =>
      obtain rfl := Option.some.inj htx'
      trivial

/-! ## Runs -/

def Within (s : InFlight Db (Tx Write Point)) : Prop :=
  (transactions config).Holds NoUserZero Buying s

theorem within_step {s s' : InFlight Db (Tx Write Point)} {e : Event Request Answer}
    (hs : Within config s) (h : (transactions config).stepTx s e = some s') :
    Within config s' := by
  refine (transactions config).kept_step ?_ ?_ ?_ hs h
  · intro db r p _ hr
    cases r <;> obtain rfl := Option.some.inj hr
    · exact buying_nextCall db [] _
    · trivial
    · rfl
    · trivial
  · intro db tx a next hdb htx hstep
    have hle : ∀ u s, db.totalXp u s ≤ ((transactions config).dbAfter db tx next).totalXp u s :=
      totalXp_after config hstep
    exact ⟨noUserZero_after config hdb hstep,
      fun tx' htx' => (buying_step config hdb htx hstep htx').mono hle⟩
  · intro db tx a next tx' _ _ hstep htx' _
    exact htx'.mono (totalXp_after config hstep)

/-- The sale whose purchase commits with an event. -/
def sells (s : InFlight Db (Tx Write Point)) : Event Request Answer → Option Sale
  | .start _ => none
  | .resume _ .error => none
  | .resume call (.ok _) => (s.calls.row call).bind fun tx =>
      match tx.point with
      | .commitPurchase sale => some sale
      | _ => none

/-- A purchase that commits leaves the experience within the cap, and the user
on a higher level than before. -/
def SoldWithinCap (s : InFlight Db (Tx Write Point)) (e : Event Request Answer) : Prop :=
  ∀ sale ∈ sells s e, ∀ s' ∈ (transactions config).stepTx s e,
    s'.db.totalXp sale.order.userId sale.order.seasonId ≤ sale.season.cap
    ∧ sale.season.level (s.db.totalXp sale.order.userId sale.order.seasonId)
      < sale.season.level (s'.db.totalXp sale.order.userId sale.order.seasonId)

/-- A purchase that commits still fits. -/
def SaleFits (s : InFlight Db (Tx Write Point)) (e : Event Request Answer) : Prop :=
  ∀ sale ∈ sells s e, sale.Fits (s.db.totalXp sale.order.userId sale.order.seasonId)

theorem sells_eq_some {s : InFlight Db (Tx Write Point)} {e : Event Request Answer} {sale : Sale}
    (h : sells s e = some sale) : ∃ call now tx, e = .resume call (.ok now)
      ∧ s.calls.row call = some tx ∧ tx.point = .commitPurchase sale := by
  cases e with
  | start r => cases h
  | resume call a =>
      cases a with
      | error => cases h
      | ok now =>
          obtain ⟨tx, htx, h⟩ := Option.bind_eq_some_iff.mp h
          refine ⟨call, now, tx, rfl, htx, ?_⟩
          split at h
          case h_1 hp => rw [hp, Option.some.inj h]
          case h_2 => cases h

/-- At its commit, a sale is within the cap if and only if it fits. -/
theorem soldWithinCap_iff {s : InFlight Db (Tx Write Point)} (hs : Within config s)
    (e : Event Request Answer) : SoldWithinCap config s e ↔ SaleFits s e := by
  refine forall₂_congr fun sale hsale => ?_
  obtain ⟨call, now, tx, rfl, hrow, hp⟩ := sells_eq_some hsale
  have hunderway : Underway s.db sale tx.writes sale.xpAdded := by
    have hbuying := hs.calls call tx hrow
    rw [Buying, hp] at hbuying
    exact hbuying
  obtain ⟨p, ws⟩ := tx
  obtain rfl : p = .commitPurchase sale := hp
  have hstep := (transactions config).stepTx_resume (a := .ok now) hrow
    ((transactions config).free_nil s.calls call) rfl
  have hxp : ∀ next, ((transactions config).dbAfter s.db ⟨.commitPurchase sale, ws⟩
      (.commit next)).totalXp sale.order.userId sale.order.seasonId
        = s.db.totalXp sale.order.userId sale.order.seasonId + sale.xpAdded :=
    fun next => (totalXp_view config ..).trans (by rw [hunderway.added])
  rw [← priced_fits hunderway.priced hunderway.read, hstep]
  simp only [Option.mem_some_iff, forall_eq', hxp]

/-- **Purchases stay within the cap.** In a run every purchase that commits
leaves the experience within the cap and gains a level if and only if each of
them still fits when it commits. -/
theorem purchases_within_cap {db : Db} (hdb : NoUserZero db) {es : List (Event Request Answer)} :
    (transactions config).sys.Meets (SoldWithinCap config) (Transactions.idle db) es
      ↔ (transactions config).sys.Meets SaleFits (Transactions.idle db) es :=
  (transactions config).sys.meets_iff (C := fun _ _ => True)
    (fun _ _ _ hs _ h => within_step config hs h)
    (fun _ e hs _ => soldWithinCap_iff config hs e)
    ((transactions config).holds_idle hdb)
    (System.meets_of_forall _ (fun _ _ => trivial) _ _)

theorem twoUsers_noUserZero : NoUserZero twoUsers := rfl

instance (s : InFlight Db (Tx Write Point)) (e : Event Request Answer) : Decidable (SaleFits s e) :=
  inferInstanceAs (Decidable (∀ sale ∈ sells s e, _))

/-- The level that is bought after the bonus. -/
theorem purchases_within_cap_bought :
    (transactions oneSeason).sys.Meets (SoldWithinCap oneSeason) (Transactions.idle twoUsers)
      grantedAndBought :=
  (purchases_within_cap oneSeason twoUsers_noUserZero).mpr (by decide +kernel)

/-- After the bonus the rest of the pass is bought twice, and both purchases
read the bonus before either debits. -/
def boughtTwice : List (Event Request Answer) :=
  .start (.applyMiniPassXp [bonus]) :: List.replicate 6 (.resume 1 (.ok 5))
    ++ .start (.purchase ⟨1, 1, none⟩) :: List.replicate 3 (.resume 2 (.ok 6))
    ++ .start (.purchase ⟨1, 1, none⟩) :: List.replicate 3 (.resume 3 (.ok 6))
    ++ List.replicate 8 (.resume 2 (.ok 7)) ++ List.replicate 8 (.resume 3 (.ok 7))

instance (s : InFlight Db (Tx Write Point)) (e : Event Request Answer) :
    Decidable (SoldWithinCap oneSeason s e) :=
  inferInstanceAs (Decidable (∀ sale ∈ sells s e, ∀ s' ∈ (transactions oneSeason).stepTx s e, _))

theorem purchases_above_cap :
    ¬∀ (db : Db) (es : List (Event Request Answer)), NoUserZero db →
      (transactions oneSeason).sys.Meets (SoldWithinCap oneSeason) (Transactions.idle db) es := by
  intro h
  have hnot : ¬(transactions oneSeason).sys.Meets (SoldWithinCap oneSeason)
      (Transactions.idle twoUsers) boughtTwice := by
    decide +kernel
  exact hnot (h twoUsers boughtTwice twoUsers_noUserZero)

end BlockMiner.MiniPass
