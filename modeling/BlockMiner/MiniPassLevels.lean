import BlockMiner.MiniPassClaims
import BlockMiner.MiniPassPurchaseKeys

/-!
# Levels for a price

The charge of a purchase counts the levels of the experience it grants, rounded
up, and the level of a user is the experience divided by the step, rounded
down. `level_add` says that the two agree: a grant that is cut off at the cap
ends on a whole level. A purchase that meets no other call (`alone_purchase`)
is only refused for what it checks, since the key of its grant is new.
-/

namespace BlockMiner

/-! ## The level math of any integers -/

namespace MiniPassLevelMath

def computePassLevel (totalXp xpPerLevel maxLevel : ℤ) : ℤ :=
  let step := max 1 xpPerLevel
  let lvl := 1 + max 0 totalXp / step
  min (max 1 maxLevel) (max 1 lvl)

def xpCapForSeason (maxLevel xpPerLevel : ℤ) : ℤ :=
  let step := max 1 xpPerLevel
  max 0 ((max 1 maxLevel - 1) * step)

def xpRemainingToCap (totalXp maxLevel xpPerLevel : ℤ) : ℤ :=
  max 0 (xpCapForSeason maxLevel xpPerLevel - max 0 totalXp)

/-- The last level is reached exactly with the cap. -/
theorem computePassLevel_eq_iff (totalXp xpPerLevel maxLevel : ℤ) :
    computePassLevel totalXp xpPerLevel maxLevel = max 1 maxLevel
      ↔ xpRemainingToCap totalXp maxLevel xpPerLevel = 0 := by
  have hstep : 0 < max 1 xpPerLevel := by omega
  have hlevels : 0 ≤ max 1 maxLevel - 1 := by omega
  have hcap : 0 ≤ (max 1 maxLevel - 1) * max 1 xpPerLevel := mul_nonneg hlevels hstep.le
  have hreached : max 1 maxLevel - 1 ≤ max 0 totalXp / max 1 xpPerLevel
      ↔ (max 1 maxLevel - 1) * max 1 xpPerLevel ≤ max 0 totalXp :=
    Int.le_ediv_iff_mul_le hstep
  have hlevel : 0 ≤ max 0 totalXp / max 1 xpPerLevel := Int.ediv_nonneg (by omega) hstep.le
  unfold computePassLevel xpRemainingToCap xpCapForSeason
  simp only
  rw [max_eq_right hcap]
  generalize max 0 totalXp / max 1 xpPerLevel = level at hreached hlevel ⊢
  generalize (max 1 maxLevel - 1) * max 1 xpPerLevel = cap at hreached ⊢
  omega

end MiniPassLevelMath

namespace MiniPass

/-- The level in a season, from its columns. -/
def Season.passLevel (season : Season) (totalXp : ℕ) : ℤ :=
  MiniPassLevelMath.computePassLevel totalXp season.xpPerLevel season.maxLevel

def Season.remaining (season : Season) (totalXp : ℕ) : ℤ :=
  MiniPassLevelMath.xpRemainingToCap totalXp season.maxLevel season.xpPerLevel

theorem Season.step_cast (season : Season) : (season.step : ℤ) = max 1 season.xpPerLevel := by
  unfold Season.step
  omega

theorem Season.levels_cast (season : Season) : (season.levels : ℤ) = max 1 season.maxLevel := by
  unfold Season.levels
  omega

theorem Season.passLevel_eq (season : Season) (totalXp : ℕ) :
    season.passLevel totalXp = season.level totalXp := by
  have hdiv : ((1 + totalXp / season.step : ℕ) : ℤ) = 1 + (totalXp : ℤ) / season.step := by
    push_cast
    rfl
  rw [Season.passLevel, MiniPassLevelMath.computePassLevel, ← Season.step_cast,
    ← Season.levels_cast, Season.level_eq]
  have hnonneg : 0 ≤ (totalXp : ℤ) / season.step := Int.ediv_nonneg (by omega) (by omega)
  rw [max_eq_right (by omega : (0 : ℤ) ≤ totalXp)]
  omega

theorem Season.cap_cast (season : Season) :
    (season.cap : ℤ) = MiniPassLevelMath.xpCapForSeason season.maxLevel season.xpPerLevel := by
  have hlevels : 1 ≤ season.levels := by unfold Season.levels; omega
  have hcap : (season.cap : ℤ) = (max 1 season.maxLevel - 1) * max 1 season.xpPerLevel := by
    rw [Season.cap_eq, ← Season.step_cast, ← Season.levels_cast]
    push_cast [hlevels]
    rfl
  rw [MiniPassLevelMath.xpCapForSeason, ← hcap]
  omega

theorem Season.remaining_eq (season : Season) (totalXp : ℕ) :
    season.remaining totalXp = (season.cap - totalXp : ℕ) := by
  rw [Season.remaining, MiniPassLevelMath.xpRemainingToCap, ← Season.cap_cast]
  omega

/-- At the cap a user has the last level. -/
theorem Season.level_cap (season : Season) : season.level season.cap = season.levels := by
  have hlevels : 1 ≤ season.levels := by unfold Season.levels; omega
  rw [Season.level_eq, Season.cap_eq, Nat.mul_div_cancel _ season.step_pos]
  omega

/-- A grant of whole steps that is cut off at the cap adds its levels, rounded up. -/
theorem Season.level_add {season : Season} {x : ℕ} (hx : x < season.cap) (q : ℕ) :
    season.level (x + min (q * season.step) (season.cap - x))
      = season.level x
        + (min (q * season.step) (season.cap - x) + season.step - 1) / season.step := by
  have hpos := season.step_pos
  have hbelow : x / season.step < season.levels - 1 := by
    rw [Nat.div_lt_iff_lt_mul hpos, ← Season.cap_eq]
    exact hx
  have hlevel : season.level x = 1 + x / season.step := by
    rw [Season.level_eq]
    omega
  rcases le_total (q * season.step) (season.cap - x) with hfits | hcut
  · have hround : (q * season.step + season.step - 1) / season.step = q := by
      rw [Nat.add_sub_assoc hpos, Nat.mul_comm, Nat.mul_add_div hpos,
        Nat.div_eq_of_lt (by omega), Nat.add_zero]
    have hsum : (x + q * season.step) / season.step = x / season.step + q :=
      Nat.add_mul_div_right _ _ hpos
    have hle : (x + q * season.step) / season.step ≤ season.levels - 1 := by
      calc (x + q * season.step) / season.step
          ≤ season.cap / season.step := Nat.div_le_div_right (by omega)
        _ = season.levels - 1 := by rw [Season.cap_eq, Nat.mul_div_cancel _ hpos]
    rw [hsum] at hle
    rw [min_eq_left hfits, hround, hlevel, Season.level_eq, hsum]
    generalize x / season.step = below at hbelow hle ⊢
    omega
  · have hround : (season.cap - x + season.step - 1) / season.step
        = season.levels - 1 - x / season.step := by
      have hmod := Nat.div_add_mod x season.step
      have hlt := Nat.mod_lt x hpos
      obtain ⟨d, hd⟩ := Nat.exists_eq_add_of_lt hbelow
      rw [Season.cap_eq, hd]
      have hexpand : (x / season.step + d + 1) * season.step
          = season.step * (x / season.step) + season.step * (d + 1) := by ring
      have hcap : (x / season.step + d + 1) * season.step - x + season.step - 1
          = season.step - 1 - x % season.step + season.step * (d + 1) := by
        have hwhole : season.step ≤ season.step * (d + 1) := Nat.le_mul_of_pos_right _ (by omega)
        rw [hexpand]
        omega
      rw [hcap, Nat.add_mul_div_left _ _ hpos, Nat.div_eq_of_lt (by omega)]
      omega
    rw [min_eq_right hcut, Nat.add_sub_cancel' hx.le, Season.level_cap, hround, hlevel]
    omega

variable (config : Config)

/-! ## A purchase alone -/

/-- What a purchase leaves behind that is charged for a sale. -/
structure Charged (db db' : Db) (sale : Sale) : Prop where
  paid : db'.holdings = db.holdings.updateUser sale.order.userId fun user =>
    { user with polBalance := user.polBalance - sale.price }
  recorded : db'.purchases.row db.purchases.nextId = some sale.row
  added : ∀ u s, db'.totalXp u s = db.totalXp u s
    + if u = sale.order.userId ∧ s = sale.order.seasonId then sale.xpAdded else 0

/-- The enrollment is there once the writes are applied. -/
def Enrolls (db : Db) (order : Order) (ws : List Write) : Prop :=
  ∀ db' : Db, db'.enrollments = db.enrollments →
    ((transactions config).applyAll db' ws).enrollments order.userId order.seasonId ≠ none

theorem charged_applyAll {db : Db} {sale : Sale} {ws : List Write} (hws : Prepares ws)
    (row : LedgerRow) :
    Charged db ((transactions config).applyAll { db with purchases := db.purchases.reserve }
      (ws ++ [.debit sale.order.userId sale.price]
        ++ [.createPurchase db.purchases.nextId sale.row] ++ [.createLedger row]
        ++ [.incrementXp sale.order.userId sale.order.seasonId sale.xpAdded])) sale := by
  have hsame := applyAll_prepares config hws { db with purchases := db.purchases.reserve }
  have hnextId : ((transactions config).applyAll { db with purchases := db.purchases.reserve }
      ws).purchases.nextId = db.purchases.nextId + 1 :=
    nextId_view config { db with purchases := db.purchases.reserve } ⟨.commit, ws⟩
  simp only [Transactions.applyAll_append, Transactions.applyAll_cons, Transactions.applyAll_nil]
  generalize (transactions config).applyAll { db with purchases := db.purchases.reserve } ws = v
    at hsame hnextId
  refine ⟨?_, ?_, fun u s => ?_⟩
  · show v.holdings.updateUser _ _ = _
    rw [hsame.holdings]
  · show (v.purchases.place _ _).row _ = _
    rw [Table.place_row, hnextId, if_pos ⟨rfl, Nat.lt_succ_self _⟩]
  · refine (totalXp_apply _ (.incrementXp sale.order.userId sale.order.seasonId sale.xpAdded)
      u s).trans (congrArg (· + _) ?_)
    exact hsame.totalXp u s

/-- From the debit on. -/
theorem alone_debitBuyer (clock : ℕ → ℤ) (i : ℕ) {db : Db} {sale : Sale} {ws : List Write}
    (hdb : Numbered db) (hpriced : sale.Priced)
    (hlive : ∀ j, liveSeason config sale.order.seasonId (clock j) = some sale.season)
    (hws : Prepares ws) (henrolls : Enrolls config db sale.order ws) :
    ∃ db', (transactions config).Alone (fun j => .ok (clock j)) i db ⟨.debitBuyer sale, ws⟩ db'
      ∧ Charged db db' sale := by
  let db₁ : Db := { db with purchases := db.purchases.reserve }
  let id := db.purchases.nextId
  let call := sale.xpCall id
  let ws₂ := ws ++ [.debit sale.order.userId sale.price] ++ [.createPurchase id sale.row]
  have hid : ((transactions config).view db
      ⟨.nextPurchaseId sale, ws ++ [.debit sale.order.userId sale.price]⟩).purchases.nextId = id :=
    nextId_view config db _
  have hnumbered : step config (.nextPurchaseId sale) ((transactions config).view db
      ⟨.nextPurchaseId sale, ws ++ [.debit sale.order.userId sale.price]⟩) (.ok (clock (i + 1)))
        = some (.put (fun db => { db with purchases := db.purchases.reserve })
          (some (.createPurchase sale id))) := by
    rw [← hid]
    rfl
  have hpurchased : step config (.createPurchase sale id) ((transactions config).view db₁
      ⟨.createPurchase sale id, ws ++ [.debit sale.order.userId sale.price]⟩)
      (.ok (clock (i + 1 + 1)))
        = some (.write (.createPurchase id sale.row)
          (.findSeason call sale.xpAdded (.purchase sale))) := by
    simp only [step, applyMiniPassXp, granted_xpCall hpriced]
    rfl
  have hseason : step config (.findSeason call sale.xpAdded (.purchase sale))
      ((transactions config).applyAll db₁ ws₂) (.ok (clock (i + 1 + 1 + 1)))
        = some (.goto (.findEnrollment call.userId call.seasonId
          (.xp call sale.xpAdded (.purchase sale)))) := by
    simp only [step]
    rw [show call.seasonId = sale.order.seasonId from rfl, hlive]
  have hthere : ((transactions config).applyAll db₁ ws₂).enrollments call.userId call.seasonId
      ≠ none := by
    rw [Transactions.applyAll_append, Transactions.applyAll_append]
    exact henrolls db₁ rfl
  obtain ⟨xp, hxp⟩ := Option.ne_none_iff_exists'.mp hthere
  have hfound : step config (.findEnrollment call.userId call.seasonId
      (.xp call sale.xpAdded (.purchase sale))) ((transactions config).applyAll db₁ ws₂)
      (.ok (clock (i + 1 + 1 + 1 + 1)))
        = some (.goto (.createLedger call sale.xpAdded (.purchase sale))) := by
    simp only [step, hxp]
    rfl
  -- the writes so far enter nothing, so the key is as new as the id
  have hnew : ¬(((transactions config).applyAll db₁ ws₂).xpLedger.any fun row =>
      row.idempotencyKey = call.idempotencyKey) := by
    intro hany
    obtain ⟨row, hrow, hkey⟩ := List.any_eq_true.mp hany
    rcases @mem_xpLedger_view config _ ⟨.commit, ws₂⟩ _ hrow with hold | hpending
    · exact purchaseKey_new hdb le_rfl _ row hold (of_decide_eq_true hkey)
    · rcases List.mem_append.mp hpending with hpending | hpending
      · rcases List.mem_append.mp hpending with hpending | hpending
        · obtain ⟨u, s, hw⟩ := hws _ hpending
          cases hw
        · cases List.mem_singleton.mp hpending
      · cases List.mem_singleton.mp hpending
  have hledgered : step config (.createLedger call sale.xpAdded (.purchase sale))
      ((transactions config).applyAll db₁ ws₂) (.ok (clock (i + 1 + 1 + 1 + 1 + 1)))
        = some (.write (.createLedger (ledgerRow call sale.xpAdded))
          (.incrementXp call sale.xpAdded (.purchase sale))) := by
    simp only [step]
    rw [if_neg hnew]
  exact ⟨_, .next rfl rfl (.next hnumbered rfl (.next hpurchased rfl (.next hseason rfl
    (.next hfound rfl (.next hledgered rfl (.next rfl rfl (.last rfl rfl rfl))))))),
    charged_applyAll config hws _⟩

/-- The sale of an order in a database. -/
def Order.sale (order : Order) (season : Season) (db : Db) : Sale :=
  order.priced season (db.totalXp order.userId order.seasonId)

/-- What becomes of an order: refused at the cap, and else charged. -/
def Settled (order : Order) (season : Season) (db db' : Db) : Prop :=
  season.cap ≤ db.totalXp order.userId order.seasonId ∧ db' = db
    ∨ db.totalXp order.userId order.seasonId < season.cap
      ∧ Charged db db' (order.sale season db)

theorem alone_readXp (clock : ℕ → ℤ) (i : ℕ) {db : Db} {order : Order} {season : Season}
    {polBalance : ℚ} {ws : List Write} (hdb : Numbered db) (huserId : order.userId ≠ 0)
    (hseasonId : order.seasonId ≠ 0)
    (hlive : ∀ j, liveSeason config order.seasonId (clock j) = some season)
    (hfunds : (order.sale season db).price ≤ polBalance) (hws : Prepares ws)
    (henrolls : Enrolls config db order ws) :
    ∃ db', (transactions config).Alone (fun j => .ok (clock j)) i db
        ⟨.readXp order season polBalance, ws⟩ db' ∧ Settled order season db db' := by
  have hxp := (applyAll_prepares config hws db).totalXp order.userId order.seasonId
  rcases le_or_gt season.cap (db.totalXp order.userId order.seasonId) with hfull | hopen
  · have hread : step config (.readXp order season polBalance)
        ((transactions config).applyAll db ws) (.ok (clock i)) = some (.rollback none) := by
      simp only [step, hxp, priced_currentXp]
      exact if_pos (.inl (Nat.sub_eq_zero_of_le hfull))
    exact ⟨db, .last hread rfl rfl, .inl ⟨hfull, rfl⟩⟩
  · have hmissing : xpRemainingToCap (db.totalXp order.userId order.seasonId) season.levels
        season.step ≠ 0 :=
      (Nat.sub_pos_of_lt hopen).ne'
    have hread : step config (.readXp order season polBalance)
        ((transactions config).applyAll db ws) (.ok (clock i))
          = some (.goto (.debitBuyer (order.sale season db))) := by
      simp only [step, hxp, priced_currentXp]
      exact if_neg (not_or.mpr ⟨hmissing, not_lt.mpr hfunds⟩)
    have hunderway : Underway db (order.sale season db) [] 0 :=
      underway_priced ⟨huserId, hseasonId, fun _ _ => rfl⟩ season hmissing
    obtain ⟨db', halone, hcharged⟩ := alone_debitBuyer config clock (i + 1) hdb hunderway.priced
      (by simpa [Order.sale] using hlive) hws (by simpa [Order.sale] using henrolls)
    exact ⟨db', .next hread rfl halone, .inr ⟨hopen, hcharged⟩⟩

/-- A purchase from its start on. -/
theorem alone_purchase (clock : ℕ → ℤ) {db : Db} {order : Order} {season : Season}
    {user : LevelRewards.User} (hdb : Numbered db) (hzero : NoUserZero db)
    (huser : allowedUser db order.userId = some user)
    (hlive : ∀ j, liveSeason config order.seasonId (clock j) = some season)
    (hprice : order.priceConfigured season = true)
    (hfunds : (order.sale season db).price ≤ user.polBalance) :
    ∃ db', (transactions config).Alone (fun j => .ok (clock j)) 0 db ⟨.findBuyer order, []⟩ db'
      ∧ Settled order season db db' := by
  have huserId : order.userId ≠ 0 := by
    intro h
    rw [allowedUser, h, hzero] at huser
    cases huser
  have hseasonId : order.seasonId ≠ 0 := by
    intro h
    have hseason := liveSeason_eq_some config (hlive 0)
    rw [h, config.seasons_zero] at hseason
    cases hseason
  have hbuyer : step config (.findBuyer order) db (.ok (clock 0))
      = some (.goto (.findEnrollment order.userId order.seasonId
        (.purchase order season user.polBalance))) := by
    simp only [step, huser, hlive 0, hprice, if_true]
  cases henrolled : db.enrollments order.userId order.seasonId with
  | some totalXp =>
      have henroll : step config (.findEnrollment order.userId order.seasonId
          (.purchase order season user.polBalance)) db (.ok (clock 1))
            = some (.goto (.readXp order season user.polBalance)) := by
        simp only [step, henrolled]
        rfl
      have hthere : Enrolls config db order [] := by
        intro db' hsame
        show db'.enrollments _ _ ≠ none
        rw [hsame, henrolled]
        simp
      obtain ⟨db', halone, hsettled⟩ := alone_readXp config clock 2 hdb huserId hseasonId hlive
        hfunds (List.forall_mem_nil _) hthere
      exact ⟨db', .next hbuyer rfl (.next henroll rfl halone), hsettled⟩
  | none =>
      have henroll : step config (.findEnrollment order.userId order.seasonId
          (.purchase order season user.polBalance)) db (.ok (clock 1))
            = some (.goto (.createEnrollment order.userId order.seasonId
                (.purchase order season user.polBalance))) := by
        simp only [step, henrolled]
      have hcreate : step config (.createEnrollment order.userId order.seasonId
          (.purchase order season user.polBalance)) db (.ok (clock 2))
            = some (.write (.createEnrollment order.userId order.seasonId)
                (.readXp order season user.polBalance)) := by
        simp only [step, henrolled]
        rfl
      have hthere : Enrolls config db order [.createEnrollment order.userId order.seasonId] := by
        intro db' _
        show (setEnrollment db' _ _ _).enrollments _ _ ≠ none
        simp [setEnrollment]
      obtain ⟨db', halone, hsettled⟩ := alone_readXp config clock 3 hdb huserId hseasonId hlive
        hfunds (fun w hw => ⟨_, _, List.mem_singleton.mp hw⟩) hthere
      exact ⟨db', .next hbuyer rfl (.next henroll rfl (.next hcreate rfl halone)), hsettled⟩

/-! ## What is charged -/

/-- The levels of an order have been gained, and paid for. -/
structure Granted (order : Order) (season : Season) (db db' : Db) : Prop where
  within : (db'.totalXp order.userId order.seasonId : ℤ)
    ≤ MiniPassLevelMath.xpCapForSeason season.maxLevel season.xpPerLevel
  levels : ∀ quantity ∈ order.quantity, ∃ levelsEffective : ℕ, 0 < levelsEffective
    ∧ season.passLevel (db'.totalXp order.userId order.seasonId)
      = season.passLevel (db.totalXp order.userId order.seasonId) + levelsEffective
    ∧ (db'.holdings = db.holdings.updateUser order.userId fun user =>
        { user with polBalance := user.polBalance - season.buyLevelPricePol * levelsEffective })
    ∧ (db'.purchases.row db.purchases.nextId).map Purchase.levelsAdded = some levelsEffective
  complete : order.quantity = none →
    (db'.totalXp order.userId order.seasonId : ℤ)
        = MiniPassLevelMath.xpCapForSeason season.maxLevel season.xpPerLevel
    ∧ season.passLevel (db'.totalXp order.userId order.seasonId) = max 1 season.maxLevel
    ∧ db'.holdings = db.holdings.updateUser order.userId fun user =>
        { user with polBalance := user.polBalance - season.completePassPricePol }

theorem granted_of_charged {order : Order} {season : Season} {db db' : Db}
    (hopen : db.totalXp order.userId order.seasonId < season.cap)
    (h : Charged db db' (order.sale season db)) : Granted order season db db' := by
  have hadded := h.added order.userId order.seasonId
  have hpaid := h.paid
  have hrecorded := h.recorded
  simp only [Order.sale, priced_order, and_self, if_true] at hadded hpaid hrecorded
  generalize hx : db.totalXp order.userId order.seasonId = x at *
  have hremaining : xpRemainingToCap x season.levels season.step = season.cap - x := rfl
  cases hq : order.quantity with
  | some quantity =>
      simp only [Order.priced, hq, hremaining] at hadded hpaid hrecorded
      have hlevel := Season.level_add hopen (quantityOf quantity)
      have hpos : 0 < quantityOf quantity * season.step :=
        Nat.mul_pos (quantityOf_pos quantity) season.step_pos
      refine ⟨?_, fun quantity' hmem => ?_, fun hnone => ?_⟩
      · rw [hadded, ← Season.cap_cast]
        omega
      · obtain rfl := Option.some.inj (hq.symm.trans hmem)
        refine ⟨_, ?_, ?_, hpaid, ?_⟩
        · exact Nat.div_pos (by omega) season.step_pos
        · rw [hx, hadded, Season.passLevel_eq, Season.passLevel_eq, hlevel, Nat.cast_add]
        · rw [hrecorded]
          rfl
      · rw [hq] at hnone
        cases hnone
  | none =>
      simp only [Order.priced, hq, hremaining] at hadded hpaid
      rw [Nat.add_sub_cancel' hopen.le] at hadded
      refine ⟨?_, fun quantity hmem => ?_, fun _ => ⟨?_, ?_, hpaid⟩⟩
      · rw [hadded, ← Season.cap_cast]
      · rw [hq] at hmem
        cases hmem
      · rw [hadded, ← Season.cap_cast]
      · rw [hadded, Season.passLevel_eq, Season.level_cap, Season.levels_cast]

/-- With no other call in flight, the order of a user who is not banned and has the price, in a
season that stays live, is refused if and only if no experience remains to the cap, and
otherwise its levels are gained. -/
def BuysExactly (s : InFlight Db (Tx Write Point)) : Prop :=
  (∀ i, s.calls.row i = none) →
    ∀ (clock : ℕ → ℤ) (order : Order) (season : Season) (user : LevelRewards.User),
    allowedUser s.db order.userId = some user →
    (∀ j, liveSeason config order.seasonId (clock j) = some season) →
    order.priceConfigured season = true → (order.sale season s.db).price ≤ user.polBalance →
      ∃ n t, (transactions config).sys.run s (.start (.purchase order)
            :: (List.range' 0 n).map fun i => .resume s.calls.nextId (.ok (clock i))) = some t
        ∧ (∀ i, t.calls.row i = none)
        ∧ (season.remaining (s.db.totalXp order.userId order.seasonId) = 0 ∧ t.db = s.db
          ∨ season.remaining (s.db.totalXp order.userId order.seasonId) ≠ 0
            ∧ Granted order season s.db t.db)

theorem buys_exactly {s : InFlight Db (Tx Write Point)} (hnumbered : Numbered s.db)
    (hzero : NoUserZero s.db) : BuysExactly config s := by
  intro hquiet clock order season user huser hlive hprice hfunds
  obtain ⟨db', halone, hsettled⟩ :=
    alone_purchase config clock hnumbered hzero huser hlive hprice hfunds
  have hrow : (s.calls.insert (⟨.findBuyer order, []⟩ : Tx Write Point)).row s.calls.nextId
      = some ⟨.findBuyer order, []⟩ :=
    Table.insert_row_self ..
  have hothers : ∀ j, j ≠ s.calls.nextId →
      (s.calls.insert (⟨.findBuyer order, []⟩ : Tx Write Point)).row j = none := by
    intro j hj
    rw [Table.insert_row, if_neg hj, hquiet]
  obtain ⟨n, t, hrun, rfl, hnone⟩ := halone.run hrow hothers
  refine ⟨n, t, (System.run_cons_eq_some _).mpr ⟨_, rfl, hrun⟩, hnone, ?_⟩
  rw [Season.remaining_eq]
  rcases hsettled with ⟨hfull, hsame⟩ | ⟨hopen, hcharged⟩
  · exact .inl ⟨by omega, hsame⟩
  · exact .inr ⟨by omega, granted_of_charged hopen hcharged⟩

/-- A level is bought. -/
def boughtOnce : List (Event Request Answer) :=
  .start (.purchase ⟨1, 1, some (.finite 1)⟩) :: List.replicate 12 (.resume 1 (.ok 7))

end MiniPass

end BlockMiner
