import BlockMiner.Spending

/-!
# No spender drives a balance negative

Every endpoint compares the price with the balance it has read (`Checked`),
and every transaction takes off its balance exactly that price
(`commit_balance`). The debit itself is unconditional, so the two fit
together as long as the balance is, at the commit, still at least what the
check has read. `ChecksStand` asks this of the debits of one balance; in
runs that meet it that balance stays non-negative (`balance_covered`), and
BLK, which is only credited, does in every run.
-/

namespace BlockMiner.Spending

/-! ## What passes the checks -/

/-- The BLK a spend credits. -/
def Spend.blkOut : Spend → ℚ
  | .convertPolToBlk _ blkOut => blkOut
  | _ => 0

/-- What the checks guarantee of a call: the balance they read covers the
price, and a conversion credits a positive amount. -/
def Checked : Call → Prop
  | .commit spend seen => (∀ p ∈ spend.payment, p.2 ≤ seen) ∧ 0 ≤ spend.blkOut
  | .convertLast _ blkOut _ | .convertDaily _ blkOut _ => 0 < blkOut
  | _ => True

theorem checkBalance_checked {seen price : ℚ} {spend : Spend} {c : Call}
    (h : Db.checkBalance seen price spend = .ok c) (hprice : ∀ p ∈ spend.payment, p.2 = price)
    (hblk : 0 ≤ spend.blkOut) : Checked c := by
  obtain ⟨hfunds, h⟩ := ite_error_eq_ok.mp h
  obtain rfl := Except.ok.inj h
  refine ⟨fun p hp => ?_, hblk⟩
  rw [hprice p hp]
  exact not_lt.mp hfunds

section Endpoints

variable {cat : Catalog} {db : Db} {c : Call}

theorem createWithdrawal_checked {amount : ℚ} (h : db.createWithdrawal amount = .ok c) :
    Checked c := by
  obtain ⟨-, h⟩ := ite_error_eq_ok.mp h
  obtain ⟨-, h⟩ := ite_error_eq_ok.mp h
  obtain rfl := Except.ok.inj h
  trivial

theorem purchaseMiner_checked {minerId : ℕ} {quantity : ℤ}
    (h : db.purchaseMiner cat minerId quantity = .ok c) : Checked c := by
  obtain ⟨-, h⟩ := ite_error_eq_ok.mp h
  obtain ⟨-, h⟩ := ite_error_eq_ok.mp h
  split at h
  case h_1 => cases h
  case h_2 miner _ =>
    obtain ⟨-, h⟩ := ite_error_eq_ok.mp h
    obtain ⟨-, h⟩ := ite_error_eq_ok.mp h
    exact checkBalance_checked h (by rintro _ ⟨⟩; rfl) le_rfl

theorem buyRoom_checked (h : db.buyRoom cat = .ok c) : Checked c := by
  obtain ⟨-, h⟩ := ite_error_eq_ok.mp h
  split at h
  case h_1 => cases h
  case h_2 price _ =>
    obtain ⟨-, h⟩ := ite_error_eq_ok.mp h
    obtain rfl := Except.ok.inj h
    trivial

theorem roomUser_checked {nextRoom : ℕ} {price : ℚ}
    (h : db.roomUser nextRoom price = .ok c) : Checked c := by
  refine checkBalance_checked h (fun p hp => ?_) le_rfl
  have hpay : (if 0 < price then some (Currency.POL, price) else none) = some p := hp
  split at hpay
  case isTrue => exact (congrArg Prod.snd (Option.some.inj hpay)).symm
  case isFalse => cases hpay

theorem claim_checked {id quantity : ℕ} {seen : ℚ} :
    Checked (.commit (.claimEventMiner id quantity) seen) :=
  ⟨(fun _ hp => by cases hp), le_rfl⟩

theorem purchaseEventMinerForUser_checked {id now : ℕ} {quantity : ℤ}
    (h : db.purchaseEventMinerForUser cat id quantity now = .ok c) : Checked c := by
  unfold Db.purchaseEventMinerForUser at h
  split at h
  case h_1 => cases h
  case h_2 em _ =>
    obtain ⟨-, h⟩ := ite_error_eq_ok.mp h
    obtain ⟨-, h⟩ := ite_error_eq_ok.mp h
    obtain ⟨-, h⟩ := ite_error_eq_ok.mp h
    split at h
    case isTrue =>
      split at h
      case isTrue =>
        obtain rfl := Except.ok.inj h
        trivial
      case isFalse =>
        obtain rfl := Except.ok.inj h
        exact claim_checked
    case isFalse =>
      obtain ⟨-, h⟩ := ite_error_eq_ok.mp h
      obtain rfl := Except.ok.inj h
      trivial

theorem eventClaims_checked {id quantity : ℕ} (h : db.eventClaims cat id quantity = .ok c) :
    Checked c := by
  unfold Db.eventClaims at h
  split at h
  case h_1 => cases h
  case h_2 em _ =>
    obtain ⟨-, h⟩ := ite_error_eq_ok.mp h
    obtain rfl := Except.ok.inj h
    exact claim_checked

theorem eventUser_checked {id quantity : ℕ} (h : db.eventUser cat id quantity = .ok c) :
    Checked c := by
  unfold Db.eventUser at h
  split at h
  case h_1 => cases h
  case h_2 em _ => exact checkBalance_checked h (by rintro _ ⟨⟩; rfl) le_rfl

/-- The two mini pass purchases go on to read the enrollment. -/
theorem miniPassSeason_ok {seasonId now : ℕ} {price : Season → ℚ} {next : Call}
    (h : db.miniPassSeason cat seasonId price now next = .ok c) : c = next := by
  obtain ⟨-, h⟩ := ite_error_eq_ok.mp h
  split at h
  case h_1 => cases h
  case h_2 season _ =>
    obtain ⟨-, h⟩ := ite_error_eq_ok.mp h
    obtain ⟨-, h⟩ := ite_error_eq_ok.mp h
    obtain ⟨-, h⟩ := ite_error_eq_ok.mp h
    exact (Except.ok.inj h).symm

theorem levelsEnrollment_checked {seasonId q : ℕ} {seen : ℚ}
    (h : db.levelsEnrollment cat seasonId q seen = .ok c) : Checked c := by
  unfold Db.levelsEnrollment at h
  split at h
  case h_1 => cases h
  case h_2 season _ =>
    obtain ⟨-, h⟩ := ite_error_eq_ok.mp h
    exact checkBalance_checked h (by rintro _ ⟨⟩; rfl) le_rfl

theorem completeEnrollment_checked {seasonId : ℕ} {seen : ℚ}
    (h : db.completeEnrollment cat seasonId seen = .ok c) : Checked c := by
  unfold Db.completeEnrollment at h
  split at h
  case h_1 => cases h
  case h_2 season _ =>
    obtain ⟨-, h⟩ := ite_error_eq_ok.mp h
    exact checkBalance_checked h (by rintro _ ⟨⟩; rfl) le_rfl

theorem convertPolToBlk_checked {polAmount : ℚ} (h : db.convertPolToBlk cat polAmount = .ok c) :
    Checked c := by
  cases hest : estimatePolToBlk cat.blkEconomy (round8 polAmount) with
  | none =>
      simp only [Db.convertPolToBlk, hest] at h
      cases h
  | some blkOut =>
      simp only [Db.convertPolToBlk, hest] at h
      obtain ⟨-, h⟩ := ite_error_eq_ok.mp h
      obtain ⟨-, h⟩ := ite_error_eq_ok.mp h
      obtain ⟨hpos, h⟩ := ite_error_eq_ok.mp h
      obtain rfl := Except.ok.inj h
      exact not_le.mp hpos

/-- The balance check of a conversion. -/
theorem convert_checkBalance {polGross blkOut seen : ℚ} (hpos : 0 < blkOut)
    (h : Db.checkBalance seen polGross (.convertPolToBlk polGross blkOut) = .ok c) : Checked c :=
  checkBalance_checked h (by rintro _ ⟨⟩; rfl) hpos.le

theorem convertLast_checked {polGross blkOut seen : ℚ} {now : ℕ} (hpos : 0 < blkOut)
    (h : db.convertLast cat polGross blkOut seen now = .ok c) : Checked c := by
  obtain ⟨-, h⟩ := ite_error_eq_ok.mp h
  split at h
  case isTrue =>
    obtain rfl := Except.ok.inj h
    exact hpos
  case isFalse => exact convert_checkBalance hpos h

theorem convertDaily_checked {polGross blkOut seen : ℚ} {now : ℕ} (hpos : 0 < blkOut)
    (h : db.convertDaily cat polGross blkOut seen now = .ok c) : Checked c := by
  obtain ⟨-, h⟩ := ite_error_eq_ok.mp h
  exact convert_checkBalance hpos h

theorem start_checked {r : Request} (h : start cat db r = .ok c) : Checked c := by
  cases r with
  | createWithdrawal amount => exact createWithdrawal_checked h
  | purchaseMiner minerId quantity => exact purchaseMiner_checked h
  | buyRoom => exact buyRoom_checked h
  | purchaseOfferMiner id quantity now => exact purchaseEventMinerForUser_checked h
  | purchaseMiniPassLevels id quantity now =>
      rw [miniPassSeason_ok h]
      trivial
  | purchaseMiniPassComplete id now =>
      rw [miniPassSeason_ok h]
      trivial
  | convertPolToBlk polAmount => exact convertPolToBlk_checked h

/-- The next query, or the check it leads to, keeps what the checks before
it have established. -/
theorem query_checked {d : Call} {now : ℕ} (hd : Checked d) (h : query cat db now d = .ok c) :
    Checked c := by
  cases d with
  | withdrawalUser amount => exact checkBalance_checked h (by rintro _ ⟨⟩; rfl) le_rfl
  | roomUser nextRoom price => exact roomUser_checked h
  | eventClaims id quantity => exact eventClaims_checked h
  | eventUser id quantity => exact eventUser_checked h
  | levelsEnrollment id q seen => exact levelsEnrollment_checked h
  | completeEnrollment id seen => exact completeEnrollment_checked h
  | convertLast polGross blkOut seen => exact convertLast_checked hd h
  | convertDaily polGross blkOut seen => exact convertDaily_checked hd h
  | commit spend seen =>
      obtain rfl := Except.ok.inj h
      exact hd

end Endpoints

/-! ## What a transaction does to the balances -/

/-- What a payment takes off one balance. -/
def takes (currency : Currency) : Option (Currency × ℚ) → ℚ
  | some (paid, price) => if paid = currency then price else 0
  | none => 0

@[simp] theorem pay_blkBalance (db : Db) (payment : Option (Currency × ℚ)) :
    (db.pay payment).blkBalance = db.blkBalance := by
  cases payment <;> rfl

theorem pay_balance (db : Db) (payment : Option (Currency × ℚ)) (currency : Currency) :
    (db.pay payment).balance currency = db.balance currency - takes currency payment := by
  cases payment with
  | none => exact (sub_zero _).symm
  | some p =>
      obtain ⟨paid, price⟩ := p
      by_cases h : paid = currency
      · subst h
        simp [Db.pay, takes]
      · simp [Db.pay, takes, h, Function.update_of_ne (Ne.symm h)]

theorem incrementSoldCount_balances {cat : Catalog} {db db' : Db} {id quantity : ℕ}
    (h : incrementSoldCount cat db id quantity = some db') :
    db'.balance = db.balance ∧ db'.blkBalance = db.blkBalance := by
  obtain ⟨m, -, h⟩ := Option.bind_eq_some_iff.mp h
  split at h
  case isTrue =>
    obtain rfl := Option.some.inj h
    exact ⟨rfl, rfl⟩
  case isFalse => cases h

theorem applyMiniPassXp_balances {cat : Catalog} {now : ℕ} {db db' : Db} {id amount : ℕ}
    (h : applyMiniPassXp cat now db id amount = some db') :
    db'.balance = db.balance ∧ db'.blkBalance = db.blkBalance := by
  obtain ⟨season, -, h⟩ := Option.bind_eq_some_iff.mp h
  split at h
  case isTrue =>
    obtain rfl := Option.some.inj h
    exact ⟨rfl, rfl⟩
  case isFalse => cases h

/-- Apart from the payment a transaction leaves the balances alone, and it
credits BLK only in a conversion. -/
theorem writes_balances {cat : Catalog} {now : ℕ} {db db' : Db} {spend : Spend}
    (h : spend.writes cat now db = some db') :
    db'.balance = db.balance ∧ db'.blkBalance = db.blkBalance + spend.blkOut := by
  cases spend with
  | createWithdrawal amount | purchaseMiner totalPrice =>
      obtain rfl := Option.some.inj h
      exact ⟨rfl, (add_zero _).symm⟩
  | buyRoom nextRoom price =>
      simp only [Spend.writes] at h
      split at h
      case isTrue => cases h
      case isFalse =>
        obtain rfl := Option.some.inj h
        exact ⟨rfl, (add_zero _).symm⟩
  | claimEventMiner id quantity | purchaseEventMiner id quantity currency totalPrice =>
      obtain ⟨db₁, hsold, rfl⟩ := Option.map_eq_some_iff.mp h
      obtain ⟨hbal, hblk⟩ := incrementSoldCount_balances hsold
      exact ⟨hbal, hblk.trans (add_zero _).symm⟩
  | purchaseMiniPass id xp price =>
      obtain ⟨hbal, hblk⟩ := applyMiniPassXp_balances h
      exact ⟨hbal, hblk.trans (add_zero _).symm⟩
  | convertPolToBlk polGross blkOut =>
      obtain rfl := Option.some.inj h
      exact ⟨rfl, rfl⟩

theorem commit_balance {cat : Catalog} {now : ℕ} {db db' : Db} {spend : Spend}
    (h : spend.commit cat now db = some db') (currency : Currency) :
    db'.balance currency = db.balance currency - takes currency spend.payment := by
  obtain ⟨db₁, hw, rfl⟩ := Option.map_eq_some_iff.mp h
  rw [pay_balance, (writes_balances hw).1]

theorem commit_blkBalance {cat : Catalog} {now : ℕ} {db db' : Db} {spend : Spend}
    (h : spend.commit cat now db = some db') :
    db'.blkBalance = db.blkBalance + spend.blkOut := by
  obtain ⟨db₁, hw, rfl⟩ := Option.map_eq_some_iff.mp h
  rw [pay_blkBalance, (writes_balances hw).2]

/-- The balance a transaction leaves is non-negative exactly when it was
enough at the commit. -/
theorem commit_nonneg_iff {cat : Catalog} {now : ℕ} {db db' : Db} {spend : Spend}
    (h : spend.commit cat now db = some db') (currency : Currency) :
    0 ≤ db'.balance currency ↔ takes currency spend.payment ≤ db.balance currency := by
  rw [commit_balance h, sub_nonneg]

/-! ## Runs -/

/-- Where the step takes a payment off the balance, the balance is still at
least what the check of that payment has read. -/
def ChecksStand (currency : Currency) (db : Db) : Call → Answer → Prop
  | .commit spend seen, .ok _ =>
      ∀ p ∈ spend.payment, p.1 = currency → seen ≤ db.balance currency
  | _, _ => True

instance (currency : Currency) (db : Db) : ∀ c a, Decidable (ChecksStand currency db c a)
  | .commit spend seen, .ok _ =>
      inferInstanceAs
        (Decidable (∀ p ∈ spend.payment, p.1 = currency → seen ≤ db.balance currency))
  | .commit _ _, .error => inferInstanceAs (Decidable True)
  | .withdrawalUser _, _ | .roomUser _ _, _ | .eventClaims _ _, _ | .eventUser _ _, _
  | .levelsEnrollment _ _ _, _ | .completeEnrollment _ _, _ | .convertLast _ _ _, _
  | .convertDaily _ _ _, _ => inferInstanceAs (Decidable True)

/-- A payment that was checked, and whose check still stands, is covered. -/
theorem Checked.takes_le {currency : Currency} {db : Db} {spend : Spend} {seen : ℚ} {now : ℕ}
    (hc : Checked (.commit spend seen))
    (hstand : ChecksStand currency db (.commit spend seen) (.ok now))
    (hbal : 0 ≤ db.balance currency) : takes currency spend.payment ≤ db.balance currency := by
  cases hp : spend.payment with
  | none => exact hbal
  | some p =>
      obtain ⟨paid, price⟩ := p
      by_cases hpaid : paid = currency
      · calc takes currency (some (paid, price)) = price := if_pos hpaid
          _ ≤ seen := hc.1 _ hp
          _ ≤ db.balance currency := hstand _ hp hpaid
      · calc takes currency (some (paid, price)) = 0 := if_neg hpaid
          _ ≤ db.balance currency := hbal

/-- The database a call leaves: the one it found, or the one of its commit. -/
theorem resume_cases {cat : Catalog} {db db' : Db} {c : Call} {a : Answer} {next : Option Call}
    (h : resume cat db c a = some (db', next)) :
    (db' = db ∧ ∀ c' ∈ next, ∃ now, query cat db now c = .ok c')
      ∨ ∃ spend seen now, c = .commit spend seen ∧ a = .ok now ∧ next = none
          ∧ spend.commit cat now db = some db' := by
  cases a with
  | error =>
      have herr : resume cat db c .error = some (db, none) := by cases c <;> rfl
      obtain ⟨rfl, rfl⟩ := Prod.mk.inj (Option.some.inj (herr.symm.trans h))
      exact Or.inl ⟨rfl, fun _ hnext => by cases hnext⟩
  | ok now =>
      cases c with
      | commit spend seen =>
          obtain ⟨hdb, rfl⟩ := Prod.mk.inj (Option.some.inj h)
          cases hcommit : spend.commit cat now db with
          | none =>
              rw [hcommit] at hdb
              exact Or.inl ⟨hdb.symm, fun _ hnext => by cases hnext⟩
          | some db₁ =>
              rw [hcommit] at hdb
              obtain rfl : db₁ = db' := hdb
              exact Or.inr ⟨spend, seen, now, rfl, rfl, rfl, hcommit⟩
      | _ =>
          obtain ⟨rfl, rfl⟩ := Prod.mk.inj (Option.some.inj h)
          exact Or.inl ⟨rfl, fun c' hnext => ⟨now, toOption_eq_some.mp hnext⟩⟩

section Runs

variable {cat : Catalog} {s t : InFlight Db Call} {es : List (Event Request Answer)}

/-- **Step lemmas.** Starting a request reads only, and what goes in flight
has passed its checks so far. -/
theorem service_start {db db' : Db} {r : Request} {cs : List Call}
    (h : (service cat).start db r = some (db', cs)) : db' = db ∧ ∀ c ∈ cs, Checked c := by
  obtain ⟨rfl, rfl⟩ := Prod.mk.inj (Option.some.inj h)
  refine ⟨rfl, fun c hc => ?_⟩
  exact start_checked (toOption_eq_some.mp (Option.mem_toList.mp hc))

/-- A step of a call keeps the balance non-negative when the check of its
payment stands. -/
theorem resume_covered {currency : Currency} {db db' : Db} {c : Call} {a : Answer}
    {next : Option Call} (hbal : 0 ≤ db.balance currency) (hc : Checked c)
    (hstand : ChecksStand currency db c a) (h : resume cat db c a = some (db', next)) :
    0 ≤ db'.balance currency ∧ ∀ c' ∈ next, Checked c' := by
  rcases resume_cases h with ⟨rfl, hnext⟩ | ⟨spend, seen, now, rfl, rfl, rfl, hcommit⟩
  · refine ⟨hbal, fun c' hc' => ?_⟩
    obtain ⟨now, hquery⟩ := hnext c' hc'
    exact query_checked hc hquery
  · exact ⟨(commit_nonneg_iff hcommit currency).mpr (hc.takes_le hstand hbal),
      fun _ hnext => by cases hnext⟩

/-- No step of a call takes BLK. -/
theorem resume_blk {db db' : Db} {c : Call} {a : Answer} {next : Option Call}
    (hblk : 0 ≤ db.blkBalance) (hc : Checked c) (h : resume cat db c a = some (db', next)) :
    0 ≤ db'.blkBalance ∧ ∀ c' ∈ next, Checked c' := by
  rcases resume_cases h with ⟨rfl, hnext⟩ | ⟨spend, seen, now, rfl, rfl, rfl, hcommit⟩
  · refine ⟨hblk, fun c' hc' => ?_⟩
    obtain ⟨now, hquery⟩ := hnext c' hc'
    exact query_checked hc hquery
  · rw [commit_blkBalance hcommit]
    exact ⟨add_nonneg hblk hc.2, fun _ hnext => by cases hnext⟩

/-- No request is in flight. -/
def Idle (s : InFlight Db Call) : Prop := ∀ i, s.calls.row i = none

/-- Every balance an offer can be paid from is covered, in runs in which
the checks on that balance stand. -/
theorem balance_covered {currency : Currency} (hidle : Idle s)
    (hbal : 0 ≤ s.db.balance currency)
    (hstand : (service cat).sys.Meets (Service.Guard (ChecksStand currency)) s es)
    (hrun : (service cat).sys.run s es = some t) : 0 ≤ t.db.balance currency := by
  refine ((service cat).invariant (I := fun db => 0 ≤ db.balance currency)
    (J := fun _ c => Checked c) ?_ ?_ ⟨hbal, fun i c hc => ?_⟩ hstand hrun).1
  · intro db r db' cs hdb h
    obtain ⟨rfl, hcs⟩ := service_start h
    exact ⟨hdb, fun _ hd => hd, hcs⟩
  · intro db c a db' next hdb hc hC h
    obtain ⟨hdb', hnext⟩ := resume_covered hdb hc hC h
    exact ⟨hdb', fun _ hd => hd, hnext⟩
  · rw [hidle i] at hc
    cases hc

/-- BLK stays non-negative in every run. -/
theorem blkBalance_nonneg (hidle : Idle s) (hblk : 0 ≤ s.db.blkBalance)
    (hrun : (service cat).sys.run s es = some t) : 0 ≤ t.db.blkBalance := by
  refine ((service cat).invariant (C := fun _ _ _ => True) (I := fun db => 0 ≤ db.blkBalance)
    (J := fun _ c => Checked c) ?_ ?_ ⟨hblk, fun i c hc => ?_⟩ ?_ hrun).1
  · intro db r db' cs hdb h
    obtain ⟨rfl, hcs⟩ := service_start h
    exact ⟨hdb, fun _ hd => hd, hcs⟩
  · intro db c a db' next hdb hc _ h
    obtain ⟨hdb', hnext⟩ := resume_blk hdb hc h
    exact ⟨hdb', fun _ hd => hd, hnext⟩
  · rw [hidle i] at hc
    cases hc
  · exact (service cat).sys.meets_of_forall (fun s e => by cases e <;> simp [Service.Guard]) s es

/-- **No overdraft.** In a run in which every payment from the POL balance
is committed while that balance is at least what its check has read, POL
and BLK stay non-negative. -/
theorem spenders_covered (hidle : Idle s) (hpol : 0 ≤ s.db.balance .POL)
    (hblk : 0 ≤ s.db.blkBalance)
    (hstand : (service cat).sys.Meets (Service.Guard (ChecksStand .POL)) s es)
    (hrun : (service cat).sys.run s es = some t) :
    0 ≤ t.db.balance .POL ∧ 0 ≤ t.db.blkBalance :=
  ⟨balance_covered hidle hpol hstand hrun, blkBalance_nonneg hidle hblk hrun⟩

end Runs

/-- A shop with one miner at 60 POL, room prices, and the default BLK settings. -/
def oneShop : Catalog where
  shopMiner id := if id = 1 then some { price := 60, baseHashRate := 10, slotSize := 1 } else none
  SHOP_MAX_BULK_QUANTITY := 25
  roomPrices := [some 0, some 100, some 500, some 750]
  ROOM_MAX := 4
  eventMiner _ := none
  season _ := none
  blkEconomy :=
    { polPerBlk := 100, convertFeeBps := 500, minConvertPol := 50, dailyConvertLimitBlk := none
      convertCooldownSec := 300 }

/-- A user with 100 POL and no request in flight. -/
def oneUser : InFlight Db Call where
  db :=
    { balance := fun currency => if currency = .POL then 100 else 0, blkBalance := 0
      isBanned := false, pendingWithdrawals := [], rooms := [], soldCount := fun _ => 0
      eventPurchases := fun _ => 0, totalXp := fun _ => 0, conversions := [] }
  calls := .empty

theorem oneUser_idle : Idle oneUser := fun _ => rfl

/-- A conversion and a withdrawal in turn, then a purchase, which is refused. -/
def spentInTurn : List (Event Request Answer) :=
  [.start (.convertPolToBlk 50), .resume 1 (.ok 7), .resume 1 (.ok 7),
    .start (.createWithdrawal 50), .resume 2 (.ok 8), .resume 2 (.ok 8),
    .start (.purchaseMiner 1 1)]

theorem spenders_covered_inTurn :
    ∃ t, (service oneShop).sys.run oneUser spentInTurn = some t
      ∧ 0 ≤ t.db.balance .POL ∧ 0 ≤ t.db.blkBalance :=
  have hrun : ((service oneShop).sys.run oneUser spentInTurn).isSome := by decide +kernel
  ⟨_, (Option.some_get hrun).symm,
    spenders_covered oneUser_idle (by decide +kernel) (by decide +kernel) (by decide +kernel)
      (Option.some_get hrun).symm⟩

/-- A purchase and a withdrawal that both read the balance before either
debits it. -/
def spentTwice : List (Event Request Answer) :=
  [.start (.purchaseMiner 1 1), .start (.createWithdrawal 60), .resume 2 (.ok 7),
    .resume 1 (.ok 8), .resume 2 (.ok 9)]

theorem purchase_overdraws :
    ¬ ∀ (cat : Catalog) (s t : InFlight Db Call) (es : List (Event Request Answer)), Idle s →
        0 ≤ s.db.balance .POL → 0 ≤ s.db.blkBalance → (service cat).sys.run s es = some t →
        0 ≤ t.db.balance .POL ∧ 0 ≤ t.db.blkBalance := by
  intro h
  have hover : ∃ t ∈ (service oneShop).sys.run oneUser spentTwice, t.db.balance .POL = -20 := by
    decide +kernel
  obtain ⟨t, hrun, hbal⟩ := hover
  have hpol := (h oneShop oneUser t spentTwice oneUser_idle (by decide +kernel)
    (by decide +kernel) hrun).1
  rw [hbal] at hpol
  norm_num at hpol

end BlockMiner.Spending
