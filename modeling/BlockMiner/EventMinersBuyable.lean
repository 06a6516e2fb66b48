import BlockMiner.EventMinerAdmin
import BlockMiner.EventStockSold

/-!
# Which machines that are shown in stock can be bought

The listing and the purchase agree on the event, the stock and the claim limit. They do
not on the price: the schemas take 0 and prices that round to 0 when they are stored, and
the purchase of a machine that is not free wants one above 0.
-/

namespace BlockMiner.EventMinerAdmin

open RewardDefinitions (valid_eq_ok)
open Spending (OfferEvent isOfferEventLiveAt hasEventMinerStock)
open EventStock (Db Order Purchase Delivered EventPurchase Write available outOfStock transactions)

/-! ## A purchase on its own -/

/-- A purchase with nothing in between, up to its end; it has eight statements at most. -/
def purchaseAlone (config : EventStock.Config) (db : Db) (order : Order) (now : ℕ) : Option Db :=
  (transactions config).solo (.ok now) 8 db ⟨.findMiner order, []⟩

/-- It is a run of the purchases. -/
theorem purchaseAlone_run {config : EventStock.Config} {db db' : Db} {order : Order} {now : ℕ}
    (h : purchaseAlone config db order now = some db') :
    ∃ k calls, (transactions config).sys.run (Transactions.idle db)
        (.start order :: List.replicate k (.resume 1 (.ok now))) = some ⟨db', calls⟩
      ∧ calls.row 1 = none := by
  have hcall : (Table.empty.insert (⟨.findMiner order, []⟩ : Tx Write EventStock.Point)).row 1
      = some ⟨.findMiner order, []⟩ := rfl
  obtain ⟨k, calls, hrun, hdone⟩ :=
    (transactions config).run_solo h hcall fun j tx hj hrow => by
      rcases Table.insert_row_eq_some.mp hrow with ⟨hnew, -⟩ | hold
      · exact absurd hnew hj
      · cases hold
  exact ⟨k, calls, (System.run_cons_eq_some _).mpr ⟨_, rfl, hrun⟩, hdone⟩

section Purchases

variable {config : EventStock.Config} {db : Db} {p : Purchase}

/-- The writes of a purchase that was let through, committed. -/
def bought (db : Db) (p : Purchase) : Db := (transactions fun _ => none).applyAll db p.done

/-- From the stock on, nothing is checked that has not been checked. -/
theorem solo_readSold (now n : ℕ)
    (hstock : outOfStock p.miner (db.soldCount p.order.eventMinerId) p.order.quantity = false) :
    (transactions config).solo (.ok now) (n + 6) db ⟨.readSold p 0, []⟩ = some (bought db p) := by
  have hread : EventStock.step config (.readSold p 0) db (.ok now)
      = some (.goto (.incrementSold p 0 (db.soldCount p.order.eventMinerId))) := by
    simp [EventStock.step, hstock]
  have hsold : EventStock.step config
      (.incrementSold p 0 (db.soldCount p.order.eventMinerId)) db (.ok now)
      = some (.write (.incrementSold p.order.eventMinerId p.order.quantity)
          (if p.miner.isFree then .createPurchases p else .debitUser p)) := by
    simp [EventStock.step]
  -- the purchase rows, the machine and the commit
  have hend : ∀ k, (transactions config).solo (.ok now) (k + 3) db ⟨.createPurchases p, p.paid⟩
      = some (bought db p) := fun k =>
    Transactions.solo_write (T := transactions config) rfl <|
      Transactions.solo_write (T := transactions config) rfl <|
        Transactions.solo_commit (T := transactions config) rfl
  refine Transactions.solo_goto (T := transactions config) hread ?_
  refine Transactions.solo_write (T := transactions config) hsold ?_
  cases hfree : p.miner.isFree with
  | true =>
      have hpaid : p.paid = [.incrementSold p.order.eventMinerId p.order.quantity] := by
        simp [Purchase.paid, hfree]
      exact hpaid ▸ hend (n + 1)
  | false =>
      have hpaid : p.paid = [.incrementSold p.order.eventMinerId p.order.quantity,
          .debit p.order.userId p.currency p.totalPrice] := by
        simp [Purchase.paid, hfree]
      have hrest := hend n
      rw [hpaid] at hrest
      exact Transactions.solo_write (T := transactions config) rfl hrest

theorem purchaseAlone_free (hminer : config p.order.eventMinerId = some p.miner)
    (havailable : available p.miner (db.soldCount p.order.eventMinerId) p.now = true)
    (hfree : p.miner.isFree = true)
    (hlimit : 0 < p.miner.claimLimitPerUser →
      db.claims p.order.userId p.order.eventMinerId + p.order.quantity
        ≤ p.miner.claimLimitPerUser)
    (hstock : outOfStock p.miner (db.soldCount p.order.eventMinerId) p.order.quantity = false) :
    purchaseAlone config db p.order p.now = some (bought db p) := by
  by_cases hpos : 0 < p.miner.claimLimitPerUser
  · have hnot : ¬ p.miner.claimLimitPerUser
        < db.claims p.order.userId p.order.eventMinerId + p.order.quantity :=
      not_lt.mpr (hlimit hpos)
    have hfound : EventStock.step config (.findMiner p.order) db (.ok p.now)
        = some (.goto (.countClaims p)) := by
      simp [EventStock.step, hminer, havailable, hfree, hpos]
    have hcounted : EventStock.step config (.countClaims p) db (.ok p.now)
        = some (.goto (.readSold p 0)) := by
      simp [EventStock.step, hnot]
    exact Transactions.solo_goto (T := transactions config) hfound <|
      Transactions.solo_goto (T := transactions config) hcounted (solo_readSold p.now _ hstock)
  · have hfound : EventStock.step config (.findMiner p.order) db (.ok p.now)
        = some (.goto (.readSold p 0)) := by
      simp [EventStock.step, hminer, havailable, hfree, hpos]
    exact Transactions.solo_goto (T := transactions config) hfound (solo_readSold p.now _ hstock)

theorem purchaseAlone_paid {balance : Spending.Currency → ℚ}
    (hminer : config p.order.eventMinerId = some p.miner)
    (havailable : available p.miner (db.soldCount p.order.eventMinerId) p.now = true)
    (hfree : p.miner.isFree = false) (hprice : 0 < p.miner.price)
    (hbalance : db.balances p.order.userId = some balance)
    (hcovers : p.totalPrice ≤ balance p.currency)
    (hstock : outOfStock p.miner (db.soldCount p.order.eventMinerId) p.order.quantity = false) :
    purchaseAlone config db p.order p.now = some (bought db p) := by
  have hfound : EventStock.step config (.findMiner p.order) db (.ok p.now)
      = some (.goto (.findUser p)) := by
    simp [EventStock.step, hminer, havailable, hfree, not_le.mpr hprice]
  have hcovered : EventStock.step config (.findUser p) db (.ok p.now)
      = some (.goto (.readSold p 0)) := by
    simp [EventStock.step, hbalance, not_lt.mpr hcovers]
  exact Transactions.solo_goto (T := transactions config) hfound <|
    Transactions.solo_goto (T := transactions config) hcovered (solo_readSold p.now _ hstock)

/-- `INVALID_PRICE` -/
theorem purchaseAlone_unpriced (hminer : config p.order.eventMinerId = some p.miner)
    (hfree : p.miner.isFree = false) (hprice : p.miner.price ≤ 0) :
    purchaseAlone config db p.order p.now = some db := by
  have hrefused : EventStock.step config (.findMiner p.order) db (.ok p.now)
      = some (.rollback none) := by
    simp [EventStock.step, hminer, hfree, hprice]
  exact Transactions.solo_rollback (T := transactions config) hrefused

end Purchases

/-! ## Prices are not negative -/

theorem unsignedDecimalLiteral_nonneg {cs : List Char} {q : ℚ}
    (h : unsignedDecimalLiteral cs = .finite q) : 0 ≤ q := by
  unfold unsignedDecimalLiteral at h
  split at h
  · cases h
  · dsimp only at h
    -- with a fraction and without
    split at h
    all_goals
      split at h
      · cases h
      · split at h
        · cases h
        · obtain rfl := JsNumber.finite.inj h
          exact mul_nonneg (Nat.cast_nonneg _) (zpow_nonneg (by norm_num) _)

theorem nonDecimalLiteral_nonneg {base : ℕ} {cs : List Char} {q : ℚ}
    (h : nonDecimalLiteral base cs = .finite q) : 0 ≤ q := by
  unfold nonDecimalLiteral at h
  split at h
  · split at h
    · cases h
    · obtain rfl := JsNumber.finite.inj h
      positivity
  · cases h

theorem mem_of_mem_trimStr {cs : List Char} {c : Char} (h : c ∈ trimStr cs) : c ∈ cs := by
  have h₁ := (List.dropWhile_sublist _).mem (List.mem_reverse.mp h)
  exact (List.dropWhile_sublist _).mem (List.mem_reverse.mp h₁)

/-- Only a sign makes a number negative. -/
theorem stringToNumber_nonneg {s : String} {q : ℚ} (hs : '-' ∉ s.toList)
    (h : stringToNumber s = .finite q) : 0 ≤ q := by
  unfold stringToNumber at h
  split at h
  case h_1 => exact (JsNumber.finite.inj h).le
  case h_8 cs htrim =>
    have hmem : '-' ∈ trimStr s.toList := by simp [htrim]
    exact absurd (mem_of_mem_trimStr hmem) hs
  case h_9 | h_10 => exact unsignedDecimalLiteral_nonneg h
  all_goals exact nonDecimalLiteral_nonneg h

theorem mem_intercalate {c x : Char} {parts : List (List Char)}
    (h : c ∈ [x].intercalate parts) : c = x ∨ ∃ part ∈ parts, c ∈ part := by
  induction parts with
  | nil => cases h
  | cons part parts ih =>
      cases parts with
      | nil => exact Or.inr ⟨part, List.mem_singleton_self _, by simpa using h⟩
      | cons next rest =>
          rw [List.intercalate_cons_cons, List.mem_append, List.mem_append] at h
          rcases h with (hpart | hsep) | hrest
          · exact Or.inr ⟨part, List.mem_cons_self, hpart⟩
          · exact Or.inl (List.mem_singleton.mp hsep)
          · exact (ih hrest).imp_right fun ⟨l, hl, hc⟩ => ⟨l, List.mem_cons_of_mem _ hl, hc⟩

theorem minus_not_mem_of_isDecimalText {s : String} (h : isDecimalText s = true) :
    '-' ∉ s.toList := by
  intro hmem
  have hjoined : List.intercalate ['.'] (s.toList.splitOn '.') = s.toList :=
    List.intercalate_splitOn '.'
  rw [← hjoined] at hmem
  rcases mem_intercalate hmem with hdot | ⟨part, hpart, hminus⟩
  · cases hdot
  · simp only [isDecimalText, Bool.and_eq_true, List.all_eq_true] at h
    exact absurd ((h.2 part hpart).2 '-' hminus) (by decide)
theorem price_nonneg {value : Json JsNumber} {q : ℚ} (h : price value = some q) : 0 ≤ q := by
  unfold price at h
  split at h
  · split at h
    case isTrue hq => exact Option.some.inj h ▸ hq
    case isFalse => cases h
  · split at h
    case isTrue htext =>
      split at h
      case h_1 s q' hs =>
        obtain rfl := Option.some.inj h
        exact stringToNumber_nonneg (minus_not_mem_of_isDecimalText htext) hs
      case h_2 => cases h
    case isFalse => cases h
  · cases h

theorem storedPrice_nonneg {q : ℚ} {d : RewardDefinitions.Decimal20_8} (hq : 0 ≤ q)
    (h : storedPrice q = .ok d) : 0 ≤ d.units := by
  have hround : 0 ≤ RewardDefinitions.roundUnits q := by
    rw [RewardDefinitions.roundUnits, if_neg (not_lt.mpr hq)]
    exact Int.floor_nonneg.mpr (by positivity)
  simp only [storedPrice, RewardDefinitions.toDecimal20_8, RewardDefinitions.finite?,
    Option.bind_some, RewardDefinitions.ofUnits] at h
  split at h
  · obtain rfl := Except.ok.inj h
    exact hround
  · cases h

theorem optional_forall {α : Type} {read : Reader α} {P : α → Prop} {field : RewardDefinitions.Body}
    {r : Option α} (hread : ∀ {value a}, read value = some a → P a)
    (h : optional read field = some r) : ∀ a ∈ r, P a := by
  intro a ha
  cases field with
  | none =>
      obtain rfl := Option.some.inj h
      cases ha
  | some value =>
      obtain ⟨b, hb, rfl⟩ := Option.map_eq_some_iff.mp h
      obtain rfl := Option.some.inj ha
      exact hread hb

/-- The price that a body gives. -/
theorem MinerUpdate.price_nonneg {body : RewardDefinitions.Body} {d : MinerUpdate}
    (h : minerUpdateSchema body = some d) : ∀ q ∈ d.price, 0 ≤ q := by
  obtain ⟨fields, -, h⟩ := Option.bind_eq_some_iff.mp h
  obtain ⟨name, -, h⟩ := Option.bind_eq_some_iff.mp h
  obtain ⟨description, -, h⟩ := Option.bind_eq_some_iff.mp h
  obtain ⟨imageUrl, -, h⟩ := Option.bind_eq_some_iff.mp h
  obtain ⟨price, hprice, h⟩ := Option.bind_eq_some_iff.mp h
  obtain ⟨hashRate, -, h⟩ := Option.bind_eq_some_iff.mp h
  obtain ⟨currency, -, h⟩ := Option.bind_eq_some_iff.mp h
  obtain ⟨stockUnlimited, -, h⟩ := Option.bind_eq_some_iff.mp h
  obtain ⟨stockCount, -, h⟩ := Option.bind_eq_some_iff.mp h
  obtain ⟨slotSize, -, h⟩ := Option.bind_eq_some_iff.mp h
  obtain ⟨isActive, -, h⟩ := Option.bind_eq_some_iff.mp h
  obtain ⟨isFree, -, h⟩ := Option.bind_eq_some_iff.mp h
  obtain ⟨claimLimitPerUser, -, h⟩ := Option.bind_eq_some_iff.mp h
  obtain rfl := Option.some.inj h
  exact optional_forall EventMinerAdmin.price_nonneg hprice

theorem MinerCreate.price_nonneg {body : RewardDefinitions.Body} {d : MinerCreate}
    (h : minerCreateSchema body = some d) : 0 ≤ d.price := by
  obtain ⟨update, hupdate, h⟩ := Option.bind_eq_some_iff.mp h
  obtain ⟨name, -, h⟩ := Option.bind_eq_some_iff.mp h
  obtain ⟨description, -, h⟩ := Option.bind_eq_some_iff.mp h
  obtain ⟨price, hprice, h⟩ := Option.bind_eq_some_iff.mp h
  obtain ⟨hashRate, -, h⟩ := Option.bind_eq_some_iff.mp h
  obtain ⟨stockUnlimited, -, h⟩ := Option.bind_eq_some_iff.mp h
  dsimp only at h
  split at h
  · obtain rfl := Option.some.inj h
    exact MinerUpdate.price_nonneg hupdate price hprice
  · cases h

/-- No stored price is negative. -/
def Priced (miners : Table Row) : Prop := ∀ id m, miners.row id = some m → 0 ≤ m.price.units

theorem stored_eq_ok {row row' : Row} (h : stored row = .ok row') : row' = row := by
  unfold stored at h
  split at h
  · exact (Except.ok.inj h).symm
  · cases h

section Requests

variable {events : ℕ → Option OfferEvent} {miners miners' : Table Row}

theorem Priced.create {eventId : ℕ} {body : RewardDefinitions.Body} (hs : Priced miners)
    (h : adminCreateEventMiner events miners eventId body = .ok miners') : Priced miners' := by
  obtain ⟨event, -, h⟩ := bind_eq_ok h
  obtain ⟨d, hd, h⟩ := bind_eq_ok h
  obtain ⟨price, hprice, h⟩ := bind_eq_ok h
  obtain ⟨row, hstored, h⟩ := bind_eq_ok h
  obtain rfl := stored_eq_ok hstored
  obtain rfl := Except.ok.inj h
  intro id m hrow
  rcases Table.insert_row_eq_some.mp hrow with ⟨-, rfl⟩ | hold
  · exact storedPrice_nonneg (MinerCreate.price_nonneg (valid_eq_ok.mp hd)) hprice
  · exact hs id m hold

theorem Priced.update {eventId minerId : ℕ} {body : RewardDefinitions.Body} (hs : Priced miners)
    (h : adminUpdateEventMiner miners eventId minerId body = .ok miners') : Priced miners' := by
  obtain ⟨existing, hfound, h⟩ := bind_eq_ok h
  obtain ⟨d, hd, h⟩ := bind_eq_ok h
  obtain ⟨price, hprice, h⟩ := bind_eq_ok h
  obtain ⟨row, hstored, h⟩ := bind_eq_ok h
  obtain rfl := stored_eq_ok hstored
  obtain rfl := Except.ok.inj h
  have hnew : 0 ≤ price.units := by
    cases hgiven : d.price with
    | none =>
        obtain rfl : existing.price = price := by simpa [hgiven] using hprice
        exact hs minerId existing (Option.filter_eq_some_iff.mp (valid_eq_ok.mp hfound)).1
    | some q =>
        rw [hgiven] at hprice
        exact storedPrice_nonneg
          (MinerUpdate.price_nonneg (valid_eq_ok.mp hd) q hgiven) hprice
  exact Table.forall_modify hs fun _ _ => hnew

theorem Priced.step {request : Request} (hs : Priced miners)
    (h : (system events).step miners request = some miners') : Priced miners' := by
  have hok : handle events miners request = .ok miners' := by
    have h' : (handle events miners request).toOption = some miners' := h
    generalize handle events miners request = answer at h'
    cases answer with
    | error refusal => cases h'
    | ok next => exact congrArg Except.ok (Option.some.inj h')
  cases request with
  | create eventId body => exact hs.create hok
  | update eventId minerId body => exact hs.update hok

theorem priced_of_run {requests : List Request}
    (hrun : (system events).run Table.empty requests = some miners) : Priced miners := by
  have hempty : Priced Table.empty := fun _ _ hrow => nomatch hrow
  exact (system events).run_kept (fun _ _ _ hs h => hs.step h) hempty hrun

end Requests

/-! ## Shown and sold -/

/-- The machine as the listing shows it to a user. -/
def shownTo (db : Db) (userId id : ℕ) (m : Row) (event : OfferEvent) : PublicMiner :=
  serializeMinerPublic m event (db.soldCount id) (db.claims userId id)

def PublicMiner.charge (shown : PublicMiner) : ℚ := if shown.isFree then 0 else shown.price

/-- One unit, for exactly what was shown. -/
structure Sold (userId id eventId now : ℕ) (shown : PublicMiner) (db db' : Db) : Prop where
  balances : db'.balances = Function.update db.balances userId
    ((db.balances userId).map fun balance =>
      Function.update balance shown.currency (balance shown.currency - shown.charge))
  soldCount : db'.soldCount = Function.update db.soldCount id (db.soldCount id + 1)
  eventPurchases : db'.eventPurchases =
    ⟨userId, eventId, id, shown.charge, shown.currency⟩ :: db.eventPurchases
  machines : ∃ machine : LevelRewards.Machine, machine.minerName = "[Event] " ++ shown.name
    ∧ machine.hashRate = shown.hashRate ∧ machine.slotSize = (if shown.slotSize = 2 then 2 else 1)
    ∧ db'.machines = ⟨userId, id, machine⟩ :: db.machines

section Sale

variable {events : ℕ → Option OfferEvent} {miners : Table Row} {db : Db} {userId id now : ℕ}
variable {m : Row} {event : OfferEvent}

/-- The purchase of one unit that has found its machine. -/
def unit (userId id now : ℕ) (m : Row) (event : OfferEvent) : Purchase :=
  ⟨⟨userId, id, 1⟩, m.eventMiner event, now⟩

theorem sold_bought :
    Sold userId id m.eventId now (shownTo db userId id m event) db
      (bought db (unit userId id now m event)) := by
  have hslot : (unit userId id now m event).delivered.machine.slotSize
      = if m.slotSize = 2 then 2 else 1 := by
    show (if (m.slotSize : ℤ) = 2 then 2 else 1) = _
    norm_cast
  refine ⟨?_, ?_, ?_, (unit userId id now m event).delivered.machine, rfl, rfl, hslot, ?_⟩ <;>
    cases hfree : m.isFree <;>
    simp [bought, Purchase.done, Purchase.created, Purchase.paid, unit, Row.eventMiner, hfree,
      Transactions.applyAll, transactions, EventStock.apply, shownTo, serializeMinerPublic,
      PublicMiner.charge, Purchase.row, Purchase.currency, Purchase.delivered, Purchase.slotSize,
      Purchase.totalPrice, Spending.normalizeOfferCurrency]

theorem sells_as_shown_iff {requests : List Request} {balance : Spending.Currency → ℚ}
    (hrun : (system events).run Table.empty requests = some miners)
    (hrow : miners.row id = some m) (hevent : events m.eventId = some event)
    (hlive : isOfferEventLiveAt now event = true)
    (hstock : (shownTo db userId id m event).inStock = true)
    (hbalance : db.balances userId = some balance)
    (hcovers : (shownTo db userId id m event).charge
      ≤ balance (shownTo db userId id m event).currency)
    (hlimit : (shownTo db userId id m event).isFree = true →
      0 < (shownTo db userId id m event).claimLimitPerUser →
      (shownTo db userId id m event).userClaimCount
        < (shownTo db userId id m event).claimLimitPerUser) :
    (∃ db', purchaseAlone (config events miners) db ⟨userId, id, 1⟩ now = some db'
        ∧ Sold userId id m.eventId now (shownTo db userId id m event) db db')
      ↔ m.isFree = true ∨ m.price.units ≠ 0 := by
  have hminer : config events miners id = some (m.eventMiner event) := by
    simp [config, hrow, hevent]
  have hdeleted : event.deleted = false := by
    simp only [isOfferEventLiveAt, Bool.and_eq_true, Bool.not_eq_true'] at hlive
    exact hlive.1.1.1
  have havailable : available (m.eventMiner event) (db.soldCount id) now = true := by
    have hshown : hasEventMinerStock (m.eventMiner event).toEventMiner (db.soldCount id) = true :=
      hstock
    have hexists : (m.eventMiner event).event.deleted = false := hdeleted
    have hon : isOfferEventLiveAt now (m.eventMiner event).event = true := hlive
    have hactive : (m.eventMiner event).isActive = true := (Bool.and_eq_true_iff.mp hshown).1
    rw [available, hexists, hon, hactive, hshown]
    rfl
  have hleft : outOfStock (m.eventMiner event) (db.soldCount id) 1 = false := by
    have hshown : (m.stockUnlimited || m.stockCount.any (db.soldCount id < ·)) = true :=
      (Bool.and_eq_true_iff.mp hstock).2
    cases hunlimited : m.stockUnlimited with
    | true => simp [outOfStock, Row.eventMiner, hunlimited]
    | false =>
        obtain ⟨stockCount, hcount, hsold⟩ : ∃ n, m.stockCount = some n ∧ db.soldCount id < n := by
          simpa [hunlimited, Option.any_eq_true] using hshown
        simp [outOfStock, Row.eventMiner, hunlimited, hcount]
        omega
  constructor
  · rintro ⟨db', hbought, hsold⟩
    by_contra hnot
    obtain ⟨hfree, hprice⟩ := not_or.mp hnot
    have hfalse : m.isFree = false := Bool.eq_false_iff.mpr hfree
    have hzero : (m.eventMiner event).price = 0 := by
      simp [Row.eventMiner, not_not.mp hprice]
    have hsame : purchaseAlone (config events miners) db ⟨userId, id, 1⟩ now = some db :=
      purchaseAlone_unpriced (p := unit userId id now m event) hminer hfalse hzero.le
    obtain rfl : db = db' := Option.some.inj (hsame.symm.trans hbought)
    -- nothing was sold
    have hcount := congrFun hsold.soldCount id
    simp at hcount
  · intro hcondition
    refine ⟨bought db (unit userId id now m event), ?_, sold_bought⟩
    cases hfree : m.isFree with
    | true =>
        exact purchaseAlone_free (p := unit userId id now m event) hminer havailable hfree
          (fun hpos => hlimit hfree hpos) hleft
    | false =>
        have hunits : 0 < m.price.units := by
          have hnonneg := priced_of_run hrun id m hrow
          have hne := hcondition.resolve_left (Bool.eq_false_iff.mp hfree)
          omega
        have hprice : 0 < (m.eventMiner event).price :=
          div_pos (Int.cast_pos.mpr hunits) (by norm_num)
        refine purchaseAlone_paid (p := unit userId id now m event) hminer havailable hfree hprice
          hbalance ?_ hleft
        have htotal : (shownTo db userId id m event).charge
            = (unit userId id now m event).totalPrice := by
          simp [PublicMiner.charge, shownTo, serializeMinerPublic, hfree, Purchase.totalPrice,
            unit, Row.eventMiner]
        exact htotal ▸ hcovers

end Sale

/-! ## Two machines -/

/-- One event, without an end in sight. -/
def openEvent : ℕ → Option OfferEvent := fun _ => some ⟨0, 100, true, false⟩

/-- A machine with an unlimited stock. -/
def machineBody (price : Json JsNumber) : Json JsNumber :=
  .object [("name", .string "Rig"), ("description", .string "A rig."), ("price", price),
    ("hashRate", .number (.finite 5)), ("stockUnlimited", .bool true)]

def created (price : Json JsNumber) : Option (Table Row) :=
  (system openEvent).run Table.empty [.create 1 (some (machineBody price))]

/-- The machine that was created. -/
def machine? (price : Json JsNumber) : Option Row := (created price).bind (·.row 1)

theorem created_eq {price : Json JsNumber} {m : Row} (h : machine? price = some m) :
    ∃ miners, created price = some miners ∧ miners.row 1 = some m :=
  Option.bind_eq_some_iff.mp h

/-- A machine for 2.5 POL. -/
def pricedMachine : Row := (machine? (.string "2.5")).get (by decide +kernel)

/-- A machine for 0 POL. -/
def unpricedMachine : Row := (machine? (.number (.finite 0))).get (by decide +kernel)

/-- A user with 5 POL. -/
def funded : Db where
  balances := fun _ => some fun _ => 5
  soldCount := fun _ => 0
  eventPurchases := []
  machines := []

theorem sells_as_shown_iff_priced :
    ∃ miners, created (.string "2.5") = some miners ∧ miners.row 1 = some pricedMachine
      ∧ ∃ db', purchaseAlone (config openEvent miners) funded ⟨7, 1, 1⟩ 50 = some db'
        ∧ Sold 7 1 pricedMachine.eventId 50
          (shownTo funded 7 1 pricedMachine ⟨0, 100, true, false⟩) funded db' := by
  obtain ⟨miners, hrun, hrow⟩ := created_eq (m := pricedMachine) (Option.some_get _).symm
  exact ⟨miners, hrun, hrow, (sells_as_shown_iff hrun hrow rfl (by decide) (by decide +kernel) rfl
    (by decide +kernel) (by decide +kernel)).mpr (Or.inr (by decide +kernel))⟩

/-- The listing shows a machine for 0 POL in stock, and a purchase changes nothing. -/
theorem shown_for_nothing :
    ∃ miners, created (.number (.finite 0)) = some miners ∧ miners.row 1 = some unpricedMachine
      ∧ (shownTo funded 7 1 unpricedMachine ⟨0, 100, true, false⟩).inStock = true
      ∧ (shownTo funded 7 1 unpricedMachine ⟨0, 100, true, false⟩).charge = 0
      ∧ purchaseAlone (config openEvent miners) funded ⟨7, 1, 1⟩ 50 = some funded
      ∧ ¬∃ db', purchaseAlone (config openEvent miners) funded ⟨7, 1, 1⟩ 50 = some db'
        ∧ Sold 7 1 unpricedMachine.eventId 50
          (shownTo funded 7 1 unpricedMachine ⟨0, 100, true, false⟩) funded db' := by
  obtain ⟨miners, hrun, hrow⟩ := created_eq (m := unpricedMachine) (Option.some_get _).symm
  have hminer : config openEvent miners 1
      = some (unpricedMachine.eventMiner ⟨0, 100, true, false⟩) := by
    rw [config, hrow]
    rfl
  have hsame : purchaseAlone (config openEvent miners) funded ⟨7, 1, 1⟩ 50 = some funded :=
    purchaseAlone_unpriced (p := unit 7 1 50 unpricedMachine ⟨0, 100, true, false⟩) hminer
      (by decide +kernel) (by decide +kernel)
  refine ⟨miners, hrun, hrow, by decide +kernel, by decide +kernel, hsame, ?_⟩
  rintro ⟨db', hbought, hsold⟩
  obtain rfl := Option.some.inj (hsame.symm.trans hbought)
  have hcount := congrFun hsold.soldCount 1
  cases hcount

end BlockMiner.EventMinerAdmin
