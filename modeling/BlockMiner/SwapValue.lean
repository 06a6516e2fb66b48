import BlockMiner.EngineFacts
import BlockMiner.Swap
import Mathlib.Tactic.FieldSimp
import Mathlib.Tactic.Linarith
import Mathlib.Tactic.Ring

/-!
# What a swap moves

A swap moves an amount of one asset and its equivalent of the other, in the
direction the sign of the amount says. `executeSwap` compares the amount with
the balance of the source only, which covers the swap for a positive amount
and nothing for a negative one: then the other balance pays, unchecked. An
amount of zero, `null` or the empty text for one, is a swap that moves nothing.

`exchanged_iff` is the arithmetic of one swap and `fair_iff` the case analysis
of one request; the run is carried by the balances being non-negative.
-/

namespace BlockMiner.Swap

/-! ## What is claimed of a request -/

def Balances.Nonneg (b : Balances) : Prop := 0 ≤ b.polBalance ∧ 0 ≤ b.usdcBalance

/-- The value in USDC. -/
def Balances.value (rate : ℚ) (b : Balances) : ℚ := b.polBalance * rate + b.usdcBalance

/-- A positive amount of an asset the user held is taken, and at most its
equivalent of the other one is given. -/
def Exchanged (rate : ℚ) (b b' : Balances) : Prop :=
  ∃ fromPol, 0 < b.source fromPol - b'.source fromPol
    ∧ b.source fromPol - b'.source fromPol ≤ b.source fromPol
    ∧ b'.target fromPol - b.target fromPol
      ≤ convert rate fromPol (b.source fromPol - b'.source fromPol)

def engineBalance (s : State) (u : UserId) : Option ℚ :=
  (s.engine.findMinerByUserId u).map (·.balance)

variable (runtimeSet : Bool)

/-- A successful request is an exchange that conserves value; a rejected one
changes neither the database nor a balance in the engine. -/
def Fair (s : State) (r : Request) : Prop :=
  match executeSwap runtimeSet s r with
  | (s', .ok reply) => ∃ b b', s.db.users r.userId = some b ∧ s'.db.users r.userId = some b'
      ∧ Exchanged reply.rate b b' ∧ b'.Nonneg ∧ b'.value reply.rate ≤ b.value reply.rate
      ∧ ∀ u, u ≠ r.userId → s'.db.users u = s.db.users u
  | (s', .error _) => s'.db = s.db ∧ ∀ u, engineBalance s' u = engineBalance s u

/-! ## When it holds -/

/-- The update of a request that gets past it: the balances it found, the
amount, the output, and the balances it writes. -/
def updated (s : State) (r : Request) : Option (Balances × ℚ × ℚ × Balances) :=
  let rate := (getPolUsdPrice s.priceCache r.now r.fetched).1.val
  if r.failsAt = some .findUnique ∨ r.failsAt = some .update then none
  else (s.db.users r.userId).bind fun b =>
    if (Number r.body.amount).above (b.source r.body.fromPol) then none
    else (planned b rate r.body.fromPol (Number r.body.amount)).map (Prod.mk b)

/-- Past its update the amount of a request is positive, or negative and
covered by the other balance, and the transaction does not fail, or fails
before the audit row with no loaded miner to be moved. -/
def Sound (s : State) (r : Request) : Prop :=
  ∀ b amount credit b', updated s r = some (b, amount, credit, b') →
    r.failsAt ≠ some .commit
    ∧ (r.failsAt = some .createAuditLog → runtimeSet = false
      ∨ s.engine.findMinerByUserId r.userId = none ∨ polDelta r.body.fromPol amount credit = 0)
    ∧ (r.failsAt = none → 0 < amount ∨ amount < 0 ∧ -credit ≤ b.target r.body.fromPol)

instance (s : State) (r : Request) : Decidable (Sound runtimeSet s r) :=
  decidable_of_iff
    (∀ x ∈ updated s r, r.failsAt ≠ some .commit
      ∧ (r.failsAt = some .createAuditLog → runtimeSet = false
        ∨ s.engine.findMinerByUserId r.userId = none ∨ polDelta r.body.fromPol x.2.1 x.2.2.1 = 0)
      ∧ (r.failsAt = none → 0 < x.2.1 ∨ x.2.1 < 0 ∧ -x.2.2.1 ≤ x.1.target r.body.fromPol))
    ⟨fun h b amount credit b' hx => h (b, amount, credit, b') hx, fun h _ hx => h _ _ _ _ hx⟩

/-! ## The arithmetic of one swap -/

theorem convert_zero (rate : ℚ) (f : Bool) : convert rate f 0 = 0 := by
  cases f <;> simp [convert]

theorem convert_neg (rate : ℚ) (f : Bool) (x : ℚ) : convert rate f (-x) = -convert rate f x := by
  cases f
  · simp [convert, neg_div]
  · simp [convert]

theorem convert_pos {rate x : ℚ} (hrate : 0 < rate) (f : Bool) (hx : 0 < x) :
    0 < convert rate f x := by
  cases f
  · exact div_pos hx hrate
  · exact mul_pos hx hrate

/-- Converting back. -/
theorem convert_convert {rate : ℚ} (hrate : 0 < rate) (f : Bool) (x : ℚ) :
    convert rate (!f) (convert rate f x) = x := by
  cases f
  · exact div_mul_cancel₀ x hrate.ne'
  · exact mul_div_cancel_right₀ x hrate.ne'

@[simp] theorem source_moved (b : Balances) (f : Bool) (x y : ℚ) :
    (moved b f x y).source f = b.source f - x := by
  cases f <;> rfl

@[simp] theorem target_moved (b : Balances) (f : Bool) (x y : ℚ) :
    (moved b f x y).target f = b.target f + y := by
  cases f <;> rfl

theorem source_not (b : Balances) (f : Bool) : b.source (!f) = b.target f := rfl

theorem target_not (b : Balances) (f : Bool) : b.target (!f) = b.source f := by
  cases f <;> rfl

theorem nonneg_iff (b : Balances) (f : Bool) : b.Nonneg ↔ 0 ≤ b.source f ∧ 0 ≤ b.target f := by
  cases f
  · exact and_comm
  · exact Iff.rfl

theorem value_moved {rate : ℚ} (hrate : 0 < rate) (b : Balances) (f : Bool) (x : ℚ) :
    (moved b f x (convert rate f x)).value rate = b.value rate := by
  cases f
  · simp only [moved, convert, Balances.value, Bool.false_eq_true, if_false]
    field_simp
    ring
  · simp only [moved, convert, Balances.value, if_true]
    ring

/-- An amount the source covers is exchanged, with no balance left negative,
if and only if it is positive or the other balance covers what it takes. -/
theorem exchanged_iff {rate amount : ℚ} {b : Balances} {f : Bool} (hrate : 0 < rate)
    (hb : b.Nonneg) (hamount : amount ≤ b.source f) :
    Exchanged rate b (moved b f amount (convert rate f amount))
        ∧ (moved b f amount (convert rate f amount)).Nonneg
      ↔ 0 < amount ∨ amount < 0 ∧ -convert rate f amount ≤ b.target f := by
  obtain ⟨hsource, htarget⟩ := (nonneg_iff b f).mp hb
  rw [nonneg_iff _ f, source_moved, target_moved]
  constructor
  · rintro ⟨⟨g, hpos, -, -⟩, -, hnonneg⟩
    rcases lt_trichotomy amount 0 with hneg | rfl | hpos'
    · exact Or.inr ⟨hneg, by linarith⟩
    · -- nothing is taken from either side
      have hstill : moved b f 0 (convert rate f 0) = b := by
        rw [convert_zero]
        cases f <;> simp [moved]
      rw [hstill, sub_self] at hpos
      exact absurd hpos (lt_irrefl 0)
    · exact Or.inl hpos'
  · rintro (hpos | ⟨hneg, hcovered⟩)
    · have hcredit := convert_pos hrate f hpos
      refine ⟨⟨f, ?_, ?_, ?_⟩, by linarith, by linarith⟩
      · rw [source_moved]
        linarith
      · rw [source_moved]
        linarith
      · rw [source_moved, target_moved, sub_sub_cancel, add_sub_cancel_left]
    · -- the other asset is taken
      have hcredit := convert_pos hrate f (neg_pos.mpr hneg)
      rw [convert_neg] at hcredit
      refine ⟨⟨!f, ?_, ?_, ?_⟩, by linarith, by linarith⟩
      · rw [source_not, source_not, target_moved]
        linarith
      · rw [source_not, source_not, target_moved]
        linarith
      · rw [source_not, source_not, target_not, target_not, source_moved, target_moved,
          sub_add_cancel_left, ← convert_neg, convert_convert hrate]
        linarith

/-! ## One request -/

theorem planned_eq_some {b b' : Balances} {rate amount credit : ℚ} {f : Bool} {x : JsNumber}
    (h : planned b rate f x = some (amount, credit, b')) :
    x = .finite amount ∧ credit = convert rate f amount ∧ b' = moved b f amount credit := by
  unfold planned at h
  split at h
  case h_1 a c hc =>
    dsimp only at h
    split at h
    case isTrue =>
      obtain ⟨rfl, rfl, rfl⟩ := h
      refine ⟨rfl, ?_, rfl⟩
      cases f
      · exact (JsNumber.finite.inj hc).symm
      · exact (JsNumber.finite.inj hc).symm
    case isFalse => cases h
  case h_2 => cases h

/-- What is known of an update that is made. -/
theorem updated_eq_some {s : State} {r : Request} {b b' : Balances} {amount credit : ℚ}
    (h : updated s r = some (b, amount, credit, b')) :
    s.db.users r.userId = some b ∧ amount ≤ b.source r.body.fromPol
      ∧ credit = convert (getPolUsdPrice s.priceCache r.now r.fetched).1.val r.body.fromPol amount
      ∧ b' = moved b r.body.fromPol amount credit := by
  unfold updated at h
  split at h
  case isTrue => cases h
  case isFalse =>
    obtain ⟨b₀, hb, h⟩ := Option.bind_eq_some_iff.mp h
    split at h
    case isTrue => cases h
    case isFalse habove =>
      obtain ⟨⟨a, c, b₁⟩, hplan, h⟩ := Option.map_eq_some_iff.mp h
      obtain ⟨rfl, rfl, rfl, rfl⟩ := h
      obtain ⟨hx, hc, hb'⟩ := planned_eq_some hplan
      refine ⟨hb, ?_, hc, hb'⟩
      rw [hx] at habove
      simpa [JsNumber.above] using habove

/-- A request that does not get past its update only refreshes the price. -/
theorem executeSwap_refused {s : State} {r : Request} (h : updated s r = none) :
    ∃ e, executeSwap runtimeSet s r
      = ({ s with priceCache := (getPolUsdPrice s.priceCache r.now r.fetched).2 }, .error e) := by
  unfold updated at h
  unfold executeSwap
  dsimp only at h ⊢
  split
  case isTrue => exact ⟨_, rfl⟩
  case isFalse hfind =>
    cases hu : s.db.users r.userId with
    | none => exact ⟨_, rfl⟩
    | some b =>
        dsimp only
        split
        case isTrue => exact ⟨_, rfl⟩
        case isFalse habove =>
          cases hplan : planned b (getPolUsdPrice s.priceCache r.now r.fetched).1.val
              r.body.fromPol (Number r.body.amount) with
          | none => exact ⟨_, rfl⟩
          | some plan =>
              have hupdate : r.failsAt = some .update := by
                by_contra hne
                rw [if_neg (by simp [hfind, hne]), hu, Option.bind_some, if_neg habove, hplan] at h
                cases h
              dsimp only
              rw [if_pos hupdate]
              exact ⟨_, rfl⟩

/-- A request that gets past its update, by where it fails. -/
theorem executeSwap_updated {s : State} {r : Request} {b b' : Balances} {amount credit : ℚ}
    (h : updated s r = some (b, amount, credit, b')) :
    let price := getPolUsdPrice s.priceCache r.now r.fetched
    let engine := Engine.applyUserBalanceDelta runtimeSet s.engine r.userId
      (polDelta r.body.fromPol amount credit)
    let auditLogs := ⟨r.userId, r.body, amount, credit, price.1.val⟩ :: s.db.auditLogs
    executeSwap runtimeSet s r =
      if r.failsAt = some .createAuditLog then
        ({ s with priceCache := price.2, engine }, .error .databaseError)
      else if r.failsAt = some .commit then
        ({ priceCache := price.2, db := { s.db with auditLogs }, engine }, .error .databaseError)
      else
        ({ priceCache := price.2, engine
           db := { users := Function.update s.db.users r.userId (some b'), auditLogs } },
          .ok ⟨price.1.val, credit⟩) := by
  unfold updated at h
  unfold executeSwap
  dsimp only at h ⊢
  split at h
  case isTrue => cases h
  case isFalse hfails =>
    obtain ⟨hfind, hupdate⟩ := not_or.mp hfails
    obtain ⟨b₀, hb, h⟩ := Option.bind_eq_some_iff.mp h
    split at h
    case isTrue => cases h
    case isFalse habove =>
      obtain ⟨⟨a, c, b₁⟩, hplan, h⟩ := Option.map_eq_some_iff.mp h
      obtain ⟨rfl, rfl, rfl, rfl⟩ := h
      rw [if_neg hfind, hb]
      dsimp only
      rw [if_neg habove, hplan]
      dsimp only
      rw [if_neg hupdate]

/-- The engine is left alone by a delta that meets no loaded miner, or is zero. -/
theorem engineBalance_delta_iff (e : Engine) (u : UserId) (delta : ℚ) :
    (∀ v, ((e.applyUserBalanceDelta runtimeSet u delta).findMinerByUserId v).map (·.balance)
        = (e.findMinerByUserId v).map (·.balance))
      ↔ runtimeSet = false ∨ e.findMinerByUserId u = none ∨ delta = 0 := by
  cases runtimeSet with
  | false => exact iff_of_true (fun _ => rfl) (Or.inl rfl)
  | true =>
      cases hm : e.findMinerByUserId u with
      | none =>
          refine iff_of_true (fun v => ?_) (Or.inr (Or.inl rfl))
          simp only [Engine.applyUserBalanceDelta, hm]
      | some m =>
          obtain ⟨hminer, hu⟩ := Engine.find_eq_some_iff.mp hm
          simp only [Engine.applyUserBalanceDelta, hm, Engine.find_modifyMiner hminer,
            Bool.true_eq_false, reduceCtorEq, false_or]
          constructor
          · intro h
            have hself := h u
            rw [if_pos hu.symm, hm] at hself
            simpa [Engine.shifted] using hself
          · rintro rfl v
            split
            case isTrue hv =>
              rw [hv, hu, hm]
              simp [Engine.shifted]
            case isFalse => rfl

/-- **One request.** -/
theorem fair_iff {s : State} {r : Request} (hs : ∀ u b, s.db.users u = some b → b.Nonneg) :
    Fair runtimeSet s r ↔ Sound runtimeSet s r := by
  cases hup : updated s r with
  | none =>
      obtain ⟨e, he⟩ := executeSwap_refused runtimeSet hup
      refine iff_of_true ?_ ?_
      · rw [Fair, he]
        exact ⟨rfl, fun _ => rfl⟩
      · intro b amount credit b' h
        rw [hup] at h
        cases h
  | some x =>
      obtain ⟨b, amount, credit, b'⟩ := x
      obtain ⟨hb, hamount, rfl, rfl⟩ := updated_eq_some hup
      have hsound : Sound runtimeSet s r ↔ _ :=
        ⟨fun h => h _ _ _ _ hup, fun h b₀ a₀ c₀ b₀' h₀ => by
          obtain ⟨rfl, rfl, rfl, rfl⟩ := hup.symm.trans h₀
          exact h⟩
      rw [hsound, Fair, executeSwap_updated runtimeSet hup]
      rcases hfails : r.failsAt with - | await
      · -- the request succeeds
        have hexchange := exchanged_iff (getPolUsdPrice s.priceCache r.now r.fetched).1.2
          (hs _ _ hb) hamount
        simp only [reduceCtorEq, if_false, ne_eq, not_false_eq_true, false_imp_iff, true_and,
          forall_const, ← hexchange]
        constructor
        · rintro ⟨b₀, b₁, hb₀, hb₁, hex, hnonneg, -, -⟩
          obtain rfl := Option.some.inj (hb.symm.trans hb₀)
          rw [Function.update_self] at hb₁
          obtain rfl := Option.some.inj hb₁
          exact ⟨hex, hnonneg⟩
        · rintro ⟨hex, hnonneg⟩
          exact ⟨b, _, hb, Function.update_self .., hex, hnonneg,
            (value_moved (getPolUsdPrice s.priceCache r.now r.fetched).1.2 ..).le,
            fun u hu => Function.update_of_ne hu ..⟩
      · cases await with
        | findUnique => simp [updated, hfails] at hup
        | update => simp [updated, hfails] at hup
        | createAuditLog =>
            simpa [engineBalance] using engineBalance_delta_iff runtimeSet s.engine r.userId _
        | commit =>
            -- the audit row stays
            refine iff_of_false (fun h => ?_) (fun h => h.1 rfl)
            simp at h
            have hlogs := congrArg Db.auditLogs h.1
            exact absurd hlogs (List.cons_ne_self _ _)

/-! ## Sequences of requests -/

/-- Swaps that meet the condition leave no balance negative. -/
theorem nonneg_step {s s' : State} {r : Request} (hs : ∀ u b, s.db.users u = some b → b.Nonneg)
    (hfair : Fair runtimeSet s r) (h : (sys runtimeSet).step s r = some s') :
    ∀ u b, s'.db.users u = some b → b.Nonneg := by
  obtain rfl := Option.some.inj h
  intro u b hu
  rw [Fair] at hfair
  split at hfair
  case h_1 s' reply heq =>
    rw [heq] at hu
    obtain ⟨-, b', -, hb', -, hnonneg, -, hothers⟩ := hfair
    by_cases hru : u = r.userId
    · rw [hru, hb'] at hu
      exact Option.some.inj hu ▸ hnonneg
    · exact hs u b (hothers u hru ▸ hu)
  case h_2 s' e heq =>
    rw [heq, hfair.1] at hu
    exact hs u b hu

end BlockMiner.Swap
