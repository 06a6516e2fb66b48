import BlockMiner.MiniPassPurchases

/-!
# The keys of purchases are new

The grant of a purchase is entered under a key that carries the id of the
purchase, and a grant whose key is taken rolls the purchase back. Ids come
from a sequence, so no key of a purchase to come is in the ledger: what is
there, or pending, or still to be entered has an id that the sequence has
handed out (`Spent`). The missions have keys of their own, and a call from
elsewhere must not make up the key of a purchase (`OwnKeys`).
-/

namespace BlockMiner.MiniPass

variable (config : Config)

/-! ## Keys -/

/-- The key of the grant of a purchase of levels, or of the rest of the pass. -/
def purchaseKey (levels : Bool) (id : ℕ) : String :=
  (if levels then "mini-pass-buy-level-" else "mini-pass-complete-") ++ toString id

theorem xpCall_idempotencyKey (sale : Sale) (id : ℕ) :
    (sale.xpCall id).idempotencyKey = purchaseKey sale.order.quantity.isSome id := rfl

theorem toString_inj {m n : ℕ} (h : toString m = toString n) : m = n := by
  have hdigits : Nat.toDigits 10 m = Nat.toDigits 10 n :=
    String.ofList_injective h
  rw [← Nat.ofDigitChars_ten_toDigits (n := m), hdigits, Nat.ofDigitChars_ten_toDigits]

/-- What a text begins with is told from its first characters. -/
theorem take_append {p : String} (hp : 11 ≤ p.length) (t : String) :
    (p ++ t).toList.take 11 = p.toList.take 11 := by
  rw [String.toList_append, List.take_append_of_le_length (by rwa [String.length_toList])]

theorem purchaseKey_inj {levels levels' : Bool} {i j : ℕ}
    (h : purchaseKey levels i = purchaseKey levels' j) : i = j := by
  have hstart := congrArg (fun key => key.toList.take 11) h
  cases levels <;> cases levels' <;>
    simp only [purchaseKey, if_true, Bool.false_eq_true, if_false] at h hstart
  · exact toString_inj (String.append_right_inj _ |>.mp h)
  · rw [take_append (by decide), take_append (by decide)] at hstart
    exact absurd hstart (by decide)
  · rw [take_append (by decide), take_append (by decide)] at hstart
    exact absurd hstart (by decide)
  · exact toString_inj (String.append_right_inj _ |>.mp h)

/-- If it is the key of a purchase, the id has been handed out. -/
def Spent (nextId : ℕ) (key : String) : Prop :=
  ∀ levels id, key = purchaseKey levels id → id < nextId

theorem Spent.mono {n n' : ℕ} (hn : n ≤ n') {key : String} (h : Spent n key) : Spent n' key :=
  fun levels id hkey => (h levels id hkey).trans_le hn

theorem spent_purchaseKey {levels : Bool} {id n : ℕ} (h : id < n) :
    Spent n (purchaseKey levels id) := by
  intro levels' id' hkey
  rwa [← purchaseKey_inj hkey]

theorem spent_mission (n : ℕ) (bump : Bump) : Spent n bump.xpCall.idempotencyKey := by
  intro levels id hkey
  have hstart := congrArg (fun key => key.toList.take 11) hkey
  simp only [Bump.xpCall, String.append_assoc] at hstart
  rw [take_append (by decide)] at hstart
  cases levels <;> simp only [purchaseKey, if_true, Bool.false_eq_true, if_false] at hstart
  · rw [take_append (by decide)] at hstart
    exact absurd hstart (by decide)
  · rw [take_append (by decide)] at hstart
    exact absurd hstart (by decide)

/-! ## What is still to be entered -/

def Numbered (db : Db) : Prop :=
  ∀ row ∈ db.xpLedger, Spent db.purchases.nextId row.idempotencyKey

def After.Keyed (nextId : ℕ) : After → Prop
  | .calls rest => ∀ call ∈ rest, Spent nextId call.idempotencyKey
  | .purchase _ => True

def Enrolled.Keyed (nextId : ℕ) : Enrolled → Prop
  | .xp call _ after => Spent nextId call.idempotencyKey ∧ after.Keyed nextId
  | .purchase _ _ _ | .claim _ _ _ => True

/-- The keys that a call has pending or carries. -/
structure Keyed (db : Db) (tx : Tx Write Point) : Prop where
  pending : ∀ row, .createLedger row ∈ tx.writes →
    Spent db.purchases.nextId row.idempotencyKey
  point : match tx.point with
    | .findSeason call _ after | .createLedger call _ after | .incrementXp call _ after =>
        Spent db.purchases.nextId call.idempotencyKey ∧ after.Keyed db.purchases.nextId
    | .findEnrollment _ _ next | .createEnrollment _ _ next => next.Keyed db.purchases.nextId
    | .createPurchase _ id => id < db.purchases.nextId
    | _ => True

section Mono

variable {n n' : ℕ} (hn : n ≤ n')
include hn

theorem After.Keyed.mono {after : After} (h : after.Keyed n) : after.Keyed n' := by
  cases after with
  | calls rest => exact fun call hcall => (h call hcall).mono hn
  | purchase sale => trivial

theorem Enrolled.Keyed.mono {next : Enrolled} (h : next.Keyed n) : next.Keyed n' := by
  cases next with
  | xp call n after => exact ⟨h.1.mono hn, h.2.mono hn⟩
  | purchase | claim => trivial

end Mono

theorem Keyed.mono {db db' : Db} (hn : db.purchases.nextId ≤ db'.purchases.nextId)
    {tx : Tx Write Point} (h : Keyed db tx) : Keyed db' tx := by
  obtain ⟨p, ws⟩ := tx
  refine ⟨fun row hrow => (h.pending row hrow).mono hn, ?_⟩
  have hpoint := h.point
  cases p with
  | findSeason | createLedger | incrementXp => exact ⟨hpoint.1.mono hn, hpoint.2.mono hn⟩
  | findEnrollment | createEnrollment => exact Enrolled.Keyed.mono hn hpoint
  | createPurchase => exact hpoint.trans_le hn
  | _ => trivial

/-- The pending rows of a call that goes on with a write. -/
theorem pending_append {db : Db} {ws : List Write} {w : Write}
    (h : ∀ row, .createLedger row ∈ ws → Spent db.purchases.nextId row.idempotencyKey)
    (hw : ∀ row, w = .createLedger row → Spent db.purchases.nextId row.idempotencyKey) :
    ∀ row, .createLedger row ∈ ws ++ [w] → Spent db.purchases.nextId row.idempotencyKey := by
  intro row hrow
  rcases List.mem_append.mp hrow with hold | hnew
  · exact h row hold
  · exact hw row (List.mem_singleton.mp hnew).symm

theorem nextId_apply (db : Db) (w : Write) :
    (apply db w).purchases.nextId = db.purchases.nextId := by
  cases w with
  | completeProgress u m k now =>
      simp only [apply]
      split <;> rfl
  | _ => rfl

theorem nextId_view (db : Db) (tx : Tx Write Point) :
    ((transactions config).view db tx).purchases.nextId = db.purchases.nextId := by
  obtain ⟨p, ws⟩ := tx
  show ((transactions config).applyAll db ws).purchases.nextId = _
  induction ws generalizing db with
  | nil => rfl
  | cons w ws ih => exact (ih (apply db w)).trans (nextId_apply db w)

/-- What a call sees in the ledger is there, or it has it pending. -/
theorem mem_xpLedger_view {db : Db} {tx : Tx Write Point} {row : LedgerRow}
    (h : row ∈ ((transactions config).view db tx).xpLedger) :
    row ∈ db.xpLedger ∨ .createLedger row ∈ tx.writes := by
  obtain ⟨p, ws⟩ := tx
  change row ∈ ((transactions config).applyAll db ws).xpLedger at h
  show _ ∨ _ ∈ ws
  induction ws generalizing db with
  | nil => exact .inl h
  | cons w ws ih =>
      rcases ih h with hold | hpending
      · rw [show (transactions config).apply db w = apply db w from rfl, xpLedger_apply] at hold
        rcases List.mem_append.mp hold with hnew | hold
        · cases w with
          | createLedger row' =>
              obtain rfl := List.mem_singleton.mp hnew
              exact .inr (List.mem_cons_self ..)
          | _ => cases hnew
        · exact .inl hold
      · exact .inr (List.mem_cons_of_mem _ hpending)

theorem numbered_view {db : Db} {tx : Tx Write Point} (hdb : Numbered db) (h : Keyed db tx) :
    Numbered ((transactions config).view db tx) := by
  intro row hrow
  rw [nextId_view]
  rcases mem_xpLedger_view config hrow with hold | hpending
  · exact hdb row hold
  · exact h.pending row hpending

/-! ## Steps -/

theorem keyed_nextCall {db : Db} {ws : List Write}
    (hws : ∀ row, .createLedger row ∈ ws → Spent db.purchases.nextId row.idempotencyKey)
    {calls : List XpCall} (h : ∀ call ∈ calls, Spent db.purchases.nextId call.idempotencyKey) :
    Keyed db ⟨nextCall calls, ws⟩ := by
  induction calls with
  | nil => exact ⟨hws, trivial⟩
  | cons call rest ih =>
      have hrest := fun call' hcall' => h call' (List.mem_cons_of_mem _ hcall')
      rw [nextCall]
      split
      · exact ih hrest
      · exact ⟨hws, h call (List.mem_cons_self ..), hrest⟩

theorem keyed_after {db : Db} {ws : List Write}
    (hws : ∀ row, .createLedger row ∈ ws → Spent db.purchases.nextId row.idempotencyKey)
    {after : After} (h : after.Keyed db.purchases.nextId) : Keyed db ⟨after.next, ws⟩ := by
  cases after with
  | calls rest => exact keyed_nextCall hws h
  | purchase sale => exact ⟨hws, trivial⟩

theorem keyed_applyMiniPassXp {db : Db} {ws : List Write}
    (hws : ∀ row, .createLedger row ∈ ws → Spent db.purchases.nextId row.idempotencyKey)
    {call : XpCall} (hcall : Spent db.purchases.nextId call.idempotencyKey) {after : After}
    (h : after.Keyed db.purchases.nextId) : Keyed db ⟨applyMiniPassXp call after, ws⟩ := by
  unfold applyMiniPassXp
  split
  · exact keyed_after hws h
  · exact ⟨hws, hcall, h⟩

theorem keyed_enrolled {db : Db} {ws : List Write}
    (hws : ∀ row, .createLedger row ∈ ws → Spent db.purchases.nextId row.idempotencyKey)
    {next : Enrolled} (h : next.Keyed db.purchases.nextId) : Keyed db ⟨next.next, ws⟩ := by
  cases next with
  | xp call n after => exact ⟨hws, h⟩
  | purchase | claim => exact ⟨hws, trivial⟩

/-- The sequence only moves on, and what it gives to a call is handed out. -/
theorem nextId_dbAfter {db : Db} {tx : Tx Write Point} {a : Answer} {next : Next Db Write Point}
    (hstep : step config tx.point ((transactions config).view db tx) a = some next) :
    db.purchases.nextId ≤ ((transactions config).dbAfter db tx next).purchases.nextId := by
  have hmoves := step_moves config hstep
  obtain ⟨p, ws⟩ := tx
  cases next with
  | goto p | write w p | rollback next => exact le_rfl
  | commit next => exact (nextId_view config db _).ge
  | put f next =>
      cases hmoves with
      | numbered sale => exact Nat.le_succ _

theorem numbered_dbAfter {db : Db} {tx : Tx Write Point} {a : Answer} {next : Next Db Write Point}
    (hdb : Numbered db) (h : Keyed db tx)
    (hstep : step config tx.point ((transactions config).view db tx) a = some next) :
    Numbered ((transactions config).dbAfter db tx next) := by
  have hle := nextId_dbAfter config hstep
  have hmoves := step_moves config hstep
  obtain ⟨p, ws⟩ := tx
  cases next with
  | goto p | write w p | rollback next => exact hdb
  | commit next => exact numbered_view config hdb h
  | put f next =>
      cases hmoves with
      | numbered sale => exact fun row hrow => (hdb row hrow).mono hle

/-- A step keeps what is pending and carried. -/
theorem keyed_step {db : Db} {tx tx' : Tx Write Point} {a : Answer} {next : Next Db Write Point}
    (h : Keyed db tx)
    (hstep : step config tx.point ((transactions config).view db tx) a = some next)
    (htx' : tx.after next = some tx') : Keyed ((transactions config).dbAfter db tx next) tx' := by
  have hmoves := step_moves config hstep
  have hnextId := nextId_view config db tx
  obtain ⟨p, ws⟩ := tx
  generalize (transactions config).view db ⟨p, ws⟩ = v at hmoves hnextId
  have hws := h.pending
  have hpoint := h.point
  cases hmoves with
  | failed | commits | commitsPurchase | commitsClaim => cases htx'
  | foundSeason | unenrolled | unfinished | finished | completedBefore | buyer | priced | claimant
  | eligible =>
      obtain rfl := Option.some.inj htx'
      exact ⟨hws, hpoint⟩
  | ledgered call n after =>
      obtain rfl := Option.some.inj htx'
      refine ⟨pending_append hws fun row hrow => ?_, hpoint⟩
      obtain rfl := Write.createLedger.inj hrow
      exact hpoint.1
  | incremented call n after =>
      obtain rfl := Option.some.inj htx'
      exact keyed_after (pending_append hws (by simp)) hpoint.2
  | enrolled u s next =>
      obtain rfl := Option.some.inj htx'
      exact keyed_enrolled hws hpoint
  | enrolls u s next =>
      obtain rfl := Option.some.inj htx'
      exact keyed_enrolled (pending_append hws (by simp)) hpoint
  | ticked bump =>
      obtain rfl := Option.some.inj htx'
      have hpending : ∀ row, .createLedger row ∈ ws ++ [.createTick bump.mission.id bump.dedupeKey]
          → Spent db.purchases.nextId row.idempotencyKey :=
        pending_append hws (by simp)
      show Keyed db ⟨ite _ _ _, _⟩
      split <;> exact ⟨hpending, trivial⟩
  | completed bump now =>
      obtain rfl := Option.some.inj htx'
      have hpending : ∀ row, .createLedger row ∈ ws ++ [.completeProgress bump.userId
          bump.mission.id bump.periodKey now] → Spent db.purchases.nextId row.idempotencyKey :=
        pending_append hws (by simp)
      show Keyed db ⟨ite _ _ _, _⟩
      split
      · exact ⟨hpending, trivial⟩
      · exact keyed_applyMiniPassXp hpending (spent_mission _ bump) fun _ hcall => nomatch hcall
  | bumped | debited | claims | fulfills =>
      obtain rfl := Option.some.inj htx'
      exact ⟨pending_append hws (by simp), trivial⟩
  | numbered sale =>
      obtain rfl := Option.some.inj htx'
      refine ⟨fun row hrow => (hws row hrow).mono (Nat.le_succ _), ?_⟩
      show v.purchases.nextId < db.purchases.nextId + 1
      rw [hnextId]
      exact Nat.lt_succ_self _
  | purchased sale id =>
      obtain rfl := Option.some.inj htx'
      exact keyed_applyMiniPassXp (pending_append hws (by simp))
        (xpCall_idempotencyKey sale id ▸ spent_purchaseKey hpoint) trivial

/-! ## Runs -/

/-- A call of `applyMiniPassXp` from elsewhere does not carry the key of a purchase. -/
def OwnKeys (_ : InFlight Db (Tx Write Point)) : Event Request Answer → Prop
  | .start (.applyMiniPassXp calls) =>
      ∀ call ∈ calls, ∀ levels id, call.idempotencyKey ≠ purchaseKey levels id
  | _ => True

theorem keyed_start {db : Db} {r : Request} {p : Point}
    (hr : ∀ calls, r = .applyMiniPassXp calls →
      ∀ call ∈ calls, ∀ levels id, call.idempotencyKey ≠ purchaseKey levels id)
    (hp : start r = some p) : Keyed db ⟨p, []⟩ := by
  have hnone : ∀ row, Write.createLedger row ∈ ([] : List Write) →
      Spent db.purchases.nextId row.idempotencyKey := fun _ hrow => nomatch hrow
  cases r with
  | applyMiniPassXp calls =>
      obtain rfl := Option.some.inj hp
      exact keyed_nextCall hnone fun call hcall levels id hkey =>
        absurd hkey (hr calls rfl call hcall levels id)
  | bumpMission | purchase | claimMiniPassLevelReward =>
      obtain rfl := Option.some.inj hp
      exact ⟨hnone, trivial⟩

theorem numbered_step {s s' : InFlight Db (Tx Write Point)} {e : Event Request Answer}
    (hs : (transactions config).Holds Numbered Keyed s) (he : OwnKeys s e)
    (h : (transactions config).stepTx s e = some s') :
    (transactions config).Holds Numbered Keyed s' := by
  cases e with
  | start r =>
      refine (transactions config).holds_start hs (fun p hp => keyed_start ?_ hp) h
      rintro calls rfl
      exact he
  | resume call a =>
      refine (transactions config).holds_resume (C := fun _ _ _ => True) ?_ ?_ hs
        (fun _ _ => trivial) h
      · intro db tx a next hdb htx _ hstep
        exact ⟨numbered_dbAfter config hdb htx hstep,
          fun tx' htx' => keyed_step config htx hstep htx'⟩
      · intro db tx a next tx' _ _ _ hstep htx' _
        exact htx'.mono (nextId_dbAfter config hstep)

theorem numbered_run {db : Db} (hdb : Numbered db) {es : List (Event Request Answer)}
    (hes : (transactions config).sys.Meets OwnKeys (Transactions.idle db) es)
    {t : InFlight Db (Tx Write Point)}
    (hrun : (transactions config).sys.run (Transactions.idle db) es = some t) :
    (transactions config).Holds Numbered Keyed t :=
  (transactions config).sys.run_invariant (fun _ _ _ hs he h => numbered_step config hs he h)
    ((transactions config).holds_idle hdb) hes hrun

/-- The key of the next purchase is new. -/
theorem purchaseKey_new {db : Db} (h : Numbered db) {id : ℕ} (hid : db.purchases.nextId ≤ id)
    (levels : Bool) : ∀ row ∈ db.xpLedger, row.idempotencyKey ≠ purchaseKey levels id :=
  fun row hrow hkey => (h row hrow levels id hkey).not_ge hid

end BlockMiner.MiniPass
