import BlockMiner.Offerwall
import BlockMiner.OrdMap
import Mathlib.Algebra.Order.BigOperators.Group.Finset

/-!
# An attempt pays once

The status of an attempt is read by a query and written by an unconditional
update, so what carries the results is the condition on the updates: each
finds its attempt still open (`StillOpen`). Then a completed attempt is never
written again, and every grant completes an open attempt.

The daily limit is checked when an attempt is started. It holds because open
and completed attempts of a period are counted together (`booked`): starting
adds one where there is room, and nothing else adds any.
-/

namespace BlockMiner.Offerwall

/-! ## Counting -/

/-- Rows that count after a write did so before. -/
theorem count_le {t t' : Table Attempt} {p q : Attempt → Bool} (hnext : t'.nextId = t.nextId)
    (h : ∀ i a', t'.row i = some a' → q a' = true → ∃ a, t.row i = some a ∧ p a = true) :
    count t' q ≤ count t p := by
  unfold count Table.sum
  rw [hnext]
  refine Finset.sum_le_sum fun i _ => ?_
  cases hrow' : t'.row i with
  | none =>
      cases t.row i with
      | none => exact le_refl _
      | some a =>
          show (0 : ℤ) ≤ if p a = true then 1 else 0
          split <;> decide
  | some a' =>
      by_cases hq : q a' = true
      · obtain ⟨a, ha, hp⟩ := h i a' hrow' hq
        rw [ha]
        simp [hp, hq]
      · cases t.row i with
        | none => simp [hq]
        | some a =>
            simp only [Option.elim_some, if_neg hq]
            split <;> decide

theorem count_insert (t : Table Attempt) (a : Attempt) (p : Attempt → Bool) :
    count (t.insert a) p = count t p + if p a then 1 else 0 := Table.sum_insert ..

/-! ## The invariant -/

/-- Open or completed: the attempt takes a place of the daily limit. -/
def isBooked (a : Attempt) : Bool := isOpen a || a.status = .COMPLETED

/-- The user, the offer and the period of an attempt stay. -/
def SameKeys (a a' : Attempt) : Prop :=
  a'.userId = a.userId ∧ a'.offerId = a.offerId ∧ a'.periodKey = a.periodKey

theorem isOf_sameKeys {a a' : Attempt} (h : SameKeys a a') (userId offerId : ℕ) (key : String) :
    isOf userId offerId key a' = isOf userId offerId key a := by
  unfold isOf
  rw [h.1, h.2.1, h.2.2]

def Grant.blk (g : Grant) : ℕ × ℚ :=
  (g.userId, match g.reward with
    | .BLK amount => amount
    | _ => 0)

def Grant.pol (g : Grant) : ℕ × ℚ :=
  (g.userId, match g.reward with
    | .POL amount => amount
    | _ => 0)

def Grant.hashRate (g : Grant) : Option (ℕ × ℚ) :=
  match g.reward with
  | .HASHRATE_TEMP hashRate _ => some (g.userId, hashRate)
  | _ => none

/-- The grants, and nothing else, have been paid out. -/
structure PaidOut (users : Table User) (db : Db) : Prop where
  blk : ∀ u, (db.users.row u).map (·.blkBalance)
    = (users.row u).map fun r => r.blkBalance + sumAt (db.granted.map Grant.blk) u
  pol : ∀ u, (db.users.row u).map (·.polBalance)
    = (users.row u).map fun r => r.polBalance + sumAt (db.granted.map Grant.pol) u
  hashRate : db.powerGames.map (fun g => (g.userId, g.hashRate))
    = db.granted.filterMap Grant.hashRate

variable (config : Config) (users : Table User)

structure Sound (db : Db) : Prop where
  once : (db.granted.map (·.attemptId)).Nodup
  exactly : ∀ i, i ∈ db.granted.map (·.attemptId)
    ↔ ∃ a, db.attempts.row i = some a ∧ a.status = .COMPLETED
  entitled : ∀ g ∈ db.granted, ∃ a offer, db.attempts.row g.attemptId = some a
    ∧ a.userId = g.userId ∧ config.offers a.offerId = some offer ∧ rewardOf offer = some g.reward
  ownDay : ∀ i a, db.attempts.row i = some a → a.status = .COMPLETED →
    a.completedAt.map config.brazilDateKey = some a.periodKey
  booked : ∀ userId offerId key offer, config.offers offerId = some offer →
    count db.attempts (fun a => isOf userId offerId key a && isBooked a)
      ≤ offer.dailyLimitPerUser
  paidOut : PaidOut users db

/-- The updates find their attempts open, a rejection one that is not
completed; an attempt is completed in its own period; and where an attempt is
created, the open and the completed ones of the period are below the limit. -/
def StillOpen (db : Db) (c : Call) (answer : Answer) : Prop :=
  match c, answer with
  | .create userId offerId key, .ok _ => ∀ offer ∈ config.offers offerId,
      count db.attempts (fun a => isOf userId offerId key a && isBooked a)
        < offer.dailyLimitPerUser
  | .reviewUpdate id _ _, .ok _ => ∀ a ∈ db.attempts.row id, isOpen a = true
  | .claimGrant _ id _ now _, .ok _ => ∀ a ∈ db.attempts.row id,
      isOpen a = true ∧ config.brazilDateKey now = a.periodKey
  | .approveGrant _ id _ now, .ok _ => ∀ a ∈ db.attempts.row id,
      isOpen a = true ∧ config.brazilDateKey now = a.periodKey
  | .rejectUpdate id _, .ok _ => ∀ a ∈ db.attempts.row id, a.status ≠ .COMPLETED
  | _, _ => True

instance (db : Db) (c : Call) (answer : Answer) : Decidable (StillOpen config db c answer) := by
  unfold StillOpen
  split <;> infer_instance

variable {config users}

/-- A write to the attempts that completes none and books none. -/
theorem Sound.quiet {db : Db} (h : Sound config users db) {t' : Table Attempt}
    (hnext : t'.nextId = db.attempts.nextId)
    (hrows : ∀ i a', t'.row i = some a' → ∃ a, db.attempts.row i = some a ∧ SameKeys a a'
      ∧ (a'.status = .COMPLETED → a.status = .COMPLETED ∧ a'.completedAt = a.completedAt)
      ∧ (isBooked a' = true → isBooked a = true))
    (hkept : ∀ i a, db.attempts.row i = some a → a.status = .COMPLETED →
      ∃ a', t'.row i = some a' ∧ a'.status = .COMPLETED) :
    Sound config users { db with attempts := t' } where
  once := h.once
  exactly i := by
    rw [h.exactly i]
    constructor
    · rintro ⟨a, ha, hstatus⟩
      exact hkept i a ha hstatus
    · rintro ⟨a', ha', hstatus⟩
      obtain ⟨a, ha, -, hcompleted, -⟩ := hrows i a' ha'
      exact ⟨a, ha, (hcompleted hstatus).1⟩
  entitled g hg := by
    obtain ⟨a, offer, ha, hu, hoffer, hreward⟩ := h.entitled g hg
    obtain ⟨x, hx, hstatus⟩ := (h.exactly g.attemptId).mp (List.mem_map_of_mem hg)
    obtain ⟨a', ha', -⟩ := hkept g.attemptId x hx hstatus
    obtain ⟨y, hy, hkeys, -⟩ := hrows g.attemptId a' ha'
    obtain rfl := Option.some.inj (hy.symm.trans ha)
    exact ⟨a', offer, ha', hkeys.1.trans hu, by rw [hkeys.2.1, hoffer], hreward⟩
  ownDay i a' ha' hstatus := by
    obtain ⟨a, ha, hkeys, hcompleted, -⟩ := hrows i a' ha'
    obtain ⟨hold, htime⟩ := hcompleted hstatus
    rw [htime, hkeys.2.2]
    exact h.ownDay i a ha hold
  booked userId offerId key offer hoffer := by
    refine (count_le hnext fun i a' ha' hq => ?_).trans (h.booked userId offerId key offer hoffer)
    obtain ⟨a, ha, hkeys, -, hbooked⟩ := hrows i a' ha'
    rw [Bool.and_eq_true, isOf_sameKeys hkeys] at hq
    exact ⟨a, ha, by rw [Bool.and_eq_true]; exact ⟨hq.1, hbooked hq.2⟩⟩
  paidOut := ⟨h.paidOut.blk, h.paidOut.pol, h.paidOut.hashRate⟩

/-- An update of one attempt that is not completed. -/
theorem Sound.update {db : Db} (h : Sound config users db) {id : ℕ} {f : Attempt → Attempt}
    (hkeys : ∀ a, SameKeys a (f a))
    (hopen : ∀ a, db.attempts.row id = some a → a.status ≠ .COMPLETED)
    (hafter : ∀ a, db.attempts.row id = some a → (f a).status ≠ .COMPLETED
      ∧ (isBooked (f a) = true → isBooked a = true)) :
    Sound config users (updateAttempt db id f) := by
  refine h.quiet (Table.modify_nextId ..) (fun i a' ha' => ?_) (fun i a ha hstatus => ?_)
  · rcases Table.modify_row_eq_some.mp ha' with ⟨rfl, a, ha, rfl⟩ | ⟨-, ha⟩
    · obtain ⟨hstatus, hbooked⟩ := hafter a ha
      exact ⟨a, ha, hkeys a, fun hc => absurd hc hstatus, hbooked⟩
    · exact ⟨a', ha, ⟨rfl, rfl, rfl⟩, fun hc => ⟨hc, rfl⟩, fun hq => hq⟩
  · refine ⟨a, ?_, hstatus⟩
    have hne : i ≠ id := by
      rintro rfl
      exact hopen a ha hstatus
    exact (if_neg hne).trans ha

/-- The mark of an opened page leaves the status alone. -/
theorem Sound.opened {db : Db} (h : Sound config users db) (id : ℕ) (now : ℤ) :
    Sound config users (updateAttempt db id fun a => { a with partnerOpenedAt := some now }) := by
  refine h.quiet (Table.modify_nextId ..) (fun i a' ha' => ?_) (fun i a ha hstatus => ?_)
  · rcases Table.modify_row_eq_some.mp ha' with ⟨rfl, a, ha, rfl⟩ | ⟨-, ha⟩
    · exact ⟨a, ha, ⟨rfl, rfl, rfl⟩, fun hc => ⟨hc, rfl⟩, fun hq => hq⟩
    · exact ⟨a', ha, ⟨rfl, rfl, rfl⟩, fun hc => ⟨hc, rfl⟩, fun hq => hq⟩
  · exact Table.modify_keeps ha hstatus fun _ hstatus => hstatus

theorem Sound.abandon {db : Db} (h : Sound config users db) (userId : ℕ) (key : String)
    (cutoff : ℤ) : Sound config users (abandonStaleStartedAttempts db userId key cutoff) := by
  refine h.quiet (Table.deleteMany_nextId ..) (fun i a' ha' => ?_) (fun i a ha hstatus => ?_)
  · obtain ⟨ha, -⟩ := Option.filter_eq_some_iff.mp ((Table.deleteMany_row ..).symm.trans ha')
    exact ⟨a', ha, ⟨rfl, rfl, rfl⟩, fun hc => ⟨hc, rfl⟩, fun hq => hq⟩
  · refine ⟨a, ?_, hstatus⟩
    rw [Table.deleteMany_row, ha, Option.filter_some]
    simp [hstatus]

theorem Sound.create {db : Db} (h : Sound config users db) {userId offerId : ℕ} {key : String}
    {now : ℤ} (hroom : StillOpen config db (.create userId offerId key) (.ok now)) :
    Sound config users (createAttempt db userId offerId key now) where
  once := h.once
  exactly i := by
    rw [show (createAttempt db userId offerId key now).granted = db.granted from rfl, h.exactly i]
    constructor
    · rintro ⟨a, ha, hstatus⟩
      exact ⟨a, Table.insert_row_of_some ha _, hstatus⟩
    · rintro ⟨a, ha, hstatus⟩
      rcases Table.insert_row_eq_some.mp ha with ⟨-, rfl⟩ | hold
      · cases hstatus
      · exact ⟨a, hold, hstatus⟩
  entitled g hg := by
    obtain ⟨a, offer, ha, hrest⟩ := h.entitled g hg
    exact ⟨a, offer, Table.insert_row_of_some ha _, hrest⟩
  ownDay i a ha hstatus := by
    rcases Table.insert_row_eq_some.mp ha with ⟨-, rfl⟩ | hold
    · cases hstatus
    · exact h.ownDay i a hold hstatus
  booked u o k offer hoffer := by
    show count (db.attempts.insert _) _ ≤ _
    rw [count_insert]
    split
    case isTrue hbooked =>
      simp only [isOf, Bool.and_eq_true, decide_eq_true_eq] at hbooked
      obtain ⟨⟨⟨rfl, rfl⟩, rfl⟩, -⟩ := hbooked
      have hlt := hroom offer hoffer
      omega
    case isFalse =>
      rw [add_zero]
      exact h.booked u o k offer hoffer
  paidOut := ⟨h.paidOut.blk, h.paidOut.pol, h.paidOut.hashRate⟩

/-! ## Grants -/

theorem payReward_attempts {db paid : Db} {userId : ℕ} {now : ℤ} {reward : Reward}
    (h : payReward db userId now reward = some paid) :
    paid.attempts = db.attempts ∧ paid.granted = db.granted := by
  cases reward <;>
    obtain ⟨_, -, rfl⟩ := Option.map_eq_some_iff.mp h <;>
    exact ⟨rfl, rfl⟩

theorem grantAndComplete_eq_some {db db' : Db} {userId attemptId : ℕ} {offer : Offer} {now : ℤ}
    {complete : Attempt → Attempt}
    (h : grantAndComplete db userId attemptId offer now complete = some db') :
    ∃ reward paid a, rewardOf offer = some reward ∧ payReward db userId now reward = some paid
      ∧ db.attempts.row attemptId = some a
      ∧ db' = { paid with
          attempts := db.attempts.modify attemptId complete
          granted := db.granted ++ [⟨attemptId, userId, reward⟩] } := by
  obtain ⟨reward, hreward, h⟩ := Option.bind_eq_some_iff.mp h
  obtain ⟨paid, hpaid, h⟩ := Option.bind_eq_some_iff.mp h
  obtain ⟨a, ha, rfl⟩ := Option.map_eq_some_iff.mp h
  obtain ⟨hattempts, -⟩ := payReward_attempts hpaid
  rw [hattempts] at ha
  refine ⟨reward, paid, a, hreward, hpaid, ha, ?_⟩
  unfold updateAttempt
  rw [hattempts]

/-- A balance after a payment into it. -/
theorem balance_paid {balance : User → ℚ} (pay : User → User) {amount : ℚ} {t : Table User}
    {userId : ℕ} {credits : List (ℕ × ℚ)}
    (h : ∀ u, (t.row u).map balance = (users.row u).map fun r => balance r + sumAt credits u)
    (hpay : ∀ u, balance (pay u) = balance u + amount) (u : ℕ) :
    ((t.modify userId pay).row u).map balance
      = (users.row u).map fun r => balance r + sumAt (credits ++ [(userId, amount)]) u := by
  rw [Table.modify_row, sumAt_append, sumAt_cons, sumAt_nil, add_zero]
  by_cases hu : u = userId
  · subst hu
    rw [if_pos rfl, if_pos rfl, Option.map_map]
    have hfun : balance ∘ pay = (· + amount) ∘ balance := funext hpay
    rw [hfun, ← Option.map_map, h, Option.map_map]
    congr 1
    funext r
    exact add_assoc ..
  · rw [if_neg hu, if_neg (Ne.symm hu), add_zero]
    exact h u

theorem balance_same {balance : User → ℚ} {t : Table User} {credits : List (ℕ × ℚ)}
    (h : ∀ u, (t.row u).map balance = (users.row u).map fun r => balance r + sumAt credits u)
    (userId u : ℕ) : (t.row u).map balance
      = (users.row u).map fun r => balance r + sumAt (credits ++ [(userId, 0)]) u := by
  rw [sumAt_append, sumAt_cons, sumAt_nil, ite_self, add_zero, add_zero]
  exact h u

/-- The hash rates of the grants, with one more grant. -/
theorem hashRate_paid {granted : List Grant} {powerGames : List UserPowerGame} {g : Grant}
    {l : List (ℕ × ℚ)}
    (h : powerGames.map (fun g => (g.userId, g.hashRate)) = granted.filterMap Grant.hashRate)
    (hl : [g].filterMap Grant.hashRate = l) :
    powerGames.map (fun g => (g.userId, g.hashRate)) ++ l
      = (granted ++ [g]).filterMap Grant.hashRate := by
  rw [List.filterMap_append, h, hl]

theorem PaidOut.pay {db paid : Db} (h : PaidOut users db) {userId attemptId : ℕ} {now : ℤ}
    {reward : Reward} (hpaid : payReward db userId now reward = some paid)
    (attempts : Table Attempt) :
    PaidOut users { paid with
      attempts, granted := db.granted ++ [⟨attemptId, userId, reward⟩] } := by
  cases reward with
  | BLK amount =>
      obtain ⟨_, -, rfl⟩ := Option.map_eq_some_iff.mp hpaid
      let pay (r : User) : User := { r with blkBalance := r.blkBalance + amount }
      refine ⟨fun u => ?_, fun u => ?_, ?_⟩
      · rw [List.map_append]
        exact balance_paid pay h.blk (fun _ => rfl) u
      · rw [List.map_append]
        exact balance_paid pay h.pol (fun _ => (add_zero _).symm) u
      · exact (List.append_nil _).symm.trans (hashRate_paid h.hashRate rfl)
  | POL amount =>
      obtain ⟨_, -, rfl⟩ := Option.map_eq_some_iff.mp hpaid
      let pay (r : User) : User := { r with polBalance := r.polBalance + amount }
      refine ⟨fun u => ?_, fun u => ?_, ?_⟩
      · rw [List.map_append]
        exact balance_paid pay h.blk (fun _ => (add_zero _).symm) u
      · rw [List.map_append]
        exact balance_paid pay h.pol (fun _ => rfl) u
      · exact (List.append_nil _).symm.trans (hashRate_paid h.hashRate rfl)
  | HASHRATE_TEMP hashRate days =>
      obtain ⟨_, -, rfl⟩ := Option.map_eq_some_iff.mp hpaid
      refine ⟨fun u => ?_, fun u => ?_, ?_⟩
      · rw [List.map_append]
        exact balance_same h.blk userId u
      · rw [List.map_append]
        exact balance_same h.pol userId u
      · rw [List.map_append]
        exact hashRate_paid h.hashRate rfl

/-- A grant for an open attempt of its own period completes it. -/
theorem Sound.grant {db db' : Db} (h : Sound config users db) {userId attemptId : ℕ} {offer : Offer}
    {now completedAt : ℤ} {complete : Attempt → Attempt}
    (hgrant : grantAndComplete db userId attemptId offer now complete = some db')
    (hcomplete : ∀ a, SameKeys a (complete a) ∧ (complete a).status = .COMPLETED
      ∧ (complete a).completedAt = some completedAt)
    (hopen : ∀ a, db.attempts.row attemptId = some a →
      isOpen a = true ∧ config.brazilDateKey completedAt = a.periodKey)
    (howed : ∀ a, db.attempts.row attemptId = some a →
      a.userId = userId ∧ config.offers a.offerId = some offer) :
    Sound config users db' := by
  obtain ⟨reward, paid, a, hreward, hpaid, ha, rfl⟩ := grantAndComplete_eq_some hgrant
  obtain ⟨hisOpen, hday⟩ := hopen a ha
  obtain ⟨hu, hoffer⟩ := howed a ha
  have hnew : attemptId ∉ db.granted.map (·.attemptId) := by
    intro hmem
    obtain ⟨x, hx, hstatus⟩ := (h.exactly attemptId).mp hmem
    obtain rfl := Option.some.inj (hx.symm.trans ha)
    simp [isOpen, hstatus] at hisOpen
  have hself : (db.attempts.modify attemptId complete).row attemptId = some (complete a) := by
    rw [Table.modify_row, if_pos rfl, ha, Option.map_some]
  have hother (i : ℕ) (hi : i ≠ attemptId) :
      (db.attempts.modify attemptId complete).row i = db.attempts.row i := if_neg hi
  refine ⟨?_, fun i => ?_, fun g hg => ?_, fun i x hx hstatus => ?_, fun u o k offer' hoffer' => ?_,
    h.paidOut.pay hpaid _⟩
  · show ((db.granted ++ [_]).map _).Nodup
    rw [List.map_append, List.nodup_append]
    refine ⟨h.once, List.nodup_singleton _, fun x hx y hy => ?_⟩
    obtain rfl := List.mem_singleton.mp hy
    rintro rfl
    exact hnew hx
  · show i ∈ (db.granted ++ [_]).map _ ↔ _
    rw [List.map_append, List.mem_append, h.exactly i]
    by_cases hi : i = attemptId
    · subst hi
      exact ⟨fun _ => ⟨complete a, hself, (hcomplete a).2.1⟩,
        fun _ => Or.inr (List.mem_singleton_self _)⟩
    · show _ ↔ ∃ x, (db.attempts.modify attemptId complete).row i = some x ∧ _
      rw [hother i hi]
      refine ⟨fun hmem => hmem.resolve_right fun hsingle => hi (List.mem_singleton.mp hsingle),
        Or.inl⟩
  · show ∃ x offer', (db.attempts.modify attemptId complete).row g.attemptId = some x ∧ _
    rcases List.mem_append.mp hg with hold | hsingle
    · obtain ⟨x, offer', hx, hrest⟩ := h.entitled g hold
      have hne : g.attemptId ≠ attemptId := by
        intro heq
        exact hnew (heq ▸ List.mem_map_of_mem hold)
      exact ⟨x, offer', by rw [hother _ hne, hx], hrest⟩
    · obtain rfl := List.mem_singleton.mp hsingle
      obtain ⟨hkeys, -⟩ := hcomplete a
      exact ⟨complete a, offer, hself, hkeys.1.trans hu, by rw [hkeys.2.1, hoffer], hreward⟩
  · rcases Table.modify_row_eq_some.mp hx with ⟨rfl, y, hy, rfl⟩ | ⟨-, hold⟩
    · obtain rfl := Option.some.inj (hy.symm.trans ha)
      obtain ⟨hkeys, -, htime⟩ := hcomplete y
      rw [htime, Option.map_some, hkeys.2.2, hday]
    · exact h.ownDay i x hold hstatus
  · refine (count_le (Table.modify_nextId ..) fun i x hx hq => ?_).trans
      (h.booked u o k offer' hoffer')
    rcases Table.modify_row_eq_some.mp hx with ⟨rfl, y, hy, rfl⟩ | ⟨-, hold⟩
    · obtain rfl := Option.some.inj (hy.symm.trans ha)
      rw [Bool.and_eq_true, isOf_sameKeys (hcomplete y).1] at hq
      exact ⟨y, hy, by rw [Bool.and_eq_true]; exact ⟨hq.1, by simp [isBooked, hisOpen]⟩⟩
    · exact ⟨x, hold, hq⟩

/-! ## Requests under way -/

/-- The attempt, if it is still there, belongs to the user and the offer. -/
def Owed (config : Config) (db : Db) (userId attemptId : ℕ) (offer : Offer) : Prop :=
  attemptId < db.attempts.nextId ∧ ∀ a, db.attempts.row attemptId = some a →
    a.userId = userId ∧ config.offers a.offerId = some offer

/-- What a request remembers. -/
def Remembers (config : Config) (db : Db) : Call → Prop
  | .snapshot userId attemptId offer _ | .claimFresh userId attemptId offer _ _
  | .claimGrant userId attemptId offer _ _ | .approveFresh userId attemptId offer _
  | .approveGrant userId attemptId offer _ => Owed config db userId attemptId offer
  | _ => True

/-- A write keeps whose attempts there are, and all grants. -/
structure Keeps (db db' : Db) : Prop where
  nextId : db.attempts.nextId ≤ db'.attempts.nextId
  keys : ∀ i a', db'.attempts.row i = some a' → i < db.attempts.nextId →
    ∃ a, db.attempts.row i = some a ∧ SameKeys a a'
  granted : db.granted ⊆ db'.granted

theorem Keeps.refl (db : Db) : Keeps db db :=
  ⟨le_refl _, fun _ a' ha' _ => ⟨a', ha', rfl, rfl, rfl⟩, fun _ hg => hg⟩

theorem Keeps.owed {db db' : Db} (h : Keeps db db') {userId attemptId : ℕ} {offer : Offer}
    (howed : Owed config db userId attemptId offer) : Owed config db' userId attemptId offer := by
  refine ⟨howed.1.trans_le h.nextId, fun a' ha' => ?_⟩
  obtain ⟨a, ha, hkeys⟩ := h.keys _ a' ha' howed.1
  obtain ⟨hu, hoffer⟩ := howed.2 a ha
  exact ⟨hkeys.1.trans hu, by rw [hkeys.2.1, hoffer]⟩

theorem Keeps.remembers {db db' : Db} (h : Keeps db db') {c : Call}
    (hc : Remembers config db c) : Remembers config db' c := by
  cases c <;> first | exact h.owed hc | exact trivial

theorem modify_keeps {db db' : Db} {id : ℕ} {f : Attempt → Attempt}
    (hattempts : db'.attempts = db.attempts.modify id f) (hkeys : ∀ a, SameKeys a (f a))
    (hgranted : db.granted ⊆ db'.granted) :
    Keeps db db' := by
  refine ⟨by rw [hattempts]; exact le_refl _, fun i a' ha' _ => ?_, hgranted⟩
  rw [hattempts] at ha'
  rcases Table.modify_row_eq_some.mp ha' with ⟨rfl, a, ha, rfl⟩ | ⟨-, ha⟩
  · exact ⟨a, ha, hkeys a⟩
  · exact ⟨a', ha, rfl, rfl, rfl⟩

theorem grant_keeps {db db' : Db} {userId attemptId : ℕ} {offer : Offer} {now : ℤ}
    {complete : Attempt → Attempt}
    (h : grantAndComplete db userId attemptId offer now complete = some db')
    (hkeys : ∀ a, SameKeys a (complete a)) : Keeps db db' := by
  obtain ⟨reward, paid, a, -, -, -, rfl⟩ := grantAndComplete_eq_some h
  exact modify_keeps rfl hkeys (List.subset_append_left ..)

/-! ## Steps -/

theorem write_sound {db db' : Db} {c : Call} {now : ℤ} (h : Sound config users db)
    (hc : Remembers config db c) (hopen : StillOpen config db c (.ok now))
    (hwrite : write db now c = some db') : Sound config users db' ∧ Keeps db db' := by
  cases c with
  | create userId offerId key =>
      obtain rfl := Option.some.inj hwrite
      refine ⟨h.create hopen, Nat.le_succ _, fun i a' ha' hi => ?_, fun _ hg => hg⟩
      rcases Table.insert_row_eq_some.mp ha' with ⟨rfl, -⟩ | hold
      · exact absurd hi (lt_irrefl _)
      · exact ⟨a', hold, rfl, rfl, rfl⟩
  | abandon userId key cutoff =>
      obtain rfl := Option.some.inj hwrite
      refine ⟨h.abandon userId key cutoff, le_refl _, fun i a' ha' _ => ?_, fun _ hg => hg⟩
      obtain ⟨ha, -⟩ := Option.filter_eq_some_iff.mp ((Table.deleteMany_row ..).symm.trans ha')
      exact ⟨a', ha, rfl, rfl, rfl⟩
  | openUpdate id openedAt =>
      obtain rfl := Option.some.inj hwrite
      exact ⟨h.opened id openedAt, modify_keeps rfl (fun _ => ⟨rfl, rfl, rfl⟩) fun _ hg => hg⟩
  | reviewUpdate id submittedAt snap =>
      obtain rfl := Option.some.inj hwrite
      refine ⟨h.update (fun _ => ⟨rfl, rfl, rfl⟩) (fun a ha hstatus => ?_) (fun a ha => ?_),
        modify_keeps rfl (fun _ => ⟨rfl, rfl, rfl⟩) fun _ hg => hg⟩
      · have hisOpen := hopen a ha
        simp [isOpen, hstatus] at hisOpen
      · exact ⟨by simp [reviewed], fun _ => by simp [isBooked, hopen a ha]⟩
  | claimGrant userId id offer claimedAt snap =>
      obtain rfl := Option.some.inj hwrite
      cases hgrant : grantAndComplete db userId id offer now (claimed claimedAt snap) with
      | none => exact ⟨h, Keeps.refl db⟩
      | some db' =>
          exact ⟨h.grant hgrant (fun _ => ⟨⟨rfl, rfl, rfl⟩, rfl, rfl⟩) hopen hc.2,
            grant_keeps hgrant fun _ => ⟨rfl, rfl, rfl⟩⟩
  | approveGrant userId id offer approvedAt =>
      obtain rfl := Option.some.inj hwrite
      cases hgrant : grantAndComplete db userId id offer now (approved approvedAt) with
      | none => exact ⟨h, Keeps.refl db⟩
      | some db' =>
          exact ⟨h.grant hgrant (fun _ => ⟨⟨rfl, rfl, rfl⟩, rfl, rfl⟩) hopen hc.2,
            grant_keeps hgrant fun _ => ⟨rfl, rfl, rfl⟩⟩
  | rejectUpdate id note =>
      obtain rfl := Option.some.inj hwrite
      exact ⟨h.update (fun _ => ⟨rfl, rfl, rfl⟩) hopen
          (fun _ _ => ⟨by simp [rejected], fun hq => by simp [isBooked, isOpen, rejected] at hq⟩),
        modify_keeps rfl (fun _ => ⟨rfl, rfl, rfl⟩) fun _ hg => hg⟩
  | _ => cases hwrite

/-- An attempt that is found with its offer is theirs. -/
theorem findActive_owed {db : Db} {userId attemptId : ℕ} {a : Attempt} {offer : Offer}
    (h : findActive config db userId attemptId = some (a, offer)) :
    Owed config db userId attemptId offer := by
  obtain ⟨x, hx, hmap⟩ := Option.bind_eq_some_iff.mp h
  obtain ⟨hrow, hu⟩ := Option.filter_eq_some_iff.mp hx
  obtain ⟨y, hy, heq⟩ := Option.map_eq_some_iff.mp hmap
  obtain ⟨rfl, rfl⟩ := Prod.mk.inj heq
  obtain ⟨hoffer, -⟩ := Option.filter_eq_some_iff.mp hy
  refine ⟨Table.row_lt hrow, fun z hz => ?_⟩
  obtain rfl := Option.some.inj (hz.symm.trans hrow)
  exact ⟨of_decide_eq_true hu, hoffer⟩

theorem readSubmit_owed {db : Db} {userId attemptId : ℕ} {now : ℤ} {c : Call}
    (h : readSubmit config db userId attemptId now = .ok c) : Remembers config db c := by
  unfold readSubmit at h
  cases hfind : findActive config db userId attemptId with
  | none =>
      rw [hfind] at h
      cases h
  | some found =>
      obtain ⟨a, offer⟩ := found
      rw [hfind] at h
      dsimp only at h
      split at h
      case isTrue => cases h
      case isFalse =>
        cases hview : assertMinViewForSubmit offer a now with
        | error =>
            rw [hview] at h
            cases h
        | ok =>
            rw [hview] at h
            obtain rfl := Except.ok.inj h
            exact findActive_owed hfind

theorem readApprove_owed {db : Db} {attemptId : ℕ} {now : ℤ} {c : Call}
    (h : readApprove config db attemptId now = .ok c) : Remembers config db c := by
  unfold readApprove at h
  split at h
  case h_1 => cases h
  case h_2 a hfind =>
    obtain ⟨hrow, -⟩ := Option.filter_eq_some_iff.mp hfind
    split at h
    case h_1 => cases h
    case h_2 offer hoffer =>
      split at h
      case isTrue =>
        obtain rfl := Except.ok.inj h
        refine ⟨Table.row_lt hrow, fun x hx => ?_⟩
        obtain rfl := Option.some.inj (hx.symm.trans hrow)
        exact ⟨rfl, hoffer⟩
      case isFalse => cases h

theorem query_remembers {db : Db} {c c' : Call} {now : ℤ} (hc : Remembers config db c)
    (h : query config db now c = .ok (some c')) : Remembers config db c' := by
  cases c with
  | offer userId offerId =>
      have hok := map_some_eq_ok h
      unfold findOffer at hok
      split at hok
      · cases hok
      · obtain rfl := Except.ok.inj hok
        trivial
  | completedCount userId offerId key =>
      have hok := map_some_eq_ok h
      unfold countCompleted at hok
      dsimp only at hok
      split at hok
      · cases hok
      · obtain rfl := Except.ok.inj hok
        trivial
  | existing userId offerId key =>
      have hok := Except.ok.inj h
      unfold findExisting at hok
      split at hok
      · cases hok
      · obtain rfl := Option.some.inj hok
        trivial
  | openRead userId attemptId =>
      have hok := map_some_eq_ok h
      unfold readOpen at hok
      split at hok
      · cases hok
      · split_ifs at hok
        obtain rfl := Except.ok.inj hok
        trivial
  | submitRead userId attemptId => exact readSubmit_owed (map_some_eq_ok h)
  | claimFresh userId attemptId offer claimedAt snap =>
      simp only [query] at h
      split at h
      · obtain rfl := Option.some.inj (Except.ok.inj h)
        exact hc
      · cases h
  | approveRead attemptId => exact readApprove_owed (map_some_eq_ok h)
  | approveFresh userId attemptId offer approvedAt =>
      simp only [query] at h
      split at h
      · obtain rfl := Option.some.inj (Except.ok.inj h)
        exact hc
      · cases h
  | rejectRead attemptId note =>
      have hok := map_some_eq_ok h
      unfold readReject at hok
      split at hok
      · cases hok
      · obtain rfl := Except.ok.inj hok
        trivial
  | _ => cases h

theorem start_remembers {db db' : Db} {request : Request} {calls : List Call}
    (h : start config db request = some (db', calls)) :
    db' = db ∧ ∀ c ∈ calls, Remembers config db c := by
  have hswitch (c : Call) (hc : Remembers config db c) :
      ∀ c' ∈ (if config.enabled then [c] else []), Remembers config db c' := by
    intro c' hc'
    split at hc'
    · rwa [List.mem_singleton.mp hc']
    · cases hc'
  cases request <;>
    obtain ⟨rfl, rfl⟩ := Prod.mk.inj (Option.some.inj h) <;>
    refine ⟨rfl, ?_⟩
  · exact hswitch _ trivial
  · exact hswitch _ trivial
  · exact hswitch _ trivial
  · exact hswitch _ trivial
  · exact fun c hc => by
      obtain rfl := List.mem_singleton.mp hc
      trivial
  · exact fun c hc => by
      obtain rfl := List.mem_singleton.mp hc
      trivial

/-- A step ends, takes the snapshot, writes and ends, or reads and goes on. -/
theorem resume_cases {db db' : Db} {c : Call} {answer : Answer} {next : Option Call}
    (h : resume config db c answer = some (db', next)) :
    (db' = db ∧ next = none)
      ∨ (∃ userId attemptId offer now snap, c = .snapshot userId attemptId offer now ∧ db' = db
        ∧ next = some (afterSnapshot userId attemptId offer now snap))
      ∨ (∃ now, answer = .ok now ∧ write db now c = some db' ∧ next = none)
      ∨ (db' = db ∧ ∃ now, ∀ c' ∈ next, query config db now c = .ok (some c')) := by
  unfold resume at h
  split at h
  case h_1 =>
    obtain ⟨rfl, rfl⟩ := Prod.mk.inj (Option.some.inj h)
    exact Or.inl ⟨rfl, rfl⟩
  case h_2 userId attemptId offer now snap =>
    obtain ⟨rfl, rfl⟩ := Prod.mk.inj (Option.some.inj h)
    exact Or.inr (Or.inl ⟨userId, attemptId, offer, now, snap, rfl, rfl, rfl⟩)
  case h_3 => cases h
  case h_4 answer now _ =>
    split at h
    case h_1 db₁ hwrite =>
      obtain ⟨rfl, rfl⟩ := Prod.mk.inj (Option.some.inj h)
      exact Or.inr (Or.inr (Or.inl ⟨now, rfl, hwrite, rfl⟩))
    case h_2 =>
      obtain ⟨rfl, rfl⟩ := Prod.mk.inj (Option.some.inj h)
      refine Or.inr (Or.inr (Or.inr ⟨rfl, now, fun c' hc' => ?_⟩))
      cases hquery : query config db now c with
      | error =>
          rw [hquery] at hc'
          cases hc'
      | ok o =>
          rw [hquery] at hc'
          have ho : o = some c' := hc'
          rw [ho]
  case h_5 => cases h

theorem resume_sound {db db' : Db} {c : Call} {answer : Answer} {next : Option Call}
    (h : Sound config users db) (hc : Remembers config db c)
    (hopen : StillOpen config db c answer)
    (hresume : resume config db c answer = some (db', next)) :
    Sound config users db' ∧ Keeps db db' ∧ ∀ c' ∈ next, Remembers config db' c' := by
  rcases resume_cases hresume with ⟨rfl, rfl⟩ | ⟨userId, attemptId, offer, now, snap, rfl, rfl, rfl⟩
    | ⟨now, rfl, hwrite, rfl⟩ | ⟨rfl, now, hquery⟩
  · exact ⟨h, Keeps.refl _, fun _ hc' => by cases hc'⟩
  · refine ⟨h, Keeps.refl _, fun c' hc' => ?_⟩
    obtain rfl := Option.some.inj hc'
    unfold afterSnapshot
    cases offer.completionMode with
    | USER_SELF_CLAIM => exact hc
    | ADMIN_APPROVAL => trivial
  · obtain ⟨hsound, hkeeps⟩ := write_sound h hc hopen hwrite
    exact ⟨hsound, hkeeps, fun _ hc' => by cases hc'⟩
  · exact ⟨h, Keeps.refl _, fun c' hc' => query_remembers hc (hquery c' hc')⟩

/-! ## Runs -/

/-- Users, and no attempt yet. -/
def fresh (users : Table User) : InFlight Db Call := ⟨⟨.empty, users, [], []⟩, .empty⟩

theorem fresh_sound (config : Config) (users : Table User) :
    Sound config users (fresh users).db where
  once := List.nodup_nil
  exactly i := ⟨fun hmem => absurd hmem List.not_mem_nil, fun ⟨_, ha, _⟩ => by cases ha⟩
  entitled g hg := absurd hg List.not_mem_nil
  ownDay i a ha := by cases ha
  booked u o k offer _ := by
    have hzero : count (fresh users).db.attempts (fun a => isOf u o k a && isBooked a) = 0 :=
      Table.sum_eq_zero fun _ _ h => by cases h
    rw [hzero]
    exact Int.natCast_nonneg _
  paidOut := ⟨fun u => by simp [fresh], fun u => by simp [fresh], rfl⟩

/-- The grants that there are stay. -/
theorem run_sound (granted : List Grant) {s t : InFlight Db Call}
    {events : List (Event Request Answer)}
    (h : Service.Holds (fun db => Sound config users db ∧ granted ⊆ db.granted)
      (Remembers config) s)
    (hopen : (service config).sys.Meets (Service.Guard (StillOpen config)) s events)
    (hrun : (service config).sys.run s events = some t) :
    Service.Holds (fun db => Sound config users db ∧ granted ⊆ db.granted)
      (Remembers config) t := by
  refine (service config).invariant ?_ ?_ h hopen hrun
  · intro db r db' cs hI hr
    obtain ⟨rfl, hcs⟩ := start_remembers hr
    exact ⟨hI, fun _ hd => hd, hcs⟩
  · intro db c a db' next hI hJ hC hr
    obtain ⟨hsound, hkeeps, hnext⟩ := resume_sound hI.1 hJ hC hr
    exact ⟨⟨hsound, fun _ hg => hkeeps.granted (hI.2 hg)⟩, fun _ hd => hkeeps.remembers hd, hnext⟩

/-- What the users have completed of an offer on a day. -/
def completedOn (config : Config) (db : Db) (userId offerId : ℕ) (day : String) : ℤ :=
  count db.attempts fun a => a.userId = userId && a.offerId = offerId && a.status = .COMPLETED
    && a.completedAt.any fun at' => config.brazilDateKey at' = day

/-- Every attempt pays at most once, exactly when it is completed, what its
offer grants and to its user; a day's completed attempts keep the limit. -/
structure PaidOnce (config : Config) (users : Table User) (db : Db) : Prop where
  once : (db.granted.map (·.attemptId)).Nodup
  exactly : ∀ i, i ∈ db.granted.map (·.attemptId)
    ↔ ∃ a, db.attempts.row i = some a ∧ a.status = .COMPLETED
  entitled : ∀ g ∈ db.granted, ∃ a offer, db.attempts.row g.attemptId = some a
    ∧ a.userId = g.userId ∧ config.offers a.offerId = some offer ∧ rewardOf offer = some g.reward
  daily : ∀ userId offerId day offer, config.offers offerId = some offer →
    completedOn config db userId offerId day ≤ offer.dailyLimitPerUser
  paidOut : PaidOut users db

theorem Sound.paidOnce {db : Db} (h : Sound config users db) : PaidOnce config users db where
  once := h.once
  exactly := h.exactly
  entitled := h.entitled
  daily u o day offer hoffer := by
    refine (count_le rfl fun i a ha hq => ?_).trans (h.booked u o day offer hoffer)
    simp only [Bool.and_eq_true, decide_eq_true_eq] at hq
    obtain ⟨⟨⟨hu, ho⟩, hstatus⟩, hday⟩ := hq
    have hown := h.ownDay i a ha hstatus
    cases htime : a.completedAt with
    | none =>
        rw [htime] at hown
        cases hown
    | some completedAt =>
        rw [htime] at hown hday
        have hperiod : a.periodKey = day :=
          (Option.some.inj hown).symm.trans (of_decide_eq_true hday)
        exact ⟨a, ha, by simp [isOf, isBooked, hu, ho, hperiod, hstatus]⟩
  paidOut := h.paidOut

/-- **Attempts pay once.** In a run whose updates all find their attempts
open: the limits hold in every state, and what is completed in one state is
completed in every later one. -/
theorem attempts_paidOnce {events events' : List (Event Request Answer)} {s t : InFlight Db Call}
    (hopen : (service config).sys.Meets (Service.Guard (StillOpen config)) (fresh users) events)
    (hrun : (service config).sys.run (fresh users) events = some s)
    (hopen' : (service config).sys.Meets (Service.Guard (StillOpen config)) s events')
    (hrun' : (service config).sys.run s events' = some t) :
    PaidOnce config users s.db ∧ PaidOnce config users t.db
      ∧ ∀ i a, s.db.attempts.row i = some a → a.status = .COMPLETED →
        ∃ a', t.db.attempts.row i = some a' ∧ a'.status = .COMPLETED := by
  have hs := run_sound []
    ⟨⟨fresh_sound config users, List.nil_subset _⟩, fun _ _ hc => by cases hc⟩ hopen hrun
  have ht := run_sound s.db.granted ⟨⟨hs.1.1, List.Subset.refl _⟩, hs.2⟩ hopen' hrun'
  refine ⟨hs.1.1.paidOnce, ht.1.1.paidOnce, fun i a ha hstatus => ?_⟩
  have hgranted := (hs.1.1.exactly i).mpr ⟨a, ha, hstatus⟩
  exact (ht.1.1.exactly i).mp (List.map_subset _ ht.1.2 hgranted)

/-- A task that pays at once, and one that waits for approval. -/
def twoOffers : Config where
  enabled := true
  offers
    | 1 => some ⟨.GENERAL_TASK, none, 0, .BLK, some 5, none, none, none, 1, true, .USER_SELF_CLAIM⟩
    | 2 => some ⟨.GENERAL_TASK, none, 0, .POL, none, some 7, none, none, 1, true, .ADMIN_APPROVAL⟩
    | _ => none
  brazilDateKey := fun now => if now < 86400000 then "1970-01-01" else "1970-01-02"
  abandonStartedAfterSec := none

def oneUser : Table User := Table.empty.insert ⟨0, 0⟩

/-- An attempt of each offer is started and submitted. -/
def submitted : List (Event Request Answer) :=
  [.start (.userStartOffer 1 1), .resume 1 (.ok 0), .resume 1 (.ok 0), .resume 1 (.ok 0),
    .resume 1 (.ok 0), .start (.userStartOffer 1 2), .resume 2 (.ok 0), .resume 2 (.ok 0),
    .resume 2 (.ok 0), .resume 2 (.ok 0), .start (.userSubmitAttempt 1 1), .resume 3 (.ok 1),
    .resume 3 (.snapshot "{}"), .resume 3 (.ok 1), .resume 3 (.ok 1),
    .start (.userSubmitAttempt 1 2), .resume 4 (.ok 1), .resume 4 (.snapshot "{}"),
    .resume 4 (.ok 1)]

/-- The second one is approved by one of two administrators. -/
def reviewedTwice : List (Event Request Answer) :=
  [.start (.adminApproveAttempt 2), .start (.adminApproveAttempt 2), .resume 5 (.ok 2),
    .resume 6 (.ok 2), .resume 5 (.ok 2), .resume 5 (.ok 2), .resume 6 (.ok 2)]

theorem attempts_paidOnce_submitted :
    ∃ s t, (service twoOffers).sys.run (fresh oneUser) submitted = some s
      ∧ (service twoOffers).sys.run s reviewedTwice = some t
      ∧ (t.db.users.row 1).map (fun u => (u.blkBalance, u.polBalance)) = some (5, 7)
      ∧ PaidOnce twoOffers oneUser s.db ∧ PaidOnce twoOffers oneUser t.db
      ∧ ∀ i a, s.db.attempts.row i = some a → a.status = .COMPLETED →
        ∃ a', t.db.attempts.row i = some a' ∧ a'.status = .COMPLETED := by
  have hrun : ((service twoOffers).sys.run (fresh oneUser) submitted).isSome := by
    decide +kernel
  have hrun' : ((service twoOffers).sys.run
      (((service twoOffers).sys.run (fresh oneUser) submitted).get hrun) reviewedTwice).isSome := by
    decide +kernel +revert
  exact ⟨_, _, (Option.some_get hrun).symm, (Option.some_get hrun').symm,
    by decide +kernel +revert,
    attempts_paidOnce (by decide +kernel) (Option.some_get hrun).symm (by decide +kernel +revert)
      (Option.some_get hrun').symm⟩

/-- Two submissions of one attempt that both find it started. -/
def submittedTwice : List (Event Request Answer) :=
  [.start (.userStartOffer 1 1), .resume 1 (.ok 0), .resume 1 (.ok 0), .resume 1 (.ok 0),
    .resume 1 (.ok 0), .start (.userSubmitAttempt 1 1), .start (.userSubmitAttempt 1 1),
    .resume 2 (.ok 1), .resume 3 (.ok 1), .resume 2 (.snapshot "{}"), .resume 3 (.snapshot "{}"),
    .resume 2 (.ok 1), .resume 3 (.ok 1), .resume 2 (.ok 1), .resume 3 (.ok 1)]

theorem attempts_paidTwice :
    ∃ s, (service twoOffers).sys.run (fresh oneUser) submittedTwice = some s
      ∧ (s.db.users.row 1).map (fun u => (u.blkBalance, u.polBalance)) = some (10, 0)
      ∧ s.db.granted = [⟨1, 1, .BLK 5⟩, ⟨1, 1, .BLK 5⟩]
      ∧ ¬ PaidOnce twoOffers oneUser s.db := by
  have hrun : ((service twoOffers).sys.run (fresh oneUser) submittedTwice).isSome := by
    decide +kernel
  have hgranted : (((service twoOffers).sys.run (fresh oneUser) submittedTwice).get
      hrun).db.granted = [⟨1, 1, .BLK 5⟩, ⟨1, 1, .BLK 5⟩] := by decide +kernel +revert
  refine ⟨_, (Option.some_get hrun).symm, by decide +kernel +revert, hgranted, fun h => ?_⟩
  have honce := h.once
  rw [hgranted] at honce
  exact absurd honce (by decide)

end BlockMiner.Offerwall
