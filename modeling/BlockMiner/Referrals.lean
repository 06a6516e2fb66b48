import BlockMiner.Service
import BlockMiner.Json
import BlockMiner.Engine

/-!
# Who refers whom

A referrer is stored twice: as a row of `referrals`, and in the `referredBy` of
the user. `register` with a referral code writes the row alone; `linkReferral`
writes both, and only for a user who has no row yet. What is paid is decided by
`referredBy`.

Of a registration, what it stores of the referrer is modelled: the checks of
names, the password, the welcome machine and the rooms do not read or write it.
The rows that `persistBlockRewards` writes are in the same database.
-/

namespace BlockMiner.Referrals

/-! ## Tables -/

structure UserRow where
  refCode : Option String
  ip : Option String
  polBalance : ℚ
  referredBy : Option UserId

structure ReferralRow where
  referrerId : UserId
  /-- Unique. -/
  referredId : UserId

structure MiningRewardsLog where
  userId : UserId
  blockNumber : ℕ
  workAccumulated : ℚ
  totalNetworkWork : ℚ
  sharePercentage : ℚ
  rewardAmount : ℚ
  balanceAfterReward : ℚ
  createdAt : ℕ
deriving DecidableEq

structure ReferralEarning where
  referrerId : UserId
  referredId : UserId
  amount : ℚ
  /-- `mining_block_` and this number. -/
  source : ℕ
  createdAt : ℕ
deriving DecidableEq

structure BlockMinerReward where
  userId : UserId
  work : ℚ
  percentage : ℚ
  rewardAmount : ℚ
  createdAt : ℕ

structure BlockDistribution where
  /-- Unique. -/
  blockNumber : ℕ
  reward : ℚ
  minerCount : ℕ
  totalWork : ℚ
  createdAt : ℕ
  minerRewards : List BlockMinerReward

/-- A notice of a reward; its title and message name the block and the amount. -/
structure Notification where
  userId : UserId
  blockNumber : ℕ
  rewardAmount : ℚ

structure Db where
  users : Table UserRow
  referrals : Table ReferralRow
  miningRewardsLog : List MiningRewardsLog
  referralEarnings : List ReferralEarning
  blockDistributions : List BlockDistribution
  notifications : List Notification

namespace Db

variable (db : Db)

/-- `findUnique({ where: { referredId } })`. -/
def referral (userId : UserId) : Option (ℕ × ReferralRow) :=
  db.referrals.findFirst fun _ r => r.referredId = userId

def byRefCode (refCode : String) : Option (ℕ × UserRow) :=
  db.users.findFirst fun _ user => user.refCode = some refCode

def insertReferral (referrerId referredId : UserId) : Db :=
  { db with referrals := db.referrals.insert ⟨referrerId, referredId⟩ }

end Db

/-! ## Requests -/

/-- What a referrer is looked up for. -/
inductive Purpose where
  | register (clientIp refCode : String)
  | linkReferral (userId : UserId) (clientIp : String)

inductive Request where
  /-- `newRefCode` is what `generateUniqueRefCode` has drawn. -/
  | register (clientIp : String) (refCode : Option String) (newRefCode : String)
  | linkReferral (userId : UserId) (refCode clientIp : String)

inductive Call where
  | countIp (clientIp : String) (refCode : Option String) (newRefCode : String)
  | findReferral (userId : UserId) (raw clientIp : String)
  | findById (purpose : Purpose) (id : ℕ) (raw : String)
  | findByRefCode (purpose : Purpose) (raw : String)
  | createUser (clientIp refCode : String) (referrerId : Option UserId)
  | createReferral (userId referrerId : UserId)

inductive Answer where
  | ok
  | error

/-- `/^\d+$/`, and the number. -/
def digits (raw : String) : Option ℕ :=
  match readDigits 10 0 0 raw.toList with
  | (value, count, []) => if count = 0 then none else some value
  | _ => none

/-- Above this an id is rejected by the database. -/
def MAX_INT : ℕ := 2147483647

/-- Digits may be an id; any text may be a code. -/
def lookUp (purpose : Purpose) (raw : String) : Call :=
  match purpose, digits raw with
  | .register _ _, some 0 => .findByRefCode purpose raw
  | _, some id => .findById purpose id raw
  | _, none => .findByRefCode purpose raw

/-- What becomes of the request when its referrer is known. -/
def resolved (purpose : Purpose) (referrer : Option (ℕ × UserRow)) : Option Call :=
  match purpose, referrer with
  | .register clientIp refCode, referrer =>
      -- a referrer with the same address is left out
      some (.createUser clientIp refCode
        ((referrer.filter fun found => found.2.ip ≠ some clientIp).map Prod.fst))
  | .linkReferral _ _, none => none
  | .linkReferral userId clientIp, some (id, row) =>
      if id = userId then none
      else if clientIp ≠ "" ∧ row.ip = some clientIp then none
      else some (.createReferral userId id)

def start (db : Db) : Request → Db × List Call
  | .register clientIp refCode newRefCode => (db, [.countIp clientIp refCode newRefCode])
  | .linkReferral userId refCode clientIp =>
      (db, if trim refCode = "" then [] else [.findReferral userId (trim refCode) clientIp])

def resume (db : Db) : Call → Answer → Db × Option Call
  | _, .error => (db, none)
  | .countIp clientIp refCode newRefCode, .ok =>
      if 2 ≤ (db.users.findMany fun _ user => user.ip = some clientIp).length then (db, none)
      else
        let purpose := .register clientIp newRefCode
        (db, match refCode.map trim with
          | none | some "" => resolved purpose none
          | some raw => some (lookUp purpose raw))
  | .findReferral userId raw clientIp, .ok =>
      (db, match db.referral userId with
        | some _ => none
        | none => some (lookUp (.linkReferral userId clientIp) raw))
  | .findById purpose id raw, .ok =>
      (db, if MAX_INT < id then none
        else match db.users.row id with
          | some row => resolved purpose (some (id, row))
          | none => some (.findByRefCode purpose raw))
  | .findByRefCode purpose raw, .ok => (db, resolved purpose (db.byRefCode raw))
  -- the transactions
  | .createUser clientIp refCode referrerId, .ok =>
      if (db.byRefCode refCode).isSome then (db, none)
      else
        let userId := db.users.nextId
        let db := { db with users := db.users.insert ⟨some refCode, some clientIp, 0, none⟩ }
        (referrerId.elim db fun referrerId => db.insertReferral referrerId userId, none)
  | .createReferral userId referrerId, .ok =>
      if (db.referral userId).isSome ∨ db.users.row userId = none then (db, none)
      else
        ({ db.insertReferral referrerId userId with
            users := db.users.modify userId fun user =>
              { user with referredBy := some referrerId } }, none)

def service : Service Db Call Request Answer where
  start db r := some (start db r)
  resume db c a := some (resume db c a)

def emptyDb : Db := ⟨.empty, .empty, [], [], [], []⟩

/-- What registrations and links lead to, in any interleaving. -/
def Reachable (db : Db) : Prop :=
  ∃ es t, service.sys.run ⟨emptyDb, .empty⟩ es = some t ∧ t.db = db

def dbAfter (es : List (Event Request Answer)) : Db :=
  (service.sys.run ⟨emptyDb, .empty⟩ es).elim emptyDb (·.db)

theorem reachable_dbAfter (es : List (Event Request Answer)) : Reachable (dbAfter es) := by
  unfold dbAfter
  cases hrun : service.sys.run ⟨emptyDb, .empty⟩ es with
  | none => exact ⟨[], _, rfl, rfl⟩
  | some t => exact ⟨es, t, hrun, rfl⟩

/-! ## What the two records have in common -/

structure LinkInv (db : Db) : Prop where
  unique : ∀ i j r r', db.referrals.row i = some r → db.referrals.row j = some r' →
    r.referredId = r'.referredId → i = j
  known : ∀ i r, db.referrals.row i = some r → r.referredId < db.users.nextId
  positive : db.users.row 0 = none ∧ 0 < db.users.nextId
  referrer : ∀ i r, db.referrals.row i = some r → r.referrerId ≠ 0
  /-- Who is paid for a user is in the user's row of `referrals`. -/
  backed : ∀ u user referrerId, db.users.row u = some user → user.referredBy = some referrerId →
    ∃ i, db.referrals.row i = some ⟨referrerId, u⟩

/-- The referrer that a transaction is about to store. -/
def storing : Call → Option UserId
  | .createUser _ _ referrerId => referrerId
  | .createReferral _ referrerId => some referrerId
  | _ => none

theorem referral_eq_none {db : Db} {u : UserId} :
    db.referral u = none ↔ ∀ i r, db.referrals.row i = some r → r.referredId ≠ u := by
  simp [Db.referral, Table.findFirst_eq_none]

/-- With unique rows, the row that is found is the row that there is. -/
theorem LinkInv.referral {db : Db} (h : LinkInv db) {i : ℕ} {r : ReferralRow}
    (hrow : db.referrals.row i = some r) : db.referral r.referredId = some (i, r) := by
  cases hfound : db.referral r.referredId with
  | none => exact absurd rfl (referral_eq_none.mp hfound i r hrow)
  | some found =>
      obtain ⟨j, r'⟩ := found
      obtain ⟨hrow', hsame⟩ := Table.findFirst_eq_some hfound
      obtain rfl := h.unique j i r' r hrow' hrow (of_decide_eq_true hsame)
      rw [Option.some.inj (hrow'.symm.trans hrow)]

/-- A row for a user who has none. -/
theorem LinkInv.insertReferral {db : Db} (h : LinkInv db) {u referrerId : UserId}
    (hnone : db.referral u = none) (hknown : u < db.users.nextId) (hreferrer : referrerId ≠ 0) :
    LinkInv (db.insertReferral referrerId u) where
  unique i j r r' hi hj hsame := by
    have hfree := referral_eq_none.mp hnone
    rcases Table.insert_row_eq_some.mp hi with ⟨rfl, rfl⟩ | hi
    · rcases Table.insert_row_eq_some.mp hj with ⟨rfl, -⟩ | hj
      · rfl
      · exact absurd hsame.symm (hfree j r' hj)
    · rcases Table.insert_row_eq_some.mp hj with ⟨rfl, rfl⟩ | hj
      · exact absurd hsame (hfree i r hi)
      · exact h.unique i j r r' hi hj hsame
  known := Table.forall_insert h.known hknown
  positive := h.positive
  referrer := Table.forall_insert h.referrer hreferrer
  backed u' user x hrow hx := by
    obtain ⟨i, hi⟩ := h.backed u' user x hrow hx
    exact ⟨i, Table.insert_row_of_some hi _⟩

theorem LinkInv.insertUser {db : Db} (h : LinkInv db) (refCode ip : Option String) :
    LinkInv { db with users := db.users.insert ⟨refCode, ip, 0, none⟩ } where
  unique := h.unique
  known i r hrow := (h.known i r hrow).trans (Nat.lt_succ_self _)
  positive := by
    refine ⟨?_, Nat.succ_pos _⟩
    rw [Table.insert_row, if_neg (Nat.ne_of_lt h.positive.2)]
    exact h.positive.1
  referrer := h.referrer
  backed u user x hrow hx := by
    rcases Table.insert_row_eq_some.mp hrow with ⟨-, rfl⟩ | hold
    · cases hx
    · exact h.backed u user x hold hx

/-- The transaction of `linkReferral`. -/
theorem LinkInv.link {db : Db} (h : LinkInv db) {u referrerId : UserId} {row : UserRow}
    (hnone : db.referral u = none) (hrow : db.users.row u = some row) (hreferrer : referrerId ≠ 0) :
    LinkInv { db.insertReferral referrerId u with
      users := db.users.modify u fun user => { user with referredBy := some referrerId } } := by
  have hinsert := h.insertReferral hnone (Table.row_lt hrow) hreferrer
  refine ⟨hinsert.unique, hinsert.known, ⟨?_, hinsert.positive.2⟩, hinsert.referrer, ?_⟩
  · have hne : (0 : ℕ) ≠ u := by
      rintro rfl
      rw [h.positive.1] at hrow
      cases hrow
    rw [Table.modify_row, if_neg hne]
    exact h.positive.1
  · intro v user x hv hx
    rcases Table.modify_row_eq_some.mp hv with ⟨rfl, old, -, rfl⟩ | ⟨-, hold⟩
    · obtain rfl := Option.some.inj hx
      exact ⟨_, Table.insert_row_self ..⟩
    · exact hinsert.backed v user x hold hx

theorem lookUp_storing (purpose : Purpose) (raw : String) :
    storing (lookUp purpose raw) = none := by
  unfold lookUp
  split <;> rfl

/-- A referrer that is found is a user. -/
theorem resolved_storing {db : Db} (h : LinkInv db) {purpose : Purpose}
    {referrer : Option (ℕ × UserRow)}
    (hfound : ∀ found ∈ referrer, db.users.row found.1 = some found.2) {c : Call}
    (hc : resolved purpose referrer = some c) : ∀ x ∈ storing c, x ≠ 0 := by
  have hne : ∀ found ∈ referrer, found.1 ≠ 0 := by
    intro found hmem hzero
    have hrow := hfound found hmem
    rw [hzero, h.positive.1] at hrow
    cases hrow
  intro x hx
  cases purpose with
  | register clientIp refCode =>
      obtain rfl := Option.some.inj hc
      obtain ⟨found, hmem, rfl⟩ := Option.map_eq_some_iff.mp hx
      exact hne found (Option.mem_filter_iff.mp hmem).1
  | linkReferral userId clientIp =>
      cases referrer with
      | none => cases hc
      | some found =>
          obtain ⟨id, row⟩ := found
          simp only [resolved] at hc
          split at hc
          · cases hc
          · split at hc
            · cases hc
            · obtain rfl := Option.some.inj hc
              obtain rfl := Option.some.inj hx
              exact hne _ rfl

theorem resume_linkInv {db : Db} {c : Call} {a : Answer} (h : LinkInv db)
    (hc : ∀ x ∈ storing c, x ≠ 0) :
    LinkInv (resume db c a).1 ∧ ∀ c' ∈ (resume db c a).2, ∀ x ∈ storing c', x ≠ 0 := by
  have hnothing : LinkInv db ∧ ∀ c' ∈ (none : Option Call), ∀ x ∈ storing c', x ≠ 0 := by
    simp [h]
  cases a with
  | error => exact hnothing
  | ok =>
      cases c with
      | countIp clientIp refCode newRefCode =>
          simp only [resume]
          split
          · exact hnothing
          · refine ⟨h, ?_⟩
            intro c' hc'
            dsimp only at hc'
            split at hc'
            · exact resolved_storing h (by simp) hc'
            · exact resolved_storing h (by simp) hc'
            · obtain rfl := Option.some.inj hc'
              simp [lookUp_storing]
      | findReferral userId raw clientIp =>
          refine ⟨h, ?_⟩
          intro c' hc'
          simp only [resume] at hc'
          split at hc'
          · cases hc'
          · obtain rfl := Option.some.inj hc'
            simp [lookUp_storing]
      | findById purpose id raw =>
          refine ⟨h, ?_⟩
          intro c' hc'
          simp only [resume] at hc'
          split at hc'
          · cases hc'
          · split at hc'
            case h_1 row hrow => exact resolved_storing h (by simpa using hrow) hc'
            case h_2 =>
              obtain rfl := Option.some.inj hc'
              simp [storing]
      | findByRefCode purpose raw =>
          refine ⟨h, ?_⟩
          intro c' hc'
          refine resolved_storing h ?_ hc'
          intro found hfound
          exact (Table.findFirst_eq_some hfound).1
      | createUser clientIp refCode referrerId =>
          simp only [resume]
          split
          · exact hnothing
          · have huser := h.insertUser (some refCode) (some clientIp)
            refine ⟨?_, by simp⟩
            cases referrerId with
            | none => exact huser
            | some referrerId =>
                refine huser.insertReferral ?_ (Nat.lt_succ_self _) (hc referrerId rfl)
                refine referral_eq_none.mpr ?_
                intro i r hrow
                exact Nat.ne_of_lt (h.known i r hrow)
      | createReferral userId referrerId =>
          simp only [resume]
          split
          case isTrue => exact hnothing
          case isFalse hcheck =>
            obtain ⟨hfree, hsome⟩ := not_or.mp hcheck
            obtain ⟨row, hrow⟩ := Option.ne_none_iff_exists'.mp hsome
            refine ⟨h.link ?_ hrow (hc referrerId rfl), by simp⟩
            simpa using hfree

theorem linkInv_emptyDb : LinkInv emptyDb where
  unique := by simp [emptyDb]
  known := by simp [emptyDb]
  positive := ⟨rfl, Nat.zero_lt_one⟩
  referrer := by simp [emptyDb]
  backed := by simp [emptyDb]

/-- Whatever is registered and linked, in whatever order, `referredBy` agrees with
the row of `referrals`. -/
theorem Reachable.linkInv {db : Db} (h : Reachable db) : LinkInv db := by
  obtain ⟨es, t, hrun, rfl⟩ := h
  have hholds := service.invariant (C := fun _ _ _ => True) (I := LinkInv)
    (J := fun _ c => ∀ x ∈ storing c, x ≠ 0) ?_ ?_ ?_
    (service.sys.meets_of_forall (fun s e => by cases e <;> simp [Service.Guard]) _ _) hrun
  · exact hholds.1
  · intro db r db' cs hI hstart
    cases r with
    | register clientIp refCode newRefCode =>
        obtain ⟨rfl, rfl⟩ := Prod.mk.inj (Option.some.inj hstart)
        exact ⟨hI, fun _ h => h, by simp [storing]⟩
    | linkReferral userId refCode clientIp =>
        obtain ⟨rfl, rfl⟩ := Prod.mk.inj (Option.some.inj hstart)
        refine ⟨hI, fun _ h => h, ?_⟩
        intro c hc
        split at hc
        · cases hc
        · obtain rfl := List.mem_singleton.mp hc
          simp [storing]
  · intro db c a db' next hI hJ _ hresume
    have hkeeps := resume_linkInv (a := a) hI hJ
    rw [Option.some.inj hresume] at hkeeps
    exact ⟨hkeeps.1, fun _ h => h, hkeeps.2⟩
  · exact ⟨linkInv_emptyDb, by simp⟩

end BlockMiner.Referrals
