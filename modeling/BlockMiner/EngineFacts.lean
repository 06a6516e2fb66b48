import BlockMiner.Engine
import Mathlib.Tactic.Ring
import Mathlib.Tactic.Linarith

/-!
# What the engine operations do to the miners

One lemma per operation, so that later files never unfold them. Money is
followed through `LedgerRow`, the four fields of a miner that take part in
the accounting; `ledger?` reads them by miner id and `unpersisted` reads
the part of a user's balance the database does not have yet.

The `_cases` lemmas say everything an operation can do to the engine: it
leaves it alone, or mutates one loaded miner in the stated way.
-/

namespace BlockMiner

/-- The fields of a miner that take part in the accounting. -/
structure LedgerRow where
  userId : UserId
  balance : ℚ
  lastPersistedBalance : ℚ
  lifetimeMined : ℚ
deriving DecidableEq

def Miner.ledger (m : Miner) : LedgerRow :=
  ⟨m.userId, m.balance, m.lastPersistedBalance, m.lifetimeMined⟩

namespace MinerStore

theorem modify_of_some {st : MinerStore} {id : MinerId} {m : Miner}
    (h : st.miners.get? id = some m) (f : Miner → Miner) :
    (st.modify id f).miners = st.miners.set id { f m with id := m.id, userId := m.userId } := by
  unfold modify
  split
  case h_1 hnone =>
    rw [h] at hnone
    cases hnone
  case h_2 m' hm' =>
    obtain rfl := Option.some.inj (h.symm.trans hm')
    rfl

theorem modify_of_none {st : MinerStore} {id : MinerId}
    (h : st.miners.get? id = none) (f : Miner → Miner) : st.modify id f = st := by
  unfold modify
  split
  case h_1 => rfl
  case h_2 m' hm' =>
    rw [h] at hm'
    cases hm'

@[simp] theorem modify_minersByUserId (st : MinerStore) (id : MinerId) (f : Miner → Miner) :
    (st.modify id f).minersByUserId = st.minersByUserId := by
  unfold modify
  split <;> rfl

theorem modify_get? (st : MinerStore) (id x : MinerId) (f : Miner → Miner) :
    (st.modify id f).miners.get? x
      = if x = id then (st.miners.get? x).map fun m => { f m with id := m.id, userId := m.userId }
        else st.miners.get? x := by
  cases h : st.miners.get? id with
  | none =>
      rw [modify_of_none h]
      split
      case isTrue heq => rw [heq, h]; rfl
      case isFalse => rfl
  | some m =>
      rw [modify_of_some h, OrdMap.get?_set]
      split
      case isTrue heq => rw [heq, h]; rfl
      case isFalse => rfl

end MinerStore

namespace Engine

/-! ## Lookups -/

/-- The accounting fields of the miner loaded under `minerId`. -/
def ledger? (e : Engine) (minerId : MinerId) : Option LedgerRow :=
  (e.miner? minerId).map Miner.ledger

@[simp] theorem modifyMiner_roundWork (e : Engine) (id : MinerId) (f : Miner → Miner) :
    (e.modifyMiner id f).roundWork = e.roundWork := rfl

@[simp] theorem modifyMiner_totalMinted (e : Engine) (id : MinerId) (f : Miner → Miner) :
    (e.modifyMiner id f).totalMinted = e.totalMinted := rfl

@[simp] theorem modifyMiner_minersByUserId (e : Engine) (id : MinerId) (f : Miner → Miner) :
    (e.modifyMiner id f).store.minersByUserId = e.store.minersByUserId :=
  MinerStore.modify_minersByUserId ..

theorem miner?_modifyMiner (e : Engine) (id x : MinerId) (f : Miner → Miner) :
    (e.modifyMiner id f).miner? x
      = if x = id then (e.miner? x).map fun m => { f m with id := m.id, userId := m.userId }
        else e.miner? x :=
  MinerStore.modify_get? ..

theorem miner?_id {e : Engine} {id : MinerId} {m : Miner} (h : e.miner? id = some m) :
    m.id = id := (e.store.id_ok id m h).1

/-- Finding a miner by user finds the object that is loaded under its id. -/
theorem find_eq_some_iff {e : Engine} {u : UserId} {m : Miner} :
    e.findMinerByUserId u = some m ↔ e.miner? m.id = some m ∧ m.userId = u := by
  constructor
  · intro h
    unfold findMinerByUserId at h
    split at h
    case isTrue => cases h
    case isFalse hu =>
      obtain ⟨id, hid, hm⟩ := Option.bind_eq_some_iff.mp h
      obtain ⟨m', hm', hu'⟩ := e.store.user_ok u id hid
      obtain rfl := Option.some.inj (hm.symm.trans hm')
      exact ⟨by rw [miner?_id hm]; exact hm, hu'⟩
  · rintro ⟨hm, rfl⟩
    obtain ⟨-, h0, hby⟩ := e.store.id_ok _ m hm
    unfold findMinerByUserId
    rw [if_neg h0, hby]
    exact hm

theorem find_of_miner? {e : Engine} {id : MinerId} {m : Miner} (h : e.miner? id = some m) :
    e.findMinerByUserId m.userId = some m :=
  find_eq_some_iff.mpr ⟨by rw [miner?_id h]; exact h, rfl⟩

theorem find_modifyMiner {e : Engine} {id : MinerId} {m : Miner} (h : e.miner? id = some m)
    (f : Miner → Miner) (u : UserId) :
    (e.modifyMiner id f).findMinerByUserId u
      = if u = m.userId then some { f m with id := m.id, userId := m.userId }
        else e.findMinerByUserId u := by
  have hself : (e.modifyMiner id f).miner? id
      = some { f m with id := m.id, userId := m.userId } := by
    rw [miner?_modifyMiner, if_pos rfl, h]
    rfl
  split
  case isTrue hu =>
    subst hu
    exact find_of_miner? hself
  case isFalse hu =>
    ext n
    rw [find_eq_some_iff, find_eq_some_iff, miner?_modifyMiner]
    refine and_congr_left fun hn => ?_
    split
    case isTrue hid =>
      rw [hid, h]
      constructor
      · rintro heq
        obtain rfl := Option.some.inj heq
        exact absurd hn.symm hu
      · rintro heq
        obtain rfl := Option.some.inj heq
        exact absurd hn.symm hu
    case isFalse => exact Iff.rfl

/-! ## The unpersisted part of a balance -/

/-- What the database does not have yet of a user's balance. -/
def unpersisted (e : Engine) (u : UserId) : ℚ :=
  match e.findMinerByUserId u with
  | none => 0
  | some m => persistDelta m

theorem unpersisted_of_find {e : Engine} {u : UserId} {m : Miner}
    (h : e.findMinerByUserId u = some m) : e.unpersisted u = persistDelta m := by
  rw [unpersisted, h]

theorem unpersisted_of_none {e : Engine} {u : UserId}
    (h : e.findMinerByUserId u = none) : e.unpersisted u = 0 := by
  rw [unpersisted, h]

/-- Mutating one miner moves the unpersisted amount of its own user only. -/
theorem unpersisted_modifyMiner {e : Engine} {id : MinerId} {m : Miner}
    (h : e.miner? id = some m) (f : Miner → Miner) (u : UserId) :
    (e.modifyMiner id f).unpersisted u = e.unpersisted u
      + if u = m.userId then persistDelta (f m) - persistDelta m else 0 := by
  have hfind := find_modifyMiner h f u
  by_cases hu : u = m.userId
  · subst hu
    rw [if_pos rfl] at hfind
    rw [unpersisted_of_find hfind, unpersisted_of_find (find_of_miner? h), if_pos rfl]
    simp only [persistDelta]
    ring
  · rw [if_neg hu] at hfind
    rw [if_neg hu, add_zero, unpersisted, unpersisted, hfind]

/-- The unpersisted amounts only depend on the user index and on the
difference of the two balances of each loaded miner. -/
theorem unpersisted_congr {e e' : Engine}
    (hby : e'.store.minersByUserId = e.store.minersByUserId)
    (h : ∀ id, (e'.miner? id).map persistDelta = (e.miner? id).map persistDelta) (u : UserId) :
    e'.unpersisted u = e.unpersisted u := by
  have key : (e'.findMinerByUserId u).map persistDelta
      = (e.findMinerByUserId u).map persistDelta := by
    unfold findMinerByUserId
    rw [hby]
    split
    · rfl
    · cases e.store.minersByUserId.get? u with
      | none => rfl
      | some id => exact h id
  unfold unpersisted
  cases h1 : e'.findMinerByUserId u <;> cases h2 : e.findMinerByUserId u <;>
    simp_all

/-! ## One lemma per operation -/

/-- A purchase that goes through is covered by the balance. -/
theorem applyBoost_covered (e : Engine) (id : MinerId) (now : Nat) :
    ((e.applyBoost id now).1 = e ∧ (e.applyBoost id now).2.ok = false)
      ∨ ∃ m, e.miner? id = some m ∧ boostCost ≤ m.balance
        ∧ (e.applyBoost id now).1 = e.modifyMiner id (boosted now)
        ∧ (e.applyBoost id now).2.ok = true := by
  unfold applyBoost
  cases h : e.miner? id with
  | none => exact Or.inl ⟨rfl, rfl⟩
  | some m =>
      by_cases hb : m.balance < boostCost
      · exact Or.inl (by simp [hb, Reply.ok])
      · exact Or.inr ⟨m, rfl, not_lt.mp hb, by simp [hb, Reply.ok]⟩

theorem applyBoost_cases (e : Engine) (id : MinerId) (now : Nat) :
    ((e.applyBoost id now).1 = e ∧ (e.applyBoost id now).2.ok = false)
      ∨ ∃ m, e.miner? id = some m
        ∧ (e.applyBoost id now).1 = e.modifyMiner id (boosted now)
        ∧ (e.applyBoost id now).2.ok = true := by
  rcases applyBoost_covered e id now with h | ⟨m, hm, -, h⟩
  · exact Or.inl h
  · exact Or.inr ⟨m, hm, h⟩

theorem upgradeRig_covered (e : Engine) (id : MinerId) :
    ((e.upgradeRig id).1 = e ∧ (e.upgradeRig id).2.ok = false)
      ∨ ∃ m, e.miner? id = some m ∧ rigCost m ≤ m.balance
        ∧ (e.upgradeRig id).1 = e.modifyMiner id withRig
        ∧ (e.upgradeRig id).2.ok = true := by
  unfold upgradeRig
  cases h : e.miner? id with
  | none => exact Or.inl ⟨rfl, rfl⟩
  | some m =>
      by_cases hb : m.balance < rigCost m
      · exact Or.inl (by simp [hb, Reply.ok])
      · exact Or.inr ⟨m, rfl, not_lt.mp hb, by simp [hb, Reply.ok]⟩

theorem upgradeRig_cases (e : Engine) (id : MinerId) :
    ((e.upgradeRig id).1 = e ∧ (e.upgradeRig id).2.ok = false)
      ∨ ∃ m, e.miner? id = some m
        ∧ (e.upgradeRig id).1 = e.modifyMiner id withRig
        ∧ (e.upgradeRig id).2.ok = true := by
  rcases upgradeRig_covered e id with h | ⟨m, hm, -, h⟩
  · exact Or.inl h
  · exact Or.inr ⟨m, hm, h⟩

theorem applyUserBalanceDelta_cases (rt : Bool) (e : Engine) (u : UserId) (d : ℚ) :
    (applyUserBalanceDelta rt e u d = e ∧ (rt = false ∨ e.findMinerByUserId u = none))
      ∨ ∃ m, rt = true ∧ e.miner? m.id = some m ∧ m.userId = u
        ∧ applyUserBalanceDelta rt e u d = e.modifyMiner m.id (shifted d) := by
  unfold applyUserBalanceDelta
  cases rt with
  | false => exact Or.inl ⟨rfl, Or.inl rfl⟩
  | true =>
      cases h : e.findMinerByUserId u with
      | none => exact Or.inl ⟨rfl, Or.inr rfl⟩
      | some m =>
          obtain ⟨hm, hu⟩ := find_eq_some_iff.mp h
          exact Or.inr ⟨m, rfl, hm, hu, rfl⟩

theorem reloadMinerProfile_cases (e : Engine) (u : UserId) (profile : Option Profile) :
    e.reloadMinerProfile u profile = e
      ∨ ∃ p m, profile = some p ∧ e.findMinerByUserId u = some m
        ∧ e.reloadMinerProfile u profile = e.modifyMiner m.id (reloaded p) := by
  unfold reloadMinerProfile
  cases profile with
  | none => exact Or.inl rfl
  | some p =>
      cases h : e.findMinerByUserId u with
      | none => exact Or.inl rfl
      | some m => exact Or.inr ⟨p, m, rfl, rfl, rfl⟩

/-- Joining mutates the loaded miner of the user, or adds a new one under
an unused id; in the second case nobody else's lookup changes. -/
theorem createOrGetMiner_cases {e e' : Engine} {uuid : MinerId} {req : JoinRequest}
    (h : e.createOrGetMiner uuid req = some e') :
    (∃ m, e.findMinerByUserId req.userId = some m ∧ e' = e.modifyMiner m.id (rejoin req))
      ∨ (e.findMinerByUserId req.userId = none ∧ e.miner? uuid = none
        ∧ e'.totalMinted = e.totalMinted
        ∧ ∀ x, e'.miner? x = if x = uuid then some (newMiner uuid req) else e.miner? x) := by
  unfold createOrGetMiner at h
  cases hfind : e.findMinerByUserId req.userId with
  | some m =>
      rw [hfind] at h
      exact Or.inl ⟨m, rfl, (Option.some.inj h).symm⟩
  | none =>
      simp only [hfind] at h
      split at h
      case isTrue hfresh =>
        obtain rfl := Option.some.inj h
        exact Or.inr ⟨rfl, hfresh.1, rfl, fun x => OrdMap.get?_set ..⟩
      case isFalse => cases h

/-- A newly loaded miner owes the database nothing. -/
theorem createOrGetMiner_unpersisted_new {e e' : Engine} {uuid : MinerId} {req : JoinRequest}
    (hfind : e.findMinerByUserId req.userId = none) (huuid : e.miner? uuid = none)
    (hget : ∀ x, e'.miner? x = if x = uuid then some (newMiner uuid req) else e.miner? x)
    (u : UserId) : e'.unpersisted u = e.unpersisted u := by
  have hnew : e'.miner? uuid = some (newMiner uuid req) := by rw [hget, if_pos rfl]
  by_cases hu : u = req.userId
  · subst hu
    have hfind' : e'.findMinerByUserId req.userId = some (newMiner uuid req) :=
      find_of_miner? hnew
    rw [unpersisted_of_none hfind, unpersisted_of_find hfind']
    exact sub_self _
  · have hsame : e'.findMinerByUserId u = e.findMinerByUserId u := by
      ext n
      rw [find_eq_some_iff, find_eq_some_iff, hget]
      refine and_congr_left fun hn => ?_
      split
      case isTrue hid =>
        rw [hid, huuid]
        refine ⟨fun heq => ?_, fun heq => by cases heq⟩
        obtain rfl := Option.some.inj heq
        exact absurd hn.symm hu
      case isFalse => exact Iff.rfl
    rw [unpersisted, unpersisted, hsame]

end Engine

end BlockMiner
