import BlockMiner.Table
import BlockMiner.EngineLedger

/-!
# Overlapping calls of `persistMinerProfile`

The persist timer, the rig upgrade, the toggle and the disconnect handler
all call `persistMinerProfile` on the same miner objects. A call is two
steps with an `await` between them: it computes the unpersisted delta and
issues the increment, and later sets the mark to whatever the balance is
by then. `PersistState` keeps the calls in flight in a table, each with
the delta it issued.

What a user owns is then the settled amount less the deltas in flight,
which are in the table already and still below the mark as well. Steps
move this quantity by their flow, except for a mark that is set after the
unpersisted amount of its miner has changed.
-/

namespace BlockMiner

open Engine

/-- A call of `persistMinerProfile` that has issued its update. -/
structure PersistCall where
  minerId : MinerId
  userId : UserId
  delta : ℚ

structure PersistState where
  world : World
  calls : Table PersistCall

inductive PersistOp where
  /-- The call up to its `await`. -/
  | persistBegin (minerId : MinerId)
  /-- The rest of the call, after the update was made. -/
  | persistEnd (call : Nat)
  | applyBoost (minerId : MinerId) (now : Nat)
  | upgradeRig (minerId : MinerId)
  | applyUserBalanceDelta (u : UserId) (delta : ℚ)

namespace PersistState

def setEngine (s : PersistState) (engine : Engine) : PersistState :=
  { s with world := { s.world with engine } }

def persistBegin (s : PersistState) (minerId : MinerId) : PersistState :=
  match s.world.engine.miner? minerId with
  | none => s
  | some m =>
    if nothingToPersist (persistDelta m) then s
    else
      { world := s.world.increment m.userId (persistDelta m)
        calls := s.calls.insert ⟨minerId, m.userId, persistDelta m⟩ }

def persistEnd (s : PersistState) (call : Nat) : Option PersistState :=
  (s.calls.row call).map fun c =>
    { s.setEngine (s.world.engine.markPersisted c.minerId) with calls := s.calls.delete call }

def step (s : PersistState) : PersistOp → Option PersistState
  | .persistBegin id => some (s.persistBegin id)
  | .persistEnd call => s.persistEnd call
  | .applyBoost id now => some (s.setEngine (s.world.engine.applyBoost id now).1)
  | .upgradeRig id => some (s.setEngine (s.world.engine.upgradeRig id).1)
  | .applyUserBalanceDelta u delta => some { s with world := s.world.applyUserBalanceDelta u delta }

def sys : System PersistState PersistOp := ⟨step⟩

/-- The balance changes that only the engine knows of. -/
def flow (u : UserId) (s : PersistState) : PersistOp → ℚ
  | .applyBoost id now =>
      - spend s.world.engine u id (s.world.engine.applyBoost id now).2.ok fun _ => boostCost
  | .upgradeRig id => - spend s.world.engine u id (s.world.engine.upgradeRig id).2.ok rigCost
  | .persistBegin _ | .persistEnd _ | .applyUserBalanceDelta _ _ => 0

/-- A mark is set while the unpersisted amount of its miner is still the
delta the call issued. -/
def MarkCurrent (s : PersistState) : PersistOp → Prop
  | .persistEnd call => ∀ c ∈ s.calls.row call,
      ∀ m ∈ s.world.engine.miner? c.minerId, persistDelta m = c.delta
  | _ => True

instance (s : PersistState) : ∀ op, Decidable (MarkCurrent s op)
  | .persistEnd call => inferInstanceAs (Decidable (∀ c ∈ s.calls.row call, _))
  | .persistBegin _ | .applyBoost _ _ | .upgradeRig _ | .applyUserBalanceDelta _ _ =>
      inferInstanceAs (Decidable True)

def Idle (s : PersistState) : Prop := ∀ call, s.calls.row call = none

instance (s : PersistState) : Decidable s.Idle :=
  decidable_of_iff (∀ call < s.calls.nextId, s.calls.row call = none)
    ⟨fun h call => (Nat.lt_or_ge call s.calls.nextId).elim (h call) (s.calls.fresh call),
      fun h call _ => h call⟩

/-- The delta a call still has in flight for `u`. -/
def inFlight (u : UserId) (_ : Nat) (c : PersistCall) : ℚ := if u = c.userId then c.delta else 0

/-- What `u` owns: the deltas in flight are counted twice in `settled`. -/
def owned (s : PersistState) (u : UserId) : ℚ := s.world.settled u - s.calls.sum (inFlight u)

/-- The calls in flight name the users of their miners. -/
def CallsMatch (s : PersistState) : Prop :=
  ∀ call c, s.calls.row call = some c →
    ∃ m, s.world.engine.miner? c.minerId = some m ∧ m.userId = c.userId

/-! ## One lemma per step -/

theorem modifyMiner_keeps_user (e : Engine) (id : MinerId) (f : Miner → Miner) {x : MinerId}
    {u : UserId} (h : ∃ m, e.miner? x = some m ∧ m.userId = u) :
    ∃ m, (e.modifyMiner id f).miner? x = some m ∧ m.userId = u := by
  obtain ⟨m, hm, hu⟩ := h
  rw [miner?_modifyMiner, hm]
  split
  · exact ⟨_, rfl, hu⟩
  · exact ⟨m, rfl, hu⟩

/-- A change of one miner disturbs no call. -/
theorem CallsMatch.modifyMiner {s : PersistState} (h : CallsMatch s) (id : MinerId)
    (f : Miner → Miner) : CallsMatch (s.setEngine (s.world.engine.modifyMiner id f)) :=
  fun call c hc => modifyMiner_keeps_user _ id f (h call c hc)

theorem callsMatch_purchase {s : PersistState} {e' : Engine} {id : MinerId} {ok : Bool}
    {f : Miner → Miner} (hs : CallsMatch s)
    (h : (e' = s.world.engine ∧ ok = false)
      ∨ ∃ m, s.world.engine.miner? id = some m ∧ e' = s.world.engine.modifyMiner id f
          ∧ ok = true) :
    CallsMatch (s.setEngine e') := by
  rcases h with ⟨rfl, -⟩ | ⟨m, -, rfl, -⟩
  · exact hs
  · exact hs.modifyMiner id f

/-- Issuing the update counts the delta twice and puts it in flight once. -/
theorem persistBegin_owned (s : PersistState) (id : MinerId) (u : UserId) :
    (s.persistBegin id).owned u = s.owned u := by
  unfold persistBegin
  cases hm : s.world.engine.miner? id with
  | none => rfl
  | some m =>
      simp only
      split
      case isTrue => rfl
      case isFalse =>
        simp only [owned, settled_increment, Table.sum_insert, inFlight]
        ring

theorem persistBegin_match {s : PersistState} (hs : CallsMatch s) (id : MinerId) :
    CallsMatch (s.persistBegin id) := by
  unfold persistBegin
  cases hm : s.world.engine.miner? id with
  | none => exact hs
  | some m =>
      simp only
      split
      case isTrue => exact hs
      case isFalse =>
        intro call c hc
        rcases Table.insert_row_eq_some.mp hc with ⟨-, rfl⟩ | hold
        · exact ⟨m, hm, rfl⟩
        · exact hs call c hold

theorem unpersisted_markPersisted {e : Engine} {id : MinerId} {m : Miner}
    (hm : e.miner? id = some m) (u : UserId) :
    (e.markPersisted id).unpersisted u
      = e.unpersisted u - if u = m.userId then persistDelta m else 0 := by
  rw [markPersisted, unpersisted_modifyMiner hm]
  split
  case isTrue =>
    simp only [persistDelta]
    ring
  case isFalse => ring

/-- Setting the mark takes the unpersisted amount away, and the end of the
call takes its delta out of flight: what is owned stays put exactly when
the two are the same. -/
theorem persistEnd_owned_iff {s s' : PersistState} {call : Nat} {c : PersistCall} {m : Miner}
    (hc : s.calls.row call = some c) (hm : s.world.engine.miner? c.minerId = some m)
    (hu : m.userId = c.userId) (h : s.persistEnd call = some s') :
    s'.owned c.userId = s.owned c.userId ↔ persistDelta m = c.delta := by
  rw [persistEnd, hc] at h
  obtain rfl := Option.some.inj h
  simp only [owned, World.settled, setEngine, unpersisted_markPersisted hm, Table.sum_delete hc,
    inFlight, hu, if_true]
  constructor <;> intro heq <;> linarith

theorem persistEnd_owned {s s' : PersistState} {call : Nat} (hs : CallsMatch s)
    (hcur : MarkCurrent s (.persistEnd call)) (h : s.persistEnd call = some s') (u : UserId) :
    s'.owned u = s.owned u := by
  obtain ⟨c, hc, -⟩ := Option.map_eq_some_iff.mp h
  obtain ⟨m, hm, hu⟩ := hs call c hc
  by_cases heq : u = c.userId
  · subst heq
    exact (persistEnd_owned_iff hc hm hu h).mpr (hcur c hc m hm)
  · rw [persistEnd, hc] at h
    obtain rfl := Option.some.inj h
    simp only [owned, World.settled, setEngine, unpersisted_markPersisted hm,
      Table.sum_delete hc, inFlight, hu, if_neg heq]
    ring

theorem persistEnd_match {s s' : PersistState} {call : Nat} (hs : CallsMatch s)
    (h : s.persistEnd call = some s') : CallsMatch s' := by
  obtain ⟨c, -, rfl⟩ := Option.map_eq_some_iff.mp h
  intro call' c' hc'
  refine hs.modifyMiner c.minerId _ call' c' ?_
  have hrow : (s.calls.delete call).row call' = some c' := hc'
  rw [Table.delete_row] at hrow
  split at hrow
  case isTrue => cases hrow
  case isFalse => exact hrow

/-- **Step lemma.** -/
theorem step_owned {s s' : PersistState} {op : PersistOp} (u : UserId) (hs : CallsMatch s)
    (hcur : MarkCurrent s op) (h : s.step op = some s') :
    CallsMatch s' ∧ s'.owned u = s.owned u + flow u s op := by
  cases op with
  | persistBegin id =>
      obtain rfl := Option.some.inj h
      exact ⟨persistBegin_match hs id, by rw [persistBegin_owned, flow, add_zero]⟩
  | persistEnd call =>
      exact ⟨persistEnd_match hs h, by rw [persistEnd_owned hs hcur h, flow, add_zero]⟩
  | applyBoost id now =>
      obtain rfl := Option.some.inj h
      have hcases := applyBoost_cases s.world.engine id now
      have hsettled := settled_purchase s.world u (fun _ => boostCost)
        (fun m => by simp only [persistDelta, boosted]; ring) hcases
      refine ⟨callsMatch_purchase hs hcases, ?_⟩
      simp only [owned, setEngine, flow]
      rw [hsettled]
      ring
  | upgradeRig id =>
      obtain rfl := Option.some.inj h
      have hcases := upgradeRig_cases s.world.engine id
      have hsettled := settled_purchase s.world u rigCost
        (fun m => by simp only [persistDelta, withRig]; ring) hcases
      refine ⟨callsMatch_purchase hs hcases, ?_⟩
      simp only [owned, setEngine, flow]
      rw [hsettled]
      ring
  | applyUserBalanceDelta v delta =>
      obtain rfl := Option.some.inj h
      refine ⟨?_, by simp only [owned, settled_applyUserBalanceDelta, flow, add_zero]⟩
      rcases applyUserBalanceDelta_cases s.world.runtimeSet s.world.engine v delta with
        ⟨heq, -⟩ | ⟨m, -, -, -, heq⟩
      · intro call c hc
        simp only [World.applyUserBalanceDelta, heq]
        exact hs call c hc
      · intro call c hc
        simp only [World.applyUserBalanceDelta, heq]
        exact modifyMiner_keeps_user _ m.id _ (hs call c hc)

theorem owned_of_idle {s : PersistState} (h : s.Idle) (u : UserId) :
    s.owned u = s.world.settled u := by
  rw [owned, Table.sum_eq_zero fun i c hc => ?_, sub_zero]
  rw [h i] at hc
  cases hc

/-! ## Conservation at rest -/

/-- **No lost or doubled delta.** From a state without calls to another
one, what the calls wrote plus what is left unpersisted is what was
unpersisted before, moved by the changes made in memory. -/
theorem persisted_conserved {s t : PersistState} {ops : List PersistOp} (u : UserId)
    (hstart : s.Idle) (hcur : sys.Meets MarkCurrent s ops) (hrun : sys.run s ops = some t)
    (hend : t.Idle) :
    (t.world.polBalance u - s.world.polBalance u) + t.world.engine.unpersisted u
      = s.world.engine.unpersisted u + sys.total (flow u) s ops := by
  have hmatch : CallsMatch s := fun call c hc => by
    rw [hstart call] at hc
    cases hc
  have hrun' := sys.run_potential (φ := (·.owned u))
    (fun _ _ _ hs hC hstep => step_owned u hs hC hstep) hmatch hcur hrun
  simp only [owned_of_idle hstart, owned_of_idle hend, World.settled] at hrun'
  linarith

/-- One user with 10 POL in the table and a loaded miner, id 7. -/
def persistStart : PersistState where
  world := (ledger.run ledgerStart [ledgerJoin]).getD ledgerStart
  calls := .empty

/-- A boost and two persists in turn; the second finds nothing to write. -/
def persistInTurn : List PersistOp :=
  [.applyBoost 7 0, .persistBegin 7, .applyUserBalanceDelta 1 5, .persistEnd 1, .persistBegin 7]

theorem persisted_conserved_inTurn :
    ∃ t, sys.run persistStart persistInTurn = some t
      ∧ (t.world.polBalance 1 - persistStart.world.polBalance 1) + t.world.engine.unpersisted 1
          = persistStart.world.engine.unpersisted 1
            + sys.total (flow 1) persistStart persistInTurn :=
  have hidle : ∃ t ∈ sys.run persistStart persistInTurn, t.Idle := by decide +kernel
  have ⟨t, hrun, hend⟩ := hidle
  ⟨t, hrun, persisted_conserved 1 (fun _ => rfl) (by decide +kernel) hrun hend⟩

/-- A boost bought while the previous one is being written: its price goes
under the mark without ever reaching the table. -/
theorem overlap_loses_delta :
    ¬ ∀ (s t : PersistState) (ops : List PersistOp) (u : UserId), s.Idle → t.Idle →
        sys.run s ops = some t →
        (t.world.polBalance u - s.world.polBalance u) + t.world.engine.unpersisted u
          = s.world.engine.unpersisted u + sys.total (flow u) s ops := by
  intro h
  have hlost : ∃ t ∈ sys.run persistStart
      [.applyBoost 7 0, .persistBegin 7, .applyBoost 7 0, .persistEnd 1],
      t.Idle ∧ t.world.polBalance 1 = 10 - boostCost ∧ t.world.engine.unpersisted 1 = 0 := by
    decide +kernel
  obtain ⟨t, hrun, hend, hdb, hrest⟩ := hlost
  have hclaim := h persistStart t _ 1 (fun _ => rfl) hend hrun
  rw [hdb, hrest] at hclaim
  revert hclaim
  decide +kernel

end PersistState

end BlockMiner
