import BlockMiner.AutoMiningGpus

/-!
# GPUs are claimed and counted once

The checks of a claim are made before its transaction, and not again in it; a
claim's machine counts beside its GPU once it is in a rack. In a run whose
claims would still pass their checks at the commit, and in which such a machine
is put into a rack only when its GPU has expired, all is in order (`InOrder`).
-/

namespace BlockMiner.AutoMiningGpus

open Machines (Trail Live)

section Results

variable (env : Env)

/-- Every GPU is claimed at most once, every user at most 24 times in 24 hours, no credit
is negative, and every claim adds to the hash rate at most once. -/
structure InOrder (db : Db) : Prop where
  once : ∀ gpuId, (db.autoMiningGpuLog.filter fun r => r.gpuId = gpuId).length ≤ 1
  daily : ∀ u t, (db.autoMiningGpuLog.filter fun r =>
    r.userId = u ∧ t < r.claimedAt + DAY_MS ∧ r.claimedAt ≤ t).length ≤ DAILY_LIMIT
  credit : ∀ u, 0 ≤ db.autoMiningSecondsBalance u
  counted : ∀ u gpuId now, db.clock ≤ now → counted db u now gpuId ≤ 1

/-- The checks of a claim, made once more at its commit. -/
def Stands (db : Db) : Call → Prop
  | .commit c _ =>
      (db.autoMiningGpu.row c.gpuId).any (isClaimable c.userId) = true
        ∧ claims24h db c.userId c.now < DAILY_LIMIT
        ∧ CLAIM_SECONDS ≤ db.autoMiningSecondsBalance c.userId
  | _ => True

/-- The GPU does not count any more. -/
def isExpired (db : Db) (now gpuId : ℕ) : Bool :=
  (db.autoMiningGpu.row gpuId).all fun g => g.expiresAt.all (· ≤ now)

/-- A machine of a claim is put into a rack when its GPU has expired. -/
def Alone (db : Db) (now : ℕ) (op : Machines.Op) : Prop :=
  ∀ p ∈ Machines.racked db.trail.db op, ∀ gpuId ∈ db.trail.origin p, isExpired db now gpuId = true

def Allowed (s : InFlight Db Call) : Event (Request × ℕ) (Answer × ℕ) → Prop
  | .start (.machine op, now) => Alone s.db now op
  | .start _ => True
  | .resume call (.ok, _) => ∀ c ∈ s.calls.row call, Stands s.db c
  | .resume _ _ => True

instance (db : Db) : ∀ c, Decidable (Stands db c)
  | .commit .. => inferInstanceAs (Decidable (_ ∧ _ ∧ _))
  | .available _ | .lastGpu _ | .credit .. | .activeReward .. | .create .. | .gpu .. | .claims24h _
  | .claimCredit _ | .gpuWithReward _ => inferInstanceAs (Decidable True)

instance (db : Db) (now : ℕ) (op : Machines.Op) : Decidable (Alone db now op) :=
  inferInstanceAs (Decidable (∀ p ∈ Machines.racked db.trail.db op,
    ∀ gpuId ∈ db.trail.origin p, isExpired db now gpuId = true))

instance (s : InFlight Db Call) : ∀ e : Event (Request × ℕ) (Answer × ℕ), Decidable (Allowed s e)
  | .start (.machine op, now) => inferInstanceAs (Decidable (Alone s.db now op))
  | .start (.getAvailableGPUsHandler _, _) | .start (.claimGPUHandler .., _)
  | .start (.heartbeat .., _) | .start (.toggleMachine .., _) => inferInstanceAs (Decidable True)
  | .resume call (.ok, _) => inferInstanceAs (Decidable (∀ c ∈ s.calls.row call, Stands s.db c))
  | .resume _ (.row _, _) | .resume _ (.error, _) => inferInstanceAs (Decidable True)

/-- Nothing has been claimed yet. -/
structure Unclaimed (db : Db) : Prop where
  log : db.autoMiningGpuLog = []
  origin : ∀ p, db.trail.origin p = none
  credit : ∀ u, 0 ≤ db.autoMiningSecondsBalance u

/-! ## The invariant -/

structure Inv (db : Db) : Prop where
  trail : db.trail.Sound
  stems : ∀ p gpuId, db.trail.origin p = some gpuId → gpuId ∈ db.autoMiningGpuLog.map (·.gpuId)
  rows : ∀ r ∈ db.autoMiningGpuLog, ∃ g, db.autoMiningGpu.row r.gpuId = some g
    ∧ g.userId = r.userId ∧ g.isClaimed = true ∧ g.claimedAt = some r.claimedAt
  nodup : (db.autoMiningGpuLog.map (·.gpuId)).Nodup
  daily : ∀ u t, (db.autoMiningGpuLog.filter fun r =>
    r.userId = u ∧ t < r.claimedAt + DAY_MS ∧ r.claimedAt ≤ t).length ≤ DAILY_LIMIT
  credit : ∀ u, 0 ≤ db.autoMiningSecondsBalance u
  racks : ∀ id gpuId, Live db.trail.db (.RACK, id) → db.trail.origin (.RACK, id) = some gpuId →
    isExpired db db.clock gpuId = true

section Parts

variable {db db' : Db}

/-- Elements with distinct keys, all with one key. -/
theorem length_le_one {α : Type*} {key : α → ℕ} {l : List α} (hnodup : (l.map key).Nodup) {id : ℕ}
    (h : ∀ x ∈ l, key x = id) : l.length ≤ 1 := by
  match l with
  | [] | [_] => simp
  | x :: y :: rest =>
      simp only [List.map_cons, List.nodup_cons] at hnodup
      have heq : key x = key y := (h x (by simp)).trans (h y (by simp)).symm
      exact absurd (by simp [heq]) hnodup.1

/-- An expired GPU is not among the powers. -/
theorem not_mem_gpuPowers {u now now' gpuId : ℕ} {g : AutoMiningGpu} (hnow : now ≤ now')
    (h : isExpired db now gpuId = true) : (gpuId, g) ∉ gpuPowers db u now' := by
  intro hmem
  obtain ⟨hrow, hg⟩ := Table.mem_findMany.mp hmem
  rw [isExpired, hrow, Option.all_some] at h
  cases hexpires : g.expiresAt with
  | none => simp [hexpires] at hg
  | some e =>
      simp [hexpires] at hg h
      omega

theorem Inv.inOrder (h : Inv db) : InOrder db where
  once gpuId := by
    have hsame : ∀ r ∈ db.autoMiningGpuLog.filter fun r => r.gpuId = gpuId, r.gpuId = gpuId := by
      intro r hr
      simpa using (List.mem_filter.mp hr).2
    exact length_le_one (h.nodup.sublist (List.filter_sublist.map _)) hsame
  daily := h.daily
  credit := h.credit
  counted u gpuId now hnow := by
    have hgpus : ((gpuPowers db u now).filter fun g => g.1 = gpuId).length ≤ 1 := by
      have hsame : ∀ g ∈ (gpuPowers db u now).filter fun g => g.1 = gpuId, g.1 = gpuId := by
        intro g hg
        simpa using (List.mem_filter.mp hg).2
      exact length_le_one ((Table.nodup_findMany _ _).sublist (List.filter_sublist.map _)) hsame
    have hmachine : ∀ m ∈ (activeMiners db u).filter fun m =>
        db.trail.origin (.RACK, m.1) = some gpuId,
        Live db.trail.db (.RACK, m.1) ∧ db.trail.origin (.RACK, m.1) = some gpuId := by
      intro m hm
      obtain ⟨hactive, horigin⟩ := List.mem_filter.mp hm
      exact ⟨Trail.live_userMiner (Table.mem_findMany.mp hactive).1, of_decide_eq_true horigin⟩
    unfold AutoMiningGpus.counted machinesOf powersOf
    cases hmachines : (activeMiners db u).filter fun m =>
        db.trail.origin (.RACK, m.1) = some gpuId with
    | nil => simpa using hgpus
    | cons m rest =>
        rw [hmachines] at hmachine
        obtain ⟨hlive, horigin⟩ := hmachine m List.mem_cons_self
        have hexpired := h.racks m.1 gpuId hlive horigin
        have hnone : (gpuPowers db u now).filter (fun g => g.1 = gpuId) = [] := by
          refine List.filter_eq_nil_iff.mpr fun g hg => ?_
          intro heq
          have heq : g.1 = gpuId := by simpa using heq
          obtain ⟨id, row⟩ := g
          subst heq
          exact not_mem_gpuPowers hnow hexpired hg
        have hone : (m :: rest).length ≤ 1 := by
          have hnodup : ((m :: rest).map Prod.fst).Nodup := by
            rw [← hmachines]
            exact (Table.nodup_findMany _ _).sublist (List.filter_sublist.map _)
          have hsame : ∀ m' ∈ m :: rest, m'.1 = m.1 := by
            intro m' hm'
            obtain ⟨hlive', horigin'⟩ := hmachine m' hm'
            exact congrArg Prod.snd (h.trail.once _ _ gpuId hlive' hlive horigin' horigin)
          exact length_le_one hnodup hsame
        simp [hnone] at hone ⊢
        omega

theorem Unclaimed.inv (h : Unclaimed db) : Inv db where
  trail := ⟨fun p c hc => by simp [h.origin] at hc, fun p q c _ _ hc => by simp [h.origin] at hc⟩
  stems p gpuId hp := by simp [h.origin] at hp
  rows r hr := by simp [h.log] at hr
  nodup := by simp [h.log]
  daily u t := by simp [h.log]
  credit := h.credit
  racks id gpuId _ horigin := by simp [h.origin] at horigin

/-! ## Steps -/

theorem onTime_eq_some {now : ℕ} (h : onTime db now = some db') :
    db.clock ≤ now ∧ db' = { db with clock := now } := by
  unfold onTime at h
  split at h
  case isTrue hle => exact ⟨hle, (Option.some.inj h).symm⟩
  case isFalse => cases h

theorem isExpired_mono {now now' gpuId : ℕ} (hnow : now ≤ now')
    (h : isExpired db now gpuId = true) : isExpired db now' gpuId = true := by
  unfold isExpired at h ⊢
  cases hrow : db.autoMiningGpu.row gpuId with
  | none => rfl
  | some g =>
      rw [hrow, Option.all_some] at h
      rw [Option.all_some]
      cases hexpires : g.expiresAt with
      | none => rfl
      | some e =>
          simp [hexpires] at h ⊢
          omega

theorem Inv.onTime {now : ℕ} (h : Inv db) (hle : db.clock ≤ now) :
    Inv { db with clock := now } :=
  { h with
    racks := fun id gpuId hlive horigin =>
      isExpired_mono hle (h.racks id gpuId hlive horigin) }

theorem Inv.createGpu (h : Inv db) (userId now rewardId : ℕ) (gpuHashRate : ℚ) :
    Inv (createGpu db userId now rewardId gpuHashRate) :=
  { h with
    rows := fun r hr => by
      obtain ⟨g, hrow, hg⟩ := h.rows r hr
      exact ⟨g, Table.insert_row_of_some hrow _, hg⟩
    racks := fun id gpuId hlive horigin => by
      have hexpired := h.racks id gpuId hlive horigin
      obtain ⟨r, hr, rfl⟩ := List.mem_map.mp (h.stems _ gpuId horigin)
      obtain ⟨g, hrow, -⟩ := h.rows r hr
      have hkept := Table.insert_row_of_some hrow
        { userId, rewardId, gpuHashRate, isAvailable := true, isClaimed := false
          releasedAt := now, claimedAt := none, expiresAt := none }
      unfold isExpired at hexpired ⊢
      rw [hrow] at hexpired
      exact (congrArg (Option.all _) hkept).trans hexpired }

/-- The claims in a window that are logged are counted. -/
theorem logged_le {logs : List AutoMiningGpuLog} {gpus : Table AutoMiningGpu}
    (hrows : ∀ r ∈ logs, ∃ g, gpus.row r.gpuId = some g
      ∧ g.userId = r.userId ∧ g.isClaimed = true ∧ g.claimedAt = some r.claimedAt)
    (hnodup : (logs.map (·.gpuId)).Nodup) (day : ℕ) {u now t : ℕ} (hnow : now ≤ t) :
    (logs.filter fun r =>
      r.userId = u ∧ t < r.claimedAt + day ∧ r.claimedAt ≤ t).length
      ≤ (gpus.findMany fun _ g =>
        g.userId = u && g.isClaimed && g.claimedAt.any (now < · + day)).length := by
  have hsub : ((logs.filter fun r =>
      r.userId = u ∧ t < r.claimedAt + day ∧ r.claimedAt ≤ t).map (·.gpuId))
      ⊆ (gpus.findMany fun _ g =>
        g.userId = u && g.isClaimed && g.claimedAt.any (now < · + day)).map Prod.fst := by
    intro gpuId hgpu
    obtain ⟨r, hr, rfl⟩ := List.mem_map.mp hgpu
    obtain ⟨hlogged, hwindow⟩ := List.mem_filter.mp hr
    obtain ⟨hu, hlt, -⟩ := of_decide_eq_true hwindow
    obtain ⟨g, hrow, huser, hclaimed, hat⟩ := hrows r hlogged
    refine List.mem_map.mpr ⟨(r.gpuId, g), Table.mem_findMany.mpr ⟨hrow, ?_⟩, rfl⟩
    simp [huser, hu, hclaimed, hat]
    omega
  have hle := (List.subperm_of_subset (hnodup.sublist (List.filter_sublist.map _)) hsub).length_le
  simpa using hle

theorem Inv.claim {c : Claim} {reward : Option AutoMiningReward} (h : Inv db)
    (hstands : Stands db (.commit c reward)) (hclaim : claimGpu db c reward = some db') :
    Inv db' := by
  obtain ⟨hclaimable, hdaily, hcredit⟩ := hstands
  unfold claimGpu at hclaim
  split at hclaim
  case isTrue => cases hclaim
  case isFalse =>
    obtain rfl := Option.some.inj hclaim
    obtain ⟨gpu, hgpu, hclaimable⟩ := (Option.any_eq_true ..).mp hclaimable
    have hunclaimed : gpu.isClaimed = false ∧ gpu.userId = c.userId := by
      simpa [isClaimable, and_comm] using hclaimable
    -- a GPU that is claimed is not the one that this claim finds
    have hne : ∀ r ∈ db.autoMiningGpuLog, r.gpuId ≠ c.gpuId := by
      intro r hr heq
      obtain ⟨g, hrow, -, hclaimed, -⟩ := h.rows r hr
      rw [heq, hgpu] at hrow
      obtain rfl := Option.some.inj hrow
      rw [hunclaimed.1] at hclaimed
      cases hclaimed
    have hother : ∀ id, id ≠ c.gpuId → (db.autoMiningGpu.modify c.gpuId fun g =>
        { g with isClaimed := true, claimedAt := some c.now
                 expiresAt := some (c.now + DAY_MS) }).row id = db.autoMiningGpu.row id :=
      fun id hid => if_neg hid
    have hstem : ∀ p gpuId, db.trail.origin p = some gpuId → gpuId ≠ c.gpuId := by
      intro p gpuId hp
      obtain ⟨r, hr, rfl⟩ := List.mem_map.mp (h.stems p gpuId hp)
      exact hne r hr
    have hcreated := Trail.createInventory_follows h.trail c.userId
      (temporaryMachine c.gpu reward) (some (c.now + DAY_MS))
    constructor
    case trail =>
      refine hcreated.sound.label ?_ fun p hp => hstem p _ hp rfl
      simp [Machines.nextPlace, Machines.Db.createInventoryWithOwnedMachine]
    case stems =>
      intro p gpuId hp
      simp only [Function.update_apply] at hp
      split at hp
      case isTrue =>
        obtain rfl := Option.some.inj hp
        exact List.mem_cons_self
      case isFalse => exact List.mem_cons_of_mem _ (h.stems p gpuId hp)
    case rows =>
      intro r hr
      rcases List.mem_cons.mp hr with rfl | hr
      · refine ⟨{ gpu with
            isClaimed := true, claimedAt := some c.now, expiresAt := some (c.now + DAY_MS) },
          ?_, hunclaimed.2, rfl, rfl⟩
        rw [Table.modify_row, if_pos rfl, hgpu, Option.map_some]
      · obtain ⟨g, hrow, hg⟩ := h.rows r hr
        exact ⟨g, (hother _ (hne r hr)).trans hrow, hg⟩
    case nodup =>
      refine List.nodup_cons.mpr ⟨fun hmem => ?_, h.nodup⟩
      obtain ⟨r, hr, heq⟩ := List.mem_map.mp hmem
      exact hne r hr heq
    case daily =>
      intro u t
      rw [List.filter_cons]
      split
      case isFalse => exact h.daily u t
      case isTrue hwindow =>
        have hwindow : c.userId = u ∧ t < c.now + DAY_MS ∧ c.now ≤ t := by simpa using hwindow
        obtain ⟨rfl, -, hle⟩ := hwindow
        have hlogged := logged_le h.rows h.nodup DAY_MS (u := c.userId) hle
        exact Nat.succ_le_of_lt (hlogged.trans_lt hdaily)
    case credit =>
      intro u
      simp only [Function.update_apply]
      split
      case isTrue => omega
      case isFalse => exact h.credit u
    case racks =>
      intro id gpuId hlive horigin
      have horigin : db.trail.origin (.RACK, id) = some gpuId := horigin
      have hexpired := h.racks id gpuId hlive horigin
      unfold isExpired at hexpired ⊢
      rw [hother gpuId (hstem _ gpuId horigin)]
      exact hexpired

theorem Inv.machineOp {op : Machines.Op} (h : Inv db) (halone : Alone db db.clock op)
    (hop : machineOp env db op = some db') : Inv db' := by
  obtain ⟨trail, hexec, rfl⟩ := Option.map_eq_some_iff.mp hop
  have hfollows := Trail.exec_follows h.trail (toOption_eq_some.mp hexec)
  refine { h with
    trail := hfollows.sound
    stems := fun p gpuId hp => ?_
    racks := fun id gpuId hlive horigin => ?_ }
  · obtain ⟨q, hq⟩ := hfollows.stems p gpuId hp
    exact h.stems q gpuId hq
  · rcases hfollows.racks id gpuId hlive horigin with ⟨hold, hsame⟩ | ⟨p, hp, hsame⟩
    · exact h.racks id gpuId hold hsame
    · exact halone p hp gpuId hsame

theorem Inv.start {r : Request} {now : ℕ} {calls : List Call} (h : Inv db)
    (hallowed : ∀ op, r = .machine op → Alone db db.clock op)
    (hstart : start env db r now = some (db', calls)) : Inv db' := by
  cases r with
  | getAvailableGPUsHandler userId | claimGPUHandler userId gpu_id =>
      obtain ⟨rfl, -⟩ := Prod.mk.inj (Option.some.inj hstart)
      exact h
  | heartbeat userId seconds =>
      obtain ⟨rfl, -⟩ := Prod.mk.inj (Option.some.inj hstart)
      refine { h with credit := fun u => ?_ }
      have hcredit := h.credit userId
      simp only [Function.update_apply]
      split
      · omega
      · exact h.credit u
  | machine op =>
      obtain ⟨db₁, hop, heq⟩ := Option.map_eq_some_iff.mp hstart
      obtain ⟨rfl, -⟩ := Prod.mk.inj heq
      exact Inv.machineOp env h (hallowed op rfl) hop
  | toggleMachine userId machineId isActive =>
      obtain ⟨m, -, heq⟩ := Option.map_eq_some_iff.mp hstart
      obtain ⟨rfl, -⟩ := Prod.mk.inj heq
      exact { h with }

theorem Inv.resume {c : Call} {answer : Answer} {now : ℕ} {next : Option Call} (h : Inv db)
    (hstands : answer = .ok → Stands db c)
    (hresume : resume env db c answer now = some (db', next)) : Inv db' := by
  have hwrite : ∀ db₁, write db c answer = some db₁ → Inv db₁ := by
    intro db₁ hdb₁
    cases c with
    | create userId now rewardId gpuHashRate =>
        cases answer with
        | ok =>
            obtain rfl := Option.some.inj hdb₁
            exact h.createGpu userId now rewardId gpuHashRate
        | row | error => cases hdb₁
    | commit c reward =>
        cases answer with
        | ok =>
            obtain rfl := Option.some.inj hdb₁
            cases hclaim : claimGpu db c reward with
            | none => exact h
            | some db₂ => exact h.claim (hstands rfl) hclaim
        | row | error => cases hdb₁
    | available | lastGpu | credit | activeReward | gpu | claims24h | claimCredit
    | gpuWithReward => cases hdb₁
  unfold AutoMiningGpus.resume at hresume
  split at hresume
  case h_1 =>
    obtain ⟨rfl, -⟩ := Prod.mk.inj (Option.some.inj hresume)
    exact h
  case h_2 =>
    split at hresume
    case h_1 db₁ hdb₁ =>
      obtain ⟨rfl, -⟩ := Prod.mk.inj (Option.some.inj hresume)
      exact hwrite _ hdb₁
    case h_2 =>
      obtain ⟨_, -, heq⟩ := Option.map_eq_some_iff.mp hresume
      obtain ⟨rfl, -⟩ := Prod.mk.inj heq
      exact h

end Parts

/-- **Step lemma.** -/
theorem step_inv {s s' : InFlight Db Call} {e : Event (Request × ℕ) (Answer × ℕ)} (h : Inv s.db)
    (hallowed : Allowed s e) (hstep : (service env).step s e = some s') : Inv s'.db := by
  cases e with
  | start r =>
      obtain ⟨db, calls, hstart, rfl⟩ := (service env).step_start hstep
      obtain ⟨db₁, htime, hstart⟩ := Option.bind_eq_some_iff.mp hstart
      obtain ⟨hle, rfl⟩ := onTime_eq_some htime
      refine Inv.start env (h.onTime hle) ?_ hstart
      rintro op hop
      obtain ⟨request, now⟩ := r
      obtain rfl : request = .machine op := hop
      exact hallowed
  | resume call a =>
      obtain ⟨c, db, next, hcall, hresume, rfl⟩ := (service env).step_resume hstep
      obtain ⟨db₁, htime, hresume⟩ := Option.bind_eq_some_iff.mp hresume
      obtain ⟨hle, rfl⟩ := onTime_eq_some htime
      refine Inv.resume env (h.onTime hle) ?_ hresume
      rintro hok
      obtain ⟨answer, now⟩ := a
      obtain rfl : answer = .ok := hok
      have hstands := hallowed c hcall
      cases c with
      | commit => exact hstands
      | available | lastGpu | credit | activeReward | create | gpu | claims24h | claimCredit
      | gpuWithReward => trivial

/-- **GPUs are claimed once and counted once**, in every state of a run whose claims
would pass their checks at the commit and in which the machine of a claim is put into a
rack only when its GPU has expired. -/
theorem gpus_in_order {s s' : InFlight Db Call} {es : List (Event (Request × ℕ) (Answer × ℕ))}
    (hstart : Unclaimed s.db) (hallowed : (service env).sys.Meets Allowed s es)
    (hrun : (service env).sys.run s es = some s') : InOrder s'.db :=
  ((service env).sys.run_invariant (I := fun s => Inv s.db)
    (fun _ _ _ h hC hstep => step_inv env h hC hstep) hstart.inv hallowed hrun).inOrder

/-! ## Runs -/

/-- One reward of 5 H/s. -/
def exampleEnv : Env where
  autoMiningReward := Table.empty.insert ⟨"Pulse GPU", 5, none, true⟩
  machines := Machines.defaults

/-- User 1 has credit for one claim, and nothing else. -/
def exampleStart : InFlight Db Call where
  db :=
    { autoMiningGpu := .empty, autoMiningGpuLog := []
      autoMiningSecondsBalance := fun u => if u = 1 then 300 else 0
      trail := ⟨.empty, fun _ => none⟩, isActive := fun _ => false, clock := 0 }
  calls := .empty

theorem exampleStart_unclaimed : Unclaimed exampleStart.db where
  log := rfl
  origin _ := rfl
  credit u := by
    simp only [exampleStart]
    split <;> omega

/-- The GPU is released by call 1. -/
def release : List (Event (Request × ℕ) (Answer × ℕ)) :=
  [.start (.getAvailableGPUsHandler 1, 1), .resume 1 (.ok, 1), .resume 1 (.ok, 1),
    .resume 1 (.ok, 1), .resume 1 (.row (some 1), 1), .resume 1 (.ok, 1)]

/-- The queries of the claim under this call. -/
def checks (call : ℕ) : List (Event (Request × ℕ) (Answer × ℕ)) :=
  List.replicate 4 (.resume call (.ok, 2))

/-- The GPU is claimed, and its machine put into a rack at `now`. -/
def claimAndInstall (now : ℕ) : List (Event (Request × ℕ) (Answer × ℕ)) :=
  release ++ [.start (.claimGPUHandler 1 1, 2)] ++ checks 2 ++ [.resume 2 (.ok, 3)]
    ++ [.start (.machine (.installInventoryItem 1 0 1), now)]

theorem gpus_in_order_nextDay : ∃ s',
    (service exampleEnv).sys.run exampleStart (claimAndInstall 86400002) = some s'
      ∧ InOrder s'.db := by
  have hallowed : (service exampleEnv).sys.Meets Allowed exampleStart
      (claimAndInstall 86400002) := by decide +kernel
  have hrun : ((service exampleEnv).sys.run exampleStart (claimAndInstall 86400002)).isSome := by
    decide +kernel
  exact ⟨_, (Option.some_get hrun).symm,
    gpus_in_order exampleEnv exampleStart_unclaimed hallowed (Option.some_get hrun).symm⟩

/-- Two claims of one GPU that have both passed their checks both go through; a machine
that is installed at once counts beside its GPU. -/
theorem gpu_claimed_and_counted_twice :
    ¬ (∀ (env : Env) (s s' : InFlight Db Call) (es : List (Event (Request × ℕ) (Answer × ℕ))),
        Unclaimed s.db → (service env).sys.run s es = some s' →
        ∀ gpuId, (s'.db.autoMiningGpuLog.filter fun r => r.gpuId = gpuId).length ≤ 1)
      ∧ ¬ ∀ (env : Env) (s s' : InFlight Db Call) (es : List (Event (Request × ℕ) (Answer × ℕ))),
        Unclaimed s.db → (service env).sys.run s es = some s' →
        ∀ u gpuId now, s'.db.clock ≤ now → counted s'.db u now gpuId ≤ 1 := by
  constructor
  · intro h
    have htwice : ((service exampleEnv).sys.run exampleStart
        (release ++ [.start (.claimGPUHandler 1 1, 2), .start (.claimGPUHandler 1 1, 2)] ++ checks 2
          ++ checks 3 ++ [.resume 2 (.ok, 3), .resume 3 (.ok, 3)])).map
            (fun s => ((s.db.autoMiningGpuLog.filter fun r => r.gpuId = 1).length,
              s.db.autoMiningSecondsBalance 1)) = some (2, -300) := by
      decide +kernel
    obtain ⟨s', hrun, hlog⟩ := Option.map_eq_some_iff.mp htwice
    have hle := h exampleEnv exampleStart s' _ exampleStart_unclaimed hrun 1
    rw [(Prod.mk.inj hlog).1] at hle
    omega
  · intro h
    have htwice : ((service exampleEnv).sys.run exampleStart (claimAndInstall 4)).map
        (fun s => (s.db.clock, counted s.db 1 4 1)) = some (4, 2) := by
      decide +kernel
    obtain ⟨s', hrun, hcounted⟩ := Option.map_eq_some_iff.mp htwice
    have hle := h exampleEnv exampleStart s' _ exampleStart_unclaimed hrun 1 1 4
      (Prod.mk.inj hcounted).1.le
    rw [(Prod.mk.inj hcounted).2] at hle
    omega

end Results

end BlockMiner.AutoMiningGpus
