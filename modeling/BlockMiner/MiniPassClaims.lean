import BlockMiner.MiniPassLedger

/-!
# Level rewards are claimed once

The claims of rewards are a unique index, and the row of a claim and its
delivery are the last two writes of one transaction, with only the upsert of
the enrollment before them (`Prepares`). A claim reads the level before it
locks anything, but experience only grows, so the level is still there when
the claim commits (`Claiming`). With no other call in flight every statement
of a claim can be followed by hand, and its two checks are the two flags of
the dashboard (`shown_iff`).
-/

namespace BlockMiner.MiniPass

open LevelRewards (Reward Catalog Delivery Holdings User fulfillMiniPassLevelReward)

variable (config : Config)

/-! ## The dashboard -/

/-- A level reward on the dashboard. -/
structure RewardRow extends LevelReward where
  claimed : Bool
  unlocked : Bool

structure Dashboard where
  totalXp : ℕ
  level : ℕ
  xpCap : ℕ
  xpIntoLevel : ℕ
  xpForNextLevel : ℕ
  xpRemainingToCap : ℕ
  rewards : List RewardRow

inductive Refusal where
  | not_found
  | season_not_live
  | forbidden

/-- The enrollment, with nothing to update. -/
def upsertEnrollment (db : Db) (u s : ℕ) : Db := setEnrollment db u s (db.totalXp u s)

/-- The rewards of a season, by level. -/
def levelRewardsOf (s : ℕ) : List LevelReward :=
  (config.levelRewards.filter fun r => r.seasonId = s).mergeSort fun r r' => r.level ≤ r'.level

def claimedSet (db : Db) (u s : ℕ) : List ℕ :=
  (db.claims.filter fun claim => claim.1 = u &&
    config.levelRewards.any fun r => r.id = claim.2 && r.seasonId = s).map Prod.snd

def dashboardOf (db : Db) (u s : ℕ) (season : Season) : Dashboard :=
  let totalXp := db.totalXp u s
  let level := computePassLevel totalXp season.step season.levels
  let xpIntoLevel := totalXp % season.step
  { totalXp, level, xpIntoLevel
    xpCap := xpCapForSeason season.levels season.step
    xpForNextLevel := if season.levels ≤ level then 0 else season.step - xpIntoLevel
    xpRemainingToCap := xpRemainingToCap totalXp season.levels season.step
    rewards := (levelRewardsOf config s).map fun r =>
      { r with claimed := r.id ∈ claimedSet config db u s, unlocked := r.level ≤ level } }

/-- The dashboard, without the missions, and the database after it. -/
def getMiniPassSeasonDashboard (db : Db) (now : ℤ) (u s : ℕ) : Except Refusal (Db × Dashboard) :=
  match (config.seasons s).filter fun season => season.deletedAt.isNone && season.isActive with
  | none => .error .not_found
  | some season =>
      if !isMiniPassSeasonLive season now then .error .season_not_live
      else if (allowedUser db u).isNone then .error .forbidden
      else
        let db' := upsertEnrollment db u s
        .ok (db', dashboardOf config db' u s season)

/-- A reward is shown as unlocked and not claimed. -/
def Dashboard.Available (dashboard : Dashboard) (levelRewardId : ℕ) : Prop :=
  ∃ row ∈ dashboard.rewards, row.id = levelRewardId ∧ row.unlocked = true ∧ row.claimed = false

/-! ## The index of the claims -/

def claimedRewards : (transactions config).UniqueIndex (ℕ × ℕ) where
  keys := Db.claims
  entered
    | .createClaim u rewardId => [(u, rewardId)]
    | _ => []
  lock k := .claim k.1 k.2
  keys_apply db w := by
    show (apply db w).claims.Perm _
    cases w with
    | completeProgress u m k now =>
        simp only [apply]
        split <;> exact .refl _
    | _ => exact .refl _
  locked w k hk := by
    cases w with
    | createClaim u rewardId =>
        obtain rfl := List.mem_singleton.mp hk
        exact List.mem_singleton_self _
    | _ => cases hk
  admits h := by
    cases step_moves config h with
    | failed | commits | commitsPurchase | commitsClaim | foundSeason | enrolled | unenrolled
    | unfinished | finished | completedBefore | buyer | priced | claimant | eligible => trivial
    | claims claim reward hnew =>
        refine ⟨List.nodup_singleton _, fun k hk => ?_⟩
        obtain rfl := List.mem_singleton.mp hk
        exact hnew
    | incremented | enrolls | ticked | bumped | completed | debited | purchased | ledgered
    | fulfills => exact ⟨List.nodup_nil, fun _ hk => nomatch hk⟩
    | numbered => exact fun _ => rfl

/-! ## What a claim writes -/

/-- The user's level has reached the reward's. -/
structure Reached (db : Db) (u : ℕ) (reward : LevelReward) : Prop where
  found : reward ∈ config.levelRewards
  level : ∃ season, config.seasons reward.seasonId = some season
    ∧ reward.level ≤ userLevel db u reward.seasonId season

/-- A reward is new for a user, is claimed and is delivered, in one step. -/
structure Delivers (db db' : Db) (u : ℕ) (reward : LevelReward) : Prop where
  reached : Reached config db u reward
  new : (u, reward.id) ∉ db.claims
  claims : db'.claims = (u, reward.id) :: db.claims
  fulfilled : db'.fulfilled = (u, reward.id) :: db.fulfilled
  holdings : ∃ now delivery,
    fulfillMiniPassLevelReward config.catalog reward.reward now = .ok delivery
      ∧ db'.holdings = db.holdings.deliver u delivery

/-- As far as claims are concerned, the databases are the same. -/
structure SameClaims (db' db : Db) : Prop where
  claims : db'.claims = db.claims
  fulfilled : db'.fulfilled = db.fulfilled

/-- So are the experience and the holdings. -/
structure Unclaimed (db' db : Db) : Prop extends SameClaims db' db where
  holdings : db'.holdings = db.holdings
  totalXp : ∀ u s, db'.totalXp u s = db.totalXp u s

/-- The writes before that of a claim. -/
def Prepares (ws : List Write) : Prop := ∀ w ∈ ws, ∃ u s, w = .createEnrollment u s

/-- No claim is written and no reward delivered. -/
def NoClaim (ws : List Write) : Prop :=
  ∀ w ∈ ws, match w with | .createClaim _ _ | .deliver _ _ _ => False | _ => True

theorem applyAll_prepares {ws : List Write} (h : Prepares ws) (db : Db) :
    Unclaimed ((transactions config).applyAll db ws) db := by
  induction ws generalizing db with
  | nil => exact ⟨⟨rfl, rfl⟩, rfl, fun _ _ => rfl⟩
  | cons w ws ih =>
      obtain ⟨u, s, rfl⟩ := h w (List.mem_cons_self ..)
      have hrest := ih (fun w' hw' => h w' (List.mem_cons_of_mem _ hw'))
        (apply db (.createEnrollment u s))
      refine ⟨⟨hrest.claims, hrest.fulfilled⟩, hrest.holdings, fun u' s' => ?_⟩
      exact (hrest.totalXp u' s').trans (totalXp_apply db _ u' s')

theorem applyAll_noClaim {ws : List Write} (h : NoClaim ws) (db : Db) :
    SameClaims ((transactions config).applyAll db ws) db := by
  induction ws generalizing db with
  | nil => exact ⟨rfl, rfl⟩
  | cons w ws ih =>
      have hrest := ih (fun w' hw' => h w' (List.mem_cons_of_mem _ hw')) (apply db w)
      have hw := h w (List.mem_cons_self ..)
      have hfirst : SameClaims (apply db w) db := by
        cases w with
        | createClaim | deliver => cases hw
        | completeProgress u m k now =>
            simp only [apply]
            split <;> exact ⟨rfl, rfl⟩
        | _ => exact ⟨rfl, rfl⟩
      exact ⟨hrest.claims.trans hfirst.claims, hrest.fulfilled.trans hfirst.fulfilled⟩

theorem Prepares.append {ws : List Write} (h : Prepares ws) (u s : ℕ) :
    Prepares (ws ++ [.createEnrollment u s]) := by
  intro w hw
  rcases List.mem_append.mp hw with hw | hw
  · exact h w hw
  · exact ⟨u, s, List.mem_singleton.mp hw⟩

theorem NoClaim.append {ws : List Write} {w : Write} (h : NoClaim ws) (hw : NoClaim [w]) :
    NoClaim (ws ++ [w]) := by
  intro w' hw'
  rcases List.mem_append.mp hw' with hw' | hw'
  · exact h w' hw'
  · exact hw w' hw'

/-- The writes of a claim that has been delivered. -/
theorem delivers_applyAll {db : Db} {ws : List Write} {u : ℕ} {reward : LevelReward}
    {delivery : Delivery} {now : ℤ} (hws : Prepares ws) (hreached : Reached config db u reward)
    (hnew : (u, reward.id) ∉ db.claims)
    (hdelivery : fulfillMiniPassLevelReward config.catalog reward.reward now = .ok delivery) :
    Delivers config db ((transactions config).applyAll db
      (ws ++ [.createClaim u reward.id, .deliver u reward.id delivery])) u reward := by
  have hsame := applyAll_prepares config hws db
  rw [Transactions.applyAll_append]
  generalize (transactions config).applyAll db ws = v at hsame
  refine ⟨hreached, hnew, ?_, ?_, now, delivery, hdelivery, ?_⟩
  · show (u, reward.id) :: v.claims = _
    rw [hsame.claims]
  · show (u, reward.id) :: v.fulfilled = _
    rw [hsame.fulfilled]
  · show v.holdings.deliver u delivery = _
    rw [hsame.holdings]

/-! ## A claim under way -/

/-- The reward of a claim, with its season. -/
structure Found (claim : Claim) (season : Season) (reward : LevelReward) : Prop where
  mem : reward ∈ config.levelRewards
  seasonId : reward.seasonId = claim.seasonId
  season : config.seasons claim.seasonId = some season

theorem mem_of_findReward {s levelRewardId : ℕ} {reward : LevelReward}
    (h : findReward config s levelRewardId = some reward) :
    reward ∈ config.levelRewards ∧ reward.id = levelRewardId ∧ reward.seasonId = s := by
  have hfound := List.find?_some h
  simp only [Bool.and_eq_true, decide_eq_true_eq] at hfound
  exact ⟨List.mem_of_find?_eq_some h, hfound⟩

def Enrolled.Claiming (ws : List Write) : Enrolled → Prop
  | .claim c season reward => Found config c season reward ∧ Prepares ws
  | .xp _ _ _ | .purchase _ _ _ => NoClaim ws

/-- What a claim has found and has pending, at each point. -/
def Claiming (db : Db) (tx : Tx Write Point) : Prop :=
  match tx.point with
  | .findClaimant _ => Prepares tx.writes
  | .findEnrollment _ _ next | .createEnrollment _ _ next => next.Claiming config tx.writes
  | .readLevel claim season reward => Found config claim season reward ∧ Prepares tx.writes
  | .createClaim claim reward => Reached config db claim.userId reward ∧ Prepares tx.writes
  | .fulfill claim reward => Reached config db claim.userId reward
      ∧ ∃ ws, Prepares ws ∧ tx.writes = ws ++ [.createClaim claim.userId reward.id]
  | .commitClaim claim reward => Reached config db claim.userId reward
      ∧ ∃ ws now delivery, Prepares ws
        ∧ fulfillMiniPassLevelReward config.catalog reward.reward now = .ok delivery
        ∧ tx.writes = ws ++ [.createClaim claim.userId reward.id,
            .deliver claim.userId reward.id delivery]
  | _ => NoClaim tx.writes

section Mono

variable {config} {db db' : Db} (hle : ∀ u s, db.totalXp u s ≤ db'.totalXp u s)
include hle

theorem Reached.mono {u : ℕ} {reward : LevelReward} (h : Reached config db u reward) :
    Reached config db' u reward := by
  obtain ⟨season, hseason, hlevel⟩ := h.level
  refine ⟨h.found, season, hseason, hlevel.trans ?_⟩
  exact_mod_cast computePassLevel_mono (hle u reward.seasonId) _ _

theorem Claiming.mono {tx : Tx Write Point} (h : Claiming config db tx) :
    Claiming config db' tx := by
  obtain ⟨p, ws⟩ := tx
  cases p with
  | createClaim | fulfill | commitClaim => exact ⟨h.1.mono hle, h.2⟩
  | _ => exact h

end Mono

theorem claiming_nextCall (db : Db) {ws : List Write} (h : NoClaim ws) (calls : List XpCall) :
    Claiming config db ⟨nextCall calls, ws⟩ := by
  induction calls with
  | nil => exact h
  | cons call rest ih =>
      rw [nextCall]
      split
      · exact ih
      · exact h

theorem claiming_after (db : Db) {ws : List Write} (h : NoClaim ws) (after : After) :
    Claiming config db ⟨after.next, ws⟩ := by
  cases after with
  | calls rest => exact claiming_nextCall config db h rest
  | purchase sale => exact h

theorem claiming_applyMiniPassXp (db : Db) {ws : List Write} (h : NoClaim ws) (call : XpCall)
    (after : After) : Claiming config db ⟨applyMiniPassXp call after, ws⟩ := by
  unfold applyMiniPassXp
  split
  · exact claiming_after config db h after
  · exact h

theorem claiming_enrolled {db : Db} {ws : List Write} {next : Enrolled}
    (h : next.Claiming config ws) : Claiming config db ⟨next.next, ws⟩ := by
  cases next <;> exact h

theorem Enrolled.Claiming.append {ws : List Write} {next : Enrolled} (h : next.Claiming config ws)
    (u s : ℕ) : next.Claiming config (ws ++ [.createEnrollment u s]) := by
  cases next with
  | xp | purchase => exact NoClaim.append h (by simp [NoClaim])
  | claim c season reward => exact ⟨h.1, h.2.append u s⟩

/-! ## Steps -/

/-- A step keeps what a claim has found and pending. -/
theorem claiming_step {db : Db} {tx tx' : Tx Write Point} {a : Answer} {next : Next Db Write Point}
    (h : Claiming config db tx)
    (hstep : step config tx.point ((transactions config).view db tx) a = some next)
    (htx' : tx.after next = some tx') : Claiming config db tx' := by
  have hmoves := step_moves config hstep
  have hprepares : Prepares tx.writes →
      Unclaimed ((transactions config).applyAll db tx.writes) db :=
    fun hws => applyAll_prepares config hws db
  obtain ⟨p, ws⟩ := tx
  change Prepares ws → Unclaimed ((transactions config).view db ⟨p, ws⟩) db at hprepares
  generalize (transactions config).view db ⟨p, ws⟩ = v at hmoves hprepares
  cases hmoves with
  | failed | commits | commitsPurchase | commitsClaim => cases htx'
  | foundSeason | unenrolled | unfinished | finished | completedBefore | priced | numbered =>
      obtain rfl := Option.some.inj htx'
      exact h
  | ledgered | bumped | debited =>
      obtain rfl := Option.some.inj htx'
      exact NoClaim.append h (by simp [NoClaim])
  | incremented call n after =>
      obtain rfl := Option.some.inj htx'
      exact claiming_after config db (NoClaim.append h (by simp [NoClaim])) after
  | enrolled u s next =>
      obtain rfl := Option.some.inj htx'
      exact claiming_enrolled config h
  | enrolls u s next =>
      obtain rfl := Option.some.inj htx'
      exact claiming_enrolled config (Enrolled.Claiming.append config h u s)
  | ticked bump =>
      obtain rfl := Option.some.inj htx'
      have hno : NoClaim (ws ++ [.createTick bump.mission.id bump.dedupeKey]) :=
        NoClaim.append h (by simp [NoClaim])
      show Claiming config db ⟨ite _ _ _, _⟩
      split <;> exact hno
  | completed bump now =>
      obtain rfl := Option.some.inj htx'
      have hno :
          NoClaim (ws ++ [.completeProgress bump.userId bump.mission.id bump.periodKey now]) :=
        NoClaim.append h (by simp [NoClaim])
      show Claiming config db ⟨ite _ _ _, _⟩
      split
      · exact hno
      · exact claiming_applyMiniPassXp config db hno _ _
  | buyer order season user =>
      obtain rfl := Option.some.inj htx'
      exact h
  | purchased sale id =>
      obtain rfl := Option.some.inj htx'
      exact claiming_applyMiniPassXp config db (NoClaim.append h (by simp [NoClaim])) _ _
  | claimant claim season reward hseason hreward =>
      obtain rfl := Option.some.inj htx'
      obtain ⟨hmem, -, hs⟩ := mem_of_findReward config hreward
      exact ⟨⟨hmem, hs, hseason⟩, h⟩
  | eligible claim season reward hlevel =>
      obtain rfl := Option.some.inj htx'
      obtain ⟨hfound, hws⟩ : Found config claim season reward ∧ Prepares ws := h
      refine ⟨⟨hfound.mem, season, hfound.seasonId ▸ hfound.season, ?_⟩, hws⟩
      rw [userLevel, (hprepares hws).totalXp, ← hfound.seasonId] at hlevel
      exact hlevel
  | claims claim reward hnew =>
      obtain rfl := Option.some.inj htx'
      obtain ⟨hreached, hws⟩ : Reached config db claim.userId reward ∧ Prepares ws := h
      exact ⟨hreached, ws, hws, rfl⟩
  | fulfills claim reward delivery now hdelivery =>
      obtain rfl := Option.some.inj htx'
      obtain ⟨hreached, ws', hws', rfl⟩ : Reached config db claim.userId reward
        ∧ ∃ ws' : List Write, Prepares ws'
          ∧ ws = ws' ++ [Write.createClaim claim.userId reward.id] := h
      refine ⟨hreached, ws', now, delivery, hws', hdelivery, ?_⟩
      exact List.append_assoc ..

/-- The claims are what has been delivered, to users who had reached it. -/
structure Claimed (db : Db) : Prop where
  rows : db.claims = db.fulfilled
  once : db.fulfilled.Nodup
  reached : ∀ u rewardId, (u, rewardId) ∈ db.fulfilled →
    ∃ reward, reward.id = rewardId ∧ Reached config db u reward

/-- The call that moves is a claim. -/
def ofClaim : Point → Bool
  | .findClaimant _ | .readLevel _ _ _ | .createClaim _ _ | .fulfill _ _ | .commitClaim _ _ => true
  | .findEnrollment _ _ (.claim _ _ _) | .createEnrollment _ _ (.claim _ _ _) => true
  | _ => false

/-- A step changes no claim, and nothing at all where it is a step of a claim,
or it delivers one reward. -/
theorem claiming_dbAfter {db : Db} {tx : Tx Write Point} {a : Answer} {next : Next Db Write Point}
    (h : Claiming config db tx) (hnew : (claimedRewards config).Distinct db tx)
    (hstep : step config tx.point ((transactions config).view db tx) a = some next) :
    (SameClaims ((transactions config).dbAfter db tx next) db
      ∧ (ofClaim tx.point = true → (transactions config).dbAfter db tx next = db))
    ∨ ∃ u reward, Delivers config db ((transactions config).dbAfter db tx next) u reward := by
  have hmoves := step_moves config hstep
  obtain ⟨p, ws⟩ := tx
  cases next with
  | goto p' | write w p' | rollback next => exact .inl ⟨⟨rfl, rfl⟩, fun _ => rfl⟩
  | put f next =>
      cases hmoves with
      | numbered sale => exact .inl ⟨⟨rfl, rfl⟩, nofun⟩
  | commit next =>
      show (SameClaims ((transactions config).applyAll db ws) db ∧ _)
        ∨ ∃ u reward, Delivers config db ((transactions config).applyAll db ws) u reward
      clear hstep
      cases hmoves with
      | commits | commitsPurchase => exact .inl ⟨applyAll_noClaim config h db, nofun⟩
      | commitsClaim claim reward =>
          obtain ⟨hreached, ws', now, delivery, hws', hdelivery, rfl⟩ :
            Reached config db claim.userId reward
              ∧ ∃ (ws' : List Write) (now : ℤ) (delivery : Delivery), Prepares ws'
                ∧ fulfillMiniPassLevelReward config.catalog reward.reward now = .ok delivery
                ∧ ws = ws' ++ [Write.createClaim claim.userId reward.id,
                    Write.deliver claim.userId reward.id delivery] := h
          refine .inr ⟨claim.userId, reward, delivers_applyAll config hws' hreached ?_ hdelivery⟩
          obtain ⟨-, -, hdisjoint⟩ := List.nodup_append.mp hnew
          intro hmem
          refine hdisjoint _ ?_ _ hmem rfl
          exact List.mem_flatMap.mpr ⟨.createClaim claim.userId reward.id, by simp,
            List.mem_singleton_self _⟩

/-! ## Runs -/

/-- What holds of the database and the claims under way in every run. -/
structure Claims (s : InFlight Db (Tx Write Point)) : Prop where
  claimed : Claimed config s.db
  underway : ∀ i tx, s.calls.row i = some tx → Claiming config s.db tx
  distinct : (transactions config).Holds (fun db => db.claims.Nodup)
    (claimedRewards config).Distinct s

theorem Claimed.deliver {db db' : Db} {u : ℕ} {reward : LevelReward} (h : Claimed config db)
    (hd : Delivers config db db' u reward) (hle : ∀ u s, db.totalXp u s ≤ db'.totalXp u s) :
    Claimed config db' := by
  refine ⟨?_, ?_, fun u' rewardId hmem => ?_⟩
  · rw [hd.claims, hd.fulfilled, h.rows]
  · rw [hd.fulfilled]
    exact List.nodup_cons.mpr ⟨h.rows ▸ hd.new, h.once⟩
  · rw [hd.fulfilled] at hmem
    rcases List.mem_cons.mp hmem with heq | hold
    · obtain ⟨rfl, rfl⟩ := Prod.mk.inj heq
      exact ⟨reward, rfl, hd.reached.mono hle⟩
    · obtain ⟨reward', hid, hreached⟩ := h.reached u' rewardId hold
      exact ⟨reward', hid, hreached.mono hle⟩

theorem Claimed.same {db db' : Db} (h : Claimed config db) (hsame : SameClaims db' db)
    (hle : ∀ u s, db.totalXp u s ≤ db'.totalXp u s) : Claimed config db' := by
  refine ⟨?_, ?_, fun u rewardId hmem => ?_⟩
  · rw [hsame.claims, hsame.fulfilled, h.rows]
  · rw [hsame.fulfilled]
    exact h.once
  · obtain ⟨reward, hid, hreached⟩ := h.reached u rewardId (hsame.fulfilled ▸ hmem)
    exact ⟨reward, hid, hreached.mono hle⟩

theorem claiming_start (db : Db) {r : Request} {p : Point} (h : start r = some p) :
    Claiming config db ⟨p, []⟩ := by
  have hnone : NoClaim [] := fun _ hw => nomatch hw
  cases r <;> obtain rfl := Option.some.inj h
  case applyMiniPassXp calls => exact claiming_nextCall config db hnone calls
  case bumpMission | purchase => exact hnone
  case claimMiniPassLevelReward => exact fun _ hw => nomatch hw

theorem claims_step {s s' : InFlight Db (Tx Write Point)} {e : Event Request Answer}
    (hs : Claims config s) (h : (transactions config).stepTx s e = some s') :
    Claims config s' := by
  have hdistinct := (claimedRewards config).distinct_step hs.distinct h
  cases e with
  | start r =>
      obtain ⟨hdb, hrows⟩ := (transactions config).step_start h
      refine ⟨hdb ▸ hs.claimed, fun i tx hi => ?_, hdistinct⟩
      rw [hdb]
      rcases hrows i tx hi with ⟨hr, hnil⟩ | hold
      · obtain ⟨p, ws⟩ := tx
        obtain rfl : ws = [] := hnil
        exact claiming_start config s.db hr
      · exact hs.underway i tx hold
  | resume call a =>
      obtain ⟨tx, next, hrow, -, hstep, rfl⟩ := (transactions config).step_resume h
      have hle : ∀ u sid, s.db.totalXp u sid
          ≤ ((transactions config).dbAfter s.db tx next).totalXp u sid :=
        totalXp_after config hstep
      have htx := hs.underway call tx hrow
      refine ⟨?_, fun i tx' hi => ?_, hdistinct⟩
      · rcases claiming_dbAfter config htx (hs.distinct.calls call tx hrow) hstep with
          ⟨hsame, -⟩ | ⟨u, reward, hdelivers⟩
        · exact hs.claimed.same config hsame hle
        · exact hs.claimed.deliver config hdelivers hle
      · rcases Service.advance_row hi with ⟨-, htx'⟩ | ⟨-, hrow'⟩
        · exact (claiming_step config htx hstep htx').mono hle
        · exact (hs.underway i tx' hrow').mono hle

theorem claims_run {db : Db} (hdb : Claimed config db) {es : List (Event Request Answer)}
    {t : InFlight Db (Tx Write Point)}
    (hrun : (transactions config).sys.run (Transactions.idle db) es = some t) :
    Claims config t := by
  refine (transactions config).sys.run_kept (fun _ _ _ hs h => claims_step config hs h) ?_ hrun
  exact ⟨hdb, fun _ _ hrow => (nomatch hrow),
    (transactions config).holds_idle (hdb.rows ▸ hdb.once)⟩

/-! ## A claim alone -/

/-- The reward can be delivered. -/
def Fulfillable (reward : LevelReward) : Prop :=
  ∀ now, ∃ delivery, fulfillMiniPassLevelReward config.catalog reward.reward now = .ok delivery

theorem findReward_eq {reward : LevelReward} (h : reward ∈ config.levelRewards) :
    findReward config reward.seasonId reward.id = some reward := by
  cases hfind : findReward config reward.seasonId reward.id with
  | none =>
      have hnone := List.find?_eq_none.mp hfind reward h
      simp at hnone
  | some reward' =>
      obtain ⟨hmem, hid, -⟩ := mem_of_findReward config hfind
      rw [List.inj_on_of_nodup_map config.levelRewards_nodup hmem h hid]

theorem mem_claimedSet {db : Db} {u : ℕ} {reward : LevelReward}
    (h : reward ∈ config.levelRewards) :
    reward.id ∈ claimedSet config db u reward.seasonId ↔ (u, reward.id) ∈ db.claims := by
  simp only [claimedSet, List.mem_map, List.mem_filter, Bool.and_eq_true, decide_eq_true_eq,
    List.any_eq_true]
  constructor
  · rintro ⟨⟨u', rewardId⟩, ⟨hmem, rfl, -⟩, rfl⟩
    exact hmem
  · intro hmem
    exact ⟨(u, reward.id), ⟨hmem, rfl, reward, h, rfl, rfl⟩, rfl⟩

theorem mem_levelRewardsOf {s : ℕ} {reward : LevelReward} :
    reward ∈ levelRewardsOf config s ↔ reward ∈ config.levelRewards ∧ reward.seasonId = s := by
  simp [levelRewardsOf]

/-- The dashboard shows a reward as available if and only if the user has
reached it and not claimed it. -/
theorem available_iff {db : Db} {u : ℕ} {season : Season} {reward : LevelReward}
    (h : reward ∈ config.levelRewards) :
    (dashboardOf config db u reward.seasonId season).Available reward.id
      ↔ reward.level ≤ userLevel db u reward.seasonId season ∧ (u, reward.id) ∉ db.claims := by
  rw [← mem_claimedSet config h]
  constructor
  · rintro ⟨row, hrow, hid, hunlocked, hclaimed⟩
    obtain ⟨reward', hreward', rfl⟩ := List.mem_map.mp hrow
    have hmem' := ((mem_levelRewardsOf config).mp hreward').1
    obtain rfl := List.inj_on_of_nodup_map config.levelRewards_nodup hmem' h hid
    exact ⟨of_decide_eq_true hunlocked, of_decide_eq_false hclaimed⟩
  · rintro ⟨hlevel, hnew⟩
    refine ⟨_, List.mem_map.mpr ⟨reward, (mem_levelRewardsOf config).mpr ⟨h, rfl⟩, rfl⟩, rfl, ?_,
      ?_⟩
    · exact decide_eq_true hlevel
    · exact decide_eq_false hnew

/-- Reading the dashboard leaves everything as it is, but for the enrollment. -/
theorem unclaimed_upsertEnrollment (db : Db) (u s : ℕ) : Unclaimed (upsertEnrollment db u s) db :=
  ⟨⟨rfl, rfl⟩, rfl, fun u' s' => totalXp_apply db (.createEnrollment u s) u' s'⟩

theorem getMiniPassSeasonDashboard_eq {db : Db} {now : ℤ} {u s : ℕ} {season : Season} {user : User}
    (huser : allowedUser db u = some user) (hseason : liveSeason config s now = some season) :
    getMiniPassSeasonDashboard config db now u s
      = .ok (upsertEnrollment db u s, dashboardOf config (upsertEnrollment db u s) u s season) := by
  obtain ⟨hfound, hlive⟩ := Option.filter_eq_some_iff.mp hseason
  have hactive : season.deletedAt.isNone && season.isActive := by
    have hlive' := hlive
    simp only [isMiniPassSeasonLive, Bool.and_eq_true] at hlive' ⊢
    exact hlive'.1.1
  unfold getMiniPassSeasonDashboard
  rw [hfound, Option.filter_some, if_pos hactive]
  simp [hlive, huser]

/-- The user has reached the reward and not claimed it. -/
def Open (db : Db) (claim : Claim) (season : Season) (reward : LevelReward) : Prop :=
  reward.level ≤ userLevel db claim.userId claim.seasonId season
    ∧ (claim.userId, reward.id) ∉ db.claims

/-- A claim that has found its reward, from the reading of the level on. -/
theorem alone_readLevel (clock : ℕ → ℤ) (i : ℕ) {db : Db} {claim : Claim} {season : Season}
    {reward : LevelReward} {ws : List Write} (hfound : Found config claim season reward)
    (hws : Prepares ws) (hfulfillable : Fulfillable config reward) :
    ∃ db', (transactions config).Alone (fun j => .ok (clock j)) i db
        ⟨.readLevel claim season reward, ws⟩ db'
      ∧ (Open db claim season reward ∧ Delivers config db db' claim.userId reward
        ∨ ¬Open db claim season reward ∧ db' = db) := by
  have hsame := applyAll_prepares config hws db
  have hxp : userLevel ((transactions config).applyAll db ws) claim.userId claim.seasonId season
      = userLevel db claim.userId claim.seasonId season := by
    rw [userLevel, hsame.totalXp]
    rfl
  by_cases hlevel : reward.level ≤ userLevel db claim.userId claim.seasonId season
  case neg =>
    have hread : step config (.readLevel claim season reward)
        ((transactions config).applyAll db ws) (.ok (clock i)) = some (.rollback none) := by
      simp only [step]
      rw [hxp, if_pos (not_le.mp hlevel)]
    exact ⟨db, .last hread rfl rfl, .inr ⟨fun h => hlevel h.1, rfl⟩⟩
  have hread : step config (.readLevel claim season reward)
      ((transactions config).applyAll db ws) (.ok (clock i))
        = some (.goto (.createClaim claim reward)) := by
    simp only [step]
    rw [hxp, if_neg (not_lt.mpr hlevel)]
  by_cases hnew : (claim.userId, reward.id) ∈ db.claims
  case pos =>
    have hcreate : step config (.createClaim claim reward)
        ((transactions config).applyAll db ws) (.ok (clock (i + 1)))
          = some (.rollback none) := by
      simp only [step]
      rw [hsame.claims, if_pos hnew]
    exact ⟨db, .next hread rfl (.last hcreate rfl rfl), .inr ⟨fun h => h.2 hnew, rfl⟩⟩
  case neg =>
    have hcreate : step config (.createClaim claim reward)
        ((transactions config).applyAll db ws) (.ok (clock (i + 1)))
          = some (.write (.createClaim claim.userId reward.id) (.fulfill claim reward)) := by
      simp only [step]
      rw [hsame.claims, if_neg hnew]
    obtain ⟨delivery, hdelivery⟩ := hfulfillable (clock (i + 1 + 1))
    have hdeliver : step config (.fulfill claim reward) ((transactions config).applyAll db
        (ws ++ [.createClaim claim.userId reward.id])) (.ok (clock (i + 1 + 1)))
          = some
            (.write (.deliver claim.userId reward.id delivery) (.commitClaim claim reward)) := by
      simp only [step, hdelivery]
    have hreached : Reached config db claim.userId reward :=
      ⟨hfound.mem, season, hfound.seasonId ▸ hfound.season, hfound.seasonId ▸ hlevel⟩
    refine ⟨_, .next hread rfl (.next hcreate rfl (.next hdeliver rfl (.last rfl rfl rfl))),
      .inl ⟨⟨hlevel, hnew⟩, ?_⟩⟩
    have hdelivers := delivers_applyAll config hws hreached hnew hdelivery
    rw [List.append_cons ws] at hdelivers
    exact hdelivers

/-- A claim from its start on. -/
theorem alone_claim (clock : ℕ → ℤ) {db : Db} {user : User} {claim : Claim} {season : Season}
    {reward : LevelReward} (huser : allowedUser db claim.userId = some user)
    (hseason : liveSeason config claim.seasonId (clock 0) = some season)
    (hreward : findReward config claim.seasonId claim.levelRewardId = some reward)
    (hfulfillable : Fulfillable config reward) :
    ∃ db', (transactions config).Alone (fun j => .ok (clock j)) 0 db ⟨.findClaimant claim, []⟩ db'
      ∧ (Open db claim season reward ∧ Delivers config db db' claim.userId reward
        ∨ ¬Open db claim season reward ∧ db' = db) := by
  obtain ⟨hmem, -, hs⟩ := mem_of_findReward config hreward
  have hfound : Found config claim season reward := ⟨hmem, hs, liveSeason_eq_some config hseason⟩
  have hclaimant : step config (.findClaimant claim) db (.ok (clock 0))
      = some
        (.goto (.findEnrollment claim.userId claim.seasonId (.claim claim season reward))) := by
    simp only [step, huser, hseason, hreward]
  cases henrolled : db.enrollments claim.userId claim.seasonId with
  | some totalXp =>
      have henroll : step config (.findEnrollment claim.userId claim.seasonId
          (.claim claim season reward)) db (.ok (clock 1))
            = some (.goto (.readLevel claim season reward)) := by
        simp only [step, henrolled]
        rfl
      obtain ⟨db', halone, hdb'⟩ := alone_readLevel config clock 2 hfound
        (show Prepares [] from List.forall_mem_nil _) hfulfillable
      exact ⟨db', .next hclaimant rfl (.next henroll rfl halone), hdb'⟩
  | none =>
      have henroll : step config (.findEnrollment claim.userId claim.seasonId
          (.claim claim season reward)) db (.ok (clock 1))
            = some (.goto (.createEnrollment claim.userId claim.seasonId
                (.claim claim season reward))) := by
        simp only [step, henrolled]
      have hcreate : step config (.createEnrollment claim.userId claim.seasonId
          (.claim claim season reward)) db (.ok (clock 2))
            = some (.write (.createEnrollment claim.userId claim.seasonId)
                (.readLevel claim season reward)) := by
        simp only [step, henrolled]
        rfl
      obtain ⟨db', halone, hdb'⟩ := alone_readLevel config clock 3 hfound
        (show Prepares [.createEnrollment claim.userId claim.seasonId] from
          fun w hw => ⟨_, _, List.mem_singleton.mp hw⟩) hfulfillable
      exact ⟨db', .next hclaimant rfl (.next henroll rfl (.next hcreate rfl halone)), hdb'⟩

/-- With no other call in flight, a claim by a user who is not banned, in a live
season, of a reward that can be delivered, delivers it if and only if the
dashboard shows it as unlocked and not claimed, and otherwise changes nothing. -/
def ClaimsAsShown (s : InFlight Db (Tx Write Point)) : Prop :=
  (∀ i, s.calls.row i = none) → ∀ (clock : ℕ → ℤ) (u : ℕ) (reward : LevelReward),
    reward ∈ config.levelRewards → Fulfillable config reward → allowedUser s.db u ≠ none →
    liveSeason config reward.seasonId (clock 0) ≠ none →
      ∃ db' dashboard n t,
        getMiniPassSeasonDashboard config s.db (clock 0) u reward.seasonId = .ok (db', dashboard)
        ∧ (transactions config).sys.run s
            (.start (.claimMiniPassLevelReward ⟨u, reward.seasonId, reward.id⟩)
              :: (List.range' 0 n).map fun i => .resume s.calls.nextId (.ok (clock i))) = some t
        ∧ (∀ i, t.calls.row i = none)
        ∧ (Delivers config s.db t.db u reward ↔ dashboard.Available reward.id)
        ∧ (¬dashboard.Available reward.id → t.db = s.db)

theorem claims_as_shown (s : InFlight Db (Tx Write Point)) : ClaimsAsShown config s := by
  intro hquiet clock u reward hmem hfulfillable huser hseason
  obtain ⟨user, huser⟩ := Option.ne_none_iff_exists'.mp huser
  obtain ⟨season, hseason⟩ := Option.ne_none_iff_exists'.mp hseason
  let claim : Claim := ⟨u, reward.seasonId, reward.id⟩
  have hupsert := unclaimed_upsertEnrollment s.db u reward.seasonId
  have havailable : (dashboardOf config (upsertEnrollment s.db u reward.seasonId) u
      reward.seasonId season).Available reward.id ↔ Open s.db claim season reward := by
    rw [available_iff config hmem, userLevel, hupsert.totalXp, hupsert.claims]
    rfl
  obtain ⟨db', halone, hdb'⟩ := alone_claim config clock
    (show allowedUser s.db claim.userId = some user from huser) hseason
    (findReward_eq config hmem) hfulfillable
  have hrow : (s.calls.insert (⟨.findClaimant claim, []⟩ : Tx Write Point)).row s.calls.nextId
      = some ⟨.findClaimant claim, []⟩ :=
    Table.insert_row_self ..
  have hothers : ∀ j, j ≠ s.calls.nextId →
      (s.calls.insert (⟨.findClaimant claim, []⟩ : Tx Write Point)).row j = none := by
    intro j hj
    rw [Table.insert_row, if_neg hj, hquiet]
  obtain ⟨n, t, hrun, rfl, hnone⟩ := halone.run hrow hothers
  refine ⟨_, _, n, t, getMiniPassSeasonDashboard_eq config huser hseason,
    (System.run_cons_eq_some _).mpr ⟨_, rfl, hrun⟩, hnone, ?_, ?_⟩
  · rw [havailable]
    constructor
    · intro hdelivers
      obtain ⟨season', hseason', hlevel⟩ := hdelivers.reached.level
      obtain rfl := Option.some.inj
        ((liveSeason_eq_some config hseason).symm.trans hseason')
      exact ⟨hlevel, hdelivers.new⟩
    · intro hopen
      rcases hdb' with ⟨-, hdelivers⟩ | ⟨hnot, -⟩
      · exact hdelivers
      · exact absurd hopen hnot
  · intro hnot
    rw [havailable] at hnot
    rcases hdb' with ⟨hopen, -⟩ | ⟨-, hsame⟩
    · exact absurd hopen hnot
    · exact hsame

/-! ## The claims -/

/-- The delivery of a claim fails. -/
def FailsToDeliver (s : InFlight Db (Tx Write Point)) : Event Request Answer → Prop
  | .start _ => False
  | .resume call a => ∃ tx claim reward, s.calls.row call = some tx
      ∧ tx.point = .fulfill claim reward
      ∧ match a with
        | .error => True
        | .ok now => ∃ failure,
            fulfillMiniPassLevelReward config.catalog reward.reward now = .error failure

theorem fails_rollback {s s' : InFlight Db (Tx Write Point)} {e : Event Request Answer}
    (h : (transactions config).stepTx s e = some s') (he : FailsToDeliver config s e) :
    s'.db = s.db ∧ ¬stillRuns s' e := by
  cases e with
  | start r => cases he
  | resume call a =>
      obtain ⟨tx, next, hrow, -, hstep, rfl⟩ := (transactions config).step_resume h
      obtain ⟨tx', claim, reward, hrow', hp, hfails⟩ := he
      obtain rfl := Option.some.inj (hrow.symm.trans hrow')
      obtain rfl : Next.rollback none = next := by
        rw [hp] at hstep
        cases a with
        | error => exact Option.some.inj hstep
        | ok now =>
            obtain ⟨failure, hfailure⟩ := hfails
            change step config (.fulfill claim reward) ((transactions config).view s.db tx)
              (.ok now) = some next at hstep
            simp only [step, hfailure] at hstep
            exact Option.some.inj hstep
      refine ⟨rfl, fun hstill => hstill ?_⟩
      show (s.calls.delete call).row call = none
      rw [Table.delete_row, if_pos rfl]

/-- The event is a step of a claim. -/
def movesClaim (s : InFlight Db (Tx Write Point)) : Event Request Answer → Prop
  | .start _ => False
  | .resume call _ => ∃ tx, s.calls.row call = some tx ∧ ofClaim tx.point = true

/-- **Level rewards.** In every run no reward is delivered twice to a user; a
step of a claim changes nothing, or delivers one reward that the user has
reached and not had; where the delivery fails the claim leaves nothing behind;
and claims do what the dashboard shows. -/
theorem rewards_claimed_once {db : Db} (hdb : Claimed config db)
    {es : List (Event Request Answer)} {t : InFlight Db (Tx Write Point)}
    (hrun : (transactions config).sys.run (Transactions.idle db) es = some t) :
    Claimed config t.db
    ∧ (∀ e t', (transactions config).stepTx t e = some t' →
      (SameClaims t'.db t.db ∧ (movesClaim t e → t'.db = t.db)
        ∨ ∃ u reward, Delivers config t.db t'.db u reward)
      ∧ (FailsToDeliver config t e → t'.db = t.db ∧ ¬stillRuns t' e))
    ∧ ClaimsAsShown config t := by
  have ht := claims_run config hdb hrun
  refine ⟨ht.claimed, fun e t' h => ⟨?_, fails_rollback config h⟩, claims_as_shown config t⟩
  cases e with
  | start r =>
      rw [((transactions config).step_start h).1]
      exact .inl ⟨⟨rfl, rfl⟩, fun _ => rfl⟩
  | resume call a =>
      obtain ⟨tx, next, hrow, -, hstep, rfl⟩ := (transactions config).step_resume h
      rcases claiming_dbAfter config (ht.underway call tx hrow) (ht.distinct.calls call tx hrow)
        hstep with ⟨hsame, hclaim⟩ | hdelivers
      · refine .inl ⟨hsame, fun hmoves => ?_⟩
        obtain ⟨tx', hrow', hof⟩ := hmoves
        obtain rfl := Option.some.inj (hrow.symm.trans hrow')
        exact hclaim hof
      · exact .inr hdelivers

/-- The season with a reward of 25 BLK on level 2. -/
def oneReward : Config where
  seasons := oneSeason.seasons
  levelRewards :=
    [{ id := 7, seasonId := 1, level := 2
       reward :=
        { rewardKind := .BLK, minerId := none, eventMinerId := none, hashRate := none,
          hashRateDays := none, blkAmount := some 25, polAmount := none } }]
  catalog := oneSeason.catalog
  seasons_zero := rfl
  levelRewards_nodup := List.nodup_singleton 7

theorem twoUsers_claimed (config : Config) : Claimed config twoUsers :=
  ⟨rfl, List.nodup_nil, fun _ _ h => nomatch h⟩

/-- The reward is claimed too early, then a level is bought, and it is claimed twice. -/
def boughtAndClaimed : List (Event Request Answer) :=
  .start (.claimMiniPassLevelReward ⟨1, 1, 7⟩) :: List.replicate 4 (.resume 1 (.ok 5))
    ++ .start (.purchase ⟨1, 1, some (.finite 1)⟩) :: List.replicate 12 (.resume 2 (.ok 6))
    ++ .start (.claimMiniPassLevelReward ⟨1, 1, 7⟩)
      :: .start (.claimMiniPassLevelReward ⟨1, 1, 7⟩)
      :: List.replicate 3 (.resume 3 (.ok 7)) ++ List.replicate 3 (.resume 4 (.ok 7))
    ++ List.replicate 3 (.resume 4 (.ok 8)) ++ [.resume 3 (.ok 9)]

theorem rewards_claimed_once_bought :
    ∃ t, (transactions oneReward).sys.run (Transactions.idle twoUsers) boughtAndClaimed = some t
      ∧ (t.db.holdings.users 1).map User.blkBalance = some 25 ∧ t.db.fulfilled = [(1, 7)]
      ∧ Claimed oneReward t.db := by
  have hrun : ∃ t ∈ (transactions oneReward).sys.run (Transactions.idle twoUsers)
      boughtAndClaimed, (t.db.holdings.users 1).map User.blkBalance = some 25
        ∧ t.db.fulfilled = [(1, 7)] := by
    decide +kernel
  obtain ⟨t, hrun, hblk, hfulfilled⟩ := hrun
  exact ⟨t, hrun, hblk, hfulfilled,
    (rewards_claimed_once oneReward (twoUsers_claimed oneReward) hrun).1⟩

end BlockMiner.MiniPass
