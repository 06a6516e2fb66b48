import BlockMiner.Faucet

/-!
# Faucet claims are spaced and earned

A claim that commits has found a visit that was opened ten seconds before it,
in whatever order the requests go. That the visit is later than the last
claim, and the last claim a cooldown ago, it has only seen on the record it
read; the record is as good as read when it commits if both still hold of it
(`RecordStands`), and then the claims are spaced. A status and a claim that
run alone go through the same checks.
-/

namespace BlockMiner.Faucet

/-! ## What is to hold -/

/-- Each claim, the latest first, has a visit before it that is later than
all earlier claims of its user. -/
def Earned (opened : List Deed) : List Deed → Prop
  | [] => True
  | c :: earlier =>
      (∃ v ∈ opened, v.userId = c.userId ∧ v.doneAt + FAUCET_PARTNER_WAIT_MS ≤ c.doneAt
        ∧ ∀ c' ∈ earlier, c'.userId = c.userId → c'.doneAt < v.doneAt)
      ∧ Earned opened earlier

theorem Earned.mono {opened : List Deed} (v : Deed) {claimed : List Deed} :
    Earned opened claimed → Earned (v :: opened) claimed := by
  intro h
  induction claimed with
  | nil => trivial
  | cons c earlier ih =>
      obtain ⟨⟨w, hw, hrest⟩, hearlier⟩ := h
      exact ⟨⟨w, List.mem_cons_of_mem v hw, hrest⟩, ih hearlier⟩

structure Spaced (reward : FaucetReward) (db : Db) : Prop where
  apart : db.claimed.Pairwise fun c earlier =>
    c.userId = earlier.userId → earlier.doneAt + reward.cooldown ≤ c.doneAt
  earned : Earned db.opened db.claimed

/-- The record that a claim commits to is as good as the one it has read. -/
def RecordStands (db : Db) : Call → Answer → Prop
  | .grant userId now openedAt _ reward, .ok _ =>
      (buildStatusPayload (db.record userId) now reward.cooldown).available = true
        ∧ hasFreshVisit (db.record userId) openedAt = true
  | _, _ => True

instance (db : Db) (c : Call) (a : Answer) : Decidable (RecordStands db c a) := by
  unfold RecordStands
  split <;> infer_instance

/-! ## The checks -/

theorem available_iff {record : Option FaucetClaim} {now cooldownMs : ℕ} :
    (buildStatusPayload record now cooldownMs).available = true
      ↔ ∀ r ∈ record, r.claimedAt + cooldownMs ≤ now := by
  cases record with
  | none => simp [buildStatusPayload]
  | some r => simp [buildStatusPayload, Nat.sub_eq_zero_iff_le]

theorem hasFreshVisit_iff {record : Option FaucetClaim} {openedAt : ℕ} :
    hasFreshVisit record openedAt = true ↔ 0 < openedAt ∧ ∀ r ∈ record, r.claimedAt < openedAt := by
  unfold hasFreshVisit lastClaimAt
  rw [Bool.and_eq_true, decide_eq_true_eq, decide_eq_true_eq]
  cases record with
  | none => simp
  | some r => simp

theorem partnerReady_iff {record : Option FaucetClaim} {visit : Option FaucetPartnerVisit}
    {now : ℕ} : partnerReady record visit now = true
      ↔ hasFreshVisit record (visitOpenedAt visit) = true ∧ visitEligibleAt visit ≤ now := by
  unfold partnerReady waitRemainingMs
  cases hasFreshVisit record (visitOpenedAt visit) with
  | false => simp
  | true => simp [Nat.sub_eq_zero_iff_le]

/-! ## The invariant -/

structure Sound (reward : FaucetReward) (db : Db) : Prop extends Spaced reward db where
  visited : ∀ u key v, db.visit u key = some v →
    ⟨u, v.openedAt⟩ ∈ db.opened ∧ v.eligibleAt = v.openedAt + FAUCET_PARTNER_WAIT_MS
  latest : ∀ c ∈ db.claimed, ∃ r, db.record c.userId = some r ∧ c.doneAt ≤ r.claimedAt

/-- The reward a call has in hand. -/
def Call.reward : Call → Option FaucetReward
  | .claimRecord _ _ reward | .update _ _ _ reward | .statusVisit _ _ _ _ reward
  | .claimVisit _ _ _ _ reward | .grant _ _ _ _ reward => some reward
  | .visitUpsert .. | .statusRecord _ | .statusReward .. => none

/-- What a call remembers: the active reward, and its visit. -/
structure Remembers (config : Config) (db : Db) (c : Call) : Prop where
  reward : ∀ reward ∈ c.reward, config.reward = some reward
  waited : ∀ userId now openedAt todayKey reward, c = .grant userId now openedAt todayKey reward →
    ⟨userId, openedAt⟩ ∈ db.opened ∧ openedAt + FAUCET_PARTNER_WAIT_MS ≤ now

theorem Remembers.grows {config : Config} {db db' : Db} {c : Call} (h : Remembers config db c)
    (hopened : ∀ v ∈ db.opened, v ∈ db'.opened) : Remembers config db' c where
  reward := h.reward
  waited userId now openedAt todayKey reward hc := by
    obtain ⟨hmem, hle⟩ := h.waited userId now openedAt todayKey reward hc
    exact ⟨hopened _ hmem, hle⟩

/-- The updates that only move a record on to another day, and the replies. -/
structure Quiet (db db' : Db) : Prop where
  visit : db'.visit = db.visit
  opened : db'.opened = db.opened
  claimed : db'.claimed = db.claimed
  record : ∀ u r, db.record u = some r → ∃ r', db'.record u = some r' ∧ r'.claimedAt = r.claimedAt

theorem quiet_of_eq {db db' : Db} (hvisit : db'.visit = db.visit) (hopened : db'.opened = db.opened)
    (hclaimed : db'.claimed = db.claimed) (hrecord : db'.record = db.record) : Quiet db db' :=
  ⟨hvisit, hopened, hclaimed, fun _ r hr => ⟨r, by rw [hrecord, hr], rfl⟩⟩

theorem setRecord_quiet {db : Db} {userId : ℕ} {old record : FaucetClaim}
    (hold : db.record userId = some old) (hsame : record.claimedAt = old.claimedAt) :
    Quiet db (setRecord db userId record) := by
  refine ⟨rfl, rfl, rfl, fun u r hr => ?_⟩
  unfold setRecord
  by_cases hu : u = userId
  · subst hu
    obtain rfl := Option.some.inj (hold.symm.trans hr)
    exact ⟨record, Function.update_self .., hsame⟩
  · exact ⟨r, (Function.update_of_ne hu _ _).trans hr, rfl⟩

section Sound

variable {reward : FaucetReward} {db db' : Db} (h : Sound reward db)
include h

theorem Sound.quiet (hq : Quiet db db') : Sound reward db' where
  apart := by
    rw [hq.claimed]
    exact h.apart
  earned := by
    rw [hq.claimed, hq.opened]
    exact h.earned
  visited := by
    rw [hq.visit, hq.opened]
    exact h.visited
  latest := by
    rw [hq.claimed]
    intro c hc
    obtain ⟨r, hr, hle⟩ := h.latest c hc
    obtain ⟨r', hr', hsame⟩ := hq.record _ r hr
    exact ⟨r', hr', hsame ▸ hle⟩

theorem Sound.openVisit (userId now : ℕ) (todayKey : String) :
    Sound reward (openVisit db userId now todayKey) where
  apart := h.apart
  earned := h.earned.mono _
  latest := h.latest
  visited u key v hv := by
    simp only [Faucet.openVisit, Function.update_apply] at hv ⊢
    by_cases hu : u = userId
    · rw [if_pos hu, Function.update_apply] at hv
      by_cases hkey : key = todayKey
      · rw [if_pos hkey] at hv
        obtain rfl := Option.some.inj hv
        exact ⟨hu ▸ List.mem_cons_self .., rfl⟩
      · rw [if_neg hkey] at hv
        obtain ⟨hmem, heq⟩ := h.visited userId key v hv
        rw [hu]
        exact ⟨List.mem_cons_of_mem _ hmem, heq⟩
    · rw [if_neg hu] at hv
      obtain ⟨hmem, heq⟩ := h.visited u key v hv
      exact ⟨List.mem_cons_of_mem _ hmem, heq⟩

theorem Sound.grantClaim {userId now openedAt : ℕ} {todayKey : String}
    (hmem : ⟨userId, openedAt⟩ ∈ db.opened) (hwait : openedAt + FAUCET_PARTNER_WAIT_MS ≤ now)
    (havail : (buildStatusPayload (db.record userId) now reward.cooldown).available = true)
    (hfresh : hasFreshVisit (db.record userId) openedAt = true) :
    Sound reward (grantClaim db userId now todayKey reward) := by
  rw [available_iff] at havail
  rw [hasFreshVisit_iff] at hfresh
  refine ⟨⟨?_, ?_⟩, h.visited, ?_⟩
  · refine List.pairwise_cons.mpr ⟨fun earlier hc hu => ?_, h.apart⟩
    obtain ⟨r, hr, hle⟩ := h.latest earlier hc
    rw [← hu] at hr
    have hcool := havail r hr
    show earlier.doneAt + reward.cooldown ≤ now
    omega
  · refine ⟨⟨⟨userId, openedAt⟩, hmem, rfl, hwait, fun earlier hc hu => ?_⟩, h.earned⟩
    obtain ⟨r, hr, hle⟩ := h.latest earlier hc
    rw [hu] at hr
    have hlt := hfresh.2 r hr
    show earlier.doneAt < openedAt
    omega
  · intro c hc
    unfold Faucet.grantClaim
    rcases List.mem_cons.mp hc with rfl | hold
    · exact ⟨_, Function.update_self .., le_rfl⟩
    · obtain ⟨r, hr, hle⟩ := h.latest c hold
      by_cases hu : c.userId = userId
      · rw [hu] at hr ⊢
        have hlt := hfresh.2 r hr
        exact ⟨_, Function.update_self .., show c.doneAt ≤ now by omega⟩
      · exact ⟨r, (Function.update_of_ne hu _ _).trans hr, hle⟩

end Sound

/-! ## Steps -/

/-- What becomes of a call: a visit is opened, a claim is granted, or nothing
that matters is written. -/
inductive Moves (config : Config) (db : Db) (now : ℕ) : Call → Db → Option Call → Prop
  | opened {userId openedAt todayKey} :
      Moves config db now (.visitUpsert userId openedAt todayKey)
        (openVisit db userId openedAt todayKey) none
  | granted {userId claimNow openedAt todayKey reward} :
      Moves config db now (.grant userId claimNow openedAt todayKey reward)
        (grantClaim db userId claimNow todayKey reward) none
  | quiet {c db' next} (hq : Quiet db db')
      (hreward : ∀ c' ∈ next, ∀ reward ∈ c'.reward, some reward = c.reward
        ∨ some reward = config.reward)
      (hgrant : ∀ userId claimNow openedAt todayKey reward,
        next = some (.grant userId claimNow openedAt todayKey reward) →
          ∃ visit, db.visit userId todayKey = some visit ∧ visit.openedAt = openedAt
            ∧ visit.eligibleAt ≤ claimNow) :
      Moves config db now c db' next

theorem normalized_cases {asking : Asking} {userId now : ℕ} {record : Option FaucetClaim}
    {todayKey : String} {reward : FaucetReward} {c : Call}
    (h : normalized asking userId now record todayKey reward = some c) :
    c = .statusVisit userId now record todayKey reward
      ∨ ∃ claimNow, c = .claimVisit userId claimNow record todayKey reward := by
  cases asking with
  | status => exact Or.inl (Option.some.inj h).symm
  | claim claimNow =>
      obtain ⟨-, h⟩ := Option.ite_none_right_eq_some.mp h
      exact Or.inr ⟨claimNow, (Option.some.inj h).symm⟩

theorem normalize_cases {config : Config} {asking : Asking} {userId now : ℕ}
    {record : Option FaucetClaim} {reward : FaucetReward} {c : Call}
    (h : normalizeFaucetRecord config asking userId now record reward = some c) :
    c.reward = some reward
      ∧ ∀ u t o k r, c ≠ .grant u t o k r := by
  simp only [normalizeFaucetRecord] at h
  split at h
  · rcases normalized_cases h with rfl | ⟨claimNow, rfl⟩
    · exact ⟨rfl, by simp⟩
    · exact ⟨rfl, by simp⟩
  · obtain rfl := Option.some.inj h
    exact ⟨rfl, by simp⟩

/-- A visit that is ready is there. -/
theorem visit_of_ready {record : Option FaucetClaim} {visit : Option FaucetPartnerVisit} {now : ℕ}
    (h : partnerReady record visit now = true) :
    ∃ v, visit = some v ∧ v.openedAt = visitOpenedAt visit ∧ v.eligibleAt ≤ now := by
  rw [partnerReady_iff, hasFreshVisit_iff] at h
  obtain ⟨⟨hpos, -⟩, hle⟩ := h
  cases visit with
  | none => exact absurd hpos (Nat.lt_irrefl 0)
  | some v => exact ⟨v, rfl, rfl, hle⟩

theorem act_moves (config : Config) (db : Db) (now : ℕ) (c : Call) :
    Moves config db now c (act config db now c).1 (act config db now c).2 := by
  cases c with
  | visitUpsert userId openedAt todayKey => exact .opened
  | grant userId claimNow openedAt todayKey reward => exact .granted
  | statusRecord userId =>
      refine .quiet (quiet_of_eq rfl rfl rfl rfl) (fun c' hc' reward hr => ?_)
        fun _ _ _ _ _ h => by cases h
      obtain rfl := Option.some.inj hc'
      cases hr
  | statusReward userId record =>
      simp only [act]
      cases hreward : config.reward with
      | none =>
          exact .quiet (quiet_of_eq rfl rfl rfl rfl) (fun c' hc' => by cases hc')
            fun _ _ _ _ _ h => by cases h
      | some reward =>
          refine .quiet (quiet_of_eq rfl rfl rfl rfl) (fun c' hc' r hr => ?_)
            fun u t o k r h => absurd rfl ((normalize_cases h).2 u t o k r)
          rw [(normalize_cases hc').1] at hr
          rw [hreward]
          exact Or.inr hr.symm
  | claimRecord userId claimNow reward =>
      refine .quiet (quiet_of_eq rfl rfl rfl rfl) (fun c' hc' r hr => ?_)
        fun u t o k r h => absurd rfl ((normalize_cases h).2 u t o k r)
      rw [(normalize_cases hc').1] at hr
      exact Or.inl hr.symm
  | update asking userId todayKey reward =>
      simp only [act]
      cases hold : db.record userId with
      | none =>
          exact .quiet (quiet_of_eq rfl rfl rfl rfl) (fun c' hc' => by cases hc')
            fun _ _ _ _ _ h => by cases h
      | some old =>
          refine .quiet (setRecord_quiet hold rfl) (fun c' hc' r hr => ?_) fun u t o k r h => ?_
          · rcases normalized_cases hc' with rfl | ⟨_, rfl⟩
            · exact Or.inl hr.symm
            · exact Or.inl hr.symm
          · rcases normalized_cases h with heq | ⟨_, heq⟩
            · cases heq
            · cases heq
  | statusVisit userId statusNow record todayKey reward =>
      exact .quiet (quiet_of_eq rfl rfl rfl rfl) (fun c' hc' => by cases hc')
        fun _ _ _ _ _ h => by cases h
  | claimVisit userId claimNow record todayKey reward =>
      refine .quiet (quiet_of_eq rfl rfl rfl rfl) (fun c' hc' r hr => ?_) fun u t o k r h => ?_
      · obtain ⟨-, hc'⟩ := Option.ite_none_right_eq_some.mp hc'
        obtain rfl := Option.some.inj hc'
        exact Or.inl hr.symm
      · obtain ⟨hready, h⟩ := Option.ite_none_right_eq_some.mp h
        cases h
        exact visit_of_ready hready

theorem resume_moves {config : Config} {db db' : Db} {c : Call} {a : Answer} {next : Option Call}
    (h : resume config db c a = some (db', next)) :
    (db' = db ∧ next = none) ∨ ∃ now, a = .ok now ∧ Moves config db now c db' next := by
  cases a with
  | error =>
      obtain ⟨rfl, rfl⟩ := Prod.mk.inj (Option.some.inj h)
      exact Or.inl ⟨rfl, rfl⟩
  | ok now =>
      obtain ⟨rfl, rfl⟩ := Prod.mk.inj (Option.some.inj h)
      exact Or.inr ⟨now, rfl, act_moves config db now c⟩

/-! ## A status and a claim, each on its own -/

/-- The status of a user, and what becomes of a claim, at the same instant. -/
def Truthful (config : Config) (db : Db) : Prop :=
  ∀ userId now, ∃ reply afterStatus afterClaim,
    (service config).requestAlone (.ok now) 4 db (.getStatus userId) = some afterStatus
      ∧ afterStatus.replies = reply :: db.replies ∧ reply.userId = userId ∧ reply.now = now
      ∧ (service config).requestAlone (.ok now) 4 db (.claim userId now) = some afterClaim
      ∧ afterClaim.claimed = if reply.canClaim then ⟨userId, now⟩ :: db.claimed else db.claimed

/-- The two with a record of today: the same two checks. -/
theorem normalized_agree (config : Config) (db : Db) (userId now : ℕ)
    (record : Option FaucetClaim) (todayKey : String) (reward : FaucetReward) (n m : ℕ) :
    ∃ reply afterStatus afterClaim,
      (normalized .status userId now record todayKey reward).elim (some db)
          ((service config).alone (.ok now) (n + 1) db) = some afterStatus
        ∧ afterStatus.replies = reply :: db.replies ∧ reply.userId = userId ∧ reply.now = now
        ∧ (normalized (.claim now) userId now record todayKey reward).elim (some db)
            ((service config).alone (.ok now) (m + 2) db) = some afterClaim
        ∧ afterClaim.claimed
          = if reply.canClaim then ⟨userId, now⟩ :: db.claimed else db.claimed := by
  refine ⟨_, _, ?_, rfl, rfl, rfl, rfl, ?_⟩
  · exact if (buildStatusPayload record now reward.cooldown).available
      && partnerReady record (db.visit userId todayKey) now then
        grantClaim db userId now todayKey reward else db
  · cases havail : (buildStatusPayload record now reward.cooldown).available with
    | false => simp [normalized, havail]
    | true =>
        cases hready : partnerReady record (db.visit userId todayKey) now with
        | false => simp [normalized, havail, hready, Service.alone, service, resume, act]
        | true =>
            simp [normalized, havail, hready, Service.alone, service, resume, act, grantClaim]

theorem truthful (config : Config) (db : Db) : Truthful config db := by
  intro userId now
  have hstatus : (service config).requestAlone (.ok now) 4 db (.getStatus userId)
      = (service config).alone (.ok now) 3 db (.statusReward userId (db.record userId)) := rfl
  rw [hstatus]
  cases hreward : config.reward with
  | none =>
      refine ⟨⟨userId, now, false, 0, none, 0, false⟩, replyUnconfigured db userId now, db, ?_, rfl,
        rfl, rfl, ?_, rfl⟩
      · simp only [Service.alone, service, resume, act, hreward, Option.bind_some, Option.elim_none]
      · simp only [Service.requestAlone, service, start, hreward, Option.map_none,
          Option.toList_none, Option.bind_some, List.head?_nil, Option.elim_none]
  | some reward =>
      have hclaim : (service config).requestAlone (.ok now) 4 db (.claim userId now)
          = (service config).alone (.ok now) 4 db (.claimRecord userId now reward) := by
        simp only [Service.requestAlone, service, start, hreward, Option.map_some,
          Option.toList_some, Option.bind_some, List.head?_cons, Option.elim_some]
      have hstatus' : (service config).alone (.ok now) 3 db
            (.statusReward userId (db.record userId))
          = (normalizeFaucetRecord config .status userId now (db.record userId) reward).elim
            (some db) ((service config).alone (.ok now) 2 db) := by
        rw [Service.alone]
        simp only [service, resume, act, hreward, Option.bind_some]
      have hclaim' : (service config).alone (.ok now) 4 db (.claimRecord userId now reward)
          = (normalizeFaucetRecord config (.claim now) userId now (db.record userId) reward).elim
            (some db) ((service config).alone (.ok now) 3 db) := rfl
      rw [hclaim, hstatus', hclaim']
      simp only [normalizeFaucetRecord]
      by_cases htoday : ((db.record userId).all fun r =>
          r.dayKey = some (config.getBrazilCheckinDateKey now)) = true
      · rw [if_pos htoday, if_pos htoday]
        exact normalized_agree config db userId now _ _ reward 1 1
      · rw [if_neg htoday, if_neg htoday]
        cases hold : db.record userId with
        | none => simp [hold] at htoday
        | some old =>
            -- both move the record on and look at it again
            let record := old.movedTo (config.getBrazilCheckinDateKey now)
            have hupdate : ∀ (asking : Asking) (n : ℕ),
                (service config).alone (.ok now) (n + 1) db
                    (.update asking userId (config.getBrazilCheckinDateKey now) reward)
                  = (normalized asking userId now (some record)
                      (config.getBrazilCheckinDateKey now) reward).elim
                    (some (setRecord db userId record))
                    ((service config).alone (.ok now) n (setRecord db userId record)) := by
              intro asking n
              rw [Service.alone]
              simp only [service, resume, act, hold, Option.bind_some, record]
            rw [Option.elim_some, Option.elim_some, hupdate, hupdate]
            exact normalized_agree config (setRecord db userId record) userId now (some record)
              (config.getBrazilCheckinDateKey now) reward 0 0

/-! ## Runs -/

/-- Nobody has been to the faucet yet. -/
def fresh : InFlight Db Call :=
  ⟨⟨fun _ => none, fun _ _ => none, .empty, [], [], []⟩, .empty⟩

theorem fresh_sound (reward : FaucetReward) : Sound reward fresh.db where
  apart := List.Pairwise.nil
  earned := trivial
  visited u key v h := by cases h
  latest c hc := by cases hc

theorem start_remembers {config : Config} (db : Db) {r : Request} {c : Call}
    (hc : c ∈ start config r) : Remembers config db c := by
  cases r with
  | startPartnerVisit userId now keyAt =>
      obtain rfl := List.mem_singleton.mp hc
      constructor
      · intro reward hr
        cases hr
      · intro _ _ _ _ _ h
        cases h
  | getStatus userId =>
      obtain rfl := List.mem_singleton.mp hc
      constructor
      · intro reward hr
        cases hr
      · intro _ _ _ _ _ h
        cases h
  | claim userId now =>
      obtain ⟨active, hactive, rfl⟩ := Option.map_eq_some_iff.mp (Option.mem_toList.mp hc)
      constructor
      · intro reward hr
        obtain rfl := Option.some.inj hr
        exact hactive
      · intro _ _ _ _ _ h
        cases h

/-- **The faucet.** In a run in which every claim that commits finds the
record as good as the one it has read, the claims are spaced and earned, and a
status tells what a claim would do. -/
theorem faucet_spaced {config : Config} {events : List (Event Request Answer)}
    {s : InFlight Db Call}
    (hstand : (service config).sys.Meets (Service.Guard RecordStands) fresh events)
    (hrun : (service config).sys.run fresh events = some s) :
    (∀ reward ∈ config.reward, Spaced reward s.db) ∧ Truthful config s.db := by
  refine ⟨fun reward hreward => ?_, truthful config s.db⟩
  refine ((service config).invariant (I := Sound reward) (J := Remembers config) ?_ ?_
    ⟨fresh_sound reward, fun i c hc => by cases hc⟩ hstand hrun).1.toSpaced
  · intro db r db' cs hdb h
    obtain ⟨rfl, rfl⟩ := Prod.mk.inj (Option.some.inj h)
    exact ⟨hdb, fun _ hd => hd, fun c hc => start_remembers db hc⟩
  · intro db c a db' next hdb hc hC h
    rcases resume_moves h with ⟨rfl, rfl⟩ | ⟨now, rfl, hmoves⟩
    · exact ⟨hdb, fun _ hd => hd, fun c' hc' => by cases hc'⟩
    · cases hmoves with
      | opened =>
          exact ⟨hdb.openVisit _ _ _, fun d hd => hd.grows fun v hv => List.mem_cons_of_mem _ hv,
            fun c' hc' => by cases hc'⟩
      | granted =>
          rename_i userId claimNow openedAt todayKey r
          obtain ⟨hmem, hwait⟩ := hc.waited _ _ _ _ _ rfl
          obtain rfl := Option.some.inj ((hc.reward r rfl).symm.trans hreward)
          exact ⟨hdb.grantClaim hmem hwait hC.1 hC.2, fun d hd => hd.grows fun v hv => hv,
            fun c' hc' => by cases hc'⟩
      | quiet hq hkeep hgrant =>
          refine ⟨hdb.quiet hq, fun d hd => hd.grows fun v hv => by rwa [hq.opened],
            fun c' hc' => ⟨fun r hr => ?_, fun u t o k r heq => ?_⟩⟩
          · rcases hkeep c' hc' r hr with hold | hactive
            · exact hc.reward r hold.symm
            · exact hactive.symm
          · obtain ⟨visit, hvisit, rfl, hle⟩ := hgrant u t o k r (heq ▸ hc')
            obtain ⟨hmem, heligible⟩ := hdb.visited u k visit hvisit
            rw [hq.opened]
            exact ⟨hmem, heligible ▸ hle⟩

/-- A minute of cooldown; the day changes at 100000. -/
def minutely : Config where
  reward := some ⟨1, 60000, ⟨3, "Pulse Mini v1", 1, 1, none⟩⟩
  getBrazilCheckinDateKey := fun t => if t < 100000 then "1" else "2"

/-- A visit and a claim. -/
def claimedOnce : List (Event Request Answer) :=
  [.start (.startPartnerVisit 7 1000 1000), .resume 1 (.ok 1001), .start (.claim 7 11000),
    .resume 2 (.ok 11001), .resume 2 (.ok 11002), .resume 2 (.ok 11003)]

/-- And again on the next day. -/
def claimedDaily : List (Event Request Answer) :=
  claimedOnce ++ [.start (.startPartnerVisit 7 100000 100000), .resume 3 (.ok 100001),
    .start (.claim 7 110000), .resume 4 (.ok 110001), .resume 4 (.ok 110002),
    .resume 4 (.ok 110003), .resume 4 (.ok 110004)]

theorem faucet_spaced_daily :
    ∃ s, (service minutely).sys.run fresh claimedDaily = some s
      ∧ s.db.claimed = [⟨7, 110000⟩, ⟨7, 11000⟩]
      ∧ (∀ reward ∈ minutely.reward, Spaced reward s.db) ∧ Truthful minutely s.db := by
  have hrun : ((service minutely).sys.run fresh claimedDaily).isSome := by decide +kernel
  exact ⟨_, (Option.some_get hrun).symm, by decide +kernel +revert,
    faucet_spaced (by decide +kernel) (Option.some_get hrun).symm⟩

/-- A claim, another visit, and two claims that read the record before either commits. -/
def claimedTwice : List (Event Request Answer) :=
  claimedOnce ++ [.start (.startPartnerVisit 7 70000 70000), .resume 3 (.ok 70001),
    .start (.claim 7 80000), .start (.claim 7 80000), .resume 4 (.ok 80001),
    .resume 5 (.ok 80001), .resume 4 (.ok 80002), .resume 5 (.ok 80002), .resume 4 (.ok 80003),
    .resume 5 (.ok 80003)]

/-- Both are granted, on one visit, at one instant. -/
theorem faucet_claimedTwice :
    ∃ s, (service minutely).sys.run fresh claimedTwice = some s
      ∧ s.db.claimed = [⟨7, 80000⟩, ⟨7, 80000⟩, ⟨7, 11000⟩]
      ∧ s.db.opened = [⟨7, 70000⟩, ⟨7, 1000⟩] ∧ s.db.machines.inventory.rows.length = 3
      ∧ ¬ ((∀ reward ∈ minutely.reward, Spaced reward s.db) ∧ Truthful minutely s.db) := by
  have hrun : ((service minutely).sys.run fresh claimedTwice).isSome := by decide +kernel
  have hclaimed : (((service minutely).sys.run fresh claimedTwice).get hrun).db.claimed
      = [⟨7, 80000⟩, ⟨7, 80000⟩, ⟨7, 11000⟩] := by decide +kernel +revert
  refine ⟨_, (Option.some_get hrun).symm, hclaimed, by decide +kernel +revert,
    by decide +kernel +revert, fun h => ?_⟩
  have hapart := (h.1 _ rfl).apart
  rw [hclaimed] at hapart
  exact absurd ((List.pairwise_cons.mp hapart).1 ⟨7, 80000⟩ (List.mem_cons_self ..) rfl)
    (by decide)

end BlockMiner.Faucet
