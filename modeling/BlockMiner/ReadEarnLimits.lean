import BlockMiner.ReadEarn
import BlockMiner.TransactionRules

/-!
# The limits of Read and Earn

One redemption for each user and campaign is the index's doing, and a reward
for each row the transaction's. The total of a campaign is a count that
nothing holds, and the instant that decides whether it is live is the
request's, so these two hold where a redemption is created while the campaign
is live and commits while there is room for it (`InTime`).
-/

namespace BlockMiner.ReadEarn

open LevelRewards (Delivery Holdings)

variable (config : Config)

/-! ## One for each user and campaign -/

def redemptionKeys : (transactions config).UniqueIndex (ℕ × ℕ) where
  keys := Db.keys
  entered
    | .createRedemption row => [row.key]
    | _ => []
  lock := .redemption
  keys_apply db w := by cases w <;> exact .refl _
  locked w k hk := by
    cases w with
    | createRedemption row =>
        obtain rfl := List.mem_singleton.mp hk
        exact List.mem_singleton_self _
    | _ => cases hk
  admits h := by
    cases step_moves config h with
    | creates r c delivery now hnew =>
        refine ⟨List.nodup_singleton _, fun k hk => ?_⟩
        obtain rfl := List.mem_singleton.mp hk
        exact hnew
    | delivers | notifies => exact ⟨List.nodup_nil, List.forall_mem_nil _⟩
    | _ => trivial

/-! ## What is to hold -/

def Reward.key (reward : Reward) : ℕ × ℕ := (reward.userId, reward.campaignId)

/-- What the transactions keep. -/
structure Sound (start : Holdings) (db : Db) : Prop where
  capped : ∀ campaignId c max, config.campaigns campaignId = some c → c.maxRedemptions = some max →
    db.count campaignId ≤ max
  /-- A reward for each row, and only these have changed what the users have. -/
  rewarded : db.rewards.map Reward.key = db.keys
  granted : ∀ reward ∈ db.rewards, ∃ c t, config.campaigns reward.campaignId = some c
    ∧ rewardOf config c t = some reward.delivery
  delivered : db.holdings
    = db.rewards.foldr (fun reward holdings => holdings.deliver reward.userId reward.delivery) start
  live : ∀ row ∈ db.redemptions, ∃ c, config.campaigns row.campaignId = some c
    ∧ isReadEarnCampaignLive c row.requestedAt = true
    ∧ isReadEarnCampaignLive c row.redeemedAt = true

structure Limited (start : Holdings) (db : Db) : Prop extends Sound config start db where
  once : db.keys.Nodup

/-- A redemption is created while the campaign is live, and commits while
there is room. -/
def InTime (db : Db) (tx : Tx Write Point) (a : Answer) : Prop :=
  match tx.point, a with
  | .createRedemption _ c _, .ok now => isReadEarnCampaignLive c now = true
  | .commit r c _ _, .ok _ => isFull db c r.campaignId = false
  | _, _ => True

instance (db : Db) (tx : Tx Write Point) (a : Answer) : Decidable (InTime db tx a) := by
  unfold InTime
  split <;> infer_instance

/-! ## What a redemption has pending -/

/-- The campaign of a request, live when it came. -/
def Request.Known (r : Request) (c : Campaign) : Prop :=
  config.campaigns r.campaignId = some c ∧ isReadEarnCampaignLive c r.now = true

def Request.reward (r : Request) (delivery : Delivery) : Reward :=
  ⟨r.userId, r.campaignId, delivery⟩

/-- The writes of a redemption, and what they rely on. -/
def Pending (tx : Tx Write Point) : Prop :=
  match tx.point with
  | .preview _ | .findCampaign _ => tx.writes = []
  | .findExisting r c | .count r c | .compare r c | .reward r c =>
      r.Known config c ∧ tx.writes = []
  | .createRedemption r c delivery => r.Known config c
      ∧ (∃ t, rewardOf config c t = some delivery) ∧ tx.writes = [.deliver (r.reward delivery)]
  | .notify r c delivery redeemedAt => r.Known config c
      ∧ (∃ t, rewardOf config c t = some delivery) ∧ isReadEarnCampaignLive c redeemedAt = true
      ∧ tx.writes = [.deliver (r.reward delivery), .createRedemption (r.row c redeemedAt)]
  | .commit r c delivery redeemedAt => r.Known config c
      ∧ (∃ t, rewardOf config c t = some delivery) ∧ isReadEarnCampaignLive c redeemedAt = true
      ∧ tx.writes = [.deliver (r.reward delivery), .createRedemption (r.row c redeemedAt),
        .notify (r.notification c)]

theorem pending_step {db : Db} {tx tx' : Tx Write Point} {a : Answer} {next : Next Db Write Point}
    (h : Pending config tx) (hC : InTime db tx a)
    (hstep : step config tx.point ((transactions config).view db tx) a = some next)
    (htx' : tx.after next = some tx') : Pending config tx' := by
  have hmoves := step_moves config hstep
  obtain ⟨p, ws⟩ := tx
  cases hmoves with
  | failed | commits => cases htx'
  | previewed r =>
      obtain rfl := Option.some.inj htx'
      exact h
  | found r c a hfound hlive =>
      obtain rfl := Option.some.inj htx'
      exact ⟨⟨hfound, hlive⟩, h⟩
  | unredeemed r c =>
      obtain rfl := Option.some.inj htx'
      cases hmax : c.maxRedemptions.isSome with
      | true => exact h
      | false => exact h
  | counted r c | compared r c =>
      obtain rfl := Option.some.inj htx'
      exact h
  | delivers r c delivery now hreward =>
      obtain rfl := Option.some.inj htx'
      obtain ⟨hknown, rfl⟩ : r.Known config c ∧ ws = [] := h
      exact ⟨hknown, ⟨now, hreward⟩, rfl⟩
  | creates r c delivery now =>
      obtain rfl := Option.some.inj htx'
      obtain ⟨hknown, hreward, rfl⟩ : r.Known config c
        ∧ (∃ t, rewardOf config c t = some delivery) ∧ ws = [.deliver (r.reward delivery)] := h
      exact ⟨hknown, hreward, hC, rfl⟩
  | notifies r c delivery redeemedAt =>
      obtain rfl := Option.some.inj htx'
      obtain ⟨hknown, hreward, hlive, rfl⟩ : r.Known config c
        ∧ (∃ t, rewardOf config c t = some delivery) ∧ isReadEarnCampaignLive c redeemedAt = true
        ∧ ws = [.deliver (r.reward delivery), .createRedemption (r.row c redeemedAt)] := h
      exact ⟨hknown, hreward, hlive, rfl⟩

/-- The database after a redemption. -/
def redeemed (db : Db) (r : Request) (c : Campaign) (delivery : Delivery) (redeemedAt : ℤ) :
    Db where
  holdings := db.holdings.deliver r.userId delivery
  redemptions := r.row c redeemedAt :: db.redemptions
  notifications := r.notification c :: db.notifications
  rewards := r.reward delivery :: db.rewards

theorem redeemed_sound {start : Holdings} {db : Db} {r : Request} {c : Campaign}
    {delivery : Delivery} {redeemedAt : ℤ} (h : Sound config start db) (hknown : r.Known config c)
    (hreward : ∃ t, rewardOf config c t = some delivery)
    (hlive : isReadEarnCampaignLive c redeemedAt = true)
    (hroom : isFull db c r.campaignId = false) :
    Sound config start (redeemed db r c delivery redeemedAt) where
  capped campaignId c' max hfound hmax := by
    have hcount : (redeemed db r c delivery redeemedAt).count campaignId
        = db.count campaignId + if r.campaignId = campaignId then 1 else 0 := by
      simp only [Db.count, redeemed, List.countP_cons, Request.row, decide_eq_true_eq]
    rw [hcount]
    have hbefore := h.capped campaignId c' max hfound hmax
    split
    case isFalse => omega
    case isTrue hsame =>
      subst hsame
      obtain rfl := Option.some.inj (hknown.1.symm.trans hfound)
      simp only [isFull, hmax, Option.any_some, decide_eq_false_iff_not, not_le] at hroom
      omega
  rewarded := congrArg (List.cons (r.userId, r.campaignId)) h.rewarded
  granted reward hmem := by
    rcases List.mem_cons.mp hmem with rfl | hold
    · obtain ⟨t, ht⟩ := hreward
      exact ⟨c, t, hknown.1, ht⟩
    · exact h.granted reward hold
  delivered := by
    show db.holdings.deliver r.userId delivery = _
    rw [h.delivered]
    rfl
  live row hmem := by
    rcases List.mem_cons.mp hmem with rfl | hold
    · exact ⟨c, hknown.1, hknown.2, hlive⟩
    · exact h.live row hold

theorem sound_step {start : Holdings} {db : Db} {tx : Tx Write Point} {a : Answer}
    {next : Next Db Write Point} (hdb : Sound config start db) (htx : Pending config tx)
    (hC : InTime db tx a)
    (hstep : step config tx.point ((transactions config).view db tx) a = some next) :
    Sound config start ((transactions config).dbAfter db tx next) := by
  have hmoves := step_moves config hstep
  obtain ⟨p, ws⟩ := tx
  cases hmoves with
  | commits r c delivery redeemedAt now =>
      obtain ⟨hknown, hreward, hlive, rfl⟩ : r.Known config c
        ∧ (∃ t, rewardOf config c t = some delivery) ∧ isReadEarnCampaignLive c redeemedAt = true
        ∧ ws = [.deliver (r.reward delivery), .createRedemption (r.row c redeemedAt),
          .notify (r.notification c)] := htx
      exact redeemed_sound config hdb hknown hreward hlive hC
  | _ => exact hdb

/-! ## Runs -/

/-- Nothing has been redeemed yet. -/
def opening (holdings : Holdings) : Db := ⟨holdings, [], [], []⟩

theorem opening_sound (holdings : Holdings) : Sound config holdings (opening holdings) where
  capped _ _ _ _ _ := Nat.zero_le _
  rewarded := rfl
  granted reward hmem := by cases hmem
  delivered := rfl
  live row hmem := by cases hmem

/-- **Redemptions.** In a run in which every redemption is created while its
campaign is live and commits while there is room. -/
theorem readEarn_limited {config : Config} {holdings : Holdings}
    {events : List (Event Request Answer)} {s : InFlight Db (Tx Write Point)}
    (htime : (transactions config).sys.Meets (Transactions.Guard InTime)
      (Transactions.idle (opening holdings)) events)
    (hrun : (transactions config).sys.run (Transactions.idle (opening holdings)) events
      = some s) : Limited config holdings s.db := by
  have hnone : ((redemptionKeys config).keys (opening holdings)).Nodup := List.nodup_nil
  have honce := ((redemptionKeys config).distinct_run hnone hrun).db
  have hsound : Sound config holdings s.db := by
    refine ((transactions config).invariant (I := Sound config holdings)
      (J := fun _ tx => Pending config tx) ?_ ?_ ?_
      ((transactions config).holds_idle (opening_sound config holdings)) htime hrun).db
    · intro db r p _ hstart
      obtain ⟨-, hp⟩ := Option.ite_none_left_eq_some.mp hstart
      obtain rfl := Option.some.inj hp
      exact rfl
    · intro db tx a next hdb htx hC hstep
      exact ⟨sound_step config hdb htx hC hstep,
        fun tx' htx' => pending_step config htx hC hstep htx'⟩
    · exact fun _ _ _ _ _ _ _ _ _ htx' _ => htx'
  exact ⟨hsound, honce⟩

/-- One campaign of 5 BLK, live from 0 to 100, with one redemption. -/
def oneRedemption : Config where
  campaigns := fun id => if id = 1 then
    some ⟨"T", "c", .blk, 5, none, 7, 0, 100, true, some 1⟩ else none
  miners := fun _ => none
  compare := fun code codeHash => code = codeHash

def nothing : Holdings := ⟨fun _ => some ⟨false, 0, 0⟩, [], []⟩

def asks (userId : ℕ) : Event Request Answer := .start ⟨userId, 1, "c", none, none, 10⟩

/-- One user after the other. -/
def redeemedInTurn : List (Event Request Answer) :=
  asks 1 :: (List.replicate 9 (.resume 1 (.ok 20))
    ++ (asks 2 :: List.replicate 4 (.resume 2 (.ok 30))))

theorem readEarn_limited_inTurn :
    ∃ s, (transactions oneRedemption).sys.run (Transactions.idle (opening nothing)) redeemedInTurn
        = some s
      ∧ s.db.keys = [(1, 1)] ∧ Limited oneRedemption nothing s.db := by
  have hrun : ((transactions oneRedemption).sys.run (Transactions.idle (opening nothing))
      redeemedInTurn).isSome := by decide +kernel
  exact ⟨_, (Option.some_get hrun).symm, by decide +kernel +revert,
    readEarn_limited (by decide +kernel) (Option.some_get hrun).symm⟩

/-- Two users who both count before either redemption is there. -/
def redeemedAtOnce : List (Event Request Answer) :=
  asks 1 :: asks 2 :: (List.replicate 4 (.resume 1 (.ok 20))
    ++ (List.replicate 4 (.resume 2 (.ok 20)) ++ (List.replicate 5 (.resume 1 (.ok 20))
    ++ List.replicate 5 (.resume 2 (.ok 20)))))

/-- Both get the last redemption. -/
theorem readEarn_exceeded :
    ∃ s, (transactions oneRedemption).sys.run (Transactions.idle (opening nothing)) redeemedAtOnce
        = some s
      ∧ s.db.keys = [(2, 1), (1, 1)]
      ∧ (s.db.holdings.users 1).map (·.blkBalance) = some 5
      ∧ (s.db.holdings.users 2).map (·.blkBalance) = some 5
      ∧ ¬ Limited oneRedemption nothing s.db := by
  have hrun : ((transactions oneRedemption).sys.run (Transactions.idle (opening nothing))
      redeemedAtOnce).isSome := by decide +kernel
  have hcount : (((transactions oneRedemption).sys.run (Transactions.idle (opening nothing))
      redeemedAtOnce).get hrun).db.count 1 = 2 := by decide +kernel +revert
  refine ⟨_, (Option.some_get hrun).symm, by decide +kernel +revert, by decide +kernel +revert,
    by decide +kernel +revert, fun h => ?_⟩
  have hcapped := h.capped 1 _ 1 rfl rfl
  rw [hcount] at hcapped
  omega

end BlockMiner.ReadEarn
