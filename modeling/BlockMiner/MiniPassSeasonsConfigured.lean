import BlockMiner.MiniPassSeasons
import BlockMiner.Run

/-!
# Which requests keep the seasons well configured

Every request but a change of a season keeps them so. A change does exactly if the
dates it leaves are in order and no reward of the season is above the `maxLevel` it
leaves.
-/

namespace BlockMiner.MiniPassSeasons

open MiniPass (computePassLevel xpCapForSeason)
open RewardDefinitions (Body Refusal valid refuseIf fitsInt valid_eq_ok refuseIf_eq_ok)

/-! ## What is claimed of the seasons -/

/-- The level is there, and some amount of XP within the cap reaches it. -/
def Reached (s : Season) (level : ℤ) : Prop :=
  1 ≤ level ∧ level ≤ s.maxLevel
    ∧ ∃ xp ≤ xpCapForSeason s.maxLevel.toNat s.xpPerLevel.toNat,
      (computePassLevel xp s.xpPerLevel.toNat s.maxLevel.toNat : ℤ) = level

structure WellConfigured (db : Db) : Prop where
  dates : ∀ i s, db.seasons.row i = some s → s.startsAt < s.endsAt
  bounds : ∀ i s, db.seasons.row i = some s → 1 ≤ s.maxLevel ∧ 1 ≤ s.xpPerLevel
  rewards : ∀ j r s, db.levelRewards.row j = some r → db.seasons.row r.seasonId = some s →
    s.deletedAt = none → Reached s r.level

/-- The XP of the thresholds below the level reach it. -/
theorem reached_of_le {s : Season} {level : ℤ} (hlow : 1 ≤ level) (hhigh : level ≤ s.maxLevel) :
    Reached s level := by
  refine ⟨hlow, hhigh, (level.toNat - 1) * max 1 s.xpPerLevel.toNat, ?_, ?_⟩
  · unfold xpCapForSeason
    exact Nat.mul_le_mul_right _ (by omega)
  · have hpos : 0 < max 1 s.xpPerLevel.toNat := by omega
    rw [computePassLevel, Nat.mul_div_cancel _ hpos]
    omega

/-- The foreign key of the rewards. -/
def Refers (db : Db) : Prop :=
  ∀ j r, db.levelRewards.row j = some r → ∃ s, db.seasons.row r.seasonId = some s

theorem wellConfigured_empty : WellConfigured .empty where
  dates i s h := by cases h
  bounds i s h := by cases h
  rewards j r s h := by cases h

theorem refers_empty : Refers .empty := by
  intro j r h
  cases h

/-! ## What was read -/

section Read

variable {env : Env} {db db' : Db}

theorem clampFromOne_bounds {limit n : ℤ} {value : Body}
    (h : clampFromOne env limit value = .ok n) : 1 ≤ n := by
  obtain ⟨text, -, h⟩ := bind_eq_ok h
  obtain rfl := Except.ok.inj h
  exact le_max_left _ _

theorem given_eq_ok {α : Type} {read : Body → Except Refusal α} {value : Body} {a : Option α}
    (h : given read value = .ok a) : ∀ x ∈ a, read value = .ok x := by
  cases value with
  | none =>
      obtain rfl := Except.ok.inj h
      intro x hx
      cases hx
  | some v =>
      obtain ⟨y, hy, h⟩ := bind_eq_ok h
      obtain rfl := Except.ok.inj h
      intro x hx
      obtain rfl := Option.some.inj hx
      exact hy

theorem liveSeason_eq_some {id : ℤ} {i : ℕ} {s : Season} (h : liveSeason db id = some (i, s)) :
    db.seasons.row i = some s ∧ s.deletedAt = none := by
  unfold liveSeason at h
  split at h
  case isTrue => cases h
  case isFalse =>
    obtain ⟨s₀, hs₀, h⟩ := Option.map_eq_some_iff.mp h
    obtain ⟨rfl, rfl⟩ := Prod.mk.inj h
    obtain ⟨hrow, hlive⟩ := Option.filter_eq_some_iff.mp hs₀
    exact ⟨hrow, by simpa using hlive⟩

theorem stored_eq_ok {t t' : ℤ} (h : stored env (some t) = .ok t') : t' = t := by
  unfold stored at h
  cases hs : (some t).filter env.timestamp with
  | none =>
      rw [hs] at h
      cases h
  | some u =>
      rw [hs] at h
      obtain rfl := Except.ok.inj h
      exact Option.some.inj (Option.filter_eq_some_iff.mp hs).1.symm

/-! ## What each request does -/

theorem create_cases {body : Body} (h : adminCreateMiniPassSeason env db body = .ok db') :
    ∃ s : Season, s.startsAt < s.endsAt ∧ 1 ≤ s.maxLevel ∧ 1 ≤ s.xpPerLevel
      ∧ db' = { db with seasons := db.seasons.insert s } := by
  obtain ⟨_, -, h⟩ := bind_eq_ok h
  obtain ⟨slug, -, h⟩ := bind_eq_ok h
  obtain ⟨title, -, h⟩ := bind_eq_ok h
  obtain ⟨maxLevel, hmax, h⟩ := bind_eq_ok h
  obtain ⟨xpPerLevel, hxp, h⟩ := bind_eq_ok h
  obtain ⟨_, -, h⟩ := bind_eq_ok h
  obtain ⟨_, -, h⟩ := bind_eq_ok h
  obtain ⟨startsAt, -, h⟩ := bind_eq_ok h
  obtain ⟨endsAt, -, h⟩ := bind_eq_ok h
  obtain ⟨_, hdates, h⟩ := bind_eq_ok h
  obtain ⟨buy, -, h⟩ := bind_eq_ok h
  obtain ⟨complete, -, h⟩ := bind_eq_ok h
  obtain ⟨startsAt', hstart, h⟩ := bind_eq_ok h
  obtain ⟨endsAt', hend, h⟩ := bind_eq_ok h
  split at h
  case isTrue => cases h
  case isFalse =>
    obtain ⟨_, -, h⟩ := bind_eq_ok h
    obtain rfl := Except.ok.inj h
    obtain rfl := stored_eq_ok hstart
    obtain rfl := stored_eq_ok hend
    have hlt := of_decide_eq_false (refuseIf_eq_ok.mp hdates)
    exact ⟨_, not_le.mp hlt, clampFromOne_bounds hmax, clampFromOne_bounds hxp, rfl⟩

/-- The change that a request makes of a season. -/
structure Changing (env : Env) (db : Db) (id : String) (body : Body) (i : ℕ) (s : Season)
    (data : Changes) : Prop where
  read : readChanges env body = .ok data
  season : ∃ n, idParam id "Invalid id." = .ok n ∧ fitsInt n = true
    ∧ liveSeason db n = some (i, s)
  free : slugTaken db (some i) (data.apply s).slug = false
  taken : env.otherColumns body = true

theorem update_cases {id : String} {body : Body}
    (h : adminUpdateMiniPassSeason env db id body = .ok db') :
    ∃ i s data, Changing env db id body i s data
      ∧ db' = { db with seasons := db.seasons.modify i data.apply } := by
  obtain ⟨n, hid, h⟩ := bind_eq_ok h
  obtain ⟨data, hdata, h⟩ := bind_eq_ok h
  split at h
  case isTrue => cases h
  case isFalse hfits =>
    obtain ⟨⟨i, s⟩, hlive, h⟩ := bind_eq_ok h
    obtain ⟨_, hfree, h⟩ := bind_eq_ok h
    obtain rfl := Except.ok.inj h
    simp only [Bool.or_eq_true, Bool.not_eq_true', not_or, Bool.not_eq_false] at hfits
    exact ⟨i, s, data, ⟨hdata, ⟨n, hid, hfits.1, valid_eq_ok.mp hlive⟩,
      refuseIf_eq_ok.mp hfree, hfits.2⟩, rfl⟩

theorem Changing.update {id : String} {body : Body} {i : ℕ} {s : Season} {data : Changes}
    (h : Changing env db id body i s data) :
    adminUpdateMiniPassSeason env db id body
      = .ok { db with seasons := db.seasons.modify i data.apply } := by
  obtain ⟨n, hid, hfits, hlive⟩ := h.season
  have hok : ¬(!fitsInt n || !env.otherColumns body) = true := by simp [hfits, h.taken]
  show (idParam id "Invalid id.").bind _ = _
  rw [hid]
  show (readChanges env body).bind _ = _
  rw [h.read]
  show (if _ then _ else _) = _
  rw [if_neg hok]
  show (valid (liveSeason db n) _).bind _ = _
  rw [valid_eq_ok.mpr hlive]
  show (refuseIf (slugTaken db (some i) (data.apply s).slug) _).bind _ = _
  rw [h.free]
  rfl

/-- A change leaves `maxLevel` and `xpPerLevel` at 1 or more. -/
theorem readChanges_bounds {body : Body} {data : Changes} (h : readChanges env body = .ok data) :
    (∀ n ∈ data.maxLevel, 1 ≤ n) ∧ ∀ n ∈ data.xpPerLevel, 1 ≤ n := by
  obtain ⟨slug, -, h⟩ := bind_eq_ok h
  obtain ⟨title, -, h⟩ := bind_eq_ok h
  obtain ⟨startsAt, -, h⟩ := bind_eq_ok h
  obtain ⟨endsAt, -, h⟩ := bind_eq_ok h
  obtain ⟨maxLevel, hmax, h⟩ := bind_eq_ok h
  obtain ⟨xpPerLevel, hxp, h⟩ := bind_eq_ok h
  obtain ⟨buy, -, h⟩ := bind_eq_ok h
  obtain ⟨complete, -, h⟩ := bind_eq_ok h
  obtain rfl := Except.ok.inj h
  exact ⟨fun n hn => clampFromOne_bounds (given_eq_ok hmax n hn),
    fun n hn => clampFromOne_bounds (given_eq_ok hxp n hn)⟩

theorem softDelete_cases {id : String} {now : ℤ}
    (h : adminSoftDeleteMiniPassSeason db id now = .ok db') :
    db' = db ∨ ∃ i, db' = { db with
      seasons := db.seasons.modify i fun s => { s with deletedAt := some now } } := by
  obtain ⟨n, -, h⟩ := bind_eq_ok h
  split at h
  case isTrue => cases h
  case isFalse =>
    split at h
    · exact Or.inl (Except.ok.inj h).symm
    · exact Or.inr ⟨_, (Except.ok.inj h).symm⟩

/-- A reward is stored for a season that is not deleted, within its levels. -/
theorem upsert_cases {seasonId : String} {rewardId : Option String} {body : Body}
    (h : adminUpsertLevelReward env db seasonId rewardId body = .ok db') :
    ∃ (r : LevelReward) (s : Season), db.seasons.row r.seasonId = some s ∧ 1 ≤ r.level
      ∧ r.level ≤ s.maxLevel
      ∧ (db' = { db with levelRewards := db.levelRewards.insert r }
        ∨ ∃ j, db' = { db with levelRewards := db.levelRewards.modify j fun _ => r }) := by
  obtain ⟨id, -, h⟩ := bind_eq_ok h
  obtain ⟨n, -, h⟩ := bind_eq_ok h
  split at h
  case isTrue => cases h
  case isFalse =>
    obtain ⟨⟨sid, season⟩, hlive, h⟩ := bind_eq_ok h
    obtain ⟨level, hlevel, h⟩ := bind_eq_ok h
    obtain ⟨_, hmax, h⟩ := bind_eq_ok h
    obtain ⟨declared, -, h⟩ := bind_eq_ok h
    obtain ⟨reward, -, h⟩ := bind_eq_ok h
    have hrow := (liveSeason_eq_some (valid_eq_ok.mp hlive)).1
    have hlow := clampFromOne_bounds hlevel
    have hhigh := not_lt.mp (of_decide_eq_false (refuseIf_eq_ok.mp hmax))
    refine ⟨⟨sid, level, reward⟩, season, hrow, hlow, hhigh, ?_⟩
    split at h
    case isTrue => cases h
    case isFalse =>
      cases id with
      | none =>
          obtain ⟨_, -, h⟩ := bind_eq_ok h
          exact Or.inl (Except.ok.inj h).symm
      | some id =>
          dsimp only at h
          split at h
          case isTrue => cases h
          case isFalse =>
            obtain ⟨_, -, h⟩ := bind_eq_ok h
            obtain ⟨_, -, h⟩ := bind_eq_ok h
            exact Or.inr ⟨id.toNat, (Except.ok.inj h).symm⟩

theorem deleteReward_cases {seasonId rewardId : String}
    (h : adminDeleteLevelReward db seasonId rewardId = .ok db') :
    db' = db ∨ ∃ j, db' = { db with levelRewards := db.levelRewards.delete j } := by
  unfold adminDeleteLevelReward at h
  split at h
  · split at h
    · cases h
    · split at h
      · exact Or.inr ⟨_, (Except.ok.inj h).symm⟩
      · exact Or.inl (Except.ok.inj h).symm
  · cases h

end Read

/-! ## What keeps the seasons well configured -/

/-- A change of a season leaves its dates in order and no reward above its levels. -/
def InRange (env : Env) (db : Db) : Request → Prop
  | .update id body => ∀ i s data, Changing env db id body i s data →
      (data.apply s).startsAt < (data.apply s).endsAt
        ∧ ∀ j r, db.levelRewards.row j = some r → r.seasonId = i →
          r.level ≤ (data.apply s).maxLevel
  | _ => True

section Keep

variable {env : Env} {db db' : Db}

theorem WellConfigured.create (h : WellConfigured db) (hrefers : Refers db) {s : Season}
    (hdates : s.startsAt < s.endsAt) (hmax : 1 ≤ s.maxLevel) (hxp : 1 ≤ s.xpPerLevel) :
    WellConfigured { db with seasons := db.seasons.insert s } where
  dates i s' hs' := by
    rcases Table.insert_row_eq_some.mp hs' with ⟨-, rfl⟩ | hold
    · exact hdates
    · exact h.dates i s' hold
  bounds i s' hs' := by
    rcases Table.insert_row_eq_some.mp hs' with ⟨-, rfl⟩ | hold
    · exact ⟨hmax, hxp⟩
    · exact h.bounds i s' hold
  rewards j r s' hr hs' hlive := by
    obtain ⟨s₀, hs₀⟩ := hrefers j r hr
    have hkept := Table.insert_row_of_some hs₀ s
    obtain rfl := Option.some.inj (hkept.symm.trans hs')
    exact h.rewards j r s₀ hr hs₀ hlive

/-- A deleted season has its dates and bounds still. -/
theorem WellConfigured.softDelete (h : WellConfigured db) (i : ℕ) (now : ℤ) :
    WellConfigured { db with
      seasons := db.seasons.modify i fun s => { s with deletedAt := some now } } where
  dates j s' hs' := by
    rcases Table.modify_row_eq_some.mp hs' with ⟨-, s, hs, rfl⟩ | ⟨-, hold⟩
    · exact h.dates j s hs
    · exact h.dates j s' hold
  bounds j s' hs' := by
    rcases Table.modify_row_eq_some.mp hs' with ⟨-, s, hs, rfl⟩ | ⟨-, hold⟩
    · exact h.bounds j s hs
    · exact h.bounds j s' hold
  rewards j r s' hr hs' hlive := by
    rcases Table.modify_row_eq_some.mp hs' with ⟨-, s, hs, rfl⟩ | ⟨-, hold⟩
    · cases hlive
    · exact h.rewards j r s' hr hold hlive

theorem WellConfigured.rewards_of (h : WellConfigured db) {t : Table LevelReward}
    (ht : ∀ j r, t.row j = some r → db.levelRewards.row j = some r
      ∨ ∃ s, db.seasons.row r.seasonId = some s ∧ 1 ≤ r.level ∧ r.level ≤ s.maxLevel) :
    WellConfigured { db with levelRewards := t } where
  dates := h.dates
  bounds := h.bounds
  rewards j r s hr hs hlive := by
    rcases ht j r hr with hold | ⟨s', hs', hlow, hhigh⟩
    · exact h.rewards j r s hold hs hlive
    · obtain rfl := Option.some.inj (hs'.symm.trans hs)
      exact reached_of_le hlow hhigh

theorem WellConfigured.update_iff (h : WellConfigured db) {id : String} {body : Body} {i : ℕ}
    {s : Season} {data : Changes} (hchange : Changing env db id body i s data) :
    WellConfigured { db with seasons := db.seasons.modify i data.apply } ↔
      (data.apply s).startsAt < (data.apply s).endsAt
        ∧ ∀ j r, db.levelRewards.row j = some r → r.seasonId = i →
          r.level ≤ (data.apply s).maxLevel := by
  obtain ⟨n, -, -, hfound⟩ := hchange.season
  obtain ⟨hs, hlive⟩ := liveSeason_eq_some hfound
  have hnew : (db.seasons.modify i data.apply).row i = some (data.apply s) := by
    rw [Table.modify_row, if_pos rfl, hs, Option.map_some]
  constructor
  · intro h'
    refine ⟨h'.dates i _ hnew, ?_⟩
    rintro j r hr rfl
    exact (h'.rewards j r _ hr hnew hlive).2.1
  · rintro ⟨hdates, hlevels⟩
    obtain ⟨hmax, hxp⟩ := readChanges_bounds hchange.read
    have hbounds : 1 ≤ (data.apply s).maxLevel ∧ 1 ≤ (data.apply s).xpPerLevel := by
      constructor
      · show 1 ≤ data.maxLevel.getD s.maxLevel
        cases hd : data.maxLevel with
        | none => exact (h.bounds i s hs).1
        | some n => exact hmax n hd
      · show 1 ≤ data.xpPerLevel.getD s.xpPerLevel
        cases hd : data.xpPerLevel with
        | none => exact (h.bounds i s hs).2
        | some n => exact hxp n hd
    refine ⟨fun j s' hs' => ?_, fun j s' hs' => ?_, fun j r s' hr hs' hl => ?_⟩
    · rcases Table.modify_row_eq_some.mp hs' with ⟨rfl, s₀, hs₀, rfl⟩ | ⟨-, hold⟩
      · obtain rfl := Option.some.inj (hs.symm.trans hs₀)
        exact hdates
      · exact h.dates j s' hold
    · rcases Table.modify_row_eq_some.mp hs' with ⟨rfl, s₀, hs₀, rfl⟩ | ⟨-, hold⟩
      · obtain rfl := Option.some.inj (hs.symm.trans hs₀)
        exact hbounds
      · exact h.bounds j s' hold
    · rcases Table.modify_row_eq_some.mp hs' with ⟨hi, s₀, hs₀, rfl⟩ | ⟨-, hold⟩
      · have hs₁ : db.seasons.row r.seasonId = some s := hi ▸ hs
        obtain rfl := Option.some.inj (hs₁.symm.trans hs₀)
        exact reached_of_le (h.rewards j r s hr hs₁ hlive).1 (hlevels j r hr hi)
      · exact h.rewards j r s' hr hold hl

/-- Seasons are not removed, and a reward is stored for one that there is. -/
theorem Refers.handle (h : Refers db) {request : Request}
    (hok : handle env db request = .ok db') : Refers db' := by
  cases request with
  | create body =>
      obtain ⟨s, -, -, -, rfl⟩ := create_cases hok
      intro j r hr
      obtain ⟨s₀, hs₀⟩ := h j r hr
      exact ⟨s₀, Table.insert_row_of_some hs₀ s⟩
  | update id body =>
      obtain ⟨i, s, data, -, rfl⟩ := update_cases hok
      intro j r hr
      obtain ⟨s₀, hs₀⟩ := h j r hr
      show ∃ s', (db.seasons.modify i data.apply).row r.seasonId = some s'
      rw [Table.modify_row, hs₀]
      split
      · exact ⟨_, rfl⟩
      · exact ⟨_, rfl⟩
  | softDelete id now =>
      rcases softDelete_cases hok with rfl | ⟨i, rfl⟩
      · exact h
      · intro j r hr
        obtain ⟨s₀, hs₀⟩ := h j r hr
        show ∃ s', (db.seasons.modify i _).row r.seasonId = some s'
        rw [Table.modify_row, hs₀]
        split
        · exact ⟨_, rfl⟩
        · exact ⟨_, rfl⟩
  | upsertReward seasonId rewardId body =>
      obtain ⟨r₀, s, hs, -, -, rfl | ⟨j₀, rfl⟩⟩ := upsert_cases hok
      · intro j r hr
        rcases Table.insert_row_eq_some.mp hr with ⟨-, rfl⟩ | hold
        · exact ⟨s, hs⟩
        · exact h j r hold
      · intro j r hr
        rcases Table.modify_row_eq_some.mp hr with ⟨-, _, -, rfl⟩ | ⟨-, hold⟩
        · exact ⟨s, hs⟩
        · exact h j r hold
  | deleteReward seasonId rewardId =>
      rcases deleteReward_cases hok with rfl | ⟨j₀, rfl⟩
      · exact h
      · intro j r hr
        exact h j r (Table.delete_row_eq_some.mp hr).2

theorem WellConfigured.handle_iff (h : WellConfigured db) (hrefers : Refers db)
    (request : Request) :
    (∀ db', handle env db request = .ok db' → WellConfigured db') ↔ InRange env db request := by
  cases request with
  | create body =>
      refine iff_of_true (fun db' hok => ?_) trivial
      obtain ⟨s, hdates, hmax, hxp, rfl⟩ := create_cases hok
      exact h.create hrefers hdates hmax hxp
  | update id body =>
      constructor
      · intro hkeeps i s data hchange
        exact (h.update_iff hchange).mp (hkeeps _ hchange.update)
      · intro hrange db' hok
        obtain ⟨i, s, data, hchange, rfl⟩ := update_cases hok
        exact (h.update_iff hchange).mpr (hrange i s data hchange)
  | softDelete id now =>
      refine iff_of_true (fun db' hok => ?_) trivial
      rcases softDelete_cases hok with rfl | ⟨i, rfl⟩
      · exact h
      · exact h.softDelete i now
  | upsertReward seasonId rewardId body =>
      refine iff_of_true (fun db' hok => ?_) trivial
      obtain ⟨r₀, s, hs, hlow, hhigh, rfl | ⟨j₀, rfl⟩⟩ := upsert_cases hok
      · refine h.rewards_of fun j r hr => ?_
        rcases Table.insert_row_eq_some.mp hr with ⟨-, rfl⟩ | hold
        · exact Or.inr ⟨s, hs, hlow, hhigh⟩
        · exact Or.inl hold
      · refine h.rewards_of fun j r hr => ?_
        rcases Table.modify_row_eq_some.mp hr with ⟨-, _, -, rfl⟩ | ⟨-, hold⟩
        · exact Or.inr ⟨s, hs, hlow, hhigh⟩
        · exact Or.inl hold
  | deleteReward seasonId rewardId =>
      refine iff_of_true (fun db' hok => ?_) trivial
      rcases deleteReward_cases hok with rfl | ⟨j₀, rfl⟩
      · exact h
      · exact h.rewards_of fun j r hr => Or.inl (Table.delete_row_eq_some.mp hr).2

end Keep

/-! ## Whole runs -/

/-- The seasons are well configured after the request, too. -/
def KeepsConfigured (env : Env) (db : Db) (request : Request) : Prop :=
  ∀ db', (system env).step db request = some db' → WellConfigured db'

theorem step_eq {env : Env} {db db' : Db} {request : Request}
    (h : (system env).step db request = some db') :
    db' = db ∨ handle env db request = .ok db' := by
  obtain rfl := Option.some.inj h
  cases hok : handle env db request with
  | error e => exact Or.inl rfl
  | ok t => exact Or.inr rfl

theorem keepsConfigured_iff {env : Env} {db : Db} (h : WellConfigured db) (hrefers : Refers db)
    (request : Request) : KeepsConfigured env db request ↔ InRange env db request := by
  rw [← h.handle_iff hrefers request]
  constructor
  · intro hkeeps db' hok
    exact hkeeps db' (by simp [system, hok, Except.toOption])
  · intro hkeeps db' hstep
    rcases step_eq hstep with rfl | hok
    · exact h
    · exact hkeeps db' hok

/-- All along a run the seasons are well configured exactly if every change of a season
leaves its dates in order and its rewards within its levels. -/
theorem stays_configured_iff (env : Env) (requests : List Request) :
    (system env).Meets (KeepsConfigured env) .empty requests
      ↔ (system env).Meets (InRange env) .empty requests := by
  refine (system env).meets_iff_of_kept (I := fun db => WellConfigured db ∧ Refers db)
    (fun db request db' hI hkeeps hstep => ?_)
    (fun db request hI => keepsConfigured_iff hI.1 hI.2 request)
    ⟨wellConfigured_empty, refers_empty⟩
  refine ⟨hkeeps db' hstep, ?_⟩
  rcases step_eq hstep with rfl | hok
  · exact hI.2
  · exact hI.2.handle hok

def testEnv : Env where
  numberText := fun _ => ""
  double := id
  decimal := fun _ => some (.finite 0)
  iframeUrl := .ok
  normalizeTaskMetadata := fun _ metadata => .ok metadata
  miner := fun _ => none
  eventMiner := fun _ => none
  parseDate := fun _ => none
  timestamp := fun _ => true
  otherColumns := fun _ => true

/-- A season of ten levels that begins at 1000 and ends at 2000. -/
def tenLevels : Json JsNumber :=
  .object [("slug", .string "spring"), ("titleI18n", .object [("en", .string "Spring")]),
    ("maxLevel", .string "10"), ("xpPerLevel", .string "100"),
    ("startsAt", .number (.finite 1000)), ("endsAt", .number (.finite 2000))]

/-- Its end is set before its start, and its levels below one that has a reward. -/
theorem changed_out_of_range :
    ∃ db, (system testEnv).run .empty
        [.create (some tenLevels),
          .upsertReward "1" none (some (.object [("level", .string "10")])),
          .update "1" (some (.object [("endsAt", .number (.finite 500)),
            ("maxLevel", .string "5")]))] = some db
      ∧ ¬WellConfigured db := by
  have hrun : ((system testEnv).run .empty
      [.create (some tenLevels),
        .upsertReward "1" none (some (.object [("level", .string "10")])),
        .update "1" (some (.object [("endsAt", .number (.finite 500)),
          ("maxLevel", .string "5")]))]).any (fun db =>
        (db.seasons.row 1).any fun s => s.startsAt = 1000 && s.endsAt = 500) = true := by
    decide +kernel
  obtain ⟨db, hdb, hrow⟩ := (Option.any_eq_true ..).mp hrun
  refine ⟨db, hdb, fun h => ?_⟩
  obtain ⟨s, hs, hdates⟩ := (Option.any_eq_true ..).mp hrow
  have hlt := h.dates 1 s hs
  simp only [Bool.and_eq_true, decide_eq_true_eq] at hdates
  omega

end BlockMiner.MiniPassSeasons
