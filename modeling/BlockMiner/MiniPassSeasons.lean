import BlockMiner.MiniPass
import BlockMiner.RewardDefinitions

/-!
# The administration of Mini Pass seasons

`adminMiniPassController.js`: seasons and their level rewards are created, changed and
deleted one request at a time, with the body as it was parsed from JSON. A new season
has its dates compared, and a reward its level with the season's `maxLevel`. A change
of a season compares neither.

A request that the database refuses answers with an error and leaves nothing behind.
The texts that `Date.parse` reads and the instants that a timestamp column takes are
parameters, and so is whether the columns that are left out (`subtitleI18n`,
`bannerImageUrl`, `isActive`, of rewards `titleI18n` and `sortOrder`) are taken.
-/

namespace BlockMiner.MiniPassSeasons

open RewardDefinitions (Body Refusal Decimal20_8 Reward refuse valid refuseIf stringOf stringOrElse
  isFalsy trimmed fitsInt toDecimal20_8 levelReward)

structure Env extends RewardDefinitions.Env where
  parseDate : String → Option ℤ
  timestamp : ℤ → Bool
  otherColumns : Body → Bool

/-- `titleI18n` -/
structure Title where
  en : String
  ptBR : String
  es : String
deriving DecidableEq

structure Season where
  slug : String
  titleI18n : Title
  startsAt : ℤ
  endsAt : ℤ
  maxLevel : ℤ
  xpPerLevel : ℤ
  buyLevelPricePol : Decimal20_8
  completePassPricePol : Decimal20_8
  deletedAt : Option ℤ
deriving DecidableEq

structure LevelReward where
  seasonId : ℕ
  level : ℤ
  reward : Reward Decimal20_8
deriving DecidableEq

structure Db where
  seasons : Table Season
  levelRewards : Table LevelReward

def Db.empty : Db := ⟨.empty, .empty⟩

/-! ## Reading a body -/

section Values

variable (env : Env)

def isSlugChar (c : Char) : Bool := RewardDefinitions.isLowerAlnum c || c = '-'

/-- `/^[a-z0-9][a-z0-9-]{1,62}$/` -/
def slugRe (s : String) : Bool :=
  match s.toList with
  | [] => false
  | c :: cs =>
      RewardDefinitions.isLowerAlnum c && 1 ≤ cs.length && cs.length ≤ 62 && cs.all isSlugChar

def parseSlug (s : Body) : Except Refusal (Option String) := do
  let v := toLowerCase (trim (← stringOrElse env.toEnv s ""))
  return if slugRe v then some v else none

def normalizeTitleI18nForMiniPass (obj : Body) : Option Title :=
  let part := fun key => trimmed (obj.bind (Json.get key))
  let primary := [part "en", part "ptBR", part "es"].find? (· ≠ "")
  primary.map fun primary =>
    let filled := fun text => if text = "" then primary else text
    ⟨filled (part "en"), filled (part "ptBR"), filled (part "es")⟩

/-- `Math.max(1, Math.min(limit, parseInt(value, 10) || 1))` -/
def clampFromOne (limit : ℤ) (value : Body) : Except Refusal ℤ := do
  let n := ((parseInt (← stringOf env.toEnv value)).filter (· ≠ 0)).getD 1
  return max 1 (min limit n)

/-- The milliseconds of a number, if a `Date` has them. -/
def timeClip : JsNumber → Option ℤ
  | .finite q =>
      if |q| ≤ 864 * 10 ^ 13 then some (if q < 0 then -⌊-q⌋ else ⌊q⌋) else none
  | _ => none

/-- `new Date(value)`; `none` is an invalid date. -/
def newDate (value : Body) : Except Refusal (Option ℤ) :=
  match value with
  | none => .ok none
  | some .null => .ok (some 0)
  | some (.bool b) => .ok (some (if b then 1 else 0))
  | some (.number n) => .ok (timeClip n)
  | some value => do return env.parseDate (← stringOf env.toEnv (some value))

/-- `value ? new Date(value) : null` -/
def dateOrNull (value : Body) : Except Refusal (Option ℤ) :=
  if isFalsy value then .ok none else newDate env value

/-- What a timestamp column takes. -/
def stored (date : Option ℤ) : Except Refusal ℤ :=
  (date.filter env.timestamp).elim (.error .threw) .ok

/-- A text as a column of prices takes it. -/
def price (text : String) : Except Refusal Decimal20_8 :=
  ((env.decimal text).bind toDecimal20_8).elim (.error .threw) .ok

/-- `String(value ?? "0")` -/
def orZero : Body → Body
  | none | some .null => some (.string "0")
  | value => value

def priceOf (value : Body) : Except Refusal Decimal20_8 := do price env (← stringOf env.toEnv value)

/-- A field that is left alone when it is `undefined`. -/
def given {α : Type} (read : Body → Except Refusal α) : Body → Except Refusal (Option α)
  | none => .ok none
  | value => do return some (← read value)

/-- `parseInt(text, 10)`, where neither `NaN` nor 0 will do. -/
def idParam (text : String) (message : String) : Except Refusal ℤ :=
  valid ((parseInt text).filter (· ≠ 0)) message

end Values

/-! ## Seasons -/

section Seasons

variable (env : Env) (db : Db)

/-- Another season has the slug. -/
def slugTaken (self : Option ℕ) (slug : String) : Bool :=
  (db.seasons.findFirst fun i s => some i ≠ self && s.slug = slug).isSome

def adminCreateMiniPassSeason (body : Body) : Except Refusal Db := do
  let b := fun key => body.bind (Json.get key)
  let slug ← valid (← parseSlug env (b "slug")) "Invalid slug."
  let titleI18n ← valid (normalizeTitleI18nForMiniPass (b "titleI18n"))
    "Title required in at least one language (en, pt-BR, or es)."
  let maxLevel ← clampFromOne env 500 (b "maxLevel")
  let xpPerLevel ← clampFromOne env 1000000 (b "xpPerLevel")
  let startsAt ← dateOrNull env (b "startsAt")
  let endsAt ← dateOrNull env (b "endsAt")
  let startsAt ← valid startsAt "Invalid dates."
  let endsAt ← valid endsAt "Invalid dates."
  refuseIf (endsAt ≤ startsAt) "endsAt must be after startsAt."
  let buyLevelPricePol ← priceOf env (orZero (b "buyLevelPricePol"))
  let completePassPricePol ← priceOf env (orZero (b "completePassPricePol"))
  let startsAt ← stored env (some startsAt)
  let endsAt ← stored env (some endsAt)
  if !env.otherColumns body then .error .threw
  else do
    refuseIf (slugTaken db none slug) "Slug already exists."
    return { db with
      seasons := db.seasons.insert
        { slug, titleI18n, startsAt, endsAt, maxLevel, xpPerLevel, buyLevelPricePol
          completePassPricePol, deletedAt := none } }

/-- The `data` of an update. -/
structure Changes where
  slug : Option String
  titleI18n : Option Title
  startsAt : Option ℤ
  endsAt : Option ℤ
  maxLevel : Option ℤ
  xpPerLevel : Option ℤ
  buyLevelPricePol : Option Decimal20_8
  completePassPricePol : Option Decimal20_8

def Changes.apply (data : Changes) (s : Season) : Season where
  slug := data.slug.getD s.slug
  titleI18n := data.titleI18n.getD s.titleI18n
  startsAt := data.startsAt.getD s.startsAt
  endsAt := data.endsAt.getD s.endsAt
  maxLevel := data.maxLevel.getD s.maxLevel
  xpPerLevel := data.xpPerLevel.getD s.xpPerLevel
  buyLevelPricePol := data.buyLevelPricePol.getD s.buyLevelPricePol
  completePassPricePol := data.completePassPricePol.getD s.completePassPricePol
  deletedAt := s.deletedAt

def readChanges (body : Body) : Except Refusal Changes := do
  let b := fun key => body.bind (Json.get key)
  let slug ← given (fun v => do valid (← parseSlug env v) "Invalid slug.") (b "slug")
  let titleI18n ← given
    (fun v => valid (normalizeTitleI18nForMiniPass v)
      "Title required in at least one language (en, pt-BR, or es).")
    (b "titleI18n")
  let startsAt ← given (fun v => do stored env (← newDate env v)) (b "startsAt")
  let endsAt ← given (fun v => do stored env (← newDate env v)) (b "endsAt")
  let maxLevel ← given (clampFromOne env 500) (b "maxLevel")
  let xpPerLevel ← given (clampFromOne env 1000000) (b "xpPerLevel")
  let buyLevelPricePol ← given (priceOf env) (b "buyLevelPricePol")
  let completePassPricePol ← given (priceOf env) (b "completePassPricePol")
  return { slug, titleI18n, startsAt, endsAt, maxLevel, xpPerLevel, buyLevelPricePol
           completePassPricePol }

/-- The row of a season that is not deleted. -/
def liveSeason (id : ℤ) : Option (ℕ × Season) :=
  if id < 0 then none
  else ((db.seasons.row id.toNat).filter (·.deletedAt.isNone)).map fun s => (id.toNat, s)

def adminUpdateMiniPassSeason (id : String) (body : Body) : Except Refusal Db := do
  let id ← idParam id "Invalid id."
  let data ← readChanges env body
  if !fitsInt id || !env.otherColumns body then .error .threw
  else do
    let (i, s) ← valid (liveSeason db id) "Not found."
    refuseIf (slugTaken db (some i) (data.apply s).slug) "Slug already exists."
    return { db with seasons := db.seasons.modify i data.apply }

def adminSoftDeleteMiniPassSeason (id : String) (now : ℤ) : Except Refusal Db := do
  let id ← idParam id "Invalid id."
  if !fitsInt id then .error .threw
  else
    match liveSeason db id with
    | none => .ok db
    | some (i, _) =>
        .ok { db with seasons := db.seasons.modify i fun s => { s with deletedAt := some now } }

end Seasons

/-! ## Level rewards -/

section Rewards

variable (env : Env) (db : Db)

/-- `none` for a new reward. -/
def rewardIdOf : Option String → Except Refusal (Option ℤ)
  | none | some "" => .ok none
  | some text => do
      return some (← valid ((parseInt text).filter (1 ≤ ·)) "Invalid reward id.")

/-- Another reward of the season has the level. -/
def levelTaken (self : Option ℕ) (seasonId : ℕ) (level : ℤ) : Bool :=
  (db.levelRewards.findFirst fun i r =>
    some i ≠ self && r.seasonId = seasonId && r.level = level).isSome

/-- The columns of a reward, if its machine exists. -/
def storedReward (reward : Reward JsNumber) : Except Refusal (Reward Decimal20_8) :=
  let known := reward.minerId.all (fun id => (env.miner id).isSome)
    && reward.eventMinerId.all fun id => (env.eventMiner id).isSome
  if known then reward.store.elim (.error .threw) .ok else .error .threw

def adminUpsertLevelReward (seasonId : String) (rewardId : Option String) (body : Body) :
    Except Refusal Db := do
  let id ← rewardIdOf rewardId
  let seasonId ← idParam seasonId "Invalid season."
  if !fitsInt seasonId then .error .threw
  else do
    let (sid, season) ← valid (liveSeason db seasonId) "Season not found."
    let level ← clampFromOne env 500 (body.bind (Json.get "level"))
    refuseIf (season.maxLevel < level) "level exceeds season maxLevel."
    let reward ← storedReward env (← levelReward env.toEnv body)
    if !env.otherColumns body then .error .threw
    else
      match id with
      | some id =>
          if !fitsInt id then .error .threw
          else do
            let _ ← valid ((db.levelRewards.row id.toNat).filter (·.seasonId = sid))
              "Reward not found."
            refuseIf (levelTaken db (some id.toNat) sid level)
              "Level reward already exists for this level."
            return { db with
              levelRewards := db.levelRewards.modify id.toNat fun _ => ⟨sid, level, reward⟩ }
      | none => do
          refuseIf (levelTaken db none sid level) "Level reward already exists for this level."
          return { db with levelRewards := db.levelRewards.insert ⟨sid, level, reward⟩ }

/-- Neither id may be `NaN`, which the database does not take. -/
def adminDeleteLevelReward (seasonId rewardId : String) : Except Refusal Db :=
  match parseInt seasonId, parseInt rewardId with
  | some seasonId, some id =>
      if !fitsInt seasonId || !fitsInt id then .error .threw
      else if 0 ≤ id
          ∧ (db.levelRewards.row id.toNat).any (fun r => (r.seasonId : ℤ) = seasonId) then
        .ok { db with levelRewards := db.levelRewards.delete id.toNat }
      else .ok db
  | _, _ => .error .threw

end Rewards

/-! ## The system -/

inductive Request where
  | create (body : Body)
  | update (id : String) (body : Body)
  | softDelete (id : String) (now : ℤ)
  | upsertReward (seasonId : String) (rewardId : Option String) (body : Body)
  | deleteReward (seasonId rewardId : String)

def handle (env : Env) (db : Db) : Request → Except Refusal Db
  | .create body => adminCreateMiniPassSeason env db body
  | .update id body => adminUpdateMiniPassSeason env db id body
  | .softDelete id now => adminSoftDeleteMiniPassSeason db id now
  | .upsertReward seasonId rewardId body => adminUpsertLevelReward env db seasonId rewardId body
  | .deleteReward seasonId rewardId => adminDeleteLevelReward db seasonId rewardId

/-- A request that is refused leaves the state. -/
def system (env : Env) : System Db Request :=
  ⟨fun db request => some ((handle env db request).toOption.getD db)⟩

end BlockMiner.MiniPassSeasons
