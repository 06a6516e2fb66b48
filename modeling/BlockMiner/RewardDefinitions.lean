import Mathlib.Algebra.Order.Floor.Ring
import Mathlib.Data.Rat.Floor
import BlockMiner.JsText

/-!
# Reward definitions: accepted, stored, paid

An administrator defines the reward of a mini-pass level, of a daily task or of
an internal offer. Each has its own validator of the request body; what it
accepts is stored, the amounts as `Decimal(20, 8)`, and paid from the stored
row when a user claims it, for levels and daily tasks by
`fulfillMiniPassLevelReward`, for offers by `grantInternalOfferwallRewardInTx`.

`Prisma.Decimal` reads a text in its own syntax, and an offer's URLs are checked
against tables of hosts; both are parameters. A stored amount is a number of
units of 10^-8, rounded to the nearest when it is stored.

Of a stored row only the columns that its payment reads are kept. The machines
of a user that are not in the inventory, and the mining engine that is told of
the payment, are left out.
-/

namespace BlockMiner.RewardDefinitions

abbrev Body := Option (Json JsNumber)

/-- A `Decimal(20, 8)`, in its units. -/
structure Decimal20_8 where
  units : ℤ
  bound : |units| < 10 ^ 20
deriving DecidableEq

/-- A refusal with its message, or an exception. -/
inductive Refusal where
  | refused (message : String)
  | threw
deriving DecidableEq

structure Miner where
  name : String
  baseHashRate : ℚ
  slotSize : ℕ
  imageUrl : Option String

structure EventMiner where
  name : String
  hashRate : ℚ
  slotSize : ℕ
  imageUrl : Option String

structure Env where
  /-- `String(n)` -/
  numberText : JsNumber → String
  /-- The nearest of the numbers with 53 bits, as its shortest text has it. -/
  double : JsNumber → JsNumber
  /-- `new Prisma.Decimal(text)`; `none` where it throws. -/
  decimal : String → Option JsNumber
  /-- `validateIframeUrl`, with the hosts that are let in. -/
  iframeUrl : String → Except Refusal String
  normalizeTaskMetadata : String → Body → Except Refusal Body
  miner : ℤ → Option Miner
  eventMiner : ℤ → Option EventMiner

def REWARD_NONE : String := "NONE"

def REWARD_SHOP_MINER : String := "SHOP_MINER"

def REWARD_EVENT_MINER : String := "EVENT_MINER"

def REWARD_HASHRATE_TEMP : String := "HASHRATE_TEMP"

def REWARD_BLK : String := "BLK"

def REWARD_POL : String := "POL"

/-- The reward columns, with amounts of type `α`; the tables of daily tasks and offers
write `reward` before their names. -/
structure Reward (α : Type) where
  rewardKind : String
  minerId : Option ℤ
  eventMinerId : Option ℤ
  hashRate : Option ℚ
  hashRateDays : Option ℤ
  blkAmount : Option α
  polAmount : Option α
deriving DecidableEq

/-- The columns of a kind before it fills its own. -/
def base {α : Type} (kind : String) : Reward α := ⟨kind, none, none, none, none, none, none⟩

/-! ## Reading values -/

section Values

variable (env : Env)

def refuse {α : Type} (message : String) : Except Refusal α := .error (.refused message)

/-- What was read, if it is valid. -/
def valid {α : Type} (value : Option α) (message : String) : Except Refusal α :=
  value.elim (refuse message) .ok

def refuseIf (p : Bool) (message : String) : Except Refusal Unit :=
  if p then refuse message else .ok ()

theorem valid_eq_ok {α : Type} {value : Option α} {message : String} {a : α} :
    valid value message = .ok a ↔ value = some a := by
  cases value <;> simp [valid, refuse]

theorem refuseIf_eq_ok {p : Bool} {message : String} {u : Unit} :
    refuseIf p message = .ok u ↔ p = false := by
  cases p <;> simp [refuseIf, refuse]

/-- `String(value)` -/
def stringOf : Body → Except Refusal String
  | none => .ok "undefined"
  | some value => (value.text env.numberText).elim (.error .threw) .ok

/-- `String(value ?? "")` -/
def stringOr (value : Body) : Except Refusal String :=
  (textOr env.numberText value).elim (.error .threw) .ok

def isFalsy : Body → Bool
  | none | some .null | some (.bool false) => true
  | some (.number n) => n = .finite 0 || n = .nan
  | some (.string s) => s = ""
  | some _ => false

/-- `String(value || fallback)` -/
def stringOrElse (value : Body) (fallback : String) : Except Refusal String :=
  if isFalsy value then .ok fallback else stringOf env value

/-- `Number(value)`, which converts an object by its text. -/
def numberOf (value : Body) : Except Refusal JsNumber := do
  let _ ← stringOf env value
  return env.double (Number value)

def finite? : JsNumber → Option ℚ
  | .finite q => some q
  | _ => none

/-- A finite number above zero, and at most `limit` if there is one. -/
def positive? (limit : Option ℚ) (x : JsNumber) : Option ℚ :=
  (finite? x).filter fun q => 0 < q && limit.all (q ≤ ·)

/-- A number of days from 1 to 365. -/
def validDays (days : Option ℤ) : Option ℤ := days.filter fun d => 1 ≤ d && d ≤ 365

/-- `typeof value === "string" ? value.trim() : ""` -/
def trimmed (value : Body) : String := ((value.bind Json.string?).map trim).getD ""

/-- `value !== undefined && value !== null && String(value).trim() !== ""` -/
def givenText (value : Body) : Except Refusal (Option String) :=
  match value with
  | none | some .null => .ok none
  | some value => do
      let text ← stringOf env (some value)
      return if trim text = "" then none else some text

end Values

/-! ## Level rewards -/

section Levels

variable (env : Env)

def positiveInt (n : Body) : Except Refusal (Option ℤ) := do
  return (parseInt (← stringOf env n)).filter (0 < ·)

/-- The text of the decimal is read again when it is stored, so the decimal stands for it. -/
def positiveDecimalString (s : Body) : Option JsNumber :=
  match s with
  | none | some .null | some (.string "") => none
  | some value => ((value.text env.numberText).bind env.decimal).filter (·.above 0)

structure LevelRewardInput where
  rewardKind : String
  minerId : Body
  eventMinerId : Body
  hashRate : Body
  hashRateDays : Body
  blkAmount : Body
  polAmount : Body

def validateAndNormalizeLevelRewardInput (input : LevelRewardInput) :
    Except Refusal (Reward JsNumber) :=
  let kind := toUpperCase (if input.rewardKind = "" then REWARD_NONE else input.rewardKind)
  if kind = REWARD_NONE then .ok (base kind)
  else if kind = REWARD_SHOP_MINER then do
    let mid ← valid (← positiveInt env input.minerId) "SHOP_MINER requires a valid minerId."
    return { base kind with minerId := some mid }
  else if kind = REWARD_EVENT_MINER then do
    let eid ← valid (← positiveInt env input.eventMinerId)
      "EVENT_MINER requires a valid eventMinerId."
    return { base kind with eventMinerId := some eid }
  else if kind = REWARD_HASHRATE_TEMP then do
    let hr := positive? none (← numberOf env input.hashRate)
    let days := validDays (parseInt (← stringOf env input.hashRateDays))
    let hr ← valid hr "HASHRATE_TEMP requires hashRate > 0."
    let days ← valid days "HASHRATE_TEMP requires hashRateDays between 1 and 365."
    return { base kind with hashRate := some hr, hashRateDays := some days }
  else if kind = REWARD_BLK then do
    let amt ← valid (positiveDecimalString env input.blkAmount)
      "BLK reward requires blkAmount > 0."
    return { base kind with blkAmount := some amt }
  else if kind = REWARD_POL then do
    let amt ← valid (positiveDecimalString env input.polAmount)
      "POL reward requires polAmount > 0."
    return { base kind with polAmount := some amt }
  else refuse "Unknown rewardKind."

def REWARD_KINDS : List String :=
  [REWARD_NONE, REWARD_SHOP_MINER, REWARD_EVENT_MINER, REWARD_HASHRATE_TEMP, REWARD_BLK, REWARD_POL]

/-- The reward in `adminUpsertLevelReward`. -/
def levelReward (body : Body) : Except Refusal (Reward JsNumber) := do
  let b := fun key => body.bind (Json.get key)
  let rewardKind := toUpperCase (← stringOrElse env (b "rewardKind") "NONE")
  refuseIf (rewardKind ∉ REWARD_KINDS) "Invalid rewardKind."
  validateAndNormalizeLevelRewardInput env
    { rewardKind, minerId := b "minerId", eventMinerId := b "eventMinerId"
      hashRate := b "hashRate", hashRateDays := b "hashRateDays", blkAmount := b "blkAmount"
      polAmount := b "polAmount" }

end Levels

/-! ## Daily tasks -/

section DailyTasks

variable (env : Env)

def ADMIN_CREATE_TASK_TYPES : List String :=
  ["LOGIN_DAY", "MINE_BLK", "PLAY_GAMES", "WATCH_YOUTUBE", "INTERNAL_OFFERWALL"]

def ADMIN_CREATE_REWARD_KINDS : List String :=
  ["BLK", "POL", "HASHRATE_TEMP", "SHOP_MINER", "EVENT_MINER"]

def isLowerAlnum (c : Char) : Bool := ('a' ≤ c && c ≤ 'z') || ('0' ≤ c && c ≤ '9')

def isAlnum (c : Char) : Bool := isLowerAlnum c || ('A' ≤ c && c ≤ 'Z')

/-- `/^[a-z0-9]+(?:-[a-z0-9]+)*$/` -/
def SLUG_RE (s : String) : Bool :=
  (s.toList.splitOn '-').all fun part => !part.isEmpty && part.all isLowerAlnum

/-- `/^[a-zA-Z0-9._-]+$/` -/
def I18N_KEY_RE (s : String) : Bool :=
  !s.toList.isEmpty && s.toList.all fun c => isAlnum c || c = '.' || c = '_' || c = '-'

/-- `/^[a-z0-9_-]+$/i` -/
def gameSlugRe (s : String) : Bool :=
  !s.toList.isEmpty && s.toList.all fun c => isAlnum c || c = '_' || c = '-'

structure DailyTaskDefinition where
  slug : String
  taskType : String
  targetValue : ℚ
  translationKey : String
  reward : Reward JsNumber
  gameSlug : Option String
  internalOfferwallOfferId : Option ℤ
  sortOrder : ℤ
  isActive : Bool
deriving DecidableEq

/-- `parseFloat(String(value ?? ""))` -/
def floatOf (value : Body) : Except Refusal JsNumber := do
  return env.double (parseFloat (← stringOr env value))

/-- An id from 1 on. -/
def idOf (value : Body) (message : String) : Except Refusal ℤ := do
  valid ((parseInt (← stringOr env value)).filter (1 ≤ ·)) message

/-- A number above 0, and at most `limit` if there is one. -/
def amountOf (limit : Option ℚ) (value : Body) (message : String) : Except Refusal ℚ := do
  valid (positive? limit (← floatOf env value)) message

/-- `String(value ?? "1")` -/
def daysText (value : Body) : Except Refusal String :=
  match value with
  | none | some .null => .ok "1"
  | some value => stringOf env (some value)

/-- The reward columns of a daily task. -/
def dailyTaskReward (rewardKind : String) (b : String → Body) : Except Refusal (Reward JsNumber) :=
  if rewardKind = "BLK" then do
    let a ← amountOf env (some (10 ^ 9)) (b "rewardBlkAmount")
      "BLK reward requires a positive rewardBlkAmount."
    return { base rewardKind with blkAmount := some (.finite a) }
  else if rewardKind = "POL" then do
    let a ← amountOf env (some (10 ^ 9)) (b "rewardPolAmount")
      "POL reward requires a positive rewardPolAmount."
    return { base rewardKind with polAmount := some (.finite a) }
  else if rewardKind = "HASHRATE_TEMP" then do
    let hr := positive? (some (10 ^ 9)) (← floatOf env (b "rewardHashRate"))
    let days := validDays (parseInt (← daysText env (b "rewardHashRateDays")))
    let hr ← valid hr "HASHRATE_TEMP requires a positive rewardHashRate."
    let days ← valid days "HASHRATE_TEMP requires rewardHashRateDays between 1 and 365."
    return { base rewardKind with hashRate := some hr, hashRateDays := some days }
  else if rewardKind = "SHOP_MINER" then do
    let mid ← idOf env (b "rewardMinerId") "SHOP_MINER requires a valid rewardMinerId."
    return { base rewardKind with minerId := some mid }
  else if rewardKind = "EVENT_MINER" then do
    let eid ← idOf env (b "rewardEventMinerId") "EVENT_MINER requires a valid rewardEventMinerId."
    return { base rewardKind with eventMinerId := some eid }
  else return base rewardKind

/-- `sortOrder`, unless it is to be found automatically. -/
def sortOrderOf (autoSortOrder : Bool) (value : Body) : Except Refusal ℤ :=
  if autoSortOrder then .ok 0
  else do
    match ← givenText env value with
    | none => return 0
    | some text => valid ((parseInt text).filter fun n => 0 ≤ n && n ≤ 99999) "Invalid sort order."

def gameSlugOf (value : Body) : Except Refusal (Option String) := do
  match ← givenText env value with
  | none => return none
  | some text =>
      let g := trim text
      refuseIf (64 < utf16Length g || !gameSlugRe g) "Invalid game slug."
      return some g

def offerIdOf (value : Body) : Except Refusal (Option ℤ) := do
  match ← givenText env value with
  | none => return none
  | some text => return some (← valid ((parseInt text).filter (1 ≤ ·))
      "Invalid internalOfferwallOfferId.")

/-- The number of `targetValue`. -/
def targetOf (value : Body) : Except Refusal JsNumber :=
  match value with
  | some (.number n) => .ok n
  | value => floatOf env value

/-- With the definition, `autoSortOrder`. -/
def parseCreateDailyTaskDefinition (body : Body) : Except Refusal (DailyTaskDefinition × Bool) := do
  refuseIf (!body.any Json.isObject) "Invalid JSON body."
  let b := fun key => body.bind (Json.get key)
  let slug := toLowerCase (trimmed (b "slug"))
  refuseIf (slug = "" || 80 < utf16Length slug || !SLUG_RE slug)
    "Invalid slug (lowercase letters, numbers, hyphens only)."
  let taskType := toUpperCase (trimmed (b "taskType"))
  refuseIf (taskType ∉ ADMIN_CREATE_TASK_TYPES) "Invalid task type."
  let targetValue ← valid (positive? (some (10 ^ 15)) (← targetOf env (b "targetValue")))
    "Invalid target value (must be positive)."
  let key := trimmed (b "translationKey")
  refuseIf (key = "" || 120 < utf16Length key || !I18N_KEY_RE key) "Invalid translation key."
  let rewardKind := toUpperCase (trimmed (b "rewardKind"))
  refuseIf (rewardKind ∉ ADMIN_CREATE_REWARD_KINDS) "Invalid reward kind."
  let autoSortOrder := (b "autoSortOrder").any fun v => v.bool? = some true
  let sortOrder ← sortOrderOf env autoSortOrder (b "sortOrder")
  let isActive := ((b "isActive").bind Json.bool?).getD true
  let gameSlug ← gameSlugOf env (b "gameSlug")
  refuseIf (taskType = "INTERNAL_OFFERWALL" && gameSlug.isSome)
    "INTERNAL_OFFERWALL tasks cannot set gameSlug."
  let internalOfferwallOfferId ← offerIdOf env (b "internalOfferwallOfferId")
  let reward ← dailyTaskReward env rewardKind b
  return ({ slug, taskType, targetValue, translationKey := key, reward, gameSlug
            internalOfferwallOfferId, sortOrder, isActive }, autoSortOrder)

end DailyTasks

/-! ## Internal offers -/

section Offers

variable (env : Env)

def OFFER_KIND_PTC_IFRAME : String := "PTC_IFRAME"

def OFFER_KIND_GENERAL_TASK : String := "GENERAL_TASK"

def COMPLETION_ADMIN_APPROVAL : String := "ADMIN_APPROVAL"

def COMPLETION_USER_SELF_CLAIM : String := "USER_SELF_CLAIM"

def OFFER_REWARD_KINDS : List String := [REWARD_BLK, REWARD_POL, REWARD_HASHRATE_TEMP]

def clampInt (v : Body) (min' max' fallback : ℤ) : Except Refusal ℤ := do
  match parseInt (← stringOr env v) with
  | none => return fallback
  | some n => return min max' (max min' n)

structure InternalOfferwallOffer where
  kind : String
  title : String
  description : Option String
  iframeUrl : Option String
  minViewSeconds : ℤ
  reward : Reward JsNumber
  dailyLimitPerUser : ℤ
  sortOrder : ℤ
  isActive : Bool
  completionMode : String
  taskMetadata : Body

/-- The first units of a text. -/
def sliceUnits (n : ℕ) : List Char → List Char
  | [] => []
  | c :: cs =>
      let width := if c.toNat < 0x10000 then 1 else 2
      if n < width then [] else c :: sliceUnits (n - width) cs

def descriptionOf (value : Body) : Except Refusal (Option String) :=
  match value with
  | none | some .null => .ok none
  | some value => do
      let text := String.ofList (sliceUnits 8000 (trim (← stringOf env (some value))).toList)
      return if text = "" then none else some text

def iframeOf (kind : String) (value : Body) : Except Refusal (Option String) :=
  if kind = OFFER_KIND_PTC_IFRAME then do
    return some (← env.iframeUrl (← stringOrElse env value ""))
  else
    match value with
    | none => .ok none
    | some value => do
        if trim (← stringOf env (some value)) = "" then return none
        else refuse "General tasks must not include an iframe URL."

/-- The reward columns of an offer. -/
def offerReward (rewardKind : String) (b : String → Body) : Except Refusal (Reward JsNumber) :=
  if rewardKind = REWARD_BLK then do
    let a ← amountOf env none (b "rewardBlkAmount")
      "BLK reward requires a positive rewardBlkAmount."
    return { base rewardKind with blkAmount := some (.finite a) }
  else if rewardKind = REWARD_POL then do
    let a ← amountOf env none (b "rewardPolAmount")
      "POL reward requires a positive rewardPolAmount."
    return { base rewardKind with polAmount := some (.finite a) }
  else do
    let hr := positive? none (← floatOf env (b "rewardHashRate"))
    let days ← clampInt env (b "rewardHashRateDays") 1 365 1
    let hr ← valid hr "HASHRATE_TEMP requires a positive rewardHashRate."
    return { base rewardKind with hashRate := some hr, hashRateDays := some days }

def parseAdminOfferBody (body : Body) : Except Refusal InternalOfferwallOffer := do
  refuseIf (!body.any Json.isObject) "Invalid JSON body."
  let b := fun key => body.bind (Json.get key)
  let kind := toUpperCase (trim (← stringOrElse env (b "kind") ""))
  refuseIf (kind ∉ [OFFER_KIND_PTC_IFRAME, OFFER_KIND_GENERAL_TASK]) "Invalid offer kind."
  let title := trim (← stringOrElse env (b "title") "")
  refuseIf (title = "" || 200 < utf16Length title) "Title is required (max 200 chars)."
  let description ← descriptionOf env (b "description")
  let iframeUrl ← iframeOf env kind (b "iframeUrl")
  let minViewSeconds ← clampInt env (b "minViewSeconds") 0 7200 10
  let dailyLimitPerUser ← clampInt env (b "dailyLimitPerUser") 1 50 3
  let sortOrder ← clampInt env (b "sortOrder") 0 99999 0
  let rewardKind := toUpperCase (trim (← stringOrElse env (b "rewardKind") ""))
  refuseIf (rewardKind ∉ OFFER_REWARD_KINDS)
    "Invalid reward kind (use BLK, POL, or HASHRATE_TEMP)."
  let isActive := ((b "isActive").bind Json.bool?).getD true
  let mode := toUpperCase (trim (← stringOrElse env (b "completionMode") ""))
  let completionMode :=
    if mode = COMPLETION_ADMIN_APPROVAL then COMPLETION_ADMIN_APPROVAL
    else COMPLETION_USER_SELF_CLAIM
  let reward ← offerReward env rewardKind b
  let taskMetadata ← env.normalizeTaskMetadata kind ((b "taskMetadata").or (b "task_metadata"))
  return { kind, title, description, iframeUrl, minViewSeconds, reward, dailyLimitPerUser
           sortOrder, isActive, completionMode, taskMetadata }

end Offers

/-! ## Storage -/

/-- `numeric(20, 8)` rounds half away from zero. -/
def roundUnits (q : ℚ) : ℤ :=
  if q < 0 then -⌊-q * 10 ^ 8 + 1 / 2⌋ else ⌊q * 10 ^ 8 + 1 / 2⌋

/-- A field overflow is `none`. -/
def ofUnits (units : ℤ) : Option Decimal20_8 :=
  if h : |units| < 10 ^ 20 then some ⟨units, h⟩ else none

def toDecimal20_8 (amount : JsNumber) : Option Decimal20_8 :=
  (finite? amount).bind fun q => ofUnits (roundUnits q)

/-- An `Int` column. -/
def fitsInt (n : ℤ) : Bool := -2 ^ 31 ≤ n && n < 2 ^ 31

/-- A column that may be empty. -/
def column {α β : Type} (store : α → Option β) : Option α → Option (Option β)
  | none => some none
  | some a => (store a).map some

def intColumn : Option ℤ → Option (Option ℤ) := column fun n => if fitsInt n then some n else none

def Reward.store (r : Reward JsNumber) : Option (Reward Decimal20_8) := do
  return { r with
    minerId := ← intColumn r.minerId
    eventMinerId := ← intColumn r.eventMinerId
    hashRateDays := ← intColumn r.hashRateDays
    blkAmount := ← column toDecimal20_8 r.blkAmount
    polAmount := ← column toDecimal20_8 r.polAmount }

/-- What a validator accepts. -/
inductive Definition where
  | level (reward : Reward JsNumber)
  | dailyTask (task : DailyTaskDefinition)
  | offer (offer : InternalOfferwallOffer)

/-- The row of a definition. -/
inductive Row where
  | level (reward : Reward Decimal20_8)
  | dailyTask (taskType : String) (isActive : Bool) (reward : Reward Decimal20_8)
  | offer (reward : Reward Decimal20_8)
deriving DecidableEq

def Definition.reward : Definition → Reward JsNumber
  | .level reward => reward
  | .dailyTask task => task.reward
  | .offer o => o.reward

def Row.reward : Row → Reward Decimal20_8
  | .level reward | .dailyTask _ _ reward | .offer reward => reward

/-- `none` where the database refuses the row. -/
def Definition.store : Definition → Option Row
  | .level reward => reward.store.map .level
  | .dailyTask task => do
      let _ ← intColumn task.internalOfferwallOfferId
      return .dailyTask task.taskType task.isActive (← task.reward.store)
  | .offer o => o.reward.store.map .offer

/-! ## Payment -/

section Payment

variable (env : Env)

structure UserPowerGame where
  game : String
  hashRate : ℚ
  playedAt : ℤ
  expiresAt : ℤ

structure UserInventory where
  minerId : Option ℤ
  minerName : String
  level : ℕ
  hashRate : ℚ
  slotSize : ℕ
  imageUrl : String
  acquiredAt : ℤ
  updatedAt : ℤ

structure User where
  isBanned : Bool
  blkBalance : Decimal20_8
  polBalance : Decimal20_8
  powers : List UserPowerGame
  inventory : List UserInventory

/-- What a payment reports. -/
inductive Summary where
  | nothing
  | machine (kind : String) (minerName : String)
  | hashRate (hashRate : ℚ) (days : ℤ)
  | amount (kind : String) (amount : Decimal20_8)

def DAY_MS : ℤ := 24 * 60 * 60 * 1000

def MINI_PASS_GAME_SLUG : String := "mini-pass-bonus"

def GAME_SLUG : String := "internal-offerwall"

/-- `{ increment: amt }`; the column may overflow. -/
def increment (balance amt : Decimal20_8) : Except String Decimal20_8 :=
  (ofUnits (balance.units + amt.units)).elim (.error "numeric field overflow") .ok

def payBlk (user : User) (amt : Decimal20_8) : Except String (User × Summary) := do
  return ({ user with blkBalance := ← increment user.blkBalance amt }, .amount REWARD_BLK amt)

def payPol (user : User) (amt : Decimal20_8) : Except String (User × Summary) := do
  return ({ user with polBalance := ← increment user.polBalance amt }, .amount REWARD_POL amt)

def payHashRate (user : User) (game : String) (now : ℤ) (hr : ℚ) (days : ℤ) : User × Summary :=
  ({ user with powers := ⟨game, hr, now, now + days * DAY_MS⟩ :: user.powers }, .hashRate hr days)

def imageOf (imageUrl : Option String) : String :=
  (imageUrl.filter (· ≠ "")).getD "/machines/reward1.png"

def payMachine (user : User) (kind : String) (minerId : Option ℤ) (minerName : String)
    (hashRate : ℚ) (slotSize : ℕ) (imageUrl : Option String) (now : ℤ) : User × Summary :=
  let machine : UserInventory :=
    { minerId, minerName, level := 1, hashRate, slotSize := if slotSize = 0 then 1 else slotSize
      imageUrl := imageOf imageUrl, acquiredAt := now, updatedAt := now }
  ({ user with inventory := machine :: user.inventory }, .machine kind minerName)

/-- An amount above zero. -/
def owed (amount : Option Decimal20_8) (message : String) : Except String Decimal20_8 :=
  (amount.filter (0 < ·.units)).elim (.error message) .ok

/-- An id that is neither null nor 0, of a row that exists. -/
def required {α : Type} (id : Option ℤ) (row : ℤ → Option α) (missing notFound : String) :
    Except String (ℤ × α) :=
  match id.filter (· ≠ 0) with
  | none => .error missing
  | some id => (row id).elim (.error notFound) fun r => .ok (id, r)

def fulfillMiniPassLevelReward (now : ℤ) (user : User) (reward : Reward Decimal20_8) :
    Except String (User × Summary) :=
  let kind := toUpperCase (if reward.rewardKind = "" then REWARD_NONE else reward.rewardKind)
  if kind = REWARD_NONE then .ok (user, .nothing)
  else if kind = REWARD_SHOP_MINER then do
    let (id, miner) ← required reward.minerId env.miner "MINER_REQUIRED" "MINER_NOT_FOUND"
    return payMachine user kind (some id) miner.name miner.baseHashRate miner.slotSize
      miner.imageUrl now
  else if kind = REWARD_EVENT_MINER then do
    let (_, em) ← required reward.eventMinerId env.eventMiner "EVENT_MINER_REQUIRED"
      "EVENT_MINER_NOT_FOUND"
    return payMachine user kind none em.name em.hashRate em.slotSize em.imageUrl now
  else if kind = REWARD_HASHRATE_TEMP then
    let hr := reward.hashRate.getD 0
    let days := max 1 ((reward.hashRateDays.filter (· ≠ 0)).getD 7)
    if hr ≤ 0 then .error "HASHRATE_INVALID"
    else .ok (payHashRate user MINI_PASS_GAME_SLUG now hr days)
  else if kind = REWARD_BLK then do payBlk user (← owed reward.blkAmount "BLK_INVALID")
  else if kind = REWARD_POL then do payPol user (← owed reward.polAmount "POL_INVALID")
  else .error "UNKNOWN_REWARD_KIND"

def grantInternalOfferwallRewardInTx (now : ℤ) (user : User) (reward : Reward Decimal20_8) :
    Except String (User × Summary) :=
  let kind := toUpperCase reward.rewardKind
  if kind = REWARD_BLK then do payBlk user (← owed reward.blkAmount "REWARD_BLK_INVALID")
  else if kind = REWARD_POL then do payPol user (← owed reward.polAmount "REWARD_POL_INVALID")
  else if kind = REWARD_HASHRATE_TEMP then
    let hr := reward.hashRate.getD 0
    let days := max 1 (min 365 ((reward.hashRateDays.filter (· ≠ 0)).getD 1))
    if hr ≤ 0 then .error "REWARD_HASHRATE_INVALID"
    else .ok (payHashRate user GAME_SLUG now hr days)
  else .error "REWARD_KIND_UNSUPPORTED"

structure UserDailyTaskProgress where
  completedAt : Option ℤ
  rewardClaimedAt : Option ℤ

/-- What a claim finds besides the user. -/
structure Visit where
  now : ℤ
  checkinEnabled : Bool
  progress : Option UserDailyTaskProgress

/-- A refused claim leaves nothing behind; the answer to it is a code. That the progress is
marked as claimed is in `DailyTasks`. -/
def claimDailyTaskReward (visit : Visit) (user : User) (taskType : String) (isActive : Bool)
    (reward : Reward Decimal20_8) : Except String (User × Summary) :=
  if user.isBanned then .error "forbidden"
  else if !isActive || (taskType = "LOGIN_DAY" && !visit.checkinEnabled) then .error "not_found"
  else if !visit.progress.any (·.completedAt.isSome) then .error "not_completed"
  else if visit.progress.any (·.rewardClaimedAt.isSome) then .error "already_claimed"
  else
    match fulfillMiniPassLevelReward env visit.now user reward with
    | .ok paid => .ok paid
    | .error _ => .error "error"

def pay (visit : Visit) (user : User) : Row → Except String (User × Summary)
  | .level reward => fulfillMiniPassLevelReward env visit.now user reward
  | .dailyTask taskType isActive reward =>
      claimDailyTaskReward env visit user taskType isActive reward
  | .offer reward => grantInternalOfferwallRewardInTx visit.now user reward

end Payment

end BlockMiner.RewardDefinitions
