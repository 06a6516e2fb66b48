import BlockMiner.EventStock
import BlockMiner.RewardDefinitions

/-!
# The machines of an event, defined and shown

`adminOfferEventController.js` and `offerEventController.js`: an administrator creates
and changes the machines of an event with a JSON body that zod checks; the stored row is
what the public listing shows and what `EventStock` sells. The price is stored with eight
decimals. A change is merged into the stored row.

The events are fixed. A body that is refused, and a row that the database refuses, leave
the table. Numbers are exact.
-/

namespace BlockMiner.EventMinerAdmin

open RewardDefinitions (Body Refusal Decimal20_8 toDecimal20_8 fitsInt refuse valid isAlnum)
open Spending (Currency OfferEvent hasEventMinerStock)

/-- A row of `event_miners`, but for the sold count. -/
structure Row where
  eventId : ℕ
  name : String
  description : String
  imageUrl : Option String
  price : Decimal20_8
  hashRate : ℚ
  currency : Currency
  stockUnlimited : Bool
  stockCount : Option ℕ
  slotSize : ℕ
  isActive : Bool
  isFree : Bool
  claimLimitPerUser : ℕ
deriving DecidableEq

/-! ## The schemas

`none` is a refusal. -/

section Fields

variable {α : Type}

abbrev Reader (α : Type) := Json JsNumber → Option α

def required (read : Reader α) (field : Body) : Option α := field.bind read

/-- A field that may be `undefined`. -/
def optional (read : Reader α) : Body → Option (Option α)
  | none => some none
  | some value => (read value).map some

/-- `null` may be given, too. -/
def nullable (read : Reader α) : Reader (Option α)
  | .null => some none
  | value => (read value).map some

def boolean : Reader Bool := Json.bool?

/-- `z.string().trim().min(low).max(high)` -/
def text (low high : ℕ) : Reader String := fun value =>
  (value.string?.map trim).filter fun s => low ≤ utf16Length s && utf16Length s ≤ high

def number : Reader ℚ
  | .number (.finite q) => some q
  | _ => none

/-- `z.number().int()`, from `low` on. -/
def count (low : ℕ) : Reader ℕ := fun value =>
  ((number value).filter fun q => q.den = 1 && (low : ℚ) ≤ q).map fun q => q.num.toNat

/-- `/^\d+(\.\d+)?$/` -/
def isDecimalText (s : String) : Bool :=
  let parts := s.toList.splitOn '.'
  parts.length ≤ 2 && parts.all fun part => !part.isEmpty && part.all Char.isDigit

/-- `z.union([z.number().min(0), z.string().regex(…)])`, as the number that
`toDecimalPrice` makes of it. -/
def price : Reader ℚ
  | .number (.finite q) => if 0 ≤ q then some q else none
  | .string s =>
      if isDecimalText s then
        match stringToNumber s with
        | .finite q => some q
        | _ => none
      else none
  | _ => none

def currency : Reader Currency := fun value =>
  value.string?.bind fun s =>
    [("POL", Currency.POL), ("BTC", .BTC), ("ETH", .ETH), ("USDT", .USDT), ("USDC", .USDC),
      ("ZER", .ZER)].lookup s

/-- `z.union([z.literal(1), z.literal(2)])` -/
def slotSize : Reader ℕ := fun value => (count 1 value).filter (· ≤ 2)

/-- The fields of a strict object. -/
def strictObject (keys : List String) : Body → Option (String → Body)
  | some (.object fields) =>
      if fields.all fun f => f.1 ∈ keys then some fun key => (Json.object fields).get key else none
  | _ => none

end Fields

def minerKeys : List String :=
  ["name", "description", "imageUrl", "price", "hashRate", "currency", "stockUnlimited",
    "stockCount", "slotSize", "isActive", "isFree", "claimLimitPerUser"]

/-- A body that was parsed; a field that is `none` is `undefined`. -/
structure MinerUpdate where
  name : Option String
  description : Option String
  imageUrl : Option (Option String)
  price : Option ℚ
  hashRate : Option ℚ
  currency : Option Currency
  stockUnlimited : Option Bool
  stockCount : Option (Option ℕ)
  slotSize : Option ℕ
  isActive : Option Bool
  isFree : Option Bool
  claimLimitPerUser : Option ℕ

def minerUpdateSchema (body : Body) : Option MinerUpdate := do
  let d ← strictObject minerKeys body
  return {
    name := ← optional (text 1 200) (d "name")
    description := ← optional (text 1 20000) (d "description")
    imageUrl := ← optional (nullable (text 0 2000)) (d "imageUrl")
    price := ← optional price (d "price")
    hashRate := ← optional (fun v => (number v).filter (0 < ·)) (d "hashRate")
    currency := ← optional currency (d "currency")
    stockUnlimited := ← optional boolean (d "stockUnlimited")
    stockCount := ← optional (nullable (count 1)) (d "stockCount")
    slotSize := ← optional slotSize (d "slotSize")
    isActive := ← optional boolean (d "isActive")
    isFree := ← optional boolean (d "isFree")
    claimLimitPerUser := ← optional (count 0) (d "claimLimitPerUser") }

structure MinerCreate where
  name : String
  description : String
  imageUrl : Option (Option String)
  price : ℚ
  hashRate : ℚ
  currency : Option Currency
  stockUnlimited : Bool
  stockCount : Option (Option ℕ)
  slotSize : Option ℕ
  isActive : Option Bool
  isFree : Option Bool
  claimLimitPerUser : Option ℕ

/-- The same fields, of which five are required, and a count for a limited stock. -/
def minerCreateSchema (body : Body) : Option MinerCreate := do
  let d ← minerUpdateSchema body
  let created : MinerCreate :=
    { d with
      name := ← d.name
      description := ← d.description
      price := ← d.price
      hashRate := ← d.hashRate
      stockUnlimited := ← d.stockUnlimited }
  if created.stockUnlimited || created.stockCount.join.isSome then return created else none

/-! ## The requests -/

section Requests

variable (events : ℕ → Option OfferEvent) (miners : Table Row)

/-- What the column takes of a price. -/
def storedPrice (price : ℚ) : Except Refusal Decimal20_8 :=
  (toDecimal20_8 (.finite price)).elim (.error .threw) .ok

/-- A row that the database takes. -/
def stored (row : Row) : Except Refusal Row :=
  if row.stockCount.all (fun n => fitsInt n) && fitsInt row.claimLimitPerUser then .ok row
  else .error .threw

def adminCreateEventMiner (eventId : ℕ) (body : Body) : Except Refusal (Table Row) := do
  let _ ← valid (events eventId) "Event not found."
  let d ← valid (minerCreateSchema body) "Invalid data."
  let price ← storedPrice d.price
  let row ← stored
    { eventId, name := d.name, description := d.description
      imageUrl := d.imageUrl.join.filter (· ≠ "")
      price, hashRate := d.hashRate, currency := d.currency.getD .POL
      stockUnlimited := d.stockUnlimited
      stockCount := if d.stockUnlimited then none else d.stockCount.join
      slotSize := d.slotSize.getD 1
      isActive := d.isActive ≠ some false
      isFree := d.isFree = some true
      claimLimitPerUser := d.claimLimitPerUser.getD 1 }
  return miners.insert row

/-- The `data` of an update, in the row it is merged into. -/
def merged (d : MinerUpdate) (existing : Row) (price : Decimal20_8) : Row :=
  let stockUnlimited := d.stockUnlimited.getD existing.stockUnlimited
  let stockCount :=
    match d.stockCount with
    | some stockCount => stockCount
    | none => if d.stockUnlimited.isSome && stockUnlimited then none else existing.stockCount
  { existing with
    name := d.name.getD existing.name
    description := d.description.getD existing.description
    imageUrl := (d.imageUrl.map fun url => url.filter (· ≠ "")).getD existing.imageUrl
    price
    hashRate := d.hashRate.getD existing.hashRate
    currency := d.currency.getD existing.currency
    stockUnlimited
    stockCount :=
      if d.stockCount.isSome || d.stockUnlimited.isSome then
        if stockUnlimited then none else stockCount
      else existing.stockCount
    slotSize := d.slotSize.getD existing.slotSize
    isActive := d.isActive.getD existing.isActive
    isFree := d.isFree.getD existing.isFree
    claimLimitPerUser := d.claimLimitPerUser.getD existing.claimLimitPerUser }

def adminUpdateEventMiner (eventId minerId : ℕ) (body : Body) : Except Refusal (Table Row) := do
  let existing ← valid ((miners.row minerId).filter (·.eventId = eventId)) "Miner not found."
  let d ← valid (minerUpdateSchema body) "Invalid data."
  let price ← d.price.elim (.ok existing.price) storedPrice
  let row ← stored (merged d existing price)
  return miners.modify minerId fun _ => row

inductive Request where
  | create (eventId : ℕ) (body : Body)
  | update (eventId minerId : ℕ) (body : Body)

def handle : Request → Except Refusal (Table Row)
  | .create eventId body => adminCreateEventMiner events miners eventId body
  | .update eventId minerId body => adminUpdateEventMiner miners eventId minerId body

end Requests

/-- Only a request that is accepted is a step. -/
def system (events : ℕ → Option OfferEvent) : System (Table Row) Request :=
  ⟨fun miners request => (handle events miners request).toOption⟩

/-! ## The listing and the sale -/

/-- The row as the purchase finds it, with its event. -/
def Row.eventMiner (m : Row) (event : OfferEvent) : EventStock.EventMiner where
  event
  price := m.price.units / 10 ^ 8
  currency := some m.currency
  stockUnlimited := m.stockUnlimited
  stockCount := m.stockCount
  isActive := m.isActive
  isFree := m.isFree
  claimLimitPerUser := m.claimLimitPerUser
  eventId := m.eventId
  name := m.name
  imageUrl := m.imageUrl
  hashRate := m.hashRate
  slotSize := m.slotSize

/-- The machines as they are stored, for `EventStock`. -/
def config (events : ℕ → Option OfferEvent) (miners : Table Row) : EventStock.Config :=
  fun id => (miners.row id).bind fun m => (events m.eventId).map m.eventMiner

structure PublicMiner where
  name : String
  description : String
  imageUrl : Option String
  price : ℚ
  hashRate : ℚ
  currency : Currency
  slotSize : ℕ
  inStock : Bool
  remaining : Option ℕ
  isFree : Bool
  claimLimitPerUser : ℕ
  userClaimCount : ℕ

def serializeMinerPublic (m : Row) (event : OfferEvent) (soldCount userClaimCount : ℕ) :
    PublicMiner where
  name := m.name
  description := m.description
  imageUrl := m.imageUrl
  price := m.price.units / 10 ^ 8
  hashRate := m.hashRate
  currency := m.currency
  slotSize := m.slotSize
  inStock := hasEventMinerStock (m.eventMiner event).toEventMiner soldCount
  remaining := if m.stockUnlimited then none else m.stockCount.map (· - soldCount)
  isFree := m.isFree
  claimLimitPerUser := m.claimLimitPerUser
  userClaimCount

end BlockMiner.EventMinerAdmin
