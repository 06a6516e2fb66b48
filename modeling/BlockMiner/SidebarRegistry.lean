import BlockMiner.JsText

/-!
# The sidebar and its stored entries

`sidebarNavRegistry.js` has the items of the sidebar; a row of the database has
which of them are visible, in which order and under which parent. The row is
JSON that an older build or an administrator wrote, so `getSidebarNavForAdmin`
of `sidebarNavService.js` coerces parents, adds the items that are missing and,
if the list is not valid then, starts over with the default one.

The text of a number is a parameter. A key that an item of the registry
inherits (`constructor`) leads to no locked item, as one that is not there.
-/

namespace BlockMiner.Sidebar

/-! ## The registry -/

inductive SidebarSection where
  | main
  | earn
  | social
deriving DecidableEq

def SidebarSection.text : SidebarSection → String
  | main => "main"
  | earn => "earn"
  | social => "social"

structure RegistryItemDef where
  path : Option String
  labelKey : String
  icon : String
  navSection : SidebarSection
  defaultParentItemId : Option String
  isGroup : Bool := false
  parentLocked : Bool := false
deriving DecidableEq

def SIDEBAR_ITEM_REGISTRY : List (String × RegistryItemDef) := [
  ("dashboard",
    { path := some "/dashboard", labelKey := "sidebar.dashboard"
      icon := "LayoutDashboard", navSection := .main, defaultParentItemId := none }),
  ("power_stats",
    { path := some "/power-stats", labelKey := "sidebar.power_stats"
      icon := "BarChart3", navSection := .main, defaultParentItemId := none }),
  ("machines",
    { path := some "/inventory", labelKey := "sidebar.machines"
      icon := "Cpu", navSection := .main, defaultParentItemId := none }),
  ("shop",
    { path := some "/shop", labelKey := "sidebar.shop"
      icon := "ShoppingCart", navSection := .main, defaultParentItemId := none }),
  ("offers",
    { path := some "/offers", labelKey := "sidebar.offers"
      icon := "Tag", navSection := .main, defaultParentItemId := none }),
  ("wallet",
    { path := some "/wallet", labelKey := "sidebar.wallet"
      icon := "Wallet", navSection := .main, defaultParentItemId := none }),
  ("support",
    { path := some "/support", labelKey := "sidebar.support"
      icon := "LifeBuoy", navSection := .main, defaultParentItemId := none }),
  ("checkin",
    { path := some "/checkin", labelKey := "sidebar.checkin"
      icon := "Calendar", navSection := .earn, defaultParentItemId := none
      parentLocked := true }),
  ("mini_pass",
    { path := some "/mini-pass", labelKey := "sidebar.mini_pass"
      icon := "Trophy", navSection := .earn, defaultParentItemId := none
      parentLocked := true }),
  ("rewards_group",
    { path := none, labelKey := "sidebar.rewards"
      icon := "Folder", navSection := .earn, defaultParentItemId := none
      isGroup := true, parentLocked := true }),
  ("faucet",
    { path := some "/faucet", labelKey := "sidebar.faucet"
      icon := "Gift", navSection := .earn, defaultParentItemId := some "rewards_group" }),
  ("shortlinks",
    { path := some "/shortlinks", labelKey := "sidebar.shortlinks"
      icon := "Link", navSection := .earn, defaultParentItemId := some "rewards_group" }),
  ("auto_mining",
    { path := some "/auto-mining", labelKey := "sidebar.auto_mining"
      icon := "Zap", navSection := .earn, defaultParentItemId := some "rewards_group" }),
  ("youtube",
    { path := some "/youtube", labelKey := "sidebar.youtube"
      icon := "Youtube", navSection := .earn, defaultParentItemId := some "rewards_group" }),
  ("read_earn",
    { path := some "/read-earn", labelKey := "sidebar.read_earn"
      icon := "Sparkles", navSection := .earn, defaultParentItemId := some "rewards_group" }),
  ("internal_offerwall",
    { path := some "/internal-offerwall"
      labelKey := "sidebar.internal_offerwall"
      icon := "LayoutGrid", navSection := .earn, defaultParentItemId := some "rewards_group" }),
  ("daily_tasks",
    { path := some "/daily-tasks", labelKey := "sidebar.daily_tasks"
      icon := "ListChecks", navSection := .earn, defaultParentItemId := none
      parentLocked := true }),
  ("games",
    { path := some "/games", labelKey := "sidebar.games"
      icon := "Gamepad2", navSection := .social, defaultParentItemId := none }),
  ("hash_sprint_minigame",
    { path := some "/minigame", labelKey := "sidebar.minigame"
      icon := "Crosshair", navSection := .social, defaultParentItemId := none }),
  ("calculator",
    { path := some "/calculator", labelKey := "sidebar.calculator"
      icon := "Calculator", navSection := .social, defaultParentItemId := none }),
  ("manual",
    { path := some "/manual", labelKey := "sidebar.manual"
      icon := "BookOpen", navSection := .social, defaultParentItemId := none }),
  ("ranking",
    { path := some "/ranking", labelKey := "sidebar.ranking"
      icon := "Trophy", navSection := .social, defaultParentItemId := none }),
  ("roadmap",
    { path := some "/roadmap", labelKey := "sidebar.roadmap"
      icon := "Map", navSection := .social, defaultParentItemId := none }),
  ("transparency",
    { path := some "/transparency", labelKey := "sidebar.transparency"
      icon := "Eye", navSection := .social, defaultParentItemId := none })]

def ALLOWED_ITEM_IDS : List String := SIDEBAR_ITEM_REGISTRY.map Prod.fst

def SIDEBAR_SECTIONS : List SidebarSection := [.main, .earn, .social]

def CATEGORY_TITLE_KEYS : SidebarSection → String
  | .main => "sidebar.categories.main"
  | .earn => "sidebar.categories.earn"
  | .social => "sidebar.categories.social"

structure SidebarEntry where
  itemId : String
  visible : Bool
  sortOrder : ℤ
  navSection : SidebarSection
  parentItemId : Option String

def buildDefaultSidebarEntries : List SidebarEntry := [
  ⟨"dashboard", true, 10, .main, none⟩,
  ⟨"power_stats", true, 20, .main, none⟩,
  ⟨"machines", true, 30, .main, none⟩,
  ⟨"shop", true, 40, .main, none⟩,
  ⟨"offers", true, 50, .main, none⟩,
  ⟨"wallet", true, 60, .main, none⟩,
  ⟨"support", true, 70, .main, none⟩,
  ⟨"checkin", true, 110, .earn, none⟩,
  ⟨"mini_pass", true, 115, .earn, none⟩,
  ⟨"daily_tasks", true, 118, .earn, none⟩,
  ⟨"rewards_group", true, 120, .earn, none⟩,
  ⟨"internal_offerwall", true, 125, .earn, some "rewards_group"⟩,
  ⟨"faucet", true, 130, .earn, some "rewards_group"⟩,
  ⟨"shortlinks", true, 140, .earn, some "rewards_group"⟩,
  ⟨"auto_mining", true, 150, .earn, some "rewards_group"⟩,
  ⟨"youtube", true, 160, .earn, some "rewards_group"⟩,
  ⟨"read_earn", true, 170, .earn, some "rewards_group"⟩,
  ⟨"games", true, 210, .social, none⟩,
  ⟨"hash_sprint_minigame", true, 215, .social, none⟩,
  ⟨"calculator", true, 220, .social, none⟩,
  ⟨"manual", true, 230, .social, none⟩,
  ⟨"ranking", true, 240, .social, none⟩,
  ⟨"roadmap", true, 250, .social, none⟩,
  ⟨"transparency", true, 260, .social, none⟩]

/-! ## Entries as JSON -/

abbrev Entry := Json JsNumber

def SidebarEntry.json (e : SidebarEntry) : Entry := .object [
  ("itemId", .string e.itemId), ("visible", .bool e.visible),
  ("sortOrder", .number (.finite e.sortOrder)), ("section", .string e.navSection.text),
  ("parentItemId", e.parentItemId.elim .null .string)]

def defaultEntries : List Entry := buildDefaultSidebarEntries.map SidebarEntry.json

/-- `{ ...row, [key]: value }` -/
def assign (key : String) (value : Entry) : Entry → Entry
  | .object fields => .object <|
      if fields.any (·.1 = key) then fields.map fun f => if f.1 = key then (key, value) else f
      else fields ++ [(key, value)]
  | row => row

/-- `(parentItemId ?? null) === want` -/
def isParent (parentItemId : Option Entry) (want : Option String) : Bool :=
  match parentItemId with
  | none | some .null => want = none
  | some (.string s) => want = some s
  | some _ => false

section Stored

variable (numberText : JsNumber → String)

/-- The key that an item id becomes; `none` where it has no text. -/
def propertyKey : Option Entry → Option String
  | none => some "undefined"
  | some itemId => itemId.text numberText

/-- `String(itemId || "").trim()` -/
def presentId : Option Entry → Option String
  | none | some .null | some (.bool false) => some ""
  | some (.number n) => some (if n = .finite 0 ∨ n = .nan then "" else trim (numberText n))
  | some itemId => (itemId.text numberText).map trim

/-- An entry and whether it was changed. -/
def coerceParentLocked (e : Entry) : Option (Entry × Bool) :=
  if !e.isObject then some (e, false)
  else do
    match SIDEBAR_ITEM_REGISTRY.lookup (← propertyKey numberText (e.get "itemId")) with
    | none => return (e, false)
    | some item =>
        if !item.parentLocked || isParent (e.get "parentItemId") item.defaultParentItemId then
          return (e, false)
        else return (assign "parentItemId" (item.defaultParentItemId.elim .null .string) e, true)

def coerceParentLockedSidebarEntries (entries : List Entry) : Option (List Entry × Bool) := do
  let next ← entries.mapM (coerceParentLocked numberText)
  return (next.map Prod.fst, next.any Prod.snd)

def offerwallParent : Option String :=
  (SIDEBAR_ITEM_REGISTRY.lookup "internal_offerwall").bind RegistryItemDef.defaultParentItemId

def coerceOfferwall (e : Entry) : Entry × Bool :=
  if (e.get "itemId").bind Json.string? ≠ some "internal_offerwall"
      ∨ isParent (e.get "parentItemId") offerwallParent then (e, false)
  else
    (assign "section" (.string "earn")
      (assign "parentItemId" (offerwallParent.elim .null .string) e), true)

def coerceInternalOfferwallEarnRoot (entries : List Entry) : List Entry × Bool :=
  let next := entries.map coerceOfferwall
  (next.map Prod.fst, next.any Prod.snd)

/-- The list so far, the ids it has, and whether it has grown. -/
def addMissing (acc : List Entry × List String × Bool) (row : SidebarEntry) :
    List Entry × List String × Bool :=
  let (next, present, changed) := acc
  if row.itemId ∈ present then (next, present, changed)
  else (next ++ [row.json], row.itemId :: present, true)

def mergeMissingSidebarRegistryEntries (entries : List Entry) : Option (List Entry × Bool) := do
  let ids ← (entries.filter Json.isObject).mapM fun e => presentId numberText (e.get "itemId")
  let (next, _, changed) :=
    buildDefaultSidebarEntries.foldl addMissing (entries, ids.filter (· ≠ ""), false)
  return (next, changed)

end Stored

/-! ## Validation -/

/-- `null` or the one group there is. -/
def parent? : Option Entry → Option (Option String)
  | some .null => some none
  | some (.string s) => if s = "rewards_group" then some (some s) else none
  | _ => none

def navSection? (value : Option Entry) : Option SidebarSection :=
  (value.bind Json.string?).bind fun s =>
    SIDEBAR_SECTIONS.find? fun navSection => navSection.text = s

def isInteger : Option Entry → Bool
  | some (.number (.finite q)) => q.den = 1
  | _ => false

def validationErrorForEntry (raw : Entry) : Option String :=
  if !raw.isObject then some "invalid_entry_shape"
  else
    match (raw.get "itemId").bind Json.string? with
    | none => some "unknown_item_id"
    | some itemId =>
      match SIDEBAR_ITEM_REGISTRY.lookup itemId with
      | none => some "unknown_item_id"
      | some item =>
        if ((raw.get "visible").bind Json.bool?).isNone then some "invalid_visible"
        else if !isInteger (raw.get "sortOrder") then some "invalid_sort_order"
        else
          match navSection? (raw.get "section") with
          | none => some "invalid_section"
          | some navSection =>
            match parent? (raw.get "parentItemId") with
            | none => some "invalid_parent"
            | some parentItemId =>
              if item.navSection ≠ navSection then some "section_mismatch"
              else if item.parentLocked ∧ parentItemId ≠ item.defaultParentItemId then
                some "parent_locked"
              else if (item.navSection = .main ∨ item.navSection = .social)
                  ∧ parentItemId ≠ none then
                some "main_social_parent_must_be_null"
              else if item.navSection = .earn ∧ itemId ≠ "rewards_group"
                  ∧ parentItemId = some "rewards_group"
                  ∧ item.defaultParentItemId ≠ some "rewards_group" then
                some "cannot_nest_item"
              else if itemId = "rewards_group" ∧ parentItemId ≠ none then
                some "group_must_be_root"
              else none

def itemIdOf (e : Entry) : String := ((e.get "itemId").bind Json.string?).getD ""

/-- The ids of the entries, if each is valid and new. -/
def seenIds (seen : List String) : List Entry → Except String (List String)
  | [] => .ok seen
  | e :: entries =>
      match validationErrorForEntry e with
      | some code => .error code
      | none =>
          if itemIdOf e ∈ seen then .error "duplicate_item_id"
          else seenIds (itemIdOf e :: seen) entries

def validateSidebarEntriesPayload (entries : List Entry) : Except String (List Entry) := do
  let seen ← seenIds [] entries
  let hasGroup := entries.any fun e => itemIdOf e = "rewards_group"
  let childOfGroup := entries.filter fun e => parent? (e.get "parentItemId") = some "rewards_group"
  if seen.length ≠ ALLOWED_ITEM_IDS.length then .error "incomplete_item_set"
  else if 0 < childOfGroup.length ∧ !hasGroup then .error "rewards_group_required"
  else return entries

end BlockMiner.Sidebar
