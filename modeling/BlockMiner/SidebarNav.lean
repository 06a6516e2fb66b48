import BlockMiner.SidebarRegistry

/-!
# The navigation of an administrator

`sidebarNavService.js`: the categories that entries are shown as, and
`getSidebarNavForAdmin`, which repairs the stored entries as it reads them. The
categories are made of entries that were validated; an item that the registry
does not have would throw.
-/

namespace BlockMiner.Sidebar

/-! ## Categories -/

/-- What a category shows of an item. -/
structure NavLink where
  itemId : String
  labelKey : String
  icon : String
  path : Option String

inductive NavItem where
  | link (item : NavLink)
  | group (itemId labelKey icon : String) (children : List NavLink)

structure NavCategory where
  navSection : SidebarSection
  titleKey : String
  items : List NavItem

def isVisible (e : Entry) : Bool := (e.get "visible").bind Json.bool? = some true

/-- `(a, b) => a.sortOrder - b.sortOrder` -/
def bySortOrder (entries : List Entry) : List Entry :=
  let sortOrder := fun e : Entry =>
    match e.get "sortOrder" with
    | some (.number (.finite q)) => q
    | _ => 0
  entries.mergeSort fun a b => sortOrder a ≤ sortOrder b

def hasParent (parentItemId : Option String) (e : Entry) : Bool :=
  match e.get "parentItemId" with
  | some .null => parentItemId = none
  | some (.string s) => parentItemId = some s
  | _ => false

def activeEntries (entries : List Entry) : List Entry :=
  let isGroupVisible := (entries.reverse.find? fun e => itemIdOf e = "rewards_group").any isVisible
  entries.filter fun e =>
    isVisible e && (!hasParent (some "rewards_group") e || isGroupVisible)

def navLink (e : Entry) : Option NavLink :=
  (SIDEBAR_ITEM_REGISTRY.lookup (itemIdOf e)).map fun item =>
    ⟨itemIdOf e, item.labelKey, item.icon, item.path⟩

def navItem (active : List Entry) (root : Entry) : Option NavItem := do
  let item ← SIDEBAR_ITEM_REGISTRY.lookup (itemIdOf root)
  if item.isGroup then
    let children ← (bySortOrder (active.filter (hasParent (some (itemIdOf root))))).mapM navLink
    return .group (itemIdOf root) item.labelKey item.icon children
  else return .link ⟨itemIdOf root, item.labelKey, item.icon, item.path⟩

def rowsForSection (active : List Entry) (navSection : SidebarSection) : Option (List NavItem) :=
  (bySortOrder (active.filter fun e =>
    navSection? (e.get "section") = some navSection && hasParent none e)).mapM (navItem active)

def buildResolvedCategories (entries : List Entry) : Option (List NavCategory) :=
  SIDEBAR_SECTIONS.mapM fun navSection => do
    let items ← rowsForSection (activeEntries entries) navSection
    return ⟨navSection, CATEGORY_TITLE_KEYS navSection, items⟩

/-! ## The stored row -/

/-- The entries of the row, if there is one, and how often it was written. -/
structure Store where
  row : Option Entry
  writes : ℕ

def Store.write (s : Store) (entries : List Entry) : Store := ⟨some (.array entries), s.writes + 1⟩

def ensureRow (s : Store) : Store × Entry :=
  match s.row with
  | some entries => (s, entries)
  | none => (s.write defaultEntries, .array defaultEntries)

structure SidebarNav where
  entries : List Entry
  categories : List NavCategory

def navOf (entries : List Entry) : Option SidebarNav :=
  (buildResolvedCategories entries).map fun categories => ⟨entries, categories⟩

/-- `Array.isArray(row.entries) ? row.entries : []` -/
def rawEntries : Entry → List Entry
  | .array items => items
  | _ => []

/-- No navigation is an exception. -/
def getSidebarNavForAdmin (numberText : JsNumber → String) (s : Store) :
    Store × Option SidebarNav :=
  let (s, entries) := ensureRow s
  match coerceParentLockedSidebarEntries numberText (rawEntries entries) with
  | none => (s, none)
  | some (coerced, lockedChanged) =>
      let (coercedOfferwall, offerwallChanged) := coerceInternalOfferwallEarnRoot coerced
      let s := if lockedChanged || offerwallChanged then s.write coercedOfferwall else s
      match mergeMissingSidebarRegistryEntries numberText coercedOfferwall with
      | none => (s, none)
      | some (merged, mergeChanged) =>
          let s := if mergeChanged then s.write merged else s
          match validateSidebarEntriesPayload merged with
          | .error _ => (s.write defaultEntries, navOf defaultEntries)
          | .ok entries => (s, navOf entries)

end BlockMiner.Sidebar
