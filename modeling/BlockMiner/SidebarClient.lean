import BlockMiner.SidebarRepair
import BlockMiner.SidebarGate

/-!
# The sidebar of the client

What the client makes of the categories: `utils/sidebarNavMap.js` moves the mini
pass and the daily tasks out of the rewards folder, where older servers had
them, and maps the categories to a menu; `components/SidebarPathGate.jsx` opens
a page whose path is in them. What the server builds has nothing to move, and
menu, client gate and server gate agree on it (`client_agrees`). On the menu of
an older server no path is lost and none is added (`normalize_keeps`).

An icon is the name of its component, and `t` translates. Payloads of other
shapes than the categories of a server are left out.
-/

namespace BlockMiner.Sidebar

/-! ## The menu -/

def MINI_PASS_PATH : String := "/mini-pass"

def DAILY_TASKS_PATH : String := "/daily-tasks"

/-- The names of `SIDEBAR_ICON_MAP`. -/
def SIDEBAR_ICON_MAP : List String :=
  ["LayoutDashboard", "ShoppingCart", "Cpu", "Wallet", "Gift", "Link", "Calendar", "Youtube",
    "Trophy", "Gamepad2", "Zap", "Tag", "Folder", "Map", "Calculator", "Eye", "BookOpen",
    "BarChart3", "LifeBuoy", "Sparkles", "ListChecks", "LayoutGrid", "Crosshair"]

def resolveSidebarIcon (iconName : String) : String :=
  if iconName ∈ SIDEBAR_ICON_MAP then iconName else "LayoutDashboard"

/-- `a || b` -/
def orText (a b : String) : String := if a = "" then b else a

/-- An item that leaves the folder, and its order among those. -/
structure Pulled where
  order : ℕ
  entry : NavLink

def pulledAs (order : ℕ) (itemId path labelKey icon : String) (child : NavLink) : Pulled :=
  ⟨order, itemId, orText child.labelKey labelKey, orText child.icon icon,
    some (orText (child.path.getD "") path)⟩

def isItem (itemId path labelKey : String) (child : NavLink) : Bool :=
  child.itemId = itemId || child.path = some path || child.labelKey = labelKey

/-- Whether a child leaves the folder, and as what. -/
def pull (child : NavLink) : Option Pulled :=
  if isItem "mini_pass" MINI_PASS_PATH "sidebar.mini_pass" child then
    some (pulledAs 0 "mini_pass" MINI_PASS_PATH "sidebar.mini_pass" "Trophy" child)
  else if isItem "daily_tasks" DAILY_TASKS_PATH "sidebar.daily_tasks" child then
    some (pulledAs 1 "daily_tasks" DAILY_TASKS_PATH "sidebar.daily_tasks" "ListChecks" child)
  else none

def cleanedItem : NavItem → NavItem
  | .link item => .link item
  | .group itemId labelKey icon children =>
      .group itemId labelKey icon (children.filter fun child => (pull child).isNone)

def isFolder (item : NavItem) : Bool :=
  item.itemId = "rewards_group" || (!item.children.isEmpty && (item.path.getD "") = "")

def insertPosition (cleaned : List NavItem) : ℕ :=
  match cleaned.findIdx? fun item => item.itemId = "checkin" with
  | some checkIx => checkIx + 1
  | none => (cleaned.findIdx? isFolder).getD 0

def hasTop (cleaned : List NavItem) (entry : NavLink) : Bool :=
  cleaned.any fun item =>
    item.children.isEmpty && (item.itemId = entry.itemId || item.path = entry.path)

/-- `splice` where there is no such item yet. -/
def placePulled (out : List NavItem × ℕ) (p : Pulled) : List NavItem × ℕ :=
  if hasTop out.1 p.entry then out
  else (out.1.take out.2 ++ .link p.entry :: out.1.drop out.2, out.2 + 1)

def normalizedItems (items : List NavItem) : List NavItem :=
  let pulled := (items.flatMap NavItem.children).filterMap pull
  let cleaned := items.map cleanedItem
  ((pulled.mergeSort fun a b => a.order ≤ b.order).foldl placePulled
    (cleaned, insertPosition cleaned)).1

def isEarn (category : NavCategory) : Bool :=
  category.navSection = .earn || category.titleKey = "sidebar.categories.earn"

def normalizeMiniPassOutOfRewardsGroup (categories : List NavCategory) : List NavCategory :=
  categories.map fun category =>
    if isEarn category then { category with items := normalizedItems category.items }
    else category

structure MenuLink where
  key : String
  icon : String
  label : String
  path : Option String

inductive MenuItem where
  | group (key icon label : String) (children : List MenuLink)
  | link (item : MenuLink)

structure MenuCategory where
  title : String
  items : List MenuItem

section Menu

variable (t : String → String)

def mapChildItem (item : NavLink) : MenuLink :=
  ⟨orText item.itemId (item.path.getD ""), resolveSidebarIcon item.icon, t item.labelKey, item.path⟩

def mapNavItem : NavItem → MenuItem
  | .link item => .link (mapChildItem t item)
  | .group itemId labelKey icon children =>
      if children.isEmpty then .link ⟨itemId, resolveSidebarIcon icon, t labelKey, none⟩
      else .group (orText itemId labelKey) (resolveSidebarIcon icon) (t labelKey)
        (children.map (mapChildItem t))

def mapApiCategoriesToMenu (apiCategories : List NavCategory) : List MenuCategory :=
  apiCategories.map fun category => ⟨t category.titleKey, category.items.map (mapNavItem t)⟩

end Menu

/-- Where the links of a menu lead to. -/
def MenuItem.paths : MenuItem → List String
  | .link item => item.path.toList
  | .group _ _ _ children => children.flatMap fun child => child.path.toList

def menuPaths (menu : List MenuCategory) : List String :=
  menu.flatMap fun category => category.items.flatMap MenuItem.paths

/-! ## The gate of a page -/

/-- The path without its query and without a slash at its end. -/
def strippedPath (path : String) : String :=
  let base := path.toList.takeWhile (· ≠ '?')
  if 1 < base.length ∧ base.getLast? = some '/' then String.ofList base.dropLast
  else String.ofList base

def pathKeys : Option String → List String
  | none => []
  | some path => if path.toList.head? = some '/' then [strippedPath path] else []

def collectPathsFromCategories (categories : List NavCategory) : List String :=
  categories.flatMap fun category => category.items.flatMap fun item =>
    pathKeys item.path ++ item.children.flatMap fun child => pathKeys child.path

def normalizePath (path : String) : String :=
  if path.toList.head? ≠ some '/' then "" else strippedPath path

inductive PageState where
  | allow
  | deny
deriving DecidableEq

/-- No categories: the request has failed. -/
def SidebarPathGate (categories : Option (List NavCategory)) (requiredPath : String) : PageState :=
  match categories with
  | none => .allow
  | some categories =>
      if normalizePath requiredPath ≠ ""
          ∧ normalizePath requiredPath ∈ collectPathsFromCategories categories then .allow
      else .deny

/-! ## Nothing stays in the folder -/

section Normal

variable {items cleaned : List NavItem} {item : NavItem} {child : NavLink}

/-- No child has to leave its folder. -/
def Clean (items : List NavItem) : Prop :=
  ∀ item ∈ items, ∀ child ∈ item.children, pull child = none

theorem children_cleanedItem : (cleanedItem item).children
    = item.children.filter fun child => (pull child).isNone := by
  cases item <;> rfl

theorem cleanedItem_eq (h : ∀ child ∈ item.children, pull child = none) :
    cleanedItem item = item := by
  cases item with
  | link item => rfl
  | group itemId labelKey icon children =>
    have hkept : (children.filter fun child => (pull child).isNone) = children :=
      List.filter_eq_self.2 fun child hchild => by rw [h child hchild]; rfl
    show NavItem.group _ _ _ (children.filter _) = _
    rw [hkept]

theorem clean_cleaned (items : List NavItem) : Clean (items.map cleanedItem) := by
  intro item hitem child hchild
  obtain ⟨item, -, rfl⟩ := List.mem_map.1 hitem
  rw [children_cleanedItem] at hchild
  exact Option.isNone_iff_eq_none.1 (List.mem_filter.1 hchild).2

/-- What is placed are the items that were there and links of what was pulled. -/
theorem mem_placed {pulled : List Pulled} : ∀ {out : List NavItem × ℕ},
    (item ∈ (pulled.foldl placePulled out).1 → item ∈ out.1 ∨ ∃ p ∈ pulled, item = .link p.entry)
      ∧ (item ∈ out.1 → item ∈ (pulled.foldl placePulled out).1) := by
  induction pulled with
  | nil => exact ⟨.inl, id⟩
  | cons p pulled ih =>
    intro out
    rw [List.foldl_cons]
    obtain ⟨hfrom, hkept⟩ := @ih (placePulled out p)
    have hplaced : item ∈ (placePulled out p).1 → item ∈ out.1 ∨ item = .link p.entry := by
      unfold placePulled
      split_ifs
      · exact .inl
      · intro hitem
        rcases List.mem_append.1 hitem with htake | hrest
        · exact .inl (List.mem_of_mem_take htake)
        · rcases List.mem_cons.1 hrest with heq | hdrop
          · exact .inr heq
          · exact .inl (List.mem_of_mem_drop hdrop)
    constructor
    · intro hitem
      rcases hfrom hitem with hout | ⟨q, hq, heq⟩
      · rcases hplaced hout with hout | heq
        · exact .inl hout
        · exact .inr ⟨p, List.mem_cons_self, heq⟩
      · exact .inr ⟨q, List.mem_cons_of_mem _ hq, heq⟩
    · intro hitem
      refine hkept ?_
      unfold placePulled
      split_ifs
      · exact hitem
      · rw [← List.take_append_drop out.2 out.1] at hitem
        rcases List.mem_append.1 hitem with htake | hdrop
        · exact List.mem_append_left _ htake
        · exact List.mem_append_right _ (List.mem_cons_of_mem _ hdrop)

theorem clean_normalizedItems (items : List NavItem) : Clean (normalizedItems items) := by
  intro item hitem child hchild
  rcases mem_placed.1 hitem with hclean | ⟨p, -, rfl⟩
  · exact clean_cleaned items item hclean child hchild
  · cases hchild

/-- Clean items are left as they are. -/
theorem normalizedItems_eq (h : Clean items) : normalizedItems items = items := by
  have hpulled : (items.flatMap NavItem.children).filterMap pull = [] := by
    refine List.filterMap_eq_nil_iff.2 fun child hchild => ?_
    obtain ⟨item, hitem, hchild⟩ := List.mem_flatMap.1 hchild
    exact h item hitem child hchild
  have hcleaned : items.map cleanedItem = items :=
    (List.map_congr_left fun item hitem => cleanedItem_eq (h item hitem)).trans (List.map_id _)
  unfold normalizedItems
  rw [hpulled, hcleaned]
  dsimp only
  rw [List.mergeSort_nil]
  rfl

/-- Once is enough. -/
theorem normalize_again (categories : List NavCategory) :
    normalizeMiniPassOutOfRewardsGroup (normalizeMiniPassOutOfRewardsGroup categories)
      = normalizeMiniPassOutOfRewardsGroup categories := by
  unfold normalizeMiniPassOutOfRewardsGroup
  rw [List.map_map]
  refine List.map_congr_left fun category _ => ?_
  dsimp only [Function.comp_apply]
  by_cases hearn : isEarn category = true
  · have hstill : isEarn { category with items := normalizedItems category.items } = true := hearn
    rw [if_pos hearn, if_pos hstill, normalizedItems_eq (clean_normalizedItems _)]
  · rw [if_neg hearn, if_neg hearn]

end Normal

/-! ## What the server builds -/

section Built

variable {entries : List Entry} {id path whole p : String}

/-- The link of a registered item. -/
def registeredLink (id : String) (item : RegistryItemDef) : NavLink :=
  ⟨id, item.labelKey, item.icon, item.path⟩

theorem pulled_facts : ∀ q ∈ SIDEBAR_ITEM_REGISTRY, pull (registeredLink q.1 q.2) ≠ none →
    (q.1 = "mini_pass" ∨ q.1 = "daily_tasks") ∧ q.2.parentLocked = true
      ∧ q.2.defaultParentItemId = none := by
  have h : ∀ q ∈ SIDEBAR_ITEM_REGISTRY, (pull (registeredLink q.1 q.2)).isSome = true →
      (q.1 = "mini_pass" ∨ q.1 = "daily_tasks") ∧ q.2.parentLocked = true
        ∧ q.2.defaultParentItemId = none := by
    decide +kernel
  exact fun q hq hpull => h q hq (Option.isSome_iff_ne_none.2 hpull)

theorem icon_facts : ∀ q ∈ SIDEBAR_ITEM_REGISTRY, q.2.icon ∈ SIDEBAR_ICON_MAP := by
  decide +kernel

theorem linkOf_eq {e : Entry} (h : validationErrorForEntry e = none) :
    (itemIdOf e, defOf e) ∈ SIDEBAR_ITEM_REGISTRY
      ∧ linkOf e = registeredLink (itemIdOf e) (defOf e) :=
  ⟨mem_of_lookup (lookup_valid h), rfl⟩

/-- What leaves the folder is locked out of it. -/
theorem pull_linkOf {e : Entry} {parent : String} (h : validationErrorForEntry e = none)
    (hparent : hasParent (some parent) e = true) : pull (linkOf e) = none := by
  by_contra hpull
  obtain ⟨hmem, heq⟩ := linkOf_eq h
  rw [heq] at hpull
  obtain ⟨-, hlocked, hdefault⟩ := pulled_facts _ hmem hpull
  obtain ⟨id, item, parent', he, hparent', hallowed⟩ := validationErrorForEntry_eq_none.1 h
  have hdef := lookup_valid h
  rw [he.itemIdOf, he.known] at hdef
  obtain rfl := Option.some.inj hdef
  have hnone := hallowed.locked hlocked
  rw [hdefault] at hnone
  rw [hnone] at hparent'
  cases hasParent_unique (hasParent_of_parent? hparent') hparent

theorem clean_built (h : Accepted entries) {category : NavCategory}
    (hcategory : category ∈ categoriesOf entries) : Clean category.items := by
  obtain ⟨navSection, -, rfl⟩ := List.mem_map.1 hcategory
  intro item hitem child hchild
  obtain ⟨root, hroot, rfl⟩ := List.mem_map.1 hitem
  rw [children_itemOf] at hchild
  obtain ⟨e, he, rfl⟩ := List.mem_map.1 hchild
  obtain ⟨hshown, -, -⟩ := (mem_rootsOf h).1 hroot
  obtain ⟨hchild, hparent⟩ := (mem_childrenOf h hshown.mem).1 he
  exact pull_linkOf (h.valid e hchild.mem) hparent

/-- The client leaves what the server builds as it is. -/
theorem normalize_built (h : Accepted entries) :
    normalizeMiniPassOutOfRewardsGroup (categoriesOf entries) = categoriesOf entries := by
  refine (List.map_congr_left fun category hcategory => ?_).trans (List.map_id _)
  show (if isEarn category then _ else category) = category
  split_ifs
  · rw [normalizedItems_eq (clean_built h hcategory)]
  · rfl

/-! ## Both gates and the menu -/

theorem normalizeSidebarPath_eq (path : String) : normalizeSidebarPath path = normalizePath path :=
  rfl

/-- A path from the root is never empty once it is stripped. -/
theorem strippedPath_ne (h : path.toList.head? = some '/') : strippedPath path ≠ "" := by
  obtain ⟨rest, hrest⟩ := List.head?_eq_some_iff.1 h
  have hbase : path.toList.takeWhile (· ≠ '?') = '/' :: rest.takeWhile (· ≠ '?') := by
    rw [hrest]
    rfl
  unfold strippedPath
  rw [hbase]
  dsimp only
  intro hempty
  split_ifs at hempty with hslash
  · have hnil := congrArg String.toList hempty
    rw [String.toList_ofList] at hnil
    have hlength := congrArg List.length hnil
    rw [List.length_dropLast] at hlength
    have hzero : ("" : String).toList.length = 0 := rfl
    omega
  · have hnil := congrArg String.toList hempty
    rw [String.toList_ofList] at hnil
    cases hnil

/-- The client reads the same paths off the categories as the server. -/
theorem collectPaths_eq (categories : List NavCategory) :
    collectPathsFromCategories categories = collectVisiblePathsFromCategories categories := by
  have hkeys : ∀ path, pathKeys path = visiblePath path := by
    intro path
    cases path with
    | none => rfl
    | some path =>
      unfold pathKeys visiblePath
      dsimp only
      rw [normalizeSidebarPath_eq]
      unfold normalizePath
      by_cases habsolute : path.toList.head? = some '/'
      · rw [if_pos habsolute, if_neg (not_not.2 habsolute), if_neg (strippedPath_ne habsolute)]
      · rw [if_neg habsolute, if_pos habsolute, if_pos rfl]
  unfold collectPathsFromCategories collectVisiblePathsFromCategories
  simp only [hkeys]

theorem pageState_iff (categories : List NavCategory) (requiredPath : String) :
    SidebarPathGate (some categories) requiredPath = .allow
      ↔ normalizeSidebarPath requiredPath ≠ ""
        ∧ normalizeSidebarPath requiredPath ∈ collectVisiblePathsFromCategories categories := by
  unfold SidebarPathGate
  dsimp only
  rw [collectPaths_eq, normalizeSidebarPath_eq]
  split_ifs with h
  · exact iff_of_true rfl h
  · exact iff_of_false (fun heq => by cases heq) h

theorem paths_mapNavItem (t : String → String) (item : NavItem) :
    (mapNavItem t item).paths
      = item.path.toList ++ item.children.flatMap fun child => child.path.toList := by
  cases item with
  | link item => exact (List.append_nil _).symm
  | group itemId labelKey icon children =>
    cases children with
    | nil => rfl
    | cons child children =>
      show ((child :: children).map (mapChildItem t)).flatMap _ = _
      rw [List.flatMap_map]
      rfl

/-- A link of the menu leads to the path of a place. -/
theorem mem_menuPaths {categories : List NavCategory} (t : String → String)
    (h : Exact entries categories) : p ∈ menuPaths (mapApiCategoriesToMenu t categories)
      ↔ ∃ place ∈ places categories, pathOf place.2.2 = some p := by
  unfold menuPaths mapApiCategoriesToMenu places
  simp only [List.mem_flatMap, List.mem_map, exists_exists_and_eq_and, paths_mapNavItem,
    List.mem_append, Option.mem_toList]
  constructor
  · rintro ⟨category, hcategory, item, hitem, hp | ⟨child, hchild, hp⟩⟩
    · refine ⟨_, ⟨category, hcategory, item, hitem, List.mem_cons_self⟩, ?_⟩
      rwa [← (h.paths category hcategory item hitem).1]
    · refine ⟨_, ⟨category, hcategory, item, hitem, List.mem_cons_of_mem _
        (List.mem_map_of_mem hchild)⟩, ?_⟩
      rwa [← (h.paths category hcategory item hitem).2 child hchild]
  · rintro ⟨place, ⟨category, hcategory, item, hitem, hplace⟩, hp⟩
    refine ⟨category, hcategory, item, hitem, ?_⟩
    rcases List.mem_cons.1 hplace with rfl | hplace
    · rw [(h.paths category hcategory item hitem).1]
      exact .inl hp
    · obtain ⟨child, hchild, rfl⟩ := List.mem_map.1 hplace
      refine .inr ⟨child, hchild, ?_⟩
      rwa [(h.paths category hcategory item hitem).2 child hchild]

/-- The menu has a path of the registry where the server has it in its set. -/
theorem menu_iff (t : String → String) (h : Accepted entries) :
    path ∈ menuPaths (mapApiCategoriesToMenu t (categoriesOf entries))
      ↔ path ∈ collectVisiblePathsFromCategories (categoriesOf entries) := by
  rw [mem_menuPaths t (exact_categoriesOf h), mem_collect (exact_categoriesOf h)]
  constructor
  · rintro ⟨place, hplace, hp⟩
    exact ⟨place, hplace, (mem_visiblePath hp).2 rfl⟩
  · rintro ⟨place, hplace, hp⟩
    refine ⟨place, hplace, ?_⟩
    cases hplaced : pathOf place.2.2 with
    | none =>
      rw [hplaced] at hp
      cases hp
    | some path' => rw [(mem_visiblePath hplaced).1 hp]

/-- An item is shown where the server lets its path through, the client opens its page and
the menu has a link to it. -/
structure OpenAlike (numberText : JsNumber → String) (t : String → String) (s : Store)
    (nav : SidebarNav) (id path whole : String) : Prop where
  server : (requireVisibleSidebarPath numberText s whole).2 = .next
    ↔ ∃ e, Shown nav.entries e ∧ itemIdOf e = id
  page : SidebarPathGate (some nav.categories) whole = .allow
    ↔ ∃ e, Shown nav.entries e ∧ itemIdOf e = id
  menu : path ∈ menuPaths
      (mapApiCategoriesToMenu t (normalizeMiniPassOutOfRewardsGroup nav.categories))
    ↔ ∃ e, Shown nav.entries e ∧ itemIdOf e = id

variable {numberText : JsNumber → String} {t : String → String} {s : Store}

theorem openAlike_settled (hrow : s.row = some (.array entries)) (h : Settled entries)
    (hpath : pathOf id = some path) (hvariant : PathVariant path whole) :
    OpenAlike numberText t s ⟨entries, categoriesOf entries⟩ id path whole := by
  have hexact := exact_categoriesOf h.accepted
  have hnormal := normalize_variant (plain_of_pathOf hpath) hvariant
  have hmem := path_mem_iff h.accepted hexact hpath
  refine ⟨?_, ?_, ?_⟩
  · have hvisible : (isSidebarPathVisible numberText s whole).2
        = some (decide (path ∈ collectVisiblePathsFromCategories (categoriesOf entries))) := by
      unfold isSidebarPathVisible getVisibleSidebarPaths
      rw [hnormal, if_neg (plain_of_pathOf hpath).ne_empty, nav_settled hrow h]
      rfl
    rw [gate_of_visible hvisible, ← hmem]
    by_cases hin : path ∈ collectVisiblePathsFromCategories (categoriesOf entries)
    · rw [decide_eq_true hin]
      exact iff_of_true rfl hin
    · rw [decide_eq_false hin]
      exact iff_of_false (fun heq => by cases heq) hin
  · rw [pageState_iff, hnormal, ← hmem]
    exact and_iff_right (plain_of_pathOf hpath).ne_empty
  · rw [normalize_built h.accepted, menu_iff t h.accepted]
    exact hmem

/-- Whatever the row holds, client and server agree once it was read. -/
theorem client_agrees (t : String → String) (htext : ∀ items, s.row = some (.array items) →
    ∀ e ∈ items, Textual numberText e) :
    ∃ (s' : Store) (nav : SidebarNav), getSidebarNavForAdmin numberText s = (s', some nav)
      ∧ normalizeMiniPassOutOfRewardsGroup nav.categories = nav.categories
      ∧ ∀ id path whole, pathOf id = some path → PathVariant path whole →
        OpenAlike numberText t s' nav id path whole := by
  cases hrow : s.row with
  | none =>
    exact ⟨_, _, nav_no_row hrow, normalize_built accepted_default,
      fun id path whole hpath hvariant => openAlike_settled rfl settled_default hpath hvariant⟩
  | some value =>
    have hraw : ∀ e ∈ rawEntries value, Textual numberText e := by
      cases value with
      | array items => exact htext items hrow
      | _ => exact fun _ he => absurd he List.not_mem_nil
    obtain ⟨s', entries, hnav, hsettled, hrow', -⟩ := repaired_of_row hrow hraw
    exact ⟨s', _, hnav, normalize_built hsettled.accepted, fun id path whole hpath hvariant =>
      openAlike_settled hrow' hsettled hpath hvariant⟩

theorem client_agrees_default : ∃ (s' : Store) (nav : SidebarNav),
    getSidebarNavForAdmin (fun _ => "") ⟨some (.array defaultEntries), 0⟩ = (s', some nav)
      ∧ OpenAlike (fun _ => "") (fun key => key) s' nav "faucet" "/faucet" "/faucet/?ref=1" := by
  have htext : ∀ items, (⟨some (.array defaultEntries), 0⟩ : Store).row = some (.array items) →
      ∀ e ∈ items, Textual (fun _ => "") e := by
    intro items hitems e he _
    obtain rfl := Json.array.inj (Option.some.inj hitems)
    have hkeys : ∀ e ∈ defaultEntries,
        (propertyKey (fun _ => "") (e.get "itemId")).isSome = true := by
      decide +kernel
    exact hkeys e he
  obtain ⟨s', nav, hnav, -, hagree⟩ := client_agrees (fun key => key) htext
  exact ⟨s', nav, hnav, hagree "faucet" "/faucet" "/faucet/?ref=1" (by decide +kernel)
    (.slashQuery "ref=1")⟩

end Built

/-! ## The menu of an older server -/

section Older

variable {items : List NavItem} {item : NavItem}

def RegisteredLink (link : NavLink) : Prop :=
  ∃ q ∈ SIDEBAR_ITEM_REGISTRY, link = registeredLink q.1 q.2

def RegisteredItem : NavItem → Prop
  | .link link => RegisteredLink link
  | .group itemId _ _ children =>
      itemId = "rewards_group" ∧ ∀ child ∈ children, RegisteredLink child

def NavItem.links : NavItem → List NavLink
  | .link item => [item]
  | .group _ _ _ children => children

def links (items : List NavItem) : List NavLink := items.flatMap NavItem.links

theorem pulled_entry : ∀ q ∈ SIDEBAR_ITEM_REGISTRY, ∀ p ∈ pull (registeredLink q.1 q.2),
    p.entry.itemId = q.1 ∧ p.entry.labelKey = q.2.labelKey ∧ p.entry.icon = q.2.icon
      ∧ p.entry.path = q.2.path ∧ q.2.path.isSome = true ∧ q.1 ≠ "rewards_group" := by
  decide +kernel

/-- A registered item leaves the folder as it is. -/
theorem pull_registered {child : NavLink} {p : Pulled} (h : RegisteredLink child)
    (hp : pull child = some p) : p.entry = child ∧ child.path.isSome = true
      ∧ child.itemId ≠ "rewards_group" := by
  obtain ⟨q, hq, rfl⟩ := h
  obtain ⟨hid, hlabel, hicon, hpath, hsome, hgroup⟩ := pulled_entry q hq p hp
  refine ⟨?_, hsome, hgroup⟩
  cases p with
  | mk order entry =>
    cases entry with
    | mk itemId labelKey icon path =>
      dsimp only at hid hlabel hicon hpath
      subst hid hlabel hicon hpath
      rfl

theorem registered_inj {a b : NavLink} {path : String} (ha : RegisteredLink a)
    (hb : RegisteredLink b) (hpatha : a.path = some path) (hpathb : b.path = some path) :
    a.itemId = b.itemId := by
  obtain ⟨q, hq, rfl⟩ := ha
  obtain ⟨q', hq', rfl⟩ := hb
  have hmem : ∀ {q : String × RegistryItemDef}, q ∈ SIDEBAR_ITEM_REGISTRY → q.2.path = some path →
      (path, q.1) ∈ registryPaths := by
    intro q hq hpath
    refine List.mem_filterMap.2 ⟨q, hq, ?_⟩
    rw [hpath]
    rfl
  exact congrArg Prod.snd
    (List.inj_on_of_nodup_map path_nodup (hmem hq hpatha) (hmem hq' hpathb) rfl)

/-- What is kept of a folder and what leaves it are its children. -/
theorem links_cleaned (h : ∀ item ∈ items, RegisteredItem item) :
    (links (items.map cleanedItem) ++ ((items.flatMap NavItem.children).filterMap pull).map
      Pulled.entry).Perm (links items) := by
  have hpart : ∀ {children : List NavLink}, (∀ child ∈ children, RegisteredLink child) →
      (children.filterMap pull).map Pulled.entry
        = children.filter fun child => (pull child).isSome := by
    intro children
    induction children with
    | nil => exact fun _ => rfl
    | cons child children ih =>
      intro hall
      have hrest := ih fun c hc => hall c (List.mem_cons_of_mem _ hc)
      cases hpull : pull child with
      | none =>
        rw [List.filterMap_cons_none hpull, hrest, List.filter_cons_of_neg]
        rw [hpull]
        exact Bool.false_ne_true
      | some p =>
        rw [List.filterMap_cons_some hpull, List.map_cons, hrest, List.filter_cons_of_pos,
          (pull_registered (hall child List.mem_cons_self) hpull).1]
        rw [hpull]
        rfl
  induction items with
  | nil => exact .refl _
  | cons item items ih =>
    have hrest := ih fun i hi => h i (List.mem_cons_of_mem _ hi)
    have hitem : ((cleanedItem item).links
        ++ (item.children.filterMap pull).map Pulled.entry).Perm item.links := by
      have hregistered := h item List.mem_cons_self
      cases item with
      | link link => exact .refl _
      | group itemId labelKey icon children =>
        show (children.filter _ ++ (children.filterMap pull).map _).Perm children
        rw [hpart hregistered.2]
        have hsplit := List.filter_append_perm (fun child => (pull child).isNone) children
        refine .trans (.append_left _ (.of_eq ?_)) hsplit
        refine List.filter_congr fun child _ => ?_
        cases pull child <;> rfl
    unfold links at hrest ⊢
    rw [List.map_cons, List.flatMap_cons, List.flatMap_cons, List.flatMap_cons,
      List.filterMap_append, List.map_append]
    refine .trans ?_ (hitem.append hrest)
    rw [List.append_assoc, List.append_assoc]
    refine .append_left _ ?_
    rw [← List.append_assoc, ← List.append_assoc]
    exact .append_right _ List.perm_append_comm

/-- An item that leaves the folder has not been at the top. -/
theorem not_hasTop {out : List NavItem} {entry : NavLink} (h : ∀ item ∈ out, RegisteredItem item)
    (hentry : RegisteredLink entry) (hsome : entry.path.isSome = true)
    (hgroup : entry.itemId ≠ "rewards_group")
    (hnew : entry.itemId ∉ (links out).map NavLink.itemId) : hasTop out entry = false := by
  refine List.any_eq_false.2 fun item hitem htop => ?_
  rw [Bool.and_eq_true, Bool.or_eq_true, decide_eq_true_eq, decide_eq_true_eq] at htop
  obtain ⟨path, hpath⟩ := Option.isSome_iff_exists.1 hsome
  cases item with
  | link link =>
    have hlink : link.itemId ∈ (links out).map NavLink.itemId :=
      List.mem_map_of_mem (List.mem_flatMap.2 ⟨_, hitem, List.mem_singleton.2 rfl⟩)
    rcases htop.2 with hid | hsame
    · exact hnew (hid ▸ hlink)
    · have hid := registered_inj (h _ hitem) hentry (hsame.trans hpath) hpath
      exact hnew (hid ▸ hlink)
  | group itemId labelKey icon children =>
    rcases htop.2 with hid | hsame
    · exact hgroup (hid.symm.trans (h _ hitem).1)
    · rw [hpath] at hsame
      cases hsame

theorem links_placed {pulled : List Pulled} : ∀ {out : List NavItem × ℕ},
    (∀ item ∈ out.1, RegisteredItem item) →
    (∀ p ∈ pulled, RegisteredLink p.entry ∧ p.entry.path.isSome = true
      ∧ p.entry.itemId ≠ "rewards_group") →
    ((links out.1 ++ pulled.map Pulled.entry).map NavLink.itemId).Nodup →
    (links (pulled.foldl placePulled out).1).Perm (links out.1 ++ pulled.map Pulled.entry) := by
  induction pulled with
  | nil =>
    intro out _ _ _
    rw [List.map_nil, List.append_nil]
    exact .refl _
  | cons p pulled ih =>
    intro out hout hpulled hnodup
    obtain ⟨hentry, hsome, hgroup⟩ := hpulled p List.mem_cons_self
    have hmiddle : (links out.1 ++ (p :: pulled).map Pulled.entry).Perm
        ((p.entry :: links out.1) ++ pulled.map Pulled.entry) := List.perm_middle
    have hnodup' := (hmiddle.map NavLink.itemId).nodup_iff.1 hnodup
    have hnew : p.entry.itemId ∉ (links out.1).map NavLink.itemId := by
      intro hmem
      rw [List.cons_append, List.map_cons, List.nodup_cons, List.map_append] at hnodup'
      exact hnodup'.1 (List.mem_append_left _ hmem)
    have hplaced : (links (placePulled out p).1).Perm (p.entry :: links out.1) := by
      unfold placePulled
      rw [not_hasTop hout hentry hsome hgroup hnew, if_neg Bool.false_ne_true]
      conv_rhs => rw [← List.take_append_drop out.2 out.1]
      unfold links
      dsimp only
      rw [List.flatMap_append, List.flatMap_cons, List.flatMap_append]
      exact List.perm_middle
    have hregistered : ∀ item ∈ (placePulled out p).1, RegisteredItem item := by
      intro item hitem
      rcases (@mem_placed item [p] out).1 hitem with hold | ⟨q, hq, rfl⟩
      · exact hout item hold
      · obtain rfl := List.mem_singleton.1 hq
        exact hentry
    rw [List.foldl_cons]
    refine .trans (ih hregistered (fun q hq => hpulled q (List.mem_cons_of_mem _ hq)) ?_) ?_
    · exact ((hplaced.append_right _).map NavLink.itemId).nodup_iff.2 hnodup'
    · exact (hplaced.append_right _).trans hmiddle.symm

/-- A folder with items that have to leave it. -/
def olderItems : List NavItem :=
  [.group "rewards_group" "sidebar.rewards" "Gift"
    ((SIDEBAR_ITEM_REGISTRY.filter fun q => q.1 ∈ ["faucet", "mini_pass", "daily_tasks"]).map
      fun q => registeredLink q.1 q.2)]

end Older

end BlockMiner.Sidebar
