import BlockMiner.SidebarMenu
import Mathlib.Data.List.TakeWhile

/-!
# The gate of the features

`sidebarNavService.js` from `normalizeSidebarPath` on, and
`sidebarFeatureGate.js`: a route is open while its path is in the menu. The menu
is the one of the row as `getSidebarNavForAdmin` repairs it, so an internal
offerwall that the row has as a root is gated as an item of the rewards group.
-/

namespace BlockMiner.Sidebar

/-! ## Paths -/

def normalizeSidebarPath (path : String) : String :=
  if path.toList.head? ≠ some '/' then ""
  else
    let base := path.toList.takeWhile (· ≠ '?')
    if 1 < base.length ∧ base.getLast? = some '/' then String.ofList base.dropLast
    else String.ofList base

/-- What a path adds to the set. -/
def visiblePath : Option String → List String
  | none => []
  | some path => if normalizeSidebarPath path = "" then [] else [normalizeSidebarPath path]

def collectVisiblePathsFromCategories (categories : List NavCategory) : List String :=
  categories.flatMap fun category => category.items.flatMap fun item =>
    visiblePath item.path ++ item.children.flatMap fun child => visiblePath child.path

section Gate

variable (numberText : JsNumber → String) (s : Store)

def getVisibleSidebarPaths : Store × Option (List String) :=
  let (s, nav) := getSidebarNavForAdmin numberText s
  (s, nav.map fun nav => collectVisiblePathsFromCategories nav.categories)

/-- No answer is an exception. -/
def isSidebarPathVisible (path : String) : Store × Option Bool :=
  let normalized := normalizeSidebarPath path
  if normalized = "" then (s, some false)
  else
    let (s, paths) := getVisibleSidebarPaths numberText s
    (s, paths.map fun paths => decide (normalized ∈ paths))

inductive GateResult where
  | next
  | json (status : ℕ) (ok : Bool) (code message : String)
  | nextError
deriving DecidableEq

def featureDisabled : GateResult :=
  .json 403 false "feature_disabled" "This feature is not available."

def requireVisibleSidebarPath (requiredPath : String) : Store × GateResult :=
  match isSidebarPathVisible numberText s requiredPath with
  | (s, some allowed) => (s, if !allowed then featureDisabled else .next)
  | (s, none) => (s, .nextError)

end Gate

/-! ## Ways to write a path -/

/-- The path, perhaps with a slash at its end and with a query. -/
inductive PathVariant (path : String) : String → Prop
  | plain : PathVariant path path
  | slash : PathVariant path (path ++ "/")
  | query (q : String) : PathVariant path (path ++ "?" ++ q)
  | slashQuery (q : String) : PathVariant path (path ++ "/?" ++ q)

/-- A path with nothing to normalize. -/
structure Plain (path : String) : Prop where
  absolute : path.toList.head? = some '/'
  noQuery : ∀ c ∈ path.toList, c ≠ '?'
  noSlash : path.toList.getLast? ≠ some '/'

theorem Plain.ne_empty {path : String} (h : Plain path) : path ≠ "" := by
  rintro rfl
  cases h.absolute

theorem normalize_of_base {path whole : String} (h : Plain path) {t : List Char}
    (hwhole : whole.toList = path.toList ++ t)
    (hbase : t.takeWhile (· ≠ '?') = [] ∨ t.takeWhile (· ≠ '?') = ['/']) :
    normalizeSidebarPath whole = path := by
  have hhead : whole.toList.head? = some '/' := by
    rw [hwhole, List.head?_append, h.absolute]
    rfl
  have htake : whole.toList.takeWhile (· ≠ '?')
      = path.toList ++ t.takeWhile (· ≠ '?') := by
    rw [hwhole, List.takeWhile_append_of_pos fun c hc => decide_eq_true (h.noQuery c hc)]
  unfold normalizeSidebarPath
  rw [if_neg (not_not.2 hhead), htake]
  dsimp only
  rcases hbase with hnil | hslash
  · rw [hnil, List.append_nil, if_neg fun hlast => h.noSlash hlast.2, String.ofList_toList]
  · have hne : path.toList ≠ [] := by
      intro hnil
      have := h.absolute
      rw [hnil] at this
      cases this
    have hpos := List.length_pos_iff.2 hne
    rw [hslash, if_pos, List.dropLast_concat, String.ofList_toList]
    rw [List.length_append, List.length_singleton, List.getLast?_concat]
    exact ⟨by omega, rfl⟩

/-- However a plain path is written, it is compared as it is. -/
theorem normalize_variant {path whole : String} (h : Plain path)
    (hvariant : PathVariant path whole) : normalizeSidebarPath whole = path := by
  cases hvariant with
  | plain => exact normalize_of_base h (List.append_nil _).symm (.inl rfl)
  | slash => exact normalize_of_base h (String.toList_append ..) (.inr rfl)
  | query q =>
    refine normalize_of_base h ?_ (.inl rfl) (t := '?' :: q.toList)
    rw [String.toList_append, String.toList_append, List.append_assoc]
    rfl
  | slashQuery q =>
    refine normalize_of_base h ?_ (.inr rfl) (t := '/' :: '?' :: q.toList)
    rw [String.toList_append, String.toList_append, List.append_assoc]
    rfl

/-! ## The paths of the registry -/

/-- Each path with its item. -/
def registryPaths : List (String × String) :=
  SIDEBAR_ITEM_REGISTRY.filterMap fun p => p.2.path.map fun path => (path, p.1)

theorem path_nodup : (registryPaths.map Prod.fst).Nodup := by
  decide +kernel

theorem path_plain : ∀ p ∈ registryPaths, p.1.toList.head? = some '/'
    ∧ (∀ c ∈ p.1.toList, c ≠ '?') ∧ p.1.toList.getLast? ≠ some '/' := by
  simp [registryPaths, SIDEBAR_ITEM_REGISTRY]

theorem mem_registryPaths {id path : String} (h : pathOf id = some path) :
    (path, id) ∈ registryPaths := by
  obtain ⟨item, hlookup, hpath⟩ := Option.bind_eq_some_iff.1 h
  refine List.mem_filterMap.2 ⟨(id, item), mem_of_lookup hlookup, ?_⟩
  rw [hpath]
  rfl

theorem plain_of_pathOf {id path : String} (h : pathOf id = some path) : Plain path := by
  obtain ⟨habsolute, hquery, hslash⟩ := path_plain _ (mem_registryPaths h)
  exact ⟨habsolute, hquery, hslash⟩

/-- No two items have one path. -/
theorem pathOf_inj {id id' path : String} (h : pathOf id = some path)
    (h' : pathOf id' = some path) : id = id' := by
  have heq := List.inj_on_of_nodup_map path_nodup (mem_registryPaths h) (mem_registryPaths h') rfl
  exact congrArg Prod.snd heq

theorem mem_visiblePath {id path p : String} (h : pathOf id = some path) :
    p ∈ visiblePath (pathOf id) ↔ p = path := by
  have hplain := plain_of_pathOf h
  rw [h]
  unfold visiblePath
  dsimp only
  rw [normalize_variant hplain .plain, if_neg hplain.ne_empty, List.mem_singleton]

/-! ## The menu and the gate -/

section Agreement

variable {entries : List Entry} {categories : List NavCategory} {id path whole p : String}

/-- The set has the paths of the places. -/
theorem mem_collect (h : Exact entries categories) :
    p ∈ collectVisiblePathsFromCategories categories
      ↔ ∃ place ∈ places categories, p ∈ visiblePath (pathOf place.2.2) := by
  unfold collectVisiblePathsFromCategories places
  simp only [List.mem_flatMap, List.mem_append]
  constructor
  · rintro ⟨category, hcategory, item, hitem, hp | ⟨child, hchild, hp⟩⟩
    · refine ⟨_, ⟨category, hcategory, item, hitem, List.mem_cons_self⟩, ?_⟩
      rwa [← (h.paths category hcategory item hitem).1]
    · refine ⟨_, ⟨category, hcategory, item, hitem, List.mem_cons_of_mem _
        (List.mem_map_of_mem hchild)⟩, ?_⟩
      rwa [← (h.paths category hcategory item hitem).2 child hchild]
  · rintro ⟨place, ⟨category, hcategory, item, hitem, hplace⟩, hp⟩
    refine ⟨category, hcategory, item, hitem, ?_⟩
    rcases List.mem_cons.1 hplace with rfl | hplace
    · rw [(h.paths category hcategory item hitem).1]
      exact .inl hp
    · obtain ⟨child, hchild, rfl⟩ := List.mem_map.1 hplace
      refine .inr ⟨child, hchild, ?_⟩
      rwa [(h.paths category hcategory item hitem).2 child hchild]

/-- A path of the registry is in the set where its item is shown. -/
theorem path_mem_iff (haccepted : Accepted entries) (h : Exact entries categories)
    (hpath : pathOf id = some path) : path ∈ collectVisiblePathsFromCategories categories
      ↔ ∃ e, Shown entries e ∧ itemIdOf e = id := by
  rw [mem_collect h]
  constructor
  · rintro ⟨⟨navSection, parent, id'⟩, hplace, hp⟩
    cases hpath' : pathOf id' with
    | none =>
      rw [hpath'] at hp
      exact absurd hp List.not_mem_nil
    | some path' =>
      obtain rfl := (mem_visiblePath hpath').1 hp
      obtain rfl := pathOf_inj hpath hpath'
      obtain ⟨e, hshown, hid, -⟩ := (h.shown ..).1 hplace
      exact ⟨e, hshown, hid⟩
  · rintro ⟨e, hshown, hid⟩
    have hvalid := haccepted.valid e hshown.mem
    have hparent : ∃ parent, hasParent parent e = true := by
      rcases parent_cases hvalid with hnone | ⟨hgroup, -⟩
      · exact ⟨_, hnone⟩
      · exact ⟨_, hgroup⟩
    obtain ⟨parent, hparent⟩ := hparent
    exact ⟨_, (h.shown _ parent id).2 ⟨e, hshown, hid, section_valid hvalid, hparent⟩,
      (mem_visiblePath hpath).2 rfl⟩

variable {numberText : JsNumber → String} {s : Store}

/-- The row of an accepted list answers for the entries with the offerwall in its group. -/
theorem nav_of_row (hrow : s.row = some (.array entries)) (h : Accepted entries) :
    (getSidebarNavForAdmin numberText s).2 = some ⟨(coerceInternalOfferwallEarnRoot entries).1,
      categoriesOf (coerceInternalOfferwallEarnRoot entries).1⟩ := by
  rw [nav_accepted hrow h]
  unfold navOf
  rw [build_valid h.coerce.valid]
  rfl

theorem visible_of_row (hrow : s.row = some (.array entries)) (h : Accepted entries)
    (hpath : pathOf id = some path) (hvariant : PathVariant path whole) :
    ∃ b, (isSidebarPathVisible numberText s whole).2 = some b
      ∧ (b = true
        ↔ ∃ e, Shown (coerceInternalOfferwallEarnRoot entries).1 e ∧ itemIdOf e = id) := by
  have hplain := plain_of_pathOf hpath
  refine ⟨decide (path ∈ collectVisiblePathsFromCategories
    (categoriesOf (coerceInternalOfferwallEarnRoot entries).1)), ?_, ?_⟩
  · unfold isSidebarPathVisible getVisibleSidebarPaths
    rw [normalize_variant hplain hvariant, if_neg hplain.ne_empty]
    dsimp only
    rw [nav_of_row hrow h]
    rfl
  · rw [decide_eq_true_eq]
    exact path_mem_iff h.coerce (exact_categoriesOf h.coerce) hpath

theorem gate_of_visible {b : Bool} (h : (isSidebarPathVisible numberText s whole).2 = some b) :
    (requireVisibleSidebarPath numberText s whole).2 = if b then .next else featureDisabled := by
  unfold requireVisibleSidebarPath
  cases hvisible : isSidebarPathVisible numberText s whole with
  | mk s' answer =>
    rw [hvisible] at h
    obtain rfl : answer = some b := h
    cases b <;> rfl

/-- The menu of an accepted list is exact, and the gate of its row is the menu that is shown. -/
theorem menu_gates_exactly {out : List Entry}
    (h : validateSidebarEntriesPayload entries = .ok out) :
    (∃ categories, buildResolvedCategories entries = some categories ∧ Exact entries categories)
      ∧ ∀ (numberText : JsNumber → String) (s : Store), s.row = some (.array entries) →
        ∃ nav, (getSidebarNavForAdmin numberText s).2 = some nav
          ∧ nav.entries = (coerceInternalOfferwallEarnRoot entries).1
          ∧ Exact nav.entries nav.categories
          ∧ ∀ id path whole, pathOf id = some path → PathVariant path whole →
            ∃ b, (isSidebarPathVisible numberText s whole).2 = some b
              ∧ (b = true ↔ ∃ e, Shown nav.entries e ∧ itemIdOf e = id)
              ∧ (requireVisibleSidebarPath numberText s whole).2
                = if b then .next else featureDisabled := by
  obtain ⟨-, haccepted⟩ := validate_eq_ok.1 h
  refine ⟨⟨_, build_valid haccepted.valid, exact_categoriesOf haccepted⟩, fun numberText s hrow =>
    ⟨_, nav_of_row hrow haccepted, rfl, exact_categoriesOf haccepted.coerce, ?_⟩⟩
  intro id path whole hpath hvariant
  obtain ⟨b, hvisible, hiff⟩ : ∃ b, (isSidebarPathVisible numberText s whole).2 = some b ∧ _ :=
    visible_of_row hrow haccepted hpath hvariant
  exact ⟨b, hvisible, hiff, gate_of_visible hvisible⟩

theorem menu_gates_exactly_default :
    validateSidebarEntriesPayload defaultEntries = .ok defaultEntries
      ∧ ∃ b, (isSidebarPathVisible (fun _ => "") ⟨some (.array defaultEntries), 0⟩
          "/faucet/?ref=1").2 = some b
        ∧ (b = true ↔ ∃ e, Shown (coerceInternalOfferwallEarnRoot defaultEntries).1 e
          ∧ itemIdOf e = "faucet") := by
  have hok := validate_eq_ok.2 ⟨rfl, accepted_default⟩
  obtain ⟨nav, -, hentries, -, hgate⟩ := (menu_gates_exactly hok).2 (fun _ => "")
    ⟨some (.array defaultEntries), 0⟩ rfl
  obtain ⟨b, hvisible, hiff, -⟩ := hgate "faucet" "/faucet" "/faucet/?ref=1" (by decide +kernel)
    (.slashQuery "ref=1")
  rw [hentries] at hiff
  exact ⟨hok, b, hvisible, hiff⟩

/-- The rewards group is hidden, and the offerwall is not in it. -/
def offerwallAtRoot : List Entry := buildDefaultSidebarEntries.map fun e =>
  if e.itemId = "rewards_group" then { e with visible := false }.json
  else if e.itemId = "internal_offerwall" then { e with parentItemId := none }.json
  else e.json

theorem accepted_offerwallAtRoot : Accepted offerwallAtRoot :=
  ⟨by decide +kernel, by decide +kernel, rfl⟩

/-- The menu of the list has the offerwall; the gate of its row has it closed. -/
theorem menu_without_gate :
    validateSidebarEntriesPayload offerwallAtRoot = .ok offerwallAtRoot
      ∧ (∃ categories, buildResolvedCategories offerwallAtRoot = some categories
        ∧ (.earn, none, "internal_offerwall") ∈ places categories)
      ∧ pathOf "internal_offerwall" = some "/internal-offerwall"
      ∧ ∀ numberText, (isSidebarPathVisible numberText ⟨some (.array offerwallAtRoot), 0⟩
          "/internal-offerwall").2 = some false
        ∧ (requireVisibleSidebarPath numberText ⟨some (.array offerwallAtRoot), 0⟩
          "/internal-offerwall").2 = featureDisabled := by
  have hpath : pathOf "internal_offerwall" = some "/internal-offerwall" := by decide +kernel
  refine ⟨validate_eq_ok.2 ⟨rfl, accepted_offerwallAtRoot⟩,
    ⟨_, build_valid accepted_offerwallAtRoot.valid, ?_⟩, hpath, fun numberText => ?_⟩
  · rw [mem_places accepted_offerwallAtRoot]
    have hentry : ∃ e ∈ offerwallAtRoot, isVisible e = true
        ∧ itemIdOf e = "internal_offerwall" ∧ navSection? (e.get "section") = some .earn
        ∧ hasParent none e = true := by
      decide +kernel
    obtain ⟨e, he, hvisible, hid, hsection, hnone⟩ := hentry
    refine ⟨e, ⟨he, hvisible, fun id hid => ?_⟩, hid, hsection, hnone⟩
    cases hasParent_unique hnone hid
  · -- coerced, it is in the group, and the group is hidden
    have hgroup : ∀ e ∈ (coerceInternalOfferwallEarnRoot offerwallAtRoot).1,
        (itemIdOf e = "internal_offerwall" → hasParent (some "rewards_group") e = true)
          ∧ (itemIdOf e = "rewards_group" → isVisible e = false) := by
      decide +kernel
    obtain ⟨b, hvisible, hiff⟩ : ∃ b, (isSidebarPathVisible numberText
        ⟨some (.array offerwallAtRoot), 0⟩ "/internal-offerwall").2 = some b ∧ _ :=
      visible_of_row rfl accepted_offerwallAtRoot hpath .plain
    have hhidden : b = false := by
      rw [Bool.eq_false_iff, ne_eq, hiff]
      rintro ⟨e, hshown, hid⟩
      obtain ⟨g, hg, hgid, hgvisible⟩ := hshown.group _ ((hgroup e hshown.mem).1 hid)
      rw [(hgroup g hg).2 hgid] at hgvisible
      cases hgvisible
    rw [hhidden] at hvisible
    exact ⟨hvisible, gate_of_visible hvisible⟩

end Agreement

end BlockMiner.Sidebar
