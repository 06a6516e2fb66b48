import BlockMiner.SidebarValid
import Mathlib.Data.List.Nodup

/-!
# The menu of an accepted list

The categories that `buildResolvedCategories` makes of a list that was accepted:
every item that is shown stands in one place, which its section and its parent
say, and siblings stand in their order.
-/

namespace BlockMiner.Sidebar

/-! ## Places -/

def NavItem.itemId : NavItem → String
  | .link item => item.itemId
  | .group itemId _ _ _ => itemId

def NavItem.path : NavItem → Option String
  | .link item => item.path
  | .group _ _ _ _ => none

def NavItem.children : NavItem → List NavLink
  | .link _ => []
  | .group _ _ _ children => children

/-- The section, the group in it if there is one, and the item. -/
abbrev Place := SidebarSection × Option String × String

def NavItem.places (navSection : SidebarSection) (item : NavItem) : List Place :=
  (navSection, none, item.itemId)
    :: item.children.map fun child => (navSection, some item.itemId, child.itemId)

def places (categories : List NavCategory) : List Place :=
  categories.flatMap fun category => category.items.flatMap (NavItem.places category.navSection)

/-- The entry is visible and so is the group it is in. -/
structure Shown (entries : List Entry) (e : Entry) : Prop where
  mem : e ∈ entries
  visible : isVisible e = true
  group : ∀ id, hasParent (some id) e = true →
    ∃ g ∈ entries, itemIdOf g = id ∧ isVisible g = true

def sortOrderOf (e : Entry) : ℚ :=
  match e.get "sortOrder" with
  | some (.number (.finite q)) => q
  | _ => 0

/-- The items with the ids stand in the order that the entries say. -/
def InOrder (entries : List Entry) (ids : List String) : Prop :=
  ids.Pairwise fun a b => ∀ x ∈ entries, ∀ y ∈ entries, itemIdOf x = a → itemIdOf y = b →
    sortOrderOf x ≤ sortOrderOf y

def pathOf (id : String) : Option String :=
  (SIDEBAR_ITEM_REGISTRY.lookup id).bind RegistryItemDef.path

/-- The categories show what the entries say and nothing else. -/
structure Exact (entries : List Entry) (categories : List NavCategory) : Prop where
  sections : (categories.map fun category => (category.navSection, category.titleKey))
    = SIDEBAR_SECTIONS.map fun navSection => (navSection, CATEGORY_TITLE_KEYS navSection)
  once : ((places categories).map fun place => place.2.2).Nodup
  shown : ∀ navSection parent id, (navSection, parent, id) ∈ places categories ↔
    ∃ e, Shown entries e ∧ itemIdOf e = id ∧ navSection? (e.get "section") = some navSection
      ∧ hasParent parent e = true
  roots : ∀ category ∈ categories, InOrder entries (category.items.map NavItem.itemId)
  siblings : ∀ category ∈ categories, ∀ item ∈ category.items,
    InOrder entries (item.children.map NavLink.itemId)
  paths : ∀ category ∈ categories, ∀ item ∈ category.items, item.path = pathOf item.itemId
    ∧ ∀ child ∈ item.children, child.path = pathOf child.itemId

/-! ## The categories of valid entries -/

/-- The item of the registry that a valid entry has. -/
def defOf (e : Entry) : RegistryItemDef :=
  (SIDEBAR_ITEM_REGISTRY.lookup (itemIdOf e)).getD
    { path := none, labelKey := "", icon := "", navSection := .main, defaultParentItemId := none }

def linkOf (e : Entry) : NavLink := ⟨itemIdOf e, (defOf e).labelKey, (defOf e).icon, (defOf e).path⟩

def childrenOf (active : List Entry) (root : Entry) : List Entry :=
  if (defOf root).isGroup then bySortOrder (active.filter (hasParent (some (itemIdOf root))))
  else []

def itemOf (active : List Entry) (root : Entry) : NavItem :=
  if (defOf root).isGroup then
    .group (itemIdOf root) (defOf root).labelKey (defOf root).icon
      ((childrenOf active root).map linkOf)
  else .link (linkOf root)

def rootsOf (active : List Entry) (navSection : SidebarSection) : List Entry :=
  bySortOrder (active.filter fun e =>
    navSection? (e.get "section") = some navSection && hasParent none e)

def categoriesOf (entries : List Entry) : List NavCategory :=
  SIDEBAR_SECTIONS.map fun navSection => ⟨navSection, CATEGORY_TITLE_KEYS navSection,
    (rootsOf (activeEntries entries) navSection).map (itemOf (activeEntries entries))⟩

section Build

variable {entries : List Entry} {e : Entry}

theorem mem_bySortOrder : e ∈ bySortOrder entries ↔ e ∈ entries := List.mem_mergeSort

theorem lookup_valid (h : validationErrorForEntry e = none) :
    SIDEBAR_ITEM_REGISTRY.lookup (itemIdOf e) = some (defOf e) := by
  obtain ⟨id, item, -, he, -⟩ := validationErrorForEntry_eq_none.1 h
  unfold defOf
  rw [he.itemIdOf, he.known]
  rfl

theorem navLink_valid (h : validationErrorForEntry e = none) : navLink e = some (linkOf e) := by
  unfold navLink
  rw [lookup_valid h]
  rfl

theorem navItem_valid {active : List Entry} {root : Entry}
    (h : ∀ e ∈ active, validationErrorForEntry e = none) (hroot : root ∈ active) :
    navItem active root = some (itemOf active root) := by
  unfold navItem itemOf childrenOf
  rw [lookup_valid (h root hroot)]
  dsimp only [Option.bind_eq_bind, Option.bind_some]
  cases hgroup : (defOf root).isGroup
  · rfl
  · rw [if_pos rfl, if_pos rfl, if_pos rfl, mapM_map fun e he => navLink_valid (h e ?_)]
    · rfl
    · exact (List.mem_filter.1 (mem_bySortOrder.1 he)).1

/-- No valid entry is without its category. -/
theorem build_valid (h : ∀ e ∈ entries, validationErrorForEntry e = none) :
    buildResolvedCategories entries = some (categoriesOf entries) := by
  have hactive : ∀ e ∈ activeEntries entries, validationErrorForEntry e = none :=
    fun e he => h e (List.mem_filter.1 he).1
  unfold buildResolvedCategories
  refine mapM_map fun navSection _ => ?_
  unfold rowsForSection
  rw [mapM_map fun root hroot =>
    navItem_valid hactive (List.mem_filter.1 (mem_bySortOrder.1 hroot)).1]
  rfl

end Build

/-! ## What is shown -/

section Standing

variable {entries : List Entry} {e root : Entry}

theorem hasParent_unique {p q : Option String} (hp : hasParent p e = true)
    (hq : hasParent q e = true) : p = q := by
  unfold hasParent at hp hq
  split at hp
  · next h =>
    rw [h] at hq
    rw [of_decide_eq_true hp, of_decide_eq_true hq]
  · next s h =>
    rw [h] at hq
    rw [of_decide_eq_true hp, of_decide_eq_true hq]
  · cases hp

theorem hasParent_of_parent? {p : Option String} (h : parent? (e.get "parentItemId") = some p) :
    hasParent p e = true := by
  unfold parent? at h
  unfold hasParent
  split at h
  · next hget =>
    rw [hget, ← Option.some.inj h]
    rfl
  · next s hget =>
    split_ifs at h
    rw [hget, ← Option.some.inj h]
    exact decide_eq_true rfl
  · cases h

theorem group_facts : ∀ p ∈ SIDEBAR_ITEM_REGISTRY, p.2.isGroup = true ↔ p.1 = "rewards_group" := by
  decide +kernel

theorem isGroup_iff (h : validationErrorForEntry e = none) :
    (defOf e).isGroup = true ↔ itemIdOf e = "rewards_group" :=
  group_facts _ (mem_of_lookup (lookup_valid h))

theorem section_valid (h : validationErrorForEntry e = none) :
    navSection? (e.get "section") = some (defOf e).navSection := by
  obtain ⟨id, item, -, he, -⟩ := validationErrorForEntry_eq_none.1 h
  have hdef := lookup_valid h
  rw [he.itemIdOf, he.known] at hdef
  rw [← Option.some.inj hdef]
  exact he.navSection

/-- An entry is a root, or the group has it. -/
theorem parent_cases (h : validationErrorForEntry e = none) : hasParent none e = true
    ∨ hasParent (some "rewards_group") e = true ∧ (defOf e).navSection = .earn := by
  obtain ⟨id, item, parent, he, hparent, hallowed⟩ := validationErrorForEntry_eq_none.1 h
  have hdef := lookup_valid h
  rw [he.itemIdOf, he.known] at hdef
  rw [← Option.some.inj hdef]
  have hhas := hasParent_of_parent? hparent
  cases parent with
  | none => exact .inl hhas
  | some p =>
    obtain rfl : p = "rewards_group" := by
      unfold parent? at hparent
      split at hparent
      · cases hparent
      · next hs =>
        split_ifs at hparent with heq
        exact (Option.some.inj (Option.some.inj hparent)).symm.trans heq
      · cases hparent
    refine .inr ⟨hhas, ?_⟩
    cases hsection : item.navSection with
    | earn => rfl
    | main => cases hallowed.root (.inl hsection)
    | social => cases hallowed.root (.inr hsection)

/-- The group is a root of its section. -/
theorem group_root (h : validationErrorForEntry e = none) (hid : itemIdOf e = "rewards_group") :
    hasParent none e = true ∧ (defOf e).navSection = .earn := by
  obtain ⟨id, item, parent, he, hparent, hallowed⟩ := validationErrorForEntry_eq_none.1 h
  rw [he.itemIdOf] at hid
  have hhas := hasParent_of_parent? hparent
  rw [hallowed.group hid] at hhas
  refine ⟨hhas, ?_⟩
  unfold defOf
  rw [he.itemIdOf, hid]
  decide +kernel

theorem Accepted.eq_of_itemIdOf (h : Accepted entries) {x y : Entry} (hx : x ∈ entries)
    (hy : y ∈ entries) (hid : itemIdOf x = itemIdOf y) : x = y :=
  List.inj_on_of_nodup_map h.nodup hx hy hid

/-- The entries that are active are the ones that are shown. -/
theorem mem_active (h : Accepted entries) : e ∈ activeEntries entries ↔ Shown entries e := by
  have hgroup : ((entries.reverse.find? fun e => itemIdOf e = "rewards_group").any isVisible) = true
      ↔ ∃ g ∈ entries, itemIdOf g = "rewards_group" ∧ isVisible g = true := by
    rw [Option.any_eq_true]
    constructor
    · rintro ⟨g, hfind, hvisible⟩
      have hid := List.find?_some hfind
      exact ⟨g, List.mem_reverse.1 (List.mem_of_find?_eq_some hfind), of_decide_eq_true hid,
        hvisible⟩
    · rintro ⟨g, hg, hid, hvisible⟩
      cases hfind : entries.reverse.find? fun e => itemIdOf e = "rewards_group" with
      | none =>
        exact absurd (decide_eq_true hid)
          (List.find?_eq_none.1 hfind g (List.mem_reverse.2 hg))
      | some g' =>
        refine ⟨g', rfl, ?_⟩
        have hg' := List.mem_reverse.1 (List.mem_of_find?_eq_some hfind)
        have hid' := List.find?_some hfind
        rwa [h.eq_of_itemIdOf hg' hg ((of_decide_eq_true hid').trans hid.symm)]
  unfold activeEntries
  dsimp only
  rw [List.mem_filter, Bool.and_eq_true, Bool.or_eq_true, hgroup, Bool.not_eq_true']
  constructor
  · rintro ⟨he, hvisible, hparent⟩
    refine ⟨he, hvisible, fun id hid => ?_⟩
    rcases parent_cases (h.valid e he) with hroot | ⟨hchild, -⟩
    · cases hasParent_unique hroot hid
    · obtain rfl := Option.some.inj (hasParent_unique hchild hid)
      rcases hparent with hnot | hshown
      · rw [hid] at hnot
        cases hnot
      · exact hshown
  · rintro ⟨he, hvisible, hparent⟩
    refine ⟨he, hvisible, ?_⟩
    cases hchild : hasParent (some "rewards_group") e with
    | false => exact .inl rfl
    | true => exact .inr (hparent _ hchild)

theorem mem_rootsOf (h : Accepted entries) {navSection : SidebarSection} :
    e ∈ rootsOf (activeEntries entries) navSection ↔ Shown entries e
      ∧ navSection? (e.get "section") = some navSection ∧ hasParent none e = true := by
  unfold rootsOf
  rw [mem_bySortOrder, List.mem_filter, mem_active h, Bool.and_eq_true, decide_eq_true_eq]

theorem mem_childrenOf (h : Accepted entries) (hroot : root ∈ entries) :
    e ∈ childrenOf (activeEntries entries) root ↔ Shown entries e
      ∧ hasParent (some (itemIdOf root)) e = true := by
  unfold childrenOf
  cases hgroup : (defOf root).isGroup
  · rw [if_neg Bool.false_ne_true]
    refine iff_of_false List.not_mem_nil ?_
    rintro ⟨hshown, hparent⟩
    rcases parent_cases (h.valid e hshown.mem) with hnone | ⟨hchild, -⟩
    · cases hasParent_unique hnone hparent
    · rw [(isGroup_iff (h.valid root hroot)).2
        (Option.some.inj (hasParent_unique hparent hchild))] at hgroup
      cases hgroup
  · rw [if_pos rfl, mem_bySortOrder, List.mem_filter, mem_active h]

end Standing

/-! ## The menu is exact -/

section Menu

variable {entries active : List Entry} {e root : Entry}

theorem itemId_itemOf : (itemOf active root).itemId = itemIdOf root := by
  unfold itemOf
  split_ifs <;> rfl

theorem children_itemOf : (itemOf active root).children = (childrenOf active root).map linkOf := by
  unfold itemOf
  split_ifs with hgroup
  · rfl
  · unfold childrenOf
    rw [if_neg hgroup]
    rfl

theorem places_categoriesOf : places (categoriesOf entries)
    = SIDEBAR_SECTIONS.flatMap fun navSection =>
        (rootsOf (activeEntries entries) navSection).flatMap fun root =>
          (navSection, none, itemIdOf root) :: (childrenOf (activeEntries entries) root).map
            fun child => (navSection, some (itemIdOf root), itemIdOf child) := by
  unfold places categoriesOf
  rw [List.flatMap_map]
  congr
  funext navSection
  rw [List.flatMap_map]
  congr
  funext root
  unfold NavItem.places
  rw [itemId_itemOf, children_itemOf, List.map_map]
  rfl

/-- The section of a child is the one of its group. -/
theorem section_child (h : Accepted entries) {navSection : SidebarSection} {child : Entry}
    (hroot : root ∈ rootsOf (activeEntries entries) navSection)
    (hchild : child ∈ childrenOf (activeEntries entries) root) : Shown entries child
      ∧ navSection? (child.get "section") = some navSection
      ∧ hasParent (some (itemIdOf root)) child = true := by
  obtain ⟨hshown, hsection, -⟩ := (mem_rootsOf h).1 hroot
  obtain ⟨hshown', hparent⟩ := (mem_childrenOf h hshown.mem).1 hchild
  refine ⟨hshown', ?_, hparent⟩
  have hvalid := h.valid child hshown'.mem
  rcases parent_cases hvalid with hnone | ⟨hgroup, hearn⟩
  · cases hasParent_unique hnone hparent
  · have hid := Option.some.inj (hasParent_unique hparent hgroup)
    have hrootValid := h.valid root hshown.mem
    rw [section_valid hrootValid, (group_root hrootValid hid).2] at hsection
    rw [section_valid hvalid, hearn, hsection]

/-- An entry stands in the section that it says, under the parent that it says. -/
theorem mem_places (h : Accepted entries) {navSection : SidebarSection} {parent : Option String}
    {id : String} : (navSection, parent, id) ∈ places (categoriesOf entries) ↔
      ∃ e, Shown entries e ∧ itemIdOf e = id ∧ navSection? (e.get "section") = some navSection
        ∧ hasParent parent e = true := by
  rw [places_categoriesOf]
  simp only [List.mem_flatMap, List.mem_cons, List.mem_map, Prod.mk.injEq]
  constructor
  · rintro ⟨_, -, root, hroot, ⟨rfl, rfl, rfl⟩ | ⟨child, hchild, rfl, rfl, rfl⟩⟩
    · obtain ⟨hshown, hsection, hparent⟩ := (mem_rootsOf h).1 hroot
      exact ⟨root, hshown, rfl, hsection, hparent⟩
    · obtain ⟨hshown, hsection, hparent⟩ := section_child h hroot hchild
      exact ⟨child, hshown, rfl, hsection, hparent⟩
  · rintro ⟨e, hshown, rfl, hsection, hparent⟩
    have hmem : navSection ∈ SIDEBAR_SECTIONS := by
      cases navSection <;> decide
    have hvalid := h.valid e hshown.mem
    refine ⟨navSection, hmem, ?_⟩
    rcases parent_cases hvalid with hnone | ⟨hgroup, hearn⟩
    · exact ⟨e, (mem_rootsOf h).2 ⟨hshown, hsection, hnone⟩,
        .inl ⟨rfl, hasParent_unique hparent hnone, rfl⟩⟩
    · obtain ⟨g, hg, hid, hvisible⟩ := hshown.group _ hgroup
      obtain ⟨hroot, hgearn⟩ := group_root (h.valid g hg) hid
      have hgshown : Shown entries g := by
        refine ⟨hg, hvisible, fun id hparent => ?_⟩
        cases hasParent_unique hroot hparent
      refine ⟨g, (mem_rootsOf h).2 ⟨hgshown, ?_, hroot⟩, .inr ⟨e, ?_, rfl, ?_, rfl⟩⟩
      · rw [section_valid (h.valid g hg), hgearn, ← hearn, ← section_valid hvalid, hsection]
      · rw [mem_childrenOf h hg, hid]
        exact ⟨hshown, hgroup⟩
      · rw [hid]
        exact hasParent_unique hgroup hparent

theorem nodup_bySortOrder (h : entries.Nodup) : (bySortOrder entries).Nodup :=
  (List.mergeSort_perm ..).nodup_iff.2 h

theorem nodup_childrenOf (h : Accepted entries) :
    (childrenOf (activeEntries entries) root).Nodup := by
  unfold childrenOf
  split_ifs
  · exact nodup_bySortOrder ((h.nodup.of_map _).filter _ |>.filter _)
  · exact .nil

/-- The entries that stand in a section, each group before its children. -/
def standing (active : List Entry) (navSection : SidebarSection) : List Entry :=
  (rootsOf active navSection).flatMap fun root => root :: childrenOf active root

/-- Who stands below a root stands below no other. -/
theorem nodup_standing (h : Accepted entries) (navSection : SidebarSection) :
    (standing (activeEntries entries) navSection).Nodup := by
  have hparent : ∀ root ∈ rootsOf (activeEntries entries) navSection,
      ∀ e ∈ root :: childrenOf (activeEntries entries) root,
        e = root ∧ hasParent none e = true ∨ hasParent (some (itemIdOf root)) e = true := by
    intro root hroot e he
    obtain ⟨hshown, -, hnone⟩ := (mem_rootsOf h).1 hroot
    rcases List.mem_cons.1 he with rfl | hchild
    · exact .inl ⟨rfl, hnone⟩
    · exact .inr ((mem_childrenOf h hshown.mem).1 hchild).2
  have hroots : (rootsOf (activeEntries entries) navSection).Nodup :=
    nodup_bySortOrder ((h.nodup.of_map _).filter _ |>.filter _)
  refine List.nodup_flatMap.2 ⟨fun root hroot => ?_, ?_⟩
  · obtain ⟨hshown, -, hnone⟩ := (mem_rootsOf h).1 hroot
    refine List.nodup_cons.2 ⟨fun hself => ?_, nodup_childrenOf h⟩
    cases hasParent_unique hnone ((mem_childrenOf h hshown.mem).1 hself).2
  · refine hroots.imp_of_mem fun {x y} hx hy hne e hex hey => ?_
    obtain ⟨hxshown, -, -⟩ := (mem_rootsOf h).1 hx
    obtain ⟨hyshown, -, -⟩ := (mem_rootsOf h).1 hy
    rcases hparent x hx e hex with ⟨rfl, hxnone⟩ | hxchild
    · rcases hparent y hy e hey with ⟨rfl, -⟩ | hychild
      · exact hne rfl
      · cases hasParent_unique hxnone hychild
    · rcases hparent y hy e hey with ⟨rfl, hynone⟩ | hychild
      · cases hasParent_unique hynone hxchild
      · exact hne (h.eq_of_itemIdOf hxshown.mem hyshown.mem
          (Option.some.inj (hasParent_unique hxchild hychild)))

theorem mem_standing (h : Accepted entries) {navSection : SidebarSection}
    (he : e ∈ standing (activeEntries entries) navSection) :
    Shown entries e ∧ navSection? (e.get "section") = some navSection := by
  obtain ⟨root, hroot, he⟩ := List.mem_flatMap.1 he
  rcases List.mem_cons.1 he with rfl | hchild
  · obtain ⟨hshown, hsection, -⟩ := (mem_rootsOf h).1 hroot
    exact ⟨hshown, hsection⟩
  · obtain ⟨hshown, hsection, -⟩ := section_child h hroot hchild
    exact ⟨hshown, hsection⟩

/-- No item stands in two places. -/
theorem nodup_places (h : Accepted entries) :
    ((places (categoriesOf entries)).map fun place => place.2.2).Nodup := by
  have hids : (places (categoriesOf entries)).map (fun place => place.2.2)
      = (SIDEBAR_SECTIONS.flatMap (standing (activeEntries entries))).map itemIdOf := by
    rw [places_categoriesOf, List.map_flatMap, List.map_flatMap]
    congr
    funext navSection
    unfold standing
    rw [List.map_flatMap, List.map_flatMap]
    congr
    funext root
    rw [List.map_cons, List.map_cons, List.map_map]
    rfl
  have hstanding : (SIDEBAR_SECTIONS.flatMap (standing (activeEntries entries))).Nodup := by
    refine List.nodup_flatMap.2 ⟨fun navSection _ => nodup_standing h navSection, ?_⟩
    have hsections : SIDEBAR_SECTIONS.Nodup := by decide
    refine hsections.imp fun {x y} hne e hx hy => hne ?_
    exact Option.some.inj ((mem_standing h hx).2.symm.trans (mem_standing h hy).2)
  rw [hids]
  refine hstanding.map_on fun x hx y hy hid => ?_
  obtain ⟨_, -, hx⟩ := List.mem_flatMap.1 hx
  obtain ⟨_, -, hy⟩ := List.mem_flatMap.1 hy
  exact h.eq_of_itemIdOf (mem_standing h hx).1.mem (mem_standing h hy).1.mem hid

/-- Sorted entries are in order, whatever accepted list they are from. -/
theorem inOrder_bySortOrder (h : Accepted entries) {es : List Entry} (hsub : es ⊆ entries) :
    InOrder entries ((bySortOrder es).map itemIdOf) := by
  have hsorted : (bySortOrder es).Pairwise fun a b => sortOrderOf a ≤ sortOrderOf b := by
    refine (List.pairwise_mergeSort ?_ ?_ es).imp fun hle => of_decide_eq_true hle
    · intro a b c hab hbc
      exact decide_eq_true (le_trans (of_decide_eq_true hab) (of_decide_eq_true hbc))
    · intro a b
      rw [Bool.or_eq_true, decide_eq_true_eq, decide_eq_true_eq]
      exact le_total _ _
  refine List.pairwise_map.2 (hsorted.imp_of_mem fun {a b} ha hb hle x hx y hy hxa hyb => ?_)
  rwa [h.eq_of_itemIdOf hx (hsub (mem_bySortOrder.1 ha)) hxa,
    h.eq_of_itemIdOf hy (hsub (mem_bySortOrder.1 hb)) hyb]

theorem active_subset : activeEntries entries ⊆ entries := List.filter_subset_self _

/-- What an entry shows is what the registry has for its item. -/
theorem path_valid (h : validationErrorForEntry e = none) :
    (defOf e).path = pathOf (itemIdOf e) := by
  unfold pathOf
  rw [lookup_valid h]
  rfl

/-- The group has no path. -/
theorem path_itemOf (h : validationErrorForEntry e = none) :
    (itemOf active e).path = pathOf (itemIdOf e) := by
  unfold itemOf
  split_ifs with hgroup
  · rw [(isGroup_iff h).1 hgroup]
    rfl
  · exact path_valid h

theorem exact_categoriesOf (h : Accepted entries) : Exact entries (categoriesOf entries) := by
  constructor
  · rfl
  · exact nodup_places h
  · exact fun _ _ _ => mem_places h
  · intro category hcategory
    obtain ⟨navSection, -, rfl⟩ := List.mem_map.1 hcategory
    have hids : ((rootsOf (activeEntries entries) navSection).map
        (itemOf (activeEntries entries))).map NavItem.itemId
          = (rootsOf (activeEntries entries) navSection).map itemIdOf := by
      rw [List.map_map]
      exact List.map_congr_left fun _ _ => itemId_itemOf
    rw [hids]
    exact inOrder_bySortOrder h fun e he => active_subset (List.mem_filter.1 he).1
  · intro category hcategory item hitem
    obtain ⟨navSection, -, rfl⟩ := List.mem_map.1 hcategory
    obtain ⟨root, -, rfl⟩ := List.mem_map.1 hitem
    rw [children_itemOf, List.map_map]
    unfold childrenOf
    split_ifs
    · exact inOrder_bySortOrder h fun e he => active_subset (List.mem_filter.1 he).1
    · exact .nil
  · intro category hcategory item hitem
    obtain ⟨navSection, -, rfl⟩ := List.mem_map.1 hcategory
    obtain ⟨root, hroot, rfl⟩ := List.mem_map.1 hitem
    have hmem := ((mem_rootsOf h).1 hroot).1.mem
    rw [itemId_itemOf, children_itemOf]
    refine ⟨path_itemOf (h.valid root hmem), fun child hchild => ?_⟩
    obtain ⟨e, he, rfl⟩ := List.mem_map.1 hchild
    exact path_valid (h.valid e ((mem_childrenOf h hmem).1 he).1.mem)

end Menu

end BlockMiner.Sidebar
