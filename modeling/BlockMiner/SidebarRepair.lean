import BlockMiner.SidebarMenu

/-!
# Repairing the stored entries

What `getSidebarNavForAdmin` makes of any JSON value in the row. The coercions
and the merge keep what the entries say; a list that is not accepted then is
replaced by the default one. Either way the row ends up as a list on which
another call does nothing.
-/

namespace BlockMiner.Sidebar

/-! ## Entries that are coerced -/

/-- The item id of the entry can be made a key. -/
def Textual (numberText : JsNumber → String) (e : Entry) : Prop :=
  e.isObject = true → (propertyKey numberText (e.get "itemId")).isSome = true

def lockedEntry (numberText : JsNumber → String) (e : Entry) : Entry × Bool :=
  (coerceParentLocked numberText e).getD (e, false)

/-- An entry after both coercions. -/
def coercedEntry (numberText : JsNumber → String) (e : Entry) : Entry :=
  (coerceOfferwall (lockedEntry numberText e).1).1

def entryChanged (numberText : JsNumber → String) (e : Entry) : Bool :=
  (lockedEntry numberText e).2 || (coerceOfferwall (lockedEntry numberText e).1).2

section Coerced

variable {numberText : JsNumber → String} {entries : List Entry} {e : Entry}

theorem coerceParentLocked_textual (h : Textual numberText e) :
    coerceParentLocked numberText e = some (lockedEntry numberText e) := by
  have hsome : (coerceParentLocked numberText e).isSome = true := by
    unfold coerceParentLocked
    cases hobject : e.isObject
    · rfl
    · obtain ⟨key, hkey⟩ := Option.isSome_iff_exists.1 (h hobject)
      rw [hkey]
      dsimp only [Option.bind_eq_bind, Option.bind_some]
      rw [Bool.not_true, if_neg Bool.false_ne_true]
      split
      · rfl
      · split_ifs <;> rfl
  obtain ⟨p, hp⟩ := Option.isSome_iff_exists.1 hsome
  unfold lockedEntry
  rw [hp]
  rfl

theorem lockedEntry_cases (h : Textual numberText e) :
    ((lockedEntry numberText e).1 = e ∧ (lockedEntry numberText e).2 = false)
      ∨ ∃ fields, ∃ item : RegistryItemDef, e = .object fields
        ∧ (lockedEntry numberText e).2 = true ∧ (lockedEntry numberText e).1
          = assign "parentItemId" (item.defaultParentItemId.elim .null .string) e :=
  coerceParentLocked_cases (coerceParentLocked_textual h)

theorem sameFlags_coerced (h : Textual numberText e) :
    SameFlags e (coercedEntry numberText e) :=
  (sameFlags_locked (coerceParentLocked_textual h)).trans (sameFlags_offerwall _)

theorem isObject_coerced (h : Textual numberText e) :
    (coercedEntry numberText e).isObject = e.isObject := by
  have hlocked : (lockedEntry numberText e).1.isObject = e.isObject := by
    rcases lockedEntry_cases h with ⟨heq, -⟩ | ⟨fields, item, rfl, -, heq⟩
    · rw [heq]
    · rw [heq]
      rfl
  unfold coercedEntry
  rcases coerceOfferwall_cases (lockedEntry numberText e).1 with heq | ⟨fields, hfields, -, heq⟩
  · rw [heq, hlocked]
  · rw [heq, ← hlocked, hfields]
    rfl

/-- An entry that did not change is as it was. -/
theorem coerced_unchanged (h : Textual numberText e)
    (hchanged : entryChanged numberText e = false) : coercedEntry numberText e = e := by
  obtain ⟨hlocked, hofferwall⟩ := Bool.or_eq_false_iff.1 hchanged
  unfold coercedEntry
  rcases coerceOfferwall_cases (lockedEntry numberText e).1 with heq | ⟨fields, -, -, heq⟩
  · rw [heq]
    rcases lockedEntry_cases h with ⟨hsame, -⟩ | ⟨fields, item, -, htrue, -⟩
    · exact hsame
    · rw [htrue] at hlocked
      cases hlocked
  · rw [heq] at hofferwall
    cases hofferwall

theorem coerceOfferwall_coerced :
    coerceOfferwall (coercedEntry numberText e) = (coercedEntry numberText e, false) :=
  coerceOfferwall_again _

/-- Both coercions of a list, and whether one of them changed it. -/
theorem coerce_textual (h : ∀ e ∈ entries, Textual numberText e) :
    ∃ locked lockedChanged, coerceParentLockedSidebarEntries numberText entries
        = some (locked, lockedChanged)
      ∧ (coerceInternalOfferwallEarnRoot locked).1 = entries.map (coercedEntry numberText)
      ∧ (lockedChanged || (coerceInternalOfferwallEarnRoot locked).2)
        = entries.any (entryChanged numberText) := by
  refine ⟨(entries.map (lockedEntry numberText)).map Prod.fst,
    (entries.map (lockedEntry numberText)).any Prod.snd, ?_, ?_, ?_⟩
  · unfold coerceParentLockedSidebarEntries
    rw [mapM_map fun e he => coerceParentLocked_textual (h e he)]
    rfl
  · unfold coerceInternalOfferwallEarnRoot
    dsimp only
    rw [List.map_map, List.map_map, List.map_map]
    rfl
  · unfold coerceInternalOfferwallEarnRoot
    dsimp only
    rw [List.any_map, List.any_map, List.map_map, List.any_map]
    induction entries with
    | nil => rfl
    | cons e entries ih =>
      have hrest := ih fun e' he' => h e' (List.mem_cons_of_mem _ he')
      rw [List.any_cons, List.any_cons, List.any_cons, ← hrest]
      unfold entryChanged
      simp only [Function.comp_apply]
      ac_rfl

theorem presentId_isSome {value : Option Entry} (h : (propertyKey numberText value).isSome = true) :
    (presentId numberText value).isSome = true := by
  unfold presentId
  split
  · rfl
  · rfl
  · rfl
  · rfl
  · rw [Option.isSome_map]
    exact h

/-- The ids that the merge finds. -/
def presentIds (numberText : JsNumber → String) (entries : List Entry) : List String :=
  (entries.filter Json.isObject).map fun e => (presentId numberText (e.get "itemId")).getD ""

theorem presentIds_textual (h : ∀ e ∈ entries, Textual numberText e) :
    (((entries.map (coercedEntry numberText)).filter Json.isObject).mapM fun e =>
      presentId numberText (e.get "itemId"))
        = some (presentIds numberText (entries.map (coercedEntry numberText))) := by
  refine mapM_map fun e' he' => ?_
  obtain ⟨hmem, hobject⟩ := List.mem_filter.1 he'
  obtain ⟨e, he, rfl⟩ := List.mem_map.1 hmem
  rw [isObject_coerced (h e he)] at hobject
  have hsome := presentId_isSome (h e he hobject)
  rw [← (sameFlags_coerced (h e he)).itemId] at hsome
  obtain ⟨id, hid⟩ := Option.isSome_iff_exists.1 hsome
  rw [hid]
  rfl

end Coerced

/-! ## What a call leaves in the row -/

/-- The entries after both coercions and the merge. -/
def mergedEntries (numberText : JsNumber → String) (entries : List Entry) : List Entry :=
  entries.map (coercedEntry numberText)
    ++ (missing (presentIds numberText (entries.map (coercedEntry numberText)))).map
      SidebarEntry.json

section Stored

variable {numberText : JsNumber → String} {entries : List Entry} {value : Entry} {s : Store}

theorem missing_nil : missing [] = buildDefaultSidebarEntries :=
  List.filter_eq_self.2 fun _ _ => decide_eq_true List.not_mem_nil

/-- What is not a list has no entry, so the merge adds them all. -/
theorem array_of_complete
    (h : missing (presentIds numberText ((rawEntries value).map (coercedEntry numberText))) = []) :
    value = .array (rawEntries value) := by
  cases value with
  | array items => rfl
  | _ =>
    have hnone := missing_nil.symm.trans h
    cases hnone

/-- The row holds the merged list when it is validated, whoever wrote it. -/
theorem nav_of_stored (hrow : s.row = some value)
    (h : ∀ e ∈ rawEntries value, Textual numberText e) :
    ∃ s' : Store, s'.row = some (.array (mergedEntries numberText (rawEntries value)))
      ∧ getSidebarNavForAdmin numberText s
        = match validateSidebarEntriesPayload (mergedEntries numberText (rawEntries value)) with
          | .error _ => (s'.write defaultEntries, navOf defaultEntries)
          | .ok entries => (s', navOf entries) := by
  obtain ⟨locked, lockedChanged, hlocked, hcoerced, hchanged⟩ := coerce_textual h
  have hmerge := merge_eq (presentIds_textual h)
  refine ⟨let s := if lockedChanged || (coerceInternalOfferwallEarnRoot locked).2
      then s.write (coerceInternalOfferwallEarnRoot locked).1 else s
    if !(missing (presentIds numberText ((rawEntries value).map
        (coercedEntry numberText)))).isEmpty
      then s.write (mergedEntries numberText (rawEntries value)) else s, ?_, ?_⟩
  · dsimp only
    rw [hchanged, hcoerced]
    cases hempty : (missing (presentIds numberText ((rawEntries value).map
        (coercedEntry numberText)))).isEmpty
    · rw [Bool.not_false, if_pos rfl]
      rfl
    · have hnil := List.isEmpty_iff.1 hempty
      have hmerged : mergedEntries numberText (rawEntries value)
          = (rawEntries value).map (coercedEntry numberText) := by
        unfold mergedEntries
        rw [hnil, List.map_nil, List.append_nil]
      rw [Bool.not_true, if_neg Bool.false_ne_true, hmerged]
      cases hany : (rawEntries value).any (entryChanged numberText)
      · -- nothing was written, so the row is the list that it was
        have hsame : (rawEntries value).map (coercedEntry numberText) = rawEntries value := by
          refine (List.map_congr_left fun e he => ?_).trans (List.map_id _)
          exact coerced_unchanged (h e he)
            (Bool.eq_false_iff.2 (List.any_eq_false.1 hany e he))
        rw [if_neg Bool.false_ne_true, hrow, hsame, ← array_of_complete hnil]
      · rw [if_pos rfl]
        rfl
  · unfold getSidebarNavForAdmin ensureRow
    rw [hrow]
    dsimp only
    rw [hlocked]
    dsimp only
    rw [hcoerced, hmerge]
    rfl

end Stored

/-! ## Lists on which a call does nothing -/

/-- An accepted list that neither coercion changes. -/
structure Settled (entries : List Entry) : Prop where
  accepted : Accepted entries
  offerwall : ∀ e ∈ entries, coerceOfferwall e = (e, false)

section Settled

variable {numberText : JsNumber → String} {entries : List Entry} {s : Store}

theorem coerceOfferwall_default : ∀ e ∈ defaultEntries, coerceOfferwall e = (e, false) := by
  have hkeep : ∀ e ∈ defaultEntries, (e.get "itemId").bind Json.string? ≠ some "internal_offerwall"
      ∨ isParent (e.get "parentItemId") offerwallParent = true := by
    decide +kernel
  exact fun e he => if_pos (hkeep e he)

theorem settled_default : Settled defaultEntries := ⟨accepted_default, coerceOfferwall_default⟩

theorem settled_merged (h : Accepted (mergedEntries numberText entries)) :
    Settled (mergedEntries numberText entries) := by
  refine ⟨h, fun e he => ?_⟩
  rcases List.mem_append.1 he with hold | hnew
  · obtain ⟨e, -, rfl⟩ := List.mem_map.1 hold
    exact coerceOfferwall_coerced
  · obtain ⟨row, hrow, rfl⟩ := List.mem_map.1 hnew
    exact coerceOfferwall_default _ (List.mem_map_of_mem (List.mem_filter.1 hrow).1)

theorem navOf_accepted (h : Accepted entries) :
    navOf entries = some ⟨entries, categoriesOf entries⟩ := by
  unfold navOf
  rw [build_valid h.valid]
  rfl

theorem nav_settled (hrow : s.row = some (.array entries)) (h : Settled entries) :
    getSidebarNavForAdmin numberText s = (s, some ⟨entries, categoriesOf entries⟩) := by
  have hsame : coerceInternalOfferwallEarnRoot entries = (entries, false) := by
    unfold coerceInternalOfferwallEarnRoot
    rw [List.map_congr_left h.offerwall]
    dsimp only
    rw [List.map_map, List.any_map]
    congr
    · exact List.map_id _
    · exact List.any_eq_false.2 fun _ _ => Bool.false_ne_true
  rw [nav_accepted hrow h.accepted, hsame, navOf_accepted h.accepted]
  rfl

end Settled

/-! ## Lists of an older build -/

/-- With another parent the entry is valid. -/
def ValidUpToParent (e : Entry) : Prop :=
  ∃ parent, validationErrorForEntry (assign "parentItemId" parent e) = none

/-- The parent of the entry is valid or is coerced. -/
def ParentMended (e : Entry) : Prop :=
  validationErrorForEntry e = none ∨ itemIdOf e = "internal_offerwall"
    ∨ ∃ item, SIDEBAR_ITEM_REGISTRY.lookup (itemIdOf e) = some item ∧ item.parentLocked = true
      ∧ (e.get "parentItemId").isSome = true

/-- Entries for some of the items, each valid once its parent is coerced. -/
structure OldSubset (entries : List Entry) : Prop where
  nodup : (entries.map itemIdOf).Nodup
  upToParent : ∀ e ∈ entries, ValidUpToParent e
  mended : ∀ e ∈ entries, ParentMended e

section Older

variable {numberText : JsNumber → String} {entries : List Entry} {e : Entry}

theorem upToParent_of_valid (h : ValidUpToParent e) : ∃ id item, UpToParent e id item := by
  obtain ⟨parent, hvalid⟩ := h
  obtain ⟨id, item, -, he, -⟩ := validationErrorForEntry_eq_none.1 hvalid
  refine ⟨id, item, ?_⟩
  cases e with
  | object fields =>
    obtain ⟨hid, hknown, hvisible, hsort, hsection⟩ := he
    rw [get_assign, if_neg (by decide)] at hid hvisible hsort hsection
    exact ⟨hid, hknown, hvisible, hsort, hsection⟩
  | _ => exact he

theorem textual_of_upToParent {id : String} {item : RegistryItemDef} (h : UpToParent e id item) :
    Textual numberText e := by
  intro _
  rw [h.itemId]
  rfl

theorem coerced_valid (h : ValidUpToParent e) (hmended : ParentMended e) :
    validationErrorForEntry (coercedEntry numberText e) = none := by
  obtain ⟨id, item, he⟩ := upToParent_of_valid h
  obtain ⟨hallowed, hparent⟩ := default_allowed he.known
  obtain ⟨hlocked, -⟩ := registry_facts _ (mem_of_lookup he.known)
  have heq : coerceParentLocked numberText e = some _ := he.coerceParentLocked_eq
  unfold coercedEntry lockedEntry
  rcases hmended with hvalid | hid | ⟨item', hitem, hitemLocked, hsome⟩
  · rw [coerceParentLocked_valid hvalid]
    exact coerceOfferwall_valid hvalid
  · rw [he.itemIdOf] at hid
    subst hid
    have hfree : item.parentLocked = false := Bool.eq_false_iff.2 fun h => (hlocked h).2 rfl
    rw [heq, hfree]
    exact coerceOfferwall_upToParent he
  · rw [he.itemIdOf, he.known] at hitem
    obtain rfl := Option.some.inj hitem
    refine coerceOfferwall_valid ?_
    rw [heq, hitemLocked, Bool.not_true, Bool.false_or]
    rw [(hlocked hitemLocked).1] at hallowed hparent ⊢
    split_ifs with hnull
    · refine he.valid_iff.2 ⟨none, ?_, hallowed⟩
      obtain ⟨parent, hget⟩ := Option.isSome_iff_exists.1 hsome
      rw [hget] at hnull ⊢
      cases parent with
      | null => rfl
      | string s =>
        have hno : decide (none = some s) = true := hnull
        cases of_decide_eq_true hno
      | _ => cases hnull
    · obtain ⟨fields, rfl⟩ := object_of_get he.itemId
      refine (he.assign _).valid_iff.2 ⟨none, ?_, hallowed⟩
      rw [get_assign, if_pos rfl]
      exact hparent

theorem default_complete : ∀ id ∈ ALLOWED_ITEM_IDS,
    id ∈ buildDefaultSidebarEntries.map SidebarEntry.itemId := by
  decide +kernel

/-- The merge adds to an old subset just what it lacks. -/
theorem accepted_merged (h : OldSubset entries) :
    Accepted (mergedEntries numberText entries) := by
  have hvalid : ∀ e ∈ entries.map (coercedEntry numberText), validationErrorForEntry e = none := by
    intro e' he'
    obtain ⟨e, he, rfl⟩ := List.mem_map.1 he'
    exact coerced_valid (h.upToParent e he) (h.mended e he)
  have hids : (entries.map (coercedEntry numberText)).map itemIdOf = entries.map itemIdOf := by
    rw [List.map_map]
    refine List.map_congr_left fun e he => ?_
    obtain ⟨id, item, hentry⟩ := upToParent_of_valid (h.upToParent e he)
    show itemIdOf (coercedEntry numberText e) = itemIdOf e
    unfold itemIdOf
    rw [(sameFlags_coerced (textual_of_upToParent hentry)).itemId]
  have hpresent : presentIds numberText (entries.map (coercedEntry numberText))
      = entries.map itemIdOf := by
    have htext : ∀ e ∈ entries, Textual numberText e := by
      intro e he
      obtain ⟨id, item, hentry⟩ := upToParent_of_valid (h.upToParent e he)
      exact textual_of_upToParent hentry
    rw [← hids]
    exact Option.some.inj ((presentIds_textual htext).symm.trans (presentIds_valid hvalid))
  have hmapped : (mergedEntries numberText entries).map itemIdOf
      = entries.map itemIdOf ++ (missing (entries.map itemIdOf)).map SidebarEntry.itemId := by
    unfold mergedEntries
    rw [hpresent, List.map_append, hids, List.map_map]
    rfl
  have hallowed : ∀ e ∈ mergedEntries numberText entries, validationErrorForEntry e = none := by
    intro e he
    rcases List.mem_append.1 he with hold | hnew
    · exact hvalid e hold
    · obtain ⟨row, hrow, rfl⟩ := List.mem_map.1 hnew
      exact accepted_default.valid _ (List.mem_map_of_mem (List.mem_filter.1 hrow).1)
  have hnodup : ((mergedEntries numberText entries).map itemIdOf).Nodup := by
    rw [hmapped]
    refine h.nodup.append ((List.filter_sublist.map _).nodup default_facts.1) ?_
    intro id hold hnew
    obtain ⟨row, hrow, rfl⟩ := List.mem_map.1 hnew
    exact of_decide_eq_true (List.mem_filter.1 hrow).2 hold
  refine ⟨hallowed, hnodup, ?_⟩
  -- the ids are those of the registry, each once
  have hperm : ((mergedEntries numberText entries).map itemIdOf).Perm ALLOWED_ITEM_IDS := by
    refine (List.perm_ext_iff_of_nodup hnodup (by decide +kernel)).2 fun id => ?_
    constructor
    · intro hid
      obtain ⟨e, he, rfl⟩ := List.mem_map.1 hid
      exact mem_allowed (hallowed e he)
    · intro hid
      rw [hmapped, List.mem_append]
      by_cases hold : id ∈ entries.map itemIdOf
      · exact .inl hold
      · obtain ⟨row, hrow, rfl⟩ := List.mem_map.1 (default_complete id hid)
        exact .inr (List.mem_map_of_mem (List.mem_filter.2 ⟨hrow, decide_eq_true hold⟩))
  have hlength := hperm.length_eq
  rwa [List.length_map] at hlength

end Older

/-! ## Every row is repaired -/

section Repair

variable {numberText : JsNumber → String} {s : Store}

/-- A call leaves a settled list in the row and returns it. -/
theorem repaired_of_row {value : Entry} (hrow : s.row = some value)
    (h : ∀ e ∈ rawEntries value, Textual numberText e) :
    ∃ s' : Store, ∃ entries, getSidebarNavForAdmin numberText s
        = (s', some ⟨entries, categoriesOf entries⟩)
      ∧ Settled entries ∧ s'.row = some (.array entries)
      ∧ (Accepted (mergedEntries numberText (rawEntries value)) →
        entries = mergedEntries numberText (rawEntries value))
      ∧ (¬Accepted (mergedEntries numberText (rawEntries value)) → entries = defaultEntries) := by
  obtain ⟨s', hrow', hnav⟩ := nav_of_stored hrow h
  cases hvalidate : validateSidebarEntriesPayload (mergedEntries numberText (rawEntries value)) with
  | error code =>
    rw [hvalidate] at hnav
    dsimp only at hnav
    rw [navOf_accepted accepted_default] at hnav
    refine ⟨_, _, hnav, settled_default, rfl, fun haccepted => ?_, fun _ => rfl⟩
    rw [validate_eq_ok.2 ⟨rfl, haccepted⟩] at hvalidate
    cases hvalidate
  | ok out =>
    obtain ⟨rfl, haccepted⟩ := validate_eq_ok.1 hvalidate
    rw [hvalidate] at hnav
    dsimp only at hnav
    rw [navOf_accepted haccepted] at hnav
    exact ⟨_, _, hnav, settled_merged haccepted, hrow', fun _ => rfl, fun hnot =>
      absurd haccepted hnot⟩

/-- A row that is missing is written before it is read. -/
theorem nav_no_row (hrow : s.row = none) : getSidebarNavForAdmin numberText s
    = (s.write defaultEntries, some ⟨defaultEntries, categoriesOf defaultEntries⟩) := by
  have hwritten : getSidebarNavForAdmin numberText s
      = getSidebarNavForAdmin numberText (s.write defaultEntries) := by
    unfold getSidebarNavForAdmin ensureRow
    rw [hrow]
    rfl
  rw [hwritten]
  exact nav_settled rfl settled_default

/-- Any row becomes one that stays, and an old subset keeps what it says. -/
theorem repairs_to_fixed_point (htext : ∀ items, s.row = some (.array items) →
    ∀ e ∈ items, Textual numberText e) :
    ∃ (s' : Store) (nav : SidebarNav), getSidebarNavForAdmin numberText s = (s', some nav)
      ∧ validateSidebarEntriesPayload nav.entries = .ok nav.entries
      ∧ s'.row = some (.array nav.entries)
      ∧ getSidebarNavForAdmin numberText s' = (s', some nav)
      ∧ ∀ items, s.row = some (.array items) → OldSubset items →
        ∀ e ∈ items, ∃ e' ∈ nav.entries, SameFlags e e' := by
  cases hrow : s.row with
  | none =>
    exact ⟨_, _, nav_no_row hrow, validate_eq_ok.2 ⟨rfl, accepted_default⟩, rfl,
      nav_settled rfl settled_default, fun _ h => by cases h⟩
  | some value =>
    have hraw : ∀ e ∈ rawEntries value, Textual numberText e := by
      cases value with
      | array items => exact htext items hrow
      | _ => exact fun _ he => absurd he List.not_mem_nil
    obtain ⟨s', entries, hnav, hsettled, hrow', hmerged, -⟩ := repaired_of_row hrow hraw
    refine ⟨s', _, hnav, validate_eq_ok.2 ⟨rfl, hsettled.accepted⟩, hrow',
      nav_settled hrow' hsettled, fun items hitems hold e he => ?_⟩
    obtain rfl : value = .array items := Option.some.inj hitems
    rw [hmerged (accepted_merged hold)]
    exact ⟨coercedEntry numberText e, List.mem_append_left _ (List.mem_map_of_mem he),
      sameFlags_coerced (hraw e he)⟩

/-- A hidden entry with the parent. -/
def hidden (itemId navSection : String) (parent : List (String × Entry)) : Entry :=
  .object ([("itemId", .string itemId), ("visible", .bool false),
    ("sortOrder", .number (.finite 10)), ("section", .string navSection)] ++ parent)

theorem repairs_to_fixed_point_miniPass :
    ∃ (s' : Store) (nav : SidebarNav), getSidebarNavForAdmin (fun _ => "")
        ⟨some (.array [hidden "mini_pass" "earn" [("parentItemId", .string "rewards_group")]]), 0⟩
          = (s', some nav)
      ∧ validateSidebarEntriesPayload nav.entries = .ok nav.entries
      ∧ s'.row = some (.array nav.entries)
      ∧ getSidebarNavForAdmin (fun _ => "") s' = (s', some nav)
      ∧ ∃ e' ∈ nav.entries,
        SameFlags (hidden "mini_pass" "earn" [("parentItemId", .string "rewards_group")]) e' := by
  have hlocked : ∃ item, SIDEBAR_ITEM_REGISTRY.lookup "mini_pass" = some item
      ∧ item.parentLocked = true := ⟨_, rfl, rfl⟩
  have hold : OldSubset
      [hidden "mini_pass" "earn" [("parentItemId", .string "rewards_group")]] := by
    refine ⟨List.nodup_singleton _, ?_, ?_⟩
    · intro e he
      obtain rfl := List.mem_singleton.1 he
      exact ⟨.null, by decide +kernel⟩
    · intro e he
      obtain rfl := List.mem_singleton.1 he
      obtain ⟨item, hitem, hitemLocked⟩ := hlocked
      exact .inr (.inr ⟨item, hitem, hitemLocked, rfl⟩)
  obtain ⟨s', nav, hnav, hvalidate, hrow, hagain, hkeeps⟩ :=
    @repairs_to_fixed_point (fun _ => "")
      ⟨some (.array [hidden "mini_pass" "earn" [("parentItemId", .string "rewards_group")]]), 0⟩
      (fun items hitems e he => by
        obtain rfl := Json.array.inj (Option.some.inj hitems)
        obtain rfl := List.mem_singleton.1 he
        exact fun _ => rfl)
  exact ⟨s', nav, hnav, hvalidate, hrow, hagain, hkeeps _ rfl hold _ (List.mem_singleton.2 rfl)⟩

/-- One entry that stays invalid loses what all of them say. -/
theorem reset_of_invalid {e : Entry} (htext : Textual numberText e)
    (hinvalid : validationErrorForEntry (coercedEntry numberText e) ≠ none)
    (hhidden : isVisible e = false) :
    ∃ s' nav, getSidebarNavForAdmin numberText ⟨some (.array [e]), 0⟩ = (s', some nav)
      ∧ ∀ e' ∈ nav.entries, ¬SameFlags e e' := by
  have hraw : ∀ e' ∈ rawEntries (.array [e]), Textual numberText e' := by
    intro e' he'
    obtain rfl := List.mem_singleton.1 he'
    exact htext
  obtain ⟨s', entries, hnav, -, -, -, hreset⟩ :=
    @repaired_of_row numberText ⟨some (.array [e]), 0⟩ _ rfl hraw
  have hentries : entries = defaultEntries := by
    refine hreset fun haccepted => hinvalid (haccepted.valid _ ?_)
    exact List.mem_append_left _ (List.mem_map_of_mem (List.mem_singleton.2 rfl))
  have hvisible : ∀ e' ∈ defaultEntries, isVisible e' = true := by
    decide +kernel
  refine ⟨s', _, hnav, fun e' he' hsame => ?_⟩
  have hshown := hvisible e' (hentries ▸ he')
  unfold isVisible at hshown hhidden
  rw [hsame.visible, hhidden] at hshown
  cases hshown

/-- A hidden dashboard in the group and a hidden mini pass without a parent are shown again; an
item id that has no text throws. -/
theorem not_always_repaired :
    (∀ e, e = hidden "dashboard" "main" [("parentItemId", .string "rewards_group")]
        ∨ e = hidden "mini_pass" "earn" [] →
      ValidUpToParent e ∧ ∀ numberText, ∃ s' nav,
        getSidebarNavForAdmin numberText ⟨some (.array [e]), 0⟩ = (s', some nav)
          ∧ ∀ e' ∈ nav.entries, ¬SameFlags e e')
      ∧ ∀ numberText, (getSidebarNavForAdmin numberText ⟨some (.array
        [.object [("itemId", .object [("toString", .null)])]]), 0⟩).2 = none := by
  constructor
  · rintro e (rfl | rfl)
    · refine ⟨⟨.null, by decide +kernel⟩, fun numberText => ?_⟩
      exact reset_of_invalid (fun _ => rfl) (fun h => nomatch h) rfl
    · refine ⟨⟨.null, by decide +kernel⟩, fun numberText => ?_⟩
      exact reset_of_invalid (fun _ => rfl) (fun h => nomatch h) rfl
  · intro numberText
    rfl

end Repair

end BlockMiner.Sidebar
