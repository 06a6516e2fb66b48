import BlockMiner.SidebarNav
import Mathlib.Data.List.Perm.Subperm

/-!
# Valid sidebar entries

What `validateSidebarEntriesPayload` accepts, and what the two coercions and
the merge of `getSidebarNavForAdmin` do to an entry that is valid up to its
parent. Lists that are accepted have each item of the registry once.
-/

namespace BlockMiner.Sidebar

/-! ## Fields -/

section Fields

variable {ν : Type}

theorem object_of_get {e : Json ν} {key : String} {value : Json ν} (h : e.get key = some value) :
    ∃ fields, e = .object fields := by
  cases e with
  | object fields => exact ⟨fields, rfl⟩
  | _ => cases h

theorem lookup_replaced {key key' : String} {value : ν} {fields : List (String × ν)} :
    (fields.map fun f => if f.1 = key then (key, value) else f).lookup key'
      = if key' = key then (if fields.any (·.1 = key) then some value else none)
        else fields.lookup key' := by
  induction fields with
  | nil => simp
  | cons f fields ih =>
    obtain ⟨name, old⟩ := f
    simp only [List.map_cons, List.any_cons]
    by_cases hname : name = key
    · subst hname
      rw [if_pos rfl, List.lookup_cons, ih]
      by_cases hkey : key' = name
      · simp [hkey]
      · rw [if_neg hkey, if_neg hkey, List.lookup_cons, beq_false_of_ne hkey]
    · rw [if_neg hname, List.lookup_cons, ih]
      by_cases hkey : key' = key
      · subst hkey
        simp only [beq_false_of_ne (Ne.symm hname), decide_eq_false hname, Bool.false_or, if_true]
      · rw [if_neg hkey, if_neg hkey, List.lookup_cons]

theorem mapM_map {α β : Type} {f : α → Option β} {g : α → β} {as : List α}
    (h : ∀ a ∈ as, f a = some (g a)) : as.mapM f = some (as.map g) := by
  induction as with
  | nil => rfl
  | cons a as ih =>
    rw [List.forall_mem_cons] at h
    rw [List.mapM_cons, h.1, ih h.2]
    rfl

end Fields

/-- A field of an entry after an assignment. -/
theorem get_assign {fields : List (String × Entry)} {key key' : String} {value : Entry} :
    (assign key value (.object fields)).get key'
      = if key' = key then some value else (Json.object fields).get key' := by
  unfold assign Json.get
  dsimp only
  by_cases hany : fields.any (·.1 = key) = true
  · rw [if_pos hany, ← List.map_reverse, lookup_replaced, List.any_reverse, if_pos hany]
  · rw [if_neg hany, List.reverse_append, List.reverse_singleton, List.singleton_append,
      List.lookup_cons]
    by_cases hkey : key' = key
    · rw [if_pos hkey, hkey, beq_self_eq_true]
    · rw [if_neg hkey, beq_false_of_ne hkey]

/-! ## Valid entries -/

/-- An entry of an item of the registry that lacks nothing but its parent. -/
structure UpToParent (e : Entry) (id : String) (item : RegistryItemDef) : Prop where
  itemId : e.get "itemId" = some (.string id)
  known : SIDEBAR_ITEM_REGISTRY.lookup id = some item
  visible : ∃ b, e.get "visible" = some (.bool b)
  sortOrder : isInteger (e.get "sortOrder") = true
  navSection : navSection? (e.get "section") = some item.navSection

/-- The item may have the parent. -/
structure ParentAllowed (id : String) (item : RegistryItemDef) (parent : Option String) : Prop where
  locked : item.parentLocked = true → parent = item.defaultParentItemId
  root : item.navSection = .main ∨ item.navSection = .social → parent = none
  nested : item.navSection = .earn → id ≠ "rewards_group" → parent = some "rewards_group" →
    item.defaultParentItemId = some "rewards_group"
  group : id = "rewards_group" → parent = none

theorem string_eq_some {value : Option Entry} {s : String} :
    value.bind Json.string? = some s ↔ value = some (.string s) := by
  rcases value with - | (_ | _ | _ | _ | _ | _) <;> simp [Json.string?]

theorem bool_isSome {value : Option Entry} :
    (value.bind Json.bool?).isSome = true ↔ ∃ b, value = some (.bool b) := by
  rcases value with - | (_ | _ | _ | _ | _ | _) <;> simp [Json.bool?]

theorem validationErrorForEntry_eq_none {e : Entry} :
    validationErrorForEntry e = none ↔ ∃ id item parent, UpToParent e id item
      ∧ parent? (e.get "parentItemId") = some parent ∧ ParentAllowed id item parent := by
  constructor
  · intro h
    unfold validationErrorForEntry at h
    cases hobject : e.isObject
    · rw [hobject] at h
      cases h
    rw [hobject, Bool.not_true, if_neg Bool.false_ne_true] at h
    split at h
    · cases h
    next id hid =>
    split at h
    · cases h
    next item hknown =>
    split at h
    · cases h
    next hvisible =>
    split at h
    · cases h
    next hsort =>
    split at h
    · cases h
    next navSection hsection =>
    split at h
    · cases h
    next parent hparent =>
    split_ifs at h with hsame hlocked hroot hnested hgroup
    rw [not_not] at hsame
    refine ⟨id, item, parent, ⟨string_eq_some.1 hid, hknown, ?_, ?_, hsame ▸ hsection⟩, hparent,
      ⟨?_, ?_, ?_, ?_⟩⟩
    · rw [Option.isNone_iff_eq_none, ← ne_eq, Option.ne_none_iff_isSome] at hvisible
      exact bool_isSome.1 hvisible
    · rwa [Bool.not_eq_true', Bool.not_eq_false] at hsort
    · exact fun h => not_not.1 fun hne => hlocked ⟨h, hne⟩
    · exact fun h => not_not.1 fun hne => hroot ⟨h, hne⟩
    · exact fun hearn hne hchild => not_not.1 fun hnot => hnested ⟨hearn, hne, hchild, hnot⟩
    · exact fun h => not_not.1 fun hne => hgroup ⟨h, hne⟩
  · rintro ⟨id, item, parent, he, hparent, hallowed⟩
    obtain ⟨fields, rfl⟩ := object_of_get he.itemId
    have hid := string_eq_some.2 he.itemId
    have hvisible := bool_isSome.2 he.visible
    unfold validationErrorForEntry
    rw [hid]
    dsimp only
    rw [he.known]
    dsimp only
    rw [he.navSection]
    dsimp only
    rw [hparent]
    dsimp only
    rw [if_neg, if_neg, if_neg, if_neg, if_neg, if_neg, if_neg, if_neg]
    · exact fun h => h.2 (hallowed.group h.1)
    · exact fun h => h.2.2.2 (hallowed.nested h.1 h.2.1 h.2.2.1)
    · exact fun h => h.2 (hallowed.root h.1)
    · exact fun h => h.2 (hallowed.locked h.1)
    · exact fun h => h rfl
    · rw [he.sortOrder]
      exact Bool.false_ne_true
    · rw [Option.isNone_iff_eq_none]
      exact Option.isSome_iff_ne_none.1 hvisible
    · exact Bool.false_ne_true

theorem mem_of_lookup {id : String} {item : RegistryItemDef}
    (h : SIDEBAR_ITEM_REGISTRY.lookup id = some item) : (id, item) ∈ SIDEBAR_ITEM_REGISTRY := by
  obtain ⟨before, after, heq, -⟩ := List.lookup_eq_some_iff.1 h
  rw [heq]
  exact List.mem_append_right _ (List.mem_cons_self ..)

theorem registry_facts : ∀ p ∈ SIDEBAR_ITEM_REGISTRY,
    (p.2.parentLocked = true → p.2.defaultParentItemId = none ∧ p.1 ≠ "internal_offerwall")
      ∧ (p.2.defaultParentItemId = none
        ∨ p.2.defaultParentItemId = some "rewards_group" ∧ p.2.navSection = .earn
          ∧ p.1 ≠ "rewards_group") ∧ trim p.1 = p.1 ∧ p.1 ≠ "" := by
  decide +kernel

/-- An item may have its default parent. -/
theorem default_allowed {id : String} {item : RegistryItemDef}
    (h : SIDEBAR_ITEM_REGISTRY.lookup id = some item) :
    ParentAllowed id item item.defaultParentItemId
      ∧ parent? (some (item.defaultParentItemId.elim .null .string))
        = some item.defaultParentItemId := by
  obtain ⟨-, hparent, -⟩ := registry_facts _ (mem_of_lookup h)
  rcases hparent with hnone | ⟨hgroup, hearn, hne⟩
  · refine ⟨⟨fun _ => rfl, fun _ => hnone, fun _ _ h => h, fun _ => hnone⟩, ?_⟩
    rw [hnone]
    rfl
  · refine ⟨⟨fun _ => rfl, fun hroot => ?_, fun _ _ h => h, fun h => absurd h hne⟩, ?_⟩
    · rw [hearn] at hroot
      rcases hroot with h | h <;> cases h
    · rw [hgroup]
      rfl

/-- What an entry says besides its parent and its section. -/
structure SameFlags (e e' : Entry) : Prop where
  itemId : e'.get "itemId" = e.get "itemId"
  visible : e'.get "visible" = e.get "visible"
  sortOrder : e'.get "sortOrder" = e.get "sortOrder"

theorem SameFlags.refl (e : Entry) : SameFlags e e := ⟨rfl, rfl, rfl⟩

theorem SameFlags.trans {e e' e'' : Entry} (h : SameFlags e e') (h' : SameFlags e' e'') :
    SameFlags e e'' :=
  ⟨h'.itemId.trans h.itemId, h'.visible.trans h.visible, h'.sortOrder.trans h.sortOrder⟩

theorem sameFlags_assign {fields : List (String × Entry)} {key : String} {value : Entry}
    (hkey : key = "parentItemId" ∨ key = "section") :
    SameFlags (.object fields) (assign key value (.object fields)) := by
  constructor
  all_goals
    rw [get_assign, if_neg]
    rintro rfl
    revert hkey
    decide

theorem UpToParent.valid_iff {e : Entry} {id : String} {item : RegistryItemDef}
    (h : UpToParent e id item) : validationErrorForEntry e = none
      ↔ ∃ parent, parent? (e.get "parentItemId") = some parent ∧ ParentAllowed id item parent := by
  rw [validationErrorForEntry_eq_none]
  constructor
  · rintro ⟨id', item', parent, h', hparent⟩
    obtain rfl := Json.string.inj (Option.some.inj (h.itemId.symm.trans h'.itemId))
    obtain rfl := Option.some.inj (h.known.symm.trans h'.known)
    exact ⟨parent, hparent⟩
  · rintro ⟨parent, hparent⟩
    exact ⟨id, item, parent, h, hparent⟩

/-- The parent of an entry that lacks nothing else may be set. -/
theorem UpToParent.assign {fields : List (String × Entry)} {id : String} {item : RegistryItemDef}
    (h : UpToParent (.object fields) id item) (value : Entry) :
    UpToParent (Sidebar.assign "parentItemId" value (.object fields)) id item := by
  constructor
  · rw [get_assign, if_neg (by decide)]
    exact h.itemId
  · exact h.known
  · rw [get_assign, if_neg (by decide)]
    exact h.visible
  · rw [get_assign, if_neg (by decide)]
    exact h.sortOrder
  · rw [get_assign, if_neg (by decide)]
    exact h.navSection

/-- The section of an entry that lacks nothing else may be set to what it is. -/
theorem UpToParent.assign_earn {fields : List (String × Entry)} {id : String}
    {item : RegistryItemDef} (h : UpToParent (.object fields) id item)
    (hearn : item.navSection = .earn) :
    UpToParent (Sidebar.assign "section" (.string "earn") (.object fields)) id item := by
  constructor
  · rw [get_assign, if_neg (by decide)]
    exact h.itemId
  · exact h.known
  · rw [get_assign, if_neg (by decide)]
    exact h.visible
  · rw [get_assign, if_neg (by decide)]
    exact h.sortOrder
  · rw [get_assign, if_pos rfl, hearn]
    rfl

/-! ## Coercions -/

section Coercions

variable {numberText : JsNumber → String} {e e' : Entry} {changed : Bool}

theorem isParent_of_parent? {value : Option Entry} {parent want : Option String}
    (h : parent? value = some parent) : isParent value want = decide (want = parent) := by
  unfold parent? at h
  split at h
  · obtain rfl := Option.some.inj h
    rfl
  · split_ifs at h
    obtain rfl := Option.some.inj h
    rfl
  · cases h

/-- An entry that is not what its item wants gets the parent of it. -/
theorem coerceParentLocked_cases (h : coerceParentLocked numberText e = some (e', changed)) :
    (e' = e ∧ changed = false) ∨ ∃ fields, ∃ item : RegistryItemDef, e = .object fields
      ∧ changed = true
      ∧ e' = assign "parentItemId" (item.defaultParentItemId.elim .null .string) e := by
  unfold coerceParentLocked at h
  split_ifs at h with hobject
  · obtain ⟨rfl, rfl⟩ := Prod.mk.inj (Option.some.inj h)
    exact .inl ⟨rfl, rfl⟩
  · obtain ⟨key, hkey, h⟩ := Option.bind_eq_some_iff.1 h
    split at h
    · obtain ⟨rfl, rfl⟩ := Prod.mk.inj (Option.some.inj h)
      exact .inl ⟨rfl, rfl⟩
    · next item hitem =>
      split_ifs at h
      · obtain ⟨rfl, rfl⟩ := Prod.mk.inj (Option.some.inj h)
        exact .inl ⟨rfl, rfl⟩
      · obtain ⟨rfl, rfl⟩ := Prod.mk.inj (Option.some.inj h)
        cases hid : e.get "itemId" with
        | none =>
          rw [hid] at hkey
          obtain rfl := Option.some.inj hkey
          cases hitem
        | some itemId =>
          obtain ⟨fields, rfl⟩ := object_of_get hid
          exact .inr ⟨fields, item, rfl, rfl, rfl⟩

theorem sameFlags_locked (h : coerceParentLocked numberText e = some (e', changed)) :
    SameFlags e e' := by
  rcases coerceParentLocked_cases h with ⟨rfl, -⟩ | ⟨fields, item, rfl, -, rfl⟩
  · exact .refl _
  · exact sameFlags_assign (.inl rfl)

theorem offerwallParent_eq : offerwallParent = some "rewards_group" := by decide +kernel

theorem coerceOfferwall_cases (e : Entry) : coerceOfferwall e = (e, false)
    ∨ ∃ fields, e = .object fields ∧ e.get "itemId" = some (.string "internal_offerwall")
      ∧ coerceOfferwall e = (assign "section" (.string "earn")
        (assign "parentItemId" (.string "rewards_group") e), true) := by
  unfold coerceOfferwall
  rw [offerwallParent_eq]
  by_cases h : (e.get "itemId").bind Json.string? ≠ some "internal_offerwall"
      ∨ isParent (e.get "parentItemId") (some "rewards_group") = true
  · exact .inl (if_pos h)
  · have hid := string_eq_some.1 (not_not.1 (not_or.1 h).1)
    obtain ⟨fields, rfl⟩ := object_of_get hid
    exact .inr ⟨fields, rfl, hid, if_neg h⟩

theorem object_assign (fields : List (String × Entry)) (key : String) (value : Entry) :
    ∃ fields', assign key value (.object fields) = .object fields' := ⟨_, rfl⟩

theorem sameFlags_offerwall (e : Entry) : SameFlags e (coerceOfferwall e).1 := by
  rcases coerceOfferwall_cases e with heq | ⟨fields, rfl, -, heq⟩
  · rw [heq]
    exact .refl _
  · rw [heq]
    exact (sameFlags_assign (.inl rfl)).trans (sameFlags_assign (.inr rfl))

/-- The parent of the offerwall is fixed once and for all. -/
theorem coerceOfferwall_again (e : Entry) :
    coerceOfferwall (coerceOfferwall e).1 = ((coerceOfferwall e).1, false) := by
  rcases coerceOfferwall_cases e with heq | ⟨fields, rfl, -, heq⟩
  · rw [heq, heq]
  · rw [heq]
    refine if_pos (.inr ?_)
    obtain ⟨fields', hfields⟩ := object_assign fields "parentItemId" (.string "rewards_group")
    dsimp only
    rw [hfields, get_assign, if_neg (by decide), ← hfields, get_assign, if_pos rfl,
      offerwallParent_eq]
    rfl

/-- What the parent of an item does to an entry of it. -/
theorem UpToParent.coerceParentLocked_eq {id : String} {item : RegistryItemDef}
    (h : UpToParent e id item) : coerceParentLocked numberText e = some
      (if !item.parentLocked || isParent (e.get "parentItemId") item.defaultParentItemId then
        (e, false)
      else
        (Sidebar.assign "parentItemId" (item.defaultParentItemId.elim .null .string) e, true)) := by
  have hkey : propertyKey numberText (e.get "itemId") = some id := by
    rw [h.itemId]
    rfl
  have hobject : ¬(!e.isObject) = true := by
    obtain ⟨fields, rfl⟩ := object_of_get h.itemId
    exact Bool.false_ne_true
  unfold coerceParentLocked
  rw [if_neg hobject, hkey]
  dsimp only [Option.bind_eq_bind, Option.bind_some]
  rw [h.known]
  dsimp only
  split_ifs <;> rfl

/-- An entry that is valid has the parent that its item is locked to. -/
theorem coerceParentLocked_valid (h : validationErrorForEntry e = none) :
    coerceParentLocked numberText e = some (e, false) := by
  obtain ⟨id, item, parent, he, hparent, hallowed⟩ := validationErrorForEntry_eq_none.1 h
  rw [he.coerceParentLocked_eq, if_pos]
  cases hlocked : item.parentLocked
  · rfl
  · rw [isParent_of_parent? hparent, hallowed.locked hlocked]
    exact decide_eq_true rfl

/-- The offerwall lacks nothing once its parent is coerced. -/
theorem coerceOfferwall_upToParent {item : RegistryItemDef}
    (h : UpToParent e "internal_offerwall" item) :
    validationErrorForEntry (coerceOfferwall e).1 = none := by
  have hdefault : item.defaultParentItemId = some "rewards_group" := by
    rw [← offerwallParent_eq, offerwallParent, h.known]
    rfl
  obtain ⟨hallowed, hparent⟩ := default_allowed h.known
  rw [hdefault] at hallowed hparent
  obtain ⟨-, hnone | ⟨-, hearn, -⟩, -⟩ := registry_facts _ (mem_of_lookup h.known)
  · rw [hnone] at hdefault
    cases hdefault
  obtain ⟨fields, rfl⟩ := object_of_get h.itemId
  unfold coerceOfferwall
  rw [offerwallParent_eq, string_eq_some.2 h.itemId]
  split_ifs with hkeep
  · refine h.valid_iff.2 ⟨_, ?_, hallowed⟩
    have hgroup := hkeep.resolve_left (not_not.2 rfl)
    revert hgroup
    unfold isParent
    split
    · rintro ⟨⟩
    · rintro ⟨⟩
    · next s hs =>
      intro hs'
      rw [hs, ← Option.some.inj (of_decide_eq_true hs')]
      exact hparent
    · rintro ⟨⟩
  · obtain ⟨fields', hfields⟩ := object_assign fields "parentItemId" (.string "rewards_group")
    have hassigned := h.assign (.string "rewards_group")
    dsimp only [Option.elim_some]
    rw [hfields] at hassigned ⊢
    refine (hassigned.assign_earn hearn).valid_iff.2 ⟨_, ?_, hallowed⟩
    rw [get_assign, if_neg (by decide), ← hfields, get_assign, if_pos rfl]
    exact hparent

theorem coerceOfferwall_valid (h : validationErrorForEntry e = none) :
    validationErrorForEntry (coerceOfferwall e).1 = none := by
  rcases coerceOfferwall_cases e with heq | ⟨-, -, hoffer, -⟩
  · rwa [heq]
  · obtain ⟨id, item, -, he, -⟩ := validationErrorForEntry_eq_none.1 h
    obtain rfl := Json.string.inj (Option.some.inj (he.itemId.symm.trans hoffer))
    exact coerceOfferwall_upToParent he

end Coercions

/-! ## Accepted lists -/

/-- Every item of the registry once, and each entry valid. -/
structure Accepted (entries : List Entry) : Prop where
  valid : ∀ e ∈ entries, validationErrorForEntry e = none
  nodup : (entries.map itemIdOf).Nodup
  complete : entries.length = ALLOWED_ITEM_IDS.length

theorem UpToParent.itemIdOf {e : Entry} {id : String} {item : RegistryItemDef}
    (h : UpToParent e id item) : itemIdOf e = id := by
  unfold Sidebar.itemIdOf
  rw [h.itemId]
  rfl

theorem seenIds_eq_ok {entries : List Entry} : ∀ {seen ids : List String},
    seenIds seen entries = .ok ids ↔ (ids = (entries.map itemIdOf).reverse ++ seen
      ∧ (∀ e ∈ entries, validationErrorForEntry e = none) ∧ (entries.map itemIdOf).Nodup
      ∧ ∀ e ∈ entries, itemIdOf e ∉ seen) := by
  induction entries with
  | nil =>
    intro seen ids
    constructor
    · intro h
      obtain rfl := Except.ok.inj h
      exact ⟨rfl, fun _ he => absurd he List.not_mem_nil, .nil,
        fun _ he => absurd he List.not_mem_nil⟩
    · rintro ⟨rfl, -⟩
      rfl
  | cons e entries ih =>
    intro seen ids
    unfold seenIds
    cases herror : validationErrorForEntry e with
    | some code =>
      dsimp only
      constructor
      · rintro ⟨⟩
      · rintro ⟨-, hvalid, -⟩
        rw [hvalid e List.mem_cons_self] at herror
        cases herror
    | none =>
      dsimp only
      by_cases hseen : itemIdOf e ∈ seen
      · rw [if_pos hseen]
        constructor
        · rintro ⟨⟩
        · rintro ⟨-, -, -, hnew⟩
          exact absurd hseen (hnew e List.mem_cons_self)
      · rw [if_neg hseen, ih, List.map_cons, List.reverse_cons, List.append_assoc,
          List.singleton_append, List.forall_mem_cons, List.forall_mem_cons, List.nodup_cons]
        refine and_congr_right fun _ => ?_
        constructor
        · rintro ⟨hvalid, hnodup, hnew⟩
          refine ⟨⟨herror, hvalid⟩, ⟨fun he => ?_, hnodup⟩, hseen, fun e' he' hold =>
            hnew e' he' (List.mem_cons_of_mem _ hold)⟩
          obtain ⟨e', he', heq⟩ := List.mem_map.1 he
          exact hnew e' he' (List.mem_cons.2 (.inl heq))
        · rintro ⟨⟨-, hvalid⟩, ⟨hfresh, hnodup⟩, -, hnew⟩
          refine ⟨hvalid, hnodup, fun e' he' hold => ?_⟩
          rcases List.mem_cons.1 hold with heq | hold
          · exact hfresh (List.mem_map.2 ⟨e', he', heq⟩)
          · exact hnew e' he' hold

theorem mem_allowed {e : Entry} (h : validationErrorForEntry e = none) :
    itemIdOf e ∈ ALLOWED_ITEM_IDS := by
  obtain ⟨id, item, -, he, -⟩ := validationErrorForEntry_eq_none.1 h
  rw [he.itemIdOf]
  exact List.mem_map_of_mem (mem_of_lookup he.known)

/-- An accepted list has every item of the registry. -/
theorem Accepted.perm {entries : List Entry} (h : Accepted entries) :
    (entries.map itemIdOf).Perm ALLOWED_ITEM_IDS := by
  have hsub : entries.map itemIdOf ⊆ ALLOWED_ITEM_IDS := by
    intro id hid
    obtain ⟨e, he, rfl⟩ := List.mem_map.1 hid
    exact mem_allowed (h.valid e he)
  refine (List.subperm_of_subset h.nodup hsub).perm_of_length_le ?_
  rw [List.length_map, h.complete]

theorem validate_eq_ok {entries out : List Entry} :
    validateSidebarEntriesPayload entries = .ok out ↔ out = entries ∧ Accepted entries := by
  unfold validateSidebarEntriesPayload
  cases hids : seenIds [] entries with
  | error code =>
    constructor
    · rintro ⟨⟩
    · rintro ⟨-, haccepted⟩
      have hok := seenIds_eq_ok.2 ⟨rfl, haccepted.valid, haccepted.nodup,
        fun _ _ => List.not_mem_nil⟩
      rw [hids] at hok
      cases hok
  | ok ids =>
    obtain ⟨rfl, hvalid, hnodup, -⟩ := seenIds_eq_ok.1 hids
    have hlength : ((entries.map itemIdOf).reverse ++ []).length = entries.length := by
      rw [List.append_nil, List.length_reverse, List.length_map]
    show (if _ ≠ _ then _ else _) = _ ↔ _
    rw [hlength]
    by_cases hcomplete : entries.length = ALLOWED_ITEM_IDS.length
    · have haccepted : Accepted entries := ⟨hvalid, hnodup, hcomplete⟩
      have hgroup : (entries.any fun e => itemIdOf e = "rewards_group") = true := by
        obtain ⟨e, he, hid⟩ := List.mem_map.1 (haccepted.perm.mem_iff.2
          (by decide : "rewards_group" ∈ ALLOWED_ITEM_IDS))
        exact List.any_eq_true.2 ⟨e, he, decide_eq_true hid⟩
      rw [if_neg (not_not.2 hcomplete), if_neg]
      · constructor
        · intro h
          exact ⟨(Except.ok.inj h).symm, haccepted⟩
        · rintro ⟨rfl, -⟩
          rfl
      · rw [hgroup]
        exact fun h => Bool.false_ne_true h.2
    · rw [if_pos hcomplete]
      constructor
      · rintro ⟨⟩
      · exact fun h => absurd h.2.complete hcomplete

theorem accepted_default : Accepted defaultEntries := ⟨by decide +kernel, by decide +kernel, rfl⟩

/-! ## Merging -/

section Merging

variable {numberText : JsNumber → String} {entries : List Entry}

theorem foldl_addMissing {rows : List SidebarEntry} : ∀ {entries : List Entry}
    {present : List String} {changed : Bool}, (rows.map SidebarEntry.itemId).Nodup →
    ∃ present', rows.foldl addMissing (entries, present, changed)
      = (entries ++ (rows.filter (·.itemId ∉ present)).map SidebarEntry.json, present',
        changed || !(rows.filter (·.itemId ∉ present)).isEmpty) := by
  induction rows with
  | nil =>
    intro entries present changed _
    refine ⟨present, ?_⟩
    rw [List.foldl_nil, List.filter_nil, List.map_nil, List.append_nil, List.isEmpty_nil,
      Bool.not_true, Bool.or_false]
  | cons row rows ih =>
    intro entries present changed hnodup
    rw [List.map_cons, List.nodup_cons] at hnodup
    rw [List.foldl_cons]
    by_cases hrow : row.itemId ∈ present
    · rw [List.filter_cons_of_neg (by simpa using hrow)]
      unfold addMissing
      dsimp only
      rw [if_pos hrow]
      exact ih hnodup.2
    · -- the ids that are left differ from the one that is added
      have hrest : rows.filter (·.itemId ∉ row.itemId :: present)
          = rows.filter (·.itemId ∉ present) := by
        refine List.filter_congr fun row' hrow' => ?_
        have hne : row'.itemId ≠ row.itemId := fun heq =>
          hnodup.1 (heq ▸ List.mem_map_of_mem hrow')
        rw [decide_eq_decide, List.mem_cons, not_or]
        exact and_iff_right hne
      rw [List.filter_cons_of_pos (by simpa using hrow)]
      unfold addMissing
      dsimp only
      rw [if_neg hrow]
      obtain ⟨present', heq⟩ := @ih (entries ++ [row.json]) (row.itemId :: present) true hnodup.2
      rw [hrest] at heq
      refine ⟨present', heq.trans ?_⟩
      rw [List.map_cons, List.append_assoc, List.singleton_append, Bool.true_or, List.isEmpty_cons,
        Bool.not_false, Bool.or_true]

/-- The default entries of the items that are not there. -/
def missing (present : List String) : List SidebarEntry :=
  buildDefaultSidebarEntries.filter (·.itemId ∉ present)

theorem default_facts : (buildDefaultSidebarEntries.map SidebarEntry.itemId).Nodup
    ∧ ∀ row ∈ buildDefaultSidebarEntries, row.itemId ∈ ALLOWED_ITEM_IDS ∧ row.itemId ≠ "" := by
  decide +kernel

theorem merge_eq {ids : List String} (h : ((entries.filter Json.isObject).mapM fun e =>
    presentId numberText (e.get "itemId")) = some ids) :
    mergeMissingSidebarRegistryEntries numberText entries
      = some (entries ++ (missing ids).map SidebarEntry.json, !(missing ids).isEmpty) := by
  have hmissing : buildDefaultSidebarEntries.filter (·.itemId ∉ ids.filter (· ≠ ""))
      = missing ids := by
    refine List.filter_congr fun row hrow => ?_
    rw [decide_eq_decide, List.mem_filter, decide_eq_true_eq, not_and]
    exact ⟨fun h hid => h hid (default_facts.2 row hrow).2, fun h hid => absurd hid h⟩
  unfold mergeMissingSidebarRegistryEntries
  obtain ⟨present', heq⟩ := @foldl_addMissing _ entries (ids.filter (· ≠ "")) false default_facts.1
  rw [hmissing, Bool.false_or] at heq
  rw [h]
  dsimp only [Option.bind_eq_bind, Option.bind_some]
  rw [heq]
  rfl

theorem presentId_valid {e : Entry} (h : validationErrorForEntry e = none) :
    e.isObject = true ∧ presentId numberText (e.get "itemId") = some (itemIdOf e) := by
  obtain ⟨id, item, -, he, -⟩ := validationErrorForEntry_eq_none.1 h
  obtain ⟨fields, rfl⟩ := object_of_get he.itemId
  refine ⟨rfl, ?_⟩
  rw [he.itemIdOf, he.itemId]
  show some (trim id) = _
  rw [(registry_facts _ (mem_of_lookup he.known)).2.2.1]

/-- The ids of entries that are valid are the ones that are there. -/
theorem presentIds_valid (h : ∀ e ∈ entries, validationErrorForEntry e = none) :
    ((entries.filter Json.isObject).mapM fun e => presentId numberText (e.get "itemId"))
      = some (entries.map itemIdOf) := by
  rw [List.filter_eq_self.2 fun e he => (@presentId_valid numberText e (h e he)).1]
  exact mapM_map fun e he => (presentId_valid (h e he)).2

theorem merge_accepted (h : Accepted entries) :
    mergeMissingSidebarRegistryEntries numberText entries = some (entries, false) := by
  have hnone : missing (entries.map itemIdOf) = [] := by
    refine List.filter_eq_nil_iff.2 fun row hrow => ?_
    rw [decide_eq_true_eq, not_not]
    exact h.perm.mem_iff.2 (default_facts.2 row hrow).1
  rw [merge_eq (presentIds_valid h.valid), hnone, List.map_nil, List.append_nil]
  rfl

end Merging

/-! ## The row of an accepted list -/

section Row

variable {numberText : JsNumber → String} {entries : List Entry}

theorem coerceLocked_valid (h : ∀ e ∈ entries, validationErrorForEntry e = none) :
    coerceParentLockedSidebarEntries numberText entries = some (entries, false) := by
  unfold coerceParentLockedSidebarEntries
  rw [mapM_map fun e he => coerceParentLocked_valid (h e he)]
  show some _ = some _
  rw [List.map_map, List.any_map]
  congr
  · exact List.map_id _
  · exact List.any_eq_false.2 fun _ _ => Bool.false_ne_true

theorem itemIdOf_coerceOfferwall (e : Entry) : itemIdOf (coerceOfferwall e).1 = itemIdOf e := by
  unfold itemIdOf
  rw [(sameFlags_offerwall e).itemId]

theorem Accepted.coerce (h : Accepted entries) :
    Accepted (coerceInternalOfferwallEarnRoot entries).1 := by
  have hids : ((coerceInternalOfferwallEarnRoot entries).1).map itemIdOf
      = entries.map itemIdOf := by
    show ((entries.map coerceOfferwall).map Prod.fst).map itemIdOf = _
    rw [List.map_map, List.map_map]
    exact List.map_congr_left fun e _ => itemIdOf_coerceOfferwall e
  constructor
  · intro e' he'
    obtain ⟨p, hp, rfl⟩ := List.mem_map.1 he'
    obtain ⟨e, he, rfl⟩ := List.mem_map.1 hp
    exact coerceOfferwall_valid (h.valid e he)
  · rw [hids]
    exact h.nodup
  · rw [← h.complete, ← List.length_map itemIdOf, hids, List.length_map]

/-- The row of an accepted list changes where the offerwall is coerced only. -/
theorem nav_accepted {s : Store} (hrow : s.row = some (.array entries)) (h : Accepted entries) :
    getSidebarNavForAdmin numberText s
      = (if (coerceInternalOfferwallEarnRoot entries).2
          then s.write (coerceInternalOfferwallEarnRoot entries).1 else s,
        navOf (coerceInternalOfferwallEarnRoot entries).1) := by
  have hvalidate := validate_eq_ok.2 ⟨rfl, h.coerce⟩
  unfold getSidebarNavForAdmin ensureRow
  rw [hrow]
  dsimp only [rawEntries]
  rw [coerceLocked_valid h.valid]
  dsimp only
  rw [merge_accepted h.coerce]
  dsimp only
  rw [hvalidate]
  rfl

end Row

end BlockMiner.Sidebar
