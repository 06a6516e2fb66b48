import BlockMiner.StableStringify
import Mathlib.Data.List.Perm.Subperm

/-!
# When two JSON values are the same

As values, two objects are the same if they have the same keys with the same
values, in any order. For values whose objects have every key once, as parsed
ones do, `stableStringify` tells exactly this (`stableStringify_iff_same`): the
sorted fields of two equal objects are one list, since UTF-16 code units tell
keys apart.
-/

namespace BlockMiner

/-! ## Keys in the order of their code units -/

def charUnits (c : Char) : List ℕ :=
  if c.toNat < 0x10000 then [c.toNat]
  else [0xD800 + (c.toNat - 0x10000) / 0x400, 0xDC00 + (c.toNat - 0x10000) % 0x400]

theorem charUnits_unique {c c' : Char} {r r' : List ℕ}
    (h : charUnits c ++ r = charUnits c' ++ r') : c = c' ∧ r = r' := by
  have hvalid : c.toNat < 0xD800 ∨ 0xDFFF < c.toNat ∧ c.toNat < 0x110000 := c.valid
  have hvalid' : c'.toNat < 0xD800 ∨ 0xDFFF < c'.toNat ∧ c'.toNat < 0x110000 := c'.valid
  have hchar (heq : c.toNat = c'.toNat) : c = c' := Char.toNat_inj.mp heq
  unfold charUnits at h
  split at h <;> split at h <;>
    simp only [List.cons_append, List.nil_append, List.cons.injEq] at h
  · exact ⟨hchar h.1, h.2⟩
  · omega
  · omega
  · exact ⟨hchar (by omega), h.2.2⟩

theorem charUnits_ne_nil (c : Char) : charUnits c ≠ [] := by
  unfold charUnits
  split <;> exact nofun

theorem codeUnits_injective : Function.Injective codeUnits := by
  intro s s' h
  have hlists : ∀ cs cs' : List Char,
      cs.flatMap charUnits = cs'.flatMap charUnits → cs = cs' := by
    intro cs
    induction cs with
    | nil =>
        intro cs' heq
        cases cs' with
        | nil => rfl
        | cons c' cs' =>
            exact absurd (List.append_eq_nil_iff.mp heq.symm).1 (charUnits_ne_nil c')
    | cons c cs ih =>
        intro cs' heq
        cases cs' with
        | nil => exact absurd (List.append_eq_nil_iff.mp heq).1 (charUnits_ne_nil c)
        | cons c' cs' =>
            rw [List.flatMap_cons, List.flatMap_cons] at heq
            obtain ⟨rfl, hrest⟩ := charUnits_unique heq
            rw [ih cs' hrest]
  exact String.toList_injective (hlists _ _ h)

theorem unitsLe_antisymm {as bs : List ℕ} (hab : unitsLe as bs = true)
    (hba : unitsLe bs as = true) : as = bs := by
  induction as generalizing bs with
  | nil =>
      cases bs with
      | nil => rfl
      | cons b bs => simp [unitsLe] at hba
  | cons a as ih =>
      cases bs with
      | nil => simp [unitsLe] at hab
      | cons b bs =>
          simp only [unitsLe, Bool.or_eq_true, Bool.and_eq_true, decide_eq_true_eq] at hab hba
          rcases hab with hab | ⟨rfl, hab⟩
          · omega
          · rcases hba with hba | ⟨-, hba⟩
            · omega
            · rw [ih hab hba]

theorem pairwise_sortKeys {α : Type} (fields : List (String × α)) :
    (sortKeys fields).Pairwise fun f g => unitsLe (codeUnits f.1) (codeUnits g.1) = true := by
  have : Std.Total fun f g : String × α => unitsLe (codeUnits f.1) (codeUnits g.1) = true :=
    ⟨fun f g => unitsLe_total _ _⟩
  have : IsTrans (String × α) fun f g => unitsLe (codeUnits f.1) (codeUnits g.1) = true :=
    ⟨fun f g h => unitsLe_trans⟩
  exact List.pairwise_insertionSort _ fields

theorem sortKeys_perm {α : Type} (fields : List (String × α)) : (sortKeys fields).Perm fields :=
  List.perm_insertionSort _ fields

/-- Two fields with the same key of a list with every key once. -/
theorem field_unique {α : Type} {fields : List (String × α)}
    (h : (fields.map Prod.fst).Nodup) {f g : String × α} (hf : f ∈ fields) (hg : g ∈ fields)
    (hkey : f.1 = g.1) : f = g :=
  List.inj_on_of_nodup_map h hf hg hkey

/-- The sorted fields do not depend on the order. -/
theorem sortKeys_eq_of_perm {α : Type} {fields fields' : List (String × α)}
    (hnodup : (fields.map Prod.fst).Nodup) (h : fields.Perm fields') :
    sortKeys fields = sortKeys fields' := by
  refine List.Perm.eq_of_pairwise (fun f g hf hg hle hge => ?_) (pairwise_sortKeys fields)
    (pairwise_sortKeys fields')
    (((sortKeys_perm fields).trans h).trans (sortKeys_perm fields').symm)
  exact field_unique hnodup (mem_sortKeys.mp hf) (h.mem_iff.mpr (mem_sortKeys.mp hg))
    (codeUnits_injective (unitsLe_antisymm hle hge))

/-! ## Same values -/

mutual

/-- No object in the value has a key twice. -/
def Json.Distinct : JsonText → Prop
  | .array items => DistinctItems items
  | .object fields => (fields.map Prod.fst).Nodup ∧ DistinctFields fields
  | _ => True

def Json.DistinctItems : List JsonText → Prop
  | [] => True
  | item :: items => item.Distinct ∧ DistinctItems items

def Json.DistinctFields : List (String × JsonText) → Prop
  | [] => True
  | (_, value) :: fields => value.Distinct ∧ DistinctFields fields

end

mutual

/-- The same value, whatever the order of the fields of its objects. -/
def Json.Same : JsonText → JsonText → Prop
  | .array items, .array items' => SameItems items items'
  | .object fields, .object fields' =>
      fields.length = fields'.length ∧ FieldsIn fields fields'
  | v, v' => v = v'

def Json.SameItems : List JsonText → List JsonText → Prop
  | [], [] => True
  | item :: items, item' :: items' => item.Same item' ∧ SameItems items items'
  | _, _ => False

/-- Every field of the first list is one of the second, with the same value. -/
def Json.FieldsIn : List (String × JsonText) → List (String × JsonText) → Prop
  | [], _ => True
  | (key, value) :: fields, fields' =>
      (∃ value', (key, value') ∈ fields' ∧ value.Same value') ∧ FieldsIn fields fields'

end

namespace Json

/-- The canonical values of two lists of fields are the same up to order if each field of
the one has a partner in the other. -/
theorem sortKeys_canonical_iff {fields fields' : List (String × JsonText)}
    (hnodup : (fields.map Prod.fst).Nodup) :
    sortKeys (canonicalFields fields) = sortKeys (canonicalFields fields')
      ↔ fields.length = fields'.length
        ∧ ∀ f ∈ fields, ∃ value', (f.1, value') ∈ fields' ∧ canonical f.2 = canonical value' := by
  rw [canonicalFields_eq, canonicalFields_eq]
  have hkeys : ((fields.map (Prod.map id canonical)).map Prod.fst).Nodup := by
    rw [List.map_map]
    exact hnodup
  constructor
  · intro h
    have hperm : (fields.map (Prod.map id canonical)).Perm (fields'.map (Prod.map id canonical)) :=
      (sortKeys_perm _).symm.trans (h ▸ sortKeys_perm _)
    refine ⟨by simpa using hperm.length_eq, fun f hf => ?_⟩
    have hmem := hperm.mem_iff.mp (List.mem_map_of_mem hf)
    obtain ⟨⟨key, value'⟩, hf', heq⟩ := List.mem_map.mp hmem
    obtain ⟨hkey, hvalue⟩ := Prod.mk.inj heq
    obtain rfl : key = f.1 := hkey
    exact ⟨value', hf', hvalue.symm⟩
  · rintro ⟨hlength, h⟩
    refine sortKeys_eq_of_perm hkeys ?_
    have hsubset : fields.map (Prod.map id canonical) ⊆ fields'.map (Prod.map id canonical) := by
      intro g hg
      obtain ⟨f, hf, rfl⟩ := List.mem_map.mp hg
      obtain ⟨value', hmem, heq⟩ := h f hf
      exact List.mem_map.mpr ⟨(f.1, value'), hmem, by simp [Prod.map, heq]⟩
    have hsubperm := List.Nodup.subperm (List.Nodup.of_map _ hkeys) hsubset
    exact hsubperm.perm_of_length_le (by simp [hlength])

mutual

theorem canonical_eq_iff_same :
    ∀ {v v' : JsonText}, v.Distinct → (canonical v = canonical v' ↔ v.Same v')
  | .array items, .array items', h => by
      rw [canonical, canonical, Json.array.injEq, Same, canonicalItems_eq_iff h]
  | .object fields, .object fields', h => by
      rw [canonical, canonical, Json.object.injEq, Same, sortKeys_canonical_iff h.1,
        canonicalFields_in_iff h.2]
  | .null, v', _ => by cases v' <;> simp [canonical, Same]
  | .bool b, v', _ => by cases v' <;> simp [canonical, Same]
  | .number n, v', _ => by cases v' <;> simp [canonical, Same]
  | .string s, v', _ => by cases v' <;> simp [canonical, Same]
  | .array items, .null, _ | .array items, .bool _, _ | .array items, .number _, _
  | .array items, .string _, _ | .array items, .object _, _ => by simp [canonical, Same]
  | .object fields, .null, _ | .object fields, .bool _, _ | .object fields, .number _, _
  | .object fields, .string _, _ | .object fields, .array _, _ => by simp [canonical, Same]

theorem canonicalItems_eq_iff :
    ∀ {items items' : List JsonText}, DistinctItems items →
      (canonicalItems items = canonicalItems items' ↔ SameItems items items')
  | [], [], _ => by simp [SameItems]
  | [], _ :: _, _ => by simp [canonicalItems, SameItems]
  | _ :: _, [], _ => by simp [canonicalItems, SameItems]
  | item :: items, item' :: items', h => by
      rw [canonicalItems, canonicalItems, List.cons.injEq, SameItems,
        canonical_eq_iff_same h.1, canonicalItems_eq_iff h.2]

theorem canonicalFields_in_iff :
    ∀ {fields fields' : List (String × JsonText)}, DistinctFields fields →
      ((∀ f ∈ fields, ∃ value', (f.1, value') ∈ fields' ∧ canonical f.2 = canonical value')
        ↔ FieldsIn fields fields')
  | [], _, _ => by simp [FieldsIn]
  | (key, value) :: fields, fields', h => by
      rw [List.forall_mem_cons, FieldsIn, canonicalFields_in_iff h.2]
      exact and_congr_left fun _ => exists_congr fun value' =>
        and_congr_right fun _ => canonical_eq_iff_same h.1

end

/-- The texts of two values are the same if and only if the values are. -/
theorem stableStringify_iff_same {v v' : JsonText} (h : v.Distinct) :
    stableStringify v = stableStringify v' ↔ v.Same v' := by
  rw [stableStringify_inj, canonical_eq_iff_same h]

end Json

end BlockMiner
