import BlockMiner.Service
import BlockMiner.SidebarGate
import BlockMiner.SidebarRepair

/-!
# Requests for the sidebar

The requests of `sidebarNavController.js` and the gate of
`sidebarFeatureGate.js` with their queries as steps, any of which may fail.
`getSidebarNavForAdmin` finds the row, creates it where there is none, and
writes back what it repairs; `saveSidebarNavEntries` writes the entries that it
accepts. There is one row: to create it where it is fails.

A read that repairs writes what it has read, and would undo a save that came in
between. It never does once the row is settled, since there is nothing to
repair in what the code itself writes. So the answers are those of one register
(`requests_sequential`). A request that nothing interrupts does what the
functions do (`read_alone`, `save_alone`).

`log` is no table. It records what was written and answered, the latest first.
-/

namespace BlockMiner.SidebarRequests

open Sidebar

/-! ## Requests -/

inductive Request where
  | getAdminNav
  | getPublicNav
  | gate (requiredPath : String)
  | putAdminNav (bodyEntries : Option Entry)

/-- What the row is wanted for. -/
inductive Purpose where
  | adminNav
  | publicNav
  | gate (requiredPath : String)
  | save (entries : List Entry)

inductive Response where
  | nav (nav : SidebarNav)
  | categories (categories : List NavCategory)
  | gated (requiredPath : String) (result : GateResult)
  | saved (nav : SidebarNav)
  | refused (code : String)
  | failed (code : String)

def Purpose.failure : Purpose → Response
  | .adminNav => .failed "sidebar_nav_load_failed"
  | .publicNav => .failed "sidebar_nav_load_failed"
  | .gate requiredPath => .gated requiredPath .nextError
  | .save _ => .failed "sidebar_nav_save_failed"

def gateResult (categories : List NavCategory) (requiredPath : String) : GateResult :=
  if normalizeSidebarPath requiredPath ∈ collectVisiblePathsFromCategories categories then .next
  else featureDisabled

def Purpose.answer (nav : SidebarNav) : Purpose → Response
  | .adminNav => .nav nav
  | .publicNav => .categories nav.categories
  | .gate requiredPath => .gated requiredPath (gateResult nav.categories requiredPath)
  | .save _ => .saved nav

/-- No navigation is an exception. -/
def Purpose.respond (p : Purpose) (nav : Option SidebarNav) : Response :=
  match nav with
  | none => p.failure
  | some nav => p.answer nav

inductive Happening where
  | created
  | repaired (entries : List Entry)
  | saved (entries : List Entry)
  | answered (response : Response)

structure Site where
  row : Option Entry
  log : List Happening

def Site.answer (s : Site) (response : Response) : Site :=
  { s with log := .answered response :: s.log }

/-! ## Queries -/

inductive Call where
  | findUnique (p : Purpose)
  | create (p : Purpose)
  | updateCoerced (p : Purpose) (entries : List Entry)
  | updateMerged (p : Purpose) (entries : List Entry)
  | updateDefaults (p : Purpose)
  | updateSaved (entries : List Entry)

def Call.purpose : Call → Purpose
  | .findUnique p => p
  | .create p => p
  | .updateCoerced p _ => p
  | .updateMerged p _ => p
  | .updateDefaults p => p
  | .updateSaved entries => .save entries

section Steps

variable (numberText : JsNumber → String)

def start (s : Site) : Request → Site × Option Call
  | .getAdminNav => (s, some (.findUnique .adminNav))
  | .getPublicNav => (s, some (.findUnique .publicNav))
  | .gate requiredPath =>
      if normalizeSidebarPath requiredPath = "" then
        (s.answer (.gated requiredPath featureDisabled), none)
      else (s, some (.findUnique (.gate requiredPath)))
  | .putAdminNav bodyEntries =>
      match coerceParentLockedSidebarEntries numberText (bodyEntries.elim [] rawEntries) with
      | none => (s.answer (.failed "sidebar_nav_save_failed"), none)
      | some (afterLocked, _) =>
          match validateSidebarEntriesPayload (coerceInternalOfferwallEarnRoot afterLocked).1 with
          | .error code => (s.answer (.refused code), none)
          | .ok entries => (s, some (.findUnique (.save entries)))

def validated (s : Site) (p : Purpose) (merged : List Entry) : Site × Option Call :=
  match validateSidebarEntriesPayload merged with
  | .error _ => (s, some (.updateDefaults p))
  | .ok entries => (s.answer (p.respond (navOf entries)), none)

def merged (s : Site) (p : Purpose) (coerced : List Entry) : Site × Option Call :=
  match mergeMissingSidebarRegistryEntries numberText coerced with
  | none => (s.answer p.failure, none)
  | some (entries, mergeChanged) =>
      if mergeChanged then (s, some (.updateMerged p entries)) else validated s p entries

def repaired (s : Site) (p : Purpose) (raw : List Entry) : Site × Option Call :=
  match coerceParentLockedSidebarEntries numberText raw with
  | none => (s.answer p.failure, none)
  | some (coerced, lockedChanged) =>
      if lockedChanged || (coerceInternalOfferwallEarnRoot coerced).2 then
        (s, some (.updateCoerced p (coerceInternalOfferwallEarnRoot coerced).1))
      else merged numberText s p (coerceInternalOfferwallEarnRoot coerced).1

/-- What follows `ensureRow`. -/
def ensured (s : Site) (p : Purpose) (entries : Entry) : Site × Option Call :=
  match p with
  | .save accepted => (s, some (.updateSaved accepted))
  | _ => repaired numberText s p (rawEntries entries)

/-- `prisma.sidebarNavConfig.update`, which fails where there is no row. -/
def update (s : Site) (p : Purpose) (entries : List Entry) (happening : Happening)
    (next : Site → Site × Option Call) : Site × Option Call :=
  if s.row.isSome then next ⟨some (.array entries), happening :: s.log⟩
  else (s.answer p.failure, none)

def query (s : Site) : Call → Site × Option Call
  | .findUnique p =>
      match s.row with
      | none => (s, some (.create p))
      | some entries => ensured numberText s p entries
  | .create p =>
      match s.row with
      | none =>
          ensured numberText ⟨some (.array defaultEntries), .created :: s.log⟩ p
            (.array defaultEntries)
      | some _ => (s.answer p.failure, none)
  | .updateCoerced p entries =>
      update s p entries (.repaired entries) fun s => merged numberText s p entries
  | .updateMerged p entries => update s p entries (.repaired entries) fun s => validated s p entries
  | .updateDefaults p =>
      update s p defaultEntries (.repaired defaultEntries) fun s =>
        (s.answer (p.respond (navOf defaultEntries)), none)
  | .updateSaved entries =>
      update s (.save entries) entries (.saved entries) fun s =>
        (s.answer (Purpose.respond (.save entries) (navOf entries)), none)

/-- How a query ends. -/
inductive Outcome where
  | done
  | error

def resume (s : Site) (c : Call) : Outcome → Site × Option Call
  | .done => query numberText s c
  | .error => (s.answer c.purpose.failure, none)

def service : Service Site Call Request Outcome where
  start s r := some ((start numberText s r).1, (start numberText s r).2.toList)
  resume s c outcome := some (resume numberText s c outcome)

end Steps

/-! ## One register -/

/-- The entries that the row was given last. -/
def latest : List Happening → Option (List Entry)
  | [] => none
  | .created :: _ => some defaultEntries
  | .repaired entries :: _ => some entries
  | .saved entries :: _ => some entries
  | .answered _ :: log => latest log

/-- The categories are those of the entries, and so show exactly what these say. -/
def Built (entries : List Entry) (categories : List NavCategory) : Prop :=
  buildResolvedCategories entries = some categories ∧ Exact entries categories

/-- The response is right for the entries that were written last before it. -/
def Right (log : List Happening) : Response → Prop
  | .nav nav => latest log = some nav.entries ∧ Built nav.entries nav.categories
  | .categories categories => ∃ entries, latest log = some entries ∧ Built entries categories
  | .gated requiredPath result => result = .nextError ∨ ∀ id path, pathOf id = some path →
      PathVariant path requiredPath → (result = .next ∨ result = featureDisabled)
        ∧ ∃ entries, latest log = some entries
          ∧ (result = .next ↔ ∃ e, Shown entries e ∧ itemIdOf e = id)
  | .saved nav => latest log = some nav.entries ∧ Built nav.entries nav.categories
  | .refused _ => True
  | .failed _ => True

/-- The row is made once, saved lists are settled, no read has written, and
every response is right. -/
def Sequential : List Happening → Prop
  | [] => True
  | .created :: log => latest log = none ∧ Sequential log
  | .repaired _ :: _ => False
  | .saved entries :: log => Settled entries ∧ Sequential log
  | .answered response :: log => Right log response ∧ Sequential log

/-! ## The queries -/

section Queries

variable {numberText : JsNumber → String} {s : Site} {entries : List Entry} {p : Purpose}

theorem coerceOfferwall_settled (h : Settled entries) :
    coerceInternalOfferwallEarnRoot entries = (entries, false) := by
  unfold coerceInternalOfferwallEarnRoot
  rw [List.map_congr_left h.offerwall]
  dsimp only
  rw [List.map_map, List.any_map]
  congr
  · exact List.map_id _
  · exact List.any_eq_false.2 fun _ _ => Bool.false_ne_true

/-- There is nothing to repair in a settled list. -/
theorem repaired_settled (h : Settled entries) :
    repaired numberText s p entries = (s.answer (p.respond (navOf entries)), none) := by
  unfold repaired
  rw [coerceLocked_valid h.accepted.valid]
  dsimp only
  rw [coerceOfferwall_settled h]
  dsimp only
  rw [Bool.or_self, if_neg Bool.false_ne_true]
  unfold merged
  rw [merge_accepted h.accepted]
  dsimp only
  rw [if_neg Bool.false_ne_true]
  unfold validated
  rw [validate_eq_ok.2 ⟨rfl, h.accepted⟩]

theorem right_failure (log : List Happening) (p : Purpose) : Right log p.failure := by
  cases p with
  | gate requiredPath => exact .inl rfl
  | _ => exact trivial

theorem gateResult_iff {categories : List NavCategory} {id path requiredPath : String}
    (haccepted : Accepted entries) (h : Exact entries categories) (hpath : pathOf id = some path)
    (hvariant : PathVariant path requiredPath) :
    gateResult categories requiredPath = .next ↔ ∃ e, Shown entries e ∧ itemIdOf e = id := by
  unfold gateResult
  rw [normalize_variant (plain_of_pathOf hpath) hvariant, ← path_mem_iff haccepted h hpath]
  constructor
  · intro hresult
    by_contra hnot
    rw [if_neg hnot] at hresult
    cases hresult
  · exact fun hmem => if_pos hmem

/-- The navigation of the entries is the right answer for them. -/
theorem right_nav {log : List Happening} (hlatest : latest log = some entries)
    (h : Settled entries) : Right log (p.respond (navOf entries)) := by
  have hexact := exact_categoriesOf h.accepted
  have hbuilt : Built entries (categoriesOf entries) := ⟨build_valid h.accepted.valid, hexact⟩
  rw [navOf_accepted h.accepted]
  cases p with
  | adminNav => exact ⟨hlatest, hbuilt⟩
  | publicNav => exact ⟨entries, hlatest, hbuilt⟩
  | save _ => exact ⟨hlatest, hbuilt⟩
  | gate requiredPath =>
    refine .inr fun id path hpath hvariant => ⟨?_, entries, hlatest, ?_⟩
    · show gateResult _ _ = _ ∨ gateResult _ _ = _
      unfold gateResult
      split_ifs
      · exact .inl rfl
      · exact .inr rfl
    · exact gateResult_iff h.accepted hexact hpath hvariant

end Queries

/-! ## A request on its own -/

/-- The three parts of `saveSidebarNavEntries` in one piece. No result is an exception. -/
def saveSidebarNavEntries (numberText : JsNumber → String) (s : Store)
    (bodyEntries : Option Entry) : Store × Option (Except String SidebarNav) :=
  match coerceParentLockedSidebarEntries numberText (bodyEntries.elim [] rawEntries) with
  | none => (s, none)
  | some (afterLocked, _) =>
      match validateSidebarEntriesPayload (coerceInternalOfferwallEarnRoot afterLocked).1 with
      | .error code => (s, some (.error code))
      | .ok entries => ((ensureRow s).1.write entries, (navOf entries).map .ok)

section Alone

variable (numberText : JsNumber → String)

/-- What is left of a request that nothing interrupts. -/
def finish (n : ℕ) (out : Site × Option Call) : Option Site :=
  out.2.elim (some out.1) ((service numberText).alone .done n out.1)

/-- It ends with the row and the response of the result. -/
def Agrees (n : ℕ) (out : Site × Option Call) (p : Purpose)
    (result : Store × Option SidebarNav) : Prop :=
  ∃ s, finish numberText n out = some s ∧ s.row = result.1.row
    ∧ s.log.head? = some (.answered (p.respond result.2))

variable {numberText} {s : Site} {p : Purpose} {result : Store × Option SidebarNav} {store : Store}

theorem agrees_answer (n : ℕ) (result : Store × Option SidebarNav) (h : s.row = result.1.row) :
    Agrees numberText n (s.answer (p.respond result.2), none) p result :=
  ⟨_, rfl, h, rfl⟩

/-- One query, then the rest. -/
theorem agrees_call {n : ℕ} {c : Call} (h : Agrees numberText n (query numberText s c) p result) :
    Agrees numberText (n + 1) (s, some c) p result := by
  obtain ⟨s', hfinish, hs'⟩ := h
  exact ⟨s', hfinish, hs'⟩

theorem update_of_row (hrow : s.row.isSome = true) {entries : List Entry} {happening : Happening}
    {next : Site → Site × Option Call} : update s p entries happening next
      = next ⟨some (.array entries), happening :: s.log⟩ := if_pos hrow

theorem validated_agrees (n : ℕ) (hrow : s.row.isSome = true) (h : s.row = store.row)
    (merged : List Entry) : Agrees numberText (n + 1) (validated s p merged) p
      (match validateSidebarEntriesPayload merged with
        | .error _ => (store.write defaultEntries, navOf defaultEntries)
        | .ok entries => (store, navOf entries)) := by
  unfold validated
  split
  · refine agrees_call ?_
    unfold query
    dsimp only
    rw [update_of_row hrow]
    exact agrees_answer _ (store.write defaultEntries, navOf defaultEntries) rfl
  · exact agrees_answer _ (store, _) h

theorem merged_agrees (n : ℕ) (hrow : s.row.isSome = true) (h : s.row = store.row)
    (coerced : List Entry) : Agrees numberText (n + 2) (merged numberText s p coerced) p
      (match mergeMissingSidebarRegistryEntries numberText coerced with
        | none => (store, none)
        | some (merged, mergeChanged) =>
            match validateSidebarEntriesPayload merged with
            | .error _ => ((if mergeChanged then store.write merged else store).write
                defaultEntries, navOf defaultEntries)
            | .ok entries => (if mergeChanged then store.write merged else store,
                navOf entries)) := by
  unfold merged
  split
  · exact agrees_answer _ (store, none) h
  · next entries mergeChanged _ =>
    cases mergeChanged with
    | true =>
      rw [if_pos rfl, if_pos rfl]
      refine agrees_call ?_
      unfold query
      dsimp only
      rw [update_of_row hrow]
      exact validated_agrees n rfl rfl entries
    | false =>
      rw [if_neg Bool.false_ne_true, if_neg Bool.false_ne_true]
      exact validated_agrees (n + 1) hrow h entries

theorem repaired_agrees (n : ℕ) {value : Entry} (hrow : s.row = some value)
    (h : store.row = some value) :
    Agrees numberText (n + 3) (repaired numberText s p (rawEntries value)) p
      (getSidebarNavForAdmin numberText store) := by
  have hsome : s.row.isSome = true := by
    rw [hrow]
    rfl
  unfold repaired getSidebarNavForAdmin ensureRow
  rw [h]
  dsimp only
  cases coerceParentLockedSidebarEntries numberText (rawEntries value) with
  | none => exact agrees_answer _ (store, none) (hrow.trans h.symm)
  | some locked =>
    obtain ⟨coerced, lockedChanged⟩ := locked
    dsimp only
    cases hchanged : lockedChanged || (coerceInternalOfferwallEarnRoot coerced).2 with
    | true =>
      rw [if_pos rfl, if_pos rfl]
      refine agrees_call ?_
      unfold query
      dsimp only
      rw [update_of_row hsome]
      exact merged_agrees n rfl rfl _
    | false =>
      rw [if_neg Bool.false_ne_true, if_neg Bool.false_ne_true]
      exact merged_agrees (n + 1) hsome (hrow.trans h.symm) _

/-- A read that nothing interrupts is `getSidebarNavForAdmin`, whatever the row holds. -/
theorem read_alone (hp : ∀ entries, p ≠ .save entries) (h : s.row = store.row) :
    Agrees numberText 5 (s, some (.findUnique p)) p (getSidebarNavForAdmin numberText store) := by
  have hensured : ∀ (s : Site) (value : Entry),
      ensured numberText s p value = repaired numberText s p (rawEntries value) := by
    intro s value
    cases p with
    | save entries => exact absurd rfl (hp entries)
    | _ => rfl
  refine agrees_call ?_
  unfold query
  dsimp only
  cases hrow : s.row with
  | some value =>
    dsimp only
    rw [hensured]
    exact repaired_agrees 1 hrow (h.symm.trans hrow)
  | none =>
    have hwritten : getSidebarNavForAdmin numberText store
        = getSidebarNavForAdmin numberText (store.write defaultEntries) := by
      unfold getSidebarNavForAdmin ensureRow
      rw [← h, hrow]
      rfl
    refine agrees_call ?_
    unfold query
    dsimp only
    rw [hrow, hwritten]
    dsimp only
    rw [hensured]
    exact repaired_agrees 0 rfl rfl

/-- The queries of a save write what it has accepted. -/
theorem saved_agrees {entries : List Entry} :
    Agrees numberText 3 (s, some (.findUnique (.save entries))) (.save entries)
      ((ensureRow store).1.write entries, navOf entries) := by
  have hupdate : ∀ {n : ℕ} {s : Site}, s.row.isSome = true →
      Agrees numberText (n + 1) (s, some (.updateSaved entries)) (.save entries)
        ((ensureRow store).1.write entries, navOf entries) := by
    intro n s hrow
    refine agrees_call ?_
    unfold query
    dsimp only
    rw [update_of_row hrow]
    exact agrees_answer _ ((ensureRow store).1.write entries, navOf entries) rfl
  refine agrees_call ?_
  unfold query
  dsimp only
  cases hrow : s.row with
  | some value =>
    refine hupdate ?_
    rw [hrow]
    rfl
  | none =>
    refine agrees_call ?_
    unfold query
    dsimp only
    rw [hrow]
    exact hupdate rfl

/-- So is a request to save `saveSidebarNavEntries`. -/
theorem save_alone (bodyEntries : Option Entry) (h : s.row = store.row) :
    ∃ s', (service numberText).requestAlone .done 3 s (.putAdminNav bodyEntries) = some s'
      ∧ s'.row = (saveSidebarNavEntries numberText store bodyEntries).1.row
      ∧ s'.log.head? = some (.answered
        (match (saveSidebarNavEntries numberText store bodyEntries).2 with
          | none => .failed "sidebar_nav_save_failed"
          | some (.error code) => .refused code
          | some (.ok nav) => .saved nav)) := by
  unfold saveSidebarNavEntries Service.requestAlone service start
  dsimp only
  cases coerceParentLockedSidebarEntries numberText (bodyEntries.elim [] rawEntries) with
  | none => exact ⟨_, rfl, h, rfl⟩
  | some locked =>
    obtain ⟨afterLocked, changed⟩ := locked
    dsimp only
    cases hvalidate : validateSidebarEntriesPayload
        (coerceInternalOfferwallEarnRoot afterLocked).1 with
    | error code => exact ⟨_, rfl, h, rfl⟩
    | ok entries =>
      obtain ⟨s', hfinish, hrow, hhead⟩ := @saved_agrees numberText s store entries
      obtain ⟨rfl, haccepted⟩ := validate_eq_ok.1 hvalidate
      dsimp only at hhead ⊢
      rw [navOf_accepted haccepted] at hhead ⊢
      exact ⟨s', hfinish, hrow, hhead⟩

end Alone

/-! ## Every run -/

/-- The row has what was written last, and that is settled. -/
structure Sound (s : Site) : Prop where
  row : s.row = (latest s.log).map .array
  settled : ∀ entries ∈ latest s.log, Settled entries
  sequential : Sequential s.log

def Purpose.Sound : Purpose → Prop
  | .save entries => Settled entries
  | _ => True

/-- What a call waits for: no read waits to write. -/
def Waits : Call → Prop
  | .findUnique p => p.Sound
  | .create p => p.Sound
  | .updateSaved entries => Settled entries
  | _ => False

section Runs

variable {numberText : JsNumber → String} {s : Site} {entries : List Entry} {p : Purpose}

theorem Sound.answer (h : Sound s) {response : Response} (hright : Right s.log response) :
    Sound (s.answer response) :=
  ⟨h.row, h.settled, hright, h.sequential⟩

theorem Sound.fail (h : Sound s) (p : Purpose) : Sound (s.answer p.failure) :=
  h.answer (right_failure _ p)

theorem Sound.write (h : Sound s) (hentries : Settled entries) :
    Sound ⟨some (.array entries), .saved entries :: s.log⟩ := by
  refine ⟨rfl, fun e he => ?_, hentries, h.sequential⟩
  obtain rfl := Option.some.inj he
  exact hentries

theorem ensured_sound (h : Sound s) (hp : p.Sound) (hlatest : latest s.log = some entries) :
    Sound (ensured numberText s p (.array entries)).1
      ∧ ∀ c ∈ (ensured numberText s p (.array entries)).2, Waits c := by
  have hsettled := h.settled entries hlatest
  have hread : Sound (repaired numberText s p entries).1
      ∧ ∀ c ∈ (repaired numberText s p entries).2, Waits c := by
    rw [repaired_settled hsettled]
    exact ⟨h.answer (right_nav hlatest hsettled), fun c hc => by cases hc⟩
  cases p with
  | save accepted =>
    refine ⟨h, fun c hc => ?_⟩
    obtain rfl := Option.some.inj hc
    exact hp
  | _ => exact hread

theorem query_sound (h : Sound s) {c : Call} (hc : Waits c) :
    Sound (query numberText s c).1 ∧ ∀ c' ∈ (query numberText s c).2, Waits c' := by
  cases c with
  | findUnique p =>
    unfold query
    cases hlatest : latest s.log with
    | none =>
      rw [h.row, hlatest]
      refine ⟨h, fun c' hc' => ?_⟩
      obtain rfl := Option.some.inj hc'
      exact hc
    | some entries =>
      rw [h.row, hlatest]
      exact ensured_sound h hc hlatest
  | create p =>
    unfold query
    cases hlatest : latest s.log with
    | none =>
      rw [h.row, hlatest]
      refine @ensured_sound _ ⟨_, .created :: s.log⟩ _ _
        ⟨rfl, fun e he => ?_, hlatest, h.sequential⟩
        hc rfl
      obtain rfl := Option.some.inj he
      exact settled_default
    | some entries =>
      rw [h.row, hlatest]
      exact ⟨h.fail p, fun c' hc' => by cases hc'⟩
  | updateSaved entries =>
    unfold query update
    split_ifs
    · exact ⟨(h.write hc).answer (right_nav rfl hc), fun c' hc' => by cases hc'⟩
    · exact ⟨h.fail _, fun c' hc' => by cases hc'⟩
  | updateCoerced _ _ => exact hc.elim
  | updateMerged _ _ => exact hc.elim
  | updateDefaults _ => exact hc.elim

/-- What a save has accepted is settled. -/
theorem settled_saved {locked out : List Entry}
    (h : validateSidebarEntriesPayload (coerceInternalOfferwallEarnRoot locked).1 = .ok out) :
    Settled out := by
  obtain ⟨rfl, haccepted⟩ := validate_eq_ok.1 h
  refine ⟨haccepted, fun e he => ?_⟩
  obtain ⟨p, hp, rfl⟩ := List.mem_map.1 he
  obtain ⟨e, -, rfl⟩ := List.mem_map.1 hp
  exact coerceOfferwall_again e

theorem start_sound (h : Sound s) (r : Request) :
    Sound (start numberText s r).1 ∧ ∀ c ∈ (start numberText s r).2, Waits c := by
  have hwait : ∀ {c : Call}, Waits c → ∀ c' ∈ some c, Waits c' := by
    intro c hc c' hc'
    obtain rfl := Option.some.inj hc'
    exact hc
  have hnone : ∀ c ∈ (none : Option Call), Waits c := fun c hc => by cases hc
  cases r with
  | getAdminNav => exact ⟨h, hwait trivial⟩
  | getPublicNav => exact ⟨h, hwait trivial⟩
  | gate requiredPath =>
    unfold start
    dsimp only
    split_ifs with hempty
    · refine ⟨h.answer (.inr fun id path hpath hvariant => ?_), hnone⟩
      have hplain := plain_of_pathOf hpath
      rw [normalize_variant hplain hvariant] at hempty
      exact absurd hempty hplain.ne_empty
    · exact ⟨h, hwait trivial⟩
  | putAdminNav bodyEntries =>
    unfold start
    dsimp only
    split
    · exact ⟨h.fail (.save []), hnone⟩
    · split
      · exact ⟨h.answer trivial, hnone⟩
      · next out hvalidate => exact ⟨h, hwait (settled_saved hvalidate)⟩

/-- The row before any request, if it is there. -/
def siteOf (initial : Option (List Entry)) : Site :=
  ⟨initial.map .array, (initial.map Happening.saved).toList⟩

theorem sound_siteOf {initial : Option (List Entry)} (h : ∀ entries ∈ initial, Settled entries) :
    Sound (siteOf initial) := by
  cases initial with
  | none => exact ⟨rfl, (fun e he => by cases he), trivial⟩
  | some entries =>
    refine ⟨rfl, fun e he => ?_, h entries rfl, trivial⟩
    obtain rfl := Option.some.inj he
    exact h _ rfl

/-- **However the requests interleave and whichever queries fail**, the row has
what was saved last, no read writes to it, and every response is right for what
was saved last before it. -/
theorem requests_sequential {initial : Option (List Entry)}
    (hinitial : ∀ entries ∈ initial, Settled entries) {es : List (Event Request Outcome)}
    {t : InFlight Site Call}
    (hrun : (service numberText).sys.run ⟨siteOf initial, .empty⟩ es = some t) :
    t.db.row = (latest t.db.log).map .array
      ∧ (∀ entries ∈ latest t.db.log, Settled entries) ∧ Sequential t.db.log := by
  have hsound : Service.Holds Sound (fun _ c => Waits c) t := by
    refine (service numberText).invariant (C := fun _ _ _ => True) ?_ ?_
      ⟨sound_siteOf hinitial, fun i c hc => by cases hc⟩
      ((service numberText).sys.meets_of_forall (fun s e => ?_) _ _) hrun
    · intro s r s' cs hs hstart
      obtain ⟨rfl, rfl⟩ := Prod.mk.inj (Option.some.inj hstart)
      obtain ⟨hsound, hwaits⟩ := start_sound hs r
      exact ⟨hsound, fun _ hd => hd, fun c hc => hwaits c (Option.mem_toList.1 hc)⟩
    · intro s c outcome s' next hs hc _ hresume
      obtain ⟨rfl, rfl⟩ := Prod.mk.inj (Option.some.inj hresume)
      cases outcome with
      | done =>
        obtain ⟨hsound, hwaits⟩ := query_sound hs hc
        exact ⟨hsound, fun _ hd => hd, hwaits⟩
      | error => exact ⟨hs.fail _, fun _ hd => hd, fun c' hc' => by cases hc'⟩
    · cases e with
      | start r => exact trivial
      | resume call outcome => exact fun _ _ => trivial
  exact ⟨hsound.1.row, hsound.1.settled, hsound.1.sequential⟩

/-- Two requests on the default row, one of which loses its connection. -/
theorem requests_sequential_default : ∃ t, (service fun _ => "").sys.run
      ⟨siteOf (some defaultEntries), .empty⟩
      [.start .getAdminNav, .start .getPublicNav, .resume 1 .error, .resume 2 .done] = some t
    ∧ Sequential t.db.log := by
  obtain ⟨t, hrun⟩ : ∃ t, (service fun _ => "").sys.run ⟨siteOf (some defaultEntries), .empty⟩
      [.start .getAdminNav, .start .getPublicNav, .resume 1 .error, .resume 2 .done] = some t :=
    ⟨_, rfl⟩
  refine ⟨t, hrun, (requests_sequential (fun entries he => ?_) hrun).2.2⟩
  obtain rfl := Option.some.inj he
  exact settled_default

end Runs

end BlockMiner.SidebarRequests
