import BlockMiner.AuditPagesExact

/-!
# The flags of an audit page

A page is read in one direction, with one row more than it holds, and both of
its flags say whether that row was there. So the flag of the direction that
was read is right, and the other one only by coincidence.
-/

namespace BlockMiner.AuditPages

/-- What the flags of a page should say. -/
structure FlagsCorrect (where' : AuditEvent → Bool) (db : Db) (page : Page) : Prop where
  next : ∀ last ∈ page.items.getLast?,
    page.hasNext = true ↔ ∃ e ∈ db.auditEvent.filter where', key e < key last
  prev : ∀ first ∈ page.items.head?,
    page.hasPrev = true ↔ ∃ e ∈ db.auditEvent.filter where', key first < key e

/-- What a cursor takes in a direction goes on from there to the end of the table. -/
theorem buildCursorWhere_below {cursor : Option Cursor} {cursorWhere : AuditEvent → Bool}
    (h : buildCursorWhere cursor .next = some cursorWhere) {a b : AuditEvent}
    (hb : cursorWhere b = true) (hab : key a < key b) : cursorWhere a = true := by
  cases cursor with
  | none =>
      obtain rfl := Option.some.inj h
      rfl
  | some cursor =>
      obtain ⟨date, -, h⟩ := Option.bind_eq_some_iff.mp h
      obtain ⟨id, -, h⟩ := Option.bind_eq_some_iff.mp h
      obtain rfl := Option.some.inj h
      simp only [key, Prod.Lex.toLex_lt_toLex, Bool.or_eq_true, Bool.and_eq_true,
        decide_eq_true_eq] at hab hb ⊢
      omega

theorem buildCursorWhere_above {cursor : Option Cursor} {cursorWhere : AuditEvent → Bool}
    (h : buildCursorWhere cursor .prev = some cursorWhere) {a b : AuditEvent}
    (hb : cursorWhere b = true) (hab : key b < key a) : cursorWhere a = true := by
  cases cursor with
  | none =>
      obtain rfl := Option.some.inj h
      rfl
  | some cursor =>
      obtain ⟨date, -, h⟩ := Option.bind_eq_some_iff.mp h
      obtain ⟨id, -, h⟩ := Option.bind_eq_some_iff.mp h
      obtain rfl := Option.some.inj h
      simp only [key, Prod.Lex.toLex_lt_toLex, Bool.or_eq_true, Bool.and_eq_true,
        decide_eq_true_eq] at hab hb ⊢
      omega

/-- Both flags say whether there were more rows than the page holds. -/
theorem buildPageInfo_flags (rows : List AuditEvent) (limit : ℕ) (direction : Direction) :
    (buildPageInfo (rows.take (limit + 1)) limit direction).hasNext = decide (limit < rows.length)
      ∧ (buildPageInfo (rows.take (limit + 1)) limit direction).hasPrev
        = decide (limit < rows.length) := by
  have hmore : decide (limit < (rows.take (limit + 1)).length) = decide (limit < rows.length) := by
    rw [List.length_take]
    congr 1
    apply propext
    omega
  exact ⟨hmore, hmore⟩

section Flags

variable {where' : AuditEvent → Bool} {db : Db} {cursorWhere : AuditEvent → Bool} {limit : ℕ}
  {page : Page}

/-- Read downwards, `hasNext` is right, and `hasPrev` if it happens to be the same. -/
theorem flags_of_next
    (hdown : ∀ {a b}, cursorWhere b = true → key a < key b → cursorWhere a = true)
    (hpage : page = buildPageInfo ((orderBy .next
      ((db.auditEvent.filter where').filter cursorWhere)).take (limit + 1)) limit .next)
    (hne : page.items ≠ []) :
    FlagsCorrect where' db page ↔
      (limit < ((db.auditEvent.filter where').filter cursorWhere).length
        ↔ ∃ e ∈ db.auditEvent.filter where', cursorWhere e = false) := by
  have hnodup := Keyset.nodup_filter (keys_nodup db) where'
  have hflags := buildPageInfo_flags
    (orderBy .next ((db.auditEvent.filter where').filter cursorWhere)) limit .next
  have hitems := buildPageInfo_items
    (orderBy .next ((db.auditEvent.filter where').filter cursorWhere)) limit .next
  rw [← hpage, orderBy, (Keyset.newestFirst_perm _).length_eq] at hflags
  rw [← hpage, orderBy, normalizeResults] at hitems
  constructor
  · intro hcorrect
    obtain ⟨first, rest, hfirst⟩ := List.exists_cons_of_ne_nil hne
    have hhead : first ∈ page.items.head? := by rw [hfirst]; rfl
    have hprev := hcorrect.prev first hhead
    rw [hitems] at hhead
    rw [hflags.2, decide_eq_true_iff, ← Keyset.untaken_iff hnodup hdown hhead] at hprev
    exact hprev
  · intro hsame
    refine ⟨fun last hlast => ?_, fun first hfirst => ?_⟩
    · rw [hitems] at hlast
      rw [hflags.1, decide_eq_true_iff]
      exact Keyset.more_iff hnodup hdown hlast
    · rw [hitems] at hfirst
      rw [hflags.2, decide_eq_true_iff, ← Keyset.untaken_iff hnodup hdown hfirst]
      exact hsame

/-- Read upwards, it is the other way round. -/
theorem flags_of_prev
    (hup : ∀ {a b}, cursorWhere b = true → key b < key a → cursorWhere a = true)
    (hpage : page = buildPageInfo ((orderBy .prev
      ((db.auditEvent.filter where').filter cursorWhere)).take (limit + 1)) limit .prev)
    (hne : page.items ≠ []) :
    FlagsCorrect where' db page ↔
      (limit < ((db.auditEvent.filter where').filter cursorWhere).length
        ↔ ∃ e ∈ db.auditEvent.filter where', cursorWhere e = false) := by
  -- the keys from the lowest up are their duals from the highest down
  let dual : AuditEvent → (ℤ ×ₗ ℤ)ᵒᵈ := fun e => OrderDual.toDual (key e)
  have hnodup : ((db.auditEvent.filter where').map dual).Nodup :=
    Keyset.nodup_filter (keys_nodup db) where'
  have hdown : ∀ {a b}, cursorWhere b = true → dual a < dual b → cursorWhere a = true :=
    fun hb hab => hup hb hab
  have hflags := buildPageInfo_flags
    (orderBy .prev ((db.auditEvent.filter where').filter cursorWhere)) limit .prev
  have hitems := buildPageInfo_items
    (orderBy .prev ((db.auditEvent.filter where').filter cursorWhere)) limit .prev
  rw [← hpage, orderBy, (Keyset.oldestFirst_perm _).length_eq] at hflags
  rw [← hpage, orderBy, normalizeResults] at hitems
  have hrows : Keyset.oldestFirst key ((db.auditEvent.filter where').filter cursorWhere)
      = Keyset.newestFirst dual ((db.auditEvent.filter where').filter cursorWhere) := rfl
  rw [hrows] at hitems
  constructor
  · intro hcorrect
    obtain ⟨last, hlast⟩ : ∃ last, page.items.getLast? = some last :=
      ⟨_, List.getLast?_eq_some_getLast hne⟩
    have hnext := hcorrect.next last hlast
    rw [hitems, List.getLast?_reverse] at hlast
    rw [hflags.1, decide_eq_true_iff] at hnext
    exact hnext.trans (Keyset.untaken_iff hnodup hdown hlast).symm
  · intro hsame
    refine ⟨fun last hlast => ?_, fun first hfirst => ?_⟩
    · rw [hitems, List.getLast?_reverse] at hlast
      rw [hflags.1, decide_eq_true_iff]
      exact hsame.trans (Keyset.untaken_iff hnodup hdown hlast)
    · rw [hitems, List.head?_reverse] at hfirst
      rw [hflags.2, decide_eq_true_iff]
      exact Keyset.more_iff hnodup hdown hfirst

end Flags

/-- The page of a query, from the matching events that its cursor takes. -/
theorem fetch_built {env : Env} {db : Db} {query : Query} {page : Page}
    {where' cursorWhere : AuditEvent → Bool} (hwhere : buildAuditEventWhere env query = some where')
    (hcursor : buildCursorWhere (decodeAuditCursor env query.cursor) query.direction
      = some cursorWhere)
    (hpage : fetchAuditEvents env db query = some page) :
    page = buildPageInfo ((orderBy query.direction
      ((db.auditEvent.filter where').filter cursorWhere)).take (query.limit + 1)) query.limit
      query.direction := by
  have hrows : ((db.auditEvent.filter where').filter cursorWhere)
      = db.auditEvent.filter fun e => where' e && cursorWhere e := by
    rw [List.filter_filter]
    exact List.filter_congr fun e _ => Bool.and_comm ..
  have hbuilt : fetchAuditEvents env db query = some (buildPageInfo ((orderBy query.direction
      ((db.auditEvent.filter where').filter cursorWhere)).take (query.limit + 1)) query.limit
      query.direction) := by
    rw [hrows]
    exact fetch_eq hwhere hcursor
  exact Option.some.inj (hpage.symm.trans hbuilt)

/-- **Flags.** The flags of a page with items are right if and only if there are more matching
events on the side of the cursor that is read than the page holds exactly when there is a
matching event that the cursor does not take. -/
theorem flags_correct_iff {env : Env} {db : Db} {query : Query} {page : Page}
    {where' cursorWhere : AuditEvent → Bool} (hwhere : buildAuditEventWhere env query = some where')
    (hcursor : buildCursorWhere (decodeAuditCursor env query.cursor) query.direction
      = some cursorWhere)
    (hpage : fetchAuditEvents env db query = some page) (hne : page.items ≠ []) :
    FlagsCorrect where' db page ↔
      (query.limit < ((db.auditEvent.filter where').filter cursorWhere).length
        ↔ ∃ e ∈ db.auditEvent.filter where', cursorWhere e = false) := by
  have hbuilt := fetch_built hwhere hcursor hpage
  cases hdirection : query.direction with
  | next =>
      rw [hdirection] at hbuilt hcursor
      exact flags_of_next (buildCursorWhere_below hcursor) hbuilt hne
  | prev =>
      rw [hdirection] at hbuilt hcursor
      exact flags_of_prev (buildCursorWhere_above hcursor) hbuilt hne

/-! ## Two events, one a page -/

theorem loginQuery_where :
    ∃ where', buildAuditEventWhere plainEnv loginQuery = some where'
      ∧ tieDb.auditEvent.filter where' = tieDb.auditEvent := by
  have hall : ∃ where' ∈ buildAuditEventWhere plainEnv loginQuery,
      tieDb.auditEvent.all where' = true := by
    decide +kernel
  obtain ⟨where', hwhere, hall⟩ := hall
  exact ⟨where', hwhere, List.filter_eq_self.mpr (List.all_eq_true.mp hall)⟩

theorem loginQuery_page {where' : AuditEvent → Bool}
    (hwhere : buildAuditEventWhere plainEnv loginQuery = some where')
    (hall : tieDb.auditEvent.filter where' = tieDb.auditEvent) :
    ∃ page, fetchAuditEvents plainEnv tieDb loginQuery = some page ∧ page.items ≠ [] := by
  obtain ⟨page, hpage, hitems, -⟩ := fetch_first hwhere tieDb
  refine ⟨page, hpage, fun hnil => ?_⟩
  have hlength := congrArg List.length (hnil.symm.trans hitems)
  rw [matching, hall, List.length_take, (Keyset.newestFirst_perm _).length_eq] at hlength
  cases hlength

theorem flags_correct_iff_tie :
    ∃ where' page, page.items ≠ [] ∧ (FlagsCorrect where' tieDb page ↔
      (loginQuery.limit < ((tieDb.auditEvent.filter where').filter fun _ => true).length
        ↔ ∃ e ∈ tieDb.auditEvent.filter where', true = false)) := by
  obtain ⟨where', hwhere, hall⟩ := loginQuery_where
  obtain ⟨page, hpage, hne⟩ := loginQuery_page hwhere hall
  exact ⟨where', page, hne, flags_correct_iff hwhere rfl hpage hne⟩

/-- The first of two pages says that there is one before it. -/
theorem first_page_hasPrev :
    ¬∀ (env : Env) (db : Db) (query : Query) (page : Page) (where' : AuditEvent → Bool),
      buildAuditEventWhere env query = some where' → fetchAuditEvents env db query = some page →
        page.items ≠ [] → FlagsCorrect where' db page := by
  intro h
  obtain ⟨where', hwhere, hall⟩ := loginQuery_where
  obtain ⟨page, hpage, hne⟩ := loginQuery_page hwhere hall
  have hcursor : buildCursorWhere (decodeAuditCursor plainEnv loginQuery.cursor)
      loginQuery.direction = some fun _ => true := rfl
  have hbuilt := fetch_built hwhere hcursor hpage
  have hsame :=
    (flags_of_next (fun _ _ => rfl) hbuilt hne).mp (h _ _ _ page where' hwhere hpage hne)
  rw [hall] at hsame
  obtain ⟨e, -, hfalse⟩ := hsame.mp (by decide)
  cases hfalse

end BlockMiner.AuditPages
