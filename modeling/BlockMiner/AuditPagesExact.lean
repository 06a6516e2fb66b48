import Mathlib.Data.List.DropRight
import BlockMiner.AuditPages

/-!
# Every audit event is on one page

A cursor is read back as the date and the id it was made of, so a page starts
right behind the event its cursor names. From the first page on, the pages are
the matching events of the table as it was at the first, each once; events that
are newer than that page do not change the others.
-/

namespace BlockMiner.AuditPages

open IsoDate (parseISO toISOString)

section Statements

variable (env : Env)

/-- The matching events, newest first. -/
def matching (where' : AuditEvent → Bool) (db : Db) : List AuditEvent :=
  Keyset.newestFirst key (db.auditEvent.filter where')

/-- The request for a page. -/
def request (query : Query) (cursor : Option String) (direction : Direction) : Query :=
  { query with cursor, direction }

/-- The items of the pages from a cursor on, until one has no cursor for the next. The k-th
request finds the k-th table. -/
def walk (dbs : ℕ → Db) (query : Query) : ℕ → ℕ → Option String → Option (List AuditEvent)
  | 0, _, _ => none
  | fuel + 1, k, cursor =>
      (fetchAuditEvents env (dbs k) (request query cursor .next)).bind fun page =>
        match page.nextCursor with
        | none => some page.items
        | some next => (walk dbs query fuel (k + 1) (some next)).map (page.items ++ ·)

/-- Only events newer than the first page come in. -/
def InsertedNewer (query : Query) (dbs : ℕ → Db) : Prop :=
  ∀ page, fetchAuditEvents env (dbs 0) (request query none .next) = some page →
    ∀ first ∈ page.items.head?, ∀ k, ∃ added,
      (dbs k).auditEvent.Perm ((dbs 0).auditEvent ++ added) ∧ ∀ e ∈ added, key first < key e

end Statements

variable {env : Env}

/-! ## Cursors -/

theorem encodeText_ne_empty {text : String} (h : text ≠ "") : Base64.encodeText text ≠ "" := by
  intro hempty
  have hsame : Base64.encodeText text = Base64.encodeText "" := hempty.trans (by decide)
  have hread := congrArg (Base64.decodeText fun _ => "") hsame
  rw [Base64.decodeText_encodeText, Base64.decodeText_encodeText] at hread
  exact h hread

theorem stringify_ne_empty (fields : List (String × JsonSyntax.Scalar)) :
    JsonSyntax.stringify fields ≠ "" := by
  intro hempty
  have hread := JsonSyntax.parse_stringify fields
  rw [hempty] at hread
  cases hread

theorem toISOString_ne_empty (date : IsoDate.TimeValue) : toISOString date ≠ "" := by
  intro hempty
  have hread := IsoDate.parseISO_toISOString date
  rw [hempty] at hread
  cases hread

theorem decodeAuditCursor_cursorOf (e : AuditEvent) :
    decodeAuditCursor env (some (cursorOf e))
      = some { createdAt := some e.createdAt, id := .finite e.id } := by
  have hcursor : cursorOf e ≠ "" := encodeText_ne_empty (stringify_ne_empty _)
  have hdate := toISOString_ne_empty e.createdAt
  unfold decodeAuditCursor
  simp only [Option.filter_some, hcursor, ne_eq, not_false_eq_true, decide_true, if_true,
    Option.bind_eq_bind, Option.bind_some]
  rw [cursorOf, encodeAuditCursor, Base64.decodeText_encodeText, JsonSyntax.parse_stringify]
  simp [Json.get, List.lookup, JsonSyntax.Scalar.json, Json.string?, isFalsy, hdate, Json.text,
    newDate, IsoDate.parseISO_toISOString, Number, Json.toNumber, Option.filter_some]

theorem toInt_intCast {n : ℤ} (h : -2 ^ 31 ≤ n ∧ n < 2 ^ 31) : toInt (.finite n) = some n := by
  simp only [toInt, Rat.den_intCast, Rat.num_intCast]
  exact if_pos ⟨trivial, h⟩

/-- A cursor takes the events on one side of the event it was made of. -/
theorem buildCursorWhere_cursorOf (e : AuditEvent) (direction : Direction) :
    buildCursorWhere (decodeAuditCursor env (some (cursorOf e))) direction
      = some fun a => match direction with
        | .prev => decide (key e < key a)
        | .next => decide (key a < key e) := by
  rw [decodeAuditCursor_cursorOf]
  simp only [buildCursorWhere, toInt_intCast e.isInt, Option.bind_eq_bind, Option.bind_some]
  cases direction with
  | next =>
    refine congrArg some (funext fun a => ?_)
    rw [Bool.eq_iff_iff]
    simp only [key, Prod.Lex.toLex_lt_toLex, Bool.or_eq_true, Bool.and_eq_true, decide_eq_true_eq]
  | prev =>
    refine congrArg some (funext fun a => ?_)
    rw [Bool.eq_iff_iff]
    simp only [key, Prod.Lex.toLex_lt_toLex, Bool.or_eq_true, Bool.and_eq_true, decide_eq_true_eq]
    omega

/-! ## Pages -/

theorem keys_nodup (db : Db) : (db.auditEvent.map key).Nodup := by
  have hids : ((db.auditEvent.map key).map fun k => (ofLex k).2).Nodup := by
    rw [List.map_map]
    exact db.primary
  exact hids.of_map _

theorem take_page (rows : List AuditEvent) (limit : ℕ) :
    (if limit < (rows.take (limit + 1)).length then (rows.take (limit + 1)).take limit
      else rows.take (limit + 1)) = rows.take limit := by
  rw [List.length_take]
  split
  case isTrue => rw [List.take_take, Nat.min_eq_left (Nat.le_succ limit)]
  case isFalse h =>
    rw [List.take_of_length_le (by omega), List.take_of_length_le (by omega)]

theorem buildPageInfo_items (rows : List AuditEvent) (limit : ℕ) (direction : Direction) :
    (buildPageInfo (rows.take (limit + 1)) limit direction).items
      = normalizeResults (rows.take limit) direction := by
  simp only [buildPageInfo, decide_eq_true_eq]
  rw [take_page]

theorem buildPageInfo_prevCursor (results : List AuditEvent) (limit : ℕ) (direction : Direction) :
    (buildPageInfo results limit direction).prevCursor
      = (buildPageInfo results limit direction).items.head?.map cursorOf := rfl

variable {query : Query} {where' : AuditEvent → Bool}

/-- The rows of a query are the matching events that its cursor takes, in its direction. -/
theorem fetch_eq {db : Db} {cursor : Option String} {direction : Direction}
    {cursorWhere : AuditEvent → Bool} (hwhere : buildAuditEventWhere env query = some where')
    (hcursor : buildCursorWhere (decodeAuditCursor env cursor) direction = some cursorWhere) :
    fetchAuditEvents env db (request query cursor direction)
      = some (buildPageInfo ((orderBy direction
          (db.auditEvent.filter fun e => where' e && cursorWhere e)).take (query.limit + 1))
          query.limit direction) := by
  have hfilters : buildAuditEventWhere env (request query cursor direction) = some where' := hwhere
  simp only [fetchAuditEvents, hfilters]
  rw [show (request query cursor direction).cursor = cursor from rfl,
    show (request query cursor direction).direction = direction from rfl, hcursor]
  rfl

theorem newestFirst_where (db : Db) (cursorWhere : AuditEvent → Bool) :
    Keyset.newestFirst key (db.auditEvent.filter fun e => where' e && cursorWhere e)
      = (matching where' db).filter cursorWhere := by
  have hsame : (db.auditEvent.filter fun e => where' e && cursorWhere e)
      = (db.auditEvent.filter where').filter cursorWhere := by
    rw [List.filter_filter]
    exact List.filter_congr fun e _ => Bool.and_comm ..
  rw [hsame]
  exact Keyset.newestFirst_filter (Keyset.nodup_filter (keys_nodup db) where') cursorWhere

/-- The first page. -/
theorem fetch_first (hwhere : buildAuditEventWhere env query = some where') (db : Db) :
    ∃ page, fetchAuditEvents env db (request query none .next) = some page
      ∧ page.items = (matching where' db).take query.limit
      ∧ page.nextCursor = page.items.getLast?.map cursorOf := by
  have hcursor : buildCursorWhere (decodeAuditCursor env none) .next = some fun _ => true := rfl
  refine ⟨_, fetch_eq hwhere hcursor, ?_, rfl⟩
  rw [buildPageInfo_items]
  simp only [orderBy, normalizeResults, newestFirst_where, List.filter_true]

/-- The page behind an event. -/
theorem fetch_next (hwhere : buildAuditEventWhere env query = some where') (db : Db)
    (e : AuditEvent) :
    ∃ page, fetchAuditEvents env db (request query (some (cursorOf e)) .next) = some page
      ∧ page.items = ((matching where' db).filter fun a => key a < key e).take query.limit
      ∧ page.nextCursor = page.items.getLast?.map cursorOf := by
  refine ⟨_, fetch_eq hwhere (buildCursorWhere_cursorOf e .next), ?_, rfl⟩
  rw [buildPageInfo_items]
  simp only [orderBy, normalizeResults, newestFirst_where]

/-- The page before an event. -/
theorem fetch_prev (hwhere : buildAuditEventWhere env query = some where') (db : Db)
    (e : AuditEvent) :
    ∃ page, fetchAuditEvents env db (request query (some (cursorOf e)) .prev) = some page
      ∧ page.items = ((matching where' db).filter fun a => key e < key a).rtake query.limit := by
  refine ⟨_, fetch_eq hwhere (buildCursorWhere_cursorOf e .prev), ?_⟩
  rw [buildPageInfo_items]
  simp only [orderBy, normalizeResults]
  rw [Keyset.oldestFirst_eq_reverse (Keyset.nodup_filter (keys_nodup db) _), newestFirst_where,
    List.rtake_eq_reverse_take_reverse]

/-! ## Walking -/

/-- Newer events are not behind an event of the first table. -/
theorem matching_below {db db' : Db} {added : List AuditEvent} {x : AuditEvent}
    (hadded : db'.auditEvent.Perm (db.auditEvent ++ added)) (hnewer : ∀ e ∈ added, key x ≤ key e) :
    ((matching where' db').filter fun a => key a < key x)
      = (matching where' db).filter fun a => key a < key x := by
  rw [← newestFirst_where, ← newestFirst_where]
  refine Keyset.newestFirst_of_perm (Keyset.nodup_filter (keys_nodup db) _) ?_
  have hperm := hadded.filter fun e => where' e && decide (key e < key x)
  rw [List.filter_append] at hperm
  have hnone : (added.filter fun e => where' e && decide (key e < key x)) = [] := by
    refine List.filter_eq_nil_iff.2 fun e he => ?_
    simp [not_lt.2 (hnewer e he)]
  rwa [hnone, List.append_nil] at hperm

theorem matching_descending (db : Db) : Keyset.Descending key (matching where' db) :=
  Keyset.newestFirst_descending (Keyset.nodup_filter (keys_nodup db) where')

/-- From behind an event on, the pages are the events behind it. -/
theorem walk_behind {dbs : ℕ → Db} {l rest : List AuditEvent} {x : AuditEvent}
    (hwhere : buildAuditEventWhere env query = some where') (hlimit : 1 ≤ query.limit)
    (hall : matching where' (dbs 0) = l ++ x :: rest)
    (hgrows : ∀ k, ∀ y ∈ matching where' (dbs 0),
      ((matching where' (dbs k)).filter fun a => key a < key y)
        = (matching where' (dbs 0)).filter fun a => key a < key y)
    {fuel : ℕ} (hfuel : rest.length < fuel) (k : ℕ) :
    walk env dbs query fuel k (some (cursorOf x)) = some rest := by
  induction fuel generalizing l x rest k with
  | zero => omega
  | succ fuel ih =>
    obtain ⟨page, hpage, hitems, hnext⟩ := fetch_next hwhere (dbs k) x
    have hrest : ((matching where' (dbs k)).filter fun a => key a < key x) = rest := by
      rw [hgrows k x (by simp [hall]), hall]
      exact Keyset.Descending.filter_below (hall ▸ matching_descending (dbs 0))
    rw [hrest] at hitems
    rw [walk, hpage, Option.bind_some, hnext, hitems]
    cases hlast : (rest.take query.limit).getLast? with
    | none =>
      have hnil : rest = [] := by
        have htake := List.getLast?_eq_none_iff.1 hlast
        simpa [show query.limit ≠ 0 by omega] using htake
      simp [hnil]
    | some y =>
      obtain ⟨init, hinit⟩ := List.getLast?_eq_some_iff.1 hlast
      have hsplit : matching where' (dbs 0)
          = (l ++ x :: init) ++ y :: rest.drop query.limit := by
        rw [hall]
        conv_lhs => rw [← List.take_append_drop query.limit rest, hinit]
        simp
      have hpos : 0 < rest.length := by
        cases rest with
        | nil => simp at hlast
        | cons => simp
      have hdrop : (rest.drop query.limit).length < fuel := by
        rw [List.length_drop]
        omega
      simp only [Option.map_some]
      rw [ih hsplit hdrop (k + 1), Option.map_some, List.take_append_drop]

theorem walk_all {dbs : ℕ → Db} (hwhere : buildAuditEventWhere env query = some where')
    (hlimit : 1 ≤ query.limit) (hinserted : InsertedNewer env query dbs) :
    walk env dbs query ((matching where' (dbs 0)).length + 1) 0 none
      = some (matching where' (dbs 0)) := by
  obtain ⟨page, hpage, hitems, hnext⟩ := fetch_first hwhere (dbs 0)
  rw [walk, hpage, Option.bind_some, hnext]
  cases hlast : page.items.getLast? with
  | none =>
    have htake := List.getLast?_eq_none_iff.1 hlast
    have hnil : matching where' (dbs 0) = [] := by
      simpa [hitems, show query.limit ≠ 0 by omega] using htake
    simp [hnil, htake]
  | some y =>
    obtain ⟨init, hinit⟩ := List.getLast?_eq_some_iff.1 hlast
    have hsplit : matching where' (dbs 0)
        = init ++ y :: (matching where' (dbs 0)).drop query.limit := by
      conv_lhs =>
        rw [← List.take_append_drop query.limit (matching where' (dbs 0)), ← hitems, hinit]
      simp
    have hgrows : ∀ k, ∀ x ∈ matching where' (dbs 0),
        ((matching where' (dbs k)).filter fun a => key a < key x)
          = (matching where' (dbs 0)).filter fun a => key a < key x := by
      intro k x hx
      obtain ⟨first, rest, hfirst⟩ := List.exists_cons_of_ne_nil (List.ne_nil_of_mem hx)
      have hhead : first ∈ page.items.head? := by
        rw [hitems, hfirst, List.head?_take, if_neg (by omega)]
        rfl
      obtain ⟨added, hadded, hnewer⟩ := hinserted page hpage first hhead k
      refine matching_below hadded fun e he => ?_
      have hle : key x ≤ key first := by
        rw [hfirst] at hx
        rcases List.mem_cons.1 hx with rfl | hx
        · exact le_rfl
        · have hdescending : Keyset.Descending key (matching where' (dbs 0)) :=
            matching_descending (dbs 0)
          rw [hfirst] at hdescending
          exact ((List.pairwise_cons.1 hdescending).1 x hx).le
      exact hle.trans (hnewer e he).le
    have hdrop : ((matching where' (dbs 0)).drop query.limit).length
        < (matching where' (dbs 0)).length := by
      have hpos : 0 < (matching where' (dbs 0)).length := by
        rw [hsplit]
        simp
      rw [List.length_drop]
      omega
    simp only [Option.map_some]
    rw [walk_behind hwhere hlimit hsplit hgrows hdrop 1, Option.map_some, hitems,
      List.take_append_drop]

theorem mem_prevCursor {db : Db} {q : Query} {page : Page} {c : String}
    (hpage : fetchAuditEvents env db q = some page) (hprev : page.prevCursor = some c) :
    ∃ first ∈ page.items.head?, c = cursorOf first := by
  obtain ⟨cursorWhere, -, hpage⟩ := Option.bind_eq_some_iff.1 hpage
  obtain ⟨baseWhere, -, hpage⟩ := Option.bind_eq_some_iff.1 hpage
  obtain rfl := Option.some.inj hpage
  rw [buildPageInfo_prevCursor] at hprev
  obtain ⟨first, hfirst, rfl⟩ := Option.map_eq_some_iff.1 hprev
  exact ⟨first, hfirst, rfl⟩

/-- **Paging is exact.** The pages from the first on are the events that match, each once and
newest first; the page before a page is the events right before it; and a cursor is read back
as what it was made of. -/
theorem audit_paging_exact (env : Env) {query : Query} {where' : AuditEvent → Bool}
    (hwhere : buildAuditEventWhere env query = some where') (hlimit : 1 ≤ query.limit) :
    (∀ dbs : ℕ → Db, InsertedNewer env query dbs →
      walk env dbs query ((matching where' (dbs 0)).length + 1) 0 none
        = some (matching where' (dbs 0)))
    ∧ (∀ db db' q page c, fetchAuditEvents env db q = some page → page.prevCursor = some c →
      ∃ first ∈ page.items.head?, ∃ before,
        fetchAuditEvents env db' (request query (some c) .prev) = some before
          ∧ before.items
            = ((matching where' db').filter fun a => key first < key a).rtake query.limit)
    ∧ ∀ e : AuditEvent, decodeAuditCursor env
        (some (encodeAuditCursor (toISOString e.createdAt) e.id))
      = some { createdAt := some e.createdAt, id := .finite e.id } := by
  refine ⟨fun dbs hinserted => walk_all hwhere hlimit hinserted, ?_, decodeAuditCursor_cursorOf⟩
  intro db db' q page c hpage hprev
  obtain ⟨first, hfirst, rfl⟩ := mem_prevCursor hpage hprev
  obtain ⟨before, hbefore, hitems⟩ := fetch_prev hwhere db' first
  exact ⟨first, hfirst, before, hbefore, hitems⟩

/-! ## Two events of one date -/

def plainEnv : Env where
  legacyDate := fun _ => none
  lossy := fun _ => ""
  containsInsensitive := fun field text => field = text
  numberText := fun _ => ""

def loginEvent (id : ℤ) (h : -2 ^ 31 ≤ id ∧ id < 2 ^ 31) : AuditEvent where
  id
  correlationId := "c"
  userId := some 7
  eventType := "LOGIN"
  status := "ok"
  severity := none
  resultCode := "200"
  ipHash := "h"
  txHash := none
  createdAt := ⟨1700000000000, by decide⟩
  isInt := h

def tieDb : Db where
  auditEvent := [loginEvent 1 (by decide), loginEvent 2 (by decide)]
  primary := by decide

def loginQuery : Query where
  limit := 1
  cursor := none
  direction := .next
  fromDate := some "2023-11-14T00:00:00.000Z"
  toDate := none
  userId := none
  eventType := some "LOGIN"
  status := none
  severity := none
  ipHash := none
  correlationId := none
  txHash := none
  search := none

theorem audit_paging_exact_tie :
    ∃ where', buildAuditEventWhere plainEnv loginQuery = some where'
      ∧ walk plainEnv (fun _ => tieDb) loginQuery ((matching where' tieDb).length + 1) 0 none
        = some (matching where' tieDb) := by
  obtain ⟨where', hwhere⟩ : ∃ w, buildAuditEventWhere plainEnv loginQuery = some w := ⟨_, rfl⟩
  have hinserted : InsertedNewer plainEnv loginQuery fun _ => tieDb := by
    intro page _ first _ k
    exact ⟨[], by simp, by simp⟩
  exact ⟨where', hwhere, (audit_paging_exact plainEnv hwhere (by decide)).1 _ hinserted⟩

end BlockMiner.AuditPages
