import BlockMiner.Json
import BlockMiner.OrdMap
import Mathlib.Data.Finset.Card
import Mathlib.Data.List.Sort
import Mathlib.Algebra.Order.Floor.Ring
import Mathlib.Data.Rat.Floor

/-!
# The rate limiter

`middleware/rateLimit.js`: a fixed window for each key, opened by its first
request. Keys are kept in a `Map`; once in a while a request first drops those
that have not been seen for a while, and if there are still too many, the ones
seen longest ago.

The limiter is compared with one that never forgets a key (`Reference`). The
entry of a key is the window of the reference, or it is gone, and then that
window is over (`Tracks`).
-/

namespace BlockMiner

namespace OrdMap

variable {κ ν : Type*} [DecidableEq κ]

/-- The entries that are not deleted, in their order. -/
def filter (m : OrdMap κ ν) (keep : κ → ν → Bool) : OrdMap κ ν where
  entries := m.entries.filter fun e => keep e.1 e.2
  nodup := m.nodup.sublist (List.filter_sublist.map _)

theorem get?_filter_eq_some {m : OrdMap κ ν} {keep : κ → ν → Bool} {k : κ} {v : ν} :
    (m.filter keep).get? k = some v ↔ m.get? k = some v ∧ keep k v = true := by
  rw [← mem_entries, ← mem_entries]
  exact List.mem_filter

end OrdMap

namespace RateLimit

variable {κ ρ : Type*}

/-! ## The limiter -/

/-- The options of `createRateLimiter`. A missing `skip` skips nothing. -/
structure Options (κ ρ : Type*) where
  windowMs : ℚ
  max : JsNumber
  keyGenerator : ρ → κ
  skip : ρ → Bool
  message : String
  statusCode : ℕ
  cleanupIntervalMs : ℚ
  staleAfterMs : ℚ
  maxKeys : ℤ

structure Entry where
  count : ℕ
  resetAt : ℚ
  lastSeenAt : ℚ

structure State (κ : Type*) where
  hits : OrdMap κ Entry
  lastCleanupAt : ℚ

structure Headers where
  limit : JsNumber
  remaining : JsNumber
  reset : ℤ

inductive Response where
  /-- `next()` for a request that is not counted. -/
  | skipped
  | passed (headers : Headers)
  | refused (headers : Headers) (retryAfter : ℤ) (statusCode : ℕ) (message : String)

/-- `count > max` -/
def exceeds (max : JsNumber) (count : ℕ) : Bool :=
  match max with
  | .finite q => q < count
  | .infinite negative => negative
  | .nan => false

/-- `Math.max(max - count, 0)` -/
def remaining (max : JsNumber) (count : ℕ) : JsNumber :=
  match max with
  | .finite q => .finite (Max.max (q - count) 0)
  | .infinite negative => if negative then .finite 0 else .infinite false
  | .nan => .nan

variable (opts : Options κ ρ)

def isStale (now : ℚ) (e : Entry) : Bool := opts.staleAfterMs < now - e.lastSeenAt

section Middleware

variable [DecidableEq κ]

/-- The keys seen longest ago, as many as there are too many of. -/
def oldest (hits : OrdMap κ Entry) : List κ :=
  ((hits.entries.insertionSort fun a b => a.2.lastSeenAt ≤ b.2.lastSeenAt).take
    (hits.entries.length - opts.maxKeys.toNat)).map Prod.fst

def cleanup (now : ℚ) (hits : OrdMap κ Entry) : OrdMap κ Entry :=
  let hits := hits.filter fun _ e => !isStale opts now e
  if 0 < opts.maxKeys ∧ opts.maxKeys < hits.entries.length then
    hits.filter fun k _ => k ∉ oldest opts hits
  else hits

/-- The cleanup that comes before a request, when it is time for one. -/
def tidied (s : State κ) (now : ℚ) : State κ :=
  if 0 < opts.cleanupIntervalMs ∧ opts.cleanupIntervalMs ≤ now - s.lastCleanupAt then
    ⟨cleanup opts now s.hits, now⟩
  else s

end Middleware

/-- The entry of a request, counted. -/
def counted (found : Option Entry) (now : ℚ) : Entry :=
  let entry := found.getD ⟨0, now + opts.windowMs, now⟩
  let entry := if entry.resetAt < now then { entry with count := 0, resetAt := now + opts.windowMs }
    else entry
  { entry with lastSeenAt := now, count := entry.count + 1 }

def respond (e : Entry) (now : ℚ) : Response :=
  let headers : Headers := ⟨opts.max, remaining opts.max e.count, ⌈e.resetAt / 1000⌉⟩
  if exceeds opts.max e.count then
    .refused headers (Max.max ⌈(e.resetAt - now) / 1000⌉ 1) opts.statusCode opts.message
  else .passed headers

section Middleware

variable [DecidableEq κ]

/-- The middleware, for a request at `now`. -/
def handle (s : State κ) (req : ρ) (now : ℚ) : State κ × Response :=
  if opts.skip req then (s, .skipped)
  else
    let s := tidied opts s now
    let entry := counted opts (s.hits.get? (opts.keyGenerator req)) now
    (⟨s.hits.set (opts.keyGenerator req) entry, s.lastCleanupAt⟩, respond opts entry now)

/-- The answers to requests one after the other, each with its instant. -/
def answers : State κ → List (ρ × ℚ) → List Response
  | _, [] => []
  | s, (req, now) :: rest =>
      (handle opts s req now).2 :: answers (handle opts s req now).1 rest

def createRateLimiter (now : ℚ) : State κ := ⟨OrdMap.empty, now⟩

end Middleware

/-! ## The reference -/

/-- A window, with the requests in it. -/
structure Window where
  start : ℚ
  count : ℕ

namespace Reference

/-- The window of a request: the one that is open, or a new one if that
started more than `windowMs` ago. -/
def window (found : Option Window) (now : ℚ) : Window :=
  match found with
  | none => ⟨now, 1⟩
  | some w => if w.start + opts.windowMs < now then ⟨now, 1⟩ else ⟨w.start, w.count + 1⟩

def respond (w : Window) (now : ℚ) : Response :=
  RateLimit.respond opts ⟨w.count, w.start + opts.windowMs, now⟩ now

variable [DecidableEq κ]

def handle (windows : κ → Option Window) (req : ρ) (now : ℚ) : (κ → Option Window) × Response :=
  if opts.skip req then (windows, .skipped)
  else
    let w := window opts (windows (opts.keyGenerator req)) now
    (Function.update windows (opts.keyGenerator req) (some w), respond opts w now)

def answers : (κ → Option Window) → List (ρ × ℚ) → List Response
  | _, [] => []
  | windows, (req, now) :: rest =>
      (handle opts windows req now).2 :: answers (handle opts windows req now).1 rest

end Reference

/-! ## What the limiter knows -/

/-- The entry of a key holds its window, and was last seen in it or later; without an entry
the window is over. -/
def Tracks (now : ℚ) (entry : Option Entry) (w : Option Window) : Prop :=
  match entry with
  | some e => w = some ⟨e.resetAt - opts.windowMs, e.count⟩
      ∧ e.resetAt - opts.windowMs ≤ e.lastSeenAt ∧ e.lastSeenAt ≤ now
  | none => ∀ old ∈ w, old.start + opts.windowMs < now

section Tracks

variable {opts} {now now' : ℚ}

theorem Tracks.later {entry : Option Entry} {w : Option Window} (h : Tracks opts now entry w)
    (hle : now ≤ now') : Tracks opts now' entry w := by
  cases entry with
  | none => exact fun old hold => (h old hold).trans_le hle
  | some e => exact ⟨h.1, h.2.1, h.2.2.trans hle⟩

/-- A stale entry has a window that is over. -/
theorem Tracks.stale (hwindow : 0 < opts.windowMs)
    (hstale : opts.staleAfterMs = opts.windowMs * 2) {e : Entry} {w : Option Window}
    (h : Tracks opts now (some e) w) (hold : isStale opts now e = true) :
    Tracks opts now none w := by
  obtain ⟨rfl, hstart, -⟩ := h
  rintro _ ⟨⟩
  have hgone : opts.staleAfterMs < now - e.lastSeenAt := of_decide_eq_true hold
  simp only
  linarith

theorem Tracks.start_le {entry : Option Entry} {w : Option Window} (h : Tracks opts now entry w) :
    (Reference.window opts w now).start ≤ now := by
  unfold Reference.window
  cases w with
  | none => exact le_rfl
  | some old =>
      simp only
      split
      case isTrue => exact le_rfl
      case isFalse hopen =>
        cases entry with
        | none => exact absurd (h old rfl) hopen
        | some e =>
            obtain ⟨hold, hstart, hseen⟩ := h
            obtain rfl := Option.some.inj hold
            exact hstart.trans hseen

theorem counted_eq (hwindow : 0 < opts.windowMs) {entry : Option Entry} {w : Option Window}
    (h : Tracks opts now entry w) :
    counted opts entry now
      = ⟨(Reference.window opts w now).count,
          (Reference.window opts w now).start + opts.windowMs, now⟩ := by
  cases entry with
  | none =>
      have hnew : Reference.window opts w now = ⟨now, 1⟩ := by
        cases w with
        | none => rfl
        | some old => exact if_pos (h old rfl)
      have hopen : ¬now + opts.windowMs < now := by linarith
      simp [counted, hnew, hopen]
  | some e =>
      obtain ⟨rfl, -, -⟩ := h
      by_cases hover : e.resetAt < now
      · simp [counted, Reference.window, hover]
      · simp [counted, Reference.window, hover]

end Tracks

variable [DecidableEq κ]

/-- The limiter knows the windows of the reference, and has entries for these keys only. -/
structure Follows (keys : Finset κ) (now : ℚ) (s : State κ) (windows : κ → Option Window) :
    Prop where
  tracks : ∀ k, Tracks opts now (s.hits.get? k) (windows k)
  known : ∀ k e, s.hits.get? k = some e → k ∈ keys

section Run

variable {opts} {keys : Finset κ} {now now' : ℚ} {s : State κ} {windows : κ → Option Window}

/-- There are never too many keys. -/
theorem Follows.length_le (h : Follows opts keys now s windows) :
    s.hits.entries.length ≤ keys.card := by
  have hsub : (s.hits.entries.map Prod.fst).toFinset ⊆ keys := by
    intro k hk
    obtain ⟨⟨k', e⟩, he, rfl⟩ := List.mem_map.mp (List.mem_toFinset.mp hk)
    exact h.known k' e (OrdMap.mem_entries.mp he)
  calc s.hits.entries.length = (s.hits.entries.map Prod.fst).toFinset.card := by
        rw [List.toFinset_card_of_nodup s.hits.nodup, List.length_map]
    _ ≤ keys.card := Finset.card_le_card hsub

/-- A cleanup deletes only windows that are over. -/
theorem Follows.tidied (hwindow : 0 < opts.windowMs)
    (hstale : opts.staleAfterMs = opts.windowMs * 2) (hkeys : (keys.card : ℤ) ≤ opts.maxKeys)
    (h : Follows opts keys now s windows) :
    Follows opts keys now (tidied opts s now) windows := by
  unfold RateLimit.tidied
  split
  case isFalse => exact h
  case isTrue =>
    have hfresh : Follows opts keys now
        ⟨s.hits.filter fun _ e => !isStale opts now e, now⟩ windows := by
      constructor
      · intro k
        have hk := h.tracks k
        cases hfound : (s.hits.filter fun _ e => !isStale opts now e).get? k with
        | some e =>
            obtain ⟨hold, -⟩ := OrdMap.get?_filter_eq_some.mp hfound
            rwa [hold] at hk
        | none =>
            cases hold : s.hits.get? k with
            | none => rwa [hold] at hk
            | some e =>
                rw [hold] at hk
                refine hk.stale hwindow hstale ?_
                by_contra hnot
                have hkept : (s.hits.filter fun _ e => !isStale opts now e).get? k = some e :=
                  OrdMap.get?_filter_eq_some.mpr ⟨hold, by simpa using hnot⟩
                rw [hfound] at hkept
                cases hkept
      · intro k e hk
        exact h.known k e (OrdMap.get?_filter_eq_some.mp hk).1
    have hfew : (s.hits.filter fun _ e => !isStale opts now e).entries.length ≤ keys.card :=
      hfresh.length_le
    rw [cleanup, if_neg (by omega)]
    exact hfresh

/-- One request. -/
theorem Follows.handle (hwindow : 0 < opts.windowMs)
    (hstale : opts.staleAfterMs = opts.windowMs * 2) (hkeys : (keys.card : ℤ) ≤ opts.maxKeys)
    (h : Follows opts keys now s windows) (hle : now ≤ now') {req : ρ}
    (hreq : opts.skip req = false → opts.keyGenerator req ∈ keys) :
    Follows opts keys now' (handle opts s req now').1 (Reference.handle opts windows req now').1
      ∧ (handle opts s req now').2 = (Reference.handle opts windows req now').2 := by
  have hlater : Follows opts keys now' s windows :=
    ⟨fun k => (h.tracks k).later hle, h.known⟩
  unfold RateLimit.handle Reference.handle
  cases hskip : opts.skip req with
  | true => exact ⟨hlater, rfl⟩
  | false =>
      have htidied := hlater.tidied hwindow hstale hkeys
      generalize RateLimit.tidied opts s now' = t at htidied ⊢
      have hcounted := counted_eq hwindow (htidied.tracks (opts.keyGenerator req))
      simp only [Bool.false_eq_true, if_false]
      refine ⟨⟨fun k => ?_, fun k e hk => ?_⟩, ?_⟩
      · rw [OrdMap.get?_set, Function.update_apply]
        split
        case isTrue =>
          rw [hcounted]
          refine ⟨by simp, ?_, le_rfl⟩
          simpa using (htidied.tracks (opts.keyGenerator req)).start_le
        case isFalse => exact htidied.tracks k
      · rw [OrdMap.get?_set] at hk
        split at hk
        case isTrue hself => exact hself ▸ hreq hskip
        case isFalse => exact htidied.known k e hk
      · rw [hcounted]
        rfl

/-- **Run lemma.** The two give the same answers. -/
theorem Follows.answers (hwindow : 0 < opts.windowMs)
    (hstale : opts.staleAfterMs = opts.windowMs * 2) (hkeys : (keys.card : ℤ) ≤ opts.maxKeys)
    {reqs : List (ρ × ℚ)} (hreqs : ∀ r ∈ reqs, opts.skip r.1 = false → opts.keyGenerator r.1 ∈ keys)
    (hclock : (reqs.map Prod.snd).Pairwise (· ≤ ·)) (hnow : ∀ r ∈ reqs, now ≤ r.2)
    (h : Follows opts keys now s windows) :
    answers opts s reqs = Reference.answers opts windows reqs := by
  induction reqs generalizing now s windows with
  | nil => rfl
  | cons r reqs ih =>
      obtain ⟨req, now'⟩ := r
      obtain ⟨hlater, hclock⟩ := List.pairwise_cons.mp hclock
      obtain ⟨hnext, hsame⟩ := h.handle hwindow hstale hkeys (hnow _ List.mem_cons_self)
        (hreqs _ List.mem_cons_self)
      have hrest := ih (fun r hr => hreqs r (List.mem_cons_of_mem _ hr)) hclock
        (fun r hr => hlater _ (List.mem_map_of_mem hr)) hnext
      rw [RateLimit.answers, Reference.answers, hsame, hrest]

theorem follows_new (keys : Finset κ) (created now : ℚ) :
    Follows opts keys now (createRateLimiter created) fun _ => none :=
  ⟨fun _ _ hw => (nomatch hw), fun _ _ hk => nomatch hk⟩

/-! ## Other keys -/

/-- The answers to the requests of a key. -/
def answersTo (opts : Options κ ρ) (k : κ) (reqs : List (ρ × ℚ)) (given : List Response) :
    List Response :=
  ((reqs.zip given).filter fun r => opts.keyGenerator r.1.1 = k).map Prod.snd

/-- The reference keeps the keys apart. -/
theorem Reference.answers_filter {k : κ} {windows windows' : κ → Option Window}
    (h : windows k = windows' k) (reqs : List (ρ × ℚ)) :
    Reference.answers opts windows (reqs.filter fun r => opts.keyGenerator r.1 = k)
      = answersTo opts k reqs (Reference.answers opts windows' reqs) := by
  induction reqs generalizing windows windows' with
  | nil => rfl
  | cons r reqs ih =>
      obtain ⟨req, now⟩ := r
      by_cases hkey : opts.keyGenerator req = k
      · subst hkey
        have hnext : (handle opts windows req now).1 (opts.keyGenerator req)
            = (handle opts windows' req now).1 (opts.keyGenerator req) := by
          unfold handle
          split
          · exact h
          · simp [h]
        have hsame : (handle opts windows req now).2 = (handle opts windows' req now).2 := by
          unfold handle
          split
          · rfl
          · rw [h]
        have hrest := ih hnext
        simp only [answersTo] at hrest ⊢
        simp [Reference.answers, hsame, hrest]
      · have hnext : windows k = (handle opts windows' req now).1 k := by
          unfold handle
          split
          · exact h
          · exact h.trans (Function.update_of_ne (Ne.symm hkey) _ _).symm
        have hrest := ih hnext
        simp only [answersTo] at hrest ⊢
        simp [Reference.answers, hkey, hrest]

end Run

/-- The keys of the requests that are counted. -/
def keysOf (reqs : List (ρ × ℚ)) : Finset κ :=
  ((reqs.filter fun r => !opts.skip r.1).map fun r => opts.keyGenerator r.1).toFinset

/-- Two requests in a second, by their address. -/
def perSecond : Options ℕ ℕ where
  windowMs := 1000
  max := .finite 1
  keyGenerator := id
  skip := fun _ => false
  message := "Too many requests. Slow down."
  statusCode := 429
  cleanupIntervalMs := 1500
  staleAfterMs := 2000
  maxKeys := 2

end RateLimit

end BlockMiner
