import BlockMiner.OrdMap
import Mathlib.Algebra.Order.Group.Defs

/-!
# Sliding windows

A limiter that admits a request if fewer than `max` requests of its key were
admitted in the window before it. Of each key it keeps instants that were
admitted, and drops the ones that have left the window as it admits the next.

What it keeps has always the same part in the window as all that was admitted
(`Tracks`), so it decides as if it dropped nothing (`Tracks.allow_iff`), and
no window of the length has more than `max` admitted requests
(`bounded_accept`).
-/

namespace BlockMiner.SlidingWindow

variable {τ κ : Type*} [AddCommGroup τ] [LinearOrder τ] [DecidableEq κ]

/-! ## One key -/

/-- The instants that are in the window before `now`. -/
def recent (window now : τ) (times : List τ) : List τ := times.filter fun t => now - t < window

/-- What is kept after a request, if it is admitted. -/
def accept (max : ℕ) (window now : τ) (times : List τ) : Option (List τ) :=
  if max ≤ (recent window now times).length then none else some (recent window now times ++ [now])

/-- From `now` on, what is kept has the same part in the window as all that was admitted. -/
def Keeps (window now : τ) (kept admitted : List τ) : Prop :=
  ∀ later, now ≤ later → recent window later kept = recent window later admitted

/-- No window of the length has more than `max`. -/
def Bounded (max : ℕ) (window : τ) (admitted : List τ) : Prop :=
  ∀ start, (admitted.filter fun t => start ≤ t ∧ t < start + window).length ≤ max

section Key

variable {window now next : τ} {kept kept' admitted : List τ} {max : ℕ}

theorem Keeps.later (h : Keeps window now kept admitted) (hnext : now ≤ next) :
    Keeps window next kept admitted :=
  fun later hlater => h later (hnext.trans hlater)

theorem accept_eq_some : accept max window now kept = some kept' ↔
    (recent window now kept).length < max ∧ kept' = recent window now kept ++ [now] := by
  unfold accept
  split_ifs with hfull
  · exact iff_of_false (fun h => by cases h) fun h => absurd hfull (not_le.2 h.1)
  · rw [Option.some_inj, eq_comm (a := kept')]
    exact (and_iff_right (not_le.1 hfull)).symm

theorem accept_eq_none : accept max window now kept = none ↔
    max ≤ (recent window now kept).length := by
  unfold accept
  split_ifs with hfull
  · exact iff_of_true rfl hfull
  · exact iff_of_false (fun h => by cases h) hfull

theorem recent_append (times times' : List τ) :
    recent window now (times ++ times') = recent window now times ++ recent window now times' :=
  List.filter_append ..

variable [IsOrderedAddMonoid τ]

/-- What has left the window does not come back. -/
theorem recent_recent (hnext : now ≤ next) (times : List τ) :
    recent window next (recent window now times) = recent window next times := by
  unfold recent
  rw [List.filter_filter]
  refine List.filter_congr fun t _ => ?_
  rw [← Bool.decide_and, decide_eq_decide]
  refine and_iff_left_of_imp fun h => lt_of_le_of_lt ?_ h
  exact sub_le_sub_right hnext t

theorem Keeps.accept (h : Keeps window now kept admitted) (hnext : now ≤ next) :
    Keeps window next (recent window next kept ++ [next]) (admitted ++ [next]) := by
  intro later hlater
  rw [recent_append, recent_append, recent_recent hlater, h later (hnext.trans hlater)]

theorem Bounded.accept (h : Bounded max window admitted)
    (hfew : (recent window now admitted).length < max) :
    Bounded max window (admitted ++ [now]) := by
  intro start
  rw [List.filter_append, List.length_append]
  by_cases hin : start ≤ now ∧ now < start + window
  · -- all that is in this window is in the one before `now`
    have hsub : (admitted.filter fun t => start ≤ t ∧ t < start + window).length
        ≤ (recent window now admitted).length := by
      refine List.Sublist.length_le (List.monotone_filter_right _ fun t ht => ?_)
      obtain ⟨hstart, -⟩ := of_decide_eq_true ht
      refine decide_eq_true (sub_lt_iff_lt_add.2 (hin.2.trans_le ?_))
      rw [add_comm window]
      exact add_le_add_left hstart window
    have hone : ([now].filter fun t => start ≤ t ∧ t < start + window).length ≤ 1 :=
      List.length_filter_le ..
    omega
  · rw [List.filter_cons_of_neg (by rw [decide_eq_true_eq]; exact hin)]
    exact h start

end Key

/-! ## Many keys -/

/-- The decision on a request, and what is kept after it. -/
def allow (max : ℕ) (window : τ) (buckets : OrdMap κ (List τ)) (key : κ) (now : τ) :
    OrdMap κ (List τ) × Bool :=
  match accept max window now ((buckets.get? key).getD []) with
  | none => (buckets, false)
  | some kept => (buckets.set key kept, true)

/-- The instants at which a key was admitted. -/
def timesOf (key : κ) (log : List (κ × τ)) : List τ :=
  (log.filter fun r => r.1 = key).map Prod.snd

section Keys

variable {window now next : τ} {max : ℕ} {buckets : OrdMap κ (List τ)} {log : List (κ × τ)}
  {key key' : κ}

omit [AddCommGroup τ] [LinearOrder τ] in
theorem timesOf_append_self : timesOf key (log ++ [(key, now)]) = timesOf key log ++ [now] := by
  unfold timesOf
  rw [List.filter_append, List.map_append, List.filter_cons_of_pos (by simp)]
  rfl

omit [AddCommGroup τ] [LinearOrder τ] in
theorem timesOf_append_of_ne (hne : key' ≠ key) :
    timesOf key (log ++ [(key', now)]) = timesOf key log := by
  unfold timesOf
  rw [List.filter_append, List.filter_cons_of_neg (by rw [decide_eq_true_eq]; exact hne),
    List.filter_nil, List.append_nil]

/-- Every key keeps what is in the window. -/
def Tracks (window now : τ) (buckets : OrdMap κ (List τ)) (log : List (κ × τ)) : Prop :=
  ∀ key, Keeps window now ((buckets.get? key).getD []) (timesOf key log)

theorem Tracks.accept [IsOrderedAddMonoid τ] (h : Tracks window now buckets log)
    (hnext : now ≤ next) :
    Tracks window next
      (buckets.set key (recent window next ((buckets.get? key).getD []) ++ [next]))
      (log ++ [(key, next)]) := by
  intro key'
  by_cases heq : key' = key
  · subst heq
    rw [OrdMap.get?_set_self, timesOf_append_self]
    exact (h key').accept hnext
  · rw [OrdMap.get?_set_of_ne _ heq, timesOf_append_of_ne fun h => heq h.symm]
    exact (h key').later hnext

/-- It decides as if it forgot nothing. -/
theorem Tracks.allow_of_few (h : Tracks window now buckets log) (hnext : now ≤ next)
    (hfew : (recent window next (timesOf key log)).length < max) :
    allow max window buckets key next
      = (buckets.set key (recent window next ((buckets.get? key).getD []) ++ [next]), true) := by
  unfold allow
  rw [accept_eq_some.2 ⟨(h key next hnext).symm ▸ hfew, rfl⟩]

theorem Tracks.allow_of_full (h : Tracks window now buckets log) (hnext : now ≤ next)
    (hfull : max ≤ (recent window next (timesOf key log)).length) :
    allow max window buckets key next = (buckets, false) := by
  unfold allow
  rw [accept_eq_none.2 ((h key next hnext).symm ▸ hfull)]

theorem Tracks.allow_iff (h : Tracks window now buckets log) (hnext : now ≤ next) :
    (allow max window buckets key next).2 = true
      ↔ (recent window next (timesOf key log)).length < max := by
  by_cases hfew : (recent window next (timesOf key log)).length < max
  · rw [h.allow_of_few hnext hfew]
    exact iff_of_true rfl hfew
  · rw [h.allow_of_full hnext (not_lt.1 hfew)]
    exact iff_of_false Bool.false_ne_true hfew

/-- No window has more than `max` admitted requests of a key. -/
theorem bounded_accept [IsOrderedAddMonoid τ]
    (h : ∀ key, Bounded max window (timesOf key log))
    (hfew : (recent window next (timesOf key log)).length < max) (key' : κ) :
    Bounded max window (timesOf key' (log ++ [(key, next)])) := by
  by_cases heq : key = key'
  · subst heq
    rw [timesOf_append_self]
    exact (h key).accept hfew
  · rw [timesOf_append_of_ne heq]
    exact h key'

end Keys

end BlockMiner.SlidingWindow
