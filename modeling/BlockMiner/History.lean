import BlockMiner.Service

/-!
# Histories

What has happened so far, beside the state. `run_history` is the invariant rule
for properties of both, and `history` the rule for a service whose calls
remember what they have seen happen.

What happened before stays so: `List.Sublist` says of some labels that they
have happened, one after the other.
-/

namespace BlockMiner

namespace System

variable {σ ι : Type*} (S : System σ ι)

/-- **History rule.** What every step that meets `C` keeps, of the labels so
far and the state, is kept by a run. -/
theorem run_history {C : ι → Prop} {I : List ι → σ → Prop}
    (hstep : ∀ past s i s', I past s → C i → S.step s i = some s' → I (past ++ [i]) s') :
    ∀ {is past : List ι} {s t : σ}, I past s → (∀ i ∈ is, C i) → S.run s is = some t →
      I (past ++ is) t
  | [], past, s, t, hs, _, hrun => by
      obtain rfl := Option.some.inj hrun
      rwa [List.append_nil]
  | i :: is, past, s, t, hs, hC, hrun => by
      obtain ⟨s', hs', hrun'⟩ := (S.run_cons_eq_some).mp hrun
      have hnext := hstep past s i s' hs (hC i List.mem_cons_self) hs'
      have hend := run_history hstep hnext (fun j hj => hC j (List.mem_cons_of_mem i hj)) hrun'
      rwa [List.append_assoc, List.singleton_append] at hend

/-- The state in which a label of a run happens. -/
theorem exists_state_at {is₁ is₂ : List ι} {i : ι} :
    ∀ {s t : σ}, S.run s (is₁ ++ i :: is₂) = some t →
      ∃ s₁ s₂, S.run s is₁ = some s₁ ∧ S.step s₁ i = some s₂ := by
  induction is₁ with
  | nil =>
      intro s t hrun
      obtain ⟨s₂, hstep, -⟩ := (S.run_cons_eq_some).mp hrun
      exact ⟨s, s₂, rfl, hstep⟩
  | cons j is₁ ih =>
      intro s t hrun
      obtain ⟨s', hj, hrest⟩ := (S.run_cons_eq_some).mp hrun
      obtain ⟨s₁, s₂, hrun₁, hstep⟩ := ih hrest
      exact ⟨s₁, s₂, (S.run_cons_eq_some).mpr ⟨s', hj, hrun₁⟩, hstep⟩

end System

/-- What has happened, and then `e`. -/
theorem sublist_concat {ι : Type*} {is past : List ι} (h : is.Sublist past) (e : ι) :
    (is ++ [e]).Sublist (past ++ [e]) :=
  h.append (List.Sublist.refl [e])

/-- What has happened has still happened. -/
theorem sublist_append_one {ι : Type*} {is past : List ι} (h : is.Sublist past) (e : ι) :
    is.Sublist (past ++ [e]) :=
  h.trans (List.sublist_append_left past [e])

namespace Service

variable {δ κ ρ α : Type*} (S : Service δ κ ρ α)

/-- **The rule for services.** `I` is about the database and `J` about a call in
flight, both about the events so far. -/
theorem history {C : Event ρ α → Prop} {I : List (Event ρ α) → δ → Prop}
    {J : List (Event ρ α) → δ → κ → Prop}
    (hstart : ∀ past db r db' cs, I past db → C (.start r) → S.start db r = some (db', cs) →
      I (past ++ [.start r]) db'
        ∧ (∀ d, J past db d → J (past ++ [.start r]) db' d)
        ∧ ∀ c ∈ cs, J (past ++ [.start r]) db' c)
    (hresume : ∀ past db call c a db' next, I past db → J past db c → C (.resume call a) →
      S.resume db c a = some (db', next) →
      I (past ++ [.resume call a]) db'
        ∧ (∀ d, J past db d → J (past ++ [.resume call a]) db' d)
        ∧ ∀ c' ∈ next, J (past ++ [.resume call a]) db' c')
    {es : List (Event ρ α)} {s t : InFlight δ κ} (hs : Holds (I []) (J []) s)
    (hC : ∀ e ∈ es, C e) (hrun : S.sys.run s es = some t) : Holds (I es) (J es) t := by
  refine S.sys.run_history (I := fun past s => Holds (I past) (J past) s) ?_ hs hC hrun
  intro past s e s' hs hC h
  cases e with
  | start r =>
      obtain ⟨db, cs, hr, rfl⟩ := S.step_start h
      obtain ⟨hI, hkeep, hnew⟩ := hstart _ _ _ _ _ hs.1 hC hr
      refine ⟨hI, fun i c hc => ?_⟩
      rcases foldl_insert_row _ hc with hmem | hrow
      · exact hnew c hmem
      · exact hkeep c (hs.2 i c hrow)
  | resume call a =>
      obtain ⟨c, db, next, hc, hr, rfl⟩ := S.step_resume h
      obtain ⟨hI, hkeep, hnew⟩ := hresume _ _ call _ _ _ _ hs.1 (hs.2 call c hc) hC hr
      refine ⟨hI, fun i d hd => ?_⟩
      rcases advance_row hd with ⟨-, hnext⟩ | ⟨-, hrow⟩
      · exact hnew d hnext
      · exact hkeep d (hs.2 i d hrow)

end Service

end BlockMiner
