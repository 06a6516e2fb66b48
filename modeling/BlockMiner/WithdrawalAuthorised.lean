import BlockMiner.History
import BlockMiner.WithdrawalSent

/-!
# No payment without a request and an approval

A sender pays from a row that it has read some time before, while admins and other
senders write. Whatever they do, the payment is one that its user has asked for: no
step changes the owner, the amount or the address of a row (`Row.terms`). And an
admin has approved it since, and a sender was started after that: a row that has
not been approved is never read as such, also not by the sender that takes its own
failure back (`backToApproved`).

`updateTransactionStatus` writes the status it is given; that no caller gives it
`approved` is the one condition.
-/

namespace BlockMiner.Withdrawal

/-! ## What a row comes from -/

/-- What a withdrawal is of; no step changes it. -/
def Row.terms (r : Row) : UserId × ℚ × Option Address := (r.userId, r.amount, r.address)

/-- The user has asked for the withdrawal of a row, and then `es` have happened. -/
def Led (past : List (Event Request Answer)) (r : Row) (es : List (Event Request Answer)) :
    Prop :=
  ∃ address, r.address = some address ∧ WITHDRAW_MIN_POL ≤ r.amount
    ∧ List.Sublist (.start (.createWithdrawal r.userId r.amount address) :: es) past

/-- The request that has a sender read row `id`. -/
def Picks (id : ℕ) (e : Event Request Answer) : Prop :=
  e = .start .processPendingWithdrawals ∨ e = .start (.processApprovedWithdrawal id)

variable {past : List (Event Request Answer)} {db db' : Db} {r r' : Row} {id : ℕ}
variable {es : List (Event Request Answer)} {e : Event Request Answer}

theorem Led.of_terms (h : Led past r es) (hterms : r'.terms = r.terms) : Led past r' es := by
  obtain ⟨address, haddress, hmin, hes⟩ := h
  obtain ⟨huser, hrest⟩ := Prod.mk.inj hterms
  obtain ⟨hamount, haddress'⟩ := Prod.mk.inj hrest
  exact ⟨address, haddress'.trans haddress, hamount ▸ hmin, by rwa [huser, hamount]⟩

theorem Led.later (h : Led past r es) (e : Event Request Answer) : Led (past ++ [e]) r es := by
  obtain ⟨address, haddress, hmin, hes⟩ := h
  exact ⟨address, haddress, hmin, sublist_append_one hes e⟩

theorem Led.then (h : Led past r es) (e : Event Request Answer) :
    Led (past ++ [e]) r (es ++ [e]) := by
  obtain ⟨address, haddress, hmin, hes⟩ := h
  exact ⟨address, haddress, hmin, sublist_concat hes e⟩

theorem Led.take {es' : List (Event Request Answer)} (h : Led past r (es ++ es')) :
    Led past r es := by
  obtain ⟨address, haddress, hmin, hes⟩ := h
  exact ⟨address, haddress, hmin, (List.sublist_append_left (_ :: es) es').trans hes⟩

/-! ## The invariant -/

/-- A row that its user has asked for; it is approved only after an admin's request. -/
structure Accounted (past : List (Event Request Answer)) (id : ℕ) (r : Row) : Prop where
  led : Led past r []
  approved : r.status = .approved → Led past r [.start (.approveWithdrawal id)]

def RowsAccounted (past : List (Event Request Answer)) (db : Db) : Prop :=
  ∀ id r, db.transactions.row id = some r → Accounted past id r

/-- A row with these terms is there. -/
def Present (db : Db) (id : ℕ) (r : Row) : Prop :=
  ∃ r', db.transactions.row id = some r' ∧ r'.terms = r.terms

/-- A row that a sender has read: it was approved by then. -/
structure Picked (past : List (Event Request Answer)) (db : Db) (id : ℕ) (r : Row) : Prop where
  present : Present db id r
  led : ∃ e, Picks id e ∧ Led past r [.start (.approveWithdrawal id), e]

def Caller.Picked (past : List (Event Request Answer)) (db : Db) : Caller → Prop
  | .admin => True
  | .cron rest => ∀ p ∈ rest, Withdrawal.Picked past db p.1 p.2

/-- A row that may be written as approved. -/
def MayApprove (past : List (Event Request Answer)) (db : Db) (id : ℕ) : Prop :=
  ∃ r, db.transactions.row id = some r ∧ Led past r [.start (.approveWithdrawal id)]

/-- What a call in flight knows. -/
def Knows (past : List (Event Request Answer)) (db : Db) : Call → Prop
  | .createBalance u amount address | .createCommit u amount address =>
      WITHDRAW_MIN_POL ≤ amount
        ∧ List.Sublist [.start (.createWithdrawal u amount address)] past
  | .approveWrite id | .backToApproved id => MayApprove past db id
  | .updateRead _ status _ caller | .updateCommit _ status _ _ caller =>
      status ≠ .approved ∧ caller.Picked past db
  | .sending id row rest => Picked past db id row ∧ Caller.Picked past db (.cron rest)
  | .preflight id row => Picked past db id row
  | .saveHash _ _ | .waiting _ | .markCompleted _ | .markFailed _ _ => True

/-- Rows stay, with their terms. -/
def Stays (db db' : Db) : Prop :=
  ∀ id r, db.transactions.row id = some r → Present db' id r

theorem Stays.refl (db : Db) : Stays db db := fun _ r hr => ⟨r, hr, rfl⟩

theorem Present.stays (h : Present db id r) (hstays : Stays db db') : Present db' id r := by
  obtain ⟨r₁, hr₁, hterms₁⟩ := h
  obtain ⟨r₂, hr₂, hterms₂⟩ := hstays id r₁ hr₁
  exact ⟨r₂, hr₂, hterms₂.trans hterms₁⟩

theorem Picked.later (h : Picked past db id r) (hstays : Stays db db')
    (e : Event Request Answer) : Picked (past ++ [e]) db' id r := by
  obtain ⟨pick, hpick, hled⟩ := h.led
  exact ⟨h.present.stays hstays, pick, hpick, hled.later e⟩

theorem Caller.Picked.later {caller : Caller} (h : caller.Picked past db)
    (hstays : Stays db db') (e : Event Request Answer) : caller.Picked (past ++ [e]) db' := by
  cases caller with
  | admin => trivial
  | cron rest => exact fun p hp => (h p hp).later hstays e

theorem MayApprove.later (h : MayApprove past db id) (hstays : Stays db db')
    (e : Event Request Answer) : MayApprove (past ++ [e]) db' id := by
  obtain ⟨r, hr, hled⟩ := h
  obtain ⟨r', hr', hterms⟩ := hstays id r hr
  exact ⟨r', hr', (hled.of_terms hterms).later e⟩

/-- What a call knows stays true. -/
theorem Knows.later {c : Call} (h : Knows past db c) (hstays : Stays db db')
    (e : Event Request Answer) : Knows (past ++ [e]) db' c := by
  cases c with
  | createBalance u amount address | createCommit u amount address =>
      exact ⟨h.1, sublist_append_one h.2 e⟩
  | approveWrite id | backToApproved id => exact MayApprove.later h hstays e
  | updateRead id status txHash caller | updateCommit id status txHash row caller =>
      exact ⟨h.1, h.2.later hstays e⟩
  | sending id row rest =>
      have hrest : Caller.Picked (past ++ [e]) db' (.cron rest) := Caller.Picked.later h.2 hstays e
      exact ⟨h.1.later hstays e, hrest⟩
  | preflight id row => exact Picked.later h hstays e
  | saveHash id txHash | waiting id | markCompleted id | markFailed id sent => trivial

theorem Accounted.later (h : Accounted past id r) (e : Event Request Answer) :
    Accounted (past ++ [e]) id r :=
  ⟨h.led.later e, fun hr => (h.approved hr).later e⟩

/-- The next row that the cron sends is one of those that it has read. -/
theorem knows_cronNext {rest : List (ℕ × Row)} (h : Caller.Picked past db (.cron rest)) :
    ∀ c ∈ cronNext rest, Knows past db c := by
  induction rest with
  | nil => exact fun c hc => (by cases hc)
  | cons p rest ih =>
      obtain ⟨id, row⟩ := p
      have hrest : Caller.Picked past db (.cron rest) := fun p hp =>
        h p (List.mem_cons_of_mem _ hp)
      intro c hc
      unfold cronNext at hc
      split at hc
      · exact ih hrest c hc
      · obtain rfl := Option.some.inj hc
        exact ⟨h (id, row) List.mem_cons_self, hrest⟩

theorem knows_next {caller : Caller} (h : caller.Picked past db) :
    ∀ c ∈ caller.next, Knows past db c := by
  cases caller with
  | admin => exact fun c hc => (by cases hc)
  | cron rest => exact knows_cronNext h

/-! ## A request -/

theorem exists_row_of_status {status : Status} (h : db.status? id = some status) :
    ∃ r, db.transactions.row id = some r ∧ r.status = status :=
  Option.map_eq_some_iff.mp h

/-- An approved row is read by a sender. -/
theorem Accounted.picked (h : Accounted past id r) (hr : db.transactions.row id = some r)
    (happroved : r.status = .approved) (hpick : Picks id e) : Picked (past ++ [e]) db id r :=
  ⟨⟨r, hr, rfl⟩, e, hpick, (h.approved happroved).then e⟩

theorem knows_start {req : Request} {c : Call} (hrows : RowsAccounted past db)
    (hroutes : ∀ id txHash, req ≠ .updateTransactionStatus id .approved txHash)
    (hc : c ∈ start db req) : Knows (past ++ [.start req]) db c := by
  cases req with
  | createWithdrawal u amount address =>
      simp only [start, Db.createWithdrawal] at hc
      split_ifs at hc with hmin
      · cases hc
      · split at hc
        · cases hc
        · obtain rfl := List.mem_singleton.mp hc
          exact ⟨not_lt.mp hmin, List.sublist_append_right past [_]⟩
  | approveWithdrawal id =>
      simp only [start] at hc
      split_ifs at hc with hpending
      · obtain rfl := List.mem_singleton.mp hc
        obtain ⟨r, hr, -⟩ := exists_row_of_status hpending
        exact ⟨r, hr, (hrows id r hr).led.then _⟩
      · cases hc
  | rejectWithdrawal id =>
      simp only [start] at hc
      split_ifs at hc with hopen
      · obtain rfl := List.mem_singleton.mp hc
        exact ⟨Status.noConfusion, trivial⟩
      · cases hc
  | completeWithdrawal id txHash =>
      simp only [start] at hc
      split_ifs at hc with hopen
      · obtain rfl := List.mem_singleton.mp hc
        exact ⟨Status.noConfusion, trivial⟩
      · cases hc
  | updateTransactionStatus id status txHash =>
      obtain rfl := List.mem_singleton.mp hc
      refine ⟨?_, trivial⟩
      rintro rfl
      exact hroutes id txHash rfl
  | processPendingWithdrawals =>
      refine knows_cronNext (fun p hp => ?_) c (Option.mem_toList.mp hc)
      obtain ⟨hr, happroved⟩ := Table.mem_findMany.mp hp
      exact (hrows p.1 p.2 hr).picked hr (of_decide_eq_true happroved) (.inl rfl)
  | processApprovedWithdrawal id =>
      simp only [start] at hc
      split at hc
      · cases hc
      · rename_i row hr
        split_ifs at hc with happroved
        · obtain rfl := List.mem_singleton.mp hc
          exact (hrows id row hr).picked hr happroved (.inr rfl)
        · cases hc

/-! ## A step of a call -/

theorem exists_row_of_modify {j : ℕ} {f : Row → Row} (hf : ∀ r, (f r).terms = r.terms)
    (hr : db.transactions.row id = some r) :
    ∃ r', (db.transactions.modify j f).row id = some r' ∧ r'.terms = r.terms := by
  by_cases hid : id = j
  · subst hid
    exact ⟨f r, Table.modify_row_eq_some.mpr (.inl ⟨rfl, r, hr, rfl⟩), hf r⟩
  · exact ⟨r, Table.modify_row_eq_some.mpr (.inr ⟨hid, hr⟩), rfl⟩

/-- `r'` is what a step makes of row `id`. -/
structure Carries (db : Db) (c : Call) (a : Answer) (id : ℕ) (r' r : Row) : Prop where
  row : db.transactions.row id = some r
  terms : r'.terms = r.terms
  status : r'.status = statusAfter c a id r.status

theorem carries_of_modify {c : Call} {a : Answer} {j : ℕ} {f : Row → Row}
    (hf : ∀ r, (f r).terms = r.terms ∧ (f r).status = statusAfter c a j r.status)
    (hother : ∀ id status, id ≠ j → statusAfter c a id status = status)
    (hr' : (db.transactions.modify j f).row id = some r') : ∃ r, Carries db c a id r' r := by
  rcases Table.modify_row_eq_some.mp hr' with ⟨rfl, r, hr, rfl⟩ | ⟨hne, hr⟩
  · exact ⟨r, hr, (hf r).1, (hf r).2⟩
  · exact ⟨r', hr, rfl, (hother id r'.status hne).symm⟩

/-- No step takes a row away, or changes its terms. -/
theorem Effect.stays {c : Call} {a : Answer} (h : Effect db c a db') : Stays db db' := by
  intro id r hr
  cases h with
  | unchanged hs hw => exact ⟨r, hr, rfl⟩
  | created u amount address hs hw => exact ⟨r, Table.insert_row_of_some hr _, rfl⟩
  | sent j hs hw => exact exists_row_of_modify (fun _ => rfl) hr
  | hashed j txHash hs hw => exact exists_row_of_modify (fun _ => rfl) hr
  | wrote j status completedAt hs hw => exact exists_row_of_modify (fun _ => rfl) hr
  | updated j status txHash row caller now _ hs hw =>
      exact exists_row_of_modify (fun _ => rfl) hr

/-- Only `createCommit` adds a row. -/
theorem exists_createCommit {c : Call} {a : Answer} {next : Option Call}
    (h : resume db c a = some (db', next))
    (hnew : db'.transactions.nextId ≠ db.transactions.nextId) :
    ∃ u amount address, c = .createCommit u amount address
      ∧ db' = db.createCommit u amount address := by
  have hsame : db' = db → False := fun heq => hnew (by rw [heq])
  cases c with
  | createCommit u amount address =>
      cases a with
      | ok now => exact ⟨u, amount, address, rfl, (congrArg Prod.fst (Option.some.inj h)).symm⟩
      | error => exact (hsame (congrArg Prod.fst (Option.some.inj h)).symm).elim
      | sent _ | insufficientFunds => cases h
  | updateRead id status txHash caller =>
      cases a with
      | ok now =>
          simp only [resume] at h
          split at h <;> exact (hsame (congrArg Prod.fst (Option.some.inj h)).symm).elim
      | error => exact (hsame (congrArg Prod.fst (Option.some.inj h)).symm).elim
      | sent _ | insufficientFunds => cases h
  | _ =>
      cases a <;> first
        | cases h; done
        | (obtain rfl := congrArg Prod.fst (Option.some.inj h); exact (hnew rfl).elim)

/-- Every row after a step is one that has been created, or a row before it with the same
terms. -/
theorem rows_resume {c : Call} {a : Answer} {next : Option Call}
    (h : resume db c a = some (db', next)) (hr' : db'.transactions.row id = some r') :
    (∃ u amount address, c = .createCommit u amount address
        ∧ r'.terms = (u, amount, some address) ∧ r'.status = .pending)
      ∨ ∃ r, Carries db c a id r' r := by
  by_cases hnew : db'.transactions.nextId = db.transactions.nextId
  · right
    cases resume_effect h with
    | unchanged hs hw => exact ⟨r', hr', rfl, by simp [statusAfter, hw]⟩
    | created u amount address hs hw =>
        exact absurd hnew (Nat.succ_ne_self db.transactions.nextId)
    | sent j hs hw =>
        refine carries_of_modify ?_ ?_ hr'
        · exact fun r => ⟨rfl, by simp [statusAfter, hw]⟩
        · exact fun id status hne => by simp [statusAfter, hw]
    | hashed j txHash hs hw =>
        refine carries_of_modify ?_ ?_ hr'
        · exact fun r => ⟨rfl, by simp [statusAfter, hw]⟩
        · exact fun id status hne => by simp [statusAfter, hw]
    | wrote j status completedAt hs hw =>
        refine carries_of_modify ?_ ?_ hr'
        · exact fun r => ⟨rfl, by simp [statusAfter, hw]⟩
        · exact fun id status hne => by simp [statusAfter, hw, Ne.symm hne]
    | updated j status txHash row caller now _ hs hw =>
        refine carries_of_modify ?_ ?_ hr'
        · exact fun r => ⟨rfl, by simp [statusAfter, hw]⟩
        · exact fun id status hne => by simp [statusAfter, hw, Ne.symm hne]
  · obtain ⟨u, amount, address, rfl, rfl⟩ := exists_createCommit h hnew
    rcases Table.insert_row_eq_some.mp hr' with ⟨-, rfl⟩ | hold
    · exact .inl ⟨u, amount, address, rfl, rfl, rfl⟩
    · refine .inr ⟨r', hold, rfl, ?_⟩
      cases a <;> rfl

/-- Whoever writes `approved` may do so. -/
theorem mayApprove_of_statusWrite {c : Call} {a : Answer} {refund : Bool}
    (hknows : Knows past db c) (hw : statusWrite c a = some (id, .approved, refund)) :
    MayApprove past db id := by
  cases c with
  | approveWrite j | backToApproved j =>
      cases a with
      | ok now =>
          obtain ⟨rfl, -⟩ := Prod.mk.inj (Option.some.inj hw)
          exact hknows
      | _ => cases hw
  | updateCommit j status txHash row caller =>
      cases a with
      | ok now =>
          obtain ⟨-, hstatus⟩ := Prod.mk.inj (Option.some.inj hw)
          exact absurd (Prod.mk.inj hstatus).1 hknows.1
      | _ => cases hw
  | markCompleted j | markFailed j sent =>
      cases a with
      | ok now =>
          obtain ⟨-, hstatus⟩ := Prod.mk.inj (Option.some.inj hw)
          cases (Prod.mk.inj hstatus).1
      | _ => cases hw
  | _ => cases hw

/-- The rows after a step are accounted for. -/
theorem RowsAccounted.resume {c : Call} {a : Answer} {next : Option Call}
    (hrows : RowsAccounted past db) (hknows : Knows past db c)
    (h : resume db c a = some (db', next)) : RowsAccounted past db' := by
  intro id r' hr'
  rcases rows_resume h hr' with ⟨u, amount, address, rfl, hterms, hpending⟩ | ⟨r, hcarries⟩
  · obtain ⟨hmin, hasked⟩ := hknows
    obtain ⟨rfl, hrest⟩ := Prod.mk.inj hterms
    obtain ⟨rfl, haddress⟩ := Prod.mk.inj hrest
    exact ⟨⟨address, haddress, hmin, hasked⟩, fun h => by rw [hpending] at h; cases h⟩
  · have hold := hrows id r hcarries.row
    refine ⟨hold.led.of_terms hcarries.terms, fun happroved => ?_⟩
    rw [hcarries.status, statusAfter] at happroved
    split at happroved
    · rename_i j status refund hw
      split_ifs at happroved with hj
      · subst hj happroved
        obtain ⟨r₁, hr₁, hled⟩ := mayApprove_of_statusWrite hknows hw
        obtain rfl := Option.some.inj (hr₁.symm.trans hcarries.row)
        exact hled.of_terms hcarries.terms
      · exact (hold.approved happroved).of_terms hcarries.terms
    · exact (hold.approved happroved).of_terms hcarries.terms

/-- A row that a sender has read may be approved again. -/
theorem Picked.mayApprove (h : Picked past db id r) : MayApprove past db id := by
  obtain ⟨r', hr', hterms⟩ := h.present
  obtain ⟨e, -, hled⟩ := h.led
  have happroved : Led past r [.start (.approveWithdrawal id)] := Led.take hled
  exact ⟨r', hr', happroved.of_terms hterms⟩

theorem knows_some {c : Call} (h : Knows past db c) : ∀ c' ∈ some c, Knows past db c' := by
  intro c' hc'
  obtain rfl := Option.some.inj hc'
  exact h

/-- What a call goes on to know. -/
theorem knows_resume {c : Call} {a : Answer} {next : Option Call} (hknows : Knows past db c)
    (h : resume db c a = some (db', next)) : ∀ c' ∈ next, Knows past db c' := by
  have hnone : next = none → ∀ c' ∈ next, Knows past db c' := by
    rintro rfl c' hc'
    cases hc'
  cases c with
  | createBalance u amount address =>
      cases a with
      | ok now =>
          obtain rfl := congrArg Prod.snd (Option.some.inj h)
          intro c' hc'
          unfold Db.createBalance at hc'
          split_ifs at hc'
          · cases hc'
          · obtain rfl := Option.some.inj hc'
            exact hknows
      | error => exact hnone (congrArg Prod.snd (Option.some.inj h)).symm
      | sent _ | insufficientFunds => cases h
  | createCommit u amount address | approveWrite id | backToApproved id | markFailed id sent =>
      cases a with
      | ok now | error => exact hnone (congrArg Prod.snd (Option.some.inj h)).symm
      | sent _ | insufficientFunds => cases h
  | saveHash id txHash | waiting id =>
      cases a with
      | ok now | error =>
          obtain rfl := congrArg Prod.snd (Option.some.inj h)
          exact knows_some trivial
      | sent _ | insufficientFunds => cases h
  | markCompleted id =>
      cases a with
      | ok now => exact hnone (congrArg Prod.snd (Option.some.inj h)).symm
      | error =>
          obtain rfl := congrArg Prod.snd (Option.some.inj h)
          exact knows_some trivial
      | sent _ | insufficientFunds => cases h
  | updateRead id status txHash caller =>
      cases a with
      | ok now =>
          simp only [resume] at h
          split at h
          · obtain rfl := congrArg Prod.snd (Option.some.inj h)
            exact knows_next hknows.2
          · obtain rfl := congrArg Prod.snd (Option.some.inj h)
            exact knows_some hknows
      | error =>
          obtain rfl := congrArg Prod.snd (Option.some.inj h)
          exact knows_next hknows.2
      | sent _ | insufficientFunds => cases h
  | updateCommit id status txHash row caller =>
      cases a with
      | ok now | error =>
          obtain rfl := congrArg Prod.snd (Option.some.inj h)
          exact knows_next hknows.2
      | sent _ | insufficientFunds => cases h
  | sending id row rest =>
      cases a with
      | sent txHash =>
          obtain rfl := congrArg Prod.snd (Option.some.inj h)
          exact knows_some ⟨Status.noConfusion, hknows.2⟩
      | error =>
          obtain rfl := congrArg Prod.snd (Option.some.inj h)
          exact knows_cronNext hknows.2
      | ok _ | insufficientFunds => cases h
  | preflight id row =>
      cases a with
      | sent txHash | error =>
          obtain rfl := congrArg Prod.snd (Option.some.inj h)
          exact knows_some trivial
      | insufficientFunds =>
          obtain rfl := congrArg Prod.snd (Option.some.inj h)
          exact knows_some hknows.mayApprove
      | ok _ => cases h

/-! ## The payments -/

/-- The update of a status as a request of its own never approves a row. -/
def ByRoute (e : Event Request Answer) : Prop :=
  ∀ id txHash, e ≠ .start (.updateTransactionStatus id .approved txHash)

theorem accounted_run {s t : InFlight Db Call} {es : List (Event Request Answer)} (hs : Fresh s)
    (hroutes : ∀ e ∈ es, ByRoute e) (hrun : service.sys.run s es = some t) :
    RowsAccounted es t.db ∧ ∀ i c, t.calls.row i = some c → Knows es t.db c := by
  refine service.history (C := ByRoute) (I := RowsAccounted) (J := Knows) ?_ ?_ ?_ hroutes hrun
  · intro past db req db' cs hrows hroute h
    obtain ⟨rfl, rfl⟩ := Prod.mk.inj (Option.some.inj h)
    refine ⟨fun id r hr => (hrows id r hr).later _, fun d hd => hd.later (.refl db) _,
      fun c hc => knows_start hrows (fun id txHash => ?_) hc⟩
    rintro rfl
    exact hroute id txHash rfl
  · intro past db call c a db' next hrows hknows _ h
    have hstays := (resume_effect h).stays
    exact ⟨fun id r hr => (hrows.resume hknows h id r hr).later _,
      fun d hd => hd.later hstays _, fun c' hc' => (knows_resume hknows h c' hc').later hstays _⟩
  · refine ⟨fun id r hr => ?_, fun i c hc => ?_⟩
    · rw [hs.1 id] at hr
      cases hr
    · rw [hs.2 i] at hc
      cases hc

/-- The row that a call pays when it sends. -/
def Call.pays : Call → Option (ℕ × Row)
  | .sending id row _ | .preflight id row => some (id, row)
  | _ => none

end BlockMiner.Withdrawal
