import BlockMiner.SocketGamesCooldown
import Mathlib.Data.List.Perm.Basic

/-!
# The memory game of a socket

A session that is live and not finished has the cards of its flipped list open,
at most two, and two only with a timer that closes them; its matched cards are
pairs of one symbol each, and pay for its score (`Tidy`). `game:start` clears
that timer first of all, and leaves the session as it is when it is refused, so
two open cards stay open for ever, and no third can be opened.

`memory_tidy_iff` says that this is the only way: the sessions stay tidy exactly
in the runs in which no `game:start` comes while two cards are open.
-/

namespace BlockMiner.SocketGames

open MatchThree (Fill)

/-! ## What is to hold -/

/-- The cards that are open and not matched. -/
def openCards (board : List Card) : List ℕ :=
  (board.filter fun c => c.isFlipped && !c.isMatched).map Card.id

def matchedCards (board : List Card) : List Card := board.filter fun c => c.isMatched

/-- The matched cards, in pairs of one symbol, and the score for them. -/
def Paired (score : ℕ) (board : List Card) : Prop :=
  ∃ pairs : List (Card × Card), (matchedCards board).Perm (pairs.flatMap fun p => [p.1, p.2])
    ∧ (∀ p ∈ pairs, p.1.symbol = p.2.symbol) ∧ score = 250 * pairs.length

/-- A timer is set which, when it is due, leaves the session without open cards. -/
def WillClose (config : Config) (s : InFlight Db Call) (socket id : ℕ) : Prop :=
  ∃ call timer id₁ id₂ dueAt,
    s.calls.row call = some (.mismatch socket id timer id₁ id₂ dueAt)
    ∧ ∀ now, dueAt ≤ now → s.db.clock ≤ now → ∃ db state board,
      resume config s.db (.mismatch socket id timer id₁ id₂ dueAt) (.ok now) = some (db, none)
      ∧ db.sessions.row id = some state ∧ state.play = .memory board [] none
      ∧ openCards board = []

structure Tidy (config : Config) (s : InFlight Db Call) (socket id score : ℕ) (board : List Card)
    (flipped : List ℕ) : Prop where
  opened : (openCards board).Perm flipped
  few : flipped.length ≤ 2
  closes : flipped.length = 2 → WillClose config s socket id
  paired : Paired score board
  unfinished : board.all (·.isMatched) = false

/-- Each memory session of a socket that is not finished is tidy. -/
def AllTidy (config : Config) (s : InFlight Db Call) : Prop :=
  ∀ socket id state board flipped timer, sessionOf s.db socket = some (id, state) →
    state.isFinished = false → state.play = .memory board flipped timer →
    Tidy config s socket id state.score board flipped

/-- What the handler of an event passes to `finishGame`; only `game:end` gives up. -/
def isSuccess : Event Request Answer → Bool
  | .start (.flip ..) | .start (.swap ..) => true
  | _ => false

/-- A memory session that is finished is finished with success exactly if all
its cards are matched. -/
def EndsRight (success : Bool) (db db' : Db) : Prop :=
  ∀ id state state' board flipped timer, db.sessions.row id = some state →
    state.isFinished = false → db'.sessions.row id = some state' → state'.isFinished = true →
    state'.play = .memory board flipped timer → (success = true ↔ board.all (·.isMatched) = true)

/-- The event leaves all sessions tidy. -/
def StaysTidy (config : Config) (s : InFlight Db Call) (e : Event Request Answer) : Prop :=
  ∀ s', (service config).step s e = some s' →
    AllTidy config s' ∧ EndsRight (isSuccess e) s.db s'.db

/-- No `game:start` while two cards of the session of its socket are open. -/
def StartsTidy (s : InFlight Db Call) : Event Request Answer → Prop
  | .start (.gameStart socket _ _ now) => s.db.clock ≤ now →
      ∀ id state board flipped timer, sessionOf s.db socket = some (id, state) →
        state.isFinished = false → state.play = .memory board flipped timer → flipped.length ≠ 2
  | _ => True

/-! ## Boards -/

section Boards

variable {board : List Card} {id : ℕ} {card : Card} {f : Card → Card}

theorem map_id_setCard (hf : ∀ c, (f c).id = c.id) :
    (setCard board id f).map Card.id = board.map Card.id := by
  unfold setCard
  rw [List.map_map]
  refine List.map_congr_left fun c _ => ?_
  rw [Function.comp_apply]
  split
  · exact hf c
  · rfl

theorem found_id (h : findCard board id = some card) : card ∈ board ∧ card.id = id :=
  ⟨List.mem_of_find?_eq_some h, by simpa using List.find?_some h⟩

theorem findCard_eq_some (hids : (board.map Card.id).Nodup) :
    findCard board id = some card ↔ card ∈ board ∧ card.id = id := by
  refine ⟨found_id, ?_⟩
  rintro ⟨hmem, rfl⟩
  cases h : findCard board card.id with
  | none => exact absurd (by simp) (List.find?_eq_none.1 h card hmem)
  | some found =>
    obtain ⟨hfound, hid⟩ := found_id h
    rw [List.inj_on_of_nodup_map hids hfound hmem hid]

theorem mem_setCard (hids : (board.map Card.id).Nodup) (hcard : findCard board id = some card)
    {c : Card} : c ∈ setCard board id f ↔ c = f card ∨ (c ∈ board ∧ c.id ≠ id) := by
  obtain ⟨hmem, hid⟩ := found_id hcard
  unfold setCard
  rw [List.mem_map]
  constructor
  · rintro ⟨c', hc', rfl⟩
    split
    · next heq =>
      rw [List.inj_on_of_nodup_map hids hc' hmem (heq.trans hid.symm)]
      exact .inl rfl
    · next hne => exact .inr ⟨hc', hne⟩
  · rintro (rfl | ⟨hc, hne⟩)
    · exact ⟨card, hmem, if_pos hid⟩
    · exact ⟨c, hc, if_neg hne⟩

theorem mem_openCards : id ∈ openCards board
    ↔ ∃ c ∈ board, c.id = id ∧ c.isFlipped = true ∧ c.isMatched = false := by
  unfold openCards
  simp only [List.mem_map, List.mem_filter, Bool.and_eq_true, Bool.not_eq_true']
  constructor
  · rintro ⟨c, ⟨hc, hflipped, hmatched⟩, rfl⟩
    exact ⟨c, hc, rfl, hflipped, hmatched⟩
  · rintro ⟨c, hc, rfl, hflipped, hmatched⟩
    exact ⟨c, ⟨hc, hflipped, hmatched⟩, rfl⟩

theorem nodup_openCards (hids : (board.map Card.id).Nodup) : (openCards board).Nodup :=
  hids.sublist (List.filter_sublist.map Card.id)

theorem nodup_matchedCards (hids : (board.map Card.id).Nodup) : (matchedCards board).Nodup :=
  (List.Nodup.of_map Card.id hids).filter _

/-- A card of the board. -/
theorem eq_of_found (hids : (board.map Card.id).Nodup) (hcard : findCard board id = some card)
    {c : Card} (hc : c ∈ board) (hid : c.id = id) : c = card := by
  obtain ⟨hmem, heq⟩ := found_id hcard
  exact List.inj_on_of_nodup_map hids hc hmem (hid.trans heq.symm)

theorem nodup_setCard (hids : (board.map Card.id).Nodup) (hf : ∀ c, (f c).id = c.id) :
    ((setCard board id f).map Card.id).Nodup := by
  rw [map_id_setCard hf]
  exact hids

theorem findCard_setCard_self (hids : (board.map Card.id).Nodup) (hf : ∀ c, (f c).id = c.id)
    (hcard : findCard board id = some card) : findCard (setCard board id f) id = some (f card) :=
  (findCard_eq_some (nodup_setCard hids hf)).2
    ⟨(mem_setCard hids hcard).2 (.inl rfl), (hf card).trans (found_id hcard).2⟩

theorem findCard_setCard_of_ne (hids : (board.map Card.id).Nodup) (hf : ∀ c, (f c).id = c.id)
    (hcard : findCard board id = some card) {id' : ℕ} (hne : id' ≠ id) {card' : Card}
    (hcard' : findCard board id' = some card') :
    findCard (setCard board id f) id' = some card' := by
  obtain ⟨hmem, hid⟩ := found_id hcard'
  exact (findCard_eq_some (nodup_setCard hids hf)).2
    ⟨(mem_setCard hids hcard).2 (.inr ⟨hmem, hid.trans_ne hne⟩), hid⟩

theorem mem_openCards_setCard (hids : (board.map Card.id).Nodup) (hf : ∀ c, (f c).id = c.id)
    (hcard : findCard board id = some card) {id' : ℕ} :
    id' ∈ openCards (setCard board id f)
      ↔ (id' = id ∧ (f card).isFlipped = true ∧ (f card).isMatched = false)
        ∨ (id' ∈ openCards board ∧ id' ≠ id) := by
  have hid := (hf card).trans (found_id hcard).2
  simp only [mem_openCards, mem_setCard hids hcard]
  constructor
  · rintro ⟨c, rfl | ⟨hc, hne⟩, rfl, hopen⟩
    · exact .inl ⟨hid, hopen⟩
    · exact .inr ⟨⟨c, hc, rfl, hopen⟩, hne⟩
  · rintro (⟨rfl, hopen⟩ | ⟨⟨c, hc, rfl, hopen⟩, hne⟩)
    · exact ⟨f card, .inl rfl, hid, hopen⟩
    · exact ⟨c, .inr ⟨hc, hne⟩, rfl, hopen⟩

/-- A card that is not open is flipped. -/
theorem openCards_flip (hids : (board.map Card.id).Nodup) (hcard : findCard board id = some card)
    (hclosed : card.isFlipped = false) (hmatched : card.isMatched = false) :
    (openCards (setCard board id fun c => { c with isFlipped := true })).Perm
      (openCards board ++ [id]) := by
  have hnot : id ∉ openCards board := by
    intro hmem
    obtain ⟨c, hc, hid, hflipped, -⟩ := mem_openCards.1 hmem
    rw [eq_of_found hids hcard hc hid, hclosed] at hflipped
    cases hflipped
  have hids' := @nodup_setCard board id (fun c => { c with isFlipped := true }) hids
    fun _ => rfl
  refine (List.perm_ext_iff_of_nodup (nodup_openCards hids') ?_).2 fun id' => ?_
  · exact List.nodup_append.2 ⟨nodup_openCards hids, List.nodup_singleton id, by
      rintro a ha b hb rfl
      exact hnot (List.mem_singleton.1 hb ▸ ha)⟩
  · have hopen := @mem_openCards_setCard board id card (fun c => { c with isFlipped := true }) hids
      (fun _ => rfl) hcard id'
    rw [hopen, List.mem_append, List.mem_singleton]
    constructor
    · rintro (⟨rfl, -⟩ | ⟨hopen, -⟩)
      · exact .inr rfl
      · exact .inl hopen
    · rintro (hopen | rfl)
      · exact .inr ⟨hopen, fun h => hnot (h ▸ hopen)⟩
      · exact .inl ⟨rfl, rfl, hmatched⟩

/-- A card that stays unmatched. -/
theorem matchedCards_setCard (hids : (board.map Card.id).Nodup) (hf : ∀ c, (f c).id = c.id)
    (hcard : findCard board id = some card) (hmatched : card.isMatched = false)
    (hstays : (f card).isMatched = false) :
    (matchedCards (setCard board id f)).Perm (matchedCards board) := by
  refine (List.perm_ext_iff_of_nodup (nodup_matchedCards (nodup_setCard hids hf))
    (nodup_matchedCards hids)).2 fun c => ?_
  unfold matchedCards
  simp only [List.mem_filter, mem_setCard hids hcard]
  constructor
  · rintro ⟨rfl | ⟨hc, -⟩, hm⟩
    · rw [hstays] at hm
      cases hm
    · exact ⟨hc, hm⟩
  · rintro ⟨hc, hm⟩
    refine ⟨.inr ⟨hc, fun hid => ?_⟩, hm⟩
    rw [eq_of_found hids hcard hc hid, hmatched] at hm
    cases hm

/-- A card that becomes matched. -/
theorem matchedCards_match (hids : (board.map Card.id).Nodup)
    (hcard : findCard board id = some card) (hmatched : card.isMatched = false) :
    (matchedCards (setCard board id fun c => { c with isMatched := true })).Perm
      ({ card with isMatched := true } :: matchedCards board) := by
  have hnot : { card with isMatched := true } ∉ matchedCards board := by
    intro hmem
    have heq := eq_of_found hids hcard (List.mem_filter.1 hmem).1 (found_id hcard).2
    rw [← heq] at hmatched
    cases hmatched
  have hids' := @nodup_setCard board id (fun c => { c with isMatched := true }) hids
    fun _ => rfl
  refine (List.perm_ext_iff_of_nodup (nodup_matchedCards hids')
    (List.nodup_cons.2 ⟨hnot, nodup_matchedCards hids⟩)).2 fun c => ?_
  unfold matchedCards
  simp only [List.mem_cons, List.mem_filter, mem_setCard hids hcard]
  constructor
  · rintro ⟨rfl | ⟨hc, -⟩, hm⟩
    · exact .inl rfl
    · exact .inr ⟨hc, hm⟩
  · rintro (rfl | ⟨hc, hm⟩)
    · exact ⟨.inl rfl, rfl⟩
    · refine ⟨.inr ⟨hc, fun hid => ?_⟩, hm⟩
      rw [eq_of_found hids hcard hc hid, hmatched] at hm
      cases hm

/-! ### Playing -/

/-- What is true of the board of a session that is played. -/
structure SoundBoard (score : ℕ) (board : List Card) (flipped : List ℕ) : Prop where
  ids : (board.map Card.id).Nodup
  opened : (openCards board).Perm flipped
  paired : Paired score board
  unfinished : board.all (·.isMatched) = false

/-- A card that is not matched. -/
theorem not_all_matched {c : Card} (hc : c ∈ board) (hmatched : c.isMatched = false) :
    board.all (·.isMatched) = false := by
  rw [List.all_eq_false]
  exact ⟨c, hc, by rw [hmatched]; exact Bool.false_ne_true⟩

variable {score : ℕ} {flipped : List ℕ}

theorem SoundBoard.flip (h : SoundBoard score board flipped) (hcard : findCard board id = some card)
    (hclosed : card.isFlipped = false) (hmatched : card.isMatched = false) :
    SoundBoard score (setCard board id fun c => { c with isFlipped := true })
      (flipped ++ [id]) where
  ids := nodup_setCard h.ids fun _ => rfl
  opened := (openCards_flip h.ids hcard hclosed hmatched).trans (h.opened.append_right [id])
  paired := by
    obtain ⟨pairs, hpairs, hsymbols, hscore⟩ := h.paired
    have hsame := @matchedCards_setCard board id card (fun c => { c with isFlipped := true }) h.ids
      (fun _ => rfl) hcard hmatched hmatched
    exact ⟨pairs, hsame.trans hpairs, hsymbols, hscore⟩
  unfinished := not_all_matched ((mem_setCard h.ids hcard).2 (.inl rfl)) hmatched

/-- The card of a flipped id is open. -/
theorem SoundBoard.found (h : SoundBoard score board flipped) {id : ℕ} (hid : id ∈ flipped) :
    ∃ card, findCard board id = some card ∧ card.isFlipped = true ∧ card.isMatched = false := by
  obtain ⟨card, hcard, hid, hopen⟩ := mem_openCards.1 (h.opened.mem_iff.2 hid)
  exact ⟨card, (findCard_eq_some h.ids).2 ⟨hcard, hid⟩, hopen⟩

section Pairs

variable {a b : ℕ} {c₁ c₂ : Card} (h : SoundBoard score board [a, b])
  (h₁ : findCard board a = some c₁) (h₂ : findCard board b = some c₂)
include h

theorem SoundBoard.ne : b ≠ a := by
  have hnodup := h.opened.nodup_iff.1 (nodup_openCards h.ids)
  rintro rfl
  exact (List.nodup_cons.1 hnodup).1 (List.mem_singleton.2 rfl)

theorem SoundBoard.unmatched {c : Card} (hid : id ∈ [a, b]) (hc : findCard board id = some c) :
    c.isMatched = false := by
  obtain ⟨c', hc', -, hmatched⟩ := h.found hid
  rwa [Option.some.inj (hc.symm.trans hc')]

include h₁ h₂

/-- Two open cards that are closed or matched. -/
theorem SoundBoard.openCards_pair (hf : ∀ c, (f c).id = c.id)
    (hclosed : ∀ c, ¬((f c).isFlipped = true ∧ (f c).isMatched = false)) :
    openCards (setCard (setCard board a f) b f) = [] := by
  have hids' := @nodup_setCard board a f h.ids hf
  have h₂' := findCard_setCard_of_ne h.ids hf h₁ h.ne h₂
  refine List.eq_nil_iff_forall_not_mem.2 fun id hid => ?_
  rcases (mem_openCards_setCard hids' hf h₂').1 hid with ⟨-, hcard⟩ | ⟨hid, hb⟩
  · exact hclosed c₂ hcard
  · rcases (mem_openCards_setCard h.ids hf h₁).1 hid with ⟨-, hcard⟩ | ⟨hid, ha⟩
    · exact hclosed c₁ hcard
    · have hmem := h.opened.mem_iff.1 hid
      simp only [List.mem_cons, List.not_mem_nil, or_false] at hmem
      exact hmem.elim ha hb

/-- Two open cards of one symbol are matched. -/
theorem SoundBoard.paired_match (hsymbol : c₁.symbol = c₂.symbol) :
    Paired (score + 250) (setCard (setCard board a fun c => { c with isMatched := true }) b
      fun c => { c with isMatched := true }) := by
  have hids' := @nodup_setCard board a (fun c => { c with isMatched := true }) h.ids fun _ => rfl
  have h₂' := @findCard_setCard_of_ne board a c₁ (fun c => { c with isMatched := true }) h.ids
    (fun _ => rfl) h₁ b h.ne c₂ h₂
  obtain ⟨pairs, hpairs, hsymbols, hscore⟩ := h.paired
  refine ⟨({ c₂ with isMatched := true }, { c₁ with isMatched := true }) :: pairs, ?_, ?_, ?_⟩
  · rw [List.flatMap_cons]
    have hfirst := (matchedCards_match h.ids h₁ (h.unmatched (by simp) h₁)).trans (hpairs.cons _)
    exact (matchedCards_match hids' h₂' (h.unmatched (by simp) h₂)).trans (hfirst.cons _)
  · intro p hp
    rcases List.mem_cons.1 hp with rfl | hold
    · exact hsymbol.symm
    · exact hsymbols p hold
  · rw [hscore, List.length_cons]
    omega

/-- Two open cards are closed. -/
theorem SoundBoard.close :
    SoundBoard score (setCard (setCard board a fun c => { c with isFlipped := false }) b
      fun c => { c with isFlipped := false }) [] := by
  have hids' := @nodup_setCard board a (fun c => { c with isFlipped := false }) h.ids fun _ => rfl
  have h₂' := @findCard_setCard_of_ne board a c₁ (fun c => { c with isFlipped := false }) h.ids
    (fun _ => rfl) h₁ b h.ne c₂ h₂
  have hm₁ := h.unmatched (by simp) h₁
  have hm₂ := h.unmatched (by simp) h₂
  refine ⟨nodup_setCard hids' fun _ => rfl, ?_, ?_, ?_⟩
  · refine List.Perm.of_eq (h.openCards_pair h₁ h₂ (fun _ => rfl) fun c hopen => ?_)
    exact Bool.false_ne_true hopen.1
  · obtain ⟨pairs, hpairs, hsymbols, hscore⟩ := h.paired
    have hfirst := @matchedCards_setCard board a c₁ (fun c => { c with isFlipped := false }) h.ids
      (fun _ => rfl) h₁ hm₁ hm₁
    have hsecond := @matchedCards_setCard _ b c₂ (fun c => { c with isFlipped := false }) hids'
      (fun _ => rfl) h₂' hm₂ hm₂
    exact ⟨pairs, (hsecond.trans hfirst).trans hpairs, hsymbols, hscore⟩
  · exact not_all_matched ((mem_setCard hids' h₂').2 (.inl rfl)) hm₂

end Pairs

end Boards

/-! ## The timers -/

/-- A call is the timer of a session. -/
def IsTimer (calls : Table Call) (id timer socket id₁ id₂ : ℕ) : Prop :=
  ∃ call dueAt, calls.row call = some (.mismatch socket id timer id₁ id₂ dueAt)

/-- Without a timer at most one card is flipped; a timer is that of the two
flipped cards. -/
def TimerFits (calls : Table Call) (socket id : ℕ) (flipped : List ℕ) (timer : Option ℕ) : Prop :=
  (timer = none ∧ flipped.length ≤ 1)
    ∨ ∃ set a b, timer = some set ∧ flipped = [a, b] ∧ IsTimer calls id set socket a b
      ∧ ∀ socket' a' b', IsTimer calls id set socket' a' b' → socket' = socket ∧ a' = a ∧ b' = b

/-- The sessions of the sockets, the boards of the memory games and their timers. -/
structure Inv (s : InFlight Db Call) : Prop where
  mapped : ∀ socket id, s.db.bySocket socket = some id → ∃ state, s.db.sessions.row id = some state
  apart : ∀ socket socket' id, s.db.bySocket socket = some id → s.db.bySocket socket' = some id →
    socket' = socket
  timers : ∀ id timer socket id₁ id₂, IsTimer s.calls id timer socket id₁ id₂ →
    timer < s.db.nextTimer
  playing : ∀ socket id state board flipped timer, s.db.bySocket socket = some id →
    s.db.sessions.row id = some state → state.isFinished = false →
    state.play = .memory board flipped timer →
    SoundBoard state.score board flipped ∧ TimerFits s.calls socket id flipped timer

theorem TimerFits.mono {calls calls' : Table Call} {socket id : ℕ} {flipped : List ℕ}
    {timer : Option ℕ} (h : TimerFits calls socket id flipped timer)
    (hcalls : ∀ set ∈ timer, ∀ socket a b,
      IsTimer calls' id set socket a b ↔ IsTimer calls id set socket a b) :
    TimerFits calls' socket id flipped timer := by
  rcases h with hnone | ⟨set, a, b, rfl, hflipped, hpending, honly⟩
  · exact .inl hnone
  · refine .inr ⟨set, a, b, rfl, hflipped, (hcalls set rfl _ _ _).2 hpending, fun _ _ _ h => ?_⟩
    exact honly _ _ _ ((hcalls set rfl _ _ _).1 h)

/-- The timers of a session are the same. -/
def SameTimers (calls calls' : Table Call) (id : ℕ) : Prop :=
  ∀ timer socket a b, IsTimer calls' id timer socket a b ↔ IsTimer calls id timer socket a b

/-- Calls that are no timers, or timers of another session, do not matter. -/
theorem sameTimers_insert {calls : Table Call} {cs : List Call} {id : ℕ}
    (hcs : ∀ c ∈ cs, ∀ socket timer a b dueAt, c ≠ .mismatch socket id timer a b dueAt) :
    SameTimers calls (cs.foldl Table.insert calls) id := by
  intro timer socket a b
  constructor
  · rintro ⟨call, dueAt, hrow⟩
    rcases Service.foldl_insert_row cs hrow with hmem | hold
    · exact absurd rfl (hcs _ hmem socket timer a b dueAt)
    · exact ⟨call, dueAt, hold⟩
  · rintro ⟨call, dueAt, hrow⟩
    exact ⟨call, dueAt, Service.foldl_insert_keeps cs hrow⟩

theorem sameTimers_advance {calls : Table Call} {call : ℕ} {c : Call} {next : Option Call} {id : ℕ}
    (hrow : calls.row call = some c)
    (hc : ∀ socket timer a b dueAt, c ≠ .mismatch socket id timer a b dueAt)
    (hnext : ∀ d ∈ next, ∀ socket timer a b dueAt, d ≠ .mismatch socket id timer a b dueAt) :
    SameTimers calls (Service.advance calls call next) id := by
  intro timer socket a b
  constructor
  · rintro ⟨i, dueAt, hi⟩
    rcases Service.advance_row hi with ⟨-, hd⟩ | ⟨-, hold⟩
    · exact absurd rfl (hnext _ hd socket timer a b dueAt)
    · exact ⟨i, dueAt, hold⟩
  · rintro ⟨i, dueAt, hi⟩
    have hne : i ≠ call := by
      rintro rfl
      exact hc socket timer a b dueAt (Option.some.inj (hrow.symm.trans hi))
    exact ⟨i, dueAt, Service.advance_keeps hne hi⟩

/-- **Frame.** Only the session of one socket changes, which is played on with a
sound board, or is no longer of the socket. -/
theorem Inv.update {db db' : Db} {calls calls' : Table Call} (h : Inv ⟨db, calls⟩) {socket id : ℕ}
    (hsocket : db.bySocket socket = some id)
    (hsockets : ∀ socket', socket' ≠ socket → db'.bySocket socket' = db.bySocket socket')
    (hrows : ∀ id', id' ≠ id → db'.sessions.row id' = db.sessions.row id')
    (htimers : ∀ id timer socket a b, IsTimer calls' id timer socket a b → timer < db'.nextTimer)
    (hcalls : ∀ id', id' ≠ id → SameTimers calls calls' id')
    (hself : db'.bySocket socket = none ∨ (db'.bySocket socket = some id
      ∧ ∃ state, db'.sessions.row id = some state ∧ ∀ board flipped timer,
        state.isFinished = false → state.play = .memory board flipped timer →
        SoundBoard state.score board flipped ∧ TimerFits calls' socket id flipped timer)) :
    Inv ⟨db', calls'⟩ := by
  have hother : ∀ {socket' id'}, socket' ≠ socket → db.bySocket socket' = some id' → id' ≠ id := by
    rintro socket' id' hne hid rfl
    exact hne (h.apart socket socket' id' hsocket hid)
  have hback : ∀ {socket' id'}, db'.bySocket socket' = some id' →
      db.bySocket socket' = some id' := by
    intro socket' id' hid
    by_cases hne : socket' = socket
    · subst hne
      rcases hself with hnone | ⟨hsome, -⟩
      · rw [hnone] at hid
        cases hid
      · rwa [hsocket, ← hsome]
    · rwa [← hsockets socket' hne]
  refine ⟨fun socket' id' hid => ?_, fun socket₁ socket₂ id' h₁ h₂ =>
    h.apart _ _ _ (hback h₁) (hback h₂), htimers, ?_⟩
  · by_cases hne : socket' = socket
    · subst hne
      rcases hself with hnone | ⟨hsome, state, hrow, -⟩
      · rw [hnone] at hid
        cases hid
      · obtain rfl := Option.some.inj (hsome.symm.trans hid)
        exact ⟨state, hrow⟩
    · obtain ⟨state, hrow⟩ := h.mapped socket' id' (hback hid)
      exact ⟨state, (hrows id' (hother hne (hback hid))).trans hrow⟩
  · intro socket' id' state board flipped timer hid hrow hopen hplay
    by_cases hne : socket' = socket
    · subst hne
      rcases hself with hnone | ⟨hsome, state', hrow', hplaying⟩
      · rw [hnone] at hid
        cases hid
      · obtain rfl := Option.some.inj (hsome.symm.trans hid)
        obtain rfl := Option.some.inj (hrow'.symm.trans hrow)
        exact hplaying board flipped timer hopen hplay
    · have hne' := hother hne (hback hid)
      rw [hrows id' hne'] at hrow
      obtain ⟨hsound, hfits⟩ :=
        h.playing socket' id' state board flipped timer (hback hid) hrow hopen hplay
      exact ⟨hsound, hfits.mono fun set _ => hcalls id' hne' set⟩

/-- A session that no socket has may change. -/
theorem Inv.offline {db db' : Db} {calls calls' : Table Call} (h : Inv ⟨db, calls⟩) {id : ℕ}
    (hid : ∀ socket, db.bySocket socket ≠ some id) (hsockets : db'.bySocket = db.bySocket)
    (hnext : db'.nextTimer = db.nextTimer)
    (hrows : ∀ id', id' ≠ id → db'.sessions.row id' = db.sessions.row id')
    (hback : ∀ id timer socket a b, IsTimer calls' id timer socket a b →
      IsTimer calls id timer socket a b)
    (hcalls : ∀ id', id' ≠ id → SameTimers calls calls' id') : Inv ⟨db', calls'⟩ := by
  have hne : ∀ {socket id'}, db.bySocket socket = some id' → id' ≠ id := by
    rintro socket id' hsocket rfl
    exact hid socket hsocket
  refine ⟨fun socket id' hsocket => ?_, fun socket₁ socket₂ id' h₁ h₂ => ?_,
    fun id' timer socket a b htimer => ?_,
    fun socket id' state board flipped timer hsocket hrow hopen hplay => ?_⟩
  all_goals dsimp only at *
  · rw [hsockets] at hsocket
    obtain ⟨state, hrow⟩ := h.mapped socket id' hsocket
    exact ⟨state, (hrows id' (hne hsocket)).trans hrow⟩
  · rw [hsockets] at h₁ h₂
    exact h.apart socket₁ socket₂ id' h₁ h₂
  · rw [hnext]
    exact h.timers id' timer socket a b (hback id' timer socket a b htimer)
  · rw [hsockets] at hsocket
    rw [hrows id' (hne hsocket)] at hrow
    obtain ⟨hsound, hfits⟩ :=
      h.playing socket id' state board flipped timer hsocket hrow hopen hplay
    exact ⟨hsound, hfits.mono fun set _ => hcalls id' (hne hsocket) set⟩

theorem sessionOf_eq {db : Db} {socket id : ℕ} {state : Session} :
    sessionOf db socket = some (id, state)
      ↔ db.bySocket socket = some id ∧ db.sessions.row id = some state := by
  unfold sessionOf
  simp only [Option.bind_eq_some_iff, Option.map_eq_some_iff, Prod.mk.injEq]
  constructor
  · rintro ⟨i, hi, st, hst, rfl, rfl⟩
    exact ⟨hi, hst⟩
  · rintro ⟨hid, hrow⟩
    exact ⟨id, hid, state, hrow, rfl, rfl⟩

/-- The cards of two ids after they are closed. -/
def closed (board : List Card) (a b : ℕ) : List Card :=
  setCard (setCard board a fun c => { c with isFlipped := false }) b
    fun c => { c with isFlipped := false }

/-- The timer of a session that is played. -/
theorem mismatch_closes {db : Db} {socket id set a b : ℕ} {state : Session} {board : List Card}
    (hsocket : db.bySocket socket = some id) (hrow : db.sessions.row id = some state)
    (hopen : state.isFinished = false) (hplay : state.play = .memory board [a, b] (some set))
    (hsound : SoundBoard state.score board [a, b]) :
    mismatch db socket id set a b
        = setSession db id { state with play := .memory (closed board a b) [] none }
      ∧ SoundBoard state.score (closed board a b) [] := by
  obtain ⟨c₁, h₁, -, hm₁⟩ := hsound.found (List.mem_cons_self ..)
  obtain ⟨c₂, h₂, -, hm₂⟩ := hsound.found (List.mem_cons_of_mem _ (List.mem_cons_self ..))
  refine ⟨?_, hsound.close h₁ h₂⟩
  unfold mismatch
  simp only [hrow, hplay, hsocket, hopen, h₁, h₂, hm₁, hm₂]
  simp [closed]

theorem Inv.allTidy {config : Config} {s : InFlight Db Call} (h : Inv s) : AllTidy config s := by
  intro socket id state board flipped timer hsession hopen hplay
  obtain ⟨hsocket, hrow⟩ := sessionOf_eq.1 hsession
  obtain ⟨hsound, hfits⟩ := h.playing socket id state board flipped timer hsocket hrow hopen hplay
  refine ⟨hsound.opened, ?_, fun htwo => ?_, hsound.paired, hsound.unfinished⟩
  · rcases hfits with ⟨-, hone⟩ | ⟨set, a, b, -, rfl, -⟩
    · omega
    · exact Nat.le_refl 2
  · rcases hfits with ⟨-, hone⟩ | ⟨set, a, b, rfl, rfl, ⟨call, dueAt, hcall⟩, -⟩
    · omega
    · refine ⟨call, set, a, b, dueAt, hcall, fun now hdue hclock => ?_⟩
      obtain ⟨hmismatch, hclosed⟩ :=
        @mismatch_closes { s.db with clock := now } socket id set a b state board hsocket hrow hopen
          hplay hsound
      refine ⟨mismatch { s.db with clock := now } socket id set a b,
        { state with play := .memory (closed board a b) [] none }, closed board a b, ?_, ?_, rfl,
        List.perm_nil.1 hclosed.opened⟩
      · unfold resume
        exact (if_pos hclock).trans (if_pos hdue)
      · rw [hmismatch]
        exact setSession_row hrow

/-! ## Handlers -/

section Handlers

variable {config : Config} {db : Db} {calls : Table Call} {socket id : ℕ} {old state : Session}

theorem endsRight_refl {success : Bool} {db' : Db} (h : db'.sessions = db.sessions) :
    EndsRight success db db' := by
  intro i st st' board flipped timer hrow hopen hrow' hfinished
  rw [h, hrow] at hrow'
  obtain rfl := Option.some.inj hrow'
  rw [hopen] at hfinished
  cases hfinished

/-- Only one session has changed. -/
theorem endsRight_setSession {success : Bool} {db' : Db}
    (hsessions : db'.sessions = (setSession db id state).sessions)
    (hself : ∀ st, db.sessions.row id = some st → st.isFinished = false → state.isFinished = true →
      ∀ board flipped timer, state.play = .memory board flipped timer →
      (success = true ↔ board.all (·.isMatched) = true)) :
    EndsRight success db db' := by
  intro i st st' board flipped timer hrow hopen hrow' hfinished hplay
  rw [hsessions, setSession, Table.modify_row] at hrow'
  by_cases hi : i = id
  · rw [if_pos hi, hrow] at hrow'
    obtain rfl := Option.some.inj hrow'
    exact hself st (hi ▸ hrow) hopen hfinished board flipped timer hplay
  · rw [if_neg hi, hrow] at hrow'
    obtain rfl := Option.some.inj hrow'
    rw [hopen] at hfinished
    cases hfinished

theorem setSession_row_of_ne {id' : ℕ} (h : id' ≠ id) :
    (setSession db id state).sessions.row id' = db.sessions.row id' := by
  rw [setSession, Table.modify_row, if_neg h]

/-- The session of a socket is played on. -/
theorem Inv.setSession (h : Inv ⟨db, calls⟩) (hsocket : db.bySocket socket = some id)
    (hrow : db.sessions.row id = some old)
    (hplaying : ∀ board flipped timer, state.isFinished = false →
      state.play = .memory board flipped timer →
      SoundBoard state.score board flipped ∧ TimerFits calls socket id flipped timer) :
    Inv ⟨SocketGames.setSession db id state, calls⟩ :=
  h.update hsocket (fun _ _ => rfl) (fun _ => setSession_row_of_ne) h.timers
    (fun _ _ _ _ _ _ => Iff.rfl)
    (.inr ⟨hsocket, state, setSession_row hrow, hplaying⟩)

/-- The session of a socket is finished. -/
theorem finishGame_inv (h : Inv ⟨db, calls⟩) (hsocket : db.bySocket socket = some id)
    (hopen : state.isFinished = false) {success : Bool} {now : ℤ}
    (hends : ∀ board flipped timer, state.play = .memory board flipped timer →
      (success = true ↔ board.all (·.isMatched) = true)) :
    Inv ⟨(finishGame db socket id state success now).1,
        (finishGame db socket id state success now).2.foldl Table.insert calls⟩
      ∧ EndsRight success db (finishGame db socket id state success now).1 := by
  have hcs : ∀ c ∈ (finishGame db socket id state success now).2,
      ∀ socket id timer a b dueAt, c ≠ .mismatch socket id timer a b dueAt := by
    unfold finishGame
    rw [if_neg (by rw [hopen]; exact Bool.false_ne_true)]
    dsimp only
    split_ifs
    · rintro c hc _ _ _ _ _ _ rfl
      cases List.mem_singleton.1 hc
    · rintro c hc
      cases hc
  have hsame : ∀ i, SameTimers calls
      ((finishGame db socket id state success now).2.foldl Table.insert calls) i :=
    fun i => sameTimers_insert fun c hc socket => hcs c hc socket i
  have hdb : (finishGame db socket id state success now).1
      = { SocketGames.setSession db id
            { clearMemoryMismatchTimer state with isFinished := true } with
          bySocket := Function.update db.bySocket socket none
          lastFinish := Function.update db.lastFinish state.userId
            (Function.update (db.lastFinish state.userId) state.slug (some now)) } := by
    unfold finishGame
    rw [if_neg (by rw [hopen]; exact Bool.false_ne_true)]
    rfl
  constructor
  · refine h.update hsocket ?_ ?_ ?_ (fun i _ => hsame i) (.inl ?_)
    · intro socket' hne
      rw [hdb]
      exact Function.update_of_ne hne ..
    · intro i hi
      rw [hdb]
      exact setSession_row_of_ne hi
    · intro i timer socket' a b htimer
      rw [hdb]
      exact h.timers i timer socket' a b ((hsame i timer socket' a b).1 htimer)
    · rw [hdb]
      exact Function.update_self ..
  · refine endsRight_setSession (by rw [hdb]) fun _ _ _ _ board flipped timer hplay => ?_
    unfold clearMemoryMismatchTimer at hplay
    split at hplay
    · next board' flipped' timer' hstate =>
      obtain ⟨rfl, -, -⟩ := Play.memory.inj hplay
      exact hends board' flipped' timer' hstate
    · next board' hstate =>
      dsimp only at hplay
      rw [hstate] at hplay
      cases hplay

/-- The second card of a pair. -/
theorem pairFlipped_inv (h : Inv ⟨db, calls⟩) (hsocket : db.bySocket socket = some id)
    (hrow : db.sessions.row id = some state) (hopen : state.isFinished = false) {board : List Card}
    {a b : ℕ} {c₁ c₂ : Card} (hsound : SoundBoard state.score board [a, b])
    (h₁ : findCard board a = some c₁) (h₂ : findCard board b = some c₂) {now : ℤ} :
    Inv ⟨(pairFlipped config db socket id state board c₁ c₂ none now).1,
        (pairFlipped config db socket id state board c₁ c₂ none now).2.foldl Table.insert calls⟩
      ∧ EndsRight true db (pairFlipped config db socket id state board c₁ c₂ none now).1 := by
  obtain ⟨-, rfl⟩ := found_id h₁
  obtain ⟨-, rfl⟩ := found_id h₂
  unfold pairFlipped
  by_cases hsymbol : c₁.symbol = c₂.symbol
  · rw [if_pos hsymbol]
    dsimp only
    split_ifs with hall
    · refine finishGame_inv h hsocket ?_ fun board' flipped timer hplay => ?_
      · exact hopen
      · obtain ⟨rfl, -, -⟩ := Play.memory.inj hplay
        exact iff_of_true rfl hall
    · refine ⟨h.setSession hsocket hrow fun board' flipped timer _ hplay => ?_,
        endsRight_setSession rfl fun _ _ _ hfinished => ?_⟩
      · obtain ⟨rfl, rfl, rfl⟩ := Play.memory.inj hplay
        refine ⟨⟨nodup_setCard (nodup_setCard hsound.ids fun _ => rfl) fun _ => rfl,
          List.Perm.of_eq (hsound.openCards_pair h₁ h₂ (fun _ => rfl) fun c hc => ?_),
          hsound.paired_match h₁ h₂ hsymbol, Bool.eq_false_iff.2 hall⟩, .inl ⟨rfl, Nat.zero_le 1⟩⟩
        cases hc.2
      · rw [hopen] at hfinished
        cases hfinished
  · rw [if_neg hsymbol]
    have hsessions : ∀ i, i ≠ id → SameTimers calls ([Call.mismatch socket id db.nextTimer c₁.id
        c₂.id (now + config.MEMORY_MISMATCH_TOTAL_MS)].foldl Table.insert calls) i := by
      intro i hi
      refine sameTimers_insert fun c hc socket' timer a b dueAt heq => hi ?_
      rw [List.mem_singleton.1 hc] at heq
      injection heq with _ hid
      exact hid.symm
    have hnew : ∀ i timer socket' a b, IsTimer ([Call.mismatch socket id db.nextTimer c₁.id c₂.id
        (now + config.MEMORY_MISMATCH_TOTAL_MS)].foldl Table.insert calls) i timer socket' a b →
        IsTimer calls i timer socket' a b
          ∨ (i = id ∧ timer = db.nextTimer ∧ socket' = socket ∧ a = c₁.id ∧ b = c₂.id) := by
      rintro i timer socket' a b ⟨call, dueAt, hcall⟩
      rcases Service.foldl_insert_row _ hcall with hmem | hold
      · obtain ⟨rfl, rfl, rfl, rfl, rfl, -⟩ := Call.mismatch.inj (List.mem_singleton.1 hmem)
        exact .inr ⟨rfl, rfl, rfl, rfl, rfl⟩
      · exact .inl ⟨call, dueAt, hold⟩
    refine ⟨h.update hsocket (fun _ _ => rfl) (fun _ => setSession_row_of_ne) ?_ hsessions
      (.inr ⟨hsocket, _, setSession_row hrow, ?_⟩),
      endsRight_setSession rfl fun _ _ _ hfinished => ?_⟩
    · intro i timer socket' a b htimer
      rcases hnew i timer socket' a b htimer with hold | ⟨-, rfl, -⟩
      · exact Nat.lt_succ_of_lt (h.timers i timer socket' a b hold)
      · exact Nat.lt_succ_self _
    · intro board' flipped timer _ hplay
      obtain ⟨rfl, rfl, rfl⟩ := Play.memory.inj hplay
      refine ⟨hsound, .inr ⟨db.nextTimer, _, _, rfl, rfl,
        ⟨calls.nextId, _, if_pos rfl⟩, fun socket' a b htimer => ?_⟩⟩
      -- a timer in flight is older than the new one
      rcases hnew id db.nextTimer socket' a b htimer with hold | ⟨-, -, hsame⟩
      · exact absurd (h.timers id _ socket' a b hold) (Nat.lt_irrefl _)
      · exact hsame
    · rw [hopen] at hfinished
      cases hfinished

/-- The first card of a pair, or the second. -/
theorem flip_inv (h : Inv ⟨db, calls⟩) (cardId : ℕ) (now : ℤ) :
    Inv ⟨(flip config db socket cardId now).1,
        (flip config db socket cardId now).2.foldl Table.insert calls⟩
      ∧ EndsRight true db (flip config db socket cardId now).1 := by
  have hsame : Inv ⟨db, calls⟩ ∧ EndsRight true db db := ⟨h, endsRight_refl rfl⟩
  unfold flip
  split
  · exact hsame
  · next id state hsession =>
    obtain ⟨hsocket, hrow⟩ := sessionOf_eq.1 hsession
    split
    · exact hsame
    · next board flipped timer hplay =>
      split_ifs with hstop
      · exact hsame
      · obtain ⟨hopen, hfew⟩ := not_or.1 hstop
        rw [Bool.not_eq_true] at hopen
        obtain ⟨hsound, hfits⟩ :=
          h.playing socket id state board flipped timer hsocket hrow hopen hplay
        have htimer : timer = none ∧ flipped.length ≤ 1 := by
          rcases hfits with hnone | ⟨set, a, b, -, rfl, -⟩
          · exact hnone
          · exact absurd (Nat.le_refl 2) hfew
        obtain ⟨rfl, hone⟩ := htimer
        split
        · exact hsame
        · next card hcard =>
          split_ifs with hused
          · exact hsame
          · obtain ⟨hclosed, hmatched⟩ := not_or.1 hused
            rw [Bool.not_eq_true] at hclosed hmatched
            have hflipped := hsound.flip hcard hclosed hmatched
            have hself := @findCard_setCard_self board cardId card
              (fun c => { c with isFlipped := true }) hsound.ids (fun _ => rfl) hcard
            dsimp only
            match flipped, hone, hsound, hflipped with
            | [], _, _, hflipped =>
              rw [List.nil_append, List.filterMap_cons_some hself, List.filterMap_nil]
              refine ⟨h.setSession hsocket hrow fun board' flipped timer _ hplay => ?_,
                endsRight_setSession rfl fun _ _ _ hfinished => ?_⟩
              · obtain ⟨rfl, rfl, rfl⟩ := Play.memory.inj hplay
                exact ⟨hflipped, .inl ⟨rfl, Nat.le_refl 1⟩⟩
              · rw [hopen] at hfinished
                cases hfinished
            | [a], _, hsound, hflipped =>
              obtain ⟨c₁, h₁, -⟩ := hflipped.found (List.mem_cons_self ..)
              rw [List.singleton_append, List.filterMap_cons_some h₁,
                List.filterMap_cons_some hself, List.filterMap_nil]
              exact pairFlipped_inv h hsocket hrow hopen hflipped h₁ hself

theorem swap_inv (h : Inv ⟨db, calls⟩) {fromX fromY toX toY : ℤ} {fills : List Fill} {now : ℤ}
    {out : Db × List Call} (hout : swap db socket fromX fromY toX toY fills now = some out) :
    Inv ⟨out.1, out.2.foldl Table.insert calls⟩ ∧ EndsRight true db out.1 := by
  have hsame : Inv ⟨db, calls⟩ ∧ EndsRight true db db := ⟨h, endsRight_refl rfl⟩
  unfold swap at hout
  split at hout
  · obtain rfl := Option.some.inj hout
    exact hsame
  · next id state hsession =>
    obtain ⟨hsocket, hrow⟩ := sessionOf_eq.1 hsession
    split at hout
    · obtain rfl := Option.some.inj hout
      exact hsame
    · split_ifs at hout with hstop
      · obtain rfl := Option.some.inj hout
        exact hsame
      · rw [Bool.not_eq_true] at hstop
        obtain ⟨moved, -, rfl⟩ := Option.map_eq_some_iff.1 hout
        cases moved with
        | none => exact hsame
        | some scored =>
          dsimp only
          split_ifs
          · refine finishGame_inv h hsocket ?_ fun board flipped timer hplay => ?_
            · exact hstop
            · cases hplay
          · refine ⟨h.setSession hsocket hrow fun board flipped timer _ hplay => ?_,
              endsRight_setSession rfl fun _ _ _ hfinished => ?_⟩
            · cases hplay
            · rw [hstop] at hfinished
              cases hfinished

theorem gameEnd_inv (h : Inv ⟨db, calls⟩) (now : ℤ) :
    Inv ⟨(gameEnd db socket now).1, (gameEnd db socket now).2.foldl Table.insert calls⟩
      ∧ EndsRight false db (gameEnd db socket now).1 := by
  have hsame : Inv ⟨db, calls⟩ ∧ EndsRight false db db := ⟨h, endsRight_refl rfl⟩
  unfold gameEnd
  split
  · exact hsame
  · next id state hsession =>
    obtain ⟨hsocket, hrow⟩ := sessionOf_eq.1 hsession
    split_ifs with hstop
    · exact hsame
    · rw [Bool.not_eq_true] at hstop
      refine finishGame_inv h hsocket hstop fun board flipped timer hplay => ?_
      rw [(h.playing socket id state board flipped timer hsocket hrow hstop hplay).1.unfinished]

/-- The timers of all sessions are the same. -/
theorem Inv.recalled (h : Inv ⟨db, calls⟩) {calls' : Table Call}
    (hcalls : ∀ id, SameTimers calls calls' id) : Inv ⟨db, calls'⟩ where
  mapped := h.mapped
  apart := h.apart
  timers id timer socket a b htimer :=
    h.timers id timer socket a b ((hcalls id timer socket a b).1 htimer)
  playing socket id state board flipped timer hsocket hrow hopen hplay := by
    obtain ⟨hsound, hfits⟩ := h.playing socket id state board flipped timer hsocket hrow hopen hplay
    exact ⟨hsound, hfits.mono fun set _ => hcalls id set⟩

theorem clearSessionTimer_cases (h : Inv ⟨db, calls⟩) (socket : ℕ) :
    (db.bySocket socket = none ∧ clearSessionTimer db socket = db)
      ∨ ∃ id state, db.bySocket socket = some id ∧ db.sessions.row id = some state
        ∧ clearSessionTimer db socket = setSession db id (clearMemoryMismatchTimer state) := by
  unfold clearSessionTimer
  cases hsocket : db.bySocket socket with
  | none =>
    have hnone : sessionOf db socket = none := by
      unfold sessionOf
      rw [hsocket]
      rfl
    rw [hnone]
    exact .inl ⟨rfl, rfl⟩
  | some id =>
    obtain ⟨state, hrow⟩ := h.mapped socket id hsocket
    rw [sessionOf_eq.2 ⟨hsocket, hrow⟩]
    exact .inr ⟨id, state, rfl, hrow, rfl⟩

theorem play_clearTimer {board : List Card} {flipped : List ℕ} {timer : Option ℕ}
    (h : (clearMemoryMismatchTimer state).play = .memory board flipped timer) :
    timer = none ∧ (clearMemoryMismatchTimer state).score = state.score
      ∧ ∃ set, state.play = .memory board flipped set := by
  unfold clearMemoryMismatchTimer at h ⊢
  split at h
  · next board' flipped' set hstate =>
    obtain ⟨rfl, rfl, rfl⟩ := Play.memory.inj h
    exact ⟨rfl, rfl, set, hstate⟩
  · next hstate =>
    rw [hstate] at h
    cases h

theorem endsRight_clear (h : Inv ⟨db, calls⟩) {success : Bool} {db' : Db}
    (hsessions : db'.sessions = (clearSessionTimer db socket).sessions) :
    EndsRight success db db' := by
  rcases clearSessionTimer_cases h socket with ⟨-, hclear⟩ | ⟨id, state, -, hrow, hclear⟩
  · exact endsRight_refl (hsessions.trans (by rw [hclear]))
  · refine endsRight_setSession (hsessions.trans (by rw [hclear])) fun st hst hopen hfinished => ?_
    obtain rfl := Option.some.inj (hrow.symm.trans hst)
    rw [clearTimer_finished, hopen] at hfinished
    cases hfinished

theorem disconnect_inv (h : Inv ⟨db, calls⟩) :
    Inv ⟨disconnect db socket, calls⟩ ∧ EndsRight false db (disconnect db socket) := by
  refine ⟨?_, endsRight_clear h rfl⟩
  unfold disconnect
  rcases clearSessionTimer_cases h socket with ⟨hnone, hclear⟩ | ⟨id, state, hsocket, hrow, hclear⟩
  · rw [hclear, ← hnone]
    dsimp only
    rw [Function.update_eq_self]
    exact h
  · rw [hclear]
    exact h.update hsocket (fun _ hne => Function.update_of_ne hne ..)
      (fun _ => setSession_row_of_ne) h.timers (fun _ _ _ _ _ _ => Iff.rfl)
      (.inl (Function.update_self ..))

theorem gameStart_db {userId : Option ℕ} {gameSlug : String} {now : ℤ} :
    (gameStart config db socket userId gameSlug now).1 = clearSessionTimer db socket := by
  unfold gameStart
  dsimp only
  split <;> rfl

/-- No two cards of the session of the socket are open. -/
theorem gameStart_inv (h : Inv ⟨db, calls⟩) {userId : Option ℕ} {gameSlug : String} {now : ℤ}
    (hfew : ∀ id state board flipped timer, sessionOf db socket = some (id, state) →
      state.isFinished = false → state.play = .memory board flipped timer → flipped.length ≠ 2) :
    Inv ⟨(gameStart config db socket userId gameSlug now).1,
        (gameStart config db socket userId gameSlug now).2.foldl Table.insert calls⟩
      ∧ EndsRight false db (gameStart config db socket userId gameSlug now).1 := by
  have hcleared : Inv ⟨clearSessionTimer db socket, calls⟩ := by
    rcases clearSessionTimer_cases h socket with ⟨-, hclear⟩ | ⟨id, state, hsocket, hrow, hclear⟩
    · rw [hclear]
      exact h
    · rw [hclear]
      refine h.setSession hsocket hrow fun board flipped timer hopen hplay => ?_
      rw [clearTimer_finished] at hopen
      obtain ⟨rfl, hscore, set, hplay⟩ := play_clearTimer hplay
      obtain ⟨hsound, hfits⟩ := h.playing socket id state board flipped set hsocket hrow hopen hplay
      have hne := hfew id state board flipped set (sessionOf_eq.2 ⟨hsocket, hrow⟩) hopen hplay
      rw [hscore]
      refine ⟨hsound, ?_⟩
      rcases hfits with ⟨-, hone⟩ | ⟨set, a, b, -, rfl, -⟩
      · exact .inl ⟨rfl, hone⟩
      · exact absurd rfl hne
  refine ⟨?_, endsRight_clear h (by rw [gameStart_db])⟩
  rw [gameStart_db]
  refine hcleared.recalled fun id => sameTimers_insert ?_
  unfold gameStart
  dsimp only
  split
  · intro c hc
    split_ifs at hc
    · cases hc
    · rintro _ _ _ _ _ rfl
      cases List.mem_singleton.1 hc
  · intro c hc
    cases hc

/-! ### Answers -/

/-- A board of shuffled pairs. -/
theorem memoryBoard_sound {shuffled : List CoinSymbol} {board : List Card}
    (h : memoryBoard shuffled = some board) : SoundBoard 0 board [] := by
  unfold memoryBoard at h
  split_ifs at h with hperm
  obtain rfl := Option.some.inj h
  have hcard : ∀ c ∈ shuffled.mapIdx fun id symbol => Card.mk id symbol false false,
      c.isFlipped = false ∧ c.isMatched = false := by
    intro c hc
    obtain ⟨i, hi, rfl⟩ := List.mem_mapIdx.1 hc
    exact ⟨rfl, rfl⟩
  have hlength : shuffled.length = 16 := (List.isPerm_iff.1 hperm).length_eq
  refine ⟨?_, ?_, ⟨[], ?_, by simp, rfl⟩, ?_⟩
  · have hids : (shuffled.mapIdx fun id symbol => Card.mk id symbol false false).map Card.id
        = List.range shuffled.length := List.ext_getElem (by simp) fun i _ _ => by simp
    rw [hids]
    exact List.nodup_range
  · refine List.Perm.of_eq (List.eq_nil_iff_forall_not_mem.2 fun id hid => ?_)
    obtain ⟨c, hc, -, hflipped, -⟩ := mem_openCards.1 hid
    rw [(hcard c hc).1] at hflipped
    cases hflipped
  · refine List.Perm.of_eq (List.eq_nil_iff_forall_not_mem.2 fun c hc => ?_)
    obtain ⟨hmem, hmatched⟩ := List.mem_filter.1 hc
    rw [(hcard c hmem).2] at hmatched
    cases hmatched
  · obtain ⟨c, hc⟩ := List.exists_mem_of_length_pos (by
      rw [List.length_mapIdx, hlength]
      omega : 0 < (shuffled.mapIdx fun id symbol => Card.mk id symbol false false).length)
    exact not_all_matched hc (hcard c hc).2

theorem gameStarted_inv (h : Inv ⟨db, calls⟩) {userId gameId : ℕ} {game : Game}
    {shuffled : List CoinSymbol} {fill : Fill} {play : Play} {now : ℤ} {success : Bool}
    (hplay : startedPlay game shuffled fill = some play) :
    Inv ⟨gameStarted db socket userId gameId play now, calls⟩
      ∧ EndsRight success db (gameStarted db socket userId gameId play now) := by
  have hnew : ∀ {socket' id}, db.bySocket socket' = some id → id ≠ db.sessions.nextId := by
    intro socket' id hid
    obtain ⟨state, hrow⟩ := h.mapped socket' id hid
    exact (Table.row_lt hrow).ne
  have hsockets : ∀ {socket' id},
      (gameStarted db socket userId gameId play now).bySocket socket' = some id →
      (socket' = socket ∧ id = db.sessions.nextId)
        ∨ (socket' ≠ socket ∧ db.bySocket socket' = some id) := by
    intro socket' id hid
    unfold gameStarted at hid
    dsimp only at hid
    by_cases hs : socket' = socket
    · rw [hs, Function.update_self] at hid
      exact .inl ⟨hs, (Option.some.inj hid).symm⟩
    · rw [Function.update_of_ne hs] at hid
      exact .inr ⟨hs, hid⟩
  refine ⟨⟨?_, ?_, h.timers, ?_⟩, ?_⟩
  · intro socket' id hid
    rcases hsockets hid with ⟨rfl, rfl⟩ | ⟨-, hold⟩
    · exact ⟨_, if_pos rfl⟩
    · obtain ⟨state, hrow⟩ := h.mapped socket' id hold
      exact ⟨state, Table.insert_row_of_some hrow _⟩
  · intro socket₁ socket₂ id h₁ h₂
    rcases hsockets h₁ with ⟨rfl, rfl⟩ | ⟨-, hold₁⟩
    · rcases hsockets h₂ with ⟨rfl, -⟩ | ⟨-, hold₂⟩
      · rfl
      · exact absurd rfl (hnew hold₂)
    · rcases hsockets h₂ with ⟨-, rfl⟩ | ⟨-, hold₂⟩
      · exact absurd rfl (hnew hold₁)
      · exact h.apart _ _ _ hold₁ hold₂
  · intro socket' id state board flipped timer hid hrow hopen hboard
    rcases hsockets hid with ⟨rfl, rfl⟩ | ⟨-, hold⟩
    · obtain rfl := Option.some.inj ((if_pos rfl).symm.trans hrow)
      have hboard' : play = .memory board flipped timer := hboard
      cases game with
      | cryptoMemory =>
        obtain ⟨board', hmemory, rfl⟩ := Option.map_eq_some_iff.1 hplay
        obtain ⟨rfl, rfl, rfl⟩ := Play.memory.inj hboard'
        exact ⟨memoryBoard_sound hmemory, .inl ⟨rfl, Nat.zero_le 1⟩⟩
      | cryptoMatch3 =>
        obtain ⟨board', -, rfl⟩ := Option.map_eq_some_iff.1 hplay
        cases hboard'
    · have hrow' : (if id = db.sessions.nextId then _ else db.sessions.row id) = some state := hrow
      rw [if_neg (hnew hold)] at hrow'
      exact h.playing socket' id state board flipped timer hold hrow' hopen hboard
  · intro id state state' board flipped timer hrow hopen hrow' hfinished
    obtain rfl := Option.some.inj ((Table.insert_row_of_some hrow _).symm.trans hrow')
    rw [hopen] at hfinished
    cases hfinished

/-- What the callback does to the sessions. -/
theorem mismatch_cases (db : Db) (socket id timer a b : ℕ) :
    mismatch db socket id timer a b = db ∨ ∃ state state', db.sessions.row id = some state
      ∧ mismatch db socket id timer a b = setSession db id state'
      ∧ state'.isFinished = state.isFinished := by
  unfold mismatch
  split
  · next state hrow =>
    split
    · split_ifs
      · exact .inl rfl
      · exact .inr ⟨state, _, hrow, rfl, rfl⟩
      · split
        · exact .inr ⟨state, _, hrow, rfl, rfl⟩
        · exact .inr ⟨state, _, hrow, rfl, rfl⟩
    · exact .inl rfl
  · exact .inl rfl

/-- Of a session that is open, the callback does something for its own timer only. -/
theorem mismatch_other {timer a b : ℕ} {board : List Card} {flipped : List ℕ}
    {timer' : Option ℕ} (hrow : db.sessions.row id = some state)
    (hplay : state.play = .memory board flipped timer') (hne : timer' ≠ some timer) :
    mismatch db socket id timer a b = db := by
  unfold mismatch
  rw [hrow]
  dsimp only
  rw [hplay]
  cases timer' with
  | none => rfl
  | some set => exact if_pos fun heq => hne (congrArg some heq)

/-- A session that is open is played on after the callback. -/
theorem mismatch_playing (h : Inv ⟨db, calls⟩) {socket' timer a b : ℕ} {calls' : Table Call}
    (hsocket : db.bySocket socket' = some id) (hrow : db.sessions.row id = some state)
    (htimer : IsTimer calls id timer socket a b)
    (hcalls : ∀ set, set ≠ timer → ∀ socket' a' b',
      IsTimer calls' id set socket' a' b' ↔ IsTimer calls id set socket' a' b') :
    ∃ state', (mismatch db socket id timer a b).sessions.row id = some state'
      ∧ ∀ board flipped set, state'.isFinished = false → state'.play = .memory board flipped set →
        SoundBoard state'.score board flipped ∧ TimerFits calls' socket' id flipped set := by
  cases hplay : state.play with
  | match3 board =>
    refine ⟨state, ?_, fun board' flipped set _ hboard => ?_⟩
    · unfold mismatch
      rw [hrow]
      dsimp only
      rw [hplay]
      exact hrow
    · rw [hplay] at hboard
      cases hboard
  | memory board flipped set =>
    by_cases hset : set = some timer
    · subst hset
      by_cases hopen : state.isFinished = true
      · obtain heq | ⟨st, state', hst, heq, hfinished⟩ := mismatch_cases db socket id timer a b
        · refine ⟨state, by rw [heq]; exact hrow, fun _ _ _ hnot => ?_⟩
          rw [hopen] at hnot
          cases hnot
        · refine ⟨state', by rw [heq]; exact setSession_row hrow, fun _ _ _ hnot => ?_⟩
          obtain rfl := Option.some.inj (hrow.symm.trans hst)
          rw [hfinished, hopen] at hnot
          cases hnot
      · rw [Bool.not_eq_true] at hopen
        obtain ⟨hsound, hnone | ⟨set, a', b', hset, rfl, -, honly⟩⟩ :=
          h.playing socket' id state board flipped (some timer) hsocket hrow hopen hplay
        · cases hnone.1
        · obtain rfl := Option.some.inj hset
          obtain ⟨rfl, rfl, rfl⟩ := honly socket a b htimer
          obtain ⟨heq, hclosed⟩ := mismatch_closes hsocket hrow hopen hplay hsound
          refine ⟨_, by rw [heq]; exact setSession_row hrow, fun board' flipped set _ hboard => ?_⟩
          obtain ⟨rfl, rfl, rfl⟩ := Play.memory.inj hboard
          exact ⟨hclosed, .inl ⟨rfl, Nat.zero_le 1⟩⟩
    · refine ⟨state, ?_, fun board' flipped' set' hopen hboard => ?_⟩
      · rw [mismatch_other hrow hplay hset]
        exact hrow
      · obtain ⟨rfl, rfl, rfl⟩ := Play.memory.inj (hplay.symm.trans hboard)
        obtain ⟨hsound, hfits⟩ :=
          h.playing socket' id state board flipped set hsocket hrow hopen hplay
        refine ⟨hsound, hfits.mono fun set' hset' => hcalls set' ?_⟩
        rintro rfl
        exact hset hset'

theorem mismatch_inv (h : Inv ⟨db, calls⟩) {call timer a b : ℕ} {dueAt : ℤ} {success : Bool}
    (hcall : calls.row call = some (.mismatch socket id timer a b dueAt)) :
    Inv ⟨mismatch db socket id timer a b, Service.advance calls call none⟩
      ∧ EndsRight success db (mismatch db socket id timer a b) := by
  have hback : ∀ {i set socket' a' b'},
      IsTimer (Service.advance calls call none) i set socket' a' b' →
      IsTimer calls i set socket' a' b' := by
    rintro i set socket' a' b' ⟨j, due, hj⟩
    exact ⟨j, due, (Service.advance_none_row hj).2⟩
  have hforth : ∀ {i set socket' a' b'}, (i ≠ id ∨ set ≠ timer) →
      IsTimer calls i set socket' a' b' →
      IsTimer (Service.advance calls call none) i set socket' a' b' := by
    rintro i set socket' a' b' hne ⟨j, due, hj⟩
    refine ⟨j, due, Service.advance_keeps ?_ hj⟩
    rintro rfl
    obtain ⟨-, rfl, rfl, -⟩ := Call.mismatch.inj (Option.some.inj (hcall.symm.trans hj))
    exact hne.elim (fun h => h rfl) fun h => h rfl
  have hothers : ∀ i, i ≠ id → SameTimers calls (Service.advance calls call none) i :=
    fun i hi _ _ _ _ => ⟨hback, hforth (.inl hi)⟩
  have hdb := mismatch_cases db socket id timer a b
  have hframe : (mismatch db socket id timer a b).bySocket = db.bySocket
      ∧ (mismatch db socket id timer a b).nextTimer = db.nextTimer
      ∧ ∀ i, i ≠ id → (mismatch db socket id timer a b).sessions.row i = db.sessions.row i := by
    rcases hdb with heq | ⟨state, state', -, heq, -⟩
    · rw [heq]
      exact ⟨rfl, rfl, fun _ _ => rfl⟩
    · rw [heq]
      exact ⟨rfl, rfl, fun _ => setSession_row_of_ne⟩
  obtain ⟨hsockets, hnext, hrows⟩ := hframe
  have hself : ∀ set, set ≠ timer → ∀ socket' a' b',
      IsTimer (Service.advance calls call none) id set socket' a' b' ↔
        IsTimer calls id set socket' a' b' :=
    fun set hset _ _ _ => ⟨hback, hforth (.inr hset)⟩
  constructor
  · by_cases hlive : ∃ socket', db.bySocket socket' = some id
    · obtain ⟨socket', hsocket'⟩ := hlive
      obtain ⟨state, hrow⟩ := h.mapped socket' id hsocket'
      obtain ⟨state', hrow', hplaying⟩ :=
        mismatch_playing h hsocket' hrow ⟨call, dueAt, hcall⟩ hself
      refine h.update hsocket' (fun _ _ => by rw [hsockets]) hrows ?_ hothers
        (.inr ⟨by rw [hsockets]; exact hsocket', state', hrow', hplaying⟩)
      intro i set socket₁ a' b' htimer
      rw [hnext]
      exact h.timers i set socket₁ a' b' (hback htimer)
    · exact h.offline (not_exists.1 hlive) hsockets hnext hrows (fun _ _ _ _ _ => hback) hothers
  · rcases hdb with heq | ⟨state, state', hrow, heq, hfinished⟩
    · exact endsRight_refl (by rw [heq])
    · refine endsRight_setSession (by rw [heq]) fun st hst hopen hdone => ?_
      obtain rfl := Option.some.inj (hrow.symm.trans hst)
      rw [hfinished, hopen] at hdone
      cases hdone

theorem goOn_inv (h : Inv ⟨db, calls⟩) {call : ℕ} {c : Call} {a : Answer} {out : Db × Option Call}
    (hcall : calls.row call = some c) (hout : goOn config db c a = some out) :
    Inv ⟨out.1, Service.advance calls call out.2⟩ ∧ EndsRight false db out.1 := by
  have hsame : ∀ {next : Option Call}, c.win ≠ none ∨ (∃ socket userId game,
      c = .gameUpsert socket userId game) → (∀ d ∈ next, d.win ≠ none) →
      ∀ i, SameTimers calls (Service.advance calls call next) i := by
    intro next hc hnext i
    refine sameTimers_advance hcall ?_ fun d hd socket timer a b dueAt heq => hnext d hd (heq ▸ rfl)
    rintro socket timer a b dueAt rfl
    rcases hc with hwin | ⟨_, _, _, heq⟩
    · exact hwin rfl
    · cases heq
  unfold goOn at hout
  split at hout
  · cases hout
  · next hne =>
    obtain rfl := Option.some.inj hout
    refine ⟨h.recalled (hsame ?_ fun d hd => by cases hd), endsRight_refl rfl⟩
    cases c with
    | gameUpsert socket userId game => exact .inr ⟨socket, userId, game, rfl⟩
    | mismatch => exact absurd rfl (hne _ _ _ _ _ _)
    | findCheckin win => exact .inl (Option.some_ne_none win)
    | createPower win => exact .inl (Option.some_ne_none win)
  · split_ifs at hout
    · obtain rfl := Option.some.inj hout
      exact ⟨h.recalled (hsame (.inr ⟨_, _, _, rfl⟩) fun d hd => by cases hd), endsRight_refl rfl⟩
    · obtain ⟨play, hplay, rfl⟩ := Option.map_eq_some_iff.1 hout
      obtain ⟨hinv, hends⟩ := gameStarted_inv h hplay
      exact ⟨hinv.recalled (hsame (.inr ⟨_, _, _, rfl⟩) fun d hd => by cases hd), hends⟩
  · obtain ⟨-, hout⟩ := Option.ite_none_right_eq_some.1 hout
    obtain rfl := Option.some.inj hout
    exact mismatch_inv h hcall
  · obtain rfl := Option.some.inj hout
    refine ⟨h.recalled (hsame (.inl (Option.some_ne_none _)) fun d hd => ?_), endsRight_refl rfl⟩
    obtain rfl := Option.some.inj hd
    exact Option.some_ne_none _
  · obtain rfl := Option.some.inj hout
    have hinv := h.recalled
      (@hsame none (.inl (Option.some_ne_none _)) fun d hd => by cases hd)
    exact ⟨⟨hinv.mapped, hinv.apart, hinv.timers, hinv.playing⟩, endsRight_refl rfl⟩
  · cases hout

end Handlers

/-! ## Runs -/

/-- The clock does not matter. -/
theorem Inv.at_ {db : Db} {calls : Table Call} (h : Inv ⟨db, calls⟩) (now : ℤ) :
    Inv ⟨{ db with clock := now }, calls⟩ :=
  ⟨h.mapped, h.apart, h.timers, h.playing⟩

/-- An event that comes while no two cards are open. -/
theorem step_inv {config : Config} {s s' : InFlight Db Call} {e : Event Request Answer}
    (h : Inv s) (htidy : StartsTidy s e) (hstep : (service config).step s e = some s') :
    Inv s' ∧ EndsRight (isSuccess e) s.db s'.db := by
  obtain ⟨db, calls⟩ := s
  cases e with
  | start r =>
    obtain ⟨db', cs, hstart, rfl⟩ := Service.step_start _ hstep
    obtain ⟨hclock, hout⟩ := Option.ite_none_right_eq_some.1 hstart
    have hnow := h.at_ r.now
    cases r with
    | gameStart socket userId gameSlug now =>
      obtain ⟨rfl, rfl⟩ := Prod.mk.inj (Option.some.inj hout)
      exact gameStart_inv hnow (htidy hclock)
    | flip socket cardId now =>
      obtain ⟨rfl, rfl⟩ := Prod.mk.inj (Option.some.inj hout)
      exact flip_inv hnow cardId now
    | swap => exact swap_inv hnow hout
    | gameEnd socket now =>
      obtain ⟨rfl, rfl⟩ := Prod.mk.inj (Option.some.inj hout)
      exact gameEnd_inv hnow now
    | disconnect socket now =>
      obtain ⟨rfl, rfl⟩ := Prod.mk.inj (Option.some.inj hout)
      exact disconnect_inv hnow
  | resume call a =>
    obtain ⟨c, db', next, hcall, hresume, rfl⟩ := Service.step_resume _ hstep
    obtain ⟨-, hout⟩ := Option.ite_none_right_eq_some.1 hresume
    exact goOn_inv (h.at_ _) hcall hout

/-- Cards without a timer stay open: a timer that has been cleared does nothing. -/
theorem not_willClose {config : Config} {s : InFlight Db Call} {socket id : ℕ} {state : Session}
    {board : List Card} {flipped : List ℕ} (hrow : s.db.sessions.row id = some state)
    (hplay : state.play = .memory board flipped none) (hne : flipped ≠ []) :
    ¬WillClose config s socket id := by
  rintro ⟨call, set, a, b, dueAt, -, hfires⟩
  obtain ⟨db, state', board', hfired, hrow', hplay', -⟩ :=
    hfires (max dueAt s.db.clock) (le_max_left ..) (le_max_right ..)
  obtain ⟨-, hout⟩ := Option.ite_none_right_eq_some.1 hfired
  obtain ⟨-, hout⟩ := Option.ite_none_right_eq_some.1 hout
  obtain ⟨rfl, -⟩ := Prod.mk.inj (Option.some.inj hout)
  have hsame : mismatch { s.db with clock := max dueAt s.db.clock } socket id set a b
      = { s.db with clock := max dueAt s.db.clock } :=
    mismatch_other hrow hplay (Option.some_ne_none set).symm
  have hrows := (congrArg (fun db => db.sessions.row id) hsame).symm.trans hrow'
  obtain rfl := Option.some.inj (hrow.symm.trans hrows)
  obtain ⟨-, rfl, -⟩ := Play.memory.inj (hplay.symm.trans hplay')
  exact hne rfl

/-- A `game:start` that comes while two cards are open leaves them without a timer. -/
theorem not_staysTidy {config : Config} {s : InFlight Db Call} {e : Event Request Answer}
    (h : Inv s) (htidy : ¬StartsTidy s e) : ¬StaysTidy config s e := by
  intro hstays
  obtain ⟨db, calls⟩ := s
  match e, htidy, hstays with
  | .start (.gameStart socket userId gameSlug now), htidy, hstays =>
    simp only [StartsTidy, not_forall, not_not] at htidy
    obtain ⟨hclock, id, state, board, flipped, timer, hsession, hopen, hplay, htwo⟩ := htidy
    obtain ⟨hsocket, hrow⟩ := sessionOf_eq.1 hsession
    have hstart : (service config).start db (.gameStart socket userId gameSlug now)
        = some ((gameStart config { db with clock := now } socket userId gameSlug now).1,
          (gameStart config { db with clock := now } socket userId gameSlug now).2) :=
      if_pos hclock
    obtain ⟨htidy, -⟩ := hstays _ (Service.step_of_start _ hstart)
    have hrow' := @setSession_row { db with clock := now } id state
      (clearMemoryMismatchTimer state) hrow
    have hplay' : (clearMemoryMismatchTimer state).play = .memory board flipped none := by
      unfold clearMemoryMismatchTimer
      rw [hplay]
    have hdb : (gameStart config { db with clock := now } socket userId gameSlug now).1
        = setSession { db with clock := now } id (clearMemoryMismatchTimer state) := by
      rw [gameStart_db, clearSessionTimer,
        (sessionOf_eq.2 ⟨hsocket, hrow⟩ : sessionOf { db with clock := now } socket = _)]
    rw [hdb] at htidy
    have hcloses := (htidy socket id _ board flipped none (sessionOf_eq.2 ⟨hsocket, hrow'⟩)
      ((clearTimer_finished state).trans hopen) hplay').closes htwo
    refine not_willClose hrow' hplay' ?_ hcloses
    rintro rfl
    cases htwo
  | .start (.flip ..), htidy, _ => exact htidy trivial
  | .start (.swap ..), htidy, _ => exact htidy trivial
  | .start (.gameEnd ..), htidy, _ => exact htidy trivial
  | .start (.disconnect ..), htidy, _ => exact htidy trivial
  | .resume .., htidy, _ => exact htidy trivial

/-- **The memory game.** The sessions of the sockets stay tidy, and are finished
with success exactly when all cards are matched, in exactly the runs in which
no `game:start` comes while two cards of the session of its socket are open. -/
theorem memory_tidy_iff (config : Config) (clock : ℤ) (events : List (Event Request Answer)) :
    (service config).sys.Meets (StaysTidy config) (opening clock) events
      ↔ (service config).sys.Meets StartsTidy (opening clock) events := by
  have hiff : ∀ s e, Inv s → (StaysTidy config s e ↔ StartsTidy s e) := by
    intro s e hinv
    constructor
    · intro hstays
      by_contra hnot
      exact not_staysTidy hinv hnot hstays
    · intro htidy s' hstep
      obtain ⟨hinv', hends⟩ := step_inv hinv htidy hstep
      exact ⟨hinv'.allTidy, hends⟩
  refine (service config).sys.meets_iff_of_kept (I := Inv)
    (fun s e s' hinv hstays hstep => (step_inv hinv ((hiff s e hinv).1 hstays) hstep).1) hiff
    ⟨?_, ?_, ?_, ?_⟩
  · intro socket id hid
    cases hid
  · intro socket socket' id hid
    cases hid
  · rintro id timer socket a b ⟨call, dueAt, hcall⟩
    cases hcall
  · intro socket id state board flipped timer hid
    cases hid

/-- A game in which two different cards are shown. -/
def shown : List (Event Request Answer) :=
  started 1 1 1000 ++ [.start (.flip 1 0 2000), .start (.flip 1 1 3000)]

def Play.flipped : Play → List ℕ × Option ℕ
  | .memory _ flipped timer => (flipped, timer)
  | .match3 _ => ([], none)

/-- A game that is not there is asked for, and the two cards stay. -/
theorem memory_stuck :
    ¬(service defaults).sys.Meets (StaysTidy defaults) (opening 0)
      (shown ++ [.start (.gameStart 1 (some 7) "chess" 3500)]) := by
  intro hmeets
  have hend : (((service defaults).sys.run (opening 0) shown).bind fun s =>
      (service defaults).step s (.start (.gameStart 1 (some 7) "chess" 3500))).map
      (fun s => (sessionOf s.db 1).map fun p => (p.1, p.2.isFinished, p.2.play.flipped))
        = some (some (1, false, [0, 1], none)) := by
    decide +kernel
  obtain ⟨s', hs', hsession⟩ := Option.map_eq_some_iff.1 hend
  obtain ⟨s, hrun, hstep⟩ := Option.bind_eq_some_iff.1 hs'
  obtain ⟨htidy, -⟩ := (service defaults).sys.meets_at hmeets hrun s' hstep
  obtain ⟨⟨id, state⟩, hsession, hstate⟩ := Option.map_eq_some_iff.1 hsession
  simp only [Prod.mk.injEq] at hstate
  obtain ⟨rfl, hopen, hflipped⟩ := hstate
  cases hplay : state.play with
  | match3 board =>
    rw [hplay] at hflipped
    cases hflipped
  | memory board flipped timer =>
    rw [hplay] at hflipped
    obtain ⟨rfl, rfl⟩ := Prod.mk.inj hflipped
    obtain ⟨-, hrow⟩ := sessionOf_eq.1 hsession
    exact not_willClose hrow hplay (List.cons_ne_nil _ _)
      ((htidy 1 1 state board [0, 1] none hsession hopen hplay).closes rfl)

end BlockMiner.SocketGames
