import BlockMiner.JsArray
import BlockMiner.JsText
import BlockMiner.MatchThree
import BlockMiner.Run
import Mathlib.Data.Int.Log
import Mathlib.Data.Rat.Floor
import Mathlib.Data.Set.Card

/-!
# The actions of a match-3 session

`socket/registerGamesSocketHandlers.js`: `game:action` and `handleMatch3Swap`,
for a payload of any shape. The coordinates of a swap are operands of `-` and
keys of the board: one that is no index of it is a key that no row or no cell
has. The text of a number is a parameter.

An exception leaves the handler, with the session as it was. What falls is part
of an action, and an action whose cascade needs more is none.
-/

namespace BlockMiner.MatchThree

/-! ## The source -/

/-- A payload; `none` is `undefined`. -/
abbrev Value := Option (Json JsNumber)

inductive Thrown where
  | typeError

/-- The nearest whole number, of two the even one. -/
def roundEven (q : ℚ) : ℤ :=
  let below := ⌊q⌋
  if q - below < 1 / 2 ∨ (q - below = 1 / 2 ∧ below % 2 = 0) then below else below + 1

/-- The nearest number with 53 bits. -/
def toDouble (q : ℚ) : JsNumber :=
  let unit : ℚ := 2 ^ (max (Int.log 2 |q|) (-1022) - 52)
  let rounded := roundEven (q / unit) * unit
  if |rounded| < 2 ^ 1024 then .finite rounded else .infinite (q < 0)

/-- `Math.abs(a - b)` -/
def distance : JsNumber → JsNumber → JsNumber
  | .finite a, .finite b => toDouble |a - b|
  | .infinite negative, .infinite negative' =>
      if negative = negative' then .nan else .infinite false
  | .nan, _ | _, .nan => .nan
  | _, _ => .infinite false

/-- `value[key]` -/
def property (key : String) : Value → Except Thrown Value
  | none | some .null => .error .typeError
  | some value => .ok (value.get key)

/-- A coordinate as an operand and as a key. -/
structure Coordinate where
  number : JsNumber
  key : String

structure Cell where
  x : Coordinate
  y : Coordinate

section Handler

variable (numberText : JsNumber → String)

def coordinate (value : Value) : Except Thrown Coordinate :=
  match value with
  | none => .ok ⟨.nan, "undefined"⟩
  | some json =>
      match json.text numberText with
      | none => .error .typeError
      | some key =>
          let number := match Number value with
            | .finite q => toDouble q
            | number => number
          .ok ⟨number, key⟩

def cellOf (value : Value) : Except Thrown Cell := do
  let x ← property "x" value
  let y ← property "y" value
  return ⟨← coordinate numberText x, ← coordinate numberText y⟩

def areNeighbours (from_ to_ : Cell) : Bool :=
  let dx := distance from_.x.number to_.x.number
  let dy := distance from_.y.number to_.y.number
  (dx = .finite 1 && dy = .finite 0) || (dx = .finite 0 && dy = .finite 1)

/-- `board[cell.y]`, of a board of eight rows, and the key of the cell in it. -/
def placeOf (cell : Cell) : Except Thrown Place :=
  match (arrayIndex cell.y.key).filter (· < 8) with
  | none => .error .typeError
  | some y => .ok (y, cell.x.key)

/-- The places to exchange, if there are any. -/
def swapOf (from_ to_ : Value) : Except Thrown (Option (Place × Place)) := do
  let from_ ← cellOf numberText from_
  let to_ ← cellOf numberText to_
  if areNeighbours from_ to_ then
    return some (← placeOf from_, ← placeOf to_)
  else return none

structure Session (α : Type) where
  board : Rows α
  score : ℕ
  isFinished : Bool

/-- What the handler is given, and what falls. -/
structure Action where
  payload : Value
  fills : List Fill

section Board

variable {α : Type}

/-- The board as it is read by indices. -/
def cellsOf (rows : Rows α) : Board α := fun y x => (rows y).items x

/-- The board after writing to its indices. -/
def withCells (rows : Rows α) (board : Board α) : Rows α :=
  fun y => { rows y with items := board y }

variable [DecidableEq α] (MATCH3_SYMBOLS : Fin 5 → α)

def swapPlaces (state : Session α) (from_ to_ : Place) (fills : List Fill) : Option (Session α) :=
  let temp := state.board.read from_
  let board := state.board.exchange from_ to_
  if findMatches (cellsOf board) = [] then
    some { state with board := board.undo from_ to_ temp }
  else (cascade MATCH3_SYMBOLS fills (cellsOf board) 0).map fun (cells, totalPoints) =>
    let score := state.score + totalPoints
    ⟨withCells board cells, score, decide (1500 ≤ score)⟩

def handleMatch3Swap (state : Session α) (from_ to_ : Value) (fills : List Fill) :
    Option (Except Thrown (Session α)) :=
  match swapOf numberText from_ to_ with
  | .error e => some (.error e)
  | .ok none => some (.ok state)
  | .ok (some (from_, to_)) => (swapPlaces MATCH3_SYMBOLS state from_ to_ fills).map .ok

/-- `none` where the cascade does not end with what falls. -/
def gameAction (state : Session α) (action : Action) : Option (Except Thrown (Session α)) :=
  if state.isFinished then some (.ok state)
  else match property "type" action.payload with
    | .error e => some (.error e)
    | .ok (some (.string "swap")) =>
        handleMatch3Swap numberText MATCH3_SYMBOLS state
          (action.payload.bind (Json.get "from")) (action.payload.bind (Json.get "to"))
          action.fills
    | .ok _ => some (.ok state)

/-- The board that a session starts with. -/
def newSession (board : Board α) : Session α where
  board := fun y => ⟨board y, if y < 8 then 8 else 0, fun _ => none⟩
  score := 0
  isFinished := false

def actions : System (Session α) Action where
  step state action := (gameAction numberText MATCH3_SYMBOLS state action).map fun out =>
    match out with
    | .error _ => state
    | .ok state => state

end Board

end Handler

/-! ## What is well formed -/

section Spec

variable {α : Type} (MATCH3_SYMBOLS : Fin 5 → α)

/-- A board of symbols. -/
def Symbolic (board : Board α) : Prop :=
  ∀ y < 8, ∀ x < 8, ∃ k, board y x = some (MATCH3_SYMBOLS k)

/-- Eight rows of eight symbols, and no run of three. -/
structure EightByEight (rows : Rows α) : Prop where
  length : ∀ y < 8, (rows y).length = 8
  symbolic : Symbolic MATCH3_SYMBOLS (cellsOf rows)
  calm : ∀ x y, ¬Matched (cellsOf rows) x y

/-- The number of matched cells. -/
noncomputable def matchedCount (board : Board α) : ℕ :=
  {cell : ℕ × ℕ | Matched board cell.1 cell.2}.ncard

/-- A cascade and the matched cells of each of its steps: they are replaced
until there are none. -/
inductive Cascade [DecidableEq α] : Board α → List ℕ → Board α → Prop where
  | calm {board : Board α} (h : ∀ x y, ¬Matched board x y) : Cascade board [] board
  | round {board board' : Board α} {counts : List ℕ} (fill : Fill)
      (h : ∃ x y, Matched board x y)
      (hrest : Cascade (processCascades MATCH3_SYMBOLS board (findMatches board) fill) counts
        board') : Cascade board (matchedCount board :: counts) board'

/-- The row and the column of a cell, if they are on the board. -/
def onBoard (cell : Cell) : Option (ℕ × ℕ) :=
  ((arrayIndex cell.y.key).filter (· < 8)).bind fun y =>
    ((arrayIndex cell.x.key).filter (· < 8)).map fun x => (y, x)

/-- The symbols of two cells change places. -/
def Board.exchange (board : Board α) (p q : ℕ × ℕ) : Board α :=
  (board.set p.1 p.2 (board q.1 q.2)).set q.1 q.2 (board p.1 p.2)

end Spec

section Spec

variable {α : Type} [DecidableEq α] (numberText : JsNumber → String) (MATCH3_SYMBOLS : Fin 5 → α)

/-- A swap of two neighbours on the board. -/
def Swaps (payload : Value) (p q : ℕ × ℕ) : Prop :=
  ∃ json from_ to_, payload = some json ∧ json.get "type" = some (.string "swap")
    ∧ cellOf numberText (json.get "from") = .ok from_ ∧ cellOf numberText (json.get "to") = .ok to_
    ∧ areNeighbours from_ to_ = true ∧ onBoard from_ = some p ∧ onBoard to_ = some q

/-- What an action leads to: a board as it should be; the same board and score
where no match is made; and otherwise the end of a cascade and its points. -/
structure WellPlayed (state : Session α) (payload : Value) (state' : Session α) : Prop where
  board : EightByEight MATCH3_SYMBOLS state'.board
  unmatched : (∀ p q, Swaps numberText payload p q → state.isFinished = false →
      ∀ x y, ¬Matched ((cellsOf state.board).exchange p q) x y) →
    state'.board = state.board ∧ state'.score = state.score
  matched : ∀ p q, Swaps numberText payload p q → state.isFinished = false →
    (∃ x y, Matched ((cellsOf state.board).exchange p q) x y) →
    ∃ counts, Cascade MATCH3_SYMBOLS ((cellsOf state.board).exchange p q) counts
        (cellsOf state'.board)
      ∧ state'.score = state.score + 20 * counts.sum

/-- The handler does not throw, and leads to what it should. -/
def StaysWellFormed (state : Session α) (action : Action) : Prop :=
  ∀ out, gameAction numberText MATCH3_SYMBOLS state action = some out →
    ∃ state', out = .ok state' ∧ WellPlayed numberText MATCH3_SYMBOLS state action.payload state'

/-- The row is one of the board, and the column is not an index past its end. -/
def InRow (cell : Cell) : Prop :=
  (∃ y < 8, arrayIndex cell.y.key = some y) ∧ ∀ x, arrayIndex cell.x.key = some x → x < 8

/-- There is a payload, and a swap has two cells to read, which are in rows of
the board if they are neighbours. -/
def Readable (state : Session α) (action : Action) : Prop :=
  state.isFinished = true ∨ ∃ json, action.payload = some json ∧ json ≠ .null
    ∧ (json.get "type" = some (.string "swap") →
      ∃ from_ to_, cellOf numberText (json.get "from") = .ok from_
        ∧ cellOf numberText (json.get "to") = .ok to_
        ∧ (areNeighbours from_ to_ = true → InRow from_ ∧ InRow to_))

end Spec

/-! ## Boards -/

section Boards

variable {α : Type}

theorem matched_mono {board board' : Board α}
    (h : ∀ y < 8, ∀ x < 8, ∀ symbol, board' y x = some symbol → board y x = some symbol)
    {x y : ℕ} (hmatched : Matched board' x y) : Matched board x y := by
  obtain ⟨hx, hy, hrun⟩ := hmatched
  refine ⟨hx, hy, hrun.imp ?_ ?_⟩
  · rintro ⟨start, length, hthree, hend, hfrom, hto, symbol, hline⟩
    exact ⟨start, length, hthree, hend, hfrom, hto, symbol, fun i hi =>
      h y hy (start + i) (by omega) symbol (hline i hi)⟩
  · rintro ⟨start, length, hthree, hend, hfrom, hto, symbol, hline⟩
    exact ⟨start, length, hthree, hend, hfrom, hto, symbol, fun i hi =>
      h (start + i) (by omega) x hx symbol (hline i hi)⟩

variable {MATCH3_SYMBOLS : Fin 5 → α}

theorem Symbolic.full {board : Board α} (h : Symbolic MATCH3_SYMBOLS board) : Full board := by
  intro y hy x hx
  obtain ⟨k, hk⟩ := h y hy x hx
  exact Option.isSome_iff_exists.2 ⟨_, hk⟩

theorem Symbolic.exchange {board : Board α} (h : Symbolic MATCH3_SYMBOLS board) {p q : ℕ × ℕ}
    (hp : p.1 < 8 ∧ p.2 < 8) (hq : q.1 < 8 ∧ q.2 < 8) :
    Symbolic MATCH3_SYMBOLS (board.exchange p q) := by
  intro y hy x hx
  unfold Board.exchange
  rw [set_apply, set_apply]
  split_ifs
  · exact h p.1 hp.1 p.2 hp.2
  · exact h q.1 hq.1 q.2 hq.2
  · exact h y hy x hx

theorem Symbolic.processCascades {board : Board α} (h : Symbolic MATCH3_SYMBOLS board)
    (found : List (ℕ × ℕ)) (fill : Fill) :
    Symbolic MATCH3_SYMBOLS (processCascades MATCH3_SYMBOLS board found fill) := by
  intro y hy x hx
  have hmem : MatchThree.processCascades MATCH3_SYMBOLS board found fill y x ∈ (List.range 8).map
      fun y => MatchThree.processCascades MATCH3_SYMBOLS board found fill y x :=
    List.mem_map_of_mem (List.mem_range.2 hy)
  rw [processCascades_column MATCH3_SYMBOLS h.full found fill hx] at hmem
  rcases List.mem_append.1 hmem with hnew | hold
  · obtain ⟨y', -, heq⟩ := List.mem_map.1 hnew
    exact ⟨fill y' x, heq.symm⟩
  · obtain ⟨y', hy', heq⟩ := List.mem_map.1 hold
    rw [← heq]
    exact h y' (List.mem_range.1 (List.mem_filter.1 hy').1) x hx

variable [DecidableEq α]

theorem findMatches_eq_nil {board : Board α} :
    findMatches board = [] ↔ ∀ x y, ¬Matched board x y := by
  rw [List.eq_nil_iff_forall_not_mem]
  constructor
  · intro h x y hmatched
    exact h (x, y) (mem_findMatches.2 hmatched)
  · rintro h ⟨x, y⟩ hmem
    exact h x y (mem_findMatches.1 hmem)

theorem length_findMatches (board : Board α) : (findMatches board).length = matchedCount board := by
  have hset : {cell : ℕ × ℕ | Matched board cell.1 cell.2}
      = ((findMatches board).toFinset : Set (ℕ × ℕ)) := by
    ext ⟨x, y⟩
    rw [Set.mem_ofPred_eq, Finset.mem_coe, List.mem_toFinset, mem_findMatches]
  rw [matchedCount, hset, Set.ncard_coe_finset,
    List.toFinset_card_of_nodup (findMatches_nodup board)]

/-- What the loop ends with. -/
theorem cascade_spec {fills : List Fill} {board board' : Board α} {points points' : ℕ}
    (hboard : Symbolic MATCH3_SYMBOLS board)
    (h : cascade MATCH3_SYMBOLS fills board points = some (board', points')) :
    Symbolic MATCH3_SYMBOLS board' ∧ (∀ x y, ¬Matched board' x y)
      ∧ ∃ counts, Cascade MATCH3_SYMBOLS board counts board'
        ∧ points' = points + 20 * counts.sum := by
  induction fills generalizing board points with
  | nil =>
    unfold cascade at h
    dsimp only at h
    split_ifs at h with hnone
    obtain ⟨rfl, rfl⟩ := Prod.mk.inj (Option.some.inj h)
    have hcalm := findMatches_eq_nil.1 hnone
    exact ⟨hboard, hcalm, [], .calm hcalm, rfl⟩
  | cons fill fills ih =>
    unfold cascade at h
    dsimp only at h
    split_ifs at h with hnone
    · obtain ⟨rfl, rfl⟩ := Prod.mk.inj (Option.some.inj h)
      have hcalm := findMatches_eq_nil.1 hnone
      exact ⟨hboard, hcalm, [], .calm hcalm, rfl⟩
    · obtain ⟨hsymbolic, hcalm, counts, hcascade, hpoints⟩ :=
        ih (hboard.processCascades _ fill) h
      have hsome : ∃ x y, Matched board x y := by
        by_contra hnot
        exact hnone (findMatches_eq_nil.2 fun x y hmatched => hnot ⟨x, y, hmatched⟩)
      refine ⟨hsymbolic, hcalm, _, .round fill hsome hcascade, ?_⟩
      rw [hpoints, length_findMatches, List.sum_cons]
      omega

theorem isTriple_of_stable_row {board : Board α} {y x : ℕ}
    (h : isStableAt board y (x + 2) = true) :
    isTriple (board y x) (board y (x + 1)) (board y (x + 2)) = false := by
  unfold isStableAt at h
  unfold isTriple
  simp only [Bool.and_eq_true, Bool.not_eq_true', Bool.and_eq_false_iff,
    decide_eq_false_iff_not] at h ⊢
  grind

theorem isTriple_of_stable_column {board : Board α} {y x : ℕ}
    (h : isStableAt board (y + 2) x = true) :
    isTriple (board y x) (board (y + 1) x) (board (y + 2) x) = false := by
  unfold isStableAt at h
  unfold isTriple
  simp only [Bool.and_eq_true, Bool.not_eq_true', Bool.and_eq_false_iff,
    decide_eq_false_iff_not] at h ⊢
  grind

/-- A board that a session starts with. -/
theorem generateStableBoard_spec {fill : Fill} {board : Board α}
    (h : generateStableBoard MATCH3_SYMBOLS fill = some board) :
    Symbolic MATCH3_SYMBOLS board ∧ ∀ x y, ¬Matched board x y := by
  unfold generateStableBoard at h
  dsimp only at h
  split_ifs at h with hall
  obtain rfl := Option.some.inj h
  have hstable : ∀ y < 8, ∀ x < 8, isStableAt (boardOf MATCH3_SYMBOLS fill) y x = true :=
    fun y hy x hx => List.all_eq_true.1 (List.all_eq_true.1 hall y (List.mem_range.2 hy)) x
      (List.mem_range.2 hx)
  refine ⟨fun y hy x hx => ⟨fill y x, if_pos ⟨hy, hx⟩⟩, ?_⟩
  -- a run has three cells, and the last of them was not stable
  rintro x y ⟨hx, hy, hrow | hcolumn⟩
  · obtain ⟨start, hstart, -, htriple⟩ := inRun_iff.1 hrow
    rw [isTriple_of_stable_row (hstable y hy (start + 2) (by omega))] at htriple
    cases htriple
  · obtain ⟨start, hstart, -, htriple⟩ := inRun_iff.1 hcolumn
    rw [isTriple_of_stable_column (hstable (start + 2) (by omega) x hx)] at htriple
    cases htriple

end Boards

/-! ## Places -/

section Places

variable {α : Type} {rows : Rows α} {place from_ to_ : Place} {value : Option α}

/-- No index of a row of eight. -/
def OffBoard (place : Place) : Prop := ∀ x, arrayIndex place.2 = some x → 8 ≤ x

theorem offBoard_or_index (place : Place) :
    OffBoard place ∨ ∃ x < 8, arrayIndex place.2 = some x := by
  by_cases h : ∃ x < 8, arrayIndex place.2 = some x
  · exact .inr h
  · exact .inl fun x hx => Nat.le_of_not_lt fun hlt => h ⟨x, hlt, hx⟩

theorem cellsOf_write_index {x : ℕ} (h : arrayIndex place.2 = some x)
    (hx : x < (rows place.1).length) :
    cellsOf (rows.write place value) = (cellsOf rows).set place.1 x value := by
  funext y' x'
  rw [set_apply]
  unfold cellsOf Rows.write JsArray.set
  rw [h]
  by_cases hy : y' = place.1
  · rw [hy, Function.update_self]
    dsimp only
    by_cases hx' : x' = x
    · rw [if_pos hx', if_pos ⟨rfl, hx'⟩]
    · rw [if_neg hx', if_neg (by omega), if_neg fun h => hx' h.2]
  · rw [Function.update_of_ne hy, if_neg fun h => hy h.1]

theorem cellsOf_write_off (hoff : OffBoard place) (hlength : 8 ≤ (rows place.1).length) (y : ℕ)
    {x : ℕ} (hx : x < 8) : cellsOf (rows.write place value) y x = cellsOf rows y x := by
  unfold cellsOf Rows.write JsArray.set
  by_cases hy : y = place.1
  · rw [hy, Function.update_self]
    cases hindex : arrayIndex place.2 with
    | none => rfl
    | some i =>
      have hi := hoff i hindex
      dsimp only
      rw [if_neg (by omega), if_neg (by omega)]
  · rw [Function.update_of_ne hy]

/-- Only what was there is there after `undefined` has been written. -/
theorem cellsOf_write_none {y x : ℕ} {symbol : α}
    (h : cellsOf (rows.write place none) y x = some symbol) : cellsOf rows y x = some symbol := by
  unfold cellsOf Rows.write at *
  by_cases hy : y = place.1
  · rw [hy, Function.update_self] at h
    rw [hy]
    unfold JsArray.set at h
    cases hindex : arrayIndex place.2 with
    | none => rwa [hindex] at h
    | some i =>
      rw [hindex] at h
      dsimp only at h
      split_ifs at h
      exact h
  · rwa [Function.update_of_ne hy] at h

theorem props_write_index {x : ℕ} (h : arrayIndex place.2 = some x) (y : ℕ) :
    (rows.write place value y).props = (rows y).props := by
  unfold Rows.write JsArray.set
  rw [h]
  by_cases hy : y = place.1
  · rw [hy, Function.update_self]
  · rw [Function.update_of_ne hy]

theorem length_write_index {x : ℕ} (h : arrayIndex place.2 = some x)
    (hx : x < (rows place.1).length) (y : ℕ) :
    (rows.write place value y).length = (rows y).length := by
  have hinner : (rows place.1).Inner place.2 := by
    intro x' hx'
    obtain rfl := Option.some.inj (hx'.symm.trans h)
    exact hx
  unfold Rows.write
  by_cases hy : y = place.1
  · rw [hy, Function.update_self, JsArray.length_set hinner]
  · rw [Function.update_of_ne hy]

end Places

/-! ## A swap -/

section Swap

variable {α : Type} {MATCH3_SYMBOLS : Fin 5 → α}

/-- A board as it should be, with nothing under any other key. -/
structure Sound (MATCH3_SYMBOLS : Fin 5 → α) (rows : Rows α) : Prop where
  board : EightByEight MATCH3_SYMBOLS rows
  props : ∀ y < 8, ∀ key, (rows y).props key = none

variable {rows : Rows α} {from_ to_ : Place}

theorem Sound.read_off (h : Sound MATCH3_SYMBOLS rows) {place : Place} (hrow : place.1 < 8)
    (hoff : OffBoard place) : rows.read place = none := by
  unfold Rows.read JsArray.get
  cases hindex : arrayIndex place.2 with
  | none => exact h.props place.1 hrow place.2
  | some x =>
    dsimp only
    rw [h.board.length place.1 hrow, if_neg (Nat.not_lt.2 (hoff x hindex))]

theorem Sound.read_index (h : Sound MATCH3_SYMBOLS rows) {place : Place} (hrow : place.1 < 8)
    {x : ℕ} (hindex : arrayIndex place.2 = some x) (hx : x < 8) :
    rows.read place = cellsOf rows place.1 x := by
  unfold Rows.read JsArray.get
  rw [hindex]
  dsimp only
  rw [h.board.length place.1 hrow, if_pos hx]
  rfl

/-- With a place that is none of the board a swap makes no match. -/
theorem Sound.exchange_off (h : Sound MATCH3_SYMBOLS rows) (hfrom : from_.1 < 8) (hto : to_.1 < 8)
    (hoff : OffBoard from_ ∨ OffBoard to_) (x y : ℕ) :
    ¬Matched (cellsOf (rows.exchange from_ to_)) x y := by
  refine fun hmatched => h.board.calm x y (matched_mono (fun y hy x hx symbol hsymbol => ?_)
    hmatched)
  unfold Rows.exchange at hsymbol
  rcases hoff with hoff | hoff
  · rw [h.read_off hfrom hoff] at hsymbol
    have hwritten := cellsOf_write_none hsymbol
    rwa [cellsOf_write_off hoff (h.board.length _ hfrom).ge y hx] at hwritten
  · rw [h.read_off hto hoff, cellsOf_write_off hoff] at hsymbol
    · exact cellsOf_write_none hsymbol
    · exact (h.board.length _ hto).ge.trans (Rows.length_le_write _)
    · exact hx

/-- Between two cells of the board it exchanges their symbols. -/
theorem Sound.exchange_index (h : Sound MATCH3_SYMBOLS rows) (hfrom : from_.1 < 8)
    (hto : to_.1 < 8) {x x' : ℕ} (hx : arrayIndex from_.2 = some x) (hx8 : x < 8)
    (hx' : arrayIndex to_.2 = some x') (hx'8 : x' < 8) :
    cellsOf (rows.exchange from_ to_) = (cellsOf rows).exchange (from_.1, x) (to_.1, x') := by
  unfold Rows.exchange Board.exchange
  rw [h.read_index hfrom hx hx8, h.read_index hto hx' hx'8, cellsOf_write_index hx',
    cellsOf_write_index hx]
  · rw [h.board.length _ hfrom]
    exact hx8
  · rw [length_write_index hx, h.board.length _ hto]
    · exact hx'8
    · rw [h.board.length _ hfrom]
      exact hx8

/-- The board after a swap of two of its cells and a cascade. -/
theorem Sound.cascade (h : Sound MATCH3_SYMBOLS rows) {p q : Place} (hp : p.1 < 8)
    (hq : q.1 < 8) {x x' : ℕ} (hx : arrayIndex p.2 = some x) (hx8 : x < 8)
    (hx' : arrayIndex q.2 = some x') (hx'8 : x' < 8) {board : Board α}
    (hsymbolic : Symbolic MATCH3_SYMBOLS board) (hcalm : ∀ x y, ¬Matched board x y) :
    Sound MATCH3_SYMBOLS (withCells (rows.exchange p q) board) := by
  have hfrom : x < (rows p.1).length := hx8.trans_eq (h.board.length _ hp).symm
  have hto : x' < (rows.write p (rows.read q) q.1).length := by
    rw [length_write_index hx hfrom, h.board.length _ hq]
    exact hx'8
  refine ⟨⟨fun y hy => ?_, hsymbolic, hcalm⟩, fun y hy key => ?_⟩
  · show (Rows.exchange _ _ _ y).length = 8
    unfold Rows.exchange
    rw [length_write_index hx' hto, length_write_index hx hfrom, h.board.length y hy]
  · show (Rows.exchange _ _ _ y).props key = none
    unfold Rows.exchange
    rw [props_write_index hx', props_write_index hx, h.props y hy]

/-- An index past the end of a row that is a key of the swap makes it longer. -/
theorem undo_longer {p q : Place} (temp : Option α)
    (h : ¬rows.Inner p ∨ ¬rows.Inner q) :
    ∃ y, (y = p.1 ∨ y = q.1)
      ∧ (rows y).length < ((rows.exchange p q).undo p q temp y).length := by
  have hkey : ∀ {place : Place}, ¬rows.Inner place →
      ∃ x, arrayIndex place.2 = some x ∧ (rows place.1).length ≤ x := by
    intro place hnot
    unfold Rows.Inner JsArray.Inner at hnot
    push Not at hnot
    exact hnot
  unfold Rows.undo
  rcases h with hp | hq
  · obtain ⟨x, hx, hle⟩ := hkey hp
    exact ⟨p.1, .inl rfl, hle.trans_lt (Rows.lt_length_write hx)⟩
  · obtain ⟨x, hx, hle⟩ := hkey hq
    exact ⟨q.1, .inr rfl,
      hle.trans_lt ((Rows.lt_length_write hx).trans_le (Rows.length_le_write _))⟩

end Swap

/-! ## An action -/

section Reading

variable {numberText : JsNumber → String}

theorem property_of_ne {key : String} {json : Json JsNumber} (h : json ≠ .null) :
    property key (some json) = .ok (json.get key) := by
  cases json with
  | null => exact absurd rfl h
  | _ => rfl

theorem placeOf_eq_ok {cell : Cell} {place : Place} :
    placeOf cell = .ok place
      ↔ ∃ y < 8, arrayIndex cell.y.key = some y ∧ place = (y, cell.x.key) := by
  unfold placeOf
  cases hindex : arrayIndex cell.y.key with
  | none => simp
  | some y =>
    by_cases hy : y < 8
    · simp [Option.filter, hy, eq_comm]
    · simp [Option.filter, hy]

theorem row_lt {cell : Cell} {place : Place} (h : placeOf cell = .ok place) : place.1 < 8 := by
  obtain ⟨y, hy, -, rfl⟩ := placeOf_eq_ok.1 h
  exact hy

/-- A cell that is in no row of the board, but has one, is past its end. -/
theorem Sound.outer {α : Type} {MATCH3_SYMBOLS : Fin 5 → α} {rows : Rows α}
    (h : Sound MATCH3_SYMBOLS rows) {cell : Cell} {place : Place}
    (hplace : placeOf cell = .ok place) (hnot : ¬InRow cell) :
    OffBoard place ∧ ¬rows.Inner place := by
  obtain ⟨y, hy, hindex, rfl⟩ := placeOf_eq_ok.1 hplace
  obtain ⟨x, hx, hle⟩ : ∃ x, arrayIndex cell.x.key = some x ∧ 8 ≤ x := by
    by_contra hnone
    push Not at hnone
    exact hnot ⟨⟨y, hy, hindex⟩, hnone⟩
  refine ⟨fun x' hx' => ?_, fun hinner => ?_⟩
  · obtain rfl := Option.some.inj (hx.symm.trans hx')
    exact hle
  · have hlt := hinner x hx
    rw [h.board.length y hy] at hlt
    omega

theorem onBoard_eq_some {cell : Cell} {p : ℕ × ℕ} :
    onBoard cell = some p ↔ arrayIndex cell.y.key = some p.1 ∧ p.1 < 8
      ∧ arrayIndex cell.x.key = some p.2 ∧ p.2 < 8 := by
  obtain ⟨y, x⟩ := p
  unfold onBoard
  simp only [Option.bind_eq_some_iff, Option.map_eq_some_iff, Option.filter_eq_some_iff,
    decide_eq_true_eq, Prod.mk.injEq]
  constructor
  · rintro ⟨y', ⟨hy, hy8⟩, x', ⟨hx, hx8⟩, rfl, rfl⟩
    exact ⟨hy, hy8, hx, hx8⟩
  · rintro ⟨hy, hy8, hx, hx8⟩
    exact ⟨y, ⟨hy, hy8⟩, x, ⟨hx, hx8⟩, rfl, rfl⟩

/-- The places to exchange are read from two cells, which are neighbours. -/
theorem swapOf_cases (a b : Value) :
    (∃ e, swapOf numberText a b = .error e
        ∧ ∀ from_ to_, cellOf numberText a = .ok from_ → cellOf numberText b = .ok to_ →
          areNeighbours from_ to_ = true ∧ ¬(InRow from_ ∧ InRow to_))
      ∨ ∃ from_ to_, cellOf numberText a = .ok from_ ∧ cellOf numberText b = .ok to_
        ∧ (areNeighbours from_ to_ = false ∧ swapOf numberText a b = .ok none
          ∨ areNeighbours from_ to_ = true ∧ ∃ p q, placeOf from_ = .ok p ∧ placeOf to_ = .ok q
            ∧ swapOf numberText a b = .ok (some (p, q))) := by
  unfold swapOf
  cases hfrom : cellOf numberText a with
  | error e => exact .inl ⟨e, rfl, fun _ _ h => by cases h⟩
  | ok from_ => cases hto : cellOf numberText b with
    | error e => exact .inl ⟨e, rfl, fun _ _ _ h => by cases h⟩
    | ok to_ => cases hnear : areNeighbours from_ to_ with
      | false =>
        refine .inr ⟨from_, to_, rfl, rfl, .inl ⟨hnear, ?_⟩⟩
        simp only [bind, Except.bind, hnear]
        rfl
      | true => cases hp : placeOf from_ with
        | error e =>
          refine .inl ⟨e, by simp [bind, Except.bind, hnear, hp], ?_⟩
          rintro _ _ ⟨rfl⟩ ⟨rfl⟩
          refine ⟨hnear, fun hrows => ?_⟩
          obtain ⟨⟨y, hy, hindex⟩, -⟩ := hrows.1
          rw [placeOf_eq_ok.2 ⟨y, hy, hindex, rfl⟩] at hp
          cases hp
        | ok p => cases hq : placeOf to_ with
          | error e =>
            refine .inl ⟨e, by simp [bind, Except.bind, hnear, hp, hq], ?_⟩
            rintro _ _ ⟨rfl⟩ ⟨rfl⟩
            refine ⟨hnear, fun hrows => ?_⟩
            obtain ⟨⟨y, hy, hindex⟩, -⟩ := hrows.2
            rw [placeOf_eq_ok.2 ⟨y, hy, hindex, rfl⟩] at hq
            cases hq
          | ok q =>
            refine .inr ⟨from_, to_, rfl, rfl, .inr ⟨hnear, p, q, hp, hq, ?_⟩⟩
            simp [bind, Except.bind, hnear, hp, hq, pure, Except.pure]

end Reading

section Step

variable {α : Type} [DecidableEq α] {numberText : JsNumber → String} {MATCH3_SYMBOLS : Fin 5 → α}
  {state : Session α} {action : Action}

/-- Where no match is made the session may stay as it is. -/
theorem wellPlayed_same {payload : Value} (h : EightByEight MATCH3_SYMBOLS state.board)
    (hcalm : ∀ p q, Swaps numberText payload p q → state.isFinished = false →
      ∀ x y, ¬Matched ((cellsOf state.board).exchange p q) x y) :
    WellPlayed numberText MATCH3_SYMBOLS state payload state where
  board := h
  unmatched _ := ⟨rfl, rfl⟩
  matched p q hswap hfinished := fun ⟨x, y, hmatched⟩ =>
    absurd hmatched (hcalm p q hswap hfinished x y)

theorem swapPlaces_calm {from_ to_ : Place} {fills : List Fill}
    (h : ∀ x y, ¬Matched (cellsOf (state.board.exchange from_ to_)) x y) :
    swapPlaces MATCH3_SYMBOLS state from_ to_ fills = some { state with
      board := (state.board.exchange from_ to_).undo from_ to_ (state.board.read from_) } := by
  unfold swapPlaces
  exact if_pos (findMatches_eq_nil.2 h)

theorem gameAction_swap (hfinished : state.isFinished = false) {json : Json JsNumber}
    (hpayload : action.payload = some json) (hnull : json ≠ .null)
    (htype : json.get "type" = some (.string "swap")) :
    gameAction numberText MATCH3_SYMBOLS state action
      = handleMatch3Swap numberText MATCH3_SYMBOLS state (json.get "from") (json.get "to")
          action.fills := by
  unfold gameAction
  rw [hfinished, if_neg Bool.false_ne_true, hpayload, property_of_ne hnull, htype]
  rfl

theorem gameAction_other (hfinished : state.isFinished = false) {json : Json JsNumber}
    (hpayload : action.payload = some json) (hnull : json ≠ .null)
    (htype : json.get "type" ≠ some (.string "swap")) :
    gameAction numberText MATCH3_SYMBOLS state action = some (.ok state) := by
  unfold gameAction
  rw [hfinished, if_neg Bool.false_ne_true, hpayload, property_of_ne hnull]
  split
  · next heq => cases heq
  · next heq => exact absurd (Except.ok.inj heq) htype
  · rfl

/-- A swap without a match is undone. -/
theorem swapPlaces_still {p q : Place} (hp : state.board.Inner p) (hq : state.board.Inner q)
    (h : ∀ x y, ¬Matched (cellsOf (state.board.exchange p q)) x y) {fills : List Fill} :
    swapPlaces MATCH3_SYMBOLS state p q fills = some state := by
  rw [swapPlaces_calm h, Rows.undo_exchange hp hq]

/-- What a swap of two cells in rows of the board leads to. -/
theorem swapPlaces_inRow (h : Sound MATCH3_SYMBOLS state.board)
    (hfinished : state.isFinished = false) {payload : Value} {from_ to_ : Cell} {p q : Place}
    (hp : placeOf from_ = .ok p) (hq : placeOf to_ = .ok q) (hfrom : InRow from_) (hto : InRow to_)
    (hswaps : ∀ p' q', Swaps numberText payload p' q' ↔
      onBoard from_ = some p' ∧ onBoard to_ = some q')
    {fills : List Fill} {state' : Session α}
    (hout : swapPlaces MATCH3_SYMBOLS state p q fills = some state') :
    WellPlayed numberText MATCH3_SYMBOLS state payload state'
      ∧ Sound MATCH3_SYMBOLS state'.board := by
  obtain ⟨y, hy, hindex, rfl⟩ := placeOf_eq_ok.1 hp
  obtain ⟨y', hy', hindex', rfl⟩ := placeOf_eq_ok.1 hq
  have hinner : ∀ {y : ℕ} {cell : Cell}, y < 8 → InRow cell →
      Rows.Inner state.board (y, cell.x.key) := by
    intro y cell hy hcell x hx
    exact (hcell.2 x hx).trans_eq (h.board.length y hy).symm
  have hstill : (∀ cx cy, ¬Matched (cellsOf (state.board.exchange (y, from_.x.key)
      (y', to_.x.key))) cx cy) → state' = state := by
    intro hcalm
    rw [swapPlaces_still (hinner hy hfrom) (hinner hy' hto) hcalm] at hout
    exact (Option.some.inj hout).symm
  by_cases hoff : OffBoard (y, from_.x.key) ∨ OffBoard (y', to_.x.key)
  · obtain rfl := hstill (h.exchange_off hy hy' hoff)
    refine ⟨wellPlayed_same h.board fun p' q' hswap => ?_, h⟩
    obtain ⟨hp', hq'⟩ := (hswaps p' q').1 hswap
    obtain ⟨-, -, hx, hx8⟩ := onBoard_eq_some.1 hp'
    obtain ⟨-, -, hx', hx'8⟩ := onBoard_eq_some.1 hq'
    rcases hoff with hoff | hoff
    · exact absurd (hoff _ hx) (Nat.not_le.2 hx8)
    · exact absurd (hoff _ hx') (Nat.not_le.2 hx'8)
  · obtain ⟨hon, hon'⟩ := not_or.1 hoff
    obtain ⟨x, hx8, hx⟩ := (offBoard_or_index _).resolve_left hon
    obtain ⟨x', hx'8, hx'⟩ := (offBoard_or_index _).resolve_left hon'
    have hcells := h.exchange_index hy hy' hx hx8 hx' hx'8
    dsimp only at hcells
    have hp' : onBoard from_ = some (y, x) := onBoard_eq_some.2 ⟨hindex, hy, hx, hx8⟩
    have hq' : onBoard to_ = some (y', x') := onBoard_eq_some.2 ⟨hindex', hy', hx', hx'8⟩
    have honly : ∀ p q, Swaps numberText payload p q → p = (y, x) ∧ q = (y', x') := by
      intro p q hswap
      obtain ⟨hp'', hq''⟩ := (hswaps p q).1 hswap
      exact ⟨Option.some.inj (hp''.symm.trans hp'), Option.some.inj (hq''.symm.trans hq')⟩
    by_cases hnone : ∀ cx cy, ¬Matched ((cellsOf state.board).exchange (y, x) (y', x')) cx cy
    · obtain rfl := hstill (hcells ▸ hnone)
      refine ⟨wellPlayed_same h.board fun p q hswap _ => ?_, h⟩
      obtain ⟨rfl, rfl⟩ := honly p q hswap
      exact hnone
    · unfold swapPlaces at hout
      dsimp only at hout
      rw [hcells, if_neg (findMatches_eq_nil.not.2 hnone)] at hout
      obtain ⟨⟨board', points⟩, hcascade, rfl⟩ := Option.map_eq_some_iff.1 hout
      obtain ⟨hsymbolic, hcalm, counts, hcounts, hpoints⟩ :=
        cascade_spec (h.board.symbolic.exchange ⟨hy, hx8⟩ ⟨hy', hx'8⟩) hcascade
      have hsound := h.cascade hy hy' hx hx8 hx' hx'8 hsymbolic hcalm
      refine ⟨⟨hsound.board, fun hunmatched => ?_, fun p q hswap _ _ => ?_⟩, hsound⟩
      · exact absurd (hunmatched (y, x) (y', x') ((hswaps _ _).2 ⟨hp', hq'⟩) hfinished) hnone
      · obtain ⟨rfl, rfl⟩ := honly p q hswap
        refine ⟨counts, hcounts, ?_⟩
        show state.score + points = _
        rw [hpoints, Nat.zero_add]

theorem ne_null_of_type {json : Json JsNumber} (h : json.get "type" = some (.string "swap")) :
    json ≠ .null := by
  rintro rfl
  cases h

/-- A readable action leads to what it should. -/
theorem gameAction_readable (h : Sound MATCH3_SYMBOLS state.board)
    (hreadable : Readable numberText state action) {out : Except Thrown (Session α)}
    (hout : gameAction numberText MATCH3_SYMBOLS state action = some out) :
    ∃ state', out = .ok state'
      ∧ WellPlayed numberText MATCH3_SYMBOLS state action.payload state'
      ∧ Sound MATCH3_SYMBOLS state'.board := by
  have hsame : out = .ok state →
      (∀ p q, Swaps numberText action.payload p q → state.isFinished = false →
        ∀ x y, ¬Matched ((cellsOf state.board).exchange p q) x y) →
      ∃ state', out = .ok state'
        ∧ WellPlayed numberText MATCH3_SYMBOLS state action.payload state'
        ∧ Sound MATCH3_SYMBOLS state'.board :=
    fun hsame hcalm => ⟨state, hsame, wellPlayed_same h.board hcalm, h⟩
  by_cases hfinished : state.isFinished = true
  · unfold gameAction at hout
    rw [if_pos hfinished] at hout
    refine hsame (Option.some.inj hout).symm fun p q _ hopen => ?_
    rw [hfinished] at hopen
    cases hopen
  obtain ⟨json, hpayload, hnull, hswap⟩ := hreadable.resolve_left hfinished
  rw [Bool.not_eq_true] at hfinished
  by_cases htype : json.get "type" = some (.string "swap")
  · obtain ⟨from_, to_, hfrom, hto, hrows⟩ := hswap htype
    have hswaps : ∀ p' q', Swaps numberText action.payload p' q' ↔ areNeighbours from_ to_ = true
        ∧ onBoard from_ = some p' ∧ onBoard to_ = some q' := by
      intro p' q'
      constructor
      · rintro ⟨json', from', to', hjson', -, hfrom', hto', hnear', hp', hq'⟩
        obtain rfl := Option.some.inj (hpayload.symm.trans hjson')
        obtain rfl := Except.ok.inj (hfrom.symm.trans hfrom')
        obtain rfl := Except.ok.inj (hto.symm.trans hto')
        exact ⟨hnear', hp', hq'⟩
      · rintro ⟨hnear, hp', hq'⟩
        exact ⟨json, from_, to_, hpayload, htype, hfrom, hto, hnear, hp', hq'⟩
    rw [gameAction_swap hfinished hpayload hnull htype, handleMatch3Swap] at hout
    rcases @swapOf_cases numberText (json.get "from") (json.get "to") with
      ⟨e, -, herror⟩ | ⟨from', to', hfrom', hto', ⟨hfar, heq⟩ | ⟨hnear, p, q, hp, hq, heq⟩⟩
    · obtain ⟨hnear, hnot⟩ := herror from_ to_ hfrom hto
      exact absurd (hrows hnear) hnot
    · obtain rfl := Except.ok.inj (hfrom.symm.trans hfrom')
      obtain rfl := Except.ok.inj (hto.symm.trans hto')
      rw [heq] at hout
      refine hsame (Option.some.inj hout).symm fun p q hswap => ?_
      rw [hfar] at hswaps
      exact absurd ((hswaps p q).1 hswap).1 Bool.false_ne_true
    · obtain rfl := Except.ok.inj (hfrom.symm.trans hfrom')
      obtain rfl := Except.ok.inj (hto.symm.trans hto')
      rw [heq] at hout
      obtain ⟨state', hplayed, rfl⟩ := Option.map_eq_some_iff.1 hout
      have hswaps' : ∀ p' q', Swaps numberText action.payload p' q'
          ↔ onBoard from_ = some p' ∧ onBoard to_ = some q' :=
        fun p' q' => (hswaps p' q').trans (and_iff_right hnear)
      obtain ⟨hwell, hsound⟩ :=
        swapPlaces_inRow h hfinished hp hq (hrows hnear).1 (hrows hnear).2 hswaps' hplayed
      exact ⟨state', rfl, hwell, hsound⟩
  · rw [gameAction_other hfinished hpayload hnull htype] at hout
    refine hsame (Option.some.inj hout).symm ?_
    rintro p q ⟨json', from', to', hjson', htype', -⟩
    obtain rfl := Option.some.inj (hpayload.symm.trans hjson')
    exact absurd htype' htype

/-- A swap with a place past the end of its row leaves that row too long. -/
theorem swapPlaces_outer (h : Sound MATCH3_SYMBOLS state.board) {p q : Place} (hp : p.1 < 8)
    (hq : q.1 < 8)
    (houter : (OffBoard p ∧ ¬state.board.Inner p) ∨ (OffBoard q ∧ ¬state.board.Inner q))
    (fills : List Fill) :
    ∃ state', swapPlaces MATCH3_SYMBOLS state p q fills = some state'
      ∧ ¬EightByEight MATCH3_SYMBOLS state'.board := by
  have hcalm := h.exchange_off hp hq (houter.imp And.left And.left)
  refine ⟨_, swapPlaces_calm hcalm, fun hboard => ?_⟩
  obtain ⟨y, hy, hlonger⟩ := undo_longer (state.board.read p) (houter.imp And.right And.right)
  have hy8 : y < 8 := by
    rcases hy with rfl | rfl
    · exact hp
    · exact hq
  rw [h.board.length y hy8] at hlonger
  exact absurd (hboard.length y hy8) hlonger.ne'

/-- An action that is not throws, or makes a row longer. -/
theorem gameAction_unreadable (h : Sound MATCH3_SYMBOLS state.board)
    (hnot : ¬Readable numberText state action) :
    ¬StaysWellFormed numberText MATCH3_SYMBOLS state action := by
  intro hstays
  have hthrows : ∀ e, gameAction numberText MATCH3_SYMBOLS state action ≠ some (.error e) := by
    intro e he
    obtain ⟨state', heq, -⟩ := hstays _ he
    cases heq
  obtain ⟨hfinished, hunread⟩ := not_or.1 hnot
  rw [Bool.not_eq_true] at hfinished
  have hproperty : ∀ e, property "type" action.payload ≠ .error e := by
    intro e he
    refine hthrows e ?_
    unfold gameAction
    rw [hfinished, if_neg Bool.false_ne_true, he]
  obtain ⟨json, hpayload, hnull⟩ : ∃ json, action.payload = some json ∧ json ≠ .null := by
    cases hpayload : action.payload with
    | none => exact absurd (hpayload ▸ rfl) (hproperty .typeError)
    | some json =>
      refine ⟨json, rfl, ?_⟩
      rintro rfl
      exact hproperty .typeError (hpayload ▸ rfl)
  by_cases htype : json.get "type" = some (.string "swap")
  · have haction : gameAction numberText MATCH3_SYMBOLS state action = handleMatch3Swap numberText
        MATCH3_SYMBOLS state (json.get "from") (json.get "to") action.fills :=
      gameAction_swap hfinished hpayload hnull htype
    unfold handleMatch3Swap at haction
    rcases @swapOf_cases numberText (json.get "from") (json.get "to") with
      ⟨e, heq, -⟩ | ⟨from_, to_, hfrom, hto, ⟨hfar, heq⟩ | ⟨hnear, p, q, hp, hq, heq⟩⟩
    · rw [heq] at haction
      exact hthrows e haction
    · refine hunread ⟨json, hpayload, hnull, fun _ => ⟨from_, to_, hfrom, hto, fun hnear => ?_⟩⟩
      rw [hfar] at hnear
      cases hnear
    · have houter : (OffBoard p ∧ ¬state.board.Inner p) ∨ (OffBoard q ∧ ¬state.board.Inner q) := by
        by_cases hin : InRow from_
        · refine .inr (h.outer hq fun hin' => hunread ⟨json, hpayload, hnull, fun _ => ?_⟩)
          exact ⟨from_, to_, hfrom, hto, fun _ => ⟨hin, hin'⟩⟩
        · exact .inl (h.outer hp hin)
      obtain ⟨out, hout, hlonger⟩ := swapPlaces_outer h (row_lt hp) (row_lt hq) houter action.fills
      rw [heq] at haction
      dsimp only at haction
      rw [hout] at haction
      obtain ⟨state', hstate, hwell⟩ := hstays _ haction
      obtain rfl := Except.ok.inj hstate
      exact hlonger hwell.board
  · exact hunread ⟨json, hpayload, hnull, fun htype' => absurd htype' htype⟩

theorem newSession_sound {fill : Fill} {board : Board α}
    (h : generateStableBoard MATCH3_SYMBOLS fill = some board) :
    Sound MATCH3_SYMBOLS (newSession board).board := by
  obtain ⟨hsymbolic, hcalm⟩ := generateStableBoard_spec h
  exact ⟨⟨fun y hy => if_pos hy, hsymbolic, hcalm⟩, fun _ _ _ => rfl⟩

end Step

/-! ## Whole sessions -/

section Sessions

variable {α : Type} [DecidableEq α] (numberText : JsNumber → String) (MATCH3_SYMBOLS : Fin 5 → α)

/-- **Sessions of match-3.** The actions of a session all leave it well formed,
and none throws, exactly if they are all readable. -/
theorem stays_wellFormed_iff {fill : Fill} {board : Board α}
    (h : generateStableBoard MATCH3_SYMBOLS fill = some board) (as : List Action) :
    (actions numberText MATCH3_SYMBOLS).Meets (StaysWellFormed numberText MATCH3_SYMBOLS)
        (newSession board) as
      ↔ (actions numberText MATCH3_SYMBOLS).Meets (Readable numberText) (newSession board) as := by
  have hiff : ∀ (state : Session α) action, Sound MATCH3_SYMBOLS state.board →
      (StaysWellFormed numberText MATCH3_SYMBOLS state action
        ↔ Readable numberText state action) := by
    intro state action hsound
    constructor
    · intro hstays
      by_contra hnot
      exact gameAction_unreadable hsound hnot hstays
    · intro hreadable out hout
      obtain ⟨state', heq, hwell, -⟩ := gameAction_readable hsound hreadable hout
      exact ⟨state', heq, hwell⟩
  refine (actions numberText MATCH3_SYMBOLS).meets_iff_of_kept
    (I := fun state => Sound MATCH3_SYMBOLS state.board)
    (fun state action state' hsound hstays hstep => ?_) hiff (newSession_sound h)
  obtain ⟨out, hout, rfl⟩ := Option.map_eq_some_iff.1 hstep
  obtain ⟨state', rfl, -, hsound'⟩ :=
    gameAction_readable hsound ((hiff state action hsound).1 hstays) hout
  exact hsound'

end Sessions

/-! ### A session -/

/-- Whole coordinates as text. -/
def wholeText : JsNumber → String
  | .finite q => toString q.num
  | _ => "NaN"

local instance neZeroFive : NeZero 5 := inferInstance

def firstFill : Fill := fun y x => Fin.ofNat 5 (x + 2 * y + x * y / 3)

def firstBoard : Board (Fin 5) := boardOf id firstFill

def swapAt (x y x' y' : ℚ) : Action where
  payload := some (.object [("type", .string "swap"),
    ("from", .object [("x", .number (.finite x)), ("y", .number (.finite y))]),
    ("to", .object [("x", .number (.finite x')), ("y", .number (.finite y'))])])
  fills := [firstFill]

theorem firstBoard_generated : generateStableBoard id firstFill = some firstBoard := by
  unfold generateStableBoard
  exact if_pos (by decide +kernel)

/-- A swap with a cell whose row and key can be read, in any state. -/
theorem readable_swapAt {x y x' y' : ℚ} {from_ to_ : Cell}
    (hfrom : cellOf wholeText (some (.object [("x", .number (.finite x)),
      ("y", .number (.finite y))])) = .ok from_)
    (hto : cellOf wholeText (some (.object [("x", .number (.finite x')),
      ("y", .number (.finite y'))])) = .ok to_)
    {state : Session (Fin 5)} (h : state.isFinished = false) :
    Readable wholeText state (swapAt x y x' y')
      ↔ (areNeighbours from_ to_ = true → InRow from_ ∧ InRow to_) := by
  constructor
  · rintro (hfinished | ⟨json, hjson, -, hswap⟩)
    · rw [h] at hfinished
      cases hfinished
    · obtain rfl := Option.some.inj hjson
      obtain ⟨from', to', hfrom', hto', hrows⟩ := hswap rfl
      obtain rfl := Except.ok.inj (hfrom.symm.trans hfrom')
      obtain rfl := Except.ok.inj (hto.symm.trans hto')
      exact hrows
  · intro hrows
    exact .inr ⟨_, rfl, ne_null_of_type rfl, fun _ => ⟨from_, to_, hfrom, hto, hrows⟩⟩

theorem not_inRow_eight {cell : Cell} (h : cell.x.key = "8" ∨ cell.y.key = "8") : ¬InRow cell := by
  have height : arrayIndex "8" = some 8 := by decide
  rintro ⟨⟨y, hy, hindex⟩, hcolumn⟩
  rcases h with h | h
  · exact absurd (hcolumn 8 (h ▸ height)) (by omega)
  · rw [h, height] at hindex
    obtain rfl := Option.some.inj hindex
    omega

/-- A payload that is a text, and a swap that makes a match. -/
theorem stays_wellFormed_iff_match :
    (actions wholeText id).Meets (StaysWellFormed wholeText id) (newSession firstBoard)
      [⟨some (.string "swap"), []⟩, swapAt 6 1 7 1] := by
  refine (stays_wellFormed_iff wholeText id firstBoard_generated _).2 ?_
  refine System.meets_of_labels _ _ _ fun action haction state => ?_
  rcases List.mem_pair.1 haction with rfl | rfl
  · refine .inr ⟨_, rfl, fun h => ?_, fun h => ?_⟩
    · cases h
    · cases h
  · refine .inr ⟨_, rfl, ne_null_of_type rfl, fun _ => ⟨_, _, rfl, rfl, fun _ => ?_⟩⟩
    have hindex : arrayIndex "1" = some 1 ∧ arrayIndex "6" = some 6 ∧ arrayIndex "7" = some 7 := by
      decide
    refine ⟨⟨⟨1, by omega, hindex.1⟩, fun x hx => ?_⟩, ⟨1, by omega, hindex.1⟩, fun x hx => ?_⟩
    · obtain rfl := Option.some.inj (hindex.2.1.symm.trans hx)
      omega
    · obtain rfl := Option.some.inj (hindex.2.2.symm.trans hx)
      omega

/-- No payload, a row that is not there, and a column that is not there. -/
theorem stays_wellFormed_not_always :
    ¬(actions wholeText id).Meets (StaysWellFormed wholeText id) (newSession firstBoard)
        [⟨some .null, []⟩]
      ∧ ¬(actions wholeText id).Meets (StaysWellFormed wholeText id) (newSession firstBoard)
        [swapAt 0 7 0 8]
      ∧ ¬(actions wholeText id).Meets (StaysWellFormed wholeText id) (newSession firstBoard)
        [swapAt 7 0 8 0] := by
  have hsound := newSession_sound firstBoard_generated
  have hnear : ∀ {x y x' y' : ℚ} {from_ to_ : Cell},
      cellOf wholeText (some (.object [("x", .number (.finite x)),
        ("y", .number (.finite y))])) = .ok from_ →
      cellOf wholeText (some (.object [("x", .number (.finite x')),
        ("y", .number (.finite y'))])) = .ok to_ →
      areNeighbours from_ to_ = true → (to_.x.key = "8" ∨ to_.y.key = "8") →
      ¬(actions wholeText id).Meets (StaysWellFormed wholeText id) (newSession firstBoard)
        [swapAt x y x' y'] := by
    intro x y x' y' from_ to_ hfrom hto hnear height hmeets
    refine gameAction_unreadable hsound (fun hreadable => ?_) hmeets.1
    exact not_inRow_eight height (((readable_swapAt hfrom hto rfl).1 hreadable hnear).2)
  refine ⟨fun hmeets => ?_, hnear rfl rfl (by decide +kernel) (.inr rfl),
    hnear rfl rfl (by decide +kernel) (.inl rfl)⟩
  obtain ⟨state', hstate, -⟩ := hmeets.1 _ rfl
  cases hstate

end BlockMiner.MatchThree
