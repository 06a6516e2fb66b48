import Mathlib.Data.List.Dedup
import Mathlib.Logic.Function.Basic

/-!
# The board of the match-3 game

`socket/registerGamesSocketHandlers.js`: `findMatches`, `processCascades` and
the loop over both, on a board of any symbols. What the source draws at random
for a cell is a `Fill`.

`none` is a cell without a symbol: `null`, or what a swap with a place off the
board leaves, which is undone before anything falls.

`mem_findMatches` says that the matches are the cells of the runs of at least
three equal symbols, and `processCascades_column` what a column holds after
the symbols have fallen.
-/

namespace BlockMiner.MatchThree

variable {α : Type}

/-! ## The source -/

/-- `board[y][x]`. -/
abbrev Board (α : Type) := ℕ → ℕ → Option α

def Board.set (board : Board α) (y x : ℕ) (symbol : Option α) : Board α :=
  Function.update board y (Function.update (board y) x symbol)

/-- What falls into the cells that are left, by `y` and `x`. -/
abbrev Fill := ℕ → ℕ → Fin 5

section Matches

variable [DecidableEq α]

/-- The same symbol in three cells. -/
def isTriple (a b c : Option α) : Bool := a.isSome && a = b && a = c

/-- The cells of all rows and columns of three, as `(x, y)`; a `Set` keeps the
order in which they came first. -/
def findMatches (board : Board α) : List (ℕ × ℕ) :=
  let rows := (List.range 8).flatMap fun y => (List.range 6).flatMap fun x =>
    if isTriple (board y x) (board y (x + 1)) (board y (x + 2)) then
      [(x, y), (x + 1, y), (x + 2, y)] else []
  let columns := (List.range 8).flatMap fun x => (List.range 6).flatMap fun y =>
    if isTriple (board y x) (board (y + 1) x) (board (y + 2) x) then
      [(x, y), (x, y + 1), (x, y + 2)] else []
  (rows ++ columns).reverse.dedup.reverse

end Matches

/-- One cell of the loop over a column from below; `free` is `emptyRow + 1`. -/
def dropCell (x : ℕ) (at_ : Board α × ℕ) (y : ℕ) : Board α × ℕ :=
  let (board, free) := at_
  match board y x with
  | none => (board, free)
  | some symbol =>
      let moved := board.set (free - 1) x (some symbol)
      (if free - 1 ≠ y then moved.set y x none else moved, free - 1)

section Cascades

variable (MATCH3_SYMBOLS : Fin 5 → α)

def refill (fill : Fill) (x : ℕ) (board : Board α) (free : ℕ) : Board α :=
  (List.range free).reverse.foldl
    (fun board y => board.set y x (some (MATCH3_SYMBOLS (fill y x)))) board

def dropColumn (fill : Fill) (board : Board α) (x : ℕ) : Board α :=
  let (board, free) := (List.range 8).reverse.foldl (dropCell x) (board, 8)
  refill MATCH3_SYMBOLS fill x board free

def clearCells (board : Board α) (found : List (ℕ × ℕ)) : Board α :=
  found.foldl (fun board cell => board.set cell.2 cell.1 none) board

def processCascades (board : Board α) (found : List (ℕ × ℕ)) (fill : Fill) : Board α :=
  (List.range 8).foldl (dropColumn MATCH3_SYMBOLS fill) (clearCells board found)

variable [DecidableEq α]

/-- The loop of `handleMatch3Swap`, one fill a round; `none` where it needs more. -/
def cascade : List Fill → Board α → ℕ → Option (Board α × ℕ)
  | fills, board, totalPoints =>
      let found := findMatches board
      if found = [] then some (board, totalPoints)
      else match fills with
        | [] => none
        | fill :: fills =>
            cascade fills (processCascades MATCH3_SYMBOLS board found fill)
              (totalPoints + found.length * 20)

/-- The check of `generateStableBoard` at a cell. -/
def isStableAt (board : Board α) (y x : ℕ) : Bool :=
  !(2 ≤ x && board y (x - 1) = board y x && board y (x - 2) = board y x)
    && !(2 ≤ y && board (y - 1) x = board y x && board (y - 2) x = board y x)

def boardOf (fill : Fill) : Board α := fun y x =>
  if y < 8 ∧ x < 8 then some (MATCH3_SYMBOLS (fill y x)) else none

/-- A board that `generateStableBoard` can return. -/
def generateStableBoard (fill : Fill) : Option (Board α) :=
  let board := boardOf MATCH3_SYMBOLS fill
  if (List.range 8).all fun y => (List.range 8).all fun x => isStableAt board y x then some board
  else none

end Cascades

/-! ## Runs -/

/-- Equal symbols in so many cells of a line from `start` on. -/
def Run (line : ℕ → Option α) (start length : ℕ) : Prop :=
  ∃ symbol, ∀ i < length, line (start + i) = some symbol

/-- A cell of a line of eight is in a run of at least three. -/
def InRun (line : ℕ → Option α) (cell : ℕ) : Prop :=
  ∃ start length, 3 ≤ length ∧ start + length ≤ 8 ∧ start ≤ cell ∧ cell < start + length
    ∧ Run line start length

/-- The cell is in a horizontal or a vertical run. -/
def Matched (board : Board α) (x y : ℕ) : Prop :=
  x < 8 ∧ y < 8 ∧ (InRun (board y) x ∨ InRun (fun y => board y x) y)

section Matches

variable [DecidableEq α]

theorem isTriple_iff {line : ℕ → Option α} {start : ℕ} :
    isTriple (line start) (line (start + 1)) (line (start + 2)) = true ↔ Run line start 3 := by
  unfold isTriple Run
  simp only [Bool.and_eq_true, decide_eq_true_eq, Option.isSome_iff_exists]
  constructor
  · rintro ⟨⟨⟨symbol, hsymbol⟩, hsecond⟩, hthird⟩
    refine ⟨symbol, fun i hi => ?_⟩
    obtain rfl | rfl | rfl : i = 0 ∨ i = 1 ∨ i = 2 := by omega
    · exact hsymbol
    · exact hsecond ▸ hsymbol
    · exact hthird ▸ hsymbol
  · rintro ⟨symbol, hrun⟩
    have h0 := hrun 0 (by omega)
    have h1 := hrun 1 (by omega)
    have h2 := hrun 2 (by omega)
    rw [Nat.add_zero] at h0
    exact ⟨⟨⟨symbol, h0⟩, h0.trans h1.symm⟩, h0.trans h2.symm⟩

/-- A cell of a run is in a window of three of it. -/
theorem inRun_iff {line : ℕ → Option α} {cell : ℕ} :
    InRun line cell ↔ ∃ start < 6, (cell = start ∨ cell = start + 1 ∨ cell = start + 2)
      ∧ isTriple (line start) (line (start + 1)) (line (start + 2)) = true := by
  simp only [isTriple_iff]
  constructor
  · rintro ⟨start, length, hthree, hend, hfrom, hto, symbol, hrun⟩
    refine ⟨min cell (start + length - 3), by omega, by omega, symbol, fun i hi => ?_⟩
    have hcell := hrun (min cell (start + length - 3) - start + i) (by omega)
    rwa [← Nat.add_assoc, Nat.add_sub_cancel' (by omega)] at hcell
  · rintro ⟨start, hstart, hcell, hrun⟩
    exact ⟨start, 3, by omega, by omega, by omega, by omega, hrun⟩

theorem mem_findMatches {board : Board α} {x y : ℕ} :
    (x, y) ∈ findMatches board ↔ Matched board x y := by
  unfold findMatches Matched
  simp only [List.mem_reverse, List.mem_dedup, List.mem_append, List.mem_flatMap, List.mem_range,
    List.mem_ite_nil_right, List.mem_cons, List.not_mem_nil, or_false, Prod.mk.injEq, inRun_iff]
  constructor
  · rintro (⟨row, hrow, start, hstart, htriple, hcell⟩ |
      ⟨column, hcolumn, start, hstart, htriple, hcell⟩)
    · obtain rfl : y = row := by omega
      exact ⟨by omega, hrow, .inl ⟨start, hstart, by omega, htriple⟩⟩
    · obtain rfl : x = column := by omega
      exact ⟨hcolumn, by omega, .inr ⟨start, hstart, by omega, htriple⟩⟩
  · rintro ⟨hx, hy, ⟨start, hstart, hcell, htriple⟩ | ⟨start, hstart, hcell, htriple⟩⟩
    · exact .inl ⟨y, hy, start, hstart, htriple, by omega⟩
    · exact .inr ⟨x, hx, start, hstart, htriple, by omega⟩

theorem findMatches_nodup (board : Board α) : (findMatches board).Nodup :=
  List.nodup_reverse.2 (List.nodup_dedup _)

end Matches

/-! ## Falling -/

theorem set_apply (board : Board α) (y x : ℕ) (symbol : Option α) (y' x' : ℕ) :
    board.set y x symbol y' x' = if y' = y ∧ x' = x then symbol else board y' x' := by
  unfold Board.set
  by_cases hy : y' = y
  · subst hy
    rw [Function.update_self]
    by_cases hx : x' = x
    · subst hx
      rw [Function.update_self, if_pos ⟨rfl, rfl⟩]
    · rw [Function.update_of_ne hx, if_neg fun h => hx h.2]
  · rw [Function.update_of_ne hy, if_neg fun h => hy h.1]

theorem clearCells_apply (found : List (ℕ × ℕ)) (board : Board α) (y x : ℕ) :
    clearCells board found y x = if (x, y) ∈ found then none else board y x := by
  unfold clearCells
  induction found generalizing board with
  | nil => rfl
  | cons cell found ih =>
    rw [List.foldl_cons, ih, set_apply]
    by_cases hmem : (x, y) ∈ found
    · rw [if_pos hmem, if_pos (List.mem_cons_of_mem _ hmem)]
    · rw [if_neg hmem]
      by_cases hcell : (x, y) = cell
      · subst hcell
        rw [if_pos ⟨rfl, rfl⟩, if_pos (List.mem_cons_self ..)]
      · rw [if_neg, if_neg]
        · exact fun h => (List.mem_cons.1 h).elim hcell hmem
        · rintro ⟨rfl, rfl⟩
          exact hcell rfl

/-- So many cells of a line, from one on. -/
def cells (line : ℕ → Option α) (start length : ℕ) : List (Option α) :=
  (List.range' start length).map line

/-- The loop has come up to row `row`: below `free`, the symbols of the rows
from `row` on are in their order; from `row` to `free` there is none; the rows
before `row`, and the other columns, are as they were. -/
structure Dropped (old : Board α) (x row : ℕ) (at_ : Board α × ℕ) : Prop where
  row_le : row ≤ at_.2
  free_le : at_.2 ≤ 8
  above : ∀ y < row, at_.1 y x = old y x
  between : ∀ y, row ≤ y → y < at_.2 → at_.1 y x = none
  below : cells (fun y => at_.1 y x) at_.2 (8 - at_.2)
    = (cells (fun y => old y x) row (8 - row)).filter Option.isSome
  others : ∀ y x', x' ≠ x → at_.1 y x' = old y x'

theorem cells_congr {line line' : ℕ → Option α} {start length : ℕ}
    (h : ∀ y, start ≤ y → y < start + length → line y = line' y) :
    cells line start length = cells line' start length :=
  List.map_congr_left fun y hy => by
    obtain ⟨hfrom, hto⟩ := List.mem_range'_1.1 hy
    exact h y hfrom hto

theorem cells_pred {line : ℕ → Option α} {row : ℕ} (h : row < 8) :
    cells line row (8 - row) = line row :: cells line (row + 1) (8 - (row + 1)) := by
  have hlength : 8 - row = 8 - (row + 1) + 1 := by omega
  rw [hlength, cells, List.range'_succ, List.map_cons]
  rfl

theorem dropCell_dropped {old : Board α} {x row : ℕ} {at_ : Board α × ℕ}
    (h : Dropped old x (row + 1) at_) : Dropped old x row (dropCell x at_ row) := by
  obtain ⟨board, free⟩ := at_
  obtain ⟨hrow, hfree, habove, hbetween, hbelow, hothers⟩ := h
  dsimp only at *
  have hsame : board row x = old row x := habove row (by omega)
  unfold dropCell
  dsimp only
  cases hcell : board row x with
  | none =>
    dsimp only
    refine ⟨by omega, hfree, fun y hy => habove y (by omega), fun y hfrom hto => ?_, ?_, hothers⟩
    · rcases Nat.eq_or_lt_of_le hfrom with rfl | hlt
      · exact hcell
      · exact hbetween y hlt hto
    · dsimp only
      rw [hbelow, @cells_pred _ (fun y => old y x) row (by omega),
        List.filter_cons_of_neg]
      rw [← hsame, hcell]
      exact Bool.false_ne_true
  | some symbol =>
    dsimp only
    -- the symbol goes to the lowest cell that is free
    have hboard : ∀ y x', (if free - 1 ≠ row
        then (board.set (free - 1) x (some symbol)).set row x none
        else board.set (free - 1) x (some symbol)) y x'
          = if x' = x ∧ y = free - 1 then some symbol
            else if x' = x ∧ y = row then none else board y x' := by
      intro y x'
      by_cases hlowest : free - 1 = row
      · rw [if_neg (not_not.2 hlowest), set_apply]
        split_ifs <;> first | rfl | (exfalso; omega)
      · rw [if_pos hlowest, set_apply, set_apply]
        split_ifs <;> first | rfl | (exfalso; omega)
    refine ⟨by omega, by omega, ?_, ?_, ?_, ?_⟩
    all_goals dsimp only
    · intro y hy
      rw [hboard, if_neg (by omega), if_neg (by omega), habove y (by omega)]
    · intro y hfrom hto
      rw [hboard, if_neg (by omega)]
      by_cases hy : y = row
      · rw [if_pos ⟨rfl, hy⟩]
      · rw [if_neg (by omega), hbetween y (by omega) (by omega)]
    · have hfirst : free - 1 + 1 = free := by omega
      rw [@cells_pred _ (fun y => old y x) row (by omega),
        List.filter_cons_of_pos (by rw [← hsame, hcell]; rfl), ← hbelow, cells_pred (by omega),
        hboard, if_pos ⟨rfl, rfl⟩, hfirst, ← hsame, hcell]
      refine congrArg (_ :: ·) (cells_congr fun y hfrom _ => ?_)
      rw [hboard, if_neg (by omega), if_neg (by omega)]
    · intro y x' hx
      rw [hboard, if_neg fun h => hx h.1, if_neg fun h => hx h.1, hothers y x' hx]

theorem dropped_zero {old : Board α} {x row : ℕ} {at_ : Board α × ℕ} (h : Dropped old x row at_) :
    Dropped old x 0 ((List.range row).reverse.foldl (dropCell x) at_) := by
  induction row generalizing at_ with
  | zero => exact h
  | succ row ih =>
    rw [List.range_succ, List.reverse_append, List.reverse_singleton, List.singleton_append,
      List.foldl_cons]
    exact ih (dropCell_dropped h)

theorem dropped_column (board : Board α) (x : ℕ) :
    Dropped board x 0 ((List.range 8).reverse.foldl (dropCell x) (board, 8)) :=
  dropped_zero ⟨Nat.le_refl 8, Nat.le_refl 8, fun _ _ => rfl,
    fun _ h h' => absurd h' (Nat.not_lt.2 h), rfl, fun _ _ _ => rfl⟩

section Cascades

variable (MATCH3_SYMBOLS : Fin 5 → α)

theorem refill_apply (fill : Fill) (x : ℕ) (board : Board α) (free y x' : ℕ) :
    refill MATCH3_SYMBOLS fill x board free y x'
      = if x' = x ∧ y < free then some (MATCH3_SYMBOLS (fill y x)) else board y x' := by
  unfold refill
  induction free generalizing board with
  | zero => rw [if_neg (by omega)]; rfl
  | succ free ih =>
    rw [List.range_succ, List.reverse_append, List.reverse_singleton, List.singleton_append,
      List.foldl_cons, ih, set_apply]
    by_cases hy : y = free
    · subst hy
      split_ifs <;> first | rfl | (exfalso; omega)
    · split_ifs <;> first | rfl | (exfalso; omega)

theorem dropColumn_others (fill : Fill) (board : Board α) {x x' : ℕ} (hx : x' ≠ x) (y : ℕ) :
    dropColumn MATCH3_SYMBOLS fill board x y x' = board y x' := by
  unfold dropColumn
  dsimp only
  rw [refill_apply, if_neg fun h => hx h.1]
  exact (dropped_column board x).others y x' hx

/-- New symbols above, and below them those that were there. -/
theorem dropColumn_column (fill : Fill) (board : Board α) (x : ℕ) :
    cells (fun y => dropColumn MATCH3_SYMBOLS fill board x y x) 0 8
      = cells (fun y => some (MATCH3_SYMBOLS (fill y x))) 0
          (8 - ((cells (fun y => board y x) 0 8).filter Option.isSome).length)
        ++ (cells (fun y => board y x) 0 8).filter Option.isSome := by
  have h := dropped_column board x
  unfold dropColumn
  dsimp only
  generalize (List.range 8).reverse.foldl (dropCell x) (board, 8) = at_ at h ⊢
  obtain ⟨dropped, free⟩ := at_
  have hbelow := h.below
  have hfree := h.free_le
  dsimp only at *
  have hlength : 8 - ((cells (fun y => board y x) 0 8).filter Option.isSome).length = free := by
    rw [← hbelow, cells, List.length_map, List.length_range']
    omega
  have hsplit : ∀ line : ℕ → Option α,
      cells line 0 8 = cells line 0 free ++ cells line free (8 - free) := by
    intro line
    have happend : List.range' 0 8 = List.range' 0 free ++ List.range' (0 + free) (8 - free) := by
      rw [List.range'_append_1, Nat.add_sub_cancel' hfree]
    rw [Nat.zero_add] at happend
    rw [cells, happend, List.map_append]
    rfl
  rw [hlength, ← hbelow, hsplit]
  congr 1
  · refine cells_congr fun y _ hy => ?_
    rw [refill_apply, if_pos ⟨rfl, by omega⟩]
  · refine cells_congr fun y hy _ => ?_
    rw [refill_apply, if_neg (by omega)]

theorem dropColumns_others (fill : Fill) (board : Board α) {columns : List ℕ} {x : ℕ}
    (hx : x ∉ columns) (y : ℕ) :
    columns.foldl (dropColumn MATCH3_SYMBOLS fill) board y x = board y x := by
  induction columns generalizing board with
  | nil => rfl
  | cons column columns ih =>
    rw [List.foldl_cons, ih _ (fun h => hx (List.mem_cons_of_mem _ h)),
      dropColumn_others _ _ _ (List.ne_of_not_mem_cons hx)]

theorem dropColumns_column (fill : Fill) (board : Board α) {columns : List ℕ} {x : ℕ}
    (hx : x ∈ columns) (hnodup : columns.Nodup) :
    cells (fun y => columns.foldl (dropColumn MATCH3_SYMBOLS fill) board y x) 0 8
      = cells (fun y => dropColumn MATCH3_SYMBOLS fill board x y x) 0 8 := by
  induction columns generalizing board with
  | nil => cases hx
  | cons column columns ih =>
    obtain ⟨hnot, hnodup⟩ := List.nodup_cons.1 hnodup
    rcases List.mem_cons.1 hx with rfl | hmem
    · refine cells_congr fun y _ _ => ?_
      rw [List.foldl_cons, dropColumns_others _ _ _ hnot]
    · have hne : x ≠ column := fun h => hnot (h ▸ hmem)
      rw [List.foldl_cons, ih _ hmem hnodup, dropColumn_column, dropColumn_column]
      simp only [dropColumn_others MATCH3_SYMBOLS fill board hne]

local instance lawfulCell : LawfulBEq (ℕ × ℕ) := inferInstance

/-- The rows of a column that are matched. -/
def matchedRows (found : List (ℕ × ℕ)) (x : ℕ) : List ℕ :=
  (List.range 8).filter fun y => (x, y) ∈ found

def unmatchedRows (found : List (ℕ × ℕ)) (x : ℕ) : List ℕ :=
  (List.range 8).filter fun y => (x, y) ∉ found

/-- Each row and column has a symbol. -/
def Full (board : Board α) : Prop := ∀ y < 8, ∀ x < 8, (board y x).isSome

theorem kept_of_full {board : Board α} (hfull : Full board) (found : List (ℕ × ℕ)) {x : ℕ}
    (hx : x < 8) :
    (cells (fun y => clearCells board found y x) 0 8).filter Option.isSome
      = (unmatchedRows found x).map fun y => board y x := by
  unfold cells unmatchedRows
  rw [← List.range_eq_range', List.filter_map]
  have hfilter : (List.range 8).filter (Option.isSome ∘ fun y => clearCells board found y x)
      = (List.range 8).filter fun y => (x, y) ∉ found := by
    refine List.filter_congr fun y hy => ?_
    rw [Function.comp_apply, clearCells_apply]
    split_ifs with hmem
    · rw [decide_eq_false (not_not.2 hmem)]
      rfl
    · rw [decide_eq_true hmem]
      exact hfull y (List.mem_range.1 hy) x hx
  rw [hfilter]
  refine List.map_congr_left fun y hy => ?_
  rw [clearCells_apply, if_neg (of_decide_eq_true (List.mem_filter.1 hy).2)]

/-- As many new symbols as cells were matched, and below them the others in
their order. -/
theorem processCascades_column {board : Board α} (hfull : Full board) (found : List (ℕ × ℕ))
    (fill : Fill) {x : ℕ} (hx : x < 8) :
    (List.range 8).map (fun y => processCascades MATCH3_SYMBOLS board found fill y x)
      = (List.range (matchedRows found x).length).map (fun y => some (MATCH3_SYMBOLS (fill y x)))
        ++ (unmatchedRows found x).map fun y => board y x := by
  have hcount : 8 = (matchedRows found x).length + (unmatchedRows found x).length := by
    have hlength := List.length_eq_length_filter_add (l := List.range 8)
      fun y => decide ((x, y) ∈ found)
    rw [List.length_range] at hlength
    refine hlength.trans ?_
    unfold matchedRows unmatchedRows
    simp only [decide_not]
  have hcolumn := dropColumns_column MATCH3_SYMBOLS fill (clearCells board found)
    (List.mem_range.2 hx) List.nodup_range
  rw [dropColumn_column, kept_of_full hfull found hx, List.length_map] at hcolumn
  have hnew : 8 - (unmatchedRows found x).length = (matchedRows found x).length := by omega
  rw [hnew] at hcolumn
  unfold cells at hcolumn
  rwa [← List.range_eq_range', ← List.range_eq_range'] at hcolumn

theorem processCascades_full {board : Board α} (hfull : Full board) (found : List (ℕ × ℕ))
    (fill : Fill) : Full (processCascades MATCH3_SYMBOLS board found fill) := by
  intro y hy x hx
  have hmem : processCascades MATCH3_SYMBOLS board found fill y x
      ∈ (List.range 8).map fun y => processCascades MATCH3_SYMBOLS board found fill y x :=
    List.mem_map_of_mem (List.mem_range.2 hy)
  rw [processCascades_column MATCH3_SYMBOLS hfull found fill hx] at hmem
  rcases List.mem_append.1 hmem with hnew | hold
  · obtain ⟨y', -, heq⟩ := List.mem_map.1 hnew
    rw [← heq]
    rfl
  · obtain ⟨y', hy', heq⟩ := List.mem_map.1 hold
    rw [← heq]
    exact hfull y' (List.mem_range.1 (List.mem_filter.1 hy').1) x hx

/-- **Matches and cascades.** On every board of symbols, the matches are the
cells of the horizontal and vertical runs of at least three equal symbols, each
once; and for every set of matched cells the others fall to the bottom of their
column in their order, under as many new symbols as cells were matched. -/
theorem matches_and_cascades_exact [DecidableEq α] (board : Board α) (hfull : Full board) :
    (findMatches board).Nodup
      ∧ (∀ x y, (x, y) ∈ findMatches board ↔ Matched board x y)
      ∧ ∀ (found : List (ℕ × ℕ)) (fill : Fill),
        Full (processCascades MATCH3_SYMBOLS board found fill)
        ∧ ∀ x < 8, (List.range 8).map (fun y => processCascades MATCH3_SYMBOLS board found fill y x)
          = (List.range (matchedRows found x).length).map
              (fun y => some (MATCH3_SYMBOLS (fill y x)))
            ++ (unmatchedRows found x).map fun y => board y x :=
  ⟨findMatches_nodup board, fun _ _ => mem_findMatches, fun found fill =>
    ⟨processCascades_full MATCH3_SYMBOLS hfull found fill, fun _ hx =>
      processCascades_column MATCH3_SYMBOLS hfull found fill hx⟩⟩

/-- A column of different symbols that loses two of them. -/
theorem matches_and_cascades_exact_column :
    (List.range 8).map (fun y => processCascades (fun k => 10 + k.val)
        (fun y x => some (y + x)) [(2, 3), (2, 6)] (fun _ _ => 1) y 2)
      = [some 11, some 11, some 2, some 3, some 4, some 6, some 7, some 9] :=
  ((matches_and_cascades_exact (fun k => 10 + k.val) (fun y x => some (y + x))
    fun _ _ _ _ => rfl).2.2 [(2, 3), (2, 6)] fun _ _ => 1).2 2 (by decide)

end Cascades

end BlockMiner.MatchThree
