import BlockMiner.MatchThree
import BlockMiner.Service
import Mathlib

/-!
# Games over sockets

`socket/registerGamesSocketHandlers.js`: the memory and the match-3 game. A
session is an object that the map of sessions refers to by socket; timers and
unfinished promises refer to the object itself, so the objects are a table
here and the map holds their ids. The cooldown of a user and a game is kept by
the last finish of any session. `game:start` checks it, waits for the game's
row and then sets the session of the socket; `finishGame` records the finish
at once, and waits for the check-in of the day and for the row of the power.

A handler runs up to its first wait in one step. A timer that has been cleared
does nothing when it fires. Random choices (the shuffle, the first board, what
falls from above) are part of an event. Clocks do not run backwards. What goes
out to the client is left out.

`session` and `createdAt` of a power are not columns.
-/

namespace BlockMiner.SocketGames

open MatchThree (Fill findMatches cascade generateStableBoard)

/-! ## Constants -/

inductive Game where
  | cryptoMemory
  | cryptoMatch3
deriving DecidableEq

/-- `GAME_NAMES[gameSlug]` is there. -/
def gameOf : String → Option Game
  | "crypto-memory" => some .cryptoMemory
  | "crypto-match-3" => some .cryptoMatch3
  | _ => none

inductive CoinSymbol where
  | bitcoin | ethereum | solana | binanceCoin | cardano | polkadot | dogecoin | polygon
deriving DecidableEq

def SYMBOLS : List CoinSymbol :=
  [.bitcoin, .ethereum, .solana, .binanceCoin, .cardano, .polkadot, .dogecoin, .polygon]

def MATCH3_SYMBOLS : Fin 5 → CoinSymbol
  | 0 => .bitcoin
  | 1 => .ethereum
  | 2 => .solana
  | 3 => .binanceCoin
  | 4 => .cardano

structure Config where
  GAME_COOLDOWN_MS : ℤ
  GAME_POWER_DAYS : ℤ
  MEMORY_MISMATCH_TOTAL_MS : ℤ

/-! ## Sessions -/

structure Card where
  id : ℕ
  symbol : CoinSymbol
  isFlipped : Bool
  isMatched : Bool

abbrev Board := MatchThree.Board CoinSymbol

/-- The part of a session that depends on its game; the timer is
`memoryMismatchTimeout`, and `flipped` has the ids of cards of the board. -/
inductive Play where
  | memory (board : List Card) (flipped : List ℕ) (timer : Option ℕ)
  | match3 (board : Board)

def Play.game : Play → Game
  | .memory .. => .cryptoMemory
  | .match3 _ => .cryptoMatch3

structure Session where
  gameId : ℕ
  userId : ℕ
  score : ℕ
  isFinished : Bool
  startTime : ℤ
  play : Play

def Session.slug (state : Session) : Game := state.play.game

/-- A power of 50 H/s. -/
structure UserPowerGame where
  userId : ℕ
  gameId : ℕ
  playedAt : ℤ
  expiresAt : ℤ
  game : Game
  session : ℕ
  createdAt : ℤ

structure Db where
  /-- The objects of the sessions. -/
  sessions : Table Session
  /-- `GAME_SESSIONS`, by socket. -/
  bySocket : ℕ → Option ℕ
  /-- `LAST_GAME_FINISH`, by user and game. -/
  lastFinish : ℕ → Game → Option ℤ
  powers : List UserPowerGame
  nextTimer : ℕ
  clock : ℤ

/-! ## The match-3 board -/

/-- An index of the board, where the coordinate is one. -/
def index (n : ℤ) : Option ℕ := if 0 ≤ n ∧ n < 8 then some n.toNat else none

/-- The board after the swap of two neighbours that makes a match, and the
points. A swap with a cell off the board makes none, or throws. -/
def swapped (board : Board) (fromX fromY toX toY : ℤ) (fills : List Fill) :
    Option (Option (Board × ℕ)) :=
  if ¬((|fromX - toX| = 1 ∧ |fromY - toY| = 0) ∨ (|fromX - toX| = 0 ∧ |fromY - toY| = 1)) then
    some none
  else match index fromX, index fromY, index toX, index toY with
    | some fromX, some fromY, some toX, some toY =>
        let temp := board fromY fromX
        let board := (board.set fromY fromX (board toY toX)).set toY toX temp
        if findMatches board = [] then some none
        else (cascade MATCH3_SYMBOLS fills board 0).map some
    | _, _, _, _ => some none

/-! ## The memory board -/

def findCard (board : List Card) (id : ℕ) : Option Card := board.find? fun c => c.id = id

def setCard (board : List Card) (id : ℕ) (f : Card → Card) : List Card :=
  board.map fun c => if c.id = id then f c else c

/-- The shuffled pairs; a shuffle is any order of them. -/
def memoryBoard (shuffled : List CoinSymbol) : Option (List Card) :=
  if shuffled.isPerm (SYMBOLS ++ SYMBOLS) then
    some (shuffled.mapIdx fun id symbol => ⟨id, symbol, false, false⟩)
  else none

/-! ## Requests -/

inductive Request where
  /-- The user of the token, if it has one. -/
  | gameStart (socket : ℕ) (userId : Option ℕ) (gameSlug : String) (now : ℤ)
  | flip (socket cardId : ℕ) (now : ℤ)
  | swap (socket : ℕ) (fromX fromY toX toY : ℤ) (fills : List Fill) (now : ℤ)
  | gameEnd (socket : ℕ) (now : ℤ)
  | disconnect (socket : ℕ) (now : ℤ)

inductive Answer where
  /-- The row of the game, and the random choices of a new session. -/
  | game (id : ℕ) (isActive : Bool) (shuffled : List CoinSymbol) (fill : Fill) (now : ℤ)
  | checkin (confirmed : Bool) (now : ℤ)
  | ok (now : ℤ)
  | error

def Answer.now (clock : ℤ) : Answer → ℤ
  | .game _ _ _ _ now | .checkin _ now | .ok now => now
  | .error => clock

/-- A session that was won, as its `finishGame` holds it, and when. -/
structure Win where
  session : ℕ
  userId : ℕ
  gameId : ℕ
  game : Game
  startTime : ℤ
  wonAt : ℤ

/-- A handler by the await it is at, or a timer. -/
inductive Call where
  | gameUpsert (socket userId : ℕ) (game : Game)
  | mismatch (socket session timer id₁ id₂ : ℕ) (dueAt : ℤ)
  | findCheckin (win : Win)
  | createPower (win : Win) (playedAt expiresAt : ℤ)

/-! ## finishGame -/

section Handlers

variable (config : Config) (db : Db)

def setSession (id : ℕ) (state : Session) : Db :=
  { db with sessions := db.sessions.modify id fun _ => state }

def clearMemoryMismatchTimer (state : Session) : Session :=
  match state.play with
  | .memory board flipped _ => { state with play := .memory board flipped none }
  | .match3 _ => state

/-- The fastest a person can finish. -/
def MIN_PLAY_MS : ℤ := 15000

/-- Up to the query for the check-in, which only a success gets to. -/
def finishGame (socket id : ℕ) (state : Session) (success : Bool) (now : ℤ) : Db × List Call :=
  if state.isFinished then (setSession db id state, [])
  else
    let db := setSession db id { clearMemoryMismatchTimer state with isFinished := true }
    ({ db with
      bySocket := Function.update db.bySocket socket none
      lastFinish := Function.update db.lastFinish state.userId
        (Function.update (db.lastFinish state.userId) state.slug (some now)) },
      if success ∧ MIN_PLAY_MS ≤ now - state.startTime then
        [.findCheckin ⟨id, state.userId, state.gameId, state.slug, state.startTime, now⟩]
      else [])

/-! ## game:start -/

/-- Still cooling down: the last finish is less than a cooldown ago. -/
def onCooldown (userId : ℕ) (game : Game) (now : ℤ) : Bool :=
  (db.lastFinish userId game).any fun last => now - last < config.GAME_COOLDOWN_MS

/-- The session of a socket, if it has one. -/
def sessionOf (socket : ℕ) : Option (ℕ × Session) :=
  (db.bySocket socket).bind fun id => (db.sessions.row id).map fun state => (id, state)

/-- `clearMemoryMismatchTimer(GAME_SESSIONS.get(socket.id))`. -/
def clearSessionTimer (socket : ℕ) : Db :=
  match sessionOf db socket with
  | none => db
  | some (id, state) => setSession db id (clearMemoryMismatchTimer state)

/-- The check of the slug comes after that of the cooldown, which an unknown
slug has none of. -/
def gameStart (socket : ℕ) (userId : Option ℕ) (gameSlug : String) (now : ℤ) : Db × List Call :=
  let db := clearSessionTimer db socket
  match userId.filter (· ≠ 0), gameOf gameSlug with
  | some userId, some game =>
      (db, if onCooldown config db userId game now then [] else [.gameUpsert socket userId game])
  | _, _ => (db, [])

def newSession (userId gameId : ℕ) (play : Play) (now : ℤ) : Session where
  gameId := gameId
  userId := userId
  score := 0
  isFinished := false
  startTime := now
  play := play

/-- `none` where the random choices are not such. -/
def startedPlay (game : Game) (shuffled : List CoinSymbol) (fill : Fill) : Option Play :=
  match game with
  | .cryptoMemory => (memoryBoard shuffled).map fun board => .memory board [] none
  | .cryptoMatch3 => (generateStableBoard MATCH3_SYMBOLS fill).map .match3

def gameStarted (socket userId gameId : ℕ) (play : Play) (now : ℤ) : Db :=
  { db with
    sessions := db.sessions.insert (newSession userId gameId play now)
    bySocket := Function.update db.bySocket socket (some db.sessions.nextId) }

/-! ## game:action -/

/-- The second card of a pair has been flipped. -/
def pairFlipped (socket id : ℕ) (state : Session) (board : List Card) (c₁ c₂ : Card)
    (timer : Option ℕ) (now : ℤ) : Db × List Call :=
  if c₁.symbol = c₂.symbol then
    let board := setCard (setCard board c₁.id fun c => { c with isMatched := true }) c₂.id
      fun c => { c with isMatched := true }
    let state := { state with score := state.score + 250, play := .memory board [] timer }
    if board.all (·.isMatched) then finishGame db socket id state true now
    else (setSession db id state, [])
  else
    ({ setSession db id
        { state with play := .memory board [c₁.id, c₂.id] (some db.nextTimer) } with
      nextTimer := db.nextTimer + 1 },
      [.mismatch socket id db.nextTimer c₁.id c₂.id (now + config.MEMORY_MISMATCH_TOTAL_MS)])

def flip (socket cardId : ℕ) (now : ℤ) : Db × List Call :=
  match sessionOf db socket with
  | none => (db, [])
  | some (id, state) =>
      match state.play with
      | .match3 _ => (db, [])
      | .memory board flipped timer =>
          if state.isFinished ∨ 2 ≤ flipped.length then (db, [])
          else match findCard board cardId with
            | none => (db, [])
            | some card =>
                if card.isFlipped ∨ card.isMatched then (db, [])
                else
                  let board := setCard board cardId fun c => { c with isFlipped := true }
                  let flipped := flipped ++ [cardId]
                  match flipped.filterMap (findCard board) with
                  | [c₁, c₂] => pairFlipped config db socket id state board c₁ c₂ timer now
                  | _ =>
                      (setSession db id { state with play := .memory board flipped timer }, [])

def swap (socket : ℕ) (fromX fromY toX toY : ℤ) (fills : List Fill) (now : ℤ) :
    Option (Db × List Call) :=
  match sessionOf db socket with
  | none => some (db, [])
  | some (id, state) =>
      match state.play with
      | .memory .. => some (db, [])
      | .match3 board =>
          if state.isFinished then some (db, [])
          else (swapped board fromX fromY toX toY fills).map fun out =>
            match out with
            | none => (db, [])
            | some (board, totalPoints) =>
                let state :=
                  { state with score := state.score + totalPoints, play := .match3 board }
                if 1500 ≤ state.score then finishGame db socket id state true now
                else (setSession db id state, [])

/-- The callback of the timer. -/
def mismatch (socket id timer id₁ id₂ : ℕ) : Db :=
  match db.sessions.row id with
  | some state =>
      match state.play with
      | .memory board flipped (some set) =>
          if set ≠ timer then db
          else if db.bySocket socket ≠ some id ∨ state.isFinished then
            setSession db id { state with play := .memory board flipped none }
          else
            match findCard board id₁, findCard board id₂ with
            | some c₁, some c₂ =>
                let board := if c₁.isMatched ∨ c₂.isMatched then board
                  else setCard (setCard board id₁ fun c => { c with isFlipped := false }) id₂
                    fun c => { c with isFlipped := false }
                setSession db id { state with play := .memory board [] none }
            | _, _ => setSession db id { state with play := .memory board [] none }
      | _ => db
  | none => db

def gameEnd (socket : ℕ) (now : ℤ) : Db × List Call :=
  match sessionOf db socket with
  | none => (db, [])
  | some (id, state) =>
      if state.isFinished then (db, []) else finishGame db socket id state false now

def disconnect (socket : ℕ) : Db :=
  let db := clearSessionTimer db socket
  { db with bySocket := Function.update db.bySocket socket none }

/-! ## Steps -/

def handle : Request → Option (Db × List Call)
  | .gameStart socket userId gameSlug now => some (gameStart config db socket userId gameSlug now)
  | .flip socket cardId now => some (flip config db socket cardId now)
  | .swap socket fromX fromY toX toY fills now => swap db socket fromX fromY toX toY fills now
  | .gameEnd socket now => some (gameEnd db socket now)
  | .disconnect socket _ => some (disconnect db socket, [])

def Request.now : Request → ℤ
  | .gameStart _ _ _ now | .flip _ _ now | .swap _ _ _ _ _ _ now | .gameEnd _ now
  | .disconnect _ now => now

def start (r : Request) : Option (Db × List Call) :=
  if db.clock ≤ r.now then handle config { db with clock := r.now } r else none

def powerDays (confirmed : Bool) : ℤ := if confirmed then config.GAME_POWER_DAYS else 1

def createPower (win : Win) (playedAt expiresAt now : ℤ) : Db :=
  { db with
    powers := ⟨win.userId, win.gameId, playedAt, expiresAt, win.game, win.session, now⟩
      :: db.powers }

/-- `none` for an answer that a call cannot get. -/
def goOn : Call → Answer → Option (Db × Option Call)
  | .mismatch .., .error => none
  | _, .error => some (db, none)
  | .gameUpsert socket userId game, .game gameId isActive shuffled fill now =>
      if !isActive then some (db, none)
      else (startedPlay game shuffled fill).map fun play =>
        (gameStarted db socket userId gameId play now, none)
  | .mismatch socket session timer id₁ id₂ dueAt, .ok now =>
      if dueAt ≤ now then some (mismatch db socket session timer id₁ id₂, none) else none
  | .findCheckin win, .checkin confirmed now =>
      some (db, some (.createPower win now
        (now + powerDays config confirmed * 24 * 60 * 60 * 1000)))
  | .createPower win playedAt expiresAt, .ok now =>
      some (createPower db win playedAt expiresAt now, none)
  | _, _ => none

def resume (c : Call) (a : Answer) : Option (Db × Option Call) :=
  if db.clock ≤ a.now db.clock then goOn config { db with clock := a.now db.clock } c a else none

end Handlers

def service (config : Config) : Service Db Call Request Answer where
  start := start config
  resume := resume config

end BlockMiner.SocketGames
