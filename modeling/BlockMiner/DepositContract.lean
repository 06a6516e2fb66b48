import BlockMiner.Run
import Mathlib

/-!
# The deposit contract

`BlockMinerDeposit.sol`: deposits of native POL, with a record for each, and withdrawals
of the whole balance to the owner. A withdrawal sends the POL with a call, and an owner
that is a contract may call back before it returns, so a call is a tree. A call that
reverts leaves nothing behind; who has made it may carry on.

`Ownable`, `Pausable` and `ReentrancyGuard` are what OpenZeppelin documents. Gas is left
out (a call that runs out of it reverts), and so are the events of the three bases.
-/

namespace BlockMiner.DepositContract

abbrev Address := Fin (2 ^ 160)

instance neZero_address : NeZero (2 ^ 160 : ℕ) := ⟨pow_ne_zero 160 two_ne_zero⟩

/-- `0.01 ether`, in wei. -/
def MIN_DEPOSIT : ℕ := 10 ^ 16

structure DepositRecord where
  sender : Address
  amount : ℕ
  timestamp : ℕ
deriving DecidableEq

inductive Log where
  | DepositReceived (userId sender : Address) (amount timestamp : ℕ)
  | Withdrawn (recipient : Address) (amount : ℕ)
deriving DecidableEq

/-- POL that has left the contract, with who its owner was then. -/
structure Payment where
  recipient : Address
  amount : ℕ
  owner : Address

/-- The contract's storage, its balance and its logs, and what happened to the balance
from outside. -/
structure State where
  owner : Address
  paused : Bool
  entered : Bool
  totalDeposits : ℕ
  userDeposits : Address → List DepositRecord
  balance : ℕ
  logs : List Log
  /-- POL that came without a call. -/
  forced : ℕ
  payments : List Payment

/-- `constructor(initialOwner)`, at an address that may already hold POL. -/
def deploy (initialOwner : Address) (held : ℕ) : Option State :=
  if initialOwner = 0 then none
  else
    some
      { owner := initialOwner, paused := false, entered := false, totalDeposits := 0
        userDeposits := fun _ => [], balance := held, logs := [], forced := held, payments := [] }

/-- A call, from whom and with how much POL. -/
inductive Call where
  | deposit (sender : Address) (value : ℕ) (userId : Address)
  /-- What the owner does with the control it is given, and whether it takes the POL. -/
  | withdraw (sender : Address) (value : ℕ) (callback : List Call) (accepts : Bool)
  | pause (sender : Address) (value : ℕ)
  | unpause (sender : Address) (value : ℕ)
  | transferOwnership (sender : Address) (value : ℕ) (newOwner : Address)
  | renounceOwnership (sender : Address) (value : ℕ)
  /-- A plain transfer. -/
  | receive (sender : Address) (value : ℕ)
  /-- A transfer that runs no code. -/
  | force (value : ℕ)

/-! ## Modifiers -/

section Modifiers

variable (s : State)

def nonReentrant (body : State → Option State) : Option State :=
  if s.entered then none
  else (body { s with entered := true }).map fun t => { t with entered := false }

def onlyOwner (sender : Address) (body : Option State) : Option State :=
  if sender = s.owner then body else none

/-- A function that is not `payable`. -/
def nonPayable (value : ℕ) (body : Option State) : Option State :=
  if value = 0 then body else none

end Modifiers

/-- `uint256` addition. -/
def checkedAdd (a b : ℕ) : Option ℕ := if a + b < 2 ^ 256 then some (a + b) else none

/-! ## The functions -/

section Functions

variable (self : Address) (timestamp : ℕ)

def deposit (s : State) (sender : Address) (value : ℕ) (userId : Address) : Option State :=
  nonReentrant s fun s =>
    if s.paused then none
    else if value < MIN_DEPOSIT then none
    else if userId = 0 then none
    else if userId ≠ sender then none
    else
      (checkedAdd s.totalDeposits value).map fun totalDeposits =>
        { s with
          balance := s.balance + value
          totalDeposits
          userDeposits := Function.update s.userDeposits userId
            (s.userDeposits userId ++ [⟨sender, value, timestamp⟩])
          logs := s.logs ++ [.DepositReceived userId sender value timestamp] }

/-- The whole balance goes to an address. -/
def pay (s : State) (recipient : Address) : State :=
  { s with balance := 0, payments := s.payments ++ [⟨recipient, s.balance, s.owner⟩] }

def pause (s : State) : Option State := if s.paused then none else some { s with paused := true }

def unpause (s : State) : Option State :=
  if s.paused then some { s with paused := false } else none

def transferOwnership (s : State) (newOwner : Address) : Option State :=
  if newOwner = 0 then none else some { s with owner := newOwner }

mutual

/-- `none` where it reverts. -/
def call (s : State) : Call → Option State
  | .deposit sender value userId => deposit timestamp s sender value userId
  | .withdraw sender value callback accepts =>
      nonPayable value <| onlyOwner s sender <| nonReentrant s fun s =>
        if s.balance = 0 then none
        -- `receive` of the contract itself reverts
        else if accepts && s.owner ≠ self then
          let returned := callAll (pay s s.owner) callback
          some { returned with logs := returned.logs ++ [.Withdrawn s.owner s.balance] }
        else none
  | .pause sender value => nonPayable value <| onlyOwner s sender <| pause s
  | .unpause sender value => nonPayable value <| onlyOwner s sender <| unpause s
  | .transferOwnership sender value newOwner =>
      nonPayable value <| onlyOwner s sender <| transferOwnership s newOwner
  | .renounceOwnership sender value =>
      nonPayable value <| onlyOwner s sender <| some { s with owner := 0 }
  | .receive _ _ => none
  | .force value => some { s with balance := s.balance + value, forced := s.forced + value }

/-- One call after the other. -/
def callAll (s : State) : List Call → State
  | [] => s
  | c :: cs => callAll ((call s c).getD s) cs

end

/-- A call with the timestamp of its block. -/
structure Transaction where
  timestamp : ℕ
  call : Call

def system : System State Transaction :=
  ⟨fun s tx => some ((DepositContract.call self tx.timestamp s tx.call).getD s)⟩

end Functions

/-! ## Views -/

def getUserDeposits (s : State) (userId : Address) : List DepositRecord := s.userDeposits userId

def getDepositAmount (s : State) (user : Address) (timestamp : ℕ) : Option ℕ :=
  (s.userDeposits user).foldlM
    (fun total r => if r.timestamp = timestamp then checkedAdd total r.amount else some total) 0

end BlockMiner.DepositContract
