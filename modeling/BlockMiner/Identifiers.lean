import Mathlib.Data.List.Infix
import BlockMiner.JsText
import BlockMiner.Run
import BlockMiner.Table

/-!
# The identifiers of a user

`findUserByIdentifier` takes e-mail, username and name as one space of identifiers and
ignores case. Two requests write these columns: `/register` looks for the new username
among usernames and names and for the new e-mail among e-mails, ignoring case;
`changeUsername` looks for the new username among usernames, letter by letter.

What zod takes for an e-mail and how the database folds case are parameters. Of the
columns those are here that the two requests and the lookup read.
-/

namespace BlockMiner.Identifiers

structure Env where
  /-- `z.string().email()` -/
  isEmail : String → Bool
  /-- `mode: "insensitive"` compares character by character, folded. -/
  foldChar : Char → Char
  email_at : ∀ s, isEmail s = true → '@' ∈ s.toList
  fold_at : ∀ c, foldChar c = '@' ↔ c = '@'
  fold_lower : ∀ c, foldChar (lowerChar c) = foldChar c

structure User where
  name : String
  username : Option String
  email : String
  ip : String
deriving DecidableEq

structure Db where
  users : Table User

def Db.empty : Db := ⟨.empty⟩

def normalizeIdentifier (value : String) : String := trim value

def normalizeEmail (value : String) : String := toLowerCase (normalizeIdentifier value)

/-! ## Lookups -/

section Lookup

variable (env : Env)

def Env.fold (s : String) : String := String.ofList (s.toList.map env.foldChar)

/-- `{ equals, mode: "insensitive" }` -/
def equalsInsensitive (column value : String) : Bool := env.fold column = env.fold value

/-- `{ contains, mode: "insensitive" }` -/
def containsInsensitive (column value : String) : Bool :=
  (env.fold value).toList <:+: (env.fold column).toList

def endsWithInsensitive (column value : String) : Bool :=
  (env.fold value).toList <:+ (env.fold column).toList

/-- The condition of the first lookup. -/
def matchesIdentifier (identifier : String) (u : User) : Bool :=
  equalsInsensitive env u.email (normalizeEmail identifier)
    || u.username.any (equalsInsensitive env · (normalizeIdentifier identifier))
    || equalsInsensitive env u.name (normalizeIdentifier identifier)

/-- `rows` are the users in the order that the database has them in. -/
def firstLookup (rows : List (ℕ × User)) (identifier : String) : Option (ℕ × User) :=
  rows.find? fun r => matchesIdentifier env identifier r.2

/-- The fallback for corrupted e-mails, the largest id first. -/
def legacyLookup (rows : List (ℕ × User)) (identifier : String) : Option (ℕ × User) :=
  let found := rows.filter fun r =>
    endsWithInsensitive env r.2.email (normalizeEmail identifier)
      || containsInsensitive env r.2.email (normalizeEmail identifier)
  found.find? fun r => found.all fun r' => r'.1 ≤ r.1

def findUserByIdentifier (rows : List (ℕ × User)) (identifier : String) : Option (ℕ × User) :=
  match firstLookup env rows identifier with
  | some user => some user
  | none =>
      if '@' ∈ (normalizeIdentifier identifier).toList then legacyLookup env rows identifier
      else none

end Lookup

/-! ## The requests -/

inductive Refusal where
  | invalidRequestData
  | registrationLimitReached
  | userAlreadyExists
  | invalidUsername
  | usernameInUse
  | failed
deriving DecidableEq

structure RegisterBody where
  username : String
  email : String
  password : String
  acceptTerms : Bool

/-- `[a-zA-Z0-9._-]` -/
def isUsernameChar (c : Char) : Bool := c.isAlphanum || c = '.' || c = '_' || c = '-'

/-- What the schema makes of a body. -/
def registerSchema (env : Env) (body : RegisterBody) : Option RegisterBody :=
  let username := trim body.username
  let email := trim body.email
  if 3 ≤ utf16Length username ∧ utf16Length username ≤ 24 ∧ username.toList.all isUsernameChar
      ∧ env.isEmail email ∧ 8 ≤ utf16Length body.password ∧ body.acceptTerms then
    some { body with username, email }
  else none

/-- The user that a registration looks for. -/
def existing (env : Env) (username email : String) (u : User) : Bool :=
  equalsInsensitive env u.email email || u.username.any (equalsInsensitive env · username)
    || equalsInsensitive env u.name username

def register (env : Env) (db : Db) (clientIp : String) (body : RegisterBody) :
    Except Refusal Db :=
  match registerSchema env body with
  | none => .error .invalidRequestData
  | some body =>
      let normalizedUsername := normalizeIdentifier body.username
      let normalizedEmail := normalizeEmail body.email
      if 2 ≤ (db.users.findMany fun _ u => u.ip = clientIp).length then
        .error .registrationLimitReached
      else if (db.users.findFirst fun _ u =>
          existing env normalizedUsername normalizedEmail u).isSome then
        .error .userAlreadyExists
      else
        .ok ⟨db.users.insert
          { name := body.username, username := some normalizedUsername, email := normalizedEmail
            ip := clientIp }⟩

def renamed (username : String) (u : User) : User :=
  { u with username := some username, name := username }

def changeUsername (db : Db) (userId : ℕ) (username : String) : Except Refusal Db :=
  if utf16Length (trim username) < 3 then .error .invalidUsername
  else if (db.users.findFirst fun id u =>
      u.username = some (trim username) && id ≠ userId).isSome then
    .error .usernameInUse
  else if (db.users.row userId).isNone then .error .failed
  else .ok ⟨db.users.modify userId (renamed (trim username))⟩

inductive Request where
  | register (clientIp : String) (body : RegisterBody)
  | changeUsername (userId : ℕ) (username : String)

def handle (env : Env) (db : Db) : Request → Except Refusal Db
  | .register clientIp body => register env db clientIp body
  | .changeUsername userId username => changeUsername db userId username

/-- Only a request that succeeds is a step. -/
def system (env : Env) : System Db Request := ⟨fun db request => (handle env db request).toOption⟩

end BlockMiner.Identifiers
