import BlockMiner.Identifiers

/-!
# Sessions and passwords

`routes/auth.js`, `utils/authTokens.js`, `middleware/auth.js` and the two-factor requests
of `userController.js`. A JWT is a term: what verifies was signed here. Access tokens and
reset tokens are signed with one secret, for one issuer and one audience.

A request reads its user's row once, decides, and writes; in between other requests may
run. bcrypt, TOTP, the configuration and the order in which the database has its rows
are parameters. The bodies are typed; the anti-bot headers, which only refuse, the rate
limits, the refresh tokens, which nothing reads, and the audit log are left out.
-/

namespace BlockMiner.Authentication

open Identifiers (RegisterBody registerSchema normalizeIdentifier normalizeEmail)

structure Env where
  identifiers : Identifiers.Env
  /-- The rows of a table as a scan finds them. -/
  scan : List (ℕ × Identifiers.User) → List (ℕ × Identifiers.User)
  /-- `bcrypt.hash`, of a password with a salt. -/
  hash : String → String → String
  compare : String → String → Bool
  /-- `authenticator.check(token, secret)` -/
  check : String → Option String → ℕ → Bool
  isSmtpConfigured : Bool
  ADMIN_SECURITY_CODE : Option String
  ACCESS_TOKEN_TTL : ℕ
  PASSWORD_RESET_TOKEN_TTL : ℕ

structure User extends Identifiers.User where
  passwordHash : String
  isBanned : Bool
  isTwoFactorEnabled : Bool
  twoFactorSecret : Option String

/-- The payload of a token; `none` is a claim that it does not have. -/
structure Jwt where
  sub : ℕ
  typ : Option String
  name : Option String
  email : Option String
  exp : ℕ
deriving DecidableEq

/-- What a token was issued for, with the user's row as the request read it. -/
inductive Origin where
  | register
  | login (user : User) (password : String) (twoFactorToken : Option String) (now : ℕ)
  | forgotPassword

/-- Who gets a token. -/
inductive Delivery where
  | response
  | mail (recipient : String)
deriving DecidableEq

structure Issue where
  token : Jwt
  userId : ℕ
  origin : Origin
  delivery : Delivery

/-- What a new password was set for. -/
inductive Cause where
  | currentPassword (user : User) (password : String)
  | adminKey (key : Option String)
  | resetToken (token : Jwt)

/-- What a request that was let through is going to write. -/
inductive Effect where
  | register (user : User)
  | login (userId : ℕ) (user : User) (password : String) (twoFactorToken : Option String)
      (now : ℕ) (clientIp : String)
  | forgotPassword (userId : ℕ) (user : User)
  | setPassword (userId : ℕ) (passwordHash : String) (cause : Cause)
  | setSecret (userId : ℕ) (secret : String)
  | enable (userId : ℕ)
  | disable (userId : ℕ)

/-- The users and the requests that have not written yet; what was signed, which tokens
were accepted, and which passwords were set. -/
structure State where
  users : Table User
  pending : Table Effect
  issued : List Issue
  accepted : List (Jwt × ℕ)
  changes : List (ℕ × Cause)

/-- Users from before, and no token. -/
def State.start (users : Table User) : State := ⟨users, .empty, [], [], []⟩

/-! ## Tokens -/

section Tokens

variable (env : Env) (s : State)

def signAccessToken (userId : ℕ) (user : User) (now : ℕ) : Jwt where
  sub := userId
  typ := none
  name := some user.name
  email := some user.email
  exp := now + env.ACCESS_TOKEN_TTL

def signPasswordResetToken (userId now : ℕ) : Jwt where
  sub := userId
  typ := some "pwd_reset"
  name := none
  email := none
  exp := now + env.PASSWORD_RESET_TOKEN_TTL

/-- `jwt.verify`, for the issuer and the audience of both kinds. -/
def verifyAccessToken (now : ℕ) (token : Jwt) : Option Jwt :=
  if token ∈ s.issued.map Issue.token ∧ now < token.exp then some token else none

def verifyPasswordResetToken (now : ℕ) (token : Jwt) : Option Jwt :=
  (verifyAccessToken s now token).filter fun payload => payload.typ = some "pwd_reset"

/-- The user that is let in. -/
def requireAuth (now : ℕ) (token : Jwt) : Option ℕ :=
  (verifyAccessToken s now token).bind fun payload =>
    if payload.sub = 0 then none
    else (s.users.row payload.sub).bind fun user =>
      if user.isBanned then none else some payload.sub

end Tokens

/-! ## The requests -/

inductive Request where
  | register (clientIp : String) (body : RegisterBody) (salt : String)
  | login (clientIp identifier password : String) (twoFactorToken : Option String)
  | forgotPassword (email : String)
  | legacyPasswordReset (resetToken : Jwt) (newPassword salt : String)
  | resetPasswordManual (email newPassword : String) (adminKey : Option String) (salt : String)
  | forcePasswordReset (email newPassword : String) (adminKey : Option String) (salt : String)
  | changePassword (token : Jwt) (currentPassword newPassword salt : String)
  | generate2FA (token : Jwt) (secret : String)
  | enable2FA (token : Jwt) (code : String)
  | disable2FA (token : Jwt) (code : String)
  /-- Any other request behind `requireAuth`. -/
  | visit (token : Jwt)

/-- The token that `requireAuth` is shown. -/
def Request.accessToken : Request → Option Jwt
  | .changePassword token _ _ _ | .generate2FA token _ | .enable2FA token _ | .disable2FA token _
  | .visit token => some token
  | _ => none

section Handlers

variable (env : Env) (s : State)

def findUserByIdentifier (identifier : String) : Option (ℕ × User) :=
  (Identifiers.findUserByIdentifier env.identifiers
      (env.scan (s.users.rows.map fun r => (r.1, r.2.toUser))) identifier).bind fun r =>
    (s.users.row r.1).map fun user => (r.1, user)

def register (clientIp : String) (body : RegisterBody) (salt : String) : Option Effect :=
  (registerSchema env.identifiers body).bind fun body =>
    let normalizedUsername := normalizeIdentifier body.username
    let normalizedEmail := normalizeEmail body.email
    if 2 ≤ (s.users.findMany fun _ u => u.ip = clientIp).length then none
    else if (s.users.findFirst fun _ u => Identifiers.existing env.identifiers normalizedUsername
        normalizedEmail u.toUser).isSome then none
    else
      some <| .register
        { name := body.username, username := some normalizedUsername, email := normalizedEmail
          ip := clientIp, passwordHash := env.hash body.password salt, isBanned := false
          isTwoFactorEnabled := false, twoFactorSecret := none }

def login (now : ℕ) (clientIp identifier password : String) (twoFactorToken : Option String) :
    Option Effect :=
  if trim identifier = "" ∨ password = "" then none
  else (findUserByIdentifier env s (trim identifier)).bind fun r =>
    if !env.compare password r.2.passwordHash then none
    else if r.2.isBanned then none
    else if r.2.isTwoFactorEnabled && !twoFactorToken.any fun code =>
        code ≠ "" && env.check code r.2.twoFactorSecret now then none
    else some (.login r.1 r.2 password twoFactorToken now clientIp)

def forgotPassword (email : String) : Option Effect :=
  if trim email = "" then none
  else (findUserByIdentifier env s (normalizeEmail email)).map fun r => .forgotPassword r.1 r.2

def legacyPasswordReset (now : ℕ) (resetToken : Jwt) (newPassword salt : String) : Option Effect :=
  if utf16Length newPassword < 8 then none
  else (verifyPasswordResetToken s now resetToken).bind fun payload =>
    (s.users.row payload.sub).map fun _ =>
      .setPassword payload.sub (env.hash newPassword salt) (.resetToken resetToken)

def resetPasswordManual (email newPassword : String) (adminKey : Option String) (salt : String) :
    Option Effect :=
  if adminKey ≠ env.ADMIN_SECURITY_CODE then none
  else (s.users.findFirst fun _ u => u.email = email).map fun r =>
    .setPassword r.1 (env.hash newPassword salt) (.adminKey adminKey)

def forcePasswordReset (email newPassword : String) (adminKey : Option String) (salt : String) :
    Option Effect :=
  if !adminKey.any (· ≠ "") || adminKey ≠ env.ADMIN_SECURITY_CODE then none
  else if utf16Length newPassword < 8 then none
  else (findUserByIdentifier env s (normalizeEmail email)).map fun r =>
    .setPassword r.1 (env.hash newPassword salt) (.adminKey adminKey)

def changePassword (userId : ℕ) (currentPassword newPassword salt : String) : Option Effect :=
  if utf16Length newPassword < 8 then none
  else (s.users.row userId).bind fun user =>
    if !env.compare currentPassword user.passwordHash then none
    else some (.setPassword userId (env.hash newPassword salt)
      (.currentPassword user currentPassword))

def generate2FA (userId : ℕ) (secret : String) : Option Effect :=
  (s.users.row userId).bind fun user =>
    if user.isTwoFactorEnabled then none else some (.setSecret userId secret)

def enable2FA (now userId : ℕ) (code : String) : Option Effect :=
  (s.users.row userId).bind fun user =>
    if user.isTwoFactorEnabled then none
    else if !user.twoFactorSecret.any (· ≠ "") then none
    else if !env.check code user.twoFactorSecret now then none
    else some (.enable userId)

def disable2FA (now userId : ℕ) (code : String) : Option Effect :=
  (s.users.row userId).bind fun user =>
    if !user.isTwoFactorEnabled then none
    else if !env.check code user.twoFactorSecret now then none
    else some (.disable userId)

/-- What a request decides to write; `none` is a refusal, or nothing to write. -/
def handle (now : ℕ) : Request → Option Effect
  | .register clientIp body salt => register env s clientIp body salt
  | .login clientIp identifier password twoFactorToken =>
      login env s now clientIp identifier password twoFactorToken
  | .forgotPassword email => forgotPassword env s email
  | .legacyPasswordReset resetToken newPassword salt =>
      legacyPasswordReset env s now resetToken newPassword salt
  | .resetPasswordManual email newPassword adminKey salt =>
      resetPasswordManual env s email newPassword adminKey salt
  | .forcePasswordReset email newPassword adminKey salt =>
      forcePasswordReset env s email newPassword adminKey salt
  | .changePassword token currentPassword newPassword salt =>
      (requireAuth s now token).bind fun userId =>
        changePassword env s userId currentPassword newPassword salt
  | .generate2FA token secret =>
      (requireAuth s now token).bind fun userId => generate2FA s userId secret
  | .enable2FA token code =>
      (requireAuth s now token).bind fun userId => enable2FA env s now userId code
  | .disable2FA token code =>
      (requireAuth s now token).bind fun userId => disable2FA env s now userId code
  | .visit _ => none

/-- A token that was accepted, with its user. -/
def acceptance (now : ℕ) (r : Request) : Option (Jwt × ℕ) :=
  r.accessToken.bind fun token => (requireAuth s now token).map fun userId => (token, userId)

/-! ## The writes -/

/-- The write of a request, at `now`, and its answer; `none` where the database refuses it. -/
def perform (now : ℕ) : Effect → Option State
  | .register user =>
      if (s.users.findFirst fun _ u => u.email = user.email || u.username = user.username).isSome
      then none
      else
        some { s with
          users := s.users.insert user
          issued := s.issued ++ [⟨signAccessToken env s.users.nextId user now, s.users.nextId,
            .register, .response⟩] }
  | .login userId user password twoFactorToken readAt clientIp =>
      some { s with
        users := s.users.modify userId fun u => { u with ip := clientIp }
        issued := s.issued ++ [⟨signAccessToken env userId user now, userId,
          .login user password twoFactorToken readAt, .response⟩] }
  | .forgotPassword userId user =>
      some { s with
        issued := s.issued ++ [⟨signPasswordResetToken env userId now, userId, .forgotPassword,
          if env.isSmtpConfigured then .mail user.email else .response⟩] }
  | .setPassword userId passwordHash cause =>
      some { s with
        users := s.users.modify userId fun u => { u with passwordHash }
        changes := s.changes ++ [(userId, cause)] }
  | .setSecret userId secret =>
      some { s with users := s.users.modify userId fun u =>
        { u with twoFactorSecret := some secret } }
  | .enable userId =>
      some { s with users := s.users.modify userId fun u =>
        { u with isTwoFactorEnabled := true } }
  | .disable userId =>
      some { s with users := s.users.modify userId fun u =>
        { u with isTwoFactorEnabled := false, twoFactorSecret := none } }

end Handlers

inductive Event where
  | request (now : ℕ) (r : Request)
  /-- A request that was let through writes. -/
  | finish (call now : ℕ)
  /-- It fails. -/
  | fail (call : ℕ)
  /-- An administrator. -/
  | ban (userId : ℕ) (isBanned : Bool)

section System

variable (env : Env)

def step (s : State) : Event → Option State
  | .request now r =>
      some { s with
        pending := (handle env s now r).elim s.pending s.pending.insert
        accepted := s.accepted ++ (acceptance s now r).toList }
  | .finish call now =>
      (s.pending.row call).bind fun effect =>
        perform env { s with pending := s.pending.delete call } now effect
  | .fail call => some { s with pending := s.pending.delete call }
  | .ban userId isBanned =>
      some { s with users := s.users.modify userId fun u => { u with isBanned } }

def system : System State Event := ⟨step env⟩

end System

end BlockMiner.Authentication
