import BlockMiner.Authentication
import BlockMiner.IdentifiersUnambiguous

/-!
# What a session and a new password rest on

A token that `requireAuth` lets in was signed for a registration or a login, unless it is
a reset token: both kinds verify alike. A reset token is mailed, unless there is no mail:
then it is in the answer to whoever has asked for it. And where no admin key is
configured, the manual reset takes a request without one.
-/

namespace BlockMiner.Authentication

variable (env : Env)

/-! ## What the properties ask for -/

/-- A registration, or a login with the password and, where it was enabled, a valid code. -/
def Origin.Proves : Origin → Prop
  | .register => True
  | .login user password twoFactorToken now => env.compare password user.passwordHash = true
      ∧ (user.isTwoFactorEnabled = true →
        ∃ code ∈ twoFactorToken, env.check code user.twoFactorSecret now = true)
  | .forgotPassword => False

/-- What a new password of a user may be set for. -/
def Cause.Allows (s : State) (userId : ℕ) : Cause → Prop
  | .currentPassword user password => env.compare password user.passwordHash = true
  | .adminKey key => ∃ code, code ≠ "" ∧ env.ADMIN_SECURITY_CODE = some code ∧ key = some code
  | .resetToken token => token.sub = userId ∧ token.typ = some "pwd_reset"
      ∧ (∃ i ∈ s.issued, i.token = token)
      ∧ ∃ user, s.users.row userId = some user
        ∧ ∀ i ∈ s.issued, i.token = token → i.delivery = .mail user.email

/-- The user in an effect is the row that its request has read. -/
def Effect.Read (s : State) : Effect → Prop
  | .login userId user _ _ _ _ | .forgotPassword userId user
  | .setPassword userId _ (.currentPassword user _) => s.users.row userId = some user
  | _ => True

structure Sound (s : State) : Prop where
  sessions : ∀ a ∈ s.accepted, ∃ i ∈ s.issued, i.token = a.1 ∧ i.userId = a.2
    ∧ i.origin.Proves env
  passwords : ∀ c ∈ s.changes, c.2.Allows env s c.1
  /-- A password does not change without an entry. -/
  logged : ∀ e t, (system env).step s e = some t → ∀ u user user', s.users.row u = some user →
    t.users.row u = some user' → user'.passwordHash ≠ user.passwordHash →
      ∃ cause, t.changes = s.changes ++ [(u, cause)]
  read : ∀ now r effect, handle env s now r = some effect → effect.Read s

/-! ## The condition -/

/-- A reset token that still verifies, of a user who is let in. -/
def isLiveResetToken (s : State) (now : ℕ) (token : Jwt) : Bool :=
  (verifyPasswordResetToken s now token).any fun payload =>
    payload.sub ≠ 0 && (s.users.row payload.sub).any fun user => !user.isBanned

/-- No request shows a live reset token as a session; there is mail where a reset token
resets a password; and there is an admin key where one is asked for. -/
def Guarded (s : State) : Event → Prop
  | .request now r => (∀ token ∈ r.accessToken, isLiveResetToken s now token = false)
      ∧ match r with
        | .legacyPasswordReset resetToken newPassword _ =>
            env.isSmtpConfigured = true ∨ utf16Length newPassword < 8
              ∨ ((verifyPasswordResetToken s now resetToken).bind (s.users.row ·.sub)).isNone
        | .resetPasswordManual email _ adminKey _ =>
            adminKey.any (· ≠ "") = true ∨ adminKey ≠ env.ADMIN_SECURITY_CODE
              ∨ (s.users.findFirst fun _ u => u.email = email).isNone
        | _ => True
  | _ => True

instance decidableProves : ∀ origin : Origin, Decidable (origin.Proves env)
  | .register => inferInstanceAs (Decidable True)
  | .login _ _ _ _ => inferInstanceAs (Decidable (_ ∧ (_ → ∃ code ∈ _, _)))
  | .forgotPassword => inferInstanceAs (Decidable False)

instance decidableGuarded (s : State) : ∀ e, Decidable (Guarded env s e)
  | .request _ (.legacyPasswordReset _ _ _) | .request _ (.resetPasswordManual _ _ _ _) =>
      inferInstanceAs (Decidable (_ ∧ (_ ∨ _ ∨ _)))
  | .request _ (.register _ _ _) | .request _ (.login _ _ _ _) | .request _ (.forgotPassword _)
  | .request _ (.forcePasswordReset _ _ _ _) | .request _ (.changePassword _ _ _ _)
  | .request _ (.generate2FA _ _) | .request _ (.enable2FA _ _) | .request _ (.disable2FA _ _)
  | .request _ (.visit _) => inferInstanceAs (Decidable (_ ∧ True))
  | .finish _ _ | .fail _ | .ban _ _ => inferInstanceAs (Decidable True)

/-! ## What was read -/

section Requests

variable {env : Env} {s t : State} {now : ℕ}

theorem verifyAccessToken_eq_some {token payload : Jwt}
    (h : verifyAccessToken s now token = some payload) :
    payload = token ∧ ∃ i ∈ s.issued, i.token = token := by
  obtain ⟨⟨hmem, -⟩, h⟩ := Option.ite_none_right_eq_some.mp h
  exact ⟨(Option.some.inj h).symm, List.mem_map.mp hmem⟩

theorem verifyPasswordResetToken_eq_some {token payload : Jwt}
    (h : verifyPasswordResetToken s now token = some payload) :
    payload = token ∧ token.typ = some "pwd_reset" ∧ ∃ i ∈ s.issued, i.token = token := by
  obtain ⟨hverify, htyp⟩ := Option.filter_eq_some_iff.mp h
  obtain ⟨rfl, hissued⟩ := verifyAccessToken_eq_some hverify
  exact ⟨rfl, of_decide_eq_true htyp, hissued⟩

/-- What is let in: a token that was issued, of a user who is not banned. -/
theorem requireAuth_eq_some {token : Jwt} {userId : ℕ}
    (h : requireAuth s now token = some userId) :
    token.sub = userId ∧ (∃ i ∈ s.issued, i.token = token)
      ∧ (token.typ = some "pwd_reset" → isLiveResetToken s now token = true) := by
  obtain ⟨payload, hverify, h⟩ := Option.bind_eq_some_iff.mp h
  obtain ⟨hsub, h⟩ := Option.ite_none_left_eq_some.mp h
  obtain ⟨user, hrow, h⟩ := Option.bind_eq_some_iff.mp h
  obtain ⟨hbanned, h⟩ := Option.ite_none_left_eq_some.mp h
  obtain rfl := Option.some.inj h
  obtain ⟨rfl, hissued⟩ := verifyAccessToken_eq_some hverify
  refine ⟨rfl, hissued, fun htyp => ?_⟩
  simp [isLiveResetToken, verifyPasswordResetToken, hverify, Option.filter, htyp, hrow, hsub,
    hbanned]

theorem findUserByIdentifier_row {identifier : String} {r : ℕ × User}
    (h : findUserByIdentifier env s identifier = some r) : s.users.row r.1 = some r.2 := by
  obtain ⟨found, -, h⟩ := Option.bind_eq_some_iff.mp h
  obtain ⟨user, hrow, rfl⟩ := Option.map_eq_some_iff.mp h
  exact hrow

variable (env s now) in
/-- **Inversion.** What a request that is let through has checked. -/
inductive Decides : Request → Effect → Prop
  | register (clientIp : String) (body : Identifiers.RegisterBody) (salt : String)
      (user : User) :
      Decides (.register clientIp body salt) (.register user)
  | login (clientIp identifier password : String) (twoFactorToken : Option String) (userId : ℕ)
      (user : User) (hrow : s.users.row userId = some user)
      (hproves : (Origin.login user password twoFactorToken now).Proves env) :
      Decides (.login clientIp identifier password twoFactorToken)
        (.login userId user password twoFactorToken now clientIp)
  | forgotPassword (email : String) (userId : ℕ) (user : User)
      (hrow : s.users.row userId = some user) :
      Decides (.forgotPassword email) (.forgotPassword userId user)
  | legacyPasswordReset (token : Jwt) (newPassword salt : String) (user : User)
      (hlong : ¬utf16Length newPassword < 8)
      (hverify : verifyPasswordResetToken s now token = some token)
      (hrow : s.users.row token.sub = some user) :
      Decides (.legacyPasswordReset token newPassword salt)
        (.setPassword token.sub (env.hash newPassword salt) (.resetToken token))
  | resetPasswordManual (email newPassword salt : String) (r : ℕ × User)
      (hfound : s.users.findFirst (fun _ u => u.email = email) = some r) :
      Decides (.resetPasswordManual email newPassword env.ADMIN_SECURITY_CODE salt)
        (.setPassword r.1 (env.hash newPassword salt) (.adminKey env.ADMIN_SECURITY_CODE))
  | forcePasswordReset (email newPassword salt : String) (userId : ℕ)
      (hkey : env.ADMIN_SECURITY_CODE.any (· ≠ "") = true) :
      Decides (.forcePasswordReset email newPassword env.ADMIN_SECURITY_CODE salt)
        (.setPassword userId (env.hash newPassword salt) (.adminKey env.ADMIN_SECURITY_CODE))
  | changePassword (token : Jwt) (currentPassword newPassword salt : String) (userId : ℕ)
      (user : User) (hrow : s.users.row userId = some user)
      (hcompare : env.compare currentPassword user.passwordHash = true) :
      Decides (.changePassword token currentPassword newPassword salt)
        (.setPassword userId (env.hash newPassword salt) (.currentPassword user currentPassword))
  | generate2FA (token : Jwt) (secret : String) (userId : ℕ) :
      Decides (.generate2FA token secret) (.setSecret userId secret)
  | enable2FA (token : Jwt) (code : String) (userId : ℕ) :
      Decides (.enable2FA token code) (.enable userId)
  | disable2FA (token : Jwt) (code : String) (userId : ℕ) :
      Decides (.disable2FA token code) (.disable userId)

theorem handle_decides {r : Request} {effect : Effect} (h : handle env s now r = some effect) :
    Decides env s now r effect := by
  cases r with
  | register clientIp body salt =>
      replace h : register env s clientIp body salt = some effect := h
      obtain ⟨parsed, -, h⟩ := Option.bind_eq_some_iff.mp h
      obtain ⟨-, h⟩ := Option.ite_none_left_eq_some.mp h
      obtain ⟨-, h⟩ := Option.ite_none_left_eq_some.mp h
      obtain rfl := Option.some.inj h
      exact .register clientIp body salt _
  | login clientIp identifier password twoFactorToken =>
      replace h : login env s now clientIp identifier password twoFactorToken = some effect := h
      obtain ⟨-, h⟩ := Option.ite_none_left_eq_some.mp h
      obtain ⟨⟨userId, user⟩, hfound, h⟩ := Option.bind_eq_some_iff.mp h
      obtain ⟨hcompare, h⟩ := Option.ite_none_left_eq_some.mp h
      obtain ⟨-, h⟩ := Option.ite_none_left_eq_some.mp h
      obtain ⟨hcode, h⟩ := Option.ite_none_left_eq_some.mp h
      obtain rfl := Option.some.inj h
      refine .login clientIp identifier password twoFactorToken userId user
        (findUserByIdentifier_row hfound) ⟨by simpa using hcompare, fun henabled => ?_⟩
      simp only [henabled, Bool.true_and, Bool.not_eq_true', Bool.not_eq_false,
        Option.any_eq_true, Bool.and_eq_true] at hcode
      obtain ⟨code, hmem, -, hcheck⟩ := hcode
      exact ⟨code, hmem, hcheck⟩
  | forgotPassword email =>
      replace h : forgotPassword env s email = some effect := h
      obtain ⟨-, h⟩ := Option.ite_none_left_eq_some.mp h
      obtain ⟨⟨userId, user⟩, hfound, rfl⟩ := Option.map_eq_some_iff.mp h
      exact .forgotPassword email userId user (findUserByIdentifier_row hfound)
  | legacyPasswordReset resetToken newPassword salt =>
      replace h : legacyPasswordReset env s now resetToken newPassword salt = some effect := h
      obtain ⟨hlong, h⟩ := Option.ite_none_left_eq_some.mp h
      obtain ⟨payload, hverify, h⟩ := Option.bind_eq_some_iff.mp h
      obtain ⟨user, hrow, rfl⟩ := Option.map_eq_some_iff.mp h
      obtain ⟨rfl, -, -⟩ := verifyPasswordResetToken_eq_some hverify
      exact .legacyPasswordReset payload newPassword salt user hlong hverify hrow
  | resetPasswordManual email newPassword adminKey salt =>
      replace h : resetPasswordManual env s email newPassword adminKey salt = some effect := h
      obtain ⟨hkey, h⟩ := Option.ite_none_left_eq_some.mp h
      obtain ⟨found, hfound, rfl⟩ := Option.map_eq_some_iff.mp h
      obtain rfl := not_not.mp hkey
      exact .resetPasswordManual email newPassword salt found hfound
  | forcePasswordReset email newPassword adminKey salt =>
      replace h : forcePasswordReset env s email newPassword adminKey salt = some effect := h
      obtain ⟨hkey, h⟩ := Option.ite_none_left_eq_some.mp h
      obtain ⟨-, h⟩ := Option.ite_none_left_eq_some.mp h
      obtain ⟨found, -, rfl⟩ := Option.map_eq_some_iff.mp h
      simp only [ne_eq, Bool.or_eq_true, Bool.not_eq_true', decide_eq_true_eq, not_or,
        Bool.not_eq_false, not_not] at hkey
      obtain ⟨hsome, rfl⟩ := hkey
      exact .forcePasswordReset email newPassword salt found.1 (by simpa using hsome)
  | changePassword token currentPassword newPassword salt =>
      obtain ⟨userId, -, h⟩ := Option.bind_eq_some_iff.mp h
      obtain ⟨-, h⟩ := Option.ite_none_left_eq_some.mp h
      obtain ⟨user, hrow, h⟩ := Option.bind_eq_some_iff.mp h
      obtain ⟨hcompare, h⟩ := Option.ite_none_left_eq_some.mp h
      obtain rfl := Option.some.inj h
      exact .changePassword token currentPassword newPassword salt userId user hrow
        (by simpa using hcompare)
  | generate2FA token secret =>
      obtain ⟨userId, -, h⟩ := Option.bind_eq_some_iff.mp h
      obtain ⟨user, -, h⟩ := Option.bind_eq_some_iff.mp h
      obtain ⟨-, h⟩ := Option.ite_none_left_eq_some.mp h
      obtain rfl := Option.some.inj h
      exact .generate2FA token secret userId
  | enable2FA token code =>
      obtain ⟨userId, -, h⟩ := Option.bind_eq_some_iff.mp h
      obtain ⟨user, -, h⟩ := Option.bind_eq_some_iff.mp h
      obtain ⟨-, h⟩ := Option.ite_none_left_eq_some.mp h
      obtain ⟨-, h⟩ := Option.ite_none_left_eq_some.mp h
      obtain ⟨-, h⟩ := Option.ite_none_left_eq_some.mp h
      obtain rfl := Option.some.inj h
      exact .enable2FA token code userId
  | disable2FA token code =>
      obtain ⟨userId, -, h⟩ := Option.bind_eq_some_iff.mp h
      obtain ⟨user, -, h⟩ := Option.bind_eq_some_iff.mp h
      obtain ⟨-, h⟩ := Option.ite_none_left_eq_some.mp h
      obtain ⟨-, h⟩ := Option.ite_none_left_eq_some.mp h
      obtain rfl := Option.some.inj h
      exact .disable2FA token code userId
  | visit token => cases h

theorem Decides.read {r : Request} {effect : Effect} (h : Decides env s now r effect) :
    effect.Read s := by
  cases h with
  | login _ _ _ _ _ _ hrow => exact hrow
  | forgotPassword _ _ _ hrow => exact hrow
  | changePassword _ _ _ _ _ _ hrow => exact hrow
  | _ => trivial

end Requests

/-! ## The invariant -/

/-- Users keep their e-mail, and what was signed stays signed. -/
structure Grows (s t : State) : Prop where
  users : ∀ u user, s.users.row u = some user →
    ∃ user', t.users.row u = some user' ∧ user'.email = user.email
  issued : s.issued ⊆ t.issued

/-- What its token tells of an issue. -/
structure IssueOk (s : State) (i : Issue) : Prop where
  sub : i.token.sub = i.userId
  access : i.token.typ ≠ some "pwd_reset" → i.origin.Proves env
  reset : i.token.typ = some "pwd_reset" → env.isSmtpConfigured = true →
    ∃ user, s.users.row i.userId = some user ∧ i.delivery = .mail user.email

/-- `Cause.Allows`, before the deliveries of a reset token are known. -/
def Cause.Backed (s : State) (userId : ℕ) : Cause → Prop
  | .currentPassword user password => env.compare password user.passwordHash = true
  | .adminKey key => ∃ code, code ≠ "" ∧ env.ADMIN_SECURITY_CODE = some code ∧ key = some code
  | .resetToken token => env.isSmtpConfigured = true ∧ token.sub = userId
      ∧ token.typ = some "pwd_reset" ∧ (∃ i ∈ s.issued, i.token = token)
      ∧ ∃ user, s.users.row userId = some user

def Effect.Ok (s : State) : Effect → Prop
  | .login _ user password twoFactorToken now _ =>
      (Origin.login user password twoFactorToken now).Proves env
  | .forgotPassword userId user => ∃ row, s.users.row userId = some row ∧ row.email = user.email
  | .setPassword userId _ cause => cause.Backed env s userId
  | _ => True

structure Inv (s : State) : Prop where
  issued : ∀ i ∈ s.issued, IssueOk env s i
  pending : ∀ call effect, s.pending.row call = some effect → effect.Ok env s
  accepted : ∀ a ∈ s.accepted, ∃ i ∈ s.issued, i.token = a.1 ∧ i.userId = a.2
    ∧ i.origin.Proves env
  changes : ∀ c ∈ s.changes, c.2.Backed env s c.1

section Invariant

variable {env : Env} {s t : State}

theorem Grows.refl (s : State) : Grows s s :=
  ⟨fun _ user hrow => ⟨user, hrow, rfl⟩, List.Subset.refl _⟩

theorem grows_modify {j : ℕ} {f : User → User} (husers : t.users = s.users.modify j f)
    (hf : ∀ u, (f u).email = u.email) (hissued : s.issued ⊆ t.issued) : Grows s t := by
  refine ⟨fun u user hrow => ?_, hissued⟩
  rw [husers, Table.modify_row, hrow]
  split
  · exact ⟨f user, rfl, hf user⟩
  · exact ⟨user, rfl, rfl⟩

theorem grows_insert {user : User} (husers : t.users = s.users.insert user)
    (hissued : s.issued ⊆ t.issued) : Grows s t := by
  refine ⟨fun u row hrow => ⟨row, ?_, rfl⟩, hissued⟩
  rw [husers]
  exact Table.insert_row_eq_some.mpr (Or.inr hrow)

theorem IssueOk.mono {i : Issue} (h : IssueOk env s i) (hst : Grows s t) : IssueOk env t i := by
  refine ⟨h.sub, h.access, fun htyp hsmtp => ?_⟩
  obtain ⟨user, hrow, hmail⟩ := h.reset htyp hsmtp
  obtain ⟨user', hrow', hemail⟩ := hst.users _ _ hrow
  exact ⟨user', hrow', by rw [hmail, hemail]⟩

theorem Cause.Backed.mono {cause : Cause} {userId : ℕ} (h : cause.Backed env s userId)
    (hst : Grows s t) : cause.Backed env t userId := by
  cases cause with
  | currentPassword user password => exact h
  | adminKey key => exact h
  | resetToken token =>
      obtain ⟨hsmtp, hsub, htyp, ⟨i, hi, htoken⟩, user, hrow⟩ := h
      obtain ⟨user', hrow', -⟩ := hst.users _ _ hrow
      exact ⟨hsmtp, hsub, htyp, ⟨i, hst.issued hi, htoken⟩, user', hrow'⟩

theorem Effect.Ok.mono {effect : Effect} (h : effect.Ok env s) (hst : Grows s t) :
    effect.Ok env t := by
  cases effect with
  | forgotPassword userId user =>
      obtain ⟨row, hrow, hemail⟩ := h
      obtain ⟨row', hrow', hemail'⟩ := hst.users _ _ hrow
      exact ⟨row', hrow', hemail'.trans hemail⟩
  | setPassword userId passwordHash cause => exact Cause.Backed.mono h hst
  | login _ user password twoFactorToken now _ => exact h
  | _ => trivial

/-- A step that grows the state, with what it adds. -/
theorem Inv.grow (hs : Inv env s) (hst : Grows s t)
    (hissued : ∀ i ∈ t.issued, i ∈ s.issued ∨ IssueOk env t i)
    (hpending : ∀ call effect, t.pending.row call = some effect →
      s.pending.row call = some effect ∨ effect.Ok env t)
    (haccepted : ∀ a ∈ t.accepted, a ∈ s.accepted
      ∨ ∃ i ∈ t.issued, i.token = a.1 ∧ i.userId = a.2 ∧ i.origin.Proves env)
    (hchanges : ∀ c ∈ t.changes, c ∈ s.changes ∨ c.2.Backed env t c.1) : Inv env t where
  issued i hi := (hissued i hi).elim (fun hold => (hs.issued i hold).mono hst) id
  pending call effect hrow := (hpending call effect hrow).elim
    (fun hold => (hs.pending call effect hold).mono hst) id
  accepted a ha := (haccepted a ha).elim
    (fun hold => by
      obtain ⟨i, hi, hrest⟩ := hs.accepted a hold
      exact ⟨i, hst.issued hi, hrest⟩) id
  changes c hc := (hchanges c hc).elim (fun hold => (hs.changes c hold).mono hst) id

theorem Inv.start (users : Table User) : Inv env (.start users) where
  issued _ hi := nomatch hi
  pending _ _ hrow := nomatch hrow
  accepted _ ha := nomatch ha
  changes _ hc := nomatch hc

/-- A write to one user that keeps its e-mail. -/
theorem Inv.modify {j : ℕ} {f : User → User} (hs : Inv env s) (hf : ∀ u, (f u).email = u.email) :
    Inv env { s with users := s.users.modify j f } :=
  hs.grow (grows_modify rfl hf (List.Subset.refl _)) (fun _ => Or.inl) (fun _ _ => Or.inl)
    (fun _ => Or.inl) fun _ => Or.inl

/-- A token is signed, and the users may have changed before. -/
theorem Inv.issue {i : Issue} (hs : Inv env s) (hgrow : Grows s t)
    (hissued : t.issued = s.issued ++ [i]) (hi : IssueOk env t i)
    (hpending : t.pending = s.pending) (haccepted : t.accepted = s.accepted)
    (hchanges : t.changes = s.changes) : Inv env t := by
  refine hs.grow hgrow (fun j hj => ?_) (fun _ _ hrow => Or.inl (hpending ▸ hrow))
    (fun _ ha => Or.inl (haccepted ▸ ha)) fun _ hc => Or.inl (hchanges ▸ hc)
  rw [hissued] at hj
  rcases List.mem_append.mp hj with hold | hnew
  · exact Or.inl hold
  · obtain rfl := List.mem_singleton.mp hnew
    exact Or.inr hi

theorem Inv.perform {now : ℕ} {effect : Effect} (hs : Inv env s) (heffect : effect.Ok env s)
    (h : perform env s now effect = some t) : Inv env t := by
  cases effect with
  | register user =>
      obtain ⟨-, h⟩ := Option.ite_none_left_eq_some.mp h
      obtain rfl := Option.some.inj h
      refine hs.issue (grows_insert rfl (List.subset_append_left _ _)) rfl
        ⟨rfl, fun _ => trivial, fun htyp => ?_⟩ rfl rfl rfl
      cases htyp
  | login userId user password twoFactorToken readAt clientIp =>
      obtain rfl := Option.some.inj h
      have hgrow : Grows s { s with
          users := s.users.modify userId fun u => { u with ip := clientIp }
          issued := s.issued ++ [⟨signAccessToken env userId user now, userId,
            .login user password twoFactorToken readAt, .response⟩] } :=
        grows_modify rfl (fun _ => rfl) (List.subset_append_left _ _)
      refine hs.issue hgrow rfl ⟨rfl, fun _ => heffect, fun htyp => ?_⟩ rfl rfl rfl
      cases htyp
  | forgotPassword userId user =>
      obtain rfl := Option.some.inj h
      obtain ⟨row, hrow, hemail⟩ := heffect
      have hgrow : Grows s { s with
          issued := s.issued ++ [⟨signPasswordResetToken env userId now, userId, .forgotPassword,
            if env.isSmtpConfigured then .mail user.email else .response⟩] } :=
        ⟨fun _ r hr => ⟨r, hr, rfl⟩, List.subset_append_left _ _⟩
      refine hs.issue hgrow rfl ⟨rfl, fun htyp => absurd rfl htyp, fun _ hsmtp => ?_⟩ rfl rfl rfl
      exact ⟨row, hrow, by simp [hsmtp, hemail]⟩
  | setPassword userId passwordHash cause =>
      obtain rfl := Option.some.inj h
      have hgrow : Grows s { s with
          users := s.users.modify userId fun u => { u with passwordHash }
          changes := s.changes ++ [(userId, cause)] } :=
        grows_modify rfl (fun _ => rfl) (List.Subset.refl _)
      refine hs.grow hgrow (fun _ => Or.inl) (fun _ _ => Or.inl) (fun _ => Or.inl) fun c hc => ?_
      rcases List.mem_append.mp hc with hold | hnew
      · exact Or.inl hold
      · obtain rfl := List.mem_singleton.mp hnew
        exact Or.inr (Cause.Backed.mono heffect hgrow)
  | setSecret userId secret =>
      obtain rfl := Option.some.inj h
      exact hs.modify fun _ => rfl
  | enable userId =>
      obtain rfl := Option.some.inj h
      exact hs.modify fun _ => rfl
  | disable userId =>
      obtain rfl := Option.some.inj h
      exact hs.modify fun _ => rfl

/-- A request under the condition decides on nothing that it must not. -/
theorem Decides.ok {now : ℕ} {r : Request} {effect : Effect} (h : Decides env s now r effect)
    (hguard : Guarded env s (.request now r)) : effect.Ok env s := by
  cases h with
  | login _ _ _ _ _ _ _ hproves => exact hproves
  | forgotPassword email userId user hrow => exact ⟨user, hrow, rfl⟩
  | legacyPasswordReset token newPassword salt user hlong hverify hrow =>
      obtain ⟨-, htyp, hissued⟩ := verifyPasswordResetToken_eq_some hverify
      rcases hguard.2 with hsmtp | hshort | hnone
      · exact ⟨hsmtp, rfl, htyp, hissued, user, hrow⟩
      · exact absurd hshort hlong
      · simp [hverify, hrow] at hnone
  | resetPasswordManual email newPassword salt r hfound =>
      rcases hguard.2 with hkey | hother | hnone
      · obtain ⟨code, hcode, hne⟩ := (Option.any_eq_true _ _).mp hkey
        exact ⟨code, of_decide_eq_true hne, hcode, hcode⟩
      · exact absurd rfl hother
      · simp [hfound] at hnone
  | forcePasswordReset email newPassword salt userId hkey =>
      obtain ⟨code, hcode, hne⟩ := (Option.any_eq_true _ _).mp hkey
      exact ⟨code, of_decide_eq_true hne, hcode, hcode⟩
  | changePassword _ _ _ _ _ _ _ hcompare => exact hcompare
  | _ => trivial

/-- A session that is let in rests on a registration or a login. -/
theorem Inv.session {now : ℕ} {token : Jwt} {userId : ℕ} (hs : Inv env s)
    (hguard : isLiveResetToken s now token = false)
    (h : requireAuth s now token = some userId) :
    ∃ i ∈ s.issued, i.token = token ∧ i.userId = userId ∧ i.origin.Proves env := by
  obtain ⟨hsub, ⟨i, hi, htoken⟩, hlive⟩ := requireAuth_eq_some h
  have hissue := hs.issued i hi
  have htyp : i.token.typ ≠ some "pwd_reset" := by
    intro htyp
    have hcontra := hlive (htoken ▸ htyp)
    rw [hguard] at hcontra
    cases hcontra
  exact ⟨i, hi, htoken, hissue.sub.symm.trans (htoken ▸ hsub), hissue.access htyp⟩

theorem Inv.drop (hs : Inv env s) (call : ℕ) :
    Inv env { s with pending := s.pending.delete call } :=
  hs.grow ⟨fun _ user hrow => ⟨user, hrow, rfl⟩, List.Subset.refl _⟩ (fun _ => Or.inl)
    (fun _ _ hrow => Or.inl (Table.delete_row_eq_some.mp hrow).2) (fun _ => Or.inl) fun _ => Or.inl

/-- A request adds what it decides on. -/
theorem pending_request {now call : ℕ} {r : Request} {effect : Effect}
    (h : ((handle env s now r).elim s.pending s.pending.insert).row call = some effect) :
    handle env s now r = some effect ∨ s.pending.row call = some effect := by
  cases hdecided : handle env s now r with
  | none =>
      rw [hdecided] at h
      exact Or.inr h
  | some decided =>
      rw [hdecided] at h
      rcases Table.insert_row_eq_some.mp h with ⟨-, rfl⟩ | hold
      · exact Or.inl rfl
      · exact Or.inr hold

theorem Inv.step {e : Event} (hs : Inv env s) (hguard : Guarded env s e)
    (h : step env s e = some t) : Inv env t := by
  cases e with
  | request now r =>
      obtain rfl := Option.some.inj h
      have hgrow : Grows s { s with
          pending := (handle env s now r).elim s.pending s.pending.insert
          accepted := s.accepted ++ (acceptance s now r).toList } :=
        ⟨fun _ user hrow => ⟨user, hrow, rfl⟩, List.Subset.refl _⟩
      refine hs.grow hgrow (fun _ => Or.inl) (fun call effect hrow => ?_) (fun a ha => ?_)
        fun _ => Or.inl
      · rcases pending_request hrow with hdecided | hold
        · exact Or.inr (((handle_decides hdecided).ok hguard).mono hgrow)
        · exact Or.inl hold
      · rcases List.mem_append.mp ha with hold | hnew
        · exact Or.inl hold
        · right
          obtain ⟨token, htoken, hmap⟩ := Option.bind_eq_some_iff.mp (Option.mem_toList.mp hnew)
          obtain ⟨userId, hauth, rfl⟩ := Option.map_eq_some_iff.mp hmap
          exact hs.session (hguard.1 token htoken) hauth
  | finish call now =>
      obtain ⟨effect, hrow, h⟩ := Option.bind_eq_some_iff.mp h
      have hgrow : Grows s { s with pending := s.pending.delete call } :=
        ⟨fun _ user hu => ⟨user, hu, rfl⟩, List.Subset.refl _⟩
      exact (hs.drop call).perform ((hs.pending call effect hrow).mono hgrow) h
  | fail call =>
      obtain rfl := Option.some.inj h
      exact hs.drop call
  | ban userId isBanned =>
      obtain rfl := Option.some.inj h
      exact hs.modify fun _ => rfl

theorem Inv.allows {userId : ℕ} {cause : Cause} (hs : Inv env s)
    (h : cause.Backed env s userId) : cause.Allows env s userId := by
  cases cause with
  | currentPassword user password => exact h
  | adminKey key => exact h
  | resetToken token =>
      obtain ⟨hsmtp, rfl, htyp, hissued, user, hrow⟩ := h
      refine ⟨rfl, htyp, hissued, user, hrow, fun i hi htoken => ?_⟩
      subst htoken
      have hissue := hs.issued i hi
      obtain ⟨user', hrow', hmail⟩ := hissue.reset htyp hsmtp
      rw [← hissue.sub, hrow] at hrow'
      rw [hmail, Option.some.inj hrow']

/-! ## Passwords -/

theorem passwordHash_modify {users : Table User} {j u : ℕ} {f : User → User} {user user' : User}
    (hf : ∀ v, (f v).passwordHash = v.passwordHash) (h : users.row u = some user)
    (h' : (users.modify j f).row u = some user') : user'.passwordHash = user.passwordHash := by
  obtain ⟨row, hrow, hsame⟩ := Table.modify_keeps (j := j) (f := f)
    (P := fun v => v.passwordHash = user.passwordHash) h rfl fun v hv => (hf v).trans hv
  obtain rfl := Option.some.inj (h'.symm.trans hrow)
  exact hsame

theorem perform_logged {now u : ℕ} {effect : Effect} {user user' : User}
    (h : perform env s now effect = some t) (hrow : s.users.row u = some user)
    (hrow' : t.users.row u = some user') (hne : user'.passwordHash ≠ user.passwordHash) :
    ∃ cause, t.changes = s.changes ++ [(u, cause)] := by
  cases effect with
  | register new =>
      obtain ⟨-, h⟩ := Option.ite_none_left_eq_some.mp h
      obtain rfl := Option.some.inj h
      have hsame := Table.insert_row_of_some hrow new
      obtain rfl := Option.some.inj (hsame.symm.trans hrow')
      exact absurd rfl hne
  | setPassword userId passwordHash cause =>
      obtain rfl := Option.some.inj h
      rcases Table.modify_row_eq_some.mp hrow' with ⟨rfl, -⟩ | ⟨-, hold⟩
      · exact ⟨cause, rfl⟩
      · obtain rfl := Option.some.inj (hold.symm.trans hrow)
        exact absurd rfl hne
  | forgotPassword userId row =>
      obtain rfl := Option.some.inj h
      obtain rfl := Option.some.inj (hrow.symm.trans hrow')
      exact absurd rfl hne
  | login _ _ _ _ _ _ | setSecret _ _ | enable _ | disable _ =>
      obtain rfl := Option.some.inj h
      exact absurd (passwordHash_modify (by exact fun _ => rfl) hrow hrow') hne

theorem step_logged {e : Event} {u : ℕ} {user user' : User} (h : step env s e = some t)
    (hrow : s.users.row u = some user) (hrow' : t.users.row u = some user')
    (hne : user'.passwordHash ≠ user.passwordHash) :
    ∃ cause, t.changes = s.changes ++ [(u, cause)] := by
  cases e with
  | request now r =>
      obtain rfl := Option.some.inj h
      obtain rfl := Option.some.inj (hrow.symm.trans hrow')
      exact absurd rfl hne
  | finish call now =>
      obtain ⟨effect, -, h⟩ := Option.bind_eq_some_iff.mp h
      exact perform_logged (s := { s with pending := s.pending.delete call }) h hrow hrow' hne
  | fail call =>
      obtain rfl := Option.some.inj h
      obtain rfl := Option.some.inj (hrow.symm.trans hrow')
      exact absurd rfl hne
  | ban userId isBanned =>
      obtain rfl := Option.some.inj h
      exact absurd (passwordHash_modify (by exact fun _ => rfl) hrow hrow') hne

/-! ## Runs -/

theorem Inv.sound (hs : Inv env s) : Sound env s where
  sessions := hs.accepted
  passwords c hc := hs.allows (hs.changes c hc)
  logged _ _ h _ _ _ hrow hrow' hne := step_logged h hrow hrow' hne
  read _ _ _ h := (handle_decides h).read

/-- In a run whose requests meet the condition, sessions rest on logins and passwords
change for the reasons that there are. -/
theorem authentication_sound_of_run {users : Table User} {events : List Event}
    (hrun : (system env).run (.start users) events = some s)
    (hguard : (system env).Meets (Guarded env) (.start users) events) : Sound env s := by
  have hs : Inv env s := (system env).run_invariant
    (fun _ _ _ (hs : Inv env _) hguard h => hs.step hguard h) (.start users) hguard hrun
  exact hs.sound

end Invariant

/-! ## Two runs -/

/-- Passwords are their own hashes. -/
def plainEnv (isSmtpConfigured : Bool) : Env where
  identifiers := Identifiers.asciiEnv
  scan rows := rows
  hash password _ := password
  compare password passwordHash := password = passwordHash
  check code secret _ := some code = secret
  isSmtpConfigured
  ADMIN_SECURITY_CODE := some "a long code"
  ACCESS_TOKEN_TTL := 43200000
  PASSWORD_RESET_TOKEN_TTL := 1200000

/-- Alice registers. -/
def registration : List Event :=
  [.request 0 (.register "198.51.100.7" (Identifiers.signUp "alice" "alice@example.com") "salt"),
    .finish 1 0]

def aliceSession : Jwt :=
  ⟨1, none, some "alice", some "alice@example.com", 43200006⟩

/-- The reset token of a request at 20. -/
def aliceReset : Jwt := ⟨1, some "pwd_reset", none, none, 1200020⟩

theorem authentication_sound_of_run_mailed :
    ∃ s, (system (plainEnv true)).run (.start .empty) (registration ++
        [.request 5 (.login "198.51.100.7" "alice" "correct horse" none), .finish 2 6,
          .request 10 (.visit aliceSession),
          .request 20 (.forgotPassword "alice@example.com"), .finish 3 20,
          .request 30 (.legacyPasswordReset aliceReset "battery staple" "salt"), .finish 4 31])
        = some s
      ∧ Sound (plainEnv true) s := by
  have hrun : ((system (plainEnv true)).run (.start .empty) (registration ++
        [.request 5 (.login "198.51.100.7" "alice" "correct horse" none), .finish 2 6,
          .request 10 (.visit aliceSession),
          .request 20 (.forgotPassword "alice@example.com"), .finish 3 20,
          .request 30 (.legacyPasswordReset aliceReset "battery staple" "salt"), .finish 4 31])
        ).isSome = true := by
    decide +kernel
  exact ⟨_, (Option.some_get hrun).symm,
    authentication_sound_of_run (Option.some_get hrun).symm (by decide +kernel)⟩

/-- Somebody asks for Alice's reset token and gets it in the answer. -/
def leak : List Event :=
  registration ++ [.request 20 (.forgotPassword "alice@example.com"), .finish 2 20,
    .request 25 (.visit aliceReset),
    .request 30 (.legacyPasswordReset aliceReset "battery staple" "salt"), .finish 3 31]

/-- A session on a token that no registration or login has brought. -/
def unproved (env : Env) (s : State) : Bool :=
  s.accepted.any fun a => s.issued.all fun i => i.token ≠ a.1 || !decide (i.origin.Proves env)

/-- A password set with a token that was in an answer. -/
def setByAnswer (s : State) : Bool :=
  s.changes.any fun c =>
    match c.2 with
    | .resetToken token => s.issued.any fun i => i.token = token && i.delivery = .response
    | _ => false

theorem not_sessions_of_unproved {env : Env} {s : State} (h : unproved env s = true) :
    ¬∀ a ∈ s.accepted, ∃ i ∈ s.issued, i.token = a.1 ∧ i.userId = a.2 ∧ i.origin.Proves env := by
  intro hall
  obtain ⟨a, ha, hnone⟩ := List.any_eq_true.mp h
  obtain ⟨i, hi, htoken, -, hproves⟩ := hall a ha
  have hi' := List.all_eq_true.mp hnone i hi
  simp [htoken, hproves] at hi'

theorem not_passwords_of_setByAnswer {env : Env} {s : State} (h : setByAnswer s = true) :
    ¬∀ c ∈ s.changes, c.2.Allows env s c.1 := by
  intro hall
  obtain ⟨⟨userId, cause⟩, hc, h⟩ := List.any_eq_true.mp h
  cases cause with
  | currentPassword user password => cases h
  | adminKey key => cases h
  | resetToken token =>
      obtain ⟨i, hi, h⟩ := List.any_eq_true.mp h
      simp only [Bool.and_eq_true, decide_eq_true_eq] at h
      obtain ⟨-, -, -, user, -, hmail⟩ := hall _ hc
      have hdelivery := hmail i hi h.1
      rw [h.2] at hdelivery
      cases hdelivery

/-- Without mail the token resets the password, and with or without it is a session. -/
theorem reset_token_leaked :
    (∃ s, (system (plainEnv false)).run (.start .empty) leak = some s
      ∧ (¬∀ a ∈ s.accepted, ∃ i ∈ s.issued, i.token = a.1 ∧ i.userId = a.2
        ∧ i.origin.Proves (plainEnv false))
      ∧ ¬∀ c ∈ s.changes, c.2.Allows (plainEnv false) s c.1)
    ∧ ∃ s, (system (plainEnv true)).run (.start .empty) leak = some s
      ∧ ¬∀ a ∈ s.accepted, ∃ i ∈ s.issued, i.token = a.1 ∧ i.userId = a.2
        ∧ i.origin.Proves (plainEnv true) := by
  have hplain : ((system (plainEnv false)).run (.start .empty) leak).any (fun s =>
      unproved (plainEnv false) s && setByAnswer s) = true := by
    decide +kernel
  have hmailed : ((system (plainEnv true)).run (.start .empty) leak).any
      (unproved (plainEnv true)) = true := by
    decide +kernel
  obtain ⟨s, hs, hboth⟩ := (Option.any_eq_true ..).mp hplain
  obtain ⟨t, ht, hunproved⟩ := (Option.any_eq_true ..).mp hmailed
  obtain ⟨hsession, hset⟩ := Bool.and_eq_true_iff.mp hboth
  exact ⟨⟨s, hs, not_sessions_of_unproved hsession, not_passwords_of_setByAnswer hset⟩, t, ht,
    not_sessions_of_unproved hunproved⟩

end BlockMiner.Authentication
