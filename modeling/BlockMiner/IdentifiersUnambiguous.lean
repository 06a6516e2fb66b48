import BlockMiner.Identifiers
import BlockMiner.KeysApart

/-!
# When an identifier names one user

A user has three keys: e-mail, username and name, folded. An identifier matches a user
exactly if it is one of them, so it is unambiguous exactly if the keys of the users are
apart. A registration compares all its keys with all the others' but its e-mail with
their usernames and names; a rename compares its key with none of them.
-/

namespace BlockMiner.Identifiers

section Keys

variable (env : Env)

theorem fold_toLowerCase (s : String) : env.fold (toLowerCase s) = env.fold s := by
  unfold Env.fold toLowerCase
  rw [String.toList_ofList, List.map_map]
  exact congrArg _ (List.map_congr_left fun c _ => env.fold_lower c)

/-- Only a text with an `@` folds like one. -/
theorem at_mem_of_fold {s s' : String} (h : env.fold s = env.fold s') (hs : '@' ∈ s.toList) :
    '@' ∈ s'.toList := by
  have hmap : s.toList.map env.foldChar = s'.toList.map env.foldChar := String.ofList_injective h
  have hmem : env.foldChar '@' ∈ s'.toList.map env.foldChar :=
    hmap ▸ List.mem_map_of_mem hs
  obtain ⟨c, hc, hfold⟩ := List.mem_map.mp hmem
  rw [(env.fold_at '@').mpr rfl, env.fold_at] at hfold
  exact hfold ▸ hc

def keys (u : User) : List String :=
  env.fold u.email :: env.fold u.name :: (u.username.map env.fold).toList

theorem mem_keys {k : String} {u : User} : k ∈ keys env u ↔
    k = env.fold u.email ∨ k = env.fold u.name ∨ ∃ s ∈ u.username, k = env.fold s := by
  simp [keys, eq_comm]

theorem matchesIdentifier_iff {identifier : String} {u : User} :
    matchesIdentifier env identifier u = true ↔ env.fold (trim identifier) ∈ keys env u := by
  rw [mem_keys, matchesIdentifier, normalizeEmail, normalizeIdentifier, equalsInsensitive,
    fold_toLowerCase]
  simp only [equalsInsensitive, Bool.or_eq_true, decide_eq_true_eq, Option.any_eq_true]
  constructor
  · rintro ((h | ⟨s, hs, h⟩) | h)
    · exact Or.inl h.symm
    · exact Or.inr (Or.inr ⟨s, hs, h.symm⟩)
    · exact Or.inr (Or.inl h.symm)
  · rintro (h | h | ⟨s, hs, h⟩)
    · exact Or.inl (Or.inl h.symm)
    · exact Or.inr h.symm
    · exact Or.inl (Or.inr ⟨s, hs, h.symm⟩)

end Keys

/-! ## Unambiguous identifiers -/

/-- At most one user matches an identifier, and the first lookup returns that user,
whatever order the database has the users in. -/
structure Unambiguous (env : Env) (db : Db) : Prop where
  at_most_one : ∀ identifier i j u v, db.users.row i = some u → db.users.row j = some v →
    matchesIdentifier env identifier u = true → matchesIdentifier env identifier v = true → i = j
  found : ∀ identifier i u, db.users.row i = some u → matchesIdentifier env identifier u = true →
    ∀ rows, rows.Perm db.users.rows → firstLookup env rows identifier = some (i, u)

/-- What the requests keep in any case. -/
structure Written (db : Db) : Prop where
  trimmed : ∀ i u, db.users.row i = some u →
    trim u.name = u.name ∧ ∀ s ∈ u.username, trim s = s
  email_at : ∀ i u, db.users.row i = some u → '@' ∈ u.email.toList

section Step

variable {env : Env} {db : Db}

theorem unambiguous_of_apart (h : db.users.KeysApart (keys env)) : Unambiguous env db where
  at_most_one identifier i j u v hu hv hmu hmv := by
    by_contra hij
    exact h i j u v hij hu hv _ ((matchesIdentifier_iff env).mp hmu)
      ((matchesIdentifier_iff env).mp hmv)
  found identifier i u hu hm rows hrows :=
    h.find? (fun _ => matchesIdentifier_iff env) hu ((matchesIdentifier_iff env).mp hm) hrows

theorem keysApart_initial : Db.empty.users.KeysApart (keys env) := Table.keysApart_empty

theorem written_initial : Written .empty where
  trimmed i u h := by cases h
  email_at i u h := by cases h

/-- The user that a registration adds. -/
def registered (clientIp : String) (body : RegisterBody) : User where
  name := body.username
  username := some (normalizeIdentifier body.username)
  email := normalizeEmail body.email
  ip := clientIp

theorem register_cases {clientIp : String} {body : RegisterBody} {db' : Db}
    (h : register env db clientIp body = .ok db') :
    ∃ body', registerSchema env body = some body'
      ∧ (∀ j v, db.users.row j = some v →
        existing env (normalizeIdentifier body'.username) (normalizeEmail body'.email) v = false)
      ∧ db' = ⟨db.users.insert (registered clientIp body')⟩ := by
  unfold register at h
  split at h
  · cases h
  · next body' hbody =>
    obtain ⟨-, h⟩ := ite_error_eq_ok.mp h
    obtain ⟨hnone, h⟩ := ite_error_eq_ok.mp h
    obtain rfl := Except.ok.inj h
    exact ⟨body', hbody, Table.findFirst_eq_none.mp (Option.not_isSome_iff_eq_none.mp hnone), rfl⟩

theorem changeUsername_cases {userId : ℕ} {username : String} {db' : Db}
    (h : changeUsername db userId username = .ok db') :
    (∃ u, db.users.row userId = some u)
      ∧ db' = ⟨db.users.modify userId (renamed (trim username))⟩ := by
  obtain ⟨-, h⟩ := ite_error_eq_ok.mp h
  obtain ⟨-, h⟩ := ite_error_eq_ok.mp h
  obtain ⟨hrow, h⟩ := ite_error_eq_ok.mp h
  obtain rfl := Except.ok.inj h
  exact ⟨Option.ne_none_iff_exists'.mp (by simpa using hrow), rfl⟩

/-- What the schema lets through. -/
theorem registerSchema_eq_some {body body' : RegisterBody}
    (h : registerSchema env body = some body') :
    trim body'.username = body'.username ∧ (∀ c ∈ body'.username.toList, isUsernameChar c = true)
      ∧ '@' ∈ (normalizeEmail body'.email).toList := by
  unfold registerSchema at h
  dsimp only at h
  split at h
  case isFalse => cases h
  case isTrue hvalid =>
    obtain ⟨-, -, hchars, hemail, -, -⟩ := hvalid
    obtain rfl := Option.some.inj h
    refine ⟨trim_trim _, List.all_eq_true.mp hchars, ?_⟩
    show '@' ∈ (toLowerCase (trim (trim body.email))).toList
    rw [trim_trim, toLowerCase, String.toList_ofList]
    exact List.mem_map.mpr ⟨'@', env.email_at _ hemail, by decide⟩

/-- Accepted, a request gives a user no e-mail that another one has as username or name,
and no name that another one has in any column, ignoring case. -/
def Distinct (env : Env) (db : Db) (request : Request) : Prop :=
  (handle env db request).toOption.isSome →
    match request with
    | .register _ body => ∀ body' ∈ registerSchema env body, ∀ j v, db.users.row j = some v →
        env.fold (normalizeEmail body'.email) ≠ env.fold v.name
          ∧ ∀ s ∈ v.username, env.fold (normalizeEmail body'.email) ≠ env.fold s
    | .changeUsername userId username => ∀ j v, j ≠ userId → db.users.row j = some v →
        env.fold (trim username) ∉ keys env v

/-! ### Registrations -/

theorem fresh_registered (hw : Written db) {clientIp : String} {body body' : RegisterBody}
    (hbody : registerSchema env body = some body')
    (hnew : ∀ j v, db.users.row j = some v →
      existing env (normalizeIdentifier body'.username) (normalizeEmail body'.email) v = false)
    (hdistinct : ∀ j v, db.users.row j = some v →
      env.fold (normalizeEmail body'.email) ≠ env.fold v.name
        ∧ ∀ s ∈ v.username, env.fold (normalizeEmail body'.email) ≠ env.fold s) :
    db.users.Fresh (keys env) db.users.nextId (registered clientIp body') := by
  obtain ⟨htrim, hchars, -⟩ := registerSchema_eq_some hbody
  intro j v _ hv k hk hkv
  have hfree := hnew j v hv
  simp only [existing, normalizeIdentifier, htrim, equalsInsensitive, Bool.or_eq_false_iff,
    decide_eq_false_iff_not, Option.any_eq_false] at hfree
  obtain ⟨⟨hemail, husername⟩, hname⟩ := hfree
  have hcases : k = env.fold (normalizeEmail body'.email) ∨ k = env.fold body'.username := by
    rcases (mem_keys env).mp hk with h | h | ⟨s, hs, h⟩
    · exact Or.inl h
    · exact Or.inr h
    · obtain rfl := Option.some.inj hs
      rw [normalizeIdentifier, htrim] at h
      exact Or.inr h
  rcases hcases with rfl | rfl
  · rcases (mem_keys env).mp hkv with h | h | ⟨s, hs, h⟩
    · exact hemail h.symm
    · exact (hdistinct j v hv).1 h
    · exact (hdistinct j v hv).2 s hs h
  · rcases (mem_keys env).mp hkv with h | h | ⟨s, hs, h⟩
    · -- an e-mail has an `@`, which no registered username has
      have hat := hchars '@' (at_mem_of_fold env h.symm (hw.email_at j v hv))
      exact absurd hat (by decide)
    · exact hname h.symm
    · exact husername s hs h.symm

/-- The e-mail of a registration that is ambiguous with a username or name. -/
theorem distinct_of_unambiguous (hw : Written db) {u : User}
    (h : Unambiguous env ⟨db.users.insert u⟩) {j : ℕ} {v : User} (hv : db.users.row j = some v) :
    env.fold u.email ≠ env.fold v.name ∧ ∀ s ∈ v.username, env.fold u.email ≠ env.fold s := by
  have hnew : (db.users.insert u).row db.users.nextId = some u := if_pos rfl
  have hold : (db.users.insert u).row j = some v := Table.insert_row_of_some hv u
  have hne : j ≠ db.users.nextId := (Table.row_lt hv).ne
  obtain ⟨hname, husername⟩ := hw.trimmed j v hv
  -- a text that both have as a key is an identifier that names both
  have hboth : ∀ s, trim s = s → env.fold s ∈ keys env v → env.fold u.email ≠ env.fold s := by
    intro s hs hsv heq
    refine hne (h.at_most_one s j db.users.nextId v u hold hnew ?_ ?_)
    · rw [matchesIdentifier_iff, hs]
      exact hsv
    · rw [matchesIdentifier_iff, hs, ← heq]
      exact (mem_keys env).mpr (Or.inl rfl)
  refine ⟨hboth _ hname ((mem_keys env).mpr (Or.inr (Or.inl rfl))), fun s hs => ?_⟩
  exact hboth s (husername s hs) ((mem_keys env).mpr (Or.inr (Or.inr ⟨s, hs, rfl⟩)))

theorem Written.insert (hw : Written db) {clientIp : String} {body body' : RegisterBody}
    (hbody : registerSchema env body = some body') :
    Written ⟨db.users.insert (registered clientIp body')⟩ := by
  obtain ⟨htrim, -, hat⟩ := registerSchema_eq_some hbody
  refine ⟨fun i u hu => ?_, fun i u hu => ?_⟩
  · rcases Table.insert_row_eq_some.mp hu with ⟨-, rfl⟩ | hold
    · refine ⟨htrim, fun s hs => ?_⟩
      obtain rfl := Option.some.inj hs
      exact trim_trim _
    · exact hw.trimmed i u hold
  · rcases Table.insert_row_eq_some.mp hu with ⟨-, rfl⟩ | hold
    · exact hat
    · exact hw.email_at i u hold

/-! ### Renames -/

theorem mem_keys_renamed {username k : String} {u : User} :
    k ∈ keys env (renamed username u) ↔ k = env.fold u.email ∨ k = env.fold username := by
  simp [mem_keys, renamed]

theorem fresh_renamed (h : db.users.KeysApart (keys env)) {userId : ℕ} {u : User}
    (hu : db.users.row userId = some u) {username : String}
    (hdistinct : ∀ j v, j ≠ userId → db.users.row j = some v →
      env.fold username ∉ keys env v) :
    db.users.Fresh (keys env) userId (renamed username u) := by
  intro j v hj hv k hk
  rcases mem_keys_renamed.mp hk with rfl | rfl
  · exact h userId j u v hj.symm hu hv _ ((mem_keys env).mpr (Or.inl rfl))
  · exact hdistinct j v hj hv

theorem not_mem_keys_of_unambiguous {userId : ℕ} {u : User} (hu : db.users.row userId = some u)
    {username : String} (h : Unambiguous env ⟨db.users.modify userId (renamed (trim username))⟩)
    {j : ℕ} {v : User} (hj : j ≠ userId) (hv : db.users.row j = some v) :
    env.fold (trim username) ∉ keys env v := by
  intro hmem
  have hnew : (db.users.modify userId (renamed (trim username))).row userId
      = some (renamed (trim username) u) := by
    rw [Table.modify_row, if_pos rfl, hu, Option.map_some]
  have hold : (db.users.modify userId (renamed (trim username))).row j = some v := by
    rw [Table.modify_row, if_neg hj, hv]
  refine hj (h.at_most_one username j userId v _ hold hnew ?_ ?_)
  · exact (matchesIdentifier_iff env).mpr hmem
  · exact (matchesIdentifier_iff env).mpr (mem_keys_renamed.mpr (Or.inr rfl))

theorem Written.rename (hw : Written db) (userId : ℕ) (username : String) :
    Written ⟨db.users.modify userId (renamed (trim username))⟩ := by
  refine ⟨fun i u hu => ?_, fun i u hu => ?_⟩
  · rcases Table.modify_row_eq_some.mp hu with ⟨-, v, -, rfl⟩ | ⟨-, hold⟩
    · refine ⟨trim_trim username, fun s hs => ?_⟩
      obtain rfl := Option.some.inj hs
      exact trim_trim username
    · exact hw.trimmed i u hold
  · rcases Table.modify_row_eq_some.mp hu with ⟨-, v, hv, rfl⟩ | ⟨-, hold⟩
    · exact hw.email_at i v hv
    · exact hw.email_at i u hold

/-! ### Any request -/

theorem Written.handle (hw : Written db) {request : Request} {db' : Db}
    (h : handle env db request = .ok db') : Written db' := by
  cases request with
  | register clientIp body =>
      have hok : register env db clientIp body = .ok db' := h
      obtain ⟨body', hbody, -, rfl⟩ := register_cases hok
      exact hw.insert hbody
  | changeUsername userId username =>
      have hok : changeUsername db userId username = .ok db' := h
      obtain ⟨-, rfl⟩ := changeUsername_cases hok
      exact hw.rename userId username

theorem apart_of_distinct (happ : db.users.KeysApart (keys env)) (hw : Written db)
    {request : Request} (hdistinct : Distinct env db request) {db' : Db}
    (h : handle env db request = .ok db') : db'.users.KeysApart (keys env) := by
  have hdistinct := hdistinct (by rw [h]; rfl)
  cases request with
  | register clientIp body =>
      have hok : register env db clientIp body = .ok db' := h
      obtain ⟨body', hbody, hnew, rfl⟩ := register_cases hok
      exact happ.insert (fresh_registered hw hbody hnew (hdistinct body' hbody))
  | changeUsername userId username =>
      have hok : changeUsername db userId username = .ok db' := h
      obtain ⟨⟨u, hu⟩, rfl⟩ := changeUsername_cases hok
      exact happ.modify hu (fresh_renamed happ hu hdistinct)

/-- The identifiers are unambiguous after the request, too. -/
def KeepsUnambiguous (env : Env) (db : Db) (request : Request) : Prop :=
  ∀ db', (system env).step db request = some db' → Unambiguous env db'

theorem keepsUnambiguous_iff (happ : db.users.KeysApart (keys env)) (hw : Written db)
    (request : Request) : KeepsUnambiguous env db request ↔ Distinct env db request := by
  constructor
  · intro hkeeps hok
    obtain ⟨db', hdb'⟩ := Option.isSome_iff_exists.mp hok
    have hun := hkeeps db' hdb'
    have h := toOption_eq_some.mp hdb'
    cases request with
    | register clientIp body =>
        have hreg : register env db clientIp body = .ok db' := h
        obtain ⟨body', hbody, -, rfl⟩ := register_cases hreg
        intro body'' hbody'' j v hv
        obtain rfl := Option.some.inj (hbody.symm.trans hbody'')
        exact distinct_of_unambiguous hw hun hv
    | changeUsername userId username =>
        have hren : changeUsername db userId username = .ok db' := h
        obtain ⟨⟨u, hu⟩, rfl⟩ := changeUsername_cases hren
        intro j v hj hv
        exact not_mem_keys_of_unambiguous hu hun hj hv
  · intro hdistinct db' hdb'
    exact unambiguous_of_apart (apart_of_distinct happ hw hdistinct (toOption_eq_some.mp hdb'))

end Step

/-! ## Whole runs -/

/-- Along a run of successful requests every identifier stays unambiguous exactly if no
request gives a user an e-mail or a name that is ambiguous with another user's. -/
theorem stays_unambiguous_iff (env : Env) (requests : List Request) :
    (system env).Meets (KeepsUnambiguous env) .empty requests
      ↔ (system env).Meets (Distinct env) .empty requests := by
  refine (system env).meets_iff_of_kept
    (I := fun db => db.users.KeysApart (keys env) ∧ Written db)
    (fun db request db' hI hkeeps hstep => ?_)
    (fun db request hI => keepsUnambiguous_iff hI.1 hI.2 request)
    ⟨keysApart_initial, written_initial⟩
  have hdistinct := (keepsUnambiguous_iff hI.1 hI.2 request).mp hkeeps
  have hok := toOption_eq_some.mp hstep
  exact ⟨apart_of_distinct hI.1 hI.2 hdistinct hok, hI.2.handle hok⟩

/-! ### An environment of ASCII -/

theorem lowerChar_ascii : ∀ n : Fin 128,
    lowerChar (lowerChar (Char.ofNat n)) = lowerChar (Char.ofNat n)
      ∧ (lowerChar (Char.ofNat n) = '@' ↔ Char.ofNat n = '@') := by
  decide +kernel

theorem lowerChar_of_le {c : Char} (h : 128 ≤ c.toNat) :
    lowerChar c = if c.toNat = 0x212A then 'k' else c := by
  unfold lowerChar Char.toLower
  split
  case isTrue => rfl
  case isFalse =>
    rw [dif_neg]
    rintro ⟨-, hz⟩
    have hle : c.toNat ≤ 90 := hz
    omega

/-- Case is folded once and for all, and no other character becomes an `@`. -/
theorem lowerChar_fold (c : Char) :
    lowerChar (lowerChar c) = lowerChar c ∧ (lowerChar c = '@' ↔ c = '@') := by
  by_cases h : c.toNat < 128
  · have hc := lowerChar_ascii ⟨c.toNat, h⟩
    rwa [Char.ofNat_toNat] at hc
  · have hlow := lowerChar_of_le (Nat.le_of_not_lt h)
    have hne : c ≠ '@' := by
      rintro rfl
      exact h (by decide)
    split at hlow
    · rw [hlow]
      exact ⟨by decide, by simp [hne]⟩
    · rw [hlow]
      exact ⟨hlow, Iff.rfl⟩

/-- Whatever has an `@` is an e-mail here. -/
def asciiEnv : Env where
  isEmail s := '@' ∈ s.toList
  foldChar := lowerChar
  email_at _ h := of_decide_eq_true h
  fold_at c := (lowerChar_fold c).2
  fold_lower c := (lowerChar_fold c).1

/-- The body of a registration. -/
def signUp (username email : String) : RegisterBody := ⟨username, email, "correct horse", true⟩

/-- A rename to another user's name in other letters is accepted, and the identifier
then names both. -/
theorem renamed_to_other_case :
    ∃ db, (system asciiEnv).run .empty
        [.register "198.51.100.7" (signUp "alice" "alice@example.com"),
          .register "203.0.113.9" (signUp "bob" "bob@example.com"),
          .changeUsername 2 "Alice"] = some db
      ∧ (db.users.row 1).any (matchesIdentifier asciiEnv "alice") = true
      ∧ (db.users.row 2).any (matchesIdentifier asciiEnv "alice") = true := by
  have hrun : ((system asciiEnv).run .empty
      [.register "198.51.100.7" (signUp "alice" "alice@example.com"),
        .register "203.0.113.9" (signUp "bob" "bob@example.com"),
        .changeUsername 2 "Alice"]).any (fun db =>
      (db.users.row 1).any (matchesIdentifier asciiEnv "alice")
        && (db.users.row 2).any (matchesIdentifier asciiEnv "alice")) = true := by
    decide +kernel
  obtain ⟨db, hdb, hboth⟩ := (Option.any_eq_true ..).mp hrun
  exact ⟨db, hdb, Bool.and_eq_true_iff.mp hboth⟩

end BlockMiner.Identifiers
