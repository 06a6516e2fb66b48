import BlockMiner.ServicePairs
import BlockMiner.StreamDestinations

/-!
# The keys of the streams

The site with encrypted keys behaves as one that keeps them as they are: every
administrator gets the same answers, and every stream is started with the same
input, so a key that was stored is the key that is read. And no answer to an
administrator depends on a key: runs in which other keys are set, other ones at
that, have the same answers.

Both are simulations, and both come from one (`pairs_run`): of two sites that
encrypt in their own ways, with requests that differ in their keys only.
-/

namespace BlockMiner.StreamDestinations

open IsoDate (TimeValue)
open Service (Paired paired_run)

/-! ## Round trip -/

section Cipher

variable {gcm : Gcm} (lossy : ByteArray → String)

theorem utf8Text_toByteArray (plain : String) :
    utf8Text lossy plain.toByteArray.data.toList = plain := by
  unfold utf8Text
  simp only [Array.toArray_toList]
  exact dif_pos plain.isValidUTF8

theorem decode_blob (gcm : Gcm) (key : List UInt8) (iv : Iv) (plain : String) :
    Base64.decode (blob gcm key iv plain).toList
      = iv.bytes ++ (gcm.encrypt key iv plain.toByteArray.data.toList).2
        ++ (gcm.encrypt key iv plain.toByteArray.data.toList).1 := by
  unfold blob
  rw [String.toList_ofList, Base64.decode_encode]

theorem blob_ne_empty (key : List UInt8) (iv : Iv) (plain : String) :
    blob gcm key iv plain ≠ "" := by
  intro h
  have hbytes := decode_blob gcm key iv plain
  rw [h] at hbytes
  have hlength := congrArg List.length hbytes
  rw [List.length_append, List.length_append, iv.length] at hlength
  have hempty : (Base64.decode "".toList).length = 0 := rfl
  omega

/-- What was encrypted is decrypted. -/
theorem decrypt_blob (hlaw : gcm.Lawful) (key : List UInt8) (iv : Iv) (plain : String) :
    decryptStreamSecret gcm lossy (some key) (some (blob gcm key iv plain)) = some plain := by
  rcases hout : gcm.encrypt key iv plain.toByteArray.data.toList with ⟨enc, tag⟩
  have htag : tag.length = 16 := by
    have h := hlaw.tag key iv plain.toByteArray.data.toList
    rwa [hout] at h
  have hdata := hlaw.decrypt key iv plain.toByteArray.data.toList
  have hraw := decode_blob gcm key iv plain
  rw [hout] at hdata hraw
  have hiv : (Base64.decode (blob gcm key iv plain).toList).take 12 = iv.bytes := by
    rw [hraw, List.append_assoc, List.take_left' iv.length]
  have hmiddle : ((Base64.decode (blob gcm key iv plain).toList).drop 12).take 16 = tag := by
    rw [hraw, List.append_assoc, List.drop_left' iv.length, List.take_left' htag]
  have hrest : (Base64.decode (blob gcm key iv plain).toList).drop 28 = enc := by
    rw [hraw, List.drop_left' (by rw [List.length_append, iv.length, htag])]
  have hlong : ¬(Base64.decode (blob gcm key iv plain).toList).length < 12 + 16 := by
    rw [hraw, List.length_append, List.length_append, iv.length, htag]
    omega
  show (if _ ∨ _ then none else _) = some plain
  rw [if_neg (not_or.mpr ⟨blob_ne_empty key iv plain, hlong⟩), hiv, hmiddle, hrest, hdata]
  exact congrArg some (utf8Text_toByteArray lossy plain)

end Cipher

/-! ## What is alike -/

section Alike

/-- Both fail in the same way, or both succeed alike. -/
inductive Parsed.Rel {α α' : Type} (R : α → α' → Prop) : Parsed α → Parsed α' → Prop where
  | ok {a a'} (h : R a a') : Rel R (.ok a) (.ok a')
  | issues (messages) : Rel R (.issues messages) (.issues messages)
  | threw : Rel R .threw .threw

inductive Decided {α α' : Type} (R : α → α' → Prop) :
    Except Refusal α → Except Refusal α' → Prop where
  | ok {a a'} (h : R a a') : Decided R (.ok a) (.ok a')
  | error (refusal) : Decided R (.error refusal) (.error refusal)

/-- An API key is trimmed unless it is empty. -/
def ApiKeyAlike (P : String → String → Prop) (a b : String) : Prop :=
  (a = "" ↔ b = "") ∧ P (trim a) (trim b)

def CreateInput.withoutKeys (d : CreateInput) : CreateInput :=
  { d with streamKey := "", youtubeDataApiKey := none }

structure CreateInput.Alike (P : String → String → Prop) (d d' : CreateInput) : Prop where
  rest : d.withoutKeys = d'.withoutKeys
  streamKey : P d.streamKey d'.streamKey
  apiKey : Option.Rel (Option.Rel (ApiKeyAlike P)) d.youtubeDataApiKey d'.youtubeDataApiKey

def PatchInput.withoutKeys (d : PatchInput) : PatchInput :=
  { d with streamKey := none, youtubeDataApiKey := none }

structure PatchInput.Alike (P : String → String → Prop) (d d' : PatchInput) : Prop where
  rest : d.withoutKeys = d'.withoutKeys
  streamKey : Option.Rel P d.streamKey d'.streamKey
  apiKey : Option.Rel (Option.Rel (ApiKeyAlike P)) d.youtubeDataApiKey d'.youtubeDataApiKey

variable {β β' : Type}

def NewDestination.withoutKeys (data : NewDestination β) : NewDestination Unit :=
  { data with streamKeyEnc := none, youtubeDataApiKeyEnc := none }

def StreamDestination.withoutKeys (row : StreamDestination β) : StreamDestination Unit :=
  { row with streamKeyEnc := none, youtubeDataApiKeyEnc := none }

def Patch.withoutKeys (data : Patch β) : Patch Unit :=
  { data with streamKeyEnc := none, youtubeDataApiKeyEnc := none }

variable (R : β → β' → Prop) (P : String → String → Prop)
  (L : Option PipelineInput → Option PipelineInput → Prop) (isUrl : String → Bool)

structure NewDestination.Alike (data : NewDestination β) (data' : NewDestination β') : Prop where
  rest : data.withoutKeys = data'.withoutKeys
  streamKey : Option.Rel R data.streamKeyEnc data'.streamKeyEnc
  apiKey : Option.Rel R data.youtubeDataApiKeyEnc data'.youtubeDataApiKeyEnc

structure StreamDestination.Alike (row : StreamDestination β) (row' : StreamDestination β') :
    Prop where
  rest : row.withoutKeys = row'.withoutKeys
  streamKey : Option.Rel R row.streamKeyEnc row'.streamKeyEnc
  apiKey : Option.Rel R row.youtubeDataApiKeyEnc row'.youtubeDataApiKeyEnc

structure Patch.Alike (data : Patch β) (data' : Patch β') : Prop where
  rest : data.withoutKeys = data'.withoutKeys
  streamKey : Option.Rel (Option.Rel R) data.streamKeyEnc data'.streamKeyEnc
  apiKey : Option.Rel (Option.Rel R) data.youtubeDataApiKeyEnc data'.youtubeDataApiKeyEnc

inductive Happening.Alike : Happening → Happening → Prop where
  | answered (response) : Alike (.answered response) (.answered response)
  | launched (id) {input input'} (h : L input input') :
      Alike (.launched id input) (.launched id input')

structure Site.Alike (s : Site β) (s' : Site β') : Prop where
  destinations : s.destinations.Pairs (StreamDestination.Alike R) s'.destinations
  log : List.Forall₂ (Happening.Alike L) s.log s'.log

/-- Bodies that are read alike. -/
def CreateAlike (body body' : Body) : Prop :=
  (parseCreateStreamDestination isUrl body).Rel (CreateInput.Alike P)
    (parseCreateStreamDestination isUrl body')

def PatchAlike (body body' : Body) : Prop :=
  (parsePatchStreamDestination isUrl body).Rel (PatchInput.Alike P)
    (parsePatchStreamDestination isUrl body')

inductive Call.Alike : Call β → Call β' → Prop where
  | reconcile : Alike .reconcile .reconcile
  | list : Alike .list .list
  | getFind (id) : Alike (.getFind id) (.getFind id)
  | getFresh (id) : Alike (.getFresh id) (.getFresh id)
  | create {data data'} (h : data.Alike R data') : Alike (.create data) (.create data')
  | patchFind (id) {body body'} (h : PatchAlike P isUrl body body') :
      Alike (.patchFind id body) (.patchFind id body')
  | patch (id) {data data'} (h : data.Alike R data') : Alike (.patch id data) (.patch id data')
  | removeFind (id) : Alike (.removeFind id) (.removeFind id)
  | remove (id) : Alike (.remove id) (.remove id)
  | startFind (id) : Alike (.startFind id) (.startFind id)
  | update (id data) : Alike (.update id data) (.update id data)

/-- The same request, with bodies that are `C` and `U`. -/
inductive Request.Alike (C U : Body → Body → Prop) : Request → Request → Prop where
  | list : Alike C U .list .list
  | get (id) : Alike C U (.get id) (.get id)
  | create {body body'} (iv₁ iv₂ iv₁' iv₂') (h : C body body') :
      Alike C U (.create body iv₁ iv₂) (.create body' iv₁' iv₂')
  | patch (id) {body body'} (h : U body body') : Alike C U (.patch id body) (.patch id body')
  | remove (id) : Alike C U (.remove id) (.remove id)
  | start (id) : Alike C U (.start id) (.start id)
  | update (id data) : Alike C U (.update id data) (.update id data)

/-- The same but for the nonces. -/
structure Answer.Alike (a a' : Answer) : Prop where
  outcome : a.outcome = a'.outcome
  now : a.now = a'.now
  isStreamActive : a.isStreamActive = a'.isStreamActive

/-- Two ways to keep keys: keys that are `P` are stored as `R`, and a stream is started
alike. -/
structure Matches (S : Secrets β) (S' : Secrets β') : Prop where
  configured : S.isStreamEncryptionConfigured = S'.isStreamEncryptionConfigured
  empty : ∀ a b, P a b → (a = "" ↔ b = "")
  encrypt : ∀ iv iv' a b, P a b →
    Option.Rel R (S.encryptStreamSecret iv a) (S'.encryptStreamSecret iv' b)
  truthy : ∀ x y, R x y → S.truthy x = S'.truthy y
  launch : ∀ row row', StreamDestination.Alike R row row' →
    L (pipelineInput S row) (pipelineInput S' row')

end Alike

/-! ## One step -/

section Step

variable {β β' : Type} {S : Secrets β} {S' : Secrets β'} {R : β → β' → Prop}
  {P : String → String → Prop} {L : Option PipelineInput → Option PipelineInput → Prop}
  {isUrl : String → Bool} {s : Site β} {s' : Site β'}

/-- No key is told from another. -/
def keyless : Secrets Unit := ⟨true, fun _ _ => some (), fun _ => none, fun _ => true⟩

theorem json_alike (hm : Matches R P L S S') (id : ℕ) {row : StreamDestination β}
    {row' : StreamDestination β'} (h : row.Alike R row') :
    destinationToAdminJson S (id, row) = destinationToAdminJson S' (id, row') := by
  calc destinationToAdminJson S (id, row)
      = { destinationToAdminJson keyless (id, row.withoutKeys) with
          hasStreamKey := row.streamKeyEnc.any S.truthy
          hasYoutubeDataApiKey := row.youtubeDataApiKeyEnc.any S.truthy } := rfl
    _ = { destinationToAdminJson keyless (id, row'.withoutKeys) with
          hasStreamKey := row'.streamKeyEnc.any S'.truthy
          hasYoutubeDataApiKey := row'.youtubeDataApiKeyEnc.any S'.truthy } := by
        rw [h.rest, rel_any h.streamKey hm.truthy, rel_any h.apiKey hm.truthy]
    _ = destinationToAdminJson S' (id, row') := rfl

/-! ### Rows -/

theorem row_alike {data : NewDestination β} {data' : NewDestination β'} (h : data.Alike R data')
    (now : TimeValue) : (data.row now).Alike R (data'.row now) where
  rest := congrArg (fun data => NewDestination.row data now) h.rest
  streamKey := h.streamKey
  apiKey := h.apiKey

theorem patch_apply_alike {data : Patch β} {data' : Patch β'} (hdata : data.Alike R data')
    (now : TimeValue) {row : StreamDestination β} {row' : StreamDestination β'}
    (h : row.Alike R row') : (data.apply now row).Alike R (data'.apply now row') where
  rest := by
    calc (data.apply now row).withoutKeys
        = data.withoutKeys.apply now row.withoutKeys := rfl
      _ = data'.withoutKeys.apply now row'.withoutKeys := by rw [hdata.rest, h.rest]
      _ = (data'.apply now row').withoutKeys := rfl
  streamKey := rel_getD hdata.streamKey h.streamKey
  apiKey := rel_getD hdata.apiKey h.apiKey

theorem worker_apply_alike (data : WorkerUpdate) (now : TimeValue) {row : StreamDestination β}
    {row' : StreamDestination β'} (h : row.Alike R row') :
    (data.apply now row).Alike R (data.apply now row') where
  rest := congrArg (WorkerUpdate.apply data now) h.rest
  streamKey := h.streamKey
  apiKey := h.apiKey

/-! ### Bodies -/

theorem ne_empty_alike (hm : Matches R P L S S') (a b : String) (h : P a b) :
    decide (a ≠ "") = decide (b ≠ "") :=
  decide_eq_decide.mpr (not_congr (hm.empty a b h))

theorem newDestination_alike (hm : Matches R P L S S') {d d' : CreateInput} (hd : d.Alike P d')
    (iv₁ iv₂ iv₁' iv₂' : Iv) :
    Decided (NewDestination.Alike R) (newDestination S d iv₁ iv₂)
      (newDestination S' d' iv₁' iv₂') := by
  have hapi : Option.Rel P ((d.youtubeDataApiKey.join.map trim).filter (· ≠ ""))
      ((d'.youtubeDataApiKey.join.map trim).filter (· ≠ "")) :=
    rel_filter (rel_map (rel_join hd.apiKey) fun _ _ h => h.2) (ne_empty_alike hm)
  have hrest := congrArg
    (fun d => (newDestination keyless d iv₁ iv₂).map NewDestination.withoutKeys) hd.rest
  unfold newDestination
  have hkey := hm.encrypt iv₁ iv₁' _ _ hd.streamKey
  generalize S.encryptStreamSecret iv₁ d.streamKey = enc at hkey ⊢
  generalize S'.encryptStreamSecret iv₁' d'.streamKey = enc' at hkey ⊢
  cases hkey with
  | none => exact .error _
  | some hkey =>
    exact .ok ⟨Except.ok.inj hrest, .some hkey, rel_bind hapi fun a b => hm.encrypt iv₂ iv₂' a b⟩

theorem Decided.bind {α α' γ γ' : Type} {Q : α → α' → Prop} {T : γ → γ' → Prop}
    {x : Except Refusal α} {x' : Except Refusal α'} (h : Decided Q x x')
    {f : α → Except Refusal γ} {f' : α' → Except Refusal γ'}
    (hf : ∀ a a', Q a a' → Decided T (f a) (f' a')) : Decided T (x >>= f) (x' >>= f') := by
  cases h with
  | ok h => exact hf _ _ h
  | error refusal => exact .error refusal

theorem whenGiven_alike {α α' γ γ' : Type} {Q : α → α' → Prop} {T : γ → γ' → Prop}
    {f : α → Except Refusal γ} {f' : α' → Except Refusal γ'}
    (hf : ∀ a a', Q a a' → Decided T (f a) (f' a')) {x : Option α} {x' : Option α'}
    (h : Option.Rel Q x x') : Decided (Option.Rel T) (whenGiven f x) (whenGiven f' x') := by
  cases h with
  | none => exact .ok .none
  | @some a a' h =>
    have hfa := hf a a' h
    show Decided _ ((f a).map some) ((f' a').map some)
    generalize f a = y, f' a' = y' at hfa ⊢
    cases hfa with
    | ok h => exact .ok (.some h)
    | error refusal => exact .error refusal

theorem replaced_alike (hm : Matches R P L S S') (iv iv' : Iv) (message : String)
    {key key' : Option String} (h : Option.Rel P key key') :
    Decided (Option.Rel R) (replaced S iv message key) (replaced S' iv' message key') := by
  unfold replaced
  rw [hm.configured]
  split_ifs
  · exact .error _
  · cases h with
    | none => exact .ok .none
    | @some a b h =>
      have henc := hm.encrypt iv iv' a b h
      dsimp only
      generalize S.encryptStreamSecret iv a = enc, S'.encryptStreamSecret iv' b = enc' at henc ⊢
      cases henc with
      | none => exact .error _
      | some henc => exact .ok (.some henc)

theorem patchOf_alike (hm : Matches R P L S S') {d d' : PatchInput} (hd : d.Alike P d')
    (iv₁ iv₂ iv₁' iv₂' : Iv) :
    Decided (Patch.Alike R) (patchOf S d iv₁ iv₂) (patchOf S' d' iv₁' iv₂') := by
  have hrest := congrArg (fun d => (patchOf keyless d iv₁ iv₂).map Patch.withoutKeys) hd.rest
  have hkey : ∀ a b, P a b →
      Option.Rel P (if a = "" then none else some a) (if b = "" then none else some b) := by
    intro a b hab
    by_cases ha : a = ""
    · rw [if_pos ha, if_pos ((hm.empty a b hab).mp ha)]
      exact .none
    · rw [if_neg ha, if_neg (mt (hm.empty a b hab).mpr ha)]
      exact .some hab
  have hapi : ∀ x y, Option.Rel (ApiKeyAlike P) x y →
      Option.Rel P ((x.filter (· ≠ "")).map trim) ((y.filter (· ≠ "")).map trim) := fun x y hxy =>
    rel_map (rel_filter hxy fun _ _ h => decide_eq_decide.mpr (not_congr h.1)) fun _ _ h => h.2
  refine Decided.bind (whenGiven_alike (fun a b hab =>
    replaced_alike hm iv₁ iv₁' _ (hkey a b hab)) hd.streamKey) fun key key' hkeys => ?_
  refine Decided.bind (whenGiven_alike (fun x y hxy =>
    replaced_alike hm iv₂ iv₂' _ (hapi x y hxy)) hd.apiKey) fun api api' hapis => ?_
  exact .ok ⟨Except.ok.inj hrest, hkeys, hapis⟩

/-! ### Queries -/

/-- What a step leaves is alike. -/
def OutAlike (R : β → β' → Prop) (P : String → String → Prop)
    (L : Option PipelineInput → Option PipelineInput → Prop) (isUrl : String → Bool)
    (out : Site β × Option (Call β)) (out' : Site β' × Option (Call β')) : Prop :=
  out.1.Alike R L out'.1 ∧ Option.Rel (Call.Alike R P isUrl) out.2 out'.2

theorem next_alike (hs : s.Alike R L s') {c : Call β} {c' : Call β'} (hc : c.Alike R P isUrl c') :
    OutAlike R P L isUrl (s, some c) (s', some c') := ⟨hs, .some hc⟩

theorem ended_alike (hs : s.Alike R L s') : OutAlike R P L isUrl (s, none) (s', none) :=
  ⟨hs, .none⟩

theorem logged_alike (hs : s.Alike R L s') {h h' : Happening} (hh : h.Alike L h') :
    OutAlike R P L isUrl ({ s with log := s.log ++ [h] }, none)
      ({ s' with log := s'.log ++ [h'] }, none) :=
  ended_alike ⟨hs.destinations, List.rel_append hs.log (.cons hh .nil)⟩

theorem answer_alike (hs : s.Alike R L s') (response : Response) :
    OutAlike R P L isUrl (s.answer response) (s'.answer response) :=
  logged_alike hs (.answered response)

theorem fail_alike (hs : s.Alike R L s') {c : Call β} {c' : Call β'}
    (hc : c.Alike R P isUrl c') : OutAlike R P L isUrl (fail s c) (fail s' c') := by
  cases hc with
  | startFind | update => exact ended_alike hs
  | _ => exact answer_alike hs _

theorem write_alike (hs : s.Alike R L s') {c : Call β} {c' : Call β'}
    (hc : c.Alike R P isUrl c') (now : TimeValue) :
    (write s c now).Alike R L (write s' c' now) := by
  cases hc with
  | create h => exact ⟨hs.destinations.insert (row_alike h now), hs.log⟩
  | patch id h =>
    exact ⟨hs.destinations.modify (fun _ _ => patch_apply_alike h now) id, hs.log⟩
  | update id data =>
    exact ⟨hs.destinations.modify (fun _ _ => worker_apply_alike data now) id, hs.log⟩
  | remove id => exact ⟨hs.destinations.delete id, hs.log⟩
  | _ => exact hs

theorem withRow_alike (hs : s.Alike R L s') {c : Call β} {c' : Call β'}
    (hc : c.Alike R P isUrl c') (id : ℤ)
    {go : ℕ × StreamDestination β → Site β × Option (Call β)}
    {go' : ℕ × StreamDestination β' → Site β' × Option (Call β')}
    (hgo : ∀ id row row', row.Alike R row' → OutAlike R P L isUrl (go (id, row)) (go' (id, row'))) :
    OutAlike R P L isUrl (withRow s c id go) (withRow s' c' id go') := by
  unfold withRow findUnique
  split_ifs with hfits
  · have hrow := hs.destinations.row id.toNat
    generalize s.destinations.row id.toNat = row, s'.destinations.row id.toNat = row' at hrow ⊢
    cases hrow with
    | none => exact answer_alike hs _
    | some hrow => exact hgo id.toNat _ _ hrow
  · exact fail_alike hs hc

theorem written_alike (hs : s.Alike R L s') {c : Call β} {c' : Call β'}
    (hc : c.Alike R P isUrl c') {a a' : Answer} (ha : a.Alike a') (id : ℕ)
    {response : StreamDestination β → Response} {response' : StreamDestination β' → Response}
    (hresponse : ∀ row row', row.Alike R row' → response row = response' row') :
    OutAlike R P L isUrl (written s c a id response) (written s' c' a' id response') := by
  unfold written
  rw [← ha.now]
  have hrow := hs.destinations.row id
  generalize s.destinations.row id = row, s'.destinations.row id = row' at hrow ⊢
  cases hrow with
  | none => exact fail_alike hs hc
  | @some row row' hrow =>
    dsimp only
    rw [hresponse row row' hrow]
    exact answer_alike (write_alike hs hc a.now) _

theorem create_alike (hm : Matches R P L S S') (hs : s.Alike R L s') {body body' : Body}
    (h : CreateAlike P isUrl body body') (iv₁ iv₂ iv₁' iv₂' : Iv) :
    OutAlike R P L isUrl (create isUrl S s body iv₁ iv₂) (create isUrl S' s' body' iv₁' iv₂') := by
  unfold create
  rw [hm.configured]
  split_ifs with hconfigured
  · exact answer_alike hs _
  · unfold CreateAlike at h
    generalize parseCreateStreamDestination isUrl body = x,
      parseCreateStreamDestination isUrl body' = x' at h ⊢
    cases h with
    | threw => exact answer_alike hs _
    | issues messages => exact answer_alike hs _
    | @ok d d' hd =>
      have hdata := newDestination_alike hm hd iv₁ iv₂ iv₁' iv₂'
      dsimp only
      generalize newDestination S d iv₁ iv₂ = y, newDestination S' d' iv₁' iv₂' = y' at hdata ⊢
      cases hdata with
      | error refusal => exact answer_alike hs _
      | ok hdata => exact next_alike hs (.create hdata)

theorem patch_alike (hm : Matches R P L S S') (hs : s.Alike R L s') (id : ℕ) {body body' : Body}
    (h : PatchAlike P isUrl body body') (iv₁ iv₂ iv₁' iv₂' : Iv) :
    OutAlike R P L isUrl (patch isUrl S s id body iv₁ iv₂)
      (patch isUrl S' s' id body' iv₁' iv₂') := by
  unfold patch
  unfold PatchAlike at h
  generalize parsePatchStreamDestination isUrl body = x,
    parsePatchStreamDestination isUrl body' = x' at h ⊢
  cases h with
  | threw => exact answer_alike hs _
  | issues messages => exact answer_alike hs _
  | @ok d d' hd =>
    have hdata := patchOf_alike hm hd iv₁ iv₂ iv₁' iv₂'
    dsimp only
    generalize patchOf S d iv₁ iv₂ = y, patchOf S' d' iv₁' iv₂' = y' at hdata ⊢
    cases hdata with
    | error refusal => exact answer_alike hs _
    | ok hdata => exact next_alike hs (.patch id hdata)

theorem list_alike (hm : Matches R P L S S') (hs : s.Alike R L s') (isStreamActive : ℕ → Bool) :
    (s.destinations.rows.map fun row => (destinationToAdminJson S row, isStreamActive row.1))
      = s'.destinations.rows.map fun row =>
          (destinationToAdminJson S' row, isStreamActive row.1) := by
  refine List.forall₂_eq_eq_eq ▸ List.rel_map (fun row row' h => ?_) hs.destinations.rows
  obtain ⟨id, row⟩ := row
  obtain ⟨id', row'⟩ := row'
  obtain ⟨rfl, h⟩ : id = id' ∧ row.Alike R row' := h
  rw [json_alike hm id h]

theorem query_alike (hm : Matches R P L S S') (hs : s.Alike R L s') {c : Call β} {c' : Call β'}
    (hc : c.Alike R P isUrl c') {a a' : Answer} (ha : a.Alike a') :
    OutAlike R P L isUrl (query isUrl S s c a) (query isUrl S' s' c' a') := by
  have hwrite := write_alike hs hc a.now
  cases hc with
  | reconcile => exact next_alike hs .list
  | list =>
    unfold query
    rw [← ha.isStreamActive, list_alike hm hs]
    exact answer_alike hs _
  | getFind id =>
    exact withRow_alike hs (.getFind id) id fun _ _ _ _ => next_alike hs (.getFresh id)
  | getFresh id =>
    refine withRow_alike hs (.getFresh id) id fun id row row' hrow => ?_
    rw [json_alike hm id hrow, ← ha.isStreamActive]
    exact answer_alike hs _
  | create h =>
    simp only [query]
    rw [← ha.now, json_alike hm _ (row_alike h a.now), hs.destinations.nextId]
    exact answer_alike hwrite _
  | patchFind id h =>
    exact withRow_alike hs (.patchFind id h) id fun id _ _ _ => patch_alike hm hs id h _ _ _ _
  | patch id h =>
    refine written_alike hs (.patch id h) ha id fun row row' hrow => ?_
    rw [← ha.now, json_alike hm id (patch_apply_alike h a.now hrow)]
  | removeFind id =>
    exact withRow_alike hs (.removeFind id) id fun id _ _ _ => next_alike hs (.remove id)
  | remove id => exact written_alike hs (.remove id) ha id fun _ _ _ => rfl
  | startFind id =>
    simp only [query]
    have hrow := hs.destinations.row id
    generalize s.destinations.row id = row, s'.destinations.row id = row' at hrow ⊢
    cases hrow with
    | none => exact ended_alike hs
    | @some row row' hrow =>
      have henabled : row.enabled = row'.enabled := congrArg (·.enabled) hrow.rest
      have hdesired : row.desiredRunning = row'.desiredRunning :=
        congrArg (·.desiredRunning) hrow.rest
      dsimp only
      rw [henabled, hdesired]
      split_ifs
      · exact logged_alike hs (.launched id (hm.launch row row' hrow))
      · exact ended_alike hs
  | update id data =>
    unfold query
    rw [← ha.now]
    exact ended_alike hwrite

theorem resume_alike (hm : Matches R P L S S') (hs : s.Alike R L s') {c : Call β} {c' : Call β'}
    (hc : c.Alike R P isUrl c') {a a' : Answer} (ha : a.Alike a') :
    OutAlike R P L isUrl (resume isUrl S s c a) (resume isUrl S' s' c' a') := by
  unfold resume
  rw [← ha.outcome, ← ha.now]
  cases a.outcome with
  | done => exact query_alike hm hs hc ha
  | error => exact fail_alike hs hc
  | lost => exact fail_alike (write_alike hs hc a.now) hc

theorem withId_alike (hs : s.Alike R L s') (id : String) {go : ℤ → Call β} {go' : ℤ → Call β'}
    (hgo : ∀ id, (go id).Alike R P isUrl (go' id)) :
    OutAlike R P L isUrl (withId s id go) (withId s' id go') := by
  unfold withId
  cases idOf id with
  | none => exact answer_alike hs _
  | some id => exact next_alike hs (hgo id)

theorem handle_alike (hm : Matches R P L S S') (hs : s.Alike R L s') {r r' : Request}
    (hr : r.Alike (CreateAlike P isUrl) (PatchAlike P isUrl) r') :
    OutAlike R P L isUrl (handle isUrl S s r) (handle isUrl S' s' r') := by
  cases hr with
  | list => exact next_alike hs .reconcile
  | get id => exact withId_alike hs id .getFind
  | create _ _ _ _ h => exact create_alike hm hs h _ _ _ _
  | patch id h => exact withId_alike hs id fun id => .patchFind id h
  | remove id => exact withId_alike hs id .removeFind
  | start id => exact next_alike hs (.startFind id)
  | update id data => exact next_alike hs (.update id data)

/-- Runs with requests that are read alike. -/
theorem run_alike (hm : Matches R P L S S') {es es' : List (Event Request Answer)}
    (hes : List.Forall₂ (Event.Pairs
      (Request.Alike (CreateAlike P isUrl) (PatchAlike P isUrl)) Answer.Alike) es es') :
    Option.Rel (Paired (Site.Alike R L) (Call.Alike R P isUrl))
      ((service isUrl S).sys.run ⟨.start β, .empty⟩ es)
      ((service isUrl S').sys.run ⟨.start β', .empty⟩ es') := by
  refine paired_run (fun s s' r r' hs hr => ?_)
    (fun s s' c c' a a' hs hc ha => .some (resume_alike hm hs hc ha)) hes
    ⟨⟨Table.pairs_empty, .nil⟩, Table.pairs_empty⟩
  obtain ⟨hsite, hnext⟩ := handle_alike hm hs hr
  exact .some ⟨hsite, rel_toList hnext⟩

end Step

/-! ## Two ciphertexts -/

section Example

def keyText : String := "00112233445566778899aabbccddeeff00112233445566778899aabbccddeeff"

def iv₁ : Iv := ⟨List.replicate 12 1, rfl⟩

def iv₂ : Iv := ⟨List.replicate 12 2, rfl⟩

def tag₁ : List UInt8 := [132, 19, 222, 243, 220, 147, 195, 143, 12, 204, 239, 38, 200, 42, 15, 123]

def tag₂ : List UInt8 := [184, 2, 24, 76, 145, 10, 235, 38, 66, 35, 196, 17, 54, 158, 135, 188]

/-- The ciphertexts and tags of `ab-1` and `cd-2` under these nonces, and a stand-in for all
others. -/
def knownGcm : Gcm where
  encrypt key iv data :=
    if key = hexBytes keyText.toList ∧ iv.bytes = iv₁.bytes ∧ data = [97, 98, 45, 49] then
      ([17, 85, 147, 233], tag₁)
    else if key = hexBytes keyText.toList ∧ iv.bytes = iv₂.bytes ∧ data = [99, 100, 45, 50] then
      ([189, 201, 10, 208], tag₂)
    else (data, List.replicate 16 0)
  decrypt key iv tag enc :=
    if tag = List.replicate 16 0 then some enc
    else if key = hexBytes keyText.toList ∧ iv = iv₁.bytes ∧ enc = [17, 85, 147, 233]
        ∧ tag = tag₁ then
      some [97, 98, 45, 49]
    else if key = hexBytes keyText.toList ∧ iv = iv₂.bytes ∧ enc = [189, 201, 10, 208]
        ∧ tag = tag₂ then
      some [99, 100, 45, 50]
    else none

theorem knownGcm_lawful : knownGcm.Lawful where
  tag key iv data := by
    unfold knownGcm
    dsimp only
    split_ifs <;> rfl
  decrypt key iv data := by
    by_cases h₁ : key = hexBytes keyText.toList ∧ iv.bytes = iv₁.bytes ∧ data = [97, 98, 45, 49]
    · rw [show knownGcm.encrypt key iv data = _ from if_pos h₁]
      obtain ⟨rfl, hiv, rfl⟩ := h₁
      rw [hiv]
      decide +kernel
    · by_cases h₂ : key = hexBytes keyText.toList ∧ iv.bytes = iv₂.bytes ∧ data = [99, 100, 45, 50]
      · rw [show knownGcm.encrypt key iv data = _ from (if_neg h₁).trans (if_pos h₂)]
        obtain ⟨rfl, hiv, rfl⟩ := h₂
        rw [hiv]
        decide +kernel
      · rw [show knownGcm.encrypt key iv data = _ from (if_neg h₁).trans (if_neg h₂)]
        rfl

def createBody (streamKey : String) : Body :=
  some (.object [("label", .string "Main"), ("captureUrl", .string "https://a.example"),
    ("streamKey", .string streamKey)])

def doneAt (ms : ℤ) (h : |ms| ≤ 8640000000000000) : Answer :=
  ⟨.done, ⟨ms, h⟩, iv₁, iv₂, fun _ => false⟩

/-- A destination is created, and its stream started. -/
def startedRun (streamKey : String) (iv : Iv) : List (Event Request Answer) :=
  [.start (.create (createBody streamKey) iv iv), .resume 1 (doneAt 0 (by decide)),
    .start (.update 1 ⟨some true, none, none, none, none, none⟩), .resume 2 (doneAt 1 (by decide)),
    .start (.start 1), .resume 3 (doneAt 2 (by decide)), .start (.get "1"),
    .resume 4 (doneAt 3 (by decide)), .resume 4 (doneAt 4 (by decide))]

/-- The credentials that streams were started with. -/
def launches (log : List Happening) : List (ℕ × Option Credentials) :=
  log.filterMap fun
    | .launched id input => some (id, input.map (·.credentials))
    | .answered _ => none

end Example

/-! ## The keys are kept -/

/-- The same without encryption. -/
def plainText (STREAM_ENCRYPTION_KEY : Option String) : Secrets String :=
  let configured := (getStreamEncryptionKeyBuffer STREAM_ENCRYPTION_KEY).isSome
  { isStreamEncryptionConfigured := configured
    encryptStreamSecret := fun _ plain => if configured ∧ plain ≠ "" then some plain else none
    decryptStreamSecret := fun stored => if configured then stored else none
    truthy := (· ≠ "") }

section Kept

variable {gcm : Gcm} (lossy : ByteArray → String) (env : Option String) (isUrl : String → Bool)

/-- A key and what is stored for it. -/
def Stored (gcm : Gcm) (env : Option String) (stored plain : String) : Prop :=
  plain ≠ "" ∧ ∃ key iv,
    getStreamEncryptionKeyBuffer env = some key ∧ stored = blob gcm key iv plain

/-- What a stream is started with depends on the key that is decrypted. -/
theorem pipelineInput_eq {β : Type} (secrets : Secrets β) (row : StreamDestination β) :
    pipelineInput secrets row
      = pipelineInput
          { keyless with
            decryptStreamSecret := fun _ => secrets.decryptStreamSecret row.streamKeyEnc }
          row.withoutKeys := rfl

theorem decrypt_stored (hlaw : gcm.Lawful) {x y : Option String}
    (h : Option.Rel (Stored gcm env) x y) :
    (streamSecrets gcm lossy env).decryptStreamSecret x
      = (plainText env).decryptStreamSecret y := by
  cases h with
  | none => exact (ite_self _).symm
  | some h =>
    obtain ⟨-, key, iv, hkey, rfl⟩ := h
    unfold streamSecrets plainText
    rw [hkey]
    exact decrypt_blob lossy hlaw key iv _

theorem matches_plainText (hlaw : gcm.Lawful) :
    Matches (Stored gcm env) Eq Eq (streamSecrets gcm lossy env) (plainText env) where
  configured := rfl
  empty _ _ h := h ▸ Iff.rfl
  encrypt iv _ plain _ h := by
    subst h
    show Option.Rel _ (encryptStreamSecret gcm (getStreamEncryptionKeyBuffer env) iv plain)
      (if (getStreamEncryptionKeyBuffer env).isSome ∧ plain ≠ "" then some plain else none)
    cases hkey : getStreamEncryptionKeyBuffer env with
    | none => exact .none
    | some key =>
      show Option.Rel _ (if plain = "" then none else some (blob gcm key iv plain)) _
      by_cases hplain : plain = ""
      · rw [if_pos hplain, if_neg fun h => h.2 hplain]
        exact .none
      · rw [if_neg hplain, if_pos ⟨rfl, hplain⟩]
        exact .some ⟨hplain, key, iv, hkey, rfl⟩
  truthy _ _ h := by
    obtain ⟨hplain, key, iv, -, rfl⟩ := h
    exact decide_eq_decide.mpr ⟨fun _ => hplain, fun _ => blob_ne_empty key iv _⟩
  launch row row' h := by
    rw [pipelineInput_eq, pipelineInput_eq (plainText env), h.rest,
      decrypt_stored lossy env hlaw h.streamKey]

theorem Request.Alike.refl {C U : Body → Body → Prop} (hC : ∀ body, C body body)
    (hU : ∀ body, U body body) : ∀ r : Request, r.Alike C U r
  | .list => .list
  | .get id => .get id
  | .create body iv iv' => .create iv iv' iv iv' (hC body)
  | .patch id body => .patch id (hU body)
  | .remove id => .remove id
  | .start id => .start id
  | .update id data => .update id data

theorem Parsed.Rel.refl {α : Type} {R : α → α → Prop} (hR : ∀ a, R a a) :
    ∀ x : Parsed α, x.Rel R x
  | .ok a => .ok (hR a)
  | .issues messages => .issues messages
  | .threw => .threw

/-- **Keys are kept.** In every run the administrators get the answers, and the streams the
input, that they would get if keys were stored as they are. -/
theorem keys_kept (hlaw : gcm.Lawful) (es : List (Event Request Answer)) :
    ((service isUrl (streamSecrets gcm lossy env)).sys.run ⟨.start String, .empty⟩ es).map
        (·.db.log)
      = ((service isUrl (plainText env)).sys.run ⟨.start String, .empty⟩ es).map (·.db.log) := by
  have hcreate : ∀ body, CreateAlike Eq isUrl body body := fun body => Parsed.Rel.refl
    (fun d => ⟨rfl, rfl, rel_refl fun _ => rel_refl fun _ => ⟨Iff.rfl, rfl⟩⟩) _
  have hpatch : ∀ body, PatchAlike Eq isUrl body body := fun body => Parsed.Rel.refl
    (fun d => ⟨rfl, rel_refl fun _ => rfl, rel_refl fun _ => rel_refl fun _ => ⟨Iff.rfl, rfl⟩⟩) _
  have hes : List.Forall₂ (Event.Pairs
      (Request.Alike (CreateAlike Eq isUrl) (PatchAlike Eq isUrl)) Answer.Alike) es es :=
    List.forall₂_same.mpr fun e _ => Event.pairs_refl (Request.Alike.refl hcreate hpatch)
      (fun _ => ⟨rfl, rfl, rfl⟩) e
  refine map_eq_map_of_rel (run_alike (matches_plainText lossy env hlaw) hes) fun s s' hs => ?_
  refine List.forall₂_eq_eq_eq ▸ hs.db.log.imp fun h h' hh => ?_
  cases hh with
  | answered response => rfl
  | launched id hinput => rw [hinput]

theorem keys_kept_one :
    (((service (fun _ => true) (streamSecrets knownGcm (fun _ => "") (some keyText))).sys.run
        ⟨.start String, .empty⟩ (startedRun "ab-1" iv₁)).map (·.db.log)).map launches
      = some [(1, some ⟨"ab-1", "rtmp://a.rtmp.youtube.com/live2/ab-1"⟩)] :=
  (congrArg (Option.map launches) (keys_kept (fun _ => "") (some keyText) (fun _ => true)
    knownGcm_lawful (startedRun "ab-1" iv₁))).trans (by decide +kernel)

end Kept

/-! ## The keys are not seen -/

/-- One field of two bodies: the same, or keys that are both well formed. -/
def SameButKey (name : String) (x y : Body) : Prop :=
  x = y
    ∨ (name = "streamKey" ∧ ∃ a b, x = some (.string a) ∧ y = some (.string b)
        ∧ (1 ≤ utf16Length a ∧ utf16Length a ≤ 512) ∧ 1 ≤ utf16Length b ∧ utf16Length b ≤ 512)
    ∨ (name = "youtubeDataApiKey" ∧ ∃ a b, x = some (.string a) ∧ y = some (.string b)
        ∧ (trim a ≠ "" ∧ utf16Length a ≤ 512) ∧ trim b ≠ "" ∧ utf16Length b ≤ 512)

inductive SameButKeys : Body → Body → Prop where
  | same (body) : SameButKeys body body
  | object {fields fields'}
      (h : ∀ name, SameButKey name ((Json.object fields).get name)
        ((Json.object fields').get name)) :
      SameButKeys (some (.object fields)) (some (.object fields'))

/-- What the administrators are answered. -/
def answers {β : Type} (s : Site β) : List Response :=
  s.log.filterMap fun
    | .answered response => some response
    | .launched _ _ => none

section Unseen

variable (gcm : Gcm) (lossy : ByteArray → String) (env : Option String) (isUrl : String → Bool)

/-- Both are empty or neither. -/
def SameEmpty (a b : String) : Prop := a = "" ↔ b = ""

theorem matches_other :
    Matches (fun x y => x ≠ "" ∧ y ≠ "") SameEmpty (fun _ _ => True)
      (streamSecrets gcm lossy env) (streamSecrets gcm lossy env) where
  configured := rfl
  empty _ _ h := h
  encrypt iv iv' a b h := by
    show Option.Rel _ (encryptStreamSecret gcm (getStreamEncryptionKeyBuffer env) iv a)
      (encryptStreamSecret gcm (getStreamEncryptionKeyBuffer env) iv' b)
    cases getStreamEncryptionKeyBuffer env with
    | none => exact .none
    | some key =>
      show Option.Rel _ (if a = "" then none else _) (if b = "" then none else _)
      by_cases ha : a = ""
      · rw [if_pos ha, if_pos (h.mp ha)]
        exact .none
      · rw [if_neg ha, if_neg (mt h.mpr ha)]
        exact .some ⟨blob_ne_empty key iv a, blob_ne_empty key iv' b⟩
  truthy _ _ h := decide_eq_decide.mpr ⟨fun _ => h.2, fun _ => h.1⟩
  launch _ _ _ := trivial

theorem Parsed.Rel.field {α α' γ γ' : Type} {Q : α → α' → Prop} {T : γ → γ' → Prop}
    {f : Parsed (α → γ)} {f' : Parsed (α' → γ')} {x : Parsed α} {x' : Parsed α'}
    (hf : f.Rel (fun g g' => ∀ a a', Q a a' → T (g a) (g' a')) f') (hx : x.Rel Q x') :
    (f.field x).Rel T (f'.field x') := by
  cases hf with
  | ok hg => cases hx with
    | ok h => exact .ok (hg _ _ h)
    | issues messages => exact .issues messages
    | threw => exact .threw
  | issues messages => cases hx with
    | ok h => exact .issues messages
    | issues messages' => exact .issues (messages ++ messages')
    | threw => exact .threw
  | threw => cases hx <;> exact .threw

theorem sameEmpty_refl (a : String) : SameEmpty a a := Iff.rfl

theorem sameEmpty_of_ne {a b : String} (ha : a ≠ "") (hb : b ≠ "") : SameEmpty a b :=
  ⟨fun h => absurd h ha, fun h => absurd h hb⟩

theorem ne_empty_of_length {a : String} (h : 1 ≤ utf16Length a) : a ≠ "" := by
  rintro rfl
  exact absurd h (by decide)

theorem atMost_of_le {max : ℕ} {a : String} (h : utf16Length a ≤ max) : atMost max a = [] :=
  if_neg (not_lt.mpr h)

theorem streamKey_string {a : String} (h : 1 ≤ utf16Length a ∧ utf16Length a ≤ 512) :
    streamKey (.string a) = .ok a := by
  have hlow : atLeast 1 a = [] := if_neg (not_lt.mpr h.1)
  have hhigh : atMost 512 a = [] := atMost_of_le h.2
  show checked a (atLeast 1 a ++ (atMost 512 a ++ [])) = _
  rw [hlow, hhigh]
  rfl

theorem streamKeyOrEmpty_string {a : String} (h : utf16Length a ≤ 512) :
    streamKeyOrEmpty (.string a) = .ok a := by
  show checked a (atMost 512 a) = _
  rw [atMost_of_le h]
  rfl

theorem youtubeDataApiKey_string {a : String} (h : utf16Length a ≤ 512) :
    youtubeDataApiKey (.string a) = .ok (some a) := by
  show checked (some a) (atMost 512 a) = _
  rw [atMost_of_le h]
  rfl

/-- Another field is the same. -/
theorem SameButKey.eq {name : String} {x y : Body} (h : SameButKey name x y)
    (hstream : name ≠ "streamKey") (hapi : name ≠ "youtubeDataApiKey") : x = y := by
  obtain h | ⟨h, -⟩ | ⟨h, -⟩ := h
  · exact h
  · exact absurd h hstream
  · exact absurd h hapi

theorem SameButKey.streamKey {x y : Body} (h : SameButKey "streamKey" x y) :
    (required streamKey x).Rel SameEmpty (required streamKey y) := by
  obtain rfl | ⟨-, a, b, rfl, rfl, ha, hb⟩ | ⟨h, -⟩ := h
  · exact Parsed.Rel.refl sameEmpty_refl _
  · show (StreamDestinations.streamKey _).Rel _ (StreamDestinations.streamKey _)
    rw [streamKey_string ha, streamKey_string hb]
    exact .ok (sameEmpty_of_ne (ne_empty_of_length ha.1) (ne_empty_of_length hb.1))
  · exact absurd h (by decide)

theorem SameButKey.streamKeyOrEmpty {x y : Body} (h : SameButKey "streamKey" x y) :
    (optional streamKeyOrEmpty x).Rel (Option.Rel SameEmpty) (optional streamKeyOrEmpty y) := by
  obtain rfl | ⟨-, a, b, rfl, rfl, ha, hb⟩ | ⟨h, -⟩ := h
  · exact Parsed.Rel.refl (fun _ => rel_refl sameEmpty_refl) _
  · show (Parsed.map some (StreamDestinations.streamKeyOrEmpty _)).Rel _
      (Parsed.map some (StreamDestinations.streamKeyOrEmpty _))
    rw [streamKeyOrEmpty_string ha.2, streamKeyOrEmpty_string hb.2]
    exact .ok (.some (sameEmpty_of_ne (ne_empty_of_length ha.1) (ne_empty_of_length hb.1)))
  · exact absurd h (by decide)

theorem SameButKey.youtubeDataApiKey {x y : Body} (h : SameButKey "youtubeDataApiKey" x y) :
    (optional youtubeDataApiKey x).Rel (Option.Rel (Option.Rel (ApiKeyAlike SameEmpty)))
      (optional youtubeDataApiKey y) := by
  obtain rfl | ⟨h, -⟩ | ⟨-, a, b, rfl, rfl, ha, hb⟩ := h
  · exact Parsed.Rel.refl (fun _ => rel_refl fun _ => rel_refl fun _ =>
      ⟨Iff.rfl, sameEmpty_refl _⟩) _
  · exact absurd h (by decide)
  · show (Parsed.map some (StreamDestinations.youtubeDataApiKey _)).Rel _
      (Parsed.map some (StreamDestinations.youtubeDataApiKey _))
    rw [youtubeDataApiKey_string ha.2, youtubeDataApiKey_string hb.2]
    have hne : ∀ {c : String}, trim c ≠ "" → c ≠ "" := by
      rintro c hc rfl
      exact hc (by decide)
    exact .ok (.some (.some ⟨sameEmpty_of_ne (hne ha.1) (hne hb.1), sameEmpty_of_ne ha.1 hb.1⟩))

theorem same_field {α γ : Type} {T : γ → γ → Prop} {f f' : Parsed (α → γ)} {read : Body → Parsed α}
    {name : String} {x y : Body} (h : SameButKey name x y) (hstream : name ≠ "streamKey")
    (hapi : name ≠ "youtubeDataApiKey")
    (hf : f.Rel (fun g g' => ∀ a a', a = a' → T (g a) (g' a')) f') :
    (f.field (read x)).Rel T (f'.field (read y)) := by
  obtain rfl := h.eq hstream hapi
  exact Parsed.Rel.field hf (Parsed.Rel.refl (fun _ => rfl) _)

theorem createAlike_of_same {body body' : Body} (h : SameButKeys body body') :
    CreateAlike SameEmpty isUrl body body' := by
  cases h with
  | same => exact Parsed.Rel.refl (fun d => ⟨rfl, sameEmpty_refl _, rel_refl fun _ =>
      rel_refl fun _ => ⟨Iff.rfl, sameEmpty_refl _⟩⟩) _
  | object h =>
    refine same_field (h "enabled") (by decide) (by decide) ?_
    refine same_field (h "audioBitrateK") (by decide) (by decide) ?_
    refine same_field (h "videoBitrateK") (by decide) (by decide) ?_
    refine same_field (h "videoHeight") (by decide) (by decide) ?_
    refine same_field (h "videoWidth") (by decide) (by decide) ?_
    refine Parsed.Rel.field ?_ (h "youtubeDataApiKey").youtubeDataApiKey
    refine Parsed.Rel.field ?_ (h "streamKey").streamKey
    refine same_field (h "rtmpUrl") (by decide) (by decide) ?_
    refine same_field (h "captureUrl") (by decide) (by decide) ?_
    refine same_field (h "label") (by decide) (by decide) (.ok ?_)
    rintro l _ rfl c _ rfl r _ rfl key key' hkey api api' hapi w _ rfl v _ rfl b _ rfl a _ rfl
      e _ rfl
    exact ⟨rfl, hkey, hapi⟩

theorem patchAlike_of_same {body body' : Body} (h : SameButKeys body body') :
    PatchAlike SameEmpty isUrl body body' := by
  cases h with
  | same => exact Parsed.Rel.refl (fun d => ⟨rfl, rel_refl sameEmpty_refl, rel_refl fun _ =>
      rel_refl fun _ => ⟨Iff.rfl, sameEmpty_refl _⟩⟩) _
  | object h =>
    refine same_field (h "enabled") (by decide) (by decide) ?_
    refine same_field (h "audioBitrateK") (by decide) (by decide) ?_
    refine same_field (h "videoBitrateK") (by decide) (by decide) ?_
    refine same_field (h "videoHeight") (by decide) (by decide) ?_
    refine same_field (h "videoWidth") (by decide) (by decide) ?_
    refine Parsed.Rel.field ?_ (h "youtubeDataApiKey").youtubeDataApiKey
    refine Parsed.Rel.field ?_ (h "streamKey").streamKeyOrEmpty
    refine same_field (h "rtmpUrl") (by decide) (by decide) ?_
    refine same_field (h "captureUrl") (by decide) (by decide) ?_
    refine same_field (h "label") (by decide) (by decide) (.ok ?_)
    rintro l _ rfl c _ rfl r _ rfl key key' hkey api api' hapi w _ rfl v _ rfl b _ rfl a _ rfl
      e _ rfl
    exact ⟨rfl, hkey, hapi⟩

theorem Request.Alike.mono {C C' U U' : Body → Body → Prop} (hC : ∀ b b', C b b' → C' b b')
    (hU : ∀ b b', U b b' → U' b b') {r r' : Request} (h : r.Alike C U r') : r.Alike C' U' r' := by
  cases h with
  | create iv₁ iv₂ iv₁' iv₂' h => exact .create iv₁ iv₂ iv₁' iv₂' (hC _ _ h)
  | patch id h => exact .patch id (hU _ _ h)
  | list => exact .list
  | get id => exact .get id
  | remove id => exact .remove id
  | start id => exact .start id
  | update id data => exact .update id data

theorem answers_alike {R : String → String → Prop} {s s' : Site String}
    (h : s.Alike R (fun _ _ => True) s') : answers s = answers s' := by
  have hlog := h.log
  unfold answers
  refine List.forall₂_eq_eq_eq ▸ List.rel_filterMap (fun x y hxy => ?_) hlog
  cases hxy with
  | answered response => exact .some rfl
  | launched id _ => exact .none

/-- **Keys are not seen.** Runs in which other keys are set have the same answers. -/
theorem keys_unseen {es es' : List (Event Request Answer)}
    (hes : List.Forall₂ (Event.Pairs (Request.Alike SameButKeys SameButKeys) Answer.Alike)
      es es') :
    ((service isUrl (streamSecrets gcm lossy env)).sys.run ⟨.start String, .empty⟩ es).map
        (answers ·.db)
      = ((service isUrl (streamSecrets gcm lossy env)).sys.run ⟨.start String, .empty⟩ es').map
          (answers ·.db) := by
  have hread := hes.imp fun e e' => Event.pairs_mono (fun r r' => Request.Alike.mono
    (fun _ _ => createAlike_of_same isUrl) fun _ _ => patchAlike_of_same isUrl) fun _ _ h => h
  exact map_eq_map_of_rel (run_alike (matches_other gcm lossy env) hread) fun s s' hs =>
    answers_alike hs.db

theorem sameButKeys_createBody :
    SameButKeys (createBody "ab-1") (createBody "cd-2") := by
  refine .object fun name => ?_
  by_cases h : name = "streamKey"
  · subst h
    exact .inr (.inl ⟨rfl, "ab-1", "cd-2", rfl, rfl, by decide, by decide⟩)
  · have hname : (name == "streamKey") = false := beq_false_of_ne h
    exact .inl (by simp [Json.get, List.lookup, hname])

theorem keys_unseen_one :
    ((service (fun _ => true) (streamSecrets knownGcm (fun _ => "") (some keyText))).sys.run
        ⟨.start String, .empty⟩ (startedRun "ab-1" iv₁)).map (answers ·.db)
      = ((service (fun _ => true) (streamSecrets knownGcm (fun _ => "") (some keyText))).sys.run
        ⟨.start String, .empty⟩ (startedRun "cd-2" iv₂)).map (answers ·.db)
    ∧ (((service (fun _ => true) (streamSecrets knownGcm (fun _ => "") (some keyText))).sys.run
        ⟨.start String, .empty⟩ (startedRun "cd-2" iv₂)).map fun s => (answers s.db).length)
      = some 2 :=
  ⟨keys_unseen knownGcm (fun _ => "") (some keyText) (fun _ => true)
    (.cons (.create _ _ _ _ sameButKeys_createBody) (List.forall₂_same.mpr fun e _ =>
      Event.pairs_refl (Request.Alike.refl .same .same) (fun _ => ⟨rfl, rfl, rfl⟩) e)),
    by decide +kernel⟩

end Unseen

end BlockMiner.StreamDestinations
