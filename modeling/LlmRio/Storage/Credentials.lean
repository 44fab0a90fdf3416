/-
# The credentials of the keys

The secret columns of `api_keys`, and the calls that write them: a key is
created with a token, its token is replaced, or it is deleted and its secrets
become tombstones. A token is stored twice, as a hash that `authenticate`
verifies and encrypted for `list_keys`, and its first 24 characters are the
UNIQUE `token_prefix` by which its row is found.

The hasher and the cipher are parameters (`KeyVault`), and so are the random
values that they draw: the salt of a hash, the initialization vector of an
encryption and the secret part of an issued token. `KeyVault.Sound` is what the
service relies on.

In every database that the calls reach, the row of a key is a tombstone that is
inactive, or its hash, its encrypted token and its prefix are those of one token
(`Credentials.Sealed`).

Key definitions: `KeyVault`, `Credentials`, `authenticate`, `listKeys`, `Credentials.call`, `Sealed`.
Key theorems: `call_secrets`, `sealed_call`, `sealed_of_calls`.
-/
import LlmRio.Storage.Access

namespace LlmRio

open Transactions Runs

/-! ### Errors -/

/-- A value in the `details` of an error. -/
inductive ErrorDetail
  | text (s : String)
  | names (names : List String)
deriving DecidableEq, Repr

/-- `RioError` -/
structure ApiError where
  code : String
  message : String
  statusCode : ℕ := 400
  details : List (String × ErrorDetail) := []
deriving DecidableEq, Repr

def authenticationError (message : String := "Invalid or inactive API key") : ApiError :=
  { code := "invalid_api_key", message := message, statusCode := 401 }

def authorizationError (message : String := "This operation is not permitted") : ApiError :=
  { code := "permission_denied", message := message, statusCode := 403 }

/-! ### Tokens -/

/-- `PasswordHasher` and the `Fernet` of the vault. -/
structure KeyVault where
  /-- The hash of a token with a salt. -/
  hash : String → String → String
  verify : String → String → Bool
  /-- The token encrypted with an initialization vector. -/
  encrypt : String → String → String
  /-- `none` where `decrypt` raises. -/
  decrypt : String → Option String

/-- A hash verifies its token and no other, and what the vault has encrypted it
decrypts. -/
structure KeyVault.Sound (v : KeyVault) : Prop where
  verify_hash : ∀ salt token, v.verify (v.hash salt token) token = true
  verify_only : ∀ salt token other, v.verify (v.hash salt token) other = true → other = token
  decrypt_encrypt : ∀ iv token, v.decrypt (v.encrypt iv token) = some token

/-- `s[:n]` -/
def firstChars (n : ℕ) (s : String) : String := String.ofList (s.toList.take n)

def tokenPrefix (token : String) : Except ApiError String :=
  if ¬ token.startsWith "rio_" ∨ token.length < 24 then .error authenticationError
  else .ok (firstChars 24 token)

/-- What `secrets.token_urlsafe(32)` returns. -/
structure UrlSafe where
  text : String
  length : text.length = 43

/-- `issue_api_key`: the token and its prefix. -/
def issueApiKey (keyId : KeyId) (secret : UrlSafe) : String × String :=
  let publicId := String.ofList ((keyId.toList.filter (· ≠ '-')).take 12)
  let token := "rio_" ++ publicId ++ "_" ++ secret.text
  (token, firstChars 24 token)

/-- The token of a new key and its prefix: the custom token, or an issued one. -/
def newToken (keyId : KeyId) (apiKey : Option String) (secret : UrlSafe) : Except ApiError (String × String) :=
  match apiKey with
  | none => .ok (issueApiKey keyId secret)
  | some token => (tokenPrefix token).map fun p => (token, p)

theorem tokenPrefix_ok {token p : String} :
    tokenPrefix token = .ok p ↔
      token.startsWith "rio_" = true ∧ 24 ≤ token.length ∧ p = firstChars 24 token := by
  unfold tokenPrefix
  rw [guard_eq_ok]
  simp only [not_or, not_not, not_lt, Except.ok.injEq, and_assoc, eq_comm]

/-- The prefix of an issued token is that which `token_prefix` takes of it. -/
theorem issueApiKey_tokenPrefix (keyId : KeyId) (secret : UrlSafe) :
    tokenPrefix (issueApiKey keyId secret).1 = .ok (issueApiKey keyId secret).2 := by
  refine tokenPrefix_ok.mpr ⟨?_, ?_, rfl⟩
  · rw [String.startsWith_string_iff]
    simp [issueApiKey]
  · have hlength := secret.length
    simp only [issueApiKey, String.length_append]
    omega

theorem newToken_tokenPrefix {keyId : KeyId} {apiKey : Option String} {secret : UrlSafe} {token p : String}
    (h : newToken keyId apiKey secret = .ok (token, p)) : tokenPrefix token = .ok p := by
  cases apiKey with
  | none =>
    cases h
    exact issueApiKey_tokenPrefix keyId secret
  | some t =>
    obtain ⟨q, hq, hpair⟩ := map_eq_ok h
    cases hpair
    exact hq

/-- A prefix of a token is not that of a deleted key. -/
theorem tokenPrefix_not_deleted {token p : String} (h : tokenPrefix token = .ok p) :
    p.toLower.startsWith "deleted-" = false := by
  obtain ⟨hrio, hlen, rfl⟩ := tokenPrefix_ok.mp h
  rw [String.startsWith_string_iff] at hrio
  obtain ⟨rest, hrest⟩ := hrio
  rw [Bool.eq_false_iff, Ne, String.startsWith_string_iff]
  rintro ⟨tail, htail⟩
  have htoLower : ∀ s : String, s.toLower = s.map Char.toLower := fun _ => rfl
  simp [htoLower, firstChars, ← hrest] at htail

/-! ### The tables with the secret columns -/

/-- The secret columns of a row of `api_keys`. -/
structure KeySecret where
  keyId : KeyId
  tokenHash : String
  encryptedApiKey : String
deriving DecidableEq, Repr

/-- The tables of `Access`, and the secret columns of the keys. -/
structure Credentials where
  access : Access := {}
  secrets : List KeySecret := []

/-- `Principal` with the columns that the calls on quota do not read. -/
structure KeyPrincipal extends Principal where
  nickname : String
  role : Role
  unlimited : Bool
deriving DecidableEq, Repr

/-- A key as `list_keys` shows it. -/
structure ListedKey where
  id : KeyId
  nickname : String
  role : Role
  quotaAccountId : AccountId
  active : Bool
  accountNickname : String
  balanceTokens : ℤ
  limitTokens : ℤ
  usageBaselineTokens : ℤ
  usageResetAt : Option Datetime
  unlimited : Bool
  lifetimeChargedTokens : ℤ
  keyLifetimeChargedTokens : ℤ
  settledRequests : ℤ
  apiKey : String
  usedTokens : ℤ
  grantedModels : List String
deriving DecidableEq, Repr

namespace Credentials

variable (v : KeyVault) (d : Credentials)

def secret? (id : KeyId) : Option KeySecret := Table.lookup KeySecret.keyId id d.secrets

/-- `api_keys k JOIN quota_accounts a`, each key with its secrets. -/
def rows : List (ApiKey × QuotaAccount × KeySecret) :=
  d.access.db.apiKeys.filterMap fun k => do
    let a ← d.access.db.account? k.quotaAccountId
    let s ← d.secret? k.id
    pure (k, a, s)

/-! ### Calls that read -/

def principalOf (k : ApiKey) (a : QuotaAccount) : KeyPrincipal where
  keyId := k.id
  nickname := k.nickname
  role := k.role
  quotaAccountId := k.quotaAccountId
  unlimited := a.unlimited

def authenticate (tokenPrefix token : String) : Option KeyPrincipal :=
  match d.rows.find? fun row => row.1.tokenPrefix = tokenPrefix ∧ row.1.active with
  | none => none
  | some (k, a, s) =>
    if v.verify s.tokenHash token then some (principalOf k a) else none

/-- `key_by_selector`: a nickname, or else a token; the id and the nickname of
the key. -/
def keyBySelector (selector : String) (activeOnly : Bool := true) : Option (KeyId × String) :=
  let rows := if activeOnly then d.access.db.apiKeys.filter (·.active) else d.access.db.apiKeys
  match rows.find? fun k => k.nickname = selector with
  | some k => some (k.id, k.nickname)
  | none =>
    if ¬ selector.startsWith "rio_" ∨ selector.length < 24 then none
    else
      match rows.find? fun k => k.tokenPrefix = firstChars 24 selector with
      | none => none
      | some k =>
        if (d.secret? k.id).any fun s => v.verify s.tokenHash selector then some (k.id, k.nickname) else none

/-- The nicknames of the models that a key may use, in order. -/
def grantedModels (id : KeyId) : List String :=
  (((d.access.modelGrants.filter (·.keyId = id)).filterMap fun g =>
    Table.lookup CatalogModel.id g.modelId d.access.db.modelCatalog).map (·.nickname)).mergeSort
      (fun a b => decide (a ≤ b))

def listedKey (row : ApiKey × QuotaAccount × KeySecret) : Option ListedKey :=
  let (k, a, s) := row
  let lifetime := d.access.db.accountLifetimeUsage a.id
  let lifetimeCharged := lifetime.elim 0 (·.chargedTokens)
  (v.decrypt s.encryptedApiKey).map fun apiKey =>
    { id := k.id, nickname := k.nickname, role := k.role, quotaAccountId := k.quotaAccountId, active := k.active
      accountNickname := a.nickname, balanceTokens := a.balanceTokens, limitTokens := a.limitTokens
      usageBaselineTokens := a.usageBaselineTokens, usageResetAt := a.usageResetAt, unlimited := a.unlimited
      lifetimeChargedTokens := lifetimeCharged
      keyLifetimeChargedTokens := (d.access.db.keyLifetimeUsage k.id).elim 0 (·.chargedTokens)
      settledRequests := lifetime.elim 0 (·.settledRequests)
      apiKey := apiKey
      usedTokens := max 0 (lifetimeCharged - a.usageBaselineTokens)
      grantedModels := d.grantedModels k.id }

/-- `list_keys`; `none` where the vault raises. -/
def listKeys : Option (List ListedKey) :=
  let rows := d.rows.filter fun row => row.1.deleted = false
  (rows.mergeSort fun r t => decide (r.1.nickname ≤ t.1.nickname)).mapM (d.listedKey v)

/-! ### Calls that write the secrets -/

inductive Call
  | createKey (keyId : KeyId) (nickname : String) (role : Role) (accountId : AccountId) (accountNickname : String)
      (apiKey : Option String) (limitTokens : ℤ) (unlimited : Bool) (secret : UrlSafe) (salt iv : String)
  | rotateKey (keyId : KeyId) (secret : UrlSafe) (salt iv : String)
  | deleteKey (keyId : KeyId) (iv : String)
  | access (c : Access.Call)

/-- The call writes the secrets of a key. -/
def writesSecret : Access.Call → Bool
  | .database (.quota (.createKey ..)) | .database (.replaceKeySecret ..) | .database (.deleteKey ..) => true
  | _ => false

def createKey (keyId : KeyId) (nickname : String) (role : Role) (accountId : AccountId)
    (accountNickname tokenPrefix apiKey : String) (limitTokens : ℤ) (unlimited : Bool) (salt iv : String) :
    Except StorageError Credentials := do
  let db ← d.access.db.createKey keyId nickname role accountId accountNickname tokenPrefix limitTokens unlimited
  pure { access := { d.access with db := db }
         secrets := d.secrets ++ [⟨keyId, v.hash salt apiKey, v.encrypt iv apiKey⟩] }

/-- The UPDATE of the secret columns of a key. -/
def writeSecret (keyId : KeyId) (tokenHash encryptedApiKey : String) : List KeySecret :=
  Table.modify KeySecret.keyId keyId (fun _ => ⟨keyId, tokenHash, encryptedApiKey⟩) d.secrets

/-- `replace_key_secret`; the flag is False when no row is updated. -/
def replaceKeySecret (keyId : KeyId) (tokenPrefix apiKey salt iv : String) :
    Except StorageError (Credentials × Bool) := do
  let (db, updated) ← d.access.db.replaceKeySecret keyId tokenPrefix
  pure (if updated then
    ({ access := { d.access with db := db }
       secrets := d.writeSecret keyId (v.hash salt apiKey) (v.encrypt iv apiKey) }, true)
  else (d, false))

/-- `delete_key`; the tombstone takes the place of the hash. -/
def deleteKey (keyId : KeyId) (iv : String) : Except StorageError (Credentials × Bool) := do
  let (db, updated) ← d.access.db.deleteKey keyId
  let tombstone := "deleted-" ++ keyId
  pure (if updated then
    ({ access := { db := db, modelGrants := d.access.grantsAfter (.deleteKey keyId) }
       secrets := d.writeSecret keyId tombstone (v.encrypt iv tombstone) }, true)
  else (d, false))

/-- One call; a call that raises leaves the tables as they were. -/
def call : Call → Option Credentials
  | .createKey k n r a an apiKey l u secret salt iv =>
    match newToken k apiKey secret with
    | .error _ => some d
    | .ok (token, p) => some (commit d (d.createKey v k n r a an p token l u salt iv))
  | .rotateKey k secret salt iv =>
    some (commit d ((d.replaceKeySecret v k (issueApiKey k secret).2 (issueApiKey k secret).1 salt iv).map (·.1)))
  | .deleteKey k iv => some (commit d ((d.deleteKey v k iv).map (·.1)))
  | .access c =>
    if writesSecret c then none
    else (Access.call d.access c).map fun access => { d with access := access }

end Credentials

/-! ### What the calls do to keys and accounts -/

namespace Database

variable {db db' : Database}

theorem createKey_row {k : KeyId} {n : String} {r : Role} {id : AccountId} {an p : String} {l : ℤ} {u : Bool}
    (hok : db.createKey k n r id an p l u = .ok db') :
    db'.apiKeys = db.apiKeys ++ [{ id := k, nickname := n, role := r, quotaAccountId := id, tokenPrefix := p }] ∧
      (∀ j ∈ db.apiKeys, j.id ≠ k ∧ j.nickname ≠ n ∧ j.tokenPrefix ≠ p) ∧ (db'.account? id).isSome := by
  unfold createKey at hok
  obtain ⟨db2, h2, hok⟩ := bind_eq_ok.mp hok
  have hkeep := (insertAccount_keeps db _).trans (unlimitedIfAdmin_keeps h2).1
  unfold insertKey at hok
  obtain ⟨hclash, hok⟩ := guard_eq_ok.mp hok
  cases hok
  simp only [List.any_eq_true, decide_eq_true_eq, not_or, not_exists, not_and, Bool.not_eq_true,
    Option.isNone_eq_false_iff, hkeep.keys] at hclash
  obtain ⟨hfresh, haccount⟩ := hclash
  exact ⟨by rw [hkeep.keys], hfresh, haccount⟩

def Op.createsKey : Op → Bool
  | .createKey .. => true
  | _ => false

/-- Only `create_key` inserts a key. -/
theorem step_sameKeys {op : Op} (hop : op.createsKey = false) (hs : step db op = some db') :
    db'.apiKeys = db.apiKeys := by
  unfold step at hs
  split at hs
  case isFalse => cases hs
  case isTrue hlink =>
  cases hs
  cases op with
  | createKey => cases hop
  | updateQuota k l u =>
    refine commit_invariant (I := fun d : Database => d.apiKeys = db.apiKeys) rfl fun d hd => ?_
    obtain ⟨⟨d', b⟩, hd', rfl⟩ := map_eq_ok hd
    rcases updateQuota_ok hd' with rfl | ⟨key, -, hup⟩
    · rfl
    · exact (updateAccount_ok.mp hup).2 ▸ rfl
  | resetUsage k now =>
    refine commit_invariant (I := fun d : Database => d.apiKeys = db.apiKeys) rfl fun d hd => ?_
    obtain ⟨⟨d', b⟩, hd', rfl⟩ := map_eq_ok hd
    rcases resetUsage_ok hd' with rfl | ⟨key, -, hup⟩
    · rfl
    · exact (updateAccount_ok.mp hup).2 ▸ rfl
  | reserveQuota r hash p m e rid lid =>
    refine commit_invariant (I := fun d : Database => d.apiKeys = db.apiKeys) rfl fun d hd => ?_
    obtain ⟨⟨d', rid'⟩, hd', rfl⟩ := map_eq_ok hd
    exact (reserveQuota_keeps hd').keys
  | createInferenceRequest | markRequestAdmitted =>
    exact rows_invariant (I := fun d => d.apiKeys = db.apiKeys) (fun _ => rfl) rfl
  | settleQuota | releaseReservation | recoverOrphanedState =>
    exact settle_invariant (I := fun d => d.apiKeys = db.apiKeys) rfl
      (fun hd hok => (settleQuota_keeps hok).keys.trans hd) rfl
  | summarizeUsage t now =>
    refine summarize_invariant (I := fun d => d.apiKeys = db.apiKeys) rfl fun hok => ?_
    obtain ⟨cutoff, summaries, start, -, -, -, rfl⟩ := summarizeUsage_ok hok
    rfl

def HasAccount (a : AccountId) (db : Database) : Prop := (db.account? a).isSome

theorem hasAccount_accounts (a : AccountId) : AccountInvariant (HasAccount a) := by
  refine ⟨fun d account hd => ?_, fun d d' id f hd hid hok => ?_, fun d keys ledger hd => hd⟩
  · unfold insertAccountOrIgnore
    split
    · exact hd
    · obtain ⟨b, hb, hba⟩ := account_isSome.mp hd
      exact account_isSome.mpr ⟨b, List.mem_append_left _ hb, hba⟩
  · obtain ⟨-, rfl⟩ := updateAccount_ok.mp hok
    obtain ⟨b, hb, hba⟩ := account_isSome.mp hd
    apply account_isSome.mpr
    by_cases hb' : b.id = id
    · exact ⟨f b, Table.mem_modify.mpr (.inr ⟨b, hb, hb', rfl⟩), (hid b).trans hba⟩
    · exact ⟨b, Table.mem_modify.mpr (.inl ⟨hb, hb'⟩), hba⟩

/-- An account is never deleted. -/
theorem hasAccount_call {a : AccountId} {c : Call} (h : HasAccount a db) (hs : call db c = some db') :
    HasAccount a db' := by
  rcases call_cases hs with ⟨op, -, hs⟩ | ⟨keys, rfl⟩ | ⟨m, -, rfl⟩ | ⟨id, f, -, rfl⟩
  · unfold step at hs
    split at hs
    case isFalse => cases hs
    case isTrue hlink =>
    cases hs
    cases op with
    | createKey | updateQuota | resetUsage => exact (hasAccount_accounts a).run h rfl
    | reserveQuota =>
      refine (hasAccount_accounts a).reserve h fun q d _ _ hok => ?_
      obtain ⟨-, -, -, rfl⟩ := insertReservation_ok hok
      exact h
    | createInferenceRequest | markRequestAdmitted => exact rows_invariant (I := HasAccount a) (fun _ => h) rfl
    | settleQuota | releaseReservation | recoverOrphanedState =>
      refine settle_invariant h (fun hd hok => ?_) rfl
      exact (hasAccount_accounts a).settle hd (fun _ _ hd => hd) hok
    | summarizeUsage t now =>
      refine summarize_invariant h fun hok => ?_
      obtain ⟨cutoff, summaries, start, -, -, -, rfl⟩ := summarizeUsage_ok hok
      exact h
  · exact h
  · exact h
  · exact h

/-- The row that is written has a nickname and a prefix that no other row has. -/
theorem updateKey_fresh {id : KeyId} {key : ApiKey} {f : ApiKey → ApiKey} (hkey : db.key? id = some key)
    (hok : db.updateKey id f = .ok db') :
    db' = { db with apiKeys := Table.modify ApiKey.id id f db.apiKeys } ∧
      ∀ j ∈ db.apiKeys, j.id ≠ id → j.nickname ≠ (f key).nickname ∧ j.tokenPrefix ≠ (f key).tokenPrefix := by
  unfold updateKey at hok
  obtain ⟨hclash, hok⟩ := guard_eq_ok.mp hok
  cases hok
  simp only [List.any_eq_true, decide_eq_true_eq, not_exists, not_and, not_or] at hclash
  obtain ⟨hmem, hid⟩ := Table.lookup_some hkey
  exact ⟨rfl, fun j hj hne => hclash key hmem hid j hj hne⟩

end Database

namespace Credentials

variable {v : KeyVault} {d d' : Credentials}

/-- What a call does to the keys and to their secrets. -/
inductive SecretWrite (v : KeyVault) (d d' : Credentials) : Call → Prop
  | same {c : Call} (hkeys : d'.access.db.apiKeys = d.access.db.apiKeys) (hsecrets : d'.secrets = d.secrets) :
      SecretWrite v d d' c
  | create {k : KeyId} {n : String} {r : Role} {a : AccountId} {an : String} {apiKey : Option String} {l : ℤ}
      {u : Bool} {secret : UrlSafe} {salt iv t p : String} (htoken : newToken k apiKey secret = .ok (t, p))
      (hfresh : ∀ j ∈ d.access.db.apiKeys, j.id ≠ k ∧ j.nickname ≠ n ∧ j.tokenPrefix ≠ p)
      (haccount : (d'.access.db.account? a).isSome)
      (hkeys : d'.access.db.apiKeys = d.access.db.apiKeys ++
        [{ id := k, nickname := n, role := r, quotaAccountId := a, tokenPrefix := p }])
      (hsecrets : d'.secrets = d.secrets ++ [⟨k, v.hash salt t, v.encrypt iv t⟩]) :
      SecretWrite v d d' (.createKey k n r a an apiKey l u secret salt iv)
  | activate {key : ApiKey} {a : Bool} (hkey : d.access.db.key? key.id = some key)
      (hon : a = true → key.tokenPrefix.startsWith "deleted-" = false)
      (hkeys : d'.access.db.apiKeys =
        Table.modify ApiKey.id key.id (fun k => { k with active := a }) d.access.db.apiKeys)
      (hsecrets : d'.secrets = d.secrets) :
      SecretWrite v d d' (.access (.database (.setKeyActive key.id a)))
  | rotate {key : ApiKey} {secret : UrlSafe} {salt iv t p : String} (hkey : d.access.db.key? key.id = some key)
      (hlive : key.deleted = false) (htoken : (t, p) = issueApiKey key.id secret)
      (hfresh : ∀ j ∈ d.access.db.apiKeys, j.id ≠ key.id → j.nickname ≠ key.nickname ∧ j.tokenPrefix ≠ p)
      (hkeys : d'.access.db.apiKeys =
        Table.modify ApiKey.id key.id (fun k => { k with tokenPrefix := p, active := true }) d.access.db.apiKeys)
      (hsecrets : d'.secrets = d.writeSecret key.id (v.hash salt t) (v.encrypt iv t)) :
      SecretWrite v d d' (.rotateKey key.id secret salt iv)
  | delete {key : ApiKey} {iv : String} (hkey : d.access.db.key? key.id = some key)
      (hfresh : ∀ j ∈ d.access.db.apiKeys, j.id ≠ key.id →
        j.nickname ≠ "deleted-" ++ key.id ∧ j.tokenPrefix ≠ "deleted-" ++ key.id)
      (hkeys : d'.access.db.apiKeys =
        Table.modify ApiKey.id key.id (Database.tombstone key.id) d.access.db.apiKeys)
      (hsecrets : d'.secrets = d.writeSecret key.id ("deleted-" ++ key.id) (v.encrypt iv ("deleted-" ++ key.id))) :
      SecretWrite v d d' (.deleteKey key.id iv)

theorem createKey_ok {k : KeyId} {n : String} {r : Role} {a : AccountId} {an t p : String} {l : ℤ} {u : Bool}
    {salt iv : String} (hok : d.createKey v k n r a an p t l u salt iv = .ok d') :
    (∀ j ∈ d.access.db.apiKeys, j.id ≠ k ∧ j.nickname ≠ n ∧ j.tokenPrefix ≠ p) ∧
      (d'.access.db.account? a).isSome ∧
      d'.access.db.apiKeys = d.access.db.apiKeys ++
        [{ id := k, nickname := n, role := r, quotaAccountId := a, tokenPrefix := p }] ∧
      d'.secrets = d.secrets ++ [⟨k, v.hash salt t, v.encrypt iv t⟩] := by
  unfold createKey at hok
  obtain ⟨db, hdb, hok⟩ := bind_eq_ok.mp hok
  cases pure_eq_ok.mp hok
  obtain ⟨hkeys, hfresh, haccount⟩ := Database.createKey_row hdb
  exact ⟨hfresh, haccount, hkeys, rfl⟩

theorem createKey_secrets {k : KeyId} {n : String} {r : Role} {a : AccountId} {an t p : String} {l : ℤ} {u : Bool}
    {apiKey : Option String} {secret : UrlSafe} {salt iv : String} (htoken : newToken k apiKey secret = .ok (t, p))
    (hok : d.createKey v k n r a an p t l u salt iv = .ok d') :
    SecretWrite v d d' (.createKey k n r a an apiKey l u secret salt iv) := by
  obtain ⟨hfresh, haccount, hkeys, hsecrets⟩ := createKey_ok hok
  exact .create htoken hfresh haccount hkeys hsecrets

theorem replaceKeySecret_ok {k : KeyId} {p t salt iv : String} {updated : Bool}
    (hok : d.replaceKeySecret v k p t salt iv = .ok (d', updated)) :
    (updated = false ∧ d' = d) ∨ (updated = true ∧ ∃ db, d.access.db.replaceKeySecret k p = .ok (db, true) ∧
      d' = { access := { d.access with db := db }
             secrets := d.writeSecret k (v.hash salt t) (v.encrypt iv t) }) := by
  unfold replaceKeySecret at hok
  obtain ⟨⟨db, updated'⟩, hdb, hok⟩ := bind_eq_ok.mp hok
  have hpair := pure_eq_ok.mp hok
  cases updated' with
  | false =>
    cases hpair
    exact .inl ⟨rfl, rfl⟩
  | true =>
    cases hpair
    exact .inr ⟨rfl, db, hdb, rfl⟩

theorem deleteKey_ok {k : KeyId} {iv : String} {updated : Bool} (hok : d.deleteKey v k iv = .ok (d', updated)) :
    (updated = false ∧ d' = d) ∨ (updated = true ∧ ∃ db, d.access.db.deleteKey k = .ok (db, true) ∧
      d' = { access := { db := db, modelGrants := d.access.grantsAfter (.deleteKey k) }
             secrets := d.writeSecret k ("deleted-" ++ k) (v.encrypt iv ("deleted-" ++ k)) }) := by
  unfold deleteKey at hok
  obtain ⟨⟨db, updated'⟩, hdb, hok⟩ := bind_eq_ok.mp hok
  have hpair := pure_eq_ok.mp hok
  cases updated' with
  | false =>
    cases hpair
    exact .inl ⟨rfl, rfl⟩
  | true =>
    cases hpair
    exact .inr ⟨rfl, db, hdb, rfl⟩

/-- A key that is rotated has a row that is not a tombstone. -/
theorem replaceKeySecret_row {k : KeyId} {p t salt iv : String}
    (hok : d.replaceKeySecret v k p t salt iv = .ok (d', true)) :
    ∃ key, key.id = k ∧ d.access.db.key? key.id = some key ∧ key.deleted = false ∧
      (∀ j ∈ d.access.db.apiKeys, j.id ≠ key.id → j.nickname ≠ key.nickname ∧ j.tokenPrefix ≠ p) ∧
      d'.access.db.apiKeys =
        Table.modify ApiKey.id key.id (fun k => { k with tokenPrefix := p, active := true }) d.access.db.apiKeys ∧
      d'.secrets = d.writeSecret key.id (v.hash salt t) (v.encrypt iv t) := by
  rcases replaceKeySecret_ok hok with ⟨hfalse, -⟩ | ⟨-, db, hdb, rfl⟩
  · cases hfalse
  · unfold Database.replaceKeySecret at hdb
    split at hdb
    · cases hdb
    · rename_i key hkey
      obtain rfl : key.id = k := (Table.lookup_some hkey).2
      split at hdb
      · cases hdb
      · rename_i hlive
        obtain ⟨db1, h1, hdb⟩ := bind_eq_ok.mp hdb
        cases pure_eq_ok.mp hdb
        obtain ⟨rfl, hfresh⟩ := Database.updateKey_fresh hkey h1
        exact ⟨key, rfl, hkey, Bool.eq_false_iff.mpr hlive, hfresh, rfl, rfl⟩

theorem rotateKey_secrets {k : KeyId} {secret : UrlSafe} {salt iv : String} {updated : Bool}
    (hok : d.replaceKeySecret v k (issueApiKey k secret).2 (issueApiKey k secret).1 salt iv = .ok (d', updated)) :
    SecretWrite v d d' (.rotateKey k secret salt iv) := by
  rcases replaceKeySecret_ok hok with ⟨-, rfl⟩ | ⟨rfl, -⟩
  · exact .same rfl rfl
  · obtain ⟨key, rfl, hkey, hlive, hfresh, hkeys, hsecrets⟩ := replaceKeySecret_row hok
    exact .rotate hkey hlive rfl hfresh hkeys hsecrets

theorem deleteKey_secrets {k : KeyId} {iv : String} {updated : Bool} (hok : d.deleteKey v k iv = .ok (d', updated)) :
    SecretWrite v d d' (.deleteKey k iv) := by
  rcases deleteKey_ok hok with ⟨-, rfl⟩ | ⟨-, db, hdb, rfl⟩
  · exact .same rfl rfl
  · unfold Database.deleteKey at hdb
    split at hdb
    · cases hdb
    · rename_i key hkey
      obtain rfl : key.id = k := (Table.lookup_some hkey).2
      obtain ⟨-, hdb⟩ := guard_eq_ok.mp hdb
      obtain ⟨db1, h1, hdb⟩ := bind_eq_ok.mp hdb
      cases pure_eq_ok.mp hdb
      obtain ⟨rfl, hfresh⟩ := Database.updateKey_fresh hkey h1
      exact .delete hkey hfresh rfl rfl

theorem call_database_some {a a' : Access} {c : Database.Call} (hs : Access.call a (.database c) = some a') :
    ∃ db, a.db.call c = some db ∧ { db := db, modelGrants := a.grantsAfter c } = a' :=
  Option.map_eq_some_iff.mp hs

theorem call_updateModelAccess {a a' : Access} {k : KeyId} {names : List String} {mode : AccessMode}
    (hs : Access.call a (.updateModelAccess k names mode) = some a') : a'.db = a.db := by
  cases hs
  refine commit_invariant (I := fun e : Access => e.db = a.db) rfl fun e he => ?_
  obtain ⟨⟨e', names'⟩, he', rfl⟩ := map_eq_ok he
  unfold Access.updateModelAccess at he'
  obtain ⟨-, he'⟩ := guard_eq_ok'.mp he'
  obtain ⟨-, he'⟩ := guard_eq_ok.mp he'
  cases he'
  rfl

theorem setKeyActive_row {db db' : Database} {k : KeyId} {a updated : Bool}
    (hok : db.setKeyActive k a = .ok (db', updated)) :
    (updated = false ∧ db' = db) ∨ (updated = true ∧ ∃ key, key.id = k ∧ db.key? key.id = some key ∧
      (a = true → key.tokenPrefix.startsWith "deleted-" = false) ∧
      db' = { db with apiKeys := Table.modify ApiKey.id key.id (fun k => { k with active := a }) db.apiKeys }) := by
  unfold Database.setKeyActive at hok
  split at hok
  · cases hok
    exact .inl ⟨rfl, rfl⟩
  · rename_i key hkey
    obtain rfl : key.id = k := (Table.lookup_some hkey).2
    split at hok
    · cases hok
      exact .inl ⟨rfl, rfl⟩
    · rename_i hon
      obtain ⟨-, hok⟩ := guard_eq_ok.mp hok
      obtain ⟨db1, h1, hok⟩ := bind_eq_ok.mp hok
      cases pure_eq_ok.mp hok
      obtain ⟨rfl, -⟩ := Database.updateKey_fresh hkey h1
      exact .inr ⟨rfl, key, rfl, hkey, fun ha => by simpa [ha] using hon, rfl⟩

theorem setKeyActive_secrets {k : KeyId} {a : Bool} {access : Access}
    (hs : Access.call d.access (.database (.setKeyActive k a)) = some access) :
    SecretWrite v d { d with access := access } (.access (.database (.setKeyActive k a))) := by
  obtain ⟨db, hdb, rfl⟩ := call_database_some hs
  cases hdb
  cases hok : d.access.db.setKeyActive k a with
  | error e => exact .same rfl rfl
  | ok result =>
    rcases setKeyActive_row hok with ⟨-, heq⟩ | ⟨-, key, rfl, hkey, hon, heq⟩
    · exact .same (congrArg Database.apiKeys heq) rfl
    · exact .activate hkey hon (congrArg Database.apiKeys heq) rfl

/-- A call writes the secrets of the key that it names, and no other call
inserts a key or changes one. -/
theorem call_secrets {c : Call} (hs : call v d c = some d') : SecretWrite v d d' c := by
  cases c with
  | createKey k n r a an apiKey l u secret salt iv =>
    simp only [call] at hs
    split at hs
    · cases hs
      exact .same rfl rfl
    · rename_i token p htoken
      cases hs
      exact commit_invariant (.same rfl rfl) fun d' hok => createKey_secrets htoken hok
  | rotateKey k secret salt iv =>
    obtain rfl := Option.some.inj hs
    refine commit_invariant (I := fun e => SecretWrite v d e _) (.same rfl rfl) fun e hcommit => ?_
    obtain ⟨⟨d1, updated⟩, hok, rfl⟩ := map_eq_ok hcommit
    exact rotateKey_secrets hok
  | deleteKey k iv =>
    obtain rfl := Option.some.inj hs
    refine commit_invariant (I := fun e => SecretWrite v d e _) (.same rfl rfl) fun e hcommit => ?_
    obtain ⟨⟨d1, updated⟩, hok, rfl⟩ := map_eq_ok hcommit
    exact deleteKey_secrets hok
  | access c =>
    simp only [call] at hs
    split at hs
    · cases hs
    · rename_i hwrites
      obtain ⟨access, haccess, rfl⟩ := Option.map_eq_some_iff.mp hs
      cases c with
      | updateModelAccess k names mode =>
        exact .same (congrArg Database.apiKeys (call_updateModelAccess haccess)) rfl
      | database c =>
        cases c with
        | setKeyActive k a => exact setKeyActive_secrets haccess
        | quota op =>
          obtain ⟨db, hdb, rfl⟩ := call_database_some haccess
          cases op
          case createKey => exact absurd rfl hwrites
          all_goals exact .same (Database.step_sameKeys rfl hdb) rfl
        | replaceKeySecret k p => exact absurd rfl hwrites
        | deleteKey k => exact absurd rfl hwrites
        | insertModel m =>
          obtain ⟨db, hdb, rfl⟩ := call_database_some haccess
          cases hdb
          refine .same (commit_invariant (I := fun d' : Database => d'.apiKeys = d.access.db.apiKeys) rfl
            fun d' hd => ?_) rfl
          unfold Database.insertModel at hd
          obtain ⟨-, hd⟩ := guard_eq_ok.mp hd
          cases hd
          rfl
        | updateModel id state path =>
          obtain ⟨db, hdb, rfl⟩ := call_database_some haccess
          cases hdb
          exact .same rfl rfl

/-- The tables are as before, or as a call of `Access` leaves them. -/
def Follows (a a' : Access) : Prop := a' = a ∨ ∃ c, Access.call a c = some a'

theorem call_access {c : Call} (hs : call v d c = some d') : Follows d.access d'.access := by
  cases c with
  | createKey k n r a an apiKey l u secret salt iv =>
    simp only [call] at hs
    split at hs
    · cases hs
      exact .inl rfl
    · rename_i token p htoken
      cases hs
      refine commit_invariant (I := fun e : Credentials => Follows d.access e.access) (.inl rfl) fun e hok => ?_
      obtain ⟨db, hdb, hok⟩ := bind_eq_ok.mp hok
      cases pure_eq_ok.mp hok
      refine .inr ⟨.database (.quota (.createKey k n r a an p l u)), ?_⟩
      simp only [Access.call, Database.call, Database.step, Database.Op.linked, Database.run, hdb, commit, if_true,
        Option.map_some, Access.grantsAfter]
  | rotateKey k secret salt iv =>
    obtain rfl := Option.some.inj hs
    refine commit_invariant (I := fun e : Credentials => Follows d.access e.access) (.inl rfl) fun e hcommit => ?_
    obtain ⟨⟨d1, updated⟩, hok, rfl⟩ := map_eq_ok hcommit
    rcases replaceKeySecret_ok hok with ⟨-, rfl⟩ | ⟨-, db, hdb, rfl⟩
    · exact .inl rfl
    · refine .inr ⟨.database (.replaceKeySecret k (issueApiKey k secret).2), ?_⟩
      simp only [Access.call, Database.call, hdb, Except.map, commit, Option.map_some, Access.grantsAfter]
  | deleteKey k iv =>
    obtain rfl := Option.some.inj hs
    refine commit_invariant (I := fun e : Credentials => Follows d.access e.access) (.inl rfl) fun e hcommit => ?_
    obtain ⟨⟨d1, updated⟩, hok, rfl⟩ := map_eq_ok hcommit
    rcases deleteKey_ok hok with ⟨-, rfl⟩ | ⟨-, db, hdb, rfl⟩
    · exact .inl rfl
    · refine .inr ⟨.database (.deleteKey k), ?_⟩
      simp only [Access.call, Database.call, hdb, Except.map, commit, Option.map_some]
  | access c =>
    simp only [call] at hs
    split at hs
    · cases hs
    · obtain ⟨access, haccess, rfl⟩ := Option.map_eq_some_iff.mp hs
      exact .inr ⟨c, haccess⟩

/-- What every call of `Database` keeps, every run of calls keeps. -/
theorem run_invariant {I : Database → Prop} (hI : ∀ db c db', I db → db.call c = some db' → I db')
    {calls : List Call} (hd : I d.access.db) (h : exec (call v) d calls = some d') : I d'.access.db := by
  refine exec_invariant (I := fun e => I e.access.db) (fun e c e' he hs => ?_) hd h
  rcases call_access hs with heq | ⟨c', hc'⟩
  · exact heq ▸ he
  · exact Access.run_invariant hI he ((exec_singleton Access.call).mpr hc')

/-! ### The row of a key and its secrets are of one token -/

/-- The hash, the encrypted token and the prefix are those of one token. -/
def Stored (v : KeyVault) (k : ApiKey) (s : KeySecret) : Prop :=
  ∃ token salt iv, tokenPrefix token = .ok k.tokenPrefix ∧ s = ⟨k.id, v.hash salt token, v.encrypt iv token⟩

def Buried (k : ApiKey) : Prop := k.active = false ∧ k.tokenPrefix = "deleted-" ++ k.id

structure Sealed (v : KeyVault) (d : Credentials) : Prop where
  ids : (d.access.db.apiKeys.map (·.id)).Nodup
  nicknames : (d.access.db.apiKeys.map (·.nickname)).Nodup
  prefixes : (d.access.db.apiKeys.map (·.tokenPrefix)).Nodup
  accounts : ∀ k ∈ d.access.db.apiKeys, (d.access.db.account? k.quotaAccountId).isSome
  aligned : d.secrets.map (·.keyId) = d.access.db.apiKeys.map (·.id)
  secrets : ∀ k ∈ d.access.db.apiKeys, ∀ s ∈ d.secrets, s.keyId = k.id → Stored v k s ∨ Buried k

theorem stored_not_deleted {k : ApiKey} {s : KeySecret} (h : Stored v k s) : k.deleted = false := by
  obtain ⟨token, salt, iv, htokenPrefix, -⟩ := h
  exact tokenPrefix_not_deleted htokenPrefix

theorem buried_deleted {k : ApiKey} (h : Buried k) : k.deleted = true := by
  unfold ApiKey.deleted
  rw [h.2]
  exact Database.tombstone_deleted k.id

theorem Sealed.secret (h : Sealed v d) {k : ApiKey} (hk : k ∈ d.access.db.apiKeys) :
    ∃ s, d.secret? k.id = some s ∧ s ∈ d.secrets ∧ s.keyId = k.id := by
  have hid : k.id ∈ d.secrets.map (·.keyId) := h.aligned ▸ List.mem_map_of_mem hk
  obtain ⟨s, hs, hsk⟩ := List.mem_map.mp hid
  have hn : (d.secrets.map (·.keyId)).Nodup := h.aligned ▸ h.ids
  exact ⟨s, hsk ▸ Table.lookup_of_mem hn hs, hs, hsk⟩

theorem mem_rows {k : ApiKey} {a : QuotaAccount} {s : KeySecret} :
    (k, a, s) ∈ d.rows ↔ k ∈ d.access.db.apiKeys ∧ d.access.db.account? k.quotaAccountId = some a ∧
      d.secret? k.id = some s := by
  unfold rows
  rw [List.mem_filterMap]
  constructor
  · rintro ⟨k', hk, hrow⟩
    obtain ⟨a', ha, hrow⟩ := Option.bind_eq_some_iff.mp hrow
    obtain ⟨s', hs, hrow⟩ := Option.bind_eq_some_iff.mp hrow
    cases hrow
    exact ⟨hk, ha, hs⟩
  · rintro ⟨hk, ha, hs⟩
    exact ⟨k, hk, by simp only [ha, hs, Option.bind_eq_bind, Option.bind_some, Option.pure_def]⟩

/-- Every key has its row. -/
theorem Sealed.row (h : Sealed v d) {k : ApiKey} (hk : k ∈ d.access.db.apiKeys) :
    ∃ a s, (k, a, s) ∈ d.rows := by
  obtain ⟨a, ha⟩ := Option.isSome_iff_exists.mp (h.accounts k hk)
  obtain ⟨s, hs, -, -⟩ := h.secret hk
  exact ⟨a, s, mem_rows.mpr ⟨hk, ha, hs⟩⟩

theorem accounts_call {c : Call} (h : ∀ k ∈ d.access.db.apiKeys, (d.access.db.account? k.quotaAccountId).isSome)
    (hs : call v d c = some d') : ∀ k ∈ d'.access.db.apiKeys, (d'.access.db.account? k.quotaAccountId).isSome := by
  have hold : ∀ k ∈ d.access.db.apiKeys, (d'.access.db.account? k.quotaAccountId).isSome := by
    intro k hk
    exact run_invariant (I := Database.HasAccount k.quotaAccountId) (fun _ _ _ => Database.hasAccount_call) (h k hk)
      ((exec_singleton (call v)).mpr hs)
  have hmodify : ∀ {id : KeyId} {f : ApiKey → ApiKey},
      d'.access.db.apiKeys = Table.modify ApiKey.id id f d.access.db.apiKeys →
      (∀ k, (f k).quotaAccountId = k.quotaAccountId) →
      ∀ k ∈ d'.access.db.apiKeys, (d'.access.db.account? k.quotaAccountId).isSome := by
    intro id f hkeys hf k hk
    rw [hkeys] at hk
    rcases Table.mem_modify.mp hk with ⟨hk, -⟩ | ⟨k0, hk0, -, rfl⟩
    · exact hold k hk
    · exact hf k0 ▸ hold k0 hk0
  cases call_secrets hs with
  | same hkeys => exact fun k hk => hold k (hkeys ▸ hk)
  | create htoken hfresh haccount hkeys =>
    intro k hk
    rw [hkeys] at hk
    rcases List.mem_append.mp hk with hk | hk
    · exact hold k hk
    · rw [List.mem_singleton.mp hk]
      exact haccount
  | activate hkey hon hkeys => exact hmodify hkeys fun _ => rfl
  | rotate hkey hlive htoken hfresh hkeys => exact hmodify hkeys fun _ => rfl
  | delete hkey hfresh hkeys => exact hmodify hkeys fun _ => rfl

/-- A UNIQUE column stays so if the row that is written gets a value that no
other row has. -/
theorem nodup_column (column : ApiKey → String) {keys : List ApiKey} (hids : (keys.map (·.id)).Nodup)
    (hn : (keys.map column).Nodup) {key : ApiKey} {f : ApiKey → ApiKey}
    (hkey : Table.lookup ApiKey.id key.id keys = some key) (hid : ∀ k, (f k).id = k.id)
    (hfresh : ∀ j ∈ keys, j.id ≠ key.id → column j ≠ column (f key)) :
    ((Table.modify ApiKey.id key.id f keys).map column).Nodup := by
  have hrows : ∀ k ∈ Table.modify ApiKey.id key.id f keys, (k ∈ keys ∧ k.id ≠ key.id) ∨ k = f key := by
    intro k hk
    rcases Table.mem_modify.mp hk with hold | ⟨k0, hk0, hid0, rfl⟩
    · exact .inl hold
    · obtain rfl : k0 = key := Table.eq_of_key hids hk0 (Table.lookup_some hkey).1 hid0
      exact .inr rfl
  have hnodup : (Table.modify ApiKey.id key.id f keys).Nodup := by
    refine List.Nodup.of_map ApiKey.id ?_
    rw [@Table.map_modify_of_eq _ _ _ ApiKey.id key.id f _ (·.id) keys fun k _ _ => hid k]
    exact hids
  refine hnodup.map_on fun x hx y hy hsame => ?_
  rcases hrows x hx with ⟨hx, hxid⟩ | rfl <;> rcases hrows y hy with ⟨hy, hyid⟩ | rfl
  · exact List.inj_on_of_nodup_map hn hx hy hsame
  · exact absurd hsame (hfresh x hx hxid)
  · exact absurd hsame.symm (hfresh y hy hyid)
  · rfl

/-- A row of a key whose secrets are written, and its secrets. -/
theorem Sealed.written (h : Sealed v d) {key : ApiKey} {f : ApiKey → ApiKey} {hash encrypted : String}
    (hkey : d.access.db.key? key.id = some key)
    (hkeys : d'.access.db.apiKeys = Table.modify ApiKey.id key.id f d.access.db.apiKeys) (hid : ∀ k, (f k).id = k.id)
    (hfresh : ∀ j ∈ d.access.db.apiKeys, j.id ≠ key.id →
      j.nickname ≠ (f key).nickname ∧ j.tokenPrefix ≠ (f key).tokenPrefix)
    (hsecrets : d'.secrets = d.writeSecret key.id hash encrypted)
    (haccounts : ∀ k ∈ d'.access.db.apiKeys, (d'.access.db.account? k.quotaAccountId).isSome)
    (hrow : Stored v (f key) ⟨key.id, hash, encrypted⟩ ∨ Buried (f key)) : Sealed v d' := by
  have hids : d'.access.db.apiKeys.map (·.id) = d.access.db.apiKeys.map (·.id) := by
    rw [hkeys]
    exact @Table.map_modify_of_eq _ _ _ ApiKey.id key.id f _ (·.id) d.access.db.apiKeys fun k _ _ => hid k
  refine ⟨hids ▸ h.ids, ?_, ?_, haccounts, ?_, fun k hk s hs hsk => ?_⟩
  · exact hkeys ▸ nodup_column (·.nickname) h.ids h.nicknames hkey hid fun j hj hne => (hfresh j hj hne).1
  · exact hkeys ▸ nodup_column (·.tokenPrefix) h.ids h.prefixes hkey hid fun j hj hne => (hfresh j hj hne).2
  · rw [hids, hsecrets, ← h.aligned]
    exact @Table.map_key_modify _ _ _ KeySecret.keyId key.id _ (fun _ _ => rfl) d.secrets
  · rw [hkeys] at hk
    rw [hsecrets] at hs
    rcases Table.mem_modify.mp hk with ⟨hk, hne⟩ | ⟨k0, hk0, hid0, rfl⟩
    · rcases Table.mem_modify.mp hs with ⟨hs, -⟩ | ⟨s0, -, -, rfl⟩
      · exact h.secrets k hk s hs hsk
      · exact absurd hsk.symm hne
    · obtain rfl : k0 = key := Table.eq_of_key h.ids hk0 (Table.lookup_some hkey).1 hid0
      rcases Table.mem_modify.mp hs with ⟨-, hne⟩ | ⟨s0, -, -, rfl⟩
      · exact absurd (hsk.trans (hid k0)) hne
      · exact hrow

theorem sealed_call {c : Call} (h : Sealed v d) (hcall : call v d c = some d') : Sealed v d' := by
  have haccounts := accounts_call h.accounts hcall
  cases call_secrets hcall with
  | same hkeys hsecrets =>
    refine ⟨hkeys ▸ h.ids, hkeys ▸ h.nicknames, hkeys ▸ h.prefixes, haccounts, ?_, ?_⟩
    · rw [hkeys, hsecrets]
      exact h.aligned
    · rw [hkeys, hsecrets]
      exact h.secrets
  | create htoken hfresh haccount hkeys hsecrets =>
    rename_i k n r a an apiKey l u secret salt iv t p
    refine ⟨?_, ?_, ?_, haccounts, ?_, fun key hkey s hs hsk => ?_⟩
    · rw [hkeys, List.map_append, List.nodup_append]
      refine ⟨h.ids, List.nodup_singleton _, ?_⟩
      simpa using fun j hj => (hfresh j hj).1
    · rw [hkeys, List.map_append, List.nodup_append]
      refine ⟨h.nicknames, List.nodup_singleton _, ?_⟩
      simpa using fun j hj => (hfresh j hj).2.1
    · rw [hkeys, List.map_append, List.nodup_append]
      refine ⟨h.prefixes, List.nodup_singleton _, ?_⟩
      simpa using fun j hj => (hfresh j hj).2.2
    · rw [hkeys, hsecrets, List.map_append, List.map_append, h.aligned]
      rfl
    · -- an old key has an old secret, and the new key the new one
      have hold : ∀ s ∈ d.secrets, s.keyId ≠ k := by
        intro s hs
        have hid : s.keyId ∈ d.access.db.apiKeys.map (·.id) := h.aligned ▸ List.mem_map_of_mem hs
        obtain ⟨j, hj, hjs⟩ := List.mem_map.mp hid
        exact hjs ▸ (hfresh j hj).1
      rw [hkeys] at hkey
      rw [hsecrets] at hs
      rcases List.mem_append.mp hkey with hkey | hkey <;> rcases List.mem_append.mp hs with hs | hs
      · exact h.secrets key hkey s hs hsk
      · rw [List.mem_singleton.mp hs] at hsk
        exact absurd hsk.symm (hfresh key hkey).1
      · rw [List.mem_singleton.mp hkey] at hsk
        exact absurd hsk (hold s hs)
      · rw [List.mem_singleton.mp hkey, List.mem_singleton.mp hs]
        exact .inl ⟨t, salt, iv, newToken_tokenPrefix htoken, rfl⟩
  | activate hkey hon hkeys hsecrets =>
    rename_i key a
    have hids : d'.access.db.apiKeys.map (·.id) = d.access.db.apiKeys.map (·.id) := by
      rw [hkeys]
      exact @Table.map_modify_of_eq _ _ _ ApiKey.id key.id _ _ (·.id) d.access.db.apiKeys fun _ _ _ => rfl
    have hnicknames : d'.access.db.apiKeys.map (·.nickname) = d.access.db.apiKeys.map (·.nickname) := by
      rw [hkeys]
      exact @Table.map_modify_of_eq _ _ _ ApiKey.id key.id _ _ (·.nickname) d.access.db.apiKeys fun _ _ _ => rfl
    have hprefixes : d'.access.db.apiKeys.map (·.tokenPrefix) = d.access.db.apiKeys.map (·.tokenPrefix) := by
      rw [hkeys]
      exact @Table.map_modify_of_eq _ _ _ ApiKey.id key.id _ _ (·.tokenPrefix) d.access.db.apiKeys fun _ _ _ => rfl
    refine ⟨hids ▸ h.ids, hnicknames ▸ h.nicknames, hprefixes ▸ h.prefixes, haccounts, ?_, fun k hk s hs hsk => ?_⟩
    · rw [hids, hsecrets]
      exact h.aligned
    · rw [hkeys] at hk
      rw [hsecrets] at hs
      rcases Table.mem_modify.mp hk with ⟨hk, -⟩ | ⟨k0, hk0, hid0, rfl⟩
      · exact h.secrets k hk s hs hsk
      · obtain rfl : k0 = key := Table.eq_of_key h.ids hk0 (Table.lookup_some hkey).1 hid0
        rcases h.secrets k0 hk0 s hs hsk with ⟨token, salt, iv, htokenPrefix, hs⟩ | ⟨-, hburied⟩
        · exact .inl ⟨token, salt, iv, htokenPrefix, hs⟩
        · -- the tombstone of the prefix keeps the key from being restored
          cases a with
          | false => exact .inr ⟨rfl, hburied⟩
          | true =>
            have hstarts : k0.tokenPrefix.startsWith "deleted-" = true := by
              rw [hburied, String.startsWith_string_iff]
              exact ⟨k0.id.toList, by simp⟩
            exact absurd ((hon rfl).symm.trans hstarts) (by decide)
  | rotate hkey hlive htoken hfresh hkeys hsecrets =>
    rename_i key secret salt iv t p
    have htokenPrefix := issueApiKey_tokenPrefix key.id secret
    rw [← htoken] at htokenPrefix
    exact h.written hkey hkeys (fun _ => rfl) hfresh hsecrets haccounts (.inl ⟨t, salt, iv, htokenPrefix, rfl⟩)
  | delete hkey hfresh hkeys hsecrets =>
    exact h.written hkey hkeys (fun _ => rfl) hfresh hsecrets haccounts (.inr ⟨rfl, rfl⟩)

theorem sealed_empty (v : KeyVault) : Sealed v {} := by
  constructor <;> simp

theorem sealed_of_calls {calls : List Call} (h : exec (call v) {} calls = some d) : Sealed v d :=
  exec_invariant (I := Sealed v) (fun _ _ _ hi hs => sealed_call hi hs) (sealed_empty v) h

end Credentials

end LlmRio
