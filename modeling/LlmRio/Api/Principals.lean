/-
# Who a request is from

`current_principal` takes the bearer token of a request to the principal whose
key it is. In every database that the calls reach:

* the tokens that authenticate are those that `list_keys` shows on active keys,
  and it can decrypt every token (`authenticates_iff_listed`);
* after a key has been issued or rotated, its new token and no other one
  authenticates it, until a call rotates, revokes, restores or deletes that very
  key (`token_in_force`);
* no token authenticates a revoked key until it is restored, which gives its
  last token its force back, or rotated (`revoked_until_restored`);
* no token ever authenticates a deleted key (`deleted_for_good`);
* the selectors by which staff name a key find the listed key with that
  nickname, or else with that token (`selects_listed`).

Key definitions: `currentPrincipal`, `requireRoles`, `Call.changes`,
`Call.endsRevocation`, `InForce`.
Key theorems: `authenticates_iff_listed`, `selects_listed`, `token_in_force`, `revoked_until_restored`,
`deleted_for_good`.
-/
import LlmRio.Storage.Keyring

namespace LlmRio
namespace Credentials

open Transactions Runs

variable (v : KeyVault) (d : Credentials)

/-! ### The dependencies of the routes -/

/-- `current_principal`, with the scheme and the credentials of the
Authorization header. -/
def currentPrincipal (credentials : Option (String × String)) : Except ApiError KeyPrincipal :=
  match credentials with
  | none => .error (authenticationError "A Bearer API key is required")
  | some (scheme, token) =>
    if scheme.toLower ≠ "bearer" then .error (authenticationError "A Bearer API key is required")
    else do
      let p ← tokenPrefix token
      match d.authenticate v p token with
      | none => .error authenticationError
      | some principal => .ok principal

/-- `require_roles` -/
def requireRoles (roles : List Role) (principal : Except ApiError KeyPrincipal) : Except ApiError KeyPrincipal := do
  let principal ← principal
  if principal.role ∉ roles then .error authorizationError else .ok principal

/-- The request with the token as its bearer. -/
def bearer (token : String) : Option (String × String) := some ("Bearer", token)

variable {v} {d} {d' : Credentials}

theorem currentPrincipal_ok {credentials : Option (String × String)} {pr : KeyPrincipal} :
    d.currentPrincipal v credentials = .ok pr ↔ ∃ scheme token p, credentials = some (scheme, token) ∧
      scheme.toLower = "bearer" ∧ tokenPrefix token = .ok p ∧ d.authenticate v p token = some pr := by
  unfold currentPrincipal
  rcases credentials with _ | ⟨scheme, token⟩
  · simp
  · simp only [guard_eq_ok, not_not, bind_eq_ok]
    constructor
    · rintro ⟨hscheme, p, hp, hauth⟩
      cases hsome : d.authenticate v p token with
      | none =>
        rw [hsome] at hauth
        cases hauth
      | some principal =>
        rw [hsome] at hauth
        cases hauth
        exact ⟨scheme, token, p, rfl, hscheme, hp, hsome⟩
    · rintro ⟨scheme', token', p, heq, hscheme, hp, hauth⟩
      cases heq
      exact ⟨hscheme, p, hp, by rw [hauth]⟩

/-- A bearer token authenticates the holder that it admits. -/
theorem currentPrincipal_iff (h : Sealed v d) (hv : v.Sound) {credentials : Option (String × String)}
    {pr : KeyPrincipal} :
    d.currentPrincipal v credentials = .ok pr ↔ ∃ scheme token holder, credentials = some (scheme, token) ∧
      scheme.toLower = "bearer" ∧ (keyring v d).Admits token pr.keyId holder ∧ pr.nickname = holder.nickname ∧
      pr.role = holder.role ∧ pr.quotaAccountId = holder.quotaAccountId ∧
      (d.access.db.account? holder.quotaAccountId).map (·.unlimited) = some pr.unlimited := by
  rw [currentPrincipal_ok]
  constructor
  · rintro ⟨scheme, token, p, hcredentials, hscheme, hp, hauth⟩
    obtain ⟨holder, hholder⟩ := (authenticate_iff h hv hp).mp hauth
    exact ⟨scheme, token, holder, hcredentials, hscheme, hholder⟩
  · rintro ⟨scheme, token, holder, hcredentials, hscheme, hadmits, hrest⟩
    obtain ⟨k, hk, hid, hlive⟩ := keyring_some hadmits.1
    obtain ⟨token', salt, iv, hp, -, hholder⟩ := h.holder hv hk hlive
    rw [hid, hadmits.1] at hholder
    cases hholder
    obtain rfl : token' = token := hadmits.2.2
    exact ⟨scheme, token', _, hcredentials, hscheme, hp, (authenticate_iff h hv hp).mpr ⟨_, hadmits, hrest⟩⟩

/-- The principal of a key that the list shows. -/
def listedPrincipal (r : ListedKey) : KeyPrincipal where
  keyId := r.id
  nickname := r.nickname
  role := r.role
  quotaAccountId := r.quotaAccountId
  unlimited := r.unlimited

/-- A vault that hides nothing. -/
def plainVault : KeyVault where
  hash _ token := "$argon2id$" ++ token
  verify h token := h = "$argon2id$" ++ token
  encrypt _ token := "gAAAAA" ++ token
  decrypt s := if s.startsWith "gAAAAA" then some (String.ofList (s.toList.drop 6)) else none

theorem plainVault_sound : plainVault.Sound := by
  refine ⟨fun _ token => decide_eq_true rfl, fun _ token other h => ?_, fun _ token => ?_⟩
  · have heq : "$argon2id$" ++ token = "$argon2id$" ++ other := of_decide_eq_true h
    have hlist := congrArg String.toList heq
    rw [String.toList_append, String.toList_append] at hlist
    exact (String.toList_inj.mp (List.append_cancel_left hlist)).symm
  · have hstarts : ("gAAAAA" ++ token).startsWith "gAAAAA" = true := by
      rw [String.startsWith_string_iff]
      exact ⟨token.toList, by simp⟩
    show (if ("gAAAAA" ++ token).startsWith "gAAAAA" = true then
      some (String.ofList (("gAAAAA" ++ token).toList.drop 6)) else none) = some token
    rw [if_pos hstarts, String.toList_append]
    exact congrArg some String.ofList_toList

def firstSecret : UrlSafe := ⟨"abcdefghijabcdefghijabcdefghijabcdefghijabc", by decide⟩

def secondSecret : UrlSafe := ⟨"zyxwvutsrqzyxwvutsrqzyxwvutsrqzyxwvutsrqzyx", by decide⟩

/-- The first administrator, and a user with a custom token. -/
def twoKeys : List Call :=
  [.createKey "a1" "admin" .admin "acct" "admin-account" none 0 true firstSecret "s" "i",
   .createKey "u1" "alice" .user "acct-u" "alice" (some "rio_alice_0123456789abcdef") 100 false secondSecret "s" "i"]

/-- **The tokens that authenticate are the listed ones.** In every database that
calls reach, `list_keys` decrypts every token, and a request is from a principal
if and only if its bearer token is that of an active key that the list shows,
with the columns of that key. -/
theorem authenticates_iff_listed (hv : v.Sound) (calls : List Call) (d : Credentials)
    (h : exec (call v) {} calls = some d) :
    ∃ listed, d.listKeys v = some listed ∧ ∀ credentials pr,
      d.currentPrincipal v credentials = .ok pr ↔ ∃ scheme token, credentials = some (scheme, token) ∧
        scheme.toLower = "bearer" ∧ ∃ r ∈ listed, r.apiKey = token ∧ r.active = true ∧ listedPrincipal r = pr := by
  have hsealed := sealed_of_calls h
  obtain ⟨listed, hlisted, hshown, hall⟩ := listKeys_keyring hsealed hv
  refine ⟨listed, hlisted, fun credentials pr => ?_⟩
  rw [currentPrincipal_iff hsealed hv]
  constructor
  · rintro ⟨scheme, token, holder, hcredentials, hscheme, ⟨hholder, hactive, htoken⟩, hnickname, hrole, haccount,
      hunlimited⟩
    obtain ⟨r, hr, hid, rfl⟩ := hall pr.keyId holder hholder
    refine ⟨scheme, token, hcredentials, hscheme, r, hr, htoken, hactive, ?_⟩
    have hflag : r.unlimited = pr.unlimited := Option.some.inj ((hshown r hr).2.symm.trans hunlimited)
    obtain ⟨⟨keyId, quotaAccountId⟩, nickname, role, unlimited⟩ := pr
    cases hid
    cases hnickname
    cases hrole
    cases haccount
    cases hflag
    rfl
  · rintro ⟨scheme, token, hcredentials, hscheme, r, hr, rfl, hactive, rfl⟩
    exact ⟨scheme, r.apiKey, shown r, hcredentials, hscheme, ⟨(hshown r hr).1, hactive, rfl⟩, rfl, rfl, rfl,
      (hshown r hr).2⟩

/-- Two keys, of which one has been rotated. -/
theorem authenticates_iff_listed_two :
    ∃ d, exec (call plainVault) {} (twoKeys ++ [.rotateKey "u1" firstSecret "s" "i"]) = some d ∧
      ∃ listed, d.listKeys plainVault = some listed ∧ ∀ credentials pr,
        d.currentPrincipal plainVault credentials = .ok pr ↔ ∃ scheme token, credentials = some (scheme, token) ∧
          scheme.toLower = "bearer" ∧ ∃ r ∈ listed, r.apiKey = token ∧ r.active = true ∧ listedPrincipal r = pr := by
  have hrun : (exec (call plainVault) {} (twoKeys ++ [.rotateKey "u1" firstSecret "s" "i"])).isSome = true := by
    decide +kernel
  obtain ⟨d, h⟩ := Option.isSome_iff_exists.mp hrun
  exact ⟨d, h, authenticates_iff_listed plainVault_sound _ d h⟩

/-! ### Selectors -/

/-- An active key of the tables is one that the list shows. -/
def Shows (v : KeyVault) (d : Credentials) (listed : List ListedKey) (k : ApiKey) (r : ListedKey) : Prop :=
  r ∈ listed ∧ k ∈ d.access.db.apiKeys ∧ k.id = r.id ∧ k.nickname = r.nickname ∧ k.active = r.active ∧
    tokenPrefix r.apiKey = .ok k.tokenPrefix ∧
    ∀ token, (d.secret? k.id).any (fun s => v.verify s.tokenHash token) = true ↔ token = r.apiKey

theorem shows_of_listed (h : Sealed v d) (hv : v.Sound) {listed : List ListedKey}
    (hshown : ∀ r ∈ listed, keyring v d r.id = some (shown r)) {r : ListedKey} (hr : r ∈ listed) :
    ∃ k, Shows v d listed k r := by
  obtain ⟨k, hk, hid, hlive⟩ := keyring_some (hshown r hr)
  obtain ⟨token, salt, iv, htokenPrefix, hsecret, hholder⟩ := h.holder hv hk hlive
  rw [hid, hshown r hr] at hholder
  simp only [shown, Option.some.injEq, Holder.mk.injEq] at hholder
  obtain ⟨hnickname, -, -, rfl, hactive⟩ := hholder
  refine ⟨k, hr, hk, hid, hnickname.symm, hactive.symm, htokenPrefix, fun token => ?_⟩
  rw [hsecret, Option.any_some]
  constructor
  · exact hv.verify_only salt r.apiKey token
  · rintro rfl
    exact hv.verify_hash salt r.apiKey

theorem shows_of_active (h : Sealed v d) (hv : v.Sound) {listed : List ListedKey}
    (hshown : ∀ r ∈ listed, keyring v d r.id = some (shown r))
    (hall : ∀ id holder, keyring v d id = some holder → ∃ r ∈ listed, r.id = id ∧ shown r = holder) {k : ApiKey}
    (hk : k ∈ d.access.db.apiKeys) (hactive : k.active = true) : ∃ r, Shows v d listed k r := by
  obtain ⟨token, salt, iv, -, -, hholder⟩ := h.holder hv hk (h.active_live hk hactive)
  obtain ⟨r, hr, hid, -⟩ := hall k.id _ hholder
  obtain ⟨k', hshows⟩ := shows_of_listed h hv hshown hr
  obtain rfl : k' = k := Table.eq_of_key h.ids hshows.2.1 hk (hshows.2.2.1.trans hid)
  exact ⟨r, hshows⟩

/-- **A selector is a nickname, or else a token.** In every database that calls
reach, `key_by_selector` finds the active key of the list that has the selector
for its nickname and, if there is none, the active key whose token it is. -/
theorem selects_listed (hv : v.Sound) (calls : List Call) (d : Credentials) (h : exec (call v) {} calls = some d) :
    ∃ listed, d.listKeys v = some listed ∧ ∀ selector id name,
      d.keyBySelector v selector = some (id, name) ↔ ∃ r ∈ listed, r.active = true ∧ r.id = id ∧ r.nickname = name ∧
        (r.nickname = selector ∨
          r.apiKey = selector ∧ ∀ r' ∈ listed, r'.active = true → r'.nickname ≠ selector) := by
  have hsealed := sealed_of_calls h
  obtain ⟨listed, hlisted, hshown, hall⟩ := listKeys_keyring hsealed hv
  refine ⟨listed, hlisted, fun selector id name => ?_⟩
  have hshown := fun r hr => (hshown r hr).1
  unfold keyBySelector
  simp only [if_true]
  split
  · rename_i k hname
    obtain ⟨hk, hactive⟩ := List.mem_filter.mp (List.mem_of_find?_eq_some hname)
    have hselector := List.find?_some hname
    simp only [decide_eq_true_eq] at hselector
    obtain ⟨r, hr, -, hid, hnickname, hractive, -⟩ := shows_of_active hsealed hv hshown hall hk hactive
    simp only [Option.some.injEq, Prod.mk.injEq]
    constructor
    · rintro ⟨rfl, rfl⟩
      exact ⟨r, hr, hractive ▸ hactive, hid.symm, hnickname.symm, .inl (hnickname ▸ hselector)⟩
    · rintro ⟨r', hr', hactive', rfl, rfl, hselector' | ⟨-, hnone⟩⟩
      · obtain ⟨k', -, hk', hid', hnickname', -, -⟩ := shows_of_listed hsealed hv hshown hr'
        have hsame : k'.nickname = k.nickname := (hnickname'.trans hselector').trans hselector.symm
        obtain rfl : k' = k := List.inj_on_of_nodup_map hsealed.nicknames hk' hk hsame
        exact ⟨hid', hnickname'⟩
      · exact absurd (hnickname ▸ hselector) (hnone r hr (hractive ▸ hactive))
  · rename_i hname
    have hnone : ∀ r ∈ listed, r.active = true → r.nickname ≠ selector := by
      intro r hr hactive hselector
      obtain ⟨k, -, hk, -, hnickname, hkactive, -⟩ := shows_of_listed hsealed hv hshown hr
      refine List.find?_eq_none.mp hname k (List.mem_filter.mpr ⟨hk, hkactive.trans hactive⟩) ?_
      exact decide_eq_true (hnickname.trans hselector)
    constructor
    · intro hfound
      obtain ⟨hformat, hfound⟩ := Option.ite_none_left_eq_some.mp hfound
      split at hfound
      · cases hfound
      · rename_i k htokenPrefix
        obtain ⟨hverify, hpair⟩ := Option.ite_none_right_eq_some.mp hfound
        cases hpair
        obtain ⟨hk, hactive⟩ := List.mem_filter.mp (List.mem_of_find?_eq_some htokenPrefix)
        obtain ⟨r, hr, -, hid, hnickname, hractive, -, htoken⟩ := shows_of_active hsealed hv hshown hall hk hactive
        exact ⟨r, hr, hractive ▸ hactive, hid.symm, hnickname.symm, .inr ⟨((htoken selector).mp hverify).symm, hnone⟩⟩
    · rintro ⟨r, hr, hactive, rfl, rfl, hselector | ⟨rfl, -⟩⟩
      · exact absurd hselector (hnone r hr hactive)
      · obtain ⟨k, -, hk, hid, hnickname, hkactive, hp, htoken⟩ := shows_of_listed hsealed hv hshown hr
        obtain ⟨hrio, hlen, htokenPrefix⟩ := tokenPrefix_ok.mp hp
        rw [if_neg (by rw [not_or, not_not, not_lt]; exact ⟨hrio, hlen⟩)]
        split
        · rename_i hnokey
          have hfind := List.find?_eq_none.mp hnokey k (List.mem_filter.mpr ⟨hk, hkactive.trans hactive⟩)
          exact absurd (decide_eq_true htokenPrefix) hfind
        · rename_i k' hfind
          have hsame := List.find?_some hfind
          simp only [decide_eq_true_eq] at hsame
          have hk' := (List.mem_filter.mp (List.mem_of_find?_eq_some hfind)).1
          obtain rfl : k' = k := List.inj_on_of_nodup_map hsealed.prefixes hk' hk (hsame.trans htokenPrefix.symm)
          rw [if_pos ((htoken r.apiKey).mpr rfl), hid, hnickname]

theorem selects_listed_two :
    ∃ d, exec (call plainVault) {} twoKeys = some d ∧
      ∃ listed, d.listKeys plainVault = some listed ∧ ∀ selector id name,
        d.keyBySelector plainVault selector = some (id, name) ↔ ∃ r ∈ listed, r.active = true ∧ r.id = id ∧
          r.nickname = name ∧ (r.nickname = selector ∨
            r.apiKey = selector ∧ ∀ r' ∈ listed, r'.active = true → r'.nickname ≠ selector) := by
  have hrun : (exec (call plainVault) {} twoKeys).isSome = true := by decide +kernel
  obtain ⟨d, h⟩ := Option.isSome_iff_exists.mp hrun
  exact ⟨d, h, selects_listed plainVault_sound _ d h⟩

/-! ### The token of a key over time -/

/-- The call rotates, revokes, restores or deletes the key. -/
def Call.changes (k : KeyId) : Call → Bool
  | .rotateKey j _ _ _ | .deleteKey j _ | .access (.database (.setKeyActive j _)) => j = k
  | _ => false

/-- The token of the holder authenticates the key, and no other one does. -/
structure InForce (v : KeyVault) (d : Credentials) (k : KeyId) (h : Holder) : Prop where
  admitted : ∃ pr, d.currentPrincipal v (bearer h.token) = .ok pr ∧ pr.keyId = k ∧ pr.nickname = h.nickname ∧
    pr.role = h.role ∧ pr.quotaAccountId = h.quotaAccountId
  only : ∀ credentials pr, d.currentPrincipal v credentials = .ok pr → pr.keyId = k →
    credentials.map (·.2) = some h.token

/-- No request is from the key. -/
def Refused (v : KeyVault) (d : Credentials) (k : KeyId) : Prop :=
  ∀ credentials pr, d.currentPrincipal v credentials = .ok pr → pr.keyId ≠ k

theorem bearer_scheme : "Bearer".toLower = "bearer" := by decide +kernel

theorem inForce_of_keyring (h : Sealed v d) (hv : v.Sound) {k : KeyId} {holder : Holder}
    (hholder : keyring v d k = some holder) (hactive : holder.active = true) : InForce v d k holder := by
  refine ⟨?_, fun credentials pr hpr hid => ?_⟩
  · obtain ⟨key, hkey, hid, hlive⟩ := keyring_some hholder
    obtain ⟨account, haccount⟩ := Option.isSome_iff_exists.mp (h.accounts key hkey)
    obtain ⟨token, salt, iv, -, -, hholder'⟩ := h.holder hv hkey hlive
    rw [hid, hholder] at hholder'
    cases hholder'
    refine ⟨⟨⟨k, key.quotaAccountId⟩, key.nickname, key.role, account.unlimited⟩, ?_, rfl, rfl, rfl, rfl⟩
    refine (currentPrincipal_iff h hv).mpr
      ⟨"Bearer", token, _, rfl, bearer_scheme, ⟨hholder, hactive, rfl⟩, rfl, rfl, rfl, ?_⟩
    show (d.access.db.account? key.quotaAccountId).map _ = _
    rw [haccount, Option.map_some]
  · obtain ⟨scheme, token, holder', rfl, -, ⟨hholder', -, htoken⟩, -⟩ := (currentPrincipal_iff h hv).mp hpr
    rw [hid, hholder] at hholder'
    cases hholder'
    rw [htoken, Option.map_some]

theorem refused_of_keyring (h : Sealed v d) (hv : v.Sound) {k : KeyId}
    (hnone : ∀ holder, keyring v d k = some holder → holder.active = false) : Refused v d k := by
  intro credentials pr hpr hid
  obtain ⟨scheme, token, holder, -, -, ⟨hholder, hactive, -⟩, -⟩ := (currentPrincipal_iff h hv).mp hpr
  rw [hnone holder (hid ▸ hholder)] at hactive
  cases hactive

/-- The event of a call that does not change its key issues it. -/
theorem event_changes {c : Call} {e : KeyEvent} (he : c.event? = some e) (hc : c.changes e.id = false) :
    ∃ holder, e = .issue e.id holder := by
  cases c with
  | createKey k n r a an apiKey l u secret salt iv =>
    simp only [Call.event?] at he
    split at he
    · cases he
    · cases he
      exact ⟨_, rfl⟩
  | rotateKey k secret salt iv =>
    cases he
    exact absurd hc (by simp [Call.changes, KeyEvent.id])
  | deleteKey k iv =>
    cases he
    exact absurd hc (by simp [Call.changes, KeyEvent.id])
  | access c =>
    cases c with
    | updateModelAccess => cases he
    | database c =>
      cases c with
      | setKeyActive k a =>
        cases he
        exact absurd hc (by simp [Call.changes, KeyEvent.id])
      | _ => cases he

/-- A call that does not change the key leaves its holder as it is. -/
theorem holder_of_unchanged {k : KeyId} {holder : Holder} {c : Call} (hc : c.changes k = false) {event : KeyEvent}
    (hevent : c.event? = some event) {r : Keyring} (hholder : r k = some holder) (hfits : r.Fits event) :
    r.apply event k = some holder := by
  by_cases hid : k = event.id
  · -- a key is issued only under an id that no holder has
    subst hid
    obtain ⟨issued, hissue⟩ := event_changes hevent hc
    rw [hissue] at hfits
    rw [show r event.id = none from hfits] at hholder
    cases hholder
  · rw [Keyring.apply_of_ne _ _ hid, hholder]

/-- The call rotates, restores or deletes the key. -/
def Call.endsRevocation (k : KeyId) : Call → Bool
  | .rotateKey j _ _ _ | .deleteKey j _ | .access (.database (.setKeyActive j true)) => j = k
  | _ => false

/-- A revoked holder stays as it is: a second revocation finds it inactive. -/
theorem holder_of_revoked {k : KeyId} {holder : Holder} (hinactive : holder.active = false) {c : Call}
    (hc : c.endsRevocation k = false) {event : KeyEvent} (hevent : c.event? = some event) {r : Keyring}
    (hholder : r k = some holder) (hfits : r.Fits event) : r.apply event k = some holder := by
  cases hchanges : c.changes k with
  | false => exact holder_of_unchanged hchanges hevent hholder hfits
  | true =>
    unfold Call.changes at hchanges
    split at hchanges
    · exact absurd hchanges (by simpa [Call.endsRevocation] using hc)
    · exact absurd hchanges (by simpa [Call.endsRevocation] using hc)
    · rename_i j a
      obtain rfl : j = k := by simpa using hchanges
      cases a with
      | true => exact absurd hc (by simp [Call.endsRevocation])
      | false =>
        cases hevent
        refine (Function.update_self j _ _).trans ?_
        rw [hholder, Option.map_some]
        exact congrArg some (by rw [← hinactive])
    · cases hchanges

/-- A holder stays as it is through calls whose events leave it so. -/
theorem keyring_kept (hv : v.Sound) {k : KeyId} {holder : Holder} {later : List Call} (h : Sealed v d)
    (hholder : keyring v d k = some holder)
    (hlater : ∀ c ∈ later, ∀ event, c.event? = some event → ∀ r : Keyring, r k = some holder → r.Fits event →
      r.apply event k = some holder)
    (hrun : exec (call v) d later = some d') : Sealed v d' ∧ keyring v d' k = some holder := by
  refine exec_invariant_mem (I := fun e => Sealed v e ∧ keyring v e k = some holder)
    (fun e c e' hc he hcall => ?_) ⟨h, hholder⟩ hrun
  refine ⟨sealed_call he.1 hcall, ?_⟩
  rcases call_keyring he.1 hv hcall with hsame | ⟨event, hevent, hfits, happly⟩
  · rw [hsame, he.2]
  · rw [happly]
    exact hlater c hc event hevent _ he.2 hfits

/-- **The token in force.** After a key has been created, or its token rotated,
in any database that calls reach, its new token and no other one authenticates
it, with its nickname, role and account, through all calls that do not rotate,
revoke, restore or delete this key. -/
theorem token_in_force (hv : v.Sound) (calls : List Call) (d : Credentials) (h : exec (call v) {} calls = some d)
    (k : KeyId) (d1 : Credentials) (later : List Call) (e : Credentials)
    (hlater : ∀ c ∈ later, c.changes k = false) (hrun : exec (call v) d1 later = some e) :
    (∀ n r a an apiKey l u secret salt iv token p, newToken k apiKey secret = .ok (token, p) →
      d.createKey v k n r a an p token l u salt iv = .ok d1 → InForce v e k ⟨n, r, a, token, true⟩) ∧
    ∀ secret salt iv,
      d.replaceKeySecret v k (issueApiKey k secret).2 (issueApiKey k secret).1 salt iv = .ok (d1, true) →
      ∃ key, d.access.db.key? k = some key ∧
        InForce v e k ⟨key.nickname, key.role, key.quotaAccountId, (issueApiKey k secret).1, true⟩ := by
  have hsealed := sealed_of_calls h
  constructor
  · intro n r a an apiKey l u secret salt iv token p htoken hok
    have hcall : call v d (.createKey k n r a an apiKey l u secret salt iv) = some d1 := by
      simp only [call, htoken, hok, commit]
    have hsealed1 := sealed_call hsealed hcall
    obtain ⟨hfresh, -, hkeys, hsecrets⟩ := createKey_ok hok
    have htokenPrefix : tokenPrefix token = .ok (⟨k, n, r, a, p, true⟩ : ApiKey).tokenPrefix :=
      newToken_tokenPrefix htoken
    obtain ⟨-, happly⟩ := keyring_create hsealed hv htokenPrefix rfl (fun j hj => (hfresh j hj).1) hkeys hsecrets
    obtain ⟨hsealed', hholder⟩ := keyring_kept hv hsealed1
      ((congrFun happly k).trans (Function.update_self k _ _))
      (fun c hc _ hevent _ => holder_of_unchanged (hlater c hc) hevent) hrun
    exact inForce_of_keyring hsealed' hv hholder rfl
  · intro secret salt iv hok
    have hcall : call v d (.rotateKey k secret salt iv) = some d1 := by
      simp only [call, hok, Except.map, commit]
    have hsealed1 := sealed_call hsealed hcall
    obtain ⟨key, rfl, hkey, hlive, -, hkeys, hsecrets⟩ := replaceKeySecret_row hok
    have happly := keyring_rotate hsealed hv hkey hlive (issueApiKey_tokenPrefix key.id secret) hkeys hsecrets
    obtain ⟨token, salt', iv', -, -, hbefore⟩ := hsealed.holder hv (Table.lookup_some hkey).1 hlive
    have hafter : keyring v d1 key.id =
        some ⟨key.nickname, key.role, key.quotaAccountId, (issueApiKey key.id secret).1, true⟩ := by
      rw [happly]
      refine (Function.update_self key.id _ _).trans ?_
      rw [hbefore, Option.map_some]
    obtain ⟨hsealed', hholder⟩ := keyring_kept hv hsealed1 hafter
      (fun c hc _ hevent _ => holder_of_unchanged (hlater c hc) hevent) hrun
    exact ⟨key, hkey, inForce_of_keyring hsealed' hv hholder rfl⟩

/-- What a call leaves that has updated a row. -/
def updated {α : Type} : Except StorageError (α × Bool) → Option α
  | .ok (a, true) => some a
  | _ => none

theorem updated_eq {α : Type} {r : Except StorageError (α × Bool)} {a : α} (h : updated r = some a) :
    r = .ok (a, true) := by
  unfold updated at h
  split at h
  · cases h
    rfl
  · cases h

/-- The user's token is rotated, and the last administrator cannot be deleted. -/
theorem token_in_force_two :
    ∃ d d1 e, exec (call plainVault) {} twoKeys = some d ∧
      d.replaceKeySecret plainVault "u1" (issueApiKey "u1" firstSecret).2 (issueApiKey "u1" firstSecret).1 "s" "i" =
        .ok (d1, true) ∧
      exec (call plainVault) d1 [.deleteKey "a1" "i"] = some e ∧
      ∃ key, d.access.db.key? "u1" = some key ∧
        InForce plainVault e "u1"
          ⟨key.nickname, key.role, key.quotaAccountId, (issueApiKey "u1" firstSecret).1, true⟩ := by
  have hrun : ((exec (call plainVault) {} twoKeys).bind fun d =>
      (updated (d.replaceKeySecret plainVault "u1" (issueApiKey "u1" firstSecret).2 (issueApiKey "u1" firstSecret).1
        "s" "i")).bind fun d1 => exec (call plainVault) d1 [.deleteKey "a1" "i"]).isSome = true := by decide +kernel
  obtain ⟨e, hrun⟩ := Option.isSome_iff_exists.mp hrun
  obtain ⟨d, h, hrun⟩ := Option.bind_eq_some_iff.mp hrun
  obtain ⟨d1, hupdated, hlater⟩ := Option.bind_eq_some_iff.mp hrun
  have hrotate := updated_eq hupdated
  have hother : ∀ c ∈ [Call.deleteKey "a1" "i"], c.changes "u1" = false := by decide
  exact ⟨d, d1, e, h, hrotate, hlater,
    (token_in_force plainVault_sound twoKeys d h "u1" d1 _ e hother hlater).2 firstSecret "s" "i" hrotate⟩

/-- The tables after `set_key_active`. -/
def setActive (d : Credentials) (db : Database) : Credentials := { d with access := { d.access with db := db } }

theorem call_setActive {k : KeyId} {a updated : Bool} {db : Database}
    (hok : d.access.db.setKeyActive k a = .ok (db, updated)) :
    call v d (.access (.database (.setKeyActive k a))) = some (setActive d db) := by
  simp only [call, writesSecret, Access.call, Database.call, hok, Except.map, commit, Option.map_some,
    Access.grantsAfter, setActive, Bool.false_eq_true, if_false]

theorem keyring_setActive {k : KeyId} {a : Bool} {db : Database}
    (hok : d.access.db.setKeyActive k a = .ok (db, true)) :
    keyring v (setActive d db) = (keyring v d).apply (.setActive k a) := by
  rcases setKeyActive_row hok with ⟨hfalse, -⟩ | ⟨-, key, rfl, hkey, -, rfl⟩
  · cases hfalse
  · exact keyring_activate hkey rfl rfl

/-- **A revoked key.** After the key of a request has been revoked, no request is
from it through all calls that do not rotate, revoke, restore or delete it, and
then its restoration puts the token that it had in force again. -/
theorem revoked_until_restored (hv : v.Sound) (calls : List Call) (d : Credentials)
    (h : exec (call v) {} calls = some d) (token : String) (pr : KeyPrincipal)
    (hpr : d.currentPrincipal v (bearer token) = .ok pr) (db : Database)
    (hrevoke : d.access.db.setKeyActive pr.keyId false = .ok (db, true)) (later : List Call) (e : Credentials)
    (hlater : ∀ c ∈ later, c.endsRevocation pr.keyId = false)
    (hrun : exec (call v) (setActive d db) later = some e) :
    Refused v e pr.keyId ∧ ∀ db', e.access.db.setKeyActive pr.keyId true = .ok (db', true) →
      InForce v (setActive e db') pr.keyId ⟨pr.nickname, pr.role, pr.quotaAccountId, token, true⟩ := by
  have hsealed := sealed_of_calls h
  have hsealed1 := sealed_call hsealed (call_setActive (v := v) hrevoke)
  obtain ⟨scheme, token', holder, hcredentials, -, ⟨hholder, -, rfl⟩, hnickname, hrole, haccount, -⟩ :=
    (currentPrincipal_iff hsealed hv).mp hpr
  cases hcredentials
  have hrevoked : keyring v (setActive d db) pr.keyId = some { holder with active := false } := by
    rw [keyring_setActive hrevoke]
    refine (Function.update_self pr.keyId _ _).trans ?_
    rw [hholder, Option.map_some]
  obtain ⟨hsealed', hkept⟩ := keyring_kept hv hsealed1 hrevoked
    (fun c hc _ hevent _ => holder_of_revoked rfl (hlater c hc) hevent) hrun
  refine ⟨refused_of_keyring hsealed' hv fun held hheld => ?_, fun db' hrestore => ?_⟩
  · rw [hkept] at hheld
    cases hheld
    rfl
  · have hrestored : keyring v (setActive e db') pr.keyId = some { holder with active := true } := by
      rw [keyring_setActive hrestore]
      refine (Function.update_self pr.keyId _ _).trans ?_
      rw [hkept, Option.map_some]
    rw [hnickname, hrole, haccount]
    exact inForce_of_keyring (sealed_call hsealed' (call_setActive hrestore)) hv hrestored rfl

/-- The user's key is revoked twice, and a change of its access fails, as the key
is not active. -/
theorem revoked_until_restored_two :
    ∃ d pr db e, exec (call plainVault) {} twoKeys = some d ∧
      d.currentPrincipal plainVault (bearer "rio_alice_0123456789abcdef") = .ok pr ∧
      d.access.db.setKeyActive pr.keyId false = .ok (db, true) ∧
      exec (call plainVault) (setActive d db) [.access (.updateModelAccess pr.keyId [] .replace),
        .access (.database (.setKeyActive pr.keyId false))] = some e ∧
      Refused plainVault e pr.keyId ∧ ∀ db', e.access.db.setKeyActive pr.keyId true = .ok (db', true) →
        InForce plainVault (setActive e db') pr.keyId
          ⟨pr.nickname, pr.role, pr.quotaAccountId, "rio_alice_0123456789abcdef", true⟩ := by
  have hrun : ((exec (call plainVault) {} twoKeys).bind fun d =>
      (d.currentPrincipal plainVault (bearer "rio_alice_0123456789abcdef")).toOption.bind fun pr =>
        (updated (d.access.db.setKeyActive pr.keyId false)).bind fun db =>
          exec (call plainVault) (setActive d db) [.access (.updateModelAccess pr.keyId [] .replace),
            .access (.database (.setKeyActive pr.keyId false))]).isSome = true := by decide +kernel
  obtain ⟨e, hrun⟩ := Option.isSome_iff_exists.mp hrun
  obtain ⟨d, h, hrun⟩ := Option.bind_eq_some_iff.mp hrun
  obtain ⟨pr, hsome, hrun⟩ := Option.bind_eq_some_iff.mp hrun
  obtain ⟨db, hupdated, hlater⟩ := Option.bind_eq_some_iff.mp hrun
  have hpr := toOption_eq_some.mp hsome
  have hrevoke := updated_eq hupdated
  have hother : ∀ c ∈ [Call.access (.updateModelAccess pr.keyId [] .replace),
      .access (.database (.setKeyActive pr.keyId false))], c.endsRevocation pr.keyId = false := by
    simp [Call.endsRevocation]
  exact ⟨d, pr, db, e, h, hpr, hrevoke, hlater,
    revoked_until_restored plainVault_sound twoKeys d h _ pr hpr db hrevoke _ e hother hlater⟩

/-- **A deleted key.** Once a key has been deleted, no request is from it and the
list does not show it, whatever calls follow. -/
theorem deleted_for_good (hv : v.Sound) (calls : List Call) (d : Credentials) (h : exec (call v) {} calls = some d)
    (k : KeyId) (iv : String) (d1 : Credentials) (hdelete : d.deleteKey v k iv = .ok (d1, true)) (later : List Call)
    (e : Credentials) (hrun : exec (call v) d1 later = some e) :
    Refused v e k ∧ ∃ listed, e.listKeys v = some listed ∧ ∀ r ∈ listed, r.id ≠ k := by
  have hcall : call v d (.deleteKey k iv) = some d1 := by
    simp only [call, hdelete, Except.map, commit]
  have hsealed1 := sealed_call (sealed_of_calls h) hcall
  have hsealed : Sealed v e := exec_invariant (I := Sealed v) (fun _ _ _ hi hs => sealed_call hi hs) hsealed1 hrun
  have htomb1 : d1.access.db.Tombstoned k := by
    rcases deleteKey_ok hdelete with ⟨hfalse, -⟩ | ⟨-, db, hdb, rfl⟩
    · cases hfalse
    · exact Database.deleteKey_tombstoned hdb
  obtain ⟨key, hkey, -, htokenPrefix⟩ :=
    run_invariant (I := Database.Tombstoned k) (fun _ _ _ => Database.tombstoned_call) htomb1 hrun
  have hnone : keyring v e k = none := by
    by_contra hsome
    obtain ⟨holder, hholder⟩ := Option.ne_none_iff_exists'.mp hsome
    obtain ⟨key', hmem, hid, hlive⟩ := keyring_some hholder
    have hrow := Table.lookup_of_mem hsealed.ids hmem
    rw [hid] at hrow
    obtain rfl : key' = key := Option.some.inj (hrow.symm.trans hkey)
    unfold ApiKey.deleted at hlive
    rw [htokenPrefix, Database.tombstone_deleted] at hlive
    cases hlive
  refine ⟨refused_of_keyring hsealed hv fun holder hholder => ?_, ?_⟩
  · rw [hnone] at hholder
    cases hholder
  · obtain ⟨listed, hlisted, hshown, -⟩ := listKeys_keyring hsealed hv
    refine ⟨listed, hlisted, fun r hr hid => ?_⟩
    rw [← hid, (hshown r hr).1] at hnone
    cases hnone

/-- The user's key is deleted, and neither rotated nor restored afterwards. -/
theorem deleted_for_good_two :
    ∃ d d1 e, exec (call plainVault) {} twoKeys = some d ∧ d.deleteKey plainVault "u1" "i" = .ok (d1, true) ∧
      exec (call plainVault) d1
        [.rotateKey "u1" firstSecret "s" "i", .access (.database (.setKeyActive "u1" true))] = some e ∧
      Refused plainVault e "u1" ∧ ∃ listed, e.listKeys plainVault = some listed ∧ ∀ r ∈ listed, r.id ≠ "u1" := by
  have hrun : ((exec (call plainVault) {} twoKeys).bind fun d =>
      (updated (d.deleteKey plainVault "u1" "i")).bind fun d1 =>
        exec (call plainVault) d1
          [.rotateKey "u1" firstSecret "s" "i", .access (.database (.setKeyActive "u1" true))]).isSome = true := by
    decide +kernel
  obtain ⟨e, hrun⟩ := Option.isSome_iff_exists.mp hrun
  obtain ⟨d, h, hrun⟩ := Option.bind_eq_some_iff.mp hrun
  obtain ⟨d1, hupdated, hlater⟩ := Option.bind_eq_some_iff.mp hrun
  have hdelete := updated_eq hupdated
  exact ⟨d, d1, e, h, hdelete, hlater,
    deleted_for_good plainVault_sound twoKeys d h "u1" "i" d1 hdelete _ e hlater⟩

end Credentials
end LlmRio
