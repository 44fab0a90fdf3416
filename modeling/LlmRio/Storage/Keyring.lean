/-
# The keyring

What the table of keys is for: a finite set of holders, each with a token. A
key is issued, its token is rotated, it is revoked or restored, and it is
removed. A token authenticates the holder that has it and is active.

The tables of `Credentials` refine it. The keyring of a database has the keys
that are not deleted, with the tokens that the vault decrypts, and every call
acts on it as its event or not at all (`call_keyring`); a token authenticates by
its prefix and its hash if and only if the keyring says so (`authenticate_iff`).

Key definitions: `Holder`, `Keyring`, `KeyEvent`, `Keyring.apply`, `keyring`, `Call.event?`.
Key theorems: `call_keyring`, `authenticate_iff`, `listKeys_keyring`.
-/
import LlmRio.Storage.Credentials
import Mathlib.Logic.Function.Basic

namespace LlmRio

open Transactions Runs

structure Holder where
  nickname : String
  role : Role
  quotaAccountId : AccountId
  token : String
  active : Bool
deriving DecidableEq, Repr

abbrev Keyring := KeyId → Option Holder

inductive KeyEvent
  | issue (id : KeyId) (h : Holder)
  | rotate (id : KeyId) (token : String)
  | setActive (id : KeyId) (active : Bool)
  | remove (id : KeyId)

def KeyEvent.id : KeyEvent → KeyId
  | .issue id _ | .rotate id _ | .setActive id _ | .remove id => id

namespace Keyring

/-- A key is issued under an id that no holder has. -/
def Fits (r : Keyring) : KeyEvent → Prop
  | .issue id _ => r id = none
  | _ => True

def apply (r : Keyring) : KeyEvent → Keyring
  | .issue id h => Function.update r id (some h)
  | .rotate id token => Function.update r id ((r id).map fun h => { h with token := token, active := true })
  | .setActive id active => Function.update r id ((r id).map fun h => { h with active := active })
  | .remove id => Function.update r id none

/-- An event changes its own key only. -/
theorem apply_of_ne (r : Keyring) (e : KeyEvent) {id : KeyId} (h : id ≠ e.id) : r.apply e id = r id := by
  cases e <;> exact Function.update_of_ne h _ _

/-- The token is that of the holder, who is active. -/
def Admits (r : Keyring) (token : String) (id : KeyId) (h : Holder) : Prop :=
  r id = some h ∧ h.active = true ∧ h.token = token

end Keyring

namespace Credentials

variable {v : KeyVault} {d d' : Credentials}

/-- The holder that the row of a key and its secrets are of. -/
def holderOf (v : KeyVault) (k : ApiKey) (s : KeySecret) : Option Holder :=
  if k.deleted then none
  else
    (v.decrypt s.encryptedApiKey).map fun token =>
      { nickname := k.nickname, role := k.role, quotaAccountId := k.quotaAccountId, token := token
        active := k.active }

def keyring (v : KeyVault) (d : Credentials) : Keyring := fun id =>
  (d.access.db.key? id).bind fun k => (d.secret? id).bind (holderOf v k)

/-- What the call does to the keyring, if it is not refused. -/
def Call.event? : Call → Option KeyEvent
  | .createKey k n r a _ apiKey _ _ secret _ _ =>
    match newToken k apiKey secret with
    | .error _ => none
    | .ok (token, _) =>
      some (.issue k { nickname := n, role := r, quotaAccountId := a, token := token, active := true })
  | .rotateKey k secret _ _ => some (.rotate k (issueApiKey k secret).1)
  | .deleteKey k _ => some (.remove k)
  | .access (.database (.setKeyActive k a)) => some (.setActive k a)
  | .access _ => none

theorem holderOf_stored (hv : v.Sound) {k : ApiKey} {token salt iv : String}
    (htokenPrefix : tokenPrefix token = .ok k.tokenPrefix) :
    holderOf v k ⟨k.id, v.hash salt token, v.encrypt iv token⟩ =
      some { nickname := k.nickname, role := k.role, quotaAccountId := k.quotaAccountId, token := token,
             active := k.active } := by
  have hlive : k.deleted = false := tokenPrefix_not_deleted htokenPrefix
  unfold holderOf
  rw [if_neg (Bool.eq_false_iff.mp hlive), hv.decrypt_encrypt, Option.map_some]

theorem holderOf_deleted {k : ApiKey} (h : k.deleted = true) (s : KeySecret) : holderOf v k s = none := if_pos h

/-- A key that is not deleted has a holder, with the token of its secrets. -/
theorem Sealed.holder (h : Sealed v d) (hv : v.Sound) {k : ApiKey} (hk : k ∈ d.access.db.apiKeys)
    (hlive : k.deleted = false) :
    ∃ token salt iv, tokenPrefix token = .ok k.tokenPrefix ∧
      d.secret? k.id = some ⟨k.id, v.hash salt token, v.encrypt iv token⟩ ∧
      keyring v d k.id = some { nickname := k.nickname, role := k.role, quotaAccountId := k.quotaAccountId,
                                token := token, active := k.active } := by
  obtain ⟨s, hs, hmem, hsk⟩ := h.secret hk
  have hrow : d.access.db.key? k.id = some k := Table.lookup_of_mem h.ids hk
  rcases h.secrets k hk s hmem hsk with ⟨token, salt, iv, htokenPrefix, rfl⟩ | hburied
  · refine ⟨token, salt, iv, htokenPrefix, hs, ?_⟩
    unfold keyring
    rw [hrow, hs, Option.bind_some, Option.bind_some]
    exact holderOf_stored hv htokenPrefix
  · rw [buried_deleted hburied] at hlive
    cases hlive

theorem keyring_some {id : KeyId} {holder : Holder} (h : keyring v d id = some holder) :
    ∃ k ∈ d.access.db.apiKeys, k.id = id ∧ k.deleted = false := by
  unfold keyring at h
  obtain ⟨k, hk, h⟩ := Option.bind_eq_some_iff.mp h
  obtain ⟨s, -, h⟩ := Option.bind_eq_some_iff.mp h
  obtain ⟨hmem, hid⟩ := Table.lookup_some hk
  refine ⟨k, hmem, hid, ?_⟩
  by_contra hdel
  rw [Bool.not_eq_false] at hdel
  rw [holderOf_deleted hdel] at h
  cases h

/-- The holder of a key is read off its row and its secrets. -/
theorem keyring_congr {id : KeyId} (hkey : d'.access.db.key? id = d.access.db.key? id)
    (hsecret : d'.secret? id = d.secret? id) : keyring v d' id = keyring v d id := by
  unfold keyring
  rw [hkey, hsecret]

theorem keyring_update {id : KeyId} {holder : Option Holder}
    (hother : ∀ j, j ≠ id → d'.access.db.key? j = d.access.db.key? j ∧ d'.secret? j = d.secret? j)
    (hself : keyring v d' id = holder) : keyring v d' = Function.update (keyring v d) id holder := by
  funext j
  by_cases hj : j = id
  · subst hj
    rw [Function.update_self, hself]
  · rw [Function.update_of_ne hj]
    exact keyring_congr (hother j hj).1 (hother j hj).2

section written

variable {key : ApiKey} {f : ApiKey → ApiKey} (hkey : d.access.db.key? key.id = some key)
  (hkeys : d'.access.db.apiKeys = Table.modify ApiKey.id key.id f d.access.db.apiKeys) (hid : ∀ k, (f k).id = k.id)

include hkeys hid

theorem key_written : d'.access.db.key? key.id = (d.access.db.key? key.id).map f := by
  unfold Database.key?
  rw [hkeys]
  exact Table.lookup_modify_self (fun k hk => (hid k).trans hk) d.access.db.apiKeys

theorem key_other {id : KeyId} (hne : id ≠ key.id) : d'.access.db.key? id = d.access.db.key? id := by
  unfold Database.key?
  rw [hkeys]
  exact Table.lookup_modify_ne hne (fun k hk => (hid k).trans hk) d.access.db.apiKeys

include hkey

/-- The row of a key and its secrets are written. -/
theorem keyring_written (h : Sealed v d) {hash encrypted : String}
    (hsecrets : d'.secrets = d.writeSecret key.id hash encrypted) :
    keyring v d' = Function.update (keyring v d) key.id (holderOf v (f key) ⟨key.id, hash, encrypted⟩) := by
  have hkeep : ∀ s : KeySecret, s.keyId = key.id → (⟨key.id, hash, encrypted⟩ : KeySecret).keyId = key.id :=
    fun _ _ => rfl
  refine keyring_update (fun j hj => ⟨key_other hkeys hid hj, ?_⟩) ?_
  · unfold secret?
    rw [hsecrets]
    exact Table.lookup_modify_ne hj hkeep d.secrets
  · obtain ⟨s, hs, -, -⟩ := h.secret (Table.lookup_some hkey).1
    have hs' : d'.secret? key.id = some ⟨key.id, hash, encrypted⟩ := by
      unfold secret?
      rw [hsecrets]
      refine (Table.lookup_modify_self hkeep d.secrets).trans ?_
      show (d.secret? key.id).map _ = _
      rw [hs, Option.map_some]
    unfold keyring
    rw [key_written hkeys hid, hkey, hs', Option.map_some, Option.bind_some, Option.bind_some]

end written

theorem keyring_create (h : Sealed v d) (hv : v.Sound) {key : ApiKey} {token salt iv : String}
    (htokenPrefix : tokenPrefix token = .ok key.tokenPrefix) (hactive : key.active = true)
    (hfresh : ∀ j ∈ d.access.db.apiKeys, j.id ≠ key.id)
    (hkeys : d'.access.db.apiKeys = d.access.db.apiKeys ++ [key])
    (hsecrets : d'.secrets = d.secrets ++ [⟨key.id, v.hash salt token, v.encrypt iv token⟩]) :
    (keyring v d).Fits (.issue key.id ⟨key.nickname, key.role, key.quotaAccountId, token, true⟩) ∧
      keyring v d' =
        (keyring v d).apply (.issue key.id ⟨key.nickname, key.role, key.quotaAccountId, token, true⟩) := by
  have hnew : d.access.db.key? key.id = none := Table.lookup_none.mpr hfresh
  have hnosecret : d.secret? key.id = none := by
    refine Table.lookup_none.mpr fun s hs hsk => ?_
    have hin : key.id ∈ d.access.db.apiKeys.map (·.id) := hsk ▸ h.aligned ▸ List.mem_map_of_mem hs
    obtain ⟨j, hj, hjk⟩ := List.mem_map.mp hin
    exact hfresh j hj hjk
  have hkey : ∀ j, d'.access.db.key? j = (d.access.db.key? j).or (Table.lookup ApiKey.id j [key]) := by
    intro j
    unfold Database.key?
    rw [hkeys]
    exact Table.lookup_append
  have hsecret : ∀ j, d'.secret? j = (d.secret? j).or
      (Table.lookup KeySecret.keyId j [⟨key.id, v.hash salt token, v.encrypt iv token⟩]) := by
    intro j
    unfold secret?
    rw [hsecrets]
    exact Table.lookup_append
  constructor
  · show keyring v d key.id = none
    unfold keyring
    rw [hnew, Option.bind_none]
  · refine keyring_update (fun j hj => ⟨?_, ?_⟩) ?_
    · rw [hkey, Table.lookup_cons, if_neg (Ne.symm hj), Table.lookup_nil, Option.or_none]
    · rw [hsecret, Table.lookup_cons, if_neg (Ne.symm hj), Table.lookup_nil, Option.or_none]
    · unfold keyring
      rw [hkey, hsecret, hnew, hnosecret, Table.lookup_cons, Table.lookup_cons, if_pos rfl, if_pos rfl,
        Option.none_or, Option.none_or, Option.bind_some, Option.bind_some, holderOf_stored hv htokenPrefix, hactive]

theorem keyring_activate {key : ApiKey} {a : Bool} (hkey : d.access.db.key? key.id = some key)
    (hkeys : d'.access.db.apiKeys =
      Table.modify ApiKey.id key.id (fun k => { k with active := a }) d.access.db.apiKeys)
    (hsecrets : d'.secrets = d.secrets) : keyring v d' = (keyring v d).apply (.setActive key.id a) := by
  have hid : ∀ k : ApiKey, ({ k with active := a } : ApiKey).id = k.id := fun _ => rfl
  refine keyring_update (fun j hj => ⟨key_other hkeys hid hj, congrArg (Table.lookup KeySecret.keyId j) hsecrets⟩) ?_
  have hsecret : d'.secret? key.id = d.secret? key.id := congrArg (Table.lookup KeySecret.keyId key.id) hsecrets
  unfold keyring
  rw [key_written hkeys hid, hkey, hsecret, Option.map_some, Option.bind_some, Option.bind_some, Option.map_bind]
  refine congrArg _ (funext fun s => ?_)
  show holderOf v { key with active := a } s = (holderOf v key s).map _
  unfold holderOf
  by_cases hdel : key.deleted = true
  · rw [if_pos hdel, if_pos (show ({ key with active := a } : ApiKey).deleted = true from hdel), Option.map_none]
  · rw [if_neg hdel, if_neg (show ¬ ({ key with active := a } : ApiKey).deleted = true from hdel), Option.map_map]
    rfl

theorem keyring_rotate (h : Sealed v d) (hv : v.Sound) {key : ApiKey} {token p salt iv : String}
    (hkey : d.access.db.key? key.id = some key) (hlive : key.deleted = false)
    (htokenPrefix : tokenPrefix token = .ok p)
    (hkeys : d'.access.db.apiKeys =
      Table.modify ApiKey.id key.id (fun k => { k with tokenPrefix := p, active := true }) d.access.db.apiKeys)
    (hsecrets : d'.secrets = d.writeSecret key.id (v.hash salt token) (v.encrypt iv token)) :
    keyring v d' = (keyring v d).apply (.rotate key.id token) := by
  obtain ⟨token', salt', iv', -, -, hholder⟩ := h.holder hv (Table.lookup_some hkey).1 hlive
  rw [keyring_written hkey hkeys (fun _ => rfl) h hsecrets]
  refine congrArg _ ?_
  rw [hholder, Option.map_some]
  exact holderOf_stored (k := { key with tokenPrefix := p, active := true }) hv htokenPrefix

/-- The tables refine the keyring: a call acts on the keyring as its event, or
not at all. -/
theorem call_keyring (h : Sealed v d) (hv : v.Sound) {c : Call} (hcall : call v d c = some d') :
    keyring v d' = keyring v d ∨
      ∃ e, c.event? = some e ∧ (keyring v d).Fits e ∧ keyring v d' = (keyring v d).apply e := by
  cases call_secrets hcall with
  | same hkeys hsecrets =>
    left
    unfold keyring Database.key? secret?
    rw [hkeys, hsecrets]
  | create htoken hfresh haccount hkeys hsecrets =>
    rename_i k n r a an apiKey l u secret salt iv t p
    have htokenPrefix : tokenPrefix t = .ok (⟨k, n, r, a, p, true⟩ : ApiKey).tokenPrefix :=
      newToken_tokenPrefix htoken
    obtain ⟨hfits, happly⟩ := keyring_create h hv htokenPrefix rfl (fun j hj => (hfresh j hj).1) hkeys hsecrets
    exact .inr ⟨.issue k ⟨n, r, a, t, true⟩, by simp only [Call.event?, htoken], hfits, happly⟩
  | activate hkey hon hkeys hsecrets => exact .inr ⟨_, rfl, trivial, keyring_activate hkey hkeys hsecrets⟩
  | rotate hkey hlive htoken hfresh hkeys hsecrets =>
    rename_i key secret salt iv t p
    have htokenPrefix := issueApiKey_tokenPrefix key.id secret
    rw [← htoken] at htokenPrefix
    exact .inr ⟨.rotate key.id t, by simp only [Call.event?, ← htoken], trivial,
      keyring_rotate h hv hkey hlive htokenPrefix hkeys hsecrets⟩
  | delete hkey hfresh hkeys hsecrets =>
    rename_i key iv
    refine .inr ⟨_, rfl, trivial, ?_⟩
    rw [keyring_written hkey hkeys (fun _ => rfl) h hsecrets]
    exact congrArg _ (holderOf_deleted (k := Database.tombstone key.id key) (Database.tombstone_deleted key.id) _)

/-! ### Who authenticates, and what is listed -/

/-- A prefix finds one row. -/
theorem Sealed.row_unique (h : Sealed v d) {k k' : ApiKey} {a a' : QuotaAccount} {s s' : KeySecret}
    (hr : (k, a, s) ∈ d.rows) (hr' : (k', a', s') ∈ d.rows) (hsame : k.tokenPrefix = k'.tokenPrefix) :
    (k, a, s) = (k', a', s') := by
  obtain ⟨hk, ha, hs⟩ := mem_rows.mp hr
  obtain ⟨hk', ha', hs'⟩ := mem_rows.mp hr'
  obtain rfl : k = k' := List.inj_on_of_nodup_map h.prefixes hk hk' hsame
  obtain rfl : a = a' := Option.some.inj (ha.symm.trans ha')
  obtain rfl : s = s' := Option.some.inj (hs.symm.trans hs')
  rfl

/-- The secrets of a row are those of its holder. -/
theorem Sealed.row_holder (h : Sealed v d) (hv : v.Sound) {k : ApiKey} {a : QuotaAccount} {s : KeySecret}
    (hr : (k, a, s) ∈ d.rows) (hlive : k.deleted = false) :
    ∃ token salt iv, tokenPrefix token = .ok k.tokenPrefix ∧ s = ⟨k.id, v.hash salt token, v.encrypt iv token⟩ ∧
      keyring v d k.id = some { nickname := k.nickname, role := k.role, quotaAccountId := k.quotaAccountId,
                                token := token, active := k.active } := by
  obtain ⟨hk, -, hs⟩ := mem_rows.mp hr
  obtain ⟨token, salt, iv, htokenPrefix, hs', hholder⟩ := h.holder hv hk hlive
  exact ⟨token, salt, iv, htokenPrefix, Option.some.inj (hs.symm.trans hs'), hholder⟩

/-- An active key is not a tombstone. -/
theorem Sealed.active_live (h : Sealed v d) {k : ApiKey} (hk : k ∈ d.access.db.apiKeys) (hactive : k.active = true) :
    k.deleted = false := by
  obtain ⟨s, -, hmem, hsk⟩ := h.secret hk
  rcases h.secrets k hk s hmem hsk with hstored | hburied
  · exact stored_not_deleted hstored
  · rw [hburied.1] at hactive
    cases hactive

/-- The prefix and the hash find the holder that the token admits. -/
theorem authenticate_iff (h : Sealed v d) (hv : v.Sound) {token p : String} (hp : tokenPrefix token = .ok p)
    {pr : KeyPrincipal} :
    d.authenticate v p token = some pr ↔
      ∃ holder, (keyring v d).Admits token pr.keyId holder ∧ pr.nickname = holder.nickname ∧ pr.role = holder.role ∧
        pr.quotaAccountId = holder.quotaAccountId ∧
        (d.access.db.account? holder.quotaAccountId).map (·.unlimited) = some pr.unlimited := by
  constructor
  · intro hauth
    unfold authenticate at hauth
    split at hauth
    · cases hauth
    · rename_i k a s hfind
      obtain ⟨hverify, hauth⟩ := Option.ite_none_right_eq_some.mp hauth
      cases hauth
      have hrow := List.mem_of_find?_eq_some hfind
      have hactive := List.find?_some hfind
      simp only [decide_eq_true_eq] at hactive
      obtain ⟨hk, ha, -⟩ := mem_rows.mp hrow
      obtain ⟨token', salt, iv, -, rfl, hholder⟩ := h.row_holder hv hrow (h.active_live hk hactive.2)
      obtain rfl := hv.verify_only salt token' token hverify
      exact ⟨_, ⟨hholder, hactive.2, rfl⟩, rfl, rfl, rfl, by rw [ha]; rfl⟩
  · rintro ⟨holder, ⟨hholder, hactive, htoken⟩, hnickname, hrole, haccount, hunlimited⟩
    obtain ⟨k, hk, hid, hlive⟩ := keyring_some hholder
    obtain ⟨a, s, hrow⟩ := h.row hk
    obtain ⟨token', salt, iv, htokenPrefix, rfl, hholder'⟩ := h.row_holder hv hrow hlive
    rw [hid, hholder] at hholder'
    cases hholder'
    subst htoken
    obtain rfl := Except.ok.inj (hp.symm.trans htokenPrefix)
    obtain ⟨-, ha, -⟩ := mem_rows.mp hrow
    unfold authenticate
    cases hfind : d.rows.find? (fun row => row.1.tokenPrefix = k.tokenPrefix ∧ row.1.active) with
    | none => exact absurd (decide_eq_true ⟨rfl, hactive⟩) (List.find?_eq_none.mp hfind _ hrow)
    | some row =>
      have hsame := List.find?_some hfind
      simp only [decide_eq_true_eq] at hsame
      have hrow' : row = (k, a, ⟨k.id, v.hash salt token', v.encrypt iv token'⟩) :=
        h.row_unique (List.mem_of_find?_eq_some hfind) hrow hsame.1
      subst hrow'
      have hunlimited : a.unlimited = pr.unlimited := by
        rw [ha] at hunlimited
        exact Option.some.inj hunlimited
      have hpr : principalOf k a = pr := by
        obtain ⟨⟨keyId, quotaAccountId⟩, nickname, role, unlimited⟩ := pr
        cases hid
        cases hnickname
        cases hrole
        cases haccount
        cases hunlimited
        rfl
      show (if v.verify (v.hash salt token') token' = true then some (principalOf k a) else none) = some pr
      rw [if_pos (hv.verify_hash salt token'), hpr]

/-! ### The list of keys -/

/-- The holder that the list shows. -/
def shown (r : ListedKey) : Holder where
  nickname := r.nickname
  role := r.role
  quotaAccountId := r.quotaAccountId
  token := r.apiKey
  active := r.active

theorem listedKey_some {row : ApiKey × QuotaAccount × KeySecret} {r : ListedKey} (h : d.listedKey v row = some r) :
    v.decrypt row.2.2.encryptedApiKey = some r.apiKey ∧ r.id = row.1.id ∧ r.nickname = row.1.nickname ∧
      r.role = row.1.role ∧ r.quotaAccountId = row.1.quotaAccountId ∧ r.active = row.1.active ∧
      r.unlimited = row.2.1.unlimited := by
  obtain ⟨k, a, s⟩ := row
  obtain ⟨apiKey, hkey, rfl⟩ := Option.map_eq_some_iff.mp h
  exact ⟨hkey, rfl, rfl, rfl, rfl, rfl, rfl⟩

theorem Sealed.listed (h : Sealed v d) (hv : v.Sound) {row : ApiKey × QuotaAccount × KeySecret} (hrow : row ∈ d.rows)
    (hlive : row.1.deleted = false) :
    ∃ r, d.listedKey v row = some r ∧ keyring v d row.1.id = some (shown r) ∧ r.id = row.1.id ∧
      (d.access.db.account? r.quotaAccountId).map (·.unlimited) = some r.unlimited := by
  obtain ⟨k, a, s⟩ := row
  obtain ⟨token, salt, iv, -, rfl, hholder⟩ := h.row_holder hv hrow hlive
  have hsome : ∃ r, d.listedKey v (k, a, ⟨k.id, v.hash salt token, v.encrypt iv token⟩) = some r := by
    unfold listedKey
    simp only [hv.decrypt_encrypt, Option.map_some]
    exact ⟨_, rfl⟩
  obtain ⟨r, hr⟩ := hsome
  obtain ⟨htoken, hid, hnickname, hrole, haccount, hactive, hunlimited⟩ := listedKey_some hr
  obtain rfl : token = r.apiKey := Option.some.inj ((hv.decrypt_encrypt iv token).symm.trans htoken)
  refine ⟨r, hr, ?_, hid, ?_⟩
  · unfold shown
    rw [hnickname, hrole, haccount, hactive]
    exact hholder
  · rw [haccount, hunlimited, (mem_rows.mp hrow).2.1, Option.map_some]

/-- The list of keys is decrypted, and it shows the keyring. -/
theorem listKeys_keyring (h : Sealed v d) (hv : v.Sound) :
    ∃ listed, d.listKeys v = some listed ∧
      (∀ r ∈ listed, keyring v d r.id = some (shown r) ∧
        (d.access.db.account? r.quotaAccountId).map (·.unlimited) = some r.unlimited) ∧
      ∀ id holder, keyring v d id = some holder → ∃ r ∈ listed, r.id = id ∧ shown r = holder := by
  have hrows : ∀ row ∈ (d.rows.filter fun row => row.1.deleted = false).mergeSort
      (fun r t => decide (r.1.nickname ≤ t.1.nickname)), row ∈ d.rows ∧ row.1.deleted = false := by
    intro row hrow
    obtain ⟨hrow, hlive⟩ := List.mem_filter.mp (List.mem_mergeSort.mp hrow)
    exact ⟨hrow, of_decide_eq_true hlive⟩
  have hall : ∀ row ∈ (d.rows.filter fun row => row.1.deleted = false).mergeSort
      (fun r t => decide (r.1.nickname ≤ t.1.nickname)), ∃ r, d.listedKey v row = some r := by
    intro row hrow
    obtain ⟨r, hr, -⟩ := h.listed hv (hrows row hrow).1 (hrows row hrow).2
    exact ⟨r, hr⟩
  obtain ⟨listed, hlisted, hto⟩ := exists_mapM hall
  have hids : ∀ row r, d.listedKey v row = some r → r.id = row.1.id := fun _ _ hr => (listedKey_some hr).2.1
  obtain ⟨-, hfrom, -⟩ := mapM_eq_some hids hlisted
  refine ⟨listed, hlisted, fun r hr => ?_, fun id holder hholder => ?_⟩
  · obtain ⟨row, hrow, hshows⟩ := hfrom r hr
    obtain ⟨r', hr', hkeyring, hid, hunlimited⟩ := h.listed hv (hrows row hrow).1 (hrows row hrow).2
    obtain rfl : r = r' := Option.some.inj (hshows.symm.trans hr')
    exact ⟨hid ▸ hkeyring, hunlimited⟩
  · obtain ⟨k, hk, rfl, hlive⟩ := keyring_some hholder
    obtain ⟨a, s, hrow⟩ := h.row hk
    obtain ⟨r, hr, hkeyring, hid, -⟩ := h.listed hv hrow hlive
    have hmem : (k, a, s) ∈ (d.rows.filter fun row => row.1.deleted = false).mergeSort
        (fun r t => decide (r.1.nickname ≤ t.1.nickname)) :=
      List.mem_mergeSort.mpr (List.mem_filter.mpr ⟨hrow, decide_eq_true hlive⟩)
    exact ⟨r, hto _ hmem r hr, hid, Option.some.inj (hkeyring.symm.trans hholder)⟩

end Credentials
end LlmRio
