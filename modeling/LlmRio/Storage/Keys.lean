/-
# Keys and the accounts of administrators

What each call does to the keys: the quota interface may insert one
(`step_keys`), the calls on keys write the rows of one (`call_keys`).

An administrator's account is unlimited. The rule is kept on the key that a
call names: `update_quota` refuses to limit an administrator, but a user's key
may share the administrator's account (`shared_account_limited`). In the runs
that limit no account of an administrator, every administrator stays unlimited
and none is refused for lack of balance (`admins_unlimited`).

Key definitions: `ApiKey.deleted`, `KeyEffect`, `KeyWrite`, `AdminsUnlimited`.
Key theorems: `step_keys`, `call_keys`, `admins_unlimited`.
-/
import LlmRio.Storage.Catalog

namespace LlmRio

open Transactions Runs

/-- `token_prefix LIKE 'deleted-%'` -/
def ApiKey.deleted (k : ApiKey) : Bool := k.tokenPrefix.toLower.startsWith "deleted-"

def ApiKey.activeAdmin (k : ApiKey) : Bool := k.role = .admin ∧ k.active

namespace Database

/-! ### What the quota interface does to keys and accounts -/

/-- The account is there and is unlimited. -/
def Unlimited (a : AccountId) (db : Database) : Prop :=
  ∃ account, db.account? a = some account ∧ account.unlimited = true

/-- The call takes the account's `unlimited` flag away. -/
def Op.limits (a : AccountId) (db : Database) : Op → Bool
  | .updateQuota k _ unlimited =>
    !unlimited && (db.key? k).any fun key => key.role ≠ .admin ∧ key.quotaAccountId = a
  | _ => false

variable {db db' : Database} {a : AccountId}

theorem Unlimited.of_accounts (h : Unlimited a db) (heq : db'.quotaAccounts = db.quotaAccounts) :
    Unlimited a db' := by
  obtain ⟨account, hacct, hu⟩ := h
  refine ⟨account, ?_, hu⟩
  rw [account?, heq]
  exact hacct

theorem Unlimited.updateAccount (h : Unlimited a db) {id : AccountId} {f : QuotaAccount → QuotaAccount}
    (hid : ∀ b, (f b).id = b.id) (hf : id = a → ∀ b, b.unlimited = true → (f b).unlimited = true)
    (hok : db.updateAccount id f = .ok db') : Unlimited a db' := by
  obtain ⟨-, rfl⟩ := updateAccount_ok.mp hok
  obtain ⟨account, hacct, hu⟩ := h
  have hkeep : ∀ b : QuotaAccount, b.id = id → (f b).id = id := fun b hb => (hid b).trans hb
  by_cases ha : id = a
  · subst ha
    refine ⟨f account, ?_, hf rfl account hu⟩
    show Table.lookup QuotaAccount.id id (Table.modify QuotaAccount.id id f db.quotaAccounts) = _
    rw [Table.lookup_modify_self hkeep]
    show (db.account? id).map f = _
    rw [hacct, Option.map_some]
  · refine ⟨account, ?_, hu⟩
    show Table.lookup QuotaAccount.id a (Table.modify QuotaAccount.id id f db.quotaAccounts) = _
    rw [Table.lookup_modify_ne (Ne.symm ha) hkeep]
    exact hacct

theorem Unlimited.insertAccount (h : Unlimited a db) (account : QuotaAccount) :
    Unlimited a (db.insertAccountOrIgnore account) := by
  rcases insertAccountOrIgnore_cases db account with heq | ⟨-, -, heq⟩
  · rwa [heq]
  · obtain ⟨b, hb, hu⟩ := h
    rw [heq]
    refine ⟨b, ?_, hu⟩
    show Table.lookup QuotaAccount.id a (db.quotaAccounts ++ [account]) = _
    rw [Table.lookup_append]
    show (db.account? a).or _ = _
    rw [hb, Option.some_or]

/-- A call that leaves the keys, and each account unlimited that it was. -/
structure KeepsAccess (db db' : Database) : Prop where
  keys : db'.apiKeys = db.apiKeys
  unlimited : ∀ a, Unlimited a db → Unlimited a db'

theorem KeepsAccess.of_eq (hk : db'.apiKeys = db.apiKeys) (ha : db'.quotaAccounts = db.quotaAccounts) :
    KeepsAccess db db' :=
  ⟨hk, fun _ h => h.of_accounts ha⟩

theorem KeepsAccess.trans {db1 : Database} (h : KeepsAccess db db1) (h1 : KeepsAccess db1 db') : KeepsAccess db db' :=
  ⟨h1.keys.trans h.keys, fun a ha => h1.unlimited a (h.unlimited a ha)⟩

theorem updateAccount_keeps {id : AccountId} {f : QuotaAccount → QuotaAccount}
    (hid : ∀ b, (f b).id = b.id) (hf : ∀ b, (f b).unlimited = b.unlimited)
    (hok : db.updateAccount id f = .ok db') : KeepsAccess db db' := by
  refine ⟨?_, fun a ha => ha.updateAccount hid (fun _ b hb => (hf b).trans hb) hok⟩
  obtain ⟨-, rfl⟩ := updateAccount_ok.mp hok
  rfl

theorem settleQuota_keeps {rid : ReservationId} {n : ℤ} {p c : Option ℤ} {e : Option String} {lid : String}
    {now : Datetime} (hok : db.settleQuota rid n p c e lid now = .ok db') : KeepsAccess db db' := by
  rcases settleQuota_ok hok with ⟨rfl, -⟩ | ⟨q, db1, -, -, hrefund, rfl⟩
  · exact .of_eq rfl rfl
  · obtain ⟨db0, ledger, rfl, ⟨rfl, -⟩ | ⟨account, -, -, h0⟩⟩ := refundAccount_ok hrefund
    · exact .of_eq rfl rfl
    · have h0 := updateAccount_keeps (fun _ => by rfl) (fun _ => by rfl) h0
      exact h0.trans (.of_eq rfl rfl)

theorem insertReservation_keeps {q : QuotaReservation} (hok : db.insertReservation q = .ok db') :
    KeepsAccess db db' := by
  obtain ⟨-, -, -, rfl⟩ := insertReservation_ok hok
  exact .of_eq rfl rfl

theorem reserveQuota_keeps {r : RequestId} {h : String} {p : Principal} {m : ModelId} {e : ℤ}
    {rid rid' : ReservationId} {lid : String} (hok : db.reserveQuota r h p m e rid lid = .ok (db', rid')) :
    KeepsAccess db db' := by
  rcases reserveQuota_ok hok with ⟨q, -, -, -, -, rfl⟩ | ⟨-, account, db1, -, -, h1, hrest⟩
  · exact .of_eq rfl rfl
  · have h1 := insertReservation_keeps h1
    rcases hrest with ⟨-, rfl⟩ | ⟨-, db2, h2, rfl⟩
    · exact h1
    · have h2 := updateAccount_keeps (fun _ => by rfl) (fun _ => by rfl) h2
      exact (h1.trans h2).trans (.of_eq rfl rfl)

theorem insertAccount_keeps (db : Database) (account : QuotaAccount) :
    KeepsAccess db (db.insertAccountOrIgnore account) := by
  refine ⟨?_, fun a ha => ha.insertAccount account⟩
  unfold insertAccountOrIgnore
  split <;> rfl

theorem unlimitedIfAdmin_keeps {r : Role} {id : AccountId} (hok : db.unlimitedIfAdmin r id = .ok db') :
    KeepsAccess db db' ∧ (r = .admin → (db'.account? id).isSome → Unlimited id db') := by
  unfold unlimitedIfAdmin at hok
  split at hok
  · refine ⟨⟨?_, fun a ha => ha.updateAccount (fun _ => by rfl) (fun _ _ _ => by rfl) hok⟩, fun _ hsome => ?_⟩
    · obtain ⟨-, rfl⟩ := updateAccount_ok.mp hok
      rfl
    · obtain ⟨-, rfl⟩ := updateAccount_ok.mp hok
      obtain ⟨account, haccount⟩ := Option.isSome_iff_exists.mp hsome
      obtain ⟨hmem, hid⟩ := Table.lookup_some haccount
      refine ⟨account, haccount, ?_⟩
      rcases Table.mem_modify.mp hmem with ⟨-, hne⟩ | ⟨b, -, -, rfl⟩
      · exact absurd hid hne
      · rfl
  · rename_i hr
    cases hok
    exact ⟨.of_eq rfl rfl, fun h => absurd h hr⟩

/-- A new key is active and has a new id, and the account of an administrator
is unlimited. -/
theorem createKey_keys {k : KeyId} {n : String} {r : Role} {id : AccountId} {an p : String} {l : ℤ} {u : Bool}
    (hok : db.createKey k n r id an p l u = .ok db') :
    (∀ a, Unlimited a db → Unlimited a db') ∧ ∃ key : ApiKey, key.role = r ∧ key.active = true ∧
      (∀ j ∈ db.apiKeys, j.id ≠ key.id) ∧ db'.apiKeys = db.apiKeys ++ [key] ∧
      (key.role = .admin → Unlimited key.quotaAccountId db') := by
  unfold createKey at hok
  obtain ⟨db2, h2, hok⟩ := bind_eq_ok.mp hok
  obtain ⟨hkeep, hadmin⟩ := unlimitedIfAdmin_keeps h2
  have hkeep := (insertAccount_keeps db _).trans hkeep
  unfold insertKey at hok
  obtain ⟨hclash, hok⟩ := guard_eq_ok.mp hok
  cases hok
  simp only [List.any_eq_true, decide_eq_true_eq, not_or, not_exists, not_and, Bool.not_eq_true,
    Option.isNone_eq_false_iff] at hclash
  obtain ⟨hids, hhas⟩ := hclash
  rw [hkeep.keys] at hids
  refine ⟨fun a ha => (hkeep.unlimited a ha).of_accounts rfl,
    { id := k, nickname := n, role := r, quotaAccountId := id, tokenPrefix := p }, rfl, rfl, ?_, ?_, ?_⟩
  · exact fun j hj => (hids j hj).1
  · rw [hkeep.keys]
  · exact fun hr => (hadmin hr hhas).of_accounts rfl

/-- What a call of the quota interface does to keys and accounts: it may insert
a key, and it limits an account only as `Op.limits` says. -/
structure KeyEffect (op : Op) (db db' : Database) : Prop where
  unlimited : ∀ a, op.limits a db = false → Unlimited a db → Unlimited a db'
  keys : db'.apiKeys = db.apiKeys ∨ ∃ key : ApiKey, key.active = true ∧ (∀ j ∈ db.apiKeys, j.id ≠ key.id) ∧
    db'.apiKeys = db.apiKeys ++ [key] ∧ (key.role = .admin → Unlimited key.quotaAccountId db')

theorem KeepsAccess.effect (h : KeepsAccess db db') (op : Op) : KeyEffect op db db' :=
  ⟨fun a _ => h.unlimited a, .inl h.keys⟩

theorem KeyEffect.of_eq {op : Op} (hk : db'.apiKeys = db.apiKeys) (ha : db'.quotaAccounts = db.quotaAccounts) :
    KeyEffect op db db' :=
  (KeepsAccess.of_eq hk ha).effect op

theorem updateQuota_effect {k : KeyId} {l : ℤ} {u b : Bool} (hok : db.updateQuota k l u = .ok (db', b)) :
    KeyEffect (.updateQuota k l u) db db' := by
  unfold updateQuota at hok
  split at hok
  · cases hok
    exact KeyEffect.of_eq rfl rfl
  · rename_i key hkey
    obtain ⟨hrole, hok⟩ := guard_eq_ok.mp hok
    obtain ⟨d1, h1, hok⟩ := bind_eq_ok.mp hok
    cases pure_eq_ok.mp hok
    refine ⟨fun a hlim ha => ha.updateAccount (fun _ => by rfl) (fun heq b _ => ?_) h1, .inl ?_⟩
    · -- the account of the key is limited only by a call that `Op.limits` names
      show u = true
      by_contra hu
      simp only [Bool.not_eq_true] at hu
      simp only [hu, Bool.false_eq_true, not_false_eq_true, and_true] at hrole
      have hlimits : Op.limits a db (.updateQuota k l u) = true := by
        simp [Op.limits, hkey, hu, hrole, heq]
      rw [hlim] at hlimits
      cases hlimits
    · obtain ⟨-, rfl⟩ := updateAccount_ok.mp h1
      rfl

theorem step_keys {op : Op} (hs : step db op = some db') : KeyEffect op db db' := by
  have hrefl : KeepsAccess db db := .of_eq rfl rfl
  unfold step at hs
  split at hs
  case isFalse => cases hs
  case isTrue hlink =>
  cases hs
  cases op with
  | createKey k n r a an p l u =>
    refine commit_invariant (hrefl.effect _) fun d hd => ?_
    obtain ⟨hu, key, -, hkey⟩ := createKey_keys hd
    exact ⟨fun a _ => hu a, .inr ⟨key, hkey⟩⟩
  | updateQuota k l u =>
    refine commit_invariant (hrefl.effect _) fun d hd => ?_
    obtain ⟨⟨d', b⟩, hd', rfl⟩ := map_eq_ok hd
    exact updateQuota_effect hd'
  | resetUsage k now =>
    refine commit_invariant (hrefl.effect _) fun d hd => ?_
    obtain ⟨⟨d', b⟩, hd', rfl⟩ := map_eq_ok hd
    rcases resetUsage_ok hd' with rfl | ⟨key, -, hup⟩
    · exact hrefl.effect _
    · exact (updateAccount_keeps (fun _ => by rfl) (fun _ => by rfl) hup).effect _
  | reserveQuota r hash p m e rid lid =>
    refine commit_invariant (hrefl.effect _) fun d hd => ?_
    obtain ⟨⟨d', rid'⟩, hd', rfl⟩ := map_eq_ok hd
    exact (reserveQuota_keeps hd').effect _
  | createInferenceRequest | markRequestAdmitted =>
    exact rows_invariant (I := fun d => KeyEffect _ db d) (fun _ => .of_eq rfl rfl) rfl
  | settleQuota | releaseReservation | recoverOrphanedState =>
    refine KeepsAccess.effect ?_ _
    exact settle_invariant hrefl (fun hd hok => hd.trans (settleQuota_keeps hok)) rfl
  | summarizeUsage t now =>
    refine summarize_invariant (hrefl.effect _) fun hok => ?_
    obtain ⟨cutoff, summaries, start, -, -, -, rfl⟩ := summarizeUsage_ok hok
    exact KeyEffect.of_eq rfl rfl

/-! ### What a call does to a key -/

/-- The row that `delete_key` leaves of a key. -/
def tombstone (id : KeyId) (k : ApiKey) : ApiKey :=
  { k with active := false, nickname := "deleted-" ++ id, tokenPrefix := "deleted-" ++ id }

/-- What a call that finds the row `key` makes of the rows with its id. -/
inductive KeyWrite (db : Database) (key : ApiKey) : (ApiKey → ApiKey) → Prop
  | active (a : Bool) (hon : a = true → key.tokenPrefix.startsWith "deleted-" = false)
      (hoff : a = false → key.activeAdmin = true → 1 < db.activeAdmins) :
      KeyWrite db key fun k => { k with active := a }
  | secret (tokenPrefix : String) (hkey : key.deleted = false) :
      KeyWrite db key fun k => { k with tokenPrefix := tokenPrefix, active := true }
  | deletion (hoff : key.activeAdmin = true → 1 < db.activeAdmins) : KeyWrite db key (tombstone key.id)

/-- The database after a write to the rows of a key. -/
def writeKey (db : Database) (key : ApiKey) (f : ApiKey → ApiKey) : Database :=
  { db with apiKeys := Table.modify ApiKey.id key.id f db.apiKeys }

theorem updateKey_keys {id : KeyId} {f : ApiKey → ApiKey} (hok : db.updateKey id f = .ok db') :
    db' = { db with apiKeys := Table.modify ApiKey.id id f db.apiKeys } := by
  unfold updateKey at hok
  obtain ⟨-, hok⟩ := guard_eq_ok.mp hok
  cases hok
  rfl

theorem setKeyActive_ok {k : KeyId} {a b : Bool} (hok : db.setKeyActive k a = .ok (db', b)) :
    db' = db ∨ ∃ key f, db.key? key.id = some key ∧ KeyWrite db key f ∧ db' = writeKey db key f := by
  unfold setKeyActive at hok
  split at hok
  · cases hok
    exact .inl rfl
  · rename_i key hkey
    have hid : key.id = k := (Table.lookup_some hkey).2
    split at hok
    · cases hok
      exact .inl rfl
    · rename_i hon
      obtain ⟨hoff, hok⟩ := guard_eq_ok.mp hok
      obtain ⟨d1, h1, hok⟩ := bind_eq_ok.mp hok
      cases pure_eq_ok.mp hok
      subst hid
      refine .inr ⟨key, _, hkey, .active a (fun ha => ?_) (fun ha hadmin => ?_), updateKey_keys h1⟩
      · simpa [ha] using hon
      · simp only [ApiKey.activeAdmin, decide_eq_true_eq] at hadmin
        simpa [ha, hadmin] using hoff

theorem replaceKeySecret_ok {k : KeyId} {p : String} {b : Bool} (hok : db.replaceKeySecret k p = .ok (db', b)) :
    db' = db ∨ ∃ key f, db.key? key.id = some key ∧ KeyWrite db key f ∧ db' = writeKey db key f := by
  unfold replaceKeySecret at hok
  split at hok
  · cases hok
    exact .inl rfl
  · rename_i key hkey
    have hid : key.id = k := (Table.lookup_some hkey).2
    split at hok
    · cases hok
      exact .inl rfl
    · rename_i hlike
      obtain ⟨d1, h1, hok⟩ := bind_eq_ok.mp hok
      cases pure_eq_ok.mp hok
      subst hid
      exact .inr ⟨key, _, hkey, .secret p (Bool.eq_false_iff.mpr hlike), updateKey_keys h1⟩

/-- A deletion that is not refused makes the row of its key a tombstone. -/
theorem deleteKey_ok {k : KeyId} {b : Bool} (hok : db.deleteKey k = .ok (db', b)) :
    (b = false ∧ db' = db) ∨ ∃ key, key.id = k ∧ db.key? key.id = some key ∧
      KeyWrite db key (tombstone key.id) ∧ db' = writeKey db key (tombstone key.id) := by
  unfold deleteKey at hok
  split at hok
  · cases hok
    exact .inl ⟨rfl, rfl⟩
  · rename_i key hkey
    have hid : key.id = k := (Table.lookup_some hkey).2
    obtain ⟨hoff, hok⟩ := guard_eq_ok.mp hok
    obtain ⟨d1, h1, hok⟩ := bind_eq_ok.mp hok
    cases pure_eq_ok.mp hok
    subst hid
    refine .inr ⟨key, rfl, hkey, .deletion fun hadmin => ?_, updateKey_keys h1⟩
    simp only [ApiKey.activeAdmin, decide_eq_true_eq] at hadmin
    simpa [hadmin] using hoff

/-- A call is a step of the quota interface, or leaves keys and accounts, or
writes the rows of one key. -/
theorem call_keys {c : Call} (hs : call db c = some db') :
    (∃ op, c = .quota op ∧ step db op = some db') ∨
    (db'.apiKeys = db.apiKeys ∧ db'.quotaAccounts = db.quotaAccounts) ∨
    ∃ key f, db.key? key.id = some key ∧ KeyWrite db key f ∧ db' = writeKey db key f := by
  cases c with
  | quota op => exact .inl ⟨op, rfl, hs⟩
  | setKeyActive k a =>
    cases hs
    cases hok : db.setKeyActive k a with
    | error e => exact .inr (.inl ⟨rfl, rfl⟩)
    | ok result =>
      rcases setKeyActive_ok hok with heq | hwrite
      · exact .inr (.inl ⟨congrArg apiKeys heq, congrArg quotaAccounts heq⟩)
      · exact .inr (.inr hwrite)
  | replaceKeySecret k p =>
    cases hs
    cases hok : db.replaceKeySecret k p with
    | error e => exact .inr (.inl ⟨rfl, rfl⟩)
    | ok result =>
      rcases replaceKeySecret_ok hok with heq | hwrite
      · exact .inr (.inl ⟨congrArg apiKeys heq, congrArg quotaAccounts heq⟩)
      · exact .inr (.inr hwrite)
  | deleteKey k =>
    cases hs
    cases hok : db.deleteKey k with
    | error e => exact .inr (.inl ⟨rfl, rfl⟩)
    | ok result =>
      rcases deleteKey_ok hok with ⟨-, heq⟩ | ⟨key, -, hkey, hwrite, heq⟩
      · exact .inr (.inl ⟨congrArg apiKeys heq, congrArg quotaAccounts heq⟩)
      · exact .inr (.inr ⟨key, _, hkey, hwrite, heq⟩)
  | insertModel m =>
    cases hs
    refine .inr (.inl (commit_invariant
      (I := fun d : Database => d.apiKeys = db.apiKeys ∧ d.quotaAccounts = db.quotaAccounts) ⟨rfl, rfl⟩ fun d hd => ?_))
    unfold insertModel at hd
    obtain ⟨-, hd⟩ := guard_eq_ok.mp hd
    cases hd
    exact ⟨rfl, rfl⟩
  | updateModel id state path =>
    cases hs
    exact .inr (.inl ⟨rfl, rfl⟩)

theorem KeyWrite.columns {key : ApiKey} {f : ApiKey → ApiKey} (h : KeyWrite db key f) (k : ApiKey) :
    (f k).id = k.id ∧ (f k).role = k.role ∧ (f k).quotaAccountId = k.quotaAccountId := by
  cases h with
  | active => exact ⟨rfl, rfl, rfl⟩
  | secret => exact ⟨rfl, rfl, rfl⟩
  | deletion => exact ⟨rfl, rfl, rfl⟩

theorem tombstone_deleted (id : KeyId) : ("deleted-" ++ id).toLower.startsWith "deleted-" = true := by
  rw [String.startsWith_string_iff]
  refine ⟨id.toLower.toList, ?_⟩
  have htoLower : ∀ s : String, s.toLower = s.map Char.toLower := fun _ => rfl
  simp [htoLower]

/-- No call makes a deleted key one that is not deleted. -/
theorem KeyWrite.deleted {key : ApiKey} {f : ApiKey → ApiKey} (h : KeyWrite db key f)
    (hk : (f key).deleted = false) : key.deleted = false := by
  cases h with
  | active => exact hk
  | secret p hkey => exact hkey
  | deletion =>
    have hdel : ("deleted-" ++ key.id).toLower.startsWith "deleted-" = false := hk
    rw [tombstone_deleted] at hdel
    cases hdel

theorem nodup_call {c : Call} (hn : (db.apiKeys.map (·.id)).Nodup) (hs : call db c = some db') :
    (db'.apiKeys.map (·.id)).Nodup := by
  rcases call_keys hs with ⟨op, -, hs⟩ | ⟨heq, -⟩ | ⟨key, f, -, hwrite, rfl⟩
  · rcases (step_keys hs).keys with heq | ⟨key, -, hnew, heq, -⟩
    · rwa [heq]
    · rw [heq, List.map_append]
      refine List.Nodup.append hn (by simp) ?_
      simpa [List.disjoint_singleton] using hnew
  · rwa [heq]
  · unfold writeKey
    rw [@Table.map_modify_of_eq _ _ _ ApiKey.id key.id f _ (·.id) db.apiKeys fun k _ _ => (hwrite.columns k).1]
    exact hn

/-- A row after a write to the rows of a key is a row of another key, or the
written one. -/
theorem mem_writeKey (hn : (db.apiKeys.map (·.id)).Nodup) {key k : ApiKey} {f : ApiKey → ApiKey}
    (hkey : db.key? key.id = some key) (hk : k ∈ (writeKey db key f).apiKeys) :
    (k ∈ db.apiKeys ∧ k.id ≠ key.id) ∨ k = f key := by
  rcases Table.mem_modify.mp hk with hold | ⟨k0, hk0, hid, rfl⟩
  · exact .inl hold
  · rw [Table.eq_of_key hn hk0 (Table.lookup_some hkey).1 hid]
    exact .inr rfl

/-! ### Administrators are unlimited -/

/-- The account of each administrator whose key is not deleted is unlimited. -/
def AdminsUnlimited (db : Database) : Prop :=
  ∀ k ∈ db.apiKeys, k.role = .admin → k.deleted = false → Unlimited k.quotaAccountId db

/-- A call that limits an account limits none that an administrator uses. -/
def Call.sparesAdmins (db : Database) : Call → Bool
  | .quota op => db.apiKeys.all fun k => k.role = .admin → k.deleted = false → op.limits k.quotaAccountId db = false
  | _ => true

theorem adminsUnlimited_call {c : Call} (hn : (db.apiKeys.map (·.id)).Nodup) (h : AdminsUnlimited db)
    (hok : c.sparesAdmins db = true) (hs : call db c = some db') : AdminsUnlimited db' := by
  rcases call_keys hs with ⟨op, rfl, hs⟩ | ⟨hk, ha⟩ | ⟨key, f, hkey, hwrite, rfl⟩
  · have heffect := step_keys hs
    have hold : ∀ k ∈ db.apiKeys, k.role = .admin → k.deleted = false → Unlimited k.quotaAccountId db' := by
      intro k hk hadmin hdel
      have hlim := of_decide_eq_true (List.all_eq_true.mp hok k hk) hadmin hdel
      exact heffect.unlimited _ hlim (h k hk hadmin hdel)
    rcases heffect.keys with heq | ⟨key, -, -, heq, hnew⟩
    · intro k hk
      exact hold k (heq ▸ hk)
    · intro k hk hadmin hdel
      rw [heq] at hk
      rcases List.mem_append.mp hk with hk | hk
      · exact hold k hk hadmin hdel
      · rw [List.mem_singleton.mp hk] at hadmin ⊢
        exact hnew hadmin
  · intro k hk' hadmin hdel
    rw [hk] at hk'
    exact (h k hk' hadmin hdel).of_accounts ha
  · intro k hk hadmin hdel
    rcases mem_writeKey hn hkey hk with ⟨hk, -⟩ | rfl
    · exact (h k hk hadmin hdel).of_accounts rfl
    · obtain ⟨-, hrole, hacct⟩ := hwrite.columns key
      rw [hrole] at hadmin
      rw [hacct]
      exact (h key (Table.lookup_some hkey).1 hadmin (hwrite.deleted hdel)).of_accounts rfl

/-- An unlimited account is never refused for lack of balance. -/
theorem reserveQuota_unlimited (h : Unlimited a db) {r : RequestId} {hash : String} {k : KeyId} {m : ModelId}
    {e : ℤ} {rid : ReservationId} {lid : String} {balance estimated : ℤ} :
    db.reserveQuota r hash ⟨k, a⟩ m e rid lid ≠ .error (.quotaExceeded balance estimated) := by
  obtain ⟨account, hacct, hu⟩ := h
  unfold reserveQuota
  split
  · split <;> simp
  · simp only [hacct, hu, not_true_eq_false, false_and, if_false, if_true]
    unfold insertReservation
    split
    · simp [bind, Except.bind]
    · simp [bind, Except.bind, pure, Except.pure]

/-- **Administrators stay unlimited.** In every run of the calls on keys, quota
and models that limits no account of an administrator, the account of every
administrator is unlimited, and a reservation of an administrator is never
refused for lack of balance. -/
theorem admins_unlimited (calls : List Call) (db : Database)
    (h : exec (restrict call fun db c => c.sparesAdmins db = true) {} calls = some db) :
    AdminsUnlimited db ∧ ∀ k ∈ db.apiKeys, k.role = .admin → k.deleted = false →
      ∀ r hash m e rid lid balance estimated,
        db.reserveQuota r hash ⟨k.id, k.quotaAccountId⟩ m e rid lid ≠ .error (.quotaExceeded balance estimated) := by
  have hinv : (db.apiKeys.map (·.id)).Nodup ∧ AdminsUnlimited db := by
    refine exec_invariant (I := fun d => (d.apiKeys.map (·.id)).Nodup ∧ AdminsUnlimited d)
      (fun d c d' hd hs => ?_) ⟨List.nodup_nil, fun _ hk => absurd hk List.not_mem_nil⟩ h
    obtain ⟨hok, hs⟩ := restrict_eq_some.mp hs
    exact ⟨nodup_call hd.1 hs, adminsUnlimited_call hd.1 hd.2 hok hs⟩
  refine ⟨hinv.2, fun k hk hadmin hdel r hash m e rid lid balance estimated => ?_⟩
  exact reserveQuota_unlimited (hinv.2 k hk hadmin hdel)

/-- An administrator and a user with accounts of their own, and a limit for the
user. -/
theorem admins_unlimited_own :
    ∃ db, exec (restrict call fun db c => c.sparesAdmins db = true) {}
        [.quota (.createKey "a" "root" .admin "acct-a" "root" "rio_a" 0 false),
         .quota (.createKey "u" "alice" .user "acct-u" "alice" "rio_u" 100 false),
         .quota (.updateQuota "u" 50 false)] = some db ∧ AdminsUnlimited db := by
  have hrun : (exec (restrict call fun db c => c.sparesAdmins db = true) {}
      [.quota (.createKey "a" "root" .admin "acct-a" "root" "rio_a" 0 false),
       .quota (.createKey "u" "alice" .user "acct-u" "alice" "rio_u" 100 false),
       .quota (.updateQuota "u" 50 false)]).isSome = true := by decide +kernel
  obtain ⟨db, h⟩ := Option.isSome_iff_exists.mp hrun
  exact ⟨db, h, (admins_unlimited _ db h).1⟩

/-- A user's key on the administrator's account: a limit for the user limits the
administrator. -/
theorem shared_account_limited :
    ∃ db, exec call {}
        [.quota (.createKey "a" "root" .admin "acct" "root" "rio_a" 0 false),
         .quota (.createKey "u" "alice" .user "acct" "root" "rio_u" 0 false),
         .quota (.updateQuota "u" 50 false)] = some db ∧
      ¬ AdminsUnlimited db ∧
      db.reserveQuota "r" "h" ⟨"a", "acct"⟩ "m" 60 "q" "l" = .error (.quotaExceeded 50 60) := by
  refine ⟨_, by rfl, fun h => ?_, by rfl⟩
  obtain ⟨account, hacct, hu⟩ := h _ List.mem_cons_self rfl (by decide +kernel)
  cases hacct
  cases hu

end Database
end LlmRio
