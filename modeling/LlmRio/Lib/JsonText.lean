/-
# Texts that are written and read

`json.dumps` with its default separators and `ensure_ascii=True`. What it
writes is read by `loads` as the value that was written (`loads_dumpsAscii`),
under two conditions. No text in the value has the first half of a surrogate
pair right before a second half, as the escapes of these two are read as one
character (`Joined`). And a float is written so that the scanner reads it
(`LawfulInterpreter`).

The scanner reads a value whatever follows it, as long as it is what may
follow a value in a list or a dict (`Follows`): a number would go on with a
digit.

Key definitions: `write`, `dumpsAscii`, `Joined`, `LawfulInterpreter`, `Follows`.
Key theorems: `scanString_write`, `scanScalar_append`, `loads_dumpsAscii`.
-/
import LlmRio.Lib.Json
import Mathlib.Data.List.Chain
import Mathlib.Data.List.Find
import Mathlib.Data.List.TakeWhile

namespace Json

open Utf8

/-! ### Writing -/

/-- `\uXXXX` -/
def unicodeEscape (n : ℕ) : List Char :=
  ['\\', 'u', hexDigitOf (n / 4096), hexDigitOf (n / 256 % 16), hexDigitOf (n / 16 % 16), hexDigitOf (n % 16)]

/-- A code point as one or two units of sixteen bits. -/
def units (p : CodePoint) : List CodePoint :=
  if p.val < 0x10000 then [p]
  else [codeUnit (0xd800 + (p.val - 0x10000) / 0x400), codeUnit (0xdc00 + (p.val - 0x10000) % 0x400)]

/-- A code point in a string that is ASCII. -/
def escapeAscii (p : CodePoint) : List Char :=
  match p.val with
  | 34 => ['\\', '"']
  | 92 => ['\\', '\\']
  | 8 => ['\\', 'b']
  | 12 => ['\\', 'f']
  | 10 => ['\\', 'n']
  | 13 => ['\\', 'r']
  | 9 => ['\\', 't']
  | n => if 32 ≤ n ∧ n ≤ 126 then [Char.ofNat n] else (units p).flatMap fun u => unicodeEscape u.val

def writeString (s : Text) : List Char := '"' :: (s.flatMap escapeAscii ++ ['"'])

def writeInt : ℤ → List Char
  | .ofNat n => Nat.toDigits 10 n
  | .negSucc n => '-' :: Nat.toDigits 10 (n + 1)

/-- The characters of a text without surrogates. -/
def chars (text : Text) : List Char := text.map fun p => Char.ofNat p.val

variable {φ : Type} [Interpreter φ]

mutual

/-- The text of a value, if it has one. -/
def write : Value φ → List Char
  | .null => "null".toList
  | .bool b => (if b then "true" else "false").toList
  | .int n => writeInt n
  | .float x => chars (Interpreter.repr x)
  | .string s => writeString s
  | .list xs => '[' :: (writeItems xs ++ [']'])
  | .dict entries => '\x7b' :: (writeEntries entries ++ ['\x7d'])

def writeItems : List (Value φ) → List Char
  | [] => []
  | [x] => write x
  | x :: xs => write x ++ ',' :: ' ' :: writeItems xs

def writeEntries : List (Text × Value φ) → List Char
  | [] => []
  | [(k, x)] => writeString k ++ ':' :: ' ' :: write x
  | (k, x) :: entries => writeString k ++ ':' :: ' ' :: (write x ++ ',' :: ' ' :: writeEntries entries)

end

mutual

/-- No integer has too many digits, and the value is no deeper than this. -/
def writable : ℕ → Value φ → Bool
  | _, .int n => (Nat.toDigits 10 n.natAbs).length ≤ intMaxStrDigits
  | depth + 1, .list xs => writableItems depth xs
  | depth + 1, .dict entries => writableEntries depth entries
  | 0, .list _ => false
  | 0, .dict _ => false
  | _, .null => true
  | _, .bool _ => true
  | _, .float _ => true
  | _, .string _ => true

def writableItems : ℕ → List (Value φ) → Bool
  | _, [] => true
  | depth, x :: xs => writable depth x && writableItems depth xs

def writableEntries : ℕ → List (Text × Value φ) → Bool
  | _, [] => true
  | depth, (_, x) :: entries => writable depth x && writableEntries depth entries

end

/-- `json.dumps(value)`; `none` if it raises, for an integer or for the depth. -/
def dumpsAscii (value : Value φ) : Option (List Char) :=
  if writable (Interpreter.recursionLimit φ) value then some (write value) else none

/-! ### Strings -/

theorem hexDigit_hexDigitOf {d : ℕ} (h : d < 16) : hexDigit (hexDigitOf d) = some d := by
  have hall : ∀ d < 16, hexDigit (hexDigitOf d) = some d := by decide
  exact hall d h

theorem codeUnit_val {n : ℕ} (h : n < 0x110000) : (codeUnit n).val = n := Nat.mod_eq_of_lt h

theorem codeUnit_self (p : CodePoint) : codeUnit p.val = p := Fin.ext (codeUnit_val p.isLt)

theorem scanString_unicodeEscape {n : ℕ} (h : n < 0x10000) (cs : List Char) :
    scanString .plain (unicodeEscape n ++ cs) =
      (scanString .plain cs).map fun (s, rest) => (codeUnit n :: s, rest) := by
  have hvalue : (((0 * 16 + n / 4096) * 16 + n / 256 % 16) * 16 + n / 16 % 16) * 16 + n % 16 = n := by omega
  have h1 := hexDigit_hexDigitOf (d := n / 4096) (by omega)
  have h2 := hexDigit_hexDigitOf (d := n / 256 % 16) (by omega)
  have h3 := hexDigit_hexDigitOf (d := n / 16 % 16) (by omega)
  have h4 := hexDigit_hexDigitOf (d := n % 16) (by omega)
  simp only [unicodeEscape, List.cons_append, List.nil_append]
  rw [scanString, if_neg (by decide), if_pos rfl, scanString, if_pos rfl, scanString, h1]
  simp only [scanString, h2, h3, h4, hvalue]
  rfl

theorem units_lt {p u : CodePoint} (h : u ∈ units p) : u.val < 0x10000 := by
  have hp := p.isLt
  unfold units at h
  split at h
  · rw [List.mem_singleton.mp h]
    assumption
  · simp only [List.mem_cons, List.not_mem_nil, or_false] at h
    rcases h with rfl | rfl
    · rw [codeUnit_val (by omega)]
      omega
    · rw [codeUnit_val (by omega)]
      omega

theorem scanString_units (us : List CodePoint) (cs : List Char) (h : ∀ u ∈ us, u.val < 0x10000) :
    scanString .plain (us.flatMap (fun u => unicodeEscape u.val) ++ cs) =
      (scanString .plain cs).map fun (s, rest) => (us ++ s, rest) := by
  induction us with
  | nil =>
    rw [List.flatMap_nil, List.nil_append]
    cases scanString .plain cs <;> rfl
  | cons u us ih =>
    rw [List.flatMap_cons, List.append_assoc, scanString_unicodeEscape (h u List.mem_cons_self),
      ih fun v hv => h v (List.mem_cons_of_mem u hv), codeUnit_self]
    cases scanString .plain cs <;> rfl

/-- A character that is written as it is. -/
theorem scanString_char {p : CodePoint} (hlow : 32 ≤ p.val) (hhigh : p.val ≤ 126) (hquote : p.val ≠ 34)
    (hbackslash : p.val ≠ 92) (cs : List Char) : scanString .plain (Char.ofNat p.val :: cs) =
      (scanString .plain cs).map fun (s, rest) => (p :: s, rest) := by
  have hvalid : p.val.isValidChar := .inl (by omega)
  have hchar : Char.ofNat p.val = Char.ofNatAux p.val hvalid := dif_pos hvalid
  have hval : (Char.ofNat p.val).toNat = p.val := congrArg Char.toNat hchar
  have hself : ofChar (Char.ofNat p.val) = p := Fin.ext hval
  have hne : ∀ c : Char, p.val ≠ c.toNat → Char.ofNat p.val ≠ c := fun c h heq => h (heq ▸ hval.symm)
  rw [scanString, if_neg (hne '"' hquote), if_neg (hne '\\' hbackslash), if_neg (by omega), hself]

theorem scanString_escapeAscii (p : CodePoint) (cs : List Char) : scanString .plain (escapeAscii p ++ cs) =
    (scanString .plain cs).map fun (s, rest) => (units p ++ s, rest) := by
  have hescape : ∀ c d : Char, p.val = d.toNat → d.toNat < 128 → unescape c = some d → c ≠ 'u' →
      scanString .plain ('\\' :: c :: cs) = (scanString .plain cs).map fun (s, rest) => (units p ++ s, rest) := by
    intro c d hp hd hc hu
    have hunits : units p = [p] := by
      rw [units, if_pos (by omega)]
    have hself : ofChar d = p := Fin.ext hp.symm
    rw [scanString, if_neg (by decide), if_pos rfl, scanString, if_neg hu, hc, hunits, ← hself]
    rfl
  unfold escapeAscii
  split
  · exact hescape '"' '"' ‹_› (by decide) rfl (by decide)
  · exact hescape '\\' '\\' ‹_› (by decide) rfl (by decide)
  · exact hescape 'b' '\x08' ‹_› (by decide) rfl (by decide)
  · exact hescape 'f' '\x0c' ‹_› (by decide) rfl (by decide)
  · exact hescape 'n' '\n' ‹_› (by decide) rfl (by decide)
  · exact hescape 'r' '\r' ‹_› (by decide) rfl (by decide)
  · exact hescape 't' '\t' ‹_› (by decide) rfl (by decide)
  · rename_i hquote hbackslash _ _ _ _ _
    split
    · rename_i hrange
      have hunits : units p = [p] := by
        rw [units, if_pos (by omega)]
      rw [hunits]
      exact scanString_char hrange.1 hrange.2 hquote hbackslash cs
    · exact scanString_units (units p) cs fun u hu => units_lt hu

theorem scanString_write (s : Text) (rest : List Char) :
    scanString .plain (s.flatMap escapeAscii ++ '"' :: rest) = .ok (s.flatMap units, rest) := by
  induction s with
  | nil => rw [List.flatMap_nil, List.nil_append, scanString, if_pos rfl, List.flatMap_nil]
  | cons p s ih =>
    rw [List.flatMap_cons, List.append_assoc, scanString_escapeAscii, ih]
    rfl

/-- No first half of a surrogate pair is right before a second half. -/
def Joined (s : Text) : Prop := s.IsChain fun p q => ¬ (isHigh p = true ∧ isLow q = true)

instance (s : Text) : Decidable (Joined s) := inferInstanceAs (Decidable (List.IsChain _ s))

theorem ofString_injective : Function.Injective ofString := by
  have hchar : Function.Injective ofChar := by
    intro c d h
    have hval : c.toNat = d.toNat := congrArg (fun p : CodePoint => p.val) h
    exact Char.toNat_inj.mp hval
  exact fun s t h => String.toList_injective (hchar.list_map h)

theorem joined_of_forall : ∀ {s : Text}, (∀ p ∈ s, isHigh p = false) → Joined s
  | [], _ => .nil
  | p :: s, h => by
    refine List.isChain_cons.mpr ⟨fun q _ hpq => ?_, joined_of_forall fun q hq => h q (List.mem_cons_of_mem p hq)⟩
    rw [h p List.mem_cons_self] at hpq
    cases hpq.1

/-- Characters are no halves of pairs. -/
theorem joined_ofString (s : String) : Joined (ofString s) := by
  refine joined_of_forall fun p hp => ?_
  obtain ⟨c, -, rfl⟩ := List.mem_map.mp hp
  exact isHigh_ofChar c

theorem joined_of_encode : ∀ {s : Text}, (encode s).isSome = true → Joined s := by
  have hall : ∀ {s : Text} {bytes : List UInt8}, encode s = some bytes → ∀ p ∈ s, isHigh p = false := by
    intro s
    induction s with
    | nil => exact nofun
    | cons q s ih =>
      intro bytes h p hp
      obtain ⟨c, hc, h⟩ := Option.bind_eq_some_iff.mp h
      obtain ⟨rest, hrest, -⟩ := Option.map_eq_some_iff.mp h
      rcases List.mem_cons.mp hp with rfl | hp
      · rw [isHigh, decide_eq_false_iff_not]
        rcases valid_of_toChar hc with hlow | hhigh <;> omega
      · exact ih hrest p hp
  intro s h
  obtain ⟨bytes, hbytes⟩ := Option.isSome_iff_exists.mp h
  exact joined_of_forall (hall hbytes)

/-- The first unit of a code point is no second half of a pair, unless it is
the code point itself. -/
theorem head_units (q : CodePoint) : ∃ u us, units q = u :: us ∧ (u = q ∨ isLow u = false) := by
  have hq := q.isLt
  unfold units
  split
  · exact ⟨q, [], rfl, .inl rfl⟩
  · refine ⟨_, _, rfl, .inr ?_⟩
    rw [isLow, decide_eq_false_iff_not, codeUnit_val (by omega)]
    omega

theorem joinSurrogates_units {s : Text} (h : Joined s) : joinSurrogates (s.flatMap units) = s := by
  induction s with
  | nil => rfl
  | cons p s ih =>
    have hp := p.isLt
    have hjoined : Joined s := h.tail
    rw [List.flatMap_cons]
    by_cases hsmall : p.val < 0x10000
    · have hunits : units p = [p] := by
        rw [units, if_pos hsmall]
      rw [hunits, List.singleton_append]
      cases s with
      | nil => rfl
      | cons q s =>
        have hpq : ¬ (isHigh p = true ∧ isLow q = true) := (List.isChain_cons_cons.mp h).1
        obtain ⟨u, us, hu, hlow⟩ := head_units q
        have hnot : ¬ (isHigh p = true ∧ isLow u = true) := by
          rcases hlow with rfl | hlow
          · exact hpq
          · simp [hlow]
        have ih := ih hjoined
        rw [List.flatMap_cons, hu, List.cons_append] at ih ⊢
        rw [joinSurrogates, if_neg hnot, ih]
    · have hunits : units p = [codeUnit (0xd800 + (p.val - 0x10000) / 0x400),
          codeUnit (0xdc00 + (p.val - 0x10000) % 0x400)] := by
        rw [units, if_neg hsmall]
      have hhigh : (codeUnit (0xd800 + (p.val - 0x10000) / 0x400)).val = 0xd800 + (p.val - 0x10000) / 0x400 :=
        codeUnit_val (by omega)
      have hlow : (codeUnit (0xdc00 + (p.val - 0x10000) % 0x400)).val = 0xdc00 + (p.val - 0x10000) % 0x400 :=
        codeUnit_val (by omega)
      have hpair : isHigh (codeUnit (0xd800 + (p.val - 0x10000) / 0x400)) = true ∧
          isLow (codeUnit (0xdc00 + (p.val - 0x10000) % 0x400)) = true := by
        constructor
        · rw [isHigh, decide_eq_true_iff, hhigh]
          omega
        · rw [isLow, decide_eq_true_iff, hlow]
          omega
      have hvalue : 0x10000 + (0xd800 + (p.val - 0x10000) / 0x400 - 0xd800) * 0x400 +
          (0xdc00 + (p.val - 0x10000) % 0x400 - 0xdc00) = p.val := by omega
      rw [hunits, List.cons_append, List.cons_append, List.nil_append, joinSurrogates, if_pos hpair, hhigh, hlow,
        hvalue, codeUnit_self, ih hjoined]

/-- A pair of halves is joined to a character that is no half. -/
theorem joined_pair {p q : CodePoint} (h : isHigh p = true ∧ isLow q = true) :
    isHigh (codeUnit (0x10000 + (p.val - 0xd800) * 0x400 + (q.val - 0xdc00))) = false ∧
      isLow (codeUnit (0x10000 + (p.val - 0xd800) * 0x400 + (q.val - 0xdc00))) = false := by
  obtain ⟨hp, hq⟩ := h
  rw [isHigh, decide_eq_true_iff] at hp
  rw [isLow, decide_eq_true_iff] at hq
  have hval := codeUnit_val (n := 0x10000 + (p.val - 0xd800) * 0x400 + (q.val - 0xdc00)) (by omega)
  rw [isHigh, isLow, decide_eq_false_iff_not, decide_eq_false_iff_not, hval]
  omega

theorem head_joinSurrogates (q : CodePoint) (ps : Text) :
    ∃ u us, joinSurrogates (q :: ps) = u :: us ∧ (u = q ∨ isLow u = false) := by
  cases ps with
  | nil => exact ⟨q, [], rfl, .inl rfl⟩
  | cons r ps =>
    rw [joinSurrogates]
    split
    · rename_i hpair
      exact ⟨_, _, rfl, .inr (joined_pair hpair).2⟩
    · exact ⟨q, _, rfl, .inl rfl⟩

/-- What the scanner makes of a string has no pair that could be joined. -/
theorem joined_joinSurrogates : ∀ s : Text, Joined (joinSurrogates s)
  | [] => .nil
  | [p] => .singleton p
  | p :: q :: ps => by
    rw [joinSurrogates]
    split
    · rename_i hpair
      refine List.isChain_cons.mpr ⟨fun r _ h => ?_, joined_joinSurrogates ps⟩
      rw [(joined_pair hpair).1] at h
      cases h.1
    · rename_i hpair
      have hrest := joined_joinSurrogates (q :: ps)
      obtain ⟨u, us, hu, hlow⟩ := head_joinSurrogates q ps
      rw [hu] at hrest ⊢
      refine List.isChain_cons_cons.mpr ⟨?_, hrest⟩
      rcases hlow with rfl | hlow
      · exact hpair
      · simp [hlow]

/-! ### Numbers and words -/

/-- What may follow a value. -/
def Follows (rest : List Char) : Prop := ∀ c ∈ rest.head?, c = ',' ∨ c = ']' ∨ c = '\x7d'

theorem follows_nil : Follows [] := nofun

theorem follows_cons {c : Char} (h : c = ',' ∨ c = ']' ∨ c = '\x7d') (rest : List Char) : Follows (c :: rest) := by
  intro d hd
  rwa [← Option.some.inj hd]

variable {rest : List Char}

/-- Where the digits end does not depend on what follows. -/
theorem digits_append (h : Follows rest) (cs : List Char) : (cs ++ rest).takeWhile isDigit = cs.takeWhile isDigit ∧
    (cs ++ rest).dropWhile isDigit = cs.dropWhile isDigit ++ rest := by
  induction cs with
  | nil =>
    cases rest with
    | nil => exact ⟨rfl, rfl⟩
    | cons c rest => rcases h c rfl with rfl | rfl | rfl <;> exact ⟨rfl, rfl⟩
  | cons c cs ih =>
    rw [List.cons_append, List.takeWhile_cons, List.dropWhile_cons, List.takeWhile_cons, List.dropWhile_cons]
    split
    · rw [ih.1, ih.2]
      exact ⟨rfl, rfl⟩
    · exact ⟨rfl, rfl⟩

theorem integerPart_append (h : Follows rest) {cs digits cs' : List Char} (hcs : integerPart cs = some (digits, cs')) :
    integerPart (cs ++ rest) = some (digits, cs' ++ rest) := by
  obtain ⟨htake, hdrop⟩ := digits_append h cs
  unfold integerPart at hcs ⊢
  split at hcs
  · obtain ⟨rfl, rfl⟩ := Prod.mk.inj (Option.some.inj hcs)
    rfl
  · rename_i hzero
    split at hcs
    · cases hcs
    · rename_i hne
      obtain ⟨rfl, rfl⟩ := Prod.mk.inj (Option.some.inj hcs)
      split
      · rename_i heq
        cases cs with
        | nil => exact absurd rfl hne
        | cons c cs => exact absurd (by rw [(List.cons.inj heq).1]) (hzero cs)
      · rw [htake, hdrop, if_neg hne]

theorem fraction_cons {c : Char} (hc : c ≠ '.') (cs : List Char) : fraction (c :: cs) = ([], c :: cs) := by
  unfold fraction
  split
  · rename_i heq
    exact absurd (List.cons.inj heq).1 hc
  · rfl

theorem fraction_append (h : Follows rest) (cs : List Char) :
    fraction (cs ++ rest) = ((fraction cs).1, (fraction cs).2 ++ rest) := by
  cases cs with
  | nil =>
    cases rest with
    | nil => rfl
    | cons c rest => rcases h c rfl with rfl | rfl | rfl <;> rfl
  | cons c cs =>
    obtain ⟨htake, hdrop⟩ := digits_append h cs
    by_cases hc : c = '.'
    · subst hc
      simp only [List.cons_append, fraction, htake, hdrop]
      split <;> rfl
    · rw [List.cons_append, fraction_cons hc, fraction_cons hc]
      rfl

/-- The sign of an exponent. -/
def exponentSign (cs : List Char) : List Char × List Char :=
  match cs with
  | '+' :: ds => (['+'], ds)
  | '-' :: ds => (['-'], ds)
  | ds => ([], ds)

theorem exponent_cons (e : Char) (cs : List Char) : exponent (e :: cs) =
    if (e = 'e' ∨ e = 'E') ∧ ((exponentSign cs).2.takeWhile isDigit).isEmpty = false then
      (e :: (exponentSign cs).1 ++ (exponentSign cs).2.takeWhile isDigit, (exponentSign cs).2.dropWhile isDigit)
    else ([], e :: cs) := rfl

theorem exponentSign_append (h : Follows rest) (cs : List Char) :
    exponentSign (cs ++ rest) = ((exponentSign cs).1, (exponentSign cs).2 ++ rest) := by
  cases cs with
  | nil =>
    cases rest with
    | nil => rfl
    | cons c rest => rcases h c rfl with rfl | rfl | rfl <;> rfl
  | cons c cs =>
    unfold exponentSign
    rw [List.cons_append]
    split
    · rename_i heq
      obtain ⟨rfl, rfl⟩ := List.cons.inj heq
      rfl
    · rename_i heq
      obtain ⟨rfl, rfl⟩ := List.cons.inj heq
      rfl
    · rename_i hplus hminus
      split
      · rename_i heq
        exact absurd (congrArg (· ++ rest) heq) (hplus _)
      · rename_i heq
        exact absurd (congrArg (· ++ rest) heq) (hminus _)
      · rfl

theorem exponent_append (h : Follows rest) (cs : List Char) :
    exponent (cs ++ rest) = ((exponent cs).1, (exponent cs).2 ++ rest) := by
  cases cs with
  | nil =>
    cases rest with
    | nil => rfl
    | cons c rest =>
      rw [List.nil_append, exponent_cons, if_neg]
      · rfl
      · rcases h c rfl with rfl | rfl | rfl <;> simp
  | cons e cs =>
    obtain ⟨htake, hdrop⟩ := digits_append h (exponentSign cs).2
    rw [List.cons_append, exponent_cons, exponent_cons, exponentSign_append h, htake, hdrop]
    split <;> rfl

/-- The sign of a number. -/
def numberSign (cs : List Char) : List Char × List Char :=
  match cs with
  | '-' :: cs => (['-'], cs)
  | cs => ([], cs)

theorem scanNumber_eq (cs : List Char) : (scanNumber cs : Except LoadError (Value φ × _)) =
    match integerPart (numberSign cs).2 with
    | none => .error .jsonDecodeError
    | some (digits, cs') =>
      if (fraction cs').1.isEmpty && (exponent (fraction cs').2).1.isEmpty then
        if intMaxStrDigits < digits.length then .error .valueError
        else .ok (.int (if (numberSign cs).1.isEmpty then natOf digits else -natOf digits),
          (exponent (fraction cs').2).2)
      else .ok (.float (Interpreter.ofLiteral ((numberSign cs).1 ++ digits ++ (fraction cs').1 ++
        (exponent (fraction cs').2).1)), (exponent (fraction cs').2).2) := rfl

theorem numberSign_append {cs : List Char} (hcs : cs ≠ []) (rest : List Char) :
    numberSign (cs ++ rest) = ((numberSign cs).1, (numberSign cs).2 ++ rest) := by
  obtain ⟨c, cs, rfl⟩ := List.exists_cons_of_ne_nil hcs
  rw [List.cons_append]
  unfold numberSign
  split
  · rename_i heq
    obtain ⟨rfl, rfl⟩ := List.cons.inj heq
    rfl
  · rename_i hminus
    split
    · rename_i heq
      exact absurd (congrArg (· ++ rest) heq) (hminus _)
    · rfl

theorem scanNumber_append (h : Follows rest) {cs cs' : List Char} {x : Value φ}
    (hcs : scanNumber cs = .ok (x, cs')) : scanNumber (cs ++ rest) = .ok (x, cs' ++ rest) := by
  have hne : cs ≠ [] := by
    rintro rfl
    cases hcs
  rw [scanNumber_eq] at hcs ⊢
  rw [numberSign_append hne]
  cases hint : integerPart (numberSign cs).2 with
  | none =>
    rw [hint] at hcs
    cases hcs
  | some found =>
    obtain ⟨digits, cs₁⟩ := found
    rw [hint] at hcs
    rw [integerPart_append h hint]
    simp only [fraction_append h, exponent_append h] at hcs ⊢
    split at hcs
    · rename_i hempty
      rw [if_pos hempty]
      split at hcs
      · cases hcs
      · rename_i hdigits
        rw [if_neg hdigits]
        obtain ⟨rfl, rfl⟩ := Prod.mk.inj (Except.ok.inj hcs)
        rfl
    · rename_i hempty
      rw [if_neg hempty]
      obtain ⟨rfl, rfl⟩ := Prod.mk.inj (Except.ok.inj hcs)
      rfl

/-- A word is at the front of the text or is not, whatever follows. -/
theorem isPrefixOf_append (h : Follows rest) : ∀ {word : List Char}, (∀ c ∈ word, ¬ (c = ',' ∨ c = ']' ∨ c = '\x7d')) →
    ∀ cs : List Char, word.isPrefixOf (cs ++ rest) = word.isPrefixOf cs
  | [], _, cs => by rw [List.isPrefixOf, List.isPrefixOf]
  | d :: word, hword, [] => by
    cases rest with
    | nil => rfl
    | cons c rest =>
      have hne : d ≠ c := fun heq => hword d List.mem_cons_self (heq ▸ h c rfl)
      simp [List.isPrefixOf, hne]
  | d :: word, hword, c :: cs => by
    rw [List.cons_append, List.isPrefixOf, List.isPrefixOf,
      isPrefixOf_append h (fun b hb => hword b (List.mem_cons_of_mem d hb)) cs]

/-- The words have no character that may follow a value. -/
theorem word_of_constants {e : List Char × Value φ} (he : e ∈ constants) :
    ∀ c ∈ e.1, ¬ (c = ',' ∨ c = ']' ∨ c = '\x7d') := by
  have hwords : (constants : List (List Char × Value φ)).map Prod.fst =
      ["null", "true", "false", "NaN", "Infinity", "-Infinity"].map String.toList := rfl
  have hall : (["null", "true", "false", "NaN", "Infinity", "-Infinity"].map String.toList).all (fun word =>
      word.all fun c => ! (c == ',' || c == ']' || c == '\x7d')) = true := rfl
  have hword := List.all_eq_true.mp hall e.1 (hwords ▸ List.mem_map_of_mem he)
  intro c hc
  have hnot := List.all_eq_true.mp hword c hc
  simpa only [Bool.not_eq_true', Bool.or_eq_false_iff, beq_eq_false_iff_ne, not_or, and_assoc] using hnot

/-- A word or a number is read in the same way, whatever follows. -/
theorem scanScalar_append (h : Follows rest) {cs cs' : List Char} {x : Value φ}
    (hcs : scanScalar cs = .ok (x, cs')) : scanScalar (cs ++ rest) = .ok (x, cs' ++ rest) := by
  have hfind : (constants.find? fun (e : List Char × Value φ) => e.1.isPrefixOf (cs ++ rest)) =
      constants.find? fun e => e.1.isPrefixOf cs :=
    List.find?_congr fun e he => isPrefixOf_append h (word_of_constants he) cs
  unfold scanScalar at hcs ⊢
  rw [hfind]
  split at hcs
  · rename_i word value hword
    have hprefix : word.isPrefixOf cs = true := by simpa using List.find?_some hword
    have hlen : word.length ≤ cs.length := (List.isPrefixOf_iff_prefix.mp hprefix).length_le
    obtain ⟨rfl, rfl⟩ := Prod.mk.inj (Except.ok.inj hcs)
    rw [hword]
    simp only [List.drop_append_of_le_length hlen]
  · rename_i hnone
    rw [hnone]
    exact scanNumber_append h hcs

/-! ### Integers -/

theorem isDigit_of_mem_toDigits {c : Char} {n : ℕ} (h : c ∈ Nat.toDigits 10 n) : isDigit c = true := by
  have hc : c.isDigit = true := Nat.isDigit_of_mem_toDigits (by decide) (by decide) h
  exact decide_eq_true (Char.isDigit_iff_toNat.mp hc)

theorem natOf_toDigits (n : ℕ) : natOf (Nat.toDigits 10 n) = n := by
  have hfold : ∀ cs : List Char, natOf cs = Nat.ofDigitChars 10 cs 0 := by
    intro cs
    rw [natOf, Nat.ofDigitChars_eq_foldl]
    congr 1
    funext k c
    rw [Nat.mul_comm]
    rfl
  rw [hfold, Nat.ofDigitChars_ten_toDigits]

/-- Only zero begins with a zero. -/
theorem toDigits_head {n : ℕ} {cs : List Char} (h : Nat.toDigits 10 n = '0' :: cs) : cs = [] := by
  induction n using Nat.strong_induction_on generalizing cs with
  | _ n ih =>
    rcases Nat.lt_or_ge n 10 with hlt | hge
    · rw [Nat.toDigits_of_lt_base hlt] at h
      exact (List.cons.inj h).2.symm
    · rw [Nat.toDigits_of_base_le (by decide) hge] at h
      obtain ⟨c, ds, hds⟩ := List.exists_cons_of_ne_nil (Nat.toDigits_ne_nil : Nat.toDigits 10 (n / 10) ≠ [])
      rw [hds, List.cons_append] at h
      obtain ⟨rfl, -⟩ := List.cons.inj h
      have hnil := ih (n / 10) (by omega) hds
      have hzero : n / 10 = 0 := by
        have hvalue := natOf_toDigits (n / 10)
        rw [hds, hnil] at hvalue
        exact hvalue.symm
      omega

theorem integerPart_toDigits (n : ℕ) : integerPart (Nat.toDigits 10 n) = some (Nat.toDigits 10 n, []) := by
  have htake : (Nat.toDigits 10 n).takeWhile isDigit = Nat.toDigits 10 n :=
    List.takeWhile_eq_self_iff.mpr fun c hc => isDigit_of_mem_toDigits hc
  have hdrop : (Nat.toDigits 10 n).dropWhile isDigit = [] :=
    List.dropWhile_eq_nil_iff.mpr fun c hc => isDigit_of_mem_toDigits hc
  unfold integerPart
  split
  · rename_i cs hcs
    rw [hcs, toDigits_head hcs]
  · rw [htake, hdrop, if_neg (by simp)]

/-- No word begins as an integer does. -/
theorem not_isPrefixOf {e : List Char × Value φ} (he : e ∈ constants) {c : Char} (hc : isDigit c = true)
    (cs : List Char) : e.1.isPrefixOf (c :: cs) = false ∧ e.1.isPrefixOf ('-' :: c :: cs) = false := by
  have hwords : (constants : List (List Char × Value φ)).map Prod.fst =
      ["null", "true", "false", "NaN", "Infinity", "-Infinity"].map String.toList := rfl
  have hmem := hwords ▸ List.mem_map_of_mem he
  have hne : ∀ d ∈ ['n', 't', 'f', 'N', 'I', '-'], d ≠ c := by
    intro d hd heq
    have hdigit : ['n', 't', 'f', 'N', 'I', '-'].all (fun d => ! isDigit d) = true := rfl
    rw [← heq] at hc
    exact absurd (List.all_eq_true.mp hdigit d hd) (by simp [hc])
  simp only [List.map_cons, List.map_nil, List.mem_cons, List.not_mem_nil, or_false] at hmem
  simp only [List.forall_mem_cons] at hne
  rcases hmem with h | h | h | h | h | h <;> rw [h] <;> constructor <;> simp [List.isPrefixOf, hne]

theorem scanScalar_writeInt {n : ℤ} (h : (Nat.toDigits 10 n.natAbs).length ≤ intMaxStrDigits) :
    (scanScalar (writeInt n) : Except LoadError (Value φ × _)) = .ok (.int n, []) := by
  have hdigits : ∀ n : ℕ, ∃ c cs, Nat.toDigits 10 n = c :: cs ∧ isDigit c = true ∧
      numberSign (Nat.toDigits 10 n) = ([], Nat.toDigits 10 n) := by
    intro n
    obtain ⟨c, cs, hcs⟩ := List.exists_cons_of_ne_nil (Nat.toDigits_ne_nil : Nat.toDigits 10 n ≠ [])
    have hc : isDigit c = true := isDigit_of_mem_toDigits (hcs ▸ List.mem_cons_self)
    refine ⟨c, cs, hcs, hc, ?_⟩
    unfold numberSign
    split
    · rename_i heq
      rw [hcs] at heq
      rw [(List.cons.inj heq).1] at hc
      cases hc
    · rfl
  have hnone : (constants.find? fun (e : List Char × Value φ) => e.1.isPrefixOf (writeInt n)) = none := by
    rw [List.find?_eq_none]
    intro e he
    cases n with
    | ofNat n =>
      obtain ⟨c, cs, hcs, hc, -⟩ := hdigits n
      rw [writeInt, hcs, (not_isPrefixOf he hc cs).1]
      exact Bool.false_ne_true
    | negSucc n =>
      obtain ⟨c, cs, hcs, hc, -⟩ := hdigits (n + 1)
      rw [writeInt, hcs, (not_isPrefixOf he hc cs).2]
      exact Bool.false_ne_true
  unfold scanScalar
  rw [hnone]
  show scanNumber (writeInt n) = _
  rw [scanNumber_eq]
  cases n with
  | ofNat n =>
    obtain ⟨-, -, -, -, hsign⟩ := hdigits n
    have hlen : ¬ intMaxStrDigits < (Nat.toDigits 10 n).length := Nat.not_lt.mpr h
    rw [writeInt, hsign, integerPart_toDigits]
    simp only [fraction, exponent, List.isEmpty_nil, Bool.and_self, if_true]
    rw [if_neg hlen, natOf_toDigits]
    rfl
  | negSucc n =>
    have hlen : ¬ intMaxStrDigits < (Nat.toDigits 10 (n + 1)).length := Nat.not_lt.mpr h
    have hsign : numberSign (writeInt (.negSucc n)) = (['-'], Nat.toDigits 10 (n + 1)) := rfl
    rw [hsign, integerPart_toDigits]
    simp only [fraction, exponent, List.isEmpty_nil, Bool.and_self, if_true]
    rw [if_neg hlen, natOf_toDigits]
    rfl

/-! ### Values -/

/-- The text of a float is read as the float. -/
class LawfulInterpreter (φ : Type) [Interpreter φ] : Prop where
  scan_repr : ∀ x : φ, scanScalar (chars (Interpreter.repr x)) = .ok (.float x, [])

/-- A word or a number begins with none of these. -/
theorem scalar_begins {cs : List Char} {r : Value φ × List Char} (h : scanScalar cs = .ok r) :
    ∃ c cs', cs = c :: cs' ∧ c ≠ '"' ∧ c ≠ '\x7b' ∧ c ≠ '[' ∧ c ≠ ']' ∧ isWhitespace c = false := by
  cases cs with
  | nil => cases h
  | cons c cs =>
    refine ⟨c, cs, rfl, ?_, ?_, ?_, ?_, ?_⟩
    · rintro rfl
      cases h
    · rintro rfl
      cases h
    · rintro rfl
      cases h
    · rintro rfl
      cases h
    · rw [isWhitespace, decide_eq_false_iff_not]
      rintro (rfl | rfl | rfl | rfl) <;> cases h

/-- The scanner reads the value from the text, if it may end there. -/
def ReadsBefore (fuel depth : ℕ) (text : List Char) (value : Value φ) : Prop :=
  ∀ rest, Follows rest → scanValue fuel depth (text ++ rest) = .ok (value, rest)

theorem readsBefore_scalar {text : List Char} {x : Value φ} (h : scanScalar text = .ok (x, [])) (fuel depth : ℕ) :
    ReadsBefore (fuel + 1) depth text x := by
  intro rest hrest
  have hscan := scanScalar_append hrest h
  obtain ⟨c, cs, rfl, hquote, hbrace, hbracket, -, -⟩ := scalar_begins h
  rw [List.cons_append] at hscan ⊢
  simp only [scanValue]
  rw [if_neg hquote, if_neg hbrace, if_neg hbracket, hscan, List.nil_append]

theorem begins_scalar {text : List Char} {r : Value φ × List Char} (h : scanScalar text = .ok r) : Begins text := by
  obtain ⟨c, cs, rfl, -, -, -, hclose, hspace⟩ := scalar_begins h
  exact ⟨c, cs, rfl, hspace, hclose⟩

theorem readsBefore_string {s : Text} (h : Joined s) (fuel depth : ℕ) :
    ReadsBefore (fuel + 1) depth (writeString s) (.string s : Value φ) := by
  intro rest _
  have hscan := scanString_write s rest
  rw [writeString, List.cons_append, List.append_assoc, List.singleton_append, scanValue_string, hscan]
  show Except.ok (Value.string (joinSurrogates (s.flatMap units)), rest) = _
  rw [joinSurrogates_units h]

theorem scanKey_write {text : List Char} {k : Text} (hk : Joined k) (htext : Begins text) (rest : List Char) :
    scanKey (writeString k ++ ':' :: ' ' :: (text ++ rest)) = .ok (k, text ++ rest) := by
  have hscan := scanString_write k (':' :: ' ' :: (text ++ rest))
  have hcolon : skipWhitespace (':' :: ' ' :: (text ++ rest)) = ':' :: ' ' :: (text ++ rest) := rfl
  have hspace : skipWhitespace (' ' :: (text ++ rest)) = text ++ rest := htext.skip rest
  rw [writeString, List.cons_append, List.append_assoc, List.singleton_append]
  simp only [scanKey, hscan, hcolon, hspace, joinSurrogates_units hk]

omit [Interpreter φ] in
theorem setKey_of_notMem {key : Text} {x : Value φ} : ∀ {entries : List (Text × Value φ)},
    key ∉ entries.map Prod.fst → setKey key x entries = entries ++ [(key, x)]
  | [], _ => rfl
  | (k, y) :: entries, h => by
    have hne : k ≠ key := fun heq => h (heq ▸ List.mem_cons_self)
    have hrest : key ∉ entries.map Prod.fst := fun hmem => h (List.mem_cons_of_mem k hmem)
    rw [setKey, if_neg hne, setKey_of_notMem hrest]
    rfl

variable [LawfulInterpreter φ]

theorem begins_write {depth : ℕ} {x : Value φ} (h : writable depth x = true) : Begins (write x) := by
  cases x with
  | null => exact ⟨'n', _, rfl, rfl, by decide⟩
  | bool b => cases b with
    | true => exact ⟨'t', _, rfl, rfl, by decide⟩
    | false => exact ⟨'f', _, rfl, rfl, by decide⟩
  | int n =>
    rw [writable, decide_eq_true_iff] at h
    have hscan : scanScalar (writeInt n) = .ok ((.int n : Value φ), []) := scanScalar_writeInt h
    rw [write]
    exact begins_scalar hscan
  | float x =>
    rw [write]
    exact begins_scalar (LawfulInterpreter.scan_repr x)
  | string s =>
    rw [write]
    exact ⟨'"', _, rfl, rfl, by decide⟩
  | list xs =>
    rw [write]
    exact ⟨'[', _, rfl, rfl, by decide⟩
  | dict entries =>
    rw [write]
    exact ⟨'\x7b', _, rfl, rfl, by decide⟩

omit [LawfulInterpreter φ] in
theorem length_pos_of_begins {text : List Char} (h : Begins text) : 0 < text.length := by
  obtain ⟨c, cs, rfl, -, -⟩ := h
  exact Nat.succ_pos _

omit [LawfulInterpreter φ] in
theorem writeItems_cons (x y : Value φ) (xs : List (Value φ)) :
    writeItems (x :: y :: xs) = write x ++ ',' :: ' ' :: writeItems (y :: xs) := by
  rw [writeItems]
  exact nofun

omit [LawfulInterpreter φ] in
theorem writeEntries_cons (k : Text) (x : Value φ) (e : Text × Value φ) (entries : List (Text × Value φ)) :
    writeEntries ((k, x) :: e :: entries) =
      writeString k ++ ':' :: ' ' :: (write x ++ ',' :: ' ' :: writeEntries (e :: entries)) := by
  rw [writeEntries]
  exact nofun

omit [Interpreter φ] [LawfulInterpreter φ] in
/-- A key that comes later in a dict is not among the first ones. -/
theorem notMem_of_nodup_append {k : Text} {x : Value φ} {acc entries : List (Text × Value φ)}
    (h : ((acc ++ (k, x) :: entries).map Prod.fst).Nodup) : k ∉ acc.map Prod.fst := by
  rw [List.map_append] at h
  obtain ⟨-, -, hdisjoint⟩ := List.nodup_append.mp h
  exact fun hk => hdisjoint k hk k List.mem_cons_self rfl

theorem begins_writeItems {depth : ℕ} {x : Value φ} (h : writable depth x = true) (xs : List (Value φ)) :
    Begins (writeItems (x :: xs)) := by
  cases xs with
  | nil => exact begins_write h
  | cons y ys =>
    obtain ⟨c, cs, hcs, hspace, hclose⟩ := begins_write h
    rw [writeItems_cons, hcs]
    exact ⟨c, _, rfl, hspace, hclose⟩

omit [LawfulInterpreter φ] in
theorem begins_writeEntries (e : Text × Value φ) (entries : List (Text × Value φ)) :
    ∃ cs, writeEntries (e :: entries) = '"' :: cs := by
  obtain ⟨k, x⟩ := e
  cases entries with
  | nil =>
    rw [writeEntries, writeString, List.cons_append]
    exact ⟨_, rfl⟩
  | cons e entries =>
    rw [writeEntries_cons, writeString, List.cons_append]
    exact ⟨_, rfl⟩

mutual

/-- The scanner reads what is written, with two steps for a character. -/
theorem readsBefore_write : ∀ (x : Value φ) {fuel depth : ℕ}, x.Proper Joined → writable depth x = true →
    2 * (write x).length ≤ fuel → ReadsBefore fuel depth (write x) x
  | x, 0, depth, _, hwritable, hfuel => by
    have hpos := length_pos_of_begins (begins_write hwritable)
    omega
  | .null, fuel + 1, depth, _, _, _ => readsBefore_scalar rfl fuel depth
  | .bool true, fuel + 1, depth, _, _, _ => readsBefore_scalar rfl fuel depth
  | .bool false, fuel + 1, depth, _, _, _ => readsBefore_scalar rfl fuel depth
  | .int n, fuel + 1, depth, _, hwritable, _ => by
    rw [writable, decide_eq_true_iff] at hwritable
    rw [write]
    exact readsBefore_scalar (scanScalar_writeInt hwritable) fuel depth
  | .float x, fuel + 1, depth, _, _, _ => by
    rw [write]
    exact readsBefore_scalar (LawfulInterpreter.scan_repr x) fuel depth
  | .string s, fuel + 1, depth, hproper, _, _ => by
    rw [Value.Proper] at hproper
    rw [write]
    exact readsBefore_string hproper fuel depth
  | .list [], fuel + 1, depth, _, hwritable, _ => by
    cases depth with
    | zero => cases hwritable
    | succ depth =>
      intro rest _
      simp [write, writeItems, scanValue, skipWhitespace, isWhitespace]
  | .list (x :: xs), fuel + 1, depth, hproper, hwritable, hfuel => by
    cases depth with
    | zero => cases hwritable
    | succ depth =>
      rw [Value.Proper] at hproper
      rw [writable] at hwritable
      rw [write, List.length_cons, List.length_append, List.length_singleton] at hfuel
      have hx : writable depth x = true := by
        rw [writableItems, Bool.and_eq_true] at hwritable
        exact hwritable.1
      intro rest hrest
      have hskip := (begins_writeItems hx xs).skip (']' :: rest)
      obtain ⟨c, cs, hcs, -, hclose⟩ := begins_writeItems hx xs
      have hlen : 2 * (writeItems (x :: xs)).length + 1 ≤ fuel := by omega
      have hitems := readsItems_write x xs hproper hwritable hlen [] rest
      rw [hcs, List.cons_append] at hskip hitems
      rw [write, hcs, List.cons_append, List.append_assoc, List.singleton_append, List.cons_append,
        (scanValue_container hskip).2 hclose, hitems]
      rfl
  | .dict [], fuel + 1, depth, _, hwritable, _ => by
    cases depth with
    | zero => cases hwritable
    | succ depth =>
      intro rest _
      simp [write, writeEntries, scanValue, skipWhitespace, isWhitespace]
  | .dict ((k, x) :: entries), fuel + 1, depth, hproper, hwritable, hfuel => by
    cases depth with
    | zero => cases hwritable
    | succ depth =>
      rw [Value.Proper] at hproper
      rw [writable] at hwritable
      rw [write, List.length_cons, List.length_append, List.length_singleton] at hfuel
      intro rest hrest
      obtain ⟨cs, hcs⟩ := begins_writeEntries (k, x) entries
      have hlen : 2 * (writeEntries ((k, x) :: entries)).length + 1 ≤ fuel := by omega
      have hentries := readsEntries_write k x entries hproper.2 hwritable hlen [] hproper.1 rest
      rw [hcs, List.cons_append] at hentries
      rw [write, hcs, List.cons_append, List.append_assoc, List.singleton_append, List.cons_append,
        (scanValue_container rfl).1 (by decide), hentries]
      rfl

theorem readsItems_write : ∀ (x : Value φ) (xs : List (Value φ)) {fuel depth : ℕ},
    Value.ProperItems Joined (x :: xs) → writableItems depth (x :: xs) = true →
    2 * (writeItems (x :: xs)).length + 1 ≤ fuel → ∀ (items : List (Value φ)) (rest : List Char),
      scanItems fuel depth items (writeItems (x :: xs) ++ ']' :: rest) = .ok (.list (items ++ x :: xs), rest)
  | x, xs, 0, depth, hproper, hwritable, hfuel, items, rest => by omega
  | x, [], fuel + 1, depth, hproper, hwritable, hfuel, items, rest => by
    have hx : writable depth x = true := by
      rw [writableItems, Bool.and_eq_true] at hwritable
      exact hwritable.1
    rw [writeItems] at hfuel ⊢
    have hclose : skipWhitespace (']' :: rest) = ']' :: rest := rfl
    have hlen : 2 * (write x).length ≤ fuel := by omega
    have hscan := readsBefore_write x hproper.1 hx hlen (']' :: rest) (follows_cons (.inr (.inl rfl)) rest)
    simp only [scanItems, hscan, hclose]
  | x, y :: xs, fuel + 1, depth, hproper, hwritable, hfuel, items, rest => by
    have hx : writable depth x = true ∧ writableItems depth (y :: xs) = true := by
      rwa [writableItems, Bool.and_eq_true] at hwritable
    have hy : writable depth y = true := by
      have hys := hx.2
      rw [writableItems, Bool.and_eq_true] at hys
      exact hys.1
    rw [writeItems_cons] at hfuel ⊢
    rw [List.length_append, List.length_cons, List.length_cons] at hfuel
    have hlen : 2 * (write x).length ≤ fuel := by omega
    have hlen' : 2 * (writeItems (y :: xs)).length + 1 ≤ fuel := by omega
    have hscan := readsBefore_write x hproper.1 hx.1 hlen (',' :: ' ' :: (writeItems (y :: xs) ++ ']' :: rest))
      (follows_cons (.inl rfl) _)
    have hcomma : skipWhitespace (',' :: ' ' :: (writeItems (y :: xs) ++ ']' :: rest)) =
        ',' :: ' ' :: (writeItems (y :: xs) ++ ']' :: rest) := rfl
    have hskip : skipWhitespace (' ' :: (writeItems (y :: xs) ++ ']' :: rest)) = writeItems (y :: xs) ++ ']' :: rest :=
      (begins_writeItems hy xs).skip _
    have hrest := readsItems_write y xs hproper.2 hx.2 hlen' (items ++ [x]) rest
    rw [List.append_assoc, List.singleton_append] at hrest
    rw [List.append_assoc, List.cons_append, List.cons_append]
    simp only [scanItems, hscan, hcomma, hskip, hrest]

theorem readsEntries_write : ∀ (k : Text) (x : Value φ) (entries : List (Text × Value φ)) {fuel depth : ℕ},
    Value.ProperEntries Joined ((k, x) :: entries) → writableEntries depth ((k, x) :: entries) = true →
    2 * (writeEntries ((k, x) :: entries)).length + 1 ≤ fuel → ∀ (acc : List (Text × Value φ)),
      ((acc ++ (k, x) :: entries).map Prod.fst).Nodup → ∀ rest : List Char,
      scanEntries fuel depth acc (writeEntries ((k, x) :: entries) ++ '\x7d' :: rest) =
        .ok (.dict (acc ++ (k, x) :: entries), rest)
  | k, x, entries, 0, depth, hproper, hwritable, hfuel, acc, hkeys, rest => by omega
  | k, x, [], fuel + 1, depth, hproper, hwritable, hfuel, acc, hkeys, rest => by
    have hx : writable depth x = true := by
      rw [writableEntries, Bool.and_eq_true] at hwritable
      exact hwritable.1
    rw [writeEntries] at hfuel ⊢
    rw [List.length_append, List.length_cons, List.length_cons] at hfuel
    have hlen : 2 * (write x).length ≤ fuel := by omega
    have hclose : skipWhitespace ('\x7d' :: rest) = '\x7d' :: rest := rfl
    have hkey := scanKey_write hproper.1 (begins_write hx) ('\x7d' :: rest)
    have hscan := readsBefore_write x hproper.2.1 hx hlen ('\x7d' :: rest) (follows_cons (.inr (.inr rfl)) rest)
    rw [List.append_assoc, List.cons_append, List.cons_append]
    simp only [scanEntries, hkey, hscan, hclose, setKey_of_notMem (notMem_of_nodup_append hkeys)]
  | k, x, (j, y) :: entries, fuel + 1, depth, hproper, hwritable, hfuel, acc, hkeys, rest => by
    have hx : writable depth x = true ∧ writableEntries depth ((j, y) :: entries) = true := by
      rwa [writableEntries, Bool.and_eq_true] at hwritable
    rw [writeEntries_cons] at hfuel ⊢
    simp only [List.length_append, List.length_cons] at hfuel
    have hlen : 2 * (write x).length ≤ fuel := by omega
    have hlen' : 2 * (writeEntries ((j, y) :: entries)).length + 1 ≤ fuel := by omega
    obtain ⟨cs, hcs⟩ := begins_writeEntries (j, y) entries
    have hkey := scanKey_write hproper.1 (begins_write hx.1)
      (',' :: ' ' :: (writeEntries ((j, y) :: entries) ++ '\x7d' :: rest))
    have hscan := readsBefore_write x hproper.2.1 hx.1 hlen
      (',' :: ' ' :: (writeEntries ((j, y) :: entries) ++ '\x7d' :: rest)) (follows_cons (.inl rfl) _)
    have hcomma : skipWhitespace (',' :: ' ' :: (writeEntries ((j, y) :: entries) ++ '\x7d' :: rest)) =
        ',' :: ' ' :: (writeEntries ((j, y) :: entries) ++ '\x7d' :: rest) := rfl
    have hskip : skipWhitespace (' ' :: (writeEntries ((j, y) :: entries) ++ '\x7d' :: rest)) =
        writeEntries ((j, y) :: entries) ++ '\x7d' :: rest := by
      rw [hcs]
      rfl
    have happend : acc ++ [(k, x)] ++ (j, y) :: entries = acc ++ (k, x) :: (j, y) :: entries := by
      rw [List.append_assoc, List.singleton_append]
    have hrest := readsEntries_write j y entries hproper.2.2 hx.2 hlen' (acc ++ [(k, x)]) (happend ▸ hkeys) rest
    rw [happend] at hrest
    simp only [List.append_assoc, List.cons_append]
    simp only [scanEntries, hkey, hscan, hcomma, hskip, setKey_of_notMem (notMem_of_nodup_append hkeys), hrest]

end

/-- `json.loads(json.dumps(value))` is the value. -/
theorem loads_dumpsAscii {x : Value φ} {text : List Char} (hproper : x.Proper Joined)
    (h : dumpsAscii x = some text) : (loads text : Except LoadError (Value φ)) = .ok x := by
  unfold dumpsAscii at h
  split at h
  · rename_i hwritable
    obtain rfl := Option.some.inj h
    have hbegins := begins_write hwritable
    have hscan := readsBefore_write x hproper hwritable (Nat.le_add_right _ 2) [] follows_nil
    rw [List.append_nil] at hscan
    have hbom : (write x).head? ≠ some '\ufeff' := by
      intro hhead
      obtain ⟨cs, hcs⟩ := List.head?_eq_some_iff.mp hhead
      rw [hcs] at hscan
      cases hscan
    have hskip := hbegins.skip []
    rw [List.append_nil] at hskip
    unfold loads
    rw [if_neg hbom, hskip, hscan]
    rfl
  · cases h

end Json
