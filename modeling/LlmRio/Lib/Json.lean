/-
# Python's json module

`dumps` with the compact separators and `ensure_ascii=False`, and `loads`. A
value is what `loads` makes: a dict keeps its keys in the order in which they
were first met, and an integer has no bound.

Lean has no counterpart of the interpreter's floats: a float is an element of a
type of which `Interpreter` says how it is read and written.

Key definitions: `Interpreter`, `Value`, `dumps`, `loads`, `truthy`.
-/
import LlmRio.Lib.Utf8
import Mathlib.Data.List.Basic

namespace Json

open Utf8

/-- What the interpreter does with floats and with the digits of a text, and
how deep its scanner may recurse. -/
class Interpreter (φ : Type) where
  /-- `float(literal)` -/
  ofLiteral : List Char → φ
  /-- `json.dumps(x)` -/
  repr : φ → Text
  /-- `int(x)`; `none` if it raises. -/
  truncate : φ → Option ℤ
  isZero : φ → Bool
  /-- `int(text)`; `none` if it raises. -/
  ofText : Text → Option ℤ
  recursionLimit : ℕ

/-- Floats as they are written, for values without floats. -/
instance : Interpreter (List Char) where
  ofLiteral := id
  repr literal := literal.map ofChar
  truncate _ := none
  isZero _ := false
  ofText _ := none
  recursionLimit := 1000

inductive Value (φ : Type)
  | null
  | bool (b : Bool)
  | int (n : ℤ)
  | float (x : φ)
  | string (s : Text)
  | list (xs : List (Value φ))
  | dict (entries : List (Text × Value φ))

variable {φ : Type} [Interpreter φ]

namespace Value

/-- `bool(value)` -/
def truthy : Value φ → Bool
  | .null => false
  | .bool b => b
  | .int n => n ≠ 0
  | .float x => ! Interpreter.isZero x
  | .string s => s ≠ []
  | .list xs => ! xs.isEmpty
  | .dict entries => ! entries.isEmpty

/-- `int(value)`; `none` if it raises. -/
def toInt : Value φ → Option ℤ
  | .bool b => some (if b then 1 else 0)
  | .int n => some n
  | .float x => Interpreter.truncate x
  | .string s => Interpreter.ofText φ s
  | .null | .list _ | .dict _ => none

/-- `value.get(key)` for the value of a dict. -/
def get? (key : String) (entries : List (Text × Value φ)) : Option (Value φ) := entries.lookup (ofString key)

omit [Interpreter φ] in
theorem get?_self (key : String) (value : Value φ) (entries : List (Text × Value φ)) :
    get? key ((ofString key, value) :: entries) = some value := by
  simp [get?]

omit [Interpreter φ] in
theorem get?_ne {key other : String} (h : ofString key ≠ ofString other) (value : Value φ)
    (entries : List (Text × Value φ)) : get? key ((ofString other, value) :: entries) = get? key entries := by
  simp [get?, List.lookup_cons, beq_false_of_ne h]

omit [Interpreter φ] in
theorem get?_nil (key : String) : get? key ([] : List (Text × Value φ)) = none := rfl

end Value

/-! ### Values that there are -/

mutual

/-- Each text in the value is as it says, and the keys of each dict are
distinct. -/
def Value.Proper (ok : Text → Prop) : Value φ → Prop
  | .string s => ok s
  | .list xs => Value.ProperItems ok xs
  | .dict entries => (entries.map Prod.fst).Nodup ∧ Value.ProperEntries ok entries
  | .null | .bool _ | .int _ | .float _ => True

def Value.ProperItems (ok : Text → Prop) : List (Value φ) → Prop
  | [] => True
  | x :: xs => x.Proper ok ∧ Value.ProperItems ok xs

def Value.ProperEntries (ok : Text → Prop) : List (Text × Value φ) → Prop
  | [] => True
  | (k, x) :: entries => ok k ∧ x.Proper ok ∧ Value.ProperEntries ok entries

end

omit [Interpreter φ] in
theorem Value.ProperEntries.lookup {ok : Text → Prop} {key : Text} {x : Value φ} :
    ∀ {entries : List (Text × Value φ)}, Value.ProperEntries ok entries → entries.lookup key = some x → x.Proper ok
  | (k, y) :: entries, h, hx => by
    obtain ⟨-, hy, hrest⟩ := h
    rw [List.lookup_cons] at hx
    split at hx
    · exact Option.some.inj hx ▸ hy
    · exact hrest.lookup hx

omit [Interpreter φ] in
mutual

theorem Value.Proper.mono {ok ok' : Text → Prop} (hok : ∀ s, ok s → ok' s) : ∀ {v : Value φ}, v.Proper ok → v.Proper ok'
  | .string s, h => hok s h
  | .list _, h => Value.ProperItems.mono hok h
  | .dict _, h => ⟨h.1, Value.ProperEntries.mono hok h.2⟩
  | .null, _ | .bool _, _ | .int _, _ | .float _, _ => trivial

theorem Value.ProperItems.mono {ok ok' : Text → Prop} (hok : ∀ s, ok s → ok' s) :
    ∀ {xs : List (Value φ)}, Value.ProperItems ok xs → Value.ProperItems ok' xs
  | [], _ => trivial
  | _ :: _, h => ⟨Value.Proper.mono hok h.1, Value.ProperItems.mono hok h.2⟩

theorem Value.ProperEntries.mono {ok ok' : Text → Prop} (hok : ∀ s, ok s → ok' s) :
    ∀ {entries : List (Text × Value φ)}, Value.ProperEntries ok entries → Value.ProperEntries ok' entries
  | [], _ => trivial
  | (_, _) :: _, h => ⟨hok _ h.1, Value.Proper.mono hok h.2.1, Value.ProperEntries.mono hok h.2.2⟩

end

mutual

/-- A float in the value is NaN, as `json.dumps` writes it. -/
def Value.hasNan : Value φ → Bool
  | .float x => Interpreter.repr x = ofString "NaN"
  | .list xs => Value.itemsHaveNan xs
  | .dict entries => Value.entriesHaveNan entries
  | .null | .bool _ | .int _ | .string _ => false

def Value.itemsHaveNan : List (Value φ) → Bool
  | [] => false
  | x :: xs => x.hasNan || Value.itemsHaveNan xs

def Value.entriesHaveNan : List (Text × Value φ) → Bool
  | [] => false
  | (_, x) :: entries => x.hasNan || Value.entriesHaveNan entries

end

/-! ### dumps -/

def hexDigitOf (n : ℕ) : Char := if n < 10 then Char.ofNat (n + 48) else Char.ofNat (n + 87)

/-- A code point in a string. -/
def escape (p : CodePoint) : Text :=
  match p.val with
  | 34 => ofString "\\\""
  | 92 => ofString "\\\\"
  | 8 => ofString "\\b"
  | 12 => ofString "\\f"
  | 10 => ofString "\\n"
  | 13 => ofString "\\r"
  | 9 => ofString "\\t"
  | n => if n < 32 then ofString "\\u00" ++ [ofChar (hexDigitOf (n / 16)), ofChar (hexDigitOf (n % 16))] else [p]

def dumpsString (s : Text) : Text := ofString "\"" ++ s.flatMap escape ++ ofString "\""

mutual

def dumps : Value φ → Text
  | .null => ofString "null"
  | .bool b => ofString (if b then "true" else "false")
  | .int n => ofString (toString n)
  | .float x => Interpreter.repr x
  | .string s => dumpsString s
  | .list xs => ofString "[" ++ dumpsItems xs ++ ofString "]"
  | .dict entries => ofString "\x7b" ++ dumpsEntries entries ++ ofString "\x7d"

def dumpsItems : List (Value φ) → Text
  | [] => []
  | [x] => dumps x
  | x :: xs => dumps x ++ ofString "," ++ dumpsItems xs

def dumpsEntries : List (Text × Value φ) → Text
  | [] => []
  | [(k, x)] => dumpsString k ++ ofString ":" ++ dumps x
  | (k, x) :: entries => dumpsString k ++ ofString ":" ++ dumps x ++ ofString "," ++ dumpsEntries entries

end

/-! ### loads -/

/-- What `loads` raises. The digits of an integer are limited, and so is the
depth of the scanner. -/
inductive LoadError
  | jsonDecodeError
  | valueError
  | recursionError
deriving DecidableEq, Repr

def isWhitespace (c : Char) : Bool := c = ' ' ∨ c = '\t' ∨ c = '\n' ∨ c = '\r'

def skipWhitespace (cs : List Char) : List Char := cs.dropWhile isWhitespace

def hexDigit (c : Char) : Option ℕ :=
  if '0' ≤ c ∧ c ≤ '9' then some (c.toNat - 48)
  else if 'a' ≤ c ∧ c ≤ 'f' then some (c.toNat - 87)
  else if 'A' ≤ c ∧ c ≤ 'F' then some (c.toNat - 55)
  else none

/-- What a backslash and the character stand for. -/
def unescape (c : Char) : Option Char :=
  if c = '"' ∨ c = '\\' ∨ c = '/' then some c
  else if c = 'b' then some '\x08'
  else if c = 'f' then some '\x0c'
  else if c = 'n' then some '\n'
  else if c = 'r' then some '\r'
  else if c = 't' then some '\t'
  else none

/-- A code unit that an escape gives. -/
def codeUnit (n : ℕ) : CodePoint := Fin.ofNat 0x110000 n

/-- Where the scanner of a string is. -/
inductive Scan
  | plain
  | escaped
  /-- In the digits of `\uXXXX`. -/
  | hex (left value : ℕ)

/-- The rest of a string, with the escapes read, and what follows it. -/
def scanString : Scan → List Char → Except LoadError (Text × List Char)
  | _, [] => .error .jsonDecodeError
  | .plain, c :: cs =>
    if c = '"' then .ok ([], cs)
    else if c = '\\' then scanString .escaped cs
    else if c.toNat < 32 then .error .jsonDecodeError
    else (scanString .plain cs).map fun (s, rest) => (ofChar c :: s, rest)
  | .escaped, c :: cs =>
    if c = 'u' then scanString (.hex 4 0) cs
    else match unescape c with
      | some d => (scanString .plain cs).map fun (s, rest) => (ofChar d :: s, rest)
      | none => .error .jsonDecodeError
  | .hex left value, c :: cs =>
    match hexDigit c with
    | some d =>
      if left ≤ 1 then (scanString .plain cs).map fun (s, rest) => (codeUnit (value * 16 + d) :: s, rest)
      else scanString (.hex (left - 1) (value * 16 + d)) cs
    | none => .error .jsonDecodeError

def isHigh (p : CodePoint) : Bool := 0xd800 ≤ p.val ∧ p.val ≤ 0xdbff

def isLow (p : CodePoint) : Bool := 0xdc00 ≤ p.val ∧ p.val ≤ 0xdfff

/-- Two escapes for the halves of a character are one code point. -/
def joinSurrogates : Text → Text
  | p :: q :: ps =>
    if isHigh p ∧ isLow q then codeUnit (0x10000 + (p.val - 0xd800) * 0x400 + (q.val - 0xdc00)) :: joinSurrogates ps
    else p :: joinSurrogates (q :: ps)
  | ps => ps

def isDigit (c : Char) : Bool := '0' ≤ c ∧ c ≤ '9'

def natOf (digits : List Char) : ℕ := digits.foldl (fun n c => n * 10 + (c.toNat - 48)) 0

/-- The digits before the fraction. -/
def integerPart : List Char → Option (List Char × List Char)
  | '0' :: cs => some (['0'], cs)
  | cs => if (cs.takeWhile isDigit).isEmpty then none else some (cs.takeWhile isDigit, cs.dropWhile isDigit)

/-- A fraction, if there is one. -/
def fraction : List Char → List Char × List Char
  | '.' :: cs =>
    if (cs.takeWhile isDigit).isEmpty then ([], '.' :: cs) else ('.' :: cs.takeWhile isDigit, cs.dropWhile isDigit)
  | cs => ([], cs)

/-- An exponent, if there is one. -/
def exponent : List Char → List Char × List Char
  | e :: cs =>
    let (sign, digits) := match cs with
      | '+' :: ds => (['+'], ds)
      | '-' :: ds => (['-'], ds)
      | ds => ([], ds)
    if (e = 'e' ∨ e = 'E') ∧ (digits.takeWhile isDigit).isEmpty = false then
      (e :: sign ++ digits.takeWhile isDigit, digits.dropWhile isDigit)
    else ([], e :: cs)
  | [] => ([], [])

/-- `sys.get_int_max_str_digits()` -/
def intMaxStrDigits : ℕ := 4300

/-- A number; `NaN` and the infinities are floats. -/
def scanNumber (cs : List Char) : Except LoadError (Value φ × List Char) :=
  let (sign, unsigned) := match cs with
    | '-' :: cs => (['-'], cs)
    | cs => ([], cs)
  match integerPart unsigned with
  | none => .error .jsonDecodeError
  | some (digits, cs) =>
    let (frac, cs) := fraction cs
    let (exp, cs) := exponent cs
    if frac.isEmpty && exp.isEmpty then
      if intMaxStrDigits < digits.length then .error .valueError
      else .ok (.int (if sign.isEmpty then natOf digits else -natOf digits), cs)
    else .ok (.float (Interpreter.ofLiteral (sign ++ digits ++ frac ++ exp)), cs)

/-- The values that are written as words. -/
def constants : List (List Char × Value φ) :=
  [("null".toList, .null), ("true".toList, .bool true), ("false".toList, .bool false)] ++
    ["NaN", "Infinity", "-Infinity"].map fun word => (word.toList, .float (Interpreter.ofLiteral word.toList))

def scanScalar (cs : List Char) : Except LoadError (Value φ × List Char) :=
  match constants.find? fun (word, _) => word.isPrefixOf cs with
  | some (word, value) => .ok (value, cs.drop word.length)
  | none => scanNumber cs

/-- `dict[key] = value` -/
def setKey (key : Text) (value : Value φ) : List (Text × Value φ) → List (Text × Value φ)
  | [] => [(key, value)]
  | (k, v) :: entries => if k = key then (k, value) :: entries else (k, v) :: setKey key value entries

/-- A key with its colon. -/
def scanKey : List Char → Except LoadError (Text × List Char)
  | '"' :: cs =>
    match scanString .plain cs with
    | .ok (key, cs) =>
      match skipWhitespace cs with
      | ':' :: cs => .ok (joinSurrogates key, skipWhitespace cs)
      | _ => .error .jsonDecodeError
    | .error e => .error e
  | _ => .error .jsonDecodeError

mutual

/-- A value at the front of the text, with the depth that is left. -/
def scanValue : ℕ → ℕ → List Char → Except LoadError (Value φ × List Char)
  | 0, _, _ => .error .jsonDecodeError
  | _ + 1, _, [] => .error .jsonDecodeError
  | fuel + 1, depth, c :: cs =>
    if c = '"' then (scanString .plain cs).map fun (s, rest) => (.string (joinSurrogates s), rest)
    else if c = '\x7b' then
      match depth, skipWhitespace cs with
      | 0, _ => .error .recursionError
      | _ + 1, '\x7d' :: cs => .ok (.dict [], cs)
      | depth + 1, cs => scanEntries fuel depth [] cs
    else if c = '[' then
      match depth, skipWhitespace cs with
      | 0, _ => .error .recursionError
      | _ + 1, ']' :: cs => .ok (.list [], cs)
      | depth + 1, cs => scanItems fuel depth [] cs
    else scanScalar (c :: cs)

/-- The items of a list, after those already read. -/
def scanItems : ℕ → ℕ → List (Value φ) → List Char → Except LoadError (Value φ × List Char)
  | 0, _, _, _ => .error .jsonDecodeError
  | fuel + 1, depth, items, cs =>
    match scanValue fuel depth cs with
    | .error e => .error e
    | .ok (x, cs) =>
      match skipWhitespace cs with
      | ',' :: cs => scanItems fuel depth (items ++ [x]) (skipWhitespace cs)
      | ']' :: cs => .ok (.list (items ++ [x]), cs)
      | _ => .error .jsonDecodeError

/-- The entries of a dict, after those already read. -/
def scanEntries : ℕ → ℕ → List (Text × Value φ) → List Char → Except LoadError (Value φ × List Char)
  | 0, _, _, _ => .error .jsonDecodeError
  | fuel + 1, depth, entries, cs =>
    match scanKey cs with
    | .error e => .error e
    | .ok (key, cs) =>
      match scanValue fuel depth cs with
      | .error e => .error e
      | .ok (x, cs) =>
        match skipWhitespace cs with
        | ',' :: cs => scanEntries fuel depth (setKey key x entries) (skipWhitespace cs)
        | '\x7d' :: cs => .ok (.dict (setKey key x entries), cs)
        | _ => .error .jsonDecodeError

end

/-- `json.loads`. Each item takes two calls of the scanner and at least one
character. -/
def loads (text : List Char) : Except LoadError (Value φ) :=
  if text.head? = some '\ufeff' then .error .jsonDecodeError
  else match scanValue (2 * text.length + 2) (Interpreter.recursionLimit φ) (skipWhitespace text) with
    | .error e => .error e
    | .ok (x, rest) => if skipWhitespace rest = [] then .ok x else .error .jsonDecodeError

/-! ### What the scanner reads -/

/-- A character that stands for itself in a string. -/
def Plain (c : Char) : Prop := c ≠ '"' ∧ c ≠ '\\' ∧ 32 ≤ c.toNat

instance (c : Char) : Decidable (Plain c) := inferInstanceAs (Decidable (_ ∧ _ ∧ _))

theorem scanString_plain : ∀ {s : List Char} (rest : List Char), (∀ c ∈ s, Plain c) →
    scanString .plain (s ++ '"' :: rest) = .ok (s.map ofChar, rest)
  | [], rest, _ => by
    rw [List.nil_append, scanString, if_pos rfl]
    rfl
  | c :: s, rest, h => by
    obtain ⟨hquote, hbackslash, hcontrol⟩ := h c List.mem_cons_self
    rw [List.cons_append, scanString, if_neg hquote, if_neg hbackslash, if_neg (by omega),
      scanString_plain rest fun d hd => h d (List.mem_cons_of_mem _ hd)]
    rfl

theorem isHigh_ofChar (c : Char) : isHigh (ofChar c) = false := by
  have hval : (ofChar c).val = c.toNat := rfl
  have hscalar : c.toNat < 0xd800 ∨ 0xdfff < c.toNat ∧ c.toNat < 0x110000 := c.valid
  unfold isHigh
  rw [decide_eq_false_iff_not, hval]
  omega

/-- Characters are no halves of others. -/
theorem joinSurrogates_chars : ∀ s : List Char, joinSurrogates (s.map ofChar) = s.map ofChar
  | [] => rfl
  | [_] => rfl
  | c :: d :: s => by
    have ih := joinSurrogates_chars (d :: s)
    rw [List.map_cons] at ih
    rw [List.map_cons, List.map_cons, joinSurrogates, isHigh_ofChar, if_neg (by simp), ih]

/-- The scanner reads the value from the text, whatever follows it. -/
def Reads (fuel depth : ℕ) (text : List Char) (value : Value φ) : Prop :=
  ∀ rest, scanValue fuel depth (text ++ rest) = .ok (value, rest)

/-- A value is not taken for white space or for the end of a list. -/
def Begins (text : List Char) : Prop := ∃ c cs, text = c :: cs ∧ isWhitespace c = false ∧ c ≠ ']'

theorem Begins.skip {text : List Char} (h : Begins text) (rest : List Char) :
    skipWhitespace (text ++ rest) = text ++ rest := by
  obtain ⟨c, cs, rfl, hc, -⟩ := h
  unfold skipWhitespace
  rw [List.cons_append, List.dropWhile_cons_of_neg (by simp [hc])]

variable {fuel depth : ℕ} {text : List Char} {value : Value φ}

theorem scanValue_string (cs : List Char) :
    (scanValue (fuel + 1) depth ('"' :: cs) : Except LoadError (Value φ × _)) =
    (scanString .plain cs).map fun (s, rest) => (.string (joinSurrogates s), rest) := by
  simp only [scanValue, if_true]

/-- A dict or a list that does not close at once. -/
theorem scanValue_container {cs rest : List Char} {c : Char} (hcs : skipWhitespace cs = c :: rest) :
    (c ≠ '\x7d' → (scanValue (fuel + 1) (depth + 1) ('\x7b' :: cs) : Except LoadError (Value φ × _)) =
      scanEntries fuel depth [] (c :: rest)) ∧
    (c ≠ ']' → (scanValue (fuel + 1) (depth + 1) ('[' :: cs) : Except LoadError (Value φ × _)) =
      scanItems fuel depth [] (c :: rest)) := by
  refine ⟨fun hc => ?_, fun hc => ?_⟩
  all_goals
    simp only [scanValue, hcs, reduceIte, Char.reduceEq]
    split
    · rename_i heq
      cases heq
    · rename_i heq
      exact absurd (List.cons.inj heq).1 hc
    · rename_i heq _
      rw [Nat.succ.inj heq]

theorem reads_string (h : ∀ c ∈ text, Plain c) :
    Reads (fuel + 1) depth ('"' :: (text ++ ['"'])) (.string (text.map ofChar) : Value φ) := by
  intro rest
  have hscan := scanString_plain rest h
  rw [List.cons_append, List.append_assoc, List.singleton_append, scanValue_string, hscan]
  show Except.ok (Value.string (joinSurrogates (text.map ofChar)), rest) = _
  rw [joinSurrogates_chars]

theorem scanKey_plain {key : List Char} (h : ∀ c ∈ key, Plain c) (htext : Begins text) (rest : List Char) :
    scanKey ('"' :: (key ++ '"' :: ':' :: (text ++ rest))) = .ok (key.map ofChar, text ++ rest) := by
  have hcolon : skipWhitespace (':' :: (text ++ rest)) = ':' :: (text ++ rest) := rfl
  simp only [scanKey, scanString_plain _ h, hcolon, htext.skip, joinSurrogates_chars]

/-- A dict with one entry. -/
theorem reads_entry (key : List Char) (hkey : ∀ c ∈ key, Plain c) (htext : Begins text)
    (h : Reads fuel depth text value) :
    Reads (fuel + 2) (depth + 1) ('\x7b' :: '"' :: (key ++ '"' :: ':' :: (text ++ ['\x7d'])))
      (.dict [(key.map ofChar, value)]) := by
  intro rest
  have hvalue := h ('\x7d' :: rest)
  have hscanned := scanKey_plain hkey htext ('\x7d' :: rest)
  have hclose : skipWhitespace ('\x7d' :: rest) = '\x7d' :: rest := rfl
  simp only [List.cons_append, List.append_assoc, List.nil_append]
  rw [(scanValue_container (c := '"') rfl).1 (by decide)]
  simp only [scanEntries, hscanned, hvalue, hclose, setKey]

/-- A list with one item. -/
theorem reads_item (htext : Begins text) (h : Reads fuel depth text value) :
    Reads (fuel + 2) (depth + 1) ('[' :: (text ++ [']'])) (.list [value]) := by
  intro rest
  have hvalue := h (']' :: rest)
  have hclose : skipWhitespace (']' :: rest) = ']' :: rest := rfl
  have hskip := htext.skip (']' :: rest)
  obtain ⟨c, cs, hcons, -, hc⟩ := htext
  simp only [hcons, List.cons_append, List.append_assoc, List.nil_append] at hskip hvalue ⊢
  rw [(scanValue_container hskip).2 hc]
  simp only [scanItems, hvalue, hclose, List.nil_append]

theorem loads_of_reads (hbegins : Begins text) (hbom : text.head? ≠ some '\ufeff')
    (h : Reads (2 * text.length + 2) (Interpreter.recursionLimit φ) text value) :
    (loads text : Except LoadError (Value φ)) = .ok value := by
  have hscan := h []
  have hskip := hbegins.skip []
  rw [List.append_nil] at hscan hskip
  unfold loads
  rw [if_neg hbom, hskip, hscan]
  rfl

end Json
