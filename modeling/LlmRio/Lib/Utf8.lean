/-
# UTF-8 in pieces

A text is a list of code points, surrogates included, as Python strings are.
`encode` fails on a surrogate. `decode` skips every byte at which no encoded
character begins, as `bytes.decode("utf-8", errors="ignore")` does.

Pieces that are decoded one by one give the text of the whole if no two of
them share a character: a character whose bytes are divided is lost.

Key definitions: `Text`, `encode`, `decode`, `Divided`, `Whole`.
Key theorems: `firstChar_eq_some`, `decode_append`, `decode_flatten`.
-/
import Mathlib.Algebra.GroupWithZero.Nat
import Mathlib.Data.List.Infix
import Mathlib.Data.List.Basic

namespace Utf8

abbrev CodePoint := Fin 0x110000

abbrev Text := List CodePoint

instance neZero_codePoints : NeZero 0x110000 := ⟨by decide⟩

instance : LawfulBEq Text := inferInstance

theorem toNat_lt (c : Char) : c.toNat < 0x110000 := by
  rcases c.valid with h | ⟨-, h⟩
  · exact Nat.lt_trans h (by decide)
  · exact h

def ofChar (c : Char) : CodePoint := ⟨c.toNat, toNat_lt c⟩

def ofString (s : String) : Text := s.toList.map ofChar

/-! ### Encoding -/

/-- The character of a code point that is no surrogate. -/
def toChar? (p : CodePoint) : Option Char :=
  if h : p.val.isValidChar then some (Char.ofNatAux p.val h) else none

theorem valid_of_toChar {p : CodePoint} {c : Char} (h : toChar? p = some c) : p.val.isValidChar := by
  by_contra hvalid
  have hnone : toChar? p = none := dif_neg hvalid
  rw [hnone] at h
  cases h

/-- `text.encode("utf-8")`; `none` is a surrogate. -/
def encode : Text → Option (List UInt8)
  | [] => some []
  | p :: ps => (toChar? p).bind fun c => (encode ps).map (String.utf8EncodeChar c ++ ·)

/-- A code point takes a byte or more. -/
theorem length_le_encode : ∀ {ps : Text} {bytes : List UInt8}, encode ps = some bytes → ps.length ≤ bytes.length
  | [], _, _ => Nat.zero_le _
  | p :: ps, bytes, h => by
    obtain ⟨c, -, h⟩ := Option.bind_eq_some_iff.mp h
    obtain ⟨rest, hrest, rfl⟩ := Option.map_eq_some_iff.mp h
    have hlen := length_le_encode hrest
    have hpos := c.utf8Size_pos
    rw [List.length_cons, List.length_append, String.length_utf8EncodeChar]
    omega

/-! ### Decoding -/

/-- The character that is encoded at the front of the bytes. -/
def firstChar (bytes : List UInt8) : Option Char := bytes.toByteArray.utf8DecodeChar? 0

/-- `decode` after a character of which `skip` bytes are still to come. -/
def decodeFrom : ℕ → List UInt8 → List Char
  | _, [] => []
  | skip + 1, _ :: bytes => decodeFrom skip bytes
  | 0, b :: bytes =>
    match firstChar (b :: bytes) with
    | some c => c :: decodeFrom (c.utf8Size - 1) bytes
    | none => decodeFrom 0 bytes

def decode (bytes : List UInt8) : List Char := decodeFrom 0 bytes

variable {a b bytes : List UInt8} {c : Char}

/-- The bytes of a ByteArray, as a list that makes it. -/
theorem exists_toByteArray (bytes : ByteArray) : ∃ l : List UInt8, bytes = l.toByteArray :=
  ⟨bytes.data.toList, by ext1; simp⟩

theorem firstChar_eq_some : firstChar bytes = some c ↔ String.utf8EncodeChar c <+: bytes := by
  constructor
  · intro h
    obtain ⟨rest, hrest⟩ := ByteArray.exists_of_utf8DecodeChar?_eq_some h
    obtain ⟨l, rfl⟩ := exists_toByteArray rest
    rw [← List.toByteArray_append, List.toByteArray_inj] at hrest
    exact ⟨l, hrest.symm⟩
  · rintro ⟨rest, rfl⟩
    unfold firstChar
    rw [List.toByteArray_append]
    exact ByteArray.utf8DecodeChar?_utf8EncodeChar_append

theorem decodeFrom_skip : ∀ (skip : ℕ) (bytes : List UInt8), decodeFrom skip bytes = decode (bytes.drop skip)
  | 0, _ => rfl
  | _ + 1, [] => rfl
  | skip + 1, _ :: bytes => decodeFrom_skip skip bytes

/-- A character at the front is read as a whole. -/
theorem decode_first (h : firstChar bytes = some c) : decode bytes = c :: decode (bytes.drop c.utf8Size) := by
  have hpos := c.utf8Size_pos
  cases bytes with
  | nil =>
    have hlen := (firstChar_eq_some.mp h).length_le
    rw [String.length_utf8EncodeChar, List.length_nil] at hlen
    omega
  | cons b bytes =>
    obtain ⟨k, hk⟩ : ∃ k, c.utf8Size = k + 1 := ⟨c.utf8Size - 1, by omega⟩
    have hread : decode (b :: bytes) = c :: decodeFrom (c.utf8Size - 1) bytes := by
      simp only [decode, decodeFrom, h]
    rw [hread, decodeFrom_skip, hk, Nat.add_sub_cancel, List.drop_succ_cons]

/-- A byte at which no character begins is skipped. -/
theorem decode_none {b : UInt8} (h : firstChar (b :: bytes) = none) : decode (b :: bytes) = decode bytes := by
  simp only [decode, decodeFrom, h]

/-- Two pieces share a character. -/
def Divided (a b : List UInt8) : Prop :=
  ∃ (c : Char) (x y : List UInt8), x ≠ [] ∧ y ≠ [] ∧ String.utf8EncodeChar c = x ++ y ∧ x <:+ a ∧ y <+: b

theorem Divided.mono {a' b' : List UInt8} (h : Divided a b) (ha : a <:+ a') (hb : b <+: b') : Divided a' b' := by
  obtain ⟨c, x, y, hx, hy, hc, hxa, hyb⟩ := h
  exact ⟨c, x, y, hx, hy, hc, hxa.trans ha, hyb.trans hb⟩

/-- A character that begins in the first of two pieces ends there. -/
theorem prefix_of_not_divided (h : ¬ Divided a b) (ha : a ≠ []) (hc : String.utf8EncodeChar c <+: a ++ b) :
    String.utf8EncodeChar c <+: a := by
  rcases List.prefix_or_prefix_of_prefix hc (List.prefix_append a b) with hin | ⟨y, hy⟩
  · exact hin
  · by_cases hnil : y = []
    · rw [← hy, hnil, List.append_nil]
    · rw [← hy, List.prefix_append_right_inj] at hc
      exact absurd ⟨c, a, y, ha, hnil, hy.symm, List.suffix_refl a, hc⟩ h

/-- Pieces that share no character are decoded one by one. -/
theorem decode_append (h : ¬ Divided a b) : decode (a ++ b) = decode a ++ decode b := by
  induction hn : a.length using Nat.strong_induction_on generalizing a with
  | _ n ih =>
    subst hn
    cases a with
    | nil => rfl
    | cons x a =>
      have hrest : ∀ k, ¬ Divided ((x :: a).drop k) b := fun k hdivided =>
        h (hdivided.mono (List.drop_suffix k _) (List.prefix_refl b))
      cases hfirst : firstChar (x :: a ++ b) with
      | none =>
        have hnone : firstChar (x :: a) = none := by
          rw [Option.eq_none_iff_forall_ne_some]
          intro c hc
          have hsome := firstChar_eq_some.mpr ((firstChar_eq_some.mp hc).trans (List.prefix_append (x :: a) b))
          rw [hfirst] at hsome
          cases hsome
        rw [decode_none hnone, List.cons_append, decode_none (by exact hfirst)]
        exact ih a.length (Nat.lt_succ_self _) (hrest 1) rfl
      | some c =>
        have hin := prefix_of_not_divided h (List.cons_ne_nil x a) (firstChar_eq_some.mp hfirst)
        have hlen := hin.length_le
        rw [String.length_utf8EncodeChar] at hlen
        have hpos := c.utf8Size_pos
        rw [decode_first hfirst, decode_first (firstChar_eq_some.mpr hin), List.drop_append_of_le_length hlen,
          List.cons_append]
        congr 1
        refine ih _ ?_ (hrest _) rfl
        rw [List.length_drop]
        omega

/-- No character is divided between the pieces. -/
def Whole (pieces : List (List UInt8)) : Prop := ∀ l r, pieces = l ++ r → ¬ Divided l.flatten r.flatten

theorem Whole.tail {piece : List UInt8} {pieces : List (List UInt8)} (h : Whole (piece :: pieces)) :
    Whole pieces := by
  intro l r hpieces hdivided
  apply h (piece :: l) r (by rw [hpieces, List.cons_append])
  rw [List.flatten_cons]
  exact hdivided.mono (List.suffix_append piece l.flatten) (List.prefix_refl _)

/-- Decoding the pieces of a text. -/
theorem decode_flatten : ∀ {pieces : List (List UInt8)}, Whole pieces →
    pieces.flatMap decode = decode pieces.flatten
  | [], _ => rfl
  | piece :: pieces, h => by
    have hcut : ¬ Divided piece pieces.flatten := by
      have hfirst := h [piece] pieces rfl
      rwa [List.flatten_singleton] at hfirst
    rw [List.flatMap_cons, List.flatten_cons, decode_append hcut, decode_flatten h.tail]

/-- Of the bytes of a character the first is a first byte. -/
theorem isFirst_iff {x y : List UInt8} {z : UInt8} (hc : String.utf8EncodeChar c = x ++ z :: y) :
    z.IsUTF8FirstByte ↔ x = [] := by
  have hlen : x.length < (String.utf8EncodeChar c).length := by
    rw [hc, List.length_append, List.length_cons]
    omega
  have hget : (String.utf8EncodeChar c)[x.length] = z := by
    simp [hc]
  rw [← hget, UInt8.isUTF8FirstByte_getElem_utf8EncodeChar]
  exact List.length_eq_zero_iff

theorem not_first {x y : List UInt8} {z : UInt8} (hc : String.utf8EncodeChar c = x ++ z :: y) (hx : x ≠ []) :
    ¬ z.IsUTF8FirstByte := fun hz => hx ((isFirst_iff hc).mp hz)

theorem is_first {x y : List UInt8} {z : UInt8} (hc : String.utf8EncodeChar c ++ x = z :: y) :
    z.IsUTF8FirstByte := by
  obtain ⟨w, ws, hw⟩ := List.exists_cons_of_ne_nil (String.utf8EncodeChar_ne_nil (c := c))
  rw [hw, List.cons_append] at hc
  rw [← (List.cons.inj hc).1]
  exact (isFirst_iff (x := []) hw).mpr rfl

/-- Where a character is divided, the second piece begins in the middle of it. -/
theorem Divided.continues (h : Divided a b) : ∃ y b', b = y :: b' ∧ ¬ y.IsUTF8FirstByte := by
  obtain ⟨c, x, y, hx, hy, hc, -, ⟨b', rfl⟩⟩ := h
  obtain ⟨z, y, rfl⟩ := List.exists_cons_of_ne_nil hy
  exact ⟨z, y ++ b', rfl, not_first hc hx⟩

/-- No character begins in the middle of another. -/
theorem firstChar_none {z : UInt8} (hz : ¬ z.IsUTF8FirstByte) : firstChar (z :: bytes) = none := by
  rw [Option.eq_none_iff_forall_ne_some]
  intro d hd
  obtain ⟨rest, hrest⟩ := firstChar_eq_some.mp hd
  exact hz (is_first hrest)

/-- What is left of a character whose beginning is missing is skipped. -/
theorem decode_continuation (bytes : List UInt8) : ∀ {x : List UInt8} (y : List UInt8) {z : List UInt8},
    String.utf8EncodeChar c = x ++ (y ++ z) → x ≠ [] → decode (y ++ bytes) = decode bytes
  | _, [], _, _, _ => rfl
  | x, b :: y, z, hc, hx => by
    have hmiddle : String.utf8EncodeChar c = (x ++ [b]) ++ (y ++ z) := by
      rw [hc, List.append_assoc]
      rfl
    rw [List.cons_append, decode_none (firstChar_none (not_first hc hx))]
    exact decode_continuation bytes y hmiddle (by simp)

/-- What there is of a character whose end is missing is skipped. -/
theorem decode_beginning {x y : List UInt8} (hc : String.utf8EncodeChar c = x ++ y) (hy : y ≠ []) :
    decode x = [] := by
  rcases x with _ | ⟨b, x⟩
  · rfl
  · have hnone : firstChar (b :: x) = none := by
      rw [Option.eq_none_iff_forall_ne_some]
      intro d hd
      have hin : String.utf8EncodeChar d <+: String.utf8EncodeChar c := by
        rw [hc]
        exact (firstChar_eq_some.mp hd).trans (List.prefix_append (b :: x) y)
      have hsame : some d = some c :=
        (firstChar_eq_some.mpr hin).symm.trans (firstChar_eq_some.mpr (List.prefix_refl _))
      have hlen := (firstChar_eq_some.mp hd).length_le
      have hpos : 0 < y.length := List.length_pos_of_ne_nil hy
      rw [Option.some.inj hsame, hc, List.length_append] at hlen
      omega
    have hrest : String.utf8EncodeChar c = [b] ++ (x ++ y) := hc
    have hskip := decode_continuation [] x hrest (List.cons_ne_nil b [])
    rw [List.append_nil] at hskip
    rw [decode_none hnone, hskip]
    rfl

theorem decode_char (c : Char) (bytes : List UInt8) :
    decode (String.utf8EncodeChar c ++ bytes) = c :: decode bytes := by
  have hfirst : firstChar (String.utf8EncodeChar c ++ bytes) = some c :=
    firstChar_eq_some.mpr (List.prefix_append _ bytes)
  rw [decode_first hfirst, ← String.length_utf8EncodeChar c, List.drop_left]

theorem decode_chars : ∀ (cs : List Char) (bytes : List UInt8),
    decode (cs.flatMap String.utf8EncodeChar ++ bytes) = cs ++ decode bytes
  | [], _ => rfl
  | c :: cs, bytes => by
    rw [List.flatMap_cons, List.append_assoc, decode_char, decode_chars cs, List.cons_append]

theorem decode_encoded (cs : List Char) : decode (cs.flatMap String.utf8EncodeChar) = cs := by
  have hchars := decode_chars cs []
  rw [List.append_nil] at hchars
  rw [hchars]
  exact List.append_nil cs

/-- A character that is divided is in neither piece. -/
theorem decode_divided {x y : List UInt8} (hc : String.utf8EncodeChar c = x ++ y) (hx : x ≠ []) (hy : y ≠ [])
    (a b : List UInt8) : decode (a ++ x) = decode a ∧ decode (y ++ b) = decode b ∧
      decode (a ++ (x ++ y) ++ b) = decode a ++ c :: decode b := by
  -- a character does not begin in what comes before it
  have hcut : ∀ bytes, ¬ Divided a (x ++ bytes) := by
    intro bytes hdivided
    obtain ⟨z, b', hz, hnot⟩ := hdivided.continues
    obtain ⟨w, x, rfl⟩ := List.exists_cons_of_ne_nil hx
    rw [List.cons_append] at hz
    rw [← (List.cons.inj hz).1] at hnot
    exact hnot (is_first (x := []) (by rw [List.append_nil, hc, List.cons_append]))
  have hleft : decode (a ++ x) = decode a := by
    have happend := decode_append (hcut [])
    rw [List.append_nil] at happend
    rw [happend, decode_beginning hc hy, List.append_nil]
  have hrest : String.utf8EncodeChar c = x ++ (y ++ []) := by
    rw [List.append_nil, hc]
  refine ⟨hleft, decode_continuation b y hrest hx, ?_⟩
  rw [List.append_assoc, List.append_assoc, decode_append (hcut (y ++ b)), ← List.append_assoc x, ← hc, decode_char]

/-- Pieces that begin with a character divide none. -/
theorem whole_of_first {pieces : List (List UInt8)}
    (h : ∀ piece ∈ pieces, ∀ z ∈ piece.head?, z.IsUTF8FirstByte) : Whole pieces := by
  intro l r hpieces hdivided
  obtain ⟨z, bytes, hr, hz⟩ := hdivided.continues
  -- the first piece of the rest that is not empty
  have hhead : ∀ r : List (List UInt8), r.flatten = z :: bytes → ∃ piece ∈ r, piece.head? = some z := by
    intro r
    induction r with
    | nil => exact fun hnil => by cases hnil
    | cons piece r ih =>
      intro hflat
      rcases piece with _ | ⟨w, piece⟩
      · obtain ⟨piece, hmem, hfirst⟩ := ih hflat
        exact ⟨piece, List.mem_cons_of_mem _ hmem, hfirst⟩
      · rw [List.flatten_cons, List.cons_append] at hflat
        exact ⟨w :: piece, List.mem_cons_self, by rw [List.head?_cons, (List.cons.inj hflat).1]⟩
  obtain ⟨piece, hmem, hfirst⟩ := hhead r hr
  exact hz (h piece (hpieces ▸ List.mem_append_right l hmem) z hfirst)

theorem whole_singleton (piece : List UInt8) : Whole [piece] := by
  intro l r hsplit hdivided
  obtain ⟨c, x, y, hx, hy, -, hxl, hyr⟩ := hdivided
  rcases List.append_eq_singleton_iff.mp hsplit.symm with ⟨rfl, -⟩ | ⟨-, rfl⟩
  · exact hx (List.suffix_nil.mp hxl)
  · exact hy (List.prefix_nil.mp hyr)

end Utf8
