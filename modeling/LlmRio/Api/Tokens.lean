/-
# Token estimates

`_rough_tokens` counts the characters of a value's JSON, four to a token, and
`_conservative_prompt_tokens` its bytes, of which no tokenizer makes more
tokens than there are. The messages of a prompt are estimated with
placeholders for their images (`_messages_for_accounting`).

Key definitions: `roughTokens`, `conservativePromptTokens`, `messagesForAccounting`.
Key theorems: `roughTokens_le`, `roughTokens_list_pos`.
-/
import LlmRio.Lib.Json
import LlmRio.Lib.Transactions

namespace LlmRio
namespace Api

open Json Utf8 Transactions

variable {φ : Type} [Interpreter φ]

/-- `encoded == '""'` -/
def emptyString : Text := ofString "\"\""

def roughTokens (value : Value φ) : ℕ :=
  let encoded := dumps value
  if encoded = [] ∨ encoded = emptyString then 0 else max 1 ((encoded.length + 3) / 4)

/-- `none` is a UnicodeEncodeError. -/
def conservativePromptTokens (value : Value φ) : Option ℕ :=
  (encode (dumps value)).map fun bytes => max 1 bytes.length

theorem roughTokens_of_ne {value : Value φ} (hne : dumps value ≠ []) (hquoted : dumps value ≠ emptyString) :
    roughTokens value = max 1 (((dumps value).length + 3) / 4) := by
  unfold roughTokens
  rw [if_neg (by simp [hne, hquoted])]

theorem roughTokens_le {value : Value φ} {n : ℕ} (h : conservativePromptTokens value = some n) :
    roughTokens value ≤ n := by
  obtain ⟨bytes, hbytes, rfl⟩ := Option.map_eq_some_iff.mp h
  have hlen := length_le_encode hbytes
  by_cases hempty : dumps value = [] ∨ dumps value = emptyString
  · unfold roughTokens
    rw [if_pos hempty]
    exact Nat.zero_le _
  · rw [not_or] at hempty
    rw [roughTokens_of_ne hempty.1 hempty.2]
    omega

theorem length_dumps_list_pos (xs : List (Value φ)) : 1 ≤ (dumps (.list xs)).length := by
  rw [dumps]
  simp [ofString]

theorem roughTokens_list (xs : List (Value φ)) :
    roughTokens (.list xs) = max 1 (((dumps (.list xs)).length + 3) / 4) := by
  have hbracket : (dumps (.list xs)).head? = some (ofChar '[') := by
    simp [dumps, ofString]
  have hne : dumps (.list xs) ≠ [] := by
    intro hnil
    rw [hnil] at hbracket
    cases hbracket
  have hquoted : dumps (.list xs) ≠ emptyString := by
    intro hempty
    rw [hempty] at hbracket
    revert hbracket
    decide
  exact roughTokens_of_ne hne hquoted

theorem roughTokens_list_pos (xs : List (Value φ)) : 1 ≤ roughTokens (.list xs) := by
  rw [roughTokens_list]
  exact le_max_left _ _

/-! ### The messages of a prompt -/

/-- What a request raises before it is accepted. -/
inductive Raised
  | typeError
  | unicodeEncodeError
  | rioError (code message : String) (statusCode : ℕ)
deriving DecidableEq, Repr

/-- `entries.get(key)`, which is None for a missing key. -/
def getOrNone (key : String) (entries : List (Text × Value φ)) : Value φ := (Value.get? key entries).getD .null

/-- `_IMAGE_CONTENT_TYPES` -/
def imageContentTypes : List Text := ["image", "image_url", "input_image"].map ofString

/-- `value in _IMAGE_CONTENT_TYPES`; a list and a dict cannot be hashed. -/
def isImageType : Value φ → Except Raised Bool
  | .string s => .ok (s ∈ imageContentTypes)
  | .list _ | .dict _ => .error .typeError
  | _ => .ok false

/-- `part.get("detail")`, or the detail of the image's URL. -/
def imageDetail (part : List (Text × Value φ)) : Value φ :=
  match getOrNone "detail" part, getOrNone "image_url" part with
  | .null, .dict imageUrl => getOrNone "detail" imageUrl
  | detail, _ => detail

def imagePart (part : List (Text × Value φ)) : List (Text × Value φ) :=
  [(ofString "type", getOrNone "type" part), (ofString "image", .string (ofString "<image>"))] ++
    match imageDetail part with
    | .null => []
    | detail => [(ofString "detail", detail)]

def accountingPart : Value φ → Except Raised (Value φ)
  | .dict part => (isImageType (getOrNone "type" part)).map fun image =>
    if image then .dict (imagePart part) else .dict part
  | part => .ok part

def accountingMessage (message : List (Text × Value φ)) : Except Raised (List (Text × Value φ)) :=
  match getOrNone "content" message with
  | .list parts => (parts.mapM accountingPart).map fun content =>
    setKey (ofString "content") (.list content) message
  | _ => .ok message

/-- `_messages_for_accounting` -/
def messagesForAccounting (messages : List (List (Text × Value φ))) : Except Raised (Value φ) :=
  (messages.mapM accountingMessage).map fun accounting => .list (accounting.map .dict)

omit [Interpreter φ] in
theorem messagesForAccounting_list {messages : List (List (Text × Value φ))} {value : Value φ}
    (h : messagesForAccounting messages = .ok value) : ∃ xs, value = .list xs := by
  obtain ⟨accounting, -, rfl⟩ := map_eq_ok h
  exact ⟨_, rfl⟩

end Api
end LlmRio
