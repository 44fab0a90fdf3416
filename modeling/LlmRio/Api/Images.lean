/-
# Image payloads are not counted

Of an image part `_messages_for_accounting` keeps the type and the detail, so
two prompts that differ only in what else their images hold are estimated and
reserved alike, or refused alike. Every other part is counted with the whole
of its text.

Key definitions: `SamePart`, `SameMessage`, `Occur`, `messageTexts`.
Key theorems: `accounting_congr`, `occur_accounting`, `images_uncounted`.
-/
import LlmRio.Api.Limits

namespace LlmRio
namespace Api

open Json Utf8 Transactions

variable {φ : Type}

/-! ### Prompts that differ in their images -/

/-- The part is an image. -/
def isImage (part : List (Text × Value φ)) : Bool :=
  match getOrNone "type" part with
  | .string s => s ∈ imageContentTypes
  | _ => false

/-- The parts are the same, or images of one type with one detail, the part's
own or that of its URL. -/
inductive SamePart : Value φ → Value φ → Prop
  | same (v : Value φ) : SamePart v v
  | image (p q : List (Text × Value φ)) (hp : isImage p = true) (hq : isImage q = true)
      (htype : getOrNone "type" p = getOrNone "type" q) (hdetail : imageDetail p = imageDetail q) :
      SamePart (.dict p) (.dict q)

/-- The messages are the same but for the images among the parts of their
content. -/
inductive SameMessage : List (Text × Value φ) → List (Text × Value φ) → Prop
  | same (m : List (Text × Value φ)) : SameMessage m m
  | parts (before after : List (Text × Value φ)) (ps qs : List (Value φ))
      (hkey : ∀ e ∈ before, e.1 ≠ ofString "content") (h : List.Forall₂ SamePart ps qs) :
      SameMessage (before ++ (ofString "content", .list ps) :: after)
        (before ++ (ofString "content", .list qs) :: after)

theorem isImageType_of_isImage {part : List (Text × Value φ)} (h : isImage part = true) :
    isImageType (getOrNone "type" part) = .ok true := by
  unfold isImage at h
  split at h
  · rename_i s hs
    rw [hs]
    exact congrArg _ h
  · cases h

theorem isImageType_eq_ok {part : List (Text × Value φ)} {image : Bool}
    (h : isImageType (getOrNone "type" part) = .ok image) : image = isImage part := by
  unfold isImage
  unfold isImageType at h
  split at h
  · rename_i s hs
    cases h
    rw [hs]
  · cases h
  · cases h
  · rename_i hstring _ _
    cases h
    split
    · rename_i s hs
      exact absurd hs (hstring s)
    · rfl

theorem accountingPart_congr (p q : Value φ) (h : SamePart p q) : accountingPart p = accountingPart q := by
  cases h with
  | same => rfl
  | image p q hp hq htype hdetail =>
    have himage : imagePart p = imagePart q := by
      unfold imagePart
      rw [htype, hdetail]
    simp only [accountingPart]
    rw [isImageType_of_isImage hp, isImageType_of_isImage hq]
    exact congrArg (fun part => Except.ok (Value.dict part)) himage

theorem lookup_before {before after : List (Text × Value φ)} {key : Text} (value : Value φ)
    (hkey : ∀ e ∈ before, e.1 ≠ key) : (before ++ (key, value) :: after).lookup key = some value := by
  induction before with
  | nil => simp
  | cons e before ih =>
    have hne : (key == e.1) = false := beq_false_of_ne (hkey e List.mem_cons_self).symm
    rw [List.cons_append, List.lookup_cons, hne]
    exact ih fun d hd => hkey d (List.mem_cons_of_mem _ hd)

theorem setKey_before {before after : List (Text × Value φ)} {key : Text} (old value : Value φ)
    (hkey : ∀ e ∈ before, e.1 ≠ key) :
    setKey key value (before ++ (key, old) :: after) = before ++ (key, value) :: after := by
  induction before with
  | nil => simp [setKey]
  | cons e before ih =>
    rw [List.cons_append, setKey, if_neg (hkey e List.mem_cons_self),
      ih fun d hd => hkey d (List.mem_cons_of_mem _ hd)]
    rfl

theorem mem_setKey (key : Text) (value : Value φ) : ∀ entries, (key, value) ∈ setKey key value entries
  | [] => List.mem_singleton_self _
  | (k, v) :: entries => by
    unfold setKey
    split
    · rename_i hk
      rw [hk]
      exact List.mem_cons_self
    · exact List.mem_cons_of_mem _ (mem_setKey key value entries)

theorem accountingMessage_congr (m m' : List (Text × Value φ)) (h : SameMessage m m') :
    accountingMessage m = accountingMessage m' := by
  cases h with
  | same => rfl
  | parts before after ps qs hkey h =>
    have hcontent : ∀ parts : List (Value φ),
        accountingMessage (before ++ (ofString "content", .list parts) :: after) =
          (parts.mapM accountingPart).map fun content =>
            before ++ (ofString "content", .list content) :: after := by
      intro parts
      unfold accountingMessage getOrNone Value.get?
      rw [lookup_before _ hkey]
      simp only [Option.getD_some, setKey_before _ _ hkey]
    rw [hcontent, hcontent, mapM_congr accountingPart_congr h]

theorem accounting_congr {ms ms' : List (List (Text × Value φ))} (h : List.Forall₂ SameMessage ms ms') :
    messagesForAccounting ms = messagesForAccounting ms' := by
  unfold messagesForAccounting
  rw [mapM_congr accountingMessage_congr h]

/-! ### The texts that are counted -/

/-- The texts stand in the whole, one after the other. -/
def Occur {α : Type} : List (List α) → List α → Prop
  | [], _ => True
  | t :: ts, whole => ∃ gap rest, whole = gap ++ (t ++ rest) ∧ Occur ts rest

namespace Occur

variable {α : Type} {ts us : List (List α)} {v w : List α}

theorem prepend (gap : List α) (h : Occur ts w) : Occur ts (gap ++ w) := by
  cases ts with
  | nil => trivial
  | cons t ts =>
    obtain ⟨gap', rest, rfl, hrest⟩ := h
    exact ⟨gap ++ gap', rest, by simp, hrest⟩

theorem append : ∀ {ts : List (List α)} {v : List α}, Occur ts v → Occur us w → Occur (ts ++ us) (v ++ w)
  | [], v, _, hw => hw.prepend v
  | t :: ts, _, ⟨gap, rest, hv, hrest⟩, hw => by
    refine ⟨gap, rest ++ w, ?_, append hrest hw⟩
    rw [hv]
    simp

theorem extend (h : Occur ts v) (w : List α) : Occur ts (v ++ w) := by
  have hnone : Occur [] w := trivial
  have happ := append h hnone
  rwa [List.append_nil] at happ

theorem self (t : List α) : Occur [t] t := ⟨[], [], by simp, trivial⟩

/-- The texts are counted beside each other. -/
theorem length_le : ∀ {ts : List (List α)} {w : List α}, Occur ts w → ts.flatten.length ≤ w.length
  | [], _, _ => Nat.zero_le _
  | t :: ts, _, ⟨gap, rest, hw, hrest⟩ => by
    have hle := length_le hrest
    rw [hw, List.flatten_cons, List.length_append, List.length_append, List.length_append]
    omega

end Occur

section texts

variable [Interpreter φ]

/-- The text of a part that is no image. -/
def partTexts : Value φ → List Text
  | .dict part => if isImage part then [] else [dumps (.dict part)]
  | part => [dumps part]

/-- The texts of the parts of a message that are no images. -/
def messageTexts (message : List (Text × Value φ)) : List Text :=
  match getOrNone "content" message with
  | .list parts => parts.flatMap partTexts
  | _ => []

theorem occur_items {ι : Type} {f : ι → List Text} {xs : List ι} {ys : List (Value φ)}
    (h : List.Forall₂ (fun x y => Occur (f x) (dumps y)) xs ys) : Occur (xs.flatMap f) (dumpsItems ys) := by
  induction h with
  | nil => trivial
  | cons hxy hrest ih =>
    cases hrest with
    | nil =>
      rw [dumpsItems, List.flatMap_singleton]
      exact hxy
    | cons hnext htail =>
      rw [dumpsItems, List.flatMap_cons]
      · exact (hxy.extend _).append ih
      · simp

theorem occur_entry {ts : List Text} {key : Text} {value : Value φ} (h : Occur ts (dumps value)) :
    ∀ {entries : List (Text × Value φ)}, (key, value) ∈ entries → Occur ts (dumpsEntries entries)
  | [], hmem => by cases hmem
  | [(k, x)], hmem => by
    cases List.mem_singleton.mp hmem
    rw [dumpsEntries]
    exact h.prepend _
  | (k, x) :: e :: entries, hmem => by
    rw [dumpsEntries]
    · rcases List.mem_cons.mp hmem with heq | hmem
      · cases heq
        exact ((h.prepend _).extend _).extend _
      · exact (occur_entry h hmem).prepend _
    · simp

theorem occur_part {p p' : Value φ} (h : accountingPart p = .ok p') : Occur (partTexts p) (dumps p') := by
  cases p with
  | dict part =>
    obtain ⟨image, htype, rfl⟩ := map_eq_ok h
    obtain rfl := isImageType_eq_ok htype
    simp only [partTexts]
    cases isImage part with
    | true => trivial
    | false => exact Occur.self _
  | null | bool | int | float | string | list =>
    cases h
    exact Occur.self _

theorem occur_message {m m' : List (Text × Value φ)} (h : accountingMessage m = .ok m') :
    Occur (messageTexts m) (dumps (.dict m')) := by
  unfold messageTexts
  unfold accountingMessage at h
  cases hcontent : getOrNone "content" m with
  | list parts =>
    rw [hcontent] at h
    obtain ⟨content, hparts, rfl⟩ := map_eq_ok h
    have hoccur : Occur (parts.flatMap partTexts) (dumpsItems content) :=
      occur_items ((forall₂_of_mapM hparts).imp fun _ _ => occur_part)
    have hlist : Occur (parts.flatMap partTexts) (dumps (.list content)) := by
      rw [dumps]
      exact (hoccur.prepend _).extend _
    rw [dumps]
    exact ((occur_entry hlist (mem_setKey _ _ m)).prepend _).extend _
  | _ => trivial

theorem occur_accounting {ms : List (List (Text × Value φ))} {accounting : Value φ}
    (h : messagesForAccounting ms = .ok accounting) : Occur (ms.flatMap messageTexts) (dumps accounting) := by
  obtain ⟨ms', hms, rfl⟩ := map_eq_ok h
  have hall : List.Forall₂ (fun m m' => Occur (messageTexts m) (dumps m')) ms (ms'.map .dict) :=
    List.forall₂_map_right_iff.mpr ((forall₂_of_mapM hms).imp fun _ _ => occur_message)
  rw [dumps]
  exact ((occur_items hall).prepend _).extend _

end texts

/-! ### Validation -/

/-- The request with other messages. -/
def ChatCompletionRequest.withMessages (body : ChatCompletionRequest φ) (ms : List (List (Text × Value φ)))
    (hne : ms ≠ []) : ChatCompletionRequest φ :=
  { body with messages := ms, messages_ne := hne }

/-- What is estimated and reserved counts the messages as they are accounted:
four characters to a token, and a token for each byte besides the output. -/
theorem counted_accounting [Interpreter φ] {cfg : Settings} {limits : ModelLimits} {body : ChatCompletionRequest φ}
    {promptTokens : ℕ} {reserved : ℤ} {enforced : Option ℤ}
    (h : validateRequest cfg limits body = .ok (promptTokens, reserved, enforced)) {accounting : Value φ}
    (ha : messagesForAccounting body.messages = .ok accounting) :
    promptTokens = roughTokens accounting ∧ (dumps accounting).length ≤ 4 * promptTokens ∧
      ∃ bytes, encode (dumps accounting) = some bytes ∧
        reserved = bytes.length + reservationOutput cfg limits body promptTokens * body.n := by
  obtain ⟨hprompt, -, -, -, count, hcount, hreserved⟩ := validateRequest_ok h ha
  obtain ⟨bytes, hbytes, rfl⟩ := Option.map_eq_some_iff.mp hcount
  obtain ⟨xs, rfl⟩ := messagesForAccounting_list ha
  have hlen := length_le_encode hbytes
  have hpos := length_dumps_list_pos xs
  refine ⟨hprompt, ?_, bytes, hbytes, ?_⟩
  · rw [hprompt, roughTokens_list]
    omega
  · rw [hreserved, max_eq_right (by omega)]

/-- **Image payloads do not influence accounting.** The estimate and the
reservation, or the refusal, are those of every prompt that differs in the
images only; the client's messages are forwarded; and the texts of all other
parts stand in what is accounted, whose characters are estimated four to a
token and whose bytes are reserved besides the output. -/
theorem images_uncounted [Interpreter φ] (cfg : Settings) (limits : ModelLimits) (body : ChatCompletionRequest φ)
    (ms ms' : List (List (Text × Value φ))) (hne : ms ≠ []) (hne' : ms' ≠ [])
    (h : List.Forall₂ SameMessage ms ms') :
    validateRequest cfg limits (body.withMessages ms hne) =
        validateRequest cfg limits (body.withMessages ms' hne') ∧
      (∀ accounting, messagesForAccounting ms = .ok accounting →
        Occur (ms.flatMap messageTexts) (dumps accounting) ∧ ∀ promptTokens reserved enforced,
          validateRequest cfg limits (body.withMessages ms hne) = .ok (promptTokens, reserved, enforced) →
            promptTokens = roughTokens accounting ∧ (ms.flatMap messageTexts).flatten.length ≤ 4 * promptTokens ∧
              ∃ bytes, encode (dumps accounting) = some bytes ∧ reserved = bytes.length +
                reservationOutput cfg limits (body.withMessages ms hne) promptTokens * body.n) ∧
      ∀ enforced, (chatPayload (body.withMessages ms hne) enforced).messages = ms := by
  have hmessages : messagesForAccounting (body.withMessages ms hne).messages =
      messagesForAccounting (body.withMessages ms' hne').messages := accounting_congr h
  have hsame : validateRequest cfg limits (body.withMessages ms hne) =
      validateRequest cfg limits (body.withMessages ms' hne') := by
    unfold validateRequest
    rw [hmessages]
    rfl
  refine ⟨hsame, fun accounting ha => ⟨occur_accounting ha, fun promptTokens reserved enforced hok => ?_⟩,
    fun _ => rfl⟩
  obtain ⟨hprompt, hlen, hbytes⟩ := counted_accounting hok ha
  exact ⟨hprompt, (occur_accounting ha).length_le.trans hlen, hbytes⟩

/-! ### Two images with one detail -/

/-- A message with a text and an image, whose detail is that of the URL. -/
def pictured (url : String) : List (Text × Value (List Char)) :=
  [(ofString "role", .string (ofString "user")),
    (ofString "content", .list [.dict [(ofString "type", .string (ofString "text")),
        (ofString "text", .string (ofString "hi"))],
      .dict [(ofString "type", .string (ofString "image_url")),
        (ofString "image_url", .dict [(ofString "url", .string (ofString url)),
          (ofString "detail", .string (ofString "low"))])]])]

/-- The length of the URL does not count. -/
theorem images_uncounted_url :
    validateRequest capped { maxContextTokens := 100 }
        (greetingRequest.withMessages [pictured "data:,"] (by simp)) =
      validateRequest capped { maxContextTokens := 100 }
        (greetingRequest.withMessages [pictured "data:,0123456789"] (by simp)) := by
  have hsame : SameMessage (pictured "data:,") (pictured "data:,0123456789") := by
    refine SameMessage.parts [_] [] _ _ ?_ (.cons (.same _) (.cons (.image _ _ ?_ ?_ ?_ ?_) .nil))
    · decide
    · decide
    · decide
    · rfl
    · rfl
  exact (images_uncounted capped _ greetingRequest _ _ _ _ (.cons hsame .nil)).1

end Api
end LlmRio
