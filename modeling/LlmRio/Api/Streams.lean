/-
# What a stream is charged

`_stream_backend` reads the events of a worker's stream while it forwards the
chunks, and settles the request when the stream ends, in whatever way. It
decodes each chunk by itself, keeps what follows the last newline for the next
chunk, and goes through the lines: the usage that the worker reports, the text
of the choices, an error and the terminal event.

The chunks make no difference to that as long as no character is divided
between two of them. A character that is divided is in neither, and the text
in which it stands may count for a token less (`divided_lost`).

Key definitions: `onLine`, `consume`, `streamBackend`.
Key theorems: `consume_eq`, `chunks_irrelevant`, `divided_lost`.
-/
import LlmRio.Api.Tokens
import LlmRio.Lib.Lines

namespace LlmRio
namespace Api

open Json Utf8

/-- What ends the stream before its end. -/
inductive Failure
  | attributeError
  | typeError
  /-- `int(...)` of what the worker reports. -/
  | conversion
  | loads (e : LoadError)
  | cancelled
  | generatorExit
deriving DecidableEq, Repr

/-- The variables of `_stream_backend`. -/
structure Accounting where
  prompt : ℤ := 0
  completion : ℤ := 0
  observedCompletion : ℤ := 0
  errorCode : Option String := none
  sawDone : Bool := false
deriving DecidableEq, Repr

abbrev Stream := EStateM Failure Accounting

variable {φ : Type} [Interpreter φ]

/-! ### An event -/

def intOf (value : Value φ) : Stream ℤ :=
  match value.toInt with
  | some n => pure n
  | none => throw .conversion

/-- The counts that the worker reports. -/
def onUsage (usage : Value φ) : Stream Unit :=
  if usage.truthy then
    match usage with
    | .dict usage => do
      let prompt ← intOf ((Value.get? "prompt_tokens" usage).getD (.int 0))
      modify fun a => { a with prompt := prompt }
      let completion ← intOf ((Value.get? "completion_tokens" usage).getD (.int 0))
      modify fun a => { a with completion := completion }
    | _ => throw .attributeError
  else pure ()

def onChoice : Value φ → Stream Unit
  | .dict choice =>
    match (Value.get? "delta" choice).getD (.dict []) with
    | .dict delta =>
      let tokens := roughTokens ((Value.get? "content" delta).getD (.string []))
      modify fun a => { a with observedCompletion := a.observedCompletion + tokens }
    | _ => throw .attributeError
  | _ => throw .attributeError

/-- `event.get("choices") or []` -/
def onChoices (choices : Value φ) : Stream Unit :=
  match choices with
  | .list choices => choices.forM onChoice
  -- the keys of a dict and the characters of a string have no `get`
  | .dict _ | .string _ => if choices.truthy then throw .attributeError else pure ()
  | _ => if choices.truthy then throw .typeError else pure ()

def onEvent : Value φ → Stream Unit
  | .dict event => do
    if (getOrNone "error" event).truthy then
      modify fun a => { a with errorCode := some "worker_stream_error" }
    onUsage (getOrNone "usage" event)
    onChoices (getOrNone "choices" event)
  | _ => throw .attributeError

/-! ### The stream -/

/-- `line.rstrip("\r")` -/
def rstrip (line : List Char) : List Char := (line.reverse.dropWhile (· = '\r')).reverse

def dataField : List Char := "data: ".toList

def doneEvent : List Char := "[DONE]".toList

variable (φ)

def onLine (line : List Char) : Stream Unit :=
  let line := rstrip line
  if ! dataField.isPrefixOf line then pure ()
  else if line.drop 6 = doneEvent then modify fun a => { a with sawDone := true }
  else match (loads (line.drop 6) : Except LoadError (Value φ)) with
    | .error .jsonDecodeError => pure ()
    | .error e => throw (.loads e)
    | .ok event => onEvent event

/-- The loop, with `pending_text`. -/
def consume : List Char → List (List UInt8) → Stream Unit
  | _, [] => pure ()
  | pending, chunk :: chunks => do
    (Lines.split '\n' (pending ++ decode chunk)).1.forM (onLine φ)
    consume (Lines.split '\n' (pending ++ decode chunk)).2 chunks

/-- What comes after the last chunk. -/
inductive Ending
  | complete
  | cancelled
  | timeout
  | httpError
  /-- The client reads no further. -/
  | closed
deriving DecidableEq, Repr

def endStream : Ending → Stream Unit
  | .complete => modify fun a =>
    if a.sawDone then a else { a with errorCode := some "worker_stream_incomplete" }
  | .cancelled => do
    modify fun a => { a with errorCode := some "client_disconnected" }
    throw .cancelled
  | .timeout => modify fun a => { a with errorCode := some "worker_stream_idle_timeout" }
  | .httpError => modify fun a => { a with errorCode := some "worker_transport_error" }
  | .closed => throw .generatorExit

/-- What the stream is settled with beside its text. -/
structure StreamRequest where
  promptEstimate : ℤ
  leaseEstimatedTokens : ℤ
  quotaChargeRequestedMaximum : Bool

structure Settlement where
  actualTokens : ℤ
  promptTokens : ℤ
  completionTokens : ℤ
  errorCode : Option String
deriving DecidableEq, Repr

/-- The `finally` block. -/
def settle (request : StreamRequest) (a : Accounting) : Settlement where
  actualTokens :=
    if request.quotaChargeRequestedMaximum ∧ a.errorCode = none then request.leaseEstimatedTokens
    else if a.prompt ≠ 0 ∨ a.completion ≠ 0 then a.prompt + a.completion
    else request.promptEstimate + a.observedCompletion
  promptTokens := if a.prompt ≠ 0 then a.prompt else request.promptEstimate
  completionTokens := if a.completion ≠ 0 then a.completion else a.observedCompletion
  errorCode := a.errorCode

/-- What a stream leaves. -/
structure Outcome where
  accounting : Accounting
  settlement : Settlement
  raised : Option Failure
deriving DecidableEq, Repr

def outcome (request : StreamRequest) : EStateM.Result Failure Accounting Unit → Outcome
  | .ok _ a => ⟨a, settle request a, none⟩
  | .error e a => ⟨a, settle request a, some e⟩

def streamBackend (request : StreamRequest) (chunks : List (List UInt8)) (ending : Ending) : Outcome :=
  outcome request ((do
    consume φ [] chunks
    endStream ending) {})

/-! ### The chunks -/

variable {φ}

/-- The loop goes through the lines of the decoded chunks. -/
theorem consume_feed : ∀ (chunks : List (List UInt8)) (pending : List Char),
    consume φ pending chunks = (Lines.feed '\n' pending (chunks.map decode)).1.forM (onLine φ)
  | [], _ => rfl
  | chunk :: chunks, pending => by
    rw [consume, consume_feed chunks, List.map_cons, Lines.feed]
    simp only [List.forM_eq_forM, List.forM_append]

theorem consume_eq (chunks : List (List UInt8)) :
    consume φ [] chunks = (Lines.split '\n' (chunks.flatMap decode)).1.forM (onLine φ) := by
  rw [consume_feed, Lines.feed_flatten '\n' (chunks.map decode) rfl, List.nil_append, List.flatMap_def]

/-- **Stream accounting does not depend on the chunks**, if no character is
divided between two of them. -/
theorem chunks_irrelevant (request : StreamRequest) (chunks chunks' : List (List UInt8)) (ending : Ending)
    (hsame : chunks.flatten = chunks'.flatten) (h : Whole chunks) (h' : Whole chunks') :
    streamBackend φ request chunks ending = streamBackend φ request chunks' ending := by
  unfold streamBackend
  rw [consume_eq, consume_eq, decode_flatten h, decode_flatten h', hsame]

/-! ### A divided character -/

/-- The event of a text, before and after it. -/
def contentBefore : List Char := "data: \x7b\"choices\":[\x7b\"delta\":\x7b\"content\":\"".toList

def contentAfter : List Char := "\"\x7d\x7d]\x7d".toList

def contentEvent (s : List Char) : Value φ :=
  .dict [(ofString "choices", .list [.dict [(ofString "delta",
    .dict [(ofString "content", .string (s.map ofChar))])]])]

variable {s : List Char}

omit [Interpreter φ] in
theorem contentAfter_append (rest : List Char) :
    contentAfter ++ rest = '"' :: '\x7d' :: '\x7d' :: ']' :: '\x7d' :: rest := by
  have hafter : contentAfter = ['"', '\x7d', '\x7d', ']', '\x7d'] := by decide +kernel
  rw [hafter]
  rfl

/-- The scanner reads the event of a text without escapes. -/
theorem reads_content (fuel depth : ℕ) (hs : ∀ c ∈ s, Plain c) :
    Reads (fuel + 9) (depth + 4) (contentBefore.drop 6 ++ s ++ contentAfter) (contentEvent s : Value φ) := by
  have htext : Reads (fuel + 1) depth ('"' :: (s ++ ['"'])) (.string (s.map ofChar) : Value φ) := reads_string hs
  have hdelta := reads_entry "content".toList (by simp [Plain]) ⟨'"', _, rfl, rfl, by decide⟩ htext
  have hchoice := reads_entry "delta".toList (by simp [Plain]) ⟨'\x7b', _, rfl, rfl, by decide⟩ hdelta
  have hchoices := reads_item ⟨'\x7b', _, rfl, rfl, by decide⟩ hchoice
  have hevent := reads_entry "choices".toList (by simp [Plain]) ⟨'[', _, rfl, rfl, by decide⟩ hchoices
  have hbefore : contentBefore.drop 6 = '\x7b' :: '"' :: ("choices".toList ++ '"' :: ':' :: '[' :: '\x7b' :: '"' ::
      ("delta".toList ++ '"' :: ':' :: '\x7b' :: '"' :: ("content".toList ++ ['"', ':', '"']))) := by decide +kernel
  have hafter := contentAfter_append []
  rw [List.append_nil] at hafter
  rw [hbefore, hafter]
  simp only [List.append_assoc, List.cons_append, List.nil_append] at hevent ⊢
  exact hevent

/-- A choice with a text counts its tokens. -/
theorem onEvent_content (s : List Char) : onEvent (contentEvent s : Value φ) =
    modify fun a => { a with
      observedCompletion := a.observedCompletion + roughTokens (.string (s.map ofChar) : Value φ) } := by
  -- the event has neither an error nor a usage, and its one choice has a text
  have herror : ofString "error" ≠ ofString "choices" := by decide +kernel
  have husage : ofString "usage" ≠ ofString "choices" := by decide +kernel
  simp only [onEvent, contentEvent, getOrNone, Value.get?_ne herror, Value.get?_ne husage, Value.get?_nil,
    Value.get?_self, Option.getD_none, Option.getD_some, Value.truthy, onUsage, onChoices]
  rfl

/-- A line that does not end in a carriage return. -/
theorem rstrip_append (line : List Char) {c : Char} (hc : c ≠ '\r') : rstrip (line ++ [c]) = line ++ [c] := by
  unfold rstrip
  rw [List.reverse_append, List.reverse_singleton, List.singleton_append, List.dropWhile_cons_of_neg (by simp [hc]),
    List.reverse_cons, List.reverse_reverse]

theorem onLine_content (hlimit : 4 ≤ Interpreter.recursionLimit φ) (hs : ∀ c ∈ s, Plain c) :
    onLine φ (contentBefore ++ s ++ contentAfter) = onEvent (contentEvent s : Value φ) := by
  have hbefore : contentBefore = dataField ++ contentBefore.drop 6 := by decide +kernel
  have hlast : contentAfter = contentAfter.dropLast ++ ['\x7d'] := by decide +kernel
  have hstrip : rstrip (contentBefore ++ s ++ contentAfter) = contentBefore ++ s ++ contentAfter := by
    rw [hlast, ← List.append_assoc]
    exact rstrip_append _ (by decide)
  have hdrop : (contentBefore ++ s ++ contentAfter).drop 6 = contentBefore.drop 6 ++ s ++ contentAfter := by
    rw [List.append_assoc, List.drop_append_of_le_length (by decide), List.append_assoc]
  have hprefix : dataField.isPrefixOf (contentBefore ++ s ++ contentAfter) = true := by
    rw [List.isPrefixOf_iff_prefix, List.append_assoc, hbefore, List.append_assoc]
    exact List.prefix_append _ _
  obtain ⟨cs, hcs⟩ : ∃ cs, contentBefore.drop 6 ++ s ++ contentAfter = '\x7b' :: cs := by
    have hopen : contentBefore.drop 6 = '\x7b' :: contentBefore.drop 7 := by decide +kernel
    rw [hopen]
    exact ⟨_, rfl⟩
  have hdone : contentBefore.drop 6 ++ s ++ contentAfter ≠ doneEvent := by
    rw [hcs]
    intro heq
    exact absurd (List.cons.inj heq).1 (by decide)
  have hloads : loads (contentBefore.drop 6 ++ s ++ contentAfter) = .ok (contentEvent s : Value φ) := by
    apply loads_of_reads
    · exact ⟨'\x7b', cs, hcs, rfl, by decide⟩
    · rw [hcs, List.head?_cons]
      decide
    · obtain ⟨depth, hdepth⟩ : ∃ depth, Interpreter.recursionLimit φ = depth + 4 :=
        ⟨_, (Nat.sub_add_cancel hlimit).symm⟩
      obtain ⟨fuel, hfuel⟩ : ∃ fuel, 2 * (contentBefore.drop 6 ++ s ++ contentAfter).length + 2 = fuel + 9 := by
        have hlen : contentBefore.length = 39 := by decide +kernel
        refine ⟨2 * (contentBefore.drop 6 ++ s ++ contentAfter).length - 7, ?_⟩
        simp only [List.length_append, List.length_drop]
        omega
      rw [hfuel, hdepth]
      exact reads_content fuel depth hs
  simp only [onLine, hstrip, hprefix, hdrop, hdone, hloads, Bool.not_true, Bool.false_eq_true, if_false]

/-- What comes after the last chunk counts no text. -/
theorem outcome_observed (request : StreamRequest) (ending : Ending) (a : Accounting) :
    (outcome request (endStream ending a)).accounting.observedCompletion = a.observedCompletion := by
  cases ending with
  | complete =>
    show (if a.sawDone then a else { a with errorCode := some "worker_stream_incomplete" }).observedCompletion = _
    split <;> rfl
  | _ => rfl

/-- A stream that is decoded to one event with a text counts that text. -/
theorem observed_content (request : StreamRequest) (ending : Ending) (hlimit : 4 ≤ Interpreter.recursionLimit φ)
    (hs : ∀ c ∈ s, Plain c) {chunks : List (List UInt8)}
    (h : chunks.flatMap decode = contentBefore ++ s ++ contentAfter ++ ['\n']) :
    (streamBackend φ request chunks ending).accounting.observedCompletion =
      roughTokens (.string (s.map ofChar) : Value φ) := by
  have hline : '\n' ∉ contentBefore ++ s ++ contentAfter := by
    have hbefore : '\n' ∉ contentBefore := by decide +kernel
    have hafter : '\n' ∉ contentAfter := by decide +kernel
    have htext : '\n' ∉ s := fun hmem => absurd (hs _ hmem).2.2 (by decide)
    simp only [List.mem_append, not_or]
    exact ⟨⟨hbefore, htext⟩, hafter⟩
  have hsplit : (Lines.split '\n' (chunks.flatMap decode)).1 = [contentBefore ++ s ++ contentAfter] := by
    rw [h, Lines.split_part [] hline]
    rfl
  have hrun : consume φ [] chunks = onEvent (contentEvent s : Value φ) := by
    rw [consume_eq, hsplit]
    simp only [List.forM_eq_forM, List.forM_cons, List.forM_nil, onLine_content hlimit hs]
    exact bind_pure_unit
  unfold streamBackend
  rw [hrun, onEvent_content]
  show (outcome request (endStream ending { observedCompletion := 0 + _ })).accounting.observedCompletion = _
  rw [outcome_observed]
  exact Int.zero_add _

/-- A character above ASCII is a token. -/
theorem roughTokens_char {c : Char} (hc : 128 ≤ c.toNat) : roughTokens (.string [ofChar c] : Value φ) = 1 := by
  have hval : (ofChar c).val = c.toNat := rfl
  have hescape : escape (ofChar c) = [ofChar c] := by
    unfold escape
    split <;> first | omega | skip
    rw [if_neg (by omega)]
  have hdumps : dumps (.string [ofChar c] : Value φ) = ofString "\"" ++ [ofChar c] ++ ofString "\"" := by
    simp [dumps, dumpsString, hescape]
  have hlen : (dumps (.string [ofChar c] : Value φ)).length = 3 := by
    rw [hdumps]
    rfl
  have hquoted : dumps (.string [ofChar c] : Value φ) ≠ emptyString := by
    intro hempty
    rw [hempty] at hlen
    exact absurd hlen (by decide +kernel)
  have hne : dumps (.string [ofChar c] : Value φ) ≠ [] := by
    intro hnil
    rw [hnil] at hlen
    cases hlen
  rw [roughTokens_of_ne hne hquoted, hlen]
  rfl

/-- The bytes of the event, before and after its text. -/
def streamBefore : List UInt8 := contentBefore.flatMap String.utf8EncodeChar

def streamAfter : List UInt8 := (contentAfter ++ ['\n']).flatMap String.utf8EncodeChar

theorem decode_streamBefore : decode streamBefore = contentBefore := decode_encoded contentBefore

theorem decode_streamAfter : decode streamAfter = contentAfter ++ ['\n'] := decode_encoded (contentAfter ++ ['\n'])

/-- **A divided character is lost.** Wherever the chunks divide the text of an
event that consists of one character, the text is not counted. -/
theorem divided_lost (request : StreamRequest) (ending : Ending) (hlimit : 4 ≤ Interpreter.recursionLimit φ)
    {c : Char} {x y : List UInt8} (hc : String.utf8EncodeChar c = x ++ y) (hx : x ≠ []) (hy : y ≠ []) :
    (streamBackend φ request [streamBefore ++ x, y ++ streamAfter] ending).accounting.observedCompletion = 0 ∧
      (streamBackend φ request [streamBefore ++ (x ++ y) ++ streamAfter] ending).accounting.observedCompletion =
        1 := by
  obtain ⟨hleft, hright, hwhole⟩ := decode_divided hc hx hy streamBefore streamAfter
  have hchar : 128 ≤ c.toNat := by
    have hsize : c.utf8Size = x.length + y.length := by
      rw [← String.length_utf8EncodeChar, hc, List.length_append]
    have hxpos := List.length_pos_of_ne_nil hx
    have hypos := List.length_pos_of_ne_nil hy
    have hone : ¬ c.val ≤ 127 := fun hle => by
      have := Char.utf8Size_eq_one_iff.mpr hle
      omega
    rw [UInt32.le_iff_toNat_le] at hone
    exact Nat.lt_of_not_le hone
  have hplain : ∀ d ∈ [c], Plain d := by
    intro d hd
    rw [List.mem_singleton.mp hd]
    refine ⟨?_, ?_, by omega⟩
    · rintro rfl
      exact absurd hchar (by decide)
    · rintro rfl
      exact absurd hchar (by decide)
  constructor
  · have htext : [streamBefore ++ x, y ++ streamAfter].flatMap decode =
        contentBefore ++ [] ++ contentAfter ++ ['\n'] := by
      rw [List.flatMap_cons, List.flatMap_singleton, hleft, hright, decode_streamBefore, decode_streamAfter]
      simp
    rw [observed_content request ending hlimit (fun _ hmem => absurd hmem List.not_mem_nil) htext]
    rfl
  · have htext : [streamBefore ++ (x ++ y) ++ streamAfter].flatMap decode =
        contentBefore ++ [c] ++ contentAfter ++ ['\n'] := by
      rw [List.flatMap_singleton, hwhole, decode_streamBefore, decode_streamAfter]
      simp
    rw [observed_content request ending hlimit hplain htext, List.map_singleton, roughTokens_char hchar]
    rfl

/-- `data: [DONE]` -/
def streamDone : List UInt8 := (dataField ++ doneEvent ++ ['\n']).flatMap String.utf8EncodeChar

def demoRequest : StreamRequest :=
  { promptEstimate := 7, leaseEstimatedTokens := 100, quotaChargeRequestedMaximum := false }

/-- The two bytes of an é in two chunks: a token less is settled. -/
theorem token_lost :
    [streamBefore ++ [0xc3], [0xa9] ++ streamAfter ++ streamDone].flatten =
        [streamBefore ++ [0xc3, 0xa9] ++ streamAfter ++ streamDone].flatten ∧
      (streamBackend (List Char) demoRequest [streamBefore ++ [0xc3], [0xa9] ++ streamAfter ++ streamDone]
        .complete).settlement = ⟨7, 7, 0, none⟩ ∧
      (streamBackend (List Char) demoRequest [streamBefore ++ [0xc3, 0xa9] ++ streamAfter ++ streamDone]
        .complete).settlement = ⟨8, 7, 1, none⟩ := by
  decide +kernel

/-- A stream that is cut after the é. -/
theorem chunks_irrelevant_after :
    streamBackend (List Char) demoRequest [streamBefore ++ [0xc3, 0xa9], streamAfter ++ streamDone] .complete =
      streamBackend (List Char) demoRequest [streamBefore ++ [0xc3, 0xa9] ++ streamAfter ++ streamDone] .complete :=
  chunks_irrelevant _ _ _ _ (by decide +kernel) (whole_of_first (by decide +kernel)) (whole_singleton _)

end Api
end LlmRio
