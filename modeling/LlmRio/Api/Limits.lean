/-
# The limits of a request

`_validate_request` compares a request with the context of its model, with
the model's cap on the prompt and with the caps of the settings, and returns
what is reserved for it and the output limit that `chat_completions` forwards
as `max_tokens` when the client gives none.

A forwarded cap is within all the limits, and the reservation covers it, with
two exceptions. An injected limit is what is left of the context, which may be
nothing. And of a client's two caps only `max_completion_tokens` is looked at,
while `max_tokens` is forwarded too.

Key definitions: `validateRequest`, `chatPayload`, `Covered`, `Bounded`.
Key theorems: `validateRequest_ok`, `covered_iff`.
-/
import LlmRio.Api.Tokens

namespace LlmRio
namespace Api

open Json Utf8 Transactions

/-- The limits of the configuration are positive. -/
structure Settings where
  maxPromptTokens : Option ℤ := none
  maxOutputTokens : Option ℤ := none
  maxN : Option ℤ := none
  maxPromptTokens_pos : ∀ k ∈ maxPromptTokens, 0 < k := by simp
  maxOutputTokens_pos : ∀ k ∈ maxOutputTokens, 0 < k := by simp
  maxN_pos : ∀ k ∈ maxN, 0 < k := by simp

/-- `request_limits` and `capabilities` of a model. -/
structure ModelLimits where
  maxContextTokens : ℤ
  maxPromptTokens : Option ℤ := none
  capabilities : List String := []

variable {φ : Type}

/-- What is looked at of a request, as it is validated. -/
structure ChatCompletionRequest (φ : Type) where
  messages : List (List (Text × Value φ))
  maxTokens : Option ℤ := none
  maxCompletionTokens : Option ℤ := none
  n : ℤ := 1
  responseFormat : Option (List (Text × Value φ)) := none
  messages_ne : messages ≠ []
  maxTokens_pos : ∀ k ∈ maxTokens, 0 < k := by simp
  maxCompletionTokens_pos : ∀ k ∈ maxCompletionTokens, 0 < k := by simp
  n_pos : 1 ≤ n := by decide

/-- `output_limit` -/
def ChatCompletionRequest.outputLimit (body : ChatCompletionRequest φ) : Option ℤ :=
  match body.maxCompletionTokens with
  | some k => some k
  | none => body.maxTokens

section limits

variable (cfg : Settings) (limits : ModelLimits) (body : ChatCompletionRequest φ)

/-- `max_prompt_tokens` -/
def promptCap : ℤ :=
  match limits.maxPromptTokens, cfg.maxPromptTokens with
  | some raw, some k => min raw k
  | some raw, none => raw
  | none, some k => min k limits.maxContextTokens
  | none, none => limits.maxContextTokens

/-- `max_output_tokens` -/
def outputCap : Option ℤ := cfg.maxOutputTokens.map fun k => min k limits.maxContextTokens

/-- `remaining_context_tokens` -/
def remainingContext (promptTokens : ℕ) : ℤ := max 0 (limits.maxContextTokens - promptTokens)

/-- `enforced_output_limit` -/
def enforcedOutputLimit (promptTokens : ℕ) : Option ℤ :=
  match body.outputLimit, outputCap cfg limits with
  | none, some k => some (min k (remainingContext limits promptTokens))
  | _, _ => none

/-- `reservation_output_tokens` -/
def reservationOutput (promptTokens : ℕ) : ℤ :=
  match body.outputLimit, enforcedOutputLimit cfg limits body promptTokens with
  | some k, _ => k
  | none, some k => k
  | none, none => remainingContext limits promptTokens

def refuse (code message : String) : Except Raised Unit := .error (.rioError code message 400)

def checkPrompt (promptTokens : ℕ) : Except Raised Unit :=
  if promptCap cfg limits < promptTokens then
    refuse "context_length_exceeded" "The prompt exceeds the configured limit"
  else .ok ()

/-- The checks of the output that the client asks for. -/
def checkOutput (promptTokens : ℕ) : Except Raised Unit :=
  match body.outputLimit with
  | none => .ok ()
  | some k =>
    if limits.maxContextTokens < promptTokens + k then
      refuse "context_length_exceeded" "Prompt plus output exceeds the model context"
    else if (outputCap cfg limits).any (· < k) then
      refuse "max_tokens_exceeded" "The requested output limit is too high"
    else .ok ()

def checkChoices : Except Raised Unit :=
  if cfg.maxN.any (· < body.n) then refuse "n_exceeded" "The requested number of choices is too high"
  else .ok ()

def checkFormat : Except Raised Unit :=
  if body.responseFormat.any (! ·.isEmpty) ∧ "structured_output" ∉ limits.capabilities then
    refuse "structured_output_not_supported" "Structured output was not validated for this model profile"
  else .ok ()

/-- `_validate_request`: the prompt's estimate, what is reserved, and the limit
to inject. -/
def validateRequest [Interpreter φ] : Except Raised (ℕ × ℤ × Option ℤ) := do
  let accountingMessages ← messagesForAccounting body.messages
  let promptTokens := roughTokens accountingMessages
  let reservationPromptTokens ← (conservativePromptTokens accountingMessages).elim (.error .unicodeEncodeError) .ok
  checkPrompt cfg limits promptTokens
  checkOutput cfg limits body promptTokens
  checkChoices cfg body
  checkFormat limits body
  pure (promptTokens, reservationPromptTokens + reservationOutput cfg limits body promptTokens * body.n,
    enforcedOutputLimit cfg limits body promptTokens)

end limits

/-- What is forwarded of a request. -/
structure Payload (φ : Type) where
  messages : List (List (Text × Value φ))
  maxTokens : Option ℤ
  maxCompletionTokens : Option ℤ
  n : ℤ
  responseFormat : Option (List (Text × Value φ))

/-- `payload` in `chat_completions`. -/
def chatPayload (body : ChatCompletionRequest φ) (enforced : Option ℤ) : Payload φ where
  messages := body.messages
  maxTokens := enforced.or body.maxTokens
  maxCompletionTokens := body.maxCompletionTokens
  n := body.n
  responseFormat := body.responseFormat

def Payload.outputCaps (payload : Payload φ) : List ℤ :=
  payload.maxTokens.toList ++ payload.maxCompletionTokens.toList

/-! ### What a validated request keeps to -/

/-- The caps that are forwarded are within the limits, and the reservation
covers what they allow, or the rest of the context if there are none. -/
structure Covered (cfg : Settings) (limits : ModelLimits) (promptTokens : ℕ) (reserved : ℤ) (payload : Payload φ) :
    Prop where
  prompt : promptTokens ≤ promptCap cfg limits
  caps : ∀ cap ∈ payload.outputCaps, 1 ≤ cap ∧ (∀ k ∈ cfg.maxOutputTokens, cap ≤ k) ∧
    promptTokens + cap ≤ limits.maxContextTokens ∧ promptTokens + payload.n * cap ≤ reserved
  uncapped : payload.outputCaps = [] → promptTokens + payload.n * remainingContext limits promptTokens ≤ reserved

/-- The boundaries at which the pieces disagree are not reached. -/
structure Bounded [Interpreter φ] (cfg : Settings) (limits : ModelLimits) (body : ChatCompletionRequest φ)
    (accounting : Value φ) : Prop where
  /-- An injected limit has room in the context. -/
  room : body.outputLimit = none → cfg.maxOutputTokens ≠ none → roughTokens accounting < limits.maxContextTokens
  /-- A `max_tokens` beside a `max_completion_tokens` would have passed the
  same checks, and the bytes of the prompt make up for what it exceeds it by. -/
  spare : ∀ k ∈ body.maxTokens, ∀ c ∈ body.maxCompletionTokens, (∀ m ∈ cfg.maxOutputTokens, k ≤ m) ∧
    roughTokens accounting + k ≤ limits.maxContextTokens ∧
      ∀ bytes ∈ conservativePromptTokens accounting, roughTokens accounting + body.n * k ≤ bytes + body.n * c

variable {cfg : Settings} {limits : ModelLimits} {body : ChatCompletionRequest φ} {promptTokens : ℕ}

theorem outputLimit_none (hk : body.maxTokens = none) (hc : body.maxCompletionTokens = none) :
    body.outputLimit = none := by
  simp [ChatCompletionRequest.outputLimit, hc, hk]

theorem checkPrompt_ok (h : checkPrompt cfg limits promptTokens = .ok ()) : promptTokens ≤ promptCap cfg limits := by
  obtain ⟨hle, -⟩ := guard_eq_ok.mp h
  omega

/-- A cap that the client gives has passed the checks. -/
theorem checkOutput_ok (h : checkOutput cfg limits body promptTokens = .ok ()) {k : ℤ}
    (hk : body.outputLimit = some k) :
    promptTokens + k ≤ limits.maxContextTokens ∧ ∀ m ∈ cfg.maxOutputTokens, k ≤ m := by
  unfold checkOutput at h
  rw [hk] at h
  obtain ⟨hcontext, h⟩ := guard_eq_ok.mp h
  obtain ⟨hcap, -⟩ := guard_eq_ok.mp h
  refine ⟨by omega, fun m hm => ?_⟩
  have hbelow : ¬ min m limits.maxContextTokens < k := by
    simpa [outputCap, Option.mem_def.mp hm] using hcap
  omega

/-- What a request that is accepted has passed, and what is returned for it. -/
theorem validateRequest_ok [Interpreter φ] {reserved : ℤ} {enforced : Option ℤ}
    (h : validateRequest cfg limits body = .ok (promptTokens, reserved, enforced)) {accounting : Value φ}
    (ha : messagesForAccounting body.messages = .ok accounting) :
    promptTokens = roughTokens accounting ∧ checkPrompt cfg limits promptTokens = .ok () ∧
      checkOutput cfg limits body promptTokens = .ok () ∧
      enforced = enforcedOutputLimit cfg limits body promptTokens ∧
      ∃ bytes, conservativePromptTokens accounting = some bytes ∧
        reserved = bytes + reservationOutput cfg limits body promptTokens * body.n := by
  unfold validateRequest at h
  obtain ⟨value, hvalue, h⟩ := bind_eq_ok.mp h
  rw [ha] at hvalue
  cases hvalue
  obtain ⟨bytes, hbytes, h⟩ := bind_eq_ok.mp h
  obtain ⟨⟨⟩, hprompt, h⟩ := bind_eq_ok.mp h
  obtain ⟨⟨⟩, houtput, h⟩ := bind_eq_ok.mp h
  obtain ⟨⟨⟩, -, h⟩ := bind_eq_ok.mp h
  obtain ⟨⟨⟩, -, h⟩ := bind_eq_ok.mp h
  cases h
  refine ⟨rfl, hprompt, houtput, rfl, bytes, ?_, rfl⟩
  cases hcount : conservativePromptTokens accounting with
  | none =>
    rw [hcount] at hbytes
    cases hbytes
  | some n =>
    rw [hcount] at hbytes
    cases hbytes
    rfl

section cases

variable {bytes : ℕ}

/-- What is reserved for a cap covers it. -/
theorem covers (hprompt : promptTokens ≤ bytes) (cap n : ℤ) : promptTokens + n * cap ≤ bytes + cap * n := by
  have hle : (promptTokens : ℤ) ≤ bytes := by exact_mod_cast hprompt
  rw [Int.mul_comm cap n]
  omega

/-- The bounds on a cap of the client that has been checked. -/
theorem checked_cap (hprompt : promptTokens ≤ bytes) (houtput : checkOutput cfg limits body promptTokens = .ok ())
    {k : ℤ} (hk : body.outputLimit = some k) (hpos : 0 < k) :
    1 ≤ k ∧ (∀ m ∈ cfg.maxOutputTokens, k ≤ m) ∧ promptTokens + k ≤ limits.maxContextTokens ∧
      promptTokens + body.n * k ≤ bytes + k * body.n := by
  obtain ⟨hcontext, hmax⟩ := checkOutput_ok houtput hk
  exact ⟨by omega, hmax, hcontext, covers hprompt k body.n⟩

/-- A client that gives both caps: `max_tokens` is on its own. -/
theorem covered_both (hprompt : promptTokens ≤ bytes) (hcap : promptTokens ≤ promptCap cfg limits)
    (houtput : checkOutput cfg limits body promptTokens = .ok ()) {k c : ℤ} (hk : body.maxTokens = some k)
    (hc : body.maxCompletionTokens = some c) :
    Covered cfg limits promptTokens (bytes + reservationOutput cfg limits body promptTokens * body.n)
        (chatPayload body (enforcedOutputLimit cfg limits body promptTokens)) ↔
      (∀ m ∈ cfg.maxOutputTokens, k ≤ m) ∧ promptTokens + k ≤ limits.maxContextTokens ∧
        promptTokens + body.n * k ≤ bytes + body.n * c := by
  have hlimit : body.outputLimit = some c := by simp [ChatCompletionRequest.outputLimit, hc]
  have hreserved : reservationOutput cfg limits body promptTokens = c := by simp [reservationOutput, hlimit]
  have hcaps : (chatPayload body (enforcedOutputLimit cfg limits body promptTokens)).outputCaps = [k, c] := by
    simp [chatPayload, Payload.outputCaps, enforcedOutputLimit, hlimit, hk, hc]
  have hchecked := checked_cap hprompt houtput hlimit (body.maxCompletionTokens_pos c hc)
  have hkpos := body.maxTokens_pos k hk
  rw [hreserved]
  constructor
  · intro h
    obtain ⟨-, hmax, hcontext, hcovered⟩ := h.caps k (by simp [hcaps])
    rw [Int.mul_comm c body.n] at hcovered
    exact ⟨hmax, hcontext, hcovered⟩
  · intro h
    obtain ⟨hmax, hcontext, hspare⟩ := h
    refine ⟨hcap, fun cap hmem => ?_, fun hnil => ?_⟩
    · rw [hcaps, List.mem_cons, List.mem_singleton] at hmem
      rcases hmem with rfl | rfl
      · rw [Int.mul_comm c body.n]
        exact ⟨by omega, hmax, hcontext, hspare⟩
      · exact hchecked
    · rw [hcaps] at hnil
      cases hnil

theorem outputLimit_one {c : ℤ} (hc : body.outputLimit = some c)
    (hone : body.maxTokens = none ∨ body.maxCompletionTokens = none) :
    (body.maxTokens = none ∧ body.maxCompletionTokens = some c) ∨
      (body.maxTokens = some c ∧ body.maxCompletionTokens = none) := by
  unfold ChatCompletionRequest.outputLimit at hc
  rcases hone with hk | hcompletion
  · left
    refine ⟨hk, ?_⟩
    rw [hk] at hc
    split at hc
    · rename_i hcompletion
      rw [hcompletion, hc]
    · cases hc
  · rw [hcompletion] at hc
    exact .inr ⟨hc, hcompletion⟩

/-- A client that gives one cap: all is well. -/
theorem covered_one (hprompt : promptTokens ≤ bytes) (hcap : promptTokens ≤ promptCap cfg limits)
    (houtput : checkOutput cfg limits body promptTokens = .ok ()) {c : ℤ} (hc : body.outputLimit = some c)
    (hone : body.maxTokens = none ∨ body.maxCompletionTokens = none) :
    Covered cfg limits promptTokens (bytes + reservationOutput cfg limits body promptTokens * body.n)
      (chatPayload body (enforcedOutputLimit cfg limits body promptTokens)) := by
  have hreserved : reservationOutput cfg limits body promptTokens = c := by simp [reservationOutput, hc]
  have hcaps : (chatPayload body (enforcedOutputLimit cfg limits body promptTokens)).outputCaps = [c] := by
    rcases outputLimit_one hc hone with ⟨hk, hcompletion⟩ | ⟨hk, hcompletion⟩
    · simp [chatPayload, Payload.outputCaps, enforcedOutputLimit, hc, hk, hcompletion]
    · simp [chatPayload, Payload.outputCaps, enforcedOutputLimit, hc, hk, hcompletion]
  have hpos : 0 < c := by
    rcases outputLimit_one hc hone with ⟨-, hcompletion⟩ | ⟨hk, -⟩
    · exact body.maxCompletionTokens_pos c hcompletion
    · exact body.maxTokens_pos c hk
  rw [hreserved]
  refine ⟨hcap, fun cap hmem => ?_, fun hnil => ?_⟩
  · rw [hcaps, List.mem_singleton] at hmem
    rw [hmem]
    exact checked_cap hprompt houtput hc hpos
  · rw [hcaps] at hnil
    cases hnil

/-- A client that gives no cap, and settings without one: nothing is injected. -/
theorem covered_uncapped (hprompt : promptTokens ≤ bytes) (hcap : promptTokens ≤ promptCap cfg limits)
    (hk : body.maxTokens = none) (hc : body.maxCompletionTokens = none) (hm : cfg.maxOutputTokens = none) :
    Covered cfg limits promptTokens (bytes + reservationOutput cfg limits body promptTokens * body.n)
      (chatPayload body (enforcedOutputLimit cfg limits body promptTokens)) := by
  have hlimit := outputLimit_none hk hc
  have hnone : enforcedOutputLimit cfg limits body promptTokens = none := by
    simp [enforcedOutputLimit, hlimit, outputCap, hm]
  have hreserved : reservationOutput cfg limits body promptTokens = remainingContext limits promptTokens := by
    simp [reservationOutput, hlimit, hnone]
  have hcaps : (chatPayload body (none : Option ℤ)).outputCaps = [] := by
    simp [chatPayload, Payload.outputCaps, hk, hc]
  rw [hreserved, hnone]
  refine ⟨hcap, fun cap hmem => ?_, fun _ => ?_⟩
  · rw [hcaps] at hmem
    cases hmem
  · exact covers hprompt _ body.n

/-- An injected cap needs room in the context. -/
theorem covered_injected (hprompt : promptTokens ≤ bytes) (hcap : promptTokens ≤ promptCap cfg limits)
    (hpos : 1 ≤ promptTokens) (hk : body.maxTokens = none) (hc : body.maxCompletionTokens = none) {m : ℤ}
    (hm : cfg.maxOutputTokens = some m) :
    Covered cfg limits promptTokens (bytes + reservationOutput cfg limits body promptTokens * body.n)
        (chatPayload body (enforcedOutputLimit cfg limits body promptTokens)) ↔
      promptTokens < limits.maxContextTokens := by
  have hlimit := outputLimit_none hk hc
  obtain ⟨e, he⟩ : ∃ e, e = min (min m limits.maxContextTokens) (remainingContext limits promptTokens) := ⟨_, rfl⟩
  have hsome : enforcedOutputLimit cfg limits body promptTokens = some e := by
    simp [enforcedOutputLimit, hlimit, outputCap, hm, he]
  have hreserved : reservationOutput cfg limits body promptTokens = e := by
    simp [reservationOutput, hlimit, hsome]
  have hcaps : (chatPayload body (some e)).outputCaps = [e] := by
    simp [chatPayload, Payload.outputCaps, hc]
  have hmpos := cfg.maxOutputTokens_pos m hm
  unfold remainingContext at he
  rw [hreserved, hsome]
  constructor
  · intro h
    obtain ⟨hone, -⟩ := h.caps e (by simp [hcaps])
    omega
  · intro hroom
    refine ⟨hcap, fun cap hmem => ?_, fun hnil => ?_⟩
    · rw [hcaps, List.mem_singleton] at hmem
      rw [hmem]
      refine ⟨by omega, fun k hk => ?_, by omega, covers hprompt e body.n⟩
      rw [hm] at hk
      cases hk
      omega
    · rw [hcaps] at hnil
      cases hnil

end cases

section bounded

variable [Interpreter φ] {accounting : Value φ}

theorem bounded_one {c : ℤ} (hc : body.outputLimit = some c)
    (hone : body.maxTokens = none ∨ body.maxCompletionTokens = none) : Bounded cfg limits body accounting := by
  refine ⟨fun hnone => ?_, fun k hk c' hc' => ?_⟩
  · rw [hc] at hnone
    cases hnone
  · rcases hone with hnone | hnone
    · rw [hnone] at hk
      cases hk
    · rw [hnone] at hc'
      cases hc'

theorem bounded_none (hk : body.maxTokens = none) (hc : body.maxCompletionTokens = none) :
    Bounded cfg limits body accounting ↔
      (cfg.maxOutputTokens ≠ none → roughTokens accounting < limits.maxContextTokens) := by
  have hlimit := outputLimit_none hk hc
  refine ⟨fun h => h.room hlimit, fun h => ⟨fun _ => h, fun k hk' => ?_⟩⟩
  rw [hk] at hk'
  cases hk'

theorem bounded_both {k c : ℤ} {bytes : ℕ} (hk : body.maxTokens = some k) (hc : body.maxCompletionTokens = some c)
    (hbytes : conservativePromptTokens accounting = some bytes) :
    Bounded cfg limits body accounting ↔ (∀ m ∈ cfg.maxOutputTokens, k ≤ m) ∧
      roughTokens accounting + k ≤ limits.maxContextTokens ∧
        roughTokens accounting + body.n * k ≤ bytes + body.n * c := by
  constructor
  · intro h
    obtain ⟨hmax, hcontext, hspare⟩ := h.spare k hk c hc
    exact ⟨hmax, hcontext, hspare bytes hbytes⟩
  · rintro ⟨hmax, hcontext, hspare⟩
    refine ⟨fun hnone => ?_, fun k' hk' c' hc' => ?_⟩
    · simp [ChatCompletionRequest.outputLimit, hc] at hnone
    · rw [hk] at hk'
      rw [hc] at hc'
      cases hk'
      cases hc'
      refine ⟨hmax, hcontext, fun n hn => ?_⟩
      rw [hbytes] at hn
      cases hn
      exact hspare

end bounded

/-- **Accepted requests are consistent, up to two boundaries.** The caps that
are forwarded for an accepted request are within all limits and covered by its
reservation if and only if an injected cap has room in the context and a
`max_tokens` that is not looked at is within them by itself. -/
theorem covered_iff [Interpreter φ] (cfg : Settings) (limits : ModelLimits) (body : ChatCompletionRequest φ)
    (promptTokens : ℕ) (reserved : ℤ) (enforced : Option ℤ)
    (h : validateRequest cfg limits body = .ok (promptTokens, reserved, enforced)) (accounting : Value φ)
    (ha : messagesForAccounting body.messages = .ok accounting) :
    Covered cfg limits promptTokens reserved (chatPayload body enforced) ↔ Bounded cfg limits body accounting := by
  obtain ⟨rfl, hprompt, houtput, rfl, bytes, hbytes, rfl⟩ := validateRequest_ok h ha
  have hcap := checkPrompt_ok hprompt
  have hle : roughTokens accounting ≤ bytes := roughTokens_le hbytes
  have hpos : 1 ≤ roughTokens accounting := by
    obtain ⟨xs, rfl⟩ := messagesForAccounting_list ha
    exact roughTokens_list_pos xs
  rcases hc : body.maxCompletionTokens with _ | c
  · rcases hk : body.maxTokens with _ | k
    · rw [bounded_none hk hc]
      rcases hm : cfg.maxOutputTokens with _ | m
      · exact ⟨fun _ hne => absurd rfl hne, fun _ => covered_uncapped hle hcap hk hc hm⟩
      · rw [covered_injected hle hcap hpos hk hc hm]
        exact ⟨fun hroom _ => hroom, fun hroom => hroom (by simp)⟩
    · have hlimit : body.outputLimit = some k := by simp [ChatCompletionRequest.outputLimit, hc, hk]
      exact ⟨fun _ => bounded_one hlimit (.inr hc), fun _ => covered_one hle hcap houtput hlimit (.inr hc)⟩
  · have hlimit : body.outputLimit = some c := by simp [ChatCompletionRequest.outputLimit, hc]
    rcases hk : body.maxTokens with _ | k
    · exact ⟨fun _ => bounded_one hlimit (.inl hk), fun _ => covered_one hle hcap houtput hlimit (.inl hk)⟩
    · rw [covered_both hle hcap houtput hk hc, bounded_both hk hc hbytes]

/-! ### A prompt that fills the context -/

/-- A message of eight estimated tokens. -/
def greeting : List (Text × Value (List Char)) :=
  [(ofString "role", .string (ofString "user")), (ofString "content", .string (ofString "hi"))]

def greetingRequest : ChatCompletionRequest (List Char) where
  messages := [greeting]
  messages_ne := by simp

theorem greeting_accounting : messagesForAccounting greetingRequest.messages = .ok (.list [.dict greeting]) := rfl

/-- The settings' cap on the output. -/
def capped : Settings := { maxOutputTokens := some 5 }

/-- The prompt leaves nothing of the context, and `max_tokens` is 0. -/
theorem injected_nothing :
    validateRequest capped { maxContextTokens := 8 } greetingRequest = .ok (8, 32, some 0) ∧
      ¬ Covered capped { maxContextTokens := 8 } 8 32 (chatPayload greetingRequest (some 0)) := by
  refine ⟨by decide +kernel, fun h => ?_⟩
  obtain ⟨hone, -⟩ := h.caps 0 (by decide)
  omega

theorem covered_iff_room :
    Covered capped { maxContextTokens := 100 } 8 37 (chatPayload greetingRequest (some 5)) := by
  have haccepted : validateRequest capped { maxContextTokens := 100 } greetingRequest = .ok (8, 37, some 5) := by
    decide +kernel
  have hestimate : roughTokens (.list [.dict greeting]) = 8 := by decide +kernel
  rw [covered_iff _ _ _ _ _ _ haccepted _ greeting_accounting, bounded_none rfl rfl, hestimate]
  intro _
  decide

end Api
end LlmRio
