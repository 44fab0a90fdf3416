/-
# What a probe measures

`_probe_vllm` starts an engine on a set of GPUs, waits until it is healthy,
lets it answer a request and, where weights are cached in RAM, puts it to
sleep, wakes it and lets it answer again. Between its requests it asks the
scheduler whether production wants the GPUs, and if so it yields them.

What the engine answers, what NVML reads and what the scheduler says are a
script of the probe; the requests and checks are made in the order of the
source, and what they measure is the result.

Key definitions: `ValidationError`, `waitForHealth`, `generationContract`,
`sleepWakeContract`, `contract`.
Key theorems: `tally_peak`, `contract_measured`.
-/
import LlmRio.Api.Tokens
import LlmRio.Lib.Transactions
import LlmRio.Runtime.Acquisition

namespace LlmRio
namespace Probing

open Json Utf8

/-- `ValidationError`; `preempted` are those of its subclass `ValidationPreempted`. -/
structure ValidationError where
  stage : String
  message : String
  details : List (String × String) := []
  preempted : Bool := false
deriving DecidableEq, Repr

def validationPreempted : ValidationError where
  stage := "validation"
  message := "validation yielded to production inference"
  preempted := true

/-- `exc.details.setdefault` -/
def ValidationError.setdefault (key value : String) (e : ValidationError) : ValidationError :=
  if e.details.any (·.1 = key) then e else { e with details := e.details ++ [(key, value)] }

inductive Raised
  | validation (e : ValidationError)
  | other (e : Acquisition.Raised)
deriving DecidableEq, Repr

def unexpected {α : Type} (name : String) : Except Raised α := .error (.other (.exception name))

def invalid {α : Type} (stage message : String) (details : List (String × String) := []) : Except Raised α :=
  .error (.validation { stage := stage, message := message, details := details })

def invalidIf (b : Bool) (stage message : String) : Except Raised Unit := if b then invalid stage message else pure ()

/-- `if self.scheduler.validation_should_yield()` -/
def yieldIf (shouldYield : Bool) : Except Raised Unit :=
  if shouldYield then .error (.validation validationPreempted) else pure ()

def orRaise (e : Option Acquisition.Raised) : Except Raised Unit :=
  match e with
  | some e => .error (.other e)
  | none => pure ()

/-! ### `_model_launch_args` -/

section

variable {φ : Type} [Interpreter φ]

/-- `architecture_names`, as far as it is asked for: the names are those of a
list, but whatever the architectures are is iterated. -/
def namesDeepseekV4 : Value φ → Except Raised Bool
  | .list names => pure (names.any fun name =>
      match name with
      | .string s => s = ofString "DeepseekV4ForCausalLM"
      | _ => false)
  | .string _ | .dict _ => pure false
  | .null | .bool _ | .int _ | .float _ => unexpected "TypeError"

/-- `_model_launch_args`, for what `config.json` holds if there is one. -/
def modelLaunchArgs : Option (Value φ) → Except Raised (List (Text × Value ℚ))
  | none => pure []
  | some (.dict config) => do
    let named ← namesDeepseekV4 (Api.getOrNone "architectures" config)
    let typed : Bool := match Api.getOrNone "model_type" config with
      | .string s => s = ofString "deepseek_v4"
      | _ => false
    pure (if typed || named then [(ofString "kv_cache_dtype", .string (ofString "fp8"))] else [])
  | some _ => unexpected "AttributeError"

end

/-! ### What the engine answers -/

/-- How a request to the engine ends. -/
inductive Answer
  | response (status : ℕ) (body : List Char)
  /-- An `httpx.HTTPError`. -/
  | httpError
  | raised (e : Acquisition.Raised)
deriving DecidableEq, Repr

def isSuccess (status : ℕ) : Bool := 200 ≤ status ∧ status ≤ 299

/-- `body[-2000:]` -/
def lastPart (body : List Char) : String := String.ofList (body.drop (body.length - 2000))

/-- One turn of the loop of `_wait_for_health`. -/
structure Poll where
  now : ℚ
  shouldYield : Bool
  returncode : Option ℤ
  health : Answer
  /-- What the sleep of a second raises. -/
  sleep : Option Acquisition.Raised

/-- An engine that cannot be reached is not healthy yet. -/
def healthy : Answer → Except Raised Bool
  | .response status _ => pure (isSuccess status)
  | .httpError => pure false
  | .raised e => .error (.other e)

/-- `process.returncode` is not None. -/
def exited : Option ℤ → Except Raised Unit
  | some status => invalid "engine_startup" s!"engine exited with status {status}"
  | none => pure ()

/-- `_wait_for_health`. When the script has no more turns the deadline is over;
without a deadline only a cancellation ends the loop. -/
def waitForHealth (deadline : Option ℚ) : List Poll → Except Raised Unit
  | [] =>
    if deadline.isSome then invalid "engine_startup" "engine health check timed out"
    else .error (.other .cancelled)
  | p :: polls => do
    invalidIf (deadline.any (· ≤ p.now)) "engine_startup" "engine health check timed out"
    yieldIf p.shouldYield
    exited p.returncode
    if ← healthy p.health then pure ()
    else
      orRaise p.sleep
      waitForHealth deadline polls

/-! ### What NVML reads -/

/-- The bytes in use on each GPU. -/
abbrev Reading := Except Acquisition.Raised (GpuUuid → ℕ)

def usedMib (gpuSet : List GpuUuid) (bytes : GpuUuid → ℕ) : List ℤ :=
  gpuSet.map fun gpu => ((bytes gpu / (1024 * 1024) : ℕ) : ℤ)

/-- `_used_vram` -/
def usedVram (gpuSet : List GpuUuid) : Reading → Except Raised (List ℤ)
  | .ok bytes => pure (usedMib gpuSet bytes)
  | .error e => .error (.other e)

/-! ### `_generation_contract` -/

def dataField : List Char := "data: ".toList

def doneEvent : List Char := "[DONE]".toList

/-- A line of the stream, with what there is when it is read. -/
structure Turn where
  shouldYield : Bool
  memory : Reading
  line : List Char

structure Generation where
  memory : Reading
  post : Answer
  turns : List Turn
  /-- How the stream breaks off. -/
  broken : Option Acquisition.Raised
  elapsed : ℚ
  returncode : Option ℤ

structure Tally where
  peak : List ℤ
  completionTokens : ℤ := 0
  sawDone : Bool := false

section

variable (φ : Type) [Interpreter φ] (gpuSet : List GpuUuid)

def onUsage (usage : Value φ) (t : Tally) : Except Raised Tally :=
  if usage.truthy then
    match usage with
    | .dict usage =>
      match ((Value.get? "completion_tokens" usage).getD (.int 0)).toInt with
      | some n => pure { t with completionTokens := n }
      -- or a TypeError, for a value that is no number
      | none => unexpected "ValueError"
    | _ => unexpected "AttributeError"
  else pure t

def onData (data : List Char) (t : Tally) : Except Raised Tally :=
  if data = doneEvent then pure { t with sawDone := true }
  else
    match (loads data : Except LoadError (Value φ)) with
    | .ok (.dict chunk) => onUsage φ (Api.getOrNone "usage" chunk) t
    | .ok _ => unexpected "AttributeError"
    | .error .jsonDecodeError => unexpected "JSONDecodeError"
    | .error .valueError => unexpected "ValueError"
    | .error .recursionError => unexpected "RecursionError"

def onTurn (t : Tally) (turn : Turn) : Except Raised Tally := do
  yieldIf turn.shouldYield
  let current ← usedVram gpuSet turn.memory
  let t := { t with peak := List.zipWith max t.peak current }
  if dataField.isPrefixOf turn.line then onData φ (turn.line.drop 6) t else pure t

/-- What the request is answered with. -/
def generated : Answer → Except Raised Unit
  | .response status body =>
    if isSuccess status then pure ()
    else invalid "generation" s!"generation returned HTTP {status}" [("body", lastPart body)]
  | .httpError => unexpected "HTTPError"
  | .raised e => .error (.other e)

/-- `_generation_contract`: the tokens per second, and the peak. -/
def generationContract (g : Generation) : Except Raised (ℚ × List ℤ) := do
  let peak ← usedVram gpuSet g.memory
  generated g.post
  let t ← g.turns.foldlM (onTurn φ gpuSet) { peak := peak }
  orRaise g.broken
  invalidIf (g.returncode.isSome || ! t.sawDone || t.completionTokens ≤ 0)
    "streaming_contract" "stream or usage contract failed"
  pure (t.completionTokens / max g.elapsed (1 / 1000), t.peak)

/-! ### `_sleep_wake_contract` -/

structure SleepWake where
  yieldsBefore : Bool
  sleep : Answer
  offloadSeconds : ℚ
  sleeping : Answer
  memory : Reading
  wake : Answer
  activationSeconds : ℚ
  awake : Answer
  yieldsAfter : Bool
  /-- The text of an `httpx.HTTPError` or a `ValueError`. -/
  text : String

/-- The post that puts the engine to sleep, or wakes it. -/
def posted (name text : String) : Answer → Except Raised Unit
  | .response status body =>
    if isSuccess status then pure ()
    else invalid "weight_cache" s!"{name} returned HTTP {status}" [("body", lastPart body)]
  | .httpError => invalid "weight_cache" text
  | .raised e => .error (.other e)

/-- `is_sleeping` of the engine; `none` if it is not a bool. -/
def isSleeping (text : String) : Answer → Except Raised (Option Bool)
  | .response status body =>
    if isSuccess status then
      match (loads body : Except LoadError (Value φ)) with
      | .ok (.dict state) =>
        match Api.getOrNone "is_sleeping" state with
        | .bool b => pure (some b)
        | _ => pure none
      | .ok _ => unexpected "AttributeError"
      | .error .recursionError => unexpected "RecursionError"
      | .error _ => invalid "weight_cache" text
    -- `raise_for_status`
    else invalid "weight_cache" text
  | .httpError => invalid "weight_cache" text
  | .raised e => .error (.other e)

/-- `_sleep_wake_contract`: the VRAM that is in use while the engine sleeps. -/
def sleepWakeContract (w : SleepWake) : Except Raised (List ℤ) := do
  yieldIf w.yieldsBefore
  posted "sleep" w.text w.sleep
  let asleep ← isSleeping φ w.text w.sleeping
  invalidIf (asleep ≠ some true) "weight_cache" "engine did not enter level-1 sleep"
  let sleepMemory ← usedVram gpuSet w.memory
  posted "wake" w.text w.wake
  let stillAsleep ← isSleeping φ w.text w.awake
  invalidIf (stillAsleep ≠ some false) "weight_cache" "engine remained asleep after wake"
  yieldIf w.yieldsAfter
  pure sleepMemory

/-! ### The contract of a probe -/

/-- What a probe meets once its engine has been launched. -/
structure Contract where
  deadline : Option ℚ
  polls : List Poll
  loadSeconds : ℚ
  /-- What `_capacity_from_log` finds. -/
  log : Except Acquisition.Raised (Option ℤ × Option ℚ)
  memory : Reading
  generation : Generation
  sleepWake : SleepWake
  /-- The generation after the wake. -/
  again : Generation

structure Measurement where
  loadSeconds : ℚ
  kvCacheCapacity : Option ℤ
  maxConcurrency : Option ℚ
  idleMemory : List ℤ
  throughput : ℚ
  peakMemory : List ℤ
  offloadSeconds : Option ℚ := none
  activationSeconds : Option ℚ := none
  sleepMemory : Option (List ℤ) := none

def capacityFromLog : Except Acquisition.Raised (Option ℤ × Option ℚ) → Except Raised (Option ℤ × Option ℚ)
  | .ok capacity => pure capacity
  | .error e => .error (.other e)

/-- What `_probe_vllm` does between the launch of its engine and the end of it. -/
def contract (ramWeightCacheEnabled : Bool) (c : Contract) : Except Raised Measurement := do
  waitForHealth c.deadline c.polls
  let capacity ← capacityFromLog c.log
  let idleMemory ← usedVram gpuSet c.memory
  let (throughput, peakMemory) ← generationContract φ gpuSet c.generation
  let m : Measurement :=
    { loadSeconds := c.loadSeconds, kvCacheCapacity := capacity.1, maxConcurrency := capacity.2
      idleMemory := idleMemory, throughput := throughput, peakMemory := peakMemory }
  if ramWeightCacheEnabled then
    let sleepMemory ← sleepWakeContract φ gpuSet c.sleepWake
    let (postWakeThroughput, postWakePeak) ← generationContract φ gpuSet c.again
    pure { m with
      throughput := min throughput postWakeThroughput
      peakMemory := List.zipWith max peakMemory postWakePeak
      offloadSeconds := some c.sleepWake.offloadSeconds
      activationSeconds := some c.sleepWake.activationSeconds
      sleepMemory := some sleepMemory }
  else pure m

end

/-! ### What has been measured -/

section

variable {φ : Type} [Interpreter φ] {gpuSet : List GpuUuid}

open Transactions

theorem yieldIf_ok {b : Bool} (h : yieldIf b = .ok ()) : b = false := by
  cases b with
  | false => rfl
  | true => cases h

theorem invalidIf_ok {b : Bool} {stage message : String} (h : invalidIf b stage message = .ok ()) : b = false := by
  cases b with
  | false => rfl
  | true => cases h

theorem usedVram_ok {r : Reading} {mib : List ℤ} (h : usedVram gpuSet r = .ok mib) :
    ∃ bytes, r = .ok bytes ∧ mib = usedMib gpuSet bytes := by
  cases r with
  | ok bytes => exact ⟨bytes, rfl, (Except.ok.inj h).symm⟩
  | error e => cases h

theorem usedMib_length (bytes : GpuUuid → ℕ) : (usedMib gpuSet bytes).length = gpuSet.length := List.length_map _

/-- An entry of the peak is at least that of the reading. -/
def Bounded (gpuSet : List GpuUuid) (peak : List ℤ) (bytes : GpuUuid → ℕ) : Prop :=
  List.Forall₂ (· ≤ ·) (usedMib gpuSet bytes) peak

theorem forall₂_le_zipWith {xs ys zs : List ℤ} (h : List.Forall₂ (· ≤ ·) xs ys) (hlen : ys.length = zs.length) :
    List.Forall₂ (· ≤ ·) xs (List.zipWith max ys zs) := by
  induction h generalizing zs with
  | nil => exact .nil
  | cons hle _ ih =>
    cases zs with
    | nil => simp at hlen
    | cons z zs => exact .cons (hle.trans (le_max_left _ z)) (ih (by simpa using hlen))

theorem forall₂_le_zipWith_right {xs ys : List ℤ} (hlen : xs.length = ys.length) :
    List.Forall₂ (· ≤ ·) ys (List.zipWith max xs ys) := by
  induction xs generalizing ys with
  | nil =>
    cases ys with
    | nil => exact .nil
    | cons => simp at hlen
  | cons x xs ih =>
    cases ys with
    | nil => simp at hlen
    | cons y ys => exact .cons (le_max_right x y) (ih (by simpa using hlen))

/-- What a line says changes no peak. -/
theorem onData_peak {data : List Char} {t t' : Tally} (h : onData φ data t = .ok t') : t'.peak = t.peak := by
  unfold onData at h
  split at h
  · cases h
    rfl
  · cases hchunk : (loads data : Except LoadError (Value φ)) with
    | error e => cases e <;> simp [hchunk, unexpected] at h
    | ok chunk =>
      cases chunk <;> simp only [hchunk, unexpected, reduceCtorEq] at h
      unfold onUsage at h
      split at h
      · split at h
        · split at h
          · cases h
            rfl
          · cases h
        · cases h
      · cases h
        rfl

theorem onTurn_ok {t t' : Tally} {turn : Turn} (h : onTurn φ gpuSet t turn = .ok t') :
    turn.shouldYield = false ∧
      ∃ bytes, turn.memory = .ok bytes ∧ t'.peak = List.zipWith max t.peak (usedMib gpuSet bytes) := by
  unfold onTurn at h
  obtain ⟨⟨⟩, hyield, h⟩ := bind_eq_ok.mp h
  obtain ⟨current, hcurrent, h⟩ := bind_eq_ok.mp h
  obtain ⟨bytes, hmemory, rfl⟩ := usedVram_ok hcurrent
  refine ⟨yieldIf_ok hyield, bytes, hmemory, ?_⟩
  split at h
  · exact onData_peak h
  · cases h
    rfl

/-- The lines have been read while production did not want the GPUs, and the
peak is at least what was read at each of them. -/
theorem tally_peak : ∀ {turns : List Turn} {t t' : Tally}, turns.foldlM (onTurn φ gpuSet) t = .ok t' →
    t.peak.length = gpuSet.length →
      t'.peak.length = gpuSet.length ∧ (∀ bytes, Bounded gpuSet t.peak bytes → Bounded gpuSet t'.peak bytes) ∧
      ∀ turn ∈ turns, turn.shouldYield = false ∧ ∃ bytes, turn.memory = .ok bytes ∧ Bounded gpuSet t'.peak bytes
  | [], t, t', h, hlen => by
    cases h
    exact ⟨hlen, fun _ => id, by simp⟩
  | turn :: turns, t, t', h, hlen => by
    obtain ⟨u, hturn, hrest⟩ := foldlM_cons_eq_ok.mp h
    obtain ⟨hyield, bytes, hmemory, hpeak⟩ := onTurn_ok hturn
    have hread : t.peak.length = (usedMib gpuSet bytes).length := hlen.trans (usedMib_length bytes).symm
    have hulen : u.peak.length = gpuSet.length := by
      rw [hpeak, List.length_zipWith, ← hread, min_self, hlen]
    obtain ⟨hlen', hkept, hturns⟩ := tally_peak hrest hulen
    have hmax : Bounded gpuSet u.peak bytes := by
      show List.Forall₂ (· ≤ ·) _ _
      rw [hpeak]
      exact forall₂_le_zipWith_right hread
    refine ⟨hlen', fun bytes' hbounded => hkept bytes' ?_, ?_⟩
    · show List.Forall₂ (· ≤ ·) _ _
      rw [hpeak]
      exact forall₂_le_zipWith hbounded hread
    · intro turn' hmem
      rcases List.mem_cons.mp hmem with rfl | hmem
      · exact ⟨hyield, bytes, hmemory, hkept bytes hmax⟩
      · exact hturns turn' hmem

/-- The memory has been read so, before the request of a generation or at one
of its lines. -/
def Observed (g : Generation) (bytes : GpuUuid → ℕ) : Prop :=
  g.memory = .ok bytes ∨ ∃ turn ∈ g.turns, turn.memory = .ok bytes

def Quiet (g : Generation) : Prop := ∀ turn ∈ g.turns, turn.shouldYield = false

theorem generationContract_ok {g : Generation} {rate : ℚ} {peak : List ℤ}
    (h : generationContract φ gpuSet g = .ok (rate, peak)) :
    0 < rate ∧ peak.length = gpuSet.length ∧ Quiet g ∧ ∀ bytes, Observed g bytes → Bounded gpuSet peak bytes := by
  unfold generationContract at h
  obtain ⟨first, hfirst, h⟩ := bind_eq_ok.mp h
  obtain ⟨bytes, hmemory, rfl⟩ := usedVram_ok hfirst
  obtain ⟨⟨⟩, -, h⟩ := bind_eq_ok.mp h
  obtain ⟨t, hturns, h⟩ := bind_eq_ok.mp h
  obtain ⟨⟨⟩, -, h⟩ := bind_eq_ok.mp h
  obtain ⟨⟨⟩, hcontract, h⟩ := bind_eq_ok.mp h
  obtain ⟨hlen, hkept, hread⟩ := tally_peak hturns (usedMib_length bytes)
  have hmet := invalidIf_ok hcontract
  simp only [Bool.or_eq_false_iff, decide_eq_false_iff_not, not_le] at hmet
  cases h
  refine ⟨?_, hlen, fun turn hturn => (hread turn hturn).1, ?_⟩
  · have htokens : (0 : ℚ) < t.completionTokens := by exact_mod_cast hmet.2
    have helapsed : (0 : ℚ) < max g.elapsed (1 / 1000) := lt_max_of_lt_right (by norm_num)
    exact div_pos htokens helapsed
  · rintro bytes' (hstart | ⟨turn, hturn, hmem⟩)
    · rw [hmemory] at hstart
      cases hstart
      exact hkept bytes (List.forall₂_same.mpr fun x _ => le_refl x)
    · obtain ⟨-, bytes'', hmem', hbounded⟩ := hread turn hturn
      rw [hmem] at hmem'
      cases hmem'
      exact hbounded

theorem sleepWakeContract_ok {w : SleepWake} {mib : List ℤ} (h : sleepWakeContract φ gpuSet w = .ok mib) :
    w.yieldsBefore = false ∧ w.yieldsAfter = false ∧ ∃ bytes, w.memory = .ok bytes ∧ mib = usedMib gpuSet bytes := by
  unfold sleepWakeContract at h
  obtain ⟨⟨⟩, hbefore, h⟩ := bind_eq_ok.mp h
  obtain ⟨⟨⟩, -, h⟩ := bind_eq_ok.mp h
  obtain ⟨asleep, -, h⟩ := bind_eq_ok.mp h
  obtain ⟨⟨⟩, -, h⟩ := bind_eq_ok.mp h
  obtain ⟨sleepMemory, hsleep, h⟩ := bind_eq_ok.mp h
  obtain ⟨⟨⟩, -, h⟩ := bind_eq_ok.mp h
  obtain ⟨stillAsleep, -, h⟩ := bind_eq_ok.mp h
  obtain ⟨⟨⟩, -, h⟩ := bind_eq_ok.mp h
  obtain ⟨⟨⟩, hafter, h⟩ := bind_eq_ok.mp h
  cases h
  exact ⟨yieldIf_ok hbefore, yieldIf_ok hafter, usedVram_ok hsleep⟩

/-- What a measurement says of what was read while it was made. -/
structure Measured (ramWeightCacheEnabled : Bool) (gpuSet : List GpuUuid) (c : Contract) (m : Measurement) :
    Prop where
  positive : 0 < m.throughput
  idle : ∃ bytes, c.memory = .ok bytes ∧ m.idleMemory = usedMib gpuSet bytes
  peakLength : m.peakMemory.length = gpuSet.length
  /-- Also what was read after the wake. -/
  peak : ∀ g, g = c.generation ∨ ramWeightCacheEnabled = true ∧ g = c.again →
    Quiet g ∧ ∀ bytes, Observed g bytes → Bounded gpuSet m.peakMemory bytes
  sleep : if ramWeightCacheEnabled then
      ∃ bytes, c.sleepWake.memory = .ok bytes ∧ m.sleepMemory = some (usedMib gpuSet bytes)
    else m.sleepMemory = none

theorem contract_measured {ramWeightCacheEnabled : Bool} {c : Contract} {m : Measurement}
    (h : contract φ gpuSet ramWeightCacheEnabled c = .ok m) : Measured ramWeightCacheEnabled gpuSet c m := by
  unfold contract at h
  obtain ⟨⟨⟩, -, h⟩ := bind_eq_ok.mp h
  obtain ⟨capacity, -, h⟩ := bind_eq_ok.mp h
  obtain ⟨idleMemory, hidle, h⟩ := bind_eq_ok.mp h
  obtain ⟨⟨throughput, peakMemory⟩, hgenerated, h⟩ := bind_eq_ok.mp h
  obtain ⟨hrate, hlen, hquiet, hbounded⟩ := generationContract_ok hgenerated
  cases ramWeightCacheEnabled with
  | false =>
    cases h
    refine ⟨hrate, usedVram_ok hidle, hlen, ?_, rfl⟩
    rintro g (rfl | ⟨hram, -⟩)
    · exact ⟨hquiet, hbounded⟩
    · cases hram
  | true =>
    obtain ⟨sleepMemory, hsleep, h⟩ := bind_eq_ok.mp h
    obtain ⟨⟨postWakeThroughput, postWakePeak⟩, hagain, h⟩ := bind_eq_ok.mp h
    obtain ⟨hrate', hlen', hquiet', hbounded'⟩ := generationContract_ok hagain
    obtain ⟨-, -, bytes, hmemory, rfl⟩ := sleepWakeContract_ok hsleep
    have hsame : peakMemory.length = postWakePeak.length := hlen.trans hlen'.symm
    cases h
    refine ⟨lt_min hrate hrate', usedVram_ok hidle, ?_, ?_, ⟨bytes, hmemory, rfl⟩⟩
    · rw [List.length_zipWith, hsame, min_self, hlen']
    · rintro g (rfl | ⟨-, rfl⟩)
      · exact ⟨hquiet, fun bytes' hobserved => forall₂_le_zipWith (hbounded bytes' hobserved) hsame⟩
      · refine ⟨hquiet', fun bytes' hobserved => ?_⟩
        rw [List.zipWith_comm_of_comm max_comm]
        exact forall₂_le_zipWith (hbounded' bytes' hobserved) hsame.symm

/-! ### The details of a failure -/

variable {α β : Type}

/-- The errors of the validation are as `P` says. -/
def FailsWith (P : ValidationError → Prop) (x : Except Raised α) : Prop := ∀ e, x = .error (.validation e) → P e

namespace FailsWith

variable {P : ValidationError → Prop}

protected theorem pure {a : α} : FailsWith P (pure a : Except Raised α) := nofun

protected theorem other {e : Acquisition.Raised} : FailsWith P (.error (.other e) : Except Raised α) := nofun

protected theorem bind {x : Except Raised α} {f : α → Except Raised β} (hx : FailsWith P x)
    (hf : ∀ a, FailsWith P (f a)) : FailsWith P (x >>= f) := by
  intro e he
  rcases bind_eq_error.mp he with hfirst | ⟨a, -, hthen⟩
  · exact hx e hfirst
  · exact hf a e hthen

protected theorem ite {p : Prop} [Decidable p] {x y : Except Raised α} (hx : FailsWith P x) (hy : FailsWith P y) :
    FailsWith P (if p then x else y) := by
  by_cases hp : p
  · rwa [if_pos hp]
  · rwa [if_neg hp]

protected theorem orRaise (e : Option Acquisition.Raised) : FailsWith P (orRaise e) := by
  cases e with
  | none => exact .pure
  | some e => exact .other

protected theorem usedVram (r : Reading) : FailsWith P (usedVram gpuSet r) := by
  cases r with
  | ok bytes => exact .pure
  | error e => exact .other

end FailsWith

/-- An error of the validation does not name a log file yet. -/
abbrev Unlogged (x : Except Raised α) : Prop := FailsWith (fun e => e.details.any (·.1 = "log_path") = false) x

namespace Unlogged

protected theorem invalid {stage message : String} {details : List (String × String)}
    (h : details.any (·.1 = "log_path") = false) : Unlogged (invalid stage message details : Except Raised α) := by
  intro e he
  cases he
  exact h

protected theorem invalidIf {b : Bool} {stage message : String} : Unlogged (invalidIf b stage message) :=
  .ite (Unlogged.invalid rfl) .pure

protected theorem yieldIf {b : Bool} : Unlogged (yieldIf b) :=
  .ite (fun e he => by cases he; rfl) .pure

end Unlogged

theorem waitForHealth_unlogged (deadline : Option ℚ) : ∀ polls, Unlogged (waitForHealth deadline polls)
  | [] => .ite (Unlogged.invalid rfl) .other
  | p :: polls => by
    unfold waitForHealth
    have hexited : Unlogged (exited p.returncode) := by
      cases p.returncode with
      | none => exact .pure
      | some status => exact Unlogged.invalid rfl
    have hhealthy : Unlogged (healthy p.health) := by
      cases p.health with
      | response => exact .pure
      | httpError => exact .pure
      | raised => exact .other
    refine Unlogged.invalidIf.bind fun _ => Unlogged.yieldIf.bind fun _ => hexited.bind fun _ => ?_
    refine hhealthy.bind fun _ => .ite .pure ((FailsWith.orRaise _).bind fun _ => ?_)
    exact waitForHealth_unlogged deadline polls

theorem onData_unlogged (data : List Char) (t : Tally) : Unlogged (onData φ data t) := by
  unfold onData
  refine .ite .pure ?_
  cases (loads data : Except LoadError (Value φ)) with
  | error e => cases e <;> exact .other
  | ok chunk =>
    cases chunk with
    | dict chunk =>
      refine .ite ?_ .pure
      cases Api.getOrNone "usage" chunk with
      | dict usage =>
        dsimp only
        cases ((Value.get? "completion_tokens" usage).getD (.int 0)).toInt with
        | some n => exact .pure
        | none => exact .other
      | _ => exact .other
    | _ => exact .other

theorem turns_unlogged : ∀ (turns : List Turn) (t : Tally), Unlogged (turns.foldlM (onTurn φ gpuSet) t)
  | [], _ => .pure
  | turn :: turns, t => by
    rw [List.foldlM_cons]
    refine FailsWith.bind ?_ fun _ => turns_unlogged turns _
    exact Unlogged.yieldIf.bind fun _ => (FailsWith.usedVram _).bind fun _ => .ite (onData_unlogged _ _) .pure

theorem generationContract_unlogged (g : Generation) : Unlogged (generationContract φ gpuSet g) := by
  have hpost : Unlogged (generated g.post) := by
    cases g.post with
    | response => exact .ite .pure (Unlogged.invalid rfl)
    | httpError => exact .other
    | raised => exact .other
  unfold generationContract
  refine (FailsWith.usedVram _).bind fun _ => hpost.bind fun _ => (turns_unlogged _ _).bind fun _ => ?_
  exact (FailsWith.orRaise _).bind fun _ => Unlogged.invalidIf.bind fun _ => .pure

theorem posted_unlogged (name text : String) (a : Answer) : Unlogged (posted name text a) := by
  cases a with
  | response => exact .ite .pure (Unlogged.invalid rfl)
  | httpError => exact Unlogged.invalid rfl
  | raised => exact .other

theorem isSleeping_unlogged (text : String) (a : Answer) : Unlogged (isSleeping φ text a) := by
  cases a with
  | response status body =>
    refine .ite ?_ (Unlogged.invalid rfl)
    cases (loads body : Except LoadError (Value φ)) with
    | error e =>
      cases e with
      | recursionError => exact .other
      | jsonDecodeError => exact Unlogged.invalid rfl
      | valueError => exact Unlogged.invalid rfl
    | ok state =>
      cases state with
      | dict state =>
        dsimp only
        cases Api.getOrNone "is_sleeping" state <;> exact .pure
      | _ => exact .other
  | httpError => exact Unlogged.invalid rfl
  | raised => exact .other

theorem contract_unlogged (ramWeightCacheEnabled : Bool) (c : Contract) :
    Unlogged (contract φ gpuSet ramWeightCacheEnabled c) := by
  have hlog : Unlogged (capacityFromLog c.log) := by
    cases c.log with
    | ok capacity => exact .pure
    | error e => exact .other
  have hsleep : Unlogged (sleepWakeContract φ gpuSet c.sleepWake) := by
    unfold sleepWakeContract
    refine Unlogged.yieldIf.bind fun _ => (posted_unlogged _ _ _).bind fun _ => ?_
    refine (isSleeping_unlogged _ _).bind fun _ => Unlogged.invalidIf.bind fun _ => ?_
    refine (FailsWith.usedVram _).bind fun _ => (posted_unlogged _ _ _).bind fun _ => ?_
    refine (isSleeping_unlogged _ _).bind fun _ => ?_
    exact Unlogged.invalidIf.bind fun _ => Unlogged.yieldIf.bind fun _ => .pure
  unfold contract
  refine (waitForHealth_unlogged _ _).bind fun _ => hlog.bind fun _ => (FailsWith.usedVram _).bind fun _ => ?_
  refine (generationContract_unlogged _).bind fun _ => .ite ?_ .pure
  exact hsleep.bind fun _ => (generationContract_unlogged _).bind fun _ => .pure

end

end Probing
end LlmRio
