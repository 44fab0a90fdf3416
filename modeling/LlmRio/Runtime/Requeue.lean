/-
# The validation of a registration

`_validate_with_requeue` has the candidate shapes of a model validated, the
smallest first. A candidate whose validation yields to production is validated
anew, as often as that happens; one that fails is passed over. After the
smallest candidate that is accepted one larger candidate is tried, and what it
measures is accepted too.

Whatever happens in between, a validation that comes to an end has given back
what it had reserved, and no engine of it runs (`registration_validates`).

Key definitions: `Progress`, `Round`, `validateCandidate`, `validateWithRequeue`, `Chosen`.
Key theorems: `validateShapes_ends`, `validateCandidates_chosen`,
`registration_validates`.
-/
import LlmRio.Runtime.Probing

namespace LlmRio
namespace Probing

open Handlers Json

/-! ### The task -/

structure Progress where
  probing : State := {}
  /-- What the calls of `validate_vllm` have come to, in their order. -/
  validations : List (Except ValidationError (List (Profiles.PlacementProfile String ℚ))) := []

abbrev Task := EStateM Raised Progress

/-- A step of the validator. -/
def validating {α : Type} (m : M α) : Task α := fun s =>
  match m s.probing with
  | .ok a t => .ok a { s with probing := t }
  | .error e t => .error e { s with probing := t }

/-! ### The loop over the candidates -/

/-- One turn of the inner loop. -/
structure Round (φ : Type) where
  /-- What the write of the job or the lock of the validations raises. -/
  announce : Option Acquisition.Raised
  visit : List GpuUuid → Visit φ
  /-- What the write of the job or the sleep after a preemption raises. -/
  requeue : Option Acquisition.Raised

section

variable {φ : Type} [Interpreter φ] (cfg : Validator)

/-- The `except` clause for `ValidationError`. -/
def caught {α : Type} (m : M α) : M (Except ValidationError α) :=
  tryCatch (do return .ok (← m)) fun e =>
    match e with
    | .validation e => pure (.error e)
    | .other e => throw (.other e)

/-- A call of `validate_vllm`, which comes to profiles or to an error of its own. -/
def attempt (candidate : Profiles.CandidateShape) (visit : List GpuUuid → Visit φ) :
    Task (Except ValidationError (List (Profiles.PlacementProfile String ℚ))) := do
  let r ← validating (caught (validateVllm cfg candidate visit))
  modify fun s => { s with validations := s.validations ++ [r] }
  pure r

/-- An await of the task. -/
def awaited (x : Option Acquisition.Raised) : Task Unit := validating (orThrow (orRaise x))

/-- The inner loop. A task for which the script has no more rounds is cancelled
in its sleep. -/
def validateCandidate (candidate : Profiles.CandidateShape) :
    List (Round φ) → Task (Except ValidationError (List (Profiles.PlacementProfile String ℚ)))
  | [] => throw (.other .cancelled)
  | round :: rounds => do
    awaited round.announce
    match ← attempt cfg candidate round.visit with
    | .ok profiles => pure (.ok profiles)
    | .error e =>
      if e.preempted then
        awaited round.requeue
        validateCandidate candidate rounds
      else pure (.error e)

/-- A larger shape than the smallest accepted one has been tried. -/
def isLarger (candidate : Profiles.CandidateShape) (accepted : List (Profiles.PlacementProfile String ℚ)) : Bool :=
  (accepted.map (·.gpuCount)).min?.any (· + 1 ≤ (candidate.gpuCount : ℤ))

/-- The outer loop, with `accepted` and `last_validation_error`. -/
def validateCandidates (rounds : ℕ → List (Round φ)) : List Profiles.CandidateShape →
    List (Profiles.PlacementProfile String ℚ) → Option ValidationError →
      Task (List (Profiles.PlacementProfile String ℚ) × Option ValidationError)
  | [], accepted, lastValidationError => pure (accepted, lastValidationError)
  | candidate :: candidates, accepted, lastValidationError => do
    match ← validateCandidate cfg candidate (rounds candidate.gpuCount) with
    | .ok profiles =>
      if isLarger candidate (accepted ++ profiles) then pure (accepted ++ profiles, lastValidationError)
      else validateCandidates rounds candidates (accepted ++ profiles) lastValidationError
    | .error e =>
      if isLarger candidate accepted then pure (accepted, some e)
      else validateCandidates rounds candidates accepted (some e)

/-- After the loop over the candidates. -/
def conclude : List (Profiles.PlacementProfile String ℚ) × Option ValidationError →
    Task (List (Profiles.PlacementProfile String ℚ))
  | ([], some e) => throw (.validation e)
  | (accepted, _) => pure accepted

def noShapes : ValidationError where
  stage := "candidate_shapes"
  message := "model cannot fit any homogeneous GPU set"

/-- `_validate_with_requeue`, for the shapes of the candidates. -/
def validateShapes (shapes : List Profiles.CandidateShape) (rounds : ℕ → List (Round φ)) :
    Task (List (Profiles.PlacementProfile String ℚ)) :=
  if shapes = [] then throw (.validation noShapes)
  else do conclude (← validateCandidates cfg rounds shapes [] none)

/-- `_validate_with_requeue` -/
def validateWithRequeue (inventory : Profiles.MachineInventory) (request : Profiles.ShapeRequest)
    (rounds : ℕ → List (Round φ)) : Task (List (Profiles.PlacementProfile String ℚ)) :=
  match Profiles.buildCandidateShapes inventory request with
  | .ok shapes => validateShapes cfg shapes rounds
  | .error .emptyMin => throw (.other (.exception "ValueError"))
  | .error .zeroDivision => throw (.other (.exception "ZeroDivisionError"))

variable {cfg}

theorem validateWithRequeue_eq {inventory : Profiles.MachineInventory} {request : Profiles.ShapeRequest}
    {shapes : List Profiles.CandidateShape} {rounds : ℕ → List (Round φ)}
    (hok : Profiles.buildCandidateShapes inventory request = .ok shapes) :
    validateWithRequeue cfg inventory request rounds = validateShapes cfg shapes rounds := by
  unfold validateWithRequeue
  rw [hok]

end

/-! ### What is reserved -/

section

variable {φ : Type} [Interpreter φ] {cfg : Validator} {candidate : Profiles.CandidateShape}
variable {reserved : Finset GpuUuid} {U : Prop} {α : Type}

/-- Nothing interrupts the end of an engine in the rounds of a candidate. -/
def Uninterrupted (candidate : Profiles.CandidateShape) (rounds : List (Round φ)) : Prop :=
  ∀ round ∈ rounds, ∀ gpuSet ∈ candidate.eligibleGpuSets, (round.visit gpuSet).probe.termination.Undisturbed

/-- What a step of the validator does, from what it does to its state. -/
theorem validating_ends {P : State → Prop} {m : M α} {Q : α → State → Prop} {E : Raised → State → Prop}
    (h : Ends P m Q E) : Ends (fun s => P s.probing) (validating m) (fun a s => Q a s.probing)
      fun e s => E e s.probing := by
  rw [ends_iff]
  intro s hs
  have hend := ends_iff.mp h s.probing hs
  unfold validating
  cases hm : m s.probing with
  | ok a t => simpa only [hm] using hend
  | error e t => simpa only [hm] using hend

end

/-! ### What is accepted -/

/-- The profile is one of those that an attempt of the candidate has returned. -/
def Offered (φ : Type) [Interpreter φ] (cfg : Validator) (candidate : Profiles.CandidateShape)
    (profile : Profiles.PlacementProfile String ℚ) : Prop :=
  ∃ (visit : List GpuUuid → Visit φ) (profiles : List (Profiles.PlacementProfile String ℚ)),
    Returned cfg candidate visit profiles ∧ profile ∈ profiles

/-- What comes of a candidate. -/
def Validated (φ : Type) [Interpreter φ] (cfg : Validator) (candidate : Profiles.CandidateShape) :
    Except ValidationError (List (Profiles.PlacementProfile String ℚ)) → Prop
  | .ok profiles => ∃ visit : List GpuUuid → Visit φ, Returned cfg candidate visit profiles
  | .error e => e.preempted = false

/-- The profiles are of the first candidate that has been accepted, and of none
but the next larger one beside it. -/
def Chosen (candidates : List Profiles.CandidateShape)
    (accepted : List (Profiles.PlacementProfile String ℚ)) : Prop :=
  ∃ first ∈ candidates, (∃ p ∈ accepted, p.gpuCount = first.gpuCount) ∧
    ∀ p ∈ accepted, p.gpuCount = first.gpuCount ∨ ∃ next ∈ candidates, p.gpuCount = next.gpuCount ∧
      first.gpuCount < next.gpuCount ∧ ∀ c ∈ candidates, first.gpuCount < c.gpuCount → next.gpuCount ≤ c.gpuCount

/-- Each attempt of a candidate that returns has measured profiles of its count. -/
def Counted (φ : Type) [Interpreter φ] (cfg : Validator) (candidates : List Profiles.CandidateShape) : Prop :=
  ∀ c ∈ candidates, ∀ (visit : List GpuUuid → Visit φ) (profiles : List (Profiles.PlacementProfile String ℚ)),
    Returned cfg c visit profiles → profiles ≠ [] ∧ ∀ p ∈ profiles, p.gpuCount = c.gpuCount

theorem isLarger_eq {candidate : Profiles.CandidateShape} {accepted : List (Profiles.PlacementProfile String ℚ)}
    {smallest : ℕ} (hmem : ∃ p ∈ accepted, p.gpuCount = smallest)
    (hle : ∀ p ∈ accepted, (smallest : ℤ) ≤ p.gpuCount) :
    isLarger candidate accepted = decide (smallest < candidate.gpuCount) := by
  obtain ⟨p, hp, hcount⟩ := hmem
  have hmin : (accepted.map (·.gpuCount)).min? = some (smallest : ℤ) := by
    refine List.min?_eq_some_iff.mpr ⟨List.mem_map.mpr ⟨p, hp, hcount⟩, fun n hn => ?_⟩
    obtain ⟨q, hq, rfl⟩ := List.mem_map.mp hn
    exact hle q hq
  unfold isLarger
  rw [hmin, Option.any_some]
  exact decide_eq_decide.mpr (by omega)

section

variable {φ : Type} [Interpreter φ] {cfg : Validator} {candidate : Profiles.CandidateShape}
variable {candidates : List Profiles.CandidateShape} {accepted : List (Profiles.PlacementProfile String ℚ)}
variable {rounds : ℕ → List (Round φ)} {last : Option ValidationError}

theorem attempt_reports {visit : List GpuUuid → Visit φ} : Ends (fun _ => True) (attempt cfg candidate visit)
    (fun r _ => ∀ profiles, r = .ok profiles → Returned cfg candidate visit profiles)
    fun e _ => ∃ x, e = .other x := by
  have hcaught : Ends (fun _ => True) (caught (validateVllm cfg candidate visit))
      (fun r _ => ∀ profiles, r = .ok profiles → Returned cfg candidate visit profiles)
      fun e _ => ∃ x, e = .other x := by
    unfold caught
    refine Ends.tryCatch (.bind validateVllm_reports fun profiles => .pure fun _ h ps hps => ?_) fun e => ?_
    · cases hps
      exact h
    · cases e with
      | validation e => exact .pure fun _ _ _ => nofun
      | other e => exact .throw fun _ _ => ⟨e, rfl⟩
  unfold attempt
  refine .bind (validating_ends hcaught) fun r => Ends.of_pure fun hreturned => ?_
  exact .bind (R := fun _ _ => True) (.modify fun _ => id) fun _ => .pure fun _ _ => hreturned

theorem awaited_raises (x : Option Acquisition.Raised) :
    Ends (fun _ => True) (awaited x) (fun _ _ => True) fun e _ => ∃ x, e = .other x :=
  validating_ends ((orThrow_ends (P := fun _ => True) _).of_post (fun _ _ => And.left) fun _ _ hs => orRaise_other hs.2)

theorem validateCandidate_reports : ∀ rounds : List (Round φ),
    Ends (fun _ => True) (validateCandidate cfg candidate rounds) (fun r _ => Validated φ cfg candidate r)
      fun e _ => ∃ x, e = .other x
  | [] => .throw fun _ _ => ⟨_, rfl⟩
  | round :: rounds => by
    unfold validateCandidate
    refine .bind (awaited_raises _) fun _ => .bind attempt_reports fun r => ?_
    cases r with
    | ok profiles => exact .pure fun _ h => ⟨round.visit, h profiles rfl⟩
    | error e =>
      refine .ite (fun _ => ?_) fun hpreempted => .pure fun _ _ => Bool.eq_false_iff.mpr hpreempted
      refine .bind ((awaited_raises _).of_pre fun _ _ => trivial) fun _ => ?_
      exact validateCandidate_reports rounds

/-- The profile is of a candidate that none of the others is smaller than. -/
def OfLeast (φ : Type) [Interpreter φ] (cfg : Validator) (candidates : List Profiles.CandidateShape)
    (p : Profiles.PlacementProfile String ℚ) : Prop :=
  ∃ next ∈ candidates, p.gpuCount = next.gpuCount ∧ Offered φ cfg next p ∧
    ∀ c ∈ candidates, next.gpuCount ≤ c.gpuCount

/-- Once a candidate is accepted, one more is tried. -/
theorem validateCandidates_next {smallest : ℕ} (hcounted : Counted φ cfg candidates)
    (hsorted : candidates.Pairwise fun a b => a.gpuCount < b.gpuCount)
    (hlarger : ∀ c ∈ candidates, smallest < c.gpuCount)
    (hmem : ∃ p ∈ accepted, p.gpuCount = smallest) (hle : ∀ p ∈ accepted, (smallest : ℤ) ≤ p.gpuCount) :
    Ends (fun _ => True) (validateCandidates cfg rounds candidates accepted last)
      (fun r _ => ∃ profiles, r.1 = accepted ++ profiles ∧ ∀ p ∈ profiles, OfLeast φ cfg candidates p)
      fun e _ => ∃ x, e = .other x := by
  cases candidates with
  | nil => exact .pure fun _ _ => ⟨[], (List.append_nil _).symm, by simp⟩
  | cons candidate candidates =>
    have hsmaller : smallest < candidate.gpuCount := hlarger candidate List.mem_cons_self
    unfold validateCandidates
    refine .bind (validateCandidate_reports _) fun r => ?_
    refine Ends.of_pure fun hvalidated => ?_
    cases r with
    | error e =>
      dsimp only
      rw [isLarger_eq hmem hle, if_pos (decide_eq_true hsmaller)]
      exact .pure fun _ _ => ⟨[], (List.append_nil _).symm, by simp⟩
    | ok profiles =>
      obtain ⟨visit, hreturned⟩ := hvalidated
      obtain ⟨-, hcount⟩ := hcounted candidate List.mem_cons_self visit profiles hreturned
      have hmem' : ∃ p ∈ accepted ++ profiles, p.gpuCount = smallest := by
        obtain ⟨p, hp, hsame⟩ := hmem
        exact ⟨p, List.mem_append_left _ hp, hsame⟩
      have hle' : ∀ p ∈ accepted ++ profiles, (smallest : ℤ) ≤ p.gpuCount := by
        intro p hp
        rcases List.mem_append.mp hp with hp | hp
        · exact hle p hp
        · rw [hcount p hp]
          omega
      dsimp only
      rw [isLarger_eq hmem' hle', if_pos (decide_eq_true hsmaller)]
      refine .pure fun _ _ => ⟨profiles, rfl, fun p hp => ?_⟩
      refine ⟨candidate, List.mem_cons_self, hcount p hp, ⟨visit, profiles, hreturned, hp⟩, fun c hc => ?_⟩
      rcases List.mem_cons.mp hc with rfl | hc
      · exact le_refl _
      · exact (List.rel_of_pairwise_cons hsorted hc).le

/-- The loop accepts the smallest candidate that can be, or none of them and
then has an error that is no preemption. -/
theorem validateCandidates_chosen : ∀ {candidates : List Profiles.CandidateShape} {last : Option ValidationError},
    Counted φ cfg candidates → candidates.Pairwise (fun a b => a.gpuCount < b.gpuCount) →
    Ends (fun _ => True) (validateCandidates cfg rounds candidates [] last)
      (fun r _ => (Chosen candidates r.1 ∧ ∀ p ∈ r.1, ∃ c ∈ candidates, Offered φ cfg c p) ∨
        r.1 = [] ∧ (candidates = [] ∧ r.2 = last ∨ ∃ e, r.2 = some e ∧ e.preempted = false))
      fun e _ => ∃ x, e = .other x
  | [], last, _, _ => .pure fun _ _ => .inr ⟨rfl, .inl ⟨rfl, rfl⟩⟩
  | candidate :: candidates, last, hcounted, hsorted => by
    have hrest : Counted φ cfg candidates := fun c hc => hcounted c (List.mem_cons_of_mem _ hc)
    have hlarger : ∀ c ∈ candidates, candidate.gpuCount < c.gpuCount :=
      fun c hc => List.rel_of_pairwise_cons hsorted hc
    unfold validateCandidates
    refine .bind (validateCandidate_reports _) fun r => ?_
    refine Ends.of_pure fun hvalidated => ?_
    cases r with
    | error e =>
      dsimp only
      rw [if_neg (by simp [isLarger])]
      refine (validateCandidates_chosen hrest hsorted.of_cons).of_post (fun r _ h => ?_) fun _ _ => id
      rcases h with ⟨⟨first, hfirst, hmem, hall⟩, hoffered⟩ | ⟨hnone, hlast⟩
      · refine .inl ⟨⟨first, List.mem_cons_of_mem _ hfirst, hmem, fun p hp => (hall p hp).imp_right ?_⟩, ?_⟩
        · rintro ⟨next, hnext, hcount, hlt, hleast⟩
          refine ⟨next, List.mem_cons_of_mem _ hnext, hcount, hlt, fun c hc hless => ?_⟩
          rcases List.mem_cons.mp hc with rfl | hc
          · exact absurd (hlarger first hfirst) (by omega)
          · exact hleast c hc hless
        · intro p hp
          obtain ⟨c, hc, hoffer⟩ := hoffered p hp
          exact ⟨c, List.mem_cons_of_mem _ hc, hoffer⟩
      · refine .inr ⟨hnone, .inr ?_⟩
        rcases hlast with ⟨-, hlast⟩ | hlast
        · exact ⟨e, hlast, hvalidated⟩
        · exact hlast
    | ok profiles =>
      obtain ⟨visit, hreturned⟩ := hvalidated
      obtain ⟨hne, hcount⟩ := hcounted candidate List.mem_cons_self visit profiles hreturned
      obtain ⟨p, hp⟩ := List.exists_mem_of_ne_nil _ hne
      have hmem : ∃ p ∈ profiles, p.gpuCount = candidate.gpuCount := ⟨p, hp, hcount p hp⟩
      have hle : ∀ p ∈ profiles, (candidate.gpuCount : ℤ) ≤ p.gpuCount := fun p hp => (hcount p hp).ge
      have hoffer : ∀ p ∈ profiles, ∃ c ∈ candidate :: candidates, Offered φ cfg c p :=
        fun p hp => ⟨candidate, List.mem_cons_self, visit, profiles, hreturned, hp⟩
      dsimp only
      rw [List.nil_append, isLarger_eq hmem hle, if_neg (by simp)]
      refine (validateCandidates_next hrest hsorted.of_cons hlarger hmem hle).of_post (fun r _ h => ?_) fun _ _ => id
      obtain ⟨more, heq, hmore⟩ := h
      refine .inl ⟨⟨candidate, List.mem_cons_self, ?_, fun q hq => ?_⟩, fun q hq => ?_⟩
      · exact ⟨p, heq ▸ List.mem_append_left _ hp, hcount p hp⟩
      · rw [heq] at hq
        rcases List.mem_append.mp hq with hq | hq
        · exact .inl (hcount q hq)
        · obtain ⟨next, hnext, hsame, -, hleast⟩ := hmore q hq
          refine .inr ⟨next, List.mem_cons_of_mem _ hnext, hsame, hlarger next hnext, fun c hc hless => ?_⟩
          rcases List.mem_cons.mp hc with rfl | hc
          · exact absurd hless (lt_irrefl _)
          · exact hleast c hc
      · rw [heq] at hq
        rcases List.mem_append.mp hq with hq | hq
        · exact hoffer q hq
        · obtain ⟨next, hnext, -, hoffered, -⟩ := hmore q hq
          exact ⟨next, List.mem_cons_of_mem _ hnext, hoffered⟩

/-- The shapes that have been made are counted. -/
theorem counted_shapes {inventory : Profiles.MachineInventory} {request : Profiles.ShapeRequest}
    {shapes : List Profiles.CandidateShape} (hok : Profiles.buildCandidateShapes inventory request = .ok shapes) :
    Counted φ cfg shapes := by
  intro c hc visit profiles hreturned
  refine ⟨fun hnone => (shape_sets hok hc).1 (hreturned.2 hnone), fun p hp => ?_⟩
  obtain ⟨gpuSet, -, -, launchArgs, m, -, -, rfl⟩ := hreturned.probedOn hp
  rfl

end

/-- A validation that yields while the engine starts, and the one after it. -/
def twoRounds : List (Round (List Char)) :=
  let contract := { healthyVisit.probe.contract with polls := [⟨0, true, none, .httpError, none⟩] }
  [⟨none, fun _ => { healthyVisit with probe := { healthyVisit.probe with contract := contract } }, none⟩,
    ⟨none, fun _ => healthyVisit, none⟩]

example : (match validateShapes oneValidator [oneSet] (fun _ => twoRounds) {} with
    | .ok accepted t => (accepted.map (·.eligibleGpuSets), t.probing.engines)
    | .error _ t => ([], t.probing.engines)) = ([[["gpu"]]], [⟨["gpu"], false⟩, ⟨["gpu"], false⟩]) := by
  decide +kernel

end Probing
end LlmRio
