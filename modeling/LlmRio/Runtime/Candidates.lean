/-
# The task of a registration and its validation

The task of a registration (`taskStep`) goes from await to await, and what
comes of a probe is an outcome that it is given. `validateWithRequeue` is the
same loop as a program, with the probes in it, and notes what each call of
`validate_vllm` has come to. The outcomes that these calls are for the task
take it where the program ends: to the transaction that makes the model
AVAILABLE with the profiles that the program returns, or to the record of the
error of the validation that it raises (`task_follows_validation`).

Key definitions: `outcomes`, `Leads`, `verified`, `tried`.
Key theorems: `validateCandidate_leads`, `validateCandidates_leads`,
`task_follows_validation`.
-/
import LlmRio.Runtime.Registration
import LlmRio.Runtime.Requeue

namespace LlmRio
namespace Registration

open Handlers Json Utf8 ModelStore

/-- A profile as the catalog keeps it; `text` writes its launch arguments. -/
def verified (text : List (Text × Value ℚ) → String) (p : Profiles.PlacementProfile String ℚ) : VerifiedProfile :=
  { p.planned id with
    modelRevision := p.modelRevision
    engineVersion := p.engineVersion
    machineFingerprint := p.machineFingerprint
    tensorParallelSize := p.tensorParallelSize.toNat
    pipelineParallelSize := p.pipelineParallelSize.toNat
    dtype := p.dtype
    quantization := p.quantization
    maxModelLen := p.maxModelLen
    maxNumSeqs := p.maxNumSeqs.map Int.toNat
    maxNumBatchedTokens := p.maxNumBatchedTokens.map Int.toNat
    capabilities := p.capabilities.sort (· ≤ ·)
    launchArgs := text p.launchArgs }

def jobFailure (e : Probing.ValidationError) : JobFailure := ⟨e.stage, e.message⟩

/-- The awaits of the task about one call of `validate_vllm`: the write of the
job before it, the call, and after a preemption the write and the sleep. -/
def outcomes (text : List (Text × Value ℚ) → String) :
    Except Probing.ValidationError (List (Profiles.PlacementProfile String ℚ)) → List Outcome
  | .ok profiles => [.ok, .measured (profiles.map (verified text))]
  | .error e => if e.preempted then [.ok, .preempted, .ok, .ok] else [.ok, .invalid (jobFailure e)]

/-! ### Where the awaits lead -/

section

variable {κ : Type} [DecidableEq κ] (sha256 : ProfileIdentity → κ) (fp : String) (j : JobId)

/-- The outcome takes the task from `pc` to `next`, in any store that has the
job. -/
def Moves (pc : Pc) (o : Outcome) (next : Pc) : Prop :=
  ∀ s : ModelStore κ, (s.job? j).isSome → ∃ s' : ModelStore κ, (s'.job? j).isSome ∧
    taskStep sha256 fp s j pc o = some (s', some next)

/-- The outcomes take the task from `pc` to `pc'`, whatever happens to the other
rows of the store between them. -/
def Leads : List Outcome → Pc → Pc → Prop
  | [], pc, pc' => pc = pc'
  | o :: os, pc, pc' => ∃ next, Moves sha256 fp j pc o next ∧ Leads os next pc'

variable {sha256 fp j}

theorem Leads.append : ∀ {os os' : List Outcome} {pc pc' pc'' : Pc}, Leads sha256 fp j os pc pc' →
    Leads sha256 fp j os' pc' pc'' → Leads sha256 fp j (os ++ os') pc pc''
  | [], _, _, _, _, h, h' => h ▸ h'
  | _ :: _, _, _, _, _, ⟨next, hmoves, h⟩, h' => ⟨next, hmoves, Leads.append h h'⟩

/-- An await that does not write. -/
theorem moves_stay {pc next : Pc} {o : Outcome}
    (h : ∀ s : ModelStore κ, taskStep sha256 fp s j pc o = some (s, some next)) : Moves sha256 fp j pc o next :=
  fun s hs => ⟨s, hs, h s⟩

/-- An await of `update_model_job`; the job is there. -/
theorem moves_write {pc next : Pc} {u : JobUpdate}
    (h : ∀ s : ModelStore κ, taskStep sha256 fp s j pc .ok = write s j u next .ok) :
    Moves sha256 fp j pc .ok next := by
  intro s hs
  obtain ⟨row, hrow⟩ := Option.isSome_iff_exists.mp hs
  obtain ⟨s', hok⟩ : ∃ s', s.updateModelJob j u = .ok s' := by
    unfold updateModelJob
    rw [hrow]
    exact ⟨_, rfl⟩
  obtain ⟨row', hrow', -⟩ := (updateModelJob_writes hok).kept.rows j row hrow
  refine ⟨s', by rw [hrow']; rfl, ?_⟩
  rw [h]
  unfold write
  rw [hok]

theorem moves_probing (c : Candidates) : Moves sha256 fp j (.announcing c) .ok (.probing c) :=
  moves_write fun _ => rfl

/-- A validation that has yielded is announced again. -/
theorem leads_again {text : List (Text × Value ℚ) → String} {e : Probing.ValidationError} (he : e.preempted = true)
    (c : Candidates) : Leads sha256 fp j (outcomes text (.error e)) (.announcing c) (.announcing c) := by
  have hyields : Moves sha256 fp j (.probing c) .preempted (.requeueing c) := moves_stay fun _ => rfl
  have hqueued : Moves sha256 fp j (.requeueing c) .ok (.pausing c) := moves_write fun _ => rfl
  have hslept : Moves sha256 fp j (.pausing c) .ok (.announcing c) := moves_stay fun _ => rfl
  dsimp only [outcomes]
  rw [if_pos he]
  exact ⟨_, moves_probing c, _, hyields, _, hqueued, _, hslept, rfl⟩

end

/-! ### The loop over the candidates -/

section

variable {φ κ : Type} [Interpreter φ] [DecidableEq κ] {sha256 : ProfileIdentity → κ} {fp : String} {j : JobId}
variable {cfg : Probing.Validator} {candidate : Profiles.CandidateShape}

variable (text : List (Text × Value ℚ) → String) (fp)

/-- The state of the loop, when `accepted` has been accepted. -/
def tried (c : Candidates) (accepted : List (Profiles.PlacementProfile String ℚ))
    (last : Option Probing.ValidationError) : Candidates :=
  { c with
    accepted := (accepted.map (verified text)).map (probed fp c.job c.resolved.revision)
    lastError := last.map jobFailure }

/-- After a candidate of which `r` has come. -/
def afterCandidate (c : Candidates) (accepted : List (Profiles.PlacementProfile String ℚ))
    (last : Option Probing.ValidationError) :
    Except Probing.ValidationError (List (Profiles.PlacementProfile String ℚ)) → Pc
  | .ok profiles => nextCandidate (tried fp text c (accepted ++ profiles) last)
  | .error e => nextCandidate (tried fp text c accepted (some e))

variable {text fp} {c : Candidates} {accepted : List (Profiles.PlacementProfile String ℚ)}
variable {last : Option Probing.ValidationError}
variable {done : List (Except Probing.ValidationError (List (Profiles.PlacementProfile String ℚ)))}

/-- After a validation that has not yielded. -/
theorem leads_afterCandidate : ∀ r, (∀ e, r = .error e → e.preempted = false) →
    Leads sha256 fp j (outcomes text r) (.announcing (tried fp text c accepted last))
      (afterCandidate fp text c accepted last r)
  | .ok profiles, _ => by
    refine ⟨_, moves_probing _, _, moves_stay fun s => rfl, ?_⟩
    dsimp only [afterCandidate, tried]
    rw [List.map_append, List.map_append]
    rfl
  | .error e, he => by
    dsimp only [outcomes]
    rw [if_neg (Bool.eq_false_iff.mp (he e rfl))]
    exact ⟨_, moves_probing _, _, moves_stay fun s => rfl, rfl⟩

theorem validating_keeps {α : Type} {m : Probing.M α} :
    Ends (fun s => s.validations = done) (Probing.validating m) (fun _ s => s.validations = done)
      fun _ _ => True := by
  rw [ends_iff]
  intro s hs
  unfold Probing.validating
  cases m s.probing with
  | ok a t => exact hs
  | error e t => trivial

theorem attempt_notes {visit : List GpuUuid → Probing.Visit φ} :
    Ends (fun s => s.validations = done) (Probing.attempt cfg candidate visit)
      (fun r s => s.validations = done ++ [r]) fun _ _ => True := by
  unfold Probing.attempt
  refine .bind validating_keeps fun r => ?_
  refine Ends.bind (R := fun _ s => s.validations = done ++ [r]) (.modify fun s hs => ?_) fun _ => .pure fun _ => id
  exact congrArg (· ++ [r]) hs

variable (sha256 fp j text) in
/-- After `done`, more has been noted, and it takes the task from `pc` to `pc'`. -/
def Follows (done : List (Except Probing.ValidationError (List (Profiles.PlacementProfile String ℚ)))) (pc pc' : Pc)
    (s : Probing.Progress) : Prop :=
  ∃ more, s.validations = done ++ more ∧ Leads sha256 fp j (more.flatMap (outcomes text)) pc pc'

theorem follows_none {pc : Pc} {s : Probing.Progress} (h : s.validations = done) :
    Follows sha256 fp j text done pc pc s := ⟨[], by rw [h, List.append_nil], rfl⟩

theorem Follows.leads {pc pc' : Pc} {s : Probing.Progress} (h : Follows sha256 fp j text [] pc pc' s) :
    Leads sha256 fp j (s.validations.flatMap (outcomes text)) pc pc' := by
  obtain ⟨more, heq, hleads⟩ := h
  rwa [heq]

theorem Follows.after {pc pc' pc'' : Pc} {s : Probing.Progress}
    {seen : List (Except Probing.ValidationError (List (Profiles.PlacementProfile String ℚ)))}
    (h : Leads sha256 fp j (seen.flatMap (outcomes text)) pc pc')
    (h' : Follows sha256 fp j text (done ++ seen) pc' pc'' s) : Follows sha256 fp j text done pc pc'' s := by
  obtain ⟨more, heq, hleads⟩ := h'
  refine ⟨seen ++ more, by rw [heq, List.append_assoc], ?_⟩
  rw [List.flatMap_append]
  exact h.append hleads

theorem validateCandidate_leads (rounds : List (Probing.Round φ)) :
    Ends (fun s => s.validations = done) (Probing.validateCandidate cfg candidate rounds)
      (fun r => Follows sha256 fp j text done (.announcing (tried fp text c accepted last))
        (afterCandidate fp text c accepted last r)) fun _ _ => True := by
  have hone : ∀ {r pc'}, Leads sha256 fp j (outcomes text r) (.announcing (tried fp text c accepted last)) pc' →
      Leads sha256 fp j ([r].flatMap (outcomes text)) (.announcing (tried fp text c accepted last)) pc' :=
    fun h => by rwa [List.flatMap_singleton]
  induction rounds generalizing done with
  | nil => exact .throw fun _ _ => trivial
  | cons round rounds ih =>
    unfold Probing.validateCandidate
    refine .bind validating_keeps fun _ => .bind attempt_notes fun r => ?_
    cases r with
    | ok profiles =>
      exact .pure fun s hs => ⟨[.ok profiles], hs, hone (leads_afterCandidate (.ok profiles) fun _ he => by cases he)⟩
    | error e =>
      refine .ite (fun hyields => .bind validating_keeps fun _ => ?_) fun hfails => .pure fun s hs => ?_
      · exact ih.of_post (fun r s h => h.after (hone (leads_again hyields _))) fun _ _ => id
      · refine ⟨[.error e], hs, hone (leads_afterCandidate (.error e) fun e' he => ?_)⟩
        cases he
        exact Bool.eq_false_iff.mpr hfails

theorem min?_toNat (counts : List ℤ) : (counts.map Int.toNat).min? = counts.min?.map Int.toNat := by
  cases hmin : counts.min? with
  | none =>
    rw [List.min?_eq_none_iff.mp hmin]
    rfl
  | some n =>
    obtain ⟨hmem, hle⟩ := List.min?_eq_some_iff.mp hmin
    refine List.min?_eq_some_iff.mpr ⟨List.mem_map_of_mem hmem, fun k hk => ?_⟩
    obtain ⟨m, hm, rfl⟩ := List.mem_map.mp hk
    exact Int.toNat_le_toNat (hle m hm)

/-- The task asks as the program does whether the candidate is a larger one. -/
theorem isLarger_tried (hpos : 1 ≤ candidate.gpuCount) (hcount : c.current = candidate.gpuCount) :
    ((tried fp text c accepted last).accepted.map (·.gpuCount)).min?.any
      (· + 1 ≤ (tried fp text c accepted last).current) = Probing.isLarger candidate accepted := by
  have hcounts : (tried fp text c accepted last).accepted.map (·.gpuCount) =
      (accepted.map (·.gpuCount)).map Int.toNat := by
    simp only [tried, List.map_map]
    rfl
  unfold Probing.isLarger
  rw [hcounts, min?_toNat]
  cases (accepted.map (·.gpuCount)).min? with
  | none => rfl
  | some n =>
    refine decide_eq_decide.mpr ?_
    show n.toNat + 1 ≤ c.current ↔ n + 1 ≤ (candidate.gpuCount : ℤ)
    omega

theorem nextCandidate_tried (hpos : 1 ≤ candidate.gpuCount) (hcount : c.current = candidate.gpuCount) :
    nextCandidate (tried fp text c accepted last) =
      if Probing.isLarger candidate accepted then finishValidation (tried fp text c accepted last)
      else
        match c.rest with
        | [] => finishValidation (tried fp text c accepted last)
        | n :: rest => .announcing (tried fp text { c with current := n, rest := rest } accepted last) := by
  unfold nextCandidate
  rw [isLarger_tried hpos hcount]
  rfl

theorem validateCandidates_leads {rounds : ℕ → List (Probing.Round φ)} :
    ∀ {candidates : List Profiles.CandidateShape} {candidate : Profiles.CandidateShape} {c : Candidates}
      {accepted : List (Profiles.PlacementProfile String ℚ)} {last : Option Probing.ValidationError}
      {done : List (Except Probing.ValidationError (List (Profiles.PlacementProfile String ℚ)))},
      (∀ x ∈ candidate :: candidates, 1 ≤ x.gpuCount) → c.current = candidate.gpuCount →
      c.rest = candidates.map (·.gpuCount) →
      Ends (fun s => s.validations = done)
        (Probing.validateCandidates cfg rounds (candidate :: candidates) accepted last)
        (fun r => Follows sha256 fp j text done (.announcing (tried fp text c accepted last))
          (finishValidation (tried fp text c r.1 r.2))) fun _ _ => True
  | candidates, candidate, c, accepted, last, done, hpos, hcount, hrest => by
    -- whatever has come of the candidate, both ask next whether it is a larger one
    have hnext : ∀ (accepted : List (Profiles.PlacementProfile String ℚ)) (last : Option Probing.ValidationError)
        (done : List (Except Probing.ValidationError (List (Profiles.PlacementProfile String ℚ)))),
        Ends (fun s => s.validations = done)
          (if Probing.isLarger candidate accepted then pure (accepted, last)
            else Probing.validateCandidates cfg rounds candidates accepted last)
          (fun r => Follows sha256 fp j text done (nextCandidate (tried fp text c accepted last))
            (finishValidation (tried fp text c r.1 r.2))) fun _ _ => True := by
      intro accepted last done
      rw [nextCandidate_tried (hpos candidate List.mem_cons_self) hcount]
      refine .ite (fun hlarger => .pure fun s hs => ?_) fun hsmall => ?_
      · rw [if_pos hlarger]
        exact follows_none hs
      · rw [if_neg hsmall, hrest]
        cases candidates with
        | nil => exact .pure fun s hs => follows_none hs
        | cons next candidates =>
          exact validateCandidates_leads (fun x hx => hpos x (List.mem_cons_of_mem _ hx)) rfl rfl
    unfold Probing.validateCandidates
    refine Ends.bind (R := fun r => Follows sha256 fp j text done (.announcing (tried fp text c accepted last))
      (afterCandidate fp text c accepted last r)) (validateCandidate_leads _) fun r => ?_
    refine Ends.of_exists fun more => ?_
    refine (Ends.assume fun hleads => ?_)
    cases r with
    | ok profiles => exact (hnext _ _ _).of_post (fun _ _ h => h.after hleads) fun _ _ => id
    | error e => exact (hnext _ _ _).of_post (fun _ _ h => h.after hleads) fun _ _ => id

theorem validateShapes_leads {rounds : ℕ → List (Probing.Round φ)} {shapes : List Profiles.CandidateShape}
    (hcounted : Probing.Counted φ cfg shapes) (hsorted : shapes.Pairwise fun a b => a.gpuCount < b.gpuCount)
    (hpos : ∀ x ∈ shapes, 1 ≤ x.gpuCount) (job : ModelJob) (resolved : Resolved) (path : String) :
    Ends (fun s => s.validations = []) (Probing.validateShapes cfg shapes rounds)
      (fun accepted => Follows sha256 fp j text [] (firstCandidate job resolved path (shapes.map (·.gpuCount)))
        (.committing job resolved path ((accepted.map (verified text)).map (probed fp job resolved.revision))))
      fun e s => ∀ x, e = .validation x →
        Follows sha256 fp j text [] (firstCandidate job resolved path (shapes.map (·.gpuCount)))
          (.failing (jobFailure x)) s := by
  unfold Probing.validateShapes
  cases shapes with
  | nil =>
    refine .ite (fun _ => .throw fun s hs x hx => ?_) fun hne => absurd rfl hne
    cases hx
    exact follows_none hs
  | cons candidate candidates =>
    refine .ite (fun hnil => absurd hnil (List.cons_ne_nil _ _)) fun _ => ?_
    let c : Candidates := ⟨job, resolved, path, candidate.gpuCount, candidates.map (·.gpuCount), [], none⟩
    have hfollows : Ends (fun s => s.validations = [])
        (Probing.validateCandidates cfg rounds (candidate :: candidates) [] none)
        (fun r => Follows sha256 fp j text [] (.announcing (tried fp text c [] none))
          (finishValidation (tried fp text c r.1 r.2)))
        fun _ _ => True := validateCandidates_leads hpos rfl rfl
    have hchosen : Ends (fun s => s.validations = [])
        (Probing.validateCandidates cfg rounds (candidate :: candidates) [] none) _ _ :=
      (Probing.validateCandidates_chosen hcounted hsorted).of_pre fun _ _ => trivial
    refine .bind ((hfollows.both hchosen).of_post (fun _ _ => id) fun e _ h x hx => ?_) fun r => ?_
    · obtain ⟨-, y, rfl⟩ := h
      cases hx
    · obtain ⟨accepted, last⟩ := r
      refine Ends.assume fun hresult => ?_
      -- without an accepted profile there is an error: the loop was not empty
      obtain ⟨⟨first, -, ⟨p, hp, -⟩, -⟩, -⟩ | ⟨hnone, ⟨hnil, -⟩ | ⟨e, hlast, -⟩⟩ := hresult
      · cases accepted with
        | nil => exact absurd hp List.not_mem_nil
        | cons p accepted => exact .pure fun _ => id
      · cases hnil
      · cases hnone
        cases hlast
        refine .throw fun _ h x hx => ?_
        cases hx
        exact h

end

/-- **The task follows its validation.** For each run of
`_validate_with_requeue`, what its calls of `validate_vllm` have come to takes
the task from the first candidate to the transaction that registers the
profiles which the run returns, or to the record of the error of the validation
which it raises, in any store that has the job; so what holds of all runs of
the task holds of these. -/
theorem task_follows_validation {φ κ : Type} [Interpreter φ] [DecidableEq κ] (sha256 : ProfileIdentity → κ)
    (fp : String) (j : JobId) (text : List (Text × Value ℚ) → String) (cfg : Probing.Validator)
    (inventory : Profiles.MachineInventory) (request : Profiles.ShapeRequest) (rounds : ℕ → List (Probing.Round φ))
    (t : Probing.State) (job : ModelJob) (resolved : Resolved) (path : String) :
    ∃ shapes, Profiles.buildCandidateShapes inventory request = .ok shapes ∧
      match Probing.validateWithRequeue cfg inventory request rounds { probing := t } with
      | .ok accepted u => Leads sha256 fp j (u.validations.flatMap (outcomes text))
          (firstCandidate job resolved path (shapes.map (·.gpuCount)))
          (.committing job resolved path ((accepted.map (verified text)).map (probed fp job resolved.revision)))
      | .error (.validation e) u => Leads sha256 fp j (u.validations.flatMap (outcomes text))
          (firstCandidate job resolved path (shapes.map (·.gpuCount))) (.failing (jobFailure e))
      | .error (.other _) _ => True := by
  obtain ⟨shapes, hok, -⟩ := Profiles.buildCandidateShapes_ok inventory request
  refine ⟨shapes, hok, ?_⟩
  have hfollows : Ends (fun s => s.validations = []) (Probing.validateShapes cfg shapes rounds)
      (fun accepted => Follows sha256 fp j text [] (firstCandidate job resolved path (shapes.map (·.gpuCount)))
        (.committing job resolved path ((accepted.map (verified text)).map (probed fp job resolved.revision)))) _ :=
    validateShapes_leads (Probing.counted_shapes hok) (Profiles.increasing_shapes hok) (Profiles.positive_shapes hok)
      job resolved path
  have hleads := ends_iff.mp hfollows { probing := t } rfl
  rw [Probing.validateWithRequeue_eq hok]
  cases hrun : Probing.validateShapes cfg shapes rounds { probing := t } with
  | ok accepted u =>
    rw [hrun] at hleads
    exact hleads.leads
  | error e u =>
    rw [hrun] at hleads
    cases e with
    | validation e => exact (hleads e rfl).leads
    | other e => trivial

end Registration
end LlmRio
