/-
# Workers that are gone

A worker that is STOPPING or COLD, or whose launch has failed, is gone: no
step brings it back, since an id is issued once (`gone_step`). A task that
fails a worker, and one that stops it by force, leave it gone. What a worker
that is not gone has admitted, and its outstanding work, change with its own
admissions and releases only (`Change.kept`).

Key definitions: `Gone`, `Failing`.
Key theorems: `gone_step`, `failing_step`, `stopEnter_gone`, `Change.kept`.
-/
import LlmRio.Workers.StateMachine

namespace LlmRio
namespace Supervisor

variable {cfg : Settings} {s s' : State} {a : Act} {w : WorkerId} {x y : WorkerPlacement}

/-- The states of a worker that is gone. -/
def goneStates : List RuntimeState := [.stopping, .cold]

/-- The worker serves nothing, and nothing brings it back. -/
def Gone (s : State) (w : WorkerId) : Prop :=
  w ∈ s.issued ∧ ∀ x, s.worker? w = some x → x.state ∈ goneStates

/-! ### One change -/

theorem Change.gone (hc : Change cfg s a w x y) (hx : x.state ∈ goneStates) : y.state ∈ goneStates := by
  cases hc with
  | spawned | pidCleared | released => exact hx
  | failed | stopping | stopped => simp [goneStates, WorkerPlacement.failed, WorkerPlacement.stopping,
      WorkerPlacement.stopped]
  | drainingToSleep _ _ hc => rcases hc with ⟨-, hs⟩ | ⟨_, _, -, -, hs⟩ <;> simp_all [goneStates]
  | loaded _ _ hs | admitted _ _ hs | asleep _ _ hs | waking _ _ _ hs | awake _ _ hs => simp [goneStates, hs] at hx
  | drained _ _ _ hs | offloading _ _ _ hs => simp_all [goneStates]

/-- The requests and the work of a worker that is not gone change with an
admission and a release only. -/
theorem Change.kept (hc : Change cfg s a w x y) (hadmits : ∀ w r e now, a ≠ .admitRequest w r e now)
    (hrelease : ∀ w r e now, a ≠ .release w r e now) : y.state ∈ goneStates ∨
      y.admittedRequestIds = x.admittedRequestIds ∧ y.outstandingTokenWork = x.outstandingTokenWork := by
  cases hc with
  | failed | stopping | stopped => simp [goneStates, WorkerPlacement.failed, WorkerPlacement.stopping,
      WorkerPlacement.stopped]
  | admitted _ ha => exact absurd ha (hadmits _ _ _ _)
  | released _ ha => exact absurd ha (hrelease _ _ _ _)
  | _ => exact .inr ⟨rfl, rfl⟩

/-! ### The steps -/

theorem launched_new {profile : PlacementProfile} {gpus : List GpuUuid} {now : Datetime}
    (hs : step cfg s (.launch profile gpus w now) = some s') : w ∉ s.issued := by
  simp only [step, Option.ite_none_right_eq_some] at hs
  exact hs.1.2

theorem gone_step (hr : Registered s) (hg : Gone s w) (hs : step cfg s a = some s') : Gone s' w := by
  refine ⟨issued_kept hs hg.1, fun y hy => ?_⟩
  cases worker_step hr hs w with
  | same heq => exact hg.2 y (heq ▸ hy)
  | change x z hx hz hc =>
    cases hy.symm.trans hz
    exact hc.gone (hg.2 x hx)
  | launched profile gpus port now ha =>
    exact absurd hg.1 (launched_new (ha ▸ hs))
  | dropped _ _ _ _ hz => cases hy.symm.trans hz

/-- The task has set its worker to COLD. -/
def Pc.failed : Pc → Bool
  | .failKill .. | .failTail _ | .failCleanup _ => true
  | _ => false

theorem next_failed {pc pc' : Pc} (hnext : pc' ∈ pc.next) (hf : pc'.failed = true) :
    pc.failed = true ∨ ∃ locked, pc = .failBegin locked := by
  cases pc' with
  | failKill => cases pc <;> simp [Pc.next] at hnext ⊢
  | failTail | failCleanup =>
    cases pc <;> simp [Pc.next] at hnext
    exact .inl rfl
  | _ => cases hf

/-- The worker of a task of `_fail` is gone after its first section. -/
def Failing (s : State) : Prop :=
  ∀ (k : ℕ) (w : WorkerId) (pc : Pc), s.tasks[k]? = some ⟨w, pc⟩ → pc.failed = true → Gone s w

theorem failEntered_gone {k : ℕ} {locked : Bool} {pc : Pc} (hr : Registered s)
    (hk : s.tasks[k]? = some ⟨w, .failBegin locked⟩)
    (hk' : (failSection s k w locked).tasks[k]? = some ⟨w, pc⟩) (hpc : pc.failed = true) :
    w ∈ s.issued ∧ ∀ y, (failSection s k w locked).worker? w = some y → y.state ∈ goneStates := by
  unfold failSection at hk' ⊢
  split at hk'
  · rename_i hany
    rw [if_pos hany]
    obtain ⟨x, hx, -⟩ := (Option.any_eq_true _ _).mp hany
    refine ⟨hr.worker_issued hx, fun y hy => ?_⟩
    have hmod := worker_modify (s.noSleepIntent w) w w (f := (·.failed)) fun _ => rfl
    rw [if_pos rfl] at hmod
    obtain ⟨z, -, rfl⟩ := Option.map_eq_some_iff.mp (hmod.symm.trans hy)
    simp [goneStates, WorkerPlacement.failed]
  · rw [finish_pc hk rfl hk'] at hpc
    cases hpc

theorem failing_step (hr : Registered s) (hf : Failing s) (hs : step cfg s a = some s') : Failing s' := by
  intro k w pc hk' hpc
  cases task_origin hs hk' with
  | kept _ hk => exact gone_step hr (hf k w pc hk hpc) hs
  | fresh _ hfresh => rcases hfresh with ⟨rfl, -⟩ | rfl | ⟨_, rfl⟩ | rfl | rfl <;> cases hpc
  | moved pc0 ok now elapsed ha hk hstep hnext =>
    rcases next_failed hnext hpc with hold | ⟨locked, rfl⟩
    · exact gone_step hr (hf k w pc0 hk hold) hs
    · -- the first section of `_fail`
      simp only [taskStep, Option.ite_none_right_eq_some, Option.some.injEq] at hstep
      obtain ⟨-, rfl⟩ := hstep
      obtain ⟨hissued, hgone⟩ := failEntered_gone hr hk hk' hpc
      exact ⟨issued_kept hs hissued, hgone⟩

/-- A stop by force that has been entered leaves the worker gone. -/
theorem stopEnter_gone {k : ℕ} (hissued : w ∈ s.issued)
    (hk : s.tasks[k]? = some ⟨w, .stopEnter true⟩) (hs : step cfg s a = some s') :
    s'.tasks[k]? = some ⟨w, .stopEnter true⟩ ∨ Gone s' w := by
  rcases task_kept hs hk with hkept | ⟨ok, now, elapsed, pc', ha, hstep, -, -⟩
  · exact .inl hkept
  · refine .inr ⟨issued_kept hs hissued, fun y hy => ?_⟩
    simp only [taskStep, Option.ite_none_right_eq_some, Option.some.injEq] at hstep
    obtain ⟨-, rfl⟩ := hstep
    unfold stopSection at hy
    split at hy
    · rename_i hnone
      cases hnone.symm.trans hy
    · rename_i x hx
      split at hy
      · rename_i hcold
        cases hx.symm.trans hy
        simp [goneStates, hcold]
      · simp only [not_true_eq_false, and_false, if_false] at hy
        have hmod := worker_modify s w w (f := (·.stopping)) fun _ => rfl
        rw [if_pos rfl] at hmod
        obtain ⟨z, -, rfl⟩ := Option.map_eq_some_iff.mp (hmod.symm.trans hy)
        simp [goneStates, WorkerPlacement.stopping]

/-- What an admission does to the workers. -/
theorem worker_admit {r : RequestId} {e : ℤ} {now : Datetime} (hs : step cfg s (.admitRequest w r e now) = some s')
    (v : WorkerId) : s'.worker? v = if v = w then (s.worker? v).map (·.admitRequest r e now) else s.worker? v := by
  simp only [step, Option.ite_none_right_eq_some, admitSection] at hs
  obtain ⟨-, hs⟩ := hs
  split at hs
  · cases hs
  · simp only [Option.ite_none_right_eq_some, Option.some.injEq] at hs
    obtain ⟨-, rfl⟩ := hs
    exact worker_modify s w v fun _ => rfl

end Supervisor
end LlmRio
