/-
# The worker state machine

What holds of a worker over every interleaving of launches, readiness,
admissions, releases, sleeps, offloads, wakes, drains, stops and failures:
COLD is final, the states in which an engine serves nothing have no admitted
request, /sleep is posted to an idle engine only, and a worker that was put
to sleep or drained admits nothing before a wake has made it READY
(`state_machine`).

A worker that has left READY without being LOADING comes back to READY only
at the end of a wake (`away_step`, `Woken`). Drains and failures do not take
the transition lock, so while an offload is under way the worker may become
DRAINING or COLD, and nothing else (`offload_step`).

Key definitions: `Lifecycle`, `Away`, `Woken`.
Key theorems: `lifecycle_step`, `cold_exec`, `away_exec`, `state_machine`.
-/
import LlmRio.Workers.Registered

namespace LlmRio
namespace Supervisor

open Runs

variable {cfg : Settings}

/-- The states in which a worker has no admitted request. -/
def emptyStates : List RuntimeState := [.loading, .offloading, .sleeping, .waking, .cold]

/-- An offload of the worker is between its first and its last section. -/
def Pc.offloading (pc : Pc) : Prop := pc = .offloadPost ∨ pc = .offloadFinish

structure Lifecycle (s : State) : Prop where
  registered : Registered s
  held : Held s
  empty : ∀ x ∈ s.workers, x.state ∈ emptyStates → x.admittedRequestIds = []
  offload : ∀ (k : ℕ) (w : WorkerId) (pc : Pc), s.tasks[k]? = some ⟨w, pc⟩ → pc.offloading →
    ∃ x, s.worker? w = some x ∧ x.state ∈ [.offloading, .draining, .cold] ∧ x.admittedRequestIds = []

/-! ### One change -/

section change

variable {s s' : State} {a : Act} {w : WorkerId} {x y : WorkerPlacement}

theorem Change.cold (hc : Change cfg s a w x y) (hx : x.state = .cold) : y.state = .cold := by
  cases hc with
  | spawned | pidCleared | released => exact hx
  | failed | stopped => rfl
  | drainingToSleep _ _ hc =>
    rcases hc with ⟨-, hs⟩ | ⟨_, _, -, -, hs⟩ <;> simp [hx] at hs
  | loaded _ _ hs | admitted _ _ hs | asleep _ _ hs | waking _ _ _ hs | awake _ _ hs =>
    rw [hx] at hs
    cases hs
  | drained _ _ _ hs | offloading _ _ _ hs => simp [hx] at hs
  | stopping _ _ _ hs => exact absurd hx hs

theorem Change.empty (hc : Change cfg s a w x y)
    (hx : x.state ∈ emptyStates → x.admittedRequestIds = []) (hy : y.state ∈ emptyStates) :
    y.admittedRequestIds = [] := by
  cases hc with
  | spawned | pidCleared => exact hx hy
  | released =>
    have := hx hy
    simp [WorkerPlacement.release, this]
  | failed | stopped => rfl
  | asleep _ _ hs => exact hx (by simp [emptyStates, hs])
  | waking _ _ _ hs => exact hx (by simp [emptyStates, hs])
  | offloading _ _ _ _ hadm => exact hadm
  | admitted _ _ hs =>
    have : x.state ∈ emptyStates := hy
    rw [hs] at this
    simp [emptyStates] at this
  | loaded | drainingToSleep | drained | awake | stopping =>
    simp [emptyStates, WorkerPlacement.loaded, WorkerPlacement.draining, WorkerPlacement.awake,
      WorkerPlacement.stopping] at hy

/-- Under the lock of another task, an idle worker whose offload is under way
becomes at most DRAINING or COLD. -/
theorem Change.offload (hc : Change cfg s a w x y) {j : ℕ} (hj : s.transition w = some j)
    (hfin : ∀ (k : ℕ) (pc : Pc), s.tasks[k]? = some ⟨w, pc⟩ → pc.holds = true → (∃ ok now elapsed,
      a = .task k ok now elapsed) → False)
    (hs : x.state ∈ [.offloading, .draining, .cold]) (hadm : x.admittedRequestIds = []) :
    y.state ∈ [.offloading, .draining, .cold] ∧ y.admittedRequestIds = [] := by
  have hno : ∀ {k now elapsed pc}, GoesOn s a k w pc now elapsed → pc.holds = true → False :=
    fun {k now elapsed pc} hr hp => hfin k pc hr.2 hp (hr.1.imp fun ok h => ⟨now, elapsed, h⟩)
  cases hc with
  | spawned | pidCleared => exact ⟨hs, hadm⟩
  | released => exact ⟨hs, by simp [WorkerPlacement.release, hadm]⟩
  | failed => exact ⟨by simp [WorkerPlacement.failed], rfl⟩
  | drained => exact ⟨by simp [WorkerPlacement.draining], hadm⟩
  | drainingToSleep _ _ _ hne => exact absurd hadm hne
  | loaded _ _ h | admitted _ _ h | waking _ _ _ h | awake _ _ h => simp [h] at hs
  | asleep _ hr => exact (hno hr rfl).elim
  | stopped _ hr => exact (hno hr rfl).elim
  | offloading _ _ ht | stopping _ _ ht =>
    rw [hj] at ht
    cases ht

end change

/-! ### The invariant -/

section lifecycle

variable {s s' : State} {a : Act}

theorem lifecycle_start : Lifecycle start :=
  ⟨registered_start, held_start, by simp [start], by simp [start]⟩

theorem empty_step (h : Lifecycle s) (hs : step cfg s a = some s') :
    ∀ x ∈ s'.workers, x.state ∈ emptyStates → x.admittedRequestIds = [] := by
  intro y hy hstate
  have hy' := (registered_step h.registered hs).worker_of_mem hy
  have hold : ∀ x, s.worker? y.id = some x → x.state ∈ emptyStates → x.admittedRequestIds = [] :=
    fun x hx => h.empty x (Table.lookup_some hx).1
  cases worker_step h.registered hs y.id with
  | same heq => exact hold y (heq ▸ hy') hstate
  | change x z hx hz hc =>
    rw [hy'] at hz
    cases hz
    exact hc.empty (hold x hx) hstate
  | launched profile gpus port now _ _ _ _ hz =>
    rw [hy'] at hz
    rw [Option.some.inj hz]
    rfl
  | dropped _ _ _ _ hz =>
    rw [hy'] at hz
    cases hz

/-- The task that enters an offload has set the worker to OFFLOADING. -/
theorem offload_entered {k : ℕ} {w : WorkerId} {now : Datetime}
    (h : (offloadSection s k w now).tasks[k]? = some ⟨w, .offloadPost⟩)
    (hk : s.tasks[k]? = some ⟨w, .offloadEnter⟩) :
    ∃ x, (offloadSection s k w now).worker? w = some x ∧ x.state = .offloading ∧
      x.admittedRequestIds = [] := by
  unfold offloadSection at h ⊢
  split at h
  · cases goto_pc hk rfl h
  · rename_i x hx
    split at h
    · cases goto_pc hk rfl h
    · rename_i hs
      rw [if_neg hs]
      split at h
      · cases goto_pc hk rfl h
      · rename_i hadm
        rw [if_neg hadm]
        refine ⟨x.offloading, ?_, rfl, not_not.mp hadm⟩
        have hlook := @Table.lookup_modify_self _ _ _ WorkerPlacement.id w
          WorkerPlacement.offloading (fun _ h => h) s.workers
        rw [show Table.lookup WorkerPlacement.id w s.workers = some x from hx] at hlook
        exact hlook

theorem offload_step (h : Lifecycle s) (hs : step cfg s a = some s') :
    ∀ (k : ℕ) (w : WorkerId) (pc : Pc), s'.tasks[k]? = some ⟨w, pc⟩ → pc.offloading →
      ∃ x, s'.worker? w = some x ∧ x.state ∈ [.offloading, .draining, .cold] ∧
        x.admittedRequestIds = [] := by
  intro j w pc hj hpc
  cases task_origin hs hj with
  | kept ha hj =>
    have hholds : pc.holds = true := by rcases hpc with rfl | rfl <;> rfl
    have hlock := h.held j ⟨w, pc⟩ hj hholds
    obtain ⟨x, hx, hstate, hadm⟩ := h.offload j w pc hj hpc
    cases worker_step h.registered hs w with
    | same heq => exact ⟨x, by rw [heq, hx], hstate, hadm⟩
    | change x' y hx' hy hc =>
      rw [hx] at hx'
      cases hx'
      refine ⟨y, hy, hc.offload hlock (fun k pc' hk hp hex => ?_) hstate hadm⟩
      obtain ⟨ok, now, elapsed, rfl⟩ := hex
      obtain rfl := h.held.unique hj hk hholds hp rfl
      exact ha ok now elapsed rfl
    | launched _ _ _ _ _ _ _ hnone _ =>
      rw [hx] at hnone
      cases hnone
    | dropped phase _ hl _ _ =>
      obtain ⟨x', hx', hload, -⟩ := h.registered.launching w phase hl
      rw [hx] at hx'
      cases hx'
      simp [hload] at hstate
  | fresh _ hpc' =>
    rcases hpc with rfl | rfl <;> simp at hpc'
  | moved pc0 ok now elapsed ha hk hs' hnext =>
    rcases hpc with rfl | rfl
    · -- from `offloadEnter`
      obtain rfl := next_offloadPost hnext
      simp only [taskStep, Option.ite_none_right_eq_some, Option.some.injEq] at hs'
      obtain ⟨-, rfl⟩ := hs'
      obtain ⟨x, hx, hstate, hadm⟩ := offload_entered hj hk
      exact ⟨x, hx, by simp [hstate], hadm⟩
    · -- from `offloadPost`, which changes no worker
      obtain rfl := next_offloadFinish hnext
      cases hs'
      exact h.offload j w .offloadPost hk (.inl rfl)

theorem lifecycle_step (h : Lifecycle s) (hs : step cfg s a = some s') : Lifecycle s' :=
  ⟨registered_step h.registered hs, held_step h.held hs, empty_step h hs, offload_step h hs⟩

theorem lifecycle_exec {as : List Act} (h : exec (step cfg) start as = some s) : Lifecycle s :=
  exec_invariant (fun _ _ _ hi hs => lifecycle_step hi hs) lifecycle_start h

/-! ### COLD is final -/

theorem cold_step (hr : Registered s) {w : WorkerId}
    (hcold : ∃ x, s.worker? w = some x ∧ x.state = .cold) (hs : step cfg s a = some s') :
    ∃ x, s'.worker? w = some x ∧ x.state = .cold := by
  obtain ⟨x, hx, hstate⟩ := hcold
  cases worker_step hr hs w with
  | same heq => exact ⟨x, by rw [heq, hx], hstate⟩
  | change x' y hx' hy hc =>
    rw [hx] at hx'
    cases hx'
    exact ⟨y, hy, hc.cold hstate⟩
  | launched _ _ _ _ _ _ _ hnone _ =>
    rw [hx] at hnone
    cases hnone
  | dropped phase _ hl _ _ =>
    obtain ⟨x', hx', hload, -⟩ := hr.launching w phase hl
    rw [hx] at hx'
    cases hx'
    rw [hstate] at hload
    cases hload

theorem cold_exec {as : List Act} (hr : Registered s) {w : WorkerId}
    (hcold : ∃ x, s.worker? w = some x ∧ x.state = .cold) (h : exec (step cfg) s as = some s') :
    ∃ x, s'.worker? w = some x ∧ x.state = .cold :=
  (exec_invariant (I := fun u => Registered u ∧ ∃ x, u.worker? w = some x ∧ x.state = .cold)
    (fun _ _ _ hi hs => ⟨registered_step hi.1 hs, cold_step hi.1 hi.2 hs⟩) ⟨hr, hcold⟩ h).2

/-! ### The way back to READY -/

/-- The worker is registered, and neither READY nor still LOADING. -/
def Away (s : State) (w : WorkerId) : Prop :=
  ∃ x, s.worker? w = some x ∧ x.state ≠ .ready ∧ x.state ≠ .loading

/-- In the schedule from `s` a wake of the worker reaches its end while the
worker is WAKING, and so makes it READY. -/
def Woken (cfg : Settings) (s : State) (as : List Act) (w : WorkerId) : Prop :=
  ∃ pre k ok now elapsed post u, as = pre ++ .task k ok now elapsed :: post ∧
    exec (step cfg) s pre = some u ∧ u.tasks[k]? = some ⟨w, .wakeFinish⟩ ∧
    ∃ x, u.worker? w = some x ∧ x.state = .waking

theorem Change.away {w : WorkerId} {x y : WorkerPlacement} (hc : Change cfg s a w x y)
    (hready : x.state ≠ .ready) (hload : x.state ≠ .loading) :
    (y.state ≠ .ready ∧ y.state ≠ .loading) ∨
      ∃ k ok now elapsed, a = .task k ok now elapsed ∧ s.tasks[k]? = some ⟨w, .wakeFinish⟩ ∧
        x.state = .waking := by
  cases hc with
  | spawned | pidCleared | released => exact .inl ⟨hready, hload⟩
  | loaded _ _ hs => exact absurd hs hload
  | admitted _ _ hs => exact absurd hs hready
  | @awake k now elapsed _ hr hs =>
    obtain ⟨⟨ok, ha⟩, hk⟩ := hr
    exact .inr ⟨k, ok, now, elapsed, ha, hk, hs⟩
  | failed | drainingToSleep | drained | offloading | asleep | waking | stopping | stopped =>
    left
    constructor <;> rintro ⟨⟩

theorem away_step (hr : Registered s) {w : WorkerId} (haway : Away s w)
    (hs : step cfg s a = some s') : Away s' w ∨ Woken cfg s [a] w := by
  obtain ⟨x, hx, hready, hload⟩ := haway
  cases worker_step hr hs w with
  | same heq => exact .inl ⟨x, by rw [heq, hx], hready, hload⟩
  | change x' y hx' hy hc =>
    rw [hx] at hx'
    cases hx'
    rcases hc.away hready hload with h | ⟨k, ok, now, elapsed, rfl, hk, hstate⟩
    · exact .inl ⟨y, hy, h⟩
    · exact .inr ⟨[], k, ok, now, elapsed, [], s, rfl, rfl, hk, x, hx, hstate⟩
  | launched _ _ _ _ _ _ _ hnone _ =>
    rw [hx] at hnone
    cases hnone
  | dropped phase _ hl _ _ =>
    obtain ⟨x', hx', hload', -⟩ := hr.launching w phase hl
    rw [hx] at hx'
    cases hx'
    exact absurd hload' hload

theorem Woken.head {w : WorkerId} {as : List Act} (h : Woken cfg s [a] w) : Woken cfg s (a :: as) w := by
  obtain ⟨pre, k, ok, now, elapsed, post, u, has, hpre, hrest⟩ := h
  rcases pre with _ | ⟨b, pre⟩
  · cases has
    exact ⟨[], k, ok, now, elapsed, as, u, rfl, hpre, hrest⟩
  · simp at has

theorem Woken.tail {w : WorkerId} {as : List Act} (hs : step cfg s a = some s')
    (h : Woken cfg s' as w) : Woken cfg s (a :: as) w := by
  obtain ⟨pre, k, ok, now, elapsed, post, u, rfl, hpre, hrest⟩ := h
  exact ⟨a :: pre, k, ok, now, elapsed, post, u, rfl, (exec_cons _).mpr ⟨s', hs, hpre⟩, hrest⟩

/-- A worker that is away stays away until it is woken. -/
theorem away_exec : ∀ {as : List Act} {s : State}, Registered s → ∀ {w : WorkerId}, Away s w →
    exec (step cfg) s as = some s' → Away s' w ∨ Woken cfg s as w
  | [], s, _, w, haway, h => by
    cases h
    exact .inl haway
  | a :: as, s, hr, w, haway, h => by
    obtain ⟨u, hs, hrest⟩ := (exec_cons _).mp h
    rcases away_step hr haway hs with haway' | hwoken
    · exact (away_exec (registered_step hr hs) haway' hrest).imp id (Woken.tail hs)
    · exact .inr hwoken.head

/-- An admission on a worker that was away follows its wake. -/
theorem admit_woken (hr : Registered s) {w : WorkerId} (haway : Away s w) {as : List Act}
    {r : RequestId} {e : ℤ} {now : Datetime}
    (h : exec (step cfg) s (as ++ [.admitRequest w r e now]) = some s') : Woken cfg s as w := by
  obtain ⟨u, hu, hadmit⟩ := (exec_append _).mp h
  rcases away_exec hr haway hu with ⟨x, hx, hready, -⟩ | hwoken
  · rw [exec_singleton] at hadmit
    simp only [step, Option.ite_none_right_eq_some, admitSection, hx, Option.some.injEq] at hadmit
    exact absurd hadmit.2.1 hready
  · exact hwoken

/-- `drain` is called on the worker, by itself or by `sleep` without the
weight cache. -/
def DrainCalled (cfg : Settings) (w : WorkerId) (a : Act) : Prop :=
  (∃ now, a = .drain w now) ∨ (cfg.ramWeightCacheEnabled = false ∧ ∃ now, a = .sleep w now)

/-- A drain leaves the worker DRAINING, STOPPING or COLD. -/
theorem drainSection_state {w : WorkerId} {x : WorkerPlacement} (hx : s.worker? w = some x)
    (now : Datetime) : ∃ y, (drainSection s w now).worker? w = some y ∧
      y.state ∈ [.draining, .stopping, .cold] := by
  unfold drainSection
  rw [hx]
  simp only
  split
  · rename_i hs
    exact ⟨x, hx, hs⟩
  · refine ⟨x.draining now, ?_, by simp [WorkerPlacement.draining]⟩
    have hlook := @Table.lookup_modify_self _ _ _ WorkerPlacement.id w
      (·.draining now) (fun _ h => h) s.workers
    rw [show Table.lookup WorkerPlacement.id w s.workers = some x from hx] at hlook
    split <;> exact hlook

theorem drained_state {w : WorkerId} {x : WorkerPlacement} (hx : s.worker? w = some x)
    (ha : DrainCalled cfg w a) (hs : step cfg s a = some s') :
    ∃ y, s'.worker? w = some y ∧ y.state ∈ [.draining, .stopping, .cold] := by
  rcases ha with ⟨now, rfl⟩ | ⟨hram, now, rfl⟩
  · simp only [step, Option.ite_none_right_eq_some, Option.some.injEq] at hs
    obtain ⟨-, rfl⟩ := hs
    exact drainSection_state hx now
  · simp only [step, Option.ite_none_right_eq_some, Option.some.injEq] at hs
    obtain ⟨-, rfl⟩ := hs
    unfold sleepSection
    rw [if_pos (by simp [hram])]
    exact drainSection_state hx now

/-! ### The claim on every run -/

/-- **The worker state machine.** In every reachable state: a COLD worker
stays COLD; the idle states have no admitted request; a worker to which
/sleep is about to be posted has none and admits none before it is woken; and
neither does a worker on which `drain` was called. -/
theorem state_machine (cfg : Settings) (as : List Act) (s : State)
    (h : exec (step cfg) start as = some s) :
    (∀ w x, s.worker? w = some x → x.state = .cold → ∀ bs t, exec (step cfg) s bs = some t →
      ∃ y, t.worker? w = some y ∧ y.state = .cold) ∧
    (∀ x ∈ s.workers, x.state ∈ emptyStates → x.admittedRequestIds = []) ∧
    (∀ (k : ℕ) (w : WorkerId), s.tasks[k]? = some ⟨w, .offloadPost⟩ →
      (∃ x, s.worker? w = some x ∧ x.admittedRequestIds = []) ∧
      ∀ bs r e now t, exec (step cfg) s (bs ++ [.admitRequest w r e now]) = some t → Woken cfg s bs w) ∧
    (∀ w a u, (s.worker? w).isSome → DrainCalled cfg w a → step cfg s a = some u →
      ∀ bs r e now t, exec (step cfg) u (bs ++ [.admitRequest w r e now]) = some t → Woken cfg u bs w) := by
  have hi := lifecycle_exec h
  refine ⟨?_, hi.empty, ?_, ?_⟩
  · exact fun w x hx hcold bs t ht => cold_exec hi.registered ⟨x, hx, hcold⟩ ht
  · intro k w hk
    obtain ⟨x, hx, hstate, hadm⟩ := hi.offload k w _ hk (.inl rfl)
    refine ⟨⟨x, hx, hadm⟩, fun bs r e now t ht => admit_woken hi.registered ⟨x, hx, ?_, ?_⟩ ht⟩ <;>
    · intro hs
      simp [hs] at hstate
  · intro w a u hsome ha hs bs r e now t ht
    obtain ⟨x, hx⟩ := Option.isSome_iff_exists.mp hsome
    obtain ⟨y, hy, hstate⟩ := drained_state hx ha hs
    refine admit_woken (registered_step hi.registered hs) ⟨y, hy, ?_, ?_⟩ ht <;>
    · intro hs
      simp [hs] at hstate

/-- A worker that is asked to sleep while it serves a request. -/
def sleepRun : List Act :=
  [.launch (oneGpu "kvcached") ["gpu"] "w" 0, .launchSpawned 1, .launchDone, .task 0 true 1 0,
    .admitRequest "w" "r" 10 2, .sleep "w" 3, .release "w" "r" 10 4, .task 2 true 5 0,
    .task 2 true 6 0, .task 2 true 7 1]

theorem state_machine_asleep :
    ∃ s, exec (step { kvcachedEnabled := true }) start sleepRun = some s ∧
      (s.worker? "w").map (·.state) = some .sleeping ∧
      ∀ x ∈ s.workers, x.state ∈ emptyStates → x.admittedRequestIds = [] :=
  ⟨_, rfl, rfl, (state_machine { kvcachedEnabled := true } sleepRun _ rfl).2.1⟩

end lifecycle
end Supervisor
end LlmRio
