/-
# The cleanup of a submission

From `enqueue` on, each part of the handler that holds the duty to clean up
meets it on every way out: `completeLease` settles the reservation and
releases the lease, the finalizer of a stream does so once, and the backends
end in one of the two. The handler leaves something reserved in the cases of
`leaks` and in no other.

Key definitions: `Stable`, `Holds`, `Ended`.
Key theorems: `completeLease_ends`, `finish_ends`, `chatCompletions_ends`,
`chatCompletions_leaks`, `leaves_nothing_reserved`.
-/
import LlmRio.Lib.Handlers
import LlmRio.Runtime.Leases

namespace LlmRio
namespace Gateway

open Handlers Runs

variable {cfg : Settings} {sub : Submission} {sc : Script} {env : ℕ → List Other}
variable {lease : Option WorkerLease} {l : WorkerLease} {I : State → Prop}

/-! ### The turns of the other tasks -/

/-- The turns of the other tasks keep `I`. -/
def Stable (cfg : Settings) (env : ℕ → List Other) (I : State → Prop) : Prop :=
  ∀ s, I s → I { s with world := s.world.turn cfg (env s.clock), clock := s.clock + 1 }

/-- The handler holds `lease`. -/
def Holds (sub : Submission) (lease : Option WorkerLease) (s : State) : Prop :=
  s.lease = lease ∧ Sound sub lease s.world

/-- The handler holds `lease`, and the finalizer of its stream has not run. -/
def Open (sub : Submission) (lease : Option WorkerLease) (s : State) : Prop :=
  Holds sub lease s ∧ s.finished = false

/-- The handler holds `lease`, and the reservation is settled. -/
def Closed (sub : Submission) (lease : Option WorkerLease) (s : State) : Prop :=
  Holds sub lease s ∧ Settled sub.reservationId s.world.db

/-- The handler holds `lease`, and it is out of the map. -/
def Off (sub : Submission) (lease : Option WorkerLease) (s : State) : Prop :=
  Holds sub lease s ∧ Out lease s.world

/-- The handler holds `lease` and has cleaned up. -/
def Ended (sub : Submission) (lease : Option WorkerLease) (s : State) : Prop :=
  Closed sub lease s ∧ Out lease s.world

section stable

variable (hforeign : Foreign sub env)

include hforeign

/-- What a step keeps of a sound world a turn keeps. -/
theorem stable_of_step {J : World → Prop}
    (hstep : ∀ w w' o, o.foreign sub = true → Sound sub lease w → J w → w.step cfg o = some w' → J w') :
    Stable cfg env fun s => Holds sub lease s ∧ J s.world := by
  intro s hs
  have hturn : Sound sub lease (s.world.turn cfg (env s.clock)) ∧ J (s.world.turn cfg (env s.clock)) :=
    turn_invariant (I := fun w => Sound sub lease w ∧ J w)
      (fun w w' o ho h hw =>
        ⟨sound_step h.1 (hforeign _ o ho) hw, hstep w w' o (hforeign _ o ho) h.1 h.2 hw⟩)
      ⟨hs.1.2, hs.2⟩
  exact ⟨⟨hs.1.1, hturn.1⟩, hturn.2⟩

theorem stable_holds : Stable cfg env (Holds sub lease) := fun s hs =>
  (stable_of_step hforeign (fun _ _ _ _ _ _ _ => trivial) s ⟨hs, trivial⟩).1

theorem stable_open : Stable cfg env (Open sub lease) := fun s hs =>
  ⟨stable_holds hforeign s hs.1, hs.2⟩

theorem stable_closed : Stable cfg env (Closed sub lease) :=
  stable_of_step hforeign (J := fun w => Settled sub.reservationId w.db) fun _ _ _ ho h hset hs =>
    settled_step h hset ho hs

theorem stable_off : Stable cfg env (Off sub lease) :=
  stable_of_step hforeign fun _ _ _ ho h hout hs => out_step h hout ho hs

theorem stable_ended : Stable cfg env (Ended sub lease) := fun s hs =>
  ⟨stable_closed hforeign s hs.1, (stable_off hforeign s ⟨hs.1.1, hs.2⟩).2⟩

end stable

/-! ### The calls -/

section calls

variable {E : Exn → State → Prop}

theorem others_ends (h : Stable cfg env I) : Ends I (others cfg env) (fun _ => I) E := Ends.modify h

/-- An await raises what the script says. -/
theorem await_ends (h : Stable cfg env I) (p : Point) :
    Ends I (await cfg sc env p) (fun _ s => I s ∧ sc.raises p = none)
      fun e s => I s ∧ sc.raises p = some e := by
  unfold await
  refine .bind (others_ends h) fun _ => ?_
  cases hp : sc.raises p with
  | none => exact .pure fun _ hs => ⟨hs, rfl⟩
  | some e => exact .throw fun _ hs => ⟨hs, rfl⟩

theorem await_keeps (h : Stable cfg env I) (p : Point) : Keeps I (await cfg sc env p) :=
  (await_ends h p).of_post (fun _ _ => And.left) fun _ _ => And.left

/-- An await that does not raise. -/
theorem await_returns (h : Stable cfg env I) {p : Point} (hp : sc.raises p = none) :
    Ends I (await cfg sc env p) (fun _ => I) E := by
  refine (await_ends h p).of_post (fun _ _ => And.left) fun e s hs => ?_
  rw [hp] at hs
  cases hs.2

theorem transaction_ends (h : Stable cfg env I) {op : Database.Op} {Q : State → Prop}
    (hq : ∀ s, I s → Q { s with world := { s.world with db := s.world.db.run op } }) :
    Ends I (transaction cfg env op) (fun _ => Q) E := by
  unfold transaction
  exact .bind (others_ends h) fun _ => .modify hq

theorem grant_ends (w : WorkerId) :
    Ends (Open sub none) (grant sub sc w) (fun l => Open sub (some l)) E := by
  unfold grant
  refine .bind (R := fun _ => Open sub (some ⟨w, sub.requestId, sub.reservationId, sub.estimatedTokens⟩))
    (.modify fun s hs => ?_) fun _ => .pure fun _ => id
  obtain ⟨⟨-, hsound⟩, hfin⟩ := hs
  exact ⟨⟨rfl, hsound.grant rfl sc.now⟩, hfin⟩

end calls

/-! ### The end of a lease -/

section cleanup

variable (hforeign : Foreign sub env)

include hforeign

theorem settleQuota_ends (n : ℤ) (p c : Option ℤ) (e : Option String) {E : Exn → State → Prop} :
    Ends (Holds sub lease) (settleQuota cfg sub sc env n p c e) (fun _ => Closed sub lease) E := by
  unfold settleQuota
  refine transaction_ends (stable_holds hforeign) fun s hs => ⟨⟨hs.1, hs.2.database rfl ?_⟩, ?_⟩
  · exact fun _ _ _ _ _ _ hop => nomatch hop
  · exact settled_run hs.2.kept _ _ _ _ _ _

theorem releaseReservation_ends (code : String) {E : Exn → State → Prop} :
    Ends (Holds sub lease) (releaseReservation cfg sub sc env code) (fun _ => Closed sub lease) E :=
  settleQuota_ends hforeign 0 none none (some code)

/-- `release` of a lease whose reservation is settled. -/
theorem release_ends {E : Exn → State → Prop} :
    Ends (Closed sub (some l)) (release cfg sc env l) (fun _ => Ended sub (some l)) E := by
  unfold release
  refine .bind (others_ends (stable_closed hforeign)) fun _ => .get_bind fun t =>
    .ite (fun hany => ?_) fun hany => ?_
  · refine .bind (R := fun _ => Ended sub (some l)) (.modify fun s hs => ?_) fun _ =>
      .bind (others_ends (stable_ended hforeign)) fun _ => .modify fun s hs => ?_
    · obtain ⟨⟨⟨hlease, hsound⟩, hset⟩, rfl⟩ := hs
      exact ⟨⟨⟨hlease, hsound.pop (hsound.mem_iff_any.mp hany)⟩, hset⟩, out_pop _ l⟩
    · obtain ⟨⟨⟨hlease, hsound⟩, hset⟩, hout⟩ := hs
      exact ⟨⟨⟨hlease, hsound.released sc.now⟩, hset⟩, hout⟩
  · -- another task has taken the lease out
    refine .pure fun s hs => ?_
    obtain ⟨hclosed, rfl⟩ := hs
    refine ⟨hclosed, fun k hk hin => hany ?_⟩
    obtain rfl : l = k := Option.some.inj hk
    exact hclosed.1.2.mem_iff_any.mpr hin

theorem finishLease_ends (n p c : ℤ) (e : Option String) {E : Exn → State → Prop} :
    Ends (Holds sub (some l)) (finishLease cfg sub sc env l n p c e) (fun _ => Ended sub (some l)) E :=
  .bind (settleQuota_ends hforeign n (some p) (some c) e) fun _ => release_ends hforeign

/-- The cleanup task has run when the handler sees its own cancellation. -/
theorem completeLease_ends (n p c : ℤ) (e : Option String) :
    Reaches (Holds sub (some l)) (completeLease cfg sub sc env l n p c e) (Ended sub (some l)) :=
  .bind (finishLease_ends hforeign n p c e) fun _ => await_keeps (stable_ended hforeign) .shield

/-- The finalizer cleans up, or has done so. -/
theorem finish_ends (n p c : ℤ) (e : Option String) :
    Reaches (fun s => Holds sub (some l) s ∧ (s.finished = true → Ended sub (some l) s))
      (finish cfg sub sc env l n p c e) (Ended sub (some l)) := by
  unfold finish
  refine .get_bind fun t => .ite (fun hfin => ?_) fun hfin => ?_
  · refine .bind (R := fun _ => Holds sub (some l)) (.modify fun s hs => hs.1.1) fun _ => ?_
    exact (completeLease_ends hforeign n p c e).tryFinally
      (await_keeps (stable_ended hforeign) .closeResponse)
  · refine .pure fun s hs => ?_
    obtain ⟨⟨-, hdone⟩, rfl⟩ := hs
    exact hdone (by simpa using hfin)

/-- The finalizer of a stream runs for the first time. -/
theorem finish_open (n p c : ℤ) (e : Option String) :
    Reaches (Open sub (some l)) (finish cfg sub sc env l n p c e) (Ended sub (some l)) := by
  refine (finish_ends hforeign n p c e).of_pre fun s hs => ⟨hs.1, fun hfin => ?_⟩
  rw [hs.2] at hfin
  cases hfin

/-! ### The backends -/

theorem readResponse_keeps : Keeps (Holds sub lease) (readResponse cfg sub sc env) := by
  have hstable : Stable cfg env (Holds sub lease) := stable_holds hforeign
  have hfail : ∀ code, Keeps (Holds sub lease) (do setError code; throw (.other code) : Handler Unit) :=
    fun code => Keeps.bind (.modify fun _ => id) fun _ => .throw
  unfold readResponse
  refine (await_keeps hstable .post).bind fun _ => .ite (fun _ => hfail _) fun _ => ?_
  cases sc.usage with
  | none => exact hfail _
  | some usage =>
    refine (await_keeps hstable .parse).bind fun _ => Keeps.bind (.modify fun s hs => ?_) fun _ =>
      await_keeps hstable .respond
    unfold Usage.count
    simp only
    split <;> exact hs

theorem nonstreamBackend_ends :
    Reaches (Holds sub (some l)) (nonstreamBackend cfg sub sc env l) (Ended sub (some l)) := by
  have hkeeps : Keeps (Holds sub (some l)) (readResponse cfg sub sc env) := readResponse_keeps hforeign
  unfold nonstreamBackend
  refine Reaches.tryFinally (I := Holds sub (some l)) (hkeeps.tryCatch fun e => ?_) ?_
  · cases e with
    | cancelledError | timeoutError | httpError => exact Keeps.bind (.modify fun _ => id) fun _ => .throw
    | other => exact .throw
  · exact .get_bind fun t => (completeLease_ends hforeign _ _ _ _).of_pre fun _ => And.left

/-- A stream is opened, or the lease is cleaned up, where `send` raises what
`_open_worker_stream` catches. -/
theorem openWorkerStream_ends (hbuild : sc.raises .buildRequest = none)
    (hsend : (sc.raises .send).any Exn.uncaught = false) :
    Ends (Open sub (some l)) (openWorkerStream cfg sub sc env l)
      (fun _ s => Open sub (some l) s ∧ sc.raises .send = none ∧ sc.isSuccess = true)
      fun _ => Ended sub (some l) := by
  have hstable : Stable cfg env (Open sub (some l)) := stable_open hforeign
  have hraise : ∀ (code : String) (e : Exn) {Q : Unit → State → Prop}, Ends (Open sub (some l))
      (do completeLease cfg sub sc env l 0 0 0 (some code); throw e) Q fun _ => Ended sub (some l) :=
    fun code e _ => .bind ((completeLease_ends hforeign 0 0 0 (some code)).of_pre fun _ => And.left) fun _ =>
      .throw fun _ => id
  unfold openWorkerStream
  refine .bind (await_returns hstable hbuild) fun _ => .bind
    (R := fun _ s => Open sub (some l) s ∧ sc.raises .send = none) ?_ fun _ => .ite (fun hfailed => ?_)
    fun hsuccess => ?_
  · refine .tryCatch (await_ends hstable .send) fun e => .assume fun heq => ?_
    cases e with
    | cancelledError | timeoutError | httpError => exact hraise _ _
    | other name => simp [heq, Exn.uncaught] at hsend
  · refine .bind (R := fun _ => Ended sub (some l))
      ((completeLease_ends hforeign 0 0 0 _).of_pre fun _ hs => hs.1.1) fun _ => ?_
    exact .bind (await_keeps (stable_ended hforeign) .closeResponse) fun _ => .throw fun _ => id
  · exact .pure fun s hs => ⟨hs.1, hs.2, by simpa using hsuccess⟩

theorem readChunks_keeps : ∀ (k : ℕ) (chunks : List Chunk),
    Keeps (Open sub lease) (readChunks cfg sc env k chunks)
  | k, [] => await_keeps (stable_open hforeign) (.next k)
  | k, c :: chunks => by
    have hstable : Stable cfg env (Open sub lease) := stable_open hforeign
    unfold readChunks
    refine (await_keeps hstable (.next k)).bind fun _ => (await_keeps hstable (.touch k)).bind fun _ => ?_
    refine Keeps.bind (.modify fun _ => id) fun _ => ?_
    refine (await_keeps hstable (.read k)).bind fun _ => (await_keeps hstable (.yielded k)).bind fun _ => ?_
    exact readChunks_keeps (k + 1) chunks

/-- The body of a stream ends in its finalizer. -/
theorem streamBackend_ends :
    Reaches (Open sub (some l)) (streamBackend cfg sub sc env l) (Ended sub (some l)) := by
  have hstable : Stable cfg env (Open sub (some l)) := stable_open hforeign
  have herror : ∀ code, Keeps (Open sub (some l)) (do setError code; await cfg sc env .yieldError) :=
    fun code => Keeps.bind (.modify fun _ => id) fun _ => await_keeps hstable .yieldError
  unfold streamBackend
  refine Reaches.tryFinally (I := Open sub (some l)) (Keeps.tryCatch ?_ fun e => ?_) ?_
  · refine (readChunks_keeps hforeign 0 sc.chunks).bind fun _ => .get_bind fun t =>
      .ite (fun _ => ?_) fun _ => ?_
    · exact (herror _).of_pre fun _ => And.left
    · exact .pure fun _ => And.left
  · cases e with
    | cancelledError => exact Keeps.bind (.modify fun _ => id) fun _ => .throw
    | timeoutError | httpError => exact herror _
    | other name => exact .throw
  · exact .get_bind fun t => (finish_open hforeign _ _ _ _).of_pre fun _ => And.left

/-- The body or the background task of the response cleans up. -/
theorem streamingResponse_ends (h : sc.bodyStarts = true ∨ sc.backgroundRuns = true) :
    Reaches (Open sub (some l)) (streamingResponse cfg sub sc env l) (Ended sub (some l)) := by
  unfold streamingResponse
  by_cases hbody : sc.bodyStarts = true
  · have hended : Keeps (Ended sub (some l))
        (if sc.backgroundRuns then abandon cfg sub sc env l else pure ()) :=
      .ite (fun _ => (finish_ends hforeign 0 0 0 _).of_pre fun s hs => ⟨hs.1.1, fun _ => hs⟩)
        fun _ => Keeps.pure
    rw [if_pos hbody]
    exact (streamBackend_ends hforeign).tryFinally hended
  · have hbackground : sc.backgroundRuns = true := h.resolve_left hbody
    rw [if_neg hbody, if_pos hbackground]
    exact Reaches.tryFinally (I := Open sub (some l)) Keeps.pure (finish_open hforeign 0 0 0 _)

/-! ### The submission -/

/-- A release of the reservation is enough where the lease is out of the map. -/
theorem releaseReservation_off (code : String) {E : Exn → State → Prop} :
    Ends (Off sub lease) (releaseReservation cfg sub sc env code) (fun _ => Ended sub lease) E := by
  unfold releaseReservation
  refine transaction_ends (stable_off hforeign) fun s hs => ⟨⟨⟨hs.1.1, hs.1.2.database rfl ?_⟩, ?_⟩, hs.2⟩
  · exact fun _ _ _ _ _ _ hop => nomatch hop
  · exact settled_run hs.1.2.kept 0 none none (some code) _ _

omit hforeign in
theorem off_of_open {s : State} (h : Open sub none s) : ∃ lease, Off sub lease s :=
  ⟨none, h.1, fun _ hl => nomatch hl⟩

theorem admitCancelled_ends (w : WorkerId) {E : Exn → State → Prop} :
    Ends (Open sub none) (admitCancelled cfg sub sc env w) (fun _ s => ∃ lease, Off sub lease s) E := by
  unfold admitCancelled
  refine .bind (grant_ends w) fun l => .bind ((releaseReservation_ends hforeign _).of_pre fun _ => And.left)
    fun _ => ?_
  exact (release_ends hforeign).of_post (fun _ _ h => ⟨_, h.1.1, h.2⟩) fun _ _ => id

/-- `enqueue` returns the lease, or raises with nothing left but the reservation. -/
theorem enqueue_ends (h : sc.raises .serviceMode = none → ∀ w, sc.assignment ≠ .cancelled (.leased w)) :
    Ends (Open sub none) (enqueue cfg sub sc env)
      (fun l s => Open sub (some l) s ∧ sc.raises .serviceMode = none ∧ ∃ w, sc.assignment = .result w)
      fun _ s => ∃ lease, Off sub lease s := by
  have hstable : Stable cfg env (Open sub none) := stable_open hforeign
  have hremove : ∀ {P : State → Prop} {Q : WorkerLease → State → Prop}, Stable cfg env P →
      (∀ s, P s → ∃ lease, Off sub lease s) → Ends P (do await cfg sc env .remove; throw .cancelledError) Q
        fun _ s => ∃ lease, Off sub lease s :=
    fun hP hoff => .bind ((await_keeps hP .remove).of_post (fun _ _ => id) fun _ => hoff) fun _ =>
      .throw hoff
  unfold enqueue
  refine .bind ((await_ends hstable .serviceMode).of_post (fun _ _ => id) fun _ s hs => off_of_open hs.1)
    fun _ => .assume fun hmode => .bind (others_ends hstable) fun _ => ?_
  cases hassign : sc.assignment with
  | result w => exact (grant_ends w).of_post (fun _ _ hs => ⟨hs, hmode, w, rfl⟩) fun _ _ => id
  | exception e => exact .throw fun _ => off_of_open
  | cancelled place =>
    cases place with
    | queued =>
      refine .bind ((await_keeps hstable .remove).of_post (fun _ _ => id) fun _ _ => off_of_open) fun _ =>
        .bind ((releaseReservation_ends hforeign _).of_pre fun _ => And.left) fun _ => ?_
      exact .throw fun s hs => ⟨none, hs.1, fun _ hl => nomatch hl⟩
    | inAdmission admitted =>
      cases admitted with
      | none => exact hremove hstable fun _ => off_of_open
      | some w =>
        refine .bind (admitCancelled_ends hforeign w) fun _ => .of_exists fun lease => ?_
        exact hremove (stable_off hforeign) fun s hs => ⟨lease, hs⟩
    | leased w => exact absurd hassign (h hmode w)

theorem createInferenceRequest_ends (hcreate : sc.raises .createRequest = none) {E : Exn → State → Prop} :
    Ends (Open sub none) (createInferenceRequest cfg sub sc env) (fun _ => Open sub none) E := by
  unfold createInferenceRequest
  refine .bind (await_returns (stable_open hforeign) hcreate) fun _ =>
    transaction_ends (stable_open hforeign) fun s hs => ?_
  refine ⟨⟨hs.1.1, hs.1.2.database ?_ fun _ _ _ _ _ _ hop => nomatch hop⟩, hs.2⟩
  simpa [Database.Op.linked, Option.all_eq_true] using hs.1.2.kept.owned

/-- Where it does not leak, the handler cleans up on every way out. -/
theorem chatCompletions_ends (hleaks : leaks sub sc = false) :
    Reaches (Open sub none) (chatCompletions cfg sub sc env) fun s => ∃ lease, Ended sub lease s := by
  simp only [leaks, Bool.or_eq_false_iff, Option.isSome_eq_false_iff, Option.isNone_iff_eq_none] at hleaks
  obtain ⟨hcreate, hleaks⟩ := hleaks
  have hleased : sc.raises .serviceMode = none → ∀ w, sc.assignment ≠ .cancelled (.leased w) := by
    intro hmode w hassign
    simp [hmode, hassign] at hleaks
  unfold chatCompletions
  refine .bind (createInferenceRequest_ends hforeign hcreate) fun _ => .bind
    (.tryCatch (enqueue_ends hforeign hleased) fun e => ?_) fun l => .assume fun ⟨hmode, w, hassign⟩ => ?_
  · exact .of_exists fun lease => .bind (releaseReservation_off hforeign _) fun _ =>
      .throw fun s hs => ⟨lease, hs⟩
  · have hstream : sub.isStream = true → streamLeaks sc = false := by
      intro hs
      simpa [hmode, hassign, hs] using hleaks
    refine Ends.of_post (Q := fun _ => Ended sub (some l)) (E := fun _ => Ended sub (some l)) ?_
      (fun _ s hs => ⟨_, hs⟩) fun _ s hs => ⟨_, hs⟩
    refine .ite (fun hs => ?_) fun _ => (nonstreamBackend_ends hforeign).of_pre fun _ => And.left
    simp only [streamLeaks, Bool.or_eq_false_iff, Option.isSome_eq_false_iff,
      Option.isNone_iff_eq_none] at hstream
    obtain ⟨⟨hbuild, hsend⟩, hdropped⟩ := hstream hs
    refine .bind (openWorkerStream_ends hforeign hbuild hsend) fun _ => .assume fun ⟨hsent, hsuccess⟩ =>
      streamingResponse_ends hforeign ?_
    by_contra hruns
    simp only [not_or, Bool.not_eq_true] at hruns
    simp [dropped, hsent, hsuccess, hruns] at hdropped

end cleanup

/-! ### The leaks -/

/-- The other tasks are idle. -/
def idle : ℕ → List Other := fun _ => []

/-- The reservation is as `reserve_quota` has left it. -/
def Reserved (sub : Submission) (q : QuotaReservation) (s : State) : Prop :=
  s.world.db.reservation? sub.reservationId = some q

/-- The handler was granted a lease, and it is in the map. -/
def Stranded (s : State) : Prop := ∃ l, s.lease = some l ∧ l ∈ s.world.requestLeases

section leaking

variable {q : QuotaReservation} {w : WorkerId} {E : Exn → State → Prop}

theorem stable_reserved : Stable cfg idle (Reserved sub q) := fun _ => id

theorem stable_stranded : Stable cfg idle Stranded := fun _ => id

theorem grant_reserved : Ends (Reserved sub q) (grant sub sc w) (fun _ => Reserved sub q) E := by
  unfold grant
  refine .bind (R := fun _ => Reserved sub q) (.modify fun s hs => ?_) fun _ => .pure fun _ => id
  exact (Database.reservation_marked _).trans hs

/-- In a stream that leaks the reservation is kept, up to the dropped response. -/
theorem openWorkerStream_reserved (h : streamLeaks sc = true) :
    Ends (Reserved sub q) (openWorkerStream cfg sub sc idle l)
      (fun _ s => Reserved sub q s ∧ dropped sc = true) fun _ => Reserved sub q := by
  unfold openWorkerStream
  refine .bind ((await_ends stable_reserved .buildRequest).of_post (fun _ _ => id) fun _ _ => And.left)
    fun _ => .assume fun hbuild => .bind (R := fun _ s => Reserved sub q s ∧ sc.raises .send = none) ?_
    fun _ => .assume fun hsend => ?_
  · refine .tryCatch (await_ends stable_reserved .send) fun e => .assume fun hsend => ?_
    have huncaught : e.uncaught = true := by simpa [streamLeaks, dropped, hbuild, hsend] using h
    cases e with
    | cancelledError | timeoutError | httpError => cases huncaught
    | other name => exact .throw fun _ => id
  · have hdropped : dropped sc = true := by simpa [streamLeaks, hbuild, hsend] using h
    have hsuccess : sc.isSuccess = true := by
      simp only [dropped, decide_eq_true_eq] at hdropped
      exact hdropped.2.1
    exact .ite (fun hfailed => absurd hsuccess hfailed) fun _ => .pure fun _ hs => ⟨hs, hdropped⟩

theorem streamingResponse_dropped (h : dropped sc = true) :
    Keeps I (streamingResponse cfg sub sc env l) := by
  simp only [dropped, decide_eq_true_eq] at h
  obtain ⟨-, -, hbody, hbackground⟩ := h
  unfold streamingResponse
  rw [if_neg hbody, if_neg hbackground]
  exact Reaches.tryFinally (I := I) Keeps.pure Keeps.pure

theorem enqueue_reserved (hmode : sc.raises .serviceMode = none) (hassign : sc.assignment = .result w) :
    Ends (Reserved sub q) (enqueue cfg sub sc idle) (fun _ => Reserved sub q) E := by
  unfold enqueue
  rw [hassign]
  exact .bind (await_returns stable_reserved hmode) fun _ => .bind (others_ends stable_reserved) fun _ =>
    grant_reserved

/-- Cancelled after its assignment was set, `enqueue` raises and strands the lease. -/
theorem enqueue_stranded (hmode : sc.raises .serviceMode = none)
    (hassign : sc.assignment = .cancelled (.leased w)) {Q : WorkerLease → State → Prop} :
    Ends (Reserved sub q) (enqueue cfg sub sc idle) Q fun _ => Stranded := by
  unfold enqueue
  rw [hassign]
  refine .bind (await_returns stable_reserved hmode) fun _ => .bind (others_ends stable_reserved) fun _ =>
    .bind (R := fun _ => Stranded) ?_ fun _ => .bind (await_keeps stable_stranded .remove) fun _ =>
    .throw fun _ => id
  unfold grant
  refine .bind (R := fun _ => Stranded) (.modify fun s _ => ⟨_, rfl, ?_⟩) fun _ => .pure fun _ => id
  exact List.mem_append_right _ (List.mem_singleton_self _)

/-- What leaks leaves the reservation or the lease. -/
theorem chatCompletions_leaks (h : leaks sub sc = true) :
    Reaches (Reserved sub q) (chatCompletions cfg sub sc idle) fun s => Reserved sub q s ∨ Stranded s := by
  unfold chatCompletions createInferenceRequest
  refine .bind (R := fun _ s => Reserved sub q s ∧ sc.raises .createRequest = none)
    (.bind ((await_ends stable_reserved .createRequest).of_post (fun _ _ => id) fun _ _ hs => .inl hs.1)
      fun _ => .assume fun hcreate => transaction_ends stable_reserved fun s hs => ?_)
    fun _ => .assume fun hcreate => ?_
  · exact ⟨(Database.reservation_created _).trans hs, hcreate⟩
  · simp only [leaks, hcreate, Option.isSome_none, Bool.false_or, Bool.and_eq_true,
      Option.isNone_iff_eq_none] at h
    obtain ⟨hmode, h⟩ := h
    split at h
    · rename_i w hassign
      refine .bind (R := fun _ _ => False) (.tryCatch (enqueue_stranded hmode hassign) fun e => ?_)
        fun _ => .of_false
      exact .bind (transaction_ends stable_stranded fun _ => id) fun _ => .throw fun _ => .inr
    · rename_i w hassign
      obtain ⟨hstream, hleaks⟩ := Bool.and_eq_true_iff.mp h
      refine .bind (.tryCatch (F := fun _ _ => False) (enqueue_reserved hmode hassign) fun _ => .of_false)
        fun l => ?_
      rw [if_pos hstream]
      refine Ends.of_post (Q := fun _ => Reserved sub q) (E := fun _ => Reserved sub q) ?_ (fun _ _ => .inl)
        fun _ _ => .inl
      exact .bind (openWorkerStream_reserved hleaks) fun _ => .assume fun hdropped =>
        streamingResponse_dropped hdropped
    · cases h

end leaking

/-! ### What is left -/

/-- What holds on every way out holds of the state in which the handler ends. -/
theorem run_of_reaches {w : World} {P Q : State → Prop} (h : Reaches P (chatCompletions cfg sub sc env) Q)
    (hP : P { world := w }) : Q (run cfg sub sc env w) := by
  have hend := ends_iff.mp h _ hP
  unfold run EStateM.run
  cases hr : chatCompletions cfg sub sc env { world := w } with
  | ok a s => simpa only [hr, ending] using hend
  | error e s => simpa only [hr, ending] using hend

theorem clean_of_ended {s : State} (h : Ended sub lease s) : Clean sub s := by
  obtain ⟨⟨⟨rfl, hsound⟩, hset⟩, hout⟩ := h
  refine ⟨hset, fun l hl => ?_⟩
  obtain ⟨-, hlinked⟩ := hsound.linked l hl
  refine ⟨fun m hm hreq => hout l hl ?_, fun hrel => ?_⟩
  · rwa [← hlinked.only m (.inl hm) hreq]
  · exact (hlinked.held.resolve_left (hout l hl)).resolve_left hrel

/-- Whatever the other tasks do, the handler and its cleanup leave nothing
reserved, unless the calls end in one of the ways of `leaks`. -/
theorem leaves_nothing_reserved (cfg : Settings) (models : List CatalogModel) (ops : List Database.Op)
    (sub : Submission) (sc : Script) (w : World) (q : QuotaReservation)
    (hdb : exec Database.step (Database.fresh models) ops = some w.db)
    (hq : w.db.reservation? sub.reservationId = some q) (hrequest : q.requestId = sub.requestId)
    (hreserved : q.state = .reserved) (hfresh : Fresh sub.requestId w) :
    (∀ env, Foreign sub env → Clean sub (run cfg sub sc env w)) ↔ leaks sub sc = false := by
  refine ⟨fun h => ?_, fun hleaks env hforeign => ?_⟩
  · by_contra hleaks
    have hclean := h idle fun _ _ ho => nomatch ho
    rcases run_of_reaches (chatCompletions_leaks (by simpa using hleaks)) hq with hres | ⟨l, hl, hmem⟩
    · exact hclean.1 q hres hreserved
    · exact (hclean.2 l hl).1 l hmem rfl
  · have hwf : w.db.Wf :=
      exec_invariant (I := Database.Wf) (fun _ _ _ => Database.wf_step) (Database.wf_fresh models) hdb
    have howned : ∀ p, w.db.reservation? sub.reservationId = some p → p.requestId = sub.requestId := by
      intro p hp
      obtain rfl : q = p := Option.some.inj (hq.symm.trans hp)
      exact hrequest
    have hopen : Open sub none { world := w } :=
      ⟨⟨rfl, ⟨hwf, howned⟩, fun _ hl => (nomatch hl), fun _ => hfresh⟩, rfl⟩
    obtain ⟨lease, hended⟩ := run_of_reaches (chatCompletions_ends hforeign hleaks) hopen
    exact clean_of_ended hended

/-- A submission has reserved 60 tokens, and one worker is READY. -/
def reservedWorld : World where
  db := ((Database.fresh [⟨"m", "model", .available, none⟩]).run
    (.createKey "k" "alice" .user "acct" "alice" "rio_k" 100 false)).run
    (.reserveQuota "r1" "h1" ⟨"k", "acct"⟩ "m" 60 "q1" "l1")
  supervisor :=
    { workers := [(Supervisor.newWorker (Supervisor.oneGpu "native") ["gpu"] "w1" 8000 0).loaded 0] }

def submission (isStream : Bool) : Submission where
  requestId := "r1"
  principal := ⟨"k", "acct"⟩
  modelId := "m"
  reservationId := "q1"
  estimatedTokens := 60
  promptEstimate := 10
  isStream := isStream

/-- The worker's answer to a plain request is no JSON. -/
theorem leaves_nothing_reserved_plain :
    Clean (submission false) (run {} (submission false)
      { raises := fun _ => none, assignment := .result "w1" } idle reservedWorld) :=
  (leaves_nothing_reserved {} [⟨"m", "model", .available, none⟩]
    [.createKey "k" "alice" .user "acct" "alice" "rio_k" 100 false,
     .reserveQuota "r1" "h1" ⟨"k", "acct"⟩ "m" 60 "q1" "l1"] (submission false) _ reservedWorld _
    (by rfl) (by rfl) (by rfl) (by rfl) (by rintro m (hm | hm) <;> cases hm)).mpr (by rfl) idle
    fun _ _ ho => nomatch ho

/-- `build_request` cannot encode the payload of a stream: the reservation
stays RESERVED. -/
theorem build_request_leaks :
    ¬ Clean (submission true) (run {} (submission true)
      { raises := fun p => if p = .buildRequest then some (.other "ValueError") else none
        assignment := .result "w1" }
      idle reservedWorld) := by
  intro h
  exact h.1 _ (by rfl) (by rfl)

end Gateway
end LlmRio
