import Underwriting.Infrastructure.Breaker
import Underwriting.Run.Replies

/-!
# A breaker and its history

One caller at a time uses a breaker, on a clock that does not run backwards. Then the breaker
is a function of the calls that have been executed: it refuses a call exactly when enough of
the latest ones have failed in a row and the last failure is too recent. The state, the
counter and the time stamp carry no more than that, and reading the state only moves it ahead
of the next call to where that call would move it anyway. `Conforms` says the same of
`CircuitBreaker.call`: a refused call does not run its function, and any other runs it once.
-/

namespace Underwriting

open Python

/-! ## Histories -/

/-- One use of a breaker: a call whose function, once it runs, ends with the outcome at time
`finish`, or a reading of the state. A refused call has no finish; its start stands for it. -/
inductive Operation (ε α : Type) where
  | call (start : ℚ) (outcome : Except ε α) (finish : ℚ)
  | read (now : ℚ)

/-- What a caller gets: the breaker's own error without a run of the function, or the outcome
of its one run. -/
inductive Response (ε α : Type) where
  | refused
  | ran (outcome : Except ε α)

section Definitions

variable {ε α : Type}

def Operation.isCall : Operation ε α → Bool
  | .call _ _ _ => true
  | .read _ => false

/-- The operations follow one another on the clock, from `now` on. -/
def Chronological : ℚ → List (Operation ε α) → Prop
  | _, [] => True
  | now, .call start _ finish :: ops =>
      now ≤ start ∧ start ≤ finish ∧ Chronological finish ops
  | now, .read time :: ops => now ≤ time ∧ Chronological time ops

/-- The responses to the calls of a history. -/
def CircuitBreaker.responses (b : CircuitBreaker) :
    List (Operation ε α) → List (Response ε α)
  | [] => []
  | .read now :: ops => (b.refresh now).responses ops
  | .call start outcome finish :: ops =>
      if (b.refresh start).state = .opened then .refused :: (b.refresh start).responses ops
      else .ran outcome :: ((b.refresh start).complete outcome finish).responses ops

/-! ## The specification -/

/-- How many of the latest calls have failed, the latest first. -/
def failuresInARow : List (Except ε α × ℚ) → ℕ
  | (.error _, _) :: past => failuresInARow past + 1
  | (.ok _, _) :: _ | [] => 0

/-- Enough of the latest calls have failed, and not enough time has passed since. -/
def Refuses (threshold : ℕ) (timeout : ℚ) (past : List (Except ε α × ℚ)) (now : ℚ) : Prop :=
  threshold ≤ failuresInARow past ∧ ∃ last ∈ past.head?, now - last.2 < timeout

instance (threshold : ℕ) (timeout : ℚ) (past : List (Except ε α × ℚ)) (now : ℚ) :
    Decidable (Refuses threshold timeout past now) :=
  inferInstanceAs (Decidable (_ ∧ _))

/-- The responses that the executed calls, the latest first, call for. -/
def expected (threshold : ℕ) (timeout : ℚ) :
    List (Except ε α × ℚ) → List (Operation ε α) → List (Response ε α)
  | _, [] => []
  | past, .read _ :: ops => expected threshold timeout past ops
  | past, .call start outcome finish :: ops =>
      if Refuses threshold timeout past start then
        .refused :: expected threshold timeout past ops
      else .ran outcome :: expected threshold timeout ((outcome, finish) :: past) ops

/-- The calls that have been executed after a history, the latest first. -/
def executed (threshold : ℕ) (timeout : ℚ) :
    List (Except ε α × ℚ) → List (Operation ε α) → List (Except ε α × ℚ)
  | past, [] => past
  | past, .read _ :: ops => executed threshold timeout past ops
  | past, .call start outcome finish :: ops =>
      if Refuses threshold timeout past start then executed threshold timeout past ops
      else executed threshold timeout ((outcome, finish) :: past) ops

end Definitions

/-! ## The invariant -/

section Invariant

variable {ε α : Type} {threshold : ℕ} {timeout : ℚ} {past : List (Except ε α × ℚ)} {now : ℚ}
  {b : CircuitBreaker}

/-- At time `now` the breaker holds what the executed calls say. -/
structure Tracks (threshold : ℕ) (timeout : ℚ) (past : List (Except ε α × ℚ)) (now : ℚ)
    (b : CircuitBreaker) : Prop where
  threshold_eq : b.failureThreshold = threshold
  timeout_eq : b.recoveryTimeoutSeconds = timeout
  failures : b.consecutiveFailures = failuresInARow past
  closed : b.state = .closed ↔ failuresInARow past < threshold
  stamped : threshold ≤ failuresInARow past → ∃ last ∈ past.head?, b.openedAt = last.2
  cooled : b.state = .halfOpen → b.cooledDown now

theorem tracks_new (name : String) (timeout : ℚ) (now : ℚ) (h : 1 ≤ threshold) :
    Tracks threshold timeout ([] : List (Except ε α × ℚ)) now (.new name threshold timeout) := by
  constructor
  case threshold_eq => rfl
  case timeout_eq => rfl
  case failures => rfl
  case closed => exact iff_of_true rfl h
  case stamped => exact fun hreached => absurd (h.trans hreached) (Nat.not_succ_le_zero 0)
  case cooled => exact fun hstate => nomatch hstate

namespace Tracks

theorem cooledDown_mono {now' : ℚ} (hle : now ≤ now') (h : b.cooledDown now) :
    b.cooledDown now' := by
  have hcooled : b.recoveryTimeoutSeconds ≤ now - b.openedAt := h
  exact hcooled.trans (sub_le_sub_right hle _)

theorem later (h : Tracks threshold timeout past now b) {now' : ℚ} (hle : now ≤ now') :
    Tracks threshold timeout past now' b :=
  { h with cooled := fun hstate => cooledDown_mono hle (h.cooled hstate) }

theorem refresh (h : Tracks threshold timeout past now b) {now' : ℚ} (hle : now ≤ now') :
    Tracks threshold timeout past now' (b.refresh now') := by
  constructor
  case threshold_eq => rw [CircuitBreaker.refresh_failureThreshold, h.threshold_eq]
  case timeout_eq => rw [CircuitBreaker.refresh_recoveryTimeoutSeconds, h.timeout_eq]
  case failures => rw [CircuitBreaker.refresh_consecutiveFailures, h.failures]
  case closed => rw [CircuitBreaker.refresh_state_eq_closed_iff, h.closed]
  case stamped =>
    rw [CircuitBreaker.refresh_openedAt]
    exact h.stamped
  case cooled =>
    intro hstate
    rw [CircuitBreaker.cooledDown, CircuitBreaker.refresh_recoveryTimeoutSeconds,
      CircuitBreaker.refresh_openedAt]
    rcases (CircuitBreaker.refresh_state_eq_halfOpen_iff b now').1 hstate with hhalf | ⟨-, hcooled⟩
    · exact cooledDown_mono hle (h.cooled hhalf)
    · exact hcooled

/-- The breaker refuses what the history refuses. -/
theorem refuses_iff (h : Tracks threshold timeout past now b) {start : ℚ} (hle : now ≤ start) :
    (b.refresh start).state = .opened ↔ Refuses threshold timeout past start := by
  have hcooled : ¬ b.cooledDown start ↔ start - b.openedAt < timeout := by
    rw [CircuitBreaker.cooledDown, h.timeout_eq, not_le]
  rw [CircuitBreaker.refresh_state_eq_opened_iff, hcooled, Refuses]
  constructor
  · rintro ⟨hopened, hrecent⟩
    have hreached : threshold ≤ failuresInARow past := by
      rw [← not_lt, ← h.closed, hopened]
      exact fun hclosed => nomatch hclosed
    obtain ⟨last, hlast, hstamp⟩ := h.stamped hreached
    exact ⟨hreached, last, hlast, hstamp ▸ hrecent⟩
  · rintro ⟨hreached, last, hlast, hrecent⟩
    obtain ⟨last', hlast', hstamp⟩ := h.stamped hreached
    obtain rfl := Option.mem_unique hlast hlast'
    rw [← hstamp] at hrecent
    refine ⟨?_, hrecent⟩
    cases hstate : b.state with
    | opened => rfl
    | closed => exact absurd (h.closed.1 hstate) (not_lt.2 hreached)
    | halfOpen => exact absurd (cooledDown_mono hle (h.cooled hstate)) (hcooled.2 hrecent)

theorem close (h : Tracks threshold timeout past now b) (hthreshold : 1 ≤ threshold) (a : α)
    (finish : ℚ) : Tracks threshold timeout ((.ok a, finish) :: past) finish b.close := by
  constructor
  case threshold_eq => exact h.threshold_eq
  case timeout_eq => exact h.timeout_eq
  case failures => rfl
  case closed => exact iff_of_true rfl hthreshold
  case stamped => exact fun hreached => absurd (hthreshold.trans hreached) (Nat.not_succ_le_zero 0)
  case cooled => exact fun hstate => nomatch hstate

/-- A failure either stays below the threshold of a closed breaker, or it opens the breaker. -/
theorem fail (h : Tracks threshold timeout past now b) (e : ε) (finish : ℚ) :
    Tracks threshold timeout ((.error e, finish) :: past) finish (b.fail finish) := by
  have hcount : b.countFailure.consecutiveFailures = failuresInARow past + 1 :=
    congrArg (· + 1) h.failures
  by_cases hreached : threshold ≤ failuresInARow past + 1
  · have hfail : b.fail finish = b.countFailure.open finish := by
      rw [CircuitBreaker.fail, if_pos (by rw [hcount, h.threshold_eq]; exact hreached)]
    rw [hfail]
    constructor
    case threshold_eq => exact h.threshold_eq
    case timeout_eq => exact h.timeout_eq
    case failures => exact hcount
    case closed =>
      apply iff_of_false _ (not_lt.2 hreached)
      intro hstate
      cases hstate
    case stamped => exact fun _ => ⟨_, rfl, rfl⟩
    case cooled =>
      intro hstate
      cases hstate
  · have hfail : b.fail finish = b.countFailure := by
      rw [CircuitBreaker.fail, if_neg (by rw [hcount, h.threshold_eq]; exact hreached)]
    have hclosed : b.state = .closed := h.closed.2 (by omega)
    rw [hfail]
    constructor
    case threshold_eq => exact h.threshold_eq
    case timeout_eq => exact h.timeout_eq
    case failures => exact hcount
    case closed => exact iff_of_true hclosed (not_le.1 hreached)
    case stamped => exact fun hreached' => absurd hreached' hreached
    case cooled =>
      intro hstate
      have hhalf : b.state = .halfOpen := hstate
      rw [hclosed] at hhalf
      cases hhalf

theorem complete (h : Tracks threshold timeout past now b) (hthreshold : 1 ≤ threshold)
    (outcome : Except ε α) (finish : ℚ) :
    Tracks threshold timeout ((outcome, finish) :: past) finish (b.complete outcome finish) := by
  cases outcome with
  | ok a => exact h.close hthreshold a finish
  | error e => exact h.fail e finish

end Tracks

/-- From any point of a history on, the responses are the expected ones. -/
theorem responses_of_tracks (hthreshold : 1 ≤ threshold) {ops : List (Operation ε α)}
    (h : Tracks threshold timeout past now b) (hchronological : Chronological now ops) :
    b.responses ops = expected threshold timeout past ops := by
  induction ops generalizing b past now with
  | nil => rfl
  | cons op ops ih =>
      cases op with
      | read time =>
          obtain ⟨hle, hlater⟩ := hchronological
          exact ih (h.refresh hle) hlater
      | call start outcome finish =>
          obtain ⟨hle, hfinish, hlater⟩ := hchronological
          have hstart := h.refresh hle
          rw [CircuitBreaker.responses, expected]
          by_cases hrefused : Refuses threshold timeout past start
          · rw [if_pos ((h.refuses_iff hle).2 hrefused), if_pos hrefused]
            exact congrArg _ (ih (hstart.later hfinish) hlater)
          · rw [if_neg (fun hopened => hrefused ((h.refuses_iff hle).1 hopened)), if_neg hrefused]
            exact congrArg _ (ih (hstart.complete hthreshold outcome finish) hlater)

end Invariant

/-- Readings are not expected to have any effect. -/
theorem expected_filter_isCall {ε α : Type} (threshold : ℕ) (timeout : ℚ)
    (past : List (Except ε α × ℚ)) (ops : List (Operation ε α)) :
    expected threshold timeout past (ops.filter Operation.isCall) =
      expected threshold timeout past ops := by
  induction ops generalizing past with
  | nil => rfl
  | cons op ops ih =>
      cases op with
      | read now => exact ih past
      | call start outcome finish =>
          rw [List.filter_cons_of_pos rfl, expected, expected, ih, ih]

/-! ## A process that uses a breaker -/

/-- One use of the breaker of a dependency by a process. -/
inductive Use (α : Type) where
  | call (fn : PyM α)
  | read

/-- The function neither touches the breaker nor turns back the clock. -/
structure Bystander {α : Type} (d : Dependency) (fn : PyM α) : Prop where
  breaker : ∀ r, (fn r).2.breakers d = r.breakers d
  ticks : ∀ r, r.ticks ≤ (fn r).2.ticks

section Process

variable {α : Type}

/-- What the calls of a process return or raise, one after another. -/
def outcomes (env : Env) (d : Dependency) : List (Use α) → Runtime → List (Except Exn α)
  | [], _ => []
  | .read :: uses, r => outcomes env d uses (CircuitBreaker.readState env d r).2
  | .call fn :: uses, r =>
      (CircuitBreaker.call env d fn r).1 ::
        outcomes env d uses (CircuitBreaker.call env d fn r).2

/-- The process after them. -/
def served (env : Env) (d : Dependency) : List (Use α) → Runtime → Runtime
  | [], r => r
  | .read :: uses, r => served env d uses (CircuitBreaker.readState env d r).2
  | .call fn :: uses, r => served env d uses (CircuitBreaker.call env d fn r).2

/-- The history of these uses: when each of them reads the clock, and what its function does. -/
def timeline (env : Env) (d : Dependency) : List (Use α) → Runtime → List (Operation Exn α)
  | [], _ => []
  | .read :: uses, r =>
      .read (env.clock r.ticks) :: timeline env d uses (CircuitBreaker.readState env d r).2
  | .call fn :: uses, r =>
      let r₁ := CircuitBreaker.admission env d r
      let finish := if (r₁.breakers d).state = .opened then r.ticks else (fn r₁).2.ticks
      .call (env.clock r.ticks) (fn r₁).1 (env.clock finish) ::
        timeline env d uses (CircuitBreaker.call env d fn r).2

def Response.result (refusal : Exn) : Response Exn α → Except Exn α
  | .refused => .error refusal
  | .ran outcome => outcome

variable {env : Env} {d : Dependency} {uses : List (Use α)}

/-- The process sees the responses of its history. -/
theorem outcomes_eq_responses (h : ∀ fn, .call fn ∈ uses → Bystander d fn) (r : Runtime) :
    outcomes env d uses r = ((r.breakers d).responses (timeline env d uses r)).map
      (Response.result (r.breakers d).refusal) := by
  induction uses generalizing r with
  | nil => rfl
  | cons use uses ih =>
      have ih' := ih fun fn hfn => h fn (List.mem_cons_of_mem use hfn)
      cases use with
      | read =>
          rw [outcomes, timeline, CircuitBreaker.readState_eq, CircuitBreaker.responses, ih',
            CircuitBreaker.admission_breaker, CircuitBreaker.refusal_refresh]
      | call fn =>
          have hfn := h fn List.mem_cons_self
          rw [outcomes, timeline, CircuitBreaker.responses, ih',
            ← CircuitBreaker.admission_breaker env d r]
          by_cases hopened : ((CircuitBreaker.admission env d r).breakers d).state = .opened
          · rw [CircuitBreaker.call_refused env d r fn hopened, if_pos hopened, List.map_cons,
              CircuitBreaker.admission_breaker, CircuitBreaker.refusal_refresh]
            rfl
          · obtain ⟨r', hcall, -, hbreakers⟩ := CircuitBreaker.call_admitted env d r fn hopened
            have hbreaker := congrFun hbreakers d
            rw [Function.update_self, hfn.breaker] at hbreaker
            rw [hcall, if_neg hopened, List.map_cons, if_neg hopened, hbreaker,
              CircuitBreaker.refusal_complete, CircuitBreaker.admission_breaker,
              CircuitBreaker.refusal_refresh]
            rfl

theorem Chronological.mono {ε : Type} {now now' : ℚ} {ops : List (Operation ε α)}
    (h : Chronological now ops) (hle : now' ≤ now) : Chronological now' ops := by
  cases ops with
  | nil => trivial
  | cons op ops =>
      cases op with
      | read time => exact ⟨hle.trans h.1, h.2⟩
      | call start outcome finish => exact ⟨hle.trans h.1, h.2⟩

/-- On a clock that does not run backwards the history is chronological. -/
theorem chronological_timeline (hclock : Monotone env.clock)
    (h : ∀ fn, .call fn ∈ uses → Bystander d fn) (r : Runtime) :
    Chronological (env.clock r.ticks) (timeline env d uses r) := by
  induction uses generalizing r with
  | nil => trivial
  | cons use uses ih =>
      have ih' := ih fun fn hfn => h fn (List.mem_cons_of_mem use hfn)
      have hadmission := CircuitBreaker.admission_ticks env d r
      cases use with
      | read =>
          rw [timeline, CircuitBreaker.readState_eq]
          exact ⟨le_rfl, (ih' _).mono (hclock hadmission)⟩
      | call fn =>
          have hfn := (h fn List.mem_cons_self).ticks (CircuitBreaker.admission env d r)
          rw [timeline]
          by_cases hopened : ((CircuitBreaker.admission env d r).breakers d).state = .opened
          · rw [CircuitBreaker.call_refused env d r fn hopened, if_pos hopened]
            exact ⟨le_rfl, le_rfl, (ih' _).mono (hclock hadmission)⟩
          · obtain ⟨r', hcall, hticks, -⟩ := CircuitBreaker.call_admitted env d r fn hopened
            rw [hcall, if_neg hopened]
            exact ⟨le_rfl, hclock (hadmission.trans hfn), (ih' _).mono (hclock hticks)⟩

/-- So the calls of a process on a new breaker end as its history says. -/
theorem outcomes_eq_expected (hclock : Monotone env.clock)
    (h : ∀ fn, .call fn ∈ uses → Bystander d fn) {r : Runtime} {name : String} {threshold : ℕ}
    {timeout : ℚ} (hthreshold : 1 ≤ threshold) (hnew : r.breakers d = .new name threshold timeout) :
    outcomes env d uses r = (expected threshold timeout [] (timeline env d uses r)).map
      (Response.result (CircuitBreaker.new name threshold timeout).refusal) := by
  rw [outcomes_eq_responses h, hnew, responses_of_tracks hthreshold
    (tracks_new name timeout _ hthreshold) (chronological_timeline hclock h r)]

/-! ## One call -/

/-- What is left of a call once its function has ended: the completion, which changes nothing of
how it has ended. -/
def CircuitBreaker.settle (env : Env) (d : Dependency) :
    Except Exn α × Runtime → Except Exn α × Runtime
  | (.ok a, r) => (.ok a, (recordSuccess d r).2)
  | (.error e, r) => (.error e, (recordFailure env d r).2)

/-- An admitted call is one run of its function and the completion. -/
theorem CircuitBreaker.call_eq_settle {r : Runtime} (fn : PyM α)
    (hadmitted : ((admission env d r).breakers d).state ≠ .opened) :
    CircuitBreaker.call env d fn r = settle env d (fn (admission env d r)) := by
  have hget : getBreaker d (admission env d r) =
    (.ok ((admission env d r).breakers d), admission env d r) := rfl
  rw [CircuitBreaker.call, Py.bind_of_ok (maybeTransitionToHalfOpen_eq env d r).1,
    Py.bind_of_ok hget, if_neg hadmitted]
  rcases hfn : fn (admission env d r) with ⟨e | a, r₁⟩
  · obtain ⟨r₂, hfailure, -, -⟩ := recordFailure_fail env d r₁
    simp only [Py.tryElse, hfn, settle]
    rw [Py.bind_of_ok hfailure, Py.raise_apply, hfailure]
  · obtain ⟨r₂, hsuccess, -, -⟩ := recordSuccess_close d r₁
    simp only [Py.tryElse, hfn, settle]
    rw [Py.bind_of_ok hsuccess, Py.pure_apply, hsuccess]

/-- Wherever a process has come to, the breaker holds what its history says. -/
theorem tracks_served (hclock : Monotone env.clock) (h : ∀ fn, .call fn ∈ uses → Bystander d fn)
    {r : Runtime} {threshold : ℕ} {timeout : ℚ} (hthreshold : 1 ≤ threshold)
    {past : List (Except Exn α × ℚ)}
    (htracks : Tracks threshold timeout past (env.clock r.ticks) (r.breakers d)) :
    Tracks threshold timeout (executed threshold timeout past (timeline env d uses r))
      (env.clock (served env d uses r).ticks) ((served env d uses r).breakers d) := by
  induction uses generalizing r past with
  | nil => exact htracks
  | cons use uses ih =>
      have ih' := @ih fun fn hfn => h fn (List.mem_cons_of_mem use hfn)
      have hadmission := CircuitBreaker.admission_ticks env d r
      have hrefreshed : Tracks threshold timeout past
          (env.clock (CircuitBreaker.admission env d r).ticks)
          ((CircuitBreaker.admission env d r).breakers d) := by
        rw [CircuitBreaker.admission_breaker]
        exact (htracks.refresh le_rfl).later (hclock hadmission)
      cases use with
      | read =>
          rw [timeline, executed, served, CircuitBreaker.readState_eq]
          exact ih' hrefreshed
      | call fn =>
          have hfn := h fn List.mem_cons_self
          have hrefuses := htracks.refuses_iff (le_refl (env.clock r.ticks))
          rw [← CircuitBreaker.admission_breaker env d r] at hrefuses
          rw [timeline, executed, served]
          by_cases hopened : ((CircuitBreaker.admission env d r).breakers d).state = .opened
          · rw [CircuitBreaker.call_refused env d r fn hopened, if_pos (hrefuses.1 hopened)]
            exact ih' hrefreshed
          · obtain ⟨r', hcall, hticks, hbreakers⟩ :=
              CircuitBreaker.call_admitted env d r fn hopened
            have hbreaker := congrFun hbreakers d
            rw [Function.update_self, hfn.breaker] at hbreaker
            rw [hcall, if_neg fun hrefused => hopened (hrefuses.2 hrefused), if_neg hopened]
            apply ih'
            rw [hbreaker]
            exact (hrefreshed.complete hthreshold _ _).later (hclock hticks)

/-- The calls of a process end as its history says. One that the history refuses does not run its
function; any other runs it once, from the state after the admission, and passes on what it has
returned or raised. -/
structure Conforms (env : Env) (d : Dependency) (threshold : ℕ) (timeout : ℚ) (refusal : Exn)
    (uses : List (Use α)) (r : Runtime) : Prop where
  outcomes : outcomes env d uses r =
    (expected threshold timeout [] (timeline env d uses r)).map (Response.result refusal)
  call : ∀ before fn after, uses = before ++ .call fn :: after →
    CircuitBreaker.call env d fn (served env d before r) =
      if Refuses threshold timeout (executed threshold timeout [] (timeline env d before r))
          (env.clock (served env d before r).ticks) then
        (.error refusal, CircuitBreaker.admission env d (served env d before r))
      else CircuitBreaker.settle env d
        (fn (CircuitBreaker.admission env d (served env d before r)))

theorem refusal_served (h : ∀ fn, .call fn ∈ uses → Bystander d fn) (r : Runtime) :
    ((served env d uses r).breakers d).refusal = (r.breakers d).refusal := by
  induction uses generalizing r with
  | nil => rfl
  | cons use uses ih =>
      have ih' := @ih fun fn hfn => h fn (List.mem_cons_of_mem use hfn)
      cases use with
      | read =>
          rw [served, CircuitBreaker.readState_eq, ih', CircuitBreaker.admission_breaker,
            CircuitBreaker.refusal_refresh]
      | call fn =>
          have hfn := h fn List.mem_cons_self
          rw [served, ih']
          by_cases hopened : ((CircuitBreaker.admission env d r).breakers d).state = .opened
          · rw [CircuitBreaker.call_refused env d r fn hopened, CircuitBreaker.admission_breaker,
              CircuitBreaker.refusal_refresh]
          · obtain ⟨r', hcall, -, hbreakers⟩ := CircuitBreaker.call_admitted env d r fn hopened
            have hbreaker := congrFun hbreakers d
            rw [Function.update_self, hfn.breaker] at hbreaker
            rw [hcall, hbreaker, CircuitBreaker.refusal_complete,
              CircuitBreaker.admission_breaker, CircuitBreaker.refusal_refresh]

theorem conforms_new (hclock : Monotone env.clock) (h : ∀ fn, .call fn ∈ uses → Bystander d fn)
    {r : Runtime} {name : String} {threshold : ℕ} {timeout : ℚ} (hthreshold : 1 ≤ threshold)
    (hnew : r.breakers d = .new name threshold timeout) :
    Conforms env d threshold timeout (CircuitBreaker.new name threshold timeout).refusal uses
      r := by
  refine ⟨outcomes_eq_expected hclock h hthreshold hnew, ?_⟩
  rintro before fn after rfl
  have hbefore : ∀ fn', .call fn' ∈ before → Bystander d fn' :=
    fun fn' hfn' => h fn' (List.mem_append_left _ hfn')
  have htracks : Tracks threshold timeout ([] : List (Except Exn α × ℚ)) (env.clock r.ticks)
      (r.breakers d) := by
    rw [hnew]
    exact tracks_new name timeout _ hthreshold
  have hserved := tracks_served hclock hbefore hthreshold htracks
  have hrefuses := hserved.refuses_iff (le_refl _)
  rw [← CircuitBreaker.admission_breaker env d] at hrefuses
  by_cases hopened : ((CircuitBreaker.admission env d (served env d before r)).breakers d).state =
      .opened
  · rw [if_pos (hrefuses.1 hopened), CircuitBreaker.call_refused env d _ fn hopened,
      refusal_served hbefore, hnew]
  · rw [if_neg fun hrefused => hopened (hrefuses.2 hrefused),
      CircuitBreaker.call_eq_settle fn hopened]

end Process

/-! ## Histories and processes -/

/-- The responses of a breaker are those its history calls for, reading the state changes none of
them, and the calls of every process conform to them. -/
theorem breaker_matches_history {ε α : Type} (name : String) (threshold : ℕ) (timeout : ℚ)
    (hthreshold : 1 ≤ threshold) (now : ℚ) (ops : List (Operation ε α))
    (hchronological : Chronological now ops) :
    (CircuitBreaker.new name threshold timeout).responses ops = expected threshold timeout [] ops ∧
      (∀ now' ops', Chronological now' ops' →
        ops'.filter Operation.isCall = ops.filter Operation.isCall →
        (CircuitBreaker.new name threshold timeout).responses ops' =
          (CircuitBreaker.new name threshold timeout).responses ops) ∧
      ∀ (env : Env) (d : Dependency) (uses : List (Use α)) (r : Runtime), Monotone env.clock →
        (∀ fn, .call fn ∈ uses → Bystander d fn) → r.breakers d = .new name threshold timeout →
        Conforms env d threshold timeout (CircuitBreaker.new name threshold timeout).refusal
          uses r := by
  have hexpected (now' : ℚ) (ops' : List (Operation ε α)) (h : Chronological now' ops') :
      (CircuitBreaker.new name threshold timeout).responses ops' =
        expected threshold timeout [] ops' :=
    responses_of_tracks hthreshold (tracks_new name timeout now' hthreshold) h
  refine ⟨hexpected now ops hchronological, fun now' ops' h hcalls => ?_, ?_⟩
  · rw [hexpected now' ops' h, hexpected now ops hchronological, ← expected_filter_isCall, hcalls,
      expected_filter_isCall]
  · intro env d uses r hclock huses hnew
    exact conforms_new hclock huses hthreshold hnew

/-- Three failures open a breaker for a quarter of a minute; the state is read in between. -/
def sampleHistory : List (Operation String ℕ) :=
  [.call 0 (.error "boom") 1, .read 2, .call 3 (.error "boom") 4, .call 5 (.error "boom") 6,
    .call 7 (.ok 1) 7, .read 20, .call 21 (.ok 2) 22]

/-- A process whose calls fail until the breaker refuses one. -/
def sampleUses : List (Use ℕ) :=
  let boom : Use ℕ := .call (Py.raise (.providerError "boom"))
  [boom, .read, boom, boom, .call (pure 1)]

theorem bystander_sampleUses : ∀ fn, .call fn ∈ sampleUses → Bystander .llm fn := by
  simp only [sampleUses, List.mem_cons, Use.call.injEq, reduceCtorEq, List.not_mem_nil, or_false,
    false_or]
  rintro fn (rfl | rfl | rfl | rfl) <;> exact ⟨fun _ => rfl, fun _ => le_rfl⟩

theorem breaker_matches_sampleHistory :
    (CircuitBreaker.new "llm" 3 15).responses sampleHistory = expected 3 15 [] sampleHistory ∧
      Conforms sampleEnv .llm 3 15 (CircuitBreaker.new "llm" 3 15).refusal sampleUses .init := by
  have hchronological : Chronological 0 sampleHistory := by
    norm_num [sampleHistory, Chronological]
  obtain ⟨hresponses, -, hprocess⟩ :=
    breaker_matches_history "llm" 3 15 (by decide) 0 sampleHistory hchronological
  exact ⟨hresponses,
    hprocess sampleEnv .llm sampleUses .init Nat.mono_cast bystander_sampleUses rfl⟩

end Underwriting
