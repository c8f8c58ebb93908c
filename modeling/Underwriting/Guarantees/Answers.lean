import Underwriting.Guarantees.CrashSafety
import Underwriting.Run.Serving

/-!
# How often a case is answered

Submitting a case and resolving it are what a client repeats when it gets no answer. A submission
that is answered has come to rest, a resolution that is answered takes its case from the part of
the graph before the reviewer to the reviewer at least, or from there to the end, and nothing takes
a case back but a new submission. So each submission is answered twice at most: by itself and by
one resolution, or by two resolutions. This holds through all lives of the server.
-/

namespace Underwriting

open Python DurableGraph.Graph ApplicationService

/-! ## The order of the nodes -/

def Node.rank : Node → ℕ
  | .intake => 6
  | .documentExtractionAgent => 5
  | .riskScoringAgent => 4
  | .policyComplianceAgent => 3
  | .humanEscalation => 2
  | .explainabilityAgent => 1
  | .decisionOutput => 0

theorem rank_nextNode {n m : Node} {s : UnderwritingState} (h : nextNode n s = some m) :
    m.rank < n.rank := by
  cases n with
  | policyComplianceAgent =>
      rw [nextNode, routeAfterPolicy, Option.some.injEq] at h
      subst h
      split <;> decide
  | intake | documentExtractionAgent | riskScoringAgent | humanEscalation | explainabilityAgent =>
      cases h
      decide
  | decisionOutput => cases h

/-- How many answers are left to a thread whose next node this is. -/
def answersLeft (next : Option Node) : ℕ :=
  next.elim 0 fun n => if n.rank ≤ 2 then 1 else 2

theorem answersLeft_le (next : Option Node) : answersLeft next ≤ 2 := by
  cases next with
  | none => decide
  | some n => cases n <;> decide

theorem answersLeft_mono {n m : Node} (h : m.rank ≤ n.rank) :
    answersLeft (some m) ≤ answersLeft (some n) := by
  simp only [answersLeft, Option.elim_some]
  split_ifs <;> omega

/-! ## Runs of the graph -/

section Runs

variable {env : Env} {R : Run}

/-- Only an escalation that is given no resolution pauses. -/
theorem eq_of_pauses {t : Thread} {n : Node} {v : Option Json} {r r' : Runtime} {e : Exn}
    {p : Json} (hkept : R.Kept env Set.univ t) (hnext : t.next = some n)
    (hv : ∀ x ∈ v, ∃ res : EscalationResolution, x = res.modelDump)
    (hnode : (graph env).node n v t.values r = (.error e, r'))
    (hp : (graph env).payload? e = some p) : n = .humanEscalation ∧ v = none := by
  obtain ⟨st, -, hat⟩ := hkept
  have hdue : st.due = some n := hat.next.symm.trans hnext
  rw [hat.values] at hnode
  have hcontrol (h : e.isControl = false) : False := by
    have hnone : (graph env).payload? e = none := Exn.interruptPayload_eq_none h
    rw [hnone] at hp
    cases hp
  rcases Run.node_cases r hdue hv with hdelivers | ⟨f, rfl, hopen, -⟩
  · rw [show runNode env n v _ r = _ from hnode] at hdelivers
    exact (hcontrol hdelivers).elim
  · rw [Stage.due_of_open hopen] at hdue
    cases hdue
    cases v with
    | none => exact ⟨rfl, rfl⟩
    | some x =>
        obtain ⟨res, rfl⟩ := hv x rfl
        have hdelivers : Delivers (R.Advances env (.evaluated f) .humanEscalation) _ :=
          Run.review_advances r hopen res
        rw [show runNode env .humanEscalation _ _ r = _ from hnode] at hdelivers
        exact (hcontrol hdelivers).elim

theorem answersLeft_drive_le (k : ℕ) (n : Node) (v : Option Json) (s : UnderwritingState)
    (r : Runtime) :
    answersLeft ((graph env).drive k n v s r).2.1.next ≤ answersLeft (some n) := by
  cases hnext : ((graph env).drive k n v s r).2.1.next with
  | none => exact Nat.zero_le _
  | some m => exact answersLeft_mono (rank_drive_le rank_nextNode k m hnext)

/-- A run that returns leaves an answer less, unless it has started at the escalation without a
resolution. -/
theorem answersLeft_drive_lt (k : ℕ) {t : Thread} {n : Node} {v : Option Json} {r : Runtime}
    (hkept : R.Kept env Set.univ t) (hnext : t.next = some n)
    (hv : ∀ x ∈ v, ∃ res : EscalationResolution, x = res.modelDump)
    (hgiven : ¬ (n = .humanEscalation ∧ v = none))
    (hok : ((graph env).drive k n v t.values r).1 = .ok ()) :
    answersLeft ((graph env).drive k n v t.values r).2.1.next < answersLeft (some n) := by
  have hmaintains : (graph env).Maintains _ _ :=
    Run.maintains_kept (R := R) (Set.mem_univ env) rfl
  obtain ⟨s, next, ps⟩ := t
  obtain rfl : next = some n := hnext
  have hpauses := hmaintains.pauses_drive (C := fun n v => n = .humanEscalation ∧ v = none)
    rank_nextNode (fun hI hv hnode hp => eq_of_pauses hI rfl hv hnode hp) k hkept hv hok
  cases hm : ((graph env).drive k n v s r).2.1.next with
  | none =>
      simp only [answersLeft, Option.elim_none, Option.elim_some]
      split <;> decide
  | some m =>
      rcases hpauses m hm with ⟨-, hC⟩ | ⟨hlt, rfl, -⟩
      · exact absurd hC hgiven
      · have hrank : ¬ n.rank ≤ 2 := not_le.2 hlt
        simp only [answersLeft, Option.elim_some, if_neg hrank]
        decide

end Runs

/-! ## Calls -/

/-- The id whose case the call changes and then answers for. -/
def answeredId (env : Env) (w : World) : Call → Option String
  | .start a => if (startApplication env a w).1.isOk then some a.applicationId else none
  | .resolve id res => if (resolveStored env id res w).1.isOk then some id else none
  | .get _ | .rationale _ => none

/-- The answers that are left to the thread under an id. -/
def Store.answersLeft (store : Store) (id : String) : ℕ :=
  (store id).elim 0 fun t => Underwriting.answersLeft t.next

section Calls

variable {env : Env} {w : World} {id : String} {B : LoanApplication → UnderwritingState → Prop}

theorem Store.answersLeft_update_self (store : Store) (id : String) (t : Thread) :
    Store.answersLeft (Function.update store id (some t)) id =
      Underwriting.answersLeft t.next := by
  rw [Store.answersLeft, Function.update_self, Option.elim_some]

theorem Store.answersLeft_update_of_ne {id' : String} (hne : id ≠ id') (store : Store)
    (t : Option Thread) :
    Store.answersLeft (Function.update store id' t) id = Store.answersLeft store id := by
  rw [Store.answersLeft, Store.answersLeft, Function.update_of_ne hne]

theorem isOk_map {ε α β : Type} (x : Except ε α) (f : α → β) : (x.map f).isOk = x.isOk := by
  cases x <;> rfl

theorem eq_ok_of_isOk {ε : Type} {x : Except ε Unit} (h : x.isOk = true) : x = .ok () := by
  cases x with
  | ok _ => rfl
  | error _ => cases h

/-- A call lets at most two more answers come, and that only by a submission. -/
theorem answersLeft_leave (j : ℕ) (c : Call) :
    Store.answersLeft (leave env j w c).store id ≤
      2 * (submittedIds [c]).count id + Store.answersLeft w.store id := by
  cases c with
  | get id' => exact Nat.le_add_left _ _
  | rationale id' => exact Nat.le_add_left _ _
  | start a =>
      rw [store_leave_start]
      by_cases hid : id = a.applicationId
      · subst hid
        have hcount : (submittedIds [.start a]).count a.applicationId = 1 := by
          simp [submittedIds]
        rw [Store.answersLeft_update_self, hcount]
        exact (answersLeft_le _).trans (Nat.le_add_right _ _)
      · rw [Store.answersLeft_update_of_ne hid]
        exact Nat.le_add_left _ _
  | resolve id' res =>
      have hno : id ∉ submittedIds [.resolve id' res] := by simp [submittedIds]
      rcases store_leave_cases j (.resolve id' res) hno with heq | ⟨res', t, -, hstore, heq⟩
      · rw [Store.answersLeft, heq]
        exact Nat.le_add_left _ _
      · rw [Store.answersLeft, Store.answersLeft, heq, hstore]
        refine le_trans ?_ (Nat.le_add_left _ _)
        cases hnext : t.next with
        | none =>
            simp only [deliver, hnext, Option.elim_some]
            exact le_rfl
        | some n =>
            simp only [deliver_of_next hnext, Option.elim_some, hnext]
            exact answersLeft_drive_le j n _ _ _

/-- And its own answer is one of them. -/
theorem answeredId_leave (hkeeps : Keeps env Set.univ B id w.store) (c : Call)
    (hanswered : answeredId env w c = some id) :
    1 + Store.answersLeft (leave env recursionLimit w c).store id ≤
      2 * (submittedIds [c]).count id + Store.answersLeft w.store id := by
  cases c with
  | get id' => cases hanswered
  | rationale id' => cases hanswered
  | start a =>
      simp only [answeredId, Option.ite_none_right_eq_some, Option.some.injEq] at hanswered
      obtain ⟨hok, rfl⟩ := hanswered
      rw [startApplication_apply, onThread_getApplication_apply, isOk_map] at hok
      obtain ⟨R, hsubmission, hbase⟩ :=
        hkeeps.exists_run ⟨a, s!"corr_{env.uuid w.runtime.uuids}"⟩
      have hkept : R.Kept env Set.univ ⟨(storedValues w a.applicationId).merge
          (initialState a s!"corr_{env.uuid w.runtime.uuids}"), some .intake, []⟩ :=
        ⟨.submitted, .refl, by rw [Run.writtenAt, hbase, Run.application, hsubmission], rfl,
          .inl rfl⟩
      have hlt := answersLeft_drive_lt recursionLimit hkept rfl (v := none) (by simp) (by simp)
        (eq_ok_of_isOk hok)
      have hcount : (submittedIds [.start a]).count a.applicationId = 1 := by simp [submittedIds]
      rw [store_leave_start, Store.answersLeft_update_self, hcount]
      exact (Nat.one_add_le_iff.2 hlt).trans (Nat.le_add_right _ _)
  | resolve id' res =>
      simp only [answeredId, Option.ite_none_right_eq_some, Option.some.injEq] at hanswered
      obtain ⟨hok, rfl⟩ := hanswered
      cases hstore : w.store id' with
      | none =>
          rw [resolveStored_of_unknown hstore] at hok
          cases hok
      | some t =>
          cases hnext : t.next with
          | none =>
              rw [resolveStored_of_finished hstore hnext] at hok
              cases hok
          | some n =>
              rw [resolveStored_of_due hstore hnext, onThread_getApplication_apply, isOk_map,
                deliver_of_next hnext] at hok
              obtain ⟨R, -, -, hkept⟩ := hkeeps t hstore
              have hlt := answersLeft_drive_lt recursionLimit hkept hnext
                (v := some res.modelDump) (by simp) (by simp) (eq_ok_of_isOk hok)
              rw [store_leave_resolve hstore hnext, Store.answersLeft_update_self,
                deliver_of_next hnext, Store.answersLeft, hstore, Option.elim_some, hnext]
              exact (Nat.one_add_le_iff.2 hlt).trans (Nat.le_add_left _ _)

end Calls

/-! ## Lives -/

/-- The ids of the cases for which a process answers, call by call. -/
def answered (env : Env) : World → List Call → List String
  | _, [] => []
  | w, c :: calls =>
      (answeredId env w c).toList ++ answered env (leave env recursionLimit w c) calls

/-- The answers of the given lives of the server over what they find stored. The call that a
process does not survive is not answered. -/
def answeredIn : Store → List Life → List String
  | _, [] => []
  | store, l :: lives =>
      answered l.env ⟨store, .init⟩ l.calls ++ answeredIn (l.last store).store lives

/-- The calls of one process. -/
theorem answered_le {env : Env} {id : String} (calls : List Call) {w : World}
    (hkeeps : Keeps env Set.univ (fun _ _ => True) id w.store) :
    (answered env w calls).count id +
        Store.answersLeft (calls.foldl (leave env recursionLimit) w).store id ≤
      2 * (submittedIds calls).count id + Store.answersLeft w.store id := by
  induction calls generalizing w with
  | nil => simp [answered, submittedIds]
  | cons c calls ih =>
      have hrest := ih (hkeeps.leave (Set.mem_univ env) rfl recursionLimit c fun _ _ _ => trivial)
      have hfirst : (answeredId env w c).toList.count id +
          Store.answersLeft (leave env recursionLimit w c).store id ≤
            2 * (submittedIds [c]).count id + Store.answersLeft w.store id := by
        by_cases hanswered : answeredId env w c = some id
        · rw [hanswered, Option.toList_some, List.count_singleton_self]
          exact answeredId_leave hkeeps c hanswered
        · have hcount : (answeredId env w c).toList.count id = 0 := by
            rw [List.count_eq_zero, Option.mem_toList]
            exact hanswered
          rw [hcount, Nat.zero_add]
          exact answersLeft_leave recursionLimit c
      rw [← List.singleton_append, submittedIds_append, List.count_append, List.foldl_append,
        List.foldl_cons, List.foldl_nil, List.singleton_append, answered, List.count_append]
      omega

theorem Life.last_of_killed (env : Env) (calls : List Call) (c : Call) (j : ℕ) (store : Store) :
    (⟨env, calls, some (c, j)⟩ : Life).last store =
      leave env (min j recursionLimit) (calls.foldl (leave env recursionLimit) ⟨store, .init⟩)
        c := by
  simp only [last, moves, Option.toList_some, List.map_cons, List.map_nil, List.foldl_append,
    List.foldl_map, List.foldl_cons, List.foldl_nil]

theorem Life.answered_le {l : Life} {store : Store} {id : String}
    (hkeeps : Keeps l.env Set.univ (fun _ _ => True) id store) :
    (answered l.env ⟨store, .init⟩ l.calls).count id +
        Store.answersLeft (l.last store).store id ≤
      2 * l.submittedIds.count id + store.answersLeft id := by
  obtain ⟨env, calls, killed⟩ := l
  have hcalls : (answered env ⟨store, .init⟩ calls).count id + Store.answersLeft
        (calls.foldl (leave env recursionLimit) ⟨store, .init⟩).store id ≤
      2 * (Underwriting.submittedIds calls).count id + store.answersLeft id :=
    Underwriting.answered_le calls hkeeps
  cases killed with
  | none =>
      rw [Life.last_of_not_killed]
      simpa [Life.submittedIds, Life.asked] using hcalls
  | some m =>
      obtain ⟨c, j⟩ := m
      have hkilled : Store.answersLeft (leave env (min j recursionLimit)
            (calls.foldl (leave env recursionLimit) ⟨store, .init⟩) c).store id ≤ _ :=
        answersLeft_leave (min j recursionLimit) c
      have hsubmitted : (⟨env, calls, some (c, j)⟩ : Life).submittedIds =
          Underwriting.submittedIds calls ++ Underwriting.submittedIds [c] :=
        submittedIds_append calls [c]
      rw [Life.last_of_killed, hsubmitted, List.count_append]
      dsimp only
      omega

/-- However often the server is killed, restarted and redeployed, it gives no more than two answers
for each submission of a case, those that it still has to give included. -/
theorem two_answers_each {u : Unicode} {lives : List Life}
    (hunicode : ∀ l ∈ lives, l.env.unicode = u) (id : String) :
    (answeredIn (fun _ => none) lives).count id + (survivors lives).answersLeft id ≤
      2 * (lives.flatMap Life.submittedIds).count id := by
  -- What is stored belongs to a case in whatever environment of this encoding it is looked at.
  have hlives (lives : List Life) (hunicode : ∀ l ∈ lives, l.env.unicode = u) (store : Store)
      (hkeeps : ∀ host : Env, host.unicode = u →
        Keeps host Set.univ (fun _ _ => True) id store) :
      (answeredIn store lives).count id +
          Store.answersLeft (lives.foldl (fun store l => (l.last store).store) store) id ≤
        2 * (lives.flatMap Life.submittedIds).count id + store.answersLeft id := by
    induction lives generalizing store with
    | nil => simp [answeredIn]
    | cons l lives ih =>
        have hl := hunicode l List.mem_cons_self
        have hlast (host : Env) (hhost : host.unicode = u) :
            Keeps host Set.univ (fun _ _ => True) id (l.last store).store := by
          refine l.induction (I := fun w => Keeps host Set.univ (fun _ _ => True) id w.store)
            (fun c _ j w hw => ?_) (hkeeps host hhost)
          exact hw.leave (Set.mem_univ _) (hhost.trans hl.symm) j c fun _ _ _ => trivial
        have hfirst := Life.answered_le (hkeeps l.env hl)
        have hrest := ih (fun l' hl' => hunicode l' (List.mem_cons_of_mem _ hl')) _ hlast
        rw [answeredIn, List.count_append, List.flatMap_cons, List.count_append, List.foldl_cons]
        omega
  exact hlives lives hunicode _ fun _ _ t ht => by cases ht

theorem two_answers_each_killed :
    (answeredIn (fun _ => none) troubledLives).count "app_1" +
        (survivors troubledLives).answersLeft "app_1" ≤
      2 * (troubledLives.flatMap Life.submittedIds).count "app_1" :=
  two_answers_each unicode_troubled "app_1"

end Underwriting
