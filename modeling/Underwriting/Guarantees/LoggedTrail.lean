import Underwriting.Run.Serving

/-!
# The audit trail and the audit log

An event is logged before the node that records it returns, and it is in the trail only once
the node has returned. So the log may hold events that no trail holds, of nodes that raised,
paused or were killed, but never the other way round. This is what remains of the agreement
between the two when ids are submitted again, models fail and processes are killed, together
with this: nothing that has once been stored of a trail or of a trace is changed or lost.
-/

namespace Underwriting

open Python ApplicationService

/-- From `s₀` to `s` the trail and the trace have grown at their ends, and the events that are
new have been logged in the meantime. -/
def Grown (s₀ : UnderwritingState) (log₀ : List LogRecord) (s : UnderwritingState)
    (log : List LogRecord) : Prop :=
  ∃ events spans records, s.auditTrail = s₀.auditTrail ++ events ∧
    s.traceSpans = s₀.traceSpans ++ spans ∧ log = log₀ ++ records ∧
    (events.map AuditEvent.toRecord).Sublist records

namespace Grown

variable {s₀ s s' : UnderwritingState} {log₀ log log' : List LogRecord}

theorem refl (s : UnderwritingState) (log : List LogRecord) : Grown s log s log :=
  ⟨[], [], [], by simp⟩

theorem trans (h : Grown s₀ log₀ s log) (h' : Grown s log s' log') : Grown s₀ log₀ s' log' := by
  obtain ⟨events, spans, records, htrail, htrace, hlog, hevents⟩ := h
  obtain ⟨events', spans', records', htrail', htrace', hlog', hevents'⟩ := h'
  refine ⟨events ++ events', spans ++ spans', records ++ records', ?_, ?_, ?_, ?_⟩
  · rw [htrail', htrail, List.append_assoc]
  · rw [htrace', htrace, List.append_assoc]
  · rw [hlog', hlog, List.append_assoc]
  · rw [List.map_append]
    exact hevents.append hevents'

/-- What has been logged earlier makes no difference. -/
theorem after (h : Grown s₀ log₀ s log) (past : List LogRecord) :
    Grown s₀ (past ++ log₀) s (past ++ log) := by
  obtain ⟨events, spans, records, htrail, htrace, hlog, hevents⟩ := h
  exact ⟨events, spans, records, htrail, htrace, by rw [hlog, List.append_assoc], hevents⟩

/-- Only the log has grown. -/
theorem of_logs {r₀ r : Runtime} (h : Logs r₀ r) (s : UnderwritingState) :
    Grown s r₀.log s r.log := by
  obtain ⟨records, hlog, -⟩ := h
  exact ⟨[], [], records, by simp, by simp, hlog, List.nil_sublist _⟩

/-- A node that returns adds to the trail what it has logged. -/
theorem of_node {env : Env} {n : Node} {v : Option Json} {r r' : Runtime} {u : StateUpdate}
    (hnode : (graph env).node n v s r = (.ok u, r')) :
    Grown s r.log (s.merge u) r'.log := by
  obtain ⟨records, hlog, hevents⟩ := Wrote.triple_node env s n v r u r' (Wrote.refl r) hnode
  exact ⟨u.auditTrail, u.traceSpans, records, rfl, rfl, hlog, hevents⟩

theorem maintains (env : Env) (s₀ : UnderwritingState) (log₀ : List LogRecord) :
    (graph env).Maintains (fun _ => True) fun t r => Grown s₀ log₀ t.values r.log where
  returned h _ hnode := h.trans (of_node hnode)
  interrupted h _ hnode _ :=
    h.trans (of_logs (((Logs.closed _).lasting env).of_node (.refl _) hnode) _)
  raised h _ hnode := h.trans (of_logs (((Logs.closed _).lasting env).of_node (.refl _) hnode) _)
  stopped h := h

end Grown

/-! ## Calls -/

/-- The values stored under an id, blank ones if there is no thread. -/
def Store.values (store : Store) (id : String) : UnderwritingState :=
  (store id).elim .blank (·.values)

@[simp] theorem Store.values_update_self (store : Store) (id : String) (t : Thread) :
    Store.values (Function.update store id (some t)) id = t.values := by
  rw [Store.values, Function.update_self]
  rfl

@[simp] theorem Store.values_update_of_ne {id id' : String} (hne : id ≠ id') (store : Store)
    (t : Option Thread) :
    Store.values (Function.update store id' t) id = Store.values store id := by
  rw [Store.values, Store.values, Function.update_of_ne hne]

/-- A call lets what is stored under an id grow, whatever it is about and however far it comes. -/
theorem grown_leave (env : Env) (j : ℕ) (w : World) (c : Call) (id : String) :
    Grown (Store.values w.store id) w.runtime.log (Store.values (leave env j w c).store id)
      (leave env j w c).runtime.log := by
  -- A thread that the call is not about is left as it is.
  have hother {id' : String} (hne : id ≠ id') {t : Thread}
      (hstore : (leave env j w c).store = Function.update w.store id' (some t)) :
      Grown (Store.values w.store id) w.runtime.log (Store.values (leave env j w c).store id)
        (leave env j w c).runtime.log := by
    rw [hstore, Store.values_update_of_ne hne]
    exact .of_logs (logs_leave j c) _
  cases c with
  | get id' => exact .refl _ _
  | rationale id' => exact .refl _ _
  | start a =>
      by_cases hid : id = a.applicationId
      · subst hid
        rw [store_leave_start, Store.values_update_self]
        refine (Grown.maintains env _ _).invoke j ?_
        refine ⟨[], [], [_], ?_, ?_, rfl, List.nil_sublist _⟩
        · rfl
        · rfl
      · exact hother hid (store_leave_start a)
  | resolve id' res =>
      cases hstore : w.store id' with
      | none =>
          rw [leave_resolve_of_unknown hstore]
          exact .refl _ _
      | some t =>
          cases hnext : t.next with
          | none =>
              rw [leave_resolve_of_finished hstore hnext]
              exact .refl _ _
          | some n =>
              by_cases hid : id = id'
              · subst hid
                rw [leave_resolve_of_due hstore hnext, Store.values_update_self]
                refine (Grown.maintains env _ _).deliver j ?_ trivial
                refine ⟨[], [], [_], ?_, ?_, rfl, List.nil_sublist _⟩
                · rw [Store.values, hstore, List.append_nil]
                  rfl
                · rw [Store.values, hstore, List.append_nil]
                  rfl
              · exact hother hid (store_leave_resolve hstore hnext)

/-! ## Lives -/

/-- What the given lives of the server log, one after another, over what they find stored. -/
def serverLog : Store → List Life → List LogRecord
  | _, [] => []
  | store, l :: lives => (l.last store).runtime.log ++ serverLog (l.last store).store lives

theorem grown_last (l : Life) (store : Store) (id : String) :
    Grown (store.values id) [] (Store.values (l.last store).store id)
      (l.last store).runtime.log :=
  l.induction (I := fun w => Grown (store.values id) [] (Store.values w.store id) w.runtime.log)
    (fun c _ j w hw => hw.trans (grown_leave l.env j w c id)) (.refl _ _)

/-- Whatever the server goes on to live through, a stored trail and a stored trace only get
longer, and each event that is added to a trail has been logged by then, as often as it is added
and in this order. -/
theorem trail_logged (lives more : List Life) (id : String) :
    Grown ((survivors lives).values id) (serverLog (fun _ => none) lives)
      ((survivors (lives ++ more)).values id) (serverLog (fun _ => none) (lives ++ more)) := by
  have hmore (more : List Life) (store : Store) : Grown (store.values id) []
      (Store.values (more.foldl (fun store l => (l.last store).store) store) id)
      (serverLog store more) := by
    induction more generalizing store with
    | nil => exact .refl _ _
    | cons l more ih =>
        have hrest := (ih (l.last store).store).after (l.last store).runtime.log
        rw [List.append_nil] at hrest
        exact (grown_last l store id).trans hrest
  have happend (lives : List Life) (store : Store) : serverLog store (lives ++ more) =
      serverLog store lives ++
        serverLog (lives.foldl (fun store l => (l.last store).store) store) more := by
    induction lives generalizing store with
    | nil => rfl
    | cons l lives ih => rw [List.cons_append, serverLog, ih, ← List.append_assoc]; rfl
  have hgrown := (hmore more (survivors lives)).after (serverLog (fun _ => none) lives)
  rw [List.append_nil, survivors, ← List.foldl_append] at hgrown
  rwa [happend, survivors]

end Underwriting
