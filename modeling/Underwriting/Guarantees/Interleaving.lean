import Underwriting.Api.Server
import Underwriting.Run.Typed

/-!
# Interleaved requests

The tasks of the server give way to each other, but an endpoint runs in one piece. So the
world of a server is the one that serving the handled requests one after another leads to, and
every answer is the reply of its endpoint at one moment between the arrival of the request and
the answer: `exists_moment`. A request whose task is given its turns is answered:
`answered_of_scheduled`. The lines that are written while an endpoint runs carry the id of its
request, and so does the answer: `lines_correlated`.
-/

namespace Underwriting

open Python ApplicationService Api Api.Server

namespace Api.Server

variable {host : Host}

/-! ## One event -/

theorem after_snoc (events : List Event) (e : Event) :
    after host (events ++ [e]) = (after host events).step host e := List.foldl_append

/-- What an event does to the task `i`. -/
inductive Moves (host : Host) (s : Server) (i : ℕ) : Event → Task → Prop
  | arrive (request : Request) (h : s.tasks i = none) :
      Moves host s i (.arrive i request) ⟨request, none, .arrived⟩
  | enter {request : Request} {context : Option String}
      (h : s.tasks i = some ⟨request, context, .arrived⟩) :
      Moves host s i (.enter i) ⟨request,
        some (chooseCorrelationId request.correlationHeader (host.requestUuid s.requestIds)),
        .forwarded (chooseCorrelationId request.correlationHeader (host.requestUuid s.requestIds))
          context (some (chooseCorrelationId request.correlationHeader
            (host.requestUuid s.requestIds)))⟩
  | handle {request : Request} {context token copy : Option String} {correlationId : String}
      (h : s.tasks i = some ⟨request, context, .forwarded correlationId token copy⟩) :
      Moves host s i (.handle i) ⟨request, context,
        .handled correlationId token (dispatch host.env request.route s.service).1⟩
  | leave {request : Request} {context token : Option String} {correlationId : String}
      {reply : Option Reply}
      (h : s.tasks i = some ⟨request, context, .handled correlationId token reply⟩) :
      Moves host s i (.leave i) ⟨request, token, .answered (respond correlationId reply)⟩

/-- An event leaves a task alone, or it moves it. -/
theorem task_step_cases (s : Server) (e : Event) (i : ℕ) :
    (s.step host e).tasks i = s.tasks i ∨
      ∃ task, (s.step host e).tasks i = some task ∧ Moves host s i e task := by
  -- An event of another task writes elsewhere.
  have hother {j : ℕ} (task : Task) (h : i ≠ j) : (s.setTask j task).tasks i = s.tasks i :=
    Function.update_of_ne h _ _
  have hself (task : Task) : (s.setTask i task).tasks i = some task := Function.update_self _ _ _
  cases e with
  | startup =>
      rw [step, Server.startup]
      cases s.service with
      | none => exact .inl rfl
      | some w => exact .inl rfl
  | arrive j request =>
      rw [step]
      by_cases hnone : s.tasks j = none
      · rw [if_pos hnone]
        by_cases hij : i = j
        · subst hij
          exact .inr ⟨_, hself _, .arrive request hnone⟩
        · exact .inl (hother _ hij)
      · rw [if_neg hnone]
        exact .inl rfl
  | enter j =>
      rw [step, enter]
      split
      · next request context htask =>
          by_cases hij : i = j
          · subst hij
            exact .inr ⟨_, hself _, .enter htask⟩
          · exact .inl (hother _ hij)
      · exact .inl rfl
  | handle j =>
      rw [step, handle]
      split
      · next request context correlationId token copy htask =>
          by_cases hij : i = j
          · subst hij
            exact .inr ⟨_, hself _, .handle htask⟩
          · exact .inl (hother _ hij)
      · exact .inl rfl
  | leave j =>
      rw [step, leave]
      split
      · next request context correlationId token reply htask =>
          by_cases hij : i = j
          · subst hij
            exact .inr ⟨_, hself _, .leave htask⟩
          · exact .inl (hother _ hij)
      · exact .inl rfl

/-- The call that an event makes of the service. -/
def callOf (s : Server) : Event → Option Call
  | .handle i =>
      match s.service, s.tasks i with
      | some _, some ⟨request, _, .forwarded _ _ _⟩ => request.route.call
      | _, _ => none
  | _ => none

/-- What an event does to the world and to the lines of the log. -/
inductive Writes (host : Host) (s : Server) : Event → Server → Prop
  | startup {s' : Server} (h : s.service = none)
      (hservice : s'.service = some ⟨host.disk, .init⟩)
      (hlines : s'.lines = s.lines ++ startupLines host) : Writes host s .startup s'
  | handle {s' : Server} {i : ℕ} {request : Request} {context token copy : Option String}
      {correlationId : String}
      (h : s.tasks i = some ⟨request, context, .forwarded correlationId token copy⟩)
      (hservice : s'.service = (dispatch host.env request.route s.service).2)
      (hlines : s'.lines = s.lines ++ (loggedSince s.service s'.service).map (⟨copy, ·⟩)) :
      Writes host s (.handle i) s'

theorem service_step_cases (s : Server) (e : Event) :
    (s.callOf e = none ∧ (s.step host e).service = s.service ∧
      (s.step host e).lines = s.lines) ∨
      Writes host s e (s.step host e) := by
  cases e with
  | startup =>
      cases hservice : s.service with
      | none =>
          rw [step, Server.startup, hservice]
          exact .inr (.startup hservice rfl rfl)
      | some w =>
          rw [step, Server.startup, hservice]
          exact .inl ⟨rfl, hservice, rfl⟩
  | arrive i request =>
      rw [step]
      split
      · exact .inl ⟨rfl, rfl, rfl⟩
      · exact .inl ⟨rfl, rfl, rfl⟩
  | enter i =>
      rw [step, enter]
      split
      · exact .inl ⟨rfl, rfl, rfl⟩
      · exact .inl ⟨rfl, rfl, rfl⟩
  | handle i =>
      rw [step, Server.handle]
      split
      · next htask => exact .inr (.handle htask rfl rfl)
      · next htask =>
          refine .inl ⟨?_, rfl, rfl⟩
          rw [callOf]
          split
          · next _ _ htask' => exact absurd htask' (htask _ _ _ _ _)
          · rfl
  | leave i =>
      rw [step, Server.leave]
      split
      · exact .inl ⟨rfl, rfl, rfl⟩
      · exact .inl ⟨rfl, rfl, rfl⟩

/-! ## The calls of a schedule -/

/-- The calls of a schedule, in the order in which its endpoints run. -/
def callsFrom (host : Host) : Server → List Event → List Call
  | _, [] => []
  | s, e :: events => (s.callOf e).toList ++ callsFrom host (s.step host e) events

theorem callsFrom_snoc (s : Server) (events : List Event) (e : Event) :
    callsFrom host s (events ++ [e]) =
      callsFrom host s events ++ ((events.foldl (step host) s).callOf e).toList := by
  induction events generalizing s with
  | nil => simp [callsFrom]
  | cons e' events ih => simp [callsFrom, ih]

theorem callsFrom_append (s : Server) (events more : List Event) :
    callsFrom host s (events ++ more) =
      callsFrom host s events ++ callsFrom host (events.foldl (step host) s) more := by
  induction events generalizing s with
  | nil => rfl
  | cons e events ih =>
      rw [List.cons_append, callsFrom, callsFrom, ih, List.append_assoc, List.foldl_cons]

/-- The request of a task has arrived. -/
theorem arrive_mem_of_task {events : List Event} {i : ℕ} {task : Task}
    (htask : (after host events).tasks i = some task) : .arrive i task.request ∈ events := by
  induction events using List.reverseRecOn generalizing task with
  | nil => cases htask
  | append_singleton events e ih =>
      rw [after_snoc] at htask
      rcases task_step_cases (after host events) e i with hsame | ⟨task', htask', hmoves⟩
      · rw [hsame] at htask
        exact List.mem_append_left _ (ih htask)
      · rw [htask', Option.some.injEq] at htask
        subst htask
        cases hmoves with
        | arrive request hnone => exact List.mem_append_right _ List.mem_cons_self
        | enter h | handle h | leave h =>
            have harrived := ih h
            exact List.mem_append_left _ harrived

/-- A call is made for a request that has arrived. -/
theorem exists_arrive {events : List Event} {c : Call} (hc : c ∈ callsFrom host .init events) :
    ∃ i request, .arrive i request ∈ events ∧ request.route.call = some c := by
  induction events using List.reverseRecOn with
  | nil => cases hc
  | append_singleton events e ih =>
      rw [callsFrom_snoc, List.mem_append, Option.mem_toList] at hc
      rcases hc with hc | hc
      · obtain ⟨i, request, harrived, hcall⟩ := ih hc
        exact ⟨i, request, List.mem_append_left _ harrived, hcall⟩
      · cases e with
        | handle i =>
            rw [callOf] at hc
            split at hc
            · next htask =>
                exact ⟨i, _, List.mem_append_left _ (arrive_mem_of_task htask), hc⟩
            · cases hc
        | startup | arrive | enter | leave => cases hc

/-- The world, if there is one, comes of serving the calls. -/
def Serves (host : Host) (calls : List Call) : Option World → Prop
  | none => calls = []
  | some w => w = calls.foldl (Underwriting.leave host.env recursionLimit) ⟨host.disk, .init⟩

theorem Writes.serves {s s' : Server} {e : Event} {calls : List Call} (h : Writes host s e s')
    (hcalls : Serves host calls s.service) :
    Serves host (calls ++ (s.callOf e).toList) s'.service := by
  cases h with
  | startup hnone hservice hlines =>
      rw [hnone] at hcalls
      obtain rfl : calls = [] := hcalls
      rw [hservice]
      rfl
  | @handle s' i request context token copy correlationId htask hservice hlines =>
      rw [hservice]
      cases hs : s.service with
      | none =>
          have hcall : s.callOf (.handle i) = none := by rw [callOf, hs]
          rw [hs] at hcalls
          rw [dispatch_none, hcall, Option.toList_none, List.append_nil]
          exact hcalls
      | some w =>
          have hcall : s.callOf (.handle i) = request.route.call := by rw [callOf, hs, htask]
          rw [hs] at hcalls
          obtain rfl : w = _ := hcalls
          rw [dispatch_world, hcall]
          cases request.route.call with
          | none => simp [Serves]
          | some c => simp [Serves]

theorem serves_after (events : List Event) :
    Serves host (callsFrom host .init events) (after host events).service := by
  induction events using List.reverseRecOn with
  | nil => rfl
  | append_singleton events e ih =>
      rw [callsFrom_snoc, after_snoc]
      rcases service_step_cases (after host events) e with ⟨hcall, hservice, -⟩ | hwrites
      · have hnone : (events.foldl (step host) .init).callOf e = none := hcall
        rw [hservice, hnone, Option.toList_none, List.append_nil]
        exact ih
      · exact hwrites.serves ih

/-- The world of a server is that of a process which serves the calls one after another. -/
theorem world_after (events : List Event) : ∀ w ∈ (after host events).service,
    w = (⟨host.env, callsFrom host .init events, none⟩ : Life).last host.disk := by
  intro w hw
  have hserves := @serves_after host events
  rw [hw] at hserves
  rw [Life.last_of_not_killed]
  exact hserves

/-! ## The life of a task -/

/-- The middleware has let the request of the task `i` in, under this id. -/
def Entered (host : Host) (events : List Event) (i : ℕ) (request : Request)
    (correlationId : String) : Prop :=
  ∃ before later, events = before ++ .enter i :: later ∧
    (after host before).tasks i = some ⟨request, none, .arrived⟩ ∧
    correlationId = chooseCorrelationId request.correlationHeader
      (host.requestUuid (after host before).requestIds)

/-- The endpoint of the task `i` has run, with this reply. -/
def Handled (host : Host) (events : List Event) (i : ℕ) (request : Request)
    (correlationId : String) (reply : Option Reply) : Prop :=
  ∃ before later, events = before ++ .handle i :: later ∧
    (after host before).tasks i = some ⟨request, some correlationId,
      .forwarded correlationId none (some correlationId)⟩ ∧
    reply = (dispatch host.env request.route (after host before).service).1

section Grow

variable {events : List Event} {i : ℕ} {request : Request} {correlationId : String}
  {reply : Option Reply}

theorem Entered.snoc (h : Entered host events i request correlationId) (e : Event) :
    Entered host (events ++ [e]) i request correlationId := by
  obtain ⟨before, later, rfl, htask, hid⟩ := h
  exact ⟨before, later ++ [e], by simp, htask, hid⟩

theorem Handled.snoc (h : Handled host events i request correlationId reply) (e : Event) :
    Handled host (events ++ [e]) i request correlationId reply := by
  obtain ⟨before, later, rfl, htask, hreply⟩ := h
  exact ⟨before, later ++ [e], by simp, htask, hreply⟩

end Grow

/-- How a task has come to its phase. Outside the middleware its context holds no id. -/
inductive Traced (host : Host) (events : List Event) (i : ℕ) : Task → Prop
  | arrived {request : Request} : Traced host events i ⟨request, none, .arrived⟩
  | forwarded {request : Request} {correlationId : String}
      (hentered : Entered host events i request correlationId) :
      Traced host events i ⟨request, some correlationId,
        .forwarded correlationId none (some correlationId)⟩
  | handled {request : Request} {correlationId : String} {reply : Option Reply}
      (hentered : Entered host events i request correlationId)
      (hhandled : Handled host events i request correlationId reply) :
      Traced host events i ⟨request, some correlationId, .handled correlationId none reply⟩
  | answered {request : Request} {correlationId : String} {reply : Option Reply}
      (hentered : Entered host events i request correlationId)
      (hhandled : Handled host events i request correlationId reply) :
      Traced host events i ⟨request, none, .answered (respond correlationId reply)⟩

theorem Traced.snoc {events : List Event} {i : ℕ} {task : Task} (h : Traced host events i task)
    (e : Event) : Traced host (events ++ [e]) i task := by
  cases h with
  | arrived => exact .arrived
  | forwarded hentered => exact .forwarded (hentered.snoc e)
  | handled hentered hhandled => exact .handled (hentered.snoc e) (hhandled.snoc e)
  | answered hentered hhandled => exact .answered (hentered.snoc e) (hhandled.snoc e)

theorem Moves.traced {events : List Event} {e : Event} {i : ℕ} {task : Task}
    (hmoves : Moves host (after host events) i e task)
    (h : ∀ task', (after host events).tasks i = some task' → Traced host events i task') :
    Traced host (events ++ [e]) i task := by
  cases hmoves with
  | arrive request hnone => exact .arrived
  | enter htask =>
      cases h _ htask with
      | arrived => exact .forwarded ⟨events, [], rfl, htask, rfl⟩
  | handle htask =>
      cases h _ htask with
      | forwarded hentered => exact .handled (hentered.snoc _) ⟨events, [], rfl, htask, rfl⟩
  | leave htask =>
      cases h _ htask with
      | handled hentered hhandled => exact .answered (hentered.snoc _) (hhandled.snoc _)

/-- Every task of a server is traced. -/
theorem traced_after (events : List Event) (i : ℕ) {task : Task}
    (htask : (after host events).tasks i = some task) : Traced host events i task := by
  induction events using List.reverseRecOn generalizing task with
  | nil => cases htask
  | append_singleton events e ih =>
      rw [after_snoc] at htask
      rcases task_step_cases (after host events) e i with hsame | ⟨task', htask', hmoves⟩
      · rw [hsame] at htask
        exact (ih htask).snoc e
      · rw [htask', Option.some.injEq] at htask
        subst htask
        exact hmoves.traced fun _ => ih

/-! ## Turns -/

/-- How many turns the task of a request has had. -/
def turnsTaken : Phase → ℕ
  | .arrived => 0
  | .forwarded _ _ _ => 1
  | .handled _ _ _ => 2
  | .answered _ => 3

/-- The task `i` is that of the request and has had `k` turns or more. -/
def HasCome (s : Server) (i : ℕ) (request : Request) (k : ℕ) : Prop :=
  ∃ task, s.tasks i = some task ∧ task.request = request ∧ k ≤ turnsTaken task.phase

section Turns

variable {s : Server} {i k : ℕ} {request : Request}

theorem Moves.turnsTaken_le {e : Event} {task task' : Task} (hmoves : Moves host s i e task')
    (htask : s.tasks i = some task) :
    task'.request = task.request ∧ turnsTaken task.phase ≤ turnsTaken task'.phase := by
  cases hmoves with
  | arrive request h =>
      rw [h] at htask
      cases htask
  | enter h | handle h | leave h =>
      rw [h] at htask
      cases htask
      exact ⟨rfl, by simp [turnsTaken]⟩

/-- No event takes a turn back. -/
theorem HasCome.step (h : HasCome s i request k) (e : Event) :
    HasCome (s.step host e) i request k := by
  obtain ⟨task, htask, hrequest, hk⟩ := h
  rcases task_step_cases s e i with hsame | ⟨task', htask', hmoves⟩
  · exact ⟨task, by rw [hsame, htask], hrequest, hk⟩
  · obtain ⟨hsame, hle⟩ := hmoves.turnsTaken_le htask
    exact ⟨task', htask', hsame.trans hrequest, hk.trans hle⟩

theorem HasCome.run (h : HasCome s i request k) (events : List Event) :
    HasCome (events.foldl (Server.step host) s) i request k := by
  induction events generalizing s with
  | nil => exact h
  | cons e events ih => exact ih (h.step e)

theorem HasCome.enter (h : HasCome s i request 0) :
    HasCome (s.step host (.enter i)) i request 1 := by
  obtain ⟨⟨request, context, phase⟩, htask, rfl, -⟩ := h
  cases phase with
  | arrived =>
      rw [Server.step, Server.enter, htask]
      exact ⟨_, Function.update_self _ _ _, rfl, le_rfl⟩
  | forwarded | handled | answered => exact HasCome.step ⟨_, htask, rfl, by simp [turnsTaken]⟩ _

theorem HasCome.handle (h : HasCome s i request 1) :
    HasCome (s.step host (.handle i)) i request 2 := by
  obtain ⟨⟨request, context, phase⟩, htask, rfl, hk⟩ := h
  cases phase with
  | arrived => exact absurd hk (by simp [turnsTaken])
  | forwarded =>
      rw [Server.step, Server.handle, htask]
      exact ⟨_, Function.update_self _ _ _, rfl, le_rfl⟩
  | handled | answered => exact HasCome.step ⟨_, htask, rfl, by simp [turnsTaken]⟩ _

theorem HasCome.leave (h : HasCome s i request 2) :
    HasCome (s.step host (.leave i)) i request 3 := by
  obtain ⟨⟨request, context, phase⟩, htask, rfl, hk⟩ := h
  cases phase with
  | arrived | forwarded => exact absurd hk (by simp [turnsTaken])
  | handled =>
      rw [Server.step, Server.leave, htask]
      exact ⟨_, Function.update_self _ _ _, rfl, le_rfl⟩
  | answered => exact HasCome.step ⟨_, htask, rfl, by simp [turnsTaken]⟩ _

/-- A turn among other events. -/
theorem HasCome.exists_turn {e : Event} {turns events : List Event}
    (hturn : ∀ {s}, HasCome s i request k → HasCome (s.step host e) i request (k + 1))
    (h : HasCome s i request k) (hsublist : (e :: turns).Sublist events) :
    ∃ s' later, turns.Sublist later ∧ HasCome s' i request (k + 1) ∧
      events.foldl (Server.step host) s = later.foldl (Server.step host) s' := by
  obtain ⟨first, later, rfl, he, hrest⟩ := List.cons_sublist_iff.1 hsublist
  obtain ⟨before, between, rfl⟩ := List.mem_iff_append.1 he
  have hturned : HasCome (between.foldl (Server.step host)
      ((before.foldl (Server.step host) s).step host e)) i request (k + 1) :=
    (hturn (h.run before)).run between
  refine ⟨_, later, hrest, hturned, ?_⟩
  rw [List.foldl_append, List.foldl_append, List.foldl_cons]

end Turns

/-- The schedule lets the request arrive as the task `i` and gives this task its turns. -/
def Scheduled (events : List Event) (i : ℕ) (request : Request) : Prop :=
  ∃ before later, events = before ++ .arrive i request :: later ∧
    (∀ request', .arrive i request' ∉ before) ∧
    [Event.enter i, .handle i, .leave i].Sublist later

/-- Every request whose task is given its turns is answered, whatever happens in between. -/
theorem answered_of_scheduled {events : List Event} {i : ℕ} {request : Request}
    (h : Scheduled events i request) : ∃ context response,
      (after host events).tasks i = some ⟨request, context, .answered response⟩ := by
  obtain ⟨before, later, rfl, hfree, hturns⟩ := h
  have hnone : (after host before).tasks i = none := by
    rw [Option.eq_none_iff_forall_ne_some]
    exact fun task htask => hfree _ (arrive_mem_of_task htask)
  have harrived : HasCome ((after host before).step host (.arrive i request)) i request 0 := by
    rw [step, if_pos hnone]
    exact ⟨_, Function.update_self _ _ _, rfl, le_rfl⟩
  obtain ⟨s₁, later₁, hturns₁, h₁, heq₁⟩ := harrived.exists_turn HasCome.enter hturns
  obtain ⟨s₂, later₂, hturns₂, h₂, heq₂⟩ := h₁.exists_turn HasCome.handle hturns₁
  obtain ⟨s₃, later₃, -, h₃, heq₃⟩ := h₂.exists_turn HasCome.leave hturns₂
  have hafter : after host (before ++ .arrive i request :: later) =
      later₃.foldl (step host) s₃ := by
    rw [← heq₃, ← heq₂, ← heq₁, after, List.foldl_append, List.foldl_cons]
    rfl
  obtain ⟨⟨request, context, phase⟩, htask, rfl, hk⟩ := h₃.run later₃
  rw [hafter, htask]
  cases phase with
  | answered response => exact ⟨context, response, rfl⟩
  | arrived | forwarded | handled => exact absurd hk (by simp [turnsTaken])

/-! ## Generated ids -/

theorem requestIds_le_step (s : Server) (e : Event) :
    s.requestIds ≤ (s.step host e).requestIds := by
  cases e with
  | startup =>
      rw [step, Server.startup]
      cases s.service with
      | none => exact le_rfl
      | some w => exact le_rfl
  | arrive i request =>
      rw [step]
      split <;> exact le_rfl
  | enter i =>
      rw [step, enter]
      split
      · dsimp only
        split
        · exact le_rfl
        · exact Nat.le_succ _
      · exact le_rfl
  | handle i =>
      rw [step, Server.handle]
      split <;> exact le_rfl
  | leave i =>
      rw [step, Server.leave]
      split <;> exact le_rfl

theorem requestIds_le_after (events more : List Event) :
    (after host events).requestIds ≤ (after host (events ++ more)).requestIds := by
  induction more using List.reverseRecOn with
  | nil => rw [List.append_nil]
  | append_singleton more e ih =>
      rw [← List.append_assoc, after_snoc]
      exact ih.trans (requestIds_le_step _ _)

theorem chooseCorrelationId_of_not_bringsId {request : Request} (h : request.bringsId = false)
    (uuid : String) : chooseCorrelationId request.correlationHeader uuid = s!"req_{uuid}" := by
  rw [Request.bringsId, Option.isSome_eq_false_iff, Option.isNone_iff_eq_none] at h
  rw [chooseCorrelationId, h]

/-- A generated id counts as used from then on. -/
theorem requestIds_lt_after {before : List Event} {i : ℕ} {request : Request}
    (htask : (after host before).tasks i = some ⟨request, none, .arrived⟩)
    (hbrings : request.bringsId = false) (more : List Event) :
    (after host before).requestIds < (after host (before ++ .enter i :: more)).requestIds := by
  have hstep : ((after host before).step host (.enter i)).requestIds =
      (after host before).requestIds + 1 := by
    rw [step, enter, htask]
    simp [hbrings]
  have hle : (after host (before ++ [.enter i])).requestIds ≤
      (after host (before ++ [.enter i] ++ more)).requestIds := requestIds_le_after _ _
  rw [after_snoc, hstep, List.append_assoc, List.singleton_append] at hle
  exact hle

/-- Requests that bring no id are given different ones, if what is generated never repeats. -/
theorem Entered.eq_of_generated (hinjective : Function.Injective host.requestUuid)
    {events : List Event} {i j : ℕ} {request request' : Request} {correlationId : String}
    (h : Entered host events i request correlationId)
    (h' : Entered host events j request' correlationId) (hbrings : request.bringsId = false)
    (hbrings' : request'.bringsId = false) : i = j := by
  obtain ⟨before, later, hevents, htask, hid⟩ := h
  obtain ⟨before', later', hevents', htask', hid'⟩ := h'
  rw [chooseCorrelationId_of_not_bringsId hbrings] at hid
  rw [chooseCorrelationId_of_not_bringsId hbrings', hid] at hid'
  have hindex : (after host before).requestIds = (after host before').requestIds :=
    hinjective (String.append_right_inj _ |>.1 hid')
  rw [hevents] at hevents'
  rcases List.append_eq_append_iff.1 hevents' with ⟨mid, rfl, hmid⟩ | ⟨mid, rfl, hmid⟩
  · cases mid with
    | nil =>
        cases hmid
        rfl
    | cons e mid =>
        cases hmid
        exact absurd hindex (requestIds_lt_after htask hbrings mid).ne
  · cases mid with
    | nil =>
        cases hmid
        rfl
    | cons e mid =>
        cases hmid
        exact absurd hindex.symm (requestIds_lt_after htask' hbrings' mid).ne

/-- Once its endpoint has run, a request keeps its id and its reply. -/
theorem Handled.task {events : List Event} {i : ℕ} {request : Request} {correlationId : String}
    {reply : Option Reply} (h : Handled host events i request correlationId reply) :
    (after host events).tasks i =
        some ⟨request, some correlationId, .handled correlationId none reply⟩ ∨
      (after host events).tasks i =
        some ⟨request, none, .answered (respond correlationId reply)⟩ := by
  obtain ⟨before, later, rfl, htask, rfl⟩ := h
  induction later using List.reverseRecOn with
  | nil =>
      rw [after_snoc, step, Server.handle, htask]
      exact .inl (Function.update_self _ _ _)
  | append_singleton later e ih =>
      rw [← List.cons_append, ← List.append_assoc, after_snoc]
      rcases task_step_cases (after host (before ++ .handle i :: later)) e i with
        hsame | ⟨task, htask', hmoves⟩
      · rw [hsame]
        exact ih
      · -- Only the answer is left to be given.
        cases hmoves with
        | arrive request' hnone => rcases ih with ih | ih <;> rw [hnone] at ih <;> cases ih
        | enter h => rcases ih with ih | ih <;> rw [h] at ih <;> cases ih
        | handle h => rcases ih with ih | ih <;> rw [h] at ih <;> cases ih
        | leave h =>
            rcases ih with ih | ih <;> rw [h] at ih <;> cases ih
            exact .inr htask'

/-! ## Lines of the log -/

/-- The line is one of those that the endpoint of the task `i` has written. -/
def Written (host : Host) (events : List Event) (line : LogLine) (i : ℕ) : Prop :=
  ∃ before later, events = before ++ .handle i :: later ∧
    line ∈ (after host (before ++ [.handle i])).lines.drop (after host before).lines.length

/-- The lines of the lifespan are followed by `requested`. These hold the records of the process,
and each has been written by an endpoint. -/
structure Logged (host : Host) (events : List Event) (s : Server) (requested : List LogLine) :
    Prop where
  lines : s.lines = s.service.elim [] (fun _ => startupLines host) ++ requested
  records : requested.map LogLine.record = s.service.elim [] (·.runtime.log)
  written : ∀ line ∈ requested, ∃ i, Written host events line i

theorem Written.snoc {events : List Event} {line : LogLine} {i : ℕ}
    (h : Written host events line i) (e : Event) : Written host (events ++ [e]) line i := by
  obtain ⟨before, later, rfl, hline⟩ := h
  exact ⟨before, later ++ [e], by simp, hline⟩

theorem Logged.snoc {events : List Event} {s s' : Server} {requested : List LogLine}
    (h : Logged host events s requested) (hservice : s'.service = s.service)
    (hlines : s'.lines = s.lines) (e : Event) : Logged host (events ++ [e]) s' requested := by
  refine ⟨by rw [hlines, hservice, h.lines], by rw [hservice, h.records], fun line hline => ?_⟩
  obtain ⟨i, hwritten⟩ := h.written line hline
  exact ⟨i, hwritten.snoc e⟩

/-- What an endpoint logs is what the process logs meanwhile. -/
theorem exists_loggedSince (env : Env) (route : Route) (service : Option World) :
    ((dispatch env route service).2.elim [] (·.runtime.log)) =
        service.elim [] (·.runtime.log) ++ loggedSince service (dispatch env route service).2 ∧
      ∀ record ∈ loggedSince service (dispatch env route service).2, Plain record := by
  cases service with
  | none =>
      rw [dispatch_none]
      exact ⟨rfl, by simp [loggedSince]⟩
  | some w =>
      have hlogs := @logs_dispatch env w route
      rw [dispatch_world] at hlogs ⊢
      obtain ⟨records, hlog, hplain⟩ := hlogs _ rfl
      have hsince : loggedSince (some w)
          (some (route.call.elim w (Underwriting.leave env recursionLimit w))) = records := by
        rw [loggedSince, Option.elim_some, Option.elim_some, hlog, List.drop_left]
      rw [hsince]
      exact ⟨hlog, hplain⟩

/-- An endpoint neither sets the service up nor takes it down. -/
theorem elim_dispatch {α : Type} (env : Env) (route : Route) (service : Option World) (a b : α) :
    (dispatch env route service).2.elim a (fun _ => b) = service.elim a fun _ => b := by
  cases service with
  | none => rw [dispatch_none]
  | some w => rw [dispatch_world, Option.elim_some, Option.elim_some]

/-- What an endpoint writes carries the id of its request. -/
theorem Written.exists_handled {events : List Event} {line : LogLine} {i : ℕ}
    (h : Written host events line i) :
    ∃ request correlationId reply, Handled host events i request correlationId reply ∧
      line.context = some correlationId ∧ Plain line.record := by
  obtain ⟨before, later, rfl, hline⟩ := h
  rw [after_snoc] at hline
  rcases service_step_cases (after host before) (.handle i) with ⟨-, -, hlines⟩ | hwrites
  · rw [hlines, List.drop_length] at hline
    cases hline
  · cases hwrites with
    | @handle _ _ request context token copy correlationId htask hservice hlines =>
        rw [hlines, List.drop_left] at hline
        obtain ⟨record, hrecord, rfl⟩ := List.mem_map.1 hline
        have hplain := (exists_loggedSince host.env request.route (after host before).service).2
        rw [← hservice] at hplain
        -- The context the line is written in is the copy made of the task's own.
        cases traced_after before i htask with
        | forwarded hentered =>
            exact ⟨request, correlationId, _, ⟨before, later, rfl, htask, rfl⟩, rfl,
              hplain record hrecord⟩

theorem Writes.logged {events : List Event} {e : Event} {requested : List LogLine}
    (hwrites : Writes host (after host events) e ((after host events).step host e))
    (h : Logged host events (after host events) requested) :
    ∃ requested', Logged host (events ++ [e]) ((after host events).step host e) requested' := by
  generalize hs : (after host events).step host e = s' at hwrites
  cases hwrites with
  | startup hnone hservice hlines =>
      have hrecords := h.records
      rw [hnone] at hrecords
      have hempty : requested = [] := List.map_eq_nil_iff.1 hrecords
      refine ⟨[], ?_, by rw [hservice]; rfl, by simp⟩
      rw [hlines, hservice, h.lines, hnone, hempty]
      simp
  | @handle _ i request context token copy correlationId htask hservice hlines =>
      have hlog := (exists_loggedSince host.env request.route (after host events).service).1
      rw [← hservice] at hlog
      refine ⟨requested ++ (loggedSince (after host events).service s'.service).map (⟨copy, ·⟩),
        ?_, ?_, ?_⟩
      · rw [hlines, h.lines, hservice, elim_dispatch, List.append_assoc]
      · rw [hlog, List.map_append, h.records, List.map_map]
        exact congrArg _ (List.map_id _)
      · intro line hline
        rcases List.mem_append.1 hline with hline | hline
        · obtain ⟨j, hwritten⟩ := h.written line hline
          exact ⟨j, hwritten.snoc _⟩
        · refine ⟨i, events, [], rfl, ?_⟩
          rw [after_snoc, hs, hlines, List.drop_left]
          exact hline

/-- The lines hold what the process logs, each written by an endpoint. -/
theorem logged_after (events : List Event) :
    ∃ requested, Logged host events (after host events) requested := by
  induction events using List.reverseRecOn with
  | nil => exact ⟨[], rfl, rfl, by simp⟩
  | append_singleton events e ih =>
      obtain ⟨requested, hlogged⟩ := ih
      rw [after_snoc]
      rcases service_step_cases (after host events) e with ⟨-, hservice, hlines⟩ | hwrites
      · exact ⟨requested, hlogged.snoc hservice hlines e⟩
      · exact hwrites.logged hlogged

/-- A request whose endpoint has run has been let in before. -/
theorem Handled.entered {events : List Event} {i : ℕ} {request : Request} {correlationId : String}
    {reply : Option Reply} (h : Handled host events i request correlationId reply) :
    Entered host events i request correlationId := by
  rcases h.task with htask | htask
  · cases traced_after events i htask with
    | handled hentered hhandled => exact hentered
  · obtain ⟨before, later, rfl, hbefore, -⟩ := h
    cases traced_after before i hbefore with
    | forwarded hentered =>
        obtain ⟨before', later', rfl, harrived, hid⟩ := hentered
        exact ⟨before', later' ++ .handle i :: later, by simp, harrived, hid⟩

/-- An answer is the reply of the endpoint at one moment after the request has been let in. -/
theorem exists_moment {events : List Event} {i : ℕ} {request : Request} {context : Option String}
    {response : Response}
    (htask : (after host events).tasks i = some ⟨request, context, .answered response⟩) :
    ∃ correlationId before later, events = before ++ .handle i :: later ∧
      Entered host before i request correlationId ∧
      response = respond correlationId
        (dispatch host.env request.route (after host before).service).1 ∧
      (after host (before ++ [.handle i])).service =
        (dispatch host.env request.route (after host before).service).2 := by
  cases traced_after events i htask with
  | @answered _ correlationId reply hentered hhandled =>
      obtain ⟨before, later, hevents, hbefore, rfl⟩ := hhandled
      have hservice : (after host (before ++ [.handle i])).service =
          (dispatch host.env request.route (after host before).service).2 := by
        rw [after_snoc, step, Server.handle, hbefore]
      cases traced_after before i hbefore with
      | forwarded hentered' =>
          exact ⟨correlationId, before, later, hevents, hentered', rfl, hservice⟩

end Api.Server

/-- However requests are interleaved, the lines of the log are those of the lifespan, which carry no
id, and then what the process logs, each line written by an endpoint. All that an endpoint writes
can be found under the id of its request. That id is the one the answer carries, it takes the place
of whatever id the record names itself, and no other request to which the server gives an id has
the same unless what it generates repeats. Every other entry of a record is written as it is. -/
theorem lines_correlated (host : Host) (events : List Event) :
    ((after host events).service = none → (after host events).lines = []) ∧
      ∀ w ∈ (after host events).service, ∃ requested,
        (after host events).lines = startupLines host ++ requested ∧
        requested.map LogLine.record = w.runtime.log ∧
        (∀ line ∈ startupLines host, Json.lookup line.entries "correlation_id" = some .null) ∧
        (∀ line ∈ requested, ∃ i, Written host events line i) ∧
        (∀ line i, Written host events line i → ∃ request correlationId reply,
          Handled host events i request correlationId reply ∧
          Json.lookup line.entries "correlation_id" = some (.str correlationId) ∧
          (∀ context response,
            (after host events).tasks i = some ⟨request, context, .answered response⟩ →
              response = respond correlationId reply) ∧
          (Function.Injective host.requestUuid → ∀ j request', request.bringsId = false →
            request'.bringsId = false → Entered host events j request' correlationId → j = i)) ∧
        ∀ line ∈ startupLines host ++ requested, ∀ key v, key ≠ "correlation_id" →
          Json.lookup line.record.extra key = some v → Json.lookup line.entries key = some v := by
  obtain ⟨requested, hlogged⟩ := @logged_after host events
  constructor
  · intro hnone
    have hrecords := hlogged.records
    rw [hnone] at hrecords
    have hempty : requested = [] := List.map_eq_nil_iff.1 hrecords
    rw [hlogged.lines, hnone, hempty]
    rfl
  · intro w hw
    have hlines := hlogged.lines
    have hrecords := hlogged.records
    rw [Option.mem_def.1 hw] at hlines hrecords
    have hplain (line : LogLine) (hline : line ∈ startupLines host) :
        line.context = none ∧ Plain line.record := by
      obtain ⟨record, hrecord, rfl⟩ := List.mem_map.1 hline
      exact ⟨rfl, host.settings.plain_startupRecords record hrecord⟩
    refine ⟨requested, hlines, hrecords, fun line hline => ?_, hlogged.written,
      fun line i hwritten => ?_, ?_⟩
    · obtain ⟨hcontext, hplain⟩ := hplain line hline
      rw [LogLine.entries, lookup_addFields_correlationId hplain, hcontext]
      rfl
    · obtain ⟨request, correlationId, reply, hhandled, hcontext, hplain⟩ := hwritten.exists_handled
      refine ⟨request, correlationId, reply, hhandled, ?_, ?_, ?_⟩
      · rw [LogLine.entries, lookup_addFields_correlationId hplain, hcontext]
        rfl
      · intro context response htask
        rcases hhandled.task with htask' | htask' <;> rw [htask] at htask' <;> cases htask'
        rfl
      · intro hinjective j request' hbrings hbrings' hentered
        exact hentered.eq_of_generated hinjective hhandled.entered hbrings' hbrings
    · intro line hline key v hne hv
      rcases List.mem_append.1 hline with hline | hline
      · exact lookup_addFields_extra (hplain line hline).2 line.context hne hv
      · obtain ⟨i, hwritten⟩ := hlogged.written line hline
        obtain ⟨-, -, -, -, -, hplain⟩ := hwritten.exists_handled
        exact lookup_addFields_extra hplain line.context hne hv

end Underwriting
