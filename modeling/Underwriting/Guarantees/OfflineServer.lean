import Underwriting.Guarantees.HttpContract
import Underwriting.Guarantees.Isolation

/-!
# Serving offline

Without a provider key the service runs on the mock model, whose replies are usable for every
application with a readable document. So a server that is submitted such applications only never
cuts its model off, and it answers every request itself: over whatever cases earlier processes have
left, however its requests are interleaved.
-/

namespace Underwriting

open Python Api Api.Server

/-- The applications with a readable document whose figures can be scored. -/
def manageable (env : Env) : Set LoanApplication :=
  {a | a.IsReadable env.unicode ∧ a.IsScorable env}

theorem scores_offline (env : Env) : env.offline.Scores env.arithmetic (manageable env) := by
  rintro n a ⟨-, hscorable⟩ reply x hchat hvalid
  exact hscorable reply x ((chat_extraction_offline n).symm.trans hchat) hvalid

theorem usableFrom_offline (env : Env) (n : ℕ) : UsableFrom env.offline (manageable env) n := by
  refine ⟨scores_offline env, ?_, ?_⟩
  · rintro k _ a ⟨hreadable, -⟩
    obtain ⟨reply, x, hreply, hvalid⟩ := mockDocumentExtraction_of_readable hreadable
    exact ⟨reply, x, (chat_extraction_offline k).trans hreply, hvalid⟩
  · intro k _ a _ risk policy resolution
    obtain ⟨text, htext, hnonempty⟩ :=
      mockExplainabilityRationale_of_payload a risk policy resolution
    refine ⟨text, ?_, hnonempty⟩
    rw [env.chat_offline, mockChat_rationale]
    exact htext

section Server

variable {env : Env} {host : Host} {lives : List Life}

/-- A server that runs the mock model is healthy from the start and stays so. -/
theorem healthy_offline (hoffline : host.env = env.offline) (hdisk : host.disk = survivors lives)
    (hunicode : ∀ l ∈ lives, l.env.unicode = env.unicode)
    (hsubmits : ∀ l ∈ lives, SubmitsOnly (manageable env) l.asked)
    (hscores : ∀ l ∈ lives, l.env.Scores env.arithmetic (manageable env)) {past : List Event}
    (hrequests : RequestsOnly (manageable env) past) {w : World}
    (hservice : (after host past).service = some w) :
    w.Healthy env.offline (manageable env) 0 := by
  have hsame : ∀ l ∈ lives, l.env.unicode = env.offline.unicode := hunicode
  have hnothing : SubmitsOnly (manageable env) ([] : List Call) := by simp [SubmitsOnly]
  have hstart : World.Healthy env.offline (manageable env) 0 ⟨survivors lives, .init⟩ :=
    healthy_process hsame hsubmits hscores (scores_offline env) hnothing (by rintro ⟨⟩)
  have hworld := world_after past w hservice
  rw [Life.last_of_not_killed, hoffline, hdisk] at hworld
  rw [hworld]
  exact hstart.leave_calls (usableFrom_offline env 0) hrequests.submitsOnly

/-- A server that runs the mock model and is submitted readable documents only answers every
request itself, with its id, after any crash history and in any interleaving. -/
theorem offline_server_answers (hoffline : host.env = env.offline)
    (hdisk : host.disk = survivors lives) (hunicode : ∀ l ∈ lives, l.env.unicode = env.unicode)
    (hsubmits : ∀ l ∈ lives, SubmitsOnly (manageable env) l.asked)
    (hscores : ∀ l ∈ lives, l.env.Scores env.arithmetic (manageable env)) (past events : List Event)
    (hrequests : RequestsOnly (manageable env) (past ++ events))
    (hstarted : (after host past).service.isSome = true) {i : ℕ} {request : Request}
    (hscheduled : Scheduled (past ++ events) i request) (hlate : .handle i ∉ past) :
    ∃ context response, (after host (past ++ events)).tasks i =
        some ⟨request, context, .answered response⟩ ∧
      response.reply.status ∈ [200, 201, 404, 409, 422] ∧
      ∃ correlationId, Entered host (past ++ events) i request correlationId ∧
        response.correlationId = some correlationId := by
  obtain ⟨w, hservice⟩ := Option.isSome_iff_exists.1 hstarted
  have hhealthy :=
    healthy_offline hoffline hdisk hunicode hsubmits hscores hrequests.append_left hservice
  have hsame : ∀ l ∈ lives, host.env.unicode = l.env.unicode := by
    intro l hl
    rw [hunicode l hl, hoffline]
    rfl
  rw [← hoffline] at hhealthy
  have husable : UsableFrom host.env (manageable env) 0 := by
    rw [hoffline]
    exact usableFrom_offline env 0
  obtain ⟨context, response, htask⟩ := @answered_of_scheduled host _ _ _ hscheduled
  exact ⟨context, response, htask,
    exists_answer hdisk hsame hrequests hservice hhealthy husable hlate htask⟩

end Server

/-- The mock model over an empty checkpoint file, and a submission that is alone with it. -/
def offlineHost : Host := ⟨sampleEnv.offline, sampleLifespan, survivors [], sampleEnv.uuid⟩

def aloneSubmission : Request := ⟨none, .submitApplication (some sampleApplication)⟩

def alone : List Event := [.arrive 0 aloneSubmission, .enter 0, .handle 0, .leave 0]

theorem requestsOnly_alone : RequestsOnly (manageable sampleEnv) ([.startup] ++ alone) := by
  intro i request a harrived hroute
  simp only [alone, List.cons_append, List.nil_append, List.mem_cons, reduceCtorEq, false_or,
    Event.arrive.injEq, List.not_mem_nil, or_false] at harrived
  rw [harrived.2, aloneSubmission, Route.submitApplication.injEq, Option.some.injEq] at hroute
  rw [← hroute]
  exact ⟨isReadable_sample, isScorable_sample⟩

theorem offline_server_answers_sample :
    ∃ context response, (after offlineHost ([.startup] ++ alone)).tasks 0 =
        some ⟨aloneSubmission, context, .answered response⟩ ∧
      response.reply.status ∈ [200, 201, 404, 409, 422] ∧
      ∃ correlationId, Entered offlineHost ([.startup] ++ alone) 0 aloneSubmission
          correlationId ∧
        response.correlationId = some correlationId :=
  @offline_server_answers sampleEnv offlineHost [] rfl rfl (by simp) (by simp) (by simp) [.startup]
    alone requestsOnly_alone rfl 0 aloneSubmission
    ⟨[.startup], alone.tail, rfl, by simp, .refl _⟩ (by simp)

end Underwriting
