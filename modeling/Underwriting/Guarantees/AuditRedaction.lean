import Underwriting.Guarantees.Redaction
import Underwriting.Run.Emission
import Underwriting.Run.Fresh
import Underwriting.Run.Replies

/-!
# PII in audit events

The details of every event are redacted, and what the nodes put there has no list inside a
list, so no string in them holds PII. The id of the application and the actor go into the
event as they are. The actors are constants, except for a reviewer, whose id the actor ends
in. So the events of a run of calls are free of PII exactly when each submitted id is, and each
reviewer who answers a suspended case has an id that is.
-/

namespace Python

namespace Json

mutual

/-- The strings of a value at any depth, keys included. -/
def strings : Json → List String
  | str s => [s]
  | arr items => itemStrings items
  | obj entries => entryStrings entries
  | _ => []

def itemStrings : List Json → List String
  | [] => []
  | item :: items => strings item ++ itemStrings items

def entryStrings : List (String × Json) → List String
  | [] => []
  | (key, value) :: entries => key :: (strings value ++ entryStrings entries)

end

end Json

end Python

namespace Underwriting

open Python ApplicationService

/-! ## Redacted details -/

section Details

variable (u : Unicode)

mutual

/-- The keys are clean and no list is directly inside a list. -/
def Redactable : Json → Prop
  | .obj entries => RedactableEntries entries
  | .arr items => RedactableItems items
  | _ => True

def RedactableEntries : List (String × Json) → Prop
  | [] => True
  | (key, value) :: entries => Clean u key ∧ Redactable value ∧ RedactableEntries entries

def RedactableItems : List Json → Prop
  | [] => True
  | .arr _ :: _ => False
  | item :: items => Redactable item ∧ RedactableItems items

end

theorem clean_redacted : Clean u redacted := clean_of_plainText u (by decide)

mutual

theorem clean_redactMapping (extra : List String) : ∀ entries : List (String × Json),
    RedactableEntries u entries →
      ∀ s ∈ Json.entryStrings (redactMapping u extra entries), Clean u s
  | [], _ => by simp [redactMapping, Json.entryStrings]
  | (key, value) :: entries, ⟨hkey, hvalue, hentries⟩ => by
      intro s hs
      rw [redactMapping, Json.entryStrings, List.mem_cons, List.mem_append] at hs
      rcases hs with rfl | hs | hs
      · exact hkey
      · split_ifs at hs with hsensitive
        · rw [Json.strings, List.mem_singleton] at hs
          rw [hs]
          exact clean_redacted u
        · exact clean_redactValue extra value hvalue s hs
      · exact clean_redactMapping extra entries hentries s hs

theorem clean_redactValue (extra : List String) : ∀ value : Json,
    Redactable u value → ∀ s ∈ (redactValue u extra value).strings, Clean u s
  | .obj entries, h => by
      rw [redactValue, Json.strings]
      exact clean_redactMapping extra entries h
  | .arr items, h => by
      rw [redactValue, Json.strings]
      exact clean_redactItems extra items h
  | .str text, _ => by
      rw [redactValue, Json.strings]
      simpa using clean_redactText u text
  | .null, _ | .bool _, _ | .int _, _ | .float _, _ => by simp [redactValue, Json.strings]

theorem clean_redactItems (extra : List String) : ∀ items : List Json,
    RedactableItems u items → ∀ s ∈ Json.itemStrings (redactItems u extra items), Clean u s
  | [], _ => by simp [redactItems, Json.itemStrings]
  | .obj entries :: items, h => by
      intro s hs
      rw [redactItems, Json.itemStrings, List.mem_append, Json.strings] at hs
      rcases hs with hs | hs
      · exact clean_redactMapping extra entries h.1 s hs
      · exact clean_redactItems extra items h.2 s hs
  | .str text :: items, h => by
      intro s hs
      rw [redactItems, Json.itemStrings, List.mem_append, Json.strings, List.mem_singleton] at hs
      rcases hs with rfl | hs
      · exact clean_redactText u text
      · exact clean_redactItems extra items h.2 s hs
  | .null :: items, h | .bool _ :: items, h | .int _ :: items, h | .float _ :: items, h => by
      intro s hs
      simp only [redactItems, Json.itemStrings, Json.strings, List.nil_append] at hs
      exact clean_redactItems extra items h.2 s hs

end

theorem redactable_ofStrings (texts : List String) : Redactable u (.ofStrings texts) := by
  induction texts with
  | nil => trivial
  | cons text texts ih => exact ⟨trivial, ih⟩

end Details

/-! ## Events -/

/-- In the id of the application, the actor and the details of an audit entry no string at any
depth has a match of a PII pattern, and redacting it changes nothing. -/
def CleanEntry (u : Unicode) (entry : Json) : Prop :=
  ∀ key ∈ ["application_id", "actor", "details"], ∀ value ∈ entry.get? key,
    ∀ s ∈ value.strings, Clean u s ∧ redactText u s = s

/-- All entries of a trail are such. -/
def CleanEntries (u : Unicode) (events : List AuditEvent) : Prop :=
  ∀ e ∈ events, CleanEntry u e.toJson

section Events

variable {env : Env} {k : Submission}

theorem cleanEntry_toJson_iff (u : Unicode) (e : AuditEvent) :
    CleanEntry u e.toJson ↔ Clean u e.applicationId ∧ Clean u e.actor ∧
      ∀ s ∈ Json.entryStrings e.details, Clean u s := by
  have hid : e.toJson.get? "application_id" = some (.str e.applicationId) := rfl
  have hactor : e.toJson.get? "actor" = some (.str e.actor) := rfl
  have hdetails : e.toJson.get? "details" = some (.obj e.details) := rfl
  simp [CleanEntry, hid, hactor, hdetails, Json.strings, redactText_eq_self_iff]

/-- The details of an event are clean; what is left are the id and the actor. -/
theorem cleanEntry_event_iff {actor action : String} {details : List (String × Json)}
    (h : RedactableEntries env.unicode details) :
    CleanEntry env.unicode (k.event env actor action details).toJson ↔
      Clean env.unicode k.application.applicationId ∧ Clean env.unicode actor := by
  have hdetails := clean_redactMapping env.unicode [] details h
  rw [cleanEntry_toJson_iff]
  exact and_congr_right fun _ => and_iff_left hdetails

theorem cleanEntries_append_iff (u : Unicode) (events events' : List AuditEvent) :
    CleanEntries u (events ++ events') ↔ CleanEntries u events ∧ CleanEntries u events' :=
  List.forall_mem_append

theorem cleanEntries_of_event_iff {v : StateUpdate} {actor action : String}
    {details : List (String × Json)} (hv : v.auditTrail = [k.event env actor action details])
    (h : RedactableEntries env.unicode details) :
    CleanEntries env.unicode v.auditTrail ↔
      Clean env.unicode k.application.applicationId ∧ Clean env.unicode actor := by
  rw [CleanEntries, hv]
  simpa using cleanEntry_event_iff h

/-- An event of a node, whose name is clean. -/
theorem cleanEntries_of_node_iff {v : StateUpdate} {actor action : String}
    {details : List (String × Json)} (hv : v.auditTrail = [k.event env actor action details])
    (hactor : plainText actor = true) (h : RedactableEntries env.unicode details) :
    CleanEntries env.unicode v.auditTrail ↔ Clean env.unicode k.application.applicationId :=
  (cleanEntries_of_event_iff hv h).trans (and_iff_left (clean_of_plainText env.unicode hactor))

theorem cleanEntries_intakeUpdate_iff :
    CleanEntries env.unicode (intakeUpdate env k).auditTrail ↔
      Clean env.unicode k.application.applicationId := by
  apply cleanEntries_of_node_iff rfl (by decide)
  simp [RedactableEntries, Redactable, clean_of_plainText, plainText]

theorem cleanEntries_extractionUpdate_iff (x : ExtractedFinancials) :
    CleanEntries env.unicode (extractionUpdate env k x).auditTrail ↔
      Clean env.unicode k.application.applicationId := by
  apply cleanEntries_of_node_iff rfl (by decide)
  simp [RedactableEntries, Redactable, clean_of_plainText, plainText]

theorem cleanEntries_riskUpdate_iff (risk : RiskAssessment) :
    CleanEntries env.unicode (riskUpdate env k risk).auditTrail ↔
      Clean env.unicode k.application.applicationId := by
  apply cleanEntries_of_node_iff rfl (by decide)
  simp [RedactableEntries, Redactable, clean_of_plainText, plainText]

theorem cleanEntries_policyUpdate_iff (policy : PolicyResult) :
    CleanEntries env.unicode (policyUpdate env k policy).auditTrail ↔
      Clean env.unicode k.application.applicationId := by
  apply cleanEntries_of_node_iff rfl (by decide)
  have hcodes := redactable_ofStrings env.unicode (policy.flags.map PolicyFlag.code)
  simp [RedactableEntries, Redactable, clean_of_plainText, plainText, hcodes]

theorem cleanEntries_escalationRequest_iff (id : String) (risk : RiskAssessment)
    (policy : PolicyResult) :
    CleanEntries env.unicode
        (escalationRequest env k (escalationEntries id risk policy)).auditTrail ↔
      Clean env.unicode k.application.applicationId := by
  apply cleanEntries_of_node_iff rfl (by decide)
  simp [escalationEntries, RedactableEntries, Redactable, clean_of_plainText, plainText]

theorem cleanEntries_escalationResume_iff (payload : List (String × Json))
    (res : EscalationResolution) :
    CleanEntries env.unicode (escalationResume env k payload res).auditTrail ↔
      Clean env.unicode k.application.applicationId ∧
        Clean env.unicode s!"human_reviewer:{res.reviewerId}" := by
  apply cleanEntries_of_event_iff rfl
  simp [RedactableEntries, Redactable, clean_of_plainText, plainText]

theorem cleanEntries_explainabilityUpdate_iff (decision : Decision) :
    CleanEntries env.unicode (explainabilityUpdate env k decision).auditTrail ↔
      Clean env.unicode k.application.applicationId := by
  apply cleanEntries_of_node_iff rfl (by decide)
  simp [RedactableEntries, Redactable, clean_of_plainText, plainText]

theorem cleanEntries_outputUpdate_iff (outcome : DecisionOutcome) :
    CleanEntries env.unicode (outputUpdate env k outcome).auditTrail ↔
      Clean env.unicode k.application.applicationId := by
  apply cleanEntries_of_node_iff rfl (by decide)
  simp [RedactableEntries, Redactable, clean_of_plainText, plainText]

end Events

/-! ## Cases -/

namespace Run

variable {env : Env} {R : Run}

theorem cleanEntries_received_iff :
    CleanEntries env.unicode (R.received env).auditTrail ↔
      Clean env.unicode R.application.applicationId := by
  rw [received, StateUpdate.append_auditTrail, cleanEntries_append_iff]
  exact (and_iff_right fun _ he => nomatch he).trans cleanEntries_intakeUpdate_iff

theorem cleanEntries_extracted_iff (x : ExtractedFinancials) :
    CleanEntries env.unicode (R.extracted env x).auditTrail ↔
      Clean env.unicode R.application.applicationId := by
  simp only [extracted, StateUpdate.append_auditTrail, cleanEntries_append_iff,
    cleanEntries_received_iff, cleanEntries_extractionUpdate_iff, and_self]

theorem cleanEntries_evaluated_iff (x : ExtractedFinancials) :
    CleanEntries env.unicode (R.evaluated env x).auditTrail ↔
      Clean env.unicode R.application.applicationId := by
  simp only [evaluated, scored, StateUpdate.append_auditTrail, cleanEntries_append_iff,
    cleanEntries_extracted_iff, cleanEntries_riskUpdate_iff, cleanEntries_policyUpdate_iff,
    and_self]

theorem cleanEntries_requested_iff (x : ExtractedFinancials) :
    CleanEntries env.unicode (R.requested env x) ↔
      Clean env.unicode R.application.applicationId :=
  cleanEntries_escalationRequest_iff _ _ _

theorem cleanEntries_escalationUpdate_iff (x : ExtractedFinancials) (res : EscalationResolution) :
    CleanEntries env.unicode
        (escalationUpdate env R.submission (R.payload env x) res).auditTrail ↔
      Clean env.unicode R.application.applicationId ∧
        Clean env.unicode s!"human_reviewer:{res.reviewerId}" := by
  rw [escalationUpdate, StateUpdate.append_auditTrail, cleanEntries_append_iff,
    cleanEntries_escalationResume_iff]
  exact (and_congr_left' (cleanEntries_requested_iff x)).trans and_self_left

theorem cleanEntries_resolved_iff (x : ExtractedFinancials)
    (resolution : Option EscalationResolution) :
    CleanEntries env.unicode (R.resolved env x resolution).auditTrail ↔
      Clean env.unicode R.application.applicationId ∧
        ∀ res ∈ resolution, Clean env.unicode s!"human_reviewer:{res.reviewerId}" := by
  cases resolution with
  | none => simp [resolved, cleanEntries_evaluated_iff]
  | some res => simp [resolved, cleanEntries_append_iff, cleanEntries_evaluated_iff,
      cleanEntries_escalationUpdate_iff]

theorem cleanEntries_passed_iff (x : ExtractedFinancials)
    (resolution : Option EscalationResolution) :
    CleanEntries env.unicode (R.passed env x resolution) ↔
      Clean env.unicode R.application.applicationId ∧
        ∀ res ∈ resolution, Clean env.unicode s!"human_reviewer:{res.reviewerId}" := by
  cases resolution with
  | none => simp [passed, cleanEntries_evaluated_iff]
  | some res => simp [passed, cleanEntries_append_iff, cleanEntries_evaluated_iff,
      cleanEntries_requested_iff, cleanEntries_escalationUpdate_iff]

/-- A case stores clean entries when its id and the id of its reviewer are clean. -/
theorem cleanEntries_written_iff (p : Progress env R.application) :
    CleanEntries env.unicode (R.written env p).auditTrail ↔
      Clean env.unicode R.application.applicationId ∧
        ∀ res ∈ p.resolution, Clean env.unicode s!"human_reviewer:{res.reviewerId}" := by
  cases p with
  | extracting => simp [written, Progress.resolution, cleanEntries_received_iff]
  | scoring x h => simp [written, Progress.resolution, cleanEntries_extracted_iff]
  | awaiting x h => simp [written, Progress.resolution, cleanEntries_evaluated_iff]
  | explaining c => exact cleanEntries_resolved_iff c.extracted c.resolution
  | completed c rationale =>
      simp [written, concluded, explained, Progress.resolution, cleanEntries_append_iff,
        cleanEntries_resolved_iff, cleanEntries_explainabilityUpdate_iff,
        cleanEntries_outputUpdate_iff]
      tauto

/-- And so does it log them. -/
theorem cleanEntries_emitted_iff (p : Progress env R.application) :
    CleanEntries env.unicode (R.emitted env p) ↔
      Clean env.unicode R.application.applicationId ∧
        ∀ res ∈ p.resolution, Clean env.unicode s!"human_reviewer:{res.reviewerId}" := by
  cases p with
  | extracting => simp [emitted, Progress.resolution, cleanEntries_received_iff]
  | scoring x h => simp [emitted, Progress.resolution, cleanEntries_extracted_iff]
  | awaiting x h =>
      simp [emitted, Progress.resolution, cleanEntries_append_iff, cleanEntries_evaluated_iff,
        cleanEntries_requested_iff]
  | explaining c => exact cleanEntries_passed_iff c.extracted c.resolution
  | completed c rationale =>
      simp [emitted, Progress.resolution, cleanEntries_append_iff,
        cleanEntries_passed_iff, cleanEntries_explainabilityUpdate_iff,
        cleanEntries_outputUpdate_iff]
      tauto

end Run

/-! ## Resolutions -/

namespace Run

variable {env : Env} {R : Run}

theorem resolution_explain (c : Settled env R.application) (r : Runtime) :
    (R.explain env c r).2.1.resolution = c.resolution := by
  rw [explain]
  split <;> rfl

theorem resolution_extract (r : Runtime) : (R.extract env r).2.1.resolution = none := by
  rcases hread : readDocument env R.application r with ⟨e | x, r'⟩
  · rw [extract_of_error hread]
    rfl
  · rw [extract_of_ok hread]
    by_cases hx : Unscorable env.arithmetic R.application x
    · rw [appraise_of_unscorable hx]
      rfl
    by_cases h : NeedsHuman env R.application x
    · rw [appraise_of_needsHuman hx h]
      rfl
    · rw [appraise_of_not_needsHuman hx h, resolution_explain]
      rfl

/-- A suspended case has no resolution yet. -/
theorem due_ne_of_resolution {p : Progress env R.application} {res : EscalationResolution}
    (h : res ∈ p.resolution) : R.due env p ≠ some .humanEscalation := by
  cases p with
  | awaiting x hx => cases h
  | extracting | scoring => cases h
  | explaining c => simp [due]
  | completed c rationale => simp [due]

/-- Only a suspended case takes the resolution it is resumed with. -/
theorem resolution_resume (res : EscalationResolution) (r : Runtime)
    (p : Progress env R.application) : (R.resume env res r p).2.1.resolution =
      if R.due env p = some .humanEscalation then some res else p.resolution := by
  cases p with
  | extracting => exact resolution_extract r
  | scoring x h => rfl
  | awaiting x h => exact resolution_explain _ _
  | explaining c => exact resolution_explain _ _
  | completed c rationale => rfl

end Run

/-! ## Runs of calls -/

/-- Every audit event that has been logged or is stored is clean. -/
structure AuditClean (u : Unicode) (w : World) : Prop where
  logged : ∀ entry ∈ audited w.runtime.log, CleanEntry u entry
  stored : ∀ id t, w.store id = some t → CleanEntries u t.values.auditTrail

/-- A submission brings a clean id, and so does a reviewer who answers a suspended case. -/
def PiiFree (u : Unicode) (w : World) : Call → Prop
  | .start a => Clean u a.applicationId
  | .resolve id res => (∃ t, w.store id = some t ∧ t.next = some .humanEscalation) →
      Clean u s!"human_reviewer:{res.reviewerId}"
  | .get _ | .rationale _ => True

theorem auditClean_init (u : Unicode) : AuditClean u .init :=
  ⟨fun _ h => (nomatch h), fun _ _ h => nomatch h⟩

section Calls

variable {env : Env} {R : Run} {w : World}

/-- A move keeps the audit clean if and only if the ids of the case it leaves are clean. -/
theorem auditClean_served_iff {o : R.Outcome env} {sofar : List AuditEvent} {r : Runtime}
    (hemits : Run.Emits sofar r o) (hr : audited r.log = audited w.runtime.log)
    (hbase : AuditClean env.unicode w → CleanEntries env.unicode R.base.auditTrail)
    (hold : CleanEntries env.unicode (R.thread env o.2.1).values.auditTrail →
      ∀ t, w.store R.application.applicationId = some t →
        CleanEntries env.unicode t.values.auditTrail) :
    AuditClean env.unicode (Run.served o w).2 ↔
      AuditClean env.unicode w ∧ Clean env.unicode R.application.applicationId ∧
        ∀ res ∈ o.2.1.resolution, Clean env.unicode s!"human_reviewer:{res.reviewerId}" := by
  obtain ⟨events, hemitted, haudited⟩ := hemits
  rw [hr] at haudited
  have htrail : (R.thread env o.2.1).values.auditTrail =
      R.base.auditTrail ++ (R.written env o.2.1).auditTrail := rfl
  rw [← Run.cleanEntries_written_iff]
  constructor
  · intro h
    have hstored := h.stored _ _ (Run.store_served o w)
    refine ⟨⟨fun entry hentry => h.logged entry ?_, fun id t ht => ?_⟩, ?_⟩
    · rw [Run.runtime_served, haudited]
      exact List.mem_append_left _ hentry
    · by_cases hid : id = R.application.applicationId
      · exact hold hstored t (hid ▸ ht)
      · exact h.stored id t ((Run.store_served_of_ne o w hid).trans ht)
    · rw [htrail, cleanEntries_append_iff] at hstored
      exact hstored.2
  · rintro ⟨hw, hwritten⟩
    have hevents : CleanEntries env.unicode (sofar ++ events) := by
      rw [← hemitted, Run.cleanEntries_emitted_iff, ← Run.cleanEntries_written_iff]
      exact hwritten
    constructor
    · rw [Run.runtime_served, haudited]
      intro entry hentry
      rcases List.mem_append.1 hentry with hentry | hentry
      · exact hw.logged entry hentry
      · obtain ⟨e, he, rfl⟩ := List.mem_map.1 hentry
        exact hevents e (List.mem_append_right _ he)
    · intro id t ht
      by_cases hid : id = R.application.applicationId
      · subst hid
        rw [Run.store_served, Option.some.injEq] at ht
        subst ht
        rw [htrail, cleanEntries_append_iff]
        exact ⟨hbase hw, hwritten⟩
      · rw [Run.store_served_of_ne o w hid] at ht
        exact hw.stored id t ht

theorem piiFree_resolve_iff {u : Unicode} {p : Progress env R.application}
    {res : EscalationResolution}
    (hstore : w.store R.application.applicationId = some (R.thread env p)) :
    PiiFree u w (.resolve R.application.applicationId res) ↔
      (R.due env p = some .humanEscalation → Clean u s!"human_reviewer:{res.reviewerId}") := by
  simp [PiiFree, hstore, Run.thread]

theorem auditClean_begin_iff (hbase : R.base = storedValues w R.application.applicationId) :
    AuditClean env.unicode (Run.served (R.begin env (w.runtime.launched R.submission)) w).2 ↔
      AuditClean env.unicode w ∧ Clean env.unicode R.application.applicationId := by
  have hresolution : (R.begin env (w.runtime.launched R.submission)).2.1.resolution = none :=
    Run.resolution_extract _
  rw [auditClean_served_iff (Run.emits_begin _) (audited_launched _ _), hresolution]
  · simp
  · intro h
    cases hstore : w.store R.application.applicationId with
    | none =>
        rw [hbase, storedValues, hstore]
        intro e he
        cases he
    | some t =>
        rw [hbase, storedValues_of_store hstore]
        exact h.stored _ t hstore
  · intro h t ht
    rw [← storedValues_of_store ht, ← hbase]
    exact ((cleanEntries_append_iff _ _ _).1 h).1

theorem auditClean_resume_iff {p : Progress env R.application} (res : EscalationResolution)
    (hstore : w.store R.application.applicationId = some (R.thread env p)) :
    AuditClean env.unicode (Run.served (R.resume env res
        (w.runtime.resolving R.application.applicationId res) p) w).2 ↔
      AuditClean env.unicode w ∧ (R.due env p = some .humanEscalation →
        Clean env.unicode s!"human_reviewer:{res.reviewerId}") := by
  have hresolution := Run.resolution_resume res
    (w.runtime.resolving R.application.applicationId res) p
  have htrail (h : AuditClean env.unicode w) :
      CleanEntries env.unicode R.base.auditTrail ∧
        CleanEntries env.unicode (R.written env p).auditTrail :=
    (cleanEntries_append_iff _ _ _).1 (h.stored _ _ hstore)
  rw [auditClean_served_iff (Run.emits_resume res _ p) (audited_resolving _ _ _)
    (fun h => (htrail h).1), hresolution]
  · apply and_congr_right
    intro h
    have hwritten := (Run.cleanEntries_written_iff p).1 (htrail h).2
    split_ifs with hdue
    · simp [hwritten.1, hdue]
    · exact iff_of_true hwritten fun hdue' => absurd hdue' hdue
  · intro h t ht
    obtain rfl := Option.some.inj (hstore.symm.trans ht)
    obtain ⟨hbase, hwritten⟩ := (cleanEntries_append_iff _ _ _).1 h
    refine (cleanEntries_append_iff _ _ _).2 ⟨hbase, ?_⟩
    rw [Run.cleanEntries_written_iff, hresolution] at hwritten
    rw [Run.cleanEntries_written_iff]
    refine ⟨hwritten.1, fun old hold => hwritten.2 old ?_⟩
    rw [if_neg (Run.due_ne_of_resolution hold)]
    exact hold

/-- One call keeps the audit clean if and only if it brings no PII. -/
theorem auditClean_exec_iff (hw : Sound env (fun _ => True) w) (c : Call) :
    AuditClean env.unicode (exec env w c) ↔
      AuditClean env.unicode w ∧ PiiFree env.unicode w c := by
  cases c with
  | start a =>
      obtain ⟨R, rfl, hcorr, hbase⟩ := hw.exists_run a
      rw [exec_start_eq R hcorr hbase hw.bureau]
      exact auditClean_begin_iff hbase
  | get id =>
      rw [exec_get]
      exact (and_iff_left trivial).symm
  | resolve id res =>
      cases hstore : w.store id with
      | none =>
          rw [exec_resolve_of_unknown res hstore]
          exact (and_iff_left fun ⟨t, ht, _⟩ => by simp [hstore] at ht).symm
      | some t =>
          obtain ⟨R, p, -, rfl, rfl⟩ := hw.threads id t hstore
          rw [piiFree_resolve_iff hstore]
          cases hdue : R.due env p with
          | none =>
              rw [exec_resolve_of_finished res hstore hdue]
              exact (and_iff_left fun h => nomatch h).symm
          | some node =>
              have hsome : (R.due env p).isSome = true := by rw [hdue]; rfl
              rw [exec_resolve_eq res hstore hsome hw.bureau, auditClean_resume_iff res hstore,
                hdue]
  | rationale id =>
      rw [exec_rationale]
      exact (and_iff_left trivial).symm

end Calls

/-- What holds at every position of a list with one more element. -/
theorem forall_positions_append_singleton_iff {α : Type} {P : List α → α → Prop} (as : List α)
    (a : α) :
    (∀ before b later, as ++ [a] = before ++ b :: later → P before b) ↔
      (∀ before b later, as = before ++ b :: later → P before b) ∧ P as a := by
  constructor
  · intro h
    refine ⟨fun before b later heq => h before b (later ++ [a]) ?_, h as a [] rfl⟩
    rw [heq, List.append_assoc, List.cons_append]
  · rintro ⟨has, ha⟩ before b later heq
    rcases List.eq_nil_or_concat later with rfl | ⟨later, c, rfl⟩
    · obtain ⟨rfl, hsingle⟩ := List.append_inj' heq rfl
      obtain rfl := List.singleton_inj.1 hsingle
      exact ha
    · rw [List.concat_eq_append, ← List.cons_append, ← List.append_assoc] at heq
      exact has before b later (List.append_inj' heq rfl).1

/-- The audit of a run of calls is clean if and only if no call of it brings PII. -/
theorem audit_clean_iff (env : Env) (calls : List Call) :
    AuditClean env.unicode (run env calls .init) ↔
      ∀ before c later, calls = before ++ c :: later →
        PiiFree env.unicode (run env before .init) c := by
  induction calls using List.reverseRecOn with
  | nil => exact iff_of_true (auditClean_init _) (by simp)
  | append_singleton calls c ih =>
      have hrun : run env (calls ++ [c]) .init = exec env (run env calls .init) c :=
        run_append env calls [c] .init
      rw [hrun, auditClean_exec_iff (sound_run env calls), ih,
        forall_positions_append_singleton_iff
          (P := fun before c => PiiFree env.unicode (run env before .init) c)]

/-- A reviewer who is known by an email address. -/
def emailResolution : EscalationResolution :=
  { sampleResolution with reviewerId := "jane.doe@example.com", reviewer_length := by decide }

/-- The address of the reviewer is logged and stored as the actor of the resolution. -/
theorem reviewer_address_audited :
    ¬ AuditClean sampleEnv.unicode
      (run sampleEnv [.start escalatedApplication, .resolve "app_1" emailResolution] .init) := by
  obtain ⟨hstore, -⟩ := run_start_awaits (replies_sample escalatedApplication) needsHuman_escalated
  have hrun : run sampleEnv [.start escalatedApplication, .resolve "app_1" emailResolution] .init =
      exec sampleEnv (run sampleEnv [.start escalatedApplication] .init)
        (.resolve "app_1" emailResolution) := rfl
  rw [hrun, auditClean_exec_iff (sound_run sampleEnv [.start escalatedApplication])]
  rintro ⟨-, h⟩
  have hclean := h ⟨_, hstore, rfl⟩ emailPattern (by simp [piiPatterns])
  revert hclean
  decide

end Underwriting
