import Underwriting.Infrastructure.PromptGuard
import Underwriting.Infrastructure.Resilience

/-!
# The chat model

`ResilientChatModel.invoke` runs the inner model under the retry and the breaker. The
inner model is whatever the environment says; `mockChat` is the offline one, which
dispatches on the task marker of the system message to a regex extraction or to a
template for the rationale.

The extraction raises in one place, the conversion of a captured figure to a float: a
figure that consists of commas only is the empty text once the commas are removed.
-/

namespace Underwriting

open Python Python.Regex

def extractionTaskMarker : String := "TASK:DOCUMENT_EXTRACTION"

def rationaleTaskMarker : String := "TASK:EXPLAINABILITY_RATIONALE"

/-- The factor that normalizes a figure per pay period to a month. -/
def payFrequencyMonthlyMultiplier : List (String × ℚ) :=
  [("monthly", 1), ("semimonthly", 2), ("semi-monthly", 2), ("biweekly", 26 / 12),
    ("bi-weekly", 26 / 12), ("weekly", 52 / 12)]

/-! ## Reading labelled fields -/

/-- `[\d,]+(?:\.\d+)?`. -/
def amountPattern (u : Unicode) : Regex :=
  seq (plus fun c => isDigit u c || c == ',') (opt (seq (char '.') (plus (isDigit u))))

/-- `label\s*:\s*\$?\s*` followed by the captured amount. -/
def moneyFieldPattern (u : Unicode) (label : String) : Regex :=
  seq (word label) <| seq (star isSpace) <| seq (char ':') <| seq (star isSpace) <|
    seq (opt (char '$')) <| seq (star isSpace) (group (amountPattern u))

/-- `label\s*:\s*(.+)`. -/
def textFieldPattern (label : String) : Regex :=
  seq (word label) <| seq (star isSpace) <| seq (char ':') <| seq (star isSpace) <|
    group (plus (· != '\n'))

def digitsValue (u : Unicode) (s : List Char) : ℕ :=
  s.foldl (fun n c => 10 * n + (u.decimal c).getD 0) 0

/-- `float(s)` for a text without sign, exponent, white space and underscores. The value is exact;
one too large for a float is told apart by `Arithmetic.isInf` where it matters. -/
def parseFloat (u : Unicode) (s : List Char) : Except Exn ℚ :=
  let whole := s.takeWhile (isDigit u)
  let failure := Exn.valueError s!"could not convert string to float: '{String.ofList s}'"
  match s.dropWhile (isDigit u) with
  | [] => if whole = [] then .error failure else .ok (digitsValue u whole)
  | '.' :: frac =>
      if frac.all (isDigit u) ∧ (whole ≠ [] ∨ frac ≠ []) then
        .ok (digitsValue u whole + digitsValue u frac / 10 ^ frac.length)
      else .error failure
  | _ => .error failure

/-- What the money pattern captures first in a text. -/
def moneyFigure (u : Unicode) (text label : String) : Option (List Char) :=
  (search (moneyFieldPattern u label) none text.toList).bind Match.captured

def parseMoneyField (u : Unicode) (text label : String) : Except Exn (Option ℚ) :=
  match moneyFigure u text label with
  | none => .ok none
  | some figure => (parseFloat u (figure.filter (· != ','))).map some

def parseTextField (text label : String) : Option String :=
  ((search (textFieldPattern label) none text.toList).bind Match.captured).map fun s =>
    String.ofList (strip s)

/-! ## The offline extraction -/

/-- `frequency_raw`; an absent or blank field reads as monthly. -/
def payFrequencyOf (u : Unicode) (text : String) : String :=
  u.lower (((parseTextField text "PAY_FREQUENCY").filter (· != "")).getD "monthly")

def sourceExcerpts (text : String) : List String :=
  (((splitLines text.toList).filter fun line => line.contains ':' && strip line != []).map
    fun line => String.ofList (strip line)).take 6

/-- The extracted record as a function of the fields that were found. The monthly amount of a
figure, `round(figure * multiplier, 2)`, is a parameter: on floats it is neither the exact product
nor rounded half to even. -/
def extractionPayload (monthly : ℚ → ℚ → ℚ) (u : Unicode) (text : String)
    (gross net debt : Option ℚ) : Json :=
  let frequency := payFrequencyOf u text
  let known := payFrequencyMonthlyMultiplier.lookup frequency
  let multiplier := known.getD 1
  let fieldsFound := (if known.isSome then 1 else 0) + (if gross.isSome then 1 else 0) +
    (if net.isSome then 1 else 0) + (if debt.isSome then 1 else 0)
  let confidence := roundTo (0.55 + 0.4 * (fieldsFound / 4)) 2
  .obj [
    ("monthly_gross_income", .float (monthly (gross.getD 0) multiplier)),
    ("monthly_net_income", .float (monthly (net.getD 0) multiplier)),
    ("existing_monthly_debt_payments", .float (debt.getD 0)),
    ("employer_name", .ofOption .str (parseTextField text "EMPLOYER")),
    ("pay_frequency", .str frequency),
    ("extraction_confidence", .float (min confidence 0.99)),
    ("source_excerpts", .ofStrings (sourceExcerpts text))]

/-- `_mock_document_extraction`, however amounts are rounded. -/
def mockDocumentExtractionWith (monthly : ℚ → ℚ → ℚ) (u : Unicode) (text : String) :
    Except Exn Content := do
  let gross ← parseMoneyField u text "GROSS_PAY_PER_PERIOD"
  let net ← parseMoneyField u text "NET_PAY_PER_PERIOD"
  let debt ← parseMoneyField u text "EXISTING_MONTHLY_DEBT"
  pure (.ofJson (extractionPayload monthly u text gross net debt))

/-- The monthly amount of a figure in exact arithmetic. -/
def monthlyAmount (figure multiplier : ℚ) : ℚ := roundTo (figure * multiplier) 2

def mockDocumentExtraction (u : Unicode) (text : String) : Except Exn Content :=
  mockDocumentExtractionWith monthlyAmount u text

/-! ## The offline rationale -/

/-- `data[key]`, read at the type at which it is formatted. -/
def item {α : Type} (data : Json) (key : String) (dec : Json → Option α) : Except Exn α :=
  ((data.get? key).bind dec).elim (.error (.keyError key)) .ok

def flagText (f : Json) : String :=
  let text key := ((f.get? key).bind Json.asStr).getD ""
  text "code" ++ ": " ++ text "description"

def escalationSentence (escalation : Json) : String :=
  let reviewer := ((escalation.get? "reviewer_id").bind Json.asStr).getD "a human reviewer"
  let notes := (((escalation.get? "notes").bind Json.asStr).filter (· != "")).getD
    "no additional notes provided"
  let verdict := if (escalation.get? "approve").any Json.truthy then "approved" else "denied"
  s!"This case was escalated for human review; {reviewer} {verdict} it after automated risk " ++
    s!"scoring placed it in the borderline band. Reviewer notes: {notes}."

/-- `_mock_explainability_rationale`, whatever `f'{ratio:.1%}'` prints. -/
def mockExplainabilityRationaleWith (percent : ℚ → String) (payload : Option Json) :
    Except Exn Content := do
  let data ← payload.elim (.error .jsonDecodeError) .ok
  let outcome ← item data "decision_outcome" Json.asStr
  let dti ← item data "debt_to_income_ratio" Json.asFloat
  let tier ← item data "risk_tier" Json.asStr
  let band ← item data "credit_band" Json.asStr
  let requested ← item data "requested_amount" Json.asFloat
  let approvedAmount := (data.get? "approved_amount").bind Json.asFloat
  let permitted := ((data.get? "permitted_factors_used").bind (Json.asList Json.asStr)).getD []
  let flags := ((data.get? "policy_flags").bind (Json.asList some)).getD []
  let escalation := (data.get? "escalation").getD .null
  let factorSummary :=
    s!"a debt-to-income ratio of {percent dti}, a '{band}' credit band, " ++
      s!"a '{tier}' overall risk tier, and a requested amount of " ++
      s!"${formatFixed requested 0 true}"
  let amountClause := approvedAmount.elim "" fun q => s!" for ${formatFixed q 0 true}"
  let permittedList := ", ".intercalate permitted
  let drivers := s!"The decision was driven by {factorSummary}, all of which fall within the " ++
    s!"permitted factor set ({permittedList})."
  let verdict := if outcome = "approved" then
      [s!"This application was APPROVED{amountClause}.", drivers]
    else ["This application was DENIED.", drivers]
  let blocking := flags.filter fun f =>
    ((f.get? "severity").bind Json.asStr).any fun s => s == "warn" || s == "block"
  let flagList := "; ".intercalate (blocking.map flagText)
  let review := if blocking = [] then [] else
    [s!"Policy review noted the following: {flagList}."]
  let reviewer := if escalation.truthy then [escalationSentence escalation] else []
  pure ⟨" ".intercalate (verdict ++ review ++ reviewer), none⟩

def mockExplainabilityRationale (payload : Option Json) : Except Exn Content :=
  mockExplainabilityRationaleWith (formatPercent · 1) payload

/-! ## The models -/

/-- The first nonempty system text of a prompt. -/
def systemContent (messages : List Message) : String :=
  (messages.findSome? fun m => match m with
    | .system text => if text = "" then none else some text
    | .human _ => none).getD ""

/-- The content of the last human message of a prompt. -/
def humanContent (messages : List Message) : Content :=
  (messages.reverse.findSome? fun m => match m with
    | .human content => some content
    | .system _ => none).getD ⟨"", none⟩

/-- `MockChatModel._generate`. -/
def mockChat (u : Unicode) (messages : List Message) : Except Exn Content :=
  if contains extractionTaskMarker.toList (systemContent messages).toList then
    mockDocumentExtraction u (humanContent messages).text
  else if contains rationaleTaskMarker.toList (systemContent messages).toList then
    mockExplainabilityRationale (humanContent messages).json
  else .ok (.ofJson (.obj [("note", .str "mock model: no task marker recognized")]))

/-- One invocation of the inner model. -/
def innerInvoke (env : Env) (messages : List Message) : PyM Content := do
  let r ← Py.state
  Py.modify fun r => { r with chatCalls := r.chatCalls + 1 }
  Py.lift (env.chat r.chatCalls messages)

/-- `ResilientChatModel.invoke`. -/
def invokeChat (env : Env) (messages : List Message) : PyM Content :=
  withRetry 3 (CircuitBreaker.call env .llm (innerInvoke env messages))

/-- The process when it has just started. -/
def Runtime.init : Runtime where
  breakers := fun
    | .llm => .new "llm" 3 15
    | .creditBureau => .new "credit-bureau" 3 10
  chatCalls := 0
  ticks := 0
  uuids := 0
  log := []
  spans := []

end Underwriting
