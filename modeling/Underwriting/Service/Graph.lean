import Underwriting.DurableGraph.Basic
import Underwriting.Service.Nodes

/-!
# The underwriting graph

Intake, extraction, risk scoring and policy follow each other; the policy node goes to
the human escalation or straight to the explanation, and both end in the decision
output. A call may take 25 nodes, the runtime's default.
-/

namespace Underwriting

open Python

/-- The outgoing edges, the conditional one included. -/
def nextNode : Node → UnderwritingState → Option Node
  | .intake, _ => some .documentExtractionAgent
  | .documentExtractionAgent, _ => some .riskScoringAgent
  | .riskScoringAgent, _ => some .policyComplianceAgent
  | .policyComplianceAgent, s => some (routeAfterPolicy s)
  | .humanEscalation, _ => some .explainabilityAgent
  | .explainabilityAgent, _ => some .decisionOutput
  | .decisionOutput, _ => none

def runNode (env : Env) : Node → Option Json → UnderwritingState → PyM StateUpdate
  | .intake, _, s => intakeNode env s
  | .documentExtractionAgent, _, s => documentExtractionNode env s
  | .riskScoringAgent, _, s => riskScoringNode env s
  | .policyComplianceAgent, _, s => policyComplianceNode env s
  | .humanEscalation, resume, s => humanEscalationNode env resume s
  | .explainabilityAgent, _, s => explainabilityNode env s
  | .decisionOutput, _, s => decisionOutputNode env s

def graph (env : Env) :
    DurableGraph.Graph Node UnderwritingState StateUpdate Json Json Runtime Exn where
  entry := .intake
  node := runNode env
  merge := UnderwritingState.merge
  edge := nextNode
  payload? := Exn.interruptPayload
  recursionError := .graphRecursionError

def recursionLimit : ℕ := 25

/-- The checkpoint of one thread. -/
abbrev Thread := DurableGraph.Snapshot Node UnderwritingState Json

end Underwriting
