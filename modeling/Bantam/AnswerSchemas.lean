import Bantam.AttackTrees
import Bantam.TestPlans
import Mathlib.Algebra.Order.Field.Rat

/-! The schemas of what a model answers about a graph: attack scenarios, remediations and a
narrative. Each value is what the text of an answer says, and `valid` is what its schema asks. -/
namespace Bantam

def minScenarios : Nat := 2
def maxScenarios : Nat := 5

/-! The constraints of the fields. -/

def sized (lo hi : Nat) (s : String) : Bool := Sized lo hi s.length

def counted {α : Type} (lo hi : Nat) (l : List α) : Bool := Sized lo hi l.length

def between (lo hi x : Rat) : Bool := lo ≤ x ∧ x ≤ hi

def lowerOrDigit (c : Char) : Bool := ('a' ≤ c ∧ c ≤ 'z') ∨ ('0' ≤ c ∧ c ≤ '9')

/-- `^tag:[a-z0-9][a-z0-9._-]*$` -/
def taggedId (tag s : String) : Bool :=
  tag.toList.isPrefixOf s.toList &&
    match s.toList.drop tag.length with
    | [] => false
    | c :: rest => lowerOrDigit c && rest.all fun c => lowerOrDigit c || c = '.' || c = '_' || c = '-'

/-- `^T\d{4}(\.\d{3})?$`, for what the schema library takes for a digit. -/
def techniqueIdOk (digit : Char → Bool) (s : String) : Bool :=
  match s.toList with
  | 'T' :: a :: b :: c :: d :: rest => [a, b, c, d].all digit &&
    match rest with
    | [] => true
    | ['.', e, f, g] => [e, f, g].all digit
    | _ => false
  | _ => false

/-- A full match of `M\d{4}`. -/
def mitigationIdOk (digit : Char → Bool) (s : String) : Bool :=
  match s.toList with
  | ['M', a, b, c, d] => [a, b, c, d].all digit
  | _ => false

/-! Attack trees. -/

/-- A node of an attack tree, with what it cites of the graph. -/
structure CitingNode where
  attackNodeId : String
  title : String
  description : String
  kind : AttackNodeKind
  operator : AttackOperator
  graphNodeIds : List String
  flowIds : List String
deriving DecidableEq, Repr

def CitingNode.valid (node : CitingNode) : Bool :=
  sized 8 80 node.attackNodeId && taggedId "attack:" node.attackNodeId &&
  sized 4 140 node.title && sized 12 600 node.description && counted 1 8 node.graphNodeIds &&
  counted 0 4 node.flowIds

/-- `ScenarioAttackNode` -/
structure ScenarioAttackNode extends CitingNode where
  mitreTechniqueIds : List String
  successProbability : Rat
  detectionProbability : Rat
deriving DecidableEq, Repr

def ScenarioAttackNode.valid (node : ScenarioAttackNode) : Bool :=
  node.toCitingNode.valid && counted 0 4 node.mitreTechniqueIds &&
  between (1 / 1000) (99 / 100) node.successProbability &&
  between 0 (99 / 100) node.detectionProbability

/-- An attack tree with nodes of some kind. -/
structure TreeDocument (ν : Type) where
  title : String
  rootAttackNodeId : String
  nodes : List ν
  edges : List AttackTreeEdge
  assumptions : List String
  limitations : List String
deriving DecidableEq, Repr

def TreeDocument.valid {ν : Type} (nodeValid : ν → Bool) (tree : TreeDocument ν) : Bool :=
  sized 8 180 tree.title && sized 8 80 tree.rootAttackNodeId && counted 3 24 tree.nodes &&
  tree.nodes.all nodeValid && counted 2 36 tree.edges &&
  (tree.edges.all fun edge => sized 8 80 edge.parentAttackNodeId &&
    sized 8 80 edge.childAttackNodeId) &&
  counted 0 8 tree.assumptions && counted 0 8 tree.limitations

/-- What the structure check reads of a tree. -/
def TreeDocument.shape {ν : Type} (citing : ν → CitingNode) (tree : TreeDocument ν) : AttackTree where
  rootAttackNodeId := tree.rootAttackNodeId
  nodes := tree.nodes.map fun node =>
    ⟨(citing node).attackNodeId, (citing node).kind, (citing node).operator⟩
  edges := tree.edges

abbrev RepositoryAttackTree := TreeDocument CitingNode

abbrev ScenarioAttackTree := TreeDocument ScenarioAttackNode

def RepositoryAttackTree.attackTree (tree : RepositoryAttackTree) : AttackTree :=
  TreeDocument.shape id tree

def ScenarioAttackTree.attackTree (tree : ScenarioAttackTree) : AttackTree :=
  TreeDocument.shape (·.toCitingNode) tree

/-! Attack scenarios. -/

structure LossRange where
  minimumGbp : Rat
  mostLikelyGbp : Rat
  maximumGbp : Rat
deriving DecidableEq, Repr

def LossRange.valid (range : LossRange) : Bool :=
  between 0 1000000000000 range.minimumGbp && between 0 1000000000000 range.mostLikelyGbp &&
  between 0 1000000000000 range.maximumGbp &&
  (range.minimumGbp ≤ range.mostLikelyGbp ∧ range.mostLikelyGbp ≤ range.maximumGbp)

structure MitreTechnique where
  techniqueId : String
  name : String
  tactic : String
deriving DecidableEq, Repr

def attackTactics : List String :=
  ["Reconnaissance", "Resource Development", "Initial Access", "Execution", "Persistence",
    "Privilege Escalation", "Defense Evasion", "Credential Access", "Discovery",
    "Lateral Movement", "Collection", "Command and Control", "Exfiltration", "Impact"]

def MitreTechnique.valid (digit : Char → Bool) (technique : MitreTechnique) : Bool :=
  techniqueIdOk digit technique.techniqueId && sized 3 120 technique.name &&
  technique.tactic ∈ attackTactics

structure ScenarioFinancialEstimate where
  annualAttemptFrequency : Rat
  primaryLoss : LossRange
  secondaryLoss : LossRange
  detectedLossMultiplier : Rat
  rationale : String
  financialInputsUsed : List String
deriving DecidableEq, Repr

def ScenarioFinancialEstimate.valid (estimate : ScenarioFinancialEstimate) : Bool :=
  between (1 / 100) 52 estimate.annualAttemptFrequency && estimate.primaryLoss.valid &&
  estimate.secondaryLoss.valid && between (1 / 20) 1 estimate.detectedLossMultiplier &&
  sized 20 800 estimate.rationale && counted 1 8 estimate.financialInputsUsed

structure AttackScenario where
  scenarioId : String
  name : String
  businessService : String
  narrative : String
  mitreTechniques : List MitreTechnique
  attackTree : ScenarioAttackTree
  financials : ScenarioFinancialEstimate
deriving DecidableEq, Repr

def AttackScenario.valid (digit : Char → Bool) (scenario : AttackScenario) : Bool :=
  sized 10 80 scenario.scenarioId && taggedId "scenario:" scenario.scenarioId &&
  sized 4 140 scenario.name && sized 4 160 scenario.businessService &&
  sized 20 900 scenario.narrative && counted 1 8 scenario.mitreTechniques &&
  scenario.mitreTechniques.all (·.valid digit) &&
  scenario.attackTree.valid (·.valid) && scenario.financials.valid

structure AttackScenarioSet where
  schemaVersion : String
  summary : String
  scenarios : List AttackScenario
  assumptions : List String
  limitations : List String
deriving DecidableEq, Repr

def AttackScenarioSet.valid (digit : Char → Bool) (set : AttackScenarioSet) : Bool :=
  set.schemaVersion = "1.0" && sized 20 1200 set.summary &&
  counted minScenarios maxScenarios set.scenarios && set.scenarios.all (·.valid digit) &&
  counted 0 8 set.assumptions && counted 0 8 set.limitations

/-! Remediations. -/

inductive ImplementationEffort where
  | days | weeks | months
deriving DecidableEq, Repr

inductive RemediationPriority where
  | immediate | high | medium | low
deriving DecidableEq, Repr

structure Remediation where
  remediationId : String
  title : String
  description : String
  mitreMitigationIds : List String
  targetAttackNodeIds : List String
  graphNodeIds : List String
  softwareComponentIds : List String
  implementationEffort : ImplementationEffort
  priority : RemediationPriority
  estimatedCostGbp : Rat
  annualRunCostGbp : Rat
  successProbabilityReduction : Rat
  detectionProbabilityUplift : Rat
  residualRiskNote : String
  evidenceRationale : String
deriving DecidableEq, Repr

def Remediation.valid (digit : Char → Bool) (r : Remediation) : Bool :=
  sized 6 80 r.remediationId && taggedId "fix:" r.remediationId && sized 4 140 r.title &&
  sized 20 700 r.description && counted 0 4 r.mitreMitigationIds &&
  counted 1 8 r.targetAttackNodeIds && counted 0 8 r.graphNodeIds &&
  counted 0 6 r.softwareComponentIds && (0 < r.estimatedCostGbp ∧ r.estimatedCostGbp ≤ 50000000) &&
  between 0 50000000 r.annualRunCostGbp && between 0 (95 / 100) r.successProbabilityReduction &&
  between 0 (95 / 100) r.detectionProbabilityUplift && sized 10 400 r.residualRiskNote &&
  sized 20 600 r.evidenceRationale &&
  !(r.successProbabilityReduction = 0 ∧ r.detectionProbabilityUplift = 0) &&
  r.mitreMitigationIds.all (mitigationIdOk digit)

structure RemediationPlan where
  schemaVersion : String
  summary : String
  remediations : List Remediation
  monitoring : List String
  assumptions : List String
  limitations : List String
deriving DecidableEq, Repr

def RemediationPlan.valid (digit : Char → Bool) (plan : RemediationPlan) : Bool :=
  plan.schemaVersion = "1.0" && sized 20 1200 plan.summary && counted 2 10 plan.remediations &&
  plan.remediations.all (·.valid digit) && counted 0 6 plan.monitoring &&
  counted 0 8 plan.assumptions && counted 0 8 plan.limitations

/-! The narrative of a repository. -/

structure NarrativeLayer where
  name : String
  explanation : String
  nodeIds : List String
deriving DecidableEq, Repr

structure NarrativeFlow where
  flowId : String
  explanation : String
deriving DecidableEq, Repr

structure RepositoryNarrative where
  schemaVersion : String
  summary : String
  architecture : List NarrativeLayer
  importantFlows : List NarrativeFlow
  readingOrder : List String
  limitations : List String
  attackTree : RepositoryAttackTree
deriving DecidableEq, Repr

def RepositoryNarrative.valid (narrative : RepositoryNarrative) : Bool :=
  narrative.schemaVersion = "1.0" && sized 12 1200 narrative.summary &&
  counted 1 8 narrative.architecture &&
  (narrative.architecture.all fun layer => sized 2 100 layer.name &&
    sized 8 700 layer.explanation && counted 0 12 layer.nodeIds) &&
  counted 0 12 narrative.importantFlows &&
  (narrative.importantFlows.all fun flow => sized 1 300 flow.flowId &&
    sized 8 700 flow.explanation) &&
  counted 1 12 narrative.readingOrder && counted 0 8 narrative.limitations &&
  narrative.attackTree.valid (·.valid)

/-! Reading an answer. -/

/-- What the code uses of the schema library: the values that the text of an answer gives the
fields of a schema, if it has no others, and what a digit is. -/
structure AnswerReader where
  digit : Char → Bool
  scenarioSet : String → Option AttackScenarioSet
  remediationPlan : String → Option RemediationPlan
  narrative : String → Option RepositoryNarrative

namespace AnswerReader

/-- `AttackScenarioSet.model_validate_json` -/
def validScenarioSet (reader : AnswerReader) (content : String) : Option AttackScenarioSet :=
  (reader.scenarioSet content).filter (·.valid reader.digit)

/-- `RemediationPlan.model_validate_json` -/
def validRemediationPlan (reader : AnswerReader) (content : String) : Option RemediationPlan :=
  (reader.remediationPlan content).filter (·.valid reader.digit)

/-- `RepositoryNarrative.model_validate_json` -/
def validNarrative (reader : AnswerReader) (content : String) : Option RepositoryNarrative :=
  (reader.narrative content).filter (·.valid)

end AnswerReader

end Bantam
