import Bantam.Grounding
import Mathlib.Algebra.BigOperators.Group.List.Basic
import Mathlib.Algebra.Order.BigOperators.Group.List
import Mathlib.Algebra.Order.BigOperators.GroupWithZero.List
import Mathlib.Tactic.Linarith
import Mathlib.Tactic.Ring

/-! What remediations make of the probabilities of an attack tree, how they are selected from a
plan and what they cost. -/
namespace Bantam

/-- The probabilities that a simulation draws against at a node. -/
structure NodeParameters where
  successProbability : Rat
  detectionProbability : Rat
deriving DecidableEq, Repr

/-- What one remediation makes of the probabilities of a node that it targets. -/
def Remediation.lower (r : Remediation) (p : NodeParameters) : NodeParameters where
  successProbability := p.successProbability * (1 - r.successProbabilityReduction)
  detectionProbability :=
    1 - (1 - p.detectionProbability) * (1 - r.detectionProbabilityUplift)

def ScenarioAttackNode.parameters (node : ScenarioAttackNode) : NodeParameters :=
  ⟨node.successProbability, node.detectionProbability⟩

def ownParameters (tree : ScenarioAttackTree) : Dict String NodeParameters :=
  Dict.ofList (tree.nodes.map fun node => (node.attackNodeId, node.parameters))

/-- `_effective_parameters` -/
def effectiveParameters (tree : ScenarioAttackTree) (remediations : List Remediation) :
    Dict String NodeParameters :=
  remediations.foldl
    (fun parameters r => r.targetAttackNodeIds.foldl
      (fun parameters nodeId => parameters.modify nodeId r.lower) parameters)
    (ownParameters tree)

/-! The remediations that reach a node. -/

/-- Each as often as it lists the node. -/
def reaching (remediations : List Remediation) (nodeId : String) : List Remediation :=
  remediations.flatMap fun r => List.replicate (r.targetAttackNodeIds.count nodeId) r

def NodeParameters.lowered (p : NodeParameters) (l : List Remediation) : NodeParameters :=
  l.foldl (fun p r => r.lower p) p

theorem NodeParameters.lowered_replicate (p : NodeParameters) (n : Nat) (r : Remediation) :
    p.lowered (List.replicate n r) = r.lower^[n] p := by
  induction n generalizing p with
  | zero => rfl
  | succ n ih =>
    rw [List.replicate_succ, Function.iterate_succ_apply]
    exact ih (r.lower p)

theorem NodeParameters.lowered_append (p : NodeParameters) (l l' : List Remediation) :
    p.lowered (l ++ l') = (p.lowered l).lowered l' :=
  List.foldl_append

theorem items_effectiveParameters (tree : ScenarioAttackTree) (remediations : List Remediation) :
    (effectiveParameters tree remediations).items = (ownParameters tree).items.map fun item =>
      (item.1, item.2.lowered (reaching remediations item.1)) := by
  unfold effectiveParameters
  generalize ownParameters tree = d
  induction remediations generalizing d with
  | nil => exact (List.map_id _).symm
  | cons r rest ih =>
    rw [List.foldl_cons, ih, Dict.items_foldl_modify, List.map_map]
    refine List.map_congr_left fun item _ => ?_
    have hstep : reaching (r :: rest) item.1 =
        List.replicate (r.targetAttackNodeIds.count item.1) r ++ reaching rest item.1 :=
      List.flatMap_cons
    rw [hstep, NodeParameters.lowered_append, NodeParameters.lowered_replicate]
    rfl

theorem reaching_perm {applied other : List Remediation} (h : other.Perm applied)
    (nodeId : String) : (reaching other nodeId).Perm (reaching applied nodeId) :=
  h.flatMap_right _

theorem mem_reaching {applied : List Remediation} {nodeId : String} {r : Remediation}
    (h : r ∈ reaching applied nodeId) : r ∈ applied := by
  obtain ⟨r', hr', hmem⟩ := List.mem_flatMap.mp h
  exact List.eq_of_mem_replicate hmem ▸ hr'

theorem lower_comm (r r' : Remediation) (p : NodeParameters) :
    r'.lower (r.lower p) = r.lower (r'.lower p) := by
  unfold Remediation.lower
  congr 1
  · ring
  · ring

theorem NodeParameters.lowered_perm (p : NodeParameters) {l l' : List Remediation}
    (h : l.Perm l') : p.lowered l = p.lowered l' :=
  h.foldl_eq' (fun r _ r' _ p => lower_comm r r' p) p

/-! The two probabilities, and the way in which a remediation moves them. -/

namespace NodeParameters

/-- No likelier to be attacked with success and no less likely to be detected. -/
def Safer (q p : NodeParameters) : Prop :=
  q.successProbability ≤ p.successProbability ∧ p.detectionProbability ≤ q.detectionProbability

def Probable (p : NodeParameters) : Prop :=
  p.successProbability ∈ Set.Icc 0 1 ∧ p.detectionProbability ∈ Set.Icc 0 1

theorem Safer.refl (p : NodeParameters) : p.Safer p := ⟨le_rfl, le_rfl⟩

theorem Safer.trans {a b c : NodeParameters} (h : a.Safer b) (h' : b.Safer c) : a.Safer c :=
  ⟨h.1.trans h'.1, h'.2.trans h.2⟩

end NodeParameters

theorem between_iff {lo hi x : Rat} : between lo hi x = true ↔ lo ≤ x ∧ x ≤ hi := by
  simp [between]

/-- What the schema of a remediation asks of its numbers. -/
structure Remediation.Priced (r : Remediation) : Prop where
  cost : 0 < r.estimatedCostGbp
  runCost : 0 ≤ r.annualRunCostGbp
  reduction : 0 ≤ r.successProbabilityReduction ∧ r.successProbabilityReduction ≤ 95 / 100
  uplift : 0 ≤ r.detectionProbabilityUplift ∧ r.detectionProbabilityUplift ≤ 95 / 100
  changes : r.successProbabilityReduction ≠ 0 ∨ r.detectionProbabilityUplift ≠ 0

theorem Remediation.priced {digit : Char → Bool} {r : Remediation} (h : r.valid digit = true) :
    r.Priced := by
  simp only [Remediation.valid, Bool.and_eq_true, Bool.not_eq_true', decide_eq_true_eq,
    decide_eq_false_iff_not, between_iff, not_and_or] at h
  obtain ⟨⟨⟨⟨⟨⟨⟨⟨-, hcost⟩, hrun⟩, hreduction⟩, huplift⟩, -⟩, -⟩, hchanges⟩, -⟩ := h
  exact ⟨hcost.1, hrun.1, hreduction, huplift, hchanges⟩

theorem RemediationPlan.valid_remediation {digit : Char → Bool} {r : Remediation}
    (plan : RemediationPlan) (h : plan.valid digit = true) (hr : r ∈ plan.remediations) :
    r.valid digit = true := by
  simp only [RemediationPlan.valid, Bool.and_eq_true, List.all_eq_true] at h
  exact h.1.1.1.2 r hr

theorem ScenarioAttackNode.probable {node : ScenarioAttackNode} (h : node.valid = true) :
    node.parameters.Probable := by
  simp only [ScenarioAttackNode.valid, Bool.and_eq_true, between_iff] at h
  obtain ⟨⟨-, hsuccess⟩, hdetection⟩ := h
  refine ⟨⟨?_, ?_⟩, ⟨hdetection.1, ?_⟩⟩
  · exact le_trans (by norm_num) hsuccess.1
  · exact hsuccess.2.trans (by norm_num)
  · exact hdetection.2.trans (by norm_num)

theorem ScenarioAttackNode.open_to_attack {node : ScenarioAttackNode} (h : node.valid = true) :
    0 < node.successProbability ∧ node.detectionProbability < 1 := by
  simp only [ScenarioAttackNode.valid, Bool.and_eq_true, between_iff] at h
  obtain ⟨⟨-, hsuccess⟩, hdetection⟩ := h
  exact ⟨lt_of_lt_of_le (by norm_num) hsuccess.1, lt_of_le_of_lt hdetection.2 (by norm_num)⟩

section
variable {p : NodeParameters} {r : Remediation}

theorem Remediation.Priced.lower_probable (hr : r.Priced) (hp : p.Probable) :
    (r.lower p).Probable := by
  have hkept : 0 ≤ 1 - r.successProbabilityReduction ∧ 1 - r.successProbabilityReduction ≤ 1 :=
    ⟨by linarith [hr.reduction.2], by linarith [hr.reduction.1]⟩
  have hmissed : 0 ≤ 1 - r.detectionProbabilityUplift ∧ 1 - r.detectionProbabilityUplift ≤ 1 :=
    ⟨by linarith [hr.uplift.2], by linarith [hr.uplift.1]⟩
  have hfree : 0 ≤ 1 - p.detectionProbability ∧ 1 - p.detectionProbability ≤ 1 :=
    ⟨by linarith [hp.2.2], by linarith [hp.2.1]⟩
  refine ⟨⟨mul_nonneg hp.1.1 hkept.1, mul_le_one₀ hp.1.2 hkept.1 hkept.2⟩, ⟨?_, ?_⟩⟩
  · exact sub_nonneg.mpr (mul_le_one₀ hfree.2 hmissed.1 hmissed.2)
  · exact sub_le_self 1 (mul_nonneg hfree.1 hmissed.1)

theorem Remediation.Priced.lower_safer (hr : r.Priced) (hp : p.Probable) : (r.lower p).Safer p := by
  have hkept : 1 - r.successProbabilityReduction ≤ 1 := by linarith [hr.reduction.1]
  have hmissed : 1 - r.detectionProbabilityUplift ≤ 1 := by linarith [hr.uplift.1]
  have hfree : 0 ≤ 1 - p.detectionProbability := sub_nonneg.mpr hp.2.2
  constructor
  · exact mul_le_of_le_one_right hp.1.1 hkept
  · have := mul_le_of_le_one_right hfree hmissed
    show p.detectionProbability ≤
      1 - (1 - p.detectionProbability) * (1 - r.detectionProbabilityUplift)
    linarith

end

/-- Along a list of remediations the probabilities stay such and only move to the safe side. -/
theorem NodeParameters.lowered_safer {p : NodeParameters} {l : List Remediation}
    (hl : ∀ r ∈ l, r.Priced) (hp : p.Probable) :
    (p.lowered l).Probable ∧ (p.lowered l).Safer p := by
  induction l generalizing p with
  | nil => exact ⟨hp, Safer.refl p⟩
  | cons r l ih =>
    obtain ⟨hr, hrest⟩ := List.forall_mem_cons.mp hl
    obtain ⟨hprobable, hsafer⟩ := ih hrest (hr.lower_probable hp)
    exact ⟨hprobable, hsafer.trans (hr.lower_safer hp)⟩

/-! The parameters of a tree. -/

section
variable {tree : ScenarioAttackTree} {applied other : List Remediation} {node : ScenarioAttackNode}

theorem get?_ownParameters (hids : (tree.nodes.map (·.attackNodeId)).Nodup) (h : node ∈ tree.nodes) :
    (ownParameters tree).get? node.attackNodeId = some node.parameters := by
  have hkeys : ((tree.nodes.map fun node => (node.attackNodeId, node.parameters)).map
      Prod.fst).Nodup := by
    rw [List.map_map]
    exact hids
  rw [Dict.get?_eq_some, ownParameters, Dict.items_ofList hkeys]
  exact List.mem_map.mpr ⟨node, h, rfl⟩

theorem get?_effectiveParameters (hids : (tree.nodes.map (·.attackNodeId)).Nodup)
    (h : node ∈ tree.nodes) :
    (effectiveParameters tree applied).get? node.attackNodeId =
      some (node.parameters.lowered (reaching applied node.attackNodeId)) := by
  have hown := Dict.get?_eq_some.mp (get?_ownParameters hids h)
  rw [Dict.get?_eq_some, items_effectiveParameters]
  exact List.mem_map.mpr ⟨_, hown, rfl⟩

theorem effectiveParameters_perm (h : other.Perm applied) :
    effectiveParameters tree other = effectiveParameters tree applied := by
  apply Dict.eq_of_items
  rw [items_effectiveParameters, items_effectiveParameters]
  refine List.map_congr_left fun item _ => ?_
  rw [item.2.lowered_perm (reaching_perm h item.1)]

theorem AttackScenario.valid_node {digit : Char → Bool} {scenario : AttackScenario}
    (h : scenario.valid digit = true) (hnode : node ∈ scenario.attackTree.nodes) :
    node.valid = true := by
  simp only [AttackScenario.valid, TreeDocument.valid, Bool.and_eq_true, List.all_eq_true] at h
  exact h.1.2.1.1.1.1.2 node hnode

theorem distinct_nodeIds {order : SetOrder (String × String)}
    (h : attackTreeStructureIsValid order (ScenarioAttackTree.attackTree tree) = true) :
    (tree.nodes.map (·.attackNodeId)).Nodup := by
  have hids := ((attackTreeStructureIsValid_iff order _).mp h).1.distinctIds
  rwa [ScenarioAttackTree.attackTree, shape_nodeIds] at hids

end

/-! The selection of remediations from a stored plan, and their cost. -/

/-- A row of `attack_remediation_plans`, with the plan of its `model_result`. -/
structure RemediationPlanRow where
  scenarioSetId : Uuid
  scenarioId : String
  plan : Option RemediationPlan

def RemediationPlan.available (plan : RemediationPlan) : Dict String Remediation :=
  Dict.ofList (plan.remediations.map fun r => (r.remediationId, r))

def RemediationPlan.chosen (plan : RemediationPlan) (remediationIds : List String) : List String :=
  if remediationIds = [] then plan.available.keys else remediationIds

def RemediationPlan.unknown (plan : RemediationPlan) (remediationIds : List String) :
    List String :=
  Text.sorted ((plan.chosen remediationIds).dedup.filter fun identifier =>
    identifier ∉ plan.available.keys)

def remediationPlanNotFound : BantamError := ⟨"NOT_FOUND", "remediation plan was not found", 404⟩
def planOfOtherScenario : BantamError :=
  ⟨"INVALID_REMEDIATION_PLAN", "that remediation plan belongs to a different scenario", 422⟩
def planWithoutRemediations : BantamError :=
  ⟨"INVALID_REMEDIATION_PLAN", "that remediation plan has no validated remediations", 409⟩
def unknownRemediations (unknown : List String) : BantamError :=
  ⟨"INVALID_REMEDIATION_PLAN", "unknown remediation ids: " ++ ", ".intercalate unknown, 422⟩

/-- `available[identifier]` -/
def pick (available : Dict String Remediation) (identifier : String) : Except Failure Remediation :=
  match available.get? identifier with
  | some r => .ok r
  | none => .error (.runtime identifier)

/-- `_selected_remediations`, for the row that its query returns. -/
def selectedRemediations (row : Option RemediationPlanRow) (scenarioSetId : Uuid)
    (scenarioId : String) (remediationIds : List String) : Except Failure (List Remediation) :=
  match row with
  | none => .error (.bantam remediationPlanNotFound)
  | some row =>
    if row.scenarioSetId ≠ scenarioSetId ∨ row.scenarioId ≠ scenarioId then
      .error (.bantam planOfOtherScenario)
    else match row.plan with
    | none => .error (.bantam planWithoutRemediations)
    | some plan =>
      if plan.unknown remediationIds ≠ [] then
        .error (.bantam (unknownRemediations (plan.unknown remediationIds)))
      else (plan.chosen remediationIds).mapM (pick plan.available)

/-- `build_cost` -/
def buildCost (remediations : List Remediation) : Rat :=
  (remediations.map (·.estimatedCostGbp)).sum

/-- `run_cost` -/
def runCost (remediations : List Remediation) : Rat :=
  (remediations.map (·.annualRunCostGbp)).sum

/-- What a request makes of a scenario, and at what cost. -/
structure Programme where
  parameters : Dict String NodeParameters
  implementationCostGbp : Rat
  annualRunCostGbp : Rat

def programme (row : Option RemediationPlanRow) (scenarioSetId : Uuid) (scenario : AttackScenario)
    (remediationIds : List String) : Except Failure Programme := do
  let selected ← selectedRemediations row scenarioSetId scenario.scenarioId remediationIds
  pure ⟨effectiveParameters scenario.attackTree selected, buildCost selected, runCost selected⟩

/-! Repeated ids and targets. -/

def Remediation.withoutRepeats (r : Remediation) : Remediation :=
  { r with targetAttackNodeIds := r.targetAttackNodeIds.dedup }

def RemediationPlan.withoutRepeats (plan : RemediationPlan) : RemediationPlan :=
  { plan with remediations := plan.remediations.map (·.withoutRepeats) }

section
variable {ι K : Type*} [Field K] [LinearOrder K] [IsStrictOrderedRing K] {l : List ι} {f g : ι → K}

theorem prod_map_pos (h : ∀ i ∈ l, 0 < f i) : 0 < (l.map f).prod := by
  refine List.prod_pos fun x hx => ?_
  obtain ⟨i, hi, rfl⟩ := List.mem_map.mp hx
  exact h i hi

theorem prod_map_le (h : ∀ i ∈ l, 0 < f i ∧ f i ≤ g i) : (l.map f).prod ≤ (l.map g).prod := by
  induction l with
  | nil => exact le_rfl
  | cons i l ih =>
    obtain ⟨hi, hl⟩ := List.forall_mem_cons.mp h
    rw [List.map_cons, List.map_cons, List.prod_cons, List.prod_cons]
    exact mul_le_mul hi.2 (ih hl) (prod_map_pos fun j hj => (hl j hj).1).le (hi.1.le.trans hi.2)

/-- Products of positive factors, one list below the other, are the same only if the factors
are. -/
theorem eq_of_prod_map_eq (h : ∀ i ∈ l, 0 < f i ∧ f i ≤ g i)
    (heq : (l.map f).prod = (l.map g).prod) : ∀ i ∈ l, f i = g i := by
  induction l with
  | nil => simp
  | cons i l ih =>
    obtain ⟨hi, hl⟩ := List.forall_mem_cons.mp h
    rw [List.map_cons, List.map_cons, List.prod_cons, List.prod_cons] at heq
    have hpos : 0 < (l.map f).prod := prod_map_pos fun j hj => (hl j hj).1
    have hle : (l.map f).prod ≤ (l.map g).prod := prod_map_le hl
    have hfirst : f i = g i := by
      by_contra hne
      have hlt : f i * (l.map f).prod < g i * (l.map g).prod :=
        mul_lt_mul (lt_of_le_of_ne hi.2 hne) hle hpos (hi.1.le.trans hi.2)
      exact hlt.ne heq
    rw [hfirst] at heq
    have hrest := mul_left_cancel₀ (hi.1.trans_le hi.2).ne' heq
    exact List.forall_mem_cons.mpr ⟨hfirst, ih hl hrest⟩

theorem eq_one_of_pow_eq {x : K} (hx : 0 < x) (hle : x ≤ 1) {n : Nat} (hn : 2 ≤ n)
    (h : x ^ n = x) : x = 1 := by
  by_contra hne
  have hlt := pow_lt_pow_right_of_lt_one₀ hx (lt_of_le_of_ne hle hne) (show 1 < n from hn)
  rw [pow_one, h] at hlt
  exact lt_irrefl x hlt

end

/-- The part of a probability of success that a remediation leaves. -/
def Remediation.kept (r : Remediation) : Rat := 1 - r.successProbabilityReduction

/-- The part of the undetected attempts that a remediation leaves undetected. -/
def Remediation.missed (r : Remediation) : Rat := 1 - r.detectionProbabilityUplift

theorem NodeParameters.lowered_eq (p : NodeParameters) (l : List Remediation) :
    (p.lowered l).successProbability = p.successProbability * (l.map (·.kept)).prod ∧
    (p.lowered l).detectionProbability =
      1 - (1 - p.detectionProbability) * (l.map (·.missed)).prod := by
  induction l generalizing p with
  | nil => simp [NodeParameters.lowered]
  | cons r l ih =>
    obtain ⟨hsuccess, hdetection⟩ := ih (r.lower p)
    rw [List.map_cons, List.map_cons, List.prod_cons, List.prod_cons]
    constructor
    · refine hsuccess.trans ?_
      show p.successProbability * (1 - r.successProbabilityReduction) * _ = _
      rw [mul_assoc]
      rfl
    · refine hdetection.trans ?_
      show 1 - (1 - (1 - (1 - p.detectionProbability) * (1 - r.detectionProbabilityUplift))) * _ = _
      rw [sub_sub_cancel, mul_assoc]
      rfl

theorem prod_reaching (f : Remediation → Rat) (l : List Remediation) (nodeId : String) :
    ((reaching l nodeId).map f).prod =
      (l.map fun r => f r ^ r.targetAttackNodeIds.count nodeId).prod := by
  induction l with
  | nil => rfl
  | cons r l ih =>
    rw [List.map_cons, List.prod_cons, ← ih]
    simp [reaching]

theorem Remediation.Priced.kept_mem {r : Remediation} (h : r.Priced) : 0 < r.kept ∧ r.kept ≤ 1 :=
  ⟨by unfold Remediation.kept; linarith [h.reduction.2], sub_le_self 1 h.reduction.1⟩

theorem Remediation.Priced.missed_mem {r : Remediation} (h : r.Priced) :
    0 < r.missed ∧ r.missed ≤ 1 :=
  ⟨by unfold Remediation.missed; linarith [h.uplift.2], sub_le_self 1 h.uplift.1⟩

/-- Where repeated targets leave a product over the remediations as it is, a remediation that
repeats a target has no part in the product. -/
theorem eq_one_of_prod_reaching {f : Remediation → Rat} {l : List Remediation} {nodeId : String}
    (hf : ∀ r ∈ l, 0 < f r ∧ f r ≤ 1) (hsame : ∀ r, f r.withoutRepeats = f r)
    (h : ((reaching l nodeId).map f).prod =
      ((reaching (l.map (·.withoutRepeats)) nodeId).map f).prod)
    {r : Remediation} (hr : r ∈ l) (hcount : 2 ≤ r.targetAttackNodeIds.count nodeId) :
    f r = 1 := by
  rw [prod_reaching, prod_reaching, List.map_map] at h
  have hfactors := eq_of_prod_map_eq (fun r hr => ?_) h r hr
  · have hone : r.withoutRepeats.targetAttackNodeIds.count nodeId = 1 := by
      have hmem : nodeId ∈ r.targetAttackNodeIds :=
        List.count_pos_iff.mp (Nat.lt_of_lt_of_le Nat.zero_lt_two hcount)
      exact List.count_eq_one_of_mem (List.nodup_dedup _) (List.mem_dedup.mpr hmem)
    have hpow : f r ^ r.targetAttackNodeIds.count nodeId = f r := by
      refine hfactors.trans ?_
      show f r.withoutRepeats ^ r.withoutRepeats.targetAttackNodeIds.count nodeId = f r
      rw [hone, pow_one, hsame]
    exact eq_one_of_pow_eq (hf r hr).1 (hf r hr).2 hcount hpow
  · obtain ⟨hpos, hle⟩ := hf r hr
    refine ⟨pow_pos hpos _, ?_⟩
    show f r ^ _ ≤ f r.withoutRepeats ^ r.withoutRepeats.targetAttackNodeIds.count nodeId
    rw [hsame]
    exact pow_le_pow_of_le_one hpos.le hle
      ((List.dedup_sublist r.targetAttackNodeIds).count_le nodeId)

theorem effectiveParameters_withoutRepeats {tree : ScenarioAttackTree} {l : List Remediation}
    (hids : (tree.nodes.map (·.attackNodeId)).Nodup) (hnodes : ∀ node ∈ tree.nodes, node.valid = true)
    (hl : ∀ r ∈ l, r.Priced)
    (htargets : ∀ r ∈ l, r.targetAttackNodeIds ⊆ tree.nodes.map (·.attackNodeId)) :
    effectiveParameters tree l = effectiveParameters tree (l.map (·.withoutRepeats)) ↔
      ∀ r ∈ l, r.targetAttackNodeIds.Nodup := by
  constructor
  · intro heq r hr
    rw [List.nodup_iff_count_le_one]
    intro nodeId
    by_contra hcount
    have hcount : 2 ≤ r.targetAttackNodeIds.count nodeId := Nat.lt_of_not_le hcount
    have hlisted : nodeId ∈ r.targetAttackNodeIds :=
      List.count_pos_iff.mp (Nat.lt_of_lt_of_le Nat.zero_lt_two hcount)
    obtain ⟨node, hnode, rfl⟩ := List.mem_map.mp (htargets r hr hlisted)
    have hsame : (effectiveParameters tree l).get? node.attackNodeId =
        (effectiveParameters tree (l.map (·.withoutRepeats))).get? node.attackNodeId := by rw [heq]
    rw [get?_effectiveParameters hids hnode, get?_effectiveParameters hids hnode] at hsame
    have hsame := Option.some.inj hsame
    obtain ⟨hpos, hfree⟩ := ScenarioAttackNode.open_to_attack (hnodes node hnode)
    obtain ⟨hs, hd⟩ := node.parameters.lowered_eq (reaching l node.attackNodeId)
    obtain ⟨hs', hd'⟩ :=
      node.parameters.lowered_eq (reaching (l.map (·.withoutRepeats)) node.attackNodeId)
    rw [hsame] at hs hd
    have hkept : r.kept = 1 := by
      refine eq_one_of_prod_reaching (fun r hr => (hl r hr).kept_mem) (fun _ => rfl) ?_ hr hcount
      exact mul_left_cancel₀ hpos.ne' (hs.symm.trans hs')
    have hmissed : r.missed = 1 := by
      refine eq_one_of_prod_reaching (fun r hr => (hl r hr).missed_mem) (fun _ => rfl) ?_ hr hcount
      exact mul_left_cancel₀ (sub_pos.mpr hfree).ne' (sub_right_injective (hd.symm.trans hd'))
    cases (hl r hr).changes with
    | inl hreduction => exact hreduction (sub_eq_self.mp hkept)
    | inr huplift => exact huplift (sub_eq_self.mp hmissed)
  · intro hnodup
    have hself : l.map (·.withoutRepeats) = l := by
      refine (List.map_congr_left fun r hr => ?_).trans (List.map_id l)
      show { r with targetAttackNodeIds := r.targetAttackNodeIds.dedup } = r
      rw [List.dedup_eq_self.mpr (hnodup r hr)]
    rw [hself]

section
variable {plan : RemediationPlan}

theorem available_withoutRepeats (plan : RemediationPlan) : plan.withoutRepeats.available.items =
    plan.available.items.map (Prod.map id (·.withoutRepeats)) := by
  have hitems : (plan.withoutRepeats.remediations.map fun r => (r.remediationId, r)) =
      (plan.remediations.map fun r => (r.remediationId, r)).map
        (Prod.map id (·.withoutRepeats)) := by
    simp only [RemediationPlan.withoutRepeats, List.map_map]
    rfl
  rw [RemediationPlan.available, hitems]
  exact Dict.foldl_set_map Remediation.withoutRepeats rfl

theorem keys_withoutRepeats (plan : RemediationPlan) :
    plan.withoutRepeats.available.keys = plan.available.keys := by
  unfold Dict.keys
  rw [available_withoutRepeats, List.map_map]
  rfl

theorem pick_withoutRepeats (plan : RemediationPlan) (identifier : String) :
    pick plan.withoutRepeats.available identifier =
      (pick plan.available identifier).map (·.withoutRepeats) := by
  have hget : plan.withoutRepeats.available.get? identifier =
      (plan.available.get? identifier).map (·.withoutRepeats) := by
    unfold Dict.get?
    rw [available_withoutRepeats, List.find?_map, Option.map_map, Option.map_map]
    rfl
  unfold pick
  rw [hget]
  cases plan.available.get? identifier with
  | none => rfl
  | some r => rfl

theorem mapM_withoutRepeats (plan : RemediationPlan) (l : List String) :
    l.mapM (pick plan.withoutRepeats.available) =
      (l.mapM (pick plan.available)).map (List.map (·.withoutRepeats)) :=
  Fallible.mapM_map fun identifier => pick_withoutRepeats plan identifier

theorem mem_keys_available {identifier : String} : identifier ∈ plan.available.keys ↔
    identifier ∈ plan.remediations.map (·.remediationId) := by
  rw [RemediationPlan.available, Dict.mem_keys_ofList, List.map_map]
  rfl

namespace RemediationPlan
variable (plan : RemediationPlan) {remediationIds : List String}

theorem nodup_chosen : (plan.chosen remediationIds).Nodup ↔ remediationIds.Nodup := by
  unfold chosen
  split_ifs with hnone
  · rw [hnone]
    exact iff_of_true plan.available.distinct List.nodup_nil
  · rfl

theorem chosen_known_iff :
    (¬∀ identifier ∈ plan.chosen remediationIds, identifier ∈ plan.available.keys) ↔
      ∃ identifier ∈ remediationIds, identifier ∉ plan.remediations.map (·.remediationId) := by
  unfold chosen
  split_ifs with hnone
  · subst hnone
    simp
  · simp only [mem_keys_available, not_forall, exists_prop]

theorem unknown_eq_nil : plan.unknown remediationIds = [] ↔
    ∀ identifier ∈ plan.chosen remediationIds, identifier ∈ plan.available.keys := by
  unfold unknown Text.sorted
  rw [← List.length_eq_zero_iff, List.length_mergeSort, List.length_eq_zero_iff,
    List.filter_eq_nil_iff]
  simp only [List.mem_dedup, decide_eq_true_eq, not_not]

/-- The ids of a row of distinct remediations tell which of them are selected. -/
theorem mem_selected {selected : List Remediation} {r : Remediation}
    (hdistinct : (plan.remediations.map (·.remediationId)).Nodup)
    (hids : selected.map (·.remediationId) = plan.chosen remediationIds)
    (hmem : ∀ r ∈ selected, r ∈ plan.remediations) :
    r ∈ selected ↔ r ∈ plan.remediations ∧
      (remediationIds = [] ∨ r.remediationId ∈ remediationIds) := by
  have hchosen : r ∈ plan.remediations → (r.remediationId ∈ plan.chosen remediationIds ↔
      remediationIds = [] ∨ r.remediationId ∈ remediationIds) := by
    intro hr
    unfold chosen
    split_ifs with hnone
    · exact iff_of_true (mem_keys_available.mpr (List.mem_map_of_mem hr)) (.inl hnone)
    · exact (or_iff_right hnone).symm
  constructor
  · intro hr
    refine ⟨hmem r hr, (hchosen (hmem r hr)).mp ?_⟩
    rw [← hids]
    exact List.mem_map_of_mem hr
  · rintro ⟨hr, hnamed⟩
    have hlisted := (hchosen hr).mpr hnamed
    rw [← hids] at hlisted
    obtain ⟨r', hr', hkey⟩ := List.mem_map.mp hlisted
    exact List.inj_on_of_nodup_map hdistinct (hmem r' hr') hr hkey ▸ hr'

theorem cost_pos (hpriced : ∀ r ∈ plan.remediations, r.Priced) {identifier : String}
    (h : identifier ∈ plan.available.keys) :
    0 < ((plan.available.get? identifier).map (·.estimatedCostGbp)).getD 0 := by
  obtain ⟨⟨_, r⟩, hitem, rfl⟩ := List.mem_map.mp h
  rw [Dict.get?_eq_some.mpr hitem]
  obtain ⟨_, hr, hkey⟩ := List.mem_map.mp (Dict.mem_ofList hitem)
  cases hkey
  exact (hpriced r hr).cost

end RemediationPlan

theorem chosen_withoutRepeats (plan : RemediationPlan) (remediationIds : List String) :
    plan.withoutRepeats.chosen remediationIds.dedup = (plan.chosen remediationIds).dedup := by
  unfold RemediationPlan.chosen
  rw [keys_withoutRepeats]
  by_cases hnone : remediationIds = []
  · rw [if_pos hnone, if_pos (List.dedup_eq_nil _ |>.mpr hnone)]
    exact (List.dedup_eq_self.mpr plan.available.distinct).symm
  · rw [if_neg hnone, if_neg fun h => hnone ((List.dedup_eq_nil _).mp h)]

theorem unknown_withoutRepeats (plan : RemediationPlan) (remediationIds : List String) :
    plan.withoutRepeats.unknown remediationIds.dedup = plan.unknown remediationIds := by
  unfold RemediationPlan.unknown
  rw [chosen_withoutRepeats, keys_withoutRepeats, List.dedup_idem]

/-- What is selected under ids that the plan has. -/
theorem exists_selected {l : List String} (h : ∀ identifier ∈ l, identifier ∈ plan.available.keys) :
    ∃ selected, l.mapM (pick plan.available) = .ok selected ∧
      selected.map (·.remediationId) = l ∧ ∀ r ∈ selected, r ∈ plan.remediations := by
  induction l with
  | nil => exact ⟨[], rfl, rfl, by simp⟩
  | cons identifier l ih =>
    obtain ⟨hfirst, hrest⟩ := List.forall_mem_cons.mp h
    obtain ⟨selected, hselected, hids, hmem⟩ := ih hrest
    obtain ⟨⟨k, r⟩, hitem, rfl⟩ := List.mem_map.mp hfirst
    have hget := Dict.get?_eq_some.mpr hitem
    have hpick : pick plan.available k = .ok r := by
      unfold pick
      rw [hget]
    obtain ⟨_, hr, hkey⟩ := List.mem_map.mp (Dict.mem_ofList hitem)
    cases hkey
    refine ⟨r :: selected, ?_, by rw [List.map_cons, hids], List.forall_mem_cons.mpr ⟨hr, hmem⟩⟩
    rw [List.mapM_cons, hpick, hselected]
    rfl

/-- The cost of what is selected is that of its ids. -/
theorem sum_selected {l : List String} {selected : List Remediation} (f : Remediation → Rat)
    (h : l.mapM (pick plan.available) = .ok selected) :
    (selected.map f).sum =
      (l.map fun identifier => ((plan.available.get? identifier).map f).getD 0).sum := by
  induction l generalizing selected with
  | nil =>
    cases h
    rfl
  | cons identifier l ih =>
    obtain ⟨r, rest, hpick, hrest, rfl⟩ := Fallible.mapM_cons_ok h
    have hget : plan.available.get? identifier = some r := by
      unfold pick at hpick
      cases hfound : plan.available.get? identifier with
      | none => rw [hfound] at hpick; cases hpick
      | some r' => rw [hfound] at hpick; cases hpick; rfl
    rw [List.map_cons, List.map_cons, List.sum_cons, List.sum_cons, ih hrest, hget]
    rfl

end

/-- Without its repeated members a list of positive amounts has a smaller sum. -/
theorem sum_dedup_lt {α : Type*} [DecidableEq α] {l : List α} {f : α → Rat} (hf : ∀ a ∈ l, 0 < f a)
    (h : ¬l.Nodup) : (l.dedup.map f).sum < (l.map f).sum := by
  obtain ⟨rest, hperm⟩ := (List.dedup_sublist l).exists_perm_append
  have hrest : rest ≠ [] := by
    rintro rfl
    rw [List.append_nil] at hperm
    exact h (hperm.nodup_iff.mpr (List.nodup_dedup l))
  have hpos : 0 < (rest.map f).sum := by
    refine List.sum_pos _ (fun x hx => ?_) (by simpa using hrest)
    obtain ⟨a, ha, rfl⟩ := List.mem_map.mp hx
    exact hf a (hperm.mem_iff.mpr (List.mem_append_right _ ha))
  have hsum := (hperm.map f).sum_eq
  rw [List.map_append, List.sum_append] at hsum
  linarith

theorem selectedRemediations_own (plan : RemediationPlan) (scenarioSetId : Uuid)
    (scenarioId : String) (remediationIds : List String) :
    selectedRemediations (some ⟨scenarioSetId, scenarioId, some plan⟩) scenarioSetId scenarioId
        remediationIds =
      if plan.unknown remediationIds ≠ [] then
        .error (.bantam (unknownRemediations (plan.unknown remediationIds)))
      else (plan.chosen remediationIds).mapM (pick plan.available) := by
  simp [selectedRemediations]

/-! A scenario of two actions and a plan of two remediations for it. -/

def sampleAttackNode (attackNodeId : String) (kind : AttackNodeKind) (operator : AttackOperator) :
    ScenarioAttackNode where
  attackNodeId := attackNodeId
  title := "Take over an account"
  description := "An attacker takes over an account."
  kind := kind
  operator := operator
  graphNodeIds := ["route:POST:/v1/transfers"]
  flowIds := []
  mitreTechniqueIds := []
  successProbability := 1 / 2
  detectionProbability := 0

def sampleScenario : AttackScenario where
  scenarioId := "scenario:payments"
  name := "Payments"
  businessService := "Payments"
  narrative := "An attacker moves money out of an account."
  mitreTechniques := [⟨"T1078", "Valid Accounts", "Initial Access"⟩]
  attackTree :=
    { title := "Move money out"
      rootAttackNodeId := "attack:goal"
      nodes := [sampleAttackNode "attack:goal" .goal .or,
        sampleAttackNode "attack:first" .action .leaf,
        sampleAttackNode "attack:second" .action .leaf]
      edges := [⟨"attack:goal", "attack:first"⟩, ⟨"attack:goal", "attack:second"⟩]
      assumptions := []
      limitations := [] }
  financials :=
    { annualAttemptFrequency := 1
      primaryLoss := ⟨100, 100, 100⟩
      secondaryLoss := ⟨0, 0, 0⟩
      detectedLossMultiplier := 1 / 2
      rationale := "A loss of the same size each time."
      financialInputsUsed := ["income.annual_revenue_gbp"] }

def sampleRemediation (remediationId : String) (targets : List String) : Remediation where
  remediationId := remediationId
  title := "Step up"
  description := "Ask for a second factor before a transfer."
  mitreMitigationIds := []
  targetAttackNodeIds := targets
  graphNodeIds := []
  softwareComponentIds := []
  implementationEffort := .weeks
  priority := .high
  estimatedCostGbp := 1000
  annualRunCostGbp := 10
  successProbabilityReduction := 1 / 2
  detectionProbabilityUplift := 0
  residualRiskNote := "The first factor may be stolen."
  evidenceRationale := "The first action succeeds most often."

def stepUpPlan (targets : List String) : RemediationPlan where
  schemaVersion := "1.0"
  summary := "Step up before a transfer."
  remediations := [sampleRemediation "fix:step-up" targets,
    sampleRemediation "fix:velocity" ["attack:second"]]
  monitoring := []
  assumptions := []
  limitations := []

def sampleOrder : SetOrder (String × String) := ⟨List.dedup, fun _ => List.Perm.refl _⟩

def sampleInventory : Inventory := ⟨"", [], .null⟩

theorem sampleScenario_valid : sampleScenario.valid Char.isDigit = true := by decide +kernel

theorem sampleScenario_tree :
    attackTreeStructureIsValid sampleOrder sampleScenario.attackTree.attackTree = true := by
  decide +kernel

theorem stepUpPlan_valid :
    (stepUpPlan ["attack:first"]).valid Char.isDigit = true ∧
    (stepUpPlan ["attack:first", "attack:first"]).valid Char.isDigit = true := by
  decide +kernel

theorem stepUpPlan_checked :
    remediationReferenceError sampleScenario sampleInventory [] []
      (stepUpPlan ["attack:first"]).remediations = none ∧
    remediationReferenceError sampleScenario sampleInventory [] []
      (stepUpPlan ["attack:first", "attack:first"]).remediations = none := by
  decide +kernel

/-- Admitted remediations lower the success probability of a node and raise its detection
probability, within the bounds of a probability, in any order and the more of them the more. -/
theorem remediations_compose (digit : Char → Bool) (order : SetOrder (String × String))
    (scenario : AttackScenario) (hvalid : scenario.valid digit = true)
    (htree : attackTreeStructureIsValid order scenario.attackTree.attackTree = true)
    (applied : List Remediation) (happlied : ∀ r ∈ applied, r.valid digit = true) :
    (∀ node ∈ scenario.attackTree.nodes, ∃ p,
      (effectiveParameters scenario.attackTree applied).get? node.attackNodeId = some p ∧
      p.successProbability ≤ node.successProbability ∧
      node.detectionProbability ≤ p.detectionProbability ∧
      p.successProbability ∈ Set.Icc 0 1 ∧ p.detectionProbability ∈ Set.Icc 0 1) ∧
    (∀ other : List Remediation, other.Perm applied →
      effectiveParameters scenario.attackTree other =
        effectiveParameters scenario.attackTree applied) ∧
    ∀ extra : Remediation, extra.valid digit = true → ∀ node ∈ scenario.attackTree.nodes,
      ∃ p q, (effectiveParameters scenario.attackTree applied).get? node.attackNodeId = some p ∧
        (effectiveParameters scenario.attackTree (applied ++ [extra])).get? node.attackNodeId =
          some q ∧
        q.successProbability ≤ p.successProbability ∧
        p.detectionProbability ≤ q.detectionProbability := by
  have hids := distinct_nodeIds htree
  have hpriced : ∀ (l : List Remediation), (∀ r ∈ l, r.valid digit = true) → ∀ nodeId,
      ∀ r ∈ reaching l nodeId, r.Priced :=
    fun l hl nodeId r hr => Remediation.priced (hl r (mem_reaching hr))
  have hprobable : ∀ node ∈ scenario.attackTree.nodes, node.parameters.Probable :=
    fun node hnode => ScenarioAttackNode.probable (AttackScenario.valid_node hvalid hnode)
  refine ⟨fun node hnode => ?_, fun other h => effectiveParameters_perm h,
    fun extra hextra node hnode => ?_⟩
  · obtain ⟨hbounds, hsafer⟩ :=
      NodeParameters.lowered_safer (hpriced applied happlied node.attackNodeId)
        (hprobable node hnode)
    exact ⟨_, get?_effectiveParameters hids hnode, hsafer.1, hsafer.2, hbounds.1, hbounds.2⟩
  · have hlast : reaching (applied ++ [extra]) node.attackNodeId =
        reaching applied node.attackNodeId ++ reaching [extra] node.attackNodeId :=
      List.flatMap_append
    obtain ⟨hbounds, _⟩ :=
      NodeParameters.lowered_safer (hpriced applied happlied node.attackNodeId)
        (hprobable node hnode)
    have hone : ∀ r ∈ [extra], r.valid digit = true := by simpa using hextra
    obtain ⟨_, hsafer⟩ :=
      NodeParameters.lowered_safer (hpriced [extra] hone node.attackNodeId) hbounds
    refine ⟨_, _, get?_effectiveParameters hids hnode, get?_effectiveParameters hids hnode, ?_⟩
    rw [hlast, NodeParameters.lowered_append]
    exact hsafer

theorem sample_remediations_compose :
    ∃ p, (effectiveParameters sampleScenario.attackTree
        (stepUpPlan ["attack:first"]).remediations).get? "attack:first" = some p ∧
      p.successProbability ≤ 1 / 2 := by
  have hplan : ∀ r ∈ (stepUpPlan ["attack:first"]).remediations, r.valid Char.isDigit = true :=
    fun r hr => RemediationPlan.valid_remediation _ stepUpPlan_valid.1 hr
  have hcompose := remediations_compose Char.isDigit sampleOrder sampleScenario
    sampleScenario_valid sampleScenario_tree (stepUpPlan ["attack:first"]).remediations hplan
  obtain ⟨p, hp, hsuccess, _⟩ :=
    hcompose.1 (sampleAttackNode "attack:first" .action .leaf)
      (List.mem_cons_of_mem _ List.mem_cons_self)
  exact ⟨p, hp, hsuccess⟩

/-- A request that repeats no id of a remediation and selects no remediation that repeats a target
has the effect and the cost of its sets, or the plan lacks one of its ids; any other request
does not. -/
theorem selection_is_set_iff (digit : Char → Bool) (order : SetOrder (String × String))
    (scenario : AttackScenario) (hvalid : scenario.valid digit = true)
    (htree : attackTreeStructureIsValid order scenario.attackTree.attackTree = true)
    (inventory : Inventory) (evidence : List GraphNode) (plan : RemediationPlan)
    (hplan : plan.valid digit = true)
    (hchecked : remediationReferenceError scenario inventory evidence [] plan.remediations = none)
    (scenarioSetId : Uuid) (remediationIds : List String) :
    programme (some ⟨scenarioSetId, scenario.scenarioId, some plan⟩) scenarioSetId scenario
        remediationIds =
      programme (some ⟨scenarioSetId, scenario.scenarioId, some plan.withoutRepeats⟩)
        scenarioSetId scenario remediationIds.dedup ↔
    (∃ identifier ∈ remediationIds, identifier ∉ plan.remediations.map (·.remediationId)) ∨
    (remediationIds.Nodup ∧ ∀ r ∈ plan.remediations,
      remediationIds = [] ∨ r.remediationId ∈ remediationIds → r.targetAttackNodeIds.Nodup) := by
  obtain ⟨hdistinct, -, hreferences⟩ := remediationReferenceError_none hchecked
  have hpriced : ∀ r ∈ plan.remediations, r.Priced := fun r hr =>
    Remediation.priced (plan.valid_remediation hplan hr)
  unfold programme
  rw [selectedRemediations_own, selectedRemediations_own, unknown_withoutRepeats,
    chosen_withoutRepeats]
  by_cases hall : ∀ identifier ∈ plan.chosen remediationIds, identifier ∈ plan.available.keys
  · have hknown : ¬∃ identifier ∈ remediationIds,
        identifier ∉ plan.remediations.map (·.remediationId) := by
      rw [← plan.chosen_known_iff]
      exact not_not_intro hall
    rw [plan.unknown_eq_nil.mpr hall, if_neg (by simp), if_neg (by simp), or_iff_right hknown,
      ← plan.nodup_chosen]
    obtain ⟨selected, hselected, hselectedIds, hmem⟩ := exists_selected hall
    obtain ⟨once, honce, -, -⟩ := exists_selected (l := (plan.chosen remediationIds).dedup)
      fun identifier h => hall identifier (List.mem_dedup.mp h)
    rw [hselected, mapM_withoutRepeats, honce]
    by_cases hnodup : (plan.chosen remediationIds).Nodup
    · rw [List.dedup_eq_self.mpr hnodup, hselected] at honce
      cases honce
      have heffect := effectiveParameters_withoutRepeats (distinct_nodeIds htree)
        (fun node hnode => AttackScenario.valid_node hvalid hnode)
        (fun r hr => hpriced r (hmem r hr)) fun r hr => (hreferences r (hmem r hr)).targets
      have hcosts : buildCost (selected.map (·.withoutRepeats)) = buildCost selected ∧
          runCost (selected.map (·.withoutRepeats)) = runCost selected := by
        unfold buildCost runCost
        rw [List.map_map, List.map_map]
        exact ⟨rfl, rfl⟩
      have hsame : ∀ r, r ∈ selected ↔ r ∈ plan.remediations ∧
          (remediationIds = [] ∨ r.remediationId ∈ remediationIds) :=
        fun r => plan.mem_selected hdistinct hselectedIds hmem
      simp only [Except.map, Except.ok.injEq, bind, Except.bind, pure, Except.pure,
        Programme.mk.injEq, hcosts, and_true, hnodup, true_and]
      rw [heffect]
      exact ⟨fun h r hr hchosen => h r ((hsame r).mpr ⟨hr, hchosen⟩),
        fun h r hr => h r ((hsame r).mp hr).1 ((hsame r).mp hr).2⟩
    · refine iff_of_false (fun heq => ?_) fun h => hnodup h.1
      have hcost : buildCost selected = buildCost (once.map (·.withoutRepeats)) := by
        have hprogramme := Except.ok.inj heq
        exact congrArg Programme.implementationCostGbp hprogramme
      have hlt := sum_dedup_lt (fun identifier h => plan.cost_pos hpriced (hall identifier h)) hnodup
      rw [← sum_selected _ honce, ← sum_selected _ hselected] at hlt
      unfold buildCost at hcost
      rw [List.map_map] at hcost
      exact hlt.ne' hcost
  · have hunknown : plan.unknown remediationIds ≠ [] := fun h => hall (plan.unknown_eq_nil.mp h)
    rw [if_pos hunknown, if_pos hunknown]
    exact iff_of_true rfl (.inl (plan.chosen_known_iff.mp hall))

def stepUpRow (targets : List String) : Option RemediationPlanRow :=
  some ⟨0, "scenario:payments", some (stepUpPlan targets)⟩

theorem sample_selection_is_set_iff :
    programme (stepUpRow ["attack:first"]) 0 sampleScenario ["fix:velocity", "fix:step-up"] =
      programme (some ⟨0, "scenario:payments", some (stepUpPlan ["attack:first"]).withoutRepeats⟩) 0
        sampleScenario (["fix:velocity", "fix:step-up"] : List String).dedup :=
  (selection_is_set_iff Char.isDigit sampleOrder sampleScenario sampleScenario_valid
    sampleScenario_tree sampleInventory [] (stepUpPlan ["attack:first"]) stepUpPlan_valid.1
    stepUpPlan_checked.1 0 ["fix:velocity", "fix:step-up"]).mpr (.inr ⟨by decide, by decide⟩)

/-- The success probability of the first action and the cost of the programme. -/
def Programme.summary (p : Programme) : Option Rat × Rat :=
  ((p.parameters.get? "attack:first").map (·.successProbability), p.implementationCostGbp)

/-- An id that a request repeats is applied twice and paid for twice, and a repeated target is
lowered twice. -/
theorem repeats_apply_twice :
    programme (stepUpRow ["attack:first"]) 0 sampleScenario ["fix:step-up", "fix:step-up"] ≠
      programme (some ⟨0, "scenario:payments", some (stepUpPlan ["attack:first"]).withoutRepeats⟩) 0
        sampleScenario (["fix:step-up", "fix:step-up"] : List String).dedup ∧
    programme (stepUpRow ["attack:first", "attack:first"]) 0 sampleScenario ["fix:step-up"] ≠
      programme (some ⟨0, "scenario:payments",
          some (stepUpPlan ["attack:first", "attack:first"]).withoutRepeats⟩) 0
        sampleScenario (["fix:step-up"] : List String).dedup := by
  constructor
  · intro h
    have htwice := congrArg (Except.map Programme.summary) h
    revert htwice
    decide +kernel
  · intro h
    have htwice := congrArg (Except.map Programme.summary) h
    revert htwice
    decide +kernel

end Bantam
