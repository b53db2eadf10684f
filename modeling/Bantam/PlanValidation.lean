import Bantam.TestPlans

/-! The validation of a proposed plan: the Rego module it comes with and what it cites. -/
namespace Bantam

/-- What the functions on plans raise. -/
inductive PlanError where
  | validation (message : String)
  | sourceContext (message : String)
  | key (key : String)
  | invalidSource
deriving DecidableEq, Repr

/-! The Rego module. -/

/-- `_rego_rule_name` -/
def regoRuleName (controlId : String) : List Char :=
  controlId.toList.map (fun c => if c = '-' then '_' else c.toLower) ++ "_pass".toList

/-- The control of each test with its scenario, as `SCENARIOS[test.scenario_id]` finds it. -/
def reviewed (tests : List GeneratedTest) : Except PlanError (List (String × ScenarioDefinition)) :=
  tests.mapM fun test =>
    match scenario? test.scenarioId with
    | none => .error (.key test.scenarioId)
    | some scenario => .ok (test.controlId, scenario)

def regoRule (controlId : String) (scenario : ScenarioDefinition) : List (List Char) :=
  [[],
    regoRuleName controlId ++ " if \x7b".toList,
    "    input.results[\"".toList ++ scenario.scenarioId.toList ++ "\"].status == ".toList ++
      (toString scenario.expectedStatus).toList,
    "    input.results[\"".toList ++ scenario.scenarioId.toList ++ "\"].error_code == \"".toList ++
      scenario.expectedErrorCode.toList ++ ['"'],
    ['\x7d']]

def regoLines (rules : List (String × ScenarioDefinition)) : List (List Char) :=
  ["package ".toList ++ regoPackage.toList, [], "import rego.v1".toList] ++
    rules.flatMap fun rule => regoRule rule.1 rule.2

def regoModule (rules : List (String × ScenarioDefinition)) : String :=
  String.ofList (Text.joinLines (regoLines rules) ++ ['\n'])

/-- `_canonical_rego_module`, which is `compile_rego` of a plan with these tests. -/
def canonicalRegoModule (tests : List GeneratedTest) : Except PlanError String :=
  (reviewed tests).map regoModule

/-- What follows the given start of a line. -/
def after (start line : List Char) : Option (List Char) :=
  if start.isPrefixOf line then some (line.drop start.length) else none

/-- A full match of `[a-z][a-z0-9_]*`. -/
def isRuleName (s : List Char) : Bool :=
  match s with
  | [] => false
  | c :: rest => c.isLower && rest.all fun c => c.isLower || c.isDigit || c = '_'

/-- A full match of `_REGO_RULE_HEAD`, with its group. -/
def ruleHead? (line : List Char) : Option (List Char) :=
  let name := line.takeWhile (· ≠ ' ')
  if isRuleName name ∧ line.drop name.length = " if \x7b".toList then some name else none

/-- `[a-z0-9-]+` -/
def isScenarioId (s : List Char) : Bool :=
  !s.isEmpty && s.all fun c => c.isLower || c.isDigit || c = '-'

/-- The scenario of a term and what follows it. -/
def termScenario? (line : List Char) : Option (List Char × List Char) :=
  (after "input.results[\"".toList line).bind fun rest =>
    let name := rest.takeWhile (· ≠ '"')
    if isScenarioId name then some (name, rest.drop name.length) else none

/-- A full match of `_REGO_STATUS_TERM`, with its groups. -/
def statusTerm? (line : List Char) : Option (List Char × Nat) :=
  (termScenario? line).bind fun (name, rest) =>
    (after "\"].status == ".toList rest).bind fun digits =>
      match digits with
      | [a, b, c] =>
        if '1' ≤ a ∧ a ≤ '5' ∧ b.isDigit ∧ c.isDigit then
          some (name, 100 * (a.toNat - 0x30) + 10 * (b.toNat - 0x30) + (c.toNat - 0x30))
        else none
      | _ => none

/-- `[A-Z][A-Z0-9_]*` -/
def isErrorCode (s : List Char) : Bool :=
  match s with
  | [] => false
  | c :: rest => c.isUpper && rest.all fun c => c.isUpper || c.isDigit || c = '_'

/-- A full match of `_REGO_ERROR_TERM`, with its groups. -/
def errorTerm? (line : List Char) : Option (List Char × List Char) :=
  (termScenario? line).bind fun (name, rest) =>
    (after "\"].error_code == \"".toList rest).bind fun tail =>
      let code := tail.takeWhile (· ≠ '"')
      if isErrorCode code ∧ tail.drop code.length = ['"'] then some (name, code) else none

/-- The scenario, the status and the error code of a rule. -/
abbrev RegoOutcome := List Char × Nat × List Char

/-- The loop over the policy lines, four at a time; their number is a multiple of four. -/
def observeRules : Dict (List Char) RegoOutcome → List (List Char) →
    Except PlanError (Dict (List Char) RegoOutcome)
  | observed, head :: statusLine :: errorLine :: close :: rest =>
    match ruleHead? head, statusTerm? statusLine, errorTerm? errorLine with
    | some name, some (scenarioId, status), some (errorScenarioId, errorCode) =>
      if close ≠ ['\x7d'] ∨ scenarioId ≠ errorScenarioId then
        .error (.validation "model output Rego contained unsupported policy syntax")
      else if observed.contains name then
        .error (.validation "model output Rego contained duplicate rules")
      else observeRules (observed.set name (scenarioId, status, errorCode)) rest
    | _, _, _ => .error (.validation "model output Rego contained unsupported policy syntax")
  | observed, _ => .ok observed

/-- The rules that the tests call for. -/
def expectedRules (rules : List (String × ScenarioDefinition)) : Dict (List Char) RegoOutcome :=
  Dict.ofList (rules.map fun rule => (regoRuleName rule.1,
    rule.2.scenarioId.toList, rule.2.expectedStatus, rule.2.expectedErrorCode.toList))

/-- The lines of a module that are not blank, stripped. -/
def moduleLines (module : List Char) : List (List Char) :=
  ((Text.splitLines module).map Text.stripChars).filter (!·.isEmpty)

/-- `_validate_rego_module` on those lines, once the scenarios of the tests have been found. -/
def checkRegoLines (lines : List (List Char)) (rules : List (String × ScenarioDefinition)) :
    Except PlanError String :=
  if lines.take 2 ≠ ["package ".toList ++ regoPackage.toList, "import rego.v1".toList] then
    .error (.validation "model output Rego used an unsupported package or import")
  else if (lines.drop 2).length ≠ rules.length * 4 then
    .error (.validation "model output Rego contained unsupported policy statements")
  else
    match observeRules .empty (lines.drop 2) with
    | .error error => .error error
    | .ok observed =>
      if !observed.same (expectedRules rules) then
        .error (.validation "model output Rego changed a reviewed scenario or expected outcome")
      else .ok (regoModule rules)

/-- `_validate_rego_module` -/
def validateRegoModule (module : String) (tests : List GeneratedTest) : Except PlanError String :=
  (reviewed tests).bind (checkRegoLines (moduleLines module.toList))

/-! The plan. -/

/-- `_context_paths` -/
def contextPaths (sourceContext : Json) (repository : String) : Except PlanError (List String) :=
  match sourceContext.get? "files" with
  | some (.arr items) => .ok (items.filterMap fun item =>
      match item.get? "repository", item.get? "path" with
      | some (.str name), some (.str path) => if name = repository then some path else none
      | _, _ => none)
  | _ => .error (.sourceContext "source context is missing its file manifest")

/-- The loop over the tests, which tells whether one of them cites Terraform. -/
def checkTests (applicationPaths terraformPaths : List String) :
    Bool → List GeneratedTest → Except PlanError Bool
  | cited, [] => .ok cited
  | cited, test :: rest =>
    if (scenario? test.scenarioId).map (·.controlId) ≠ some test.controlId then
      .error (.validation "model output selected a scenario outside its control")
    else if ¬test.sourceRefs ⊆ applicationPaths then
      .error (.validation "model output cited application source outside the captured snapshot")
    else if ¬test.terraformRefs ⊆ terraformPaths then
      .error (.validation "model output cited Terraform outside the captured snapshot")
    else checkTests applicationPaths terraformPaths (cited || !test.terraformRefs.isEmpty) rest

/-- The order of the controls in the catalogue. -/
def controlIndex (controlId : String) : Nat := controls.idxOf controlId

/-- `sorted(plan.tests, key=lambda item: order[item.control_id])` -/
def orderedTests (tests : List GeneratedTest) : List GeneratedTest :=
  tests.mergeSort fun a b => controlIndex a.controlId ≤ controlIndex b.controlId

/-- `validate_generated_plan` after the schema. -/
def checkPlan (plan : GeneratedPlan) (sourceContext : Json) : Except PlanError GeneratedPlan :=
  let observedControls := plan.tests.map (·.controlId)
  let observedScenarios := plan.tests.map (·.scenarioId)
  if plan.schemaVersion ≠ "1.0" ∨ plan.catalogVersion ≠ catalogVersion then
    .error (.validation "model output referenced an unsupported schema or catalog")
  else if plan.tests.length ≠ controls.length then
    .error (.validation "model output must cover every reviewed control exactly once")
  else if ¬(observedControls ⊆ controls ∧ controls ⊆ observedControls) ∨
      observedControls.dedup.length ≠ plan.tests.length then
    .error (.validation "model output contained missing or duplicate controls")
  else if observedScenarios.dedup.length ≠ plan.tests.length then
    .error (.validation "model output contained duplicate scenarios")
  else do
    let applicationPaths ← contextPaths sourceContext "application"
    let terraformPaths ← contextPaths sourceContext "terraform"
    let cited ← checkTests applicationPaths terraformPaths false plan.tests
    if !terraformPaths.isEmpty && !cited then
      .error (.validation "model output did not cite the supplied Terraform context")
    else do
      let module ← validateRegoModule plan.regoModule (orderedTests plan.tests)
      pure { plan with tests := orderedTests plan.tests, regoModule := module }

/-- `validate_generated_plan`. The schema library parses the text. -/
def validateGeneratedPlan (parse : String → Option Json) (raw : String) (sourceContext : Json) :
    Except PlanError GeneratedPlan :=
  match (parse raw).bind GeneratedPlan.decode with
  | none => .error (.validation "model output did not match the test-plan schema")
  | some plan => checkPlan plan sourceContext

/-! What the loop over the tests establishes. -/

structure TestAccepted (applicationPaths terraformPaths : List String) (t : GeneratedTest) :
    Prop where
  scenario : (scenario? t.scenarioId).map (·.controlId) = some t.controlId
  sources : t.sourceRefs ⊆ applicationPaths
  terraform : t.terraformRefs ⊆ terraformPaths

theorem checkTests_ok {applicationPaths terraformPaths : List String} {cited b : Bool}
    {tests : List GeneratedTest} :
    checkTests applicationPaths terraformPaths cited tests = .ok b ↔
      (∀ t ∈ tests, TestAccepted applicationPaths terraformPaths t) ∧
      b = (cited || tests.any fun t => !t.terraformRefs.isEmpty) := by
  induction tests generalizing cited with
  | nil =>
    simp [checkTests, eq_comm]
  | cons t rest ih =>
    rw [checkTests, List.forall_mem_cons]
    by_cases hscenario : (scenario? t.scenarioId).map (·.controlId) = some t.controlId
    · rw [if_neg (not_not.mpr hscenario)]
      by_cases hsources : t.sourceRefs ⊆ applicationPaths
      · rw [if_neg (not_not.mpr hsources)]
        by_cases hterraform : t.terraformRefs ⊆ terraformPaths
        · rw [if_neg (not_not.mpr hterraform), ih, List.any_cons, Bool.or_assoc]
          exact and_congr_left fun _ => ⟨fun h => ⟨⟨hscenario, hsources, hterraform⟩, h⟩, And.right⟩
        · rw [if_pos hterraform]
          exact ⟨(fun h => nomatch h), fun h => absurd h.1.1.terraform hterraform⟩
      · rw [if_pos hsources]
        exact ⟨(fun h => nomatch h), fun h => absurd h.1.1.sources hsources⟩
    · rw [if_pos hscenario]
      exact ⟨(fun h => nomatch h), fun h => absurd h.1.1.scenario hscenario⟩

/-- What a plan must meet beside its Rego module. -/
structure Covering (plan : GeneratedPlan) (sourceContext : Json) : Prop where
  version : plan.schemaVersion = "1.0" ∧ plan.catalogVersion = catalogVersion
  count : plan.tests.length = controls.length
  controls : plan.tests.map (·.controlId) ⊆ controls ∧ controls ⊆ plan.tests.map (·.controlId)
  distinctControls : (plan.tests.map (·.controlId)).Nodup
  distinctScenarios : (plan.tests.map (·.scenarioId)).Nodup
  grounded : ∃ applicationPaths terraformPaths,
    contextPaths sourceContext "application" = .ok applicationPaths ∧
    contextPaths sourceContext "terraform" = .ok terraformPaths ∧
    (∀ t ∈ plan.tests, TestAccepted applicationPaths terraformPaths t) ∧
    (terraformPaths = [] ∨ ∃ t ∈ plan.tests, t.terraformRefs ≠ [])

theorem length_dedup_map {α : Type} {f : α → String} {l : List α} :
    (l.map f).dedup.length = l.length ↔ (l.map f).Nodup := by
  constructor
  · intro h
    have := (List.dedup_sublist (l.map f)).eq_of_length (by rw [h, List.length_map])
    exact List.dedup_eq_self.mp this
  · intro h
    rw [List.dedup_eq_self.mpr h, List.length_map]

theorem checkPlan_ok {plan accepted : GeneratedPlan} {sourceContext : Json} :
    checkPlan plan sourceContext = .ok accepted ↔
      Covering plan sourceContext ∧ ∃ module,
        validateRegoModule plan.regoModule (orderedTests plan.tests) = .ok module ∧
        accepted = { plan with tests := orderedTests plan.tests, regoModule := module } := by
  unfold checkPlan
  dsimp only
  by_cases hversion : plan.schemaVersion ≠ "1.0" ∨ plan.catalogVersion ≠ catalogVersion
  · rw [if_pos hversion]
    refine ⟨(fun h => nomatch h), fun h => ?_⟩
    exact absurd h.1.version (not_and_or.mpr hversion)
  rw [if_neg hversion]
  by_cases hcount : plan.tests.length = controls.length
  swap
  · rw [if_pos hcount]
    exact ⟨(fun h => nomatch h), fun h => absurd h.1.count hcount⟩
  rw [if_neg (not_not.mpr hcount)]
  by_cases hcontrols : ¬(plan.tests.map (·.controlId) ⊆ controls ∧
      controls ⊆ plan.tests.map (·.controlId)) ∨
      (plan.tests.map (·.controlId)).dedup.length ≠ plan.tests.length
  · rw [if_pos hcontrols]
    refine ⟨(fun h => nomatch h), fun h => ?_⟩
    cases hcontrols with
    | inl hset => exact absurd h.1.controls hset
    | inr hlen => exact absurd (length_dedup_map.mpr h.1.distinctControls) hlen
  rw [if_neg hcontrols]
  obtain ⟨hset, hdistinct⟩ := not_or.mp hcontrols
  by_cases hscenarios : (plan.tests.map (·.scenarioId)).dedup.length = plan.tests.length
  swap
  · rw [if_pos hscenarios]
    exact ⟨(fun h => nomatch h), fun h =>
      absurd (length_dedup_map.mpr h.1.distinctScenarios) hscenarios⟩
  rw [if_neg (not_not.mpr hscenarios)]
  have hcovering : ∀ applicationPaths terraformPaths,
      contextPaths sourceContext "application" = .ok applicationPaths →
      contextPaths sourceContext "terraform" = .ok terraformPaths →
      (Covering plan sourceContext ↔
        (∀ t ∈ plan.tests, TestAccepted applicationPaths terraformPaths t) ∧
        (terraformPaths = [] ∨ ∃ t ∈ plan.tests, t.terraformRefs ≠ [])) := by
    intro applicationPaths terraformPaths happ hterra
    constructor
    · intro h
      obtain ⟨_, _, happ', hterra', hrest⟩ := h.grounded
      cases happ.symm.trans happ'
      cases hterra.symm.trans hterra'
      exact hrest
    · intro h
      exact
        { version := by simpa [not_or] using hversion
          count := hcount
          controls := not_not.mp hset
          distinctControls := length_dedup_map.mp (not_not.mp hdistinct)
          distinctScenarios := length_dedup_map.mp hscenarios
          grounded := ⟨_, _, happ, hterra, h⟩ }
  cases happ : contextPaths sourceContext "application" with
  | error e =>
    refine ⟨(fun h => nomatch h), fun h => ?_⟩
    obtain ⟨_, _, happ', _⟩ := h.1.grounded
    cases happ.symm.trans happ'
  | ok applicationPaths =>
    cases hterra : contextPaths sourceContext "terraform" with
    | error e =>
      refine ⟨(fun h => nomatch h), fun h => ?_⟩
      obtain ⟨_, _, _, hterra', _⟩ := h.1.grounded
      cases hterra.symm.trans hterra'
    | ok terraformPaths =>
      rw [hcovering _ _ happ hterra]
      cases hcheck : checkTests applicationPaths terraformPaths false plan.tests with
      | error e =>
        refine ⟨fun h => ?_, fun h => ?_⟩
        · simp only [bind, Except.bind, hcheck] at h
          cases h
        · have hok : checkTests applicationPaths terraformPaths false plan.tests = .ok _ :=
            checkTests_ok.mpr ⟨h.1.1, rfl⟩
          cases hcheck.symm.trans hok
      | ok cited =>
        obtain ⟨htests, hcited⟩ := checkTests_ok.mp hcheck
        have hsome : (!terraformPaths.isEmpty && !cited) = false ↔
            terraformPaths = [] ∨ ∃ t ∈ plan.tests, t.terraformRefs ≠ [] := by
          rw [hcited]
          cases terraformPaths with
          | nil => simp
          | cons p rest => simp
        simp only [bind, Except.bind, hcheck]
        by_cases hbad : (!terraformPaths.isEmpty && !cited) = true
        · rw [if_pos hbad]
          refine ⟨(fun h => nomatch h), fun h => ?_⟩
          exact absurd (hsome.mpr h.1.2) (by simp [hbad])
        · rw [if_neg hbad]
          have hgood := hsome.mp (Bool.eq_false_iff.mpr hbad)
          cases hmodule : validateRegoModule plan.regoModule (orderedTests plan.tests) with
          | error e =>
            refine ⟨(fun h => nomatch h), fun h => ?_⟩
            obtain ⟨_, _, h, _⟩ := h
            cases h
          | ok module =>
            constructor
            · intro h
              cases h
              exact ⟨⟨htests, hgood⟩, module, rfl, rfl⟩
            · rintro ⟨_, _, h, rfl⟩
              cases h
              rfl

/-! The tests of a covering plan, in order. -/

theorem orderedTests_perm (tests : List GeneratedTest) : (orderedTests tests).Perm tests :=
  List.mergeSort_perm _ _

theorem orderedTests_pairwise (tests : List GeneratedTest) : (orderedTests tests).Pairwise
    fun a b => controlIndex a.controlId ≤ controlIndex b.controlId := by
  have htrans : ∀ a b c : GeneratedTest,
      decide (controlIndex a.controlId ≤ controlIndex b.controlId) = true →
      decide (controlIndex b.controlId ≤ controlIndex c.controlId) = true →
      decide (controlIndex a.controlId ≤ controlIndex c.controlId) = true := by
    intro a b c hab hbc
    rw [decide_eq_true_eq] at hab hbc ⊢
    exact Nat.le_trans hab hbc
  have htotal : ∀ a b : GeneratedTest,
      (decide (controlIndex a.controlId ≤ controlIndex b.controlId) ||
        decide (controlIndex b.controlId ≤ controlIndex a.controlId)) = true := by
    intro a b
    simpa using Nat.le_total (controlIndex a.controlId) (controlIndex b.controlId)
  have hsorted := List.pairwise_mergeSort htrans htotal tests
  exact hsorted.imp fun hab => of_decide_eq_true hab

theorem orderedTests_of_pairwise {tests : List GeneratedTest}
    (h : tests.Pairwise fun a b => controlIndex a.controlId ≤ controlIndex b.controlId) :
    orderedTests tests = tests :=
  List.mergeSort_of_pairwise (by simpa using h)

theorem orderedTests_orderedTests (tests : List GeneratedTest) :
    orderedTests (orderedTests tests) = orderedTests tests :=
  orderedTests_of_pairwise (orderedTests_pairwise tests)

/-- The scenario that the catalogue reviews for a control. -/
def scenarioFor (controlId : String) : Option ScenarioDefinition :=
  scenarios.find? (·.controlId = controlId)

theorem scenarioFor_self : ∀ s ∈ scenarios, scenarioFor s.controlId = some s := by decide

/-- The rules of every covering plan. -/
def reviewedRules : List (String × ScenarioDefinition) := scenarios.map fun s => (s.controlId, s)

theorem controls_eq : controls = scenarios.map (·.controlId) := by decide

namespace Covering
variable {plan : GeneratedPlan} {sourceContext : Json}

theorem ordered_controls (h : Covering plan sourceContext) :
    (orderedTests plan.tests).map (·.controlId) = Bantam.controls := by
  have hset : (plan.tests.map (·.controlId)).Perm Bantam.controls := by
    refine (List.perm_ext_iff_of_nodup h.distinctControls (by decide)).mpr fun c => ?_
    exact ⟨fun hc => h.controls.1 hc, fun hc => h.controls.2 hc⟩
  have hperm := ((orderedTests_perm plan.tests).map (·.controlId)).trans hset
  refine List.Perm.eq_of_pairwise
    (fun a b _ hb (hab : controlIndex a ≤ controlIndex b) hba => ?_) ?_ ?_ hperm
  · exact ((List.idxOf_inj hb).mp (Nat.le_antisymm hba hab)).symm
  · exact List.pairwise_map.mpr (orderedTests_pairwise plan.tests)
  · decide

/-- Each test has the scenario that is reviewed for its control. -/
theorem scenario_eq (h : Covering plan sourceContext) {t : GeneratedTest}
    (ht : t ∈ orderedTests plan.tests) :
    ∃ s, scenario? t.scenarioId = some s ∧ scenarioFor t.controlId = some s ∧
      s.scenarioId = t.scenarioId := by
  obtain ⟨_, _, _, _, htests, _⟩ := h.grounded
  have hscenario := (htests t ((orderedTests_perm _).mem_iff.mp ht)).scenario
  obtain ⟨s, hs, hcontrol⟩ := Option.map_eq_some_iff.mp hscenario
  refine ⟨s, hs, ?_, ?_⟩
  · rw [← hcontrol]
    exact scenarioFor_self s (List.mem_of_find?_eq_some hs)
  · simpa using List.find?_some hs

theorem ordered_map {β : Type} (h : Covering plan sourceContext) {f : GeneratedTest → β}
    {g : ScenarioDefinition → β}
    (hfg : ∀ t ∈ orderedTests plan.tests, ∀ s, scenarioFor t.controlId = some s → f t = g s) :
    (orderedTests plan.tests).map f = scenarios.map g := by
  have hmap : (orderedTests plan.tests).map (fun t => some (f t)) =
      ((orderedTests plan.tests).map (·.controlId)).map fun c => (scenarioFor c).map g := by
    rw [List.map_map]
    refine List.map_congr_left fun t ht => ?_
    obtain ⟨s, _, hfor, _⟩ := h.scenario_eq ht
    rw [Function.comp_apply, hfor, hfg t ht s hfor]
    rfl
  have hscenarios : (Bantam.controls.map fun c => (scenarioFor c).map g) =
      scenarios.map fun s => some (g s) := by
    rw [controls_eq, List.map_map]
    refine List.map_congr_left fun s hs => ?_
    rw [Function.comp_apply, scenarioFor_self s hs]
    rfl
  rw [h.ordered_controls, hscenarios] at hmap
  have hsome : Function.Injective (some : β → Option β) := Option.some_injective β
  refine (List.map_injective_iff.mpr hsome) ?_
  rw [List.map_map, List.map_map]
  exact hmap

theorem reviewed_eq (h : Covering plan sourceContext) :
    reviewed (orderedTests plan.tests) = .ok reviewedRules := by
  have hrules : (orderedTests plan.tests).map (fun t =>
      (t.controlId, (scenarioFor t.controlId).getD ⟨"", "", 0, ""⟩)) = reviewedRules := by
    refine h.ordered_map fun t ht s hs => ?_
    have hcontrol : s.controlId = t.controlId := by simpa using List.find?_some hs
    rw [hs, Option.getD_some, hcontrol]
  rw [← hrules, reviewed]
  refine Fallible.mapM_ok fun t ht => ?_
  obtain ⟨s, hs, hfor, _⟩ := h.scenario_eq ht
  rw [hs, hfor, Option.getD_some]

theorem ordered_scenarios (h : Covering plan sourceContext) :
    (orderedTests plan.tests).map (·.scenarioId) = scenarios.map (·.scenarioId) := by
  refine h.ordered_map fun t ht s hs => ?_
  obtain ⟨s', _, hfor, hid⟩ := h.scenario_eq ht
  cases hfor.symm.trans hs
  exact hid.symm

end Covering

/-! The accepted plans. -/

theorem contextPaths_normal (sourceContext : Json) (repository : String) :
    contextPaths sourceContext.normal repository = contextPaths sourceContext repository := by
  have hitem : ∀ item : Json, (match item.normal.get? "repository", item.normal.get? "path" with
      | some (.str name), some (.str path) => if name = repository then some path else none
      | _, _ => none) = (match item.get? "repository", item.get? "path" with
      | some (.str name), some (.str path) => if name = repository then some path else none
      | _, _ => none) := by
    intro item
    rw [Json.get?_normal, Json.get?_normal]
    cases item.get? "repository" with
    | none => rfl
    | some r =>
      cases item.get? "path" with
      | none => cases r <;> rfl
      | some p => cases r <;> cases p <;> rfl
  unfold contextPaths
  rw [Json.get?_normal]
  cases sourceContext.get? "files" with
  | none => rfl
  | some files =>
    cases files with
    | arr items =>
      simp only [Option.map_some, Json.normal, Json.normalItems_eq, List.filterMap_map,
        Function.comp_def, hitem]
    | _ => rfl

namespace Covering
variable {plan : GeneratedPlan} {sourceContext : Json}

theorem of_perm (h : Covering plan sourceContext) {tests : List GeneratedTest}
    (hperm : tests.Perm plan.tests) (module : String) :
    Covering { plan with tests := tests, regoModule := module } sourceContext := by
  have hmem : ∀ {t : GeneratedTest}, t ∈ tests ↔ t ∈ plan.tests := hperm.mem_iff
  obtain ⟨applicationPaths, terraformPaths, happ, hterra, htests, hcited⟩ := h.grounded
  exact
    { version := h.version
      count := hperm.length_eq.trans h.count
      controls := ⟨fun c hc => h.controls.1 ((hperm.map _).mem_iff.mp hc),
        fun c hc => (hperm.map _).mem_iff.mpr (h.controls.2 hc)⟩
      distinctControls := (hperm.map _).nodup_iff.mpr h.distinctControls
      distinctScenarios := (hperm.map _).nodup_iff.mpr h.distinctScenarios
      grounded := ⟨applicationPaths, terraformPaths, happ, hterra,
        fun t ht => htests t (hmem.mp ht),
        hcited.imp_right fun ⟨t, ht, hne⟩ => ⟨t, hmem.mpr ht, hne⟩⟩ }

theorem of_normal (h : Covering plan sourceContext) {stored : Json}
    (hstored : stored.normal = sourceContext.normal) : Covering plan stored := by
  have hpaths : ∀ repository, contextPaths stored repository = contextPaths sourceContext repository := by
    intro repository
    rw [← contextPaths_normal stored, hstored, contextPaths_normal]
  exact { h with grounded := by simpa only [hpaths] using h.grounded }

end Covering

/-- What `validate_generated_plan` returns: the schema holds of it apart from its module,
which is the canonical one. -/
structure Accepted (plan : GeneratedPlan) (sourceContext : Json) : Prop where
  covering : Covering plan sourceContext
  ordered : orderedTests plan.tests = plan.tests
  module : plan.regoModule = regoModule reviewedRules
  summary : Sized 12 500 plan.summary.length ∧ printable plan.summary = true ∧
    stripped plan.summary = plan.summary

theorem GeneratedPlan.decode_some {v : Json} {plan : GeneratedPlan}
    (h : GeneratedPlan.decode v = some plan) :
    Sized 12 500 plan.summary.length ∧ printable plan.summary = true ∧
      stripped plan.summary = plan.summary := by
  unfold GeneratedPlan.decode at h
  by_cases hw : membersWithin planFieldNames v
  · rw [if_pos hw] at h
    simp only [Option.bind_eq_bind, Option.bind_eq_some_iff] at h
    obtain ⟨a, _, b, _, c, ⟨_, _, hc⟩, d, _, e, _, h⟩ := h
    by_cases hok : Sized 12 500 c.length ∧ printable c = true ∧
        Sized 1 maxRegoModuleBytes d.length ∧ Sized 1 maxGeneratedTests e.length
    · rw [if_pos hok] at h
      obtain ⟨module, _, rfl⟩ := Option.map_eq_some_iff.mp h
      exact ⟨hok.1, hok.2.1, text?_stripped hc⟩
    · rw [if_neg hok] at h
      cases h
  · rw [if_neg hw] at h
    cases h

theorem checkRegoLines_ok {lines : List (List Char)} {canonical : String}
    {rules : List (String × ScenarioDefinition)}
    (h : checkRegoLines lines rules = .ok canonical) : canonical = regoModule rules := by
  unfold checkRegoLines at h
  split_ifs at h
  split at h
  · cases h
  · split_ifs at h
    exact (Except.ok.inj h).symm

variable {parse : String → Option Json} {raw : String} {sourceContext : Json}
  {plan : GeneratedPlan}

theorem validateGeneratedPlan_accepted (h : validateGeneratedPlan parse raw sourceContext = .ok plan) :
    Accepted plan sourceContext := by
  unfold validateGeneratedPlan at h
  cases hdecode : (parse raw).bind GeneratedPlan.decode with
  | none =>
    rw [hdecode] at h
    cases h
  | some candidate =>
    rw [hdecode] at h
    obtain ⟨v, _, hv⟩ := Option.bind_eq_some_iff.mp hdecode
    obtain ⟨hcovering, module, hmodule, rfl⟩ := checkPlan_ok.mp h
    rw [validateRegoModule, hcovering.reviewed_eq] at hmodule
    exact
      { covering := hcovering.of_perm (orderedTests_perm _) module
        ordered := orderedTests_orderedTests _
        module := checkRegoLines_ok hmodule
        summary := (GeneratedPlan.decode_some hv :) }

/-! The canonical module passes its own check. -/

def canonicalText : List Char := Text.joinLines (regoLines reviewedRules)

theorem canonicalText_checked :
    (checkRegoLines (moduleLines canonicalText) reviewedRules).toOption.isSome = true := by
  decide +kernel

theorem checkRegoLines_canonicalText : checkRegoLines (moduleLines canonicalText) reviewedRules =
    .ok (regoModule reviewedRules) := by
  have hchecked := canonicalText_checked
  cases hcheck : checkRegoLines (moduleLines canonicalText) reviewedRules with
  | error e =>
    rw [hcheck] at hchecked
    cases hchecked
  | ok canonical => rw [checkRegoLines_ok hcheck]

theorem canonicalText_plain :
    (∀ c ∈ canonicalText, c = '\n' ∨ Literals.Printable c) ∧
    (canonicalText.head? = some 'p' ∧ canonicalText.getLast? = some '\x7d') ∧
    canonicalText.length ≤ 1000 := by
  decide +kernel

theorem regoModule_toList : (regoModule reviewedRules).toList = canonicalText ++ ['\n'] :=
  String.toList_ofList

/-- Stripping takes the last line break off the canonical module, and nothing else. -/
theorem trimBy_canonicalText {p : Char → Bool} (hp : p 'p' = false) (hq : p '\x7d' = false) :
    Text.trimBy p canonicalText = canonicalText ∧
    (p '\n' = true → Text.trimBy p (canonicalText ++ ['\n']) = canonicalText) := by
  obtain ⟨_, ⟨hhead, hlast⟩, _⟩ := canonicalText_plain
  have hh : ∀ c, canonicalText.head? = some c → p c = false := by
    intro c hc
    cases hhead.symm.trans hc
    exact hp
  have hl : ∀ c, canonicalText.getLast? = some c → p c = false := by
    intro c hc
    cases hlast.symm.trans hc
    exact hq
  have hne : canonicalText ≠ [] := by
    intro hnil
    rw [hnil] at hhead
    cases hhead
  exact ⟨Text.trimBy_of_ends hh hl, fun hn => Text.trimBy_snoc hne hh hl hn⟩

theorem stripped_regoModule :
    stripped (regoModule reviewedRules) = String.ofList canonicalText := by
  rw [stripped, regoModule_toList, (trimBy_canonicalText (by decide) (by decide)).2 (by decide)]

theorem regoText_canonicalText :
    regoText (String.ofList canonicalText) = some (String.ofList canonicalText) := by
  obtain ⟨hplain, _, hlen⟩ := canonicalText_plain
  have hsize : ¬maxRegoModuleBytes < Text.utf8Length canonicalText := by
    have := Text.utf8Length_le canonicalText
    simp only [maxRegoModuleBytes]
    omega
  have hbad : ¬(canonicalText.any fun c => decide (c ≠ '\n' ∧ ¬Literals.Printable c)) = true := by
    rw [List.any_eq_true]
    rintro ⟨c, hc, hbad⟩
    obtain ⟨hn, hp⟩ := of_decide_eq_true hbad
    exact (hplain c hc).elim hn hp
  have hstrip : Text.stripChars canonicalText = canonicalText :=
    (trimBy_canonicalText (p := Text.isSpace) (by decide) (by decide)).1
  rw [regoText, String.toList_ofList, if_neg hsize, if_neg hbad, Text.strip, String.toList_ofList,
    hstrip]

/-- What an accepted plan is written as is read back, with its module stripped. -/
theorem Accepted.decode_dump (h : Accepted plan sourceContext) {v : Json}
    (hv : v.normal = plan.dump.normal) : GeneratedPlan.decode v =
      some { plan with regoModule := String.ofList canonicalText } := by
  rw [← GeneratedPlan.decode_normal, hv, GeneratedPlan.decode_normal]
  obtain ⟨hsized, hprintable, hstripped⟩ := h.summary
  have hfields : membersWithin planFieldNames plan.dump = true := rfl
  have hversion : (plan.dump.get? "schema_version").bind text? = some plan.schemaVersion := by
    show text? (.str plan.schemaVersion) = _
    rw [h.covering.version.1]
    decide
  have hcatalog : (plan.dump.get? "catalog_version").bind text? = some plan.catalogVersion := by
    show text? (.str plan.catalogVersion) = _
    rw [h.covering.version.2]
    decide
  have hsummary : (plan.dump.get? "summary").bind text? = some plan.summary :=
    congrArg some hstripped
  have hmodule : (plan.dump.get? "rego_module").bind text? =
      some (String.ofList canonicalText) := by
    show text? (.str plan.regoModule) = _
    rw [h.module]
    exact congrArg some stripped_regoModule
  have hlength : Sized 1 maxRegoModuleBytes canonicalText.length := by
    obtain ⟨_, ⟨hhead, _⟩, hlen⟩ := canonicalText_plain
    refine ⟨?_, Nat.le_trans hlen (by decide)⟩
    cases hc : canonicalText with
    | nil =>
      rw [hc] at hhead
      cases hhead
    | cons c rest => simp
  have htests : Sized 1 maxGeneratedTests plan.tests.length := by
    rw [h.covering.count]
    decide
  have hdump : (plan.dump.get? "tests").bind tests? = some plan.tests := tests?_dump plan.tests
  rw [GeneratedPlan.decode, if_pos hfields, hversion, hcatalog, hsummary, hmodule, hdump]
  dsimp only [bind, Option.bind]
  rw [if_pos ⟨hsized, hprintable, by rwa [String.length_ofList], htests⟩, regoText_canonicalText]
  rfl

/-- Validated again from what was stored of it, an accepted plan is accepted as it is. -/
theorem Accepted.validate_dump (h : Accepted plan sourceContext) {text : String} {v stored : Json}
    (hparse : parse text = some v) (hv : v.normal = plan.dump.normal)
    (hstored : stored.normal = sourceContext.normal) :
    validateGeneratedPlan parse text stored = .ok plan := by
  have hdecode : (parse text).bind GeneratedPlan.decode =
      some { plan with regoModule := String.ofList canonicalText } := by
    rw [hparse]
    exact h.decode_dump hv
  have hcovering : Covering { plan with regoModule := String.ofList canonicalText } stored :=
    (h.covering.of_perm (List.Perm.refl _) _).of_normal hstored
  unfold validateGeneratedPlan
  rw [hdecode]
  refine checkPlan_ok.mpr ⟨hcovering, regoModule reviewedRules, ?_, ?_⟩
  · have hbind : ∀ check : List (String × ScenarioDefinition) → Except PlanError String,
        (Except.ok reviewedRules).bind check = check reviewedRules := fun _ => rfl
    rw [validateRegoModule, hcovering.reviewed_eq, String.toList_ofList, hbind]
    exact checkRegoLines_canonicalText
  · show plan = { plan with tests := orderedTests plan.tests, regoModule := regoModule reviewedRules }
    rw [h.ordered, ← h.module]

end Bantam
