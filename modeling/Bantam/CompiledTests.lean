import Bantam.PlanValidation

/-! The pytest source that a plan is compiled to. -/
namespace Bantam

/-- The text of `_docstring`, before it is quoted. -/
def docstringText (test : GeneratedTest) : String :=
  String.ofList (test.name.toList ++ ": ".toList ++ test.objective.toList ++ " Grounding: ".toList ++
    test.grounding.toList ++ " Sources: ".toList ++
    List.intercalate ", ".toList ((test.sourceRefs ++ test.terraformRefs).map String.toList))

/-- `_docstring` -/
def docstring (test : GeneratedTest) : List Char := Json.quote true (docstringText test)

/-- The lines of `_compiled_test` for a scenario: the head of its function and what comes
after the docstring. -/
def compiledScenario? (scenarioId : String) : Option (String × List String) :=
  if scenarioId = "anonymous-protected-route" then
    some ("def test_ai_candidate_anonymous_protected_route() -> None:",
      ["    status, payload = call(\"GET\", \"/v1/me\")",
        "    assert status == 401",
        "    assert payload[\"error\"][\"code\"] == \"UNAUTHENTICATED\""])
  else if scenarioId = "customer-admin-route-denied" then
    some ("def test_ai_candidate_customer_admin_route_denied() -> None:",
      ["    alice = login(\"alice@bantam.local\")",
        "    status, payload = call(\"GET\", \"/v1/admin/customers\", session=alice)",
        "    assert status == 403",
        "    assert payload[\"error\"][\"code\"] == \"FORBIDDEN\""])
  else if scenarioId = "other-account-history-denied" then
    some ("def test_ai_candidate_other_account_history_denied() -> None:",
      ["    alice = login(\"alice@bantam.local\")",
        "    status, payload = call(",
        "        \"GET\", f\"/v1/accounts/\x7bBOB_ACCOUNT_ID\x7d/transactions\", session=alice",
        "    )",
        "    assert status == 404",
        "    assert payload[\"error\"][\"code\"] == \"NOT_FOUND\""])
  else if scenarioId = "unowned-transfer-denied" then
    some ("def test_ai_candidate_unowned_transfer_denied() -> None:",
      ["    alice = login(\"alice@bantam.local\")",
        "    status, payload = call(",
        "        \"POST\",",
        "        \"/v1/transfers\",",
        "        session=alice,",
        "        headers=\x7b\"Idempotency-Key\": f\"asvs-ai-\x7buuid4()\x7d\"\x7d,",
        "        body=\x7b",
        "            \"source_account_id\": str(BOB_ACCOUNT_ID),",
        "            \"destination_account_id\": str(ALICE_ACCOUNT_ID),",
        "            \"amount_minor\": 100,",
        "            \"currency\": \"GBP\",",
        "            \"description\": \"AI-planned authorization regression\",",
        "        \x7d,",
        "    )",
        "    assert status == 403",
        "    assert payload[\"error\"][\"code\"] == \"FORBIDDEN\""])
  else if scenarioId = "logged-out-session-replay-denied" then
    some ("def test_ai_candidate_logged_out_session_replay_denied() -> None:",
      ["    alice = login(\"alice@bantam.local\")",
        "    status, payload = call(\"POST\", \"/v1/auth/logout\", session=alice)",
        "    assert status == 200",
        "    assert payload[\"status\"] == \"logged_out\"",
        "    status, payload = call(\"GET\", \"/v1/me\", session=alice)",
        "    assert status == 401",
        "    assert payload[\"error\"][\"code\"] == \"UNAUTHENTICATED\""])
  else none

/-- The line of a test function that holds its docstring. -/
def docstringLine (test : GeneratedTest) : List Char := "    ".toList ++ docstring test

/-- `_compiled_test` -/
def compiledTest (test : GeneratedTest) : Except PlanError (List (List Char)) :=
  match compiledScenario? test.scenarioId with
  | some (head, rest) => .ok (head.toList :: docstringLine test :: rest.map String.toList)
  | none => .error (.validation "model output referenced an unknown scenario")

def headerLines : List (List Char) :=
  [Json.quote true "Source-grounded ASVS tests compiled by Bantam's reviewed scenario mapper.",
    [],
    "from uuid import uuid4".toList,
    [],
    "from bantam.seed import ALICE_ACCOUNT_ID, BOB_ACCOUNT_ID".toList,
    "from tests.integration.test_authorization import call, login".toList,
    [],
    "# Display artifact only. Approval is executed by the deterministic runner.".toList]

/-- `compile_pytest`. The parser of the language accepts the source or not. -/
def compilePytest (accepts : String → Bool) (plan : GeneratedPlan) : Except PlanError String := do
  let compiled ← plan.tests.mapM compiledTest
  let lines := headerLines ++ compiled.flatMap fun lines => [] :: [] :: lines
  let source := String.ofList (Text.joinLines lines ++ ['\n'])
  if accepts source then .ok source else .error .invalidSource

/-! The texts of a test, in its docstring. -/

/-- The docstring is made of printable characters. -/
theorem docstringText_printable (test : GeneratedTest) :
    ∀ c ∈ (docstringText test).toList, Literals.Printable c := by
  have hall : ∀ {s : String}, printable s = true → ∀ c ∈ s.toList, Literals.Printable c := by
    intro s hs c hc
    exact of_decide_eq_true (List.all_eq_true.mp hs c hc)
  have hrefs : ∀ {l : List String}, l.all referenceOk = true →
      ∀ s ∈ l, ∀ c ∈ s.toList, Literals.Printable c := by
    intro l hl s hs
    have := List.all_eq_true.mp hl s hs
    simp only [referenceOk, Bool.and_eq_true] at this
    exact hall this.1.1.1.1
  have hjoin : ∀ c ∈ List.intercalate ", ".toList
      ((test.sourceRefs ++ test.terraformRefs).map String.toList), Literals.Printable c := by
    refine Text.forall_mem_intercalate (by decide) fun l hl => ?_
    obtain ⟨s, hs, rfl⟩ := List.mem_map.mp hl
    cases List.mem_append.mp hs with
    | inl hs => exact hrefs test.valid.sourceRefs.2.2 s hs
    | inr hs => exact hrefs test.valid.terraformRefs.2.2 s hs
  intro c hc
  have hlit : ∀ c ∈ ": ".toList ++ " Grounding: ".toList ++ " Sources: ".toList,
      Literals.Printable c := by decide
  simp only [docstringText, String.toList_ofList, List.mem_append] at hc
  simp only [List.mem_append] at hlit
  rcases hc with (((((h | h) | h) | h) | h) | h) | h
  · exact hall test.valid.name.2 c h
  · exact hlit c (.inl (.inl h))
  · exact hall test.valid.objective.2 c h
  · exact hlit c (.inl (.inr h))
  · exact hall test.valid.grounding.2 c h
  · exact hlit c (.inr h)
  · exact hjoin c h

/-- Read as a literal of the language, the docstring is its text. -/
theorem eval_docstring (test : GeneratedTest) :
    Literals.eval (docstring test) = some (docstringText test).toList :=
  Literals.eval_quote (docstringText_printable test)

/-! Two compilations line by line. -/

/-- The lines of a test with the empty lines before it. -/
def blocks (compiled : List (List (List Char))) : List (List Char) :=
  compiled.flatMap fun lines => [] :: [] :: lines

/-- At `i` both sources have the docstring of their test at one place of their plans, right
below the same head of a test function. -/
structure DocstringAt (tests tests' : List GeneratedTest) (lines lines' : List (List Char))
    (i : Nat) : Prop where
  docstrings : ∃ (k : Nat) (t t' : GeneratedTest), tests[k]? = some t ∧ tests'[k]? = some t' ∧
    lines[i]? = some (docstringLine t) ∧ lines'[i]? = some (docstringLine t')
  head : ∃ (j : Nat) (head : List Char), i = j + 1 ∧ "def test_ai_candidate_".toList <+: head ∧
    lines[j]? = some head ∧ lines'[j]? = some head

namespace DocstringAt
variable {tests tests' : List GeneratedTest} {lines lines' : List (List Char)} {i : Nat}

/-- The same lines put before both sources move its place. -/
theorem prepend (h : DocstringAt tests tests' lines lines' i) {first first' : List (List Char)}
    (hlen : first.length = first'.length) :
    DocstringAt tests tests' (first ++ lines) (first' ++ lines') (first.length + i) := by
  obtain ⟨⟨k, t, t', hk, hk', hi, hi'⟩, j, head, rfl, hdef, hj, hj'⟩ := h
  have hshift : ∀ {n : Nat} (l : List (List Char)), (first ++ l)[first.length + n]? = l[n]? :=
    fun l => by rw [List.getElem?_append_right (by omega), Nat.add_sub_cancel_left]
  have hshift' : ∀ {n : Nat} (l : List (List Char)), (first' ++ l)[first.length + n]? = l[n]? :=
    fun l => by rw [hlen, List.getElem?_append_right (by omega), Nat.add_sub_cancel_left]
  refine ⟨⟨k, t, t', hk, hk', ?_, ?_⟩, first.length + j, head, rfl, hdef, ?_, ?_⟩
  · rw [hshift, hi]
  · rw [hshift', hi']
  · rw [hshift, hj]
  · rw [hshift', hj']

theorem next (h : DocstringAt tests tests' lines lines' i) (t t' : GeneratedTest) :
    DocstringAt (t :: tests) (t' :: tests') lines lines' i := by
  obtain ⟨⟨k, u, u', hk, hk', hi⟩, hhead⟩ := h
  exact ⟨⟨k + 1, u, u', hk, hk', hi⟩, hhead⟩

end DocstringAt

/-- Every head of a test function begins as such. -/
theorem compiledScenario?_head {scenarioId head : String} {rest : List String}
    (h : compiledScenario? scenarioId = some (head, rest)) :
    "def test_ai_candidate_".toList <+: head.toList := by
  unfold compiledScenario? at h
  split_ifs at h
  all_goals
    cases h
    rw [String.toList_ofList, String.toList_ofList]
    decide

theorem forall_mem_toList {p : Char → Prop} {l : List Char} (h : ∀ c ∈ l, p c) :
    ∀ c ∈ (String.ofList l).toList, p c := by
  rw [String.toList_ofList]
  exact h

/-- None of the reviewed lines holds a line break. -/
theorem compiledScenario?_lines {scenarioId head : String} {rest : List String}
    (h : compiledScenario? scenarioId = some (head, rest)) :
    ∀ line ∈ head :: rest, ∀ c ∈ line.toList, Text.isLineBreak c = false := by
  unfold compiledScenario? at h
  split_ifs at h
  all_goals
    cases h
    repeat refine List.forall_mem_cons.mpr ⟨forall_mem_toList (by decide), ?_⟩
    exact List.forall_mem_nil _

theorem compiledTest_ok {test : GeneratedTest} {compiled : List (List Char)}
    (h : compiledTest test = .ok compiled) : ∃ head rest,
      compiledScenario? test.scenarioId = some (head, rest) ∧
      compiled = head.toList :: docstringLine test :: rest.map String.toList := by
  unfold compiledTest at h
  cases hscenario : compiledScenario? test.scenarioId with
  | none =>
    rw [hscenario] at h
    cases h
  | some lines =>
    rw [hscenario] at h
    cases h
    exact ⟨lines.1, lines.2, rfl, rfl⟩

/-- The tests of an accepted plan have reviewed scenarios, so each of them compiles. -/
theorem Accepted.compiled {plan : GeneratedPlan} {sourceContext : Json}
    (h : Accepted plan sourceContext) : ∃ compiled, plan.tests.mapM compiledTest = .ok compiled := by
  have hscenarios : ∀ s ∈ scenarios, (compiledScenario? s.scenarioId).isSome = true := by
    decide +kernel
  have hids := h.covering.ordered_scenarios
  rw [h.ordered] at hids
  have htests : ∀ t ∈ plan.tests, ∃ lines, compiledTest t = .ok lines := by
    intro t ht
    obtain ⟨s, hs, hid⟩ := List.mem_map.mp (hids ▸ List.mem_map_of_mem ht)
    obtain ⟨lines, hlines⟩ := Option.isSome_iff_exists.mp (hscenarios s hs)
    have hid : s.scenarioId = t.scenarioId := hid
    exact ⟨_, by rw [compiledTest, ← hid, hlines]⟩
  choose! g hg using htests
  exact ⟨plan.tests.map g, Fallible.mapM_ok hg⟩

/-- Two lists that differ in their fourth element and after a common part. -/
theorem getElem?_block {α : Type} (a b c d d' : α) (r l l' : List α) (i : Nat) :
    ((a :: b :: c :: d :: r) ++ l)[i]? = ((a :: b :: c :: d' :: r) ++ l')[i]? ∨ i = 3 ∨
      ∃ m, i = (a :: b :: c :: d :: r).length + m := by
  match i with
  | 0 | 1 | 2 => exact .inl rfl
  | 3 => exact .inr (.inl rfl)
  | n + 4 =>
    by_cases hn : n < r.length
    · refine .inl ?_
      show (r ++ l)[n]? = (r ++ l')[n]?
      rw [List.getElem?_append_left hn, List.getElem?_append_left hn]
    · refine .inr (.inr ⟨n - r.length, ?_⟩)
      simp only [List.length_cons]
      omega

/-- Tests of the same scenarios compile to the same lines, their docstrings apart. -/
theorem blocks_agree {tests tests' : List GeneratedTest}
    {compiled compiled' : List (List (List Char))}
    (hsame : tests.map (·.scenarioId) = tests'.map (·.scenarioId))
    (h : tests.mapM compiledTest = .ok compiled) (h' : tests'.mapM compiledTest = .ok compiled')
    (i : Nat) : (blocks compiled)[i]? = (blocks compiled')[i]? ∨
      DocstringAt tests tests' (blocks compiled) (blocks compiled') i := by
  induction tests generalizing tests' compiled compiled' i with
  | nil =>
    cases tests' with
    | nil =>
      cases h
      cases h'
      exact .inl rfl
    | cons t' tests' => cases hsame
  | cons t tests ih =>
    cases tests' with
    | nil => cases hsame
    | cons t' tests' =>
      obtain ⟨hid, hids⟩ := List.cons.inj hsame
      obtain ⟨c, cs, hc, hcs, rfl⟩ := Fallible.mapM_cons_ok h
      obtain ⟨c', cs', hc', hcs', rfl⟩ := Fallible.mapM_cons_ok h'
      obtain ⟨head, rest, hscenario, rfl⟩ := compiledTest_ok hc
      obtain ⟨head', rest', hscenario', rfl⟩ := compiledTest_ok hc'
      rw [show t'.scenarioId = t.scenarioId from hid.symm, hscenario] at hscenario'
      cases hscenario'
      have hlines : ∀ (u : GeneratedTest) ds, blocks ((head.toList :: docstringLine u ::
          rest.map String.toList) :: ds) = ([] :: [] :: head.toList :: docstringLine u ::
          rest.map String.toList) ++ blocks ds := fun u ds => List.flatMap_cons
      rw [hlines, hlines]
      have hblock := getElem?_block ([] : List Char) [] head.toList (docstringLine t)
        (docstringLine t') (rest.map String.toList) (blocks cs) (blocks cs') i
      rcases hblock with heq | rfl | ⟨m, rfl⟩
      · exact .inl heq
      · exact .inr ⟨⟨0, t, t', rfl, rfl, rfl, rfl⟩, 2, head.toList, rfl,
          compiledScenario?_head hscenario, rfl, rfl⟩
      · cases ih hids hcs hcs' m with
        | inl heq =>
          refine .inl ?_
          rw [List.getElem?_append_right (Nat.le_add_right _ _), Nat.add_sub_cancel_left, heq,
            List.getElem?_append_right (by simp)]
          simp
        | inr hdoc => exact .inr ((hdoc.next t t').prepend (by simp))

/-! The lines of the source. -/

def sourceLines (compiled : List (List (List Char))) : List (List Char) :=
  headerLines ++ blocks compiled

def sourceText (compiled : List (List (List Char))) : String :=
  String.ofList (Text.joinLines (sourceLines compiled) ++ ['\n'])

theorem compilePytest_eq {accepts : String → Bool} {plan : GeneratedPlan}
    {compiled : List (List (List Char))} (h : plan.tests.mapM compiledTest = .ok compiled) :
    compilePytest accepts plan =
      if accepts (sourceText compiled) then .ok (sourceText compiled) else .error .invalidSource := by
  unfold compilePytest
  rw [h]
  rfl

theorem compilePytest_ok {accepts : String → Bool} {plan : GeneratedPlan} {source : String}
    (h : compilePytest accepts plan = .ok source) : ∃ compiled,
      plan.tests.mapM compiledTest = .ok compiled ∧ source = sourceText compiled := by
  cases hcompiled : plan.tests.mapM compiledTest with
  | error e =>
    unfold compilePytest at h
    rw [hcompiled] at h
    cases h
  | ok compiled =>
    rw [compilePytest_eq hcompiled] at h
    split_ifs at h
    cases h
    exact ⟨compiled, rfl, rfl⟩

theorem headerLines_plain : ∀ line ∈ headerLines, ∀ c ∈ line, Text.isLineBreak c = false := by
  have hquote : ∀ c ∈ Json.quote true
      "Source-grounded ASVS tests compiled by Bantam's reviewed scenario mapper.",
      Text.isLineBreak c = false := by
    apply Literals.quote_no_break
    rw [String.toList_ofList]
    decide
  refine List.forall_mem_cons.mpr ⟨hquote, List.forall_mem_cons.mpr ⟨List.forall_mem_nil _, ?_⟩⟩
  repeat
    first
      | refine List.forall_mem_cons.mpr ⟨forall_mem_toList (by decide), ?_⟩
      | refine List.forall_mem_cons.mpr ⟨List.forall_mem_nil _, ?_⟩
  exact List.forall_mem_nil _

theorem blocks_plain {tests : List GeneratedTest} {compiled : List (List (List Char))}
    (h : tests.mapM compiledTest = .ok compiled) :
    ∀ line ∈ blocks compiled, ∀ c ∈ line, Text.isLineBreak c = false := by
  induction tests generalizing compiled with
  | nil =>
    cases h
    simp [blocks]
  | cons t tests ih =>
    obtain ⟨c, cs, hc, hcs, rfl⟩ := Fallible.mapM_cons_ok h
    obtain ⟨head, rest, hscenario, rfl⟩ := compiledTest_ok hc
    have hlines := compiledScenario?_lines hscenario
    have hdoc : ∀ c ∈ docstringLine t, Text.isLineBreak c = false := by
      intro c hc
      cases List.mem_append.mp hc with
      | inl hc =>
        have hspaces : ∀ c ∈ "    ".toList, Text.isLineBreak c = false := by decide
        exact hspaces c hc
      | inr hc => exact Literals.quote_no_break (docstringText_printable t) c hc
    intro line hline
    rw [blocks, List.flatMap_cons, List.mem_append] at hline
    cases hline with
    | inl hfirst =>
      simp only [List.mem_cons, List.mem_map] at hfirst
      rcases hfirst with rfl | rfl | rfl | rfl | ⟨s, hs, rfl⟩
      · simp
      · simp
      · exact hlines head List.mem_cons_self
      · exact hdoc
      · exact hlines s (List.mem_cons_of_mem _ hs)
    | inr hrest => exact ih hcs line hrest

theorem splitLines_source {tests : List GeneratedTest} {compiled : List (List (List Char))}
    (h : tests.mapM compiledTest = .ok compiled) :
    Text.splitLines (sourceText compiled).toList = sourceLines compiled := by
  rw [sourceText, String.toList_ofList]
  refine Text.splitLines_joinLines (fun hnil => by cases hnil) fun line hline => ?_
  cases List.mem_append.mp hline with
  | inl hheader => exact headerLines_plain line hheader
  | inr hblock => exact blocks_plain h line hblock

/-- Whatever a model writes into two accepted plans, their sources agree line by line, save for
the docstrings of the test functions, and each of those is a literal for the text made of the
test's own fields. -/
theorem compiled_pytest_injection_free {parse : String → Option Json} {accepts : String → Bool}
    {raw raw' source source' : String} {sourceContext sourceContext' : Json}
    {plan plan' : GeneratedPlan}
    (h : validateGeneratedPlan parse raw sourceContext = .ok plan)
    (h' : validateGeneratedPlan parse raw' sourceContext' = .ok plan')
    (hs : compilePytest accepts plan = .ok source)
    (hs' : compilePytest accepts plan' = .ok source') :
    (∀ i, (Text.splitLines source.toList)[i]? = (Text.splitLines source'.toList)[i]? ∨
      DocstringAt plan.tests plan'.tests (Text.splitLines source.toList)
        (Text.splitLines source'.toList) i) ∧
    ∀ test ∈ plan.tests ++ plan'.tests,
      Literals.eval (docstring test) = some (docstringText test).toList := by
  have haccepted := validateGeneratedPlan_accepted h
  have haccepted' := validateGeneratedPlan_accepted h'
  have hscenarios := haccepted.covering.ordered_scenarios
  have hscenarios' := haccepted'.covering.ordered_scenarios
  rw [haccepted.ordered] at hscenarios
  rw [haccepted'.ordered] at hscenarios'
  obtain ⟨compiled, hcompiled, rfl⟩ := compilePytest_ok hs
  obtain ⟨compiled', hcompiled', rfl⟩ := compilePytest_ok hs'
  rw [splitLines_source hcompiled, splitLines_source hcompiled']
  refine ⟨fun i => ?_, fun test _ => eval_docstring test⟩
  by_cases hi : i < headerLines.length
  · refine .inl ?_
    rw [sourceLines, sourceLines, List.getElem?_append_left hi, List.getElem?_append_left hi]
  · obtain ⟨n, rfl⟩ := Nat.exists_eq_add_of_le (Nat.le_of_not_lt hi)
    cases blocks_agree (hscenarios.trans hscenarios'.symm) hcompiled hcompiled' n with
    | inl heq =>
      refine .inl ?_
      rw [sourceLines, sourceLines, List.getElem?_append_right (Nat.le_add_right _ _),
        List.getElem?_append_right (Nat.le_add_right _ _), Nat.add_sub_cancel_left, heq]
    | inr hdoc => exact .inr (hdoc.prepend rfl)

/-! Two plans that differ in what the model wrote, quotes and backslashes included. -/

def sampleContext : Json :=
  .obj [("files", .arr [.obj [("repository", .str "application"), ("path", .str "api.py")]])]

def sampleFields (grounding : String) (s : ScenarioDefinition) : TestFields :=
  ⟨s.controlId, s.scenarioId, "Denied \"here\"", "It ends in C:\\", grounding, ["api.py"], []⟩

def sampleGroundings : List String := ["\"\"\" + 1 + \"\"\"", "Read in api.py"]

theorem quotes_mem : "\"\"\" + 1 + \"\"\"" ∈ sampleGroundings := List.mem_cons_self

theorem plain_mem : "Read in api.py" ∈ sampleGroundings :=
  List.mem_cons_of_mem _ List.mem_cons_self

section
variable {g : String} (hg : g ∈ sampleGroundings) {s : ScenarioDefinition} (hs : s ∈ scenarios)
include hg hs

theorem sampleFields_valid : (sampleFields g s).Valid := by
  have hids : ∀ s ∈ scenarios, Sized 1 64 s.controlId.length ∧ Sized 1 64 s.scenarioId.length := by
    decide +kernel
  have hname : Sized 8 120 "Denied \"here\"".length ∧ printable "Denied \"here\"" = true := by
    decide +kernel
  have hobjective : Sized 12 360 "It ends in C:\\".length ∧ printable "It ends in C:\\" = true := by
    decide +kernel
  have hgroundings : ∀ g ∈ sampleGroundings, Sized 12 500 g.length ∧ printable g = true := by
    decide +kernel
  have hrefs : ["api.py"].all referenceOk = true := by decide +kernel
  exact
    { controlId := (hids s hs).1
      scenarioId := (hids s hs).2
      name := hname
      objective := hobjective
      grounding := hgroundings g hg
      sourceRefs := ⟨⟨Nat.le_refl 1, Nat.le_add_left 1 2⟩, List.nodup_singleton _, hrefs⟩
      terraformRefs := ⟨⟨Nat.le_refl 0, Nat.zero_le 3⟩, List.nodup_nil, rfl⟩ }

theorem sampleFields_stripped : ∀ t ∈ (sampleFields g s).texts, stripped t = t := by
  have hids : ∀ s ∈ scenarios, stripped s.controlId = s.controlId ∧
      stripped s.scenarioId = s.scenarioId := by
    decide +kernel
  have htexts : ∀ t ∈ ["Denied \"here\"", "It ends in C:\\", "api.py"] ++ sampleGroundings,
      stripped t = t := by
    decide +kernel
  intro t ht
  simp only [sampleFields, TestFields.texts, List.mem_append, List.mem_cons, List.not_mem_nil,
    or_false] at ht
  rcases ht with (rfl | rfl | rfl | rfl | rfl) | rfl
  · exact (hids s hs).1
  · exact (hids s hs).2
  · exact htexts _ (by simp)
  · exact htexts _ (by simp)
  · exact htexts _ (List.mem_append_right _ hg)
  · exact htexts _ (by simp)

end

def samplePlan (g : String) (hg : g ∈ sampleGroundings) : GeneratedPlan :=
  { schemaVersion := "1.0"
    catalogVersion := "5.0.0"
    summary := "Five denials"
    regoModule := regoModule reviewedRules
    tests := scenarios.attach.map fun s =>
      ⟨sampleFields g s.1, sampleFields_valid hg s.2, sampleFields_stripped hg s.2⟩ }

theorem samplePlan_map {α : Type} {g : String} (hg : g ∈ sampleGroundings)
    {f : GeneratedTest → α} {f' : ScenarioDefinition → α}
    (h : ∀ s hs, f ⟨sampleFields g s, sampleFields_valid hg hs, sampleFields_stripped hg hs⟩ =
      f' s) : (samplePlan g hg).tests.map f = scenarios.map f' := by
  have hmap : (samplePlan g hg).tests.map f = scenarios.attach.map fun s => f' s.1 := by
    rw [samplePlan, List.map_map]
    exact List.map_congr_left fun s _ => h s.1 s.2
  rw [hmap, List.attach_map_val]

theorem samplePlan_accepted {g : String} (hg : g ∈ sampleGroundings) :
    Accepted (samplePlan g hg) sampleContext := by
  have hcontrols : (samplePlan g hg).tests.map (·.controlId) = controls := by
    rw [controls_eq]
    exact samplePlan_map hg fun _ _ => rfl
  have hscenarios : (samplePlan g hg).tests.map (·.scenarioId) = scenarios.map (·.scenarioId) :=
    samplePlan_map hg fun _ _ => rfl
  have hordered : (samplePlan g hg).tests.Pairwise
      fun a b => controlIndex a.controlId ≤ controlIndex b.controlId := by
    have hall : controls.Pairwise fun a b => controlIndex a ≤ controlIndex b := by decide
    rw [← hcontrols, List.pairwise_map] at hall
    exact hall
  have hsummary : ∀ s ∈ ["Five denials"], Sized 12 500 s.length ∧ printable s = true ∧
      stripped s = s := by
    decide +kernel
  refine
    { covering :=
        { version := ⟨rfl, rfl⟩
          count := rfl
          controls := by rw [hcontrols]; exact ⟨List.Subset.refl _, List.Subset.refl _⟩
          distinctControls := by rw [hcontrols]; decide
          distinctScenarios := by rw [hscenarios]; decide
          grounded := ⟨["api.py"], [], rfl, rfl, fun t ht => ?_, .inl rfl⟩ }
      ordered := orderedTests_of_pairwise hordered
      module := rfl
      summary := hsummary _ List.mem_cons_self }
  obtain ⟨s, _, rfl⟩ := List.mem_map.mp ht
  have hscenario : ∀ s ∈ scenarios, (scenario? s.scenarioId).map (·.controlId) =
      some s.controlId := by
    decide
  exact ⟨hscenario s.1 s.2, List.Subset.refl _, List.nil_subset _⟩

def sampleParse (raw : String) : Option Json :=
  if raw = "quotes" then some (samplePlan _ quotes_mem).dump
  else some (samplePlan _ plain_mem).dump

theorem samplePlan_compiled {g : String} (hg : g ∈ sampleGroundings) :
    ∃ source, compilePytest (fun _ => true) (samplePlan g hg) = .ok source := by
  obtain ⟨compiled, hcompiled⟩ := (samplePlan_accepted hg).compiled
  refine ⟨sourceText compiled, ?_⟩
  rw [compilePytest_eq hcompiled, if_pos rfl]

theorem sample_sources_injection_free : ∃ source source',
    compilePytest (fun _ => true) (samplePlan _ quotes_mem) = .ok source ∧
    compilePytest (fun _ => true) (samplePlan _ plain_mem) = .ok source' ∧
    ∀ i, (Text.splitLines source.toList)[i]? = (Text.splitLines source'.toList)[i]? ∨
      DocstringAt (samplePlan _ quotes_mem).tests (samplePlan _ plain_mem).tests
        (Text.splitLines source.toList) (Text.splitLines source'.toList) i := by
  obtain ⟨source, hs⟩ := samplePlan_compiled quotes_mem
  obtain ⟨source', hs'⟩ := samplePlan_compiled plain_mem
  have hquotes : validateGeneratedPlan sampleParse "quotes" sampleContext =
      .ok (samplePlan _ quotes_mem) := (samplePlan_accepted quotes_mem).validate_dump rfl rfl rfl
  have hplain : validateGeneratedPlan sampleParse "plain" sampleContext =
      .ok (samplePlan _ plain_mem) := (samplePlan_accepted plain_mem).validate_dump rfl rfl rfl
  exact ⟨source, source', hs, hs', (compiled_pytest_injection_free hquotes hplain hs hs').1⟩

end Bantam
