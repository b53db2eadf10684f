import Mathlib.Data.List.Forall2
import Bantam.JunitEvidence

/-! Passes in the evidence from a test run: when a record says that a control passed although a
testcase of its test did not. -/
namespace Bantam.Aspis

/-! Testcases of one name. -/

/-- A testcase that neither failed nor broke off nor was skipped. -/
structure XmlElement.Passed (case : XmlElement) : Prop where
  failure : case.find "failure" = none
  error : case.find "error" = none
  skipped : case.find "skipped" = none

/-- The testcases of a name, in the order of the report; a report that cannot be read has none. -/
def casesNamed (junit : Except String XmlElement) (name : String) : List XmlElement :=
  match junit with
  | .ok root => (root.iter "testcase").filter fun case => case.get? "name" = some name
  | .error _ => []

section
variable {F : Type}

/-- A record of a control that passed. -/
def IsPass (value : PyValue F) : Prop :=
  ∃ members, value = .dict members ∧ members.lookup "status" = some (.str "pass")

variable (readers : CollectReaders F) (junit : Except String XmlElement)

/-- A pass stands for a testcase of the control's test, and all testcases of that test passed. -/
def HonestPass (control value : PyValue F) : Prop :=
  IsPass value → ∀ fields, controlFields readers control = .ok fields →
    casesNamed junit (testName fields.nodeId) ≠ [] ∧
      ∀ case ∈ casesNamed junit (testName fields.nodeId), case.Passed

/-- If the last testcase of the control's test passed, so did those before it. -/
def UnmaskedTest (control : PyValue F) : Prop :=
  ∀ fields, controlFields readers control = .ok fields → testName fields.nodeId ≠ "" →
    ∀ last, (casesNamed junit (testName fields.nodeId)).getLast? = some last → last.Passed →
      ∀ case ∈ casesNamed junit (testName fields.nodeId), case.Passed

variable {readers junit} {cases : Dict String XmlElement} {limitation : Option String}
  {commit : String} {control value : PyValue F} {name : String}

/-! What a record is made of. -/

theorem named_cases (l : List XmlElement) (hname : name ≠ "") :
    ((l.filterMap fun case =>
      (case.get? "name").bind fun own => if own = "" then none else some (own, case)).filter
        fun item => decide (item.1 = name)).map Prod.snd =
      l.filter fun case => case.get? "name" = some name := by
  induction l with
  | nil => rfl
  | cons case rest ih =>
    cases hown : case.get? "name" with
    | none =>
      rw [List.filterMap_cons_none (by rw [hown, Option.bind_none]),
        List.filter_cons_of_neg (by simp [hown])]
      exact ih
    | some own =>
      by_cases hsame : own = name
      · subst hsame
        rw [List.filterMap_cons_some (by rw [hown, Option.bind_some, if_neg hname]),
          List.filter_cons_of_pos (by simp), List.filter_cons_of_pos (by simp [hown]),
          List.map_cons, ih]
      · rw [List.filter_cons_of_neg (by simp [hown, hsame])]
        by_cases hblank : own = ""
        · rw [List.filterMap_cons_none (by rw [hown, Option.bind_some, if_pos hblank])]
          exact ih
        · rw [List.filterMap_cons_some (by rw [hown, Option.bind_some, if_neg hblank]),
            List.filter_cons_of_neg (by simpa using hsame)]
          exact ih

/-- Of the testcases of one name the last one counts. -/
theorem reportCases_get? (junit : Except String XmlElement) (hname : name ≠ "") :
    (reportCases junit).get? name = (casesNamed junit name).getLast? := by
  cases junit with
  | error _ => rfl
  | ok root =>
    show (testcaseMap root).get? name =
      ((root.iter "testcase").filter fun case => case.get? "name" = some name).getLast?
    rw [testcaseMap, Dict.get?_ofList, ← List.getLast?_map, named_cases _ hname]

/-- No testcase is stored without a name. -/
theorem reportCases_nameless (junit : Except String XmlElement) :
    (reportCases junit).get? "" = none := by
  cases junit with
  | error _ => rfl
  | ok root =>
    rw [Option.eq_none_iff_forall_ne_some]
    intro case hcase
    obtain ⟨own, _, hown⟩ := List.mem_filterMap.mp (Dict.mem_ofList (Dict.get?_eq_some.mp hcase))
    obtain ⟨found, _, hfound⟩ := Option.bind_eq_some_iff.mp hown
    split_ifs at hfound with hblank
    exact hblank (congrArg Prod.fst (Option.some.inj hfound))

theorem testResult_pass {case : Option XmlElement} :
    (testResult readers case).status = .pass ↔ ∃ found, case = some found ∧ found.Passed := by
  cases case with
  | none =>
    constructor
    · intro h
      cases h
    · rintro ⟨found, hfound, _⟩
      cases hfound
  | some case =>
    have hpassed : (testResult readers (some case)).status = .pass ↔ case.Passed := by
      unfold testResult
      dsimp only
      split
      · next failure hfailure =>
        refine iff_of_false (fun h => by cases h) fun h => ?_
        rw [h.failure] at hfailure
        cases hfailure
      · next error hfailure herror =>
        refine iff_of_false (fun h => by cases h) fun h => ?_
        rw [h.error] at herror
        cases herror
      · next skipped hfailure herror hskipped =>
        refine iff_of_false (fun h => by cases h) fun h => ?_
        rw [h.skipped] at hskipped
        cases hskipped
      · next hfailure herror hskipped => exact iff_of_true rfl ⟨hfailure, herror, hskipped⟩
    rw [hpassed]
    constructor
    · exact fun h => ⟨case, rfl, h⟩
    · rintro ⟨found, hfound, h⟩
      cases hfound
      exact h

theorem isPass_toMapping {record : EvidenceRecord F} :
    IsPass record.toMapping ↔ record.status = .pass := by
  constructor
  · rintro ⟨members, hmembers, hstatus⟩
    cases hmembers
    have hfound : some (PyValue.str record.status.name) = some (PyValue.str "pass" : PyValue F) :=
      hstatus
    have hname : record.status.name = "pass" := PyValue.str.inj (Option.some.inj hfound)
    revert hname
    cases record.status <;> decide
  · intro h
    refine ⟨_, rfl, ?_⟩
    show some (PyValue.str record.status.name) = _
    rw [h]
    rfl

/-- A control is recorded as passed exactly when its testcase passed, if the report has been read. -/
theorem controlRecord_isPass
    (h : controlRecord readers cases limitation commit control = .ok value) :
    ∃ fields, controlFields readers control = .ok fields ∧
      (IsPass value ↔ ∃ case, cases.get? (testName fields.nodeId) = some case ∧ case.Passed) := by
  obtain ⟨fields, hfields, h⟩ := bind_eq_ok.mp h
  refine ⟨fields, hfields, ?_⟩
  rw [← @testResult_pass F readers]
  dsimp only at h
  split at h
  · next record hrecord =>
    cases Except.ok.inj h
    have hreads := fromMapping_evidence.mp hrecord
    rw [isPass_toMapping]
    have hstatus : record.status = _ :=
      Except.ok.inj (hreads.status.symm.trans (EvidenceRecord.readStatus_name _))
    rw [hstatus]
    cases limitation with
    | none => exact Iff.rfl
    | some text => exact Iff.rfl
  · cases h

/-- The record of one control. -/
theorem honestPass_iff (h : controlRecord readers (reportCases junit) limitation commit control =
    .ok value) : HonestPass readers junit control value ↔ UnmaskedTest readers junit control := by
  obtain ⟨fields, hfields, hpass⟩ := controlRecord_isPass h
  constructor
  · intro hhonest other hother hname last hlast hpassed
    cases Except.ok.inj (hfields.symm.trans hother)
    rw [reportCases_get? junit hname] at hpass
    exact (hhonest (hpass.mpr ⟨last, hlast, hpassed⟩) fields hfields).2
  · intro hunmasked hvalue other hother
    cases Except.ok.inj (hfields.symm.trans hother)
    obtain ⟨case, hcase, hpassed⟩ := hpass.mp hvalue
    have hname : testName fields.nodeId ≠ "" := by
      intro hblank
      rw [hblank, reportCases_nameless] at hcase
      cases hcase
    rw [reportCases_get? junit hname] at hcase
    exact ⟨List.ne_nil_of_mem (List.mem_of_getLast? hcase),
      hunmasked fields hfields hname case hcase hpassed⟩

/-- In every collection each pass stands for testcases that all passed, exactly when no control has
a test whose last testcase passed after one that did not. -/
theorem passes_honest_iff {catalog : PyValue F} {controls records : List (PyValue F)}
    (hcatalog : loadCatalog catalog = .ok controls)
    (hcollect : collectAsvsEvidence readers junit catalog commit =
      .ok (.dict [("schema_version", .str "1.0"), ("records", .list records)])) :
    List.Forall₂ (HonestPass readers junit) controls records ↔
      ∀ control ∈ controls, UnmaskedTest readers junit control := by
  obtain ⟨loaded, hloaded, hcollect⟩ := bind_eq_ok.mp hcollect
  cases Except.ok.inj (hcatalog.symm.trans hloaded)
  obtain ⟨found, hfound, hbundle⟩ := bind_eq_ok.mp hcollect
  cases hbundle
  have hall := Fallible.mapM_eq_ok.mp hfound
  constructor
  · intro hhonest
    have hboth : List.Forall₂ (fun control value => UnmaskedTest readers junit control ∧
        HonestPass readers junit control value) controls records :=
      List.Forall₂.mp (fun _ _ hrecord hpass => ⟨(honestPass_iff hrecord).mp hpass, hpass⟩)
        hall hhonest
    exact ((List.forall₂_and_left _ _).mp hboth).1
  · intro hunmasked
    apply List.forall₂_iff_zip.mpr
    refine ⟨hall.length_eq, fun hpair => ?_⟩
    have hrecord := List.forall₂_zip hall hpair
    exact (honestPass_iff hrecord).mpr (hunmasked _ (List.of_mem_zip hpair).1)

end

/-! One control, with its test in one suite or in two. -/

def anonymousPass : EvidenceRecord Int where
  controlId := "ASPIS-ASVS-AC-001"
  title := "Anonymous requests are refused"
  framework := "OWASP ASVS"
  frameworkIds := ["v5.0.0-8.3.1"]
  target := "bantam-api"
  status := .pass
  severity := .high
  confidence := 1
  sourceEvidence := ["pytest_node_id=tests/test_authorization.py::test_anonymous"]
  executionEvidence := ["pytest_duration_seconds=0.012"]
  counterEvidence := []
  remediation := "Require a session."
  limitations := []
  targetCommit := "0123456789abcdef"
  generatedBy := "security.aspis.tools.asvs_junit"
  validatedBy := "pytest live API integration suite"

def passedCase : XmlElement :=
  .element "testcase" [("name", "test_anonymous"), ("time", "0.012")] none []

theorem anonymousPass_read :
    EvidenceRecord.fromMapping exampleReaders.floats (.dict (evidenceMembers exampleReaders
      exampleFields (testResult exampleReaders (some passedCase)) "0123456789abcdef")) =
      .ok anonymousPass := by
  decide +kernel

/-- The record of the control, in a report whose last testcase of the name is the passed one. -/
theorem example_collected {root : XmlElement}
    (hcase : (testcaseMap root).get? "test_anonymous" = some passedCase) :
    collectAsvsEvidence exampleReaders (.ok root) exampleCatalog "0123456789abcdef" =
      .ok (.dict [("schema_version", .str "1.0"),
        ("records", .list [anonymousPass.toMapping])]) := by
  have hname : testName exampleFields.nodeId = "test_anonymous" := by decide +kernel
  have hrecord : controlRecord exampleReaders (testcaseMap root) none "0123456789abcdef"
      exampleControl = .ok anonymousPass.toMapping := by
    refine bind_eq_ok.mpr ⟨exampleFields, rfl, ?_⟩
    dsimp only
    rw [hname, hcase, anonymousPass_read]
    rfl
  refine bind_eq_ok.mpr ⟨[exampleControl], rfl, bind_eq_ok.mpr ⟨[anonymousPass.toMapping], ?_, rfl⟩⟩
  exact Fallible.mapM_eq_ok.mpr (.cons hrecord .nil)

theorem single_suite_honest :
    List.Forall₂ (HonestPass exampleReaders (.ok (exampleReport []))) [exampleControl]
      [anonymousPass.toMapping] := by
  apply (passes_honest_iff rfl (example_collected rfl)).mpr
  intro control hcontrol fields hfields _ last _ _ case hcase
  rw [List.mem_singleton.mp hcontrol] at hfields
  cases hfields
  cases List.mem_singleton.mp hcase
  exact ⟨rfl, rfl, rfl⟩

/-- The test failed in the first suite, and one of the same name passed in the second. -/
def repeatedReport : XmlElement :=
  .element "testsuites" [] none [exampleReport [.element "failure" [] none []], exampleReport []]

theorem failure_masked :
    collectAsvsEvidence exampleReaders (.ok repeatedReport) exampleCatalog "0123456789abcdef" =
      .ok (.dict [("schema_version", .str "1.0"),
        ("records", .list [anonymousPass.toMapping])]) ∧
    ¬ List.Forall₂ (HonestPass exampleReaders (.ok repeatedReport)) [exampleControl]
      [anonymousPass.toMapping] := by
  refine ⟨example_collected rfl, fun hhonest => ?_⟩
  cases hhonest with
  | cons hpass _ =>
    obtain ⟨_, hall⟩ := hpass (isPass_toMapping.mpr rfl) exampleFields rfl
    have hfailure := (hall _ List.mem_cons_self).failure
    cases hfailure

end Bantam.Aspis
