import Bantam.Evidence
import Mathlib.Data.List.TakeWhile

/-! Evidence from the report of a test run: every control of the catalogue is mapped to a testcase,
and the outcome of the testcase to a record. -/
namespace Bantam.Aspis

/-! Reports. -/

/-- An element of a parsed report: its tag, its attributes, the text before its first child, and
its children. -/
inductive XmlElement where
  | element (tag : String) (attributes : List (String × String)) (text : Option String)
      (children : List XmlElement)

namespace XmlElement

def tag : XmlElement → String
  | .element tag _ _ _ => tag

/-- `element.get(name)` -/
def get? (name : String) : XmlElement → Option String
  | .element _ attributes _ _ => attributes.lookup name

/-- `element.text or ""` -/
def textOf : XmlElement → String
  | .element _ _ text _ => text.getD ""

/-- `element.find(tag)`: the first child with the tag. -/
def find (tag : String) : XmlElement → Option XmlElement
  | .element _ _ _ children => children.find? fun child => child.tag = tag

mutual
/-- `element.iter(tag)`, in the order of the document. -/
def iter (tag : String) : XmlElement → List XmlElement
  | .element own attributes text children =>
    if own = tag then .element own attributes text children :: iterAll tag children
    else iterAll tag children

def iterAll (tag : String) : List XmlElement → List XmlElement
  | [] => []
  | child :: rest => iter tag child ++ iterAll tag rest
end

end XmlElement

/-- How the collection ends without a bundle. -/
inductive CollectError where
  | evidence (error : EvidenceError)
  | key (name : String)
  | type
deriving DecidableEq, Repr

abbrev Collect := Except CollectError

/-- What the collection rests on: the hash of a text, in 64 hexadecimal digits, what `str` makes of
a value that is no string, and the floating point numbers. -/
structure CollectReaders (F : Type) where
  sha256 : String → String
  length_sha256 : ∀ s, (sha256 s).length = 64
  rendered : PyValue F → String
  floats : UnitFloats F

/-! Testcases. -/

/-- `_testcase_map` -/
def testcaseMap (root : XmlElement) : Dict String XmlElement :=
  Dict.ofList ((root.iter "testcase").filterMap fun case =>
    (case.get? "name").bind fun name => if name = "" then none else some (name, case))

/-- What an outcome is recorded as. -/
structure TestResult where
  status : EvidenceStatus
  execution : List String
  counter : List String
  limitations : List String
deriving DecidableEq, Repr

section
variable {F : Type} (readers : CollectReaders F)

/-- The hash of what a failure or an error says. -/
def outcomeSha256 (outcome : XmlElement) : String :=
  readers.sha256 (Text.strip ((outcome.get? "message").getD "" ++ "\n" ++ outcome.textOf))

def durationEvidence (case : XmlElement) : String :=
  "pytest_duration_seconds=" ++ (case.get? "time").getD "unknown"

/-- `reason[:240]` -/
def skipReason (skipped : XmlElement) : String :=
  String.ofList (((skipped.get? "message").getD "pytest skipped the mapped control test").toList.take
    240)

/-- `_result` -/
def testResult : Option XmlElement → TestResult
  | none => ⟨.error, [], [], ["mapped pytest test is absent from JUnit evidence"]⟩
  | some case =>
    match case.find "failure", case.find "error", case.find "skipped" with
    | some failure, _, _ =>
      ⟨.fail, [durationEvidence case],
        ["pytest_failure_sha256=" ++ outcomeSha256 readers failure], []⟩
    | none, some error, _ =>
      ⟨.error, [durationEvidence case],
        ["pytest_error_sha256=" ++ outcomeSha256 readers error],
        ["pytest could not complete the mapped control test"]⟩
    | none, none, some skipped => ⟨.inconclusive, [durationEvidence case], [], [skipReason skipped]⟩
    | none, none, none => ⟨.pass, [durationEvidence case], [], []⟩

/-! Controls. -/

/-- `value[name]` -/
def PyValue.subscript (name : String) : PyValue F → Collect (PyValue F)
  | .dict members =>
    match members.lookup name with
    | .some value => .ok value
    | .none => .error (.key name)
  | _ => .error .type

/-- `str(value)` -/
def CollectReaders.text (readers : CollectReaders F) : PyValue F → String
  | .str s => s
  | value => readers.rendered value

/-- What follows the last `::`, or the whole text. -/
def afterColons : List Char → Option (List Char)
  | [] => none
  | c :: rest =>
    match afterColons rest with
    | some found => some found
    | none => if c = ':' ∧ rest.head? = some ':' then some rest.tail else none

/-- `node_id.rsplit("::", 1)[-1]` -/
def testName (nodeId : String) : String :=
  String.ofList ((afterColons nodeId.toList).getD nodeId.toList)

/-- `_load_catalog`, of the parsed document. -/
def loadCatalog (document : PyValue F) : Collect (List (PyValue F)) :=
  match document with
  | .dict members =>
    match members.lookup "schema_version" with
    | some (.str "1.0") =>
      match members.lookup "controls" with
      | some (.list (control :: rest)) => .ok (control :: rest)
      | _ => .error (.evidence (.value "ASVS control catalog must contain controls"))
    | _ => .error (.evidence (.value "unsupported ASVS control catalog"))
  | _ => .error (.evidence (.value "unsupported ASVS control catalog"))

/-- The fields of a control that its record takes over. -/
structure ControlFields (F : Type) where
  nodeId : String
  controlId : PyValue F
  title : PyValue F
  frameworkIds : PyValue F
  severity : PyValue F
  remediation : PyValue F

def controlFields (control : PyValue F) : Collect (ControlFields F) := do
  let nodeId ← control.subscript "pytest_node_id"
  let controlId ← control.subscript "control_id"
  let title ← control.subscript "title"
  let frameworkIds ← control.subscript "framework_ids"
  let severity ← control.subscript "severity"
  let remediation ← control.subscript "remediation"
  pure ⟨readers.text nodeId, controlId, title, frameworkIds, severity, remediation⟩

/-- The mapping that a record is read from. -/
def evidenceMembers (fields : ControlFields F) (result : TestResult) (targetCommit : String) :
    List (String × PyValue F) :=
  [("control_id", fields.controlId), ("title", fields.title), ("framework", .str "OWASP ASVS"),
    ("framework_ids", fields.frameworkIds), ("target", .str "bantam-api"),
    ("status", .str result.status.name), ("severity", fields.severity),
    ("confidence", .float (if result.status = .pass ∨ result.status = .fail then readers.floats.one
      else readers.floats.zero)),
    ("source_evidence", EvidenceRecord.listValue ["pytest_node_id=" ++ fields.nodeId]),
    ("execution_evidence", EvidenceRecord.listValue result.execution),
    ("counter_evidence", EvidenceRecord.listValue result.counter),
    ("remediation", fields.remediation),
    ("limitations", EvidenceRecord.listValue result.limitations),
    ("target_commit", .str targetCommit),
    ("generated_by", .str "security.aspis.tools.asvs_junit"),
    ("validated_by", .str "pytest live API integration suite")]

/-- The record of one control. -/
def controlRecord (cases : Dict String XmlElement) (limitation : Option String)
    (targetCommit : String) (control : PyValue F) : Collect (PyValue F) := do
  let fields ← controlFields readers control
  let outcome := testResult readers (cases.get? (testName fields.nodeId))
  let result := match limitation with
    | some limitation => { outcome with limitations := [limitation] }
    | none => outcome
  match EvidenceRecord.fromMapping readers.floats
      (.dict (evidenceMembers readers fields result targetCommit)) with
  | .ok record => pure record.toMapping
  | .error error => .error (.evidence error)

def reportCases : Except String XmlElement → Dict String XmlElement
  | .ok root => testcaseMap root
  | .error _ => Dict.empty

/-- `collection_limitation` -/
def reportLimitation : Except String XmlElement → Option String
  | .ok _ => none
  | .error name => some ("JUnit evidence was unavailable or malformed (" ++ name ++ ")")

/-- `collect_asvs_evidence`, of the parsed report or the name of the error that there was. -/
def collectAsvsEvidence (junit : Except String XmlElement) (catalog : PyValue F)
    (targetCommit : String) : Collect (PyValue F) := do
  let controls ← loadCatalog catalog
  let records ← controls.mapM
    (controlRecord readers (reportCases junit) (reportLimitation junit) targetCommit)
  pure (.dict [("schema_version", .str "1.0"), ("records", .list records)])

end

/-! Lists of one text. -/

section
variable {F : Type} {s field : String} {required : Bool}

theorem length_strip_le (s : String) : (Text.strip s).length ≤ s.length := by
  have hright := (List.dropWhile_sublist Text.isSpace
    (l := (s.toList.dropWhile Text.isSpace).reverse)).length_le
  have hleft := (List.dropWhile_sublist Text.isSpace (l := s.toList)).length_le
  rw [List.length_reverse] at hright
  rw [Text.strip, String.length_ofList, Text.stripChars, List.length_reverse, ← String.length_toList]
  exact Nat.le_trans hright hleft

/-- A text with a character at its start that is no blank is not blank. -/
theorem strip_ne_empty {c : Char} (hhead : s.toList.head? = some c) (hc : Text.isSpace c = false) :
    Text.strip s ≠ "" := by
  intro hblank
  have hnil : Text.stripChars s.toList = [] := by
    have hlist := congrArg String.toList hblank
    rwa [Text.strip, String.toList_ofList] at hlist
  have hleft : s.toList.dropWhile Text.isSpace = s.toList := by
    apply Text.dropWhile_of_head
    intro d hd
    cases Option.some.inj (hhead.symm.trans hd)
    exact hc
  rw [Text.stripChars, hleft, List.reverse_eq_nil_iff, List.dropWhile_eq_nil_iff] at hnil
  have hspace := hnil c (List.mem_reverse.mpr (List.mem_of_mem_head? hhead))
  rw [hc] at hspace
  cases hspace

/-- A list of one text is read unless the text is too long, or blank where one is required. -/
theorem stringList_singleton :
    (∃ items, EvidenceRecord.stringList (EvidenceRecord.listValue [s] : PyValue F) field required =
      .ok items) ↔
      (Text.strip s).length ≤ maxStringLength ∧ (required = true → Text.strip s ≠ "") := by
  have hread : EvidenceRecord.stringList (EvidenceRecord.listValue [s] : PyValue F) field required =
      if (EvidenceRecord.normalised [s]).any fun item => maxStringLength < item.length then
        invalid (field ++ " contains an oversized value")
      else if (EvidenceRecord.normalised [s]).dedup.length ≠
          (EvidenceRecord.normalised [s]).length then
        invalid (field ++ " must not contain duplicate values")
      else if required && (EvidenceRecord.normalised [s]).isEmpty then
        invalid (field ++ " must contain at least one value")
      else .ok (EvidenceRecord.normalised [s]) := by
    have hcount : ¬maxListItems < [s].length := by
      rw [List.length_singleton]
      decide
    unfold EvidenceRecord.stringList EvidenceRecord.listValue
    dsimp only
    rw [EvidenceRecord.texts_map]
    dsimp only
    rw [if_neg hcount]
  rw [hread]
  by_cases hblank : Text.strip s = ""
  · have hnone : EvidenceRecord.normalised [s] = [] := by
      simp [EvidenceRecord.normalised, hblank]
    rw [hnone, hblank]
    cases required with
    | true => simp [invalid]
    | false => simp
  · have hone : EvidenceRecord.normalised [s] = [Text.strip s] := by
      simp [EvidenceRecord.normalised, hblank]
    rw [hone]
    by_cases hlong : maxStringLength < (Text.strip s).length
    · simp [invalid, hlong, Nat.not_le.mpr hlong]
    · simp [hlong, hblank, Nat.not_lt.mp hlong]

/-! What a testcase has to keep to. -/

/-- The duration fits into a record, and a testcase that was skipped gives a reason that is not
blank. -/
structure TestcaseFits (case : XmlElement) : Prop where
  duration : (Text.strip (durationEvidence case)).length ≤ maxStringLength
  reason : case.find "failure" = none → case.find "error" = none →
    ∀ skipped, case.find "skipped" = some skipped → Text.strip (skipReason skipped) ≠ ""

/-- The lists of an outcome can be read. -/
structure ResultReads (F : Type) (result : TestResult) : Prop where
  execution : ∃ items, EvidenceRecord.stringList
    (EvidenceRecord.listValue result.execution : PyValue F) "execution_evidence"
    (result.status = .pass) = .ok items
  counter : ∃ items, EvidenceRecord.stringList
    (EvidenceRecord.listValue result.counter : PyValue F) "counter_evidence"
    (result.status = .fail) = .ok items
  limitations : ∃ items, EvidenceRecord.stringList
    (EvidenceRecord.listValue result.limitations : PyValue F) "limitations"
    (result.status = .inconclusive || result.status = .error) = .ok items

theorem label_not_blank {label : String} {c : Char} (hhead : label.toList.head? = some c)
    (hc : Text.isSpace c = false) (rest : String) : Text.strip (label ++ rest) ≠ "" := by
  refine strip_ne_empty ?_ hc
  rw [String.toList_append, List.head?_append, hhead]
  rfl

theorem duration_not_blank (case : XmlElement) : Text.strip (durationEvidence case) ≠ "" := by
  have hhead : "pytest_duration_seconds=".toList.head? = some 'p' := by decide
  exact label_not_blank hhead (by decide) _

theorem length_skipReason (skipped : XmlElement) : (skipReason skipped).length ≤ 240 := by
  rw [skipReason, String.length_ofList]
  exact List.length_take_le _ _

/-- A short label and a hash after it are read as evidence. -/
theorem hash_reads (readers : CollectReaders F) {label : String} {c : Char} (outcome : XmlElement)
    (hhead : label.toList.head? = some c) (hc : Text.isSpace c = false)
    (hshort : label.length ≤ 4000) :
    ∃ items, EvidenceRecord.stringList
      (EvidenceRecord.listValue [label ++ outcomeSha256 readers outcome] : PyValue F) field required =
      .ok items := by
  rw [stringList_singleton]
  refine ⟨?_, fun _ => label_not_blank hhead hc _⟩
  refine Nat.le_trans (length_strip_le _) ?_
  rw [String.length_append, outcomeSha256, readers.length_sha256]
  have hmax : maxStringLength = 4096 := rfl
  omega

/-- The sentences of the collector are short and not blank. -/
theorem sentence_reads : ∀ sentence ∈ ["mapped pytest test is absent from JUnit evidence",
    "pytest could not complete the mapped control test"],
    ∃ items, EvidenceRecord.stringList (EvidenceRecord.listValue [sentence] : PyValue F) field
      required = .ok items := by
  have hplain : ∀ sentence ∈ ["mapped pytest test is absent from JUnit evidence",
      "pytest could not complete the mapped control test"],
      (Text.strip sentence).length ≤ maxStringLength ∧ Text.strip sentence ≠ "" := by
    decide +kernel
  intro sentence hsentence
  obtain ⟨hshort, hfilled⟩ := hplain sentence hsentence
  exact stringList_singleton.mpr ⟨hshort, fun _ => hfilled⟩

theorem testResult_none (readers : CollectReaders F) : ResultReads F (testResult readers none) where
  execution := ⟨[], rfl⟩
  counter := ⟨[], rfl⟩
  limitations := sentence_reads _ (by simp)

/-- The outcome of a testcase can be read exactly when the testcase fits. -/
theorem testResult_reads (readers : CollectReaders F) (case : XmlElement) :
    ResultReads F (testResult readers (some case)) ↔ TestcaseFits case := by
  have hduration := duration_not_blank case
  unfold testResult
  dsimp only
  split
  · next failure hfailure =>
    constructor
    · intro h
      exact ⟨(stringList_singleton.mp h.execution).1, fun hnone => absurd hnone (by simp [hfailure])⟩
    · intro h
      exact ⟨stringList_singleton.mpr ⟨h.duration, fun _ => hduration⟩,
        hash_reads readers failure (c := 'p') (by decide) (by decide) (by decide), ⟨[], rfl⟩⟩
  · next error hfailure herror =>
    constructor
    · intro h
      exact ⟨(stringList_singleton.mp h.execution).1, fun _ hnone => absurd hnone (by simp [herror])⟩
    · intro h
      exact ⟨stringList_singleton.mpr ⟨h.duration, fun _ => hduration⟩,
        hash_reads readers error (c := 'p') (by decide) (by decide) (by decide),
        sentence_reads _ (by simp)⟩
  · next skipped hfailure herror hskipped =>
    constructor
    · intro h
      refine ⟨(stringList_singleton.mp h.execution).1, fun _ _ other hother => ?_⟩
      cases Option.some.inj (hskipped.symm.trans hother)
      exact (stringList_singleton.mp h.limitations).2 rfl
    · intro h
      refine ⟨stringList_singleton.mpr ⟨h.duration, fun _ => hduration⟩, ⟨[], rfl⟩,
        stringList_singleton.mpr ⟨?_, fun _ => h.reason hfailure herror skipped hskipped⟩⟩
      have hmax : maxStringLength = 4096 := rfl
      have hreason := length_skipReason skipped
      have hstrip := length_strip_le (skipReason skipped)
      omega
  · next hfailure herror hskipped =>
    constructor
    · intro h
      exact ⟨(stringList_singleton.mp h.execution).1,
        fun _ _ other hother => absurd hother (by simp [hskipped])⟩
    · intro h
      exact ⟨stringList_singleton.mpr ⟨h.duration, fun _ => hduration⟩, ⟨[], rfl⟩, ⟨[], rfl⟩⟩

/-! Records. -/

/-- A control whose own fields pass the checks of a record. -/
structure ValidFields (fields : ControlFields F) : Prop where
  controlId : ∃ s, EvidenceRecord.readControlId fields.controlId = .ok s
  title : ∃ s, EvidenceRecord.nonEmptyString fields.title "title" = .ok s
  frameworkIds : ∃ items, EvidenceRecord.stringList fields.frameworkIds "framework_ids" true =
    .ok items
  severity : ∃ severity, EvidenceRecord.readSeverity fields.severity = .ok severity
  remediation : ∃ s, EvidenceRecord.optionalString fields.remediation "remediation" = .ok s
  nodeId : (Text.strip ("pytest_node_id=" ++ fields.nodeId)).length ≤ maxStringLength

/-- A commit that a record can name. -/
structure NamedCommit (commit : String) : Prop where
  filled : Text.strip commit ≠ ""
  short : (Text.strip commit).length ≤ maxStringLength

variable {readers : CollectReaders F} {fields : ControlFields F} {result : TestResult}
  {commit : String} {record : EvidenceRecord F}

theorem namedCommit_iff : NamedCommit commit ↔
    ∃ s, EvidenceRecord.nonEmptyString (.str commit : PyValue F) "target_commit" = .ok s := by
  unfold EvidenceRecord.nonEmptyString
  dsimp only
  constructor
  · intro h
    rw [if_neg h.filled, if_neg (Nat.not_lt.mpr h.short)]
    exact ⟨_, rfl⟩
  · rintro ⟨s, hs⟩
    split at hs
    · cases hs
    · next hfilled =>
      split at hs
      · cases hs
      · next hshort => exact ⟨hfilled, Nat.not_lt.mp hshort⟩

theorem fromMapping_evidence :
    EvidenceRecord.fromMapping readers.floats
      (.dict (evidenceMembers readers fields result commit)) = .ok record ↔
      EvidenceRecord.ReadsAs readers.floats
        (EvidenceRecord.fieldOf (evidenceMembers readers fields result commit)) record := by
  constructor
  · intro h
    obtain ⟨_, _, h⟩ := bind_eq_ok.mp h
    exact EvidenceRecord.readFields_iff.mp h
  · intro h
    exact bind_eq_ok.mpr
      ⟨(), EvidenceRecord.checkFields_recordFields, EvidenceRecord.readFields_iff.mpr h⟩

/-- The confidence in an outcome is zero or one. -/
theorem confidence_reads (status : EvidenceStatus) :
    EvidenceRecord.readConfidence readers.floats (.float (if status = .pass ∨ status = .fail
      then readers.floats.one else readers.floats.zero)) =
      .ok (if status = .pass ∨ status = .fail then readers.floats.one else readers.floats.zero) := by
  apply if_pos
  split
  · rw [readers.floats.zero_le_one, readers.floats.one_le_one, Bool.and_self]
  · rw [readers.floats.zero_le_zero, readers.floats.zero_le_one, Bool.and_self]

/-- The constant fields of a record. -/
theorem constant_reads : ∀ s ∈ ["OWASP ASVS", "bantam-api", "security.aspis.tools.asvs_junit",
    "pytest live API integration suite"],
    EvidenceRecord.nonEmptyString (.str s : PyValue F) field = .ok s := by
  have htrimmed : ∀ s ∈ ["OWASP ASVS", "bantam-api", "security.aspis.tools.asvs_junit",
      "pytest live API integration suite"],
      (Text.strip s = s ∧ s.length ≤ maxStringLength) ∧ s ≠ "" := by
    decide +kernel
  intro s hs
  obtain ⟨⟨hstripped, hshort⟩, hfilled⟩ := htrimmed s hs
  exact EvidenceRecord.nonEmptyString_trimmed ⟨⟨hstripped, hshort⟩, hfilled⟩

/-- The mapping of a valid control is read when the commit has a name and the outcome can be read. -/
theorem evidence_reads (readers : CollectReaders F) (hfields : ValidFields fields) :
    (∃ record, EvidenceRecord.fromMapping readers.floats
      (.dict (evidenceMembers readers fields result commit)) = .ok record) ↔
      NamedCommit commit ∧ ResultReads F result := by
  constructor
  · rintro ⟨record, h⟩
    have hreads := fromMapping_evidence.mp h
    have hstatus : record.status = result.status :=
      Except.ok.inj (hreads.status.symm.trans (EvidenceRecord.readStatus_name result.status))
    have hexecution := hreads.execution
    have hcounter := hreads.counter
    have hlimitations := hreads.limitations
    rw [hstatus] at hexecution hcounter hlimitations
    exact ⟨namedCommit_iff.mpr ⟨_, hreads.targetCommit⟩, ⟨_, hexecution⟩, ⟨_, hcounter⟩,
      ⟨_, hlimitations⟩⟩
  · rintro ⟨hcommit, hresult⟩
    obtain ⟨controlId, hcontrolId⟩ := hfields.controlId
    obtain ⟨title, htitle⟩ := hfields.title
    obtain ⟨frameworkIds, hframeworkIds⟩ := hfields.frameworkIds
    obtain ⟨severity, hseverity⟩ := hfields.severity
    obtain ⟨remediation, hremediation⟩ := hfields.remediation
    obtain ⟨targetCommit, htargetCommit⟩ := (namedCommit_iff (F := F)).mp hcommit
    obtain ⟨execution, hexecution⟩ := hresult.execution
    obtain ⟨counter, hcounter⟩ := hresult.counter
    obtain ⟨limitations, hlimitations⟩ := hresult.limitations
    have hlabel : "pytest_node_id=".toList.head? = some 'p' := by decide
    have hnodeId : ∃ items, EvidenceRecord.stringList (EvidenceRecord.listValue
        ["pytest_node_id=" ++ fields.nodeId] : PyValue F) "source_evidence" true = .ok items :=
      stringList_singleton.mpr ⟨hfields.nodeId, fun _ => label_not_blank hlabel (by decide) _⟩
    obtain ⟨source, hsource⟩ := hnodeId
    let confidence := if result.status = .pass ∨ result.status = .fail then readers.floats.one
      else readers.floats.zero
    refine ⟨⟨controlId, title, "OWASP ASVS", frameworkIds, "bantam-api", result.status, severity,
      confidence, source, execution, counter, remediation, limitations, targetCommit,
      "security.aspis.tools.asvs_junit", "pytest live API integration suite"⟩,
      fromMapping_evidence.mpr ?_⟩
    exact ⟨hcontrolId, EvidenceRecord.readStatus_name _, hseverity, confidence_reads result.status,
      hexecution, hcounter, hlimitations, htitle, constant_reads _ (by simp), hframeworkIds,
      constant_reads _ (by simp), hsource, hremediation, htargetCommit,
      constant_reads _ (by simp), constant_reads _ (by simp)⟩

/-! The collection. -/

/-- A control is an object with the fields that its record takes over, and these pass. -/
def ValidControl (readers : CollectReaders F) (control : PyValue F) : Prop :=
  ∃ fields, controlFields readers control = .ok fields ∧ ValidFields fields

/-- A record of a control, which the boundary accepts. -/
def RecordOf (readers : CollectReaders F) (control value : PyValue F) : Prop :=
  ∃ fields record, controlFields readers control = .ok fields ∧
    EvidenceRecord.fromMapping readers.floats value = .ok record ∧
    EvidenceRecord.readControlId fields.controlId = .ok record.controlId

/-- The testcase that a control is mapped to, if there is one, fits. -/
def MappedFits (readers : CollectReaders F) (root : XmlElement) (control : PyValue F) : Prop :=
  ∀ fields, controlFields readers control = .ok fields →
    ∀ case, (testcaseMap root).get? (testName fields.nodeId) = some case → TestcaseFits case

/-- One record for every control, each accepted by the boundary. -/
def CollectsAll (readers : CollectReaders F) (root : XmlElement) (catalog : PyValue F)
    (commit : String) : Prop :=
  ∃ controls records, loadCatalog catalog = .ok controls ∧
    collectAsvsEvidence readers (.ok root) catalog commit =
      .ok (.dict [("schema_version", .str "1.0"), ("records", .list records)]) ∧
    List.Forall₂ (RecordOf readers) controls records

variable {root : XmlElement} {control value : PyValue F}

theorem controlRecord_recordOf {cases : Dict String XmlElement} {limitation : Option String}
    (h : controlRecord readers cases limitation commit control = .ok value) :
    RecordOf readers control value := by
  obtain ⟨fields, hfields, h⟩ := bind_eq_ok.mp h
  dsimp only at h
  split at h
  · next record hrecord =>
    cases Except.ok.inj h
    have hreads := fromMapping_evidence.mp hrecord
    exact ⟨fields, record, hfields,
      EvidenceRecord.fromMapping_toMapping (EvidenceRecord.fromMapping_sound hrecord),
      hreads.controlId⟩
  · cases h

/-- A valid control has a record when the commit has a name and its testcase fits. -/
theorem controlRecord_ok (hcontrol : ValidControl readers control) :
    (∃ value, controlRecord readers (testcaseMap root) none commit control = .ok value) ↔
      NamedCommit commit ∧ MappedFits readers root control := by
  obtain ⟨fields, hfields, hvalid⟩ := hcontrol
  have hmapped : MappedFits readers root control ↔
      ResultReads F (testResult readers ((testcaseMap root).get? (testName fields.nodeId))) := by
    cases hcase : (testcaseMap root).get? (testName fields.nodeId) with
    | none =>
      refine iff_of_true ?_ (testResult_none readers)
      intro other hother case hfound
      cases Except.ok.inj (hfields.symm.trans hother)
      exact absurd (hcase.symm.trans hfound) (Option.some_ne_none case).symm
    | some case =>
      rw [testResult_reads]
      constructor
      · intro h
        exact h fields hfields case hcase
      · intro h other hother found hfound
        cases Except.ok.inj (hfields.symm.trans hother)
        cases Option.some.inj (hcase.symm.trans hfound)
        exact h
  rw [hmapped, ← evidence_reads readers hvalid, controlRecord, hfields]
  constructor
  · rintro ⟨value, h⟩
    dsimp only [bind, Except.bind] at h
    split at h
    · next record hrecord => exact ⟨record, hrecord⟩
    · cases h
  · rintro ⟨record, h⟩
    refine ⟨record.toMapping, ?_⟩
    dsimp only [bind, Except.bind]
    rw [h]
    rfl

theorem loadCatalog_ne_nil {catalog : PyValue F} {controls : List (PyValue F)}
    (h : loadCatalog catalog = .ok controls) : controls ≠ [] := by
  unfold loadCatalog at h
  split at h
  · split at h
    · split at h
      · cases h
        exact List.cons_ne_nil _ _
      · cases h
    · cases h
  · cases h

/-- With valid controls the collection gives one record for each exactly when the commit has a name
and every mapped testcase fits. -/
theorem junit_evidence_total {catalog : PyValue F} {controls : List (PyValue F)}
    (hcatalog : loadCatalog catalog = .ok controls)
    (hvalid : ∀ control ∈ controls, ValidControl readers control) :
    CollectsAll readers root catalog commit ↔
      NamedCommit commit ∧ ∀ control ∈ controls, MappedFits readers root control := by
  have hcollect : ∀ records : List (PyValue F),
      controls.mapM (controlRecord readers (testcaseMap root) none commit) = .ok records →
      collectAsvsEvidence readers (.ok root) catalog commit =
        .ok (.dict [("schema_version", .str "1.0"), ("records", .list records)]) := by
    intro records hrecords
    exact bind_eq_ok.mpr ⟨controls, hcatalog, bind_eq_ok.mpr ⟨records, hrecords, rfl⟩⟩
  constructor
  · rintro ⟨_, records, _, hdone, _⟩
    obtain ⟨loaded, hloaded, hdone⟩ := bind_eq_ok.mp hdone
    cases Except.ok.inj (hcatalog.symm.trans hloaded)
    obtain ⟨found, hfound, _⟩ := bind_eq_ok.mp hdone
    have hall := Fallible.exists_mapM_ok.mp ⟨found, hfound⟩
    have hfits : ∀ control ∈ controls, NamedCommit commit ∧ MappedFits readers root control :=
      fun control hcontrol => (controlRecord_ok (hvalid control hcontrol)).mp (hall control hcontrol)
    obtain ⟨first, rest, hfirst⟩ := List.exists_cons_of_ne_nil (loadCatalog_ne_nil hcatalog)
    exact ⟨(hfits first (by rw [hfirst]; exact List.mem_cons_self)).1,
      fun control hcontrol => (hfits control hcontrol).2⟩
  · rintro ⟨hcommit, hfits⟩
    have hall : ∀ control ∈ controls, ∃ value,
        controlRecord readers (testcaseMap root) none commit control = .ok value :=
      fun control hcontrol =>
        (controlRecord_ok (hvalid control hcontrol)).mpr ⟨hcommit, hfits control hcontrol⟩
    obtain ⟨records, hrecords⟩ := Fallible.exists_mapM_ok.mpr hall
    exact ⟨controls, records, hcatalog, hcollect records hrecords,
      (Fallible.mapM_eq_ok.mp hrecords).imp fun _ _ h => controlRecord_recordOf h⟩

end

/-! A control on anonymous requests. -/

def exampleReaders : CollectReaders Int where
  sha256 _ := String.ofList (List.replicate 64 '0')
  length_sha256 _ := by rw [String.length_ofList, List.length_replicate]
  rendered _ := ""
  floats := EvidenceRecord.wholeUnit

def exampleControl : PyValue Int :=
  .dict [("control_id", .str "ASPIS-ASVS-AC-001"), ("title", .str "Anonymous requests are refused"),
    ("framework_ids", EvidenceRecord.listValue ["v5.0.0-8.3.1"]), ("severity", .str "high"),
    ("remediation", .str "Require a session."),
    ("pytest_node_id", .str "tests/test_authorization.py::test_anonymous")]

def exampleCatalog : PyValue Int :=
  .dict [("schema_version", .str "1.0"), ("controls", .list [exampleControl])]

/-- A report with one testcase, and the children of that. -/
def exampleReport (children : List XmlElement) : XmlElement :=
  .element "testsuite" [] none
    [.element "testcase" [("name", "test_anonymous"), ("time", "0.012")] none children]

def exampleFields : ControlFields Int where
  nodeId := "tests/test_authorization.py::test_anonymous"
  controlId := .str "ASPIS-ASVS-AC-001"
  title := .str "Anonymous requests are refused"
  frameworkIds := EvidenceRecord.listValue ["v5.0.0-8.3.1"]
  severity := .str "high"
  remediation := .str "Require a session."

theorem exampleControl_valid : ValidControl exampleReaders exampleControl := by
  refine ⟨exampleFields, rfl, ?_⟩
  constructor
  · exact ⟨"ASPIS-ASVS-AC-001", by decide +kernel⟩
  · exact ⟨"Anonymous requests are refused", by decide +kernel⟩
  · exact ⟨["v5.0.0-8.3.1"], by decide +kernel⟩
  · exact ⟨.high, by decide +kernel⟩
  · exact ⟨"Require a session.", by decide +kernel⟩
  · decide +kernel

theorem exampleCommit_named : NamedCommit "0123456789abcdef" := by
  constructor
  · decide +kernel
  · decide +kernel

theorem exampleCatalog_valid : ∀ control ∈ [exampleControl], ValidControl exampleReaders control := by
  intro control hcontrol
  rw [List.mem_singleton.mp hcontrol]
  exact exampleControl_valid

theorem junit_evidence_passed :
    CollectsAll exampleReaders (exampleReport []) exampleCatalog "0123456789abcdef" := by
  apply (junit_evidence_total rfl exampleCatalog_valid).mpr
  refine ⟨exampleCommit_named, ?_⟩
  intro control hcontrol fields hfields case hcase
  rw [List.mem_singleton.mp hcontrol] at hfields
  cases hfields
  cases hcase
  constructor
  · decide +kernel
  · intro _ _ skipped hskipped
    cases hskipped

/-- A testcase that was skipped for a blank reason ends the whole collection. -/
theorem blank_reason_raises :
    ValidControl exampleReaders exampleControl ∧ NamedCommit "0123456789abcdef" ∧
    ¬ CollectsAll exampleReaders (exampleReport [.element "skipped" [("message", "")] none []])
      exampleCatalog "0123456789abcdef" := by
  refine ⟨exampleControl_valid, exampleCommit_named, ?_⟩
  rintro ⟨controls, records, _, hdone, _⟩
  have hraised : collectAsvsEvidence exampleReaders
      (.ok (exampleReport [.element "skipped" [("message", "")] none []])) exampleCatalog
      "0123456789abcdef" =
      .error (.evidence (.value "limitations must contain at least one value")) := rfl
  rw [hraised] at hdone
  cases hdone

end Bantam.Aspis
