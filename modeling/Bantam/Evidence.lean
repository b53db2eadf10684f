import Bantam.Domain
import Bantam.Lib.Containers
import Bantam.Lib.Text

/-! Normalised evidence: the boundary that every record crosses before a report is made. -/
namespace Bantam.Aspis

/-- A value as Python has it, with the floating point numbers apart. -/
inductive PyValue (F : Type) where
  | none
  | bool (b : Bool)
  | int (n : Int)
  | float (x : F)
  | str (s : String)
  | list (items : List (PyValue F))
  | dict (members : List (String × PyValue F))

/-- The floating point numbers from zero to one. -/
structure UnitFloats (F : Type) where
  /-- `float(n)`; none for an integer that is too large. -/
  ofInt : Int → Option F
  zero : F
  one : F
  le : F → F → Bool
  zero_le_zero : le zero zero = true
  zero_le_one : le zero one = true
  one_le_one : le one one = true

/-- How the reading of a record ends without one. -/
inductive EvidenceError where
  | value (message : String)
  | overflow
deriving DecidableEq, Repr

abbrev EvidenceRead := Except EvidenceError

/-- `raise ValueError(message)` -/
def invalid {α : Type} (message : String) : EvidenceRead α := .error (.value message)

/-! Statuses and severities. -/

inductive EvidenceStatus where
  | pass
  | fail
  | inconclusive
  | error
deriving DecidableEq, Repr

def EvidenceStatus.name : EvidenceStatus → String
  | .pass => "pass"
  | .fail => "fail"
  | .inconclusive => "inconclusive"
  | .error => "error"

/-- `VALID_STATUSES` -/
def validStatuses : List EvidenceStatus := [.pass, .fail, .inconclusive, .error]

inductive EvidenceSeverity where
  | info
  | low
  | medium
  | high
  | critical
deriving DecidableEq, Repr

def EvidenceSeverity.name : EvidenceSeverity → String
  | .info => "info"
  | .low => "low"
  | .medium => "medium"
  | .high => "high"
  | .critical => "critical"

/-- `VALID_SEVERITIES` -/
def validSeverities : List EvidenceSeverity := [.info, .low, .medium, .high, .critical]

/-- `RECORD_FIELDS` -/
def recordFields : List String :=
  ["control_id", "title", "framework", "framework_ids", "target", "status", "severity",
    "confidence", "source_evidence", "execution_evidence", "counter_evidence", "remediation",
    "limitations", "target_commit", "generated_by", "validated_by"]

def maxStringLength : Nat := 4096

def maxListItems : Nat := 100

/-- `CONTROL_ID_PATTERN.fullmatch` -/
def isControlId (s : String) : Bool :=
  match s.toList with
  | 'A' :: 'S' :: 'P' :: 'I' :: 'S' :: '-' :: rest =>
    !rest.isEmpty && rest.all fun c => ('A' ≤ c && c ≤ 'Z') || c.isDigit || c = '-'
  | _ => false

/-! Records. -/

structure EvidenceRecord (F : Type) where
  controlId : String
  title : String
  framework : String
  frameworkIds : List String
  target : String
  status : EvidenceStatus
  severity : EvidenceSeverity
  confidence : F
  sourceEvidence : List String
  executionEvidence : List String
  counterEvidence : List String
  remediation : String
  limitations : List String
  targetCommit : String
  generatedBy : String
  validatedBy : String
deriving DecidableEq

namespace EvidenceRecord
variable {F : Type}

/-- `_optional_string` -/
def optionalString (value : PyValue F) (field : String) : EvidenceRead String :=
  match value with
  | .str s =>
    if maxStringLength < (Text.strip s).length then
      invalid (field ++ " exceeds " ++ toString maxStringLength ++ " characters")
    else .ok (Text.strip s)
  | _ => invalid (field ++ " must be a string")

/-- `_non_empty_string` -/
def nonEmptyString (value : PyValue F) (field : String) : EvidenceRead String :=
  match value with
  | .str s =>
    if Text.strip s = "" then invalid (field ++ " must be a non-empty string")
    else if maxStringLength < (Text.strip s).length then
      invalid (field ++ " exceeds " ++ toString maxStringLength ++ " characters")
    else .ok (Text.strip s)
  | _ => invalid (field ++ " must be a non-empty string")

/-- The texts of a list that holds nothing else. -/
def texts : List (PyValue F) → Option (List String)
  | [] => some []
  | .str s :: rest => (texts rest).map (s :: ·)
  | _ :: _ => none

/-- The items that are not blank, without the blanks around them. -/
def normalised (items : List String) : List String := (items.map Text.strip).filter (· ≠ "")

/-- `_string_list` -/
def stringList (value : PyValue F) (field : String) (required : Bool) :
    EvidenceRead (List String) :=
  match value with
  | .list values =>
    match texts values with
    | none => invalid (field ++ " must be a list of strings")
    | some items =>
      if maxListItems < items.length then
        invalid (field ++ " exceeds " ++ toString maxListItems ++ " items")
      else if (normalised items).any fun item => maxStringLength < item.length then
        invalid (field ++ " contains an oversized value")
      else if (normalised items).dedup.length ≠ (normalised items).length then
        invalid (field ++ " must not contain duplicate values")
      else if required && (normalised items).isEmpty then
        invalid (field ++ " must contain at least one value")
      else .ok (normalised items)
  | _ => invalid (field ++ " must be a list of strings")

def readControlId (value : PyValue F) : EvidenceRead String := do
  let controlId ← nonEmptyString value "control_id"
  if !isControlId controlId then invalid "control_id must use the ASPIS-* namespace"
  pure controlId

def readStatus (value : PyValue F) : EvidenceRead EvidenceStatus := do
  let name := Text.lower (← nonEmptyString value "status")
  match validStatuses.find? fun status => status.name = name with
  | some status => pure status
  | none => invalid ("unsupported evidence status: " ++ name)

def readSeverity (value : PyValue F) : EvidenceRead EvidenceSeverity := do
  let name := Text.lower (← nonEmptyString value "severity")
  match validSeverities.find? fun severity => severity.name = name with
  | some severity => pure severity
  | none => invalid ("unsupported evidence severity: " ++ name)

/-- The confidence, once it is a number. -/
def checkConfidence (floats : UnitFloats F) (x : F) : EvidenceRead F :=
  if floats.le floats.zero x && floats.le x floats.one then .ok x
  else invalid "confidence must be between 0 and 1"

def readConfidence (floats : UnitFloats F) : PyValue F → EvidenceRead F
  | .float x => checkConfidence floats x
  | .int n =>
    match floats.ofInt n with
    | some x => checkConfidence floats x
    | none => .error .overflow
  | _ => invalid "confidence must be a number between 0 and 1"

/-- The fields of a record, no more and no fewer. -/
def checkFields (names : List String) : EvidenceRead Unit := do
  let unknown := names.dedup.filter fun name => name ∉ recordFields
  if unknown ≠ [] then
    invalid ("unknown evidence fields: " ++ ", ".intercalate (Text.sorted unknown))
  let missing := recordFields.filter fun name => name ∉ names
  if missing ≠ [] then
    invalid ("missing evidence fields: " ++ ", ".intercalate (Text.sorted missing))

/-- The fields one by one, in the order in which they are checked. -/
def readFields (floats : UnitFloats F) (get : String → PyValue F) :
    EvidenceRead (EvidenceRecord F) := do
  let controlId ← readControlId (get "control_id")
  let status ← readStatus (get "status")
  let severity ← readSeverity (get "severity")
  let confidence ← readConfidence floats (get "confidence")
  let execution ← stringList (get "execution_evidence") "execution_evidence" (status = .pass)
  let counter ← stringList (get "counter_evidence") "counter_evidence" (status = .fail)
  let limitations ← stringList (get "limitations") "limitations"
    (status = .inconclusive || status = .error)
  let title ← nonEmptyString (get "title") "title"
  let framework ← nonEmptyString (get "framework") "framework"
  let frameworkIds ← stringList (get "framework_ids") "framework_ids" true
  let target ← nonEmptyString (get "target") "target"
  let source ← stringList (get "source_evidence") "source_evidence" true
  let remediation ← optionalString (get "remediation") "remediation"
  let targetCommit ← nonEmptyString (get "target_commit") "target_commit"
  let generatedBy ← nonEmptyString (get "generated_by") "generated_by"
  let validatedBy ← nonEmptyString (get "validated_by") "validated_by"
  pure ⟨controlId, title, framework, frameworkIds, target, status, severity, confidence, source,
    execution, counter, remediation, limitations, targetCommit, generatedBy, validatedBy⟩

/-- `value[name]` of a dictionary that has the name. -/
def fieldOf (members : List (String × PyValue F)) (name : String) : PyValue F :=
  (members.lookup name).getD .none

/-- `EvidenceRecord.from_mapping` -/
def fromMapping (floats : UnitFloats F) (value : PyValue F) : EvidenceRead (EvidenceRecord F) := do
  let .dict members := value | invalid "evidence record must be an object"
  checkFields (members.map Prod.fst)
  readFields floats (fieldOf members)

/-- A list of strings as a value. -/
def listValue (items : List String) : PyValue F := .list (items.map .str)

/-- `to_mapping` -/
def toMapping (record : EvidenceRecord F) : PyValue F :=
  .dict [("control_id", .str record.controlId), ("title", .str record.title),
    ("framework", .str record.framework), ("framework_ids", listValue record.frameworkIds),
    ("target", .str record.target), ("status", .str record.status.name),
    ("severity", .str record.severity.name), ("confidence", .float record.confidence),
    ("source_evidence", listValue record.sourceEvidence),
    ("execution_evidence", listValue record.executionEvidence),
    ("counter_evidence", listValue record.counterEvidence),
    ("remediation", .str record.remediation), ("limitations", listValue record.limitations),
    ("target_commit", .str record.targetCommit), ("generated_by", .str record.generatedBy),
    ("validated_by", .str record.validatedBy)]

/-! What is read. -/

/-- A text without blanks around it, of no more than the length allowed. -/
structure Trimmed (s : String) : Prop where
  stripped : Text.strip s = s
  short : s.length ≤ maxStringLength

/-- A list of trimmed texts that are not blank, each once. -/
structure TrimmedList (items : List String) : Prop where
  trimmed : ∀ item ∈ items, Trimmed item
  filled : ∀ item ∈ items, item ≠ ""
  distinct : items.Nodup
  few : items.length ≤ maxListItems

/-- What every record that is read keeps to. -/
structure Sound (floats : UnitFloats F) (record : EvidenceRecord F) : Prop where
  controlId : isControlId record.controlId = true
  names : ∀ s ∈ [record.controlId, record.title, record.framework, record.target,
    record.targetCommit, record.generatedBy, record.validatedBy], Trimmed s ∧ s ≠ ""
  remediation : Trimmed record.remediation
  confidence : (floats.le floats.zero record.confidence && floats.le record.confidence floats.one) =
    true
  lists : ∀ items ∈ [record.frameworkIds, record.sourceEvidence, record.executionEvidence,
    record.counterEvidence, record.limitations], TrimmedList items
  frameworkIds : record.frameworkIds ≠ []
  sourceEvidence : record.sourceEvidence ≠ []
  execution : record.status = .pass → record.executionEvidence ≠ []
  counter : record.status = .fail → record.counterEvidence ≠ []
  limitations : record.status = .inconclusive ∨ record.status = .error → record.limitations ≠ []

variable {value : PyValue F} {field s : String} {items : List String} {required : Bool}
  {floats : UnitFloats F} {record : EvidenceRecord F}

theorem optionalString_ok (h : optionalString value field = .ok s) : Trimmed s := by
  unfold optionalString at h
  split at h
  · split at h
    · cases h
    · next hshort =>
      cases h
      exact ⟨Text.strip_strip _, Nat.not_lt.mp hshort⟩
  · cases h

theorem nonEmptyString_ok (h : nonEmptyString value field = .ok s) : Trimmed s ∧ s ≠ "" := by
  unfold nonEmptyString at h
  split at h
  · split at h
    · cases h
    · next hfilled =>
      split at h
      · cases h
      · next hshort =>
        cases h
        exact ⟨⟨Text.strip_strip _, Nat.not_lt.mp hshort⟩, hfilled⟩
  · cases h

theorem mem_normalised {item : String} (h : item ∈ normalised items) :
    Text.strip item = item ∧ item ≠ "" := by
  obtain ⟨hmem, hfilled⟩ := List.mem_filter.mp h
  obtain ⟨source, _, rfl⟩ := List.mem_map.mp hmem
  exact ⟨Text.strip_strip source, of_decide_eq_true hfilled⟩

theorem length_normalised (items : List String) : (normalised items).length ≤ items.length := by
  have hle := List.length_filter_le (fun item => decide (item ≠ "")) (items.map Text.strip)
  rwa [List.length_map] at hle

theorem nodup_of_length_dedup (h : items.dedup.length = items.length) : items.Nodup :=
  List.dedup_eq_self.mp ((List.dedup_sublist items).eq_of_length h)

/-- A list that is read is trimmed, and not empty where it is required. -/
theorem stringList_ok (h : stringList value field required = .ok items) :
    TrimmedList items ∧ (required = true → items ≠ []) := by
  unfold stringList at h
  split at h
  · split at h
    · cases h
    · next sources _ =>
      split at h
      · cases h
      · next hfew =>
        split at h
        · cases h
        · next hshort =>
          split at h
          · cases h
          · next hdistinct =>
            split at h
            · cases h
            · next hfilled =>
              cases h
              refine ⟨⟨fun item hitem => ⟨(mem_normalised hitem).1, ?_⟩,
                fun item hitem => (mem_normalised hitem).2,
                nodup_of_length_dedup (not_not.mp hdistinct), ?_⟩, ?_⟩
              · have hall : ∀ item ∈ normalised sources, item.length ≤ maxStringLength := by
                  simpa using hshort
                exact hall item hitem
              · exact Nat.le_trans (length_normalised sources) (Nat.not_lt.mp hfew)
              · rintro rfl hnone
                rw [hnone] at hfilled
                exact hfilled rfl
  · cases h

theorem readControlId_ok (h : readControlId value = .ok s) :
    isControlId s = true ∧ Trimmed s ∧ s ≠ "" := by
  obtain ⟨controlId, hread, h⟩ := bind_eq_ok.mp h
  split at h
  · cases h
  · next hid =>
    cases h
    exact ⟨by simpa using hid, nonEmptyString_ok hread⟩

theorem checkConfidence_ok {x confidence : F} (h : checkConfidence floats x = .ok confidence) :
    (floats.le floats.zero confidence && floats.le confidence floats.one) = true := by
  unfold checkConfidence at h
  split at h
  · next hunit =>
    cases h
    exact hunit
  · cases h

theorem readConfidence_ok {confidence : F} (h : readConfidence floats value = .ok confidence) :
    (floats.le floats.zero confidence && floats.le confidence floats.one) = true := by
  unfold readConfidence at h
  split at h
  · exact checkConfidence_ok h
  · split at h
    · exact checkConfidence_ok h
    · cases h
  · cases h

variable {get : String → PyValue F}

/-- What each field gives, the record gives. -/
structure ReadsAs (floats : UnitFloats F) (get : String → PyValue F)
    (record : EvidenceRecord F) : Prop where
  controlId : readControlId (get "control_id") = .ok record.controlId
  status : readStatus (get "status") = .ok record.status
  severity : readSeverity (get "severity") = .ok record.severity
  confidence : readConfidence floats (get "confidence") = .ok record.confidence
  execution : stringList (get "execution_evidence") "execution_evidence"
    (record.status = .pass) = .ok record.executionEvidence
  counter : stringList (get "counter_evidence") "counter_evidence" (record.status = .fail) =
    .ok record.counterEvidence
  limitations : stringList (get "limitations") "limitations"
    (record.status = .inconclusive || record.status = .error) = .ok record.limitations
  title : nonEmptyString (get "title") "title" = .ok record.title
  framework : nonEmptyString (get "framework") "framework" = .ok record.framework
  frameworkIds : stringList (get "framework_ids") "framework_ids" true = .ok record.frameworkIds
  target : nonEmptyString (get "target") "target" = .ok record.target
  source : stringList (get "source_evidence") "source_evidence" true = .ok record.sourceEvidence
  remediation : optionalString (get "remediation") "remediation" = .ok record.remediation
  targetCommit : nonEmptyString (get "target_commit") "target_commit" = .ok record.targetCommit
  generatedBy : nonEmptyString (get "generated_by") "generated_by" = .ok record.generatedBy
  validatedBy : nonEmptyString (get "validated_by") "validated_by" = .ok record.validatedBy

theorem readFields_iff : readFields floats get = .ok record ↔ ReadsAs floats get record := by
  constructor
  · intro h
    obtain ⟨controlId, hcontrolId, h⟩ := bind_eq_ok.mp h
    obtain ⟨status, hstatus, h⟩ := bind_eq_ok.mp h
    obtain ⟨severity, hseverity, h⟩ := bind_eq_ok.mp h
    obtain ⟨confidence, hconfidence, h⟩ := bind_eq_ok.mp h
    obtain ⟨execution, hexecution, h⟩ := bind_eq_ok.mp h
    obtain ⟨counter, hcounter, h⟩ := bind_eq_ok.mp h
    obtain ⟨limitations, hlimitations, h⟩ := bind_eq_ok.mp h
    obtain ⟨title, htitle, h⟩ := bind_eq_ok.mp h
    obtain ⟨framework, hframework, h⟩ := bind_eq_ok.mp h
    obtain ⟨frameworkIds, hframeworkIds, h⟩ := bind_eq_ok.mp h
    obtain ⟨target, htarget, h⟩ := bind_eq_ok.mp h
    obtain ⟨source, hsource, h⟩ := bind_eq_ok.mp h
    obtain ⟨remediation, hremediation, h⟩ := bind_eq_ok.mp h
    obtain ⟨targetCommit, htargetCommit, h⟩ := bind_eq_ok.mp h
    obtain ⟨generatedBy, hgeneratedBy, h⟩ := bind_eq_ok.mp h
    obtain ⟨validatedBy, hvalidatedBy, h⟩ := bind_eq_ok.mp h
    cases Except.ok.inj h
    exact ⟨hcontrolId, hstatus, hseverity, hconfidence, hexecution, hcounter, hlimitations, htitle,
      hframework, hframeworkIds, htarget, hsource, hremediation, htargetCommit, hgeneratedBy,
      hvalidatedBy⟩
  · intro h
    rw [readFields, h.controlId]
    dsimp only [bind, Except.bind]
    rw [h.status]
    dsimp only [bind, Except.bind]
    rw [h.severity, h.confidence, h.execution, h.counter, h.limitations, h.title, h.framework,
      h.frameworkIds, h.target, h.source, h.remediation, h.targetCommit, h.generatedBy,
      h.validatedBy]
    rfl

theorem ReadsAs.sound (h : ReadsAs floats get record) : Sound floats record := by
  obtain ⟨hpattern, hcontrolId⟩ := readControlId_ok h.controlId
  refine ⟨hpattern, ?_, optionalString_ok h.remediation, readConfidence_ok h.confidence, ?_,
    (stringList_ok h.frameworkIds).2 rfl, (stringList_ok h.source).2 rfl, ?_, ?_, ?_⟩
  · simp only [List.forall_mem_cons]
    exact ⟨hcontrolId, nonEmptyString_ok h.title, nonEmptyString_ok h.framework,
      nonEmptyString_ok h.target, nonEmptyString_ok h.targetCommit,
      nonEmptyString_ok h.generatedBy, nonEmptyString_ok h.validatedBy, List.forall_mem_nil _⟩
  · simp only [List.forall_mem_cons]
    exact ⟨(stringList_ok h.frameworkIds).1, (stringList_ok h.source).1,
      (stringList_ok h.execution).1, (stringList_ok h.counter).1,
      (stringList_ok h.limitations).1, List.forall_mem_nil _⟩
  · exact fun hpass => (stringList_ok h.execution).2 (by simpa using hpass)
  · exact fun hfail => (stringList_ok h.counter).2 (by simpa using hfail)
  · exact fun hopen => (stringList_ok h.limitations).2 (by simpa using hopen)

/-- A record that is read is sound. -/
theorem fromMapping_sound (h : fromMapping floats value = .ok record) : Sound floats record := by
  unfold fromMapping at h
  split at h
  · obtain ⟨_, _, h⟩ := bind_eq_ok.mp h
    exact (readFields_iff.mp h).sound
  · cases h

/-! Reading back. -/

theorem optionalString_trimmed (h : Trimmed s) :
    optionalString (.str s : PyValue F) field = .ok s := by
  rw [optionalString, h.stripped, if_neg (Nat.not_lt.mpr h.short)]

theorem nonEmptyString_trimmed (h : Trimmed s ∧ s ≠ "") :
    nonEmptyString (.str s : PyValue F) field = .ok s := by
  rw [nonEmptyString, h.1.stripped, if_neg h.2, if_neg (Nat.not_lt.mpr h.1.short)]

theorem texts_map (items : List String) : texts (items.map (PyValue.str (F := F))) = some items := by
  induction items with
  | nil => rfl
  | cons item rest ih => rw [List.map_cons, texts, ih, Option.map_some]

theorem normalised_trimmed (h : TrimmedList items) : normalised items = items := by
  have hstrip : items.map Text.strip = items := by
    have hmap : items.map Text.strip = items.map id :=
      List.map_congr_left fun item hitem => (h.trimmed item hitem).stripped
    rwa [List.map_id] at hmap
  rw [normalised, hstrip, List.filter_eq_self]
  exact fun item hitem => decide_eq_true (h.filled item hitem)

theorem stringList_trimmed (h : TrimmedList items) (hrequired : required = true → items ≠ []) :
    stringList (listValue items : PyValue F) field required = .ok items := by
  have hshort : ¬ (items.any fun item => decide (maxStringLength < item.length)) = true := by
    simpa using fun item hitem => (h.trimmed item hitem).short
  have hempty : ¬ (required && items.isEmpty) = true := by
    simpa using hrequired
  unfold stringList listValue
  dsimp only
  rw [texts_map]
  dsimp only
  rw [normalised_trimmed h, if_neg (Nat.not_lt.mpr h.few), if_neg hshort,
    if_neg (by rw [List.dedup_eq_self.mpr h.distinct]; exact fun hne => hne rfl), if_neg hempty]

theorem readControlId_sound (hid : isControlId s = true) (h : Trimmed s ∧ s ≠ "") :
    readControlId (.str s : PyValue F) = .ok s := by
  rw [readControlId, nonEmptyString_trimmed h]
  simp [hid, bind, Except.bind, pure, Except.pure]

theorem readStatus_name (status : EvidenceStatus) :
    readStatus (.str status.name : PyValue F) = .ok status := by
  cases status <;> rfl

theorem readSeverity_name (severity : EvidenceSeverity) :
    readSeverity (.str severity.name : PyValue F) = .ok severity := by
  cases severity <;> rfl

theorem checkFields_recordFields : checkFields recordFields = .ok () := by decide +kernel

/-- A sound record is read back from its mapping. -/
theorem fromMapping_toMapping (h : Sound floats record) :
    fromMapping floats record.toMapping = .ok record := by
  have hnames := h.names
  have hlists := h.lists
  simp only [List.forall_mem_cons] at hnames hlists
  obtain ⟨hcontrolId, htitle, hframework, htarget, htargetCommit, hgeneratedBy, hvalidatedBy, _⟩ :=
    hnames
  obtain ⟨hframeworkIds, hsource, hexecution, hcounter, hlimitations, _⟩ := hlists
  refine bind_eq_ok.mpr ⟨(), checkFields_recordFields, readFields_iff.mpr ?_⟩
  exact ⟨readControlId_sound h.controlId hcontrolId, readStatus_name _, readSeverity_name _,
    if_pos h.confidence, stringList_trimmed hexecution (by simpa using h.execution),
    stringList_trimmed hcounter (by simpa using h.counter),
    stringList_trimmed hlimitations (by simpa using h.limitations),
    nonEmptyString_trimmed htitle, nonEmptyString_trimmed hframework,
    stringList_trimmed hframeworkIds fun _ => h.frameworkIds, nonEmptyString_trimmed htarget,
    stringList_trimmed hsource fun _ => h.sourceEvidence, optionalString_trimmed h.remediation,
    nonEmptyString_trimmed htargetCommit, nonEmptyString_trimmed hgeneratedBy,
    nonEmptyString_trimmed hvalidatedBy⟩

/-- What is read from a mapping is read back from the mapping of the record, and holds the evidence
that its status calls for. -/
theorem evidence_round_trip (h : fromMapping floats value = .ok record) :
    fromMapping floats record.toMapping = .ok record ∧
    record.sourceEvidence ≠ [] ∧ record.frameworkIds ≠ [] ∧
    (record.status = .pass → record.executionEvidence ≠ []) ∧
    (record.status = .fail → record.counterEvidence ≠ []) ∧
    (record.status = .inconclusive ∨ record.status = .error → record.limitations ≠ []) ∧
    ∀ items ∈ [record.frameworkIds, record.sourceEvidence, record.executionEvidence,
      record.counterEvidence, record.limitations],
      items.Nodup ∧ ∀ item ∈ items, Text.strip item ≠ "" := by
  have hsound := fromMapping_sound h
  refine ⟨fromMapping_toMapping hsound, hsound.sourceEvidence, hsound.frameworkIds,
    hsound.execution, hsound.counter, hsound.limitations, fun items hitems => ?_⟩
  have hlist := hsound.lists items hitems
  refine ⟨hlist.distinct, fun item hitem => ?_⟩
  rw [(hlist.trimmed item hitem).stripped]
  exact hlist.filled item hitem

/-- The whole numbers zero and one. -/
def wholeUnit : UnitFloats Int where
  ofInt := some
  zero := 0
  one := 1
  le x y := decide (x ≤ y)
  zero_le_zero := rfl
  zero_le_one := rfl
  one_le_one := rfl

def exampleMapping : PyValue Int :=
  .dict [("control_id", .str " ASPIS-TEST-001 "), ("title", .str "Sessions end"),
    ("framework", .str "OWASP ASVS"), ("framework_ids", listValue ["v5.0.0-7.4.1 ", " "]),
    ("target", .str "bantam-api"), ("status", .str " PASS"), ("severity", .str "High"),
    ("confidence", .int 1), ("source_evidence", listValue ["pytest_node_id=tests::logout"]),
    ("execution_evidence", listValue ["pytest_duration_seconds=0.5"]),
    ("counter_evidence", listValue []), ("remediation", .str " "),
    ("limitations", listValue [""]), ("target_commit", .str "0123456789abcdef"),
    ("generated_by", .str "tests"), ("validated_by", .str "pytest")]

def exampleRecord : EvidenceRecord Int :=
  ⟨"ASPIS-TEST-001", "Sessions end", "OWASP ASVS", ["v5.0.0-7.4.1"], "bantam-api", .pass, .high, 1,
    ["pytest_node_id=tests::logout"], ["pytest_duration_seconds=0.5"], [], "", [],
    "0123456789abcdef", "tests", "pytest"⟩

theorem exampleMapping_read : fromMapping wholeUnit exampleMapping = .ok exampleRecord := by
  decide +kernel

theorem evidence_round_trip_example :
    fromMapping wholeUnit exampleMapping = .ok exampleRecord ∧
    fromMapping wholeUnit exampleRecord.toMapping = .ok exampleRecord :=
  ⟨exampleMapping_read, (evidence_round_trip exampleMapping_read).1⟩

end EvidenceRecord

end Bantam.Aspis
