import Bantam.Lib.Containers
import Bantam.Lib.Literals
import Mathlib.Data.List.SplitBy
import Mathlib.Data.List.Sort

/-! The test plans that a model proposes: their schema, their validation against the captured
source and the reviewed scenarios, and what they are compiled to. -/
namespace Bantam

def maxGeneratedTests : Nat := 10
def maxRegoModuleBytes : Nat := 8000
def regoPackage : String := "aspis.asvs.generated"

/-- The version and the controls of the catalogue, in its order. -/
def catalogVersion : String := "5.0.0"
def controls : List String :=
  ["ASPIS-ASVS-AC-001", "ASPIS-ASVS-AC-002", "ASPIS-ASVS-AC-003", "ASPIS-ASVS-AC-004",
    "ASPIS-ASVS-AC-005"]

/-- The fields of a scenario that bind a plan. -/
structure ScenarioDefinition where
  scenarioId : String
  controlId : String
  expectedStatus : Nat
  expectedErrorCode : String
deriving DecidableEq, Repr

def scenarios : List ScenarioDefinition :=
  [⟨"anonymous-protected-route", "ASPIS-ASVS-AC-001", 401, "UNAUTHENTICATED"⟩,
    ⟨"customer-admin-route-denied", "ASPIS-ASVS-AC-002", 403, "FORBIDDEN"⟩,
    ⟨"other-account-history-denied", "ASPIS-ASVS-AC-003", 404, "NOT_FOUND"⟩,
    ⟨"unowned-transfer-denied", "ASPIS-ASVS-AC-004", 403, "FORBIDDEN"⟩,
    ⟨"logged-out-session-replay-denied", "ASPIS-ASVS-AC-005", 401, "UNAUTHENTICATED"⟩]

/-- `SCENARIOS.get(scenario_id)` -/
def scenario? (scenarioId : String) : Option ScenarioDefinition :=
  scenarios.find? (·.scenarioId = scenarioId)

/-! The schema. -/

/-- `_printable` accepts the text. -/
def printable (s : String) : Bool := s.toList.all fun c => Literals.Printable c

/-- `_references` accepts the reference. -/
def referenceOk (reference : String) : Bool :=
  printable reference && !reference.toList.isEmpty && reference.toList.head? ≠ some '/' &&
  '\\' ∉ reference.toList && ['.', '.'] ∉ reference.toList.splitOn '/'

/-- What `str_strip_whitespace` leaves of a string. -/
def stripped (s : String) : String := String.ofList (Text.trimBy Text.isWhiteSpace s.toList)

/-- `Field(min_length=…, max_length=…)` -/
def Sized (lo hi n : Nat) : Prop := lo ≤ n ∧ n ≤ hi

instance (lo hi n : Nat) : Decidable (Sized lo hi n) := inferInstanceAs (Decidable (_ ∧ _))

structure TestFields where
  controlId : String
  scenarioId : String
  name : String
  objective : String
  grounding : String
  sourceRefs : List String
  terraformRefs : List String
deriving DecidableEq, Repr

namespace TestFields

def texts (t : TestFields) : List String :=
  [t.controlId, t.scenarioId, t.name, t.objective, t.grounding] ++ t.sourceRefs ++ t.terraformRefs

/-- The constraints and the validators of the fields. -/
structure Valid (t : TestFields) : Prop where
  controlId : Sized 1 64 t.controlId.length
  scenarioId : Sized 1 64 t.scenarioId.length
  name : Sized 8 120 t.name.length ∧ printable t.name = true
  objective : Sized 12 360 t.objective.length ∧ printable t.objective = true
  grounding : Sized 12 500 t.grounding.length ∧ printable t.grounding = true
  sourceRefs : Sized 1 3 t.sourceRefs.length ∧ t.sourceRefs.Nodup ∧
    t.sourceRefs.all referenceOk = true
  terraformRefs : Sized 0 3 t.terraformRefs.length ∧ t.terraformRefs.Nodup ∧
    t.terraformRefs.all referenceOk = true

theorem valid_iff (t : TestFields) : t.Valid ↔
    Sized 1 64 t.controlId.length ∧ Sized 1 64 t.scenarioId.length ∧
    (Sized 8 120 t.name.length ∧ printable t.name = true) ∧
    (Sized 12 360 t.objective.length ∧ printable t.objective = true) ∧
    (Sized 12 500 t.grounding.length ∧ printable t.grounding = true) ∧
    (Sized 1 3 t.sourceRefs.length ∧ t.sourceRefs.Nodup ∧
      t.sourceRefs.all referenceOk = true) ∧
    (Sized 0 3 t.terraformRefs.length ∧ t.terraformRefs.Nodup ∧
      t.terraformRefs.all referenceOk = true) := by
  constructor
  · rintro ⟨h1, h2, h3, h4, h5, h6, h7⟩
    exact ⟨h1, h2, h3, h4, h5, h6, h7⟩
  · rintro ⟨h1, h2, h3, h4, h5, h6, h7⟩
    exact ⟨h1, h2, h3, h4, h5, h6, h7⟩

instance (t : TestFields) : Decidable t.Valid := decidable_of_iff' _ (valid_iff t)

end TestFields

/-- A test as the schema accepts it. -/
structure GeneratedTest extends TestFields where
  valid : toTestFields.Valid
  stripped : ∀ s ∈ toTestFields.texts, Bantam.stripped s = s
deriving DecidableEq

structure GeneratedPlan where
  schemaVersion : String
  catalogVersion : String
  summary : String
  regoModule : String
  tests : List GeneratedTest
deriving DecidableEq

/-! Reading a plan from JSON. -/

/-- A string field. -/
def text? : Json → Option String
  | .str s => some (stripped s)
  | _ => none

/-- A tuple of strings. -/
def texts? : Json → Option (List String)
  | .arr items => items.mapM text?
  | _ => none

/-- An object that has no member beside the named ones. -/
def membersWithin (names : List String) : Json → Bool
  | .obj members => members.all fun m => m.1 ∈ names
  | _ => false

def testFieldNames : List String :=
  ["control_id", "scenario_id", "name", "objective", "grounding", "source_refs", "terraform_refs"]

/-- The fields of a test, before their constraints. -/
def TestFields.read (v : Json) : Option TestFields :=
  if membersWithin testFieldNames v then do
    let controlId ← (v.get? "control_id").bind text?
    let scenarioId ← (v.get? "scenario_id").bind text?
    let name ← (v.get? "name").bind text?
    let objective ← (v.get? "objective").bind text?
    let grounding ← (v.get? "grounding").bind text?
    let sourceRefs ← (v.get? "source_refs").bind texts?
    let terraformRefs ← (v.get? "terraform_refs").bind texts?
    pure ⟨controlId, scenarioId, name, objective, grounding, sourceRefs, terraformRefs⟩
  else none

theorem stripped_stripped (s : String) : stripped (stripped s) = stripped s := by
  rw [stripped, stripped, String.toList_ofList, Text.trimBy_trimBy]

theorem text?_stripped {v : Json} {s : String} (h : text? v = some s) : stripped s = s := by
  cases v with
  | str t =>
    cases h
    exact stripped_stripped t
  | _ => cases h

theorem mapM_text?_stripped {items : List Json} {l : List String}
    (h : items.mapM text? = some l) : ∀ s ∈ l, stripped s = s := by
  induction items generalizing l with
  | nil =>
    cases h
    simp
  | cons v rest ih =>
    rw [List.mapM_cons] at h
    obtain ⟨t, ht, h⟩ := Option.bind_eq_some_iff.mp h
    obtain ⟨ts, hts, h⟩ := Option.bind_eq_some_iff.mp h
    cases h
    exact List.forall_mem_cons.mpr ⟨text?_stripped ht, ih hts⟩

theorem texts?_stripped {v : Json} {l : List String} (h : texts? v = some l) :
    ∀ s ∈ l, stripped s = s := by
  cases v with
  | arr items => exact mapM_text?_stripped h
  | _ => cases h

theorem TestFields.read_stripped {v : Json} {t : TestFields} (h : TestFields.read v = some t) :
    ∀ s ∈ t.texts, stripped s = s := by
  unfold TestFields.read at h
  by_cases hw : membersWithin testFieldNames v
  · rw [if_pos hw] at h
    simp only [Option.bind_eq_bind, Option.bind_eq_some_iff, Option.pure_def,
      Option.some.injEq] at h
    obtain ⟨a, ⟨_, _, ha⟩, b, ⟨_, _, hb⟩, c, ⟨_, _, hc⟩, d, ⟨_, _, hd⟩, e, ⟨_, _, he⟩,
      f, ⟨_, _, hf⟩, g, ⟨_, _, hg⟩, rfl⟩ := h
    intro s hs
    simp only [TestFields.texts, List.mem_append, List.mem_cons, List.not_mem_nil, or_false] at hs
    rcases hs with ((rfl | rfl | rfl | rfl | rfl) | hs) | hs
    · exact text?_stripped ha
    · exact text?_stripped hb
    · exact text?_stripped hc
    · exact text?_stripped hd
    · exact text?_stripped he
    · exact texts?_stripped hf s hs
    · exact texts?_stripped hg s hs
  · rw [if_neg hw] at h
    cases h

/-- A `GeneratedTest` from JSON. -/
def GeneratedTest.decode (v : Json) : Option GeneratedTest :=
  match h : TestFields.read v with
  | none => none
  | some t => if hv : t.Valid then some ⟨t, hv, TestFields.read_stripped h⟩ else none

def planFieldNames : List String :=
  ["schema_version", "catalog_version", "summary", "rego_module", "tests"]

/-- What `_rego_text` returns; none where it raises. -/
def regoText (s : String) : Option String :=
  if maxRegoModuleBytes < Text.utf8Length s.toList then none
  else if s.toList.any fun c => c ≠ '\n' ∧ ¬Literals.Printable c then none
  else some (Text.strip s)

/-- The tuple of tests. -/
def tests? : Json → Option (List GeneratedTest)
  | .arr items => items.mapM GeneratedTest.decode
  | _ => none

/-- `GeneratedPlan.model_validate_json`, after the text has been parsed. -/
def GeneratedPlan.decode (v : Json) : Option GeneratedPlan :=
  if membersWithin planFieldNames v then do
    let schemaVersion ← (v.get? "schema_version").bind text?
    let catalogVersion ← (v.get? "catalog_version").bind text?
    let summary ← (v.get? "summary").bind text?
    let module ← (v.get? "rego_module").bind text?
    let tests ← (v.get? "tests").bind tests?
    if Sized 12 500 summary.length ∧ printable summary = true ∧
        Sized 1 maxRegoModuleBytes module.length ∧ Sized 1 maxGeneratedTests tests.length then
      (regoText module).map fun regoModule =>
        ⟨schemaVersion, catalogVersion, summary, regoModule, tests⟩
    else none
  else none

/-! Writing a plan as JSON. -/

def TestFields.dump (t : TestFields) : Json :=
  .obj [("control_id", .str t.controlId), ("scenario_id", .str t.scenarioId), ("name", .str t.name),
    ("objective", .str t.objective), ("grounding", .str t.grounding),
    ("source_refs", .arr (t.sourceRefs.map .str)),
    ("terraform_refs", .arr (t.terraformRefs.map .str))]

/-- `plan.model_dump(mode="json")` -/
def GeneratedPlan.dump (plan : GeneratedPlan) : Json :=
  .obj [("schema_version", .str plan.schemaVersion), ("catalog_version", .str plan.catalogVersion),
    ("summary", .str plan.summary), ("rego_module", .str plan.regoModule),
    ("tests", .arr (plan.tests.map fun t => t.toTestFields.dump))]

/-! What is written is read back. -/

theorem mapM_map_some {α β : Type} {f : β → Option α} {g : α → β} {l : List α}
    (h : ∀ a ∈ l, f (g a) = some a) : (l.map g).mapM f = some l := by
  induction l with
  | nil => rfl
  | cons a l ih =>
    rw [List.map_cons, List.mapM_cons, h a List.mem_cons_self,
      ih fun b hb => h b (List.mem_cons_of_mem a hb)]
    rfl

theorem texts?_dump {l : List String} (h : ∀ s ∈ l, stripped s = s) :
    texts? (.arr (l.map .str)) = some l :=
  mapM_map_some fun s hs => congrArg some (h s hs)

theorem TestFields.read_dump {t : TestFields} (h : ∀ s ∈ t.texts, Bantam.stripped s = s) :
    TestFields.read t.dump = some t := by
  have htext : ∀ s ∈ t.texts, text? (.str s) = some s := fun s hs => congrArg some (h s hs)
  have hs : texts? (.arr (t.sourceRefs.map .str)) = some t.sourceRefs :=
    texts?_dump fun s hs => h s (by simp [TestFields.texts, hs])
  have ht : texts? (.arr (t.terraformRefs.map .str)) = some t.terraformRefs :=
    texts?_dump fun s hs => h s (by simp [TestFields.texts, hs])
  simp [TestFields.read, TestFields.dump, membersWithin, testFieldNames, Json.get?, Json.member?,
    htext _ (show t.controlId ∈ t.texts by simp [TestFields.texts]),
    htext _ (show t.scenarioId ∈ t.texts by simp [TestFields.texts]),
    htext _ (show t.name ∈ t.texts by simp [TestFields.texts]),
    htext _ (show t.objective ∈ t.texts by simp [TestFields.texts]),
    htext _ (show t.grounding ∈ t.texts by simp [TestFields.texts]), hs, ht]

theorem GeneratedTest.decode_eq {v : Json} {t : GeneratedTest}
    (h : TestFields.read v = some t.toTestFields) : GeneratedTest.decode v = some t := by
  unfold GeneratedTest.decode
  split
  · rename_i hnone
    cases hnone.symm.trans h
  · rename_i u hu
    obtain rfl := Option.some.inj (hu.symm.trans h)
    rw [dif_pos t.valid]

theorem GeneratedTest.decode_dump (t : GeneratedTest) :
    GeneratedTest.decode t.toTestFields.dump = some t :=
  GeneratedTest.decode_eq (TestFields.read_dump t.stripped)

theorem tests?_dump (tests : List GeneratedTest) :
    tests? (.arr (tests.map fun t => t.toTestFields.dump)) = some tests :=
  mapM_map_some fun t _ => t.decode_dump

/-! What is read does not depend on the order of the keys. -/

theorem text?_normal (v : Json) : text? v.normal = text? v := by
  cases v with
  | _ => simp [Json.normal, text?]

theorem mapM_normal {α : Type} {f : Json → Option α} (hf : ∀ v : Json, f v.normal = f v)
    (items : List Json) : (Json.normalItems items).mapM f = items.mapM f := by
  induction items with
  | nil => rfl
  | cons v rest ih => rw [Json.normalItems, List.mapM_cons, List.mapM_cons, ih, hf]

theorem texts?_normal (v : Json) : texts? v.normal = texts? v := by
  cases v with
  | arr items => exact mapM_normal text?_normal items
  | _ => simp [Json.normal, texts?]

theorem membersWithin_normal (names : List String) (v : Json) :
    membersWithin names v.normal = membersWithin names v := by
  cases v with
  | obj members =>
    have hkeys : ∀ l : List (String × Json),
        membersWithin names (.obj l) = decide (∀ k ∈ l.map Prod.fst, k ∈ names) := by
      intro l
      simp [membersWithin, List.all_eq]
    rw [Json.normal, hkeys, hkeys]
    simp only [Json.mem_keys_normal]
  | _ => simp [Json.normal, membersWithin]

theorem bind_get?_normal {α : Type} {f : Json → Option α} (hf : ∀ v : Json, f v.normal = f v)
    (k : String) (v : Json) : (v.normal.get? k).bind f = (v.get? k).bind f := by
  rw [Json.get?_normal, Option.bind_map]
  exact congrArg _ (funext hf)

theorem TestFields.read_normal (v : Json) : TestFields.read v.normal = TestFields.read v := by
  simp only [TestFields.read, membersWithin_normal, bind_get?_normal text?_normal,
    bind_get?_normal texts?_normal]

theorem GeneratedTest.decode_some_iff {v : Json} {t : GeneratedTest} :
    GeneratedTest.decode v = some t ↔ TestFields.read v = some t.toTestFields := by
  refine ⟨fun h => ?_, GeneratedTest.decode_eq⟩
  unfold GeneratedTest.decode at h
  split at h
  · cases h
  · rename_i u hu
    by_cases hv : u.Valid
    · rw [dif_pos hv] at h
      cases h
      exact hu
    · rw [dif_neg hv] at h
      cases h

theorem GeneratedTest.decode_normal (v : Json) :
    GeneratedTest.decode v.normal = GeneratedTest.decode v := by
  refine Option.ext fun t => ?_
  rw [GeneratedTest.decode_some_iff, GeneratedTest.decode_some_iff, TestFields.read_normal]

theorem tests?_normal (v : Json) : tests? v.normal = tests? v := by
  cases v with
  | arr items => exact mapM_normal GeneratedTest.decode_normal items
  | _ => simp [Json.normal, tests?]

theorem GeneratedPlan.decode_normal (v : Json) :
    GeneratedPlan.decode v.normal = GeneratedPlan.decode v := by
  simp only [GeneratedPlan.decode, membersWithin_normal, bind_get?_normal text?_normal,
    bind_get?_normal tests?_normal]

end Bantam
