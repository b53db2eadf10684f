import Mathlib
import Bantam.CatalogFlows

/-! The validator of saved workflows, and the repositories whose default flows it takes as they
are. -/
namespace Bantam

/-! The validator. -/

/-- The members of a definition that the validator reads, as `str` gives them. -/
structure WorkflowDefinition where
  name : String
  description : String
  actorRole : String
  nodeIds : List String
deriving DecidableEq, Repr

structure WorkflowError where
  code : String
  message : String
deriving DecidableEq, Repr

/-- What `validate` returns; `valid` tells that there are no errors. -/
structure WorkflowValidation where
  errors : List WorkflowError
  normalized : WorkflowDefinition
deriving DecidableEq, Repr

/-- The upper case of a character where it is made of letters of ASCII; other characters outside
ASCII are kept. -/
def upperCase (c : Char) : List Char :=
  match c.toNat with
  | 0xdf => ['S', 'S']
  | 0x131 => ['I']
  | 0x17f => ['S']
  | 0xfb00 => ['F', 'F']
  | 0xfb01 => ['F', 'I']
  | 0xfb02 => ['F', 'L']
  | 0xfb03 => ['F', 'F', 'I']
  | 0xfb04 => ['F', 'F', 'L']
  | 0xfb05 | 0xfb06 => ['S', 'T']
  | _ => [c.toUpper]

/-- `str(actor_role).strip().upper()` -/
def normalizedRole (role : String) : String :=
  String.ofList ((Text.strip role).toList.flatMap upperCase)

def WorkflowDefinition.normalized (definition : WorkflowDefinition) : WorkflowDefinition where
  name := Text.strip definition.name
  description := Text.strip definition.description
  actorRole := normalizedRole definition.actorRole
  nodeIds := definition.nodeIds.map Text.strip

/-- The types of edges that a workflow may follow. -/
def allowedTypes : List String :=
  ["next", "calls", "handled_by", "depends_on", "documented_by", "checks", "contains", "reads",
    "writes", "enforced_by"]

namespace RepositoryCatalog
variable (catalog : RepositoryCatalog)

/-- `self.allowed_edges` -/
def allowedEdges : List (String × String) :=
  catalog.edges.filterMap fun entry =>
    if entry.1.type ∈ allowedTypes then some (entry.1.source, entry.1.target) else none

/-- `self.entry_roles` of a node. -/
def entryRoles (nodeId : String) : List String :=
  catalog.defaultFlows.flatMap fun flow =>
    if flow.nodeIds.head? = some nodeId then flow.actorRoles else []

/-- The roles of all entries. -/
def roles : List String :=
  catalog.defaultFlows.flatMap fun flow => if flow.nodeIds = [] then [] else flow.actorRoles

def nameErrors (name : String) : List WorkflowError :=
  if 3 ≤ name.length ∧ name.length ≤ 100 then []
  else [⟨"INVALID_NAME", "Name must be 3-100 characters."⟩]

def descriptionErrors (description : String) : List WorkflowError :=
  if 500 < description.length then
    [⟨"INVALID_DESCRIPTION", "Description must be at most 500 characters."⟩]
  else []

def roleErrors (role : String) : List WorkflowError :=
  if role ∈ catalog.roles then []
  else [⟨"INVALID_ACTOR", "Actor role is not available in this repository graph."⟩]

def lengthErrors (nodeIds : List String) : List WorkflowError :=
  if 1 ≤ nodeIds.length ∧ nodeIds.length ≤ 160 then []
  else [⟨"INVALID_LENGTH", "A repository workflow must contain 1-160 nodes."⟩]

def unknownErrors (nodeIds : List String) : List WorkflowError :=
  (Text.sorted (nodeIds.filter (· ∉ catalog.ids)).dedup).map fun nodeId =>
    ⟨"UNKNOWN_NODE", "Unknown repository graph node: " ++ nodeId⟩

def startErrors (role : String) (nodeIds : List String) : List WorkflowError :=
  match nodeIds with
  | [] => []
  | first :: _ =>
    if first ∈ catalog.ids ∧ role ∉ catalog.entryRoles first then
      [⟨"INVALID_START", "Workflow must begin at an extracted entry for the selected actor."⟩]
    else []

instance lawfulPair : LawfulBEq (String × String) := inferInstance

def edgeErrors (nodeIds : List String) : List WorkflowError :=
  (nodeIds.zip nodeIds.tail).filterMap fun pair =>
    if pair.1 ∈ catalog.ids ∧ pair.2 ∈ catalog.ids ∧ pair ∉ catalog.allowedEdges then
      some ⟨"DISCONNECTED_EDGE",
        "No extracted transition exists from " ++ pair.1 ++ " to " ++ pair.2 ++ "."⟩
    else none

/-- `RepositoryWorkflowValidator.validate` -/
def validate (definition : WorkflowDefinition) : WorkflowValidation :=
  let normalized := definition.normalized
  { errors := nameErrors normalized.name ++ descriptionErrors normalized.description ++
      catalog.roleErrors normalized.actorRole ++ lengthErrors normalized.nodeIds ++
      catalog.unknownErrors normalized.nodeIds ++
      catalog.startErrors normalized.actorRole normalized.nodeIds ++
      catalog.edgeErrors normalized.nodeIds
    normalized := normalized }

/-! What is accepted. -/

/-- A definition that has no errors. -/
structure Accepts (definition : WorkflowDefinition) : Prop where
  name : 3 ≤ definition.name.length ∧ definition.name.length ≤ 100
  description : definition.description.length ≤ 500
  role : definition.actorRole ∈ catalog.roles
  length : 1 ≤ definition.nodeIds.length ∧ definition.nodeIds.length ≤ 160
  nodes : ∀ id ∈ definition.nodeIds, id ∈ catalog.ids
  start : ∀ id ∈ definition.nodeIds.head?, definition.actorRole ∈ catalog.entryRoles id
  edges : ∀ pair ∈ definition.nodeIds.zip definition.nodeIds.tail, pair ∈ catalog.allowedEdges

variable {catalog} {definition : WorkflowDefinition}

theorem unknownErrors_nil {nodeIds : List String} :
    catalog.unknownErrors nodeIds = [] ↔ ∀ id ∈ nodeIds, id ∈ catalog.ids := by
  have hmem : ∀ id, id ∈ Text.sorted (nodeIds.filter (· ∉ catalog.ids)).dedup ↔
      id ∈ nodeIds ∧ id ∉ catalog.ids := by
    intro id
    rw [CodeGraph.mem_sorted, List.mem_dedup, List.mem_filter, decide_eq_true_eq]
  unfold unknownErrors
  rw [List.map_eq_nil_iff, List.eq_nil_iff_forall_not_mem]
  refine forall_congr' fun id => ?_
  rw [hmem, not_and_not_right]

theorem startErrors_nil {role : String} {nodeIds : List String}
    (hnodes : ∀ id ∈ nodeIds, id ∈ catalog.ids) :
    catalog.startErrors role nodeIds = [] ↔
      ∀ id ∈ nodeIds.head?, role ∈ catalog.entryRoles id := by
  cases nodeIds with
  | nil => exact iff_of_true rfl fun _ h => by cases h
  | cons first rest =>
    have hfirst := hnodes first List.mem_cons_self
    simp [startErrors, hfirst]

theorem edgeErrors_nil {nodeIds : List String} (hnodes : ∀ id ∈ nodeIds, id ∈ catalog.ids) :
    catalog.edgeErrors nodeIds = [] ↔
      ∀ pair ∈ nodeIds.zip nodeIds.tail, pair ∈ catalog.allowedEdges := by
  unfold edgeErrors
  rw [List.filterMap_eq_nil_iff]
  refine forall₂_congr fun pair hpair => ?_
  obtain ⟨hsource, htarget⟩ := List.of_mem_zip hpair
  have hknown : pair.1 ∈ catalog.ids ∧ pair.2 ∈ catalog.ids :=
    ⟨hnodes _ hsource, hnodes _ (List.mem_of_mem_tail htarget)⟩
  simp [hknown]

/-- What has no errors is what is accepted. -/
theorem validate_errors : (catalog.validate definition).errors = [] ↔
    catalog.Accepts definition.normalized := by
  unfold validate
  simp only [List.append_eq_nil_iff]
  constructor
  · rintro ⟨⟨⟨⟨⟨⟨hname, hdescription⟩, hrole⟩, hlength⟩, hunknown⟩, hstart⟩, hedges⟩
    have hnodes := unknownErrors_nil.mp hunknown
    refine ⟨?_, ?_, ?_, ?_, hnodes, (startErrors_nil hnodes).mp hstart,
      (edgeErrors_nil hnodes).mp hedges⟩
    · simpa [nameErrors] using hname
    · simpa [descriptionErrors] using hdescription
    · simpa [roleErrors] using hrole
    · simpa [lengthErrors] using hlength
  · intro h
    refine ⟨⟨⟨⟨⟨⟨if_pos h.name, if_neg (Nat.not_lt.mpr h.description)⟩, if_pos h.role⟩,
      if_pos h.length⟩, unknownErrors_nil.mpr h.nodes⟩, (startErrors_nil h.nodes).mpr h.start⟩,
      (edgeErrors_nil h.nodes).mpr h.edges⟩

end RepositoryCatalog

/-! Blanks at the end of an identifier. -/

def endsBlank (s : String) : Bool := s.toList.getLast?.any Text.isSpace

theorem endsBlank_append {s rest : String} (hs : endsBlank s = false) :
    endsBlank (s ++ rest) = endsBlank rest := by
  unfold endsBlank at *
  rw [String.toList_append, List.getLast?_append]
  cases rest.toList.getLast? with
  | none => exact hs
  | some c => rfl

theorem endsBlank_last {rest : String} (s : String) (hrest : rest ≠ "") :
    endsBlank (s ++ rest) = endsBlank rest := by
  have hne : rest.toList ≠ [] := fun h => hrest (String.toList_eq_nil_iff.mp h)
  unfold endsBlank
  rw [String.toList_append, List.getLast?_append_of_ne_nil _ hne]

theorem endsBlank_of_chars {s : String} (h : ∀ c ∈ s.toList, Text.isSpace c = false) :
    endsBlank s = false := by
  unfold endsBlank
  cases hlast : s.toList.getLast? with
  | none => rfl
  | some c => exact h c (List.mem_of_getLast? hlast)

theorem isSpace_of_isAlphanum {c : Char} (h : c.isAlphanum = true) : Text.isSpace c = false := by
  have hcode : (65 ≤ c.toNat ∧ c.toNat ≤ 90) ∨ (97 ≤ c.toNat ∧ c.toNat ≤ 122) ∨
      (48 ≤ c.toNat ∧ c.toNat ≤ 57) := by
    simp only [Char.isAlphanum, Char.isAlpha, Char.isUpper, Char.isLower, Char.isDigit,
      Bool.or_eq_true, Bool.and_eq_true, decide_eq_true_eq, or_assoc] at h
    exact h
  simp only [Text.isSpace, Bool.or_eq_false_iff, Bool.and_eq_false_iff, decide_eq_false_iff_not]
  omega

/-- A number does not end in a blank. -/
theorem endsBlank_number (s : String) (n : Nat) : endsBlank (s ++ toString n) = false := by
  have hdigits : (toString n).toList = Nat.toDigits 10 n := String.toList_ofList
  have hne : toString n ≠ "" := by
    intro h
    have hnil : (toString n).toList = [] := String.toList_eq_nil_iff.mpr h
    exact absurd (hdigits.symm.trans hnil) Nat.toDigits_ne_nil
  rw [endsBlank_last s hne]
  apply endsBlank_of_chars
  intro c hc
  rw [hdigits] at hc
  have hdigit := Nat.isDigit_of_mem_toDigits (by decide) (by decide) hc
  exact isSpace_of_isAlphanum (by simp [Char.isAlphanum, hdigit])

/-- The first character is no blank. -/
def Labelled (s : String) : Prop := ∃ c, s.toList.head? = some c ∧ Text.isSpace c = false

theorem Labelled.append {s : String} (h : Labelled s) (t : String) : Labelled (s ++ t) := by
  obtain ⟨c, hfirst, hc⟩ := h
  refine ⟨c, ?_, hc⟩
  rw [String.toList_append, List.head?_append, hfirst]
  rfl

/-- What begins with a label is kept by `strip` unless it ends in a blank. -/
theorem strip_iff {s : String} (h : Labelled s) : Text.strip s = s ↔ endsBlank s = false := by
  constructor
  · intro hstrip
    have hchars : Text.trimBy Text.isSpace s.toList = s.toList := by
      have htexts := congrArg String.toList hstrip
      rw [Text.strip, String.toList_ofList] at htexts
      exact htexts
    unfold endsBlank
    cases hlast : s.toList.getLast? with
    | none => rfl
    | some c =>
      rw [← hchars] at hlast
      exact Text.trimBy_last hlast
  · intro hlast
    have hchars : Text.trimBy Text.isSpace s.toList = s.toList := by
      apply Text.trimBy_of_ends
      · intro c hc
        obtain ⟨first, hfirst, hplain⟩ := h
        cases hfirst.symm.trans hc
        exact hplain
      · intro c hc
        unfold endsBlank at hlast
        rw [hc] at hlast
        exact hlast
    show String.ofList (Text.trimBy Text.isSpace s.toList) = s
    rw [hchars, String.ofList_toList]

/-! What the identifiers of a Python repository end in. -/

section
variable {readers : SourceReaders} {functions : Dict String FunctionFact} {fact : FunctionFact}

mutual
/-- A symbol ends in the name of its function. -/
theorem symbol_collectDefinition {module : PyModule} {imports : Dict String String}
    {className : Option String} {parents : List String} : ∀ statement : PyStmt,
    ∀ fact ∈ collectDefinition module imports className parents statement,
      ∃ owner, fact.symbol = owner ++ fact.name.text
  | .classDef name body => by
    rw [collectDefinition]
    exact symbol_collectDefinitions body
  | .function name line annotations decorators body => by
    rw [collectDefinition]
    refine List.forall_mem_cons.mpr ⟨?_, symbol_collectDefinitions body⟩
    dsimp only
    unfold functionSymbol
    split
    · exact ⟨_, rfl⟩
    · split
      · exact ⟨_, rfl⟩
      · exact ⟨_, rfl⟩
  | .importNames _ => fun _ h => absurd h List.not_mem_nil
  | .importFrom _ _ => fun _ h => absurd h List.not_mem_nil
  | .check _ _ _ _ _ _ => fun _ h => absurd h List.not_mem_nil
  | .scope _ _ _ _ => fun _ h => absurd h List.not_mem_nil
  | .other _ _ => fun _ h => absurd h List.not_mem_nil

theorem symbol_collectDefinitions {module : PyModule} {imports : Dict String String}
    {className : Option String} {parents : List String} : ∀ body : List PyStmt,
    ∀ fact ∈ collectDefinitions module imports className parents body,
      ∃ owner, fact.symbol = owner ++ fact.name.text
  | [] => fun _ h => absurd h List.not_mem_nil
  | statement :: rest => by
    intro fact hfact
    rw [collectDefinitions] at hfact
    rcases List.mem_append.mp hfact with hstatement | hrest
    · exact symbol_collectDefinition statement fact hstatement
    · exact symbol_collectDefinitions rest fact hrest
end

theorem endsBlank_symbol {tree : List TreeFile} (h : fact ∈ pythonDefinitions readers tree) :
    endsBlank fact.symbol = false := by
  obtain ⟨module, -, hfact⟩ := List.mem_flatMap.mp h
  obtain ⟨owner, hsymbol⟩ := symbol_collectDefinitions _ fact hfact
  rw [hsymbol, endsBlank_last owner fact.name.nonempty]
  exact endsBlank_of_chars fact.name.plain

/-- The symbols of the functions do not end in blanks. -/
def CleanSymbols (functions : Dict String FunctionFact) : Prop :=
  ∀ symbol ∈ functions.keys, endsBlank symbol = false

theorem cleanSymbols_pythonFunctions (readers : SourceReaders) (tree : List TreeFile) :
    CleanSymbols (pythonFunctions readers tree) := by
  intro symbol hsymbol
  obtain ⟨item, hitem, rfl⟩ := List.mem_map.mp hsymbol
  obtain ⟨hfact, hkey⟩ := mem_pythonFunctions hitem
  rw [hkey]
  exact endsBlank_symbol hfact

theorem strip_function {symbol : String} (h : endsBlank symbol = false) :
    Text.strip ("function:" ++ symbol) = "function:" ++ symbol := by
  have hlabel : Labelled "function:" := ⟨'f', rfl, by decide⟩
  rw [strip_iff (hlabel.append symbol), endsBlank_append (by decide)]
  exact h

theorem strip_numbered {s : String} (h : Labelled s) (n : Nat) :
    Text.strip (s ++ toString n) = s ++ toString n :=
  (strip_iff (h.append _)).mpr (endsBlank_number s n)

theorem strip_foundChecks (checks : List PyCheck) (seen : List String) :
    ∀ found ∈ foundChecks readers fact seen checks, Text.strip found.target = found.target := by
  have hlabel : Labelled "check:" := ⟨'c', rfl, by decide⟩
  induction checks generalizing seen with
  | nil => exact fun _ h => absurd h List.not_mem_nil
  | cons check rest ih =>
    rw [foundChecks]
    exact List.forall_mem_cons.mpr
      ⟨strip_numbered ((((hlabel.append _).append _).append _).append _) _, ih _⟩

theorem strip_foundCalls (hclean : CleanSymbols functions) (calls : List PyCall)
    (seen : List String) :
    ∀ found ∈ foundCalls readers functions fact seen calls,
      Text.strip found.target = found.target := by
  have hlabel : Labelled "sql:" := ⟨'s', rfl, by decide⟩
  induction calls generalizing seen with
  | nil => exact fun _ h => absurd h List.not_mem_nil
  | cons call rest ih =>
    rw [foundCalls]
    split
    · exact List.forall_mem_cons.mpr
        ⟨strip_numbered ((((hlabel.append _).append _).append _).append _) _, ih _⟩
    · split
      · next target htarget =>
        split
        · exact ih seen
        · exact List.forall_mem_cons.mpr
            ⟨strip_function (hclean target (resolveCall_some htarget)), ih seen⟩
      · exact ih seen

theorem strip_foundIn (hclean : CleanSymbols functions) :
    ∀ found ∈ foundIn readers functions fact, Text.strip found.target = found.target := by
  have hlabel : Labelled "transaction:" := ⟨'t', rfl, by decide⟩
  intro found hfound
  rcases List.mem_append.mp hfound with hfound | hcall
  · rcases List.mem_append.mp hfound with hcheck | htransaction
    · exact strip_foundChecks _ _ found hcheck
    · obtain ⟨place, -, rfl⟩ := List.mem_map.mp htransaction
      exact strip_numbered ((hlabel.append _).append _) place.1
  · exact strip_foundCalls hclean _ _ found hcall

theorem strip_route (route : String × String) :
    Text.strip (routeId route) = routeId route ↔ endsBlank route.2 = false := by
  have hlabel : Labelled "route:" := ⟨'r', rfl, by decide⟩
  have hcolon : endsBlank ("route:" ++ route.1 ++ ":") = false := by
    rw [endsBlank_last _ (by decide)]
    decide
  rw [routeId, strip_iff (((hlabel.append _).append _).append _), endsBlank_append hcolon]

/-- But for routes, the nodes of the flows do not end in blanks. -/
theorem strip_pythonFlowIds {tree : List TreeFile}
    (hroutes : ∀ route ∈ routesOf (pythonFunctions readers tree), endsBlank route.2 = false) :
    ∀ id ∈ pythonFlowIds readers (pythonFunctions readers tree), Text.strip id = id := by
  have hclean := cleanSymbols_pythonFunctions readers tree
  intro id hid
  rcases List.mem_append.mp hid with hroute | hrest
  · obtain ⟨item, hitem, rfl⟩ := List.mem_map.mp hroute
    have hmem := (routed_perm _).mem_iff.mp (List.mem_map_of_mem (f := (·.2)) hitem)
    exact (strip_route item.2).mpr (hroutes item.2 hmem)
  · rcases List.mem_append.mp hrest with htarget | hfunction
    · obtain ⟨fact, -, hown⟩ := List.mem_flatMap.mp htarget
      obtain ⟨found, hfound, rfl⟩ := List.mem_map.mp hown
      exact strip_foundIn hclean found hfound
    · obtain ⟨item, hitem, rfl⟩ := List.mem_map.mp hfunction
      exact strip_function (endsBlank_symbol (mem_pythonFunctions hitem).1)

theorem head_dedupeConsecutive (sequence : List String) :
    (dedupeConsecutive sequence).head? = sequence.head? := by
  fun_induction dedupeConsecutive sequence with
  | case1 => rfl
  | case2 => rfl
  | case3 value rest ih => exact ih
  | case4 => rfl

theorem length_dedupeConsecutive (sequence : List String) :
    (dedupeConsecutive sequence).length ≤ sequence.length := by
  fun_induction dedupeConsecutive sequence with
  | case1 => exact le_rfl
  | case2 => exact le_rfl
  | case3 value rest ih => exact ih.trans (Nat.le_succ _)
  | case4 value next rest hne ih => exact Nat.succ_le_succ ih

/-- A sequence that starts at a node has it and is of a length that can be saved. -/
theorem boundedSequence_cons (id : String) (rest : List String) :
    (boundedSequence (id :: rest)).head? = some id ∧
      (boundedSequence (id :: rest)).length ≤ 160 := by
  unfold boundedSequence
  constructor
  · rw [head_dedupeConsecutive]
    rfl
  · exact (length_dedupeConsecutive _).trans (List.length_take_le 160 _)

/-- The roles that flows are given. -/
def flowRoles : List String := "SYSTEM" :: "PUBLIC" :: roleByAnnotation.flatMap (·.2)

theorem normalized_flowRoles : ∀ role ∈ flowRoles, normalizedRole role = role := by decide

theorem annotatedRoles_flow (annotations : List PyExpr) :
    annotatedRoles annotations ≠ [] ∧ ∀ role ∈ annotatedRoles annotations, role ∈ flowRoles := by
  unfold annotatedRoles
  dsimp only
  generalize hdiscovered : annotations.flatMap _ = discovered
  have hknown : ∀ role ∈ discovered, role ∈ flowRoles := by
    intro role hrole
    rw [← hdiscovered] at hrole
    obtain ⟨expr, -, hentries⟩ := List.mem_flatMap.mp hrole
    obtain ⟨entry, hentry, hown⟩ := List.mem_flatMap.mp hentries
    have hall := List.mem_flatMap.mpr ⟨entry, (List.mem_filter.mp hentry).1, hown⟩
    exact List.mem_cons_of_mem _ (List.mem_cons_of_mem _ hall)
  split
  · exact ⟨List.cons_ne_nil _ _, by decide⟩
  · next hne =>
    obtain ⟨first, rest, rfl⟩ := List.exists_cons_of_ne_nil hne
    rw [List.foldl_cons]
    apply List.foldlRecOn (motive := fun roles => roles ≠ [] ∧ ∀ role ∈ roles, role ∈ flowRoles)
    · refine ⟨List.cons_ne_nil _ _, fun role hrole => ?_⟩
      rw [List.mem_singleton.mp hrole]
      exact hknown first List.mem_cons_self
    · rintro roles ⟨hroles, hall⟩ role hrole
      split
      · exact ⟨hroles, hall⟩
      · refine ⟨List.append_ne_nil_of_left_ne_nil hroles _, fun other hother => ?_⟩
        rcases List.mem_append.mp hother with hold | hnew
        · exact hall other hold
        · rw [List.mem_singleton.mp hnew]
          exact hknown role (List.mem_cons_of_mem _ hrole)

/-- A flow of a length that can be saved, under roles that the validator knows. -/
structure CodeFlow.Bounded (flow : CodeFlow) : Prop where
  nonempty : flow.nodeIds ≠ []
  length : flow.nodeIds.length ≤ 160
  someRole : flow.actorRoles ≠ []
  roles : ∀ role ∈ flow.actorRoles, role ∈ flowRoles

theorem boundedSequence_ne_nil (id : String) (rest : List String) :
    boundedSequence (id :: rest) ≠ [] := by
  intro hnil
  have hhead := (boundedSequence_cons id rest).1
  rw [hnil] at hhead
  cases hhead

theorem bounded_pythonFlows {tree : List TreeFile} {flow : CodeFlow}
    (h : flow ∈ pythonFlows readers tree) : flow.Bounded := by
  rcases List.mem_append.mp h with hroute | hsystem
  · obtain ⟨item, -, rfl⟩ := List.mem_map.mp hroute
    obtain ⟨hroles, hknown⟩ := annotatedRoles_flow item.1.annotations
    exact ⟨boundedSequence_ne_nil _ _, (boundedSequence_cons _ _).2, hroles, hknown⟩
  · obtain ⟨fact, -, rfl⟩ := List.mem_map.mp hsystem
    refine ⟨boundedSequence_ne_nil _ _, (boundedSequence_cons _ _).2, List.cons_ne_nil _ _, ?_⟩
    intro role hrole
    rw [List.mem_singleton.mp hrole]
    exact List.mem_cons_self

/-- The flows of a Python repository are kept by `strip` exactly when its routes do not end in
blanks. -/
theorem strip_pythonFlows {tree : List TreeFile} :
    (∀ flow ∈ pythonFlows readers tree, ∀ id ∈ flow.nodeIds, Text.strip id = id) ↔
      ∀ route ∈ routesOf (pythonFunctions readers tree), endsBlank route.2 = false := by
  constructor
  · intro h route hroute
    obtain ⟨item, hitem, rfl⟩ := List.mem_map.mp ((routed_perm _).mem_iff.mpr hroute)
    have hflow : routeFlow readers (pythonFunctions readers tree) item ∈ pythonFlows readers tree :=
      List.mem_append_left _ (List.mem_map_of_mem hitem)
    apply (strip_route item.2).mp
    exact h _ hflow _ (List.mem_of_mem_head? (boundedSequence_cons _ _).1)
  · intro hroutes flow hflow id hid
    exact strip_pythonFlowIds hroutes id (mem_pythonFlows hflow id hid)

end
/-! What the identifiers of a Terraform repository end in. -/

section
variable {readers : SourceReaders} {blocks : List TerraformBlock} {graph : CodeGraph}
  {tree : List TreeFile} {items : List TerraformItem}

/-- A reference has no blanks. -/
theorem hclReference_uses {c : Char} (h : hclReference.uses c = true) : Text.isSpace c = false := by
  by_cases hletter : c.isAlphanum = true
  · exact isSpace_of_isAlphanum hletter
  · have hother : ∀ d : Char, d.isAlphanum = true → c ≠ d := by
      rintro d hd rfl
      exact hletter hd
    have halpha : ¬c.isAlpha = true := fun halpha => hletter (by simp [Char.isAlphanum, halpha])
    have hplain : c = '_' ∨ c = '-' ∨ c = '.' := by
      simp [hclReference, Pattern.uses, Pattern.all, Pattern.any, exactly, Pattern.literal,
        Pattern.one, hclName, Pattern.many, isHclStart, isHclPart, hletter, halpha,
        hother 'v' rfl, hother 'a' rfl, hother 'r' rfl, hother 'l' rfl, hother 'o' rfl,
        hother 'c' rfl, hother 'm' rfl, hother 'd' rfl, hother 'u' rfl, hother 'e' rfl,
        hother 't' rfl] at h
      tauto
    rcases hplain with rfl | rfl | rfl
    · decide
    · decide
    · decide

theorem endsBlank_reference {block : TerraformBlock} {reference : String}
    (h : Refers readers block reference) : endsBlank reference = false := by
  obtain ⟨m, hm, rfl⟩ := List.mem_map.mp h
  obtain ⟨before, text, hmatch⟩ := Pattern.mem_findAll hm
  apply endsBlank_of_chars
  intro c hc
  rw [String.toList_ofList] at hc
  exact hclReference_uses (Pattern.whole_uses hmatch c hc)

theorem plainOf_labelled (block : TerraformBlock) : Labelled (plainOf readers block) := by
  have hlabel : Labelled "terraform:" := ⟨'t', rfl, by decide⟩
  exact ((hlabel.append _).append _).append _

variable (readers) in
theorem strip_plain (block : TerraformBlock) :
    Text.strip (plainOf readers block) = plainOf readers block ↔
      endsBlank (addressOf readers block) = false := by
  have hcolon : endsBlank ("terraform:" ++ block.blockType ++ ":") = false := by
    rw [endsBlank_last _ (by decide)]
    decide
  rw [strip_iff (plainOf_labelled block), plainOf, plainId, endsBlank_append hcolon]

variable (readers) in
theorem strip_placed (block : TerraformBlock) :
    Text.strip (placedOf readers block) = placedOf readers block :=
  strip_numbered ((((plainOf_labelled block).append _).append _).append _) block.line

/-- An identifier of a block is kept by `strip` where the block's address does not end in a
blank. -/
theorem strip_identified {entry : String × TerraformBlock} (h : entry ∈ identified readers blocks)
    (haddress : endsBlank (addressOf readers entry.2) = false) : Text.strip entry.1 = entry.1 := by
  rcases identified_entry h with hplain | ⟨hplaced, -⟩
  · rw [hplain]
    exact (strip_plain readers entry.2).mpr haddress
  · rw [hplaced]
    exact strip_placed readers entry.2

/-- What the graph has depend on are nodes that `strip` keeps. -/
def CleanTargets (graph : CodeGraph) : Prop :=
  ∀ u v, DependsOn graph u v → Text.strip v = v

theorem CleanTargets.addEdge (h : CleanTargets graph) {edge : GraphEdge} (flowId : Option String)
    (hedge : edge.type = "depends_on" → Text.strip edge.target = edge.target) :
    CleanTargets (graph.addEdge edge flowId) := by
  intro u v hdepends
  cases mem_addEdge.mp hdepends with
  | inl hold => exact h u v hold
  | inr hnew =>
    subst hnew
    exact hedge rfl

theorem cleanTargets_indexReferences (hitems : terraformItems readers tree = .ok items) :
    CleanTargets (indexReferences readers (indexBlocks readers items)) := by
  have hindexed := indexed_tree hitems
  apply List.foldlRecOn (motive := CleanTargets)
  · exact fun u v hdepends => absurd rfl (hindexed.edges _ hdepends)
  · intro graph hgraph item _
    apply List.foldlRecOn (motive := CleanTargets) _ _ hgraph
    intro graph hgraph target htarget
    refine hgraph.addEdge _ fun _ => ?_
    obtain ⟨reference, hrefers, hget⟩ := mem_references.mp (List.mem_filter.mp htarget).1
    rw [hindexed.addresses, Option.map_eq_some_iff] at hget
    obtain ⟨entry, hentry, rfl⟩ := hget
    have haddress : addressOf readers entry.2 = reference := by
      simpa using List.find?_some hentry
    apply strip_identified (List.mem_of_find?_eq_some hentry)
    rw [haddress]
    exact endsBlank_reference hrefers

theorem CleanTargets.indexDocuments (h : CleanTargets graph) (documents : List (CodeNode × String))
    (mentions : CodeNode → String → Bool) : CleanTargets (graph.indexDocuments documents mentions) := by
  have hnodes : CleanTargets ((documents.map (·.1)).foldl CodeGraph.addNode graph) := by
    apply List.foldlRecOn (motive := CleanTargets) _ _ h
    exact fun graph hgraph node _ => hgraph
  apply List.foldlRecOn (motive := CleanTargets) _ _ hnodes
  intro graph hgraph node _
  apply List.foldlRecOn (motive := CleanTargets) _ _ hgraph
  intro graph hgraph document _
  refine hgraph.addEdge _ fun htype => ?_
  have hother : "documented_by" = "depends_on" := htype
  exact absurd hother (by decide)

/-- A dependency sequence has its start and otherwise what something depends on. -/
theorem dependencySequence_head (graph : CodeGraph) (nodeId : String) :
    (dependencySequence graph nodeId).head? = some nodeId := by
  obtain ⟨hhead, -, -⟩ := visitDependencies_sound graph nodeId
  rw [dependencySequence, List.head?_take, if_neg (by decide), hhead]

theorem mem_dependencySequence {nodeId id : String} (h : id ∈ dependencySequence graph nodeId) :
    id = nodeId ∨ ∃ u, DependsOn graph u id := by
  obtain ⟨-, -, hwithin⟩ := visitDependencies_sound graph nodeId
  obtain ⟨p, hp, -⟩ := hwithin id (List.mem_of_mem_take h)
  rcases hp.last with ⟨hstart, -⟩ | ⟨u, q, -, hedge, -⟩
  · exact .inl hstart.symm
  · exact .inr ⟨u, hedge⟩

theorem bounded_terraformFlows {flow : CodeFlow} (h : flow ∈ terraformFlows graph) :
    flow.Bounded := by
  obtain ⟨node, -, rfl⟩ := List.mem_map.mp h
  refine ⟨fun hnil => ?_, List.length_take_le 160 _, List.cons_ne_nil _ _, fun role hrole => ?_⟩
  · have hhead := dependencySequence_head graph node.id
    have hnone : dependencySequence graph node.id = [] := hnil
    rw [hnone] at hhead
    cases hhead
  · rw [List.mem_singleton.mp hrole]
    exact List.mem_cons_self

/-- Each block that is kept and has a flow has that of its dependencies. -/
theorem mem_terraformFlows (hnodes : BlockNodes readers blocks graph) {flow : CodeFlow} :
    flow ∈ terraformFlows graph ↔ ∃ entry ∈ keptFlows readers blocks,
      flow = ⟨"default:terraform:" ++ addressOf readers entry.2, ["SYSTEM"],
        dependencySequence graph entry.1⟩ := by
  have hitems : ∀ item : String × CodeNode, item ∈ graph.nodes.items ∧ item.2.kind ∈ flowKinds ↔
      ∃ entry ∈ keptFlows readers blocks,
        (entry.1, blockNode entry.1 (addressOf readers entry.2) entry.2) = item := by
    intro item
    rw [← List.mem_map, ← hnodes.perm.mem_iff, List.mem_filter, decide_eq_true_eq]
  unfold terraformFlows
  simp only [List.mem_map, List.mem_filter, decide_eq_true_eq, (List.mergeSort_perm _ _).mem_iff]
  constructor
  · rintro ⟨node, ⟨⟨item, hitem, rfl⟩, hkind⟩, rfl⟩
    obtain ⟨entry, hentry, rfl⟩ := (hitems item).mp ⟨hitem, hkind⟩
    exact ⟨entry, hentry, rfl⟩
  · rintro ⟨entry, hentry, rfl⟩
    obtain ⟨hitem, hkind⟩ := (hitems _).mpr ⟨entry, hentry, rfl⟩
    exact ⟨_, ⟨⟨_, hitem, rfl⟩, hkind⟩, rfl⟩

/-- The flows of a Terraform repository are kept by `strip` exactly when no address of a block
with a flow ends in a blank. -/
theorem strip_terraformFlows (htypes : ∀ block ∈ blocks, ':' ∉ block.blockType.toList)
    (hnodes : BlockNodes readers blocks graph) (htargets : CleanTargets graph) :
    (∀ flow ∈ terraformFlows graph, ∀ id ∈ flow.nodeIds, Text.strip id = id) ↔
      ∀ block ∈ flowBlocks blocks, endsBlank (addressOf readers block) = false := by
  constructor
  · intro h block hblock
    obtain ⟨hmem, hflow⟩ := mem_flowBlocks.mp hblock
    have huse : plainOf readers block ∈ (identified readers blocks).map Prod.fst := by
      obtain ⟨earlier, later, rfl⟩ := List.append_of_mem hmem
      exact mem_identified.mpr (.plain earlier block later)
    -- whichever block is kept there has the type of this one, and so a flow
    obtain ⟨kept, hkept⟩ := exists_kept huse
    have htype := kept_type htypes (kept_entry hkept) (htypes block hmem)
      (String.append_empty).symm
    have hentry : (plainOf readers block, kept) ∈ keptFlows readers blocks :=
      mem_keptFlows.mpr ⟨hkept, htype ▸ hflow⟩
    apply (strip_plain readers block).mp
    apply h _ ((mem_terraformFlows hnodes).mpr ⟨_, hentry, rfl⟩)
    exact List.mem_of_mem_head? (dependencySequence_head graph _)
  · intro haddresses flow hflow id hid
    obtain ⟨entry, hentry, rfl⟩ := (mem_terraformFlows hnodes).mp hflow
    rcases mem_dependencySequence hid with rfl | ⟨u, hdepends⟩
    · obtain ⟨hkept, hown⟩ := mem_keptFlows.mp hentry
      have hidentified := kept_entry hkept
      exact strip_identified hidentified
        (haddresses _ (mem_flowBlocks.mpr ⟨identified_mem hidentified, hown⟩))
    · exact htargets u id hdepends

end

/-! Which flows can be saved. -/

/-- The validator takes the nodes of the flow unchanged, whatever the workflow is called and
whichever role of the flow it is for. -/
def RepositoryCatalog.Saves (catalog : RepositoryCatalog) (flow : CodeFlow) : Prop :=
  ∀ definition : WorkflowDefinition, 3 ≤ (Text.strip definition.name).length →
    (Text.strip definition.name).length ≤ 100 → definition.description.length ≤ 500 →
    definition.actorRole ∈ flow.actorRoles → definition.nodeIds = flow.nodeIds →
    (catalog.validate definition).errors = [] ∧
      (catalog.validate definition).normalized.nodeIds = flow.nodeIds

theorem length_strip (s : String) : (Text.strip s).length ≤ s.length := by
  have hchars : (Text.stripChars s.toList).length ≤ s.toList.length := by
    rw [Text.stripChars, List.length_reverse]
    apply (List.dropWhile_suffix _).length_le.trans
    rw [List.length_reverse]
    exact (List.dropWhile_suffix _).length_le
  rw [Text.strip, String.length_ofList, ← String.length_toList]
  exact hchars

/-- A flow of a closed catalogue can be saved exactly when `strip` keeps its nodes. -/
theorem saves_iff {catalog : RepositoryCatalog} (hclosed : catalog.Closed) {flow : CodeFlow}
    (hflow : flow ∈ catalog.defaultFlows) (hbounded : flow.Bounded) :
    catalog.Saves flow ↔ ∀ id ∈ flow.nodeIds, Text.strip id = id := by
  have hnormalized : ∀ definition : WorkflowDefinition, definition.nodeIds = flow.nodeIds →
      (definition.normalized.nodeIds = flow.nodeIds ↔ ∀ id ∈ flow.nodeIds, Text.strip id = id) := by
    intro definition hsame
    have hids : definition.normalized.nodeIds = flow.nodeIds.map Text.strip := by
      rw [← hsame]
      rfl
    rw [hids]
    nth_rewrite 2 [← List.map_id flow.nodeIds]
    exact List.map_inj_left
  constructor
  · intro h
    obtain ⟨role, hrole⟩ := List.exists_mem_of_ne_nil _ hbounded.someRole
    have hname : 3 ≤ (Text.strip "abc").length ∧ (Text.strip "abc").length ≤ 100 := by decide
    have hsaved := h ⟨"abc", "", role, flow.nodeIds⟩ hname.1 hname.2 (Nat.zero_le 500) hrole rfl
    exact (hnormalized ⟨"abc", "", role, flow.nodeIds⟩ rfl).mp hsaved.2
  · intro hstrip definition hlow hhigh hdescription hrole hsame
    have hids := (hnormalized definition hsame).mpr hstrip
    have hroleSame : definition.normalized.actorRole = definition.actorRole :=
      normalized_flowRoles _ (hbounded.roles _ hrole)
    refine ⟨RepositoryCatalog.validate_errors.mpr ?_, hids⟩
    constructor
    · exact ⟨hlow, hhigh⟩
    · exact (length_strip _).trans hdescription
    · rw [hroleSame]
      refine List.mem_flatMap.mpr ⟨flow, hflow, ?_⟩
      rw [if_neg hbounded.nonempty]
      exact hrole
    · rw [hids]
      exact ⟨List.length_pos_iff.mpr hbounded.nonempty, hbounded.length⟩
    · rw [hids]
      exact hclosed.flows flow hflow
    · rw [hids, hroleSame]
      intro id hid
      refine List.mem_flatMap.mpr ⟨flow, hflow, ?_⟩
      rw [if_pos (Option.mem_def.mp hid)]
      exact hrole
    · rw [hids]
      intro pair hpair
      obtain ⟨flowIds, hedge, -⟩ := hclosed.joined flow hflow pair hpair
      have hnext : "next" ∈ allowedTypes := by decide
      exact List.mem_filterMap.mpr ⟨_, hedge, if_pos hnext⟩

/-! Repositories. -/

section
variable {readers : SourceReaders} {snapshot : RepositorySnapshot}

variable (readers) in
/-- No route's path and no address of a block with a flow ends in a blank. -/
structure TrimmedNames (functions : Dict String FunctionFact) (blocks : List TerraformBlock) :
    Prop where
  routes : ∀ route ∈ routesOf functions, endsBlank route.2 = false
  blocks : ∀ block ∈ flowBlocks blocks, endsBlank (addressOf readers block) = false

theorem pythonPart_flows {flow : CodeFlow} :
    flow ∈ (pythonPart readers snapshot).flatMap (·.defaultFlows) ↔
      snapshot.detectedLanguage ≠ .terraform ∧ flow ∈ pythonFlows readers snapshot.tree := by
  unfold pythonPart
  split
  · next hlanguage => exact iff_of_false List.not_mem_nil fun h => h.1 hlanguage
  · next hlanguage =>
    rw [List.flatMap_singleton, and_iff_right hlanguage]
    exact (List.mergeSort_perm _ _).mem_iff

theorem strip_pythonPart : (∀ flow ∈ (pythonPart readers snapshot).flatMap (·.defaultFlows),
      ∀ id ∈ flow.nodeIds, Text.strip id = id) ↔
    ∀ route ∈ routesOf (snapshotFunctions readers snapshot), endsBlank route.2 = false := by
  unfold snapshotFunctions
  by_cases hlanguage : snapshot.detectedLanguage = .terraform
  · rw [if_pos hlanguage]
    refine iff_of_true (fun flow hflow => ?_) fun route hroute => absurd hroute List.not_mem_nil
    exact absurd hlanguage (pythonPart_flows.mp hflow).1
  · rw [if_neg hlanguage, ← strip_pythonFlows]
    simp only [pythonPart_flows, and_iff_right (show snapshot.detectedLanguage ≠ .terraform from
      hlanguage)]

variable (readers) in
/-- The graph that the flows of a Terraform repository are read off. -/
def documentedGraph (tree : List TreeFile) (items : List TerraformItem) : CodeGraph :=
  (indexReferences readers (indexBlocks readers items)).indexDocuments
    (documentNodes (redactSensitiveText readers.word) tree) terraformMentions

theorem mem_terraformCatalog {tree : List TreeFile} {items : List TerraformItem}
    {flow : CodeFlow} :
    flow ∈ [terraformCatalog readers tree items].flatMap (·.defaultFlows) ↔
      flow ∈ terraformFlows (documentedGraph readers tree items) := by
  rw [List.flatMap_singleton]
  exact (List.mergeSort_perm _ _).mem_iff

theorem strip_terraformPart {catalogs : List RepositoryCatalog}
    (h : terraformPart readers snapshot = .ok catalogs) :
    (∀ flow ∈ catalogs.flatMap (·.defaultFlows), ∀ id ∈ flow.nodeIds, Text.strip id = id) ↔
      ∀ block ∈ flowBlocks (snapshotBlocks readers snapshot),
        endsBlank (addressOf readers block) = false := by
  unfold snapshotBlocks
  rcases terraformPart_ok h with ⟨hpython, rfl⟩ | ⟨hterraform, items, hitems, rfl⟩
  · rw [if_pos hpython]
    exact iff_of_true (fun _ hflow => absurd hflow List.not_mem_nil)
      fun _ hblock => absurd hblock List.not_mem_nil
  · have hflows := strip_terraformFlows (fun block hblock => extracted_type hitems hblock)
      (blockNodes_documented hitems (redactSensitiveText readers.word) terraformMentions)
      ((cleanTargets_indexReferences hitems).indexDocuments
        (documentNodes (redactSensitiveText readers.word) snapshot.tree) terraformMentions)
    rw [if_neg hterraform, hitems]
    simp only [mem_terraformCatalog]
    exact hflows

theorem bounded_parts {catalogs : List RepositoryCatalog}
    (h : terraformPart readers snapshot = .ok catalogs) {flow : CodeFlow}
    (hflow : flow ∈ (pythonPart readers snapshot ++ catalogs).flatMap (·.defaultFlows)) :
    flow.Bounded := by
  rw [List.flatMap_append] at hflow
  rcases List.mem_append.mp hflow with hpython | hterraform
  · exact bounded_pythonFlows (pythonPart_flows.mp hpython).2
  · rcases terraformPart_ok h with ⟨-, rfl⟩ | ⟨-, items, -, rfl⟩
    · exact absurd hterraform List.not_mem_nil
    · exact bounded_terraformFlows (mem_terraformCatalog.mp hterraform)

/-- The default flows can be saved exactly when no route's path and no address of a block with a
flow ends in a blank. -/
theorem catalog_saves_iff {catalog : RepositoryCatalog}
    (h : buildRepositoryCatalog readers snapshot = .ok catalog) :
    (∀ flow ∈ catalog.defaultFlows, catalog.Saves flow) ↔
      TrimmedNames readers (snapshotFunctions readers snapshot)
        (snapshotBlocks readers snapshot) := by
  have hclosed := closed_buildRepositoryCatalog h
  obtain ⟨terraform, hterraform, rfl⟩ := buildRepositoryCatalog_ok h
  have hmem : ∀ flow, flow ∈ (mergeCatalogs (pythonPart readers snapshot ++ terraform)).defaultFlows ↔
      flow ∈ (pythonPart readers snapshot ++ terraform).flatMap (·.defaultFlows) :=
    fun flow => (mergeCatalogs_flows _).mem_iff
  have hstrip : (∀ flow ∈ (mergeCatalogs (pythonPart readers snapshot ++ terraform)).defaultFlows,
      (mergeCatalogs (pythonPart readers snapshot ++ terraform)).Saves flow) ↔
      ∀ flow ∈ (pythonPart readers snapshot ++ terraform).flatMap (·.defaultFlows),
        ∀ id ∈ flow.nodeIds, Text.strip id = id := by
    simp only [hmem]
    exact forall₂_congr fun flow hflow =>
      saves_iff hclosed ((hmem flow).mpr hflow) (bounded_parts hterraform hflow)
  rw [hstrip, List.flatMap_append, List.forall_mem_append, strip_pythonPart,
    strip_terraformPart hterraform]
  constructor
  · exact fun hnames => ⟨hnames.1, hnames.2⟩
  · exact fun hnames => ⟨hnames.routes, hnames.blocks⟩

end

/-! The route beside an output, and a route whose path ends in a blank. -/

theorem routeAndOutput_trimmed : TrimmedNames handlerReaders
    (snapshotFunctions handlerReaders routeAndOutput)
    (snapshotBlocks handlerReaders routeAndOutput) := by
  constructor
  · decide +kernel
  · decide +kernel

def blankHandler : PyStmt :=
  .function ⟨"show", by decide, by decide⟩ 3 []
    [.call 2 1 (.attribute (.name "router") "get") [.text "/items "] []] []

/-- Readers that find the handler in every Python text. -/
def blankReaders : SourceReaders := { plainReaders with parse := fun _ _ => .ok [blankHandler] }

def blankRoute : RepositorySnapshot where
  files := [⟨"app.py", "@router.get(\"/items \")\ndef show(): pass\n"⟩]
  detectedLanguage := .python

end Bantam
