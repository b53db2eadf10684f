import Bantam.Lib.Worklist
import Bantam.Provenance

/-! The slice of an OpenAPI document that a model is shown: the operations under test and the
schemas that these lead to. -/
namespace Bantam

/-- `MAX_OPENAPI_BYTES` -/
def maxOpenapiBytes : Nat := 12000

/-- `_HTTP_METHODS` -/
def httpMethods : List String := ["get", "post", "put", "patch", "delete"]

/-- `_OPENAPI_PATHS` -/
def openapiPaths : List String :=
  ["/v1/auth/login", "/v1/auth/logout", "/v1/me", "/v1/admin/customers",
    "/v1/accounts/\x7baccount_id\x7d/transactions", "/v1/transfers"]

/-- The keys of an operation that are shown. -/
def operationKeys : List String :=
  ["operationId", "parameters", "requestBody", "responses", "security", "summary"]

/-! References. -/

def schemaRoot : String := "#/components/schemas/"

/-- The schema that a value of `$ref` names. -/
def referencedSchema : Option Json → List String
  | some (.str reference) =>
    ((reference.toList.dropPrefix? schemaRoot.toList).map String.ofList).toList
  | _ => []

mutual
/-- `_schema_references`, with repetitions. -/
def schemaReferences : Json → List String
  | .obj members => referencedSchema (Json.member? "$ref" members) ++ memberReferences members
  | .arr items => itemReferences items
  | _ => []

def memberReferences : List (String × Json) → List String
  | [] => []
  | (_, v) :: rest => schemaReferences v ++ memberReferences rest

def itemReferences : List Json → List String
  | [] => []
  | v :: rest => schemaReferences v ++ itemReferences rest
end

/-- A value holds a reference to a schema, at any depth. -/
inductive Json.RefersTo (name : String) : Json → Prop
  | ref {members : List (String × Json)} {reference : String}
      (h : Json.member? "$ref" members = some (.str reference))
      (hname : reference.toList = schemaRoot.toList ++ name.toList) : RefersTo name (.obj members)
  | member {members : List (String × Json)} {key : String} {v : Json} (h : (key, v) ∈ members)
      (hv : RefersTo name v) : RefersTo name (.obj members)
  | item {items : List Json} {v : Json} (h : v ∈ items) (hv : RefersTo name v) :
      RefersTo name (.arr items)

theorem mem_referencedSchema {name : String} {v : Option Json} :
    name ∈ referencedSchema v ↔
      ∃ reference, v = some (.str reference) ∧
        reference.toList = schemaRoot.toList ++ name.toList := by
  constructor
  · intro h
    match v, h with
    | some (.str reference), h =>
      refine ⟨reference, rfl, ?_⟩
      obtain ⟨tail, htail, rfl⟩ := Option.map_eq_some_iff.mp (Option.mem_toList.mp h)
      obtain ⟨first, hsplit, hfirst⟩ := List.dropPrefix?_eq_some_iff.mp htail
      rw [hsplit, eq_of_beq hfirst, String.toList_ofList]
  · rintro ⟨reference, rfl, hreference⟩
    apply Option.mem_toList.mpr
    apply Option.map_eq_some_iff.mpr
    exact ⟨name.toList, List.dropPrefix?_eq_some_iff.mpr ⟨_, hreference, beq_self_eq_true _⟩,
      String.ofList_toList⟩

mutual
theorem mem_schemaReferences {name : String} :
    ∀ v, name ∈ schemaReferences v ↔ Json.RefersTo name v
  | .null => ⟨fun h => absurd h List.not_mem_nil, fun h => by cases h⟩
  | .bool _ => ⟨fun h => absurd h List.not_mem_nil, fun h => by cases h⟩
  | .num _ => ⟨fun h => absurd h List.not_mem_nil, fun h => by cases h⟩
  | .str _ => ⟨fun h => absurd h List.not_mem_nil, fun h => by cases h⟩
  | .arr items => by
    rw [schemaReferences, mem_itemReferences items]
    constructor
    · rintro ⟨v, hv, hrefers⟩
      exact .item hv hrefers
    · intro h
      cases h with
      | item hv hrefers => exact ⟨_, hv, hrefers⟩
  | .obj members => by
    rw [schemaReferences, List.mem_append, mem_referencedSchema, mem_memberReferences members]
    constructor
    · rintro (⟨reference, hmember, hname⟩ | ⟨key, v, hv, hrefers⟩)
      · exact .ref hmember hname
      · exact .member hv hrefers
    · intro h
      cases h with
      | ref hmember hname => exact .inl ⟨_, hmember, hname⟩
      | member hv hrefers => exact .inr ⟨_, _, hv, hrefers⟩

theorem mem_memberReferences {name : String} :
    ∀ members, name ∈ memberReferences members ↔
      ∃ key v, (key, v) ∈ members ∧ Json.RefersTo name v
  | [] => by simp [memberReferences]
  | (key, v) :: rest => by
    rw [memberReferences, List.mem_append, mem_schemaReferences v, mem_memberReferences rest]
    simp only [List.mem_cons, Prod.mk.injEq, or_and_right, exists_or, exists_and_left, and_assoc,
      exists_eq_left]

theorem mem_itemReferences {name : String} :
    ∀ items, name ∈ itemReferences items ↔ ∃ v ∈ items, Json.RefersTo name v
  | [] => by simp [itemReferences]
  | v :: rest => by
    rw [itemReferences, List.mem_append, mem_schemaReferences v, mem_itemReferences rest]
    simp only [List.mem_cons, or_and_right, exists_or, exists_eq_left]
end

/-! The slice. -/

/-- The members of a dictionary; of another value, and where there is none, no members. -/
def dictMembers : Option Json → List (String × Json)
  | some (.obj members) => members
  | _ => []

def shownOperation (members : List (String × Json)) : List (String × Json) :=
  members.filter fun m => operationKeys.contains m.1

/-- The operations of a path. -/
def shownOperations (pathItem : List (String × Json)) : List (String × Json) :=
  pathItem.filterMap fun m =>
    match m.2 with
    | .obj operation =>
      if httpMethods.contains m.1 then some (m.1, .obj (shownOperation operation)) else none
    | _ => none

def shownPath (sourcePaths : List (String × Json)) (path : String) : Option (String × Json) :=
  match Json.member? path sourcePaths with
  | some (.obj pathItem) =>
    let operations := shownOperations pathItem
    if operations.isEmpty then none else some (path, .obj operations)
  | _ => none

/-- The operations that are kept, by path. -/
def keptPaths (document : List (String × Json)) : List (String × Json) :=
  (Text.sorted openapiPaths).filterMap (shownPath (dictMembers (Json.member? "paths" document)))

def sourceSchemas (document : List (String × Json)) : List (String × Json) :=
  dictMembers (Json.member? "schemas" (dictMembers (Json.member? "components" document)))

/-- An object among the component schemas. -/
def objectSchema (schemas : List (String × Json)) (name : String) :
    Option (List (String × Json)) :=
  match Json.member? name schemas with
  | some (.obj members) => some members
  | _ => none

theorem objectSchema_eq_some {schemas members : List (String × Json)} {name : String} :
    objectSchema schemas name = some members ↔
      Json.member? name schemas = some (.obj members) := by
  unfold objectSchema
  split
  · next h => rw [h, Option.some.injEq, Option.some.injEq, Json.obj.injEq]
  · next h => exact ⟨fun hnone => absurd hnone.symm (Option.some_ne_none members), fun hsome =>
      absurd hsome (h members)⟩

def sortedReferences (v : Json) : List String := Text.sorted (schemaReferences v).dedup

/-- The component schemas as a table for the worklist. -/
def schemaTable (schemas : List (String × Json)) :
    Worklist.Table String (List (String × Json)) where
  lookup := objectSchema schemas
  refs := fun members => sortedReferences (.obj members)
  names := schemas.map Prod.fst
  listed := fun _ _ h =>
    List.mem_map_of_mem (f := Prod.fst) (Json.mem_of_member? (objectSchema_eq_some.mp h))

/-- The schemas that are kept: those found from the references of the operations. -/
def keptSchemas (document : List (String × Json)) : List (String × Json) :=
  (Worklist.close (schemaTable (sourceSchemas document)) []
    (sortedReferences (.obj (keptPaths document)))).map fun entry => (entry.1, .obj entry.2)

def shownInfo (document : List (String × Json)) : List (String × Json) :=
  ["title", "version"].filterMap fun key =>
    match Json.member? key (dictMembers (Json.member? "info" document)) with
    | some (.str text) => some (key, .str text)
    | _ => none

def openapiSnapshot (document : List (String × Json)) : SourceSnapshot where
  members :=
    [("openapi", (Json.member? "openapi" document).getD .null),
      ("info", .obj (shownInfo document)), ("paths", .obj (keptPaths document)),
      ("components", .obj [("schemas", .obj (keptSchemas document))])]

/-- `build_openapi_snapshot` -/
def buildOpenapiSnapshot (document : List (String × Json)) : Except String SourceSnapshot :=
  if (keptPaths document).isEmpty then
    .error "the running OpenAPI contract has no ASVS operations"
  else if maxOpenapiBytes <
      Text.utf8Length (openapiSnapshot document).document.canonical.toList then
    .error "the OpenAPI snapshot exceeded its safe size limit"
  else .ok (openapiSnapshot document)

/-! What is reached. -/

/-- A chain of references from the operations, through schemas that are objects. -/
inductive ReachableSchema (operations schemas : List (String × Json)) : String → Prop
  | operation {name : String} (h : Json.RefersTo name (.obj operations)) :
      ReachableSchema operations schemas name
  | schema {name next : String} {members : List (String × Json)}
      (h : ReachableSchema operations schemas name)
      (hschema : Json.member? name schemas = some (.obj members))
      (hnext : Json.RefersTo next (.obj members)) : ReachableSchema operations schemas next

theorem mem_sortedReferences {name : String} {v : Json} :
    name ∈ sortedReferences v ↔ Json.RefersTo name v := by
  rw [sortedReferences, Text.sorted, (List.mergeSort_perm _ _).mem_iff, List.mem_dedup,
    mem_schemaReferences]

theorem schemaTable_edge {schemas : List (String × Json)} {name next : String} :
    (schemaTable schemas).Edge name next ↔
      ∃ members, Json.member? name schemas = some (.obj members) ∧
        Json.RefersTo next (.obj members) := by
  refine exists_congr fun members => ?_
  exact and_congr objectSchema_eq_some mem_sortedReferences

theorem reached_iff {operations schemas : List (String × Json)} {name : String} :
    (schemaTable schemas).Reached (sortedReferences (.obj operations)) name ↔
      ReachableSchema operations schemas name := by
  constructor
  · rintro ⟨root, hroot, p, hp⟩
    have hwalk : ∀ u v p, Rooted.Walk (schemaTable schemas).Edge u v p →
        ReachableSchema operations schemas u → ReachableSchema operations schemas v := by
      intro u v p hp
      induction hp with
      | nil u => exact id
      | cons he _ ih =>
        intro hu
        obtain ⟨members, hmember, hrefers⟩ := schemaTable_edge.mp he
        exact ih (.schema hu hmember hrefers)
    exact hwalk root name p hp (.operation (mem_sortedReferences.mp hroot))
  · intro h
    induction h with
    | operation h => exact ⟨_, mem_sortedReferences.mpr h, Rooted.Reach.refl _⟩
    | schema _ hschema hnext ih =>
      obtain ⟨root, hroot, hpath⟩ := ih
      exact ⟨root, hroot, hpath.snoc (schemaTable_edge.mpr ⟨_, hschema, hnext⟩)⟩

theorem mem_keptSchemas {document : List (String × Json)} {name : String} {schema : Json} :
    (name, schema) ∈ keptSchemas document ↔
      (∃ members, schema = .obj members) ∧
        Json.member? name (sourceSchemas document) = some schema ∧
        ReachableSchema (keptPaths document) (sourceSchemas document) name := by
  rw [keptSchemas, List.mem_map]
  constructor
  · rintro ⟨⟨name', members⟩, hentry, heq⟩
    cases heq
    obtain ⟨hlookup, hreached⟩ := Worklist.mem_close.mp hentry
    exact ⟨⟨members, rfl⟩, objectSchema_eq_some.mp hlookup, reached_iff.mp hreached⟩
  · rintro ⟨⟨members, rfl⟩, hmember, hreached⟩
    exact ⟨(name, members),
      Worklist.mem_close.mpr ⟨objectSchema_eq_some.mpr hmember, reached_iff.mpr hreached⟩, rfl⟩

theorem nodup_keptSchemas {document : List (String × Json)} :
    ((keptSchemas document).map Prod.fst).Nodup := by
  rw [keptSchemas, List.map_map]
  exact Worklist.nodup_close

theorem buildOpenapiSnapshot_ok {document : List (String × Json)} {snapshot : SourceSnapshot}
    (h : buildOpenapiSnapshot document = .ok snapshot) : snapshot = openapiSnapshot document := by
  unfold buildOpenapiSnapshot at h
  split at h
  · cases h
  · split at h
    · cases h
    · exact (Except.ok.inj h).symm

/-- The schemas of a snapshot, for every document: each once, and exactly the component schemas
that are objects and are reached by references from the operations of the snapshot. References may
be nested, run in circles or lead nowhere. -/
theorem openapi_closure (document : List (String × Json)) :
    ((keptSchemas document).map Prod.fst).Nodup ∧
    (∀ name schema, (name, schema) ∈ keptSchemas document ↔
      (∃ members, schema = .obj members) ∧
        Json.member? name (sourceSchemas document) = some schema ∧
        ReachableSchema (keptPaths document) (sourceSchemas document) name) ∧
    ∀ snapshot, buildOpenapiSnapshot document = .ok snapshot →
      snapshot.document.get? "paths" = some (.obj (keptPaths document)) ∧
      (snapshot.document.get? "components").bind (Json.get? "schemas") =
        some (.obj (keptSchemas document)) := by
  refine ⟨nodup_keptSchemas, fun name schema => mem_keptSchemas, fun snapshot h => ?_⟩
  rw [buildOpenapiSnapshot_ok h]
  exact ⟨rfl, rfl⟩

end Bantam
