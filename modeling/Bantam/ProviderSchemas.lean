import Bantam.Lib.Containers
import Bantam.Lib.JsonText

/-! The two reductions of a JSON schema to what the model provider accepts. -/
namespace Bantam

/-! The reduction of the repository graph. -/

namespace RepositoryGraph

/-- `_PROVIDER_LOCAL_ONLY_SCHEMA_KEYWORDS` -/
def providerLocalOnlySchemaKeywords : List String :=
  ["contains", "exclusiveMaximum", "exclusiveMinimum", "format", "maxItems", "maxLength",
    "maxProperties", "maximum", "minItems", "minLength", "minProperties", "minimum",
    "multipleOf", "pattern", "patternProperties", "propertyNames", "uniqueItems"]

mutual
/-- `build_provider_schema` -/
def buildProviderSchema : Json → Json
  | .arr items => .arr (buildItems items)
  | .obj members => .obj (buildMembers members)
  | .null => .null
  | .bool b => .bool b
  | .num text => .num text
  | .str s => .str s

def buildItems : List Json → List Json
  | [] => []
  | v :: rest => buildProviderSchema v :: buildItems rest

def buildMembers : List (String × Json) → List (String × Json)
  | [] => []
  | (k, v) :: rest =>
    if providerLocalOnlySchemaKeywords.contains k then buildMembers rest
    else (k, buildProviderSchema v) :: buildMembers rest
end

end RepositoryGraph

/-! The reduction of the ASVS plans. -/

/-- What the keys of an object are: keywords, or names that the schema gives its members. -/
inductive SchemaPosition where
  | schema
  | memberMap
deriving DecidableEq, Repr

namespace SchemaPosition

/-- The position of the value of a key. -/
def below : SchemaPosition → String → SchemaPosition
  | .memberMap, _ => .schema
  | .schema, key =>
    if ["$defs", "definitions", "properties"].contains key then .memberMap else .schema

end SchemaPosition

namespace AsvsAi

/-- `_PROVIDER_LOCAL_ONLY_SCHEMA_KEYWORDS` -/
def providerLocalOnlySchemaKeywords : List String :=
  ["contains", "exclusiveMaximum", "exclusiveMinimum", "format", "maxContains", "maxItems",
    "maxLength", "maxProperties", "maximum", "minContains", "minItems", "minLength",
    "minProperties", "minimum", "multipleOf", "pattern", "patternProperties", "propertyNames",
    "unevaluatedItems", "unevaluatedProperties", "uniqueItems"]

mutual
/-- `convert` of `build_provider_schema`, with `member_map` as the position. -/
def convert : SchemaPosition → Json → Json
  | .memberMap, .obj members => .obj (convertNames members)
  | .schema, .obj members => .obj (convertKeywords members [])
  | _, .arr items => .arr (convertItems items)
  | _, .null => .null
  | _, .bool b => .bool b
  | _, .num text => .num text
  | _, .str s => .str s

def convertItems : List Json → List Json
  | [] => []
  | v :: rest => convert .schema v :: convertItems rest

def convertNames : List (String × Json) → List (String × Json)
  | [] => []
  | (name, v) :: rest => (name, convert .schema v) :: convertNames rest

def convertKeywords : List (String × Json) → List (String × Json) → List (String × Json)
  | [], converted => converted
  | (key, v) :: rest, converted =>
    if key = "const" then convertKeywords rest (Dict.setItems converted "enum" (.arr [v]))
    else if providerLocalOnlySchemaKeywords.contains key then convertKeywords rest converted
    else convertKeywords rest
      (Dict.setItems converted key (convert (SchemaPosition.schema.below key) v))
end

/-- `build_provider_schema` -/
def buildProviderSchema (responseSchema : Json) : Except String Json :=
  match convert .schema responseSchema with
  | .obj members => .ok (.obj members)
  | _ => .error "the provider response schema must be an object"

end AsvsAi

/-! Keywords and names. -/

namespace SchemaPosition

/-- The position at the end of a path. -/
def after : SchemaPosition → List Json.Step → SchemaPosition
  | p, [] => p
  | p, .key name :: path => (p.below name).after path
  | _, .index _ :: path => SchemaPosition.schema.after path

/-- No keyword on the path is one that is left to the local checks. -/
def Survives : SchemaPosition → List Json.Step → Prop
  | _, [] => True
  | p, .key name :: path =>
    (p = .schema → name ∉ RepositoryGraph.providerLocalOnlySchemaKeywords) ∧
      (p.below name).Survives path
  | _, .index _ :: path => SchemaPosition.schema.Survives path

end SchemaPosition

/-- A key in an object of a value, outside of what is left to the local checks; the position of
the object decides whether the key is a keyword or the name of a member. -/
def KeyAt (p : SchemaPosition) (v : Json) (q : SchemaPosition) (key : String) : Prop :=
  ∃ path members, p.Survives path ∧ p.after path = q ∧ v.at? path = some (.obj members) ∧
    key ∈ members.map Prod.fst

section
variable {p q : SchemaPosition} {members : List (String × Json)} {items : List Json}
  {key name : String} {v w : Json} {path : List Json.Step}

theorem KeyAt.here (h : key ∈ members.map Prod.fst) : KeyAt p (.obj members) p key :=
  ⟨[], members, trivial, rfl, rfl, h⟩

theorem KeyAt.member (h : KeyAt (p.below name) v q key)
    (hv : Json.member? name members = some v)
    (hname : p = .schema → name ∉ RepositoryGraph.providerLocalOnlySchemaKeywords) :
    KeyAt p (.obj members) q key := by
  obtain ⟨path, found, hsurvives, hafter, hat, hkey⟩ := h
  refine ⟨.key name :: path, found, ⟨hname, hsurvives⟩, hafter, ?_, hkey⟩
  rw [Json.at?, hv, Option.bind_some, hat]

theorem KeyAt.item {i : Nat} (h : KeyAt .schema v q key) (hv : items[i]? = some v) :
    KeyAt p (.arr items) q key := by
  obtain ⟨path, found, hsurvives, hafter, hat, hkey⟩ := h
  refine ⟨.index i :: path, found, hsurvives, hafter, ?_, hkey⟩
  rw [Json.at?, hv, Option.bind_some, hat]

/-! What the reduction of the repository graph leaves at a place. -/

namespace RepositoryGraph

theorem member?_buildMembers (key : String) (members : List (String × Json)) :
    Json.member? key (buildMembers members) =
      if providerLocalOnlySchemaKeywords.contains key then none
      else (Json.member? key members).map buildProviderSchema := by
  induction members with
  | nil => simp [buildMembers, Json.member?]
  | cons m rest ih =>
    rw [buildMembers]
    split
    · next hstripped =>
      rw [ih, Json.member?]
      by_cases hkey : key = m.1
      · rw [hkey, if_pos hstripped, if_pos hstripped]
      · rw [if_neg hkey]
    · next hkept =>
      rw [Json.member?, Json.member?, ih]
      by_cases hkey : key = m.1
      · rw [if_pos hkey, if_pos hkey, hkey, if_neg hkept, Option.map_some]
      · rw [if_neg hkey, if_neg hkey]

theorem keys_buildMembers (members : List (String × Json)) :
    (buildMembers members).map Prod.fst =
      (members.map Prod.fst).filter fun key => !providerLocalOnlySchemaKeywords.contains key := by
  induction members with
  | nil => rfl
  | cons m rest ih =>
    rw [buildMembers]
    split
    · next hstripped =>
      rw [ih, List.map_cons, List.filter_cons_of_neg (by simpa using hstripped)]
    · next hkept =>
      rw [List.map_cons, ih, List.map_cons, List.filter_cons_of_pos (by simpa using hkept)]

theorem getElem?_buildItems (items : List Json) (i : Nat) :
    (buildItems items)[i]? = items[i]?.map buildProviderSchema := by
  induction items generalizing i with
  | nil => rfl
  | cons v rest ih =>
    cases i with
    | zero => rfl
    | succ i => exact ih i

/-- No key on the path is one that the reduction removes. -/
def Clear (path : List Json.Step) : Prop :=
  ∀ name, Json.Step.key name ∈ path → name ∉ providerLocalOnlySchemaKeywords

/-- What is at a place that is left is the reduction of what was there. -/
theorem at?_buildProviderSchema (h : Clear path) :
    (buildProviderSchema v).at? path = (v.at? path).map buildProviderSchema := by
  induction path generalizing v with
  | nil => rfl
  | cons step path ih =>
    have hpath : Clear path := fun name hname => h name (List.mem_cons_of_mem step hname)
    cases step with
    | key name =>
      have hname : ¬ providerLocalOnlySchemaKeywords.contains name = true := by
        simpa using h name List.mem_cons_self
      cases v with
      | obj members =>
        rw [buildProviderSchema, Json.at?, Json.at?, member?_buildMembers, if_neg hname]
        cases Json.member? name members with
        | none => rfl
        | some w => exact ih hpath
      | _ => rfl
    | index i =>
      cases v with
      | arr items =>
        rw [buildProviderSchema, Json.at?, Json.at?, getElem?_buildItems]
        cases items[i]? with
        | none => rfl
        | some w => exact ih hpath
      | _ => rfl

/-- A place that is left lies behind keys that the reduction keeps. -/
theorem clear_of_at? (h : (buildProviderSchema v).at? path = some w) : Clear path := by
  induction path generalizing v with
  | nil => exact fun name hname => absurd hname List.not_mem_nil
  | cons step path ih =>
    intro other hother
    cases step with
    | key name =>
      cases v with
      | obj members =>
        rw [buildProviderSchema, Json.at?, member?_buildMembers] at h
        split at h
        · cases h
        · next hname =>
          cases List.mem_cons.mp hother with
          | inl heq =>
            cases heq
            simpa using hname
          | inr htail =>
            obtain ⟨u, hu, hat⟩ := Option.bind_eq_some_iff.mp h
            obtain ⟨u', _, rfl⟩ := Option.map_eq_some_iff.mp hu
            exact ih hat other htail
      | _ => cases h
    | index i =>
      cases v with
      | arr items =>
        rw [buildProviderSchema, Json.at?, getElem?_buildItems] at h
        obtain ⟨u, hu, hat⟩ := Option.bind_eq_some_iff.mp h
        obtain ⟨u', _, rfl⟩ := Option.map_eq_some_iff.mp hu
        cases List.mem_cons.mp hother with
        | inl heq => cases heq
        | inr htail => exact ih hat other htail
      | _ => cases h

end RepositoryGraph

/-! Schemas whose members have other names than the keywords that are removed. -/

/-- No name of a member is a keyword that is left to the local checks. -/
def PlainNames (p : SchemaPosition) (v : Json) : Prop :=
  ∀ name, KeyAt p v .memberMap name → name ∉ RepositoryGraph.providerLocalOnlySchemaKeywords

theorem PlainNames.member (h : PlainNames p (.obj members))
    (hv : Json.member? name members = some v)
    (hname : p = .schema → name ∉ RepositoryGraph.providerLocalOnlySchemaKeywords) :
    PlainNames (p.below name) v :=
  fun key hkey => h key (hkey.member hv hname)

theorem PlainNames.item {i : Nat} (h : PlainNames p (.arr items)) (hv : items[i]? = some v) :
    PlainNames .schema v :=
  fun key hkey => h key (hkey.item hv)

/-- A key that stays, as a keyword or as a name. -/
theorem PlainNames.kept (h : PlainNames p (.obj members)) (hkey : name ∈ members.map Prod.fst)
    (hname : p = .schema → name ∉ RepositoryGraph.providerLocalOnlySchemaKeywords) :
    name ∉ RepositoryGraph.providerLocalOnlySchemaKeywords := by
  cases p with
  | schema => exact hname rfl
  | memberMap => exact h name (.here hkey)

/-- Every place that is outside of the local checks stays. -/
theorem PlainNames.clear (h : PlainNames p v) (hpath : p.Survives path)
    (hw : v.at? path = some w) : RepositoryGraph.Clear path := by
  induction path generalizing p v with
  | nil => exact fun name hname => absurd hname List.not_mem_nil
  | cons step path ih =>
    cases step with
    | key name =>
      cases v with
      | obj members =>
        rw [Json.at?] at hw
        obtain ⟨u, hu, hat⟩ := Option.bind_eq_some_iff.mp hw
        have hkey : name ∈ members.map Prod.fst :=
          List.mem_map_of_mem (f := Prod.fst) (Json.mem_of_member? hu)
        intro other hother
        cases List.mem_cons.mp hother with
        | inl heq =>
          cases heq
          exact h.kept hkey hpath.1
        | inr htail => exact ih (h.member hu hpath.1) hpath.2 hat other htail
      | _ => cases hw
    | index i =>
      cases v with
      | arr items =>
        rw [Json.at?] at hw
        obtain ⟨u, hu, hat⟩ := Option.bind_eq_some_iff.mp hw
        intro other hother
        cases List.mem_cons.mp hother with
        | inl heq => cases heq
        | inr htail => exact ih (h.item hu) hpath hat other htail
      | _ => cases hw

/-! What the reduction has to keep. -/

/-- Nothing is removed beside the keywords that are left to the local checks. -/
def KeepsPlaces (v : Json) : Prop :=
  ∀ path w, SchemaPosition.schema.Survives path → v.at? path = some w →
    ∃ reduced, (RepositoryGraph.buildProviderSchema v).at? path = some reduced

/-- A map of members keeps its names. -/
def KeepsNames (v : Json) : Prop :=
  ∀ path members, SchemaPosition.schema.Survives path →
    SchemaPosition.schema.after path = .memberMap → v.at? path = some (.obj members) →
    ∃ reduced, (RepositoryGraph.buildProviderSchema v).at? path = some (.obj reduced) ∧
      reduced.map Prod.fst = members.map Prod.fst

/-- A list of required names stays, and the properties that it names stay with it. -/
def KeepsRequired (v : Json) : Prop :=
  ∀ path members required properties, SchemaPosition.schema.Survives path →
    SchemaPosition.schema.after path = .schema → v.at? path = some (.obj members) →
    Json.member? "required" members = some (.arr required) →
    Json.member? "properties" members = some (.obj properties) →
    ∃ reduced kept, (RepositoryGraph.buildProviderSchema v).at? path = some (.obj reduced) ∧
      Json.member? "required" reduced = some (.arr (RepositoryGraph.buildItems required)) ∧
      Json.member? "properties" reduced = some (.obj kept) ∧
      ∀ name, Json.str name ∈ RepositoryGraph.buildItems required →
        name ∈ properties.map Prod.fst → name ∈ kept.map Prod.fst

/-- No keyword is `const` or one that only one of the two reductions removes. -/
def CommonKeywords (p : SchemaPosition) (v : Json) : Prop :=
  ∀ key, KeyAt p v .schema key → key ≠ "const" ∧
    (key ∈ RepositoryGraph.providerLocalOnlySchemaKeywords ↔
      key ∈ AsvsAi.providerLocalOnlySchemaKeywords)

/-- Where the two reductions remove the same keywords they agree. -/
def AgreesWithAsvs (v : Json) : Prop :=
  (∃ members, v = .obj members) → CommonKeywords .schema v →
    AsvsAi.buildProviderSchema v = .ok (RepositoryGraph.buildProviderSchema v)

theorem PlainNames.keepsPlaces (h : PlainNames .schema v) : KeepsPlaces v := by
  intro path w hpath hw
  rw [RepositoryGraph.at?_buildProviderSchema (h.clear hpath hw), hw]
  exact ⟨_, rfl⟩

theorem PlainNames.keepsNames (h : PlainNames .schema v) : KeepsNames v := by
  intro path members hpath hafter hmembers
  rw [RepositoryGraph.at?_buildProviderSchema (h.clear hpath hmembers), hmembers]
  refine ⟨RepositoryGraph.buildMembers members, rfl, ?_⟩
  rw [RepositoryGraph.keys_buildMembers, List.filter_eq_self]
  intro name hname
  have hplain := h name ⟨path, members, hpath, hafter, hmembers, hname⟩
  simpa using hplain

/-- A keyword whose name is on neither list is found in the reduction. -/
theorem RepositoryGraph.member?_kept
    (h : ¬ RepositoryGraph.providerLocalOnlySchemaKeywords.contains key = true)
    (hv : Json.member? key members = some v) :
    Json.member? key (RepositoryGraph.buildMembers members) =
      some (RepositoryGraph.buildProviderSchema v) := by
  rw [RepositoryGraph.member?_buildMembers, if_neg h, hv, Option.map_some]

theorem SchemaPosition.survives_snoc (hpath : p.Survives path) (hafter : p.after path = q)
    (hname : q = .schema → name ∉ RepositoryGraph.providerLocalOnlySchemaKeywords) :
    p.Survives (path ++ [.key name]) ∧ p.after (path ++ [.key name]) = q.below name := by
  induction path generalizing p with
  | nil =>
    obtain rfl : p = q := hafter
    exact ⟨⟨hname, trivial⟩, rfl⟩
  | cons step path ih =>
    cases step with
    | key other =>
      obtain ⟨hsurvives, hbelow⟩ := ih hpath.2 hafter
      exact ⟨⟨hpath.1, hsurvives⟩, hbelow⟩
    | index i => exact ih hpath hafter

theorem at?_snoc (hmembers : v.at? path = some (.obj members)) :
    v.at? (path ++ [.key name]) = Json.member? name members := by
  induction path generalizing v with
  | nil =>
    cases hmembers
    rw [List.nil_append, Json.at?]
    cases Json.member? name members with
    | none => rfl
    | some w => rfl
  | cons step path ih =>
    cases step with
    | key other =>
      cases v with
      | obj outer =>
        rw [Json.at?] at hmembers
        obtain ⟨u, hu, hat⟩ := Option.bind_eq_some_iff.mp hmembers
        rw [List.cons_append, Json.at?, hu, Option.bind_some]
        exact ih hat
      | _ => cases hmembers
    | index i =>
      cases v with
      | arr items =>
        rw [Json.at?] at hmembers
        obtain ⟨u, hu, hat⟩ := Option.bind_eq_some_iff.mp hmembers
        rw [List.cons_append, Json.at?, hu, Option.bind_some]
        exact ih hat
      | _ => cases hmembers

theorem PlainNames.keepsRequired (h : PlainNames .schema v) : KeepsRequired v := by
  intro path members required properties hpath hafter hmembers hrequired hproperties
  rw [RepositoryGraph.at?_buildProviderSchema (h.clear hpath hmembers), hmembers]
  refine ⟨RepositoryGraph.buildMembers members, RepositoryGraph.buildMembers properties, rfl,
    RepositoryGraph.member?_kept (by decide) hrequired,
    RepositoryGraph.member?_kept (by decide) hproperties, ?_⟩
  intro name _ hname
  obtain ⟨hsurvives, hbelow⟩ :=
    @SchemaPosition.survives_snoc _ _ "properties" _ hpath hafter (fun _ => by decide)
  have hat : v.at? (path ++ [.key "properties"]) = some (.obj properties) :=
    (at?_snoc hmembers).trans hproperties
  have hplain := h name ⟨_, properties, hsurvives, hbelow, hat, hname⟩
  rw [RepositoryGraph.keys_buildMembers]
  exact List.mem_filter.mpr ⟨hname, by simpa using hplain⟩

theorem CommonKeywords.member (h : CommonKeywords p (.obj members))
    (hv : Json.member? name members = some v)
    (hname : p = .schema → name ∉ RepositoryGraph.providerLocalOnlySchemaKeywords) :
    CommonKeywords (p.below name) v :=
  fun key hkey => h key (hkey.member hv hname)

theorem CommonKeywords.item {i : Nat} (h : CommonKeywords p (.arr items))
    (hv : items[i]? = some v) : CommonKeywords .schema v :=
  fun key hkey => h key (hkey.item hv)

/-- The conditions on a value under which the two reductions agree. -/
structure Comparable (p : SchemaPosition) (v : Json) : Prop where
  formed : v.WellFormed
  plain : PlainNames p v
  common : CommonKeywords p v

theorem Comparable.member (h : Comparable p (.obj members)) (hv : (name, v) ∈ members)
    (hname : p = .schema → name ∉ RepositoryGraph.providerLocalOnlySchemaKeywords) :
    Comparable (p.below name) v := by
  obtain ⟨hnodup, hmembers⟩ := h.formed
  have hlookup : Json.member? name members = some v := Json.member?_of_mem hnodup hv
  exact ⟨Json.membersWellFormed_iff.mp hmembers _ hv, h.plain.member hlookup hname,
    h.common.member hlookup hname⟩

theorem Comparable.item {i : Nat} (h : Comparable p (.arr items)) (hv : items[i]? = some v) :
    Comparable .schema v :=
  ⟨Json.itemsWellFormed_iff.mp h.formed v (List.mem_of_getElem? hv), h.plain.item hv,
    h.common.item hv⟩

end

/-! Agreement, by recursion over the value. -/

namespace AsvsAi
open RepositoryGraph

/-- A keyword of a schema and its value, where the two reductions treat them the same way. -/
structure Plain (m : String × Json) : Prop where
  notConst : m.1 ≠ "const"
  same : m.1 ∈ RepositoryGraph.providerLocalOnlySchemaKeywords ↔
    m.1 ∈ providerLocalOnlySchemaKeywords
  value : m.1 ∉ RepositoryGraph.providerLocalOnlySchemaKeywords →
    Comparable (SchemaPosition.schema.below m.1) m.2

mutual
theorem convert_eq : ∀ (v : Json) (p : SchemaPosition), Comparable p v →
    convert p v = RepositoryGraph.buildProviderSchema v
  | .null, p, _ => by cases p <;> rfl
  | .bool _, p, _ => by cases p <;> rfl
  | .num _, p, _ => by cases p <;> rfl
  | .str _, p, _ => by cases p <;> rfl
  | .arr items, p, h => by
    have hitems := convertItems_eq items fun v hv => by
      obtain ⟨i, hi⟩ := List.mem_iff_getElem?.mp hv
      exact h.item hi
    cases p with
    | schema => rw [convert, RepositoryGraph.buildProviderSchema, hitems]
    | memberMap => rw [convert, RepositoryGraph.buildProviderSchema, hitems]
  | .obj members, .memberMap, h => by
    have hplain : ∀ m ∈ members, m.1 ∉ RepositoryGraph.providerLocalOnlySchemaKeywords :=
      fun m hm => h.plain m.1 (.here (List.mem_map_of_mem hm))
    rw [convert, RepositoryGraph.buildProviderSchema, convertNames_eq members fun m hm =>
      ⟨hplain m hm, h.member hm fun hschema => by cases hschema⟩]
  | .obj members, .schema, h => by
    have hmembers : ∀ m ∈ members, Plain m := by
      intro m hm
      obtain ⟨hconst, hsame⟩ := h.common m.1 (.here (List.mem_map_of_mem hm))
      exact ⟨hconst, hsame, fun hname => h.member hm fun _ => hname⟩
    rw [convert, RepositoryGraph.buildProviderSchema,
      convertKeywords_eq members [] (by simpa using h.formed.1) hmembers, List.nil_append]

theorem convertItems_eq : ∀ items : List Json, (∀ v ∈ items, Comparable .schema v) →
    convertItems items = buildItems items
  | [], _ => rfl
  | v :: rest, h => by
    rw [convertItems, buildItems, convert_eq v .schema (h v List.mem_cons_self),
      convertItems_eq rest fun w hw => h w (List.mem_cons_of_mem v hw)]

theorem convertNames_eq : ∀ members : List (String × Json),
    (∀ m ∈ members, m.1 ∉ RepositoryGraph.providerLocalOnlySchemaKeywords ∧
      Comparable .schema m.2) →
    convertNames members = buildMembers members
  | [], _ => rfl
  | (name, v) :: rest, h => by
    obtain ⟨hname, hv⟩ := h (name, v) List.mem_cons_self
    rw [convertNames, buildMembers, if_neg (by simpa using hname), convert_eq v .schema hv,
      convertNames_eq rest fun m hm => h m (List.mem_cons_of_mem _ hm)]

theorem convertKeywords_eq : ∀ (members converted : List (String × Json)),
    (converted.map Prod.fst ++ members.map Prod.fst).Nodup → (∀ m ∈ members, Plain m) →
    convertKeywords members converted = converted ++ buildMembers members
  | [], converted, _, _ => (List.append_nil converted).symm
  | (key, v) :: rest, converted, hnodup, h => by
    have hkey : Plain (key, v) := h (key, v) List.mem_cons_self
    have hrest : ∀ m ∈ rest, Plain m := fun m hm => h m (List.mem_cons_of_mem _ hm)
    rw [convertKeywords, if_neg hkey.notConst, buildMembers]
    by_cases hstripped : key ∈ RepositoryGraph.providerLocalOnlySchemaKeywords
    · rw [if_pos (by simpa using hkey.same.mp hstripped), if_pos (by simpa using hstripped)]
      refine convertKeywords_eq rest converted (hnodup.sublist ?_) hrest
      exact List.Sublist.append_left (List.sublist_cons_self key _) _
    · have hnew : key ∉ converted.map Prod.fst := by
        intro hold
        exact (List.disjoint_of_nodup_append hnodup) hold List.mem_cons_self
      rw [if_neg (by simpa using fun hs => hstripped (hkey.same.mpr hs)),
        if_neg (by simpa using hstripped), Dict.setItems, if_neg hnew,
        convert_eq v _ (hkey.value hstripped),
        convertKeywords_eq rest _ (by simpa [List.append_assoc] using hnodup) hrest,
        List.append_assoc, List.singleton_append]
end

end AsvsAi

section
variable {v : Json}

theorem PlainNames.agreesWithAsvs (hformed : v.WellFormed) (h : PlainNames .schema v) :
    AgreesWithAsvs v := by
  rintro ⟨members, rfl⟩ hcommon
  rw [AsvsAi.buildProviderSchema, AsvsAi.convert_eq _ _ ⟨hformed, h, hcommon⟩]
  rfl

/-- A name that the reduction drops is one of the keywords, in a map of members. -/
theorem KeepsNames.plainNames (h : KeepsNames v) : PlainNames .schema v := by
  intro name hname hstripped
  obtain ⟨path, members, hpath, hafter, hmembers, hkey⟩ := hname
  obtain ⟨reduced, hreduced, hkeys⟩ := h path members hpath hafter hmembers
  rw [RepositoryGraph.at?_buildProviderSchema (RepositoryGraph.clear_of_at? hreduced), hmembers,
    Option.map_some, RepositoryGraph.buildProviderSchema] at hreduced
  cases hreduced
  rw [RepositoryGraph.keys_buildMembers, List.filter_eq_self] at hkeys
  simpa [hstripped] using hkeys name hkey

/-- What is claimed of the reduction, for every schema: it removes nothing but the keywords that
are left to the local checks. -/
structure RemovesOnlyKeywords (v : Json) : Prop where
  places : KeepsPlaces v
  names : KeepsNames v
  required : KeepsRequired v
  agrees : AgreesWithAsvs v

/-- The reduction removes nothing but keywords exactly when no member has the name of one. -/
theorem provider_schema_members (hformed : v.WellFormed) :
    RemovesOnlyKeywords v ↔ PlainNames .schema v := by
  constructor
  · intro h
    exact h.names.plainNames
  · intro h
    exact ⟨h.keepsPlaces, h.keepsNames, h.keepsRequired, h.agreesWithAsvs hformed⟩

end

/-- A property that is called `pattern` and required. -/
def patternSchema : Json :=
  .obj [("type", .str "object"),
    ("properties", .obj [("pattern", .obj [("type", .str "string")])]),
    ("required", .arr [.str "pattern"])]

/-- The property is dropped and stays required; the other reduction keeps it. -/
theorem pattern_property_dropped :
    RepositoryGraph.buildProviderSchema patternSchema =
      .obj [("type", .str "object"), ("properties", .obj []),
        ("required", .arr [.str "pattern"])] ∧
    AsvsAi.buildProviderSchema patternSchema = .ok patternSchema ∧
    ¬ RemovesOnlyKeywords patternSchema := by
  refine ⟨rfl, rfl, fun h => ?_⟩
  obtain ⟨reduced, hreduced, hkeys⟩ := h.names [.key "properties"]
    [("pattern", .obj [("type", .str "string")])] ⟨fun _ => by decide, trivial⟩ rfl rfl
  cases hreduced
  cases hkeys

/-- A bound is removed from a property with a name of its own. -/
theorem provider_schema_members_of_subject :
    (Json.obj [("properties", .obj [("subject", .obj [("maxLength", .nat 80)])])]).WellFormed ∧
    (RemovesOnlyKeywords
        (.obj [("properties", .obj [("subject", .obj [("maxLength", .nat 80)])])]) ↔
      PlainNames .schema
        (.obj [("properties", .obj [("subject", .obj [("maxLength", .nat 80)])])])) := by
  have hformed :
      (Json.obj [("properties", .obj [("subject", .obj [("maxLength", .nat 80)])])]).WellFormed := by
    simp [Json.WellFormed, Json.MembersWellFormed, Json.nat]
    decide
  exact ⟨hformed, provider_schema_members hformed⟩

end Bantam
