import Bantam.Grounding
import Mathlib.Data.String.Basic

/-! The software inventory: what the nodes of a catalogue show of the technologies in use. -/
namespace Bantam

/-! Reading nodes. -/

namespace GraphNode

/-- `node.get(key)` -/
def field? (key : String) (node : GraphNode) : Option Json := Json.member? key node.fields

/-- `str(node.get(key, ""))`, of a text. -/
def text (key : String) (node : GraphNode) : String :=
  match node.field? key with
  | some (.str s) => s
  | _ => ""

/-- The texts of `node.get("tables", [])`. -/
def tables (node : GraphNode) : List String :=
  match node.field? "tables" with
  | some (.arr items) => items.filterMap fun item =>
    match item with
    | .str s => some s
    | _ => none
  | _ => []

end GraphNode

structure InventoryComponent extends SoftwareComponent where
  detectionRule : String
  evidenceNodeIds : List String
  evidenceCount : Nat
deriving DecidableEq

structure BusyModule where
  path : String
  nodeCount : Nat
deriving DecidableEq

structure SoftwareInventory where
  version : Nat
  graphDigest : String
  derivation : String
  components : List InventoryComponent
  busiestModules : List BusyModule
deriving DecidableEq

/-- `_component` -/
def inventoryComponent (componentId name category detectionRule detail : String)
    (evidence : List String) : InventoryComponent where
  componentId := componentId
  name := name
  category := category
  detectionRule := detectionRule
  detail := detail
  evidenceNodeIds := (Text.sorted evidence).take 4
  evidenceCount := evidence.length

/-! The components. -/

section Components
variable (casefold : String → String) (nodes : List GraphNode)

/-- `by_kind[kind]` -/
def ofKind (kind : String) : List GraphNode := nodes.filter fun node => node.text "kind" = kind

def ids (nodes : List GraphNode) : List String := nodes.map GraphNode.id

/-- A component that is listed when there are nodes to show for it. -/
def listed (evidence : List String) (component : List String → InventoryComponent) :
    List InventoryComponent :=
  if evidence = [] then [] else [component evidence]

def httpApi : List InventoryComponent :=
  let routes := ofKind nodes "route"
  let methods := Text.sorted ((routes.map (GraphNode.text "method")).filter (· ≠ "")).dedup
  listed (ids routes) (inventoryComponent "software:http-api" "HTTP API surface" "application"
    "routed request handlers extracted from decorated Python functions"
    (toString routes.length ++ " routes across " ++ toString methods.length ++ " methods (" ++
      ", ".intercalate methods ++ ")"))

/-- `data_nodes` -/
def dataNodes : List GraphNode := ofKind nodes "query" ++ ofKind nodes "lock" ++ ofKind nodes "effect"

def postgresql : List InventoryComponent :=
  let operations := dataNodes nodes
  let constraints := ofKind nodes "constraint"
  let tables := (operations.flatMap GraphNode.tables).dedup
  listed (ids (operations ++ constraints)) (inventoryComponent "software:postgresql"
    "PostgreSQL relational database" "datastore"
    "parameterised SQL operations and database constraints in the graph"
    (toString operations.length ++ " operations over " ++ toString tables.length ++ " tables, " ++
      toString constraints.length ++ " database-enforced constraints"))

def transactionalBoundary : List InventoryComponent :=
  let transactions := ofKind nodes "transaction"
  listed (ids transactions) (inventoryComponent "software:transactional-boundary"
    "Database transaction boundaries" "datastore"
    "explicit transaction blocks wrapping durable operations"
    (toString transactions.length ++ " transaction boundaries"))

/-- `"outbox" in str(table).casefold() or "event" in str(table).casefold()` -/
def isEventTable (table : String) : Bool :=
  Text.isInfix "outbox".toList (casefold table).toList ||
    Text.isInfix "event".toList (casefold table).toList

def eventPublication : List InventoryComponent :=
  let messaging := (dataNodes nodes).filter fun node => node.tables.any (isEventTable casefold)
  listed (ids messaging) (inventoryComponent "software:event-publication"
    "Durable event publication" "messaging" "durable writes to outbox or event tables"
    (toString messaging.length ++ " event-table operations"))

def authorizationGuards : List InventoryComponent :=
  let guards := ofKind nodes "check"
  listed (ids guards) (inventoryComponent "software:authorization-guards"
    "In-process authorization and validation guards" "security-control"
    "conditional guards extracted from service and route functions"
    (toString guards.length ++ " guard conditions"))

/-- `resource_type.split("_", 1)[0]` -/
def providerOf (resourceType : String) : String :=
  String.ofList (resourceType.toList.takeWhile (· ≠ '_'))

/-- The kinds in the order in which `by_kind` has them. -/
def kinds : List String :=
  (nodes.map (GraphNode.text "kind")).foldl (fun l k => if k ∈ l then l else l ++ [k]) []

/-- Each managed block with its provider. -/
def managedBlocks : List (String × String) :=
  ((kinds nodes).filter fun kind => "terraform_".toList.isPrefixOf kind.toList).flatMap fun kind =>
    (ofKind nodes kind).filterMap fun node =>
      let resourceType := node.text "resource_type"
      if resourceType = "" then none else some (providerOf resourceType, node.id)

def terraformProviders : List InventoryComponent :=
  (Text.sorted ((managedBlocks nodes).map Prod.fst).dedup).map fun provider =>
    let evidence := ((managedBlocks nodes).filter fun block => block.1 = provider).map Prod.snd
    inventoryComponent ("software:terraform-provider-" ++ provider)
      ("Terraform provider: " ++ provider) "infrastructure"
      "resource and data block type prefixes in Terraform sources"
      (toString evidence.length ++ " managed blocks") evidence

def inventoryComponents : List InventoryComponent :=
  httpApi nodes ++ postgresql nodes ++ transactionalBoundary nodes ++
    eventPublication casefold nodes ++ authorizationGuards nodes ++ terraformProviders nodes

/-- The files of the nodes. -/
def moduleFiles : List String := (nodes.map (GraphNode.text "file")).filter (· ≠ "")

/-- `(-item[1], item[0])` -/
def BusyModule.before (a b : BusyModule) : Bool :=
  b.nodeCount < a.nodeCount || (a.nodeCount = b.nodeCount && a.path ≤ b.path)

def busiestModules : List BusyModule :=
  (((moduleFiles nodes).dedup.map fun path => ⟨path, (moduleFiles nodes).count path⟩).mergeSort
    BusyModule.before).take 12

end Components

/-- `build_software_inventory` -/
def buildSoftwareInventory (casefold : String → String) (catalog : Catalog) : SoftwareInventory where
  version := 1
  graphDigest := catalog.graphDigest
  derivation := "Components are inferred from deterministic graph evidence only. " ++
    "Bantam does not read package manifests here and does not claim a " ++
    "software bill of materials."
  components := inventoryComponents casefold catalog.nodes
  busiestModules := busiestModules catalog.nodes

/-! Another order of the nodes. -/

section Order
variable {casefold : String → String} {nodes nodes' : List GraphNode}

theorem sorted_congr {l l' : List String} (h : l.Perm l') : Text.sorted l = Text.sorted l' := by
  have hsorted : ∀ l : List String, (Text.sorted l).Pairwise (· ≤ ·) := by
    intro l
    refine (List.pairwise_mergeSort (fun a b c hab hbc => ?_) (fun a b => ?_) l).imp
      of_decide_eq_true
    · exact decide_eq_true (le_trans (of_decide_eq_true hab) (of_decide_eq_true hbc))
    · simpa using le_total a b
  refine List.Perm.eq_of_pairwise (fun a b _ _ => le_antisymm) (hsorted l) (hsorted l') ?_
  exact (List.mergeSort_perm l _).trans (h.trans (List.mergeSort_perm l' _).symm)

theorem inventoryComponent_congr {componentId name category rule detail : String}
    {l l' : List String} (h : l.Perm l') :
    inventoryComponent componentId name category rule detail l =
      inventoryComponent componentId name category rule detail l' := by
  rw [inventoryComponent, inventoryComponent, sorted_congr h, h.length_eq]

theorem listed_congr {l l' : List String} {component component' : List String → InventoryComponent}
    (h : l.Perm l') (hcomponent : component l = component' l') :
    listed l component = listed l' component' := by
  have hnil : l = [] ↔ l' = [] := by
    rw [← List.length_eq_zero_iff, h.length_eq, List.length_eq_zero_iff]
  by_cases hl : l = []
  · rw [listed, listed, if_pos hl, if_pos (hnil.mp hl)]
  · rw [listed, listed, if_neg hl, if_neg fun hl' => hl (hnil.mpr hl'), hcomponent]

theorem ofKind_perm (h : nodes.Perm nodes') (kind : String) :
    (ofKind nodes kind).Perm (ofKind nodes' kind) :=
  h.filter _

theorem dataNodes_perm (h : nodes.Perm nodes') : (dataNodes nodes).Perm (dataNodes nodes') :=
  ((ofKind_perm h _).append (ofKind_perm h _)).append (ofKind_perm h _)

theorem ids_perm (h : nodes.Perm nodes') : (ids nodes).Perm (ids nodes') := h.map _

theorem httpApi_congr (h : nodes.Perm nodes') : httpApi nodes = httpApi nodes' := by
  have hroutes := ofKind_perm h "route"
  have hmethods : Text.sorted
      (((ofKind nodes "route").map (GraphNode.text "method")).filter (· ≠ "")).dedup =
      Text.sorted (((ofKind nodes' "route").map (GraphNode.text "method")).filter (· ≠ "")).dedup :=
    sorted_congr (((hroutes.map _).filter _).dedup)
  refine listed_congr (ids_perm hroutes) ?_
  rw [hmethods, hroutes.length_eq]
  exact inventoryComponent_congr (ids_perm hroutes)

theorem postgresql_congr (h : nodes.Perm nodes') : postgresql nodes = postgresql nodes' := by
  have hdata := dataNodes_perm h
  have hconstraints := ofKind_perm h "constraint"
  have htables : ((dataNodes nodes).flatMap GraphNode.tables).dedup.length =
      ((dataNodes nodes').flatMap GraphNode.tables).dedup.length :=
    ((hdata.flatMap_right _).dedup).length_eq
  have hids := ids_perm (hdata.append hconstraints)
  refine listed_congr hids ?_
  rw [hdata.length_eq, hconstraints.length_eq, htables]
  exact inventoryComponent_congr hids

theorem transactionalBoundary_congr (h : nodes.Perm nodes') :
    transactionalBoundary nodes = transactionalBoundary nodes' := by
  have hids := ids_perm (ofKind_perm h "transaction")
  refine listed_congr hids ?_
  rw [(ofKind_perm h "transaction").length_eq]
  exact inventoryComponent_congr hids

theorem eventPublication_congr (h : nodes.Perm nodes') :
    eventPublication casefold nodes = eventPublication casefold nodes' := by
  have hmessaging := (dataNodes_perm h).filter fun node => node.tables.any (isEventTable casefold)
  refine listed_congr (ids_perm hmessaging) ?_
  rw [hmessaging.length_eq]
  exact inventoryComponent_congr (ids_perm hmessaging)

theorem authorizationGuards_congr (h : nodes.Perm nodes') :
    authorizationGuards nodes = authorizationGuards nodes' := by
  have hids := ids_perm (ofKind_perm h "check")
  refine listed_congr hids ?_
  rw [(ofKind_perm h "check").length_eq]
  exact inventoryComponent_congr hids

theorem mem_kinds {kind : String} : kind ∈ kinds nodes ↔ ∃ node ∈ nodes, node.text "kind" = kind := by
  have hfold : ∀ (l seen : List String), kind ∈ l.foldl
      (fun seen k => if k ∈ seen then seen else seen ++ [k]) seen ↔ kind ∈ seen ∨ kind ∈ l := by
    intro l
    induction l with
    | nil => simp
    | cons k l ih =>
      intro seen
      rw [List.foldl_cons, ih, List.mem_cons]
      split_ifs with hk
      · exact ⟨fun h => h.imp_right .inr, fun h => by
          rcases h with h | rfl | h
          · exact .inl h
          · exact .inl hk
          · exact .inr h⟩
      · rw [List.mem_append, List.mem_singleton, or_assoc]
  rw [kinds, hfold]
  simp

theorem nodup_kinds : (kinds nodes).Nodup := by
  have hfold : ∀ (l seen : List String), seen.Nodup → (l.foldl
      (fun seen k => if k ∈ seen then seen else seen ++ [k]) seen).Nodup := by
    intro l
    induction l with
    | nil => exact fun _ h => h
    | cons k l ih =>
      intro seen h
      rw [List.foldl_cons]
      refine ih _ ?_
      split_ifs with hk
      · exact h
      · exact List.nodup_append'.mpr ⟨h, List.nodup_singleton k, by simpa using hk⟩
  exact hfold _ [] List.nodup_nil

theorem kinds_perm (h : nodes.Perm nodes') : (kinds nodes).Perm (kinds nodes') := by
  refine (List.perm_ext_iff_of_nodup nodup_kinds nodup_kinds).mpr fun kind => ?_
  rw [mem_kinds, mem_kinds]
  exact exists_congr fun node => and_congr_left fun _ => h.mem_iff

theorem managedBlocks_perm (h : nodes.Perm nodes') :
    (managedBlocks nodes).Perm (managedBlocks nodes') := by
  have hkinds := (kinds_perm h).filter fun kind => "terraform_".toList.isPrefixOf kind.toList
  refine (hkinds.flatMap_right _).trans ?_
  exact List.Perm.flatMap_left _ fun kind _ => (ofKind_perm h kind).filterMap _

theorem terraformProviders_congr (h : nodes.Perm nodes') :
    terraformProviders nodes = terraformProviders nodes' := by
  have hblocks := managedBlocks_perm h
  have hproviders : Text.sorted ((managedBlocks nodes).map Prod.fst).dedup =
      Text.sorted ((managedBlocks nodes').map Prod.fst).dedup :=
    sorted_congr ((hblocks.map _).dedup)
  rw [terraformProviders, terraformProviders, hproviders]
  refine List.map_congr_left fun provider _ => ?_
  have hevidence := (hblocks.filter fun block => block.1 = provider).map Prod.snd
  dsimp only
  rw [hevidence.length_eq]
  exact inventoryComponent_congr hevidence

theorem before_iff_counts {a b : BusyModule} : a.before b = true ↔
    b.nodeCount < a.nodeCount ∨ a.nodeCount = b.nodeCount ∧ a.path ≤ b.path := by
  simp [BusyModule.before]

theorem busyModules_pairwise (l : List BusyModule) :
    (l.mergeSort BusyModule.before).Pairwise (BusyModule.before · · = true) := by
  refine List.pairwise_mergeSort (fun a b c hab hbc => ?_) (fun a b => ?_) l
  · rw [before_iff_counts] at hab hbc ⊢
    rcases hab with hab | ⟨hab, hpath⟩
    · rcases hbc with hbc | ⟨hbc, -⟩
      · exact .inl (hbc.trans hab)
      · exact .inl (hbc ▸ hab)
    · rcases hbc with hbc | ⟨hbc, hpath'⟩
      · exact .inl (hab ▸ hbc)
      · exact .inr ⟨hab.trans hbc, hpath.trans hpath'⟩
  · rw [Bool.or_eq_true, before_iff_counts, before_iff_counts]
    rcases Nat.lt_trichotomy a.nodeCount b.nodeCount with h | h | h
    · exact .inr (.inl h)
    · rcases le_total a.path b.path with hpath | hpath
      · exact .inl (.inr ⟨h, hpath⟩)
      · exact .inr (.inr ⟨h.symm, hpath⟩)
    · exact .inl (.inl h)

theorem before_antisymm_module {a b : BusyModule} (hab : a.before b = true)
    (hba : b.before a = true) : a = b := by
  rw [before_iff_counts] at hab hba
  rcases hab with hab | ⟨hcount, hpath⟩
  · rcases hba with hba | ⟨hba, -⟩
    · exact absurd hba (Nat.lt_asymm hab)
    · exact absurd hba (Nat.ne_of_gt hab).symm
  · rcases hba with hba | ⟨-, hpath'⟩
    · exact absurd hcount (Nat.ne_of_lt hba)
    · cases a
      cases b
      cases hcount
      cases le_antisymm hpath hpath'
      rfl

theorem busiestModules_congr (h : nodes.Perm nodes') : busiestModules nodes = busiestModules nodes' := by
  have hfiles : (moduleFiles nodes).Perm (moduleFiles nodes') := (h.map _).filter _
  have hrows : ((moduleFiles nodes).dedup.map fun path =>
      (⟨path, (moduleFiles nodes).count path⟩ : BusyModule)).Perm
      ((moduleFiles nodes').dedup.map fun path => ⟨path, (moduleFiles nodes').count path⟩) := by
    have hcount : ∀ path, (moduleFiles nodes).count path = (moduleFiles nodes').count path :=
      fun path => hfiles.count_eq path
    simp only [hcount]
    exact hfiles.dedup.map _
  refine congrArg (List.take 12) (List.Perm.eq_of_pairwise
    (fun a b _ _ => before_antisymm_module) (busyModules_pairwise _) (busyModules_pairwise _) ?_)
  exact (List.mergeSort_perm _ _).trans (hrows.trans (List.mergeSort_perm _ _).symm)

end Order

/-! What a component shows. -/

section Evidence
variable {casefold : String → String} {nodes : List GraphNode}

/-- Nodes of the catalogue are shown for a component: some of them by their ids, and at least
one. -/
structure InventoryComponent.Shown (nodes : List GraphNode) (c : InventoryComponent) : Prop where
  cited : ∀ id ∈ c.evidenceNodeIds, ∃ node ∈ nodes, node.id = id
  some : c.evidenceNodeIds ≠ []
  counted : c.evidenceNodeIds.length = min 4 c.evidenceCount

theorem listed_shown {evidence : List GraphNode} {componentId name category rule detail : String}
    (h : ∀ node ∈ evidence, node ∈ nodes) {c : InventoryComponent}
    (hc : c ∈ listed (ids evidence) (inventoryComponent componentId name category rule detail)) :
    c.componentId = componentId ∧ c.Shown nodes := by
  unfold listed at hc
  split at hc
  · cases hc
  · next hne =>
    obtain rfl := List.mem_singleton.mp hc
    have hperm : (Text.sorted (ids evidence)).Perm (ids evidence) := List.mergeSort_perm _ _
    refine ⟨rfl, ⟨fun id hid => ?_, ?_, ?_⟩⟩
    · obtain ⟨node, hnode, rfl⟩ := List.mem_map.mp (hperm.subset (List.mem_of_mem_take hid))
      exact ⟨node, h node hnode, rfl⟩
    · intro hnil
      have hlength := congrArg List.length hnil
      rw [inventoryComponent, List.length_take, hperm.length_eq, List.length_nil] at hlength
      exact hne (List.eq_nil_of_length_eq_zero (by omega))
    · rw [inventoryComponent, List.length_take, hperm.length_eq]

theorem mem_ofKind {kind : String} : ∀ node ∈ ofKind nodes kind, node ∈ nodes :=
  fun _ h => (List.mem_filter.mp h).1

theorem mem_dataNodes : ∀ node ∈ dataNodes nodes, node ∈ nodes := by
  intro node h
  rcases List.mem_append.mp h with h | h
  · rcases List.mem_append.mp h with h | h <;> exact mem_ofKind node h
  · exact mem_ofKind node h

theorem managedBlocks_cited {block : String × String} (h : block ∈ managedBlocks nodes) :
    ∃ node ∈ nodes, node.id = block.2 := by
  obtain ⟨kind, -, hblock⟩ := List.mem_flatMap.mp h
  obtain ⟨node, hnode, hsome⟩ := List.mem_filterMap.mp hblock
  dsimp only at hsome
  split_ifs at hsome
  cases hsome
  exact ⟨node, mem_ofKind node hnode, rfl⟩

theorem terraformProviders_shown {c : InventoryComponent} (hc : c ∈ terraformProviders nodes) :
    c.Shown nodes := by
  obtain ⟨provider, hprovider, rfl⟩ := List.mem_map.mp hc
  have hperm : ∀ l, (Text.sorted l).Perm l := fun l => List.mergeSort_perm l _
  have hblock : ∃ block ∈ managedBlocks nodes, block.1 = provider :=
    List.mem_map.mp (List.mem_dedup.mp ((hperm _).subset hprovider))
  let evidence := ((managedBlocks nodes).filter fun block => block.1 = provider).map Prod.snd
  have hlength : ∀ n, ((Text.sorted evidence).take n).length = min n evidence.length := by
    intro n
    rw [List.length_take, (hperm evidence).length_eq]
  refine ⟨fun id hid => ?_, fun hnil => ?_, hlength 4⟩
  · obtain ⟨block, hblock, rfl⟩ := List.mem_map.mp ((hperm _).subset (List.mem_of_mem_take hid))
    exact managedBlocks_cited (List.mem_filter.mp hblock).1
  · obtain ⟨block, hmem, rfl⟩ := hblock
    have hempty := (hlength 4).symm.trans (congrArg List.length hnil)
    have hsome : block.2 ∈ evidence :=
      List.mem_map_of_mem (List.mem_filter.mpr ⟨hmem, decide_eq_true rfl⟩)
    have hpos := List.length_pos_of_mem hsome
    rw [List.length_nil] at hempty
    omega

/-- Every component is shown by nodes of the catalogue. -/
theorem components_shown {c : InventoryComponent} (hc : c ∈ inventoryComponents casefold nodes) :
    c.Shown nodes := by
  simp only [inventoryComponents, List.mem_append] at hc
  rcases hc with ((((hc | hc) | hc) | hc) | hc) | hc
  · exact (listed_shown mem_ofKind hc).2
  · refine (listed_shown (fun node hnode => ?_) hc).2
    rcases List.mem_append.mp hnode with hnode | hnode
    · exact mem_dataNodes node hnode
    · exact mem_ofKind node hnode
  · exact (listed_shown mem_ofKind hc).2
  · exact (listed_shown (fun node hnode => mem_dataNodes node (List.mem_filter.mp hnode).1) hc).2
  · exact (listed_shown mem_ofKind hc).2
  · exact terraformProviders_shown hc

theorem listed_ids {evidence : List String} {componentId name category rule detail : String} :
    ((listed evidence (inventoryComponent componentId name category rule detail)).map
      fun c => c.componentId).Sublist [componentId] := by
  unfold listed
  split
  · exact List.nil_sublist _
  · exact List.Sublist.refl _

/-- No two components have one id. -/
theorem components_nodup :
    ((inventoryComponents casefold nodes).map fun c => c.componentId).Nodup := by
  let others := ["software:http-api", "software:postgresql", "software:transactional-boundary",
    "software:event-publication", "software:authorization-guards"]
  let providers := Text.sorted ((managedBlocks nodes).map Prod.fst).dedup
  have hproviders : (terraformProviders nodes).map (fun c => c.componentId) =
      providers.map ("software:terraform-provider-" ++ ·) := by
    rw [terraformProviders, List.map_map]
    rfl
  have hsub : ((inventoryComponents casefold nodes).map fun c => c.componentId).Sublist
      (others ++ providers.map ("software:terraform-provider-" ++ ·)) := by
    simp only [inventoryComponents, List.map_append, hproviders]
    exact ((((listed_ids.append listed_ids).append listed_ids).append listed_ids).append
      listed_ids).append (List.Sublist.refl _)
  refine List.Nodup.sublist hsub (List.nodup_append'.mpr ⟨by decide, ?_, ?_⟩)
  · have hnodup : providers.Nodup :=
      (List.mergeSort_perm _ _).nodup_iff.mpr (List.nodup_dedup _)
    refine hnodup.map fun p q h => ?_
    have hlists := congrArg String.toList h
    rw [String.toList_append, String.toList_append] at hlists
    exact String.toList_injective (List.append_cancel_left hlists)
  · intro id hid hprovider
    obtain ⟨provider, -, rfl⟩ := List.mem_map.mp hprovider
    have hprefix : ∀ other ∈ others,
        ("software:terraform-provider-".toList).isPrefixOf other.toList = false := by decide
    have hnone := hprefix _ hid
    rw [String.toList_append, ← Bool.not_eq_true, List.isPrefixOf_iff_prefix] at hnone
    exact hnone (List.prefix_append _ _)

theorem busiestModules_counted {m : BusyModule} (hm : m ∈ busiestModules nodes) :
    m.path ≠ "" ∧ m.nodeCount = nodes.countP fun node => node.text "file" = m.path := by
  have hrow := (List.mergeSort_perm _ _).subset (List.mem_of_mem_take hm)
  obtain ⟨path, hpath, rfl⟩ := List.mem_map.mp hrow
  have hne : path ≠ "" := by
    have hfile := List.mem_dedup.mp hpath
    simpa using (List.mem_filter.mp hfile).2
  refine ⟨hne, ?_⟩
  rw [moduleFiles, List.count_filter (by simpa using hne), List.count, List.countP_map]
  rfl

end Evidence

/-- The inventory of a catalogue does not depend on the order of its nodes; no two of its
components have one id, each is shown by nodes of the catalogue, and the files are listed with as
many nodes as they have. -/
theorem inventory_canonical (casefold : String → String) (catalog : Catalog) :
    let inventory := buildSoftwareInventory casefold catalog
    (∀ nodes, nodes.Perm catalog.nodes →
      buildSoftwareInventory casefold { catalog with nodes := nodes } = inventory) ∧
    (inventory.components.map fun c => c.componentId).Nodup ∧
    (∀ c ∈ inventory.components, c.Shown catalog.nodes) ∧
    ∀ m ∈ inventory.busiestModules, m.path ≠ "" ∧
      m.nodeCount = catalog.nodes.countP fun node => node.text "file" = m.path := by
  refine ⟨fun nodes h => ?_, components_nodup, fun c hc => components_shown hc,
    fun m hm => busiestModules_counted hm⟩
  have hcomponents : inventoryComponents casefold nodes =
      inventoryComponents casefold catalog.nodes := by
    rw [inventoryComponents, inventoryComponents, httpApi_congr h, postgresql_congr h,
      transactionalBoundary_congr h, eventPublication_congr h, authorizationGuards_congr h,
      terraformProviders_congr h]
  simp only [buildSoftwareInventory, hcomponents, busiestModules_congr h]

end Bantam
