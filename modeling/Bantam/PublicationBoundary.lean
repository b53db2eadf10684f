import Bantam.Lib.TwoRuns
import Bantam.ResilienceReport

/-! What is published of a catalogue does not depend on what is not to be published: two
catalogues that differ in private fields alone give the same report. -/
namespace Bantam

open TwoRuns

/-- Two values are the same, or objects with the same values under the keys that count. -/
def SameFields (counts : String → Prop) (v w : Json) : Prop :=
  v = w ∨ ∃ members others, v = .obj members ∧ w = .obj others ∧
    ∀ key, counts key → Json.member? key members = Json.member? key others

/-- Nodes that differ in fields alone that are not published. -/
def SameNode : Json → Json → Prop := SameFields (· ∈ publicNodeKeys)

/-- Flows that differ in the bodies of their documentation alone. -/
def SameFlow : Json → Json → Prop := SameFields (· ≠ "documentation")

/-- The same member, or lists of as many related items. -/
def SameItems (R : Json → Json → Prop) (v w : Option Json) : Prop :=
  v = w ∨ ∃ items others, v = some (.arr items) ∧ w = some (.arr others) ∧
    List.Forall₂ R items others

/-- Catalogues with the same digest that differ in private fields alone. -/
structure SamePublished (catalogue other : Json) : Prop where
  members : SameFields (fun key => key ≠ "nodes" ∧ key ≠ "default_flows") catalogue other
  nodes : SameItems SameNode (catalogue.get? "nodes") (other.get? "nodes")
  flows : SameItems SameFlow (catalogue.get? "default_flows") (other.get? "default_flows")

section Fields
variable {counts : String → Prop} {v w : Json} {key : String}

theorem SameFields.refl (v : Json) : SameFields counts v v := .inl rfl

theorem SameFields.subscript (h : SameFields counts v w) (hkey : counts key) :
    subscript key v = subscript key w := by
  obtain rfl | ⟨members, others, rfl, rfl, hsame⟩ := h
  · rfl
  · unfold Bantam.subscript
    dsimp only
    rw [hsame key hkey]

theorem SameFields.getOr (h : SameFields counts v w) (hkey : counts key) (default : Json) :
    getOr key default v = getOr key default w := by
  obtain rfl | ⟨members, others, rfl, rfl, hsame⟩ := h
  · rfl
  · unfold Bantam.getOr
    dsimp only
    rw [hsame key hkey]

theorem SameFields.get? (h : SameFields counts v w) (hkey : counts key) :
    v.get? key = w.get? key := by
  obtain rfl | ⟨members, others, rfl, rfl, hsame⟩ := h
  · rfl
  · exact hsame key hkey

/-- The published nodes are the same. -/
theorem SameNode.publicNode (h : SameNode v w) : publicNode v = publicNode w := by
  unfold Bantam.publicNode
  refine congrArg Json.obj (List.filterMap_congr fun key hkey => ?_)
  rw [SameFields.get? h hkey]

theorem SameFields.elementsOf (h : SameFields counts v w) (hkey : counts key) :
    elementsOf key v = elementsOf key w := by
  unfold Bantam.elementsOf
  rw [h.getOr hkey]

/-- A loop over a member of the two catalogues goes through related items. -/
theorem SameFields.agree {R : Json → Json → Prop} (hrefl : ∀ v, R v v)
    (h : SameFields counts v w) (hitems : SameItems R (v.get? key) (w.get? key)) :
    Agree (List.Forall₂ R) (Bantam.elementsOf key v) (Bantam.elementsOf key w) := by
  have hsame : ∀ l : List Json, List.Forall₂ R l l := fun l => List.forall₂_same.mpr fun v _ => hrefl v
  obtain rfl | ⟨members, others, rfl, rfl, -⟩ := h
  · exact Agree.of_eq hsame rfl
  · obtain hmember | ⟨items, rest, hitem, hrest, hall⟩ := hitems
    · refine Agree.of_eq hsame ?_
      have heq : Json.member? key members = Json.member? key others := hmember
      unfold Bantam.elementsOf Bantam.getOr
      dsimp only
      rw [heq]
    · have hitem : Json.member? key members = some (.arr items) := hitem
      have hrest : Json.member? key others = some (.arr rest) := hrest
      unfold Bantam.elementsOf Bantam.getOr
      dsimp only
      rw [hitem, hrest]
      exact hall
end Fields

section Steps
variable {F : Type} {floats : Floats F} {v w : Json} {items others : List Json}
  {byId byOther : Dict String Json} {byFlow : List (String × String)}

/-- The published nodes found under each identifier are the same. -/
def SameIndex (byId byOther : Dict String Json) : Prop :=
  ∀ nodeId, (byId.get? nodeId).map publicNode = (byOther.get? nodeId).map publicNode

theorem nodesById_agree (h : List.Forall₂ SameNode items others) :
    Agree SameIndex (nodesById items) (nodesById others) := by
  have hitems : Agree (List.Forall₂ fun a b : String × Json => a.1 = b.1 ∧ SameNode a.2 b.2)
      (items.mapM fun node => do pure (← asName (← subscript "id" node), node) :
        Report (List (String × Json)))
      (others.mapM fun node => do pure (← asName (← subscript "id" node), node)) := by
    refine Agree.mapM h fun v w hnode => ?_
    have hid : subscript "id" v = subscript "id" w := hnode.subscript (by decide)
    rw [hid]
    refine Agree.bind (Agree.of_eq (R := Eq) (fun _ => rfl) rfl) fun a b hab => ?_
    subst hab
    refine Agree.bind (Agree.of_eq (R := Eq) (fun _ => rfl) rfl) fun c d hcd => ?_
    subst hcd
    exact ⟨rfl, hnode⟩
  refine Agree.bind hitems fun l m hlm => ?_
  have hpublic : l.map (Prod.map id publicNode) = m.map (Prod.map id publicNode) := by
    induction hlm with
    | nil => rfl
    | cons hab _ ih =>
      rw [List.map_cons, List.map_cons, ih, Prod.map, Prod.map, id, id, hab.1, hab.2.publicNode]
  intro nodeId
  rw [← Dict.get?_ofList_map, ← Dict.get?_ofList_map, hpublic]

theorem SameIndex.isSome (h : SameIndex byId byOther) (nodeId : String) :
    (byId.get? nodeId).isSome = (byOther.get? nodeId).isSome := by
  have hmap := congrArg Option.isSome (h nodeId)
  rw [Option.isSome_map, Option.isSome_map] at hmap
  exact hmap

theorem foundNodeIds_eq (hindex : SameIndex byId byOther) (h : SameFlow v w) :
    foundNodeIds byId v = foundNodeIds byOther w := by
  unfold foundNodeIds
  rw [SameFields.elementsOf h (by decide), SameFields.subscript h (by decide)]
  simp only [hindex.isSome]

theorem publicFlow_eq (hindex : SameIndex byId byOther) (h : SameFlow v w) :
    publicFlow byId byFlow v = publicFlow byOther byFlow w := by
  unfold publicFlow
  rw [foundNodeIds_eq hindex h, SameFields.subscript h (by decide),
    SameFields.subscript h (by decide), SameFields.getOr h (by decide),
    SameFields.getOr h (by decide), SameFields.getOr h (by decide),
    SameFields.getOr h (by decide)]

theorem countBy_kind (h : List.Forall₂ SameNode items others) :
    countBy "kind" items = countBy "kind" others := by
  unfold countBy
  rw [mapM_eq h fun v w hnode => by rw [hnode.subscript (by decide)]]

variable {catalogue other : Json}

theorem SamePublished.flowsAgree (h : SamePublished catalogue other) :
    Agree (List.Forall₂ SameFlow) (elementsOf "default_flows" catalogue)
      (elementsOf "default_flows" other) :=
  h.members.agree SameFields.refl h.flows

theorem SamePublished.nodesAgree (h : SamePublished catalogue other) :
    Agree (List.Forall₂ SameNode) (elementsOf "nodes" catalogue) (elementsOf "nodes" other) :=
  h.members.agree SameFields.refl h.nodes

theorem catalogueFlowIds_eq (h : SamePublished catalogue other) :
    catalogueFlowIds catalogue = catalogueFlowIds other := by
  unfold catalogueFlowIds
  refine Agree.same (h.flowsAgree.bind fun items others hitems => Agree.of_eq (fun _ => rfl) ?_)
  exact mapM_eq hitems fun v w hflow => by rw [SameFields.subscript hflow (by decide)]

theorem validateRiskModel_eq (h : SamePublished catalogue other) (model : Json) :
    validateRiskModel floats model catalogue = validateRiskModel floats model other := by
  unfold validateRiskModel
  rw [catalogueFlowIds_eq h]

/-- A step that both runs make alike. -/
theorem agree_bind {α β : Type} {x y : Report α} {f g : α → Report β} (h : x = y)
    (hrest : ∀ a, Agree Eq (f a) (g a)) : Agree Eq (x >>= f) (y >>= g) :=
  Agree.bind (Agree.of_eq (R := Eq) (fun _ => rfl) h) fun a _ hab => hab ▸ hrest a

/-- Nothing outside the keys of `_public_node` and nothing of the documentation's bodies reaches
what is published, its digest included; neither does it decide whether anything is. -/
theorem publication_boundary (sha256 : String → String) (model evidence : Json) (commit : String)
    (h : SamePublished catalogue other) :
    buildPublicProjection floats sha256 catalogue model commit evidence =
      buildPublicProjection floats sha256 other model commit evidence := by
  refine Agree.same ?_
  unfold buildPublicProjection
  refine agree_bind rfl fun _ => agree_bind (validateRiskModel_eq h model) fun _ => ?_
  refine h.nodesAgree.bind fun nodes otherNodes hnodes => ?_
  refine (nodesById_agree hnodes).bind fun byId byOther hindex => agree_bind rfl fun byFlow => ?_
  refine h.flowsAgree.bind fun flows otherFlows hflows => ?_
  refine agree_bind (mapM_eq hflows fun v w => publicFlow_eq hindex) fun publicFlows => ?_
  refine agree_bind (h.members.elementsOf (by decide)) fun edges => agree_bind rfl fun publicEdges => ?_
  refine agree_bind (countBy_kind hnodes) fun nodeKinds => agree_bind rfl fun edgeTypes => ?_
  refine agree_bind (h.members.subscript (by decide)) fun digest => Agree.of_eq (fun _ => rfl) ?_
  rw [hnodes.length_eq, hflows.length_eq]
  simp only [hindex _]
end Steps

/-! Two catalogues with one effect, which keep its statement and its documentation to themselves. -/

def wholeFloats : Floats Int where
  ofNumber := String.toInt?
  zero := 0
  one := 1
  add := (· + ·)
  le x y := x ≤ y
  rounded := some
  fixed := toString

def exampleCatalogue (statement documentation : String) : Json :=
  .obj [("graph_digest", .str "example"),
    ("nodes", .arr [.obj [("id", .str "sql:example:1"), ("kind", .str "effect"),
      ("operation", .str "INSERT"), ("sql", .str statement)]]),
    ("edges", .arr []),
    ("default_flows", .arr [.obj [("flow_id", .str "default:post:/v1/example"),
      ("name", .str "Example"), ("node_ids", .strings ["sql:example:1"]),
      ("documentation", .str documentation)]])]

def exampleModel : Json :=
  .obj [("version", .nat 1), ("iterations", .nat 1000), ("seed", .nat 1),
    ("impact_tolerance_gbp", .nat 10),
    ("scenarios", .arr [.obj [("id", .str "example-risk"),
      ("flow_ids", .strings ["default:post:/v1/example"]),
      ("assumptions", .obj (["annual_event_probability", "conditional_loss_probability",
        "base_loss_gbp", "detection_mean_hours", "detection_sd_hours", "dwell_shape",
        "dwell_scale_hours", "blast_alpha", "blast_beta"].map fun field => (field, .nat 1)))]]),
    ("controls", .arr [])]

theorem publication_boundary_example :
    buildPublicProjection wholeFloats id (exampleCatalogue "do not publish" "private authored body")
        exampleModel "local" (.obj []) =
      buildPublicProjection wholeFloats id (exampleCatalogue "" "") exampleModel "local" (.obj []) := by
  refine publication_boundary id exampleModel (.obj []) "local" ⟨?_, ?_, ?_⟩
  · refine .inr ⟨_, _, rfl, rfl, fun key hkey => ?_⟩
    simp [Json.member?, hkey.1, hkey.2]
  · refine .inr ⟨_, _, rfl, rfl, List.Forall₂.cons (.inr ⟨_, _, rfl, rfl, ?_⟩) .nil⟩
    intro key hkey
    have hsql : key ≠ "sql" := by
      rintro rfl
      exact absurd hkey (by decide)
    simp [Json.member?, hsql]
  · refine .inr ⟨_, _, rfl, rfl, List.Forall₂.cons (.inr ⟨_, _, rfl, rfl, ?_⟩) .nil⟩
    intro key hkey
    simp [Json.member?, hkey]

end Bantam
