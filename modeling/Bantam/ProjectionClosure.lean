import Bantam.GraphProjection
import Bantam.Redaction

/-! The projection that a model is shown is closed and within its limits as long as redaction and
truncation only change the order of the identifiers; the joins are by identifiers that they have
not seen. -/
namespace Bantam

/-- The edges and the flows of a catalogue refer to its own nodes. -/
structure Catalog.Consistent (catalog : Catalog) : Prop where
  edges : ∀ e ∈ catalog.edges, e.source ∈ catalog.nodes.map GraphNode.id ∧
    e.target ∈ catalog.nodes.map GraphNode.id
  flows : ∀ f ∈ catalog.defaultFlows, ∀ nodeId ∈ f.nodeIds, nodeId ∈ catalog.nodes.map GraphNode.id

def Projection.ids (projection : Projection) : List String := projection.nodes.map GraphNode.id

/-- Every flow and every edge refers to projected nodes alone. -/
structure Projection.Closed (projection : Projection) : Prop where
  edges : ∀ e ∈ projection.edges, e.source ∈ projection.ids ∧ e.target ∈ projection.ids
  flows : ∀ f ∈ projection.flows, ∀ nodeId ∈ f.nodeIds, nodeId ∈ projection.ids

structure Projection.Bounded (projection : Projection) : Prop where
  nodes : projection.nodes.length ≤ maxModelNodes
  edges : projection.edges.length ≤ maxModelEdges
  flows : projection.flows.length ≤ maxModelFlows

def Projection.Fits (projection : Projection) : Prop :=
  Text.utf8Length projection.toJson.canonical.toList ≤ maxModelGraphBytes

/-- No node, edge or flow of the catalogue was dropped. -/
def Projection.Whole (catalog : Catalog) (projection : Projection) : Prop :=
  projection.nodes.length = catalog.nodes.length ∧ projection.edges = catalog.edges ∧
  projection.flows.length = catalog.defaultFlows.length

/-- The call refuses the catalogue as too large, or returns a projection that is closed, within
the limits, and marked complete where it is. -/
def ClosedOrRefused (redact : String → String) (catalog : Catalog) : Prop :=
  match redactedGraphProjection redact catalog with
  | .ok projection => projection.Closed ∧ projection.Bounded ∧ projection.Fits ∧
    (projection.complete = true ↔ projection.Whole catalog)
  | .error e => e = .bantam contextTooLarge

/-- The selected identifiers are different, and shown they are the same ones, in any order. -/
def Preserved (redact : String → String) (catalog : Catalog) : Prop :=
  (selectedIds catalog).Nodup ∧
  ((selectedIds catalog).map (shown redact)).Perm (selectedIds catalog)

section Selection
variable {catalog : Catalog}

theorem selectIds_nodup {selected nodeIds : List String} (h : selected.Nodup) :
    (selectIds selected nodeIds).Nodup := by
  induction nodeIds generalizing selected with
  | nil => exact h
  | cons nodeId rest ih =>
    unfold selectIds
    split_ifs with hfull hmem
    · exact h
    · exact ih h
    · refine ih (List.nodup_append.mpr ⟨h, List.nodup_singleton _, fun a ha b hb hab => ?_⟩)
      exact hmem (List.mem_singleton.mp hb ▸ hab ▸ ha)

theorem selectIds_length {selected nodeIds : List String} (h : selected.length ≤ maxModelNodes) :
    (selectIds selected nodeIds).length ≤ maxModelNodes := by
  induction nodeIds generalizing selected with
  | nil => exact h
  | cons nodeId rest ih =>
    unfold selectIds
    split_ifs with hfull hmem
    · exact h
    · exact ih h
    · refine ih ?_
      rw [List.length_append, List.length_singleton]
      exact Nat.lt_of_not_le hfull

theorem mem_selectIds {selected nodeIds : List String} {x : String}
    (h : x ∈ selectIds selected nodeIds) : x ∈ selected ∨ x ∈ nodeIds := by
  induction nodeIds generalizing selected with
  | nil => exact .inl h
  | cons nodeId rest ih =>
    unfold selectIds at h
    split_ifs at h
    · exact .inl h
    · exact (ih h).imp_right (List.mem_cons_of_mem _)
    · cases ih h with
      | inl hmem =>
        cases List.mem_append.mp hmem with
        | inl hold => exact .inl hold
        | inr hnew => exact .inr (List.mem_singleton.mp hnew ▸ List.mem_cons_self)
      | inr hrest => exact .inr (List.mem_cons_of_mem _ hrest)

theorem subset_selectIds {selected nodeIds : List String} {x : String} (h : x ∈ selected) :
    x ∈ selectIds selected nodeIds := by
  induction nodeIds generalizing selected with
  | nil => exact h
  | cons nodeId rest ih =>
    unfold selectIds
    split_ifs
    · exact h
    · exact ih h
    · exact ih (List.mem_append_left _ h)

/-- What the selection of the documentation keeps: a step adds the target of an edge. -/
theorem selectDocumentation_invariant {I : List String → Prop} {edges : List GraphEdge}
    (step : ∀ selected, ∀ edge ∈ edges, I selected → edge.target ∉ selected →
      selected.length < maxModelNodes → I (selected ++ [edge.target])) {selected : List String}
    (h : I selected) : I (selectDocumentation selected edges) := by
  unfold selectDocumentation
  induction edges generalizing selected with
  | nil => exact h
  | cons edge rest ih =>
    rw [List.foldl_cons]
    refine ih (fun s e he => step s e (List.mem_cons_of_mem _ he)) ?_
    split_ifs with hadd
    · exact step selected edge List.mem_cons_self h hadd.2.2.1 hadd.2.2.2
    · exact h

/-- The selected identifiers are ones of the catalogue, and not too many. -/
theorem selectedIds_sound (h : catalog.Consistent) :
    (selectedIds catalog).length ≤ maxModelNodes ∧
      ∀ x ∈ selectedIds catalog, x ∈ catalog.nodes.map GraphNode.id := by
  have hflows : ∀ x ∈ (catalog.defaultFlows.take maxModelFlows).flatMap GraphFlow.nodeIds,
      x ∈ catalog.nodes.map GraphNode.id := by
    intro x hx
    obtain ⟨f, hf, hmem⟩ := List.mem_flatMap.mp hx
    exact h.flows f (List.mem_of_mem_take hf) x hmem
  unfold selectedIds
  refine selectDocumentation_invariant (I := fun selected => selected.length ≤ maxModelNodes ∧
    ∀ x ∈ selected, x ∈ catalog.nodes.map GraphNode.id) ?_ ?_
  · rintro selected edge hedge ⟨-, hids⟩ - hroom
    refine ⟨?_, fun x hx => ?_⟩
    · rw [List.length_append, List.length_singleton]
      exact hroom
    · cases List.mem_append.mp hx with
      | inl hold => exact hids x hold
      | inr hlast => exact List.mem_singleton.mp hlast ▸ (h.edges edge hedge).2
  · split_ifs
    · rw [List.map_take]
      exact ⟨List.length_take_le _ _, fun x hx => List.mem_of_mem_take hx⟩
    · refine ⟨selectIds_length (Nat.zero_le _), fun x hx => ?_⟩
      cases mem_selectIds hx with
      | inl hnone => cases hnone
      | inr hmem => exact hflows x hmem

/-- Every selected node is named by a flow that the model is shown. -/
def Catalog.Named (catalog : Catalog) : Prop :=
  ∀ x ∈ selectedIds catalog, ∃ f ∈ catalog.defaultFlows.take maxModelFlows, x ∈ f.nodeIds

theorem Catalog.Named.distinct (h : catalog.Named) : (selectedIds catalog).Nodup := by
  cases hflat : (catalog.defaultFlows.take maxModelFlows).flatMap GraphFlow.nodeIds with
  | nil =>
    have hnone : selectedIds catalog = [] := by
      refine List.eq_nil_iff_forall_not_mem.mpr fun x hx => ?_
      have hmem := List.mem_flatMap.mpr (h x hx)
      rw [hflat] at hmem
      cases hmem
    rw [hnone]
    exact List.nodup_nil
  | cons first rest =>
    have hfirst : first ∈ selectIds [] (first :: rest) := by
      rw [selectIds, if_neg (by decide), if_neg List.not_mem_nil]
      exact subset_selectIds (List.mem_singleton.mpr rfl)
    have hsome : (selectIds [] (first :: rest)).isEmpty = false := by
      rw [List.isEmpty_eq_false_iff]
      exact List.ne_nil_of_mem hfirst
    unfold selectedIds
    dsimp only
    rw [hflat, hsome]
    refine selectDocumentation_invariant (I := List.Nodup) ?_ (selectIds_nodup List.nodup_nil)
    intro selected edge _ hnodup hnew _
    refine List.nodup_append.mpr ⟨hnodup, List.nodup_singleton _, fun a ha b hb hab => ?_⟩
    exact hnew (List.mem_singleton.mp hb ▸ hab ▸ ha)
end Selection

section Trimming
variable {redact : String → String} {catalog : Catalog} {projection : Projection}
  {selected : List String}

theorem initialProjection_ids (h : catalog.Consistent) :
    (initialProjection redact catalog).ids = (selectedIds catalog).map (shown redact) := by
  have found : ∀ x ∈ catalog.nodes.map GraphNode.id, ∃ node : GraphNode, node.id = x ∧
      (Dict.ofList (catalog.nodes.map fun node => (node.id, node))).get? x = some node := by
    intro x hx
    have hkey : x ∈ (Dict.ofList (catalog.nodes.map fun node => (node.id, node))).keys := by
      rw [Dict.mem_keys_ofList, List.map_map]
      exact hx
    obtain ⟨item, hitem, rfl⟩ := List.mem_map.mp hkey
    obtain ⟨node, -, rfl⟩ := List.mem_map.mp (Dict.mem_ofList hitem)
    exact ⟨node, rfl, Dict.get?_eq_some.mpr hitem⟩
  have hall : ∀ l : List String, (∀ x ∈ l, x ∈ catalog.nodes.map GraphNode.id) →
      (l.filterMap fun nodeId => ((Dict.ofList (catalog.nodes.map fun node =>
        (node.id, node))).get? nodeId).map (·.shown redact)).map GraphNode.id =
      l.map (shown redact) := by
    intro l hl
    induction l with
    | nil => rfl
    | cons x l ih =>
      obtain ⟨node, hid, hget⟩ := found x (hl x List.mem_cons_self)
      have hrest := ih fun y hy => hl y (List.mem_cons_of_mem x hy)
      rw [List.filterMap_cons, hget, Option.map_some, List.map_cons, List.map_cons, hrest, ← hid]
      rfl
  exact hall _ (selectedIds_sound h).2

theorem initialProjection_length (h : catalog.Consistent) :
    (initialProjection redact catalog).nodes.length = (selectedIds catalog).length := by
  have hlength : (initialProjection redact catalog).ids.length =
      ((selectedIds catalog).map (shown redact)).length := by rw [initialProjection_ids h]
  rw [Projection.ids, List.length_map, List.length_map] at hlength
  exact hlength

/-- What the loop keeps while the identifiers of the nodes are the selected ones. -/
structure Joined (catalog : Catalog) (projection : Projection) (selected : List String) :
    Prop where
  ids : projection.ids.Perm selected
  distinct : selected.Nodup
  edges : ∀ e ∈ projection.edges, e.source ∈ selected ∧ e.target ∈ selected
  flows : ∀ f ∈ projection.flows, ∀ nodeId ∈ f.nodeIds, nodeId ∈ selected
  bounded : projection.Bounded
  complete : projection.complete = true ↔ projection.Whole catalog
  fewer : projection.nodes.length ≤ catalog.nodes.length

theorem Joined.closed (h : Joined catalog projection selected) : projection.Closed where
  edges := fun e he => ⟨h.ids.mem_iff.mpr (h.edges e he).1, h.ids.mem_iff.mpr (h.edges e he).2⟩
  flows := fun f hf nodeId hmem => h.ids.mem_iff.mpr (h.flows f hf nodeId hmem)

/-- Before any node is taken away, `complete` tells whether anything was left out. -/
theorem initial_complete (h : catalog.Consistent) (hnodup : (selectedIds catalog).Nodup) :
    (initialProjection redact catalog).complete = true ↔
      (initialProjection redact catalog).Whole catalog := by
  -- as many selected identifiers as nodes are all of them, and then every edge is kept
  have hall : (selectedIds catalog).length = catalog.nodes.length →
      (catalog.edges.filter fun edge => edge.source ∈ selectedIds catalog ∧
        edge.target ∈ selectedIds catalog) = catalog.edges := by
    intro hlength
    have hperm : (selectedIds catalog).Perm (catalog.nodes.map GraphNode.id) :=
      (List.subperm_of_subset hnodup (selectedIds_sound h).2).perm_of_length_le (by simp [hlength])
    refine List.filter_eq_self.mpr fun e he => ?_
    simpa [hperm.mem_iff] using h.edges e he
  have hcomplete : (initialProjection redact catalog).complete = true ↔
      (selectedIds catalog).length = catalog.nodes.length ∧
      (catalog.defaultFlows.take maxModelFlows).length = catalog.defaultFlows.length ∧
      ((catalog.edges.filter fun edge => edge.source ∈ selectedIds catalog ∧
        edge.target ∈ selectedIds catalog).take maxModelEdges).length =
      (catalog.edges.filter fun edge => edge.source ∈ selectedIds catalog ∧
        edge.target ∈ selectedIds catalog).length := by
    simp [initialProjection, List.dedup_eq_self.mpr hnodup]
  have hedges : (initialProjection redact catalog).edges =
      (catalog.edges.filter fun edge => edge.source ∈ selectedIds catalog ∧
        edge.target ∈ selectedIds catalog).take maxModelEdges := rfl
  have hflows : (initialProjection redact catalog).flows.length =
      (catalog.defaultFlows.take maxModelFlows).length := List.length_map _
  rw [hcomplete, Projection.Whole, initialProjection_length h, hedges, hflows]
  constructor
  · rintro ⟨hlength, hflow, htake⟩
    rw [hall hlength] at htake ⊢
    exact ⟨hlength, (List.take_sublist _ _).eq_of_length htake, hflow⟩
  · rintro ⟨hlength, htake, hflow⟩
    rw [hall hlength] at htake ⊢
    exact ⟨hlength, hflow, congrArg List.length htake⟩

theorem Joined.initial (h : catalog.Consistent) (hkept : Preserved redact catalog) :
    Joined catalog (initialProjection redact catalog) (selectedIds catalog) := by
  obtain ⟨hnodup, hperm⟩ := hkept
  obtain ⟨hlength, hids⟩ := selectedIds_sound h
  have hnodes : (initialProjection redact catalog).nodes.length = (selectedIds catalog).length :=
    initialProjection_length h
  have hfewer : (selectedIds catalog).length ≤ catalog.nodes.length := by
    have hsubperm := List.subperm_of_subset hnodup hids
    simpa using hsubperm.length_le
  refine ⟨(initialProjection_ids h).symm ▸ hperm, hnodup, ?_, ?_, ⟨hnodes ▸ hlength, ?_, ?_⟩,
    initial_complete h hnodup, hnodes ▸ hfewer⟩
  · intro e he
    simpa using (List.mem_filter.mp (List.mem_of_mem_take he)).2
  · intro f hf nodeId hmem
    obtain ⟨g, -, rfl⟩ := List.mem_map.mp hf
    simpa using (List.mem_filter.mp hmem).2
  · exact List.length_take_le _ _
  · exact le_of_eq_of_le (List.length_map _) (List.length_take_le _ _)

theorem ids_of_last {removed : GraphNode} (hlast : projection.nodes.getLast? = some removed) :
    projection.ids = projection.nodes.dropLast.map GraphNode.id ++ [removed.id] := by
  have hsplit := List.dropLast_append_getLast? removed hlast
  rw [Projection.ids, ← hsplit, List.map_append, List.map_singleton, hsplit]

theorem erase_eq (h : selected.Nodup) {x : String} : selected.erase x = selected.filter (· ≠ x) := by
  rw [h.erase_eq_filter]
  exact List.filter_congr fun y _ => by rw [bne, beq_eq_decide, decide_not]

theorem Joined.last (h : Joined catalog projection selected) {removed : GraphNode}
    (hlast : projection.nodes.getLast? = some removed) : removed.id ∈ selected := by
  refine h.ids.mem_iff.mp ?_
  rw [ids_of_last hlast]
  exact List.mem_append_right _ (List.mem_singleton.mpr rfl)

theorem Joined.without (h : Joined catalog projection selected) {removed : GraphNode}
    (hlast : projection.nodes.getLast? = some removed) :
    Joined catalog (withoutNode projection (selected.filter (· ≠ removed.id)))
      (selected.filter (· ≠ removed.id)) := by
  have hshort : projection.nodes.dropLast.length < projection.nodes.length := by
    rw [List.length_dropLast]
    exact Nat.sub_lt (List.length_pos_iff.mpr fun hnone => by rw [hnone] at hlast; cases hlast)
      Nat.one_pos
  refine ⟨?_, h.distinct.filter _, ?_, ?_, ⟨?_, ?_, ?_⟩, ?_, (Nat.le_of_lt hshort).trans h.fewer⟩
  · have hperm := h.ids
    rw [ids_of_last hlast] at hperm
    have herase := (List.perm_append_comm.trans hperm).erase removed.id
    rw [List.singleton_append, List.erase_cons_head, erase_eq h.distinct] at herase
    exact herase
  · intro e he
    simpa using (List.mem_filter.mp he).2
  · intro f hf nodeId hmem
    obtain ⟨g, -, rfl⟩ := List.mem_map.mp hf
    simpa using (List.mem_filter.mp hmem).2
  · exact (Nat.le_of_lt hshort).trans h.bounded.nodes
  · exact (List.length_filter_le _ _).trans h.bounded.edges
  · exact le_of_eq_of_le (List.length_map _) h.bounded.flows
  · constructor
    · intro hcomplete
      cases hcomplete
    · intro hwhole
      exact absurd hwhole.1 (ne_of_lt (Nat.lt_of_lt_of_le hshort h.fewer))

/-- What one round of the loop can do. -/
theorem fitProjection_cases (fuel : Nat) (projection : Projection) (selected : List String) :
    (projection.Fits ∧ fitProjection fuel projection selected = .ok projection) ∨
    ((projection.nodes.length ≤ 20 ∨ fuel = 0) ∧
      fitProjection fuel projection selected = .error (.bantam contextTooLarge)) ∨
    (∃ removed, projection.nodes.getLast? = some removed ∧ removed.id ∉ selected ∧
      fitProjection fuel projection selected = .error (.runtime removed.id)) ∨
    ∃ rounds removed, fuel = rounds + 1 ∧ projection.nodes.getLast? = some removed ∧
      removed.id ∈ selected ∧ fitProjection fuel projection selected =
        fitProjection rounds (withoutNode projection (selected.filter (· ≠ removed.id)))
          (selected.filter (· ≠ removed.id)) := by
  rw [fitProjection.eq_def]
  dsimp only
  by_cases hfits : Text.utf8Length projection.toJson.canonical.toList ≤ maxModelGraphBytes
  · exact .inl ⟨hfits, if_pos hfits⟩
  by_cases hfew : projection.nodes.length ≤ 20
  · exact .inr (.inl ⟨.inl hfew, (if_neg hfits).trans (if_pos hfew)⟩)
  rw [if_neg hfits, if_neg hfew]
  cases fuel with
  | zero => exact .inr (.inl ⟨.inr rfl, rfl⟩)
  | succ rounds =>
    cases hlast : projection.nodes.getLast? with
    | none =>
      rw [List.getLast?_eq_none_iff] at hlast
      exact absurd (by rw [hlast]; exact Nat.zero_le 20) hfew
    | some removed =>
      dsimp only
      by_cases hmem : removed.id ∈ selected
      · exact .inr (.inr (.inr ⟨rounds, removed, rfl, rfl, hmem, if_pos hmem⟩))
      · exact .inr (.inr (.inl ⟨removed, rfl, hmem, if_neg hmem⟩))

theorem Joined.fit {fuel : Nat} (h : Joined catalog projection selected) :
    match fitProjection fuel projection selected with
    | .ok p => p.Closed ∧ p.Bounded ∧ p.Fits ∧ (p.complete = true ↔ p.Whole catalog)
    | .error e => e = .bantam contextTooLarge := by
  induction fuel generalizing projection selected with
  | zero =>
    obtain ⟨hfits, hround⟩ | ⟨-, hround⟩ | ⟨removed, hlast, hgone, -⟩ | ⟨rounds, removed, hfuel, -⟩ :=
      fitProjection_cases 0 projection selected
    · rw [hround]
      exact ⟨h.closed, h.bounded, hfits, h.complete⟩
    · rw [hround]
    · exact absurd (h.last hlast) hgone
    · cases hfuel
  | succ fuel ih =>
    obtain ⟨hfits, hround⟩ | ⟨-, hround⟩ | ⟨removed, hlast, hgone, -⟩ |
      ⟨rounds, removed, hfuel, hlast, -, hround⟩ := fitProjection_cases (fuel + 1) projection selected
    · rw [hround]
      exact ⟨h.closed, h.bounded, hfits, h.complete⟩
    · rw [hround]
    · exact absurd (h.last hlast) hgone
    · cases hfuel
      rw [hround]
      exact ih (h.without hlast)

/-- What the loop keeps whatever the identifiers of the nodes are: as many nodes as selected
identifiers, and each of these in a flow. -/
structure Counted (projection : Projection) (selected : List String) : Prop where
  distinct : selected.Nodup
  length : projection.ids.length = selected.length
  named : ∀ x ∈ selected, ∃ f ∈ projection.flows, x ∈ f.nodeIds

theorem Counted.initial (h : catalog.Consistent) (hnamed : catalog.Named) :
    Counted (initialProjection redact catalog) (selectedIds catalog) := by
  refine ⟨hnamed.distinct, ?_, fun x hx => ?_⟩
  · rw [initialProjection_ids h, List.length_map]
  · obtain ⟨f, hf, hmem⟩ := hnamed x hx
    refine ⟨_, List.mem_map_of_mem hf, ?_⟩
    simpa using ⟨hmem, hx⟩

theorem Counted.without (h : Counted projection selected) {removed : GraphNode}
    (hmem : removed.id ∈ selected) :
    Counted (withoutNode projection (selected.filter (· ≠ removed.id)))
      (selected.filter (· ≠ removed.id)) := by
  refine ⟨h.distinct.filter _, ?_, fun x hx => ?_⟩
  · have hlength := h.length
    rw [Projection.ids, List.length_map] at hlength
    rw [Projection.ids, List.length_map, ← erase_eq h.distinct, List.length_erase_of_mem hmem,
      ← hlength]
    exact List.length_dropLast
  · obtain ⟨f, hf, hin⟩ := h.named x (List.mem_of_mem_filter hx)
    refine ⟨_, List.mem_map_of_mem hf, ?_⟩
    simpa using ⟨hin, by simpa using hx⟩

theorem Counted.perm_of_closed (h : Counted projection selected) (hclosed : projection.Closed) :
    projection.ids.Perm selected := by
  have hsub : selected.Subperm projection.ids := List.subperm_of_subset h.distinct fun x hx => by
    obtain ⟨f, hf, hin⟩ := h.named x hx
    exact hclosed.flows f hf x hin
  exact (hsub.perm_of_length_le (Nat.le_of_eq h.length)).symm

/-- A projection that comes out closed has only ever lost the nodes whose identifiers it
dropped from the selection. -/
theorem Counted.perm {fuel : Nat} (h : Counted projection selected) {p : Projection}
    (hfit : fitProjection fuel projection selected = .ok p) (hclosed : p.Closed) :
    projection.ids.Perm selected := by
  induction fuel generalizing projection selected with
  | zero =>
    obtain ⟨-, hround⟩ | ⟨-, hround⟩ | ⟨removed, -, -, hround⟩ | ⟨rounds, removed, hfuel, -⟩ :=
      fitProjection_cases 0 projection selected
    · exact h.perm_of_closed (Except.ok.inj (hround.symm.trans hfit) ▸ hclosed)
    · cases hround.symm.trans hfit
    · cases hround.symm.trans hfit
    · cases hfuel
  | succ fuel ih =>
    obtain ⟨-, hround⟩ | ⟨-, hround⟩ | ⟨removed, -, -, hround⟩ |
      ⟨rounds, removed, hfuel, hlast, hmem, hround⟩ := fitProjection_cases (fuel + 1) projection selected
    · exact h.perm_of_closed (Except.ok.inj (hround.symm.trans hfit) ▸ hclosed)
    · cases hround.symm.trans hfit
    · cases hround.symm.trans hfit
    · cases hfuel
      have hrest := ih (h.without hmem) (hround.symm.trans hfit)
      rw [ids_of_last hlast]
      rw [← erase_eq h.distinct] at hrest
      exact (hrest.append_right _).trans (List.perm_append_comm.trans (List.perm_cons_erase hmem).symm)
/-- With many nodes, a last one whose identifier is not selected ends the loop in no good way. -/
theorem Counted.open_or_crash (h : Counted projection selected)
    (hmany : 20 < projection.nodes.length) {removed : GraphNode}
    (hlast : projection.nodes.getLast? = some removed) (hgone : removed.id ∉ selected) :
    match fitProjection projection.nodes.length projection selected with
    | .ok p => ¬p.Closed
    | .error e => e = .runtime removed.id := by
  obtain ⟨-, hround⟩ | ⟨hfew, -⟩ | ⟨other, hother, -, hround⟩ | ⟨-, other, -, hother, hmem, -⟩ :=
    fitProjection_cases projection.nodes.length projection selected
  · rw [hround]
    intro hclosed
    refine hgone ((h.perm_of_closed hclosed).mem_iff.mp ?_)
    rw [ids_of_last hlast]
    exact List.mem_append_right _ (List.mem_singleton.mpr rfl)
  · omega
  · rw [hround, Option.some.inj (hlast.symm.trans hother)]
  · exact absurd (Option.some.inj (hlast.symm.trans hother) ▸ hmem) hgone
end Trimming

variable {redact : String → String} {catalog : Catalog}

theorem redactedGraphProjection_eq (h : (selectedIds catalog).Nodup) :
    redactedGraphProjection redact catalog =
      fitProjection (initialProjection redact catalog).nodes.length
        (initialProjection redact catalog) (selectedIds catalog) := by
  unfold redactedGraphProjection
  rw [List.dedup_eq_self.mpr h]

/-- The projection is right where the selected identifiers are the ones that the model is shown.
Where every selected node is in a flow, a projection that comes out closed needs them to be. -/
theorem projection_closed (h : catalog.Consistent) :
    (Preserved redact catalog → ClosedOrRefused redact catalog) ∧
    (catalog.Named → ∀ projection, redactedGraphProjection redact catalog = .ok projection →
      projection.Closed → Preserved redact catalog) := by
  constructor
  · intro hkept
    unfold ClosedOrRefused
    rw [redactedGraphProjection_eq hkept.1]
    exact (Joined.initial h hkept).fit
  · intro hnamed projection hproject hclosed
    rw [redactedGraphProjection_eq hnamed.distinct] at hproject
    refine ⟨hnamed.distinct, ?_⟩
    have hperm := (Counted.initial h hnamed).perm hproject hclosed
    rw [initialProjection_ids h] at hperm
    exact hperm

/-- Where the last of many selected nodes is shown under an identifier that is not selected, a flow
leads to a node that is not shown, or the loop looks for one that is not selected. -/
theorem not_projected (h : catalog.Consistent) (hnamed : catalog.Named) {last : String}
    (hmany : 20 < (selectedIds catalog).length) (hlast : (selectedIds catalog).getLast? = some last)
    (hgone : shown redact last ∉ selectedIds catalog) : ¬ClosedOrRefused redact catalog := by
  intro hproject
  have hlength : (initialProjection redact catalog).nodes.length = (selectedIds catalog).length :=
    initialProjection_length h
  obtain ⟨removed, hremoved⟩ : ∃ removed,
      (initialProjection redact catalog).nodes.getLast? = some removed :=
    Option.isSome_iff_exists.mp (List.getLast?_isSome.mpr fun hnone => by
      rw [← hlength, hnone] at hmany
      exact Nat.not_lt_zero 20 hmany)
  have hshown : removed.id = shown redact last := by
    have hids : (initialProjection redact catalog).ids.getLast? =
        ((selectedIds catalog).map (shown redact)).getLast? := by rw [initialProjection_ids h]
    rw [Projection.ids, List.getLast?_map, hremoved, List.getLast?_map, hlast] at hids
    exact Option.some.inj hids
  have hcounted : Counted (initialProjection redact catalog) (selectedIds catalog) :=
    Counted.initial h hnamed
  have hend := hcounted.open_or_crash (hlength ▸ hmany) hremoved (hshown ▸ hgone)
  unfold ClosedOrRefused at hproject
  rw [redactedGraphProjection_eq hnamed.distinct] at hproject
  cases hfit : fitProjection (initialProjection redact catalog).nodes.length
      (initialProjection redact catalog) (selectedIds catalog) with
  | ok p =>
    rw [hfit] at hproject hend
    exact hend hproject.1
  | error e =>
    rw [hfit] at hproject hend
    cases hproject.symm.trans hend

/-! A handler without checks. -/

def healthCatalog : Catalog where
  source := none
  graphDigest := ""
  nodes := [⟨"function:app.health", []⟩, ⟨"route:GET:/health", []⟩]
  edges := [⟨"route:GET:/health", "function:app.health", "handled_by"⟩,
    ⟨"route:GET:/health", "function:app.health", "next"⟩]
  defaultFlows := [⟨"default:get:/health", "Check service health", "", ["PUBLIC"],
    ["route:GET:/health", "function:app.health"]⟩]
  parseErrors := []

theorem projection_closed_health :
    healthCatalog.Consistent ∧ ClosedOrRefused (redactSensitiveText isWordByte) healthCatalog := by
  have h : healthCatalog.Consistent := ⟨by decide +kernel, by decide +kernel⟩
  refine ⟨h, (projection_closed h).1 ⟨by decide +kernel, ?_⟩⟩
  have hids : (selectedIds healthCatalog).map (shown (redactSensitiveText isWordByte)) =
      selectedIds healthCatalog := by decide +kernel
  rw [hids]

/-! A handler `token` with a helper for each of its steps and one check. -/

def tokenNodeIds : List String :=
  ["route:POST:/token", "function:app.token", "function:app.a", "function:app.b",
    "function:app.c", "function:app.d", "function:app.e", "function:app.f", "function:app.g",
    "function:app.h", "function:app.i", "function:app.j", "function:app.k", "function:app.l",
    "function:app.m", "function:app.n", "function:app.o", "function:app.p", "function:app.q",
    "function:app.r", "check:app.token:1f60d991d927:1"]

def tokenCatalog : Catalog where
  source := none
  graphDigest := ""
  nodes := tokenNodeIds.map fun nodeId => ⟨nodeId, []⟩
  edges := (tokenNodeIds.zip tokenNodeIds.tail).map fun pair => ⟨pair.1, pair.2, "next"⟩
  defaultFlows := [⟨"default:post:/token", "Token", "", ["PUBLIC"], tokenNodeIds⟩]
  parseErrors := []

theorem tokenCatalog_ids : tokenCatalog.nodes.map GraphNode.id = tokenNodeIds := by
  unfold tokenCatalog
  rw [List.map_map]
  exact List.map_id _

theorem tokenCatalog_consistent : tokenCatalog.Consistent where
  edges := by
    intro e he
    obtain ⟨pair, hpair, rfl⟩ := List.mem_map.mp he
    rw [tokenCatalog_ids]
    exact ⟨(List.of_mem_zip hpair).1, List.mem_of_mem_tail (List.of_mem_zip hpair).2⟩
  flows := by
    intro f hf nodeId hmem
    obtain rfl := List.mem_singleton.mp hf
    rw [tokenCatalog_ids]
    exact hmem

theorem tokenCatalog_selected : selectedIds tokenCatalog = tokenNodeIds := by decide +kernel

/-- The check of `token` is shown under another identifier than the flow names it by. -/
theorem tokenCheck_shown :
    shown (redactSensitiveText isWordByte) "check:app.token:1f60d991d927:1" =
      "check:app.token:[REDACTED]" := by decide +kernel

theorem projection_not_closed :
    tokenCatalog.Consistent ∧ ¬ClosedOrRefused (redactSensitiveText isWordByte) tokenCatalog := by
  have hlast : (selectedIds tokenCatalog).getLast? = some "check:app.token:1f60d991d927:1" := by
    rw [tokenCatalog_selected]
    rfl
  have hmany : 20 < (selectedIds tokenCatalog).length := by
    rw [tokenCatalog_selected]
    decide
  refine ⟨tokenCatalog_consistent, not_projected tokenCatalog_consistent ?_ hmany hlast ?_⟩
  · intro x hx
    rw [tokenCatalog_selected] at hx
    exact ⟨_, List.mem_singleton.mpr rfl, hx⟩
  · rw [tokenCheck_shown, tokenCatalog_selected]
    decide +kernel

end Bantam
