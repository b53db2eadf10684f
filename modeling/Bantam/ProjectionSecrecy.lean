import Bantam.ProjectionClosure

/-! What the projection withholds of the texts of a catalogue: the texts of scalar fields and of
flows, and of the lists only what redaction would leave anyway. -/
namespace Bantam

/-- The second text is what redaction leaves of the first, or the beginning of it. -/
def Withheld (redact : String → String) (s t : String) : Prop :=
  t.toList <+: (redact s).toList

mutual
/-- The strings in a value, in their order. -/
def texts : Json → List String
  | .str s => [s]
  | .arr items => textsOfItems items
  | .obj members => textsOfMembers members
  | .null | .bool _ | .num _ => []

def textsOfItems : List Json → List String
  | [] => []
  | v :: items => texts v ++ textsOfItems items

def textsOfMembers : List (String × Json) → List String
  | [] => []
  | (k, v) :: members => k :: texts v ++ textsOfMembers members
end

/-- What a field of a node is shown as says no more than redaction leaves of its texts. -/
def Hides (redact : String → String) (shownAs original : Json) : Prop :=
  List.Forall₂ (Withheld redact) (texts original) (texts shownAs)

/-- The texts of a list are what redaction would leave of them, or the beginning of that. -/
def Harmless (redact : String → String) (v : Json) : Prop :=
  ∀ items, v = .arr items → ∀ s ∈ texts v, Withheld redact s s

section
variable {redact : String → String} {catalog : Catalog} {projection p : Projection}
  {selected : List String} {v w : Json}

theorem withheld_shown (redact : String → String) (s : String) :
    Withheld redact s (shown redact s) := by
  unfold Withheld shown
  rw [String.toList_ofList]
  exact List.take_prefix _ _

theorem hides_self : Hides redact v v ↔ ∀ s ∈ texts v, Withheld redact s s :=
  List.forall₂_same

/-- Scalars are hidden; a list is copied, and so hidden only where it is harmless. -/
theorem shownValue_hides (h : shownValue redact v = some w) :
    Hides redact w v ↔ Harmless redact v := by
  cases v with
  | str s =>
    cases h
    refine iff_of_true ?_ fun items hlist => by cases hlist
    exact List.Forall₂.cons (withheld_shown redact s) List.Forall₂.nil
  | arr items =>
    cases h
    rw [hides_self]
    exact ⟨fun hall _ _ => hall, fun hall => hall items rfl⟩
  | num text =>
    simp only [shownValue] at h
    split_ifs at h
    cases h
    exact iff_of_true List.Forall₂.nil fun items hlist => by cases hlist
  | bool b =>
    cases h
    exact iff_of_true List.Forall₂.nil fun items hlist => by cases hlist
  | null => cases h
  | obj members => cases h

/-- Taking nodes away changes neither the other nodes nor the texts of the flows. -/
theorem fitProjection_ok {fuel : Nat} (h : fitProjection fuel projection selected = .ok p) :
    (∀ node ∈ p.nodes, node ∈ projection.nodes) ∧
    ∀ flow ∈ p.flows, ∃ before ∈ projection.flows, flow.flowId = before.flowId ∧
      flow.name = before.name ∧ flow.description = before.description := by
  induction fuel generalizing projection selected with
  | zero =>
    obtain ⟨-, hround⟩ | ⟨-, hround⟩ | ⟨_, _, _, hround⟩ | ⟨_, _, hfuel, _⟩ :=
      fitProjection_cases 0 projection selected
    · cases hround.symm.trans h
      exact ⟨fun _ hnode => hnode, fun flow hflow => ⟨flow, hflow, rfl, rfl, rfl⟩⟩
    · cases hround.symm.trans h
    · cases hround.symm.trans h
    · cases hfuel
  | succ fuel ih =>
    obtain ⟨-, hround⟩ | ⟨-, hround⟩ | ⟨_, _, _, hround⟩ | ⟨_, _, hfuel, _, _, hround⟩ :=
      fitProjection_cases (fuel + 1) projection selected
    · cases hround.symm.trans h
      exact ⟨fun _ hnode => hnode, fun flow hflow => ⟨flow, hflow, rfl, rfl, rfl⟩⟩
    · cases hround.symm.trans h
    · cases hround.symm.trans h
    · cases hfuel
      obtain ⟨hnodes, hflows⟩ := ih (hround.symm.trans h)
      refine ⟨fun node hnode => (List.dropLast_sublist _).subset (hnodes node hnode), fun flow hflow => ?_⟩
      obtain ⟨_, hkept, hid, hname, hdescription⟩ := hflows flow hflow
      obtain ⟨before, hbefore, rfl⟩ := List.mem_map.mp hkept
      exact ⟨before, hbefore, hid, hname, hdescription⟩

theorem mem_initialProjection {node : GraphNode} (h : node ∈ (initialProjection redact catalog).nodes) :
    ∃ original ∈ catalog.nodes, node = original.shown redact := by
  obtain ⟨nodeId, -, hfound⟩ := List.mem_filterMap.mp h
  obtain ⟨original, hget, rfl⟩ := Option.map_eq_some_iff.mp hfound
  obtain ⟨_, hmem, hitem⟩ := List.mem_map.mp (Dict.mem_ofList (Dict.get?_eq_some.mp hget))
  cases hitem
  exact ⟨original, hmem, rfl⟩

/-- Of every catalogue that is projected, the texts of the flows and the identifiers of the nodes
are shown as redaction leaves them, and a field of a node is unless it is a list with a text that
redaction would change. -/
theorem projection_hides_iff (word : Char → Bool) (catalog : Catalog) (p : Projection)
    (h : redactedGraphProjection (redactSensitiveText word) catalog = .ok p) :
    (∀ flow ∈ p.flows, ∃ original ∈ catalog.defaultFlows, flow.flowId = original.flowId ∧
      Withheld (redactSensitiveText word) original.name flow.name ∧
      Withheld (redactSensitiveText word) original.description flow.description) ∧
    ∀ node ∈ p.nodes, ∃ original ∈ catalog.nodes,
      Withheld (redactSensitiveText word) original.id node.id ∧
      ∀ field ∈ node.fields, ∃ value, Json.member? field.1 original.fields = some value ∧
        (Hides (redactSensitiveText word) field.2 value ↔ Harmless (redactSensitiveText word) value) := by
  obtain ⟨hnodes, hflows⟩ := fitProjection_ok h
  constructor
  · intro flow hflow
    obtain ⟨before, hbefore, hid, hname, hdescription⟩ := hflows flow hflow
    obtain ⟨original, hmem, rfl⟩ := List.mem_map.mp hbefore
    refine ⟨original, List.mem_of_mem_take hmem, hid, ?_, ?_⟩
    · rw [hname]
      exact List.prefix_refl _
    · rw [hdescription]
      exact List.prefix_refl _
  · intro node hnode
    obtain ⟨original, hmem, rfl⟩ := mem_initialProjection (hnodes node hnode)
    refine ⟨original, hmem, withheld_shown _ _, fun field hfield => ?_⟩
    obtain ⟨key, -, hkey⟩ := List.mem_filterMap.mp hfield
    obtain ⟨value, hvalue, rfl⟩ := Option.map_eq_some_iff.mp hkey
    obtain ⟨stored, hstored, hshown⟩ := Option.bind_eq_some_iff.mp hvalue
    exact ⟨stored, hstored, shownValue_hides hshown⟩

end

/-- A check of a password reset, whose outcome says what the secret is. -/
def resetCheck : GraphNode :=
  ⟨"check:reset:1", [("kind", .str "check"),
    ("failure_outcomes", .strings ["ValueError('token = abc')"])]⟩

def resetCatalog : Catalog where
  source := none
  graphDigest := ""
  nodes := [resetCheck]
  edges := []
  defaultFlows := []
  parseErrors := []

theorem resetCatalog_projected :
    redactedGraphProjection (redactSensitiveText isWordByte) resetCatalog =
      .ok (initialProjection (redactSensitiveText isWordByte) resetCatalog) := by
  have hfits : Text.utf8Length (initialProjection (redactSensitiveText isWordByte)
      resetCatalog).toJson.canonical.toList ≤ maxModelGraphBytes := by
    rw [Projection.toJson, Json.canonical, String.toList_ofList]
    decide +kernel
  unfold redactedGraphProjection
  rw [fitProjection.eq_def]
  exact if_pos hfits

theorem reset_projection_hides :
    ∃ node ∈ (initialProjection (redactSensitiveText isWordByte) resetCatalog).nodes,
      ∃ original ∈ resetCatalog.nodes,
        Withheld (redactSensitiveText isWordByte) original.id node.id := by
  have hshown : (initialProjection (redactSensitiveText isWordByte) resetCatalog).nodes ≠ [] :=
    List.cons_ne_nil _ _
  obtain ⟨node, hnode⟩ := List.exists_mem_of_ne_nil _ hshown
  obtain ⟨original, hmem, hid, -⟩ := (projection_hides_iff isWordByte resetCatalog
    (initialProjection (redactSensitiveText isWordByte) resetCatalog)
    resetCatalog_projected).2 node hnode
  exact ⟨node, hnode, original, hmem, hid⟩

/-- The outcome is shown with the token that redaction takes out of every scalar. -/
theorem list_field_discloses :
    ∃ p, redactedGraphProjection (redactSensitiveText isWordByte) resetCatalog = .ok p ∧
      ∃ node ∈ p.nodes, ∃ original ∈ resetCatalog.nodes, ∃ shownAs value,
        Json.member? "failure_outcomes" node.fields = some shownAs ∧
        Json.member? "failure_outcomes" original.fields = some value ∧
        ¬Hides (redactSensitiveText isWordByte) shownAs value := by
  have hselected : selectedIds resetCatalog = ["check:reset:1"] := by decide +kernel
  refine ⟨_, resetCatalog_projected, resetCheck.shown (redactSensitiveText isWordByte), ?_, resetCheck, List.mem_cons_self,
    .strings ["ValueError('token = abc')"], .strings ["ValueError('token = abc')"], ?_, rfl, ?_⟩
  · refine List.mem_filterMap.mpr ⟨"check:reset:1", hselected ▸ List.mem_cons_self, ?_⟩
    rfl
  · simp [GraphNode.shown, modelNodeFields, resetCheck, Json.member?, shownValue, Json.strings]
  · rw [hides_self]
    intro h
    have hbegins := h "ValueError('token = abc')" List.mem_cons_self
    revert hbegins
    unfold Withheld
    decide +kernel

end Bantam
