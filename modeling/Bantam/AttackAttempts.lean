import Bantam.Remediations

/-! One attempt of an attacker on a tree: the leaves that it draws, whether it succeeds and on
which path. -/
namespace Bantam
open Rooted

/-- What happens in an attempt: a leaf is drawn, or one of the two guards answers. -/
inductive AttemptEvent where
  | drawn (nodeId : String) (succeeded : Bool)
  | stopped (nodeId : String)
deriving DecidableEq, Repr

/-- The draws that the sampler has given and the counter `attempted`; the history of the events
is not kept by the service. -/
structure AttemptState where
  used : Nat
  attempted : String → Nat
  history : List AttemptEvent

namespace AttemptState

def draw (s : AttemptState) (nodeId : String) (succeeded : Bool) : AttemptState where
  used := s.used + 1
  attempted := Function.update s.attempted nodeId (s.attempted nodeId + 1)
  history := s.history ++ [.drawn nodeId succeeded]

def stop (s : AttemptState) (nodeId : String) : AttemptState :=
  { s with history := s.history ++ [.stopped nodeId] }

end AttemptState

/-- Whether an attempt succeeded, its path and the state that it leaves. -/
abbrev Attempted := Bool × List String × AttemptState

/-- The loop of an `AND` node. -/
def everyChild (evaluate : String → AttemptState → Option Attempted) :
    List String → List String → AttemptState → Option Attempted
  | [], satisfied, s => some (!satisfied.isEmpty, satisfied, s)
  | childId :: rest, satisfied, s =>
    (evaluate childId s).bind fun (succeeded, path, s) =>
      if succeeded then everyChild evaluate rest (satisfied ++ path) s else some (false, [], s)

/-- The loop of an `OR` node. -/
def anyChild (evaluate : String → AttemptState → Option Attempted) :
    List String → AttemptState → Option Attempted
  | [], s => some (false, [], s)
  | childId :: rest, s =>
    (evaluate childId s).bind fun (succeeded, path, s) =>
      if succeeded then some (true, path, s) else anyChild evaluate rest s

/-- What `_tree_index` returns. -/
structure TreeIndex where
  nodes : Dict String AttackTreeNode
  children : String → List String

/-- `_tree_index` -/
def treeIndex (tree : AttackTree) : TreeIndex where
  nodes := Dict.ofList (tree.nodes.map fun node => (node.attackNodeId, node))
  children := (tree.edges.foldl
    (fun (index : EdgeIndex) edge => index.add edge.parentAttackNodeId edge.childAttackNodeId)
    .empty).children

/-- `_attempt`, on a stream of draws; none where the parameters lack a leaf. -/
def attempt (index : TreeIndex) (parameters : Dict String NodeParameters) (draws : Nat → Rat)
    (nodeId : String) (depth : Nat) (s : AttemptState) : Option Attempted :=
  match index.nodes.get? nodeId with
  | none => some (false, [], s.stop nodeId)
  | some node =>
    if _h : maxAttackTreeDepth < depth then some (false, [], s.stop nodeId)
    else match node.operator with
    | .leaf => (parameters.get? nodeId).map fun p =>
      let succeeded := decide (draws s.used < p.successProbability)
      (succeeded, if succeeded then [nodeId] else [], s.draw nodeId succeeded)
    | .and => everyChild (fun childId s => attempt index parameters draws childId (depth + 1) s)
        (index.children nodeId) [] s
    | .or => anyChild (fun childId s => attempt index parameters draws childId (depth + 1) s)
        (index.children nodeId) s
termination_by maxAttackTreeDepth + 1 - depth
decreasing_by all_goals omega

/-! The value of an attack tree. -/

namespace AttackTree

/-- A node is attained when its leaves below have these outcomes. -/
inductive Attained (tree : AttackTree) (outcome : String → Prop) : String → Prop
  | leaf {node : AttackTreeNode} (h : node ∈ tree.nodes) (hop : node.operator = .leaf)
      (hout : outcome node.attackNodeId) : Attained tree outcome node.attackNodeId
  | every {node : AttackTreeNode} (h : node ∈ tree.nodes) (hop : node.operator = .and)
      (hall : ∀ c, tree.Edge node.attackNodeId c → Attained tree outcome c) :
      Attained tree outcome node.attackNodeId
  | any {node : AttackTreeNode} (h : node ∈ tree.nodes) (hop : node.operator = .or) {c : String}
      (hc : tree.Edge node.attackNodeId c) (hone : Attained tree outcome c) :
      Attained tree outcome node.attackNodeId

section
variable {tree : AttackTree} {outcome : String → Prop} {node : AttackTreeNode}

theorem node_unique (hids : tree.nodeIds.Nodup) {other : AttackTreeNode} (h : node ∈ tree.nodes)
    (h' : other ∈ tree.nodes) (hid : other.attackNodeId = node.attackNodeId) : other = node :=
  List.inj_on_of_nodup_map hids h' h hid

theorem attained_leaf (hids : tree.nodeIds.Nodup) (h : node ∈ tree.nodes)
    (hop : node.operator = .leaf) :
    tree.Attained outcome node.attackNodeId ↔ outcome node.attackNodeId := by
  constructor
  · intro hatt
    generalize hid : node.attackNodeId = u at hatt
    cases hatt with
    | leaf _ _ hout => exact hout
    | every h' hop' _ =>
      obtain rfl := node_unique hids h h' hid.symm
      cases hop.symm.trans hop'
    | any h' hop' _ _ =>
      obtain rfl := node_unique hids h h' hid.symm
      cases hop.symm.trans hop'
  · exact fun hout => .leaf h hop hout

theorem attained_and (hids : tree.nodeIds.Nodup) (h : node ∈ tree.nodes)
    (hop : node.operator = .and) : tree.Attained outcome node.attackNodeId ↔
      ∀ c, tree.Edge node.attackNodeId c → tree.Attained outcome c := by
  constructor
  · intro hatt
    generalize hid : node.attackNodeId = u at hatt
    cases hatt with
    | leaf h' hop' _ =>
      obtain rfl := node_unique hids h h' hid.symm
      cases hop.symm.trans hop'
    | every _ _ hall => exact hall
    | any h' hop' _ _ =>
      obtain rfl := node_unique hids h h' hid.symm
      cases hop.symm.trans hop'
  · exact fun hall => .every h hop hall

theorem attained_or (hids : tree.nodeIds.Nodup) (h : node ∈ tree.nodes)
    (hop : node.operator = .or) : tree.Attained outcome node.attackNodeId ↔
      ∃ c, tree.Edge node.attackNodeId c ∧ tree.Attained outcome c := by
  constructor
  · intro hatt
    generalize hid : node.attackNodeId = u at hatt
    cases hatt with
    | leaf h' hop' _ =>
      obtain rfl := node_unique hids h h' hid.symm
      cases hop.symm.trans hop'
    | every h' hop' _ =>
      obtain rfl := node_unique hids h h' hid.symm
      cases hop.symm.trans hop'
    | any _ _ hc hone => exact ⟨_, hc, hone⟩
  · rintro ⟨c, hc, hone⟩
    exact .any h hop hc hone

end
end AttackTree

/-! The draws of an attempt. -/

/-- Leaves and their outcomes, in the order in which they are drawn. -/
abbrev Draws := List (String × Bool)

/-- Each outcome is that of its draw, from the given one on. -/
def Took (parameters : Dict String NodeParameters) (draws : Nat → Rat) : Nat → Draws → Prop
  | _, [] => True
  | n, (leaf, succeeded) :: rest =>
    (∃ p, parameters.get? leaf = some p ∧ succeeded = decide (draws n < p.successProbability)) ∧
      Took parameters draws (n + 1) rest

def AttemptState.after (s : AttemptState) (drawn : Draws) : AttemptState where
  used := s.used + drawn.length
  attempted := fun leaf => s.attempted leaf + (drawn.map Prod.fst).count leaf
  history := s.history ++ drawn.map fun d => .drawn d.1 d.2

def wins (drawn : Draws) : List String := (drawn.filter (·.2)).map Prod.fst

section
variable {parameters : Dict String NodeParameters} {draws : Nat → Rat} {s : AttemptState}
  {drawn rest : Draws}

theorem took_append {n : Nat} : Took parameters draws n (drawn ++ rest) ↔
    Took parameters draws n drawn ∧ Took parameters draws (n + drawn.length) rest := by
  induction drawn generalizing n with
  | nil => simp [Took]
  | cons d drawn ih =>
    rw [List.cons_append, Took, Took, ih, and_assoc, List.length_cons, Nat.add_assoc,
      Nat.add_comm 1]

theorem AttemptState.after_nil : s.after [] = s := by simp [AttemptState.after]

theorem AttemptState.after_append : s.after (drawn ++ rest) = (s.after drawn).after rest := by
  simp [AttemptState.after, Nat.add_assoc]

theorem AttemptState.draw_eq (leaf : String) (succeeded : Bool) :
    s.draw leaf succeeded = s.after [(leaf, succeeded)] := by
  unfold AttemptState.draw AttemptState.after
  congr 1
  funext u
  by_cases hu : leaf = u
  · subst hu
    simp
  · simp [Function.update_of_ne (Ne.symm hu), hu]

theorem wins_append : wins (drawn ++ rest) = wins drawn ++ wins rest := by
  simp [wins]

theorem mem_wins {leaf : String} (h : leaf ∈ wins drawn) : (leaf, true) ∈ drawn := by
  obtain ⟨⟨_, succeeded⟩, hmem, rfl⟩ := List.mem_map.mp h
  obtain ⟨hd, hwon⟩ := List.mem_filter.mp hmem
  dsimp only at hwon
  exact hwon ▸ hd

theorem wins_sublist : (wins drawn).Sublist (drawn.map Prod.fst) :=
  List.filter_sublist.map Prod.fst

end

/-! What an attempt does below a node. -/

/-- The draws are of leaves below the node, each drawn once; a path that succeeded is made of
them and suffices, and where the attempt failed the leaves that failed suffice to see that it
had to. -/
structure Evaluated (tree : AttackTree) (parameters : Dict String NodeParameters)
    (draws : Nat → Rat) (used : Nat) (below : String → Prop)
    (attained : (String → Prop) → Prop) (succeeded : Bool) (path : List String) (drawn : Draws) :
    Prop where
  took : Took parameters draws used drawn
  leaves : ∀ leaf ∈ drawn.map Prod.fst, below leaf ∧
    ∃ node ∈ tree.nodes, node.operator = .leaf ∧ node.attackNodeId = leaf
  once : (drawn.map Prod.fst).Nodup
  won : succeeded = true → path.Sublist (wins drawn) ∧
    ∀ outcome, (∀ leaf ∈ path, outcome leaf) → attained outcome
  lost : succeeded = false → path = [] ∧
    ∀ outcome, (∀ leaf, (leaf, false) ∈ drawn → ¬outcome leaf) → ¬attained outcome

section
variable {tree : AttackTree} {parameters : Dict String NodeParameters} {draws : Nat → Rat}
  {evaluate : String → AttemptState → Option Attempted} {cs : List String}

theorem Evaluated.imp {used : Nat} {below below' : String → Prop}
    {attained attained' : (String → Prop) → Prop} {succeeded : Bool} {path : List String}
    {drawn : Draws}
    (h : Evaluated tree parameters draws used below attained succeeded path drawn)
    (hbelow : ∀ v, below v → below' v) (hattained : ∀ outcome, attained' outcome ↔ attained outcome) :
    Evaluated tree parameters draws used below' attained' succeeded path drawn where
  took := h.took
  leaves := fun leaf hleaf => ⟨hbelow leaf (h.leaves leaf hleaf).1, (h.leaves leaf hleaf).2⟩
  once := h.once
  won := fun hwon => ⟨(h.won hwon).1, fun outcome hout =>
    (hattained outcome).mpr ((h.won hwon).2 outcome hout)⟩
  lost := fun hlost => ⟨(h.lost hlost).1, fun outcome hout hatt =>
    (h.lost hlost).2 outcome hout ((hattained outcome).mp hatt)⟩

/-- The evaluation of a child does what it should. -/
def Evaluates (tree : AttackTree) (parameters : Dict String NodeParameters) (draws : Nat → Rat)
    (evaluate : String → AttemptState → Option Attempted) (c : String) : Prop :=
  ∀ s, ∃ succeeded path drawn, evaluate c s = some (succeeded, path, s.after drawn) ∧
    Evaluated tree parameters draws s.used (Reach tree.Edge c)
      (fun outcome => tree.Attained outcome c) succeeded path drawn ∧
    (succeeded = true → path ≠ [])

/-- Draws below one child and below children apart from it are of different leaves. -/
theorem nodup_append {c : String} {drawn rest : Draws}
    (hfirst : (drawn.map Prod.fst).Nodup) (hrest : (rest.map Prod.fst).Nodup)
    (hapart : ∀ d ∈ cs, ∀ v, Reach tree.Edge c v → ¬Reach tree.Edge d v)
    (hc : ∀ leaf ∈ drawn.map Prod.fst, Reach tree.Edge c leaf)
    (hcs : ∀ leaf ∈ rest.map Prod.fst, ∃ d ∈ cs, Reach tree.Edge d leaf) :
    ((drawn ++ rest).map Prod.fst).Nodup := by
  rw [List.map_append, List.nodup_append]
  refine ⟨hfirst, hrest, fun leaf hleaf leaf' hleaf' hsame => ?_⟩
  obtain ⟨d, hd, hreach⟩ := hcs leaf' hleaf'
  exact hapart d hd leaf (hc leaf hleaf) (hsame ▸ hreach)

theorem leaves_append {c : String} {drawn rest : Draws} {isLeaf : String → Prop}
    (hc : ∀ leaf ∈ drawn.map Prod.fst, Reach tree.Edge c leaf ∧ isLeaf leaf)
    (hcs : ∀ leaf ∈ rest.map Prod.fst, (∃ d ∈ cs, Reach tree.Edge d leaf) ∧ isLeaf leaf) :
    ∀ leaf ∈ (drawn ++ rest).map Prod.fst,
      (∃ d ∈ c :: cs, Reach tree.Edge d leaf) ∧ isLeaf leaf := by
  intro leaf hleaf
  rw [List.map_append, List.mem_append] at hleaf
  cases hleaf with
  | inl hfirst =>
    obtain ⟨hbelow, hleaf⟩ := hc leaf hfirst
    exact ⟨⟨c, List.mem_cons_self, hbelow⟩, hleaf⟩
  | inr hrest =>
    obtain ⟨⟨d, hd, hbelow⟩, hleaf⟩ := hcs leaf hrest
    exact ⟨⟨d, List.mem_cons_of_mem c hd, hbelow⟩, hleaf⟩

/-- The loop of an `AND` node: it goes on while children succeed. -/
theorem everyChild_evaluated (hcs : ∀ c ∈ cs, Evaluates tree parameters draws evaluate c)
    (hapart : cs.Pairwise fun c d => ∀ v, Reach tree.Edge c v → ¬Reach tree.Edge d v)
    (satisfied : List String) (s : AttemptState) :
    ∃ succeeded path drawn,
      everyChild evaluate cs satisfied s =
        some (succeeded && !(satisfied ++ path).isEmpty,
          if succeeded then satisfied ++ path else [], s.after drawn) ∧
      Evaluated tree parameters draws s.used (fun v => ∃ c ∈ cs, Reach tree.Edge c v)
        (fun outcome => ∀ c ∈ cs, tree.Attained outcome c) succeeded path drawn ∧
      (succeeded = true → cs ≠ [] → path ≠ []) := by
  induction cs generalizing satisfied s with
  | nil =>
    refine ⟨true, [], [], ?_, ⟨trivial, by simp, List.nodup_nil, fun _ => ?_, by simp⟩, by simp⟩
    · rw [AttemptState.after_nil, List.append_nil]
      rfl
    · exact ⟨List.Sublist.slnil, fun _ _ => by simp⟩
  | cons c cs ih =>
    obtain ⟨hc, hcs⟩ := List.forall_mem_cons.mp hcs
    obtain ⟨hapartc, hapart⟩ := List.pairwise_cons.mp hapart
    obtain ⟨succeeded, path, drawn, hrun, hval, hpath⟩ := hc s
    cases succeeded with
    | false =>
      obtain ⟨rfl, hlost⟩ := hval.lost rfl
      refine ⟨false, [], drawn, ?_, ⟨hval.took, fun leaf hleaf => ?_, hval.once, by simp,
        fun _ => ⟨rfl, fun outcome hout hall => ?_⟩⟩, by simp⟩
      · rw [everyChild, hrun]
        rfl
      · obtain ⟨hbelow, hleaf⟩ := hval.leaves leaf hleaf
        exact ⟨⟨c, List.mem_cons_self, hbelow⟩, hleaf⟩
      · exact hlost outcome hout (hall c List.mem_cons_self)
    | true =>
      obtain ⟨hsub, hsuffices⟩ := hval.won rfl
      obtain ⟨succeeded', path', drawn', hrun', hval', hpath'⟩ :=
        ih hcs hapart (satisfied ++ path) (s.after drawn)
      have hstep : everyChild evaluate (c :: cs) satisfied s =
          everyChild evaluate cs (satisfied ++ path) (s.after drawn) := by
        rw [everyChild, hrun]
        rfl
      have hleaves := leaves_append hval.leaves hval'.leaves
      have hkept : Took parameters draws s.used (drawn ++ drawn') ∧
          ((drawn ++ drawn').map Prod.fst).Nodup :=
        ⟨took_append.mpr ⟨hval.took, hval'.took⟩,
          nodup_append hval.once hval'.once hapartc (fun leaf h => (hval.leaves leaf h).1)
            fun leaf h => (hval'.leaves leaf h).1⟩
      rw [hstep, hrun', ← AttemptState.after_append]
      cases succeeded' with
      | false =>
        obtain ⟨rfl, hlost⟩ := hval'.lost rfl
        refine ⟨false, [], drawn ++ drawn', rfl, ⟨hkept.1, hleaves, hkept.2, by simp,
          fun _ => ⟨rfl, fun outcome hout hall => ?_⟩⟩, by simp⟩
        refine hlost outcome (fun leaf hleaf => hout leaf (List.mem_append_right _ hleaf)) ?_
        exact fun d hd => hall d (List.mem_cons_of_mem c hd)
      | true =>
        obtain ⟨hsub', hsuffices'⟩ := hval'.won rfl
        refine ⟨true, path ++ path', drawn ++ drawn', by rw [← List.append_assoc],
          ⟨hkept.1, hleaves, hkept.2, fun _ => ⟨wins_append ▸ hsub.append hsub', ?_⟩, by simp⟩,
          fun _ _ h => hpath rfl (List.append_eq_nil_iff.mp h).1⟩
        intro outcome hout
        rw [List.forall_mem_append] at hout
        exact List.forall_mem_cons.mpr ⟨hsuffices outcome hout.1, hsuffices' outcome hout.2⟩

/-- The loop of an `OR` node: it goes on while children fail. -/
theorem anyChild_evaluated (hcs : ∀ c ∈ cs, Evaluates tree parameters draws evaluate c)
    (hapart : cs.Pairwise fun c d => ∀ v, Reach tree.Edge c v → ¬Reach tree.Edge d v)
    (s : AttemptState) :
    ∃ succeeded path drawn,
      anyChild evaluate cs s = some (succeeded, path, s.after drawn) ∧
      Evaluated tree parameters draws s.used (fun v => ∃ c ∈ cs, Reach tree.Edge c v)
        (fun outcome => ∃ c ∈ cs, tree.Attained outcome c) succeeded path drawn ∧
      (succeeded = true → path ≠ []) := by
  induction cs generalizing s with
  | nil =>
    refine ⟨false, [], [], ?_, ⟨trivial, by simp, List.nodup_nil, by simp, fun _ => ?_⟩, by simp⟩
    · rw [AttemptState.after_nil]
      rfl
    · exact ⟨rfl, fun _ _ => by simp⟩
  | cons c cs ih =>
    obtain ⟨hc, hcs⟩ := List.forall_mem_cons.mp hcs
    obtain ⟨hapartc, hapart⟩ := List.pairwise_cons.mp hapart
    obtain ⟨succeeded, path, drawn, hrun, hval, hpath⟩ := hc s
    cases succeeded with
    | true =>
      obtain ⟨hsub, hsuffices⟩ := hval.won rfl
      refine ⟨true, path, drawn, ?_, ⟨hval.took, fun leaf hleaf => ?_, hval.once,
        fun _ => ⟨hsub, fun outcome hout => ?_⟩, by simp⟩, hpath⟩
      · rw [anyChild, hrun]
        rfl
      · obtain ⟨hbelow, hleaf⟩ := hval.leaves leaf hleaf
        exact ⟨⟨c, List.mem_cons_self, hbelow⟩, hleaf⟩
      · exact ⟨c, List.mem_cons_self, hsuffices outcome hout⟩
    | false =>
      obtain ⟨rfl, hlost⟩ := hval.lost rfl
      obtain ⟨succeeded', path', drawn', hrun', hval', hpath'⟩ := ih hcs hapart (s.after drawn)
      refine ⟨succeeded', path', drawn ++ drawn', ?_, ⟨?_, fun leaf hleaf => ?_, ?_,
        fun hsucc => ?_, fun hfail => ?_⟩, hpath'⟩
      · rw [anyChild, hrun, AttemptState.after_append]
        exact hrun'
      · exact took_append.mpr ⟨hval.took, hval'.took⟩
      · exact leaves_append hval.leaves hval'.leaves leaf hleaf
      · exact nodup_append hval.once hval'.once hapartc (fun leaf h => (hval.leaves leaf h).1)
          fun leaf h => (hval'.leaves leaf h).1
      · obtain ⟨hsub', hsuffices'⟩ := hval'.won hsucc
        refine ⟨wins_append ▸ hsub'.trans (List.sublist_append_right _ _), fun outcome hout => ?_⟩
        obtain ⟨d, hd, hatt⟩ := hsuffices' outcome hout
        exact ⟨d, List.mem_cons_of_mem c hd, hatt⟩
      · obtain ⟨rfl, hlost'⟩ := hval'.lost hfail
        refine ⟨rfl, fun outcome hout => ?_⟩
        rintro ⟨d, hd, hatt⟩
        cases List.mem_cons.mp hd with
        | inl hfirst =>
          subst hfirst
          exact hlost outcome (fun leaf hleaf => hout leaf (List.mem_append_left _ hleaf)) hatt
        | inr hrest =>
          exact hlost' outcome (fun leaf hleaf => hout leaf (List.mem_append_right _ hleaf))
            ⟨d, hrest, hatt⟩

end

/-! An attempt on a well-formed tree. -/

section
variable {tree : AttackTree} {parameters : Dict String NodeParameters} {draws : Nat → Rat}

theorem children_treeIndex (tree : AttackTree) (u : String) :
    (treeIndex tree).children u = outgoing tree.pairs u := by
  have hfold : ∀ (l : List AttackTreeEdge) (index : EdgeIndex),
      l.foldl (fun (index : EdgeIndex) edge =>
        index.add edge.parentAttackNodeId edge.childAttackNodeId) index =
      index.over (l.map fun edge => (edge.parentAttackNodeId, edge.childAttackNodeId)) := by
    intro l
    induction l with
    | nil => exact fun index => index.over_nil.symm
    | cons edge l ih =>
      intro index
      rw [List.foldl_cons, ih, List.map_cons, EdgeIndex.over_cons]
  show (tree.edges.foldl _ EdgeIndex.empty).children u = _
  rw [hfold, EdgeIndex.over_empty]
  rfl

theorem nodes_treeIndex (hids : tree.nodeIds.Nodup) {node : AttackTreeNode} (h : node ∈ tree.nodes) :
    (treeIndex tree).nodes.get? node.attackNodeId = some node := by
  have hkeys : ((tree.nodes.map fun node => (node.attackNodeId, node)).map Prod.fst).Nodup := by
    rw [List.map_map]
    exact hids
  rw [Dict.get?_eq_some, treeIndex, Dict.items_ofList hkeys]
  exact List.mem_map.mpr ⟨node, h, rfl⟩

/-- The draw of a leaf. -/
theorem drawn_evaluated (hids : tree.nodeIds.Nodup) {leaf : AttackTreeNode}
    (hleaf : leaf ∈ tree.nodes) (hop : leaf.operator = .leaf) {p : NodeParameters}
    (hp : parameters.get? leaf.attackNodeId = some p) {used : Nat} {won : Bool}
    (hwon : won = decide (draws used < p.successProbability)) :
    Evaluated tree parameters draws used (Reach tree.Edge leaf.attackNodeId)
      (fun outcome => tree.Attained outcome leaf.attackNodeId) won
      (if won then [leaf.attackNodeId] else []) [(leaf.attackNodeId, won)] where
  took := ⟨⟨p, hp, hwon⟩, trivial⟩
  leaves := by
    intro v hv
    obtain rfl := List.mem_singleton.mp hv
    exact ⟨Reach.refl _, leaf, hleaf, hop, rfl⟩
  once := List.nodup_singleton _
  won := by
    rintro rfl
    refine ⟨List.Sublist.refl _, fun outcome hout => ?_⟩
    exact (AttackTree.attained_leaf hids hleaf hop).mpr (hout _ List.mem_cons_self)
  lost := by
    rintro rfl
    refine ⟨rfl, fun outcome hout hatt => ?_⟩
    exact hout _ List.mem_cons_self ((AttackTree.attained_leaf hids hleaf hop).mp hatt)

/-- Below a node of a checked tree an attempt meets nodes of the tree only, and ends within the
levels that are left. -/
theorem attempt_evaluated (hchecked : tree.Checked)
    (hparameters : ∀ node ∈ tree.nodes, node.attackNodeId ∈ parameters.keys)
    {n : Nat} {node : AttackTreeNode} (hnode : node ∈ tree.nodes)
    (hbounded : Bounded tree.Edge n node.attackNodeId)
    (hbranching : Branching tree.Edge node.attackNodeId) {depth : Nat}
    (hdepth : n + depth ≤ maxAttackTreeDepth + 1) :
    Evaluates tree parameters draws
      (fun nodeId s => attempt (treeIndex tree) parameters draws nodeId depth s)
      node.attackNodeId := by
  have hids := hchecked.distinctIds
  induction n generalizing node depth with
  | zero => exact absurd hbounded not_bounded_zero
  | succ n ih =>
    intro s
    dsimp only
    have hlevel : ¬maxAttackTreeDepth < depth := by omega
    have hmem : ∀ c, c ∈ (treeIndex tree).children node.attackNodeId ↔
        tree.Edge node.attackNodeId c := by
      intro c
      rw [children_treeIndex]
      exact mem_outgoing
    have hchildren : ∀ c ∈ (treeIndex tree).children node.attackNodeId,
        Evaluates tree parameters draws
          (fun childId s => attempt (treeIndex tree) parameters draws childId (depth + 1) s) c := by
      intro c hc
      have hedge := (hmem c).mp hc
      obtain ⟨child, hchild, rfl⟩ := List.mem_map.mp (hchecked.joined _ _ hedge).2.1
      exact ih hchild (bounded_succ.mp hbounded _ hedge) (hbranching.child hedge) (by omega)
    have hapart : ((treeIndex tree).children node.attackNodeId).Pairwise
        fun c d => ∀ v, Reach tree.Edge c v → ¬Reach tree.Edge d v := by
      rw [children_treeIndex]
      refine (nodup_outgoing hchecked.distinctEdges).imp_of_mem fun hc hd hne v hcv hdv => hne ?_
      exact hbranching.apart (mem_outgoing.mp hc) (mem_outgoing.mp hd) hcv hdv
    have hbelow : ∀ v, (∃ c ∈ (treeIndex tree).children node.attackNodeId, Reach tree.Edge c v) →
        Reach tree.Edge node.attackNodeId v := by
      rintro v ⟨c, hc, hr⟩
      exact hr.cons ((hmem c).mp hc)
    rw [attempt, nodes_treeIndex hids hnode]
    simp only [hlevel, dite_false]
    cases hop : node.operator with
    | leaf =>
      obtain ⟨⟨_, p⟩, hitem, hkey⟩ := List.mem_map.mp (hparameters node hnode)
      cases hkey
      have hp := Dict.get?_eq_some.mpr hitem
      refine ⟨_, _, _, ?_, drawn_evaluated hids hnode hop hp rfl, ?_⟩
      · rw [hp, ← AttemptState.draw_eq]
        rfl
      · intro hwon
        rw [if_pos hwon]
        exact List.cons_ne_nil _ _
    | and =>
      obtain ⟨succeeded, path, drawn, hrun, hval, hpath⟩ :=
        everyChild_evaluated hchildren hapart [] s
      have hsome : (treeIndex tree).children node.attackNodeId ≠ [] := by
        have hcount := (AttackTree.misfit_eq_false.mp (hchecked.fits node hnode)).2 (by rw [hop]; simp)
        intro hnone
        rw [AttackTree.childCount_eq, ← children_treeIndex, hnone] at hcount
        exact absurd hcount.2 (by simp)
      refine ⟨succeeded, path, drawn, ?_, hval.imp hbelow fun outcome => ?_,
        fun hwon => hpath hwon hsome⟩
      · refine hrun.trans ?_
        cases succeeded with
        | false => rw [(hval.lost rfl).1]; rfl
        | true =>
          cases path with
          | nil => exact absurd rfl (hpath rfl hsome)
          | cons leaf path => rfl
      · rw [AttackTree.attained_and hids hnode hop]
        simp only [hmem]
    | or =>
      obtain ⟨succeeded, path, drawn, hrun, hval, hpath⟩ := anyChild_evaluated hchildren hapart s
      refine ⟨succeeded, path, drawn, hrun, hval.imp hbelow fun outcome => ?_, hpath⟩
      rw [AttackTree.attained_or hids hnode hop]
      simp only [hmem]

end

/-- An attempt on an accepted tree evaluates its root, from any state of the sampler. -/
theorem attempt_root {order : SetOrder (String × String)} {tree : AttackTree}
    (htree : attackTreeStructureIsValid order tree = true)
    {parameters : Dict String NodeParameters}
    (hparameters : ∀ node ∈ tree.nodes, node.attackNodeId ∈ parameters.keys)
    (draws : Nat → Rat) :
    Evaluates tree parameters draws
      (fun nodeId s => attempt (treeIndex tree) parameters draws nodeId 0 s)
      tree.rootAttackNodeId := by
  obtain ⟨hchecked, hbounded, -⟩ := (attackTreeStructureIsValid_iff order tree).mp htree
  obtain ⟨root, hroot, hid⟩ := List.mem_map.mp hchecked.rooted
  have hbranching := hchecked.branching
  rw [← hid] at hbounded hbranching ⊢
  exact attempt_evaluated hchecked hparameters hroot hbounded hbranching
    (show maxAttackTreeDepth + 0 ≤ maxAttackTreeDepth + 1 by omega)

/-- An attempt on an accepted tree, from any state of the sampler and for any parameters of its
leaves: it draws leaves only, each once, and no guard answers; it succeeds just when the tree is
attained by every completion of what was drawn; and the path of a success is made of distinct
leaves that succeeded and suffices. -/
theorem attempt_sound (order : SetOrder (String × String)) (tree : AttackTree)
    (htree : attackTreeStructureIsValid order tree = true)
    (parameters : Dict String NodeParameters)
    (hparameters : ∀ node ∈ tree.nodes, node.attackNodeId ∈ parameters.keys)
    (draws : Nat → Rat) (s : AttemptState) :
    ∃ succeeded path drawn,
      attempt (treeIndex tree) parameters draws tree.rootAttackNodeId 0 s =
        some (succeeded, path, s.after drawn) ∧
      Took parameters draws s.used drawn ∧
      (drawn.map Prod.fst).Nodup ∧
      (∀ leaf ∈ drawn.map Prod.fst,
        ∃ node ∈ tree.nodes, node.operator = .leaf ∧ node.attackNodeId = leaf) ∧
      (∀ outcome : String → Prop, (∀ d ∈ drawn, outcome d.1 ↔ d.2 = true) →
        (succeeded = true ↔ tree.Attained outcome tree.rootAttackNodeId)) ∧
      (succeeded = true → path ≠ [] ∧ path.Nodup ∧ (∀ leaf ∈ path, (leaf, true) ∈ drawn) ∧
        ∀ outcome : String → Prop, (∀ leaf ∈ path, outcome leaf) →
          tree.Attained outcome tree.rootAttackNodeId) ∧
      (succeeded = false → path = []) := by
  obtain ⟨succeeded, path, drawn, hrun, hval, hpath⟩ := attempt_root htree hparameters draws s
  refine ⟨succeeded, path, drawn, hrun, hval.took, hval.once, fun leaf h => (hval.leaves leaf h).2,
    fun outcome hout => ?_, fun hwon => ?_, fun hlost => (hval.lost hlost).1⟩
  · cases succeeded with
    | true =>
      refine iff_of_true rfl ((hval.won rfl).2 outcome fun leaf hleaf => ?_)
      exact (hout _ (mem_wins ((hval.won rfl).1.subset hleaf))).mpr rfl
    | false =>
      refine iff_of_false Bool.false_ne_true ((hval.lost rfl).2 outcome fun leaf hleaf hyes => ?_)
      exact Bool.false_ne_true ((hout _ hleaf).mp hyes)
  · obtain ⟨hsub, hsuffices⟩ := hval.won hwon
    exact ⟨hpath hwon, hsub.nodup (wins_sublist.nodup hval.once),
      fun leaf hleaf => mem_wins (hsub.subset hleaf), hsuffices⟩

theorem sample_attempt_sound :
    ∃ succeeded path drawn,
      attempt (treeIndex sampleScenario.attackTree.attackTree)
        (effectiveParameters sampleScenario.attackTree []) (fun n => if n = 0 then 3 / 4 else 1 / 4)
        "attack:goal" 0 ⟨0, fun _ => 0, []⟩ =
          some (succeeded, path, AttemptState.after ⟨0, fun _ => 0, []⟩ drawn) ∧
      (drawn.map Prod.fst).Nodup ∧ (succeeded = true → path.Nodup) := by
  have hparameters : ∀ node ∈ sampleScenario.attackTree.attackTree.nodes,
      node.attackNodeId ∈ (effectiveParameters sampleScenario.attackTree []).keys := by
    decide +kernel
  obtain ⟨succeeded, path, drawn, hrun, -, honce, -, -, hpath, -⟩ :=
    attempt_sound sampleOrder sampleScenario.attackTree.attackTree sampleScenario_tree
      (effectiveParameters sampleScenario.attackTree []) hparameters
      (fun n => if n = 0 then 3 / 4 else 1 / 4) ⟨0, fun _ => 0, []⟩
  exact ⟨succeeded, path, drawn, hrun, honce, fun hwon => (hpath hwon).2.1⟩

end Bantam
