import Bantam.Lib.Containers
import Bantam.Lib.Rooted
import Mathlib.Algebra.Order.Group.Nat
import Mathlib.Data.List.Count

/-! The check of an attack tree's structure, as the service makes it and as the library of
published trees makes it. -/
namespace Bantam
open Rooted

inductive AttackNodeKind where
  | goal | subgoal | action
deriving DecidableEq, Repr

inductive AttackOperator where
  | and | or | leaf
deriving DecidableEq, Repr

/-- The fields of a node that the structure checks read. -/
structure AttackTreeNode where
  attackNodeId : String
  kind : AttackNodeKind
  operator : AttackOperator
deriving DecidableEq, Repr

structure AttackTreeEdge where
  parentAttackNodeId : String
  childAttackNodeId : String
deriving DecidableEq, Repr

/-- What the structure check reads of a `RepositoryAttackTree` or a `ScenarioAttackTree`. -/
structure AttackTree where
  rootAttackNodeId : String
  nodes : List AttackTreeNode
  edges : List AttackTreeEdge
deriving DecidableEq, Repr

namespace AttackTree

def nodeIds (tree : AttackTree) : List String := tree.nodes.map (·.attackNodeId)

def pairs (tree : AttackTree) : List (String × String) :=
  tree.edges.map fun edge => (edge.parentAttackNodeId, edge.childAttackNodeId)

end AttackTree

def maxAttackTreeDepth : Nat := 6

/-- The dictionaries `children` and `incoming`, with their defaults. -/
structure EdgeIndex where
  children : String → List String
  incoming : String → Nat

namespace EdgeIndex

def empty : EdgeIndex := ⟨fun _ => [], fun _ => 0⟩

def add (index : EdgeIndex) (parentId childId : String) : EdgeIndex :=
  { children := Function.update index.children parentId (index.children parentId ++ [childId])
    incoming := Function.update index.incoming childId (index.incoming childId + 1) }

end EdgeIndex

/-- The loop over `edge_pairs`; none where it returns `False`. -/
def indexEdges (known : String → Bool) : EdgeIndex → List (String × String) → Option EdgeIndex
  | index, [] => some index
  | index, (parentId, childId) :: rest =>
    if !known parentId || !known childId || parentId = childId then none
    else indexEdges known (index.add parentId childId) rest

/-- What the loop over the nodes refuses. -/
def AttackTreeNode.misfit (node : AttackTreeNode) (childCount : Nat) : Bool :=
  if node.operator = .leaf then childCount ≠ 0 ∨ node.kind ≠ .action
  else childCount < 2 ∨ node.kind = .action

structure Visits where
  visited : List String
  visiting : List String

/-- `visit`; none where it returns `False`, after which neither set is read again. -/
def visit (children : String → List String) (nodeId : String) (depth : Nat) (s : Visits) :
    Option Visits :=
  if h : maxAttackTreeDepth < depth ∨ nodeId ∈ s.visiting then none
  else if nodeId ∈ s.visited then some s
  else
    ((children nodeId).foldlM (fun s childId => visit children childId (depth + 1) s)
      { s with visiting := nodeId :: s.visiting }).map fun s =>
        { visiting := s.visiting.erase nodeId, visited := nodeId :: s.visited }
termination_by maxAttackTreeDepth + 1 - depth
decreasing_by omega

def attackTreeStructureIsValid (order : SetOrder (String × String)) (tree : AttackTree) : Bool :=
  let attackNodes := Dict.ofList (tree.nodes.map fun node => (node.attackNodeId, node))
  if attackNodes.items.length ≠ tree.nodes.length then false
  else match attackNodes.get? tree.rootAttackNodeId with
  | none => false
  | some root =>
    if root.kind ≠ .goal then false
    else if tree.nodes.any fun node =>
      node.kind = .goal ∧ node.attackNodeId ≠ tree.rootAttackNodeId then false
    else
      let edgePairs := order.elems tree.pairs
      if edgePairs.length ≠ tree.edges.length then false
      else match indexEdges attackNodes.contains .empty edgePairs with
      | none => false
      | some index =>
        if index.incoming tree.rootAttackNodeId ≠ 0 then false
        else if attackNodes.keys.any fun nodeId =>
          nodeId ≠ tree.rootAttackNodeId ∧ index.incoming nodeId ≠ 1 then false
        else if attackNodes.items.any fun item =>
          item.2.misfit (index.children item.1).length then false
        else match visit index.children tree.rootAttackNodeId 1 ⟨[], []⟩ with
        | none => false
        | some s => s.visited.all (attackNodes.contains ·) && attackNodes.keys.all (· ∈ s.visited)

/-! What a well-formed attack tree is. -/

namespace AttackTree

def Edge (tree : AttackTree) (u v : String) : Prop := (u, v) ∈ tree.pairs

def childCount (tree : AttackTree) (nodeId : String) : Nat :=
  tree.pairs.countP fun edge => edge.1 = nodeId

structure WellFormed (tree : AttackTree) : Prop where
  distinctIds : tree.nodeIds.Nodup
  distinctEdges : tree.pairs.Nodup
  joined : ∀ u v, tree.Edge u v → u ∈ tree.nodeIds ∧ v ∈ tree.nodeIds ∧ u ≠ v
  rooted : tree.rootAttackNodeId ∈ tree.nodeIds
  goal : ∀ node ∈ tree.nodes, node.kind = .goal ↔ node.attackNodeId = tree.rootAttackNodeId
  reached : ∀ v ∈ tree.nodeIds, ∃ p, Walk tree.Edge tree.rootAttackNodeId v p ∧
    p.length ≤ maxAttackTreeDepth ∧ ∀ q, Walk tree.Edge tree.rootAttackNodeId v q → q = p
  leaves : ∀ node ∈ tree.nodes, node.operator = .leaf →
    node.kind = .action ∧ tree.childCount node.attackNodeId = 0
  inner : ∀ node ∈ tree.nodes, node.operator ≠ .leaf →
    node.kind ≠ .action ∧ 2 ≤ tree.childCount node.attackNodeId

end AttackTree

namespace AttackTree
variable {tree : AttackTree}

theorem childCount_eq (u : String) : tree.childCount u = (outgoing tree.pairs u).length := by
  rw [childCount, List.countP_eq_length_filter, outgoing, List.length_map]

/-- A tree that ends within its levels has a leaf below each of its nodes. -/
theorem WellFormed.leaf_below (h : tree.WellFormed) {u : String} {n : Nat}
    (hu : u ∈ tree.nodeIds) (hb : Bounded tree.Edge n u) :
    ∃ node ∈ tree.nodes, node.operator = .leaf ∧ Reach tree.Edge u node.attackNodeId := by
  obtain ⟨v, hv, hnone⟩ := exists_childless hb
  have hid : v ∈ tree.nodeIds := hv.mem hu fun x y hxy => (h.joined x y hxy).2.1
  obtain ⟨node, hnode, rfl⟩ := List.mem_map.mp hid
  have hcount : tree.childCount node.attackNodeId = 0 := by
    rw [childCount_eq, List.length_eq_zero_iff, List.eq_nil_iff_forall_not_mem]
    exact fun c hc => hnone c (mem_outgoing.mp hc)
  refine ⟨node, hnode, ?_, hv⟩
  by_contra hop
  have := (h.inner node hnode hop).2
  omega

end AttackTree

/-! The two checks decide it. -/

/-- The dictionaries after a list of edges that all join nodes. -/
def EdgeIndex.over (index : EdgeIndex) (l : List (String × String)) : EdgeIndex :=
  ⟨fun u => index.children u ++ outgoing l u, fun v => index.incoming v + Rooted.incoming l v⟩

theorem EdgeIndex.over_nil (index : EdgeIndex) : index.over [] = index := by
  simp [EdgeIndex.over, outgoing, Rooted.incoming]

theorem EdgeIndex.over_cons (index : EdgeIndex) (p c : String) (l : List (String × String)) :
    index.over ((p, c) :: l) = (index.add p c).over l := by
  unfold EdgeIndex.over
  congr 1
  · funext u
    by_cases hu : p = u
    · subst hu
      simp [EdgeIndex.add, outgoing]
    · simp [EdgeIndex.add, outgoing, hu, Function.update_of_ne (Ne.symm hu)]
  · funext v
    by_cases hv : c = v
    · subst hv
      simp [EdgeIndex.add, Rooted.incoming]
      omega
    · simp [EdgeIndex.add, Rooted.incoming, hv, Function.update_of_ne (Ne.symm hv)]

theorem EdgeIndex.over_empty (l : List (String × String)) :
    EdgeIndex.empty.over l = ⟨outgoing l, Rooted.incoming l⟩ := by
  simp [EdgeIndex.over, EdgeIndex.empty]

/-- An edge that both loops accept. -/
def Joins (known : String → Bool) (e : String × String) : Prop :=
  known e.1 = true ∧ known e.2 = true ∧ e.1 ≠ e.2

theorem refused_iff {known : String → Bool} {p c : String} :
    (!known p || !known c || decide (p = c)) = true ↔ ¬Joins known (p, c) := by
  simp only [Joins, Bool.or_eq_true, Bool.not_eq_true', decide_eq_true_eq]
  cases known p <;> cases known c <;> simp

theorem indexEdges_some {known : String → Bool} {l : List (String × String)}
    (h : ∀ e ∈ l, Joins known e) (index : EdgeIndex) :
    indexEdges known index l = some (index.over l) := by
  induction l generalizing index with
  | nil => rw [index.over_nil]; rfl
  | cons e l ih =>
    obtain ⟨p, c⟩ := e
    have hgo := refused_iff.not_left.mpr (h (p, c) List.mem_cons_self)
    rw [indexEdges, if_neg hgo, ih fun e he => h e (List.mem_cons_of_mem _ he),
      index.over_cons]

theorem indexEdges_none {known : String → Bool} {l : List (String × String)}
    (h : ¬∀ e ∈ l, Joins known e) (index : EdgeIndex) : indexEdges known index l = none := by
  induction l generalizing index with
  | nil => exact absurd (by simp) h
  | cons e l ih =>
    obtain ⟨p, c⟩ := e
    by_cases hj : Joins known (p, c)
    · rw [indexEdges, if_neg (refused_iff.not_left.mpr hj)]
      exact ih (fun hl => h (List.forall_mem_cons.mpr ⟨hj, hl⟩)) _
    · rw [indexEdges, if_pos (refused_iff.mpr hj)]

theorem visiting_visit {children : String → List String} {nodeId : String} {depth : Nat}
    {s s' : Visits} (h : visit children nodeId depth s = some s') : s'.visiting = s.visiting := by
  induction hn : maxAttackTreeDepth + 1 - depth generalizing nodeId depth s s' with
  | zero =>
    rw [visit, dif_pos (.inl (by omega))] at h
    cases h
  | succ n ih =>
    rw [visit] at h
    split_ifs at h with hstop hseen
    · exact congrArg Visits.visiting (Option.some.inj h).symm
    · obtain ⟨t, ht, rfl⟩ := Option.map_eq_some_iff.mp h
      have hfold : ∀ (cs : List String) (s t : Visits),
          cs.foldlM (fun s c => visit children c (depth + 1) s) s = some t →
          t.visiting = s.visiting := by
        intro cs
        induction cs with
        | nil => exact fun s t hs => congrArg Visits.visiting (Option.some.inj hs).symm
        | cons c cs ihcs =>
          intro s t hs
          rw [List.foldlM_cons] at hs
          obtain ⟨s₁, hs₁, hrest⟩ := Option.bind_eq_some_iff.mp hs
          exact (ihcs s₁ t hrest).trans (ih hs₁ (by omega))
      simp [hfold _ _ _ ht]

/-- `visit` is a depth-first traversal whose record is both of its sets. -/
theorem visit_depthFirst (children : String → List String) :
    DepthFirst (maxAttackTreeDepth + 1) children
      (fun s v => v ∈ s.visiting ∨ v ∈ s.visited)
      (fun n u s => visit children u (maxAttackTreeDepth + 1 - n) s) := by
  constructor
  · intro u s
    rw [visit, dif_pos (.inl (by omega))]
  · intro n u s hn hnew
    have hdepth : ¬(maxAttackTreeDepth < maxAttackTreeDepth + 1 - (n + 1) ∨ u ∈ s.visiting) :=
      fun h => h.elim (fun hd => by omega) fun hv => hnew (.inl hv)
    refine ⟨{ s with visiting := u :: s.visiting }, fun t =>
      { visiting := t.visiting.erase u, visited := u :: t.visited }, ?_, ?_, ?_⟩
    · have hlevel : maxAttackTreeDepth + 1 - (n + 1) + 1 = maxAttackTreeDepth + 1 - n := by omega
      rw [visit, dif_neg hdepth, if_neg fun hv => hnew (.inr hv), hlevel]
    · intro v
      simp only [List.mem_cons]
      tauto
    · intro t ht v
      by_cases hv : v = u
      · subst hv
        simp [ht]
      · simp [hv, List.mem_erase_of_ne hv]

theorem visit_root {children : String → List String} {edges : List (String × String)}
    {nodes : List String} {root : String}
    (hmem : ∀ u v, v ∈ children u ↔ edge edges u v) (hnodup : ∀ u, (children u).Nodup)
    (hb : Branching (edge edges) root) (hin : ∀ v, Reach (edge edges) root v → v ∈ nodes) :
    (∃ s, visit children root 1 ⟨[], []⟩ = some s ∧ (∀ v ∈ s.visited, v ∈ nodes) ∧
      ∀ v ∈ nodes, v ∈ s.visited) ↔
    Bounded (edge edges) maxAttackTreeDepth root ∧ ∀ v ∈ nodes, Reach (edge edges) root v := by
  have hspans := (visit_depthFirst children).spans_iff (s := ⟨[], []⟩) hmem hnodup
    (Nat.le_succ maxAttackTreeDepth) hb (by simp) hin
  rw [← hspans]
  refine exists_congr fun s => and_congr_right fun hs => ?_
  have hvisiting : s.visiting = [] := visiting_visit hs
  simp [hvisiting]

namespace AttackTree
variable {tree : AttackTree}

/-- What both checks establish before they traverse the tree, in the order in which they do. -/
structure Checked (tree : AttackTree) : Prop where
  distinctIds : tree.nodeIds.Nodup
  rooted : tree.rootAttackNodeId ∈ tree.nodeIds
  goal : ∀ node ∈ tree.nodes, node.kind = .goal ↔ node.attackNodeId = tree.rootAttackNodeId
  distinctEdges : tree.pairs.Nodup
  joined : ∀ u v, tree.Edge u v → u ∈ tree.nodeIds ∧ v ∈ tree.nodeIds ∧ u ≠ v
  noParent : incoming tree.pairs tree.rootAttackNodeId = 0
  oneParent : ∀ v ∈ tree.nodeIds, v ≠ tree.rootAttackNodeId → incoming tree.pairs v = 1
  fits : ∀ node ∈ tree.nodes, node.misfit (tree.childCount node.attackNodeId) = false

/-- What the traversal of the tree establishes. -/
def Spanned (tree : AttackTree) : Prop :=
  Bounded tree.Edge maxAttackTreeDepth tree.rootAttackNodeId ∧
  ∀ v ∈ tree.nodeIds, Reach tree.Edge tree.rootAttackNodeId v

theorem misfit_eq_false {node : AttackTreeNode} {n : Nat} : node.misfit n = false ↔
    (node.operator = .leaf → node.kind = .action ∧ n = 0) ∧
    (node.operator ≠ .leaf → node.kind ≠ .action ∧ 2 ≤ n) := by
  unfold AttackTreeNode.misfit
  by_cases hop : node.operator = .leaf
  · rw [if_pos hop, decide_eq_false_iff_not, not_or, not_not, not_not]
    exact ⟨fun h => ⟨fun _ => h.symm, fun hne => absurd hop hne⟩, fun h => (h.1 hop).symm⟩
  · rw [if_neg hop, decide_eq_false_iff_not, not_or, Nat.not_lt]
    exact ⟨fun h => ⟨fun heq => absurd heq hop, fun _ => h.symm⟩, fun h => (h.2 hop).symm⟩

theorem wellFormed_iff : tree.WellFormed ↔ tree.Checked ∧ tree.Spanned := by
  constructor
  · intro h
    have htree := (tree_iff h.distinctEdges (fun u v he => ⟨(h.joined u v he).1,
      (h.joined u v he).2.1⟩) h.rooted).mp h.reached
    exact ⟨⟨h.distinctIds, h.rooted, h.goal, h.distinctEdges, h.joined, htree.1.1, htree.1.2,
      fun node hn => misfit_eq_false.mpr ⟨h.leaves node hn, h.inner node hn⟩⟩, htree.2⟩
  · rintro ⟨h, hwalks⟩
    exact
      { distinctIds := h.distinctIds
        distinctEdges := h.distinctEdges
        joined := h.joined
        rooted := h.rooted
        goal := h.goal
        reached := (tree_iff h.distinctEdges (fun u v he => ⟨(h.joined u v he).1,
          (h.joined u v he).2.1⟩) h.rooted).mpr ⟨⟨h.noParent, h.oneParent⟩, hwalks⟩
        leaves := fun node hn => (misfit_eq_false.mp (h.fits node hn)).1
        inner := fun node hn => (misfit_eq_false.mp (h.fits node hn)).2 }

theorem Checked.branching (h : tree.Checked) :
    Branching (edge tree.pairs) tree.rootAttackNodeId := by
  have hends : ∀ u v, edge tree.pairs u v → u ∈ tree.nodeIds ∧ v ∈ tree.nodeIds :=
    fun u v he => ⟨(h.joined u v he).1, (h.joined u v he).2.1⟩
  exact branching_of_incoming h.distinctEdges hends h.noParent h.oneParent

theorem Checked.reach_mem (h : tree.Checked) (v : String)
    (hv : Reach (edge tree.pairs) tree.rootAttackNodeId v) : v ∈ tree.nodeIds :=
  Rooted.reach_mem (fun u v he => ⟨(h.joined u v he).1, (h.joined u v he).2.1⟩) h.rooted hv

/-- Two children of the root lead to two leaves. -/
theorem WellFormed.two_leaves (h : tree.WellFormed) :
    2 ≤ (tree.nodes.filter (·.operator = .leaf)).length := by
  obtain ⟨hchecked, hbounded, _⟩ := wellFormed_iff.mp h
  obtain ⟨root, hroot, hid⟩ := List.mem_map.mp h.rooted
  have hinner : root.operator ≠ .leaf := by
    intro hleaf
    have hgoal := (h.goal root hroot).mpr hid
    rw [(h.leaves root hroot hleaf).1] at hgoal
    cases hgoal
  have hcount := (h.inner root hroot hinner).2
  rw [childCount_eq] at hcount
  have hnodup : (outgoing tree.pairs root.attackNodeId).Nodup := nodup_outgoing h.distinctEdges
  have hedges : ∀ c ∈ outgoing tree.pairs root.attackNodeId,
      tree.Edge tree.rootAttackNodeId c := fun c hc => hid ▸ mem_outgoing.mp hc
  cases hout : outgoing tree.pairs root.attackNodeId with
  | nil =>
    rw [hout] at hcount
    cases hcount
  | cons c rest =>
    cases rest with
    | nil =>
      rw [hout, List.length_singleton] at hcount
      omega
    | cons d rest =>
      rw [hout] at hnodup hedges
      have hc := hedges c List.mem_cons_self
      have hd := hedges d (List.mem_cons_of_mem _ List.mem_cons_self)
      obtain ⟨m, hm, hmleaf, hcm⟩ := h.leaf_below (h.joined _ _ hc).2.1 (bounded_succ.mp hbounded c hc)
      obtain ⟨n, hn, hnleaf, hdn⟩ := h.leaf_below (h.joined _ _ hd).2.1 (bounded_succ.mp hbounded d hd)
      have hne : m ≠ n := by
        rintro rfl
        have hsame := hchecked.branching.apart hc hd hcm hdn
        exact (List.nodup_cons.mp hnodup).1 (hsame ▸ List.mem_cons_self)
      have hm' : m ∈ tree.nodes.filter (·.operator = .leaf) :=
        List.mem_filter.mpr ⟨hm, decide_eq_true hmleaf⟩
      have hn' : n ∈ tree.nodes.filter (·.operator = .leaf) :=
        List.mem_filter.mpr ⟨hn, decide_eq_true hnleaf⟩
      match hleaves : tree.nodes.filter (·.operator = .leaf) with
      | [] =>
        rw [hleaves] at hm'
        cases hm'
      | [x] =>
        rw [hleaves] at hm' hn'
        exact absurd ((List.mem_singleton.mp hm').trans (List.mem_singleton.mp hn').symm) hne
      | _ :: _ :: _ =>
        rw [hleaves]
        exact Nat.le_add_left 2 _

/-- What a dictionary of the nodes is built from. -/
def entries {β : Type*} (tree : AttackTree) (f : AttackTreeNode → β) : List (String × β) :=
  tree.nodes.map fun node => (node.attackNodeId, f node)

section
variable {β : Type*} (f : AttackTreeNode → β)

theorem map_fst_entries : (tree.entries f).map Prod.fst = tree.nodeIds := by
  simp [entries, nodeIds, Function.comp_def]

theorem length_entries :
    (Dict.ofList (tree.entries f)).items.length = tree.nodes.length ↔ tree.nodeIds.Nodup := by
  rw [← map_fst_entries f, ← Dict.length_ofList]
  simp [entries]

theorem items_entries (h : tree.nodeIds.Nodup) :
    (Dict.ofList (tree.entries f)).items = tree.entries f :=
  Dict.items_ofList (map_fst_entries f ▸ h)

theorem keys_entries (h : tree.nodeIds.Nodup) :
    (Dict.ofList (tree.entries f)).keys = tree.nodeIds := by
  rw [Dict.keys, items_entries f h, map_fst_entries]

theorem contains_entries (h : tree.nodeIds.Nodup) (k : String) :
    (Dict.ofList (tree.entries f)).contains k = true ↔ k ∈ tree.nodeIds := by
  rw [Dict.contains, keys_entries f h, decide_eq_true_eq]

theorem get?_entries (h : tree.nodeIds.Nodup) (k : String) (x : β) :
    (Dict.ofList (tree.entries f)).get? k = some x ↔
      ∃ node ∈ tree.nodes, node.attackNodeId = k ∧ f node = x := by
  rw [Dict.get?_eq_some, items_entries f h]
  simp [entries]

theorem get?_entries_none (h : tree.nodeIds.Nodup) {k : String}
    (hk : (Dict.ofList (tree.entries f)).get? k = none) : k ∉ tree.nodeIds := by
  intro hmem
  obtain ⟨node, hnode, hid⟩ := List.mem_map.mp hmem
  cases hk.symm.trans ((get?_entries f h k (f node)).mpr ⟨node, hnode, hid, rfl⟩)

end

theorem goal_iff (hids : tree.nodeIds.Nodup) {root : AttackTreeNode} (hroot : root ∈ tree.nodes)
    (hid : root.attackNodeId = tree.rootAttackNodeId) :
    (∀ node ∈ tree.nodes, node.kind = .goal ↔ node.attackNodeId = tree.rootAttackNodeId) ↔
      root.kind = .goal ∧
      ∀ node ∈ tree.nodes, ¬(node.kind = .goal ∧ node.attackNodeId ≠ tree.rootAttackNodeId) := by
  constructor
  · intro h
    exact ⟨(h root hroot).mpr hid, fun node hn hg => hg.2 ((h node hn).mp hg.1)⟩
  · rintro ⟨hgoal, hother⟩ node hn
    constructor
    · intro hk
      by_contra hne
      exact hother node hn ⟨hk, hne⟩
    · intro hk
      have hsame : node = root :=
        List.inj_on_of_nodup_map hids hn hroot (hk.trans hid.symm)
      exact hsame ▸ hgoal

end AttackTree

theorem if_false_eq_true {c : Prop} [Decidable c] {b : Bool} :
    (if c then false else b) = true ↔ ¬c ∧ b = true := by
  by_cases hc : c
  · simp [hc]
  · simp [hc]

/-- What the last steps of the check see of the edges does not depend on the order in which
they were gone through. -/
theorem checked_of_elems {order : SetOrder (String × String)} {tree : AttackTree}
    (hedges : tree.pairs.Nodup) :
    (∀ v, incoming (order.elems tree.pairs) v = incoming tree.pairs v) ∧
    (∀ u, (outgoing (order.elems tree.pairs) u).length = tree.childCount u) ∧
    (∀ u v, v ∈ outgoing (order.elems tree.pairs) u ↔ edge tree.pairs u v) ∧
    ∀ u, (outgoing (order.elems tree.pairs) u).Nodup := by
  have hperm : (order.elems tree.pairs).Perm tree.pairs :=
    (order.perm tree.pairs).trans (by rw [List.dedup_eq_self.mpr hedges])
  refine ⟨fun v => hperm.countP_eq _, fun u => ?_, fun u v => ?_, fun u => ?_⟩
  · rw [AttackTree.childCount_eq]
    exact ((hperm.filter _).map _).length_eq
  · rw [mem_outgoing, edge, order.mem_elems, edge]
  · exact nodup_outgoing order.nodup_elems

theorem attackTreeStructureIsValid_iff (order : SetOrder (String × String)) (tree : AttackTree) :
    attackTreeStructureIsValid order tree = true ↔ tree.Checked ∧ tree.Spanned := by
  unfold attackTreeStructureIsValid
  simp only [show (tree.nodes.map fun node => (node.attackNodeId, node)) = tree.entries id from rfl]
  rw [if_false_eq_true, not_not, AttackTree.length_entries id]
  have hlenEdges : (order.elems tree.pairs).length = tree.edges.length ↔ tree.pairs.Nodup := by
    rw [← order.length_elems]
    simp [AttackTree.pairs]
  by_cases hids : tree.nodeIds.Nodup
  swap
  · exact ⟨fun h => absurd h.1 hids, fun h => absurd h.1.distinctIds hids⟩
  have hknown := AttackTree.contains_entries id hids
  cases hget : (Dict.ofList (tree.entries id)).get? tree.rootAttackNodeId with
  | none =>
    exact ⟨fun h => absurd h.2 Bool.false_ne_true, fun h =>
      absurd h.1.rooted (AttackTree.get?_entries_none id hids hget)⟩
  | some root =>
    obtain ⟨root, hroot, hid, rfl⟩ := (AttackTree.get?_entries id hids _ _).mp hget
    simp only [if_false_eq_true]
    rw [not_not, not_not, hlenEdges]
    by_cases hedges : tree.pairs.Nodup
    swap
    · exact ⟨fun h => absurd h.2.2.2.1 hedges, fun h => absurd h.1.distinctEdges hedges⟩
    obtain ⟨hincoming, hcount, hmem, hnodup⟩ := @checked_of_elems order tree hedges
    by_cases hjoined : ∀ u v, tree.Edge u v → u ∈ tree.nodeIds ∧ v ∈ tree.nodeIds ∧ u ≠ v
    swap
    · have hindex : indexEdges (Dict.ofList (tree.entries id)).contains .empty
          (order.elems tree.pairs) = none := by
        refine indexEdges_none (fun h => hjoined fun u v he => ?_) _
        have := h (u, v) (order.mem_elems.mpr he)
        simpa only [Joins, hknown] using this
      rw [hindex]
      exact ⟨fun h => absurd h.2.2.2.2 Bool.false_ne_true, fun h => absurd h.1.joined hjoined⟩
    have hindex : indexEdges (Dict.ofList (tree.entries id)).contains .empty (order.elems tree.pairs) =
        some ⟨outgoing (order.elems tree.pairs), incoming (order.elems tree.pairs)⟩ := by
      rw [← EdgeIndex.over_empty]
      refine indexEdges_some (fun e he => ?_) _
      simpa only [Joins, hknown] using hjoined e.1 e.2 (order.mem_elems.mp he)
    have hvisit : ∀ o : Option Visits,
        ((match o with
          | none => false
          | some s => (s.visited.all fun v => (Dict.ofList (tree.entries id)).contains v) &&
              tree.nodeIds.all fun v => decide (v ∈ s.visited)) = true ↔
        ∃ s, o = some s ∧ (∀ v ∈ s.visited, v ∈ tree.nodeIds) ∧
          ∀ v ∈ tree.nodeIds, v ∈ s.visited) := by
      intro o
      cases o with
      | none => simp
      | some s => simp [hknown]
    have hroots : tree.rootAttackNodeId ∈ tree.nodeIds := List.mem_map.mpr ⟨root, hroot, hid⟩
    rw [hindex]
    simp only [if_false_eq_true, hincoming, hcount,
      AttackTree.keys_entries id hids, AttackTree.items_entries id hids]
    constructor
    · rintro ⟨-, hgoal, hother, -, hno, hone, hfits, hwalks⟩
      have hchecked : tree.Checked :=
        { distinctIds := hids
          rooted := hroots
          goal := (AttackTree.goal_iff hids hroot hid).mpr ⟨hgoal, by simpa using hother⟩
          distinctEdges := hedges
          joined := hjoined
          noParent := not_not.mp hno
          oneParent := by simpa using hone
          fits := by simpa [AttackTree.entries] using hfits }
      exact ⟨hchecked, (visit_root hmem hnodup hchecked.branching hchecked.reach_mem).mp
        ((hvisit _).mp hwalks)⟩
    · rintro ⟨h, hwalks⟩
      obtain ⟨hgoal, hother⟩ := (AttackTree.goal_iff hids hroot hid).mp h.goal
      exact ⟨hids, hgoal, by simpa using hother, hedges, not_not.mpr h.noParent,
        by simpa using h.oneParent, by simpa [AttackTree.entries] using h.fits,
        (hvisit _).mpr ((visit_root hmem hnodup h.branching h.reach_mem).mpr hwalks)⟩

theorem AttackTree.WellFormed.of_check {order : SetOrder (String × String)} {tree : AttackTree}
    (h : attackTreeStructureIsValid order tree = true) : tree.WellFormed :=
  AttackTree.wellFormed_iff.mpr ((attackTreeStructureIsValid_iff order tree).mp h)

/-- The service accepts a tree document just when it is a well-formed attack tree. -/
theorem attack_tree_check_exact (order : SetOrder (String × String)) (tree : AttackTree) :
    attackTreeStructureIsValid order tree = true ↔ tree.WellFormed := by
  rw [attackTreeStructureIsValid_iff, AttackTree.wellFormed_iff]

/-! The library of published trees. -/

def maxTreeDepth : Nat := 6

structure LibraryTreeNode where
  nodeId : String
  kind : AttackNodeKind
  operator : AttackOperator
deriving DecidableEq, Repr

/-- What `structural_error` reads of an `AttackTree` of the library. -/
structure LibraryTree where
  rootNodeId : String
  nodes : List LibraryTreeNode
  edges : List (List String)
deriving DecidableEq, Repr

/-- The loop over the edges that collects `pairs`. -/
def edgeError (known : String → Bool) : List (String × String) → List (List String) → Option String
  | _, [] => none
  | pairs, [parent, child] :: rest =>
    if !known parent || !known child || parent = child then
      some "an edge references an unknown or self-referential node"
    else if (parent, child) ∈ pairs then some "duplicate edge"
    else edgeError known ((parent, child) :: pairs) rest
  | _, _ :: _ => some "each edge must be a [parent, child] pair"

/-- The loop that fills `children` and `incoming`. Every edge it meets is a pair. -/
def indexPairs : EdgeIndex → List (List String) → EdgeIndex
  | index, [parent, child] :: rest => indexPairs (index.add parent child) rest
  | index, _ :: rest => indexPairs index rest
  | index, [] => index

def LibraryTreeNode.operatorError (node : LibraryTreeNode) (count : Nat) : Option String :=
  if node.operator = .leaf then
    if count ≠ 0 ∨ node.kind ≠ .action then
      some (node.nodeId ++ " is a LEAF, so it must be a childless ACTION")
    else none
  else if count < 2 ∨ node.kind = .action then
    some (node.nodeId ++ " needs at least two children and cannot be an ACTION")
  else none

/-- `walk`; none where it returns `False`, after which `seen` is not read again. -/
def walk (children : String → List String) (nodeId : String) (depth : Nat) (seen : List String) :
    Option (List String) :=
  if h : maxTreeDepth < depth ∨ nodeId ∈ seen then none
  else (children nodeId).foldlM (fun seen child => walk children child (depth + 1) seen)
    (nodeId :: seen)
termination_by maxTreeDepth + 1 - depth
decreasing_by omega

def structuralError (tree : LibraryTree) : Option String :=
  let nodes := Dict.ofList (tree.nodes.map fun node => (node.nodeId, node))
  if nodes.items.length ≠ tree.nodes.length then some "duplicate attack node ids"
  else match nodes.get? tree.rootNodeId with
  | none => some "root node is not in the node list"
  | some root =>
    if root.kind ≠ .goal then some "the root node must be the GOAL"
    else if tree.nodes.any fun node => node.kind = .goal ∧ node.nodeId ≠ tree.rootNodeId then
      some "only the root may be a GOAL"
    else match edgeError nodes.contains [] tree.edges with
    | some error => some error
    | none =>
      let index := indexPairs .empty tree.edges
      if index.incoming tree.rootNodeId ≠ 0 then some "the root node must have no parent"
      else if nodes.keys.any fun nodeId =>
        nodeId ≠ tree.rootNodeId ∧ index.incoming nodeId ≠ 1 then
        some "every node except the root needs exactly one parent"
      else match nodes.items.findSome? fun item =>
        item.2.operatorError (index.children item.1).length with
      | some error => some error
      | none =>
        if !((walk index.children tree.rootNodeId 1 []).any fun seen =>
          seen.all (nodes.contains ·) && nodes.keys.all (· ∈ seen)) then
          some "the tree is too deep, cyclic, or has unreachable nodes"
        else if !(tree.nodes.any fun node => node.operator = .leaf) then
          some "a tree needs at least one leaf action"
        else none

/-! The same document for both checks. -/

def AttackTreeNode.toLibrary (node : AttackTreeNode) : LibraryTreeNode :=
  ⟨node.attackNodeId, node.kind, node.operator⟩

def AttackTree.toLibrary (tree : AttackTree) : LibraryTree :=
  { rootNodeId := tree.rootAttackNodeId
    nodes := tree.nodes.map AttackTreeNode.toLibrary
    edges := tree.pairs.map fun edge => [edge.1, edge.2] }

theorem edgeError_eq_none {known : String → Bool} {l seen : List (String × String)} :
    edgeError known seen (l.map fun e => [e.1, e.2]) = none ↔
      (∀ e ∈ l, Joins known e) ∧ l.Nodup ∧ ∀ e ∈ l, e ∉ seen := by
  induction l generalizing seen with
  | nil => simp [edgeError]
  | cons e l ih =>
    obtain ⟨p, c⟩ := e
    rw [List.map_cons, edgeError]
    by_cases hj : Joins known (p, c)
    · rw [if_neg (refused_iff.not_left.mpr hj)]
      by_cases hs : (p, c) ∈ seen
      · simp [hs]
      · rw [if_neg hs, ih, List.forall_mem_cons, List.forall_mem_cons, List.nodup_cons]
        constructor
        · rintro ⟨hall, hn, hnew⟩
          have hnot : (p, c) ∉ l := fun hmem => hnew _ hmem List.mem_cons_self
          exact ⟨⟨hj, hall⟩, ⟨hnot, hn⟩, hs, fun e he hseen =>
            hnew e he (List.mem_cons_of_mem _ hseen)⟩
        · rintro ⟨⟨_, hall⟩, ⟨hnot, hn⟩, _, hnew⟩
          refine ⟨hall, hn, fun e he hmem => ?_⟩
          cases List.mem_cons.mp hmem with
          | inl hsame => exact hnot (hsame ▸ he)
          | inr hseen => exact hnew e he hseen
    · rw [if_pos (refused_iff.mpr hj)]
      simp [hj]

theorem indexPairs_eq (index : EdgeIndex) (l : List (String × String)) :
    indexPairs index (l.map fun e => [e.1, e.2]) = index.over l := by
  induction l generalizing index with
  | nil => rw [index.over_nil]; rfl
  | cons e l ih => rw [List.map_cons, indexPairs, ih, ← index.over_cons]

theorem operatorError_eq_none {node : AttackTreeNode} {n : Nat} :
    node.toLibrary.operatorError n = none ↔ node.misfit n = false := by
  unfold LibraryTreeNode.operatorError AttackTreeNode.misfit AttackTreeNode.toLibrary
  by_cases hop : node.operator = .leaf
  · by_cases hbad : n ≠ 0 ∨ node.kind ≠ .action
    · simp [hop, hbad]
    · simp [hop, hbad]
  · simp [hop]

theorem walk_depthFirst (children : String → List String) :
    DepthFirst (maxTreeDepth + 1) children (fun seen v => v ∈ seen)
      (fun n u seen => walk children u (maxTreeDepth + 1 - n) seen) := by
  constructor
  · intro u seen
    rw [walk, dif_pos (.inl (by omega))]
  · intro n u seen hn hnew
    have hdepth : ¬(maxTreeDepth < maxTreeDepth + 1 - (n + 1) ∨ u ∈ seen) :=
      fun h => h.elim (fun hd => by omega) hnew
    have hlevel : maxTreeDepth + 1 - (n + 1) + 1 = maxTreeDepth + 1 - n := by omega
    refine ⟨u :: seen, id, ?_, fun v => ?_, fun _ _ _ => Iff.rfl⟩
    · rw [walk, dif_neg hdepth, hlevel, Option.map_id]
      rfl
    · rw [List.mem_cons, or_comm]

theorem walk_root {children : String → List String} {edges : List (String × String)}
    {nodes : List String} {root : String}
    (hmem : ∀ u v, v ∈ children u ↔ edge edges u v) (hnodup : ∀ u, (children u).Nodup)
    (hb : Branching (edge edges) root) (hin : ∀ v, Reach (edge edges) root v → v ∈ nodes) :
    (∃ seen, walk children root 1 [] = some seen ∧ (∀ v ∈ seen, v ∈ nodes) ∧
      ∀ v ∈ nodes, v ∈ seen) ↔
    Bounded (edge edges) maxTreeDepth root ∧ ∀ v ∈ nodes, Reach (edge edges) root v :=
  (walk_depthFirst children).spans_iff (s := []) hmem hnodup (Nat.le_succ maxTreeDepth) hb
    (by simp) hin

/-- The rule that a tree needs a leaf never decides: a tree that ends has one. -/
theorem AttackTree.exists_leaf {tree : AttackTree} (h : tree.Checked) (hs : tree.Spanned) :
    ∃ node ∈ tree.nodes, node.operator = .leaf := by
  have hwf := AttackTree.wellFormed_iff.mpr ⟨h, hs⟩
  obtain ⟨node, hnode, hleaf, _⟩ := hwf.leaf_below h.rooted hs.1
  exact ⟨node, hnode, hleaf⟩

theorem if_some_eq_none {α : Type*} {c : Prop} [Decidable c] {a : α} {o : Option α} :
    (if c then some a else o) = none ↔ ¬c ∧ o = none := by
  by_cases hc : c
  · simp [hc]
  · simp [hc]

section
variable {tree : AttackTree}

/-! What the steps of `structural_error` test on that document. -/

theorem library_goal_iff : (¬(tree.toLibrary.nodes.any fun node =>
      decide (node.kind = .goal ∧ node.nodeId ≠ tree.toLibrary.rootNodeId)) = true) ↔
    ∀ node ∈ tree.nodes, ¬(node.kind = .goal ∧ node.attackNodeId ≠ tree.rootAttackNodeId) := by
  simp only [List.any_eq_true, decide_eq_true_eq, not_exists]
  simp only [AttackTree.toLibrary, AttackTreeNode.toLibrary, List.mem_map]
  constructor
  · exact fun h node hn hbad => h _ ⟨⟨node, hn, rfl⟩, hbad⟩
  · rintro h _ ⟨⟨node, hn, rfl⟩, hbad⟩
    exact h node hn hbad

theorem library_parent_iff (hids : tree.nodeIds.Nodup) :
    (¬((Dict.ofList (tree.entries AttackTreeNode.toLibrary)).keys.any fun nodeId =>
      decide (nodeId ≠ tree.toLibrary.rootNodeId ∧ incoming tree.pairs nodeId ≠ 1)) = true) ↔
    ∀ v ∈ tree.nodeIds, v ≠ tree.rootAttackNodeId → incoming tree.pairs v = 1 := by
  simp only [AttackTree.keys_entries _ hids, List.any_eq_true, decide_eq_true_eq, not_exists]
  simp only [AttackTree.toLibrary, not_and, not_not, ne_eq]

theorem library_fits_iff (hids : tree.nodeIds.Nodup) :
    (Dict.ofList (tree.entries AttackTreeNode.toLibrary)).items.findSome?
      (fun item => item.2.operatorError (outgoing tree.pairs item.1).length) = none ↔
    ∀ node ∈ tree.nodes, node.misfit (tree.childCount node.attackNodeId) = false := by
  rw [AttackTree.items_entries _ hids, List.findSome?_eq_none_iff]
  simp [AttackTree.entries, operatorError_eq_none, AttackTree.childCount_eq]

theorem library_walk_iff (hids : tree.nodeIds.Nodup) :
    (¬(!Option.any (fun seen =>
      (seen.all fun v => (Dict.ofList (tree.entries AttackTreeNode.toLibrary)).contains v) &&
        (Dict.ofList (tree.entries AttackTreeNode.toLibrary)).keys.all fun v =>
          decide (v ∈ seen)) (walk (outgoing tree.pairs) tree.toLibrary.rootNodeId 1 [])) = true) ↔
    ∃ seen, walk (outgoing tree.pairs) tree.rootAttackNodeId 1 [] = some seen ∧
      (∀ v ∈ seen, v ∈ tree.nodeIds) ∧ ∀ v ∈ tree.nodeIds, v ∈ seen := by
  rw [AttackTree.keys_entries _ hids]
  simp [AttackTree.toLibrary, Option.any_eq_true,
    AttackTree.contains_entries AttackTreeNode.toLibrary hids]

theorem library_leaf_iff :
    (¬(!tree.toLibrary.nodes.any fun node => decide (node.operator = .leaf)) = true) ↔
    ∃ node ∈ tree.nodes, node.operator = .leaf := by
  simp only [Bool.not_eq_true', Bool.not_eq_false, List.any_eq_true, decide_eq_true_eq,
    AttackTree.toLibrary, AttackTreeNode.toLibrary, List.mem_map]
  constructor
  · rintro ⟨_, ⟨node, hn, rfl⟩, hop⟩
    exact ⟨node, hn, hop⟩
  · rintro ⟨node, hn, hop⟩
    exact ⟨_, ⟨node, hn, rfl⟩, hop⟩

end

theorem structuralError_iff (tree : AttackTree) :
    structuralError tree.toLibrary = none ↔ tree.Checked ∧ tree.Spanned := by
  unfold structuralError
  have hdict : (tree.toLibrary.nodes.map fun node => (node.nodeId, node)) =
      tree.entries AttackTreeNode.toLibrary := by
    simp [AttackTree.toLibrary, AttackTree.entries, AttackTreeNode.toLibrary]
  have hnodes : tree.toLibrary.nodes.length = tree.nodes.length := by
    simp [AttackTree.toLibrary]
  simp only [hdict]
  rw [if_some_eq_none, not_not, hnodes, AttackTree.length_entries]
  by_cases hids : tree.nodeIds.Nodup
  swap
  · exact ⟨fun h => absurd h.1 hids, fun h => absurd h.1.distinctIds hids⟩
  have hknown := AttackTree.contains_entries AttackTreeNode.toLibrary hids
  cases hget : (Dict.ofList (tree.entries AttackTreeNode.toLibrary)).get?
      tree.toLibrary.rootNodeId with
  | none =>
    exact ⟨fun h => absurd h.2 (Option.some_ne_none _), fun h =>
      absurd h.1.rooted (AttackTree.get?_entries_none _ hids hget)⟩
  | some root =>
    obtain ⟨root, hroot, hid, rfl⟩ := (AttackTree.get?_entries _ hids _ _).mp hget
    simp only [if_some_eq_none]
    rw [not_not]
    have hpairs : tree.toLibrary.edges = tree.pairs.map fun e => [e.1, e.2] := rfl
    have hjoins : (∀ e ∈ tree.pairs, Joins
        (Dict.ofList (tree.entries AttackTreeNode.toLibrary)).contains e) ↔
        ∀ u v, tree.Edge u v → u ∈ tree.nodeIds ∧ v ∈ tree.nodeIds ∧ u ≠ v := by
      simp only [Joins, hknown, Prod.forall]
      rfl
    have hedges : edgeError (Dict.ofList (tree.entries AttackTreeNode.toLibrary)).contains []
        tree.toLibrary.edges = none ↔
        (∀ u v, tree.Edge u v → u ∈ tree.nodeIds ∧ v ∈ tree.nodeIds ∧ u ≠ v) ∧
        tree.pairs.Nodup := by
      rw [hpairs, edgeError_eq_none, hjoins]
      simp
    cases herror : edgeError (Dict.ofList (tree.entries AttackTreeNode.toLibrary)).contains []
        tree.toLibrary.edges with
    | some error =>
      refine ⟨fun h => absurd h.2.2.2 (Option.some_ne_none _), fun h => ?_⟩
      cases herror.symm.trans (hedges.mpr ⟨h.1.joined, h.1.distinctEdges⟩)
    | none =>
      obtain ⟨hjoined, hnodup⟩ := hedges.mp herror
      rw [hpairs, indexPairs_eq, EdgeIndex.over_empty]
      simp only [if_some_eq_none]
      rw [library_goal_iff, library_parent_iff hids, not_not]
      have hfinal := fun hc : tree.Checked => walk_root (fun u v => mem_outgoing)
        (fun u => nodup_outgoing hnodup) hc.branching hc.reach_mem
      cases hop : (Dict.ofList (tree.entries AttackTreeNode.toLibrary)).items.findSome?
          fun item => item.2.operatorError (outgoing tree.pairs item.1).length with
      | some error =>
        refine ⟨fun h => absurd h.2.2.2.2.2 (Option.some_ne_none _), fun h => ?_⟩
        cases hop.symm.trans ((library_fits_iff hids).mpr h.1.fits)
      | none =>
        simp only [if_some_eq_none]
        rw [library_walk_iff hids, library_leaf_iff]
        constructor
        · rintro ⟨-, hgoal, hnogoal, hno, honly, hspans, -⟩
          have hchecked : tree.Checked :=
            { distinctIds := hids
              rooted := List.mem_map.mpr ⟨root, hroot, hid⟩
              goal := (AttackTree.goal_iff hids hroot hid).mpr ⟨hgoal, hnogoal⟩
              distinctEdges := hnodup
              joined := hjoined
              noParent := hno
              oneParent := honly
              fits := (library_fits_iff hids).mp hop }
          exact ⟨hchecked, (hfinal hchecked).mp hspans⟩
        · rintro ⟨h, hs⟩
          obtain ⟨hgoal, hnogoal⟩ := (AttackTree.goal_iff hids hroot hid).mp h.goal
          exact ⟨hids, hgoal, hnogoal, h.noParent, h.oneParent, (hfinal h).mpr hs,
            AttackTree.exists_leaf h hs, trivial⟩

/-- The library of published trees and the service accept the same documents. -/
theorem attack_tree_checks_agree (order : SetOrder (String × String)) (tree : AttackTree) :
    structuralError tree.toLibrary = none ↔ attackTreeStructureIsValid order tree = true := by
  rw [structuralError_iff, attackTreeStructureIsValid_iff]

end Bantam
