import Bantam.Lib.Search
import Bantam.TerraformCatalog
import Mathlib.Data.List.Sort

/-! The sequence of the dependencies of a block: what the traversal lists, and when that is
everything within eight edges. -/
namespace Bantam
open Rooted
variable (graph : CodeGraph) (start : String)

def DependsOn (u v : String) : Prop := ⟨u, v, "depends_on"⟩ ∈ graph.edges.keys

/-- The nodes that a node depends on, in the order of the traversal. -/
def successors (u : String) : List String := Text.sorted (dependencies graph u)

/-- At most eight edges, thus nine nodes, lead from the start to the node. -/
def WithinEight (v : String) : Prop := ∃ p, Walk (DependsOn graph) start v p ∧ p.length ≤ 9

/-- Exactly eight edges lead from the start to the node on a way without repetitions. -/
def MetLast (v : String) : Prop :=
  ∃ p, Walk (DependsOn graph) start v p ∧ p.Nodup ∧ p.length = 9

/-- Some way leads to the node over others that the traversal cannot meet at depth eight. -/
def Approached (v : String) : Prop :=
  ∃ p, Walk (DependsOn graph) start v p ∧ ∀ u ∈ p.dropLast, ¬MetLast graph start u

theorem mem_dependencies {u v : String} : v ∈ dependencies graph u ↔ DependsOn graph u v := by
  constructor
  · intro h
    obtain ⟨edge, hedge, htarget⟩ := List.mem_filterMap.mp h
    split at htarget
    case isTrue hboth =>
      obtain ⟨source, target, type⟩ := edge
      obtain ⟨rfl, rfl⟩ := hboth
      cases Option.some.inj htarget
      exact hedge
    case isFalse => cases htarget
  · intro h
    exact List.mem_filterMap.mpr ⟨_, h, if_pos ⟨rfl, rfl⟩⟩

theorem mem_successors {u v : String} : v ∈ successors graph u ↔ DependsOn graph u v := by
  rw [← mem_dependencies]
  exact (List.mergeSort_perm _ _).mem_iff

theorem step_successors : Step (successors graph) = DependsOn graph := by
  funext u v
  exact propext (mem_successors graph)

/-- The traversal is a search that takes the dependencies by name. -/
theorem visitDependencies_eq (rounds : Nat) (result : List String) (current : String) :
    visitDependencies graph rounds result current =
      search (successors graph) rounds result current := by
  induction rounds generalizing result current with
  | zero => rfl
  | succ n ih =>
    have hloop : visitDependencies graph n = search (successors graph) n := by
      funext list c
      exact ih list c
    rw [visitDependencies, search, hloop]
    rfl

/-- On every graph the start comes first, nothing is repeated, and eight edges suffice. -/
theorem visitDependencies_sound :
    (visitDependencies graph 9 [] start).head? = some start ∧
      (visitDependencies graph 9 [] start).Nodup ∧
      ∀ v ∈ visitDependencies graph 9 [] start, WithinEight graph start v := by
  rw [visitDependencies_eq]
  refine ⟨search_head 8 start, search_nodup List.nodup_nil, fun v hv => ?_⟩
  cases search_sound hv with
  | inl hmet => exact absurd hmet List.not_mem_nil
  | inr hwalk =>
    rw [step_successors] at hwalk
    exact hwalk

theorem visitDependencies_lists {v : String} (h : Approached graph start v) :
    v ∈ visitDependencies graph 9 [] start := by
  obtain ⟨p, hp, hinner⟩ := h
  have hopen : Open (successors graph) start 9 p := by
    intro u hu hdeep
    rw [Deep, step_successors] at hdeep
    exact hinner u hu hdeep
  rw [visitDependencies_eq]
  apply search_complete (mem_search 8 [] start) _ hopen
  rw [step_successors]
  exact hp

/-- The start and the nodes that something depends on. -/
def dependedOn : List String := start :: graph.edges.keys.map GraphEdge.target

theorem walk_dependedOn {u v : String} {p : List String} (hp : Walk (DependsOn graph) u v p)
    (hu : u ∈ dependedOn graph start) : p ⊆ dependedOn graph start := by
  induction hp with
  | nil u => exact List.cons_subset.mpr ⟨hu, List.nil_subset _⟩
  | cons hedge t ih =>
    apply List.cons_subset.mpr ⟨hu, ih _⟩
    exact List.mem_cons_of_mem start (List.mem_map.mpr ⟨_, hedge, rfl⟩)

theorem approached_of_few (hfew : (dependedOn graph start).dedup.length < 9) {v : String}
    (hv : WithinEight graph start v) : Approached graph start v := by
  obtain ⟨p, hp, -⟩ := hv
  refine ⟨p, hp, fun u _ hlast => ?_⟩
  obtain ⟨q, hq, hnodup, hlength⟩ := hlast
  have hsub := walk_dependedOn graph start hq List.mem_cons_self
  have hle : q.length ≤ (dependedOn graph start).dedup.length :=
    (List.subperm_of_subset hnodup fun x hx => List.mem_dedup.mpr (hsub hx)).length_le
  omega

def dependsOnGraph (pairs : List (String × String)) : CodeGraph :=
  pairs.foldl (fun graph pair => graph.addEdge ⟨pair.1, pair.2, "depends_on"⟩ none) .empty

/-- Two blocks depend on a third and on one another. -/
def cyclicGraph : CodeGraph :=
  dependsOnGraph [("a", "b"), ("b", "a"), ("a", "c"), ("b", "c")]

def shortcutGraph : CodeGraph :=
  dependsOnGraph [("s", "a"), ("a", "b"), ("b", "c"), ("c", "d"), ("d", "e"), ("e", "f"),
    ("f", "g"), ("g", "z"), ("s", "z"), ("z", "zz")]

theorem sorted_eq (names : List String) : Text.sorted names = names.insertionSort (· ≤ ·) :=
  List.mergeSort_eq_insertionSort _ names

theorem shortcut_visited :
    visitDependencies shortcutGraph 9 [] "s" = ["s", "a", "b", "c", "d", "e", "f", "g", "z"] := by
  simp only [visitDependencies, sorted_eq]
  decide +kernel

end Bantam
