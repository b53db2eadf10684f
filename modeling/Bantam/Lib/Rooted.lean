import Mathlib.Data.List.Basic
import Mathlib.Data.List.Count
import Mathlib.Data.List.Induction
import Mathlib.Data.List.Nodup
import Mathlib.Tactic.Common

/-! Walks in a directed graph, the graphs that are trees below a root, and depth-first
traversals that keep a record of the nodes they met. -/
namespace Rooted
variable {α σ : Type*} {E : α → α → Prop} {u v w r : α} {p q : List α}

/-- A walk along the edges, as the list of the nodes it passes. -/
inductive Walk (E : α → α → Prop) : α → α → List α → Prop
  | nil (u : α) : Walk E u u [u]
  | cons {u v w : α} {p : List α} (h : E u v) (t : Walk E v w p) : Walk E u w (u :: p)

def Reach (E : α → α → Prop) (u v : α) : Prop := ∃ p, Walk E u v p

/-- No walk from `u` passes more than `n` nodes. -/
def Bounded (E : α → α → Prop) (n : Nat) (u : α) : Prop := ∀ v p, Walk E u v p → p.length ≤ n

/-- No node is reached from `u` by two walks. -/
def Branching (E : α → α → Prop) (u : α) : Prop :=
  ∀ v p q, Walk E u v p → Walk E u v q → p = q

theorem Walk.ne_nil (h : Walk E u v p) : p ≠ [] := by
  cases h with
  | nil => exact List.cons_ne_nil _ _
  | cons _ _ => exact List.cons_ne_nil _ _

theorem Walk.head (h : Walk E u v p) : p.head? = some u := by
  cases h with
  | nil => rfl
  | cons _ _ => rfl

theorem Walk.snoc (h : Walk E u v p) (e : E v w) : Walk E u w (p ++ [w]) := by
  induction h with
  | nil u => exact .cons e (.nil w)
  | cons h' _ ih => exact .cons h' (ih e)

/-- A walk is at its start or ends with an edge. -/
theorem Walk.last (h : Walk E u w p) :
    (u = w ∧ p = [u]) ∨ ∃ v q, Walk E u v q ∧ E v w ∧ p = q ++ [w] := by
  induction h with
  | nil u => exact .inl ⟨rfl, rfl⟩
  | @cons u v w p h t ih =>
    refine .inr ?_
    cases ih with
    | inl hstart =>
      obtain ⟨rfl, rfl⟩ := hstart
      exact ⟨u, [u], .nil u, h, rfl⟩
    | inr hstep =>
      obtain ⟨x, q, hq, hx, rfl⟩ := hstep
      exact ⟨x, u :: q, .cons h hq, hx, rfl⟩

theorem Walk.end_eq (h : Walk E u v p) (h' : Walk E u w p) : v = w := by
  induction h generalizing w with
  | nil u =>
    cases h' with
    | nil => rfl
    | cons _ t => exact absurd rfl t.ne_nil
  | cons h t ih =>
    cases h' with
    | nil => exact absurd rfl t.ne_nil
    | cons h'' t' =>
      have hhead := t.head.symm.trans t'.head
      cases Option.some.inj hhead
      exact ih t'

theorem Reach.refl (u : α) : Reach E u u := ⟨[u], .nil u⟩

theorem Reach.cons (h : E u v) (hr : Reach E v w) : Reach E u w :=
  hr.elim fun p hp => ⟨u :: p, .cons h hp⟩

theorem Reach.snoc (hr : Reach E u v) (h : E v w) : Reach E u w :=
  hr.elim fun p hp => ⟨p ++ [w], hp.snoc h⟩

/-- What is reached is the start or is reached from one of its children. -/
theorem reach_iff : Reach E u v ↔ v = u ∨ ∃ c, E u c ∧ Reach E c v := by
  constructor
  · rintro ⟨p, hp⟩
    cases hp with
    | nil => exact .inl rfl
    | cons h t => exact .inr ⟨_, h, _, t⟩
  · intro h
    cases h with
    | inl hsame => exact hsame ▸ Reach.refl v
    | inr hbelow =>
      obtain ⟨c, hc, hr⟩ := hbelow
      exact hr.cons hc

/-- What is reached stays in a set that the edges do not leave. -/
theorem Reach.mem {S : α → Prop} (hr : Reach E u v) (hu : S u) (hS : ∀ x y, E x y → S y) :
    S v := by
  obtain ⟨p, hp⟩ := hr
  cases hp.last with
  | inl hstart => exact hstart.1 ▸ hu
  | inr hstep =>
    obtain ⟨x, _, _, hx, _⟩ := hstep
    exact hS x v hx

theorem bounded_succ {n : Nat} : Bounded E (n + 1) u ↔ ∀ c, E u c → Bounded E n c := by
  constructor
  · intro h c hc v p hp
    have := h v (u :: p) (.cons hc hp)
    simpa using this
  · intro h v p hp
    cases hp with
    | nil => simp
    | cons hc t =>
      have := h _ hc v _ t
      simpa using this

theorem not_bounded_zero : ¬Bounded E 0 u := fun h => by simpa using h u [u] (.nil u)

theorem Branching.child (h : Branching E u) (hc : E u v) : Branching E v := by
  intro w p q hp hq
  exact (List.cons.inj (h w _ _ (.cons hc hp) (.cons hc hq))).2

/-- Two children of a branching node lead to no common node. -/
theorem Branching.apart (h : Branching E u) (hv : E u v) (hw : E u w) {x : α}
    (hvx : Reach E v x) (hwx : Reach E w x) : v = w := by
  obtain ⟨p, hp⟩ := hvx
  obtain ⟨q, hq⟩ := hwx
  have hpq : p = q := (List.cons.inj (h x _ _ (.cons hv hp) (.cons hw hq))).2
  have hhead := hp.head.symm.trans (hpq ▸ hq.head)
  exact Option.some.inj hhead

theorem Branching.no_return (h : Branching E u) (hv : E u v) : ¬Reach E v u := by
  rintro ⟨p, hp⟩
  have := h u _ _ (.nil u) (.cons hv hp)
  exact hp.ne_nil (List.cons.inj this).2.symm

/-- Where no edge enters the root and no node has two parents, walks from the root are
determined by their ends. -/
theorem branching_of_parents (hroot : ∀ x, ¬E x r)
    (hone : ∀ x y z, E x z → E y z → x = y) : Branching E r := by
  intro v p
  induction p using List.reverseRecOn generalizing v with
  | nil => exact fun q hp _ => absurd rfl hp.ne_nil
  | append_singleton p' a ih =>
    intro q hp hq
    cases hp.last with
    | inl hstart =>
      obtain ⟨rfl, hp'⟩ := hstart
      cases hq.last with
      | inl hstart' => exact hp'.trans hstart'.2.symm
      | inr hstep =>
        obtain ⟨x, _, _, hx, _⟩ := hstep
        exact absurd hx (hroot x)
    | inr hstep =>
      obtain ⟨x, p'', hp'', hx, hpe⟩ := hstep
      obtain ⟨rfl, rfl⟩ := List.append_singleton_inj.mp hpe
      cases hq.last with
      | inl hstart =>
        obtain ⟨rfl, _⟩ := hstart
        exact absurd hx (hroot x)
      | inr hstep' =>
        obtain ⟨y, q', hq', hy, rfl⟩ := hstep'
        obtain rfl := hone x y _ hx hy
        rw [ih _ q' hp'' hq']

theorem Branching.no_parent (h : Branching E r) (hu : Reach E r u) : ¬E u r := by
  obtain ⟨p, hp⟩ := hu
  intro he
  have hloop : [r] = p ++ [r] := h r _ _ (.nil r) (hp.snoc he)
  exact hp.ne_nil (List.self_eq_append_left.mp hloop)

theorem Branching.one_parent (h : Branching E r) (hu : Reach E r u) (hv : Reach E r v)
    (huw : E u w) (hvw : E v w) : u = v := by
  obtain ⟨p, hp⟩ := hu
  obtain ⟨q, hq⟩ := hv
  have hpq : p = q := (List.append_singleton_inj.mp (h w _ _ (hp.snoc huw) (hq.snoc hvw))).1
  exact hp.end_eq (hpq ▸ hq)

/-- Where walks are bounded some node below has no child. -/
theorem exists_childless {n : Nat} (h : Bounded E n u) : ∃ v, Reach E u v ∧ ∀ c, ¬E v c := by
  induction n generalizing u with
  | zero => exact absurd h not_bounded_zero
  | succ n ih =>
    by_cases hc : ∃ c, E u c
    · obtain ⟨c, hc⟩ := hc
      obtain ⟨v, hv, hnone⟩ := ih (bounded_succ.mp h c hc)
      exact ⟨v, hv.cons hc, hnone⟩
    · exact ⟨u, Reach.refl u, fun c hu => hc ⟨c, hu⟩⟩

/-- A traversal that is given the number of levels left, `limit` at most. At a node that its
record does not know it records the node, goes through the children in turn and may tidy
the record up. -/
structure DepthFirst (limit : Nat) (children : α → List α) (known : σ → α → Prop)
    (search : Nat → α → σ → Option σ) : Prop where
  zero : ∀ u s, search 0 u s = none
  succ : ∀ n u s, n < limit → ¬known s u → ∃ (enter : σ) (leave : σ → σ),
    search (n + 1) u s = ((children u).foldlM (fun s c => search n c s) enter).map leave ∧
    (∀ v, known enter v ↔ known s v ∨ v = u) ∧
    ∀ t, known t u → ∀ v, known (leave t) v ↔ known t v

section
variable {limit : Nat} {children : α → List α} {known : σ → α → Prop} {search : Nat → α → σ → Option σ}

/-- One child after the other, each below nodes of its own. -/
theorem foldlM_search {n : Nat} {cs : List α} {s : σ}
    (hsearch : ∀ c ∈ cs, ∀ s, (∀ v, Reach E c v → ¬known s v) →
      (Bounded E n c → ∃ s', search n c s = some s' ∧
        ∀ v, known s' v ↔ known s v ∨ Reach E c v) ∧
      (¬Bounded E n c → search n c s = none))
    (hapart : cs.Pairwise fun c d => ∀ v, Reach E c v → ¬Reach E d v)
    (hfresh : ∀ c ∈ cs, ∀ v, Reach E c v → ¬known s v) :
    ((∀ c ∈ cs, Bounded E n c) → ∃ s', cs.foldlM (fun s c => search n c s) s = some s' ∧
      ∀ v, known s' v ↔ known s v ∨ ∃ c ∈ cs, Reach E c v) ∧
    (¬(∀ c ∈ cs, Bounded E n c) → cs.foldlM (fun s c => search n c s) s = none) := by
  induction cs generalizing s with
  | nil => exact ⟨fun _ => ⟨s, rfl, by simp⟩, fun h => absurd (by simp) h⟩
  | cons c cs ih =>
    obtain ⟨hc, hcs⟩ := List.pairwise_cons.mp hapart
    obtain ⟨hok, hno⟩ := hsearch c List.mem_cons_self s (hfresh c List.mem_cons_self)
    by_cases hb : Bounded E n c
    · obtain ⟨s₁, hs₁, hk₁⟩ := hok hb
      have hfresh₁ : ∀ d ∈ cs, ∀ v, Reach E d v → ¬known s₁ v := by
        intro d hd v hv hk
        cases (hk₁ v).mp hk with
        | inl hold => exact hfresh d (List.mem_cons_of_mem c hd) v hv hold
        | inr hbelow => exact hc d hd v hbelow hv
      obtain ⟨hall, hnot⟩ := ih (fun d hd => hsearch d (List.mem_cons_of_mem c hd)) hcs hfresh₁
      constructor
      · intro hbs
        obtain ⟨s', hs', hk'⟩ := hall fun d hd => hbs d (List.mem_cons_of_mem c hd)
        refine ⟨s', ?_, fun v => ?_⟩
        · rw [List.foldlM_cons, hs₁]
          exact hs'
        · rw [hk' v, hk₁ v, or_assoc]
          simp
      · intro hbs
        rw [List.foldlM_cons, hs₁]
        exact hnot fun h => hbs (List.forall_mem_cons.mpr ⟨hb, h⟩)
    · constructor
      · exact fun h => absurd (h c List.mem_cons_self) hb
      · intro _
        rw [List.foldlM_cons, hno hb]
        rfl

/-- Where walks are determined by their ends, a depth-first traversal meets just what is
reached, if its levels suffice, and fails if they do not. -/
theorem DepthFirst.search_iff (hdfs : DepthFirst limit children known search)
    (hE : ∀ u v, v ∈ children u ↔ E u v) (hnodup : ∀ u, (children u).Nodup)
    {n : Nat} (hn : n ≤ limit) {u : α} {s : σ} (hu : Branching E u) (hfresh : ∀ v, Reach E u v → ¬known s v) :
    (Bounded E n u → ∃ s', search n u s = some s' ∧
      ∀ v, known s' v ↔ known s v ∨ Reach E u v) ∧
    (¬Bounded E n u → search n u s = none) := by
  induction n generalizing u s with
  | zero => exact ⟨fun h => absurd h not_bounded_zero, fun _ => hdfs.zero u s⟩
  | succ n ih =>
    obtain ⟨enter, leave, hstep, henter, hleave⟩ := hdfs.succ n u s hn (hfresh u (Reach.refl u))
    have hfresh' : ∀ c ∈ children u, ∀ v, Reach E c v → ¬known enter v := by
      intro c hc v hv hk
      have huc := (hE u c).mp hc
      cases (henter v).mp hk with
      | inl hold => exact hfresh v (hv.cons huc) hold
      | inr hroot => exact hu.no_return huc (hroot ▸ hv)
    have hapart : (children u).Pairwise fun c d => ∀ v, Reach E c v → ¬Reach E d v := by
      refine (hnodup u).imp_of_mem fun hc hd hne v hcv hdv => hne ?_
      exact hu.apart ((hE u _).mp hc) ((hE u _).mp hd) hcv hdv
    have hchildren := foldlM_search (n := n) (E := E)
      (fun c hc s hs => ih (Nat.le_of_succ_le hn) (hu.child ((hE u c).mp hc)) hs)
      hapart hfresh'
    have hbound : Bounded E (n + 1) u ↔ ∀ c ∈ children u, Bounded E n c := by
      rw [bounded_succ]
      exact forall_congr' fun c => by rw [hE]
    rw [hstep, hbound]
    refine ⟨fun hb => ?_, fun hb => ?_⟩
    · obtain ⟨t, ht, hk⟩ := hchildren.1 hb
      have hself : known t u := (hk u).mpr (.inl ((henter u).mpr (.inr rfl)))
      refine ⟨leave t, by rw [ht]; rfl, fun v => ?_⟩
      rw [hleave t hself v, hk v, henter v, reach_iff, or_assoc]
      simp only [hE]
    · rw [hchildren.2 hb]
      rfl

/-- Begun with nothing known, the traversal meets just the given nodes when its levels suffice
and each of them is reached. -/
theorem DepthFirst.spans_iff (hdfs : DepthFirst limit children known search)
    (hE : ∀ u v, v ∈ children u ↔ E u v) (hnodup : ∀ u, (children u).Nodup)
    {n : Nat} (hn : n ≤ limit) {s : σ} (hr : Branching E r) (hnone : ∀ v, ¬known s v)
    {nodes : List α} (hin : ∀ v, Reach E r v → v ∈ nodes) :
    (∃ s', search n r s = some s' ∧ (∀ v, known s' v → v ∈ nodes) ∧ ∀ v ∈ nodes, known s' v) ↔
      Bounded E n r ∧ ∀ v ∈ nodes, Reach E r v := by
  obtain ⟨hok, hfail⟩ := hdfs.search_iff hE hnodup hn hr fun v _ => hnone v
  by_cases hbound : Bounded E n r
  · obtain ⟨s', hs', hknown⟩ := hok hbound
    have hmet : ∀ v, known s' v ↔ Reach E r v := fun v => by simp [hknown v, hnone v]
    constructor
    · rintro ⟨t, ht, _, hall⟩
      obtain rfl := Option.some.inj (hs'.symm.trans ht)
      exact ⟨hbound, fun v hv => (hmet v).mp (hall v hv)⟩
    · rintro ⟨_, hall⟩
      exact ⟨s', hs', fun v hv => hin v ((hmet v).mp hv), fun v hv => (hmet v).mpr (hall v hv)⟩
  · constructor
    · rintro ⟨t, ht, _⟩
      cases (hfail hbound).symm.trans ht
    · exact fun h => absurd h.1 hbound

end

/-! The graph of a list of edges. -/

def edge (edges : List (α × α)) (u v : α) : Prop := (u, v) ∈ edges

section
variable [DecidableEq α] {edges : List (α × α)} {nodes : List α} {n : Nat}

def incoming (edges : List (α × α)) (v : α) : Nat := edges.countP fun e => e.2 = v

def outgoing (edges : List (α × α)) (u : α) : List α :=
  (edges.filter fun e => e.1 = u).map Prod.snd

theorem mem_outgoing : v ∈ outgoing edges u ↔ edge edges u v := by
  simp [outgoing, edge]

theorem nodup_outgoing (h : edges.Nodup) : (outgoing edges u).Nodup := by
  refine List.Nodup.map_on ?_ (h.filter _)
  intro e he f hf hef
  have heu : e.1 = u := by simpa using (List.mem_filter.mp he).2
  have hfu : f.1 = u := by simpa using (List.mem_filter.mp hf).2
  exact Prod.ext (heu.trans hfu.symm) hef

theorem incoming_eq_zero : incoming edges v = 0 ↔ ∀ u, ¬edge edges u v := by
  rw [incoming, List.countP_eq_zero]
  constructor
  · exact fun h u hu => by simpa using h (u, v) hu
  · rintro h ⟨u, w⟩ he
    have : w ≠ v := fun hw => h u (hw ▸ he)
    simpa using this

/-- Without repeated edges, one edge enters a node when it has one parent. -/
theorem incoming_eq_one (h : edges.Nodup) : incoming edges v = 1 ↔
    (∃ u, edge edges u v) ∧ ∀ u w, edge edges u v → edge edges w v → u = w := by
  have hfilter : incoming edges v = (edges.filter fun e => e.2 = v).length :=
    List.countP_eq_length_filter
  have hmem : ∀ u w, (u, w) ∈ edges.filter (fun e => e.2 = v) ↔ edge edges u v ∧ w = v := by
    intro u w
    rw [List.mem_filter]
    constructor
    · rintro ⟨he, hw⟩
      have hw : w = v := by simpa using hw
      exact ⟨hw ▸ he, hw⟩
    · rintro ⟨he, rfl⟩
      exact ⟨he, by simp⟩
  rw [hfilter]
  constructor
  · intro hone
    obtain ⟨⟨u, w⟩, he⟩ := List.length_eq_one_iff.mp hone
    refine ⟨⟨u, ((hmem u w).mp (he ▸ List.mem_singleton_self _)).1⟩, fun x y hx hy => ?_⟩
    have hx' := (hmem x v).mpr ⟨hx, rfl⟩
    have hy' := (hmem y v).mpr ⟨hy, rfl⟩
    rw [he, List.mem_singleton] at hx' hy'
    exact congrArg Prod.fst (hx'.trans hy'.symm)
  · rintro ⟨⟨u, hu⟩, hsame⟩
    have hall : ∀ e ∈ edges.filter (fun e => e.2 = v), e = (u, v) := by
      rintro ⟨x, w⟩ he
      obtain ⟨hx, rfl⟩ := (hmem x w).mp he
      rw [hsame x u hx hu]
    have hcount : (edges.filter fun e => e.2 = v).count (u, v) = 1 :=
      List.count_eq_one_of_mem (h.filter _) ((hmem u v).mpr ⟨hu, rfl⟩)
    rw [← hcount]
    exact (List.count_eq_length.mpr fun e he => (hall e he).symm).symm

omit [DecidableEq α] in
theorem reach_mem (hjoin : ∀ u v, edge edges u v → u ∈ nodes ∧ v ∈ nodes) (hr : r ∈ nodes)
    (h : Reach (edge edges) r v) : v ∈ nodes :=
  h.mem hr fun x y hxy => (hjoin x y hxy).2

/-- The numbers of entering edges make walks from the root unique. -/
theorem branching_of_incoming (h : edges.Nodup)
    (hjoin : ∀ u v, edge edges u v → u ∈ nodes ∧ v ∈ nodes)
    (hroot : incoming edges r = 0) (hother : ∀ v ∈ nodes, v ≠ r → incoming edges v = 1) :
    Branching (edge edges) r := by
  have hnone := incoming_eq_zero.mp hroot
  apply branching_of_parents hnone
  intro x y z hx hy
  have hz : z ≠ r := fun hzr => hnone x (hzr ▸ hx)
  exact ((incoming_eq_one h).mp (hother z (hjoin x z hx).2 hz)).2 x y hx hy

/-- The graph is a tree of at most `n` levels below its root: every node is reached by
exactly one walk, and it has at most `n` nodes. In terms of the edges: none enters the root
and one enters each other node, no walk is longer, and each node is reached at all. -/
theorem tree_iff (h : edges.Nodup) (hjoin : ∀ u v, edge edges u v → u ∈ nodes ∧ v ∈ nodes)
    (hr : r ∈ nodes) :
    (∀ v ∈ nodes, ∃ p, Walk (edge edges) r v p ∧ p.length ≤ n ∧
      ∀ q, Walk (edge edges) r v q → q = p) ↔
    (incoming edges r = 0 ∧ ∀ v ∈ nodes, v ≠ r → incoming edges v = 1) ∧
      Bounded (edge edges) n r ∧ ∀ v ∈ nodes, Reach (edge edges) r v := by
  constructor
  · intro htree
    have hreach : ∀ v ∈ nodes, Reach (edge edges) r v := fun v hv =>
      (htree v hv).elim fun p hp => ⟨p, hp.1⟩
    have hb : Branching (edge edges) r := by
      intro v p q hp hq
      obtain ⟨_, _, _, hone⟩ := htree v (reach_mem hjoin hr ⟨p, hp⟩)
      rw [hone p hp, hone q hq]
    refine ⟨⟨?_, fun v hv hne => ?_⟩, fun v p hp => ?_, hreach⟩
    · rw [incoming_eq_zero]
      exact fun u hu => hb.no_parent (hreach u (hjoin u r hu).1) hu
    · rw [incoming_eq_one h]
      obtain ⟨p, hp⟩ := hreach v hv
      refine ⟨?_, fun x y hx hy => ?_⟩
      · cases hp.last with
        | inl hstart => exact absurd hstart.1.symm hne
        | inr hstep =>
          obtain ⟨u, _, _, hu, _⟩ := hstep
          exact ⟨u, hu⟩
      · exact hb.one_parent (hreach x (hjoin x v hx).1) (hreach y (hjoin y v hy).1) hx hy
    · obtain ⟨p', _, hlen, hone⟩ := htree v (reach_mem hjoin hr ⟨p, hp⟩)
      rw [hone p hp]
      exact hlen
  · rintro ⟨⟨hroot, hother⟩, hbound, hreach⟩ v hv
    obtain ⟨p, hp⟩ := hreach v hv
    exact ⟨p, hp, hbound v p hp, fun q hq =>
      branching_of_incoming h hjoin hroot hother v q p hq hp⟩

end
end Rooted
