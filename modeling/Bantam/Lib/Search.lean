import Bantam.Lib.Rooted

/-! Depth-first search with a bound on the depth and one list of the nodes met. What it lists is
within the bound; what lies within the bound is listed when the way to it passes no node that
the search can meet first where the bound is spent. -/
namespace Rooted
variable {α : Type*} [DecidableEq α] {next : α → List α} {u v s : α} {met : List α} {n : Nat}

/-- The nodes met, after a search from a node with so many rounds left. -/
def search (next : α → List α) : Nat → List α → α → List α
  | 0, met, _ => met
  | n + 1, met, u =>
    if u ∈ met then met else (next u).foldl (search next n) (met ++ [u])

/-- The edges of a graph by its lists of successors. -/
abbrev Step (next : α → List α) (u v : α) : Prop := v ∈ next u

theorem search_of_mem (h : u ∈ met) : search next n met u = met := by
  cases n with
  | zero => rfl
  | succ n => exact if_pos h

theorem search_of_not_mem (h : u ∉ met) :
    search next (n + 1) met u = (next u).foldl (search next n) (met ++ [u]) := if_neg h

/-! The list only grows, and without repetitions. -/

omit [DecidableEq α] in
theorem foldl_grows {f : List α → α → List α} (hf : ∀ met u, met <+: f met u) (us : List α)
    (met : List α) : met <+: us.foldl f met := by
  induction us generalizing met with
  | nil => exact List.prefix_refl met
  | cons u us ih => exact (hf met u).trans (ih (f met u))

theorem search_grows (n : Nat) (met : List α) (u : α) : met <+: search next n met u := by
  induction n generalizing met u with
  | zero => exact List.prefix_refl met
  | succ n ih =>
    by_cases h : u ∈ met
    · simp [search_of_mem h]
    · rw [search_of_not_mem h]
      exact (List.prefix_append met [u]).trans (foldl_grows ih (next u) (met ++ [u]))

theorem foldl_search_grows (n : Nat) (us met : List α) :
    met <+: us.foldl (search next n) met := foldl_grows (search_grows n) us met

theorem mem_search (n : Nat) (met : List α) (u : α) : u ∈ search next (n + 1) met u := by
  by_cases h : u ∈ met
  · exact (search_grows (n + 1) met u).subset h
  · rw [search_of_not_mem h]
    apply (foldl_search_grows n (next u) (met ++ [u])).subset
    simp

theorem search_nodup (h : met.Nodup) : (search next n met u).Nodup := by
  induction n generalizing met u with
  | zero => exact h
  | succ n ih =>
    by_cases hu : u ∈ met
    · rw [search_of_mem hu]
      exact h
    · rw [search_of_not_mem hu]
      have hadd : (met ++ [u]).Nodup :=
        List.nodup_append.mpr ⟨h, List.nodup_singleton u, by
          intro a ha b hb
          rintro rfl
          exact hu (List.mem_singleton.mp hb ▸ ha)⟩
      generalize met ++ [u] = list at hadd
      induction next u generalizing list with
      | nil => exact hadd
      | cons c cs ihc => exact ihc _ (ih hadd)

theorem search_head (n : Nat) (u : α) : (search next (n + 1) [] u).head? = some u := by
  rw [search_of_not_mem List.not_mem_nil]
  have hgrows : [u] <+: (next u).foldl (search next n) [u] := foldl_search_grows n (next u) [u]
  obtain ⟨rest, hrest⟩ := hgrows
  rw [List.nil_append, ← hrest]
  rfl

/-! What is listed is within the rounds. -/

theorem search_sound (h : v ∈ search next n met u) :
    v ∈ met ∨ ∃ p, Walk (Step next) u v p ∧ p.length ≤ n := by
  induction n generalizing met u with
  | zero => exact .inl h
  | succ n ih =>
    by_cases hu : u ∈ met
    · rw [search_of_mem hu] at h
      exact .inl h
    rw [search_of_not_mem hu] at h
    -- a fold over successors of `u` adds only what a walk from one of them ends at
    have hfold : ∀ us list : List α, (∀ c ∈ us, c ∈ next u) → v ∈ us.foldl (search next n) list →
        v ∈ list ∨ ∃ p, Walk (Step next) u v p ∧ p.length ≤ n + 1 := by
      intro us
      induction us with
      | nil => exact fun list _ hv => .inl hv
      | cons c cs ihc =>
        intro list hcs hv
        have hrest := ihc (search next n list c) (fun x hx => hcs x (List.mem_cons_of_mem c hx)) hv
        cases hrest with
        | inr hwalk => exact .inr hwalk
        | inl hin =>
          cases ih hin with
          | inl hlist => exact .inl hlist
          | inr hwalk =>
            obtain ⟨p, hp, hlen⟩ := hwalk
            have hstep : Step next u c := hcs c List.mem_cons_self
            exact .inr ⟨u :: p, .cons hstep hp, Nat.succ_le_succ hlen⟩
    cases hfold (next u) (met ++ [u]) (fun c hc => hc) h with
    | inr hwalk => exact .inr hwalk
    | inl hin =>
      cases List.mem_append.mp hin with
      | inl hmet => exact .inl hmet
      | inr hself =>
        cases List.mem_singleton.mp hself
        exact .inr ⟨[v], .nil v, Nat.succ_le_succ (Nat.zero_le n)⟩

/-! The nodes met where the bound is spent. -/

/-- The node ends a walk of exactly so many nodes from the start, without repetitions. -/
def Deep (next : α → List α) (s : α) (size : Nat) (v : α) : Prop :=
  ∃ p, Walk (Step next) s v p ∧ p.Nodup ∧ p.length = size

/-- All the successors of a node are listed, or the bound can be spent on it. -/
def Spread (next : α → List α) (s : α) (size : Nat) (list : List α) (v : α) : Prop :=
  (∀ c ∈ next v, c ∈ list) ∨ Deep next s size v

omit [DecidableEq α] in
theorem Spread.mono {size : Nat} {list list' : List α} (h : Spread next s size list v)
    (hsub : list ⊆ list') : Spread next s size list' v := by
  cases h with
  | inl hall => exact .inl fun c hc => hsub (hall c hc)
  | inr hdeep => exact .inr hdeep

/-- The step over some successors, given what holds of the search from each. -/
theorem foldl_spread {size : Nat} (base : List α) {us list : List α}
    (hsearch : ∀ c ∈ us, ∀ met, base ⊆ met → ∀ v ∈ search next n met c, v ∉ met →
      Spread next s size (search next n met c) v)
    (hbase : base ⊆ list) (hnew : v ∈ us.foldl (search next n) list) (hold : v ∉ list) :
    Spread next s size (us.foldl (search next n) list) v := by
  induction us generalizing list with
  | nil => exact absurd hnew hold
  | cons c cs ih =>
    by_cases hc : v ∈ search next n list c
    · have hspread := hsearch c List.mem_cons_self list hbase v hc hold
      exact hspread.mono (foldl_search_grows n cs _).subset
    · have hrest := fun x hx => hsearch x (List.mem_cons_of_mem c hx)
      exact ih hrest (fun x hx => (search_grows n list c).subset (hbase hx)) hnew hc

theorem foldl_lists (hn : n ≠ 0) (us list : List α) :
    ∀ c ∈ us, c ∈ us.foldl (search next n) list := by
  obtain ⟨k, rfl⟩ := Nat.exists_eq_succ_of_ne_zero hn
  induction us generalizing list with
  | nil => exact fun c hc => absurd hc List.not_mem_nil
  | cons u us ih =>
    intro c hc
    cases List.mem_cons.mp hc with
    | inl hself =>
      subst hself
      exact (foldl_search_grows (k + 1) us _).subset (mem_search k list c)
    | inr hlater => exact ih _ c hlater

/-- What a search lists it spreads from. The stack holds the nodes under search, all of
them listed, and stack and rounds together make up the bound. -/
theorem search_spread {size : Nat} {stack : List α}
    (hwalk : Walk (Step next) s u (stack ++ [u])) (hnodup : stack.Nodup) (hsub : stack ⊆ met)
    (hsize : stack.length + n = size) (hnew : v ∈ search next n met u) (hold : v ∉ met) :
    Spread next s size (search next n met u) v := by
  induction n generalizing met u stack v with
  | zero => exact absurd hnew hold
  | succ n ih =>
    by_cases hu : u ∈ met
    · rw [search_of_mem hu] at hnew
      exact absurd hnew hold
    rw [search_of_not_mem hu] at hnew ⊢
    have hpath : (stack ++ [u]).Nodup :=
      List.nodup_append.mpr ⟨hnodup, List.nodup_singleton u, by
        intro a ha b hb
        rintro rfl
        exact hu (hsub (List.mem_singleton.mp hb ▸ ha))⟩
    by_cases hself : v = u
    · subst hself
      by_cases hspent : n = 0
      · refine .inr ⟨stack ++ [v], hwalk, hpath, ?_⟩
        rw [List.length_append, List.length_singleton]
        omega
      · exact .inl (foldl_lists hspent (next v) _)
    · refine foldl_spread (met ++ [u]) ?_ (fun x hx => hx) hnew ?_
      · intro c hc list hlist w hw hwold
        have hstack : stack ++ [u] ⊆ list := by
          intro x hx
          apply hlist
          cases List.mem_append.mp hx with
          | inl hin => exact List.mem_append_left [u] (hsub hin)
          | inr hlast => exact List.mem_append_right met hlast
        apply ih (hwalk.snoc hc) hpath hstack _ hw hwold
        rw [List.length_append, List.length_singleton]
        omega
      · rw [List.mem_append, List.mem_singleton]
        exact fun h => h.elim hold hself

/-- What a search from the start lists it spreads from. -/
theorem search_start_spread (h : v ∈ search next n [] s) :
    Spread next s n (search next n [] s) v :=
  search_spread (show Walk (Step next) s s ([] ++ [s]) from .nil s) List.nodup_nil (List.nil_subset []) (Nat.zero_add n) h
    List.not_mem_nil

/-- The walk passes no node, its end apart, on which the bound can be spent. -/
def Open (next : α → List α) (s : α) (size : Nat) (p : List α) : Prop :=
  ∀ u ∈ p.dropLast, ¬Deep next s size u

/-- The search lists the end of every open walk from a node it lists. -/
theorem search_complete {p : List α} (hu : u ∈ search next n [] s)
    (hp : Walk (Step next) u v p) (hopen : Open next s n p) : v ∈ search next n [] s := by
  induction hp with
  | nil u => exact hu
  | @cons u c w q hstep t ih =>
    have hdrop : (u :: q).dropLast = u :: q.dropLast := List.dropLast_cons_of_ne_nil t.ne_nil
    rw [Open, hdrop] at hopen
    apply ih _ (fun x hx => hopen x (List.mem_cons_of_mem u hx))
    cases search_start_spread hu with
    | inl hall => exact hall c hstep
    | inr hdeep => exact absurd hdeep (hopen u List.mem_cons_self)

end Rooted
