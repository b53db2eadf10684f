import Bantam.Lib.Rooted

/-! Worklists over a table: names are taken from the front of a queue, a name that the table has
is kept with its entry, and the names that the entry refers to join the queue. -/
namespace Worklist
variable {κ ν : Type*} [DecidableEq κ]

/-- Entries under finitely many names, and the names that an entry refers to. -/
structure Table (κ ν : Type*) where
  lookup : κ → Option ν
  refs : ν → List κ
  names : List κ
  listed : ∀ a b, lookup a = some b → a ∈ names

variable {T : Table κ ν} {roots pending more : List κ} {kept : List (κ × ν)} {a c : κ} {b : ν}

/-- The names that have no entry kept. -/
def Table.open (T : Table κ ν) (kept : List (κ × ν)) : List κ :=
  T.names.filter fun a => decide (a ∉ kept.map Prod.fst)

theorem open_snoc_lt (ha : a ∉ kept.map Prod.fst) (hb : T.lookup a = some b) :
    (T.open (kept ++ [(a, b)])).length < (T.open kept).length := by
  have hsub : (T.open (kept ++ [(a, b)])).Sublist (T.open kept) := by
    apply List.monotone_filter_right
    intro c hc
    simp only [decide_eq_true_eq] at hc ⊢
    exact fun hmem => hc (by simp [List.map_append, hmem])
  refine Nat.lt_of_le_of_ne hsub.length_le fun heq => ?_
  have hsame := hsub.eq_of_length heq
  have hopen : a ∈ T.open kept := List.mem_filter.mpr ⟨T.listed a b hb, by simpa using ha⟩
  rw [← hsame] at hopen
  simpa using (List.mem_filter.mp hopen).2

/-- What an entry refers to and is not kept. -/
def Table.fresh (T : Table κ ν) (kept : List (κ × ν)) (b : ν) : List κ :=
  (T.refs b).filter fun c => decide (c ∉ kept.map Prod.fst)

/-- The names left to handle; each round handles one or lists one name fewer as open. -/
def close (T : Table κ ν) (kept : List (κ × ν)) : List κ → List (κ × ν)
  | [] => kept
  | a :: pending =>
    if _ha : a ∈ kept.map Prod.fst then close T kept pending
    else match _hb : T.lookup a with
      | none => close T kept pending
      | some b => close T (kept ++ [(a, b)]) (pending ++ T.fresh (kept ++ [(a, b)]) b)
termination_by pending => ((T.open kept).length, pending.length)
decreasing_by
  · exact Prod.Lex.right _ (Nat.lt_succ_self _)
  · exact Prod.Lex.right _ (Nat.lt_succ_self _)
  · exact Prod.Lex.left _ _ (open_snoc_lt _ha _hb)

/-- An entry refers to a name. -/
def Table.Edge (T : Table κ ν) (a c : κ) : Prop := ∃ b, T.lookup a = some b ∧ c ∈ T.refs b

def Table.Reached (T : Table κ ν) (roots : List κ) (a : κ) : Prop :=
  ∃ r ∈ roots, Rooted.Reach T.Edge r a

/-- Nothing is lost at a name: it is kept, it is queued or it has no entry. -/
def Table.Handled (T : Table κ ν) (kept : List (κ × ν)) (pending : List κ) (a : κ) : Prop :=
  a ∈ kept.map Prod.fst ∨ a ∈ pending ∨ T.lookup a = none

/-- What the loop keeps to. -/
structure Progress (T : Table κ ν) (roots : List κ) (kept : List (κ × ν)) (pending : List κ) :
    Prop where
  nodup : (kept.map Prod.fst).Nodup
  entry : ∀ a b, (a, b) ∈ kept → T.lookup a = some b ∧ T.Reached roots a
  queued : ∀ a ∈ pending, T.Reached roots a
  root : ∀ a ∈ roots, T.Handled kept pending a
  edge : ∀ a b, (a, b) ∈ kept → ∀ c ∈ T.refs b, T.Handled kept pending c

omit [DecidableEq κ] in
theorem Progress.start : Progress T roots [] roots where
  nodup := List.nodup_nil
  entry := fun _ _ h => absurd h List.not_mem_nil
  queued := fun a ha => ⟨a, ha, Rooted.Reach.refl a⟩
  root := fun _ ha => .inr (.inl ha)
  edge := fun _ _ h => absurd h List.not_mem_nil

omit [DecidableEq κ] in
theorem Handled.skip (h : T.Handled kept (a :: pending) c)
    (ha : a ∈ kept.map Prod.fst ∨ T.lookup a = none) : T.Handled kept pending c := by
  obtain hkept | hqueued | hnone := h
  · exact .inl hkept
  · cases List.mem_cons.mp hqueued with
    | inl heq => exact heq ▸ ha.elim .inl fun hnone => .inr (.inr hnone)
    | inr htail => exact .inr (.inl htail)
  · exact .inr (.inr hnone)

omit [DecidableEq κ] in
/-- A name that is kept already or has no entry leaves the queue. -/
theorem Progress.skip (h : Progress T roots kept (a :: pending))
    (ha : a ∈ kept.map Prod.fst ∨ T.lookup a = none) : Progress T roots kept pending where
  nodup := h.nodup
  entry := h.entry
  queued := fun c hc => h.queued c (List.mem_cons_of_mem a hc)
  root := fun c hc => Handled.skip (h.root c hc) ha
  edge := fun c b hc d hd => Handled.skip (h.edge c b hc d hd) ha

omit [DecidableEq κ] in
theorem Handled.keep (h : T.Handled kept (a :: pending) c) (more : List κ) (b : ν) :
    T.Handled (kept ++ [(a, b)]) (pending ++ more) c := by
  obtain hkept | hqueued | hnone := h
  · exact .inl (by simp [List.map_append, hkept])
  · cases List.mem_cons.mp hqueued with
    | inl heq => exact .inl (by simp [List.map_append, heq])
    | inr htail => exact .inr (.inl (List.mem_append_left more htail))
  · exact .inr (.inr hnone)

/-- A name with an entry is kept, and what the entry refers to is queued where it is not kept. -/
theorem Progress.keep (h : Progress T roots kept (a :: pending)) (ha : a ∉ kept.map Prod.fst)
    (hb : T.lookup a = some b) :
    Progress T roots (kept ++ [(a, b)]) (pending ++ T.fresh (kept ++ [(a, b)]) b) := by
  have hreached : T.Reached roots a := h.queued a List.mem_cons_self
  refine ⟨?_, ?_, ?_, fun c hc => Handled.keep (h.root c hc) _ b, ?_⟩
  · rw [List.map_append, List.nodup_append']
    exact ⟨h.nodup, List.nodup_singleton a, by simpa [List.disjoint_singleton] using ha⟩
  · intro c d hcd
    cases List.mem_append.mp hcd with
    | inl hold => exact h.entry c d hold
    | inr hnew =>
      cases List.mem_singleton.mp hnew
      exact ⟨hb, hreached⟩
  · intro c hc
    cases List.mem_append.mp hc with
    | inl hold => exact h.queued c (List.mem_cons_of_mem a hold)
    | inr hnew =>
      obtain ⟨r, hr, hpath⟩ := hreached
      exact ⟨r, hr, hpath.snoc ⟨b, hb, (List.mem_filter.mp hnew).1⟩⟩
  · intro c d hcd e he
    cases List.mem_append.mp hcd with
    | inl hold => exact Handled.keep (h.edge c d hold e he) _ b
    | inr hnew =>
      cases List.mem_singleton.mp hnew
      by_cases hkept : e ∈ (kept ++ [(a, b)]).map Prod.fst
      · exact .inl hkept
      · exact .inr (.inl (List.mem_append_right _ (List.mem_filter.mpr ⟨he, by simpa using hkept⟩)))

/-- The loop ends with an empty queue. -/
theorem Progress.close (h : Progress T roots kept pending) :
    Progress T roots (close T kept pending) [] := by
  fun_induction Worklist.close T kept pending with
  | case1 => exact h
  | case2 kept a pending ha ih => exact ih (h.skip (.inl ha))
  | case3 kept a pending ha hb ih => exact ih (h.skip (.inr hb))
  | case4 kept a pending ha b hb ih => exact ih (h.keep ha hb)

omit [DecidableEq κ] in
/-- With nothing queued, what is reached and has an entry is kept. -/
theorem Progress.complete (h : Progress T roots kept []) (ha : T.Reached roots a)
    (hb : T.lookup a = some b) : (a, b) ∈ kept := by
  have hwalk : ∀ u v p, Rooted.Walk T.Edge u v p → T.Handled kept [] u → T.Handled kept [] v := by
    intro u v p hp
    induction hp with
    | nil u => exact id
    | @cons u v w p he _ ih =>
      intro hu
      obtain ⟨d, hd, hv⟩ := he
      obtain hkept | hqueued | hnone := hu
      · obtain ⟨entry, hin, rfl⟩ := List.mem_map.mp hkept
        have hsame := (h.entry entry.1 entry.2 hin).1.symm.trans hd
        cases Option.some.inj hsame
        exact ih (h.edge entry.1 entry.2 hin v hv)
      · exact absurd hqueued List.not_mem_nil
      · exact absurd (hnone.symm.trans hd) (Option.some_ne_none d).symm
  obtain ⟨r, hr, p, hp⟩ := ha
  obtain hkept | hqueued | hnone := hwalk r a p hp (h.root r hr)
  · obtain ⟨entry, hin, rfl⟩ := List.mem_map.mp hkept
    cases Option.some.inj ((h.entry entry.1 entry.2 hin).1.symm.trans hb)
    exact hin
  · exact absurd hqueued List.not_mem_nil
  · exact absurd (hnone.symm.trans hb) (Option.some_ne_none b).symm

/-- Kept is what has an entry and is reached from the first queue. -/
theorem mem_close : (a, b) ∈ close T [] roots ↔ T.lookup a = some b ∧ T.Reached roots a := by
  have hdone : Progress T roots (close T [] roots) [] := Progress.start.close
  exact ⟨hdone.entry a b, fun h => hdone.complete h.2 h.1⟩

theorem nodup_close : ((close T [] roots).map Prod.fst).Nodup := Progress.start.close.nodup

end Worklist
