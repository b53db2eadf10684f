import Mathlib.Data.List.Nodup
import Mathlib.Algebra.BigOperators.Group.List.Basic
import Mathlib.Tactic.Common

/-! Relational tables as lists of rows: lookup by a key column, conditional update,
key constraints and column totals. -/
namespace Tables
variable {ρ κ M : Type*}

/-- The rows of the table carry pairwise different keys. -/
def Keyed (key : ρ → κ) (rows : List ρ) : Prop := (rows.map key).Nodup

def lookup [DecidableEq κ] (key : ρ → κ) (k : κ) (rows : List ρ) : Option ρ :=
  rows.find? fun r => decide (key r = k)

def updateWhere (p : ρ → Bool) (f : ρ → ρ) (rows : List ρ) : List ρ :=
  rows.map fun r => if p r then f r else r

def sumWhere [AddMonoid M] (p : ρ → Bool) (f : ρ → M) (rows : List ρ) : M :=
  ((rows.filter p).map f).sum

/-- An `UPDATE` row by row, in the order of the table: each new version is checked against the
versions that the others have at that moment, as an immediate uniqueness constraint is. -/
def updateRows {ε : Type*} (clash : ρ → ρ → Bool) (duplicate : ε) (targets : ρ → Bool)
    (version : ρ → Except ε ρ) : List ρ → List ρ → Except ε (List ρ)
  | done, [] => .ok done
  | done, r :: rest =>
    if targets r then
      match version r with
      | .error e => .error e
      | .ok r' =>
        if (done ++ rest).any (clash r') then .error duplicate
        else updateRows clash duplicate targets version (done ++ [r']) rest
    else updateRows clash duplicate targets version (done ++ [r]) rest

/-- The row under a key is not the row that was there. -/
def Changed [DecidableEq κ] (key : ρ → κ) (rows rows' : List ρ) (k : κ) : Prop :=
  lookup key k rows' ≠ lookup key k rows

section Lookup
variable [DecidableEq κ] {key : ρ → κ} {k : κ} {rows : List ρ} {r : ρ}

theorem lookup_mem (h : lookup key k rows = some r) : r ∈ rows :=
  List.mem_of_find?_eq_some h

theorem lookup_key (h : lookup key k rows = some r) : key r = k := by
  simpa using List.find?_some h

theorem lookup_none_iff : lookup key k rows = none ↔ k ∉ rows.map key := by
  simp [lookup, List.find?_eq_none]

theorem lookup_isSome_iff : (lookup key k rows).isSome ↔ k ∈ rows.map key := by
  rw [← not_iff_not, ← lookup_none_iff]
  simp

theorem key_mem_of_lookup (h : lookup key k rows = some r) : k ∈ rows.map key :=
  lookup_isSome_iff.mp (h ▸ rfl)

theorem lookup_eq_some_iff (hk : Keyed key rows) :
    lookup key k rows = some r ↔ r ∈ rows ∧ key r = k := by
  constructor
  · intro h
    exact ⟨lookup_mem h, lookup_key h⟩
  · rintro ⟨hr, rfl⟩
    cases h : lookup key (key r) rows with
    | none => exact absurd (List.mem_map_of_mem hr) (lookup_none_iff.mp h)
    | some q =>
      have he := lookup_key h
      rw [List.inj_on_of_nodup_map hk (lookup_mem h) hr he]

theorem lookup_append (more : List ρ) :
    lookup key k (rows ++ more) = (lookup key k rows).or (lookup key k more) := by
  simp [lookup, List.find?_append]

theorem lookup_append_of_some (more : List ρ) (h : lookup key k rows = some r) :
    lookup key k (rows ++ more) = some r := by
  simp [lookup_append, h]

/-- An update that keeps keys acts on the row that a lookup finds. -/
theorem lookup_updateWhere {p : ρ → Bool} {f : ρ → ρ} (hf : ∀ r, key (f r) = key r) :
    lookup key k (updateWhere p f rows)
      = (lookup key k rows).map fun r => if p r then f r else r := by
  induction rows with
  | nil => rfl
  | cons q rows ih =>
    have hq : key (if p q then f q else q) = key q := by split <;> simp [hf]
    by_cases hk : key q = k
    · simp [lookup, updateWhere, hq, hk]
    · simpa [lookup, updateWhere, hq, hk] using ih

/-- An update of rows under other keys, which leaves them under other keys. -/
theorem lookup_updateWhere_other {p : ρ → Bool} {f : ρ → ρ} (hp : ∀ r, p r = true → key r ≠ k)
    (hf : ∀ r, p r = true → key (f r) ≠ k) :
    lookup key k (updateWhere p f rows) = lookup key k rows := by
  induction rows with
  | nil => rfl
  | cons q rows ih =>
    by_cases hq : p q = true
    · simpa [lookup, updateWhere, hq, hp q hq, hf q hq] using ih
    · by_cases hk : key q = k
      · simp [lookup, updateWhere, hq, hk]
      · simpa [lookup, updateWhere, hq, hk] using ih

/-- The update changes the row under a key when it reaches that row and alters it. -/
theorem changed_updateWhere {p : ρ → Bool} {f : ρ → ρ} (hf : ∀ r, key (f r) = key r)
    (ha : ∀ r, p r = true → f r ≠ r) :
    Changed key rows (updateWhere p f rows) k ↔ ∃ r, lookup key k rows = some r ∧ p r = true := by
  rw [Changed, lookup_updateWhere hf]
  cases h : lookup key k rows with
  | none => simp
  | some r =>
    by_cases hp : p r = true
    · simp [hp, ha r hp]
    · simp [hp]
end Lookup

section Keys
variable {key : ρ → κ} {rows : List ρ}

theorem keyed_nil : Keyed key [] := List.nodup_nil

theorem keyed_append_one {r : ρ} :
    Keyed key (rows ++ [r]) ↔ Keyed key rows ∧ key r ∉ rows.map key := by
  simp only [Keyed, List.map_append, List.map_cons, List.map_nil]
  rw [List.nodup_append]
  constructor
  · rintro ⟨h, -, hd⟩
    exact ⟨h, fun hm => hd _ hm _ (by simp) rfl⟩
  · rintro ⟨h, hn⟩
    refine ⟨h, by simp, ?_⟩
    rintro a ha b hb rfl
    simp only [List.mem_singleton] at hb
    exact hn (hb ▸ ha)

theorem Keyed.eq_of_key (h : Keyed key rows) {a b : ρ} (ha : a ∈ rows) (hb : b ∈ rows)
    (he : key a = key b) : a = b :=
  List.inj_on_of_nodup_map h ha hb he

theorem map_updateWhere {β : Type*} (g : ρ → β) (p : ρ → Bool) (f : ρ → ρ)
    (hf : ∀ r, g (f r) = g r) : (updateWhere p f rows).map g = rows.map g := by
  simp only [updateWhere, List.map_map]
  refine List.map_congr_left fun r _ => ?_
  simp only [Function.comp_apply]
  split <;> simp [hf]

theorem keyed_updateWhere (p : ρ → Bool) {f : ρ → ρ} (hf : ∀ r, key (f r) = key r) :
    Keyed key (updateWhere p f rows) ↔ Keyed key rows := by
  rw [Keyed, map_updateWhere key p f hf, Keyed]
end Keys

section Update
variable {p : ρ → Bool} {f : ρ → ρ} {rows : List ρ} {r : ρ}

theorem mem_updateWhere :
    r ∈ updateWhere p f rows ↔ ∃ q ∈ rows, (if p q then f q else q) = r := by
  simp [updateWhere]

/-- A row after an update is one that it left alone or what it made of one. -/
theorem updateWhere_cases (h : r ∈ updateWhere p f rows) :
    (r ∈ rows ∧ p r = false) ∨ ∃ q ∈ rows, p q = true ∧ r = f q := by
  obtain ⟨q, hq, he⟩ := mem_updateWhere.mp h
  cases hp : p q with
  | false =>
    rw [hp, if_neg Bool.false_ne_true] at he
    exact .inl ⟨he ▸ hq, he ▸ hp⟩
  | true =>
    rw [hp, if_pos rfl] at he
    exact .inr ⟨q, hq, hp, he.symm⟩

/-- An update that brings no row to meet the condition. -/
theorem any_updateWhere {cond : ρ → Bool} (hf : ∀ q, cond (f q) = true → cond q = true)
    (h : (updateWhere p f rows).any cond = true) : rows.any cond = true := by
  obtain ⟨r, hr, hc⟩ := List.any_eq_true.mp h
  cases updateWhere_cases hr with
  | inl hold => exact List.any_eq_true.mpr ⟨r, hold.1, hc⟩
  | inr hnew =>
    obtain ⟨q, hq, -, rfl⟩ := hnew
    exact List.any_eq_true.mpr ⟨q, hq, hf q hc⟩

theorem mem_updateWhere_of_not (hr : r ∈ rows) (hp : p r = false) :
    r ∈ updateWhere p f rows :=
  mem_updateWhere.mpr ⟨r, hr, by simp [hp]⟩

theorem mem_updateWhere_of (hr : r ∈ rows) (hp : p r = true) :
    f r ∈ updateWhere p f rows :=
  mem_updateWhere.mpr ⟨r, hr, by simp [hp]⟩

theorem forall_updateWhere {Q : ρ → Prop} (h : ∀ q ∈ rows, p q = false → Q q)
    (hf : ∀ q ∈ rows, p q = true → Q (f q)) : ∀ r ∈ updateWhere p f rows, Q r := by
  intro r hr
  obtain ⟨q, hq, rfl⟩ := mem_updateWhere.mp hr
  cases hp : p q with
  | false => simpa using h q hq hp
  | true => simpa using hf q hq hp

/-- What an `UPDATE` that passed has made of a row: its new version, or the row itself. -/
def Updated {ε : Type*} (targets : ρ → Bool) (version : ρ → Except ε ρ) (r r' : ρ) : Prop :=
  if targets r then version r = .ok r' else r' = r

theorem updateRows_ok {ε : Type*} {clash : ρ → ρ → Bool} {duplicate : ε} {targets : ρ → Bool}
    {version : ρ → Except ε ρ} {done todo rows : List ρ}
    (h : updateRows clash duplicate targets version done todo = .ok rows) :
    (∀ r' ∈ rows, r' ∈ done ∨ ∃ r ∈ todo, Updated targets version r r') ∧
    (∀ r ∈ done, r ∈ rows) ∧ ∀ r ∈ todo, ∃ r' ∈ rows, Updated targets version r r' := by
  induction todo generalizing done with
  | nil =>
    cases h
    exact ⟨fun r hr => .inl hr, fun r hr => hr, fun r hr => by cases hr⟩
  | cons r rest ih =>
    -- the row has become `q`, and the rest is updated after it
    have extend : ∀ q, Updated targets version r q →
        updateRows clash duplicate targets version (done ++ [q]) rest = .ok rows →
        (∀ r' ∈ rows, r' ∈ done ∨ ∃ x ∈ r :: rest, Updated targets version x r') ∧
        (∀ x ∈ done, x ∈ rows) ∧ ∀ x ∈ r :: rest, ∃ r' ∈ rows, Updated targets version x r' := by
      intro q hq hrest
      obtain ⟨hfrom, hdone, htodo⟩ := ih hrest
      refine ⟨fun r' hr' => ?_, fun x hx => hdone x (List.mem_append_left _ hx), fun x hx => ?_⟩
      · cases hfrom r' hr' with
        | inl hold =>
          cases List.mem_append.mp hold with
          | inl hold => exact .inl hold
          | inr hnew => exact .inr ⟨r, List.mem_cons_self, List.mem_singleton.mp hnew ▸ hq⟩
        | inr hnew =>
          obtain ⟨x, hx, hupdated⟩ := hnew
          exact .inr ⟨x, List.mem_cons_of_mem r hx, hupdated⟩
      · cases List.mem_cons.mp hx with
        | inl he => exact ⟨q, hdone q (by simp), he ▸ hq⟩
        | inr hx => exact htodo x hx
    simp only [updateRows] at h
    split_ifs at h with ht
    · cases hv : version r with
      | error e => simp [hv] at h
      | ok q =>
        simp only [hv] at h
        split_ifs at h
        exact extend q (by simp [Updated, ht, hv]) h
    · exact extend r (by simp [Updated, ht]) h

/-- Rows that clash when they share a key keep their keys different. -/
theorem keyed_updateRows {ε : Type*} {clash : ρ → ρ → Bool} {duplicate : ε} {targets : ρ → Bool}
    {version : ρ → Except ε ρ} {key : ρ → κ} {done todo rows : List ρ}
    (hclash : ∀ r q, key r = key q → clash r q = true)
    (h : updateRows clash duplicate targets version done todo = .ok rows)
    (hk : Keyed key (done ++ todo)) : Keyed key rows := by
  induction todo generalizing done with
  | nil =>
    cases h
    simpa using hk
  | cons r rest ih =>
    simp only [updateRows] at h
    split_ifs at h with ht
    · cases hv : version r with
      | error e => simp [hv] at h
      | ok r' =>
        simp only [hv] at h
        split_ifs at h with hany
        refine ih h ?_
        have hperm : (done ++ r :: rest).Perm (r :: (done ++ rest)) := List.perm_middle
        have hrest : Keyed key (done ++ rest) :=
          List.Nodup.of_cons ((hperm.map key).nodup_iff.mp hk)
        have hnew : key r' ∉ (done ++ rest).map key := by
          intro hmem
          obtain ⟨q, hq, he⟩ := List.mem_map.mp hmem
          exact hany (List.any_eq_true.mpr ⟨q, hq, hclash r' q he.symm⟩)
        have hperm' : (done ++ [r'] ++ rest).Perm (r' :: (done ++ rest)) := by
          rw [List.append_assoc]
          exact List.perm_middle
        exact (hperm'.map key).nodup_iff.mpr (List.nodup_cons.mpr ⟨hnew, hrest⟩)
    · exact ih h (by simpa using hk)

theorem updateWhere_of_none (h : ∀ q ∈ rows, p q = false) : updateWhere p f rows = rows := by
  calc
    updateWhere p f rows = rows.map id :=
      List.map_congr_left fun q hq => by simp [h q hq]
    _ = rows := List.map_id rows
end Update

section Sums
variable [AddCommMonoid M] {p : ρ → Bool} {f : ρ → M} {rows : List ρ}

@[simp] theorem sumWhere_nil : sumWhere p f [] = 0 := rfl

theorem sumWhere_cons (r : ρ) :
    sumWhere p f (r :: rows) = (if p r then f r else 0) + sumWhere p f rows := by
  cases h : p r <;> simp [sumWhere, h]

theorem sumWhere_append (more : List ρ) :
    sumWhere p f (rows ++ more) = sumWhere p f rows + sumWhere p f more := by
  simp [sumWhere]

/-- A keyed row that moves by `delta` moves the column's total by as much. -/
theorem sum_updateWhere [DecidableEq κ] {key : ρ → κ} {k : κ} {g : ρ → ρ} {delta : M}
    (hk : Keyed key rows) (hm : k ∈ rows.map key) (hg : ∀ r, f (g r) = f r + delta) :
    ((updateWhere (fun r => decide (key r = k)) g rows).map f).sum =
      (rows.map f).sum + delta := by
  induction rows with
  | nil => cases hm
  | cons r rows ih =>
    have htail : Keyed key rows := List.Nodup.of_cons hk
    have hout : key r ∉ rows.map key := List.Nodup.notMem hk
    by_cases h : key r = k
    · have hrest : updateWhere (fun r => decide (key r = k)) g rows = rows := by
        have hnone : ∀ q ∈ rows, decide (key q = k) = false := by
          intro q hq
          simp only [decide_eq_false_iff_not]
          intro he
          exact hout (h.trans he.symm ▸ List.mem_map_of_mem hq)
        simpa [updateWhere] using updateWhere_of_none (f := g) hnone
      calc
        ((updateWhere (fun r => decide (key r = k)) g (r :: rows)).map f).sum
            = f (g r) + ((updateWhere (fun r => decide (key r = k)) g rows).map f).sum := by
          simp [updateWhere, h]
        _ = (f r + delta) + (rows.map f).sum := by rw [hrest, hg]
        _ = ((r :: rows).map f).sum + delta := by
          rw [List.map_cons, List.sum_cons, add_right_comm]
    · have hin : k ∈ rows.map key := by
        cases List.mem_cons.mp hm with
        | inl he => exact absurd he.symm h
        | inr hin => exact hin
      calc
        ((updateWhere (fun r => decide (key r = k)) g (r :: rows)).map f).sum
            = f r + ((updateWhere (fun r => decide (key r = k)) g rows).map f).sum := by
          simp [updateWhere, h]
        _ = f r + ((rows.map f).sum + delta) := by rw [ih htail hin]
        _ = ((r :: rows).map f).sum + delta := by
          rw [List.map_cons, List.sum_cons, add_assoc]

theorem sumWhere_of_none (h : ∀ r ∈ rows, p r = false) : sumWhere p f rows = 0 := by
  have hf : rows.filter p = [] := List.filter_eq_nil_iff.mpr fun r hr => by simp [h r hr]
  simp [sumWhere, hf]
end Sums
end Tables
