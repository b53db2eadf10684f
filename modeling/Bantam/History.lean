import Bantam.Writes
import Bantam.Lib.Runs

/-! The transaction history: no row leaves it, its keys stay unique, and the only change
a row ever sees is the reversal that another row of the history records. -/
namespace Bantam
open Tables
variable {db db' db'' : Db} {attempt : Attempt} {cmd : NormalisedCommand}

structure Recorded (db : Db) : Prop where
  idsKeyed : Keyed Transaction.transactionId db.transactions
  identitiesKeyed : Keyed Transaction.identity db.transactions

theorem Recorded.migrated : Recorded Db.migrated := ⟨keyed_nil, keyed_nil⟩

theorem Recorded.congr (h : Recorded db) (ht : db'.transactions = db.transactions) :
    Recorded db' :=
  ⟨ht ▸ h.idsKeyed, ht ▸ h.identitiesKeyed⟩

/-- A row is under its identity, and under no other. -/
theorem Recorded.findByIdempotency (h : Recorded db) {t : Transaction}
    (ht : t ∈ db.transactions) :
    db.findByIdempotency t.initiatedByUserId t.idempotencyKey = some t :=
  (lookup_eq_some_iff h.identitiesKeyed).mpr ⟨ht, rfl⟩

theorem Recorded.findTransaction (h : Recorded db) {t : Transaction}
    (ht : t ∈ db.transactions) : db.findTransaction t.transactionId = some t :=
  (lookup_eq_some_iff h.idsKeyed).mpr ⟨ht, rfl⟩

theorem Recorded.posting (hp : Posted attempt cmd db db') (h : Recorded db) : Recorded db' := by
  constructor
  · rw [hp.transactions, Keyed, Db.reversedTransactions_map _ fun _ => rfl]
    exact keyed_append_one.mpr ⟨h.idsKeyed, hp.freshId⟩
  · rw [hp.transactions, Keyed, Db.reversedTransactions_map _ fun _ => rfl]
    exact keyed_append_one.mpr ⟨h.identitiesKeyed, hp.freshKey⟩

theorem Write.transactions {touched : List Uuid} (w : Write touched db db') :
    db'.transactions = db.transactions := by
  cases w <;> rfl

theorem Writes.transactions {touched : List Uuid} (w : Writes touched db db') :
    db'.transactions = db.transactions := by
  induction w with
  | refl => rfl
  | tail _ w ih => rw [w.transactions, ih]

/-- Every row of the first history is in the second, as it was or reversed by another row. -/
def Kept (db db' : Db) : Prop :=
  ∀ t ∈ db.transactions, t ∈ db'.transactions ∨
    (t.reverse ∈ db'.transactions ∧
      ∃ r ∈ db'.transactions, r.reversesTransactionId = some t.transactionId)

namespace Kept

theorem of_eq (h : db'.transactions = db.transactions) : Kept db db' :=
  fun _ ht => .inl (h ▸ ht)

theorem refl (db : Db) : Kept db db := of_eq rfl

theorem trans (h : Kept db db') (h' : Kept db' db'') : Kept db db'' := by
  -- the row that records a reversal is itself kept, and keeps what it reverses
  have recorded : ∀ id, (∃ r ∈ db'.transactions, r.reversesTransactionId = some id) →
      ∃ r ∈ db''.transactions, r.reversesTransactionId = some id := by
    rintro id ⟨r, hr, ho⟩
    cases h' r hr with
    | inl hr => exact ⟨r, hr, ho⟩
    | inr hreversed =>
      obtain ⟨hr, -⟩ := hreversed
      exact ⟨r.reverse, hr, ho⟩
  intro t ht
  cases h t ht with
  | inl ht => exact h' t ht
  | inr hreversed =>
    obtain ⟨ht, hr⟩ := hreversed
    cases h' _ ht with
    | inl ht => exact .inr ⟨ht, recorded _ hr⟩
    | inr hreversed =>
      obtain ⟨ht, -⟩ := hreversed
      exact .inr ⟨ht, recorded _ hr⟩

theorem posting (hp : Posted attempt cmd db db') : Kept db db' := by
  intro t ht
  have hmem : t ∈ db.transactions ++ [newTransaction attempt cmd] := List.mem_append_left _ ht
  rw [hp.transactions]
  cases ho : cmd.reversesTransactionId with
  | none => exact .inl hmem
  | some id =>
    by_cases hid : t.transactionId = id
    · refine .inr ⟨mem_updateWhere_of hmem (by simpa using hid), ?_⟩
      have hnew : newTransaction attempt cmd ∈ db.transactions ++ [newTransaction attempt cmd] := by
        simp
      by_cases hn : (newTransaction attempt cmd).transactionId = id
      · exact ⟨_, mem_updateWhere_of hnew (by simpa using hn), by rw [hid]; exact ho⟩
      · exact ⟨_, mem_updateWhere_of_not hnew (by simpa using hn), by rw [hid]; exact ho⟩
    · exact .inl (mem_updateWhere_of_not hmem (by simpa using hid))

/-- What an identity finds later is what it found, up to a recorded reversal. -/
theorem findByIdempotency (h : Kept db db') (hr : Recorded db') {t : Transaction}
    (ht : t ∈ db.transactions) :
    db'.findByIdempotency t.initiatedByUserId t.idempotencyKey = some t ∨
    (db'.findByIdempotency t.initiatedByUserId t.idempotencyKey = some t.reverse ∧
      ∃ r ∈ db'.transactions, r.reversesTransactionId = some t.transactionId) := by
  cases h t ht with
  | inl hm => exact .inl (hr.findByIdempotency hm)
  | inr hreversed =>
    obtain ⟨hm, hrec⟩ := hreversed
    exact .inr ⟨hr.findByIdempotency hm, hrec⟩
end Kept

section Steps
variable {settings : Settings} {sca : ScaService}

theorem Recorded.transferred (ht : Transferred sca attempt cmd db db') (h : Recorded db) :
    Recorded db' := by
  obtain ⟨_, _, -, -, -, -, -, -, -, hp⟩ := ht
  exact (h.congr (challenged_transactions ..)).posting hp

theorem Kept.transferred (ht : Transferred sca attempt cmd db db') : Kept db db' := by
  obtain ⟨_, _, -, -, -, -, -, -, -, hp⟩ := ht
  exact (of_eq (challenged_transactions ..)).trans (posting hp)

/-- The row of a fresh transfer is in the history as it was inserted. -/
theorem Transferred.row_mem (ht : Transferred sca attempt cmd db db') :
    newTransaction attempt cmd ∈ db'.transactions := by
  obtain ⟨_, _, -, -, -, -, -, -, hv, hp⟩ := ht
  have hnew : newTransaction attempt cmd ∈
      (challenged sca attempt cmd db).transactions ++ [newTransaction attempt cmd] := by
    simp
  rw [hp.transactions]
  cases ho : cmd.reversesTransactionId with
  | none => exact hnew
  | some id =>
    -- the reversed row was found in the history, where the new identifier is not
    obtain ⟨original, hf, -⟩ := validateReversal_ok hv ho
    refine mem_updateWhere_of_not hnew ?_
    simp only [decide_eq_false_iff_not]
    rintro rfl
    exact hp.freshId (key_mem_of_lookup hf)

theorem Recorded.step (e : BankEvent) (h : Recorded db) :
    Recorded (bankStep settings sca db e) := by
  cases e with
  | operation o =>
    simp only [bankStep]
    split
    · rename_i hok
      exact h.congr (Operation.perform_writes hok).transactions
    · exact h
  | transfer attempt command =>
    cases createTransfer_cases sca attempt command db with
    | inl hrefused =>
      obtain ⟨he, -⟩ := hrefused
      rw [bankStep, he]
      exact h
    | inr hcommitted =>
      obtain ⟨cmd, db', -, he, ht⟩ := hcommitted
      rw [bankStep, he]
      exact h.transferred ht

theorem Kept.step (settings : Settings) (sca : ScaService) (db : Db) (e : BankEvent) :
    Kept db (bankStep settings sca db e) := by
  cases e with
  | operation o =>
    simp only [bankStep]
    split
    · rename_i hok
      exact of_eq (Operation.perform_writes hok).transactions
    · exact refl db
  | transfer attempt command =>
    cases createTransfer_cases sca attempt command db with
    | inl hrefused =>
      obtain ⟨he, -⟩ := hrefused
      rw [bankStep, he]
      exact refl db
    | inr hcommitted =>
      obtain ⟨cmd, db', -, he, ht⟩ := hcommitted
      rw [bankStep, he]
      exact transferred ht

theorem Kept.run (settings : Settings) (sca : ScaService) (db : Db) (es : List BankEvent) :
    Kept db (Runs.run (bankStep settings sca) db es) :=
  Runs.run_rel Kept refl trans (I := fun _ => True) (fun db e _ => step settings sca db e)
    (fun _ _ _ => trivial) trivial es

theorem recorded_run (settings : Settings) (sca : ScaService) (h : Recorded db)
    (es : List BankEvent) :
    Recorded (Runs.run (bankStep settings sca) db es) :=
  Runs.run_invariant (fun _ e h => h.step e) h es
end Steps
end Bantam
