import Bantam.Serial
import Bantam.Projection

/-! The transfers that a run of concurrent calls has committed, in their order. The history
and the entries of the database are theirs, row by row. -/
namespace Bantam
open Tables

/-- A committed transfer: the call, and the database before and after its commit. -/
structure Commit where
  call : Call
  before : Db
  after : Db

/-- The transfer that a step commits. -/
def Calls.commit? (service : LedgerService) (s : Calls) : CallEvent → Option Commit
  | .advance i =>
    match s.calls[i]? with
    | some c =>
      match c.stage, c.post service s.db with
      | .commit .., .ok db => some ⟨c, s.db, db⟩
      | _, _ => none
    | none => none
  | _ => none

def commits (settings : Settings) (service : LedgerService) (es : List CallEvent) : List Commit :=
  Runs.collect (callStep settings service) (Calls.commit? service) Calls.initial es

/-- The two entries of a committed transfer. -/
def Commit.entries (c : Commit) : List LedgerEntry :=
  [debitEntry c.call.attempt c.call.cmd, creditEntry c.call.attempt c.call.cmd]

section Steps
variable {settings : Settings} {service : LedgerService} {s : Calls}

/-- A step commits one transfer, or it is an operation between the calls, or it leaves the
database alone. -/
theorem Calls.commit?_cases (settings : Settings) (h : s.Sound service) (e : CallEvent) :
    (∃ c, s.commit? service e = some c ∧ c.before = s.db ∧ c.call ∈ s.calls ∧
      (callStep settings service s e).db = c.after ∧
      Transferred service.sca c.call.attempt c.call.cmd c.before c.after) ∨
    (s.commit? service e = none ∧ ∃ o db, e = .operation o ∧
      s.available service o = true ∧ o.perform settings service.sca s.db = .ok db ∧
      (callStep settings service s e).db = db) ∨
    (s.commit? service e = none ∧ (callStep settings service s e).db = s.db) := by
  cases e with
  | begin attempt command =>
    refine .inr (.inr ⟨rfl, ?_⟩)
    simp only [callStep]
    split <;> rfl
  | advance i =>
    simp only [commit?, callStep]
    cases hc : s.calls[i]? with
    | none => exact .inr (.inr ⟨rfl, rfl⟩)
    | some c =>
      have hm : c.Moves service (s.blocked service i) s.db
          (c.advance service (s.blocked service i) (s.unsettled i c) s.db).1
          (c.advance service (s.blocked service i) (s.unsettled i c) s.db).2 :=
        Call.advance_moves
      simp only
      split
      · rename_i source destination db hs hp
        have hadvance : c.advance service (s.blocked service i) (s.unsettled i c) s.db =
            (.respond (firstResponse c.attempt c.cmd), db) := by
          simp [Call.advance, hs, hp]
        obtain ⟨ht, -⟩ := Call.commit_alone hs (h.checked i c hc) hp
        refine .inl ⟨_, rfl, rfl, List.mem_of_getElem? hc, ?_, ht⟩
        rw [hadvance]
        rfl
      · rename_i hno
        refine .inr (.inr ⟨rfl, ?_⟩)
        cases hm.db_eq with
        | inl hdb => exact hdb
        | inr hcommit =>
          obtain ⟨source, destination, hs, hp, -⟩ := hcommit
          exact absurd hp (hno source destination _ hs)
  | crash i =>
    refine .inr (.inr ⟨rfl, ?_⟩)
    simp only [callStep]
    split <;> rfl
  | operation o =>
    by_cases ha : s.available service o = true
    · cases hp : o.perform settings service.sca s.db with
      | ok db => exact .inr (.inl ⟨rfl, o, db, rfl, ha, hp, by simp [callStep, ha, bankStep, hp]⟩)
      | error e => exact .inr (.inr ⟨rfl, by simp [callStep, ha, bankStep, hp]⟩)
    · exact .inr (.inr ⟨rfl, by simp [callStep, ha]⟩)
end Steps

/-- What a run has committed is what the tables of the ledger hold. -/
structure Committed (service : LedgerService) (log : List Commit) (s : Calls) : Prop where
  sound : s.Sound service
  transferred : ∀ c ∈ log, Transferred service.sca c.call.attempt c.call.cmd c.before c.after
  rows : s.db.transactions.map Transaction.transactionId =
    log.map fun c => c.call.attempt.transactionId
  entries : s.db.entries = log.flatMap Commit.entries

theorem Write.entries {touched : List Uuid} {db db' : Db} (w : Write touched db db') :
    db'.entries = db.entries := by
  cases w <;> rfl

theorem Writes.entries {touched : List Uuid} {db db' : Db} (w : Writes touched db db') :
    db'.entries = db.entries :=
  w.invariant (I := fun x => x.entries = db.entries) (fun w he => w.entries.trans he) rfl

namespace Committed
variable {settings : Settings} {service : LedgerService} {s : Calls} {log : List Commit}

theorem initial : Committed service [] Calls.initial :=
  ⟨Calls.Sound.initial, by simp, rfl, rfl⟩

theorem transferred_tables {sca : ScaService} {attempt : Attempt} {cmd : NormalisedCommand}
    {db db' : Db} (h : Transferred sca attempt cmd db db') :
    db'.transactions.map Transaction.transactionId =
        db.transactions.map Transaction.transactionId ++ [attempt.transactionId] ∧
      db'.entries = db.entries ++ [debitEntry attempt cmd, creditEntry attempt cmd] := by
  obtain ⟨_, _, -, -, -, -, -, -, -, hp⟩ := h
  have hid : ∀ t : Transaction, t.reverse.transactionId = t.transactionId := fun _ => rfl
  rw [hp.transactions, Db.reversedTransactions_map _ hid, hp.entries, challenged_transactions,
    challenged_entries]
  exact ⟨by simp [newTransaction], rfl⟩

theorem step (e : CallEvent) (h : Committed service log s) :
    Committed service (log ++ (s.commit? service e).toList) (callStep settings service s e) := by
  have hsound : (callStep settings service s e).Sound service := h.sound.step s e
  rcases Calls.commit?_cases settings h.sound e with
    ⟨c, hc, hb, -, hdb, ht⟩ | ⟨hc, o, db, -, -, hp, hdb⟩ | ⟨hc, hdb⟩
  · obtain ⟨hids, hentries⟩ := transferred_tables ht
    refine ⟨hsound, ?_, ?_, ?_⟩
    · intro d hd
      rw [hc] at hd
      cases List.mem_append.mp hd with
      | inl hold => exact h.transferred d hold
      | inr hnew =>
        rw [List.mem_singleton.mp hnew]
        exact ht
    · rw [hdb, hids, hb, h.rows, hc]
      simp
    · rw [hdb, hentries, hb, h.entries, hc]
      simp [Commit.entries]
  · have w := Operation.perform_writes hp
    rw [hc, Option.toList_none, List.append_nil]
    exact ⟨hsound, h.transferred, by rw [hdb, w.transactions, h.rows],
      by rw [hdb, w.entries, h.entries]⟩
  · rw [hc, Option.toList_none, List.append_nil]
    exact ⟨hsound, h.transferred, by rw [hdb, h.rows], by rw [hdb, h.entries]⟩
end Committed

theorem committed_run (settings : Settings) (service : LedgerService) (es : List CallEvent) :
    Committed service (commits settings service es)
      (Runs.run (callStep settings service) Calls.initial es) :=
  Runs.collect_invariant (H := fun _ log s => Committed service log s)
    (fun _ _ _ e h => h.step e) Committed.initial es
end Bantam
