import Bantam.Calls
import Bantam.Lib.LockOrder
import Mathlib.Data.Prod.Lex

/-! The locks of transfers, deposits, reversals and account status changes are taken in one
order: the advisory lock, the rows of the accounts by their ids, the challenge, the original. -/
namespace Bantam

/-- A lock of a transaction: the advisory lock, or a row. -/
inductive RowLock where
  | advisory (key : Int)
  | account (accountId : Uuid)
  | balance (accountId : Uuid)
  | challenge (challengeId : Uuid)
  | transaction (transactionId : Uuid)
  deriving DecidableEq

/-- The statement that takes the lock, by its place in `create_transfer`. -/
def RowLock.statement : RowLock → ℕ
  | .advisory _ => 0
  | .account _ | .balance _ => 1
  | .challenge _ => 2
  | .transaction _ => 3

/-- The place of the lock among those of its statement. -/
def RowLock.place : RowLock → ℕ ×ₗ ℕ
  | .account accountId => toLex (accountId.toNat, 0)
  | .balance accountId => toLex (accountId.toNat, 1)
  | _ => toLex (0, 0)

def RowLock.rank (r : RowLock) : ℕ ×ₗ ℕ ×ₗ ℕ := toLex (r.statement, r.place)

/-- The operations: `create_transfer`, which transfers, deposits and reversals call, and
`operator_set_account_status`. -/
inductive LockOperation where
  | transfer (cmd : NormalisedCommand)
  | setAccountStatus (accountId : Uuid)

/-- `SELECT … ORDER BY a.account_id FOR UPDATE OF a, b` -/
def lockAccountRows (cmd : NormalisedCommand) : List RowLock :=
  if cmd.sourceAccountId ≤ cmd.destinationAccountId then
    [.account cmd.sourceAccountId, .balance cmd.sourceAccountId,
      .account cmd.destinationAccountId, .balance cmd.destinationAccountId]
  else
    [.account cmd.destinationAccountId, .balance cmd.destinationAccountId,
      .account cmd.sourceAccountId, .balance cmd.sourceAccountId]

/-- The locks that an operation takes, in the order of its statements. It passes over those
whose rows are not there or which it comes not to need. -/
def LockOperation.program (service : LedgerService) : LockOperation → List RowLock
  | .transfer cmd =>
    [.advisory (service.hashtextextended
      (Uuid.str cmd.actor.userId ++ ":" ++ cmd.idempotencyKey))] ++
    lockAccountRows cmd ++
    (consumedChallenge service.sca cmd).toList.map .challenge ++
    cmd.reversesTransactionId.toList.map .transaction
  | .setAccountStatus accountId => [.account accountId]

section Ascending

theorem rank_lt_of_statement {r q : RowLock} (h : r.statement < q.statement) : r.rank < q.rank :=
  Prod.Lex.toLex_lt_toLex.mpr (.inl h)

theorem rows_ascending {first second : Uuid} (h : first < second) :
    [RowLock.account first, .balance first, .account second, .balance second].Pairwise
      fun r q => r.rank < q.rank := by
  have hlt : first.toNat < second.toNat := h
  simp [RowLock.rank, RowLock.statement, RowLock.place, Prod.Lex.toLex_lt_toLex, hlt]

theorem lockAccountRows_ascending (cmd : NormalisedCommand) :
    (lockAccountRows cmd).Pairwise fun r q => r.rank < q.rank := by
  unfold lockAccountRows
  have hdistinct := cmd.distinct
  split_ifs with hle
  · exact rows_ascending (by bv_omega)
  · exact rows_ascending (by bv_omega)

theorem statement_of_mem_rows {cmd : NormalisedCommand} {r : RowLock}
    (h : r ∈ lockAccountRows cmd) : r.statement = 1 := by
  unfold lockAccountRows at h
  split_ifs at h <;>
    · simp only [List.mem_cons, List.not_mem_nil, or_false] at h
      rcases h with rfl | rfl | rfl | rfl <;> rfl

theorem statement_of_mem_challenge {id : Option Uuid} {r : RowLock}
    (h : r ∈ id.toList.map RowLock.challenge) : r.statement = 2 := by
  obtain ⟨_, -, rfl⟩ := List.mem_map.mp h
  rfl

theorem statement_of_mem_reversal {id : Option Uuid} {r : RowLock}
    (h : r ∈ id.toList.map RowLock.transaction) : r.statement = 3 := by
  obtain ⟨_, -, rfl⟩ := List.mem_map.mp h
  rfl

theorem optional_ascending (id : Option Uuid) (lock : Uuid → RowLock) :
    (id.toList.map lock).Pairwise fun r q => r.rank < q.rank := by
  cases id with
  | none => exact List.Pairwise.nil
  | some id => exact List.pairwise_singleton _ _

/-- Locks of one statement after another ascend. -/
theorem append_ascending {rs qs : List RowLock} (hr : rs.Pairwise fun r q => r.rank < q.rank)
    (hq : qs.Pairwise fun r q => r.rank < q.rank)
    (h : ∀ r ∈ rs, ∀ q ∈ qs, r.statement < q.statement) :
    (rs ++ qs).Pairwise fun r q => r.rank < q.rank :=
  List.pairwise_append.mpr ⟨hr, hq, fun r hmem q hmem' => rank_lt_of_statement (h r hmem q hmem')⟩

theorem program_ascending (service : LedgerService) (o : LockOperation) :
    (o.program service).Pairwise fun r q => r.rank < q.rank := by
  cases o with
  | setAccountStatus accountId => exact List.pairwise_singleton _ _
  | transfer cmd =>
    refine append_ascending (append_ascending (append_ascending (List.pairwise_singleton _ _)
      (lockAccountRows_ascending cmd) ?_) (optional_ascending _ _) ?_) (optional_ascending _ _) ?_
    · intro r hr q hq
      rw [List.mem_singleton.mp hr, statement_of_mem_rows hq]
      exact Nat.zero_lt_one
    · intro r hr q hq
      rw [statement_of_mem_challenge hq]
      cases List.mem_append.mp hr with
      | inl hadvisory =>
        rw [List.mem_singleton.mp hadvisory]
        exact Nat.zero_lt_two
      | inr hrow =>
        rw [statement_of_mem_rows hrow]
        exact Nat.one_lt_two
    · intro r hr q hq
      rw [statement_of_mem_reversal hq]
      cases List.mem_append.mp hr with
      | inl hbefore =>
        cases List.mem_append.mp hbefore with
        | inl hadvisory =>
          rw [List.mem_singleton.mp hadvisory]
          exact Nat.zero_lt_succ 2
        | inr hrow =>
          rw [statement_of_mem_rows hrow]
          exact Nat.one_lt_succ_succ 1
      | inr hchallenge =>
        rw [statement_of_mem_challenge hchallenge]
        exact Nat.lt_succ_self 2
end Ascending

/-- In every order of the steps of any number of transfers, deposits, reversals and changes of
an account's status, no lock is held twice and no operations wait for each other in a cycle. -/
theorem no_deadlock (service : LedgerService) (es : List (LockOrder.Event LockOperation)) :
    Locks.Exclusive LockOrder.Task.held
      (Runs.run (LockOrder.step (LockOperation.program service)) [] es) ∧
    ∀ i, ¬Relation.TransGen
      (LockOrder.WaitsFor (Runs.run (LockOrder.step (LockOperation.program service)) [] es)) i i :=
  LockOrder.run_no_cycle (program_ascending service) es

/-! The calls of the fine-grained model take their locks as the programs do. -/

def Lock.rows : Lock → List RowLock
  | .advisory key => [.advisory key]
  | .account accountId => [.account accountId, .balance accountId]
  | .challenge challengeId => [.challenge challengeId]
  | .transaction transactionId => [.transaction transactionId]

namespace Call
variable {service : LedgerService} {c : Call}

/-- The locks that the call has yet to take. -/
def ahead (service : LedgerService) (c : Call) : List Lock :=
  match c.stage with
  | .lookup | .advisoryLock => c.advisory service :: c.writeLocks service
  | .lookupLocked | .lockFirst => c.writeLocks service
  | .lockSecond => .account c.secondAccount :: (c.challengeLocks service ++ c.reversalLocks)
  | .guards .. | .authenticate .. => c.challengeLocks service ++ c.reversalLocks
  | .reversal .. => c.reversalLocks
  | _ => []

def task (service : LedgerService) (c : Call) : LockOrder.Task RowLock :=
  ⟨(c.locks service).flatMap Lock.rows, (c.ahead service).flatMap Lock.rows⟩

theorem task_lookup (h : c.stage = .lookup) :
    c.task service = ⟨[], (LockOperation.transfer c.cmd).program service⟩ := by
  have hrows : (c.accountLocks).flatMap Lock.rows = lockAccountRows c.cmd := by
    unfold accountLocks firstAccount secondAccount lockAccountRows
    split_ifs <;> rfl
  have hsingle : ∀ (id : Option Uuid) (lock : Uuid → Lock) (row : Uuid → RowLock),
      (∀ id, (lock id).rows = [row id]) → (id.toList.map lock).flatMap Lock.rows =
        id.toList.map row := by
    intro id lock row hrow
    cases id <;> simp [hrow]
  simp only [task, locks, ahead, h, List.flatMap_nil, List.flatMap_cons, writeLocks,
    List.flatMap_append, hrows, challengeLocks, reversalLocks, LockOperation.program]
  rw [hsingle _ _ .challenge fun _ => rfl, hsingle _ _ .transaction fun _ => rfl]
  simp [advisory, Lock.rows]
end Call

theorem Lock.rows_inj {l l' : Lock} {r : RowLock} (h : r ∈ l.rows) (h' : r ∈ l'.rows) : l = l' := by
  cases l <;> cases l' <;> simp [Lock.rows] at h h' <;> grind

section Acquiring
variable {service : LedgerService} {calls : List Call} {i : Nat}

/-- The rows of a lock that no other call has are free. -/
theorem rows_free {l : Lock} (h : Locks.heldByOther (Call.locks service) calls i l = false) :
    ∀ r ∈ l.rows,
      Locks.heldByOther LockOrder.Task.held (calls.map (Call.task service)) i r = false := by
  intro r hr
  unfold Locks.heldByOther at h ⊢
  rw [List.eraseIdx_map]
  refine List.any_eq_false.mpr fun t ht => ?_
  obtain ⟨c, hc, rfl⟩ := List.mem_map.mp ht
  intro hheld
  obtain ⟨l', hl', hr'⟩ := List.mem_flatMap.mp (of_decide_eq_true hheld)
  obtain rfl := Lock.rows_inj hr hr'
  exact List.any_eq_false.mp h c hc (decide_eq_true hl')

/-- A call that takes locks which no other has moves as its task does. -/
theorem acquire_locks {c c' : Call} (ls : List Lock) (hi : calls[i]? = some c)
    (hfree : ∀ l ∈ ls, Locks.heldByOther (Call.locks service) calls i l = false)
    (hlocks : c'.locks service = c.locks service ++ ls)
    (hahead : c.ahead service = ls ++ c'.ahead service) :
    ∃ ds, (calls.set i c').map (Call.task service) =
      Runs.run (LockOrder.step (LockOperation.program service)) (calls.map (Call.task service))
        ds := by
  have hat : (calls.map (Call.task service))[i]? = some ⟨(c.locks service).flatMap Lock.rows,
      ls.flatMap Lock.rows ++ (c'.ahead service).flatMap Lock.rows⟩ := by
    rw [List.getElem?_map, hi, Option.map_some, Call.task, hahead, List.flatMap_append]
  refine ⟨_, Eq.trans ?_ (LockOrder.run_acquire hat fun r hr => ?_).symm⟩
  · rw [List.map_set, Call.task, hlocks, List.flatMap_append]
  · obtain ⟨l, hl, hr⟩ := List.mem_flatMap.mp hr
    exact rows_free (hfree l hl) r hr

/-- A call that takes no lock in a step keeps its task. -/
theorem keep_locks {c c' : Call} (hi : calls[i]? = some c)
    (hlocks : c'.locks service = c.locks service) (hahead : c'.ahead service = c.ahead service) :
    ∃ ds, (calls.set i c').map (Call.task service) =
      Runs.run (LockOrder.step (LockOperation.program service)) (calls.map (Call.task service))
        ds :=
  acquire_locks [] hi (fun l hl => by cases hl) (by rw [hlocks, List.append_nil]) hahead.symm

/-- A call that ends gives its locks up. -/
theorem finish_locks {c' : Call} (hlocks : c'.locks service = [])
    (hahead : c'.ahead service = []) :
    ∃ ds, (calls.set i c').map (Call.task service) =
      Runs.run (LockOrder.step (LockOperation.program service)) (calls.map (Call.task service))
        ds := by
  refine ⟨[.finish i], ?_⟩
  rw [List.map_set, Call.task, hlocks, hahead]
  rfl
end Acquiring

/-- Each step of the calls is some steps of the operations that take their locks. -/
theorem callStep_tasks (settings : Settings) (service : LedgerService) (s : Calls)
    (e : CallEvent) :
    ∃ ds, (callStep settings service s e).calls.map (Call.task service) =
      Runs.run (LockOrder.step (LockOperation.program service))
        (s.calls.map (Call.task service)) ds := by
  rcases callStep_cases settings service s e with
    he | ⟨c, hstage, he⟩ | ⟨i, c, stage, db, -, hi, hmove, he⟩ | ⟨i, c, -, hi, he⟩ | ⟨o, -, -, he⟩
  · exact ⟨[], by rw [he]; rfl⟩
  · refine ⟨[.begin (.transfer c.cmd)], ?_⟩
    rw [he, List.map_append, List.map_singleton, Call.task_lookup hstage]
    rfl
  · rw [he]
    unfold Calls.move
    cases hmove with
    | wait => exact keep_locks hi rfl rfl
    | fail e => exact finish_locks rfl rfl
    | violate => exact finish_locks rfl rfl
    | replay existing found => exact finish_locks rfl rfl
    | miss hstage => exact keep_locks hi (by simp [Call.locks, hstage]) (by simp [Call.ahead, hstage])
    | guard hstage free =>
      exact acquire_locks [c.advisory service] hi (fun l hl => List.mem_singleton.mp hl ▸ free)
        (by simp [Call.locks, hstage]) (by simp [Call.ahead, hstage])
    | missLocked hstage =>
      exact keep_locks hi (by simp [Call.locks, hstage]) (by simp [Call.ahead, hstage])
    | first hstage free =>
      exact acquire_locks [.account c.firstAccount] hi (fun l hl => List.mem_singleton.mp hl ▸ free)
        (by simp [Call.locks, hstage])
        (by simp [Call.ahead, hstage, Call.writeLocks, Call.accountLocks])
    | second source destination hstage free locked =>
      exact acquire_locks [.account c.secondAccount] hi
        (fun l hl => List.mem_singleton.mp hl ▸ free)
        (by simp [Call.locks, hstage, Call.accountLocks]) (by simp [Call.ahead, hstage])
    | pass source destination hstage accounts actor =>
      exact keep_locks hi (by simp [Call.locks, hstage]) (by simp [Call.ahead, hstage])
    | authenticate source destination hstage free challenge funds =>
      exact acquire_locks (c.challengeLocks service) hi free (by simp [Call.locks, hstage])
        (by simp [Call.ahead, hstage])
    | reverse source destination hstage free reversal =>
      exact acquire_locks c.reversalLocks hi free (by simp [Call.locks, hstage, Call.writeLocks])
        (by simp [Call.ahead, hstage])
    | insert source destination hstage =>
      exact keep_locks hi (by simp [Call.locks, hstage]) (by simp [Call.ahead, hstage])
    | commit source destination db' hstage posted => exact finish_locks rfl rfl
    | respond payload hstage => exact finish_locks rfl rfl
  · rw [he]
    exact finish_locks rfl rfl
  · exact ⟨[], by rw [he]; rfl⟩

/-- The calls of every run wait for each other in no cycle. -/
theorem calls_no_deadlock (settings : Settings) (service : LedgerService)
    (es : List CallEvent) (i : Nat) :
    ¬Relation.TransGen (LockOrder.WaitsFor
      ((Runs.run (callStep settings service) Calls.initial es).calls.map (Call.task service)))
      i i := by
  have hsim (s : Calls) (e : CallEvent) (_ : True) :
      ∃ ds, (callStep settings service s e).calls.map (Call.task service) =
        Runs.run (LockOrder.step (LockOperation.program service))
          (s.calls.map (Call.task service)) ds := callStep_tasks settings service s e
  obtain ⟨ds, hds⟩ := Runs.run_simulates (I := fun _ => True)
    (fun s : Calls => s.calls.map (Call.task service)) (fun _ _ _ => trivial) hsim trivial es
  rw [hds]
  exact (LockOrder.run_no_cycle (program_ascending service) ds).2 i

end Bantam
