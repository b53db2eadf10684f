import Bantam.Bank
import Bantam.Writes
import Bantam.Lib.Locks
import Bantam.Lib.Runs

/-! `create_transfer` called by many clients at once, one statement at a time. A lookup
sees what is committed, a lock that another call has makes the statement wait, and the
writes of a call become visible at its commit. -/
namespace Bantam
open Tables

/-- `LedgerService`, with the hash of the database that its advisory locks use. -/
structure LedgerService where
  sca : ScaService
  hashtextextended : String → Int

inductive Lock where
  | advisory (key : Int)
  | account (accountId : Uuid)
  | challenge (challengeId : Uuid)
  | transaction (transactionId : Uuid)
  deriving DecidableEq

/-- The statement of `create_transfer` that a call runs next, with the rows it has read.
Up to `advisoryLock` and from `uniqueViolation` on no database transaction is open. -/
inductive Stage where
  | lookup
  | advisoryLock
  | lookupLocked
  | lockFirst
  | lockSecond
  | guards (source destination : LockedAccount)
  | authenticate (source destination : LockedAccount)
  | reversal (source destination : LockedAccount)
  | insert (source destination : LockedAccount)
  | commit (source destination : LockedAccount)
  | uniqueViolation
  | respond (payload : TransactionPayload)
  | returned (result : Except Failure (TransactionPayload × Bool))
  | crashed
  deriving DecidableEq

structure Call where
  attempt : Attempt
  command : TransferCommand
  cmd : NormalisedCommand
  stage : Stage
  normalised : normalise attempt.requestId command = .ok cmd

namespace Call

def become (c : Call) (stage : Stage) : Call := { c with stage := stage }

/-- `hashtextextended(user_id::text || ':' || idempotency_key::text, 0)` -/
def advisory (service : LedgerService) (c : Call) : Lock :=
  .advisory (service.hashtextextended
    (Uuid.str c.cmd.actor.userId ++ ":" ++ c.cmd.idempotencyKey))

/-- The account that `ORDER BY a.account_id` puts first. -/
def firstAccount (c : Call) : Uuid :=
  if c.cmd.sourceAccountId ≤ c.cmd.destinationAccountId then c.cmd.sourceAccountId
  else c.cmd.destinationAccountId

def secondAccount (c : Call) : Uuid :=
  if c.cmd.sourceAccountId ≤ c.cmd.destinationAccountId then c.cmd.destinationAccountId
  else c.cmd.sourceAccountId

def accountLocks (c : Call) : List Lock :=
  [.account c.firstAccount, .account c.secondAccount]

def challengeLocks (service : LedgerService) (c : Call) : List Lock :=
  (consumedChallenge service.sca c.cmd).toList.map .challenge

def reversalLocks (c : Call) : List Lock :=
  c.cmd.reversesTransactionId.toList.map .transaction

/-- The locks under which a call writes. -/
def writeLocks (service : LedgerService) (c : Call) : List Lock :=
  c.accountLocks ++ c.challengeLocks service ++ c.reversalLocks

/-- A lock stays with the call until its database transaction ends. -/
def locks (service : LedgerService) (c : Call) : List Lock :=
  match c.stage with
  | .lookupLocked | .lockFirst => [c.advisory service]
  | .lockSecond => [c.advisory service, .account c.firstAccount]
  | .guards .. | .authenticate .. => c.advisory service :: c.accountLocks
  | .reversal .. => c.advisory service :: (c.accountLocks ++ c.challengeLocks service)
  | .insert .. | .commit .. => c.advisory service :: c.writeLocks service
  | _ => []

section Become
variable (service : LedgerService) (c : Call) (stage : Stage)

@[simp] theorem become_stage : (c.become stage).stage = stage := rfl
@[simp] theorem become_cmd : (c.become stage).cmd = c.cmd := rfl
@[simp] theorem become_attempt : (c.become stage).attempt = c.attempt := rfl
@[simp] theorem become_command : (c.become stage).command = c.command := rfl
@[simp] theorem become_advisory : (c.become stage).advisory service = c.advisory service := rfl
@[simp] theorem become_firstAccount : (c.become stage).firstAccount = c.firstAccount := rfl
@[simp] theorem become_secondAccount : (c.become stage).secondAccount = c.secondAccount := rfl
@[simp] theorem become_accountLocks : (c.become stage).accountLocks = c.accountLocks := rfl
@[simp] theorem become_challengeLocks :
    (c.become stage).challengeLocks service = c.challengeLocks service := rfl
@[simp] theorem become_reversalLocks : (c.become stage).reversalLocks = c.reversalLocks := rfl
@[simp] theorem become_writeLocks :
    (c.become stage).writeLocks service = c.writeLocks service := rfl
end Become

/-- The first `INSERT` of `c` meets a row that `other` has inserted and not yet committed. -/
def conflicts (c other : Call) : Bool :=
  match other.stage with
  | .commit .. =>
    c.attempt.transactionId = other.attempt.transactionId ||
    (c.cmd.actor.userId = other.cmd.actor.userId &&
      c.cmd.idempotencyKey = other.cmd.idempotencyKey) ||
    (c.cmd.reversesTransactionId.isSome &&
      c.cmd.reversesTransactionId = other.cmd.reversesTransactionId)
  | _ => false

/-- Every writing statement of the call, on the database as it is committed. -/
def post (service : LedgerService) (c : Call) (db : Db) : Except Failure Db :=
  postTransfer c.attempt c.cmd (challenged service.sca c.attempt c.cmd db)

/-- Where the handlers of `create_transfer` lead from an error of its transaction. -/
def handle : Failure → Stage
  | .database .uniqueViolation => .uniqueViolation
  | e => .returned (.error e)

/-- The next statement of a call. `blocked` tells the locks that another call has, and
`unsettled` that one of the call's rows is in conflict with a row not yet committed. -/
def advance (service : LedgerService) (blocked : Lock → Bool) (unsettled : Bool) (c : Call)
    (db : Db) : Stage × Db :=
  match c.stage with
  | .lookup =>
    match db.findByIdempotency c.cmd.actor.userId c.cmd.idempotencyKey with
    | some existing => (.returned (.ok (transactionPayload existing, true)), db)
    | none => (.advisoryLock, db)
  | .advisoryLock => (if blocked (c.advisory service) then c.stage else .lookupLocked, db)
  | .lookupLocked =>
    match db.findByIdempotency c.cmd.actor.userId c.cmd.idempotencyKey with
    | some existing => (.returned (.ok (transactionPayload existing, true)), db)
    | none => (.lockFirst, db)
  | .lockFirst =>
    match lockAccounts c.cmd.sourceAccountId c.cmd.destinationAccountId db with
    | .error e => (handle e, db)
    | .ok _ => (if blocked (.account c.firstAccount) then c.stage else .lockSecond, db)
  | .lockSecond =>
    match lockAccounts c.cmd.sourceAccountId c.cmd.destinationAccountId db with
    | .error e => (handle e, db)
    | .ok (source, destination) =>
      (if blocked (.account c.secondAccount) then c.stage else .guards source destination, db)
  | .guards source destination =>
    match checkAccounts c.cmd source destination, checkActor c.cmd source db with
    | .error e, _ => (handle e, db)
    | .ok _, .error e => (handle e, db)
    | .ok _, .ok _ => (.authenticate source destination, db)
  | .authenticate source destination =>
    match presentChallenge service.sca c.attempt c.cmd db, checkFunds c.cmd source with
    | .error e, _ => (handle e, db)
    | .ok _, result =>
      if (c.challengeLocks service).any blocked then (c.stage, db)
      else
        match result with
        | .error e => (handle e, db)
        | .ok _ => (.reversal source destination, db)
  | .reversal source destination =>
    match validateReversal c.cmd db with
    | .error e => (handle e, db)
    | .ok _ => (if c.reversalLocks.any blocked then c.stage else .insert source destination, db)
  | .insert source destination =>
    if unsettled then (c.stage, db)
    else
      match c.post service db with
      | .error e => (handle e, db)
      | .ok _ => (.commit source destination, db)
  | .commit .. =>
    match c.post service db with
    | .error e => (handle e, db)
    | .ok db' => (.respond (firstResponse c.attempt c.cmd), db')
  | .uniqueViolation => (.returned (uniqueViolationFallback c.cmd db), db)
  | .respond payload => (.returned (.ok (payload, false)), db)
  | .returned _ | .crashed => (c.stage, db)

/-- What a call can do in one step, with all that the step has established. -/
inductive Moves (service : LedgerService) (blocked : Lock → Bool) (c : Call) (db : Db) :
    Stage → Db → Prop where
  | wait : Moves service blocked c db c.stage db
  | fail (e : Failure) : Moves service blocked c db (.returned (.error e)) db
  | violate : Moves service blocked c db .uniqueViolation db
  | replay (existing : Transaction)
      (found : db.findByIdempotency c.cmd.actor.userId c.cmd.idempotencyKey = some existing) :
      Moves service blocked c db (.returned (.ok (transactionPayload existing, true))) db
  | miss (stage : c.stage = .lookup) : Moves service blocked c db .advisoryLock db
  | guard (stage : c.stage = .advisoryLock) (free : blocked (c.advisory service) = false) :
      Moves service blocked c db .lookupLocked db
  | missLocked (stage : c.stage = .lookupLocked) : Moves service blocked c db .lockFirst db
  | first (stage : c.stage = .lockFirst) (free : blocked (.account c.firstAccount) = false) :
      Moves service blocked c db .lockSecond db
  | second (source destination : LockedAccount) (stage : c.stage = .lockSecond)
      (free : blocked (.account c.secondAccount) = false)
      (locked : lockAccounts c.cmd.sourceAccountId c.cmd.destinationAccountId db =
        .ok (source, destination)) :
      Moves service blocked c db (.guards source destination) db
  | pass (source destination : LockedAccount) (stage : c.stage = .guards source destination)
      (accounts : checkAccounts c.cmd source destination = .ok ())
      (actor : checkActor c.cmd source db = .ok ()) :
      Moves service blocked c db (.authenticate source destination) db
  | authenticate (source destination : LockedAccount)
      (stage : c.stage = .authenticate source destination)
      (free : ∀ l ∈ c.challengeLocks service, blocked l = false)
      (challenge : presentChallenge service.sca c.attempt c.cmd db =
        .ok (challenged service.sca c.attempt c.cmd db))
      (funds : checkFunds c.cmd source = .ok ()) :
      Moves service blocked c db (.reversal source destination) db
  | reverse (source destination : LockedAccount) (stage : c.stage = .reversal source destination)
      (free : ∀ l ∈ c.reversalLocks, blocked l = false)
      (reversal : validateReversal c.cmd db = .ok ()) :
      Moves service blocked c db (.insert source destination) db
  | insert (source destination : LockedAccount) (stage : c.stage = .insert source destination) :
      Moves service blocked c db (.commit source destination) db
  | commit (source destination : LockedAccount) (db' : Db)
      (stage : c.stage = .commit source destination) (posted : c.post service db = .ok db') :
      Moves service blocked c db (.respond (firstResponse c.attempt c.cmd)) db'
  | respond (payload : TransactionPayload) (stage : c.stage = .respond payload) :
      Moves service blocked c db (.returned (.ok (payload, false))) db

section Moves
variable {service : LedgerService} {blocked : Lock → Bool} {unsettled : Bool} {c : Call} {db : Db}

theorem Moves.stay {stage : Stage} (h : c.stage = stage) :
    Moves service blocked c db stage db := h ▸ .wait

theorem Moves.handle (e : Failure) : Moves service blocked c db (Call.handle e) db := by
  unfold Call.handle
  split
  · exact .violate
  · exact .fail e

theorem advance_moves : Moves service blocked c db (c.advance service blocked unsettled db).1
    (c.advance service blocked unsettled db).2 := by
  unfold advance
  cases hs : c.stage with
  | lookup =>
    simp only
    split
    · rename_i existing hf
      exact .replay existing hf
    · exact .miss hs
  | advisoryLock =>
    simp only
    split_ifs with hb
    · exact .stay hs
    · exact .guard hs (by simpa using hb)
  | lookupLocked =>
    simp only
    split
    · rename_i existing hf
      exact .replay existing hf
    · exact .missLocked hs
  | lockFirst =>
    simp only
    split
    · exact .handle _
    · split_ifs with hb
      · exact .stay hs
      · exact .first hs (by simpa using hb)
  | lockSecond =>
    simp only
    split
    · exact .handle _
    · rename_i source destination hl
      split_ifs with hb
      · exact .stay hs
      · exact .second source destination hs (by simpa using hb) hl
  | guards source destination =>
    simp only
    split
    · exact .handle _
    · exact .handle _
    · rename_i hc ha
      exact .pass source destination hs hc ha
  | authenticate source destination =>
    simp only
    split
    · exact .handle _
    · rename_i db' hp
      obtain rfl := presentChallenge_ok hp
      split_ifs with hb
      · exact .stay hs
      · split
        · exact .handle _
        · rename_i hf
          exact .authenticate source destination hs (by simpa using hb) hp hf
  | reversal source destination =>
    simp only
    split
    · exact .handle _
    · rename_i hv
      split_ifs with hb
      · exact .stay hs
      · exact .reverse source destination hs (by simpa using hb) hv
  | insert source destination =>
    simp only
    split_ifs
    · exact .stay hs
    · split
      · exact .handle _
      · exact .insert source destination hs
  | commit source destination =>
    simp only
    split
    · exact .handle _
    · rename_i db' hp
      exact .commit source destination db' hs hp
  | uniqueViolation =>
    simp only [uniqueViolationFallback]
    split
    · rename_i existing hf
      exact .replay existing hf
    · exact .fail _
  | respond payload => exact .respond payload hs
  | returned result => exact .stay hs
  | crashed => exact .stay hs
end Moves
end Call

/-- The committed database and every call made so far. -/
structure Calls where
  db : Db
  calls : List Call

namespace Calls

def initial : Calls := ⟨Db.migrated, []⟩

def move (s : Calls) (i : Nat) (c : Call) (stage : Stage) (db : Db) : Calls :=
  ⟨db, s.calls.set i (c.become stage)⟩

def blocked (service : LedgerService) (s : Calls) (i : Nat) : Lock → Bool :=
  Locks.heldByOther (Call.locks service) s.calls i

def unsettled (s : Calls) (i : Nat) (c : Call) : Bool :=
  (s.calls.eraseIdx i).any c.conflicts

/-- An operation that updates an account waits for the calls that have the account. -/
def available (service : LedgerService) (s : Calls) (o : Operation) : Bool :=
  s.calls.all fun c => o.touched.all fun id => Lock.account id ∉ c.locks service
end Calls

/-- `begin` is a new call, `advance` the next statement of the `i`-th one, and `crash`
what ends it anywhere: a lost connection, a deadlock, a stopped process. -/
inductive CallEvent where
  | begin (attempt : Attempt) (command : TransferCommand)
  | advance (i : Nat)
  | crash (i : Nat)
  | operation (o : Operation)

def callStep (settings : Settings) (service : LedgerService) (s : Calls) : CallEvent → Calls
  | .begin attempt command =>
    match h : normalise attempt.requestId command with
    | .ok cmd => { s with calls := s.calls ++ [⟨attempt, command, cmd, .lookup, h⟩] }
    | .error _ => s
  | .advance i =>
    match s.calls[i]? with
    | some c =>
      let (stage, db) := c.advance service (s.blocked service i) (s.unsettled i c) s.db
      s.move i c stage db
    | none => s
  | .crash i =>
    match s.calls[i]? with
    | some c => s.move i c .crashed s.db
    | none => s
  | .operation o =>
    if s.available service o then
      { s with db := bankStep settings service.sca s.db (.operation o) }
    else s

section Steps
variable {settings : Settings} {service : LedgerService} {I : Calls → Prop} {s : Calls}

/-- A step begins a call, moves one call, ends one, or is an operation between the calls. -/
theorem callStep_cases (settings : Settings) (service : LedgerService) (s : Calls)
    (e : CallEvent) :
    callStep settings service s e = s ∨
    (∃ c : Call, c.stage = .lookup ∧
      callStep settings service s e = { s with calls := s.calls ++ [c] }) ∨
    (∃ i c stage db, e = .advance i ∧ s.calls[i]? = some c ∧
      c.Moves service (s.blocked service i) s.db stage db ∧
      callStep settings service s e = s.move i c stage db) ∨
    (∃ i c, e = .crash i ∧ s.calls[i]? = some c ∧
      callStep settings service s e = s.move i c .crashed s.db) ∨
    (∃ o, e = .operation o ∧ s.available service o = true ∧
      callStep settings service s e =
        { s with db := bankStep settings service.sca s.db (.operation o) }) := by
  cases e with
  | begin attempt command =>
    simp only [callStep]
    split
    · rename_i cmd hn
      exact .inr (.inl ⟨⟨attempt, command, cmd, .lookup, hn⟩, rfl, rfl⟩)
    · exact .inl rfl
  | advance i =>
    simp only [callStep]
    cases hc : s.calls[i]? with
    | none => exact .inl rfl
    | some c => exact .inr (.inr (.inl ⟨i, c, _, _, rfl, hc, Call.advance_moves, rfl⟩))
  | crash i =>
    simp only [callStep]
    cases hc : s.calls[i]? with
    | none => exact .inl rfl
    | some c => exact .inr (.inr (.inr (.inl ⟨i, c, rfl, hc, rfl⟩)))
  | operation o =>
    simp only [callStep]
    split_ifs with ha
    · exact .inr (.inr (.inr (.inr ⟨o, rfl, ha, rfl⟩)))
    · exact .inl rfl
end Steps

def sampleService : LedgerService := ⟨sampleSca, fun text => text.length⟩
end Bantam
