import Bantam.Schema
import Bantam.Lib.Runs

/-! Double entry in the database itself: whatever clients do to `ledger_entries` and
`transactions`, the append-only trigger and the deferred trigger keep every committed
transaction balanced. A statement sees what is committed, or the snapshot of its database
transaction, and the rows of its own database transaction. -/
namespace Bantam
open Tables

/-- `posting_count` of `assert_transaction_balanced` -/
def postingCount (rows : List LedgerEntry) (transactionId : Uuid) : Nat :=
  (rows.filter fun e => e.transactionId = transactionId).length

/-- `posting_sum` of `assert_transaction_balanced` -/
def postingSum (rows : List LedgerEntry) (transactionId : Uuid) : Int :=
  sumWhere (fun e => e.transactionId = transactionId) LedgerEntry.amountMinor rows

/-- The two tables at one moment. -/
structure Ledger where
  transactions : List Transaction
  entries : List LedgerEntry

/-- A statement of a client; the rows of an `INSERT` may come from any query. -/
inductive LedgerStatement where
  | insertEntries (rows : List LedgerEntry)
  | updateEntries (targets : LedgerEntry → Bool) (assign : LedgerEntry → LedgerEntry)
  | deleteEntries (targets : LedgerEntry → Bool)
  | insertTransactions (rows : List Transaction)
  | updateTransactions (targets : Transaction → Bool) (assign : Transaction → Transaction)
  | deleteTransactions (targets : Transaction → Bool)

/-- What an open database transaction has done: its entries, its changes of the other table,
and the transaction of each inserted entry whose deferred trigger has not yet fired. -/
structure Work where
  entries : List LedgerEntry
  transactions : List Transaction → List Transaction
  queued : List Uuid

def Work.empty : Work := ⟨[], id, []⟩

/-- The two tables as the database transaction sees them over `base`. -/
def Work.view (w : Work) (base : Ledger) : Ledger :=
  ⟨w.transactions base.transactions, base.entries ++ w.entries⟩

/-- One statement; `admits` is what the keys, the references and the checks of the two tables
let pass. An `UPDATE` or a `DELETE` that reaches an entry raises, and leaves no work. -/
def Work.execute (admits : Ledger → LedgerStatement → Bool) (w : Work) (view : Ledger)
    (statement : LedgerStatement) : Option Work :=
  match statement with
  | .updateEntries targets _ => if view.entries.any targets then none else some w
  | .deleteEntries targets => if view.entries.any targets then none else some w
  | .insertEntries rows =>
    if admits view statement then
      some { w with
        entries := w.entries ++ rows
        queued := w.queued ++ rows.map LedgerEntry.transactionId }
    else none
  | .insertTransactions rows =>
    if admits view statement then
      some { w with transactions := fun ts => w.transactions ts ++ rows }
    else none
  | .updateTransactions targets assign =>
    if admits view statement then
      some { w with transactions := fun ts => updateWhere targets assign (w.transactions ts) }
    else none
  | .deleteTransactions targets =>
    if admits view statement then
      some { w with transactions := fun ts => (w.transactions ts).filter fun t => !targets t }
    else none

/-- The oldest trigger in the queue runs on what the database transaction sees. -/
def Work.fire (w : Work) (view : Ledger) : Option Work :=
  match w.queued with
  | [] => some w
  | target :: rest =>
    if 2 ≤ postingCount view.entries target ∧ postingSum view.entries target = 0 then
      some { w with queued := rest }
    else none

inductive ClientState where
  | running | aborted | ended
  deriving DecidableEq

/-- `snapshot` is what `REPEATABLE READ` reads instead of the committed tables. -/
structure Client where
  snapshot : Option Ledger
  work : Work
  savepoints : List Work
  state : ClientState

/-- `fire` runs one deferred trigger: at the end of the database transaction, or earlier where
`SET CONSTRAINTS` has made the triggers immediate. -/
inductive ClientAction where
  | execute (statement : LedgerStatement)
  | fire
  | savepoint
  | rollbackTo (n : Nat)
  | commit
  | rollback

namespace Client

def view (x : Client) (committed : Ledger) : Ledger :=
  x.work.view (x.snapshot.getD committed)

/-- The work of a statement that passed, or a database transaction that is aborted. -/
def resume (x : Client) : Option Work → Client
  | some work => { x with work := work }
  | none => { x with state := .aborted }

def running (x : Client) (f : Client → Client) : Client :=
  if x.state = .running then f x else x

/-- What an action does to its session. A commit waits for the triggers in the queue, and ends
an aborted database transaction without a trace. -/
def step (admits : Ledger → LedgerStatement → Bool) (committed : Ledger) (x : Client) :
    ClientAction → Client
  | .execute statement =>
    x.running fun x => x.resume (x.work.execute admits (x.view committed) statement)
  | .fire => x.running fun x => x.resume (x.work.fire (x.view committed))
  | .savepoint => x.running fun x => { x with savepoints := x.work :: x.savepoints }
  | .rollbackTo n =>
    match x.state, x.savepoints.drop n with
    | .ended, _ | _, [] => x
    | _, work :: rest => { x with work := work, savepoints := work :: rest, state := .running }
  | .commit => if x.state = .running ∧ x.work.queued ≠ [] then x else { x with state := .ended }
  | .rollback => { x with state := .ended }

/-- The committed tables after an action: a commit with no trigger left publishes its work. -/
def publish (committed : Ledger) (x : Client) : ClientAction → Ledger
  | .commit =>
    if x.state = .running ∧ x.work.queued = [] then x.work.view committed else committed
  | _ => committed
end Client

structure Clients where
  committed : Ledger
  sessions : List Client

def Clients.initial : Clients := ⟨⟨[], []⟩, []⟩

inductive ClientEvent where
  | start (repeatable : Bool)
  | act (i : Nat) (action : ClientAction)

/-- Clients take turns: others may commit between two triggers of one session, and between
its last trigger and its commit. -/
def clientStep (admits : Ledger → LedgerStatement → Bool) (s : Clients) :
    ClientEvent → Clients
  | .start repeatable =>
    { s with sessions := s.sessions ++
        [⟨if repeatable then some s.committed else none, Work.empty, [], .running⟩] }
  | .act i action =>
    match s.sessions[i]? with
    | some x => ⟨x.publish s.committed action,
        s.sessions.set i (x.step admits s.committed action)⟩
    | none => s

/-- The transaction has no entry, or at least two that sum to zero. -/
def Balanced (rows : List LedgerEntry) (transactionId : Uuid) : Prop :=
  postingCount rows transactionId ≠ 0 →
    2 ≤ postingCount rows transactionId ∧ postingSum rows transactionId = 0

section Postings
variable {rows more : List LedgerEntry} {t : Uuid}

@[simp] theorem postingCount_nil : postingCount [] t = 0 := rfl
@[simp] theorem postingSum_nil : postingSum [] t = 0 := rfl

@[simp] theorem postingCount_append :
    postingCount (rows ++ more) t = postingCount rows t + postingCount more t := by
  simp [postingCount]

@[simp] theorem postingSum_append :
    postingSum (rows ++ more) t = postingSum rows t + postingSum more t :=
  sumWhere_append more

theorem postingSum_of_count (h : postingCount rows t = 0) : postingSum rows t = 0 := by
  have hnone : rows.filter (fun e => e.transactionId = t) = [] := List.length_eq_zero_iff.mp h
  rw [postingSum, sumWhere, hnone]
  rfl

theorem postingCount_of_notMem (h : t ∉ rows.map LedgerEntry.transactionId) :
    postingCount rows t = 0 := by
  rw [postingCount, List.length_eq_zero_iff, List.filter_eq_nil_iff]
  intro e he hid
  exact h (List.mem_map.mpr ⟨e, he, by simpa using hid⟩)

theorem Balanced.sum (h : Balanced rows t) : postingSum rows t = 0 := by
  by_cases hc : postingCount rows t = 0
  · exact postingSum_of_count hc
  · exact (h hc).2
end Postings

/-- A transaction whose triggers have all fired has entries here that sum to zero, and at
least two of them with those that are committed. -/
def Work.Settled (committed : Ledger) (w : Work) : Prop :=
  ∀ t ∉ w.queued, postingSum w.entries t = 0 ∧
    (postingCount w.entries t ≠ 0 →
      2 ≤ postingCount committed.entries t + postingCount w.entries t)

section Works
variable {admits : Ledger → LedgerStatement → Bool} {committed base : Ledger} {w w' : Work}

theorem Work.Settled.empty : Work.empty.Settled committed :=
  fun _ _ => ⟨rfl, fun h => absurd rfl h⟩

/-- More committed entries leave settled work settled. -/
theorem Work.Settled.mono (h : w.Settled committed) {later : Ledger}
    (hle : committed.entries <+: later.entries) : w.Settled later := by
  intro t ht
  obtain ⟨hsum, hcount⟩ := h t ht
  obtain ⟨more, he⟩ := hle
  refine ⟨hsum, fun hne => ?_⟩
  have hold := hcount hne
  rw [← he, postingCount_append]
  omega

/-- A statement queues a trigger for every entry that it adds, and touches no entry. -/
theorem Work.Settled.execute (h : w.Settled committed) {view : Ledger}
    {statement : LedgerStatement} (he : w.execute admits view statement = some w') :
    w'.Settled committed := by
  cases statement with
  | insertEntries rows =>
    simp only [Work.execute] at he
    split_ifs at he
    obtain rfl := Option.some.inj he
    intro t ht
    simp only [List.mem_append, not_or] at ht
    have hnone := postingCount_of_notMem ht.2
    have hzero := postingSum_of_count hnone
    obtain ⟨hsum, hcount⟩ := h t ht.1
    simp only [postingSum_append, postingCount_append, hnone, hzero]
    exact ⟨by omega, fun hne => by have := hcount (by omega); omega⟩
  | updateEntries targets assign | deleteEntries targets | insertTransactions rows
  | updateTransactions targets assign | deleteTransactions targets =>
    simp only [Work.execute] at he
    split_ifs at he
    obtain rfl := Option.some.inj he
    exact h

/-- A trigger that passes settles its transaction, because what the database transaction reads
of others was balanced before. -/
theorem Work.Settled.fire (h : w.Settled committed) (hle : base.entries <+: committed.entries)
    (hbase : ∀ t, Balanced base.entries t) (he : w.fire (w.view base) = some w') :
    w'.Settled committed := by
  unfold Work.fire at he
  cases hq : w.queued with
  | nil =>
    rw [hq] at he
    obtain rfl := Option.some.inj he
    exact h
  | cons target rest =>
    simp only [hq] at he
    split_ifs at he with hpass
    obtain rfl := Option.some.inj he
    intro t ht
    by_cases hid : t = target
    · subst hid
      simp only [Work.view, postingCount_append, postingSum_append] at hpass
      have hzero := (hbase t).sum
      obtain ⟨more, hmore⟩ := hle
      have hsum : postingSum w.entries t = 0 := by omega
      refine ⟨hsum, fun _ => ?_⟩
      rw [← hmore, postingCount_append]
      simp only
      omega
    · exact h t (by rw [hq]; simp [hid, ht])
end Works

/-- The work of a session is settled, at its savepoints as well, and what it reads of others
is balanced and still there. -/
structure Client.Sound (committed : Ledger) (x : Client) : Prop where
  snapshot : ∀ l, x.snapshot = some l →
    l.entries <+: committed.entries ∧ ∀ t, Balanced l.entries t
  work : x.work.Settled committed
  savepoints : ∀ w ∈ x.savepoints, w.Settled committed

namespace Client.Sound
variable {admits : Ledger → LedgerStatement → Bool} {committed : Ledger} {x : Client}

theorem mono (h : x.Sound committed) {later : Ledger}
    (hle : committed.entries <+: later.entries) : x.Sound later := by
  refine ⟨fun l hl => ?_, h.work.mono hle, fun w hw => (h.savepoints w hw).mono hle⟩
  obtain ⟨hbefore, hbalanced⟩ := h.snapshot l hl
  exact ⟨hbefore.trans hle, hbalanced⟩

theorem resume (h : x.Sound committed) {outcome : Option Work}
    (hw : ∀ w, outcome = some w → w.Settled committed) : (x.resume outcome).Sound committed := by
  cases outcome with
  | none => exact ⟨h.snapshot, h.work, h.savepoints⟩
  | some w => exact ⟨h.snapshot, hw w rfl, h.savepoints⟩

theorem base (h : x.Sound committed) (hcommitted : ∀ t, Balanced committed.entries t) :
    (x.snapshot.getD committed).entries <+: committed.entries ∧
      ∀ t, Balanced (x.snapshot.getD committed).entries t := by
  cases hs : x.snapshot with
  | none => exact ⟨List.prefix_refl _, hcommitted⟩
  | some l => exact h.snapshot l hs

theorem step (h : x.Sound committed) (hcommitted : ∀ t, Balanced committed.entries t)
    (action : ClientAction) : (x.step admits committed action).Sound committed := by
  have ended : ({ x with state := .ended } : Client).Sound committed :=
    ⟨h.snapshot, h.work, h.savepoints⟩
  cases action with
  | execute statement =>
    simp only [Client.step, running]
    split_ifs
    · exact h.resume fun w hw => h.work.execute hw
    · exact h
  | fire =>
    obtain ⟨hle, hbase⟩ := h.base hcommitted
    simp only [Client.step, running]
    split_ifs
    · exact h.resume fun w hw => h.work.fire hle hbase hw
    · exact h
  | savepoint =>
    simp only [Client.step, running]
    split_ifs
    · refine ⟨h.snapshot, h.work, fun w hw => ?_⟩
      cases List.mem_cons.mp hw with
      | inl he => exact he ▸ h.work
      | inr hold => exact h.savepoints w hold
    · exact h
  | rollbackTo n =>
    simp only [Client.step]
    split
    · exact h
    · exact h
    · rename_i work rest hdrop _
      have kept : ∀ w ∈ work :: rest, w.Settled committed := by
        intro w hw
        rw [← hdrop] at hw
        exact h.savepoints w (List.mem_of_mem_drop hw)
      exact ⟨h.snapshot, kept work List.mem_cons_self, kept⟩
  | commit =>
    simp only [Client.step]
    split_ifs
    · exact h
    · exact ended
  | rollback => exact ended

/-- What a commit publishes adds to the committed entries, and keeps them balanced. -/
theorem publish (h : x.Sound committed) (hcommitted : ∀ t, Balanced committed.entries t)
    (action : ClientAction) :
    committed.entries <+: (x.publish committed action).entries ∧
      ∀ t, Balanced (x.publish committed action).entries t := by
  cases action with
  | commit =>
    simp only [Client.publish]
    split_ifs with hpublish
    · refine ⟨List.prefix_append _ _, fun t hne => ?_⟩
      obtain ⟨hsum, hcount⟩ := h.work t (by rw [hpublish.2]; exact List.not_mem_nil)
      have hold := hcommitted t
      have hzero := hold.sum
      simp only [Work.view, postingCount_append, postingSum_append] at hne ⊢
      unfold Balanced at hold
      omega
    · exact ⟨List.prefix_refl _, hcommitted⟩
  | _ => exact ⟨List.prefix_refl _, hcommitted⟩
end Client.Sound

structure Clients.Sound (s : Clients) : Prop where
  balanced : ∀ t, Balanced s.committed.entries t
  sessions : ∀ x ∈ s.sessions, x.Sound s.committed

theorem Clients.Sound.step {admits : Ledger → LedgerStatement → Bool} {s : Clients}
    (h : s.Sound) (e : ClientEvent) : (clientStep admits s e).Sound := by
  cases e with
  | start repeatable =>
    refine ⟨h.balanced, fun x hx => ?_⟩
    cases List.mem_append.mp hx with
    | inl hold => exact h.sessions x hold
    | inr hnew =>
      rw [List.mem_singleton.mp hnew]
      refine ⟨fun l hl => ?_, Work.Settled.empty, fun w hw => by cases hw⟩
      cases repeatable with
      | false => cases hl
      | true =>
        obtain rfl := Option.some.inj hl
        exact ⟨List.prefix_refl _, h.balanced⟩
  | act i action =>
    simp only [clientStep]
    split
    · rename_i x hx
      have hsound := h.sessions x (List.mem_of_getElem? hx)
      obtain ⟨hle, hbalanced⟩ := hsound.publish h.balanced action
      refine ⟨hbalanced, fun y hy => ?_⟩
      cases List.mem_or_eq_of_mem_set hy with
      | inl hold => exact (h.sessions y hold).mono hle
      | inr he => exact he ▸ (hsound.step h.balanced action).mono hle
    · exact h

/-- Whatever else the two tables let pass, in every state that any interleaving of client
transactions commits, a transaction with an entry has at least two and they sum to zero. -/
theorem committed_transactions_balanced (admits : Ledger → LedgerStatement → Bool)
    (es : List ClientEvent) (transactionId : Uuid) :
    let entries := (Runs.run (clientStep admits) Clients.initial es).committed.entries
    (∃ e ∈ entries, e.transactionId = transactionId) →
      2 ≤ (entries.filter fun e => e.transactionId = transactionId).length ∧
      ((entries.filter fun e => e.transactionId = transactionId).map
        LedgerEntry.amountMinor).sum = 0 := by
  intro entries hex
  obtain ⟨e, he, hid⟩ := hex
  have hinitial : Clients.initial.Sound :=
    ⟨fun t h => absurd rfl h, fun x hx => by cases hx⟩
  have hsound : (Runs.run (clientStep admits) Clients.initial es).Sound :=
    Runs.run_invariant (fun _ e h => h.step e) hinitial es
  refine hsound.balanced transactionId fun hzero => ?_
  have hnone := List.filter_eq_nil_iff.mp (List.length_eq_zero_iff.mp hzero) e he
  exact hnone (by simpa using hid)

def sampleEntry (id account : Uuid) (direction : Direction) (amountMinor : Int)
    (signed : (direction = .debit ∧ amountMinor < 0) ∨ (direction = .credit ∧ 0 < amountMinor)) :
    LedgerEntry where
  ledgerEntryId := id
  transactionId := 1
  accountId := account
  amountMinor := amountMinor
  currency := "GBP"
  direction := direction
  entryType := .transfer
  signed := signed

/-- Two clients add a pair of entries each to one transaction, and commit after both have
fired their triggers; a third one tries to delete what they wrote. -/
def samplePairs : List ClientEvent :=
  [.start false, .start true,
    .act 0 (.execute (.insertEntries [sampleEntry 2 8 .debit (-5) (by decide),
      sampleEntry 3 9 .credit 5 (by decide)])),
    .act 1 (.execute (.insertEntries [sampleEntry 4 8 .debit (-7) (by decide),
      sampleEntry 5 9 .credit 7 (by decide)])),
    .act 0 .fire, .act 1 .fire, .act 0 .fire, .act 1 .fire, .act 0 .commit, .act 1 .commit,
    .start false, .act 2 (.execute (.deleteEntries fun _ => true)), .act 2 .commit]

theorem committed_transactions_balanced_pairs :
    let entries := (Runs.run (clientStep fun _ _ => true) Clients.initial
      samplePairs).committed.entries
    (∃ e ∈ entries, e.transactionId = 1) ∧
      2 ≤ (entries.filter fun e => e.transactionId = 1).length ∧
      ((entries.filter fun e => e.transactionId = 1).map LedgerEntry.amountMinor).sum = 0 := by
  intro entries
  have h : ∃ e ∈ entries, e.transactionId = 1 := by decide
  exact ⟨h, committed_transactions_balanced (fun _ _ => true) samplePairs 1 h⟩
end Bantam
