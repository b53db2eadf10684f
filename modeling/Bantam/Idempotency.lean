import Bantam.Replay
import Bantam.Serial

/-! One transaction for each actor and key, whatever calls race for it, and what the
calls that did not write it answer. -/
namespace Bantam
open Tables

/-- What a transaction moves between which accounts, and why. -/
structure Payment where
  sourceAccountId : Uuid
  destinationAccountId : Uuid
  amountMinor : Int
  currency : String
  transactionType : TransactionType
  reversesTransactionId : Option Uuid
  deriving DecidableEq

def Transaction.payment (t : Transaction) : Payment :=
  ⟨t.sourceAccountId, t.destinationAccountId, t.amountMinor, t.currency, t.transactionType,
    t.reversesTransactionId⟩

def NormalisedCommand.payment (cmd : NormalisedCommand) : Payment :=
  ⟨cmd.sourceAccountId, cmd.destinationAccountId, cmd.amountMinor, cmd.currency,
    cmd.transactionType, cmd.reversesTransactionId⟩

/-- The actor of a command and its key, less the surrounding whitespace. -/
def TransferCommand.identity (command : TransferCommand) : Uuid × String :=
  (command.actor.userId, Text.strip command.idempotencyKey)

/-- The payload is the row's, up to the status and the creation time it was read with. -/
def TransactionPayload.Tells (p : TransactionPayload) (t : Transaction) : Prop :=
  p = { transactionPayload t with status := p.status, createdAt := p.createdAt }

namespace TransactionPayload.Tells
variable {p : TransactionPayload} {t : Transaction}

theorem of_row (t : Transaction) : (transactionPayload t).Tells t := rfl

theorem reverse (h : p.Tells t) : p.Tells t.reverse := h

theorem transactionId (h : p.Tells t) : p.transactionId = t.transactionId := by
  rw [h]
  rfl
end TransactionPayload.Tells

namespace Call
variable {settings : Settings} {service : LedgerService} {c : Call}

theorem identity_eq (c : Call) :
    (c.cmd.actor.userId, c.cmd.idempotencyKey) = c.command.identity := by
  obtain ⟨-, hkey, hactor, -⟩ := normalise_ok c.normalised
  rw [TransferCommand.identity, hkey, hactor]

/-- The payload that the call has to answer with, once it has one. -/
def answer (c : Call) : Option TransactionPayload :=
  match c.stage with
  | .respond payload => some payload
  | .returned (.ok (payload, _)) => some payload
  | _ => none

/-- The row is the one that the call inserted, reversed since then or not. -/
structure Wrote (c : Call) (t : Transaction) : Prop where
  transactionId : t.transactionId = c.attempt.transactionId
  identity : t.identity = c.command.identity
  payment : t.payment = c.cmd.payment

theorem Wrote.inserted (c : Call) : c.Wrote (newTransaction c.attempt c.cmd) :=
  ⟨rfl, c.identity_eq, rfl⟩

theorem Wrote.reverse {t : Transaction} (h : c.Wrote t) : c.Wrote t.reverse :=
  ⟨h.transactionId, h.identity, h.payment⟩

theorem Wrote.become {t : Transaction} (h : c.Wrote t) (stage : Stage) :
    (c.become stage).Wrote t := ⟨h.transactionId, h.identity, h.payment⟩

/-- The row of the history that the call's payload tells. -/
def Answers (c : Call) (db : Db) (p : TransactionPayload) : Prop :=
  ∃ t ∈ db.transactions, t.identity = c.command.identity ∧ p.Tells t

theorem Answers.kept {db db' : Db} {p : TransactionPayload} (h : c.Answers db p)
    (hk : Kept db db') : c.Answers db' p := by
  obtain ⟨t, ht, hid, hp⟩ := h
  cases hk t ht with
  | inl ht => exact ⟨t, ht, hid, hp⟩
  | inr ht => exact ⟨t.reverse, ht.1, hid, hp.reverse⟩
end Call

/-- How many rows the history has under an identity. -/
def rowsUnder (identity : Uuid × String) (db : Db) : Nat :=
  (db.transactions.filter fun t => t.identity = identity).length

/-- One when the event is a step in which a call under the identity changes a balance. -/
def moves (settings : Settings) (service : LedgerService) (identity : Uuid × String) (s : Calls) :
    CallEvent → Nat
  | .advance i =>
    match s.calls[i]? with
    | some c =>
      if c.command.identity = identity ∧
          (callStep settings service s (.advance i)).db.balances ≠ s.db.balances then 1 else 0
    | none => 0
  | _ => 0

/-- Every row has a call that wrote it, and every answer is about a row under the
identity of its call. -/
structure Calls.Told (service : LedgerService) (s : Calls) : Prop where
  sound : s.Sound service
  recorded : Recorded s.db
  written : ∀ t ∈ s.db.transactions, ∃ c ∈ s.calls, c.Wrote t
  answered : ∀ (i : Nat) (c : Call), s.calls[i]? = some c → ∀ p, c.answer = some p →
    c.Answers s.db p

namespace Calls
variable {settings : Settings} {service : LedgerService} {s : Calls}

theorem Told.initial : Calls.initial.Told service := by
  refine ⟨Sound.initial, Recorded.migrated, ?_, ?_⟩
  · intro t ht
    cases ht
  · intro i c hc
    cases hc

theorem exists_move {i : Nat} {c : Call} {stage : Stage} {db : Db} (hi : s.calls[i]? = some c)
    {t : Transaction} (h : ∃ d ∈ s.calls, d.Wrote t) :
    ∃ d ∈ (s.move i c stage db).calls, d.Wrote t := by
  obtain ⟨d, hd, hw⟩ := h
  obtain ⟨j, hj⟩ := List.mem_iff_getElem?.mp hd
  by_cases hij : i = j
  · have he : d = c := by
      rw [hij, hj] at hi
      exact Option.some.inj hi
    have hlt : i < s.calls.length := (List.getElem?_eq_some_iff.mp hi).1
    exact ⟨c.become stage, List.mem_set hlt _, (he ▸ hw).become stage⟩
  · refine ⟨d, List.mem_iff_getElem?.mpr ⟨j, ?_⟩, hw⟩
    rw [move, List.getElem?_set_ne hij]
    exact hj

/-- A call that moves without a commit answers with a row that is there. -/
theorem answer_of_moves {blocked : Lock → Bool} {c : Call} {stage : Stage} {db db' : Db}
    (hm : c.Moves service blocked db stage db')
    (hc : c.Checked service db) (ho : ∀ p, c.answer = some p → c.Answers db p)
    {p : TransactionPayload} (hp : (c.become stage).answer = some p) : c.Answers db' p := by
  cases hm with
  | wait => exact ho p hp
  | replay existing found =>
    have he : transactionPayload existing = p := by simpa [Call.answer] using hp
    refine ⟨existing, lookup_mem found, ?_, he ▸ .of_row existing⟩
    rw [← c.identity_eq]
    exact lookup_key found
  | commit source destination db' hs posted =>
    have he : firstResponse c.attempt c.cmd = p := by simpa [Call.answer] using hp
    obtain ⟨ht, -⟩ := Call.commit_alone hs hc posted
    exact ⟨newTransaction c.attempt c.cmd, ht.row_mem, c.identity_eq, he ▸ rfl⟩
  | respond payload hs => exact ho p (by simpa [Call.answer, hs] using hp)
  | _ => simp [Call.answer] at hp

theorem Told.move (h : s.Told service) {i : Nat} {c : Call} {stage : Stage} {db : Db}
    (hi : s.calls[i]? = some c) (hm : c.Moves service (s.blocked service i) s.db stage db) :
    (s.move i c stage db).Told service := by
  have hc : c.Checked service s.db := h.sound.checked i c hi
  have hanswer : ∀ p, (c.become stage).answer = some p → c.Answers db p :=
    fun p hp => answer_of_moves hm hc (h.answered i c hi) hp
  cases hm.db_eq with
  | inl he =>
    subst he
    refine ⟨h.sound.move hi hm, h.recorded, fun t ht => exists_move hi (h.written t ht), ?_⟩
    intro j d hd p hp
    cases getElem?_move hd with
    | inl he => exact he.2 ▸ hanswer p (he.2 ▸ hp)
    | inr hd => exact h.answered j d hd.2 p hp
  | inr hcommit =>
    obtain ⟨source, destination, hs, hpost, -⟩ := hcommit
    obtain ⟨ht, -⟩ := Call.commit_alone hs hc hpost
    refine ⟨h.sound.move hi hm, h.recorded.transferred ht, ?_, ?_⟩
    · -- a row is new or was there, and may be reversed by this commit
      intro t hmem
      have hnew : ∀ q ∈ s.db.transactions ++ [newTransaction c.attempt c.cmd],
          ∃ d ∈ (s.move i c stage db).calls, d.Wrote q := by
        intro q hq
        cases List.mem_append.mp hq with
        | inl hq => exact exists_move hi (h.written q hq)
        | inr hq =>
          rw [List.mem_singleton.mp hq]
          exact exists_move hi ⟨c, List.mem_of_getElem? hi, .inserted c⟩
      obtain ⟨_, _, -, -, -, -, -, -, -, hposted⟩ := ht
      have hrows : t ∈ Db.reversedTransactions
          (s.db.transactions ++ [newTransaction c.attempt c.cmd]) c.cmd.reversesTransactionId := by
        rw [← challenged_transactions service.sca c.attempt c.cmd s.db, ← hposted.transactions]
        exact hmem
      cases Db.mem_reversedTransactions hrows with
      | inl hq => exact hnew t hq
      | inr hq =>
        obtain ⟨q, hq, -, rfl⟩ := hq
        obtain ⟨d, hd, hw⟩ := hnew q hq
        exact ⟨d, hd, hw.reverse⟩
    · intro j d hd p hp
      cases getElem?_move hd with
      | inl he => exact he.2 ▸ hanswer p (he.2 ▸ hp)
      | inr hd => exact (h.answered j d hd.2 p hp).kept (Kept.transferred ht)

theorem Told.begin (h : s.Told service) {c : Call} (hc : c.stage = .lookup) :
    ({ s with calls := s.calls ++ [c] } : Calls).Told service := by
  refine ⟨h.sound.begin hc, h.recorded, ?_, ?_⟩
  · intro t ht
    obtain ⟨d, hd, hw⟩ := h.written t ht
    exact ⟨d, List.mem_append_left _ hd, hw⟩
  · intro i d hd p hp
    cases getElem?_begin hd with
    | inl he => simp [he, Call.answer, hc] at hp
    | inr hd => exact h.answered i d hd p hp

theorem Told.crash (h : s.Told service) {i : Nat} {c : Call} (hi : s.calls[i]? = some c) :
    (s.move i c .crashed s.db).Told service := by
  refine ⟨h.sound.crash, h.recorded, fun t ht => exists_move hi (h.written t ht), ?_⟩
  intro j d hd p hp
  cases getElem?_move hd with
  | inl he => simp [he.2, Call.answer] at hp
  | inr hd => exact h.answered j d hd.2 p hp

theorem operation_transactions (settings : Settings) (service : LedgerService) (o : Operation)
    (db : Db) :
    (bankStep settings service.sca db (.operation o)).transactions = db.transactions := by
  simp only [bankStep]
  split
  · rename_i hok
    exact (Operation.perform_writes hok).transactions
  · rfl

theorem Told.operation (h : s.Told service) {o : Operation} (ha : s.available service o = true) :
    ({ s with db := bankStep settings service.sca s.db (.operation o) } : Calls).Told service := by
  have hrows := operation_transactions settings service o s.db
  refine ⟨h.sound.operation ha, h.recorded.congr hrows, ?_, ?_⟩
  · intro t ht
    exact h.written t (hrows ▸ ht)
  · intro i c hc p hp
    exact (h.answered i c hc p hp).kept (Kept.of_eq hrows)

theorem Told.step (s : Calls) (e : CallEvent) (h : s.Told service) :
    (callStep settings service s e).Told service := by
  rcases callStep_cases settings service s e with
    he | ⟨c, hc, he⟩ | ⟨i, c, stage, db, -, hc, hm, he⟩ | ⟨i, c, -, hc, he⟩ | ⟨o, -, ha, he⟩
  · rw [he]
    exact h
  · rw [he]
    exact h.begin hc
  · rw [he]
    exact h.move hc hm
  · rw [he]
    exact h.crash hc
  · rw [he]
    exact h.operation ha

theorem told_run (settings : Settings) (service : LedgerService) (es : List CallEvent) :
    (Runs.run (callStep settings service) Calls.initial es).Told service :=
  Runs.run_invariant Told.step Told.initial es
end Calls

section Counting
variable {settings : Settings} {service : LedgerService} {s : Calls} {identity : Uuid × String}

theorem rowsUnder_eq_count (identity : Uuid × String) (db : Db) :
    rowsUnder identity db = (db.transactions.map Transaction.identity).count identity := by
  rw [rowsUnder, List.count_eq_countP, List.countP_map, List.countP_eq_length_filter]
  exact congrArg List.length (List.filter_congr fun t _ => by rw [Bool.eq_iff_iff]; simp)

theorem rowsUnder_le_one (h : Recorded s.db) : rowsUnder identity s.db ≤ 1 := by
  rw [rowsUnder_eq_count]
  exact List.nodup_iff_count_le_one.mp h.identitiesKeyed identity

/-- A commit adds one row, under the identity of its call. -/
theorem rowsUnder_posted {attempt : Attempt} {cmd : NormalisedCommand} {db db' : Db}
    (hp : Posted attempt cmd db db') :
    rowsUnder identity db' = rowsUnder identity db +
      if (cmd.actor.userId, cmd.idempotencyKey) = identity then 1 else 0 := by
  have hkey : ∀ t : Transaction, t.reverse.identity = t.identity := fun _ => rfl
  rw [rowsUnder_eq_count, hp.transactions, Db.reversedTransactions_map _ hkey, List.map_append,
    List.count_append, rowsUnder_eq_count]
  simp [List.count_singleton, newTransaction, Transaction.identity]

theorem moves_eq_zero {e : CallEvent}
    (h : (callStep settings service s e).db.balances = s.db.balances) :
    moves settings service identity s e = 0 := by
  cases e with
  | advance i =>
    simp only [moves]
    split
    · rw [if_neg fun hm => hm.2 h]
    · rfl
  | _ => rfl

theorem moves_le (settings : Settings) (service : LedgerService) (identity : Uuid × String)
    {i : Nat} {c : Call} (hc : s.calls[i]? = some c) :
    moves settings service identity s (.advance i) ≤
      if c.command.identity = identity then 1 else 0 := by
  by_cases hid : c.command.identity = identity
  · simp only [moves, hc]
    rw [if_pos hid]
    split_ifs <;> omega
  · have hzero : moves settings service identity s (.advance i) = 0 := by
      simp only [moves, hc]
      exact if_neg fun hm => hid hm.1
    rw [hzero]
    exact Nat.zero_le _

/-- A step that moves a balance for an identity puts a row under it. -/
theorem rowsUnder_step (identity : Uuid × String) (s : Calls) (e : CallEvent) :
    rowsUnder identity s.db + moves settings service identity s e ≤
      rowsUnder identity (callStep settings service s e).db := by
  have still : (callStep settings service s e).db = s.db →
      rowsUnder identity s.db + moves settings service identity s e ≤
        rowsUnder identity (callStep settings service s e).db := by
    intro hdb
    have hm : moves settings service identity s e = 0 := moves_eq_zero (by rw [hdb])
    rw [hm, hdb]
    exact Nat.le_refl _
  rcases callStep_cases settings service s e with
    he | ⟨c, hc, he⟩ | ⟨i, c, stage, db, rfl, hc, hm, he⟩ | ⟨i, c, rfl, hc, he⟩ | ⟨o, rfl, ha, he⟩
  · exact still (by rw [he])
  · exact still (by rw [he])
  · cases hm.db_eq with
    | inl hdb => exact still (by rw [he]; exact hdb)
    | inr hcommit =>
      obtain ⟨source, destination, hs, hpost, -⟩ := hcommit
      have hrow : rowsUnder identity db = rowsUnder identity s.db +
          if c.command.identity = identity then 1 else 0 := by
        have hbefore : rowsUnder identity (challenged service.sca c.attempt c.cmd s.db) =
            rowsUnder identity s.db := by
          simp only [rowsUnder, challenged_transactions]
        rw [rowsUnder_posted (postTransfer_ok hpost), hbefore, c.identity_eq]
      have hle := moves_le settings service identity hc
      rw [he, Calls.move, hrow]
      omega
  · exact still (by rw [he]; rfl)
  · simp only [moves, he, rowsUnder, Calls.operation_transactions]
    exact Nat.le_refl _
end Counting

/-- Whatever the calls under one actor and key do, and in whatever order their statements
run: one row at most, one movement of balances at most, and one transaction in all answers. -/
theorem transfer_exactly_once (settings : Settings) (service : LedgerService)
    (es : List CallEvent) (identity : Uuid × String) :
    let s := Runs.run (callStep settings service) Calls.initial es
    rowsUnder identity s.db ≤ 1 ∧
    Runs.tally (callStep settings service) (moves settings service identity) Calls.initial es ≤ 1 ∧
    ∀ c ∈ s.calls, c.command.identity = identity → ∀ p replayed,
      c.stage = .returned (.ok (p, replayed)) →
      ∃ t ∈ s.db.transactions, t.identity = identity ∧ p.transactionId = t.transactionId := by
  intro s
  have htold : s.Told service := Calls.told_run settings service es
  have hone : rowsUnder identity s.db ≤ 1 := rowsUnder_le_one htold.recorded
  refine ⟨hone, ?_, ?_⟩
  · have htally := Runs.tally_le (moves settings service identity)
      (fun s => rowsUnder identity s.db) (rowsUnder_step identity) Calls.initial es
    have hend : rowsUnder identity s.db ≤ 1 := hone
    exact Nat.le_trans (Nat.le_of_add_left_le htally) hend
  · intro c hc hid p replayed hs
    obtain ⟨i, hi⟩ := List.mem_iff_getElem?.mp hc
    obtain ⟨t, ht, hidentity, hp⟩ := htold.answered i c hi p (by simp [Call.answer, hs])
    exact ⟨t, ht, hidentity.trans hid, hp.transactionId⟩

/-- A replay tells the row under its actor and key, which holds the payment of the one call
that wrote it; when all calls under the key ask for one payment, it is the payment asked for. -/
theorem replay_tells_written_payment (settings : Settings) (service : LedgerService)
    (es : List CallEvent) :
    let s := Runs.run (callStep settings service) Calls.initial es
    ∀ c ∈ s.calls, ∀ p, c.stage = .returned (.ok (p, true)) →
      ∃ t ∈ s.db.transactions, ∃ writer ∈ s.calls,
        t.identity = c.command.identity ∧ p.Tells t ∧
        (∀ u ∈ s.db.transactions, u.identity = c.command.identity → u = t) ∧
        writer.command.identity = c.command.identity ∧ t.payment = writer.cmd.payment ∧
        ((∀ d ∈ s.calls, d.command.identity = c.command.identity → d.cmd.payment = c.cmd.payment) →
          t.payment = c.cmd.payment) := by
  intro s c hc p hs
  have htold : s.Told service := Calls.told_run settings service es
  obtain ⟨i, hi⟩ := List.mem_iff_getElem?.mp hc
  obtain ⟨t, ht, hidentity, hp⟩ := htold.answered i c hi p (by simp [Call.answer, hs])
  obtain ⟨writer, hw, hwrote⟩ := htold.written t ht
  have hsame : writer.command.identity = c.command.identity :=
    hwrote.identity.symm.trans hidentity
  refine ⟨t, ht, writer, hw, hidentity, hp, ?_, hsame, hwrote.payment, ?_⟩
  · intro u hu huid
    exact htold.recorded.identitiesKeyed.eq_of_key hu ht (huid.trans hidentity.symm)
  · intro hall
    exact hwrote.payment.trans (hall writer hw hsame)

/-- Two calls under one key look it up before either has the advisory lock; the first
then runs to its answer and the second after it. -/
def sampleRace : List CallEvent :=
  [.operation (.seedRows 0), .begin (sampleAttempt 1 3 3) (sampleDeposit "sample-key" 100),
    .begin (sampleAttempt 2 3 3) (sampleDeposit " sample-key " 100), .advance 0, .advance 1] ++
  List.replicate 10 (.advance 0) ++ List.replicate 2 (.advance 1)

theorem replay_tells_written_payment_race :
    let s := Runs.run (callStep sampleSettings sampleService) Calls.initial sampleRace
    ∃ c ∈ s.calls, c.stage = .returned (.ok (samplePayload 3, true)) ∧
      ∃ t ∈ s.db.transactions, ∃ writer ∈ s.calls,
        t.identity = c.command.identity ∧ (samplePayload 3).Tells t ∧
        (∀ u ∈ s.db.transactions, u.identity = c.command.identity → u = t) ∧
        writer.command.identity = c.command.identity ∧ t.payment = writer.cmd.payment ∧
        ((∀ d ∈ s.calls, d.command.identity = c.command.identity → d.cmd.payment = c.cmd.payment) →
          t.payment = c.cmd.payment) := by
  intro s
  have hstage : (s.calls[1]?).map Call.stage = some (.returned (.ok (samplePayload 3, true))) := by
    decide
  obtain ⟨c, hc, hs⟩ := Option.map_eq_some_iff.mp hstage
  have hmem : c ∈ s.calls := List.mem_of_getElem? hc
  exact ⟨c, hmem, hs,
    replay_tells_written_payment sampleSettings sampleService sampleRace c hmem _ hs⟩

/-- A key reused for a payment of 200 is answered with the payment of 100. -/
theorem replay_of_other_payment :
    let paid := Runs.run (bankStep sampleSettings sampleSca) Db.migrated
      [.operation (.seedRows 0), .transfer (sampleAttempt 1 3 3) (sampleDeposit "sample-key" 100)]
    (createTransfer sampleSca (sampleAttempt 2 9 9) (sampleDeposit "sample-key" 200) paid).1 =
      .ok (samplePayload 3, true) ∧
    (samplePayload 3).amountMinor ≠ (sampleDeposit "sample-key" 200).amountMinor := by
  decide
end Bantam
