import Bantam.History

/-! What a replay answers: the stored row, which differs from the first answer in the
creation time alone. -/
namespace Bantam
open Tables
variable {settings : Settings} {sca : ScaService} {db : Db} {attempt : Attempt}
  {command : TransferCommand} {cmd : NormalisedCommand}

/-- Two attempts of one command normalise to one actor and key. -/
theorem normalise_attempts (again : Attempt) (requestId : Option Uuid)
    (h : normalise attempt.requestId command = .ok cmd) :
    ∃ cmd', normalise again.requestId { command with requestId := requestId } = .ok cmd' ∧
      cmd'.actor = cmd.actor ∧ cmd'.idempotencyKey = cmd.idempotencyKey := by
  obtain ⟨cmd', h'⟩ := normalise_redraw again.requestId requestId h
  obtain ⟨-, hkey, hactor, -⟩ := normalise_ok h
  obtain ⟨-, hkey', hactor', -⟩ := normalise_ok h'
  exact ⟨cmd', h', hactor'.trans hactor.symm, hkey'.trans hkey.symm⟩

/-- Whenever a row is under the command's identity, every attempt answers that row. -/
theorem createTransfer_replay (again : Attempt) (requestId : Option Uuid) {t : Transaction}
    (h : normalise attempt.requestId command = .ok cmd)
    (ht : db.findByIdempotency cmd.actor.userId cmd.idempotencyKey = some t) :
    createTransfer sca again { command with requestId := requestId } db =
      (.ok (transactionPayload t, true), db) := by
  obtain ⟨cmd', h', hactor, hkey⟩ := normalise_attempts again requestId h
  rw [createTransfer_of_normalise h']
  simp [transferNormalised, hactor, hkey, ht]

/-- The stored row of a first call, read back. -/
theorem transactionPayload_newTransaction (attempt : Attempt) (cmd : NormalisedCommand) :
    transactionPayload (newTransaction attempt cmd) =
      { firstResponse attempt cmd with createdAt := attempt.databaseNow } := rfl

/-- A first call and its replay after any further operations that do not reverse it. -/
theorem replay_after (again : Attempt) (hr : Recorded db) {first : TransactionPayload}
    (hfirst : (createTransfer sca attempt command db).1 = .ok (first, false))
    (after : List BankEvent)
    (hrev : ∀ r ∈ (Runs.run (bankStep settings sca) (createTransfer sca attempt command db).2
      after).transactions, r.reversesTransactionId ≠ some first.transactionId) :
    (createTransfer sca again command (Runs.run (bankStep settings sca)
        (createTransfer sca attempt command db).2 after)).1 =
      .ok ({ first with createdAt := attempt.databaseNow }, true) ∧
    first.createdAt = attempt.postedAt := by
  cases createTransfer_cases sca attempt command db with
  | inl hrefused =>
    obtain ⟨-, hne⟩ := hrefused
    exact absurd hfirst (hne first)
  | inr hcommitted =>
    obtain ⟨cmd, db', hn, he, ht⟩ := hcommitted
    rw [he] at hfirst hrev ⊢
    simp only [Except.ok.injEq, Prod.mk.injEq, and_true] at hfirst
    subst hfirst
    have hlater := recorded_run settings sca (hr.transferred ht) after
    have hkept := Kept.run settings sca db' after
    cases hkept.findByIdempotency hlater ht.row_mem with
    | inl hf =>
      rw [createTransfer_replay again command.requestId hn hf, transactionPayload_newTransaction]
      exact ⟨rfl, rfl⟩
    | inr hwritten =>
      obtain ⟨-, r, hr', ho⟩ := hwritten
      exact absurd ho (hrev r hr')

/-- A replay equals the first answer exactly when the two clocks read the same instant;
its set of fields is the same either way. -/
theorem replay_agrees_iff (settings : Settings) (sca : ScaService)
    (before after : List BankEvent) (attempt again : Attempt) (command : TransferCommand)
    (first : TransactionPayload)
    (hfirst : (createTransfer sca attempt command
      (Runs.run (bankStep settings sca) Db.migrated before)).1 = .ok (first, false))
    (hrev : ∀ r ∈ (Runs.run (bankStep settings sca) Db.migrated
      (before ++ .transfer attempt command :: after)).transactions,
      r.reversesTransactionId ≠ some first.transactionId) :
    ∃ replay, (createTransfer sca again command (Runs.run (bankStep settings sca) Db.migrated
        (before ++ .transfer attempt command :: after))).1 = .ok (replay, true) ∧
      ((replay = first ∧ replay.fields = first.fields) ↔
        attempt.databaseNow = attempt.postedAt) ∧
      replay.fields = first.fields ∧
      { replay with createdAt := first.createdAt } = first := by
  rw [Runs.run_append] at hrev ⊢
  obtain ⟨hreplay, hcreated⟩ :=
    replay_after again (recorded_run settings sca Recorded.migrated before) hfirst after hrev
  refine ⟨_, hreplay, ⟨?_, ?_⟩, rfl, rfl⟩
  · rintro ⟨heq, -⟩
    rw [← hcreated, ← heq]
  · intro hclock
    refine ⟨?_, rfl⟩
    rw [hclock, ← hcreated]

/-- The answer to the sample deposit, created at the given instant and posted at 3. -/
def samplePayload (createdAt : Instant) : TransactionPayload where
  transactionId := 17
  idempotencyKey := "sample-key"
  requestId := 7
  sourceAccountId := treasuryAccountId
  destinationAccountId := aliceAccountId
  amountMinor := 100
  currency := "GBP"
  description := "Synthetic opening balance"
  transactionType := .demoDeposit
  status := .posted
  failureReason := none
  createdAt := createdAt
  postedAt := some 3

theorem replay_agrees_iff_sample :
    let later := Runs.run (bankStep sampleSettings sampleSca) Db.migrated
      ([.operation (.seedRows 0)] ++
        .transfer (sampleAttempt 1 3 3) (sampleDeposit "sample-key" 100) :: [])
    ∃ replay, (createTransfer sampleSca (sampleAttempt 2 9 9) (sampleDeposit "sample-key" 100)
        later).1 = .ok (replay, true) ∧
      ((replay = samplePayload 3 ∧ replay.fields = (samplePayload 3).fields) ↔
        (sampleAttempt 1 3 3).databaseNow = (sampleAttempt 1 3 3).postedAt) ∧
      replay.fields = (samplePayload 3).fields ∧
      { replay with createdAt := (samplePayload 3).createdAt } = samplePayload 3 :=
  replay_agrees_iff sampleSettings sampleSca [.operation (.seedRows 0)] []
    (sampleAttempt 1 3 3) (sampleAttempt 2 9 9) (sampleDeposit "sample-key" 100)
    (samplePayload 3) (by decide) (by decide)

/-- The database stamps the row at 5 and the first answer says 3. -/
theorem replay_differs :
    let seeded := Runs.run (bankStep sampleSettings sampleSca) Db.migrated
      [.operation (.seedRows 0)]
    let first := createTransfer sampleSca (sampleAttempt 1 3 5) (sampleDeposit "sample-key" 100)
      seeded
    first.1 = .ok (samplePayload 3, false) ∧
    (createTransfer sampleSca (sampleAttempt 2 9 9) (sampleDeposit "sample-key" 100)
      first.2).1 = .ok (samplePayload 5, true) ∧
    samplePayload 5 ≠ samplePayload 3 := by
  decide
end Bantam
