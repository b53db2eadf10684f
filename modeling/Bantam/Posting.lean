import Bantam.Ledger

/-! What the statements of a transfer do when they pass, and what a transfer that
commits has written and checked. -/
namespace Bantam
open Tables
variable {db db' : Db}

namespace Db

/-- The balances after one balance `UPDATE`. -/
def postedBalances (rows : List AccountBalance) (accountId : Uuid) (delta : Int) (entry : Uuid)
    (now : Instant) : List AccountBalance :=
  updateWhere (fun b => b.accountId = accountId) (AccountBalance.post delta entry now) rows

/-- The transactions after the status `UPDATE` of a reversal, if there is one. -/
def reversedTransactions (rows : List Transaction) : Option Uuid → List Transaction
  | none => rows
  | some id => updateWhere (fun t => t.transactionId = id) Transaction.reverse rows

section Statements
variable {accountId entry : Uuid} {delta : Int} {now : Instant}

theorem insertTransaction_ok {row : Transaction} (h : db.insertTransaction row = .ok db') :
    (row.transactionId ∉ db.transactions.map Transaction.transactionId ∧
      row.identity ∉ db.transactions.map Transaction.identity ∧
      (∀ t ∈ db.transactions, row.reversesTransactionId.isSome →
        t.reversesTransactionId ≠ row.reversesTransactionId) ∧
      row.initiatedByUserId ∈ db.users.map UserAccount.userId ∧
      row.sourceAccountId ∈ db.accounts.map BankAccount.accountId ∧
      row.destinationAccountId ∈ db.accounts.map BankAccount.accountId) ∧
    db' = { db with transactions := db.transactions ++ [row] } := by
  simp only [insertTransaction, bind_eq_ok, require_eq_ok, pure, Except.pure,
    Except.ok.injEq] at h
  obtain ⟨_, -, _, hid, _, hkey, _, hrev, _, huser, _, hs, _, hd, _, -, rfl⟩ := h
  exact ⟨⟨hid, hkey, hrev, huser, hs, hd⟩, rfl⟩

theorem insertEntry_ok {row : LedgerEntry} (h : db.insertEntry row = .ok db') :
    (row.ledgerEntryId ∉ db.entries.map LedgerEntry.ledgerEntryId ∧
      row.transactionId ∈ db.transactions.map Transaction.transactionId ∧
      row.accountId ∈ db.accounts.map BankAccount.accountId) ∧
    db' = { db with entries := db.entries ++ [row] } := by
  simp only [insertEntry, bind_eq_ok, require_eq_ok, pure, Except.pure, Except.ok.injEq] at h
  obtain ⟨_, -, _, hid, _, ht, _, ha, rfl⟩ := h
  exact ⟨⟨hid, ht, ha⟩, rfl⟩

theorem insertOutbox_ok {row : OutboxRow} :
    db.insertOutbox row = .ok db' ↔
      row.outboxEventId ∉ db.outbox.map OutboxRow.outboxEventId ∧
      db' = { db with outbox := db.outbox ++ [row] } := by
  simp only [insertOutbox, bind_eq_ok, require_eq_ok, pure, Except.pure, Except.ok.injEq]
  constructor
  · rintro ⟨-, h, rfl⟩
    exact ⟨h, rfl⟩
  · rintro ⟨h, rfl⟩
    exact ⟨(), h, rfl⟩

theorem insertAudit_ok {row : AuditEvent} :
    db.insertAudit row = .ok db' ↔
      row.auditEventId ∉ db.audit.map AuditEvent.auditEventId ∧
      db' = { db with audit := db.audit ++ [row] } := by
  simp only [insertAudit, bind_eq_ok, require_eq_ok, pure, Except.pure, Except.ok.injEq]
  constructor
  · rintro ⟨-, h, rfl⟩
    exact ⟨h, rfl⟩
  · rintro ⟨h, rfl⟩
    exact ⟨(), h, rfl⟩

/-- The trigger lets a version pass exactly when the account may carry it. -/
theorem rejectNegativeCustomerBalance_ok {current available : Int} {u : Unit} :
    db.rejectNegativeCustomerBalance accountId current available = .ok u ↔
      ∃ a, db.findAccount accountId = some a ∧
        (a.allowNegative = true ∨ 0 ≤ current ∧ 0 ≤ available) := by
  unfold rejectNegativeCustomerBalance
  cases h : db.findAccount accountId with
  | none => simp
  | some a =>
    simp only [require_eq_ok, Option.some.injEq, exists_eq_left']
    cases a.allowNegative <;> simp

theorem addToBalance_ok (h : db.addToBalance accountId delta entry now = .ok db') :
    (∀ b, db.findBalance accountId = some b →
      InBigint (b.currentBalanceMinor + delta) ∧ InBigint (b.availableBalanceMinor + delta) ∧
      ∃ a, db.findAccount accountId = some a ∧ (a.allowNegative = true ∨
        0 ≤ b.currentBalanceMinor + delta ∧ 0 ≤ b.availableBalanceMinor + delta)) ∧
    db' = { db with balances := postedBalances db.balances accountId delta entry now } := by
  unfold addToBalance at h
  cases hb : db.findBalance accountId with
  | none =>
    simp only [hb, Except.ok.injEq] at h
    have hnone : ∀ b ∈ db.balances, decide (b.accountId = accountId) = false := by
      intro b hm
      have hk := lookup_none_iff.mp hb
      simp only [decide_eq_false_iff_not]
      rintro rfl
      exact hk (List.mem_map_of_mem hm)
    refine ⟨by simp, ?_⟩
    rw [← h, postedBalances, updateWhere_of_none hnone]
  | some b =>
    simp only [hb, bind_eq_ok, require_eq_ok, rejectNegativeCustomerBalance_ok, pure,
      Except.pure, Except.ok.injEq] at h
    obtain ⟨_, ⟨hc, ha⟩, _, hneg, rfl⟩ := h
    refine ⟨?_, rfl⟩
    rintro b' hb'
    cases hb'
    exact ⟨hc, ha, hneg⟩

theorem setReversed_ok {id : Uuid} (h : db.setReversed id = .ok db') :
    (∀ t, db.findTransaction id = some t → t.status = .posted) ∧
    db' = { db with transactions := reversedTransactions db.transactions (some id) } := by
  unfold setReversed at h
  cases ht : db.findTransaction id with
  | none =>
    simp only [ht, Except.ok.injEq] at h
    have hnone : ∀ t ∈ db.transactions, decide (t.transactionId = id) = false := by
      intro t hm
      have hk := lookup_none_iff.mp ht
      simp only [decide_eq_false_iff_not]
      rintro rfl
      exact hk (List.mem_map_of_mem hm)
    refine ⟨by simp, ?_⟩
    rw [← h, reversedTransactions, updateWhere_of_none hnone]
  | some t =>
    simp only [ht, bind_eq_ok, require_eq_ok, pure, Except.pure, Except.ok.injEq] at h
    obtain ⟨_, hp, rfl⟩ := h
    refine ⟨?_, rfl⟩
    rintro t' ht'
    cases ht'
    exact hp

theorem assertTransactionBalanced_ok {id : Uuid} (h : db.assertTransactionBalanced id = .ok db') :
    db' = db := by
  simp only [assertTransactionBalanced, bind_eq_ok, require_eq_ok, pure, Except.pure,
    Except.ok.injEq] at h
  obtain ⟨_, -, rfl⟩ := h
  rfl
end Statements

section Rows
variable {rows : List Transaction}

theorem reversedTransactions_map {β : Type} (g : Transaction → β)
    (hg : ∀ t, g t.reverse = g t) (o : Option Uuid) :
    (reversedTransactions rows o).map g = rows.map g := by
  cases o with
  | none => rfl
  | some id => exact map_updateWhere g _ _ hg

/-- A reversal changes nothing of a row but its status. -/
theorem mem_reversedTransactions {t : Transaction} {o : Option Uuid}
    (h : t ∈ reversedTransactions rows o) :
    t ∈ rows ∨ ∃ q ∈ rows, o = some q.transactionId ∧ t = q.reverse := by
  cases o with
  | none => exact .inl h
  | some id =>
    cases updateWhere_cases h with
    | inl hold => exact .inl hold.1
    | inr hnew =>
      obtain ⟨q, hq, hid, rfl⟩ := hnew
      exact .inr ⟨q, hq, by rw [of_decide_eq_true hid], rfl⟩

theorem reversedTransactions_lookup {κ : Type} [DecidableEq κ] {key : Transaction → κ}
    (hkey : ∀ t, key t.reverse = key t) (k : κ) (o : Option Uuid) :
    lookup key k (reversedTransactions rows o) =
      (lookup key k rows).map fun t =>
        if o = some t.transactionId then t.reverse else t := by
  cases o with
  | none => simp [reversedTransactions]
  | some id =>
    rw [reversedTransactions, lookup_updateWhere hkey]
    refine congrArg (Option.map · _) (funext fun t => ?_)
    by_cases h : t.transactionId = id
    · simp [h]
    · simp [h, Ne.symm h]
end Rows
end Db

/-- What a committed transfer has written, and the constraints it met. -/
structure Posted (attempt : Attempt) (cmd : NormalisedCommand) (db db' : Db) : Prop where
  customers : db'.customers = db.customers
  users : db'.users = db.users
  permissions : db'.permissions = db.permissions
  accounts : db'.accounts = db.accounts
  challenges : db'.challenges = db.challenges
  riskAlerts : db'.riskAlerts = db.riskAlerts
  transactions : db'.transactions =
    Db.reversedTransactions (db.transactions ++ [newTransaction attempt cmd])
      cmd.reversesTransactionId
  entries : db'.entries = db.entries ++ [debitEntry attempt cmd, creditEntry attempt cmd]
  balances : db'.balances =
    Db.postedBalances
      (Db.postedBalances db.balances cmd.sourceAccountId (-cmd.amountMinor)
        attempt.debitEntryId attempt.databaseNow)
      cmd.destinationAccountId cmd.amountMinor attempt.creditEntryId attempt.databaseNow
  outbox : db'.outbox = db.outbox ++ [transferEvent attempt cmd]
  audit : db'.audit = db.audit ++ [transferAudit attempt cmd]
  freshId : attempt.transactionId ∉ db.transactions.map Transaction.transactionId
  freshKey : (cmd.actor.userId, cmd.idempotencyKey) ∉ db.transactions.map Transaction.identity
  freshReversal : ∀ t ∈ db.transactions, cmd.reversesTransactionId.isSome →
    t.reversesTransactionId ≠ cmd.reversesTransactionId
  freshEvent : attempt.outboxEventId ∉ db.outbox.map OutboxRow.outboxEventId
  initiator : cmd.actor.userId ∈ db.users.map UserAccount.userId
  sourceExists : cmd.sourceAccountId ∈ db.accounts.map BankAccount.accountId
  destinationExists : cmd.destinationAccountId ∈ db.accounts.map BankAccount.accountId
  sourceInRange : ∀ b, db.findBalance cmd.sourceAccountId = some b →
    InBigint (b.currentBalanceMinor - cmd.amountMinor)
  destinationInRange : ∀ b, db.findBalance cmd.destinationAccountId = some b →
    InBigint (b.currentBalanceMinor + cmd.amountMinor)

theorem postedBalances_ids {rows : List AccountBalance} {a entry : Uuid} {delta : Int}
    {now : Instant} :
    (Db.postedBalances rows a delta entry now).map AccountBalance.accountId =
      rows.map AccountBalance.accountId :=
  map_updateWhere _ _ _ fun _ => rfl

theorem findBalance_postedBalances {rows : List AccountBalance} {a b entry : Uuid} {delta : Int}
    {now : Instant} (h : b ≠ a) :
    lookup AccountBalance.accountId b (Db.postedBalances rows a delta entry now) =
      lookup AccountBalance.accountId b rows := by
  have hkey : ∀ r, (AccountBalance.post delta entry now r).accountId = r.accountId := fun _ => rfl
  rw [Db.postedBalances, lookup_updateWhere hkey]
  cases hl : lookup AccountBalance.accountId b rows with
  | none => rfl
  | some q =>
    have hk : q.accountId = b := lookup_key hl
    simp [hk, h]

theorem markReversed_ok {o : Option Uuid} (h : markReversed o db = .ok db') :
    db' = { db with transactions := Db.reversedTransactions db.transactions o } := by
  cases o with
  | none =>
    cases h
    rfl
  | some id => exact (Db.setReversed_ok h).2

theorem postTransfer_ok {attempt : Attempt} {cmd : NormalisedCommand}
    (h : postTransfer attempt cmd db = .ok db') : Posted attempt cmd db db' := by
  simp only [postTransfer, bind_eq_ok] at h
  obtain ⟨d1, h1, d2, h2, d3, h3, d4, h4, d5, h5, d6, h6, d7, h7, d8, h8, h9⟩ := h
  obtain ⟨⟨hid, hkey, hrev, huser, hs, hd⟩, rfl⟩ := Db.insertTransaction_ok h1
  obtain ⟨-, rfl⟩ := Db.insertEntry_ok h2
  obtain ⟨-, rfl⟩ := Db.insertEntry_ok h3
  obtain ⟨hsource, rfl⟩ := Db.addToBalance_ok h4
  obtain ⟨hdest, rfl⟩ := Db.addToBalance_ok h5
  have hne := cmd.distinct.symm
  have hdest' : ∀ b, db.findBalance cmd.destinationAccountId = some b →
      InBigint (b.currentBalanceMinor + cmd.amountMinor) := by
    intro b hb
    refine (hdest b ?_).1
    simpa only [Db.findBalance, findBalance_postedBalances hne] using hb
  obtain rfl := markReversed_ok h6
  obtain ⟨hevent, rfl⟩ := Db.insertOutbox_ok.mp h7
  obtain ⟨-, rfl⟩ := Db.insertAudit_ok.mp h8
  have h9' := Db.assertTransactionBalanced_ok h9
  subst h9'
  refine ⟨rfl, rfl, rfl, rfl, rfl, rfl, rfl, ?_, rfl, rfl, rfl, hid, hkey, hrev, hevent, huser, hs,
    hd, ?_, hdest'⟩
  · simp
  · intro b hb
    exact (hsource b hb).1

section Transfers
variable {sca : ScaService} {attempt : Attempt} {cmd : NormalisedCommand}
  {payload : TransactionPayload} {replayed : Bool}

/-- The challenge that a payment consumes, if it has to present one. -/
def consumedChallenge (sca : ScaService) (cmd : NormalisedCommand) : Option Uuid :=
  if cmd.operatorOverride = true ∨ sca.required cmd.amountMinor = false then none
  else cmd.scaChallengeId

/-- The database on which a transfer posts: the one it was given, less its challenge. -/
def challenged (sca : ScaService) (attempt : Attempt) (cmd : NormalisedCommand) (db : Db) : Db :=
  match consumedChallenge sca cmd with
  | none => db
  | some id => ScaService.consume id attempt.databaseNow db

theorem presentChallenge_ok (h : presentChallenge sca attempt cmd db = .ok db') :
    db' = challenged sca attempt cmd db := by
  unfold presentChallenge at h
  cases ho : cmd.operatorOverride with
  | true =>
    rw [ho, if_pos rfl] at h
    cases h
    simp [challenged, consumedChallenge, ho]
  | false =>
    rw [ho, if_neg (by simp)] at h
    cases ScaService.validateAndConsume_ok h with
    | inl h =>
      obtain ⟨hr, rfl⟩ := h
      simp [challenged, consumedChallenge, hr]
    | inr h =>
      obtain ⟨id, c, hr, hid, -, -, rfl⟩ := h
      simp [challenged, consumedChallenge, ho, hr, hid]

section Challenged
variable (sca : ScaService) (attempt : Attempt) (cmd : NormalisedCommand) (db : Db)

/-- Consuming a challenge changes the challenges alone. -/
theorem challenged_eq : challenged sca attempt cmd db =
    { db with challenges := (challenged sca attempt cmd db).challenges } := by
  unfold challenged
  split <;> rfl

@[simp] theorem challenged_transactions :
    (challenged sca attempt cmd db).transactions = db.transactions := by
  rw [challenged_eq]
@[simp] theorem challenged_accounts :
    (challenged sca attempt cmd db).accounts = db.accounts := by
  rw [challenged_eq]
@[simp] theorem challenged_balances :
    (challenged sca attempt cmd db).balances = db.balances := by
  rw [challenged_eq]
@[simp] theorem challenged_entries :
    (challenged sca attempt cmd db).entries = db.entries := by
  rw [challenged_eq]
@[simp] theorem challenged_outbox :
    (challenged sca attempt cmd db).outbox = db.outbox := by
  rw [challenged_eq]
@[simp] theorem challenged_customers :
    (challenged sca attempt cmd db).customers = db.customers := by
  rw [challenged_eq]
@[simp] theorem challenged_users :
    (challenged sca attempt cmd db).users = db.users := by
  rw [challenged_eq]
end Challenged

/-- A transfer that committed afresh: what it locked, each check it passed and what it wrote. -/
inductive Transferred (sca : ScaService) (attempt : Attempt) (cmd : NormalisedCommand)
    (db db' : Db) : Prop where
  | intro (source destination : LockedAccount)
      (unused : db.findByIdempotency cmd.actor.userId cmd.idempotencyKey = none)
      (locked : lockAccounts cmd.sourceAccountId cmd.destinationAccountId db =
        .ok (source, destination))
      (accounts : checkAccounts cmd source destination = .ok ())
      (actor : checkActor cmd source db = .ok ())
      (challenge : presentChallenge sca attempt cmd db = .ok (challenged sca attempt cmd db))
      (funds : checkFunds cmd source = .ok ())
      (reversal : validateReversal cmd (challenged sca attempt cmd db) = .ok ())
      (posted : Posted attempt cmd (challenged sca attempt cmd db) db')

/-- The two ways a transfer transaction commits: it found the key, or it posted. -/
theorem transferTransaction_ok
    (h : transferTransaction sca attempt cmd db = .ok ((payload, replayed), db')) :
    (∃ t, db.findByIdempotency cmd.actor.userId cmd.idempotencyKey = some t ∧
      payload = transactionPayload t ∧ replayed = true ∧ db' = db) ∨
    (payload = firstResponse attempt cmd ∧ replayed = false ∧
      Transferred sca attempt cmd db db') := by
  unfold transferTransaction at h
  cases hf : db.findByIdempotency cmd.actor.userId cmd.idempotencyKey with
  | some t =>
    simp only [hf, Except.ok.injEq, Prod.mk.injEq] at h
    obtain ⟨⟨rfl, rfl⟩, rfl⟩ := h
    exact .inl ⟨t, rfl, rfl, rfl, rfl⟩
  | none =>
    simp only [hf, bind_eq_ok, pure, Except.pure, Except.ok.injEq, Prod.mk.injEq] at h
    obtain ⟨⟨source, destination⟩, hl, _, hc, _, ha, mid, hm, _, hfunds, _, hv, d, hp,
      ⟨hr, hb⟩, hd⟩ := h
    subst hd
    obtain rfl := presentChallenge_ok hm
    exact .inr ⟨hr.symm, hb.symm, source, destination, hf, hl, hc, ha, hm, hfunds, hv,
      postTransfer_ok hp⟩

/-- Everything a call can answer and do: a replay of the row under its key, a fresh
posting, or a failure that leaves the database as it was. -/
theorem transferNormalised_cases (sca : ScaService) (attempt : Attempt)
    (cmd : NormalisedCommand) (db : Db) :
    (∃ t, db.findByIdempotency cmd.actor.userId cmd.idempotencyKey = some t ∧
      transferNormalised sca attempt cmd db = (.ok (transactionPayload t, true), db)) ∨
    (∃ db', Transferred sca attempt cmd db db' ∧
      transferNormalised sca attempt cmd db = (.ok (firstResponse attempt cmd, false), db')) ∨
    (∃ e, db.findByIdempotency cmd.actor.userId cmd.idempotencyKey = none ∧
      transferNormalised sca attempt cmd db = (.error e, db)) := by
  unfold transferNormalised
  cases hf : db.findByIdempotency cmd.actor.userId cmd.idempotencyKey with
  | some t => exact .inl ⟨t, rfl, rfl⟩
  | none =>
    cases ht : transferTransaction sca attempt cmd db with
    | ok result =>
      obtain ⟨⟨payload, replayed⟩, db'⟩ := result
      cases transferTransaction_ok ht with
      | inl hreplayed =>
        obtain ⟨t, hs, -⟩ := hreplayed
        rw [hf] at hs
        cases hs
      | inr hposted =>
        obtain ⟨rfl, rfl, hnew⟩ := hposted
        exact .inr (.inl ⟨db', hnew, rfl⟩)
    | error e =>
      refine .inr (.inr ?_)
      cases e with
      | database d =>
        cases d <;> simp [uniqueViolationFallback, hf]
      | _ => simp

theorem createTransfer_of_normalise {command : TransferCommand}
    (h : normalise attempt.requestId command = .ok cmd) :
    createTransfer sca attempt command db = transferNormalised sca attempt cmd db := by
  simp [createTransfer, h]

/-- What a call did: nothing to the database, or one fresh transfer that it answers. -/
theorem createTransfer_cases (sca : ScaService) (attempt : Attempt) (command : TransferCommand)
    (db : Db) :
    ((createTransfer sca attempt command db).2 = db ∧
      ∀ payload, (createTransfer sca attempt command db).1 ≠ .ok (payload, false)) ∨
    ∃ cmd db', normalise attempt.requestId command = .ok cmd ∧
      createTransfer sca attempt command db = (.ok (firstResponse attempt cmd, false), db') ∧
      Transferred sca attempt cmd db db' := by
  cases hn : normalise attempt.requestId command with
  | error e => exact .inl (by simp [createTransfer, hn])
  | ok cmd =>
    rw [createTransfer_of_normalise hn]
    rcases transferNormalised_cases sca attempt cmd db with
      ⟨t, -, h⟩ | ⟨db', hnew, h⟩ | ⟨e, -, h⟩
    · exact .inl (by simp [h])
    · exact .inr ⟨cmd, db', rfl, h, hnew⟩
    · exact .inl (by simp [h])
end Transfers

section Guards
variable {source destination : Uuid} {pair : LockedAccount × LockedAccount}

theorem lockedAccount_some {id : Uuid} {l : LockedAccount} (h : lockedAccount db id = some l) :
    ∃ a b, db.findAccount id = some a ∧ db.findBalance id = some b ∧
      l = ⟨id, a.customerId, a.accountType, a.currency, a.status, a.allowNegative,
        b.availableBalanceMinor⟩ := by
  unfold lockedAccount at h
  split at h
  · rename_i a b ha hb
    cases h
    exact ⟨a, b, ha, hb, rfl⟩
  · cases h

theorem lockAccounts_ok (h : lockAccounts source destination db = .ok pair) :
    lockedAccount db source = some pair.1 ∧ lockedAccount db destination = some pair.2 := by
  unfold lockAccounts at h
  split at h
  · rename_i s d hs hd
    cases h
    exact ⟨hs, hd⟩
  · cases h

/-- The original of a reversal that passed is a row of the history. -/
theorem validateReversal_ok {cmd : NormalisedCommand} {id : Uuid}
    (h : validateReversal cmd db = .ok ()) (ho : cmd.reversesTransactionId = some id) :
    ∃ original, db.findTransaction id = some original ∧ reversible cmd original = true := by
  unfold validateReversal at h
  simp only [ho] at h
  split at h
  · cases h
  · rename_i original hf
    split at h
    · rename_i hr
      exact ⟨original, hf, hr⟩
    · cases h
end Guards
end Bantam
