import Bantam.Atomicity

/-! Double entry and conservation: every transaction has its debit and its credit and no
entry stands alone, so the balances of all accounts sum to zero. -/
namespace Bantam
open Tables
variable {db db' : Db} {attempt : Attempt} {cmd : NormalisedCommand} {sca : ScaService}

/-- The entries under a transaction, in their order. -/
def entriesOf (db : Db) (transactionId : Uuid) : List LedgerEntry :=
  db.entries.filter fun e => e.transactionId = transactionId

/-- The entry takes the amount of the transaction from its source. -/
def LedgerEntry.Debits (e : LedgerEntry) (t : Transaction) : Prop :=
  e.direction = .debit ∧ e.amountMinor = -t.amountMinor ∧ e.accountId = t.sourceAccountId ∧
    e.currency = t.currency

/-- The entry gives the amount of the transaction to its destination. -/
def LedgerEntry.Credits (e : LedgerEntry) (t : Transaction) : Prop :=
  e.direction = .credit ∧ e.amountMinor = t.amountMinor ∧ e.accountId = t.destinationAccountId ∧
    e.currency = t.currency

/-- The sum of `current_balance_minor` over all accounts. -/
def totalBalance (db : Db) : Int := (db.balances.map AccountBalance.currentBalanceMinor).sum

structure DoubleEntry (db : Db) : Prop where
  paired : ∀ t ∈ db.transactions, ∃ debit credit,
    entriesOf db t.transactionId = [debit, credit] ∧ debit.Debits t ∧ credit.Credits t
  recorded : ∀ e ∈ db.entries, e.transactionId ∈ db.transactions.map Transaction.transactionId
  conserved : totalBalance db = 0

namespace DoubleEntry

theorem migrated : DoubleEntry Db.migrated := by
  refine ⟨?_, ?_, rfl⟩ <;> simp [Db.migrated]

theorem congr (h : DoubleEntry db) (ht : db'.transactions = db.transactions)
    (he : db'.entries = db.entries) (hb : totalBalance db' = totalBalance db) :
    DoubleEntry db' := by
  refine ⟨?_, ?_, hb.trans h.conserved⟩
  · simp only [entriesOf, ht, he]
    exact h.paired
  · rw [ht, he]
    exact h.recorded

theorem write {touched : List Uuid} (w : Write touched db db') (h : DoubleEntry db) :
    DoubleEntry db' := by
  cases w with
  | opened accounts balances opening =>
    refine h.congr rfl rfl ?_
    have hzero : (balances.map AccountBalance.currentBalanceMinor).sum = 0 := by
      refine List.sum_eq_zero fun n hn => ?_
      obtain ⟨b, hb, rfl⟩ := List.mem_map.mp hn
      exact (opening.empty b hb).1
    simp [totalBalance, hzero]
  | _ => exact h.congr rfl rfl rfl

/-- A movement between two accounts with balances keeps the total. -/
theorem totalBalance_posting (hp : Posted attempt cmd db db')
    (hk : Keyed AccountBalance.accountId db.balances)
    (hs : cmd.sourceAccountId ∈ db.balances.map AccountBalance.accountId)
    (hd : cmd.destinationAccountId ∈ db.balances.map AccountBalance.accountId) :
    totalBalance db' = totalBalance db := by
  have hfirst : Keyed AccountBalance.accountId
      (Db.postedBalances db.balances cmd.sourceAccountId (-cmd.amountMinor)
        attempt.debitEntryId attempt.databaseNow) := by
    rw [Keyed, postedBalances_ids]
    exact hk
  have moved : ∀ delta entry now, ∀ b : AccountBalance,
      (b.post delta entry now).currentBalanceMinor = b.currentBalanceMinor + delta :=
    fun _ _ _ _ => rfl
  calc
    totalBalance db'
        = ((Db.postedBalances db.balances cmd.sourceAccountId (-cmd.amountMinor)
            attempt.debitEntryId attempt.databaseNow).map
              AccountBalance.currentBalanceMinor).sum + cmd.amountMinor := by
      rw [totalBalance, hp.balances]
      exact sum_updateWhere hfirst (by rw [postedBalances_ids]; exact hd) (moved _ _ _)
    _ = totalBalance db + -cmd.amountMinor + cmd.amountMinor := by
      rw [totalBalance, Db.postedBalances, sum_updateWhere hk hs (moved _ _ _)]
    _ = totalBalance db := by rw [add_assoc, neg_add_cancel, add_zero]

/-- The entries of an older transaction stay as they were. -/
theorem entriesOf_posting (hp : Posted attempt cmd db db') {id : Uuid}
    (hne : attempt.transactionId ≠ id) : entriesOf db' id = entriesOf db id := by
  simp [entriesOf, hp.entries, debitEntry, creditEntry, hne]

theorem posting (hp : Posted attempt cmd db db') (h : DoubleEntry db)
    (hv : ∀ id, cmd.reversesTransactionId = some id → ∃ t, db.findTransaction id = some t)
    (hbalance : totalBalance db' = totalBalance db) : DoubleEntry db' := by
  have hrows := hp.transactions_eq hv
  refine ⟨?_, ?_, hbalance.trans h.conserved⟩
  · intro t ht
    rw [hrows] at ht
    cases List.mem_append.mp ht with
    | inl hold =>
      obtain ⟨q, hq, he⟩ := List.mem_map.mp hold
      -- a reversal changes the status of the row and nothing that an entry refers to
      have hsame : t.transactionId = q.transactionId ∧ t.amountMinor = q.amountMinor ∧
          t.sourceAccountId = q.sourceAccountId ∧
          t.destinationAccountId = q.destinationAccountId ∧ t.currency = q.currency := by
        rw [← he]
        split_ifs <;> exact ⟨rfl, rfl, rfl, rfl, rfl⟩
      obtain ⟨hid, hamount, hsource, hdestination, hcurrency⟩ := hsame
      obtain ⟨debit, credit, hpair, hdebit, hcredit⟩ := h.paired q hq
      have hne : attempt.transactionId ≠ q.transactionId :=
        fun hid => hp.freshId (hid ▸ List.mem_map_of_mem hq)
      refine ⟨debit, credit, ?_, ?_, ?_⟩
      · rw [hid, entriesOf_posting hp hne, hpair]
      · rw [LedgerEntry.Debits, hamount, hsource, hcurrency]
        exact hdebit
      · rw [LedgerEntry.Credits, hamount, hdestination, hcurrency]
        exact hcredit
    | inr hnew =>
      obtain rfl := List.mem_singleton.mp hnew
      have hnone : entriesOf db attempt.transactionId = [] := by
        refine List.filter_eq_nil_iff.mpr fun e he hid => ?_
        have hmem := h.recorded e he
        rw [of_decide_eq_true hid] at hmem
        exact hp.freshId hmem
      refine ⟨debitEntry attempt cmd, creditEntry attempt cmd, ?_, ⟨rfl, rfl, rfl, rfl⟩,
        ⟨rfl, rfl, rfl, rfl⟩⟩
      have hid : (newTransaction attempt cmd).transactionId = attempt.transactionId := rfl
      have hpair : entriesOf db' attempt.transactionId = entriesOf db attempt.transactionId ++
          [debitEntry attempt cmd, creditEntry attempt cmd] := by
        simp [entriesOf, hp.entries, debitEntry, creditEntry]
      rw [hid, hpair, hnone]
      rfl
  · intro e he
    have hids : db'.transactions.map Transaction.transactionId =
        db.transactions.map Transaction.transactionId ++ [attempt.transactionId] := by
      rw [hp.transactions, Db.reversedTransactions_map _ fun _ => rfl]
      simp [newTransaction]
    rw [hids]
    rw [hp.entries] at he
    cases List.mem_append.mp he with
    | inl hold => exact List.mem_append_left _ (h.recorded e hold)
    | inr hnew =>
      refine List.mem_append_right _ ?_
      simp only [List.mem_cons, List.not_mem_nil, or_false] at hnew
      cases hnew with
      | inl he => simp [he, debitEntry]
      | inr he => simp [he, creditEntry]

theorem transferred (ht : Transferred sca attempt cmd db db') (h : DoubleEntry db)
    (hk : Keyed AccountBalance.accountId db.balances) : DoubleEntry db' := by
  obtain ⟨source, destination, -, hl, -, -, -, -, hv, hp⟩ := ht
  obtain ⟨h1, h2⟩ := lockAccounts_ok hl
  obtain ⟨-, b1, -, hb1, -⟩ := lockedAccount_some h1
  obtain ⟨-, b2, -, hb2, -⟩ := lockedAccount_some h2
  have hmid : DoubleEntry (challenged sca attempt cmd db) :=
    h.congr (challenged_transactions ..) (challenged_entries ..)
      (by rw [totalBalance, challenged_balances, totalBalance])
  refine hmid.posting hp (fun id ho => ?_) (totalBalance_posting hp ?_ ?_ ?_)
  · obtain ⟨t, hf, -⟩ := validateReversal_ok hv ho
    exact ⟨t, hf⟩
  · rw [challenged_balances]
    exact hk
  · rw [challenged_balances]
    exact key_mem_of_lookup hb1
  · rw [challenged_balances]
    exact key_mem_of_lookup hb2

theorem step {settings : Settings} (e : BankEvent) (h : DoubleEntry db)
    (hk : Keyed AccountBalance.accountId db.balances) :
    DoubleEntry (bankStep settings sca db e) := by
  cases e with
  | operation o =>
    simp only [bankStep]
    split
    · rename_i hok
      exact (Operation.perform_writes hok).invariant write h
    · exact h
  | transfer attempt command =>
    cases createTransfer_cases sca attempt command db with
    | inl hsame =>
      rw [bankStep, hsame.1]
      exact h
    | inr hfresh =>
      obtain ⟨cmd, db', -, he, ht⟩ := hfresh
      rw [bankStep, he]
      exact h.transferred ht hk
end DoubleEntry

theorem doubleEntry_run (settings : Settings) (sca : ScaService) (es : List BankEvent) :
    DoubleEntry (Runs.run (bankStep settings sca) Db.migrated es) := by
  have keep : ∀ db e, Projected db ∧ DoubleEntry db →
      Projected (bankStep settings sca db e) ∧ DoubleEntry (bankStep settings sca db e) :=
    fun db e h => ⟨h.1.step e, h.2.step e h.1.balancesKeyed⟩
  exact (Runs.run_invariant keep ⟨Projected.migrated, DoubleEntry.migrated⟩ es).2

/-- In every state that any operations and concurrent calls reach, each transaction has exactly
its debit and its credit, each entry belongs to a transaction, and the balances sum to zero. -/
theorem double_entry_conserved (settings : Settings) (service : LedgerService)
    (es : List CallEvent) :
    let db := (Runs.run (callStep settings service) Calls.initial es).db
    (∀ t ∈ db.transactions, ∃ debit credit,
      entriesOf db t.transactionId = [debit, credit] ∧ debit.Debits t ∧ credit.Credits t) ∧
    (∀ e ∈ db.entries, ∃ t ∈ db.transactions, t.transactionId = e.transactionId) ∧
    totalBalance db = 0 := by
  intro db
  have h : DoubleEntry db := Calls.run_of_serial (doubleEntry_run settings service.sca) es
  refine ⟨h.paired, fun e he => ?_, h.conserved⟩
  obtain ⟨t, ht, hid⟩ := List.mem_map.mp (h.recorded e he)
  exact ⟨t, ht, hid⟩
end Bantam
