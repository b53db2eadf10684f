import Bantam.Lib.Containers
import Bantam.Writes
import Bantam.Lib.Book
import Bantam.Lib.Runs

/-! The balance projection agrees with the ledger entries in every reachable state. Both
follow one abstract book: a posting moves each of them by the same movement. -/
namespace Bantam
open Tables
variable {db db' : Db} {attempt : Attempt} {cmd : NormalisedCommand}

/-- The movement of a command on the book of all accounts. -/
def movement (cmd : NormalisedCommand) : Uuid → Int :=
  Book.delta cmd.sourceAccountId cmd.destinationAccountId cmd.amountMinor

/-- The entries of a posting move the authoritative book. -/
theorem Posted.authoritative (h : Posted attempt cmd db db') :
    authoritative db' =
      Book.move (authoritative db) cmd.sourceAccountId cmd.destinationAccountId
        cmd.amountMinor := by
  funext a
  simp only [Bantam.authoritative, h.entries, sumWhere_append, sumWhere_cons, sumWhere_nil,
    debitEntry, creditEntry, Book.move, Book.delta, eq_comm (a := a), decide_eq_true_eq, add_zero]

/-- The two balance updates of a posting, seen on one row. -/
theorem Posted.balance_row (h : Posted attempt cmd db db') {b : AccountBalance}
    (hb : b ∈ db'.balances) :
    ∃ q ∈ db.balances, b.accountId = q.accountId ∧
      b.currentBalanceMinor = q.currentBalanceMinor + movement cmd q.accountId ∧
      b.availableBalanceMinor = q.availableBalanceMinor + movement cmd q.accountId := by
  rw [h.balances] at hb
  obtain ⟨m, hm, rfl⟩ := mem_updateWhere.mp hb
  obtain ⟨q, hq, rfl⟩ := mem_updateWhere.mp hm
  refine ⟨q, hq, ?_⟩
  have hne := cmd.distinct
  by_cases hs : q.accountId = cmd.sourceAccountId
  · simp [hs, hne, movement, AccountBalance.post]
  · by_cases hd : q.accountId = cmd.destinationAccountId
    · simp [hd, hne, movement, AccountBalance.post, Ne.symm hne]
    · simp [hs, hd, movement, Book.delta_of_ne hs hd]

theorem Posted.balance_ids (h : Posted attempt cmd db db') :
    db'.balances.map AccountBalance.accountId = db.balances.map AccountBalance.accountId := by
  rw [h.balances, postedBalances_ids, postedBalances_ids]

/-- The projection invariant, with what it rests on: every account and every posted account
has exactly one balance row. -/
structure Projected (db : Db) : Prop where
  accountsKeyed : Keyed BankAccount.accountId db.accounts
  balancesKeyed : Keyed AccountBalance.accountId db.balances
  covered : ∀ a ∈ db.accounts, a.accountId ∈ db.balances.map AccountBalance.accountId
  posted : ∀ e ∈ db.entries, e.accountId ∈ db.balances.map AccountBalance.accountId
  agree : ∀ b ∈ db.balances, b.currentBalanceMinor = authoritative db b.accountId ∧
    b.availableBalanceMinor = b.currentBalanceMinor
  inRange : ∀ b ∈ db.balances, InBigint b.currentBalanceMinor

theorem Projected.migrated : Projected Db.migrated := by
  refine ⟨keyed_nil, keyed_nil, ?_, ?_, ?_, ?_⟩ <;> simp [Db.migrated]

/-- An invariant of accounts, balances and entries depends on nothing else. -/
theorem Projected.congr (h : Projected db) (ha : db'.accounts = db.accounts)
    (hb : db'.balances = db.balances) (he : db'.entries = db.entries) : Projected db' := by
  refine ⟨ha ▸ h.accountsKeyed, hb ▸ h.balancesKeyed, ?_, ?_, ?_, ?_⟩
  · rw [ha, hb]
    exact h.covered
  · rw [he, hb]
    exact h.posted
  · simp only [authoritative, he, hb]
    exact h.agree
  · rw [hb]
    exact h.inRange

theorem Projected.opened {accounts : List BankAccount} {balances : List AccountBalance}
    (opening : Opening db accounts balances) (h : Projected db) :
    Projected { db with
      accounts := db.accounts ++ accounts, balances := db.balances ++ balances } := by
  have hk := opening.balancesKeyed h.balancesKeyed
  -- an account without a balance row has no entries, so its sum is the empty one
  have hnew : ∀ b ∈ balances, authoritative db b.accountId = 0 := by
    intro b hb
    refine sumWhere_of_none fun e he => ?_
    simp only [decide_eq_false_iff_not]
    intro heq
    have hm : b.accountId ∈ db.balances.map AccountBalance.accountId := heq ▸ h.posted e he
    rw [Keyed, List.map_append, List.nodup_append] at hk
    exact hk.2.2 _ hm _ (List.mem_map_of_mem hb) rfl
  refine ⟨opening.accountsKeyed h.accountsKeyed, hk, ?_, ?_, ?_, ?_⟩
  · intro a ha
    cases List.mem_append.mp ha with
    | inl ha =>
      rw [List.map_append]
      exact List.mem_append_left _ (h.covered a ha)
    | inr ha => exact opening.covered a ha
  · intro e he
    rw [List.map_append]
    exact List.mem_append_left _ (h.posted e he)
  · intro b hb
    cases List.mem_append.mp hb with
    | inl hb => exact h.agree b hb
    | inr hb =>
      obtain ⟨hc, hv⟩ := opening.empty b hb
      exact ⟨hc.trans (hnew b hb).symm, hv.trans hc.symm⟩
  · intro b hb
    cases List.mem_append.mp hb with
    | inl hb => exact h.inRange b hb
    | inr hb =>
      rw [(opening.empty b hb).1]
      decide

/-- A change of a status keeps the account under its identifier. -/
theorem status_ids (rows : List BankAccount) (target : Uuid) (status : AccountStatus) :
    (updateWhere
      (fun a => decide (a.accountId = target ∧ a.accountType = .current ∧ a.status ≠ .closed))
      (fun a => { a with status := status }) rows).map BankAccount.accountId =
      rows.map BankAccount.accountId :=
  map_updateWhere _ _ _ fun _ => rfl

theorem Projected.write {touched : List Uuid} (w : Write touched db db') (h : Projected db) :
    Projected db' := by
  cases w with
  | opened accounts balances opening => exact h.opened opening
  | status target status =>
    refine ⟨?_, h.balancesKeyed, ?_, h.posted, h.agree, h.inRange⟩
    · rw [Keyed, status_ids]
      exact h.accountsKeyed
    · intro a ha
      have hm := List.mem_map_of_mem (f := BankAccount.accountId) ha
      rw [status_ids] at hm
      obtain ⟨q, hq, he⟩ := List.mem_map.mp hm
      exact he ▸ h.covered q hq
  | _ => exact h.congr rfl rfl rfl

/-- A posting between two accounts with balances keeps the projection. -/
theorem Projected.posting (hp : Posted attempt cmd db db') (h : Projected db)
    (hs : cmd.sourceAccountId ∈ db.balances.map AccountBalance.accountId)
    (hd : cmd.destinationAccountId ∈ db.balances.map AccountBalance.accountId) :
    Projected db' := by
  have hids := hp.balance_ids
  refine ⟨hp.accounts ▸ h.accountsKeyed, ?_, ?_, ?_, ?_, ?_⟩
  · rw [Keyed, hids]
    exact h.balancesKeyed
  · rw [hp.accounts, hids]
    exact h.covered
  · rw [hp.entries, hids]
    intro e he
    cases List.mem_append.mp he with
    | inl he => exact h.posted e he
    | inr he =>
      simp only [List.mem_cons, List.not_mem_nil, or_false] at he
      cases he with
      | inl hfirst =>
        obtain rfl := hfirst
        exact hs
      | inr hsecond =>
        obtain rfl := hsecond
        exact hd
  · intro b hb
    obtain ⟨q, hq, hid, hc, hv⟩ := hp.balance_row hb
    obtain ⟨hagree, havail⟩ := h.agree q hq
    refine ⟨?_, by rw [hc, hv, havail]⟩
    calc
      b.currentBalanceMinor = authoritative db q.accountId + movement cmd q.accountId := by
        rw [hc, hagree]
      _ = authoritative db' b.accountId := by rw [hp.authoritative, hid]; rfl
  · intro b hb
    obtain ⟨q, hq, -, hc, -⟩ := hp.balance_row hb
    have hfind : db.findBalance q.accountId = some q :=
      (lookup_eq_some_iff h.balancesKeyed).mpr ⟨hq, rfl⟩
    rw [hc]
    by_cases h1 : q.accountId = cmd.sourceAccountId
    · have := hp.sourceInRange q (h1 ▸ hfind)
      rwa [movement, h1, Book.delta_source cmd.distinct, ← Int.sub_eq_add_neg]
    · by_cases h2 : q.accountId = cmd.destinationAccountId
      · have := hp.destinationInRange q (h2 ▸ hfind)
        rwa [movement, h2, Book.delta_destination cmd.distinct]
      · rw [movement, Book.delta_of_ne h1 h2, add_zero]
        exact h.inRange q hq

theorem Projected.transferred {sca : ScaService} (ht : Transferred sca attempt cmd db db')
    (h : Projected db) : Projected db' := by
  obtain ⟨source, destination, -, hl, -, -, -, -, -, hp⟩ := ht
  obtain ⟨h1, h2⟩ := lockAccounts_ok hl
  obtain ⟨-, b1, -, hb1, -⟩ := lockedAccount_some h1
  obtain ⟨-, b2, -, hb2, -⟩ := lockedAccount_some h2
  have hmid : Projected (challenged sca attempt cmd db) :=
    h.congr (challenged_accounts ..) (challenged_balances ..) (challenged_entries ..)
  refine hmid.posting hp ?_ ?_
  · rw [challenged_balances]
    exact key_mem_of_lookup hb1
  · rw [challenged_balances]
    exact key_mem_of_lookup hb2

theorem Projected.step {settings : Settings} {sca : ScaService} (e : BankEvent)
    (h : Projected db) : Projected (bankStep settings sca db e) := by
  cases e with
  | operation o =>
    simp only [bankStep]
    split
    · rename_i hok
      exact (Operation.perform_writes hok).invariant Projected.write h
    · exact h
  | transfer attempt command =>
    cases createTransfer_cases sca attempt command db with
    | inl hrefused =>
      obtain ⟨he, -⟩ := hrefused
      rw [bankStep, he]
      exact h
    | inr hcommitted =>
      obtain ⟨cmd, db', -, he, ht⟩ := hcommitted
      rw [bankStep, he]
      exact h.transferred ht

/-- Where the projection holds, `reconcile` returns a matching row for every balance. -/
theorem Projected.reconcile (h : Projected db) :
    reconcile db = .ok (db.balances.map (reconcileRow db)) ∧
      ∀ b ∈ db.balances, (reconcileRow db b).isMatch = true := by
  constructor
  · refine Fallible.mapM_ok fun b hb => if_pos ?_
    exact (h.agree b hb).1 ▸ h.inRange b hb
  · intro b hb
    simpa [reconcileRow] using (h.agree b hb).1

theorem projected_reachable (settings : Settings) (sca : ScaService) (es : List BankEvent) :
    Projected (Runs.run (bankStep settings sca) Db.migrated es) :=
  Runs.run_invariant (fun _ e h => h.step e) Projected.migrated es

/-- In every reachable state each account has a balance row that agrees with its entries,
and the reconciliation reports a match on every account. -/
theorem projection_matches_ledger (settings : Settings) (sca : ScaService)
    (es : List BankEvent) :
    let db := Runs.run (bankStep settings sca) Db.migrated es
    (∀ a ∈ db.accounts, ∃ b, db.findBalance a.accountId = some b ∧
      b.currentBalanceMinor = authoritative db a.accountId ∧
      b.availableBalanceMinor = b.currentBalanceMinor) ∧
    ∃ rows, reconcile db = .ok rows ∧
      (∀ a ∈ db.accounts, a.accountId ∈ rows.map Reconciliation.accountId) ∧
      ∀ r ∈ rows, r.isMatch = true := by
  intro db
  have h : Projected db := projected_reachable settings sca es
  constructor
  · intro a ha
    obtain ⟨b, hb, hid⟩ := List.mem_map.mp (h.covered a ha)
    have hagree := h.agree b hb
    rw [hid] at hagree
    exact ⟨b, (lookup_eq_some_iff h.balancesKeyed).mpr ⟨hb, hid⟩, hagree⟩
  · obtain ⟨hr, hm⟩ := h.reconcile
    refine ⟨_, hr, ?_, ?_⟩
    · intro a ha
      rw [List.map_map]
      exact h.covered a ha
    · rintro r hmem
      obtain ⟨b, hb, rfl⟩ := List.mem_map.mp hmem
      exact hm b hb
end Bantam
