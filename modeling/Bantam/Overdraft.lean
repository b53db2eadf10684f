import Bantam.Serial
import Bantam.Projection

/-! No customer account is overdrawn, and a call that has passed its own check of the funds is
never refused by the constraints of the database on its two balance updates. -/
namespace Bantam
open Tables
variable {db db' : Db} {attempt : Attempt} {cmd : NormalisedCommand} {sca : ScaService}

/-- Neither balance of an account that may not be negative is negative. -/
def NonNegative (db : Db) : Prop :=
  ∀ a ∈ db.accounts, a.allowNegative = false → ∀ b ∈ db.balances, b.accountId = a.accountId →
    0 ≤ b.currentBalanceMinor ∧ 0 ≤ b.availableBalanceMinor

/-- The `CHECK` of the table and its trigger let this version of a balance row pass. -/
def Accepts (db : Db) (accountId : Uuid) (current available : Int) : Prop :=
  available ≤ current ∧ db.rejectNegativeCustomerBalance accountId current available = .ok ()

/-- The database accepts both balance updates of a command, the second in the state that the
first one leaves. -/
def AcceptsUpdates (cmd : NormalisedCommand) (db : Db) : Prop :=
  (∀ b, db.findBalance cmd.sourceAccountId = some b →
    Accepts db cmd.sourceAccountId (b.currentBalanceMinor - cmd.amountMinor)
      (b.availableBalanceMinor - cmd.amountMinor)) ∧
  ∀ entry now db', db.addToBalance cmd.sourceAccountId (-cmd.amountMinor) entry now = .ok db' →
    ∀ b, db'.findBalance cmd.destinationAccountId = some b →
      Accepts db' cmd.destinationAccountId (b.currentBalanceMinor + cmd.amountMinor)
        (b.availableBalanceMinor + cmd.amountMinor)

section Statements

theorem bind_eq_error {ε α β : Type} {x : Except ε α} {f : α → Except ε β} {e : ε} :
    (x >>= f) = .error e ↔ x = .error e ∨ ∃ a, x = .ok a ∧ f a = .error e := by
  cases x with
  | error e' => simp [bind, Except.bind]
  | ok a => simp [bind, Except.bind]

theorem require_eq_error {e : DatabaseError} {p : Prop} [Decidable p] {f : Failure} :
    Db.require e p = .error f ↔ ¬p ∧ f = .database e := by
  unfold Db.require
  by_cases h : p
  · simp [h]
  · simp [h, eq_comm]

/-- Of the statements of a transfer only the balance updates can fail a check. -/
theorem insertTransaction_checked {row : Transaction} :
    db.insertTransaction row ≠ .error (.database .checkViolation) := by
  simp [Db.insertTransaction, bind_eq_error, require_eq_error, pure, Except.pure]

theorem insertEntry_checked {row : LedgerEntry} :
    db.insertEntry row ≠ .error (.database .checkViolation) := by
  simp [Db.insertEntry, bind_eq_error, require_eq_error, pure, Except.pure]

theorem insertOutbox_checked {row : OutboxRow} :
    db.insertOutbox row ≠ .error (.database .checkViolation) := by
  simp [Db.insertOutbox, bind_eq_error, require_eq_error, pure, Except.pure]

theorem insertAudit_checked {row : AuditEvent} :
    db.insertAudit row ≠ .error (.database .checkViolation) := by
  simp [Db.insertAudit, bind_eq_error, require_eq_error, pure, Except.pure]

theorem markReversed_checked {o : Option Uuid} :
    markReversed o db ≠ .error (.database .checkViolation) := by
  cases o with
  | none => simp [markReversed]
  | some id =>
    simp only [markReversed, Db.setReversed]
    cases db.findTransaction id with
    | none => simp
    | some t => simp [bind_eq_error, require_eq_error, pure, Except.pure]

theorem assertTransactionBalanced_checked {id : Uuid} :
    db.assertTransactionBalanced id ≠ .error (.database .checkViolation) := by
  simp [Db.assertTransactionBalanced, bind_eq_error, require_eq_error, pure, Except.pure]

/-- A balance update whose new version is accepted fails no check. -/
theorem addToBalance_checked {accountId entry : Uuid} {delta : Int} {now : Instant}
    (h : ∀ b, db.findBalance accountId = some b → Accepts db accountId
      (b.currentBalanceMinor + delta) (b.availableBalanceMinor + delta)) :
    db.addToBalance accountId delta entry now ≠ .error (.database .checkViolation) := by
  unfold Db.addToBalance
  cases hb : db.findBalance accountId with
  | none => simp
  | some b =>
    obtain ⟨-, hok⟩ := h b hb
    simp [bind_eq_error, require_eq_error, hok, pure, Except.pure]

/-- The trigger reads the account of the row, the check the row alone. -/
theorem accepts_iff {accountId : Uuid} {current available : Int} :
    Accepts db accountId current available ↔ available ≤ current ∧
      ∃ a, db.findAccount accountId = some a ∧
        (a.allowNegative = true ∨ 0 ≤ current ∧ 0 ≤ available) := by
  rw [Accepts, Db.rejectNegativeCustomerBalance_ok]

/-- The check of the funds compares the available balance of an account that it protects. -/
theorem checkFunds_ok {source : LockedAccount} (h : checkFunds cmd source = .ok ())
    (hneg : source.allowNegative = false) : cmd.amountMinor ≤ source.balanceMinor := by
  unfold checkFunds at h
  split_ifs at h with hless
  by_contra hlt
  exact hless ⟨hneg, by omega⟩
end Statements

/-- No customer account is overdrawn, with what that rests on. -/
structure Solvent (db : Db) : Prop where
  projected : Projected db
  backed : ∀ b ∈ db.balances, b.accountId ∈ db.accounts.map BankAccount.accountId
  nonNegative : NonNegative db

namespace Solvent

theorem migrated : Solvent Db.migrated :=
  ⟨Projected.migrated, by simp [Db.migrated], by simp [NonNegative, Db.migrated]⟩

/-- An account opens with an empty balance, and under an identifier that no balance has. -/
theorem opened {accounts : List BankAccount} {balances : List AccountBalance}
    (opening : Opening db accounts balances) (h : Solvent db) :
    Solvent { db with
      accounts := db.accounts ++ accounts, balances := db.balances ++ balances } := by
  have hk := opening.accountsKeyed h.projected.accountsKeyed
  refine ⟨h.projected.opened opening, ?_, ?_⟩
  · intro b hb
    cases List.mem_append.mp hb with
    | inl hold =>
      rw [List.map_append]
      exact List.mem_append_left _ (h.backed b hold)
    | inr hnew => exact opening.backed b hnew
  · intro a ha hneg b hb hid
    cases List.mem_append.mp hb with
    | inl hold =>
      obtain ⟨q, hq, hqid⟩ := List.mem_map.mp (h.backed b hold)
      have hsame : q = a :=
        hk.eq_of_key (List.mem_append_left _ hq) ha (hqid.trans hid)
      exact h.nonNegative a (hsame ▸ hq) hneg b hold hid
    | inr hnew =>
      obtain ⟨hcurrent, havailable⟩ := opening.empty b hnew
      omega

theorem write {touched : List Uuid} (w : Write touched db db') (h : Solvent db) :
    Solvent db' := by
  have hp := h.projected.write w
  cases w with
  | opened accounts balances opening => exact h.opened opening
  | status target status mem =>
    refine ⟨hp, ?_, ?_⟩
    · intro b hb
      rw [status_ids]
      exact h.backed b hb
    · intro a ha hneg b hb hid
      obtain ⟨q, hq, he⟩ := mem_updateWhere.mp ha
      have hsame : a.accountId = q.accountId ∧ a.allowNegative = q.allowNegative := by
        rw [← he]
        split_ifs <;> exact ⟨rfl, rfl⟩
      exact h.nonNegative q hq (hsame.2 ▸ hneg) b hb (hid.trans hsame.1)
  | _ => exact ⟨hp, h.backed, h.nonNegative⟩

/-- The check of the funds covers the source, and the destination only gains. -/
theorem transferred (ht : Transferred sca attempt cmd db db') (h : Solvent db) : Solvent db' := by
  have hp' := h.projected.transferred ht
  obtain ⟨source, destination, -, hl, -, -, -, hfunds, -, hp⟩ := ht
  have haccounts : db'.accounts = db.accounts := hp.accounts.trans (challenged_accounts ..)
  have hs : lockedAccount db cmd.sourceAccountId = some source := (lockAccounts_ok hl).1
  obtain ⟨a, found, ha, hfound, rfl⟩ := lockedAccount_some hs
  refine ⟨hp', ?_, ?_⟩
  · intro b hb
    obtain ⟨q, hq, hid, -⟩ := hp.balance_row hb
    rw [challenged_balances] at hq
    rw [haccounts, hid]
    exact h.backed q hq
  · intro account hmem hneg b hb hid
    rw [haccounts] at hmem
    obtain ⟨q, hq, hqid, hcurrent, havailable⟩ := hp.balance_row hb
    rw [challenged_balances] at hq
    have hold := h.nonNegative account hmem hneg q hq (hqid.symm.trans hid)
    have hpos := cmd.amountPos
    by_cases h1 : q.accountId = cmd.sourceAccountId
    · have hq' : q = found :=
        h.projected.balancesKeyed.eq_of_key hq (lookup_mem hfound)
          (h1.trans (lookup_key hfound).symm)
      have haccount : account = a :=
        h.projected.accountsKeyed.eq_of_key hmem (lookup_mem ha)
          ((hqid.symm.trans hid).symm.trans (h1.trans (lookup_key ha).symm))
      have henough : cmd.amountMinor ≤ found.availableBalanceMinor :=
        checkFunds_ok hfunds (haccount ▸ hneg)
      have habove := found.notAbove
      rw [movement, h1, Book.delta_source cmd.distinct] at hcurrent havailable
      rw [hq'] at hcurrent havailable
      omega
    · by_cases h2 : q.accountId = cmd.destinationAccountId
      · rw [movement, h2, Book.delta_destination cmd.distinct] at hcurrent havailable
        omega
      · rw [movement, Book.delta_of_ne h1 h2] at hcurrent havailable
        omega

/-- A command that located its accounts and passed the check of the funds is accepted. -/
theorem acceptsUpdates {source destination : LockedAccount} (h : NonNegative db)
    (hl : lockAccounts cmd.sourceAccountId cmd.destinationAccountId db =
      .ok (source, destination))
    (hfunds : checkFunds cmd source = .ok ()) : AcceptsUpdates cmd db := by
  have hs : lockedAccount db cmd.sourceAccountId = some source := (lockAccounts_ok hl).1
  obtain ⟨a, found, ha, hfound, rfl⟩ := lockedAccount_some hs
  obtain ⟨a', found', ha', hfound', -⟩ := lockedAccount_some (lockAccounts_ok hl).2
  have hpos := cmd.amountPos
  constructor
  · intro b hb
    obtain rfl := Option.some.inj (hfound.symm.trans hb)
    have habove := found.notAbove
    refine accepts_iff.mpr ⟨by omega, a, ha, ?_⟩
    cases hneg : a.allowNegative with
    | true => exact .inl rfl
    | false =>
      have henough : cmd.amountMinor ≤ found.availableBalanceMinor := checkFunds_ok hfunds hneg
      exact .inr ⟨by omega, by omega⟩
  · intro entry now db' hupdate b hb
    obtain ⟨-, rfl⟩ := Db.addToBalance_ok hupdate
    have hb' : db.findBalance cmd.destinationAccountId = some b := by
      rwa [Db.findBalance, findBalance_postedBalances cmd.distinct.symm] at hb
    have habove := b.notAbove
    refine accepts_iff.mpr ⟨by omega, a', ha', ?_⟩
    cases hneg : a'.allowNegative with
    | true => exact .inl rfl
    | false =>
      have hid : b.accountId = a'.accountId := (lookup_key hb').trans (lookup_key ha').symm
      have hold := h a' (lookup_mem ha') hneg b (lookup_mem hb') hid
      exact .inr ⟨by omega, by omega⟩
end Solvent

/-- A transfer whose two updates are accepted fails no check of the database. -/
theorem postTransfer_checked
    (h : ∀ d : Db, d.accounts = db.accounts → d.balances = db.balances → AcceptsUpdates cmd d) :
    postTransfer attempt cmd db ≠ .error (.database .checkViolation) := by
  intro herror
  simp only [postTransfer, bind_eq_error] at herror
  -- the statements before the updates leave the accounts and the balances as they are
  have before : ∀ {d1 d2 d3}, db.insertTransaction (newTransaction attempt cmd) = .ok d1 →
      d1.insertEntry (debitEntry attempt cmd) = .ok d2 →
      d2.insertEntry (creditEntry attempt cmd) = .ok d3 → AcceptsUpdates cmd d3 := by
    intro d1 d2 d3 h1 h2 h3
    obtain ⟨-, rfl⟩ := Db.insertTransaction_ok h1
    obtain ⟨-, rfl⟩ := Db.insertEntry_ok h2
    obtain ⟨-, rfl⟩ := Db.insertEntry_ok h3
    exact h _ rfl rfl
  rcases herror with h1 | ⟨d1, h1, h2 | ⟨d2, h2, h3 | ⟨d3, h3, h4 | ⟨d4, h4, h5 | ⟨d5, h5,
    h6 | ⟨d6, h6, h7 | ⟨d7, h7, h8 | ⟨d8, h8, h9⟩⟩⟩⟩⟩⟩⟩⟩
  · exact insertTransaction_checked h1
  · exact insertEntry_checked h2
  · exact insertEntry_checked h3
  · exact addToBalance_checked (fun b hb => (before h1 h2 h3).1 b hb) h4
  · exact addToBalance_checked (fun b hb => (before h1 h2 h3).2 _ _ _ h4 b hb) h5
  · exact markReversed_checked h6
  · exact insertOutbox_checked h7
  · exact insertAudit_checked h8
  · exact assertTransactionBalanced_checked h9

/-- The call has passed its check of the funds, and has not ended. -/
def Call.funded (c : Call) : Bool :=
  match c.stage with
  | .reversal .. | .insert .. | .commit .. => true
  | _ => false

theorem Call.funded_checked {service : LedgerService} {c : Call} (h : c.funded = true)
    (hc : c.Checked service db) : ∃ source destination,
      lockAccounts c.cmd.sourceAccountId c.cmd.destinationAccountId db =
        .ok (source, destination) ∧ checkFunds c.cmd source = .ok () := by
  unfold Call.funded at h
  unfold Call.Checked at hc
  cases hs : c.stage with
  | reversal source destination =>
    rw [hs] at hc
    exact ⟨source, destination, hc.1, hc.2.2.2⟩
  | insert source destination | commit source destination =>
    rw [hs] at hc
    exact ⟨source, destination, hc.1, hc.2.2.1.2⟩
  | _ => simp [hs] at h

theorem solvent_run (settings : Settings) (service : LedgerService) (es : List CallEvent) :
    Solvent (Runs.run (callStep settings service) Calls.initial es).db := by
  have keep : ∀ s e, s.Sound service ∧ Solvent s.db →
      (callStep settings service s e).Sound service ∧
        Solvent (callStep settings service s e).db :=
    fun s e h => ⟨h.1.step s e, h.1.keep Solvent.write (fun _ _ _ ht => h.2.transferred ht) e h.2⟩
  exact (Runs.run_invariant keep ⟨Calls.Sound.initial, Solvent.migrated⟩ es).2

/-- No run overdraws an account that may not be negative, and the check and the trigger accept
both balance updates of every call that has passed its own check of the funds, whatever its
other statements have written before. -/
theorem no_overdraft (settings : Settings) (service : LedgerService) (es : List CallEvent) :
    let s := Runs.run (callStep settings service) Calls.initial es
    NonNegative s.db ∧
    ∀ c ∈ s.calls, c.funded = true →
      (∀ d : Db, d.accounts = s.db.accounts → d.balances = s.db.balances →
        AcceptsUpdates c.cmd d) ∧
      c.post service s.db ≠ .error (.database .checkViolation) := by
  intro s
  have hsolvent : Solvent s.db := solvent_run settings service es
  have hsound : s.Sound service := Calls.sound_run settings service es
  refine ⟨hsolvent.nonNegative, fun c hc hfunded => ?_⟩
  obtain ⟨i, hi⟩ := List.mem_iff_getElem?.mp hc
  obtain ⟨source, destination, hl, hfunds⟩ := Call.funded_checked hfunded (hsound.checked i c hi)
  have accepts : ∀ d : Db, d.accounts = s.db.accounts → d.balances = s.db.balances →
      AcceptsUpdates c.cmd d := by
    intro d ha hb
    have hlocked : lockAccounts c.cmd.sourceAccountId c.cmd.destinationAccountId d =
        .ok (source, destination) := by
      have hsame : ∀ id, lockedAccount d id = lockedAccount s.db id := by
        intro id
        simp only [lockedAccount, Db.findAccount, Db.findBalance, ha, hb]
      rw [← hl]
      simp only [lockAccounts, hsame]
    have hnonneg : NonNegative d := by
      rw [NonNegative, ha, hb]
      exact hsolvent.nonNegative
    exact Solvent.acceptsUpdates hnonneg hlocked hfunds
  refine ⟨accepts, postTransfer_checked fun d ha hb => accepts d ?_ ?_⟩
  · rw [ha, challenged_accounts]
  · rw [hb, challenged_balances]
end Bantam
