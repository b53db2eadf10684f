import Bantam.Overdraft

/-! Arbitrary statements on `bank_accounts` and `account_balances` under the constraints and
triggers of the migrations. A trigger fires for the columns it names, so a statement that moves
a balance to another account, or an account to another identifier, passes it by. -/
namespace Bantam
open Tables

/-- A `SET` clause on a column: the expression, or `none` where the clause leaves it out. -/
def assigned {ρ α : Type} (set : Option (ρ → α)) (column : ρ → α) (r : ρ) : α :=
  match set with
  | some expression => expression r
  | none => column r

structure BalanceSet where
  accountId : Option (AccountBalance → Uuid) := none
  availableBalanceMinor : Option (AccountBalance → Int) := none
  currentBalanceMinor : Option (AccountBalance → Int) := none
  currency : Option (AccountBalance → String) := none
  lastLedgerEntryId : Option (AccountBalance → Option Uuid) := none
  updatedAt : Option (AccountBalance → Instant) := none

structure AccountSet where
  accountId : Option (BankAccount → Uuid) := none
  customerId : Option (BankAccount → Option Uuid) := none
  accountReference : Option (BankAccount → String) := none
  accountType : Option (BankAccount → AccountType) := none
  currency : Option (BankAccount → String) := none
  status : Option (BankAccount → AccountStatus) := none
  allowNegative : Option (BankAccount → Bool) := none
  openedAt : Option (BankAccount → Instant) := none

namespace BalanceSet

/-- `account_balances_non_negative` is `BEFORE UPDATE OF` these two columns. -/
def fires (set : BalanceSet) : Bool :=
  set.currentBalanceMinor.isSome || set.availableBalanceMinor.isSome

def newId (set : BalanceSet) (r : AccountBalance) : Uuid :=
  assigned set.accountId AccountBalance.accountId r

/-- The new version of a row, under its types and its `CHECK`. -/
def assign (set : BalanceSet) (r : AccountBalance) : Except Failure AccountBalance :=
  let available := assigned set.availableBalanceMinor AccountBalance.availableBalanceMinor r
  let current := assigned set.currentBalanceMinor AccountBalance.currentBalanceMinor r
  if ¬ (InBigint available ∧ InBigint current) then .error (.database .numericValueOutOfRange)
  else if h : available ≤ current then
    .ok {
      accountId := set.newId r
      availableBalanceMinor := available
      currentBalanceMinor := current
      currency := assigned set.currency AccountBalance.currency r
      lastLedgerEntryId := assigned set.lastLedgerEntryId AccountBalance.lastLedgerEntryId r
      updatedAt := assigned set.updatedAt AccountBalance.updatedAt r
      notAbove := h }
  else .error (.database .checkViolation)

def trigger (set : BalanceSet) (db : Db) (new : AccountBalance) : Except Failure Unit :=
  if set.fires then
    db.rejectNegativeCustomerBalance new.accountId new.currentBalanceMinor
      new.availableBalanceMinor
  else .ok ()

/-- The new version of a row of the database, under the trigger and the references too. -/
def version (set : BalanceSet) (db : Db) (r : AccountBalance) : Except Failure AccountBalance := do
  let r' ← set.assign r
  set.trigger db r'
  Db.require .foreignKeyViolation (r'.accountId ∈ db.accounts.map BankAccount.accountId)
  Db.require .foreignKeyViolation
    (Db.references r'.lastLedgerEntryId (db.entries.map LedgerEntry.ledgerEntryId))
  return r'
end BalanceSet

namespace AccountSet

/-- `bank_accounts_classification_immutable` is `BEFORE UPDATE OF` these three columns. -/
def fires (set : AccountSet) : Bool :=
  set.accountType.isSome || set.customerId.isSome || set.allowNegative.isSome

def newId (set : AccountSet) (r : BankAccount) : Uuid :=
  assigned set.accountId BankAccount.accountId r

/-- The new version of a row, under the `CHECK` on its classification. -/
def assign (set : AccountSet) (r : BankAccount) : Except Failure BankAccount :=
  let accountType := assigned set.accountType BankAccount.accountType r
  let customerId := assigned set.customerId BankAccount.customerId r
  let allowNegative := assigned set.allowNegative BankAccount.allowNegative r
  if h : (accountType = .system ∧ customerId = none ∧ allowNegative = true) ∨
      (accountType = .current ∧ customerId.isSome ∧ allowNegative = false) then
    .ok {
      accountId := set.newId r
      customerId := customerId
      accountReference := assigned set.accountReference BankAccount.accountReference r
      accountType := accountType
      currency := assigned set.currency BankAccount.currency r
      status := assigned set.status BankAccount.status r
      allowNegative := allowNegative
      openedAt := assigned set.openedAt BankAccount.openedAt r
      classified := h }
  else .error (.database .checkViolation)

/-- `reject_account_classification_mutation` -/
def trigger (set : AccountSet) (old new : BankAccount) : Except Failure Unit :=
  if set.fires then
    Db.require .checkViolation (new.accountType = old.accountType ∧
      new.customerId = old.customerId ∧ new.allowNegative = old.allowNegative)
  else .ok ()

/-- The new version of a row of the database, under the trigger and the reference too. -/
def version (set : AccountSet) (db : Db) (r : BankAccount) : Except Failure BankAccount := do
  let r' ← set.assign r
  set.trigger r r'
  Db.require .foreignKeyViolation
    (Db.references r'.customerId (db.customers.map Customer.customerId))
  return r'
end AccountSet

namespace Db

/-- A row of another table, or a balance, refers to the account. -/
def refersTo (db : Db) (id : Uuid) : Bool :=
  id ∈ db.balances.map AccountBalance.accountId ||
  id ∈ db.entries.map LedgerEntry.accountId ||
  id ∈ db.transactions.map Transaction.sourceAccountId ||
  id ∈ db.transactions.map Transaction.destinationAccountId ||
  id ∈ db.challenges.map ScaChallenge.sourceAccountId ||
  id ∈ db.challenges.map ScaChallenge.destinationAccountId

def insertAll {ρ : Type} (insert : ρ → Db → Except Failure Db) :
    List ρ → Db → Except Failure Db
  | [], db => .ok db
  | row :: rows, db => do
    let db ← insert row db
    insertAll insert rows db

/-- `INSERT` of a balance: its types, its reference, its trigger and its key. -/
def insertBalanceRow (row : AccountBalance) (db : Db) : Except Failure Db := do
  require .numericValueOutOfRange
    (InBigint row.availableBalanceMinor ∧ InBigint row.currentBalanceMinor)
  require .foreignKeyViolation
    (references row.lastLedgerEntryId (db.entries.map LedgerEntry.ledgerEntryId))
  db.insertBalance row

/-- A reference without an action lets an account leave its identifier when nothing refers to
it, or when another account has taken it at the end of the statement. -/
def updateAccounts (targets : BankAccount → Bool) (set : AccountSet) (db : Db) :
    Except Failure Db := do
  let rows ← updateRows
    (fun a b => a.accountId = b.accountId || a.accountReference = b.accountReference)
    (.database .uniqueViolation) targets (set.version db) [] db.accounts
  require .foreignKeyViolation
    (∀ a ∈ db.accounts, db.refersTo a.accountId → a.accountId ∈ rows.map BankAccount.accountId)
  return { db with accounts := rows }

def updateBalances (targets : AccountBalance → Bool) (set : BalanceSet) (db : Db) :
    Except Failure Db := do
  let rows ← updateRows (fun a b => a.accountId = b.accountId) (.database .uniqueViolation)
    targets (set.version db) [] db.balances
  return { db with balances := rows }

/-- `ON DELETE RESTRICT`: an account that is referred to stays. -/
def deleteAccounts (targets : BankAccount → Bool) (db : Db) : Except Failure Db := do
  require .foreignKeyViolation
    (∀ a ∈ db.accounts, targets a = true → db.refersTo a.accountId = false)
  return { db with accounts := db.accounts.filter fun a => !targets a }

def deleteBalances (targets : AccountBalance → Bool) (db : Db) : Except Failure Db :=
  .ok { db with balances := db.balances.filter fun b => !targets b }
end Db

/-- A statement on the two tables; an `ON CONFLICT DO UPDATE` is the insertion or the update
that it comes to. -/
inductive AccountStatement where
  | insertAccounts (rows : List BankAccount)
  | updateAccounts (targets : BankAccount → Bool) (set : AccountSet)
  | deleteAccounts (targets : BankAccount → Bool)
  | insertBalances (rows : List AccountBalance)
  | updateBalances (targets : AccountBalance → Bool) (set : BalanceSet)
  | deleteBalances (targets : AccountBalance → Bool)

def AccountStatement.execute : AccountStatement → Db → Except Failure Db
  | .insertAccounts rows => Db.insertAll Db.insertAccount rows
  | .updateAccounts targets set => Db.updateAccounts targets set
  | .deleteAccounts targets => Db.deleteAccounts targets
  | .insertBalances rows => Db.insertAll Db.insertBalanceRow rows
  | .updateBalances targets set => Db.updateBalances targets set
  | .deleteBalances targets => Db.deleteBalances targets

/-- A statement that the constraints or the triggers reject changes nothing. -/
def accountStep (db : Db) (statement : AccountStatement) : Db :=
  match statement.execute db with
  | .ok db' => db'
  | .error _ => db

def AccountStatement.Accepted (db : Db) (statement : AccountStatement) : Prop :=
  ∃ db', statement.execute db = .ok db'

def AccountBalance.Negative (b : AccountBalance) : Prop :=
  b.currentBalanceMinor < 0 ∨ b.availableBalanceMinor < 0

/-- The statement moves a negative balance, without naming a balance column, to an account that
may not be negative, or such an account to the identifier of a negative balance. -/
def AccountStatement.Rekeys (db : Db) : AccountStatement → Prop
  | .updateBalances targets set =>
    set.fires = false ∧ ∃ b ∈ db.balances, targets b = true ∧ b.Negative ∧
      ∃ a ∈ db.accounts, a.accountId = set.newId b ∧ a.allowNegative = false
  | .updateAccounts targets set =>
    ∃ a ∈ db.accounts, targets a = true ∧ a.allowNegative = false ∧
      ∃ b ∈ db.balances, b.accountId = set.newId a ∧ b.Negative
  | _ => False

instance (b : AccountBalance) : Decidable b.Negative := inferInstanceAs (Decidable (_ ∨ _))

instance AccountStatement.Rekeys.decidable (db : Db) :
    (statement : AccountStatement) → Decidable (statement.Rekeys db)
  | .updateBalances targets set =>
    inferInstanceAs (Decidable (set.fires = false ∧ ∃ b ∈ db.balances, targets b = true ∧
      b.Negative ∧ ∃ a ∈ db.accounts, a.accountId = set.newId b ∧ a.allowNegative = false))
  | .updateAccounts targets set =>
    inferInstanceAs (Decidable (∃ a ∈ db.accounts, targets a = true ∧ a.allowNegative = false ∧
      ∃ b ∈ db.balances, b.accountId = set.newId a ∧ b.Negative))
  | .insertAccounts _ | .deleteAccounts _ | .insertBalances _ | .deleteBalances _ =>
    inferInstanceAs (Decidable False)

instance AccountStatement.Accepted.decidable (db : Db) (statement : AccountStatement) :
    Decidable (statement.Accepted db) :=
  match h : statement.execute db with
  | .ok db' => isTrue ⟨db', h⟩
  | .error _ => isFalse fun ⟨db', hok⟩ => by
    rw [h] at hok
    cases hok

/-- The primary keys of the two tables and the reference between them. -/
structure Related (db : Db) : Prop where
  accountsKeyed : Keyed BankAccount.accountId db.accounts
  balancesKeyed : Keyed AccountBalance.accountId db.balances
  backed : ∀ b ∈ db.balances, b.accountId ∈ db.accounts.map BankAccount.accountId

section Versions
variable {db : Db}

theorem BalanceSet.version_ok {set : BalanceSet} {r r' : AccountBalance}
    (h : set.version db r = .ok r') :
    r'.accountId = set.newId r ∧ r'.accountId ∈ db.accounts.map BankAccount.accountId ∧
    (set.fires = true → ∃ a, db.findAccount r'.accountId = some a ∧
      (a.allowNegative = true ∨ 0 ≤ r'.currentBalanceMinor ∧ 0 ≤ r'.availableBalanceMinor)) ∧
    (set.fires = false → r'.currentBalanceMinor = r.currentBalanceMinor ∧
      r'.availableBalanceMinor = r.availableBalanceMinor) := by
  simp only [BalanceSet.version, bind_eq_ok, require_eq_ok, pure, Except.pure,
    Except.ok.injEq] at h
  obtain ⟨r'', hassign, _, hfires, _, hid, _, -, rfl⟩ := h
  unfold BalanceSet.assign at hassign
  simp only at hassign
  split_ifs at hassign with hrange habove
  obtain rfl := Except.ok.inj hassign
  refine ⟨rfl, hid, fun hf => ?_, fun hf => ?_⟩
  · rw [BalanceSet.trigger, if_pos hf] at hfires
    exact Db.rejectNegativeCustomerBalance_ok.mp hfires
  · simp only [BalanceSet.fires, Bool.or_eq_false_iff, Option.isSome_eq_false_iff,
      Option.isNone_iff_eq_none] at hf
    simp [assigned, hf.1, hf.2]

theorem AccountSet.version_ok {set : AccountSet} {r r' : BankAccount}
    (h : set.version db r = .ok r') :
    r'.accountId = set.newId r ∧ r'.allowNegative = r.allowNegative := by
  simp only [AccountSet.version, bind_eq_ok, require_eq_ok, pure, Except.pure,
    Except.ok.injEq] at h
  obtain ⟨r'', hassign, _, hfires, _, -, rfl⟩ := h
  have hsame : set.fires = true → r''.allowNegative = r.allowNegative := by
    intro hf
    rw [AccountSet.trigger, if_pos hf, require_eq_ok] at hfires
    exact hfires.2.2
  unfold AccountSet.assign at hassign
  simp only at hassign
  split_ifs at hassign with hclass
  obtain rfl := Except.ok.inj hassign
  refine ⟨rfl, ?_⟩
  by_cases hf : set.fires = true
  · exact hsame hf
  · simp only [AccountSet.fires, Bool.or_eq_true, not_or, Option.not_isSome_iff_eq_none] at hf
    simp [assigned, hf.2]
end Versions

section Updates
variable {db db' : Db}

/-- A trigger that fires has checked the new version; one that does not leaves the balances
of the row as they were, whatever account it moves to. -/
theorem updateBalances_ok (hr : Related db) {targets : AccountBalance → Bool} {set : BalanceSet}
    (h : db.updateBalances targets set = .ok db') :
    Related db' ∧ (NonNegative db →
      (NonNegative db' ↔ ¬ AccountStatement.Rekeys db (.updateBalances targets set))) := by
  simp only [Db.updateBalances, bind_eq_ok, pure, Except.pure, Except.ok.injEq] at h
  obtain ⟨rows, hrows, rfl⟩ := h
  obtain ⟨hfrom, -, hto⟩ := updateRows_ok hrows
  refine ⟨⟨hr.accountsKeyed, ?_, ?_⟩, fun hn => ⟨?_, ?_⟩⟩
  · exact keyed_updateRows (fun r q he => by simpa using he) hrows hr.balancesKeyed
  · intro b' hb'
    obtain ⟨b, hb, hupdated⟩ := (hfrom b' hb').resolve_left (by simp)
    unfold Updated at hupdated
    split_ifs at hupdated with ht
    · exact (BalanceSet.version_ok hupdated).2.1
    · exact hupdated ▸ hr.backed b hb
  · intro hn' hrekeys
    obtain ⟨hfires, b, hb, ht, hnegative, a, ha, hid, hneg⟩ := hrekeys
    obtain ⟨b', hb', hupdated⟩ := hto b hb
    rw [Updated, if_pos ht] at hupdated
    obtain ⟨hid', -, -, hsame⟩ := BalanceSet.version_ok hupdated
    obtain ⟨hcurrent, havailable⟩ := hsame hfires
    have hpositive := hn' a ha hneg b' hb' (hid'.trans hid.symm)
    unfold AccountBalance.Negative at hnegative
    omega
  · intro hno a ha hneg b' hb' hid
    obtain ⟨b, hb, hupdated⟩ := (hfrom b' hb').resolve_left (by simp)
    unfold Updated at hupdated
    split_ifs at hupdated with ht
    · obtain ⟨hid', -, hchecked, hsame⟩ := BalanceSet.version_ok hupdated
      cases hfires : set.fires with
      | true =>
        obtain ⟨q, hq, hallowed⟩ := hchecked hfires
        have hqa : q = a := hr.accountsKeyed.eq_of_key (lookup_mem hq) ha
          ((lookup_key hq).trans hid)
        rw [hqa, hneg] at hallowed
        simpa using hallowed
      | false =>
        obtain ⟨hcurrent, havailable⟩ := hsame hfires
        have hpositive : ¬ b.Negative := fun hnegative =>
          hno ⟨hfires, b, hb, ht, hnegative, a, ha, hid.symm.trans hid', hneg⟩
        unfold AccountBalance.Negative at hpositive
        omega
    · exact hn a ha hneg b' (hupdated ▸ hb) hid

theorem updateAccounts_ok (hr : Related db) {targets : BankAccount → Bool} {set : AccountSet}
    (h : db.updateAccounts targets set = .ok db') :
    Related db' ∧ (NonNegative db →
      (NonNegative db' ↔ ¬ AccountStatement.Rekeys db (.updateAccounts targets set))) := by
  simp only [Db.updateAccounts, bind_eq_ok, require_eq_ok, pure, Except.pure,
    Except.ok.injEq] at h
  obtain ⟨rows, hrows, _, hreferred, rfl⟩ := h
  obtain ⟨hfrom, -, hto⟩ := updateRows_ok hrows
  refine ⟨⟨?_, hr.balancesKeyed, ?_⟩, fun hn => ⟨?_, ?_⟩⟩
  · exact keyed_updateRows (fun r q he => by simp [he]) hrows hr.accountsKeyed
  · intro b hb
    obtain ⟨a, ha, hid⟩ := List.mem_map.mp (hr.backed b hb)
    rw [← hid]
    refine hreferred a ha ?_
    have hmem : a.accountId ∈ db.balances.map AccountBalance.accountId :=
      List.mem_map.mpr ⟨b, hb, hid.symm⟩
    simp [Db.refersTo, hmem]
  · intro hn' hrekeys
    obtain ⟨a, ha, ht, hneg, b, hb, hid, hnegative⟩ := hrekeys
    obtain ⟨a', ha', hupdated⟩ := hto a ha
    rw [Updated, if_pos ht] at hupdated
    obtain ⟨hid', hallow⟩ := AccountSet.version_ok hupdated
    have hpositive := hn' a' ha' (hallow.trans hneg) b hb (hid.trans hid'.symm)
    unfold AccountBalance.Negative at hnegative
    omega
  · intro hno a' ha' hneg b hb hid
    obtain ⟨a, ha, hupdated⟩ := (hfrom a' ha').resolve_left (by simp)
    unfold Updated at hupdated
    split_ifs at hupdated with ht
    · obtain ⟨hid', hallow⟩ := AccountSet.version_ok hupdated
      have hpositive : ¬ b.Negative := fun hnegative =>
        hno ⟨a, ha, ht, hallow ▸ hneg, b, hb, hid.trans hid', hnegative⟩
      unfold AccountBalance.Negative at hpositive
      omega
    · subst hupdated
      exact hn a' ha hneg b hb hid
end Updates

section Rows
variable {db db' : Db}

/-- Rows are inserted one after the other. -/
theorem insertAll_related {ρ : Type} {insert : ρ → Db → Except Failure Db}
    (single : ∀ row db db', insert row db = .ok db' → Related db →
      Related db' ∧ (NonNegative db → NonNegative db')) {rows : List ρ}
    (h : Db.insertAll insert rows db = .ok db') (hr : Related db) :
    Related db' ∧ (NonNegative db → NonNegative db') := by
  induction rows generalizing db with
  | nil =>
    cases h
    exact ⟨hr, id⟩
  | cons row rows ih =>
    simp only [Db.insertAll, bind_eq_ok] at h
    obtain ⟨mid, hm, ht⟩ := h
    obtain ⟨hmid, hfirst⟩ := single row db mid hm hr
    obtain ⟨hlast, hrest⟩ := ih ht hmid
    exact ⟨hlast, fun hn => hrest (hfirst hn)⟩

/-- A new account has no balance yet. -/
theorem insertAccount_related (row : BankAccount) (db db' : Db)
    (h : db.insertAccount row = .ok db') (hr : Related db) :
    Related db' ∧ (NonNegative db → NonNegative db') := by
  obtain ⟨hfresh, rfl⟩ := insertAccount_ok h
  refine ⟨⟨keyed_append_one.mpr ⟨hr.accountsKeyed, hfresh⟩, hr.balancesKeyed, ?_⟩, ?_⟩
  · intro b hb
    rw [List.map_append]
    exact List.mem_append_left _ (hr.backed b hb)
  · intro hn a ha hneg b hb hid
    cases List.mem_append.mp ha with
    | inl hold => exact hn a hold hneg b hb hid
    | inr hnew =>
      rw [List.mem_singleton.mp hnew] at hid
      exact absurd (hid ▸ hr.backed b hb) hfresh

/-- The trigger fires on every inserted balance. -/
theorem insertBalanceRow_related (row : AccountBalance) (db db' : Db)
    (h : db.insertBalanceRow row = .ok db') (hr : Related db) :
    Related db' ∧ (NonNegative db → NonNegative db') := by
  simp only [Db.insertBalanceRow, Db.insertBalance, bind_eq_ok, require_eq_ok,
    Db.rejectNegativeCustomerBalance_ok, pure, Except.pure, Except.ok.injEq] at h
  obtain ⟨_, -, _, -, _, ⟨q, hq, hallowed⟩, _, hfresh, rfl⟩ := h
  refine ⟨⟨hr.accountsKeyed, keyed_append_one.mpr ⟨hr.balancesKeyed, hfresh⟩, ?_⟩, ?_⟩
  · intro b hb
    cases List.mem_append.mp hb with
    | inl hold => exact hr.backed b hold
    | inr hnew =>
      rw [List.mem_singleton.mp hnew]
      exact key_mem_of_lookup hq
  · intro hn a ha hneg b hb hid
    cases List.mem_append.mp hb with
    | inl hold => exact hn a ha hneg b hold hid
    | inr hnew =>
      rw [List.mem_singleton.mp hnew] at hid ⊢
      have hqa : q = a := hr.accountsKeyed.eq_of_key (lookup_mem hq) ha
        ((lookup_key hq).trans hid)
      rw [hqa, hneg] at hallowed
      simpa using hallowed

theorem deleteAccounts_related {targets : BankAccount → Bool}
    (h : db.deleteAccounts targets = .ok db') (hi : Related db) :
    Related db' ∧ (NonNegative db → NonNegative db') := by
  simp only [Db.deleteAccounts, bind_eq_ok, require_eq_ok, pure, Except.pure,
    Except.ok.injEq] at h
  obtain ⟨_, hfree, rfl⟩ := h
  have hsub : (db.accounts.filter fun a => !targets a).Sublist db.accounts := List.filter_sublist
  refine ⟨⟨hi.accountsKeyed.sublist (hsub.map _), hi.balancesKeyed, ?_⟩, ?_⟩
  · intro b hb
    obtain ⟨a, ha, hid⟩ := List.mem_map.mp (hi.backed b hb)
    have hmem : a.accountId ∈ db.balances.map AccountBalance.accountId :=
      List.mem_map.mpr ⟨b, hb, hid.symm⟩
    have hkept : targets a = false := by
      by_contra ht
      have hunreferred := hfree a ha (by simpa using ht)
      simp [Db.refersTo, hmem] at hunreferred
    exact List.mem_map.mpr ⟨a, List.mem_filter.mpr ⟨ha, by simp [hkept]⟩, hid⟩
  · intro hn a ha hneg b hb hid
    exact hn a (hsub.subset ha) hneg b hb hid

theorem deleteBalances_related {targets : AccountBalance → Bool}
    (h : db.deleteBalances targets = .ok db') (hi : Related db) :
    Related db' ∧ (NonNegative db → NonNegative db') := by
  cases h
  have hsub : (db.balances.filter fun b => !targets b).Sublist db.balances := List.filter_sublist
  refine ⟨⟨hi.accountsKeyed, hi.balancesKeyed.sublist (hsub.map _), ?_⟩, ?_⟩
  · intro b hb
    exact hi.backed b (hsub.subset hb)
  · intro hn a ha hneg b hb hid
    exact hn a ha hneg b (hsub.subset hb) hid
end Rows

/-- A statement keeps the keys and the reference, and it keeps every customer balance from
being negative exactly when it moves none of them past the triggers. -/
theorem accountStep_related {db : Db} (hr : Related db) (statement : AccountStatement) :
    Related (accountStep db statement) ∧ (NonNegative db →
      (NonNegative (accountStep db statement) ↔
        (statement.Accepted db → ¬ statement.Rekeys db))) := by
  unfold accountStep
  cases h : statement.execute db with
  | error e =>
    refine ⟨hr, fun hn => ⟨fun _ haccepted => ?_, fun _ => hn⟩⟩
    obtain ⟨db', hok⟩ := haccepted
    rw [h] at hok
    cases hok
  | ok db' =>
    have haccepted : statement.Accepted db := ⟨db', h⟩
    have quiet : (Related db' ∧ (NonNegative db → NonNegative db')) → ¬ statement.Rekeys db →
        Related db' ∧ (NonNegative db →
          (NonNegative db' ↔ (statement.Accepted db → ¬ statement.Rekeys db))) :=
      fun hkeep hno => ⟨hkeep.1, fun hn => ⟨fun _ _ => hno, fun _ => hkeep.2 hn⟩⟩
    have exact : (Related db' ∧ (NonNegative db → (NonNegative db' ↔ ¬ statement.Rekeys db))) →
        Related db' ∧ (NonNegative db →
          (NonNegative db' ↔ (statement.Accepted db → ¬ statement.Rekeys db))) :=
      fun hupdate => ⟨hupdate.1, fun hn => (hupdate.2 hn).trans
        ⟨fun hno _ => hno, fun hno => hno haccepted⟩⟩
    cases statement with
    | insertAccounts rows => exact quiet (insertAll_related insertAccount_related h hr) id
    | updateAccounts targets set => exact exact (updateAccounts_ok hr h)
    | deleteAccounts targets => exact quiet (deleteAccounts_related h hr) id
    | insertBalances rows => exact quiet (insertAll_related insertBalanceRow_related h hr) id
    | updateBalances targets set => exact exact (updateBalances_ok hr h)
    | deleteBalances targets => exact quiet (deleteBalances_related h hr) id

/-- From tables whose keys, reference and customer balances are in order, a sequence of
statements keeps every customer balance from being negative throughout exactly when no accepted
statement of it moves one past the triggers. -/
theorem customer_balances_kept (db : Db) (hr : Related db) (hn : NonNegative db)
    (statements : List AccountStatement) :
    Runs.Always accountStep NonNegative db statements ↔
      Runs.Along accountStep (fun db statement => statement.Accepted db → ¬ statement.Rekeys db)
        db statements :=
  Runs.always_iff_along (I := Related) (fun _ statement h => (accountStep_related h statement).1)
    (fun _ statement h => (accountStep_related h statement).2) hr hn statements

/-- The tables of customers and nothing else, as the seed leaves the first of them. -/
def sampleTables : Db := { Db.migrated with customers := seedCustomers }

def sampleBalance (accountId : Uuid) (amountMinor : Int) : AccountBalance :=
  ⟨accountId, amountMinor, amountMinor, "GBP", none, 0, Int.le_refl amountMinor⟩

theorem sampleTables_related : Related sampleTables ∧ NonNegative sampleTables := by
  refine ⟨⟨keyed_nil, keyed_nil, ?_⟩, ?_⟩
  · intro b hb
    cases hb
  · intro a ha
    cases ha

/-- A balance of the customer moves to the account of another, and an overdraft is refused. -/
theorem customer_balances_kept_moved :
    Runs.Always accountStep NonNegative sampleTables
      [.insertAccounts (seedAccounts 0), .insertBalances [sampleBalance treasuryAccountId (-100),
        sampleBalance aliceAccountId 100],
        .updateBalances (fun b => b.accountId = aliceAccountId)
          { accountId := some fun _ => bobAccountId },
        .updateBalances (fun b => b.accountId = bobAccountId)
          { availableBalanceMinor := some fun b => b.availableBalanceMinor - 101 }] :=
  (customer_balances_kept sampleTables sampleTables_related.1 sampleTables_related.2 _).mpr
    (by decide)

/-- Every statement is accepted, and the overdraft of the treasury becomes a customer's. -/
theorem balance_moved_past_trigger :
    let statements : List AccountStatement :=
      [.insertAccounts (seedAccounts 0), .insertBalances [sampleBalance treasuryAccountId (-100)],
        .updateBalances (fun b => b.accountId = treasuryAccountId)
          { accountId := some fun _ => aliceAccountId }]
    NonNegative sampleTables ∧
    Runs.Along accountStep (fun db statement => statement.Accepted db) sampleTables statements ∧
    ¬ NonNegative (Runs.run accountStep sampleTables statements) := by
  refine ⟨sampleTables_related.2, by decide, fun h => ?_⟩
  have hnegative := h ((seedAccounts 0)[1]) (by decide) rfl (sampleBalance aliceAccountId (-100))
    (by decide) rfl
  revert hnegative
  decide

/-- The customer's account takes the identifier that the treasury gives up. -/
example :
    let statements : List AccountStatement :=
      [.insertAccounts (seedAccounts 0), .insertBalances [sampleBalance treasuryAccountId (-100)],
        .updateAccounts (fun a => a.accountId = treasuryAccountId ∨ a.accountId = aliceAccountId)
          { accountId := some fun a => if a.accountId = treasuryAccountId then 1 else
              treasuryAccountId }]
    Runs.Along accountStep (fun db statement => statement.Accepted db) sampleTables statements ∧
    (Runs.run accountStep sampleTables statements).accounts.map
      (fun a => (a.accountId, a.allowNegative)) =
        [(1, true), (treasuryAccountId, false), (bobAccountId, false)] := by
  decide
end Bantam
