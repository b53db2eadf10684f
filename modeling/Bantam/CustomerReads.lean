import Bantam.EventReplay
import Bantam.Access
import Bantam.Reversals
import Bantam.Workers
import Bantam.Authentication
import Bantam.Lib.OrderBy

/-! What a customer is shown: the accounts with their balances, the statement of an account and
single transfers. -/
namespace Bantam
open Tables
variable {db db' : Db} {sca : ScaService} {settings : Settings}

/-! The routes. -/

structure AccountView where
  accountId : Uuid
  customerId : Option Uuid
  accountReference : String
  accountType : AccountType
  currency : String
  status : AccountStatus
  balanceMinor : Int
  openedAt : Instant
  deriving DecidableEq

def accountView (a : BankAccount) (b : AccountBalance) : AccountView where
  accountId := a.accountId
  customerId := a.customerId
  accountReference := a.accountReference
  accountType := a.accountType
  currency := a.currency
  status := a.status
  balanceMinor := b.currentBalanceMinor
  openedAt := a.openedAt

/-- `ORDER BY a.opened_at` -/
abbrev OldestFirst := OrderBy fun a b : AccountView => a.openedAt ≤ b.openedAt

/-- `ORDER BY created_at DESC` -/
abbrev NewestFirst := OrderBy fun s t : Transaction => t.createdAt ≤ s.createdAt

/-- The customer behind `CustomerPrincipal`. -/
def customerOf (principal : Principal) : Except Failure Uuid :=
  if principal.role ≠ .customer then .error (.bantam roleForbidden)
  else match principal.customerId with
    | none => .error (.bantam forbidden)
    | some c => .ok c

/-- `query_limit`, of what `int` makes of the query -/
def queryLimit (value : Option Int) (fallback maximum : Nat) : Nat :=
  match value with
  | none => fallback
  | some n => if n ≤ 0 then fallback else min n.toNat maximum

def BankAccount.ownedBy (c : Uuid) (a : BankAccount) : Bool := a.customerId = some c

/-- `WHERE account_id = … AND customer_id = …` -/
def ownAccount (c id : Uuid) (db : Db) : Option BankAccount :=
  (db.findAccount id).filter (BankAccount.ownedBy c)

def Transaction.touches (id : Uuid) (t : Transaction) : Bool :=
  t.sourceAccountId = id || t.destinationAccountId = id

def listAccounts (order : OldestFirst) (principal : Principal) (db : Db) :
    Except Failure (List AccountView) := do
  let c ← customerOf principal
  return order.rows ((db.accounts.filter (BankAccount.ownedBy c)).filterMap fun a =>
    (db.findBalance a.accountId).map (accountView a))

def getAccount (principal : Principal) (id : Uuid) (db : Db) : Except Failure AccountView := do
  let c ← customerOf principal
  match ownAccount c id db, db.findBalance id with
  | some a, some b => .ok (accountView a b)
  | _, _ => .error (.bantam accountNotFound)

/-- `list_account_transactions`; its two statements see the same owner. -/
def listAccountTransactions (order : NewestFirst) (principal : Principal) (id : Uuid)
    (limit : Option Int) (db : Db) : Except Failure (List TransactionPayload) := do
  let c ← customerOf principal
  match ownAccount c id db with
  | none => .error (.bantam accountNotFound)
  | some _ => .ok (((order.rows (db.transactions.filter (Transaction.touches id))).take
      (queryLimit limit 50 100)).map transactionPayload)

/-- The row of a transfer with the rows of its accounts, of which the customer owns one. -/
def ownTransfer (c id : Uuid) (db : Db) : Option Transaction :=
  (db.findTransaction id).filter fun t =>
    match db.findAccount t.sourceAccountId, db.findAccount t.destinationAccountId with
    | some source, some destination => source.ownedBy c || destination.ownedBy c
    | _, _ => false

def getTransfer (principal : Principal) (id : Uuid) (db : Db) :
    Except Failure TransactionPayload := do
  let c ← customerOf principal
  match ownTransfer c id db with
  | none => .error (.bantam transactionNotFound)
  | some t => .ok (transactionPayload t)

/-! A customer's own rows. -/

def owned (c : Uuid) (db : Db) (id : Uuid) : Bool :=
  db.accounts.any fun a => a.ownedBy c && a.accountId = id

structure OwnRows where
  accounts : List BankAccount
  balances : List AccountBalance
  transactions : List Transaction

def ownRows (c : Uuid) (db : Db) : OwnRows where
  accounts := db.accounts.filter (BankAccount.ownedBy c)
  balances := db.balances.filter fun b => owned c db b.accountId
  transactions := db.transactions.filter fun t =>
    owned c db t.sourceAccountId || owned c db t.destinationAccountId

/-- What the reads rest on: the keys, and the accounts that transactions refer to. -/
structure Answerable (db : Db) : Prop where
  projected : Projected db
  recorded : Recorded db
  accounted : Accounted db

section Rows
variable {c id : Uuid}

theorem owned_iff : owned c db id = true ↔
    id ∈ (ownRows c db).accounts.map BankAccount.accountId := by
  simp [owned, ownRows, List.mem_filter, and_assoc]

theorem lookup_filter {ρ : Type} {key : ρ → Uuid} {rows : List ρ} (hk : Keyed key rows)
    (p : ρ → Bool) : lookup key id (rows.filter p) = (lookup key id rows).filter p := by
  have hkept : Keyed key (rows.filter p) := List.Nodup.sublist (List.filter_sublist.map key) hk
  ext r
  rw [lookup_eq_some_iff hkept, List.mem_filter, Option.filter_eq_some_iff, lookup_eq_some_iff hk]
  exact ⟨fun h => ⟨⟨h.1.1, h.2⟩, h.1.2⟩, fun h => ⟨⟨h.1.1, h.2⟩, h.1.2⟩⟩

theorem ownAccount_rows (h : Answerable db) :
    ownAccount c id db = lookup BankAccount.accountId id (ownRows c db).accounts :=
  (lookup_filter h.projected.accountsKeyed _).symm

theorem ownAccount_isSome (h : Answerable db) :
    (ownAccount c id db).isSome = true ↔ owned c db id = true := by
  rw [ownAccount_rows h, lookup_isSome_iff, owned_iff]

theorem findBalance_rows (h : Answerable db) (hown : owned c db id = true) :
    db.findBalance id = lookup AccountBalance.accountId id (ownRows c db).balances := by
  rw [ownRows, lookup_filter h.projected.balancesKeyed, Db.findBalance]
  cases hb : lookup AccountBalance.accountId id db.balances with
  | none => rfl
  | some b =>
    obtain rfl := lookup_key hb
    rw [Option.filter_some, if_pos hown]

theorem touching_rows (hown : owned c db id = true) :
    db.transactions.filter (Transaction.touches id) =
      (ownRows c db).transactions.filter (Transaction.touches id) := by
  rw [ownRows, List.filter_filter]
  refine List.filter_congr fun t _ => ?_
  by_cases hs : t.sourceAccountId = id
  · simp [Transaction.touches, hs, hown]
  · by_cases hd : t.destinationAccountId = id <;> simp [Transaction.touches, hs, hd, hown]

theorem ownedBy_findAccount (h : Answerable db) {a : BankAccount} (ha : db.findAccount id = some a) :
    a.ownedBy c = owned c db id := by
  rw [Bool.eq_iff_iff, ← ownAccount_isSome h, ownAccount, ha, Option.filter_some]
  split <;> simp_all

theorem ownTransfer_rows (h : Answerable db) :
    ownTransfer c id db = lookup Transaction.transactionId id (ownRows c db).transactions := by
  rw [ownRows, lookup_filter h.recorded.idsKeyed, ownTransfer, Db.findTransaction]
  cases ht : lookup Transaction.transactionId id db.transactions with
  | none => rfl
  | some t =>
    have hmem := lookup_mem ht
    obtain ⟨source, hs⟩ := Option.isSome_iff_exists.mp
      (lookup_isSome_iff.mpr (h.accounted.placed t hmem).1)
    obtain ⟨destination, hd⟩ := Option.isSome_iff_exists.mp
      (lookup_isSome_iff.mpr (h.accounted.placed t hmem).2)
    have hsource : db.findAccount t.sourceAccountId = some source := hs
    have hdestination : db.findAccount t.destinationAccountId = some destination := hd
    simp only [Option.filter_some, hsource, hdestination, ownedBy_findAccount h hsource,
      ownedBy_findAccount h hdestination]

end Rows

/-! What a read depends on. -/

structure ReadOrders where
  accounts : OldestFirst
  transactions : NewestFirst

inductive CustomerRead where
  | accounts
  | account (id : Uuid)
  | transactions (id : Uuid) (limit : Option Int)
  | transfer (id : Uuid)

inductive CustomerAnswer where
  | accounts (views : List AccountView)
  | account (view : AccountView)
  | transactions (rows : List TransactionPayload)
  | transfer (row : TransactionPayload)

/-- What a customer is answered. -/
def CustomerRead.answer (orders : ReadOrders) (principal : Principal) (db : Db) :
    CustomerRead → Except Failure CustomerAnswer
  | .accounts => return .accounts (← listAccounts orders.accounts principal db)
  | .account id => return .account (← getAccount principal id db)
  | .transactions id limit =>
    return .transactions (← listAccountTransactions orders.transactions principal id limit db)
  | .transfer id => return .transfer (← getTransfer principal id db)

theorem customerOf_ok {principal : Principal} {c : Uuid} :
    customerOf principal = .ok c ↔ principal.role = .customer ∧ principal.customerId = some c := by
  unfold customerOf
  split_ifs with hrole
  · simp [hrole]
  · cases hid : principal.customerId with
    | none => simp
    | some d => simp [not_not.mp hrole]

section Dependence
variable {c : Uuid} {principal : Principal}

theorem owned_congr (hrows : ownRows c db = ownRows c db') : owned c db = owned c db' := by
  funext id
  rw [Bool.eq_iff_iff, owned_iff, owned_iff, hrows]

theorem findBalance_congr (h : Answerable db) (h' : Answerable db')
    (hrows : ownRows c db = ownRows c db') {id : Uuid} (hown : owned c db id = true) :
    db.findBalance id = db'.findBalance id := by
  rw [findBalance_rows h hown, findBalance_rows h' (owned_congr hrows ▸ hown), hrows]

theorem ownAccount_congr (h : Answerable db) (h' : Answerable db')
    (hrows : ownRows c db = ownRows c db') (id : Uuid) :
    ownAccount c id db = ownAccount c id db' := by
  rw [ownAccount_rows h, ownAccount_rows h', hrows]

theorem listAccounts_congr (h : Answerable db) (h' : Answerable db')
    (hrows : ownRows c db = ownRows c db') (hc : customerOf principal = .ok c)
    (order : OldestFirst) :
    listAccounts order principal db = listAccounts order principal db' := by
  have haccounts : db.accounts.filter (BankAccount.ownedBy c) =
      db'.accounts.filter (BankAccount.ownedBy c) := congrArg OwnRows.accounts hrows
  have hviews : (db.accounts.filter (BankAccount.ownedBy c)).filterMap
        (fun a => (db.findBalance a.accountId).map (accountView a)) =
      (db'.accounts.filter (BankAccount.ownedBy c)).filterMap
        (fun a => (db'.findBalance a.accountId).map (accountView a)) := by
    rw [← haccounts]
    refine List.filterMap_congr fun a ha => ?_
    have hown : owned c db a.accountId = true := owned_iff.mpr (List.mem_map_of_mem ha)
    rw [findBalance_congr h h' hrows hown]
  rw [listAccounts, listAccounts, hc]
  exact congrArg (fun views => Except.ok (order.rows views)) hviews

theorem getAccount_congr (h : Answerable db) (h' : Answerable db')
    (hrows : ownRows c db = ownRows c db') (hc : customerOf principal = .ok c) (id : Uuid) :
    getAccount principal id db = getAccount principal id db' := by
  simp only [getAccount, hc, bind, Except.bind, ownAccount_congr h h' hrows id]
  cases ha : ownAccount c id db' with
  | none => rfl
  | some a =>
    have hown : owned c db id = true := by
      rw [← ownAccount_isSome h, ownAccount_congr h h' hrows, ha, Option.isSome_some]
    rw [findBalance_congr h h' hrows hown]

theorem listAccountTransactions_congr (h : Answerable db) (h' : Answerable db')
    (hrows : ownRows c db = ownRows c db') (hc : customerOf principal = .ok c)
    (order : NewestFirst) (id : Uuid) (limit : Option Int) :
    listAccountTransactions order principal id limit db =
      listAccountTransactions order principal id limit db' := by
  simp only [listAccountTransactions, hc, bind, Except.bind, ownAccount_congr h h' hrows id]
  cases ha : ownAccount c id db' with
  | none => rfl
  | some a =>
    have hown : owned c db' id = true := by
      rw [← ownAccount_isSome h', ha, Option.isSome_some]
    rw [touching_rows (owned_congr hrows ▸ hown), touching_rows hown, hrows]

theorem getTransfer_congr (h : Answerable db) (h' : Answerable db')
    (hrows : ownRows c db = ownRows c db') (hc : customerOf principal = .ok c) (id : Uuid) :
    getTransfer principal id db = getTransfer principal id db' := by
  simp only [getTransfer, hc, bind, Except.bind, ownTransfer_rows h, ownTransfer_rows h', hrows]

/-- A customer's answers depend on nothing but the customer's own rows. -/
theorem answer_congr (h : Answerable db) (h' : Answerable db') (hrows : ownRows c db = ownRows c db')
    (hc : customerOf principal = .ok c) (orders : ReadOrders) (r : CustomerRead) :
    r.answer orders principal db = r.answer orders principal db' := by
  cases r with
  | accounts => rw [CustomerRead.answer, listAccounts_congr h h' hrows hc, CustomerRead.answer]
  | account id => rw [CustomerRead.answer, getAccount_congr h h' hrows hc, CustomerRead.answer]
  | transactions id limit =>
    rw [CustomerRead.answer, listAccountTransactions_congr h h' hrows hc, CustomerRead.answer]
  | transfer id => rw [CustomerRead.answer, getTransfer_congr h h' hrows hc, CustomerRead.answer]

end Dependence

/-! What the operations do to a customer's rows. -/

section Changes
variable {c : Uuid}

theorem owned_eq_false {id : Uuid} (h : id ∉ db.accounts.map BankAccount.accountId) :
    owned c db id = false := by
  refine List.any_eq_false.mpr fun a ha hboth => h ?_
  simp only [Bool.and_eq_true, decide_eq_true_eq] at hboth
  exact hboth.2 ▸ List.mem_map_of_mem ha

/-- Accounts of others, each with its first balance, change nothing. -/
theorem ownRows_opened {accounts : List BankAccount} {balances : List AccountBalance}
    (h : Projected db) (hkeyed : Keyed AccountBalance.accountId (db.balances ++ balances))
    (hforeign : ∀ a ∈ accounts, a.ownedBy c = false) :
    ownRows c { db with accounts := db.accounts ++ accounts, balances := db.balances ++ balances } =
      ownRows c db := by
  have hnone : accounts.filter (BankAccount.ownedBy c) = [] := by
    simpa [List.filter_eq_nil_iff] using hforeign
  have howned : owned c
      { db with accounts := db.accounts ++ accounts, balances := db.balances ++ balances } =
      owned c db := by
    funext id
    rw [Bool.eq_iff_iff, owned_iff, owned_iff, ownRows, ownRows]
    simp only [List.filter_append, hnone, List.append_nil]
  have hnew : balances.filter (fun b => owned c db b.accountId) = [] := by
    refine List.filter_eq_nil_iff.mpr fun b hb => ?_
    rw [Bool.not_eq_true]
    refine owned_eq_false fun hold => ?_
    obtain ⟨a, ha, hid⟩ := List.mem_map.mp hold
    rw [Keyed, List.map_append] at hkeyed
    exact List.disjoint_of_nodup_append hkeyed (hid ▸ h.covered a ha) (List.mem_map_of_mem hb)
  simp only [ownRows, howned, List.filter_append, hnone, hnew, List.append_nil]

/-- An update of rows that the filter leaves out. -/
theorem filter_updateWhere {ρ : Type} {p q : ρ → Bool} {f : ρ → ρ} {rows : List ρ}
    (hf : ∀ r, q (f r) = q r) (h : ∀ r ∈ rows, p r = true → q r = false) :
    (updateWhere p f rows).filter q = rows.filter q := by
  induction rows with
  | nil => rfl
  | cons r rows ih =>
    have hrest := ih fun s hs => h s (List.mem_cons_of_mem r hs)
    rw [updateWhere, List.map_cons, ← updateWhere]
    by_cases hp : p r = true
    · have hq : q r = false := h r List.mem_cons_self hp
      rw [if_pos hp, List.filter_cons_of_neg (by simp [hf, hq]),
        List.filter_cons_of_neg (by simp [hq]), hrest]
    · rw [if_neg hp, List.filter_cons, List.filter_cons, hrest]

theorem ownRows_status {target : Uuid} {status : AccountStatus}
    (hforeign : owned c db target = false) :
    ownRows c { db with
      accounts := updateWhere
        (fun a => decide (a.accountId = target ∧ a.accountType = .current ∧ a.status ≠ .closed))
        (fun a => { a with status := status }) db.accounts } = ownRows c db := by
  have hother : ∀ a ∈ db.accounts, a.ownedBy c = true → a.accountId ≠ target := by
    intro a ha hown hid
    have hnone := List.any_eq_false.mp hforeign a ha
    simp [hown, hid] at hnone
  have hrows : (updateWhere
      (fun a => decide (a.accountId = target ∧ a.accountType = .current ∧ a.status ≠ .closed))
      (fun a => { a with status := status }) db.accounts).filter (BankAccount.ownedBy c) =
      db.accounts.filter (BankAccount.ownedBy c) := by
    refine filter_updateWhere (fun _ => rfl) fun a ha hp => ?_
    rw [← Bool.not_eq_true]
    exact fun hown => hother a ha hown (of_decide_eq_true hp).1
  have howned : ∀ id, owned c { db with
      accounts := updateWhere
        (fun a => decide (a.accountId = target ∧ a.accountType = .current ∧ a.status ≠ .closed))
        (fun a => { a with status := status }) db.accounts } id = owned c db id := by
    intro id
    rw [Bool.eq_iff_iff, owned_iff, owned_iff, ownRows, hrows]
    rfl
  simp only [ownRows, howned, hrows]

theorem ownRows_balance {a entry : Uuid} {delta : Int} {now : Instant}
    {rows : List AccountBalance} (hforeign : owned c db a = false) :
    (Db.postedBalances rows a delta entry now).filter (fun b => owned c db b.accountId) =
      rows.filter fun b => owned c db b.accountId := by
  refine filter_updateWhere (fun _ => rfl) fun b _ hb => ?_
  rw [of_decide_eq_true hb]
  exact hforeign

/-- A transfer between accounts of others changes nothing: a reversal is of a transfer between
the same accounts. -/
theorem ownRows_transferred {attempt : Attempt} {cmd : NormalisedCommand} (h : Recorded db)
    (ht : Transferred sca attempt cmd db db') (hs : owned c db cmd.sourceAccountId = false)
    (hd : owned c db cmd.destinationAccountId = false) : ownRows c db' = ownRows c db := by
  obtain ⟨_, _, -, -, -, -, -, -, hreversal, hp⟩ := ht
  have haccounts : db'.accounts = db.accounts := by rw [hp.accounts, challenged_accounts]
  have howned : owned c db' = owned c db := by
    funext id
    rw [owned, haccounts, owned]
  have hbalances : db'.balances.filter (fun b => owned c db b.accountId) =
      db.balances.filter fun b => owned c db b.accountId := by
    rw [hp.balances, challenged_balances, ownRows_balance hd, ownRows_balance hs]
  let touched := fun t : Transaction =>
    owned c db t.sourceAccountId || owned c db t.destinationAccountId
  have hnew : (db.transactions ++ [newTransaction attempt cmd]).filter touched =
      db.transactions.filter touched := by
    have hrow : touched (newTransaction attempt cmd) = false := by
      simp [touched, newTransaction, hs, hd]
    rw [List.filter_append, List.filter_cons_of_neg (by simp [hrow]), List.filter_nil,
      List.append_nil]
  have htransactions : db'.transactions.filter touched = db.transactions.filter touched := by
    rw [hp.transactions, challenged_transactions, ← hnew]
    cases ho : cmd.reversesTransactionId with
    | none => rfl
    | some id =>
      obtain ⟨original, hfound, hreversible⟩ := validateReversal_ok hreversal ho
      rw [Db.findTransaction, challenged_transactions] at hfound
      have hmirror : touched original = false := by
        simp only [reversible, Bool.and_eq_true, decide_eq_true_eq] at hreversible
        obtain ⟨⟨⟨⟨-, hsource⟩, hdestination⟩, -⟩, -⟩ := hreversible
        simp [touched, ← hsource, ← hdestination, hs, hd]
      have hforeign : ∀ t ∈ db.transactions ++ [newTransaction attempt cmd],
          t.transactionId = id → touched t = false := by
        intro t ht hid
        cases List.mem_append.mp ht with
        | inl hold =>
          rw [h.idsKeyed.eq_of_key hold (lookup_mem hfound) (hid.trans (lookup_key hfound).symm)]
          exact hmirror
        | inr hlast =>
          rw [List.mem_singleton.mp hlast]
          simp [touched, newTransaction, hs, hd]
      exact filter_updateWhere (fun t => rfl) fun t ht hid =>
        hforeign t ht (of_decide_eq_true hid)
  simp only [ownRows, howned, haccounts, hbalances]
  exact congrArg (OwnRows.mk _ _) htransactions

theorem createScaChallenge_keeps {draw : Draw} {principal : Principal} {code : String}
    {source destination : Uuid} {amountMinor : Int} : Keeps (ownRows c)
      (createScaChallenge sca draw principal code source destination amountMinor) := by
  intro db db' h
  simp only [createScaChallenge, bind_eq_ok] at h
  obtain ⟨_, -, ⟨required, mid⟩, hcreate, haudit⟩ := h
  have hlast : ownRows c db' = ownRows c mid := by
    split at haudit
    · rename_i last hinsert
      cases haudit
      exact Keeps.insertAudit (fun _ _ => rfl) _ mid db' hinsert
    · cases haudit
      rfl
  rw [hlast]
  unfold ScaService.create at hcreate
  split at hcreate
  · cases hcreate
  · split_ifs at hcreate
    · cases hcreate
      rfl
    · simp only [Db.insertChallenge, bind_eq_ok, pure, Except.pure, Except.ok.injEq,
        Prod.mk.injEq] at hcreate
      obtain ⟨_, ⟨_, -, _, -, _, -, _, -, _, -, rfl⟩, -, rfl⟩ := hcreate
      rfl

theorem createRiskAlert_keeps {draw : Draw} {threshold : Int}
    {transactionId source destination : Uuid} {amountMinor : Int} : Keeps (ownRows c)
      (createRiskAlert draw threshold transactionId source destination amountMinor) := by
  intro db db' h
  simp only [createRiskAlert] at h
  split_ifs at h
  · exact Except.ok.inj h ▸ rfl
  · exact Except.ok.inj h ▸ rfl
  · exact ((Keeps.insertRiskAlert (fun _ _ => rfl) _).bind
      ((Keeps.insertOutbox (fun _ _ => rfl) _).bind (Keeps.insertAudit (fun _ _ => rfl) _)))
      db db' h

theorem openAccount_rows {draw : Draw} {principal : Principal} {currency : String}
    (h : Projected db) (hforeign : principal.customerId ≠ some c)
    (hok : openAccount draw principal currency db = .ok db') : ownRows c db' = ownRows c db := by
  obtain ⟨_, -, hrest⟩ := bind_eq_ok.mp hok
  cases hcustomer : principal.customerId with
  | none => simp [hcustomer] at hrest
  | some customerId =>
    simp only [hcustomer] at hrest
    split_ifs at hrest
    split at hrest
    · cases hrest
    · split_ifs at hrest
      obtain ⟨d1, hopened, hlast⟩ := bind_eq_ok.mp hrest
      have hsame : ownRows c db' = ownRows c d1 :=
        ((Keeps.insertOutbox (fun _ _ => rfl) _).bind (Keeps.insertAudit (fun _ _ => rfl) _))
          d1 db' hlast
      rw [hsame]
      obtain ⟨mid, haccount, hbalance⟩ := bind_eq_ok.mp hopened
      obtain ⟨-, rfl⟩ := insertAccount_ok haccount
      obtain ⟨-, hfresh, rfl⟩ := insertBalance_ok hbalance
      refine ownRows_opened h (keyed_append_one.mpr ⟨h.balancesKeyed, hfresh⟩) fun a ha => ?_
      obtain rfl := List.mem_singleton.mp ha
      rw [hcustomer] at hforeign
      simpa [BankAccount.ownedBy] using hforeign

theorem seedRows_rows {now : Instant} (h : Projected db)
    (hforeign : c ≠ aliceCustomerId ∧ c ≠ bobCustomerId)
    (hok : seedRows now db = .ok db') : ownRows c db' = ownRows c db := by
  simp only [seedRows, bind_eq_ok] at hok
  obtain ⟨d1, h1, d2, h2, d3, h3, d4, h4, h5⟩ := hok
  let kept := fun db : Db => (db.accounts, db.balances, db.transactions, db.entries)
  have hthird : kept d3 = kept db :=
    (Keeps.grantBankAdminPermissions (fun _ _ => rfl) _ _ d2 d3 h3).trans
      ((Keeps.insertEach (Keeps.insertUser fun _ _ => rfl) _ d1 d2 h2).trans
        (Keeps.insertEach (Keeps.insertCustomer fun _ _ => rfl) _ db d1 h1))
  simp only [kept, Prod.mk.injEq] at hthird
  obtain ⟨haccounts, hbalances, htransactions, hentries⟩ := hthird
  have hprojected : Projected d3 := h.congr haccounts hbalances hentries
  obtain ⟨accounts, hsub, rfl, -⟩ := insertEach_accounts h4
  obtain ⟨balances, -, rfl, hkeyed, -⟩ := insertEach_balances h5
  have hothers : ∀ a ∈ accounts, a.ownedBy c = false := by
    intro a ha
    have hseed := hsub ha
    simp only [seedAccounts, List.mem_cons, List.not_mem_nil, or_false] at hseed
    rcases hseed with rfl | rfl | rfl
    · rfl
    · simpa [BankAccount.ownedBy] using Ne.symm hforeign.1
    · simpa [BankAccount.ownedBy] using Ne.symm hforeign.2
  rw [ownRows_opened hprojected (hkeyed hprojected.balancesKeyed) hothers]
  have howned : owned c d3 = owned c db := by
    funext id
    rw [owned, haccounts, owned]
  simp only [ownRows, howned, haccounts, hbalances, htransactions]

/-- The operation is on the account of the customer, or opens one. -/
def Operation.concerns (c : Uuid) (db : Db) : Operation → Bool
  | .openAccount _ principal _ => principal.customerId = some c
  | .operatorSetAccountStatus _ _ accountId _ _ => owned c db accountId
  | .seedRows _ => c = aliceCustomerId || c = bobCustomerId
  | _ => false

/-- Money of the customer moves, or an operation is on the customer's account. -/
def BankEvent.concerns (c : Uuid) (db : Db) : BankEvent → Bool
  | .operation o => o.concerns c db
  | .transfer _ command =>
    owned c db command.sourceAccountId || owned c db command.destinationAccountId

theorem Operation.rows {o : Operation} (h : Projected db) (hforeign : o.concerns c db = false)
    (hok : o.perform settings sca db = .ok db') : ownRows c db' = ownRows c db := by
  have audit : ∀ row, Keeps (ownRows c) (Db.insertAudit row) := Keeps.insertAudit fun _ _ => rfl
  have outbox : ∀ row, Keeps (ownRows c) (Db.insertOutbox row) := Keeps.insertOutbox fun _ _ => rfl
  have administrator : ∀ userId email, Keeps (ownRows c) (insertAdministrator userId email) :=
    Keeps.insertAdministrator fun _ _ => rfl
  cases o with
  | register draw email =>
    exact ((Keeps.insertCustomer (fun _ _ => rfl) _).bind
      ((Keeps.insertUser (fun _ _ => rfl) _).bind ((outbox _).bind (audit _)))) db db' hok
  | adminCreateUser draw principal email permissions =>
    have hkeeps : Keeps (ownRows c)
        (Bantam.adminCreateUser settings draw principal email permissions) :=
      Keeps.guarded fun _ => Keeps.guarded fun _ => (administrator _ _).bind
        ((Keeps.grantPermissions (fun _ _ => rfl) _ _).bind (audit _))
    exact hkeeps db db' hok
  | bootstrapBankAdmin draw email =>
    simp only [Operation.perform, Bantam.bootstrapBankAdmin] at hok
    split at hok
    · split at hok
      · cases hok
      · exact Keeps.grantBankAdminPermissions (fun _ _ => rfl) _ _ db db' hok
    · exact (administrator _ _).bind
        ((Keeps.grantBankAdminPermissions (fun _ _ => rfl) _ _).bind (audit _)) db db' hok
  | submitKyc draw principal =>
    obtain ⟨_, -, hrest⟩ := bind_eq_ok.mp hok
    cases hc : principal.customerId with
    | none => simp [hc] at hrest
    | some customerId =>
      rw [hc] at hrest
      exact (Keeps.updateKyc (fun _ _ => rfl) _ _ _ _).bind (audit _) db db' hrest
  | adminDecideKyc draw principal customerId approve reason =>
    have hkeeps : Keeps (ownRows c)
        (Bantam.adminDecideKyc settings draw principal customerId approve reason) :=
      Keeps.guarded fun _ => Keeps.guarded fun _ =>
        (Keeps.updateKyc (fun _ _ => rfl) _ _ _ _).bind ((outbox _).bind (audit _))
    exact hkeeps db db' hok
  | openAccount draw principal currency =>
    exact openAccount_rows h (of_decide_eq_false hforeign) hok
  | operatorSetAccountStatus draw principal accountId freeze reason =>
    obtain ⟨_, -, hrest⟩ := bind_eq_ok.mp hok
    obtain ⟨_, -, hrest⟩ := bind_eq_ok.mp hrest
    obtain ⟨mid, hupdate, hlast⟩ := bind_eq_ok.mp hrest
    obtain ⟨-, rfl⟩ := updateStatus_ok hupdate
    exact ((outbox _).bind (audit _) _ db' hlast).trans (ownRows_status hforeign)
  | createScaChallenge => exact createScaChallenge_keeps db db' hok
  | createRiskAlert => exact createRiskAlert_keeps db db' hok
  | seedRows now =>
    simp only [Operation.concerns, Bool.or_eq_false_iff, decide_eq_false_iff_not] at hforeign
    exact seedRows_rows h hforeign hok
  | recordAudit event => exact audit event db db' hok

theorem bankStep_rows {e : BankEvent} (h : Answerable db) (hforeign : e.concerns c db = false) :
    ownRows c (bankStep settings sca db e) = ownRows c db := by
  cases e with
  | operation o =>
    simp only [bankStep]
    split
    · rename_i db' hok
      exact Operation.rows h.projected hforeign hok
    · rfl
  | transfer attempt command =>
    cases createTransfer_cases sca attempt command db with
    | inl hrefused => rw [bankStep, hrefused.1]
    | inr hcommitted =>
      obtain ⟨cmd, db', hn, he, ht⟩ := hcommitted
      rw [bankStep, he]
      simp only [BankEvent.concerns, Bool.or_eq_false_iff] at hforeign
      obtain ⟨-, -, -, hs, hd, -⟩ := normalise_ok hn
      exact ownRows_transferred h.recorded ht (hs ▸ hforeign.1) (hd ▸ hforeign.2)

/-- What every write keeps and every transfer keeps, a step of the bank keeps. -/
theorem bank_keeps {I : Db → Prop}
    (write : ∀ {touched : List Uuid} {a b : Db}, Write touched a b → I a → I b)
    (transferred : ∀ {attempt : Attempt} {cmd : NormalisedCommand} {a b : Db},
      Transferred sca attempt cmd a b → I a → I b)
    (db : Db) (e : BankEvent) (h : I db) : I (bankStep settings sca db e) := by
  cases e with
  | operation o =>
    simp only [bankStep]
    split
    · rename_i hok
      exact (Operation.perform_writes hok).invariant write h
    · exact h
  | transfer attempt command =>
    cases createTransfer_cases sca attempt command db with
    | inl hrefused =>
      rw [bankStep, hrefused.1]
      exact h
    | inr hcommitted =>
      obtain ⟨cmd, db', -, he, ht⟩ := hcommitted
      rw [bankStep, he]
      exact transferred ht h

theorem Answerable.step (e : BankEvent) (h : Answerable db) : Answerable (bankStep settings sca db e) :=
  ⟨h.projected.step e, h.recorded.step e, bank_keeps .write .transferred db e h.accounted⟩

theorem answerable_run (settings : Settings) (sca : ScaService) (es : List BankEvent) :
    Answerable (Runs.run (bankStep settings sca) Db.migrated es) := by
  refine Runs.run_invariant (fun _ e h => h.step e)
    ⟨Projected.migrated, Recorded.migrated, keyed_nil, ?_⟩ es
  simp [Db.migrated]

/-- Whatever the bank does that is not on an account of the customer, the customer is answered as
before: nothing that others do shows. -/
theorem reads_isolated (settings : Settings) (sca : ScaService) (orders : ReadOrders)
    {principal : Principal} (hc : customerOf principal = .ok c) (es fs : List BankEvent)
    (hforeign : Runs.Along (bankStep settings sca) (fun db e => e.concerns c db = false)
      (Runs.run (bankStep settings sca) Db.migrated es) fs) (r : CustomerRead) :
    r.answer orders principal (Runs.run (bankStep settings sca) Db.migrated (es ++ fs)) =
      r.answer orders principal (Runs.run (bankStep settings sca) Db.migrated es) := by
  have hrows : ∀ (fs : List BankEvent) (db : Db), Answerable db →
      Runs.Along (bankStep settings sca) (fun db e => e.concerns c db = false) db fs →
      ownRows c (Runs.run (bankStep settings sca) db fs) = ownRows c db := by
    intro fs
    induction fs with
    | nil => exact fun _ _ _ => rfl
    | cons e fs ih =>
      intro db h hfs
      exact (ih _ (h.step e) hfs.2).trans (bankStep_rows h hfs.1)
  rw [Runs.run_append]
  refine answer_congr ?_ (answerable_run settings sca es)
    (hrows fs _ (answerable_run settings sca es) hforeign) hc orders r
  rw [← Runs.run_append]
  exact answerable_run settings sca (es ++ fs)

def sampleOrders : ReadOrders where
  accounts := .merging (fun _ _ _ => Int.le_trans) fun a b => Int.le_total a.openedAt b.openedAt
  transactions := .merging (fun _ _ _ hab hbc => Int.le_trans hbc hab)
    fun s t => Int.le_total t.createdAt s.createdAt

def sampleSeed : List BankEvent := seed 0 (sampleAttempt 1 0 0) (sampleAttempt 2 0 0)

/-- A deposit to the other customer's account. -/
def sampleElsewhere : List BankEvent :=
  [.transfer (sampleAttempt 3 5 5) (openingDeposit 3 "sample-elsewhere" bobAccountId 700)]

theorem reads_isolated_sample :
    CustomerRead.answer sampleOrders sampleCustomer
        (Runs.run (bankStep sampleSettings sampleSca) Db.migrated (sampleSeed ++ sampleElsewhere))
        (.account aliceAccountId) =
      CustomerRead.answer sampleOrders sampleCustomer
        (Runs.run (bankStep sampleSettings sampleSca) Db.migrated sampleSeed)
        (.account aliceAccountId) :=
  reads_isolated sampleSettings sampleSca sampleOrders
    (customerOf_ok.mpr ⟨rfl, rfl⟩) sampleSeed sampleElsewhere (by decide +kernel) _

end Changes

/-! Statements. -/

/-- What a row of a statement adds to the account. -/
def TransactionPayload.effect (id : Uuid) (row : TransactionPayload) : Int :=
  Book.delta row.sourceAccountId row.destinationAccountId row.amountMinor id

def Transaction.effect (id : Uuid) (t : Transaction) : Int :=
  Book.delta t.sourceAccountId t.destinationAccountId t.amountMinor id

/-- The entries of every account are what the transactions add to it. -/
def Stated (db : Db) : Prop :=
  ∀ id, authoritative db id = (db.transactions.map (Transaction.effect id)).sum

theorem Stated.migrated : Stated Db.migrated := fun _ => rfl

theorem Stated.write {touched : List Uuid} (w : Write touched db db') (h : Stated db) :
    Stated db' := by
  intro id
  rw [authoritative, w.entries, w.transactions]
  exact h id

theorem Stated.transferred {attempt : Attempt} {cmd : NormalisedCommand}
    (ht : Transferred sca attempt cmd db db') (h : Stated db) : Stated db' := by
  obtain ⟨_, _, -, -, -, -, -, -, -, hp⟩ := ht
  have hentries : authoritative (challenged sca attempt cmd db) = authoritative db := by
    funext id
    rw [authoritative, challenged_entries, authoritative]
  intro id
  rw [hp.authoritative, hentries, hp.transactions, challenged_transactions,
    Db.reversedTransactions_map _ fun _ => rfl, List.map_append, List.sum_append, ← h id]
  simp [Book.move, Transaction.effect, newTransaction]

theorem stated_run (settings : Settings) (sca : ScaService) (es : List BankEvent) :
    Stated (Runs.run (bankStep settings sca) Db.migrated es) :=
  Runs.run_invariant (bank_keeps .write .transferred) Stated.migrated es

theorem effect_untouched {id : Uuid} {t : Transaction} (h : t.touches id = false) :
    t.effect id = 0 := by
  simp only [Transaction.touches, Bool.or_eq_false_iff, decide_eq_false_iff_not] at h
  exact Book.delta_of_ne (Ne.symm h.1) (Ne.symm h.2)

theorem sum_touching (id : Uuid) (rows : List Transaction) :
    ((rows.filter (Transaction.touches id)).map (Transaction.effect id)).sum =
      (rows.map (Transaction.effect id)).sum := by
  induction rows with
  | nil => rfl
  | cons t rows ih =>
    by_cases ht : t.touches id = true
    · rw [List.filter_cons_of_pos ht, List.map_cons, List.map_cons, List.sum_cons, List.sum_cons, ih]
    · rw [List.filter_cons_of_neg ht, List.map_cons, List.sum_cons, ih,
        effect_untouched (by simpa using ht), zero_add]

section Reading
variable {principal : Principal} {c : Uuid}

theorem getAccount_ok (hc : customerOf principal = .ok c) {id : Uuid} {view : AccountView} :
    getAccount principal id db = .ok view ↔ ∃ a b, ownAccount c id db = some a ∧
      db.findBalance id = some b ∧ accountView a b = view := by
  simp only [getAccount, hc, bind, Except.bind]
  split
  · next a b ha hb => simp [ha, hb]
  · next hnone =>
    simp only [reduceCtorEq, false_iff]
    rintro ⟨a, b, ha, hb, -⟩
    exact hnone a b ha hb

theorem getAccount_view (h : Answerable db) (hc : customerOf principal = .ok c) {id : Uuid}
    {view : AccountView} (hview : getAccount principal id db = .ok view) :
    view.accountId = id ∧ view.customerId = some c ∧ view.balanceMinor = authoritative db id := by
  obtain ⟨a, b, ha, hb, rfl⟩ := (getAccount_ok hc).mp hview
  obtain ⟨hfound, hown⟩ := Option.filter_eq_some_iff.mp ha
  have hid : a.accountId = id := lookup_key hfound
  have hbalance := (h.projected.agree b (lookup_mem hb)).1
  rw [show b.accountId = id from lookup_key hb] at hbalance
  exact ⟨hid, of_decide_eq_true hown, hbalance⟩

theorem listAccounts_ok (h : Answerable db) (hc : customerOf principal = .ok c)
    (order : OldestFirst) : ∃ views, listAccounts order principal db = .ok views ∧
      views.Pairwise (fun a b => a.openedAt ≤ b.openedAt) ∧
      ∀ id view, getAccount principal id db = .ok view ↔ view ∈ views ∧ view.accountId = id := by
  let joined := (db.accounts.filter (BankAccount.ownedBy c)).filterMap fun a =>
    (db.findBalance a.accountId).map (accountView a)
  refine ⟨order.rows joined, ?_, order.sorted joined, fun id view => ?_⟩
  · rw [listAccounts, hc]
    rfl
  · rw [(order.perm joined).mem_iff, getAccount_ok hc]
    simp only [joined, List.mem_filterMap, List.mem_filter, Option.map_eq_some_iff]
    constructor
    · rintro ⟨a, b, ha, hb, rfl⟩
      obtain ⟨hfound, hown⟩ := Option.filter_eq_some_iff.mp ha
      have hid : a.accountId = id := lookup_key hfound
      exact ⟨⟨a, ⟨lookup_mem hfound, hown⟩, b, hid ▸ hb, rfl⟩, hid⟩
    · rintro ⟨⟨a, ⟨ha, hown⟩, b, hb, rfl⟩, hid⟩
      have hid : a.accountId = id := hid
      have hfound : db.findAccount id = some a :=
        (lookup_eq_some_iff h.projected.accountsKeyed).mpr ⟨ha, hid⟩
      exact ⟨a, b, Option.filter_eq_some_iff.mpr ⟨hfound, hown⟩, hid ▸ hb, rfl⟩

/-- Every account of the customer has a view. -/
theorem getAccount_owned (h : Answerable db) (hc : customerOf principal = .ok c) {id : Uuid} :
    (∃ view, getAccount principal id db = .ok view) ↔ owned c db id = true := by
  rw [← ownAccount_isSome h]
  constructor
  · rintro ⟨view, hview⟩
    obtain ⟨a, b, ha, -⟩ := (getAccount_ok hc).mp hview
    rw [ha, Option.isSome_some]
  · intro hsome
    obtain ⟨a, ha⟩ := Option.isSome_iff_exists.mp hsome
    have hfound := (Option.filter_eq_some_iff.mp ha).1
    have hcovered := h.projected.covered a (lookup_mem hfound)
    rw [show a.accountId = id from lookup_key hfound] at hcovered
    obtain ⟨b, hb⟩ := Option.isSome_iff_exists.mp (lookup_isSome_iff.mpr hcovered)
    exact ⟨accountView a b, (getAccount_ok hc).mpr ⟨a, b, ha, hb, rfl⟩⟩

theorem listAccountTransactions_ok (hc : customerOf principal = .ok c) (order : NewestFirst)
    {id : Uuid} (limit : Option Int) {rows : List TransactionPayload} :
    listAccountTransactions order principal id limit db = .ok rows ↔
      (ownAccount c id db).isSome = true ∧
      rows = ((order.rows (db.transactions.filter (Transaction.touches id))).take
        (queryLimit limit 50 100)).map transactionPayload := by
  simp only [listAccountTransactions, hc, bind, Except.bind]
  split
  · next hnone => simp [hnone]
  · next a ha => simp [ha, eq_comm]

theorem getTransfer_ok (h : Answerable db) (hc : customerOf principal = .ok c) {id : Uuid}
    {row : TransactionPayload} : getTransfer principal id db = .ok row ↔
      ∃ t ∈ db.transactions, t.transactionId = id ∧ row = transactionPayload t ∧
        ∃ own, owned c db own = true ∧ t.touches own = true := by
  have hfound : ∀ t, ownTransfer c id db = some t ↔ (t ∈ db.transactions ∧
      ∃ own, owned c db own = true ∧ t.touches own = true) ∧ t.transactionId = id := by
    intro t
    have hkeyed : Keyed Transaction.transactionId (ownRows c db).transactions :=
      List.Nodup.sublist (List.filter_sublist.map _) h.recorded.idsKeyed
    rw [ownTransfer_rows h, lookup_eq_some_iff hkeyed, ownRows, List.mem_filter]
    simp [Transaction.touches, and_or_left, exists_or]
  simp only [getTransfer, hc, bind, Except.bind]
  split
  · next hnone =>
    simp only [reduceCtorEq, false_iff]
    rintro ⟨t, ht, hid, -, hown⟩
    rw [(hfound t).mpr ⟨⟨ht, hown⟩, hid⟩] at hnone
    cases hnone
  · next t ht =>
    obtain ⟨⟨hmem, hown⟩, hid⟩ := (hfound t).mp ht
    rw [Except.ok.injEq]
    constructor
    · rintro rfl
      exact ⟨t, hmem, hid, rfl, hown⟩
    · rintro ⟨t', hmem', hid', rfl, -⟩
      rw [h.recorded.idsKeyed.eq_of_key hmem hmem' (hid.trans hid'.symm)]

theorem queryLimit_le (limit : Option Int) : queryLimit limit 50 100 ≤ 100 := by
  unfold queryLimit
  split
  · decide
  · split
    · decide
    · exact Nat.min_le_right _ _

end Reading

section Runs
variable (settings : Settings) (service : LedgerService)

/-- In every state that operations and concurrent calls reach, the balance that a customer is shown
is the sum of the statement of the account, as long as the statement is shown whole; it is shown
newest first, and holds nothing of other accounts. -/
theorem statement_reconciles (order : NewestFirst) (es : List CallEvent) {principal : Principal}
    {id : Uuid} {view : AccountView} (limit : Option Int)
    (hview : getAccount principal id (Runs.run (callStep settings service) Calls.initial es).db =
      .ok view) :
    ∃ rows, listAccountTransactions order principal id limit
        (Runs.run (callStep settings service) Calls.initial es).db = .ok rows ∧
      rows.length ≤ 100 ∧ rows.Pairwise (fun s t => t.createdAt ≤ s.createdAt) ∧
      (∀ row ∈ rows, row.sourceAccountId = id ∨ row.destinationAccountId = id) ∧
      (rows.length < queryLimit limit 50 100 →
        (rows.map (TransactionPayload.effect id)).sum = view.balanceMinor) := by
  generalize hrun : (Runs.run (callStep settings service) Calls.initial es).db = db at hview ⊢
  have h : Answerable db :=
    hrun ▸ Calls.run_of_serial (answerable_run settings service.sca) es
  have hstated : Stated db := hrun ▸ Calls.run_of_serial (stated_run settings service.sca) es
  obtain ⟨c, hc, -⟩ := bind_eq_ok.mp hview
  have hsome : (ownAccount c id db).isSome = true :=
    (ownAccount_isSome h).mpr ((getAccount_owned h hc).mp ⟨view, hview⟩)
  let touching := db.transactions.filter (Transaction.touches id)
  let shown := (order.rows touching).take (queryLimit limit 50 100)
  have hshown : ∀ t ∈ shown, t.touches id = true := by
    intro t ht
    have hmem := (order.perm touching).subset (List.mem_of_mem_take ht)
    exact (List.mem_filter.mp hmem).2
  refine ⟨shown.map transactionPayload,
    (listAccountTransactions_ok hc order limit).mpr ⟨hsome, rfl⟩, ?_, ?_, ?_, ?_⟩
  · rw [List.length_map]
    exact (List.length_take_le _ _).trans (queryLimit_le limit)
  · exact List.pairwise_map.mpr ((order.sorted touching).sublist (List.take_sublist _ _))
  · intro row hrow
    obtain ⟨t, ht, rfl⟩ := List.mem_map.mp hrow
    have htouch := hshown t ht
    simp only [Transaction.touches, Bool.or_eq_true, decide_eq_true_eq] at htouch
    exact htouch
  · intro hwhole
    have hall : shown = order.rows touching := by
      refine List.take_of_length_le ?_
      rw [List.length_map, List.length_take] at hwhole
      omega
    have hsum : (shown.map (Transaction.effect id)).sum = authoritative db id := by
      rw [hall, ((order.perm touching).map _).sum_eq, sum_touching, hstated id]
    rw [(getAccount_view h hc hview).2.2, ← hsum, List.map_map]
    rfl

theorem statement_reconciles_payment :
    ∃ rows, listAccountTransactions sampleOrders.transactions sampleCustomer aliceAccountId none
        (Runs.run (callStep sampleSettings sampleService) Calls.initial samplePayment).db =
          .ok rows ∧
      (rows.length < 50 → (rows.map (TransactionPayload.effect aliceAccountId)).sum = 5000) := by
  obtain ⟨view, hview, hbalance⟩ : ∃ view, getAccount sampleCustomer aliceAccountId
      (Runs.run (callStep sampleSettings sampleService) Calls.initial samplePayment).db =
        .ok view ∧ view.balanceMinor = 5000 :=
    ⟨⟨aliceAccountId, some aliceCustomerId, "XB-ALICE-001", .current, "GBP", .active, 5000, 0⟩,
      by decide +kernel, rfl⟩
  obtain ⟨rows, hrows, -, -, -, hsum⟩ := statement_reconciles sampleSettings sampleService
    sampleOrders.transactions samplePayment none hview
  exact ⟨rows, hrows, fun hwhole => (hsum hwhole).trans hbalance⟩

end Runs


end Bantam
