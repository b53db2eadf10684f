import Bantam.Bank
import Mathlib.Logic.Relation

/-! What the operations other than transfers can write. Every one of them is a sequence
of the writes below, so an invariant is checked against these writes and not against
the handlers. -/
namespace Bantam
open Tables

/-- The rows of newly opened accounts, each with its balance. -/
structure Opening (db : Db) (accounts : List BankAccount) (balances : List AccountBalance) :
    Prop where
  accountsKeyed : Keyed BankAccount.accountId db.accounts →
    Keyed BankAccount.accountId (db.accounts ++ accounts)
  balancesKeyed : Keyed AccountBalance.accountId db.balances →
    Keyed AccountBalance.accountId (db.balances ++ balances)
  covered : ∀ a ∈ accounts, a.accountId ∈ (db.balances ++ balances).map AccountBalance.accountId
  backed : ∀ b ∈ balances, b.accountId ∈ (db.accounts ++ accounts).map BankAccount.accountId
  empty : ∀ b ∈ balances, b.currentBalanceMinor = 0 ∧ b.availableBalanceMinor = 0
  treasury : ∀ a ∈ accounts, a.accountType = .system → a.accountId = treasuryAccountId ∧
    a.currency = "GBP" ∧ a.status = .active

/-- `touched` lists the accounts whose status may change. -/
inductive Write (touched : List Uuid) (db : Db) : Db → Prop where
  | customer (row : Customer) (fresh : row.customerId ∉ db.customers.map Customer.customerId) :
      Write touched db { db with customers := db.customers ++ [row] }
  | kyc (target : Uuid) (allowed : List KycStatus) (next : KycStatus)
      (absorbing : KycStatus.verified ∉ allowed) :
      Write touched db { db with
        customers := updateWhere (fun c => c.customerId = target ∧ c.kycStatus ∈ allowed)
          (fun c => { c with kycStatus := next }) db.customers }
  | user (row : UserAccount) (fresh : row.userId ∉ db.users.map UserAccount.userId) :
      Write touched db { db with users := db.users ++ [row] }
  | permission (row : AdminPermission) :
      Write touched db { db with permissions := db.permissions ++ [row] }
  | opened (accounts : List BankAccount) (balances : List AccountBalance)
      (opening : Opening db accounts balances) :
      Write touched db { db with
        accounts := db.accounts ++ accounts, balances := db.balances ++ balances }
  | status (target : Uuid) (status : AccountStatus) (mem : target ∈ touched) :
      Write touched db { db with
        accounts := updateWhere
          (fun a => a.accountId = target ∧ a.accountType = .current ∧ a.status ≠ .closed)
          (fun a => { a with status := status }) db.accounts }
  | challenge (row : ScaChallenge) (pending : row.status = .pending)
      (fresh : row.challengeId ∉ db.challenges.map ScaChallenge.challengeId) :
      Write touched db { db with challenges := db.challenges ++ [row] }
  | outbox (id : Uuid) (aggregateType : String) (aggregateId : Uuid) (eventType : String)
      (payload : JsonObject) (now : Instant) (other : aggregateType ≠ "transaction")
      (fresh : id ∉ db.outbox.map OutboxRow.outboxEventId) :
      Write touched db { db with
        outbox := db.outbox ++
          [OutboxRow.inserted id aggregateType aggregateId eventType payload now] }
  | audit (row : AuditEvent) : Write touched db { db with audit := db.audit ++ [row] }
  | riskAlert (row : RiskAlert) : Write touched db { db with riskAlerts := db.riskAlerts ++ [row] }

/-- A sequence of writes. -/
abbrev Writes (touched : List Uuid) : Db → Db → Prop := Relation.ReflTransGen (Write touched)

theorem Writes.invariant {touched : List Uuid} {I : Db → Prop}
    (keep : ∀ {a b}, Write touched a b → I a → I b) {db db' : Db} (h : Writes touched db db')
    (hi : I db) : I db' := by
  induction h with
  | refl => exact hi
  | tail _ hw ih => exact keep hw ih

section Statements
variable {touched : List Uuid} {db db' : Db}

theorem Write.of_insertCustomer {row : Customer} (h : db.insertCustomer row = .ok db') :
    Write touched db db' := by
  simp only [Db.insertCustomer, bind_eq_ok, require_eq_ok, pure, Except.pure,
    Except.ok.injEq] at h
  obtain ⟨_, hid, _, -, rfl⟩ := h
  exact .customer row hid

theorem Write.of_insertUser {row : UserAccount} (h : db.insertUser row = .ok db') :
    Write touched db db' := by
  simp only [Db.insertUser, bind_eq_ok, require_eq_ok, pure, Except.pure, Except.ok.injEq] at h
  obtain ⟨_, hid, _, -, _, -, _, -, rfl⟩ := h
  exact .user row hid

theorem Write.of_insertPermission {row : AdminPermission}
    (h : db.insertPermission row = .ok db') : Write touched db db' := by
  simp only [Db.insertPermission, bind_eq_ok, require_eq_ok, pure, Except.pure,
    Except.ok.injEq] at h
  obtain ⟨_, -, _, -, rfl⟩ := h
  exact .permission row

theorem Write.of_insertOutbox {id : Uuid} {aggregateType : String} {aggregateId : Uuid}
    {eventType : String} {payload : JsonObject} {now : Instant}
    (other : aggregateType ≠ "transaction")
    (h : db.insertOutbox
      (OutboxRow.inserted id aggregateType aggregateId eventType payload now) = .ok db') :
    Write touched db db' := by
  obtain ⟨hid, rfl⟩ := Db.insertOutbox_ok.mp h
  exact .outbox id aggregateType aggregateId eventType payload now other hid

theorem Write.of_insertAudit {row : AuditEvent} (h : db.insertAudit row = .ok db') :
    Write touched db db' := by
  obtain ⟨-, rfl⟩ := Db.insertAudit_ok.mp h
  exact .audit row

theorem Write.of_insertRiskAlert {row : RiskAlert} (h : db.insertRiskAlert row = .ok db') :
    Write touched db db' := by
  simp only [Db.insertRiskAlert, bind_eq_ok, require_eq_ok, pure, Except.pure,
    Except.ok.injEq] at h
  obtain ⟨_, -, _, -, _, -, rfl⟩ := h
  exact .riskAlert row

theorem Write.of_insertChallenge {row : ScaChallenge} (hp : row.status = .pending)
    (h : db.insertChallenge row = .ok db') : Write touched db db' := by
  simp only [Db.insertChallenge, bind_eq_ok, require_eq_ok, pure, Except.pure,
    Except.ok.injEq] at h
  obtain ⟨_, -, _, hid, _, -, _, -, _, -, rfl⟩ := h
  exact .challenge row hp hid

theorem Write.of_updateKyc {target : Uuid} {allowed : List KycStatus} {next : KycStatus}
    {message : String} (absorbing : KycStatus.verified ∉ allowed)
    (h : updateKyc target allowed next message db = .ok db') : Write touched db db' := by
  unfold updateKyc at h
  simp only at h
  split at h
  · cases h
    exact .kyc target allowed next absorbing
  · cases h

theorem Write.of_updateStatus {target : Uuid} {status : AccountStatus} (mem : target ∈ touched)
    (h : updateStatus target status db = .ok db') : Write touched db db' := by
  unfold updateStatus at h
  simp only at h
  split at h
  · cases h
    exact .status target status mem
  · cases h

theorem onConflictDoNothing_ok {insert : Db → Except Failure Db}
    (h : Db.onConflictDoNothing insert db = .ok db') :
    insert db = .ok db' ∨ (insert db = .error (.database .uniqueViolation) ∧ db' = db) := by
  unfold Db.onConflictDoNothing at h
  split at h
  · rename_i hi
    cases h
    exact .inr ⟨hi, rfl⟩
  · exact .inl h

theorem insertEach_writes {ρ : Type} {insert : ρ → Db → Except Failure Db}
    (single : ∀ {row db db'}, insert row db = .ok db' → Write touched db db') {rows : List ρ}
    (h : insertEach insert rows db = .ok db') : Writes touched db db' := by
  induction rows generalizing db with
  | nil =>
    cases h
    exact .refl
  | cons row rows ih =>
    simp only [insertEach, bind_eq_ok] at h
    obtain ⟨mid, hm, ht⟩ := h
    cases onConflictDoNothing_ok hm with
    | inl hi => exact .head (single hi) (ih ht)
    | inr hconflict =>
      obtain ⟨-, rfl⟩ := hconflict
      exact ih ht

theorem grantPermissions_writes {userId : Uuid} {scopes : List AdminScope}
    (h : grantPermissions userId scopes db = .ok db') : Writes touched db db' := by
  induction scopes generalizing db with
  | nil =>
    cases h
    exact .refl
  | cons scope scopes ih =>
    simp only [grantPermissions, bind_eq_ok] at h
    obtain ⟨mid, hm, ht⟩ := h
    exact .head (Write.of_insertPermission hm) (ih ht)

theorem grantBankAdminPermissions_writes {userId : Uuid} {scopes : List AdminScope}
    (h : grantBankAdminPermissions userId scopes db = .ok db') : Writes touched db db' := by
  induction scopes generalizing db with
  | nil =>
    cases h
    exact .refl
  | cons scope scopes ih =>
    simp only [grantBankAdminPermissions, bind_eq_ok] at h
    obtain ⟨mid, hm, ht⟩ := h
    cases onConflictDoNothing_ok hm with
    | inl hi => exact .head (Write.of_insertPermission hi) (ih ht)
    | inr hconflict =>
      obtain ⟨-, rfl⟩ := hconflict
      exact ih ht

theorem insertAccount_ok {row : BankAccount} (h : db.insertAccount row = .ok db') :
    row.accountId ∉ db.accounts.map BankAccount.accountId ∧
    db' = { db with accounts := db.accounts ++ [row] } := by
  simp only [Db.insertAccount, bind_eq_ok, require_eq_ok, pure, Except.pure,
    Except.ok.injEq] at h
  obtain ⟨_, hid, _, -, _, -, rfl⟩ := h
  exact ⟨hid, rfl⟩

theorem insertBalance_ok {row : AccountBalance} (h : db.insertBalance row = .ok db') :
    row.accountId ∈ db.accounts.map BankAccount.accountId ∧
    row.accountId ∉ db.balances.map AccountBalance.accountId ∧
    db' = { db with balances := db.balances ++ [row] } := by
  simp only [Db.insertBalance, bind_eq_ok, require_eq_ok, Db.rejectNegativeCustomerBalance_ok,
    pure, Except.pure, Except.ok.injEq] at h
  obtain ⟨_, ⟨a, ha, -⟩, _, hid, rfl⟩ := h
  exact ⟨key_mem_of_lookup ha, hid, rfl⟩

/-- A uniqueness failure of a balance row means that the account has a balance. -/
theorem insertBalance_unique {row : AccountBalance}
    (h : db.insertBalance row = .error (.database .uniqueViolation)) :
    row.accountId ∈ db.balances.map AccountBalance.accountId := by
  by_contra hn
  unfold Db.insertBalance Db.rejectNegativeCustomerBalance at h
  cases ha : db.findAccount row.accountId with
  | none => simp [ha, bind, Except.bind] at h
  | some a =>
    simp only [ha, Db.require, bind, Except.bind, hn, not_false_eq_true, if_true] at h
    split_ifs at h <;> cases h

theorem insertEach_accounts {rows : List BankAccount}
    (h : insertEach Db.insertAccount rows db = .ok db') :
    ∃ added, added ⊆ rows ∧ db' = { db with accounts := db.accounts ++ added } ∧
      (Keyed BankAccount.accountId db.accounts →
        Keyed BankAccount.accountId (db.accounts ++ added)) := by
  induction rows generalizing db with
  | nil =>
    cases h
    exact ⟨[], by simp, by simp, by simp⟩
  | cons row rows ih =>
    simp only [insertEach, bind_eq_ok] at h
    obtain ⟨mid, hm, ht⟩ := h
    cases onConflictDoNothing_ok hm with
    | inl hi =>
      obtain ⟨hfresh, rfl⟩ := insertAccount_ok hi
      obtain ⟨added, hsub, rfl, hkey⟩ := ih ht
      refine ⟨row :: added, List.cons_subset_cons row hsub, by simp, fun hk => ?_⟩
      have := hkey (keyed_append_one.mpr ⟨hk, hfresh⟩)
      simpa using this
    | inr hconflict =>
      obtain ⟨-, rfl⟩ := hconflict
      obtain ⟨added, hsub, he, hkey⟩ := ih ht
      exact ⟨added, fun a ha => List.mem_cons_of_mem row (hsub ha), he, hkey⟩

theorem insertEach_balances {rows : List AccountBalance}
    (h : insertEach Db.insertBalance rows db = .ok db') :
    ∃ added, added ⊆ rows ∧ db' = { db with balances := db.balances ++ added } ∧
      (Keyed AccountBalance.accountId db.balances →
        Keyed AccountBalance.accountId (db.balances ++ added)) ∧
      (∀ b ∈ added, b.accountId ∈ db.accounts.map BankAccount.accountId) ∧
      ∀ b ∈ rows, b.accountId ∈ (db.balances ++ added).map AccountBalance.accountId := by
  induction rows generalizing db with
  | nil =>
    cases h
    exact ⟨[], by simp, by simp, by simp, by simp, by simp⟩
  | cons row rows ih =>
    simp only [insertEach, bind_eq_ok] at h
    obtain ⟨mid, hm, ht⟩ := h
    cases onConflictDoNothing_ok hm with
    | inl hi =>
      obtain ⟨hback, hfresh, rfl⟩ := insertBalance_ok hi
      obtain ⟨added, hsub, rfl, hkey, hbacked, hcov⟩ := ih ht
      refine ⟨row :: added, List.cons_subset_cons row hsub, by simp, ?_, ?_, ?_⟩
      · intro hk
        have := hkey (keyed_append_one.mpr ⟨hk, hfresh⟩)
        simpa using this
      · rintro b (_ | ⟨_, hb⟩)
        · exact hback
        · exact hbacked b hb
      · rintro b (_ | ⟨_, hb⟩)
        · simp
        · simpa using hcov b hb
    | inr hconflict =>
      obtain ⟨hu, rfl⟩ := hconflict
      obtain ⟨added, hsub, he, hkey, hbacked, hcov⟩ := ih ht
      refine ⟨added, fun b hb => List.mem_cons_of_mem row (hsub hb), he, hkey, hbacked, ?_⟩
      rintro b (_ | ⟨_, hb⟩)
      · have := insertBalance_unique hu
        rw [List.map_append]
        exact List.mem_append_left _ this
      · exact hcov b hb

theorem Write.of_insertOpened {account : BankAccount} {databaseNow : Instant}
    (hcurrent : account.accountType = .current)
    (h : insertOpened account databaseNow db = .ok db') : Write touched db db' := by
  simp only [insertOpened, bind_eq_ok] at h
  obtain ⟨mid, ha, hb⟩ := h
  obtain ⟨hfresh, rfl⟩ := insertAccount_ok ha
  obtain ⟨hback, hfresh', rfl⟩ := insertBalance_ok hb
  refine .opened [account] [_] ⟨?_, ?_, ?_, ?_, ?_, ?_⟩
  · exact fun hk => keyed_append_one.mpr ⟨hk, hfresh⟩
  · exact fun hk => keyed_append_one.mpr ⟨hk, hfresh'⟩
  · simp
  · simp
  · simp
  · simp [hcurrent]
end Statements

/-- The account whose status the operation sets. -/
def Operation.touched : Operation → List Uuid
  | .operatorSetAccountStatus _ _ accountId _ _ => [accountId]
  | _ => []

section Operations
variable {touched : List Uuid} {settings : Settings} {sca : ScaService} {db db' : Db}

theorem seedRows_writes {now : Instant} (h : seedRows now db = .ok db') :
    Writes touched db db' := by
  simp only [seedRows, bind_eq_ok] at h
  obtain ⟨d1, h1, d2, h2, d3, h3, d4, h4, h5⟩ := h
  have w1 : Writes touched db d1 := insertEach_writes Write.of_insertCustomer h1
  have w2 : Writes touched d1 d2 := insertEach_writes Write.of_insertUser h2
  have w3 : Writes touched d2 d3 := grantBankAdminPermissions_writes h3
  obtain ⟨accounts, hsub, rfl, hak⟩ := insertEach_accounts h4
  obtain ⟨balances, hsub', rfl, hbk, hback, hcov⟩ := insertEach_balances h5
  refine (w1.trans (w2.trans w3)).tail (.opened accounts balances ⟨hak, hbk, ?_, hback, ?_, ?_⟩)
  · -- every account of the seed has a balance of the seed
    intro a ha
    have hs : a ∈ seedAccounts now := hsub ha
    refine (fun hm => ?_) (hcov (emptyBalance now a.accountId))
    refine hm ?_
    simp only [seedAccounts, List.mem_cons, List.not_mem_nil, or_false] at hs
    rcases hs with rfl | rfl | rfl <;> simp [seedBalances]
  · intro b hb
    have hs := hsub' hb
    simp only [seedBalances, List.map_cons, List.map_nil, List.mem_cons, List.not_mem_nil,
      or_false] at hs
    rcases hs with rfl | rfl | rfl <;> exact ⟨rfl, rfl⟩
  · intro a ha ht
    have hs := hsub ha
    simp only [seedAccounts, List.mem_cons, List.not_mem_nil, or_false] at hs
    rcases hs with rfl | rfl | rfl
    · exact ⟨rfl, rfl, rfl⟩
    · cases ht
    · cases ht

theorem register_writes {draw : Draw} {email : String} (h : register draw email db = .ok db') :
    Writes touched db db' := by
  simp only [register, bind_eq_ok] at h
  obtain ⟨d1, h1, d2, h2, d3, h3, h4⟩ := h
  exact (((Relation.ReflTransGen.single (Write.of_insertCustomer h1)).tail
    (.of_insertUser h2)).tail (.of_insertOutbox (by decide) h3)).tail (.of_insertAudit h4)

theorem adminCreateUser_writes {draw : Draw} {principal : Principal} {email : String}
    {permissions : List AdminScope}
    (h : adminCreateUser settings draw principal email permissions db = .ok db') :
    Writes touched db db' := by
  simp only [adminCreateUser, bind_eq_ok] at h
  obtain ⟨_, -, _, -, d1, h1, d2, h2, h3⟩ := h
  exact (Relation.ReflTransGen.head (Write.of_insertUser h1)
    (grantPermissions_writes h2)).tail (.of_insertAudit h3)

theorem bootstrapBankAdmin_writes {draw : Draw} {email : String}
    (h : bootstrapBankAdmin draw email db = .ok db') : Writes touched db db' := by
  unfold bootstrapBankAdmin at h
  split at h
  · split at h
    · cases h
    · exact grantBankAdminPermissions_writes h
  · simp only [bind_eq_ok] at h
    obtain ⟨d1, h1, d2, h2, h3⟩ := h
    exact (Relation.ReflTransGen.head (Write.of_insertUser h1)
      (grantBankAdminPermissions_writes h2)).tail (.of_insertAudit h3)

theorem submitKyc_writes {draw : Draw} {principal : Principal}
    (h : submitKyc draw principal db = .ok db') : Writes touched db db' := by
  simp only [submitKyc, bind_eq_ok] at h
  obtain ⟨_, -, h⟩ := h
  split at h
  · cases h
  · simp only [bind_eq_ok] at h
    obtain ⟨d1, h1, h2⟩ := h
    exact (Relation.ReflTransGen.single (Write.of_updateKyc (by decide) h1)).tail
      (.of_insertAudit h2)

theorem adminDecideKyc_writes {draw : Draw} {principal : Principal} {customerId : Uuid}
    {approve : Bool} {reason : String}
    (h : adminDecideKyc settings draw principal customerId approve reason db = .ok db') :
    Writes touched db db' := by
  simp only [adminDecideKyc, bind_eq_ok] at h
  obtain ⟨_, -, _, -, d1, h1, d2, h2, h3⟩ := h
  exact ((Relation.ReflTransGen.single (Write.of_updateKyc (by decide) h1)).tail
    (.of_insertOutbox (by decide) h2)).tail (.of_insertAudit h3)

theorem openAccount_writes {draw : Draw} {principal : Principal} {currency : String}
    (h : openAccount draw principal currency db = .ok db') : Writes touched db db' := by
  simp only [openAccount, bind_eq_ok] at h
  obtain ⟨_, -, h⟩ := h
  split at h
  · cases h
  · split at h
    · cases h
    · split at h
      · cases h
      · split at h
        · cases h
        · simp only [bind_eq_ok] at h
          obtain ⟨d1, h1, d2, h2, h3⟩ := h
          exact ((Relation.ReflTransGen.single (Write.of_insertOpened rfl h1)).tail
            (.of_insertOutbox (by decide) h2)).tail (.of_insertAudit h3)

theorem operatorSetAccountStatus_writes {draw : Draw} {principal : Principal} {accountId : Uuid}
    {freeze : Bool} {reason : String}
    (h : operatorSetAccountStatus settings draw principal accountId freeze reason db = .ok db') :
    Writes [accountId] db db' := by
  simp only [operatorSetAccountStatus, bind_eq_ok] at h
  obtain ⟨_, -, _, -, d1, h1, d2, h2, h3⟩ := h
  exact ((Relation.ReflTransGen.single (Write.of_updateStatus (by simp) h1)).tail
    (.of_insertOutbox (by decide) h2)).tail (.of_insertAudit h3)

theorem create_writes {now : Instant} {challengeId : Uuid} {code : String} {principal : Principal}
    {source destination : Uuid} {amountMinor : Int} {required : Bool}
    (h : sca.create now challengeId code principal source destination amountMinor db =
      .ok (required, db')) : Writes touched db db' := by
  unfold ScaService.create at h
  split at h
  · cases h
  · split_ifs at h
    · cases h
      exact .refl
    · simp only [bind_eq_ok, pure, Except.pure, Except.ok.injEq, Prod.mk.injEq] at h
      obtain ⟨d, hi, -, rfl⟩ := h
      exact .single (.of_insertChallenge rfl hi)

theorem createScaChallenge_writes {draw : Draw} {principal : Principal} {code : String}
    {source destination : Uuid} {amountMinor : Int}
    (h : createScaChallenge sca draw principal code source destination amountMinor db =
      .ok db') : Writes touched db db' := by
  simp only [createScaChallenge, bind_eq_ok] at h
  obtain ⟨_, -, ⟨required, d1⟩, h1, h2⟩ := h
  have w : Writes touched db d1 := create_writes h1
  split at h2
  · rename_i d2 ha
    cases h2
    exact w.tail (.of_insertAudit ha)
  · cases h2
    exact w

theorem createRiskAlert_writes {draw : Draw} {threshold : Int}
    {transactionId source destination : Uuid} {amountMinor : Int}
    (h : createRiskAlert draw threshold transactionId source destination amountMinor db =
      .ok db') : Writes touched db db' := by
  unfold createRiskAlert at h
  split at h
  · cases h
    exact .refl
  · simp only at h
    split at h
    · cases h
      exact .refl
    · simp only [bind_eq_ok] at h
      obtain ⟨d1, h1, d2, h2, h3⟩ := h
      exact ((Relation.ReflTransGen.single (Write.of_insertRiskAlert h1)).tail
        (.of_insertOutbox (by decide) h2)).tail (.of_insertAudit h3)

theorem Operation.perform_writes {o : Operation} (h : o.perform settings sca db = .ok db') :
    Writes o.touched db db' := by
  cases o with
  | register => exact register_writes h
  | adminCreateUser => exact adminCreateUser_writes h
  | bootstrapBankAdmin => exact bootstrapBankAdmin_writes h
  | submitKyc => exact submitKyc_writes h
  | adminDecideKyc => exact adminDecideKyc_writes h
  | openAccount => exact openAccount_writes h
  | operatorSetAccountStatus => exact operatorSetAccountStatus_writes h
  | createScaChallenge => exact createScaChallenge_writes h
  | createRiskAlert => exact createRiskAlert_writes h
  | seedRows => exact seedRows_writes h
  | recordAudit => exact .single (.of_insertAudit h)
end Operations
end Bantam
