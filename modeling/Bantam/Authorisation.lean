import Bantam.Challenges
import Bantam.Commits

/-! Authorisation at commit: what a transfer has checked of its accounts and of its actor is
true when it commits, and nothing is posted to an account between its freeze and its release. -/
namespace Bantam
open Tables
variable {settings : Settings} {service : LedgerService} {s : Calls} {db db' : Db}

/-- The account is active and in pounds. -/
def Payable (db : Db) (id : Uuid) : Prop :=
  ∃ a, db.findAccount id = some a ∧ a.status = .active ∧ a.currency = "GBP"

/-- The actor is the verified customer who owns the account. -/
def OwnedBy (db : Db) (actor : Principal) (id : Uuid) : Prop :=
  ∃ customerId a customer, actor.customerId = some customerId ∧
    db.findAccount id = some a ∧ a.customerId = some customerId ∧
    db.findCustomer customerId = some customer ∧ customer.kycStatus = .verified

/-- What the database said of the accounts and the actor when the transfer committed; the
commit itself changes neither table. -/
structure Commit.Authorised (c : Commit) : Prop where
  source : Payable c.before c.call.cmd.sourceAccountId
  destination : Payable c.before c.call.cmd.destinationAccountId
  actor : c.call.cmd.operatorOverride = false →
    OwnedBy c.before c.call.cmd.actor c.call.cmd.sourceAccountId
  accounts : c.after.accounts = c.before.accounts
  customers : c.after.customers = c.before.customers

section Guards
variable {cmd : NormalisedCommand} {source destination : LockedAccount}

theorem checkAccounts_ok (h : checkAccounts cmd source destination = .ok ()) :
    (source.status = .active ∧ destination.status = .active) ∧
    (source.currency = cmd.currency ∧ destination.currency = cmd.currency) := by
  unfold checkAccounts at h
  split_ifs at h with hstatus hcurrency
  simp only [not_or, not_not] at hstatus hcurrency
  exact ⟨hstatus, hcurrency⟩

theorem payable_of_locked {id : Uuid} {l : LockedAccount} (h : lockedAccount db id = some l)
    (hs : l.status = .active) (hc : l.currency = "GBP") : Payable db id := by
  obtain ⟨a, b, ha, -, he⟩ := lockedAccount_some h
  rw [he] at hs hc
  exact ⟨a, ha, hs, hc⟩

theorem ownedBy_of_checked (hl : lockedAccount db cmd.sourceAccountId = some source)
    (h : checkActor cmd source db = .ok ()) (ho : cmd.operatorOverride = false) :
    OwnedBy db cmd.actor cmd.sourceAccountId := by
  obtain ⟨a, b, ha, -, he⟩ := lockedAccount_some hl
  have hcustomer : source.customerId = a.customerId := by rw [he]
  simp only [checkActor, ho, Bool.false_eq_true, if_false, bind_eq_ok, checkOwner,
    checkKyc] at h
  obtain ⟨_, howner, hkyc⟩ := h
  split_ifs at howner with hdenied
  split_ifs at hkyc with hverified
  simp only [not_or, not_not] at hdenied
  obtain ⟨hactor, -, hsame⟩ := hdenied
  obtain ⟨customerId, hid⟩ := Option.ne_none_iff_exists'.mp hactor
  unfold kycVerified at hverified
  rw [hid, Option.bind_some] at hverified
  cases hc : db.findCustomer customerId with
  | none => simp [hc] at hverified
  | some customer =>
    exact ⟨customerId, a, customer, hid, ha, by rw [← hcustomer, ← hsame, hid], hc,
      by simpa [hc] using hverified⟩
end Guards

theorem Commit.authorised {c : Commit}
    (h : Transferred service.sca c.call.attempt c.call.cmd c.before c.after) : c.Authorised := by
  obtain ⟨source, destination, -, hl, haccounts, hactor, -, -, -, hp⟩ := h
  obtain ⟨hsource, hdestination⟩ := lockAccounts_ok hl
  obtain ⟨⟨h1, h2⟩, h3, h4⟩ := checkAccounts_ok haccounts
  exact {
    source := payable_of_locked hsource h1 (h3.trans c.call.cmd.gbp)
    destination := payable_of_locked hdestination h2 (h4.trans c.call.cmd.gbp)
    actor := ownedBy_of_checked hsource hactor
    accounts := hp.accounts.trans (challenged_accounts ..)
    customers := hp.customers.trans (challenged_customers ..) }

/-- The entries on an account, in their order. -/
def entriesOn (db : Db) (accountId : Uuid) : List LedgerEntry :=
  db.entries.filter fun e => e.accountId = accountId

/-- The step commits a freeze of the account, or its release. -/
def Calls.SetsStatus (settings : Settings) (service : LedgerService) (accountId : Uuid)
    (freeze : Bool) (s : Calls) (e : CallEvent) : Prop :=
  ∃ draw principal reason db,
    e = .operation (.operatorSetAccountStatus draw principal accountId freeze reason) ∧
    s.available service (.operatorSetAccountStatus draw principal accountId freeze reason) = true ∧
    operatorSetAccountStatus settings draw principal accountId freeze reason s.db = .ok db

def Frozen (db : Db) (accountId : Uuid) : Prop :=
  ∃ a, db.findAccount accountId = some a ∧ a.status = .frozen

section Freezes
variable {accountId : Uuid}

/-- What a freeze or a release does to the accounts, and the row that it reached. -/
theorem operatorSetAccountStatus_accounts {draw : Draw} {principal : Principal} {freeze : Bool}
    {reason : String}
    (h : operatorSetAccountStatus settings draw principal accountId freeze reason db = .ok db') :
    (∃ a ∈ db.accounts, a.accountId = accountId ∧ a.accountType = .current ∧
      a.status ≠ .closed) ∧
    db'.accounts = updateWhere
      (fun a => a.accountId = accountId ∧ a.accountType = .current ∧ a.status ≠ .closed)
      (fun a => { a with status := if freeze then .frozen else .active }) db.accounts := by
  simp only [operatorSetAccountStatus, bind_eq_ok] at h
  obtain ⟨_, -, _, -, mid, hstatus, last, houtbox, haudit⟩ := h
  have hlast : db'.accounts = mid.accounts :=
    ((Keeps.insertAudit (g := Db.accounts) (fun _ _ => rfl) _) last db' haudit).trans
      ((Keeps.insertOutbox (g := Db.accounts) (fun _ _ => rfl) _) mid last houtbox)
  unfold updateStatus at hstatus
  simp only at hstatus
  split at hstatus
  · rename_i hany
    cases hstatus
    obtain ⟨a, ha, hp⟩ := List.any_eq_true.mp hany
    exact ⟨⟨a, ha, by simpa using hp⟩, hlast⟩
  · cases hstatus

theorem Frozen.of_freeze {draw : Draw} {principal : Principal} {reason : String}
    (hk : Keyed BankAccount.accountId db.accounts)
    (h : operatorSetAccountStatus settings draw principal accountId true reason db = .ok db') :
    Frozen db' accountId := by
  obtain ⟨⟨a, ha, hid, htype, hopen⟩, hrows⟩ := operatorSetAccountStatus_accounts h
  have hkey : ∀ a : BankAccount, { a with status := .frozen }.accountId = a.accountId :=
    fun _ => rfl
  have hfound : lookup BankAccount.accountId accountId db.accounts = some a :=
    (lookup_eq_some_iff hk).mpr ⟨ha, hid⟩
  refine ⟨{ a with status := .frozen }, ?_, rfl⟩
  rw [Db.findAccount, hrows]
  simp only [if_true]
  rw [lookup_updateWhere hkey, hfound]
  simp [hid, htype, hopen]

/-- An account stays frozen until a release of it commits. -/
theorem Frozen.perform {o : Operation} (h : Frozen db accountId)
    (hp : o.perform settings service.sca db = .ok db')
    (hno : ∀ draw principal reason,
      o ≠ .operatorSetAccountStatus draw principal accountId false reason) :
    Frozen db' accountId := by
  obtain ⟨a, ha, hs⟩ := h
  by_cases ht : accountId ∈ o.touched
  · cases o with
    | operatorSetAccountStatus draw principal target freeze reason =>
      obtain rfl := List.mem_singleton.mp ht
      obtain ⟨-, hrows⟩ := operatorSetAccountStatus_accounts hp
      cases freeze with
      | false => exact absurd rfl (hno draw principal reason)
      | true =>
        have hkey : ∀ a : BankAccount, { a with status := .frozen }.accountId = a.accountId :=
          fun _ => rfl
        rw [Frozen, Db.findAccount, hrows]
        simp only [if_true]
        rw [lookup_updateWhere hkey]
        simp only [Db.findAccount] at ha
        rw [ha, Option.map_some]
        refine ⟨_, rfl, ?_⟩
        split_ifs
        · rfl
        · exact hs
    | _ => cases ht
  · have hkept : db'.findAccount accountId = some a :=
      (Operation.perform_writes hp).invariant (I := fun db => db.findAccount accountId = some a)
        (fun w hf => Frame.findAccount_write w ht hf) ha
    exact ⟨a, hkept, hs⟩

/-- A transfer that commits has neither of its accounts frozen. -/
theorem Commit.Authorised.not_frozen {c : Commit} (h : c.Authorised)
    (hf : Frozen c.before accountId) :
    accountId ≠ c.call.cmd.sourceAccountId ∧ accountId ≠ c.call.cmd.destinationAccountId := by
  obtain ⟨a, ha, hs⟩ := hf
  have active : ∀ id, Payable c.before id → accountId ≠ id := by
    intro id hp he
    obtain ⟨b, hb, hactive, -⟩ := hp
    rw [← he, ha] at hb
    rw [← Option.some.inj hb, hs] at hactive
    cases hactive
  exact ⟨active _ h.source, active _ h.destination⟩

/-- While an account is frozen no step adds to its entries. -/
theorem Frozen.step (hsound : s.Sound service) (h : Frozen s.db accountId) {e : CallEvent}
    (hno : ¬ s.SetsStatus settings service accountId false e) :
    Frozen (callStep settings service s e).db accountId ∧
    entriesOn (callStep settings service s e).db accountId = entriesOn s.db accountId := by
  rcases Calls.commit?_cases settings hsound e with
    ⟨c, -, hb, -, hdb, ht⟩ | ⟨-, o, db, he, ha, hp, hdb⟩ | ⟨-, hdb⟩
  · have hauthorised := Commit.authorised ht
    rw [← hb] at h
    obtain ⟨hs, hd⟩ := hauthorised.not_frozen h
    obtain ⟨-, hentries⟩ := Committed.transferred_tables ht
    rw [hdb]
    constructor
    · rw [Frozen, Db.findAccount, hauthorised.accounts]
      exact h
    · rw [entriesOn, hentries, hb]
      simp [entriesOn, debitEntry, creditEntry, Ne.symm hs, Ne.symm hd]
  · rw [hdb]
    refine ⟨h.perform hp fun draw principal reason ho => hno ?_, ?_⟩
    · subst ho
      exact ⟨draw, principal, reason, db, he, ha, hp⟩
    · rw [entriesOn, (Operation.perform_writes hp).entries, entriesOn]
  · rw [hdb]
    exact ⟨h, rfl⟩

theorem Frozen.run (hsound : s.Sound service) (h : Frozen s.db accountId) {es : List CallEvent}
    (hno : Runs.Along (callStep settings service)
      (fun s e => ¬ s.SetsStatus settings service accountId false e) s es) :
    entriesOn (Runs.run (callStep settings service) s es).db accountId =
      entriesOn s.db accountId := by
  induction es generalizing s with
  | nil => rfl
  | cons e es ih =>
    obtain ⟨hfrozen, hsame⟩ := h.step hsound hno.1
    exact (ih (hsound.step s e) hfrozen hno.2).trans hsame
end Freezes

/-- The history and the entries are those of the committed transfers, each of them was
authorised when it committed, and an account takes no entry from its freeze to its release. -/
theorem authorised_at_commit (settings : Settings) (service : LedgerService)
    (es : List CallEvent) :
    let run := Runs.run (callStep settings service) Calls.initial
    let log := commits settings service es
    ((run es).db.transactions.map Transaction.transactionId =
        log.map (fun c => c.call.attempt.transactionId) ∧
      (run es).db.entries = log.flatMap Commit.entries) ∧
    (∀ c ∈ log, c.Authorised ∧ ∃ earlier e later, es = earlier ++ e :: later ∧
      c.before = (run earlier).db ∧ c.after = (run (earlier ++ [e])).db) ∧
    ∀ accountId earlier e later, es = earlier ++ e :: later →
      (run earlier).SetsStatus settings service accountId true e →
      Runs.Along (callStep settings service)
        (fun s e => ¬ s.SetsStatus settings service accountId false e)
        (run (earlier ++ [e])) later →
      entriesOn (run es).db accountId = entriesOn (run earlier).db accountId := by
  intro run log
  have hcommitted := committed_run settings service es
  refine ⟨⟨hcommitted.rows, hcommitted.entries⟩, ?_, ?_⟩
  · intro c hc
    refine ⟨Commit.authorised (hcommitted.transferred c hc), ?_⟩
    obtain ⟨earlier, e, later, he, hcommit⟩ := Runs.mem_collect hc
    rcases Calls.commit?_cases settings (Calls.sound_run settings service earlier) e with
      ⟨d, hd, hb, -, hdb, -⟩ | ⟨hnone, -⟩ | ⟨hnone, -⟩
    · obtain rfl := Option.some.inj (hd.symm.trans hcommit)
      exact ⟨earlier, e, later, he, hb, by simp only [run, Runs.run_snoc, hdb]⟩
    · rw [hcommit] at hnone
      cases hnone
    · rw [hcommit] at hnone
      cases hnone
  · intro accountId earlier e later he hfreeze hno
    have hsound : ∀ es, (run es).Sound service := Calls.sound_run settings service
    have hprojected : Projected (run earlier).db :=
      Calls.run_of_serial (projected_reachable settings service.sca) earlier
    obtain ⟨draw, principal, reason, db, hf, ha, hp⟩ := hfreeze
    have hdb : (run (earlier ++ [e])).db = db := by
      simp only [run, Runs.run_snoc, hf, callStep, ha, if_true, bankStep, Operation.perform, hp]
    have hentries : entriesOn db accountId = entriesOn (run earlier).db accountId := by
      rw [entriesOn, (operatorSetAccountStatus_writes hp).entries, entriesOn]
    have hrun : run es = Runs.run (callStep settings service) (run (earlier ++ [e])) later := by
      rw [he, List.append_cons]
      exact Runs.run_append _ _ _ _
    have hfrozen := Frozen.of_freeze hprojected.accountsKeyed hp
    rw [hrun, Frozen.run (hsound _) (hdb ▸ hfrozen) hno, hdb, hentries]
end Bantam
