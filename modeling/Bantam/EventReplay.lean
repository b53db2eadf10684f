import Bantam.Projection
import Bantam.Workers

/-! What the events of the outbox tell. A consumer that hears every row once, in the order of the
table, knows the owners and statuses of the accounts, their balances and who is verified. -/
namespace Bantam
open Tables

/-- What a consumer of the events knows of the bank. -/
structure BankView where
  kyc : Uuid → Option KycStatus
  opened : Uuid → Option (Uuid × String)
  status : Uuid → AccountStatus
  balance : Uuid → Int

def BankView.empty : BankView := ⟨fun _ => none, fun _ => none, fun _ => .active, fun _ => 0⟩

/-- The texts that the events have for a decision on a customer. -/
def toldKyc (text : String) : Option KycStatus :=
  if text = "PENDING_KYC" then some .pending
  else if text = "KYC_VERIFIED" then some .verified
  else if text = "KYC_REJECTED" then some .rejected
  else none

def toldStatus (text : String) : Option AccountStatus :=
  if text = "ACTIVE" then some .active else if text = "FROZEN" then some .frozen else none

/-- The text under a key of a payload. -/
def payloadText (payload : JsonObject) (key : String) : Option String :=
  match payload.lookup key with
  | some (.str text) => some text
  | _ => none

namespace BankView

def hearCustomer (v : BankView) (row : OutboxRow) : BankView :=
  match payloadUuid row.payload "customer_id",
    (payloadText row.payload "kyc_status").bind toldKyc with
  | some customerId, some status => { v with kyc := Function.update v.kyc customerId (some status) }
  | _, _ => v

def hearOpening (v : BankView) (row : OutboxRow) : BankView :=
  match payloadUuid row.payload "account_id", payloadUuid row.payload "customer_id",
    payloadText row.payload "currency" with
  | some accountId, some customerId, some currency =>
    { v with opened := Function.update v.opened accountId (some (customerId, currency)) }
  | _, _, _ => v

def hearStatus (v : BankView) (row : OutboxRow) : BankView :=
  match payloadUuid row.payload "account_id",
    (payloadText row.payload "status").bind toldStatus with
  | some accountId, some status => { v with status := Function.update v.status accountId status }
  | _, _ => v

def hearTransfer (v : BankView) (row : OutboxRow) : BankView :=
  match decodeTransfer row with
  | some m =>
    { v with balance :=
        Book.move v.balance m.sourceAccountId m.destinationAccountId m.amountMinor }
  | none => v

def hear (v : BankView) (row : OutboxRow) : BankView :=
  if row.eventType = transferSubject then v.hearTransfer row
  else if row.eventType ∈
      ["customer.created.v1", "customer.kyc_verified.v1", "customer.kyc_rejected.v1"] then
    v.hearCustomer row
  else if row.eventType = "account.opened.v1" then v.hearOpening row
  else if row.eventType ∈ ["account.frozen.v1", "account.unfrozen.v1"] then v.hearStatus row
  else v

def replay (rows : List OutboxRow) : BankView := rows.foldl hear empty

end BankView

/-- A submission of a customer is not announced, so the last event may be a step behind it. -/
def KycStatus.ToldAs (status told : KycStatus) : Prop :=
  match told with
  | .pending => status = .pending ∨ status = .review
  | .rejected => status = .rejected ∨ status = .review
  | .verified => status = .verified
  | .review => False

/-- What no event has told of was seeded. -/
def Customer.ToldAs (c : Customer) : Option KycStatus → Prop
  | some told => c.kycStatus.ToldAs told
  | none => c.customerId ∈ [aliceCustomerId, bobCustomerId] ∧ c.kycStatus = .verified

def BankAccount.ToldAs (a : BankAccount) : Option (Uuid × String) → Prop
  | some (customerId, currency) => a.customerId = some customerId ∧ a.currency = currency
  | none => a.accountId ∈ [treasuryAccountId, aliceAccountId, bobAccountId]

/-- The view is the bank's: each balance, each status, each owner, and who is verified. -/
structure BankView.Tells (v : BankView) (db : Db) : Prop where
  balance : ∀ id, v.balance id = authoritative db id
  status : ∀ a ∈ db.accounts, v.status a.accountId = a.status
  owner : ∀ a ∈ db.accounts, a.ToldAs (v.opened a.accountId)
  customer : ∀ c ∈ db.customers, c.ToldAs (v.kyc c.customerId)
  unopened : ∀ id, id ∉ db.accounts.map BankAccount.accountId →
    v.status id = .active ∧ v.opened id = none
  unknown : ∀ id, id ∉ db.customers.map Customer.customerId → v.kyc id = none

namespace BankView
variable {v : BankView} {id rowId aggregateId : Uuid} {aggregateType eventType text : String}
  {now : Instant}

theorem replay_append (rows : List OutboxRow) (row : OutboxRow) :
    replay (rows ++ [row]) = (replay rows).hear row := by
  rw [replay, List.foldl_append, List.foldl_cons, List.foldl_nil, ← replay]

/-- What a row tells depends on its type and its payload alone. -/
theorem replay_map (rows : List OutboxRow) :
    replay rows = (rows.map fun row v => hear v row).foldl (fun v f => f v) empty := by
  rw [List.foldl_map, replay]

theorem hear_customer (status : KycStatus) (htext : toldKyc text = some status)
    (htype : eventType ∈
      ["customer.created.v1", "customer.kyc_verified.v1", "customer.kyc_rejected.v1"]) :
    v.hear (OutboxRow.inserted rowId aggregateType aggregateId eventType
      [("customer_id", .str (Uuid.str id)), ("kyc_status", .str text)] now) =
      { v with kyc := Function.update v.kyc id (some status) } := by
  have hother : eventType ≠ transferSubject := by
    rintro rfl
    revert htype
    decide
  have hid : payloadUuid [("customer_id", .str (Uuid.str id)), ("kyc_status", .str text)]
      "customer_id" = some id := by
    simp [payloadUuid, Uuid.parse_str]
  have hstatus : payloadText [("customer_id", .str (Uuid.str id)), ("kyc_status", .str text)]
      "kyc_status" = some text := by
    simp [payloadText, List.lookup_cons]
  simp only [hear, OutboxRow.inserted, if_neg hother, if_pos htype, hearCustomer, hid, hstatus,
    Option.bind_some, htext]

theorem hear_status (status : AccountStatus) {reason : String}
    (htext : toldStatus text = some status)
    (htype : eventType ∈ ["account.frozen.v1", "account.unfrozen.v1"]) :
    v.hear (OutboxRow.inserted rowId aggregateType aggregateId eventType
      [("account_id", .str (Uuid.str id)), ("status", .str text), ("reason", .str reason)] now) =
      { v with status := Function.update v.status id status } := by
  have hother : eventType ≠ transferSubject ∧ eventType ≠ "account.opened.v1" ∧ eventType ∉
      ["customer.created.v1", "customer.kyc_verified.v1", "customer.kyc_rejected.v1"] := by
    simp only [List.mem_cons, List.not_mem_nil, or_false] at htype
    rcases htype with rfl | rfl <;> decide
  have hid : payloadUuid [("account_id", .str (Uuid.str id)), ("status", .str text),
      ("reason", .str reason)] "account_id" = some id := by
    simp [payloadUuid, Uuid.parse_str]
  have hstatus : payloadText [("account_id", .str (Uuid.str id)), ("status", .str text),
      ("reason", .str reason)] "status" = some text := by
    simp [payloadText, List.lookup_cons]
  simp only [hear, OutboxRow.inserted, if_neg hother.1, if_neg hother.2.1, if_neg hother.2.2,
    if_pos htype, hearStatus, hid, hstatus, Option.bind_some, htext]

theorem hear_opening {customerId : Uuid} :
    v.hear (OutboxRow.inserted rowId aggregateType aggregateId "account.opened.v1"
      [("account_id", .str (Uuid.str id)), ("customer_id", .str (Uuid.str customerId)),
        ("currency", .str text)] now) =
      { v with opened := Function.update v.opened id (some (customerId, text)) } := by
  simp [hear, OutboxRow.inserted, transferSubject, hearOpening, payloadUuid, payloadText,
    List.lookup_cons, Uuid.parse_str]

theorem hear_transfer (attempt : Attempt) (cmd : NormalisedCommand) :
    v.hear (transferEvent attempt cmd) =
      { v with
        balance :=
          Book.move v.balance cmd.sourceAccountId cmd.destinationAccountId cmd.amountMinor } := by
  have hheard : (transferEvent attempt cmd).eventType = transferSubject := rfl
  simp only [hear, if_pos hheard, hearTransfer, decodeTransfer_transferEvent]
  rfl

/-- An alert tells nothing of the accounts. -/
theorem hear_flagged {payload : JsonObject} :
    v.hear (OutboxRow.inserted rowId aggregateType aggregateId "risk.transaction_flagged.v1"
      payload now) = v := by
  simp [hear, OutboxRow.inserted, transferSubject]

end BankView

/-- What the view is compared with, and the rows it comes from. -/
def told (db : Db) : List Customer × List BankAccount × List LedgerEntry × List OutboxRow :=
  (db.customers, db.accounts, db.entries, db.outbox)

/-- The view from the outbox of the database tells what is in its tables. -/
def Retold (db : Db) : Prop := (BankView.replay db.outbox).Tells db

section Steps
variable {settings : Settings} {sca : ScaService} {db db' : Db} {v : BankView}

theorem BankView.Tells.congr (h : v.Tells db) (hc : db'.customers = db.customers)
    (ha : db'.accounts = db.accounts) (he : db'.entries = db.entries) : v.Tells db' := by
  refine ⟨?_, ?_, ?_, ?_, ?_, ?_⟩
  · simp only [authoritative, he]
    exact h.balance
  · rw [ha]
    exact h.status
  · rw [ha]
    exact h.owner
  · rw [hc]
    exact h.customer
  · rw [ha]
    exact h.unopened
  · rw [hc]
    exact h.unknown

theorem Retold.congr (h : Retold db) (ht : told db' = told db) : Retold db' := by
  simp only [told, Prod.mk.injEq] at ht
  obtain ⟨hc, ha, he, ho⟩ := ht
  unfold Retold
  rw [ho]
  exact BankView.Tells.congr h hc ha he

theorem Retold.migrated : Retold Db.migrated := by
  refine ⟨fun _ => rfl, ?_, ?_, ?_, fun _ _ => ⟨rfl, rfl⟩, fun _ _ => rfl⟩ <;>
    exact fun _ hmem => absurd hmem List.not_mem_nil

theorem kyc_ids (p : Customer → Bool) (next : KycStatus) (rows : List Customer) :
    (updateWhere p (fun c => { c with kycStatus := next }) rows).map Customer.customerId =
      rows.map Customer.customerId :=
  map_updateWhere _ _ _ fun _ => rfl

namespace BankView.Tells

theorem addCustomer (h : v.Tells db) (row : Customer) (told : Option KycStatus)
    (fresh : row.customerId ∉ db.customers.map Customer.customerId) (hrow : row.ToldAs told) :
    BankView.Tells { v with kyc := Function.update v.kyc row.customerId told }
      { db with customers := db.customers ++ [row] } := by
  refine ⟨h.balance, h.status, h.owner, ?_, h.unopened, ?_⟩
  · intro c hc
    cases List.mem_append.mp hc with
    | inl hold =>
      have hne : c.customerId ≠ row.customerId :=
        fun he => fresh (he ▸ List.mem_map_of_mem hold)
      simpa [Function.update_of_ne hne] using h.customer c hold
    | inr hnew =>
      rw [List.mem_singleton.mp hnew]
      simpa using hrow
  · intro id hid
    rw [List.map_append, List.mem_append, not_or] at hid
    have hne : id ≠ row.customerId := fun he => hid.2 (by simp [he])
    simpa [Function.update_of_ne hne] using h.unknown id hid.1

theorem addAccount (h : v.Tells db) (row : BankAccount) (told : Option (Uuid × String))
    (fresh : row.accountId ∉ db.accounts.map BankAccount.accountId) (hrow : row.ToldAs told)
    (hactive : row.status = .active) :
    BankView.Tells { v with opened := Function.update v.opened row.accountId told }
      { db with accounts := db.accounts ++ [row] } := by
  refine ⟨h.balance, ?_, ?_, h.customer, ?_, h.unknown⟩
  · intro a ha
    cases List.mem_append.mp ha with
    | inl hold => exact h.status a hold
    | inr hnew =>
      rw [List.mem_singleton.mp hnew, hactive]
      exact (h.unopened row.accountId fresh).1
  · intro a ha
    cases List.mem_append.mp ha with
    | inl hold =>
      have hne : a.accountId ≠ row.accountId :=
        fun he => fresh (he ▸ List.mem_map_of_mem hold)
      simpa [Function.update_of_ne hne] using h.owner a hold
    | inr hnew =>
      rw [List.mem_singleton.mp hnew]
      simpa using hrow
  · intro id hid
    rw [List.map_append, List.mem_append, not_or] at hid
    have hne : id ≠ row.accountId := fun he => hid.2 (by simp [he])
    simpa [Function.update_of_ne hne] using h.unopened id hid.1

/-- A seeded row is one that no event tells of. -/
theorem seedCustomer (h : v.Tells db) {row : Customer} (hrow : row ∈ seedCustomers)
    (fresh : row.customerId ∉ db.customers.map Customer.customerId) :
    v.Tells { db with customers := db.customers ++ [row] } := by
  have hseed : row.ToldAs none := by
    simp only [seedCustomers, List.mem_cons, List.not_mem_nil, or_false] at hrow
    rcases hrow with rfl | rfl <;> simp [Customer.ToldAs]
  have hadd := h.addCustomer row none fresh hseed
  rwa [← h.unknown _ fresh, Function.update_eq_self] at hadd

theorem seedAccount (h : v.Tells db) {now : Instant} {row : BankAccount}
    (hrow : row ∈ seedAccounts now)
    (fresh : row.accountId ∉ db.accounts.map BankAccount.accountId) :
    v.Tells { db with accounts := db.accounts ++ [row] } := by
  have hseed : row.ToldAs none ∧ row.status = .active := by
    simp only [seedAccounts, List.mem_cons, List.not_mem_nil, or_false] at hrow
    rcases hrow with rfl | rfl | rfl <;> simp [BankAccount.ToldAs]
  have hadd := h.addAccount row none fresh hseed.1 hseed.2
  rwa [← (h.unopened _ fresh).2, Function.update_eq_self] at hadd

/-- The rows of a new account, which the event of its opening tells of. -/
theorem insertOpened (h : v.Tells db) {row : BankAccount} {now : Instant} {customerId : Uuid}
    (hopened : Bantam.insertOpened row now db = .ok db') (hactive : row.status = .active)
    (howner : row.customerId = some customerId) :
    BankView.Tells
      { v with
        opened := Function.update v.opened row.accountId (some (customerId, row.currency)) }
      db' := by
  obtain ⟨mid, haccount, hbalance⟩ := bind_eq_ok.mp hopened
  obtain ⟨fresh, rfl⟩ := insertAccount_ok haccount
  obtain ⟨-, -, rfl⟩ := insertBalance_ok hbalance
  have howned : row.ToldAs (some (customerId, row.currency)) := ⟨howner, rfl⟩
  exact (h.addAccount row _ fresh howned hactive).congr rfl rfl rfl

/-- A submission moves a customer to the review that every earlier event leaves open. -/
theorem submitted (h : v.Tells db) (target : Uuid) :
    v.Tells { db with
      customers := updateWhere
        (fun c => decide (c.customerId = target ∧ c.kycStatus ∈ [.pending, .rejected]))
        (fun c => { c with kycStatus := .review }) db.customers } := by
  refine ⟨h.balance, h.status, h.owner, ?_, h.unopened, ?_⟩
  · refine forall_updateWhere (fun c hc _ => h.customer c hc) fun c hc htarget => ?_
    have hopen : c.kycStatus = .pending ∨ c.kycStatus = .rejected := by
      simpa using (of_decide_eq_true htarget).2
    have htold := h.customer c hc
    cases hv : v.kyc c.customerId with
    | none =>
      rw [hv] at htold
      rcases hopen with hs | hs <;> simp [Customer.ToldAs, hs] at htold
    | some told =>
      rw [hv] at htold
      simp only [Customer.ToldAs] at htold ⊢
      cases told with
      | pending => exact .inr rfl
      | rejected => exact .inr rfl
      | verified => rcases hopen with hs | hs <;> simp [KycStatus.ToldAs, hs] at htold
      | review => exact htold.elim
  · intro id hunknown
    rw [kyc_ids] at hunknown
    exact h.unknown id hunknown

/-- A decision is told as it is made. -/
theorem decided (h : v.Tells db) (keyed : Keyed Customer.customerId db.customers) {target : Uuid}
    {next : KycStatus} (hnext : next = .verified ∨ next = .rejected)
    (hany : db.customers.any
      (fun c => decide (c.customerId = target ∧ c.kycStatus ∈ [.review])) = true) :
    BankView.Tells { v with kyc := Function.update v.kyc target (some next) }
      { db with
        customers := updateWhere
          (fun c => decide (c.customerId = target ∧ c.kycStatus ∈ [.review]))
          (fun c => { c with kycStatus := next }) db.customers } := by
  obtain ⟨found, hmem, hfound⟩ := List.any_eq_true.mp hany
  obtain ⟨hid, hreview⟩ := of_decide_eq_true hfound
  refine ⟨h.balance, h.status, h.owner, ?_, h.unopened, ?_⟩
  · refine forall_updateWhere (fun c hc hnot => ?_) fun c hc htarget => ?_
    · have hne : c.customerId ≠ target := by
        intro he
        have hsame : c = found := keyed.eq_of_key hc hmem (he.trans hid.symm)
        exact (of_decide_eq_false hnot) ⟨he, hsame ▸ hreview⟩
      simpa [Function.update_of_ne hne] using h.customer c hc
    · simp only [(of_decide_eq_true htarget).1, Function.update_self, Customer.ToldAs]
      rcases hnext with rfl | rfl <;> simp [KycStatus.ToldAs]
  · intro id hunknown
    rw [kyc_ids] at hunknown
    have hne : id ≠ target := by
      rintro rfl
      exact hunknown (hid ▸ List.mem_map_of_mem hmem)
    simpa [Function.update_of_ne hne] using h.unknown id hunknown

/-- A freeze and a release are told as they are made. -/
theorem statusSet (h : v.Tells db) (keyed : Keyed BankAccount.accountId db.accounts)
    {target : Uuid} {status : AccountStatus}
    (hany : db.accounts.any (fun a => decide (a.accountId = target ∧ a.accountType = .current ∧
      a.status ≠ .closed)) = true) :
    BankView.Tells { v with status := Function.update v.status target status }
      { db with
        accounts := updateWhere
          (fun a => decide (a.accountId = target ∧ a.accountType = .current ∧ a.status ≠ .closed))
          (fun a => { a with status := status }) db.accounts } := by
  obtain ⟨found, hmem, hfound⟩ := List.any_eq_true.mp hany
  obtain ⟨hid, hopen⟩ := of_decide_eq_true hfound
  refine ⟨h.balance, ?_, ?_, h.customer, ?_, h.unknown⟩
  · refine forall_updateWhere (fun a ha hnot => ?_) fun a ha htarget => ?_
    · have hne : a.accountId ≠ target := by
        intro he
        have hsame : a = found := keyed.eq_of_key ha hmem (he.trans hid.symm)
        exact (of_decide_eq_false hnot) ⟨he, hsame ▸ hopen⟩
      simpa [Function.update_of_ne hne] using h.status a ha
    · simp [(of_decide_eq_true htarget).1]
  · exact forall_updateWhere (fun a ha _ => h.owner a ha) fun a ha _ => h.owner a ha
  · intro id hunopened
    rw [status_ids] at hunopened
    have hne : id ≠ target := by
      rintro rfl
      exact hunopened (hid ▸ List.mem_map_of_mem hmem)
    simpa [Function.update_of_ne hne] using h.unopened id hunopened

/-- The entries of a transfer and its event move the two books alike. -/
theorem posted (h : v.Tells db) {attempt : Attempt} {cmd : NormalisedCommand}
    (hp : Posted attempt cmd db db') :
    BankView.Tells (v.hear (transferEvent attempt cmd)) db' := by
  have hkeep : BankView.Tells v { db' with entries := db.entries } :=
    h.congr hp.customers hp.accounts rfl
  rw [BankView.hear_transfer]
  refine ⟨fun id => ?_, hkeep.status, hkeep.owner, hkeep.customer, hkeep.unopened,
    hkeep.unknown⟩
  have hbook : v.balance = authoritative db := funext h.balance
  rw [hp.authoritative, hbook]

end BankView.Tells
/-- The last writes of a handler, its event and its audit record. -/
theorem told_announced {mid : Db} {row : OutboxRow} {event : AuditEvent}
    (h : (mid.insertOutbox row >>= fun db => db.insertAudit event) = .ok db') :
    told db' = (mid.customers, mid.accounts, mid.entries, mid.outbox ++ [row]) := by
  obtain ⟨d, houtbox, haudit⟩ := bind_eq_ok.mp h
  obtain ⟨-, rfl⟩ := Db.insertOutbox_ok.mp houtbox
  obtain ⟨-, rfl⟩ := Db.insertAudit_ok.mp haudit
  rfl

/-- A view of some tables that has heard the new row is the view of the database with both. -/
theorem Retold.of_told {mid : Db} {row : OutboxRow}
    (h : ((BankView.replay db.outbox).hear row).Tells mid)
    (ht : told db' = (mid.customers, mid.accounts, mid.entries, db.outbox ++ [row])) :
    Retold db' := by
  simp only [told, Prod.mk.injEq] at ht
  obtain ⟨hc, ha, he, ho⟩ := ht
  unfold Retold
  rw [ho, BankView.replay_append]
  exact h.congr hc ha he

theorem insertOpened_outbox {row : BankAccount} {now : Instant}
    (h : insertOpened row now db = .ok db') : db'.outbox = db.outbox := by
  obtain ⟨mid, haccount, hbalance⟩ := bind_eq_ok.mp h
  rw [(insertBalance_ok hbalance).2.2, (insertAccount_ok haccount).2]

theorem insertCustomer_ok {row : Customer} (h : db.insertCustomer row = .ok db') :
    row.customerId ∉ db.customers.map Customer.customerId ∧
    db' = { db with customers := db.customers ++ [row] } := by
  simp only [Db.insertCustomer, bind_eq_ok, require_eq_ok, pure, Except.pure,
    Except.ok.injEq] at h
  obtain ⟨_, hid, _, -, rfl⟩ := h
  exact ⟨hid, rfl⟩

theorem updateKyc_ok {target : Uuid} {allowed : List KycStatus} {next : KycStatus}
    {message : String} (h : updateKyc target allowed next message db = .ok db') :
    db.customers.any (fun c => decide (c.customerId = target ∧ c.kycStatus ∈ allowed)) = true ∧
    db' = { db with
      customers := updateWhere (fun c => decide (c.customerId = target ∧ c.kycStatus ∈ allowed))
        (fun c => { c with kycStatus := next }) db.customers } := by
  unfold updateKyc at h
  simp only at h
  split_ifs at h with hany
  exact ⟨hany, (Except.ok.inj h).symm⟩

theorem updateStatus_ok {target : Uuid} {status : AccountStatus}
    (h : updateStatus target status db = .ok db') :
    db.accounts.any (fun a => decide (a.accountId = target ∧ a.accountType = .current ∧
      a.status ≠ .closed)) = true ∧
    db' = { db with
      accounts := updateWhere
        (fun a => decide (a.accountId = target ∧ a.accountType = .current ∧ a.status ≠ .closed))
        (fun a => { a with status := status }) db.accounts } := by
  unfold updateStatus at h
  simp only at h
  split_ifs at h with hany
  exact ⟨hany, (Except.ok.inj h).symm⟩

theorem told_createScaChallenge {draw : Draw} {principal : Principal} {code : String}
    {source destination : Uuid} {amountMinor : Int}
    (h : createScaChallenge sca draw principal code source destination amountMinor db = .ok db') :
    told db' = told db := by
  simp only [createScaChallenge, bind_eq_ok] at h
  obtain ⟨_, -, ⟨required, mid⟩, hcreate, haudit⟩ := h
  have hlast : told db' = told mid := by
    split at haudit
    · rename_i last hinsert
      cases haudit
      exact Keeps.insertAudit (fun _ _ => rfl) _ mid db' hinsert
    · cases haudit
      rfl
  rw [hlast]
  unfold ScaService.create at hcreate
  split at hcreate
  · cases hcreate
  · split_ifs at hcreate
    · cases hcreate
      rfl
    · simp only [Db.insertChallenge, bind_eq_ok, pure, Except.pure, Except.ok.injEq,
        Prod.mk.injEq] at hcreate
      obtain ⟨_, ⟨_, -, _, -, _, -, _, -, _, -, rfl⟩, -, rfl⟩ := hcreate
      rfl

namespace Retold

theorem register {draw : Draw} {email : String} (h : Retold db)
    (hok : Bantam.register draw email db = .ok db') : Retold db' := by
  obtain ⟨d1, h1, hrest⟩ := bind_eq_ok.mp hok
  obtain ⟨fresh, rfl⟩ := insertCustomer_ok h1
  obtain ⟨d2, h2, hlast⟩ := bind_eq_ok.mp hrest
  have hsame : told d2 = told { db with customers := db.customers ++ [_] } :=
    Keeps.insertUser (fun _ _ => rfl) _ _ _ h2
  simp only [told, Prod.mk.injEq] at hsame
  obtain ⟨hc, ha, he, ho⟩ := hsame
  have htold := told_announced hlast
  rw [hc, ha, he, ho] at htold
  have hadd := h.addCustomer _ (some .pending) fresh (.inl rfl)
  have htext : toldKyc "PENDING_KYC" = some .pending := rfl
  rw [← BankView.hear_customer .pending htext List.mem_cons_self] at hadd
  exact of_told hadd htold

theorem submitKyc {draw : Draw} {principal : Principal} (h : Retold db)
    (hok : Bantam.submitKyc draw principal db = .ok db') : Retold db' := by
  obtain ⟨_, -, hrest⟩ := bind_eq_ok.mp hok
  cases hc : principal.customerId with
  | none => simp [hc] at hrest
  | some customerId =>
    simp only [hc] at hrest
    obtain ⟨mid, hupdate, haudit⟩ := bind_eq_ok.mp hrest
    obtain ⟨-, rfl⟩ := updateKyc_ok hupdate
    obtain ⟨-, rfl⟩ := Db.insertAudit_ok.mp haudit
    exact (h.submitted customerId).congr rfl rfl rfl

theorem adminDecideKyc {draw : Draw} {principal : Principal} {customerId : Uuid}
    {approve : Bool} {reason : String} (h : Retold db)
    (keyed : Keyed Customer.customerId db.customers)
    (hok : Bantam.adminDecideKyc settings draw principal customerId approve reason db =
      .ok db') : Retold db' := by
  obtain ⟨_, -, hrest⟩ := bind_eq_ok.mp hok
  obtain ⟨_, -, hrest⟩ := bind_eq_ok.mp hrest
  obtain ⟨mid, hupdate, hlast⟩ := bind_eq_ok.mp hrest
  obtain ⟨hany, rfl⟩ := updateKyc_ok hupdate
  refine of_told ?_ (told_announced hlast)
  rw [BankView.hear_customer (if approve then .verified else .rejected)]
  · exact h.decided keyed (by cases approve <;> simp) hany
  · cases approve <;> rfl
  · cases approve <;> decide

theorem operatorSetAccountStatus {draw : Draw} {principal : Principal} {accountId : Uuid}
    {freeze : Bool} {reason : String} (h : Retold db)
    (keyed : Keyed BankAccount.accountId db.accounts)
    (hok : Bantam.operatorSetAccountStatus settings draw principal accountId freeze reason db =
      .ok db') : Retold db' := by
  obtain ⟨_, -, hrest⟩ := bind_eq_ok.mp hok
  obtain ⟨_, -, hrest⟩ := bind_eq_ok.mp hrest
  obtain ⟨mid, hupdate, hlast⟩ := bind_eq_ok.mp hrest
  obtain ⟨hany, rfl⟩ := updateStatus_ok hupdate
  refine of_told ?_ (told_announced hlast)
  rw [BankView.hear_status (if freeze then .frozen else .active)]
  · exact h.statusSet keyed hany
  · cases freeze <;> rfl
  · cases freeze <;> decide

theorem openAccount {draw : Draw} {principal : Principal} {currency : String} (h : Retold db)
    (hok : Bantam.openAccount draw principal currency db = .ok db') : Retold db' := by
  obtain ⟨_, -, hrest⟩ := bind_eq_ok.mp hok
  cases hcustomer : principal.customerId with
  | none => simp [hcustomer] at hrest
  | some customerId =>
    simp only [hcustomer] at hrest
    split_ifs at hrest
    split at hrest
    · cases hrest
    · split_ifs at hrest
      obtain ⟨d1, hopened, hlast⟩ := bind_eq_ok.mp hrest
      have hadd := BankView.Tells.insertOpened h hopened rfl rfl
      have htold := told_announced hlast
      rw [insertOpened_outbox hopened] at htold
      refine of_told ?_ htold
      rw [BankView.hear_opening]
      simp only at hadd
      exact hadd

/-- The rows that are there already keep what is told of them, and the rest is told of by none. -/
theorem insertEach {ρ : Type} {insert : ρ → Db → Except Failure Db} {rows : List ρ}
    (single : ∀ row ∈ rows, ∀ db db', insert row db = .ok db' → Retold db → Retold db')
    (h : Retold db) (hok : Bantam.insertEach insert rows db = .ok db') : Retold db' := by
  induction rows generalizing db with
  | nil =>
    cases hok
    exact h
  | cons row rows ih =>
    obtain ⟨mid, hfirst, hrest⟩ := bind_eq_ok.mp hok
    refine ih (fun r hr => single r (List.mem_cons_of_mem row hr)) ?_ hrest
    cases onConflictDoNothing_ok hfirst with
    | inl hinsert => exact single row List.mem_cons_self db mid hinsert h
    | inr hconflict =>
      rw [hconflict.2]
      exact h

theorem seedRows {now : Instant} (h : Retold db) (hok : Bantam.seedRows now db = .ok db') :
    Retold db' := by
  simp only [Bantam.seedRows, bind_eq_ok] at hok
  obtain ⟨d1, h1, d2, h2, d3, h3, d4, h4, h5⟩ := hok
  have hcustomers : Retold d1 := by
    refine insertEach (fun row hrow db db' hinsert hold => ?_) h h1
    obtain ⟨fresh, rfl⟩ := insertCustomer_ok hinsert
    exact hold.seedCustomer hrow fresh
  have hrest : Retold d3 := by
    have hsame : told d3 = told d1 := ((Keeps.insertEach (Keeps.insertUser fun _ _ => rfl) _).bind
      (Keeps.grantBankAdminPermissions (fun _ _ => rfl) _ _)) d1 d3 (bind_eq_ok.mpr ⟨d2, h2, h3⟩)
    exact hcustomers.congr hsame
  have haccounts : Retold d4 := by
    refine insertEach (fun row hrow db db' hinsert hold => ?_) hrest h4
    obtain ⟨fresh, rfl⟩ := insertAccount_ok hinsert
    exact hold.seedAccount hrow fresh
  have hsame : told db' = told d4 :=
    Keeps.insertEach (Keeps.insertBalance fun _ _ => rfl) _ d4 db' h5
  exact haccounts.congr hsame

theorem createRiskAlert {draw : Draw} {threshold : Int} {transactionId source destination : Uuid}
    {amountMinor : Int} (h : Retold db)
    (hok : Bantam.createRiskAlert draw threshold transactionId source destination amountMinor db =
      .ok db') : Retold db' := by
  simp only [Bantam.createRiskAlert] at hok
  split_ifs at hok
  · exact Except.ok.inj hok ▸ h
  · exact Except.ok.inj hok ▸ h
  · obtain ⟨mid, halert, hlast⟩ := bind_eq_ok.mp hok
    have hsame : told mid = told db := Keeps.insertRiskAlert (fun _ _ => rfl) _ _ _ halert
    have hmid : Retold mid := h.congr hsame
    refine of_told ?_ (told_announced hlast)
    rw [BankView.hear_flagged]
    exact hmid

/-- Every operation of the bank announces what it changes of what is told. -/
theorem operation {o : Operation} (h : Retold db)
    (customers : Keyed Customer.customerId db.customers)
    (accounts : Keyed BankAccount.accountId db.accounts)
    (hok : o.perform settings sca db = .ok db') : Retold db' := by
  have audit : ∀ row, Keeps told (Db.insertAudit row) := Keeps.insertAudit fun _ _ => rfl
  have administrator : ∀ userId email, Keeps told (insertAdministrator userId email) :=
    Keeps.insertAdministrator fun _ _ => rfl
  cases o with
  | register draw email => exact h.register hok
  | adminCreateUser draw principal email permissions =>
    have hkeeps : Keeps told (Bantam.adminCreateUser settings draw principal email permissions) :=
      Keeps.guarded fun _ => Keeps.guarded fun _ => (administrator _ _).bind
        ((Keeps.grantPermissions (fun _ _ => rfl) _ _).bind (audit _))
    exact h.congr (hkeeps db db' hok)
  | bootstrapBankAdmin draw email =>
    refine h.congr ?_
    simp only [Operation.perform, Bantam.bootstrapBankAdmin] at hok
    split at hok
    · split at hok
      · cases hok
      · exact Keeps.grantBankAdminPermissions (fun _ _ => rfl) _ _ db db' hok
    · exact (administrator _ _).bind
        ((Keeps.grantBankAdminPermissions (fun _ _ => rfl) _ _).bind (audit _)) db db' hok
  | submitKyc draw principal => exact h.submitKyc hok
  | adminDecideKyc draw principal customerId approve reason =>
    exact h.adminDecideKyc customers hok
  | openAccount draw principal currency => exact h.openAccount hok
  | operatorSetAccountStatus draw principal accountId freeze reason =>
    exact h.operatorSetAccountStatus accounts hok
  | createScaChallenge draw principal code source destination amountMinor =>
    exact h.congr (told_createScaChallenge hok)
  | createRiskAlert draw threshold transactionId source destination amountMinor =>
    exact h.createRiskAlert hok
  | seedRows now => exact h.seedRows hok
  | recordAudit event => exact h.congr (audit event db db' hok)

theorem transferred {attempt : Attempt} {cmd : NormalisedCommand} (h : Retold db)
    (ht : Transferred sca attempt cmd db db') : Retold db' := by
  obtain ⟨_, _, -, -, -, -, -, -, -, hp⟩ := ht
  have hmid : (BankView.replay db.outbox).Tells (challenged sca attempt cmd db) :=
    BankView.Tells.congr h (challenged_customers ..) (challenged_accounts ..)
      (challenged_entries ..)
  refine of_told (hmid.posted hp) ?_
  rw [told, hp.outbox, challenged_outbox]

end Retold

/-- What is told of a database rests on keys that no two of its rows share. -/
structure Replayed (db : Db) : Prop where
  told : Retold db
  customers : Keyed Customer.customerId db.customers
  projected : Projected db

theorem Replayed.migrated : Replayed Db.migrated :=
  ⟨Retold.migrated, keyed_nil, Projected.migrated⟩

theorem keyedCustomers_write {touched : List Uuid} (w : Write touched db db')
    (h : Keyed Customer.customerId db.customers) : Keyed Customer.customerId db'.customers := by
  cases w with
  | customer row fresh => exact keyed_append_one.mpr ⟨h, fresh⟩
  | kyc target allowed next =>
    rw [Keyed, kyc_ids]
    exact h
  | _ => exact h

theorem Replayed.step (e : BankEvent) (h : Replayed db) :
    Replayed (bankStep settings sca db e) := by
  have hprojected : Projected (bankStep settings sca db e) := h.projected.step e
  cases e with
  | operation o =>
    simp only [bankStep] at hprojected ⊢
    split at hprojected
    · rename_i db' hok
      exact ⟨h.told.operation h.customers h.projected.accountsKeyed hok,
        (Operation.perform_writes hok).invariant keyedCustomers_write h.customers, hprojected⟩
    · exact h
  | transfer attempt command =>
    cases createTransfer_cases sca attempt command db with
    | inl hrefused =>
      obtain ⟨he, -⟩ := hrefused
      rw [bankStep, he]
      exact h
    | inr hcommitted =>
      obtain ⟨cmd, db', -, he, ht⟩ := hcommitted
      rw [bankStep, he] at hprojected ⊢
      refine ⟨h.told.transferred ht, ?_, hprojected⟩
      obtain ⟨_, _, -, -, -, -, -, -, -, hp⟩ := ht
      rw [hp.customers, challenged_customers]
      exact h.customers

/-- A publisher changes nothing of what its rows tell. -/
theorem Replayed.system (s : System) (e : SystemEvent) (h : Replayed s.db) :
    Replayed (System.step settings sca s e).db := by
  cases e with
  | bank e => exact h.step e
  | publisher e =>
    cases System.step_publisher settings sca s e with
    | inl he =>
      rw [he]
      exact h
    | inr he =>
      by_cases hq : ∃ row, e = .enqueue row
      · obtain ⟨row, rfl⟩ := hq
        exact h
      · rw [he]
        have hrows : BankView.replay (relayStep s.relay e).rows = BankView.replay s.db.outbox := by
          rw [BankView.replay_map, relayStep_rows (fun row v => BankView.hear v row)
            (fun _ _ _ _ _ _ => rfl) fun row hrow => hq ⟨row, hrow⟩]
          exact (BankView.replay_map s.db.outbox).symm
        refine ⟨?_, h.customers, h.projected.congr rfl rfl rfl⟩
        show (BankView.replay (relayStep s.relay e).rows).Tells _
        rw [hrows]
        exact BankView.Tells.congr h.told rfl rfl rfl

end Steps
end Bantam
