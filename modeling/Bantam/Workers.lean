import Bantam.Challenges
import Bantam.Delivery

/-! What the workers hear of the bank: the events of posted transfers, and what the rest of the
application leaves alone of the rows that the workers write. -/
namespace Bantam
open Tables

/-- `TRANSFER_SUBJECT` -/
def transferSubject : String := "payment.transfer_posted.v1"

/-- A transfer event as the handlers read it. -/
structure TransferPosted where
  eventId : Uuid
  transactionId : Uuid
  sourceAccountId : Uuid
  destinationAccountId : Uuid
  amountMinor : Int
  currency : String
  deriving DecidableEq

/-- `UUID(str(payload[key]))` -/
def payloadUuid (payload : JsonObject) (key : String) : Option Uuid :=
  match payload.lookup key with
  | some (.str text) => Uuid.parse text
  | some (.int n) => Uuid.parse (toString n)
  | _ => none

/-- `decode_transfer_data` on the envelope of the row, and what the handlers read of its payload.
The amounts of transfer events are numbers and their currencies texts. -/
def decodeTransfer (row : OutboxRow) : Option TransferPosted :=
  match payloadUuid row.payload "transaction_id", payloadUuid row.payload "source_account_id",
    payloadUuid row.payload "destination_account_id", row.payload.lookup "amount_minor",
    row.payload.lookup "currency" with
  | some transactionId, some sourceAccountId, some destinationAccountId, some (.int amountMinor),
    some (.str currency) =>
    some ⟨row.outboxEventId, transactionId, sourceAccountId, destinationAccountId, amountMinor,
      currency⟩
  | _, _, _, _, _ => none

/-- The event of a transaction of the history. -/
def Transaction.posted (t : Transaction) (eventId : Uuid) : TransferPosted :=
  ⟨eventId, t.transactionId, t.sourceAccountId, t.destinationAccountId, t.amountMinor, t.currency⟩

def OutboxRow.heard (r : OutboxRow) : Bool := r.eventType = transferSubject

theorem decodeTransfer_transferEvent (attempt : Attempt) (cmd : NormalisedCommand) :
    decodeTransfer (transferEvent attempt cmd) =
      some ((newTransaction attempt cmd).posted attempt.outboxEventId) := by
  simp [decodeTransfer, payloadUuid, transferEvent, OutboxRow.inserted, List.lookup_cons,
    Uuid.parse_str, Transaction.posted, newTransaction]

/-- The row that announces an alert of the risk worker. -/
def OutboxRow.flagged (r : OutboxRow) : Bool := r.eventType = "risk.transaction_flagged.v1"

/-- An audit record of the risk worker. -/
def AuditEvent.reported (a : AuditEvent) : Bool :=
  a.actorType = "SERVICE" && a.action = "RISK_ALERT_CREATED"

/-- What the workers read and write: the alerts, the events of transfers and of alerts, and the
audit records of the risk worker. -/
def watch (db : Db) : List RiskAlert × List OutboxRow × List AuditEvent :=
  (db.riskAlerts, db.outbox.filter fun r => r.heard || r.flagged,
    db.audit.filter AuditEvent.reported)

/-- The operation of the risk worker, or an audit record in its name. -/
def Operation.flags : Operation → Bool
  | .createRiskAlert .. => true
  | .recordAudit event => event.reported
  | _ => false

section Keeping
variable {settings : Settings} {sca : ScaService} {db db' : Db}

theorem keeps_watch_outbox {row : OutboxRow} (h : (row.heard || row.flagged) = false) :
    Keeps watch (Db.insertOutbox row) := by
  intro db db' hok
  rw [(Db.insertOutbox_ok.mp hok).2]
  simp [watch, h]

theorem keeps_watch_audit {row : AuditEvent} (h : row.reported = false) :
    Keeps watch (Db.insertAudit row) := by
  intro db db' hok
  rw [(Db.insertAudit_ok.mp hok).2]
  simp [watch, h]

theorem requestAudit_reported (draw : Draw) (actorId : Uuid)
    (action resourceType resourceId : String) (metadata : JsonObject) :
    (requestAudit draw actorId action resourceType resourceId metadata).reported = false := by
  simp [AuditEvent.reported, requestAudit]

/-- Every other operation leaves to the workers what is theirs. -/
theorem Operation.keeps_watch {o : Operation} (ho : o.flags = false) :
    Keeps watch (o.perform settings sca) := by
  have audit : ∀ draw actorId action resourceType resourceId metadata,
      Keeps watch (Db.insertAudit
        (requestAudit draw actorId action resourceType resourceId metadata)) :=
    fun draw actorId action resourceType resourceId metadata =>
      keeps_watch_audit (requestAudit_reported draw actorId action resourceType resourceId metadata)
  have administrator : ∀ userId email, Keeps watch (insertAdministrator userId email) :=
    Keeps.insertAdministrator fun _ _ => rfl
  have bootstrap : ∀ userId scopes, Keeps watch (grantBankAdminPermissions userId scopes) :=
    Keeps.grantBankAdminPermissions fun _ _ => rfl
  have quiet : ∀ id aggregateType aggregateId eventType payload now,
      eventType ≠ transferSubject → eventType ≠ "risk.transaction_flagged.v1" →
      Keeps watch (Db.insertOutbox
        (OutboxRow.inserted id aggregateType aggregateId eventType payload now)) := by
    intro id aggregateType aggregateId eventType payload now hheard hflagged
    exact keeps_watch_outbox (by simp [OutboxRow.heard, OutboxRow.flagged, OutboxRow.inserted,
      hheard, hflagged])
  cases o with
  | register draw email =>
    exact (Keeps.insertCustomer (fun _ _ => rfl) _).bind
      ((Keeps.insertUser (fun _ _ => rfl) _).bind
        ((quiet _ _ _ _ _ _ (by simp [transferSubject]) (by simp)).bind (audit _ _ _ _ _ _)))
  | adminCreateUser draw principal email permissions =>
    exact Keeps.guarded fun _ => Keeps.guarded fun _ => (administrator _ _).bind
      ((Keeps.grantPermissions (fun _ _ => rfl) _ _).bind (audit _ _ _ _ _ _))
  | bootstrapBankAdmin draw email =>
    intro db db' h
    simp only [perform, Bantam.bootstrapBankAdmin] at h
    split at h
    · split at h
      · cases h
      · exact bootstrap _ _ db db' h
    · exact (administrator _ _).bind ((bootstrap _ _).bind
        (keeps_watch_audit (by simp [AuditEvent.reported]))) db db' h
  | submitKyc draw principal =>
    refine Keeps.guarded fun _ => ?_
    intro db db' h
    cases hc : principal.customerId with
    | none => simp [hc] at h
    | some customerId =>
      rw [hc] at h
      exact (Keeps.updateKyc (fun _ _ => rfl) _ _ _ _).bind (audit _ _ _ _ _ _) db db' h
  | adminDecideKyc draw principal customerId approve reason =>
    exact Keeps.guarded fun _ => Keeps.guarded fun _ =>
      (Keeps.updateKyc (fun _ _ => rfl) _ _ _ _).bind
        ((quiet _ _ _ _ _ _ (by cases approve <;> simp [transferSubject])
          (by cases approve <;> simp)).bind (audit _ _ _ _ _ _))
  | openAccount draw principal currency =>
    refine Keeps.guarded fun _ => ?_
    intro db db' h
    simp only at h
    split at h
    · cases h
    · split_ifs at h
      split at h
      · cases h
      · split_ifs at h
        exact ((Keeps.insertAccount (fun _ _ => rfl) _).bind
          (Keeps.insertBalance (fun _ _ => rfl) _)).bind
            ((quiet _ _ _ _ _ _ (by simp [transferSubject]) (by simp)).bind (audit _ _ _ _ _ _))
              db db' h
  | operatorSetAccountStatus draw principal accountId freeze reason =>
    exact Keeps.guarded fun _ => Keeps.guarded fun _ =>
      (Keeps.updateStatus (fun _ _ => rfl) _ _).bind
        ((quiet _ _ _ _ _ _ (by cases freeze <;> simp [transferSubject])
          (by cases freeze <;> simp)).bind (audit _ _ _ _ _ _))
  | createScaChallenge draw principal code source destination amountMinor =>
    intro db db' h
    simp only [perform, Bantam.createScaChallenge, bind_eq_ok] at h
    obtain ⟨_, -, ⟨required, mid⟩, hcreate, haudit⟩ := h
    have hmid : watch mid = watch db := by
      unfold ScaService.create at hcreate
      split at hcreate
      · cases hcreate
      · split_ifs at hcreate
        · cases hcreate
          rfl
        · simp only [Db.insertChallenge, bind_eq_ok, pure, Except.pure, Except.ok.injEq,
            Prod.mk.injEq] at hcreate
          obtain ⟨_, ⟨_, -, _, -, _, -, _, -, _, -, rfl⟩, -, rfl⟩ := hcreate
          rfl
    split at haudit
    · rename_i last hlast
      cases haudit
      rw [audit _ _ _ _ _ _ mid db' hlast, hmid]
    · cases haudit
      exact hmid
  | createRiskAlert => cases ho
  | seedRows now =>
    exact (Keeps.insertEach (Keeps.insertCustomer fun _ _ => rfl) _).bind
      ((Keeps.insertEach (Keeps.insertUser fun _ _ => rfl) _).bind
        ((bootstrap _ _).bind
          ((Keeps.insertEach (Keeps.insertAccount fun _ _ => rfl) _).bind
            (Keeps.insertEach (Keeps.insertBalance fun _ _ => rfl) _))))
  | recordAudit event => exact keeps_watch_audit ho

/-- To hear a transfer is to find its event in the outbox. -/
def Sent (db : Db) (m : TransferPosted) : Prop :=
  ∃ r ∈ db.outbox, r.heard = true ∧ decodeTransfer r = some m

def heardRows (db : Db) : List OutboxRow := db.outbox.filter OutboxRow.heard

theorem sent_iff {m : TransferPosted} :
    Sent db m ↔ ∃ r ∈ heardRows db, decodeTransfer r = some m := by
  simp only [Sent, heardRows, List.mem_filter, and_assoc]

theorem heardRows_of_watch (h : watch db' = watch db) : heardRows db' = heardRows db := by
  have hrows : ∀ db : Db, heardRows db = (watch db).2.1.filter OutboxRow.heard := by
    intro db
    simp only [heardRows, watch, List.filter_filter]
    refine List.filter_congr fun r _ => ?_
    cases r.heard <;> simp
  rw [hrows, hrows, h]

theorem Operation.keeps_heardRows (o : Operation) :
    Keeps heardRows (o.perform settings sca) := by
  cases ho : o.flags with
  | false => exact fun db db' h => heardRows_of_watch (o.keeps_watch ho db db' h)
  | true =>
    have audit : ∀ row, Keeps heardRows (Db.insertAudit row) := Keeps.insertAudit fun _ _ => rfl
    cases o with
    | createRiskAlert draw threshold transactionId source destination amountMinor =>
      intro db db' h
      simp only [perform, Bantam.createRiskAlert] at h
      split_ifs at h
      · cases h
        rfl
      · cases h
        rfl
      · refine (Keeps.insertRiskAlert (fun _ _ => rfl) _).bind (Keeps.bind ?_ (audit _)) db db' h
        intro db db' hok
        rw [(Db.insertOutbox_ok.mp hok).2]
        simp [heardRows, OutboxRow.heard, OutboxRow.inserted, transferSubject]
    | recordAudit event => exact audit event
    | _ => cases ho

/-- A transfer that posts is heard of, beside what was heard before. -/
theorem Transferred.heardRows {attempt : Attempt} {cmd : NormalisedCommand}
    (ht : Transferred sca attempt cmd db db') :
    heardRows db' = heardRows db ++ [transferEvent attempt cmd] := by
  obtain ⟨_, _, -, -, -, -, -, -, -, hp⟩ := ht
  have hheard : (transferEvent attempt cmd).heard = true := decide_eq_true rfl
  unfold Bantam.heardRows
  rw [hp.outbox, challenged_outbox, List.filter_append, List.filter_cons_of_pos hheard,
    List.filter_nil]

theorem bankStep_heardRows (settings : Settings) (sca : ScaService) (db : Db) (e : BankEvent) :
    heardRows (bankStep settings sca db e) = heardRows db ∨
    ∃ attempt cmd, newTransaction attempt cmd ∈ (bankStep settings sca db e).transactions ∧
      heardRows (bankStep settings sca db e) = heardRows db ++ [transferEvent attempt cmd] := by
  cases e with
  | operation o =>
    simp only [bankStep]
    split
    · rename_i db' hok
      exact .inl (o.keeps_heardRows db db' hok)
    · exact .inl rfl
  | transfer attempt command =>
    cases createTransfer_cases sca attempt command db with
    | inl hrefused =>
      obtain ⟨he, -⟩ := hrefused
      rw [bankStep, he]
      exact .inl rfl
    | inr hcommitted =>
      obtain ⟨cmd, db', -, he, ht⟩ := hcommitted
      rw [bankStep, he]
      exact .inr ⟨attempt, cmd, ht.row_mem, ht.heardRows⟩

/-- A message that is heard after a step was heard before it, or a transaction has posted it. -/
theorem System.sent_step (settings : Settings) (sca : ScaService) (s : System) (e : SystemEvent) :
    (∀ m, Sent s.db m → Sent (System.step settings sca s e).db m) ∧
    ∀ m, Sent (System.step settings sca s e).db m → Sent s.db m ∨
      ∃ t ∈ (System.step settings sca s e).db.transactions, t.posted m.eventId = m := by
  cases e with
  | bank e =>
    simp only [System.step, sent_iff]
    cases bankStep_heardRows settings sca s.db e with
    | inl hsame =>
      rw [hsame]
      exact ⟨fun m h => h, fun m h => .inl h⟩
    | inr hposted =>
      obtain ⟨attempt, cmd, ht, hrows⟩ := hposted
      rw [hrows]
      refine ⟨fun m h => ?_, fun m h => ?_⟩
      · obtain ⟨r, hr, hm⟩ := h
        exact ⟨r, List.mem_append_left _ hr, hm⟩
      · obtain ⟨r, hr, hm⟩ := h
        cases List.mem_append.mp hr with
        | inl hr => exact .inl ⟨r, hr, hm⟩
        | inr hnew =>
          rw [List.mem_singleton.mp hnew, decodeTransfer_transferEvent] at hm
          obtain rfl := Option.some.inj hm
          exact .inr ⟨_, ht, rfl⟩
  | publisher e =>
    -- a publisher changes neither the id nor the subject nor the payload of a row
    have hcore : (System.step settings sca s (.publisher e)).db.outbox.map
        (fun r => (r.heard, decodeTransfer r)) =
        s.db.outbox.map fun r => (r.heard, decodeTransfer r) := by
      cases System.step_publisher settings sca s e with
      | inl he => rw [he]
      | inr he =>
        by_cases hq : ∃ row, e = .enqueue row
        · obtain ⟨row, rfl⟩ := hq
          rfl
        · rw [he]
          exact relayStep_rows (r := s.relay) (e := e) (fun r => (r.heard, decodeTransfer r))
            (fun _ _ _ _ _ _ => rfl) fun row hrow => hq ⟨row, hrow⟩
    have hsent : ∀ (db : Db) m, Sent db m ↔
        (true, some m) ∈ db.outbox.map fun r => (r.heard, decodeTransfer r) := by
      intro db m
      simp only [Sent, List.mem_map, Prod.mk.injEq]
    simp only [hsent, hcore]
    exact ⟨fun m h => h, fun m h => .inl h⟩

/-- Every message that can be heard is of a transaction of the history. -/
def Sourced (db : Db) : Prop := ∀ m, Sent db m → ∃ t ∈ db.transactions, t.posted m.eventId = m

/-- A transaction that is kept posts what it posted. -/
theorem Kept.posted (h : Kept db db') {m : TransferPosted}
    (hm : ∃ t ∈ db.transactions, t.posted m.eventId = m) :
    ∃ t ∈ db'.transactions, t.posted m.eventId = m := by
  obtain ⟨t, ht, hm⟩ := hm
  cases h t ht with
  | inl hkept => exact ⟨t, hkept, hm⟩
  | inr hreversed => exact ⟨t.reverse, hreversed.1, hm⟩

theorem System.kept (settings : Settings) (sca : ScaService) (s : System) (e : SystemEvent) :
    Kept s.db (System.step settings sca s e).db := by
  cases e with
  | bank e => exact Kept.step settings sca s.db e
  | publisher e =>
    cases System.step_publisher settings sca s e with
    | inl he =>
      rw [he]
      exact Kept.refl s.db
    | inr he =>
      rw [he]
      exact Kept.of_eq rfl

theorem System.recorded (s : System) (e : SystemEvent) (h : Recorded s.db) :
    Recorded (System.step settings sca s e).db := by
  cases e with
  | bank e => exact h.step e
  | publisher e =>
    cases System.step_publisher settings sca s e with
    | inl he =>
      rw [he]
      exact h
    | inr he =>
      rw [he]
      exact h.congr rfl

theorem System.sourced (s : System) (e : SystemEvent) (h : Sourced s.db) :
    Sourced (System.step settings sca s e).db := by
  intro m hm
  cases (System.sent_step settings sca s e).2 m hm with
  | inl hbefore => exact (System.kept settings sca s e).posted (h m hbefore)
  | inr hposted => exact hposted

/-- A message about a transaction tells what the transaction is. -/
theorem Sourced.message (h : Sourced db) (hr : Recorded db) {m : TransferPosted} (hm : Sent db m)
    {t : Transaction} (ht : t ∈ db.transactions) (he : m.transactionId = t.transactionId) :
    t.posted m.eventId = m := by
  obtain ⟨t', ht', hp⟩ := h m hm
  have hid : t'.transactionId = t.transactionId := by
    rw [← he, ← hp]
    rfl
  obtain rfl := hr.idsKeyed.eq_of_key ht' ht hid
  exact hp

theorem decodeTransfer_eventId {row : OutboxRow} {m : TransferPosted}
    (h : decodeTransfer row = some m) : m.eventId = row.outboxEventId := by
  unfold decodeTransfer at h
  split at h
  · rw [← Option.some.inj h]
  · cases h

/-- An event tells one message. -/
theorem Sent.unique {m m' : TransferPosted} (hm : Sent db m) (hm' : Sent db m')
    (hkeyed : Keyed OutboxRow.outboxEventId db.outbox) (he : m.eventId = m'.eventId) : m = m' := by
  obtain ⟨r, hr, -, hdecode⟩ := hm
  obtain ⟨r', hr', -, hdecode'⟩ := hm'
  rw [decodeTransfer_eventId hdecode, decodeTransfer_eventId hdecode'] at he
  obtain rfl := hkeyed.eq_of_key hr hr' he
  exact Option.some.inj (hdecode.symm.trans hdecode')

theorem System.sound_step (s : System) (e : SystemEvent) (h : s.relay.Sound) :
    (System.step settings sca s e).relay.Sound := by
  have keep : ∀ r e, Relay.Sound r → (relayStep r e).Sound :=
    fun r e hr => hr.step (relayStep_step r e)
  cases e with
  | bank e =>
    obtain ⟨added, -, hrun⟩ := bankStep_enqueues settings sca s.db e s.relay rfl
    have hsound := Runs.run_invariant keep h (added.map .enqueue)
    rw [hrun] at hsound
    exact hsound
  | publisher e =>
    cases System.step_publisher settings sca s e with
    | inl he =>
      rw [he]
      exact h
    | inr he =>
      rw [he]
      exact keep s.relay e h

/-- The customer to whom an account belongs. -/
def owner (db : Db) (accountId : Uuid) : Option Uuid :=
  (db.findAccount accountId).bind BankAccount.customerId

/-- Accounts have one row each, and those of the transactions are there. -/
structure Accounted (db : Db) : Prop where
  keyed : Keyed BankAccount.accountId db.accounts
  placed : ∀ t ∈ db.transactions, t.sourceAccountId ∈ db.accounts.map BankAccount.accountId ∧
    t.destinationAccountId ∈ db.accounts.map BankAccount.accountId

/-- Every account is there as before, with the owner that it had. -/
def OwnersKept (db db' : Db) : Prop :=
  ∀ a ∈ db.accounts, ∃ a' ∈ db'.accounts, a'.accountId = a.accountId ∧ a'.customerId = a.customerId

theorem OwnersKept.of_eq (h : db'.accounts = db.accounts) : OwnersKept db db' :=
  fun a ha => ⟨a, h ▸ ha, rfl, rfl⟩

theorem OwnersKept.trans {db'' : Db} (h : OwnersKept db db') (h' : OwnersKept db' db'') :
    OwnersKept db db'' := by
  intro a ha
  obtain ⟨b, hb, hid, hcustomer⟩ := h a ha
  obtain ⟨c, hc, hid', hcustomer'⟩ := h' b hb
  exact ⟨c, hc, hid'.trans hid, hcustomer'.trans hcustomer⟩

theorem OwnersKept.write {touched : List Uuid} (w : Write touched db db') :
    OwnersKept db db' := by
  cases w with
  | opened accounts balances opening =>
    exact fun a ha => ⟨a, List.mem_append_left _ ha, rfl, rfl⟩
  | status target status mem =>
    intro a ha
    refine ⟨_, mem_updateWhere.mpr ⟨a, ha, rfl⟩, ?_⟩
    split <;> exact ⟨rfl, rfl⟩
  | _ => exact .of_eq rfl

theorem OwnersKept.writes {touched : List Uuid} (w : Writes touched db db') :
    OwnersKept db db' := by
  induction w with
  | refl => exact .of_eq rfl
  | tail _ w ih => exact ih.trans (.write w)

theorem OwnersKept.system (settings : Settings) (sca : ScaService) (s : System)
    (e : SystemEvent) : OwnersKept s.db (System.step settings sca s e).db := by
  cases e with
  | bank e =>
    cases e with
    | operation o =>
      simp only [System.step, bankStep]
      split
      · rename_i db' hok
        exact .writes (Operation.perform_writes hok)
      · exact .of_eq rfl
    | transfer attempt command =>
      simp only [System.step]
      cases createTransfer_cases sca attempt command s.db with
      | inl hrefused =>
        rw [bankStep, hrefused.1]
        exact .of_eq rfl
      | inr hcommitted =>
        obtain ⟨cmd, db', -, he, ht⟩ := hcommitted
        obtain ⟨_, _, -, -, -, -, -, -, -, hp⟩ := ht
        rw [bankStep, he]
        exact .of_eq (by rw [hp.accounts, challenged_eq])
  | publisher e =>
    cases System.step_publisher settings sca s e with
    | inl he =>
      rw [he]
      exact .of_eq rfl
    | inr he =>
      rw [he]
      exact .of_eq rfl

theorem Accounted.of_kept (h : Accounted db) (hkept : OwnersKept db db')
    (hkeyed : Keyed BankAccount.accountId db'.accounts)
    (htransactions : db'.transactions = db.transactions) : Accounted db' := by
  have hids : ∀ id ∈ db.accounts.map BankAccount.accountId,
      id ∈ db'.accounts.map BankAccount.accountId := by
    intro id hid
    obtain ⟨a, ha, rfl⟩ := List.mem_map.mp hid
    obtain ⟨a', ha', he, -⟩ := hkept a ha
    exact he ▸ List.mem_map_of_mem ha'
  refine ⟨hkeyed, fun t ht => ?_⟩
  rw [htransactions] at ht
  exact ⟨hids _ (h.placed t ht).1, hids _ (h.placed t ht).2⟩

theorem Accounted.write {touched : List Uuid} (w : Write touched db db') (h : Accounted db) :
    Accounted db' := by
  refine h.of_kept (.write w) ?_ w.transactions
  cases w with
  | opened accounts balances opening => exact opening.accountsKeyed h.keyed
  | status target status mem =>
    refine (@keyed_updateWhere _ _ BankAccount.accountId _ _ _ ?_).mpr h.keyed
    exact fun _ => rfl
  | _ => exact h.keyed

theorem Accounted.transferred {attempt : Attempt} {cmd : NormalisedCommand}
    (ht : Transferred sca attempt cmd db db') (h : Accounted db) : Accounted db' := by
  obtain ⟨_, _, -, -, -, -, -, -, -, hp⟩ := ht
  have haccounts : db'.accounts = db.accounts := by rw [hp.accounts, challenged_eq]
  have hsource := hp.sourceExists
  have hdestination := hp.destinationExists
  rw [challenged_eq] at hsource hdestination
  refine ⟨haccounts ▸ h.keyed, fun t htx => ?_⟩
  rw [hp.transactions, challenged_transactions] at htx
  rw [haccounts]
  have hplaced : ∀ t ∈ db.transactions ++ [newTransaction attempt cmd],
      t.sourceAccountId ∈ db.accounts.map BankAccount.accountId ∧
      t.destinationAccountId ∈ db.accounts.map BankAccount.accountId := by
    intro t ht
    cases List.mem_append.mp ht with
    | inl hold => exact h.placed t hold
    | inr hnew => exact List.mem_singleton.mp hnew ▸ ⟨hsource, hdestination⟩
  cases Db.mem_reversedTransactions htx with
  | inl hmem => exact hplaced t hmem
  | inr hreversed =>
    obtain ⟨q, hq, -, rfl⟩ := hreversed
    exact hplaced q hq

theorem System.accounted (s : System) (e : SystemEvent) (h : Accounted s.db) :
    Accounted (System.step settings sca s e).db := by
  cases e with
  | bank e =>
    cases e with
    | operation o =>
      simp only [System.step, bankStep]
      split
      · rename_i db' hok
        exact (Operation.perform_writes hok).invariant Accounted.write h
      · exact h
    | transfer attempt command =>
      simp only [System.step]
      cases createTransfer_cases sca attempt command s.db with
      | inl hrefused =>
        rw [bankStep, hrefused.1]
        exact h
      | inr hcommitted =>
        obtain ⟨cmd, db', -, he, ht⟩ := hcommitted
        rw [bankStep, he]
        exact h.transferred ht
  | publisher e =>
    cases System.step_publisher settings sca s e with
    | inl he =>
      rw [he]
      exact h
    | inr he =>
      rw [he]
      exact ⟨h.keyed, h.placed⟩

/-- The owner of an account that is there stays its owner. -/
theorem OwnersKept.owner (h : OwnersKept db db')
    (hkeyed : Keyed BankAccount.accountId db.accounts)
    (hkeyed' : Keyed BankAccount.accountId db'.accounts) {accountId : Uuid}
    (hid : accountId ∈ db.accounts.map BankAccount.accountId) :
    owner db' accountId = owner db accountId := by
  obtain ⟨a, ha, rfl⟩ := List.mem_map.mp hid
  obtain ⟨a', ha', hsame, hcustomer⟩ := h a ha
  have hfound : db.findAccount a.accountId = some a := (lookup_eq_some_iff hkeyed).mpr ⟨ha, rfl⟩
  have hfound' : db'.findAccount a.accountId = some a' :=
    (lookup_eq_some_iff hkeyed').mpr ⟨ha', hsame⟩
  rw [Bantam.owner, Bantam.owner, hfound, hfound']
  exact hcustomer
end Keeping
end Bantam
