import Bantam.Workers
import Bantam.Lib.Locks

/-! `create_risk_alert` under at-least-once delivery: any number of deliveries of any transfer
events are handled at once, one statement at a time, each may be lost anywhere, and every
transaction above the threshold leaves one alert, one event and one audit record. -/
namespace Bantam
open Tables

/-- The statement that a delivery is at, with the customer it has read. The worker acknowledges
what it has handled, and hands back what has raised; a delivery that is lost was neither. -/
inductive RiskPhase where
  | received
  | customerRead (customerId : Option Uuid)
  | alertInserted (customerId : Option Uuid)
  | eventInserted (customerId : Option Uuid)
  | auditInserted (customerId : Option Uuid)
  | handled
  | acknowledged
  | failed
  | crashed
  deriving DecidableEq

structure RiskDelivery where
  message : TransferPosted
  draw : Draw
  phase : RiskPhase
  deriving DecidableEq

def highValueTransfer : String := "HIGH_VALUE_TRANSFER"

namespace RiskDelivery

def become (d : RiskDelivery) (phase : RiskPhase) : RiskDelivery := { d with phase := phase }

/-- `COALESCE(source.customer_id, destination.customer_id)` -/
def customer (d : RiskDelivery) (db : Db) : Option Uuid :=
  match db.findAccount d.message.sourceAccountId, db.findAccount d.message.destinationAccountId with
  | some source, some destination => source.customerId.or destination.customerId
  | _, _ => none

def alert (d : RiskDelivery) (customerId : Option Uuid) : RiskAlert where
  riskAlertId := d.draw.rowId
  transactionId := d.message.transactionId
  customerId := customerId
  ruleId := highValueTransfer
  severity := "HIGH"

def event (d : RiskDelivery) : OutboxRow :=
  OutboxRow.inserted d.draw.outboxEventId "risk_alert" d.draw.rowId "risk.transaction_flagged.v1"
    [("risk_alert_id", .str (Uuid.str d.draw.rowId)),
      ("transaction_id", .str (Uuid.str d.message.transactionId)),
      ("rule_id", .str highValueTransfer), ("severity", .str "HIGH")]
    d.draw.databaseNow

def record (d : RiskDelivery) : AuditEvent where
  auditEventId := d.draw.auditEventId
  actorType := "SERVICE"
  actorId := "risk-worker"
  action := "RISK_ALERT_CREATED"
  resourceType := "risk_alert"
  resourceId := Uuid.str d.draw.rowId
  requestId := d.draw.requestId
  correlationId := d.message.transactionId
  metadata := [("rule_id", .str highValueTransfer), ("amount_minor", .int d.message.amountMinor)]

/-- The writes of the database transaction, on the database as it is committed. -/
def write (d : RiskDelivery) (customerId : Option Uuid) (db : Db) : Except Failure Db := do
  let db ← db.insertRiskAlert (d.alert customerId)
  let db ← db.insertOutbox d.event
  db.insertAudit d.record

/-- The key `(transaction_id, rule_id)` that a delivery has inserted and not yet committed, by
its transaction. -/
def locks (d : RiskDelivery) : List Uuid :=
  match d.phase with
  | .alertInserted _ | .eventInserted _ | .auditInserted _ => [d.message.transactionId]
  | _ => []

/-- `handle` has returned. -/
def done (d : RiskDelivery) : Bool :=
  match d.phase with
  | .handled | .acknowledged => true
  | _ => false

/-- Past the comparison with the threshold, and not yet at the end. -/
def started (d : RiskDelivery) : Bool :=
  match d.phase with
  | .customerRead _ | .alertInserted _ | .eventInserted _ | .auditInserted _ => true
  | _ => false

end RiskDelivery

/-- The transaction has its alert. -/
def flaggedAlready (transactionId : Uuid) (db : Db) : Bool :=
  db.riskAlerts.any fun a => a.transactionId = transactionId && a.ruleId = highValueTransfer

/-- The next statement of a delivery. `blocked` tells that another has inserted the same key and
not yet committed it, and the `INSERT … ON CONFLICT DO NOTHING` waits for its outcome. -/
def RiskDelivery.advance (threshold : Int) (blocked : Bool) (d : RiskDelivery) (db : Db) :
    RiskPhase × Db :=
  match d.phase with
  | .received =>
    if d.message.amountMinor ≤ threshold then (.handled, db)
    else (.customerRead (d.customer db), db)
  | .customerRead customerId =>
    if flaggedAlready d.message.transactionId db then (.handled, db)
    else if blocked then (d.phase, db)
    else
      match db.insertRiskAlert (d.alert customerId) with
      | .ok _ => (.alertInserted customerId, db)
      | .error _ => (.failed, db)
  | .alertInserted customerId =>
    match db.insertOutbox d.event with
    | .ok _ => (.eventInserted customerId, db)
    | .error _ => (.failed, db)
  | .eventInserted customerId =>
    match db.insertAudit d.record with
    | .ok _ => (.auditInserted customerId, db)
    | .error _ => (.failed, db)
  | .auditInserted customerId =>
    match d.write customerId db with
    | .ok db' => (.handled, db')
    | .error _ => (.failed, db)
  | .handled => (.acknowledged, db)
  | .acknowledged | .failed | .crashed => (d.phase, db)

/-- `create_manual_risk_alert`, past its checks of the caller and the input. -/
def createManualRiskAlert (draw : Draw) (transactionId : Uuid) (severity : String) (db : Db) :
    Except Failure Db :=
  match db.findTransaction transactionId with
  | none => .error (.bantam notFound)
  | some t =>
    let customerId := match db.findAccount t.sourceAccountId, db.findAccount t.destinationAccountId with
      | some source, some destination => source.customerId.or destination.customerId
      | _, _ => none
    if db.riskAlerts.any fun a => a.transactionId = transactionId && a.ruleId = "MANUAL_REVIEW" then
      .error (.database .uniqueViolation)
    else
      db.insertRiskAlert {
        riskAlertId := draw.rowId, transactionId := transactionId, customerId := customerId,
        ruleId := "MANUAL_REVIEW", severity := severity }

structure RiskState where
  system : System
  deliveries : List RiskDelivery

def RiskState.initial : RiskState := ⟨System.initial, []⟩

/-- `deliver` hands the event of a transfer to a worker, for the first time or again; `crash`
loses a delivery before its handler returns, and what it has not committed. -/
inductive RiskEvent where
  | deliver (eventId : Uuid) (draw : Draw)
  | advance (i : Nat)
  | crash (i : Nat)
  | manual (draw : Draw) (transactionId : Uuid) (severity : String)
  | application (e : SystemEvent)

def SystemEvent.flags : SystemEvent → Bool
  | .bank (.operation o) => o.flags
  | _ => false

def RiskState.move (s : RiskState) (i : Nat) (d : RiskDelivery) (phase : RiskPhase) (db : Db) :
    RiskState :=
  ⟨{ s.system with db := db }, s.deliveries.set i (d.become phase)⟩

/-- One step of the workers or of the rest of the application, which leaves the alerts of the
rule and what goes with them to the workers. -/
def riskStep (threshold : Int) (settings : Settings) (sca : ScaService) (s : RiskState) :
    RiskEvent → RiskState
  | .deliver eventId draw =>
    match s.system.db.outbox.find? fun r => r.outboxEventId = eventId && r.heard with
    | none => s
    | some row =>
      match decodeTransfer row with
      | none => s
      | some message => { s with deliveries := s.deliveries ++ [⟨message, draw, .received⟩] }
  | .advance i =>
    match s.deliveries[i]? with
    | none => s
    | some d =>
      let blocked := Locks.heldByOther RiskDelivery.locks s.deliveries i d.message.transactionId
      let (phase, db) := d.advance threshold blocked s.system.db
      s.move i d phase db
  | .crash i =>
    match s.deliveries[i]? with
    | none => s
    | some d => if d.done then s else s.move i d .crashed s.system.db
  | .manual draw transactionId severity =>
    match createManualRiskAlert draw transactionId severity s.system.db with
    | .ok db => { s with system := { s.system with db := db } }
    | .error _ => s
  | .application e =>
    if e.flags then s else { s with system := System.step settings sca s.system e }

/-- How many alerts of the rule the transaction has, how many events and how many audit records. -/
def traces (transactionId : Uuid) (db : Db) : ℕ × ℕ × ℕ :=
  (db.riskAlerts.countP fun a => a.transactionId = transactionId && a.ruleId = highValueTransfer,
    db.outbox.countP fun r =>
      r.flagged && r.payload.lookup "transaction_id" = some (.str (Uuid.str transactionId)),
    db.audit.countP fun a => a.reported && a.correlationId = transactionId)

section Traces
variable {settings : Settings} {sca : ScaService} {db db' : Db} {tx : Uuid} {d : RiskDelivery}

theorem traces_of_watch (h : watch db' = watch db) : traces tx db' = traces tx db := by
  have hwatch : ∀ db : Db, traces tx db =
      ((watch db).1.countP fun a => a.transactionId = tx && a.ruleId = highValueTransfer,
        (watch db).2.1.countP fun r =>
          r.flagged && r.payload.lookup "transaction_id" = some (.str (Uuid.str tx)),
        (watch db).2.2.countP fun a => a.reported && a.correlationId = tx) := by
    intro db
    simp only [traces, watch, List.countP_filter, Prod.mk.injEq, true_and]
    constructor
    · refine List.countP_congr fun r _ => ?_
      cases r.flagged <;> simp
    · refine List.countP_congr fun a _ => ?_
      cases a.reported <;> simp
  rw [hwatch, hwatch, h]

theorem flaggedAlready_iff : flaggedAlready tx db = true ↔ (traces tx db).1 ≠ 0 := by
  unfold flaggedAlready traces
  rw [Nat.ne_zero_iff_zero_lt, List.countP_pos_iff, List.any_eq_true]

theorem insertRiskAlert_ok {row : RiskAlert} (h : db.insertRiskAlert row = .ok db') :
    db' = { db with riskAlerts := db.riskAlerts ++ [row] } := by
  simp only [Db.insertRiskAlert, bind_eq_ok, pure, Except.pure, Except.ok.injEq] at h
  obtain ⟨_, -, _, -, _, -, rfl⟩ := h
  rfl

theorem RiskDelivery.write_ok {customerId : Option Uuid} (h : d.write customerId db = .ok db') :
    db' = { db with
      riskAlerts := db.riskAlerts ++ [d.alert customerId], outbox := db.outbox ++ [d.event],
      audit := db.audit ++ [d.record] } := by
  simp only [RiskDelivery.write, bind_eq_ok] at h
  obtain ⟨mid, halert, last, hevent, hrecord⟩ := h
  rw [(Db.insertAudit_ok.mp hrecord).2, (Db.insertOutbox_ok.mp hevent).2, insertRiskAlert_ok halert]

theorem event_heard (d : RiskDelivery) : d.event.heard = false := by
  simp [OutboxRow.heard, RiskDelivery.event, OutboxRow.inserted, transferSubject]

/-- A delivery that commits leaves one trace of each kind for its transaction. -/
theorem RiskDelivery.write_traces {customerId : Option Uuid}
    (h : d.write customerId db = .ok db') :
    traces tx db' = traces tx db + if d.message.transactionId = tx then (1, 1, 1) else 0 := by
  have hflagged : d.event.flagged = true := decide_eq_true rfl
  have hreported : d.record.reported = true := by simp [AuditEvent.reported, RiskDelivery.record]
  have hpayload : d.event.payload.lookup "transaction_id" =
      some (.str (Uuid.str d.message.transactionId)) := by
    simp [RiskDelivery.event, OutboxRow.inserted, List.lookup_cons]
  have hcorrelation : d.record.correlationId = d.message.transactionId := rfl
  rw [RiskDelivery.write_ok h]
  simp only [traces, List.countP_append, List.countP_singleton, hflagged, hreported, hpayload,
    hcorrelation, RiskDelivery.alert, Option.some.injEq, JsonValue.str.injEq, Uuid.str_inj]
  by_cases heq : d.message.transactionId = tx
  · simp [heq]
  · simp only [heq, decide_false, Bool.false_and, Bool.and_false, Bool.false_eq_true, if_false]
    rfl

/-- An alert under another rule leaves no trace. -/
theorem createManualRiskAlert_watch {draw : Draw} {transactionId : Uuid} {severity : String}
    (h : createManualRiskAlert draw transactionId severity db = .ok db') :
    db'.transactions = db.transactions ∧ heardRows db' = heardRows db ∧
      traces tx db' = traces tx db := by
  unfold createManualRiskAlert at h
  split at h
  · cases h
  · simp only at h
    split_ifs at h
    rw [insertRiskAlert_ok h]
    refine ⟨rfl, rfl, ?_⟩
    simp [traces, highValueTransfer]

/-- The rest of the application leaves the traces as they are. -/
theorem System.step_traces {s : System} {e : SystemEvent} (he : e.flags = false) :
    traces tx (System.step settings sca s e).db = traces tx s.db := by
  cases e with
  | bank e =>
    cases e with
    | operation o =>
      simp only [System.step, bankStep]
      split
      · rename_i db' hok
        exact traces_of_watch (o.keeps_watch he s.db db' hok)
      · rfl
    | transfer attempt command =>
      simp only [System.step]
      cases createTransfer_cases sca attempt command s.db with
      | inl hrefused =>
        obtain ⟨he, -⟩ := hrefused
        rw [bankStep, he]
      | inr hcommitted =>
        obtain ⟨cmd, db', -, he, ht⟩ := hcommitted
        obtain ⟨_, _, -, -, -, -, -, -, -, hp⟩ := ht
        have hquiet : (transferEvent attempt cmd).flagged = false := by
          simp [OutboxRow.flagged, transferEvent, OutboxRow.inserted]
        have hunreported : (transferAudit attempt cmd).reported = false := by
          simp [AuditEvent.reported, transferAudit]
        have halerts : db'.riskAlerts = s.db.riskAlerts := by rw [hp.riskAlerts, challenged_eq]
        have houtbox : db'.outbox = s.db.outbox ++ [transferEvent attempt cmd] := by
          rw [hp.outbox, challenged_eq]
        have haudit : db'.audit = s.db.audit ++ [transferAudit attempt cmd] := by
          rw [hp.audit, challenged_eq]
        rw [bankStep, he]
        simp [traces, halerts, houtbox, haudit, hquiet, hunreported]
  | publisher e =>
    cases System.step_publisher settings sca s e with
    | inl he => rw [he]
    | inr he =>
      by_cases hq : ∃ row, e = .enqueue row
      · obtain ⟨row, rfl⟩ := hq
        rfl
      · have hrows := relayStep_rows (r := s.relay) (e := e)
          (fun r => r.flagged && r.payload.lookup "transaction_id" = some (.str (Uuid.str tx)))
          (fun _ _ _ _ _ _ => rfl) fun row hrow => hq ⟨row, hrow⟩
        have hcount := congrArg (List.countP id) hrows
        rw [List.countP_map, List.countP_map] at hcount
        rw [he]
        simp only [traces, Prod.mk.injEq]
        exact ⟨rfl, hcount, rfl⟩
end Traces

namespace RiskDelivery

/-- What a delivery can do in one step, with all that the step has established. -/
inductive Moves (threshold : Int) (blocked : Bool) (d : RiskDelivery) (db : Db) :
    RiskPhase → Db → Prop where
  | wait : Moves threshold blocked d db d.phase db
  | fail : Moves threshold blocked d db .failed db
  | below (low : d.message.amountMinor ≤ threshold) : Moves threshold blocked d db .handled db
  | read (customerId : Option Uuid) (high : threshold < d.message.amountMinor) :
      Moves threshold blocked d db (.customerRead customerId) db
  | flagged (already : flaggedAlready d.message.transactionId db = true) :
      Moves threshold blocked d db .handled db
  | insert (customerId : Option Uuid) (phase : d.phase = .customerRead customerId)
      (new : flaggedAlready d.message.transactionId db = false) (free : blocked = false) :
      Moves threshold blocked d db (.alertInserted customerId) db
  | announce (customerId : Option Uuid) (phase : d.phase = .alertInserted customerId) :
      Moves threshold blocked d db (.eventInserted customerId) db
  | report (customerId : Option Uuid) (phase : d.phase = .eventInserted customerId) :
      Moves threshold blocked d db (.auditInserted customerId) db
  | commit (customerId : Option Uuid) (db' : Db) (phase : d.phase = .auditInserted customerId)
      (written : d.write customerId db = .ok db') : Moves threshold blocked d db .handled db'
  | acknowledge (phase : d.phase = .handled) : Moves threshold blocked d db .acknowledged db

theorem advance_moves (threshold : Int) (blocked : Bool) (d : RiskDelivery) (db : Db) :
    Moves threshold blocked d db (d.advance threshold blocked db).1
      (d.advance threshold blocked db).2 := by
  have stay : ∀ phase, d.phase = phase → Moves threshold blocked d db phase db :=
    fun phase h => h ▸ .wait
  unfold advance
  cases hp : d.phase with
  | received =>
    simp only
    split_ifs with hlow
    · exact .below hlow
    · exact .read _ (not_le.mp hlow)
  | customerRead customerId =>
    simp only
    split_ifs with halready hblocked
    · exact .flagged halready
    · exact stay _ hp
    · split
      · exact .insert customerId hp (Bool.eq_false_iff.mpr halready) (Bool.eq_false_iff.mpr hblocked)
      · exact .fail
  | alertInserted customerId =>
    simp only
    split
    · exact .announce customerId hp
    · exact .fail
  | eventInserted customerId =>
    simp only
    split
    · exact .report customerId hp
    · exact .fail
  | auditInserted customerId =>
    simp only
    split
    · rename_i db' hok
      exact .commit customerId db' hp hok
    · exact .fail
  | handled => exact .acknowledge hp
  | acknowledged => exact stay _ hp
  | failed => exact stay _ hp
  | crashed => exact stay _ hp

/-- One delivery that writes alone does what `create_risk_alert` does as one operation. -/
theorem createRiskAlert_eq (d : RiskDelivery) {threshold : Int} {db : Db}
    (high : threshold < d.message.amountMinor)
    (new : flaggedAlready d.message.transactionId db = false) :
    createRiskAlert d.draw threshold d.message.transactionId d.message.sourceAccountId
      d.message.destinationAccountId d.message.amountMinor db = d.write (d.customer db) db := by
  unfold createRiskAlert
  unfold flaggedAlready highValueTransfer at new
  rw [if_neg (not_le.mpr high)]
  simp only
  rw [if_neg (Bool.eq_false_iff.mp new)]
  rfl
end RiskDelivery

/-- The messages under way are of transactions of the history. -/
structure RiskHeard (s : RiskState) : Prop where
  recorded : Recorded s.system.db
  sourced : Sourced s.system.db
  heard : ∀ d ∈ s.deliveries, Sent s.system.db d.message

/-- A transaction has all its traces or none: all once a delivery of it is done and its amount is
above the threshold, none while a delivery writes them, and all for no other transaction. -/
structure RiskTraced (threshold : Int) (s : RiskState) : Prop where
  exclusive : Locks.Exclusive RiskDelivery.locks s.deliveries
  high : ∀ d ∈ s.deliveries, d.started = true → threshold < d.message.amountMinor
  writing : ∀ d ∈ s.deliveries, ∀ tx ∈ d.locks, traces tx s.system.db = 0
  settled : ∀ tx, traces tx s.system.db = 0 ∨ (traces tx s.system.db = (1, 1, 1) ∧
    ∃ d ∈ s.deliveries, d.message.transactionId = tx ∧ threshold < d.message.amountMinor)
  done : ∀ d ∈ s.deliveries, d.done = true → threshold < d.message.amountMinor →
    traces d.message.transactionId s.system.db = (1, 1, 1)

section Invariant
variable {threshold : Int} {settings : Settings} {sca : ScaService} {s : RiskState} {i : Nat}
  {d : RiskDelivery}

/-- A message stays with its delivery. -/
theorem message_mem_set (hi : s.deliveries[i]? = some d) (phase : RiskPhase) {u : RiskDelivery}
    (hu : u ∈ s.deliveries) :
    ∃ u' ∈ s.deliveries.set i (d.become phase), u'.message = u.message :=
  Locks.exists_mem_set (f := RiskDelivery.message) (t := d.become phase) hi rfl hu

/-- A delivery moves on without a write to the database. -/
theorem RiskTraced.move (h : RiskTraced threshold s) (hi : s.deliveries[i]? = some d)
    {phase : RiskPhase}
    (hlocks : ∀ tx ∈ (d.become phase).locks, tx ∈ d.locks ∨ (traces tx s.system.db = 0 ∧
      Locks.heldByOther RiskDelivery.locks s.deliveries i tx = false))
    (hhigh : (d.become phase).started = true → threshold < d.message.amountMinor)
    (hdone : (d.become phase).done = true → threshold < d.message.amountMinor →
      traces d.message.transactionId s.system.db = (1, 1, 1)) :
    RiskTraced threshold (s.move i d phase s.system.db) where
  exclusive := h.exclusive.set fun tx htx => by
    cases hlocks tx htx with
    | inl hheld => exact .inl ⟨d, hi, hheld⟩
    | inr hnew => exact .inr hnew.2
  high := by
    intro u hu hstarted
    cases Locks.mem_set hu with
    | inl hmoved =>
      rw [hmoved] at hstarted ⊢
      exact hhigh hstarted
    | inr hother =>
      obtain ⟨j, -, hj⟩ := hother
      exact h.high u (List.mem_of_getElem? hj) hstarted
  writing := by
    intro u hu tx htx
    cases Locks.mem_set hu with
    | inl hmoved =>
      rw [hmoved] at htx
      cases hlocks tx htx with
      | inl hheld => exact h.writing d (List.mem_of_getElem? hi) tx hheld
      | inr hnew => exact hnew.1
    | inr hother =>
      obtain ⟨j, -, hj⟩ := hother
      exact h.writing u (List.mem_of_getElem? hj) tx htx
  settled := by
    intro tx
    cases h.settled tx with
    | inl hnone => exact .inl hnone
    | inr hall =>
      obtain ⟨htraces, u, hu, htx, hhigh⟩ := hall
      obtain ⟨u', hu', hmessage⟩ := message_mem_set hi phase hu
      exact .inr ⟨htraces, u', hu', hmessage ▸ htx, hmessage ▸ hhigh⟩
  done := by
    intro u hu hudone
    cases Locks.mem_set hu with
    | inl hmoved =>
      rw [hmoved] at hudone ⊢
      exact hdone hudone
    | inr hother =>
      obtain ⟨j, -, hj⟩ := hother
      exact h.done u (List.mem_of_getElem? hj) hudone

/-- The commit of a delivery leaves the traces of its transaction, and those of no other. -/
theorem RiskTraced.commit (h : RiskTraced threshold s) (hi : s.deliveries[i]? = some d)
    {customerId : Option Uuid} {db : Db} (hphase : d.phase = .auditInserted customerId)
    (hwrite : d.write customerId s.system.db = .ok db) :
    RiskTraced threshold (s.move i d .handled db) := by
  have hmem : d ∈ s.deliveries := List.mem_of_getElem? hi
  have hlock : d.message.transactionId ∈ d.locks := by simp [RiskDelivery.locks, hphase]
  have hhigh : threshold < d.message.amountMinor :=
    h.high d hmem (by simp [RiskDelivery.started, hphase])
  have hnone := h.writing d hmem _ hlock
  have hall : traces d.message.transactionId db = (1, 1, 1) := by
    rw [RiskDelivery.write_traces hwrite, hnone, if_pos rfl]
    rfl
  have hother : ∀ tx, d.message.transactionId ≠ tx → traces tx db = traces tx s.system.db := by
    intro tx hne
    rw [RiskDelivery.write_traces hwrite, if_neg hne]
    rfl
  refine ⟨h.exclusive.set fun tx htx => (by cases htx), ?_, ?_, ?_, ?_⟩
  · intro u hu hstarted
    cases Locks.mem_set hu with
    | inl hmoved =>
      rw [hmoved] at hstarted
      cases hstarted
    | inr hother =>
      obtain ⟨j, -, hj⟩ := hother
      exact h.high u (List.mem_of_getElem? hj) hstarted
  · intro u hu tx htx
    cases Locks.mem_set hu with
    | inl hmoved =>
      rw [hmoved] at htx
      cases htx
    | inr hmem' =>
      obtain ⟨j, hne, hj⟩ := hmem'
      -- the lock excludes that another delivery writes for the same transaction
      have hdistinct : d.message.transactionId ≠ tx := by
        rintro rfl
        exact hne (h.exclusive j i _ ⟨u, hj, htx⟩ ⟨d, hi, hlock⟩)
      exact (hother tx hdistinct).trans (h.writing u (List.mem_of_getElem? hj) tx htx)
  · intro tx
    by_cases heq : d.message.transactionId = tx
    · obtain ⟨u', hu', hmessage⟩ := message_mem_set hi .handled hmem
      exact .inr ⟨heq ▸ hall, u', hu', hmessage ▸ heq, hmessage ▸ hhigh⟩
    · cases h.settled tx with
      | inl hzero => exact .inl ((hother tx heq).trans hzero)
      | inr hone =>
        obtain ⟨htraces, u, hu, htx, hhigh⟩ := hone
        obtain ⟨u', hu', hmessage⟩ := message_mem_set hi .handled hu
        exact .inr ⟨(hother tx heq).trans htraces, u', hu', hmessage ▸ htx, hmessage ▸ hhigh⟩
  · intro u hu hdone hamount
    cases Locks.mem_set hu with
    | inl hmoved => exact hmoved ▸ hall
    | inr hmem' =>
      obtain ⟨j, -, hj⟩ := hmem'
      by_cases heq : d.message.transactionId = u.message.transactionId
      · exact heq ▸ hall
      · exact (hother _ heq).trans (h.done u (List.mem_of_getElem? hj) hdone hamount)

theorem RiskTraced.moves (h : RiskTraced threshold s) (hi : s.deliveries[i]? = some d)
    {phase : RiskPhase} {db : Db}
    (hmove : d.Moves threshold
      (Locks.heldByOther RiskDelivery.locks s.deliveries i d.message.transactionId) s.system.db
      phase db) : RiskTraced threshold (s.move i d phase db) := by
  have hmem : d ∈ s.deliveries := List.mem_of_getElem? hi
  cases hmove with
  | wait => exact h.move hi (fun tx htx => .inl htx) (h.high d hmem) (h.done d hmem)
  | fail =>
    exact h.move hi (fun tx htx => by cases htx) (fun hs => by cases hs) fun hd => by cases hd
  | below low =>
    refine h.move hi (fun tx htx => by cases htx) (fun hs => by cases hs) fun _ hhigh => ?_
    exact absurd hhigh (not_lt.mpr low)
  | read customerId high =>
    exact h.move hi (fun tx htx => by cases htx) (fun _ => high) fun hd => by cases hd
  | flagged already =>
    refine h.move hi (fun tx htx => by cases htx) (fun hs => by cases hs) fun _ _ => ?_
    cases h.settled d.message.transactionId with
    | inl hnone => exact absurd (by rw [hnone]; rfl) (flaggedAlready_iff.mp already)
    | inr hall => exact hall.1
  | insert customerId hphase new free =>
    refine h.move hi (fun tx htx => ?_) (fun _ => ?_) fun hd => by cases hd
    · obtain rfl := List.mem_singleton.mp htx
      refine .inr ⟨?_, free⟩
      cases h.settled d.message.transactionId with
      | inl hnone => exact hnone
      | inr hall =>
        have hflagged := flaggedAlready_iff.mpr (by rw [hall.1]; exact Nat.one_ne_zero)
        rw [new] at hflagged
        cases hflagged
    · exact h.high d hmem (by simp [RiskDelivery.started, hphase])
  | announce customerId hphase =>
    refine h.move hi (fun tx htx => .inl ?_) (fun _ => ?_) fun hd => by cases hd
    · simpa [RiskDelivery.locks, hphase, RiskDelivery.become] using htx
    · exact h.high d hmem (by simp [RiskDelivery.started, hphase])
  | report customerId hphase =>
    refine h.move hi (fun tx htx => .inl ?_) (fun _ => ?_) fun hd => by cases hd
    · simpa [RiskDelivery.locks, hphase, RiskDelivery.become] using htx
    · exact h.high d hmem (by simp [RiskDelivery.started, hphase])
  | commit customerId db' hphase written => exact h.commit hi hphase written
  | acknowledge hphase =>
    refine h.move hi (fun tx htx => by cases htx) (fun hs => by cases hs) fun _ hhigh => ?_
    exact h.done d hmem (by simp [RiskDelivery.done, hphase]) hhigh

/-- A step of the others that leaves the traces alone. -/
theorem RiskTraced.congr {system : System} (h : RiskTraced threshold s)
    (htraces : ∀ tx, traces tx system.db = traces tx s.system.db) :
    RiskTraced threshold { s with system := system } where
  exclusive := h.exclusive
  high := h.high
  writing := fun d hd tx htx => (htraces tx).trans (h.writing d hd tx htx)
  settled := fun tx => by
    cases h.settled tx with
    | inl hnone => exact .inl ((htraces tx).trans hnone)
    | inr hall => exact .inr ⟨(htraces tx).trans hall.1, hall.2⟩
  done := fun d hd hdone hhigh => (htraces _).trans (h.done d hd hdone hhigh)

theorem RiskTraced.deliver (h : RiskTraced threshold s) (message : TransferPosted) (draw : Draw) :
    RiskTraced threshold
      { s with deliveries := s.deliveries ++ [⟨message, draw, .received⟩] } where
  exclusive := h.exclusive.append rfl
  high := fun d hd hstarted => by
    cases List.mem_append.mp hd with
    | inl hold => exact h.high d hold hstarted
    | inr hnew =>
      rw [List.mem_singleton.mp hnew] at hstarted
      cases hstarted
  writing := fun d hd tx htx => by
    cases List.mem_append.mp hd with
    | inl hold => exact h.writing d hold tx htx
    | inr hnew =>
      rw [List.mem_singleton.mp hnew] at htx
      cases htx
  settled := fun tx => by
    cases h.settled tx with
    | inl hnone => exact .inl hnone
    | inr hall =>
      obtain ⟨htraces, d, hd, hrest⟩ := hall
      exact .inr ⟨htraces, d, List.mem_append_left _ hd, hrest⟩
  done := fun d hd hdone hhigh => by
    cases List.mem_append.mp hd with
    | inl hold => exact h.done d hold hdone hhigh
    | inr hnew =>
      rw [List.mem_singleton.mp hnew] at hdone
      cases hdone

theorem RiskTraced.step (e : RiskEvent) (h : RiskTraced threshold s) :
    RiskTraced threshold (riskStep threshold settings sca s e) := by
  cases e with
  | deliver eventId draw =>
    simp only [riskStep]
    split
    · exact h
    · split
      · exact h
      · exact h.deliver _ draw
  | advance i =>
    simp only [riskStep]
    split
    · exact h
    · rename_i d hi
      exact h.moves hi (d.advance_moves threshold _ _)
  | crash i =>
    simp only [riskStep]
    split
    · exact h
    · rename_i d hi
      split_ifs
      · exact h
      · exact h.move hi (fun tx htx => by cases htx) (fun hs => by cases hs) fun hd => by cases hd
  | manual draw transactionId severity =>
    simp only [riskStep]
    split
    · rename_i db hok
      exact h.congr fun tx => (createManualRiskAlert_watch hok).2.2
    · exact h
  | application e =>
    simp only [riskStep]
    split_ifs with hflags
    · exact h
    · exact h.congr fun tx => System.step_traces (Bool.eq_false_iff.mpr hflags)
/-- A step that leaves the transactions and their events alone, and brings no new message. -/
theorem RiskHeard.congr {s' : RiskState} (h : RiskHeard s)
    (htransactions : s'.system.db.transactions = s.system.db.transactions)
    (hrows : heardRows s'.system.db = heardRows s.system.db)
    (hmessages : ∀ d ∈ s'.deliveries, ∃ u ∈ s.deliveries, u.message = d.message) :
    RiskHeard s' := by
  have hsent : ∀ m, Sent s'.system.db m ↔ Sent s.system.db m := by
    intro m
    rw [sent_iff, sent_iff, hrows]
  refine ⟨h.recorded.congr htransactions, fun m hm => ?_, fun d hd => ?_⟩
  · rw [htransactions]
    exact h.sourced m ((hsent m).mp hm)
  · obtain ⟨u, hu, hm⟩ := hmessages d hd
    exact (hsent _).mpr (hm ▸ h.heard u hu)

theorem RiskHeard.move (h : RiskHeard s) (hi : s.deliveries[i]? = some d) {phase : RiskPhase}
    {db : Db} (htransactions : db.transactions = s.system.db.transactions)
    (hrows : heardRows db = heardRows s.system.db) : RiskHeard (s.move i d phase db) := by
  refine h.congr htransactions hrows fun u hu => ?_
  cases Locks.mem_set hu with
  | inl hmoved => exact ⟨d, List.mem_of_getElem? hi, hmoved ▸ rfl⟩
  | inr hother =>
    obtain ⟨j, -, hj⟩ := hother
    exact ⟨u, List.mem_of_getElem? hj, rfl⟩

theorem RiskHeard.moves (h : RiskHeard s) (hi : s.deliveries[i]? = some d) {blocked : Bool}
    {phase : RiskPhase} {db : Db} (hmove : d.Moves threshold blocked s.system.db phase db) :
    RiskHeard (s.move i d phase db) := by
  cases hmove with
  | commit customerId db' hphase written =>
    rw [RiskDelivery.write_ok written]
    refine h.move hi rfl ?_
    simp [heardRows, event_heard]
  | _ => exact h.move hi rfl rfl

theorem RiskHeard.step (e : RiskEvent) (h : RiskHeard s) :
    RiskHeard (riskStep threshold settings sca s e) := by
  have same : ∀ d ∈ s.deliveries, ∃ u ∈ s.deliveries, u.message = d.message :=
    fun d hd => ⟨d, hd, rfl⟩
  cases e with
  | deliver eventId draw =>
    simp only [riskStep]
    split
    · exact h
    · rename_i row hrow
      split
      · exact h
      · rename_i message hmessage
        have hfound := List.find?_some hrow
        simp only [Bool.and_eq_true] at hfound
        refine ⟨h.recorded, h.sourced, fun d hd => ?_⟩
        cases List.mem_append.mp hd with
        | inl hold => exact h.heard d hold
        | inr hnew =>
          rw [List.mem_singleton.mp hnew]
          exact ⟨row, List.mem_of_find?_eq_some hrow, hfound.2, hmessage⟩
  | advance i =>
    simp only [riskStep]
    split
    · exact h
    · rename_i d hi
      exact h.moves hi (d.advance_moves threshold _ _)
  | crash i =>
    simp only [riskStep]
    split
    · exact h
    · rename_i d hi
      split_ifs
      · exact h
      · exact h.move hi rfl rfl
  | manual draw transactionId severity =>
    simp only [riskStep]
    split
    · rename_i db hok
      have hwatch (tx : Uuid) : db.transactions = s.system.db.transactions ∧
          heardRows db = heardRows s.system.db ∧ traces tx db = traces tx s.system.db :=
        createManualRiskAlert_watch hok
      exact h.congr (hwatch transactionId).1 (hwatch transactionId).2.1 same
    · exact h
  | application e =>
    simp only [riskStep]
    split_ifs
    · exact h
    · exact ⟨System.recorded s.system e h.recorded, System.sourced s.system e h.sourced,
        fun d hd => (System.sent_step settings sca s.system e).1 _ (h.heard d hd)⟩
end Invariant

/-- In every run of the workers beside the bank and its publishers, whatever is delivered and
however often: a transaction above the threshold of which a delivery has been handled has one
alert, one event of it and one audit record; one that is not above it, or of which nothing was
delivered, has none of the three; and no transaction ever has more, or one without the others. -/
theorem risk_alert_exactly_once (threshold : Int) (settings : Settings) (sca : ScaService)
    (es : List RiskEvent) :
    let s := Runs.run (riskStep threshold settings sca) RiskState.initial es
    (∀ t ∈ s.system.db.transactions, threshold < t.amountMinor →
      (∃ d ∈ s.deliveries, d.message.transactionId = t.transactionId ∧ d.done = true) →
      traces t.transactionId s.system.db = (1, 1, 1)) ∧
    (∀ transactionId, (∀ d ∈ s.deliveries, d.message.transactionId = transactionId →
      ∃ t ∈ s.system.db.transactions, t.transactionId = transactionId ∧
        t.amountMinor ≤ threshold) → traces transactionId s.system.db = 0) ∧
    ∀ transactionId, traces transactionId s.system.db = 0 ∨
      traces transactionId s.system.db = (1, 1, 1) := by
  intro s
  have htraced : RiskTraced threshold s := Runs.run_invariant (fun _ e h => h.step e)
    ⟨Locks.exclusive_nil, fun d hd => (by cases hd), fun d hd => (by cases hd),
      fun tx => .inl rfl, fun d hd => (by cases hd)⟩ es
  have hheard : RiskHeard s := Runs.run_invariant (fun _ e h => h.step e)
    ⟨Recorded.migrated, fun m ⟨r, hr, _⟩ => (by cases hr), fun d hd => (by cases hd)⟩ es
  have hamount : ∀ d ∈ s.deliveries, ∀ t ∈ s.system.db.transactions,
      d.message.transactionId = t.transactionId → d.message.amountMinor = t.amountMinor := by
    intro d hd t ht he
    rw [← hheard.sourced.message hheard.recorded (hheard.heard d hd) ht he]
    rfl
  refine ⟨?_, ?_, fun tx => (htraced.settled tx).imp_right And.left⟩
  · rintro t ht hhigh ⟨d, hd, he, hdone⟩
    rw [← he]
    exact htraced.done d hd hdone (hamount d hd t ht he ▸ hhigh)
  · intro tx hlow
    cases htraced.settled tx with
    | inl hnone => exact hnone
    | inr hall =>
      obtain ⟨-, d, hd, rfl, hhigh⟩ := hall
      obtain ⟨t, ht, he, hle⟩ := hlow d hd rfl
      exact absurd (hamount d hd t ht he.symm ▸ hhigh) (not_lt.mpr hle)
end Bantam
