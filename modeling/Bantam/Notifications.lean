import Bantam.Workers
import Bantam.Lib.Locks

/-! `create_notifications` under at-least-once delivery: each `INSERT` commits on its own, a
delivery may be lost between two of them, and the key of the table merges what is repeated. -/
namespace Bantam
open Tables

inductive NotificationDirection where
  | sent | received
  deriving DecidableEq

structure Notification where
  notificationId : Uuid
  customerId : Uuid
  eventId : Uuid
  accountId : Uuid
  direction : NotificationDirection
  notificationType : String
  subject : String
  body : String
  deriving DecidableEq

/-- Whom a notification is for, which account it is about and on which side of the transfer. -/
abbrev Addressee := Uuid × Uuid × NotificationDirection

def Notification.addressee (n : Notification) : Addressee := (n.customerId, n.accountId, n.direction)

/-- The columns of `UNIQUE (customer_id, event_id, account_id, direction)`. -/
def Notification.key (n : Notification) : Uuid × Addressee := (n.eventId, n.addressee)

/-- The digits before the point, the last one first, with a comma after every third. -/
def groupThousands : List Char → List Char
  | a :: b :: c :: d :: rest => a :: b :: c :: ',' :: groupThousands (d :: rest)
  | digits => digits

/-- `format_minor` -/
def formatMinor (amountMinor : Int) (currency : String) : String :=
  let pounds := (toString (amountMinor.natAbs / 100)).toList
  let pence := amountMinor.natAbs % 100
  Text.upper currency ++ " " ++ (if amountMinor < 0 then "-" else "") ++
    String.ofList (groupThousands pounds.reverse).reverse ++ "." ++
    String.ofList [Nat.digitChar (pence / 10), Nat.digitChar (pence % 10)]

/-- Where a delivery stands: it has selected the recipients, and inserts for one after another. -/
inductive NotificationPhase where
  | received
  | inserting (recipients : List (Uuid × Uuid))
  | handled
  | acknowledged
  | failed
  | crashed
  deriving DecidableEq

structure NotificationDelivery where
  message : TransferPosted
  phase : NotificationPhase
  deriving DecidableEq

/-- `SELECT account_id, customer_id FROM bank_accounts WHERE … AND customer_id IS NOT NULL` -/
def selectRecipients (m : TransferPosted) (db : Db) : List (Uuid × Uuid) :=
  (db.accounts.filter fun a =>
    a.accountId = m.sourceAccountId || a.accountId = m.destinationAccountId).filterMap fun a =>
      a.customerId.map fun customerId => (a.accountId, customerId)

/-- The row that is inserted for a recipient, under the id that `uuid4` has drawn. -/
def transferNotification (m : TransferPosted) (recipient : Uuid × Uuid) (id : Uuid) :
    Notification :=
  let sent := recipient.1 = m.sourceAccountId
  { notificationId := id
    customerId := recipient.2
    eventId := m.eventId
    accountId := recipient.1
    direction := if sent then .sent else .received
    notificationType := "TRANSFER_POSTED"
    subject := if sent then "Transfer sent" else "Transfer received"
    body := "You " ++ (if sent then "sent" else "received") ++ " " ++
      formatMinor m.amountMinor m.currency ++ " in a fake-money Bantam transfer." }

/-- `INSERT INTO notifications … ON CONFLICT (…) DO NOTHING` -/
def insertNotification (row : Notification) (db : Db) (rows : List Notification) :
    Except Failure (List Notification) :=
  if rows.any fun n => n.key = row.key then .ok rows
  else do
    Db.require .uniqueViolation (row.notificationId ∉ rows.map Notification.notificationId)
    Db.require .foreignKeyViolation (row.customerId ∈ db.customers.map Customer.customerId)
    Db.require .foreignKeyViolation (row.accountId ∈ db.accounts.map BankAccount.accountId)
    return rows ++ [row]

namespace NotificationDelivery

def become (d : NotificationDelivery) (phase : NotificationPhase) : NotificationDelivery :=
  { d with phase := phase }

/-- `handle` has returned. -/
def done (d : NotificationDelivery) : Bool :=
  match d.phase with
  | .handled | .acknowledged => true
  | _ => false

/-- The next statement of a delivery. The database returns the recipients in any order, of which
two rows have no other than theirs and its reverse. -/
def advance (d : NotificationDelivery) (id : Uuid) (backwards : Bool) (db : Db)
    (rows : List Notification) : NotificationPhase × List Notification :=
  match d.phase with
  | .received =>
    let recipients := selectRecipients d.message db
    (.inserting (if backwards then recipients.reverse else recipients), rows)
  | .inserting [] => (.handled, rows)
  | .inserting (recipient :: rest) =>
    match insertNotification (transferNotification d.message recipient id) db rows with
    | .ok rows => (.inserting rest, rows)
    | .error _ => (.failed, rows)
  | .handled => (.acknowledged, rows)
  | .acknowledged | .failed | .crashed => (d.phase, rows)
end NotificationDelivery

structure NotificationState where
  system : System
  notifications : List Notification
  deliveries : List NotificationDelivery

def NotificationState.initial : NotificationState := ⟨System.initial, [], []⟩

/-- `deliver` hands the event of a transfer to a worker, for the first time or again; `crash`
loses a delivery before its handler returns, but not what it has inserted. -/
inductive NotificationEvent where
  | deliver (eventId : Uuid)
  | advance (i : Nat) (id : Uuid) (backwards : Bool)
  | crash (i : Nat)
  | application (e : SystemEvent)

def notificationStep (settings : Settings) (sca : ScaService) (s : NotificationState) :
    NotificationEvent → NotificationState
  | .deliver eventId =>
    match s.system.db.outbox.find? fun r => r.outboxEventId = eventId && r.heard with
    | none => s
    | some row =>
      match decodeTransfer row with
      | none => s
      | some message => { s with deliveries := s.deliveries ++ [⟨message, .received⟩] }
  | .advance i id backwards =>
    match s.deliveries[i]? with
    | none => s
    | some d =>
      let (phase, rows) := d.advance id backwards s.system.db s.notifications
      { s with notifications := rows, deliveries := s.deliveries.set i (d.become phase) }
  | .crash i =>
    match s.deliveries[i]? with
    | none => s
    | some d =>
      if d.done then s else { s with deliveries := s.deliveries.set i (d.become .crashed) }
  | .application e => { s with system := System.step settings sca s.system e }

example : formatMinor 123456789 "gbp" = "GBP 1,234,567.89" := by decide +kernel

/-- Those whom an event is to notify: the customers who own the two accounts. -/
def addressees (m : TransferPosted) (db : Db) : List Addressee :=
  (owner db m.sourceAccountId).toList.map (fun c => (c, m.sourceAccountId, .sent)) ++
    (owner db m.destinationAccountId).toList.map fun c => (c, m.destinationAccountId, .received)

/-- The addressee of the row for a recipient. -/
def recipientAddressee (m : TransferPosted) (r : Uuid × Uuid) : Addressee :=
  (r.2, r.1, if r.1 = m.sourceAccountId then .sent else .received)

section Recipients
variable {m : TransferPosted} {db : Db}

theorem mem_addressees {x : Addressee} : x ∈ addressees m db ↔
    (owner db m.sourceAccountId = some x.1 ∧ x.2 = (m.sourceAccountId, .sent)) ∨
    (owner db m.destinationAccountId = some x.1 ∧ x.2 = (m.destinationAccountId, .received)) := by
  obtain ⟨c, a, direction⟩ := x
  simp only [addressees, List.mem_append, List.mem_map, Option.mem_toList, Prod.mk.injEq]
  constructor
  · rintro (⟨c', hc, rfl, rfl, rfl⟩ | ⟨c', hc, rfl, rfl, rfl⟩)
    · exact .inl ⟨hc, rfl, rfl⟩
    · exact .inr ⟨hc, rfl, rfl⟩
  · rintro (⟨hc, rfl, rfl⟩ | ⟨hc, rfl, rfl⟩)
    · exact .inl ⟨c, hc, rfl, rfl, rfl⟩
    · exact .inr ⟨c, hc, rfl, rfl, rfl⟩

theorem mem_selectRecipients (hkeyed : Keyed BankAccount.accountId db.accounts) {r : Uuid × Uuid} :
    r ∈ selectRecipients m db ↔
      (r.1 = m.sourceAccountId ∨ r.1 = m.destinationAccountId) ∧ owner db r.1 = some r.2 := by
  obtain ⟨accountId, c⟩ := r
  simp only [selectRecipients, List.mem_filterMap, List.mem_filter, Bool.or_eq_true,
    decide_eq_true_eq, Option.map_eq_some_iff, Prod.mk.injEq]
  constructor
  · rintro ⟨a, ⟨ha, hside⟩, c', hc, rfl, rfl⟩
    refine ⟨hside, ?_⟩
    have hfound : db.findAccount a.accountId = some a := (lookup_eq_some_iff hkeyed).mpr ⟨ha, rfl⟩
    rw [owner, hfound]
    exact hc
  · rintro ⟨hside, howner⟩
    obtain ⟨a, hfound, hc⟩ := Option.bind_eq_some_iff.mp howner
    obtain ⟨ha, rfl⟩ := (lookup_eq_some_iff hkeyed).mp hfound
    exact ⟨a, ⟨ha, hside⟩, c, hc, rfl, rfl⟩

/-- The selected recipients are the addressees. -/
theorem recipient_addressees (hkeyed : Keyed BankAccount.accountId db.accounts)
    (hdistinct : m.sourceAccountId ≠ m.destinationAccountId) {x : Addressee} :
    (∃ r ∈ selectRecipients m db, recipientAddressee m r = x) ↔ x ∈ addressees m db := by
  rw [mem_addressees]
  constructor
  · rintro ⟨r, hr, rfl⟩
    obtain ⟨hside, howner⟩ := (mem_selectRecipients hkeyed).mp hr
    cases hside with
    | inl hsource => exact .inl ⟨hsource ▸ howner, by simp [recipientAddressee, hsource]⟩
    | inr hdestination =>
      refine .inr ⟨hdestination ▸ howner, ?_⟩
      simp [recipientAddressee, hdestination, hdistinct.symm]
  · obtain ⟨c, a, direction⟩ := x
    rintro (⟨howner, heq⟩ | ⟨howner, heq⟩)
    · obtain ⟨rfl, rfl⟩ := Prod.mk.inj heq
      exact ⟨(m.sourceAccountId, c), (mem_selectRecipients hkeyed).mpr ⟨.inl rfl, howner⟩,
        by simp [recipientAddressee]⟩
    · obtain ⟨rfl, rfl⟩ := Prod.mk.inj heq
      exact ⟨(m.destinationAccountId, c), (mem_selectRecipients hkeyed).mpr ⟨.inr rfl, howner⟩,
        by simp [recipientAddressee, hdistinct.symm]⟩

theorem addressees_nodup (m : TransferPosted) (db : Db) : (addressees m db).Nodup := by
  unfold addressees
  cases owner db m.sourceAccountId <;> cases owner db m.destinationAccountId <;> simp
end Recipients

/-- The rows as far as the delivery has come: each addressee has a row, or is still to get one. -/
def NotificationDelivery.Covered (d : NotificationDelivery) (db : Db) (rows : List Notification) :
    Prop :=
  match d.phase with
  | .inserting rest =>
    (∀ r ∈ rest, recipientAddressee d.message r ∈ addressees d.message db) ∧
    ∀ x ∈ addressees d.message db, (d.message.eventId, x) ∈ rows.map Notification.key ∨
      ∃ r ∈ rest, recipientAddressee d.message r = x
  | .handled | .acknowledged =>
    ∀ x ∈ addressees d.message db, (d.message.eventId, x) ∈ rows.map Notification.key
  | _ => True

/-- The messages under way are of transactions of the history, between accounts that are there. -/
structure NotificationHeard (s : NotificationState) : Prop where
  recorded : Recorded s.system.db
  sourced : Sourced s.system.db
  accounted : Accounted s.system.db
  sound : s.system.relay.Sound
  heard : ∀ d ∈ s.deliveries, Sent s.system.db d.message

/-- No row is there twice, each is for an addressee of a message that was delivered, and the
deliveries have covered what they have passed. -/
structure Converging (s : NotificationState) : Prop where
  keyed : Keyed Notification.key s.notifications
  addressed : ∀ n ∈ s.notifications, ∃ d ∈ s.deliveries, d.message.eventId = n.eventId ∧
    n.addressee ∈ addressees d.message s.system.db
  covered : ∀ d ∈ s.deliveries, d.Covered s.system.db s.notifications

section Converge
variable {settings : Settings} {sca : ScaService} {s : NotificationState} {i : Nat}
  {d : NotificationDelivery} {db : Db} {rows rows' : List Notification}

/-- The `INSERT` finds the key or brings it. -/
theorem insertNotification_ok {row : Notification} (h : insertNotification row db rows = .ok rows') :
    (row.key ∈ rows.map Notification.key ∧ rows' = rows) ∨
    (row.key ∉ rows.map Notification.key ∧ rows' = rows ++ [row]) := by
  have hany : (rows.any fun n => n.key = row.key) = true ↔ row.key ∈ rows.map Notification.key := by
    simp
  unfold insertNotification at h
  split_ifs at h with hfound
  · cases h
    exact .inl ⟨hany.mp hfound, rfl⟩
  · simp only [bind_eq_ok, pure, Except.pure, Except.ok.injEq] at h
    obtain ⟨_, -, _, -, _, -, rfl⟩ := h
    exact .inr ⟨fun hmem => hfound (hany.mpr hmem), rfl⟩

theorem NotificationDelivery.Covered.mono (h : d.Covered db rows)
    (hrows : ∀ k ∈ rows.map Notification.key, k ∈ rows'.map Notification.key) :
    d.Covered db rows' := by
  unfold NotificationDelivery.Covered at h ⊢
  split
  · rename_i rest hp
    simp only [hp] at h
    exact ⟨h.1, fun x hx => (h.2 x hx).imp_left (hrows _)⟩
  · rename_i hp
    simp only [hp] at h
    exact fun x hx => hrows _ (h x hx)
  · rename_i hp
    simp only [hp] at h
    exact fun x hx => hrows _ (h x hx)
  · trivial

theorem NotificationDelivery.Covered.of_done (h : d.Covered db rows) (hdone : d.done = true) :
    ∀ x ∈ addressees d.message db, (d.message.eventId, x) ∈ rows.map Notification.key := by
  unfold NotificationDelivery.Covered at h
  unfold NotificationDelivery.done at hdone
  cases hp : d.phase with
  | handled =>
    simp only [hp] at h
    exact h
  | acknowledged =>
    simp only [hp] at h
    exact h
  | _ => simp [hp] at hdone

/-- What a statement of a delivery does to the rows: nothing, or one new row for an addressee. -/
def Adds (m : TransferPosted) (db : Db) (rows rows' : List Notification) : Prop :=
  rows' = rows ∨ ∃ n, rows' = rows ++ [n] ∧ n.key ∉ rows.map Notification.key ∧
    n.eventId = m.eventId ∧ n.addressee ∈ addressees m db

theorem NotificationDelivery.advance_covered (id : Uuid) (backwards : Bool)
    (hkeyed : Keyed BankAccount.accountId db.accounts)
    (hdistinct : d.message.sourceAccountId ≠ d.message.destinationAccountId)
    (h : d.Covered db rows) :
    (d.become (d.advance id backwards db rows).1).Covered db (d.advance id backwards db rows).2 ∧
      Adds d.message db rows (d.advance id backwards db rows).2 := by
  unfold NotificationDelivery.Covered at h
  unfold NotificationDelivery.advance
  cases hp : d.phase with
  | received =>
    have hmem : ∀ r, r ∈ (if backwards then (selectRecipients d.message db).reverse
        else selectRecipients d.message db) ↔ r ∈ selectRecipients d.message db := by
      intro r
      split <;> simp
    refine ⟨⟨fun r hr => ?_, fun x hx => .inr ?_⟩, .inl rfl⟩
    · exact (recipient_addressees hkeyed hdistinct).mp ⟨r, (hmem r).mp hr, rfl⟩
    · obtain ⟨r, hr, he⟩ := (recipient_addressees hkeyed hdistinct).mpr hx
      exact ⟨r, (hmem r).mpr hr, he⟩
  | inserting recipients =>
    simp only [hp] at h
    cases recipients with
    | nil =>
      refine ⟨fun x hx => ?_, .inl rfl⟩
      cases h.2 x hx with
      | inl hin => exact hin
      | inr hrest =>
        obtain ⟨r, hr, -⟩ := hrest
        cases hr
    | cons recipient rest =>
      simp only
      split
      · rename_i rows' hok
        have haddressee := h.1 recipient List.mem_cons_self
        have covered : ∀ rows', (∀ k ∈ rows.map Notification.key, k ∈ rows'.map Notification.key) →
            (d.message.eventId, recipientAddressee d.message recipient) ∈
              rows'.map Notification.key →
            (d.become (.inserting rest)).Covered db rows' := by
          intro rows' hmono hnew
          refine ⟨fun r hr => h.1 r (List.mem_cons_of_mem _ hr), fun x hx => ?_⟩
          cases h.2 x hx with
          | inl hin => exact .inl (hmono _ hin)
          | inr hrest =>
            obtain ⟨r, hr, he⟩ := hrest
            cases List.mem_cons.mp hr with
            | inl hhead =>
              rw [← he, hhead]
              exact .inl hnew
            | inr hr => exact .inr ⟨r, hr, he⟩
        cases insertNotification_ok hok with
        | inl hfound =>
          obtain ⟨hin, rfl⟩ := hfound
          exact ⟨covered rows' (fun k hk => hk) hin, .inl rfl⟩
        | inr hinserted =>
          obtain ⟨hnew, rfl⟩ := hinserted
          refine ⟨covered _ (fun k hk => ?_) ?_, .inr ⟨_, rfl, hnew, rfl, haddressee⟩⟩
          · rw [List.map_append]
            exact List.mem_append_left _ hk
          · rw [List.map_append]
            exact List.mem_append_right _ List.mem_cons_self
      · exact ⟨trivial, .inl rfl⟩
  | handled =>
    simp only [hp] at h
    exact ⟨h, .inl rfl⟩
  | acknowledged =>
    simp only [hp] at h
    exact ⟨h, .inl rfl⟩
  | failed => exact ⟨trivial, .inl rfl⟩
  | crashed => exact ⟨trivial, .inl rfl⟩

theorem NotificationHeard.distinct (h : NotificationHeard s) {d : NotificationDelivery}
    (hd : d ∈ s.deliveries) : d.message.sourceAccountId ≠ d.message.destinationAccountId := by
  obtain ⟨t, -, hm⟩ := h.sourced _ (h.heard d hd)
  rw [← hm]
  exact t.distinct

theorem NotificationHeard.step (e : NotificationEvent) (h : NotificationHeard s) :
    NotificationHeard (notificationStep settings sca s e) := by
  have moved : ∀ i d phase, s.deliveries[i]? = some d →
      ∀ u ∈ s.deliveries.set i (d.become phase), Sent s.system.db u.message := by
    intro i d phase hi u hu
    cases Locks.mem_set hu with
    | inl hmoved =>
      rw [hmoved]
      exact h.heard d (List.mem_of_getElem? hi)
    | inr hother =>
      obtain ⟨j, -, hj⟩ := hother
      exact h.heard u (List.mem_of_getElem? hj)
  cases e with
  | deliver eventId =>
    simp only [notificationStep]
    split
    · exact h
    · rename_i row hrow
      split
      · exact h
      · rename_i message hmessage
        have hfound := List.find?_some hrow
        simp only [Bool.and_eq_true] at hfound
        refine { h with heard := fun d hd => ?_ }
        cases List.mem_append.mp hd with
        | inl hold => exact h.heard d hold
        | inr hnew =>
          rw [List.mem_singleton.mp hnew]
          exact ⟨row, List.mem_of_find?_eq_some hrow, hfound.2, hmessage⟩
  | advance i id backwards =>
    simp only [notificationStep]
    split
    · exact h
    · rename_i d hi
      exact { h with heard := moved i d _ hi }
  | crash i =>
    simp only [notificationStep]
    split
    · exact h
    · rename_i d hi
      split_ifs
      · exact h
      · exact { h with heard := moved i d _ hi }
  | application e =>
    exact ⟨System.recorded s.system e h.recorded, System.sourced s.system e h.sourced,
      System.accounted s.system e h.accounted, System.sound_step s.system e h.sound,
      fun d hd => (System.sent_step settings sca s.system e).1 _ (h.heard d hd)⟩

/-- The addressees of a message under way stay as they are. -/
theorem NotificationHeard.addressees (h : NotificationHeard s) (e : SystemEvent)
    {d : NotificationDelivery} (hd : d ∈ s.deliveries) :
    addressees d.message (System.step settings sca s.system e).db =
      addressees d.message s.system.db := by
  obtain ⟨t, ht, hm⟩ := h.sourced _ (h.heard d hd)
  have hkept := OwnersKept.system settings sca s.system e
  have haccounted : Accounted (System.step settings sca s.system e).db :=
    System.accounted s.system e h.accounted
  have hkeyed := haccounted.keyed
  have hplaced := h.accounted.placed t ht
  have hsource : d.message.sourceAccountId = t.sourceAccountId := by
    rw [← hm]
    rfl
  have hdestination : d.message.destinationAccountId = t.destinationAccountId := by
    rw [← hm]
    rfl
  unfold Bantam.addressees
  rw [hsource, hdestination, hkept.owner h.accounted.keyed hkeyed hplaced.1,
    hkept.owner h.accounted.keyed hkeyed hplaced.2]

/-- A delivery moves on, and may bring a row for an addressee of its message. -/
theorem Converging.move (h : Converging s) (hi : s.deliveries[i]? = some d)
    {phase : NotificationPhase} (hcovered : (d.become phase).Covered s.system.db rows)
    (hadds : Adds d.message s.system.db s.notifications rows) :
    Converging { s with
      notifications := rows, deliveries := s.deliveries.set i (d.become phase) } := by
  have kept : ∀ u ∈ s.deliveries, ∃ u' ∈ s.deliveries.set i (d.become phase),
      u'.message = u.message := fun u hu =>
    Locks.exists_mem_set (f := NotificationDelivery.message) (t := d.become phase) hi rfl hu
  have addressed : ∀ n : Notification, (∃ u ∈ s.deliveries, u.message.eventId = n.eventId ∧
      n.addressee ∈ addressees u.message s.system.db) →
      ∃ u ∈ s.deliveries.set i (d.become phase), u.message.eventId = n.eventId ∧
        n.addressee ∈ addressees u.message s.system.db := by
    rintro n ⟨u, hu, hid, haddressee⟩
    obtain ⟨u', hu', hm⟩ := kept u hu
    exact ⟨u', hu', hm ▸ hid, hm ▸ haddressee⟩
  have others : (∀ k ∈ s.notifications.map Notification.key, k ∈ rows.map Notification.key) →
      ∀ u ∈ s.deliveries.set i (d.become phase), u.Covered s.system.db rows := by
    intro hmono u hu
    cases Locks.mem_set hu with
    | inl hmoved => exact hmoved ▸ hcovered
    | inr hother =>
      obtain ⟨j, -, hj⟩ := hother
      exact (h.covered u (List.mem_of_getElem? hj)).mono hmono
  cases hadds with
  | inl hsame =>
    obtain rfl := hsame
    exact ⟨h.keyed, fun n hn => addressed n (h.addressed n hn), others fun k hk => hk⟩
  | inr hnew =>
    obtain ⟨n, rfl, hfresh, hid, haddressee⟩ := hnew
    refine ⟨keyed_append_one.mpr ⟨h.keyed, hfresh⟩, fun n' hn' => ?_, others fun k hk => ?_⟩
    · cases List.mem_append.mp hn' with
      | inl hold => exact addressed n' (h.addressed n' hold)
      | inr hnew =>
        rw [List.mem_singleton.mp hnew]
        exact addressed n ⟨d, List.mem_of_getElem? hi, hid.symm, haddressee⟩
    · rw [List.map_append]
      exact List.mem_append_left _ hk

theorem Converging.step (e : NotificationEvent) (hheard : NotificationHeard s)
    (h : Converging s) : Converging (notificationStep settings sca s e) := by
  cases e with
  | deliver eventId =>
    simp only [notificationStep]
    split
    · exact h
    · split
      · exact h
      · refine { h with addressed := fun n hn => ?_, covered := fun d hd => ?_ }
        · obtain ⟨d, hd, hrest⟩ := h.addressed n hn
          exact ⟨d, List.mem_append_left _ hd, hrest⟩
        · cases List.mem_append.mp hd with
          | inl hold => exact h.covered d hold
          | inr hnew =>
            rw [List.mem_singleton.mp hnew]
            trivial
  | advance i id backwards =>
    simp only [notificationStep]
    split
    · exact h
    · rename_i d hi
      have hd : d ∈ s.deliveries := List.mem_of_getElem? hi
      obtain ⟨hcovered, hadds⟩ := NotificationDelivery.advance_covered id backwards
        hheard.accounted.keyed (hheard.distinct hd) (h.covered d hd)
      exact h.move hi hcovered hadds
  | crash i =>
    simp only [notificationStep]
    split
    · exact h
    · rename_i d hi
      split_ifs
      · exact h
      · exact h.move hi trivial (.inl rfl)
  | application e =>
    refine ⟨h.keyed, fun n hn => ?_, fun d hd => ?_⟩
    · obtain ⟨d, hd, hid, haddressee⟩ := h.addressed n hn
      exact ⟨d, hd, hid, (hheard.addressees e hd).symm ▸ haddressee⟩
    · have hcovered := h.covered d hd
      have hsame : addressees d.message (System.step settings sca s.system e).db =
          addressees d.message s.system.db := hheard.addressees e hd
      unfold NotificationDelivery.Covered at hcovered ⊢
      simp only [notificationStep, hsame]
      exact hcovered

theorem converging_run (settings : Settings) (sca : ScaService) (es : List NotificationEvent) :
    NotificationHeard (Runs.run (notificationStep settings sca) NotificationState.initial es) ∧
      Converging (Runs.run (notificationStep settings sca) NotificationState.initial es) := by
  refine Runs.run_invariant (I := fun s => NotificationHeard s ∧ Converging s)
    (fun _ e h => ⟨h.1.step e, h.2.step e h.1⟩) ⟨?_, ?_⟩ es
  · refine ⟨Recorded.migrated, ?_, ⟨keyed_nil, fun t ht => (by cases ht)⟩, Relay.Sound.initial,
      fun d hd => (by cases hd)⟩
    rintro m ⟨r, hr, -⟩
    cases hr
  · exact ⟨keyed_nil, fun n hn => (by cases hn), fun d hd => (by cases hd)⟩
end Converge

/-- In every run of the workers beside the bank and its publishers, whatever is delivered and
however often: once a delivery of an event has been handled, the notifications of the event are
exactly one for each customer-owned side of the transfer, addressed to the owner, also where one
customer owns both; before that there is no other and no second one, and without a delivery none. -/
theorem notifications_converge (settings : Settings) (sca : ScaService)
    (es : List NotificationEvent) :
    let s := Runs.run (notificationStep settings sca) NotificationState.initial es
    (∀ d ∈ s.deliveries,
      let found := (s.notifications.filter fun n => n.eventId = d.message.eventId).map
        Notification.addressee
      (d.done = true → found.Perm (addressees d.message s.system.db)) ∧
      found.Subperm (addressees d.message s.system.db)) ∧
    ∀ n ∈ s.notifications, ∃ d ∈ s.deliveries, d.message.eventId = n.eventId := by
  intro s
  obtain ⟨hheard, h⟩ := converging_run settings sca es
  refine ⟨fun d hd => ?_, fun n hn => ?_⟩
  · intro found
    have hrow : ∀ n ∈ s.notifications.filter (fun n => n.eventId = d.message.eventId),
        n ∈ s.notifications ∧ n.eventId = d.message.eventId := fun n hn => by
      simpa using List.mem_filter.mp hn
    have hnodup : found.Nodup := by
      refine List.Nodup.map_on (fun n hn n' hn' he => ?_) ((List.Nodup.of_map _ h.keyed).filter _)
      have hkey : n.key = n'.key := Prod.ext ((hrow n hn).2.trans (hrow n' hn').2.symm) he
      exact h.keyed.eq_of_key (hrow n hn).1 (hrow n' hn').1 hkey
    have hsubset : found ⊆ addressees d.message s.system.db := by
      intro x hx
      obtain ⟨n, hn, rfl⟩ := List.mem_map.mp hx
      obtain ⟨u, hu, hid, haddressee⟩ := h.addressed n (hrow n hn).1
      have hmessage : u.message = d.message := (hheard.heard u hu).unique (hheard.heard d hd)
        hheard.sound.keyed (hid.trans (hrow n hn).2)
      exact hmessage ▸ haddressee
    refine ⟨fun hdone => ?_, List.subperm_of_subset hnodup hsubset⟩
    refine (List.perm_ext_iff_of_nodup hnodup (addressees_nodup _ _)).mpr fun x =>
      ⟨fun hx => hsubset hx, fun hx => ?_⟩
    obtain ⟨n, hn, he⟩ := List.mem_map.mp ((h.covered d hd).of_done hdone x hx)
    obtain ⟨hid, rfl⟩ := Prod.mk.inj he
    exact List.mem_map_of_mem (List.mem_filter.mpr ⟨hn, decide_eq_true hid⟩)
  · obtain ⟨d, hd, hid, -⟩ := h.addressed n hn
    exact ⟨d, hd, hid⟩
end Bantam
