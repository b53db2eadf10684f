import Bantam.History
import Bantam.Claims

/-! The bank and its publishers together: money that commits is announced by one outbox row,
and no row is lost on its way to the broker. -/
namespace Bantam
open Tables

structure System where
  db : Db
  clock : Instant
  phases : List Phase
  broker : List Uuid
  deriving DecidableEq

inductive SystemEvent where
  | bank (e : BankEvent)
  | publisher (e : RelayEvent)
  deriving DecidableEq

namespace System

/-- The publishers' view of the system: the outbox table with their own state. -/
def relay (s : System) : Relay := ⟨s.clock, s.db.outbox, s.phases, s.broker⟩

def withRelay (s : System) (r : Relay) : System :=
  ⟨{ s.db with outbox := r.rows }, r.clock, r.phases, r.broker⟩

def initial : System := ⟨Db.migrated, 0, [], []⟩

/-- Rows enter the outbox through the operations of the bank alone. -/
def step (settings : Settings) (sca : ScaService) (s : System) : SystemEvent → System
  | .bank e => { s with db := bankStep settings sca s.db e }
  | .publisher (.enqueue _) => s
  | .publisher e => s.withRelay (relayStep s.relay e)

end System

/-- The outbox row of a committed transfer. -/
def OutboxRow.announces (r : OutboxRow) : Bool := r.aggregateType = "transaction"

/-- The transfer rows of the outbox name the transactions of the history one by one. -/
def Announced (db : Db) : Prop :=
  (db.outbox.filter OutboxRow.announces).map OutboxRow.aggregateId =
    db.transactions.map Transaction.transactionId

section Bank
variable {db db' : Db} {attempt : Attempt} {cmd : NormalisedCommand} {settings : Settings}
  {sca : ScaService}

theorem Announced.write {touched : List Uuid} (w : Write touched db db') (h : Announced db) :
    Announced db' := by
  cases w with
  | outbox id aggregateType aggregateId eventType payload now other =>
    have hne : (OutboxRow.inserted id aggregateType aggregateId eventType payload now).announces =
        false := decide_eq_false other
    unfold Announced
    rw [List.filter_append, List.filter_cons_of_neg (by simp [hne]), List.filter_nil,
      List.append_nil]
    exact h
  | _ => exact h

theorem Announced.transferred (ht : Transferred sca attempt cmd db db') (h : Announced db) :
    Announced db' := by
  obtain ⟨_, _, -, -, -, -, -, -, -, hp⟩ := ht
  have hannounce : (transferEvent attempt cmd).announces = true := rfl
  unfold Announced at *
  rw [hp.outbox, challenged_outbox, hp.transactions, challenged_transactions,
    Db.reversedTransactions_map _ fun _ => rfl, List.filter_append,
    List.filter_cons_of_pos hannounce, List.map_append, List.map_append, h]
  rfl

theorem Announced.step (e : BankEvent) (h : Announced db) :
    Announced (bankStep settings sca db e) := by
  cases e with
  | operation o =>
    simp only [bankStep]
    split
    · rename_i hok
      exact (Operation.perform_writes hok).invariant Announced.write h
    · exact h
  | transfer attempt command =>
    cases createTransfer_cases sca attempt command db with
    | inl hrefused =>
      obtain ⟨he, -⟩ := hrefused
      rw [bankStep, he]
      exact h
    | inr hcommitted =>
      obtain ⟨cmd, db', -, he, ht⟩ := hcommitted
      rw [bankStep, he]
      exact h.transferred ht

/-- A fresh pending row that an operation inserts is one that the relay accepts. -/
theorem relayStep_enqueue {s : Relay} {row : OutboxRow}
    (fresh : row.outboxEventId ∉ s.rows.map OutboxRow.outboxEventId)
    (pending : row.status = .pending) (unpublished : row.publishedAt = none) :
    relayStep s (.enqueue row) = { s with rows := s.rows ++ [row] } := by
  simp only [relayStep]
  rw [if_neg]
  simp [fresh, pending, unpublished]

/-- The outbox after an operation, as the insertions that the publishers see. -/
def Enqueues (s : Relay) (rows : List OutboxRow) : Prop :=
  ∃ added, rows = s.rows ++ added ∧
    Runs.run relayStep s (added.map .enqueue) = { s with rows := rows }

theorem Enqueues.refl (s : Relay) : Enqueues s s.rows := ⟨[], by simp, rfl⟩

theorem Enqueues.one {s : Relay} {row : OutboxRow}
    (fresh : row.outboxEventId ∉ s.rows.map OutboxRow.outboxEventId)
    (pending : row.status = .pending) (unpublished : row.publishedAt = none) :
    Enqueues s (s.rows ++ [row]) :=
  ⟨[row], rfl, relayStep_enqueue fresh pending unpublished⟩

theorem Enqueues.trans {s : Relay} {rows more : List OutboxRow} (h : Enqueues s rows)
    (h' : Enqueues { s with rows := rows } more) : Enqueues s more := by
  obtain ⟨added, rfl, hrun⟩ := h
  obtain ⟨added', rfl, hrun'⟩ := h'
  refine ⟨added ++ added', by simp, ?_⟩
  rw [List.map_append, Runs.run_append, hrun, hrun']

theorem Writes.enqueues {touched : List Uuid} (w : Writes touched db db') (s : Relay)
    (hs : s.rows = db.outbox) :
    Enqueues s db'.outbox := by
  induction w with
  | refl => exact hs ▸ Enqueues.refl s
  | @tail mid _ _ w ih =>
    cases w with
    | outbox id aggregateType aggregateId eventType payload now other fresh =>
      exact ih.trans (Enqueues.one (s := { s with rows := mid.outbox }) fresh rfl rfl)
    | _ => exact ih

/-- To the publishers, an operation of the bank is a sequence of insertions. -/
theorem bankStep_enqueues (settings : Settings) (sca : ScaService) (db : Db) (e : BankEvent)
    (s : Relay) (hs : s.rows = db.outbox) : Enqueues s (bankStep settings sca db e).outbox := by
  cases e with
  | operation o =>
    simp only [bankStep]
    split
    · rename_i hok
      exact (Operation.perform_writes hok).enqueues s hs
    · exact hs ▸ Enqueues.refl s
  | transfer attempt command =>
    cases createTransfer_cases sca attempt command db with
    | inl hrefused =>
      obtain ⟨he, -⟩ := hrefused
      rw [bankStep, he, ← hs]
      exact Enqueues.refl s
    | inr hcommitted =>
      obtain ⟨cmd, db', -, he, ht⟩ := hcommitted
      obtain ⟨_, _, -, -, -, -, -, -, -, hp⟩ := ht
      have hfresh := hp.freshEvent
      rw [bankStep, he, hp.outbox]
      rw [challenged_outbox, ← hs] at hfresh ⊢
      exact Enqueues.one hfresh rfl rfl
end Bank

section Whole
variable {settings : Settings} {sca : ScaService} {s : System}

/-- A publisher's event in the system is a relay event, except that it inserts nothing. -/
theorem System.step_publisher (settings : Settings) (sca : ScaService) (s : System)
    (e : RelayEvent) :
    System.step settings sca s (.publisher e) = s ∨
    System.step settings sca s (.publisher e) = s.withRelay (relayStep s.relay e) := by
  cases e with
  | enqueue row => exact .inl rfl
  | _ => exact .inr rfl

/-- Every run of the system is a run of the relay, seen from the publishers. -/
theorem System.simulates (settings : Settings) (sca : ScaService) (es : List SystemEvent) :
    ∃ ds, (Runs.run (System.step settings sca) System.initial es).relay =
      Runs.run relayStep Relay.initial ds := by
  refine Runs.run_simulates (I := fun _ => True) System.relay (fun _ _ _ => trivial) ?_ trivial es
  rintro s e -
  cases e with
  | bank e =>
    obtain ⟨added, -, hrun⟩ := bankStep_enqueues settings sca s.db e s.relay rfl
    exact ⟨_, hrun.symm⟩
  | publisher e =>
    cases System.step_publisher settings sca s e with
    | inl he => exact ⟨[], by rw [he]; rfl⟩
    | inr he => exact ⟨[e], by rw [he]; rfl⟩

theorem System.sound (settings : Settings) (sca : ScaService) (es : List SystemEvent) :
    (Runs.run (System.step settings sca) System.initial es).relay.Sound := by
  obtain ⟨ds, hd⟩ := System.simulates settings sca es
  rw [hd]
  exact Runs.run_invariant (fun _ e h => h.step (relayStep_step _ e)) Relay.Sound.initial ds

/-- A publisher moves a row from one status to another, and changes nothing else of it. -/
theorem relayStep_rows {r : Relay} {e : RelayEvent} {β : Type} (g : OutboxRow → β)
    (hg : ∀ (row : OutboxRow) status attempts error claimed published,
      g { row with
        status := status, publishAttempts := attempts, lastError := error,
        claimedAt := claimed, publishedAt := published } = g row)
    (he : ∀ row, e ≠ .enqueue row) : (relayStep r e).rows.map g = r.rows.map g := by
  have hstep := relayStep_step r e
  generalize relayStep r e = t at hstep
  cases hstep with
  | enqueue row => exact absurd rfl (he row)
  | recover => exact map_updateWhere g _ _ fun _ => hg _ _ _ _ _ _
  | claim => exact map_updateWhere g _ _ fun _ => hg _ _ _ _ _ _
  | release => exact map_updateWhere g _ _ fun _ => hg _ _ _ _ _ _
  | mark => exact map_updateWhere g _ _ fun _ => hg _ _ _ _ _ _
  | _ => rfl

/-- The announcements depend on the aggregate columns of the rows alone. -/
theorem announcements_eq (rows : List OutboxRow) :
    (rows.filter OutboxRow.announces).map OutboxRow.aggregateId =
      ((rows.map fun r => (r.aggregateType, r.aggregateId)).filter
        fun c => c.1 = "transaction").map Prod.snd := by
  rw [List.filter_map, List.map_map]
  rfl

theorem System.announced (s : System) (e : SystemEvent)
    (h : Recorded s.db ∧ Announced s.db) :
    Recorded (System.step settings sca s e).db ∧ Announced (System.step settings sca s e).db := by
  cases e with
  | bank e => exact ⟨h.1.step e, h.2.step e⟩
  | publisher e =>
    cases System.step_publisher settings sca s e with
    | inl he =>
      rw [he]
      exact h
    | inr he =>
      by_cases hq : ∃ row, e = .enqueue row
      · obtain ⟨row, rfl⟩ := hq
        exact h
      · rw [he]
        refine ⟨h.1.congr rfl, ?_⟩
        have hrows := relayStep_rows (r := s.relay) (e := e)
          (fun r => (r.aggregateType, r.aggregateId)) (fun _ _ _ _ _ _ => rfl)
          fun row hrow => hq ⟨row, hrow⟩
        have h2 := h.2
        unfold Announced at h2 ⊢
        rw [announcements_eq] at h2 ⊢
        exact (congrArg (fun l => (l.filter fun c : String × Uuid =>
          decide (c.1 = "transaction")).map Prod.snd) hrows).trans h2

/-- A transaction of the history is announced by exactly one row. -/
theorem Announced.once {db : Db} (hr : Recorded db) (h : Announced db) {t : Transaction}
    (ht : t ∈ db.transactions) :
    (db.outbox.filter fun r => r.announces && r.aggregateId = t.transactionId).length = 1 := by
  have hone : (db.transactions.map Transaction.transactionId).count t.transactionId = 1 :=
    List.count_eq_one_of_mem hr.idsKeyed (List.mem_map_of_mem ht)
  rw [← h, List.count, List.countP_map, List.countP_eq_length_filter, List.filter_filter] at hone
  rw [← hone]
  refine congrArg List.length (List.filter_congr fun r _ => ?_)
  simp [Bool.and_comm, beq_eq_decide]

/-- The rows of the outbox after any event are the rows before it and possibly more. -/
theorem System.outbox_grows (s : System) (e : SystemEvent) :
    s.db.outbox.map OutboxRow.outboxEventId <+:
      (System.step settings sca s e).db.outbox.map OutboxRow.outboxEventId := by
  cases e with
  | bank e =>
    obtain ⟨added, hrows, -⟩ := bankStep_enqueues settings sca s.db e s.relay rfl
    have hrows' : (System.step settings sca s (.bank e)).db.outbox = s.db.outbox ++ added := hrows
    rw [hrows', List.map_append]
    exact List.prefix_append _ _
  | publisher e =>
    cases System.step_publisher settings sca s e with
    | inl he =>
      have hsame : (System.step settings sca s (.publisher e)).db.outbox = s.db.outbox := by
        rw [he]
      exact hsame ▸ List.prefix_rfl
    | inr he =>
      by_cases hq : ∃ row, e = .enqueue row
      · obtain ⟨row, rfl⟩ := hq
        exact List.prefix_rfl
      · rw [he]
        have hids := relayStep_rows (r := s.relay) (e := e) OutboxRow.outboxEventId
          (fun _ _ _ _ _ _ => rfl) fun row hrow => hq ⟨row, hrow⟩
        exact ⟨[], by rw [List.append_nil]; exact hids.symm⟩

/-- No event is lost: each committed transaction has exactly one outbox row and each transfer
row a committed transaction, no step removes a row, a published row was taken by the broker,
and any other row is pending or under a stamped claim that recovery returns to pending. -/
theorem outbox_no_loss (settings : Settings) (sca : ScaService) (es : List SystemEvent) :
    let s := Runs.run (System.step settings sca) System.initial es
    (∀ t ∈ s.db.transactions, (s.db.outbox.filter fun r =>
      r.announces && r.aggregateId = t.transactionId).length = 1) ∧
    (∀ r ∈ s.db.outbox, r.announces = true →
      r.aggregateId ∈ s.db.transactions.map Transaction.transactionId) ∧
    (∀ e, s.db.outbox.map OutboxRow.outboxEventId <+:
      (System.step settings sca s e).db.outbox.map OutboxRow.outboxEventId) ∧
    (∀ r ∈ s.db.outbox, r.status = .published → r.outboxEventId ∈ s.broker) ∧
    (∀ r ∈ s.db.outbox, r.status ≠ .published → r.status = .pending ∨
      (r.status = .publishing ∧ ∃ at_, r.claimedAt = some at_ ∧ ∀ now, at_ < now - minutes 1 →
        ∃ r' ∈ recoverExpiredClaims now s.db.outbox,
          r'.outboxEventId = r.outboxEventId ∧ r'.status = .pending)) := by
  intro s
  have hsound : s.relay.Sound := System.sound settings sca es
  have hinit : Recorded System.initial.db ∧ Announced System.initial.db :=
    ⟨Recorded.migrated, rfl⟩
  obtain ⟨hr, ha⟩ : Recorded s.db ∧ Announced s.db :=
    Runs.run_invariant (I := fun s : System => Recorded s.db ∧ Announced s.db)
      System.announced hinit es
  refine ⟨fun t ht => ha.once hr ht, ?_, System.outbox_grows s, hsound.published, ?_⟩
  · intro r hmem hann
    rw [← ha]
    exact List.mem_map_of_mem (List.mem_filter.mpr ⟨hmem, hann⟩)
  · intro r hmem hne
    cases hs : r.status with
    | pending => exact .inl rfl
    | published => exact absurd hs hne
    | publishing =>
      obtain ⟨at_, hat⟩ := Option.isSome_iff_exists.mp (hsound.stamped r hmem hs)
      refine .inr ⟨rfl, at_, hat, fun now hnow => ?_⟩
      exact ⟨_, mem_updateWhere_of hmem (by simpa [hs, hat] using hnow), rfl, rfl⟩
end Whole
end Bantam
