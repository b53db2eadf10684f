import Bantam.Schema
import Bantam.Lib.Runs
import Mathlib.Data.List.Sort

/-! `OutboxPublisher`: any number of publishers over one outbox table. Every database
transaction of a publisher is one step; its `now()` is fixed when it starts and may lie
behind the clock. The publish call takes as many steps as the clock makes meanwhile. -/
namespace Bantam
open Tables

/-- The event in memory, with the stamp that the claim wrote for it. -/
structure Claim where
  eventId : Uuid
  claimedAt : Instant
  deriving DecidableEq

/-- Where a publisher stands in `publish_batch`; `left` counts the rounds that remain. -/
inductive Phase where
  | idle
  | recovering
  | looping (left : Nat)
  | selected (left : Nat) (claim : Claim)
  | publishing (left : Nat) (claim : Claim)
  | releasing (claim : Claim) (error : String)
  | marking (left : Nat) (claim : Claim)
  deriving DecidableEq

/-- The row that the phase keeps locked between its `SELECT … FOR UPDATE` and the commit. -/
def Phase.locks : Phase → Option Uuid
  | .selected _ claim => some claim.eventId
  | _ => none

/-- The claim that the publisher has committed and not yet settled. -/
def Phase.claim? : Phase → Option Claim
  | .publishing _ claim => some claim
  | .releasing claim _ => some claim
  | .marking _ claim => some claim
  | _ => none

/-- `broker` lists the events whose publish call returned. -/
structure Relay where
  clock : Instant
  rows : List OutboxRow
  phases : List Phase
  broker : List Uuid
  deriving DecidableEq

/-- A claim stands until recovery may take it: for one minute. -/
def unexpired (clock claimedAt : Instant) : Prop := clock - minutes 1 ≤ claimedAt

instance (clock claimedAt : Instant) : Decidable (unexpired clock claimedAt) :=
  inferInstanceAs (Decidable (_ ≤ _))

/-- A claim that stands now stood at every earlier moment. -/
theorem unexpired_earlier {now clock claimedAt : Instant} (past : now ≤ clock)
    (h : unexpired clock claimedAt) : unexpired now claimedAt :=
  Int.le_trans (Int.sub_le_sub_right past _) h

/-- The `UPDATE` of `_recover_expired_claims`. -/
def recoverExpiredClaims (now : Instant) (rows : List OutboxRow) : List OutboxRow :=
  updateWhere (fun r => r.status = .publishing && r.claimedAt.any (· < now - minutes 1))
    (fun r => { r with
      status := .pending, claimedAt := none,
      lastError := some "publisher claim expired before acknowledgement" }) rows

/-- The `UPDATE` of `_claim`. -/
def claimRow (claim : Claim) (rows : List OutboxRow) : List OutboxRow :=
  updateWhere (fun r => r.outboxEventId = claim.eventId)
    (fun r => { r with
      status := .publishing, publishAttempts := r.publishAttempts + 1,
      claimedAt := some claim.claimedAt }) rows

/-- The `UPDATE` of `_release`. -/
def releaseRow (eventId : Uuid) (error : String) (rows : List OutboxRow) : List OutboxRow :=
  updateWhere (fun r => r.outboxEventId = eventId)
    (fun r => { r with
      status := .pending, claimedAt := none,
      lastError := some (String.ofList (error.toList.take 2000)) }) rows

/-- The `UPDATE` of `_mark_published`. -/
def markPublished (eventId : Uuid) (now : Instant) (rows : List OutboxRow) : List OutboxRow :=
  updateWhere (fun r => r.outboxEventId = eventId)
    (fun r => { r with
      status := .published, publishedAt := some now, claimedAt := none, lastError := none }) rows

namespace Relay

def initial : Relay := ⟨0, [], [], []⟩

def become (s : Relay) (p : Nat) (phase : Phase) : Relay :=
  { s with phases := s.phases.set p phase }

def locked (s : Relay) (id : Uuid) : Bool := s.phases.any fun phase => phase.locks = some id

/-- The row that `SELECT … ORDER BY created_at FOR UPDATE SKIP LOCKED LIMIT 1` returns. -/
def nextPending (s : Relay) : Option OutboxRow :=
  ((s.rows.filter fun r => r.status = .pending && !s.locked r.outboxEventId).insertionSort
    fun r q => r.createdAt ≤ q.createdAt).head?

end Relay

inductive RelayEvent where
  | tick (elapsed : Nat)
  | spawn
  | enqueue (row : OutboxRow)
  | start (p : Nat)
  | recover (p : Nat) (now : Instant)
  | select (p : Nat) (now : Instant)
  | claim (p : Nat)
  | delivered (p : Nat)
  | failed (p : Nat) (error : String)
  | release (p : Nat)
  | mark (p : Nat) (now : Instant)
  | crash (p : Nat)
  deriving DecidableEq

/-- One step. An `UPDATE` of a row that another transaction has locked waits, and so does
nothing here; a crash, or a database error, ends the batch and rolls back. -/
def relayStep (s : Relay) : RelayEvent → Relay
  | .tick elapsed => { s with clock := s.clock + elapsed }
  | .spawn => { s with phases := s.phases ++ [.idle] }
  | .enqueue row =>
    if row.outboxEventId ∈ s.rows.map OutboxRow.outboxEventId ∨ row.status ≠ .pending ∨
        row.publishedAt ≠ none then s
    else { s with rows := s.rows ++ [row] }
  | .start p =>
    match s.phases[p]? with
    | some .idle => s.become p .recovering
    | _ => s
  | .recover p now =>
    match s.phases[p]? with
    | some .recovering =>
      if s.clock < now then s
      else { s with rows := recoverExpiredClaims now s.rows }.become p (.looping 50)
    | _ => s
  | .select p now =>
    match s.phases[p]? with
    | some (.looping 0) => s.become p .idle
    | some (.looping (left + 1)) =>
      if s.clock < now then s
      else
        match s.nextPending with
        | none => s.become p .idle
        | some row => s.become p (.selected left ⟨row.outboxEventId, now⟩)
    | _ => s
  | .claim p =>
    match s.phases[p]? with
    | some (.selected left claim) =>
      { s with rows := claimRow claim s.rows }.become p (.publishing left claim)
    | _ => s
  | .delivered p =>
    match s.phases[p]? with
    | some (.publishing left claim) =>
      { s with broker := s.broker ++ [claim.eventId] }.become p (.marking left claim)
    | _ => s
  | .failed p error =>
    match s.phases[p]? with
    | some (.publishing _ claim) => s.become p (.releasing claim error)
    | _ => s
  | .release p =>
    match s.phases[p]? with
    | some (.releasing claim error) =>
      if s.locked claim.eventId then s
      else { s with rows := releaseRow claim.eventId error s.rows }.become p .idle
    | _ => s
  | .mark p now =>
    match s.phases[p]? with
    | some (.marking left claim) =>
      if s.locked claim.eventId ∨ s.clock < now then s
      else { s with rows := markPublished claim.eventId now s.rows }.become p (.looping left)
    | _ => s
  | .crash p => s.become p .idle

/-- What an event does where it does anything, with the guards it passed. -/
inductive Relay.Step (s : Relay) : RelayEvent → Relay → Prop where
  | stutter (e : RelayEvent) : Step s e s
  | tick (elapsed : Nat) : Step s (.tick elapsed) { s with clock := s.clock + elapsed }
  | spawn : Step s .spawn { s with phases := s.phases ++ [.idle] }
  | enqueue (row : OutboxRow) (fresh : row.outboxEventId ∉ s.rows.map OutboxRow.outboxEventId)
      (pending : row.status = .pending) (unpublished : row.publishedAt = none) :
      Step s (.enqueue row) { s with rows := s.rows ++ [row] }
  /-- Steps that leave the rows and drop the claim, if the publisher had one. -/
  | quiet (e : RelayEvent) (p : Nat) (phase : Phase) (unlocking : phase.locks = none)
      (unclaimed : phase.claim? = none) : Step s e (s.become p phase)
  | recover (p : Nat) (now : Instant) (past : now ≤ s.clock) :
      Step s (.recover p now)
        ({ s with rows := recoverExpiredClaims now s.rows }.become p (.looping 50))
  | select (p : Nat) (now : Instant) (left : Nat) (row : OutboxRow) (past : now ≤ s.clock)
      (mem : row ∈ s.rows) (pending : row.status = .pending)
      (free : s.locked row.outboxEventId = false) :
      Step s (.select p now) (s.become p (.selected left ⟨row.outboxEventId, now⟩))
  | claim (p left : Nat) (claim : Claim) (at_ : s.phases[p]? = some (.selected left claim)) :
      Step s (.claim p)
        ({ s with rows := claimRow claim s.rows }.become p (.publishing left claim))
  | delivered (p left : Nat) (claim : Claim)
      (at_ : s.phases[p]? = some (.publishing left claim)) :
      Step s (.delivered p)
        ({ s with broker := s.broker ++ [claim.eventId] }.become p (.marking left claim))
  | failed (p left : Nat) (claim : Claim) (error : String)
      (at_ : s.phases[p]? = some (.publishing left claim)) :
      Step s (.failed p error) (s.become p (.releasing claim error))
  | release (p : Nat) (claim : Claim) (error : String)
      (at_ : s.phases[p]? = some (.releasing claim error))
      (free : s.locked claim.eventId = false) :
      Step s (.release p)
        ({ s with rows := releaseRow claim.eventId error s.rows }.become p .idle)
  | mark (p left : Nat) (claim : Claim) (now : Instant)
      (at_ : s.phases[p]? = some (.marking left claim))
      (free : s.locked claim.eventId = false) (past : now ≤ s.clock) :
      Step s (.mark p now)
        ({ s with rows := markPublished claim.eventId now s.rows }.become p (.looping left))

section
variable {s : Relay}

theorem Relay.nextPending_some {row : OutboxRow} (h : s.nextPending = some row) :
    row ∈ s.rows ∧ row.status = .pending ∧ s.locked row.outboxEventId = false := by
  have hm := (List.mem_insertionSort _).mp (List.mem_of_head? h)
  simpa using hm

theorem relayStep_step (s : Relay) (e : RelayEvent) : Relay.Step s e (relayStep s e) := by
  cases e with
  | tick elapsed => exact .tick elapsed
  | spawn => exact .spawn
  | enqueue row =>
    simp only [relayStep]
    split_ifs with h
    · exact .stutter _
    · simp only [not_or, not_not] at h
      exact .enqueue row h.1 h.2.1 h.2.2
  | start p =>
    simp only [relayStep]
    split
    · exact .quiet _ p _ rfl rfl
    · exact .stutter _
  | recover p now =>
    simp only [relayStep]
    split
    · split_ifs with h
      · exact .stutter _
      · exact .recover p now (Int.not_lt.mp h)
    · exact .stutter _
  | select p now =>
    simp only [relayStep]
    split
    · exact .quiet _ p _ rfl rfl
    · split_ifs with h
      · exact .stutter _
      · split
        · exact .quiet _ p _ rfl rfl
        · rename_i row hrow
          obtain ⟨hm, hp, hf⟩ := Relay.nextPending_some hrow
          exact .select p now _ row (Int.not_lt.mp h) hm hp hf
    · exact .stutter _
  | claim p =>
    simp only [relayStep]
    split
    · rename_i h
      exact .claim p _ _ h
    · exact .stutter _
  | delivered p =>
    simp only [relayStep]
    split
    · rename_i h
      exact .delivered p _ _ h
    · exact .stutter _
  | failed p error =>
    simp only [relayStep]
    split
    · rename_i h
      exact .failed p _ _ error h
    · exact .stutter _
  | release p =>
    simp only [relayStep]
    split
    · rename_i h
      split_ifs with hl
      · exact .stutter _
      · exact .release p _ _ h (by simpa using hl)
    · exact .stutter _
  | mark p now =>
    simp only [relayStep]
    split
    · rename_i h
      split_ifs with hl
      · exact .stutter _
      · simp only [not_or] at hl
        exact .mark p _ _ now h (by simpa using hl.1) (Int.not_lt.mp hl.2)
    · exact .stutter _
  | crash p => exact .quiet _ p _ rfl rfl
end
end Bantam
