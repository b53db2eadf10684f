import Bantam.Outbox
import Bantam.Lib.Locks

/-! Invariants of the publishers: which rows a claim locks and stamps, when PUBLISHED is
absorbing, and when a claim belongs to one publisher. -/
namespace Bantam
open Tables
variable {s : Relay} {e : RelayEvent}

namespace Relay

def Locks (s : Relay) (p : Nat) (id : Uuid) : Prop :=
  ∃ phase, s.phases[p]? = some phase ∧ phase.locks = some id

def Claims (s : Relay) (p : Nat) (claim : Claim) : Prop :=
  ∃ phase, s.phases[p]? = some phase ∧ phase.claim? = some claim

/-- The publisher holds a claim on the row, and recovery may not take it yet. -/
def Holds (s : Relay) (p : Nat) (id : Uuid) : Prop :=
  ∃ claim, s.Claims p claim ∧ claim.eventId = id ∧ unexpired s.clock claim.claimedAt

section Lookup
variable {p q : Nat} {id : Uuid} {phase : Phase} {claim : Claim}

theorem locked_iff : s.locked id = true ↔ ∃ p, s.Locks p id := by
  simp only [locked, List.any_eq_true, decide_eq_true_eq, Locks]
  constructor
  · rintro ⟨phase, hm, hl⟩
    obtain ⟨p, hp⟩ := List.mem_iff_getElem?.mp hm
    exact ⟨p, phase, hp, hl⟩
  · rintro ⟨p, phase, hp, hl⟩
    exact ⟨phase, List.mem_of_getElem? hp, hl⟩

@[simp] theorem become_rows : (s.become p phase).rows = s.rows := rfl
@[simp] theorem become_clock : (s.become p phase).clock = s.clock := rfl
@[simp] theorem become_broker : (s.become p phase).broker = s.broker := rfl

/-- After a move of `p` every other publisher is where it was. -/
theorem become_getElem? {x : Phase} (h : (s.become p phase).phases[q]? = some x) :
    (q = p ∧ x = phase) ∨ (q ≠ p ∧ s.phases[q]? = some x) :=
  Locks.getElem?_set h

theorem locks_become (h : (s.become p phase).Locks q id) :
    (q = p ∧ phase.locks = some id) ∨ (q ≠ p ∧ s.Locks q id) := by
  obtain ⟨x, hx, hl⟩ := h
  cases become_getElem? hx with
  | inl hmoved =>
    obtain ⟨rfl, rfl⟩ := hmoved
    exact .inl ⟨rfl, hl⟩
  | inr hother =>
    obtain ⟨hne, hx⟩ := hother
    exact .inr ⟨hne, x, hx, hl⟩

theorem claims_become (h : (s.become p phase).Claims q claim) :
    (q = p ∧ phase.claim? = some claim) ∨ (q ≠ p ∧ s.Claims q claim) := by
  obtain ⟨x, hx, hl⟩ := h
  cases become_getElem? hx with
  | inl hmoved =>
    obtain ⟨rfl, rfl⟩ := hmoved
    exact .inl ⟨rfl, hl⟩
  | inr hother =>
    obtain ⟨hne, hx⟩ := hother
    exact .inr ⟨hne, x, hx, hl⟩

theorem spawn_getElem? {x : Phase} (h : (s.phases ++ [Phase.idle])[q]? = some x) :
    s.phases[q]? = some x ∨ x = .idle := by
  rw [List.getElem?_append] at h
  split_ifs at h with hl
  · exact .inl h
  · right
    rw [List.getElem?_singleton] at h
    split_ifs at h
    exact (Option.some.inj h).symm
end Lookup
end Relay

section Rows
variable {rows : List OutboxRow} {r : OutboxRow} {claim : Claim} {eventId : Uuid}
  {error : String} {now : Instant}

theorem recoverExpiredClaims_ids :
    (recoverExpiredClaims now rows).map OutboxRow.outboxEventId =
      rows.map OutboxRow.outboxEventId :=
  map_updateWhere _ _ _ fun _ => rfl

theorem mem_recoverExpiredClaims (h : r ∈ recoverExpiredClaims now rows) :
    r ∈ rows ∨ ∃ q ∈ rows, q.status = .publishing ∧ r.outboxEventId = q.outboxEventId ∧
      r.status = .pending ∧ r.claimedAt = none ∧ r.publishedAt = q.publishedAt := by
  cases updateWhere_cases h with
  | inl hold => exact .inl hold.1
  | inr hnew =>
    obtain ⟨q, hq, hc, rfl⟩ := hnew
    simp only [Bool.and_eq_true, decide_eq_true_eq] at hc
    exact .inr ⟨q, hq, hc.1, rfl, rfl, rfl, rfl⟩

/-- Recovery leaves alone every row that is not under an expired claim. -/
theorem mem_recoverExpiredClaims_of (h : r ∈ rows)
    (hr : r.status = .publishing → ∃ at_, r.claimedAt = some at_ ∧ now - minutes 1 ≤ at_) :
    r ∈ recoverExpiredClaims now rows := by
  refine mem_updateWhere_of_not h ?_
  cases hs : r.status with
  | publishing =>
    obtain ⟨at_, hc, hle⟩ := hr hs
    simpa [hc] using hle
  | _ => simp

theorem mem_claimRow (h : r ∈ claimRow claim rows) :
    (r ∈ rows ∧ r.outboxEventId ≠ claim.eventId) ∨
    ∃ q ∈ rows, q.outboxEventId = claim.eventId ∧ r.outboxEventId = q.outboxEventId ∧
      r.status = .publishing ∧ r.claimedAt = some claim.claimedAt ∧
      r.publishedAt = q.publishedAt := by
  cases updateWhere_cases h with
  | inl hold => exact .inl ⟨hold.1, of_decide_eq_false hold.2⟩
  | inr hnew =>
    obtain ⟨q, hq, hc, rfl⟩ := hnew
    exact .inr ⟨q, hq, of_decide_eq_true hc, rfl, rfl, rfl, rfl⟩

theorem mem_releaseRow (h : r ∈ releaseRow eventId error rows) :
    (r ∈ rows ∧ r.outboxEventId ≠ eventId) ∨
    ∃ q ∈ rows, q.outboxEventId = eventId ∧ r.outboxEventId = q.outboxEventId ∧
      r.status = .pending ∧ r.claimedAt = none ∧ r.publishedAt = q.publishedAt := by
  cases updateWhere_cases h with
  | inl hold => exact .inl ⟨hold.1, of_decide_eq_false hold.2⟩
  | inr hnew =>
    obtain ⟨q, hq, hc, rfl⟩ := hnew
    exact .inr ⟨q, hq, of_decide_eq_true hc, rfl, rfl, rfl, rfl⟩

theorem mem_markPublished (h : r ∈ markPublished eventId now rows) :
    (r ∈ rows ∧ r.outboxEventId ≠ eventId) ∨
    (r.outboxEventId = eventId ∧ r.status = .published ∧ r.publishedAt = some now) := by
  cases updateWhere_cases h with
  | inl hold => exact .inl ⟨hold.1, of_decide_eq_false hold.2⟩
  | inr hnew =>
    obtain ⟨q, -, hc, rfl⟩ := hnew
    exact .inr ⟨of_decide_eq_true hc, rfl, rfl⟩
end Rows

/-- What holds in every state, whatever the publishers do: rows are told apart by their
ids, a locked row is pending under one lock, a claimed row is stamped, and a row is
published only after the broker took its event. -/
structure Relay.Sound (s : Relay) : Prop where
  keyed : Keyed OutboxRow.outboxEventId s.rows
  locks : ∀ p id, s.Locks p id → ∃ r ∈ s.rows, r.outboxEventId = id ∧ r.status = .pending
  single : ∀ p q id, s.Locks p id → s.Locks q id → p = q
  stamped : ∀ r ∈ s.rows, r.status = .publishing → r.claimedAt.isSome
  acknowledged : ∀ (p left : Nat) (claim : Claim),
    s.phases[p]? = some (.marking left claim) → claim.eventId ∈ s.broker
  published : ∀ r ∈ s.rows, r.status = .published → r.outboxEventId ∈ s.broker

namespace Relay.Sound

theorem initial : Relay.initial.Sound := by
  refine ⟨keyed_nil, ?_, ?_, ?_, ?_, ?_⟩ <;> simp [Relay.initial, Relay.Locks]

/-- The row of a lock is the only row under its id, so it is pending. -/
theorem pending_of_lock (h : s.Sound) {p : Nat} {id : Uuid} (hl : s.Locks p id)
    {r : OutboxRow} (hr : r ∈ s.rows) (hid : r.outboxEventId = id) : r.status = .pending := by
  obtain ⟨q, hq, hqid, hs⟩ := h.locks p id hl
  rw [h.keyed.eq_of_key hr hq (hid.trans hqid.symm)]
  exact hs

/-- A move of one publisher that locks nothing new and marks nothing. -/
theorem become (h : s.Sound) {p : Nat} {phase : Phase} (hl : phase.locks = none)
    (hm : ∀ left claim, phase = .marking left claim → claim.eventId ∈ s.broker) :
    (s.become p phase).Sound := by
  refine ⟨h.keyed, ?_, ?_, h.stamped, ?_, h.published⟩
  · intro q id hq
    cases locks_become hq with
    | inl hmoved =>
      obtain ⟨-, hq⟩ := hmoved
      rw [hl] at hq
      cases hq
    | inr hother =>
      obtain ⟨-, hq⟩ := hother
      exact h.locks q id hq
  · intro q q' id hq hq'
    cases locks_become hq with
    | inl hmoved =>
      obtain ⟨-, hq⟩ := hmoved
      rw [hl] at hq
      cases hq
    | inr hother =>
      obtain ⟨-, hq⟩ := hother
      cases locks_become hq' with
      | inl hmoved =>
        obtain ⟨-, hq'⟩ := hmoved
        rw [hl] at hq'
        cases hq'
      | inr hother =>
        obtain ⟨-, hq'⟩ := hother
        exact h.single q q' id hq hq'
  · intro q left claim hq
    cases become_getElem? hq with
    | inl hmoved =>
      obtain ⟨-, hx⟩ := hmoved
      exact hm left claim hx.symm
    | inr hother =>
      obtain ⟨-, hx⟩ := hother
      exact h.acknowledged q left claim hx

/-- An update of rows that keeps ids, leaves locked rows pending and stamps claims. -/
theorem update (h : s.Sound) {rows : List OutboxRow}
    (hids : rows.map OutboxRow.outboxEventId = s.rows.map OutboxRow.outboxEventId)
    (hlocks : ∀ p id, s.Locks p id → ∃ r ∈ rows, r.outboxEventId = id ∧ r.status = .pending)
    (hstamped : ∀ r ∈ rows, r.status = .publishing → r.claimedAt.isSome)
    (hpublished : ∀ r ∈ rows, r.status = .published → r.outboxEventId ∈ s.broker) :
    Relay.Sound { s with rows := rows } := by
  refine ⟨?_, hlocks, h.single, hstamped, h.acknowledged, hpublished⟩
  rw [Keyed, hids]
  exact h.keyed

theorem mono_broker (h : s.Sound) (id : Uuid) :
    Relay.Sound { s with broker := s.broker ++ [id] } :=
  ⟨h.keyed, h.locks, h.single, h.stamped,
    fun p left claim hp => List.mem_append_left _ (h.acknowledged p left claim hp),
    fun r hr hs => List.mem_append_left _ (h.published r hr hs)⟩

theorem spawn (h : s.Sound) : Relay.Sound { s with phases := s.phases ++ [.idle] } := by
  have old : ∀ p id, Relay.Locks { s with phases := s.phases ++ [.idle] } p id → s.Locks p id := by
    rintro p id ⟨x, hx, hl⟩
    cases spawn_getElem? hx with
    | inl hx => exact ⟨x, hx, hl⟩
    | inr hspawned =>
      obtain rfl := hspawned
      cases hl
  refine ⟨h.keyed, fun p id hp => h.locks p id (old p id hp),
    fun p q id hp hq => h.single p q id (old p id hp) (old q id hq), h.stamped, ?_, h.published⟩
  intro p left claim hp
  cases spawn_getElem? hp with
  | inl hp => exact h.acknowledged p left claim hp
  | inr hp => cases hp

theorem enqueue (h : s.Sound) {row : OutboxRow}
    (fresh : row.outboxEventId ∉ s.rows.map OutboxRow.outboxEventId)
    (pending : row.status = .pending) : Relay.Sound { s with rows := s.rows ++ [row] } := by
  refine ⟨keyed_append_one.mpr ⟨h.keyed, fresh⟩, ?_, h.single, ?_, h.acknowledged, ?_⟩
  · intro p id hp
    obtain ⟨r, hr, hid, hs⟩ := h.locks p id hp
    exact ⟨r, List.mem_append_left _ hr, hid, hs⟩
  · intro r hr hs
    cases List.mem_append.mp hr with
    | inl hr => exact h.stamped r hr hs
    | inr hr =>
      rw [List.mem_singleton.mp hr, pending] at hs
      cases hs
  · intro r hr hs
    cases List.mem_append.mp hr with
    | inl hr => exact h.published r hr hs
    | inr hr =>
      rw [List.mem_singleton.mp hr, pending] at hs
      cases hs

/-- The row that `SELECT … SKIP LOCKED` returned is locked by nobody else. -/
theorem select (h : s.Sound) {p left : Nat} {now : Instant} {row : OutboxRow}
    (mem : row ∈ s.rows) (pending : row.status = .pending)
    (free : s.locked row.outboxEventId = false) :
    (s.become p (.selected left ⟨row.outboxEventId, now⟩)).Sound := by
  have none : ∀ q, ¬ s.Locks q row.outboxEventId := by
    intro q hq
    rw [locked_iff.mpr ⟨q, hq⟩] at free
    cases free
  refine ⟨h.keyed, ?_, ?_, h.stamped, ?_, h.published⟩
  · intro q id hq
    cases locks_become hq with
    | inl hmoved =>
      obtain ⟨-, hid⟩ := hmoved
      exact ⟨row, mem, Option.some.inj hid, pending⟩
    | inr hother =>
      obtain ⟨-, hq⟩ := hother
      exact h.locks q id hq
  · intro q q' id hq hq'
    cases locks_become hq with
    | inl hmoved =>
      obtain ⟨rfl, hid⟩ := hmoved
      cases locks_become hq' with
      | inl hmoved =>
        obtain ⟨rfl, -⟩ := hmoved
        rfl
      | inr hother =>
        obtain ⟨-, hold'⟩ := hother
        have hrow : row.outboxEventId = id := Option.some.inj hid
        exact absurd (hrow ▸ hold') (none q')
    | inr hother =>
      obtain ⟨-, hold⟩ := hother
      cases locks_become hq' with
      | inl hmoved =>
        obtain ⟨rfl, hid⟩ := hmoved
        have hrow : row.outboxEventId = id := Option.some.inj hid
        exact absurd (hrow ▸ hold) (none q)
      | inr hother =>
        obtain ⟨-, hold'⟩ := hother
        exact h.single q q' id hold hold'
  · intro q left' claim hq
    cases become_getElem? hq with
    | inl hmoved =>
      obtain ⟨-, hx⟩ := hmoved
      cases hx
    | inr hother =>
      obtain ⟨-, hx⟩ := hother
      exact h.acknowledged q left' claim hx

theorem recover (h : s.Sound) (now : Instant) :
    Relay.Sound { s with rows := recoverExpiredClaims now s.rows } := by
  refine h.update recoverExpiredClaims_ids ?_ ?_ ?_
  · intro p id hp
    obtain ⟨r, hr, hid, hs⟩ := h.locks p id hp
    exact ⟨r, mem_recoverExpiredClaims_of hr (by simp [hs]), hid, hs⟩
  · intro r hr hs
    cases mem_recoverExpiredClaims hr with
    | inl hr => exact h.stamped r hr hs
    | inr hnew =>
      obtain ⟨q, -, -, -, hp, -⟩ := hnew
      rw [hp] at hs
      cases hs
  · intro r hr hs
    cases mem_recoverExpiredClaims hr with
    | inl hr => exact h.published r hr hs
    | inr hnew =>
      obtain ⟨q, -, -, -, hp, -⟩ := hnew
      rw [hp] at hs
      cases hs

/-- An `UPDATE` of one event under no lock: the claim (once its lock went with the commit),
the release and the mark. -/
theorem updateEvent (h : s.Sound) {eventId : Uuid} {f : OutboxRow → OutboxRow}
    (ids : ∀ r, (f r).outboxEventId = r.outboxEventId)
    (unlocked : ∀ p, ¬ s.Locks p eventId)
    (stamps : ∀ r, (f r).status = .publishing → (f r).claimedAt.isSome)
    (acked : ∀ r, (f r).status = .published → eventId ∈ s.broker) :
    Relay.Sound { s with
      rows := updateWhere (fun r => r.outboxEventId = eventId) f s.rows } := by
  refine h.update (map_updateWhere _ _ _ ids) ?_ ?_ ?_
  · intro p id hp
    obtain ⟨r, hr, hid, hs⟩ := h.locks p id hp
    refine ⟨r, mem_updateWhere_of_not hr ?_, hid, hs⟩
    simp only [decide_eq_false_iff_not]
    rintro he
    exact unlocked p (by rw [← he, hid]; exact hp)
  · exact forall_updateWhere (fun r hr _ => h.stamped r hr) fun r _ _ => stamps r
  · refine forall_updateWhere (fun r hr _ => h.published r hr) fun r _ hc hs => ?_
    rw [ids, decide_eq_true_eq.mp hc]
    exact acked r hs

theorem unlocked_of_free {id : Uuid} (free : s.locked id = false) (p : Nat) : ¬ s.Locks p id := by
  intro hp
  rw [locked_iff.mpr ⟨p, hp⟩] at free
  cases free

theorem step {t : Relay} (h : s.Sound) (hstep : Relay.Step s e t) : t.Sound := by
  cases hstep with
  | stutter => exact h
  | tick => exact ⟨h.keyed, h.locks, h.single, h.stamped, h.acknowledged, h.published⟩
  | spawn => exact h.spawn
  | enqueue row fresh pending => exact h.enqueue fresh pending
  | quiet _ p phase unlocking unclaimed =>
    refine h.become unlocking fun left claim hm => ?_
    rw [hm] at unclaimed
    cases unclaimed
  | recover p now => exact (h.recover now).become rfl (by simp)
  | select p now left row past mem pending free => exact h.select mem pending free
  | claim p left c at_ =>
    have hown : s.Locks p c.eventId := ⟨_, at_, rfl⟩
    have hmoved : (s.become p (.publishing left c)).Sound := h.become rfl (by simp)
    refine hmoved.updateEvent (fun _ => rfl) (fun q hq => ?_) (fun _ _ => rfl) (by simp)
    cases locks_become hq with
    | inl hmoved =>
      obtain ⟨-, hl⟩ := hmoved
      cases hl
    | inr hother =>
      obtain ⟨hne, hq⟩ := hother
      exact hne (h.single q p c.eventId hq hown)
  | delivered p left c at_ =>
    refine (h.mono_broker c.eventId).become rfl fun left' c' hm => ?_
    cases hm
    simp
  | failed p left c error at_ => exact h.become rfl (by simp)
  | release p c error at_ free =>
    refine become (h.updateEvent ?_ (unlocked_of_free free) ?_ ?_) rfl ?_
    · exact fun _ => rfl
    · exact fun _ hs => by cases hs
    · exact fun _ hs => by cases hs
    · exact fun _ _ hm => by cases hm
  | mark p left c now at_ free =>
    have acked := h.acknowledged p left c at_
    refine become (h.updateEvent ?_ (unlocked_of_free free) ?_ ?_) rfl ?_
    · exact fun _ => rfl
    · exact fun _ hs => by cases hs
    · exact fun _ _ => acked
    · exact fun _ _ hm => by cases hm
end Relay.Sound

/-! PUBLISHED is absorbing. -/

/-- A published row is still published after the event. -/
def Absorbs (s : Relay) (e : RelayEvent) : Prop :=
  ∀ r ∈ s.rows, r.status = .published →
    ∃ r' ∈ (relayStep s e).rows, r'.outboxEventId = r.outboxEventId ∧ r'.status = .published

/-- A row carries a publication time exactly when it is published. -/
def Dated (s : Relay) : Prop := ∀ r ∈ s.rows, r.publishedAt.isSome ↔ r.status = .published

/-- A publisher whose call failed releases an event that another one has marked since. -/
def LateRelease (s : Relay) : RelayEvent → Prop
  | .release p => ∃ claim error, s.phases[p]? = some (.releasing claim error) ∧
      ∃ r ∈ s.rows, r.outboxEventId = claim.eventId ∧ r.status = .published
  | _ => False

/-- An update that changes a row it matches only to PUBLISHED, or only rows that are not. -/
theorem absorbed_updateWhere {q : OutboxRow → Bool} {f : OutboxRow → OutboxRow}
    {rows : List OutboxRow} (ids : ∀ r, (f r).outboxEventId = r.outboxEventId)
    (keep : ∀ r ∈ rows, q r = true → r.status = .published → (f r).status = .published) :
    ∀ r ∈ rows, r.status = .published →
      ∃ r' ∈ updateWhere q f rows, r'.outboxEventId = r.outboxEventId ∧ r'.status = .published := by
  intro r hr hs
  cases hq : q r with
  | false => exact ⟨r, mem_updateWhere_of_not hr hq, rfl, hs⟩
  | true => exact ⟨f r, mem_updateWhere_of hr hq, ids r, keep r hr hq hs⟩

theorem absorbs_iff (h : s.Sound) : Absorbs s e ↔ ¬ LateRelease s e := by
  constructor
  · rintro habs hlate
    cases e with
    | release p =>
      obtain ⟨claim, error, at_, r, hr, hid, hs⟩ := hlate
      have free : s.locked claim.eventId = false := by
        by_contra hl
        obtain ⟨q, hq⟩ := Relay.locked_iff.mp (by simpa using hl)
        have := h.pending_of_lock hq hr hid
        rw [hs] at this
        cases this
      obtain ⟨r', hr', hid', hs'⟩ := habs r hr hs
      have hrows : (relayStep s (.release p)).rows = releaseRow claim.eventId error s.rows := by
        simp [relayStep, at_, free]
      rw [hrows] at hr'
      cases mem_releaseRow hr' with
      | inl hold =>
        obtain ⟨-, hne⟩ := hold
        exact hne (hid'.trans hid)
      | inr hnew =>
        obtain ⟨q, -, -, -, hp, -⟩ := hnew
        rw [hp] at hs'
        cases hs'
    | _ => exact hlate
  · intro hlate r hr hs
    have hstep := relayStep_step s e
    generalize relayStep s e = t at hstep
    cases hstep with
    | enqueue row => exact ⟨r, List.mem_append_left _ hr, rfl, hs⟩
    | recover p now =>
      refine absorbed_updateWhere ?_ ?_ r hr hs
      · exact fun _ => rfl
      · intro r _ hc hs
        simp [hs] at hc
    | claim p left c at_ =>
      refine absorbed_updateWhere ?_ ?_ r hr hs
      · exact fun _ => rfl
      · intro r hr hc hs
        have := h.pending_of_lock ⟨_, at_, rfl⟩ hr (decide_eq_true_eq.mp hc)
        rw [hs] at this
        cases this
    | release p c error at_ free =>
      refine absorbed_updateWhere ?_ ?_ r hr hs
      · exact fun _ => rfl
      · intro r hr hc hs
        exact absurd ⟨c, error, at_, r, hr, decide_eq_true_eq.mp hc, hs⟩ hlate
    | mark p left c now at_ free =>
      refine absorbed_updateWhere ?_ ?_ r hr hs
      · exact fun _ => rfl
      · exact fun _ _ _ _ => rfl
    | _ => exact ⟨r, hr, rfl, hs⟩

theorem Dated.step (hs : s.Sound) (h : Dated s) (hlate : ¬ LateRelease s e) :
    Dated (relayStep s e) := by
  have hstep := relayStep_step s e
  generalize relayStep s e = t at hstep
  cases hstep with
  | enqueue row fresh pending unpublished =>
    intro r hr
    cases List.mem_append.mp hr with
    | inl hr => exact h r hr
    | inr hr => simp [List.mem_singleton.mp hr, pending, unpublished]
  | recover p now =>
    intro r hr
    cases mem_recoverExpiredClaims hr with
    | inl hr => exact h r hr
    | inr hnew =>
      obtain ⟨q, hq, hq', -, hp, -, hd⟩ := hnew
      rw [hp, hd, h q hq, hq']
      simp
  | claim p left c at_ =>
    intro r hr
    cases mem_claimRow hr with
    | inl hold =>
      obtain ⟨hr, -⟩ := hold
      exact h r hr
    | inr hnew =>
      obtain ⟨q, hq, hid, -, hp, -, hd⟩ := hnew
      rw [hp, hd, h q hq, hs.pending_of_lock ⟨_, at_, rfl⟩ hq hid]
      simp
  | release p c error at_ free =>
    intro r hr
    cases mem_releaseRow hr with
    | inl hold =>
      obtain ⟨hr, -⟩ := hold
      exact h r hr
    | inr hnew =>
      obtain ⟨q, hq, hid, -, hp, -, hd⟩ := hnew
      rw [hp, hd, h q hq]
      simp only [reduceCtorEq, iff_false]
      exact fun hpub => hlate ⟨c, error, at_, q, hq, hid, hpub⟩
  | mark p left c now at_ free =>
    intro r hr
    cases mem_markPublished hr with
    | inl hold =>
      obtain ⟨hr, -⟩ := hold
      exact h r hr
    | inr hnew =>
      obtain ⟨-, hp, hd⟩ := hnew
      simp [hp, hd]
  | _ => exact h

/-- PUBLISHED is absorbing along a run, and dates the rows it covers, exactly when no event
is released after it was marked. -/
theorem published_absorbing_iff (es : List RelayEvent) :
    (Runs.Along relayStep Absorbs Relay.initial es ∧
      Runs.Always relayStep Dated Relay.initial es) ↔
    Runs.Along relayStep (fun s e => ¬ LateRelease s e) Relay.initial es := by
  have hkeep : ∀ s e, s.Sound → (relayStep s e).Sound :=
    fun s e h => h.step (relayStep_step s e)
  have hagree : Runs.Along relayStep Absorbs Relay.initial es ↔
      Runs.Along relayStep (fun s e => ¬ LateRelease s e) Relay.initial es :=
    Runs.along_congr (fun s e h _ => hkeep s e h) (fun s e h => absorbs_iff h)
      Relay.Sound.initial es
  constructor
  · exact fun h => hagree.mp h.1
  · intro h
    refine ⟨hagree.mpr h, ?_⟩
    refine Runs.always_of_along (I := fun s => s.Sound ∧ Dated s) ?_ (fun s h => h.2)
      ⟨Relay.Sound.initial, by simp [Dated, Relay.initial]⟩ h
    exact fun s e h hl => ⟨hkeep s e h.1, h.2.step h.1 hl⟩
/-- A row that waits to be published. -/
def sampleRow : OutboxRow := OutboxRow.inserted 1 "transaction" 2 "payment.transfer_posted.v1" [] 0

/-- The first publisher's call outlasts its claim, the second publisher publishes the event,
and then the first call fails. -/
def lateRun : List RelayEvent :=
  [.enqueue sampleRow, .spawn, .spawn, .start 0, .recover 0 0, .select 0 0, .claim 0,
    .tick 61000000, .start 1, .recover 1 61000000, .select 1 61000000, .claim 1, .delivered 1,
    .mark 1 61000000, .failed 0 "timeout"]

theorem published_reopened :
    (Runs.run relayStep Relay.initial lateRun).rows.map
      (fun r => (r.outboxEventId, r.status, r.publishedAt)) = [(1, .published, some 61000000)] ∧
    (Runs.run relayStep Relay.initial (lateRun ++ [.release 0])).rows.map
      (fun r => (r.outboxEventId, r.status, r.publishedAt)) = [(1, .pending, some 61000000)] := by
  decide

/-! A claim belongs to one publisher. -/

/-- At most one publisher holds a row. -/
def Exclusive (s : Relay) : Prop := ∀ p q id, s.Holds p id → s.Holds q id → p = q

/-- The publisher that causes a release or a recovery. -/
def RelayEvent.settler : RelayEvent → Option Nat
  | .release p => some p
  | .recover p _ => some p
  | _ => none

/-- A release or a recovery changes no row that a different publisher holds. -/
def Respects (s : Relay) (e : RelayEvent) : Prop :=
  ∀ p, e.settler = some p → ∀ q, q ≠ p → ∀ r ∈ s.rows, s.Holds q r.outboxEventId →
    r ∈ (relayStep s e).rows

/-- A publisher whose own claim has run out releases an event that another one holds. -/
def StaleRelease (s : Relay) : RelayEvent → Prop
  | .release p => ∃ claim error, s.phases[p]? = some (.releasing claim error) ∧
      ¬ unexpired s.clock claim.claimedAt ∧ ∃ q, q ≠ p ∧ s.Holds q claim.eventId
  | _ => False

/-- An unexpired claim is still on its row, unless the row is published, and is exclusive. -/
structure Owned (s : Relay) : Prop where
  onRow : ∀ p claim, s.Claims p claim → unexpired s.clock claim.claimedAt →
    ∃ r ∈ s.rows, r.outboxEventId = claim.eventId ∧
      (r.status = .publishing ∧ r.claimedAt = some claim.claimedAt ∨ r.status = .published)
  exclusive : Exclusive s

namespace Owned

/-- The row that a publisher holds is under its claim or published. -/
theorem row (hs : s.Sound) (h : Owned s) {p : Nat} {r : OutboxRow} (hr : r ∈ s.rows)
    (hold : s.Holds p r.outboxEventId) :
    (∃ at_, r.status = .publishing ∧ r.claimedAt = some at_ ∧ unexpired s.clock at_) ∨
      r.status = .published := by
  obtain ⟨claim, hc, hid, hu⟩ := hold
  obtain ⟨q, hq, hqid, hrow⟩ := h.onRow p claim hc hu
  have he : r = q := hs.keyed.eq_of_key hr hq (hid.symm.trans hqid.symm)
  subst he
  cases hrow with
  | inl hclaimed =>
    obtain ⟨h1, h2⟩ := hclaimed
    exact .inl ⟨_, h1, h2, hu⟩
  | inr h1 => exact .inr h1

/-- A row that is pending is held by nobody. -/
theorem free (hs : s.Sound) (h : Owned s) {p : Nat} {r : OutboxRow} (hr : r ∈ s.rows)
    (pending : r.status = .pending) : ¬ s.Holds p r.outboxEventId := by
  intro hold
  rcases h.row hs hr hold with ⟨_, hp, -⟩ | hp <;> (rw [pending] at hp; cases hp)

/-- Ownership depends on the claims and on the rows they are written on. -/
theorem mono {t : Relay} (h : Owned s) (clock : s.clock ≤ t.clock)
    (claims : ∀ p claim, t.Claims p claim → s.Claims p claim)
    (rows : ∀ p claim, t.Claims p claim → unexpired t.clock claim.claimedAt →
      ∀ r ∈ s.rows, r.outboxEventId = claim.eventId →
        (r.status = .publishing ∧ r.claimedAt = some claim.claimedAt ∨ r.status = .published) →
      ∃ r' ∈ t.rows, r'.outboxEventId = claim.eventId ∧
        (r'.status = .publishing ∧ r'.claimedAt = some claim.claimedAt ∨
          r'.status = .published)) : Owned t := by
  have earlier : ∀ at_, unexpired t.clock at_ → unexpired s.clock at_ :=
    fun _ => unexpired_earlier clock
  refine ⟨?_, ?_⟩
  · intro p claim hc hu
    obtain ⟨r, hr, hid, hrow⟩ := h.onRow p claim (claims p claim hc) (earlier _ hu)
    exact rows p claim hc hu r hr hid hrow
  · rintro p q id ⟨c, hc, hid, hu⟩ ⟨c', hc', hid', hu'⟩
    exact h.exclusive p q id ⟨c, claims p c hc, hid, earlier _ hu⟩
      ⟨c', claims q c' hc', hid', earlier _ hu'⟩

/-- A move that only drops the claim of the mover. -/
theorem drop (h : Owned s) {p : Nat} {phase : Phase} (unclaimed : phase.claim? = none) :
    Owned (s.become p phase) := by
  refine h.mono (Int.le_refl _) ?_ fun p claim _ _ r hr hid hrow => ⟨r, hr, hid, hrow⟩
  intro q claim hc
  cases Relay.claims_become hc with
  | inl hmoved =>
    obtain ⟨-, hx⟩ := hmoved
    rw [unclaimed] at hx
    cases hx
  | inr hother =>
    obtain ⟨-, hc⟩ := hother
    exact hc

/-- A move that carries the claim of the mover on. -/
theorem carry (h : Owned s) {p : Nat} {old phase : Phase} (at_ : s.phases[p]? = some old)
    (same : phase.claim? = old.claim?) : Owned (s.become p phase) := by
  refine h.mono (Int.le_refl _) ?_ fun p claim _ _ r hr hid hrow => ⟨r, hr, hid, hrow⟩
  intro q claim hc
  cases Relay.claims_become hc with
  | inl hmoved =>
    obtain ⟨rfl, hx⟩ := hmoved
    exact ⟨old, at_, same ▸ hx⟩
  | inr hother =>
    obtain ⟨-, hc⟩ := hother
    exact hc

theorem recover (h : Owned s) {now : Instant} (past : now ≤ s.clock) :
    Owned { s with rows := recoverExpiredClaims now s.rows } := by
  refine h.mono (Int.le_refl _) (fun _ _ hc => hc) fun p claim _ hu r hr hid hrow =>
    ⟨r, mem_recoverExpiredClaims_of hr fun hp => ?_, hid, hrow⟩
  cases hrow with
  | inl hclaimed =>
    obtain ⟨-, hat⟩ := hclaimed
    exact ⟨_, hat, unexpired_earlier past hu⟩
  | inr hpub =>
    rw [hp] at hpub
    cases hpub

/-- The claim of a row that was pending and locked: nobody else holds it. -/
theorem claim (hs : s.Sound) (h : Owned s) {p left : Nat} {c : Claim}
    (at_ : s.phases[p]? = some (.selected left c)) :
    Owned ({ s with rows := claimRow c s.rows }.become p (.publishing left c)) := by
  obtain ⟨r, hr, hid, pending⟩ := hs.locks p c.eventId ⟨_, at_, rfl⟩
  have nobody : ∀ q, ¬ s.Holds q c.eventId := fun q => hid ▸ h.free hs hr pending
  refine ⟨?_, ?_⟩
  · intro q claim hc hu
    cases Relay.claims_become hc with
    | inl hmoved =>
      obtain ⟨-, hx⟩ := hmoved
      cases hx
      exact ⟨_, mem_updateWhere_of hr (by simpa using hid), hid, .inl ⟨rfl, rfl⟩⟩
    | inr hother =>
      obtain ⟨-, hc⟩ := hother
      obtain ⟨r', hr', hid', hrow⟩ := h.onRow q claim hc hu
      refine ⟨r', mem_updateWhere_of_not hr' ?_, hid', hrow⟩
      simp only [decide_eq_false_iff_not]
      intro he
      exact nobody q ⟨claim, hc, hid'.symm.trans he, hu⟩
  · rintro q q' id ⟨d, hd, hdid, hu⟩ ⟨d', hd', hdid', hu'⟩
    cases Relay.claims_become hd with
    | inl hmoved =>
      obtain ⟨rfl, hx⟩ := hmoved
      cases hx
      cases Relay.claims_become hd' with
      | inl hmoved =>
        obtain ⟨rfl, -⟩ := hmoved
        rfl
      | inr hother =>
        obtain ⟨-, hold'⟩ := hother
        exact absurd ⟨d', hold', hdid'.trans hdid.symm, hu'⟩ (nobody q')
    | inr hother =>
      obtain ⟨-, hold⟩ := hother
      cases Relay.claims_become hd' with
      | inl hmoved =>
        obtain ⟨rfl, hx⟩ := hmoved
        cases hx
        exact absurd ⟨d, hold, hdid.trans hdid'.symm, hu⟩ (nobody q)
      | inr hother =>
        obtain ⟨-, hold'⟩ := hother
        exact h.exclusive q q' id ⟨d, hold, hdid, hu⟩ ⟨d', hold', hdid', hu'⟩

/-- A release by the holder, or of an event that nobody else holds. -/
theorem release (h : Owned s) {p : Nat} {c : Claim} {error : String}
    (at_ : s.phases[p]? = some (.releasing c error)) (hstale : ¬ StaleRelease s (.release p)) :
    Owned ({ s with rows := releaseRow c.eventId error s.rows }.become p .idle) := by
  have nobody : ∀ q, q ≠ p → ¬ s.Holds q c.eventId := by
    intro q hq hold
    by_cases hu : unexpired s.clock c.claimedAt
    · exact hq (h.exclusive q p c.eventId hold ⟨c, ⟨_, at_, rfl⟩, rfl, hu⟩)
    · exact hstale ⟨c, error, at_, hu, q, hq, hold⟩
  refine h.mono (Int.le_refl _) ?_ ?_
  · intro q claim hc
    cases Relay.claims_become hc with
    | inl hmoved =>
      obtain ⟨-, hx⟩ := hmoved
      cases hx
    | inr hother =>
      obtain ⟨-, hc⟩ := hother
      exact hc
  · intro q claim hc hu r hr hid hrow
    cases Relay.claims_become hc with
    | inl hmoved =>
      obtain ⟨-, hx⟩ := hmoved
      cases hx
    | inr hother =>
      obtain ⟨hne, hc⟩ := hother
      refine ⟨r, mem_updateWhere_of_not hr ?_, hid, hrow⟩
      simp only [decide_eq_false_iff_not]
      intro he
      exact nobody q hne ⟨claim, hc, hid.symm.trans he, hu⟩

theorem mark (h : Owned s) {eventId : Uuid} {now : Instant} :
    Owned { s with rows := markPublished eventId now s.rows } := by
  refine h.mono (Int.le_refl _) (fun _ _ hc => hc) fun p claim _ _ r hr hid hrow => ?_
  by_cases he : r.outboxEventId = eventId
  · exact ⟨_, mem_updateWhere_of hr (by simpa using he), hid, .inr rfl⟩
  · exact ⟨r, mem_updateWhere_of_not hr (by simpa using he), hid, hrow⟩

theorem step (hs : s.Sound) (h : Owned s) (hstale : ¬ StaleRelease s e) :
    Owned (relayStep s e) := by
  have hstep := relayStep_step s e
  generalize relayStep s e = t at hstep
  cases hstep with
  | stutter => exact h
  | tick elapsed =>
    exact h.mono (Int.le_add_of_nonneg_right (Int.natCast_nonneg elapsed)) (fun _ _ hc => hc)
      fun p claim _ _ r hr hid hrow => ⟨r, hr, hid, hrow⟩
  | spawn =>
    refine h.mono (Int.le_refl _) ?_ fun p claim _ _ r hr hid hrow => ⟨r, hr, hid, hrow⟩
    rintro p claim ⟨x, hx, hc⟩
    cases Relay.spawn_getElem? hx with
    | inl hx => exact ⟨x, hx, hc⟩
    | inr hspawned =>
      obtain rfl := hspawned
      cases hc
  | enqueue row =>
    exact h.mono (Int.le_refl _) (fun _ _ hc => hc) fun p claim _ _ r hr hid hrow =>
      ⟨r, List.mem_append_left _ hr, hid, hrow⟩
  | quiet _ p phase unlocking unclaimed => exact h.drop unclaimed
  | recover p now past => exact (h.recover past).drop rfl
  | select p now left row past mem pending free => exact h.drop rfl
  | claim p left c at_ => exact claim hs h at_
  | delivered p left c at_ =>
    have hb : Owned { s with broker := s.broker ++ [c.eventId] } := ⟨h.onRow, h.exclusive⟩
    exact hb.carry at_ rfl
  | failed p left c error at_ => exact h.carry at_ rfl
  | release p c error at_ free => exact release h at_ hstale
  | mark p left c now at_ free => exact h.mark.drop rfl

end Owned

theorem respects_iff (hs : s.Sound) (h : Owned s) : Respects s e ↔ ¬ StaleRelease s e := by
  constructor
  · rintro hres hstale
    cases e with
    | release p =>
      obtain ⟨c, error, at_, -, q, hq, hold⟩ := hstale
      obtain ⟨d, hd, hid, hu⟩ := hold
      obtain ⟨r, hr, hrid, hrow⟩ := h.onRow q d hd hu
      have hevent : r.outboxEventId = c.eventId := hrid.trans hid
      have notPending : r.status ≠ .pending := by
        rcases hrow with ⟨hp, -⟩ | hp <;> simp [hp]
      have free : s.locked c.eventId = false := by
        by_contra hl
        obtain ⟨k, hk⟩ := Relay.locked_iff.mp (by simpa using hl)
        exact notPending (hs.pending_of_lock hk hr hevent)
      have hmem := hres p rfl q hq r hr (hevent ▸ ⟨d, hd, hid, hu⟩)
      have hrows : (relayStep s (.release p)).rows = releaseRow c.eventId error s.rows := by
        simp [relayStep, at_, free]
      rw [hrows] at hmem
      cases mem_releaseRow hmem with
      | inl hold =>
        obtain ⟨-, hne⟩ := hold
        exact hne hevent
      | inr hnew =>
        obtain ⟨_, -, -, -, hp, -⟩ := hnew
        exact notPending hp
    | _ => exact hstale
  · intro hstale p hp q hq r hr hold
    have hstep := relayStep_step s e
    generalize relayStep s e = t at hstep
    cases hstep with
    | recover p' now past =>
      refine mem_recoverExpiredClaims_of hr fun hpub => ?_
      cases h.row hs hr hold with
      | inl hclaimed =>
        obtain ⟨at_, -, hat, hu⟩ := hclaimed
        exact ⟨at_, hat, unexpired_earlier past hu⟩
      | inr hpub' =>
        rw [hpub] at hpub'
        cases hpub'
    | release p' c error at_ free =>
      obtain rfl : p' = p := Option.some.inj hp
      refine mem_updateWhere_of_not hr ?_
      simp only [decide_eq_false_iff_not]
      intro he
      have hold' : s.Holds q c.eventId := he ▸ hold
      by_cases hu : unexpired s.clock c.claimedAt
      · exact hq (h.exclusive q p' c.eventId hold' ⟨c, ⟨_, at_, rfl⟩, rfl, hu⟩)
      · exact hstale ⟨c, error, at_, hu, q, hq, hold'⟩
    | stutter | quiet => exact hr
    | _ => cases hp

/-- Claims are exclusive, and respected by releases and recoveries, along exactly the runs in
which no publisher with an expired claim releases an event that another publisher holds. -/
theorem claim_ownership_iff (es : List RelayEvent) :
    (Runs.Along relayStep Respects Relay.initial es ∧
      Runs.Always relayStep Exclusive Relay.initial es) ↔
    Runs.Along relayStep (fun s e => ¬ StaleRelease s e) Relay.initial es := by
  have hinit : Relay.initial.Sound ∧ Owned Relay.initial := by
    refine ⟨Relay.Sound.initial, ?_, ?_⟩ <;>
      simp [Relay.initial, Relay.Claims, Exclusive, Relay.Holds]
  have hkeep : ∀ s e, s.Sound ∧ Owned s → ¬ StaleRelease s e →
      (relayStep s e).Sound ∧ Owned (relayStep s e) :=
    fun s e h hl => ⟨h.1.step (relayStep_step s e), h.2.step h.1 hl⟩
  have hagree : Runs.Along relayStep (fun s e => ¬ StaleRelease s e) Relay.initial es ↔
      Runs.Along relayStep Respects Relay.initial es :=
    Runs.along_congr hkeep (fun s e h => (respects_iff h.1 h.2).symm) hinit es
  constructor
  · exact fun h => hagree.mpr h.1
  · exact fun h => ⟨hagree.mp h, Runs.always_of_along hkeep (fun s h => h.2.exclusive) hinit h⟩

/-- After the late release a third publisher claims the row that the second one holds. -/
def sharedRun : List RelayEvent :=
  [.enqueue sampleRow, .spawn, .spawn, .spawn, .start 0, .recover 0 0, .select 0 0, .claim 0,
    .tick 61000000, .start 1, .recover 1 61000000, .select 1 61000000, .claim 1,
    .failed 0 "timeout", .release 0, .start 2, .recover 2 61000000, .select 2 61000000, .claim 2]

theorem claim_shared :
    let s := Runs.run relayStep Relay.initial sharedRun
    s.Holds 1 1 ∧ s.Holds 2 1 := by
  refine ⟨⟨⟨1, 61000000⟩, ⟨.publishing 49 ⟨1, 61000000⟩, ?_, rfl⟩, rfl, ?_⟩,
    ⟨⟨1, 61000000⟩, ⟨.publishing 49 ⟨1, 61000000⟩, ?_, rfl⟩, rfl, ?_⟩⟩ <;> decide
end Bantam
