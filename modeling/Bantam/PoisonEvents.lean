import Bantam.Claims

/-! One publisher and events that are never published: which of the others are. -/
namespace Bantam
open Tables

/-- The row that `SELECT … ORDER BY created_at LIMIT 1` returns, which is any one of the oldest. -/
structure RowOrder where
  first : List OutboxRow → Option OutboxRow
  first_eq_none : ∀ rows, first rows = none → rows = []
  mem_first : ∀ rows row, first rows = some row → row ∈ rows
  oldest : ∀ rows row, first rows = some row → ∀ r ∈ rows, row.createdAt ≤ r.createdAt

/-- What a batch meets that is not in the table: the clock, by the rounds that remain, the order of
rows of one age, and the texts of the exceptions. -/
structure BatchDraw where
  recoveredAt : Instant
  claimedAt : Nat → Instant
  publishedAt : Nat → Instant
  order : Nat → RowOrder
  error : Uuid → String

def pendingRows (rows : List OutboxRow) : List OutboxRow := rows.filter fun r => r.status = .pending

section
variable (fails : Uuid → Bool)

/-- The rounds of `publish_batch`, where the publish call of an event that `fails` raises. -/
def publishRounds (draw : BatchDraw) : Nat → List OutboxRow → List OutboxRow
  | 0, rows => rows
  | left + 1, rows =>
    match (draw.order left).first (pendingRows rows) with
    | none => rows
    | some row =>
      let claimed := claimRow ⟨row.outboxEventId, draw.claimedAt left⟩ rows
      if fails row.outboxEventId = true then
        releaseRow row.outboxEventId (draw.error row.outboxEventId) claimed
      else publishRounds draw left
        (markPublished row.outboxEventId (draw.publishedAt left) claimed)

/-- `publish_batch` -/
def publishBatch (rows : List OutboxRow) (draw : BatchDraw) : List OutboxRow :=
  publishRounds fails draw 50 (recoverExpiredClaims draw.recoveredAt rows)

end

/-- An outbox of which nothing is published. -/
structure PendingOutbox where
  rows : List OutboxRow
  keyed : Keyed OutboxRow.outboxEventId rows
  pending : ∀ row ∈ rows, row.status = .pending

/-- After so many batches every event is published whose publish call succeeds. -/
def Isolated (fails : Uuid → Bool) (outbox : PendingOutbox) : Prop :=
  ∃ batches, ∀ draws : List BatchDraw, batches ≤ draws.length →
    ∀ row ∈ Runs.run (publishBatch fails) outbox.rows draws,
      fails row.outboxEventId = false → row.status = .published

/-- Every event that fails is younger than every one that does not. -/
def PoisonLast (fails : Uuid → Bool) (rows : List OutboxRow) : Prop :=
  ∀ poison ∈ pendingRows rows, ∀ row ∈ pendingRows rows, fails poison.outboxEventId = true →
    fails row.outboxEventId = false → row.createdAt < poison.createdAt

/-- Between batches no claim is open. -/
structure Unclaimed (rows : List OutboxRow) : Prop where
  keyed : Keyed OutboxRow.outboxEventId rows
  status : ∀ row ∈ rows, row.status = .pending ∨ row.status = .published

/-- The events to be published that do not fail. -/
def waiting (fails : Uuid → Bool) (rows : List OutboxRow) : List Uuid :=
  (rows.filter fun r => r.status = .pending && !fails r.outboxEventId).map OutboxRow.outboxEventId

section Rows
variable {fails : Uuid → Bool} {rows : List OutboxRow} {r : OutboxRow} {id : Uuid}
  {f g : OutboxRow → OutboxRow}

theorem mem_pendingRows : r ∈ pendingRows rows ↔ r ∈ rows ∧ r.status = .pending := by
  simp [pendingRows]

/-- The row as `_claim`, `_release` and `_mark_published` leave it: of the same event. -/
structure SameEvent (f : OutboxRow → OutboxRow) : Prop where
  outboxEventId : ∀ r, (f r).outboxEventId = r.outboxEventId
  createdAt : ∀ r, (f r).createdAt = r.createdAt

/-- The rows of an event, changed. -/
def updateEvent (id : Uuid) (f : OutboxRow → OutboxRow) (rows : List OutboxRow) : List OutboxRow :=
  updateWhere (fun r => r.outboxEventId = id) f rows

theorem updateEvent_twice (hf : SameEvent f) :
    updateEvent id g (updateEvent id f rows) = updateEvent id (g ∘ f) rows := by
  unfold updateEvent updateWhere
  rw [List.map_map]
  refine List.map_congr_left fun r _ => ?_
  by_cases hr : r.outboxEventId = id
  · simp [hr, hf.outboxEventId]
  · simp [hr]

/-- A claimed row that is marked as published. -/
def publishedRow (now : Instant) (r : OutboxRow) : OutboxRow :=
  { r with
    status := .published, publishAttempts := r.publishAttempts + 1, publishedAt := some now,
    claimedAt := none, lastError := none }

/-- A claimed row that is released. -/
def releasedRow (error : String) (r : OutboxRow) : OutboxRow :=
  { r with
    status := .pending, publishAttempts := r.publishAttempts + 1, claimedAt := none,
    lastError := some (String.ofList (error.toList.take 2000)) }

theorem claim_mark (claimedAt now : Instant) :
    markPublished id now (claimRow ⟨id, claimedAt⟩ rows) =
      updateEvent id (publishedRow now) rows :=
  updateEvent_twice ⟨fun _ => rfl, fun _ => rfl⟩

theorem claim_release (claimedAt : Instant) (error : String) :
    releaseRow id error (claimRow ⟨id, claimedAt⟩ rows) =
      updateEvent id (releasedRow error) rows :=
  updateEvent_twice ⟨fun _ => rfl, fun _ => rfl⟩

theorem mem_updateEvent_of_ne (hr : r ∈ pendingRows rows) (hne : r.outboxEventId ≠ id) :
    r ∈ pendingRows (updateEvent id f rows) := by
  obtain ⟨hmem, hpending⟩ := mem_pendingRows.mp hr
  exact mem_pendingRows.mpr ⟨mem_updateWhere_of_not hmem (decide_eq_false hne), hpending⟩

/-- What is pending after an update was before. -/
theorem pending_updateEvent (hf : SameEvent f) (hr : r ∈ pendingRows (updateEvent id f rows))
    (hid : ∀ q ∈ rows, q.outboxEventId = id → q.status = .pending) :
    ∃ q ∈ pendingRows rows, q.outboxEventId = r.outboxEventId ∧ q.createdAt = r.createdAt := by
  obtain ⟨hmem, hpending⟩ := mem_pendingRows.mp hr
  cases updateWhere_cases hmem with
  | inl hold => exact ⟨r, mem_pendingRows.mpr ⟨hold.1, hpending⟩, rfl, rfl⟩
  | inr hnew =>
    obtain ⟨q, hq, hqid, rfl⟩ := hnew
    exact ⟨q, mem_pendingRows.mpr ⟨hq, hid q hq (of_decide_eq_true hqid)⟩,
      (hf.outboxEventId q).symm, (hf.createdAt q).symm⟩

theorem mem_waiting : id ∈ waiting fails rows ↔
    fails id = false ∧ ∃ r ∈ pendingRows rows, r.outboxEventId = id := by
  simp only [waiting, pendingRows, List.mem_map, List.mem_filter, Bool.and_eq_true,
    decide_eq_true_eq, Bool.not_eq_true']
  constructor
  · intro h
    obtain ⟨r, ⟨hr, hpending, hfails⟩, rfl⟩ := h
    exact ⟨hfails, r, ⟨hr, hpending⟩, rfl⟩
  · intro h
    obtain ⟨hfails, r, ⟨hr, hpending⟩, rfl⟩ := h
    exact ⟨r, ⟨hr, hpending, hfails⟩, rfl⟩

/-- A published event waits no longer, and the others wait as they did. -/
theorem waiting_published (hf : SameEvent f) (hpublished : ∀ r, (f r).status = .published) :
    waiting fails (updateEvent id f rows) = (waiting fails rows).filter fun i => i ≠ id := by
  unfold waiting updateEvent updateWhere
  rw [List.filter_map, List.map_map, List.filter_map, List.filter_filter]
  have hkeep : ∀ r : OutboxRow, (OutboxRow.outboxEventId ∘
      fun r => if decide (r.outboxEventId = id) = true then f r else r) r = r.outboxEventId := by
    intro r
    by_cases hr : r.outboxEventId = id
    · simp [hr, hf.outboxEventId]
    · simp [hr]
  rw [List.map_congr_left fun r _ => hkeep r]
  congr 1
  refine List.filter_congr fun r _ => ?_
  by_cases hr : r.outboxEventId = id
  · simp [hr, hpublished]
  · simp [hr]

theorem pairwise_waiting (h : Keyed OutboxRow.outboxEventId rows) : (waiting fails rows).Nodup :=
  List.Nodup.sublist (List.filter_sublist.map _) h

theorem length_waiting_published (h : Keyed OutboxRow.outboxEventId rows) (hf : SameEvent f)
    (hpublished : ∀ r, (f r).status = .published) (hid : id ∈ waiting fails rows) :
    (waiting fails (updateEvent id f rows)).length + 1 = (waiting fails rows).length := by
  have hnodup : (waiting fails rows).Nodup := pairwise_waiting h
  have herase : (waiting fails rows).erase id = (waiting fails rows).filter (· != id) :=
    hnodup.erase_eq_filter id
  rw [waiting_published hf hpublished]
  have hsame : (waiting fails rows).filter (fun i => i ≠ id) = (waiting fails rows).erase id := by
    rw [herase]
    refine List.filter_congr fun i _ => ?_
    by_cases hi : i = id
    · simp [hi]
    · simp [hi]
  rw [hsame, List.length_erase_of_mem hid]
  have hpos := List.length_pos_of_mem hid
  omega

theorem Unclaimed.updateEvent (h : Unclaimed rows) (hf : SameEvent f)
    (hstatus : ∀ r, (f r).status = .pending ∨ (f r).status = .published) :
    Unclaimed (updateEvent id f rows) where
  keyed := (keyed_updateWhere _ hf.outboxEventId).mpr h.keyed
  status := forall_updateWhere (fun q hq _ => h.status q hq) fun q _ _ => hstatus q

/-- Recovery finds nothing between batches. -/
theorem Unclaimed.recover (h : Unclaimed rows) (now : Instant) : recoverExpiredClaims now rows = rows := by
  unfold recoverExpiredClaims updateWhere
  rw [List.map_congr_left (g := id), List.map_id]
  intro r hr
  rcases h.status r hr with hs | hs
  · simp [hs]
  · simp [hs]

theorem PoisonLast.update {rows' : List OutboxRow} (h : PoisonLast fails rows)
    (hold : ∀ r ∈ pendingRows rows', ∃ q ∈ pendingRows rows,
      q.outboxEventId = r.outboxEventId ∧ q.createdAt = r.createdAt) :
    PoisonLast fails rows' := by
  intro poison hpoison row hrow hfails hsucceeds
  obtain ⟨q, hq, hqid, hqat⟩ := hold poison hpoison
  obtain ⟨q', hq', hqid', hqat'⟩ := hold row hrow
  rw [← hqid] at hfails
  rw [← hqid'] at hsucceeds
  rw [← hqat, ← hqat']
  exact h q hq q' hq' hfails hsucceeds

/-- A row that is pending is the only one of its event. -/
theorem Unclaimed.pending (h : Unclaimed rows) (hr : r ∈ pendingRows rows) :
    ∀ q ∈ rows, q.outboxEventId = r.outboxEventId → q.status = .pending := by
  intro q hq hid
  obtain ⟨hmem, hpending⟩ := mem_pendingRows.mp hr
  rw [h.keyed.eq_of_key hq hmem hid]
  exact hpending

theorem released_same (error : String) : SameEvent (releasedRow error) := ⟨fun _ => rfl, fun _ => rfl⟩

theorem published_same (now : Instant) : SameEvent (publishedRow now) := ⟨fun _ => rfl, fun _ => rfl⟩

end Rows

section Rounds
variable {fails : Uuid → Bool} {rows : List OutboxRow} {row : OutboxRow} {draw : BatchDraw}

/-- The oldest pending row fails only where none waits that does not. -/
theorem PoisonLast.none_waiting (h : PoisonLast fails rows) (order : RowOrder)
    (hfirst : order.first (pendingRows rows) = some row)
    (hfails : fails row.outboxEventId = true) : waiting fails rows = [] := by
  rw [List.eq_nil_iff_forall_not_mem]
  intro id hid
  obtain ⟨hsucceeds, r, hr, rfl⟩ := mem_waiting.mp hid
  have hyounger := h row (order.mem_first _ _ hfirst) r hr hfails hsucceeds
  have holdest := order.oldest _ _ hfirst r hr
  exact absurd hyounger (not_lt.mpr holdest)

variable (draw) in
/-- The rounds publish what does not fail, an event each. -/
theorem rounds_waiting (hunclaimed : Unclaimed rows) (hlast : PoisonLast fails rows) (left : Nat) :
    Unclaimed (publishRounds fails draw left rows) ∧
      PoisonLast fails (publishRounds fails draw left rows) ∧
      (waiting fails (publishRounds fails draw left rows)).length ≤
        (waiting fails rows).length - left := by
  induction left generalizing rows with
  | zero => exact ⟨hunclaimed, hlast, Nat.le_refl _⟩
  | succ left ih =>
    unfold publishRounds
    cases hfirst : (draw.order left).first (pendingRows rows) with
    | none =>
      have hnone := (draw.order left).first_eq_none _ hfirst
      have hwaiting : waiting fails rows = [] := by
        rw [List.eq_nil_iff_forall_not_mem]
        intro id hid
        obtain ⟨-, r, hr, -⟩ := mem_waiting.mp hid
        rw [hnone] at hr
        exact absurd hr List.not_mem_nil
      dsimp only
      rw [hwaiting]
      exact ⟨hunclaimed, hlast, Nat.zero_le _⟩
    | some row =>
      have hrow := (draw.order left).mem_first _ _ hfirst
      dsimp only
      by_cases hfails : fails row.outboxEventId = true
      · rw [if_pos hfails, claim_release]
        have hold := fun r hr => pending_updateEvent (r := r)
          (released_same (draw.error row.outboxEventId)) hr (hunclaimed.pending hrow)
        have hnone := hlast.none_waiting _ hfirst hfails
        refine ⟨hunclaimed.updateEvent (released_same _) fun _ => .inl rfl, hlast.update hold, ?_⟩
        rw [hnone, List.length_nil, Nat.zero_sub, Nat.le_zero, List.length_eq_zero_iff,
          List.eq_nil_iff_forall_not_mem]
        intro id hid
        obtain ⟨hsucceeds, r, hr, rfl⟩ := mem_waiting.mp hid
        obtain ⟨q, hq, hqid, -⟩ := hold r hr
        have hin : r.outboxEventId ∈ waiting fails rows := mem_waiting.mpr ⟨hsucceeds, q, hq, hqid⟩
        rw [hnone] at hin
        exact absurd hin List.not_mem_nil
      · have hsucceeds : fails row.outboxEventId = false := by
          simpa using hfails
        rw [if_neg hfails, claim_mark]
        have hold := fun r hr => pending_updateEvent (r := r)
          (published_same (draw.publishedAt left)) hr (hunclaimed.pending hrow)
        have hnext := ih (hunclaimed.updateEvent (published_same _) fun _ => .inr rfl)
          (hlast.update hold)
        have hlen := length_waiting_published hunclaimed.keyed (published_same (draw.publishedAt left))
          (fun _ => rfl) (mem_waiting.mpr ⟨hsucceeds, row, hrow, rfl⟩)
        refine ⟨hnext.1, hnext.2.1, hnext.2.2.trans ?_⟩
        omega

/-- Batch after batch fifty fewer wait. -/
theorem batches_waiting (hunclaimed : Unclaimed rows) (hlast : PoisonLast fails rows)
    (draws : List BatchDraw) :
    Unclaimed (Runs.run (publishBatch fails) rows draws) ∧
      (waiting fails (Runs.run (publishBatch fails) rows draws)).length ≤
        (waiting fails rows).length - 50 * draws.length := by
  induction draws generalizing rows with
  | nil => exact ⟨hunclaimed, Nat.le_refl _⟩
  | cons draw draws ih =>
    obtain ⟨hunclaimed', hlast', hlen⟩ := rounds_waiting draw hunclaimed hlast 50
    rw [Runs.run, publishBatch, hunclaimed.recover]
    obtain ⟨hdone, hdoneLen⟩ := ih hunclaimed' hlast'
    refine ⟨hdone, hdoneLen.trans ?_⟩
    rw [List.length_cons]
    omega

/-! An event that fails and is at least as old as another one. -/

/-- The row is as old as any. -/
def oldestOf (rows : List OutboxRow) (r : OutboxRow) : Bool :=
  rows.all fun q => r.createdAt ≤ q.createdAt

theorem oldestOf_iff {r : OutboxRow} :
    oldestOf rows r = true ↔ ∀ q ∈ rows, r.createdAt ≤ q.createdAt := by
  simp [oldestOf]

theorem exists_oldest (h : rows ≠ []) : ∃ r ∈ rows, oldestOf rows r = true := by
  induction rows with
  | nil => exact absurd rfl h
  | cons r rows ih =>
    by_cases hlast : rows = []
    · exact ⟨r, List.mem_cons_self, by simp [oldestOf, hlast]⟩
    · obtain ⟨q, hq, hold⟩ := ih hlast
      rw [oldestOf_iff] at hold
      by_cases hle : r.createdAt ≤ q.createdAt
      · refine ⟨r, List.mem_cons_self, oldestOf_iff.mpr ?_⟩
        intro p hp
        cases List.mem_cons.mp hp with
        | inl he => exact (congrArg OutboxRow.createdAt he).ge
        | inr hp => exact hle.trans (hold p hp)
      · refine ⟨q, List.mem_cons_of_mem r hq, oldestOf_iff.mpr ?_⟩
        intro p hp
        cases List.mem_cons.mp hp with
        | inl he => exact he ▸ (not_le.mp hle).le
        | inr hp => exact hold p hp

/-- Of one age, the rows of events that fail first. -/
def firstPoison (fails : Uuid → Bool) (rows : List OutboxRow) : Option OutboxRow :=
  (rows.find? fun r => oldestOf rows r && fails r.outboxEventId).or (rows.find? (oldestOf rows))

theorem firstPoison_some {row : OutboxRow} (h : firstPoison fails rows = some row) :
    row ∈ rows ∧ oldestOf rows row = true ∧
      ∀ r ∈ rows, oldestOf rows r = true → fails r.outboxEventId = true →
        fails row.outboxEventId = true := by
  unfold firstPoison at h
  cases hf : rows.find? fun r => oldestOf rows r && fails r.outboxEventId with
  | some q =>
    rw [hf, Option.some_or] at h
    obtain rfl := Option.some.inj h
    have hq := List.find?_some hf
    rw [Bool.and_eq_true] at hq
    exact ⟨List.mem_of_find?_eq_some hf, hq.1, fun _ _ _ _ => hq.2⟩
  | none =>
    rw [hf, Option.none_or] at h
    refine ⟨List.mem_of_find?_eq_some h, List.find?_some h, ?_⟩
    intro r hr hold hfails
    exact absurd (by rw [hold, hfails]; rfl) (List.find?_eq_none.mp hf r hr)

def poisonFirst (fails : Uuid → Bool) : RowOrder where
  first := firstPoison fails
  first_eq_none := by
    intro rows h
    by_contra hne
    obtain ⟨r, hr, hold⟩ := exists_oldest hne
    have hnone := (Option.or_eq_none_iff.mp h).2
    exact List.find?_eq_none.mp hnone r hr hold
  mem_first := fun _ _ h => (firstPoison_some h).1
  oldest := fun _ _ h => oldestOf_iff.mp (firstPoison_some h).2.1

/-- Some row of the event is pending. -/
def Pends (id : Uuid) (createdAt : Instant) (rows : List OutboxRow) : Prop :=
  ∃ r ∈ pendingRows rows, r.outboxEventId = id ∧ r.createdAt = createdAt

theorem Pends.published {id other : Uuid} {at_ : Instant} {f : OutboxRow → OutboxRow}
    (h : Pends id at_ rows) (hne : id ≠ other) : Pends id at_ (updateEvent other f rows) := by
  obtain ⟨r, hr, rfl, hat⟩ := h
  exact ⟨r, mem_updateEvent_of_ne hr hne, rfl, hat⟩

theorem Pends.released {id other : Uuid} {at_ : Instant} (h : Pends id at_ rows) (error : String) :
    Pends id at_ (updateEvent other (releasedRow error) rows) := by
  obtain ⟨r, hr, rfl, hat⟩ := h
  by_cases hsame : r.outboxEventId = other
  · refine ⟨releasedRow error r, mem_pendingRows.mpr ⟨?_, rfl⟩, rfl, hat⟩
    exact mem_updateWhere_of (mem_pendingRows.mp hr).1 (decide_eq_true hsame)
  · exact ⟨r, mem_updateEvent_of_ne hr hsame, rfl, hat⟩

/-- A batch does not get past an event that fails. -/
theorem rounds_blocked {poison id : Uuid} {at_ at_' : Instant} (hunclaimed : Unclaimed rows)
    (horder : ∀ left, draw.order left = poisonFirst fails) (hpoison : Pends poison at_ rows)
    (hrow : Pends id at_' rows) (hfails : fails poison = true) (hle : at_ ≤ at_') (left : Nat) :
    Unclaimed (publishRounds fails draw left rows) ∧
      Pends poison at_ (publishRounds fails draw left rows) ∧
      Pends id at_' (publishRounds fails draw left rows) := by
  induction left generalizing rows with
  | zero => exact ⟨hunclaimed, hpoison, hrow⟩
  | succ left ih =>
    unfold publishRounds
    cases hfirst : (draw.order left).first (pendingRows rows) with
    | none => exact ⟨hunclaimed, hpoison, hrow⟩
    | some row =>
      dsimp only
      by_cases hfailed : fails row.outboxEventId = true
      · rw [if_pos hfailed, claim_release]
        exact ⟨hunclaimed.updateEvent (released_same _) fun _ => .inl rfl, hpoison.released _,
          hrow.released _⟩
      · rw [if_neg hfailed, claim_mark]
        have hother : poison ≠ row.outboxEventId := fun hsame => hfailed (hsame ▸ hfails)
        have hlater : id ≠ row.outboxEventId := by
          intro hsame
          obtain ⟨r, hr, hid, hat⟩ := hpoison
          obtain ⟨q, hq, hqid, hqat⟩ := hrow
          rw [horder left] at hfirst
          obtain ⟨hmem, hold, hpoisoned⟩ := firstPoison_some hfirst
          have heq : q = row := hunclaimed.keyed.eq_of_key (mem_pendingRows.mp hq).1
            (mem_pendingRows.mp hmem).1 (hqid.trans hsame)
          -- the poisoned row is no younger than the one drawn, so it would have been drawn
          have hpoisonOld : oldestOf (pendingRows rows) r = true := by
            rw [oldestOf_iff] at hold ⊢
            intro p hp
            calc r.createdAt = at_ := hat
              _ ≤ at_' := hle
              _ = row.createdAt := heq ▸ hqat.symm
              _ ≤ p.createdAt := hold p hp
          exact hfailed (hpoisoned r hr hpoisonOld (hid ▸ hfails))
        exact ih (hunclaimed.updateEvent (published_same _) fun _ => .inr rfl)
          (hpoison.published hother) (hrow.published hlater)

theorem batches_blocked {poison id : Uuid} {at_ at_' : Instant} (hunclaimed : Unclaimed rows)
    (hpoison : Pends poison at_ rows) (hrow : Pends id at_' rows) (hfails : fails poison = true)
    (hle : at_ ≤ at_') (draws : List BatchDraw)
    (horder : ∀ draw ∈ draws, ∀ left, draw.order left = poisonFirst fails) :
    Pends id at_' (Runs.run (publishBatch fails) rows draws) := by
  induction draws generalizing rows with
  | nil => exact hrow
  | cons draw draws ih =>
    obtain ⟨hunclaimed', hpoison', hrow'⟩ := rounds_blocked hunclaimed
      (horder draw List.mem_cons_self) hpoison hrow hfails hle 50
    rw [Runs.run, publishBatch, hunclaimed.recover]
    exact ih hunclaimed' hpoison' hrow' fun d hd => horder d (List.mem_cons_of_mem draw hd)

/-- Any number of batches that draw the same. -/
def poisonDraw (fails : Uuid → Bool) : BatchDraw :=
  ⟨0, fun _ => 0, fun _ => 0, fun _ => poisonFirst fails, fun _ => ""⟩

theorem PendingOutbox.unclaimed (outbox : PendingOutbox) : Unclaimed outbox.rows where
  keyed := outbox.keyed
  status := fun row hrow => .inl (outbox.pending row hrow)

theorem not_isolated {outbox : PendingOutbox} (poison row : OutboxRow)
    (hpoison : poison ∈ outbox.rows) (hrow : row ∈ outbox.rows)
    (hfails : fails poison.outboxEventId = true) (hsucceeds : fails row.outboxEventId = false)
    (hle : poison.createdAt ≤ row.createdAt) : ¬Isolated fails outbox := by
  intro h
  obtain ⟨batches, hdone⟩ := h
  have hpends : ∀ r ∈ outbox.rows, Pends r.outboxEventId r.createdAt outbox.rows := fun r hr =>
    ⟨r, mem_pendingRows.mpr ⟨hr, outbox.pending r hr⟩, rfl, rfl⟩
  obtain ⟨r, hr, hid, -⟩ := batches_blocked outbox.unclaimed (hpends poison hpoison)
    (hpends row hrow) hfails hle (List.replicate batches (poisonDraw fails))
    fun draw hdraw left => by rw [List.eq_of_mem_replicate hdraw]; rfl
  obtain ⟨hmem, hpending⟩ := mem_pendingRows.mp hr
  have hpublished := hdone (List.replicate batches (poisonDraw fails))
    (by rw [List.length_replicate]) r hmem (hid ▸ hsucceeds)
  rw [hpending] at hpublished
  cases hpublished

end Rounds

/-- With one publisher and whatever order rows of one age are returned in, every event that does
not fail is published after some number of batches exactly when all of them are older than every
event that fails. -/
theorem poison_isolated_iff (fails : Uuid → Bool) (outbox : PendingOutbox) :
    Isolated fails outbox ↔
      ∀ poison ∈ outbox.rows, ∀ row ∈ outbox.rows, fails poison.outboxEventId = true →
        fails row.outboxEventId = false → row.createdAt < poison.createdAt := by
  constructor
  · intro h poison hpoison row hrow hfails hsucceeds
    by_contra hle
    exact not_isolated poison row hpoison hrow hfails hsucceeds (not_lt.mp hle) h
  · intro h
    have hlast : PoisonLast fails outbox.rows := fun poison hpoison row hrow =>
      h poison (mem_pendingRows.mp hpoison).1 row (mem_pendingRows.mp hrow).1
    refine ⟨(outbox.rows.length + 49) / 50, fun draws hdraws row hrow hsucceeds => ?_⟩
    obtain ⟨hunclaimed, hlen⟩ := batches_waiting outbox.unclaimed hlast draws
    have hfew : (waiting fails outbox.rows).length ≤ outbox.rows.length := by
      rw [waiting, List.length_map]
      exact List.length_filter_le _ _
    have hnone : (waiting fails (Runs.run (publishBatch fails) outbox.rows draws)).length = 0 := by
      omega
    rcases hunclaimed.status row hrow with hpending | hpublished
    · have hin : row.outboxEventId ∈
          waiting fails (Runs.run (publishBatch fails) outbox.rows draws) :=
        mem_waiting.mpr ⟨hsucceeds, row, mem_pendingRows.mpr ⟨hrow, hpending⟩, rfl⟩
      rw [List.length_eq_zero_iff.mp hnone] at hin
      exact absurd hin List.not_mem_nil
    · exact hpublished

/-- An event whose publish call fails, and one behind it. -/
def blockedOutbox : PendingOutbox where
  rows := [.inserted 1 "transaction" 2 "payment.transfer_posted.v1" [] 0,
    .inserted 3 "transaction" 4 "payment.transfer_posted.v1" [] 1]
  keyed := show List.Nodup _ by decide
  pending := by decide

/-- The event behind it is never published. -/
theorem younger_event_blocked : ¬Isolated (fun id => id = 1) blockedOutbox :=
  not_isolated (.inserted 1 "transaction" 2 "payment.transfer_posted.v1" [] 0)
    (.inserted 3 "transaction" 4 "payment.transfer_posted.v1" [] 1) (by decide) (by decide)
    (by decide) (by decide) (by decide)

/-! A batch in the steps of the one publisher. -/

/-- Rows of one age in the order of the table. -/
def tableOrder : RowOrder where
  first := fun rows => (rows.insertionSort fun r q => r.createdAt ≤ q.createdAt).head?
  first_eq_none := by
    intro rows h
    have hnil := List.head?_eq_none_iff.mp h
    have hlen := List.length_insertionSort (fun r q : OutboxRow => r.createdAt ≤ q.createdAt) rows
    rw [hnil, List.length_nil] at hlen
    exact List.length_eq_zero_iff.mp hlen.symm
  mem_first := fun _ _ h => (List.mem_insertionSort _).mp (List.mem_of_head? h)
  oldest := by
    intro rows row h r hr
    have hsorted := List.pairwise_insertionSort (fun r q : OutboxRow => r.createdAt ≤ q.createdAt) rows
    rw [← List.mem_insertionSort (r := fun r q : OutboxRow => r.createdAt ≤ q.createdAt)] at hr
    obtain ⟨rest, hrest⟩ := List.head?_eq_some_iff.mp h
    rw [hrest] at hsorted hr
    rcases List.mem_cons.mp hr with rfl | hr
    · exact le_rfl
    · exact (List.pairwise_cons.mp hsorted).1 r hr

/-- The steps of the rounds that remain. -/
def roundEvents (fails : Uuid → Bool) (draw : BatchDraw) : Nat → List OutboxRow → List RelayEvent
  | 0, _ => [.select 0 draw.recoveredAt]
  | left + 1, rows =>
    .select 0 (draw.claimedAt left) ::
      match tableOrder.first (pendingRows rows) with
      | none => []
      | some row =>
        let claimed := claimRow ⟨row.outboxEventId, draw.claimedAt left⟩ rows
        .claim 0 ::
          if fails row.outboxEventId = true then
            [.failed 0 (draw.error row.outboxEventId), .release 0]
          else .delivered 0 :: .mark 0 (draw.publishedAt left) ::
            roundEvents fails draw left
              (markPublished row.outboxEventId (draw.publishedAt left) claimed)

/-- The steps of a publisher that is alone do to the rows what `publish_batch` does. -/
theorem relay_rounds (fails : Uuid → Bool) (draw : BatchDraw)
    (horder : ∀ left, draw.order left = tableOrder) (left : Nat) (s : Relay)
    (hphases : s.phases = [.looping left])
    (hclaims : ∀ left, draw.claimedAt left ≤ s.clock)
    (hmarks : ∀ left, draw.publishedAt left ≤ s.clock) :
    (Runs.run relayStep s (roundEvents fails draw left s.rows)).rows =
        publishRounds fails draw left s.rows ∧
      (Runs.run relayStep s (roundEvents fails draw left s.rows)).phases = [.idle] := by
  induction left generalizing s with
  | zero => simp [roundEvents, publishRounds, Runs.run, relayStep, hphases, Relay.become]
  | succ left ih =>
    have hfree : ∀ id, s.locked id = false := by
      intro id
      simp [Relay.locked, hphases, Phase.locks]
    have hnext : s.nextPending = tableOrder.first (pendingRows s.rows) := by
      simp [Relay.nextPending, tableOrder, pendingRows, hfree]
    unfold roundEvents publishRounds
    rw [horder left]
    cases hfirst : tableOrder.first (pendingRows s.rows) with
    | none =>
      rw [hfirst] at hnext
      have hclaim := not_lt.mpr (hclaims left)
      simp [Runs.run, relayStep, hphases, Relay.become, hnext, hclaim]
    | some row =>
      rw [hfirst] at hnext
      have hclaim := not_lt.mpr (hclaims left)
      dsimp only
      by_cases hfails : fails row.outboxEventId = true
      · rw [if_pos hfails, if_pos hfails]
        simp [Runs.run, relayStep, hphases, Relay.become, hnext, hclaim, Relay.locked, Phase.locks]
      · rw [if_neg hfails, if_neg hfails]
        have hmark := not_lt.mpr (hmarks left)
        have hround : Runs.run relayStep s [.select 0 (draw.claimedAt left), .claim 0, .delivered 0,
            .mark 0 (draw.publishedAt left)] = { s with
              rows := markPublished row.outboxEventId (draw.publishedAt left)
                (claimRow ⟨row.outboxEventId, draw.claimedAt left⟩ s.rows)
              phases := [.looping left]
              broker := s.broker ++ [row.outboxEventId] } := by
          simp [Runs.run, relayStep, hphases, Relay.become, hnext, hclaim, hmark, Relay.locked,
            Phase.locks]
        show (Runs.run relayStep s ([.select 0 (draw.claimedAt left), .claim 0, .delivered 0,
            .mark 0 (draw.publishedAt left)] ++ roundEvents fails draw left _)).rows = _ ∧
          (Runs.run relayStep s ([.select 0 (draw.claimedAt left), .claim 0, .delivered 0,
            .mark 0 (draw.publishedAt left)] ++ roundEvents fails draw left _)).phases = _
        rw [Runs.run_append, hround]
        exact ih _ rfl hclaims hmarks

/-- The steps of a batch of a publisher that is alone do to the rows what `publish_batch` does. -/
theorem relay_batch (fails : Uuid → Bool) (draw : BatchDraw)
    (horder : ∀ left, draw.order left = tableOrder) (s : Relay) (hphases : s.phases = [.idle])
    (hrecovered : draw.recoveredAt ≤ s.clock) (hclaims : ∀ left, draw.claimedAt left ≤ s.clock)
    (hmarks : ∀ left, draw.publishedAt left ≤ s.clock) :
    (Runs.run relayStep s (.start 0 :: .recover 0 draw.recoveredAt ::
        roundEvents fails draw 50 (recoverExpiredClaims draw.recoveredAt s.rows))).rows =
      publishBatch fails s.rows draw := by
  have hbegin : Runs.run relayStep s [.start 0, .recover 0 draw.recoveredAt] = { s with
      rows := recoverExpiredClaims draw.recoveredAt s.rows, phases := [.looping 50] } := by
    have hrecover := not_lt.mpr hrecovered
    simp [Runs.run, relayStep, hphases, Relay.become, hrecover]
  show (Runs.run relayStep s ([.start 0, .recover 0 draw.recoveredAt] ++
    roundEvents fails draw 50 _)).rows = _
  rw [Runs.run_append, hbegin]
  exact (relay_rounds fails draw horder 50
    { s with rows := recoverExpiredClaims draw.recoveredAt s.rows, phases := [.looping 50] } rfl
    hclaims hmarks).1

end Bantam
