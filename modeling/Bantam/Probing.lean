import Bantam.AsvsRuns
import Mathlib.Tactic.Linarith

/-! The executions of the probes exclude each other and keep their distance. -/
namespace Bantam

/-! What a step of a call can do. -/

/-- What a step makes of the system when it moves the call at `i`. -/
inductive AsvsCallMove (services : AsvsServices) (s : AsvsState) (i : Nat) (call : AsvsCall) :
    AsvsCallStep → AsvsState → Prop where
  | idle (step : AsvsCallStep) (h : ∀ run, step ≠ .run run) : AsvsCallMove services s i call step s
  | finished (step : AsvsCallStep) (next : AsvsCall) (h : ∀ run, step ≠ .run run)
      (hlocks : next.locks = []) (hexecution : next.execution = none) :
      AsvsCallMove services s i call step (s.setCall i next)
  | selected (request : ApproveRequest) (row : Generation)
      (hcall : call = .approval request .requested)
      (hfree : s.blocked i (.row request.generationId) = false) (hrow : row ∈ s.rows)
      (hid : row.generationId = request.generationId) :
      AsvsCallMove services s i call .select (s.setCall i (.approval request (.selected row)))
  | approved (request : ApproveRequest) (row : Generation) (f : Generation → Generation)
      (hcall : call = .approval request (.selected row)) (hready : row.status = .ready)
      (hf : ∀ row, (f row).toReservation = row.toReservation ∧ (f row).status = .executing) :
      AsvsCallMove services s i call .review
        ((s.updateRows request.generationId (fun _ => true) f).setCall i
          (.approval request (.executing .requested)))
  | ran (step : RunStep) (initiatedBy : Uuid) (run : RunPhase)
      (hcall : call.execution = some (initiatedBy, run)) :
      AsvsCallMove services s i call (.run step)
        { s.setCall i (call.withRun (run.advance services.runnerEnabled initiatedBy s.now
            (s.blocked i .runner) s.runs step).1) with
          runs := s.runs ++ (run.advance services.runnerEnabled initiatedBy s.now
            (s.blocked i .runner) s.runs step).2.toList }
  | still (step : RunStep) (hcall : call.execution = none) :
      AsvsCallMove services s i call (.run step) s
  | executed (request : ApproveRequest) (run : AsvsRun) (f : Generation → Generation)
      (hcall : call = .approval request (.executing (.ended (.ok run))))
      (hfree : s.blocked i (.row request.generationId) = false)
      (hf : ∀ row, (f row).toReservation = row.toReservation ∧ (f row).status = .executed ∧
        (f row).asvsRunId = some run.runId) :
      AsvsCallMove services s i call .settle
        ((s.updateRows request.generationId (· = .executing) f).setCall i
          (.approval request (.ended (.ok run))))
  | restored (request : ApproveRequest) (failure : Failure) (result : Except Failure AsvsRun)
      (f : Generation → Generation)
      (hcall : call = .approval request (.executing (.ended (.error failure))))
      (hfree : s.blocked i (.row request.generationId) = false)
      (hf : ∀ row, (f row).toReservation = row.toReservation ∧ (f row).status = .ready) :
      AsvsCallMove services s i call .settle
        ((s.updateRows request.generationId (· = .executing) f).setCall i
          (.approval request (.ended result)))

section Moves
variable {services : AsvsServices} {s : AsvsState} {i : Nat} {call : AsvsCall}

theorem select_move (request : ApproveRequest) (hcall : call = .approval request .requested) :
    AsvsCallMove services s i call .select (selectGeneration services s i request) := by
  unfold selectGeneration
  split_ifs with hdisabled hblocked
  · exact .finished _ _ (fun _ h => by cases h) rfl rfl
  · exact .idle _ fun _ h => by cases h
  · split
    · exact .finished _ _ (fun _ h => by cases h) rfl rfl
    · rename_i row hfind
      have hkey := List.find?_some hfind
      rw [decide_eq_true_eq] at hkey
      exact .selected request row hcall (Bool.eq_false_iff.mpr hblocked)
        (List.mem_of_find?_eq_some hfind) hkey.1

theorem review_move (request : ApproveRequest) (row : Generation)
    (hcall : call = .approval request (.selected row)) :
    AsvsCallMove services s i call .review (approveGeneration services s i request row) := by
  unfold approveGeneration
  split_ifs with hready
  · exact .finished _ _ (fun _ h => by cases h) rfl rfl
  · split
    · exact .finished _ _ (fun _ h => by cases h) rfl rfl
    · exact .approved request row _ hcall (not_not.mp hready) fun _ => ⟨rfl, rfl⟩

theorem settle_move (request : ApproveRequest) (result : Except Failure AsvsRun)
    (hcall : call = .approval request (.executing (.ended result))) :
    AsvsCallMove services s i call .settle (settleExecution s i request result) := by
  cases result with
  | ok run =>
    simp only [settleExecution]
    split_ifs with hblocked hfinds
    · exact .idle _ fun _ h => by cases h
    · exact .executed request run _ hcall (Bool.eq_false_iff.mpr hblocked)
        fun _ => ⟨rfl, rfl, rfl⟩
    · exact .finished _ _ (fun _ h => by cases h) rfl rfl
  | error failure =>
    simp only [settleExecution]
    split_ifs with hblocked
    · exact .idle _ fun _ h => by cases h
    · exact .restored request failure _ _ hcall (Bool.eq_false_iff.mpr hblocked)
        fun _ => ⟨rfl, rfl⟩

theorem asvsCallStep_move (services : AsvsServices) (s : AsvsState) (i : Nat) (call : AsvsCall)
    (step : AsvsCallStep) : AsvsCallMove services s i call step (asvsCallStep services s i call step) := by
  cases step with
  | select =>
    simp only [asvsCallStep]
    split
    · exact select_move _ rfl
    · exact .idle _ fun _ h => by cases h
  | review =>
    simp only [asvsCallStep]
    split
    · exact review_move _ _ rfl
    · exact .idle _ fun _ h => by cases h
  | run step =>
    simp only [asvsCallStep]
    split
    · exact .ran step _ _ ‹_›
    · exact .still step ‹_›
  | settle =>
    simp only [asvsCallStep]
    split
    · exact settle_move _ _ rfl
    · exact .idle _ fun _ h => by cases h
  | fail failure =>
    simp only [asvsCallStep]
    split
    · exact .finished _ _ (fun _ h => by cases h) rfl rfl
    · exact .finished _ _ (fun _ h => by cases h) rfl rfl
    · exact .finished _ _ (fun _ h => by cases h) rfl rfl
    · exact .idle _ fun _ h => by cases h
  | crash => exact .finished _ _ (fun _ h => by cases h) rfl rfl
end Moves

/-! The locks. -/

section Runs
variable {enabled blocked : Bool} {initiatedBy : Uuid} {now : Instant} {runs : List AsvsRun}
  {phase : RunPhase} {step : RunStep}

/-- An execution comes to hold the advisory lock only where no other one has it. -/
theorem advance_holdsLock
    (h : (phase.advance enabled initiatedBy now blocked runs step).1.holdsLock = true) :
    phase.holdsLock = true ∨ blocked = false := by
  cases phase with
  | requested =>
    cases step with
    | lock =>
      simp only [RunPhase.advance] at h
      split_ifs at h with hdisabled hblocked
      · cases h
      · cases h
      · exact .inr (Bool.eq_false_iff.mpr hblocked)
    | check | start | probe | insert | commit | fail | unlock => cases h
  | ended result => cases step <;> cases h
  | locked | spaced | probing | probed | inserted | releasing => exact .inl rfl

/-- What commits holds the lock. -/
theorem advance_commits {run : AsvsRun}
    (h : (phase.advance enabled initiatedBy now blocked runs step).2 = some run) :
    phase = .inserted run ∧
      ∃ result, (phase.advance enabled initiatedBy now blocked runs step).1 = .releasing result := by
  cases phase with
  | inserted inserted =>
    cases step with
    | commit acknowledged =>
      cases h
      exact ⟨rfl, _, rfl⟩
    | lock | check | start | probe | insert | fail | unlock => cases h
  | probed startedAt completedAt records =>
    cases step with
    | insert runId =>
      simp only [RunPhase.advance] at h
      split_ifs at h
      split at h <;> cases h
    | lock | check | start | probe | commit | fail | unlock => cases h
  | requested =>
    cases step with
    | lock =>
      simp only [RunPhase.advance] at h
      split_ifs at h
    | check | start | probe | insert | commit | fail | unlock => cases h
  | locked =>
    cases step with
    | check =>
      simp only [RunPhase.advance] at h
      split_ifs at h
    | lock | start | probe | insert | commit | fail | unlock => cases h
  | spaced | probing | releasing | ended => cases step <;> cases h
end Runs

section Locks
variable {services : AsvsServices} {s : AsvsState} {i : Nat} {call : AsvsCall}

theorem execution_locks {initiatedBy : Uuid} {run : RunPhase}
    (h : call.execution = some (initiatedBy, run)) :
    call.locks = if run.holdsLock then [.runner] else [] := by
  unfold AsvsCall.execution at h
  split at h <;> cases h <;> rfl

theorem execution_withRun {initiatedBy : Uuid} {run : RunPhase} (next : RunPhase)
    (h : call.execution = some (initiatedBy, run)) :
    (call.withRun next).execution = some (initiatedBy, next) := by
  unfold AsvsCall.execution at h
  split at h <;> cases h <;> rfl

theorem AsvsCallMove.exclusive {step : AsvsCallStep} {s' : AsvsState}
    (h : AsvsCallMove services s i call step s') (hi : s.calls[i]? = some call)
    (hexclusive : Locks.Exclusive AsvsCall.locks s.calls) :
    Locks.Exclusive AsvsCall.locks s'.calls := by
  have taken : ∀ next : AsvsCall,
      (∀ l ∈ next.locks, l ∈ call.locks ∨ s.blocked i l = false) →
      Locks.Exclusive AsvsCall.locks (s.calls.set i next) := by
    intro next hnext
    refine hexclusive.set fun l hl => ?_
    cases hnext l hl with
    | inl hheld => exact .inl ⟨call, hi, hheld⟩
    | inr hfree => exact .inr hfree
  cases h with
  | idle | still => exact hexclusive
  | finished _ next hstep hlocks =>
    refine taken next fun l hl => ?_
    rw [hlocks] at hl
    cases hl
  | selected request row hcall hfree =>
    refine taken _ fun l hl => .inr ?_
    rw [List.mem_singleton.mp hl]
    exact hfree
  | approved | executed | restored => exact taken _ fun l hl => by cases hl
  | ran step initiatedBy run hexecution =>
    refine taken _ fun l hl => ?_
    rw [execution_locks (execution_withRun _ hexecution)] at hl
    split_ifs at hl with hholds
    · cases List.mem_singleton.mp hl
      cases advance_holdsLock hholds with
      | inl hheld =>
        refine .inl ?_
        rw [execution_locks hexecution, if_pos hheld]
        exact List.mem_singleton_self _
      | inr hfree => exact .inr hfree
    · cases hl

theorem generateStep_now (service : AsvsAi) (s : GenerationState) (i : Nat) (call : GenerateCall)
    (step : GenerateStep) : (generateStep service s i call step).now = s.now := by
  unfold generateStep answer failGeneration
  cases step with
  | begin | count | commit | lose | refuse error =>
    simp only
    split <;> rfl
  | lock =>
    simp only
    split
    · split_ifs <;> rfl
    · rfl
  | insert =>
    simp only
    split
    · split
      · rfl
      · split_ifs <;> rfl
    · rfl
  | answer raw =>
    simp only
    split
    · split
      · rfl
      · rfl
      · split_ifs <;> rfl
    · rfl

/-- The calls after an event: those that were there, with one more, or one of them moved. -/
theorem asvsStep_calls (services : AsvsServices) (s : AsvsState) (e : AsvsEvent) :
    ((asvsStep services s e).calls = s.calls ∧ (asvsStep services s e).runs = s.runs ∧
      s.now ≤ (asvsStep services s e).now) ∨
    (∃ call, (asvsStep services s e) = { s with calls := s.calls ++ [call] } ∧ call.locks = [] ∧
      ∀ e ∈ call.execution, e.2 = .requested) ∨
    ∃ i call step, e = .progress i step ∧ s.calls[i]? = some call ∧
      AsvsCallMove services s i call step (asvsStep services s e) := by
  cases e with
  | tick elapsed => exact .inl ⟨rfl, rfl, Int.le_add_of_nonneg_right (Int.natCast_nonneg elapsed)⟩
  | generate request => exact .inl ⟨rfl, rfl, Int.le_refl _⟩
  | advance i step =>
    simp only [asvsStep]
    split
    · split_ifs
      · exact .inl ⟨rfl, rfl, Int.le_refl _⟩
      · refine .inl ⟨rfl, rfl, Int.le_of_eq ?_⟩
        exact (generateStep_now services.ai s.generations i _ step).symm
    · exact .inl ⟨rfl, rfl, Int.le_refl _⟩
  | execute initiatedBy => exact .inr (.inl ⟨_, rfl, rfl, fun e h => by cases h; rfl⟩)
  | approve request => exact .inr (.inl ⟨_, rfl, rfl, fun e h => by cases h⟩)
  | progress i step =>
    simp only [asvsStep]
    split
    · rename_i call hi
      exact .inr (.inr ⟨i, call, step, rfl, hi, asvsCallStep_move services s i call step⟩)
    · exact .inl ⟨rfl, rfl, Int.le_refl _⟩
end Locks
/-! The distance between the runs. -/

/-- The run starts at least the cooldown after the completion of the other. -/
def AsvsRun.Follows (q run : AsvsRun) : Prop :=
  q.completedAt + seconds runCooldownSeconds ≤ run.startedAt

/-- The committed runs follow each other and those that were there before them. -/
def Spaced (initial committed : List AsvsRun) : Prop :=
  (∀ q ∈ initial, ∀ run ∈ committed, q.Follows run) ∧ committed.Pairwise AsvsRun.Follows

/-- The counters add up to the total and tell the status. -/
structure AsvsRun.Determined (run : AsvsRun) : Prop where
  total : run.controlsTotal = run.controlsPassed + run.controlsFailed +
    run.controlsInconclusive + run.controlsError
  status : run.status =
    if 0 < run.controlsError then .error
    else if 0 < run.controlsFailed then .fail
    else if 0 < run.controlsInconclusive then .inconclusive
    else .pass

/-- What an execution knows of the table while it has the lock. -/
def RunPhase.Kept (now : Instant) (runs : List AsvsRun) : RunPhase → Prop
  | .spaced => ∀ q ∈ runs, q.completedAt + seconds runCooldownSeconds ≤ now
  | .probing startedAt | .probed startedAt _ _ =>
    ∀ q ∈ runs, q.completedAt + seconds runCooldownSeconds ≤ startedAt
  | .inserted run => (∀ q ∈ runs, q.Follows run) ∧ run.Determined
  | _ => True

section Rows
variable {runId initiatedBy : Uuid} {startedAt completedAt : Instant}
  {records : List EvidenceRecord} {run : AsvsRun}

theorem statusCount_pos (value : EvidenceStatus) (records : List EvidenceRecord) :
    0 < statusCount value records ↔ value ∈ records.map EvidenceRecord.status := by
  unfold statusCount
  rw [List.countP_pos_iff, List.mem_map]
  constructor
  · intro h
    obtain ⟨record, hrecord, hvalue⟩ := h
    exact ⟨record, hrecord, of_decide_eq_true hvalue⟩
  · intro h
    obtain ⟨record, hrecord, hvalue⟩ := h
    exact ⟨record, hrecord, decide_eq_true hvalue⟩

/-- Every record has one of the four statuses. -/
theorem statusCount_total (records : List EvidenceRecord) :
    records.length = statusCount .pass records + statusCount .fail records +
      statusCount .inconclusive records + statusCount .error records := by
  unfold statusCount
  induction records with
  | nil => rfl
  | cons record records ih =>
    simp only [List.length_cons, List.countP_cons]
    cases record.status <;> simp <;> omega

theorem asvsRun_some (h : asvsRun runId initiatedBy startedAt completedAt records = some run) :
    run.runId = runId ∧ run.initiatedBy = initiatedBy ∧ run.startedAt = startedAt ∧
      run.Determined := by
  unfold asvsRun at h
  split_ifs at h with hrow
  cases h
  refine ⟨rfl, rfl, rfl, ⟨hrow.2.2, ?_⟩⟩
  simp only [runStatus, statusCount_pos]

/-- What the probes of a run give passes the constraints of the table. -/
theorem asvsRun_probes (runId initiatedBy : Uuid) (probes : Probes)
    (h : startedAt ≤ completedAt) :
    (asvsRun runId initiatedBy startedAt completedAt (LiveAsvsRunner.run probes)).isSome := by
  have hlength : (LiveAsvsRunner.run probes).length = 5 := rfl
  unfold asvsRun
  rw [dif_pos ⟨by rw [hlength]; decide, h, statusCount_total _⟩]
  rfl

/-- No run that is on record has completed after the last one. -/
theorem lastCompleted_le {runs : List AsvsRun} {q : AsvsRun} (hq : q ∈ runs) :
    ∃ last, lastCompleted runs = some last ∧ q.completedAt ≤ last := by
  have hmem : q.completedAt ∈ runs.map AsvsRun.completedAt := List.mem_map_of_mem hq
  unfold lastCompleted
  cases hmax : (runs.map AsvsRun.completedAt).max? with
  | none =>
    rw [List.max?_eq_none_iff] at hmax
    rw [hmax] at hmem
    cases hmem
  | some last => exact ⟨last, rfl, (List.max?_eq_some_iff.mp hmax).2 _ hmem⟩
end Rows

section Kept
variable {enabled blocked : Bool} {initiatedBy : Uuid} {now now' : Instant} {runs : List AsvsRun}
  {phase : RunPhase} {step : RunStep}

theorem RunPhase.kept_of_free (h : phase.holdsLock = false) : phase.Kept now runs := by
  cases phase with
  | requested | ended => trivial
  | locked | spaced | probing | probed | inserted | releasing => cases h

theorem RunPhase.Kept.later (h : phase.Kept now runs) (hnow : now ≤ now') :
    phase.Kept now' runs := by
  cases phase with
  | spaced => exact fun q hq => Int.le_trans (h q hq) hnow
  | requested | locked | probing | probed | inserted | releasing | ended => exact h

/-- A step that commits nothing keeps what the execution knows. -/
theorem RunPhase.Kept.advance (h : phase.Kept now runs)
    (hnone : (phase.advance enabled initiatedBy now blocked runs step).2 = none) :
    (phase.advance enabled initiatedBy now blocked runs step).1.Kept now runs := by
  cases phase with
  | requested =>
    cases step with
    | lock =>
      simp only [RunPhase.advance]
      split_ifs <;> trivial
    | check | start | probe | insert | commit | fail | unlock => trivial
  | locked =>
    cases step with
    | check =>
      simp only [RunPhase.advance]
      split_ifs with hrecent
      · trivial
      · intro q hq
        obtain ⟨last, hlast, hle⟩ := lastCompleted_le hq
        rw [hlast, Option.any_some, decide_eq_true_eq, not_lt] at hrecent
        have hle : q.completedAt ≤ last := hle
        have hage : q.completedAt + seconds runCooldownSeconds ≤ now :=
          Int.le_trans (Int.add_le_add_right hle _) (by linarith)
        exact hage
    | lock | start | probe | insert | commit | fail | unlock => trivial
  | spaced =>
    cases step with
    | fail failure => trivial
    | lock | check | start | probe | insert | commit | unlock => exact h
  | probing startedAt =>
    cases step with
    | fail failure => trivial
    | lock | check | start | probe | insert | commit | unlock => exact h
  | probed startedAt completedAt records =>
    cases step with
    | insert runId =>
      simp only [RunPhase.advance]
      split_ifs
      · trivial
      · split
        · rename_i run hrun
          obtain ⟨-, -, hstarted, hdetermined⟩ := asvsRun_some hrun
          refine ⟨fun q hq => ?_, hdetermined⟩
          rw [AsvsRun.Follows, hstarted]
          exact h q hq
        · trivial
    | fail failure => trivial
    | lock | check | start | probe | commit | unlock => exact h
  | inserted run =>
    cases step with
    | commit acknowledged => cases hnone
    | fail failure => trivial
    | lock | check | start | probe | insert | unlock => exact h
  | releasing result => cases step <;> trivial
  | ended result => cases step <;> trivial
end Kept

/-- The locks exclude each other, each execution knows what it has read of the table, and the
runs that were committed are spaced. -/
structure RunsKept (initial : List AsvsRun) (s : AsvsState) : Prop where
  exclusive : Locks.Exclusive AsvsCall.locks s.calls
  phases : ∀ call ∈ s.calls, ∀ e ∈ call.execution, e.2.Kept s.now s.runs
  table : ∃ committed, s.runs = initial ++ committed ∧ Spaced initial committed ∧
    ∀ run ∈ committed, run.Determined

section Kept
variable {services : AsvsServices} {initial : List AsvsRun} {s s' : AsvsState} {i : Nat}
  {call next : AsvsCall}

/-- A step that leaves the table and brings the mover to a phase that it keeps. -/
theorem RunsKept.moved (h : RunsKept initial s) (hruns : s'.runs = s.runs)
    (hnow : s'.now = s.now) (hcalls : s'.calls = s.calls.set i next)
    (hexclusive : Locks.Exclusive AsvsCall.locks s'.calls)
    (hnext : ∀ e ∈ next.execution, e.2.Kept s.now s.runs) : RunsKept initial s' := by
  refine ⟨hexclusive, fun c hc e he => ?_, hruns ▸ h.table⟩
  rw [hcalls] at hc
  rw [hruns, hnow]
  cases Locks.mem_set hc with
  | inl hnew => exact hnext e (hnew ▸ he)
  | inr hother =>
    obtain ⟨j, -, hj⟩ := hother
    exact h.phases c (List.mem_of_getElem? hj) e he

/-- A commit: the row follows all that are there, and no other execution knows the table. -/
theorem RunsKept.committed (h : RunsKept initial s) {initiatedBy : Uuid} {run : AsvsRun}
    {result : Except Failure AsvsRun} (hi : s.calls[i]? = some call)
    (hexecution : call.execution = some (initiatedBy, .inserted run))
    (hexclusive : Locks.Exclusive AsvsCall.locks
      (s.calls.set i (call.withRun (.releasing result)))) :
    RunsKept initial { s.setCall i (call.withRun (.releasing result)) with
      runs := s.runs ++ [run] } := by
  obtain ⟨hfollows, hdetermined⟩ :=
    h.phases call (List.mem_of_getElem? hi) (initiatedBy, .inserted run) hexecution
  have hlock : AsvsLock.runner ∈ call.locks := by
    rw [execution_locks hexecution]
    exact List.mem_singleton_self _
  refine ⟨hexclusive, fun c hc e he => ?_, ?_⟩
  · cases Locks.mem_set hc with
    | inl hnew =>
      subst hnew
      rw [execution_withRun _ hexecution] at he
      cases he
      trivial
    | inr hother =>
      -- the lock is at `i`, so this execution is before it or after it
      obtain ⟨j, hne, hj⟩ := hother
      have hfree := h.exclusive.disjoint hi hj (Ne.symm hne) _ hlock
      obtain ⟨caller, phase⟩ := e
      rw [execution_locks he] at hfree
      refine RunPhase.kept_of_free (Bool.eq_false_iff.mpr fun hholds => hfree ?_)
      rw [if_pos hholds]
      exact List.mem_singleton_self _
  · obtain ⟨committed, hruns, ⟨hbefore, hpairs⟩, hall⟩ := h.table
    rw [hruns] at hfollows
    refine ⟨committed ++ [run], ?_, ⟨?_, ?_⟩, ?_⟩
    · rw [← List.append_assoc, ← hruns]
    · intro q hq r hr
      cases List.mem_append.mp hr with
      | inl hr => exact hbefore q hq r hr
      | inr hr =>
        rw [List.mem_singleton.mp hr]
        exact hfollows q (List.mem_append_left _ hq)
    · refine List.pairwise_append.mpr ⟨hpairs, List.pairwise_singleton _ _, fun q hq r hr => ?_⟩
      rw [List.mem_singleton.mp hr]
      exact hfollows q (List.mem_append_right _ hq)
    · intro r hr
      cases List.mem_append.mp hr with
      | inl hr => exact hall r hr
      | inr hr =>
        rw [List.mem_singleton.mp hr]
        exact hdetermined

theorem RunsKept.ran (h : RunsKept initial s) {initiatedBy : Uuid} {run : RunPhase}
    (step : RunStep) (hi : s.calls[i]? = some call)
    (hexecution : call.execution = some (initiatedBy, run))
    (hexclusive : Locks.Exclusive AsvsCall.locks (s.calls.set i (call.withRun
      (run.advance services.runnerEnabled initiatedBy s.now (s.blocked i .runner) s.runs
        step).1))) :
    RunsKept initial { s.setCall i (call.withRun (run.advance services.runnerEnabled initiatedBy
      s.now (s.blocked i .runner) s.runs step).1) with
        runs := s.runs ++ (run.advance services.runnerEnabled initiatedBy s.now
          (s.blocked i .runner) s.runs step).2.toList } := by
  have hkept : run.Kept s.now s.runs := h.phases call (List.mem_of_getElem? hi) _ hexecution
  cases hcommit : (run.advance services.runnerEnabled initiatedBy s.now (s.blocked i .runner)
      s.runs step).2 with
  | none =>
    refine h.moved (List.append_nil _) rfl rfl hexclusive fun e he => ?_
    rw [execution_withRun _ hexecution] at he
    cases he
    exact hkept.advance hcommit
  | some row =>
    obtain ⟨rfl, result, hnext⟩ := advance_commits hcommit
    rw [hnext] at hexclusive ⊢
    exact h.committed hi hexecution hexclusive

theorem RunsKept.step (s : AsvsState) (e : AsvsEvent) (h : RunsKept initial s) :
    RunsKept initial (asvsStep services s e) := by
  rcases asvsStep_calls services s e with hsame | hnew | hmoved
  · obtain ⟨hcalls, hruns, hnow⟩ := hsame
    refine ⟨hcalls ▸ h.exclusive, fun c hc e he => ?_, hruns ▸ h.table⟩
    rw [hcalls] at hc
    rw [hruns]
    exact (h.phases c hc e he).later hnow
  · obtain ⟨call, hstep, hlocks, hrequested⟩ := hnew
    rw [hstep]
    refine ⟨h.exclusive.append hlocks, fun c hc e he => ?_, h.table⟩
    cases List.mem_append.mp hc with
    | inl hc => exact h.phases c hc e he
    | inr hc =>
      rw [List.mem_singleton.mp hc] at he
      rw [hrequested e he]
      trivial
  · obtain ⟨i, call, step, -, hi, hmove⟩ := hmoved
    have hexclusive := hmove.exclusive hi h.exclusive
    generalize asvsStep services s e = s' at hmove hexclusive
    cases hmove with
    | idle | still => exact h
    | finished _ next hstep hlocks hexecution =>
      refine h.moved rfl rfl rfl hexclusive fun e he => ?_
      rw [hexecution] at he
      cases he
    | selected | executed | restored =>
      exact h.moved rfl rfl rfl hexclusive fun e he => by cases he
    | approved =>
      refine h.moved rfl rfl rfl hexclusive fun e he => ?_
      cases he
      trivial
    | ran step initiatedBy run hexecution => exact h.ran step hi hexecution hexclusive
end Kept

/-- In every order of the statements of any number of calls, direct or of an approved plan,
failing wherever they do: no two executions probe at once, each committed run starts at least
the cooldown after the completion of every run before it, and its counters add up to its total
and determine its status. -/
theorem asvs_runs_exclusive (services : AsvsServices) (now : Instant) (initial : List AsvsRun)
    (es : List AsvsEvent) :
    let s := Runs.run (asvsStep services) (.start now initial) es
    (∀ (i j : Nat) a b, s.calls[i]? = some a → s.calls[j]? = some b →
      a.isProbing = true → b.isProbing = true → i = j) ∧
    ∃ committed, s.runs = initial ++ committed ∧ Spaced initial committed ∧
      ∀ run ∈ committed, run.Determined := by
  have hstart : RunsKept initial (.start now initial) := by
    refine ⟨Locks.exclusive_nil, fun c hc => (by cases hc), [], (List.append_nil _).symm, ?_, ?_⟩
    · exact ⟨fun q hq run hrun => (by cases hrun), List.Pairwise.nil⟩
    · exact fun run hrun => by cases hrun
  have h := Runs.run_invariant (@RunsKept.step services initial) hstart es
  refine ⟨fun i j a b hi hj ha hb => ?_, h.table⟩
  have held : ∀ c : AsvsCall, c.isProbing = true → AsvsLock.runner ∈ c.locks := by
    intro c hc
    unfold AsvsCall.isProbing at hc
    rw [Option.any_eq_true] at hc
    obtain ⟨⟨initiatedBy, run⟩, hexecution, hprobing⟩ := hc
    rw [execution_locks hexecution]
    cases run with
    | probing => exact List.mem_singleton_self _
    | requested | locked | spaced | probed | inserted | releasing | ended => cases hprobing
  exact h.exclusive i j .runner ⟨a, hi, held a ha⟩ ⟨b, hj, held b hb⟩
end Bantam
