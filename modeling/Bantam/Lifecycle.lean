import Bantam.Probing
import Bantam.Quota
import Bantam.Lib.Tables

/-! The life of a generation: which steps its status takes, and whose run it carries. -/
namespace Bantam

/-- The moves of a status. -/
inductive GenerationStatus.Moves : GenerationStatus → GenerationStatus → Prop where
  | finished : Moves .pending .ready
  | failed : Moves .pending .failed
  | approved : Moves .ready .executing
  | executed : Moves .executing .executed
  | restored : Moves .executing .ready

/-- A row stays as it is, or its status moves and the columns of its reservation stay. -/
def Generation.Moves (row row' : Generation) : Prop :=
  row' = row ∨ (row'.toReservation = row.toReservation ∧ row.status.Moves row'.status)

/-- What a step makes of the table: each row moves, and new ones are pending. -/
structure TableMoves (rows rows' : List Generation) : Prop where
  moves : ∀ (k : Nat) row, rows[k]? = some row → ∃ row', rows'[k]? = some row' ∧ row.Moves row'
  new : ∀ (k : Nat) row', rows[k]? = none → rows'[k]? = some row' → row'.status = .pending

section Tables
variable {rows : List Generation} {f : Generation → Generation}

theorem tableMoves_refl (rows : List Generation) : TableMoves rows rows :=
  ⟨fun _ row h => ⟨row, h, .inl rfl⟩, fun _ _ hnone hsome => by rw [hnone] at hsome; cases hsome⟩

theorem tableMoves_map (h : ∀ row ∈ rows, row.Moves (f row)) : TableMoves rows (rows.map f) := by
  refine ⟨fun k row hk => ⟨f row, ?_, h row (List.mem_of_getElem? hk)⟩, fun k row' hnone hsome => ?_⟩
  · rw [List.getElem?_map, hk]
    rfl
  · rw [List.getElem?_map, hnone] at hsome
    cases hsome

theorem tableMoves_append {row : Generation} (h : row.status = .pending) :
    TableMoves rows (rows ++ [row]) := by
  refine ⟨fun k row hk => ⟨row, List.getElem?_append_left
    (List.getElem?_eq_some_iff.mp hk).1 ▸ hk, .inl rfl⟩, fun k row' hnone hsome => ?_⟩
  cases List.mem_append.mp (List.mem_of_getElem? hsome) with
  | inl hold =>
    rw [List.getElem?_append_right (List.getElem?_eq_none_iff.mp hnone)] at hsome
    exact List.mem_singleton.mp (List.mem_of_getElem? hsome) ▸ h
  | inr hnew => exact List.mem_singleton.mp hnew ▸ h

/-- A conditional update, where the rows that it takes move. -/
theorem moves_update {p : Generation → Prop} [DecidablePred p]
    (hf : ∀ row, (f row).toReservation = row.toReservation)
    (hp : ∀ row ∈ rows, p row → row.status.Moves (f row).status) :
    TableMoves rows (rows.map fun row => if p row then f row else row) := by
  refine tableMoves_map fun row hrow => ?_
  split_ifs with hmatch
  · exact .inr ⟨hf row, hp row hrow hmatch⟩
  · exact .inl rfl
end Tables

/-! The calls that generate plans. -/

/-- No generation has two rows, nor is one about to. -/
structure RowsKeyed (g : GenerationState) : Prop where
  quota : QuotaKept g
  keyed : (g.rows.map fun row => row.generationId).Nodup
  inserting : ∀ call ∈ g.generating, ∀ now, call.phase = .inserted now →
    call.request.generationId ∉ g.rows.map fun row => row.generationId

section Generating
variable {service : AsvsAi} {g g' : GenerationState} {i : Nat} {call : GenerateCall}

theorem ids_eq (g : GenerationState) :
    (g.rows.map fun row => row.generationId) = g.reservations.map Reservation.generationId := by
  unfold GenerationState.reservations
  rw [List.map_map]
  rfl

/-- What writes neither calls nor reservations. -/
theorem RowsKeyed.congr (h : RowsKeyed g) (hgenerating : g'.generating = g.generating)
    (hreservations : g'.reservations = g.reservations) : RowsKeyed g' := by
  refine ⟨h.quota.congr hgenerating hreservations, ?_, ?_⟩
  · rw [ids_eq, hreservations, ← ids_eq]
    exact h.keyed
  · rw [ids_eq, hreservations, ← ids_eq, hgenerating]
    exact h.inserting

theorem RowsKeyed.generateStep (h : RowsKeyed g) (hi : g.generating[i]? = some call)
    (step : GenerateStep) : RowsKeyed (generateStep service g i call step) := by
  have hquota : QuotaKept (Bantam.generateStep service g i call step) := by
    have hstep := quotaKept_step service g (.advance i step) h.quota
    simp only [generationStep, hi] at hstep
    exact hstep
  rcases generateStep_cases service g i call step with hsame | ⟨phase, hadvance, hmoved⟩ |
    ⟨now, hphase, hcommitted⟩
  · rw [hsame]
    exact h
  · refine ⟨hquota, ?_, ?_⟩
    · rw [ids_eq, hmoved.reservations, ← ids_eq]
      exact h.keyed
    · rw [ids_eq, hmoved.reservations, ← ids_eq, hmoved.generating]
      intro c hc now hinserted
      cases Locks.mem_set hc with
      | inl hnew =>
        subst hnew
        cases hadvance with
        | insert hcounted hadmitted hfresh => exact hfresh
        | begin | lock | count | rollBack | finish => cases hinserted
      | inr hother =>
        obtain ⟨j, -, hj⟩ := hother
        exact h.inserting c (List.mem_of_getElem? hj) now hinserted
  · rw [hcommitted] at hquota ⊢
    have hfresh := h.inserting call (List.mem_of_getElem? hi) now hphase
    have hrows : (committed service g i call now).rows =
        g.rows ++ [{ toReservation := call.request.reservation service now }] := rfl
    refine ⟨hquota, ?_, ?_⟩
    · rw [hrows, List.map_append]
      refine List.nodup_append.mpr ⟨h.keyed, List.nodup_singleton _, fun id hid id' hid' he => ?_⟩
      rw [he, List.mem_singleton.mp hid'] at hid
      exact hfresh hid
    · intro c hc now' hinserted
      cases Locks.mem_set hc with
      | inl hnew =>
        subst hnew
        cases hinserted
      | inr hother =>
        -- the quota lock is at `i`
        obtain ⟨j, hne, hj⟩ := hother
        have hheld : quotaLockName ∈ call.locks := by
          rw [GenerateCall.locks_eq hphase]
          exact List.mem_singleton_self _
        have hfree := h.quota.exclusive.disjoint hi hj (Ne.symm hne) _ hheld
        rw [GenerateCall.locks_eq hinserted] at hfree
        exact absurd (List.mem_singleton_self _) hfree

/-- What a statement of a call of `generate` writes: nothing, a pending row, or the pending row
of its generation. -/
inductive RowsWritten (g : GenerationState) (generationId : Uuid) (updates : Bool) :
    List Generation → Prop where
  | same : RowsWritten g generationId updates g.rows
  | appended (row : Generation) (h : row.status = .pending) :
      RowsWritten g generationId updates (g.rows ++ [row])
  | updated (f : Generation → Generation) (h : updates = true)
      (hf : ∀ row, (f row).toReservation = row.toReservation)
      (hmoves : ∀ row, GenerationStatus.Moves .pending (f row).status) :
      RowsWritten g generationId updates (g.update generationId .pending f).rows

theorem generateStep_rows (service : AsvsAi) (g : GenerationState) (i : Nat)
    (call : GenerateCall) (step : GenerateStep) :
    RowsWritten g call.request.generationId step.updates
      (Bantam.generateStep service g i call step).rows := by
  cases step with
  | begin | count | lose =>
    simp only [Bantam.generateStep]
    split <;> exact .same
  | lock =>
    simp only [Bantam.generateStep]
    split
    · split_ifs <;> exact .same
    · exact .same
  | insert =>
    simp only [Bantam.generateStep]
    split
    · split
      · exact .same
      · split_ifs <;> exact .same
    · exact .same
  | commit =>
    simp only [Bantam.generateStep]
    split
    · exact .appended _ rfl
    · exact .same
  | answer raw =>
    simp only [Bantam.generateStep]
    split
    · unfold answer failGeneration
      split
      · exact .updated _ rfl (fun _ => rfl) fun _ => .failed
      · exact .updated _ rfl (fun _ => rfl) fun _ => .failed
      · split_ifs
        · exact .same
        · exact .same
        · exact .updated _ rfl (fun _ => rfl) fun _ => .finished
    · exact .same
  | refuse error =>
    simp only [Bantam.generateStep]
    split
    · exact .updated _ rfl (fun _ => rfl) fun _ => .failed
    · exact .same

variable {generationId : Uuid} {updates : Bool} {rows : List Generation}

theorem RowsWritten.moves (h : RowsWritten g generationId updates rows) :
    TableMoves g.rows rows := by
  cases h with
  | same => exact tableMoves_refl _
  | appended row h => exact tableMoves_append h
  | updated f h hf hmoves =>
    exact moves_update hf fun row _ hmatch => hmatch.2 ▸ hmoves row

/-- A row of another status, or of another generation, stays. -/
theorem RowsWritten.keeps (h : RowsWritten g generationId updates rows) {row : Generation}
    (hrow : row ∈ g.rows)
    (hother : row.status ≠ .pending ∨ updates = false ∨ row.generationId ≠ generationId) :
    row ∈ rows := by
  cases h with
  | same => exact hrow
  | appended => exact List.mem_append_left _ hrow
  | updated f hupdates =>
    refine List.mem_map.mpr ⟨row, hrow, if_neg fun hmatch => ?_⟩
    rcases hother with hstatus | hnone | hid
    · exact hstatus hmatch.2
    · rw [hupdates] at hnone
      cases hnone
    · exact hid hmatch.1

/-- An executed row was there before. -/
theorem RowsWritten.executed (h : RowsWritten g generationId updates rows) {row : Generation}
    (hrow : row ∈ rows) (hstatus : row.status = .executed) : row ∈ g.rows := by
  cases h with
  | same => exact hrow
  | appended new hpending =>
    cases List.mem_append.mp hrow with
    | inl hrow => exact hrow
    | inr hrow =>
      rw [List.mem_singleton.mp hrow, hpending] at hstatus
      cases hstatus
  | updated f hupdates hf hmoves =>
    obtain ⟨old, hold, rfl⟩ := List.mem_map.mp hrow
    split_ifs at hstatus ⊢ with hmatch
    · have hmove := hmoves old
      rw [hstatus] at hmove
      cases hmove
    · exact hold
end Generating

/-! The calls that execute plans. -/

/-- What an execution has to give back. -/
def RunPhase.result : RunPhase → Option (Except Failure AsvsRun)
  | .releasing result | .ended result => some result
  | _ => none

/-- In some step of the run the call, an approval of the generation, has committed the run. -/
def Produced (services : AsvsServices) (start : AsvsState) (past : List AsvsEvent) (i : Nat)
    (generationId : Uuid) (run : AsvsRun) : Prop :=
  ∃ before e rest request phase, past = before ++ e :: rest ∧
    (Runs.run (asvsStep services) start before).calls[i]? = some (.approval request phase) ∧
    request.generationId = generationId ∧
    (Runs.run (asvsStep services) start before).commits services e = some (i, run)

/-- What holds of the rows and of the calls that approve and execute them. -/
structure Lifecycle (services : AsvsServices) (start : AsvsState) (past : List AsvsEvent)
    (s : AsvsState) : Prop where
  reached : s = Runs.run (asvsStep services) start past
  rows : RowsKeyed s.generations
  locks : Locks.Exclusive AsvsCall.locks s.calls
  flights : Locks.Exclusive AsvsCall.flights s.calls
  selected : ∀ (i : Nat) request row, s.calls[i]? = some (.approval request (.selected row)) →
    row ∈ s.rows ∧ row.generationId = request.generationId
  flying : ∀ (i : Nat) request phase, s.calls[i]? = some (.approval request (.executing phase)) →
    ∃ row ∈ s.rows, row.generationId = request.generationId ∧ row.status = .executing
  produced : ∀ (i : Nat) request phase run,
    s.calls[i]? = some (.approval request (.executing phase)) →
    phase.result = some (.ok run) →
    Produced services start past i request.generationId run
  executed : ∀ row ∈ s.rows, row.status = .executed →
    ∃ i run, row.asvsRunId = some run.runId ∧
      Produced services start past i row.generationId run

section Lifecycles
variable {services : AsvsServices} {start s s' : AsvsState} {past : List AsvsEvent}
  {e : AsvsEvent} {i : Nat} {call next : AsvsCall} {request : ApproveRequest}
  {f : Generation → Generation} {generationId : Uuid} {run : AsvsRun}

theorem Produced.extend (h : Produced services start past i generationId run) (e : AsvsEvent) :
    Produced services start (past ++ [e]) i generationId run := by
  obtain ⟨before, e', rest, request, phase, rfl, h⟩ := h
  exact ⟨before, e', rest ++ [e], request, phase, by rw [List.append_assoc]; rfl, h⟩

theorem advance_result {enabled blocked : Bool} {initiatedBy : Uuid} {now : Instant}
    {runs : List AsvsRun} {phase : RunPhase} {step : RunStep}
    (h : (phase.advance enabled initiatedBy now blocked runs step).1.result = some (.ok run)) :
    phase.result = some (.ok run) ∨
      (phase.advance enabled initiatedBy now blocked runs step).2 = some run := by
  cases phase with
  | requested =>
    cases step with
    | lock =>
      simp only [RunPhase.advance] at h
      split_ifs at h <;> cases h
    | check | start | probe | insert | commit | fail | unlock => cases h
  | locked =>
    cases step with
    | check =>
      simp only [RunPhase.advance] at h
      split_ifs at h <;> cases h
    | lock | start | probe | insert | commit | fail | unlock => cases h
  | spaced | probing => cases step <;> cases h
  | probed startedAt completedAt records =>
    cases step with
    | insert runId =>
      simp only [RunPhase.advance] at h
      split_ifs at h
      · cases h
      · split at h <;> cases h
    | lock | check | start | probe | commit | fail | unlock => cases h
  | inserted inserted =>
    cases step with
    | commit acknowledged =>
      cases acknowledged with
      | true =>
        cases h
        exact .inr rfl
      | false => cases h
    | lock | check | start | probe | insert | fail | unlock => cases h
  | releasing result =>
    cases step with
    | fail failure => cases h
    | lock | check | start | probe | insert | commit | unlock => exact .inl h
  | ended result => cases step <;> exact .inl h

/-- A row of another generation stays. -/
theorem mem_updateRows {p : GenerationStatus → Bool} {row : Generation} (hrow : row ∈ s.rows)
    (hid : row.generationId ≠ generationId) :
    row ∈ ((s.updateRows generationId p f).setCall i next).rows :=
  List.mem_map.mpr ⟨row, hrow, if_neg fun hmatch => hid hmatch.1⟩

theorem updateRows_keyed (h : RowsKeyed s.generations) (generationId : Uuid)
    (p : GenerationStatus → Bool) (hf : ∀ row, (f row).toReservation = row.toReservation) :
    RowsKeyed ((s.updateRows generationId p f).setCall i next).generations := by
  refine h.congr rfl ?_
  show (s.rows.map _).map _ = s.rows.map _
  rw [List.map_map]
  refine List.map_congr_left fun row _ => ?_
  rw [Function.comp_apply]
  split_ifs
  · exact hf row
  · rfl

theorem flights_of_execution (h : call.execution = none) : call.flights = [] := by
  unfold AsvsCall.execution at h
  unfold AsvsCall.flights
  split
  · cases h
  · rfl

theorem flights_withRun (phase : RunPhase) : (call.withRun phase).flights = call.flights := by
  unfold AsvsCall.withRun
  split <;> rfl

/-- The same table and calls, after one more event. -/
theorem Lifecycle.congr (h : Lifecycle services start past s)
    (hreached : s' = Runs.run (asvsStep services) start (past ++ [e]))
    (hrows : RowsKeyed s'.generations) (htable : s'.rows = s.rows) (hcalls : s'.calls = s.calls) :
    Lifecycle services start (past ++ [e]) s' := by
  refine ⟨hreached, hrows, hcalls ▸ h.locks, hcalls ▸ h.flights, ?_, ?_, ?_, ?_⟩
  · rw [hcalls, htable]
    exact h.selected
  · rw [hcalls, htable]
    exact h.flying
  · rw [hcalls]
    exact fun i request phase run hi hresult => (h.produced i request phase run hi hresult).extend e
  · rw [htable]
    intro row hrow hstatus
    obtain ⟨i, run, hid, hproduced⟩ := h.executed row hrow hstatus
    exact ⟨i, run, hid, hproduced.extend e⟩
/-- The call at `i` moves to `next`, and the step writes nothing that another call relies on. -/
theorem Lifecycle.moved (h : Lifecycle services start past s)
    (hreached : s' = Runs.run (asvsStep services) start (past ++ [e]))
    (hrows : RowsKeyed s'.generations) (hcalls : s'.calls = s.calls.set i next)
    (hlocks : Locks.Exclusive AsvsCall.locks s'.calls)
    (hflights : Locks.Exclusive AsvsCall.flights s'.calls)
    (hselected : ∀ j ≠ i, ∀ request row,
      s.calls[j]? = some (.approval request (.selected row)) → row ∈ s'.rows)
    (hflying : ∀ j ≠ i, ∀ request phase,
      s.calls[j]? = some (.approval request (.executing phase)) →
      ∃ row ∈ s'.rows, row.generationId = request.generationId ∧ row.status = .executing)
    (hnext : ∀ request row, next = .approval request (.selected row) →
      row ∈ s'.rows ∧ row.generationId = request.generationId)
    (hexecuting : ∀ request phase, next = .approval request (.executing phase) →
      (∃ row ∈ s'.rows, row.generationId = request.generationId ∧ row.status = .executing) ∧
      ∀ run, phase.result = some (.ok run) →
        Produced services start (past ++ [e]) i request.generationId run)
    (hexecuted : ∀ row ∈ s'.rows, row.status = .executed → row ∈ s.rows ∨
      ∃ i run, row.asvsRunId = some run.runId ∧
        Produced services start (past ++ [e]) i row.generationId run) :
    Lifecycle services start (past ++ [e]) s' := by
  refine ⟨hreached, hrows, hlocks, hflights, ?_, ?_, ?_, ?_⟩
  · intro j request row hj
    rw [hcalls] at hj
    cases Locks.getElem?_set hj with
    | inl hmover => exact hnext request row hmover.2.symm
    | inr hother =>
      exact ⟨hselected j hother.1 request row hother.2, (h.selected j request row hother.2).2⟩
  · intro j request phase hj
    rw [hcalls] at hj
    cases Locks.getElem?_set hj with
    | inl hmover => exact (hexecuting request phase hmover.2.symm).1
    | inr hother => exact hflying j hother.1 request phase hother.2
  · intro j request phase run hj hresult
    rw [hcalls] at hj
    cases Locks.getElem?_set hj with
    | inl hmover =>
      rw [hmover.1]
      exact (hexecuting request phase hmover.2.symm).2 run hresult
    | inr hother => exact (h.produced j request phase run hother.2 hresult).extend e
  · intro row hrow hstatus
    cases hexecuted row hrow hstatus with
    | inl hold =>
      obtain ⟨j, run, hid, hproduced⟩ := h.executed row hold hstatus
      exact ⟨j, run, hid, hproduced.extend e⟩
    | inr hnew => exact hnew

/-- No other call has read the row that the call at `i` has locked, or finds free. -/
theorem Lifecycle.selected_apart (h : Lifecycle services start past s)
    (hi : s.calls[i]? = some call)
    (hrow : .row generationId ∈ call.locks ∨ s.blocked i (.row generationId) = false)
    {j : Nat} (hne : j ≠ i) {row : Generation}
    (hj : s.calls[j]? = some (.approval request (.selected row))) :
    row ∈ s.rows ∧ row.generationId ≠ generationId := by
  obtain ⟨hmem, hid⟩ := h.selected j request row hj
  refine ⟨hmem, fun he => ?_⟩
  have hlock : AsvsLock.row generationId ∈ (AsvsCall.approval request (.selected row)).locks := by
    rw [← he, hid]
    exact List.mem_singleton_self _
  cases hrow with
  | inl hheld => exact h.locks.disjoint hi hj (Ne.symm hne) _ hheld hlock
  | inr hfree => exact hne (Locks.free_of_not_heldByOther hfree ⟨_, hj, hlock⟩)

/-- Another call that executes relies on a row of another generation, if this one executes. -/
theorem Lifecycle.flying_apart (h : Lifecycle services start past s)
    (hi : s.calls[i]? = some call) (hflight : generationId ∈ call.flights)
    {j : Nat} (hne : j ≠ i) {phase : RunPhase}
    (hj : s.calls[j]? = some (.approval request (.executing phase))) :
    ∃ row ∈ s.rows, row.generationId = request.generationId ∧ row.status = .executing ∧
      row.generationId ≠ generationId := by
  obtain ⟨row, hmem, hid, hstatus⟩ := h.flying j request phase hj
  refine ⟨row, hmem, hid, hstatus, fun he => ?_⟩
  refine h.flights.disjoint hi hj (Ne.symm hne) _ hflight ?_
  rw [← he, hid]
  exact List.mem_singleton_self _

/-- A move that ends the call's flight, if it has one, or leaves it. -/
theorem Lifecycle.flights_set (h : Lifecycle services start past s)
    (hi : s.calls[i]? = some call) (hnext : ∀ id ∈ next.flights, id ∈ call.flights) :
    Locks.Exclusive AsvsCall.flights (s.calls.set i next) :=
  h.flights.set fun id hid => .inl ⟨call, hi, hnext id hid⟩

theorem Lifecycle.kept_selected (h : Lifecycle services start past s) :
    ∀ j ≠ i, ∀ request row,
      s.calls[j]? = some (.approval request (.selected row)) → row ∈ s.rows :=
  fun j _ request row hj => (h.selected j request row hj).1

theorem Lifecycle.kept_flying (h : Lifecycle services start past s) :
    ∀ j ≠ i, ∀ request phase,
      s.calls[j]? = some (.approval request (.executing phase)) →
      ∃ row ∈ s.rows, row.generationId = request.generationId ∧ row.status = .executing :=
  fun j _ request phase hj => h.flying j request phase hj

/-- The approval of a row that was read as ready: no execution of it is in flight. -/
theorem Lifecycle.ready_apart (h : Lifecycle services start past s) {row : Generation}
    (hi : s.calls[i]? = some (.approval request (.selected row))) (hready : row.status = .ready)
    {j : Nat} {other : ApproveRequest} {phase : RunPhase}
    (hj : s.calls[j]? = some (.approval other (.executing phase))) :
    other.generationId ≠ request.generationId := by
  intro he
  obtain ⟨hmem, hid⟩ := h.selected i request row hi
  obtain ⟨row', hmem', hid', hstatus⟩ := h.flying j other phase hj
  have hkey : row.generationId = row'.generationId := by rw [hid, hid', he]
  have hsame : row = row' := Tables.Keyed.eq_of_key h.rows.keyed hmem hmem' hkey
  rw [hsame, hstatus] at hready
  cases hready

theorem Lifecycle.approved (h : Lifecycle services start past s) {row : Generation}
    (hreached : (s.updateRows request.generationId (fun _ => true) f).setCall i
      (.approval request (.executing .requested)) =
        Runs.run (asvsStep services) start (past ++ [e]))
    (hi : s.calls[i]? = some (.approval request (.selected row))) (hready : row.status = .ready)
    (hf : ∀ row, (f row).toReservation = row.toReservation ∧ (f row).status = .executing) :
    Lifecycle services start (past ++ [e])
      ((s.updateRows request.generationId (fun _ => true) f).setCall i
        (.approval request (.executing .requested))) := by
  obtain ⟨hmem, hid⟩ := h.selected i request row hi
  have hlock : AsvsLock.row request.generationId ∈
      (AsvsCall.approval request (.selected row)).locks := List.mem_singleton_self _
  refine h.moved hreached (updateRows_keyed h.rows _ _ fun row => (hf row).1) rfl
    (h.locks.set fun l hl => by cases hl) (h.flights.set fun id hid' => .inr ?_) ?_ ?_
    (fun request row hnext => by cases hnext) ?_ ?_
  · rw [List.mem_singleton.mp hid']
    by_contra hheld
    rw [Bool.not_eq_false] at hheld
    obtain ⟨c, hc, hflight⟩ := List.any_eq_true.mp hheld
    obtain ⟨j, -, hj⟩ := List.mem_eraseIdx_iff_getElem?.mp hc
    cases c with
    | direct | crashed => simp [AsvsCall.flights] at hflight
    | approval other phase =>
      cases phase with
      | requested | selected | ended => simp [AsvsCall.flights] at hflight
      | executing phase =>
        simp only [AsvsCall.flights, List.mem_singleton, decide_eq_true_eq] at hflight
        exact h.ready_apart hi hready hj hflight.symm
  · intro j hne other row' hj
    obtain ⟨hmem', hid'⟩ := h.selected_apart hi (.inl hlock) hne hj
    exact mem_updateRows hmem' hid'
  · intro j hne other phase hj
    obtain ⟨row', hmem', hid', hstatus⟩ := h.flying j other phase hj
    exact ⟨row', mem_updateRows hmem' (hid' ▸ h.ready_apart hi hready hj), hid', hstatus⟩
  · intro other phase hnext
    cases hnext
    refine ⟨⟨f row, List.mem_map.mpr ⟨row, hmem, if_pos ⟨hid, rfl⟩⟩, ?_, (hf row).2⟩,
      fun run hresult => by cases hresult⟩
    rw [(hf row).1]
    exact hid
  · intro row' hrow' hstatus
    obtain ⟨old, hold, rfl⟩ := List.mem_map.mp hrow'
    split_ifs at hstatus ⊢ with hmatch
    · rw [(hf old).2] at hstatus
      cases hstatus
    · exact .inl hold

/-- The end of an execution writes its own row. -/
theorem Lifecycle.settled (h : Lifecycle services start past s) {phase : RunPhase}
    {result : Except Failure AsvsRun}
    (hreached : (s.updateRows request.generationId (· = .executing) f).setCall i
      (.approval request (.ended result)) = Runs.run (asvsStep services) start (past ++ [e]))
    (hi : s.calls[i]? = some (.approval request (.executing phase)))
    (hfree : s.blocked i (.row request.generationId) = false)
    (hf : ∀ row, (f row).toReservation = row.toReservation)
    (hexecuted : ∀ row, (f row).status = .executed → row.generationId = request.generationId →
      ∃ i run, (f row).asvsRunId = some run.runId ∧
        Produced services start (past ++ [e]) i (f row).generationId run) :
    Lifecycle services start (past ++ [e])
      ((s.updateRows request.generationId (· = .executing) f).setCall i
        (.approval request (.ended result))) := by
  have hflight : request.generationId ∈ (AsvsCall.approval request (.executing phase)).flights :=
    List.mem_singleton_self _
  refine h.moved hreached (updateRows_keyed h.rows _ _ hf) rfl
    (h.locks.set fun l hl => by cases hl) (h.flights_set hi fun id hid => by cases hid) ?_ ?_
    (fun request row hnext => by cases hnext) (fun request phase hnext => by cases hnext) ?_
  · intro j hne other row hj
    obtain ⟨hmem, hid⟩ := h.selected_apart hi (.inr hfree) hne hj
    exact mem_updateRows hmem hid
  · intro j hne other phase hj
    obtain ⟨row, hmem, hid, hstatus, hother⟩ := h.flying_apart hi hflight hne hj
    exact ⟨row, mem_updateRows hmem hother, hid, hstatus⟩
  · intro row hrow hstatus
    obtain ⟨old, hold, rfl⟩ := List.mem_map.mp hrow
    split_ifs at hstatus ⊢ with hmatch
    · exact .inr (hexecuted old hstatus hmatch.1)
    · exact .inl hold

/-- A step of the execution itself: what it has to give back it has committed. -/
theorem Lifecycle.ran (h : Lifecycle services start past s) {step : RunStep} {initiatedBy : Uuid}
    {phase : RunPhase} (he : e = .progress i (.run step)) (hi : s.calls[i]? = some call)
    (hexecution : call.execution = some (initiatedBy, phase))
    (hreached : s' = Runs.run (asvsStep services) start (past ++ [e]))
    (hs' : s' = { s.setCall i (call.withRun (phase.advance services.runnerEnabled initiatedBy
        s.now (s.blocked i .runner) s.runs step).1) with
      runs := s.runs ++ (phase.advance services.runnerEnabled initiatedBy s.now
        (s.blocked i .runner) s.runs step).2.toList })
    (hlocks : Locks.Exclusive AsvsCall.locks s'.calls) :
    Lifecycle services start (past ++ [e]) s' := by
  subst hs'
  have hflights : (call.withRun (phase.advance services.runnerEnabled initiatedBy s.now
      (s.blocked i .runner) s.runs step).1).flights = call.flights := flights_withRun _
  refine h.moved hreached h.rows rfl hlocks (h.flights_set hi fun id hid => hflights ▸ hid)
    h.kept_selected h.kept_flying ?_ ?_ (fun row hrow _ => .inl hrow)
  · intro request row hnext
    have hnone := execution_withRun (phase.advance services.runnerEnabled initiatedBy s.now
      (s.blocked i .runner) s.runs step).1 hexecution
    rw [hnext] at hnone
    cases hnone
  · intro request next hnext
    cases call with
    | direct | crashed => cases hnext
    | approval asked current =>
      cases current with
      | requested | selected | ended => cases hexecution
      | executing current =>
        cases hexecution
        cases hnext
        refine ⟨h.flying i _ _ hi, fun run hresult => ?_⟩
        cases advance_result hresult with
        | inl hold => exact (h.produced i _ _ run hi hold).extend e
        | inr hnew =>
          refine ⟨past, e, [], _, _, rfl, by rw [← h.reached]; exact hi, rfl, ?_⟩
          rw [← h.reached, he]
          simp only [AsvsState.commits, hi, Option.bind_some, AsvsCall.execution,
            Option.bind_eq_bind, hnew]
          rfl

/-- A call that is begun has read nothing and executes nothing. -/
theorem Lifecycle.begun (h : Lifecycle services start past s)
    (hreached : { s with calls := s.calls ++ [call] } =
      Runs.run (asvsStep services) start (past ++ [e]))
    (hlocks : call.locks = []) (hflights : call.flights = []) :
    Lifecycle services start (past ++ [e]) { s with calls := s.calls ++ [call] } := by
  have old : ∀ (j : Nat) c, (s.calls ++ [call])[j]? = some c → s.calls[j]? = some c ∨ c = call := by
    intro j c hj
    rw [List.getElem?_append] at hj
    split_ifs at hj
    · exact .inl hj
    · exact .inr (List.mem_singleton.mp (List.mem_of_getElem? hj))
  refine ⟨hreached, h.rows, h.locks.append hlocks, h.flights.append hflights, ?_, ?_, ?_, ?_⟩
  · intro j request row hj
    cases old j _ hj with
    | inl hj => exact h.selected j request row hj
    | inr hnew =>
      rw [← hnew] at hlocks
      cases hlocks
  · intro j request phase hj
    cases old j _ hj with
    | inl hj => exact h.flying j request phase hj
    | inr hnew =>
      rw [← hnew] at hflights
      cases hflights
  · intro j request phase run hj hresult
    cases old j _ hj with
    | inl hj => exact (h.produced j request phase run hj hresult).extend e
    | inr hnew =>
      rw [← hnew] at hflights
      cases hflights
  · intro row hrow hstatus
    obtain ⟨j, run, hid, hproduced⟩ := h.executed row hrow hstatus
    exact ⟨j, run, hid, hproduced.extend e⟩

theorem Lifecycle.step (past : List AsvsEvent) (s : AsvsState) (e : AsvsEvent)
    (h : Lifecycle services start past s) :
    Lifecycle services start (past ++ [e]) (asvsStep services s e) := by
  have hreached : asvsStep services s e = Runs.run (asvsStep services) start (past ++ [e]) := by
    rw [h.reached]
    exact (Runs.run_snoc _ _ _ _).symm
  cases e with
  | tick elapsed => exact h.congr hreached (h.rows.congr rfl rfl) rfl rfl
  | generate request =>
    refine h.congr hreached ⟨quotaKept_step services.ai s.generations (.generate request)
      h.rows.quota, h.rows.keyed, fun c hc now hphase => ?_⟩ rfl rfl
    cases List.mem_append.mp hc with
    | inl hc => exact h.rows.inserting c hc now hphase
    | inr hc =>
      rw [List.mem_singleton.mp hc] at hphase
      cases hphase
  | advance k step =>
    simp only [asvsStep] at hreached ⊢
    split
    · rename_i generating hk
      simp only [hk] at hreached
      split_ifs at hreached ⊢ with hlocked
      · exact h.congr hreached h.rows rfl rfl
      · have hwritten := generateStep_rows services.ai s.generations k generating step
        have hunlocked : step.updates = false ∨
            s.rowLocked generating.request.generationId = false := by
          rw [Bool.and_eq_true, not_and_or] at hlocked
          exact hlocked.imp (Bool.eq_false_iff.mpr ·) (Bool.eq_false_iff.mpr ·)
        refine ⟨hreached, h.rows.generateStep hk step, h.locks, h.flights, ?_, ?_, ?_, ?_⟩
        · intro i request row hi
          obtain ⟨hmem, hid⟩ := h.selected i request row hi
          refine ⟨hwritten.keeps hmem (.inr (hunlocked.imp id fun hfree he => ?_)), hid⟩
          have hheld := List.any_eq_false.mp hfree _ (List.mem_of_getElem? hi)
          simp [AsvsCall.locks, ← he, hid] at hheld
        · intro i request phase hi
          obtain ⟨row, hmem, hid, hstatus⟩ := h.flying i request phase hi
          exact ⟨row, hwritten.keeps hmem (.inl (by simp [hstatus])), hid, hstatus⟩
        · exact fun i request phase run hi hresult =>
            (h.produced i request phase run hi hresult).extend _
        · intro row hrow hstatus
          obtain ⟨i, run, hid, hproduced⟩ :=
            h.executed row (hwritten.executed hrow hstatus) hstatus
          exact ⟨i, run, hid, hproduced.extend _⟩
    · rename_i hk
      simp only [hk] at hreached
      exact h.congr hreached h.rows rfl rfl
  | execute initiatedBy => exact h.begun hreached rfl rfl
  | approve request => exact h.begun hreached rfl rfl
  | progress i step =>
    simp only [asvsStep] at hreached ⊢
    split
    · rename_i call hi
      simp only [hi] at hreached
      have hmove := asvsCallStep_move services s i call step
      have hlocks := hmove.exclusive hi h.locks
      generalize asvsCallStep services s i call step = s' at hmove hlocks hreached
      cases hmove with
      | idle | still => exact h.congr hreached h.rows rfl rfl
      | finished _ next hstep hnone hexecution =>
        have hflights : next.flights = [] := flights_of_execution hexecution
        refine h.moved hreached h.rows rfl hlocks (h.flights_set hi fun id hid => ?_)
          h.kept_selected h.kept_flying (fun request row hnext => ?_)
          (fun request phase hnext => ?_) (fun row hrow _ => .inl hrow)
        · rw [hflights] at hid
          cases hid
        · rw [hnext] at hnone
          cases hnone
        · rw [hnext] at hexecution
          cases hexecution
      | selected request row hcall hfree hrow hid =>
        refine h.moved hreached h.rows rfl hlocks (h.flights_set hi fun id hid => by cases hid)
          h.kept_selected h.kept_flying (fun request' row' hnext => ?_)
          (fun request phase hnext => by cases hnext) (fun row hrow _ => .inl hrow)
        cases hnext
        exact ⟨hrow, hid⟩
      | approved request row f hcall hready hf =>
        subst hcall
        exact h.approved hreached hi hready hf
      | ran step initiatedBy phase hexecution =>
        exact h.ran rfl hi hexecution hreached rfl hlocks
      | executed request run f hcall hfree hf =>
        subst hcall
        refine h.settled hreached hi hfree (fun row => (hf row).1) fun row _ hid =>
          ⟨i, run, (hf row).2.2, ?_⟩
        rw [(hf row).1, hid]
        exact (h.produced i request _ run hi rfl).extend _
      | restored request failure result f hcall hfree hf =>
        subst hcall
        refine h.settled hreached hi hfree (fun row => (hf row).1) fun row hstatus _ => ?_
        rw [(hf row).2] at hstatus
        cases hstatus
    · rename_i hi
      simp only [hi] at hreached
      exact h.congr hreached h.rows rfl rfl

/-- What the step makes of the rows. -/
theorem Lifecycle.table (h : Lifecycle services start past s) (e : AsvsEvent) :
    TableMoves s.rows (asvsStep services s e).rows := by
  cases e with
  | tick | generate | execute | approve => exact tableMoves_refl _
  | advance k step =>
    simp only [asvsStep]
    split
    · split_ifs
      · exact tableMoves_refl _
      · exact (generateStep_rows services.ai s.generations k _ step).moves
    · exact tableMoves_refl _
  | progress i step =>
    simp only [asvsStep]
    split
    · rename_i call hi
      have hmove := asvsCallStep_move services s i call step
      generalize asvsCallStep services s i call step = s' at hmove
      cases hmove with
      | idle | still | finished | selected | ran => exact tableMoves_refl _
      | approved request row f hcall hready hf =>
        subst hcall
        obtain ⟨hmem, hid⟩ := h.selected i request row hi
        refine moves_update (fun row => (hf row).1) fun row' hrow' hmatch => ?_
        have hkey : row'.generationId = row.generationId := by rw [hid, hmatch.1]
        have hsame : row' = row := Tables.Keyed.eq_of_key h.rows.keyed hrow' hmem hkey
        rw [hsame, hready, (hf row).2]
        exact .approved
      | executed request run f hcall hfree hf =>
        refine moves_update (fun row => (hf row).1) fun row hrow hmatch => ?_
        rw [of_decide_eq_true hmatch.2, (hf row).2.1]
        exact .executed
      | restored request failure result f hcall hfree hf =>
        refine moves_update (fun row => (hf row).1) fun row hrow hmatch => ?_
        rw [of_decide_eq_true hmatch.2, (hf row).2]
        exact .restored
    · exact tableMoves_refl _

theorem lifecycle_start (services : AsvsServices) (now : Instant) (runs : List AsvsRun) :
    Lifecycle services (.start now runs) [] (.start now runs) := by
  refine ⟨rfl, ⟨quotaKept_empty now, List.nodup_nil, fun c hc => by cases hc⟩,
    Locks.exclusive_nil, Locks.exclusive_nil, ?_, ?_, ?_, ?_⟩
  · exact fun i request row hi => by cases hi
  · exact fun i request phase hi => by cases hi
  · exact fun i request phase run hi => by cases hi
  · exact fun row hrow => by cases hrow

theorem lifecycle_run (services : AsvsServices) (now : Instant) (runs : List AsvsRun)
    (es : List AsvsEvent) :
    Lifecycle services (.start now runs) es
      (Runs.run (asvsStep services) (.start now runs) es) :=
  Runs.history_invariant (P := fun _ _ => True) (fun past s e h _ => h.step past s e)
    (lifecycle_start services now runs)
    (Runs.along_of_invariant (I := fun _ => True) (fun _ _ _ => trivial) (fun _ _ _ => trivial)
      trivial es)

/-- A status that no move leaves. -/
def GenerationStatus.absorbing : GenerationStatus → Bool
  | .executed | .failed => true
  | _ => false

theorem TableMoves.absorbed {rows rows' : List Generation} (h : TableMoves rows rows') {k : Nat}
    {row : Generation} (hk : rows[k]? = some row) (habsorbing : row.status.absorbing = true) :
    rows'[k]? = some row := by
  obtain ⟨row', hk', hmoves⟩ := h.moves k row hk
  cases hmoves with
  | inl hsame => rw [hk', hsame]
  | inr hmoved =>
    have hmove := hmoved.2
    generalize row.status = status at hmove habsorbing
    generalize row'.status = status' at hmove
    cases hmove <;> cases habsorbing

/-- The two approvals that execute a generation are one. -/
theorem Lifecycle.one_flight (h : Lifecycle services start past s) {i j : Nat} {a b : AsvsCall}
    (hi : s.calls[i]? = some a) (hj : s.calls[j]? = some b) (ha : generationId ∈ a.flights)
    (hb : generationId ∈ b.flights) : i = j :=
  h.flights i j generationId ⟨a, hi, ha⟩ ⟨b, hj, hb⟩
end Lifecycles

/-- In every order of the statements of the calls that generate, approve and execute plans, each
failing wherever it does: a row is pending when it comes and its status moves only as listed; no
two approved executions of a generation are in flight; an executed or failed row stays as it is
ever after; and an executed row carries the run that an approval of it has itself committed. -/
theorem generation_lifecycle (services : AsvsServices) (now : Instant) (runs : List AsvsRun)
    (es : List AsvsEvent) :
    let start := AsvsState.start now runs
    let s := Runs.run (asvsStep services) start es
    (∀ e, TableMoves s.rows (asvsStep services s e).rows) ∧
    (∀ (i j : Nat) a b generationId, s.calls[i]? = some a → s.calls[j]? = some b →
      generationId ∈ a.flights → generationId ∈ b.flights → i = j) ∧
    (∀ (later : List AsvsEvent) (k : Nat) row, s.rows[k]? = some row →
      row.status.absorbing = true →
      (Runs.run (asvsStep services) s later).rows[k]? = some row) ∧
    ∀ row ∈ s.rows, row.status = .executed → ∃ i run, row.asvsRunId = some run.runId ∧
      Produced services start es i row.generationId run := by
  have h := lifecycle_run services now runs es
  refine ⟨h.table, fun i j a b generationId hi hj ha hb => h.one_flight hi hj ha hb, ?_,
    h.executed⟩
  intro later k row hk habsorbing
  induction later using List.reverseRecOn with
  | nil => exact hk
  | append_singleton later e ih =>
    have hlater := lifecycle_run services now runs (es ++ later)
    rw [Runs.run_append] at hlater
    rw [Runs.run_snoc]
    exact (hlater.table e).absorbed ih habsorbing
end Bantam
