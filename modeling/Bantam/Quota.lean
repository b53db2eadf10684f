import Bantam.Generations
import Mathlib.Tactic.Linarith

/-! The quota of the generations holds in every order of the calls' statements. -/
namespace Bantam
variable {service : AsvsAi} {s : GenerationState} {i : Nat} {call : GenerateCall}

/-! The statements of the calls, seen from the reservations. -/

/-- The call has committed a reservation. -/
def GenerateCall.stored (call : GenerateCall) : Bool :=
  match call.phase with
  | .reserved | .ended _ => true
  | _ => false

theorem GenerateCall.stored_eq {phase : GeneratePhase} (h : call.phase = phase) :
    call.stored = ({ call with phase := phase } : GenerateCall).stored := by rw [← h]

theorem GenerateCall.locks_eq {phase : GeneratePhase} (h : call.phase = phase) :
    call.locks = ({ call with phase := phase } : GenerateCall).locks := by rw [← h]

/-- What a call can go on to while the reservations stay as they are. -/
inductive Advance (service : AsvsAi) (s : GenerationState) (i : Nat) (call : GenerateCall) :
    GeneratePhase → Prop where
  | begin (h : call.phase = .assembled) : Advance service s i call (.begun s.now)
  | lock {now : Instant} (h : call.phase = .begun now)
      (free : Locks.heldByOther GenerateCall.locks s.generating i quotaLockName = false) :
      Advance service s i call (.locked now)
  | count {now : Instant} (h : call.phase = .locked now) : Advance service s i call
      (.counted now (quota s.reservations now call.request.initiatedBy call.request.sessionJti))
  | insert {now : Instant} {used : Quota} (h : call.phase = .counted now used)
      (admitted : quotaError used = none)
      (fresh : call.request.generationId ∉ s.rows.map (·.generationId)) :
      Advance service s i call (.inserted now)
  | rollBack (h : call.stored = false) (error : Option BantamError) :
      Advance service s i call (.rolledBack error)
  | finish (h : call.phase = .reserved) (result : Except Failure Unit) :
      Advance service s i call (.ended result)

/-- The calls stand where they stood, but for the one at `i`, and no row has come. -/
structure Moved (s s' : GenerationState) (i : Nat) (call : GenerateCall) (phase : GeneratePhase) :
    Prop where
  generating : s'.generating = s.generating.set i { call with phase := phase }
  reservations : s'.reservations = s.reservations
  approving : s'.approving = s.approving

theorem moved (s : GenerationState) (i : Nat) (call : GenerateCall) (phase : GeneratePhase) :
    Moved s (s.move i call phase) i call phase := ⟨rfl, rfl, rfl⟩

theorem reservations_update (s : GenerationState) (generationId : Uuid) (status : GenerationStatus)
    {f : Generation → Generation} (hf : ∀ row, (f row).toReservation = row.toReservation) :
    (s.update generationId status f).reservations = s.reservations := by
  show (s.rows.map _).map _ = s.rows.map _
  rw [List.map_map]
  refine List.map_congr_left fun row _ => ?_
  rw [Function.comp_apply]
  split_ifs
  · exact hf row
  · rfl

theorem moved_update (generationId : Uuid) (status : GenerationStatus) (phase : GeneratePhase)
    {f : Generation → Generation} (hf : ∀ row, (f row).toReservation = row.toReservation) :
    Moved s ((s.update generationId status f).move i call phase) i call phase :=
  ⟨rfl, reservations_update s generationId status hf, rfl⟩

/-- The commit of a reservation. -/
def committed (service : AsvsAi) (s : GenerationState) (i : Nat) (call : GenerateCall)
    (now : Instant) : GenerationState :=
  { s.move i call .reserved with
    rows := s.rows ++ [{ toReservation := call.request.reservation service now }] }

theorem answer_moved (h : call.phase = .reserved) (raw : String) : ∃ phase,
    Advance service s i call phase ∧ Moved s (answer service s i call raw) i call phase := by
  unfold answer
  split
  · exact ⟨_, .finish h _, moved_update _ _ _ fun _ => rfl⟩
  · exact ⟨_, .finish h _, moved_update _ _ _ fun _ => rfl⟩
  · split_ifs
    · exact ⟨_, .finish h _, moved _ _ _ _⟩
    · exact ⟨_, .finish h _, moved _ _ _ _⟩
    · exact ⟨_, .finish h _, moved_update _ _ _ fun _ => rfl⟩

/-- Every statement of a call leaves the state, moves the call on or commits its row. -/
theorem generateStep_cases (service : AsvsAi) (s : GenerationState) (i : Nat) (call : GenerateCall)
    (step : GenerateStep) :
    generateStep service s i call step = s ∨
    (∃ phase, Advance service s i call phase ∧
      Moved s (generateStep service s i call step) i call phase) ∨
    ∃ now, call.phase = .inserted now ∧
      generateStep service s i call step = committed service s i call now := by
  cases step with
  | begin =>
    rw [generateStep]
    split
    · exact .inr (.inl ⟨_, .begin ‹_›, moved _ _ _ _⟩)
    · exact .inl rfl
  | lock =>
    rw [generateStep]
    split
    · split_ifs with hheld
      · exact .inl rfl
      · exact .inr (.inl ⟨_, .lock ‹_› (Bool.eq_false_iff.mpr hheld), moved _ _ _ _⟩)
    · exact .inl rfl
  | count =>
    rw [generateStep]
    split
    · exact .inr (.inl ⟨_, .count ‹_›, moved _ _ _ _⟩)
    · exact .inl rfl
  | insert =>
    rw [generateStep]
    split
    · split
      · exact .inr (.inl ⟨_, .rollBack (GenerateCall.stored_eq ‹_›) _, moved _ _ _ _⟩)
      · dsimp only
        split_ifs with hrefused
        · exact .inr (.inl ⟨_, .rollBack (GenerateCall.stored_eq ‹_›) _, moved _ _ _ _⟩)
        · exact .inr (.inl ⟨_, .insert ‹_› ‹_› (not_or.mp hrefused).1, moved _ _ _ _⟩)
    · exact .inl rfl
  | commit =>
    rw [generateStep]
    split
    · exact .inr (.inr ⟨_, ‹_›, rfl⟩)
    · exact .inl rfl
  | lose =>
    rw [generateStep]
    split
    all_goals first
      | exact .inr (.inl ⟨_, .rollBack (GenerateCall.stored_eq ‹_›) _, moved _ _ _ _⟩)
      | exact .inl rfl
  | answer raw =>
    rw [generateStep]
    split
    · exact .inr (.inl (answer_moved ‹_› raw))
    · exact .inl rfl
  | refuse error =>
    rw [generateStep]
    split
    · exact .inr (.inl ⟨_, .finish ‹_› _, moved_update _ _ _ fun _ => rfl⟩)
    · exact .inl rfl

/-! The limits. -/

/-- The day of an instant, in UTC. -/
def utcDay (t : Instant) : Int := t / day

/-- The quota of the table. -/
structure Within (rows : List Reservation) : Prop where
  session : ∀ sessionJti, rows.countP (fun row => row.sessionJti = sessionJti) ≤
    sessionGenerationLimit
  account : ∀ initiatedBy d, rows.countP (fun row => row.initiatedBy = initiatedBy ∧
    utcDay row.createdAt = d) ≤ accountDailyGenerationLimit
  daily : ∀ d, rows.countP (fun row => utcDay row.createdAt = d) ≤ dailyGenerationLimit

theorem within_nil : Within [] := ⟨fun _ => Nat.zero_le _, fun _ _ => Nat.zero_le _,
  fun _ => Nat.zero_le _⟩

/-- Whatever lies in the day of `now` is not before its start. -/
theorem dayStart_le {now t : Instant} (h : utcDay t = utcDay now) : dayStart now ≤ t := by
  have hday : (0 : Int) < day := by decide
  have hnow := Int.emod_add_mul_ediv now day
  have ht := Int.emod_add_mul_ediv t day
  have hpos := Int.emod_nonneg t (ne_of_gt hday)
  rw [show t / day = now / day from h] at ht
  show now - now % day ≤ t
  linarith

theorem quotaError_none {used : Quota} : quotaError used = none ↔
    used.sessionUsed < sessionGenerationLimit ∧
    used.accountDailyUsed < accountDailyGenerationLimit ∧
    used.dailyUsed < dailyGenerationLimit := by
  unfold quotaError
  split_ifs with h1 h2 h3
  · simp [Nat.not_lt.mpr h1]
  · simp [Nat.not_lt.mpr h2]
  · simp [Nat.not_lt.mpr h3]
  · simp [Nat.not_le.mp h1, Nat.not_le.mp h2, Nat.not_le.mp h3]

theorem countP_snoc_le {p : Reservation → Bool} {rows : List Reservation} {row : Reservation}
    {n : Nat} (h : rows.countP p ≤ n) (hrow : p row = true → rows.countP p < n) :
    (rows ++ [row]).countP p ≤ n := by
  rw [List.countP_append, List.countP_singleton]
  split_ifs with hp
  · exact hrow hp
  · exact h

/-- A reservation that the quota admits keeps it, when it is dated as the quota was read. -/
theorem Within.reserve {rows : List Reservation} (h : Within rows) {row : Reservation}
    (hadmitted : quotaError (quota rows row.createdAt row.initiatedBy row.sessionJti) = none) :
    Within (rows ++ [row]) := by
  obtain ⟨hsession, haccount, hdaily⟩ := quotaError_none.mp hadmitted
  refine ⟨fun sessionJti => ?_, fun initiatedBy d => ?_, fun d => ?_⟩
  · refine countP_snoc_le (h.session sessionJti) fun hrow => ?_
    rw [← of_decide_eq_true hrow]
    exact hsession
  · refine countP_snoc_le (h.account initiatedBy d) fun hrow => ?_
    obtain ⟨rfl, rfl⟩ := of_decide_eq_true hrow
    refine Nat.lt_of_le_of_lt (List.countP_mono_left fun r _ hr => ?_) haccount
    obtain ⟨huser, hday⟩ := of_decide_eq_true hr
    exact decide_eq_true ⟨huser, dayStart_le hday⟩
  · refine countP_snoc_le (h.daily d) fun hrow => ?_
    obtain rfl := of_decide_eq_true hrow
    refine Nat.lt_of_le_of_lt (List.countP_mono_left fun r _ hr => ?_) hdaily
    exact decide_eq_true (dayStart_le (of_decide_eq_true hr))

/-! The invariant. -/

/-- What a call knows of the table while it holds the lock. -/
def GenerateCall.Counted (rows : List Reservation) (call : GenerateCall) : Prop :=
  match call.phase with
  | .counted now used => used = quota rows now call.request.initiatedBy call.request.sessionJti
  | .inserted now =>
    quotaError (quota rows now call.request.initiatedBy call.request.sessionJti) = none
  | _ => True

structure QuotaKept (s : GenerationState) : Prop where
  exclusive : Locks.Exclusive GenerateCall.locks s.generating
  counted : ∀ call ∈ s.generating, call.Counted s.reservations
  within : Within s.reservations
  stored : s.rows.length = s.generating.countP GenerateCall.stored

theorem GenerateCall.counted_eq (rows : List Reservation) {phase : GeneratePhase}
    (h : call.phase = phase) :
    call.Counted rows = ({ call with phase := phase } : GenerateCall).Counted rows := by rw [← h]

/-- A call without the lock knows nothing of the table. -/
theorem GenerateCall.counted_of_free (rows : List Reservation) (h : quotaLockName ∉ call.locks) :
    call.Counted rows := by
  cases hphase : call.phase with
  | counted now used | inserted now =>
    rw [GenerateCall.locks_eq hphase] at h
    exact absurd (List.mem_singleton_self _) h
  | _ =>
    rw [GenerateCall.counted_eq _ hphase]
    trivial

/-- The calls that have stored a row, when one of them moves on. -/
theorem countP_stored_set (hcall : s.generating[i]? = some call) (next : GenerateCall) :
    (s.generating.set i next).countP GenerateCall.stored + (if call.stored then 1 else 0) =
      s.generating.countP GenerateCall.stored + (if next.stored then 1 else 0) := by
  obtain ⟨hi, hget⟩ := List.getElem?_eq_some_iff.mp hcall
  have hcount := List.boole_getElem_le_countP (p := GenerateCall.stored) hi
  rw [List.countP_set hi, hget]
  rw [hget] at hcount
  omega

namespace QuotaKept
variable {s' : GenerationState} {phase : GeneratePhase}

theorem moved (h : QuotaKept s) (hcall : s.generating[i]? = some call)
    (hadvance : Advance service s i call phase) (hmoved : Moved s s' i call phase) :
    QuotaKept s' := by
  have hmem : call ∈ s.generating := List.mem_of_getElem? hcall
  have hi : i < s.generating.length := (List.getElem?_eq_some_iff.mp hcall).1
  have hlocks : ∀ r ∈ ({ call with phase := phase } : GenerateCall).locks,
      Locks.HoldsAt GenerateCall.locks s.generating i r ∨
      Locks.heldByOther GenerateCall.locks s.generating i r = false := by
    intro r hr
    cases hadvance with
    | lock hphase hfree => exact .inr (List.mem_singleton.mp hr ▸ hfree)
    | count hphase | insert hphase =>
      exact .inl ⟨call, hcall, GenerateCall.locks_eq hphase ▸ hr⟩
    | _ => cases hr
  have hcounted : ({ call with phase := phase } : GenerateCall).Counted s.reservations := by
    cases hadvance with
    | count => rfl
    | insert hphase hadmitted =>
      have hused := h.counted call hmem
      rw [GenerateCall.counted_eq _ hphase] at hused
      show quotaError (quota _ _ _ _) = none
      rw [← show _ = quota _ _ _ _ from hused]
      exact hadmitted
    | _ => trivial
  have hstored : ({ call with phase := phase } : GenerateCall).stored = call.stored := by
    cases hadvance with
    | rollBack hcall => exact hcall.symm
    | begin hphase | lock hphase | count hphase | insert hphase | finish hphase =>
      exact (GenerateCall.stored_eq hphase).symm
  have hrows : s'.rows.length = s.rows.length := by
    have := congrArg List.length hmoved.reservations
    simpa [GenerationState.reservations] using this
  refine ⟨?_, fun c hc => ?_, hmoved.reservations ▸ h.within, ?_⟩
  · rw [hmoved.generating]
    exact h.exclusive.set hlocks
  · rw [hmoved.generating] at hc
    rw [hmoved.reservations]
    rcases Locks.mem_set hc with rfl | ⟨j, _, hj⟩
    · exact hcounted
    · exact h.counted c (List.mem_of_getElem? hj)
  · have hcount := countP_stored_set hcall { call with phase := phase }
    rw [hstored] at hcount
    rw [hrows, hmoved.generating, h.stored]
    omega

theorem committed {now : Instant} (h : QuotaKept s) (hcall : s.generating[i]? = some call)
    (hphase : call.phase = .inserted now) : QuotaKept (committed service s i call now) := by
  have hmem : call ∈ s.generating := List.mem_of_getElem? hcall
  have hheld : quotaLockName ∈ call.locks := by
    rw [GenerateCall.locks_eq hphase]
    exact List.mem_singleton_self _
  have hadmitted := h.counted call hmem
  rw [GenerateCall.counted_eq _ hphase] at hadmitted
  have hrows : (Bantam.committed service s i call now).reservations =
      s.reservations ++ [call.request.reservation service now] := by
    simp [Bantam.committed, GenerationState.reservations, GenerationState.move]
  have hgenerating : (Bantam.committed service s i call now).generating =
      s.generating.set i { call with phase := .reserved } := rfl
  refine ⟨?_, fun c hc => ?_, ?_, ?_⟩
  · rw [hgenerating]
    exact h.exclusive.set fun r hr => nomatch hr
  · rw [hgenerating] at hc
    rcases Locks.mem_set hc with rfl | ⟨j, hj, hcj⟩
    · trivial
    · -- the lock is at `i`, so no other call knows how many rows there were
      exact GenerateCall.counted_of_free _
        (h.exclusive.disjoint hcall hcj (Ne.symm hj) quotaLockName hheld)
  · rw [hrows]
    exact h.within.reserve hadmitted
  · have hcount := countP_stored_set hcall { call with phase := .reserved }
    have hnew : call.stored = false := GenerateCall.stored_eq hphase
    rw [hnew] at hcount
    rw [hgenerating, show (Bantam.committed service s i call now).rows.length =
      s.rows.length + 1 from List.length_append, h.stored]
    simpa [GenerateCall.stored] using hcount.symm

theorem congr (h : QuotaKept s) (hgenerating : s'.generating = s.generating)
    (hreservations : s'.reservations = s.reservations) : QuotaKept s' := by
  have hrows : s'.rows.length = s.rows.length := by
    have := congrArg List.length hreservations
    simpa [GenerationState.reservations] using this
  refine ⟨hgenerating ▸ h.exclusive, ?_, hreservations ▸ h.within, ?_⟩
  · rw [hgenerating, hreservations]
    exact h.counted
  · rw [hrows, hgenerating]
    exact h.stored

theorem generate (h : QuotaKept s) (request : GenerateRequest) :
    QuotaKept { s with generating := s.generating ++ [⟨request, .assembled⟩] } := by
  refine ⟨h.exclusive.append rfl, fun c hc => ?_, h.within, ?_⟩
  · cases List.mem_append.mp hc with
    | inl hc => exact h.counted c hc
    | inr hc =>
      obtain rfl := List.mem_singleton.mp hc
      trivial
  · rw [h.stored, List.countP_append]
    rfl

end QuotaKept

/-- An approval writes neither the calls of `generate` nor their reservations. -/
theorem approveStep_keeps (service : AsvsAi) (s : GenerationState) (i : Nat) (call : ApproveCall)
    (step : ApproveStep) : (approveStep service s i call step).generating = s.generating ∧
      (approveStep service s i call step).reservations = s.reservations := by
  have hupdate := reservations_update s call.request.generationId
  cases step with
  | review =>
    rw [approveStep]
    split
    · split
      · exact ⟨rfl, rfl⟩
      · exact ⟨rfl, hupdate .ready fun _ => rfl⟩
    · exact ⟨rfl, rfl⟩
  | ran runId =>
    rw [approveStep]
    split
    · split_ifs
      · exact ⟨rfl, hupdate .executing fun _ => rfl⟩
      · exact ⟨rfl, rfl⟩
    · exact ⟨rfl, rfl⟩
  | broke failure =>
    rw [approveStep]
    split
    · exact ⟨rfl, hupdate .executing fun _ => rfl⟩
    · exact ⟨rfl, rfl⟩

theorem quotaKept_step (service : AsvsAi) (s : GenerationState) (e : GenerationEvent)
    (h : QuotaKept s) : QuotaKept (generationStep service s e) := by
  cases e with
  | clock now => exact h.congr rfl rfl
  | generate request => exact h.generate request
  | advance i step =>
    rw [generationStep]
    split
    · rename_i call hcall
      rcases generateStep_cases service s i call step with heq | ⟨phase, hadvance, hmoved⟩ |
        ⟨now, hphase, heq⟩
      · rw [heq]
        exact h
      · exact h.moved hcall hadvance hmoved
      · rw [heq]
        exact h.committed hcall hphase
    · exact h
  | approve request => exact h.congr rfl rfl
  | progress i step =>
    rw [generationStep]
    split
    · obtain ⟨hgenerating, hreservations⟩ := approveStep_keeps service s i ‹_› step
      exact h.congr hgenerating hreservations
    · exact h

theorem quotaKept_empty (now : Instant) : QuotaKept (.empty now) :=
  ⟨Locks.exclusive_nil, (fun _ hc => nomatch hc), within_nil, rfl⟩

/-- The step by which a call is turned away brings no row. -/
theorem reservations_of_rejected {service : AsvsAi} {s : GenerationState} {e : GenerationEvent}
    {i : Nat} {call : GenerateCall} {error : BantamError}
    (hafter : (generationStep service s e).generating[i]? = some call)
    (hrejected : call.phase = .rolledBack (some error)) (hbefore : s.generating[i]? ≠ some call) :
    (generationStep service s e).reservations = s.reservations := by
  cases e with
  | clock now => exact absurd hafter hbefore
  | generate request => rfl
  | advance j step =>
    rw [generationStep] at hafter ⊢
    split at hafter
    · rename_i mover hmover
      rcases generateStep_cases service s j mover step with heq | ⟨phase, _, hmoved⟩ |
        ⟨now, _, heq⟩
      · rw [heq] at hafter
        exact absurd hafter hbefore
      · exact hmoved.reservations
      · rw [heq] at hafter
        cases Locks.getElem?_set hafter with
        | inl hmoved =>
          rw [hmoved.2] at hrejected
          cases hrejected
        | inr hother => exact absurd hother.2 hbefore
    · exact absurd hafter hbefore
  | approve request => rfl
  | progress j step =>
    rw [generationStep]
    split
    · exact (approveStep_keeps service s j _ step).2
    · rfl

/-- Whatever the users, the sessions and the clock do and in whatever order the statements of
the calls come, the table stays within the three limits and has one row for each call that
was not turned away, and the step that turns a call away brings none. -/
theorem generation_quota_never_exceeded (service : AsvsAi) (now : Instant)
    (events : List GenerationEvent) :
    let s := Runs.run (generationStep service) (.empty now) events
    Within s.reservations ∧ s.rows.length = s.generating.countP GenerateCall.stored ∧
    ∀ (e : GenerationEvent) (i : Nat) (call : GenerateCall) (error : BantamError),
      (generationStep service s e).generating[i]? = some call →
      call.phase = .rolledBack (some error) → s.generating[i]? ≠ some call →
      (generationStep service s e).reservations = s.reservations := by
  have h := Runs.run_invariant (quotaKept_step service) (quotaKept_empty now) events
  exact ⟨h.within, h.stored, fun _ _ _ _ => reservations_of_rejected⟩

end Bantam
