import Bantam.Quota

/-! A stored plan is found intact when it is approved. -/
namespace Bantam
variable {service : AsvsAi} {s : GenerationState} {i : Nat} {call : GenerateCall}

/-! What is written for a plan is JSON. -/

theorem wellFormed_strings (l : List String) : Json.ItemsWellFormed (l.map .str) := by
  induction l with
  | nil => trivial
  | cons s rest ih => exact ⟨trivial, ih⟩

theorem TestFields.wellFormed_dump (t : TestFields) : t.dump.WellFormed := by
  refine ⟨by simp only [List.map_cons, List.map_nil]; decide, ?_⟩
  exact ⟨trivial, trivial, trivial, trivial, trivial, wellFormed_strings _, wellFormed_strings _,
    trivial⟩

theorem GeneratedPlan.wellFormed_dump (plan : GeneratedPlan) : plan.dump.WellFormed := by
  have htests : ∀ tests : List GeneratedTest,
      Json.ItemsWellFormed (tests.map fun t => t.toTestFields.dump) := by
    intro tests
    induction tests with
    | nil => trivial
    | cons t rest ih => exact ⟨t.wellFormed_dump, ih⟩
  refine ⟨by simp only [List.map_cons, List.map_nil]; decide, ?_⟩
  exact ⟨trivial, trivial, trivial, trivial, htests plan.tests, trivial⟩

/-! The approval of a row that holds an accepted plan. -/

/-- What the service relies on: the schema library reads what `json.dumps` writes, and a
`JSONB` column gives back the value it was given, in an order of keys of its own. -/
structure AsvsAi.Reliable (service : AsvsAi) : Prop where
  parse : ∀ v : Json, v.WellFormed → service.parse v.dumps = some v
  jsonb : ∀ v : Json, (service.jsonb v).normal = v.normal

/-- The row holds a plan that was accepted for the request it was reserved for, with what the
plan compiles to and its digest. -/
def Stored (service : AsvsAi) (row : Generation) : Prop :=
  ∃ (request : GenerateRequest) (plan : GeneratedPlan) (compiled : String),
    Accepted plan request.source.document ∧ compilePytest service.accepts plan = .ok compiled ∧
    row.promptSha256 = service.sha256 request.prompt ∧
    row.provenance = service.jsonb (request.provenance service) ∧
    row.plan = some (service.jsonb plan.dump) ∧ row.compiledPytest = some compiled ∧
    row.planSha256 = some (canonicalSha service.sha256 plan.dump)

/-- The module of an accepted plan is the one its tests are written as. -/
theorem Accepted.canonicalRegoModule {plan : GeneratedPlan} {sourceContext : Json}
    (h : Accepted plan sourceContext) : canonicalRegoModule plan.tests = .ok plan.regoModule := by
  have hreviewed := h.covering.reviewed_eq
  rw [h.ordered] at hreviewed
  rw [Bantam.canonicalRegoModule, hreviewed, h.module]
  rfl

theorem Accepted.validate_stored {plan : GeneratedPlan} {sourceContext dump stored : Json}
    (h : Accepted plan sourceContext) (hparse : ∀ v : Json, v.WellFormed →
      service.parse v.dumps = some v) (hdump : dump.normal = plan.dump.normal)
    (hstored : stored.normal = sourceContext.normal) :
    validateGeneratedPlan service.parse dump.dumps stored = .ok plan :=
  h.validate_dump (hparse dump (plan.wellFormed_dump.of_normal hdump)) hdump hstored

theorem Stored.reviewed (hservice : service.Reliable) {row : Generation}
    (h : Stored service row) : ∃ plan, service.reviewed row = .ok plan := by
  obtain ⟨request, plan, compiled, haccepted, hcompiled, hprompt, hprovenance, hplan, hsource,
    hsha⟩ := h
  obtain ⟨hvalidated, sourceContext, hcontext, hnormal⟩ := validatedProvenance_stored
    (hservice.jsonb (request.provenance service))
  have hrestored : service.restored row = .ok (plan, compiled, plan.regoModule) := by
    have hvalidate := haccepted.validate_stored hservice.parse (hservice.jsonb plan.dump) hnormal
    simp only [AsvsAi.restored, hprompt, hprovenance, hvalidated, hcontext, hplan, bind,
      Except.bind, Option.getD_some, hvalidate, hcompiled, haccepted.canonicalRegoModule]
    rfl
  refine ⟨plan, ?_⟩
  unfold AsvsAi.reviewed
  rw [hrestored]
  simp only [hsha, hsource, ne_eq, not_true_eq_false, or_self, if_false]

/-! The rows that the statements leave. -/

theorem AsvsAi.generated_ok {raw : String} {source : Json} {plan : GeneratedPlan}
    {compiled : String} (h : service.generated raw source = .ok (plan, compiled)) :
    Accepted plan source ∧ compilePytest service.accepts plan = .ok compiled := by
  unfold AsvsAi.generated at h
  cases hplan : validateGeneratedPlan service.parse raw source with
  | error e =>
    rw [hplan] at h
    cases h
  | ok accepted =>
    cases hcompiled : compilePytest service.accepts accepted with
    | error e =>
      simp only [hplan, hcompiled, bind, Except.bind] at h
      cases h
    | ok text =>
      have hrego := (validateGeneratedPlan_accepted hplan).canonicalRegoModule
      simp only [hplan, hcompiled, hrego, bind, Except.bind, pure, Except.pure] at h
      cases h
      exact ⟨validateGeneratedPlan_accepted hplan, hcompiled⟩

theorem mem_update {generationId : Uuid} {status : GenerationStatus} {f : Generation → Generation}
    {row : Generation} (h : row ∈ (s.update generationId status f).rows) : row ∈ s.rows ∨
      ∃ old ∈ s.rows, old.generationId = generationId ∧ old.status = status ∧ row = f old := by
  obtain ⟨old, hold, rfl⟩ := List.mem_map.mp h
  split_ifs with hmatch
  · exact .inr ⟨old, hold, hmatch.1, hmatch.2, rfl⟩
  · exact .inl hold

/-- What a row can be after a statement of the call. -/
inductive Written (service : AsvsAi) (s : GenerationState) (call : GenerateCall)
    (row : Generation) : Prop where
  | kept (h : row ∈ s.rows)
  | unplanned (h : row.status = .pending ∨ row.status = .failed)
  | finished (plan : GeneratedPlan) (compiled : String) (old : Generation)
      (reserved : call.phase = .reserved)
      (accepted : Accepted plan call.request.source.document)
      (source : compilePytest service.accepts plan = .ok compiled) (mem : old ∈ s.rows)
      (id : old.generationId = call.request.generationId)
      (eq : row = service.finish plan compiled old)

theorem failGeneration_written {error : BantamError} {row : Generation}
    (h : row ∈ (failGeneration s i call error).rows) : Written service s call row := by
  cases mem_update h with
  | inl hold => exact .kept hold
  | inr hnew =>
    obtain ⟨old, _, _, _, rfl⟩ := hnew
    exact .unplanned (.inr rfl)

theorem answer_written {raw : String} {row : Generation} (hphase : call.phase = .reserved)
    (h : row ∈ (answer service s i call raw).rows) : Written service s call row := by
  unfold answer at h
  split at h
  · exact failGeneration_written h
  · exact failGeneration_written h
  · rename_i plan compiled hgenerated
    obtain ⟨haccepted, hcompiled⟩ := AsvsAi.generated_ok hgenerated
    split_ifs at h
    · exact .kept h
    · exact .kept h
    · cases mem_update h with
      | inl hold => exact .kept hold
      | inr hnew =>
        obtain ⟨old, hold, hid, _, heq⟩ := hnew
        exact .finished plan compiled old hphase haccepted hcompiled hold hid heq

theorem generateStep_written {step : GenerateStep} {row : Generation}
    (h : row ∈ (generateStep service s i call step).rows) : Written service s call row := by
  cases step with
  | commit =>
    rw [generateStep] at h
    split at h
    · cases List.mem_append.mp h with
      | inl hold => exact .kept hold
      | inr hnew => exact .unplanned (.inl (List.mem_singleton.mp hnew ▸ rfl))
    · exact .kept h
  | answer raw =>
    rw [generateStep] at h
    split at h
    · exact answer_written ‹_› h
    · exact .kept h
  | refuse error =>
    rw [generateStep] at h
    split at h
    · exact failGeneration_written h
    · exact .kept h
  | insert =>
    rw [generateStep] at h
    split at h
    · split at h
      · exact .kept h
      · dsimp only at h
        split_ifs at h
        · exact .kept h
        · exact .kept h
    · exact .kept h
  | lock =>
    rw [generateStep] at h
    split at h
    · split_ifs at h
      · exact .kept h
      · exact .kept h
    · exact .kept h
  | begin | count | lose =>
    rw [generateStep] at h
    split at h
    all_goals exact .kept h

/-- An approval writes the status of a row and its dates, and leaves the plan alone. -/
theorem approveStep_stored {a : ApproveCall} {step : ApproveStep} {row : Generation}
    (h : row ∈ (approveStep service s i a step).rows) : row ∈ s.rows ∨
      ∃ old ∈ s.rows, (old.status = .ready ∨ old.status = .executing) ∧
        (Stored service old → Stored service row) := by
  have hupdate : ∀ {status : GenerationStatus} {f : Generation → Generation},
      (status = .ready ∨ status = .executing) →
      row ∈ (s.update a.request.generationId status f).rows →
      (∀ old, Stored service old → Stored service (f old)) → row ∈ s.rows ∨
        ∃ old ∈ s.rows, (old.status = .ready ∨ old.status = .executing) ∧
          (Stored service old → Stored service row) := by
    intro status f hstatus hrow hf
    cases mem_update hrow with
    | inl hold => exact .inl hold
    | inr hnew =>
      obtain ⟨old, hold, _, rfl, rfl⟩ := hnew
      exact .inr ⟨old, hold, hstatus, hf old⟩
  cases step with
  | review =>
    rw [approveStep] at h
    split at h
    · split at h
      · exact .inl h
      · exact hupdate (.inl rfl) h fun _ hstored => hstored
    · exact .inl h
  | ran runId =>
    rw [approveStep] at h
    split at h
    · split_ifs at h
      · exact hupdate (.inr rfl) h fun _ hstored => hstored
      · exact .inl h
    · exact .inl h
  | broke failure =>
    rw [approveStep] at h
    split at h
    · exact hupdate (.inr rfl) h fun _ hstored => hstored
    · exact .inl h

/-! The invariant. -/

structure PlansKept (service : AsvsAi) (s : GenerationState) : Prop where
  quota : QuotaKept s
  distinct : (s.reservations.map (·.generationId)).Nodup
  fresh : ∀ call ∈ s.generating, ∀ now, call.phase = .inserted now →
    call.request.generationId ∉ s.reservations.map (·.generationId)
  reserved : ∀ call ∈ s.generating, call.phase = .reserved →
    ∃ now, call.request.reservation service now ∈ s.reservations
  stored : ∀ row ∈ s.rows, row.status ≠ .pending → row.status ≠ .failed → Stored service row
  sound : ∀ call ∈ s.approving, call.phase ≠ .refused (.bantam planIntegrity)

/-- The row that a call has reserved is the one with its identifier. -/
theorem PlansKept.row_of_reserved (h : PlansKept service s) (hcall : call ∈ s.generating)
    (hphase : call.phase = .reserved) {row : Generation} (hrow : row ∈ s.rows)
    (hid : row.generationId = call.request.generationId) :
    ∃ now, row.toReservation = call.request.reservation service now := by
  obtain ⟨now, hmem⟩ := h.reserved call hcall hphase
  refine ⟨now, ?_⟩
  exact List.inj_on_of_nodup_map h.distinct (List.mem_map_of_mem hrow) hmem hid

/-- What a statement of the call leaves of the rows still holds accepted plans. -/
theorem PlansKept.written (h : PlansKept service s) (hcall : call ∈ s.generating)
    {row : Generation} (hrow : Written service s call row) (hpending : row.status ≠ .pending)
    (hfailed : row.status ≠ .failed) : Stored service row := by
  cases hrow with
  | kept hold => exact h.stored row hold hpending hfailed
  | unplanned hstatus =>
    cases hstatus with
    | inl hstatus => exact absurd hstatus hpending
    | inr hstatus => exact absurd hstatus hfailed
  | finished plan compiled old hphase haccepted hcompiled hold hid heq =>
    obtain ⟨now, hreservation⟩ := h.row_of_reserved hcall hphase hold hid
    subst heq
    refine ⟨call.request, plan, compiled, haccepted, hcompiled, ?_, ?_, rfl, rfl, rfl⟩
    · exact congrArg Reservation.promptSha256 hreservation
    · exact congrArg Reservation.provenance hreservation

/-- An approval of a table that holds accepted plans never finds one broken. -/
theorem PlansKept.approved_ne (hservice : service.Reliable) (h : PlansKept service s)
    (request : ApproveRequest) :
    service.approved s.rows request ≠ .error (.bantam planIntegrity) := by
  unfold AsvsAi.approved
  split_ifs with hdisabled
  · intro heq
    simp [planIntegrity] at heq
  · split
    · intro heq
      simp [planIntegrity] at heq
    · rename_i row hfind
      split_ifs with hready
      · intro heq
        simp [planIntegrity] at heq
      · have hstatus : row.status = .ready := not_not.mp hready
        have hstored := h.stored row (List.mem_of_find?_eq_some hfind)
          (by rw [hstatus]; decide) (by rw [hstatus]; decide)
        obtain ⟨plan, hplan⟩ := hstored.reviewed hservice
        rw [hplan]
        intro heq
        cases heq

theorem reservations_ids (s : GenerationState) :
    s.rows.map (·.generationId) = s.reservations.map (·.generationId) := by
  rw [GenerationState.reservations, List.map_map]
  rfl

namespace PlansKept
variable {s' : GenerationState} {phase : GeneratePhase}

theorem moved (h : PlansKept service s) (hcall : s.generating[i]? = some call)
    (hadvance : Advance service s i call phase) (hmoved : Moved s s' i call phase)
    (hrows : ∀ row ∈ s'.rows, Written service s call row) : PlansKept service s' where
  quota := h.quota.moved hcall hadvance hmoved
  distinct := hmoved.reservations ▸ h.distinct
  fresh := by
    intro c hc now hphase
    rw [hmoved.generating] at hc
    rw [hmoved.reservations]
    rcases Locks.mem_set hc with rfl | ⟨j, _, hj⟩
    · cases hadvance with
      | insert _ _ hfresh => exact reservations_ids s ▸ hfresh
      | _ => cases hphase
    · exact h.fresh c (List.mem_of_getElem? hj) now hphase
  reserved := by
    intro c hc hphase
    rw [hmoved.generating] at hc
    rw [hmoved.reservations]
    rcases Locks.mem_set hc with rfl | ⟨j, _, hj⟩
    · cases hadvance with
      | _ => cases hphase
    · exact h.reserved c (List.mem_of_getElem? hj) hphase
  stored := fun row hrow => h.written (List.mem_of_getElem? hcall) (hrows row hrow)
  sound := hmoved.approving ▸ h.sound

theorem committed {now : Instant} (h : PlansKept service s) (hcall : s.generating[i]? = some call)
    (hphase : call.phase = .inserted now)
    (hrows : ∀ row ∈ (committed service s i call now).rows, Written service s call row) :
    PlansKept service (committed service s i call now) := by
  have hreservations : (Bantam.committed service s i call now).reservations =
      s.reservations ++ [call.request.reservation service now] := by
    simp [Bantam.committed, GenerationState.reservations, GenerationState.move]
  have hmem := List.mem_of_getElem? hcall
  refine
    { quota := h.quota.committed hcall hphase
      distinct := ?_
      fresh := fun c hc now' hc' => ?_
      reserved := fun c hc hc' => ?_
      stored := fun row hrow => h.written hmem (hrows row hrow)
      sound := h.sound }
  · rw [hreservations, List.map_append, List.nodup_append]
    refine ⟨h.distinct, List.nodup_singleton _, fun a ha b hb hab => ?_⟩
    obtain rfl : b = call.request.generationId := List.mem_singleton.mp hb
    exact h.fresh call hmem now hphase (hab ▸ ha)
  · rcases Locks.mem_set (show c ∈ s.generating.set i _ from hc) with rfl | ⟨j, hj, hcj⟩
    · cases hc'
    · -- two calls inside their inserts would both hold the lock
      have hheld : quotaLockName ∈ call.locks :=
        GenerateCall.locks_eq hphase ▸ List.mem_singleton_self _
      have hheld' : quotaLockName ∈ c.locks :=
        GenerateCall.locks_eq hc' ▸ List.mem_singleton_self _
      exact absurd hheld' (h.quota.exclusive.disjoint hcall hcj (Ne.symm hj) _ hheld)
  · rw [hreservations]
    rcases Locks.mem_set (show c ∈ s.generating.set i _ from hc) with rfl | ⟨j, hj, hcj⟩
    · exact ⟨now, List.mem_append_right _ (List.mem_singleton_self _)⟩
    · obtain ⟨now', hnow'⟩ := h.reserved c (List.mem_of_getElem? hcj) hc'
      exact ⟨now', List.mem_append_left _ hnow'⟩

/-- The reservations and the calls of `generate` are the same; the rows hold what they held. -/
theorem congr (h : PlansKept service s) (hquota : QuotaKept s')
    (hgenerating : s'.generating = s.generating) (hreservations : s'.reservations = s.reservations)
    (hrows : ∀ row ∈ s'.rows, row.status ≠ .pending → row.status ≠ .failed → Stored service row)
    (hsound : ∀ call ∈ s'.approving, call.phase ≠ .refused (.bantam planIntegrity)) :
    PlansKept service s' where
  quota := hquota
  distinct := hreservations ▸ h.distinct
  fresh := by
    rw [hgenerating, hreservations]
    exact h.fresh
  reserved := by
    rw [hgenerating, hreservations]
    exact h.reserved
  stored := hrows
  sound := hsound

end PlansKept

/-- Where an approval goes, a refusal is one that the first transaction raised. -/
theorem approveStep_phase {a : ApproveCall} {step : ApproveStep} {c : ApproveCall}
    (h : c ∈ (approveStep service s i a step).approving) : c ∈ s.approving ∨
      ∀ failure, c.phase = .refused failure →
        service.approved s.rows a.request = .error failure := by
  have hmove : ∀ {t : GenerationState} {phase : ApprovePhase}, t.approving = s.approving →
      c ∈ (t.moveApproval i a phase).approving →
      (∀ failure, phase = .refused failure → service.approved s.rows a.request = .error failure) →
      c ∈ s.approving ∨ ∀ failure, c.phase = .refused failure →
        service.approved s.rows a.request = .error failure := by
    intro t phase hsame hc hphase
    cases List.mem_or_eq_of_mem_set hc with
    | inl hold => exact .inl (hsame ▸ hold)
    | inr hnew =>
      subst hnew
      exact .inr hphase
  cases step with
  | review =>
    rw [approveStep] at h
    split at h
    · split at h
      · rename_i failure hfailure
        refine hmove rfl h fun _ heq => ?_
        cases heq
        exact hfailure
      · exact hmove rfl h fun _ heq => by cases heq
    · exact .inl h
  | ran runId =>
    rw [approveStep] at h
    split at h
    · split_ifs at h
      · exact hmove rfl h fun _ heq => by cases heq
      · exact hmove rfl h fun _ heq => by cases heq
    · exact .inl h
  | broke failure =>
    rw [approveStep] at h
    split at h
    · exact hmove rfl h fun _ heq => by cases heq
    · exact .inl h

theorem plansKept_step (hservice : service.Reliable) (s : GenerationState) (e : GenerationEvent)
    (h : PlansKept service s) : PlansKept service (generationStep service s e) := by
  have hquota := quotaKept_step service s e h.quota
  cases e with
  | clock now => exact h.congr hquota rfl rfl h.stored h.sound
  | generate request =>
    refine { h with quota := hquota, fresh := fun c hc => ?_, reserved := fun c hc hphase => ?_ }
    · cases List.mem_append.mp hc with
      | inl hc => exact h.fresh c hc
      | inr hc =>
        obtain rfl := List.mem_singleton.mp hc
        intro _ hphase
        cases hphase
    · cases List.mem_append.mp hc with
      | inl hc => exact h.reserved c hc hphase
      | inr hc =>
        obtain rfl := List.mem_singleton.mp hc
        cases hphase
  | advance i step =>
    rw [generationStep]
    split
    · rename_i call hcall
      have hwritten : ∀ row ∈ (generateStep service s i call step).rows,
          Written service s call row := fun _ => generateStep_written
      rcases generateStep_cases service s i call step with heq | ⟨phase, hadvance, hmoved⟩ |
        ⟨now, hphase, heq⟩
      · rw [heq]
        exact h
      · exact h.moved hcall hadvance hmoved hwritten
      · rw [heq] at hwritten ⊢
        exact h.committed hcall hphase hwritten
    · exact h
  | approve request =>
    refine h.congr hquota rfl rfl h.stored fun c hc => ?_
    cases List.mem_append.mp hc with
    | inl hc => exact h.sound c hc
    | inr hc =>
      obtain rfl := List.mem_singleton.mp hc
      intro hphase
      cases hphase
  | progress i step =>
    rw [generationStep] at hquota ⊢
    split
    · rename_i a _
      rw [‹s.approving[i]? = some a›] at hquota
      obtain ⟨hgenerating, hreservations⟩ := approveStep_keeps service s i a step
      refine h.congr hquota hgenerating hreservations (fun row hrow hpending hfailed => ?_)
        fun c hc hphase => ?_
      · rcases approveStep_stored hrow with hold | ⟨old, hold, hstatus, hstored⟩
        · exact h.stored row hold hpending hfailed
        · refine hstored (h.stored old hold ?_ ?_)
          all_goals
            rcases hstatus with hstatus | hstatus
            all_goals
              rw [hstatus]
              decide
      · cases approveStep_phase hc with
        | inl hold => exact h.sound c hold hphase
        | inr hnew => exact h.approved_ne hservice a.request (hnew _ hphase)
    · exact h

theorem plansKept_empty (service : AsvsAi) (now : Instant) : PlansKept service (.empty now) where
  quota := quotaKept_empty now
  distinct := List.nodup_nil
  fresh := fun _ hc => nomatch hc
  reserved := fun _ hc => nomatch hc
  stored := fun _ hrow => nomatch hrow
  sound := fun _ hc => nomatch hc

/-- Validated again from the text of its dump against the same context, a plan is accepted as it
is, with its module the canonical one of its tests, in whatever order the keys come back. And
whatever the calls do and in whatever order, no approval reports that a stored plan has been
tampered with. -/
theorem plan_normalisation_fixed_point (service : AsvsAi) (hservice : service.Reliable) :
    (∀ (raw : String) (sourceContext : Json) (plan : GeneratedPlan),
      validateGeneratedPlan service.parse raw sourceContext = .ok plan →
      (∀ dump stored : Json, dump.normal = plan.dump.normal →
        stored.normal = sourceContext.normal →
        validateGeneratedPlan service.parse dump.dumps stored = .ok plan) ∧
      canonicalRegoModule plan.tests = .ok plan.regoModule) ∧
    ∀ (now : Instant) (events : List GenerationEvent),
      ∀ call ∈ (Runs.run (generationStep service) (.empty now) events).approving,
        call.phase ≠ .refused (.bantam planIntegrity) := by
  constructor
  · intro raw sourceContext plan h
    have haccepted := validateGeneratedPlan_accepted h
    exact ⟨fun dump stored => haccepted.validate_stored hservice.parse,
      haccepted.canonicalRegoModule⟩
  · intro now events
    exact (Runs.run_invariant (plansKept_step hservice) (plansKept_empty service now) events).sound

/-- The standard library's own reader and columns that keep every order of keys are reliable. -/
def plainService : AsvsAi :=
  { sha256 := fun text => text
    parse := Json.loads
    accepts := fun _ => true
    jsonb := fun v => v
    featureEnabled := true }

/-- A plan whose texts hold quotes and backslashes, written without blanks by the model. -/
theorem samplePlan_fixed_point :
    validateGeneratedPlan Json.loads (samplePlan _ quotes_mem).dump.dumps sampleContext =
      .ok (samplePlan _ quotes_mem) ∧
    ∀ (now : Instant) (events : List GenerationEvent),
      ∀ call ∈ (Runs.run (generationStep plainService) (.empty now) events).approving,
        call.phase ≠ .refused (.bantam planIntegrity) := by
  have hparse : Json.loads
      (String.ofList ((samplePlan _ quotes_mem).dump.write ⟨[','], [':'], true⟩)) =
        some (samplePlan _ quotes_mem).dump :=
    Json.loads_write ⟨⟨[], rfl, by decide⟩, ⟨[], rfl, by decide⟩⟩ (GeneratedPlan.wellFormed_dump _)
  have hvalid := (samplePlan_accepted quotes_mem).validate_dump hparse rfl rfl
  have hfixed := plan_normalisation_fixed_point plainService
    ⟨fun _ => Json.loads_dumps, fun _ => rfl⟩
  exact ⟨(hfixed.1 _ _ _ hvalid).1 _ _ rfl rfl, hfixed.2⟩

end Bantam
