import Bantam.Answers
import Bantam.Enrolment

/-! The life of an MFA request under any guesses at its factor: each recorded failure is
committed, the attempts and the consumption of its row are what the callers were told, and
the two end its life. -/
namespace Bantam
open Tables

/-- The end of a completion, as its caller gets it. -/
structure Ending where
  transactionId : Uuid
  databaseNow : Instant
  result : Except MfaError MfaCompletion
  deriving DecidableEq

namespace Ending

def succeeded (e : Ending) : Bool := e.result.isOk

/-- The caller is told that the factor did not verify. -/
def failed (e : Ending) : Bool :=
  match e.result with
  | .error (.failure failure) => failure.code = "MFA_VERIFICATION_FAILED"
  | _ => false
end Ending

def AnswerStage.result : AnswerStage → Option (Except MfaError MfaCompletion)
  | .ended result => some result
  | _ => none

/-- What a step ends. -/
def AnsweringCall.ending (service : MfaService) (blocked : MfaLock → Bool) (db : MfaDb) :
    AnsweringCall → Option Ending
  | .answer c =>
    if c.stage.result.isSome then none
    else (c.advance service blocked db).1.result.map fun result =>
      ⟨c.transactionId, c.draw.databaseNow, result⟩
  | _ => none

def Answering.ending (service : MfaService) (s : Answering) : AnsweringEvent → Option Ending
  | .ceremony (.advance i) => s.calls[i]?.bind (AnsweringCall.ending service (s.blocked i) s.db)
  | _ => none

/-- The failures that the callers of the request's completions were told of. -/
def failures (transactionId : Uuid) (log : List Ending) : Nat :=
  log.countP fun e => e.transactionId = transactionId && e.failed

def completions (transactionId : Uuid) (log : List Ending) : Nat :=
  log.countP fun e => e.transactionId = transactionId && e.succeeded

/-- How the database transaction of a completion ends: nothing is written, a failure is
recorded, or the factor is written and the request consumed. -/
inductive AnswerEnd (c : Answer) (t : MfaTransaction) (verdict : Verdict) (db : MfaDb) :
    Except MfaError MfaCompletion → MfaDb → Prop where
  | refused (e : MfaError)
      (hquiet : Ending.failed ⟨c.transactionId, c.draw.databaseNow, .error e⟩ = false)
      (hraised : ∀ raised, e = .database raised →
        verdict.write c.draw t db = .error (.database raised)) :
      AnswerEnd c t verdict db (.error e) db
  | recorded (message : String) (hv : verdict = .record message) :
      AnswerEnd c t verdict db (.error (.failure (verificationFailed message)))
        (db.recordFailure t.transactionId)
  | completed (completion : MfaCompletion) (mid db' : MfaDb)
      (hwritten : verdict.write c.draw t db = .ok (none, mid))
      (hconsumed : mid.consume t c.response.method c.draw.databaseNow = .ok (completion, db')) :
      AnswerEnd c t verdict db (.ok completion) db'

section Ends
variable {c : Answer} {t : MfaTransaction} {verdict : Verdict} {db db' : MfaDb}

theorem handled_error (response : FactorResponse) (e : MfaError) (db : MfaDb) :
    ∃ e', MfaService.handled response (.error e, db) = (.error e', db) ∧
      (e' = e ∨ e' = .failure passkeyAlreadyEnrolled) := by
  unfold MfaService.handled MfaService.passkeyHandler
  split_ifs
  · exact ⟨e, rfl, .inl rfl⟩
  · split
    · rename_i heq
      cases heq
      exact ⟨_, rfl, .inr rfl⟩
    · exact ⟨e, rfl, .inl rfl⟩

theorem handled_ok (response : FactorResponse) (completion : MfaCompletion) (db : MfaDb) :
    MfaService.handled response (.ok completion, db) = (.ok completion, db) := by
  cases response <;> rfl

theorem Refusal.code (refusal : Refusal) :
    refusal.failure.code ≠ "MFA_VERIFICATION_FAILED" := by
  cases refusal <;> decide

/-- The errors of the statements are those of the database. -/
theorem write_error {e : MfaError} (h : verdict.write c.draw t db = .error e) :
    ∃ raised, e = .database raised := by
  cases verdict with
  | refuse | usePasskey => cases h
  | record message =>
    simp only [Verdict.write, MfaDb.countFailure] at h
    split_ifs at h
    · cases h
      exact ⟨_, rfl⟩
    · cases h
  | enrollPasskey verified transports =>
    simp only [Verdict.write, MfaDb.insertPasskey] at h
    split at h
    · cases h
      exact ⟨_, rfl⟩
    · split_ifs at h
      · cases h
        exact ⟨_, rfl⟩
      · cases h
      · cases h
        exact ⟨_, rfl⟩
  | totp encrypted step =>
    simp only [Verdict.write, MfaService.acceptTotp] at h
    split_ifs at h
    · cases h
    · split at h
      · cases h
        exact ⟨_, rfl⟩
      · split_ifs at h
        · cases h
        · cases h
          exact ⟨_, rfl⟩

theorem write_failure {failure : MfaFailure} {mid : MfaDb}
    (h : verdict.write c.draw t db = .ok (some failure, mid)) :
    (∃ refusal, verdict = .refuse refusal ∧ failure = refusal.failure ∧ mid = db) ∨
    ∃ message, verdict = .record message ∧ failure = verificationFailed message ∧
      mid = db.recordFailure t.transactionId := by
  cases verdict with
  | refuse refusal =>
    cases h
    exact .inl ⟨refusal, rfl, rfl, rfl⟩
  | record message =>
    simp only [Verdict.write, bind_eq_ok] at h
    obtain ⟨counted, hcount, h⟩ := h
    cases h
    unfold MfaDb.countFailure at hcount
    split_ifs at hcount
    cases hcount
    exact .inr ⟨message, rfl, rfl, rfl⟩
  | usePasskey => cases h
  | enrollPasskey verified transports =>
    simp only [Verdict.write] at h
    split at h
    · cases h
    · split_ifs at h
      simp only [bind_eq_ok] at h
      obtain ⟨_, _, h⟩ := h
      cases h
  | totp encrypted step =>
    simp only [Verdict.write, bind_eq_ok] at h
    obtain ⟨_, _, h⟩ := h
    cases h

theorem consume_error {method : String} {now : Instant} {e : MfaError}
    (h : db.consume t method now = .error e) : e = .failure userNotActive := by
  unfold MfaDb.consume at h
  simp only at h
  split at h
  · cases h
    rfl
  · split_ifs at h
    cases h
    rfl

theorem commit_refused {e : MfaError}
    (h : c.commit t verdict db = MfaService.handled c.response (.error e, db))
    (hquiet : Ending.failed ⟨c.transactionId, c.draw.databaseNow, .error e⟩ = false)
    (hraised : ∀ raised, e = .database raised →
      verdict.write c.draw t db = .error (.database raised)) :
    AnswerEnd c t verdict db (c.commit t verdict db).1 (c.commit t verdict db).2 := by
  obtain ⟨e', he, hcase⟩ := handled_error c.response e db
  rw [h, he]
  cases hcase with
  | inl hsame =>
    subst hsame
    exact .refused e' hquiet hraised
  | inr henrolled =>
    subst henrolled
    refine .refused _ rfl fun raised hdatabase => ?_
    cases hdatabase

theorem commit_cases (c : Answer) (t : MfaTransaction) (verdict : Verdict) (db : MfaDb) :
    AnswerEnd c t verdict db (c.commit t verdict db).1 (c.commit t verdict db).2 := by
  cases hw : verdict.write c.draw t db with
  | error e =>
    obtain ⟨raised, rfl⟩ := write_error hw
    refine commit_refused (e := .database raised) ?_ rfl fun again hagain => ?_
    · simp only [Answer.commit, hw]
      rfl
    · cases hagain
      exact hw
  | ok outcome =>
    obtain ⟨failure, mid⟩ := outcome
    cases failure with
    | some failure =>
      have hcommit : c.commit t verdict db =
          MfaService.handled c.response (.error (.failure failure), mid) := by
        simp only [Answer.commit, hw]
        rfl
      cases write_failure hw with
      | inl h =>
        obtain ⟨refusal, rfl, rfl, rfl⟩ := h
        refine commit_refused hcommit ?_ fun raised hraised => by cases hraised
        simp [Ending.failed, refusal.code]
      | inr h =>
        obtain ⟨message, rfl, rfl, rfl⟩ := h
        have hhandled : ∀ response, MfaService.handled response
            (.error (.failure (verificationFailed message)), db.recordFailure t.transactionId) =
            (.error (.failure (verificationFailed message)), db.recordFailure t.transactionId) := by
          intro response
          cases response <;> rfl
        rw [hcommit, hhandled]
        exact .recorded message rfl
    | none =>
      cases hc : mid.consume t c.response.method c.draw.databaseNow with
      | error e =>
        obtain rfl := consume_error hc
        refine commit_refused (e := .failure userNotActive) ?_ ?_ fun raised hraised => by
          cases hraised
        · simp only [Answer.commit, hw, bind, Except.bind, MfaService.settle, hc]
          rfl
        · simp [Ending.failed, userNotActive]
      | ok settled =>
        obtain ⟨completion, db'⟩ := settled
        have hcommit : c.commit t verdict db =
            MfaService.handled c.response (.ok completion, db') := by
          simp only [Answer.commit, hw, bind, Except.bind, MfaService.settle, hc]
          rfl
        rw [hcommit, handled_ok]
        exact .completed completion mid db' hw hc
end Ends

/-- What the next step of a call makes of the requests, and what it ends. -/
inductive RowStep (settings : MfaSettings) (databaseNow : Instant) (blocked : MfaLock → Bool)
    (db : MfaDb) : AnsweringCall → Option Ending → List MfaTransaction → Prop where
  | same (call : AnsweringCall) (ending : Option Ending)
      (hquiet : ∀ e ∈ ending, e.succeeded = false ∧ e.failed = false) :
      RowStep settings databaseNow blocked db call ending db.transactions
  | deleted (c : Begin)
      (hfree : ∀ t ∈ db.transactions, t.stale c.userId databaseNow = true →
        blocked (.request t.transactionId) = false) :
      RowStep settings databaseNow blocked db (.begin c) none
        (db.transactions.filter fun t => !t.stale c.userId databaseNow)
  | inserted (c : Begin) (new : NewTransaction) (hstage : c.stage = .insert new)
      (hnew : c.transactionId ∉ db.transactions.map MfaTransaction.transactionId) :
      RowStep settings databaseNow blocked db (.begin c) none
        (db.transactions ++ [settings.row c.userId c.transactionId c.now databaseNow new])
  | prepared (c : Preparation) (t : MfaTransaction) (hstage : c.stage = .update t) :
      RowStep settings databaseNow blocked db (.prepare c) none
        (updateWhere (fun u => u.transactionId = c.transactionId)
          (MfaTransaction.prepare c.method (c.method.label c.label) c.challenge c.pendingSecret)
          db.transactions)
  | recorded (c : Answer) (t : MfaTransaction) (verdict : Verdict) (factors : List Factor)
      (ending : Ending) (hstage : c.stage = .write t verdict factors)
      (hid : ending.transactionId = c.transactionId)
      (hended : ending.succeeded = false ∧ ending.failed = true) :
      RowStep settings databaseNow blocked db (.answer c) (some ending)
        (updateWhere (fun u => u.transactionId = t.transactionId) MfaTransaction.fail
          db.transactions)
  | consumed (c : Answer) (t : MfaTransaction) (verdict : Verdict) (factors : List Factor)
      (ending : Ending) (hstage : c.stage = .write t verdict factors)
      (hid : ending.transactionId = c.transactionId)
      (hnow : ending.databaseNow = c.draw.databaseNow)
      (hended : ending.succeeded = true ∧ ending.failed = false) :
      RowStep settings databaseNow blocked db (.answer c) (some ending)
        (updateWhere (fun u => u.transactionId = t.transactionId)
          (MfaTransaction.consume c.draw.databaseNow) db.transactions)

section Rows
variable {settings : MfaSettings} {service : MfaService} {databaseNow : Instant}
  {blocked : MfaLock → Bool} {db : MfaDb} {call : AnsweringCall} {t : MfaTransaction}

theorem write_transactions {c : Answer} {verdict : Verdict} {mid : MfaDb}
    (h : verdict.write c.draw t db = .ok (none, mid)) : mid.transactions = db.transactions := by
  cases verdict with
  | refuse => cases h
  | record message =>
    simp only [Verdict.write, bind_eq_ok] at h
    obtain ⟨_, _, h⟩ := h
    cases h
  | usePasskey =>
    cases h
    rfl
  | enrollPasskey verified transports =>
    simp only [Verdict.write] at h
    split at h
    · cases h
    · split_ifs at h
      simp only [bind_eq_ok, MfaDb.insertPasskey] at h
      obtain ⟨inserted, hinsert, h⟩ := h
      split_ifs at hinsert
      cases hinsert
      cases h
      rfl
  | totp encrypted step =>
    simp only [Verdict.write, MfaService.acceptTotp, bind_eq_ok] at h
    obtain ⟨written, hwrite, h⟩ := h
    cases h
    split_ifs at hwrite
    · cases hwrite
      rfl
    · split at hwrite
      · cases hwrite
      · split_ifs at hwrite
        cases hwrite
        unfold MfaService.upsertTotp
        split_ifs <;> rfl

theorem malformed_quiet {response : FactorResponse} {failure : MfaFailure}
    (h : service.malformed response = some failure) :
    failure.code ≠ "MFA_VERIFICATION_FAILED" := by
  cases response with
  | passkey credential =>
    simp only [MfaService.malformed] at h
    split_ifs at h
    cases h
    decide
  | totp code =>
    simp only [MfaService.malformed] at h
    split_ifs at h
    cases h
    decide

/-- A completion ends its call at its writes, or before them with an error of its own. -/
theorem answer_rows (settings : MfaSettings) (service : MfaService) (databaseNow : Instant)
    (blocked : MfaLock → Bool) (db : MfaDb) (c : Answer) :
    RowStep settings databaseNow blocked db (.answer c)
      ((AnsweringCall.answer c).ending service blocked db)
      (c.advance service blocked db).2.transactions := by
  have quiet : ∀ e ∈ (none : Option Ending), e.succeeded = false ∧ e.failed = false := by
    intro e he
    cases he
  have refused : ∀ failure : MfaFailure, failure.code ≠ "MFA_VERIFICATION_FAILED" →
      ∀ e ∈ some (Ending.mk c.transactionId c.draw.databaseNow (.error (.failure failure))),
        e.succeeded = false ∧ e.failed = false := by
    intro failure hcode e he
    cases he
    exact ⟨rfl, by simp [Ending.failed, hcode]⟩
  cases hs : c.stage with
  | select =>
    simp only [AnsweringCall.ending, Answer.advance, hs]
    cases hm : service.malformed c.response with
    | some failure => exact .same _ _ (refused failure (malformed_quiet hm))
    | none =>
      cases hfound : db.transactionForUpdate c.transactionId c.draw.databaseNow with
      | error e =>
        obtain rfl := transactionForUpdate_error hfound
        exact .same _ _ (refused invalidMfaTransaction (by decide))
      | ok t =>
        by_cases hwaits : blocked (.request c.transactionId) = true
        · simp only [if_pos hwaits]
          exact .same _ _ quiet
        · simp only [if_neg hwaits]
          exact .same _ _ quiet
  | verify t =>
    simp only [AnsweringCall.ending, Answer.advance, hs]
    by_cases hwaits : (service.factorsForUpdate t db c.response).any
        (fun f => blocked (.factor t.userId f)) = true
    · simp only [if_pos hwaits]
      exact .same _ _ quiet
    · simp only [if_neg hwaits]
      exact .same _ _ quiet
  | write t verdict factors =>
    simp only [AnsweringCall.ending, Answer.advance, hs]
    by_cases hwaits : (verdict.rows t).any blocked = true
    · rw [if_pos hwaits]
      exact .same _ _ quiet
    · rw [if_neg hwaits]
      have hend := commit_cases c t verdict db
      generalize c.commit t verdict db = outcome at hend
      obtain ⟨result, db'⟩ := outcome
      simp only at hend ⊢
      cases hend with
      | refused e hquiet hraised =>
        refine .same _ _ fun ending he => ?_
        cases he
        exact ⟨rfl, hquiet⟩
      | recorded message hv =>
        exact .recorded c t verdict factors _ hs rfl
          ⟨rfl, by simp [Ending.failed, verificationFailed]⟩
      | completed completion mid db' hwritten hconsumed =>
        have hrows := (consume_consumed hconsumed).transactions
        rw [write_transactions hwritten] at hrows
        rw [hrows]
        exact .consumed c t verdict factors _ hs rfl rfl ⟨rfl, rfl⟩
  | ended result =>
    simp only [AnsweringCall.ending, Answer.advance, hs]
    exact .same _ _ quiet

theorem advance_rows (settings : MfaSettings) (service : MfaService) (databaseNow : Instant)
    (blocked : MfaLock → Bool) (db : MfaDb) (call : AnsweringCall) :
    RowStep settings databaseNow blocked db call (call.ending service blocked db)
      (call.advance settings service databaseNow blocked db).2.transactions := by
  have quiet : ∀ e ∈ (none : Option Ending), e.succeeded = false ∧ e.failed = false := by
    intro e he
    cases he
  cases call with
  | begin c =>
    have hframe := (begin_frame settings service databaseNow blocked db c).1
    simp only [AnsweringCall.advance, AnsweringCall.ending]
    generalize (c.advance settings databaseNow blocked db).2.transactions = rows at hframe ⊢
    cases hframe with
    | same => exact .same _ _ quiet
    | deleted _ hfree => exact .deleted c hfree
    | inserted _ new hstage hnew => exact .inserted c new hstage hnew
  | prepare c =>
    have hframe := (prepare_frame settings service databaseNow blocked db c).1
    simp only [AnsweringCall.advance, AnsweringCall.ending]
    generalize (c.advance settings blocked db).2.transactions = rows at hframe ⊢
    cases hframe with
    | same => exact .same _ _ quiet
    | prepared _ t hstage => exact .prepared c t hstage
  | answer c => exact answer_rows settings service databaseNow blocked db c
  | remove userId role c =>
    simp only [AnsweringCall.advance, AnsweringCall.ending]
    cases removal_frame userId role (fun l => blocked (l.ofUser userId)) c db with
    | inl h =>
      rw [h]
      exact .same _ _ quiet
    | inr h =>
      obtain ⟨enabled, h⟩ := h
      rw [h, setMfaEnabled_transactions, revoke_transactions]
      exact .same _ _ quiet
  | crashed => exact .same _ _ quiet
end Rows

/-! What the calls have read of the rows that they have locked. -/

/-- An enrolment has a label that its factor may have. -/
def MfaTransaction.Labelled (t : MfaTransaction) : Prop :=
  t.purpose = .enrollPasskey ∨ t.purpose = .enrollTotp →
    ∃ label, t.factorLabel = some label ∧ 1 ≤ label.length ∧ label.length ≤ 80

/-- The table of the factor takes what the verdict writes. -/
def Verdict.Fits (t : MfaTransaction) : Verdict → Prop
  | .refuse _ | .record _ | .usePasskey _ _ => True
  | .enrollPasskey _ _ => t.purpose = .enrollPasskey
  | .totp _ _ => t.purpose = .login ∨ t.purpose = .enrollTotp

namespace Answer

/-- What was read of the request whose row is locked. -/
def held (c : Answer) : Option MfaTransaction :=
  match c.stage with
  | .verify t | .write t _ _ => some t
  | _ => none

end Answer

/-- The verdict, once there is one, is on the request that was read. -/
def AnswerStage.Judged (t : MfaTransaction) : AnswerStage → Prop
  | .write _ verdict _ => verdict.Fits t
  | _ => True

def BeginStage.pending : BeginStage → Bool
  | .ended _ => false
  | _ => true

namespace AnsweringCall

def held : AnsweringCall → Option MfaTransaction
  | .prepare c => c.held
  | .answer c => c.held
  | _ => none

/-- What a call has tested of the row. -/
def HasRead (t : MfaTransaction) : AnsweringCall → Prop
  | .prepare c => t.transactionId = c.transactionId ∧ (c.method.label c.label).length ≤ 80
  | .answer c => t.transactionId = c.transactionId ∧ c.draw.databaseNow < t.expiresAt ∧
      t.consumedAt = none ∧ t.attempts < maxAttempts ∧ c.stage.Judged t
  | _ => True

/-- The id of the request that the call is to begin. -/
def begun : AnsweringCall → List Uuid
  | .begin c => [c.transactionId]
  | _ => []

/-- The id, as long as the request is not there. -/
def unborn : AnsweringCall → List Uuid
  | .begin c => if c.stage.pending then [c.transactionId] else []
  | _ => []
end AnsweringCall

section Reads
variable {settings : MfaSettings} {service : MfaService} {databaseNow : Instant}
  {blocked : MfaLock → Bool} {db : MfaDb} {call : AnsweringCall} {t : MfaTransaction}
  {rows : List MfaTransaction} {ending : Option Ending} {c : Answer}

theorem judge_fits (service : MfaService) (now : Instant) (t : MfaTransaction) (db : MfaDb)
    (response : FactorResponse) : (service.judge now t db response).Fits t := by
  cases response with
  | passkey credential =>
    simp only [MfaService.judge]
    split
    · trivial
    · unfold MfaService.judgePasskey
      split
      · split
        · trivial
        · split <;> trivial
      · rename_i hp
        split
        · trivial
        · split_ifs
          · trivial
          · exact hp
      · trivial
  | totp code =>
    simp only [MfaService.judge, MfaService.judgeTotp]
    cases hp : t.purpose with
    | enrollChoice | enrollPasskey => trivial
    | login | enrollTotp =>
      simp only [MfaService.judgeCode]
      split
      · trivial
      · trivial
      · split
        · trivial
        · split
          · trivial
          · simp [Verdict.Fits, hp]

theorem answer_locks (service : MfaService) (blocked : MfaLock → Bool) (db : MfaDb) (c : Answer) :
    ∀ l ∈ (c.become (c.advance service blocked db).1).locks, l ∈ c.locks ∨ blocked l = false := by
  intro l hl
  unfold Answer.advance at hl
  cases hs : c.stage with
  | select =>
    simp only [hs] at hl
    cases hm : service.malformed c.response with
    | some failure =>
      simp only [hm] at hl
      cases hl
    | none =>
      cases hfound : db.transactionForUpdate c.transactionId c.draw.databaseNow with
      | error e =>
        simp only [hm, hfound] at hl
        cases hl
      | ok t =>
        by_cases hwaits : blocked (.request c.transactionId) = true
        · simp only [hm, hfound, if_pos hwaits] at hl
          cases hl
        · simp only [hm, hfound, if_neg hwaits] at hl
          have he : l = .request c.transactionId := List.mem_singleton.mp hl
          exact .inr (he ▸ Bool.not_eq_true _ ▸ hwaits)
  | verify t =>
    simp only [hs] at hl
    by_cases hwaits : (service.factorsForUpdate t db c.response).any
        (fun f => blocked (.factor t.userId f)) = true
    · rw [if_pos hwaits] at hl
      exact .inl (by simpa [Answer.become, Answer.locks, hs] using hl)
    · rw [if_neg hwaits] at hl
      cases List.mem_cons.mp hl with
      | inl he =>
        left
        rw [he]
        simp [Answer.locks, hs, Answer.become]
      | inr hfactor =>
        obtain ⟨f, hf, rfl⟩ := List.mem_map.mp hfactor
        right
        by_contra hblocked
        exact hwaits (List.any_eq_true.mpr ⟨f, hf, by simpa using hblocked⟩)
  | write t verdict factors =>
    simp only [hs] at hl
    by_cases hwaits : (verdict.rows t).any blocked = true
    · rw [if_pos hwaits] at hl
      exact .inl (by simpa [Answer.become, Answer.locks, hs] using hl)
    · rw [if_neg hwaits] at hl
      cases hl
  | ended result =>
    simp only [hs] at hl
    cases hl

theorem answering_locks (settings : MfaSettings) (service : MfaService) (databaseNow : Instant)
    (blocked : MfaLock → Bool) (db : MfaDb) (call : AnsweringCall) :
    ∀ l ∈ (call.advance settings service databaseNow blocked db).1.locks,
      l ∈ call.locks ∨ blocked l = false := by
  cases call with
  | begin c => exact advance_locks settings service databaseNow blocked db (.begin c)
  | prepare c => exact advance_locks settings service databaseNow blocked db (.prepare c)
  | answer c => exact answer_locks service blocked db c
  | remove userId role c =>
    exact advance_locks settings service databaseNow blocked db (.remove userId role c)
  | crashed => exact fun l hl => .inl hl

/-- A call that keeps a row locked has written nothing. -/
theorem answering_reads (h : (call.advance settings service databaseNow blocked db).1.held = some t) :
    (call.advance settings service databaseNow blocked db).2 = db := by
  cases call with
  | begin | remove | crashed => cases h
  | prepare c => exact prepare_reads settings blocked db c h
  | answer c =>
    simp only [AnsweringCall.advance] at h ⊢
    cases hs : c.stage with
    | select =>
      simp only [Answer.advance, hs]
      cases service.malformed c.response with
      | some failure => rfl
      | none => cases db.transactionForUpdate c.transactionId c.draw.databaseNow <;> rfl
    | verify t => simp only [Answer.advance, hs]
    | write t verdict factors =>
      simp only [Answer.advance, hs] at h ⊢
      by_cases hwaits : (verdict.rows t).any blocked = true
      · rw [if_pos hwaits]
      · rw [if_neg hwaits] at h
        cases h
    | ended result => simp only [Answer.advance, hs]

theorem prepare_label {c : Preparation} (settings : MfaSettings) (blocked : MfaLock → Bool)
    (db : MfaDb) (h : (c.become (c.advance settings blocked db).1).held = some t)
    (hread : c.held.isSome = true → (c.method.label c.label).length ≤ 80) :
    (c.method.label c.label).length ≤ 80 := by
  cases hs : c.stage with
  | select =>
    by_contra hlong
    simp only [Preparation.advance, hs, if_pos (Nat.lt_of_not_le hlong)] at h
    cases h
  | existing u => exact hread (by simp [Preparation.held, hs])
  | update u => exact hread (by simp [Preparation.held, hs])
  | ended result => simp [Preparation.advance, hs, Preparation.become, Preparation.held] at h

/-- What an answer keeps locked it has read now, or it goes on from what it has read. -/
theorem answer_held (h : (c.become (c.advance service blocked db).1).held = some t) :
    (db.transactionForUpdate c.transactionId c.draw.databaseNow = .ok t ∧
      (c.advance service blocked db).1 = .verify t) ∨
    c.held = some t ∧ ((c.advance service blocked db).1 = c.stage ∨
      (c.advance service blocked db).1 = .write t (service.judge c.draw.now t db c.response)
        (service.factorsForUpdate t db c.response)) := by
  cases hs : c.stage with
  | select =>
    left
    simp only [Answer.advance, hs] at h ⊢
    cases hm : service.malformed c.response with
    | some failure =>
      simp only [hm] at h
      cases h
    | none =>
      cases hfound : db.transactionForUpdate c.transactionId c.draw.databaseNow with
      | error e =>
        simp only [hm, hfound] at h
        cases h
      | ok u =>
        by_cases hwaits : blocked (.request c.transactionId) = true
        · simp only [hm, hfound, if_pos hwaits] at h
          cases h
        · simp only [hm, hfound, if_neg hwaits] at h
          obtain rfl := Option.some.inj h
          exact ⟨rfl, by simp [hwaits]⟩
  | verify u =>
    right
    simp only [Answer.advance, hs] at h ⊢
    by_cases hwaits : (service.factorsForUpdate u db c.response).any
        (fun f => blocked (.factor u.userId f)) = true
    · rw [if_pos hwaits] at h ⊢
      obtain rfl := Option.some.inj h
      exact ⟨by simp [Answer.held, hs], .inl rfl⟩
    · rw [if_neg hwaits] at h ⊢
      obtain rfl := Option.some.inj h
      exact ⟨by simp [Answer.held, hs], .inr rfl⟩
  | write u verdict factors =>
    right
    simp only [Answer.advance, hs] at h ⊢
    by_cases hwaits : (verdict.rows u).any blocked = true
    · rw [if_pos hwaits] at h ⊢
      obtain rfl := Option.some.inj h
      exact ⟨by simp [Answer.held, hs], .inl rfl⟩
    · rw [if_neg hwaits] at h
      cases h
  | ended result =>
    simp only [Answer.advance, hs] at h
    cases h

/-- What a call keeps locked it has tested as it read it. -/
theorem answering_held
    (h : (call.advance settings service databaseNow blocked db).1.held = some t)
    (hread : ∀ u, call.held = some u → u ∈ db.transactions ∧ call.HasRead u) :
    t ∈ db.transactions ∧ (call.advance settings service databaseNow blocked db).1.HasRead t := by
  cases call with
  | begin | remove | crashed => cases h
  | prepare c =>
    have hlabel := prepare_label settings blocked db h fun hheld => by
      obtain ⟨u, hu⟩ := Option.isSome_iff_exists.mp hheld
      exact (hread u hu).2.2
    cases prepare_held settings blocked db c h with
    | inl hheld =>
      obtain ⟨hmem, hid, -⟩ := hread t hheld
      exact ⟨hmem, hid, hlabel⟩
    | inr hfound => exact ⟨lookup_mem hfound.2.1, lookup_key hfound.2.1, hlabel⟩
  | answer c =>
    cases answer_held h with
    | inl hnew =>
      obtain ⟨hlookup, hexpiry, hopen, hattempts⟩ := transactionForUpdate_found hnew.1
      have hjudged : (c.advance service blocked db).1.Judged t := by
        rw [hnew.2]
        trivial
      exact ⟨lookup_mem hlookup, lookup_key hlookup, hexpiry, hopen, hattempts, hjudged⟩
    | inr hheld =>
      obtain ⟨hmem, hid, hexpiry, hopen, hattempts, hread⟩ := hread t hheld.1
      have hjudged : (c.advance service blocked db).1.Judged t := by
        cases hheld.2 with
        | inl hsame => rwa [hsame]
        | inr hwrite =>
          rw [hwrite]
          exact judge_fits service c.draw.now t db c.response
      exact ⟨hmem, hid, hexpiry, hopen, hattempts, hjudged⟩
end Reads

section Counts
variable {transactionId : Uuid} {log : List Ending} {ending : Option Ending}

theorem failures_append (more : List Ending) :
    failures transactionId (log ++ more) =
      failures transactionId log + failures transactionId more :=
  List.countP_append

theorem completions_append (more : List Ending) :
    completions transactionId (log ++ more) =
      completions transactionId log + completions transactionId more :=
  List.countP_append

theorem failures_quiet (hquiet : ∀ e ∈ ending, e.succeeded = false ∧ e.failed = false) :
    failures transactionId ending.toList = 0 := by
  refine List.countP_eq_zero.mpr fun e he => ?_
  simp [(hquiet e (Option.mem_toList.mp he)).2]

theorem completions_quiet (hquiet : ∀ e ∈ ending, e.succeeded = false ∧ e.failed = false) :
    completions transactionId ending.toList = 0 := by
  refine List.countP_eq_zero.mpr fun e he => ?_
  simp [(hquiet e (Option.mem_toList.mp he)).1]

theorem failures_one (e : Ending) :
    failures transactionId [e] = if e.transactionId = transactionId ∧ e.failed = true then 1 else 0 := by
  simp [failures, List.countP_cons]

theorem completions_one (e : Ending) : completions transactionId [e] =
    if e.transactionId = transactionId ∧ e.succeeded = true then 1 else 0 := by
  simp [completions, List.countP_cons]
end Counts

/-- The calls know the rows that they have locked. -/
def Knowing (db : MfaDb) (call : AnsweringCall) : Prop :=
  ∀ u, call.held = some u → u ∈ db.transactions ∧ call.HasRead u

section Rows
variable {settings : MfaSettings} {service : MfaService} {databaseNow : Instant}
  {blocked : MfaLock → Bool} {db : MfaDb} {call : AnsweringCall} {t u : MfaTransaction}
  {rows : List MfaTransaction} {ending : Option Ending}

theorem RowStep.keyed (h : RowStep settings databaseNow blocked db call ending rows)
    (hk : Keyed MfaTransaction.transactionId db.transactions) :
    Keyed MfaTransaction.transactionId rows := by
  cases h with
  | same => exact hk
  | deleted c => exact hk.sublist (List.filter_sublist.map _)
  | inserted c new hstage hnew => exact keyed_append_one.mpr ⟨hk, hnew⟩
  | prepared c t hstage => exact (keyed_updateWhere _ fun u => by simp).mpr hk
  | recorded => exact (keyed_updateWhere _ fun u => by simp).mpr hk
  | consumed c t => exact (keyed_updateWhere _ fun u => (follows_consume u).transactionId).mpr hk

theorem held_write {c : Answer} {verdict : Verdict} {factors : List Factor}
    (hstage : c.stage = .write t verdict factors) : c.held = some t := by
  simp [Answer.held, hstage]

/-- A row that another call has locked stays as it is. -/
theorem RowStep.keeps (h : RowStep settings databaseNow blocked db call ending rows)
    (hknows : Knowing db call) (hblocked : blocked (.request t.transactionId) = true)
    (hown : .request t.transactionId ∉ call.locks) (ht : t ∈ db.transactions) : t ∈ rows := by
  have other : ∀ (c : Answer) u verdict factors, call = .answer c →
      c.stage = .write u verdict factors → decide (t.transactionId = u.transactionId) = false := by
    intro c u verdict factors hcall hstage
    subst hcall
    obtain ⟨-, hid, -⟩ := hknows u (held_write hstage)
    rw [decide_eq_false_iff_not]
    intro he
    exact hown (by simp [AnsweringCall.locks, Answer.locks, hstage, he, hid])
  cases h with
  | same => exact ht
  | deleted c hfree =>
    refine List.mem_filter.mpr ⟨ht, ?_⟩
    cases hstale : t.stale c.userId databaseNow with
    | false => rfl
    | true =>
      have hopen := hfree t ht hstale
      rw [hblocked] at hopen
      cases hopen
  | inserted => exact List.mem_append_left _ ht
  | prepared c u hstage =>
    refine mem_updateWhere_of_not ht ?_
    rw [decide_eq_false_iff_not]
    intro he
    exact hown (by simp [AnsweringCall.locks, Preparation.held, hstage, he])
  | recorded c u verdict factors ending hstage =>
    exact mem_updateWhere_of_not ht (other c u verdict factors rfl hstage)
  | consumed c u verdict factors ending hstage =>
    exact mem_updateWhere_of_not ht (other c u verdict factors rfl hstage)

/-- What a step ends with an effect is the completion of an open request. -/
theorem RowStep.counted (h : RowStep settings databaseNow blocked db call ending rows)
    (hknows : Knowing db call) (id : Uuid) :
    (failures id ending.toList = 0 ∧ completions id ending.toList = 0) ∨
    ∃ t ∈ db.transactions, t.transactionId = id ∧ t.attempts < maxAttempts ∧
      t.consumedAt = none ∧ failures id ending.toList ≤ 1 ∧ completions id ending.toList ≤ 1 := by
  have answered : ∀ (c : Answer) u verdict factors (e : Ending), call = .answer c →
      c.stage = .write u verdict factors → e.transactionId = c.transactionId →
      (failures id [e] = 0 ∧ completions id [e] = 0) ∨
      ∃ t ∈ db.transactions, t.transactionId = id ∧ t.attempts < maxAttempts ∧
        t.consumedAt = none ∧ failures id [e] ≤ 1 ∧ completions id [e] ≤ 1 := by
    intro c u verdict factors e hcall hstage he
    subst hcall
    obtain ⟨hmem, hid, -, hopen, hattempts, -⟩ := hknows u (held_write hstage)
    by_cases hsame : c.transactionId = id
    · exact .inr ⟨u, hmem, hid.trans hsame, hattempts, hopen, List.countP_le_length,
        List.countP_le_length⟩
    · left
      rw [failures_one, completions_one, he]
      simp [hsame]
  cases h with
  | same call ending hquiet => exact .inl ⟨failures_quiet hquiet, completions_quiet hquiet⟩
  | deleted | inserted | prepared => exact .inl ⟨rfl, rfl⟩
  | recorded c u verdict factors e hstage hid => exact answered c u verdict factors e rfl hstage hid
  | consumed c u verdict factors e hstage hid => exact answered c u verdict factors e rfl hstage hid

/-- How a row comes to count its failures and its consumption. -/
structure Traces (ending : Option Ending) (q u : MfaTransaction) : Prop where
  transactionId : u.transactionId = q.transactionId
  attempts : u.attempts = q.attempts + failures q.transactionId ending.toList
  consumed : u.consumedAt.isSome.toNat =
    q.consumedAt.isSome.toNat + completions q.transactionId ending.toList
  labelled : q.Labelled → u.Labelled

theorem traces_same (hfailures : failures t.transactionId ending.toList = 0)
    (hcompletions : completions t.transactionId ending.toList = 0) : Traces ending t t :=
  ⟨rfl, by rw [hfailures, Nat.add_zero], by rw [hcompletions, Nat.add_zero], id⟩

theorem label_nonempty (method : MfaMethod) (label : String) : 1 ≤ (method.label label).length := by
  unfold MfaMethod.label
  split_ifs with h
  · cases method <;> decide
  · rw [Nat.one_le_iff_ne_zero]
    intro hzero
    exact h (String.length_eq_zero_iff.mp hzero)

theorem traces_prepared {c : Preparation} (hlabel : (c.method.label c.label).length ≤ 80) :
    Traces none t
      (t.prepare c.method (c.method.label c.label) c.challenge c.pendingSecret) := by
  have hlabelled : 1 ≤ (c.method.label c.label).length ∧ (c.method.label c.label).length ≤ 80 :=
    ⟨label_nonempty _ _, hlabel⟩
  cases hm : c.method with
  | passkey => exact ⟨rfl, rfl, rfl, fun _ _ => ⟨_, rfl, hm ▸ hlabelled⟩⟩
  | totp => exact ⟨rfl, rfl, rfl, fun _ _ => ⟨_, rfl, hm ▸ hlabelled⟩⟩

/-- A row after a step is one from before, or the one that the step inserts. -/
theorem RowStep.origin (h : RowStep settings databaseNow blocked db call ending rows)
    (hk : Keyed MfaTransaction.transactionId db.transactions) (hknows : Knowing db call)
    (hu : u ∈ rows) :
    (∃ q ∈ db.transactions, Traces ending q u) ∨
    ∃ c new, call = .begin c ∧ ending = none ∧ c.stage = .insert new ∧
      u = settings.row c.userId c.transactionId c.now databaseNow new := by
  cases h with
  | same call ending hquiet =>
    exact .inl ⟨u, hu, traces_same (failures_quiet hquiet) (completions_quiet hquiet)⟩
  | deleted c => exact .inl ⟨u, (List.mem_filter.mp hu).1, traces_same rfl rfl⟩
  | inserted c new hstage =>
    cases List.mem_append.mp hu with
    | inl hu => exact .inl ⟨u, hu, traces_same rfl rfl⟩
    | inr hu => exact .inr ⟨c, new, rfl, rfl, hstage, List.mem_singleton.mp hu⟩
  | prepared c t hstage =>
    left
    obtain ⟨-, -, hlabel⟩ := hknows t (by simp [AnsweringCall.held, Preparation.held, hstage])
    obtain ⟨q, hq, rfl⟩ := mem_updateWhere.mp hu
    refine ⟨q, hq, ?_⟩
    split_ifs
    · exact traces_prepared hlabel
    · exact traces_same rfl rfl
  | recorded c t verdict factors e hstage hid hended =>
    left
    obtain ⟨hmem, hread, -, -, hattempts, -⟩ := hknows t (held_write hstage)
    obtain ⟨q, hq, rfl⟩ := mem_updateWhere.mp hu
    refine ⟨q, hq, ?_⟩
    split_ifs with hsame
    · have he : q = t := hk.eq_of_key hq hmem (of_decide_eq_true hsame)
      subst he
      have hlt : q.attempts < 5 := hattempts
      refine ⟨by simp, ?_, ?_, ?_⟩
      · simp [MfaTransaction.fail, hlt, failures_one, hid, hread, hended]
      · simp [MfaTransaction.fail, hlt, completions_one, hended]
      · simp [MfaTransaction.fail, hlt, MfaTransaction.Labelled]
    · have hother : e.transactionId ≠ q.transactionId := by
        rw [hid, ← hread]
        exact fun he => hsame (decide_eq_true he.symm)
      refine traces_same ?_ ?_
      · simp [failures_one, hother]
      · simp [completions_one, hother]
  | consumed c t verdict factors e hstage hid hnow hended =>
    left
    obtain ⟨hmem, hread, -, hopen, -, -⟩ := hknows t (held_write hstage)
    obtain ⟨q, hq, rfl⟩ := mem_updateWhere.mp hu
    refine ⟨q, hq, ?_⟩
    split_ifs with hsame
    · have he : q = t := hk.eq_of_key hq hmem (of_decide_eq_true hsame)
      subst he
      refine ⟨rfl, ?_, ?_, id⟩
      · simp [MfaTransaction.consume, failures_one, hended]
      · simp [MfaTransaction.consume, completions_one, hid, hread, hended, hopen]
    · have hother : e.transactionId ≠ q.transactionId := by
        rw [hid, ← hread]
        exact fun he => hsame (decide_eq_true he.symm)
      refine traces_same ?_ ?_
      · simp [failures_one, hother]
      · simp [completions_one, hother]
end Rows

/-- The ids that `uuid4` draws for new requests. -/
def AnsweringEvent.draws : AnsweringEvent → Option Uuid
  | .ceremony (.login _ transactionId _ _) => some transactionId
  | .ceremony (.beginEnrollment _ _ transactionId _ _) => some transactionId
  | _ => none

/-- What a call has read of a request it knows as long as it has the row locked. -/
structure Orderly (s : Answering) : Prop where
  keyed : Keyed MfaTransaction.transactionId s.db.transactions
  exclusive : Locks.Exclusive AnsweringCall.locks s.calls
  knowing : ∀ call ∈ s.calls, Knowing s.db call

/-- The requests bear out what the callers were told so far. -/
structure Reckoned (drawn : List Uuid) (log : List Ending) (s : Answering) : Prop
    extends Orderly s where
  lone : Locks.Exclusive AnsweringCall.begun s.calls
  begun : ∀ call ∈ s.calls, ∀ id ∈ call.begun, id ∈ drawn
  rows : ∀ t ∈ s.db.transactions, t.transactionId ∈ drawn ∧ t.Labelled
  undrawn : ∀ id, id ∉ drawn → failures id log = 0 ∧ completions id log = 0
  unborn : ∀ call ∈ s.calls, ∀ id ∈ call.unborn,
    id ∉ s.db.transactions.map MfaTransaction.transactionId ∧ failures id log = 0 ∧
      completions id log = 0
  books : ∀ t ∈ s.db.transactions, t.attempts = failures t.transactionId log ∧
    t.consumedAt.isSome.toNat = completions t.transactionId log
  bounds : ∀ id, failures id log ≤ maxAttempts ∧ completions id log ≤ 1

section Steps
variable {settings : MfaSettings} {service : MfaService} {s : Answering} {i : Nat}
  {call : AnsweringCall} {drawn : List Uuid} {log : List Ending} {t : MfaTransaction}

theorem advance_begun (settings : MfaSettings) (service : MfaService) (databaseNow : Instant)
    (blocked : MfaLock → Bool) (db : MfaDb) (call : AnsweringCall) :
    (call.advance settings service databaseNow blocked db).1.begun = call.begun := by
  cases call <;> rfl

theorem insert_ends {databaseNow : Instant} {blocked : MfaLock → Bool} {db : MfaDb} {c : Begin}
    {new : NewTransaction} (hs : c.stage = .insert new) :
    (c.advance settings databaseNow blocked db).1.pending = false := by
  simp only [Begin.advance, hs]
  cases db.insertTransaction (settings.row c.userId c.transactionId c.now databaseNow new) <;> rfl

/-- A request that is not there after the step has not been inserted by it. -/
theorem advance_unborn {databaseNow : Instant} {blocked : MfaLock → Bool} {db : MfaDb} {id : Uuid}
    (h : id ∈ (call.advance settings service databaseNow blocked db).1.unborn) :
    id ∈ call.unborn ∧ ∀ c new, call = .begin c → c.stage ≠ .insert new := by
  cases call with
  | prepare | answer | remove | crashed => cases h
  | begin c =>
    simp only [AnsweringCall.advance, AnsweringCall.unborn, Begin.become] at h ⊢
    split_ifs at h with hpending
    · have hbefore : c.stage.pending = true := by
        cases hs : c.stage with
        | ended result =>
          simp only [Begin.advance, hs] at hpending
          cases hpending
        | passkeyExists | totpExists | delete | insert => rfl
      refine ⟨by rwa [if_pos hbefore], ?_⟩
      intro c' new hc hstage
      cases hc
      rw [insert_ends hstage] at hpending
      cases hpending
    · cases h

theorem held_locks (h : call.held = some t) (hread : call.HasRead t) :
    .request t.transactionId ∈ call.locks := by
  cases call with
  | begin | remove | crashed => cases h
  | prepare c =>
    have hheld : c.held = some t := h
    simp [AnsweringCall.locks, hheld, hread.1]
  | answer c =>
    have hheld : c.held = some t := h
    unfold Answer.held at hheld
    cases hs : c.stage with
    | select | ended => simp [hs] at hheld
    | verify | write => simp [AnsweringCall.locks, Answer.locks, hs, hread.1]

theorem Orderly.moved_known (h : Orderly s) (hi : s.calls[i]? = some call) :
    ∀ other ∈ s.calls.set i (call.advance settings service s.clock (s.blocked i) s.db).1,
      Knowing (call.advance settings service s.clock (s.blocked i) s.db).2 other := by
  intro other hother t ht
  have hcall := h.knowing call (List.mem_of_getElem? hi)
  cases Locks.mem_set hother with
  | inl he =>
    subst he
    rw [answering_reads ht]
    exact answering_held ht hcall
  | inr hrest =>
    obtain ⟨j, hne, hj⟩ := hrest
    obtain ⟨hmem, hread⟩ := h.knowing other (List.mem_of_getElem? hj) t ht
    have hlock := held_locks ht hread
    have hrows := advance_rows settings service s.clock (s.blocked i) s.db call
    refine ⟨hrows.keeps hcall (Locks.heldByOther_of_ne hne hj hlock) ?_ hmem, hread⟩
    exact h.exclusive.disjoint hj hi hne _ hlock

theorem Orderly.moved_locks (h : Orderly s) (hi : s.calls[i]? = some call) :
    Locks.Exclusive AnsweringCall.locks
      (s.calls.set i (call.advance settings service s.clock (s.blocked i) s.db).1) := by
  refine h.exclusive.set fun l hl => ?_
  cases answering_locks settings service s.clock (s.blocked i) s.db call l hl with
  | inl hl => exact .inl (.of_getElem? hi hl)
  | inr hl => exact .inr hl

theorem Orderly.called (h : Orderly s) (hlocks : call.locks = []) (hheld : call.held = none) :
    Orderly (s.call call) := by
  refine ⟨h.keyed, h.exclusive.append hlocks, ?_⟩
  intro other hother t ht
  cases List.mem_append.mp hother with
  | inl hin => exact h.knowing other hin t ht
  | inr he =>
    rw [List.mem_singleton.mp he, hheld] at ht
    cases ht

/-- Whatever steps next. -/
theorem Orderly.step (h : Orderly s) (e : AnsweringEvent) :
    Orderly (answeringStep settings service s e) := by
  cases e with
  | bank bank => exact ⟨h.keyed, h.exclusive, h.knowing⟩
  | ceremony e =>
    cases e with
    | tick elapsed => exact ⟨h.keyed, h.exclusive, h.knowing⟩
    | login userId transactionId challenge now =>
      simp only [answeringStep]
      split
      · exact h.called rfl rfl
      · exact h
    | beginEnrollment userId role transactionId source now =>
      simp only [answeringStep]
      split_ifs
      · exact h.called rfl rfl
      · exact h
    | prepare | complete | remove => exact h.called rfl rfl
    | advance i =>
      simp only [answeringStep]
      split
      · rename_i call hi
        have hrows := advance_rows settings service s.clock (s.blocked i) s.db call
        exact ⟨hrows.keyed h.keyed, h.moved_locks hi, h.moved_known hi⟩
      · exact h
    | crash i =>
      refine ⟨h.keyed, h.exclusive.set (fun l hl => by cases hl), ?_⟩
      intro other hother t ht
      cases Locks.mem_set hother with
      | inl he =>
        rw [he] at ht
        cases ht
      | inr hrest =>
        obtain ⟨j, -, hj⟩ := hrest
        exact h.knowing other (List.mem_of_getElem? hj) t ht

theorem orderly_start {db : MfaDb} (clock : Instant) (hnone : db.transactions = []) :
    Orderly (Answering.start db clock) := by
  refine ⟨?_, Locks.exclusive_nil, ?_⟩
  · simp [Answering.start, hnone, keyed_nil]
  · intro call hcall
    cases hcall

theorem unborn_begun {id : Uuid} (h : id ∈ call.unborn) : id ∈ call.begun := by
  cases call with
  | prepare | answer | remove | crashed => cases h
  | begin c =>
    simp only [AnsweringCall.unborn] at h
    split_ifs at h
    · exact h
    · cases h

theorem Reckoned.advance (h : Reckoned drawn log s) (hi : s.calls[i]? = some call) :
    Reckoned drawn (log ++ (call.ending service (s.blocked i) s.db).toList)
      { s with
        db := (call.advance settings service s.clock (s.blocked i) s.db).2
        calls := s.calls.set i (call.advance settings service s.clock (s.blocked i) s.db).1 } := by
  have hrows := advance_rows settings service s.clock (s.blocked i) s.db call
  have hmem := List.mem_of_getElem? hi
  have hknows := h.knowing call hmem
  have hcounted := fun id => hrows.counted hknows id
  refine ⟨⟨hrows.keyed h.keyed, h.moved_locks hi, h.moved_known hi⟩, ?_, ?_, ?_, ?_, ?_, ?_, ?_⟩
  · -- lone
    refine h.lone.set fun id hid => .inl (.of_getElem? hi ?_)
    rwa [advance_begun] at hid
  · -- begun
    intro other hother id hid
    cases Locks.mem_set hother with
    | inl he =>
      rw [he, advance_begun] at hid
      exact h.begun call hmem id hid
    | inr hrest =>
      obtain ⟨j, -, hj⟩ := hrest
      exact h.begun other (List.mem_of_getElem? hj) id hid
  · -- rows
    intro u hu
    cases hrows.origin h.keyed hknows hu with
    | inl hold =>
      obtain ⟨q, hq, htraces⟩ := hold
      rw [htraces.transactionId]
      exact ⟨(h.rows q hq).1, htraces.labelled (h.rows q hq).2⟩
    | inr hnew =>
      obtain ⟨c, new, rfl, -, -, rfl⟩ := hnew
      refine ⟨h.begun _ hmem _ (by simp [AnsweringCall.begun, MfaSettings.row]), ?_⟩
      cases new <;> simp [MfaTransaction.Labelled, MfaSettings.row, NewTransaction.purpose]
  · -- undrawn
    intro id hid
    rw [failures_append, completions_append]
    obtain ⟨hf, hc⟩ := h.undrawn id hid
    cases hcounted id with
    | inl hnone => exact ⟨by rw [hf, hnone.1], by rw [hc, hnone.2]⟩
    | inr hopen =>
      obtain ⟨t, ht, rfl, -⟩ := hopen
      exact absurd (h.rows t ht).1 hid
  · -- unborn
    intro other hother id hid
    have hbefore : (∃ other ∈ s.calls, id ∈ other.unborn) ∧
        ∀ c new, call = .begin c → c.stage = .insert new → c.transactionId ≠ id := by
      cases Locks.mem_set hother with
      | inl he =>
        rw [he] at hid
        obtain ⟨hid, hstage⟩ := advance_unborn hid
        exact ⟨⟨call, hmem, hid⟩, fun c new hc hs => absurd hs (hstage c new hc)⟩
      | inr hrest =>
        obtain ⟨j, hne, hj⟩ := hrest
        refine ⟨⟨other, List.mem_of_getElem? hj, hid⟩, ?_⟩
        intro c new hc hs he
        subst hc
        exact h.lone.disjoint hj hi hne id (unborn_begun hid) (by simp [AnsweringCall.begun, he])
    obtain ⟨⟨before, hin, hunborn⟩, hnew⟩ := hbefore
    obtain ⟨habsent, hf, hc⟩ := h.unborn before hin id hunborn
    refine ⟨?_, ?_⟩
    · intro hid'
      obtain ⟨u, hu, rfl⟩ := List.mem_map.mp hid'
      cases hrows.origin h.keyed hknows hu with
      | inl hold =>
        obtain ⟨q, hq, htraces⟩ := hold
        exact habsent (List.mem_map.mpr ⟨q, hq, htraces.transactionId.symm⟩)
      | inr hinserted =>
        obtain ⟨c, new, hcall, -, hstage, rfl⟩ := hinserted
        exact hnew c new hcall hstage rfl
    · rw [failures_append, completions_append, hf, hc]
      cases hcounted id with
      | inl hnone => exact ⟨by rw [hnone.1], by rw [hnone.2]⟩
      | inr hopen =>
        obtain ⟨t, ht, rfl, -⟩ := hopen
        exact absurd (List.mem_map_of_mem ht) habsent
  · -- books
    intro u hu
    rw [failures_append, completions_append]
    cases hrows.origin h.keyed hknows hu with
    | inl hold =>
      obtain ⟨q, hq, htraces⟩ := hold
      obtain ⟨hf, hc⟩ := h.books q hq
      rw [htraces.transactionId, htraces.attempts, htraces.consumed, hf, hc]
      exact ⟨rfl, rfl⟩
    | inr hnew =>
      obtain ⟨c, new, rfl, hending, hstage, rfl⟩ := hnew
      obtain ⟨-, hf, hc⟩ := h.unborn _ hmem c.transactionId
        (by simp [AnsweringCall.unborn, hstage, BeginStage.pending])
      rw [hending]
      exact ⟨by rw [MfaSettings.row, hf]; rfl, by rw [MfaSettings.row, hc]; rfl⟩
  · -- bounds
    intro id
    rw [failures_append, completions_append]
    cases hcounted id with
    | inl hnone =>
      rw [hnone.1, hnone.2]
      exact h.bounds id
    | inr hopen =>
      obtain ⟨t, ht, rfl, hattempts, hconsumed, hf, hc⟩ := hopen
      obtain ⟨hfailed, hcompleted⟩ := h.books t ht
      rw [hconsumed] at hcompleted
      simp only [Option.isSome_none, Bool.toNat_false] at hcompleted
      exact ⟨by omega, by omega⟩
end Steps

section Runs
variable {settings : MfaSettings} {service : MfaService} {s : Answering} {drawn : List Uuid}
  {log : List Ending} {call : AnsweringCall} {id : Uuid}

theorem Reckoned.called (h : Reckoned drawn log s) (hlocks : call.locks = [])
    (hheld : call.held = none) (hbegun : call.begun = []) : Reckoned drawn log (s.call call) := by
  have old : ∀ {P : AnsweringCall → Prop}, (∀ other ∈ s.calls, P other) → P call →
      ∀ other ∈ (s.call call).calls, P other := by
    intro P hall hcall other hother
    cases List.mem_append.mp hother with
    | inl hin => exact hall other hin
    | inr he => exact List.mem_singleton.mp he ▸ hcall
  refine ⟨h.toOrderly.called hlocks hheld, h.lone.append hbegun, old h.begun ?_, h.rows, h.undrawn,
    old h.unborn ?_, h.books, h.bounds⟩
  · intro id hid
    rw [hbegun] at hid
    cases hid
  · intro id hid
    have hin := unborn_begun hid
    rw [hbegun] at hin
    cases hin

theorem Reckoned.draw (h : Reckoned drawn log s) (id : Uuid) : Reckoned (drawn ++ [id]) log s where
  toOrderly := h.toOrderly
  lone := h.lone
  begun := fun call hcall x hx => List.mem_append_left _ (h.begun call hcall x hx)
  rows := fun t ht => ⟨List.mem_append_left _ (h.rows t ht).1, (h.rows t ht).2⟩
  undrawn := fun x hx => h.undrawn x fun hin => hx (List.mem_append_left _ hin)
  unborn := h.unborn
  books := h.books
  bounds := h.bounds

theorem Reckoned.began (h : Reckoned drawn log s) (c : Begin) (hnew : c.transactionId ∉ drawn) :
    Reckoned (drawn ++ [c.transactionId]) log (s.call (.begin c)) := by
  have hdrawn := h.draw c.transactionId
  have old : ∀ {P : AnsweringCall → Prop}, (∀ other ∈ s.calls, P other) → P (.begin c) →
      ∀ other ∈ (s.call (.begin c)).calls, P other := by
    intro P hall hcall other hother
    cases List.mem_append.mp hother with
    | inl hin => exact hall other hin
    | inr he => exact List.mem_singleton.mp he ▸ hcall
  refine ⟨h.toOrderly.called rfl rfl, h.lone.append_of_fresh ?_, old hdrawn.begun ?_, hdrawn.rows,
    hdrawn.undrawn, old h.unborn ?_, h.books, h.bounds⟩
  · intro x hx other hother hin
    rw [List.mem_singleton.mp hx] at hin
    exact hnew (h.begun other hother _ hin)
  · intro x hx
    exact List.mem_append_right _ hx
  · intro x hx
    have he : x = c.transactionId := List.mem_singleton.mp (unborn_begun hx)
    subst he
    refine ⟨?_, h.undrawn _ hnew⟩
    intro hin
    obtain ⟨t, ht, hid⟩ := List.mem_map.mp hin
    exact hnew (hid ▸ (h.rows t ht).1)

theorem Reckoned.crashed (h : Reckoned drawn log s) (i : Nat)
    (horderly : Orderly { s with calls := s.calls.set i .crashed }) :
    Reckoned drawn log { s with calls := s.calls.set i .crashed } := by
  have old : ∀ {P : AnsweringCall → Prop}, (∀ other ∈ s.calls, P other) → P .crashed →
      ∀ other ∈ s.calls.set i .crashed, P other := by
    intro P hall hcall other hother
    cases Locks.mem_set hother with
    | inl he => exact he ▸ hcall
    | inr hrest =>
      obtain ⟨j, -, hj⟩ := hrest
      exact hall other (List.mem_of_getElem? hj)
  refine ⟨horderly, h.lone.set ?_, old h.begun ?_, h.rows, h.undrawn, old h.unborn ?_, h.books,
    h.bounds⟩
  all_goals
    intro x hx
    cases hx

/-- Every step keeps the books, if it draws an id that has not been drawn. -/
theorem Reckoned.step (h : Reckoned drawn log s) (e : AnsweringEvent)
    (hnew : ∀ id ∈ e.draws, id ∉ drawn) :
    Reckoned (drawn ++ e.draws.toList) (log ++ (s.ending service e).toList)
      (answeringStep settings service s e) := by
  have quiet : e.draws = none → s.ending service e = none →
      Reckoned drawn log (answeringStep settings service s e) →
      Reckoned (drawn ++ e.draws.toList) (log ++ (s.ending service e).toList)
        (answeringStep settings service s e) := by
    intro hdraws hending h
    rw [hdraws, hending]
    simpa using h
  have horderly : Orderly (answeringStep settings service s e) := h.toOrderly.step e
  cases e with
  | bank bank =>
    refine quiet rfl rfl ?_
    exact ⟨horderly, h.lone, h.begun, h.rows, h.undrawn, h.unborn, h.books, h.bounds⟩
  | ceremony e =>
    cases e with
    | tick elapsed =>
      refine quiet rfl rfl ?_
      exact ⟨horderly, h.lone, h.begun, h.rows, h.undrawn, h.unborn, h.books, h.bounds⟩
    | login userId transactionId challenge now =>
      simp only [answeringStep, Answering.ending, AnsweringEvent.draws, Option.toList_some,
        Option.toList_none, List.append_nil]
      cases s.loginUser userId with
      | none => exact h.draw transactionId
      | some user =>
        exact h.began ⟨userId, user.role, transactionId, challenge, now, .passkeyExists⟩
          (hnew transactionId rfl)
    | beginEnrollment userId role transactionId source now =>
      simp only [answeringStep, Answering.ending, AnsweringEvent.draws, Option.toList_some,
        Option.toList_none, List.append_nil]
      split_ifs
      · exact h.began ⟨userId, role, transactionId, [], now, .delete (.enrollChoice (some source))⟩
          (hnew transactionId rfl)
      · exact h.draw transactionId
    | prepare => exact quiet rfl rfl (h.called rfl rfl rfl)
    | complete => exact quiet rfl rfl (h.called rfl rfl rfl)
    | remove => exact quiet rfl rfl (h.called rfl rfl rfl)
    | advance i =>
      simp only [answeringStep, Answering.ending, AnsweringEvent.draws, Option.toList_none,
        List.append_nil]
      cases hi : s.calls[i]? with
      | none => simpa using h
      | some call => exact h.advance hi
    | crash i => exact quiet rfl rfl (h.crashed i horderly)

/-- The books of a run, in which `uuid4` draws no id twice. -/
theorem reckoned_run {db : MfaDb} (clock : Instant) (hnone : db.transactions = [])
    (es : List AnsweringEvent) (hfresh : (es.filterMap AnsweringEvent.draws).Nodup) :
    Reckoned (es.filterMap AnsweringEvent.draws)
      (Runs.collect (answeringStep settings service) (Answering.ending service)
        (Answering.start db clock) es)
      (Runs.run (answeringStep settings service) (Answering.start db clock) es) := by
  have hstart : Reckoned [] [] (Answering.start db clock) := by
    refine ⟨orderly_start clock hnone, Locks.exclusive_nil, ?_, ?_, fun _ _ => ⟨rfl, rfl⟩, ?_, ?_,
      fun _ => ⟨Nat.zero_le _, Nat.zero_le _⟩⟩
    · intro call hcall
      cases hcall
    · intro t ht
      simp [Answering.start, hnone] at ht
    · intro call hcall
      cases hcall
    · intro t ht
      simp [Answering.start, hnone] at ht
  refine Runs.collect_invariant (H := fun past log s =>
    (past.filterMap AnsweringEvent.draws).Nodup →
      Reckoned (past.filterMap AnsweringEvent.draws) log s) ?_ (fun _ => hstart) es hfresh
  intro past log s e h hfresh
  have hdraws : (past ++ [e]).filterMap AnsweringEvent.draws =
      past.filterMap AnsweringEvent.draws ++ e.draws.toList := by
    rw [List.filterMap_append, List.filterMap_cons, List.filterMap_nil]
    cases e.draws <;> rfl
  rw [hdraws] at hfresh ⊢
  have hsplit := List.nodup_append.mp hfresh
  refine (h hsplit.1).step e fun id hid hin => ?_
  exact hsplit.2.2 id hin id (Option.mem_toList.mpr hid) rfl
end Runs

/-- A completion that succeeds does so on a request that is open, and it began before the
expiry of the request. -/
def OpenCompletion (service : MfaService) (s : Answering) (e : AnsweringEvent) : Prop :=
  ∀ ending ∈ s.ending service e, ending.succeeded = true →
    ∃ t ∈ s.db.transactions, t.transactionId = ending.transactionId ∧ t.consumedAt = none ∧
      t.attempts < maxAttempts ∧ ending.databaseNow < t.expiresAt

/-- No `CHECK` refuses what a completion writes. -/
def Unchecked (service : MfaService) (s : Answering) (e : AnsweringEvent) : Prop :=
  ∀ ending ∈ s.ending service e, ending.result ≠ .error (.database .checkViolation)

section Laws
variable {settings : MfaSettings} {service : MfaService} {s : Answering} {drawn : List Uuid}
  {log : List Ending} {ending : Ending} {c : Answer} {t : MfaTransaction} {verdict : Verdict}
  {db : MfaDb}

/-- What ends was a call that advances. -/
theorem ending_advance {e : AnsweringEvent} (h : ending ∈ s.ending service e) :
    ∃ (i : Nat) (call : AnsweringCall), s.calls[i]? = some call ∧
      call.ending service (s.blocked i) s.db = some ending := by
  cases e with
  | bank => cases h
  | ceremony e =>
    cases e with
    | advance i =>
      obtain ⟨call, hi, hending⟩ := Option.bind_eq_some_iff.mp h
      exact ⟨i, call, hi, hending⟩
    | tick | login | beginEnrollment | prepare | complete | remove | crash => cases h

theorem Reckoned.open (h : Reckoned drawn log s) (e : AnsweringEvent) :
    OpenCompletion service s e := by
  intro ending hin hsucceeded
  obtain ⟨i, call, hi, hending⟩ := ending_advance hin
  have hknows := h.knowing call (List.mem_of_getElem? hi)
  -- the instance of the settings does not matter to what ends
  have hrows := advance_rows ⟨0, true⟩ service s.clock (s.blocked i) s.db call
  rw [hending] at hrows
  generalize (call.advance ⟨0, true⟩ service s.clock (s.blocked i) s.db).2.transactions = rows
    at hrows
  cases hrows with
  | same _ _ hquiet =>
    rw [(hquiet ending rfl).1] at hsucceeded
    cases hsucceeded
  | recorded c t verdict factors _ hstage hid hended =>
    rw [hended.1] at hsucceeded
    cases hsucceeded
  | consumed c t verdict factors _ hstage hid hnow hended =>
    obtain ⟨hmem, hread, hexpiry, hopen, hattempts, -⟩ := hknows t (held_write hstage)
    exact ⟨t, hmem, hread.trans hid.symm, hopen, hattempts, hnow ▸ hexpiry⟩

/-- The statements of a verdict on a row that it fits pass every `CHECK`. -/
theorem write_checked (hk : Keyed MfaTransaction.transactionId db.transactions)
    (ht : t ∈ db.transactions) (hattempts : t.attempts < maxAttempts) (hlabelled : t.Labelled)
    (hfits : verdict.Fits t) (draw : FactorDraw) :
    verdict.write draw t db ≠ .error (.database .checkViolation) := by
  intro h
  cases verdict with
  | refuse | usePasskey => cases h
  | record message =>
    rw [write_record (countFailure_ok hk ht hattempts)] at h
    cases h
  | enrollPasskey verified transports =>
    obtain ⟨label, hlabel, hbounds⟩ := hlabelled (.inl hfits)
    simp only [Verdict.write, hlabel, dif_pos hbounds, MfaDb.insertPasskey] at h
    split_ifs at h <;> cases h
  | totp encrypted step =>
    simp only [Verdict.write, MfaService.acceptTotp] at h
    by_cases hlogin : t.purpose = .login
    · rw [if_pos hlogin] at h
      cases h
    · obtain ⟨label, hlabel, hbounds⟩ := hlabelled (.inr (hfits.resolve_left hlogin))
      simp only [if_neg hlogin, hlabel, dif_pos hbounds] at h
      cases h

theorem Reckoned.unchecked (h : Reckoned drawn log s) (e : AnsweringEvent) :
    Unchecked service s e := by
  intro ending hin hviolation
  obtain ⟨i, call, hi, hending⟩ := ending_advance hin
  have hknows := h.knowing call (List.mem_of_getElem? hi)
  cases call with
  | begin | prepare | remove | crashed => cases hending
  | answer c =>
    simp only [AnsweringCall.ending] at hending
    split_ifs at hending with hdone
    obtain ⟨result, hresult, rfl⟩ := Option.map_eq_some_iff.mp hending
    simp only at hviolation
    subst hviolation
    cases hs : c.stage with
    | select =>
      simp only [Answer.advance, hs] at hresult
      cases hm : service.malformed c.response with
      | some failure =>
        simp only [hm] at hresult
        cases hresult
      | none =>
        cases hfound : s.db.transactionForUpdate c.transactionId c.draw.databaseNow with
        | error e =>
          obtain rfl := transactionForUpdate_error hfound
          simp only [hm, hfound] at hresult
          cases hresult
        | ok t =>
          simp only [hm, hfound] at hresult
          split_ifs at hresult <;> cases hresult
    | verify t =>
      simp only [Answer.advance, hs] at hresult
      split_ifs at hresult <;> cases hresult
    | write t verdict factors =>
      simp only [Answer.advance, hs] at hresult
      split_ifs at hresult
      · cases hresult
      · obtain ⟨hmem, -, -, -, hattempts, hjudged⟩ := hknows t (held_write hs)
        have hfits : verdict.Fits t := by
          rw [hs] at hjudged
          exact hjudged
        have hend := commit_cases c t verdict s.db
        rw [Option.some.inj hresult] at hend
        generalize (c.commit t verdict s.db).2 = left at hend
        cases hend with
        | refused _ hquiet hraised =>
          exact write_checked h.keyed hmem hattempts (h.rows t hmem).2 hfits c.draw
            (hraised .checkViolation rfl)
    | ended result =>
      rw [hs] at hdone
      exact hdone rfl
end Laws

/-- For every order of the statements of any calls: a request is completed at most once and
fails at most `MAX_ATTEMPTS` times, its row has every failure that a caller was told of and is
consumed exactly when a caller was told of its completion, no `CHECK` is violated, and what
succeeds is the completion of an open request, begun before its expiry. -/
theorem mfa_transaction_lifecycle (settings : MfaSettings) (service : MfaService) (db : MfaDb)
    (clock : Instant) (es : List AnsweringEvent) (hnone : db.transactions = [])
    (hfresh : (es.filterMap AnsweringEvent.draws).Nodup) :
    let log := Runs.collect (answeringStep settings service) (Answering.ending service)
      (Answering.start db clock) es
    (∀ id, completions id log ≤ 1 ∧ failures id log ≤ maxAttempts) ∧
    (∀ t ∈ (Runs.run (answeringStep settings service)
        (Answering.start db clock) es).db.transactions,
      t.attempts = failures t.transactionId log ∧
      (t.consumedAt.isSome = true ↔ completions t.transactionId log = 1)) ∧
    Runs.Along (answeringStep settings service) (OpenCompletion service)
      (Answering.start db clock) es ∧
    Runs.Along (answeringStep settings service) (Unchecked service)
      (Answering.start db clock) es := by
  have hbooks : Reckoned (es.filterMap AnsweringEvent.draws)
      (Runs.collect (answeringStep settings service) (Answering.ending service)
        (Answering.start db clock) es)
      (Runs.run (answeringStep settings service) (Answering.start db clock) es) :=
    reckoned_run clock hnone es hfresh
  have hearlier : ∀ earlier e later, es = earlier ++ e :: later →
      (earlier.filterMap AnsweringEvent.draws).Nodup := by
    intro earlier e later he
    rw [he, List.filterMap_append] at hfresh
    exact (List.nodup_append.mp hfresh).1
  refine ⟨fun id => ⟨(hbooks.bounds id).2, (hbooks.bounds id).1⟩, ?_, ?_, ?_⟩
  · intro t ht
    obtain ⟨hfailures, hcompletions⟩ := hbooks.books t ht
    refine ⟨hfailures, ?_⟩
    rw [← hcompletions]
    cases t.consumedAt <;> simp
  · refine Runs.along_of_prefixes fun earlier e later he => ?_
    exact (reckoned_run clock hnone earlier (hearlier earlier e later he)).open e
  · refine Runs.along_of_prefixes fun earlier e later he => ?_
    exact (reckoned_run clock hnone earlier (hearlier earlier e later he)).unchecked e

/-- Three guesses at one request: a wrong code, and the right one twice at once. -/
def threeGuesses : List CeremonyEvent :=
  .login adminUserId 1 [] sampleNow :: List.replicate 4 (.advance 0) ++
  .prepare 1 .totp "" [] firstToken :: List.replicate 3 (.advance 1) ++
  [.complete 1 (.totp "000000") 0 sampleNow, .complete 1 (.totp "406058") 0 sampleNow,
    .complete 1 (.totp "406058") 0 sampleNow, .advance 2, .advance 3, .advance 2, .advance 2,
    .advance 3, .advance 4, .advance 3, .advance 3, .advance 4]

theorem mfa_transaction_lifecycle_guessed :
    let log := Runs.collect (answeringStep enrolmentSettings enrolmentService)
      (Answering.ending enrolmentService) (Answering.start unenrolledDb sampleNow)
      (threeGuesses.map .ceremony)
    (completions 1 log = 1 ∧ failures 1 log = 1) ∧
    ∀ id, completions id log ≤ 1 ∧ failures id log ≤ maxAttempts :=
  ⟨by decide +kernel, (mfa_transaction_lifecycle enrolmentSettings enrolmentService unenrolledDb
    sampleNow (threeGuesses.map .ceremony) rfl (by decide +kernel)).1⟩

/-- The completion begins a microsecond before the expiry of its request and commits at it. -/
def lateCompletion : List CeremonyEvent :=
  .login adminUserId 1 [] sampleNow :: List.replicate 4 (.advance 0) ++
  .prepare 1 .totp "" [] firstToken :: List.replicate 3 (.advance 1) ++
  [.tick 9999999, .complete 1 (.totp "406058") 0 (sampleNow + 9999999), .advance 2, .advance 2,
    .tick 1]

theorem completed_when_expired :
    let s := Runs.run (answeringStep ⟨seconds 10, false⟩ enrolmentService)
      (Answering.start unenrolledDb sampleNow) (lateCompletion.map .ceremony)
    ∃ ending ∈ s.ending enrolmentService (.ceremony (.advance 2)), ending.succeeded = true ∧
      ∃ t ∈ s.db.transactions, t.transactionId = ending.transactionId ∧ t.expiresAt ≤ s.clock := by
  decide +kernel
end Bantam
