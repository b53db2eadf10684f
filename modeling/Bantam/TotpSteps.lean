import Bantam.Guesses

/-! The time-steps of the codes that are accepted for an authenticator app: the app's row is
locked from the read of its last used step to the commit, and a secret is enrolled once. -/
namespace Bantam
open Tables

/-- A code that is accepted: whose, under which encrypted secret and for which time-step. -/
structure Acceptance where
  userId : Uuid
  encrypted : Bytes
  step : Int
  deriving DecidableEq

/-- The code that the next step of a call accepts. -/
def AnsweringCall.accepts (service : MfaService) (blocked : MfaLock → Bool) (db : MfaDb) :
    AnsweringCall → Option Acceptance
  | .answer c =>
    match c.stage with
    | .write t (.totp encrypted step) _ =>
      if ((AnsweringCall.answer c).ending service blocked db).any Ending.succeeded then
        some ⟨t.userId, encrypted, step⟩
      else none
    | _ => none
  | _ => none

def Answering.accepted (service : MfaService) (s : Answering) : AnsweringEvent → Option Acceptance
  | .ceremony (.advance i) => s.calls[i]?.bind (AnsweringCall.accepts service (s.blocked i) s.db)
  | _ => none

/-- The secret that `pyotp.random_base32` draws for a preparation. -/
def AnsweringEvent.drawsSecret (service : MfaService) : AnsweringEvent → Option String
  | .ceremony (.prepare _ .totp _ _ pendingSecret) => service.decrypt pendingSecret
  | _ => none

/-- The secrets of the authenticator apps that are enrolled. -/
def MfaDb.secrets (service : MfaService) (db : MfaDb) : List String :=
  db.totps.filterMap fun c => service.decrypt c.encryptedSecret

/-- The secret that an open request is to enrol. -/
def MfaService.awaited (service : MfaService) (t : MfaTransaction) : Option String :=
  if t.purpose = .enrollTotp ∧ t.consumedAt = none then t.pendingSecret.bind service.decrypt
  else none

/-- The secret that a preparation has drawn and not written yet. -/
def AnsweringCall.drawn (service : MfaService) : AnsweringCall → List String
  | .prepare c =>
    match c.method, c.stage with
    | .passkey, _ | _, .ended _ => []
    | .totp, _ => (service.decrypt c.pendingSecret).toList
  | _ => []

/-- What a step makes of the authenticator apps, and the code that it accepts. -/
inductive TotpStep (service : MfaService) (blocked : MfaLock → Bool) (db : MfaDb) :
    AnsweringCall → Option Acceptance → List TotpCredential → Prop where
  | same (call : AnsweringCall) : TotpStep service blocked db call none db.totps
  | revoked (userId : Uuid) (role : Role) (c : Removal) (now : Instant)
      (hlock : MfaLock.factor userId .totp ∈ (AnsweringCall.remove userId role c).locks) :
      TotpStep service blocked db (.remove userId role c) none
        (updateWhere (fun r => r.userId = userId && r.revokedAt.isNone)
          (fun r => { r with revokedAt := some now }) db.totps)
  | used (c : Answer) (t : MfaTransaction) (encrypted : Bytes) (step : Int)
      (factors : List Factor) (hstage : c.stage = .write t (.totp encrypted step) factors)
      (hlogin : t.purpose = .login) :
      TotpStep service blocked db (.answer c) (some ⟨t.userId, encrypted, step⟩)
        (updateWhere (fun r => r.userId = t.userId && r.revokedAt.isNone)
          (fun r => { r with lastUsedStep := step, lastUsedAt := some c.draw.databaseNow }) db.totps)
  | enrolled (c : Answer) (t : MfaTransaction) (encrypted : Bytes) (step : Int)
      (factors : List Factor) (row : TotpCredential)
      (hstage : c.stage = .write t (.totp encrypted step) factors)
      (hpurpose : t.purpose ≠ .login) (hfree : blocked (.factor t.userId .totp) = false)
      (hrow : row.userId = t.userId ∧ row.encryptedSecret = encrypted ∧ row.lastUsedStep = step) :
      TotpStep service blocked db (.answer c) (some ⟨t.userId, encrypted, step⟩)
        (MfaService.upsertTotp row db).totps

section Steps
variable {settings : MfaSettings} {service : MfaService} {databaseNow : Instant}
  {blocked : MfaLock → Bool} {db : MfaDb} {call : AnsweringCall} {c : Answer}
  {t : MfaTransaction} {verdict : Verdict}

/-- Without a code the authenticator apps stay as they are. -/
theorem write_totps {mid : MfaDb} (h : verdict.write c.draw t db = .ok (none, mid))
    (hother : ∀ encrypted step, verdict ≠ .totp encrypted step) : mid.totps = db.totps := by
  cases verdict with
  | refuse => cases h
  | record message =>
    simp only [Verdict.write, bind_eq_ok] at h
    obtain ⟨_, _, h⟩ := h
    cases h
  | usePasskey =>
    cases h
    rfl
  | enrollPasskey verified transports =>
    simp only [Verdict.write] at h
    split at h
    · cases h
    · split_ifs at h
      simp only [bind_eq_ok, MfaDb.insertPasskey] at h
      obtain ⟨inserted, hinsert, h⟩ := h
      split_ifs at hinsert
      cases hinsert
      cases h
      rfl
  | totp encrypted step => exact absurd rfl (hother encrypted step)

/-- At its writes a call ends unless it waits. -/
theorem write_ending {factors : List Factor} (hs : c.stage = .write t verdict factors) :
    (AnsweringCall.answer c).ending service blocked db =
      if (verdict.rows t).any blocked then none
      else some ⟨c.transactionId, c.draw.databaseNow, (c.commit t verdict db).1⟩ := by
  simp only [AnsweringCall.ending, Answer.advance, hs]
  by_cases hwaits : (verdict.rows t).any blocked = true
  · rw [if_pos hwaits, if_pos hwaits]
    rfl
  · rw [if_neg hwaits, if_neg hwaits]
    rfl

theorem write_advance {factors : List Factor} (hs : c.stage = .write t verdict factors) :
    (c.advance service blocked db).2 =
      if (verdict.rows t).any blocked then db else (c.commit t verdict db).2 := by
  simp only [Answer.advance, hs]
  split_ifs <;> rfl

theorem totp_committed {encrypted : Bytes} {step : Int} {factors : List Factor}
    {completion : MfaCompletion} {mid db' : MfaDb}
    (hs : c.stage = .write t (.totp encrypted step) factors)
    (hfree : blocked (.factor t.userId .totp) = false)
    (hwritten : (Verdict.totp encrypted step).write c.draw t db = .ok (none, mid))
    (hconsumed : mid.consume t c.response.method c.draw.databaseNow = .ok (completion, db')) :
    TotpStep service blocked db (.answer c) (some ⟨t.userId, encrypted, step⟩) db'.totps := by
  rw [(consume_consumed hconsumed).totps]
  simp only [Verdict.write, MfaService.acceptTotp, bind_eq_ok] at hwritten
  obtain ⟨written, hwrite, h⟩ := hwritten
  cases h
  by_cases hlogin : t.purpose = .login
  · rw [if_pos hlogin] at hwrite
    cases hwrite
    exact .used c t encrypted step factors hs hlogin
  · rw [if_neg hlogin] at hwrite
    split at hwrite
    · cases hwrite
    · split_ifs at hwrite
      cases hwrite
      exact .enrolled c t encrypted step factors _ hs hlogin hfree ⟨rfl, rfl, rfl⟩

theorem answer_totps (service : MfaService) (blocked : MfaLock → Bool) (db : MfaDb) (c : Answer) :
    TotpStep service blocked db (.answer c) ((AnsweringCall.answer c).accepts service blocked db)
      (c.advance service blocked db).2.totps := by
  cases hs : c.stage with
  | select =>
    simp only [AnsweringCall.accepts, Answer.advance, hs]
    cases service.malformed c.response with
    | some failure => exact .same _
    | none => cases db.transactionForUpdate c.transactionId c.draw.databaseNow <;> exact .same _
  | verify t =>
    simp only [AnsweringCall.accepts, Answer.advance, hs]
    exact .same _
  | ended result =>
    simp only [AnsweringCall.accepts, Answer.advance, hs]
    exact .same _
  | write t verdict factors =>
    simp only [AnsweringCall.accepts, hs, write_ending hs, write_advance hs]
    by_cases hwaits : (verdict.rows t).any blocked = true
    · simp only [if_pos hwaits]
      cases verdict <;> exact .same _
    · simp only [if_neg hwaits]
      have hend := commit_cases c t verdict db
      generalize c.commit t verdict db = outcome at hend
      obtain ⟨result, db'⟩ := outcome
      simp only at hend ⊢
      cases hend with
      | refused e hquiet hraised => cases verdict <;> exact .same _
      | recorded message hv =>
        subst hv
        exact .same _
      | completed completion mid db' hwritten hconsumed =>
        cases verdict with
        | totp encrypted step =>
          refine totp_committed hs ?_ hwritten hconsumed
          by_contra hblocked
          exact hwaits (List.any_eq_true.mpr
            ⟨_, List.mem_cons_self, by simpa using hblocked⟩)
        | refuse | record | usePasskey | enrollPasskey =>
          rw [(consume_consumed hconsumed).totps,
            write_totps hwritten fun encrypted step h => by cases h]
          exact .same _

/-- A removal has locked the app that it revokes. -/
theorem removal_totps (userId : Uuid) (role : Role) (waits : FactorLock → Bool) (c : Removal)
    (db : MfaDb) : TotpStep service blocked db (.remove userId role c) none
      (c.advance userId role waits db).2.totps := by
  unfold Removal.advance
  cases hs : c.stage with
  | select =>
    simp only
    split_ifs <;> exact .same _
  | commit enabled =>
    simp only
    cases hf : c.target with
    | passkey credentialId => exact .same _
    | totp =>
      refine .revoked userId role c c.databaseNow ?_
      simp [AnsweringCall.locks, Removal.locks, hs, hf, FactorLock.ofUser]
  | countPasskeys | countTotp | revoke | sync | lockUser | ended | crashed => exact .same _

theorem advance_totps (settings : MfaSettings) (service : MfaService) (databaseNow : Instant)
    (blocked : MfaLock → Bool) (db : MfaDb) (call : AnsweringCall) :
    TotpStep service blocked db call (call.accepts service blocked db)
      (call.advance settings service databaseNow blocked db).2.totps := by
  cases call with
  | begin c =>
    simp only [AnsweringCall.advance, AnsweringCall.accepts,
      (begin_frame settings service databaseNow blocked db c).2.2]
    exact .same _
  | prepare c =>
    simp only [AnsweringCall.advance, AnsweringCall.accepts,
      (prepare_frame settings service databaseNow blocked db c).2.2]
    exact .same _
  | answer c => exact answer_totps service blocked db c
  | remove userId role c =>
    exact removal_totps userId role (fun l => blocked (l.ofUser userId)) c db
  | crashed => exact .same _
end Steps

/-! The one row of a user's authenticator app. -/

section Apps
variable {settings : MfaSettings} {service : MfaService} {blocked : MfaLock → Bool} {db : MfaDb}
  {call : AnsweringCall} {accepted : Option Acceptance} {apps : List TotpCredential}
  {r row : TotpCredential} {a : Acceptance}

theorem mem_upsertTotp (h : r ∈ (MfaService.upsertTotp row db).totps) :
    r = row ∨ (r ∈ db.totps ∧ r.userId ≠ row.userId) := by
  unfold MfaService.upsertTotp at h
  split_ifs at h with hthere
  · cases updateWhere_cases h with
    | inl hold => exact .inr ⟨hold.1, of_decide_eq_false hold.2⟩
    | inr hnew =>
      obtain ⟨q, -, -, he⟩ := hnew
      exact .inl he
  · cases List.mem_append.mp h with
    | inl hold => exact .inr ⟨hold, fun he => hthere (List.mem_map.mpr ⟨r, hold, he⟩)⟩
    | inr hnew => exact .inl (List.mem_singleton.mp hnew)

theorem upsertTotp_row (row : TotpCredential) (db : MfaDb) :
    row ∈ (MfaService.upsertTotp row db).totps := by
  unfold MfaService.upsertTotp
  split_ifs with hthere
  · obtain ⟨q, hq, he⟩ := List.mem_map.mp hthere
    exact mem_updateWhere.mpr ⟨q, hq, by simp [he]⟩
  · exact List.mem_append_right _ List.mem_cons_self

theorem upsertTotp_keeps (hr : r ∈ db.totps) (hother : r.userId ≠ row.userId) :
    r ∈ (MfaService.upsertTotp row db).totps := by
  unfold MfaService.upsertTotp
  split_ifs
  · exact mem_updateWhere_of_not hr (decide_eq_false hother)
  · exact List.mem_append_left _ hr

theorem upsertTotp_keyed (hk : Keyed TotpCredential.userId db.totps) (row : TotpCredential) :
    Keyed TotpCredential.userId (MfaService.upsertTotp row db).totps := by
  unfold MfaService.upsertTotp
  split_ifs with hthere
  · have hsame : (updateWhere (fun c => decide (c.userId = row.userId)) (fun _ => row)
        db.totps).map TotpCredential.userId = db.totps.map TotpCredential.userId := by
      simp only [updateWhere, List.map_map]
      refine List.map_congr_left fun c _ => ?_
      by_cases he : c.userId = row.userId
      · simp [he]
      · simp [he]
    rw [Keyed, hsame]
    exact hk
  · exact keyed_append_one.mpr ⟨hk, hthere⟩

/-- What a completion that has decided for a code knows: at a login the app's row, which it has
locked, and at an enrolment the secret of its request. -/
def AnsweringCall.Current (service : MfaService) (db : MfaDb) (call : AnsweringCall) : Prop :=
  ∀ c t encrypted step factors, call = .answer c → c.stage = .write t (.totp encrypted step) factors →
    (t.purpose = .login → .totp ∈ factors ∧ ∃ r ∈ db.totps, r.userId = t.userId ∧
      r.revokedAt = none ∧ r.encryptedSecret = encrypted ∧ r.lastUsedStep < step) ∧
    (t.purpose ≠ .login → t.purpose = .enrollTotp ∧ t.pendingSecret = some encrypted ∧
      (service.decrypt encrypted).isSome = true)

theorem TotpStep.keyed (h : TotpStep service blocked db call accepted apps)
    (hk : Keyed TotpCredential.userId db.totps) : Keyed TotpCredential.userId apps := by
  cases h with
  | same => exact hk
  | revoked | used =>
    refine (keyed_updateWhere _ ?_).mpr hk
    intro r
    rfl
  | enrolled c t encrypted step factors row => exact upsertTotp_keyed hk row

/-- The row of an app after a step is as it was, or it is that of the code accepted. -/
theorem TotpStep.origin (h : TotpStep service blocked db call accepted apps)
    (hk : Keyed TotpCredential.userId db.totps) (hcurrent : call.Current service db)
    (hr : r ∈ apps) :
    (∃ q ∈ db.totps, r.userId = q.userId ∧ r.encryptedSecret = q.encryptedSecret ∧
      r.lastUsedStep = q.lastUsedStep) ∨
    ∃ a ∈ accepted, r.userId = a.userId ∧ r.encryptedSecret = a.encrypted ∧
      r.lastUsedStep = a.step := by
  cases h with
  | same => exact .inl ⟨r, hr, rfl, rfl, rfl⟩
  | revoked userId role c now =>
    obtain ⟨q, hq, rfl⟩ := mem_updateWhere.mp hr
    refine .inl ⟨q, hq, ?_⟩
    split_ifs <;> exact ⟨rfl, rfl, rfl⟩
  | used c t encrypted step factors hstage hlogin =>
    cases updateWhere_cases hr with
    | inl hold => exact .inl ⟨r, hold.1, rfl, rfl, rfl⟩
    | inr hnew =>
      obtain ⟨q, hq, hp, rfl⟩ := hnew
      obtain ⟨-, q', hq', huser, -, hsecret, -⟩ :=
        (hcurrent c t encrypted step factors rfl hstage).1 hlogin
      simp only [Bool.and_eq_true, decide_eq_true_eq] at hp
      have he : q = q' := hk.eq_of_key hq hq' (hp.1.trans huser.symm)
      subst he
      exact .inr ⟨_, rfl, hp.1, hsecret, rfl⟩
  | enrolled c t encrypted step factors row hstage hpurpose hfree hrow =>
    cases mem_upsertTotp hr with
    | inl he =>
      subst he
      exact .inr ⟨_, rfl, hrow⟩
    | inr hold => exact .inl ⟨r, hold.1, rfl, rfl, rfl⟩

/-- The app of a code that is accepted has its step. -/
theorem TotpStep.accepted_row (h : TotpStep service blocked db call accepted apps)
    (hcurrent : call.Current service db) (ha : a ∈ accepted) :
    ∃ r ∈ apps, r.userId = a.userId ∧ r.encryptedSecret = a.encrypted ∧
      r.lastUsedStep = a.step := by
  cases h with
  | same | revoked => cases ha
  | used c t encrypted step factors hstage hlogin =>
    cases ha
    obtain ⟨-, q, hq, huser, hunrevoked, hsecret, -⟩ :=
      (hcurrent c t encrypted step factors rfl hstage).1 hlogin
    exact ⟨_, mem_updateWhere_of hq (by simp [huser, hunrevoked]), huser, hsecret, rfl⟩
  | enrolled c t encrypted step factors row hstage hpurpose hfree hrow =>
    cases ha
    exact ⟨row, upsertTotp_row row db, hrow⟩

/-- The row of an app that another call has locked stays as it is. -/
theorem TotpStep.keeps (h : TotpStep service blocked db call accepted apps)
    (hcurrent : call.Current service db) (hblocked : blocked (.factor r.userId .totp) = true)
    (hown : .factor r.userId .totp ∉ call.locks) (hr : r ∈ db.totps) : r ∈ apps := by
  cases h with
  | same => exact hr
  | revoked userId role c now hlock =>
    refine mem_updateWhere_of_not hr ?_
    have hother : r.userId ≠ userId := fun he => hown (he ▸ hlock)
    simp [hother]
  | used c t encrypted step factors hstage hlogin =>
    refine mem_updateWhere_of_not hr ?_
    have hfactor := ((hcurrent c t encrypted step factors rfl hstage).1 hlogin).1
    have hother : r.userId ≠ t.userId := by
      intro he
      refine hown ?_
      rw [he]
      simp [AnsweringCall.locks, Answer.locks, hstage, hfactor]
    simp [hother]
  | enrolled c t encrypted step factors row hstage hpurpose hfree hrow =>
    refine upsertTotp_keeps hr ?_
    intro he
    rw [he, hrow.1, hfree] at hblocked
    cases hblocked
end Apps

/-! The secrets that wait to be enrolled. -/

section Secrets
variable {settings : MfaSettings} {service : MfaService} {databaseNow : Instant}
  {blocked : MfaLock → Bool} {db : MfaDb} {call : AnsweringCall} {t u : MfaTransaction}
  {rows : List MfaTransaction} {ending : Option Ending} {x : String}

theorem awaited_some : service.awaited t = some x ↔ t.purpose = .enrollTotp ∧
    t.consumedAt = none ∧ t.pendingSecret.bind service.decrypt = some x := by
  unfold MfaService.awaited
  by_cases h : t.purpose = .enrollTotp ∧ t.consumedAt = none
  · simp [h]
  · rw [if_neg h]
    constructor
    · intro hnone
      cases hnone
    · intro hx
      exact absurd ⟨hx.1, hx.2.1⟩ h

@[simp] theorem awaited_fail (t : MfaTransaction) : service.awaited t.fail = service.awaited t := by
  unfold MfaTransaction.fail
  split_ifs <;> rfl

theorem awaited_consume (t : MfaTransaction) (now : Instant) :
    service.awaited (t.consume now) = none := by
  simp [MfaService.awaited, MfaTransaction.consume]

/-- What a request waits for after a step it waited for before, and is not completed, or a
preparation had drawn it. -/
theorem RowStep.awaited (h : RowStep settings databaseNow blocked db call ending rows)
    (hknows : Knowing db call) (hu : u ∈ rows) (hx : service.awaited u = some x) :
    (∃ q ∈ db.transactions, q.transactionId = u.transactionId ∧ service.awaited q = some x ∧
      ∀ e ∈ ending, e.succeeded = true → e.transactionId ≠ u.transactionId) ∨
    ∃ c t, call = .prepare c ∧ c.stage = .update t ∧ u.transactionId = c.transactionId ∧
      x ∈ call.drawn service := by
  cases h with
  | same call ending hquiet =>
    refine .inl ⟨u, hu, rfl, hx, fun e he hsucceeded => ?_⟩
    rw [(hquiet e he).1] at hsucceeded
    cases hsucceeded
  | deleted c => exact .inl ⟨u, (List.mem_filter.mp hu).1, rfl, hx, fun e he => by cases he⟩
  | inserted c new hstage =>
    cases List.mem_append.mp hu with
    | inl hu => exact .inl ⟨u, hu, rfl, hx, fun e he => by cases he⟩
    | inr hu =>
      rw [List.mem_singleton.mp hu, awaited_some] at hx
      cases new <;> cases hx.1
  | prepared c t hstage =>
    cases updateWhere_cases hu with
    | inl hold => exact .inl ⟨u, hold.1, rfl, hx, fun e he => by cases he⟩
    | inr hnew =>
      obtain ⟨q, hq, hid, rfl⟩ := hnew
      refine .inr ⟨c, t, rfl, hstage, by simpa using hid, ?_⟩
      obtain ⟨hpurpose, -, hsecret⟩ := awaited_some.mp hx
      rw [prepare_purpose] at hpurpose
      cases hm : c.method with
      | passkey =>
        rw [hm] at hpurpose
        cases hpurpose
      | totp =>
        rw [hm] at hsecret
        simpa [AnsweringCall.drawn, hm, hstage, MfaTransaction.prepare] using hsecret
  | recorded c t verdict factors e hstage hid hended =>
    obtain ⟨q, hq, rfl⟩ := mem_updateWhere.mp hu
    have quiet : ∀ e' ∈ some e, e'.succeeded = true → e'.transactionId ≠ q.transactionId := by
      intro e' he' hsucceeded
      cases he'
      rw [hended.1] at hsucceeded
      cases hsucceeded
    split_ifs at hx ⊢
    · rw [awaited_fail] at hx
      exact .inl ⟨q, hq, by simp, hx, by simpa using quiet⟩
    · exact .inl ⟨q, hq, rfl, hx, quiet⟩
  | consumed c t verdict factors e hstage hid hnow hended =>
    obtain ⟨-, hread, -⟩ := hknows t (held_write hstage)
    cases updateWhere_cases hu with
    | inl hold =>
      refine .inl ⟨u, hold.1, rfl, hx, fun e' he' _ => ?_⟩
      cases he'
      rw [hid, ← hread]
      exact fun he => of_decide_eq_false hold.2 he.symm
    | inr hnew =>
      obtain ⟨q, -, -, rfl⟩ := hnew
      rw [awaited_consume] at hx
      cases hx

/-- A preparation writes what it has drawn once. -/
theorem advance_drawn
    (h : x ∈ (call.advance settings service databaseNow blocked db).1.drawn service) :
    x ∈ call.drawn service ∧ ∀ c t, call = .prepare c → c.stage ≠ .update t := by
  cases call with
  | begin | answer | remove | crashed => cases h
  | prepare c =>
    simp only [AnsweringCall.advance, AnsweringCall.drawn, Preparation.become] at h ⊢
    cases hm : c.method with
    | passkey =>
      rw [hm] at h
      cases h
    | totp =>
      rw [hm] at h
      cases hs : c.stage with
      | update t =>
        simp only [Preparation.advance, hs] at h
        cases h
      | ended result =>
        simp only [Preparation.advance, hs] at h
        cases h
      | select | existing =>
        refine ⟨?_, fun c' t hc hstage => ?_⟩
        · split at h
          · cases h
          · cases h
          · exact h
        · cases hc
          rw [hs] at hstage
          cases hstage

theorem RowStep.login (h : RowStep settings databaseNow blocked db call ending rows)
    (hlogin : ∀ q ∈ db.transactions, q.purpose = .login → q.pendingSecret = none)
    (hu : u ∈ rows) (hp : u.purpose = .login) : u.pendingSecret = none := by
  cases h with
  | same => exact hlogin u hu hp
  | deleted c => exact hlogin u (List.mem_filter.mp hu).1 hp
  | inserted c new hstage =>
    cases List.mem_append.mp hu with
    | inl hu => exact hlogin u hu hp
    | inr hu =>
      rw [List.mem_singleton.mp hu]
      rfl
  | prepared c t hstage =>
    cases updateWhere_cases hu with
    | inl hold => exact hlogin u hold.1 hp
    | inr hnew =>
      obtain ⟨q, hq, -, rfl⟩ := hnew
      rw [prepare_purpose] at hp
      cases hm : c.method <;> rw [hm] at hp <;> cases hp
  | recorded c t verdict factors e hstage =>
    cases updateWhere_cases hu with
    | inl hold => exact hlogin u hold.1 hp
    | inr hnew =>
      obtain ⟨q, hq, -, rfl⟩ := hnew
      have hsame : q.fail.pendingSecret = q.pendingSecret := by
        unfold MfaTransaction.fail
        split_ifs <;> rfl
      rw [hsame]
      exact hlogin q hq (by simpa using hp)
  | consumed c t verdict factors e hstage =>
    cases updateWhere_cases hu with
    | inl hold => exact hlogin u hold.1 hp
    | inr hnew =>
      obtain ⟨q, hq, -, rfl⟩ := hnew
      exact hlogin q hq hp

theorem judgeCode_totp {now : Instant} {code : String} {encrypted : Bytes} {step : Int}
    (h : service.judgeCode now t code db = .totp encrypted step) :
    (MfaService.totpSecret t db).1 = some encrypted ∧ (MfaService.totpSecret t db).2 < step ∧
      (service.decrypt encrypted).isSome = true := by
  unfold MfaService.judgeCode at h
  generalize MfaService.totpSecret t db = stored at h ⊢
  obtain ⟨found, lastUsedStep⟩ := stored
  match found with
  | none | some [] => cases h
  | some (byte :: bytes) =>
    simp only at h
    cases hd : service.decrypt (byte :: bytes) with
    | none =>
      simp only [hd] at h
      cases h
    | some secret =>
      simp only [hd] at h
      cases hf : (service.matchingTotpStep now secret code).filter (lastUsedStep < ·) with
      | none =>
        simp only [hf] at h
        cases h
      | some matched =>
        simp only [hf] at h
        cases h
        have hafter := (Option.filter_eq_some_iff.mp hf).2
        exact ⟨rfl, of_decide_eq_true hafter, by rw [hd]; rfl⟩

theorem judgeTotp_totp {now : Instant} {code : String} {encrypted : Bytes} {step : Int}
    (h : service.judgeTotp now t code db = .totp encrypted step) :
    service.judgeCode now t code db = .totp encrypted step ∧
      (t.purpose = .login ∨ t.purpose = .enrollTotp) := by
  unfold MfaService.judgeTotp at h
  cases hp : t.purpose with
  | login =>
    rw [hp] at h
    exact ⟨h, .inl rfl⟩
  | enrollTotp =>
    rw [hp] at h
    exact ⟨h, .inr rfl⟩
  | enrollChoice | enrollPasskey =>
    rw [hp] at h
    cases h

/-- A code is decided for on the app's row, which is then locked, or on the secret of an
enrolment. -/
theorem judge_current (hlogin : t.purpose = .login → t.pendingSecret = none) {now : Instant}
    {response : FactorResponse} {encrypted : Bytes} {step : Int}
    (h : service.judge now t db response = .totp encrypted step) :
    (t.purpose = .login → .totp ∈ service.factorsForUpdate t db response ∧
      ∃ r ∈ db.totps, r.userId = t.userId ∧ r.revokedAt = none ∧ r.encryptedSecret = encrypted ∧
        r.lastUsedStep < step) ∧
    (t.purpose ≠ .login → t.purpose = .enrollTotp ∧ t.pendingSecret = some encrypted ∧
      (service.decrypt encrypted).isSome = true) := by
  cases response with
  | passkey credential =>
    simp only [MfaService.judge] at h
    split at h
    · cases h
    · unfold MfaService.judgePasskey at h
      split at h
      · split at h
        · cases h
        · split at h <;> cases h
      · split at h
        · cases h
        · split_ifs at h
      · cases h
  | totp code =>
    simp only [MfaService.judge] at h
    obtain ⟨hcode, hpurpose⟩ := judgeTotp_totp h
    obtain ⟨hsecret, hstep, hreadable⟩ := judgeCode_totp hcode
    constructor
    · intro hp
      simp only [MfaService.totpSecret, hp] at hsecret hstep
      cases hstored : db.totps.find? fun c => c.userId = t.userId && c.revokedAt.isNone with
      | none =>
        simp only [hstored, hlogin hp] at hsecret
        cases hsecret
      | some r =>
        simp only [hstored] at hsecret hstep
        have hfound := List.find?_some hstored
        have hmem := List.mem_of_find?_eq_some hstored
        simp only [Bool.and_eq_true, decide_eq_true_eq, Option.isNone_iff_eq_none] at hfound
        refine ⟨?_, r, hmem, hfound.1, hfound.2, Option.some.inj hsecret, hstep⟩
        have hthere : db.hasTotp t.userId = true :=
          List.any_eq_true.mpr ⟨r, hmem, by simp [hfound.1, hfound.2]⟩
        simp [MfaService.factorsForUpdate, hp, hthere]
    · intro hp
      have henroll := hpurpose.resolve_left hp
      simp only [MfaService.totpSecret, henroll] at hsecret
      exact ⟨henroll, hsecret, hreadable⟩
end Secrets

/-- A secret that some request is to enrol. -/
def Answering.Waits (service : MfaService) (s : Answering) (x : String) : Prop :=
  (∃ t ∈ s.db.transactions, service.awaited t = some x) ∨ ∃ call ∈ s.calls, x ∈ call.drawn service

/-- No app has the secret and no code of it was accepted. -/
def Unused (service : MfaService) (db : MfaDb) (log : List Acceptance) (x : String) : Prop :=
  x ∉ db.secrets service ∧ ∀ a ∈ log, service.decrypt a.encrypted ≠ some x

/-- The steps accepted of the user's codes under a secret, in the order of their commits. -/
def stepsOf (service : MfaService) (userId : Uuid) (x : String) (log : List Acceptance) : List Int :=
  (log.filter fun a => a.userId = userId && service.decrypt a.encrypted = some x).map
    Acceptance.step

/-- Codes have been accepted of ever later steps, up to the last used step of the app. -/
structure Ascending (service : MfaService) (drawn : List String) (log : List Acceptance)
    (s : Answering) : Prop extends Orderly s where
  apps : Keyed TotpCredential.userId s.db.totps
  login : ∀ t ∈ s.db.transactions, t.purpose = .login → t.pendingSecret = none
  current : ∀ call ∈ s.calls, call.Current service s.db
  drawnApps : ∀ x ∈ s.db.secrets service, x ∈ drawn
  drawnLog : ∀ a ∈ log, ∀ x, service.decrypt a.encrypted = some x → x ∈ drawn
  drawnWaits : ∀ x, s.Waits service x → x ∈ drawn
  lone : ∀ t ∈ s.db.transactions, ∀ u ∈ s.db.transactions, ∀ x, service.awaited t = some x →
    service.awaited u = some x → t.transactionId = u.transactionId
  loneCalls : Locks.Exclusive (AnsweringCall.drawn service) s.calls
  apart : ∀ t ∈ s.db.transactions, ∀ call ∈ s.calls, ∀ x, service.awaited t = some x →
    x ∉ call.drawn service
  unused : ∀ x, s.Waits service x → Unused service s.db log x
  below : ∀ a ∈ log, ∀ r ∈ s.db.totps, r.userId = a.userId →
    service.decrypt r.encryptedSecret = service.decrypt a.encrypted → a.step ≤ r.lastUsedStep
  ascending : ∀ userId x, (stepsOf service userId x log).Pairwise (· < ·)

section Steps
variable {settings : MfaSettings} {service : MfaService} {s : Answering} {i : Nat}
  {call : AnsweringCall} {drawn : List String} {log : List Acceptance} {a : Acceptance}
  {x : String}

theorem mem_secrets {db : MfaDb} : x ∈ db.secrets service ↔
    ∃ r ∈ db.totps, service.decrypt r.encryptedSecret = some x := by
  simp [MfaDb.secrets, List.mem_filterMap]

theorem stepsOf_append (userId : Uuid) (x : String) (log more : List Acceptance) :
    stepsOf service userId x (log ++ more) =
      stepsOf service userId x log ++ stepsOf service userId x more := by
  simp [stepsOf]

theorem mem_stepsOf {userId : Uuid} {step : Int} : step ∈ stepsOf service userId x log ↔
    ∃ a ∈ log, a.userId = userId ∧ service.decrypt a.encrypted = some x ∧ a.step = step := by
  simp [stepsOf, and_assoc]

/-- What a call accepts it accepts as it ends, on what it has decided. -/
theorem accepts_cases {blocked : MfaLock → Bool} {db : MfaDb}
    (h : a ∈ call.accepts service blocked db) :
    ∃ (c : Answer) (t : MfaTransaction) (factors : List Factor) (e : Ending), call = .answer c ∧
      c.stage = .write t (.totp a.encrypted a.step) factors ∧ a.userId = t.userId ∧
      e ∈ call.ending service blocked db ∧ e.succeeded = true ∧
      e.transactionId = c.transactionId := by
  cases call with
  | begin | prepare | remove | crashed => cases h
  | answer c =>
    simp only [AnsweringCall.accepts] at h
    split at h
    · rename_i t encrypted step factors hs
      split_ifs at h with hany
      · cases h
        obtain ⟨e, hending, hsucceeded⟩ := (Option.any_eq_true _ _).mp hany
        have hid : e.transactionId = c.transactionId := by
          simp only [AnsweringCall.ending] at hending
          split_ifs at hending
          obtain ⟨result, -, rfl⟩ := Option.map_eq_some_iff.mp hending
          rfl
        exact ⟨c, t, factors, e, rfl, hs, rfl, hending, hsucceeded, hid⟩
      · cases h
    · cases h

/-- The secret of a code that is accepted is the app's, or a request has waited for it. -/
theorem Ascending.accepted_secret (h : Ascending service drawn log s)
    (hi : s.calls[i]? = some call) (ha : a ∈ call.accepts service (s.blocked i) s.db) :
    (∃ r ∈ s.db.totps, r.userId = a.userId ∧ r.encryptedSecret = a.encrypted ∧
      r.lastUsedStep < a.step) ∨
    ∃ t ∈ s.db.transactions, ∃ e ∈ call.ending service (s.blocked i) s.db, e.succeeded = true ∧
      e.transactionId = t.transactionId ∧ service.awaited t = service.decrypt a.encrypted ∧
      (service.decrypt a.encrypted).isSome = true ∧ call.drawn service = [] := by
  have hmem := List.mem_of_getElem? hi
  obtain ⟨c, t, factors, e, rfl, hstage, huser, hending, hsucceeded, hid⟩ := accepts_cases ha
  obtain ⟨hlogin, henroll⟩ := h.current _ hmem c t a.encrypted a.step factors rfl hstage
  obtain ⟨ht, hread, -, hopen, -⟩ := h.knowing _ hmem t (held_write hstage)
  by_cases hp : t.purpose = .login
  · obtain ⟨-, r, hr, hruser, -, hsecret, hstep⟩ := hlogin hp
    exact .inl ⟨r, hr, hruser.trans huser.symm, hsecret, hstep⟩
  · obtain ⟨hpurpose, hpending, hreadable⟩ := henroll hp
    refine .inr ⟨t, ht, e, hending, hsucceeded, hid.trans hread.symm, ?_, hreadable, rfl⟩
    simp [MfaService.awaited, hpurpose, hopen, hpending]

/-- A code is accepted of a later step than all those before it. -/
theorem Ascending.rises (h : Ascending service drawn log s) (hi : s.calls[i]? = some call)
    (ha : a ∈ call.accepts service (s.blocked i) s.db) :
    ∀ a' ∈ log, a'.userId = a.userId →
      service.decrypt a'.encrypted = service.decrypt a.encrypted → a'.step < a.step := by
  intro a' ha' huser hsecret
  cases h.accepted_secret hi ha with
  | inl happ =>
    obtain ⟨r, hr, hruser, hrsecret, hstep⟩ := happ
    refine Int.lt_of_le_of_lt (h.below a' ha' r hr (hruser.trans huser.symm) ?_) hstep
    rw [hrsecret, hsecret]
  | inr hwaits =>
    obtain ⟨t, ht, -, -, -, -, hx, hreadable, -⟩ := hwaits
    obtain ⟨x, hread⟩ := Option.isSome_iff_exists.mp hreadable
    have hunused := h.unused x (.inl ⟨t, ht, hx.trans hread⟩)
    exact absurd (hsecret.trans hread) (hunused.2 a' ha')

section Advance
variable (h : Ascending service drawn log s) (hi : s.calls[i]? = some call)

/-- The state after the next step of the call. -/
def Answering.moved (settings : MfaSettings) (service : MfaService) (s : Answering) (i : Nat)
    (call : AnsweringCall) : Answering :=
  { s with
    db := (call.advance settings service s.clock (s.blocked i) s.db).2
    calls := s.calls.set i (call.advance settings service s.clock (s.blocked i) s.db).1 }

include h hi

/-- What waits after the step waited before, and the step has not accepted its code. -/
theorem Ascending.moved_waits
    (hx : (s.moved settings service i call).Waits service x) :
    s.Waits service x ∧
      ∀ a ∈ call.accepts service (s.blocked i) s.db, service.decrypt a.encrypted ≠ some x := by
  have hmem := List.mem_of_getElem? hi
  have hrows := advance_rows settings service s.clock (s.blocked i) s.db call
  have hbefore : s.Waits service x := by
    cases hx with
    | inl hrow =>
      obtain ⟨u, hu, hu'⟩ := hrow
      cases hrows.awaited (h.knowing call hmem) hu hu' with
      | inl hold =>
        obtain ⟨q, hq, -, hq', -⟩ := hold
        exact .inl ⟨q, hq, hq'⟩
      | inr hnew =>
        obtain ⟨c, t, -, -, -, hdrawn⟩ := hnew
        exact .inr ⟨call, hmem, hdrawn⟩
    | inr hcall =>
      obtain ⟨other, hother, hdrawn⟩ := hcall
      cases Locks.mem_set hother with
      | inl he =>
        rw [he] at hdrawn
        exact .inr ⟨call, hmem, (advance_drawn hdrawn).1⟩
      | inr hrest =>
        obtain ⟨j, -, hj⟩ := hrest
        exact .inr ⟨other, List.mem_of_getElem? hj, hdrawn⟩
  refine ⟨hbefore, fun a ha hsecret => ?_⟩
  cases h.accepted_secret hi ha with
  | inl happ =>
    obtain ⟨r, hr, -, hrsecret, -⟩ := happ
    exact (h.unused x hbefore).1 (mem_secrets.mpr ⟨r, hr, by rw [hrsecret, hsecret]⟩)
  | inr hwaits =>
    obtain ⟨t, ht, e, hending, hsucceeded, hid, hawaited, -, hnone⟩ := hwaits
    rw [hsecret] at hawaited
    cases hx with
    | inl hrow =>
      obtain ⟨u, hu, hu'⟩ := hrow
      cases hrows.awaited (h.knowing call hmem) hu hu' with
      | inl hold =>
        obtain ⟨q, hq, hqid, hq', hopen⟩ := hold
        refine hopen e hending hsucceeded ?_
        rw [hid, ← hqid]
        exact h.lone t ht q hq x hawaited hq'
      | inr hnew =>
        obtain ⟨c, u', -, -, -, hdrawn⟩ := hnew
        rw [hnone] at hdrawn
        cases hdrawn
    | inr hcall =>
      obtain ⟨other, hother, hdrawn⟩ := hcall
      cases Locks.mem_set hother with
      | inl he =>
        rw [he] at hdrawn
        have hin := (advance_drawn hdrawn).1
        rw [hnone] at hin
        cases hin
      | inr hrest =>
        obtain ⟨j, -, hj⟩ := hrest
        exact h.apart t ht other (List.mem_of_getElem? hj) x hawaited hdrawn

/-- An app's secret after the step was one before, or it is that of the code accepted. -/
theorem Ascending.moved_secrets (hx : x ∈ (s.moved settings service i call).db.secrets service) :
    x ∈ s.db.secrets service ∨
      ∃ a ∈ call.accepts service (s.blocked i) s.db, service.decrypt a.encrypted = some x := by
  have hmem := List.mem_of_getElem? hi
  have happs := advance_totps settings service s.clock (s.blocked i) s.db call
  obtain ⟨r, hr, hsecret⟩ := mem_secrets.mp hx
  cases happs.origin h.apps (h.current call hmem) hr with
  | inl hold =>
    obtain ⟨q, hq, -, hqsecret, -⟩ := hold
    exact .inl (mem_secrets.mpr ⟨q, hq, by rw [← hqsecret, hsecret]⟩)
  | inr hnew =>
    obtain ⟨a, ha, -, hasecret, -⟩ := hnew
    exact .inr ⟨a, ha, by rw [← hasecret, hsecret]⟩

theorem Ascending.accepted_drawn (ha : a ∈ call.accepts service (s.blocked i) s.db)
    (hx : service.decrypt a.encrypted = some x) : x ∈ drawn := by
  cases h.accepted_secret hi ha with
  | inl happ =>
    obtain ⟨r, hr, -, hrsecret, -⟩ := happ
    exact h.drawnApps x (mem_secrets.mpr ⟨r, hr, by rw [hrsecret, hx]⟩)
  | inr hwaits =>
    obtain ⟨t, ht, -, -, -, -, hawaited, -⟩ := hwaits
    exact h.drawnWaits x (.inl ⟨t, ht, hawaited.trans hx⟩)

/-- What a call that goes on knows it has read now, or no other call may change it. -/
theorem Ascending.moved_current :
    ∀ other ∈ (s.moved settings service i call).calls,
      other.Current service (s.moved settings service i call).db := by
  intro other hother
  have hmem := List.mem_of_getElem? hi
  have hcurrent := h.current call hmem
  cases Locks.mem_set hother with
  | inl he =>
    intro c t encrypted step factors hc hstage
    cases call with
    | begin | prepare | remove | crashed =>
      rw [he] at hc
      cases hc
    | answer c₀ =>
      rw [he] at hc
      cases hc
      have hheld : (AnsweringCall.advance settings service s.clock (s.blocked i) s.db
          (.answer c₀)).1.held = some t := held_write hstage
      have hdb : (s.moved settings service i (.answer c₀)).db = s.db := answering_reads hheld
      rw [hdb]
      cases answer_held hheld with
      | inl hnew =>
        have hverify : (c₀.advance service (s.blocked i) s.db).1 = .write t
            (.totp encrypted step) factors := hstage
        rw [hnew.2] at hverify
        cases hverify
      | inr hold =>
        have hwrite : (c₀.advance service (s.blocked i) s.db).1 = .write t
            (.totp encrypted step) factors := hstage
        cases hold.2 with
        | inl hsame =>
          rw [hsame] at hwrite
          exact hcurrent c₀ t encrypted step factors rfl hwrite
        | inr hjudged =>
          rw [hjudged] at hwrite
          obtain ⟨-, hverdict, hfactors⟩ := AnswerStage.write.inj hwrite
          rw [← hfactors]
          have ht := (h.knowing _ hmem t hold.1).1
          exact judge_current (h.login t ht) hverdict
  | inr hrest =>
    obtain ⟨j, hne, hj⟩ := hrest
    intro c t encrypted step factors hc hstage
    subst hc
    obtain ⟨hlogin, henroll⟩ := h.current _ (List.mem_of_getElem? hj) c t encrypted step factors rfl
      hstage
    refine ⟨fun hp => ?_, henroll⟩
    obtain ⟨hfactor, r, hr, huser, hunrevoked, hsecret, hstep⟩ := hlogin hp
    have hlock : MfaLock.factor r.userId .totp ∈ (AnsweringCall.answer c).locks := by
      simp [AnsweringCall.locks, Answer.locks, hstage, huser, hfactor]
    have happs := advance_totps settings service s.clock (s.blocked i) s.db call
    refine ⟨hfactor, r, ?_, huser, hunrevoked, hsecret, hstep⟩
    exact happs.keeps hcurrent (Locks.heldByOther_of_ne hne hj hlock)
      (h.exclusive.disjoint hj hi hne _ hlock) hr

theorem Ascending.moved_below :
    ∀ a ∈ log ++ (call.accepts service (s.blocked i) s.db).toList,
      ∀ r ∈ (s.moved settings service i call).db.totps, r.userId = a.userId →
        service.decrypt r.encryptedSecret = service.decrypt a.encrypted →
          a.step ≤ r.lastUsedStep := by
  intro a ha r hr huser hsecret
  have hcurrent := h.current call (List.mem_of_getElem? hi)
  have happs := advance_totps settings service s.clock (s.blocked i) s.db call
  cases List.mem_append.mp ha with
  | inl hold =>
    cases happs.origin h.apps hcurrent hr with
    | inl hq =>
      obtain ⟨q, hq, hquser, hqsecret, hqstep⟩ := hq
      rw [hqstep]
      exact h.below a hold q hq (hquser.symm.trans huser) (by rw [← hqsecret, hsecret])
    | inr hnew =>
      obtain ⟨a', ha', huser', hsecret', hstep'⟩ := hnew
      rw [hstep']
      exact Int.le_of_lt (h.rises hi ha' a hold (huser.symm.trans huser')
        (by rw [← hsecret, hsecret']))
  | inr hnew =>
    obtain ⟨row, hrow, hrowuser, -, hrowstep⟩ :=
      happs.accepted_row hcurrent (Option.mem_toList.mp hnew)
    have he : r = row := (happs.keyed h.apps).eq_of_key hr hrow (huser.trans hrowuser.symm)
    rw [he]
    exact Int.le_of_eq hrowstep.symm

theorem Ascending.moved_ascending (userId : Uuid) (x : String) :
    (stepsOf service userId x
      (log ++ (call.accepts service (s.blocked i) s.db).toList)).Pairwise (· < ·) := by
  rw [stepsOf_append, List.pairwise_append]
  refine ⟨h.ascending userId x, ?_, ?_⟩
  · cases call.accepts service (s.blocked i) s.db with
    | none => exact List.Pairwise.nil
    | some a =>
      by_cases ha : (a.userId = userId && service.decrypt a.encrypted = some x) = true
      · simp [stepsOf, ha]
      · simp [stepsOf, ha]
  · intro step hstep step' hstep'
    obtain ⟨a, ha, huser, hsecret, rfl⟩ := mem_stepsOf.mp hstep
    obtain ⟨a', ha', huser', hsecret', rfl⟩ := mem_stepsOf.mp hstep'
    exact h.rises hi (Option.mem_toList.mp ha') a ha (huser.trans huser'.symm)
      (hsecret.trans hsecret'.symm)

theorem Ascending.moved_lone :
    ∀ t ∈ (s.moved settings service i call).db.transactions,
      ∀ u ∈ (s.moved settings service i call).db.transactions, ∀ x,
        service.awaited t = some x → service.awaited u = some x →
          t.transactionId = u.transactionId := by
  intro t ht u hu x hxt hxu
  have hmem := List.mem_of_getElem? hi
  have hrows := advance_rows settings service s.clock (s.blocked i) s.db call
  cases hrows.awaited (h.knowing call hmem) ht hxt with
  | inl hold =>
    obtain ⟨q, hq, hqid, hq', -⟩ := hold
    cases hrows.awaited (h.knowing call hmem) hu hxu with
    | inl hold =>
      obtain ⟨p, hp, hpid, hp', -⟩ := hold
      rw [← hqid, ← hpid]
      exact h.lone q hq p hp x hq' hp'
    | inr hnew =>
      obtain ⟨c, u', -, -, -, hdrawn⟩ := hnew
      exact absurd hdrawn (h.apart q hq call hmem x hq')
  | inr hnew =>
    obtain ⟨c, t', hcall, -, htid, hdrawn⟩ := hnew
    cases hrows.awaited (h.knowing call hmem) hu hxu with
    | inl hold =>
      obtain ⟨p, hp, -, hp', -⟩ := hold
      exact absurd hdrawn (h.apart p hp call hmem x hp')
    | inr hnew =>
      obtain ⟨c', u', hcall', -, huid, -⟩ := hnew
      rw [hcall] at hcall'
      cases hcall'
      rw [htid, huid]

theorem Ascending.moved_apart :
    ∀ t ∈ (s.moved settings service i call).db.transactions,
      ∀ other ∈ (s.moved settings service i call).calls, ∀ x,
        service.awaited t = some x → x ∉ other.drawn service := by
  intro t ht other hother x hx hdrawn
  have hmem := List.mem_of_getElem? hi
  have hrows := advance_rows settings service s.clock (s.blocked i) s.db call
  cases hrows.awaited (h.knowing call hmem) ht hx with
  | inl hold =>
    obtain ⟨q, hq, -, hq', -⟩ := hold
    cases Locks.mem_set hother with
    | inl he =>
      rw [he] at hdrawn
      exact h.apart q hq call hmem x hq' (advance_drawn hdrawn).1
    | inr hrest =>
      obtain ⟨j, -, hj⟩ := hrest
      exact h.apart q hq other (List.mem_of_getElem? hj) x hq' hdrawn
  | inr hnew =>
    obtain ⟨c, t', hcall, hstage, -, hin⟩ := hnew
    cases Locks.mem_set hother with
    | inl he =>
      rw [he] at hdrawn
      exact (advance_drawn hdrawn).2 c t' hcall hstage
    | inr hrest =>
      obtain ⟨j, hne, hj⟩ := hrest
      exact h.loneCalls.disjoint hj hi hne x hdrawn hin

theorem Ascending.advance (horderly : Orderly (s.moved settings service i call)) :
    Ascending service drawn (log ++ (call.accepts service (s.blocked i) s.db).toList)
      (s.moved settings service i call) where
  toOrderly := horderly
  apps := (advance_totps settings service s.clock (s.blocked i) s.db call).keyed h.apps
  login := fun _ ht =>
    (advance_rows settings service s.clock (s.blocked i) s.db call).login h.login ht
  current := h.moved_current hi
  drawnApps := by
    intro x hx
    cases h.moved_secrets hi hx with
    | inl hold => exact h.drawnApps x hold
    | inr hnew =>
      obtain ⟨a, ha, hsecret⟩ := hnew
      exact h.accepted_drawn hi ha hsecret
  drawnLog := by
    intro a ha x hx
    cases List.mem_append.mp ha with
    | inl hold => exact h.drawnLog a hold x hx
    | inr hnew => exact h.accepted_drawn hi (Option.mem_toList.mp hnew) hx
  drawnWaits := fun x hx => h.drawnWaits x (h.moved_waits hi hx).1
  lone := h.moved_lone hi
  loneCalls := h.loneCalls.set fun x hx => .inl (.of_getElem? hi (advance_drawn hx).1)
  apart := h.moved_apart hi
  unused := by
    intro x hx
    obtain ⟨hbefore, hnot⟩ := h.moved_waits hi hx
    obtain ⟨happs, hlog⟩ := h.unused x hbefore
    refine ⟨fun hin => ?_, fun a ha => ?_⟩
    · cases h.moved_secrets hi hin with
      | inl hold => exact happs hold
      | inr hnew =>
        obtain ⟨a, ha, hsecret⟩ := hnew
        exact hnot a ha hsecret
    · cases List.mem_append.mp ha with
      | inl hold => exact hlog a hold
      | inr hnew => exact hnot a (Option.mem_toList.mp hnew)
  below := h.moved_below hi
  ascending := h.moved_ascending hi
end Advance

/-- Fewer calls, or calls that draw nothing more, and the same tables. -/
theorem Ascending.recalled {s' : Answering} (h : Ascending service drawn log s)
    (horderly : Orderly s') (htransactions : s'.db.transactions = s.db.transactions)
    (htotps : s'.db.totps = s.db.totps)
    (hcurrent : ∀ call ∈ s'.calls, call.Current service s'.db)
    (hdrawn : ∀ call ∈ s'.calls, ∀ x ∈ call.drawn service, ∃ other ∈ s.calls, x ∈ other.drawn service)
    (hlone : Locks.Exclusive (AnsweringCall.drawn service) s'.calls) :
    Ascending service drawn log s' := by
  have hsecrets : s'.db.secrets service = s.db.secrets service := by
    rw [MfaDb.secrets, htotps, MfaDb.secrets]
  have hwaits : ∀ x, s'.Waits service x → s.Waits service x := by
    intro x hx
    cases hx with
    | inl hrow => exact .inl (htransactions ▸ hrow)
    | inr hcall =>
      obtain ⟨call, hcall, hx⟩ := hcall
      exact .inr (hdrawn call hcall x hx)
  exact {
    toOrderly := horderly
    apps := htotps ▸ h.apps
    login := htransactions ▸ h.login
    current := hcurrent
    drawnApps := hsecrets ▸ h.drawnApps
    drawnLog := h.drawnLog
    drawnWaits := fun x hx => h.drawnWaits x (hwaits x hx)
    lone := htransactions ▸ h.lone
    loneCalls := hlone
    apart := by
      intro t ht call hcall x hx hin
      obtain ⟨other, hother, hin⟩ := hdrawn call hcall x hin
      exact h.apart t (htransactions ▸ ht) other hother x hx hin
    unused := by
      intro x hx
      obtain ⟨happs, hlog⟩ := h.unused x (hwaits x hx)
      exact ⟨hsecrets ▸ happs, hlog⟩
    below := htotps ▸ h.below
    ascending := h.ascending }

theorem Ascending.called (h : Ascending service drawn log s) (horderly : Orderly (s.call call))
    (hcurrent : call.Current service s.db) (hdrawn : call.drawn service = []) :
    Ascending service drawn log (s.call call) := by
  refine h.recalled horderly rfl rfl ?_ ?_ (h.loneCalls.append hdrawn)
  · intro other hother
    cases List.mem_append.mp hother with
    | inl hin => exact h.current other hin
    | inr he => exact List.mem_singleton.mp he ▸ hcurrent
  · intro other hother x hx
    cases List.mem_append.mp hother with
    | inl hin => exact ⟨other, hin, hx⟩
    | inr he =>
      rw [List.mem_singleton.mp he, hdrawn] at hx
      cases hx

theorem Ascending.draw (h : Ascending service drawn log s) (more : List String) :
    Ascending service (drawn ++ more) log s where
  toOrderly := h.toOrderly
  apps := h.apps
  login := h.login
  current := h.current
  drawnApps := fun x hx => List.mem_append_left _ (h.drawnApps x hx)
  drawnLog := fun a ha x hx => List.mem_append_left _ (h.drawnLog a ha x hx)
  drawnWaits := fun x hx => List.mem_append_left _ (h.drawnWaits x hx)
  lone := h.lone
  loneCalls := h.loneCalls
  apart := h.apart
  unused := h.unused
  below := h.below
  ascending := h.ascending

/-- A preparation draws a secret that no one has drawn. -/
theorem Ascending.prepared (h : Ascending service drawn log s) (c : Preparation)
    (horderly : Orderly (s.call (.prepare c)))
    (hnew : ∀ x ∈ (AnsweringCall.prepare c).drawn service, x ∉ drawn) :
    Ascending service (drawn ++ (AnsweringCall.prepare c).drawn service) log
      (s.call (.prepare c)) := by
  have hwaits : ∀ x, (s.call (.prepare c)).Waits service x →
      s.Waits service x ∨ x ∈ (AnsweringCall.prepare c).drawn service := by
    intro x hx
    cases hx with
    | inl hrow => exact .inl (.inl hrow)
    | inr hcall =>
      obtain ⟨call, hcall, hx⟩ := hcall
      cases List.mem_append.mp hcall with
      | inl hin => exact .inl (.inr ⟨call, hin, hx⟩)
      | inr he => exact .inr (List.mem_singleton.mp he ▸ hx)
  exact {
    toOrderly := horderly
    apps := h.apps
    login := h.login
    current := by
      intro call hcall
      cases List.mem_append.mp hcall with
      | inl hin => exact h.current call hin
      | inr he =>
        rw [List.mem_singleton.mp he]
        intro c' t encrypted step factors hc
        cases hc
    drawnApps := fun x hx => List.mem_append_left _ (h.drawnApps x hx)
    drawnLog := fun a ha x hx => List.mem_append_left _ (h.drawnLog a ha x hx)
    drawnWaits := by
      intro x hx
      cases hwaits x hx with
      | inl hold => exact List.mem_append_left _ (h.drawnWaits x hold)
      | inr hin => exact List.mem_append_right _ hin
    lone := h.lone
    loneCalls := by
      refine h.loneCalls.append_of_fresh fun x hx call hcall hin => ?_
      exact hnew x hx (h.drawnWaits x (.inr ⟨call, hcall, hin⟩))
    apart := by
      intro t ht call hcall x hx hin
      cases List.mem_append.mp hcall with
      | inl hold => exact h.apart t ht call hold x hx hin
      | inr he =>
        rw [List.mem_singleton.mp he] at hin
        exact hnew x hin (h.drawnWaits x (.inl ⟨t, ht, hx⟩))
    unused := by
      intro x hx
      cases hwaits x hx with
      | inl hold => exact h.unused x hold
      | inr hin =>
        refine ⟨fun happs => hnew x hin (h.drawnApps x happs), fun a ha hsecret => ?_⟩
        exact hnew x hin (h.drawnLog a ha x hsecret)
    below := h.below
    ascending := h.ascending }

theorem prepare_drawn (transactionId : Uuid) (method : MfaMethod) (label : String)
    (challenge pendingSecret : Bytes) (clock : Instant) :
    (AnsweringCall.prepare ⟨transactionId, method, label, challenge, pendingSecret, clock,
      .select⟩).drawn service = (AnsweringEvent.drawsSecret service (.ceremony
        (.prepare transactionId method label challenge pendingSecret))).toList := by
  cases method <;> rfl

/-- Every step, if it draws a secret that has not been drawn. -/
theorem Ascending.step (h : Ascending service drawn log s) (e : AnsweringEvent)
    (hnew : ∀ x ∈ e.drawsSecret service, x ∉ drawn) :
    Ascending service (drawn ++ (e.drawsSecret service).toList)
      (log ++ (s.accepted service e).toList) (answeringStep settings service s e) := by
  have horderly : Orderly (answeringStep settings service s e) := h.toOrderly.step e
  have idle : ∀ c : AnsweringCall, (∀ answer : Answer, c = .answer answer → answer.stage = .select) →
      c.Current service s.db := by
    intro c hc answer t encrypted step factors he hstage
    rw [hc answer he] at hstage
    cases hstage
  have quiet : e.drawsSecret service = none → s.accepted service e = none →
      Ascending service drawn log (answeringStep settings service s e) →
      Ascending service (drawn ++ (e.drawsSecret service).toList)
        (log ++ (s.accepted service e).toList) (answeringStep settings service s e) := by
    intro hdraws haccepted h
    rw [hdraws, haccepted]
    simpa using h
  cases e with
  | bank bank =>
    exact quiet rfl rfl (h.recalled horderly rfl rfl h.current
      (fun call hcall x hx => ⟨call, hcall, hx⟩) h.loneCalls)
  | ceremony e =>
    cases e with
    | tick elapsed =>
      exact quiet rfl rfl (h.recalled horderly rfl rfl h.current
        (fun call hcall x hx => ⟨call, hcall, hx⟩) h.loneCalls)
    | login userId transactionId challenge now =>
      refine quiet rfl rfl ?_
      simp only [answeringStep] at horderly ⊢
      split at horderly
      · exact h.called horderly (idle _ fun answer he => by cases he) rfl
      · exact h
    | beginEnrollment userId role transactionId source now =>
      refine quiet rfl rfl ?_
      simp only [answeringStep] at horderly ⊢
      split_ifs at horderly ⊢
      · exact h.called horderly (idle _ fun answer he => by cases he) rfl
      · exact h
    | prepare transactionId method label challenge pendingSecret =>
      have hprepared := h.prepared ⟨transactionId, method, label, challenge, pendingSecret, s.clock,
        .select⟩ horderly
      rw [prepare_drawn] at hprepared
      simp only [Answering.accepted, Option.toList_none, List.append_nil]
      exact hprepared fun x hx => hnew x (Option.mem_toList.mp hx)
    | complete =>
      refine quiet rfl rfl (h.called horderly (idle _ fun answer he => ?_) rfl)
      cases he
      rfl
    | remove => exact quiet rfl rfl (h.called horderly (idle _ fun answer he => by cases he) rfl)
    | advance i =>
      simp only [answeringStep, Answering.accepted, AnsweringEvent.drawsSecret, Option.toList_none,
        List.append_nil] at horderly ⊢
      cases hi : s.calls[i]? with
      | none => simpa using h
      | some call =>
        simp only [hi] at horderly
        exact h.advance hi horderly
    | crash i =>
      refine quiet rfl rfl (h.recalled horderly rfl rfl ?_ ?_ (h.loneCalls.set fun x hx => by
        cases hx))
      · intro call hcall
        cases Locks.mem_set hcall with
        | inl he => exact he ▸ idle _ fun answer he => by cases he
        | inr hrest =>
          obtain ⟨j, -, hj⟩ := hrest
          exact h.current call (List.mem_of_getElem? hj)
      · intro call hcall x hx
        cases Locks.mem_set hcall with
        | inl he =>
          rw [he] at hx
          cases hx
        | inr hrest =>
          obtain ⟨j, -, hj⟩ := hrest
          exact ⟨call, List.mem_of_getElem? hj, hx⟩
end Steps

theorem ascending_start (service : MfaService) {db : MfaDb} (clock : Instant)
    (hnone : db.transactions = []) (happs : Keyed TotpCredential.userId db.totps) :
    Ascending service (db.secrets service) [] (Answering.start db clock) := by
  have nowhere : ∀ t, t ∉ (Answering.start db clock).db.transactions := by
    simp [Answering.start, hnone]
  have idle : ∀ call, call ∉ (Answering.start db clock).calls := by
    intro call hcall
    cases hcall
  have waits : ∀ x, ¬(Answering.start db clock).Waits service x := by
    intro x hx
    cases hx with
    | inl hrow =>
      obtain ⟨t, ht, -⟩ := hrow
      exact nowhere t ht
    | inr hcall =>
      obtain ⟨call, hcall, -⟩ := hcall
      exact idle call hcall
  exact {
    toOrderly := orderly_start clock hnone
    apps := happs
    login := fun t ht => absurd ht (nowhere t)
    current := fun call hcall => absurd hcall (idle call)
    drawnApps := fun _ hx => hx
    drawnLog := fun _ ha => absurd ha List.not_mem_nil
    drawnWaits := fun x hx => absurd hx (waits x)
    lone := fun t ht => absurd ht (nowhere t)
    loneCalls := Locks.exclusive_nil
    apart := fun t ht => absurd ht (nowhere t)
    unused := fun x hx => absurd hx (waits x)
    below := fun _ ha => absurd ha List.not_mem_nil
    ascending := fun _ _ => List.Pairwise.nil }

/-- For every order of the statements of any calls and whatever the clocks say: the time-steps
of the codes that are accepted of a user under one secret, that of its enrolment the first, are
strictly increasing, if no secret is drawn twice. -/
theorem totp_steps_increase (settings : MfaSettings) (service : MfaService) (db : MfaDb)
    (clock : Instant) (es : List AnsweringEvent) (hnone : db.transactions = [])
    (happs : Keyed TotpCredential.userId db.totps)
    (hfresh : (es.filterMap (AnsweringEvent.drawsSecret service)).Nodup)
    (hnew : ∀ x ∈ es.filterMap (AnsweringEvent.drawsSecret service), x ∉ db.secrets service) :
    ∀ userId secret, (stepsOf service userId secret
      (Runs.collect (answeringStep settings service) (Answering.accepted service)
        (Answering.start db clock) es)).Pairwise (· < ·) := by
  have hrun : (es.filterMap (AnsweringEvent.drawsSecret service)).Nodup →
      (∀ x ∈ es.filterMap (AnsweringEvent.drawsSecret service), x ∉ db.secrets service) →
      Ascending service (db.secrets service ++ es.filterMap (AnsweringEvent.drawsSecret service))
        (Runs.collect (answeringStep settings service) (Answering.accepted service)
          (Answering.start db clock) es)
        (Runs.run (answeringStep settings service) (Answering.start db clock) es) := by
    refine Runs.collect_invariant
      (H := fun past log s => (past.filterMap (AnsweringEvent.drawsSecret service)).Nodup →
        (∀ x ∈ past.filterMap (AnsweringEvent.drawsSecret service), x ∉ db.secrets service) →
        Ascending service
          (db.secrets service ++ past.filterMap (AnsweringEvent.drawsSecret service)) log s)
      ?_ (fun _ _ => by simpa using ascending_start service clock hnone happs) es
    intro past log s e h hfresh hnew
    have hdraws : (past ++ [e]).filterMap (AnsweringEvent.drawsSecret service) =
        past.filterMap (AnsweringEvent.drawsSecret service) ++
          (e.drawsSecret service).toList := by
      rw [List.filterMap_append, List.filterMap_cons, List.filterMap_nil]
      cases e.drawsSecret service <;> rfl
    rw [hdraws] at hfresh hnew ⊢
    obtain ⟨hpast, -, hapart⟩ := List.nodup_append.mp hfresh
    have hsofar := h hpast fun x hx => hnew x (List.mem_append_left _ hx)
    rw [← List.append_assoc]
    refine hsofar.step e fun x hx hin => ?_
    have hx' := Option.mem_toList.mpr hx
    cases List.mem_append.mp hin with
    | inl hstored => exact hnew x (List.mem_append_right _ hx') hstored
    | inr hdrawn => exact hapart x hdrawn x hx' rfl
  exact (hrun hfresh hnew).ascending

/-- `enrolmentService` with the code of the next time-step. -/
def steppingService : MfaService where
  webauthn := enrolmentService.webauthn
  pyotp := { enrolmentService.pyotp with
    codeAt := fun secret time =>
      if time / 30 = 56666667 ∧ secret = firstSecret then "661763"
      else enrolmentService.pyotp.codeAt secret time }
  decrypt := enrolmentService.decrypt

/-- An enrolment, and two logins at once with the code of the step after it. -/
def racingLogins : List CeremonyEvent :=
  .login adminUserId 1 [] sampleNow :: List.replicate 4 (.advance 0) ++
  .prepare 1 .totp "" [] firstToken :: List.replicate 3 (.advance 1) ++
  .complete 1 (.totp "406058") 0 sampleNow :: List.replicate 3 (.advance 2) ++
  .login adminUserId 2 [] sampleNow :: List.replicate 4 (.advance 3) ++
  .login adminUserId 3 [] sampleNow :: List.replicate 4 (.advance 4) ++
  [.complete 2 (.totp "661763") 0 sampleNow, .complete 3 (.totp "661763") 0 sampleNow, .advance 5,
    .advance 6, .advance 5, .advance 6, .advance 5, .advance 6, .advance 6]

theorem totp_steps_increase_raced :
    let log := Runs.collect (answeringStep enrolmentSettings steppingService)
      (Answering.accepted steppingService) (Answering.start unenrolledDb sampleNow)
      (racingLogins.map .ceremony)
    stepsOf steppingService adminUserId firstSecret log = [56666666, 56666667] ∧
    ∀ userId secret, (stepsOf steppingService userId secret log).Pairwise (· < ·) :=
  ⟨by decide +kernel, totp_steps_increase enrolmentSettings steppingService unenrolledDb sampleNow
    (racingLogins.map .ceremony) rfl keyed_nil (by decide +kernel)
    (fun _ _ => List.not_mem_nil)⟩
end Bantam
