import Bantam.Sessions

/-! What a step can do: what a ceremony writes to the revocations, to the users and to the
sources of the requests, and what an event makes of the system. -/
namespace Bantam
open Tables

/-! What is read of the claims of a token. -/

namespace AuthService

/-- What `parse_with_claims` has read of claims that pass its checks. -/
structure ClaimsRead (c : Claims) (parsed : ParsedAccessToken) : Prop where
  role : allowedRole c.role = some parsed.principal.role
  userId : Uuid.parse c.sub = some parsed.principal.userId
  jti : Uuid.parse c.jti = some parsed.jti
  expiresAt : parsed.expiresAt = fromTimestamp c.exp
  authMethods : parsed.authMethods = c.amr
  mfaAt : parsed.mfaAt = c.mfaAt.map fromTimestamp
  factor : parsed.mfaAt.isSome = hasFactor parsed.authMethods

theorem readClaims_read {c : Claims} {parsed : ParsedAccessToken}
    (h : readClaims c = some parsed) : ClaimsRead c parsed := by
  simp only [readClaims, Option.bind_eq_bind, Option.bind_eq_some_iff] at h
  obtain ⟨role, hrole, h⟩ := h
  split_ifs at h with hmethods hfactor hcustomer
  simp only [Option.bind_eq_some_iff] at h
  obtain ⟨userId, huserId, h⟩ := h
  have hsome : (c.mfaAt.map fromTimestamp).isSome = hasFactor c.amr := by
    rw [← Option.not_isNone, not_not.mp hfactor, Bool.not_not]
  split at h <;>
    · obtain ⟨customerId, -, h⟩ := Option.bind_eq_some_iff.mp h
      obtain ⟨jti, hjti, h⟩ := Option.bind_eq_some_iff.mp h
      cases h
      exact ⟨hrole, huserId, hjti, rfl, rfl, rfl, hsome⟩

end AuthService

/-! What a ceremony writes to the revocations and to the users, and from which source. -/

namespace MfaTransaction

/-- The token that an enrolment was begun with, and its expiry. -/
def source (t : MfaTransaction) : Option (Uuid × Instant) :=
  match t.sourceJti, t.sourceExpiresAt with
  | some jti, some expiresAt => some (jti, expiresAt)
  | _, _ => none

@[simp] theorem source_fail (t : MfaTransaction) : t.fail.source = t.source := by
  unfold fail
  split_ifs <;> rfl

@[simp] theorem source_consume (t : MfaTransaction) (now : Instant) :
    (t.consume now).source = t.source := rfl

@[simp] theorem source_prepare (method : MfaMethod) (label : String)
    (challenge pendingSecret : Bytes) (t : MfaTransaction) :
    (t.prepare method label challenge pendingSecret).source = t.source := by
  cases method <;> rfl

end MfaTransaction

/-- The revocations may gain one, of a token that an enrolment was begun with, and the users
are as they were but for whether MFA is enabled. -/
structure Settled (db db' : MfaDb) : Prop where
  revocations : db'.revocations = db.revocations ∨
    ∃ t ∈ db.transactions, ∃ source, t.source = some source ∧
      db'.revocations = (db.insertRevocation ⟨source.1, t.userId, source.2⟩).revocations
  bank : db'.bank = db.bank ∨ ∃ userId enabled, db'.bank = (db.setMfaEnabled userId enabled).bank

theorem settled_same {db db' : MfaDb} (hrows : db'.revocations = db.revocations)
    (hbank : db'.bank = db.bank) : Settled db db' := ⟨.inl hrows, .inl hbank⟩

section Completions
variable {service : MfaService} {draw : FactorDraw} {t : MfaTransaction} {db db' mid : MfaDb}
  {outcome : Option MfaFailure × MfaDb} {transactionId : Uuid} {response : FactorResponse}

theorem insertRevocation_congr {row : SessionRevocation} (h : mid.revocations = db.revocations) :
    (mid.insertRevocation row).revocations = (db.insertRevocation row).revocations := by
  unfold MfaDb.insertRevocation
  rw [h]
  split_ifs
  · exact h
  · rfl

theorem insertRevocation_bank (row : SessionRevocation) :
    (db.insertRevocation row).bank = db.bank := by
  unfold MfaDb.insertRevocation
  split_ifs <;> rfl

theorem insertRevocation_passkeys (row : SessionRevocation) :
    (db.insertRevocation row).passkeys = db.passkeys := by
  unfold MfaDb.insertRevocation
  split_ifs <;> rfl

theorem FactorWritten.frame (h : FactorWritten t db mid) :
    mid.revocations = db.revocations ∧ mid.bank = db.bank := by
  cases h with
  | passkeyUsed | totpUsed | passkeyEnrolled => exact ⟨rfl, rfl⟩
  | totpEnrolled row =>
    unfold MfaService.upsertTotp
    split_ifs <;> exact ⟨rfl, rfl⟩

theorem Verified.frame (h : Verified t db outcome) :
    outcome.2.revocations = db.revocations ∧ outcome.2.bank = db.bank := by
  obtain ⟨failure, mid⟩ := outcome
  cases failure with
  | some failure =>
    cases h with
    | inl h => exact ⟨congrArg MfaDb.revocations h, congrArg MfaDb.bank h⟩
    | inr h =>
      simp only at h ⊢
      rw [h]
      exact ⟨rfl, rfl⟩
  | none => exact FactorWritten.frame h

theorem consume_settled {method : String} {now : Instant} {completion : MfaCompletion}
    (h : mid.consume t method now = .ok (completion, db')) :
    (db'.revocations = mid.revocations ∨ ∃ source, t.source = some source ∧
      db'.revocations = (mid.insertRevocation ⟨source.1, t.userId, source.2⟩).revocations) ∧
    db'.bank = (mid.setMfaEnabled t.userId true).bank := by
  unfold MfaDb.consume at h
  simp only at h
  split at h
  · cases h
  · split_ifs at h
    cases h
    rw [MfaDb.revokeSource_eq]
    cases hj : t.sourceJti with
    | none => exact ⟨.inl rfl, rfl⟩
    | some jti =>
      cases hx : t.sourceExpiresAt with
      | none => exact ⟨.inl rfl, rfl⟩
      | some expiresAt =>
        refine ⟨.inr ⟨(jti, expiresAt), ?_, insertRevocation_congr rfl⟩, insertRevocation_bank _⟩
        unfold MfaTransaction.source
        rw [hj, hx]

theorem commit_settled {method : String}
    {verify : MfaTransaction → Except MfaError (Option MfaFailure × MfaDb)}
    (hverify : ∀ t outcome, verify t = .ok outcome → Verified t db outcome) :
    Settled db (MfaService.commit db (do
      let t ← db.transactionForUpdate transactionId draw.databaseNow
      let outcome ← verify t
      MfaService.settle draw t method outcome)).2 := by
  cases ht : db.transactionForUpdate transactionId draw.databaseNow with
  | error e => exact settled_same rfl rfl
  | ok t =>
    cases hv : verify t with
    | error e =>
      simp only [bind, Except.bind, hv]
      exact settled_same rfl rfl
    | ok outcome =>
      obtain ⟨hrows, hbank⟩ := (hverify t outcome hv).frame
      obtain ⟨failure, mid⟩ := outcome
      cases failure with
      | some failure =>
        simp only [bind, Except.bind, hv, MfaService.settle, MfaService.commit]
        exact settled_same hrows hbank
      | none =>
        cases hc : mid.consume t method draw.databaseNow with
        | error e =>
          simp only [bind, Except.bind, hv, MfaService.settle, hc, MfaService.commit]
          exact settled_same rfl rfl
        | ok result =>
          obtain ⟨completion, db'⟩ := result
          simp only [bind, Except.bind, hv, MfaService.settle, hc, MfaService.commit, pure,
            Except.pure]
          obtain ⟨hrevoked, henabled⟩ := consume_settled hc
          refine ⟨?_, .inr ⟨t.userId, true, ?_⟩⟩
          · cases hrevoked with
            | inl h => exact .inl (h.trans hrows)
            | inr h =>
              obtain ⟨source, hsource, h⟩ := h
              have hmem : t ∈ db.transactions := lookup_mem (transactionForUpdate_found ht).1
              exact .inr ⟨t, hmem, source, hsource, h.trans (insertRevocation_congr hrows)⟩
          · rw [henabled]
            unfold MfaDb.setMfaEnabled
            rw [hbank]

theorem complete_settled :
    Settled db (service.complete draw transactionId response db).2 := by
  cases response with
  | passkey credential =>
    simp only [MfaService.complete, MfaService.completePasskey]
    split
    · exact settled_same rfl rfl
    · rename_i rawId _
      rw [(passkeyHandler_end _).2]
      exact commit_settled fun t outcome h => verifyPasskey_ok h
  | totp code =>
    simp only [MfaService.complete, MfaService.completeTotp]
    split_ifs
    · exact settled_same rfl rfl
    · exact commit_settled fun t outcome h => verifyTotp_ok h

/-- A completion leaves the sources of the requests. -/
theorem FactorEnd.sources {now : Instant} {ok : Bool} (h : FactorEnd transactionId now db ok db') :
    ∀ u ∈ db'.transactions, ∃ t ∈ db.transactions, t.source = u.source := by
  cases h with
  | refused => exact fun u hu => ⟨u, hu, rfl⟩
  | failed =>
    intro u hu
    obtain ⟨t, ht, rfl⟩ := mem_updateWhere.mp hu
    refine ⟨t, ht, ?_⟩
    split_ifs <;> simp
  | completed found written consumed =>
    rw [consumed.transactions, written.transactions]
    intro u hu
    obtain ⟨t, ht, rfl⟩ := mem_updateWhere.mp hu
    refine ⟨t, ht, ?_⟩
    split_ifs <;> simp
end Completions

/-- The token that an enrolment is about to be begun with, and its expiry. -/
def BeginStage.source : BeginStage → Option (Uuid × Instant)
  | .delete new | .insert new => new.source
  | _ => none

def MfaCall.source : MfaCall → Option (Uuid × Instant)
  | .begin c => c.stage.source
  | _ => none

section Calls
variable {settings : MfaSettings} {service : MfaService} {databaseNow : Instant}
  {blocked : MfaLock → Bool} {db : MfaDb} {call : MfaCall} {source : Uuid × Instant}

theorem begin_settled (c : Begin) :
    Settled db (c.advance settings databaseNow blocked db).2 := by
  unfold Begin.advance
  cases c.stage with
  | passkeyExists | ended => exact settled_same rfl rfl
  | totpExists passkey =>
    simp only
    split
    · exact settled_same rfl rfl
    · split <;> exact settled_same rfl rfl
  | delete new =>
    simp only
    split_ifs <;> exact settled_same rfl rfl
  | insert new =>
    simp only
    split
    · exact settled_same rfl rfl
    · rename_i db' hi
      rw [(insertTransaction_ok hi).2]
      exact settled_same rfl rfl

theorem prepare_settled (c : Preparation) : Settled db (c.advance settings blocked db).2 := by
  unfold Preparation.advance
  cases c.stage with
  | select =>
    simp only
    split_ifs
    · exact settled_same rfl rfl
    · exact settled_same rfl rfl
    · split <;> exact settled_same rfl rfl
  | existing | update | ended => exact settled_same rfl rfl

theorem advance_settled (settings : MfaSettings) (service : MfaService) (databaseNow : Instant)
    (blocked : MfaLock → Bool) (db : MfaDb) (call : MfaCall) :
    Settled db (call.advance settings service databaseNow blocked db).2 := by
  cases call with
  | begin c => exact begin_settled c
  | prepare c => exact prepare_settled c
  | complete c =>
    simp only [MfaCall.advance, FactorCall.advance]
    split_ifs
    · exact complete_settled
    · exact settled_same rfl rfl
  | remove userId role c =>
    simp only [MfaCall.advance]
    cases removal_frame userId role (fun l => blocked (l.ofUser userId)) c db with
    | inl h =>
      rw [h]
      exact settled_same rfl rfl
    | inr h =>
      obtain ⟨enabled, h⟩ := h
      rw [h]
      cases c.target <;> exact ⟨.inl rfl, .inr ⟨userId, enabled, rfl⟩⟩
  | crashed => exact settled_same rfl rfl

theorem row_source (userId transactionId : Uuid) (now databaseNow : Instant)
    (new : NewTransaction) :
    (settings.row userId transactionId now databaseNow new).source = new.source := by
  cases new with
  | login challenge => rfl
  | enrollChoice source => cases source <;> rfl

/-- The sources of the requests after a step of a call: those that were there, or its own. -/
theorem advance_sources (settings : MfaSettings) (service : MfaService)
    (databaseNow : Instant) (blocked : MfaLock → Bool) (db : MfaDb) (call : MfaCall) :
    ∀ u ∈ (call.advance settings service databaseNow blocked db).2.transactions,
      (∃ t ∈ db.transactions, t.source = u.source) ∨ call.source = u.source := by
  intro u hu
  cases call with
  | complete c =>
    simp only [MfaCall.advance, FactorCall.advance] at hu
    split_ifs at hu
    · have hend : FactorEnd c.transactionId c.draw.databaseNow db (c.complete service db).1.isOk
          (c.complete service db).2 := complete_end
      exact .inl (hend.sources u hu)
    · exact .inl ⟨u, hu, rfl⟩
  | begin c =>
    have hstep := (begin_frame settings service databaseNow blocked db c).1
    simp only [MfaCall.advance] at hu
    generalize (c.advance settings databaseNow blocked db).2.transactions = rows at hu hstep
    cases hstep with
    | same => exact .inl ⟨u, hu, rfl⟩
    | deleted => exact .inl ⟨u, (List.mem_filter.mp hu).1, rfl⟩
    | inserted c new hstage =>
      cases List.mem_append.mp hu with
      | inl hu => exact .inl ⟨u, hu, rfl⟩
      | inr hu =>
        rw [List.mem_singleton.mp hu, row_source]
        exact .inr (by rw [MfaCall.source, hstage, BeginStage.source])
  | prepare c =>
    have hstep := (prepare_frame settings service databaseNow blocked db c).1
    simp only [MfaCall.advance] at hu
    generalize (c.advance settings blocked db).2.transactions = rows at hu hstep
    cases hstep with
    | same => exact .inl ⟨u, hu, rfl⟩
    | prepared =>
      obtain ⟨t, ht, rfl⟩ := mem_updateWhere.mp hu
      refine .inl ⟨t, ht, ?_⟩
      split_ifs <;> simp
  | remove userId role c =>
    simp only [MfaCall.advance] at hu
    cases removal_frame userId role (fun l => blocked (l.ofUser userId)) c db with
    | inl h =>
      rw [h] at hu
      exact .inl ⟨u, hu, rfl⟩
    | inr h =>
      obtain ⟨enabled, h⟩ := h
      rw [h, setMfaEnabled_transactions, revoke_transactions] at hu
      exact .inl ⟨u, hu, rfl⟩
  | crashed => exact .inl ⟨u, hu, rfl⟩

theorem login_source {role : Role} {challenge : Bytes} {methods : List MfaMethod}
    {new : NewTransaction} (h : loginTransaction role challenge methods = some new) :
    new.source = none := by
  unfold loginTransaction at h
  split_ifs at h <;> cases h <;> rfl

theorem begin_source {c : Begin}
    (h : (c.advance settings databaseNow blocked db).1.source = some source) :
    c.stage.source = some source := by
  unfold Begin.advance at h
  cases hs : c.stage with
  | passkeyExists =>
    rw [hs] at h
    cases h
  | totpExists passkey =>
    simp only [hs] at h
    cases hm : settings.factorMethods passkey (db.hasTotp c.userId) with
    | error failure =>
      rw [hm] at h
      cases h
    | ok methods =>
      simp only [hm] at h
      cases hl : loginTransaction c.role c.challenge methods with
      | none =>
        rw [hl] at h
        cases h
      | some new =>
        simp only [hl, BeginStage.source, login_source hl] at h
        cases h
  | delete new =>
    simp only [hs] at h
    split_ifs at h <;> exact h
  | insert new =>
    simp only [hs] at h
    split at h <;> cases h
  | ended result =>
    rw [hs] at h
    cases h

/-- A call comes to no source that it was not begun with. -/
theorem advance_source
    (h : (call.advance settings service databaseNow blocked db).1.source = some source) :
    call.source = some source := by
  cases call with
  | begin c => exact begin_source h
  | prepare | complete | remove | crashed => cases h
end Calls

/-! What a step of the system can do. -/

/-- A user who is not pending keeps their role. -/
def KeepsRoles (bank bank' : Db) : Prop :=
  ∀ id user, bank.findUser id = some user → user.role ≠ .pendingApproval →
    ∃ user', bank'.findUser id = some user' ∧ user'.role = user.role

section Roles
variable {bank bank' : Db} {db db' : MfaDb}

theorem keepsRoles_refl (bank : Db) : KeepsRoles bank bank := fun _ user h _ => ⟨user, h, rfl⟩

theorem keepsRoles_of_users (h : bank'.users = bank.users) : KeepsRoles bank bank' := by
  intro id user hfound _
  refine ⟨user, ?_, rfl⟩
  unfold Db.findUser at hfound ⊢
  rw [h]
  exact hfound

/-- An update of users that keeps their ids, and the roles of those who are not pending. -/
theorem keepsRoles_updateWhere (p : UserAccount → Bool) {f : UserAccount → UserAccount}
    (hf : ∀ u, (f u).userId = u.userId)
    (hrole : ∀ u, u.role ≠ .pendingApproval → (f u).role = u.role) :
    KeepsRoles bank { bank with users := updateWhere p f bank.users } := by
  intro id user hfound hpending
  refine ⟨if p user then f user else user, ?_, ?_⟩
  · unfold Db.findUser at hfound ⊢
    rw [lookup_updateWhere hf, hfound]
    rfl
  · split_ifs
    · exact hrole user hpending
    · rfl

theorem Settled.roles (h : Settled db db') : KeepsRoles db.bank db'.bank := by
  cases h.bank with
  | inl h => exact keepsRoles_of_users (congrArg Db.users h)
  | inr h =>
    obtain ⟨userId, enabled, h⟩ := h
    rw [h]
    exact keepsRoles_updateWhere _ (fun _ => rfl) fun _ _ => rfl

theorem insertUser_roles {user : UserAccount} (h : bank.insertUser user = .ok bank') :
    KeepsRoles bank bank' := by
  simp only [Db.insertUser, bind_eq_ok, pure, Except.pure, Except.ok.injEq] at h
  obtain ⟨_, -, _, -, _, -, _, -, rfl⟩ := h
  intro id found hfound _
  exact ⟨found, lookup_append_of_some _ hfound, rfl⟩

theorem decided_userId (approve : Bool) (user : UserAccount) :
    (user.decided approve).userId = user.userId := by
  unfold UserAccount.decided
  split_ifs <;> rfl

theorem decided_role (approve : Bool) (user : UserAccount) (h : user.role ≠ .pendingApproval) :
    (user.decided approve).role = user.role := by
  unfold UserAccount.decided
  rw [dif_neg h]

theorem recordAudits_bank (events : List AuditEvent) (db : MfaDb) :
    ∃ bank, (recordAudits events db).2 = db.withBank bank ∧ bank.users = db.bank.users := by
  induction events generalizing db with
  | nil => exact ⟨db.bank, rfl, rfl⟩
  | cons event events ih =>
    rw [recordAudits_cons]
    split_ifs
    · exact ⟨db.bank, rfl, rfl⟩
    · obtain ⟨bank, hdb, husers⟩ := ih
        { db with bank := { db.bank with audit := db.bank.audit ++ [event] } }
      exact ⟨bank, hdb, husers⟩

theorem finishMfaSession_bank (auth : AuthService) (jwt : Jwt) (draw : SessionDraw)
    (completion : MfaCompletion) (db : MfaDb) :
    ∃ bank, (finishMfaSession auth jwt draw completion db).2 = db.withBank bank ∧
      bank.users = db.bank.users := by
  obtain ⟨bank, hdb, husers⟩ := recordAudits_bank (sessionAudits draw completion) db
  refine ⟨bank, ?_, husers⟩
  rw [← hdb]
  unfold finishMfaSession
  split <;> rename_i h <;> rw [h]
end Roles

/-- What an event makes of the system: nothing, a step of the ceremonies, a change of the banking
tables with a token that it may issue, or a step of a request. -/
inductive SessionMove (service : SessionService) (s : Sessions) : SessionEvent → Sessions → Prop where
  | idle (e : SessionEvent) : service.issues s e = none → SessionMove service s e s
  | ceremony (e : CeremonyEvent) (h : e.withoutToken = true) :
      SessionMove service s (.ceremony e) (service.ceremony s e)
  | enroll (k : Nat) (r : AuthRequest) (parsed : ParsedAccessToken) (transactionId : Uuid)
      (now : Instant) (hr : s.requests[k]? = some r) (hstage : r.stage = .admitted parsed) :
      SessionMove service s (.enroll k transactionId now)
        ((service.ceremony s (.beginEnrollment parsed.principal.userId parsed.principal.role
          transactionId (parsed.jti, parsed.expiresAt) now)).move k r .ended)
  | remove (k : Nat) (r : AuthRequest) (parsed : ParsedAccessToken) (target : Factor)
      (hr : s.requests[k]? = some r) :
      SessionMove service s (.remove k target)
        ((service.ceremony s (.remove parsed.principal.userId parsed.principal.role target)).move
          k r .ended)
  | bank (e : SessionEvent) (bank : Db) (answered : List Nat) (h : KeepsRoles s.db.bank bank) :
      SessionMove service s e
        { s.withDb (s.db.withBank bank) with
          issued := s.issued ++ (service.issues s e).toList
          answered := answered }
  | request (token : String) :
      SessionMove service s (.request token)
        { s with requests := s.requests ++ [⟨token, .decode⟩] }
  | proceed (k : Nat) (r : AuthRequest) (hr : s.requests[k]? = some r) :
      SessionMove service s (.proceed k) (service.proceed s k r)
  | logout (k : Nat) (r : AuthRequest) (parsed : ParsedAccessToken)
      (hr : s.requests[k]? = some r) (hstage : r.stage = .admitted parsed) :
      SessionMove service s (.logout k) (s.move k r (.prune parsed))

section Moves
variable {service : SessionService} {s : Sessions}

theorem admitted_eq_some {k : Nat} {parsed : ParsedAccessToken} (h : s.admitted k = some parsed) :
    ∃ r, s.requests[k]? = some r ∧ r.stage = .admitted parsed := by
  unfold Sessions.admitted at h
  split at h
  · rename_i token p hr
    cases h
    exact ⟨_, hr, rfl⟩
  · cases h

theorem withBank_self (s : Sessions) : s.withDb (s.db.withBank s.db.bank) = s := rfl

theorem step_move (service : SessionService) (s : Sessions) (e : SessionEvent) :
    SessionMove service s e (service.step s e) := by
  cases e with
  | ceremony e =>
    simp only [SessionService.step]
    split_ifs with h
    · exact .ceremony e h
    · exact .idle _ rfl
  | register user =>
    simp only [SessionService.step]
    split
    · rename_i bank hbank
      have hmove := @SessionMove.bank service s (.register user) bank s.answered
        (insertUser_roles hbank)
      simp only [SessionService.issues, Option.toList_none, List.append_nil] at hmove
      exact hmove
    · exact .idle _ rfl
  | decide userId approve =>
    have hmove := @SessionMove.bank service s (.decide userId approve)
      { s.db.bank with
        users := updateWhere (fun u => u.userId = userId) (UserAccount.decided approve)
          s.db.bank.users } s.answered
      (keepsRoles_updateWhere _ (decided_userId approve) (decided_role approve))
    simp only [SessionService.issues, Option.toList_none, List.append_nil] at hmove
    exact hmove
  | issue i tokenId =>
    simp only [SessionService.step]
    split
    · rename_i token ht
      have hmove := @SessionMove.bank service s (.issue i tokenId) s.db.bank
        (i :: s.answered) (keepsRoles_refl _)
      simpa [SessionService.issues, ht, withBank_self] using hmove
    · rename_i hnone
      exact .idle _ hnone
  | finish i draw =>
    simp only [SessionService.step]
    split
    · rename_i completion hc
      split_ifs with hfree
      · obtain ⟨bank, hdb, husers⟩ := finishMfaSession_bank service.auth service.jwt
          (s.timed draw) completion s.db
        rw [hdb]
        exact .bank (.finish i draw) bank (i :: s.answered) (keepsRoles_of_users husers)
      · exact .idle _ (by simp [SessionService.issues, SessionService.factorToken, hfree])
    · rename_i hnone
      exact .idle _ (by simp [SessionService.issues, SessionService.factorToken, hnone])
  | request token => exact .request token
  | proceed k =>
    simp only [SessionService.step]
    split
    · rename_i r hr
      exact .proceed k r hr
    · exact .idle _ rfl
  | logout k =>
    simp only [SessionService.step]
    split
    · rename_i parsed r hadmitted hr
      obtain ⟨r', hr', hstage⟩ := admitted_eq_some hadmitted
      rw [hr] at hr'
      cases hr'
      exact .logout k r parsed hr hstage
    · exact .idle _ rfl
  | enroll k transactionId now =>
    simp only [SessionService.step]
    split
    · rename_i parsed r hadmitted hr
      obtain ⟨r', hr', hstage⟩ := admitted_eq_some hadmitted
      rw [hr] at hr'
      cases hr'
      split_ifs
      · exact .enroll k r parsed transactionId now hr hstage
      · exact .idle _ rfl
    · exact .idle _ rfl
  | remove k target =>
    simp only [SessionService.step]
    split
    · rename_i parsed r hadmitted hr
      split_ifs
      · exact .remove k r parsed target hr
      · exact .idle _ rfl
    · exact .idle _ rfl
theorem proceed_issued (service : SessionService) (s : Sessions) (k : Nat) (r : AuthRequest) :
    (service.proceed s k r).issued = s.issued := by
  unfold SessionService.proceed
  cases r.stage with
  | decode | user =>
    simp only
    split <;> rfl
  | lookup parsed =>
    simp only
    split_ifs <;> rfl
  | admitted | ended | prune | revoke => rfl

theorem issued_step (service : SessionService) (s : Sessions) (e : SessionEvent) :
    ∃ more, (service.step s e).issued = s.issued ++ more := by
  have hmove := step_move service s e
  generalize service.step s e = s' at hmove
  cases hmove with
  | idle | ceremony | enroll | remove | request | logout => exact ⟨[], (List.append_nil _).symm⟩
  | bank => exact ⟨_, rfl⟩
  | proceed k r =>
    exact ⟨[], (proceed_issued service s k r).trans (List.append_nil _).symm⟩
end Moves

/-! What requests have read. -/

/-- What a request has read of its token. -/
def RequestStage.parsed : RequestStage → Option ParsedAccessToken
  | .lookup parsed | .user parsed | .admitted parsed | .prune parsed | .revoke parsed => some parsed
  | .decode | .ended => none

/-- Only the service signs tokens: a text that decodes is one that it has issued, and decodes to
the claims that it was made from. -/
def Genuine (service : SessionService) (s : Sessions) (e : SessionEvent) : Prop :=
  ∀ r ∈ e.moves s, r.stage = .decode →
    ∀ c ∈ service.jwt.decode s.clock r.token service.auth.secret,
      ∃ token ∈ s.issued, token.text = r.token ∧ token.claims = c

instance (service : SessionService) (s : Sessions) (e : SessionEvent) :
    Decidable (Genuine service s e) :=
  inferInstanceAs (Decidable (∀ r ∈ e.moves s, r.stage = .decode →
    ∀ c ∈ service.jwt.decode s.clock r.token service.auth.secret,
      ∃ token ∈ s.issued, token.text = r.token ∧ token.claims = c))

/-- What a request has read is what the claims of its token say, which was issued. -/
def RequestsRead (s : Sessions) : Prop :=
  ∀ r ∈ s.requests, ∀ parsed, r.stage.parsed = some parsed →
    ∃ token ∈ s.issued, token.text = r.token ∧ AuthService.ClaimsRead token.claims parsed

section Requests
variable {service : SessionService} {s : Sessions} {e : SessionEvent} {q : AuthRequest}
  {parsed : ParsedAccessToken}

theorem move_requests {k : Nat} {r : AuthRequest} {stage : RequestStage}
    (hr : s.requests[k]? = some r) (hq : q ∈ (s.move k r stage).requests) :
    q ∈ s.requests ∨ (q.token = r.token ∧ q.stage = stage ∧ r ∈ s.requests) := by
  cases Locks.mem_set hq with
  | inl heq =>
    rw [heq]
    exact .inr ⟨rfl, rfl, List.mem_of_getElem? hr⟩
  | inr hother =>
    obtain ⟨j, -, hj⟩ := hother
    exact .inl (List.mem_of_getElem? hj)

/-- A request reads its token where it decodes it, and goes on with what it has read. -/
theorem proceed_requests {k : Nat} {r : AuthRequest} (hr : s.requests[k]? = some r)
    (hq : q ∈ (service.proceed s k r).requests) (hparsed : q.stage.parsed = some parsed) :
    (∃ r ∈ s.requests, r.token = q.token ∧ r.stage.parsed = some parsed) ∨
    (r.stage = .decode ∧ r.token = q.token ∧
      service.auth.readToken service.jwt s.clock r.token = some parsed) := by
  have moved : ∀ (t : Sessions) stage, t.requests = s.requests →
      q ∈ (t.move k r stage).requests →
      (stage.parsed = some parsed → r.stage.parsed = some parsed) →
      (∃ r ∈ s.requests, r.token = q.token ∧ r.stage.parsed = some parsed) := by
    intro t stage ht hq hkept
    cases move_requests (ht ▸ hr) hq with
    | inl hq => exact ⟨q, ht ▸ hq, rfl, hparsed⟩
    | inr hmoved =>
      obtain ⟨htoken, hstage, hmem⟩ := hmoved
      rw [hstage] at hparsed
      exact ⟨r, ht ▸ hmem, htoken.symm, hkept hparsed⟩
  unfold SessionService.proceed at hq
  cases hs : r.stage with
  | decode =>
    simp only [hs] at hq
    split at hq
    · rename_i p hread
      cases move_requests hr hq with
      | inl hq => exact .inl ⟨q, hq, rfl, hparsed⟩
      | inr hmoved =>
        obtain ⟨htoken, hstage, -⟩ := hmoved
        rw [hstage] at hparsed
        cases hparsed
        exact .inr ⟨rfl, htoken.symm, hread⟩
    · exact .inl (moved s _ rfl hq fun h => by cases h)
  | lookup p =>
    simp only [hs] at hq
    split_ifs at hq
    · exact .inl (moved s _ rfl hq fun h => by cases h)
    · exact .inl (moved s _ rfl hq fun h => hs ▸ h)
  | user p =>
    simp only [hs] at hq
    split at hq
    · exact .inl (moved s _ rfl hq fun h => hs ▸ h)
    · exact .inl (moved s _ rfl hq fun h => by cases h)
  | admitted p =>
    simp only [hs] at hq
    exact .inl ⟨q, hq, rfl, hparsed⟩
  | ended =>
    simp only [hs] at hq
    exact .inl ⟨q, hq, rfl, hparsed⟩
  | prune p =>
    simp only [hs] at hq
    exact .inl (moved _ _ rfl hq fun h => hs ▸ h)
  | revoke p =>
    simp only [hs] at hq
    exact .inl (moved _ _ rfl hq fun h => by cases h)

theorem RequestsRead.kept (h : RequestsRead s) {more : List Issued} {r : AuthRequest}
    (hr : r ∈ s.requests) (hparsed : r.stage.parsed = some parsed) :
    ∃ token ∈ s.issued ++ more, token.text = r.token ∧
      AuthService.ClaimsRead token.claims parsed := by
  obtain ⟨token, ht, hread⟩ := h r hr parsed hparsed
  exact ⟨token, List.mem_append_left _ ht, hread⟩

theorem RequestsRead.step (s : Sessions) (e : SessionEvent) (h : RequestsRead s)
    (hgenuine : Genuine service s e) : RequestsRead (service.step s e) := by
  intro q hq parsed hparsed
  have hmove := step_move service s e
  obtain ⟨more, hmore⟩ := issued_step service s e
  rw [hmore]
  clear hmore
  generalize service.step s e = s' at hmove hq
  cases hmove with
  | idle | ceremony | bank => exact h.kept hq hparsed
  | enroll k r p transactionId now hr hstage =>
    cases move_requests (s := service.ceremony s _) hr hq with
    | inl hq => exact h.kept hq hparsed
    | inr hmoved =>
      rw [hmoved.2.1] at hparsed
      cases hparsed
  | remove k r p target hr =>
    cases move_requests (s := service.ceremony s _) hr hq with
    | inl hq => exact h.kept hq hparsed
    | inr hmoved =>
      rw [hmoved.2.1] at hparsed
      cases hparsed
  | request token =>
    cases List.mem_append.mp hq with
    | inl hq => exact h.kept hq hparsed
    | inr hq =>
      rw [List.mem_singleton.mp hq] at hparsed
      cases hparsed
  | logout k r p hr hstage =>
    cases move_requests hr hq with
    | inl hq => exact h.kept hq hparsed
    | inr hmoved =>
      obtain ⟨htoken, hpruning, hmem⟩ := hmoved
      rw [hpruning] at hparsed
      rw [htoken]
      exact h.kept hmem (hstage ▸ hparsed)
  | proceed k r hr =>
    cases proceed_requests hr hq hparsed with
    | inl hold =>
      obtain ⟨r, hmem, htoken, hread⟩ := hold
      rw [← htoken]
      exact h.kept hmem hread
    | inr hnew =>
      obtain ⟨hstage, htoken, hread⟩ := hnew
      unfold AuthService.readToken at hread
      split_ifs at hread
      obtain ⟨c, hdecode, hclaims⟩ := Option.bind_eq_some_iff.mp hread
      obtain ⟨token, ht, htext, rfl⟩ := hgenuine r hr hstage c hdecode
      exact ⟨token, List.mem_append_left _ ht, htext.trans htoken,
        AuthService.readClaims_read hclaims⟩
end Requests
end Bantam
