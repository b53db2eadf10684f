import Bantam.Enrolment
import Bantam.SessionSteps

/-! What logins have read and what completed: the steps of a beginning and of a completion, and
what an event makes of the ceremonies. -/
namespace Bantam
open Tables

/-! What a step of the ceremonies makes of the logins. -/

section Ceremonies
variable {settings : MfaSettings} {service : MfaService} {c : Ceremonies} {e : CeremonyEvent}
  {i : Nat} {b : Begin}

/-- A beginning is as it was, has taken its next step, or is new: a login that is about to read
the factors of its user, or the enrolment of a session. -/
inductive BeginCase (settings : MfaSettings) (c : Ceremonies) (e : CeremonyEvent) (i : Nat) :
    Begin → Prop where
  | old {b : Begin} (h : c.calls[i]? = some (.begin b)) : BeginCase settings c e i b
  | moved (a : Begin) (he : e = .advance i) (ha : c.calls[i]? = some (.begin a)) :
      BeginCase settings c e i (a.become (a.advance settings c.clock (c.blocked i) c.db).1)
  | login {b : Begin} (user : UserAccount) (hstage : b.stage = .passkeyExists)
      (huser : c.loginUser b.userId = some user) (hrole : user.role = b.role) :
      BeginCase settings c e i b
  | enrollment {b : Begin} (new : NewTransaction) (hstage : b.stage = .delete new) :
      BeginCase settings c e i b

theorem begin_cases (h : (ceremonyStep settings service c e).calls[i]? = some (.begin b)) :
    BeginCase settings c e i b := by
  have begun : ∀ call : MfaCall, (c.call call).calls[i]? = some (.begin b) →
      c.calls[i]? = some (.begin b) ∨ call = .begin b := by
    intro call hcall
    simp only [Ceremonies.call, List.getElem?_append] at hcall
    split_ifs at hcall
    · exact .inl hcall
    · exact .inr (List.mem_singleton.mp (List.mem_of_getElem? hcall)).symm
  cases e with
  | tick elapsed => exact .old h
  | login userId transactionId challenge now =>
    simp only [ceremonyStep] at h
    split at h
    · rename_i user huser
      cases begun _ h with
      | inl h => exact .old h
      | inr h =>
        cases h
        exact .login user rfl huser rfl
    · exact .old h
  | beginEnrollment userId role transactionId source now =>
    simp only [ceremonyStep] at h
    split_ifs at h
    · cases begun _ h with
      | inl h => exact .old h
      | inr h =>
        cases h
        exact .enrollment _ rfl
    · exact .old h
  | prepare | complete | remove => exact .old ((begun _ h).resolve_right fun h => by cases h)
  | advance j =>
    simp only [ceremonyStep] at h
    split at h
    · rename_i call hj
      cases Locks.getElem?_set h with
      | inl hmoved =>
        obtain ⟨rfl, hb⟩ := hmoved
        cases call with
        | begin a =>
          cases hb
          exact .moved a rfl hj
        | prepare | complete | remove | crashed => cases hb
      | inr hother => exact .old hother.2
    · exact .old h
  | crash j =>
    cases Locks.getElem?_set h with
    | inl hmoved => cases hmoved.2
    | inr hother => exact .old hother.2

/-- A completion that succeeds is of its request's user. -/
theorem complete_user {response : FactorResponse} {draw : FactorDraw} {transactionId : Uuid}
    {db db' : MfaDb} {completion : MfaCompletion}
    (h : service.complete draw transactionId response db = (.ok completion, db')) :
    ∃ t, db.findTransaction transactionId = some t ∧ t.userId = completion.userId := by
  obtain ⟨t, ⟨failure, mid⟩, ht, hs⟩ := complete_settle h
  refine ⟨t, (transactionForUpdate_found ht).1, ?_⟩
  cases failure with
  | some failure => cases hs
  | none =>
    simp only [MfaService.settle, bind_eq_ok] at hs
    obtain ⟨⟨c, d⟩, hc, hs⟩ := hs
    cases hs
    unfold MfaDb.consume at hc
    simp only at hc
    split at hc
    · cases hc
    · rename_i user hfound
      split_ifs at hc
      cases hc
      exact (lookup_key hfound).symm

/-- A call that has completed had, or the step completes a request of the user it returns. -/
theorem complete_cases {f : FactorCall} {completion : MfaCompletion}
    (h : (ceremonyStep settings service c e).calls[i]? = some (.complete f))
    (hok : f.result = some (.ok completion)) :
    c.calls[i]? = some (.complete f) ∨
    ∃ t, e = .advance i ∧ c.completed service e = some t ∧ t.userId = completion.userId := by
  have begun : ∀ call : MfaCall, (c.call call).calls[i]? = some (.complete f) →
      c.calls[i]? = some (.complete f) ∨ call = .complete f := by
    intro call hcall
    simp only [Ceremonies.call, List.getElem?_append] at hcall
    split_ifs at hcall
    · exact .inl hcall
    · exact .inr (List.mem_singleton.mp (List.mem_of_getElem? hcall)).symm
  cases e with
  | tick elapsed => exact .inl h
  | login userId transactionId challenge now =>
    simp only [ceremonyStep] at h
    split at h
    · exact .inl ((begun _ h).resolve_right fun h => by cases h)
    · exact .inl h
  | beginEnrollment userId role transactionId source now =>
    simp only [ceremonyStep] at h
    split_ifs at h
    · exact .inl ((begun _ h).resolve_right fun h => by cases h)
    · exact .inl h
  | prepare | remove => exact .inl ((begun _ h).resolve_right fun h => by cases h)
  | complete transactionId response credentialRowId now =>
    cases begun _ h with
    | inl h => exact .inl h
    | inr h =>
      cases h
      cases hok
  | advance j =>
    simp only [ceremonyStep] at h
    split at h
    · rename_i call hj
      cases Locks.getElem?_set h with
      | inl hmoved =>
        obtain ⟨rfl, hf⟩ := hmoved
        cases call with
        | complete a =>
          simp only [MfaCall.advance, FactorCall.advance, MfaCall.complete.injEq] at hf
          split_ifs at hf with hfree
          · subst hf
            cases hr : a.complete service c.db with
            | mk result db' =>
              have hresult : result = .ok completion := by
                simp only [hr] at hok
                exact Option.some.inj hok
              subst hresult
              obtain ⟨t, hfound, huser⟩ := complete_user hr
              have haccepted : a.accepted service c.db = true := by
                unfold FactorCall.accepted
                rw [hr]
                rfl
              refine .inr ⟨t, rfl, ?_, huser⟩
              rw [completed_advance hj]
              simp only [MfaCall.completed, hfree, haccepted, Bool.and_self, if_true]
              exact hfound
          · subst hf
            exact .inl hj
        | begin | prepare | remove | crashed => cases hf
      | inr hother => exact .inl hother.2
    · exact .inl h
  | crash j =>
    cases Locks.getElem?_set h with
    | inl hmoved => cases hmoved.2
    | inr hother => exact .inl hother.2

theorem ceremony_roles (settings : MfaSettings) (service : MfaService) (c : Ceremonies)
    (e : CeremonyEvent) : KeepsRoles c.db.bank (ceremonyStep settings service c e).db.bank := by
  cases e with
  | advance i =>
    simp only [ceremonyStep]
    split
    · exact (advance_settled settings service c.clock (c.blocked i) c.db _).roles
    · exact keepsRoles_refl _
  | login userId transactionId challenge now =>
    simp only [ceremonyStep]
    split <;> exact keepsRoles_refl _
  | beginEnrollment userId role transactionId source now =>
    simp only [ceremonyStep]
    split_ifs <;> exact keepsRoles_refl _
  | tick | prepare | complete | remove | crash => exact keepsRoles_refl _

/-- A passkey comes by the completion of a request for one. -/
theorem ceremony_hasPasskey {userId : Uuid}
    (h : (ceremonyStep settings service c e).db.hasPasskey userId = true) :
    c.db.hasPasskey userId = true ∨ ∃ t, c.completed service e = some t ∧ t.userId = userId ∧
      t.purpose = .enrollPasskey := by
  cases e with
  | advance i =>
    simp only [ceremonyStep] at h
    split at h
    · rename_i call hi
      rw [completed_advance hi]
      exact advance_hasPasskey h
    · exact .inl h
  | login userId transactionId challenge now =>
    simp only [ceremonyStep] at h
    split at h <;> exact .inl h
  | beginEnrollment userId role transactionId source now =>
    simp only [ceremonyStep] at h
    split_ifs at h <;> exact .inl h
  | tick | prepare | complete | remove | crash => exact .inl h

/-- A login that ends without a request has read that there is no factor, and its role needs
none. -/
theorem begin_ended {databaseNow : Instant} {blocked : MfaLock → Bool} {db : MfaDb}
    (h : (b.advance settings databaseNow blocked db).1 = .ended (.ok none)) :
    b.stage = .ended (.ok none) ∨
      (b.stage = .totpExists false ∧ db.hasTotp b.userId = false ∧ roleRequiresMfa b.role = false) := by
  unfold Begin.advance at h
  cases hs : b.stage with
  | passkeyExists =>
    rw [hs] at h
    cases h
  | totpExists passkey =>
    simp only [hs] at h
    cases hm : settings.factorMethods passkey (db.hasTotp b.userId) with
    | error failure =>
      rw [hm] at h
      cases h
    | ok methods =>
      simp only [hm] at h
      cases hl : loginTransaction b.role b.challenge methods with
      | some new =>
        rw [hl] at h
        cases h
      | none =>
        unfold loginTransaction at hl
        split_ifs at hl with hempty hrole
        subst hempty
        obtain ⟨rfl, htotp⟩ := factorMethods_nil hm
        exact .inr ⟨rfl, htotp, Bool.eq_false_iff.mpr hrole⟩
  | delete new =>
    simp only [hs] at h
    split_ifs at h
  | insert new =>
    simp only [hs] at h
    split at h <;> cases h
  | ended result =>
    simp only [hs] at h
    exact .inl h

end Ceremonies

/-- What an event makes of the ceremonies: a step of theirs, or nothing but a change of the
banking tables or of the revocations. -/
theorem step_ceremonies (service : SessionService) (s : Sessions) (e : SessionEvent) :
    (∃ e', (service.step s e).ceremonies =
        ceremonyStep service.settings.mfa service.mfa s.ceremonies e' ∧
      (e = .ceremony e' ∨ ∀ i, e' ≠ .advance i)) ∨
    ((service.step s e).ceremonies.calls = s.ceremonies.calls ∧
      (service.step s e).db.passkeys = s.db.passkeys ∧
      KeepsRoles s.db.bank (service.step s e).db.bank) := by
  have hmove := step_move service s e
  generalize service.step s e = s' at hmove
  cases hmove with
  | idle | request | logout => exact .inr ⟨rfl, rfl, keepsRoles_refl _⟩
  | bank e bank answered hroles => exact .inr ⟨rfl, rfl, hroles⟩
  | ceremony e => exact .inl ⟨e, rfl, .inl rfl⟩
  | enroll k r parsed transactionId now =>
    exact .inl ⟨.beginEnrollment _ _ _ _ _, rfl, .inr fun i h => (by cases h)⟩
  | remove k r parsed target =>
    exact .inl ⟨.remove _ _ _, rfl, .inr fun i h => (by cases h)⟩
  | proceed k r =>
    refine .inr ?_
    unfold SessionService.proceed
    cases r.stage with
    | decode | user =>
      simp only
      split <;> exact ⟨rfl, rfl, keepsRoles_refl _⟩
    | lookup parsed =>
      simp only
      split_ifs <;> exact ⟨rfl, rfl, keepsRoles_refl _⟩
    | admitted | ended | prune => exact ⟨rfl, rfl, keepsRoles_refl _⟩
    | revoke parsed =>
      exact ⟨rfl, insertRevocation_passkeys _,
        keepsRoles_of_users (congrArg Db.users (insertRevocation_bank _))⟩

/-! The roles that logins have read. -/

/-- The role that a login has read is that of its user, who is not pending. -/
def RoleRead (db : MfaDb) (c : Begin) : Prop :=
  ∃ user, db.bank.findUser c.userId = some user ∧ user.role = c.role ∧
    user.role ≠ .pendingApproval

/-- The login is at its factor check. -/
def BeginStage.checking : BeginStage → Bool
  | .passkeyExists | .totpExists _ => true
  | _ => false

/-- What a login has read of its user's role holds, and one that has ended without a request
has a role that needs no MFA. -/
structure RolesRead (s : Sessions) : Prop where
  roles : ∀ (i : Nat) c, s.ceremonies.calls[i]? = some (.begin c) → c.stage.checking = true →
    RoleRead s.db c
  free : ∀ (i : Nat) c, s.ceremonies.calls[i]? = some (.begin c) →
    c.stage = .ended (.ok none) → roleRequiresMfa c.role = false

section Roles
variable {service : SessionService} {s : Sessions} {e : SessionEvent} {c : Begin}

theorem RoleRead.keeps {db db' : MfaDb} (h : RoleRead db c) (hkeeps : KeepsRoles db.bank db'.bank) :
    RoleRead db' c := by
  obtain ⟨user, hfound, hrole, hpending⟩ := h
  obtain ⟨user', hfound', hrole'⟩ := hkeeps _ user hfound hpending
  exact ⟨user', hfound', hrole'.trans hrole, fun h => hpending (hrole' ▸ h)⟩

/-- A login is at its factor check after a step only if it was, and its reads change nothing. -/
theorem advance_checking {settings : MfaSettings} {databaseNow : Instant}
    {blocked : MfaLock → Bool} {db : MfaDb}
    (h : (c.advance settings databaseNow blocked db).1.checking = true) :
    c.stage.checking = true ∧ (c.advance settings databaseNow blocked db).2 = db := by
  unfold Begin.advance at h ⊢
  cases hs : c.stage with
  | passkeyExists => exact ⟨rfl, rfl⟩
  | totpExists passkey =>
    refine ⟨rfl, ?_⟩
    simp only
    split
    · rfl
    · split <;> rfl
  | delete new =>
    simp only [hs] at h
    split_ifs at h <;> cases h
  | insert new =>
    simp only [hs] at h
    split at h <;> cases h
  | ended result =>
    simp only [hs] at h
    cases h

theorem RolesRead.step (s : Sessions) (e : SessionEvent) (h : RolesRead s) :
    RolesRead (service.step s e) := by
  cases step_ceremonies service s e with
  | inr hframe =>
    obtain ⟨hcalls, -, hkeeps⟩ := hframe
    refine ⟨fun i c hi hstage => ?_, fun i c hi hstage => ?_⟩
    · rw [hcalls] at hi
      exact (h.roles i c hi hstage).keeps hkeeps
    · rw [hcalls] at hi
      exact h.free i c hi hstage
  | inl hstep =>
    obtain ⟨e', hstep, -⟩ := hstep
    have hkeeps : KeepsRoles s.db.bank (service.step s e).db.bank := by
      have hroles := ceremony_roles service.settings.mfa service.mfa s.ceremonies e'
      rw [← hstep] at hroles
      exact hroles
    refine ⟨fun i c hi hstage => ?_, fun i c hi hstage => ?_⟩
    · rw [hstep] at hi
      cases begin_cases hi with
      | old hold => exact (h.roles i c hold hstage).keeps hkeeps
      | moved a he ha =>
        have hread : RoleRead s.db a := h.roles i a ha (advance_checking hstage).1
        exact hread.keeps hkeeps
      | login user hlogin huser hrole =>
        obtain ⟨hfound, hactive⟩ := Option.filter_eq_some_iff.mp huser
        simp only [Bool.and_eq_true, decide_eq_true_eq] at hactive
        exact RoleRead.keeps ⟨user, hfound, hrole, hactive.2⟩ hkeeps
      | enrollment new hdelete =>
        rw [hdelete] at hstage
        cases hstage
    · rw [hstep] at hi
      cases begin_cases hi with
      | old hold => exact h.free i c hold hstage
      | moved a he ha =>
        cases begin_ended hstage with
        | inl hended => exact h.free i a ha hended
        | inr hread => exact hread.2.2
      | login user hlogin huser hrole =>
        rw [hlogin] at hstage
        cases hstage
      | enrollment new hdelete =>
        rw [hdelete] at hstage
        cases hstage
end Roles
end Bantam
