import Bantam.Logins
import Bantam.Revocations

/-! Tokens without a factor: when a login issues one, and why no role that needs MFA has one. -/
namespace Bantam
open Tables

/-- At some moment of its factor check, in the past of the run, the login's user had the role
that it has read and no active factor. -/
def FactorFree (service : SessionService) (start : Sessions) (past : List SessionEvent) (i : Nat)
    (c : Begin) : Prop :=
  ∃ before rest b user, past = before ++ rest ∧
    (service.run start before).ceremonies.calls[i]? = some (.begin b) ∧
    b.stage.checking = true ∧ b.userId = c.userId ∧
    (service.run start before).db.bank.findUser c.userId = some user ∧ user.role = c.role ∧
    hasActiveFactor c.userId (service.run start before).db = false

/-- A login issues a token only if at its factor check the user had no active factor and a role
that needs no MFA; the token is that user's. -/
def PasswordTokensDue (service : SessionService) (start : Sessions) (es : List SessionEvent) :
    Prop :=
  ∀ earlier i tokenId later token, es = earlier ++ .issue i tokenId :: later →
    service.passwordToken (service.run start earlier) i tokenId = some token →
    ∃ c, FactorFree service start earlier i c ∧ roleRequiresMfa c.role = false ∧
      token.claims.sub = Uuid.str c.userId ∧ token.claims.role = c.role.str

/-- A step of the run has completed the call, on a request of the user. -/
def CompletedFor (service : SessionService) (start : Sessions) (past : List SessionEvent) (i : Nat)
    (userId : Uuid) : Prop :=
  ∃ before rest t, past = before ++ .ceremony (.advance i) :: rest ∧
    (service.run start before).ceremonies.completed service.mfa (.advance i) = some t ∧
    t.userId = userId

/-- The token was issued in the run at the end of a call that had completed a factor of its
user, and says when. -/
def FromFactor (service : SessionService) (start : Sessions) (past : List SessionEvent)
    (token : Issued) (userId : Uuid) : Prop :=
  ∃ earlier i draw later, past = earlier ++ .finish i draw :: later ∧
    service.factorToken (service.run start earlier) i draw = some token ∧
    token.claims.sub = Uuid.str userId ∧ token.claims.mfaAt.isSome ∧
    CompletedFor service start earlier i userId

/-- A token that is let in for a role that needs MFA was issued after a completed factor of its
user, and carries an MFA method and an instant. -/
def FactorTokensOnly (service : SessionService) (start : Sessions) (es : List SessionEvent) :
    Prop :=
  ∀ r ∈ (service.run start es).requests, ∀ parsed, r.stage = .admitted parsed →
    roleRequiresMfa parsed.principal.role = true →
    hasFactor parsed.authMethods = true ∧ parsed.mfaAt.isSome ∧
    ∃ token, token.text = r.token ∧
      FromFactor service start es token parsed.principal.userId

/-- The call is a login of the user that has read no passkey and is about to look for an
authenticator app. -/
def MfaCall.betweenReads (userId : Uuid) : MfaCall → Bool
  | .begin c => c.userId = userId && c.stage = .totpExists false
  | _ => false

/-- No passkey enrolment of a user with an authenticator app completes while a login of theirs
is between its two reads and has read no passkey. -/
def NoPasskeyBetween (service : SessionService) (s : Sessions) : SessionEvent → Prop
  | .ceremony e => ∀ t ∈ s.ceremonies.completed service.mfa e, t.purpose = .enrollPasskey →
      s.db.hasTotp t.userId = true →
      ∀ call ∈ s.ceremonies.calls, call.betweenReads t.userId = false
  | _ => True

instance (service : SessionService) (s : Sessions) (e : SessionEvent) :
    Decidable (NoPasskeyBetween service s e) :=
  match e with
  | .ceremony e => inferInstanceAs (Decidable (∀ t ∈ s.ceremonies.completed service.mfa e,
      t.purpose = .enrollPasskey → s.db.hasTotp t.userId = true →
      ∀ call ∈ s.ceremonies.calls, call.betweenReads t.userId = false))
  | .register _ | .decide .. | .issue .. | .finish .. | .request _ | .proceed _ | .logout _
  | .enroll .. | .remove .. => inferInstanceAs (Decidable True)

/-! Logins without a factor. -/

/-- A login that has read no passkey is of a user who has none, or who had no active factor at
some moment before; one that has ended without a request is of such a user. -/
structure LoginsChecked (service : SessionService) (start : Sessions) (past : List SessionEvent)
    (s : Sessions) : Prop where
  reached : s = service.run start past
  read : RolesRead s
  passkeys : ∀ (i : Nat) c, s.ceremonies.calls[i]? = some (.begin c) →
    c.stage = .totpExists false →
    s.db.hasPasskey c.userId = false ∨ FactorFree service start past i c
  checked : ∀ (i : Nat) c, s.ceremonies.calls[i]? = some (.begin c) →
    c.stage = .ended (.ok none) → FactorFree service start past i c

section Logins
variable {service : SessionService} {start s : Sessions} {past : List SessionEvent}
  {e : SessionEvent} {c : Begin} {i : Nat}

theorem FactorFree.extend (h : FactorFree service start past i c) (e : SessionEvent) :
    FactorFree service start (past ++ [e]) i c := by
  obtain ⟨before, rest, b, user, rfl, h⟩ := h
  exact ⟨before, rest ++ [e], b, user, by rw [List.append_assoc], h⟩

theorem FactorFree.become (h : FactorFree service start past i c) (stage : BeginStage) :
    FactorFree service start past i (c.become stage) := h

theorem hasActiveFactor_eq_false {userId : Uuid} {db : MfaDb} :
    hasActiveFactor userId db = false ↔
      db.hasPasskey userId = false ∧ db.hasTotp userId = false := Bool.or_eq_false_iff

/-- A login at its factor check, of a user without a factor, is such a moment. -/
theorem LoginsChecked.factorFree (h : LoginsChecked service start past s)
    (hi : s.ceremonies.calls[i]? = some (.begin c)) (hstage : c.stage.checking = true)
    (hpasskey : s.db.hasPasskey c.userId = false) (htotp : s.db.hasTotp c.userId = false)
    (rest : List SessionEvent) : FactorFree service start (past ++ rest) i c := by
  obtain ⟨user, hfound, hrole, -⟩ := h.read.roles i c hi hstage
  have hreached := h.reached
  subst hreached
  exact ⟨past, rest, c, user, rfl, hi, hstage, rfl, hfound, hrole,
    hasActiveFactor_eq_false.mpr ⟨hpasskey, htotp⟩⟩

theorem advance_totpExists {settings : MfaSettings} {databaseNow : Instant}
    {blocked : MfaLock → Bool} {db : MfaDb}
    (h : (c.advance settings databaseNow blocked db).1 = .totpExists false) :
    db.hasPasskey c.userId = false := by
  unfold Begin.advance at h
  cases hs : c.stage with
  | passkeyExists =>
    simp only [hs] at h
    exact BeginStage.totpExists.inj h
  | totpExists passkey =>
    simp only [hs] at h
    split at h
    · cases h
    · split at h <;> cases h
  | delete new =>
    simp only [hs] at h
    split_ifs at h
  | insert new =>
    simp only [hs] at h
    split at h <;> cases h
  | ended result =>
    simp only [hs] at h
    cases h

/-- A passkey read as missing comes only by an enrolment, which the condition keeps away while
there is an authenticator app; without one the moment before it was free of factors. -/
theorem LoginsChecked.passkeys_old {e' : CeremonyEvent} (h : LoginsChecked service start past s)
    (hnone : NoPasskeyBetween service s e) (horigin : e = .ceremony e' ∨ ∀ j, e' ≠ .advance j)
    (hi : s.ceremonies.calls[i]? = some (.begin c)) (hstage : c.stage = .totpExists false) :
    (ceremonyStep service.settings.mfa service.mfa s.ceremonies e').db.hasPasskey c.userId =
        false ∨ FactorFree service start (past ++ [e]) i c := by
  cases h.passkeys i c hi hstage with
  | inr hfree => exact .inr (hfree.extend e)
  | inl hread =>
    cases hpasskey :
        (ceremonyStep service.settings.mfa service.mfa s.ceremonies e').db.hasPasskey c.userId with
    | false => exact .inl rfl
    | true =>
      cases ceremony_hasPasskey hpasskey with
      | inl hthere =>
        rw [show s.db = s.ceremonies.db from rfl, hthere] at hread
        cases hread
      | inr hdone =>
        obtain ⟨t, hdone, huser, hpurpose⟩ := hdone
        cases horigin with
        | inl he =>
          subst he
          cases htotp : s.db.hasTotp c.userId with
          | false => exact .inr (h.factorFree hi (by rw [hstage]; rfl) hread htotp _)
          | true =>
            have hbetween := hnone t hdone hpurpose (huser ▸ htotp) _ (List.mem_of_getElem? hi)
            simp [MfaCall.betweenReads, huser, hstage] at hbetween
        | inr hquiet =>
          cases e' with
          | advance j => exact absurd rfl (hquiet j)
          | tick | login | beginEnrollment | prepare | complete | remove | crash => cases hdone

theorem LoginsChecked.step (past : List SessionEvent) (s : Sessions) (e : SessionEvent)
    (h : LoginsChecked service start past s) (hnone : NoPasskeyBetween service s e) :
    LoginsChecked service start (past ++ [e]) (service.step s e) := by
  have hreached : service.step s e = service.run start (past ++ [e]) := by
    rw [h.reached]
    exact (Runs.run_snoc _ _ _ _).symm
  cases step_ceremonies service s e with
  | inr hframe =>
    obtain ⟨hcalls, hpasskeys, -⟩ := hframe
    refine ⟨hreached, h.read.step s e, fun i c hi hstage => ?_, fun i c hi hstage => ?_⟩
    · rw [hcalls] at hi
      have hsame : (service.step s e).db.hasPasskey c.userId = s.db.hasPasskey c.userId := by
        unfold MfaDb.hasPasskey
        rw [hpasskeys]
      rw [hsame]
      exact (h.passkeys i c hi hstage).imp id fun hfree => hfree.extend e
    · rw [hcalls] at hi
      exact (h.checked i c hi hstage).extend e
  | inl hstep =>
    obtain ⟨e', hstep, horigin⟩ := hstep
    have hdb : (service.step s e).db =
        (ceremonyStep service.settings.mfa service.mfa s.ceremonies e').db :=
      congrArg Ceremonies.db hstep
    refine ⟨hreached, h.read.step s e, fun i c hi hstage => ?_, fun i c hi hstage => ?_⟩
    · rw [hstep] at hi
      rw [hdb]
      cases begin_cases hi with
      | old hold => exact h.passkeys_old hnone horigin hold hstage
      | moved a he ha =>
        subst he
        have hstage : (a.advance service.settings.mfa s.ceremonies.clock
            (s.ceremonies.blocked i) s.ceremonies.db).1 = .totpExists false := hstage
        refine .inl ?_
        simp only [ceremonyStep, ha, MfaCall.advance,
          (advance_checking (by rw [hstage]; rfl)).2]
        have hread : s.ceremonies.db.hasPasskey a.userId = false := advance_totpExists hstage
        exact hread
      | login user hlogin huser hrole =>
        rw [hlogin] at hstage
        cases hstage
      | enrollment new hdelete =>
        rw [hdelete] at hstage
        cases hstage
    · rw [hstep] at hi
      cases begin_cases hi with
      | old hold => exact (h.checked i c hold hstage).extend e
      | moved a he ha =>
        cases begin_ended hstage with
        | inl hended => exact ((h.checked i a ha hended).extend e).become _
        | inr hread =>
          obtain ⟨hlast, htotp, -⟩ := hread
          cases h.passkeys i a ha hlast with
          | inl hpasskey =>
            exact (h.factorFree ha (by rw [hlast]; rfl) hpasskey htotp [e]).become _
          | inr hfree => exact (hfree.extend e).become _
      | login user hlogin huser hrole =>
        rw [hlogin] at hstage
        cases hstage
      | enrollment new hdelete =>
        rw [hdelete] at hstage
        cases hstage

theorem passwordToken_eq_some {tokenId : Uuid} {token : Issued}
    (h : service.passwordToken s i tokenId = some token) :
    ∃ c, s.ceremonies.calls[i]? = some (.begin c) ∧ c.stage = .ended (.ok none) ∧
      token.claims.sub = Uuid.str c.userId ∧ token.claims.role = c.role.str := by
  unfold SessionService.passwordToken at h
  split_ifs at h
  split at h
  · rename_i principal hp
    unfold Sessions.loginPrincipal at hp
    split at hp
    · rename_i c hi
      split_ifs at hp with hended
      obtain ⟨user, -, rfl⟩ := Option.map_eq_some_iff.mp hp
      split at h
      · cases h
        exact ⟨c, hi, hended, rfl, rfl⟩
      · cases h
    · cases hp
  · cases h
end Logins

/-! Tokens of roles that need MFA. -/

/-- Where the tokens and the completions of the system come from. -/
structure TokensTraced (service : SessionService) (start : Sessions) (past : List SessionEvent)
    (s : Sessions) : Prop where
  reached : s = service.run start past
  roles : RolesRead s
  completed : ∀ (i : Nat) f completion, s.ceremonies.calls[i]? = some (.complete f) →
    f.result = some (.ok completion) → CompletedFor service start past i completion.userId
  tokens : ∀ token ∈ s.issued,
    (∃ role : Role, token.claims.role = role.str ∧ roleRequiresMfa role = false) ∨
      ∃ userId, FromFactor service start past token userId
  requests : RequestsRead s

section Tokens
variable {service : SessionService} {start s : Sessions} {past : List SessionEvent}
  {e : SessionEvent} {i : Nat} {userId : Uuid} {token : Issued}

theorem CompletedFor.extend (h : CompletedFor service start past i userId) (e : SessionEvent) :
    CompletedFor service start (past ++ [e]) i userId := by
  obtain ⟨before, rest, t, rfl, h⟩ := h
  exact ⟨before, rest ++ [e], t, by rw [List.append_assoc]; rfl, h⟩

theorem FromFactor.extend (h : FromFactor service start past token userId) (e : SessionEvent) :
    FromFactor service start (past ++ [e]) token userId := by
  obtain ⟨earlier, i, draw, later, rfl, h⟩ := h
  exact ⟨earlier, i, draw, later ++ [e], by rw [List.append_assoc]; rfl, h⟩

theorem completion_eq_some {completion : MfaCompletion} (h : s.completion i = some completion) :
    ∃ f, s.ceremonies.calls[i]? = some (.complete f) ∧ f.result = some (.ok completion) := by
  unfold Sessions.completion at h
  split at h
  · rename_i f hi
    split at h
    · rename_i hresult
      cases h
      exact ⟨f, hi, hresult⟩
    · cases h
  · cases h

theorem factorToken_eq_some {draw : SessionDraw}
    (h : service.factorToken s i draw = some token) :
    ∃ completion, s.completion i = some completion ∧
      token.claims.sub = Uuid.str completion.userId ∧ token.claims.mfaAt.isSome := by
  unfold SessionService.factorToken at h
  split_ifs at h
  split at h
  · rename_i completion hc
    split at h
    · cases h
      exact ⟨completion, hc, rfl, rfl⟩
    · cases h
  · cases h

/-- The token that a step issues has a role that needs no MFA, or comes from a factor. -/
theorem TokensTraced.issues (h : TokensTraced service start past s)
    (ht : service.issues s e = some token) :
    (∃ role : Role, token.claims.role = role.str ∧ roleRequiresMfa role = false) ∨
      ∃ userId, FromFactor service start (past ++ [e]) token userId := by
  cases e with
  | issue i tokenId =>
    obtain ⟨c, hi, hended, -, hrole⟩ := passwordToken_eq_some ht
    exact .inl ⟨c.role, hrole, h.roles.free i c hi hended⟩
  | finish i draw =>
    obtain ⟨completion, hc, hsub, hmfa⟩ := factorToken_eq_some ht
    obtain ⟨f, hi, hresult⟩ := completion_eq_some hc
    refine .inr ⟨completion.userId, past, i, draw, [], rfl, ?_, hsub, hmfa,
      h.completed i f completion hi hresult⟩
    rw [← h.reached]
    exact ht
  | ceremony | register | decide | request | proceed | logout | enroll | remove => cases ht

theorem issued_mem (ht : token ∈ (service.step s e).issued) :
    token ∈ s.issued ∨ service.issues s e = some token := by
  have hmove := step_move service s e
  generalize service.step s e = s' at hmove ht
  cases hmove with
  | idle | ceremony | enroll | remove | request | logout => exact .inl ht
  | bank =>
    cases List.mem_append.mp ht with
    | inl ht => exact .inl ht
    | inr ht => exact .inr (Option.mem_toList.mp ht)
  | proceed k r =>
    rw [proceed_issued] at ht
    exact .inl ht

theorem TokensTraced.step (past : List SessionEvent) (s : Sessions) (e : SessionEvent)
    (h : TokensTraced service start past s) (hgenuine : Genuine service s e) :
    TokensTraced service start (past ++ [e]) (service.step s e) := by
  have hreached : service.step s e = service.run start (past ++ [e]) := by
    rw [h.reached]
    exact (Runs.run_snoc _ _ _ _).symm
  refine ⟨hreached, h.roles.step s e, fun i f completion hi hresult => ?_, fun token ht => ?_,
    h.requests.step s e hgenuine⟩
  · cases step_ceremonies service s e with
    | inr hframe =>
      rw [hframe.1] at hi
      exact (h.completed i f completion hi hresult).extend e
    | inl hstep =>
      obtain ⟨e', hstep, horigin⟩ := hstep
      rw [hstep] at hi
      cases complete_cases hi hresult with
      | inl hold => exact (h.completed i f completion hold hresult).extend e
      | inr hnew =>
        obtain ⟨t, rfl, hdone, huser⟩ := hnew
        have he : e = .ceremony (.advance i) := by
          cases horigin with
          | inl he => exact he
          | inr hquiet => exact absurd rfl (hquiet i)
        subst he
        refine ⟨past, [], t, rfl, ?_, huser⟩
        rw [← h.reached]
        exact hdone
  · cases issued_mem ht with
    | inl hold => exact (h.tokens token hold).imp id fun ⟨userId, hfrom⟩ => ⟨userId, hfrom.extend e⟩
    | inr hnew => exact h.issues hnew

theorem role_str_injective {role role' : Role} (h : role.str = role'.str) : role = role' := by
  revert h
  cases role <;> cases role' <;> decide

/-- What is read of the claims of a token for a role that needs MFA. -/
theorem TokensTraced.admitted (h : TokensTraced service start past s) {r : AuthRequest}
    {parsed : ParsedAccessToken} (hr : r ∈ s.requests) (hstage : r.stage = .admitted parsed)
    (hrole : roleRequiresMfa parsed.principal.role = true) :
    hasFactor parsed.authMethods = true ∧ parsed.mfaAt.isSome ∧
    ∃ token, token.text = r.token ∧
      FromFactor service start past token parsed.principal.userId := by
  obtain ⟨token, ht, htext, hread⟩ := h.requests r hr parsed (by rw [hstage]; rfl)
  cases h.tokens token ht with
  | inl hpassword =>
    obtain ⟨role, hname, hfree⟩ := hpassword
    have hstr : parsed.principal.role.str = role.str := by
      rw [← hname]
      exact of_decide_eq_true (List.find?_some (p := fun role : Role => role.str = token.claims.role)
        hread.role)
    rw [role_str_injective hstr, hfree] at hrole
    cases hrole
  | inr hfactor =>
    obtain ⟨userId, hfactor⟩ := hfactor
    obtain ⟨earlier, i, draw, later, hpast, hissued, hsub, hmfa, hcompleted⟩ := hfactor
    have huser : parsed.principal.userId = userId := by
      have hparse := hread.userId
      rw [hsub, Uuid.parse_str] at hparse
      exact (Option.some.inj hparse).symm
    have hat : parsed.mfaAt.isSome := by
      rw [hread.mfaAt, Option.isSome_map]
      exact hmfa
    refine ⟨hread.factor ▸ hat, hat, token, htext, ?_⟩
    rw [huser]
    exact ⟨earlier, i, draw, later, hpast, hissued, hsub, hmfa, hcompleted⟩
end Tokens

/-- In every run whose tokens are genuine, a token is let in for a role that needs MFA only
after a completed factor; and if no passkey enrolment of a user with an authenticator app
completes while a login of theirs is between its two reads, a login issues a token only to a
user who had no active factor at its factor check and whose role needs no MFA. -/
theorem mfa_not_bypassed (service : SessionService) (db : MfaDb) (clock : Instant)
    (es : List SessionEvent)
    (hgenuine : Runs.Along service.step (Genuine service) (Sessions.start db clock) es) :
    (Runs.Along service.step (NoPasskeyBetween service) (Sessions.start db clock) es →
      PasswordTokensDue service (Sessions.start db clock) es) ∧
    FactorTokensOnly service (Sessions.start db clock) es := by
  have hroles : RolesRead (Sessions.start db clock) :=
    ⟨fun i c hi => (by cases hi), fun i c hi => (by cases hi)⟩
  constructor
  · intro hnone earlier i tokenId later token hes ht
    subst hes
    have hstart : LoginsChecked service (Sessions.start db clock) [] (Sessions.start db clock) :=
      ⟨rfl, hroles, fun i c hi => (by cases hi), fun i c hi => (by cases hi)⟩
    have hchecked := Runs.history_invariant LoginsChecked.step hstart
      ((Runs.along_append _ _ _ _ _).mp hnone).1
    obtain ⟨c, hi, hended, hsub, hrole⟩ := passwordToken_eq_some ht
    exact ⟨c, hchecked.checked i c hi hended, hchecked.read.free i c hi hended, hsub, hrole⟩
  · intro r hr parsed hstage hrole
    have hstart : TokensTraced service (Sessions.start db clock) [] (Sessions.start db clock) :=
      ⟨rfl, hroles, fun i f completion hi => (by cases hi), fun token ht => (by cases ht),
        fun r hr => (by cases hr)⟩
    have htraced := Runs.history_invariant TokensTraced.step hstart hgenuine
    exact htraced.admitted hr hstage hrole

theorem analyst_not_bypassed :
    PasswordTokensDue sampleSessionService sampleStart analystLogin ∧
    FactorTokensOnly sampleSessionService sampleStart analystLogin := by
  have hgenuine := genuine_analyst []
  rw [List.append_nil] at hgenuine
  obtain ⟨hpassword, hfactor⟩ := mfa_not_bypassed sampleSessionService sampleSessionDb sampleNow
    analystLogin hgenuine
  exact ⟨hpassword (by decide +kernel), hfactor⟩

/-! An auditor with an authenticator app signs in, enrols a passkey and removes the app, while a
second login of theirs is between its two reads. -/

def aspisAuditorId : Uuid := 9

def auditorPrincipal : Principal := { userId := aspisAuditorId, role := .aspisAuditor }

def auditorClaims : Claims :=
  sampleAuth.claims sampleNow 7 auditorPrincipal ["pwd", "otp"] (some sampleNow)

/-- `auditorClaims` signed with the key of `sampleAuth`. -/
def auditorToken : String :=
  "eyJhbGciOiJIUzI1NiIsInR5cCI6IkpXVCJ9." ++
  "eyJzdWIiOiIwMDAwMDAwMC0wMDAwLTAwMDAtMDAwM" ++
  "C0wMDAwMDAwMDAwMDkiLCJpc3MiOiJiYW50YW0tYX" ++
  "V0aCIsImF1ZCI6WyJiYW50YW0tYXBpIl0sImlhdCI" ++
  "6MTcwMDAwMDAwMCwibmJmIjoxNzAwMDAwMDAwLCJl" ++
  "eHAiOjE3MDAwMDA5MDAsImp0aSI6IjAwMDAwMDAwL" ++
  "TAwMDAtMDAwMC0wMDAwLTAwMDAwMDAwMDAwNyIsIn" ++
  "JvbGUiOiJBU1BJU19BVURJVE9SIiwiYW1yIjpbInB" ++
  "3ZCIsIm90cCJdLCJtZmFfYXQiOjE3MDAwMDAwMDB9." ++
  "TMRoH7Sf8y96c901Yyijo_EhdLRNYzbgposNDuz7mqk"
def passwordOnlyClaims : Claims := sampleAuth.claims sampleNow 8 auditorPrincipal ["pwd"] none

/-- `passwordOnlyClaims` signed with the same key. -/
def passwordOnlyToken : String :=
  "eyJhbGciOiJIUzI1NiIsInR5cCI6IkpXVCJ9." ++
  "eyJzdWIiOiIwMDAwMDAwMC0wMDAwLTAwMDAtMDAwM" ++
  "C0wMDAwMDAwMDAwMDkiLCJpc3MiOiJiYW50YW0tYX" ++
  "V0aCIsImF1ZCI6WyJiYW50YW0tYXBpIl0sImlhdCI" ++
  "6MTcwMDAwMDAwMCwibmJmIjoxNzAwMDAwMDAwLCJl" ++
  "eHAiOjE3MDAwMDA5MDAsImp0aSI6IjAwMDAwMDAwL" ++
  "TAwMDAtMDAwMC0wMDAwLTAwMDAwMDAwMDAwOCIsIn" ++
  "JvbGUiOiJBU1BJU19BVURJVE9SIiwiYW1yIjpbInB" ++
  "3ZCJdfQ." ++
  "cdL4Blv0rUHcB-2_egSSaBtwMUd24ATNRi4T1YGNybQ"

/-- What `parse_with_claims` reads of the first token. -/
def auditorParsed : ParsedAccessToken :=
  ⟨auditorPrincipal, 7, sampleNow + minutes 15, ["pwd", "otp"], some sampleNow⟩

def auditorDb : MfaDb where
  bank := { Db.migrated with users := [⟨aspisAuditorId, "auditor@aspis.local", .aspisAuditor, none,
    .active, true, by decide⟩] }
  transactions := []
  passkeys := []
  totps := [⟨aspisAuditorId, firstToken, "Authenticator app", -1, 0, none, none,
    authenticatorApp_labelled⟩]
  revocations := []

/-- The passkey's registration verifies. -/
def auditorService : SessionService where
  auth := sampleAuth
  jwt := .ofTokens sampleAuth.secret
    [(auditorClaims, auditorToken), (passwordOnlyClaims, passwordOnlyToken)]
  mfa := { enrolmentService with
    webauthn := {
      base64urlToBytes := fun text => if text = "CQ" then some [9] else none
      verifyAuthenticationResponse := fun _ _ _ _ => none
      verifyRegistrationResponse := fun _ challenge =>
        if challenge = [7] then some ⟨[9], [8], 0, "single_device", false⟩ else none } }
  settings := ⟨⟨minutes 5, true⟩, minutes 5⟩

def auditorStart : Sessions := .start auditorDb sampleNow

/-- A login with a code; its token is shown twice. -/
def auditorLogin : List SessionEvent :=
  .ceremony (.login aspisAuditorId 1 [] sampleNow) ::
    List.replicate 4 (.ceremony (.advance 0)) ++
  [.ceremony (.complete 1 (.totp "406058") 0 sampleNow), .ceremony (.advance 1),
    .finish 1 ⟨3, 4, 5, 7, "csrf", sampleNow, sampleNow⟩,
    .request auditorToken, .request auditorToken]

/-- The first request prepares a passkey enrolment, whose completion is call 4, and the second
begins the removal of the app, call 5. Call 6 is the second login. -/
def auditorRace : List SessionEvent :=
  [.proceed 0, .proceed 0, .proceed 1, .proceed 1, .enroll 0 2 sampleNow] ++
    List.replicate 2 (.ceremony (.advance 2)) ++
  .ceremony (.prepare 2 .passkey "" [7] []) :: List.replicate 2 (.ceremony (.advance 3)) ++
  [.ceremony (.complete 2 (.passkey ⟨some "CQ", ["usb"], ""⟩) 6 sampleNow), .remove 1 .totp,
    .ceremony (.login aspisAuditorId 3 [] sampleNow), .ceremony (.advance 6),
    .ceremony (.advance 4)] ++
  List.replicate 7 (.ceremony (.advance 5)) ++ [.ceremony (.advance 6)]

/-- The system where the first token has been read twice. -/
def auditorSession : Sessions :=
  ((auditorService.run auditorStart auditorLogin).move 0 ⟨auditorToken, .decode⟩
    (.lookup auditorParsed)).move 1 ⟨auditorToken, .decode⟩ (.lookup auditorParsed)

/-- The login is not at its factor check, or its user has an active factor. -/
def Sessions.guarded (i : Nat) (s : Sessions) : Bool :=
  match s.ceremonies.calls[i]? with
  | some (.begin b) => !b.stage.checking || hasActiveFactor b.userId s.db
  | _ => true

theorem auditorToken_length : auditorToken.length ≤ 4096 := by
  unfold auditorToken
  repeat rewrite [String.length_append]
  decide +kernel

theorem decode_auditor :
    auditorService.jwt.decode sampleNow auditorToken auditorService.auth.secret =
      some auditorClaims := by
  have htimes : fromTimestamp auditorClaims.iat = sampleNow ∧
      fromTimestamp auditorClaims.nbf = sampleNow ∧
      fromTimestamp auditorClaims.exp = sampleNow + minutes 15 := by decide +kernel
  have hcurrent : sampleNow < sampleNow + minutes 15 := by decide +kernel
  simp [auditorService, Jwt.ofTokens, htimes, hcurrent]

theorem readToken_auditor :
    auditorService.auth.readToken auditorService.jwt sampleNow auditorToken =
      some auditorParsed :=
  (readToken_ofTokens auditorToken_length decode_auditor).trans (by decide +kernel)

/-- The system where the first token is read once. -/
def auditorShown : Sessions :=
  (auditorService.run auditorStart auditorLogin).move 0 ⟨auditorToken, .decode⟩
    (.lookup auditorParsed)

theorem auditor_first : auditorService.step (auditorService.run auditorStart auditorLogin)
    (.proceed 0) = auditorShown :=
  step_decode (by decide +kernel) readToken_auditor

theorem auditor_second : auditorService.step auditorShown (.proceed 1) = auditorSession :=
  step_decode (by decide +kernel) readToken_auditor

/-- The login, the two readings of its token and the race. -/
def auditorEvents : List SessionEvent :=
  auditorLogin ++ .proceed 0 :: .proceed 1 :: auditorRace

/-- A condition on every step of the run, from its four parts. -/
theorem along_auditor {P : Sessions → SessionEvent → Prop}
    (hlogin : Runs.Along auditorService.step P auditorStart auditorLogin)
    (hfirst : P (auditorService.run auditorStart auditorLogin) (.proceed 0))
    (hsecond : P auditorShown (.proceed 1)) {es : List SessionEvent}
    (hrest : Runs.Along auditorService.step P auditorSession es) :
    Runs.Along auditorService.step P auditorStart
      (auditorLogin ++ .proceed 0 :: .proceed 1 :: es) := by
  refine (Runs.along_append _ _ _ _ _).mpr ⟨hlogin, hfirst, ?_⟩
  rw [show Runs.run auditorService.step auditorStart auditorLogin =
    auditorService.run auditorStart auditorLogin from rfl, auditor_first]
  refine ⟨hsecond, ?_⟩
  rw [auditor_second]
  exact hrest

/-- What decodes is the token that the login has issued. -/
theorem genuine_auditor {s : Sessions} {k : Nat} (hclock : s.clock = sampleNow)
    (hr : s.requests[k]? = some ⟨auditorToken, .decode⟩)
    (hissued : (⟨auditorToken, 7, auditorClaims⟩ : Issued) ∈ s.issued) :
    Genuine auditorService s (.proceed k) := by
  intro r hmoves _ c hc
  rw [SessionEvent.moves, hr] at hmoves
  cases hmoves
  rw [hclock, decode_auditor] at hc
  cases hc
  exact ⟨_, hissued, rfl, rfl⟩

theorem run_auditor (es : List SessionEvent) :
    auditorService.run auditorStart (auditorLogin ++ .proceed 0 :: .proceed 1 :: es) =
      auditorService.run auditorSession es := by
  have happend := Runs.run_append auditorService.step auditorStart auditorLogin
    (.proceed 0 :: .proceed 1 :: es)
  have hsteps : Runs.run auditorService.step (auditorService.run auditorStart auditorLogin)
      (.proceed 0 :: .proceed 1 :: es) = auditorService.run auditorSession es := by
    rw [Runs.run, auditor_first, Runs.run, auditor_second]
    rfl
  exact happend.trans hsteps

/-- The auditor's second login issues a token for a password alone, although at every moment
of its factor check they had an active factor. -/
theorem password_token_despite_factor :
    Runs.Along auditorService.step (Genuine auditorService) auditorStart auditorEvents ∧
    (auditorService.passwordToken (auditorService.run auditorStart auditorEvents) 6 8).map
      Issued.text = some passwordOnlyToken ∧
    ¬PasswordTokensDue auditorService auditorStart (auditorEvents ++ [.issue 6 8]) := by
  have hissued : auditorService.passwordToken (auditorService.run auditorStart auditorEvents) 6 8 =
      some ⟨passwordOnlyToken, 8, passwordOnlyClaims⟩ := by
    rw [show auditorEvents = auditorLogin ++ .proceed 0 :: .proceed 1 :: auditorRace from rfl,
      run_auditor]
    decide +kernel
  have hguarded : Runs.Along auditorService.step (fun s _ => s.guarded 6 = true) auditorStart
      (auditorEvents ++ [.issue 6 8]) :=
    along_auditor (by decide +kernel) (by decide +kernel) (by decide +kernel) (by decide +kernel)
  have hgenuine : Runs.Along auditorService.step (Genuine auditorService) auditorStart
      auditorEvents :=
    along_auditor (by decide +kernel)
      (genuine_auditor (by decide +kernel) (by decide +kernel) (by decide +kernel))
      (genuine_auditor (by decide +kernel) (by decide +kernel) (by decide +kernel))
      (by decide +kernel)
  refine ⟨hgenuine, by rw [hissued]; rfl, fun hdue => ?_⟩
  obtain ⟨c, ⟨before, rest, b, user, hpast, hb, hchecking, huser, -, -, hnone⟩, -⟩ :=
    hdue auditorEvents 6 8 [] _ rfl hissued
  rw [hpast, List.append_assoc] at hguarded
  have hafter := ((Runs.along_append _ _ _ _ _).mp hguarded).2
  have hactive : (auditorService.run auditorStart before).guarded 6 = true := by
    cases rest with
    | nil => exact hafter.1
    | cons e rest => exact hafter.1
  unfold Sessions.guarded at hactive
  rw [hb] at hactive
  simp [hchecking, huser, hnone] at hactive
end Bantam
