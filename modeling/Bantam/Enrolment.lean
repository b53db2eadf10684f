import Bantam.Ceremonies

/-! Two laws of enrolment over all interleavings. A password alone begins an enrolment only for
a user without a factor, and an authenticator app is set up only for a user without one; both
are tested when the request is begun or prepared, and the factor comes when it completes. -/
namespace Bantam
open Tables

/-- An enrolment whose login had no token to show. -/
def MfaTransaction.passwordOnly (t : MfaTransaction) : Bool :=
  t.purpose ≠ .login && t.sourceJti.isNone

def NewTransaction.passwordOnly (new : NewTransaction) : Bool :=
  new.purpose ≠ .login && new.source.isNone

namespace MfaCall

/-- A completion of the request that began before its expiry and is still going on. -/
def completes (t : MfaTransaction) : MfaCall → Bool
  | .complete c =>
    c.result.isNone && c.transactionId = t.transactionId && c.draw.databaseNow < t.expiresAt
  | _ => false

/-- A login that has already read that the user has no factor of the kind being enrolled. -/
def overlooks (t : MfaTransaction) : MfaCall → Bool
  | .begin c => c.userId = t.userId &&
    match c.stage with
    | .totpExists passkey => !passkey && roleRequiresMfa c.role && t.purpose = .enrollPasskey
    | .delete new | .insert new => new.passwordOnly
    | _ => false
  | _ => false

/-- The request that a preparation is about to make a TOTP enrolment. -/
def cleared : MfaCall → Option MfaTransaction
  | .prepare c =>
    match c.method, c.stage with
    | .totp, .update t => some t
    | _, _ => none
  | _ => none
end MfaCall

namespace Ceremonies

/-- The request may still be completed, if its response is right. -/
def completable (s : Ceremonies) (t : MfaTransaction) : Bool :=
  t.consumedAt.isNone && t.attempts < maxAttempts &&
    (s.clock < t.expiresAt || s.calls.any (MfaCall.completes t))

/-- The request that the step completes, if it does. -/
def completed (service : MfaService) (s : Ceremonies) : CeremonyEvent → Option MfaTransaction
  | .advance i => s.calls[i]?.bind (MfaCall.completed service (s.blocked i) s.db)
  | _ => none

/-- The TOTP enrolments, and the requests that are about to be. -/
def totpEnrolments (s : Ceremonies) : List MfaTransaction :=
  (s.db.transactions.filter fun t => t.purpose = .enrollTotp) ++ s.calls.filterMap MfaCall.cleared
end Ceremonies

/-- A password-only enrolment completes for a user without a factor. -/
def FirstFactor (service : MfaService) (s : Ceremonies) (e : CeremonyEvent) : Prop :=
  ∀ t ∈ s.completed service e, t.passwordOnly = true → hasActiveFactor t.userId s.db = false

/-- When an enrolment completes, no other password-only enrolment of the user is open, nor is
one about to be begun on a read that the new factor belies. -/
def LoneEnrolment (service : MfaService) (s : Ceremonies) (e : CeremonyEvent) : Prop :=
  ∀ t ∈ s.completed service e, t.purpose ≠ .login →
    (∀ u ∈ s.db.transactions, u.userId = t.userId → u.transactionId ≠ t.transactionId →
      u.passwordOnly = true → s.completable u = false) ∧
    ∀ c ∈ s.calls, c.overlooks t = false

/-- While the user has an authenticator app the step leaves its secret. -/
def SecretsKept (settings : MfaSettings) (service : MfaService) (s : Ceremonies)
    (e : CeremonyEvent) : Prop :=
  ∀ userId, s.db.hasTotp userId = true →
    (ceremonyStep settings service s e).db.storedSecret userId = s.db.storedSecret userId

/-- When a TOTP enrolment completes, no other one of the user is open. -/
def LoneTotp (service : MfaService) (s : Ceremonies) (e : CeremonyEvent) : Prop :=
  ∀ t ∈ s.completed service e, t.purpose = .enrollTotp →
    ∀ u ∈ s.totpEnrolments, u.userId = t.userId → u.transactionId ≠ t.transactionId →
      s.completable u = false

instance (service : MfaService) (s : Ceremonies) (e : CeremonyEvent) :
    Decidable (LoneEnrolment service s e) :=
  inferInstanceAs (Decidable (∀ t ∈ s.completed service e, t.purpose ≠ .login →
    (∀ u ∈ s.db.transactions, u.userId = t.userId → u.transactionId ≠ t.transactionId →
      u.passwordOnly = true → s.completable u = false) ∧
    ∀ c ∈ s.calls, c.overlooks t = false))

instance (service : MfaService) (s : Ceremonies) (e : CeremonyEvent) :
    Decidable (LoneTotp service s e) :=
  inferInstanceAs (Decidable (∀ t ∈ s.completed service e, t.purpose = .enrollTotp →
    ∀ u ∈ s.totpEnrolments, u.userId = t.userId → u.transactionId ≠ t.transactionId →
      s.completable u = false))

/-- What a login has read still holds, as far as it goes on to a password-only enrolment. -/
def Begin.Current (db : MfaDb) (c : Begin) : Prop :=
  match c.stage with
  | .totpExists passkey =>
    passkey = false → roleRequiresMfa c.role = true → db.hasPasskey c.userId = false
  | .delete new | .insert new => new.passwordOnly = true → hasActiveFactor c.userId db = false
  | _ => True

/-- An open password-only enrolment, begun or about to be, is of a user without a factor. -/
structure Factorless (s : Ceremonies) : Prop where
  requests : ∀ t ∈ s.db.transactions, t.passwordOnly = true → s.completable t = true →
    hasActiveFactor t.userId s.db = false
  logins : ∀ c, .begin c ∈ s.calls → c.Current s.db

/-- An open TOTP enrolment is of a user without an authenticator app. -/
def Appless (s : Ceremonies) : Prop :=
  ∀ t ∈ s.totpEnrolments, s.completable t = true → s.db.hasTotp t.userId = false

section Completable
variable {settings : MfaSettings} {service : MfaService} {s : Ceremonies} {t t' : MfaTransaction}

theorem completable_iff : s.completable t = true ↔ t.consumedAt = none ∧ t.attempts < maxAttempts ∧
    (s.clock < t.expiresAt ∨ ∃ c ∈ s.calls, c.completes t = true) := by
  simp [Ceremonies.completable, and_assoc]

theorem completable_follows (hf : t.Follows t') (h : s.completable t' = true) :
    s.completable t = true := by
  rw [completable_iff] at h ⊢
  obtain ⟨hconsumed, hattempts, hopen⟩ := h
  refine ⟨hf.consumedAt hconsumed, Nat.lt_of_le_of_lt hf.attempts hattempts, ?_⟩
  rw [hf.expiresAt] at hopen
  cases hopen with
  | inl h => exact .inl h
  | inr h =>
    obtain ⟨c, hc, hcompletes⟩ := h
    refine .inr ⟨c, hc, ?_⟩
    cases c with
    | complete c => simpa [MfaCall.completes, hf.transactionId, hf.expiresAt] using hcompletes
    | begin | prepare | remove | crashed => cases hcompletes

/-- The call that moves completes what it was completing before, or nothing more. -/
theorem advance_completes {databaseNow : Instant} {blocked : MfaLock → Bool} {db : MfaDb}
    {c : MfaCall} (h : (c.advance settings service databaseNow blocked db).1.completes t = true) :
    c.completes t = true := by
  cases c with
  | complete c =>
    simp only [MfaCall.advance, FactorCall.advance] at h
    split_ifs at h
    · cases h
    · exact h
  | begin | prepare | remove | crashed => cases h

/-- No step opens a request again: what begins to complete it begins before its expiry. -/
theorem completable_step {e : CeremonyEvent}
    (h : (ceremonyStep settings service s e).completable t = true) : s.completable t = true := by
  rw [completable_iff] at h ⊢
  obtain ⟨hconsumed, hattempts, hopen⟩ := h
  refine ⟨hconsumed, hattempts, ?_⟩
  have begun : ∀ call : MfaCall, (call.completes t = true → s.clock < t.expiresAt) →
      (s.clock < t.expiresAt ∨ ∃ c ∈ (s.call call).calls, c.completes t = true) →
      s.clock < t.expiresAt ∨ ∃ c ∈ s.calls, c.completes t = true := by
    intro call hcall h
    cases h with
    | inl h => exact .inl h
    | inr h =>
      obtain ⟨c, hc, hcompletes⟩ := h
      cases List.mem_append.mp hc with
      | inl hc => exact .inr ⟨c, hc, hcompletes⟩
      | inr hc => exact .inl (hcall (List.mem_singleton.mp hc ▸ hcompletes))
  have moved : ∀ (i : Nat) (call : MfaCall),
      (call.completes t = true → ∃ c ∈ s.calls, c.completes t = true) →
      (s.clock < t.expiresAt ∨ ∃ c ∈ s.calls.set i call, c.completes t = true) →
      s.clock < t.expiresAt ∨ ∃ c ∈ s.calls, c.completes t = true := by
    intro i call hcall h
    cases h with
    | inl h => exact .inl h
    | inr h =>
      obtain ⟨c, hc, hcompletes⟩ := h
      cases List.mem_or_eq_of_mem_set hc with
      | inl hc => exact .inr ⟨c, hc, hcompletes⟩
      | inr he => exact .inr (hcall (he ▸ hcompletes))
  cases e with
  | tick elapsed =>
    cases hopen with
    | inl h =>
      have hclock : s.clock ≤ s.clock + (elapsed : Int) :=
        Int.le_add_of_nonneg_right (Int.natCast_nonneg elapsed)
      exact .inl (Int.lt_of_le_of_lt hclock h)
    | inr h => exact .inr h
  | login userId transactionId challenge now =>
    simp only [ceremonyStep] at hopen
    split at hopen
    · exact begun _ (fun h => by cases h) hopen
    · exact hopen
  | beginEnrollment userId role transactionId source now =>
    simp only [ceremonyStep] at hopen
    split_ifs at hopen
    · exact begun _ (fun h => by cases h) hopen
    · exact hopen
  | prepare | remove => exact begun _ (fun h => by cases h) hopen
  | complete transactionId response credentialRowId now =>
    refine begun _ (fun h => ?_) hopen
    simp only [MfaCall.completes, Bool.and_eq_true, decide_eq_true_eq] at h
    exact h.2
  | advance i =>
    simp only [ceremonyStep] at hopen
    cases hi : s.calls[i]? with
    | none =>
      simp only [hi] at hopen
      exact hopen
    | some c =>
      simp only [hi] at hopen
      exact moved i _ (fun h => ⟨c, List.mem_of_getElem? hi, advance_completes h⟩) hopen
  | crash i => exact moved i _ (fun h => by cases h) hopen
end Completable

section Steps
variable {settings : MfaSettings} {service : MfaService} {databaseNow : Instant}
  {blocked : MfaLock → Bool} {db : MfaDb} {call : MfaCall} {rows : List MfaTransaction}
  {s : Ceremonies} {i : Nat} {userId : Uuid} {t u : MfaTransaction} {e : CeremonyEvent}

theorem follows_prepare (method : MfaMethod) (label : String) (challenge pendingSecret : Bytes)
    (t : MfaTransaction) : t.Follows (t.prepare method label challenge pendingSecret) := by
  cases method <;> exact ⟨rfl, rfl, rfl, rfl, id, Nat.le_refl _⟩

theorem prepare_purpose (method : MfaMethod) (label : String) (challenge pendingSecret : Bytes)
    (t : MfaTransaction) :
    (t.prepare method label challenge pendingSecret).purpose = method.purpose := by
  cases method <;> rfl

/-- A request after a step is one from before, which the step may have consumed, or the one
that the step inserts. -/
theorem RequestStep.origin (h : RequestStep settings service databaseNow blocked db call rows)
    (hu : u ∈ rows) :
    (∃ q ∈ db.transactions, q.Follows u ∧
      (u.purpose = q.purpose ∨ ∃ c t, call = .prepare c ∧ c.stage = .update t ∧
        q.transactionId = c.transactionId ∧ u.purpose = c.method.purpose) ∧
      ∀ t, call.completed service blocked db = some t → q.transactionId = t.transactionId →
        u.consumedAt.isSome) ∨
    ∃ c new, call = .begin c ∧ c.stage = .insert new ∧
      u = settings.row c.userId c.transactionId c.now databaseNow new := by
  cases h with
  | same call hnone =>
    refine .inl ⟨u, hu, follows_refl u, .inl rfl, fun t ht => ?_⟩
    rw [hnone] at ht
    cases ht
  | deleted c =>
    exact .inl ⟨u, (List.mem_filter.mp hu).1, follows_refl u, .inl rfl, fun t ht => by cases ht⟩
  | inserted c new hstage =>
    cases List.mem_append.mp hu with
    | inl hu => exact .inl ⟨u, hu, follows_refl u, .inl rfl, fun t ht => by cases ht⟩
    | inr hu => exact .inr ⟨c, new, rfl, hstage, List.mem_singleton.mp hu⟩
  | prepared c t hstage =>
    left
    obtain ⟨q, hq, rfl⟩ := mem_updateWhere.mp hu
    refine ⟨q, hq, ?_, ?_, fun t ht => by cases ht⟩
    · split_ifs
      · exact follows_prepare _ _ _ _ q
      · exact follows_refl q
    · split_ifs with hid
      · exact .inr ⟨c, t, rfl, hstage, of_decide_eq_true hid, prepare_purpose _ _ _ _ q⟩
      · exact .inl rfl
  | answered c f hfree hf hdone =>
    left
    obtain ⟨q, hq, rfl⟩ := mem_updateWhere.mp hu
    refine ⟨q, hq, ?_, ?_, fun t ht hid => ?_⟩
    · split_ifs
      · exact (hf q).1
      · exact follows_refl q
    · split_ifs
      · exact .inl (hf q).2
      · exact .inl rfl
    · obtain ⟨hc, hconsumed⟩ := hdone t ht
      rw [if_pos (decide_eq_true (hid.trans hc))]
      exact hconsumed q

theorem advance_hasActiveFactor
    (h : hasActiveFactor userId (call.advance settings service databaseNow blocked db).2 = true) :
    hasActiveFactor userId db = true ∨ ∃ t, call.completed service blocked db = some t ∧
      t.userId = userId ∧ t.purpose ≠ .login := by
  have hor : ∀ db : MfaDb, hasActiveFactor userId db = true ↔
      db.hasPasskey userId = true ∨ db.hasTotp userId = true :=
    fun db => Bool.or_eq_true _ _ ▸ Iff.rfl
  rw [hor] at h ⊢
  cases h with
  | inl h =>
    cases advance_hasPasskey h with
    | inl h => exact .inl (.inl h)
    | inr h =>
      obtain ⟨t, hdone, hu, hp⟩ := h
      exact .inr ⟨t, hdone, hu, by simp [hp]⟩
  | inr h =>
    cases advance_hasTotp h with
    | inl h => exact .inl (.inr h)
    | inr h =>
      obtain ⟨t, hdone, hu, hp⟩ := h
      exact .inr ⟨t, hdone, hu, by simp [hp]⟩

theorem completed_advance (hi : s.calls[i]? = some call) :
    s.completed service (.advance i) = call.completed service (s.blocked i) s.db := by
  simp [Ceremonies.completed, hi]

/-- What a step completes could be completed. -/
theorem completed_completable (h : s.completed service e = some t) :
    t ∈ s.db.transactions ∧ s.completable t = true := by
  cases e with
  | advance i =>
    obtain ⟨call, hi, hdone⟩ := Option.bind_eq_some_iff.mp h
    obtain ⟨c, rfl, hfree, haccepted, hfound⟩ := completed_cases hdone
    have hend : FactorEnd c.transactionId c.draw.databaseNow s.db (c.complete service s.db).1.isOk
        (c.complete service s.db).2 := complete_end
    have hok : (c.complete service s.db).1.isOk = true := haccepted
    rw [hok] at hend
    cases hend with
    | @completed q mid db' found written consumed =>
      obtain ⟨hq, hexpiry, hconsumed, hattempts⟩ := transactionForUpdate_found found
      have he : q = t := Option.some.inj (hq.symm.trans hfound)
      subst he
      refine ⟨lookup_mem hfound, completable_iff.mpr ⟨hconsumed, hattempts, .inr ?_⟩⟩
      have hpending : c.result.isNone = true := by
        simp only [FactorCall.free, Bool.and_eq_true] at hfree
        exact hfree.1
      have hkey : q.transactionId = c.transactionId := lookup_key hfound
      exact ⟨_, List.mem_of_getElem? hi, by simp [MfaCall.completes, hpending, hkey, hexpiry]⟩
  | tick | login | beginEnrollment | prepare | complete | remove | crash => cases h

/-- A row that a preparation changes is the one that it has locked. -/
theorem Coherent.prepared (hco : Coherent s) {c : Preparation} (hc : .prepare c ∈ s.calls)
    (hstage : c.stage = .update t) (hu : u ∈ s.db.transactions)
    (hid : u.transactionId = c.transactionId) : u = t ∧ t.purpose = .enrollChoice := by
  have hheld : c.held = some t := by simp [Preparation.held, hstage]
  obtain ⟨ht, hkey, hp⟩ := hco.held c t hc hheld
  exact ⟨hco.keyed.eq_of_key hu ht (hid.trans hkey.symm), hp⟩
end Steps

section Factors
variable {settings : MfaSettings} {service : MfaService} {s : Ceremonies} {i : Nat}
  {call : MfaCall} {c : Begin} {e : CeremonyEvent}

theorem row_passwordOnly {userId transactionId : Uuid} {now databaseNow : Instant}
    (new : NewTransaction) :
    (settings.row userId transactionId now databaseNow new).passwordOnly = new.passwordOnly := by
  cases new with
  | login challenge => rfl
  | enrollChoice source => cases source <;> rfl

theorem factorMethods_nil {passkey totp : Bool} (h : settings.factorMethods passkey totp = .ok []) :
    passkey = false ∧ totp = false := by
  cases passkey with
  | false =>
    cases totp with
    | false => exact ⟨rfl, rfl⟩
    | true => cases h
  | true =>
    cases henabled : settings.passkeysEnabled <;>
      cases totp <;> simp [MfaSettings.factorMethods, henabled] at h

/-- A login that goes on to a password-only enrolment has read that there is no factor. -/
theorem login_passwordOnly {passkey totp : Bool} {methods : List MfaMethod} {role : Role}
    {challenge : Bytes} {new : NewTransaction}
    (hm : settings.factorMethods passkey totp = .ok methods)
    (hn : loginTransaction role challenge methods = some new) (hp : new.passwordOnly = true) :
    passkey = false ∧ totp = false ∧ roleRequiresMfa role = true := by
  unfold loginTransaction at hn
  by_cases hempty : methods = []
  · rw [if_pos hempty] at hn
    subst hempty
    obtain ⟨hpasskey, htotp⟩ := factorMethods_nil hm
    split_ifs at hn with hrole
    exact ⟨hpasskey, htotp, hrole⟩
  · rw [if_neg hempty] at hn
    cases hn
    cases hp

theorem Begin.Current.congr {db db' : MfaDb} (h : c.Current db)
    (hpasskeys : db'.passkeys = db.passkeys) (htotps : db'.totps = db.totps) : c.Current db' := by
  have hp : db'.hasPasskey c.userId = db.hasPasskey c.userId := by
    rw [MfaDb.hasPasskey, hpasskeys, MfaDb.hasPasskey]
  have ha : hasActiveFactor c.userId db' = hasActiveFactor c.userId db := by
    rw [hasActiveFactor, hpasskeys, htotps, hasActiveFactor]
  unfold Begin.Current at h ⊢
  cases hs : c.stage with
  | totpExists | delete | insert =>
    simp only [hs] at h
    simp only [hp, ha]
    exact h
  | passkeyExists | ended => trivial

/-- What a login reads next it reads as it is. -/
theorem Begin.Current.advance {databaseNow : Instant} {blocked : MfaLock → Bool} {db : MfaDb}
    (h : c.Current db) :
    (c.become (c.advance settings databaseNow blocked db).1).Current db := by
  unfold Begin.Current at h
  unfold Begin.advance
  cases hs : c.stage with
  | passkeyExists => exact fun hnone _ => hnone
  | totpExists passkey =>
    simp only [hs] at h
    simp only
    split
    · trivial
    · rename_i methods hm
      split
      · trivial
      · rename_i new hn
        intro hp
        obtain ⟨hpasskey, htotp, hrole⟩ := login_passwordOnly hm hn hp
        have hnone : db.hasPasskey c.userId = false := h hpasskey hrole
        exact Bool.or_eq_false_iff.mpr ⟨hnone, htotp⟩
  | delete new =>
    simp only [hs] at h
    simp only
    split_ifs <;> simpa [Begin.become, Begin.Current, hs] using h
  | insert new =>
    simp only
    split <;> trivial
  | ended result => simp [Begin.become, Begin.Current]

/-- What another call's step does to the factors leaves the login's reads true, unless it
enrols a factor that they miss. -/
theorem Begin.Current.other {databaseNow : Instant} {blocked : MfaLock → Bool} {db : MfaDb}
    (h : c.Current db)
    (hlone : ∀ t, call.completed service blocked db = some t → t.purpose ≠ .login →
      (MfaCall.begin c).overlooks t = false) :
    c.Current (call.advance settings service databaseNow blocked db).2 := by
  unfold Begin.Current at h ⊢
  have enrolled : ∀ new : NewTransaction, new.passwordOnly = true →
      (c.stage = .delete new ∨ c.stage = .insert new) → hasActiveFactor c.userId db = false →
      hasActiveFactor c.userId
        (call.advance settings service databaseNow blocked db).2 = false := by
    intro new hp hstage hnone
    by_contra hactive
    rw [Bool.not_eq_false] at hactive
    cases advance_hasActiveFactor hactive with
    | inl h => simp [hnone] at h
    | inr h =>
      obtain ⟨t, hdone, hu, hpurpose⟩ := h
      have hmiss := hlone t hdone hpurpose
      cases hstage with
      | inl hs => simp [MfaCall.overlooks, hs, hu, hp] at hmiss
      | inr hs => simp [MfaCall.overlooks, hs, hu, hp] at hmiss
  cases hs : c.stage with
  | passkeyExists | ended => trivial
  | totpExists passkey =>
    simp only [hs] at h
    intro hpasskey hrole
    by_contra hactive
    rw [Bool.not_eq_false] at hactive
    cases advance_hasPasskey hactive with
    | inl hp => simp [h hpasskey hrole] at hp
    | inr hp =>
      obtain ⟨t, hdone, hu, hpurpose⟩ := hp
      have hmiss := hlone t hdone (by simp [hpurpose])
      simp [MfaCall.overlooks, hs, hu, hpasskey, hrole, hpurpose] at hmiss
  | delete new =>
    simp only [hs] at h
    exact fun hp => enrolled new hp (.inl hs) (h hp)
  | insert new =>
    simp only [hs] at h
    exact fun hp => enrolled new hp (.inr hs) (h hp)

theorem Factorless.advance (hco : Coherent s) (h : Factorless s) (hi : s.calls[i]? = some call)
    (hlone : LoneEnrolment service s (.advance i)) :
    Factorless (ceremonyStep settings service s (.advance i)) := by
  have alone : ∀ t, call.completed service (s.blocked i) s.db = some t → t.purpose ≠ .login → _ :=
    fun t hdone => hlone t (by rw [completed_advance hi, hdone]; rfl)
  have hopens : ∀ t, (ceremonyStep settings service s (.advance i)).completable t = true →
      s.completable t = true := fun t => completable_step
  simp only [ceremonyStep, hi] at hopens ⊢
  have hrows := advance_requests settings service s.clock (s.blocked i) s.db call
  refine ⟨?_, ?_⟩
  · intro u hu hp hopen
    by_contra hactive
    rw [Bool.not_eq_false] at hactive
    have factors := advance_hasActiveFactor hactive
    cases hrows.origin hu with
    | inl horigin =>
      obtain ⟨q, hq, hfollows, hpurpose, hconsumed⟩ := horigin
      have hqp : q.passwordOnly = true := by
        simp only [MfaTransaction.passwordOnly, Bool.and_eq_true, decide_eq_true_eq] at hp ⊢
        refine ⟨?_, hfollows.sourceJti ▸ hp.2⟩
        cases hpurpose with
        | inl hsame => exact hsame ▸ hp.1
        | inr hprepared =>
          obtain ⟨c, t, rfl, hstage, hid, -⟩ := hprepared
          obtain ⟨rfl, hchoice⟩ := hco.prepared (List.mem_of_getElem? hi) hstage hq hid
          simp [hchoice]
      have hqopen := completable_follows hfollows (hopens u hopen)
      have hnone := h.requests q hq hqp hqopen
      cases factors with
      | inl hold =>
        rw [hfollows.userId, hnone] at hold
        cases hold
      | inr hnew =>
        obtain ⟨t, hdone, howner, hlogin⟩ := hnew
        by_cases hid : q.transactionId = t.transactionId
        · have hgone := hconsumed t hdone hid
          rw [(completable_iff.mp hopen).1] at hgone
          cases hgone
        · have hclosed := (alone t hdone hlogin).1 q hq (hfollows.userId ▸ howner.symm) hid hqp
          rw [hqopen] at hclosed
          cases hclosed
    | inr horigin =>
      obtain ⟨c, new, rfl, hstage, rfl⟩ := horigin
      have hcurrent := h.logins c (List.mem_of_getElem? hi)
      simp only [Begin.Current, hstage] at hcurrent
      have hnone : hasActiveFactor c.userId s.db = false :=
        hcurrent (by rwa [row_passwordOnly] at hp)
      cases factors with
      | inl hold =>
        have howner : hasActiveFactor c.userId s.db = true := hold
        rw [hnone] at howner
        cases howner
      | inr hnew =>
        obtain ⟨t, hdone, -⟩ := hnew
        cases hdone
  · intro c hc
    cases Locks.mem_set hc with
    | inl he =>
      cases call with
      | begin p =>
        cases he
        have hcurrent : (p.become (p.advance settings s.clock (s.blocked i) s.db).1).Current s.db :=
          (h.logins p (List.mem_of_getElem? hi)).advance
        have hframe := begin_frame settings service s.clock (s.blocked i) s.db p
        exact Begin.Current.congr hcurrent hframe.2.1 hframe.2.2
      | prepare | complete | remove | crashed => cases he
    | inr hother =>
      obtain ⟨j, -, hj⟩ := hother
      have hmem := List.mem_of_getElem? hj
      exact (h.logins c hmem).other fun t hdone hp => (alone t hdone hp).2 _ hmem

/-- A call that begins leaves the laws to what it does later. -/
theorem Factorless.begun (h : Factorless s) (hcall : ∀ c, call = .begin c → c.Current s.db)
    (hopens : ∀ t, (s.call call).completable t = true → s.completable t = true) :
    Factorless (s.call call) := by
  refine ⟨fun t ht hp hopen => h.requests t ht hp (hopens t hopen), ?_⟩
  intro c hc
  cases List.mem_append.mp hc with
  | inl hc => exact h.logins c hc
  | inr hc => exact hcall c (List.mem_singleton.mp hc).symm

theorem Factorless.step (s : Ceremonies) (e : CeremonyEvent) (h : Coherent s ∧ Factorless s)
    (hlone : LoneEnrolment service s e) :
    Coherent (ceremonyStep settings service s e) ∧
      Factorless (ceremonyStep settings service s e) := by
  refine ⟨h.1.step s e, ?_⟩
  have hopens : ∀ t, (ceremonyStep settings service s e).completable t = true →
      s.completable t = true := fun t => completable_step
  cases e with
  | tick elapsed =>
    exact ⟨fun t ht hp hopen => h.2.requests t ht hp (hopens t hopen), h.2.logins⟩
  | login userId transactionId challenge now =>
    simp only [ceremonyStep] at hopens ⊢
    split at hopens
    · refine h.2.begun (fun c hc => ?_) hopens
      cases hc
      trivial
    · exact h.2
  | beginEnrollment userId role transactionId source now =>
    simp only [ceremonyStep] at hopens ⊢
    split_ifs at hopens ⊢
    · refine h.2.begun (fun c hc => ?_) hopens
      cases hc
      exact fun hp => by cases hp
    · exact h.2
  | prepare | complete | remove => exact h.2.begun (fun c hc => by cases hc) hopens
  | advance i =>
    cases hi : s.calls[i]? with
    | none =>
      simp only [ceremonyStep, hi]
      exact h.2
    | some call => exact h.2.advance h.1 hi hlone
  | crash i =>
    refine ⟨fun t ht hp hopen => h.2.requests t ht hp (hopens t hopen), fun c hc => ?_⟩
    cases Locks.mem_set hc with
    | inl he => cases he
    | inr hother =>
      obtain ⟨j, -, hj⟩ := hother
      exact h.2.logins c (List.mem_of_getElem? hj)
end Factors

/-! The seeded administrator before any factor, with two browsers. -/

/-- The bytes of the Fernet tokens of the two secrets below. -/
def firstToken : Bytes :=
  [103, 65, 65, 65, 65, 65, 66, 108, 85, 95, 69, 65, 65, 65, 69, 67, 65, 119, 81, 70, 66, 103, 99,
  73, 67, 81, 111, 76, 68, 65, 48, 79, 68, 55, 82, 119, 76, 84, 122, 53, 116, 117, 90, 52, 122,
  112, 81, 80, 80, 115, 112, 70, 48, 57, 116, 50, 79, 72, 110, 74, 100, 122, 108, 65, 82, 113,
  119, 99, 86, 79, 85, 98, 80, 56, 121, 77, 51, 101, 45, 119, 50, 119, 120, 105, 68, 83, 79, 86,
  101, 107, 65, 80, 49, 79, 106, 71, 112, 81, 73, 101, 108, 82, 108, 81, 90, 68, 67, 86, 65, 88,
  86, 95, 103, 81, 102, 114, 100, 95, 65, 88, 110, 97, 52, 112, 65, 108, 105, 87, 71, 98, 71, 69,
  108, 48, 106, 117, 83, 70, 106, 73]

def secondToken : Bytes :=
  [103, 65, 65, 65, 65, 65, 66, 108, 85, 95, 69, 65, 69, 66, 69, 83, 69, 120, 81, 86, 70, 104, 99,
  89, 71, 82, 111, 98, 72, 66, 48, 101, 72, 121, 54, 71, 99, 72, 51, 69, 84, 103, 98, 50, 69, 53,
  79, 120, 69, 120, 98, 72, 104, 87, 48, 71, 80, 54, 72, 80, 80, 105, 84, 113, 90, 67, 112, 111,
  84, 108, 56, 113, 117, 54, 115, 103, 106, 97, 121, 78, 121, 114, 48, 115, 105, 57, 98, 45, 52,
  54, 118, 84, 76, 115, 65, 72, 74, 76, 111, 51, 117, 73, 120, 85, 74, 68, 101, 78, 119, 49, 100,
  113, 90, 76, 48, 101, 117, 82, 48, 85, 90, 90, 55, 82, 113, 103, 122, 70, 121, 77, 55, 51, 116,
  67, 107, 89, 98, 74, 86, 101]

def firstSecret : String := "JBSWY3DPEHPK3PXPJBSWY3DPEHPK3PXP"
def secondSecret : String := "GEZDGNBVGY3TQOJQGEZDGNBVGY3TQOJQ"

/-- The codes are those of the two secrets in the time-step of `sampleNow`. -/
def enrolmentService : MfaService where
  webauthn := sampleMfaService.webauthn
  pyotp := {
    interval := 30
    codeAt := fun secret time =>
      if time / 30 ≠ 56666666 then ""
      else if secret = firstSecret then "406058"
      else if secret = secondSecret then "921300" else ""
    timecode := fun time => time / 30 }
  decrypt := fun token =>
    if token = firstToken then some firstSecret
    else if token = secondToken then some secondSecret else none

def enrolmentSettings : MfaSettings := ⟨minutes 5, false⟩

def unenrolledDb : MfaDb where
  bank := { Db.migrated with users := seedUsers }
  transactions := []
  passkeys := []
  totps := []
  revocations := []

/-- Two logins begin requests 1 and 2, and each is prepared for an authenticator app; the last
two calls are about to complete them. -/
def twoEnrolments : List CeremonyEvent :=
  .login adminUserId 1 [] sampleNow :: List.replicate 4 (.advance 0) ++
  .login adminUserId 2 [] sampleNow :: List.replicate 4 (.advance 1) ++
  .prepare 1 .totp "" [] firstToken :: List.replicate 3 (.advance 2) ++
  .prepare 2 .totp "" [] secondToken :: List.replicate 3 (.advance 3) ++
  [.complete 1 (.totp "406058") 0 sampleNow, .complete 2 (.totp "921300") 0 sampleNow]

/-- One enrolment, and a login and a second enrolment after it. -/
def enrolmentInTurn : List CeremonyEvent :=
  .login adminUserId 1 [] sampleNow :: List.replicate 4 (.advance 0) ++
  .prepare 1 .totp "" [] firstToken :: List.replicate 3 (.advance 1) ++
  .complete 1 (.totp "406058") 0 sampleNow :: .advance 2 ::
  .login adminUserId 2 [] sampleNow :: List.replicate 4 (.advance 3) ++
  .beginEnrollment adminUserId .bankAdmin 3 (7, sampleNow + minutes 15) sampleNow ::
    List.replicate 2 (.advance 4) ++
  .prepare 3 .totp "" [] secondToken :: List.replicate 3 (.advance 5)

/-- In every run in which no other password-only enrolment of the user is open when one of
their enrolments completes, each password-only enrolment that completes gives the user their
first factor. -/
theorem password_only_first_factor (settings : MfaSettings) (service : MfaService) (db : MfaDb)
    (clock : Instant) (es : List CeremonyEvent) (hnone : db.transactions = [])
    (hlone : Runs.Along (ceremonyStep settings service) (LoneEnrolment service)
      (Ceremonies.start db clock) es) :
    Runs.Along (ceremonyStep settings service) (FirstFactor service)
      (Ceremonies.start db clock) es := by
  have hstart : Factorless (Ceremonies.start db clock) := by
    refine ⟨fun t ht => ?_, fun c hc => by cases hc⟩
    rw [Ceremonies.start, hnone] at ht
    cases ht
  refine Runs.along_mono Factorless.step ?_ ⟨coherent_start db clock hnone, hstart⟩ hlone
  intro s e h _ t ht hp
  obtain ⟨hmem, hopen⟩ := completed_completable ht
  exact h.2.requests t hmem hp hopen

theorem password_only_first_factor_in_turn :
    Runs.Along (ceremonyStep enrolmentSettings enrolmentService) (FirstFactor enrolmentService)
      (Ceremonies.start unenrolledDb sampleNow) enrolmentInTurn :=
  password_only_first_factor enrolmentSettings enrolmentService unenrolledDb sampleNow
    enrolmentInTurn rfl (by decide +kernel)

/-- The first enrolment has completed, and the second, password-only too, completes after it. -/
theorem password_only_second_factor :
    let s := Runs.run (ceremonyStep enrolmentSettings enrolmentService)
      (Ceremonies.start unenrolledDb sampleNow) (twoEnrolments ++ [.advance 4])
    ∃ t ∈ s.completed enrolmentService (.advance 5),
      t.passwordOnly = true ∧ hasActiveFactor t.userId s.db = true := by
  decide +kernel

section Apps
variable {settings : MfaSettings} {service : MfaService} {s : Ceremonies} {i : Nat}
  {call : MfaCall} {t u : MfaTransaction}

theorem mem_totpEnrolments : t ∈ s.totpEnrolments ↔
    (t ∈ s.db.transactions ∧ t.purpose = .enrollTotp) ∨
      ∃ c ∈ s.calls, MfaCall.cleared c = some t := by
  simp [Ceremonies.totpEnrolments, List.mem_filter]

theorem cleared_prepare (h : call.cleared = some t) :
    ∃ c, call = .prepare c ∧ c.method = .totp ∧ c.stage = .update t := by
  cases call with
  | prepare c =>
    cases hm : c.method <;> cases hs : c.stage <;> simp [MfaCall.cleared, hm, hs] at h
    exact ⟨c, rfl, hm, by rw [hs, h]⟩
  | begin | complete | remove | crashed => cases h

/-- A preparation for an authenticator app reads whether there is one before it writes. -/
theorem selected_totp {c : Preparation} (hm : c.method = .totp) :
    c.selected settings u ≠ .update t := by
  unfold Preparation.selected
  simp only [hm]
  split_ifs <;> simp

/-- A preparation is cleared by a user without an authenticator app. -/
theorem advance_cleared {databaseNow : Instant} {blocked : MfaLock → Bool} {db : MfaDb}
    (h : (call.advance settings service databaseNow blocked db).1.cleared = some t) :
    db.hasTotp t.userId = false ∧ call.completed service blocked db = none := by
  cases call with
  | prepare c =>
    refine ⟨?_, rfl⟩
    obtain ⟨p, hp, hm, hs⟩ := cleared_prepare h
    cases hp
    have hmethod : c.method = .totp := hm
    have hstage : (c.advance settings blocked db).1 = .update t := hs
    unfold Preparation.advance at hstage
    cases hc : c.stage with
    | select =>
      simp only [hc] at hstage
      split_ifs at hstage
      split at hstage
      · cases hstage
      · exact absurd hstage (selected_totp hmethod)
    | existing q =>
      simp only [hc] at hstage
      split_ifs at hstage with htotp
      cases hstage
      simpa using htotp
    | update q =>
      simp only [hc] at hstage
      cases hstage
    | ended result =>
      simp only [hc] at hstage
      cases hstage
  | begin | complete | remove | crashed => cases h

theorem row_not_totp {userId transactionId : Uuid} {now databaseNow : Instant}
    (new : NewTransaction) :
    (settings.row userId transactionId now databaseNow new).purpose ≠ .enrollTotp := by
  cases new with
  | login | enrollChoice =>
    intro h
    cases h

theorem Appless.advance (hco : Coherent s) (h : Appless s) (hi : s.calls[i]? = some call)
    (hlone : LoneTotp service s (.advance i)) :
    Appless (ceremonyStep settings service s (.advance i)) := by
  have alone : ∀ t, call.completed service (s.blocked i) s.db = some t → t.purpose = .enrollTotp →
      _ := fun t hdone => hlone t (by rw [completed_advance hi, hdone]; rfl)
  have hopens : ∀ t, (ceremonyStep settings service s (.advance i)).completable t = true →
      s.completable t = true := fun t => completable_step
  simp only [ceremonyStep, hi] at hopens ⊢
  -- an open enrolment from before the step is of a user whom the step gives no app
  have kept : ∀ q ∈ s.totpEnrolments, s.completable q = true →
      (∀ t, call.completed service (s.blocked i) s.db = some t → t.purpose = .enrollTotp →
        q.transactionId ≠ t.transactionId) →
      (call.advance settings service s.clock (s.blocked i) s.db).2.hasTotp q.userId = false := by
    intro q hq hopen hdiffer
    by_contra hactive
    rw [Bool.not_eq_false] at hactive
    cases advance_hasTotp hactive with
    | inl hold =>
      rw [h q hq hopen] at hold
      cases hold
    | inr hnew =>
      obtain ⟨t, hdone, howner, hp⟩ := hnew
      have hclosed := alone t hdone hp q hq howner.symm (hdiffer t hdone hp)
      rw [hopen] at hclosed
      cases hclosed
  intro u hu hopen
  have hold := hopens u hopen
  cases mem_totpEnrolments.mp hu with
  | inl hrow =>
    obtain ⟨hmem, hp⟩ := hrow
    have hrows := advance_requests settings service s.clock (s.blocked i) s.db call
    cases hrows.origin hmem with
    | inl horigin =>
      obtain ⟨q, hq, hfollows, hpurpose, hconsumed⟩ := horigin
      have hqtotp : q ∈ s.totpEnrolments := by
        refine mem_totpEnrolments.mpr ?_
        cases hpurpose with
        | inl hsame => exact .inl ⟨hq, hsame.symm.trans hp⟩
        | inr hprepared =>
          obtain ⟨c, t, rfl, hstage, hid, hmethod⟩ := hprepared
          have hc := List.mem_of_getElem? hi
          obtain ⟨rfl, -⟩ := hco.prepared hc hstage hq hid
          refine .inr ⟨_, hc, ?_⟩
          cases hm : c.method with
          | passkey =>
            rw [hp, hm] at hmethod
            cases hmethod
          | totp => simp [MfaCall.cleared, hm, hstage]
      rw [hfollows.userId]
      refine kept q hqtotp (completable_follows hfollows hold) ?_
      intro t hdone _ hid
      have hgone := hconsumed t hdone hid
      rw [(completable_iff.mp hopen).1] at hgone
      cases hgone
    | inr horigin =>
      obtain ⟨c, new, -, -, rfl⟩ := horigin
      exact absurd hp (row_not_totp new)
  | inr hcall =>
    obtain ⟨c, hc, hcleared⟩ := hcall
    cases Locks.mem_set hc with
    | inl he =>
      rw [he] at hcleared
      obtain ⟨hnone, hdone⟩ := advance_cleared hcleared
      by_contra hactive
      rw [Bool.not_eq_false] at hactive
      cases advance_hasTotp hactive with
      | inl htotp =>
        rw [hnone] at htotp
        cases htotp
      | inr hnew =>
        obtain ⟨t, hcompleted, -⟩ := hnew
        rw [hdone] at hcompleted
        cases hcompleted
    | inr hother =>
      obtain ⟨j, -, hj⟩ := hother
      have hmem := List.mem_of_getElem? hj
      refine kept u (mem_totpEnrolments.mpr (.inr ⟨c, hmem, hcleared⟩)) hold ?_
      -- the completed request is a TOTP enrolment already, the cleared one not yet
      intro t hdone hp hid
      obtain ⟨p, rfl, -, hstage⟩ := cleared_prepare hcleared
      have ht : t ∈ s.db.transactions :=
        (completed_completable ((completed_advance hi).trans hdone)).1
      have hheld : p.held = some u := by simp [Preparation.held, hstage]
      obtain ⟨hu, -, hchoice⟩ := hco.held p u hmem hheld
      rw [hco.keyed.eq_of_key hu ht hid, hp] at hchoice
      cases hchoice

theorem Appless.begun (h : Appless s) (hcall : call.cleared = none)
    (hopens : ∀ t, (s.call call).completable t = true → s.completable t = true) :
    Appless (s.call call) := by
  intro t ht hopen
  refine h t ?_ (hopens t hopen)
  rw [mem_totpEnrolments] at ht ⊢
  cases ht with
  | inl hrow => exact .inl hrow
  | inr hcleared =>
    obtain ⟨c, hc, hcleared⟩ := hcleared
    cases List.mem_append.mp hc with
    | inl hc => exact .inr ⟨c, hc, hcleared⟩
    | inr hc =>
      rw [List.mem_singleton.mp hc, hcall] at hcleared
      cases hcleared

theorem Appless.step (s : Ceremonies) (e : CeremonyEvent) (h : Coherent s ∧ Appless s)
    (hlone : LoneTotp service s e) :
    Coherent (ceremonyStep settings service s e) ∧ Appless (ceremonyStep settings service s e) := by
  refine ⟨h.1.step s e, ?_⟩
  have hopens : ∀ t, (ceremonyStep settings service s e).completable t = true →
      s.completable t = true := fun t => completable_step
  cases e with
  | tick elapsed => exact fun t ht hopen => h.2 t ht (hopens t hopen)
  | login userId transactionId challenge now =>
    simp only [ceremonyStep] at hopens ⊢
    split at hopens
    · exact h.2.begun rfl hopens
    · exact h.2
  | beginEnrollment userId role transactionId source now =>
    simp only [ceremonyStep] at hopens ⊢
    split_ifs at hopens ⊢
    · exact h.2.begun rfl hopens
    · exact h.2
  | complete | remove => exact h.2.begun rfl hopens
  | prepare transactionId method label challenge pendingSecret =>
    cases method <;> exact h.2.begun rfl hopens
  | advance i =>
    cases hi : s.calls[i]? with
    | none =>
      simp only [ceremonyStep, hi]
      exact h.2
    | some call => exact h.2.advance h.1 hi hlone
  | crash i =>
    intro t ht hopen
    refine h.2 t ?_ (hopens t hopen)
    rw [mem_totpEnrolments] at ht ⊢
    cases ht with
    | inl hrow => exact .inl hrow
    | inr hcleared =>
      obtain ⟨c, hc, hcleared⟩ := hcleared
      cases Locks.mem_set hc with
      | inl he =>
        rw [he] at hcleared
        cases hcleared
      | inr hother =>
        obtain ⟨j, -, hj⟩ := hother
        exact .inr ⟨c, List.mem_of_getElem? hj, hcleared⟩
end Apps

/-- In every run in which no other TOTP enrolment of the user is open when one completes, no
step changes the secret of an authenticator app that the user has. -/
theorem active_secret_kept (settings : MfaSettings) (service : MfaService) (db : MfaDb)
    (clock : Instant) (es : List CeremonyEvent) (hnone : db.transactions = [])
    (hlone : Runs.Along (ceremonyStep settings service) (LoneTotp service)
      (Ceremonies.start db clock) es) :
    Runs.Along (ceremonyStep settings service) (SecretsKept settings service)
      (Ceremonies.start db clock) es := by
  have hstart : Appless (Ceremonies.start db clock) := by
    intro t ht
    simp [Ceremonies.totpEnrolments, Ceremonies.start, hnone] at ht
  refine Runs.along_mono Appless.step ?_ ⟨coherent_start db clock hnone, hstart⟩ hlone
  intro s e h _ userId htotp
  cases e with
  | advance i =>
    cases hi : s.calls[i]? with
    | none => simp only [ceremonyStep, hi]
    | some call =>
      simp only [ceremonyStep, hi]
      refine advance_storedSecret fun t hdone hp howner => ?_
      obtain ⟨hmem, hopen⟩ := completed_completable ((completed_advance hi).trans hdone)
      have hnone := h.2 t (mem_totpEnrolments.mpr (.inl ⟨hmem, hp⟩)) hopen
      rw [howner, htotp] at hnone
      cases hnone
  | login userId transactionId challenge now =>
    simp only [ceremonyStep]
    split <;> rfl
  | beginEnrollment userId role transactionId source now =>
    simp only [ceremonyStep]
    split_ifs <;> rfl
  | tick | prepare | complete | remove | crash => rfl

theorem active_secret_kept_in_turn :
    Runs.Along (ceremonyStep enrolmentSettings enrolmentService)
      (SecretsKept enrolmentSettings enrolmentService)
      (Ceremonies.start unenrolledDb sampleNow) enrolmentInTurn :=
  active_secret_kept enrolmentSettings enrolmentService unenrolledDb sampleNow enrolmentInTurn rfl
    (by decide +kernel)

/-- Both preparations have found no authenticator app, and the second to complete replaces the
secret of the first. -/
theorem active_secret_replaced :
    let s := Runs.run (ceremonyStep enrolmentSettings enrolmentService)
      (Ceremonies.start unenrolledDb sampleNow) (twoEnrolments ++ [.advance 4])
    s.db.hasTotp adminUserId = true ∧ s.db.storedSecret adminUserId = some firstToken ∧
    (ceremonyStep enrolmentSettings enrolmentService s (.advance 5)).db.storedSecret adminUserId =
      some secondToken := by
  decide +kernel
end Bantam
