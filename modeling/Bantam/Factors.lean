import Bantam.Removal

/-! What a completion leaves of the factor tables and of the requests, whichever factor it
verifies: the database as it was, one failed attempt more, or a factor and a consumed request. -/
namespace Bantam
open Tables

namespace MfaDb

def hasPasskey (userId : Uuid) (db : MfaDb) : Bool :=
  db.passkeys.any fun p => p.userId = userId && p.revokedAt.isNone

def hasTotp (userId : Uuid) (db : MfaDb) : Bool :=
  db.totps.any fun c => c.userId = userId && c.revokedAt.isNone

/-- The secret of the user's authenticator app, revoked or not. -/
def storedSecret (userId : Uuid) (db : MfaDb) : Option Bytes :=
  (lookup TotpCredential.userId userId db.totps).map TotpCredential.encryptedSecret
end MfaDb

/-- What a step may make of a request's row: its purpose aside, it is further on its way. -/
structure MfaTransaction.Follows (t t' : MfaTransaction) : Prop where
  transactionId : t'.transactionId = t.transactionId
  userId : t'.userId = t.userId
  sourceJti : t'.sourceJti = t.sourceJti
  expiresAt : t'.expiresAt = t.expiresAt
  consumedAt : t'.consumedAt = none → t.consumedAt = none
  attempts : t.attempts ≤ t'.attempts

/-- What the verification of a response writes: a use of a factor at a login, or a factor. -/
inductive FactorWritten (t : MfaTransaction) (db : MfaDb) : MfaDb → Prop where
  | passkeyUsed (p : WebauthnCredential → Bool) (f : WebauthnCredential → WebauthnCredential)
      (hf : ∀ row, (f row).userId = row.userId ∧ (f row).revokedAt = row.revokedAt)
      (hp : t.purpose = .login) :
      FactorWritten t db { db with passkeys := updateWhere p f db.passkeys }
  | totpUsed (p : TotpCredential → Bool) (f : TotpCredential → TotpCredential)
      (hf : ∀ row, (f row).userId = row.userId ∧ (f row).revokedAt = row.revokedAt ∧
        (f row).encryptedSecret = row.encryptedSecret)
      (hp : t.purpose = .login) :
      FactorWritten t db { db with totps := updateWhere p f db.totps }
  | passkeyEnrolled (row : WebauthnCredential) (hu : row.userId = t.userId)
      (hp : t.purpose = .enrollPasskey) :
      FactorWritten t db { db with passkeys := db.passkeys ++ [row] }
  | totpEnrolled (row : TotpCredential) (hu : row.userId = t.userId)
      (hp : t.purpose = .enrollTotp) : FactorWritten t db (MfaService.upsertTotp row db)

/-- The outcome of a verification: a failure that is at most recorded, or a factor's row. -/
def Verified (t : MfaTransaction) (db : MfaDb) (outcome : Option MfaFailure × MfaDb) : Prop :=
  match outcome.1 with
  | some _ => outcome.2 = db ∨ outcome.2 = db.recordFailure t.transactionId
  | none => FactorWritten t db outcome.2

/-- The request's row is consumed, and the factors are as they were. -/
structure Consumed (t : MfaTransaction) (databaseNow : Instant) (db db' : MfaDb) : Prop where
  transactions : db'.transactions = updateWhere (fun u => u.transactionId = t.transactionId)
    (MfaTransaction.consume databaseNow) db.transactions
  passkeys : db'.passkeys = db.passkeys
  totps : db'.totps = db.totps

section Completions
variable {service : MfaService} {draw : FactorDraw} {t : MfaTransaction} {db db' : MfaDb}
  {outcome : Option MfaFailure × MfaDb} {transactionId : Uuid} {response : FactorResponse}

theorem FactorWritten.transactions {mid : MfaDb} (h : FactorWritten t db mid) :
    mid.transactions = db.transactions := by
  cases h with
  | passkeyUsed | totpUsed | passkeyEnrolled => rfl
  | totpEnrolled row =>
    unfold MfaService.upsertTotp
    split_ifs <;> rfl

theorem enrollPasskey_ok {credential : PasskeyResponse} (hp : t.purpose = .enrollPasskey)
    (h : service.enrollPasskey draw t credential db = .ok outcome) : Verified t db outcome := by
  unfold MfaService.enrollPasskey at h
  split at h
  · cases h
    exact .inr rfl
  · split_ifs at h
    · cases h
      exact .inr rfl
    · split at h
      · cases h
      · split_ifs at h
        simp only [bind_eq_ok, MfaDb.insertPasskey] at h
        obtain ⟨mid, hmid, h⟩ := h
        split_ifs at hmid
        cases hmid
        cases h
        exact .passkeyEnrolled _ rfl hp

theorem loginPasskey_verified {credential : PasskeyResponse} {rawId : Bytes}
    (hp : t.purpose = .login) :
    Verified t db (service.loginPasskey draw t credential rawId db) := by
  unfold MfaService.loginPasskey
  simp only
  split
  · exact .inr rfl
  · split
    · exact .inr rfl
    · exact .passkeyUsed _ _ (fun row => ⟨rfl, rfl⟩) hp

theorem verifyPasskey_ok {credential : PasskeyResponse} {rawId : Bytes}
    (h : service.verifyPasskey draw t credential rawId db = .ok outcome) :
    Verified t db outcome := by
  unfold MfaService.verifyPasskey at h
  cases hp : t.purpose with
  | login =>
    simp only [hp] at h
    cases h
    exact loginPasskey_verified hp
  | enrollPasskey =>
    simp only [hp] at h
    exact enrollPasskey_ok hp h
  | enrollChoice | enrollTotp =>
    simp only [hp] at h
    cases h
    exact .inl rfl

theorem acceptTotp_ok {encrypted : Bytes} {step : Int}
    (hp : t.purpose = .login ∨ t.purpose = .enrollTotp)
    (h : MfaService.acceptTotp draw t encrypted step db = .ok db') : FactorWritten t db db' := by
  unfold MfaService.acceptTotp at h
  split_ifs at h with hlogin
  · cases h
    exact .totpUsed _ _ (fun row => ⟨rfl, rfl, rfl⟩) hlogin
  · split at h
    · cases h
    · split_ifs at h
      cases h
      exact .totpEnrolled _ rfl (hp.resolve_left hlogin)

theorem verifyTotp_ok {code : String} (h : service.verifyTotp draw t code db = .ok outcome) :
    Verified t db outcome := by
  have checked : (t.purpose = .login ∨ t.purpose = .enrollTotp) →
      service.checkTotp draw t code db = .ok outcome → Verified t db outcome := by
    intro hp h
    unfold MfaService.checkTotp at h
    simp only at h
    split at h
    · cases h
      exact .inr rfl
    · cases h
      exact .inr rfl
    · split at h
      · cases h
        exact .inl rfl
      · split at h
        · cases h
          exact .inr rfl
        · simp only [bind_eq_ok] at h
          obtain ⟨mid, hmid, h⟩ := h
          cases h
          exact acceptTotp_ok hp hmid
  unfold MfaService.verifyTotp at h
  cases hp : t.purpose with
  | login =>
    simp only [hp] at h
    exact checked (.inl hp) h
  | enrollTotp =>
    simp only [hp] at h
    exact checked (.inr hp) h
  | enrollChoice | enrollPasskey =>
    simp only [hp] at h
    cases h
    exact .inl rfl

theorem consume_consumed {method : String} {now : Instant} {completion : MfaCompletion}
    (h : db.consume t method now = .ok (completion, db')) : Consumed t now db db' := by
  unfold MfaDb.consume at h
  simp only at h
  split at h
  · cases h
  · split_ifs at h
    cases h
    refine ⟨by simp, ?_, ?_⟩
    all_goals
      unfold MfaDb.revokeSource
      split
      · split_ifs <;> rfl
      · rfl

/-- What a completion leaves: the database as it was, one failed attempt more, or the factor
and its consumed request. -/
inductive FactorEnd (transactionId : Uuid) (databaseNow : Instant) (db : MfaDb) :
    Bool → MfaDb → Prop where
  | refused : FactorEnd transactionId databaseNow db false db
  | failed : FactorEnd transactionId databaseNow db false (db.recordFailure transactionId)
  | completed {t : MfaTransaction} {mid db' : MfaDb}
      (found : db.transactionForUpdate transactionId databaseNow = .ok t)
      (written : FactorWritten t db mid) (consumed : Consumed t databaseNow mid db') :
      FactorEnd transactionId databaseNow db true db'

/-- The database transaction of a completion, whatever verifies the response. -/
theorem commit_end {method : String}
    {verify : MfaTransaction → Except MfaError (Option MfaFailure × MfaDb)}
    (hverify : ∀ t outcome, verify t = .ok outcome → Verified t db outcome) :
    let r := MfaService.commit db (do
      let t ← db.transactionForUpdate transactionId draw.databaseNow
      let outcome ← verify t
      MfaService.settle draw t method outcome)
    FactorEnd transactionId draw.databaseNow db r.1.isOk r.2 := by
  cases ht : db.transactionForUpdate transactionId draw.databaseNow with
  | error e => exact .refused
  | ok t =>
    have hid := transactionForUpdate_ok ht
    cases hv : verify t with
    | error e =>
      simp only [bind, Except.bind, hv]
      exact .refused
    | ok outcome =>
      have hverified := hverify t outcome hv
      obtain ⟨failure, mid⟩ := outcome
      cases failure with
      | some failure =>
        simp only [bind, Except.bind, hv, MfaService.settle, MfaService.commit]
        cases hverified with
        | inl h =>
          simp only at h
          subst h
          exact .refused
        | inr h =>
          simp only at h
          subst h
          exact hid ▸ .failed
      | none =>
        cases hc : mid.consume t method draw.databaseNow with
        | error e =>
          simp only [bind, Except.bind, hv, MfaService.settle, hc, MfaService.commit]
          exact .refused
        | ok result =>
          obtain ⟨completion, db'⟩ := result
          simp only [bind, Except.bind, hv, MfaService.settle, hc, MfaService.commit, pure,
            Except.pure]
          exact .completed ht hverified (consume_consumed hc)

theorem passkeyHandler_end (r : Except MfaError MfaCompletion × MfaDb) :
    (MfaService.passkeyHandler r).1.isOk = r.1.isOk ∧ (MfaService.passkeyHandler r).2 = r.2 := by
  unfold MfaService.passkeyHandler
  split <;> exact ⟨rfl, rfl⟩

theorem complete_end :
    let r := service.complete draw transactionId response db
    FactorEnd transactionId draw.databaseNow db r.1.isOk r.2 := by
  cases response with
  | passkey credential =>
    simp only [MfaService.complete, MfaService.completePasskey]
    split
    · exact .refused
    · rename_i rawId _
      obtain ⟨hok, hdb⟩ := passkeyHandler_end (MfaService.commit db (do
        let t ← db.transactionForUpdate transactionId draw.databaseNow
        let outcome ← service.verifyPasskey draw t credential rawId db
        MfaService.settle draw t "passkey" outcome))
      rw [hok, hdb]
      exact commit_end fun t outcome h => verifyPasskey_ok h
  | totp code =>
    simp only [MfaService.complete, MfaService.completeTotp]
    split_ifs
    · exact .refused
    · exact commit_end fun t outcome h => verifyTotp_ok h
end Completions

section Ends
variable {transactionId userId : Uuid} {databaseNow : Instant} {ok : Bool} {db db' mid : MfaDb}
  {t : MfaTransaction}

theorem transactionForUpdate_found (h : db.transactionForUpdate transactionId databaseNow = .ok t) :
    db.findTransaction transactionId = some t ∧ databaseNow < t.expiresAt ∧ t.consumedAt = none ∧
      t.attempts < maxAttempts := by
  unfold MfaDb.transactionForUpdate at h
  split at h
  · cases h
  · rename_i u hf
    split_ifs at h with hc
    cases h
    exact ⟨hf, hc.1, hc.2.1, hc.2.2.1⟩

theorem follows_refl (t : MfaTransaction) : t.Follows t :=
  ⟨rfl, rfl, rfl, rfl, id, Nat.le_refl _⟩

theorem follows_fail (t : MfaTransaction) : t.Follows t.fail := by
  unfold MfaTransaction.fail
  split_ifs
  · exact ⟨rfl, rfl, rfl, rfl, id, Nat.le_succ _⟩
  · exact follows_refl t

theorem follows_consume (t : MfaTransaction) : t.Follows (t.consume databaseNow) := by
  refine ⟨rfl, rfl, rfl, rfl, ?_, Nat.le_refl _⟩
  intro h
  cases h

@[simp] theorem fail_transactionId (t : MfaTransaction) : t.fail.transactionId = t.transactionId :=
  (follows_fail t).transactionId

@[simp] theorem fail_purpose (t : MfaTransaction) : t.fail.purpose = t.purpose := by
  unfold MfaTransaction.fail
  split_ifs <;> rfl

/-- The requests after a completion: its own has moved on, and the others are as they were. -/
theorem FactorEnd.transactions (h : FactorEnd transactionId databaseNow db ok db') :
    ∃ f : MfaTransaction → MfaTransaction,
      (∀ t, t.Follows (f t) ∧ (f t).purpose = t.purpose ∧ (ok = true → (f t).consumedAt.isSome)) ∧
      db'.transactions =
        updateWhere (fun t => t.transactionId = transactionId) f db.transactions := by
  cases h with
  | refused =>
    refine ⟨id, fun t => ⟨follows_refl t, rfl, fun h => by cases h⟩, ?_⟩
    simp [updateWhere]
  | failed =>
    exact ⟨MfaTransaction.fail, fun t => ⟨follows_fail t, fail_purpose t, fun h => by cases h⟩, rfl⟩
  | @completed t mid db' found written consumed =>
    refine ⟨MfaTransaction.consume databaseNow, fun t => ⟨follows_consume t, rfl, fun _ => rfl⟩, ?_⟩
    rw [consumed.transactions, written.transactions, transactionForUpdate_ok found]

theorem hasPasskey_append (row : WebauthnCredential) :
    MfaDb.hasPasskey userId { db with passkeys := db.passkeys ++ [row] } =
      (db.hasPasskey userId || (row.userId = userId && row.revokedAt.isNone)) := by
  simp [MfaDb.hasPasskey]

/-- A passkey comes by the completion of a request for one. -/
theorem FactorEnd.hasPasskey (h : FactorEnd transactionId databaseNow db ok db')
    (hactive : db'.hasPasskey userId = true) :
    db.hasPasskey userId = true ∨ ∃ t, db.findTransaction transactionId = some t ∧ ok = true ∧
      t.userId = userId ∧ t.purpose = .enrollPasskey := by
  cases h with
  | refused | failed => exact .inl hactive
  | @completed t mid db' found written consumed =>
    have hmid : mid.hasPasskey userId = true := by
      rw [MfaDb.hasPasskey, consumed.passkeys] at hactive
      exact hactive
    cases written with
    | passkeyUsed p f hf hp =>
      left
      refine any_updateWhere (fun q hq => ?_) hmid
      rwa [(hf q).1, (hf q).2] at hq
    | totpUsed => exact .inl hmid
    | passkeyEnrolled row hu hp =>
      rw [hasPasskey_append, Bool.or_eq_true, Bool.and_eq_true, decide_eq_true_eq] at hmid
      cases hmid with
      | inl h => exact .inl h
      | inr h =>
        exact .inr ⟨t, (transactionForUpdate_found found).1, rfl, hu.symm.trans h.1, hp⟩
    | totpEnrolled row =>
      left
      unfold MfaService.upsertTotp at hmid
      split_ifs at hmid <;> exact hmid

/-- An authenticator app comes by the completion of a request for one. -/
theorem FactorEnd.hasTotp (h : FactorEnd transactionId databaseNow db ok db')
    (hactive : db'.hasTotp userId = true) :
    db.hasTotp userId = true ∨ ∃ t, db.findTransaction transactionId = some t ∧ ok = true ∧
      t.userId = userId ∧ t.purpose = .enrollTotp := by
  cases h with
  | refused | failed => exact .inl hactive
  | @completed t mid db' found written consumed =>
    have hmid : mid.hasTotp userId = true := by
      rw [MfaDb.hasTotp, consumed.totps] at hactive
      exact hactive
    cases written with
    | passkeyUsed | passkeyEnrolled => exact .inl hmid
    | totpUsed p f hf hp =>
      left
      refine any_updateWhere (fun q hq => ?_) hmid
      rwa [(hf q).1, (hf q).2.1] at hq
    | totpEnrolled row hu hp =>
      by_cases hw : t.userId = userId
      · exact .inr ⟨t, (transactionForUpdate_found found).1, rfl, hw, hp⟩
      · left
        have hother : row.userId ≠ userId := fun h => hw (hu.symm.trans h)
        unfold MfaService.upsertTotp at hmid
        split_ifs at hmid
        · refine any_updateWhere (fun q hq => ?_) hmid
          simp [hother] at hq
        · simpa [MfaDb.hasTotp, hother] using hmid

/-- A stored secret changes by the completion of a request for one. -/
theorem FactorEnd.storedSecret (h : FactorEnd transactionId databaseNow db ok db')
    (hnone : ∀ t, db.findTransaction transactionId = some t → ok = true → t.purpose = .enrollTotp →
      t.userId ≠ userId) : db'.storedSecret userId = db.storedSecret userId := by
  cases h with
  | refused | failed => rfl
  | @completed t mid db' found written consumed =>
    have hmid : db'.storedSecret userId = mid.storedSecret userId := by
      rw [MfaDb.storedSecret, consumed.totps, MfaDb.storedSecret]
    rw [hmid]
    cases written with
    | passkeyUsed | passkeyEnrolled => rfl
    | totpUsed p f hf hp =>
      have hkey : ∀ c, (f c).userId = c.userId := fun c => (hf c).1
      simp only [MfaDb.storedSecret, lookup_updateWhere hkey, Option.map_map]
      congr 1
      funext c
      simp only [Function.comp_apply]
      split_ifs
      · exact (hf c).2.2
      · rfl
    | totpEnrolled row hu hp =>
      have hother : row.userId ≠ userId := by
        rw [hu]
        exact hnone t (transactionForUpdate_found found).1 rfl hp
      simp only [MfaDb.storedSecret]
      congr 1
      unfold MfaService.upsertTotp
      split_ifs
      · refine lookup_updateWhere_other (fun c hc => ?_) fun _ _ => hother
        rw [of_decide_eq_true hc]
        exact hother
      · have hnew : lookup TotpCredential.userId userId [row] = none :=
          lookup_none_iff.mpr (by simpa using Ne.symm hother)
        rw [lookup_append, hnew, Option.or_none]
end Ends
end Bantam
