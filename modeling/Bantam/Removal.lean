import Bantam.MfaSession
import Bantam.Lib.Locks
import Bantam.Lib.Runs

/-! `remove_passkey` and `remove_totp` called at once for one user, a statement at a time:
each statement sees what is committed, and each call has locked the row it removes. -/
namespace Bantam
open Tables

/-- `MFA_REQUIRED_ROLES` -/
def mfaRequiredRoles : List Role := [.bankAdmin, .aspisAdmin]

def roleRequiresMfa (role : Role) : Bool := role ∈ mfaRequiredRoles

def passkeyNotFound : MfaFailure := ⟨"NOT_FOUND", "Passkey was not found.", 404⟩
def totpNotFound : MfaFailure :=
  ⟨"NOT_FOUND", "Authenticator-app factor was not found.", 404⟩
def factorRequired : MfaFailure :=
  ⟨"MFA_FACTOR_REQUIRED", "Administrators must keep at least one MFA factor.", 409⟩

inductive Factor where
  | passkey (credentialId : Uuid)
  | totp
  deriving DecidableEq

namespace Factor

/-- The factor is there and not revoked. -/
def active (userId : Uuid) (db : MfaDb) : Factor → Bool
  | .passkey credentialId => db.passkeys.any fun p =>
      p.webauthnCredentialId = credentialId && p.userId = userId && p.revokedAt.isNone
  | .totp => db.totps.any fun c => c.userId = userId && c.revokedAt.isNone

def notFound : Factor → MfaFailure
  | .passkey _ => passkeyNotFound
  | .totp => totpNotFound

/-- The `UPDATE … SET revoked_at = now()` of the two removals. -/
def revoke (userId : Uuid) (now : Instant) (db : MfaDb) : Factor → MfaDb
  | .passkey credentialId => { db with
      passkeys := updateWhere (fun p => p.webauthnCredentialId = credentialId && p.userId = userId)
        (fun p => { p with revokedAt := some now }) db.passkeys }
  | .totp => { db with
      totps := updateWhere (fun c => c.userId = userId && c.revokedAt.isNone)
        (fun c => { c with revokedAt := some now }) db.totps }
end Factor

/-- The unrevoked passkeys of the user, less the one to be removed. -/
def remainingPasskeys (userId : Uuid) (removing : Factor) (db : MfaDb) : Nat :=
  (db.passkeys.filter fun p => p.userId = userId && p.revokedAt.isNone &&
    removing ≠ .passkey p.webauthnCredentialId).length

def remainingTotp (userId : Uuid) (removing : Factor) (db : MfaDb) : Nat :=
  (db.totps.filter fun c => c.userId = userId && c.revokedAt.isNone && removing ≠ .totp).length

/-- The two `EXISTS` of `_sync_enabled`. -/
def hasActiveFactor (userId : Uuid) (db : MfaDb) : Bool :=
  (db.passkeys.any fun p => p.userId = userId && p.revokedAt.isNone) ||
  (db.totps.any fun c => c.userId = userId && c.revokedAt.isNone)

/-- The factors that are there and not revoked. -/
def activeFactors (userId : Uuid) (db : MfaDb) : List Factor :=
  ((db.passkeys.filter fun p => p.userId = userId && p.revokedAt.isNone).map fun p =>
    Factor.passkey p.webauthnCredentialId) ++
  ((db.totps.filter fun c => c.userId = userId && c.revokedAt.isNone).map fun _ => Factor.totp)

/-- The statement that a removal runs next, with what it has read. -/
inductive RemovalStage where
  | select
  | countPasskeys
  | countTotp (remaining : Nat)
  | revoke
  | sync
  | lockUser (enabled : Bool)
  | commit (enabled : Bool)
  | ended (result : Except MfaFailure Unit)
  | crashed
  deriving DecidableEq

structure Removal where
  target : Factor
  databaseNow : Instant
  stage : RemovalStage
  deriving DecidableEq

/-- The row of a factor and the row of the user. -/
inductive FactorLock where
  | factor (f : Factor)
  | user
  deriving DecidableEq

namespace Removal

def become (c : Removal) (stage : RemovalStage) : Removal := { c with stage := stage }

def locks (c : Removal) : List FactorLock :=
  match c.stage with
  | .countPasskeys | .countTotp _ | .revoke | .sync | .lockUser _ => [.factor c.target]
  | .commit _ => [.factor c.target, .user]
  | _ => []

/-- The guard has let the removal pass, and it has neither committed nor failed. -/
def pastGuard (c : Removal) : Bool :=
  match c.stage with
  | .revoke | .sync | .lockUser _ | .commit _ => true
  | _ => false

/-- The guard is at its last count and finds a factor that the removal leaves. -/
def passing (userId : Uuid) (db : MfaDb) (c : Removal) : Bool :=
  match c.stage with
  | .countTotp remaining => 0 < remaining + remainingTotp userId c.target db
  | _ => false

/-- The next statement of a removal; a lock that another one has makes it wait. What it
revokes is visible to itself at once and to the others from its commit on. -/
def advance (userId : Uuid) (role : Role) (blocked : FactorLock → Bool) (c : Removal)
    (db : MfaDb) : RemovalStage × MfaDb :=
  match c.stage with
  | .select =>
    if c.target.active userId db = false then (.ended (.error c.target.notFound), db)
    else (if blocked (.factor c.target) then c.stage else .countPasskeys, db)
  | .countPasskeys =>
    (if roleRequiresMfa role then .countTotp (remainingPasskeys userId c.target db)
      else .revoke, db)
  | .countTotp remaining =>
    (if remaining + remainingTotp userId c.target db = 0 then .ended (.error factorRequired)
      else .revoke, db)
  | .revoke => (.sync, db)
  | .sync => (.lockUser (hasActiveFactor userId (c.target.revoke userId c.databaseNow db)), db)
  | .lockUser enabled => (if blocked .user then c.stage else .commit enabled, db)
  | .commit enabled =>
    (.ended (.ok ()), (c.target.revoke userId c.databaseNow db).setMfaEnabled userId enabled)
  | .ended _ | .crashed => (c.stage, db)
end Removal

/-- The committed database and the removals of the user begun so far. -/
structure Removals where
  db : MfaDb
  removals : List Removal

namespace Removals

def start (db : MfaDb) : Removals := ⟨db, []⟩

def move (s : Removals) (i : Nat) (c : Removal) (stage : RemovalStage) (db : MfaDb) : Removals :=
  ⟨db, s.removals.set i (c.become stage)⟩

/-- The factor is the target of a removal that has passed its guard. -/
def doomed (s : Removals) (f : Factor) : Bool :=
  s.removals.any fun c => c.pastGuard && c.target = f
end Removals

inductive RemovalEvent where
  | begin (target : Factor) (databaseNow : Instant)
  | advance (i : Nat)
  | crash (i : Nat)
  deriving DecidableEq

def removalStep (userId : Uuid) (role : Role) (s : Removals) : RemovalEvent → Removals
  | .begin target databaseNow =>
    { s with removals := s.removals ++ [⟨target, databaseNow, .select⟩] }
  | .advance i =>
    match s.removals[i]? with
    | some c =>
      let (stage, db) := c.advance userId role (Locks.heldByOther Removal.locks s.removals i) s.db
      s.move i c stage db
    | none => s
  | .crash i =>
    match s.removals[i]? with
    | some c => s.move i c .crashed s.db
    | none => s

/-- A removal that its guard lets pass leaves the user a factor that no removal past its
guard is about to take. -/
def Spared (userId : Uuid) (s : Removals) : RemovalEvent → Prop
  | .advance i => ∀ c ∈ s.removals[i]?, c.passing userId s.db = true →
      ∃ f ∈ activeFactors userId s.db, f ≠ c.target ∧ s.doomed f = false
  | _ => True

instance (userId : Uuid) (s : Removals) : (e : RemovalEvent) → Decidable (Spared userId s e)
  | .begin _ _ | .crash _ => inferInstanceAs (Decidable True)
  | .advance i => inferInstanceAs (Decidable (∀ c ∈ s.removals[i]?, c.passing userId s.db = true →
      ∃ f ∈ activeFactors userId s.db, f ≠ c.target ∧ s.doomed f = false))

section Factors
variable {userId : Uuid} {db : MfaDb} {f g : Factor} {now : Instant}

theorem mem_activeFactors : f ∈ activeFactors userId db ↔ f.active userId db = true := by
  simp only [activeFactors, List.mem_append, List.mem_map, List.mem_filter, Bool.and_eq_true,
    decide_eq_true_eq]
  cases f with
  | passkey id =>
    simp only [Factor.active, List.any_eq_true, Bool.and_eq_true, decide_eq_true_eq]
    constructor
    · intro h
      cases h with
      | inl h =>
        obtain ⟨p, ⟨hp, hu, hr⟩, he⟩ := h
        exact ⟨p, hp, ⟨Factor.passkey.inj he, hu⟩, hr⟩
      | inr h =>
        obtain ⟨c, -, he⟩ := h
        cases he
    · intro h
      obtain ⟨p, hp, ⟨hid, hu⟩, hr⟩ := h
      exact .inl ⟨p, ⟨hp, hu, hr⟩, congrArg Factor.passkey hid⟩
  | totp =>
    simp only [Factor.active, List.any_eq_true, Bool.and_eq_true, decide_eq_true_eq]
    constructor
    · intro h
      cases h with
      | inl h =>
        obtain ⟨p, -, he⟩ := h
        cases he
      | inr h =>
        obtain ⟨c, ⟨hc, hu, hr⟩, -⟩ := h
        exact ⟨c, hc, hu, hr⟩
    · intro h
      obtain ⟨c, hc, hu, hr⟩ := h
      exact .inr ⟨c, ⟨hc, hu, hr⟩, trivial⟩

theorem hasActiveFactor_iff :
    hasActiveFactor userId db = true ↔ ∃ f : Factor, f ∈ activeFactors userId db := by
  simp only [hasActiveFactor, activeFactors, Bool.or_eq_true, List.any_eq_true, List.mem_append,
    List.mem_map, List.mem_filter]
  constructor
  · intro h
    cases h with
    | inl h =>
      obtain ⟨p, hp, hr⟩ := h
      exact ⟨.passkey p.webauthnCredentialId, .inl ⟨p, ⟨hp, hr⟩, rfl⟩⟩
    | inr h =>
      obtain ⟨c, hc, hr⟩ := h
      exact ⟨.totp, .inr ⟨c, ⟨hc, hr⟩, rfl⟩⟩
  · intro h
    obtain ⟨f, h⟩ := h
    cases h with
    | inl h =>
      obtain ⟨p, ⟨hp, hr⟩, -⟩ := h
      exact .inl ⟨p, hp, hr⟩
    | inr h =>
      obtain ⟨c, ⟨hc, hr⟩, -⟩ := h
      exact .inr ⟨c, hc, hr⟩

/-- A commit revokes its own target and no other factor. -/
theorem active_revoke (hne : f ≠ g) (h : f ∈ activeFactors userId db) :
    f ∈ activeFactors userId (g.revoke userId now db) := by
  rw [mem_activeFactors] at h ⊢
  cases f with
  | passkey id =>
    cases g with
    | totp => exact h
    | passkey id' =>
      simp only [Factor.active, List.any_eq_true, Bool.and_eq_true, decide_eq_true_eq] at h ⊢
      obtain ⟨p, hp, ⟨hid, hu⟩, hr⟩ := h
      have hkeep :
          (decide (p.webauthnCredentialId = id') && decide (p.userId = userId)) = false := by
        have hdiff : p.webauthnCredentialId ≠ id' := by
          rintro rfl
          exact hne (by rw [hid])
        simp [hdiff]
      exact ⟨p, mem_updateWhere_of_not hp hkeep, ⟨hid, hu⟩, hr⟩
  | totp =>
    cases g with
    | passkey id' => exact h
    | totp => exact absurd rfl hne

@[simp] theorem activeFactors_setMfaEnabled (enabled : Bool) :
    activeFactors userId (db.setMfaEnabled userId enabled) = activeFactors userId db := rfl
end Factors

/-- Some active factor is nobody's target past a guard. -/
def Removals.Safe (userId : Uuid) (s : Removals) : Prop :=
  ∃ f ∈ activeFactors userId s.db, s.doomed f = false

namespace Removals
variable {userId : Uuid} {role : Role} {s : Removals} {i : Nat} {c : Removal} {f : Factor}

theorem doomed_eq_false_iff : s.doomed f = false ↔
    ∀ d ∈ s.removals, d.pastGuard = true → d.target ≠ f := by
  simp [doomed]

/-- A factor that was spared stays so when the removal that moves is not past its guard, or
has another target. -/
theorem doomed_move {stage : RemovalStage} {db : MfaDb} (h : s.doomed f = false)
    (hc : (c.become stage).pastGuard = true → c.target ≠ f) :
    (s.move i c stage db).doomed f = false := by
  rw [doomed_eq_false_iff] at h ⊢
  intro d hd hp
  cases List.mem_or_eq_of_mem_set hd with
  | inl hd => exact h d hd hp
  | inr he =>
    rw [he] at hp ⊢
    exact hc hp

theorem Safe.move (h : s.Safe userId) (hi : s.removals[i]? = some c)
    (hspared : Spared userId s (.advance i)) (hrole : roleRequiresMfa role = true)
    (blocked : FactorLock → Bool) :
    (s.move i c (c.advance userId role blocked s.db).1 (c.advance userId role blocked s.db).2).Safe
      userId := by
  obtain ⟨f, hactive, hfree⟩ := h
  have other : c.pastGuard = true → c.target ≠ f :=
    doomed_eq_false_iff.mp hfree c (List.mem_of_getElem? hi)
  -- a removal that is before its guard, or has ended, takes nothing from the spared factor
  have outside : ∀ stage, (c.become stage).pastGuard = false →
      (s.move i c stage s.db).Safe userId :=
    fun stage hstage => ⟨f, hactive, doomed_move hfree (by simp [hstage])⟩
  have inside : c.pastGuard = true → ∀ stage, (s.move i c stage s.db).Safe userId :=
    fun hpast stage => ⟨f, hactive, doomed_move hfree fun _ => other hpast⟩
  unfold Removal.advance
  cases hs : c.stage with
  | select =>
    simp only
    split_ifs <;> exact outside _ rfl
  | countPasskeys =>
    simp only [hrole, if_true]
    exact outside _ rfl
  | countTotp remaining =>
    simp only
    split_ifs with hzero
    · exact outside _ rfl
    · have hpass : c.passing userId s.db = true := by
        simpa [Removal.passing, hs] using Nat.pos_of_ne_zero hzero
      obtain ⟨g, hg, hne, hgfree⟩ := hspared c hi hpass
      exact ⟨g, hg, doomed_move hgfree fun _ => hne.symm⟩
  | revoke => exact inside (by simp [Removal.pastGuard, hs]) _
  | sync => exact inside (by simp [Removal.pastGuard, hs]) _
  | lockUser enabled => exact inside (by simp [Removal.pastGuard, hs]) _
  | commit enabled =>
    have hne : c.target ≠ f := other (by simp [Removal.pastGuard, hs])
    refine ⟨f, ?_, doomed_move hfree fun h => by cases h⟩
    simp only [Removals.move, activeFactors_setMfaEnabled]
    exact active_revoke hne.symm hactive
  | ended result => exact outside _ rfl
  | crashed => exact outside _ rfl

theorem Safe.step (hrole : roleRequiresMfa role = true) (s : Removals) (e : RemovalEvent)
    (h : s.Safe userId) (hspared : Spared userId s e) :
    (removalStep userId role s e).Safe userId := by
  cases e with
  | begin target databaseNow =>
    obtain ⟨f, hactive, hfree⟩ := h
    refine ⟨f, hactive, ?_⟩
    rw [doomed_eq_false_iff] at hfree ⊢
    intro d hd hp
    cases List.mem_append.mp hd with
    | inl hd => exact hfree d hd hp
    | inr hd =>
      rw [List.mem_singleton.mp hd] at hp
      cases hp
  | advance i =>
    simp only [removalStep]
    cases hi : s.removals[i]? with
    | none => exact h
    | some c => exact h.move hi hspared hrole _
  | crash i =>
    simp only [removalStep]
    cases hi : s.removals[i]? with
    | none => exact h
    | some c =>
      obtain ⟨f, hactive, hfree⟩ := h
      exact ⟨f, hactive, doomed_move hfree fun h => by cases h⟩
end Removals

/-- In every run in which each removal that passes its guard leaves a factor that no other
removal past its guard takes, the user keeps a factor throughout. -/
theorem factor_kept (userId : Uuid) (role : Role) (db : MfaDb) (es : List RemovalEvent)
    (hrole : roleRequiresMfa role = true) (hfactor : hasActiveFactor userId db = true)
    (hspared : Runs.Along (removalStep userId role) (Spared userId) (Removals.start db) es) :
    Runs.Always (removalStep userId role) (fun s => hasActiveFactor userId s.db = true)
      (Removals.start db) es := by
  have hstart : (Removals.start db).Safe userId := by
    obtain ⟨f, hf⟩ := hasActiveFactor_iff.mp hfactor
    exact ⟨f, hf, rfl⟩
  refine Runs.always_of_along (Removals.Safe.step hrole) ?_ hstart hspared
  intro s h
  obtain ⟨f, hf, -⟩ := h
  exact hasActiveFactor_iff.mpr ⟨f, hf⟩

/-- The passkey is removed, and then the authenticator app is not. -/
theorem factor_kept_in_turn :
    Runs.Always (removalStep adminUserId .bankAdmin)
      (fun s => hasActiveFactor adminUserId s.db = true) (Removals.start sampleMfaDb)
      (.begin (.passkey 2) 1 :: List.replicate 7 (.advance 0) ++
        .begin .totp 2 :: List.replicate 7 (.advance 1)) :=
  factor_kept adminUserId .bankAdmin sampleMfaDb _ (by decide) (by decide) (by decide)

/-- Both guards count before either removal commits; both removals succeed. -/
theorem both_factors_removed :
    let s := Runs.run (removalStep adminUserId .bankAdmin) (Removals.start sampleMfaDb)
      ([.begin (.passkey 2) 1, .begin .totp 1] ++ List.replicate 3 (.advance 0) ++
        List.replicate 3 (.advance 1) ++ List.replicate 4 (.advance 0) ++
        List.replicate 4 (.advance 1))
    hasActiveFactor adminUserId sampleMfaDb = true ∧
    s.removals.map Removal.stage = [.ended (.ok ()), .ended (.ok ())] ∧
    hasActiveFactor adminUserId s.db = false := by
  decide
end Bantam
