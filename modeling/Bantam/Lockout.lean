import Bantam.Ceremonies
import Bantam.Lib.Json

/-! A removal of a factor that is run alone, and the login that begins after it. -/
namespace Bantam
open Tables

/-- `remove_passkey` and `remove_totp` from begin to end. -/
def remove (userId : Uuid) (role : Role) (databaseNow : Instant) (target : Factor) (db : MfaDb) :
    Except MfaFailure MfaDb :=
  if target.active userId db = false then .error target.notFound
  else if roleRequiresMfa role = true ∧
      remainingPasskeys userId target db + remainingTotp userId target db = 0 then
    .error factorRequired
  else
    let db := target.revoke userId databaseNow db
    .ok (db.setMfaEnabled userId (hasActiveFactor userId db))

/-- The state that a removal leaves when no other is there. -/
def Removals.removedAlone (target : Factor) (databaseNow : Instant) (db : MfaDb) :
    Except MfaFailure MfaDb → Removals
  | .ok db' => ⟨db', [⟨target, databaseNow, .ended (.ok ())⟩]⟩
  | .error failure => ⟨db, [⟨target, databaseNow, .ended (.error failure)⟩]⟩

theorem advance_alone (userId : Uuid) (role : Role) (db : MfaDb) (c : Removal) :
    removalStep userId role ⟨db, [c]⟩ (.advance 0) =
      ⟨(c.advance userId role (fun _ => false) db).2,
        [c.become (c.advance userId role (fun _ => false) db).1]⟩ := rfl

/-- Statement by statement a removal does what it does as a whole. -/
theorem removal_alone (userId : Uuid) (role : Role) (databaseNow : Instant) (target : Factor)
    (db : MfaDb) :
    Runs.run (removalStep userId role) (Removals.start db)
      (.begin target databaseNow :: List.replicate 7 (.advance 0)) =
      .removedAlone target databaseNow db (remove userId role databaseNow target db) := by
  have hbegin : removalStep userId role (Removals.start db) (.begin target databaseNow) =
      ⟨db, [⟨target, databaseNow, .select⟩]⟩ := rfl
  rw [Runs.run, hbegin]
  by_cases hactive : target.active userId db = false
  · simp [Runs.run, advance_alone, Removal.advance, Removal.become, remove, Removals.removedAlone,
      hactive]
  · by_cases hrole : roleRequiresMfa role = true
    · by_cases hlast : remainingPasskeys userId target db + remainingTotp userId target db = 0
      · simp [-Nat.add_eq_zero_iff, Runs.run, advance_alone, Removal.advance, Removal.become,
          remove, Removals.removedAlone, hactive, hrole, hlast]
      · simp [-Nat.add_eq_zero_iff, Runs.run, advance_alone, Removal.advance, Removal.become,
          remove, Removals.removedAlone, hactive, hrole, hlast]
    · simp [Runs.run, advance_alone, Removal.advance, Removal.become, remove,
        Removals.removedAlone, hactive, hrole]

/-- The user's row that `begin_login` is called with, and what it draws. -/
structure LoginDraw where
  userId : Uuid
  role : Role
  transactionId : Uuid
  now : Instant
  databaseNow : Instant

/-- `begin_login`'s answer. `PublicKeyCredentialRequestOptions` are as JSON. -/
structure MfaChallenge where
  status : String
  transactionId : Uuid
  methods : List MfaMethod
  passkeyOptions : Option Json
  expiresAt : Instant

namespace MfaSettings
variable (settings : MfaSettings)

/-- `_insert_transaction` -/
def insertTransaction (draw : LoginDraw) (new : NewTransaction) (db : MfaDb) :
    Except MfaError Instant × MfaDb :=
  let db := db.deleteStale draw.userId draw.databaseNow
  match db.insertTransaction
      (settings.row draw.userId draw.transactionId draw.now draw.databaseNow new) with
  | .error failure => (.error failure, db)
  | .ok db => (.ok (draw.now + settings.transactionTtl), db)

/-- `_new_choice_transaction`, for a login -/
def newChoiceTransaction (draw : LoginDraw) (db : MfaDb) : Except MfaError MfaChallenge × MfaDb :=
  let (expiresAt, db) := settings.insertTransaction draw (.enrollChoice none) db
  (expiresAt.map fun expiresAt => {
    status := "mfa_enrollment_required"
    transactionId := draw.transactionId
    methods := (if settings.passkeysEnabled then [.passkey] else []) ++ [.totp]
    passkeyOptions := none
    expiresAt := expiresAt }, db)

/-- `_authentication_options`: the options for the passkeys that are not revoked, with a challenge -/
def authenticationOptions (generate : List Bytes → Json × Bytes) (userId : Uuid) (db : MfaDb) :
    Json × Bytes :=
  generate ((db.passkeys.filter fun p => p.userId = userId && p.revokedAt.isNone).map
    WebauthnCredential.credentialId)

/-- `begin_login` -/
def beginLogin (generate : List Bytes → Json × Bytes) (draw : LoginDraw) (db : MfaDb) :
    Except MfaError (Option MfaChallenge) × MfaDb :=
  match settings.factorMethods (db.hasPasskey draw.userId) (db.hasTotp draw.userId) with
  | .error failure => (.error (.failure failure), db)
  | .ok [] =>
    if roleRequiresMfa draw.role then
      let (challenge, db) := settings.newChoiceTransaction draw db
      (challenge.map some, db)
    else (.ok none, db)
  | .ok methods =>
    let options := if .passkey ∈ methods then some (authenticationOptions generate draw.userId db)
      else none
    let (expiresAt, db) := settings.insertTransaction draw (.login (options.map Prod.snd)) db
    (expiresAt.map fun expiresAt => some {
      status := "mfa_required"
      transactionId := draw.transactionId
      methods := methods
      passkeyOptions := options.map Prod.fst
      expiresAt := expiresAt }, db)
end MfaSettings

section Lockout
variable {settings : MfaSettings} {generate : List Bytes → Json × Bytes} {draw : LoginDraw}
  {userId : Uuid} {role : Role} {now : Instant} {target : Factor} {db db' : MfaDb}

/-- A removal that succeeds revokes its target, and leaves another factor where one is required. -/
theorem remove_ok (hrole : roleRequiresMfa role = true)
    (h : remove userId role now target db = .ok db') :
    (∃ f ∈ activeFactors userId db', f ≠ target) ∧
      db' = (target.revoke userId now db).setMfaEnabled userId
        (hasActiveFactor userId (target.revoke userId now db)) := by
  unfold remove at h
  split_ifs at h with hnone hlast
  obtain rfl := (Except.ok.inj h).symm
  refine ⟨?_, rfl⟩
  have hleft : 0 < remainingPasskeys userId target db + remainingTotp userId target db := by
    by_contra hzero
    exact hlast ⟨hrole, Nat.eq_zero_of_not_pos hzero⟩
  have hother : ∃ f ∈ activeFactors userId db, f ≠ target := by
    rcases Nat.add_pos_iff_pos_or_pos.mp hleft with hpasskey | htotp
    · obtain ⟨p, hp⟩ := List.exists_mem_of_length_pos hpasskey
      obtain ⟨hmem, hp⟩ := List.mem_filter.mp hp
      simp only [Bool.and_eq_true, decide_eq_true_eq] at hp
      refine ⟨.passkey p.webauthnCredentialId, ?_, fun hsame => hp.2 hsame.symm⟩
      rw [mem_activeFactors]
      exact List.any_eq_true.mpr ⟨p, hmem, by simp [hp.1.1, hp.1.2]⟩
    · obtain ⟨c, hc⟩ := List.exists_mem_of_length_pos htotp
      obtain ⟨hmem, hc⟩ := List.mem_filter.mp hc
      simp only [Bool.and_eq_true, decide_eq_true_eq] at hc
      refine ⟨.totp, ?_, fun hsame => hc.2 hsame.symm⟩
      rw [mem_activeFactors]
      exact List.any_eq_true.mpr ⟨c, hmem, by simp [hc.1.1, hc.1.2]⟩
  obtain ⟨f, hf, hne⟩ := hother
  refine ⟨f, ?_, hne⟩
  rw [activeFactors_setMfaEnabled]
  exact active_revoke hne hf

theorem hasPasskey_of_active {id : Uuid} (h : Factor.passkey id ∈ activeFactors userId db) :
    db.hasPasskey userId = true := by
  rw [mem_activeFactors] at h
  obtain ⟨p, hp, hactive⟩ := List.any_eq_true.mp h
  refine List.any_eq_true.mpr ⟨p, hp, ?_⟩
  simp only [Bool.and_eq_true, decide_eq_true_eq] at hactive ⊢
  exact ⟨hactive.1.2, hactive.2⟩

theorem hasTotp_iff_active : db.hasTotp userId = true ↔ Factor.totp ∈ activeFactors userId db := by
  rw [mem_activeFactors]
  rfl

/-- An authenticator app is left by a removal of a passkey, and only by one. -/
theorem hasTotp_revoke (userId : Uuid) (now : Instant) (target : Factor) (db : MfaDb) :
    (target.revoke userId now db).hasTotp userId = true ↔
      target ≠ .totp ∧ db.hasTotp userId = true := by
  cases target with
  | passkey id => simp [Factor.revoke, MfaDb.hasTotp]
  | totp =>
    refine iff_of_false ?_ (fun h => h.1 rfl)
    simp only [Factor.revoke, MfaDb.hasTotp, updateWhere, List.any_eq_true, List.mem_map]
    intro h
    obtain ⟨_, ⟨c, -, rfl⟩, hactive⟩ := h
    split_ifs at hactive with hrevoked
    · simp at hactive
    · exact hrevoked hactive

variable (settings) in
/-- Whether a method is offered where some factor is active: a passkey is of no use while passkeys
are disabled. -/
theorem factorMethods_usable (h : ∃ f : Factor, f ∈ activeFactors userId db) :
    (∃ methods, methods ≠ [] ∧
      settings.factorMethods (db.hasPasskey userId) (db.hasTotp userId) = .ok methods) ↔
      settings.passkeysEnabled = true ∨ db.hasTotp userId = true := by
  obtain ⟨f, hf⟩ := h
  have hsome : db.hasPasskey userId = true ∨ db.hasTotp userId = true := by
    cases f with
    | passkey id => exact .inl (hasPasskey_of_active hf)
    | totp => exact .inr (hasTotp_iff_active.mpr hf)
  unfold MfaSettings.factorMethods
  cases hpasskey : db.hasPasskey userId with
  | false =>
    rw [hpasskey] at hsome
    have htotp := hsome.resolve_left Bool.false_ne_true
    simp [htotp]
  | true =>
    cases htotp : db.hasTotp userId with
    | true => simp
    | false =>
      cases henabled : settings.passkeysEnabled with
      | true => simp
      | false => simp

variable (settings) in
/-- A new request of the user, after those that are out of use are deleted. -/
theorem insertTransaction_fresh (new : NewTransaction) (huser : db.bank.findUser draw.userId ≠ none)
    (hfresh : draw.transactionId ∉ db.transactions.map MfaTransaction.transactionId) :
    ∃ db', settings.insertTransaction draw new db =
      (.ok (draw.now + settings.transactionTtl), db') := by
  have hdeleted : draw.transactionId ∉
      (db.deleteStale draw.userId draw.databaseNow).transactions.map MfaTransaction.transactionId :=
    fun hin => hfresh ((List.filter_sublist.map _).subset hin)
  have hinserted : (db.deleteStale draw.userId draw.databaseNow).insertTransaction
      (settings.row draw.userId draw.transactionId draw.now draw.databaseNow new) = .ok _ :=
    (if_neg hdeleted).trans (if_neg huser)
  unfold MfaSettings.insertTransaction
  dsimp only
  rw [hinserted]
  exact ⟨_, rfl⟩

theorem revoke_bank (target : Factor) : (target.revoke userId now db).bank = db.bank := by
  cases target with
  | passkey id => rfl
  | totp => rfl

/-- A removal leaves the user and the requests. -/
theorem remove_frame (h : db' = (target.revoke userId now db).setMfaEnabled userId
      (hasActiveFactor userId (target.revoke userId now db))) :
    (db.bank.findUser userId ≠ none → db'.bank.findUser userId ≠ none) ∧
      db'.transactions = db.transactions := by
  subst h
  constructor
  · intro huser
    have hfound : (lookup UserAccount.userId userId db.bank.users).isSome :=
      Option.isSome_iff_ne_none.mpr huser
    rw [Db.findUser, ← Option.isSome_iff_ne_none, lookup_isSome_iff] at *
    simpa [MfaDb.setMfaEnabled, revoke_bank, updateWhere, Function.comp_def, apply_ite] using hfound
  · rw [setMfaEnabled_transactions, revoke_transactions]

end Lockout

/-- After a removal that has succeeded for a user whose role requires a second factor, the login
that begins next asks for one when passkeys are enabled or the user has an authenticator app that
is not the factor removed, and only then. -/
theorem removal_lockout_iff (settings : MfaSettings) (generate : List Bytes → Json × Bytes)
    (draw : LoginDraw) (target : Factor) (now : Instant) (db db' : MfaDb)
    (hrole : roleRequiresMfa draw.role = true)
    (hremoved : remove draw.userId draw.role now target db = .ok db')
    (huser : db.bank.findUser draw.userId ≠ none)
    (hfresh : draw.transactionId ∉ db.transactions.map MfaTransaction.transactionId) :
    (∃ challenge, (settings.beginLogin generate draw db').1 = .ok (some challenge) ∧
      challenge.status = "mfa_required" ∧ challenge.methods ≠ []) ↔
      settings.passkeysEnabled = true ∨
        (target ≠ .totp ∧ db.hasTotp draw.userId = true) := by
  obtain ⟨⟨f, hleft, -⟩, hdb⟩ := remove_ok hrole hremoved
  have husable := factorMethods_usable settings ⟨f, hleft⟩
  have htotp : db'.hasTotp draw.userId = true ↔
      target ≠ .totp ∧ db.hasTotp draw.userId = true := by
    rw [← hasTotp_revoke draw.userId now, hdb]
    rfl
  obtain ⟨huser', htransactions⟩ := remove_frame hdb
  rw [← htransactions] at hfresh
  rw [← htotp, ← husable]
  cases hmethods : settings.factorMethods (db'.hasPasskey draw.userId) (db'.hasTotp draw.userId) with
  | error failure =>
    unfold MfaSettings.beginLogin
    rw [hmethods]
    simp
  | ok methods =>
    cases methods with
    | nil =>
      refine iff_of_false (fun h => ?_) (fun h => ?_)
      · obtain ⟨challenge, hbegun, hstatus, -⟩ := h
        obtain ⟨db'', hinserted⟩ := insertTransaction_fresh settings (.enrollChoice none)
          (huser' huser) hfresh
        unfold MfaSettings.beginLogin MfaSettings.newChoiceTransaction at hbegun
        rw [hmethods] at hbegun
        simp only [hrole, if_true, hinserted] at hbegun
        rw [← Option.some_inj.mp (Except.ok.inj hbegun)] at hstatus
        have hother : "mfa_enrollment_required" ≠ "mfa_required" := by decide
        exact hother hstatus
      · obtain ⟨methods, hsome, hnone⟩ := h
        exact hsome (Except.ok.inj hnone).symm
    | cons method rest =>
      refine iff_of_true ?_ ⟨method :: rest, List.cons_ne_nil _ _, rfl⟩
      unfold MfaSettings.beginLogin
      rw [hmethods]
      dsimp only
      generalize hnew : NewTransaction.login _ = new
      obtain ⟨db'', hinserted⟩ := insertTransaction_fresh settings new (huser' huser) hfresh
      rw [hinserted]
      exact ⟨_, rfl, rfl, List.cons_ne_nil _ _⟩

/-- The administrator logs in next, and passkeys are not configured. -/
def withoutPasskeys : MfaSettings := ⟨minutes 5, false⟩

def administratorLogin : LoginDraw := ⟨adminUserId, .bankAdmin, 9, sampleNow, sampleNow⟩

/-- The options for a challenge of one byte. -/
def sampleOptions (_ : List Bytes) : Json × Bytes := (.obj [("challenge", .str "CQ")], [9])

/-- Without the passkey the authenticator app is asked for. -/
theorem passkey_removed_login :
    ∃ challenge, (withoutPasskeys.beginLogin sampleOptions administratorLogin
      ((Factor.passkey 2).revoke adminUserId sampleNow sampleMfaDb |>.setMfaEnabled adminUserId
        true)).1 = .ok (some challenge) ∧
      challenge.status = "mfa_required" ∧ challenge.methods ≠ [] :=
  (removal_lockout_iff withoutPasskeys sampleOptions administratorLogin (.passkey 2) sampleNow
    sampleMfaDb _ (by decide) rfl (by decide) (by decide)).mpr (.inr ⟨by decide, by decide⟩)

/-- The guard counts the passkey, which is of no use at the login. -/
theorem totp_removed_locked_out :
    ∃ db, remove adminUserId .bankAdmin sampleNow .totp sampleMfaDb = .ok db ∧
      (withoutPasskeys.beginLogin sampleOptions administratorLogin db).1 =
        .error (.failure passkeyConfigurationRequired) :=
  ⟨(Factor.totp.revoke adminUserId sampleNow sampleMfaDb).setMfaEnabled adminUserId true, by decide,
    by rfl⟩

end Bantam
