import Bantam.Calls
import Bantam.History

/-! Concurrent calls are serial: what a call has read under its locks stays true until it
commits, so its commit does what the same call would do alone at that moment. -/
namespace Bantam
open Tables

/-- What the holder of the locks may rely on while others write: the rows it has locked,
and customers that are verified. -/
structure Frame (locks : List Lock) (db db' : Db) : Prop where
  accounts : ∀ id, Lock.account id ∈ locks → ∀ l,
    lockedAccount db id = some l → lockedAccount db' id = some l
  verified : ∀ customerId, kycVerified db customerId = true → kycVerified db' customerId = true
  challenges : ∀ id, Lock.challenge id ∈ locks → ∀ c,
    db.findChallenge id = some c → db'.findChallenge id = some c
  transactions : ∀ id, Lock.transaction id ∈ locks → ∀ t,
    db.findTransaction id = some t → db'.findTransaction id = some t

namespace Frame
variable {locks : List Lock} {db db' db'' : Db}

theorem refl (locks : List Lock) (db : Db) : Frame locks db db :=
  ⟨fun _ _ _ h => h, fun _ h => h, fun _ _ _ h => h, fun _ _ _ h => h⟩

theorem trans (h : Frame locks db db') (h' : Frame locks db' db'') : Frame locks db db'' where
  accounts id hl l ha := h'.accounts id hl l (h.accounts id hl l ha)
  verified id hv := h'.verified id (h.verified id hv)
  challenges id hl c hc := h'.challenges id hl c (h.challenges id hl c hc)
  transactions id hl t ht := h'.transactions id hl t (h.transactions id hl t ht)

theorem kycVerified_congr (hc : db'.customers = db.customers) (customerId : Option Uuid) :
    kycVerified db' customerId = kycVerified db customerId := by
  have hf : db'.findCustomer = db.findCustomer := by
    funext id
    simp only [Db.findCustomer, hc]
  simp only [kycVerified, hf]

theorem lockedAccount_congr {id : Uuid} {l : LockedAccount}
    (ha : ∀ a, db.findAccount id = some a → db'.findAccount id = some a)
    (hb : ∀ b, db.findBalance id = some b → db'.findBalance id = some b)
    (h : lockedAccount db id = some l) : lockedAccount db' id = some l := by
  obtain ⟨a, b, hfa, hfb, rfl⟩ := lockedAccount_some h
  simp only [lockedAccount, ha a hfa, hb b hfb]

/-- A verified customer stays verified: no decision starts from that status. -/
theorem kycVerified_write {touched : List Uuid} (w : Write touched db db')
    {customerId : Option Uuid} (h : kycVerified db customerId = true) :
    kycVerified db' customerId = true := by
  unfold kycVerified at h ⊢
  cases hid : customerId with
  | none => simp [hid] at h
  | some id =>
    simp only [hid, Option.bind_some] at h ⊢
    cases hc : db.findCustomer id with
    | none => simp [hc] at h
    | some customer =>
      simp only [hc, decide_eq_true_eq] at h
      cases w with
      | customer row =>
        simp only [Db.findCustomer]
        rw [lookup_append_of_some _ hc]
        simpa using h
      | kyc target allowed next absorbing =>
        have hkey : ∀ c : Customer, { c with kycStatus := next }.customerId = c.customerId :=
          fun _ => rfl
        simp only [Db.findCustomer]
        rw [lookup_updateWhere hkey]
        simp only [Db.findCustomer] at hc
        simp [hc, h, absorbing]
      | _ =>
        simp only [Db.findCustomer] at hc ⊢
        simp [hc, h]

/-- A write leaves alone every account but those whose status it may set. -/
theorem findAccount_write {touched : List Uuid} (w : Write touched db db') {id : Uuid}
    (hid : id ∉ touched) {a : BankAccount} (ha : db.findAccount id = some a) :
    db'.findAccount id = some a := by
  cases w with
  | opened accounts balances opening => exact lookup_append_of_some accounts ha
  | status target status mem =>
    have hkey : ∀ a : BankAccount, { a with status := status }.accountId = a.accountId :=
      fun _ => rfl
    have hne : a.accountId ≠ target := by
      have hk : a.accountId = id := lookup_key ha
      intro he
      exact hid (hk ▸ he ▸ mem)
    simp only [Db.findAccount] at ha ⊢
    rw [lookup_updateWhere hkey, ha]
    simp [hne]
  | _ => exact ha

theorem write {touched : List Uuid} (w : Write touched db db')
    (hl : ∀ id ∈ touched, Lock.account id ∉ locks) : Frame locks db db' := by
  refine ⟨?_, fun _ h => kycVerified_write w h, ?_, ?_⟩
  · intro id hid l h
    refine lockedAccount_congr ?_ ?_ h
    · intro a ha
      exact findAccount_write w (fun hm => hl id hm hid) ha
    · intro b hb
      cases w with
      | opened accounts balances opening => exact lookup_append_of_some balances hb
      | _ => exact hb
  · intro id _ c hc
    cases w with
    | challenge row => exact lookup_append_of_some [row] hc
    | _ => exact hc
  · intro id _ t ht
    rwa [Db.findTransaction, w.transactions]

theorem writes {touched : List Uuid} (w : Writes touched db db')
    (hl : ∀ id ∈ touched, Lock.account id ∉ locks) : Frame locks db db' := by
  induction w with
  | refl => exact refl locks db
  | tail _ w ih => exact ih.trans (write w hl)
end Frame

namespace Call
variable {service : LedgerService} {c : Call} {db db' : Db} {locks : List Lock}

theorem source_mem_accountLocks : Lock.account c.cmd.sourceAccountId ∈ c.accountLocks := by
  unfold accountLocks firstAccount secondAccount
  split_ifs <;> simp

theorem destination_mem_accountLocks :
    Lock.account c.cmd.destinationAccountId ∈ c.accountLocks := by
  unfold accountLocks firstAccount secondAccount
  split_ifs <;> simp

theorem mem_challengeLocks {id : Uuid} :
    Lock.challenge id ∈ c.challengeLocks service ↔
      consumedChallenge service.sca c.cmd = some id := by
  simp [challengeLocks]

theorem mem_reversalLocks {id : Uuid} :
    Lock.transaction id ∈ c.reversalLocks ↔ c.cmd.reversesTransactionId = some id := by
  simp [reversalLocks]

/-- A commit leaves alone what others have locked. -/
theorem post_frame (h : c.post service db = .ok db')
    (hl : ∀ l ∈ c.writeLocks service, l ∉ locks) : Frame locks db db' := by
  have hp : Posted c.attempt c.cmd (challenged service.sca c.attempt c.cmd db) db' :=
    postTransfer_ok h
  have hother : ∀ {l l' : Lock}, l ∈ c.writeLocks service → l' ∈ locks → l' ≠ l := by
    intro l l' hm hm' he
    exact hl l hm (he ▸ hm')
  refine ⟨?_, ?_, ?_, ?_⟩
  · intro id hid l h
    have hs : id ≠ c.cmd.sourceAccountId := by
      intro he
      exact hother (l := .account c.cmd.sourceAccountId)
        (by simp [writeLocks, source_mem_accountLocks]) hid (by rw [he])
    have hd : id ≠ c.cmd.destinationAccountId := by
      intro he
      exact hother (l := .account c.cmd.destinationAccountId)
        (by simp [writeLocks, destination_mem_accountLocks]) hid (by rw [he])
    refine Frame.lockedAccount_congr ?_ ?_ h
    · intro a ha
      rwa [Db.findAccount, hp.accounts, challenged_accounts]
    · intro b hb
      rw [Db.findBalance, hp.balances, challenged_balances, findBalance_postedBalances hd,
        findBalance_postedBalances hs]
      exact hb
  · intro customerId hv
    rwa [Frame.kycVerified_congr (hp.customers.trans (challenged_customers ..))]
  · intro id hid ch hc
    rw [Db.findChallenge, hp.challenges]
    unfold challenged
    cases hs : consumedChallenge service.sca c.cmd with
    | none => exact hc
    | some used =>
      have hne : id ≠ used := by
        intro he
        exact hother (l := .challenge used)
          (by simp [writeLocks, mem_challengeLocks, hs]) hid (by rw [he])
      have hkey : ∀ r : ScaChallenge,
          ({ r with status := .consumed, consumedAt := some c.attempt.databaseNow } :
            ScaChallenge).challengeId = r.challengeId := fun _ => rfl
      have hch : ch.challengeId = id := lookup_key hc
      simp only [ScaService.consume]
      rw [lookup_updateWhere hkey]
      simp only [Db.findChallenge] at hc
      simp [hc, hch, hne]
  · intro id hid t ht
    have hkey : ∀ t : Transaction, t.reverse.transactionId = t.transactionId := fun _ => rfl
    have hne : c.cmd.reversesTransactionId ≠ some t.transactionId := by
      intro he
      have hk : t.transactionId = id := lookup_key ht
      exact hother (l := .transaction t.transactionId)
        (by simp [writeLocks, mem_reversalLocks, he]) hid (by rw [hk])
    rw [Db.findTransaction, hp.transactions, challenged_transactions,
      Db.reversedTransactions_lookup hkey, lookup_append_of_some _ ht]
    simp [hne]

section Checks
variable (service : LedgerService) (db : Db) (c : Call) (source destination : LockedAccount)

def Located : Prop :=
  lockAccounts c.cmd.sourceAccountId c.cmd.destinationAccountId db = .ok (source, destination)

def Guarded : Prop :=
  checkAccounts c.cmd source destination = .ok () ∧ checkActor c.cmd source db = .ok ()

def Authenticated : Prop :=
  presentChallenge service.sca c.attempt c.cmd db =
    .ok (challenged service.sca c.attempt c.cmd db) ∧ checkFunds c.cmd source = .ok ()

def Reversible : Prop := validateReversal c.cmd db = .ok ()
end Checks

section Frames
variable {source destination : LockedAccount}

theorem Located.frame (h : c.Located db source destination) (hf : Frame locks db db')
    (hl : c.accountLocks ⊆ locks) : c.Located db' source destination := by
  obtain ⟨hs, hd⟩ := lockAccounts_ok h
  have hs' := hf.accounts _ (hl source_mem_accountLocks) _ hs
  have hd' := hf.accounts _ (hl destination_mem_accountLocks) _ hd
  simp only [Located, lockAccounts, hs', hd']

theorem Guarded.frame (h : c.Guarded db source destination) (hf : Frame locks db db') :
    c.Guarded db' source destination := by
  refine ⟨h.1, ?_⟩
  have ha := h.2
  unfold checkActor at ha ⊢
  split_ifs at ha ⊢ with ho
  · rfl
  · simp only [bind_eq_ok, checkKyc] at ha ⊢
    obtain ⟨_, hown, hk⟩ := ha
    split_ifs at hk with hv
    exact ⟨(), hown, by rw [if_pos (hf.verified _ hv)]⟩

theorem Authenticated.frame (h : c.Authenticated service db source) (hf : Frame locks db db')
    (hl : c.challengeLocks service ⊆ locks) : c.Authenticated service db' source := by
  refine ⟨?_, h.2⟩
  have hp := h.1
  unfold presentChallenge at hp ⊢
  split_ifs at hp ⊢ with ho
  · simp [challenged, consumedChallenge, ho]
  · cases ScaService.validateAndConsume_ok hp with
    | inl hr => simp [ScaService.validateAndConsume, challenged, consumedChallenge, hr.1]
    | inr hr =>
      obtain ⟨id, ch, hr, hid, hc, ha, -⟩ := hr
      have hused : consumedChallenge service.sca c.cmd = some id := by
        simp [consumedChallenge, ho, hr, hid]
      have hc' := hf.challenges id (hl (mem_challengeLocks.mpr hused)) ch hc
      unfold ScaService.validateAndConsume at hp ⊢
      simp only [hr, hid, hc, hc', ha, if_true, Bool.true_eq_false, if_false] at hp ⊢
      split_ifs at hp ⊢ with hcode
      simp [challenged, hused]

theorem Reversible.frame (h : c.Reversible db) (hf : Frame locks db db')
    (hl : c.reversalLocks ⊆ locks) : c.Reversible db' := by
  unfold Reversible at h ⊢
  cases ho : c.cmd.reversesTransactionId with
  | none => simp [validateReversal, ho]
  | some id =>
    obtain ⟨original, hfind, hr⟩ := validateReversal_ok h ho
    have hfind' := hf.transactions id (hl (mem_reversalLocks.mpr ho)) original hfind
    simp [validateReversal, ho, hfind', hr]
end Frames

/-- The checks a call has behind it, true of the committed database at every moment. -/
def Checked (service : LedgerService) (db : Db) (c : Call) : Prop :=
  match c.stage with
  | .guards source destination => c.Located db source destination
  | .authenticate source destination =>
    c.Located db source destination ∧ c.Guarded db source destination
  | .reversal source destination =>
    c.Located db source destination ∧ c.Guarded db source destination ∧
      c.Authenticated service db source
  | .insert source destination | .commit source destination =>
    c.Located db source destination ∧ c.Guarded db source destination ∧
      c.Authenticated service db source ∧ c.Reversible db
  | _ => True

/-- What a call has checked stays true under its locks. -/
theorem Checked.frame (h : c.Checked service db) (hf : Frame (c.locks service) db db') :
    c.Checked service db' := by
  unfold Checked at h ⊢
  cases hs : c.stage with
  | guards source destination =>
    simp only [hs] at h ⊢
    exact h.frame hf (by simp [locks, hs])
  | authenticate source destination =>
    simp only [hs] at h ⊢
    exact ⟨h.1.frame hf (by simp [locks, hs]), h.2.frame hf⟩
  | reversal source destination =>
    simp only [hs] at h ⊢
    exact ⟨h.1.frame hf (by simp [locks, hs]), h.2.1.frame hf,
      h.2.2.frame hf (by simp [locks, hs])⟩
  | insert source destination | commit source destination =>
    simp only [hs] at h ⊢
    have hw : c.writeLocks service ⊆ c.locks service := by simp [locks, hs]
    exact ⟨h.1.frame hf fun l hl => hw (by simp [writeLocks, hl]), h.2.1.frame hf,
      h.2.2.1.frame hf fun l hl => hw (by simp [writeLocks, hl]),
      h.2.2.2.frame hf fun l hl => hw (by simp [writeLocks, hl])⟩
  | _ => trivial

/-- At its commit a call does what it would do alone. -/
theorem commit_alone {source destination : LockedAccount}
    (hs : c.stage = .commit source destination) (hc : c.Checked service db)
    (hp : c.post service db = .ok db') :
    Transferred service.sca c.attempt c.cmd db db' ∧
    createTransfer service.sca c.attempt c.command db =
      (.ok (firstResponse c.attempt c.cmd, false), db') := by
  simp only [Checked, hs] at hc
  obtain ⟨hlocated, ⟨haccounts, hactor⟩, ⟨hchallenge, hfunds⟩, hreversal⟩ := hc
  have hposted : Posted c.attempt c.cmd (challenged service.sca c.attempt c.cmd db) db' :=
    postTransfer_ok hp
  have hunused : db.findByIdempotency c.cmd.actor.userId c.cmd.idempotencyKey = none := by
    have hfresh := hposted.freshKey
    rw [challenged_transactions] at hfresh
    exact lookup_none_iff.mpr hfresh
  have hreversal' :
      validateReversal c.cmd (challenged service.sca c.attempt c.cmd db) = .ok () := by
    have hfind : (challenged service.sca c.attempt c.cmd db).findTransaction =
        db.findTransaction := by
      funext id
      simp only [Db.findTransaction, challenged_transactions]
    have hplain : validateReversal c.cmd db = .ok () := hreversal
    unfold validateReversal at hplain ⊢
    rwa [hfind]
  refine ⟨⟨source, destination, hunused, hlocated, haccounts, hactor, hchallenge, hfunds,
    hreversal', hposted⟩, ?_⟩
  have htransaction : transferTransaction service.sca c.attempt c.cmd db =
      .ok ((firstResponse c.attempt c.cmd, false), db') := by
    unfold transferTransaction
    simp only [hunused, bind_eq_ok]
    exact ⟨_, hlocated, _, haccounts, _, hactor, _, hchallenge, _, hfunds, _, hreversal', _, hp,
      rfl⟩
  rw [createTransfer_of_normalise c.normalised]
  simp only [transferNormalised, hunused, htransaction]

section Moves
variable {blocked : Lock → Bool} {stage : Stage}

/-- Every lock of the new stage the call had already, or found free. -/
theorem Moves.mem_locks (h : c.Moves service blocked db stage db') {l : Lock}
    (hl : l ∈ (c.become stage).locks service) :
    l ∈ c.locks service ∨ blocked l = false := by
  cases h with
  | wait => exact .inl hl
  | fail e | violate | replay existing found | miss hs | commit source destination db' hs posted
    | respond payload hs => simp [Call.locks] at hl
  | guard hs free =>
    simp only [Call.locks, become_stage, become_advisory, List.mem_singleton] at hl
    exact .inr (hl ▸ free)
  | missLocked hs => exact .inl (by simpa [Call.locks, hs] using hl)
  | first hs free =>
    simp only [Call.locks, become_stage, become_advisory, List.mem_cons, List.not_mem_nil,
      or_false] at hl
    cases hl with
    | inl hl => exact .inl (by simpa [Call.locks, hs] using hl)
    | inr hl => exact .inr (hl ▸ free)
  | second source destination hs free locked =>
    simp only [Call.locks, become_stage, become_advisory, accountLocks, List.mem_cons,
      List.not_mem_nil, or_false] at hl
    rcases hl with hl | hl | hl
    · exact .inl (by simp [Call.locks, hs, hl])
    · exact .inl (by simp [Call.locks, hs, hl])
    · exact .inr (hl ▸ free)
  | pass source destination hs accounts actor =>
    exact .inl (by simpa [Call.locks, hs] using hl)
  | authenticate source destination hs free challenge funds =>
    simp only [Call.locks, become_stage, become_advisory, become_accountLocks,
      become_challengeLocks, List.mem_cons, List.mem_append] at hl
    rcases hl with hl | hl | hl
    · exact .inl (by simp [Call.locks, hs, hl])
    · exact .inl (by simp [Call.locks, hs, hl])
    · exact .inr (free l hl)
  | reverse source destination hs free reversal =>
    simp only [Call.locks, become_stage, become_advisory, writeLocks, List.mem_cons,
      List.mem_append] at hl
    rcases hl with hl | hl | hl
    · exact .inl (by simp [Call.locks, hs, hl])
    · refine .inl ?_
      simp only [Call.locks, hs, List.mem_cons, List.mem_append]
      exact .inr hl
    · exact .inr (free l hl)
  | insert source destination hs => exact .inl (by simpa [Call.locks, hs] using hl)

/-- A move that is no commit leaves the database alone. -/
theorem Moves.db_eq (h : c.Moves service blocked db stage db') :
    db' = db ∨ ∃ source destination, c.stage = .commit source destination ∧
      c.post service db = .ok db' ∧ stage = .respond (firstResponse c.attempt c.cmd) := by
  cases h with
  | commit source destination db' hs posted => exact .inr ⟨source, destination, hs, posted, rfl⟩
  | _ => exact .inl rfl

/-- What a move checks adds to what the stages before have checked. -/
theorem Moves.checked (h : c.Moves service blocked db stage db') (hc : c.Checked service db) :
    (c.become stage).Checked service db' := by
  cases h with
  | wait => exact hc
  | second source destination hs free locked => exact locked
  | pass source destination hs accounts actor =>
    simp only [Checked, hs] at hc
    exact ⟨hc, accounts, actor⟩
  | authenticate source destination hs free challenge funds =>
    simp only [Checked, hs] at hc
    exact ⟨hc.1, hc.2, challenge, funds⟩
  | reverse source destination hs free reversal =>
    simp only [Checked, hs] at hc
    exact ⟨hc.1, hc.2.1, hc.2.2, reversal⟩
  | insert source destination hs =>
    simp only [Checked, hs] at hc
    exact hc
  | _ => trivial
end Moves
end Call

/-- No lock is held twice, and what each call has checked still holds. -/
structure Calls.Sound (service : LedgerService) (s : Calls) : Prop where
  exclusive : Locks.Exclusive (Call.locks service) s.calls
  checked : ∀ (i : Nat) (c : Call), s.calls[i]? = some c → c.Checked service s.db

namespace Calls
variable {settings : Settings} {service : LedgerService} {s : Calls}

theorem Sound.initial : Calls.initial.Sound service :=
  ⟨Locks.exclusive_nil, fun i c h => by cases h⟩

/-- The call that moved, or a call as it was. -/
theorem getElem?_move {i j : Nat} {c d : Call} {stage : Stage} {db : Db}
    (h : (s.move i c stage db).calls[j]? = some d) :
    (j = i ∧ d = c.become stage) ∨ (j ≠ i ∧ s.calls[j]? = some d) := by
  simp only [move, List.getElem?_set] at h
  by_cases hij : i = j
  · rw [if_pos hij] at h
    split_ifs at h
    exact .inl ⟨hij.symm, (Option.some.inj h).symm⟩
  · rw [if_neg hij] at h
    exact .inr ⟨Ne.symm hij, h⟩

theorem getElem?_begin {j : Nat} {c d : Call} (h : (s.calls ++ [c])[j]? = some d) :
    d = c ∨ s.calls[j]? = some d := by
  rw [List.getElem?_append] at h
  split_ifs at h with hl
  · exact .inr h
  · rw [List.getElem?_singleton] at h
    split_ifs at h
    exact .inl (Option.some.inj h).symm

theorem Sound.begin (h : s.Sound service) {c : Call} (hc : c.stage = .lookup) :
    ({ s with calls := s.calls ++ [c] } : Calls).Sound service := by
  refine ⟨h.exclusive.append (by simp [Call.locks, hc]), ?_⟩
  intro i d hd
  cases getElem?_begin hd with
  | inl he => simp [he, Call.Checked, hc]
  | inr hd => exact h.checked i d hd

theorem Sound.crash (h : s.Sound service) {i : Nat} {c : Call} :
    (s.move i c .crashed s.db).Sound service := by
  refine ⟨h.exclusive.set fun l hl => by simp [Call.locks] at hl, ?_⟩
  intro j d hd
  cases getElem?_move hd with
  | inl he => rw [he.2]; trivial
  | inr hd => exact h.checked j d hd.2

/-- The locks of the others cover what they have checked against a commit. -/
theorem Sound.commit_frame (h : s.Sound service) {i j : Nat} {c d : Call} {db : Db}
    {source destination : LockedAccount} (hi : s.calls[i]? = some c)
    (hs : c.stage = .commit source destination) (hp : c.post service s.db = .ok db)
    (hj : s.calls[j]? = some d) (hne : j ≠ i) : Frame (d.locks service) s.db db := by
  refine Call.post_frame hp fun l hl => ?_
  have hc : l ∈ c.locks service := by
    simp only [Call.locks, hs]
    exact List.mem_cons_of_mem _ hl
  exact h.exclusive.disjoint hi hj hne.symm l hc

theorem Sound.move (h : s.Sound service) {i : Nat} {c : Call} {stage : Stage} {db : Db}
    (hi : s.calls[i]? = some c) (hm : c.Moves service (s.blocked service i) s.db stage db) :
    (s.move i c stage db).Sound service := by
  refine ⟨h.exclusive.set fun l hl => ?_, ?_⟩
  · cases hm.mem_locks hl with
    | inl hl => exact .inl ⟨c, hi, hl⟩
    | inr hl => exact .inr hl
  · intro j d hd
    cases getElem?_move hd with
    | inl he =>
      rw [he.2]
      exact hm.checked (h.checked i c hi)
    | inr hd =>
      have hold := h.checked j d hd.2
      cases hm.db_eq with
      | inl he => exact he ▸ hold
      | inr hcommit =>
        obtain ⟨source, destination, hs, hp, -⟩ := hcommit
        exact hold.frame (h.commit_frame hi hs hp hd.2 hd.1)

theorem Sound.operation (h : s.Sound service) {o : Operation}
    (ha : s.available service o = true) :
    ({ s with db := bankStep settings service.sca s.db (.operation o) } : Calls).Sound service := by
  refine ⟨h.exclusive, fun i c hc => (h.checked i c hc).frame ?_⟩
  have hfree : ∀ id ∈ o.touched, Lock.account id ∉ c.locks service := by
    have hall := List.all_eq_true.mp ha c (List.mem_of_getElem? hc)
    simpa using hall
  simp only [bankStep]
  split
  · rename_i hok
    exact Frame.writes (Operation.perform_writes hok) hfree
  · exact Frame.refl _ _

theorem Sound.step (s : Calls) (e : CallEvent) (h : s.Sound service) :
    (callStep settings service s e).Sound service := by
  rcases callStep_cases settings service s e with
    he | ⟨c, hc, he⟩ | ⟨i, c, stage, db, -, hc, hm, he⟩ | ⟨i, c, -, hc, he⟩ | ⟨o, -, ha, he⟩
  · rw [he]
    exact h
  · rw [he]
    exact h.begin hc
  · rw [he]
    exact h.move hc hm
  · rw [he]
    exact h.crash
  · rw [he]
    exact h.operation ha

theorem sound_run (settings : Settings) (service : LedgerService) (es : List CallEvent) :
    (Runs.run (callStep settings service) Calls.initial es).Sound service :=
  Runs.run_invariant Sound.step Sound.initial es

/-- A step is nothing, one operation or one whole call of the serial machine. -/
theorem step_serial (s : Calls) (e : CallEvent) (h : s.Sound service) :
    ∃ ops, (callStep settings service s e).db =
      Runs.run (bankStep settings service.sca) s.db ops := by
  rcases callStep_cases settings service s e with
    he | ⟨c, hc, he⟩ | ⟨i, c, stage, db, -, hc, hm, he⟩ | ⟨i, c, -, hc, he⟩ | ⟨o, -, ha, he⟩
  · exact ⟨[], by rw [he]; rfl⟩
  · exact ⟨[], by rw [he]; rfl⟩
  · rw [he]
    cases hm.db_eq with
    | inl hdb => exact ⟨[], hdb⟩
    | inr hcommit =>
      obtain ⟨source, destination, hs, hp, -⟩ := hcommit
      obtain ⟨-, halone⟩ := Call.commit_alone hs (h.checked i c hc) hp
      refine ⟨[.transfer c.attempt c.command], ?_⟩
      simp only [Runs.run, bankStep, halone, Calls.move]
  · exact ⟨[], by rw [he]; rfl⟩
  · exact ⟨[.operation o], by rw [he]; rfl⟩

/-- What every write and the commits of the calls keep is kept by every step. -/
theorem Sound.keep {I : Db → Prop} (h : s.Sound service)
    (write : ∀ {touched a b}, Write touched a b → I a → I b)
    (transferred : ∀ c ∈ s.calls, ∀ db, Transferred service.sca c.attempt c.cmd s.db db → I db)
    (e : CallEvent) (hi : I s.db) : I (callStep settings service s e).db := by
  rcases callStep_cases settings service s e with
    he | ⟨c, hc, he⟩ | ⟨i, c, stage, db, -, hc, hm, he⟩ | ⟨i, c, -, hc, he⟩ | ⟨o, -, ha, he⟩
  · rw [he]
    exact hi
  · rw [he]
    exact hi
  · rw [he]
    cases hm.db_eq with
    | inl hdb => exact hdb ▸ hi
    | inr hcommit =>
      obtain ⟨source, destination, hs, hp, -⟩ := hcommit
      obtain ⟨ht, -⟩ := Call.commit_alone hs (h.checked i c hc) hp
      exact transferred c (List.mem_of_getElem? hc) db ht
  · rw [he]
    exact hi
  · rw [he]
    simp only [bankStep]
    split
    · rename_i hok
      exact (Operation.perform_writes hok).invariant write hi
    · exact hi

/-- Every concurrent run ends in the database of a serial one. -/
theorem run_serial (settings : Settings) (service : LedgerService) (es : List CallEvent) :
    ∃ ops, (Runs.run (callStep settings service) Calls.initial es).db =
      Runs.run (bankStep settings service.sca) Db.migrated ops :=
  Runs.run_simulates Calls.db Sound.step step_serial Sound.initial es

/-- What holds after every serial run holds after every concurrent one. -/
theorem run_of_serial {settings : Settings} {service : LedgerService} {P : Db → Prop}
    (h : ∀ ops, P (Runs.run (bankStep settings service.sca) Db.migrated ops))
    (es : List CallEvent) : P (Runs.run (callStep settings service) Calls.initial es).db := by
  obtain ⟨ops, hops⟩ := run_serial settings service es
  exact hops ▸ h ops
end Calls
end Bantam
