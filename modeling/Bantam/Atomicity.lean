import Bantam.Serial
import Bantam.Projection

/-! `create_transfer` is atomic: a call that raises or replays leaves every table as it was,
and a fresh one adds its rows and changes the rows of its payment alone. -/
namespace Bantam
open Tables
variable {db db' : Db} {attempt : Attempt} {cmd : NormalisedCommand} {sca : ScaService}

/-- All that a fresh transfer does to the database. -/
structure FreshEffect (sca : ScaService) (command : TransferCommand) (db db' : Db) : Prop where
  transactions : ∃ row, row.transactionId ∉ db.transactions.map Transaction.transactionId ∧
    db'.transactions = (db.transactions.map fun t =>
      if command.reversesTransactionId = some t.transactionId then t.reverse else t) ++ [row]
  entries : ∃ debit credit, db'.entries = db.entries ++ [debit, credit]
  outbox : ∃ event, db'.outbox = db.outbox ++ [event]
  audit : ∃ event, db'.audit = db.audit ++ [event]
  balanceIds : db'.balances.map AccountBalance.accountId =
    db.balances.map AccountBalance.accountId
  balances : ∀ id, Changed AccountBalance.accountId db.balances db'.balances id ↔
    id = command.sourceAccountId ∨ id = command.destinationAccountId
  challengeIds : db'.challenges.map ScaChallenge.challengeId =
    db.challenges.map ScaChallenge.challengeId
  challenges : ∀ id, Changed ScaChallenge.challengeId db.challenges db'.challenges id ↔
    sca.required command.amountMinor = true ∧ command.operatorOverride = false ∧
      command.scaChallengeId = some id
  presented : sca.required command.amountMinor = true → command.operatorOverride = false →
    command.scaChallengeId.isSome
  consumed : ∀ id, Changed ScaChallenge.challengeId db.challenges db'.challenges id →
    ∃ c c', db.findChallenge id = some c ∧ c.status = .pending ∧
      db'.findChallenge id = some c' ∧ c'.status = .consumed
  originals : ∀ id, command.reversesTransactionId = some id →
    ∃ t ∈ db.transactions, t.transactionId = id ∧ t.status = .posted
  customers : db'.customers = db.customers
  users : db'.users = db.users
  permissions : db'.permissions = db.permissions
  accounts : db'.accounts = db.accounts
  riskAlerts : db'.riskAlerts = db.riskAlerts

/-- No challenge row leaves, and no two have one identifier. -/
def ChallengesKeyed (db : Db) : Prop := Keyed ScaChallenge.challengeId db.challenges

namespace ChallengesKeyed

theorem write {touched : List Uuid} (w : Write touched db db') (h : ChallengesKeyed db) :
    ChallengesKeyed db' := by
  cases w with
  | challenge row pending fresh => exact keyed_append_one.mpr ⟨h, fresh⟩
  | _ => exact h

theorem challenged_ids : (challenged sca attempt cmd db).challenges.map ScaChallenge.challengeId =
    db.challenges.map ScaChallenge.challengeId := by
  unfold challenged
  cases consumedChallenge sca cmd with
  | none => rfl
  | some id => exact map_updateWhere _ _ _ fun _ => rfl

theorem transferred (ht : Transferred sca attempt cmd db db') (h : ChallengesKeyed db) :
    ChallengesKeyed db' := by
  obtain ⟨_, _, -, -, -, -, -, -, -, hp⟩ := ht
  rw [ChallengesKeyed, Keyed, hp.challenges, challenged_ids]
  exact h

theorem step {settings : Settings} (e : BankEvent) (h : ChallengesKeyed db) :
    ChallengesKeyed (bankStep settings sca db e) := by
  cases e with
  | operation o =>
    simp only [bankStep]
    split
    · rename_i hok
      exact (Operation.perform_writes hok).invariant write h
    · exact h
  | transfer attempt command =>
    cases createTransfer_cases sca attempt command db with
    | inl hrefused =>
      obtain ⟨he, -⟩ := hrefused
      rw [bankStep, he]
      exact h
    | inr hcommitted =>
      obtain ⟨cmd, db', -, he, ht⟩ := hcommitted
      rw [bankStep, he]
      exact h.transferred ht
end ChallengesKeyed

section Effects
variable {id : Uuid}

/-- A posting moves the balances of its two accounts and of no other. -/
theorem Posted.changed_balances (hp : Posted attempt cmd db db')
    (hs : cmd.sourceAccountId ∈ db.balances.map AccountBalance.accountId)
    (hd : cmd.destinationAccountId ∈ db.balances.map AccountBalance.accountId) :
    Changed AccountBalance.accountId db.balances db'.balances id ↔
      id = cmd.sourceAccountId ∨ id = cmd.destinationAccountId := by
  have hkey : ∀ delta entry now, ∀ b : AccountBalance,
      (b.post delta entry now).accountId = b.accountId := fun _ _ _ _ => rfl
  have moved : ∀ delta entry now, delta ≠ 0 → ∀ b : AccountBalance, b.post delta entry now ≠ b := by
    intro delta entry now hne b he
    have hc := congrArg AccountBalance.currentBalanceMinor he
    simp only [AccountBalance.post] at hc
    omega
  have hpos := cmd.amountPos
  have hne := cmd.distinct
  -- one update changes the row under its account alone
  have single : ∀ (rows : List AccountBalance) (account : Uuid) (delta : Int) entry now,
      delta ≠ 0 → account ∈ rows.map AccountBalance.accountId →
      (Changed AccountBalance.accountId rows (Db.postedBalances rows account delta entry now) id ↔
        id = account) := by
    intro rows account delta entry now hdelta hmem
    rw [Db.postedBalances, changed_updateWhere (hkey delta entry now)
      fun b _ => moved delta entry now hdelta b]
    constructor
    · intro h
      obtain ⟨b, hb, he⟩ := h
      exact (lookup_key hb).symm.trans (by simpa using he)
    · intro he
      subst he
      obtain ⟨b, hb⟩ := Option.isSome_iff_exists.mp (lookup_isSome_iff.mpr hmem)
      exact ⟨b, hb, by simpa using lookup_key hb⟩
  rw [Changed, hp.balances]
  by_cases h : id = cmd.destinationAccountId
  · have hfirst : ∀ entry now, lookup AccountBalance.accountId id
        (Db.postedBalances db.balances cmd.sourceAccountId (-cmd.amountMinor) entry now) =
          lookup AccountBalance.accountId id db.balances :=
      fun _ _ => findBalance_postedBalances (by rw [h]; exact hne.symm)
    rw [← hfirst attempt.debitEntryId attempt.databaseNow]
    have hsecond := single
      (Db.postedBalances db.balances cmd.sourceAccountId (-cmd.amountMinor) attempt.debitEntryId
        attempt.databaseNow)
      cmd.destinationAccountId cmd.amountMinor attempt.creditEntryId attempt.databaseNow
      (by omega) (by rw [postedBalances_ids]; exact hd)
    rw [Changed] at hsecond
    rw [hsecond]
    simp [h]
  · rw [findBalance_postedBalances h]
    have hfirst := single db.balances cmd.sourceAccountId (-cmd.amountMinor)
      attempt.debitEntryId attempt.databaseNow (by omega) hs
    rw [Changed] at hfirst
    rw [hfirst]
    simp [h]

/-- What a payment that passed its authentication has consumed, if it had to present one. -/
theorem presented_challenge (h : presentChallenge sca attempt cmd db =
    .ok (challenged sca attempt cmd db)) :
    (cmd.operatorOverride = true ∨ sca.required cmd.amountMinor = false) ∨
    ∃ id c, cmd.operatorOverride = false ∧ sca.required cmd.amountMinor = true ∧
      cmd.scaChallengeId = some id ∧ db.findChallenge id = some c ∧
      sca.acceptable attempt.scaNow cmd.actor cmd.sourceAccountId cmd.destinationAccountId
        cmd.amountMinor id cmd.scaCode c = true := by
  unfold presentChallenge at h
  cases ho : cmd.operatorOverride with
  | true => exact .inl (.inl rfl)
  | false =>
    rw [ho, if_neg (by simp)] at h
    cases ScaService.validateAndConsume_ok h with
    | inl h => exact .inl (.inr h.1)
    | inr h =>
      obtain ⟨id, c, hr, hid, hc, ha, -⟩ := h
      exact .inr ⟨id, c, rfl, hr, hid, hc, ha⟩

theorem acceptable_pending {now : Instant} {principal : Principal} {source destination : Uuid}
    {amount : Int} {code : String} {c : ScaChallenge}
    (h : sca.acceptable now principal source destination amount id code c = true) :
    c.status = .pending := by
  simp only [ScaService.acceptable, Bool.and_eq_true, decide_eq_true_eq] at h
  exact h.1.1.1.1.1.1

/-- A payment consumes the challenge that it presents, and changes no other. -/
theorem changed_challenged (h : presentChallenge sca attempt cmd db =
    .ok (challenged sca attempt cmd db)) :
    Changed ScaChallenge.challengeId db.challenges (challenged sca attempt cmd db).challenges id ↔
      consumedChallenge sca cmd = some id := by
  cases presented_challenge h with
  | inl hnone =>
    have hc : consumedChallenge sca cmd = none := if_pos hnone
    simp [challenged, hc, Changed]
  | inr hsome =>
    obtain ⟨used, c, ho, hr, hid, hc, ha⟩ := hsome
    have hused : consumedChallenge sca cmd = some used := by
      simp [consumedChallenge, ho, hr, hid]
    have hp : c.status = .pending := acceptable_pending ha
    have hkey : ∀ r : ScaChallenge,
        ({ r with status := .consumed, consumedAt := some attempt.databaseNow } :
          ScaChallenge).challengeId = r.challengeId := fun _ => rfl
    have halter : ∀ r : ScaChallenge, (r.challengeId = used && r.status = .pending) = true →
        ({ r with status := .consumed, consumedAt := some attempt.databaseNow } :
          ScaChallenge) ≠ r := by
      intro r hr he
      have hs := congrArg ScaChallenge.status he
      simp only [Bool.and_eq_true, decide_eq_true_eq] at hr
      rw [hr.2] at hs
      cases hs
    simp only [challenged, hused, ScaService.consume]
    rw [changed_updateWhere hkey halter]
    constructor
    · intro hex
      obtain ⟨r, hr, hp⟩ := hex
      simp only [Bool.and_eq_true, decide_eq_true_eq] at hp
      rw [← hp.1, lookup_key hr]
    · intro he
      obtain rfl := Option.some.inj he
      exact ⟨c, hc, by simp [lookup_key hc, hp]⟩

/-- The challenge that a payment consumes was pending and is consumed. -/
theorem consumed_challenged (h : presentChallenge sca attempt cmd db =
    .ok (challenged sca attempt cmd db)) (hid : consumedChallenge sca cmd = some id) :
    ∃ c, db.findChallenge id = some c ∧ c.status = .pending ∧
      (challenged sca attempt cmd db).findChallenge id =
        some { c with status := .consumed, consumedAt := some attempt.databaseNow } := by
  cases presented_challenge h with
  | inl hnone =>
    have hc : consumedChallenge sca cmd = none := if_pos hnone
    rw [hc] at hid
    cases hid
  | inr hsome =>
    obtain ⟨used, c, ho, hr, hused, hc, ha⟩ := hsome
    have he : consumedChallenge sca cmd = some used := by
      simp [consumedChallenge, ho, hr, hused]
    obtain rfl := Option.some.inj (he.symm.trans hid)
    have hp : c.status = .pending := acceptable_pending ha
    refine ⟨c, hc, hp, ?_⟩
    have hkey : ∀ r : ScaChallenge,
        ({ r with status := .consumed, consumedAt := some attempt.databaseNow } :
          ScaChallenge).challengeId = r.challengeId := fun _ => rfl
    simp only [challenged, he, ScaService.consume, Db.findChallenge]
    rw [lookup_updateWhere hkey]
    simp only [Db.findChallenge] at hc
    simp [hc, lookup_key hc, hp]
end Effects

/-- The row that a posting adds is new, so the reversal it records changes an older row. -/
theorem Posted.transactions_eq (hp : Posted attempt cmd db db')
    (hv : ∀ id, cmd.reversesTransactionId = some id → ∃ t, db.findTransaction id = some t) :
    db'.transactions = (db.transactions.map fun t =>
      if cmd.reversesTransactionId = some t.transactionId then t.reverse else t) ++
        [newTransaction attempt cmd] := by
  rw [hp.transactions]
  cases ho : cmd.reversesTransactionId with
  | none => simp [Db.reversedTransactions]
  | some id =>
    obtain ⟨t, ht⟩ := hv id ho
    have hne : (newTransaction attempt cmd).transactionId ≠ id := by
      intro he
      have hid : attempt.transactionId = id := he
      exact hp.freshId (hid ▸ key_mem_of_lookup ht)
    have hmap : ∀ rows : List Transaction,
        updateWhere (fun t => t.transactionId = id) Transaction.reverse rows =
          rows.map fun t => if some id = some t.transactionId then t.reverse else t := by
      intro rows
      refine List.map_congr_left fun t _ => ?_
      simp [eq_comm]
    simp only [Db.reversedTransactions, hmap]
    simp [Ne.symm hne]

theorem Transferred.effect {command : TransferCommand} (ht : Transferred sca attempt cmd db db')
    (hn : normalise attempt.requestId command = .ok cmd) : FreshEffect sca command db db' := by
  obtain ⟨source, destination, -, hl, -, -, hchallenge, -, hv, hp⟩ := ht
  obtain ⟨-, -, -, hsource, hdestination, hamount, -, hoverride, -, hreverses⟩ := normalise_ok hn
  obtain ⟨hid, -⟩ := normalise_sca hn
  obtain ⟨h1, h2⟩ := lockAccounts_ok hl
  obtain ⟨-, b1, -, hb1, -⟩ := lockedAccount_some h1
  obtain ⟨-, b2, -, hb2, -⟩ := lockedAccount_some h2
  have hfind : (challenged sca attempt cmd db).findTransaction = db.findTransaction := by
    funext id
    simp only [Db.findTransaction, challenged_transactions]
  have horiginal : ∀ id, cmd.reversesTransactionId = some id →
      ∃ t, db.findTransaction id = some t ∧ reversible cmd t = true := by
    intro id ho
    obtain ⟨t, ht, hr⟩ := validateReversal_ok hv ho
    exact ⟨t, hfind ▸ ht, hr⟩
  have hrows := hp.transactions_eq fun id ho => by
    obtain ⟨t, ht, -⟩ := horiginal id ho
    exact ⟨t, by rw [hfind]; exact ht⟩
  rw [challenged_transactions] at hrows
  have hconsumed : ∀ id, consumedChallenge sca cmd = some id ↔
      sca.required command.amountMinor = true ∧ command.operatorOverride = false ∧
        command.scaChallengeId = some id := by
    intro id
    rw [← hamount, ← hoverride, ← hid]
    unfold consumedChallenge
    cases ho : cmd.operatorOverride <;> cases hr : sca.required cmd.amountMinor <;> simp
  have hchanged : ∀ id, Changed ScaChallenge.challengeId db.challenges db'.challenges id ↔
      consumedChallenge sca cmd = some id := by
    intro id
    rw [hp.challenges]
    exact changed_challenged hchallenge
  refine {
    transactions := ⟨newTransaction attempt cmd, ?_, hreverses ▸ hrows⟩
    entries := ⟨debitEntry attempt cmd, creditEntry attempt cmd, ?_⟩
    outbox := ⟨transferEvent attempt cmd, ?_⟩
    audit := ⟨transferAudit attempt cmd, ?_⟩
    balanceIds := ?_
    balances := ?_
    challengeIds := ?_
    challenges := fun id => (hchanged id).trans (hconsumed id)
    presented := ?_
    consumed := ?_
    originals := ?_
    customers := ?_
    users := ?_
    permissions := ?_
    accounts := ?_
    riskAlerts := ?_ }
  · have hfresh := hp.freshId
    rwa [challenged_transactions] at hfresh
  · simpa using hp.entries
  · simpa using hp.outbox
  · rw [hp.audit, challenged_eq]
  · rw [hp.balance_ids, challenged_balances]
  · intro id
    rw [← hsource, ← hdestination, ← challenged_balances sca attempt cmd db]
    exact hp.changed_balances (by simpa using key_mem_of_lookup hb1)
      (by simpa using key_mem_of_lookup hb2)
  · rw [hp.challenges, ChallengesKeyed.challenged_ids]
  · intro hr ho
    cases presented_challenge hchallenge with
    | inl hnone =>
      rw [hoverride, hamount, hr, ho] at hnone
      simp at hnone
    | inr hsome =>
      obtain ⟨used, c, -, -, hused, -⟩ := hsome
      rw [← hid, hused]
      rfl
  · intro id hc
    obtain ⟨c, hfound, hpending, hlater⟩ := consumed_challenged hchallenge ((hchanged id).mp hc)
    refine ⟨c, { c with status := .consumed, consumedAt := some attempt.databaseNow }, hfound,
      hpending, ?_, rfl⟩
    rw [Db.findChallenge, hp.challenges]
    exact hlater
  · intro id ho
    obtain ⟨t, ht, hr⟩ := horiginal id (hreverses.trans ho)
    simp only [reversible, Bool.and_eq_true, decide_eq_true_eq] at hr
    exact ⟨t, lookup_mem ht, lookup_key ht, hr.1.1.1.1.1⟩
  · rw [hp.customers, challenged_customers]
  · rw [hp.users, challenged_users]
  · rw [hp.permissions, challenged_eq]
  · rw [hp.accounts, challenged_accounts]
  · rw [hp.riskAlerts, challenged_eq]

theorem challengesKeyed_reachable (settings : Settings) (sca : ScaService) (es : List BankEvent) :
    ChallengesKeyed (Runs.run (bankStep settings sca) Db.migrated es) := by
  have hstart : ChallengesKeyed Db.migrated := keyed_nil
  exact Runs.run_invariant (fun _ e h => ChallengesKeyed.step e h) hstart es

/-- In every state that concurrent calls can reach, where a key finds the one row it has, a call
that raises or replays leaves the database as it is, and a fresh one has the effect above. -/
theorem create_transfer_atomic (settings : Settings) (service : LedgerService)
    (es : List CallEvent) (attempt : Attempt) (command : TransferCommand) :
    let db := (Runs.run (callStep settings service) Calls.initial es).db
    let result := createTransfer service.sca attempt command db
    (Keyed AccountBalance.accountId db.balances ∧ Keyed ScaChallenge.challengeId db.challenges ∧
      Keyed Transaction.transactionId db.transactions) ∧
    ((∀ payload, result.1 ≠ .ok (payload, false)) → result.2 = db) ∧
    (∀ payload, result.1 = .ok (payload, false) →
      FreshEffect service.sca command db result.2) := by
  intro db result
  have hkeyed : Keyed AccountBalance.accountId db.balances ∧
      Keyed ScaChallenge.challengeId db.challenges ∧
      Keyed Transaction.transactionId db.transactions := by
    have hprojected : Projected db :=
      Calls.run_of_serial (projected_reachable settings service.sca) es
    have hchallenges : ChallengesKeyed db :=
      Calls.run_of_serial (challengesKeyed_reachable settings service.sca) es
    have hrecorded : Recorded db :=
      Calls.run_of_serial (recorded_run settings service.sca Recorded.migrated) es
    exact ⟨hprojected.balancesKeyed, hchallenges, hrecorded.idsKeyed⟩
  refine ⟨hkeyed, ?_⟩
  cases createTransfer_cases service.sca attempt command db with
  | inl h => refine ⟨fun _ => h.1, fun payload hp => absurd hp (h.2 payload)⟩
  | inr h =>
    obtain ⟨cmd, db', hn, he, ht⟩ := h
    have hr : result = (.ok (firstResponse attempt cmd, false), db') := he
    refine ⟨fun hne => absurd (by rw [hr]) (hne (firstResponse attempt cmd)), fun payload _ => ?_⟩
    rw [hr]
    exact ht.effect hn
end Bantam
