import Bantam.Api

/-! A request that succeeded once, repeated later: what its handler reads before the ledger
may have been changed by the first request itself. -/
namespace Bantam
open Tables
variable {settings : Settings} {sca : ScaService} {db db' db'' : Db} {attempt : Attempt}

/-- Every system account is the treasury. -/
def Treasured (db : Db) : Prop :=
  ∀ a ∈ db.accounts, a.accountType = .system → a.accountId = treasuryAccountId

/-- No system account is closed, frozen or lost. -/
def SystemKept (db db' : Db) : Prop :=
  ∀ a ∈ db.accounts, a.accountType = .system → a ∈ db'.accounts

theorem Write.treasured {touched : List Uuid} (w : Write touched db db') (h : Treasured db) :
    Treasured db' := by
  cases w with
  | opened accounts balances opening =>
    intro a ha hs
    cases List.mem_append.mp ha with
    | inl ha => exact h a ha hs
    | inr ha => exact (opening.treasury a ha hs).1
  | status target status mem =>
    intro a ha hs
    obtain ⟨q, hq, rfl⟩ := mem_updateWhere.mp ha
    split_ifs at hs ⊢ with hc
    · exact h q hq hs
    · exact h q hq hs
  | _ => exact h

theorem Write.systemKept {touched : List Uuid} (w : Write touched db db') :
    SystemKept db db' := by
  intro a ha hs
  cases w with
  | opened accounts balances opening => exact List.mem_append_left _ ha
  | status target status mem => exact mem_updateWhere_of_not ha (by simp [hs])
  | _ => exact ha

namespace SystemKept

theorem refl (db : Db) : SystemKept db db := fun _ ha _ => ha

theorem trans (h : SystemKept db db') (h' : SystemKept db' db'') : SystemKept db db'' :=
  fun a ha hs => h' a (h a ha hs) hs

theorem writes {touched : List Uuid} (w : Writes touched db db') : SystemKept db db' := by
  induction w with
  | refl => exact refl db
  | tail _ w ih => exact ih.trans w.systemKept
end SystemKept

/-- Transfers leave the accounts as they are. -/
theorem createTransfer_accounts (sca : ScaService) (attempt : Attempt) (command : TransferCommand)
    (db : Db) : (createTransfer sca attempt command db).2.accounts = db.accounts := by
  cases createTransfer_cases sca attempt command db with
  | inl h => rw [h.1]
  | inr h =>
    obtain ⟨cmd, db', -, he, ht⟩ := h
    obtain ⟨_, _, -, -, -, -, -, -, -, hp⟩ := ht
    rw [he]
    exact hp.accounts.trans (challenged_accounts ..)

theorem Treasured.step (db : Db) (e : BankEvent) (h : Treasured db) :
    Treasured (bankStep settings sca db e) := by
  cases e with
  | operation o =>
    simp only [bankStep]
    split
    · rename_i hok
      exact (Operation.perform_writes hok).invariant Write.treasured h
    · exact h
  | transfer attempt command =>
    intro a ha
    rw [bankStep, createTransfer_accounts] at ha
    exact h a ha

theorem SystemKept.step (settings : Settings) (sca : ScaService) (db : Db) (e : BankEvent) :
    SystemKept db (bankStep settings sca db e) := by
  cases e with
  | operation o =>
    simp only [bankStep]
    split
    · rename_i hok
      exact writes (Operation.perform_writes hok)
    · exact refl db
  | transfer attempt command =>
    intro a ha _
    rwa [bankStep, createTransfer_accounts]

theorem systemKept_run (settings : Settings) (sca : ScaService) (db : Db) (es : List BankEvent) :
    SystemKept db (Runs.run (bankStep settings sca) db es) :=
  Runs.run_rel SystemKept SystemKept.refl SystemKept.trans (I := fun _ => True)
    (fun db e _ => SystemKept.step settings sca db e) (fun _ _ _ => trivial) trivial es

/-- The system account that a handler finds is found by every later handler. -/
theorem systemAccount_later {id : Uuid} (ht : Treasured db) (ht' : Treasured db')
    (hk : SystemKept db db') (h : Api.systemAccount db = some id) :
    Api.systemAccount db' = some id := by
  unfold Api.systemAccount at h ⊢
  obtain ⟨a, ha, rfl⟩ := Option.map_eq_some_iff.mp h
  have hmem : a ∈ db.accounts := List.mem_of_find?_eq_some ha
  have hp := List.find?_some ha
  simp only [Bool.and_eq_true, decide_eq_true_eq] at hp
  have hsystem : a.accountType = .system := hp.1.1
  cases hf : db'.accounts.find? fun a =>
      a.accountType = .system && a.currency = "GBP" && a.status = .active with
  | none =>
    have hnone := List.find?_eq_none.mp hf a (hk a hmem hsystem)
    simp [hp] at hnone
  | some b =>
    have hq := List.find?_some hf
    simp only [Bool.and_eq_true, decide_eq_true_eq] at hq
    have hb := ht' b (List.mem_of_find?_eq_some hf) hq.1.1
    rw [Option.map_some, hb, ht a hmem hsystem]

/-- An answered call leaves its row under its actor and key. -/
theorem createTransfer_row {command : TransferCommand} {p : TransactionPayload} {r : Bool}
    (h : (createTransfer sca attempt command db).1 = .ok (p, r)) :
    ∃ cmd t, normalise attempt.requestId command = .ok cmd ∧
      t ∈ (createTransfer sca attempt command db).2.transactions ∧
      t.identity = (cmd.actor.userId, cmd.idempotencyKey) ∧
      p.transactionId = t.transactionId := by
  cases hn : normalise attempt.requestId command with
  | error e => simp [createTransfer, hn] at h
  | ok cmd =>
    rw [createTransfer_of_normalise hn] at h ⊢
    rcases transferNormalised_cases sca attempt cmd db with
      ⟨t, hf, he⟩ | ⟨db', hnew, he⟩ | ⟨e, -, he⟩
    · rw [he] at h ⊢
      cases h
      exact ⟨cmd, t, rfl, lookup_mem hf, lookup_key hf, rfl⟩
    · rw [he] at h ⊢
      cases h
      exact ⟨cmd, newTransaction attempt cmd, rfl, hnew.row_mem, rfl, rfl⟩
    · rw [he] at h
      cases h

/-- What the handler reads before the ledger still lets the request pass: for a reversal,
that the original is posted. -/
def MoneyRequest.repeatable (db : Db) : MoneyRequest → Bool
  | .adminReverseTransaction transactionId _ _ =>
    db.transactions.any fun t => t.transactionId = transactionId && t.status = .posted
  | _ => true

section Commands
variable {requestId : Uuid} {principal : Principal} {request : MoneyRequest}
  {command : TransferCommand}

theorem repeatable_of_command (h : Api.command requestId principal db request = .ok command) :
    request.repeatable db = true := by
  cases request with
  | adminReverseTransaction transactionId input key =>
    simp only [Api.command, Api.adminReverseTransaction, bind_eq_ok] at h
    obtain ⟨_, -, h⟩ := h
    split at h
    · cases h
    · rename_i original hf
      split_ifs at h with hs
      simp only [MoneyRequest.repeatable, List.any_eq_true]
      exact ⟨original, lookup_mem hf, by simpa using ⟨lookup_key hf, not_not.mp hs⟩⟩
  | _ => rfl

/-- A repeated request asks the ledger for what it asked before, under a new request id. -/
theorem command_later (again : Uuid) (hr : Recorded db') (hk : Kept db db')
    (ht : Treasured db) (ht' : Treasured db') (hs : SystemKept db db')
    (h : Api.command requestId principal db request = .ok command)
    (hrep : request.repeatable db' = true) :
    Api.command again principal db' request = .ok { command with requestId := some again } := by
  cases request with
  | createTransfer input key =>
    simp only [Api.command, Api.createTransfer, bind_eq_ok] at h ⊢
    obtain ⟨value, hkey, he⟩ := h
    cases he
    exact ⟨value, hkey, rfl⟩
  | adminDemoDeposit accountId input key =>
    simp only [Api.command, Api.adminDemoDeposit, bind_eq_ok] at h ⊢
    obtain ⟨value, hkey, he⟩ := h
    refine ⟨value, hkey, ?_⟩
    split at he
    · cases he
    · rename_i system hsystem
      cases he
      rw [systemAccount_later ht ht' hs hsystem]
      rfl
  | adminReverseTransaction transactionId input key =>
    simp only [Api.command, Api.adminReverseTransaction, bind_eq_ok] at h ⊢
    obtain ⟨value, hkey, he⟩ := h
    refine ⟨value, hkey, ?_⟩
    split at he
    · cases he
    · rename_i original hf
      split_ifs at he with hposted
      cases he
      -- the original is there, as it was or reversed; the request finds it posted
      have hid : original.transactionId = transactionId := lookup_key hf
      have hlater : ∃ later, db'.findTransaction transactionId = some later ∧
          (later = original ∨ later = original.reverse) := by
        cases hk original (lookup_mem hf) with
        | inl hm => exact ⟨original, hid ▸ hr.findTransaction hm, .inl rfl⟩
        | inr hm => exact ⟨original.reverse, hid ▸ hr.findTransaction hm.1, .inr rfl⟩
      obtain ⟨later, hfl, hcases⟩ := hlater
      simp only [MoneyRequest.repeatable, List.any_eq_true, Bool.and_eq_true,
        decide_eq_true_eq] at hrep
      obtain ⟨t, htm, htid, hts⟩ := hrep
      have hsame : t = later :=
        hr.idsKeyed.eq_of_key htm (lookup_mem hfl) (htid.trans (lookup_key hfl).symm)
      rw [hfl]
      simp only [← hsame, hts, ne_eq, not_true_eq_false, if_false]
      cases hcases with
      | inl heq => rw [hsame, heq]; rfl
      | inr heq => rw [hsame, heq]; rfl
end Commands

/-- A request that succeeded is answered again with the same transaction exactly when its
handler still lets it reach the ledger. -/
theorem retry_replays_iff (settings : Settings) (sca : ScaService) (before after : List BankEvent)
    (attempt again : Attempt) (draw redraw : Draw) (principal : Principal)
    (request : MoneyRequest) (first : TransactionPayload) (replayed : Bool)
    (hfirst : (Api.handle settings sca attempt draw principal request
      (Runs.run (bankStep settings sca) Db.migrated before)).1 = .ok (first, replayed))
    (hauth : Api.authorise settings principal
      (Runs.run (bankStep settings sca) (Api.handle settings sca attempt draw principal request
        (Runs.run (bankStep settings sca) Db.migrated before)).2 after) request = .ok ()) :
    let later := Runs.run (bankStep settings sca)
      (Api.handle settings sca attempt draw principal request
        (Runs.run (bankStep settings sca) Db.migrated before)).2 after
    (∃ answer, (Api.handle settings sca again redraw principal request later).1 =
        .ok (answer, true) ∧ answer.transactionId = first.transactionId) ↔
      request.repeatable later = true := by
  intro later
  set start := Runs.run (bankStep settings sca) Db.migrated before with hstart
  constructor
  · rintro ⟨answer, hanswer, -⟩
    obtain ⟨command, hcommand, -⟩ := Api.handle_ok hanswer
    exact repeatable_of_command hcommand
  · intro hrep
    obtain ⟨command, hcommand, hledger⟩ := Api.handle_ok hfirst
    rw [hledger] at hfirst
    have hrstart : Recorded start := recorded_run settings sca Recorded.migrated before
    obtain ⟨cmd, t, hn, ht, hid, hp⟩ := createTransfer_row hfirst
    -- the later state is one run from the start, and one run from the first answer
    obtain ⟨ops, hops⟩ := Api.handle_serial settings sca attempt draw principal request start
    have hrun : later = Runs.run (bankStep settings sca) start (ops ++ after) := by
      rw [Runs.run_append, ← hops]
    have hkept : Kept start later := hrun ▸ Kept.run settings sca start (ops ++ after)
    have hsystem : SystemKept start later := hrun ▸ systemKept_run settings sca start (ops ++ after)
    have hrlater : Recorded later := hrun ▸ recorded_run settings sca hrstart (ops ++ after)
    have htstart : Treasured start :=
      Runs.run_invariant Treasured.step (fun a ha => by cases ha) before
    have htlater : Treasured later :=
      hrun ▸ Runs.run_invariant Treasured.step htstart (ops ++ after)
    have hrow : ∃ u, later.findByIdempotency cmd.actor.userId cmd.idempotencyKey = some u ∧
        u.transactionId = t.transactionId := by
      have hfind : t.initiatedByUserId = cmd.actor.userId ∧
          t.idempotencyKey = cmd.idempotencyKey := Prod.mk.inj hid
      rw [← hledger] at ht
      have hafter := (Kept.run settings sca _ after).findByIdempotency hrlater ht
      rw [hfind.1, hfind.2] at hafter
      cases hafter with
      | inl hf => exact ⟨t, hf, rfl⟩
      | inr hf => exact ⟨t.reverse, hf.1, rfl⟩
    obtain ⟨u, hu, hut⟩ := hrow
    have hagain := command_later redraw.requestId hrlater hkept htstart htlater hsystem
      hcommand hrep
    refine ⟨transactionPayload u, ?_, hut.trans hp.symm⟩
    rw [Api.handle_of hauth hagain, createTransfer_replay again (some redraw.requestId) hn hu]
    rfl

/-! A reversal, run by the seeded administrator and repeated. -/

def sampleAdmin : Principal := { userId := adminUserId, role := .bankAdmin }

/-- The seeded bank after a deposit of 100, transaction 17. -/
def sampleHistory : List BankEvent :=
  [.operation (.seedRows 0), .transfer (sampleAttempt 1 3 3) (sampleDeposit "sample-key" 100)]

def sampleReversal : MoneyRequest := .adminReverseTransaction 17 ⟨"typo"⟩ (some "reverse-17")

/-- The answer to the sample reversal. -/
def sampleReversed : TransactionPayload where
  transactionId := 33
  idempotencyKey := "reverse-17"
  requestId := 256
  sourceAccountId := aliceAccountId
  destinationAccountId := treasuryAccountId
  amountMinor := 100
  currency := "GBP"
  description := "Reversal: typo"
  transactionType := .reversal
  status := .posted
  failureReason := none
  createdAt := 5
  postedAt := some 5

theorem retry_replays_iff_reversal :
    let later := Runs.run (bankStep sampleSettings sampleSca)
      (Api.handle sampleSettings sampleSca (sampleAttempt 2 5 5) (sampleDraw 1) sampleAdmin
        sampleReversal (Runs.run (bankStep sampleSettings sampleSca) Db.migrated sampleHistory)).2 []
    (∃ answer, (Api.handle sampleSettings sampleSca (sampleAttempt 3 7 7) (sampleDraw 2)
        sampleAdmin sampleReversal later).1 = .ok (answer, true) ∧
        answer.transactionId = sampleReversed.transactionId) ↔
      sampleReversal.repeatable later = true :=
  retry_replays_iff sampleSettings sampleSca sampleHistory [] (sampleAttempt 2 5 5)
    (sampleAttempt 3 7 7) (sampleDraw 1) (sampleDraw 2) sampleAdmin sampleReversal sampleReversed
    false (by decide) (by decide)

/-- The repeated reversal finds its original reversed, by itself, and is refused. -/
theorem retry_of_reversal_refused :
    let start := Runs.run (bankStep sampleSettings sampleSca) Db.migrated sampleHistory
    let first := Api.handle sampleSettings sampleSca (sampleAttempt 2 5 5) (sampleDraw 1)
      sampleAdmin sampleReversal start
    first.1 = .ok (sampleReversed, false) ∧
    Api.authorise sampleSettings sampleAdmin first.2 sampleReversal = .ok () ∧
    (Api.handle sampleSettings sampleSca (sampleAttempt 3 7 7) (sampleDraw 2) sampleAdmin
      sampleReversal first.2).1 = .error (.bantam notReversible) := by
  decide
end Bantam
