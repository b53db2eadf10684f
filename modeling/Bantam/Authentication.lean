import Bantam.Atomicity
import Bantam.Challenges
import Bantam.Commits

/-! The binding of strong customer authentication: a payment at the threshold consumes one
challenge, created for the same payment, and no challenge is consumed without its payment. -/
namespace Bantam
open Tables
variable {settings : Settings} {service : LedgerService} {past : List CallEvent}
  {log : List Commit} {s : Calls} {db db' : Db}

/-- The challenge that a committed transfer had to present. -/
def Commit.challenge? (service : LedgerService) (c : Commit) : Option Uuid :=
  consumedChallenge service.sca c.call.cmd

/-- The transfer had to be authenticated. -/
def Commit.Guarded (service : LedgerService) (c : Commit) : Prop :=
  service.sca.required c.call.cmd.amountMinor = true ∧ c.call.cmd.operatorOverride = false

/-- One of the events created the challenge, for these parties and this amount, with `code`. -/
def Created (service : LedgerService) (past : List CallEvent) (c : ScaChallenge) (code : String) :
    Prop :=
  ∃ draw principal, .operation (.createScaChallenge draw principal code c.sourceAccountId
      c.destinationAccountId c.amountMinor) ∈ past ∧
    draw.rowId = c.challengeId ∧ principal.userId = c.userId ∧
    c.expiresAt = draw.now + service.sca.ttl ∧
    c.codeHash = service.sca.hash c.challengeId c.userId c.sourceAccountId
      c.destinationAccountId c.amountMinor code

/-- The challenge was created before the commit for the payment of the commit, it was pending
and unexpired, its code was presented, and the commit consumed it and changed no other. -/
structure Commit.Consumed (settings : Settings) (service : LedgerService)
    (past : List CallEvent) (p : Commit) (c : ScaChallenge) : Prop where
  presented : p.call.cmd.scaChallengeId = some c.challengeId
  found : p.before.findChallenge c.challengeId = some c
  pending : c.status = .pending
  unexpired : p.call.attempt.scaNow ≤ c.expiresAt
  user : c.userId = p.call.cmd.actor.userId
  source : c.sourceAccountId = p.call.cmd.sourceAccountId
  destination : c.destinationAccountId = p.call.cmd.destinationAccountId
  amount : c.amountMinor = p.call.cmd.amountMinor
  created : ∃ earlier later, past = earlier ++ later ∧
    p.before = (Runs.run (callStep settings service) Calls.initial earlier).db ∧
    Created service earlier c p.call.cmd.scaCode
  consumed : p.after.findChallenge c.challengeId =
    some { c with status := .consumed, consumedAt := some p.call.attempt.databaseNow }
  alone : ∀ id, Changed ScaChallenge.challengeId p.before.challenges p.after.challenges id ↔
    id = c.challengeId

theorem Created.extend {c : ScaChallenge} {code : String} (h : Created service past c code)
    (es : List CallEvent) : Created service (past ++ es) c code := by
  obtain ⟨draw, principal, hm, hrest⟩ := h
  exact ⟨draw, principal, List.mem_append_left es hm, hrest⟩

theorem Commit.Consumed.extend {p : Commit} {c : ScaChallenge}
    (h : p.Consumed settings service past c) (es : List CallEvent) :
    p.Consumed settings service (past ++ es) c := by
  obtain ⟨earlier, later, he, hbefore, hcreated⟩ := h.created
  exact { h with created := ⟨earlier, later ++ es, by simp [he], hbefore, hcreated⟩ }

/-- Two codes with the digest of one challenge are one code. -/
theorem ScaService.hash_injective {sca : ScaService} (injective : Function.Injective sca.hmac)
    {challengeId userId source destination : Uuid} {amountMinor : Int} {code code' : String}
    (h : sca.hash challengeId userId source destination amountMinor code =
      sca.hash challengeId userId source destination amountMinor code') : code = code' :=
  (String.append_right_inj _).mp (injective h)

/-- What holds of the challenges after the events of a run and the transfers they committed. -/
structure Bound (settings : Settings) (service : LedgerService) (past : List CallEvent)
    (log : List Commit) (s : Calls) : Prop where
  committed : Committed service log s
  reached : s = Runs.run (callStep settings service) Calls.initial past
  keyed : ChallengesKeyed s.db
  created : ∀ c ∈ s.db.challenges, ∃ code, Created service past c code
  issued : ∀ id ∈ log.filterMap (Commit.challenge? service),
    id ∈ s.db.challenges.map ScaChallenge.challengeId
  once : (log.filterMap (Commit.challenge? service)).Nodup
  status : ∀ c ∈ s.db.challenges, c.status = .consumed ↔
    c.challengeId ∈ log.filterMap (Commit.challenge? service)
  authenticated : ∀ p ∈ log, p.Guarded service → ∃ c, p.Consumed settings service past c

namespace Bound

theorem initial : Bound settings service [] [] Calls.initial := by
  refine ⟨Committed.initial, rfl, keyed_nil, ?_, ?_, List.nodup_nil, ?_, ?_⟩ <;>
    simp [Calls.initial, Db.migrated]

/-- A step that leaves the challenges and commits nothing. -/
theorem quiet (h : Bound settings service past log s) {e : CallEvent}
    (hc : s.commit? service e = none)
    (hdb : (callStep settings service s e).db.challenges = s.db.challenges) :
    Bound settings service (past ++ [e]) (log ++ (s.commit? service e).toList)
      (callStep settings service s e) := by
  have hcommitted : Committed service (log ++ (s.commit? service e).toList)
      (callStep settings service s e) := h.committed.step e
  rw [hc, Option.toList_none, List.append_nil] at hcommitted ⊢
  refine ⟨hcommitted, ?_, ?_, ?_, ?_, h.once, ?_, ?_⟩
  · rw [Runs.run_snoc, ← h.reached]
  · rw [ChallengesKeyed, hdb]
    exact h.keyed
  · intro c hmem
    rw [hdb] at hmem
    obtain ⟨code, hcreated⟩ := h.created c hmem
    exact ⟨code, hcreated.extend [e]⟩
  · rw [hdb]
    exact h.issued
  · rw [hdb]
    exact h.status
  · intro p hp hguarded
    obtain ⟨c, hconsumed⟩ := h.authenticated p hp hguarded
    exact ⟨c, hconsumed.extend [e]⟩

/-- A creation adds a pending challenge under a new identifier. -/
theorem create (h : Bound settings service past log s) {draw : Draw} {principal : Principal}
    {code : String} {source destination : Uuid} {amountMinor : Int} {e : CallEvent}
    (amountPos : 0 < amountMinor)
    (he : e = .operation (.createScaChallenge draw principal code source destination amountMinor))
    (fresh : draw.rowId ∉ s.db.challenges.map ScaChallenge.challengeId)
    (hdb : (callStep settings service s e).db.challenges = s.db.challenges ++
      [createdChallenge service.sca draw principal code source destination amountMinor
        amountPos]) :
    Bound settings service (past ++ [e]) (log ++ (s.commit? service e).toList)
      (callStep settings service s e) := by
  have hcommitted : Committed service (log ++ (s.commit? service e).toList)
      (callStep settings service s e) := h.committed.step e
  have hc : s.commit? service e = none := by rw [he]; rfl
  rw [hc, Option.toList_none, List.append_nil] at hcommitted ⊢
  refine ⟨hcommitted, ?_, ?_, ?_, ?_, h.once, ?_, ?_⟩
  · rw [Runs.run_snoc, ← h.reached]
  · rw [ChallengesKeyed, hdb]
    exact keyed_append_one.mpr ⟨h.keyed, fresh⟩
  · intro c hmem
    rw [hdb] at hmem
    cases List.mem_append.mp hmem with
    | inl hold =>
      obtain ⟨code, hcreated⟩ := h.created c hold
      exact ⟨code, hcreated.extend [e]⟩
    | inr hnew =>
      rw [List.mem_singleton.mp hnew]
      exact ⟨code, draw, principal, by simp [he, createdChallenge], rfl, rfl, rfl, rfl⟩
  · intro id hid
    rw [hdb, List.map_append]
    exact List.mem_append_left _ (h.issued id hid)
  · intro c hmem
    rw [hdb] at hmem
    cases List.mem_append.mp hmem with
    | inl hold => exact h.status c hold
    | inr hnew =>
      rw [List.mem_singleton.mp hnew]
      constructor
      · intro hs
        cases hs
      · intro hid
        exact absurd (h.issued _ hid) fresh
  · intro p hp hguarded
    obtain ⟨c, hconsumed⟩ := h.authenticated p hp hguarded
    exact ⟨c, hconsumed.extend [e]⟩

/-- The challenge of a payment that passed its guards, and what they have established. -/
theorem acceptable_iff {sca : ScaService} {now : Instant} {principal : Principal}
    {source destination : Uuid} {amount : Int} {id : Uuid} {code : String} {c : ScaChallenge} :
    sca.acceptable now principal source destination amount id code c = true ↔
      c.status = .pending ∧ now ≤ c.expiresAt ∧ c.userId = principal.userId ∧
      c.sourceAccountId = source ∧ c.destinationAccountId = destination ∧
      c.amountMinor = amount ∧
      sca.hash id principal.userId source destination amount code = c.codeHash := by
  simp only [ScaService.acceptable, Bool.and_eq_true, decide_eq_true_eq, and_assoc]

/-- A committed transfer consumed a challenge created for it, if it had to present one. -/
theorem consumes (h : Bound settings service past log s)
    (injective : Function.Injective service.sca.hmac) {p : Commit} (hb : p.before = s.db)
    (ht : Transferred service.sca p.call.attempt p.call.cmd p.before p.after)
    (hg : p.Guarded service) : ∃ c, p.Consumed settings service past c := by
  obtain ⟨_, _, -, -, -, -, hchallenge, -, -, hp⟩ := ht
  cases presented_challenge hchallenge with
  | inl hnone =>
    obtain ⟨hr, ho⟩ := hg
    simp [hr, ho] at hnone
  | inr hsome =>
    obtain ⟨id, c, ho, hr, hid, hc, ha⟩ := hsome
    have hused : consumedChallenge service.sca p.call.cmd = some id := by
      simp [consumedChallenge, ho, hr, hid]
    have hkey : c.challengeId = id := lookup_key hc
    obtain ⟨hpending, hunexpired, huser, hsource, hdestination, hamount, hhash⟩ :=
      acceptable_iff.mp ha
    obtain ⟨c', hc', -, hconsumed⟩ := consumed_challenged hchallenge hused
    obtain rfl := Option.some.inj (hc.symm.trans hc')
    have hafter : p.after.findChallenge =
        (challenged service.sca p.call.attempt p.call.cmd p.before).findChallenge := by
      funext id
      simp only [Db.findChallenge, hp.challenges]
    -- the digest that was stored and the digest that was presented are of one text
    have hmem : c ∈ s.db.challenges := lookup_mem (hb ▸ hc)
    obtain ⟨code, hcreated⟩ := h.created c hmem
    have hcode : code = p.call.cmd.scaCode := by
      obtain ⟨_, _, -, -, -, -, hstored⟩ := hcreated
      refine ScaService.hash_injective injective (hstored.symm.trans ?_)
      rw [← hhash, hkey, huser, hsource, hdestination, hamount]
    refine ⟨c, ?_, ?_, hpending, hunexpired, huser, hsource, hdestination, hamount, ?_, ?_, ?_⟩
    · rw [hid, hkey]
    · rw [hkey]
      exact hc
    · exact ⟨past, [], by simp, by rw [hb, ← h.reached], hcode ▸ hcreated⟩
    · rw [hafter]
      rw [← hkey] at hconsumed
      exact hconsumed
    · intro id'
      rw [hp.challenges, changed_challenged hchallenge, hused, hkey, Option.some.injEq, eq_comm]

/-- The challenges after a commit, each with its status. -/
theorem consumed_status (h : Bound settings service past log s) {p : Commit}
    (hb : p.before = s.db)
    (ht : Transferred service.sca p.call.attempt p.call.cmd p.before p.after) :
    ∀ c ∈ p.after.challenges, c.status = .consumed ↔
      c.challengeId ∈ (log ++ [p]).filterMap (Commit.challenge? service) := by
  obtain ⟨_, _, -, -, -, -, hchallenge, -, -, hp⟩ := ht
  intro c hmem
  rw [hp.challenges] at hmem
  have hids : (log ++ [p]).filterMap (Commit.challenge? service) =
      log.filterMap (Commit.challenge? service) ++
        (consumedChallenge service.sca p.call.cmd).toList := by
    simp [List.filterMap_append, List.filterMap_cons, Commit.challenge?, Option.toList]
    cases consumedChallenge service.sca p.call.cmd <;> rfl
  rw [hids]
  cases hused : consumedChallenge service.sca p.call.cmd with
  | none =>
    simp only [challenged, hused, hb] at hmem
    simpa using h.status c hmem
  | some id =>
    obtain ⟨found, hfound, hpending, -⟩ := consumed_challenged hchallenge hused
    rw [hb] at hfound
    simp only [challenged, hused, hb, ScaService.consume] at hmem
    obtain ⟨q, hq, he⟩ := mem_updateWhere.mp hmem
    have hstatus := h.status q hq
    by_cases hid : q.challengeId = id
    · have hqfound : q = found :=
        Keyed.eq_of_key h.keyed hq (lookup_mem hfound) (hid.trans (lookup_key hfound).symm)
      rw [if_pos (by simp [hqfound, hpending, lookup_key hfound])] at he
      rw [← he]
      simp [hid]
    · rw [if_neg (by simp [hid])] at he
      rw [← he, hstatus]
      simp [hid]

theorem commit (h : Bound settings service past log s)
    (injective : Function.Injective service.sca.hmac) {e : CallEvent} {p : Commit}
    (hc : s.commit? service e = some p) (hb : p.before = s.db)
    (hdb : (callStep settings service s e).db = p.after)
    (ht : Transferred service.sca p.call.attempt p.call.cmd p.before p.after) :
    Bound settings service (past ++ [e]) (log ++ (s.commit? service e).toList)
      (callStep settings service s e) := by
  have hcommitted : Committed service (log ++ (s.commit? service e).toList)
      (callStep settings service s e) := h.committed.step e
  have hstatus := h.consumed_status hb ht
  have hconsumes := h.consumes injective hb ht
  obtain ⟨_, _, -, -, -, -, hchallenge, -, -, hp⟩ := ht
  have hids : p.after.challenges.map ScaChallenge.challengeId =
      s.db.challenges.map ScaChallenge.challengeId := by
    rw [hp.challenges, ChallengesKeyed.challenged_ids, hb]
  rw [hc, Option.toList_some] at hcommitted ⊢
  refine ⟨hcommitted, ?_, ?_, ?_, ?_, ?_, ?_, ?_⟩
  · rw [Runs.run_snoc, ← h.reached]
  · rw [ChallengesKeyed, hdb, Keyed, hids]
    exact h.keyed
  · -- what a commit changes of a challenge is no part of its creation
    intro c hmem
    rw [hdb, hp.challenges, hb] at hmem
    unfold challenged at hmem
    split at hmem
    · obtain ⟨code, hcreated⟩ := h.created c hmem
      exact ⟨code, hcreated.extend [e]⟩
    · obtain ⟨q, hq, he⟩ := mem_updateWhere.mp hmem
      obtain ⟨code, hcreated⟩ := h.created q hq
      refine ⟨code, ?_⟩
      rw [← he]
      split
      · exact hcreated.extend [e]
      · exact hcreated.extend [e]
  · intro id hid
    rw [hdb, hids]
    rw [List.filterMap_append] at hid
    cases List.mem_append.mp hid with
    | inl hold => exact h.issued id hold
    | inr hnew =>
      obtain ⟨q, hq, hused⟩ := List.mem_filterMap.mp hnew
      rw [List.mem_singleton.mp hq] at hused
      obtain ⟨c, hfound, -, -⟩ := consumed_challenged hchallenge hused
      exact hb ▸ key_mem_of_lookup hfound
  · rw [List.filterMap_append, List.nodup_append]
    refine ⟨h.once, ?_, ?_⟩
    · simp only [List.filterMap_cons, List.filterMap_nil]
      split <;> simp
    · intro id hold id' hnew he
      obtain ⟨q, hq, hused⟩ := List.mem_filterMap.mp hnew
      rw [List.mem_singleton.mp hq, ← he] at hused
      obtain ⟨c, hfound, hpending, -⟩ := consumed_challenged hchallenge hused
      rw [hb] at hfound
      have hmem : c ∈ s.db.challenges := lookup_mem hfound
      have hconsumed := (h.status c hmem).mpr (by rw [lookup_key hfound]; exact hold)
      rw [hpending] at hconsumed
      cases hconsumed
  · rw [hdb]
    exact hstatus
  · intro q hq hguarded
    cases List.mem_append.mp hq with
    | inl hold =>
      obtain ⟨c, hconsumed⟩ := h.authenticated q hold hguarded
      exact ⟨c, hconsumed.extend [e]⟩
    | inr hnew =>
      rw [List.mem_singleton.mp hnew] at hguarded ⊢
      obtain ⟨c, hconsumed⟩ := hconsumes hguarded
      exact ⟨c, hconsumed.extend [e]⟩

theorem step (injective : Function.Injective service.sca.hmac) (e : CallEvent)
    (h : Bound settings service past log s) :
    Bound settings service (past ++ [e]) (log ++ (s.commit? service e).toList)
      (callStep settings service s e) := by
  rcases Calls.commit?_cases settings h.committed.sound e with
    ⟨p, hc, hb, -, hdb, ht⟩ | ⟨hc, o, db, he, ha, hp, hdb⟩ | ⟨hc, hdb⟩
  · exact h.commit injective hc hb hdb ht
  · cases o with
    | createScaChallenge draw principal code source destination amountMinor =>
      cases createScaChallenge_ok hp with
      | inl hsame => exact h.quiet hc (by rw [hdb, hsame])
      | inr hnew =>
        obtain ⟨amountPos, hfresh, hrows⟩ := hnew
        exact h.create amountPos he hfresh (by rw [hdb, hrows])
    | _ => exact h.quiet hc (by rw [hdb, Operation.keeps_challenges rfl s.db db hp])
  · exact h.quiet hc (by rw [hdb])
end Bound

theorem bound_run (settings : Settings) (service : LedgerService)
    (injective : Function.Injective service.sca.hmac) (es : List CallEvent) :
    Bound settings service es (commits settings service es)
      (Runs.run (callStep settings service) Calls.initial es) :=
  Runs.collect_invariant (H := fun past log s => Bound settings service past log s)
    (fun _ _ _ e h => h.step injective e) Bound.initial es

/-- Under a collision-free digest, the transfers that a run commits are the rows of the history,
each of them at the threshold without an override consumed one challenge created for it, each
changed no other challenge than its own, no two of them consumed one challenge, and a challenge
is consumed exactly when one of them did. -/
theorem sca_binding (settings : Settings) (service : LedgerService)
    (injective : Function.Injective service.sca.hmac) (es : List CallEvent) :
    let db := (Runs.run (callStep settings service) Calls.initial es).db
    let log := commits settings service es
    (db.transactions.map Transaction.transactionId =
      log.map fun p => p.call.attempt.transactionId) ∧
    (∀ p ∈ log, p.Guarded service → ∃ c, p.Consumed settings service es c) ∧
    (∀ p ∈ log, ∀ id, Changed ScaChallenge.challengeId p.before.challenges p.after.challenges id ↔
      p.challenge? service = some id) ∧
    (log.filterMap (Commit.challenge? service)).Nodup ∧
    ∀ c ∈ db.challenges, c.status = .consumed ↔
      c.challengeId ∈ log.filterMap (Commit.challenge? service) := by
  intro db log
  have h : Bound settings service es log (Runs.run (callStep settings service) Calls.initial es) :=
    bound_run settings service injective es
  refine ⟨h.committed.rows, h.authenticated, ?_, h.once, h.status⟩
  intro p hp id
  obtain ⟨_, _, -, -, -, -, hchallenge, -, -, hposted⟩ := h.committed.transferred p hp
  rw [hposted.challenges]
  exact changed_challenged hchallenge

def samplePaymentCommand : TransferCommand where
  requestId := some 8
  idempotencyKey := "sample-payment"
  actor := sampleCustomer
  sourceAccountId := aliceAccountId
  destinationAccountId := bobAccountId
  amountMinor := 15000
  currency := "GBP"
  scaChallengeId := some (sampleDraw 1).rowId
  scaCode := "123456"

/-- A deposit, a challenge for a payment, and the payment tried twice at once. -/
def samplePayment : List CallEvent :=
  [.operation (.seedRows 0), .begin (sampleAttempt 1 3 3) (sampleDeposit "sample-key" 20000)] ++
  List.replicate 11 (.advance 0) ++
  [.operation (.createScaChallenge (sampleDraw 1) sampleCustomer "123456" aliceAccountId
    bobAccountId 15000), .begin (sampleAttempt 2 10 10) samplePaymentCommand,
    .begin (sampleAttempt 3 10 10) { samplePaymentCommand with idempotencyKey := "another" }] ++
  List.replicate 4 (.advance 1) ++ List.replicate 2 (.advance 2) ++ List.replicate 7 (.advance 1) ++
  List.replicate 11 (.advance 2)

theorem sca_binding_payment :
    let log := commits sampleSettings sampleService samplePayment
    log.map (fun p => (p.call.cmd.amountMinor, p.challenge? sampleService)) =
      [(20000, none), (15000, some (sampleDraw 1).rowId)] ∧
    ∀ p ∈ log, p.Guarded sampleService →
      ∃ c, p.Consumed sampleSettings sampleService samplePayment c :=
  ⟨by decide +kernel,
    (sca_binding sampleSettings sampleService Function.injective_id samplePayment).2.1⟩
end Bantam
