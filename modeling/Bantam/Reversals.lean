import Bantam.DoubleEntry
import Bantam.Requests

/-! The lifecycle of a reversal: a transaction is reversed exactly when one reversal names it,
and a reversal is final. -/
namespace Bantam
open Tables
variable {db db' : Db} {attempt : Attempt} {cmd : NormalisedCommand} {sca : ScaService}

/-- The transaction moves the amount of `t` back. -/
def Transaction.Mirrors (r t : Transaction) : Prop :=
  r.sourceAccountId = t.destinationAccountId ∧ r.destinationAccountId = t.sourceAccountId ∧
    r.amountMinor = t.amountMinor ∧ r.currency = t.currency

structure Reversals (db : Db) : Prop where
  typed : ∀ t ∈ db.transactions,
    t.reversesTransactionId.isSome ↔ t.transactionType = .reversal
  settled : ∀ t ∈ db.transactions, t.status = .posted ∨ t.status = .reversed
  mirrored : ∀ r ∈ db.transactions, ∀ id, r.reversesTransactionId = some id →
    r.status = .posted ∧ ∃ t ∈ db.transactions, t.transactionId = id ∧ t.status = .reversed ∧
      t.transactionType ≠ .reversal ∧ r.Mirrors t
  reversed : ∀ t ∈ db.transactions, t.status = .reversed →
    ∃ r ∈ db.transactions, r.reversesTransactionId = some t.transactionId
  single : ∀ r ∈ db.transactions, ∀ q ∈ db.transactions, r.reversesTransactionId.isSome →
    r.reversesTransactionId = q.reversesTransactionId → r.transactionId = q.transactionId

namespace Reversals

theorem migrated : Reversals Db.migrated := by
  refine ⟨?_, ?_, ?_, ?_, ?_⟩ <;> simp [Db.migrated]

theorem congr (h : Reversals db) (ht : db'.transactions = db.transactions) : Reversals db' := by
  refine ⟨?_, ?_, ?_, ?_, ?_⟩ <;> rw [ht]
  · exact h.typed
  · exact h.settled
  · exact h.mirrored
  · exact h.reversed
  · exact h.single

/-- A payment that reverses nothing adds a row that is no reversal. -/
theorem plain (h : Reversals db) {row : Transaction}
    (hrows : db'.transactions = db.transactions ++ [row])
    (hreverses : row.reversesTransactionId = none) (htype : row.transactionType ≠ .reversal)
    (hposted : row.status = .posted) : Reversals db' := by
  have mem : ∀ t, t ∈ db'.transactions ↔ t ∈ db.transactions ∨ t = row := by
    intro t
    rw [hrows]
    simp
  refine ⟨?_, ?_, ?_, ?_, ?_⟩
  · intro t ht
    cases (mem t).mp ht with
    | inl ht => exact h.typed t ht
    | inr he => simp [he, hreverses, htype]
  · intro t ht
    cases (mem t).mp ht with
    | inl ht => exact h.settled t ht
    | inr he => exact .inl (he ▸ hposted)
  · intro r hr id hid
    cases (mem r).mp hr with
    | inl hr =>
      obtain ⟨hp, t, ht, hrest⟩ := h.mirrored r hr id hid
      exact ⟨hp, t, (mem t).mpr (.inl ht), hrest⟩
    | inr he =>
      rw [he, hreverses] at hid
      cases hid
  · intro t ht hs
    cases (mem t).mp ht with
    | inl ht =>
      obtain ⟨r, hr, hid⟩ := h.reversed t ht hs
      exact ⟨r, (mem r).mpr (.inl hr), hid⟩
    | inr he =>
      rw [he, hposted] at hs
      cases hs
  · intro r hr q hq hsome heq
    cases (mem r).mp hr with
    | inr he =>
      rw [he, hreverses] at hsome
      cases hsome
    | inl hr =>
      cases (mem q).mp hq with
      | inl hq => exact h.single r hr q hq hsome heq
      | inr he =>
        rw [heq, he, hreverses] at hsome
        cases hsome

/-- A reversal adds its row and reverses the one original that it has validated. -/
theorem reversal (h : Reversals db) (hk : Keyed Transaction.transactionId db.transactions)
    {row original : Transaction}
    (hrows : db'.transactions = (db.transactions.map fun t =>
      if row.reversesTransactionId = some t.transactionId then t.reverse else t) ++ [row])
    (horiginal : original ∈ db.transactions)
    (hreverses : row.reversesTransactionId = some original.transactionId)
    (htype : row.transactionType = .reversal) (hposted : row.status = .posted)
    (hopen : original.status = .posted) (hkind : original.transactionType ≠ .reversal)
    (hmirrors : row.Mirrors original)
    (hunique : ∀ t ∈ db.transactions, t.reversesTransactionId ≠ row.reversesTransactionId) :
    Reversals db' := by
  -- every row is an older row that is not the original, the reversed original or the new row
  have mem : ∀ t, t ∈ db'.transactions ↔
      (t ∈ db.transactions ∧ t.transactionId ≠ original.transactionId) ∨
        t = original.reverse ∨ t = row := by
    intro t
    rw [hrows, List.mem_append, List.mem_singleton, List.mem_map, ← or_assoc]
    refine or_congr ?_ Iff.rfl
    constructor
    · intro hex
      obtain ⟨q, hq, he⟩ := hex
      by_cases hid : q.transactionId = original.transactionId
      · obtain rfl := hk.eq_of_key hq horiginal hid
        rw [if_pos hreverses] at he
        exact .inr he.symm
      · have hne : row.reversesTransactionId ≠ some q.transactionId := by
          rw [hreverses]
          exact fun heq => hid (Option.some.inj heq).symm
        rw [if_neg hne] at he
        exact .inl ⟨he ▸ hq, he ▸ hid⟩
    · intro hor
      cases hor with
      | inl hold =>
        refine ⟨t, hold.1, if_neg ?_⟩
        rw [hreverses]
        exact fun heq => hold.2 (Option.some.inj heq).symm
      | inr he => exact ⟨original, horiginal, by rw [if_pos hreverses, he]⟩
  have hplain : original.reversesTransactionId = none := by
    have hn := mt (h.typed original horiginal).mp hkind
    simpa using hn
  refine ⟨?_, ?_, ?_, ?_, ?_⟩
  · intro t ht
    rcases (mem t).mp ht with hold | he | he
    · exact h.typed t hold.1
    · rw [he]
      exact h.typed original horiginal
    · simp [he, hreverses, htype]
  · intro t ht
    rcases (mem t).mp ht with hold | he | he
    · exact h.settled t hold.1
    · exact .inr (by rw [he]; rfl)
    · exact .inl (he ▸ hposted)
  · intro r hr id hid
    rcases (mem r).mp hr with hold | he | he
    · obtain ⟨hp, t, ht, htid, hreversed, hrest⟩ := h.mirrored r hold.1 id hid
      refine ⟨hp, t, (mem t).mpr (.inl ⟨ht, fun he => ?_⟩), htid, hreversed, hrest⟩
      -- the original was posted until now, and `t` is reversed
      obtain rfl := hk.eq_of_key ht horiginal he
      rw [hopen] at hreversed
      cases hreversed
    · rw [he, Transaction.reverse, hplain] at hid
      cases hid
    · rw [he, hreverses] at hid
      refine ⟨he ▸ hposted, original.reverse, (mem _).mpr (.inr (.inl rfl)), ?_, rfl, hkind, ?_⟩
      · exact Option.some.inj hid
      · rw [he]
        exact hmirrors
  · intro t ht hs
    rcases (mem t).mp ht with hold | he | he
    · obtain ⟨r, hr, hid⟩ := h.reversed t hold.1 hs
      refine ⟨r, (mem r).mpr (.inl ⟨hr, fun he => ?_⟩), hid⟩
      obtain rfl := hk.eq_of_key hr horiginal he
      rw [hplain] at hid
      cases hid
    · exact ⟨row, (mem row).mpr (.inr (.inr rfl)), by rw [he, hreverses]; rfl⟩
    · rw [he, hposted] at hs
      cases hs
  · intro r hr q hq hsome heq
    rcases (mem r).mp hr with hold | he | he
    · rcases (mem q).mp hq with hold' | he' | he'
      · exact h.single r hold.1 q hold'.1 hsome heq
      · rw [heq, he', Transaction.reverse, hplain] at hsome
        cases hsome
      · exact absurd (heq.trans (by rw [he'])) (hunique r hold.1)
    · rw [he, Transaction.reverse, hplain] at hsome
      cases hsome
    · rcases (mem q).mp hq with hold' | he' | he'
      · exact absurd (by rw [← heq, he]) (hunique q hold'.1)
      · rw [heq, he', Transaction.reverse, hplain] at hsome
        cases hsome
      · rw [he, he']

theorem transferred (ht : Transferred sca attempt cmd db db') (h : Reversals db)
    (hk : Keyed Transaction.transactionId db.transactions)
    (htyped : cmd.reversesTransactionId.isSome ↔ cmd.transactionType = .reversal) :
    Reversals db' := by
  obtain ⟨source, destination, -, -, -, -, -, -, hv, hp⟩ := ht
  have hrows := hp.transactions_eq fun id ho => by
    obtain ⟨t, hf, -⟩ := validateReversal_ok hv ho
    exact ⟨t, hf⟩
  rw [challenged_transactions] at hrows
  cases ho : cmd.reversesTransactionId with
  | none =>
    have hadded : db'.transactions = db.transactions ++ [newTransaction attempt cmd] := by
      simpa [ho] using hrows
    refine h.plain hadded ho ?_ rfl
    · intro htype
      have hsome := htyped.mpr htype
      rw [ho] at hsome
      cases hsome
  | some id =>
    obtain ⟨original, hf, hr⟩ := validateReversal_ok hv ho
    rw [Db.findTransaction, challenged_transactions] at hf
    have hid : original.transactionId = id := lookup_key hf
    simp only [reversible, Bool.and_eq_true, decide_eq_true_eq] at hr
    obtain ⟨⟨⟨⟨⟨hopen, hkind⟩, hs⟩, hd⟩, ha⟩, hc⟩ := hr
    have hfresh := hp.freshReversal
    rw [challenged_transactions] at hfresh
    have hmirrors : (newTransaction attempt cmd).Mirrors original := ⟨hs, hd, ha, hc⟩
    refine h.reversal hk hrows (lookup_mem hf) ?_ ?_ rfl hopen hkind hmirrors ?_
    · rw [hid]
      exact ho
    · exact htyped.mp (by rw [ho]; rfl)
    · exact fun t ht => hfresh t ht (by rw [ho]; rfl)
end Reversals

/-- A call with a typed command has a typed row. -/
theorem Call.typed {c : Call} (h : c.command.Typed) :
    c.cmd.reversesTransactionId.isSome ↔ c.cmd.transactionType = .reversal := by
  obtain ⟨-, -, -, -, -, -, -, -, htype, hreverses⟩ := normalise_ok c.normalised
  rw [hreverses, htype]
  refine h.trans ?_
  cases c.command.transactionType with
  | none => simp
  | some type => simp

theorem Reversals.step {settings : Settings} {service : LedgerService} (s : Serving)
    (e : RequestEvent) (hs : s.Sound service) (hr : Recorded s.calls.db)
    (h : Reversals s.calls.db) : Reversals (requestStep settings service s e).calls.db := by
  cases Serving.requestStep_calls settings service s e with
  | inl hsame => rwa [hsame]
  | inr hstep =>
    obtain ⟨e', he⟩ := hstep
    rw [he]
    refine hs.calls.keep (fun w h => h.congr w.transactions) (fun c hc db ht => ?_) e' h
    exact h.transferred ht hr.idsKeyed (Call.typed (hs.typed c hc))

theorem reversals_run (settings : Settings) (service : LedgerService) (es : List RequestEvent) :
    Reversals (Runs.run (requestStep settings service) Serving.initial es).calls.db := by
  have keep : ∀ s e, (s.Sound service ∧ Recorded s.calls.db) ∧ Reversals s.calls.db →
      ((requestStep settings service s e).Sound service ∧
        Recorded (requestStep settings service s e).calls.db) ∧
      Reversals (requestStep settings service s e).calls.db := by
    intro s e h
    refine ⟨⟨h.1.1.step s e, ?_⟩, Reversals.step s e h.1.1 h.1.2 h.2⟩
    cases Serving.requestStep_calls settings service s e with
    | inl hsame =>
      rw [hsame]
      exact h.1.2
    | inr hstep =>
      obtain ⟨e', he⟩ := hstep
      rw [he]
      exact h.1.1.calls.keep (fun w h => h.congr w.transactions)
        (fun c _ db ht => h.1.2.transferred ht) e' h.1.2
  exact (Runs.run_invariant keep
    ⟨⟨Serving.Sound.initial, Recorded.migrated⟩, Reversals.migrated⟩ es).2

/-- The entries of a transaction and of its mirror cancel on every account. -/
theorem DoubleEntry.pair_cancels (h : DoubleEntry db) {r t : Transaction}
    (ht : t ∈ db.transactions) (hr : r ∈ db.transactions) (hm : r.Mirrors t) (a : Uuid) :
    sumWhere (fun e => e.accountId = a) LedgerEntry.amountMinor
      (entriesOf db t.transactionId ++ entriesOf db r.transactionId) = 0 := by
  obtain ⟨debit, credit, hpair, hdebit, hcredit⟩ := h.paired t ht
  obtain ⟨debit', credit', hpair', hdebit', hcredit'⟩ := h.paired r hr
  obtain ⟨hs, hd, hamount, -⟩ := hm
  rw [hpair, hpair']
  simp only [List.cons_append, List.nil_append, sumWhere_cons, sumWhere_nil, decide_eq_true_eq,
    hdebit.2.1, hdebit.2.2.1, hcredit.2.1, hcredit.2.2.1, hdebit'.2.1, hdebit'.2.2.1,
    hcredit'.2.1, hcredit'.2.2.1, hs, hd, hamount]
  by_cases h1 : t.sourceAccountId = a <;> by_cases h2 : t.destinationAccountId = a <;>
    simp [h1, h2]

/-- In every state that the handlers reach, with any number of transfers and reversals at once:
a transaction is reversed exactly when one transaction reverses it, that one is a posted
reversal which mirrors it, their entries cancel, and no reversal is reversed. -/
theorem reversal_lifecycle (settings : Settings) (service : LedgerService)
    (es : List RequestEvent) :
    let db := (Runs.run (requestStep settings service) Serving.initial es).calls.db
    (∀ t ∈ db.transactions, t.status = .reversed ↔
      ∃! r, r ∈ db.transactions ∧ r.reversesTransactionId = some t.transactionId) ∧
    (∀ t ∈ db.transactions, ∀ r ∈ db.transactions,
      r.reversesTransactionId = some t.transactionId →
        r.transactionType = .reversal ∧ r.status = .posted ∧ r.Mirrors t ∧
        ∀ a, sumWhere (fun e => e.accountId = a) LedgerEntry.amountMinor
          (entriesOf db t.transactionId ++ entriesOf db r.transactionId) = 0) ∧
    (∀ t ∈ db.transactions, t.transactionType = .reversal →
      t.status = .posted ∧ ∀ r ∈ db.transactions,
        r.reversesTransactionId ≠ some t.transactionId) := by
  intro db
  have h : Reversals db := reversals_run settings service es
  have hrecorded : Recorded db :=
    Serving.run_of_serial (recorded_run settings service.sca Recorded.migrated) es
  have hentries : DoubleEntry db :=
    Serving.run_of_serial (doubleEntry_run settings service.sca) es
  -- what a row names as its original is the row under that identifier
  have named : ∀ t ∈ db.transactions, ∀ r ∈ db.transactions,
      r.reversesTransactionId = some t.transactionId →
      r.status = .posted ∧ t.status = .reversed ∧ t.transactionType ≠ .reversal ∧ r.Mirrors t := by
    intro t ht r hr hid
    obtain ⟨hp, q, hq, hqid, hrest⟩ := h.mirrored r hr _ hid
    obtain rfl := hrecorded.idsKeyed.eq_of_key hq ht hqid
    exact ⟨hp, hrest⟩
  refine ⟨fun t ht => ⟨fun hs => ?_, fun hex => ?_⟩, fun t ht r hr hid => ?_, fun t ht htype => ?_⟩
  · obtain ⟨r, hr, hid⟩ := h.reversed t ht hs
    refine ⟨r, ⟨hr, hid⟩, fun q hq => ?_⟩
    exact hrecorded.idsKeyed.eq_of_key hq.1 hr
      (h.single q hq.1 r hr (by rw [hq.2]; rfl) (hq.2.trans hid.symm))
  · obtain ⟨r, hr, -⟩ := hex
    exact (named t ht r hr.1 hr.2).2.1
  · obtain ⟨hp, -, -, hm⟩ := named t ht r hr hid
    refine ⟨(h.typed r hr).mp (by rw [hid]; rfl), hp, hm, ?_⟩
    exact hentries.pair_cancels ht hr hm
  · have hnone : ∀ r ∈ db.transactions, r.reversesTransactionId ≠ some t.transactionId :=
      fun r hr hid => (named t ht r hr hid).2.2.1 htype
    refine ⟨?_, hnone⟩
    cases h.settled t ht with
    | inl hp => exact hp
    | inr hs =>
      obtain ⟨r, hr, hid⟩ := h.reversed t ht hs
      exact absurd hid (hnone r hr)
end Bantam
