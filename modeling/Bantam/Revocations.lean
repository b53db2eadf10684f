import Bantam.SessionSteps

/-! A revoked token stays revoked: what the table of revocations names is a token that was
issued, with its expiry, and it is taken away at that expiry only. -/
namespace Bantam
open Tables

/-- The token of that id was issued, with that expiry. -/
def Known (issued : List Issued) (source : Uuid × Instant) : Prop :=
  ∃ token ∈ issued, token.tokenId = source.1 ∧ fromTimestamp token.claims.exp = source.2

/-- What ceremonies know of tokens names issued ones. -/
structure TracedCeremonies (issued : List Issued) (s : Ceremonies) : Prop where
  revocations : ∀ r ∈ s.db.revocations, Known issued (r.jti, r.expiresAt)
  sources : ∀ t ∈ s.db.transactions, ∀ source, t.source = some source → Known issued source
  calls : ∀ c ∈ s.calls, ∀ source, c.source = some source → Known issued source

/-- What the system knows of tokens names issued ones, whose ids differ. -/
structure Traced (s : Sessions) : Prop where
  ids : Keyed Issued.tokenId s.issued
  named : ∀ token ∈ s.issued, token.claims.jti = Uuid.str token.tokenId
  read : RequestsRead s
  ceremonies : TracedCeremonies s.issued s.ceremonies

section Tracing
variable {service : SessionService} {s : Sessions} {issued : List Issued} {token : Issued}
  {source : Uuid × Instant} {e : SessionEvent}

theorem Known.append (h : Known issued source) (more : List Issued) :
    Known (issued ++ more) source := by
  obtain ⟨token, ht, hid⟩ := h
  exact ⟨token, List.mem_append_left _ ht, hid⟩

/-- A token has one expiry. -/
theorem Known.expiry {jti : Uuid} {x y : Instant} (hids : Keyed Issued.tokenId issued)
    (hx : Known issued (jti, x)) (hy : Known issued (jti, y)) : x = y := by
  obtain ⟨token, ht, hid, rfl⟩ := hx
  obtain ⟨other, ho, hid', rfl⟩ := hy
  have hfound := (lookup_eq_some_iff hids).mpr ⟨ht, hid⟩
  rw [(lookup_eq_some_iff hids).mpr ⟨ho, hid'⟩] at hfound
  rw [Option.some.inj hfound]

theorem passwordToken_fresh {i : Nat} {tokenId : Uuid}
    (h : service.passwordToken s i tokenId = some token) :
    token.tokenId ∉ s.issued.map Issued.tokenId ∧ token.claims.jti = Uuid.str token.tokenId := by
  unfold SessionService.passwordToken at h
  split_ifs at h with hfree
  split at h
  · split at h
    · cases h
      simp only [Sessions.unanswered, Bool.and_eq_true, decide_eq_true_eq] at hfree
      exact ⟨hfree.2, rfl⟩
    · cases h
  · cases h

theorem factorToken_fresh {i : Nat} {draw : SessionDraw}
    (h : service.factorToken s i draw = some token) :
    token.tokenId ∉ s.issued.map Issued.tokenId ∧ token.claims.jti = Uuid.str token.tokenId := by
  unfold SessionService.factorToken at h
  split_ifs at h with hfree
  split at h
  · split at h
    · cases h
      simp only [Sessions.unanswered, Bool.and_eq_true, decide_eq_true_eq] at hfree
      exact ⟨hfree.2, rfl⟩
    · cases h
  · cases h

theorem issues_fresh (h : service.issues s e = some token) :
    token.tokenId ∉ s.issued.map Issued.tokenId ∧ token.claims.jti = Uuid.str token.tokenId := by
  cases e with
  | issue i tokenId => exact passwordToken_fresh h
  | finish i draw => exact factorToken_fresh h
  | ceremony | register | decide | request | proceed | logout | enroll | remove => cases h

/-- What is read of an issued token is its id and its expiry. -/
theorem claims_known (h : Traced s) {raw : String} {parsed : ParsedAccessToken}
    (hread : ∃ token ∈ s.issued, token.text = raw ∧
      AuthService.ClaimsRead token.claims parsed) :
    Known s.issued (parsed.jti, parsed.expiresAt) := by
  obtain ⟨token, ht, -, hread⟩ := hread
  have hjti := hread.jti
  rw [h.named token ht, Uuid.parse_str] at hjti
  exact ⟨token, ht, Option.some.inj hjti, hread.expiresAt.symm⟩

theorem Traced.known (h : Traced s) {r : AuthRequest} {parsed : ParsedAccessToken}
    (hr : r ∈ s.requests) (hparsed : r.stage.parsed = some parsed) :
    Known s.issued (parsed.jti, parsed.expiresAt) :=
  claims_known h (h.read r hr parsed hparsed)

theorem mem_insertRevocation {db : MfaDb} {row r : SessionRevocation}
    (h : r ∈ (db.insertRevocation row).revocations) : r ∈ db.revocations ∨ r = row := by
  unfold MfaDb.insertRevocation at h
  split_ifs at h
  · exact .inl h
  · cases List.mem_append.mp h with
    | inl h => exact .inl h
    | inr h => exact .inr (List.mem_singleton.mp h)

theorem TracedCeremonies.begun {c : Ceremonies} (h : TracedCeremonies issued c) {call : MfaCall}
    (hcall : ∀ source, call.source = some source → Known issued source) :
    TracedCeremonies issued (c.call call) := by
  refine ⟨h.revocations, h.sources, fun d hd => ?_⟩
  cases List.mem_append.mp hd with
  | inl hd => exact h.calls d hd
  | inr hd => exact List.mem_singleton.mp hd ▸ hcall

theorem TracedCeremonies.advance {c : Ceremonies} (h : TracedCeremonies issued c) {i : Nat}
    {call : MfaCall} (settings : MfaSettings) (service : MfaService)
    (hi : c.calls[i]? = some call) :
    TracedCeremonies issued
      { c with
        db := (call.advance settings service c.clock (c.blocked i) c.db).2
        calls := c.calls.set i (call.advance settings service c.clock (c.blocked i) c.db).1 } := by
  have hcall : call ∈ c.calls := List.mem_of_getElem? hi
  refine ⟨fun r hr => ?_, fun t ht source hsource => ?_, fun d hd source hsource => ?_⟩
  · cases (advance_settled settings service c.clock (c.blocked i) c.db call).revocations with
    | inl heq =>
      rw [heq] at hr
      exact h.revocations r hr
    | inr hnew =>
      obtain ⟨t, ht, source, hsource, heq⟩ := hnew
      rw [heq] at hr
      cases mem_insertRevocation hr with
      | inl hr => exact h.revocations r hr
      | inr hr =>
        rw [hr]
        exact h.sources t ht source hsource
  · cases advance_sources settings service c.clock (c.blocked i) c.db call t ht with
    | inl hold =>
      obtain ⟨u, hu, heq⟩ := hold
      exact h.sources u hu source (heq.trans hsource)
    | inr hown => exact h.calls call hcall source (hown.trans hsource)
  · cases Locks.mem_set hd with
    | inl heq =>
      rw [heq] at hsource
      exact h.calls call hcall source (advance_source hsource)
    | inr hother =>
      obtain ⟨j, -, hj⟩ := hother
      exact h.calls d (List.mem_of_getElem? hj) source hsource

theorem TracedCeremonies.step {c : Ceremonies} (h : TracedCeremonies issued c)
    (settings : MfaSettings) (service : MfaService) (e : CeremonyEvent)
    (hbegin : ∀ userId role transactionId source now,
      e = .beginEnrollment userId role transactionId source now → Known issued source) :
    TracedCeremonies issued (ceremonyStep settings service c e) := by
  cases e with
  | tick elapsed => exact ⟨h.revocations, h.sources, h.calls⟩
  | login userId transactionId challenge now =>
    simp only [ceremonyStep]
    split
    · exact h.begun fun source hsource => by cases hsource
    · exact h
  | beginEnrollment userId role transactionId source now =>
    simp only [ceremonyStep]
    split_ifs
    · refine h.begun fun source' hsource => ?_
      cases hsource
      exact hbegin _ _ _ _ _ rfl
    · exact h
  | prepare | complete | remove => exact h.begun fun source hsource => by cases hsource
  | advance i =>
    simp only [ceremonyStep]
    split
    · rename_i call hi
      exact h.advance settings service hi
    · exact h
  | crash i =>
    refine ⟨h.revocations, h.sources, fun d hd source hsource => ?_⟩
    cases Locks.mem_set hd with
    | inl heq =>
      rw [heq] at hsource
      cases hsource
    | inr hother =>
      obtain ⟨j, -, hj⟩ := hother
      exact h.calls d (List.mem_of_getElem? hj) source hsource

theorem TracedCeremonies.more {c : Ceremonies} (h : TracedCeremonies issued c)
    (more : List Issued) : TracedCeremonies (issued ++ more) c :=
  ⟨fun r hr => (h.revocations r hr).append more,
    fun t ht source hsource => (h.sources t ht source hsource).append more,
    fun d hd source hsource => (h.calls d hd source hsource).append more⟩

theorem TracedCeremonies.withDb {c : Ceremonies} (h : TracedCeremonies issued c) {db : MfaDb}
    (hrows : ∀ r ∈ db.revocations, Known issued (r.jti, r.expiresAt))
    (htransactions : db.transactions = c.db.transactions) :
    TracedCeremonies issued { c with db := db } := by
  refine ⟨hrows, fun t ht => ?_, h.calls⟩
  have hmem : t ∈ c.db.transactions := htransactions ▸ ht
  exact h.sources t hmem

theorem insertRevocation_transactions (row : SessionRevocation) (db : MfaDb) :
    (db.insertRevocation row).transactions = db.transactions := by
  unfold MfaDb.insertRevocation
  split_ifs <;> rfl

/-- A step of a request writes its own revocation at most. -/
theorem Traced.proceed (h : Traced s) (service : SessionService) {k : Nat} {r : AuthRequest}
    (hr : s.requests[k]? = some r) :
    TracedCeremonies s.issued (service.proceed s k r).ceremonies := by
  unfold SessionService.proceed
  cases hs : r.stage with
  | decode | user =>
    simp only
    split <;> exact h.ceremonies
  | lookup parsed =>
    simp only
    split_ifs <;> exact h.ceremonies
  | admitted | ended => exact h.ceremonies
  | prune parsed =>
    exact h.ceremonies.withDb
      (fun q hq => h.ceremonies.revocations q (List.mem_filter.mp hq).1) rfl
  | revoke parsed =>
    refine h.ceremonies.withDb (fun q hq => ?_) (insertRevocation_transactions _ _)
    cases mem_insertRevocation hq with
    | inl hq => exact h.ceremonies.revocations q hq
    | inr hq =>
      rw [hq]
      exact h.known (List.mem_of_getElem? hr) (by rw [hs]; rfl)

theorem Traced.step (s : Sessions) (e : SessionEvent) (h : Traced s)
    (hgenuine : Genuine service s e) : Traced (service.step s e) := by
  have hread := h.read.step s e hgenuine
  have hmove := step_move service s e
  generalize service.step s e = s' at hmove hread
  cases hmove with
  | idle => exact h
  | ceremony e hopen =>
    refine ⟨h.ids, h.named, hread,
      h.ceremonies.step service.settings.mfa service.mfa e fun userId role id source now he => ?_⟩
    subst he
    cases hopen
  | enroll k r parsed transactionId now hr hstage =>
    refine ⟨h.ids, h.named, hread, h.ceremonies.step service.settings.mfa service.mfa
      (.beginEnrollment _ _ _ _ _) fun userId role id source now' he => ?_⟩
    cases he
    exact h.known (List.mem_of_getElem? hr) (by rw [hstage]; rfl)
  | remove k r parsed target hr =>
    exact ⟨h.ids, h.named, hread, h.ceremonies.step service.settings.mfa service.mfa
      (.remove _ _ _) fun userId role id source now he => (by cases he)⟩
  | bank e bank answered hroles =>
    have hbank : TracedCeremonies s.issued (s.withDb (s.db.withBank bank)).ceremonies :=
      h.ceremonies.withDb h.ceremonies.revocations rfl
    cases ht : service.issues s e with
    | none =>
      rw [ht] at hread
      rw [Option.toList_none, List.append_nil] at hread ⊢
      exact ⟨h.ids, h.named, hread, hbank⟩
    | some token =>
      rw [ht] at hread
      obtain ⟨hfresh, hnamed⟩ := issues_fresh ht
      refine ⟨keyed_append_one.mpr ⟨h.ids, hfresh⟩, fun u hu => ?_, hread, hbank.more _⟩
      cases List.mem_append.mp hu with
      | inl hu => exact h.named u hu
      | inr hu => exact List.mem_singleton.mp hu ▸ hnamed
  | request | logout => exact ⟨h.ids, h.named, hread, h.ceremonies⟩
  | proceed k r hr =>
    have hissued : (service.proceed s k r).issued = s.issued := proceed_issued service s k r
    refine ⟨?_, ?_, hread, ?_⟩
    · rw [hissued]
      exact h.ids
    · rw [hissued]
      exact h.named
    · rw [hissued]
      exact h.proceed service hr

/-! What stays. -/

theorem insertRevocation_mono {db : MfaDb} {row r : SessionRevocation} (h : r ∈ db.revocations) :
    r ∈ (db.insertRevocation row).revocations := by
  unfold MfaDb.insertRevocation
  split_ifs
  · exact h
  · exact List.mem_append_left _ h

theorem ceremony_revocations (settings : MfaSettings) (service : MfaService) (c : Ceremonies)
    (e : CeremonyEvent) {r : SessionRevocation} (hr : r ∈ c.db.revocations) :
    r ∈ (ceremonyStep settings service c e).db.revocations := by
  cases e with
  | advance i =>
    simp only [ceremonyStep]
    split
    · rename_i call hi
      cases (advance_settled settings service c.clock (c.blocked i) c.db call).revocations with
      | inl heq => exact heq ▸ hr
      | inr hnew =>
        obtain ⟨t, -, source, -, heq⟩ := hnew
        exact heq ▸ insertRevocation_mono hr
    · exact hr
  | login userId transactionId challenge now =>
    simp only [ceremonyStep]
    split <;> exact hr
  | beginEnrollment userId role transactionId source now =>
    simp only [ceremonyStep]
    split_ifs <;> exact hr
  | tick | prepare | complete | remove | crash => exact hr

theorem ceremony_clock (settings : MfaSettings) (service : MfaService) (c : Ceremonies)
    (e : CeremonyEvent) : c.clock ≤ (ceremonyStep settings service c e).clock := by
  cases e with
  | tick elapsed => exact Int.le_add_of_nonneg_right (Int.natCast_nonneg elapsed)
  | advance i | login userId transactionId challenge now =>
    simp only [ceremonyStep]
    split <;> exact Int.le_refl _
  | beginEnrollment userId role transactionId source now =>
    simp only [ceremonyStep]
    split_ifs <;> exact Int.le_refl _
  | prepare | complete | remove | crash => exact Int.le_refl _

theorem proceed_keeps (service : SessionService) (s : Sessions) (k : Nat) (q : AuthRequest)
    {r : SessionRevocation} (hr : r ∈ s.db.revocations) :
    r ∈ (service.proceed s k q).db.revocations ∨ r.expiresAt ≤ s.clock := by
  unfold SessionService.proceed
  cases q.stage with
  | decode =>
    simp only
    split <;> exact .inl hr
  | lookup parsed =>
    simp only
    split_ifs <;> exact .inl hr
  | user parsed =>
    simp only
    split <;> exact .inl hr
  | admitted | ended => exact .inl hr
  | prune parsed =>
    by_cases h : s.clock < r.expiresAt
    · exact .inl (List.mem_filter.mpr ⟨hr, decide_eq_true h⟩)
    · exact .inr (Int.not_lt.mp h)
  | revoke parsed => exact .inl (insertRevocation_mono hr)

theorem proceed_clock (service : SessionService) (s : Sessions) (k : Nat) (r : AuthRequest) :
    (service.proceed s k r).clock = s.clock := by
  unfold SessionService.proceed
  cases r.stage with
  | decode | user =>
    simp only
    split <;> rfl
  | lookup parsed =>
    simp only
    split_ifs <;> rfl
  | admitted | ended | prune | revoke => rfl

/-- A revocation is taken away at its expiry only. -/
theorem step_keeps (service : SessionService) (s : Sessions) (e : SessionEvent)
    {r : SessionRevocation} (hr : r ∈ s.db.revocations) :
    r ∈ (service.step s e).db.revocations ∨ r.expiresAt ≤ s.clock := by
  have hmove := step_move service s e
  generalize service.step s e = s' at hmove
  cases hmove with
  | idle | bank | request | logout => exact .inl hr
  | ceremony | enroll | remove => exact .inl (ceremony_revocations _ _ _ _ hr)
  | proceed k q => exact proceed_keeps service s k q hr

theorem step_clock (service : SessionService) (s : Sessions) (e : SessionEvent) :
    s.clock ≤ (service.step s e).clock := by
  have hmove := step_move service s e
  generalize service.step s e = s' at hmove
  cases hmove with
  | idle | bank | request | logout => exact Int.le_refl _
  | ceremony | enroll | remove => exact ceremony_clock _ _ _ _
  | proceed k q => exact Int.le_of_eq (proceed_clock service s k q).symm

/-- The revocation is there, or its token has expired. -/
def Barred (r : SessionRevocation) (s : Sessions) : Prop :=
  r ∈ s.db.revocations ∨ r.expiresAt ≤ s.clock

theorem Barred.step {r : SessionRevocation} (s : Sessions) (e : SessionEvent) (h : Barred r s) :
    Barred r (service.step s e) := by
  have hclock := step_clock service s e
  cases h with
  | inl hr =>
    cases step_keeps service s e hr with
    | inl hr => exact .inl hr
    | inr hpast => exact .inr (Int.le_trans hpast hclock)
  | inr hpast => exact .inr (Int.le_trans hpast hclock)
end Tracing

/-! Permanence. -/

/-- Some state of the run has the token among its revocations. -/
def Revoked (service : SessionService) (s : Sessions) (es : List SessionEvent) (jti : Uuid) : Prop :=
  ∃ before, before <+: es ∧ jti ∈ (service.run s before).db.revocations.map SessionRevocation.jti

/-- No step of the run accepts a token that has once been revoked. -/
def RevokedForGood (service : SessionService) (s : Sessions) (es : List SessionEvent) : Prop :=
  ∀ earlier e later parsed, es = earlier ++ e :: later →
    (service.run s earlier).accepted e = some parsed →
    ¬Revoked service s earlier parsed.jti

/-- Every look at the revocations for a token that has once been revoked comes before the
token's expiry. -/
def LookedUpInTime (service : SessionService) (s : Sessions) (es : List SessionEvent) : Prop :=
  ∀ earlier e later r parsed, es = earlier ++ e :: later →
    e.moves (service.run s earlier) = some r → r.stage = .lookup parsed →
    Revoked service s earlier parsed.jti → (service.run s earlier).clock < parsed.expiresAt

section Permanence
variable {service : SessionService} {s : Sessions} {es : List SessionEvent}

theorem accepted_eq_some {e : SessionEvent} {parsed : ParsedAccessToken} :
    s.accepted e = some parsed ↔ ∃ r, e.moves s = some r ∧ r.stage = .lookup parsed ∧
      AuthService.revoked s.db.revocations s.clock parsed.jti = false := by
  unfold Sessions.accepted
  rw [Option.bind_eq_some_iff]
  constructor
  · rintro ⟨r, hr, h⟩
    split at h
    · rename_i p hstage
      split_ifs at h with hrevoked
      cases h
      exact ⟨r, hr, hstage, Bool.eq_false_iff.mpr hrevoked⟩
    · cases h
  · rintro ⟨r, hr, hstage, hrevoked⟩
    refine ⟨r, hr, ?_⟩
    rw [hstage]
    simp only [hrevoked, Bool.false_eq_true, if_false]

theorem run_traced (hs : Traced s) (hgenuine : Runs.Along service.step (Genuine service) s es) :
    Traced (service.run s es) :=
  Runs.run_along Traced.step hs hgenuine

theorem Known.step {source : Uuid × Instant} (s : Sessions) (e : SessionEvent)
    (h : Known s.issued source) : Known (service.step s e).issued source := by
  obtain ⟨more, hmore⟩ := issued_step service s e
  rw [hmore]
  exact h.append more

/-- A token revoked in the run is still among the revocations at its end, or has expired. -/
theorem revoked_barred (hs : Traced s) (hgenuine : Runs.Along service.step (Genuine service) s es)
    {jti : Uuid} {x : Instant} (hrevoked : Revoked service s es jti)
    (hknown : Known (service.run s es).issued (jti, x)) :
    ∃ r : SessionRevocation, r.jti = jti ∧ r.expiresAt = x ∧ Barred r (service.run s es) := by
  obtain ⟨before, ⟨rest, rfl⟩, hmem⟩ := hrevoked
  obtain ⟨r, hr, rfl⟩ := List.mem_map.mp hmem
  have hbefore : Traced (service.run s before) :=
    run_traced hs ((Runs.along_append _ _ _ _ _).mp hgenuine).1
  have hend := run_traced hs hgenuine
  have hsplit : service.run s (before ++ rest) = service.run (service.run s before) rest :=
    Runs.run_append _ _ _ _
  have hthere : Known (service.run s (before ++ rest)).issued (r.jti, r.expiresAt) := by
    rw [hsplit]
    exact Runs.run_invariant (I := fun t : Sessions => Known t.issued (r.jti, r.expiresAt)) Known.step
      (hbefore.ceremonies.revocations r hr) rest
  refine ⟨r, rfl, Known.expiry hend.ids hthere hknown, ?_⟩
  rw [hsplit]
  exact Runs.run_invariant Barred.step (.inl hr) rest

theorem revoked_eq_false (h : Traced s) {parsed : ParsedAccessToken}
    (hknown : Known s.issued (parsed.jti, parsed.expiresAt)) (hpast : parsed.expiresAt ≤ s.clock) :
    AuthService.revoked s.db.revocations s.clock parsed.jti = false := by
  refine List.any_eq_false.mpr fun r hr => ?_
  simp only [Bool.and_eq_true, decide_eq_true_eq, not_and, Int.not_lt]
  intro hid
  have hrow := h.ceremonies.revocations r hr
  rw [hid] at hrow
  rw [Known.expiry h.ids hrow hknown]
  exact hpast

/-- Until its expiry a look finds a token that was revoked in the run. -/
theorem still_revoked (hs : Traced s) (hgenuine : Runs.Along service.step (Genuine service) s es)
    {jti : Uuid} {x : Instant} (hrevoked : Revoked service s es jti)
    (hknown : Known (service.run s es).issued (jti, x)) (hbefore : (service.run s es).clock < x) :
    AuthService.revoked (service.run s es).db.revocations (service.run s es).clock jti = true := by
  obtain ⟨r, hid, hexpiry, hbarred⟩ := revoked_barred hs hgenuine hrevoked hknown
  cases hbarred with
  | inl hr => exact List.any_eq_true.mpr ⟨r, hr, by simp [hid, hexpiry, hbefore]⟩
  | inr hpast => exact absurd hbefore (Int.not_lt.mpr (hexpiry ▸ hpast))

/-- A check that reads the clock once refuses a token that was revoked in the run, since the
library lets a token pass before its expiry only. -/
theorem parse_revoked (hs : Traced s) (hgenuine : Runs.Along service.step (Genuine service) s es)
    {raw : String} {parsed : ParsedAccessToken}
    (hdecode : ∀ c, service.jwt.decode (service.run s es).clock raw service.auth.secret = some c →
      (service.run s es).clock < fromTimestamp c.exp ∧
      ∃ token ∈ (service.run s es).issued, token.text = raw ∧ token.claims = c)
    (hparse : service.auth.parseWithClaims service.jwt (service.run s es).db.revocations
      (service.run s es).clock (service.run s es).clock raw = .ok parsed) :
    ¬Revoked service s es parsed.jti := by
  intro hrevoked
  rw [AuthService.parseWithClaims_eq] at hparse
  split at hparse
  · cases hparse
  · rename_i read hread
    split_ifs at hparse with hnot
    cases hparse
    have hclaims := hread
    unfold AuthService.readToken at hclaims
    split_ifs at hclaims
    obtain ⟨c, hc, hclaims⟩ := Option.bind_eq_some_iff.mp hclaims
    obtain ⟨hbefore, hissued⟩ := hdecode c hc
    have htraced := run_traced hs hgenuine
    have hread := AuthService.readClaims_read hclaims
    obtain ⟨token, ht, htext, rfl⟩ := hissued
    have hknown := claims_known htraced ⟨token, ht, htext, hread⟩
    rw [← hread.expiresAt] at hbefore
    exact hnot (still_revoked hs hgenuine hrevoked hknown hbefore)

/-- Where a token is looked up, what the system knows of it is its issue. -/
theorem lookup_known (hs : Traced s) {earlier later : List SessionEvent} {e : SessionEvent}
    (hgenuine : Runs.Along service.step (Genuine service) s (earlier ++ e :: later))
    {r : AuthRequest} {parsed : ParsedAccessToken}
    (hr : e.moves (service.run s earlier) = some r) (hstage : r.stage = .lookup parsed) :
    Traced (service.run s earlier) ∧ Runs.Along service.step (Genuine service) s earlier ∧
      Known (service.run s earlier).issued (parsed.jti, parsed.expiresAt) := by
  have halong := ((Runs.along_append _ _ _ _ _).mp hgenuine).1
  have htraced := run_traced hs halong
  have hmem : r ∈ (service.run s earlier).requests := by
    cases e with
    | proceed k => exact List.mem_of_getElem? hr
    | _ => cases hr
  exact ⟨htraced, halong, htraced.known hmem (by rw [hstage]; rfl)⟩

theorem traced_start {db : MfaDb} {clock : Instant} (htransactions : db.transactions = [])
    (hrevocations : db.revocations = []) : Traced (Sessions.start db clock) := by
  refine ⟨keyed_nil, fun t ht => (by cases ht), fun r hr => (by cases hr), ?_⟩
  refine ⟨fun r hr => ?_, fun t ht => ?_, fun c hc => (by cases hc)⟩
  · have hmem : r ∈ db.revocations := hr
    rw [hrevocations] at hmem
    cases hmem
  · have hmem : t ∈ db.transactions := ht
    rw [htransactions] at hmem
    cases hmem

end Permanence

section Early
variable {service : SessionService} {s : Sessions} {es : List SessionEvent}

theorem run_clock (service : SessionService) (s : Sessions) (es : List SessionEvent) :
    s.clock ≤ (service.run s es).clock :=
  Runs.run_invariant (I := fun t : Sessions => s.clock ≤ t.clock)
    (fun t e h => Int.le_trans h (step_clock service t e)) (Int.le_refl _) es

/-- As long as no token has expired every look comes in time. -/
theorem lookedUpInTime_of_early (hs : Traced s)
    (hgenuine : Runs.Along service.step (Genuine service) s es)
    (hearly : ∀ token ∈ (service.run s es).issued,
      (service.run s es).clock < fromTimestamp token.claims.exp) : LookedUpInTime service s es := by
  rintro earlier e later r parsed rfl hr hstage -
  obtain ⟨-, -, hknown⟩ := lookup_known hs hgenuine hr hstage
  have hsplit : service.run s (earlier ++ e :: later) =
      service.run (service.run s earlier) (e :: later) := Runs.run_append _ _ _ _
  rw [hsplit] at hearly
  have hend : Known (service.run (service.run s earlier) (e :: later)).issued
      (parsed.jti, parsed.expiresAt) :=
    Runs.run_invariant (I := fun t : Sessions => Known t.issued (parsed.jti, parsed.expiresAt))
      Known.step hknown _
  obtain ⟨token, ht, -, hexp⟩ := hend
  have hlate := run_clock service (service.run s earlier) (e :: later)
  have hbefore := Int.lt_of_le_of_lt hlate (hearly token ht)
  rw [hexp] at hbefore
  exact hbefore

/-- A request whose token decodes comes to the look at the revocations. -/
theorem step_decode {k : Nat} {token : String} {parsed : ParsedAccessToken}
    (hr : s.requests[k]? = some ⟨token, .decode⟩)
    (hread : service.auth.readToken service.jwt s.clock token = some parsed) :
    service.step s (.proceed k) = s.move k ⟨token, .decode⟩ (.lookup parsed) := by
  simp only [SessionService.step, hr, SessionService.proceed, hread]

theorem run_decode {k : Nat} {token : String} {parsed : ParsedAccessToken}
    {earlier later : List SessionEvent}
    (hr : (service.run s earlier).requests[k]? = some ⟨token, .decode⟩)
    (hread : service.auth.readToken service.jwt (service.run s earlier).clock token =
      some parsed) :
    service.run s (earlier ++ .proceed k :: later) =
      service.run ((service.run s earlier).move k ⟨token, .decode⟩ (.lookup parsed)) later := by
  have hstep := step_decode hr hread
  unfold SessionService.run at hstep ⊢
  rw [Runs.run_append, Runs.run, hstep]
end Early

/-! An analyst who signs in with a password, at 1700000000 seconds after the epoch. -/

/-- The library on some tokens of one key. -/
def Jwt.ofTokens (secret : String) (tokens : List (Claims × String)) : Jwt where
  encode := fun c key =>
    ((tokens.find? fun t => t.1 = c ∧ key = secret).map Prod.snd).getD ""
  header := fun text => if text ∈ tokens.map Prod.snd then some ("HS256", "JWT") else none
  decode := fun now text key =>
    (tokens.find? fun t => t.2 = text ∧ key = secret ∧ fromTimestamp t.1.iat ≤ now ∧
      fromTimestamp t.1.nbf ≤ now ∧ now < fromTimestamp t.1.exp).map Prod.fst

/-- What decodes at a time is one of the tokens, before its expiry. -/
theorem ofTokens_decode {secret key text : String} {tokens : List (Claims × String)}
    {now : Instant} {c : Claims}
    (h : (Jwt.ofTokens secret tokens).decode now text key = some c) :
    (c, text) ∈ tokens ∧ now < fromTimestamp c.exp := by
  obtain ⟨t, ht, rfl⟩ := Option.map_eq_some_iff.mp h
  have hfound := List.find?_some ht
  simp only [decide_eq_true_eq] at hfound
  obtain ⟨rfl, -, -, -, hexp⟩ := hfound
  exact ⟨List.mem_of_find?_eq_some ht, hexp⟩

theorem readToken_ofTokens {auth : AuthService} {text : String} {tokens : List (Claims × String)}
    {now : Instant} {c : Claims} (hlength : text.length ≤ 4096)
    (hdecode : (Jwt.ofTokens auth.secret tokens).decode now text auth.secret = some c) :
    auth.readToken (.ofTokens auth.secret tokens) now text = AuthService.readClaims c := by
  have htext : text ∈ tokens.map Prod.snd :=
    List.mem_map.mpr ⟨(c, text), (ofTokens_decode hdecode).1, rfl⟩
  have hheader : (Jwt.ofTokens auth.secret tokens).header text = some ("HS256", "JWT") :=
    if_pos htext
  unfold AuthService.readToken
  rw [if_neg (Nat.not_lt.mpr hlength), if_neg (not_not.mpr hheader), hdecode]
  rfl

def analystPrincipal : Principal := { userId := riskUserId, role := .riskAnalyst }

def analystClaims : Claims := sampleAuth.claims sampleNow 7 analystPrincipal ["pwd"] none

/-- `analystClaims` signed with the key of `sampleAuth`. -/
def analystToken : String :=
  "eyJhbGciOiJIUzI1NiIsInR5cCI6IkpXVCJ9." ++
  "eyJzdWIiOiIxMDAwMDAwMC0wMDAwLTAwMDAtMDAwM" ++
  "C0wMDAwMDAwMDAwMDIiLCJpc3MiOiJiYW50YW0tYX" ++
  "V0aCIsImF1ZCI6WyJiYW50YW0tYXBpIl0sImlhdCI" ++
  "6MTcwMDAwMDAwMCwibmJmIjoxNzAwMDAwMDAwLCJl" ++
  "eHAiOjE3MDAwMDA5MDAsImp0aSI6IjAwMDAwMDAwL" ++
  "TAwMDAtMDAwMC0wMDAwLTAwMDAwMDAwMDAwNyIsIn" ++
  "JvbGUiOiJSSVNLX0FOQUxZU1QiLCJhbXIiOlsicHd" ++
  "kIl19." ++
  "OX9YeSdsL8aclPVEyJtMCSGpVCgKIcovsDOMItb-iFA"

def sampleSessionService : SessionService where
  auth := sampleAuth
  jwt := .ofTokens sampleAuth.secret [(analystClaims, analystToken)]
  mfa := sampleMfaService
  settings := ⟨⟨minutes 5, false⟩, minutes 5⟩

def sampleSessionDb : MfaDb := { sampleMfaDb with transactions := [] }

def sampleStart : Sessions := .start sampleSessionDb sampleNow

/-- The analyst signs in and shows the token. -/
def analystLogin : List SessionEvent :=
  [.ceremony (.login riskUserId 1 [] sampleNow), .ceremony (.advance 0), .ceremony (.advance 0),
    .issue 0 7, .request analystToken]

/-- The token passes, and logs out. -/
def analystLogout : List SessionEvent :=
  [.proceed 0, .proceed 0, .proceed 0, .logout 0, .proceed 0, .proceed 0]

/-- What `parse_with_claims` reads of the token. -/
def analystParsed : ParsedAccessToken :=
  ⟨analystPrincipal, 7, sampleNow + minutes 15, ["pwd"], none⟩

theorem analystToken_length : analystToken.length ≤ 4096 := by
  unfold analystToken
  repeat rewrite [String.length_append]
  decide +kernel

theorem readToken_analyst {now : Instant} (hstart : sampleNow ≤ now)
    (hend : now < sampleNow + minutes 15) :
    sampleSessionService.auth.readToken sampleSessionService.jwt now analystToken =
      some analystParsed := by
  have hclaims : AuthService.readClaims analystClaims = some analystParsed := by decide +kernel
  have htimes : fromTimestamp analystClaims.iat = sampleNow ∧
      fromTimestamp analystClaims.nbf = sampleNow ∧
      fromTimestamp analystClaims.exp = sampleNow + minutes 15 := by decide +kernel
  have hdecode : sampleSessionService.jwt.decode now analystToken sampleAuth.secret =
      some analystClaims := by
    simp [sampleSessionService, Jwt.ofTokens, htimes, hstart, hend]
  exact (readToken_ofTokens analystToken_length hdecode).trans hclaims

/-- From the login on, what decodes is the token that it has issued. -/
theorem genuine_analyst (es : List SessionEvent) :
    Runs.Along sampleSessionService.step (Genuine sampleSessionService) sampleStart
      (analystLogin ++ es) := by
  refine (Runs.along_append _ _ _ _ _).mpr ⟨by decide +kernel, ?_⟩
  refine Runs.along_of_invariant (I := fun s : Sessions =>
    (⟨analystToken, 7, analystClaims⟩ : Issued) ∈ s.issued) ?_ ?_ (by decide +kernel) es
  · intro s e h
    obtain ⟨more, hmore⟩ := issued_step sampleSessionService s e
    rw [hmore]
    exact List.mem_append_left _ h
  · intro s e h r _ _ c hc
    obtain ⟨hmem, -⟩ := ofTokens_decode (Option.mem_def.mp hc)
    obtain ⟨rfl, htext⟩ := Prod.mk.inj (List.mem_singleton.mp hmem)
    exact ⟨_, h, htext.symm, rfl⟩

/-- The system once the analyst's token has been read. -/
theorem analyst_read (es : List SessionEvent) :
    sampleSessionService.run sampleStart (analystLogin ++ .proceed 0 :: es) =
      sampleSessionService.run ((sampleSessionService.run sampleStart analystLogin).move 0
        ⟨analystToken, .decode⟩ (.lookup analystParsed)) es :=
  run_decode (by decide +kernel)
    (readToken_analyst (by decide +kernel) (by decide +kernel))

/-- The system where the analyst's token has been read. -/
def analystSession : Sessions :=
  (sampleSessionService.run sampleStart analystLogin).move 0 ⟨analystToken, .decode⟩
    (.lookup analystParsed)

/-- The analyst logs out, and after a pause shows the token again. -/
def analystReturn (pause : Nat) : List SessionEvent :=
  analystLogout ++ [.ceremony (.tick pause), .request analystToken]

/-- The system where the token has been read again. -/
theorem analyst_returned {pause : Nat} {es : List SessionEvent}
    (hr : (sampleSessionService.run analystSession (analystReturn pause).tail).requests[1]? =
      some ⟨analystToken, .decode⟩)
    (hclock : (sampleSessionService.run analystSession (analystReturn pause).tail).clock =
      sampleNow + pause) (hpause : (pause : Int) < minutes 15) :
    sampleSessionService.run sampleStart
        (analystLogin ++ (analystReturn pause ++ .proceed 1 :: es)) =
      sampleSessionService.run
        ((sampleSessionService.run analystSession (analystReturn pause).tail).move 1
          ⟨analystToken, .decode⟩ (.lookup analystParsed)) es := by
  have hread := @readToken_analyst
    (sampleSessionService.run analystSession (analystReturn pause).tail).clock
    (by rw [hclock]; exact Int.le_add_of_nonneg_right (Int.natCast_nonneg pause))
    (by rw [hclock]; exact Int.add_lt_add_left hpause sampleNow)
  have hfirst := analyst_read ((analystReturn pause).tail ++ .proceed 1 :: es)
  exact hfirst.trans (run_decode hr hread)

/-- In every run, the tokens that have once been revoked are revoked for good exactly when every
look at the revocations for one of them comes before its expiry. The library lets a token pass
before its expiry only, and the look comes later, by the same clock. -/
theorem revoked_for_good_iff (service : SessionService) (db : MfaDb) (clock : Instant)
    (es : List SessionEvent) (htransactions : db.transactions = [])
    (hrevocations : db.revocations = [])
    (hgenuine : Runs.Along service.step (Genuine service) (Sessions.start db clock) es) :
    RevokedForGood service (Sessions.start db clock) es ↔
      LookedUpInTime service (Sessions.start db clock) es := by
  have hstart : Traced (Sessions.start db clock) := traced_start htransactions hrevocations
  constructor
  · intro hgood earlier e later r parsed hes hr hstage hrevoked
    subst hes
    obtain ⟨htraced, -, hknown⟩ := lookup_known hstart hgenuine hr hstage
    by_contra hpast
    refine hgood earlier e later parsed rfl ?_ hrevoked
    exact accepted_eq_some.mpr
      ⟨r, hr, hstage, revoked_eq_false htraced hknown (Int.not_lt.mp hpast)⟩
  · intro htimely earlier e later parsed hes haccepted hrevoked
    obtain ⟨r, hr, hstage, hnot⟩ := accepted_eq_some.mp haccepted
    subst hes
    obtain ⟨-, halong, hknown⟩ := lookup_known hstart hgenuine hr hstage
    have hbefore := htimely earlier e later r parsed rfl hr hstage hrevoked
    rw [still_revoked hstart halong hrevoked hknown hbefore] at hnot
    cases hnot

theorem revoked_for_good_in_time :
    RevokedForGood sampleSessionService sampleStart
      (analystLogin ++ (analystReturn 0 ++ [.proceed 1, .proceed 1])) := by
  have hgenuine := genuine_analyst (analystReturn 0 ++ [.proceed 1, .proceed 1])
  have htimely : LookedUpInTime sampleSessionService sampleStart
      (analystLogin ++ (analystReturn 0 ++ [.proceed 1, .proceed 1])) := by
    refine lookedUpInTime_of_early (traced_start rfl rfl) hgenuine ?_
    rw [@analyst_returned 0 [.proceed 1] (by decide +kernel) (by decide +kernel)
      (by decide +kernel)]
    decide +kernel
  exact (revoked_for_good_iff sampleSessionService sampleSessionDb sampleNow _ rfl rfl
    hgenuine).mpr htimely

/-- The token is read again a microsecond before its expiry and looked up at its expiry. -/
theorem revoked_token_accepted :
    let es := analystLogin ++ (analystReturn 899999999 ++ [.proceed 1, .ceremony (.tick 1)])
    Runs.Along sampleSessionService.step (Genuine sampleSessionService) sampleStart es ∧
    Revoked sampleSessionService sampleStart es 7 ∧
    (sampleSessionService.run sampleStart es).accepted (.proceed 1) = some analystParsed ∧
    ¬RevokedForGood sampleSessionService sampleStart (es ++ [.proceed 1]) := by
  have haccepted : (sampleSessionService.run sampleStart (analystLogin ++
      (analystReturn 899999999 ++ [.proceed 1, .ceremony (.tick 1)]))).accepted (.proceed 1) =
        some analystParsed := by
    rw [@analyst_returned 899999999 [.ceremony (.tick 1)] (by decide +kernel)
      (by decide +kernel) (by decide +kernel)]
    decide +kernel
  have hrevoked : Revoked sampleSessionService sampleStart (analystLogin ++
      (analystReturn 899999999 ++ [.proceed 1, .ceremony (.tick 1)])) 7 := by
    refine ⟨analystLogin ++ analystLogout, ?_, ?_⟩
    · decide +kernel
    · have hout := analyst_read analystLogout.tail
      have hlogout : analystLogin ++ analystLogout =
          analystLogin ++ .proceed 0 :: analystLogout.tail := rfl
      rw [hlogout, hout]
      decide +kernel
  refine ⟨genuine_analyst _, hrevoked, haccepted, fun hgood => ?_⟩
  exact hgood _ _ [] analystParsed rfl haccepted hrevoked

end Bantam
