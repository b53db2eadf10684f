import Bantam.Provenance
import Bantam.SimulationReport
import Bantam.Lib.Locks
import Bantam.Lib.OrderBy
import Bantam.Lib.Runs
import Bantam.Lib.Tables

/-! The financial profile of the company and its history. Any number of updates run at once; each
takes the version after the highest one that it sees, and no two rows have the same. -/
namespace Bantam
open Tables Runs

/-! The service. -/

/-- A profile as `parse_profile` returns it: the document, and what is read of it. -/
structure FinancialProfile where
  document : Json
  fiscalYear : Int
  limits : CompanyFinancialProfile
  figures : ReportFigures

structure FinancialsService where
  parseProfile : Json → Except BantamError FinancialProfile
  sha256 : String → String
  defaultProfile : FinancialProfile

/-- A row of `company_financial_profiles`. -/
structure ProfileRow where
  profileId : Uuid
  version : Int
  profile : FinancialProfile
  profileDigest : String
  changeNote : String
  createdBy : Uuid

/-- The audit record of an update, with its metadata. -/
structure FinancialsUpdated where
  actorId : Uuid
  profileId : Uuid
  version : Int
  profileDigest : String
  fiscalYear : Int
  impactToleranceGbp : Rat

/-- What `current` returns, but for the inputs, which are those of the profile. -/
structure CurrentProfile where
  profileId : Option Uuid
  version : Int
  reviewed : Bool
  profile : FinancialProfile
  profileDigest : String
  changeNote : String
  createdBy : Option Uuid

def ProfileRow.audit (row : ProfileRow) : FinancialsUpdated where
  actorId := row.createdBy
  profileId := row.profileId
  version := row.version
  profileDigest := row.profileDigest
  fiscalYear := row.profile.fiscalYear
  impactToleranceGbp := row.profile.limits.impactToleranceGbp

def ProfileRow.reviewed (row : ProfileRow) : CurrentProfile where
  profileId := some row.profileId
  version := row.version
  reviewed := true
  profile := row.profile
  profileDigest := row.profileDigest
  changeNote := row.changeNote
  createdBy := some row.createdBy

/-- `profile_digest` -/
def profileDigest (sha256 : String → String) (profile : FinancialProfile) : String :=
  canonicalSha sha256 profile.document

def FinancialsService.repositoryDefault (service : FinancialsService) : CurrentProfile where
  profileId := none
  version := 0
  reviewed := false
  profile := service.defaultProfile
  profileDigest := profileDigest service.sha256 service.defaultProfile
  changeNote := "Shipped default assumptions; no reviewed version saved yet."
  createdBy := none

/-- `ORDER BY version DESC` -/
abbrev NewestVersion := OrderBy fun a b : ProfileRow => b.version ≤ a.version

/-- `current` -/
def currentProfile (service : FinancialsService) (order : NewestVersion)
    (rows : List ProfileRow) : CurrentProfile :=
  match (order.rows rows).head? with
  | none => service.repositoryDefault
  | some row => row.reviewed

/-- The `history` of `overview`. -/
def profileHistory (order : NewestVersion) (rows : List ProfileRow) : List ProfileRow :=
  (order.rows rows).take 25

/-- `COALESCE(MAX(version), 0) + 1` -/
def nextVersion (rows : List ProfileRow) : Int := (rows.map ProfileRow.version).max?.getD 0 + 1

/-! Updates. -/

structure FinancialsUpdate where
  profile : Json
  changeNote : String
  profileId : Uuid
  createdBy : Uuid

/-- `change_note.strip()[:500]` -/
def FinancialsUpdate.note (u : FinancialsUpdate) : String :=
  String.ofList ((Text.stripChars u.changeNote.toList).take 500)

def FinancialsUpdate.row (sha256 : String → String) (u : FinancialsUpdate)
    (profile : FinancialProfile) (version : Int) : ProfileRow where
  profileId := u.profileId
  version := version
  profile := profile
  profileDigest := profileDigest sha256 profile
  changeNote := u.note
  createdBy := u.createdBy

/-- What no two rows have in common. -/
inductive ProfileKey where
  | profileId (profileId : Uuid)
  | version (version : Int)
  deriving DecidableEq

def ProfileRow.keys (row : ProfileRow) : List ProfileKey :=
  [.profileId row.profileId, .version row.version]

/-- Where a call of `update` is: before its `INSERT`, with the row that this has chosen from what
it saw, with the row inserted and not yet committed, or at its end. -/
inductive UpdateStage where
  | received
  | chosen (row : ProfileRow)
  | inserted (row : ProfileRow)
  | returned (result : Except Failure ProfileRow)
  | crashed

structure UpdateCall where
  update : FinancialsUpdate
  stage : UpdateStage

namespace UpdateCall

/-- The keys of a row that is not committed. -/
def keys (c : UpdateCall) : List ProfileKey :=
  match c.stage with
  | .inserted row => row.keys
  | _ => []

def answer (c : UpdateCall) : Option ProfileRow :=
  match c.stage with
  | .returned (.ok row) => some row
  | _ => none

/-- The next statement of a call. An `INSERT` waits while another transaction has one of its keys,
which `blocked` tells. -/
def advance (service : FinancialsService) (blocked : ProfileKey → Bool) (rows : List ProfileRow)
    (c : UpdateCall) : UpdateStage :=
  match c.stage with
  | .received =>
    match service.parseProfile c.update.profile with
    | .error e => .returned (.error (.bantam e))
    | .ok profile =>
      if nextVersion rows < 2 ^ 31 then
        .chosen (c.update.row service.sha256 profile (nextVersion rows))
      else .returned (.error (.database .numericValueOutOfRange))
  | .chosen row =>
    if row.keys.any blocked then .chosen row
    else if row.keys.any fun key => key ∈ rows.flatMap ProfileRow.keys then
      .returned (.error (.database .uniqueViolation))
    else .inserted row
  | .inserted row => .returned (.ok row)
  | stage => stage

/-- The row that the next statement commits. -/
def commits (c : UpdateCall) : List ProfileRow :=
  match c.stage with
  | .inserted row => [row]
  | _ => []

end UpdateCall

structure FinancialsState where
  profiles : List ProfileRow
  audits : List FinancialsUpdated
  calls : List UpdateCall

def FinancialsState.initial : FinancialsState := ⟨[], [], []⟩

inductive FinancialsEvent where
  | submit (update : FinancialsUpdate)
  | advance (i : Nat)
  | crash (i : Nat)

def financialsStep (service : FinancialsService) (s : FinancialsState) :
    FinancialsEvent → FinancialsState
  | .submit update => { s with calls := s.calls ++ [⟨update, .received⟩] }
  | .advance i =>
    match s.calls[i]? with
    | none => s
    | some c =>
      let blocked := Locks.heldByOther UpdateCall.keys s.calls i
      { profiles := s.profiles ++ c.commits
        audits := s.audits ++ c.commits.map ProfileRow.audit
        calls := s.calls.set i { c with stage := c.advance service blocked s.profiles } }
  | .crash i =>
    match s.calls[i]? with
    | none => s
    | some c =>
      match c.stage with
      | .returned _ => s
      | _ => { s with calls := s.calls.set i { c with stage := .crashed } }

/-! The history. -/

/-- A row is what the service makes of an update. -/
def FinancialsUpdate.Makes (service : FinancialsService) (u : FinancialsUpdate)
    (row : ProfileRow) : Prop :=
  ∃ profile, service.parseProfile u.profile = .ok profile ∧
    row = u.row service.sha256 profile row.version

/-- What a call has come to, over the committed rows. -/
def UpdateCall.Sound (service : FinancialsService) (rows : List ProfileRow) (c : UpdateCall) :
    Prop :=
  match c.stage with
  | .received | .crashed | .returned (.error _) => True
  | .chosen row => c.update.Makes service row ∧ 1 ≤ row.version ∧ row.version ≤ rows.length + 1
  | .inserted row => c.update.Makes service row ∧ row.version = rows.length + 1 ∧
      row.profileId ∉ rows.map ProfileRow.profileId
  | .returned (.ok row) => c.update.Makes service row

/-- The versions are dense and in the order of the commits, each has one audit record, and each
was answered to one call. -/
structure Historic (service : FinancialsService) (s : FinancialsState) : Prop where
  dense : s.profiles.map ProfileRow.version =
    (List.range s.profiles.length).map fun n : Nat => (n : Int) + 1
  keyed : Keyed ProfileRow.profileId s.profiles
  audits : s.audits = s.profiles.map ProfileRow.audit
  exclusive : Locks.Exclusive UpdateCall.keys s.calls
  sound : ∀ c ∈ s.calls, c.Sound service s.profiles
  answers : (s.calls.filterMap UpdateCall.answer).Perm s.profiles

section Steps
variable {service : FinancialsService} {s : FinancialsState} {rows : List ProfileRow}
  {c : UpdateCall} {i : Nat}

theorem mem_versions (dense : rows.map ProfileRow.version =
    (List.range rows.length).map fun n : Nat => (n : Int) + 1) {v : Int} :
    v ∈ rows.map ProfileRow.version ↔ 1 ≤ v ∧ v ≤ rows.length := by
  rw [dense]
  simp only [List.mem_map, List.mem_range]
  constructor
  · rintro ⟨n, hn, rfl⟩
    omega
  · intro h
    exact ⟨(v - 1).toNat, by omega, by omega⟩

theorem nextVersion_eq (dense : rows.map ProfileRow.version =
    (List.range rows.length).map fun n : Nat => (n : Int) + 1) :
    nextVersion rows = rows.length + 1 := by
  unfold nextVersion
  cases hrows : rows with
  | nil => rfl
  | cons row rest =>
    have hmax : (rows.map ProfileRow.version).max? = some (rows.length : Int) := by
      refine List.max?_eq_some_iff.mpr ⟨(mem_versions dense).mpr ?_,
        fun v hv => ((mem_versions dense).mp hv).2⟩
      rw [hrows, List.length_cons]
      omega
    rw [← hrows, hmax, Option.getD_some]

theorem dense_append (dense : rows.map ProfileRow.version =
    (List.range rows.length).map fun n : Nat => (n : Int) + 1) {row : ProfileRow}
    (hrow : row.version = rows.length + 1) :
    (rows ++ [row]).map ProfileRow.version =
      (List.range (rows ++ [row]).length).map fun n : Nat => (n : Int) + 1 := by
  rw [List.map_append, List.map_singleton, List.length_append, List.length_singleton,
    List.range_succ, List.map_append, List.map_singleton, dense, hrow]

/-- No key of a row is taken: its version is another one and so is its identifier. -/
theorem keys_free {row : ProfileRow}
    (h : ¬(row.keys.any fun key => key ∈ rows.flatMap ProfileRow.keys) = true) :
    row.profileId ∉ rows.map ProfileRow.profileId ∧
    row.version ∉ rows.map ProfileRow.version := by
  simp only [List.any_eq_true, decide_eq_true_eq, not_exists, not_and] at h
  constructor
  · intro hid
    obtain ⟨other, hother, heq⟩ := List.mem_map.mp hid
    exact h (.profileId row.profileId) (by simp [ProfileRow.keys])
      (List.mem_flatMap.mpr ⟨other, hother, by simp [ProfileRow.keys, heq]⟩)
  · intro hversion
    obtain ⟨other, hother, heq⟩ := List.mem_map.mp hversion
    exact h (.version row.version) (by simp [ProfileRow.keys])
      (List.mem_flatMap.mpr ⟨other, hother, by simp [ProfileRow.keys, heq]⟩)

/-- What a call has come to stays so while nothing is committed. -/
theorem Historic.move (h : Historic service s) (hi : s.calls[i]? = some c) {stage : UpdateStage}
    (hanswer : c.answer = none) (hnone : UpdateCall.answer { c with stage := stage } = none)
    (hkeys : ∀ key ∈ UpdateCall.keys { c with stage := stage },
      Locks.HoldsAt UpdateCall.keys s.calls i key ∨
      Locks.heldByOther UpdateCall.keys s.calls i key = false)
    (hsound : UpdateCall.Sound service s.profiles { c with stage := stage }) :
    Historic service { s with calls := s.calls.set i { c with stage := stage } } where
  dense := h.dense
  keyed := h.keyed
  audits := h.audits
  exclusive := h.exclusive.set hkeys
  sound := by
    intro d hd
    cases Locks.mem_set hd with
    | inl heq => exact heq ▸ hsound
    | inr hother =>
      obtain ⟨j, -, hj⟩ := hother
      exact h.sound d (List.mem_of_getElem? hj)
  answers := by
    refine (Locks.filterMap_set_perm hi hanswer).trans ?_
    rw [hnone]
    simpa using h.answers

/-- A commit: no other transaction has inserted a row, as it would have the same version. -/
theorem Historic.commit (h : Historic service s) {update : FinancialsUpdate} {row : ProfileRow}
    (hi : s.calls[i]? = some ⟨update, .inserted row⟩) :
    Historic service
      { profiles := s.profiles ++ [row]
        audits := s.audits ++ [row.audit]
        calls := s.calls.set i ⟨update, .returned (.ok row)⟩ } := by
  have hsound := h.sound _ (List.mem_of_getElem? hi)
  obtain ⟨hmakes, hversion, hfresh⟩ := hsound
  refine ⟨dense_append h.dense hversion, keyed_append_one.mpr ⟨h.keyed, hfresh⟩, ?_,
    h.exclusive.set (fun key hkey => nomatch hkey), fun d hd => ?_, ?_⟩
  · rw [h.audits, List.map_append, List.map_singleton]
  · cases Locks.mem_set hd with
    | inl heq =>
      subst heq
      exact hmakes
    | inr hother =>
      obtain ⟨j, hj, hget⟩ := hother
      have hd := h.sound d (List.mem_of_getElem? hget)
      obtain ⟨u, stage⟩ := d
      cases stage with
      | received => trivial
      | crashed => trivial
      | chosen other =>
        obtain ⟨hmakes', hlow, hhigh⟩ := hd
        refine ⟨hmakes', hlow, ?_⟩
        rw [List.length_append, List.length_singleton]
        omega
      | inserted other =>
        have hsame : other.version = row.version := hd.2.1.trans hversion.symm
        refine absurd (h.exclusive j i (.version row.version) ⟨_, hget, ?_⟩ ⟨_, hi, ?_⟩) hj
        · simp [UpdateCall.keys, ProfileRow.keys, hsame]
        · simp [UpdateCall.keys, ProfileRow.keys]
      | returned result =>
        cases result with
        | error e => trivial
        | ok other => exact hd
  · exact (Locks.filterMap_set_perm hi rfl).trans (h.answers.append_right [row])

theorem Historic.advance (h : Historic service s) (hi : s.calls[i]? = some c) :
    Historic service
      { profiles := s.profiles ++ c.commits
        audits := s.audits ++ c.commits.map ProfileRow.audit
        calls := s.calls.set i { c with
          stage := c.advance service (Locks.heldByOther UpdateCall.keys s.calls i) s.profiles } } := by
  obtain ⟨update, stage⟩ := c
  have quiet : ∀ {d : UpdateCall} {l : List UpdateCall}, d.commits = [] →
      (⟨s.profiles ++ d.commits, s.audits ++ d.commits.map ProfileRow.audit, l⟩ :
        FinancialsState) = { s with calls := l } := by
    intro d l hd
    simp [hd]
  cases stage with
  | received =>
    rw [quiet rfl]
    unfold UpdateCall.advance
    dsimp only
    split
    · exact h.move hi rfl rfl (fun key hkey => nomatch hkey) trivial
    · rename_i profile hparse
      split
      · refine h.move hi rfl rfl (fun key hkey => nomatch hkey) ⟨⟨profile, hparse, rfl⟩, ?_⟩
        rw [nextVersion_eq h.dense]
        exact ⟨by simp [FinancialsUpdate.row], by simp [FinancialsUpdate.row]⟩
      · exact h.move hi rfl rfl (fun key hkey => nomatch hkey) trivial
  | chosen row =>
    obtain ⟨hmakes, hlow, hhigh⟩ := h.sound _ (List.mem_of_getElem? hi)
    rw [quiet rfl]
    unfold UpdateCall.advance
    dsimp only
    split_ifs with hblocked htaken
    · exact h.move hi rfl rfl (fun key hkey => nomatch hkey) ⟨hmakes, hlow, hhigh⟩
    · exact h.move hi rfl rfl (fun key hkey => nomatch hkey) trivial
    · obtain ⟨hid, hversion⟩ := keys_free htaken
      rw [mem_versions h.dense] at hversion
      refine h.move hi rfl rfl (fun key hkey => .inr ?_) ⟨hmakes, by omega, hid⟩
      simp only [List.any_eq_true, not_exists, not_and, Bool.not_eq_true] at hblocked
      exact hblocked key hkey
  | inserted row => exact h.commit hi
  | returned result =>
    rw [quiet rfl]
    obtain ⟨hlt, hget⟩ := List.getElem?_eq_some_iff.mp hi
    have hself : s.calls.set i ⟨update, .returned result⟩ = s.calls := by
      rw [← hget, List.set_getElem_self]
    simpa [UpdateCall.advance, hself] using h
  | crashed =>
    rw [quiet rfl]
    exact h.move hi rfl rfl (fun key hkey => nomatch hkey) trivial

theorem Historic.step (h : Historic service s) (e : FinancialsEvent) :
    Historic service (financialsStep service s e) := by
  cases e with
  | submit update =>
    refine ⟨h.dense, h.keyed, h.audits, ?_, fun c hc => ?_, ?_⟩
    · exact h.exclusive.append_of_fresh fun key hkey => nomatch hkey
    · cases List.mem_append.mp hc with
      | inl hold => exact h.sound c hold
      | inr hnew => exact List.mem_singleton.mp hnew ▸ trivial
    · have hnone : UpdateCall.answer ⟨update, .received⟩ = none := rfl
      simpa [financialsStep, hnone] using h.answers
  | advance i =>
    unfold financialsStep
    dsimp only
    split
    · exact h
    · rename_i c hi
      exact h.advance hi
  | crash i =>
    unfold financialsStep
    dsimp only
    split
    · exact h
    · rename_i c hi
      split
      · exact h
      · rename_i hstage
        refine h.move hi ?_ rfl (fun key hkey => nomatch hkey) trivial
        unfold UpdateCall.answer
        split
        · exact absurd ‹_› (hstage _)
        · rfl

end Steps

theorem historic_run (service : FinancialsService) (es : List FinancialsEvent) :
    Historic service (run (financialsStep service) .initial es) := by
  refine run_invariant (fun s e h => h.step e) ?_ es
  refine ⟨rfl, keyed_nil, rfl, ?_, fun c hc => (nomatch hc), List.Perm.refl _⟩
  rintro i j r ⟨c, hc, -⟩
  cases hc

theorem profiles_grow (service : FinancialsService) (s : FinancialsState)
    (es : List FinancialsEvent) :
    s.profiles <+: (run (financialsStep service) s es).profiles := by
  refine run_rel (fun a b : FinancialsState => a.profiles <+: b.profiles)
    (fun a => List.prefix_refl _) List.IsPrefix.trans (fun a e _ => ?_)
    (I := fun _ => True) (fun _ _ _ => trivial) trivial es
  cases e with
  | submit update => exact List.prefix_refl _
  | advance i =>
    unfold financialsStep
    dsimp only
    split
    · exact List.prefix_refl _
    · exact List.prefix_append _ _
  | crash i =>
    unfold financialsStep
    dsimp only
    split
    · exact List.prefix_refl _
    · split
      · exact List.prefix_refl _
      · exact List.prefix_refl _

section Reads
variable {service : FinancialsService} {s : FinancialsState}

theorem Historic.versions_lt (h : Historic service s) :
    s.profiles.Pairwise fun a b => a.version < b.version := by
  have hrange : (s.profiles.map ProfileRow.version).Pairwise (· < ·) := by
    rw [h.dense, List.pairwise_map]
    exact List.pairwise_lt_range.imp fun {m n} hmn => by omega
  exact List.pairwise_map.mp hrange

theorem Historic.keyed_versions (h : Historic service s) : Keyed ProfileRow.version s.profiles :=
  List.pairwise_map.mpr (h.versions_lt.imp fun hlt => Int.ne_of_lt hlt)

/-- The newest version first is the last commit first. -/
theorem Historic.newest_first (h : Historic service s) (order : NewestVersion) :
    order.rows s.profiles = s.profiles.reverse := by
  refine order.rows_eq (List.reverse_perm _) ?_
    fun a ha b hb hab hba => h.keyed_versions.eq_of_key ha hb (Int.le_antisymm hba hab)
  exact List.pairwise_reverse.mpr (h.versions_lt.imp Int.le_of_lt)

/-- The current profile is the one that was committed last. -/
theorem Historic.current (h : Historic service s) (order : NewestVersion) :
    currentProfile service order s.profiles =
      (s.profiles.getLast?.map ProfileRow.reviewed).getD service.repositoryDefault := by
  unfold currentProfile
  rw [h.newest_first, List.head?_reverse]
  cases s.profiles.getLast? with
  | none => rfl
  | some row => rfl

end Reads

/-- However the updates interleave, the history grows at its end only; its versions are one, two
and so on, in the order of the commits; each row is what the service made of one update, which it
was answered to, and has one audit record; and what is served as the current profile is the row
of the highest version, or the default where there is none. -/
theorem financial_history (service : FinancialsService) (order : NewestVersion)
    (es later : List FinancialsEvent) :
    let s := run (financialsStep service) .initial es
    s.profiles <+: (run (financialsStep service) .initial (es ++ later)).profiles ∧
    s.profiles.map ProfileRow.version =
      (List.range s.profiles.length).map (fun n : Nat => (n : Int) + 1) ∧
    Keyed ProfileRow.profileId s.profiles ∧
    s.audits = s.profiles.map ProfileRow.audit ∧
    (s.calls.filterMap UpdateCall.answer).Perm s.profiles ∧
    (∀ c ∈ s.calls, ∀ row, c.answer = some row → c.update.Makes service row) ∧
    currentProfile service order s.profiles =
      (s.profiles.getLast?.map ProfileRow.reviewed).getD service.repositoryDefault ∧
    profileHistory order s.profiles = s.profiles.reverse.take 25 := by
  have h := historic_run service es
  refine ⟨?_, h.dense, h.keyed, h.audits, h.answers, fun c hc row hrow => ?_, h.current order, ?_⟩
  · rw [run_append]
    exact profiles_grow service _ later
  · have hsound := h.sound c hc
    unfold UpdateCall.answer at hrow
    split at hrow
    · rename_i row' hstage
      obtain rfl := Option.some.inj hrow
      rwa [UpdateCall.Sound, hstage] at hsound
    · cases hrow
  · rw [profileHistory, h.newest_first]

end Bantam
