import Bantam.Evidence
import Bantam.Lib.Markup
import Mathlib.Data.String.Basic

/-! The report on the evidence: the bundles it is made from, its counts, the code that the process
ends with, and the documents it is written as. -/
namespace Bantam.Aspis
variable {F : Type}

/-! Bundles. -/

/-- A bundle with its size, and what `json.loads` makes of it or says of it. -/
structure BundleFile (F : Type) where
  name : String
  size : Nat
  document : Except String (PyValue F)

def maxBundleBytes : Nat := 10 * 1024 * 1024
def schemaVersion : String := "1.0"
def bundleFields : List String := ["schema_version", "records"]

/-- `_read_bundle` -/
def readBundle (floats : UnitFloats F) (file : BundleFile F) :
    EvidenceRead (List (EvidenceRecord F)) :=
  if maxBundleBytes < file.size then
    invalid (file.name ++ ": bundle exceeds " ++ toString maxBundleBytes ++ " bytes")
  else match file.document with
    | .error message => invalid (file.name ++ ": invalid JSON: " ++ message)
    | .ok (.dict members) =>
      let names := members.map Prod.fst
      if ¬(names ⊆ bundleFields ∧ bundleFields ⊆ names) then
        invalid (file.name ++ ": bundle must contain only schema_version and records")
      else match EvidenceRecord.fieldOf members "schema_version" with
        | .str version =>
          if version ≠ schemaVersion then invalid (file.name ++ ": unsupported schema_version")
          else match EvidenceRecord.fieldOf members "records" with
            | .list items => items.mapM (EvidenceRecord.fromMapping floats)
            | _ => invalid (file.name ++ ": records must be a list")
        | _ => invalid (file.name ++ ": unsupported schema_version")
    | .ok _ => invalid (file.name ++ ": bundle must contain only schema_version and records")

namespace EvidenceRecord

/-- What a record is the evidence for. -/
def subject (r : EvidenceRecord F) : String × String := (r.controlId, r.target)

/-- The order of `(item.target, item.control_id)`. -/
def before (a b : EvidenceRecord F) : Bool :=
  a.target < b.target || (a.target = b.target && a.controlId ≤ b.controlId)

end EvidenceRecord

/-- The loop over the records of a bundle. -/
def addRecords : List (EvidenceRecord F) → List (EvidenceRecord F) →
    EvidenceRead (List (EvidenceRecord F))
  | records, [] => .ok records
  | records, r :: rest =>
    if records.any (·.subject = r.subject) then
      invalid ("duplicate evidence for " ++ r.controlId ++ " on " ++ r.target ++
        "; merge it at the collector")
    else addRecords (records ++ [r]) rest

/-- The loop over the bundles. -/
def addBundles (floats : UnitFloats F) : List (EvidenceRecord F) → List (BundleFile F) →
    EvidenceRead (List (EvidenceRecord F))
  | records, [] => .ok records
  | records, file :: rest => do
    let new ← readBundle floats file
    let records ← addRecords records new
    addBundles floats records rest

def inOrder (records : List (EvidenceRecord F)) : List (EvidenceRecord F) :=
  records.mergeSort EvidenceRecord.before

/-- `load_records` -/
def loadRecords (floats : UnitFloats F) (files : List (BundleFile F)) :
    EvidenceRead (List (EvidenceRecord F)) := do
  let records ← addBundles floats [] files
  if records.isEmpty then invalid "at least one evidence record is required"
  else .ok (inOrder records)

/-- The bundle of some records. -/
def bundleOf (name : String) (size : Nat) (records : List (EvidenceRecord F)) : BundleFile F where
  name := name
  size := size
  document := .ok (.dict [("schema_version", .str schemaVersion),
    ("records", .list (records.map EvidenceRecord.toMapping))])

section Loading
open EvidenceRecord
variable {floats : UnitFloats F} {files : List (BundleFile F)} {records new : List (EvidenceRecord F)}

theorem before_iff {a b : EvidenceRecord F} : before a b = true ↔
    a.target < b.target ∨ a.target = b.target ∧ a.controlId ≤ b.controlId := by
  simp [before]

theorem before_total (a b : EvidenceRecord F) : (before a b || before b a) = true := by
  rw [Bool.or_eq_true, before_iff, before_iff]
  rcases lt_trichotomy a.target b.target with h | h | h
  · exact .inl (.inl h)
  · rcases le_total a.controlId b.controlId with hid | hid
    · exact .inl (.inr ⟨h, hid⟩)
    · exact .inr (.inr ⟨h.symm, hid⟩)
  · exact .inr (.inl h)

theorem before_trans (a b c : EvidenceRecord F) (hab : before a b = true)
    (hbc : before b c = true) : before a c = true := by
  rw [before_iff] at hab hbc ⊢
  rcases hab with hab | ⟨hab, hid⟩
  · rcases hbc with hbc | ⟨hbc, -⟩
    · exact .inl (lt_trans hab hbc)
    · exact .inl (hbc ▸ hab)
  · rcases hbc with hbc | ⟨hbc, hid'⟩
    · exact .inl (hab ▸ hbc)
    · exact .inr ⟨hab.trans hbc, le_trans hid hid'⟩

theorem before_antisymm {a b : EvidenceRecord F} (hab : before a b = true)
    (hba : before b a = true) : a.subject = b.subject := by
  rw [before_iff] at hab hba
  rcases hab with hab | ⟨hab, hid⟩
  · rcases hba with hba | ⟨hba, -⟩
    · exact absurd hba (lt_asymm hab)
    · exact absurd hba (ne_of_gt hab)
  · rcases hba with hba | ⟨-, hid'⟩
    · exact absurd hab.symm (ne_of_lt hba)
    · exact Prod.ext (le_antisymm hid hid') hab

theorem inOrder_perm (records : List (EvidenceRecord F)) : (inOrder records).Perm records :=
  List.mergeSort_perm records before

theorem inOrder_pairwise (records : List (EvidenceRecord F)) :
    (inOrder records).Pairwise (before · · = true) :=
  List.pairwise_mergeSort before_trans before_total records

/-- The order of records on different subjects does not depend on the order they came in. -/
theorem inOrder_congr {rest : List (EvidenceRecord F)} (hd : (records.map subject).Nodup)
    (h : rest.Perm records) : inOrder rest = inOrder records := by
  refine List.Perm.eq_of_pairwise (fun a b ha hb hab hba => ?_) (inOrder_pairwise rest)
    (inOrder_pairwise records) ((inOrder_perm rest).trans (h.trans (inOrder_perm records).symm))
  have ha : a ∈ records := h.subset ((inOrder_perm rest).subset ha)
  have hb : b ∈ records := (inOrder_perm records).subset hb
  exact List.inj_on_of_nodup_map hd ha hb (before_antisymm hab hba)

theorem mem_subjects {subject : String × String} :
    records.any (·.subject = subject) = true ↔ subject ∈ records.map EvidenceRecord.subject := by
  simp

theorem addRecords_ok {all : List (EvidenceRecord F)} (hd : (records.map subject).Nodup) :
    addRecords records new = .ok all ↔
      all = records ++ new ∧ ((records ++ new).map subject).Nodup := by
  induction new generalizing records with
  | nil =>
    rw [addRecords, Except.ok.injEq, List.append_nil]
    exact ⟨fun h => ⟨h.symm, hd⟩, fun h => h.1.symm⟩
  | cons r new ih =>
    rw [addRecords]
    split
    · next hr =>
      refine ⟨fun h => (nomatch h), fun ⟨_, hall⟩ => ?_⟩
      rw [List.map_append, List.map_cons] at hall
      exact absurd (List.mem_cons_self) ((List.nodup_append'.mp hall).2.2 (mem_subjects.mp hr))
    · next hr =>
      rw [mem_subjects] at hr
      have hnew : ((records ++ [r]).map subject).Nodup := by
        rw [List.map_append, List.map_singleton]
        exact List.nodup_append'.mpr ⟨hd, List.nodup_singleton _, by simpa using hr⟩
      rw [ih hnew, List.append_assoc, List.singleton_append]

/-- What the bundles read as, in the order of the bundles. -/
def Reads (floats : UnitFloats F) (files : List (BundleFile F))
    (read : List (List (EvidenceRecord F))) : Prop :=
  List.Forall₂ (fun file new => readBundle floats file = .ok new) files read

theorem addBundles_ok {all : List (EvidenceRecord F)} (hd : (records.map subject).Nodup) :
    addBundles floats records files = .ok all ↔ ∃ read, Reads floats files read ∧
      all = records ++ read.flatten ∧ (all.map subject).Nodup := by
  induction files generalizing records with
  | nil =>
    rw [addBundles, Except.ok.injEq]
    constructor
    · rintro rfl
      exact ⟨[], .nil, (List.append_nil _).symm, hd⟩
    · rintro ⟨_, _ | _, hall, -⟩
      exact (hall.trans (List.append_nil _)).symm
  | cons file files ih =>
    rw [addBundles]
    constructor
    · intro h
      obtain ⟨new, hnew, h⟩ := bind_eq_ok.mp h
      obtain ⟨_, hadded, h⟩ := bind_eq_ok.mp h
      obtain ⟨rfl, hmore⟩ := (addRecords_ok hd).mp hadded
      obtain ⟨read, hread, hall, hdistinct⟩ := (ih hmore).mp h
      exact ⟨new :: read, .cons hnew hread, by rw [hall, List.append_assoc, List.flatten_cons],
        hdistinct⟩
    · rintro ⟨_, _ | ⟨hnew, hread⟩, hall, hdistinct⟩
      rename_i new read
      rw [List.flatten_cons, ← List.append_assoc] at hall
      have hmore : ((records ++ new).map subject).Nodup := by
        rw [hall, List.map_append] at hdistinct
        exact hdistinct.of_append_left
      exact bind_eq_ok.mpr ⟨new, hnew, bind_eq_ok.mpr ⟨records ++ new,
        (addRecords_ok hd).mpr ⟨rfl, hmore⟩, (ih hmore).mpr ⟨read, hread, hall, hdistinct⟩⟩⟩

theorem addBundles_nil_ok {all : List (EvidenceRecord F)} :
    addBundles floats [] files = .ok all ↔
      ∃ read, Reads floats files read ∧ all = read.flatten ∧ (all.map subject).Nodup :=
  addBundles_ok List.nodup_nil

theorem loadRecords_ok : loadRecords floats files = .ok records ↔ ∃ read, Reads floats files read ∧
    (read.flatten.map subject).Nodup ∧ read.flatten ≠ [] ∧ records = inOrder read.flatten := by
  rw [loadRecords, bind_eq_ok]
  constructor
  · rintro ⟨all, hall, h⟩
    obtain ⟨read, hread, rfl, hd⟩ := addBundles_nil_ok.mp hall
    split at h
    · cases h
    · next hne => exact ⟨read, hread, hd, by simpa using hne, (Except.ok.inj h).symm⟩
  · rintro ⟨read, hread, hd, hne, rfl⟩
    refine ⟨read.flatten, addBundles_nil_ok.mpr ⟨read, hread, rfl, hd⟩, ?_⟩
    rw [if_neg (by simpa using hne)]

theorem readBundle_sound {file : BundleFile F} (h : readBundle floats file = .ok new) :
    ∀ r ∈ new, Sound floats r := by
  unfold readBundle at h
  split at h
  · cases h
  · split at h
    · cases h
    · dsimp only at h
      split at h
      · cases h
      · split at h
        · split at h
          · cases h
          · split at h
            · intro r hr
              obtain ⟨_, _, hitem⟩ := Fallible.mem_mapM_ok h hr
              exact fromMapping_sound hitem
            · cases h
        · cases h
    · cases h

theorem Reads.mem {read : List (List (EvidenceRecord F))} (h : Reads floats files read)
    {r : EvidenceRecord F} : r ∈ read.flatten ↔
      ∃ file ∈ files, ∃ new, readBundle floats file = .ok new ∧ r ∈ new := by
  induction h with
  | nil => simp
  | cons hnew _ ih => simp [ih, hnew]

/-- The bundle of sound records reads as these records. -/
theorem readBundle_bundleOf (h : ∀ r ∈ records, Sound floats r) (name : String) {size : Nat}
    (hsize : size ≤ maxBundleBytes) :
    readBundle floats (bundleOf name size records) = .ok records := by
  have hread : (records.map EvidenceRecord.toMapping).mapM (fromMapping floats) = .ok records := by
    rw [List.mapM_map]
    exact (Fallible.mapM_ok fun r hr => fromMapping_toMapping (h r hr)).trans
      (congrArg _ (List.map_id _))
  have hfits : ¬maxBundleBytes < (bundleOf name size records).size := Nat.not_lt.mpr hsize
  rw [readBundle, if_neg hfits]
  exact hread

/-- The records that bundles load as are those in them, in an order that neither the order of the
bundles nor how the records are put into bundles changes: the bundle of the records loads as the
records again. -/
theorem evidence_reproducible (h : loadRecords floats files = .ok records) :
    (∀ r, r ∈ records ↔ ∃ file ∈ files, ∃ new, readBundle floats file = .ok new ∧ r ∈ new) ∧
    records ≠ [] ∧ (records.map subject).Nodup ∧ records.Pairwise (before · · = true) ∧
    (∀ files', files'.Perm files → loadRecords floats files' = .ok records) ∧
    ∀ name size, size ≤ maxBundleBytes →
      loadRecords floats [bundleOf name size records] = .ok records := by
  obtain ⟨read, hread, hd, hne, rfl⟩ := loadRecords_ok.mp h
  have hperm := inOrder_perm read.flatten
  have hsorted := inOrder_pairwise read.flatten
  have hmem : ∀ r, r ∈ inOrder read.flatten ↔
      ∃ file ∈ files, ∃ new, readBundle floats file = .ok new ∧ r ∈ new :=
    fun r => hperm.mem_iff.trans hread.mem
  have hdistinct : ((inOrder read.flatten).map subject).Nodup := (hperm.map _).nodup_iff.mpr hd
  have hfilled : inOrder read.flatten ≠ [] := fun hnil => hne (List.nil_perm.mp (hnil ▸ hperm))
  refine ⟨hmem, hfilled, hdistinct, hsorted, fun files' hfiles => ?_, fun name size hsize => ?_⟩
  · obtain ⟨read', hread', hsame⟩ := List.perm_comp_forall₂ hfiles hread
    have hflat : read'.flatten.Perm read.flatten := hsame.flatten
    refine loadRecords_ok.mpr ⟨read', hread', (hflat.map _).nodup_iff.mpr hd, ?_,
      (inOrder_congr hd hflat).symm⟩
    exact fun hnil => hne (List.nil_perm.mp (hnil ▸ hflat))
  · have hsound : ∀ r ∈ inOrder read.flatten, Sound floats r := by
      intro r hr
      obtain ⟨file, -, new, hnew, hr⟩ := (hmem r).mp hr
      exact readBundle_sound hnew r hr
    refine loadRecords_ok.mpr ⟨[inOrder read.flatten],
      .cons (readBundle_bundleOf hsound name hsize) .nil, ?_⟩
    rw [List.flatten_singleton]
    exact ⟨hdistinct, hfilled, (List.mergeSort_of_pairwise hsorted).symm⟩

def exampleBundles : List (BundleFile Int) :=
  [bundleOf "api.json" 1024 [exampleRecord],
    bundleOf "app.json" 2048 [{ exampleRecord with target := "bantam-app" }]]

theorem evidence_reproducible_example :
    loadRecords wholeUnit exampleBundles.reverse =
      .ok [exampleRecord, { exampleRecord with target := "bantam-app" }] := by
  have hload : loadRecords wholeUnit exampleBundles =
      .ok [exampleRecord, { exampleRecord with target := "bantam-app" }] :=
    loadRecords_ok.mpr ⟨[[exampleRecord], [{ exampleRecord with target := "bantam-app" }]],
      .cons (by decide +kernel) (.cons (by decide +kernel) .nil), by decide, by simp,
      (List.mergeSort_of_pairwise (by decide +kernel)).symm⟩
  exact (evidence_reproducible hload).2.2.2.2.1 _ exampleBundles.reverse_perm

end Loading

/-! Counts. -/

abbrev StatusCounts := EvidenceStatus → Nat

def StatusCounts.add (counts : StatusCounts) (status : EvidenceStatus) : StatusCounts :=
  fun s => counts s + if s = status then 1 else 0

structure Summary where
  total : StatusCounts
  targets : List (String × StatusCounts)

/-- The loop of `_summary`. -/
def countTargets (records : List (EvidenceRecord F)) : Dict String StatusCounts :=
  records.foldl (fun targets r =>
    targets.set r.target (((targets.get? r.target).getD fun _ => 0).add r.status)) .empty

/-- `_summary` -/
def summarise (records : List (EvidenceRecord F)) : Summary where
  total := records.foldl (fun counts r => counts.add r.status) fun _ => 0
  targets := (countTargets records).items.mergeSort fun a b => a.1 ≤ b.1

/-- `report_exit_code` -/
def reportExitCode (summary : Summary) : Nat :=
  if summary.total .error ≠ 0 then 2
  else if summary.total .fail ≠ 0 then 1
  else if summary.total .inconclusive ≠ 0 then 3
  else 0

section Counting
variable {records : List (EvidenceRecord F)}

theorem foldl_add (records : List (EvidenceRecord F)) (counts : StatusCounts)
    (s : EvidenceStatus) : records.foldl (fun counts r => counts.add r.status) counts s =
      counts s + records.countP (·.status = s) := by
  induction records generalizing counts with
  | nil => rfl
  | cons r records ih =>
    rw [List.foldl_cons, ih, List.countP_cons, StatusCounts.add]
    simp only [decide_eq_true_eq, eq_comm (a := s)]
    omega

/-- The records of a target with a status. -/
def countOn (records : List (EvidenceRecord F)) (target : String) (s : EvidenceStatus) : Nat :=
  records.countP fun r => r.target = target && r.status = s

theorem get?_foldl_add (records : List (EvidenceRecord F)) (targets : Dict String StatusCounts)
    (t : String) : (records.foldl (fun targets r =>
      targets.set r.target (((targets.get? r.target).getD fun _ => 0).add r.status)) targets).get? t =
      if t ∈ records.map EvidenceRecord.target then
        some fun s => ((targets.get? t).getD fun _ => 0) s + countOn records t s
      else targets.get? t := by
  induction records generalizing targets with
  | nil => rfl
  | cons r records ih =>
    rw [List.foldl_cons, ih, Dict.get?_set, List.map_cons]
    by_cases ht : t = r.target
    · subst ht
      have hcount : ∀ s, ((targets.get? r.target).getD fun _ => 0).add r.status s +
          countOn records r.target s =
          ((targets.get? r.target).getD fun _ => 0) s + countOn (r :: records) r.target s := by
        intro s
        simp only [countOn, List.countP_cons, StatusCounts.add, decide_true, Bool.true_and,
          decide_eq_true_eq, eq_comm (a := s)]
        omega
      simp only [if_true, Option.getD_some, List.mem_cons, true_or, hcount]
      split
      · rfl
      · next hnone =>
        have hzero : ∀ s, countOn records r.target s = 0 := by
          intro s
          refine List.countP_eq_zero.mpr fun q hq hboth => hnone ?_
          simp only [Bool.and_eq_true, decide_eq_true_eq] at hboth
          exact List.mem_map.mpr ⟨q, hq, hboth.1⟩
        simp only [← hcount, hzero, Nat.add_zero]
    · have hcount : countOn (r :: records) t = countOn records t := by
        funext s
        simp [countOn, Ne.symm ht]
      simp only [List.mem_cons, ht, if_false, false_or, hcount]

theorem get?_countTargets (t : String) : (countTargets records).get? t =
    if t ∈ records.map EvidenceRecord.target then some (countOn records t) else none := by
  rw [countTargets, get?_foldl_add]
  simp only [Dict.empty, Dict.get?, List.find?_nil, Option.map_none, Option.getD_none,
    Nat.zero_add]

theorem mem_targets {t : String} {counts : StatusCounts} :
    (t, counts) ∈ (summarise records).targets ↔
      t ∈ records.map EvidenceRecord.target ∧ counts = countOn records t := by
  rw [summarise, List.mem_mergeSort, ← Dict.get?_eq_some, get?_countTargets]
  split
  · next ht => simp only [Option.some.injEq, ht, true_and, eq_comm]
  · next ht => simp only [reduceCtorEq, ht, false_and]

theorem targets_sorted : ((summarise records).targets.map Prod.fst).Pairwise (· < ·) := by
  have hperm : (summarise records).targets.Perm (countTargets records).items :=
    List.mergeSort_perm _ _
  have hdistinct : ((summarise records).targets.map Prod.fst).Nodup :=
    (hperm.map Prod.fst).nodup_iff.mpr (countTargets records).distinct
  have hsorted : (summarise records).targets.Pairwise fun a b => decide (a.1 ≤ b.1) = true := by
    refine List.pairwise_mergeSort (fun a b c hab hbc => ?_) (fun a b => ?_) _
    · exact decide_eq_true (le_trans (of_decide_eq_true hab) (of_decide_eq_true hbc))
    · simpa using le_total a.1 b.1
  have hle : ((summarise records).targets.map Prod.fst).Pairwise (· ≤ ·) :=
    List.pairwise_map.mpr (hsorted.imp of_decide_eq_true)
  exact hle.imp₂ (fun _ _ hle hne => lt_of_le_of_ne hle hne) hdistinct

theorem total_summarise (s : EvidenceStatus) :
    (summarise records).total s = records.countP (·.status = s) := by
  exact (foldl_add records _ s).trans (Nat.zero_add _)

theorem total_eq_zero {s : EvidenceStatus} :
    (summarise records).total s = 0 ↔ ∀ r ∈ records, r.status ≠ s := by
  rw [total_summarise, List.countP_eq_zero]
  simp only [decide_eq_true_eq]

theorem reportExitCode_zero : reportExitCode (summarise records) = 0 ↔
    ∀ r ∈ records, r.status = .pass := by
  have hcode : reportExitCode (summarise records) = 0 ↔ (summarise records).total .error = 0 ∧
      (summarise records).total .fail = 0 ∧ (summarise records).total .inconclusive = 0 := by
    unfold reportExitCode
    split_ifs <;> simp_all
  simp only [hcode, total_eq_zero]
  constructor
  · rintro ⟨herror, hfail, hinconclusive⟩ r hr
    cases hs : r.status with
    | pass => rfl
    | fail => exact absurd hs (hfail r hr)
    | inconclusive => exact absurd hs (hinconclusive r hr)
    | error => exact absurd hs (herror r hr)
  · intro h
    refine ⟨fun r hr => ?_, fun r hr => ?_, fun r hr => ?_⟩ <;> rw [h r hr] <;> decide

theorem reportExitCode_two : reportExitCode (summarise records) = 2 ↔
    ∃ r ∈ records, r.status = .error := by
  have hcode : reportExitCode (summarise records) = 2 ↔ (summarise records).total .error ≠ 0 := by
    unfold reportExitCode
    split_ifs <;> simp_all
  rw [hcode, Ne, total_eq_zero]
  simp only [not_forall, not_not, exists_prop]

theorem reportExitCode_one : reportExitCode (summarise records) = 1 ↔
    (∃ r ∈ records, r.status = .fail) ∧ ∀ r ∈ records, r.status ≠ .error := by
  have hcode : reportExitCode (summarise records) = 1 ↔ (summarise records).total .fail ≠ 0 ∧
      (summarise records).total .error = 0 := by
    unfold reportExitCode
    split_ifs <;> simp_all
  rw [hcode, Ne, total_eq_zero, total_eq_zero]
  simp only [not_forall, not_not, exists_prop]

/-- The report counts every record once, under its target, and the process ends with zero exactly
when every record passes: an error is never told as a failure, nor either of them as a pass. -/
theorem report_counts (records : List (EvidenceRecord F)) :
    (∀ s, (summarise records).total s = records.countP (·.status = s)) ∧
    (∀ t counts, (t, counts) ∈ (summarise records).targets ↔
      t ∈ records.map EvidenceRecord.target ∧ counts = countOn records t) ∧
    ((summarise records).targets.map Prod.fst).Pairwise (· < ·) ∧
    (reportExitCode (summarise records) = 0 ↔ ∀ r ∈ records, r.status = .pass) ∧
    (reportExitCode (summarise records) = 2 ↔ ∃ r ∈ records, r.status = .error) ∧
    (reportExitCode (summarise records) = 1 ↔
      (∃ r ∈ records, r.status = .fail) ∧ ∀ r ∈ records, r.status ≠ .error) :=
  ⟨total_summarise, fun _ _ => mem_targets, targets_sorted, reportExitCode_zero,
    reportExitCode_two, reportExitCode_one⟩

end Counting

/-! The HTML document. -/

def html (s : String) : List Char := Markup.escape s.toList

def digits (n : Nat) : List Char := (toString n).toList

def orNone (s : String) : String := if s = "" then "none" else s

def summaryCell (content : List Char) : List Char :=
  ["<td>".toList, content, "</td>".toList].flatten

def summaryRow (row : String × StatusCounts) : List Char :=
  ["<tr>".toList, summaryCell (html row.1), summaryCell (digits (row.2 .pass)),
    summaryCell (digits (row.2 .fail)), summaryCell (digits (row.2 .inconclusive)),
    summaryCell (digits (row.2 .error)), "</tr>".toList].flatten

/-- A labelled paragraph of a finding. -/
def paragraph (label : String) (content : List Char) : List Char :=
  ["<p><strong>".toList, label.toList, ":</strong> ".toList, content, "</p>".toList].flatten

/-- `", ".join(items)` and `"; ".join(items) or "none"` -/
def commas (items : List String) : String := ", ".intercalate items
def semicolons (items : List String) : String := orNone ("; ".intercalate items)

def finding (r : EvidenceRecord F) : List Char :=
  ["<article><h3>".toList, html r.controlId, ": ".toList, html r.title, "</h3>".toList,
    paragraph "Status" (html (Text.upper r.status.name)),
    paragraph "Target" (html r.target),
    paragraph "Framework"
      [html r.framework, " (".toList, html (commas r.frameworkIds), ")".toList].flatten,
    paragraph "Source evidence" (html ("; ".intercalate r.sourceEvidence)),
    paragraph "Evidence" (html (semicolons r.executionEvidence)),
    paragraph "Counter-evidence" (html (semicolons r.counterEvidence)),
    paragraph "Remediation" (html (orNone r.remediation)),
    paragraph "Limitations" (html (semicolons r.limitations)),
    "</article>".toList].flatten

def styleSheet : List Char :=
  ("body\x7bfont:16px system-ui;max-width:1100px;margin:2rem auto;" ++
    "padding:0 1rem\x7dtable\x7bborder-collapse:collapse\x7dtd,th\x7bborder:1px solid " ++
    "#aaa;padding:.5rem;text-align:left\x7darticle\x7bborder-top:1px solid #ccc;" ++
    "margin-top:1.5rem\x7d").toList

/-- `_html_report` -/
def htmlReport (runId commit : String) (summary : Summary) (records : List (EvidenceRecord F)) :
    List Char :=
  ["<!doctype html><html lang=\"en\"><head><meta charset=\"utf-8\">".toList,
    "<meta name=\"viewport\" content=\"width=device-width,initial-scale=1\">".toList,
    "<title>Aspis evidence report</title><style>".toList, styleSheet,
    "</style></head><body><h1>Aspis evidence report</h1><p><strong>Run:</strong> ".toList,
    html runId, "<br><strong>Target commit:</strong> ".toList, html commit, "</p>".toList,
    "<h2>Summary</h2><table><thead><tr><th>Target</th><th>Pass</th>".toList,
    "<th>Fail</th><th>Inconclusive</th><th>Error</th></tr></thead><tbody>".toList,
    summary.targets.flatMap summaryRow, "</tbody></table><h2>Control results</h2>".toList,
    records.flatMap finding, "</body></html>".toList].flatten

/-! Its parts. -/

section Parts
open Markup

def tag (name : String) : Part := .tag name.toList
def text (s : String) : Part := .text s.toList

def cellParts (content : String) : List Part := [[tag "td"], [text content], [tag "/td"]].flatten

def rowParts (row : String × StatusCounts) : List Part :=
  [[tag "tr"], cellParts row.1, cellParts (toString (row.2 .pass)),
    cellParts (toString (row.2 .fail)), cellParts (toString (row.2 .inconclusive)),
    cellParts (toString (row.2 .error)), [tag "/tr"]].flatten

def paragraphParts (label : String) (content : List Part) : List Part :=
  [[tag "p", tag "strong"], [text label], [text ":", tag "/strong", text " "], content,
    [tag "/p"]].flatten

def findingParts (r : EvidenceRecord F) : List Part :=
  [[tag "article", tag "h3"], [text r.controlId], [text ": "], [text r.title], [tag "/h3"],
    paragraphParts "Status" [text (Text.upper r.status.name)],
    paragraphParts "Target" [text r.target],
    paragraphParts "Framework"
      [[text r.framework], [text " ("], [text (commas r.frameworkIds)], [text ")"]].flatten,
    paragraphParts "Source evidence" [text ("; ".intercalate r.sourceEvidence)],
    paragraphParts "Evidence" [text (semicolons r.executionEvidence)],
    paragraphParts "Counter-evidence" [text (semicolons r.counterEvidence)],
    paragraphParts "Remediation" [text (orNone r.remediation)],
    paragraphParts "Limitations" [text (semicolons r.limitations)],
    [tag "/article"]].flatten

/-- What the document says, every value as it is. -/
def reportParts (runId commit : String) (summary : Summary) (records : List (EvidenceRecord F)) :
    List Part :=
  [[tag "!doctype html", tag "html lang=\"en\"", tag "head", tag "meta charset=\"utf-8\""],
    [tag "meta name=\"viewport\" content=\"width=device-width,initial-scale=1\""],
    [tag "title", text "Aspis evidence report", tag "/title", tag "style"], [.text styleSheet],
    [tag "/style", tag "/head", tag "body", tag "h1", text "Aspis evidence report", tag "/h1",
      tag "p", tag "strong", text "Run:", tag "/strong", text " "],
    [text runId], [tag "br", tag "strong", text "Target commit:", tag "/strong", text " "],
    [text commit], [tag "/p"],
    [tag "h2", text "Summary", tag "/h2", tag "table", tag "thead", tag "tr", tag "th",
      text "Target", tag "/th", tag "th", text "Pass", tag "/th"],
    [tag "th", text "Fail", tag "/th", tag "th", text "Inconclusive", tag "/th", tag "th",
      text "Error", tag "/th", tag "/tr", tag "/thead", tag "tbody"],
    summary.targets.flatMap rowParts,
    [tag "/tbody", tag "/table", tag "h2", text "Control results", tag "/h2"],
    records.flatMap findingParts, [tag "/body", tag "/html"]].flatten

theorem render_text (s : String) : render [text s] = html s := by
  simp [render, text, Part.render, html]

theorem isDigit_digits (n : Nat) : ∀ c ∈ digits n, c.isDigit = true := by
  intro c hc
  simp only [digits, toString, Nat.toList_repr] at hc
  exact Nat.isDigit_of_mem_toDigits (by decide) (by decide) hc

theorem html_digits (n : Nat) : html (toString n) = digits n := by
  refine escape_plain fun c hc => ?_
  have hdigit := isDigit_digits n c hc
  simp only [List.mem_cons, List.not_mem_nil, or_false, not_or]
  refine ⟨?_, ?_, ?_, ?_, ?_⟩ <;> rintro rfl <;> exact absurd hdigit (by decide)

/-- A document and its parts, piece by piece. -/
theorem render_pieces {pieces : List (List Part)} {written : List (List Char)}
    (h : List.Forall₂ (fun parts s => render parts = s) pieces written) :
    render pieces.flatten = written.flatten := by
  induction h with
  | nil => rfl
  | cons hpiece _ ih => rw [List.flatten_cons, List.flatten_cons, render_append, hpiece, ih]

theorem cellParts_render (content : String) :
    render (cellParts content) = summaryCell (html content) := by
  refine render_pieces ?_
  simp only [List.forall₂_cons, List.forall₂_nil_right_iff, and_true]
  exact ⟨by decide, render_text _, by decide⟩

theorem digitsParts_render (n : Nat) :
    render (cellParts (toString n)) = summaryCell (digits n) := by
  rw [cellParts_render, html_digits]

theorem rowParts_render (row : String × StatusCounts) : render (rowParts row) = summaryRow row := by
  refine render_pieces ?_
  simp only [List.forall₂_cons, List.forall₂_nil_right_iff, and_true]
  exact ⟨by decide, cellParts_render _, digitsParts_render _, digitsParts_render _,
    digitsParts_render _, digitsParts_render _, by decide⟩

theorem paragraphParts_render {label : String} (hlabel : html label = label.toList)
    {content : List Part} {s : List Char} (hcontent : render content = s) :
    render (paragraphParts label content) = paragraph label s := by
  refine render_pieces ?_
  simp only [List.forall₂_cons, List.forall₂_nil_right_iff, and_true]
  exact ⟨by decide, (render_text label).trans hlabel, by decide, hcontent, by decide⟩

theorem findingParts_render (r : EvidenceRecord F) : render (findingParts r) = finding r := by
  have hframework : render
      [[text r.framework], [text " ("], [text (commas r.frameworkIds)], [text ")"]].flatten =
      [html r.framework, " (".toList, html (commas r.frameworkIds), ")".toList].flatten := by
    refine render_pieces ?_
    simp only [List.forall₂_cons, List.forall₂_nil_right_iff, and_true]
    exact ⟨render_text _, by decide, render_text _, by decide⟩
  refine render_pieces ?_
  simp only [List.forall₂_cons, List.forall₂_nil_right_iff, and_true]
  exact ⟨by decide, render_text _, by decide, render_text _, by decide,
    paragraphParts_render (by decide) (render_text _),
    paragraphParts_render (by decide) (render_text _),
    paragraphParts_render (by decide) hframework,
    paragraphParts_render (by decide) (render_text _),
    paragraphParts_render (by decide) (render_text _),
    paragraphParts_render (by decide) (render_text _),
    paragraphParts_render (by decide) (render_text _),
    paragraphParts_render (by decide) (render_text _), by decide⟩

theorem render_flatMap {α : Type} {f : α → List Part} {g : α → List Char}
    (h : ∀ x, render (f x) = g x) (items : List α) : render (items.flatMap f) = items.flatMap g := by
  induction items with
  | nil => rfl
  | cons x items ih => rw [List.flatMap_cons, List.flatMap_cons, render_append, h, ih]

theorem reportParts_render (runId commit : String) (summary : Summary)
    (records : List (EvidenceRecord F)) :
    render (reportParts runId commit summary records) =
      htmlReport runId commit summary records := by
  have hstyle : render [.text styleSheet] = styleSheet := by
    have hplain : escape styleSheet = styleSheet := escape_plain (by decide +kernel)
    rw [render, List.flatMap_singleton, Part.render, hplain]
  refine render_pieces ?_
  simp only [List.forall₂_cons, List.forall₂_nil_right_iff, and_true]
  exact ⟨by decide +kernel, by decide +kernel, by decide +kernel, hstyle, by decide +kernel,
    render_text _, by decide +kernel, render_text _, by decide, by decide +kernel,
    by decide +kernel, render_flatMap rowParts_render _, by decide +kernel,
    render_flatMap findingParts_render _, by decide⟩

theorem text_closed (s : String) : Closed [text s] := by simp [Closed, text, Part.Closed]

theorem cellParts_closed (content : String) : Closed (cellParts content) := by
  refine closed_flatten ?_
  simp only [List.forall_mem_cons, List.not_mem_nil, IsEmpty.forall_iff, implies_true, and_true]
  exact ⟨by decide, text_closed _, by decide⟩

theorem rowParts_closed (row : String × StatusCounts) : Closed (rowParts row) := by
  refine closed_flatten ?_
  simp only [List.forall_mem_cons, List.not_mem_nil, IsEmpty.forall_iff, implies_true, and_true]
  exact ⟨by decide, cellParts_closed _, cellParts_closed _, cellParts_closed _,
    cellParts_closed _, cellParts_closed _, by decide⟩

theorem paragraphParts_closed (label : String) {content : List Part} (h : Closed content) :
    Closed (paragraphParts label content) := by
  refine closed_flatten ?_
  simp only [List.forall_mem_cons, List.not_mem_nil, IsEmpty.forall_iff, implies_true, and_true]
  exact ⟨by decide, text_closed _, by decide, h, by decide⟩

theorem findingParts_closed (r : EvidenceRecord F) : Closed (findingParts r) := by
  have hframework : Closed
      [[text r.framework], [text " ("], [text (commas r.frameworkIds)], [text ")"]].flatten := by
    refine closed_flatten ?_
    simp only [List.forall_mem_cons, List.not_mem_nil, IsEmpty.forall_iff, implies_true, and_true]
    exact ⟨text_closed _, text_closed _, text_closed _, text_closed _⟩
  refine closed_flatten ?_
  simp only [List.forall_mem_cons, List.not_mem_nil, IsEmpty.forall_iff, implies_true, and_true]
  exact ⟨by decide, text_closed _, text_closed _, text_closed _, by decide,
    paragraphParts_closed _ (text_closed _), paragraphParts_closed _ (text_closed _),
    paragraphParts_closed _ hframework, paragraphParts_closed _ (text_closed _),
    paragraphParts_closed _ (text_closed _), paragraphParts_closed _ (text_closed _),
    paragraphParts_closed _ (text_closed _), paragraphParts_closed _ (text_closed _), by decide⟩

theorem reportParts_closed (runId commit : String) (summary : Summary)
    (records : List (EvidenceRecord F)) : Closed (reportParts runId commit summary records) := by
  refine closed_flatten ?_
  simp only [List.forall_mem_cons, List.not_mem_nil, IsEmpty.forall_iff, implies_true, and_true]
  exact ⟨by decide +kernel, by decide +kernel, by decide +kernel, by decide +kernel,
    by decide +kernel, text_closed _, by decide, text_closed _, by decide, by decide +kernel,
    by decide +kernel, closed_flatMap rowParts_closed, by decide,
    closed_flatMap findingParts_closed, by decide⟩

/-- A reader of the document finds its own tags, and every value as text that is as it was. -/
theorem report_inert (runId commit : String) (summary : Summary)
    (records : List (EvidenceRecord F)) :
    tokens (htmlReport runId commit summary records) =
      merge [] (reportParts runId commit summary records) := by
  rw [← reportParts_render]
  exact tokens_render (reportParts_closed runId commit summary records)

end Parts

/-! The Markdown document. -/

/-- A number with two decimals, as its format writes it: on one line. -/
structure TwoDecimals (F : Type) where
  write : F → String
  oneLine : ∀ x, ∀ c ∈ (write x).toList, c ≠ '\n' ∧ c ≠ '\r'

def safeChar : Char → List Char
  | '&' => "&amp;".toList
  | '<' => "&lt;".toList
  | '>' => "&gt;".toList
  | '\x60' => "&#96;".toList
  | '|' => "\\|".toList
  | '\r' => " ".toList
  | '\n' => " ".toList
  | c => [c]

/-- `safe` -/
def safe (s : String) : List Char := s.toList.flatMap safeChar

def markdownRow (row : String × StatusCounts) : List Char :=
  ["| ".toList, safe row.1, " | ".toList, digits (row.2 .pass), " | ".toList,
    digits (row.2 .fail), " | ".toList, digits (row.2 .inconclusive), " | ".toList,
    digits (row.2 .error), " |".toList].flatten

def markdownFinding (decimals : TwoDecimals F) (r : EvidenceRecord F) : List (List Char) :=
  [["### ".toList, safe r.controlId, ": ".toList, safe r.title].flatten, [],
    ["- Status: **".toList, (Text.upper r.status.name).toList, "**".toList].flatten,
    ["- Target: `".toList, safe r.target, "`".toList].flatten,
    ["- Framework: ".toList, safe r.framework, " (".toList, safe (commas r.frameworkIds),
      ")".toList].flatten,
    ["- Severity: ".toList, r.severity.name.toList].flatten,
    ["- Confidence: ".toList, (decimals.write r.confidence).toList].flatten,
    ["- Source evidence: ".toList, safe ("; ".intercalate r.sourceEvidence)].flatten,
    ["- Evidence: ".toList, safe (semicolons r.executionEvidence)].flatten,
    ["- Counter-evidence: ".toList, safe (semicolons r.counterEvidence)].flatten,
    ["- Remediation: ".toList, safe (orNone r.remediation)].flatten,
    ["- Limitations: ".toList, safe (semicolons r.limitations)].flatten, []]

def markdownLines (decimals : TwoDecimals F) (runId commit : String) (summary : Summary)
    (records : List (EvidenceRecord F)) : List (List Char) :=
  ["# Aspis evidence report".toList, [], ["- Run: `".toList, safe runId, "`".toList].flatten,
    ["- Target commit: `".toList, safe commit, "`".toList].flatten, [], "## Summary".toList, [],
    "| Target | Pass | Fail | Inconclusive | Error |".toList,
    "|---|---:|---:|---:|---:|".toList] ++
    summary.targets.map markdownRow ++ [[], "## Control results".toList, []] ++
    records.flatMap (markdownFinding decimals)

/-- `_markdown` -/
def markdown (decimals : TwoDecimals F) (runId commit : String) (summary : Summary)
    (records : List (EvidenceRecord F)) : List Char :=
  ['\n'].intercalate (markdownLines decimals runId commit summary records)

section Markdown

/-- What has no line break in it. -/
def OneLine (s : List Char) : Prop := ∀ c ∈ s, c ≠ '\n' ∧ c ≠ '\r'

instance : DecidablePred OneLine := fun s => List.decidableBAll (fun c => c ≠ '\n' ∧ c ≠ '\r') s

theorem oneLine_flatten {pieces : List (List Char)} (h : ∀ piece ∈ pieces, OneLine piece) :
    OneLine pieces.flatten := by
  intro c hc
  obtain ⟨piece, hpiece, hc⟩ := List.mem_flatten.mp hc
  exact h piece hpiece c hc

/-- The characters that a value cannot bring into the document. -/
def markupChars : List Char := ['<', '>', '\x60', '\n', '\r']

theorem safe_chars (s : String) : ∀ c ∈ safe s, c ∉ markupChars := by
  have hchar : ∀ d, ∀ c ∈ safeChar d, c ∉ markupChars := by
    intro d
    unfold safeChar
    split
    case h_8 hamp hlt hgt hquote hpipe hreturn hline =>
      intro c hc
      obtain rfl := List.mem_singleton.mp hc
      simp only [markupChars, List.mem_cons, List.not_mem_nil, or_false, not_or]
      exact ⟨hlt, hgt, hquote, hline, hreturn⟩
    all_goals decide
  intro c hc
  obtain ⟨d, -, hc⟩ := List.mem_flatMap.mp hc
  exact hchar d c hc

theorem safe_oneLine (s : String) : OneLine (safe s) := by
  intro c hc
  have hchars := safe_chars s c hc
  constructor <;> rintro rfl <;> exact hchars (by decide)

theorem digits_oneLine (n : Nat) : OneLine (digits n) := by
  intro c hc
  have hdigit := isDigit_digits n c hc
  constructor <;> rintro rfl <;> exact absurd hdigit (by decide)

theorem markdownRow_oneLine (row : String × StatusCounts) : OneLine (markdownRow row) := by
  refine oneLine_flatten ?_
  simp only [List.forall_mem_cons, List.not_mem_nil, IsEmpty.forall_iff, implies_true, and_true]
  exact ⟨by decide, safe_oneLine _, by decide, digits_oneLine _, by decide, digits_oneLine _,
    by decide, digits_oneLine _, by decide, digits_oneLine _, by decide⟩

theorem field_oneLine {label s : List Char} (hlabel : OneLine label) (h : OneLine s) :
    OneLine [label, s].flatten := by
  refine oneLine_flatten ?_
  simp only [List.forall_mem_cons, List.not_mem_nil, IsEmpty.forall_iff, implies_true, and_true]
  exact ⟨hlabel, h⟩

theorem closed_oneLine {label s mark : List Char} (hlabel : OneLine label) (h : OneLine s)
    (hmark : OneLine mark) : OneLine [label, s, mark].flatten := by
  refine oneLine_flatten ?_
  simp only [List.forall_mem_cons, List.not_mem_nil, IsEmpty.forall_iff, implies_true, and_true]
  exact ⟨hlabel, h, hmark⟩

theorem status_oneLine (status : EvidenceStatus) :
    OneLine (Text.upper status.name).toList := by
  cases status <;> decide +kernel

theorem severity_oneLine (severity : EvidenceSeverity) : OneLine severity.name.toList := by
  cases severity <;> decide

theorem markdownFinding_oneLine (decimals : TwoDecimals F) (r : EvidenceRecord F) :
    ∀ line ∈ markdownFinding decimals r, OneLine line := by
  have hheading : OneLine ["### ".toList, safe r.controlId, ": ".toList, safe r.title].flatten := by
    refine oneLine_flatten ?_
    simp only [List.forall_mem_cons, List.not_mem_nil, IsEmpty.forall_iff, implies_true, and_true]
    exact ⟨by decide, safe_oneLine _, by decide, safe_oneLine _⟩
  have hframework : OneLine ["- Framework: ".toList, safe r.framework, " (".toList,
      safe (commas r.frameworkIds), ")".toList].flatten := by
    refine oneLine_flatten ?_
    simp only [List.forall_mem_cons, List.not_mem_nil, IsEmpty.forall_iff, implies_true, and_true]
    exact ⟨by decide, safe_oneLine _, by decide, safe_oneLine _, by decide⟩
  simp only [markdownFinding, List.forall_mem_cons, List.not_mem_nil, IsEmpty.forall_iff,
    implies_true, and_true]
  exact ⟨hheading, by decide, closed_oneLine (by decide) (status_oneLine _) (by decide),
    closed_oneLine (by decide) (safe_oneLine _) (by decide), hframework,
    field_oneLine (by decide) (severity_oneLine _),
    field_oneLine (by decide) (decimals.oneLine _),
    field_oneLine (by decide) (safe_oneLine _), field_oneLine (by decide) (safe_oneLine _),
    field_oneLine (by decide) (safe_oneLine _), field_oneLine (by decide) (safe_oneLine _),
    field_oneLine (by decide) (safe_oneLine _), by decide⟩

theorem markdownLines_oneLine (decimals : TwoDecimals F) (runId commit : String)
    (summary : Summary) (records : List (EvidenceRecord F)) :
    ∀ line ∈ markdownLines decimals runId commit summary records, OneLine line := by
  simp only [markdownLines, List.forall_mem_append, List.forall_mem_cons, List.not_mem_nil,
    IsEmpty.forall_iff, implies_true, and_true]
  refine ⟨⟨⟨⟨by decide, by decide, closed_oneLine (by decide) (safe_oneLine _) (by decide),
    closed_oneLine (by decide) (safe_oneLine _) (by decide), by decide, by decide, by decide,
    by decide, by decide⟩, ?_⟩, by decide, by decide, by decide⟩, ?_⟩
  · intro line hline
    obtain ⟨row, -, rfl⟩ := List.mem_map.mp hline
    exact markdownRow_oneLine row
  · intro line hline
    obtain ⟨r, -, hline⟩ := List.mem_flatMap.mp hline
    exact markdownFinding_oneLine decimals r line hline

end Markdown

end Bantam.Aspis
