import Bantam.Schema
import Bantam.Lib.Locks
import Bantam.Lib.Runs

/-! `Database.apply_migrations` run by any number of replicas, one statement at a time. The
scripts are executed by a database of any kind; what a transaction has not committed is lost
with its replica, and the session lock is given up with the session. -/
namespace Bantam

/-- A migration file: its name, which is the version that is recorded, and its statements. -/
structure MigrationFile (α : Type) where
  name : String
  statements : List α

/-- `sorted(MIGRATIONS.glob("*.sql"))` -/
structure MigrationFiles (α : Type) where
  files : List (MigrationFile α)
  sorted : (files.map MigrationFile.name).Pairwise (· < ·)

/-- What is committed: whether `schema_migrations` exists, its rows in the order of their
insertion, and what the scripts have made. -/
structure MigrationDb (σ : Type) where
  table : Bool
  versions : List String
  schema : σ

/-- The statement that a replica runs next; `rest` are the files that its loop has yet to reach.
From `creating` to `unlocking` its session has the advisory lock. An `unlock` that fails in a
session that lives on leaves the lock with it. -/
inductive ReplicaPhase (α σ : Type) where
  | locking
  | creating
  | checking (rest : List (MigrationFile α))
  | running (file : MigrationFile α) (statements : List α) (working : σ)
      (rest : List (MigrationFile α))
  | recording (file : MigrationFile α) (working : σ) (rest : List (MigrationFile α))
  | committing (file : MigrationFile α) (working : σ) (rest : List (MigrationFile α))
  | granting (left : Nat)
  | unlocking (succeeded : Bool)
  | leaked
  | returned (succeeded : Bool)
  | stopped

structure Replica (α σ : Type) where
  runtimeGrantee : Option String
  phase : ReplicaPhase α σ

variable {α σ : Type}

namespace Replica

def become (r : Replica α σ) (phase : ReplicaPhase α σ) : Replica α σ := { r with phase := phase }

/-- `pg_advisory_lock(hashtext('bantam_schema_migrations'))`, while the session has it. -/
def locks (r : Replica α σ) : List Unit :=
  match r.phase with
  | .locking | .returned _ | .stopped => []
  | _ => [()]

/-- What follows the last file: the grants to the runtime role, where one is named. -/
def afterFiles (r : Replica α σ) : ReplicaPhase α σ :=
  match r.runtimeGrantee with
  | none => .unlocking true
  | some _ => .granting 7

/-- The next statement of a replica; `blocked` tells that another session has the lock. -/
def advance {ε : Type} (execute : α → σ → Except ε σ) (files : MigrationFiles α) (blocked : Bool)
    (r : Replica α σ) (db : MigrationDb σ) : ReplicaPhase α σ × MigrationDb σ :=
  match r.phase with
  | .locking => (if blocked then .locking else .creating, db)
  | .creating => (.checking files.files, { db with table := true })
  | .checking [] => (r.afterFiles, db)
  | .checking (file :: rest) =>
    if db.table = false then (.unlocking false, db)
    else if file.name ∈ db.versions then (.checking rest, db)
    else (.running file file.statements db.schema rest, db)
  | .running file [] working rest => (.recording file working rest, db)
  | .running file (statement :: statements) working rest =>
    match execute statement working with
    | .ok working => (.running file statements working rest, db)
    | .error _ => (.unlocking false, db)
  | .recording file working rest =>
    if file.name ∈ db.versions then (.unlocking false, db) else (.committing file working rest, db)
  | .committing file working rest =>
    (.checking rest, { db with versions := db.versions ++ [file.name], schema := working })
  | .granting 0 => (.unlocking true, db)
  | .granting (left + 1) => (.granting left, db)
  | .unlocking succeeded => (.returned succeeded, db)
  | .leaked | .returned _ | .stopped => (r.phase, db)

/-- Where the error of a statement leads: what is not committed is rolled back, and the lock is
given up where the `try` had been entered. -/
def fail (r : Replica α σ) : ReplicaPhase α σ :=
  match r.phase with
  | .locking => .returned false
  | .unlocking _ => .leaked
  | .leaked | .returned _ | .stopped => r.phase
  | _ => .unlocking false
end Replica

structure MigrationState (α σ : Type) where
  db : MigrationDb σ
  replicas : List (Replica α σ)

/-- `begin` is a replica that starts, `advance` the next statement of the `i`-th one, `fail` an
error of that statement, and `stop` the end of its process and of its session. -/
inductive MigrationEvent where
  | begin (runtimeGrantee : Option String)
  | advance (i : Nat)
  | fail (i : Nat)
  | stop (i : Nat)

def MigrationState.move (s : MigrationState α σ) (i : Nat) (r : Replica α σ)
    (phase : ReplicaPhase α σ) (db : MigrationDb σ) : MigrationState α σ :=
  ⟨db, s.replicas.set i (r.become phase)⟩

def migrationStep {ε : Type} (execute : α → σ → Except ε σ) (files : MigrationFiles α)
    (s : MigrationState α σ) : MigrationEvent → MigrationState α σ
  | .begin runtimeGrantee =>
    -- without files `apply_migrations` raises before it takes a connection
    { s with replicas := s.replicas ++
        [⟨runtimeGrantee, if files.files = [] then .returned false else .locking⟩] }
  | .advance i =>
    match s.replicas[i]? with
    | none => s
    | some r =>
      let (phase, db) :=
        r.advance execute files (Locks.heldByOther Replica.locks s.replicas i ()) s.db
      s.move i r phase db
  | .fail i =>
    match s.replicas[i]? with
    | none => s
    | some r => s.move i r r.fail s.db
  | .stop i =>
    match s.replicas[i]? with
    | none => s
    | some r => s.move i r .stopped s.db

section Order
variable {ε : Type} {execute : α → σ → Except ε σ} {files : MigrationFiles α}

/-- What statements make of a schema, one after another. -/
def runStatements (execute : α → σ → Except ε σ) (statements : List α) (schema : σ) : Except ε σ :=
  statements.foldlM (fun schema statement => execute statement schema) schema

theorem runStatements_append {first second : List α} {schema mid : σ}
    (h : runStatements execute first schema = .ok mid) :
    runStatements execute (first ++ second) schema = runStatements execute second mid := by
  unfold runStatements at h ⊢
  rw [List.foldlM_append, h]
  rfl

/-- The loop has come to `rest`: every file before it is recorded. -/
def Reached (files : MigrationFiles α) (db : MigrationDb σ) (rest : List (MigrationFile α)) :
    Prop :=
  ∃ earlier, files.files = earlier ++ rest ∧ ∀ f ∈ earlier, f.name ∈ db.versions

/-- The transaction of a file is open: the file is not recorded, and `working` is what the
statements before `statements` have made of the committed schema. -/
structure InTransaction (execute : α → σ → Except ε σ) (files : MigrationFiles α)
    (db : MigrationDb σ) (file : MigrationFile α) (statements : List α) (working : σ)
    (rest : List (MigrationFile α)) : Prop where
  reached : Reached files db (file :: rest)
  unrecorded : file.name ∉ db.versions
  made : ∃ past, file.statements = past ++ statements ∧
    runStatements execute past db.schema = .ok working

/-- What the phase of a replica tells of the database. -/
def Replica.Knows (execute : α → σ → Except ε σ) (files : MigrationFiles α) (db : MigrationDb σ)
    (r : Replica α σ) : Prop :=
  match r.phase with
  | .checking rest => Reached files db rest
  | .running file statements working rest =>
    InTransaction execute files db file statements working rest
  | .recording file working rest | .committing file working rest =>
    InTransaction execute files db file [] working rest
  | .granting _ | .unlocking true | .returned true => Reached files db []
  | _ => True

theorem Reached.mono {db db' : MigrationDb σ} {rest : List (MigrationFile α)}
    (h : Reached files db rest) (hversions : ∀ v ∈ db.versions, v ∈ db'.versions) :
    Reached files db' rest := by
  obtain ⟨earlier, hfiles, hrecorded⟩ := h
  exact ⟨earlier, hfiles, fun f hf => hversions _ (hrecorded f hf)⟩

theorem Reached.next {db : MigrationDb σ} {file : MigrationFile α}
    {rest : List (MigrationFile α)} (h : Reached files db (file :: rest))
    (hfile : file.name ∈ db.versions) : Reached files db rest := by
  obtain ⟨earlier, hfiles, hrecorded⟩ := h
  refine ⟨earlier ++ [file], by rw [hfiles, List.append_assoc]; rfl, fun f hf => ?_⟩
  cases List.mem_append.mp hf with
  | inl hearlier => exact hrecorded f hearlier
  | inr hlast => exact List.mem_singleton.mp hlast ▸ hfile

/-- A replica without the lock knows nothing that a commit of another could undo. -/
theorem Replica.Knows.mono {db db' : MigrationDb σ} {r : Replica α σ}
    (h : r.Knows execute files db) (hlocks : r.locks = [])
    (hversions : ∀ v ∈ db.versions, v ∈ db'.versions) : r.Knows execute files db' := by
  unfold Replica.Knows at h ⊢
  unfold Replica.locks at hlocks
  cases hp : r.phase with
  | returned succeeded =>
    simp only [hp] at h ⊢
    cases succeeded with
    | false => trivial
    | true => exact h.mono hversions
  | locking => trivial
  | stopped => trivial
  | _ => simp [hp] at hlocks

/-- The files whose versions were not recorded at the start. -/
def MigrationFiles.pending (files : MigrationFiles α) (versions : List String) :
    List (MigrationFile α) :=
  files.files.filter fun f => f.name ∉ versions

/-- What is committed is what was there at the start and the first of the pending files, each
recorded and run as a whole. -/
def Applied (execute : α → σ → Except ε σ) (files : MigrationFiles α) (start : MigrationDb σ)
    (db : MigrationDb σ) (applied : List (MigrationFile α)) : Prop :=
  applied <+: files.pending start.versions ∧
  db.versions = start.versions ++ applied.map MigrationFile.name ∧
  runStatements execute (applied.flatMap MigrationFile.statements) start.schema = .ok db.schema

structure Ordered (execute : α → σ → Except ε σ) (files : MigrationFiles α)
    (start : MigrationDb σ) (s : MigrationState α σ) : Prop where
  exclusive : Locks.Exclusive Replica.locks s.replicas
  knows : ∀ r ∈ s.replicas, r.Knows execute files s.db
  applied : ∃ applied, Applied execute files start s.db applied

/-- A prefix that has all before `x` and not `x` itself ends before it. -/
theorem prefix_eq_before {β : Type} {l before rest : List β} {x : β}
    (h : l <+: before ++ x :: rest) (hnodup : (before ++ x :: rest).Nodup) (hx : x ∉ l)
    (hall : ∀ y ∈ before, y ∈ l) : l = before := by
  cases List.prefix_or_prefix_of_prefix h (List.prefix_append before (x :: rest)) with
  | inl hshort =>
    obtain ⟨more, rfl⟩ := hshort
    cases more with
    | nil => rw [List.append_nil]
    | cons y more =>
      have hy : y ∈ l := hall y (by simp)
      have hdisjoint := (List.nodup_append.mp (List.Nodup.of_append_left hnodup)).2.2
      exact absurd rfl (hdisjoint y hy y List.mem_cons_self)
  | inr hlong =>
    obtain ⟨more, rfl⟩ := hlong
    cases more with
    | nil => rw [List.append_nil]
    | cons y more =>
      have hmore := (List.prefix_append_right_inj before).mp h
      have hy : y = x := (List.cons_prefix_cons.mp hmore).1
      exact absurd (by simp [hy]) hx

theorem MigrationFiles.names_nodup (files : MigrationFiles α) :
    (files.files.map MigrationFile.name).Nodup := by
  refine List.Pairwise.imp ?_ files.sorted
  intro a b h he
  exact String.lt_irrefl b (he ▸ h)

/-- A file that a transaction commits is the next of the pending ones. -/
theorem Applied.commit {start db : MigrationDb σ} {applied : List (MigrationFile α)}
    (h : Applied execute files start db applied) {file : MigrationFile α} {working : σ}
    {rest : List (MigrationFile α)} (ht : InTransaction execute files db file [] working rest) :
    Applied execute files start
      { db with versions := db.versions ++ [file.name], schema := working }
      (applied ++ [file]) := by
  obtain ⟨hinitial, hversions, hschema⟩ := h
  obtain ⟨⟨earlier, hfiles, hrecorded⟩, hunrecorded, past, hpast, hmade⟩ := ht
  have hstart : file.name ∉ start.versions := fun hmem =>
    hunrecorded (hversions ▸ List.mem_append_left _ hmem)
  have hpending : files.pending start.versions =
      earlier.filter (fun f => f.name ∉ start.versions) ++
        file :: rest.filter (fun f => f.name ∉ start.versions) := by
    rw [MigrationFiles.pending, hfiles, List.filter_append,
      List.filter_cons_of_pos (by simpa using hstart)]
  have hnodup : (files.pending start.versions).Nodup :=
    (List.Nodup.of_map _ files.names_nodup).filter _
  have hsub : ∀ f ∈ applied, f ∈ files.files := fun f hf =>
    (List.mem_filter.mp (hinitial.subset hf)).1
  have hbefore : applied = earlier.filter fun f => f.name ∉ start.versions := by
    refine prefix_eq_before (hpending ▸ hinitial) (hpending ▸ hnodup) (fun hmem => ?_) fun f hf => ?_
    · exact hunrecorded (hversions ▸ List.mem_append_right _ (List.mem_map_of_mem hmem))
    · obtain ⟨hearlier, hnew⟩ := List.mem_filter.mp hf
      have hversion : f.name ∈ start.versions ++ applied.map MigrationFile.name :=
        hversions ▸ hrecorded f hearlier
      cases List.mem_append.mp hversion with
      | inl hold => exact absurd hold (of_decide_eq_true hnew)
      | inr happlied =>
        obtain ⟨g, hg, hname⟩ := List.mem_map.mp happlied
        have hin : f ∈ files.files := hfiles ▸ List.mem_append_left _ hearlier
        rw [← List.inj_on_of_nodup_map files.names_nodup (hsub g hg) hin hname]
        exact hg
  refine ⟨?_, ?_, ?_⟩
  · rw [hbefore, hpending]
    exact ⟨rest.filter fun f => f.name ∉ start.versions, by simp⟩
  · rw [hversions, List.map_append, List.append_assoc]
    rfl
  · rw [List.flatMap_append, runStatements_append hschema]
    simp only [List.flatMap_cons, List.flatMap_nil, List.append_nil]
    rw [hpast, List.append_nil]
    exact hmade

section Steps
variable {start : MigrationDb σ} {s : MigrationState α σ} {i : Nat} {r : Replica α σ}

/-- A replica that moves without a commit. -/
theorem Ordered.move (h : Ordered execute files start s) {phase : ReplicaPhase α σ}
    (hlocks : ∀ l ∈ (r.become phase).locks, Locks.HoldsAt Replica.locks s.replicas i l ∨
      Locks.heldByOther Replica.locks s.replicas i l = false)
    (hknows : (r.become phase).Knows execute files s.db) :
    Ordered execute files start (s.move i r phase s.db) where
  exclusive := h.exclusive.set hlocks
  knows := fun u hu => by
    cases Locks.mem_set hu with
    | inl hmoved => exact hmoved ▸ hknows
    | inr hother =>
      obtain ⟨j, -, hj⟩ := hother
      exact h.knows u (List.mem_of_getElem? hj)
  applied := h.applied

/-- A replica that moves on with the lock that it has, or without it. -/
theorem Ordered.keep (h : Ordered execute files start s) (hi : s.replicas[i]? = some r)
    {phase : ReplicaPhase α σ} (hlocks : (r.become phase).locks = r.locks ∨
      (r.become phase).locks = []) (hknows : (r.become phase).Knows execute files s.db) :
    Ordered execute files start (s.move i r phase s.db) := by
  refine h.move (fun l hl => .inl ⟨r, hi, ?_⟩) hknows
  cases hlocks with
  | inl hsame => exact hsame ▸ hl
  | inr hnone =>
    rw [hnone] at hl
    cases hl

/-- While a replica has the lock, the others know nothing that its writes could undo. -/
theorem Ordered.others (h : Ordered execute files start s) (hi : s.replicas[i]? = some r)
    (hlock : r.locks = [()]) (db : MigrationDb σ) (phase : ReplicaPhase α σ)
    (hversions : ∀ v ∈ s.db.versions, v ∈ db.versions)
    (hknows : (r.become phase).Knows execute files db) :
    ∀ u ∈ s.replicas.set i (r.become phase), u.Knows execute files db := by
  intro u hu
  cases Locks.mem_set hu with
  | inl hmoved => exact hmoved ▸ hknows
  | inr hother =>
    obtain ⟨j, hne, hj⟩ := hother
    have hfree : u.locks = [] := List.eq_nil_iff_forall_not_mem.mpr fun l hl =>
      h.exclusive.disjoint hi hj hne.symm l (by rw [hlock]; exact List.mem_cons_self) hl
    exact (h.knows u (List.mem_of_getElem? hj)).mono hfree hversions

theorem Ordered.advance (h : Ordered execute files start s) (hi : s.replicas[i]? = some r) :
    Ordered execute files start
      (s.move i r
        (r.advance execute files (Locks.heldByOther Replica.locks s.replicas i ()) s.db).1
        (r.advance execute files (Locks.heldByOther Replica.locks s.replicas i ()) s.db).2) := by
  have hknows := h.knows r (List.mem_of_getElem? hi)
  have hstay : ∀ phase, r.phase = phase → Ordered execute files start (s.move i r phase s.db) := by
    rintro phase rfl
    exact h.keep hi (.inl rfl) hknows
  unfold Replica.Knows at hknows
  have locked : r.locks = [()] → ∀ phase, (r.become phase).Knows execute files s.db →
      Ordered execute files start (s.move i r phase s.db) := by
    intro hlock phase hphase
    refine h.move (fun l _ => .inl ⟨r, hi, ?_⟩) hphase
    rw [hlock]
    exact List.mem_cons_self
  unfold Replica.advance
  cases hp : r.phase with
  | locking =>
    simp only
    split_ifs with hblocked
    · exact hstay _ hp
    · exact h.move (fun _ _ => .inr (Bool.eq_false_iff.mpr hblocked)) trivial
  | creating =>
    have hlock : r.locks = [()] := by simp [Replica.locks, hp]
    have hreached : ∀ db : MigrationDb σ, Reached files db files.files :=
      fun db => ⟨[], rfl, fun f hf => by cases hf⟩
    exact ⟨(locked hlock (.checking files.files) (hreached s.db)).exclusive,
      h.others hi hlock { s.db with table := true } (.checking files.files) (fun v hv => hv)
        (hreached _), h.applied⟩
  | checking rest =>
    simp only [hp] at hknows
    have hlock : r.locks = [()] := by simp [Replica.locks, hp]
    cases rest with
    | nil =>
      refine locked hlock _ ?_
      unfold Replica.afterFiles
      cases r.runtimeGrantee <;> exact hknows
    | cons file rest =>
      simp only
      split_ifs with htable hrecorded
      · exact locked hlock _ trivial
      · exact locked hlock _ (hknows.next hrecorded)
      · exact locked hlock (.running file file.statements s.db.schema rest)
          ⟨hknows, hrecorded, [], rfl, rfl⟩
  | running file statements working rest =>
    simp only [hp] at hknows
    have hlock : r.locks = [()] := by simp [Replica.locks, hp]
    cases statements with
    | nil => exact locked hlock (.recording file working rest) hknows
    | cons statement statements =>
      simp only
      split
      · rename_i working' hok
        obtain ⟨past, hpast, hmade⟩ := hknows.made
        refine locked hlock (.running file statements working' rest)
          ⟨hknows.reached, hknows.unrecorded, past ++ [statement], by simp [hpast], ?_⟩
        rw [runStatements_append hmade]
        simp [runStatements, hok]
      · exact locked hlock _ trivial
  | recording file working rest =>
    simp only [hp] at hknows
    have hlock : r.locks = [()] := by simp [Replica.locks, hp]
    simp only
    split_ifs
    · exact locked hlock _ trivial
    · exact locked hlock (.committing file working rest) hknows
  | committing file working rest =>
    simp only [hp] at hknows
    have hlock : r.locks = [()] := by simp [Replica.locks, hp]
    have hversions : ∀ v ∈ s.db.versions, v ∈ s.db.versions ++ [file.name] :=
      fun v hv => List.mem_append_left _ hv
    obtain ⟨applied, happlied⟩ := h.applied
    refine ⟨h.exclusive.set fun l _ => .inl ⟨r, hi, ?_⟩, h.others hi hlock _ _ hversions ?_,
      applied ++ [file], happlied.commit hknows⟩
    · rw [hlock]
      exact List.mem_cons_self
    · exact (hknows.reached.mono hversions).next (List.mem_append_right _ List.mem_cons_self)
  | granting left =>
    simp only [hp] at hknows
    have hlock : r.locks = [()] := by simp [Replica.locks, hp]
    cases left with
    | zero => exact locked hlock (.unlocking true) hknows
    | succ left => exact locked hlock (.granting left) hknows
  | unlocking succeeded =>
    have hlock : r.locks = [()] := by simp [Replica.locks, hp]
    cases succeeded with
    | false => exact locked hlock _ trivial
    | true =>
      simp only [hp] at hknows
      exact locked hlock (.returned true) hknows
  | leaked => exact hstay _ hp
  | returned succeeded => exact hstay _ hp
  | stopped => exact hstay _ hp

theorem Ordered.fail (h : Ordered execute files start s) (hi : s.replicas[i]? = some r) :
    Ordered execute files start (s.move i r r.fail s.db) := by
  have hknows := h.knows r (List.mem_of_getElem? hi)
  have hstay : ∀ phase, r.phase = phase → Ordered execute files start (s.move i r phase s.db) := by
    rintro phase rfl
    exact h.keep hi (.inl rfl) hknows
  unfold Replica.fail
  cases hp : r.phase with
  | locking => exact h.keep hi (.inr rfl) trivial
  | leaked => exact hstay _ hp
  | returned succeeded => exact hstay _ hp
  | stopped => exact hstay _ hp
  | _ => exact h.keep hi (.inl (by simp [Replica.locks, Replica.become, hp])) trivial

theorem Ordered.step (e : MigrationEvent) (h : Ordered execute files start s) :
    Ordered execute files start (migrationStep execute files s e) := by
  cases e with
  | begin runtimeGrantee =>
    have hnew : ∀ phase : ReplicaPhase α σ, phase = (if files.files = [] then .returned false
        else .locking) → (⟨runtimeGrantee, phase⟩ : Replica α σ).locks = [] ∧
        (⟨runtimeGrantee, phase⟩ : Replica α σ).Knows execute files s.db := by
      rintro phase rfl
      split_ifs <;> exact ⟨rfl, trivial⟩
    refine ⟨h.exclusive.append (hnew _ rfl).1, fun r hr => ?_, h.applied⟩
    cases List.mem_append.mp hr with
    | inl hold => exact h.knows r hold
    | inr hlast => exact List.mem_singleton.mp hlast ▸ (hnew _ rfl).2
  | advance i =>
    simp only [migrationStep]
    split
    · exact h
    · rename_i r hi
      exact h.advance hi
  | fail i =>
    simp only [migrationStep]
    split
    · exact h
    · rename_i r hi
      exact h.fail hi
  | stop i =>
    simp only [migrationStep]
    split
    · exact h
    · rename_i r hi
      exact h.keep hi (.inr rfl) trivial

theorem ordered_run (execute : α → σ → Except ε σ) (files : MigrationFiles α)
    (start : MigrationDb σ) (es : List MigrationEvent) :
    Ordered execute files start (Runs.run (migrationStep execute files) ⟨start, []⟩ es) := by
  refine Runs.run_invariant (fun _ e h => h.step e)
    ⟨Locks.exclusive_nil, fun r hr => (by cases hr), ?_⟩ es
  exact ⟨[], List.nil_prefix, by simp, rfl⟩
end Steps

/-- At every moment of every run, from any recorded versions: beyond what was there at the start,
exactly the first of the pending files are recorded, in sorted order and each once, and the schema
is what their scripts make of it, each run as a whole. From no recorded versions, those recorded
are a prefix of the sorted list. -/
theorem migrations_in_order (execute : α → σ → Except ε σ) (files : MigrationFiles α)
    (start : MigrationDb σ) (es : List MigrationEvent) :
    let s := Runs.run (migrationStep execute files) ⟨start, []⟩ es
    (∃ applied, applied <+: files.pending start.versions ∧
      (applied.map MigrationFile.name).Pairwise (· < ·) ∧
      s.db.versions = start.versions ++ applied.map MigrationFile.name ∧
      runStatements execute (applied.flatMap MigrationFile.statements) start.schema =
        .ok s.db.schema) ∧
    (start.versions = [] → s.db.versions <+: files.files.map MigrationFile.name) := by
  intro s
  obtain ⟨applied, hinitial, hversions, hschema⟩ := (ordered_run execute files start es).applied
  have hsublist : applied.Sublist files.files := hinitial.sublist.trans List.filter_sublist
  refine ⟨⟨applied, hinitial, files.sorted.sublist (hsublist.map _), hversions, hschema⟩, ?_⟩
  intro hempty
  have hall : files.pending start.versions = files.files := by
    simp [MigrationFiles.pending, hempty]
  rw [hall] at hinitial
  rw [hversions, hempty, List.nil_append]
  exact hinitial.map _

/-- A replica that has returned without an error leaves every file recorded. -/
theorem migrations_complete (execute : α → σ → Except ε σ) (files : MigrationFiles α)
    (start : MigrationDb σ) (es : List MigrationEvent) :
    let s := Runs.run (migrationStep execute files) ⟨start, []⟩ es
    ∀ r ∈ s.replicas, r.phase = .returned true → ∀ f ∈ files.files, f.name ∈ s.db.versions := by
  intro s r hr hreturned f hf
  have hknows := (ordered_run execute files start es).knows r hr
  simp only [Replica.Knows, hreturned] at hknows
  obtain ⟨earlier, hfiles, hrecorded⟩ := hknows
  rw [List.append_nil] at hfiles
  exact hrecorded f (hfiles ▸ hf)
end Order
end Bantam
