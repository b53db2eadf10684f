import Bantam.AttackLab

/-! Every run of the attack lab: what a row was made of stays on record, and a simulation that is
run again comes to the result that it is stored with. -/
namespace Bantam
open Tables Runs

/-! Reading a table that has grown. -/

theorem lookup_grown {ρ κ : Type} [DecidableEq κ] {key : ρ → κ} {k : κ} {rows rows' : List ρ}
    {r : ρ} (h : rows <+: rows') (hr : lookup key k rows = some r) :
    lookup key k rows' = some r := by
  obtain ⟨more, rfl⟩ := h
  exact lookup_append_of_some more hr

/-- The rows of before are at their places. -/
structure LabDb.Grown (db db' : LabDb) : Prop where
  snapshots : db.snapshots <+: db'.snapshots
  sets : db.sets <+: db'.sets
  simulations : db.simulations <+: db'.simulations
  plans : db.plans <+: db'.plans

section Reads
variable {service : LabService} {db db' : LabDb} {scenarioSetId simulationId : Uuid}
  {graphSource : GraphSource} {snapshotId snapshotId' : Option Uuid} {catalog : Catalog}
  {set : ScenarioSetRow} {simulation : SimulationRow} {r : SimulationRequest}
  {selected : List Remediation}

theorem LabDb.Grown.refl (db : LabDb) : db.Grown db :=
  ⟨List.prefix_refl _, List.prefix_refl _, List.prefix_refl _, List.prefix_refl _⟩

theorem LabDb.Grown.trans {db'' : LabDb} (h : db.Grown db') (h' : db'.Grown db'') :
    db.Grown db'' :=
  ⟨h.snapshots.trans h'.snapshots, h.sets.trans h'.sets, h.simulations.trans h'.simulations,
    h.plans.trans h'.plans⟩

theorem setRow_ok : db.setRow scenarioSetId = .ok set ↔
    lookup ScenarioSetRow.scenarioSetId scenarioSetId db.sets = some set := by
  unfold LabDb.setRow
  cases lookup ScenarioSetRow.scenarioSetId scenarioSetId db.sets with
  | none => simp
  | some row => simp

theorem simulationRow_ok : db.simulationRow scenarioSetId simulationId = .ok simulation ↔
    lookup SimulationRow.simulationId simulationId db.simulations = some simulation ∧
      simulation.scenarioSetId = scenarioSetId := by
  unfold LabDb.simulationRow
  cases lookup SimulationRow.simulationId simulationId db.simulations with
  | none => simp
  | some row =>
    by_cases hset : row.scenarioSetId = scenarioSetId
    · simp only [hset, ne_eq, not_true_eq_false, if_false, Except.ok.injEq, Option.some.injEq]
      constructor
      · rintro rfl
        exact ⟨rfl, hset⟩
      · exact fun h => h.1
    · simp only [ne_eq, hset, not_false_eq_true, if_true, Option.some.injEq]
      constructor
      · exact fun h => nomatch h
      · rintro ⟨rfl, heq⟩
        exact absurd heq hset

theorem setRow_id (h : db.setRow scenarioSetId = .ok set) : set.scenarioSetId = scenarioSetId :=
  lookup_key (setRow_ok.mp h)

theorem setRow_mem (h : db.setRow scenarioSetId = .ok set) : set ∈ db.sets :=
  lookup_mem (setRow_ok.mp h)

theorem LabDb.Grown.setRow (h : db.Grown db') (hset : db.setRow scenarioSetId = .ok set) :
    db'.setRow scenarioSetId = .ok set :=
  setRow_ok.mpr (lookup_grown h.sets (setRow_ok.mp hset))

theorem LabDb.Grown.simulationRow (h : db.Grown db')
    (hrow : db.simulationRow scenarioSetId simulationId = .ok simulation) :
    db'.simulationRow scenarioSetId simulationId = .ok simulation := by
  obtain ⟨hfound, hset⟩ := simulationRow_ok.mp hrow
  exact simulationRow_ok.mpr ⟨lookup_grown h.simulations hfound, hset⟩

theorem LabDb.Grown.catalogFor (h : db.Grown db')
    (hcatalog : db.catalogFor service graphSource snapshotId = .ok (catalog, snapshotId')) :
    db'.catalogFor service graphSource snapshotId = .ok (catalog, snapshotId') := by
  unfold LabDb.catalogFor at hcatalog ⊢
  cases graphSource with
  | builtin => exact hcatalog
  | repositorySnapshot =>
    cases snapshotId with
    | none => cases hcatalog
    | some id =>
      dsimp only at hcatalog ⊢
      split at hcatalog
      · cases hcatalog
      · rename_i row hrow
        rw [lookup_grown h.snapshots hrow]
        exact hcatalog

/-- The identifier that is kept beside a catalogue finds the catalogue again. -/
theorem catalogFor_kept
    (h : db.catalogFor service graphSource snapshotId = .ok (catalog, snapshotId')) :
    db.catalogFor service graphSource snapshotId' = .ok (catalog, snapshotId') := by
  cases graphSource with
  | builtin =>
    cases h
    rfl
  | repositorySnapshot =>
    cases snapshotId with
    | none => cases h
    | some id =>
      have hsame : snapshotId' = some id := by
        unfold LabDb.catalogFor at h
        dsimp only at h
        split at h
        · cases h
        · cases h
          rfl
      rw [hsame] at h ⊢
      exact h

theorem LabDb.Grown.selection (h : db.Grown db')
    (hselected : db.selection scenarioSetId r = .ok selected) :
    db'.selection scenarioSetId r = .ok selected := by
  unfold LabDb.selection at hselected ⊢
  cases hplan : r.remediationPlanId with
  | none => simpa [hplan] using hselected
  | some planId =>
    rw [hplan] at hselected
    dsimp only at hselected ⊢
    cases hrow : lookup PlanRow.remediationPlanId planId db.plans with
    | none =>
      rw [hrow] at hselected
      cases hselected
    | some row =>
      rw [hrow] at hselected
      rw [lookup_grown h.plans hrow]
      exact hselected

/-- What is picked under an identifier has it. -/
theorem pick_id {plan : RemediationPlan} {identifier : String} {remediation : Remediation}
    (h : pick plan.available identifier = .ok remediation) :
    remediation.remediationId = identifier := by
  unfold pick at h
  split at h
  · rename_i found hfound
    cases h
    obtain ⟨source, -, heq⟩ := List.mem_map.mp (Dict.mem_ofList (Dict.get?_eq_some.mp hfound))
    cases heq
    rfl
  · cases h

/-- The identifiers of what was selected are a selection of the same. -/
theorem RemediationPlan.chosen_again (plan : RemediationPlan) {remediationIds : List String}
    (h : (plan.chosen remediationIds).mapM (pick plan.available) = .ok selected) :
    selected.map Remediation.remediationId = plan.chosen remediationIds ∧
    plan.chosen (selected.map Remediation.remediationId) = plan.chosen remediationIds := by
  have hids : selected.map Remediation.remediationId = plan.chosen remediationIds := by
    have hall := Fallible.mapM_eq_ok.mp h
    clear h
    generalize plan.chosen remediationIds = chosen at hall
    induction hall with
    | nil => rfl
    | cons hpick _ ih => rw [List.map_cons, ih, pick_id hpick]
  refine ⟨hids, ?_⟩
  rw [hids]
  unfold RemediationPlan.chosen
  split_ifs with hnone hkeys
  · rfl
  · rfl
  · rfl

/-- The remediations that a simulation records as applied select the same from its plan. -/
theorem selection_applied (h : db.selection scenarioSetId r = .ok selected) :
    db.selection scenarioSetId
      { r with remediationIds := selected.map Remediation.remediationId } = .ok selected := by
  unfold LabDb.selection at h ⊢
  cases hplan : r.remediationPlanId with
  | none => simpa [hplan] using h
  | some planId =>
    rw [hplan] at h
    dsimp only at h ⊢
    unfold selectedRemediations at h ⊢
    split at h
    · cases h
    · split_ifs at h ⊢ with hother
      split at h
      · cases h
      · rename_i plan _
        split_ifs at h with hunknown
        obtain ⟨-, hagain⟩ := plan.chosen_again h
        have hknown : plan.unknown (selected.map Remediation.remediationId) =
            plan.unknown r.remediationIds := by
          unfold RemediationPlan.unknown
          rw [hagain]
        rw [hknown, if_neg hunknown, hagain]
        exact h

end Reads

/-! What is on record of a row. -/

/-- The profile is the one that its version names: a committed one, or the default. -/
def OnRecord (service : FinancialsService) (profiles : List ProfileRow) (version : Int)
    (profile : FinancialProfile) (digest : String) : Prop :=
  (version = 0 ∧ profile = service.defaultProfile ∧ digest = profileDigest service.sha256 profile) ∨
  ∃ row, lookup ProfileRow.version version profiles = some row ∧ row.profile = profile ∧
    row.profileDigest = digest

/-- A set is what the service made of a catalogue and of a profile that are on record. -/
structure ScenarioSetRow.Pinned (service : LabService) (profiles : List ProfileRow) (db : LabDb)
    (row : ScenarioSetRow) : Prop where
  profile : OnRecord service.financials profiles row.financialProfileVersion row.financialProfile
    row.financialProfileDigest
  generated : ∃ catalog client requested n,
    db.catalogFor service row.graphSource row.snapshotId = .ok (catalog, row.snapshotId) ∧
    row.graphDigest = catalog.graphDigest ∧
    row.softwareInventory = buildSoftwareInventory service.casefold catalog ∧
    generateAttackScenarios service.graph catalog row.financialProfile.document
      row.softwareInventory.forModel client requested n = .ok row.modelResult

/-- The request that a simulation records comes to the result that it records. -/
def SimulationRow.Replays (service : LabService) (db : LabDb) (row : SimulationRow) : Prop :=
  db.replay service row.scenarioSetId row.request = .ok (some row.result)

/-- A plan is what the service made of a simulation, its scenario and the set of that. -/
def PlanRow.Chained (service : LabService) (db : LabDb) (row : PlanRow) : Prop :=
  ∃ set simulation scenario catalog client,
    db.setRow row.scenarioSetId = .ok set ∧
    db.simulationRow row.scenarioSetId row.simulationId = .ok simulation ∧
    simulation.scenarioId = row.scenarioId ∧ set.scenario row.scenarioId = .ok scenario ∧
    db.catalogFor service set.graphSource set.snapshotId = .ok (catalog, set.snapshotId) ∧
    generateRemediations service.graph scenario (service.reportJson simulation.result.baseline)
      set.financialProfile.document set.softwareInventory.forModel (graphEvidence scenario catalog)
      client = .ok row.modelResult

def LabRow.Sound (service : LabService) (profiles : List ProfileRow) (db : LabDb) :
    LabRow → Prop
  | .scenarioSet row => row.Pinned service profiles db
  | .simulation row => row.Replays service db
  | .plan row => row.Chained service db

/-- What a request has read is on record. -/
def LabStage.Sound (service : LabService) (profiles : List ProfileRow) (db : LabDb) :
    LabStage → Prop
  | .generating _ | .simulating _ _ | .remediating _ _ | .returned _ | .crashed => True
  | .catalogued r catalog snapshotId =>
    db.catalogFor service r.graphSource snapshotId = .ok (catalog, snapshotId)
  | .attacking set scenario r =>
    db.setRow set.scenarioSetId = .ok set ∧ set.scenario r.scenarioId = .ok scenario
  | .pinned set _ => db.setRow set.scenarioSetId = .ok set
  | .analysing set simulation scenario =>
    db.setRow set.scenarioSetId = .ok set ∧
    db.simulationRow set.scenarioSetId simulation.simulationId = .ok simulation ∧
    set.scenario simulation.scenarioId = .ok scenario
  | .storing row => row.Sound service profiles db

section Records
variable {service : LabService} {order : NewestVersion} {profiles profiles' : List ProfileRow}
  {db db' : LabDb}

theorem OnRecord.grown {version : Int} {profile : FinancialProfile} {digest : String}
    (hprofiles : profiles <+: profiles')
    (h : OnRecord service.financials profiles version profile digest) :
    OnRecord service.financials profiles' version profile digest := by
  cases h with
  | inl hdefault => exact .inl hdefault
  | inr hrow =>
    obtain ⟨row, hfound, hrest⟩ := hrow
    exact .inr ⟨row, lookup_grown hprofiles hfound, hrest⟩

theorem ScenarioSetRow.Pinned.grown {row : ScenarioSetRow} (hprofiles : profiles <+: profiles')
    (hdb : db.Grown db') (h : row.Pinned service profiles db) :
    row.Pinned service profiles' db' := by
  obtain ⟨catalog, client, requested, n, hcatalog, hrest⟩ := h.generated
  exact ⟨h.profile.grown hprofiles, catalog, client, requested, n, hdb.catalogFor hcatalog, hrest⟩

theorem SimulationRow.Replays.grown {row : SimulationRow} (hdb : db.Grown db')
    (h : row.Replays service db) : row.Replays service db' := by
  unfold SimulationRow.Replays LabDb.replay at h ⊢
  obtain ⟨set, hset, h⟩ := bind_eq_ok.mp h
  obtain ⟨scenario, hscenario, h⟩ := bind_eq_ok.mp h
  obtain ⟨selected, hselected, h⟩ := bind_eq_ok.mp h
  exact bind_eq_ok.mpr ⟨set, hdb.setRow hset, bind_eq_ok.mpr ⟨scenario, hscenario,
    bind_eq_ok.mpr ⟨selected, hdb.selection hselected, h⟩⟩⟩

theorem PlanRow.Chained.grown {row : PlanRow} (hdb : db.Grown db') (h : row.Chained service db) :
    row.Chained service db' := by
  obtain ⟨set, simulation, scenario, catalog, client, hset, hsimulation, hsame, hscenario,
    hcatalog, hresult⟩ := h
  exact ⟨set, simulation, scenario, catalog, client, hdb.setRow hset,
    hdb.simulationRow hsimulation, hsame, hscenario, hdb.catalogFor hcatalog, hresult⟩

theorem LabRow.Sound.grown {row : LabRow} (hprofiles : profiles <+: profiles')
    (hdb : db.Grown db') (h : row.Sound service profiles db) : row.Sound service profiles' db' := by
  cases row with
  | scenarioSet row => exact ScenarioSetRow.Pinned.grown hprofiles hdb h
  | simulation row => exact SimulationRow.Replays.grown hdb h
  | plan row => exact PlanRow.Chained.grown hdb h

theorem LabStage.Sound.grown {stage : LabStage} (hprofiles : profiles <+: profiles')
    (hdb : db.Grown db') (h : stage.Sound service profiles db) :
    stage.Sound service profiles' db' := by
  cases stage with
  | generating r => trivial
  | simulating scenarioSetId r => trivial
  | remediating scenarioSetId simulationId => trivial
  | returned result => trivial
  | crashed => trivial
  | catalogued r catalog snapshotId => exact hdb.catalogFor h
  | attacking set scenario r => exact ⟨hdb.setRow h.1, h.2⟩
  | pinned set simulationId => exact hdb.setRow h
  | analysing set simulation scenario =>
    exact ⟨hdb.setRow h.1, hdb.simulationRow h.2.1, h.2.2⟩
  | storing row => exact LabRow.Sound.grown hprofiles hdb h

/-! One statement. -/

/-- The current profile is on record. -/
theorem Historic.current_onRecord {s : FinancialsState} (h : Historic service.financials s)
    (order : NewestVersion) :
    OnRecord service.financials s.profiles
      (currentProfile service.financials order s.profiles).version
      (currentProfile service.financials order s.profiles).profile
      (currentProfile service.financials order s.profiles).profileDigest := by
  rw [h.current order]
  cases hlast : s.profiles.getLast? with
  | none => exact .inl ⟨rfl, rfl, rfl⟩
  | some row =>
    refine .inr ⟨row, (lookup_eq_some_iff h.keyed_versions).mpr ⟨?_, rfl⟩, rfl, rfl⟩
    exact List.mem_of_getLast? hlast

theorem LabCall.scenarioSet_pinned {c : LabCall} {r : ScenarioRequest} {catalog : Catalog}
    {snapshotId : Option Uuid} {current : CurrentProfile} {row : ScenarioSetRow}
    (hcatalog : db.catalogFor service r.graphSource snapshotId = .ok (catalog, snapshotId))
    (hcurrent : OnRecord service.financials profiles current.version current.profile
      current.profileDigest)
    (h : c.scenarioSet service r catalog snapshotId current = .ok row) :
    row.Pinned service profiles db := by
  obtain ⟨result, hresult, hrow⟩ := bind_eq_ok.mp h
  cases hrow
  exact ⟨hcurrent, catalog, c.client, r.sendToMistral, r.scenarioCount, hcatalog, rfl, rfl,
    hresult⟩

theorem LabCall.simulation_replays {c : LabCall} {set : ScenarioSetRow} {scenario : AttackScenario}
    {r : SimulationRequest} {selected : List Remediation} {outcome : SimulationOutcome}
    (hset : db.setRow set.scenarioSetId = .ok set)
    (hscenario : set.scenario r.scenarioId = .ok scenario)
    (hselected : db.selection set.scenarioSetId r = .ok selected)
    (houtcome : service.outcome scenario set.financialProfile r.iterations r.seed selected =
      .ok (some outcome)) :
    (c.simulation set r selected outcome).Replays service db :=
  bind_eq_ok.mpr ⟨set, hset, bind_eq_ok.mpr ⟨scenario, hscenario,
    bind_eq_ok.mpr ⟨selected, selection_applied hselected, houtcome⟩⟩⟩

theorem LabCall.plan_chained {c : LabCall} {set : ScenarioSetRow} {simulation : SimulationRow}
    {scenario : AttackScenario} {catalog : Catalog} {row : PlanRow}
    (hset : db.setRow set.scenarioSetId = .ok set)
    (hpinned : db.catalogFor service set.graphSource set.snapshotId =
      .ok (catalog, set.snapshotId))
    (hsimulation : db.simulationRow set.scenarioSetId simulation.simulationId = .ok simulation)
    (hscenario : set.scenario simulation.scenarioId = .ok scenario)
    (h : c.plan service set simulation scenario catalog = .ok row) : row.Chained service db := by
  obtain ⟨result, hresult, hrow⟩ := bind_eq_ok.mp h
  cases hrow
  exact ⟨set, simulation, scenario, catalog, c.client, hset, hsimulation, rfl, hscenario, hpinned,
    hresult⟩

/-- What a request reads is on record. -/
theorem LabCall.read_sound {s : FinancialsState} {c : LabCall} {stage : LabStage}
    (hhistory : Historic service.financials s)
    (hsets : ∀ row ∈ db.sets, row.Pinned service s.profiles db)
    (hc : c.stage.Sound service s.profiles db)
    (h : c.read service order s.profiles db = .ok stage) : stage.Sound service s.profiles db := by
  obtain ⟨rowId, createdBy, client, before⟩ := c
  cases before with
  | generating r =>
    obtain ⟨⟨catalog, snapshotId⟩, hcatalog, h⟩ := bind_eq_ok.mp h
    cases h
    exact catalogFor_kept hcatalog
  | catalogued r catalog snapshotId =>
    obtain ⟨row, hrow, h⟩ := bind_eq_ok.mp h
    cases h
    exact LabCall.scenarioSet_pinned hc (hhistory.current_onRecord order) hrow
  | simulating scenarioSetId r =>
    obtain ⟨set, hset, h⟩ := bind_eq_ok.mp h
    obtain ⟨scenario, hscenario, h⟩ := bind_eq_ok.mp h
    cases h
    exact ⟨setRow_id hset ▸ hset, hscenario⟩
  | attacking set scenario r =>
    obtain ⟨selected, hselected, h⟩ := bind_eq_ok.mp h
    obtain ⟨result, houtcome, h⟩ := bind_eq_ok.mp h
    cases result with
    | none =>
      cases h
      exact hc
    | some outcome =>
      cases h
      exact LabCall.simulation_replays hc.1 hc.2 hselected houtcome
  | remediating scenarioSetId simulationId =>
    obtain ⟨set, hset, h⟩ := bind_eq_ok.mp h
    cases h
    obtain rfl := setRow_id hset
    exact hset
  | pinned set simulationId =>
    obtain ⟨simulation, hsimulation, h⟩ := bind_eq_ok.mp h
    obtain ⟨scenario, hscenario, h⟩ := bind_eq_ok.mp h
    cases h
    have hid : simulation.simulationId = simulationId :=
      lookup_key (simulationRow_ok.mp hsimulation).1
    exact ⟨hc, hid ▸ hsimulation, hscenario⟩
  | analysing set simulation scenario =>
    obtain ⟨⟨catalog, snapshotId⟩, hcatalog, h⟩ := bind_eq_ok.mp h
    obtain ⟨row, hrow, h⟩ := bind_eq_ok.mp h
    cases h
    obtain ⟨hset, hsimulation, hscenario⟩ := hc
    obtain ⟨catalog', _, _, _, hpinned, -⟩ := (hsets set (setRow_mem hset)).generated
    have hsame : catalog' = catalog := by
      rw [hcatalog] at hpinned
      cases hpinned
      rfl
    exact LabCall.plan_chained hset (hsame ▸ hpinned) hsimulation hscenario hrow
  | storing row =>
    cases h
    exact hc
  | returned result =>
    cases h
    trivial
  | crashed =>
    cases h
    trivial

/-! The inserts. -/

/-- The database with a row and its audit record. -/
def LabDb.add (db : LabDb) : LabRow → LabDb
  | .scenarioSet row => { db with sets := db.sets ++ [row], audits := db.audits ++ [row.audit] }
  | .simulation row =>
    { db with simulations := db.simulations ++ [row], audits := db.audits ++ [row.audit] }
  | .plan row => { db with plans := db.plans ++ [row], audits := db.audits ++ [row.audit] }

/-- The row of a simulation is within the limits of its columns. -/
def SimulationRow.Limited (row : SimulationRow) : Prop :=
  (1000 ≤ row.iterations ∧ row.iterations ≤ 50000) ∧ 0 ≤ row.seed ∧ row.seed ≤ 4294967295

/-- What an insert has checked of its row. -/
def LabRow.Fits (db : LabDb) : LabRow → Prop
  | .scenarioSet row => row.scenarioSetId ∉ db.sets.map ScenarioSetRow.scenarioSetId
  | .simulation row =>
    row.simulationId ∉ db.simulations.map SimulationRow.simulationId ∧ row.Limited
  | .plan row => row.remediationPlanId ∉ db.plans.map PlanRow.remediationPlanId

theorem insert_ok {row : LabRow} (h : db.insert row = .ok db') :
    row.Fits db ∧ db' = db.add row := by
  cases row with
  | scenarioSet row =>
    simp only [LabDb.insert, LabDb.insertSet, bind_eq_ok, require_eq_ok, pure, Except.pure,
      Except.ok.injEq] at h
    obtain ⟨_, hid, _, -, _, -, _, -, rfl⟩ := h
    exact ⟨hid, rfl⟩
  | simulation row =>
    simp only [LabDb.insert, LabDb.insertSimulation, bind_eq_ok, require_eq_ok, pure,
      Except.pure, Except.ok.injEq] at h
    obtain ⟨_, hid, _, -, _, hiterations, _, hseed, _, -, _, -, rfl⟩ := h
    exact ⟨⟨hid, hiterations, hseed⟩, rfl⟩
  | plan row =>
    simp only [LabDb.insert, LabDb.insertPlan, bind_eq_ok, require_eq_ok, pure, Except.pure,
      Except.ok.injEq] at h
    obtain ⟨_, hid, _, -, _, -, _, -, rfl⟩ := h
    exact ⟨hid, rfl⟩

theorem LabDb.grown_add (row : LabRow) : db.Grown (db.add row) := by
  cases row with
  | scenarioSet row =>
    exact ⟨List.prefix_refl _, List.prefix_append _ _, List.prefix_refl _, List.prefix_refl _⟩
  | simulation row =>
    exact ⟨List.prefix_refl _, List.prefix_refl _, List.prefix_append _ _, List.prefix_refl _⟩
  | plan row =>
    exact ⟨List.prefix_refl _, List.prefix_refl _, List.prefix_refl _, List.prefix_append _ _⟩

/-- The rows of the lab, with what is promised of each. -/
structure LabDb.Kept (service : LabService) (profiles : List ProfileRow) (db : LabDb) : Prop where
  sets : ∀ row ∈ db.sets, row.Pinned service profiles db
  simulations : ∀ row ∈ db.simulations, row.Replays service db ∧ row.Limited
  plans : ∀ row ∈ db.plans, row.Chained service db
  setIds : Keyed ScenarioSetRow.scenarioSetId db.sets
  simulationIds : Keyed SimulationRow.simulationId db.simulations
  planIds : Keyed PlanRow.remediationPlanId db.plans
  audits : (db.sets.map ScenarioSetRow.audit ++ db.simulations.map SimulationRow.audit ++
    db.plans.map PlanRow.audit).Perm db.audits

/-- Nothing that is promised of the rows is lost where the tables only grow. -/
theorem LabDb.Kept.grown (h : db.Kept service profiles) (hprofiles : profiles <+: profiles')
    (hdb : db.Grown db') (hsets : db'.sets = db.sets) (hsimulations : db'.simulations = db.simulations)
    (hplans : db'.plans = db.plans) (haudits : db'.audits = db.audits) :
    db'.Kept service profiles' where
  sets row hrow := (h.sets row (hsets ▸ hrow)).grown hprofiles hdb
  simulations row hrow :=
    ⟨(h.simulations row (hsimulations ▸ hrow)).1.grown hdb, (h.simulations row (hsimulations ▸ hrow)).2⟩
  plans row hrow := (h.plans row (hplans ▸ hrow)).grown hdb
  setIds := hsets ▸ h.setIds
  simulationIds := hsimulations ▸ h.simulationIds
  planIds := hplans ▸ h.planIds
  audits := by
    rw [hsets, hsimulations, hplans, haudits]
    exact h.audits

theorem forall_append_one {α : Type} {p q : α → Prop} {l : List α} {a : α}
    (h : ∀ b ∈ l, p b) (hpq : ∀ b, p b → q b) (ha : q a) : ∀ b ∈ l ++ [a], q b := by
  intro b hb
  cases List.mem_append.mp hb with
  | inl hold => exact hpq b (h b hold)
  | inr hnew => exact List.mem_singleton.mp hnew ▸ ha

/-- A row that is sound may be added. -/
theorem LabDb.Kept.add {row : LabRow} (h : db.Kept service profiles) (hfits : row.Fits db)
    (hrow : row.Sound service profiles db) : (db.add row).Kept service profiles := by
  have hgrown : db.Grown (db.add row) := LabDb.grown_add row
  have hself : profiles <+: profiles := List.prefix_refl _
  have hsets : ∀ r ∈ db.sets, r.Pinned service profiles (db.add row) :=
    fun r hr => (h.sets r hr).grown hself hgrown
  have hsimulations : ∀ r ∈ db.simulations, r.Replays service (db.add row) ∧ r.Limited :=
    fun r hr => ⟨(h.simulations r hr).1.grown hgrown, (h.simulations r hr).2⟩
  have hplans : ∀ r ∈ db.plans, r.Chained service (db.add row) :=
    fun r hr => (h.plans r hr).grown hgrown
  have hnew : row.Sound service profiles (db.add row) := hrow.grown hself hgrown
  cases row with
  | scenarioSet row =>
    refine ⟨forall_append_one hsets (fun _ hr => hr) hnew, hsimulations, hplans,
      keyed_append_one.mpr ⟨h.setIds, hfits⟩, h.simulationIds, h.planIds, ?_⟩
    have haudits := h.audits.append_right [row.audit]
    refine List.Perm.trans ?_ haudits
    simp only [LabDb.add, List.map_append, List.map_singleton, List.append_assoc]
    exact List.Perm.append_left _ (List.perm_append_comm_assoc _ _ _ |>.trans
      (List.Perm.append_left _ List.perm_append_comm))
  | simulation row =>
    refine ⟨hsets, forall_append_one hsimulations (fun _ hr => hr) ⟨hnew, hfits.2⟩, hplans,
      h.setIds, keyed_append_one.mpr ⟨h.simulationIds, hfits.1⟩, h.planIds, ?_⟩
    have haudits := h.audits.append_right [row.audit]
    refine List.Perm.trans ?_ haudits
    simp only [LabDb.add, List.map_append, List.map_singleton, List.append_assoc]
    exact List.Perm.append_left _ (List.Perm.append_left _ List.perm_append_comm)
  | plan row =>
    refine ⟨hsets, hsimulations, forall_append_one hplans (fun _ hr => hr) hnew,
      h.setIds, h.simulationIds, keyed_append_one.mpr ⟨h.planIds, hfits⟩, ?_⟩
    have haudits := h.audits.append_right [row.audit]
    refine List.Perm.trans ?_ haudits
    simp only [LabDb.add, List.map_append, List.map_singleton, List.append_assoc]
    exact List.Perm.refl _

end Records

/-! Runs. -/

/-- What holds of the lab after every step. -/
structure LabTraced (service : LabService) (s : LabState) : Prop where
  history : Historic service.financials s.financials
  db : s.db.Kept service s.financials.profiles
  calls : ∀ c ∈ s.calls, c.stage.Sound service s.financials.profiles s.db

section Steps
variable {service : LabService} {order : NewestVersion} {s s' : LabState} {c : LabCall} {i : Nat}

/-- A request moves, and the tables grow. -/
theorem LabTraced.move (h : LabTraced service s) {stage : LabStage} {db : LabDb}
    (hgrown : s.db.Grown db) (hdb : db.Kept service s.financials.profiles)
    (hstage : stage.Sound service s.financials.profiles db) :
    LabTraced service { s with db := db, calls := s.calls.set i { c with stage := stage } } where
  history := h.history
  db := hdb
  calls := by
    intro d hd
    cases Locks.mem_set hd with
    | inl heq =>
      subst heq
      exact hstage
    | inr hother =>
      obtain ⟨j, -, hj⟩ := hother
      exact (h.calls d (List.mem_of_getElem? hj)).grown (List.prefix_refl _) hgrown

theorem LabTraced.submit (h : LabTraced service s) (hc : ∀ profiles db, c.stage.Sound service profiles db) :
    LabTraced service (s.submit c) where
  history := h.history
  db := h.db
  calls := forall_append_one h.calls (fun _ hd => hd) (hc _ _)

theorem LabTraced.advance (h : LabTraced service s) (hi : s.calls[i]? = some c) :
    LabTraced service { s with
      db := (c.advance service order s.financials.profiles s.db).2
      calls := s.calls.set i { c with
        stage := (c.advance service order s.financials.profiles s.db).1 } } := by
  have hsound := h.calls c (List.mem_of_getElem? hi)
  unfold LabCall.advance
  split
  · rename_i row hstage
    rw [hstage] at hsound
    split
    · exact h.move (LabDb.Grown.refl _) h.db trivial
    · rename_i db hinsert
      obtain ⟨hfits, rfl⟩ := insert_ok hinsert
      exact h.move (LabDb.grown_add row) (h.db.add hfits hsound) trivial
  · split
    · exact h.move (LabDb.Grown.refl _) h.db trivial
    · rename_i stage hread
      exact h.move (LabDb.Grown.refl _) h.db
        (LabCall.read_sound h.history h.db.sets hsound hread)

theorem LabTraced.step (h : LabTraced service s) (e : LabEvent) :
    LabTraced service (labStep service order s e) := by
  cases e with
  | financials e =>
    have hprofiles : s.financials.profiles <+:
        (financialsStep service.financials s.financials e).profiles :=
      profiles_grow service.financials s.financials [e]
    exact ⟨h.history.step e, h.db.grown hprofiles (LabDb.Grown.refl _) rfl rfl rfl rfl,
      fun c hc => (h.calls c hc).grown hprofiles (LabDb.Grown.refl _)⟩
  | importSnapshot row =>
    unfold labStep
    dsimp only
    split_ifs
    · exact h
    · have hgrown : s.db.Grown { s.db with snapshots := s.db.snapshots ++ [row] } :=
        ⟨List.prefix_append _ _, List.prefix_refl _, List.prefix_refl _, List.prefix_refl _⟩
      exact ⟨h.history, h.db.grown (List.prefix_refl _) hgrown rfl rfl rfl rfl,
        fun c hc => (h.calls c hc).grown (List.prefix_refl _) hgrown⟩
  | generate rowId createdBy client r => exact h.submit fun _ _ => trivial
  | simulate rowId createdBy scenarioSetId r => exact h.submit fun _ _ => trivial
  | remediate rowId createdBy client scenarioSetId simulationId => exact h.submit fun _ _ => trivial
  | advance i =>
    unfold labStep
    dsimp only
    split
    · exact h
    · rename_i c hi
      exact h.advance hi
  | crash i =>
    unfold labStep
    dsimp only
    split
    · exact h
    · split
      · exact h
      · exact h.move (LabDb.Grown.refl _) h.db trivial

theorem traced_run (service : LabService) (order : NewestVersion) (es : List LabEvent) :
    LabTraced service (run (labStep service order) .initial es) := by
  refine run_invariant (fun s e h => h.step e) ?_ es
  have hnone : ∀ {α : Type} {p : α → Prop}, ∀ a ∈ ([] : List α), p a := fun a ha => nomatch ha
  exact ⟨historic_run service.financials [],
    ⟨hnone, hnone, hnone, keyed_nil, keyed_nil, keyed_nil, List.Perm.refl _⟩, hnone⟩

theorem labStep_grown (s : LabState) (e : LabEvent) : s.db.Grown (labStep service order s e).db := by
  cases e with
  | financials e => exact LabDb.Grown.refl _
  | importSnapshot row =>
    unfold labStep
    dsimp only
    split_ifs
    · exact LabDb.Grown.refl _
    · exact ⟨List.prefix_append _ _, List.prefix_refl _, List.prefix_refl _, List.prefix_refl _⟩
  | generate rowId createdBy client r => exact LabDb.Grown.refl _
  | simulate rowId createdBy scenarioSetId r => exact LabDb.Grown.refl _
  | remediate rowId createdBy client scenarioSetId simulationId => exact LabDb.Grown.refl _
  | advance i =>
    unfold labStep
    dsimp only
    split
    · exact LabDb.Grown.refl _
    · unfold LabCall.advance
      split
      · split
        · exact LabDb.Grown.refl _
        · rename_i db hinsert
          obtain ⟨-, rfl⟩ := insert_ok hinsert
          exact LabDb.grown_add _
      · split
        · exact LabDb.Grown.refl _
        · exact LabDb.Grown.refl _
  | crash i =>
    unfold labStep
    dsimp only
    split
    · exact LabDb.Grown.refl _
    · split
      · exact LabDb.Grown.refl _
      · exact LabDb.Grown.refl _

theorem run_grown (s : LabState) (es : List LabEvent) :
    s.db.Grown (run (labStep service order) s es).db :=
  run_rel (fun a b : LabState => a.db.Grown b.db) (fun a => LabDb.Grown.refl a.db)
    LabDb.Grown.trans (fun a e _ => labStep_grown a e) (I := fun _ => True) (fun _ _ _ => trivial)
    trivial es

end Steps

/-- A simulation that is once stored stays, and whoever makes the request that it records again
comes to the result that it records, in every later state; it is within its limits, its set names
the profile that it was computed with, and every row of the lab has one audit record. -/
theorem simulations_reproducible (service : LabService) (order : NewestVersion)
    (es later : List LabEvent) :
    let s := run (labStep service order) .initial es
    let s' := run (labStep service order) .initial (es ++ later)
    (∀ row ∈ s.db.simulations, row ∈ s'.db.simulations ∧
      s'.db.replay service row.scenarioSetId row.request = .ok (some row.result) ∧ row.Limited ∧
      ∃ set ∈ s.db.sets, set.scenarioSetId = row.scenarioSetId ∧ set ∈ s'.db.sets ∧
        OnRecord service.financials s'.financials.profiles set.financialProfileVersion
          set.financialProfile set.financialProfileDigest) ∧
    Keyed SimulationRow.simulationId s.db.simulations ∧
    (s.db.sets.map ScenarioSetRow.audit ++ s.db.simulations.map SimulationRow.audit ++
      s.db.plans.map PlanRow.audit).Perm s.db.audits := by
  have h := traced_run service order es
  have h' := traced_run service order (es ++ later)
  have hgrown : (run (labStep service order) .initial es).db.Grown
      (run (labStep service order) .initial (es ++ later)).db := by
    rw [run_append]
    exact run_grown _ later
  refine ⟨fun row hrow => ?_, h.db.simulationIds, h.db.audits⟩
  have hkept := hgrown.simulations.subset hrow
  obtain ⟨set, hset, -⟩ := bind_eq_ok.mp (h.db.simulations row hrow).1
  have hmem := hgrown.sets.subset (setRow_mem hset)
  exact ⟨hkept, (h'.db.simulations row hkept).1, (h.db.simulations row hrow).2, set,
    setRow_mem hset, setRow_id hset, hmem, (h'.db.sets set hmem).profile⟩

/-! Citations. -/

theorem generateRemediations_checked {model : GraphModel} {scenario : AttackScenario}
    {simulation profile : Json} {inventory : Inventory} {evidence : List GraphNode}
    {client : Option ModelsClient} {result : ModelResult RemediationPlan}
    (h : generateRemediations model scenario simulation profile inventory evidence client =
      .ok result) (hready : result.status = .ready) :
    ∃ plan, result.value = some plan ∧ (plan.remediations.map (·.remediationId)).Nodup ∧
      ∀ r ∈ plan.remediations, RemediationChecked scenario inventory evidence r := by
  unfold generateRemediations at h
  cases client with
  | none =>
    cases h
    cases hready
  | some models =>
    obtain ⟨request, -, h⟩ := bind_eq_ok.mp h
    obtain ⟨output, plan, -, -, hvalue, hchecked⟩ := askModel_ready h hready
    obtain ⟨hdistinct, -, hall⟩ := remediationReferenceError_none hchecked
    exact ⟨plan, hvalue, hdistinct, hall⟩

/-- The evidence of a scenario is of nodes that it cites and that the catalogue has. -/
theorem mem_graphEvidence {scenario : AttackScenario} {catalog : Catalog} {id : String}
    (h : id ∈ (graphEvidence scenario catalog).map GraphNode.id) :
    id ∈ catalog.nodes.map GraphNode.id ∧
      ∃ node ∈ scenario.attackTree.nodes, id ∈ node.graphNodeIds := by
  obtain ⟨_, hnode, rfl⟩ := List.mem_map.mp h
  obtain ⟨node, hcited, rfl⟩ := List.mem_map.mp hnode
  obtain ⟨hmem, hid⟩ := List.mem_filter.mp hcited
  exact ⟨List.mem_map.mpr ⟨node, hmem, rfl⟩, List.mem_flatMap.mp (of_decide_eq_true hid)⟩

/-- What a remediation of a stored plan cites is on record: the steps of its scenario, nodes that
the scenario cites and the catalogue has, and components of the inventory of the set. -/
structure Remediation.OnRecord (set : ScenarioSetRow) (scenario : AttackScenario)
    (catalog : Catalog) (r : Remediation) : Prop where
  targets : r.targetAttackNodeIds ⊆ scenario.attackTree.nodes.map (·.attackNodeId)
  leaf : ∃ node ∈ scenario.attackTree.nodes, node.operator = .leaf ∧
    node.attackNodeId ∈ r.targetAttackNodeIds
  graphNodes : ∀ id ∈ r.graphNodeIds, id ∈ catalog.nodes.map GraphNode.id ∧
    ∃ node ∈ scenario.attackTree.nodes, id ∈ node.graphNodeIds
  software : r.softwareComponentIds ⊆ set.softwareInventory.components.map (·.componentId)

theorem RemediationChecked.onRecord {set : ScenarioSetRow} {scenario : AttackScenario}
    {catalog : Catalog} {r : Remediation}
    (h : RemediationChecked scenario set.softwareInventory.forModel (graphEvidence scenario catalog)
      r) : r.OnRecord set scenario catalog where
  targets := h.targets
  leaf := h.leaf
  graphNodes _ hid := mem_graphEvidence (h.graphNodes hid)
  software := by
    have hsoftware := h.software
    rwa [SoftwareInventory.forModel, List.map_map] at hsoftware

/-- Every plan of the lab is against a stored simulation of a scenario of a stored set, whose
catalogue and profile are on record, and what its remediations cite is there: in the scenario, in
the catalogue and in the inventory that was taken of it. -/
theorem plans_traceable (service : LabService) (order : NewestVersion) (es : List LabEvent) :
    let s := run (labStep service order) .initial es
    ∀ row ∈ s.db.plans, ∃ set ∈ s.db.sets, ∃ simulation ∈ s.db.simulations, ∃ scenario catalog,
      set.scenarioSetId = row.scenarioSetId ∧ simulation.simulationId = row.simulationId ∧
      simulation.scenarioSetId = row.scenarioSetId ∧ simulation.scenarioId = row.scenarioId ∧
      set.scenario row.scenarioId = .ok scenario ∧
      s.db.catalogFor service set.graphSource set.snapshotId = .ok (catalog, set.snapshotId) ∧
      set.graphDigest = catalog.graphDigest ∧
      set.softwareInventory = buildSoftwareInventory service.casefold catalog ∧
      (row.modelResult.status = .ready → ∃ plan, row.modelResult.value = some plan ∧
        (plan.remediations.map (·.remediationId)).Nodup ∧
        ∀ r ∈ plan.remediations, r.OnRecord set scenario catalog) := by
  intro s row hrow
  have h := traced_run service order es
  obtain ⟨set, simulation, scenario, catalog, client, hset, hsimulation, hsame, hscenario, hcatalog,
    hresult⟩ := h.db.plans row hrow
  obtain ⟨hfound, howner⟩ := simulationRow_ok.mp hsimulation
  obtain ⟨catalog', _, _, _, hpinned, hdigest, hinventory, -⟩ :=
    (h.db.sets set (setRow_mem hset)).generated
  rw [hcatalog] at hpinned
  cases hpinned
  refine ⟨set, setRow_mem hset, simulation, lookup_mem hfound, scenario, catalog, setRow_id hset,
    lookup_key hfound, howner, hsame, hscenario, hcatalog, hdigest, hinventory, fun hready => ?_⟩
  obtain ⟨plan, hvalue, hdistinct, hall⟩ := generateRemediations_checked hresult hready
  exact ⟨plan, hvalue, hdistinct, fun r hr => (hall r hr).onRecord⟩

end Bantam
