import Bantam.Lib.TwoRuns
import Bantam.LossSimulation
import Mathlib.Analysis.Complex.ExponentialBounds

/-! Two runs over the same stream of draws, with and without remediations: when they stay in
step, the one with remediations loses no more. -/
namespace Bantam
open Rooted TwoRuns

/-! Attempts whose draws fall alike under both parameters. -/

section
variable {parameters parameters' : Dict String NodeParameters} {draws : Nat → Rat}

theorem after_injective {s : AttemptState} {drawn drawn' : Draws}
    (h : s.after drawn = s.after drawn') : drawn = drawn' := by
  have hhistory := List.append_cancel_left (congrArg AttemptState.history h)
  refine List.map_injective_iff.mpr (fun d d' hd => ?_) hhistory
  simp only [AttemptEvent.drawn.injEq] at hd
  exact Prod.ext hd.1 hd.2

/-- Draws fall alike where the success probabilities are the same. -/
theorem took_of_success {n : Nat} {drawn : Draws}
    (hsame : ∀ leaf ∈ drawn.map Prod.fst, ∀ p, parameters.get? leaf = some p →
      ∃ p', parameters'.get? leaf = some p' ∧ p'.successProbability = p.successProbability)
    (h : Took parameters draws n drawn) : Took parameters' draws n drawn := by
  induction drawn generalizing n with
  | nil => trivial
  | cons d drawn ih =>
    obtain ⟨⟨p, hp, houtcome⟩, hrest⟩ := h
    obtain ⟨hleaf, hleaves⟩ := List.forall_mem_cons.mp hsame
    obtain ⟨p', hp', hsuccess⟩ := hleaf p hp
    exact ⟨⟨p', hp', by rw [hsuccess]; exact houtcome⟩, ih hleaves hrest⟩

/-- Where the draws of one evaluation are also what the other parameters make of them, the other
evaluation is the same. -/
def Follows (parameters' : Dict String NodeParameters) (draws : Nat → Rat)
    (evaluate evaluate' : String → AttemptState → Option Attempted) (c : String) : Prop :=
  ∀ s, ∃ succeeded path drawn, evaluate c s = some (succeeded, path, s.after drawn) ∧
    (Took parameters' draws s.used drawn → evaluate' c s = evaluate c s)

variable {evaluate evaluate' : String → AttemptState → Option Attempted}

theorem everyChild_follows {cs : List String}
    (hcs : ∀ c ∈ cs, Follows parameters' draws evaluate evaluate' c) (satisfied : List String)
    (s : AttemptState) :
    ∃ succeeded path drawn,
      everyChild evaluate cs satisfied s = some (succeeded, path, s.after drawn) ∧
      (Took parameters' draws s.used drawn →
        everyChild evaluate' cs satisfied s = everyChild evaluate cs satisfied s) := by
  induction cs generalizing satisfied s with
  | nil => exact ⟨_, _, [], by rw [AttemptState.after_nil]; rfl, fun _ => rfl⟩
  | cons c cs ih =>
    obtain ⟨hc, hcs⟩ := List.forall_mem_cons.mp hcs
    obtain ⟨succeeded, path, drawn, hrun, hsame⟩ := hc s
    rw [everyChild, everyChild]
    cases succeeded with
    | false =>
      refine ⟨false, [], drawn, by rw [hrun]; rfl, fun htook => ?_⟩
      rw [hsame htook, hrun]
      rfl
    | true =>
      obtain ⟨succeeded', path', drawn', hrest, hsame'⟩ := ih hcs (satisfied ++ path) (s.after drawn)
      refine ⟨succeeded', path', drawn ++ drawn', ?_, fun htook => ?_⟩
      · rw [hrun, AttemptState.after_append]
        exact hrest
      · obtain ⟨hfirst, hthen⟩ := took_append.mp htook
        rw [hsame hfirst, hrun]
        exact hsame' hthen

theorem anyChild_follows {cs : List String}
    (hcs : ∀ c ∈ cs, Follows parameters' draws evaluate evaluate' c) (s : AttemptState) :
    ∃ succeeded path drawn, anyChild evaluate cs s = some (succeeded, path, s.after drawn) ∧
      (Took parameters' draws s.used drawn →
        anyChild evaluate' cs s = anyChild evaluate cs s) := by
  induction cs generalizing s with
  | nil => exact ⟨_, _, [], by rw [AttemptState.after_nil]; rfl, fun _ => rfl⟩
  | cons c cs ih =>
    obtain ⟨hc, hcs⟩ := List.forall_mem_cons.mp hcs
    obtain ⟨succeeded, path, drawn, hrun, hsame⟩ := hc s
    rw [anyChild, anyChild]
    cases succeeded with
    | true =>
      refine ⟨true, path, drawn, by rw [hrun]; rfl, fun htook => ?_⟩
      rw [hsame htook, hrun]
      rfl
    | false =>
      obtain ⟨succeeded', path', drawn', hrest, hsame'⟩ := ih hcs (s.after drawn)
      refine ⟨succeeded', path', drawn ++ drawn', ?_, fun htook => ?_⟩
      · rw [hrun, AttemptState.after_append]
        exact hrest
      · obtain ⟨hfirst, hthen⟩ := took_append.mp htook
        rw [hsame hfirst, hrun]
        exact hsame' hthen

theorem attempt_follows {tree : AttackTree} (hchecked : tree.Checked)
    (hparameters : ∀ node ∈ tree.nodes, node.attackNodeId ∈ parameters.keys)
    {n : Nat} {node : AttackTreeNode} (hnode : node ∈ tree.nodes)
    (hbounded : Bounded tree.Edge n node.attackNodeId) {depth : Nat}
    (hdepth : n + depth ≤ maxAttackTreeDepth + 1) :
    Follows parameters' draws
      (fun nodeId s => attempt (treeIndex tree) parameters draws nodeId depth s)
      (fun nodeId s => attempt (treeIndex tree) parameters' draws nodeId depth s)
      node.attackNodeId := by
  have hids := hchecked.distinctIds
  induction n generalizing node depth with
  | zero => exact absurd hbounded not_bounded_zero
  | succ n ih =>
    intro s
    dsimp only
    have hlevel : ¬maxAttackTreeDepth < depth := by omega
    have hchildren : ∀ c ∈ (treeIndex tree).children node.attackNodeId,
        Follows parameters' draws
          (fun childId s => attempt (treeIndex tree) parameters draws childId (depth + 1) s)
          (fun childId s => attempt (treeIndex tree) parameters' draws childId (depth + 1) s) c := by
      intro c hc
      rw [children_treeIndex] at hc
      have hedge : tree.Edge node.attackNodeId c := mem_outgoing.mp hc
      obtain ⟨child, hchild, rfl⟩ := List.mem_map.mp (hchecked.joined _ _ hedge).2.1
      exact ih hchild (bounded_succ.mp hbounded _ hedge) (by omega)
    rw [attempt, attempt, nodes_treeIndex hids hnode]
    simp only [hlevel, dite_false]
    cases hop : node.operator with
    | leaf =>
      obtain ⟨⟨_, p⟩, hitem, hkey⟩ := List.mem_map.mp (hparameters node hnode)
      cases hkey
      have hp := Dict.get?_eq_some.mpr hitem
      let succeeded := decide (draws s.used < p.successProbability)
      refine ⟨succeeded, if succeeded then [node.attackNodeId] else [],
        [(node.attackNodeId, succeeded)], ?_, fun htook => ?_⟩
      · rw [hp, ← AttemptState.draw_eq]
        rfl
      · obtain ⟨⟨p', hp', hsame⟩, -⟩ := htook
        have hdraw : decide (draws s.used < p.successProbability) =
            decide (draws s.used < p'.successProbability) := hsame
        rw [hp, hp', Option.map_some, Option.map_some, hdraw]
    | and => exact everyChild_follows hchildren [] s
    | or => exact anyChild_follows hchildren s

end

section
variable {index : TreeIndex} {parameters : Dict String NodeParameters} {draws : Nat → Rat}

/-! Where on a path a leaf can stand. -/

theorem mem_dropLast_append {α : Type*} {l l' : List α} {x : α} (h : x ∈ (l ++ l').dropLast) :
    x ∈ l ∨ x ∈ l'.dropLast := by
  cases l' with
  | nil =>
    rw [List.append_nil] at h
    exact .inl (List.mem_of_mem_dropLast h)
  | cons y l' =>
    rw [List.dropLast_append_of_ne_nil (List.cons_ne_nil y l'), List.mem_append] at h
    exact h

/-- A leaf at or below a node. -/
def LeafBelow (index : TreeIndex) (nodeId leaf : String) : Prop :=
  Reach (fun u v => v ∈ index.children u) nodeId leaf ∧
    ∃ node, index.nodes.get? leaf = some node ∧ node.operator = .leaf

theorem LeafBelow.cons {index : TreeIndex} {u c leaf : String} (h : LeafBelow index c leaf)
    (hc : c ∈ index.children u) : LeafBelow index u leaf := ⟨h.1.cons hc, h.2⟩

/-- A path is made of leaves below the node, and those of a set only come last. -/
def Ends (index : TreeIndex) (raised : String → Prop) (nodeId : String) (path : List String) :
    Prop :=
  (∀ leaf ∈ path, LeafBelow index nodeId leaf) ∧ ∀ leaf ∈ path.dropLast, ¬raised leaf

variable {raised : String → Prop} {evaluate : String → AttemptState → Option Attempted}

/-- The paths of all children but the last hold no leaf of the set. -/
theorem everyChild_ends {cs : List String} {satisfied path : List String} {s s' : AttemptState}
    (hchild : ∀ c ∈ cs, ∀ s path s', evaluate c s = some (true, path, s') →
      Ends index raised c path)
    (hearly : ∀ c ∈ cs.dropLast, ∀ leaf, LeafBelow index c leaf → ¬raised leaf)
    (h : everyChild evaluate cs satisfied s = some (true, path, s')) :
    ∃ rest, path = satisfied ++ rest ∧
      (∀ leaf ∈ rest, ∃ c ∈ cs, LeafBelow index c leaf) ∧
      ∀ leaf ∈ rest.dropLast, ¬raised leaf := by
  induction cs generalizing satisfied s with
  | nil =>
    have hpath := congrArg (fun x => x.2.1) (Option.some.inj h)
    exact ⟨[], by rw [List.append_nil]; exact hpath.symm, by simp, by simp⟩
  | cons c cs ih =>
    rw [everyChild] at h
    obtain ⟨⟨succeeded, own, s₁⟩, hrun, hnext⟩ := Option.bind_eq_some_iff.mp h
    cases succeeded with
    | false => cases hnext
    | true =>
      obtain ⟨hbelow, hends⟩ := hchild c List.mem_cons_self s own s₁ hrun
      have hothers := fun d hd => hchild d (List.mem_cons_of_mem c hd)
      cases cs with
      | nil =>
        have hpath := congrArg (fun x => x.2.1) (Option.some.inj hnext)
        exact ⟨own, hpath.symm, fun leaf hleaf => ⟨c, List.mem_cons_self, hbelow leaf hleaf⟩, hends⟩
      | cons d cs =>
        obtain ⟨rest, hpath, hrest, hlast⟩ := ih hothers
          (fun e he => hearly e (List.mem_cons_of_mem c he)) hnext
        refine ⟨own ++ rest, by rw [hpath, List.append_assoc], fun leaf hleaf => ?_,
          fun leaf hleaf => ?_⟩
        · cases List.mem_append.mp hleaf with
          | inl hown => exact ⟨c, List.mem_cons_self, hbelow leaf hown⟩
          | inr hlater =>
            obtain ⟨e, he, hreach⟩ := hrest leaf hlater
            exact ⟨e, List.mem_cons_of_mem c he, hreach⟩
        · cases mem_dropLast_append hleaf with
          | inl hown => exact hearly c List.mem_cons_self leaf (hbelow leaf hown)
          | inr hlater => exact hlast leaf hlater

theorem anyChild_ends {cs : List String} {path : List String} {s s' : AttemptState}
    (hchild : ∀ c ∈ cs, ∀ s path s', evaluate c s = some (true, path, s') →
      Ends index raised c path)
    (h : anyChild evaluate cs s = some (true, path, s')) : ∃ c ∈ cs, Ends index raised c path := by
  induction cs generalizing s with
  | nil => cases h
  | cons c cs ih =>
    rw [anyChild] at h
    obtain ⟨⟨succeeded, own, s₁⟩, hrun, hnext⟩ := Option.bind_eq_some_iff.mp h
    cases succeeded with
    | true =>
      have hpath := congrArg (fun x => x.2.1) (Option.some.inj hnext)
      dsimp only at hpath
      subst hpath
      exact ⟨c, List.mem_cons_self, hchild c List.mem_cons_self s own s₁ hrun⟩
    | false =>
      obtain ⟨d, hd, hends⟩ := ih (fun d hd => hchild d (List.mem_cons_of_mem c hd)) hnext
      exact ⟨d, List.mem_cons_of_mem c hd, hends⟩

theorem attempt_ends
    (hearly : ∀ nodeId node, index.nodes.get? nodeId = some node → node.operator = .and →
      ∀ c ∈ (index.children nodeId).dropLast, ∀ leaf, LeafBelow index c leaf → ¬raised leaf)
    {nodeId : String} {depth : Nat} {s s' : AttemptState} {path : List String}
    (h : attempt index parameters draws nodeId depth s = some (true, path, s')) :
    Ends index raised nodeId path := by
  generalize hlevels : maxAttackTreeDepth + 1 - depth = levels
  induction levels generalizing nodeId depth s s' path with
  | zero =>
    have hdeep : maxAttackTreeDepth < depth := by omega
    rw [attempt] at h
    cases hnode : index.nodes.get? nodeId with
    | none => rw [hnode] at h; cases h
    | some node =>
      rw [hnode] at h
      simp only [hdeep, dite_true] at h
      cases h
  | succ levels ih =>
    have hlevel : ¬maxAttackTreeDepth < depth := by omega
    have hchild : ∀ c ∈ index.children nodeId, ∀ s path s',
        attempt index parameters draws c (depth + 1) s = some (true, path, s') →
        Ends index raised c path := fun c _ s path s' hc => ih hc (by omega)
    rw [attempt] at h
    cases hnode : index.nodes.get? nodeId with
    | none => rw [hnode] at h; cases h
    | some node =>
      rw [hnode] at h
      simp only [hlevel, dite_false] at h
      cases hop : node.operator with
      | leaf =>
        rw [hop] at h
        obtain ⟨p, -, hdrawn⟩ := Option.map_eq_some_iff.mp h
        simp only [Prod.mk.injEq] at hdrawn
        obtain ⟨hwon, hpath, -⟩ := hdrawn
        rw [if_pos hwon] at hpath
        subst hpath
        refine ⟨fun leaf hleaf => ?_, by simp⟩
        rw [List.mem_singleton.mp hleaf]
        exact ⟨Reach.refl nodeId, node, hnode, hop⟩
      | and =>
        rw [hop] at h
        obtain ⟨rest, hpath, hbelow, hends⟩ :=
          everyChild_ends hchild (hearly nodeId node hnode hop) h
        rw [List.nil_append] at hpath
        subst hpath
        refine ⟨fun leaf hleaf => ?_, hends⟩
        obtain ⟨c, hc, hreach⟩ := hbelow leaf hleaf
        exact hreach.cons hc
      | or =>
        rw [hop] at h
        obtain ⟨c, hc, hbelow, hends⟩ := anyChild_ends hchild h
        exact ⟨fun leaf hleaf => (hbelow leaf hleaf).cons hc, hends⟩

end

/-! Detection along a path. -/

section
variable {parameters parameters' : Dict String NodeParameters} {draws : Nat → Rat}

def detectionOf (parameters : Dict String NodeParameters) (nodeId : String) : Option Rat :=
  (parameters.get? nodeId).map (·.detectionProbability)

/-- The draws of the leaves before the last one fall alike under both parameters, up to a leaf
that is detected. -/
def DetectsAlike (parameters parameters' : Dict String NodeParameters) (draws : Nat → Rat) :
    List String → Nat → Prop
  | leaf :: next :: rest, used =>
    ∀ p p', parameters.get? leaf = some p → parameters'.get? leaf = some p' →
      (draws used < p'.detectionProbability → draws used < p.detectionProbability) ∧
      (¬draws used < p.detectionProbability →
        DetectsAlike parameters parameters' draws (next :: rest) (used + 1))
  | _, _ => True

theorem detectsAlike_of_early {path : List String} {used : Nat}
    (h : ∀ leaf ∈ path.dropLast, detectionOf parameters' leaf = detectionOf parameters leaf) :
    DetectsAlike parameters parameters' draws path used := by
  induction path generalizing used with
  | nil => trivial
  | cons leaf path ih =>
    cases path with
    | nil => trivial
    | cons next path =>
      obtain ⟨hleaf, hrest⟩ := List.forall_mem_cons.mp h
      intro p p' hp hp'
      unfold detectionOf at hleaf
      rw [hp, hp'] at hleaf
      have hsame : p'.detectionProbability = p.detectionProbability := Option.some.inj hleaf
      rw [hsame]
      exact ⟨id, fun _ => ih hrest⟩

/-- What the two runs make of the same path: the same draws, and detected at least as often. -/
theorem anyDetected_raised
    (hraised : ∀ leaf, Option.Rel (· ≤ ·) (detectionOf parameters leaf)
      (detectionOf parameters' leaf)) {path : List String} {used : Nat}
    (halike : DetectsAlike parameters parameters' draws path used) :
    Option.Rel (fun residual baseline => residual.2 = baseline.2 ∧ (baseline.1 → residual.1))
      (anyDetected draws parameters' path used) (anyDetected draws parameters path used) := by
  induction path generalizing used with
  | nil => exact .some ⟨rfl, id⟩
  | cons leaf path ih =>
    have hleaf := hraised leaf
    rw [anyDetected, anyDetected]
    unfold detectionOf at hleaf
    cases hp : parameters.get? leaf with
    | none =>
      rw [hp] at hleaf
      cases hp' : parameters'.get? leaf with
      | none => exact .none
      | some p' => rw [hp'] at hleaf; cases hleaf
    | some p =>
      rw [hp] at hleaf
      cases hp' : parameters'.get? leaf with
      | none => rw [hp'] at hleaf; cases hleaf
      | some p' =>
        rw [hp'] at hleaf
        have hle : p.detectionProbability ≤ p'.detectionProbability := by
          cases hleaf with
          | some hle => exact hle
        simp only [Option.bind_some]
        by_cases hdraw : draws used < p.detectionProbability
        · rw [if_pos hdraw, if_pos (hdraw.trans_le hle)]
          exact .some ⟨rfl, id⟩
        · rw [if_neg hdraw]
          cases path with
          | nil =>
            simp only [anyDetected]
            split
            · exact .some ⟨rfl, fun h => by cases h⟩
            · exact .some ⟨rfl, id⟩
          | cons next path =>
            obtain ⟨hback, hrest⟩ := halike p p' hp hp'
            rw [if_neg fun h => hdraw (hback h)]
            exact ih (hrest hdraw)

end

/-! Samples of a loss are no less than its minimum. -/

section
variable {draws : Nat → Rat}

theorem gammaLoop_pos {d c x : ℝ} (hd : 0 < d) {rounds used used' : Nat}
    (h : gammaLoop draws d c rounds used = some (x, used')) : 0 < x := by
  induction rounds generalizing used with
  | zero => cases h
  | succ rounds ih =>
    rw [gammaLoop] at h
    dsimp only at h
    split at h
    case isTrue => exact ih h
    case isFalse hbase =>
      split at h
      case isTrue =>
        cases h
        exact mul_pos hd (pow_pos (not_le.mp hbase) 3)
      case isFalse => exact ih h

theorem gamma_pos {shape x : ℝ} (hshape : 1 ≤ shape) {rounds used used' : Nat}
    (h : gamma draws rounds shape used = some (x, used')) : 0 < x := by
  cases rounds with
  | zero => cases h
  | succ rounds =>
    rw [gamma, if_neg (not_lt.mpr hshape)] at h
    exact gammaLoop_pos (by linarith) h

theorem betaSample_nonneg {alpha beta x : ℝ} (halpha : 1 ≤ alpha) (hbeta : 1 ≤ beta)
    {rounds used used' : Nat} (h : betaSample draws rounds alpha beta used = some (x, used')) :
    0 ≤ x := by
  obtain ⟨⟨left, used₁⟩, hleft, h⟩ := Option.bind_eq_some_iff.mp h
  obtain ⟨⟨right, used₂⟩, hright, h⟩ := Option.bind_eq_some_iff.mp h
  have hl := gamma_pos halpha hleft
  have hr := gamma_pos hbeta hright
  cases h
  rw [if_pos (add_pos hl hr)]
  exact (div_pos hl (add_pos hl hr)).le

/-- The shape parameters of a three-point estimate are at least one. -/
theorem one_le_shape {part span : ℝ} (hpart : 0 ≤ part) (hspan : 0 < span) :
    1 ≤ 1 + pertLambda * part / span := by
  have hfour : 0 ≤ pertLambda := by norm_num [pertLambda]
  exact le_add_of_nonneg_right (div_nonneg (mul_nonneg hfour hpart) hspan.le)

theorem minimum_le_pert {range : LossRange} {rounds used used' : Nat} {x : ℝ}
    (h : pert draws rounds range used = some (x, used')) : (range.minimumGbp : ℝ) ≤ x := by
  unfold pert at h
  dsimp only at h
  split at h
  case isTrue =>
    cases h
    exact le_rfl
  case isFalse hspan =>
    obtain ⟨⟨sample, used₁⟩, hsample, h⟩ := Option.bind_eq_some_iff.mp h
    cases h
    have hlt : (range.minimumGbp : ℝ) < range.maximumGbp := not_le.mp hspan
    have hpos : (0 : ℝ) < range.maximumGbp - range.minimumGbp := sub_pos.mpr hlt
    have hnonneg := betaSample_nonneg
      (one_le_shape (sub_nonneg.mpr (le_min (le_max_right _ _) hlt.le)) hpos)
      (one_le_shape (sub_nonneg.mpr (min_le_right _ _)) hpos) hsample
    exact le_add_of_nonneg_right (mul_nonneg hnonneg hpos.le)

end

/-! The loss of one event. -/

namespace Simulation
variable {sim : Simulation}

/-- Of a larger loss at least as much remains after the insurance. -/
theorem net_mono (sim : Simulation) {gross gross' : ℝ} (h : gross' ≤ gross) :
    gross' - sim.recovery gross' ≤ gross - sim.recovery gross := by
  unfold recovery
  rcases max_cases (0 : ℝ) (min (gross - sim.profile.retentionGbp) sim.profile.cyberCoverGbp)
    with hmax | hmax <;>
  rcases max_cases (0 : ℝ) (min (gross' - sim.profile.retentionGbp) sim.profile.cyberCoverGbp)
    with hmax' | hmax' <;>
  rcases min_cases (gross - sim.profile.retentionGbp) (sim.profile.cyberCoverGbp : ℝ)
    with hmin | hmin <;>
  rcases min_cases (gross' - sim.profile.retentionGbp) (sim.profile.cyberCoverGbp : ℝ)
    with hmin' | hmin' <;>
  linarith

theorem grossLoss_eq (gross : ℝ) (detected : Bool) :
    sim.grossLoss gross detected =
      min (if detected then gross * sim.estimate.detectedLossMultiplier else gross)
        sim.profile.maximumCredibleSingleLossGbp := by
  unfold grossLoss
  split
  · dsimp only
    split
    case isTrue h => exact (min_eq_right h.le).symm
    case isFalse h => exact (min_eq_left (not_lt.mp h)).symm
  · dsimp only
    split
    case isTrue h => exact (min_eq_right h.le).symm
    case isFalse h => exact (min_eq_left (not_lt.mp h)).symm

/-- A detected loss is no larger than one that is not. -/
theorem grossLoss_mono {gross : ℝ} (hgross : 0 ≤ gross)
    (hmultiplier : sim.estimate.detectedLossMultiplier ≤ 1) {detected detected' : Bool}
    (h : detected → detected') : sim.grossLoss gross detected' ≤ sim.grossLoss gross detected := by
  have hreal : (sim.estimate.detectedLossMultiplier : ℝ) ≤ 1 := by exact_mod_cast hmultiplier
  rw [grossLoss_eq, grossLoss_eq]
  refine min_le_min ?_ le_rfl
  cases detected with
  | true =>
    have hboth : detected' = true := h rfl
    rw [hboth]
  | false =>
    cases detected' with
    | true => exact mul_le_of_le_one_right hgross hreal
    | false => exact le_rfl

/-! One pass, one year and the whole run, in two runs that differ in the parameters. -/

/-- The sampler of the two runs is at the same draw, and no year lost more. -/
structure InStep (residual baseline : SimulationState) : Prop where
  attempts : residual.attempts = baseline.attempts
  annualLoss : residual.annualLoss ≤ baseline.annualLoss
  losses : List.Forall₂ (· ≤ ·) residual.losses baseline.losses

/-- The other run follows an attempt whose draws fall alike, and detects no less. -/
structure Compared (sim : Simulation) (parameters' : Dict String NodeParameters) : Prop where
  follows : Follows parameters' sim.draws
    (fun nodeId s => attempt sim.index sim.parameters sim.draws nodeId 0 s)
    (fun nodeId s => attempt sim.index parameters' sim.draws nodeId 0 s) sim.rootId
  raised : ∀ leaf, Option.Rel (· ≤ ·) (detectionOf sim.parameters leaf)
    (detectionOf parameters' leaf)

/-- The condition on one attempt: each draw of a leaf falls alike under both parameters, and so
does each draw of a detection but that of the last leaf of the path. -/
def Steady (sim : Simulation) (parameters' : Dict String NodeParameters) (s : SimulationState) :
    Prop :=
  ∀ succeeded path drawn,
    attempt sim.index sim.parameters sim.draws sim.rootId 0 s.attempts =
      some (succeeded, path, s.attempts.after drawn) →
    Took parameters' sim.draws s.attempts.used drawn ∧
    ∀ primary used₁ secondary used₂,
      pert sim.draws sim.rounds sim.estimate.primaryLoss (s.attempts.used + drawn.length) =
        some (primary, used₁) →
      pert sim.draws sim.rounds sim.estimate.secondaryLoss used₁ = some (secondary, used₂) →
      DetectsAlike sim.parameters parameters' sim.draws path used₂

/-- The passes of a loop start in such states. -/
def Throughout {σ : Type} (step : σ → Option σ) (P : σ → Prop) : Nat → σ → Prop
  | 0, _ => True
  | n + 1, s => P s ∧ ∀ s', step s = some s' → Throughout step P n s'

/-- The condition on a year and on a run. -/
def SteadyYear (sim : Simulation) (parameters' : Dict String NodeParameters) (s : SimulationState) :
    Prop :=
  Throughout sim.attemptStep (sim.Steady parameters') (sim.openYear s).1 (sim.openYear s).2

def SteadyRun (sim : Simulation) (parameters' : Dict String NodeParameters) (iterations : Nat) :
    Prop :=
  Throughout sim.yearStep (sim.SteadyYear parameters') iterations start

theorem throughout_of_forall {σ : Type} {step : σ → Option σ} {P : σ → Prop} (h : ∀ s, P s)
    (n : Nat) (s : σ) : Throughout step P n s := by
  induction n generalizing s with
  | zero => trivial
  | succ n ih => exact ⟨h s, fun s' _ => ih s'⟩

/-- What a scenario makes sure of. -/
structure Plausible (sim : Simulation) : Prop where
  primary : 0 ≤ sim.estimate.primaryLoss.minimumGbp
  secondary : 0 ≤ sim.estimate.secondaryLoss.minimumGbp
  nonneg : 0 ≤ sim.estimate.detectedLossMultiplier
  multiplier : sim.estimate.detectedLossMultiplier ≤ 1

theorem Plausible.gross_nonneg (h : sim.Plausible) {primary secondary : ℝ} {used used₁ used₂ : Nat}
    (hprimary : pert sim.draws sim.rounds sim.estimate.primaryLoss used = some (primary, used₁))
    (hsecondary :
      pert sim.draws sim.rounds sim.estimate.secondaryLoss used₁ = some (secondary, used₂)) :
    0 ≤ primary + secondary := by
  have hp : (0 : ℝ) ≤ sim.estimate.primaryLoss.minimumGbp := by exact_mod_cast h.primary
  have hs : (0 : ℝ) ≤ sim.estimate.secondaryLoss.minimumGbp := by exact_mod_cast h.secondary
  exact add_nonneg (hp.trans (minimum_le_pert hprimary)) (hs.trans (minimum_le_pert hsecondary))

variable {parameters' : Dict String NodeParameters} {residual baseline : SimulationState}

theorem attemptStep_inStep (hsim : sim.Plausible) (hcompared : sim.Compared parameters')
    (hsteady : sim.Steady parameters' baseline) (h : InStep residual baseline) :
    Option.Rel InStep (attemptStep { sim with parameters := parameters' } residual)
      (sim.attemptStep baseline) := by
  obtain ⟨succeeded, path, drawn, hrun, hfollows⟩ := hcompared.follows baseline.attempts
  dsimp only at hrun hfollows
  obtain ⟨htook, hdetects⟩ := hsteady succeeded path drawn hrun
  unfold attemptStep
  dsimp only
  rw [h.attempts, hfollows htook]
  refine rel_bind_same fun result hattempt => ?_
  cases Option.some.inj (hrun.symm.trans hattempt)
  dsimp only
  cases succeeded with
  | false => exact .some ⟨rfl, h.annualLoss, h.losses⟩
  | true =>
    refine rel_bind_same fun ⟨primary, used₁⟩ hprimary => ?_
    refine rel_bind_same fun ⟨secondary, used₂⟩ hsecondary => ?_
    have halike := hdetects primary used₁ secondary used₂ hprimary hsecondary
    refine rel_bind (anyDetected_raised hcompared.raised halike) ?_
    rintro ⟨detected', _⟩ ⟨detected, used⟩ - ⟨hused, hdetected⟩
    dsimp only at hused hdetected ⊢
    have hgross := hsim.gross_nonneg hprimary hsecondary
    have hnet := net_mono sim (grossLoss_mono hgross hsim.multiplier hdetected)
    exact .some ⟨by rw [hused], add_le_add h.annualLoss hnet, h.losses⟩

theorem repeated_inStep {step step' : SimulationState → Option SimulationState}
    {P : SimulationState → Prop}
    (hstep : ∀ s' s, P s → InStep s' s → Option.Rel InStep (step' s') (step s)) {n : Nat}
    (hP : Throughout step P n baseline) (h : InStep residual baseline) :
    Option.Rel InStep (repeated step' n residual) (repeated step n baseline) := by
  induction n generalizing residual baseline with
  | zero => exact .some h
  | succ n ih =>
    exact rel_bind (hstep residual baseline hP.1 h) fun s' s hrun hs => ih (hP.2 s hrun) hs

theorem yearStep_inStep (hsim : sim.Plausible) (hcompared : sim.Compared parameters')
    (hsteady : sim.SteadyYear parameters' baseline) (h : InStep residual baseline) :
    Option.Rel InStep (yearStep { sim with parameters := parameters' } residual)
      (sim.yearStep baseline) := by
  have hattempts : Option.Rel InStep
      (repeated (attemptStep { sim with parameters := parameters' }) (sim.openYear baseline).1
        (openYear { sim with parameters := parameters' } residual).2)
      (repeated sim.attemptStep (sim.openYear baseline).1 (sim.openYear baseline).2) := by
    refine repeated_inStep (fun _ _ => attemptStep_inStep hsim hcompared) hsteady ?_
    refine ⟨?_, le_rfl, h.losses⟩
    unfold openYear
    dsimp only
    rw [h.attempts]
  have hcount : (openYear { sim with parameters := parameters' } residual).1 =
      (sim.openYear baseline).1 := by
    unfold openYear
    dsimp only
    rw [h.attempts]
  unfold yearStep
  dsimp only
  rw [hcount]
  refine rel_map hattempts fun s' s hs => ?_
  exact ⟨hs.attempts, hs.annualLoss,
    List.rel_append hs.losses (List.Forall₂.cons hs.annualLoss List.Forall₂.nil)⟩

theorem run_inStep (hsim : sim.Plausible) (hcompared : sim.Compared parameters')
    {iterations : Nat} (hsteady : sim.SteadyRun parameters' iterations) :
    Option.Rel InStep
      (repeated (yearStep { sim with parameters := parameters' }) iterations start)
      (repeated sim.yearStep iterations start) :=
  repeated_inStep (fun _ _ => yearStep_inStep hsim hcompared) hsteady
    ⟨rfl, le_rfl, List.Forall₂.nil⟩

end Simulation

/-! The parameters with remediations and without. -/

section
variable {scenario : AttackScenario} {applied : List Remediation} {nodeId : String}

theorem target_of_mem_reaching {r : Remediation} (h : r ∈ reaching applied nodeId) :
    nodeId ∈ r.targetAttackNodeIds := by
  obtain ⟨r', -, hmem⟩ := List.mem_flatMap.mp h
  obtain ⟨hcount, hsame⟩ := List.mem_replicate.mp hmem
  subst hsame
  exact List.count_pos_iff.mp (Nat.pos_of_ne_zero hcount)

theorem lowered_success {p : NodeParameters} {l : List Remediation}
    (h : ∀ r ∈ l, r.successProbabilityReduction = 0) :
    (p.lowered l).successProbability = p.successProbability := by
  induction l generalizing p with
  | nil => rfl
  | cons r l ih =>
    obtain ⟨hr, hrest⟩ := List.forall_mem_cons.mp h
    refine (ih hrest).trans ?_
    show p.successProbability * (1 - r.successProbabilityReduction) = p.successProbability
    rw [hr, sub_zero, mul_one]

theorem lowered_detection {p : NodeParameters} {l : List Remediation}
    (h : ∀ r ∈ l, r.detectionProbabilityUplift = 0) :
    (p.lowered l).detectionProbability = p.detectionProbability := by
  induction l generalizing p with
  | nil => rfl
  | cons r l ih =>
    obtain ⟨hr, hrest⟩ := List.forall_mem_cons.mp h
    refine (ih hrest).trans ?_
    show 1 - (1 - p.detectionProbability) * (1 - r.detectionProbabilityUplift) =
      p.detectionProbability
    rw [hr]
    ring

theorem get?_effectiveParameters_eq (applied : List Remediation) (tree : ScenarioAttackTree) :
    (effectiveParameters tree applied).get? nodeId =
      ((effectiveParameters tree []).get? nodeId).map
        (·.lowered (reaching applied nodeId)) := by
  have hitems := items_effectiveParameters tree applied
  have hown : effectiveParameters tree [] = ownParameters tree := rfl
  rw [hown]
  unfold Dict.get?
  rw [hitems, List.find?_map, Option.map_map, Option.map_map]
  cases hfound : (ownParameters tree).items.find? fun item => item.1 = nodeId with
  | none =>
    have hnone : (ownParameters tree).items.find? ((fun item => decide (item.1 = nodeId)) ∘
        fun item => (item.1, item.2.lowered (reaching applied item.1))) = none := hfound
    rw [hnone]
    rfl
  | some item =>
    have hsome : (ownParameters tree).items.find? ((fun item => decide (item.1 = nodeId)) ∘
        fun item => (item.1, item.2.lowered (reaching applied item.1))) = some item := hfound
    have hid : item.1 = nodeId := by simpa using List.find?_some hfound
    rw [hsome]
    subst hid
    rfl

theorem own_probable {digit : Char → Bool} (hvalid : scenario.valid digit = true)
    {p : NodeParameters}
    (h : (effectiveParameters scenario.attackTree []).get? nodeId = some p) : p.Probable := by
  have hitem : (nodeId, p) ∈ (ownParameters scenario.attackTree).items := Dict.get?_eq_some.mp h
  obtain ⟨node, hnode, heq⟩ := List.mem_map.mp (Dict.mem_ofList hitem)
  cases heq
  exact ScenarioAttackNode.probable (AttackScenario.valid_node hvalid hnode)

/-- With admitted remediations a leaf is no less likely to be detected. -/
theorem detection_raised {digit : Char → Bool} (hvalid : scenario.valid digit = true)
    (happlied : ∀ r ∈ applied, r.valid digit = true) (nodeId : String) :
    Option.Rel (· ≤ ·) (detectionOf (effectiveParameters scenario.attackTree []) nodeId)
      (detectionOf (effectiveParameters scenario.attackTree applied) nodeId) := by
  unfold detectionOf
  rw [get?_effectiveParameters_eq applied]
  cases hp : (effectiveParameters scenario.attackTree []).get? nodeId with
  | none => exact .none
  | some p =>
    have hpriced : ∀ r ∈ reaching applied nodeId, r.Priced :=
      fun r hr => Remediation.priced (happlied r (mem_reaching hr))
    exact .some (NodeParameters.lowered_safer hpriced (own_probable hvalid hp)).2.2

/-! The condition. -/

/-- No remediation lowers the success probability of a leaf. -/
def LeavesSuccess (tree : AttackTree) (applied : List Remediation) : Prop :=
  ∀ leaf ∈ tree.nodes, leaf.operator = .leaf →
    ∀ r ∈ applied, leaf.attackNodeId ∈ r.targetAttackNodeIds → r.successProbabilityReduction = 0

/-- Below a child of an `AND` node that is not its last one no remediation raises the detection
probability of a leaf. -/
def RaisesLast (tree : AttackTree) (applied : List Remediation) : Prop :=
  ∀ node ∈ tree.nodes, node.operator = .and →
    ∀ c ∈ (outgoing tree.pairs node.attackNodeId).dropLast, ∀ leaf ∈ tree.nodes,
      leaf.operator = .leaf → Reach tree.Edge c leaf.attackNodeId →
      ∀ r ∈ applied, leaf.attackNodeId ∈ r.targetAttackNodeIds → r.detectionProbabilityUplift = 0

/-- The insurance takes all of every loss. -/
def CompanyFinancialProfile.CoversAll (profile : CompanyFinancialProfile) : Prop :=
  profile.retentionGbp = 0 ∧ profile.maximumCredibleSingleLossGbp ≤ profile.cyberCoverGbp

theorem treeIndex_node {tree : AttackTree} {node : AttackTreeNode}
    (h : (treeIndex tree).nodes.get? nodeId = some node) :
    node ∈ tree.nodes ∧ node.attackNodeId = nodeId := by
  have hitem := Dict.mem_ofList (Dict.get?_eq_some.mp h)
  obtain ⟨node', hnode, heq⟩ := List.mem_map.mp hitem
  cases heq
  exact ⟨hnode, rfl⟩

theorem treeIndex_edge (tree : AttackTree) :
    (fun u v => v ∈ (treeIndex tree).children u) = tree.Edge := by
  funext u v
  rw [children_treeIndex]
  exact propext mem_outgoing

theorem LeafBelow.leaf {tree : AttackTree} {c leaf : String}
    (h : LeafBelow (treeIndex tree) c leaf) :
    ∃ node ∈ tree.nodes, node.operator = .leaf ∧ node.attackNodeId = leaf ∧
      Reach tree.Edge c node.attackNodeId := by
  obtain ⟨hreach, node, hfound, hop⟩ := h
  obtain ⟨hnode, hid⟩ := treeIndex_node hfound
  rw [treeIndex_edge] at hreach
  exact ⟨node, hnode, hop, hid, hid ▸ hreach⟩

theorem known_node {tree : ScenarioAttackTree} {node : AttackTreeNode}
    (h : node ∈ (ScenarioAttackTree.attackTree tree).nodes) :
    node.attackNodeId ∈ (effectiveParameters tree []).keys := by
  have hid : node.attackNodeId ∈ (ScenarioAttackTree.attackTree tree).nodeIds :=
    List.mem_map.mpr ⟨node, h, rfl⟩
  rw [ScenarioAttackTree.attackTree, shape_nodeIds] at hid
  show node.attackNodeId ∈ (ownParameters tree).keys
  rw [ownParameters, Dict.mem_keys_ofList, List.map_map]
  exact hid

theorem simulation_compared {digit : Char → Bool} (hvalid : scenario.valid digit = true)
    {order : SetOrder (String × String)}
    (htree : attackTreeStructureIsValid order scenario.attackTree.attackTree = true)
    (happlied : ∀ r ∈ applied, r.valid digit = true) (profile : CompanyFinancialProfile)
    (draws : Nat → Rat) (rounds : Nat) :
    (simulation scenario profile [] draws rounds).Compared
      (effectiveParameters scenario.attackTree applied) where
  follows := by
    obtain ⟨hchecked, hbounded, -⟩ := (attackTreeStructureIsValid_iff order _).mp htree
    obtain ⟨root, hroot, hid⟩ := List.mem_map.mp hchecked.rooted
    rw [← hid] at hbounded
    have hfollows : Follows (effectiveParameters scenario.attackTree applied) draws
        (fun nodeId s => attempt (treeIndex scenario.attackTree.attackTree)
          (effectiveParameters scenario.attackTree []) draws nodeId 0 s)
        (fun nodeId s => attempt (treeIndex scenario.attackTree.attackTree)
          (effectiveParameters scenario.attackTree applied) draws nodeId 0 s) root.attackNodeId :=
      attempt_follows hchecked (fun node hnode => known_node hnode) hroot hbounded
        (show maxAttackTreeDepth + 0 ≤ maxAttackTreeDepth + 1 by omega)
    rw [hid] at hfollows
    exact hfollows
  raised := detection_raised hvalid happlied

theorem simulation_took {draws : Nat → Rat} {n : Nat} {drawn : Draws}
    (hsuccess : LeavesSuccess scenario.attackTree.attackTree applied)
    (hleaves : ∀ leaf ∈ drawn.map Prod.fst, ∃ node ∈ scenario.attackTree.attackTree.nodes,
      node.operator = .leaf ∧ node.attackNodeId = leaf)
    (h : Took (effectiveParameters scenario.attackTree []) draws n drawn) :
    Took (effectiveParameters scenario.attackTree applied) draws n drawn := by
  refine took_of_success (fun leaf hleaf p hp => ?_) h
  obtain ⟨node, hnode, hop, rfl⟩ := hleaves leaf hleaf
  rw [get?_effectiveParameters_eq, hp]
  refine ⟨_, rfl, lowered_success fun r hr => ?_⟩
  exact hsuccess node hnode hop r (mem_reaching hr) (target_of_mem_reaching hr)

theorem simulation_detects {draws : Nat → Rat} {depth : Nat} {s s' : AttemptState}
    {path : List String} (hlast : RaisesLast scenario.attackTree.attackTree applied)
    (h : attempt (treeIndex scenario.attackTree.attackTree)
      (effectiveParameters scenario.attackTree []) draws
      scenario.attackTree.attackTree.rootAttackNodeId depth s = some (true, path, s')) :
    ∀ leaf ∈ path.dropLast, detectionOf (effectiveParameters scenario.attackTree applied) leaf =
      detectionOf (effectiveParameters scenario.attackTree []) leaf := by
  have hends : Ends (treeIndex scenario.attackTree.attackTree)
      (fun leaf => ∃ r ∈ applied, leaf ∈ r.targetAttackNodeIds ∧ r.detectionProbabilityUplift ≠ 0)
      scenario.attackTree.attackTree.rootAttackNodeId path := by
    refine attempt_ends (fun nodeId node hnode hop c hc leaf hbelow => ?_) h
    obtain ⟨hmem, hid⟩ := treeIndex_node hnode
    rw [children_treeIndex, ← hid] at hc
    obtain ⟨node', hnode', hop', rfl, hreach⟩ := hbelow.leaf
    rintro ⟨r, hr, htarget, huplift⟩
    exact huplift (hlast node hmem hop c hc node' hnode' hop' hreach r hr htarget)
  intro leaf hleaf
  unfold detectionOf
  rw [get?_effectiveParameters_eq applied, Option.map_map]
  refine congrFun (congrArg Option.map (funext fun p => lowered_detection fun r hr => ?_)) _
  by_contra huplift
  exact hends.2 leaf hleaf ⟨r, mem_reaching hr, target_of_mem_reaching hr, huplift⟩

/-- The condition on a run is met on every stream where the remediations lower no success
probability and raise detection at the ends of paths only. -/
theorem simulation_steady (applied : List Remediation) {order : SetOrder (String × String)}
    (htree : attackTreeStructureIsValid order scenario.attackTree.attackTree = true)
    (hsuccess : LeavesSuccess scenario.attackTree.attackTree applied)
    (hlast : RaisesLast scenario.attackTree.attackTree applied) (profile : CompanyFinancialProfile)
    (draws : Nat → Rat) (rounds iterations : Nat) :
    (simulation scenario profile [] draws rounds).SteadyRun
      (effectiveParameters scenario.attackTree applied) iterations := by
  have hstep : ∀ s, (simulation scenario profile [] draws rounds).Steady
      (effectiveParameters scenario.attackTree applied) s := by
    intro s succeeded path drawn hattempt
    obtain ⟨won, _, _, hrun, hval, -⟩ := attempt_root htree
      (fun node hnode => known_node hnode) draws s.attempts
    have hsame := Option.some.inj (hrun.symm.trans hattempt)
    simp only [Prod.mk.injEq] at hsame
    obtain ⟨rfl, rfl, hafter⟩ := hsame
    cases after_injective hafter
    refine ⟨?_, fun _ _ _ _ _ _ => detectsAlike_of_early fun leaf hleaf => ?_⟩
    · exact simulation_took hsuccess (fun leaf hleaf => (hval.leaves leaf hleaf).2) hval.took
    · cases won with
      | false =>
        rw [(hval.lost rfl).1] at hleaf
        exact absurd hleaf List.not_mem_nil
      | true => exact simulation_detects hlast hattempt leaf hleaf
  exact Simulation.throughout_of_forall
    (fun _ => Simulation.throughout_of_forall hstep _ _) _ _

theorem LossRange.minimum_nonneg {range : LossRange} (h : range.valid = true) :
    0 ≤ range.minimumGbp := by
  simp only [LossRange.valid, Bool.and_eq_true, between_iff] at h
  exact h.1.1.1.1

theorem simulation_losses {digit : Char → Bool} (hvalid : scenario.valid digit = true)
    (profile : CompanyFinancialProfile) (draws : Nat → Rat) (rounds : Nat) :
    (simulation scenario profile applied draws rounds).Plausible := by
  have hfinancials : scenario.financials.valid = true := by
    simp only [AttackScenario.valid, Bool.and_eq_true] at hvalid
    exact hvalid.2
  simp only [ScenarioFinancialEstimate.valid, Bool.and_eq_true, between_iff] at hfinancials
  obtain ⟨⟨⟨⟨⟨-, hprimary⟩, hsecondary⟩, hmultiplier⟩, -⟩, -⟩ := hfinancials
  exact ⟨LossRange.minimum_nonneg hprimary, LossRange.minimum_nonneg hsecondary,
    le_trans (by norm_num) hmultiplier.1, hmultiplier.2⟩

end

/-! Where the insurance takes all, no year loses anything. -/

namespace Simulation
variable {sim : Simulation}

theorem repeated_keeps {σ : Type} {step : σ → Option σ} {P : σ → Prop}
    (hstep : ∀ s s', P s → step s = some s' → P s') {n : Nat} {s s' : σ} (hs : P s)
    (h : repeated step n s = some s') : P s' := by
  induction n generalizing s with
  | zero =>
    cases h
    exact hs
  | succ n ih =>
    obtain ⟨s₁, hrun, hrest⟩ := Option.bind_eq_some_iff.mp h
    exact ih (hstep s s₁ hs hrun) hrest

/-- Nothing was lost, in this year and before. -/
def Unhurt (s : SimulationState) : Prop := s.annualLoss = 0 ∧ ∀ loss ∈ s.losses, loss = 0

theorem net_eq_zero (hcovered : sim.profile.CoversAll)
    (hcap : 0 ≤ sim.profile.maximumCredibleSingleLossGbp) (hsim : sim.Plausible) {gross : ℝ}
    (hgross : 0 ≤ gross) (detected : Bool) :
    sim.grossLoss gross detected - sim.recovery (sim.grossLoss gross detected) = 0 := by
  have hcap' : (0 : ℝ) ≤ sim.profile.maximumCredibleSingleLossGbp := by exact_mod_cast hcap
  have hm : (0 : ℝ) ≤ sim.estimate.detectedLossMultiplier := by exact_mod_cast hsim.nonneg
  have hcover : (sim.profile.maximumCredibleSingleLossGbp : ℝ) ≤ sim.profile.cyberCoverGbp := by
    exact_mod_cast hcovered.2
  have hnonneg : 0 ≤ sim.grossLoss gross detected := by
    rw [grossLoss_eq]
    refine le_min ?_ hcap'
    split
    · exact mul_nonneg hgross hm
    · exact hgross
  have hle : sim.grossLoss gross detected ≤ sim.profile.cyberCoverGbp := by
    rw [grossLoss_eq]
    exact (min_le_right _ _).trans hcover
  rw [recovery, hcovered.1, Rat.cast_zero, sub_zero, min_eq_left hle, max_eq_right hnonneg,
    sub_self]

theorem attemptStep_unhurt (hcovered : sim.profile.CoversAll)
    (hcap : 0 ≤ sim.profile.maximumCredibleSingleLossGbp) (hsim : sim.Plausible)
    {s s' : SimulationState} (hs : Unhurt s) (h : sim.attemptStep s = some s') : Unhurt s' := by
  obtain ⟨⟨succeeded, path, attempts⟩, -, h⟩ := Option.bind_eq_some_iff.mp h
  dsimp only at h
  cases succeeded with
  | false =>
    cases h
    exact hs
  | true =>
    obtain ⟨⟨primary, used⟩, hprimary, h⟩ := Option.bind_eq_some_iff.mp h
    obtain ⟨⟨secondary, used⟩, hsecondary, h⟩ := Option.bind_eq_some_iff.mp h
    obtain ⟨⟨detected, used⟩, -, h⟩ := Option.bind_eq_some_iff.mp h
    cases h
    refine ⟨?_, hs.2⟩
    show s.annualLoss + (sim.grossLoss (primary + secondary) detected -
      sim.recovery (sim.grossLoss (primary + secondary) detected)) = 0
    rw [net_eq_zero hcovered hcap hsim (hsim.gross_nonneg hprimary hsecondary), hs.1, add_zero]

theorem yearStep_unhurt (hcovered : sim.profile.CoversAll)
    (hcap : 0 ≤ sim.profile.maximumCredibleSingleLossGbp) (hsim : sim.Plausible)
    {s s' : SimulationState} (hs : Unhurt s) (h : sim.yearStep s = some s') : Unhurt s' := by
  obtain ⟨closed, hrun, rfl⟩ := Option.map_eq_some_iff.mp h
  have hopen : Unhurt (sim.openYear s).2 := ⟨rfl, hs.2⟩
  obtain ⟨hyear, hlosses⟩ := repeated_keeps
    (fun _ _ hs h => attemptStep_unhurt hcovered hcap hsim hs h) hopen hrun
  refine ⟨hyear, fun loss hloss => ?_⟩
  cases List.mem_append.mp hloss with
  | inl hbefore => exact hlosses loss hbefore
  | inr hlast => exact (List.mem_singleton.mp hlast).trans hyear

theorem run_unhurt (hcovered : sim.profile.CoversAll)
    (hcap : 0 ≤ sim.profile.maximumCredibleSingleLossGbp) (hsim : sim.Plausible)
    {iterations : Nat} {s : SimulationState}
    (h : repeated sim.yearStep iterations start = some s) : Unhurt s :=
  repeated_keeps (fun _ _ hs h => yearStep_unhurt hcovered hcap hsim hs h)
    ⟨rfl, fun _ hloss => absurd hloss List.not_mem_nil⟩ h

end Simulation

/-! The totals of the two runs. -/

theorem summarise_sum (profile : CompanyFinancialProfile) (iterations : Nat) (s : SimulationState) :
    (summarise profile iterations s).losses.sum = s.losses.sum :=
  (List.mergeSort_perm _ _).sum_eq

theorem summarise_mean (profile : CompanyFinancialProfile) (iterations : Nat) (s : SimulationState) :
    (summarise profile iterations s).meanGbp = s.losses.sum / s.losses.length := by
  show (s.losses.mergeSort _).sum / ((s.losses.mergeSort _).length : ℝ) = _
  rw [(List.mergeSort_perm _ _).sum_eq, List.length_mergeSort]

theorem simulateScenario_ok {scenario : AttackScenario} {profile : CompanyFinancialProfile}
    {iterations rounds : Nat} {seed : Int} {applied : List Remediation} {draws : Nat → Rat}
    {result : SimulationResult}
    (h : simulateScenario scenario profile iterations seed applied draws rounds =
      .ok (some result)) :
    ∃ s, Simulation.repeated (simulation scenario profile applied draws rounds).yearStep iterations
      Simulation.start = some s ∧ result = summarise profile iterations s := by
  unfold simulateScenario at h
  split at h
  · cases h
  · split at h
    · cases h
    · obtain ⟨s, hrun, hresult⟩ := Option.map_eq_some_iff.mp (Except.ok.inj h)
      exact ⟨s, hrun, hresult.symm⟩

theorem sum_eq_zero_of_unhurt {s : SimulationState} (h : Simulation.Unhurt s) : s.losses.sum = 0 :=
  List.sum_eq_zero h.2

theorem CompanyFinancialProfile.cap_nonneg {profile : CompanyFinancialProfile}
    (h : profile.valid = true) : 0 ≤ profile.maximumCredibleSingleLossGbp := by
  simp only [CompanyFinancialProfile.valid, Bool.and_eq_true, decide_eq_true_eq] at h
  exact h.1.1.1.1.2.1.le

def sampleProfile : CompanyFinancialProfile where
  impactToleranceGbp := 100
  maximumCredibleSingleLossGbp := 1000
  cyberCoverGbp := 0
  retentionGbp := 0

section
variable {applied : List Remediation} {draws : Nat → Rat}

/-- The run over the sample scenario; it rejects no sample, for none is drawn. -/
def sampleSimulation (applied : List Remediation) (draws : Nat → Rat) : Simulation :=
  simulation sampleScenario sampleProfile applied draws 0

theorem exp_neg_one_bounds : (1 : ℝ) / 10 ^ 18 ≤ Real.exp (-1) ∧ Real.exp (-1) < 1 / 2 := by
  have hlow := Real.exp_neg_one_gt_d9
  have hhigh := Real.exp_neg_one_lt_d9
  constructor
  · linarith
  · linarith

theorem poisson_none {used : Nat} (h : draws used = 0) : poisson draws 1 used = (0, used + 1) := by
  have hexp := exp_neg_one_bounds.1
  have hproduct : (1 : ℝ) * max (draws used : ℝ) (1 / 10 ^ 18) ≤ Real.exp (-1) := by
    rw [h, Rat.cast_zero, max_eq_right (by positivity), one_mul]
    exact hexp
  unfold poisson
  rw [if_neg (by norm_num), if_pos (by norm_num)]
  show poissonLoop draws (Real.exp (-1)) (199 + 1) 1 0 used = _
  rw [poissonLoop]
  exact if_pos hproduct

theorem poisson_one {used : Nat} (h : draws used = 1 / 2) (h' : draws (used + 1) = 0) :
    poisson draws 1 used = (1, used + 2) := by
  obtain ⟨hlow, hhigh⟩ := exp_neg_one_bounds
  have hfirst : (1 : ℝ) * max (draws used : ℝ) (1 / 10 ^ 18) = 1 / 2 := by
    rw [h]
    norm_num
  have hsecond : (1 : ℝ) / 2 * max (draws (used + 1) : ℝ) (1 / 10 ^ 18) ≤ Real.exp (-1) := by
    rw [h', Rat.cast_zero, max_eq_right (by positivity)]
    linarith
  unfold poisson
  rw [if_neg (by norm_num), if_pos (by norm_num)]
  show poissonLoop draws (Real.exp (-1)) (198 + 1 + 1) 1 0 used = _
  rw [poissonLoop, hfirst, if_neg (not_le.mpr hhigh), poissonLoop]
  exact if_pos hsecond

/-- The two actions are tried in turn. -/
theorem sample_attempt {parameters : Dict String NodeParameters} {first second : NodeParameters}
    (hfirst : parameters.get? "attack:first" = some first)
    (hsecond : parameters.get? "attack:second" = some second) (s : AttemptState) :
    attempt (treeIndex sampleScenario.attackTree.attackTree) parameters draws "attack:goal" 0 s =
      if draws s.used < first.successProbability then
        some (true, ["attack:first"], s.draw "attack:first" true)
      else if draws (s.used + 1) < second.successProbability then
        some (true, ["attack:second"],
          (s.draw "attack:first" false).draw "attack:second" true)
      else some (false, [], (s.draw "attack:first" false).draw "attack:second" false) := by
  have hgoal : (treeIndex sampleScenario.attackTree.attackTree).nodes.get? "attack:goal" =
      some ⟨"attack:goal", .goal, .or⟩ := by decide +kernel
  have hleaf : (treeIndex sampleScenario.attackTree.attackTree).nodes.get? "attack:first" =
      some ⟨"attack:first", .action, .leaf⟩ := by decide +kernel
  have hleaf' : (treeIndex sampleScenario.attackTree.attackTree).nodes.get? "attack:second" =
      some ⟨"attack:second", .action, .leaf⟩ := by decide +kernel
  have hchildren : (treeIndex sampleScenario.attackTree.attackTree).children "attack:goal" =
      ["attack:first", "attack:second"] := by decide +kernel
  have hdraw : ∀ nodeId node (p : NodeParameters) (t : AttemptState),
      (treeIndex sampleScenario.attackTree.attackTree).nodes.get? nodeId = some node →
      node.operator = .leaf → parameters.get? nodeId = some p →
      attempt (treeIndex sampleScenario.attackTree.attackTree) parameters draws nodeId 1 t =
        if draws t.used < p.successProbability then some (true, [nodeId], t.draw nodeId true)
        else some (false, [], t.draw nodeId false) := by
    intro nodeId node p t hnode hop hp
    rw [attempt, hnode, hp]
    by_cases hlow : draws t.used < p.successProbability
    · simp [hop, maxAttackTreeDepth, hlow]
    · simp [hop, maxAttackTreeDepth, hlow]
  rw [attempt, hgoal]
  simp only [maxAttackTreeDepth, hchildren]
  rw [dif_neg (by omega), anyChild, hdraw _ _ _ _ hleaf rfl hfirst]
  by_cases hwon : draws s.used < first.successProbability
  · rw [if_pos hwon, if_pos hwon]
    rfl
  · rw [if_neg hwon, if_neg hwon, Option.bind_some]
    show anyChild (fun childId s => attempt (treeIndex sampleScenario.attackTree.attackTree)
      parameters draws childId 1 s) ["attack:second"] (s.draw "attack:first" false) = _
    rw [anyChild, hdraw _ _ _ _ hleaf' rfl hsecond]
    show ((if draws (s.used + 1) < second.successProbability then _ else _) :
      Option Attempted).bind _ = _
    split
    · rfl
    · rfl

theorem Simulation.repeated_add {σ : Type} (step : σ → Option σ) (m n : Nat) (s : σ) :
    Simulation.repeated step (m + n) s =
      (Simulation.repeated step m s).bind (Simulation.repeated step n) := by
  induction m generalizing s with
  | zero => rw [Nat.zero_add]; rfl
  | succ m ih =>
    rw [Nat.succ_add]
    show (step s).bind _ = ((step s).bind _).bind _
    rw [Option.bind_assoc]
    exact congrArg _ (funext ih)

/-- What a year makes of the sampler and of the losses. -/
def Year (sim : Simulation) (years used used' : Nat) (losses : List ℝ) : Prop :=
  ∀ s : SimulationState, s.attempts.used = used →
    ∃ s', Simulation.repeated sim.yearStep years s = some s' ∧ s'.attempts.used = used' ∧
      s'.losses = s.losses ++ losses

theorem Year.append {sim : Simulation} {m n used used₁ used₂ : Nat} {losses losses' : List ℝ}
    (h : Year sim m used used₁ losses) (h' : Year sim n used₁ used₂ losses') :
    Year sim (m + n) used used₂ (losses ++ losses') := by
  intro s hs
  obtain ⟨s₁, hrun, hused, hlosses⟩ := h s hs
  obtain ⟨s₂, hrun', hused', hlosses'⟩ := h' s₁ hused
  refine ⟨s₂, ?_, hused', by rw [hlosses', hlosses, List.append_assoc]⟩
  rw [Simulation.repeated_add, hrun]
  exact hrun'

theorem repeated_one {σ : Type} (step : σ → Option σ) (s : σ) :
    Simulation.repeated step 1 s = step s := by
  show (step s).bind some = step s
  exact Option.bind_fun_some _

/-- The state at the start of a year that goes on from this draw. -/
def SimulationState.opened (s : SimulationState) (used : Nat) : SimulationState :=
  { s with attempts := { s.attempts with used := used }, annualLoss := 0, yearEvents := 0 }

theorem sample_openYear {s : SimulationState} {attempts used : Nat}
    (h : poisson draws 1 s.attempts.used = (attempts, used)) :
    (sampleSimulation applied draws).openYear s = (attempts, s.opened used) := by
  have hrate : poisson draws ((1 : Rat) : ℝ) s.attempts.used = (attempts, used) := by
    rw [Rat.cast_one]
    exact h
  show ((poisson draws ((1 : Rat) : ℝ) s.attempts.used).1,
    s.opened (poisson draws ((1 : Rat) : ℝ) s.attempts.used).2) = _
  rw [hrate]

theorem year_quiet (applied : List Remediation) {used : Nat} (h : draws used = 0) :
    Year (sampleSimulation applied draws) 1 used (used + 1) [0] := by
  intro s hs
  have hpoisson : poisson draws 1 s.attempts.used = (0, used + 1) := by
    rw [hs]
    exact poisson_none h
  refine ⟨Simulation.closeYear (s.opened (used + 1)), ?_, rfl, rfl⟩
  rw [repeated_one, Simulation.yearStep, sample_openYear hpoisson]
  rfl

theorem years_quiet (applied : List Remediation) {n used : Nat} (h : ∀ i < n, draws (used + i) = 0) :
    Year (sampleSimulation applied draws) n used (used + n) (List.replicate n 0) := by
  induction n with
  | zero => exact fun s hs => ⟨s, rfl, hs, (List.append_nil _).symm⟩
  | succ n ih =>
    have hlast := year_quiet applied (h n (Nat.lt_succ_self n))
    rw [List.replicate_succ']
    exact (ih fun i hi => h i (Nat.lt_succ_of_lt hi)).append hlast

theorem sample_pert (draws : Nat → Rat) (rounds used : Nat) (loss : Rat) :
    pert draws rounds ⟨loss, loss, loss⟩ used = some ((loss : ℝ), used) := if_pos le_rfl

/-- A loss that nothing insures, detected or not. -/
theorem sample_net (detected : Bool) :
    (sampleSimulation applied draws).grossLoss (((100 : Rat) : ℝ) + ((0 : Rat) : ℝ)) detected -
      (sampleSimulation applied draws).recovery
        ((sampleSimulation applied draws).grossLoss (((100 : Rat) : ℝ) + ((0 : Rat) : ℝ)) detected) =
    if detected then 50 else 100 := by
  have hgross : (sampleSimulation applied draws).grossLoss
      (((100 : Rat) : ℝ) + ((0 : Rat) : ℝ)) detected = if detected then 50 else 100 := by
    rw [Simulation.grossLoss_eq]
    show min (if detected then (((100 : Rat) : ℝ) + ((0 : Rat) : ℝ)) * ((1 / 2 : Rat) : ℝ)
      else ((100 : Rat) : ℝ) + ((0 : Rat) : ℝ)) ((1000 : Rat) : ℝ) = _
    cases detected with
    | true => norm_num
    | false => norm_num
  have hrecovery : ∀ gross : ℝ, (sampleSimulation applied draws).recovery gross = 0 := by
    intro gross
    show max (0 : ℝ) (min (gross - ((0 : Rat) : ℝ)) ((0 : Rat) : ℝ)) = 0
    rw [Rat.cast_zero]
    exact max_eq_left (min_le_right _ _)
  rw [hgross, hrecovery, sub_zero]

/-- A year of one attempt, which succeeds at a leaf after so many draws. -/
theorem year_attacked (draws : Nat → Rat) (used more : Nat) {leaf : String} {p : NodeParameters}
    (h : draws used = 1 / 2) (h' : draws (used + 1) = 0)
    (hattempt : ∀ t : AttemptState, t.used = used + 2 → ∃ t' : AttemptState,
      attempt (treeIndex sampleScenario.attackTree.attackTree)
        (effectiveParameters sampleScenario.attackTree applied) draws "attack:goal" 0 t =
          some (true, [leaf], t') ∧ t'.used = used + 2 + more)
    (hp : (effectiveParameters sampleScenario.attackTree applied).get? leaf = some p) :
    Year (sampleSimulation applied draws) 1 used (used + 2 + more + 1)
      [if draws (used + 2 + more) < p.detectionProbability then 50 else 100] := by
  intro s hs
  have hpoisson : poisson draws 1 s.attempts.used = (1, used + 2) := by
    rw [hs]
    exact poisson_one h h'
  obtain ⟨t, hrun, ht⟩ := hattempt (s.opened (used + 2)).attempts rfl
  let detected := decide (draws (used + 2 + more) < p.detectionProbability)
  have hdetected : anyDetected draws (effectiveParameters sampleScenario.attackTree applied) [leaf]
      t.used = some (detected, used + 2 + more + 1) := by
    rw [anyDetected, hp, ht]
    by_cases hdraw : draws (used + 2 + more) < p.detectionProbability
    · simp [detected, hdraw]
    · simp [detected, hdraw, anyDetected]
  have hstep : ∃ s₁, (sampleSimulation applied draws).attemptStep (s.opened (used + 2)) = some s₁ ∧
      s₁.attempts.used = used + 2 + more + 1 ∧ s₁.losses = s.losses ∧
      s₁.annualLoss = if detected then 50 else 100 := by
    refine ⟨_, Option.bind_eq_some_iff.mpr ⟨_, hrun, Option.bind_eq_some_iff.mpr
      ⟨_, sample_pert draws 0 t.used 100, Option.bind_eq_some_iff.mpr
        ⟨_, sample_pert draws 0 t.used 0, Option.bind_eq_some_iff.mpr ⟨_, hdetected, rfl⟩⟩⟩⟩,
      rfl, rfl, ?_⟩
    exact (zero_add _).trans (sample_net detected)
  obtain ⟨s₁, hs₁, hused, hlosses, hannual⟩ := hstep
  refine ⟨Simulation.closeYear s₁, ?_, hused, ?_⟩
  · rw [repeated_one, Simulation.yearStep, sample_openYear hpoisson]
    show (Simulation.repeated _ 1 _).map _ = _
    rw [repeated_one, hs₁]
    rfl
  · show s₁.losses ++ [s₁.annualLoss] = _
    rw [hlosses, hannual]
    simp [detected]

theorem run_of_year (seed : Int) {n used : Nat} {losses : List ℝ}
    (hn : minIterations ≤ n ∧ n ≤ maxIterations) (hseed : 0 ≤ seed ∧ seed < 2 ^ 32)
    (h : Year (sampleSimulation applied draws) n 0 used losses) :
    ∃ result, simulateScenario sampleScenario sampleProfile n seed applied draws 0 =
      .ok (some result) ∧ result.losses.sum = losses.sum := by
  obtain ⟨s, hrun, -, hlosses⟩ := h Simulation.start rfl
  refine ⟨summarise sampleProfile n s, ?_, ?_⟩
  · unfold simulateScenario
    rw [if_neg (not_not_intro hn), if_neg (not_not_intro hseed)]
    show Except.ok ((Simulation.repeated (sampleSimulation applied draws).yearStep n _).map _) = _
    rw [hrun]
    rfl
  · rw [summarise_sum, hlosses]
    rfl

/-! A draw that lies between the lowered and the own success probability of the first action, and
one attempt in the last of a thousand years as the run with the remediation counts them. -/

def shiftedDraws (n : Nat) : Rat := if n = 0 ∨ n = 1003 then 1 / 2 else if n = 2 then 3 / 10 else 0

theorem shiftedDraws_quiet {n : Nat} (h : 3 ≤ n) (h' : n ≠ 1003) : shiftedDraws n = 0 := by
  unfold shiftedDraws
  rw [if_neg (by omega), if_neg (by omega)]

theorem shiftedDraws_uniform (n : Nat) : 0 ≤ shiftedDraws n ∧ shiftedDraws n < 1 := by
  unfold shiftedDraws
  split
  · norm_num
  · split
    · norm_num
    · norm_num

/-- The first year of a run in which the first action still succeeds at the draw in question. -/
theorem shifted_first (applied : List Remediation) (first second : NodeParameters)
    (hfirst : (effectiveParameters sampleScenario.attackTree applied).get? "attack:first" =
      some first)
    (hsecond : (effectiveParameters sampleScenario.attackTree applied).get? "attack:second" =
      some second) (hlow : (3 / 10 : Rat) < first.successProbability) :
    Year (sampleSimulation applied shiftedDraws) 1000 0 1003
      ((if 0 < first.detectionProbability then 50 else 100) :: List.replicate 999 0) := by
  have hyear := year_attacked shiftedDraws 0 1 rfl rfl (fun t ht => by
      refine ⟨t.draw "attack:first" true, ?_, by rw [AttemptState.draw, ht]⟩
      rw [sample_attempt hfirst hsecond, ht]
      exact if_pos hlow) hfirst
  have hzeros : ∀ i < 999, shiftedDraws (4 + i) = 0 :=
    fun i hi => shiftedDraws_quiet (by omega) (by omega)
  have hquiet := years_quiet applied hzeros
  exact hyear.append hquiet

/-- The run with the remediation: the second action succeeds instead, a draw later, and so does
the first one in the last year. -/
theorem shifted_residual :
    Year (sampleSimulation [sampleRemediation "fix:step-up" ["attack:first"]] shiftedDraws) 1000 0
      1007 ([100] ++ List.replicate 998 0 ++ [100]) := by
  have hfirst : (effectiveParameters sampleScenario.attackTree
      [sampleRemediation "fix:step-up" ["attack:first"]]).get? "attack:first" =
      some ⟨1 / 4, 0⟩ := by decide +kernel
  have hsecond : (effectiveParameters sampleScenario.attackTree
      [sampleRemediation "fix:step-up" ["attack:first"]]).get? "attack:second" =
      some ⟨1 / 2, 0⟩ := by decide +kernel
  have hyear := year_attacked shiftedDraws 0 2 rfl rfl (fun t ht => by
      refine ⟨(t.draw "attack:first" false).draw "attack:second" true, ?_,
        by rw [AttemptState.draw, AttemptState.draw, ht]⟩
      rw [sample_attempt hfirst hsecond, ht]
      exact (if_neg (by decide +kernel)).trans (if_pos (by decide +kernel))) hsecond
  have hzeros : ∀ i < 998, shiftedDraws (5 + i) = 0 :=
    fun i hi => shiftedDraws_quiet (by omega) (by omega)
  have hquiet := years_quiet [sampleRemediation "fix:step-up" ["attack:first"]] hzeros
  have hlast := year_attacked shiftedDraws 1003 1 rfl (shiftedDraws_quiet (by omega) (by omega)) (fun t ht => by
      refine ⟨t.draw "attack:first" true, ?_, by rw [AttemptState.draw, ht]⟩
      rw [sample_attempt hfirst hsecond, ht, shiftedDraws_quiet (by omega) (by omega)]
      exact if_pos (by decide +kernel)) hfirst
  have hrun := (hyear.append hquiet).append hlast
  have hnone : ∀ n, 3 ≤ n → n ≠ 1003 → ¬shiftedDraws n < 0 := by
    intro n h h'
    rw [shiftedDraws_quiet h h']
    exact lt_irrefl 0
  rw [if_neg (hnone _ (by omega) (by omega)), if_neg (hnone _ (by omega) (by omega))] at hrun
  exact hrun

end

/-- A remediation that only raises the detection of the first action. -/
def alertRemediation : Remediation :=
  { sampleRemediation "fix:step-up" ["attack:first"] with
    successProbabilityReduction := 0
    detectionProbabilityUplift := 1 / 2 }

end Bantam
