import Bantam.Lib.Sorted
import Mathlib.Algebra.Order.Floor.Ring
import Mathlib.Data.Rat.Floor
import Mathlib.Tactic.FieldSimp
import Mathlib.Tactic.Linarith
import Mathlib.Tactic.NormNum
import Mathlib.Tactic.Positivity

/-! What a simulation reports of its annual losses: percentiles, a histogram and the exceedance
curve, in exact arithmetic. -/
namespace Bantam

/-- `HISTOGRAM_BINS` -/
def histogramBins : Nat := 24

/-- `EXCEEDANCE_POINTS` -/
def exceedancePoints : Nat := 21

structure HistogramBin (K : Type) where
  lowerGbp : K
  upperGbp : K
  count : Nat

structure LossHistogram (K : Type) where
  binWidthGbp : K
  ceilingGbp : K
  overflowCount : Nat
  bins : List (HistogramBin K)

structure ExceedancePoint (K : Type) where
  lossGbp : K
  annualProbability : K

section
variable {K : Type} [Field K] [LinearOrder K] [FloorRing K]

/-- `_percentile` -/
def percentile (sortedValues : List K) (quantile : K) : K :=
  if sortedValues = [] then 0
  else
    let index := ⌈quantile * sortedValues.length⌉ - 1
    sortedValues.getD (min (max index 0) (sortedValues.length - 1)).toNat 0

/-- `int(x)` -/
def truncate (x : K) : Int := if 0 ≤ x then ⌊x⌋ else ⌈x⌉

/-- The bin of a loss, before it is counted. -/
def binIndex (width value : K) : Int := min ((histogramBins : Int) - 1) (truncate (value / width))

/-- One pass of the loop of `_histogram` over the counts and the overflow. -/
def histogramStep (top width : K) (state : List Nat × Nat) (value : K) :
    Option (List Nat × Nat) :=
  if top < value then some (state.1, state.2 + 1)
  else (Tally.bump state.1 (binIndex width value)).map fun counts => (counts, state.2)

/-- `_histogram`; none where a negative loss has no bin. -/
def lossHistogram (losses : List K) (ceiling : K) : Option (LossHistogram K) :=
  let top := max ceiling 1
  let width := top / histogramBins
  (losses.foldlM (histogramStep top width) (List.replicate histogramBins 0, 0)).map fun state =>
    { binWidthGbp := width
      ceilingGbp := top
      overflowCount := state.2
      bins := state.1.mapIdx fun index count => ⟨index * width, (index + 1) * width, count⟩ }

/-- `_exceedance_curve`; none where there is nothing to divide by. -/
def exceedanceCurve (losses : List K) (ceiling : K) : Option (List (ExceedancePoint K)) :=
  let top := max ceiling 1
  let total := losses.length
  if total = 0 then none
  else some ((List.range exceedancePoints).map fun (step : Nat) =>
    let threshold := top * step / ((exceedancePoints - 1 : Nat) : K)
    let exceeding := total - Sorted.bisectRight losses threshold
    ⟨threshold, exceeding / total⟩)

end

/-! Percentiles. -/

section
variable {K : Type} [Field K] [LinearOrder K] [IsStrictOrderedRing K] [FloorRing K]
  {losses : List K} {q q' : K}

/-- The place of a percentile. -/
def percentileIndex (n : Nat) (q : K) : Nat := (min (max (⌈q * n⌉ - 1) 0) ((n : Int) - 1)).toNat

omit [IsStrictOrderedRing K] in
theorem percentileIndex_lt {n : Nat} (h : 0 < n) (q : K) : percentileIndex n q < n := by
  unfold percentileIndex
  omega

theorem percentileIndex_mono (n : Nat) (h : q ≤ q') : percentileIndex n q ≤ percentileIndex n q' := by
  have hceil : ⌈q * n⌉ ≤ ⌈q' * (n : K)⌉ :=
    Int.ceil_le_ceil (mul_le_mul_of_nonneg_right h (Nat.cast_nonneg n))
  unfold percentileIndex
  omega

/-- Up to the place of a percentile there are at least as many losses as it says. -/
theorem le_percentileIndex {n : Nat} (hn : 0 < n) (hq : q ≤ 1) :
    q * n ≤ (percentileIndex n q + 1 : Nat) := by
  have hceil : ⌈q * (n : K)⌉ ≤ n := by
    rw [Int.ceil_le]
    calc
      q * n ≤ 1 * n := mul_le_mul_of_nonneg_right hq (Nat.cast_nonneg n)
      _ = ((n : Int) : K) := by rw [one_mul, Int.cast_natCast]
  have hindex : ⌈q * (n : K)⌉ ≤ ((percentileIndex n q + 1 : Nat) : Int) := by
    unfold percentileIndex
    omega
  calc
    q * n ≤ (⌈q * (n : K)⌉ : K) := Int.le_ceil _
    _ ≤ (((percentileIndex n q + 1 : Nat) : Int) : K) := Int.cast_le.mpr hindex
    _ = (percentileIndex n q + 1 : Nat) := Int.cast_natCast _

omit [IsStrictOrderedRing K] in
theorem percentile_eq (h : 0 < losses.length) (q : K) :
    percentile losses q = losses.get ⟨_, percentileIndex_lt h q⟩ := by
  have hne : losses ≠ [] := List.ne_nil_of_length_pos h
  have hlt : percentileIndex losses.length q < losses.length := percentileIndex_lt h q
  unfold percentile
  rw [if_neg hne]
  exact (List.getElem_eq_getD 0).symm

theorem percentile_mono (hsorted : losses.Pairwise (· ≤ ·)) (h : q ≤ q') :
    percentile losses q ≤ percentile losses q' := by
  by_cases hpos : 0 < losses.length
  · rw [percentile_eq hpos, percentile_eq hpos]
    exact Sorted.getElem_mono hsorted (percentileIndex_mono _ h) _ _
  · have hnil : losses = [] := List.length_eq_zero_iff.mp (Nat.eq_zero_of_not_pos hpos)
    rw [percentile, percentile, if_pos hnil, if_pos hnil]

theorem above_percentile (hsorted : losses.Pairwise (· ≤ ·)) (hpos : 0 < losses.length)
    (hq : q ≤ 1) :
    (losses.countP (fun loss => decide (percentile losses q < loss)) : K) / losses.length ≤
      1 - q := by
  have hlt := percentileIndex_lt hpos q
  have hcount : losses.countP (fun loss => decide (percentile losses q < loss)) ≤
      losses.length - (percentileIndex losses.length q + 1) := by
    rw [percentile_eq hpos]
    exact Sorted.countP_above_le (Sorted.take_le_getElem hsorted hlt)
  have hlength : (0 : K) < losses.length := Nat.cast_pos.mpr hpos
  have hindex := le_percentileIndex hpos hq
  rw [div_le_iff₀ hlength]
  calc
    (losses.countP (fun loss => decide (percentile losses q < loss)) : K)
    _ ≤ ((losses.length - (percentileIndex losses.length q + 1) : Nat) : K) :=
      Nat.cast_le.mpr hcount
    _ = losses.length - (percentileIndex losses.length q + 1 : Nat) := Nat.cast_sub hlt
    _ ≤ (1 - q) * losses.length := by linarith

/-! The histogram. -/

/-- The bin of a loss that is not negative. -/
def binPlace (width value : K) : Nat := (binIndex width value).toNat

theorem binIndex_eq {width value : K} (hwidth : 0 < width) (hvalue : 0 ≤ value) :
    binIndex width value = min ((histogramBins : Int) - 1) ⌊value / width⌋ := by
  rw [binIndex, truncate, if_pos (div_nonneg hvalue hwidth.le)]

theorem binPlace_cast {width value : K} (hwidth : 0 < width) (hvalue : 0 ≤ value) :
    ((binPlace width value : Nat) : Int) = min ((histogramBins : Int) - 1) ⌊value / width⌋ := by
  have hfloor : 0 ≤ ⌊value / width⌋ := Int.floor_nonneg.mpr (div_nonneg hvalue hwidth.le)
  have hbins : 0 ≤ (histogramBins : Int) - 1 := by decide
  rw [binPlace, binIndex_eq hwidth hvalue]
  exact Int.toNat_of_nonneg (le_min hbins hfloor)

theorem binPlace_lt {width value : K} (hwidth : 0 < width) (hvalue : 0 ≤ value) :
    binPlace width value < histogramBins := by
  have hplace := binPlace_cast hwidth hvalue
  have hle : ((binPlace width value : Nat) : Int) ≤ (histogramBins : Int) - 1 := hplace ▸ min_le_left _ _
  omega

/-- A loss up to the top lies between the bounds of its bin, both included. -/
theorem binPlace_bounds {top value : K} (htop : 0 < top) (hvalue : 0 ≤ value) (hle : value ≤ top) :
    (binPlace (top / histogramBins) value : K) * (top / histogramBins) ≤ value ∧
      value ≤ ((binPlace (top / histogramBins) value : K) + 1) * (top / histogramBins) := by
  have hbins : (0 : K) < histogramBins := Nat.cast_pos.mpr (by decide)
  have hwidth : 0 < top / (histogramBins : K) := div_pos htop hbins
  have hplace := binPlace_cast hwidth hvalue
  set width := top / (histogramBins : K) with hdef
  set place := binPlace width value with hp
  have hlow : ((place : Int) : K) ≤ value / width :=
    Int.le_floor.mp (hplace ▸ min_le_right _ _)
  rw [Int.cast_natCast, le_div_iff₀ hwidth] at hlow
  refine ⟨hlow, ?_⟩
  cases le_total ((histogramBins : Int) - 1) ⌊value / width⌋ with
  | inl hlast =>
    rw [min_eq_left hlast] at hplace
    have hsum : (place : K) + 1 = histogramBins := by
      have hnat : place + 1 = histogramBins := by omega
      exact_mod_cast hnat
    calc
      value ≤ top := hle
      _ = (place + 1) * width := by rw [hsum, hdef, mul_div_cancel₀ _ hbins.ne']
  | inr hinner =>
    rw [min_eq_right hinner] at hplace
    have hlt : value / width < (place : K) + 1 := by
      have hfloor := Int.lt_floor_add_one (value / width)
      rw [← hplace, Int.cast_natCast] at hfloor
      exact hfloor
    exact ((div_lt_iff₀ hwidth).mp hlt).le

omit [IsStrictOrderedRing K] in
/-- The loop counts what lies above the top, and fills the bins with the rest. -/
theorem foldlM_histogramStep (top width : K) (losses : List K) (counts : List Nat) (overflow : Nat) :
    losses.foldlM (histogramStep top width) (counts, overflow) =
      (Tally.fill (binIndex width) (losses.filter fun loss => decide (loss ≤ top)) counts).map
        fun counts => (counts, overflow + losses.countP fun loss => decide (top < loss)) := by
  induction losses generalizing counts overflow with
  | nil => rfl
  | cons loss losses ih =>
    rw [List.foldlM_cons, histogramStep]
    by_cases habove : top < loss
    · rw [if_pos habove, List.filter_cons_of_neg (by simpa using habove),
        List.countP_cons_of_pos (by simpa using habove)]
      refine (ih counts (overflow + 1)).trans ?_
      simp only [Nat.add_assoc, Nat.add_comm 1]
    · rw [if_neg habove, List.filter_cons_of_pos (by simpa using habove),
        List.countP_cons_of_neg (by simpa using habove), Tally.fill, List.foldlM_cons]
      cases hbump : Tally.bump counts (binIndex width loss) with
      | none => rfl
      | some bumped => exact ih bumped overflow

/-- What a histogram should say: every loss is counted once, a loss up to the top in a bin that
contains it, by a function that places each of them. -/
structure LossHistogram.Counts (h : LossHistogram K) (losses : List K) (place : K → Nat) : Prop where
  total : (h.bins.map HistogramBin.count).sum + h.overflowCount = losses.length
  overflow : h.overflowCount = losses.countP fun loss => decide (h.ceilingGbp < loss)
  count : ∀ i bin, h.bins[i]? = some bin → bin.count =
    losses.countP fun loss => decide (loss ≤ h.ceilingGbp ∧ place loss = i)
  placed : ∀ loss ∈ losses, loss ≤ h.ceilingGbp → ∃ bin, h.bins[place loss]? = some bin ∧
    bin.lowerGbp ≤ loss ∧ loss ≤ bin.upperGbp

theorem lossHistogram_counts (hnonneg : ∀ loss ∈ losses, 0 ≤ loss) (ceiling : K) :
    ∃ h, lossHistogram losses ceiling = some h ∧ h.ceilingGbp = max ceiling 1 ∧
      h.Counts losses (binPlace h.binWidthGbp) := by
  have hbins : (0 : K) < histogramBins := Nat.cast_pos.mpr (by decide)
  have htop : 0 < max ceiling 1 := lt_max_of_lt_right one_pos
  set top := max ceiling 1 with htopdef
  have hwidth : 0 < top / (histogramBins : K) := div_pos htop hbins
  set width := top / (histogramBins : K) with hwidthdef
  set low := losses.filter fun loss => decide (loss ≤ top) with hlowdef
  have hlow : ∀ loss ∈ low, 0 ≤ loss := fun loss hloss => hnonneg loss (List.mem_filter.mp hloss).1
  have hplaces : ∀ loss ∈ low,
      binPlace width loss < (List.replicate histogramBins 0).length := by
    intro loss hloss
    rw [List.length_replicate]
    exact binPlace_lt hwidth (hlow loss hloss)
  obtain ⟨counts, hfill, hlength, hcount⟩ := Tally.fill_eq hplaces
  have hfill' : Tally.fill (binIndex width) low (List.replicate histogramBins 0) = some counts := by
    rw [← hfill]
    refine Tally.fill_congr fun loss hloss => ?_
    rw [binPlace_cast hwidth (hlow loss hloss), binIndex_eq hwidth (hlow loss hloss)]
  have hrun := foldlM_histogramStep top width losses (List.replicate histogramBins 0) 0
  rw [← hlowdef, hfill', Option.map_some, Nat.zero_add] at hrun
  have hsum : counts.sum + losses.countP (fun loss => decide (top < loss)) = losses.length := by
    have hfilled := Tally.sum_fill hplaces hfill
    have hsplit := losses.length_eq_countP_add_countP fun loss => decide (loss ≤ top)
    simp only [decide_eq_true_eq, not_le] at hsplit
    rw [hfilled, List.sum_replicate_nat, Nat.mul_zero, Nat.zero_add, hlowdef,
      ← List.countP_eq_length_filter, ← hsplit]
  have hbin (i : Nat) (bin : HistogramBin K) (h : (counts.mapIdx fun index count =>
      (⟨index * width, (index + 1) * width, count⟩ : HistogramBin K))[i]? = some bin) :
      ∃ count, counts[i]? = some count ∧ bin = ⟨i * width, (i + 1) * width, count⟩ := by
    rw [List.getElem?_mapIdx] at h
    obtain ⟨count, hi, rfl⟩ := Option.map_eq_some_iff.mp h
    exact ⟨count, hi, rfl⟩
  have hcounted (i count : Nat) (hi : counts[i]? = some count) :
      count = losses.countP fun loss => decide (loss ≤ top ∧ binPlace width loss = i) := by
    have hthere : i < histogramBins := by
      have hlt := (List.getElem?_eq_some_iff.mp hi).1
      rwa [hlength, List.length_replicate] at hlt
    rw [hcount, List.getElem?_replicate, if_pos hthere, Option.map_some, Option.some.injEq,
      Nat.zero_add, hlowdef, List.countP_filter] at hi
    rw [← hi]
    refine List.countP_congr fun loss _ => ?_
    simp only [Bool.and_eq_true, decide_eq_true_eq]
    exact and_comm
  refine ⟨_, by unfold lossHistogram; dsimp only; rw [← htopdef, ← hwidthdef, hrun]; rfl, rfl, ?_⟩
  refine ⟨?_, rfl, fun i bin h => ?_, fun loss hloss hle => ?_⟩
  · rw [← hsum]
    have hmap : (counts.mapIdx fun index count =>
        (⟨index * width, (index + 1) * width, count⟩ : HistogramBin K)).map HistogramBin.count =
        counts := by
      refine List.ext_getElem? fun i => ?_
      rw [List.getElem?_map, List.getElem?_mapIdx, Option.map_map]
      exact Option.map_id'
    exact congrArg (fun l : List Nat => l.sum + _) hmap
  · obtain ⟨count, hi, rfl⟩ := hbin i bin h
    exact hcounted i count hi
  · have hnon := hnonneg loss hloss
    have hthere : binPlace width loss < counts.length := by
      rw [hlength, List.length_replicate]
      exact binPlace_lt hwidth hnon
    refine ⟨⟨_, _, counts[binPlace width loss]⟩, ?_, binPlace_bounds htop hnon hle⟩
    rw [List.getElem?_mapIdx, List.getElem?_eq_getElem hthere]
    rfl

/-! The exceedance curve. -/

omit [IsStrictOrderedRing K] [FloorRing K] in
theorem exceedanceCurve_eq (hsorted : losses.Pairwise (· ≤ ·)) (hpos : 0 < losses.length)
    (ceiling : K) :
    exceedanceCurve losses ceiling = some ((List.range exceedancePoints).map fun (step : Nat) =>
      let threshold := max ceiling 1 * step / ((exceedancePoints - 1 : Nat) : K)
      ⟨threshold, (losses.countP fun loss => decide (threshold < loss)) / losses.length⟩) := by
  unfold exceedanceCurve
  dsimp only
  rw [if_neg hpos.ne']
  simp only [Sorted.length_sub_bisectRight hsorted]

/-- What an exceedance curve should say: it never rises, ends at the top, and gives the fraction
of the losses that lie above each threshold. -/
structure Exceeds (curve : List (ExceedancePoint K)) (losses : List K) (top : K) : Prop where
  falling : curve.Pairwise fun p p' =>
    p.lossGbp ≤ p'.lossGbp ∧ p'.annualProbability ≤ p.annualProbability
  last : curve.getLast?.map ExceedancePoint.lossGbp = some top
  exact : ∀ point ∈ curve, point.annualProbability =
    (losses.countP fun loss => decide (point.lossGbp < loss)) / losses.length

theorem exceedanceCurve_exceeds (hsorted : losses.Pairwise (· ≤ ·)) (hpos : 0 < losses.length)
    (ceiling : K) :
    ∃ curve, exceedanceCurve losses ceiling = some curve ∧
      Exceeds curve losses (max ceiling 1) := by
  have htop : 0 ≤ max ceiling 1 := (lt_max_of_lt_right one_pos).le
  have hsteps : (0 : K) < ((exceedancePoints - 1 : Nat) : K) := Nat.cast_pos.mpr (by decide)
  refine ⟨_, exceedanceCurve_eq hsorted hpos ceiling, ?_, ?_, ?_⟩
  · rw [List.pairwise_map]
    refine List.pairwise_lt_range.imp fun {step step'} hlt => ?_
    have hthreshold : max ceiling 1 * (step : K) / ((exceedancePoints - 1 : Nat) : K) ≤
        max ceiling 1 * (step' : K) / ((exceedancePoints - 1 : Nat) : K) :=
      div_le_div_of_nonneg_right
        (mul_le_mul_of_nonneg_left (Nat.cast_le.mpr hlt.le) htop) hsteps.le
    refine ⟨hthreshold, div_le_div_of_nonneg_right ?_ (Nat.cast_nonneg _)⟩
    exact Nat.cast_le.mpr (Sorted.countP_above_anti hthreshold)
  · have hlast : (List.range exceedancePoints).getLast? = some (exceedancePoints - 1) := by decide
    rw [List.getLast?_map, hlast]
    exact congrArg some (mul_div_cancel_right₀ _ hsteps.ne')
  · intro point hpoint
    obtain ⟨step, -, rfl⟩ := List.mem_map.mp hpoint
    rfl

end

/-- The statistics of losses in order agree with them, for every ceiling: a ceiling below one
counts as one. -/
theorem loss_statistics_consistent {K : Type} [Field K] [LinearOrder K] [IsStrictOrderedRing K]
    [FloorRing K] (losses : List K) (hne : losses ≠ []) (hsorted : losses.Pairwise (· ≤ ·))
    (hnonneg : ∀ loss ∈ losses, 0 ≤ loss) (ceiling : K) :
    (∃ h, lossHistogram losses ceiling = some h ∧ h.ceilingGbp = max ceiling 1 ∧
      ∃ place, h.Counts losses place) ∧
    (∀ q q', q ≤ q' → percentile losses q ≤ percentile losses q') ∧
    (∀ q ≤ 1, (losses.countP (fun loss => decide (percentile losses q < loss)) : K) /
      losses.length ≤ 1 - q) ∧
    ∃ curve, exceedanceCurve losses ceiling = some curve ∧
      Exceeds curve losses (max ceiling 1) := by
  have hpos : 0 < losses.length := List.length_pos_iff.mpr hne
  obtain ⟨h, hrun, htop, hcounts⟩ := lossHistogram_counts hnonneg ceiling
  exact ⟨⟨h, hrun, htop, _, hcounts⟩, fun q q' hq => percentile_mono hsorted hq,
    fun q hq => above_percentile hsorted hpos hq, exceedanceCurve_exceeds hsorted hpos ceiling⟩

/-- The curve over a year without loss, below a ceiling of nothing, goes on to one pound. -/
theorem curve_ends_above_ceiling :
    ((exceedanceCurve [(0 : Rat)] 0).bind fun curve =>
      curve.getLast?.map ExceedancePoint.lossGbp) = some 1 ∧ (1 : Rat) ≠ 0 := by
  decide +kernel

theorem loss_statistics_consistent_sample :
    (∃ h, lossHistogram [(0 : Rat), 0, 3, 3, 24] 6 = some h ∧ h.ceilingGbp = max 6 1 ∧
      ∃ place, h.Counts [0, 0, 3, 3, 24] place) ∧
    (∀ q q', q ≤ q' → percentile [(0 : Rat), 0, 3, 3, 24] q ≤
      percentile [(0 : Rat), 0, 3, 3, 24] q') ∧
    (∀ q ≤ 1, ([(0 : Rat), 0, 3, 3, 24].countP (fun loss =>
      decide (percentile [(0 : Rat), 0, 3, 3, 24] q < loss)) : Rat) /
        [(0 : Rat), 0, 3, 3, 24].length ≤ 1 - q) ∧
    ∃ curve, exceedanceCurve [(0 : Rat), 0, 3, 3, 24] 6 = some curve ∧
      Exceeds curve [0, 0, 3, 3, 24] (max 6 1) :=
  loss_statistics_consistent [0, 0, 3, 3, 24] (List.cons_ne_nil _ _) (by decide +kernel)
    (by decide +kernel) 6

end Bantam
