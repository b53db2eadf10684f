import Bantam.AsvsRuns
import Bantam.Lib.Rego
import Bantam.Lib.Tables
import Bantam.PlanIntegrity
import Mathlib.Data.List.TakeWhile

/-! What the Rego modules of the plans mean: the module that a model has proposed, the one that is
kept in its place, and the verdicts of the live runner. -/
namespace Bantam

def resultPath (scenarioId key : List Char) : List (List Char) :=
  ["input".toList, "results".toList, scenarioId, key]

/-- The rule for an outcome. -/
def outcomeRule (name : List Char) (outcome : RegoOutcome) : Rego.Rule where
  name := name
  body := [⟨resultPath outcome.1 "status".toList, .number outcome.2.1⟩,
    ⟨resultPath outcome.1 "error_code".toList, .string outcome.2.2⟩]

namespace LiveAsvsRunner

/-- The answers that `run` records, in the order of its controls. -/
def outcomes (probes : Probes) : List (Option HttpExchange) :=
  let session := fun outcome : Option HttpExchange => if probes.login then outcome else none
  let replay := match probes.logout with
    | some ⟨200, _⟩ => probes.replay
    | _ => none
  [probes.anonymous, session probes.admin, session probes.otherHistory, session probes.transfer,
    session replay]

/-- The runner holds each control to what its scenario expects. -/
theorem run_eq (probes : Probes) : run probes = (scenarios.zip (outcomes probes)).map fun r =>
    record r.1.controlId r.1.expectedStatus r.1.expectedErrorCode r.2 := rfl

/-- The results of a run as the policies are to be given them: under the scenario of each probe
that was answered, its status and its error code. -/
def results (probes : Probes) : Rego.Document
  | [root, table, scenarioId, key] =>
    if root = "input".toList ∧ table = "results".toList then do
      let row ← (scenarios.zip (outcomes probes)).find? fun r => r.1.scenarioId.toList = scenarioId
      let exchange ← row.2
      if key = "status".toList then some (.number exchange.status)
      else if key = "error_code".toList then
        exchange.errorCode.map fun code => .string code.toList
      else none
    else none
  | _ => none

end LiveAsvsRunner

section Lines
variable {line rest name start code : List Char} {n : Nat}

theorem after_eq_some (h : after start line = some rest) : line = start ++ rest := by
  unfold after at h
  split_ifs at h with hprefix
  obtain ⟨tail, rfl⟩ := List.isPrefixOf_iff_prefix.mp hprefix
  rw [List.drop_left] at h
  rw [Option.some.inj h]

theorem isLower_nameChar {c : Char} (h : c.isLower = true) : Rego.isNameChar c = true := by
  have halpha : c.isAlpha = (c.isUpper || c.isLower) := rfl
  simp [Rego.isNameChar, Char.isAlphanum, halpha, h]

theorem isDigit_nameChar {c : Char} (h : c.isDigit = true) : Rego.isNameChar c = true := by
  simp [Rego.isNameChar, Char.isAlphanum, h]

theorem isLower_not_digit {c : Char} (h : c.isLower = true) : c.isDigit = false := by
  have hlower : c.isLower = (decide (c.val ≥ 'a'.val) && decide (c.val ≤ 'z'.val)) := rfl
  simp only [hlower, Bool.and_eq_true, decide_eq_true_eq, ge_iff_le,
    UInt32.le_iff_toNat_le] at h
  simp only [Char.isDigit, Bool.and_eq_false_iff, decide_eq_false_iff_not, ge_iff_le,
    UInt32.le_iff_toNat_le]
  have h97 : 'a'.val.toNat = 97 := rfl
  have h57 : '9'.val.toNat = 57 := rfl
  omega

theorem takeWhile_drop {p : Char → Bool} (s : List Char) :
    s = s.takeWhile p ++ s.drop (s.takeWhile p).length := by
  induction s with
  | nil => rfl
  | cons c s ih =>
    by_cases hc : p c = true
    · simpa [hc] using ih
    · simp [hc]

/-- The head of a rule that the check lets through is the head of a rule. -/
theorem ruleHead?_read (h : ruleHead? line = some name) : Rego.readHead line = some name := by
  unfold ruleHead? at h
  simp only at h
  split_ifs at h with hhead
  obtain ⟨hname, htail⟩ := hhead
  have hline := takeWhile_drop (p := (· ≠ ' ')) line
  rw [htail] at hline
  rw [Option.some.inj h] at hname hline
  cases name with
  | nil => cases hname
  | cons c name =>
    simp only [isRuleName, Bool.and_eq_true, List.all_eq_true, Bool.or_eq_true,
      decide_eq_true_eq] at hname
    have hchars : ∀ d ∈ c :: name, Rego.isNameChar d = true := by
      intro d hd
      rcases List.mem_cons.mp hd with rfl | hd
      · exact isLower_nameChar hname.1
      · rcases hname.2 d hd with (hlower | hdigit) | rfl
        · exact isLower_nameChar hlower
        · exact isDigit_nameChar hdigit
        · rfl
    rw [hline]
    exact Rego.readHead_append (isLower_not_digit hname.1) hchars

theorem termScenario?_eq (h : termScenario? line = some (name, rest)) :
    line = "input.results[\"".toList ++ (name ++ rest) ∧ '"' ∉ name := by
  unfold termScenario? at h
  obtain ⟨tail, hafter, hsome⟩ := Option.bind_eq_some_iff.mp h
  dsimp only at hsome
  split_ifs at hsome
  obtain ⟨rfl, rfl⟩ := Prod.mk.inj (Option.some.inj hsome)
  refine ⟨by rw [after_eq_some hafter, ← takeWhile_drop], fun hquote => ?_⟩
  simpa using List.mem_takeWhile_imp hquote

/-- A term of a rule is an equation on the result of its scenario. -/
theorem readEquation_term {key tail : List Char} {v : Rego.Scalar} (hname : '"' ∉ name)
    (hkey : ∀ d ∈ key, Rego.isNameChar d = true) (hv : Rego.readScalar tail = some v) :
    Rego.readEquation ("input.results[\"".toList ++ (name ++ ("\"].".toList ++ (key ++
      (" == ".toList ++ tail))))) = some ⟨resultPath name key, v⟩ :=
  Rego.readEquation_index (c := 'i') "nput".toList "results".toList
    (by decide) (by decide) (by decide) hname hkey hv

theorem statusTerm?_read (h : statusTerm? line = some (name, n)) :
    Rego.readEquation line = some ⟨resultPath name "status".toList, .number n⟩ := by
  unfold statusTerm? at h
  obtain ⟨⟨id, tail⟩, hscenario, hsome⟩ := Option.bind_eq_some_iff.mp h
  obtain ⟨digits, hafter, hdigits⟩ := Option.bind_eq_some_iff.mp hsome
  obtain ⟨hline, hquote⟩ := termScenario?_eq hscenario
  rw [hline, after_eq_some hafter]
  split at hdigits
  · rename_i a b c
    split_ifs at hdigits with hrange
    obtain ⟨rfl, rfl⟩ := Prod.mk.inj (Option.some.inj hdigits)
    obtain ⟨hlow, hhigh, hb, hc⟩ := hrange
    have ha : a.isDigit = true ∧ a ≠ '0' := by
      refine ⟨?_, fun he => absurd (he ▸ hlow) (by decide)⟩
      have hge : '1'.val.toNat ≤ a.val.toNat := hlow
      have hle : a.val.toNat ≤ '5'.val.toNat := hhigh
      have h49 : '1'.val.toNat = 49 := rfl
      have h53 : '5'.val.toNat = 53 := rfl
      have h48 : '0'.val.toNat = 48 := rfl
      have h57 : '9'.val.toNat = 57 := rfl
      simp only [Char.isDigit, Bool.and_eq_true, decide_eq_true_eq, ge_iff_le,
        UInt32.le_iff_toNat_le]
      omega
    have hscalar : Rego.readScalar [a, b, c] = some (.number (Rego.digitsValue [a, b, c])) := by
      refine Rego.readScalar_number ha.2 fun d hd => ?_
      simp only [List.mem_cons, List.not_mem_nil, or_false] at hd
      rcases hd with rfl | rfl | rfl
      · exact ha.1
      · exact hb
      · exact hc
    have hvalue : Rego.digitsValue [a, b, c] =
        100 * (a.toNat - 0x30) + 10 * (b.toNat - 0x30) + (c.toNat - 0x30) := by
      simp only [Rego.digitsValue, List.foldl_cons, List.foldl_nil]
      omega
    have hsplit : "\"].status == ".toList = "\"].".toList ++ ("status".toList ++ " == ".toList) := rfl
    rw [← hvalue, hsplit, List.append_assoc, List.append_assoc]
    exact readEquation_term hquote (by decide) hscalar
  · cases hdigits

theorem isErrorCode_plain (h : isErrorCode code = true) : '\\' ∉ code := by
  intro hmem
  cases code with
  | nil => cases hmem
  | cons c code =>
    simp only [isErrorCode, Bool.and_eq_true, List.all_eq_true] at h
    cases List.mem_cons.mp hmem with
    | inl heq => exact absurd h.1 (heq ▸ by decide)
    | inr hrest => exact absurd (h.2 _ hrest) (by decide)

theorem errorTerm?_read (h : errorTerm? line = some (name, code)) :
    Rego.readEquation line = some ⟨resultPath name "error_code".toList, .string code⟩ := by
  unfold errorTerm? at h
  obtain ⟨⟨id, tail⟩, hscenario, hsome⟩ := Option.bind_eq_some_iff.mp h
  obtain ⟨quoted, hafter, hquoted⟩ := Option.bind_eq_some_iff.mp hsome
  obtain ⟨hline, hquote⟩ := termScenario?_eq hscenario
  rw [hline, after_eq_some hafter]
  dsimp only at hquoted
  split_ifs at hquoted with hcode
  obtain ⟨rfl, rfl⟩ := Prod.mk.inj (Option.some.inj hquoted)
  have hplain : '"' ∉ quoted.takeWhile (· ≠ '"') := fun hmem => by
    simpa using List.mem_takeWhile_imp hmem
  have hescape : '\\' ∉ quoted.takeWhile (· ≠ '"') := isErrorCode_plain hcode.1
  have htail : quoted = quoted.takeWhile (· ≠ '"') ++ ['"'] := by
    conv_lhs => rw [takeWhile_drop (p := (· ≠ '"')) quoted]
    rw [hcode.2]
  have hscalar := Rego.readScalar_string hplain hescape
  rw [← htail] at hscalar
  have hsplit : "\"].error_code == \"".toList =
      "\"].".toList ++ ("error_code".toList ++ (" == ".toList ++ ['"'])) := rfl
  rw [hsplit, List.append_assoc, List.append_assoc, List.append_assoc]
  exact readEquation_term hquote (by decide) hscalar

theorem trimBy_congr {p q : Char → Bool} {s : List Char} (h : ∀ c ∈ s, p c = q c) :
    Text.trimBy p s = Text.trimBy q s := by
  have drop : ∀ {t : List Char}, (∀ c ∈ t, p c = q c) → t.dropWhile p = t.dropWhile q := by
    intro t ht
    induction t with
    | nil => rfl
    | cons c t ih =>
      rw [List.dropWhile_cons, List.dropWhile_cons, ht c List.mem_cons_self,
        ih fun d hd => ht d (List.mem_cons_of_mem c hd)]
  have hback : ∀ c ∈ (s.dropWhile q).reverse, p c = q c := fun c hc =>
    h c ((List.dropWhile_suffix q).subset (List.mem_reverse.mp hc))
  rw [Text.trimBy, Text.trimBy, drop h, drop hback]

/-- In text that is printable but for its line breaks, both ways to take lines agree. -/
theorem lines_eq_moduleLines {s : List Char} (h : ∀ c ∈ s, c = '\n' ∨ Literals.Printable c) :
    Rego.lines s = moduleLines s := by
  have space : ∀ {c : Char}, Literals.Printable c → Rego.isBlank c = Text.isSpace c := by
    intro c hc
    obtain ⟨hlow, hhigh⟩ := hc
    have hblank : c = ' ' ↔ c.toNat = 0x20 := by
      rw [← Char.toNat_inj]
      rfl
    have htab : c ≠ '\t' := by
      rintro rfl
      exact absurd hlow (by decide)
    rw [Bool.eq_iff_iff]
    simp only [Rego.isBlank, Text.isSpace, htab, decide_false, Bool.or_false, Bool.or_eq_true,
      Bool.and_eq_true, decide_eq_true_eq, hblank]
    omega
  have whole : ∀ (s line : List Char), (∀ c ∈ s, c = '\n' ∨ Literals.Printable c) →
      (∀ c ∈ line, Literals.Printable c) →
      ((Rego.linesFrom line s).map (Text.trimBy Rego.isBlank)).filter (!·.isEmpty) =
        ((Text.splitLinesFrom line s).map Text.stripChars).filter (!·.isEmpty) := by
    intro s
    induction s with
    | nil =>
      intro line _ hline
      have htrim : Text.trimBy Rego.isBlank line = Text.stripChars line :=
        trimBy_congr fun c hc => space (hline c hc)
      cases line with
      | nil => rfl
      | cons c line => simp [Rego.linesFrom, Text.splitLinesFrom, htrim]
    | cons c s ih =>
      intro line hs hline
      have htrim : Text.trimBy Rego.isBlank line = Text.stripChars line :=
        trimBy_congr fun c hc => space (hline c hc)
      have hrest : ∀ d ∈ s, d = '\n' ∨ Literals.Printable d :=
        fun d hd => hs d (List.mem_cons_of_mem c hd)
      rcases hs c List.mem_cons_self with rfl | hc
      · have hbreak : Text.splitLinesFrom line ('\n' :: s) = line :: Text.splitLinesFrom [] s := by
          simpa using @Text.splitLinesFrom_newline line [] s
            fun _ hmem => absurd hmem List.not_mem_nil
        rw [Rego.linesFrom, hbreak, List.map_cons, List.map_cons, List.filter_cons,
          List.filter_cons, htrim, ih [] hrest fun _ hmem => absurd hmem List.not_mem_nil]
      · have hnewline : c ≠ '\n' := by
          rintro rfl
          exact absurd hc (by decide)
        have hbreak : Text.isLineBreak c = false := by
          obtain ⟨hlow, hhigh⟩ := hc
          simp only [Text.isLineBreak, Bool.or_eq_false_iff, Bool.and_eq_false_iff,
            decide_eq_false_iff_not]
          omega
        rw [Rego.linesFrom, Text.splitLinesFrom, if_neg (by simp [hbreak])]
        · refine ih (line ++ [c]) hrest fun d hd => ?_
          rcases List.mem_append.mp hd with hd | hd
          · exact hline d hd
          · exact List.mem_singleton.mp hd ▸ hc
        · rintro _ rfl
          exact absurd hbreak (by decide)
        · exact hnewline
  exact whole s [] h fun _ hmem => absurd hmem List.not_mem_nil

/-- The lines that the loop lets through are the rules of the outcomes that it has observed. -/
theorem observeRules_read (d : Dict (List Char) RegoOutcome) (lines : List (List Char))
    {observed : Dict (List Char) RegoOutcome} (hlength : 4 ∣ lines.length)
    (h : observeRules d lines = .ok observed) :
    ∃ items, observed.items = d.items ++ items ∧
      Rego.readRules none lines = some (items.map fun item => outcomeRule item.1 item.2) := by
  induction d, lines using observeRules.induct with
  | case1 d head statusLine errorLine close rest name id status errorId code herror hstatus hhead
      hbad =>
    simp only [observeRules, hhead, hstatus, herror, if_pos hbad] at h
    cases h
  | case2 d head statusLine errorLine close rest name id status errorId code herror hstatus hhead
      hgood hseen =>
    simp only [observeRules, hhead, hstatus, herror, if_neg hgood, if_pos hseen] at h
    cases h
  | case3 d head statusLine errorLine close rest name id status errorId code herror hstatus hhead
      hgood hnew ih =>
    simp only [observeRules, hhead, hstatus, herror, if_neg hgood, if_neg hnew] at h
    have hrest : 4 ∣ rest.length := by
      simp only [List.length_cons] at hlength
      omega
    obtain ⟨items, hitems, hread⟩ := ih hrest h
    obtain ⟨rfl, rfl⟩ : close = ['\x7d'] ∧ id = errorId := by
      simpa [not_or] using hgood
    have hfresh : name ∉ d.keys := by simpa [Dict.contains] using hnew
    rw [Dict.items_set_of_notMem hfresh, List.append_assoc] at hitems
    have hstatusRead := statusTerm?_read hstatus
    have herrorRead := errorTerm?_read herror
    -- a line that reads as an equation is not the brace that ends the rule
    have hopen : ['\x7d'] ∉ [statusLine, errorLine] := by
      have hbrace : Rego.readEquation ['\x7d'] = none := by decide
      simp only [List.mem_cons, List.not_mem_nil, or_false]
      rintro (rfl | rfl)
      · rw [hbrace] at hstatusRead
        cases hstatusRead
      · rw [hbrace] at herrorRead
        cases herrorRead
    have hrule := Rego.readRules_rule (outcomeRule name (id, status, code)).body
      (ruleHead?_read hhead) (by simp [hstatusRead, herrorRead, outcomeRule])
      (List.cons_ne_nil _ _) hopen rest
    refine ⟨(name, id, status, code) :: items, hitems, ?_⟩
    rw [List.cons_append, List.cons_append, List.nil_append] at hrule
    rw [hrule, hread]
    rfl
  | case4 d head statusLine errorLine close rest hnone =>
    rw [observeRules] at h
    split at h
    · rename_i name id status errorId code hhead hstatus herror
      exact (hnone _ _ _ _ _ hhead hstatus herror).elim
    · cases h
  | case5 lines d hshort =>
    obtain _ | ⟨a, _ | ⟨b, _ | ⟨c, _ | ⟨e, rest⟩⟩⟩⟩ := lines
    · cases h
      exact ⟨[], (List.append_nil _).symm, rfl⟩
    · simp at hlength
    · simp at hlength
    · simp at hlength
    · exact (hshort a b c e rest rfl).elim

end Lines

/-- The rules that are kept for every plan. -/
def reviewedPolicy : Rego.Policy where
  package := regoPackage.toList
  rules := (expectedRules reviewedRules).items.map fun item => outcomeRule item.1 item.2

theorem read_regoModule : Rego.read (regoModule reviewedRules).toList = some reviewedPolicy := by
  rw [regoModule_toList]
  decide +kernel

theorem reviewedPolicy_names : (reviewedPolicy.rules.map Rego.Rule.name).Nodup := by
  decide +kernel

/-- A module whose lines pass the check is one whose rules are the reviewed ones, in any order. -/
theorem checkRegoLines_read {s : List Char} {canonical : String}
    (hplain : ∀ c ∈ s, c = '\n' ∨ Literals.Printable c)
    (h : checkRegoLines (moduleLines s) reviewedRules = .ok canonical) :
    ∃ policy, Rego.read s = some policy ∧ policy.package = reviewedPolicy.package ∧
      ∀ r, r ∈ policy.rules ↔ r ∈ reviewedPolicy.rules := by
  have hlines := lines_eq_moduleLines hplain
  unfold checkRegoLines at h
  split_ifs at h with hheader hcount
  split at h
  · cases h
  · rename_i observed hobserved
    split_ifs at h with hsame
    obtain ⟨items, hitems, hread⟩ := observeRules_read .empty _
      (by rw [not_not.mp hcount]; exact Dvd.intro_left _ rfl) hobserved
    rw [Dict.empty, List.nil_append] at hitems
    simp only [Bool.not_eq_true', Bool.not_eq_false, Dict.same, Bool.and_eq_true,
      List.all_eq_true, decide_eq_true_eq, hitems] at hsame
    refine ⟨⟨regoPackage.toList, items.map fun item => outcomeRule item.1 item.2⟩, ?_, rfl,
      fun r => ?_⟩
    · refine Rego.read_lines ?_ hread
      rw [hlines]
      conv_lhs => rw [← List.take_append_drop 2 (moduleLines s), not_not.mp hheader]
      rfl
    · simp only [reviewedPolicy, List.mem_map]
      exact exists_congr fun item => and_congr_left fun _ => ⟨hsame.1 item, hsame.2 item⟩

namespace LiveAsvsRunner
variable {probes : Probes} {scenario : ScenarioDefinition} {outcome : Option HttpExchange}

theorem keyed_outcomes (probes : Probes) :
    Tables.Keyed (fun r : ScenarioDefinition × Option HttpExchange => r.1.scenarioId.toList)
      (scenarios.zip (outcomes probes)) := by
  have hkeys : (scenarios.zip (outcomes probes)).map (fun r => r.1.scenarioId.toList) =
      scenarios.map fun s => s.scenarioId.toList := rfl
  rw [Tables.Keyed, hkeys]
  decide +kernel

/-- The document has for a scenario what its probe was answered, and nothing else. -/
theorem results_eq (h : (scenario, outcome) ∈ scenarios.zip (outcomes probes)) :
    results probes (resultPath scenario.scenarioId.toList "status".toList) =
      outcome.map (fun exchange => .number exchange.status) ∧
    results probes (resultPath scenario.scenarioId.toList "error_code".toList) =
      outcome.bind fun exchange => exchange.errorCode.map fun code => .string code.toList := by
  have hfound : (scenarios.zip (outcomes probes)).find? (fun r =>
      decide (r.1.scenarioId.toList = scenario.scenarioId.toList)) = some (scenario, outcome) :=
    (Tables.lookup_eq_some_iff (keyed_outcomes probes)).mpr ⟨h, rfl⟩
  have hkeys : "error_code".toList ≠ "status".toList := by decide
  constructor
  · simp only [results, resultPath, and_self, if_true, hfound, Option.bind_eq_bind,
      Option.bind_some]
    cases outcome <;> rfl
  · simp only [results, resultPath, and_self, if_true, hfound, Option.bind_eq_bind,
      Option.bind_some, if_neg hkeys]

theorem reviewedPolicy_rules : ∀ s ∈ scenarios,
    outcomeRule (regoRuleName s.controlId)
      (s.scenarioId.toList, s.expectedStatus, s.expectedErrorCode.toList) ∈
        reviewedPolicy.rules := by
  decide +kernel

/-- A control passes exactly when the rule of its name holds of the results. -/
theorem holds_iff_pass {r : EvidenceRecord} (h : r ∈ run probes) :
    reviewedPolicy.holds (results probes) (regoRuleName r.controlId) = true ↔
      r.status = .pass := by
  rw [run_eq] at h
  obtain ⟨⟨scenario, outcome⟩, hmem, rfl⟩ := List.mem_map.mp h
  have hrule := reviewedPolicy_rules scenario (List.of_mem_zip hmem).1
  obtain ⟨hstatus, hcode⟩ := results_eq hmem
  have hholds := Rego.Policy.holds_rule reviewedPolicy_names hrule (results probes)
  rw [show (record scenario.controlId scenario.expectedStatus scenario.expectedErrorCode
    outcome).controlId = scenario.controlId from rfl]
  rw [show (outcomeRule (regoRuleName scenario.controlId) _).name =
    regoRuleName scenario.controlId from rfl] at hholds
  rw [hholds]
  simp only [Rego.Rule.holds, outcomeRule, List.all_cons, List.all_nil, Bool.and_true,
    Bool.and_eq_true, Rego.Equation.holds, decide_eq_true_eq, hstatus, hcode]
  cases outcome with
  | none => simp [record]
  | some exchange =>
    cases hcode : exchange.errorCode with
    | none => simp [record, hcode]
    | some code =>
      simp only [record, hcode, Option.map_some, Option.bind_some, Option.some.injEq,
        Rego.Scalar.number.injEq, Rego.Scalar.string.injEq, String.toList_inj]
      split_ifs with hpass <;> simpa using hpass

end LiveAsvsRunner

theorem regoText_plain {s t : String} (h : regoText s = some t) :
    ∀ c ∈ t.toList, c = '\n' ∨ Literals.Printable c := by
  unfold regoText at h
  split_ifs at h with _ hplain
  obtain rfl := Option.some.inj h
  intro c hc
  have hmem : c ∈ s.toList := by
    rw [Text.strip, String.toList_ofList, Text.stripChars, List.mem_reverse] at hc
    have hfront := (List.dropWhile_suffix Text.isSpace).subset hc
    exact (List.dropWhile_suffix Text.isSpace).subset (List.mem_reverse.mp hfront)
  by_contra hbad
  rw [not_or] at hbad
  exact hplain (List.any_eq_true.mpr ⟨c, hmem, decide_eq_true hbad⟩)

theorem decode_module_plain {v : Json} {plan : GeneratedPlan}
    (h : GeneratedPlan.decode v = some plan) :
    ∀ c ∈ plan.regoModule.toList, c = '\n' ∨ Literals.Printable c := by
  unfold GeneratedPlan.decode at h
  split_ifs at h
  simp only [Option.bind_eq_bind, Option.bind_eq_some_iff] at h
  obtain ⟨_, _, _, _, _, _, _, _, _, _, hread⟩ := h
  split_ifs at hread
  obtain ⟨module, hmodule, rfl⟩ := Option.map_eq_some_iff.mp hread
  exact regoText_plain hmodule

/-- The module of an accepted plan means what the module kept in its place means, whatever the
document, and of the results of any run of the live probes its rule for a control holds exactly
when the runner reports that the control passed. -/
theorem accepted_module_meaning (parse : String → Option Json) (raw : String) (sourceContext : Json)
    (candidate plan : GeneratedPlan)
    (hproposed : (parse raw).bind GeneratedPlan.decode = some candidate)
    (h : validateGeneratedPlan parse raw sourceContext = .ok plan) :
    ∃ proposed kept, Rego.read candidate.regoModule.toList = some proposed ∧
      Rego.read plan.regoModule.toList = some kept ∧ proposed.package = kept.package ∧
      (∀ document name, proposed.holds document name = kept.holds document name) ∧
      ∀ (probes : Probes), ∀ r ∈ LiveAsvsRunner.run probes,
        proposed.holds (LiveAsvsRunner.results probes) (regoRuleName r.controlId) = true ↔
          r.status = .pass := by
  have hkept : plan.regoModule = regoModule reviewedRules := (validateGeneratedPlan_accepted h).module
  obtain ⟨v, -, hv⟩ := Option.bind_eq_some_iff.mp hproposed
  rw [validateGeneratedPlan, hproposed] at h
  obtain ⟨hcovering, module, hmodule, -⟩ := checkPlan_ok.mp h
  rw [validateRegoModule, hcovering.reviewed_eq] at hmodule
  obtain ⟨proposed, hread, hpackage, hrules⟩ :=
    checkRegoLines_read (decode_module_plain hv) hmodule
  have hmeaning : ∀ document name,
      proposed.holds document name = reviewedPolicy.holds document name :=
    fun document name => Rego.Policy.holds_congr hrules document name
  refine ⟨proposed, reviewedPolicy, hread, hkept ▸ read_regoModule, hpackage, hmeaning,
    fun probes r hr => ?_⟩
  rw [hmeaning]
  exact LiveAsvsRunner.holds_iff_pass hr

theorem samplePlan_meaning :
    ∃ proposed kept, Rego.read canonicalText = some proposed ∧
      Rego.read (samplePlan _ quotes_mem).regoModule.toList = some kept ∧
      proposed.package = kept.package ∧
      (∀ document name, proposed.holds document name = kept.holds document name) ∧
      ∀ (probes : Probes), ∀ r ∈ LiveAsvsRunner.run probes,
        proposed.holds (LiveAsvsRunner.results probes) (regoRuleName r.controlId) = true ↔
          r.status = .pass := by
  have haccepted := samplePlan_accepted quotes_mem
  have hparse : Json.loads (samplePlan _ quotes_mem).dump.dumps =
      some (samplePlan _ quotes_mem).dump := Json.loads_dumps (GeneratedPlan.wellFormed_dump _)
  have hvalid := haccepted.validate_dump hparse rfl rfl
  have hdecode : (Json.loads (samplePlan _ quotes_mem).dump.dumps).bind GeneratedPlan.decode =
      some { samplePlan _ quotes_mem with regoModule := String.ofList canonicalText } := by
    rw [hparse, Option.bind_some, haccepted.decode_dump rfl]
  have hmeaning := accepted_module_meaning _ _ _ _ _ hdecode hvalid
  rwa [String.toList_ofList] at hmeaning

end Bantam
