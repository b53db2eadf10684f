import Bantam.TerraformCatalog
import Mathlib.Data.List.TakeWhile

/-! Which texts the index of the Terraform blocks cannot read: those with a label that has a
malformed escape. -/
namespace Bantam

/-! Escapes. -/

/-- The text begins with this many hexadecimal digits. -/
def BeginsHex (k : Nat) (s : List Char) : Prop :=
  k ≤ s.length ∧ ∀ c ∈ s.take k, (Text.hexValue c).isSome

/-- What comes after the backslash of an escape is cut off or stands for nothing. -/
def Incomplete (named : List Char → Option Nat) : List Char → Prop
  | [] => True
  | 'x' :: rest => ¬BeginsHex 2 rest
  | 'u' :: rest => ¬BeginsHex 4 rest
  | 'U' :: rest => ¬(BeginsHex 8 rest ∧ ∀ n ∈ Text.hexNumber (rest.take 8), n ≤ 0x10ffff)
  | 'N' :: rest => ¬∃ name after, rest = '\x7b' :: name ++ '\x7d' :: after ∧ '\x7d' ∉ name ∧
      '\\' ∉ name ∧ (named name).isSome
  | _ :: _ => False

/-- Somewhere in the text an escape is incomplete; a backslash and the character after it are
passed together. -/
inductive Malformed (named : List Char → Option Nat) : List Char → Prop
  | here {rest : List Char} (h : Incomplete named rest) : Malformed named ('\\' :: rest)
  | escaped {c : Char} {rest : List Char} (h : Malformed named rest) :
      Malformed named ('\\' :: c :: rest)
  | plain {c : Char} {rest : List Char} (hc : c ≠ '\\') (h : Malformed named rest) :
      Malformed named (c :: rest)

section
variable {named : List Char → Option Nat} {s rest : List Char} {c : Char}

theorem malformed_plain (hc : c ≠ '\\') : Malformed named (c :: s) ↔ Malformed named s := by
  constructor
  · intro h
    cases h with
    | here _ => exact absurd rfl hc
    | escaped _ => exact absurd rfl hc
    | plain _ h => exact h
  · exact .plain hc

theorem malformed_append {skipped : List Char} (h : ∀ c ∈ skipped, c ≠ '\\') :
    Malformed named (skipped ++ s) ↔ Malformed named s := by
  induction skipped with
  | nil => rfl
  | cons c skipped ih =>
    obtain ⟨hc, hskipped⟩ := List.forall_mem_cons.mp h
    rw [List.cons_append, malformed_plain hc, ih hskipped]

theorem malformed_escape (h : ¬Incomplete named (c :: s)) :
    Malformed named ('\\' :: c :: s) ↔ Malformed named s := by
  constructor
  · intro hm
    cases hm with
    | here hhere => exact absurd hhere h
    | escaped hrest => exact hrest
    | plain hc _ => exact absurd rfl hc
  · exact .escaped

theorem hexNumber_isSome {digits : List Char} :
    (Text.hexNumber digits).isSome ↔ ∀ c ∈ digits, (Text.hexValue c).isSome := by
  have hfrom : ∀ (l : List Char) (n : Nat),
      (l.foldlM (fun acc c => (Text.hexValue c).map (16 * acc + ·)) n).isSome ↔
        ∀ c ∈ l, (Text.hexValue c).isSome := by
    intro l
    induction l with
    | nil => exact fun n => iff_of_true rfl (by simp)
    | cons c l ih =>
      intro n
      rw [List.foldlM_cons, List.forall_mem_cons]
      cases hc : Text.hexValue c with
      | none => simp
      | some d => simpa using ih (16 * n + d)
  exact hfrom digits 0

theorem hexRun_none {k : Nat} : hexRun k s = none ↔ ¬BeginsHex k s := by
  unfold hexRun BeginsHex
  rw [← hexNumber_isSome]
  by_cases hlen : s.length < k
  · simp [hlen, Nat.not_le_of_lt hlen]
  · simp [hlen, Nat.le_of_not_lt hlen]

theorem hexRun_bounded {k limit : Nat} :
    (∀ run, hexRun k s = some run → ¬decide (run.1 ≤ limit) = true) ↔
      ¬(BeginsHex k s ∧ ∀ n ∈ Text.hexNumber (s.take k), n ≤ limit) := by
  cases hrun : hexRun k s with
  | none => exact iff_of_true (by simp) fun h => hexRun_none.mp hrun h.1
  | some run =>
    have hbegins : BeginsHex k s := by
      by_contra hno
      rw [hexRun_none.mpr hno] at hrun
      cases hrun
    unfold hexRun at hrun
    split_ifs at hrun
    obtain ⟨n, hn, rfl⟩ := Option.map_eq_some_iff.mp hrun
    simp [hbegins, hn]

/-- What a run of digits skips has no backslash. -/
theorem hexRun_some {k n : Nat} (h : hexRun k s = some (n, rest)) :
    ∃ skipped, s = skipped ++ rest ∧ ∀ c ∈ skipped, c ≠ '\\' := by
  unfold hexRun at h
  split_ifs at h
  obtain ⟨m, hm, hrun⟩ := Option.map_eq_some_iff.mp h
  cases hrun
  refine ⟨s.take k, (List.take_append_drop k s).symm, fun c hc hback => ?_⟩
  have hvalue := hexNumber_isSome.mp (Option.isSome_iff_exists.mpr ⟨n, hm⟩) c hc
  rw [hback] at hvalue
  revert hvalue
  decide

/-- A text with a closing brace is the name before the first one, that brace and the rest. -/
theorem name_split (h : '\x7d' ∈ s) : s = s.takeWhile (· ≠ '\x7d') ++ '\x7d' ::
    s.drop ((s.takeWhile (· ≠ '\x7d')).length + 1) := by
  induction s with
  | nil => cases h
  | cons c s ih =>
    by_cases hc : c = '\x7d'
    · simp [hc]
    · have hrest : '\x7d' ∈ s := (List.mem_cons.mp h).resolve_left fun h => hc h.symm
      have htake : (c :: s).takeWhile (· ≠ '\x7d') = c :: s.takeWhile (· ≠ '\x7d') := by simp [hc]
      rw [htake, List.length_cons, List.drop_succ_cons, List.cons_append, ← ih hrest]

theorem takeWhile_name {name after : List Char} (h : '\x7d' ∉ name) :
    (name ++ '\x7d' :: after).takeWhile (· ≠ '\x7d') = name := by
  have hname : ∀ c ∈ name, decide (c ≠ '\x7d') = true :=
    fun c hc => decide_eq_true fun hbrace => h (hbrace ▸ hc)
  rw [List.takeWhile_append_of_pos hname]
  simp

theorem nameRun_none : nameRun named s = none ↔ ¬∃ name after,
    s = '\x7b' :: name ++ '\x7d' :: after ∧ '\x7d' ∉ name ∧ '\\' ∉ name ∧ (named name).isSome := by
  constructor
  · rintro hnone ⟨name, after, rfl, hbrace, hback, hname⟩
    have hmem : '\x7d' ∈ name ++ '\x7d' :: after := List.mem_append_right _ List.mem_cons_self
    simp only [List.cons_append, nameRun, takeWhile_name hbrace] at hnone
    rw [if_pos ⟨hmem, hback⟩, Option.map_eq_none_iff] at hnone
    rw [hnone] at hname
    cases hname
  · intro hno
    cases hrun : nameRun named s with
    | none => rfl
    | some run =>
      exfalso
      unfold nameRun at hrun
      split at hrun
      · dsimp only at hrun
        split_ifs at hrun with hname
        obtain ⟨n, hn, -⟩ := Option.map_eq_some_iff.mp hrun
        refine hno ⟨_, _, congrArg _ (name_split hname.1), fun h => ?_, hname.2,
          Option.isSome_iff_exists.mpr ⟨n, hn⟩⟩
        simpa using List.mem_takeWhile_imp h
      · cases hrun

theorem nameRun_some {n : Nat} (h : nameRun named s = some (n, rest)) :
    ∃ skipped, s = skipped ++ rest ∧ ∀ c ∈ skipped, c ≠ '\\' := by
  unfold nameRun at h
  split at h
  · dsimp only at h
    split_ifs at h with hname
    obtain ⟨m, -, hrun⟩ := Option.map_eq_some_iff.mp h
    cases hrun
    rename_i after
    refine ⟨'\x7b' :: (after.takeWhile (· ≠ '\x7d') ++ ['\x7d']), ?_, fun c hc hback => ?_⟩
    · rw [List.cons_append, List.append_assoc, List.singleton_append, ← name_split hname.1]
    · subst hback
      cases List.mem_cons.mp hc with
      | inl hfirst => exact absurd hfirst (by decide)
      | inr hrest =>
        cases List.mem_append.mp hrest with
        | inl hin => exact hname.2 hin
        | inr hlast => exact absurd (List.mem_singleton.mp hlast) (by decide)
  · cases h

/-- The characters of an octal escape and those of one letter are no hexadecimal or named ones. -/
theorem escapeAt_none : escapeAt named s = none ↔ Incomplete named s := by
  unfold escapeAt
  split
  · exact iff_of_true rfl trivial
  · rw [Option.map_eq_none_iff, hexRun_none]
    rfl
  · rw [Option.map_eq_none_iff, hexRun_none]
    rfl
  · rename_i rest
    rw [Option.map_eq_none_iff, Option.filter_eq_none_iff]
    exact hexRun_bounded
  · rw [Option.map_eq_none_iff, nameRun_none]
    rfl
  · exact iff_of_false (by simp) (by simp [Incomplete])
  · rename_i c rest hx hu hU hN hn
    have hcomplete : ¬Incomplete named (c :: rest) := by
      unfold Incomplete
      simp_all
    refine iff_of_false ?_ hcomplete
    split
    · split
      · simp
      · simp
    · simp

/-- The further digits of an octal escape. -/
theorem octal_skipped (s : List Char) (c : Char)
    (h : ((c :: s).take 3).takeWhile (fun d => (Literals.octal d).isSome) ≠ []) :
    ∃ skipped, s = skipped ++ (c :: s).drop
        (((c :: s).take 3).takeWhile fun d => (Literals.octal d).isSome).length ∧
      ∀ c ∈ skipped, c ≠ '\\' := by
  by_cases hc : (Literals.octal c).isSome
  · have hdigits : ((c :: s).take 3).takeWhile (fun d => (Literals.octal d).isSome) =
        c :: (s.take 2).takeWhile fun d => (Literals.octal d).isSome := by
      simp [hc]
    have hfurther : (s.take 2).takeWhile (fun d => (Literals.octal d).isSome) <+: s :=
      (List.takeWhile_prefix _).trans (List.take_prefix 2 s)
    refine ⟨(s.take 2).takeWhile fun d => (Literals.octal d).isSome, ?_, fun d hd hback => ?_⟩
    · rw [hdigits, List.length_cons, List.drop_succ_cons]
      exact (List.prefix_iff_eq_append.mp hfurther).symm
    · have hoctal := List.mem_takeWhile_imp hd
      rw [hback] at hoctal
      revert hoctal
      decide
  · exact absurd (by simp [hc]) h

theorem escapeAt_some {points : List Nat} (h : escapeAt named (c :: s) = some (points, rest)) :
    ∃ skipped, s = skipped ++ rest ∧ ∀ c ∈ skipped, c ≠ '\\' := by
  have hrun : ∀ run : Option (Nat × List Char),
      (run.map fun run => ([run.1], run.2)) = some (points, rest) →
      ∃ n, run = some (n, rest) := by
    intro run hmap
    obtain ⟨⟨n, after⟩, hsome, hpair⟩ := Option.map_eq_some_iff.mp hmap
    cases hpair
    exact ⟨n, hsome⟩
  unfold escapeAt at h
  split at h
  · rename_i hnil
    cases hnil
  · rename_i hcons
    cases hcons
    obtain ⟨n, hsome⟩ := hrun _ h
    exact hexRun_some hsome
  · rename_i hcons
    cases hcons
    obtain ⟨n, hsome⟩ := hrun _ h
    exact hexRun_some hsome
  · rename_i hcons
    cases hcons
    obtain ⟨n, hsome⟩ := hrun _ h
    exact hexRun_some (Option.filter_eq_some_iff.mp hsome).1
  · rename_i hcons
    cases hcons
    obtain ⟨n, hsome⟩ := hrun _ h
    exact nameRun_some hsome
  · rename_i hcons
    cases hcons
    cases h
    exact ⟨[], rfl, by simp⟩
  · rename_i hcons
    cases hcons
    split at h
    · split at h
      · cases h
        exact ⟨[], rfl, by simp⟩
      · cases h
        exact ⟨[], rfl, by simp⟩
    · rename_i hdigits
      cases h
      exact octal_skipped s c hdigits

/-- A text can be decoded unless it is malformed. -/
theorem unicodeEscape_none {rounds : Nat} (h : s.length ≤ rounds) :
    unicodeEscape named rounds s = none ↔ Malformed named s := by
  induction rounds generalizing s with
  | zero =>
    obtain rfl := List.length_eq_zero_iff.mp (Nat.le_zero.mp h)
    exact iff_of_false (by simp [unicodeEscape]) fun hm => by cases hm
  | succ rounds ih =>
    cases s with
    | nil => exact iff_of_false (by simp [unicodeEscape]) fun hm => by cases hm
    | cons c rest =>
      have hlen : rest.length ≤ rounds := Nat.le_of_succ_le_succ h
      unfold unicodeEscape
      by_cases hc : c = '\\'
      · subst hc
        rw [if_pos rfl]
        cases hescape : escapeAt named rest with
        | none => exact iff_of_true rfl (.here (escapeAt_none.mp hescape))
        | some run =>
          obtain ⟨points, after⟩ := run
          have hcomplete : ¬Incomplete named rest := fun hin => by
            rw [escapeAt_none.mpr hin] at hescape
            cases hescape
          cases rest with
          | nil => exact absurd trivial hcomplete
          | cons d rest =>
            obtain ⟨skipped, rfl, hskipped⟩ := escapeAt_some hescape
            have hafter : after.length ≤ rounds := by
              rw [List.length_cons, List.length_append] at hlen
              omega
            rw [Option.bind_some, Option.map_eq_none_iff, ih hafter, malformed_escape hcomplete,
              malformed_append hskipped]
      · rw [if_neg hc, Option.map_eq_none_iff, ih hlen, malformed_plain hc]

theorem decodeLabel_none {label : List Char} :
    decodeLabel named label = none ↔ Malformed named (labelBytes label) := by
  rw [decodeLabel, Option.map_eq_none_iff, unicodeEscape_none le_rfl]

end

/-! The index. -/

/-- A header whose block is extracted. -/
def Extracted (word : Char → Bool) (text : List Char) (m : Pattern.Match) : Prop :=
  m ∈ hclHeader.findAll word 0 none text ∧ (hclSpan text (maskHcl word 0 text) m).isSome

/-- Every label of every header that the text's blocks have can be decoded. -/
def Readable (readers : SourceReaders) (text : List Char) : Prop :=
  ∀ m, Extracted readers.word text m → ∀ label ∈ headerLabels readers.word m,
    ¬Malformed readers.named (labelBytes label)

section
variable {readers : SourceReaders}

theorem hclBlocks_none {text file : String} :
    hclBlocks readers.word readers.named text file = none ↔ ¬Readable readers text.toList := by
  unfold hclBlocks Readable
  rw [Option.map_eq_none_iff, Fallible.mapM_eq_none]
  simp only [not_forall, not_not, Extracted]
  constructor
  · rintro ⟨m, hm, hblock⟩
    unfold hclBlock at hblock
    cases hspan : hclSpan text.toList (maskHcl readers.word 0 text.toList) m with
    | none => rw [hspan] at hblock; cases hblock
    | some length =>
      rw [hspan] at hblock
      dsimp only at hblock
      rw [Option.map_eq_none_iff, Fallible.mapM_eq_none] at hblock
      obtain ⟨label, hlabel, hdecode⟩ := hblock
      exact ⟨m, ⟨hm, by rw [hspan]; rfl⟩, label, hlabel, decodeLabel_none.mp hdecode⟩
  · rintro ⟨m, ⟨hm, hspan⟩, label, hlabel, hmalformed⟩
    obtain ⟨length, hlength⟩ := Option.isSome_iff_exists.mp hspan
    refine ⟨m, hm, ?_⟩
    unfold hclBlock
    rw [hlength]
    dsimp only
    rw [Option.map_eq_none_iff, Fallible.mapM_eq_none]
    exact ⟨label, hlabel, decodeLabel_none.mpr hmalformed⟩

theorem textItems_ok {file : TreeFile} :
    (∃ items, textItems readers file = .ok items) ↔ Readable readers file.2.toList := by
  unfold textItems
  cases hblocks : hclBlocks readers.word readers.named file.2 (posixPath file.1) with
  | none =>
    refine iff_of_false ?_ (hclBlocks_none.mp hblocks)
    rintro ⟨items, hitems⟩
    cases hitems
  | some blocks =>
    refine iff_of_true ⟨_, rfl⟩ ?_
    by_contra hno
    rw [hclBlocks_none.mpr hno] at hblocks
    cases hblocks

end

/-- Readers of texts without names of characters. -/
def plainReaders : SourceReaders where
  parse := fun _ _ => .ok []
  loads := fun _ => .error 1
  word := isWordByte
  named := fun _ => none
  sha256 := id
  serialisedSize := fun _ => 0

end Bantam
