import Bantam.RedactedLines
import Mathlib.Data.List.TakeWhile

/-! Whether what is shown of a text depends on a value that one of its lines assigns. -/
namespace Bantam

open Pattern

/-! Blocks of key material, which are taken out before the text is cut into lines. -/

def pemHeader : List Char := "-----BEGIN ".toList

def pemFooter : List Char := "-----END ".toList

def pemDashes : List Char := "-----".toList

/-- What follows a header or a footer that stands at the start of a text. -/
def afterMarker (opening s : List Char) : Option (List Char) :=
  match s.dropPrefix? opening with
  | none => none
  | some s =>
    if s.takeWhile (· != '-') = [] then none else (s.dropWhile (· != '-')).dropPrefix? pemDashes

/-- What follows the first footer of a text. -/
def afterFooter : List Char → Option (List Char)
  | [] => none
  | c :: s => (afterMarker pemFooter (c :: s)).or (afterFooter s)

/-- The text leaves a block open. -/
inductive OpenBlock : List Char → Prop where
  | here {s rest : List Char} : afterMarker pemHeader s = some rest → afterFooter rest = none →
      OpenBlock s
  | past {s rest t : List Char} : afterMarker pemHeader s = some rest → afterFooter rest = some t →
      OpenBlock t → OpenBlock s
  | next {c : Char} {s : List Char} : afterMarker pemHeader (c :: s) = none → OpenBlock s →
      OpenBlock (c :: s)

/-- No header and no footer is cut off by the end of the text. -/
def MarkersClosed (s : List Char) : Prop :=
  ∀ opening ∈ [pemHeader, pemFooter], ∀ label : List Char, '-' ∉ label → ¬opening ++ label <:+ s

section

variable {word : Char → Bool} {before : Option Char}

def marker (opening : String) : Pattern :=
  .all [exactly opening, some1 fun c => c != '-', exactly "-----"]

theorem ends_marker {opening : String} {s : List Char} {groups : List (List Char)} :
    (marker opening).ends word ⟨before, s, groups⟩ =
      (afterMarker opening.toList s).toList.map fun t => ⟨some '-', t, groups⟩ := by
  rw [marker, ends_all_cons, ends_exactly, afterMarker]
  cases s.dropPrefix? opening.toList with
  | none => rfl
  | some s =>
    rw [Option.toList_some, List.map_singleton, List.flatMap_singleton]
    have hsplit : s.takeWhile (· != '-') ++ s.dropWhile (· != '-') = s :=
      List.takeWhile_append_dropWhile
    have hhead : ∀ c ∈ (s.dropWhile (· != '-')).head?, (c != '-') = false :=
      fun _ hc => Text.head_dropWhile (p := (· != '-')) hc
    have hdash : ∀ c : Char, (c != '-') = true → (exactly "-----").starts c = false := by
      intro c hc
      simpa [exactly, literal, starts, one, all, nullable] using hc
    have hrun := @ends_run word (exactly "-----") (reached before opening.toList) (· != '-') 1 none
      true (s.takeWhile (· != '-')) (s.dropWhile (· != '-')) groups rfl hdash
      (fun _ hc => List.mem_takeWhile_imp (p := (· != '-')) hc) hhead
    rw [hsplit] at hrun
    show ((append (some1 fun c => c != '-') (exactly "-----")).ends word _) = _
    rw [some1, hrun, ends_exactly]
    by_cases hlabel : s.takeWhile (· != '-') = []
    · rw [if_neg (by simp only [hlabel]; simp)]
      simp only [hlabel, if_true]
      rfl
    · rw [if_pos ⟨List.length_pos_of_ne_nil hlabel, by simp⟩]
      simp only [if_neg hlabel]
      rfl

/-- What follows a block that stands at the start of a text. -/
def afterBlock (s : List Char) : Option (List Char) := (afterMarker pemHeader s).bind afterFooter

theorem head_ends_body {s : List Char} :
    ((append (.chars (fun _ => true) 0 none false) (marker "-----END ")).ends word
      ⟨before, s, []⟩).head? = (afterFooter s).map fun t => ⟨some '-', t, []⟩ := by
  show ((charsEnds _ false [] 0 none before s).flatMap ((marker "-----END ").ends word)).head? = _
  induction s generalizing before with
  | nil => rfl
  | cons c s ih =>
    have hends : charsEnds (fun _ => true) false [] 0 none before (c :: s) =
        ⟨before, c :: s, []⟩ :: charsEnds (fun _ => true) false [] 0 none (some c) s := by
      simp [charsEnds]
    rw [hends, List.flatMap_cons, List.head?_append, ih, ends_marker, afterFooter]
    show (((afterMarker pemFooter (c :: s)).toList.map _).head?).or _ = _
    cases afterMarker pemFooter (c :: s) <;> rfl

theorem head_ends_pem {s : List Char} : (pem.ends word ⟨before, s, []⟩).head? =
    (afterBlock s).map fun t => ⟨some '-', t, []⟩ := by
  have hsplit : pem.ends word ⟨before, s, []⟩ = ((marker "-----BEGIN ").ends word
      ⟨before, s, []⟩).flatMap ((append (.chars (fun _ => true) 0 none false)
        (marker "-----END ")).ends word) := by
    simp only [pem, marker, all, ends, List.flatMap_assoc]
  rw [hsplit, ends_marker, afterBlock]
  show (((afterMarker pemHeader s).toList.map _).flatMap _).head? = _
  cases afterMarker pemHeader s with
  | none => rfl
  | some rest =>
    rw [Option.toList_some, List.map_singleton, List.flatMap_singleton, head_ends_body]
    rfl

theorem matchAt_pem {s : List Char} :
    pem.matchAt word before s = (afterBlock s).map fun t => ⟨s, [], t⟩ := by
  rw [matchAt, head_ends_pem, Option.map_map]
  rfl

/-- The text without its blocks. -/
def withoutBlocks (word : Char → Bool) (s : List Char) : List Char :=
  pem.sub word "[REDACTED PEM MATERIAL]".toList 0 none s

theorem sub_pem (s : List Char) :
    pem.sub word "[REDACTED PEM MATERIAL]".toList 0 before s = withoutBlocks word s := by
  cases s with
  | nil => rfl
  | cons c s => rw [withoutBlocks, Pattern.sub, Pattern.sub, matchAt_pem, matchAt_pem]

theorem withoutBlocks_none {c : Char} {s : List Char} (h : afterBlock (c :: s) = none) :
    withoutBlocks word (c :: s) = c :: withoutBlocks word s := by
  rw [withoutBlocks, Pattern.sub, matchAt_pem, h, Option.map_none, sub_pem]

theorem withoutBlocks_some {s t : List Char} (h : afterBlock s = some t) :
    withoutBlocks word s = "[REDACTED PEM MATERIAL]".toList ++ withoutBlocks word t := by
  have hhead : (pem.ends word ⟨none, s, []⟩).head? = some ⟨some '-', t, []⟩ := by
    rw [head_ends_pem, h]
    rfl
  obtain ⟨taken, htaken⟩ := ends_takes (List.mem_of_mem_head? hhead)
  obtain ⟨c, taken, rfl⟩ := List.exists_cons_of_ne_nil fun hnil => by
    cases htaken.nullable hnil
  obtain rfl : s = c :: (taken ++ t) := htaken.rest
  rw [withoutBlocks, sub_match hhead rfl, sub_pem]

/-! A text that ends with a line break, and what follows it. -/

def Ended (s : List Char) : Prop := ∀ c ∈ s.getLast?, Text.isLineBreak c = true

theorem Ended.suffix {s t : List Char} (h : Ended s) (ht : t <:+ s) : Ended t := by
  obtain ⟨u, rfl⟩ := ht
  intro c hc
  by_cases hnil : t = []
  · rw [hnil] at hc
    cases hc
  · exact h c (by rwa [List.getLast?_append_of_ne_nil _ hnil])

theorem Ended.mem {s : List Char} (h : Ended s) (hne : s ≠ []) :
    ∃ c ∈ s, Text.isLineBreak c = true :=
  ⟨s.getLast hne, List.getLast_mem hne, h _ (List.getLast?_eq_some_getLast hne)⟩

theorem MarkersClosed.suffix {s t : List Char} (h : MarkersClosed s) (ht : t <:+ s) :
    MarkersClosed t :=
  fun opening hopening label hlabel hsuffix => h opening hopening label hlabel (hsuffix.trans ht)

theorem dropPrefix_ended {s opening : List Char} (hs : Ended s) (hne : s ≠ [])
    (hopening : ∀ c ∈ opening, Text.isLineBreak c = false) (z : List Char) :
    (s ++ z).dropPrefix? opening = (s.dropPrefix? opening).map (· ++ z) := by
  cases hdrop : s.dropPrefix? opening with
  | some t =>
    obtain ⟨start, rfl, hstart⟩ := List.dropPrefix?_eq_some_iff.mp hdrop
    rw [List.append_assoc, List.dropPrefix?_append_of_beq _ hstart]
    rfl
  | none =>
    rw [Option.map_none, Option.eq_none_iff_forall_ne_some]
    intro t ht
    obtain ⟨start, hsplit, hstart⟩ := List.dropPrefix?_eq_some_iff.mp ht
    obtain rfl := eq_of_beq hstart
    rcases List.append_eq_append_iff.mp hsplit with ⟨u, hu, -⟩ | ⟨u, hu, -⟩
    · obtain ⟨c, hc, hbreak⟩ := hs.mem hne
      rw [hopening c (by rw [hu]; exact List.mem_append_left _ hc)] at hbreak
      cases hbreak
    · rw [hu, List.dropPrefix?_append_of_beq _ (by simp)] at hdrop
      cases hdrop

/-- A dash ends a label before what follows the text. -/
theorem label_append {s : List Char} (h : '-' ∈ s) (z : List Char) :
    (s ++ z).takeWhile (· != '-') = s.takeWhile (· != '-') ∧
      (s ++ z).dropWhile (· != '-') = s.dropWhile (· != '-') ++ z ∧
      s.dropWhile (· != '-') ≠ [] := by
  induction s with
  | nil => exact absurd h List.not_mem_nil
  | cons c s ih =>
    by_cases hc : c = '-'
    · simp [hc]
    · have hs : '-' ∈ s := by
        rcases List.mem_cons.mp h with h | h
        · exact absurd h.symm hc
        · exact h
      simpa [hc] using ih hs

theorem afterMarker_ended {s opening : List Char} (hs : Ended s) (hne : s ≠ [])
    (hopening : opening ∈ [pemHeader, pemFooter]) (hclosed : MarkersClosed s) (z : List Char) :
    afterMarker opening (s ++ z) = (afterMarker opening s).map (· ++ z) := by
  have hplain : ∀ opening ∈ [pemHeader, pemFooter], ∀ c ∈ opening, Text.isLineBreak c = false := by
    decide
  rw [afterMarker, afterMarker, dropPrefix_ended hs hne (hplain opening hopening)]
  cases hdrop : s.dropPrefix? opening with
  | none => rfl
  | some rest =>
    obtain ⟨start, rfl, hstart⟩ := List.dropPrefix?_eq_some_iff.mp hdrop
    obtain rfl := eq_of_beq hstart
    have hdash : '-' ∈ rest := by
      by_contra hlabel
      exact hclosed start hopening rest hlabel (List.suffix_refl _)
    obtain ⟨htake, hdropWhile, hleft⟩ := label_append hdash z
    have hended : Ended (rest.dropWhile (· != '-')) :=
      hs.suffix ((List.dropWhile_suffix _).trans (List.suffix_append _ _))
    simp only [Option.map_some, htake, hdropWhile]
    split
    · rfl
    · exact dropPrefix_ended hended hleft (by decide) z

theorem afterFooter_ended {s : List Char} (hs : Ended s) (hclosed : MarkersClosed s)
    (z : List Char) : afterFooter (s ++ z) = ((afterFooter s).map (· ++ z)).or (afterFooter z) := by
  induction s with
  | nil => rfl
  | cons c s ih =>
    have hsuffix : s <:+ c :: s := List.suffix_cons c s
    have hmarker := afterMarker_ended hs (List.cons_ne_nil c s) (by simp : pemFooter ∈ _) hclosed z
    rw [List.cons_append] at hmarker
    rw [List.cons_append, afterFooter, afterFooter, hmarker,
      ih (hs.suffix hsuffix) (hclosed.suffix hsuffix)]
    cases afterMarker pemFooter (c :: s) <;> rfl

theorem afterMarker_suffix {s t opening : List Char} (h : afterMarker opening s = some t) :
    pemDashes ++ t <:+ s := by
  rw [afterMarker] at h
  split at h
  · cases h
  · next rest hdrop =>
    obtain ⟨start, rfl, -⟩ := List.dropPrefix?_eq_some_iff.mp hdrop
    split at h
    · cases h
    · obtain ⟨dashes, hrest, hdashes⟩ := List.dropPrefix?_eq_some_iff.mp h
      obtain rfl := eq_of_beq hdashes
      rw [← hrest]
      exact (List.dropWhile_suffix _).trans (List.suffix_append _ _)

theorem afterFooter_suffix {s t : List Char} (h : afterFooter s = some t) :
    pemDashes ++ t <:+ s := by
  induction s with
  | nil => cases h
  | cons c s ih =>
    rw [afterFooter] at h
    rcases Option.or_eq_some_iff.mp h with h | ⟨-, h⟩
    · exact afterMarker_suffix h
    · exact (ih h).trans (List.suffix_cons c s)

theorem suffix_of_dashes {s t : List Char} (h : pemDashes ++ t <:+ s) : t <:+ s :=
  (List.suffix_append _ _).trans h

/-- A text that ends with a line break does not end with a marker. -/
theorem ne_nil_of_dashes {s t : List Char} (hs : Ended s) (h : pemDashes ++ t <:+ s) : t ≠ [] := by
  rintro rfl
  have hlast := hs.suffix h '-' (by decide)
  revert hlast
  decide

theorem afterBlock_ended {s : List Char} (hs : Ended s) (hne : s ≠ []) (hclosed : MarkersClosed s)
    (z : List Char) : afterBlock (s ++ z) = (afterMarker pemHeader s).bind fun rest =>
      ((afterFooter rest).map (· ++ z)).or (afterFooter z) := by
  rw [afterBlock, afterMarker_ended hs hne (by simp) hclosed]
  cases hheader : afterMarker pemHeader s with
  | none => rfl
  | some rest =>
    have hrest := suffix_of_dashes (afterMarker_suffix hheader)
    exact afterFooter_ended (hs.suffix hrest) (hclosed.suffix hrest) z

theorem Ended.cons {c : Char} {s out : List Char} (h : Ended (c :: s)) (hout : Ended out)
    (hnil : out = [] → s = []) : Ended (c :: out) := by
  cases out with
  | nil =>
    rw [hnil rfl] at h
    exact h
  | cons d out => exact hout

variable (word) in
/-- What is made of a text that ends with a line break, whatever follows it: a block that it leaves
open is taken out with what follows up to the footer, if there is one. -/
theorem withoutBlocks_ended {s : List Char} (hs : Ended s) (hclosed : MarkersClosed s) :
    ∃ out, Ended out ∧ (out = [] → s = []) ∧
      (∀ z, (OpenBlock s → afterFooter z = none) →
        withoutBlocks word (s ++ z) = out ++ withoutBlocks word z) ∧
      (OpenBlock s → ∃ cut, ∀ z t, afterFooter z = some t →
        withoutBlocks word (s ++ z) = cut ++ withoutBlocks word t) := by
  induction hlength : s.length using Nat.strong_induction_on generalizing s with
  | _ n ih =>
    cases s with
    | nil =>
      refine ⟨[], hs, fun _ => rfl, fun _ _ => rfl, fun hopen => ?_⟩
      exfalso
      cases hopen with
      | here h _ => cases h
      | past h _ _ => cases h
    | cons c s =>
      have hlater : ∀ z, afterBlock (c :: (s ++ z)) = _ :=
        afterBlock_ended hs (List.cons_ne_nil c s) hclosed
      obtain ⟨out, hout, hnil, hclear, hcut⟩ := ih s.length (by simp [← hlength])
        (hs.suffix (List.suffix_cons c s)) (hclosed.suffix (List.suffix_cons c s)) rfl
      cases hheader : afterMarker pemHeader (c :: s) with
      | none =>
        have hopen : OpenBlock (c :: s) → OpenBlock s := by
          intro hopen
          cases hopen with
          | here h _ => rw [hheader] at h; cases h
          | past h _ _ => rw [hheader] at h; cases h
          | next _ h => exact h
        have hnone : ∀ z, withoutBlocks word (c :: (s ++ z)) = c :: withoutBlocks word (s ++ z) :=
          fun z => withoutBlocks_none (by rw [hlater, hheader]; rfl)
        refine ⟨c :: out, hs.cons hout hnil, by simp, fun z hz => ?_, fun h => ?_⟩
        · rw [List.cons_append, hnone, hclear z fun h => hz (.next hheader h)]
          rfl
        · obtain ⟨cut, hcut⟩ := hcut (hopen h)
          refine ⟨c :: cut, fun z t hz => ?_⟩
          rw [List.cons_append, hnone, hcut z t hz]
          rfl
      | some rest =>
        have hrest : rest <:+ c :: s := suffix_of_dashes (afterMarker_suffix hheader)
        cases hfooter : afterFooter rest with
        | some t =>
          have hdashes := (afterFooter_suffix hfooter).trans hrest
          have hshort : t.length < n := by
            have hlen := hdashes.length_le
            rw [List.length_append] at hlen
            have hfive : pemDashes.length = 5 := by decide
            omega
          obtain ⟨out, hout, hnil, hclear, hcut⟩ := ih t.length hshort
            (hs.suffix (suffix_of_dashes hdashes)) (hclosed.suffix (suffix_of_dashes hdashes)) rfl
          have hopen : OpenBlock (c :: s) → OpenBlock t := by
            intro hopen
            cases hopen with
            | here h h' => rw [hheader] at h; cases h; rw [hfooter] at h'; cases h'
            | past h h' h'' => rw [hheader] at h; cases h; rw [hfooter] at h'; cases h'; exact h''
            | next h _ => rw [hheader] at h; cases h
          have hsome : ∀ z, withoutBlocks word (c :: (s ++ z)) =
              "[REDACTED PEM MATERIAL]".toList ++ withoutBlocks word (t ++ z) :=
            fun z => withoutBlocks_some (by rw [hlater, hheader, Option.bind_some, hfooter]; rfl)
          refine ⟨"[REDACTED PEM MATERIAL]".toList ++ out, ?_, ?_, fun z hz => ?_, fun h => ?_⟩
          · have hne : out ≠ [] := fun h => ne_nil_of_dashes hs hdashes (hnil h)
            intro d hd
            exact hout d (by rwa [List.getLast?_append_of_ne_nil _ hne] at hd)
          · intro h
            cases (List.append_eq_nil_iff.mp h).1
          · rw [List.cons_append, hsome, hclear z fun h => hz (.past hheader hfooter h),
              List.append_assoc]
          · obtain ⟨cut, hcut⟩ := hcut (hopen h)
            refine ⟨"[REDACTED PEM MATERIAL]".toList ++ cut, fun z u hz => ?_⟩
            rw [List.cons_append, hsome, hcut z u hz, List.append_assoc]
        | none =>
          have hhere : OpenBlock (c :: s) := .here hheader hfooter
          refine ⟨c :: out, hs.cons hout hnil, by simp, fun z hz => ?_, fun _ => ?_⟩
          · have hnone : afterFooter z = none := hz hhere
            rw [List.cons_append, withoutBlocks_none, hclear z fun _ => hnone]
            · rfl
            · rw [hlater, hheader, Option.bind_some, hfooter, hnone]
              rfl
          · refine ⟨"[REDACTED PEM MATERIAL]".toList, fun z t hz => withoutBlocks_some ?_⟩
            rw [List.cons_append, hlater, hheader, Option.bind_some, hfooter, hz]
            rfl

/-! A line that holds no marker. -/

/-- No header and no footer starts in the line. -/
def Unmarked (line : List Char) : Prop := ∀ opening ∈ [pemHeader, pemFooter], ¬opening <:+: line

/-- The text starts with a line break. -/
def Begun (s : List Char) : Prop := ∀ c ∈ s.head?, Text.isLineBreak c = true

theorem afterMarker_unmarked {line z opening : List Char} (hline : Unmarked line) (hz : Begun z)
    (hopening : opening ∈ [pemHeader, pemFooter]) : afterMarker opening (line ++ z) = none := by
  have hplain : ∀ opening ∈ [pemHeader, pemFooter], ∀ c ∈ opening, Text.isLineBreak c = false := by
    decide
  cases hdrop : (line ++ z).dropPrefix? opening with
  | none => rw [afterMarker, hdrop]
  | some rest =>
    exfalso
    obtain ⟨start, hsplit, hstart⟩ := List.dropPrefix?_eq_some_iff.mp hdrop
    obtain rfl := eq_of_beq hstart
    rcases List.append_eq_append_iff.mp hsplit with ⟨u, hu, hrest⟩ | ⟨u, hu, -⟩
    · cases u with
      | nil =>
        rw [List.append_nil] at hu
        exact hline start hopening (hu ▸ List.infix_refl line)
      | cons c u =>
        have hbreak := hz c (by rw [hrest]; rfl)
        rw [hplain start hopening c (by rw [hu]; simp)] at hbreak
        cases hbreak
    · exact hline start hopening (by rw [hu]; exact (List.prefix_append _ _).isInfix)

theorem Unmarked.suffix {line t : List Char} (h : Unmarked line) (ht : t <:+ line) : Unmarked t :=
  fun opening hopening hwithin => h opening hopening (hwithin.trans ht.isInfix)

theorem afterFooter_unmarked {line z : List Char} (hline : Unmarked line) (hz : Begun z) :
    afterFooter (line ++ z) = afterFooter z := by
  induction line with
  | nil => rfl
  | cons c line ih =>
    rw [List.cons_append, afterFooter, ← List.cons_append,
      afterMarker_unmarked hline hz (by simp), Option.none_or,
      ih (hline.suffix (List.suffix_cons c line))]

theorem withoutBlocks_unmarked {line z : List Char} (hline : Unmarked line) (hz : Begun z) :
    withoutBlocks word (line ++ z) = line ++ withoutBlocks word z := by
  induction line with
  | nil => rfl
  | cons c line ih =>
    have hnone : afterBlock (c :: (line ++ z)) = none := by
      rw [← List.cons_append, afterBlock, afterMarker_unmarked hline hz (by simp)]
      rfl
    rw [List.cons_append, withoutBlocks_none hnone, ih (hline.suffix (List.suffix_cons c line))]
    rfl

variable (word) in
theorem withoutBlocks_begun {z : List Char} (hz : Begun z) : Begun (withoutBlocks word z) := by
  cases z with
  | nil => exact hz
  | cons c z =>
    have hbreak := hz c rfl
    have hnone : afterBlock (c :: z) = none := by
      have hmarker := @afterMarker_unmarked [] (c :: z) pemHeader
        (by intro opening ho h; revert ho; rw [List.infix_nil.mp h]; decide) hz (by simp)
      rw [List.nil_append] at hmarker
      rw [afterBlock, hmarker]
      rfl
    rw [withoutBlocks_none hnone]
    rintro d ⟨⟩
    exact hbreak

/-! The lines of a text. -/

open Text

theorem splitLinesFrom_break {line s : List Char} {c : Char} (hc : isLineBreak c = true)
    (hs : c = '\r' → s.head? ≠ some '\n') :
    splitLinesFrom line (c :: s) = line :: splitLinesFrom [] s := by
  rw [splitLinesFrom, if_pos hc]
  rintro rest rfl rfl
  exact hs rfl rfl

theorem splitLinesFrom_plain {line l : List Char} (h : ∀ c ∈ l, isLineBreak c = false)
    (s : List Char) : splitLinesFrom line (l ++ s) = splitLinesFrom (line ++ l) s := by
  induction l generalizing line with
  | nil => rw [List.nil_append, List.append_nil]
  | cons c l ih =>
    have hc : isLineBreak c = false := h c List.mem_cons_self
    rw [List.cons_append, splitLinesFrom, if_neg (by simp [hc]),
      ih fun d hd => h d (List.mem_cons_of_mem c hd), List.append_assoc]
    · rfl
    · rintro _ rfl _
      cases hc

theorem splitLinesFrom_front {front s : List Char} (hfront : Ended front)
    (hs : s.head? ≠ some '\n') (line : List Char) (hne : front ≠ []) :
    splitLinesFrom line (front ++ s) = splitLinesFrom line front ++ splitLines s := by
  induction line, front using splitLinesFrom.induct with
  | case1 line _ => exact absurd rfl hne
  | case2 line _ => exact absurd rfl hne
  | case3 line rest ih =>
    have hrest : Ended rest := hfront.suffix ⟨['\r', '\n'], rfl⟩
    show line :: splitLinesFrom [] (rest ++ s) = line :: splitLinesFrom [] rest ++ splitLines s
    by_cases hnil : rest = []
    · rw [hnil]
      rfl
    · rw [ih hrest hnil]
      rfl
  | case4 line c rest hpair hbreak ih =>
    have hrest : Ended rest := hfront.suffix (List.suffix_cons c rest)
    have hown : c = '\r' → rest.head? ≠ some '\n' := by
      intro hc hhead
      obtain ⟨tail, htail⟩ := List.head?_eq_some_iff.mp hhead
      exact hpair tail hc htail
    have hboth : c = '\r' → (rest ++ s).head? ≠ some '\n' := by
      intro hc
      cases rest with
      | nil => exact hs
      | cons d rest => exact hown hc
    rw [List.cons_append, splitLinesFrom_break hbreak hboth, splitLinesFrom_break hbreak hown]
    by_cases hnil : rest = []
    · rw [hnil]
      rfl
    · rw [ih hrest hnil]
      rfl
  | case5 line c rest hpair hplain ih =>
    have hnil : rest ≠ [] := by
      rintro rfl
      exact hplain (hfront c rfl)
    have hc : ∀ d ∈ [c], isLineBreak d = false := by simpa using hplain
    have hone := ih (hfront.suffix (List.suffix_cons c rest)) hnil
    rw [← splitLinesFrom_plain hc, ← splitLinesFrom_plain hc] at hone
    exact hone

theorem splitLines_back {s : List Char} (hs : Begun s) : ∃ rest, ∀ line : List Char, line ≠ [] →
    (∀ c ∈ line, isLineBreak c = false) → splitLines (line ++ s) = line :: rest := by
  cases s with
  | nil =>
    refine ⟨[], fun line hne hline => ?_⟩
    rw [splitLines, splitLinesFrom_plain hline, List.nil_append, splitLinesFrom,
      if_neg (by simpa using hne)]
  | cons c s =>
    have hc := hs c rfl
    by_cases hpair : c = '\r' ∧ s.head? = some '\n'
    · obtain ⟨rfl, hhead⟩ := hpair
      obtain ⟨rest, rfl⟩ := List.head?_eq_some_iff.mp hhead
      refine ⟨splitLinesFrom [] rest, fun line _ hline => ?_⟩
      rw [splitLines, splitLinesFrom_plain hline]
      rfl
    · refine ⟨splitLinesFrom [] s, fun line _ hline => ?_⟩
      rw [splitLines, splitLinesFrom_plain hline,
        splitLinesFrom_break hc fun h h' => hpair ⟨h, h'⟩]
      rfl

theorem joinLines_cons {line : List Char} {lines : List (List Char)} (h : lines ≠ []) :
    joinLines (line :: lines) = line ++ '\n' :: joinLines lines := by
  obtain ⟨next, rest, rfl⟩ := List.exists_cons_of_ne_nil h
  exact intercalate_cons_cons ['\n'] line next rest

theorem joinLines_around (front back : List (List Char)) : ∃ start stop, ∀ line,
    joinLines (front ++ line :: back) = start ++ (line ++ stop) := by
  induction front with
  | nil =>
    by_cases hback : back = []
    · exact ⟨[], [], fun line => by simp [hback, joinLines, List.intercalate]⟩
    · exact ⟨[], '\n' :: joinLines back, fun line => joinLines_cons hback⟩
  | cons l front ih =>
    obtain ⟨start, stop, h⟩ := ih
    refine ⟨l ++ '\n' :: start, stop, fun line => ?_⟩
    rw [List.cons_append, joinLines_cons (by simp), h line, List.append_assoc]
    rfl

/-! The line among the others. -/

theorem Value.shown (v : Value) : Shown v.text where
  head := by
    obtain ⟨c, rest, h⟩ := List.exists_cons_of_ne_nil v.ne_nil
    exact ⟨c, by rw [h]; rfl, v.not_space c (by rw [h]; exact List.mem_cons_self)⟩
  newline := by
    rintro c hc rfl
    cases v.not_space _ hc

theorem isSpace_of_break {c : Char} (h : isLineBreak c = true) : isSpace c = true := by
  simp only [isLineBreak, isSpace, Bool.or_eq_true, Bool.and_eq_true, decide_eq_true_eq] at h ⊢
  omega

theorem Assignment.line_eq (a : Assignment word) (v : List Char) :
    a.line v = a.indent ++ (a.name ++ a.lead) ++ v := by
  simp [line, lineNamed, lead]

/-- What the line holds before the value is neither a dash nor a line break. -/
theorem Assignment.front_plain (hword : WordClass word) (a : Assignment word) :
    ∀ c ∈ a.indent ++ (a.name ++ a.lead), c ≠ '-' ∧ isLineBreak c = false := by
  have hmark : ∀ c, isMark c = true → c ≠ '-' ∧ isLineBreak c = false := by
    intro c hc
    rcases isMark_cases hc with rfl | rfl | rfl | rfl <;> decide
  intro c hc
  rcases List.mem_append.mp hc with hc | hc
  · exact hmark c (a.indent_mark c hc)
  · rcases List.mem_append.mp hc with hc | hc
    · have hname := a.name_word c hc
      constructor
      · rintro rfl
        rw [hword.ascii '-' (by decide)] at hname
        cases hname
      · by_contra hbreak
        have hspace := isSpace_of_break (by simpa using hbreak)
        rw [hword.not_space c hname] at hspace
        cases hspace
    · exact hmark c (a.lead_mark c hc)

/-- A marker starts with a dash and holds a blank. -/
theorem Assignment.line_unmarked (hword : WordClass word) (a : Assignment word) (v : Value) :
    Unmarked (a.line v.text) := by
  rintro opening hopening ⟨x, y, hline⟩
  have hshape : ∀ opening ∈ [pemHeader, pemFooter], opening.head? = some '-' ∧ ' ' ∈ opening := by
    decide
  obtain ⟨hdash, hblank⟩ := hshape opening hopening
  have hvalue : ' ' ∉ v.text := fun hmem => by cases v.not_space _ hmem
  rw [a.line_eq, List.append_assoc] at hline
  rcases List.append_eq_append_iff.mp hline with ⟨u, hu, hrest⟩ | ⟨u, hu, hrest⟩
  · cases u with
    | nil => exact hvalue (by rw [show v.text = opening ++ y from hrest.symm]; simp [hblank])
    | cons c u =>
      have hc : c = '-' := by
        obtain ⟨tail, htail⟩ := List.head?_eq_some_iff.mp hdash
        rw [htail] at hrest
        exact (List.cons.inj hrest).1.symm
      exact (a.front_plain hword c (by rw [hu]; simp)).1 hc
  · exact hvalue (by rw [hrest]; simp [hblank])

theorem Assignment.line_breaks (hword : WordClass word) (a : Assignment word) (v : Value) :
    ∀ c ∈ a.line v.text, isLineBreak c = false := by
  intro c hc
  rw [a.line_eq] at hc
  rcases List.mem_append.mp hc with hc | hc
  · exact (a.front_plain hword c hc).2
  · by_contra hbreak
    have hspace := isSpace_of_break (by simpa using hbreak)
    rw [v.not_space c hc] at hspace
    cases hspace

end

/-- The text around a line. -/
structure Surroundings where
  before : List Char
  after : List Char
  ended : Ended before
  begun : Begun after

namespace Surroundings

variable {word : Char → Bool} (text : Surroundings)

def around (line : List Char) : String :=
  String.ofList (text.before ++ (line ++ text.after))

/-- The line stands in a block of key material. -/
def Blocked : Prop := OpenBlock text.before ∧ (afterFooter text.after).isSome = true

theorem redact_around (line : List Char) : redactSensitiveText word (text.around line) =
    String.ofList (Text.joinLines ((Text.splitLines (withoutBlocks word
      (text.before ++ (line ++ text.after)))).map (redactLine word))) := by
  have htext : (text.around line).toList = text.before ++ (line ++ text.after) :=
    String.toList_ofList
  rw [redactSensitiveText, htext]
  rfl

/-- A block is taken out with the lines in it. -/
theorem redact_blocked (word : Char → Bool) (hclosed : MarkersClosed text.before)
    (h : text.Blocked) : ∃ shown, ∀ line, Unmarked line →
      redactSensitiveText word (text.around line) = shown := by
  obtain ⟨t, ht⟩ := Option.isSome_iff_exists.mp h.2
  obtain ⟨_, -, -, -, hcut⟩ := withoutBlocks_ended word text.ended hclosed
  obtain ⟨cut, hcut⟩ := hcut h.1
  refine ⟨String.ofList (Text.joinLines ((Text.splitLines (cut ++ withoutBlocks word t)).map
    (redactLine word))), fun line hline => ?_⟩
  have hfooter : afterFooter (line ++ text.after) = some t := by
    rw [afterFooter_unmarked hline text.begun, ht]
  rw [redact_around, hcut _ t hfooter]

/-- Otherwise the line is shown as it is redacted by itself. -/
theorem redact_line (word : Char → Bool) (hclosed : MarkersClosed text.before)
    (h : ¬text.Blocked) : ∃ start stop, ∀ line, Unmarked line → line ≠ [] →
      (∀ c ∈ line, Text.isLineBreak c = false) → redactSensitiveText word (text.around line) =
        String.ofList (start ++ (redactLine word line ++ stop)) := by
  obtain ⟨out, hout, -, hclear, -⟩ := withoutBlocks_ended word text.ended hclosed
  obtain ⟨back, hback⟩ := splitLines_back (withoutBlocks_begun word text.begun)
  have hlines : ∃ front, ∀ line : List Char, line ≠ [] →
      (∀ c ∈ line, Text.isLineBreak c = false) →
      Text.splitLines (out ++ (line ++ withoutBlocks word text.after)) = front ++ line :: back := by
    by_cases hnil : out = []
    · refine ⟨[], fun line hne hbreaks => ?_⟩
      rw [hnil]
      exact hback line hne hbreaks
    · refine ⟨Text.splitLines out, fun line hne hbreaks => ?_⟩
      have hhead : (line ++ withoutBlocks word text.after).head? ≠ some '\n' := by
        rw [List.head?_append_of_ne_nil _ hne]
        intro hc
        have hplain := hbreaks '\n' (List.mem_of_mem_head? hc)
        revert hplain
        decide
      rw [Text.splitLines, splitLinesFrom_front hout hhead [] hnil, hback line hne hbreaks]
      rfl
  obtain ⟨front, hfront⟩ := hlines
  obtain ⟨start, stop, hjoin⟩ := joinLines_around (front.map (redactLine word))
    (back.map (redactLine word))
  refine ⟨start, stop, fun line hline hne hbreaks => ?_⟩
  have hopen : OpenBlock text.before → afterFooter (line ++ text.after) = none := by
    intro hopen
    rw [afterFooter_unmarked hline text.begun]
    by_contra hsome
    exact h ⟨hopen, Option.isSome_iff_ne_none.mpr hsome⟩
  rw [redact_around, hclear _ hopen, withoutBlocks_unmarked hline text.begun,
    hfront line hne hbreaks, List.map_append, List.map_cons, hjoin]

end Surroundings

theorem isWordByte_class : WordClass isWordByte where
  ascii := fun _ _ => rfl
  not_space := by
    intro c hc
    simp only [isWordByte, Char.isAlphanum, isAlpha_eq, Char.isDigit, Bool.or_eq_true,
      Bool.and_eq_true, decide_eq_true_eq, ge_iff_le, UInt32.le_iff_toNat_le] at hc
    have hrange : (48 ≤ c.toNat ∧ c.toNat ≤ 57) ∨ (65 ≤ c.toNat ∧ c.toNat ≤ 90) ∨
        (97 ≤ c.toNat ∧ c.toNat ≤ 122) ∨ c.toNat = 95 := by
      rcases hc with ((hc | hc) | hc) | rfl
      · exact .inr (.inl hc)
      · exact .inr (.inr (.inl hc))
      · exact .inl hc
      · exact .inr (.inr (.inr rfl))
    simp only [Text.isSpace, Bool.or_eq_false_iff, Bool.and_eq_false_iff, decide_eq_false_iff_not]
    omega

/-- `PASSWORD = ` -/
def passwordLine : Assignment isWordByte where
  indent := []
  name := "PASSWORD".toList
  gap := [' ']
  sign := '='
  space := [' ']
  indent_blank := by decide
  gap_blank := by decide
  space_blank := by decide
  name_word := by decide
  sign_assigns := by decide
  sensitive := by decide

/-- A line on either side. -/
def debugLines : Surroundings where
  before := "DEBUG = 1\n".toList
  after := "\n".toList
  ended := by
    have hlast : "DEBUG = 1\n".toList.getLast? = some '\n' := by decide
    intro c hc
    rw [hlast] at hc
    cases hc
    rfl
  begun := by
    intro c hc
    cases hc
    rfl

/-- `DB_PASSWORD=` -/
def databaseLine : Assignment isWordByte where
  indent := []
  name := "DB_PASSWORD".toList
  gap := []
  sign := '='
  space := []
  indent_blank := by decide
  gap_blank := by decide
  space_blank := by decide
  name_word := by decide
  sign_assigns := by decide
  sensitive := by decide

end Bantam
