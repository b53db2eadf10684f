import Bantam.Lib.Containers
import Bantam.TerraformSource
import Mathlib.Data.List.Infix

/-! What `_mask_hcl` leaves of a text: the characters outside its strings, comments and heredocs, at
the places where they were. -/
namespace Bantam

open Pattern

/-! What begins where a text is blanked. -/

/-- A quote, the opening of a comment or the marker of a heredoc. -/
inductive Opener : List Char → Prop
  | quote : Opener ['"']
  | hash : Opener ['#']
  | line : Opener ['/', '/']
  | block : Opener ['/', '*']
  | heredoc {c : Char} (hc : isHclStart c = true) : Opener ['<', '<', c]
  | indented {c : Char} (hc : isHclStart c = true) : Opener ['<', '<', '-', c]

/-- No blank. -/
def Visible (c : Char) : Prop := c ≠ ' ' ∧ c ≠ '\n'

instance : DecidablePred Visible := fun c => inferInstanceAs (Decidable (c ≠ ' ' ∧ c ≠ '\n'))

section
variable {word : Char → Bool} {s rest p : List Char} {c : Char} {n : Nat}

theorem isHclStart_visible (hc : isHclStart c = true) : Visible c := by
  constructor
  · rintro rfl
    revert hc
    decide
  · rintro rfl
    revert hc
    decide

theorem Opener.visible (h : Opener p) : ∀ c ∈ p, Visible c := by
  cases h with
  | quote => decide
  | hash => decide
  | line => decide
  | block => decide
  | heredoc hc =>
    have hmarks : ∀ d ∈ ['<', '<'], Visible d := by decide
    exact List.forall_mem_append.mpr ⟨hmarks, by simpa using isHclStart_visible hc⟩
  | indented hc =>
    have hmarks : ∀ d ∈ ['<', '<', '-'], Visible d := by decide
    exact List.forall_mem_append.mpr ⟨hmarks, by simpa using isHclStart_visible hc⟩

theorem Opener.ne_nil (h : Opener p) : p ≠ [] := by
  cases h <;> exact List.cons_ne_nil _ _

/-! The marker of a heredoc. -/

/-- What a match of the marker takes: the name of the heredoc is its group. -/
theorem mem_ends_heredocMarker {q : Place} (h : q ∈ heredocMarker.ends word ⟨none, s, []⟩) :
    ∃ marks c name, (marks = ['<', '<'] ∨ marks = ['<', '<', '-']) ∧ isHclStart c = true ∧
      s = marks ++ c :: (name ++ q.rest) ∧ q.groups = [c :: name] := by
  obtain ⟨opened, hopened, hafter⟩ := mem_ends_all_cons.mp h
  have hgroups : opened.groups = [] := ends_groups rfl hopened
  have hs : s = ['<', '<'] ++ opened.rest := mem_ends_exactly hopened
  obtain ⟨dashed, hdashed, hname⟩ := mem_ends_all_cons.mp hafter
  obtain ⟨after, hword, rfl⟩ := List.mem_map.mp hname
  obtain ⟨first, hfirst, hrest⟩ := List.mem_flatMap.mp hword
  obtain ⟨c, hc, hstart⟩ := mem_ends_one hfirst
  obtain ⟨name, hname⟩ := ends_takes hrest
  have hdashes : dashed.groups = [] ∧
      (s = ['<', '<'] ++ dashed.rest ∨ s = ['<', '<', '-'] ++ dashed.rest) := by
    rcases List.mem_append.mp hdashed with hdash | hnone
    · have hsign : opened.rest = ['-'] ++ dashed.rest := mem_ends_exactly hdash
      exact ⟨(ends_groups rfl hdash).trans hgroups, .inr (by rw [hs, hsign]; rfl)⟩
    · cases List.mem_singleton.mp hnone
      exact ⟨hgroups, .inl hs⟩
  have htaken : dashed.rest = c :: (name ++ after.rest) := by rw [hc, hname.rest]
  have hkept : after.groups = [] := by
    rw [ends_groups rfl hrest, ends_groups rfl hfirst, hdashes.1]
  have hgroup : dashed.rest.take (dashed.rest.length - after.rest.length) = c :: name := by
    have hlength : dashed.rest.length - after.rest.length = (c :: name).length := by
      rw [htaken, List.length_cons, List.length_append, List.length_cons]
      omega
    rw [hlength, htaken, ← List.cons_append, List.take_left]
  rcases hdashes.2 with hmarks | hmarks
  · exact ⟨_, c, name, .inl rfl, hstart, by rw [hmarks, htaken], by simp [hkept, hgroup]⟩
  · exact ⟨_, c, name, .inr rfl, hstart, by rw [hmarks, htaken], by simp [hkept, hgroup]⟩

theorem exists_ends_name {before : Option Char} {groups : List (List Char)}
    (hc : isHclStart c = true) :
    ∃ q, q ∈ (Pattern.group (.append (.one isHclStart) (.many isWordByte))).ends word
      ⟨before, c :: s, groups⟩ := by
  have hname : (Pattern.many isWordByte).ends word ⟨some c, s, groups⟩ ≠ [] := ends_many_ne_nil
  obtain ⟨q, hq⟩ := List.exists_mem_of_ne_nil _ hname
  refine ⟨_, List.mem_map_of_mem (List.mem_flatMap.mpr ⟨⟨some c, s, groups⟩, ?_, hq⟩)⟩
  rw [ends_one hc]
  exact List.mem_singleton_self _

theorem heredocMarker_matches {marks : List Char}
    (hmarks : marks = ['<', '<'] ∨ marks = ['<', '<', '-']) (hc : isHclStart c = true) :
    (heredocMarker.matchAt word none (marks ++ c :: rest)).isSome := by
  have hopened : ∀ t, ⟨some '<', t, []⟩ ∈
      (exactly "<<").ends word ⟨none, '<' :: '<' :: t, []⟩ := by
    intro t
    show _ ∈ (exactly "<<").ends word ⟨none, "<<".toList ++ t, []⟩
    rw [ends_exactly_append]
    exact List.mem_singleton_self _
  have hsome : ∃ q, q ∈ heredocMarker.ends word ⟨none, marks ++ c :: rest, []⟩ := by
    rcases hmarks with rfl | rfl
    · obtain ⟨q, hq⟩ := @exists_ends_name word rest c (some '<') [] hc
      exact ⟨q, mem_ends_all_cons.mpr ⟨_, hopened _, mem_ends_all_cons.mpr
        ⟨_, List.mem_append_right _ (List.mem_singleton_self _), hq⟩⟩⟩
    · obtain ⟨q, hq⟩ := @exists_ends_name word rest c (some '-') [] hc
      refine ⟨q, mem_ends_all_cons.mpr ⟨_, hopened _, mem_ends_all_cons.mpr
        ⟨_, List.mem_append_left _ ?_, hq⟩⟩⟩
      show _ ∈ (exactly "-").ends word ⟨some '<', "-".toList ++ _, []⟩
      rw [ends_exactly_append]
      exact List.mem_singleton_self _
  obtain ⟨q, hq⟩ := hsome
  rw [matchAt, Option.isSome_map, List.isSome_head?]
  exact List.ne_nil_of_mem hq

/-- Nothing ends a heredoc in an empty text. -/
theorem search_heredocEnd_nil {delimiter : List Char} (h : delimiter ≠ []) :
    (heredocEnd delimiter).search word none [] = none := by
  obtain ⟨c, name, rfl⟩ := List.exists_cons_of_ne_nil h
  apply matchAt_of_nil
  apply ends_eq_nil
  · cases name with
    | nil => simp [heredocEnd, all, nullable, exactly, literal, one]
    | cons d name => simp [heredocEnd, all, nullable, exactly, literal, one]
  · intro x hx
    cases hx

/-- A heredoc takes a part of the text that is not empty. -/
theorem heredocLength_bounds (h : heredocLength word s = some n) : 0 < n ∧ n ≤ s.length := by
  obtain ⟨m, hm, hn⟩ := Option.map_eq_some_iff.mp h
  obtain ⟨q, hq, rfl⟩ := Option.map_eq_some_iff.mp (show Option.map _ _ = some m from hm)
  obtain ⟨marks, c, name, _, _, hs, hgroups⟩ := mem_ends_heredocMarker (List.mem_of_head? hq)
  have hfilled : 0 < s.length := by
    rw [hs, List.length_append, List.length_cons]
    omega
  dsimp only at hn
  generalize (Match.whole _).length + List.length _ = head at hn
  split at hn
  · next closing hclosing =>
    have hbody : s.drop (head + 1) ≠ [] := by
      intro hempty
      rw [hempty, Match.group, hgroups] at hclosing
      exact absurd ((search_heredocEnd_nil (List.cons_ne_nil c name)).symm.trans hclosing)
        (by simp)
    have hshort := List.length_pos_iff.mpr hbody
    rw [List.length_drop] at hshort hn
    omega
  · omega

theorem heredocLength_some (h : heredocLength word s = some n) : ∃ p, Opener p ∧ p <+: s := by
  obtain ⟨m, hm, _⟩ := Option.map_eq_some_iff.mp h
  obtain ⟨q, hq, _⟩ := Option.map_eq_some_iff.mp (show Option.map _ _ = some m from hm)
  obtain ⟨marks, c, name, hmarks, hc, rfl, _⟩ := mem_ends_heredocMarker (List.mem_of_head? hq)
  rcases hmarks with rfl | rfl
  · exact ⟨_, .heredoc hc, ⟨_, rfl⟩⟩
  · exact ⟨_, .indented hc, ⟨_, rfl⟩⟩

/-! Where blanks begin and how far they go. -/

theorem commentLength_le (s : List Char) : commentLength s ≤ s.length := by
  fun_induction commentLength s with
  | case1 => exact Nat.le_refl 0
  | case2 rest => exact Nat.le_add_left 2 rest.length
  | case3 c rest _ ih => exact Nat.succ_le_succ ih

theorem stringLength_le (s : List Char) : stringLength s ≤ s.length := by
  fun_induction stringLength s with
  | case1 => exact Nat.le_refl 0
  | case2 => exact Nat.le_refl 1
  | case3 c rest ih => exact Nat.add_le_add_right ih 2
  | case4 rest => exact Nat.le_add_left 1 rest.length
  | case5 c rest _ _ _ ih => exact Nat.succ_le_succ ih

theorem maskedLength_le (word : Char → Bool) (s : List Char) : maskedLength word s ≤ s.length := by
  unfold maskedLength
  split
  · cases hlength : heredocLength word _ with
    | none => exact Nat.zero_le _
    | some n => exact (heredocLength_bounds hlength).2
  · next rest => exact Nat.add_le_add_right (commentLength_le rest) 2
  · exact (List.takeWhile_sublist _).length_le
  · exact (List.takeWhile_sublist _).length_le
  · next rest => exact Nat.succ_le_succ (stringLength_le rest)
  · exact Nat.zero_le _

/-- Blanks begin exactly at an opener. -/
theorem maskedLength_pos : 0 < maskedLength word s ↔ ∃ p, Opener p ∧ p <+: s := by
  constructor
  · intro h
    unfold maskedLength at h
    split at h
    · cases hlength : heredocLength word _ with
      | none =>
        rw [hlength] at h
        exact absurd h (Nat.lt_irrefl 0)
      | some n => exact heredocLength_some hlength
    · next rest => exact ⟨_, .block, ⟨rest, rfl⟩⟩
    · next rest => exact ⟨_, .line, ⟨rest, rfl⟩⟩
    · next rest => exact ⟨_, .hash, ⟨rest, rfl⟩⟩
    · next rest => exact ⟨_, .quote, ⟨rest, rfl⟩⟩
    · exact absurd h (Nat.lt_irrefl 0)
  · have hmarked : ∀ {s}, (heredocMarker.matchAt word none s).isSome →
        0 < (heredocLength word s).getD 0 := by
      intro s hsome
      obtain ⟨m, hm⟩ := Option.isSome_iff_exists.mp hsome
      obtain ⟨n, hn⟩ : ∃ n, heredocLength word s = some n :=
        ⟨_, by rw [heredocLength, hm, Option.map_some]⟩
      rw [hn]
      exact (heredocLength_bounds hn).1
    rintro ⟨p, hp, rest, rfl⟩
    cases hp with
    | quote => exact Nat.succ_pos _
    | hash =>
      show 0 < (('#' :: rest).takeWhile _).length
      simp
    | line =>
      show 0 < (('/' :: '/' :: rest).takeWhile _).length
      simp
    | block => exact Nat.succ_pos _
    | heredoc hc => exact hmarked (heredocMarker_matches (.inl rfl) hc)
    | indented hc => exact hmarked (heredocMarker_matches (.inr rfl) hc)

/-! The masked text. -/

theorem not_visible_blank : ¬Visible (if c = '\n' then '\n' else ' ') := by
  split <;> decide

theorem maskHcl_plain (h : maskedLength word (c :: rest) = 0) :
    maskHcl word 0 (c :: rest) = c :: maskHcl word 0 rest := by
  rw [maskHcl, h]

theorem maskHcl_opened (h : maskedLength word (c :: rest) = n + 1) :
    maskHcl word 0 (c :: rest) = (if c = '\n' then '\n' else ' ') :: maskHcl word n rest := by
  rw [maskHcl, h]

/-- What is left of a text behind the blanks. -/
theorem maskHcl_skip (word : Char → Bool) (n : Nat) (s : List Char) :
    maskHcl word n s = blanked (s.take n) ++ maskHcl word 0 (s.drop n) := by
  induction s generalizing n with
  | nil => cases n <;> rfl
  | cons c rest ih =>
    cases n with
    | zero => rfl
    | succ n =>
      rw [maskHcl, ih]
      rfl

/-- What begins with a visible text did so before. -/
theorem prefix_of_masked (hp : ∀ c ∈ p, Visible c) (h : p <+: maskHcl word 0 s) : p <+: s := by
  induction p generalizing s with
  | nil => exact List.nil_prefix
  | cons d p ih =>
    obtain ⟨hd, hp⟩ := List.forall_mem_cons.mp hp
    cases s with
    | nil => exact h
    | cons c rest =>
      cases hlength : maskedLength word (c :: rest) with
      | zero =>
        rw [maskHcl_plain hlength, List.cons_prefix_cons] at h
        rw [List.cons_prefix_cons]
        exact ⟨h.1, ih hp h.2⟩
      | succ n =>
        rw [maskHcl_opened hlength, List.cons_prefix_cons] at h
        rw [h.1] at hd
        exact absurd hd not_visible_blank

/-- No opener is left. -/
theorem opener_not_masked (hp : Opener p) (word : Char → Bool) (n : Nat) (s : List Char) :
    ¬p <:+: maskHcl word n s := by
  have hblank : ∀ c t, ¬p <+: (if c = '\n' then '\n' else ' ') :: t := by
    intro c t h
    obtain ⟨d, q, rfl⟩ := List.exists_cons_of_ne_nil hp.ne_nil
    have hd := hp.visible d List.mem_cons_self
    rw [(List.cons_prefix_cons.mp h).1] at hd
    exact not_visible_blank hd
  induction s generalizing n with
  | nil =>
    intro h
    rw [maskHcl, List.infix_nil] at h
    exact hp.ne_nil h
  | cons c rest ih =>
    intro h
    cases n with
    | succ n =>
      rw [maskHcl] at h
      exact (List.infix_cons_iff.mp h).elim (hblank c _) (ih n)
    | zero =>
      cases hlength : maskedLength word (c :: rest) with
      | zero =>
        have hplain := h
        rw [maskHcl_plain hlength] at hplain
        rcases List.infix_cons_iff.mp hplain with hprefix | hinfix
        · rw [← maskHcl_plain hlength] at hprefix
          have hpos : 0 < maskedLength word (c :: rest) :=
            maskedLength_pos.mpr ⟨p, hp, prefix_of_masked hp.visible hprefix⟩
          rw [hlength] at hpos
          exact absurd hpos (Nat.lt_irrefl 0)
        · exact ih 0 hinfix
      | succ n =>
        rw [maskHcl_opened hlength] at h
        exact (List.infix_cons_iff.mp h).elim (hblank c _) (ih n)

/-- A text without an opener stays as it is. -/
theorem maskHcl_eq_self (h : ∀ p, Opener p → ¬p <:+: s) : maskHcl word 0 s = s := by
  induction s with
  | nil => rfl
  | cons c rest ih =>
    have hlength : maskedLength word (c :: rest) = 0 := by
      by_contra hne
      obtain ⟨p, hp, hprefix⟩ := maskedLength_pos.mp (Nat.pos_of_ne_zero hne)
      exact h p hp hprefix.isInfix
    rw [maskHcl_plain hlength, ih fun p hp hinfix => h p hp (List.infix_cons hinfix)]

/-- Masking a masked text changes nothing. -/
theorem maskHcl_idempotent (word : Char → Bool) (n : Nat) (s : List Char) :
    maskHcl word 0 (maskHcl word n s) = maskHcl word n s :=
  maskHcl_eq_self fun _ hp => opener_not_masked hp word n s

/-- A character stays, or is blanked and no line break. -/
def Blanks (c masked : Char) : Prop := masked = c ∨ c ≠ '\n' ∧ masked = ' '

theorem maskHcl_blanks (word : Char → Bool) (n : Nat) (s : List Char) :
    List.Forall₂ Blanks s (maskHcl word n s) := by
  have hblank : ∀ c, Blanks c (if c = '\n' then '\n' else ' ') := by
    intro c
    split
    · next hc => exact .inl hc.symm
    · next hc => exact .inr ⟨hc, rfl⟩
  induction s generalizing n with
  | nil => exact .nil
  | cons c rest ih =>
    cases n with
    | succ n => exact .cons (hblank c) (ih n)
    | zero =>
      cases hlength : maskedLength word (c :: rest) with
      | zero =>
        rw [maskHcl_plain hlength]
        exact .cons (.inl rfl) (ih 0)
      | succ n =>
        rw [maskHcl_opened hlength]
        exact .cons (hblank c) (ih n)

/-- The line breaks are where they were, the other characters are kept or blank, and no quote and
no opening of a comment is left. -/
structure MaskOf (text masked : List Char) : Prop where
  length : masked.length = text.length
  newline : ∀ i : Nat, masked[i]? = some '\n' ↔ text[i]? = some '\n'
  other : ∀ (i : Nat) (c : Char), text[i]? = some c → masked[i]? = some c ∨ masked[i]? = some ' '
  quote : '"' ∉ masked
  hash : '#' ∉ masked
  line : ¬['/', '/'] <:+: masked
  block : ¬['/', '*'] <:+: masked

theorem maskHcl_maskOf (word : Char → Bool) (n : Nat) (text : List Char) :
    MaskOf text (maskHcl word n text) := by
  have hall := maskHcl_blanks word n text
  have hgone := fun p hp => opener_not_masked (p := p) hp word n text
  constructor
  · exact hall.length_eq.symm
  · intro i
    have hrel := Related.getElem?_rel hall i
    generalize (maskHcl word n text)[i]? = masked, text[i]? = original at hrel ⊢
    cases hrel with
    | none => exact Iff.rfl
    | some h =>
      rcases h with hsame | ⟨hc, hblank⟩
      · rw [hsame]
      · exact iff_of_false (by simp [hblank]) (by simpa using hc)
  · intro i c hc
    have hrel := Related.getElem?_rel hall i
    rw [hc] at hrel
    generalize (maskHcl word n text)[i]? = masked at hrel ⊢
    cases hrel with
    | some h => exact h.imp (congrArg some) fun hblank => congrArg some hblank.2
  · exact fun h => hgone _ .quote ((List.singleton_infix_iff _ _).mpr h)
  · exact fun h => hgone _ .hash ((List.singleton_infix_iff _ _).mpr h)
  · exact hgone _ .line
  · exact hgone _ .block

/-! The loop. -/

/-- The characters from `index` up to `stop` blanked. -/
def blankRange (index stop : Nat) (result : List Char) : List Char :=
  result.take index ++ blanked ((result.take stop).drop index) ++ result.drop stop

/-- The loop of `_mask_hcl` from `index` on: none when the rounds run out. -/
def maskLoop (word : Char → Bool) (text : List Char) : Nat → Nat → List Char → Option (List Char)
  | rounds, index, result =>
    if text.length ≤ index then some result
    else match rounds with
      | 0 => none
      | rounds + 1 =>
        match maskedLength word (text.drop index) with
        | 0 => maskLoop word text rounds (index + 1) result
        | length + 1 => maskLoop word text rounds (index + (length + 1))
            (blankRange index (index + (length + 1)) result)

theorem blankRange_append {done : List Char} (hdone : done.length = n) (length : Nat) :
    blankRange n (n + length) (done ++ s) = done ++ blanked (s.take length) ++ s.drop length := by
  subst hdone
  rw [blankRange, List.take_left, List.take_length_add_append, List.drop_left,
    List.drop_length_add_append]

/-- What the text is masked to, split where the first blanks end. -/
theorem maskHcl_split (word : Char → Bool) (s : List Char) :
    maskHcl word 0 s = blanked (s.take (maskedLength word s)) ++
      maskHcl word 0 (s.drop (maskedLength word s)) := by
  cases s with
  | nil => rfl
  | cons c rest =>
    cases hlength : maskedLength word (c :: rest) with
    | zero => rfl
    | succ length =>
      rw [maskHcl_opened hlength, maskHcl_skip]
      rfl

/-- From an index on, before which all is done, the loop masks the rest of the text. -/
theorem maskLoop_eq {text done : List Char} {rounds index : Nat} (hdone : done.length = index)
    (hrounds : text.length ≤ index + rounds) :
    maskLoop word text rounds index (done ++ text.drop index) =
      some (done ++ maskHcl word 0 (text.drop index)) := by
  induction rounds generalizing index done with
  | zero =>
    have hend : text.length ≤ index := hrounds
    rw [maskLoop, if_pos hend, List.drop_eq_nil_of_le hend]
    rfl
  | succ rounds ih =>
    by_cases hend : text.length ≤ index
    · rw [maskLoop, if_pos hend, List.drop_eq_nil_of_le hend]
      rfl
    · rw [maskLoop, if_neg hend]
      have hfilled : text.drop index ≠ [] := by simpa using hend
      obtain ⟨c, rest, hrest⟩ := List.exists_cons_of_ne_nil hfilled
      cases hlength : maskedLength word (text.drop index) with
      | zero =>
        have hnext : text.drop (index + 1) = rest := by
          rw [← List.drop_drop, hrest]
          rfl
        have hkept := @ih (done ++ [c]) (index + 1) (by simp [hdone]) (by omega)
        rw [hrest] at hlength
        simpa [hrest, hnext, maskHcl_plain hlength] using hkept
      | succ length =>
        have hshort : length + 1 ≤ (text.drop index).length := by
          rw [← hlength]
          exact maskedLength_le word _
        have hblank : (done ++ blanked ((text.drop index).take (length + 1))).length =
            index + (length + 1) := by
          rw [List.length_append, hdone, blanked, List.length_map, List.length_take,
            Nat.min_eq_left hshort]
        have hmasked := ih hblank (by omega)
        dsimp only
        rw [blankRange_append hdone, maskHcl_split, hlength, List.drop_drop, hmasked,
          List.append_assoc]

/-- The loop ends for every text, and its result is a mask of the text that masking leaves as it
is. -/
theorem mask_hcl_sound (word : Char → Bool) (text : List Char) :
    (∀ rounds, text.length ≤ rounds →
      maskLoop word text rounds 0 text = some (maskHcl word 0 text)) ∧
    MaskOf text (maskHcl word 0 text) ∧
    maskHcl word 0 (maskHcl word 0 text) = maskHcl word 0 text := by
  refine ⟨fun rounds hrounds => ?_, maskHcl_maskOf word 0 text, maskHcl_idempotent word 0 text⟩
  exact @maskLoop_eq word text [] rounds 0 rfl (by omega)

end

end Bantam
