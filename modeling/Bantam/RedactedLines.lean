import Bantam.Lib.Matching
import Bantam.Redaction
import Mathlib.Data.List.Forall2
import Mathlib.Data.String.Basic

/-! Lines that assign a value to a sensitive name, and what redaction leaves of them. -/
namespace Bantam

open Pattern

/-- What `\w` is known to match. -/
structure WordClass (word : Char → Bool) : Prop where
  ascii : ∀ c : Char, c.toNat < 128 → word c = isWordByte c
  not_space : ∀ c, word c = true → Text.isSpace c = false

def isBlank (c : Char) : Bool := c = ' ' || c = '\t'

/-- The components of a name in snake case. -/
def components (name : List Char) : List (List Char) := name.splitOn '_'

def sensitiveWords : List (List Char) :=
  ["password".toList, "passwd".toList, "secret".toList, "token".toList]

/-- A component of the name, in any case, is one of these words. -/
def Sensitive (name : List Char) : Prop :=
  ∃ part ∈ components (name.map foldCase), part ∈ sensitiveWords

theorem exists_eq_iff_sensitive {name : List Char} :
    (∃ part ∈ components (name.map foldCase), ∃ w ∈ sensitiveWords, part = w) ↔ Sensitive name := by
  simp [Sensitive]

instance (name : List Char) : Decidable (Sensitive name) :=
  decidable_of_iff _ exists_eq_iff_sensitive

example : Sensitive "jwt_Secret_key".toList := by decide

/-- A line up to the value that it assigns to a sensitive name. -/
structure Assignment (word : Char → Bool) where
  indent : List Char
  name : List Char
  gap : List Char
  sign : Char
  space : List Char
  indent_blank : ∀ c ∈ indent, isBlank c = true
  gap_blank : ∀ c ∈ gap, isBlank c = true
  space_blank : ∀ c ∈ space, isBlank c = true
  name_word : ∀ c ∈ name, word c = true
  sign_assigns : sign = '=' ∨ sign = ':'
  sensitive : Sensitive name

/-- A value that a line can assign. -/
structure Value where
  text : List Char
  ne_nil : text ≠ []
  not_space : ∀ c ∈ text, Text.isSpace c = false

/-! The keywords, and what is taken after them. -/

def keyword : Pattern :=
  .any [ignoringCase "password", ignoringCase "passwd", ignoringCase "secret",
    ignoringCase "token",
    .all [ignoringCase "api", separator, ignoringCase "key"],
    .all [ignoringCase "client", separator, ignoringCase "secret"],
    .all [ignoringCase "private", separator, ignoringCase "key"]]

def keywordWhole : Pattern := .append .boundary (.append keyword .boundary)

def afterGap : Pattern :=
  .all [one fun c => c = '=' || c = ':', many Text.isSpace,
    .group (some1 fun c => c != '\n'), .finish]

def afterName : Pattern :=
  .append (.chars (fun c => c != ':' && c != '=' && c != '\n') 0 (some 48) true) afterGap

section

variable {word : Char → Bool} {before : Option Char}

theorem ends_sensitive (place : Place) : sensitiveAssignment.ends word place =
    (keywordWhole.ends word place).flatMap (afterName.ends word) := by
  have hsplit : sensitiveAssignment =
      .append .boundary (.append keyword (.append .boundary afterName)) := rfl
  rw [hsplit, keywordWhole]
  show (boundary.ends word place).flatMap (fun p => (keyword.ends word p).flatMap
      (fun p => (boundary.ends word p).flatMap (afterName.ends word))) =
    ((boundary.ends word place).flatMap (fun p => (keyword.ends word p).flatMap
      (boundary.ends word))).flatMap (afterName.ends word)
  simp only [List.flatMap_assoc]

theorem isAlpha_eq (c : Char) : c.isAlpha =
    (decide ('A'.val ≤ c.val ∧ c.val ≤ 'Z'.val) ||
      (decide ('a'.val ≤ c.val) && decide (c.val ≤ 'z'.val))) := rfl

theorem toLower_eq {c : Char} (h : c.toLower.isAlpha = false) : c.toLower = c := by
  unfold Char.toLower at h ⊢
  split at h
  · next hcap =>
    simp only [isAlpha_eq, ge_iff_le, UInt32.le_iff_toNat_le] at h hcap
    simp at h hcap
    omega
  · next hcap => rw [dif_neg hcap]

theorem foldCase_eq {c : Char} (h : (foldCase c).isAlpha = false) : foldCase c = c := by
  unfold foldCase at h ⊢
  split at h
  · exact absurd h (by decide)
  · next hi =>
    split at h
    · exact absurd h (by decide)
    · next hs =>
      split at h
      · exact absurd h (by decide)
      · next hk => rw [if_neg hi, if_neg hs, if_neg hk, toLower_eq h]

theorem folded {xs name : List Char} :
    xs.Forall₂ (fun x c => decide (foldCase c = foldCase x) = true) name ↔
      name.map foldCase = xs.map foldCase := by
  have heq : name.map foldCase = xs.map foldCase ↔
      (xs.map foldCase).Forall₂ Eq (name.map foldCase) := by
    rw [List.forall₂_eq_eq_eq]
    exact eq_comm
  rw [heq, List.forall₂_map_left_iff, List.forall₂_map_right_iff]
  constructor
  · exact fun h => h.imp fun _ _ hx => (of_decide_eq_true hx).symm
  · exact fun h => h.imp fun _ _ hx => decide_eq_true hx.symm

theorem ends_ignoringCase {w : String} {taken t : List Char} {groups : List (List Char)}
    (h : taken.map foldCase = w.toList.map foldCase) :
    (ignoringCase w).ends word ⟨before, taken ++ t, groups⟩ =
      [⟨reached before taken, t, groups⟩] := ends_literal (folded.mpr h)

theorem ends_ignoringCase_all {w : String} {taken : List Char} {groups : List (List Char)}
    (h : taken.map foldCase = w.toList.map foldCase) :
    (ignoringCase w).ends word ⟨before, taken, groups⟩ =
      [⟨reached before taken, [], groups⟩] := by
  rw [← ends_ignoringCase h, List.append_nil]

theorem mem_ends_ignoringCase {w : String} {place q : Place}
    (h : q ∈ (ignoringCase w).ends word place) :
    ∃ taken, place.rest = taken ++ q.rest ∧ taken.map foldCase = w.toList.map foldCase := by
  obtain ⟨taken, hrest, htaken⟩ := mem_ends_literal h
  exact ⟨taken, hrest, folded.mp htaken⟩

theorem mem_ends_separator {place q : Place} (h : q ∈ separator.ends word place) :
    ∃ s ∈ [[], ['_'], ['-']], place.rest = s ++ q.rest := by
  rcases List.mem_append.mp h with h | h
  · obtain ⟨c, hrest, hc⟩ := mem_ends_one h
    rcases (by simpa using hc : c = '_' ∨ c = '-') with rfl | rfl
    · exact ⟨['_'], by simp, hrest⟩
    · exact ⟨['-'], by simp, hrest⟩
  · obtain rfl := List.mem_singleton.mp h
    exact ⟨[], by simp, rfl⟩

/-- The keywords of two words. -/
theorem mem_ends_compound {x y : String} {place q : Place}
    (h : q ∈ (Pattern.all [ignoringCase x, separator, ignoringCase y]).ends word place) :
    ∃ sep ∈ [[], ['_'], ['-']], ∃ first second, place.rest = first ++ (sep ++ (second ++ q.rest)) ∧
      first.map foldCase = x.toList.map foldCase ∧ second.map foldCase = y.toList.map foldCase := by
  obtain ⟨mid, hmid, h⟩ := mem_ends_all_cons.mp h
  obtain ⟨mid', hmid', h⟩ := mem_ends_all_cons.mp h
  have hlast : q ∈ (ignoringCase y).ends word mid' := h
  obtain ⟨first, hfirst, hx⟩ := mem_ends_ignoringCase hmid
  obtain ⟨sep, hsep, hrest⟩ := mem_ends_separator hmid'
  obtain ⟨second, hsecond, hy⟩ := mem_ends_ignoringCase hlast
  exact ⟨sep, hsep, first, second, by rw [hfirst, hrest, hsecond], hx, hy⟩

/-- The keywords that are sensitive names. -/
def keywordNames : List (List Char) := sensitiveWords ++ ["client_secret".toList]

/-- Of the sensitive names, the keywords are matched whole. -/
theorem keyword_name {name : List Char} {q : Place} {groups : List (List Char)}
    (hdash : ∀ c ∈ name, c ≠ '-')
    (hname : Sensitive name)
    (h : q ∈ keyword.ends word ⟨before, name, groups⟩) (hrest : q.rest = []) :
    name.map foldCase ∈ keywordNames := by
  have hplain : ∀ w : String, q ∈ (ignoringCase w).ends word ⟨before, name, groups⟩ →
      name.map foldCase = w.toList.map foldCase := by
    intro w hw
    obtain ⟨taken, htaken, hfold⟩ := mem_ends_ignoringCase hw
    have hall : name = taken := by simpa [hrest] using htaken
    rw [hall, hfold]
  have hcompound : ∀ x y : String, q ∈ (Pattern.all [ignoringCase x, separator,
      ignoringCase y]).ends word ⟨before, name, groups⟩ →
      ∃ sep ∈ [[], ['_']],
        name.map foldCase = x.toList.map foldCase ++ sep ++ y.toList.map foldCase := by
    intro x y hxy
    obtain ⟨sep, hsep, first, second, hall, hx, hy⟩ := mem_ends_compound hxy
    have hall : name = first ++ (sep ++ second) := by simpa [hrest] using hall
    have hname : ∀ c ∈ sep, c ≠ '-' := fun c hc => hdash c (by simp [hall, hc])
    refine ⟨sep, ?_, ?_⟩
    · simp only [List.mem_cons, List.not_mem_nil, or_false] at hsep ⊢
      rcases hsep with rfl | rfl | rfl
      · simp
      · simp
      · exact absurd rfl (hname '-' (by simp))
    · have hsepfold : sep.map foldCase = sep := by
        simp only [List.mem_cons, List.not_mem_nil, or_false] at hsep
        rcases hsep with rfl | rfl | rfl <;> decide
      rw [hall, List.map_append, List.map_append, hx, hy, hsepfold, List.append_assoc]
  unfold Sensitive at hname
  obtain ⟨a, ha, hq⟩ := mem_ends_any.mp h
  simp only [List.mem_cons, List.not_mem_nil, or_false] at ha
  rcases ha with rfl | rfl | rfl | rfl | rfl | rfl | rfl
  · rw [hplain _ hq]; decide
  · rw [hplain _ hq]; decide
  · rw [hplain _ hq]; decide
  · rw [hplain _ hq]; decide
  all_goals
    obtain ⟨sep, hsep, hall⟩ := hcompound _ _ hq
    rw [hall] at hname ⊢
    simp only [List.mem_cons, List.not_mem_nil, or_false] at hsep
    rcases hsep with rfl | rfl <;> revert hname <;> decide

/-- The place at the end of a text. -/
theorem name_keyword {name : List Char} {groups : List (List Char)}
    (h : name.map foldCase ∈ keywordNames) :
    ⟨reached before name, [], groups⟩ ∈ keyword.ends word ⟨before, name, groups⟩ := by
  have hplain : ∀ w : String, name.map foldCase = w.toList.map foldCase →
      ⟨reached before name, [], groups⟩ ∈ (ignoringCase w).ends word ⟨before, name, groups⟩ := by
    intro w hw
    rw [ends_ignoringCase_all hw]
    exact List.mem_singleton_self _
  refine mem_ends_any.mpr ?_
  have hcases : name.map foldCase = "password".toList ∨ name.map foldCase = "passwd".toList ∨
      name.map foldCase = "secret".toList ∨ name.map foldCase = "token".toList ∨
      name.map foldCase = "client_secret".toList := by
    simpa [keywordNames, sensitiveWords] using h
  rcases hcases with h | h | h | h | h
  · exact ⟨ignoringCase "password", by simp, hplain _ (by rw [h]; decide)⟩
  · exact ⟨ignoringCase "passwd", by simp, hplain _ (by rw [h]; decide)⟩
  · exact ⟨ignoringCase "secret", by simp, hplain _ (by rw [h]; decide)⟩
  · exact ⟨ignoringCase "token", by simp, hplain _ (by rw [h]; decide)⟩
  · refine ⟨.all [ignoringCase "client", separator, ignoringCase "secret"], by simp, ?_⟩
    have hsplit : name.map foldCase = "client".toList ++ ('_' :: "secret".toList) := h
    obtain ⟨first, rest, rfl, hfirst, hrest⟩ := List.map_eq_append_iff.mp hsplit
    obtain ⟨u, second, rfl, hu, hsecond⟩ := List.map_eq_cons_iff.mp hrest
    obtain rfl : u = '_' := (foldCase_eq (by rw [hu]; decide)).symm.trans hu
    rw [ends_all_cons, ends_ignoringCase (by rw [hfirst]; decide), List.flatMap_singleton]
    refine mem_ends_all_cons.mpr ⟨⟨some '_', second, groups⟩, ?_, ?_⟩
    · exact List.mem_append_left _ (by rw [ends_one (by decide)]; exact List.mem_singleton_self _)
    · show _ ∈ (ignoringCase "secret").ends word _
      rw [ends_ignoringCase_all (by rw [hsecond]; decide), reached_append]
      exact List.mem_singleton_self _

theorem ne_nil_of_sensitive {name : List Char} (h : Sensitive name) : name ≠ [] := by
  rintro rfl
  revert h
  decide

/-- A sensitive name is matched as a keyword exactly if it is one of these. -/
theorem keyword_iff {name : List Char} {groups : List (List Char)} (hword : WordClass word)
    (hbefore : before.any word = false) (hall : ∀ c ∈ name, word c = true)
    (hname : Sensitive name) :
    keywordWhole.ends word ⟨before, name, groups⟩ ≠ [] ↔ name.map foldCase ∈ keywordNames := by
  have hdash : ∀ c ∈ name, c ≠ '-' := by
    rintro c hc rfl
    have hw := hall _ hc
    rw [hword.ascii '-' (by decide)] at hw
    cases hw
  rw [keywordWhole, ends_boundary hbefore hall (ne_nil_of_sensitive hname)]
  constructor
  · intro h
    obtain ⟨q, hq⟩ := List.exists_mem_of_ne_nil _ h
    obtain ⟨mid, hmid, hend⟩ := List.mem_flatMap.mp hq
    obtain ⟨hrest, -⟩ := ends_word rfl hall hq
    obtain rfl := eq_of_mem_guarded hend
    exact keyword_name hdash hname hmid hrest
  · intro h
    have hend : (⟨reached before name, [], groups⟩ : Place) ∈
        boundary.ends word ⟨reached before name, [], groups⟩ := by
      rw [ends, if_pos (by simp [reached_word hall (ne_nil_of_sensitive hname)])]
      exact List.mem_singleton_self _
    exact List.ne_nil_of_mem (List.mem_flatMap.mpr ⟨_, name_keyword h, hend⟩)

/-! A name that is followed by a sign of assignment. -/

/-- What stands between a name and the value that is assigned to it. -/
structure Lead (word : Char → Bool) (gap : List Char) (sign : Char) (space : List Char) : Prop where
  gap_free : ∀ c ∈ gap, (c != ':' && c != '=' && c != '\n') = true
  sign_assigns : sign = '=' ∨ sign = ':'
  space_white : ∀ c ∈ space, Text.isSpace c = true
  bounded : ∀ c ∈ (gap ++ [sign]).head?, word c = false ∧ keywordWhole.uses c = false

/-- A value as it may be shown. -/
structure Shown (v : List Char) : Prop where
  head : ∃ c ∈ v.head?, Text.isSpace c = false
  newline : ∀ c ∈ v, c ≠ '\n'

/-- After a name, the assignment is matched as often as the name is matched as a keyword. -/
theorem Lead.ends_name {gap space name : List Char} {sign : Char} (h : Lead word gap sign space)
    (hall : ∀ c ∈ name, word c = true) (v : List Char) :
    sensitiveAssignment.ends word ⟨before, name ++ (gap ++ sign :: (space ++ v)), []⟩ =
      (keywordWhole.ends word ⟨before, name, []⟩).flatMap fun _ =>
        afterName.ends word ⟨reached before name, gap ++ sign :: (space ++ v), []⟩ := by
  obtain ⟨d, z, hz, hd⟩ : ∃ d z, gap ++ sign :: (space ++ v) = d :: z ∧
      d ∈ (gap ++ [sign]).head? := by
    cases gap with
    | nil => exact ⟨sign, space ++ v, rfl, rfl⟩
    | cons c gap => exact ⟨c, gap ++ sign :: (space ++ v), rfl, rfl⟩
  obtain ⟨hw, hu⟩ := h.bounded d hd
  rw [ends_sensitive, hz, ends_followed rfl hu hw, List.flatMap_map]
  refine List.flatMap_congr fun mid hmid => ?_
  have hgroups : mid.groups = [] := ends_groups rfl hmid
  obtain ⟨start, hstart, hmid⟩ := List.mem_flatMap.mp hmid
  obtain rfl := eq_of_mem_guarded hstart
  obtain ⟨hrest, hbefore⟩ := ends_word rfl hall hmid
  obtain ⟨_, _, _⟩ := mid
  cases hrest
  cases hbefore
  cases hgroups
  rfl

theorem Lead.ends_gap {gap space : List Char} {sign : Char} (h : Lead word gap sign space)
    (v : List Char) : afterName.ends word ⟨before, gap ++ sign :: (space ++ v), []⟩ =
      if gap.length ≤ 48 then
        afterGap.ends word ⟨reached before gap, sign :: (space ++ v), []⟩ else [] := by
  have hsign : ∀ c ∈ (sign :: (space ++ v)).head?, (c != ':' && c != '=' && c != '\n') = false := by
    rintro c ⟨⟩
    rcases h.sign_assigns with rfl | rfl <;> rfl
  have hdiffer : ∀ c, (c != ':' && c != '=' && c != '\n') = true → afterGap.starts c = false := by
    intro c hc
    have hnot : (c = '=' || c = ':') = false := by
      simp only [Bool.and_eq_true, bne_iff_ne] at hc
      simp [hc.1.1, hc.1.2]
    simp [afterGap, all, starts, one, nullable, hnot]
  rw [afterName, ends_run rfl hdiffer h.gap_free hsign]
  simp

variable (before) in
theorem Lead.ends_assigned {gap space : List Char} {sign : Char} {v : List Char}
    (h : Lead word gap sign space) (hlen : gap.length ≤ 48) (hv : Shown v) :
    ∃ q, (afterName.ends word ⟨before, gap ++ sign :: (space ++ v), []⟩).head? = some q ∧
      q.rest = [] ∧ q.groups = [v] := by
  have hsign : (sign = '=' || sign = ':') = true := by
    rcases h.sign_assigns with rfl | rfl <;> rfl
  have hspace : ((many Text.isSpace).ends word ⟨some sign, space ++ v, []⟩).head? =
      some ⟨reached (some sign) space, v, []⟩ := by
    obtain ⟨c, hc, hcs⟩ := hv.head
    refine head_charsEnds (Nat.zero_le _) h.space_white fun d hd => ?_
    rw [Option.mem_unique hd hc, hcs]
  have hvalue : ((group (some1 fun c => c != '\n')).ends word
      ⟨reached (some sign) space, v, []⟩).head? =
      some ⟨reached (reached (some sign) space) v, [], [v]⟩ := by
    have hone : 1 ≤ v.length := by
      obtain ⟨c, hc, -⟩ := hv.head
      cases v with
      | nil => cases hc
      | cons c v => simp
    have hrun := @head_charsEnds (reached (some sign) space) (fun c => c != '\n') [] 1 v [] hone
      (fun c hc => by simpa using hv.newline c hc) (by simp)
    rw [List.append_nil] at hrun
    show (((some1 fun c => c != '\n').ends word _).map _).head? = _
    rw [List.head?_map]
    show Option.map _ (charsEnds (fun c => c != '\n') true [] 1 none _ v).head? = _
    rw [hrun]
    simp
  have htail : ((all [group (some1 fun c => c != '\n'), finish]).ends word
      ⟨reached (some sign) space, v, []⟩).head? =
      some ⟨reached (reached (some sign) space) v, [], [v]⟩ := by
    rw [ends_all_cons]
    exact head_flatMap hvalue rfl
  rw [h.ends_gap, if_pos hlen, afterGap, ends_all_cons, ends_one hsign, List.flatMap_singleton,
    ends_all_cons]
  exact ⟨_, head_flatMap hspace htail, rfl, rfl⟩

/-- Where the name is a keyword and the gap is not too long, the value is taken out. -/
theorem Lead.found {front gap space name v : List Char} {sign : Char} (h : Lead word gap sign space)
    (hfront : ∀ z, Skips word sensitiveAssignment none front z)
    (hall : ∀ c ∈ name, word c = true) (hne : name ≠ [])
    (hname : keywordWhole.ends word ⟨reached none front, name, []⟩ ≠ [])
    (hlen : gap.length ≤ 48) (hv : Shown v) :
    ∃ m, sensitiveAssignment.search word none (front ++ (name ++ (gap ++ sign :: (space ++ v)))) =
      some m ∧ m.after = [] ∧ m.group 0 = v := by
  obtain ⟨q, hq, hrest, hgroups⟩ := h.ends_assigned (reached (reached none front) name) hlen hv
  obtain ⟨first, l, hl⟩ := List.exists_cons_of_ne_nil hname
  have hends : (sensitiveAssignment.ends word
      ⟨reached none front, name ++ (gap ++ sign :: (space ++ v)), []⟩).head? = some q := by
    rw [h.ends_name hall, hl]
    exact head_flatMap rfl hq
  refine ⟨⟨name ++ (gap ++ sign :: (space ++ v)), q.groups, q.rest⟩, ?_, hrest, ?_⟩
  · obtain ⟨c, name, rfl⟩ := List.exists_cons_of_ne_nil hne
    rw [search_skips (hfront _), List.cons_append, search, matchAt, ← List.cons_append, hends]
    rfl
  · rw [Match.group, hgroups]
    rfl

/-- Where the name is no keyword or the gap is too long, nothing is taken out. -/
theorem Lead.missed {front gap space name v : List Char} {sign : Char}
    (h : Lead word gap sign space) (hfront : ∀ z, Skips word sensitiveAssignment none front z)
    (hall : ∀ c ∈ name, word c = true)
    (hname : keywordWhole.ends word ⟨reached none front, name, []⟩ = [] ∨ 48 < gap.length)
    (hstarts : ∀ c ∈ gap ++ sign :: (space ++ v), sensitiveAssignment.starts c = false) :
    sensitiveAssignment.search word none (front ++ (name ++ (gap ++ sign :: (space ++ v)))) =
      none := by
  have hends : sensitiveAssignment.ends word
      ⟨reached none front, name ++ (gap ++ sign :: (space ++ v)), []⟩ = [] := by
    rw [h.ends_name hall]
    rcases hname with hname | hlen
    · rw [hname]
      rfl
    · rw [h.ends_gap, if_neg (by omega)]
      simp
  have hskips : Skips word sensitiveAssignment none
      (front ++ (name ++ (gap ++ sign :: (space ++ v)))) [] := by
    refine skips_append.mpr ⟨hfront _, ?_⟩
    cases name with
    | nil => exact skips_of_starts rfl hstarts
    | cons c name =>
      have hc : word c = true := hall c List.mem_cons_self
      refine ⟨by simpa using hends, skips_append.mpr ⟨?_, skips_of_starts rfl hstarts⟩⟩
      exact skips_of_word (by simpa using hc) fun d hd => hall d (List.mem_cons_of_mem c hd)
  have hend := search_skips hskips
  rw [List.append_nil] at hend
  rw [hend, search, matchAt_of_nil (ends_eq_nil rfl (by simp))]

/-! What the other patterns leave of such a line. -/

/-- The characters of the two values that are told apart where nothing is taken out. -/
def isBit (c : Char) : Bool := c = '0' || c = '1'

/-- What is left of a value; bits are left as they are. -/
structure Remains (v v' : List Char) : Prop where
  shown : Shown v'
  same : (∀ c ∈ v, isBit c = true) → v' = v

theorem Remains.refl {v : List Char} (h : Shown v) : Remains v v := ⟨h, fun _ => rfl⟩

theorem Remains.trans {u v w : List Char} (h : Remains u v) (h' : Remains v w) : Remains u w where
  shown := h'.shown
  same := by
    intro hall
    have hv := h.same hall
    exact (h'.same (by rwa [hv])).trans hv

theorem Shown.sub {b : Pattern} {r v : List Char} (h : Shown v) (hr : Shown r) :
    Shown (b.sub word r 0 before v) where
  head := by
    obtain ⟨c, hc, hcs⟩ := h.head
    obtain ⟨d, hd, hds⟩ := hr.head
    cases v with
    | nil => cases hc
    | cons x v =>
      cases hc
      have hne : r ≠ [] := by
        rintro rfl
        cases hd
      have hhead : (b.sub word r 0 before (c :: v)).head? = some c ∨
          (b.sub word r 0 before (c :: v)).head? = r.head? := head_sub hne
      rcases hhead with hx | hx
      · exact ⟨c, hx, hcs⟩
      · exact ⟨d, hx.trans hd, hds⟩
  newline := fun c hc => (mem_sub hc).elim (h.newline c) (hr.newline c)

theorem Remains.sub {b : Pattern} {r v v' : List Char} (h : Remains v v') (hr : Shown r)
    (hb : b.nullable = false) (hbit : ∀ c, isBit c = true → b.starts c = false) :
    Remains v (b.sub word r 0 before v') where
  shown := h.shown.sub hr
  same := by
    intro hall
    have hskips : Skips word b before v [] :=
      skips_of_starts hb fun c hc => hbit c (hall c hc)
    have hsub : b.sub word r 0 before (v ++ []) = v ++ b.sub word r 0 (reached before v) [] :=
      sub_skips hskips
    rw [List.append_nil] at hsub
    rw [h.same hall, hsub, Pattern.sub, List.append_nil]

/-- The line with its credentials taken out, which is searched for an assignment. -/
def maskLine (word : Char → Bool) (line : List Char) : List Char :=
  let line := credentialUrl.sub word "://[REDACTED]@".toList 0 none line
  let line := bearerToken.sub word "Bearer [REDACTED]".toList 0 none line
  let line := knownToken.sub word "[REDACTED TOKEN]".toList 0 none line
  jwt.sub word "[REDACTED JWT]".toList 0 none line

theorem redactLine_found {line front v : List Char} {m : Match}
    (h : sensitiveAssignment.search word none (maskLine word line) = some m)
    (hline : maskLine word line = front ++ v) (hafter : m.after = []) (hgroup : m.group 0 = v) :
    redactLine word line = front ++ "[REDACTED]".toList := by
  have hunfold : redactLine word line =
      (maskLine word line).take
        ((maskLine word line).length - m.after.length - (m.group 0).length) ++
        "[REDACTED]".toList := by
    unfold redactLine
    simp only [maskLine] at h ⊢
    rw [h]
  rw [hunfold, hline, hafter, hgroup]
  simp

theorem redactLine_missed {line : List Char}
    (h : sensitiveAssignment.search word none (maskLine word line) = none) :
    redactLine word line = maskLine word line := by
  unfold redactLine
  simp only [maskLine] at h ⊢
  rw [h]

/-- The characters of such a line that are of no name and of no value. -/
def isMark (c : Char) : Bool := isBlank c || c = '=' || c = ':'

theorem isBlank_cases {c : Char} (h : isBlank c = true) : c = ' ' ∨ c = '\t' := by
  simpa [isBlank] using h

theorem isMark_cases {c : Char} (h : isMark c = true) : c = ' ' ∨ c = '\t' ∨ c = '=' ∨ c = ':' := by
  simpa [isMark, isBlank, or_assoc] using h

theorem WordClass.mark (hword : WordClass word) {c : Char} (h : isMark c = true) :
    word c = false := by
  rcases isMark_cases h with rfl | rfl | rfl | rfl <;> exact hword.ascii _ (by decide)

/-- What refuses the four marks refuses every mark. -/
theorem mark_refused {p : Char → Bool} (hp : ∀ m ∈ [' ', '\t', '=', ':'], p m = false) {c : Char}
    (h : isMark c = true) : p c = false :=
  hp c (by simpa using isMark_cases h)

theorem bearerToken_starts_mark {c : Char} (h : isMark c = true) :
    bearerToken.starts c = false :=
  mark_refused (by decide) h

theorem knownToken_starts_mark {c : Char} (h : isMark c = true) :
    knownToken.starts c = false :=
  mark_refused (by decide) h

theorem jwt_starts_mark {c : Char} (h : isMark c = true) : jwt.starts c = false :=
  mark_refused (by decide) h

theorem sensitive_starts_mark {c : Char} (h : isMark c = true) :
    sensitiveAssignment.starts c = false :=
  mark_refused (by decide) h

theorem knownToken_uses_mark {c : Char} (h : isMark c = true) : knownToken.uses c = false :=
  mark_refused (by decide) h

theorem jwt_uses_mark {c : Char} (h : isMark c = true) : jwt.uses c = false :=
  mark_refused (by decide) h

theorem keywordWhole_uses_mark {c : Char} (h : isMark c = true) : keywordWhole.uses c = false :=
  mark_refused (by decide) h

theorem isBit_cases {c : Char} (h : isBit c = true) : c = '0' ∨ c = '1' := by
  simpa [isBit] using h

theorem bearerToken_starts_bit {c : Char} (h : isBit c = true) : bearerToken.starts c = false := by
  rcases isBit_cases h with rfl | rfl <;> decide

theorem knownToken_starts_bit {c : Char} (h : isBit c = true) : knownToken.starts c = false := by
  rcases isBit_cases h with rfl | rfl <;> decide

theorem jwt_starts_bit {c : Char} (h : isBit c = true) : jwt.starts c = false := by
  rcases isBit_cases h with rfl | rfl <;> decide

namespace Assignment

variable (a : Assignment word)

/-- The line with another name. -/
def lineNamed (name v : List Char) : List Char :=
  a.indent ++ (name ++ (a.gap ++ a.sign :: (a.space ++ v)))

def line (v : List Char) : List Char := a.lineNamed a.name v

/-- What stands between the name and the value. -/
def lead : List Char := a.gap ++ a.sign :: a.space

theorem lineNamed_eq (name v : List Char) :
    a.lineNamed name v = a.indent ++ (name ++ (a.lead ++ v)) := by
  simp [lineNamed, lead]

theorem indent_mark : ∀ c ∈ a.indent, isMark c = true := by
  intro c hc
  simp [isMark, a.indent_blank c hc]

theorem sign_mark : isMark a.sign = true := by
  rcases a.sign_assigns with h | h <;> rw [h] <;> rfl

theorem lead_mark : ∀ c ∈ a.lead, isMark c = true := by
  intro c hc
  rcases List.mem_append.mp hc with hc | hc
  · simp [isMark, a.gap_blank c hc]
  · rcases List.mem_cons.mp hc with rfl | hc
    · exact a.sign_mark
    · simp [isMark, a.space_blank c hc]

theorem lead_cons : ∃ d z, a.lead = d :: z ∧ isMark d = true := by
  obtain ⟨d, z, hz⟩ := List.exists_cons_of_ne_nil (show a.lead ≠ [] by simp [lead])
  exact ⟨d, z, hz, a.lead_mark d (by simp [hz])⟩

theorem name_ne_nil : a.name ≠ [] := ne_nil_of_sensitive a.sensitive

/-- The name is one of a known token, which is taken out. -/
def swallowed : Bool := (knownToken.matchAt word a.indent.getLast? a.name).isSome

def shownName : List Char := if a.swallowed then "[REDACTED TOKEN]".toList else a.name

variable {a}

/-- A pattern that does not match at the name matches nowhere before the value. -/
theorem skips_line {b : Pattern} (hboundary : ∃ tail, b = append boundary tail)
    (hb : b.nullable = false) (hmark : ∀ c, isMark c = true → b.starts c = false) {v : List Char}
    (hname : b.ends word ⟨reached none a.indent, a.name ++ (a.lead ++ v), []⟩ = []) :
    Skips word b none (a.indent ++ (a.name ++ a.lead)) v := by
  refine skips_append.mpr ⟨skips_of_starts hb fun c hc => hmark c (a.indent_mark c hc), ?_⟩
  refine skips_append.mpr ⟨?_, skips_of_starts hb fun c hc => hmark c (a.lead_mark c hc)⟩
  obtain ⟨c, name, hcons⟩ := List.exists_cons_of_ne_nil a.name_ne_nil
  obtain ⟨tail, rfl⟩ := hboundary
  have hall := a.name_word
  rw [hcons] at hname hall ⊢
  exact ⟨hname, skips_of_word (by simpa using hall c List.mem_cons_self)
    fun d hd => hall d (List.mem_cons_of_mem c hd)⟩

theorem swallowed_iff : a.swallowed = true ↔
    knownToken.ends word ⟨reached none a.indent, a.name, []⟩ ≠ [] := by
  rw [swallowed, matchAt, ← reached_none]
  cases knownToken.ends word ⟨reached none a.indent, a.name, []⟩ <;> simp

theorem ne_colon_of_blank {c : Char} (h : isBlank c = true) : c ≠ ':' := by
  rintro rfl
  cases h

theorem sub_lineNamed {b : Pattern} {name r v : List Char}
    (h : Skips word b none (a.indent ++ (name ++ a.lead)) v) :
    b.sub word r 0 none (a.lineNamed name v) = a.lineNamed name
      (b.sub word r 0 (reached none (a.indent ++ (name ++ a.lead))) v) := by
  have hsub : b.sub word r 0 none (a.indent ++ (name ++ a.lead) ++ v) =
      a.indent ++ (name ++ a.lead) ++
        b.sub word r 0 (reached none (a.indent ++ (name ++ a.lead))) v := sub_skips h
  simp only [List.append_assoc] at hsub
  rw [lineNamed_eq, lineNamed_eq, hsub]

theorem credentialUrl_starts {c : Char} (h : c ≠ ':') : credentialUrl.starts c = false := by
  simp [credentialUrl, all, exactly, literal, Pattern.starts, Pattern.nullable, one, h]

variable (a) in
/-- The line is one whose value is taken out: its name is a keyword, or a known token of which the
word token is left, and the gap after it is not too long. -/
def Recognised : Prop :=
  (a.name.map foldCase ∈ keywordNames ∧ a.gap.length ≤ 48) ∨
    (a.swallowed = true ∧ a.gap.length ≤ 47)

theorem skips_indent (z : List Char) : Skips word sensitiveAssignment none a.indent z :=
  skips_of_starts rfl fun c hc => sensitive_starts_mark (a.indent_mark c hc)

theorem keyword_not_swallowed (h : a.name.map foldCase ∈ keywordNames) : a.swallowed = false := by
  have hfirst : ∀ name ∈ keywordNames, name.head? ∈ "pstc".toList.map some := by decide
  by_contra hswallowed
  refine swallowed_iff.mp (by simpa using hswallowed) (ends_eq_nil rfl fun c hc => ?_)
  have hfold : foldCase c ∈ "pstc".toList := by
    have hhead := hfirst _ h
    rw [List.head?_map, hc] at hhead
    obtain ⟨d, hd, heq⟩ := List.mem_map.mp hhead
    rwa [Option.some.inj heq] at hd
  cases hstarts : knownToken.starts c with
  | false => rfl
  | true =>
    have hc : c = 'g' ∨ c = 'A' := by
      simpa [knownToken, all, Pattern.any, exactly, literal, Pattern.starts, Pattern.nullable,
        one] using hstarts
    rcases hc with rfl | rfl <;> revert hfold <;> decide

theorem lineNamed_redacted (v : List Char) : a.lineNamed "[REDACTED TOKEN]".toList v =
    a.indent ++ "[REDACTED ".toList ++
      ("TOKEN".toList ++ ((']' :: a.gap) ++ a.sign :: (a.space ++ v))) := by
  simp [lineNamed]

theorem lineNamed_front (name v : List Char) : a.lineNamed name v =
    a.indent ++ (name ++ (a.gap ++ a.sign :: a.space)) ++ v := by
  simp [lineNamed]

variable (hword : WordClass word)
include hword

theorem before_name : (reached none a.indent).any word = false := by
  rcases a.indent.eq_nil_or_concat with h | ⟨init, c, h⟩
  · rw [h]
    rfl
  · rw [h, List.concat_eq_append, reached_snoc]
    exact hword.mark (a.indent_mark c (by simp [h]))

/-- A pattern that takes no mark sees of the line no more than the name. -/
theorem ends_name {b : Pattern} (hflat : b.flat = true)
    (hmark : ∀ c, isMark c = true → b.uses c = false) (v : List Char) :
    b.ends word ⟨reached none a.indent, a.name ++ (a.lead ++ v), []⟩ =
      (b.ends word ⟨reached none a.indent, a.name, []⟩).map (Place.more (a.lead ++ v)) := by
  obtain ⟨d, z, hz, hd⟩ := a.lead_cons
  rw [hz, List.cons_append]
  exact ends_followed hflat (hmark d hd) (hword.mark hd)

theorem bearer_name (v : List Char) :
    bearerToken.ends word ⟨reached none a.indent, a.name ++ (a.lead ++ v), []⟩ = [] := by
  rw [List.eq_nil_iff_forall_not_mem]
  intro q hq
  obtain ⟨start, hstart, hq⟩ := mem_ends_all_cons.mp hq
  obtain rfl := eq_of_mem_guarded hstart
  obtain ⟨mid, hmid, hq⟩ := mem_ends_all_cons.mp hq
  obtain ⟨taken, hrest, hfold⟩ := mem_ends_ignoringCase hmid
  obtain ⟨mid', hmid', -⟩ := mem_ends_all_cons.mp hq
  obtain ⟨c, t, hspace, hc⟩ : ∃ c t, mid.rest = c :: t ∧ Text.isSpace c = true := by
    obtain ⟨white, htakes⟩ := ends_takes hmid'
    cases white with
    | nil => exact absurd (htakes.nullable rfl) (by simp [some1, nullable])
    | cons c white => exact ⟨c, _, htakes.rest, htakes.starts c rfl⟩
  have hrest : a.name ++ (a.lead ++ v) = taken ++ c :: t := by rw [← hspace, ← hrest]
  have hletters : ∀ d ∈ taken, isMark d = false := by
    intro d hd
    have hmem : foldCase d ∈ "bearer".toList := by
      have hd := List.mem_map_of_mem (f := foldCase) hd
      rwa [hfold] at hd
    by_contra hmark
    rcases isMark_cases (by simpa using hmark) with rfl | rfl | rfl | rfl <;> revert hmem <;> decide
  have htaken : taken = a.name := by
    rcases List.append_eq_append_iff.mp hrest with ⟨rest, htaken, hlead⟩ | ⟨rest, hname, hlead⟩
    · cases rest with
      | nil => rw [htaken, List.append_nil]
      | cons d rest =>
        obtain ⟨e, z, hz, he⟩ := a.lead_cons
        rw [hz] at hlead
        obtain ⟨rfl, -⟩ := List.cons.inj (show e :: (z ++ v) = d :: (rest ++ c :: t) from hlead)
        have hd := hletters e (by rw [htaken]; simp)
        rw [he] at hd
        cases hd
    · cases rest with
      | nil => rw [hname, List.append_nil]
      | cons d rest =>
        cases hlead
        have hnot := hword.not_space c (a.name_word c (by rw [hname]; simp))
        rw [hc] at hnot
        cases hnot
  have hsensitive := a.sensitive
  rw [Sensitive, ← htaken, hfold] at hsensitive
  revert hsensitive
  decide

theorem jwt_name (v : List Char) :
    jwt.ends word ⟨reached none a.indent, a.name ++ (a.lead ++ v), []⟩ = [] := by
  rw [ends_name hword rfl (fun c hc => jwt_uses_mark hc), List.map_eq_nil_iff,
    List.eq_nil_iff_forall_not_mem]
  intro q hq
  obtain ⟨start, hstart, hq⟩ := mem_ends_all_cons.mp hq
  obtain rfl := eq_of_mem_guarded hstart
  obtain ⟨mid, hmid, hq⟩ := mem_ends_all_cons.mp hq
  obtain ⟨mid', hmid', hq⟩ := mem_ends_all_cons.mp hq
  obtain ⟨mid'', hmid'', -⟩ := mem_ends_all_cons.mp hq
  obtain ⟨first, hfirst⟩ := ends_takes hmid
  obtain ⟨second, hsecond⟩ := ends_takes hmid'
  have hdot := mem_ends_exactly hmid''
  have hmem : '.' ∈ a.name := by
    have hname : a.name = first ++ mid.rest := hfirst.rest
    rw [hname, hsecond.rest, hdot]
    simp
  have hnot := a.name_word '.' hmem
  rw [hword.ascii '.' (by decide)] at hnot
  cases hnot

/-- A known token takes the name whole. -/
theorem known_name (h : a.swallowed = true) (v : List Char) :
    ∃ q, (knownToken.ends word ⟨reached none a.indent, a.name ++ (a.lead ++ v), []⟩).head? =
      some q ∧ q.rest = a.lead ++ v := by
  rw [ends_name hword rfl (fun c hc => knownToken_uses_mark hc)]
  obtain ⟨q, l, hl⟩ := List.exists_cons_of_ne_nil (swallowed_iff.mp h)
  have hq : q ∈ knownToken.ends word ⟨reached none a.indent, a.name, []⟩ := by
    rw [hl]
    exact List.mem_cons_self
  obtain ⟨start, hstart, hq⟩ := mem_ends_all_cons.mp hq
  obtain rfl := eq_of_mem_guarded hstart
  obtain ⟨hrest, -⟩ := ends_word rfl a.name_word hq
  refine ⟨q.more (a.lead ++ v), by rw [hl]; rfl, ?_⟩
  rw [Place.more, hrest, List.nil_append]

/-- A credential in the value may start at the sign. -/
theorem credential_line {v : List Char} (hv : Shown v) : ∃ v', Remains v v' ∧
    credentialUrl.sub word "://[REDACTED]@".toList 0 none (a.line v) = a.line v' := by
  have hcolon : ∀ c ∈ a.indent ++ (a.name ++ a.gap), c ≠ ':' := by
    intro c hc
    rcases List.mem_append.mp hc with hc | hc
    · exact ne_colon_of_blank (a.indent_blank c hc)
    · rcases List.mem_append.mp hc with hc | hc
      · rintro rfl
        have hname := a.name_word _ hc
        rw [hword.ascii ':' (by decide)] at hname
        cases hname
      · exact ne_colon_of_blank (a.gap_blank c hc)
  have hskips : Skips word credentialUrl none (a.indent ++ (a.name ++ a.gap))
      (a.sign :: (a.space ++ v)) :=
    skips_of_starts rfl fun c hc => credentialUrl_starts (hcolon c hc)
  have hfront : ∀ w, a.line w = a.indent ++ (a.name ++ a.gap) ++ a.sign :: (a.space ++ w) := by
    intro w
    simp [line, lineNamed]
  have hnewline : ∀ c ∈ "://[REDACTED]@".toList, c ≠ '\n' := by decide
  rw [hfront, sub_skips hskips]
  generalize reached none (a.indent ++ (a.name ++ a.gap)) = before
  cases hends : credentialUrl.ends word ⟨before, a.sign :: (a.space ++ v), []⟩ with
  | nil =>
    have hspace : Skips word credentialUrl (some a.sign) a.space v :=
      skips_of_starts rfl fun c hc => credentialUrl_starts (ne_colon_of_blank (a.space_blank c hc))
    have hremains : Remains v (credentialUrl.sub word "://[REDACTED]@".toList 0
        (reached (some a.sign) a.space) v) := by
      refine (Remains.refl hv).sub ⟨⟨':', rfl, rfl⟩, hnewline⟩ rfl fun c hc => ?_
      exact credentialUrl_starts (by rintro rfl; cases hc)
    exact ⟨_, hremains, by rw [hfront, Pattern.sub, matchAt_of_nil hends, sub_skips hspace]⟩
  | cons q l =>
    have hq : q ∈ credentialUrl.ends word ⟨before, a.sign :: (a.space ++ v), []⟩ := by
      rw [hends]
      exact List.mem_cons_self
    obtain ⟨mid, hmid, -⟩ := mem_ends_all_cons.mp hq
    have hscheme : a.sign :: (a.space ++ v) = ':' :: '/' :: '/' :: mid.rest := mem_ends_exactly hmid
    obtain ⟨hsign, hslashes⟩ := List.cons.inj hscheme
    have hspace : a.space = [] := by
      cases hs : a.space with
      | nil => rfl
      | cons c space =>
        rw [hs] at hslashes
        have hblank := a.space_blank c (by simp [hs])
        rw [(List.cons.inj hslashes).1] at hblank
        cases hblank
    obtain ⟨taken, htaken⟩ := ends_takes hq
    obtain ⟨c, taken, rfl⟩ := List.exists_cons_of_ne_nil fun hnil => by
      cases htaken.nullable hnil
    have hrest : a.sign :: (a.space ++ v) = c :: (taken ++ q.rest) := htaken.rest
    have hsub : credentialUrl.sub word "://[REDACTED]@".toList 0 before (c :: (taken ++ q.rest)) =
        "://[REDACTED]@".toList ++
          credentialUrl.sub word "://[REDACTED]@".toList 0 (reached (some c) taken) q.rest :=
      sub_match (by rw [← hrest, hends]; rfl) rfl
    refine ⟨"//[REDACTED]@".toList ++ credentialUrl.sub word "://[REDACTED]@".toList 0
      (reached (some c) taken) q.rest, ⟨⟨⟨'/', rfl, rfl⟩, ?_⟩, ?_⟩, ?_⟩
    · intro d hd
      rcases List.mem_append.mp hd with hd | hd
      · exact (by decide : ∀ d ∈ "//[REDACTED]@".toList, d ≠ '\n') d hd
      · rcases mem_sub hd with hd | hd
        · have hv' : v = taken ++ q.rest := by
            rw [hspace, List.nil_append] at hrest
            exact (List.cons.inj hrest).2
          exact hv.newline d (by rw [hv']; exact List.mem_append_right _ hd)
        · exact hnewline d hd
    · intro hall
      have hslash : '/' ∈ v := by
        rw [hspace, List.nil_append] at hslashes
        rw [hslashes]
        exact List.mem_cons_self
      cases hall '/' hslash
    · rw [hfront, hrest, hsub, hspace, hsign]
      rfl

theorem bearer_line {v : List Char} (hv : Shown v) : ∃ v', Remains v v' ∧
    bearerToken.sub word "Bearer [REDACTED]".toList 0 none (a.line v) = a.line v' := by
  have hskips : Skips word bearerToken none (a.indent ++ (a.name ++ a.lead)) v :=
    skips_line ⟨_, rfl⟩ rfl (fun c hc => bearerToken_starts_mark hc) (bearer_name hword v)
  exact ⟨_, (Remains.refl hv).sub ⟨⟨'B', rfl, rfl⟩, by decide⟩ rfl fun c => bearerToken_starts_bit,
    sub_lineNamed hskips⟩

theorem known_line {v : List Char} (hv : Shown v) : ∃ v', Remains v v' ∧
    knownToken.sub word "[REDACTED TOKEN]".toList 0 none (a.line v) =
      a.lineNamed a.shownName v' := by
  have hremains : ∀ before, Remains v (knownToken.sub word "[REDACTED TOKEN]".toList 0 before v) :=
    fun before => (Remains.refl hv).sub ⟨⟨'[', rfl, rfl⟩, by decide⟩ rfl
      fun c => knownToken_starts_bit
  by_cases hswallowed : a.swallowed = true
  · have hindent : Skips word knownToken none a.indent (a.name ++ (a.lead ++ v)) :=
      skips_of_starts rfl fun c hc => knownToken_starts_mark (a.indent_mark c hc)
    obtain ⟨q, hq, hrest⟩ := known_name hword hswallowed v
    obtain ⟨c, name, hcons⟩ := List.exists_cons_of_ne_nil a.name_ne_nil
    rw [hcons] at hq
    have hlead : Skips word knownToken (reached (some c) name) a.lead v :=
      skips_of_starts rfl fun d hd => knownToken_starts_mark (a.lead_mark d hd)
    refine ⟨_, hremains (reached (reached (some c) name) a.lead), ?_⟩
    rw [line, lineNamed_eq, lineNamed_eq, sub_skips hindent, shownName, if_pos hswallowed, hcons,
      List.cons_append, sub_match hq hrest, sub_skips hlead]
  · have hnone : knownToken.ends word ⟨reached none a.indent, a.name, []⟩ = [] := by
      by_contra hne
      exact hswallowed (swallowed_iff.mpr hne)
    have hname :
        knownToken.ends word ⟨reached none a.indent, a.name ++ (a.lead ++ v), []⟩ = [] := by
      rw [ends_name hword rfl (fun c hc => knownToken_uses_mark hc), hnone, List.map_nil]
    have hskips : Skips word knownToken none (a.indent ++ (a.name ++ a.lead)) v :=
      skips_line ⟨_, rfl⟩ rfl (fun c hc => knownToken_starts_mark hc) hname
    refine ⟨_, hremains (reached none (a.indent ++ (a.name ++ a.lead))), ?_⟩
    rw [shownName, if_neg hswallowed]
    exact sub_lineNamed hskips

theorem jwt_line {v : List Char} (hv : Shown v) : ∃ v', Remains v v' ∧
    jwt.sub word "[REDACTED JWT]".toList 0 none (a.lineNamed a.shownName v) =
      a.lineNamed a.shownName v' := by
  have hskips : Skips word jwt none (a.indent ++ (a.shownName ++ a.lead)) v := by
    rw [shownName]
    split
    · refine skips_of_starts rfl fun c hc => ?_
      rcases List.mem_append.mp hc with hc | hc
      · exact jwt_starts_mark (a.indent_mark c hc)
      · rcases List.mem_append.mp hc with hc | hc
        · exact (by decide : ∀ c ∈ "[REDACTED TOKEN]".toList, jwt.starts c = false) c hc
        · exact jwt_starts_mark (a.lead_mark c hc)
    · exact skips_line ⟨_, rfl⟩ rfl (fun c hc => jwt_starts_mark hc) (jwt_name hword v)
  exact ⟨_, (Remains.refl hv).sub ⟨⟨'[', rfl, rfl⟩, by decide⟩ rfl fun c => jwt_starts_bit,
    sub_lineNamed hskips⟩

/-- The line that is searched for an assignment. -/
theorem maskLine_line {v : List Char} (hv : Shown v) : ∃ v', Remains v v' ∧
    maskLine word (a.line v) = a.lineNamed a.shownName v' := by
  obtain ⟨v₁, h₁, hcredential⟩ := credential_line hword hv
  obtain ⟨v₂, h₂, hbearer⟩ := bearer_line hword h₁.shown
  obtain ⟨v₃, h₃, hknown⟩ := known_line hword h₂.shown
  obtain ⟨v₄, h₄, hjwt⟩ := jwt_line hword h₃.shown
  refine ⟨v₄, h₁.trans (h₂.trans (h₃.trans h₄)), ?_⟩
  rw [maskLine, hcredential, hbearer, hknown, hjwt]

variable (a) in
theorem lead_lead : Lead word a.gap a.sign a.space where
  gap_free := by
    intro c hc
    rcases isBlank_cases (a.gap_blank c hc) with rfl | rfl <;> rfl
  sign_assigns := a.sign_assigns
  space_white := by
    intro c hc
    rcases isBlank_cases (a.space_blank c hc) with rfl | rfl <;> rfl
  bounded := by
    intro c hc
    have hmark : isMark c = true := by
      refine a.lead_mark c ?_
      rw [lead]
      cases hgap : a.gap with
      | nil =>
        rw [hgap] at hc
        cases hc
        exact List.mem_cons_self
      | cons d gap =>
        rw [hgap] at hc
        cases hc
        exact List.mem_cons_self
    exact ⟨hword.mark hmark, keywordWhole_uses_mark hmark⟩

/-- A known token is followed by the gap only behind a bracket. -/
theorem lead_bracket : Lead word (']' :: a.gap) a.sign a.space where
  gap_free := by
    intro c hc
    rcases List.mem_cons.mp hc with rfl | hc
    · rfl
    · exact (lead_lead a hword).gap_free c hc
  sign_assigns := a.sign_assigns
  space_white := (lead_lead a hword).space_white
  bounded := by
    rintro c ⟨⟩
    exact ⟨hword.ascii ']' (by decide), by decide⟩

theorem skips_redacted (z : List Char) :
    Skips word sensitiveAssignment none (a.indent ++ "[REDACTED ".toList) z := by
  refine skips_append.mpr ⟨skips_indent _, ?_⟩
  have hsplit : "[REDACTED ".toList = ['[', 'R'] ++ ("EDACTED".toList ++ [' ']) := by decide
  rw [hsplit]
  refine skips_append.mpr ⟨skips_of_starts rfl (by decide), skips_append.mpr ⟨?_, ?_⟩⟩
  · refine skips_of_word ?_ fun c hc => ?_
    · exact hword.ascii 'R' (by decide)
    · have hascii : ∀ c ∈ "EDACTED".toList, c.toNat < 128 ∧ isWordByte c = true := by decide
      rw [hword.ascii c (hascii c hc).1, (hascii c hc).2]
  · exact skips_of_starts rfl (by decide)

theorem token_word : ∀ c ∈ "TOKEN".toList, word c = true := by
  intro c hc
  have hascii : ∀ c ∈ "TOKEN".toList, c.toNat < 128 ∧ isWordByte c = true := by decide
  rw [hword.ascii c (hascii c hc).1, (hascii c hc).2]

theorem token_ends : keywordWhole.ends word
    ⟨reached none (a.indent ++ "[REDACTED ".toList), "TOKEN".toList, []⟩ ≠ [] := by
  have hbefore : (reached none (a.indent ++ "[REDACTED ".toList)).any word = false := by
    rw [reached_append]
    exact hword.ascii ' ' (by decide)
  exact (keyword_iff hword hbefore (token_word hword) (by decide)).mpr (by decide)

theorem redactLine_recognised (h : a.Recognised) {v : List Char} (hv : Shown v) :
    redactLine word (a.line v) = a.lineNamed a.shownName "[REDACTED]".toList := by
  obtain ⟨v', hremains, hmask⟩ := maskLine_line hword hv
  have hfound : ∃ m, sensitiveAssignment.search word none (maskLine word (a.line v)) = some m ∧
      m.after = [] ∧ m.group 0 = v' := by
    rw [hmask]
    rcases h with ⟨hname, hlen⟩ | ⟨hswallowed, hlen⟩
    · rw [shownName, keyword_not_swallowed hname]
      exact (lead_lead a hword).found skips_indent a.name_word a.name_ne_nil
        ((keyword_iff hword (before_name hword) a.name_word a.sensitive).mpr hname) hlen
        hremains.shown
    · rw [shownName, if_pos hswallowed, lineNamed_redacted]
      exact (lead_bracket hword).found (skips_redacted hword) (token_word hword) (by decide)
        (token_ends hword) (Nat.succ_le_succ hlen) hremains.shown
  obtain ⟨m, hm, hafter, hgroup⟩ := hfound
  rw [redactLine_found hm (hmask.trans (lineNamed_front _ v')) hafter hgroup, lineNamed_front]

theorem redactLine_not_recognised (h : ¬a.Recognised) {c : Char} (hc : isBit c = true) :
    redactLine word (a.line [c]) = a.lineNamed a.shownName [c] := by
  have hplain : Text.isSpace c = false ∧ c ≠ '\n' ∧ sensitiveAssignment.starts c = false := by
    rcases isBit_cases hc with rfl | rfl <;> decide
  have hshown : Shown [c] := ⟨⟨c, rfl, hplain.1⟩, by simpa using hplain.2.1⟩
  obtain ⟨v', hremains, hmask⟩ := maskLine_line hword hshown
  rw [hremains.same (by simpa using hc)] at hmask
  have hlead : ∀ d ∈ a.gap ++ a.sign :: (a.space ++ [c]), sensitiveAssignment.starts d = false := by
    intro d hd
    have hd : d ∈ a.lead ++ [c] := by simpa [lead] using hd
    rcases List.mem_append.mp hd with hd | hd
    · exact sensitive_starts_mark (a.lead_mark d hd)
    · rw [List.mem_singleton.mp hd]
      exact hplain.2.2
  have hmissed : sensitiveAssignment.search word none (maskLine word (a.line [c])) = none := by
    rw [hmask, shownName]
    split
    · next hswallowed =>
      have hlen : 48 < (']' :: a.gap).length := by
        by_contra hshort
        exact h (.inr ⟨hswallowed, by rw [List.length_cons] at hshort; omega⟩)
      rw [lineNamed_redacted]
      refine (lead_bracket hword).missed (skips_redacted hword) (token_word hword) (.inr hlen) ?_
      intro d hd
      rcases List.mem_cons.mp hd with rfl | hd
      · decide
      · exact hlead d hd
    · refine (lead_lead a hword).missed skips_indent a.name_word ?_ hlead
      by_cases hlen : a.gap.length ≤ 48
      · refine .inl (by_contra fun hname => h (.inl ⟨?_, hlen⟩))
        exact (keyword_iff hword (before_name hword) a.name_word a.sensitive).mp hname
      · exact .inr (by omega)
  rw [redactLine_missed hmissed, hmask]

end Assignment

end
end Bantam
