import Bantam.Lib.Pattern

/-! What a match reads of a text: the characters it can start with and use, and what may stand
after it. -/
namespace Pattern

variable {word : Char → Bool} {a b : Pattern} {place q : Place} {before : Option Char}

/-- The character before a place that lies a text further on. -/
def reached : Option Char → List Char → Option Char
  | before, [] => before
  | _, c :: s => reached (some c) s

theorem reached_append (before : Option Char) (s t : List Char) :
    reached before (s ++ t) = reached (reached before s) t := by
  induction s generalizing before with
  | nil => rfl
  | cons c s ih => exact ih (some c)

theorem reached_snoc (before : Option Char) (s : List Char) (c : Char) :
    reached before (s ++ [c]) = some c := reached_append before s [c]

theorem reached_none (s : List Char) : reached none s = s.getLast? := by
  rcases s.eq_nil_or_concat with rfl | ⟨init, c, rfl⟩
  · rfl
  · rw [List.concat_eq_append, reached_snoc, List.getLast?_append_of_ne_nil _ (by simp)]
    rfl

/-- The pattern can match the empty text. -/
def nullable : Pattern → Bool
  | chars _ low _ _ => low == 0
  | append a b => a.nullable && b.nullable
  | either a b => a.nullable || b.nullable
  | group a => a.nullable
  | _ => true

/-- The characters that a match can start with. -/
def starts : Pattern → Char → Bool
  | chars p _ _ _, c => p c
  | append a b, c => a.starts c || a.nullable && b.starts c
  | either a b, c => a.starts c || b.starts c
  | star a, c => a.starts c
  | group a, c => a.starts c
  | _, _ => false

/-- The characters that a match can take. -/
def uses : Pattern → Char → Bool
  | chars p _ _ _, c => p c
  | append a b, c => a.uses c || b.uses c
  | either a b, c => a.uses c || b.uses c
  | star a, c => a.uses c
  | group a, c => a.uses c
  | _, _ => false

/-- The pattern takes `taken` on its way from one place to another. -/
structure Takes (a : Pattern) (place q : Place) (taken : List Char) : Prop where
  rest : place.rest = taken ++ q.rest
  before : q.before = reached place.before taken
  uses : ∀ c ∈ taken, a.uses c = true
  starts : ∀ c ∈ taken.head?, a.starts c = true
  nullable : taken = [] → a.nullable = true

theorem charsEnds_takes {p : Char → Bool} {greedy : Bool} {groups : List (List Char)} {low : Nat}
    {high : Option Nat} {s : List Char} (h : q ∈ charsEnds p greedy groups low high before s) :
    ∃ taken, s = taken ++ q.rest ∧ q.before = reached before taken ∧
      (∀ c ∈ taken, p c = true) ∧ (taken = [] → low = 0) ∧ q.groups = groups := by
  induction s generalizing low high before with
  | nil =>
    rw [charsEnds] at h
    split at h
    · next hlow =>
      obtain rfl := List.mem_singleton.mp h
      exact ⟨[], rfl, rfl, by simp, fun _ => hlow, rfl⟩
    · exact absurd h List.not_mem_nil
  | cons x rest ih =>
    have hcases : (low = 0 ∧ q = ⟨before, x :: rest, groups⟩) ∨ (p x = true ∧
        q ∈ charsEnds p greedy groups (low - 1) (high.map (· - 1)) (some x) rest) := by
      rw [charsEnds] at h
      cases greedy with
      | true => rcases List.mem_append.mp h with h | h <;> split at h <;> simp_all
      | false => rcases List.mem_append.mp h with h | h <;> split at h <;> simp_all
    rcases hcases with ⟨hlow, rfl⟩ | ⟨hx, hmore⟩
    · exact ⟨[], rfl, rfl, by simp, fun _ => hlow, rfl⟩
    · obtain ⟨taken, hrest, hbefore, hall, -, hgroups⟩ := ih hmore
      refine ⟨x :: taken, by rw [hrest]; rfl, hbefore, ?_, by simp, hgroups⟩
      simpa using ⟨hx, hall⟩

theorem Takes.none (h : a.nullable = true) : Takes a place place [] where
  rest := rfl
  before := rfl
  uses := by simp
  starts := by simp
  nullable := fun _ => h

theorem Takes.append {mid : Place} {s t : List Char} (h : Takes a place mid s)
    (h' : Takes b mid q t) : Takes (.append a b) place q (s ++ t) where
  rest := by rw [h.rest, h'.rest, List.append_assoc]
  before := by rw [h'.before, h.before, reached_append]
  uses := by
    intro c hc
    rcases List.mem_append.mp hc with hc | hc
    · simp [Pattern.uses, h.uses c hc]
    · simp [Pattern.uses, h'.uses c hc]
  starts := by
    intro c hc
    cases s with
    | nil => simp [Pattern.starts, h.nullable rfl, h'.starts c hc]
    | cons x s => simp [Pattern.starts, h.starts c hc]
  nullable := by
    intro hnil
    obtain ⟨hs, ht⟩ := List.append_eq_nil_iff.mp hnil
    simp [Pattern.nullable, h.nullable hs, h'.nullable ht]

theorem eq_of_mem_guarded {P : Prop} [Decidable P] (h : q ∈ if P then [place] else []) :
    q = place := by
  split at h
  · exact List.mem_singleton.mp h
  · exact absurd h List.not_mem_nil

theorem starEnds_takes {rounds : Nat} {next : Place → List Place}
    (hnext : ∀ place q, q ∈ next place → ∃ taken, Takes a place q taken)
    (h : q ∈ starEnds next rounds place) : ∃ taken, Takes (.star a) place q taken := by
  induction rounds generalizing place with
  | zero =>
    obtain rfl := List.mem_singleton.mp h
    exact ⟨[], .none rfl⟩
  | succ rounds ih =>
    rcases List.mem_append.mp h with h | h
    · obtain ⟨mid, hmid, hq⟩ := List.mem_flatMap.mp h
      obtain ⟨s, hs⟩ := hnext place mid (List.mem_of_mem_filter hmid)
      obtain ⟨t, ht⟩ := ih hq
      refine ⟨s ++ t, ?_, ?_, ?_, ?_, fun _ => rfl⟩
      · rw [hs.rest, ht.rest, List.append_assoc]
      · rw [ht.before, hs.before, reached_append]
      · intro c hc
        rcases List.mem_append.mp hc with hc | hc
        · exact hs.uses c hc
        · exact ht.uses c hc
      · intro c hc
        cases s with
        | nil => exact ht.starts c hc
        | cons x s => exact hs.starts c hc
    · obtain rfl := List.mem_singleton.mp h
      exact ⟨[], .none rfl⟩

theorem ends_takes (h : q ∈ a.ends word place) : ∃ taken, Takes a place q taken := by
  induction a generalizing place q with
  | empty =>
    obtain rfl := List.mem_singleton.mp h
    exact ⟨[], .none rfl⟩
  | chars p low high greedy =>
    obtain ⟨taken, hrest, hbefore, hall, hlow, -⟩ := charsEnds_takes h
    refine ⟨taken, hrest, hbefore, hall, fun c hc => hall c (List.mem_of_mem_head? hc), ?_⟩
    intro hnil
    simpa [nullable] using hlow hnil
  | boundary =>
    obtain rfl := eq_of_mem_guarded h
    exact ⟨[], .none rfl⟩
  | lineStart =>
    obtain rfl := eq_of_mem_guarded h
    exact ⟨[], .none rfl⟩
  | lineEnd =>
    obtain rfl := eq_of_mem_guarded h
    exact ⟨[], .none rfl⟩
  | finish =>
    obtain rfl := eq_of_mem_guarded h
    exact ⟨[], .none rfl⟩
  | append a b iha ihb =>
    obtain ⟨mid, hmid, hq⟩ := List.mem_flatMap.mp h
    obtain ⟨s, hs⟩ := iha hmid
    obtain ⟨t, ht⟩ := ihb hq
    exact ⟨s ++ t, hs.append ht⟩
  | either a b iha ihb =>
    rcases List.mem_append.mp h with h | h
    · obtain ⟨s, hs⟩ := iha h
      refine ⟨s, hs.rest, hs.before, fun c hc => ?_, fun c hc => ?_, fun hnil => ?_⟩
      · simp [uses, hs.uses c hc]
      · simp [starts, hs.starts c hc]
      · simp [nullable, hs.nullable hnil]
    · obtain ⟨s, hs⟩ := ihb h
      refine ⟨s, hs.rest, hs.before, fun c hc => ?_, fun c hc => ?_, fun hnil => ?_⟩
      · simp [uses, hs.uses c hc]
      · simp [starts, hs.starts c hc]
      · simp [nullable, hs.nullable hnil]
  | star a ih => exact starEnds_takes (fun _ _ => ih) h
  | group a ih =>
    obtain ⟨mid, hmid, rfl⟩ := List.mem_map.mp h
    obtain ⟨s, hs⟩ := ih hmid
    exact ⟨s, hs.rest, hs.before, hs.uses, hs.starts, hs.nullable⟩

/-- A pattern that cannot be empty matches nowhere but at a character it can start with. -/
theorem ends_eq_nil {s : List Char} {groups : List (List Char)} (ha : a.nullable = false)
    (h : ∀ c ∈ s.head?, a.starts c = false) : a.ends word ⟨before, s, groups⟩ = [] := by
  rw [List.eq_nil_iff_forall_not_mem]
  intro q hq
  obtain ⟨taken, htaken⟩ := ends_takes hq
  cases taken with
  | nil => simp [htaken.nullable rfl] at ha
  | cons c taken =>
    have hc : c ∈ s.head? := by
      have hs : s = c :: taken ++ q.rest := htaken.rest
      rw [hs]
      rfl
    have hstarts := htaken.starts c rfl
    rw [h c hc] at hstarts
    cases hstarts

/-! What follows a character that the pattern cannot take makes no difference. -/

/-- Nothing in the pattern looks at the end of the text, nothing is kept as a group and nothing is
repeated but characters. -/
def flat : Pattern → Bool
  | empty | chars .. | boundary | lineStart => true
  | append a b | either a b => a.flat && b.flat
  | _ => false

/-- A place with more text after it. -/
def Place.more (z : List Char) (place : Place) : Place := { place with rest := place.rest ++ z }

theorem charsEnds_followed {p : Char → Bool} {greedy : Bool} {groups : List (List Char)} {low : Nat}
    {high : Option Nat} {s z : List Char} {d : Char} (hd : p d = false) :
    charsEnds p greedy groups low high before (s ++ d :: z) =
      (charsEnds p greedy groups low high before s).map (Place.more (d :: z)) := by
  induction s generalizing low high before with
  | nil =>
    by_cases hlow : low = 0
    · cases greedy <;> simp [charsEnds, hd, hlow, Place.more]
    · cases greedy <;> simp [charsEnds, hd, hlow]
  | cons x s ih =>
    rw [List.cons_append, charsEnds, charsEnds, ih]
    by_cases hlow : low = 0
    · by_cases hx : p x = true ∧ high ≠ some 0
      · cases greedy <;> simp [hx, hlow, Place.more]
      · cases greedy <;> simp [hx, hlow, Place.more]
    · by_cases hx : p x = true ∧ high ≠ some 0
      · cases greedy <;> simp [hx, hlow]
      · cases greedy <;> simp [hx, hlow]

theorem ends_followed {s z : List Char} {groups : List (List Char)} {d : Char}
    (hflat : a.flat = true) (hd : a.uses d = false) (hw : word d = false) :
    a.ends word ⟨before, s ++ d :: z, groups⟩ =
      (a.ends word ⟨before, s, groups⟩).map (Place.more (d :: z)) := by
  induction a generalizing before s groups with
  | empty => rfl
  | chars p low high greedy => exact charsEnds_followed hd
  | boundary =>
    have hhead : ((s ++ d :: z).head?.any word) = (s.head?.any word) := by
      cases s with
      | nil => simp [hw]
      | cons x s => rfl
    simp only [ends, hhead]
    split <;> rfl
  | lineStart =>
    simp only [ends]
    split <;> rfl
  | append a b iha ihb =>
    simp only [flat, Bool.and_eq_true] at hflat
    simp only [uses, Bool.or_eq_false_iff] at hd
    simp only [ends, iha hflat.1 hd.1, List.flatMap_map, List.map_flatMap]
    congr 1
    funext mid
    exact ihb hflat.2 hd.2
  | either a b iha ihb =>
    simp only [flat, Bool.and_eq_true] at hflat
    simp only [uses, Bool.or_eq_false_iff] at hd
    simp only [ends, iha hflat.1 hd.1, ihb hflat.2 hd.2, List.map_append]
  | group a => cases hflat
  | lineEnd => cases hflat
  | finish => cases hflat
  | star a => cases hflat

theorem ends_groups (hflat : a.flat = true) (h : q ∈ a.ends word place) :
    q.groups = place.groups := by
  induction a generalizing place q with
  | empty => rw [List.mem_singleton.mp h]
  | chars p low high greedy =>
    obtain ⟨_, -, -, -, -, hgroups⟩ := charsEnds_takes h
    exact hgroups
  | boundary => rw [eq_of_mem_guarded h]
  | lineStart => rw [eq_of_mem_guarded h]
  | append a b iha ihb =>
    simp only [flat, Bool.and_eq_true] at hflat
    obtain ⟨mid, hmid, hq⟩ := List.mem_flatMap.mp h
    rw [ihb hflat.2 hq, iha hflat.1 hmid]
  | either a b iha ihb =>
    simp only [flat, Bool.and_eq_true] at hflat
    rcases List.mem_append.mp h with h | h
    · exact iha hflat.1 h
    · exact ihb hflat.2 h
  | lineEnd => cases hflat
  | finish => cases hflat
  | star a => cases hflat
  | group a => cases hflat

theorem starEnds_prefix {next : Place → List Place}
    (hnext : ∀ place, ∀ q ∈ next place, place.groups <+: q.groups) {rounds : Nat}
    (h : q ∈ starEnds next rounds place) : place.groups <+: q.groups := by
  induction rounds generalizing place with
  | zero => exact List.mem_singleton.mp h ▸ List.prefix_rfl
  | succ rounds ih =>
    rcases List.mem_append.mp h with hmore | hstop
    · obtain ⟨mid, hmid, hq⟩ := List.mem_flatMap.mp hmore
      exact (hnext place mid (List.mem_filter.mp hmid).1).trans (ih hq)
    · exact List.mem_singleton.mp hstop ▸ List.prefix_rfl

/-- A match keeps the groups that were closed before it. -/
theorem groups_prefix (h : q ∈ a.ends word place) : place.groups <+: q.groups := by
  induction a generalizing place q with
  | empty => exact List.mem_singleton.mp h ▸ List.prefix_rfl
  | chars p low high greedy =>
    obtain ⟨_, -, -, -, -, hgroups⟩ := charsEnds_takes h
    exact hgroups ▸ List.prefix_rfl
  | boundary => exact eq_of_mem_guarded h ▸ List.prefix_rfl
  | lineStart => exact eq_of_mem_guarded h ▸ List.prefix_rfl
  | lineEnd => exact eq_of_mem_guarded h ▸ List.prefix_rfl
  | finish => exact eq_of_mem_guarded h ▸ List.prefix_rfl
  | append a b iha ihb =>
    obtain ⟨mid, hmid, hq⟩ := List.mem_flatMap.mp h
    exact (iha hmid).trans (ihb hq)
  | either a b iha ihb =>
    rcases List.mem_append.mp h with h | h
    · exact iha h
    · exact ihb h
  | star a ih => exact starEnds_prefix (fun _ _ hq => ih hq) h
  | group a ih =>
    obtain ⟨mid, hmid, rfl⟩ := List.mem_map.mp h
    exact (ih hmid).trans (List.prefix_append _ _)

/-- A group has what its pattern takes. -/
theorem mem_ends_group (h : q ∈ (group a).ends word place) :
    ∃ mid taken, mid ∈ a.ends word place ∧ Takes a place mid taken ∧
      q = { mid with groups := mid.groups ++ [taken] } := by
  obtain ⟨mid, hmid, rfl⟩ := List.mem_map.mp h
  obtain ⟨taken, htaken⟩ := ends_takes hmid
  refine ⟨mid, taken, hmid, htaken, ?_⟩
  rw [htaken.rest, List.length_append, Nat.add_sub_cancel, List.take_left]

/-- A match that ends at a boundary takes a word whole. -/
theorem ends_word {s : List Char} {groups : List (List Char)} (hb : b.nullable = false)
    (hs : ∀ c ∈ s, word c = true)
    (h : q ∈ (append b boundary).ends word ⟨before, s, groups⟩) :
    q.rest = [] ∧ q.before = reached before s := by
  obtain ⟨mid, hmid, hq⟩ := List.mem_flatMap.mp h
  obtain rfl := eq_of_mem_guarded hq
  obtain ⟨taken, htaken⟩ := ends_takes hmid
  have hrest : s = taken ++ q.rest := htaken.rest
  have hbefore : q.before = reached before taken := htaken.before
  have hlast : ∃ c ∈ taken, q.before = some c := by
    rcases taken.eq_nil_or_concat with rfl | ⟨init, c, rfl⟩
    · simp [htaken.nullable rfl] at hb
    · exact ⟨c, by simp, by rw [hbefore, List.concat_eq_append, reached_snoc]⟩
  obtain ⟨c, hc, hqc⟩ := hlast
  have hword : word c = true := hs c (by rw [hrest]; exact List.mem_append_left _ hc)
  cases hr : q.rest with
  | nil => exact ⟨rfl, by rw [hbefore, hrest, hr, List.append_nil]⟩
  | cons d t =>
    have hd : word d = true := hs d (by rw [hrest, hr]; simp)
    rw [ends, if_neg (by simp [hqc, hword, hr, hd])] at hq
    exact absurd hq List.not_mem_nil

/-- A word starts at a boundary. -/
theorem ends_boundary {s : List Char} {groups : List (List Char)}
    (hbefore : before.any word = false) (hs : ∀ c ∈ s, word c = true) (hne : s ≠ []) :
    (append boundary a).ends word ⟨before, s, groups⟩ = a.ends word ⟨before, s, groups⟩ := by
  obtain ⟨c, s, rfl⟩ := List.exists_cons_of_ne_nil hne
  have hc : word c = true := hs c List.mem_cons_self
  show (if before.any word ≠ (some c).any word then [_] else []).flatMap (a.ends word) = _
  rw [if_pos (by simp [hbefore, hc]), List.flatMap_singleton]

/-- A word ends at a boundary. -/
theorem reached_word {s : List Char} (hs : ∀ c ∈ s, word c = true) (hne : s ≠ []) :
    (reached before s).any word = true := by
  rcases s.eq_nil_or_concat with rfl | ⟨init, c, rfl⟩
  · exact absurd rfl hne
  · rw [List.concat_eq_append, reached_snoc]
    exact hs c (by simp)

/-! The match that is tried first. -/

theorem head_flatMap {l : List Place} {f : Place → List Place} {r : Place}
    (hl : l.head? = some q) (hf : (f q).head? = some r) : (l.flatMap f).head? = some r := by
  cases l with
  | nil => cases hl
  | cons x l =>
    cases hl
    rw [List.flatMap_cons, List.head?_append, hf]
    rfl

/-- A greedy run first takes all it can. -/
theorem head_charsEnds {p : Char → Bool} {groups : List (List Char)} {low : Nat}
    {run s : List Char} (hlow : low ≤ run.length) (hrun : ∀ c ∈ run, p c = true)
    (hs : ∀ c ∈ s.head?, p c = false) :
    (charsEnds p true groups low none before (run ++ s)).head? =
      some ⟨reached before run, s, groups⟩ := by
  induction run generalizing low before with
  | nil =>
    obtain rfl : low = 0 := Nat.le_zero.mp hlow
    cases s with
    | nil => rfl
    | cons x s => simp [charsEnds, hs x rfl, reached]
  | cons c run ih =>
    have hc := hrun c List.mem_cons_self
    have hmore := @ih (some c) (low - 1) (by rw [List.length_cons] at hlow; omega)
      fun x hx => hrun x (List.mem_cons_of_mem c hx)
    simp [charsEnds, hc, hmore, reached]

/-! The parts of a sequence and of a choice. -/

theorem ends_all_cons (l : List Pattern) :
    (all (a :: l)).ends word place = (a.ends word place).flatMap ((all l).ends word) := by
  cases l with
  | nil => exact (List.flatMap_singleton' _).symm
  | cons b l => rfl

theorem mem_ends_all_cons {l : List Pattern} : q ∈ (all (a :: l)).ends word place ↔
    ∃ mid ∈ a.ends word place, q ∈ (all l).ends word mid := by
  rw [ends_all_cons, List.mem_flatMap]

theorem ends_any_cons (l : List Pattern) :
    (any (a :: l)).ends word place = a.ends word place ++ (any l).ends word place := by
  cases l with
  | nil =>
    have hnone : (any []).ends word place = [] :=
      ends_eq_nil rfl fun _ _ => rfl
    rw [hnone, List.append_nil]
    rfl
  | cons b l => rfl

theorem mem_ends_any {l : List Pattern} :
    q ∈ (any l).ends word place ↔ ∃ a ∈ l, q ∈ a.ends word place := by
  induction l with
  | nil =>
    have hnone : (any []).ends word place = [] :=
      ends_eq_nil rfl fun _ _ => rfl
    simp [hnone]
  | cons a l ih => simp [ends_any_cons, ih]

theorem ends_one {p : Char → Bool} {c : Char} {s : List Char} {groups : List (List Char)}
    (h : p c = true) : (one p).ends word ⟨before, c :: s, groups⟩ = [⟨some c, s, groups⟩] := by
  cases s with
  | nil => simp [one, ends, charsEnds, h]
  | cons x s => simp [one, ends, charsEnds, h]

theorem mem_ends_one {p : Char → Bool} (h : q ∈ (one p).ends word place) :
    ∃ c, place.rest = c :: q.rest ∧ p c = true := by
  obtain ⟨before, s, groups⟩ := place
  cases s with
  | nil =>
    rw [ends_eq_nil rfl (by simp)] at h
    exact absurd h List.not_mem_nil
  | cons c s =>
    by_cases hc : p c = true
    · rw [ends_one hc] at h
      obtain rfl := List.mem_singleton.mp h
      exact ⟨c, rfl, hc⟩
    · rw [ends_eq_nil rfl (by simpa [starts, one] using hc)] at h
      exact absurd h List.not_mem_nil

theorem ends_many_ne_nil {p : Char → Bool} : (many p).ends word place ≠ [] := by
  obtain ⟨before, s, groups⟩ := place
  cases s with
  | nil => exact List.cons_ne_nil _ _
  | cons c s => exact List.append_ne_nil_of_right_ne_nil _ (List.cons_ne_nil _ _)

/-- A run of characters before a pattern that cannot start with one of them is as long as it can
be. -/
theorem ends_run {p : Char → Bool} {low : Nat} {high : Option Nat} {greedy : Bool}
    {run s : List Char} {groups : List (List Char)} (hb : b.nullable = false)
    (hdiffer : ∀ c, p c = true → b.starts c = false) (hrun : ∀ c ∈ run, p c = true)
    (hs : ∀ c ∈ s.head?, p c = false) :
    (append (chars p low high greedy) b).ends word ⟨before, run ++ s, groups⟩ =
      if low ≤ run.length ∧ ∀ n ∈ high, run.length ≤ n
      then b.ends word ⟨reached before run, s, groups⟩ else [] := by
  show (charsEnds p greedy groups low high before (run ++ s)).flatMap (b.ends word) = _
  induction run generalizing low high before with
  | nil =>
    have hstop : charsEnds p greedy groups low high before s =
        if low = 0 then [⟨before, s, groups⟩] else [] := by
      cases s with
      | nil => rfl
      | cons x s =>
        have hx := hs x rfl
        cases greedy <;> simp [charsEnds, hx]
    rw [List.nil_append, hstop]
    by_cases hlow : low = 0
    · simp [hlow, reached]
    · simp [hlow]
  | cons c run ih =>
    have hc := hrun c List.mem_cons_self
    have hstop : b.ends word ⟨before, c :: (run ++ s), groups⟩ = [] :=
      ends_eq_nil hb fun x hx => by cases hx; exact hdiffer c hc
    have hmore := @ih (some c) (low - 1) (high.map (· - 1))
      fun x hx => hrun x (List.mem_cons_of_mem c hx)
    have hsplit : (charsEnds p greedy groups low high before (c :: (run ++ s))).flatMap
        (b.ends word) =
        if high ≠ some 0 then (charsEnds p greedy groups (low - 1) (high.map (· - 1)) (some c)
          (run ++ s)).flatMap (b.ends word) else [] := by
      rw [charsEnds]
      by_cases hlow : low = 0
      · by_cases hhigh : high = some 0
        · cases greedy <;> simp [hc, hlow, hhigh, hstop]
        · cases greedy <;> simp [hc, hlow, hhigh, hstop]
      · by_cases hhigh : high = some 0
        · cases greedy <;> simp [hlow, hhigh]
        · cases greedy <;> simp [hc, hlow, hhigh]
    rw [List.cons_append, hsplit, hmore, reached]
    cases high with
    | none => simp
    | some n =>
      by_cases hn : n = 0
      · simp [hn]
      · have hiff : run.length ≤ n - 1 ↔ run.length + 1 ≤ n := by omega
        simp [hn, hiff]

/-! Literal texts. -/

theorem ends_literal {same : Char → Char → Bool} {xs taken t : List Char}
    {groups : List (List Char)} (h : xs.Forall₂ (fun x c => same x c = true) taken) :
    (all (xs.map fun x => one (same x))).ends word ⟨before, taken ++ t, groups⟩ =
      [⟨reached before taken, t, groups⟩] := by
  induction h generalizing before with
  | nil => rfl
  | cons hx _ ih =>
    rw [List.map_cons, ends_all_cons, List.cons_append, ends_one hx, List.flatMap_singleton, ih]
    rfl

theorem mem_ends_literal {same : Char → Char → Bool} {xs : List Char}
    (h : q ∈ (all (xs.map fun x => one (same x))).ends word place) :
    ∃ taken, place.rest = taken ++ q.rest ∧ xs.Forall₂ (fun x c => same x c = true) taken := by
  induction xs generalizing place with
  | nil =>
    obtain rfl := List.mem_singleton.mp h
    exact ⟨[], rfl, .nil⟩
  | cons x xs ih =>
    rw [List.map_cons, ends_all_cons] at h
    obtain ⟨mid, hmid, hq⟩ := List.mem_flatMap.mp h
    obtain ⟨c, hs, hc⟩ := mem_ends_one hmid
    obtain ⟨taken, hmid, htaken⟩ := ih hq
    exact ⟨c :: taken, by rw [hs, hmid]; rfl, .cons hc htaken⟩

/-! Where no match starts, a text is searched and rewritten from behind it. -/

/-- No match starts in `s`, where `z` follows it. -/
def Skips (word : Char → Bool) (a : Pattern) : Option Char → List Char → List Char → Prop
  | _, [], _ => True
  | before, c :: s, z => a.ends word ⟨before, c :: (s ++ z), []⟩ = [] ∧ Skips word a (some c) s z

theorem skips_append {s t z : List Char} : Skips word a before (s ++ t) z ↔
    Skips word a before s (t ++ z) ∧ Skips word a (reached before s) t z := by
  induction s generalizing before with
  | nil => simp [Skips, reached]
  | cons c s ih => simp [Skips, reached, ih, and_assoc]

theorem skips_of_starts {s z : List Char} (ha : a.nullable = false)
    (h : ∀ c ∈ s, a.starts c = false) : Skips word a before s z := by
  induction s generalizing before with
  | nil => trivial
  | cons c s ih =>
    refine ⟨ends_eq_nil ha fun x hx => ?_, ih fun d hd => h d (List.mem_cons_of_mem c hd)⟩
    cases hx
    exact h _ List.mem_cons_self

/-- A pattern that starts at a boundary does not match within a word. -/
theorem skips_of_word {s z : List Char} (hbefore : before.any word = true)
    (h : ∀ c ∈ s, word c = true) : Skips word (append boundary b) before s z := by
  induction s generalizing before with
  | nil => trivial
  | cons c s ih =>
    have hc : word c = true := h c List.mem_cons_self
    have hnone : boundary.ends word ⟨before, c :: (s ++ z), []⟩ = [] := by
      simp [ends, hbefore, hc]
    refine ⟨?_, ih (by simpa using hc) fun d hd => h d (List.mem_cons_of_mem c hd)⟩
    simp only [ends] at hnone ⊢
    rw [hnone, List.flatMap_nil]

theorem matchAt_of_nil {s : List Char} (h : a.ends word ⟨before, s, []⟩ = []) :
    a.matchAt word before s = none := by
  rw [matchAt, h]
  rfl

/-- The characters of a match are such as its pattern takes. -/
theorem whole_uses {m : Match} {s : List Char} (h : a.matchAt word before s = some m) :
    ∀ c ∈ m.whole, a.uses c = true := by
  obtain ⟨last, hlast, rfl⟩ := Option.map_eq_some_iff.mp h
  obtain ⟨taken, htaken⟩ := ends_takes (List.mem_of_mem_head? (Option.mem_def.mpr hlast))
  have hwhole : (Match.mk s last.groups last.rest).whole = taken := by
    have hrest : s = taken ++ last.rest := htaken.rest
    show s.take (s.length - last.rest.length) = taken
    rw [hrest, List.length_append, Nat.add_sub_cancel, List.take_left]
  rw [hwhole]
  exact htaken.uses

theorem mem_findAll {m : Match} {skip : Nat} {s : List Char}
    (h : m ∈ a.findAll word skip before s) :
    ∃ before t, a.matchAt word before t = some m := by
  induction s generalizing skip before with
  | nil => cases skip <;> exact absurd h List.not_mem_nil
  | cons x s ih =>
    cases skip with
    | succ skip => exact ih h
    | zero =>
      rw [findAll] at h
      split at h
      · next own hown =>
        rcases List.mem_cons.mp h with rfl | h
        · exact ⟨before, x :: s, hown⟩
        · exact ih h
      · exact ih h

theorem sub_skips {s z replacement : List Char} (h : Skips word a before s z) :
    a.sub word replacement 0 before (s ++ z) =
      s ++ a.sub word replacement 0 (reached before s) z := by
  induction s generalizing before with
  | nil => rfl
  | cons c s ih =>
    rw [List.cons_append, sub, matchAt_of_nil h.1, ih h.2]
    rfl

theorem search_skips {s z : List Char} (h : Skips word a before s z) :
    a.search word before (s ++ z) = a.search word (reached before s) z := by
  induction s generalizing before with
  | nil => rfl
  | cons c s ih =>
    rw [List.cons_append, search, matchAt_of_nil h.1, Option.none_or, ih h.2]
    rfl

/-- What was matched is passed over. -/
theorem sub_passed {s z replacement : List Char} :
    a.sub word replacement s.length before (s ++ z) =
      a.sub word replacement 0 (reached before s) z := by
  induction s generalizing before with
  | nil => rfl
  | cons c s ih => exact ih

theorem sub_match {c : Char} {taken z replacement : List Char}
    (h : (a.ends word ⟨before, c :: (taken ++ z), []⟩).head? = some q) (hq : q.rest = z) :
    a.sub word replacement 0 before (c :: (taken ++ z)) =
      replacement ++ a.sub word replacement 0 (reached (some c) taken) z := by
  have hskip : (taken ++ z).length - q.rest.length = taken.length := by simp [hq]
  rw [sub, matchAt, h, Option.map_some]
  simp only [hskip, sub_passed]

/-- A character of a text that was rewritten is one of the text or of the replacement. -/
theorem mem_sub {n : Nat} {s replacement : List Char} {c : Char}
    (h : c ∈ a.sub word replacement n before s) : c ∈ s ∨ c ∈ replacement := by
  induction s generalizing n before with
  | nil => cases n <;> exact absurd h List.not_mem_nil
  | cons x s ih =>
    cases n with
    | succ n => exact (ih h).imp_left (List.mem_cons_of_mem x)
    | zero =>
      rw [sub] at h
      split at h
      · rcases List.mem_append.mp h with h | h
        · exact .inr h
        · exact (ih h).imp_left (List.mem_cons_of_mem x)
      · rcases List.mem_cons.mp h with rfl | h
        · exact .inl List.mem_cons_self
        · exact (ih h).imp_left (List.mem_cons_of_mem x)

theorem head_sub {x : Char} {s replacement : List Char} (hne : replacement ≠ []) :
    (a.sub word replacement 0 before (x :: s)).head? = some x ∨
      (a.sub word replacement 0 before (x :: s)).head? = replacement.head? := by
  rw [sub]
  split
  · exact .inr (List.head?_append_of_ne_nil _ hne)
  · exact .inl rfl

end Pattern
