import Bantam.SlidingWindow

/-! The limiter of checks that counts them in the database, a row for each key. -/
namespace Bantam
open Runs

/-- A row of `auth_rate_limits`, without its key. -/
structure AuthRateLimit where
  windowStartedAt : ℚ
  attempts : Nat
  updatedAt : ℚ
deriving DecidableEq, Repr

/-- `DatabaseRateLimiter`, without its pool. -/
structure DatabaseRateLimiter where
  limit : Nat
  windowSeconds : Int
  limit_pos : 1 ≤ limit
  window_pos : 1 ≤ windowSeconds

/-- The statement to be executed fails where a column of type `INTEGER` cannot hold a value. -/
def integerMax : Nat := 2 ^ 31 - 1

namespace DatabaseRateLimiter

/-- `__init__` -/
def init (limit : Int) (window : ℚ) : DatabaseRateLimiter where
  limit := (max 1 limit).toNat
  windowSeconds := max 1 ⌊window⌋
  limit_pos := one_le_limit limit
  window_pos := le_max_left 1 ⌊window⌋

variable (limiter : DatabaseRateLimiter)

/-- The row that the upsert of `check` leaves and returns. -/
def upsert (now : ℚ) : Option AuthRateLimit → Option AuthRateLimit
  | none => some ⟨now, 1, now⟩
  | some row =>
    if row.windowStartedAt ≤ now - limiter.windowSeconds then some ⟨now, 1, now⟩
    else if integerMax < row.attempts + 1 then none
    else some ⟨row.windowStartedAt, row.attempts + 1, now⟩

/-- What `check` makes of the row. -/
def result (now : ℚ) (row : AuthRateLimit) : RateLimit :=
  if row.attempts ≤ limiter.limit then ⟨true, 0⟩
  else ⟨false, ⌊max 1 (limiter.windowSeconds - (now - row.windowStartedAt))⌋⟩

/-- Whether the cleanup deletes the row. -/
def stale (now : ℚ) (row : AuthRateLimit) : Bool := row.updatedAt < now - 24 * 60 * 60

section
variable {κ η : Type} [DecidableEq η] (digest : κ → η)

/-- What is done to a row when its lock is granted, by a transaction that commits. -/
inductive RowEvent (κ η : Type) where
  | check (key : κ) (now : ℚ)
  | delete (keyHash : η) (now : ℚ)

/-- The table, by `key_hash`. -/
abbrev Rows (η : Type) := η → Option AuthRateLimit

variable (rows : Rows η)

/-- `check` on the row of its key. An error leaves the row as it is. -/
def check (key : κ) (now : ℚ) : Option RateLimit × Rows η :=
  match limiter.upsert now (rows (digest key)) with
  | none => (none, rows)
  | some row => (some (limiter.result now row), Function.update rows (digest key) (some row))

def step (rows : Rows η) : RowEvent κ η → Rows η
  | .check key now => (limiter.check digest rows key now).2
  | .delete keyHash now => Function.update rows keyHash ((rows keyHash).filter fun row => !stale now row)

/-- The results of the checks. -/
def outcome (rows : Rows η) : RowEvent κ η → Option (κ × ℚ × Option RateLimit)
  | .check key now => some (key, now, (limiter.check digest rows key now).1)
  | .delete _ _ => none

/-- An allowed check, with the start of the window that it was counted in. -/
structure Grant (κ : Type) where
  key : κ
  checkedAt : ℚ
  windowStartedAt : ℚ

/-- The check, if it is allowed. -/
def granted (rows : Rows η) : RowEvent κ η → Option (Grant κ)
  | .check key now =>
    let (result, after) := limiter.check digest rows key now
    if result.any RateLimit.allowed
    then (after (digest key)).map fun row => ⟨key, now, row.windowStartedAt⟩
    else none
  | .delete _ _ => none

def RowEvent.keyHash : RowEvent κ η → η
  | .check key _ => digest key
  | .delete keyHash _ => keyHash

def RowEvent.now : RowEvent κ η → ℚ
  | .check _ now => now
  | .delete _ now => now

/-- The times of what is done to a row, in the order in which its lock is granted. -/
def timesOf (keyHash : η) (events : List (RowEvent κ η)) : List ℚ :=
  (events.filter fun e => e.keyHash digest = keyHash).map RowEvent.now

/-- Time does not go back for any row. -/
def Ordered (events : List (RowEvent κ η)) : Prop :=
  ∀ keyHash, (timesOf digest keyHash events).Pairwise (· ≤ ·)

def RowEvent.isCheck : RowEvent κ η → Bool
  | .check _ _ => true
  | .delete _ _ => false

/-- The checks of a run that are allowed, from an empty table. -/
def allowedChecks (events : List (RowEvent κ η)) : List (Grant κ) :=
  collect (limiter.step digest) (limiter.granted digest) (fun _ => none) events

/-- The results of the checks of a run, from an empty table. -/
def outcomes (events : List (RowEvent κ η)) : List (κ × ℚ × Option RateLimit) :=
  collect (limiter.step digest) (limiter.outcome digest) (fun _ => none) events

end

/-- Windows do not overlap, and none has more allowed checks than the limit. -/
structure Spaced {κ : Type} (grants : List (Grant κ)) : Prop where
  inside : ∀ g ∈ grants, g.windowStartedAt ≤ g.checkedAt ∧
    g.checkedAt < g.windowStartedAt + limiter.windowSeconds
  apart : ∀ g ∈ grants, ∀ g' ∈ grants, g.windowStartedAt < g'.windowStartedAt →
    g.windowStartedAt + limiter.windowSeconds ≤ g'.windowStartedAt
  few : ∀ start, (grants.filter fun g => g.windowStartedAt = start).length ≤ limiter.limit

section Spaced
variable {limiter} {κ : Type} {grants : List (Grant κ)}

theorem Spaced.sublist {fewer : List (Grant κ)} (h : limiter.Spaced grants)
    (hfewer : fewer.Sublist grants) : limiter.Spaced fewer where
  inside := fun g hg => h.inside g (hfewer.subset hg)
  apart := fun g hg g' hg' => h.apart g (hfewer.subset hg) g' (hfewer.subset hg')
  few := fun start => ((hfewer.filter _).length_le).trans (h.few start)

/-- Of three windows the first has ended for a window's length when the third starts. -/
theorem Spaced.far (h : limiter.Spaced grants) {g g' g'' : Grant κ} (hg : g ∈ grants)
    (hg' : g' ∈ grants) (hg'' : g'' ∈ grants) (hlt : g.windowStartedAt < g'.windowStartedAt)
    (hlt' : g'.windowStartedAt < g''.windowStartedAt) :
    g.checkedAt + limiter.windowSeconds < g''.checkedAt := by
  have hfirst := (h.inside g hg).2
  have hthird := (h.inside g'' hg'').1
  have hgap := h.apart g hg g' hg' hlt
  have hgap' := h.apart g' hg' g'' hg'' hlt'
  linarith

/-- Checks less than a window's length apart belong to two windows at most. -/
theorem Spaced.two_windows (h : limiter.Spaced grants)
    (hclose : ∀ g ∈ grants, ∀ g' ∈ grants, g'.checkedAt ≤ g.checkedAt + limiter.windowSeconds) :
    ∃ start start', ∀ g ∈ grants, g.windowStartedAt = start ∨ g.windowStartedAt = start' := by
  by_cases hone : ∃ start, ∀ g ∈ grants, g.windowStartedAt = start
  · obtain ⟨start, hall⟩ := hone
    exact ⟨start, start, fun g hg => .inl (hall g hg)⟩
  · simp only [not_exists, not_forall] at hone
    obtain ⟨g, hg, -⟩ := hone 0
    obtain ⟨g', hg', hne⟩ := hone g.windowStartedAt
    refine ⟨g.windowStartedAt, g'.windowStartedAt, fun g'' hg'' => ?_⟩
    by_contra hthird
    obtain ⟨hne', hne''⟩ := not_or.mp hthird
    have hbound : ∀ a ∈ grants, ∀ b ∈ grants, ∀ c ∈ grants, a.windowStartedAt < b.windowStartedAt →
        ¬b.windowStartedAt < c.windowStartedAt := by
      intro a ha b hb c hc hab hbc
      exact not_lt.mpr (hclose a ha c hc) (h.far ha hb hc hab hbc)
    rcases lt_or_gt_of_ne hne with hlt | hlt
    · rcases lt_or_gt_of_ne hne' with hlt' | hlt'
      · rcases lt_or_gt_of_ne hne'' with hlt'' | hlt''
        · exact hbound g'' hg'' g' hg' g hg hlt'' hlt
        · exact hbound g' hg' g'' hg'' g hg hlt'' hlt'
      · exact hbound g' hg' g hg g'' hg'' hlt hlt'
    · rcases lt_or_gt_of_ne hne' with hlt' | hlt'
      · exact hbound g'' hg'' g hg g' hg' hlt' hlt
      · rcases lt_or_gt_of_ne hne'' with hlt'' | hlt''
        · exact hbound g hg g'' hg'' g' hg' hlt' hlt''
        · exact hbound g hg g' hg' g'' hg'' hlt hlt''

/-- Twice the limit is allowed at most among checks less than a window's length apart. -/
theorem Spaced.length_le (h : limiter.Spaced grants)
    (hclose : ∀ g ∈ grants, ∀ g' ∈ grants, g'.checkedAt ≤ g.checkedAt + limiter.windowSeconds) :
    grants.length ≤ 2 * limiter.limit := by
  obtain ⟨start, start', hall⟩ := h.two_windows hclose
  have hother : (grants.filter fun g => !decide (g.windowStartedAt = start)).length ≤
      (grants.filter fun g => g.windowStartedAt = start').length := by
    rw [← List.countP_eq_length_filter, ← List.countP_eq_length_filter]
    apply List.countP_mono_left
    intro g hg hne
    have hne' : g.windowStartedAt ≠ start := by
      simpa using hne
    exact decide_eq_true ((hall g hg).resolve_left hne')
  have hsplit := List.length_eq_length_filter_add (l := grants) fun g => g.windowStartedAt = start
  have hfew := h.few start
  have hfew' := hother.trans (h.few start')
  omega

end Spaced

/-- What holds of a row and of the checks that were allowed for it: every earlier window has ended
when the row's starts, and the row counts the allowed checks of its own. -/
def Counted {κ : Type} (now : ℚ) (grants : List (Grant κ)) : Option AuthRateLimit → Prop
  | none => ∀ g ∈ grants, g.windowStartedAt + limiter.windowSeconds ≤ now
  | some row =>
    row.windowStartedAt ≤ row.updatedAt ∧ row.updatedAt ≤ now ∧
    (∀ g ∈ grants, g.windowStartedAt = row.windowStartedAt ∨
      g.windowStartedAt + limiter.windowSeconds ≤ row.windowStartedAt) ∧
    (grants.filter fun g => g.windowStartedAt = row.windowStartedAt).length ≤ row.attempts

section Counted
variable {limiter} {κ : Type} {grants : List (Grant κ)} {now : ℚ} {row : Option AuthRateLimit}

theorem Counted.later {next : ℚ} (h : limiter.Counted now grants row) (hnext : now ≤ next) :
    limiter.Counted next grants row := by
  cases row with
  | none => exact fun g hg => (h g hg).trans hnext
  | some row => exact ⟨h.1, h.2.1.trans hnext, h.2.2⟩

/-- A row that is deleted has been there for longer than a window. -/
theorem Counted.delete (hwindow : limiter.windowSeconds ≤ 24 * 60 * 60)
    (h : limiter.Counted now grants row) :
    limiter.Counted now grants (row.filter fun row => !stale now row) := by
  cases row with
  | none => exact h
  | some row =>
    by_cases hstale : stale now row = true
    · rw [Option.filter_some, if_neg (by simp [hstale])]
      intro g hg
      obtain ⟨hstarted, -, hbefore, -⟩ := h
      have hlong : (limiter.windowSeconds : ℚ) ≤ 24 * 60 * 60 := by exact_mod_cast hwindow
      have hold : row.updatedAt < now - 24 * 60 * 60 := by
        simpa [stale] using hstale
      rcases hbefore g hg with hsame | hended
      · rw [hsame]
        linarith
      · linarith
    · rw [Option.filter_some, if_pos (by simp [hstale])]
      exact h

/-- The first check of a window is allowed. -/
theorem Spaced.restart (h : limiter.Spaced grants) (key : κ)
    (hended : ∀ g ∈ grants, g.windowStartedAt + limiter.windowSeconds ≤ now) :
    limiter.Spaced (grants ++ [⟨key, now, now⟩]) ∧
      limiter.Counted now (grants ++ [⟨key, now, now⟩]) (some ⟨now, 1, now⟩) := by
  have hpos : (1 : ℚ) ≤ limiter.windowSeconds := by exact_mod_cast limiter.window_pos
  have hbefore : ∀ g ∈ grants, g.windowStartedAt ≠ now := by
    intro g hg hsame
    have hle := hended g hg
    linarith
  have hnone : (grants.filter fun g => g.windowStartedAt = now) = [] := by
    rw [List.filter_eq_nil_iff]
    intro g hg
    simpa using hbefore g hg
  have hlimit := limiter.limit_pos
  constructor
  · refine ⟨?_, ?_, ?_⟩
    · intro g hg
      rcases List.mem_append.mp hg with hg | hg
      · exact h.inside g hg
      · rw [List.mem_singleton.mp hg]
        exact ⟨le_rfl, by dsimp only; linarith⟩
    · intro g hg g' hg' hlt
      rcases List.mem_append.mp hg with hg | hg
      · rcases List.mem_append.mp hg' with hg' | hg'
        · exact h.apart g hg g' hg' hlt
        · rw [List.mem_singleton.mp hg']
          exact hended g hg
      · rw [List.mem_singleton.mp hg] at hlt ⊢
        rcases List.mem_append.mp hg' with hg' | hg'
        · have hle := hended g' hg'
          dsimp only at hlt ⊢
          linarith
        · rw [List.mem_singleton.mp hg'] at hlt
          exact absurd hlt (lt_irrefl _)
    · intro start
      rw [List.filter_append, List.length_append]
      by_cases hstart : now = start
      · rw [← hstart, hnone]
        simpa using hlimit
      · simpa [hstart] using h.few start
  · refine ⟨le_rfl, le_rfl, ?_, ?_⟩
    · intro g hg
      rcases List.mem_append.mp hg with hg | hg
      · exact .inr (hended g hg)
      · exact .inl (by rw [List.mem_singleton.mp hg])
    · rw [List.filter_append, hnone]
      simp

/-- A check in the window of the row is counted, and allowed up to the limit. -/
theorem Spaced.next {started : AuthRateLimit} (h : limiter.Spaced grants)
    (hrow : limiter.Counted now grants (some started)) (key : κ)
    (hopen : now - limiter.windowSeconds < started.windowStartedAt)
    (hlimit : started.attempts + 1 ≤ limiter.limit) :
    limiter.Spaced (grants ++ [⟨key, now, started.windowStartedAt⟩]) := by
  obtain ⟨hstarted, hupdated, hbefore, hcount⟩ := hrow
  refine ⟨?_, ?_, ?_⟩
  · intro g hg
    rcases List.mem_append.mp hg with hg | hg
    · exact h.inside g hg
    · rw [List.mem_singleton.mp hg]
      exact ⟨hstarted.trans hupdated, by dsimp only; linarith⟩
  · have hpos : (1 : ℚ) ≤ limiter.windowSeconds := by exact_mod_cast limiter.window_pos
    intro g hg g' hg' hlt
    rcases List.mem_append.mp hg with hg | hg
    · rcases List.mem_append.mp hg' with hg' | hg'
      · exact h.apart g hg g' hg' hlt
      · rw [List.mem_singleton.mp hg'] at hlt ⊢
        exact (hbefore g hg).resolve_left hlt.ne
    · rw [List.mem_singleton.mp hg] at hlt ⊢
      rcases List.mem_append.mp hg' with hg' | hg'
      · have hle := (hbefore g' hg').resolve_left hlt.ne'
        dsimp only at hlt ⊢
        linarith
      · rw [List.mem_singleton.mp hg'] at hlt
        exact absurd hlt (lt_irrefl _)
  · intro start
    rw [List.filter_append, List.length_append]
    by_cases hstart : started.windowStartedAt = start
    · subst hstart
      simp only [List.filter_singleton, decide_true, cond_true, List.length_singleton]
      omega
    · simpa [hstart] using h.few start

theorem Counted.next {started : AuthRateLimit} (h : limiter.Counted now grants (some started)) :
    limiter.Counted now grants (some ⟨started.windowStartedAt, started.attempts + 1, now⟩) := by
  obtain ⟨hstarted, hupdated, hbefore, hcount⟩ := h
  exact ⟨hstarted.trans hupdated, le_rfl, hbefore, hcount.trans (Nat.le_succ _)⟩

theorem Counted.next_allowed {started : AuthRateLimit}
    (h : limiter.Counted now grants (some started)) (key : κ) :
    limiter.Counted now (grants ++ [⟨key, now, started.windowStartedAt⟩])
      (some ⟨started.windowStartedAt, started.attempts + 1, now⟩) := by
  obtain ⟨hstarted, hupdated, hbefore, hcount⟩ := h
  refine ⟨hstarted.trans hupdated, le_rfl, ?_, ?_⟩
  · intro g hg
    rcases List.mem_append.mp hg with hg | hg
    · exact hbefore g hg
    · exact .inl (by rw [List.mem_singleton.mp hg])
  · rw [List.filter_append, List.length_append]
    simp only [List.filter_singleton, decide_true, cond_true, List.length_singleton]
    omega

end Counted

section Steps
variable {limiter} {κ η : Type} [DecidableEq η] {digest : κ → η} {rows : Rows η} {key : κ} {now : ℚ}
  {log : List (Grant κ)}

/-- The allowed checks of a row. -/
def grantsOf (digest : κ → η) (keyHash : η) (log : List (Grant κ)) : List (Grant κ) :=
  log.filter fun g => digest g.key = keyHash

variable (limiter now) in
theorem upsert_cases (row : Option AuthRateLimit) :
    (∃ started, row = some started ∧ now - limiter.windowSeconds < started.windowStartedAt ∧
      integerMax < started.attempts + 1 ∧ limiter.upsert now row = none) ∨
    (∃ started, row = some started ∧ now - limiter.windowSeconds < started.windowStartedAt ∧
      limiter.upsert now row = some ⟨started.windowStartedAt, started.attempts + 1, now⟩) ∨
    ((∀ started ∈ row, started.windowStartedAt ≤ now - limiter.windowSeconds) ∧
      limiter.upsert now row = some ⟨now, 1, now⟩) := by
  cases row with
  | none => exact .inr (.inr ⟨fun _ h => absurd h (Option.not_mem_none _), rfl⟩)
  | some started =>
    by_cases hended : started.windowStartedAt ≤ now - limiter.windowSeconds
    · refine .inr (.inr ⟨fun row hrow => ?_, if_pos hended⟩)
      rw [← Option.some_inj.mp hrow]
      exact hended
    · have hopen := not_le.mp hended
      by_cases hmax : integerMax < started.attempts + 1
      · exact .inl ⟨started, rfl, hopen, hmax, (if_neg hended).trans (if_pos hmax)⟩
      · exact .inr (.inl ⟨started, rfl, hopen, (if_neg hended).trans (if_neg hmax)⟩)

/-- What is counted of a row and what is allowed keep each other. -/
theorem check_kept (key : κ) {grants : List (Grant κ)} (hs : limiter.Spaced grants)
    (hc : limiter.Counted now grants (rows (digest key))) :
    let after := limiter.step digest rows (.check key now)
    let grants' := grants ++ (limiter.granted digest rows (.check key now)).toList
    limiter.Spaced grants' ∧ limiter.Counted now grants' (after (digest key)) := by
  dsimp only
  rcases upsert_cases limiter now (rows (digest key)) with
    ⟨started, hrow, hopen, hmax, hupsert⟩ | ⟨started, hrow, hopen, hupsert⟩ | ⟨hended, hupsert⟩
  · simp only [step, granted, check, hupsert]
    simpa using ⟨hs, hc⟩
  · rw [hrow] at hc
    simp only [step, granted, check, hupsert, result, Function.update_self]
    by_cases hlimit : started.attempts + 1 ≤ limiter.limit
    · simp only [if_pos hlimit]
      exact ⟨hs.next hc key hopen hlimit, hc.next_allowed key⟩
    · simp only [if_neg hlimit]
      simpa using ⟨hs, hc.next⟩
  · have hbefore : ∀ g ∈ grants, g.windowStartedAt + limiter.windowSeconds ≤ now := by
      intro g hg
      cases hrow : rows (digest key) with
      | none =>
        rw [hrow] at hc
        exact hc g hg
      | some started =>
        rw [hrow] at hc hended
        have hpos : (1 : ℚ) ≤ limiter.windowSeconds := by exact_mod_cast limiter.window_pos
        have hle := hended started rfl
        rcases hc.2.2.1 g hg with hsame | hearlier
        · linarith
        · linarith
    have hlimit : 1 ≤ limiter.limit := limiter.limit_pos
    simp only [step, granted, check, hupsert, result, Function.update_self, if_pos hlimit]
    exact hs.restart key hbefore

theorem grantsOf_check (keyHash : η) : grantsOf digest keyHash
      (log ++ (limiter.granted digest rows (.check key now)).toList) =
    if digest key = keyHash
    then grantsOf digest keyHash log ++ (limiter.granted digest rows (.check key now)).toList
    else grantsOf digest keyHash log := by
  have hkey : ∀ g ∈ limiter.granted digest rows (.check key now), g.key = key := by
    intro g hg
    simp only [granted, Option.mem_def, Option.ite_none_right_eq_some, Option.map_eq_some_iff] at hg
    obtain ⟨-, _, -, rfl⟩ := hg
    rfl
  unfold grantsOf
  rw [List.filter_append]
  cases hgranted : limiter.granted digest rows (.check key now) with
  | none => simp
  | some g =>
    rw [hgranted] at hkey
    have hsame := hkey g rfl
    by_cases hdigest : digest key = keyHash
    · simp [hsame, hdigest]
    · simp [hsame, hdigest]

end Steps

/-- What holds of what has been done, of the checks that were allowed and of the table. -/
def Kept {κ η : Type} [DecidableEq η] (digest : κ → η) (past : List (RowEvent κ η))
    (log : List (Grant κ)) (rows : Rows η) : Prop :=
  Ordered digest past → ∀ keyHash now, (∀ time ∈ timesOf digest keyHash past, time ≤ now) →
    limiter.Spaced (grantsOf digest keyHash log) ∧
      limiter.Counted now (grantsOf digest keyHash log) (rows keyHash)

section Runs
variable {limiter} {κ η : Type} [DecidableEq η] {digest : κ → η} {rows : Rows η}
  {log : List (Grant κ)} {past events : List (RowEvent κ η)}

theorem timesOf_snoc (keyHash : η) (e : RowEvent κ η) : timesOf digest keyHash (past ++ [e]) =
    if e.keyHash digest = keyHash then timesOf digest keyHash past ++ [e.now]
    else timesOf digest keyHash past := by
  unfold timesOf
  split_ifs with hkey
  · simp [hkey]
  · simp [hkey]

/-- Time has not gone back before the last event, and what was done to its row was done before. -/
theorem Ordered.last {e : RowEvent κ η} (h : Ordered digest (past ++ [e])) :
    Ordered digest past ∧ ∀ time ∈ timesOf digest (e.keyHash digest) past, time ≤ e.now := by
  constructor
  · intro keyHash
    have hall := h keyHash
    rw [timesOf_snoc] at hall
    split_ifs at hall
    · exact (List.pairwise_append.mp hall).1
    · exact hall
  · intro time htime
    have hall := h (e.keyHash digest)
    rw [timesOf_snoc, if_pos rfl] at hall
    exact (List.pairwise_append.mp hall).2.2 time htime e.now (by simp)

theorem kept_step (hwindow : limiter.windowSeconds ≤ 24 * 60 * 60)
    (h : limiter.Kept digest past log rows) (e : RowEvent κ η) :
    limiter.Kept digest (past ++ [e]) (log ++ (limiter.granted digest rows e).toList)
      (limiter.step digest rows e) := by
  intro hordered keyHash now hnow
  obtain ⟨hpast, hbefore⟩ := hordered.last
  rw [timesOf_snoc] at hnow
  have hrow := h hpast (e.keyHash digest) e.now hbefore
  cases e with
  | check key time =>
    rw [grantsOf_check]
    by_cases hkey : digest key = keyHash
    · subst hkey
      have hlast : time ≤ now := hnow time (by simp [RowEvent.keyHash, RowEvent.now])
      obtain ⟨hspaced, hcounted⟩ := check_kept key hrow.1 hrow.2
      rw [if_pos rfl]
      exact ⟨hspaced, hcounted.later hlast⟩
    · rw [if_neg hkey]
      rw [if_neg (show ¬RowEvent.keyHash digest (.check key time) = keyHash from hkey)] at hnow
      obtain ⟨hspaced, hcounted⟩ := h hpast keyHash now hnow
      refine ⟨hspaced, ?_⟩
      have hsame : limiter.step digest rows (.check key time) keyHash = rows keyHash := by
        unfold step check
        dsimp only
        cases limiter.upsert time (rows (digest key)) with
        | none => rfl
        | some row => exact Function.update_of_ne (Ne.symm hkey) _ _
      rw [hsame]
      exact hcounted
  | delete deleted time =>
    rw [show (limiter.granted digest rows (.delete deleted time)).toList = [] from rfl,
      List.append_nil]
    by_cases hkey : deleted = keyHash
    · subst hkey
      have hlast : time ≤ now := hnow time (by simp [RowEvent.keyHash, RowEvent.now])
      refine ⟨hrow.1, ?_⟩
      rw [step, Function.update_self]
      exact (hrow.2.delete hwindow).later hlast
    · rw [if_neg (show ¬RowEvent.keyHash digest (.delete deleted time) = keyHash from hkey)] at hnow
      obtain ⟨hspaced, hcounted⟩ := h hpast keyHash now hnow
      refine ⟨hspaced, ?_⟩
      rw [step, Function.update_of_ne (Ne.symm hkey)]
      exact hcounted

theorem kept_run (hwindow : limiter.windowSeconds ≤ 24 * 60 * 60) (events : List (RowEvent κ η)) :
    limiter.Kept digest events (limiter.allowedChecks digest events)
      (run (limiter.step digest) (fun _ => none) events) := by
  apply collect_invariant (H := limiter.Kept digest)
  · intro past log rows e h
    exact kept_step hwindow h e
  · intro _ keyHash now _
    refine ⟨⟨?_, ?_, fun _ => Nat.zero_le _⟩, ?_⟩
    · intro g hg
      exact absurd hg List.not_mem_nil
    · intro g hg
      exact absurd hg List.not_mem_nil
    · intro g hg
      exact absurd hg List.not_mem_nil

/-- The windows of a key do not overlap and have no more allowed checks than the limit. -/
theorem spaced_run [DecidableEq κ] (hwindow : limiter.windowSeconds ≤ 24 * 60 * 60)
    (hordered : Ordered digest events) (key : κ) :
    limiter.Spaced ((limiter.allowedChecks digest events).filter fun g => g.key = key) := by
  obtain ⟨latest, hlatest⟩ := (timesOf digest (digest key) events).toFinset.exists_le
  obtain ⟨hspaced, -⟩ := kept_run hwindow events hordered (digest key) latest fun time htime =>
    hlatest time (List.mem_toFinset.mpr htime)
  refine hspaced.sublist (List.monotone_filter_right _ fun g hg => ?_)
  have hkey : g.key = key := by
    simpa using hg
  exact decide_eq_true (congrArg digest hkey)

/-! With the cleanup and without it. -/

/-- The row with the cleanup and without it: the same, or a deleted one whose window has ended. -/
def Alike (limiter : DatabaseRateLimiter) (now : ℚ) (row row' : Option AuthRateLimit) : Prop :=
  (∀ started ∈ row, started.windowStartedAt ≤ started.updatedAt ∧ started.updatedAt ≤ now) ∧
  (row = row' ∨ row = none ∧
    ∃ old, row' = some old ∧ old.windowStartedAt ≤ now - limiter.windowSeconds)

theorem Alike.later {now next : ℚ} {row row' : Option AuthRateLimit}
    (h : limiter.Alike now row row') (hnext : now ≤ next) : limiter.Alike next row row' := by
  obtain ⟨hstarted, hsame⟩ := h
  refine ⟨fun started hrow => ?_, hsame.imp_right ?_⟩
  · obtain ⟨hle, hupdated⟩ := hstarted started hrow
    exact ⟨hle, hupdated.trans hnext⟩
  · intro hdeleted
    obtain ⟨hnone, old, hold, hended⟩ := hdeleted
    exact ⟨hnone, old, hold, hended.trans (sub_le_sub_right hnext _)⟩

theorem Alike.upsert_eq {now : ℚ} {row row' : Option AuthRateLimit}
    (h : limiter.Alike now row row') : limiter.upsert now row = limiter.upsert now row' := by
  rcases h.2 with hsame | ⟨hnone, old, hold, hended⟩
  · rw [hsame]
  · rw [hnone, hold]
    exact (if_pos hended).symm

theorem Alike.delete (hwindow : limiter.windowSeconds ≤ 24 * 60 * 60) {now : ℚ}
    {row row' : Option AuthRateLimit} (h : limiter.Alike now row row') :
    limiter.Alike now (row.filter fun row => !stale now row) row' := by
  obtain ⟨hstarted, hsame⟩ := h
  cases row with
  | none => exact ⟨hstarted, hsame⟩
  | some started =>
    by_cases hstale : stale now started = true
    · rw [Option.filter_some, if_neg (by simp [hstale])]
      refine ⟨fun _ hrow => absurd hrow (Option.not_mem_none _), .inr ⟨rfl, started, ?_, ?_⟩⟩
      · rcases hsame with hsame | ⟨hnone, -⟩
        · exact hsame.symm
        · cases hnone
      · have hle := (hstarted started rfl).1
        have hlong : (limiter.windowSeconds : ℚ) ≤ 24 * 60 * 60 := by exact_mod_cast hwindow
        have hold : started.updatedAt < now - 24 * 60 * 60 := by
          simpa [stale] using hstale
        linarith
    · rw [Option.filter_some, if_pos (by simp [hstale])]
      exact ⟨hstarted, hsame⟩

/-- Rows that are alike have the same row after a check. -/
theorem Alike.upsert {now : ℚ} {row row' : Option AuthRateLimit} (h : limiter.Alike now row row')
    {after : AuthRateLimit} (hafter : limiter.upsert now row = some after) :
    limiter.Alike now (some after) (some after) := by
  refine ⟨fun started hsame => ?_, .inl rfl⟩
  rw [← Option.some_inj.mp hsame]
  rcases upsert_cases limiter now row with
    ⟨_, -, -, -, hupsert⟩ | ⟨old, hrow, -, hupsert⟩ | ⟨-, hupsert⟩
  · rw [hafter] at hupsert
    cases hupsert
  · rw [hafter] at hupsert
    obtain ⟨hle, hupdated⟩ := h.1 old hrow
    rw [Option.some_inj.mp hupsert]
    exact ⟨hle.trans hupdated, le_rfl⟩
  · rw [hafter] at hupsert
    rw [Option.some_inj.mp hupsert]
    exact ⟨le_rfl, le_rfl⟩

/-- After the same checks every row is alike with the cleanup and without it. -/
def AllAlike (limiter : DatabaseRateLimiter) (digest : κ → η) (past : List (RowEvent κ η))
    (rows rows' : Rows η) : Prop :=
  ∀ keyHash now, (∀ time ∈ timesOf digest keyHash past, time ≤ now) →
    limiter.Alike now (rows keyHash) (rows' keyHash)

theorem AllAlike.check {rows' : Rows η} {key : κ} {now : ℚ}
    (h : limiter.AllAlike digest past rows rows')
    (hlast : ∀ time ∈ timesOf digest (digest key) past, time ≤ now) :
    limiter.outcome digest rows (.check key now) = limiter.outcome digest rows' (.check key now) ∧
    limiter.AllAlike digest (past ++ [.check key now]) (limiter.step digest rows (.check key now))
      (limiter.step digest rows' (.check key now)) := by
  have hrow := h (digest key) now hlast
  have hsame := hrow.upsert_eq
  simp only [outcome, step, DatabaseRateLimiter.check, ← hsame]
  cases hupsert : limiter.upsert now (rows (digest key)) with
  | none =>
    refine ⟨rfl, fun keyHash next hnext => h keyHash next fun time htime => ?_⟩
    apply hnext
    rw [timesOf_snoc]
    split_ifs
    · exact List.mem_append_left _ htime
    · exact htime
  | some after =>
    refine ⟨rfl, fun keyHash next hnext => ?_⟩
    rw [timesOf_snoc] at hnext
    dsimp only
    by_cases hkey : digest key = keyHash
    · subst hkey
      rw [Function.update_self, Function.update_self]
      exact (hrow.upsert hupsert).later (hnext now (by simp [RowEvent.keyHash, RowEvent.now]))
    · rw [if_neg (show ¬RowEvent.keyHash digest (.check key now) = keyHash from hkey)] at hnext
      rw [Function.update_of_ne (Ne.symm hkey), Function.update_of_ne (Ne.symm hkey)]
      exact h keyHash next hnext

theorem AllAlike.delete (hwindow : limiter.windowSeconds ≤ 24 * 60 * 60) {rows' : Rows η}
    {deleted : η} {now : ℚ} (h : limiter.AllAlike digest past rows rows')
    (hlast : ∀ time ∈ timesOf digest deleted past, time ≤ now) :
    limiter.AllAlike digest (past ++ [.delete deleted now])
      (limiter.step digest rows (.delete deleted now)) rows' := by
  intro keyHash next hnext
  rw [timesOf_snoc] at hnext
  by_cases hkey : deleted = keyHash
  · subst hkey
    rw [step, Function.update_self]
    have hnow : now ≤ next := hnext now (by simp [RowEvent.keyHash, RowEvent.now])
    exact ((h deleted now hlast).delete hwindow).later hnow
  · rw [if_neg (show ¬RowEvent.keyHash digest (.delete deleted now) = keyHash from hkey)] at hnext
    rw [step, Function.update_of_ne (Ne.symm hkey)]
    exact h keyHash next hnext

/-- The cleanup changes no result. -/
theorem collect_outcome (hwindow : limiter.windowSeconds ≤ 24 * 60 * 60)
    (past : List (RowEvent κ η)) {rows' : Rows η}
    (h : limiter.AllAlike digest past rows rows') (hordered : Ordered digest (past ++ events)) :
    collect (limiter.step digest) (limiter.outcome digest) rows events =
      collect (limiter.step digest) (limiter.outcome digest) rows'
        (events.filter RowEvent.isCheck) := by
  induction events generalizing past rows rows' with
  | nil => rfl
  | cons e events ih =>
    rw [List.append_cons] at hordered
    have hlast : Ordered digest (past ++ [e]) := by
      intro keyHash
      have hall := hordered keyHash
      unfold timesOf at hall ⊢
      rw [List.filter_append, List.map_append] at hall
      exact (List.pairwise_append.mp hall).1
    cases e with
    | check key now =>
      have hbefore : ∀ time ∈ timesOf digest (digest key) past, time ≤ now := hlast.last.2
      obtain ⟨hsame, hnext⟩ := h.check hbefore
      rw [List.filter_cons_of_pos rfl, collect, collect, hsame, ih _ hnext hordered]
    | delete deleted now =>
      rw [List.filter_cons_of_neg Bool.false_ne_true, collect]
      exact ih _ (h.delete hwindow hlast.last.2) hordered

/-- In every run whose windows are of a day at most, whichever rows the cleanup deletes, each
window of a key has at most `limit` allowed checks and each interval of a window's length twice as
many, and the results are those without the cleanup. -/
theorem database_window_bound [DecidableEq κ] (limiter : DatabaseRateLimiter)
    (hwindow : limiter.windowSeconds ≤ 24 * 60 * 60) (digest : κ → η) (events : List (RowEvent κ η))
    (hordered : Ordered digest events) :
    (∀ key,
      let allowed := (limiter.allowedChecks digest events).filter fun g => g.key = key
      (∀ start, (allowed.filter fun g => g.windowStartedAt = start).length ≤ limiter.limit) ∧
      (∀ x : ℚ, (allowed.filter fun g =>
        x ≤ g.checkedAt && g.checkedAt < x + limiter.windowSeconds).length ≤ 2 * limiter.limit) ∧
      ∀ x : ℚ, (allowed.filter fun g =>
        x < g.checkedAt && g.checkedAt ≤ x + limiter.windowSeconds).length ≤ 2 * limiter.limit) ∧
    limiter.outcomes digest events = limiter.outcomes digest (events.filter RowEvent.isCheck) := by
  constructor
  · intro key
    have hspaced := spaced_run hwindow hordered key
    refine ⟨hspaced.few, fun x => ?_, fun x => ?_⟩
    · apply (hspaced.sublist List.filter_sublist).length_le
      intro g hg g' hg'
      have hin := (List.mem_filter.mp hg).2
      have hin' := (List.mem_filter.mp hg').2
      simp only [Bool.and_eq_true, decide_eq_true_eq] at hin hin'
      linarith
    · apply (hspaced.sublist List.filter_sublist).length_le
      intro g hg g' hg'
      have hin := (List.mem_filter.mp hg).2
      have hin' := (List.mem_filter.mp hg').2
      simp only [Bool.and_eq_true, decide_eq_true_eq] at hin hin'
      linarith
  · refine collect_outcome hwindow [] (fun keyHash now _ => ?_) hordered
    exact ⟨fun _ hrow => absurd hrow (Option.not_mem_none _), .inl rfl⟩

/-- A check a minute. -/
def minuteDatabase : DatabaseRateLimiter := .init 1 60

/-- The row of a key is deleted after a day. -/
def dayOfChecks : List (RowEvent String String) :=
  [.check "alice" 0, .check "alice" (1 / 2), .delete "alice" 86402, .check "alice" 86402]

theorem minuteDatabase_bound :
    (minuteDatabase.outcomes id dayOfChecks).map (fun result => result.2.2) =
      [some ⟨true, 0⟩, some ⟨false, 59⟩, some ⟨true, 0⟩] ∧
    minuteDatabase.outcomes id dayOfChecks =
      minuteDatabase.outcomes id (dayOfChecks.filter RowEvent.isCheck) := by
  have hordered : Ordered id dayOfChecks := by
    intro keyHash
    by_cases hkey : "alice" = keyHash
    · subst hkey
      decide +kernel
    · simp [timesOf, dayOfChecks, RowEvent.keyHash, hkey]
  exact ⟨by decide +kernel,
    (database_window_bound minuteDatabase (by decide) id dayOfChecks hordered).2⟩

end Runs

section Retry
variable (limiter : DatabaseRateLimiter) {κ η : Type} [DecidableEq η] (digest : κ → η)

/-- When the time after which a blocked check may be made again is long enough: when the window of
its row ends in no part of a second more. -/
def RetrySuffices (rows : Rows η) (key : κ) (now : ℚ) : Prop :=
  ∀ row ∈ rows (digest key), ToldInFull (limiter.windowSeconds - (now - row.windowStartedAt))

variable {limiter digest} {rows : Rows η} {key : κ} {now : ℚ} {retry : Int}

/-- A blocked check leaves a row that has counted past the limit. -/
theorem check_blocked (h : (limiter.check digest rows key now).1 = some ⟨false, retry⟩) :
    ∃ started, rows (digest key) = some started ∧ limiter.limit < started.attempts + 1 ∧
      retry = ⌊max 1 (limiter.windowSeconds - (now - started.windowStartedAt))⌋ ∧
      (limiter.check digest rows key now).2 (digest key) =
        some ⟨started.windowStartedAt, started.attempts + 1, now⟩ := by
  unfold check at h ⊢
  rcases upsert_cases limiter now (rows (digest key)) with
    ⟨_, -, -, -, hupsert⟩ | ⟨started, hrow, -, hupsert⟩ | ⟨-, hupsert⟩
  · rw [hupsert] at h
    cases h
  · rw [hupsert] at h ⊢
    have hresult := Option.some_inj.mp h
    by_cases hlimit : started.attempts + 1 ≤ limiter.limit
    · rw [result, if_pos hlimit] at hresult
      cases congrArg RateLimit.allowed hresult
    · rw [result, if_neg hlimit] at hresult
      have hretry := congrArg RateLimit.retryAfterSeconds hresult
      exact ⟨started, hrow, not_le.mp hlimit, hretry.symm, Function.update_self _ _ _⟩
  · rw [hupsert] at h
    have hallowed : (limiter.result now ⟨now, 1, now⟩).allowed = true := by
      rw [result, if_pos limiter.limit_pos]
    rw [Option.some_inj.mp h] at hallowed
    cases hallowed

/-- A row that has counted to the limit lets a check pass when its window has ended. -/
theorem check_after {started : AuthRateLimit} (hrow : rows (digest key) = some started)
    (hlimit : limiter.limit ≤ started.attempts) :
    (limiter.check digest rows key now).1.any RateLimit.allowed = true ↔
      started.windowStartedAt ≤ now - limiter.windowSeconds := by
  unfold check
  rw [hrow, upsert]
  by_cases hended : started.windowStartedAt ≤ now - limiter.windowSeconds
  · have hfirst : 1 ≤ limiter.limit := limiter.limit_pos
    rw [if_pos hended]
    simp [result, hfirst, hended]
  · rw [if_neg hended]
    by_cases hmax : integerMax < started.attempts + 1
    · rw [if_pos hmax]
      simp [hended]
    · have hover : ¬started.attempts + 1 ≤ limiter.limit := by omega
      rw [if_neg hmax]
      simp [result, hover, hended]

theorem retry_iff (h : (limiter.check digest rows key now).1 = some ⟨false, retry⟩) :
    (limiter.check digest (limiter.check digest rows key now).2 key (now + retry)).1.any
      RateLimit.allowed = true ↔ limiter.RetrySuffices digest rows key now := by
  obtain ⟨started, hrow, hlimit, hretry, hafter⟩ := check_blocked h
  rw [check_after hafter hlimit.le]
  have hone : limiter.RetrySuffices digest rows key now ↔
      ToldInFull (limiter.windowSeconds - (now - started.windowStartedAt)) := by
    unfold RetrySuffices
    rw [hrow]
    simp
  rw [hone, ← le_floor_max, ← hretry]
  constructor
  · intro hle
    dsimp only at hle
    linarith
  · intro hle
    dsimp only
    linarith

end Retry

end DatabaseRateLimiter

section Retry
variable {κ η : Type} [DecidableEq κ] [DecidableEq η]

/-- For both limiters and after every run, a blocked check that is made again when it is told to
be, with no other check before it, is allowed when the whole seconds that it has been told are all
that it had to wait, and only then. -/
theorem retry_after_iff (limiter : SlidingWindowRateLimiter) (database : DatabaseRateLimiter)
    (digest : κ → η) :
    (∀ (checks : List (SlidingWindowRateLimiter.Check κ)) (key : κ) (now : ℚ),
      ((checks ++ [(key, now)]).map Prod.snd).Pairwise (· ≤ ·) →
      let attempts := run limiter.step Dict.empty checks
      let blocked := limiter.check key now attempts
      blocked.1.allowed = false →
      ((limiter.check key (now + blocked.1.retryAfterSeconds) blocked.2).1.allowed = true ↔
        limiter.RetrySuffices key now attempts)) ∧
    ∀ (events : List (DatabaseRateLimiter.RowEvent κ η)) (key : κ) (now : ℚ) (retry : Int),
      let rows := run (database.step digest) (fun _ => none) events
      let blocked := database.check digest rows key now
      blocked.1 = some ⟨false, retry⟩ →
      ((database.check digest blocked.2 key (now + retry)).1.any RateLimit.allowed = true ↔
        database.RetrySuffices digest rows key now) := by
  constructor
  · intro checks key now hordered
    rw [List.map_append] at hordered
    obtain ⟨hpast, -, hbefore⟩ := List.pairwise_append.mp hordered
    have hkept := SlidingWindowRateLimiter.kept_run limiter checks
    have hcomplete := hkept.complete hpast now fun e he =>
      hbefore e.2 (List.mem_map_of_mem he) now (by simp)
    exact SlidingWindowRateLimiter.retry_iff hkept.room (hcomplete key)
  · intro events key now retry
    exact DatabaseRateLimiter.retry_iff

/-- A second check half a second after the first is told to come back after 59 seconds, and is
blocked again. -/
theorem retry_after_cut_short :
    (let limiter := SlidingWindowRateLimiter.init 1 60 100
    let attempts := run limiter.step Dict.empty [("alice", 0)]
    let blocked := limiter.check "alice" (1 / 2) attempts
    blocked.1 = ⟨false, 59⟩ ∧
      (limiter.check "alice" (1 / 2 + 59) blocked.2).1 = ⟨false, 1⟩) ∧
    (let limiter := DatabaseRateLimiter.minuteDatabase
    let rows := run (limiter.step id) (fun _ => none) [.check "alice" 0]
    let blocked := limiter.check id rows "alice" (1 / 2)
    blocked.1 = some ⟨false, 59⟩ ∧
      (limiter.check id blocked.2 "alice" (1 / 2 + 59)).1 = some ⟨false, 1⟩) := by
  decide +kernel

/-- A second check a whole second after the first is allowed when it is told to be. -/
theorem retry_after_whole :
    let limiter := SlidingWindowRateLimiter.init 1 60 100
    let attempts := run limiter.step Dict.empty [("alice", 0)]
    let blocked := limiter.check "alice" 1 attempts
    (limiter.check "alice" (1 + blocked.1.retryAfterSeconds) blocked.2).1.allowed = true := by
  have hwhole : (SlidingWindowRateLimiter.init 1 60 100).RetrySuffices "alice" 1
      (run (SlidingWindowRateLimiter.init 1 60 100).step Dict.empty [("alice", 0)]) := by
    rw [SlidingWindowRateLimiter.RetrySuffices, if_neg (by decide +kernel)]
    decide +kernel
  exact ((retry_after_iff (.init 1 60 100) DatabaseRateLimiter.minuteDatabase id).1
    [("alice", 0)] "alice" 1 (by decide +kernel) (by decide +kernel)).mpr hwhole

end Retry

end Bantam
