import Bantam.Lib.Containers
import Bantam.Lib.Runs
import Mathlib.Algebra.Order.Floor.Ring
import Mathlib.Data.Finset.Dedup
import Mathlib.Data.Finset.Order
import Mathlib.Data.List.TakeWhile
import Mathlib.Data.Rat.Floor
import Mathlib.Tactic.Linarith

/-! The limiter of checks that keeps the times of the checks it has allowed. -/
namespace Bantam
open Runs

/-- `RateLimit` -/
structure RateLimit where
  allowed : Bool
  retryAfterSeconds : Int
deriving DecidableEq, Repr

/-- Whether a time to wait is told in full where only its whole seconds are. -/
def ToldInFull (wait : ℚ) : Prop := wait ≤ 1 ∨ (⌊wait⌋ : ℚ) = wait

instance (wait : ℚ) : Decidable (ToldInFull wait) := inferInstanceAs (Decidable (_ ∨ _))

theorem le_floor_max {wait : ℚ} : wait ≤ (⌊max 1 wait⌋ : ℚ) ↔ ToldInFull wait := by
  unfold ToldInFull
  by_cases hshort : wait ≤ 1
  · rw [max_eq_left hshort, Int.floor_one, Int.cast_one]
    exact ⟨.inl, fun _ => hshort⟩
  · rw [max_eq_right (le_of_not_ge hshort)]
    constructor
    · intro h
      exact .inr (le_antisymm (Int.floor_le wait) h)
    · intro h
      exact (h.resolve_left hshort).ge

theorem one_le_limit (limit : Int) : 1 ≤ (max 1 limit).toNat := by omega

/-- `SlidingWindowRateLimiter`, without what it has stored. -/
structure SlidingWindowRateLimiter where
  limit : Nat
  windowSeconds : ℚ
  maxKeys : Nat
  limit_pos : 1 ≤ limit
  window_pos : 1 ≤ windowSeconds
  maxKeys_pos : 100 ≤ maxKeys

namespace SlidingWindowRateLimiter

/-- `__init__` -/
def init (limit : Int) (window : ℚ) (maxKeys : Int) : SlidingWindowRateLimiter where
  limit := (max 1 limit).toNat
  windowSeconds := max 1 window
  maxKeys := (max 100 maxKeys).toNat
  limit_pos := one_le_limit limit
  window_pos := le_max_left 1 window
  maxKeys_pos := by omega

variable {κ : Type} [DecidableEq κ] (limiter : SlidingWindowRateLimiter)

/-- The times at which checks of each key were allowed. -/
abbrev Attempts (κ : Type) := Dict κ (List ℚ)

def Attempts.stored (attempts : Attempts κ) (key : κ) : List ℚ := (attempts.get? key).getD []

/-- Up to when a time is outside the window. -/
def cutoff (current : ℚ) : ℚ := current - limiter.windowSeconds

/-- `_prune` -/
def prune (current : ℚ) (attempts : Attempts κ) : Attempts κ :=
  attempts.filter fun item => item.2.getLast?.any fun last => limiter.cutoff current < last

/-- Whether the limiter has no room for another key, and the key is one. -/
def full (key : κ) (attempts : Attempts κ) : Bool :=
  decide (limiter.maxKeys ≤ attempts.items.length) && !attempts.contains key

/-- The attempts of a key that are not expired. -/
def kept (key : κ) (current : ℚ) (attempts : Attempts κ) : List ℚ :=
  (Attempts.stored attempts key).dropWhile fun time => time ≤ limiter.cutoff current

/-- How long it is until the first of the attempts expires. -/
def wait (current : ℚ) (attempts : List ℚ) : ℚ :=
  limiter.windowSeconds - (current - attempts.headD current)

/-- `check`, once there is room for the key. -/
def checkKey (key : κ) (current : ℚ) (attempts : Attempts κ) : RateLimit × Attempts κ :=
  let kept := limiter.kept key current attempts
  if limiter.limit ≤ kept.length
  then (⟨false, ⌊max 1 (limiter.wait current kept)⌋⟩, attempts.set key kept)
  else (⟨true, 0⟩, attempts.set key (kept ++ [current]))

/-- `check` -/
def check (key : κ) (current : ℚ) (attempts : Attempts κ) : RateLimit × Attempts κ :=
  if limiter.full key attempts then
    let attempts := limiter.prune current attempts
    if limiter.maxKeys ≤ attempts.items.length then (⟨false, ⌊limiter.windowSeconds⌋⟩, attempts)
    else limiter.checkKey key current attempts
  else limiter.checkKey key current attempts

/-- A check of a key at a time. -/
abbrev Check (κ : Type) := κ × ℚ

def step (attempts : Attempts κ) (e : Check κ) : Attempts κ := (limiter.check e.1 e.2 attempts).2

/-- The check, if it is allowed. -/
def allowed (attempts : Attempts κ) (e : Check κ) : Option (Check κ) :=
  if (limiter.check e.1 e.2 attempts).1.allowed then some e else none

/-- The checks of a run that are allowed. -/
def allowedChecks (checks : List (Check κ)) : List (Check κ) :=
  collect limiter.step limiter.allowed Dict.empty checks

/-- The times of the checks of a key. -/
def timesOf (key : κ) (log : List (Check κ)) : List ℚ :=
  (log.filter fun e => e.1 = key).map Prod.snd

/-- What is stored of the allowed checks of a key: all that are in the window, and no more of them
than the limit, as is true of every window. -/
structure Remembered (now : ℚ) (allowed stored : List ℚ) : Prop where
  ordered : allowed.Pairwise (· ≤ ·)
  past : ∀ t ∈ allowed, t ≤ now
  forgotten : ∃ old, allowed = old ++ stored ∧ ∀ t ∈ old, t ≤ limiter.cutoff now
  few : stored.length ≤ limiter.limit
  sparse : ∀ x, (allowed.filter fun t => limiter.cutoff x < t && t ≤ x).length ≤ limiter.limit

section Remembered
variable {limiter} {now next : ℚ} {allowed stored : List ℚ}

variable (limiter) in
theorem cutoff_le (h : now ≤ next) : limiter.cutoff now ≤ limiter.cutoff next :=
  sub_le_sub_right h _

theorem Remembered.stored_ordered (h : limiter.Remembered now allowed stored) :
    stored.Pairwise (· ≤ ·) := by
  obtain ⟨old, hold, -⟩ := h.forgotten
  have hordered := h.ordered
  rw [hold] at hordered
  exact (List.pairwise_append.mp hordered).2.1

theorem Remembered.later (h : limiter.Remembered now allowed stored) (hnext : now ≤ next) :
    limiter.Remembered next allowed stored where
  ordered := h.ordered
  past := fun t ht => (h.past t ht).trans hnext
  forgotten := by
    obtain ⟨old, hold, hpast⟩ := h.forgotten
    exact ⟨old, hold, fun t ht => (hpast t ht).trans (cutoff_le limiter hnext)⟩
  few := h.few
  sparse := h.sparse

/-- Attempts that are outside the window may be dropped from the front. -/
theorem Remembered.drop (h : limiter.Remembered now allowed stored) {gone rest : List ℚ}
    (hsplit : stored = gone ++ rest) (hgone : ∀ t ∈ gone, t ≤ limiter.cutoff now) :
    limiter.Remembered now allowed rest where
  ordered := h.ordered
  past := h.past
  forgotten := by
    obtain ⟨old, hold, hpast⟩ := h.forgotten
    refine ⟨old ++ gone, by rw [hold, hsplit, List.append_assoc], ?_⟩
    intro t ht
    rcases List.mem_append.mp ht with ht | ht
    · exact hpast t ht
    · exact hgone t ht
  few := by
    have hfew := h.few
    rw [hsplit, List.length_append] at hfew
    omega
  sparse := h.sparse

theorem Remembered.expire (h : limiter.Remembered now allowed stored) :
    limiter.Remembered now allowed (stored.dropWhile fun t => t ≤ limiter.cutoff now) := by
  refine h.drop List.takeWhile_append_dropWhile.symm fun t ht => ?_
  simpa using List.mem_takeWhile_imp ht

/-- After the expired ones only attempts in the window are left. -/
theorem Remembered.fresh (h : limiter.Remembered now allowed stored) :
    ∀ t ∈ stored.dropWhile fun t => t ≤ limiter.cutoff now, limiter.cutoff now < t := by
  have hordered := h.expire.stored_ordered
  cases hkept : stored.dropWhile fun t => t ≤ limiter.cutoff now with
  | nil => simp
  | cons first rest =>
    have hfirst : limiter.cutoff now < first := by
      have hnot := List.head?_dropWhile_not (fun t => decide (t ≤ limiter.cutoff now)) stored
      rw [hkept] at hnot
      simpa using hnot
    rw [hkept] at hordered
    intro t ht
    rcases List.mem_cons.mp ht with rfl | ht
    · exact hfirst
    · exact hfirst.trans_le ((List.pairwise_cons.mp hordered).1 t ht)

/-- A check is allowed where fewer attempts than the limit are in the window. -/
theorem Remembered.append (h : limiter.Remembered now allowed stored)
    (hlen : stored.length < limiter.limit) :
    limiter.Remembered now (allowed ++ [now]) (stored ++ [now]) where
  ordered := by
    refine List.pairwise_append.mpr ⟨h.ordered, List.pairwise_singleton _ _, ?_⟩
    intro t ht u hu
    rw [List.mem_singleton.mp hu]
    exact h.past t ht
  past := by
    intro t ht
    rcases List.mem_append.mp ht with ht | ht
    · exact h.past t ht
    · exact (List.mem_singleton.mp ht).le
  forgotten := by
    obtain ⟨old, hold, hpast⟩ := h.forgotten
    exact ⟨old, by rw [hold, List.append_assoc], hpast⟩
  few := by
    rw [List.length_append, List.length_singleton]
    omega
  sparse := by
    intro x
    rw [List.filter_append, List.length_append]
    by_cases hx : now ≤ x
    · -- what the window up to `x` holds of the past, the window up to now holds
      obtain ⟨old, hold, hpast⟩ := h.forgotten
      have hcut : limiter.cutoff now ≤ limiter.cutoff x := cutoff_le limiter hx
      have hnone : (old.filter fun t => limiter.cutoff x < t && t ≤ x) = [] := by
        rw [List.filter_eq_nil_iff]
        intro t ht
        have hle := (hpast t ht).trans hcut
        simp [not_lt.mpr hle]
      have hstored : (allowed.filter fun t => limiter.cutoff x < t && t ≤ x).length ≤
          stored.length := by
        rw [hold, List.filter_append, hnone, List.nil_append]
        exact List.length_filter_le _ _
      have hone : ([now].filter fun t => limiter.cutoff x < t && t ≤ x).length ≤ 1 :=
        List.length_filter_le _ _
      omega
    · have hnone : ([now].filter fun t => limiter.cutoff x < t && t ≤ x) = [] := by
        simp [hx]
      rw [hnone, List.length_nil, Nat.add_zero]
      exact h.sparse x

/-- What is in the window is stored. -/
theorem Remembered.window (h : limiter.Remembered now allowed stored) (hnext : now ≤ next) :
    allowed.filter (fun t => limiter.cutoff next < t) =
      stored.filter fun t => limiter.cutoff next < t := by
  obtain ⟨old, hold, hpast⟩ := h.forgotten
  have hnone : old.filter (fun t => limiter.cutoff next < t) = [] := by
    rw [List.filter_eq_nil_iff]
    intro t ht
    have hle := (hpast t ht).trans (cutoff_le limiter hnext)
    simpa using hle
  rw [hold, List.filter_append, hnone, List.nil_append]

end Remembered

section Steps
variable {limiter} {now : ℚ} {key k : κ} {attempts : Attempts κ} {log : List (Check κ)}

theorem stored_set (v : List ℚ) :
    Attempts.stored (attempts.set key v) k = if k = key then v else Attempts.stored attempts k := by
  unfold Attempts.stored
  rw [Dict.get?_set]
  split_ifs with hk
  · rfl
  · rfl

theorem timesOf_snoc (e : Check κ) :
    timesOf k (log ++ [e]) = if e.1 = k then timesOf k log ++ [e.2] else timesOf k log := by
  unfold timesOf
  split_ifs with hk
  · simp [hk]
  · simp [hk]

/-- All of a pruned key's attempts are outside the window. -/
theorem Remembered.pruned {allowed : List ℚ}
    (h : limiter.Remembered now allowed (Attempts.stored attempts k)) :
    limiter.Remembered now allowed (Attempts.stored (limiter.prune now attempts) k) := by
  unfold Attempts.stored prune at *
  rw [Dict.get?_filter]
  cases hget : attempts.get? k with
  | none =>
    rw [hget] at h
    exact h
  | some times =>
    rw [hget] at h
    change limiter.Remembered now allowed times at h
    rw [Option.filter_some]
    split_ifs with hfresh
    · exact h
    · refine h.drop (List.append_nil times).symm fun t ht => ?_
      obtain ⟨last, hlast⟩ := List.getLast?_isSome.mpr (List.ne_nil_of_mem ht) |> Option.isSome_iff_exists.mp
      have hold : last ≤ limiter.cutoff now := by
        simpa [hlast] using hfresh
      obtain ⟨front, rfl⟩ := List.getLast?_eq_some_iff.mp hlast
      rcases List.mem_append.mp ht with ht | ht
      · have hle := (List.pairwise_append.mp h.stored_ordered).2.2 t ht last (by simp)
        exact hle.trans hold
      · exact (List.mem_singleton.mp ht).trans_le hold

/-- Every key's attempts in the window are stored. -/
def Complete (now : ℚ) (log : List (Check κ)) (attempts : Attempts κ) : Prop :=
  ∀ k, limiter.Remembered now (timesOf k log) (Attempts.stored attempts k)

theorem checkKey_complete (h : limiter.Complete now log attempts) :
    limiter.Complete now
      (log ++ (if (limiter.checkKey key now attempts).1.allowed then some (key, now) else none).toList)
      (limiter.checkKey key now attempts).2 := by
  intro k
  unfold checkKey
  dsimp only
  by_cases hfull : limiter.limit ≤ (limiter.kept key now attempts).length
  · rw [if_pos hfull, if_neg Bool.false_ne_true, Option.toList_none, List.append_nil, stored_set]
    by_cases hk : k = key
    · rw [if_pos hk, hk]
      exact (h key).expire
    · rw [if_neg hk]
      exact h k
  · rw [if_neg hfull, if_pos rfl, Option.toList_some, timesOf_snoc, stored_set]
    by_cases hk : k = key
    · subst hk
      rw [if_pos rfl, if_pos rfl]
      exact (h k).expire.append (not_le.mp hfull)
    · rw [if_neg (Ne.symm hk), if_neg hk]
      exact h k

theorem check_complete (h : limiter.Complete now log attempts) :
    limiter.Complete now (log ++ (limiter.allowed attempts (key, now)).toList)
      (limiter.step attempts (key, now)) := by
  have hprune : limiter.Complete now log (limiter.prune now attempts) := fun k => (h k).pruned
  unfold allowed step check
  dsimp only
  by_cases hfull : limiter.full key attempts
  · rw [if_pos hfull]
    by_cases hsaturated : limiter.maxKeys ≤ (limiter.prune now attempts).items.length
    · rw [if_pos hsaturated, if_neg Bool.false_ne_true, Option.toList_none, List.append_nil]
      exact hprune
    · rw [if_neg hsaturated]
      exact checkKey_complete hprune
  · rw [if_neg hfull]
    exact checkKey_complete h

/-- Room for the key is room for what is stored of it. -/
theorem length_set_le (hroom : attempts.items.length ≤ limiter.maxKeys)
    (h : ¬limiter.full key attempts) (v : List ℚ) :
    (attempts.set key v).items.length ≤ limiter.maxKeys := by
  by_cases hkey : key ∈ attempts.keys
  · have hlen := congrArg List.length (Dict.keys_set_of_mem (v := v) hkey)
    rw [Dict.length_keys, Dict.length_keys] at hlen
    rw [hlen]
    exact hroom
  · have hfree : attempts.items.length < limiter.maxKeys := by
      simpa [full, Dict.contains, hkey] using h
    rw [Dict.items_set_of_notMem hkey, List.length_append, List.length_singleton]
    omega

theorem checkKey_room (hroom : attempts.items.length ≤ limiter.maxKeys)
    (h : ¬limiter.full key attempts) :
    (limiter.checkKey key now attempts).2.items.length ≤ limiter.maxKeys := by
  unfold checkKey
  dsimp only
  by_cases hfull : limiter.limit ≤ (limiter.kept key now attempts).length
  · rw [if_pos hfull]
    exact length_set_le hroom h _
  · rw [if_neg hfull]
    exact length_set_le hroom h _

omit [DecidableEq κ] in
theorem length_prune_le : (limiter.prune now attempts).items.length ≤ attempts.items.length :=
  List.length_filter_le _ _

theorem check_room (hroom : attempts.items.length ≤ limiter.maxKeys) :
    (limiter.check key now attempts).2.items.length ≤ limiter.maxKeys := by
  unfold check
  dsimp only
  by_cases hfull : limiter.full key attempts
  · rw [if_pos hfull]
    by_cases hsaturated : limiter.maxKeys ≤ (limiter.prune now attempts).items.length
    · rw [if_pos hsaturated]
      exact length_prune_le.trans hroom
    · rw [if_neg hsaturated]
      refine checkKey_room (length_prune_le.trans hroom) ?_
      simp [full, hsaturated]
  · rw [if_neg hfull]
    exact checkKey_room hroom hfull

end Steps

/-- What holds of the checks so far, of those that were allowed and of what is stored. -/
structure Kept (past log : List (Check κ)) (attempts : Attempts κ) : Prop where
  room : attempts.items.length ≤ limiter.maxKeys
  complete : (past.map Prod.snd).Pairwise (· ≤ ·) →
    ∀ now, (∀ e ∈ past, e.2 ≤ now) → limiter.Complete now log attempts

section Runs
variable {limiter} {past log checks : List (Check κ)} {attempts : Attempts κ}

theorem kept_step (h : limiter.Kept past log attempts) (e : Check κ) :
    limiter.Kept (past ++ [e]) (log ++ (limiter.allowed attempts e).toList)
      (limiter.step attempts e) where
  room := check_room h.room
  complete := by
    intro hordered now hnow
    rw [List.map_append] at hordered
    obtain ⟨hpast, -, hbefore⟩ := List.pairwise_append.mp hordered
    have he : limiter.Complete e.2 log attempts := by
      apply h.complete hpast
      intro e' he'
      exact hbefore e'.2 (List.mem_map_of_mem he') e.2 (by simp)
    intro k
    exact (check_complete he k).later (hnow e (by simp))

theorem kept_empty : limiter.Kept ([] : List (Check κ)) [] Dict.empty where
  room := Nat.zero_le _
  complete := by
    intro _ now _ k
    exact {
      ordered := List.Pairwise.nil
      past := fun t ht => absurd ht List.not_mem_nil
      forgotten := ⟨[], rfl, fun t ht => absurd ht List.not_mem_nil⟩
      few := Nat.zero_le _
      sparse := fun x => Nat.zero_le _ }

variable (limiter) in
theorem kept_run (checks : List (Check κ)) :
    limiter.Kept checks (limiter.allowedChecks checks) (run limiter.step Dict.empty checks) :=
  collect_invariant (H := limiter.Kept) (fun _ _ _ e h => kept_step h e) kept_empty checks

variable (limiter) in
/-- After every run of checks that do not go back in time there are at most `max_keys` keys, each
with at most `limit` attempts in the order of their times. No window has more than `limit` allowed
checks of a key, wherever it ends, and all that are in the window are stored. -/
theorem sliding_window_bound (checks : List (Check κ))
    (hordered : (checks.map Prod.snd).Pairwise (· ≤ ·)) :
    (run limiter.step Dict.empty checks).items.length ≤ limiter.maxKeys ∧
    ∀ key,
      let stored := Attempts.stored (run limiter.step Dict.empty checks) key
      let allowed := timesOf key (limiter.allowedChecks checks)
      stored.Pairwise (· ≤ ·) ∧ stored.length ≤ limiter.limit ∧
      (∀ x, (allowed.filter fun t => x - limiter.windowSeconds < t && t ≤ x).length ≤
        limiter.limit) ∧
      ∀ now, (∀ e ∈ checks, e.2 ≤ now) →
        allowed.filter (fun t => now - limiter.windowSeconds < t) =
          stored.filter fun t => now - limiter.windowSeconds < t := by
  have hkept := kept_run limiter checks
  refine ⟨hkept.room, fun key => ?_⟩
  obtain ⟨latest, hlatest⟩ := (checks.map Prod.snd).toFinset.exists_le
  have hremembered : limiter.Remembered latest (timesOf key (limiter.allowedChecks checks))
      (Attempts.stored (run limiter.step Dict.empty checks) key) := by
    apply hkept.complete hordered
    intro e he
    exact hlatest e.2 (List.mem_toFinset.mpr (List.mem_map_of_mem he))
  refine ⟨hremembered.stored_ordered, hremembered.few, hremembered.sparse, fun now hnow => ?_⟩
  exact (hkept.complete hordered now hnow key).window le_rfl

/-- With a limit of one check a minute the second and the third check do not both pass. -/
theorem sliding_window_bound_minute :
    let limiter := init 1 60 100
    let checks := [("alice", 0), ("alice", 30), ("bob", 45), ("alice", 60)]
    limiter.allowedChecks checks = [("alice", 0), ("bob", 45), ("alice", 60)] ∧
    (Attempts.stored (run limiter.step Dict.empty checks) "alice").length ≤ 1 := by
  refine ⟨by decide +kernel, ?_⟩
  exact ((sliding_window_bound (init 1 60 100)
    [("alice", 0), ("alice", 30), ("bob", 45), ("alice", 60)] (by decide +kernel)).2 "alice").2.1

end Runs

/-- The key is a new one and there is no room for it. -/
def Saturated (key : κ) (current : ℚ) (attempts : Attempts κ) : Prop :=
  limiter.full key attempts ∧ limiter.maxKeys ≤ (limiter.prune current attempts).items.length

instance (key : κ) (current : ℚ) (attempts : Attempts κ) :
    Decidable (limiter.Saturated key current attempts) :=
  inferInstanceAs (Decidable (_ ∧ _))

/-- When the time after which a blocked check may be made again is long enough: for a new key when
by then one of the others has no attempt in the window, else when the first attempt of the key in
the window expires in no part of a second more. -/
def RetrySuffices (key : κ) (current : ℚ) (attempts : Attempts κ) : Prop :=
  if limiter.Saturated key current attempts then
    ∃ item ∈ attempts.items, ∃ last ∈ item.2.getLast?,
      last ≤ current + ⌊limiter.windowSeconds⌋ - limiter.windowSeconds
  else ToldInFull (limiter.wait current (limiter.kept key current attempts))

section Retry
variable {limiter} {now : ℚ} {key : κ} {attempts : Attempts κ}

/-- A full list of attempts has room again when the first of them has expired. -/
theorem room_again {first next : ℚ} {rest : List ℚ} (hfull : (first :: rest).length = limiter.limit) :
    ((first :: rest).dropWhile fun t => t ≤ limiter.cutoff next).length < limiter.limit ↔
      first ≤ limiter.cutoff next := by
  by_cases hfirst : first ≤ limiter.cutoff next
  · rw [List.dropWhile_cons_of_pos (by simpa using hfirst)]
    have hle := (List.dropWhile_sublist (fun t => decide (t ≤ limiter.cutoff next)) (l := rest)).length_le
    rw [List.length_cons] at hfull
    exact iff_of_true (by omega) hfirst
  · rw [List.dropWhile_cons_of_neg (by simpa using hfirst)]
    exact iff_of_false (by omega) hfirst

theorem checkKey_allowed : (limiter.checkKey key now attempts).1.allowed = true ↔
    (limiter.kept key now attempts).length < limiter.limit := by
  unfold checkKey
  dsimp only
  by_cases hfull : limiter.limit ≤ (limiter.kept key now attempts).length
  · rw [if_pos hfull]
    exact iff_of_false Bool.false_ne_true (not_lt.mpr hfull)
  · rw [if_neg hfull]
    exact iff_of_true rfl (not_le.mp hfull)

theorem kept_of_new (h : attempts.contains key = false) : limiter.kept key now attempts = [] := by
  unfold kept Attempts.stored
  have hnone : attempts.get? key = none := by
    rw [Option.eq_none_iff_forall_not_mem]
    intro v hv
    have hkey : key ∈ attempts.keys := Dict.mem_keys_iff.mpr ⟨v, hv⟩
    simp [Dict.contains, hkey] at h
  rw [hnone]
  rfl

theorem contains_set (v : List ℚ) : (attempts.set key v).contains key = true :=
  decide_eq_true (Dict.mem_keys_set.mpr (.inr rfl))

theorem check_of_contains (h : attempts.contains key = true) :
    limiter.check key now attempts = limiter.checkKey key now attempts := by
  unfold check full
  simp [h]

/-- A key that is blocked at its limit is allowed again when its first attempt has expired. -/
theorem retry_checkKey {allowed : List ℚ}
    (h : limiter.Remembered now allowed (Attempts.stored attempts key))
    (hblocked : (limiter.checkKey key now attempts).1.allowed = false) :
    (limiter.check key (now + (limiter.checkKey key now attempts).1.retryAfterSeconds)
      (limiter.checkKey key now attempts).2).1.allowed = true ↔
      ToldInFull (limiter.wait now (limiter.kept key now attempts)) := by
  have hfull : limiter.limit ≤ (limiter.kept key now attempts).length := by
    by_contra hroom
    have htrue := checkKey_allowed.mpr (not_le.mp hroom)
    rw [hblocked] at htrue
    exact Bool.false_ne_true htrue
  have hblock : limiter.checkKey key now attempts =
      (⟨false, ⌊max 1 (limiter.wait now (limiter.kept key now attempts))⌋⟩,
        attempts.set key (limiter.kept key now attempts)) := if_pos hfull
  rw [hblock]
  dsimp only
  rw [check_of_contains (contains_set _), checkKey_allowed, ← le_floor_max]
  have hlen : (limiter.kept key now attempts).length = limiter.limit := le_antisymm h.expire.few hfull
  cases hkept : limiter.kept key now attempts with
  | nil =>
    rw [hkept] at hlen
    have hpos := limiter.limit_pos
    rw [← hlen] at hpos
    exact absurd hpos (Nat.not_succ_le_zero 0)
  | cons first rest =>
    rw [hkept] at hlen
    rw [kept, stored_set, if_pos rfl, room_again hlen]
    unfold wait cutoff
    rw [List.headD_cons]
    constructor
    · intro hle
      linarith
    · intro hle
      linarith

variable (now) in
theorem check_of_full (h : limiter.full key attempts = true) :
    (limiter.check key now attempts).1.allowed = true ↔
      (limiter.prune now attempts).items.length < limiter.maxKeys := by
  unfold check
  rw [if_pos h]
  dsimp only
  by_cases hsaturated : limiter.maxKeys ≤ (limiter.prune now attempts).items.length
  · rw [if_pos hsaturated]
    exact iff_of_false Bool.false_ne_true (not_lt.mpr hsaturated)
  · have hnew : attempts.contains key = false := by
      simp only [full, Bool.and_eq_true, Bool.not_eq_true'] at h
      exact h.2
    have hpruned : (limiter.prune now attempts).contains key = false := by
      rw [Dict.contains, decide_eq_false_iff_not] at hnew ⊢
      intro hkey
      exact hnew ((List.filter_sublist.map Prod.fst).subset hkey)
    rw [if_neg hsaturated, checkKey_allowed, kept_of_new hpruned]
    exact iff_of_true limiter.limit_pos (not_le.mp hsaturated)

/-- A new key that is blocked for the number of keys is allowed when one of them is pruned. -/
theorem retry_saturated (hroom : attempts.items.length ≤ limiter.maxKeys)
    (h : limiter.Saturated key now attempts) :
    (limiter.check key (now + (limiter.check key now attempts).1.retryAfterSeconds)
      (limiter.check key now attempts).2).1.allowed = true ↔
      ∃ item ∈ attempts.items, ∃ last ∈ item.2.getLast?,
        last ≤ now + ⌊limiter.windowSeconds⌋ - limiter.windowSeconds := by
  obtain ⟨hfull, hsaturated⟩ := h
  have hall : ∀ item ∈ attempts.items,
      item.2.getLast?.any (fun last => limiter.cutoff now < last) = true := by
    have hlen := le_antisymm length_prune_le (hroom.trans hsaturated)
    exact List.length_filter_eq_length_iff.mp hlen
  have hsame : limiter.prune now attempts = attempts :=
    Dict.eq_of_items (List.filter_eq_self.mpr hall)
  have hblock : limiter.check key now attempts = (⟨false, ⌊limiter.windowSeconds⌋⟩, attempts) := by
    unfold check
    rw [if_pos hfull]
    dsimp only
    rw [if_pos hsaturated, hsame]
  rw [hblock]
  dsimp only
  have hcount : limiter.maxKeys = attempts.items.length :=
    le_antisymm (hsaturated.trans length_prune_le) hroom
  rw [check_of_full _ hfull, hcount, prune, Dict.filter, List.length_filter_lt_length_iff_exists]
  constructor
  · intro h
    obtain ⟨item, hitem, hpruned⟩ := h
    have hfresh := hall item hitem
    cases hlast : item.2.getLast? with
    | none =>
      rw [hlast] at hfresh
      cases hfresh
    | some last =>
      refine ⟨item, hitem, last, hlast, ?_⟩
      rw [hlast, Option.any_some, decide_eq_true_eq] at hpruned
      exact not_lt.mp hpruned
  · intro h
    obtain ⟨item, hitem, last, hlast, hle⟩ := h
    refine ⟨item, hitem, ?_⟩
    rw [Option.mem_def.mp hlast, Option.any_some, decide_eq_true_eq]
    exact not_lt.mpr hle

/-- A blocked check made again when it is told to be: whether it is allowed. -/
theorem retry_iff (hroom : attempts.items.length ≤ limiter.maxKeys) {allowed : List ℚ}
    (h : limiter.Remembered now allowed (Attempts.stored attempts key))
    (hblocked : (limiter.check key now attempts).1.allowed = false) :
    (limiter.check key (now + (limiter.check key now attempts).1.retryAfterSeconds)
      (limiter.check key now attempts).2).1.allowed = true ↔
      limiter.RetrySuffices key now attempts := by
  unfold RetrySuffices
  by_cases hsaturated : limiter.Saturated key now attempts
  · rw [if_pos hsaturated]
    exact retry_saturated hroom hsaturated
  · rw [if_neg hsaturated]
    have hknown : limiter.full key attempts ≠ true := by
      intro hfull
      have hfree := not_le.mp fun hle => hsaturated ⟨hfull, hle⟩
      have htrue := (check_of_full now hfull).mpr hfree
      rw [hblocked] at htrue
      exact Bool.false_ne_true htrue
    have hcheck : limiter.check key now attempts = limiter.checkKey key now attempts := if_neg hknown
    rw [hcheck] at hblocked ⊢
    exact retry_checkKey h hblocked

end Retry

end SlidingWindowRateLimiter

end Bantam
