import Mathlib.Data.List.Dedup
import Mathlib.Data.List.Forall2
import Mathlib.Data.List.Perm.Basic
import Mathlib.Logic.Function.Iterate
import Mathlib.Tactic.Common

/-! The dictionaries and the sets of Python, and lists mapped by a function that may fail. -/

/-- A dictionary: its items in the order in which their keys were first stored. -/
structure Dict (κ ν : Type*) where
  items : List (κ × ν)
  distinct : (items.map Prod.fst).Nodup

namespace Dict
variable {κ ν : Type*} [DecidableEq κ] {d : Dict κ ν} {k : κ} {v : ν} {l : List (κ × ν)}

def keys (d : Dict κ ν) : List κ := d.items.map Prod.fst

def contains (d : Dict κ ν) (k : κ) : Bool := k ∈ d.keys

def get? (d : Dict κ ν) (k : κ) : Option ν :=
  (d.items.find? fun item => item.1 = k).map Prod.snd

/-- `d == e`: the same items in any order. -/
def same [DecidableEq ν] (d e : Dict κ ν) : Bool :=
  d.items.all (· ∈ e.items) && e.items.all (· ∈ d.items)

/-- Where an item of the key exists its value is replaced at its place. -/
def setItems (items : List (κ × ν)) (k : κ) (v : ν) : List (κ × ν) :=
  if k ∈ items.map Prod.fst
  then items.map fun item => if item.1 = k then (k, v) else item
  else items ++ [(k, v)]

theorem map_fst_replace (l : List (κ × ν)) (k : κ) (v : ν) :
    (l.map fun item => if item.1 = k then (k, v) else item).map Prod.fst = l.map Prod.fst := by
  rw [List.map_map]
  refine List.map_congr_left fun item _ => ?_
  by_cases hi : item.1 = k
  · simp [hi]
  · simp [hi]

theorem distinct_setItems (h : (l.map Prod.fst).Nodup) (k : κ) (v : ν) :
    ((setItems l k v).map Prod.fst).Nodup := by
  unfold setItems
  by_cases hk : k ∈ l.map Prod.fst
  · rw [if_pos hk, map_fst_replace]
    exact h
  · rw [if_neg hk, List.map_append, List.nodup_append]
    refine ⟨h, List.nodup_singleton k, fun a ha b hb => ?_⟩
    obtain rfl := List.mem_singleton.mp hb
    exact fun hab => hk (hab ▸ ha)

/-- `d[k] = v` -/
def set (d : Dict κ ν) (k : κ) (v : ν) : Dict κ ν :=
  ⟨setItems d.items k v, distinct_setItems d.distinct k v⟩

/-- The items that satisfy `p`. -/
def filter (p : κ × ν → Bool) (d : Dict κ ν) : Dict κ ν :=
  ⟨d.items.filter p, d.distinct.sublist (List.filter_sublist.map Prod.fst)⟩

def empty : Dict κ ν := ⟨[], List.nodup_nil⟩

/-- `{k: v for k, v in l}` -/
def ofList (l : List (κ × ν)) : Dict κ ν := l.foldl (fun d item => d.set item.1 item.2) empty

theorem items_set_of_notMem (hk : k ∉ d.keys) : (d.set k v).items = d.items ++ [(k, v)] :=
  if_neg hk

theorem keys_set_of_mem (hk : k ∈ d.keys) : (d.set k v).keys = d.keys := by
  show (setItems d.items k v).map Prod.fst = d.items.map Prod.fst
  unfold setItems
  rw [if_pos (show k ∈ d.items.map Prod.fst from hk), map_fst_replace]

theorem mem_keys_set {k' : κ} : k' ∈ (d.set k v).keys ↔ k' ∈ d.keys ∨ k' = k := by
  by_cases hk : k ∈ d.keys
  · rw [keys_set_of_mem hk]
    exact ⟨.inl, fun h => h.elim id fun he => he ▸ hk⟩
  · simp [keys, items_set_of_notMem hk]

omit [DecidableEq κ] in
theorem length_keys : d.keys.length = d.items.length := List.length_map _

omit [DecidableEq κ] in
theorem eq_of_items {e : Dict κ ν} (h : d.items = e.items) : d = e := by
  cases d
  cases e
  cases h
  rfl

theorem get?_eq_some : d.get? k = some v ↔ (k, v) ∈ d.items := by
  unfold get?
  rw [Option.map_eq_some_iff]
  constructor
  · rintro ⟨⟨k', v'⟩, hfind, rfl⟩
    have hmem := List.mem_of_find?_eq_some hfind
    have hkey := List.find?_some hfind
    simp only [decide_eq_true_eq] at hkey
    exact hkey ▸ hmem
  · intro hmem
    have hsome : (d.items.find? fun item => item.1 = k).isSome :=
      List.find?_isSome.mpr ⟨(k, v), hmem, by simp⟩
    obtain ⟨item, hfind⟩ := Option.isSome_iff_exists.mp hsome
    have hkey := List.find?_some hfind
    simp only [decide_eq_true_eq] at hkey
    have hsame : item = (k, v) :=
      List.inj_on_of_nodup_map d.distinct (List.mem_of_find?_eq_some hfind) hmem hkey
    exact ⟨item, hfind, by rw [hsame]⟩

theorem mem_keys_iff : k ∈ d.keys ↔ ∃ v, d.get? k = some v := by
  constructor
  · intro h
    obtain ⟨⟨_, v⟩, hitem, rfl⟩ := List.mem_map.mp h
    exact ⟨v, get?_eq_some.mpr hitem⟩
  · rintro ⟨v, h⟩
    exact List.mem_map.mpr ⟨_, get?_eq_some.mp h, rfl⟩

theorem get?_filter (p : κ × ν → Bool) (k : κ) :
    (d.filter p).get? k = (d.get? k).filter fun v => p (k, v) := by
  ext v
  rw [get?_eq_some, Option.filter_eq_some_iff, get?_eq_some]
  exact List.mem_filter

theorem get?_set (k' : κ) : (d.set k v).get? k' = if k' = k then some v else d.get? k' := by
  have hitems : ∀ w, (k', w) ∈ (d.set k v).items ↔
      if k' = k then w = v else (k', w) ∈ d.items := by
    intro w
    show (k', w) ∈ setItems d.items k v ↔ _
    unfold setItems
    by_cases hsame : k' = k
    · subst hsame
      rw [if_pos rfl]
      split_ifs with hold
      · constructor
        · intro h
          obtain ⟨item, _, heq⟩ := List.mem_map.mp h
          split_ifs at heq with hkey
          · exact (congrArg Prod.snd heq).symm
          · exact absurd (congrArg Prod.fst heq) hkey
        · rintro rfl
          obtain ⟨item, hitem, hkey⟩ := List.mem_map.mp hold
          exact List.mem_map.mpr ⟨item, hitem, if_pos hkey⟩
      · rw [List.mem_append, List.mem_singleton, Prod.mk.injEq]
        constructor
        · intro h
          exact h.elim (fun hin => absurd (List.mem_map_of_mem hin) hold) And.right
        · exact fun h => .inr ⟨rfl, h⟩
    · rw [if_neg hsame]
      split_ifs with hold
      · constructor
        · intro h
          obtain ⟨item, hitem, heq⟩ := List.mem_map.mp h
          split_ifs at heq with hkey
          · exact absurd (congrArg Prod.fst heq).symm hsame
          · exact heq ▸ hitem
        · intro h
          exact List.mem_map.mpr ⟨_, h, if_neg hsame⟩
      · rw [List.mem_append, List.mem_singleton, Prod.mk.injEq]
        exact ⟨fun h => h.elim id fun hnew => absurd hnew.1 hsame, .inl⟩
  ext w
  rw [get?_eq_some, hitems]
  split_ifs
  · exact eq_comm.trans (Option.some_inj.symm)
  · exact get?_eq_some.symm

/-- Stored under distinct keys, every item stays as it is. -/
theorem foldl_set_items (hd : (d.keys ++ l.map Prod.fst).Nodup) :
    (l.foldl (fun d item => d.set item.1 item.2) d).items = d.items ++ l := by
  induction l generalizing d with
  | nil => simp
  | cons item l ih =>
    obtain ⟨hkeys, hrest, hapart⟩ := List.nodup_append.mp hd
    have hnew : item.1 ∉ d.keys := fun h => hapart _ h _ List.mem_cons_self rfl
    have hitems := items_set_of_notMem (v := item.2) hnew
    rw [List.foldl_cons, ih, hitems, List.append_assoc]
    · rfl
    · have : (d.set item.1 item.2).keys = d.keys ++ [item.1] := by
        simp [keys, hitems]
      rw [this, List.append_assoc]
      exact hd

theorem items_ofList (h : (l.map Prod.fst).Nodup) : (ofList l).items = l := by
  have := foldl_set_items (d := (empty : Dict κ ν)) (l := l) (by simpa [keys, empty] using h)
  simpa [ofList, empty] using this

theorem mem_keys_foldl_set {k : κ} :
    k ∈ (l.foldl (fun d item => d.set item.1 item.2) d).keys ↔ k ∈ d.keys ∨ k ∈ l.map Prod.fst := by
  induction l generalizing d with
  | nil => simp
  | cons item l ih => rw [List.foldl_cons, ih, mem_keys_set, List.map_cons, List.mem_cons, or_assoc]

theorem mem_keys_ofList : k ∈ (ofList l).keys ↔ k ∈ l.map Prod.fst := by
  unfold ofList
  rw [mem_keys_foldl_set]
  simp [empty, keys]

theorem mem_setItems {item : κ × ν} {items : List (κ × ν)} (h : item ∈ setItems items k v) :
    item ∈ items ∨ item = (k, v) := by
  unfold setItems at h
  split_ifs at h
  · obtain ⟨old, hold, rfl⟩ := List.mem_map.mp h
    split_ifs
    · exact .inr rfl
    · exact .inl hold
  · exact (List.mem_append.mp h).imp_right List.mem_singleton.mp

theorem mem_foldl_set {item : κ × ν}
    (h : item ∈ (l.foldl (fun d item => d.set item.1 item.2) d).items) :
    item ∈ d.items ∨ item ∈ l := by
  induction l generalizing d with
  | nil => exact .inl h
  | cons first l ih =>
    cases ih h with
    | inl hset =>
      cases mem_setItems hset with
      | inl hold => exact .inl hold
      | inr hfirst => exact .inr (hfirst ▸ List.mem_cons_self)
    | inr hrest => exact .inr (List.mem_cons_of_mem first hrest)

/-- Also when keys repeat, the items of the dictionary are ones of the list. -/
theorem mem_ofList {item : κ × ν} (h : item ∈ (ofList l).items) : item ∈ l := by
  cases mem_foldl_set h with
  | inl hnone => cases hnone
  | inr hmem => exact hmem

theorem get?_foldl_set (k : κ) : (l.foldl (fun d item => d.set item.1 item.2) d).get? k =
    ((l.filter fun item => decide (item.1 = k)).getLast?.map Prod.snd).or (d.get? k) := by
  induction l generalizing d with
  | nil => rfl
  | cons item l ih =>
    rw [List.foldl_cons, ih, get?_set]
    by_cases hk : item.1 = k
    · rw [List.filter_cons_of_pos (by simpa using hk), if_pos hk.symm, List.getLast?_cons]
      cases (l.filter fun item => decide (item.1 = k)).getLast? with
      | none => rfl
      | some last => rfl
    · rw [List.filter_cons_of_neg (by simpa using hk), if_neg fun h => hk h.symm]

/-- What is stored last under a key stays. -/
theorem get?_ofList (k : κ) : (ofList l).get? k =
    (l.filter fun item => decide (item.1 = k)).getLast?.map Prod.snd := by
  rw [ofList, get?_foldl_set]
  exact Option.or_none

theorem setItems_map {μ : Type*} (f : ν → μ) (items : List (κ × ν)) (k : κ) (v : ν) :
    setItems (items.map (Prod.map id f)) k (f v) = (setItems items k v).map (Prod.map id f) := by
  have hkeys : (items.map (Prod.map id f)).map Prod.fst = items.map Prod.fst := by
    rw [List.map_map]
    rfl
  unfold setItems
  rw [hkeys]
  split_ifs
  · rw [List.map_map, List.map_map]
    refine List.map_congr_left fun item _ => ?_
    by_cases hi : item.1 = k
    · simp [hi]
    · simp [hi]
  · rw [List.map_append]
    rfl

theorem foldl_set_map {μ : Type*} (f : ν → μ) {e : Dict κ μ}
    (h : e.items = d.items.map (Prod.map id f)) :
    ((l.map (Prod.map id f)).foldl (fun d item => d.set item.1 item.2) e).items =
      (l.foldl (fun d item => d.set item.1 item.2) d).items.map (Prod.map id f) := by
  induction l generalizing d e with
  | nil => exact h
  | cons item l ih =>
    refine ih ?_
    show setItems e.items item.1 (f item.2) = _
    rw [h, setItems_map]
    rfl

/-- Mapped values are looked up like the values, and mapped. -/
theorem get?_ofList_map {μ : Type*} (f : ν → μ) (l : List (κ × ν)) (k : κ) :
    (ofList (l.map (Prod.map id f))).get? k = ((ofList l).get? k).map f := by
  unfold get?
  rw [ofList, foldl_set_map f (d := empty) rfl, List.find?_map, Option.map_map, Option.map_map]
  rfl

/-- A present key's value is changed in its place, as where a mutable value is looked up. -/
def modify (d : Dict κ ν) (k : κ) (f : ν → ν) : Dict κ ν :=
  match d.get? k with
  | none => d
  | some v => d.set k (f v)

theorem items_modify (d : Dict κ ν) (k : κ) (f : ν → ν) :
    (d.modify k f).items =
      d.items.map fun item => if item.1 = k then (item.1, f item.2) else item := by
  unfold modify
  cases hget : d.get? k with
  | none =>
    have hnone : ∀ item ∈ d.items, item.1 ≠ k := by
      rintro ⟨k', v⟩ hitem rfl
      have := get?_eq_some.mpr hitem
      rw [hget] at this
      cases this
    rw [List.map_congr_left fun item hitem => if_neg (hnone item hitem)]
    exact (List.map_id _).symm
  | some v =>
    have hmem := get?_eq_some.mp hget
    have hkey : k ∈ d.items.map Prod.fst := List.mem_map_of_mem hmem
    show setItems d.items k (f v) = _
    rw [setItems, if_pos hkey]
    refine List.map_congr_left fun item hitem => ?_
    by_cases hk : item.1 = k
    · have hsame : item = (k, v) := List.inj_on_of_nodup_map d.distinct hitem hmem hk
      rw [if_pos hk, if_pos hk, hsame]
    · rw [if_neg hk, if_neg hk]

/-- Along a list of keys each value is changed as often as its key is listed. -/
theorem items_foldl_modify (ks : List κ) (f : ν → ν) (d : Dict κ ν) :
    (ks.foldl (fun d k => d.modify k f) d).items =
      d.items.map fun item => (item.1, f^[ks.count item.1] item.2) := by
  induction ks generalizing d with
  | nil => simp
  | cons k ks ih =>
    rw [List.foldl_cons, ih, items_modify, List.map_map]
    refine List.map_congr_left fun item _ => ?_
    by_cases hk : item.1 = k
    · simp [hk]
    · have hne : k ≠ item.1 := fun h => hk h.symm
      simp [hk, List.count_cons_of_ne hne]

/-- `len` of a dictionary built from items counts them when no key repeats, and only then. -/
theorem length_ofList : (ofList l).items.length = l.length ↔ (l.map Prod.fst).Nodup := by
  constructor
  · intro h
    have hsub : (ofList l).keys.Subperm (l.map Prod.fst) :=
      List.subperm_of_subset (ofList l).distinct fun k hk => mem_keys_ofList.mp hk
    have hlen : (l.map Prod.fst).length ≤ (ofList l).keys.length :=
      Nat.le_of_eq (by rw [length_keys, h, List.length_map])
    exact (hsub.perm_of_length_le hlen).nodup_iff.mp (ofList l).distinct
  · intro h
    rw [items_ofList h]

end Dict

/-- The order in which Python iterates over a set built from a list: any order of its
elements, each once. -/
structure SetOrder (α : Type*) [DecidableEq α] where
  elems : List α → List α
  perm : ∀ l, (elems l).Perm l.dedup

namespace SetOrder
variable {α : Type*} [DecidableEq α] (order : SetOrder α) {l : List α}

theorem mem_elems {a : α} : a ∈ order.elems l ↔ a ∈ l :=
  (order.perm l).mem_iff.trans List.mem_dedup

theorem nodup_elems : (order.elems l).Nodup := (order.perm l).nodup_iff.mpr (List.nodup_dedup l)

theorem length_elems : (order.elems l).length = l.length ↔ l.Nodup := by
  rw [(order.perm l).length_eq]
  exact ⟨fun h => List.dedup_eq_self.mp ((List.dedup_sublist l).eq_of_length h),
    fun h => by rw [List.dedup_eq_self.mpr h]⟩

end SetOrder

/-! Lists that are related item for item. -/

namespace Related
variable {α β : Type} {R : α → β → Prop} {l : List α} {m : List β}

theorem exists_of_forall (h : ∀ a ∈ l, ∃ b, R a b) : ∃ m, List.Forall₂ R l m := by
  induction l with
  | nil => exact ⟨[], .nil⟩
  | cons a rest ih =>
    obtain ⟨b, hb⟩ := h a List.mem_cons_self
    obtain ⟨m, hm⟩ := ih fun c hc => h c (List.mem_cons_of_mem a hc)
    exact ⟨b :: m, .cons hb hm⟩

theorem exists_of_mem (h : List.Forall₂ R l m) {b : β} (hb : b ∈ m) : ∃ a ∈ l, R a b := by
  induction h with
  | nil => exact absurd hb List.not_mem_nil
  | cons hhead _ ih =>
    cases List.mem_cons.mp hb with
    | inl hsame => exact ⟨_, List.mem_cons_self, hsame ▸ hhead⟩
    | inr hlater =>
      obtain ⟨a, ha, hab⟩ := ih hlater
      exact ⟨a, List.mem_cons_of_mem _ ha, hab⟩

theorem getElem?_rel (h : List.Forall₂ R l m) (i : Nat) : Option.Rel R l[i]? m[i]? := by
  induction h generalizing i with
  | nil => exact .none
  | cons hhead _ ih =>
    cases i with
    | zero => exact .some hhead
    | succ i => exact ih i

end Related

/-! Lists mapped by a function that may fail. -/

namespace Fallible
variable {ε α β : Type} {f : α → Except ε β} {a : α} {l : List α}

theorem mapM_ok {g : α → β} (h : ∀ a ∈ l, f a = .ok (g a)) : l.mapM f = .ok (l.map g) := by
  induction l with
  | nil => rfl
  | cons a l ih =>
    have hl := ih fun x hx => h x (List.mem_cons_of_mem a hx)
    rw [List.mapM_cons, h a List.mem_cons_self, hl]
    rfl

theorem mapM_cons_ok {r : List β} (h : (a :: l).mapM f = .ok r) :
    ∃ b bs, f a = .ok b ∧ l.mapM f = .ok bs ∧ r = b :: bs := by
  rw [List.mapM_cons] at h
  cases hb : f a with
  | error e =>
    rw [hb] at h
    cases h
  | ok b =>
    cases hbs : l.mapM f with
    | error e =>
      rw [hb, hbs] at h
      cases h
    | ok bs =>
      rw [hb, hbs] at h
      cases h
      exact ⟨b, bs, rfl, rfl, rfl⟩

theorem mapM_eq_ok {r : List β} : l.mapM f = .ok r ↔ List.Forall₂ (fun a b => f a = .ok b) l r := by
  constructor
  · intro h
    induction l generalizing r with
    | nil =>
      cases h
      exact .nil
    | cons a l ih =>
      obtain ⟨b, bs, hb, hbs, rfl⟩ := mapM_cons_ok h
      exact .cons hb (ih hbs)
  · intro h
    induction h with
    | nil => rfl
    | cons hhead _ ih =>
      rw [List.mapM_cons, hhead, ih]
      rfl

theorem mem_mapM_ok {r : List β} (h : l.mapM f = .ok r) {b : β} (hb : b ∈ r) :
    ∃ a ∈ l, f a = .ok b := by
  have hall := mapM_eq_ok.mp h
  exact Related.exists_of_mem hall hb

theorem exists_mapM_ok : (∃ r, l.mapM f = .ok r) ↔ ∀ a ∈ l, ∃ b, f a = .ok b := by
  constructor
  · rintro ⟨r, h⟩ a ha
    induction l generalizing r with
    | nil => exact absurd ha List.not_mem_nil
    | cons first l ih =>
      obtain ⟨b, bs, hb, hbs, -⟩ := mapM_cons_ok h
      cases List.mem_cons.mp ha with
      | inl hsame => exact ⟨b, hsame ▸ hb⟩
      | inr hlater => exact ih bs hbs hlater
  · intro h
    obtain ⟨r, hr⟩ := Related.exists_of_forall h
    exact ⟨r, mapM_eq_ok.mpr hr⟩

theorem mapM_map {γ : Type} {g : α → Except ε γ} {c : β → γ} (h : ∀ a, g a = (f a).map c) :
    l.mapM g = (l.mapM f).map (List.map c) := by
  induction l with
  | nil => rfl
  | cons a l ih =>
    rw [List.mapM_cons, List.mapM_cons, ih, h]
    cases f a with
    | error e => rfl
    | ok b =>
      cases l.mapM f with
      | error e => rfl
      | ok bs => rfl

theorem mapM_eq_none {f : α → Option β} : l.mapM f = none ↔ ∃ a ∈ l, f a = none := by
  induction l with
  | nil => simp
  | cons a l ih =>
    rw [List.mapM_cons]
    cases ha : f a with
    | none => simp [ha]
    | some b =>
      cases hl : l.mapM f with
      | none => simpa [ha, hl] using ih
      | some bs =>
        rw [hl] at ih
        simpa [ha] using ih

theorem mem_mapM_some {f : α → Option β} {r : List β} (h : l.mapM f = some r) {b : β} (hb : b ∈ r) :
    ∃ a ∈ l, f a = some b := by
  induction l generalizing r with
  | nil =>
    cases h
    exact absurd hb List.not_mem_nil
  | cons a l ih =>
    rw [List.mapM_cons] at h
    obtain ⟨first, hfirst, h⟩ := Option.bind_eq_some_iff.mp h
    obtain ⟨rest, hrest, h⟩ := Option.bind_eq_some_iff.mp h
    cases h
    cases List.mem_cons.mp hb with
    | inl hsame => exact ⟨a, List.mem_cons_self, hsame ▸ hfirst⟩
    | inr hlater =>
      obtain ⟨a', ha', hb'⟩ := ih hrest hlater
      exact ⟨a', List.mem_cons_of_mem a ha', hb'⟩

end Fallible
