import Mathlib.Algebra.BigOperators.Group.List.Basic
import Mathlib.Algebra.Group.Basic
import Mathlib.Data.List.Induction
import Mathlib.Data.List.Nodup
import Mathlib.Tactic.Abel

/-!
# Insertion-ordered dictionaries

A dictionary in the sense of a scripting language: keys are unique, iteration
follows insertion order, and assigning to a present key keeps its place. Code
that scans `d.values()` for the first match depends on that order, so the
carrier is an association list; uniqueness of the keys is a field of the
structure, so a dictionary with a repeated key cannot be built.

- `Dict.get?`, `Dict.set`: lookup and assignment, with the usual read-over-write
  laws (`get?_set_self`, `get?_set_of_ne`).
- `Dict.find?`: the first entry whose value satisfies a test, in insertion
  order; `find?_set` says how it moves under an assignment that the test cannot
  see.
- `Dict.sum`: a sum over the entries; `sum_set` is the one fact every
  conservation argument needs: an assignment replaces one summand.
-/

namespace TraderStack.Lib

universe u v w

variable {κ : Type u} {ν : Type v}

/-! ## Association lists -/

namespace Assoc

variable [DecidableEq κ]

/-- The value stored under `k`. -/
def get (k : κ) : List (κ × ν) → Option ν
  | [] => none
  | (k', v) :: rest => if k' = k then some v else get k rest

/-- Assignment: overwrite in place when `k` is present, append otherwise. -/
def set (k : κ) (v : ν) : List (κ × ν) → List (κ × ν)
  | [] => [(k, v)]
  | (k', v') :: rest => if k' = k then (k, v) :: rest else (k', v') :: set k v rest

theorem get_set_self (k : κ) (v : ν) : ∀ l : List (κ × ν), get k (set k v l) = some v
  | [] => by simp [set, get]
  | (k', v') :: rest => by
    by_cases h : k' = k
    · simp [set, get, h]
    · simp [set, get, h, get_set_self k v rest]

theorem get_set_of_ne {k j : κ} (h : j ≠ k) (v : ν) :
    ∀ l : List (κ × ν), get j (set k v l) = get j l
  | [] => by simp [set, get, h.symm]
  | (k', v') :: rest => by
    by_cases hk : k' = k
    · subst hk
      simp [set, get, h.symm]
    · simp only [set, if_neg hk, get, get_set_of_ne h v rest]

theorem mem_of_get {k : κ} {v : ν} : ∀ {l : List (κ × ν)}, get k l = some v → (k, v) ∈ l
  | (k', v') :: rest, h => by
    by_cases hk : k' = k
    · subst hk
      simp only [get, if_true, Option.some.injEq] at h
      simp [h]
    · rw [get, if_neg hk] at h
      exact List.mem_cons_of_mem _ (mem_of_get h)

theorem get_of_mem {k : κ} {v : ν} :
    ∀ {l : List (κ × ν)}, (l.map Prod.fst).Nodup → (k, v) ∈ l → get k l = some v
  | (k', v') :: rest, hnd, h => by
    rw [List.map_cons, List.nodup_cons] at hnd
    rcases List.mem_cons.mp h with heq | hmem
    · cases heq
      simp [get]
    · have hne : k' ≠ k := by
        rintro rfl
        exact hnd.1 (List.mem_map.mpr ⟨(k', v), hmem, rfl⟩)
      rw [get, if_neg hne]
      exact get_of_mem hnd.2 hmem

theorem get_eq_none_iff {k : κ} : ∀ {l : List (κ × ν)}, get k l = none ↔ k ∉ l.map Prod.fst
  | [] => by simp [get]
  | (k', v') :: rest => by
    by_cases hk : k' = k
    · simp [get, hk]
    · rw [get, if_neg hk, get_eq_none_iff, List.map_cons, List.mem_cons, not_or]
      exact ⟨fun h => ⟨fun e => hk e.symm, h⟩, fun h => h.2⟩

theorem keys_set (k : κ) (v : ν) :
    ∀ l : List (κ × ν), (set k v l).map Prod.fst
      = if k ∈ l.map Prod.fst then l.map Prod.fst else l.map Prod.fst ++ [k]
  | [] => by simp [set]
  | (k', v') :: rest => by
    by_cases hk : k' = k
    · subst hk
      simp [set]
    · have ih := keys_set k v rest
      have hk' : k ≠ k' := fun e => hk e.symm
      by_cases hm : k ∈ rest.map Prod.fst
      · rw [if_pos hm] at ih
        have hmem : k ∈ ((k', v') :: rest).map Prod.fst := List.mem_cons_of_mem _ hm
        rw [set, if_neg hk, if_pos hmem, List.map_cons, ih]
        rfl
      · rw [if_neg hm] at ih
        have hn : k ∉ ((k', v') :: rest).map Prod.fst := by
          rw [List.map_cons, List.mem_cons]
          exact fun h => h.elim hk' hm
        rw [set, if_neg hk, if_neg hn, List.map_cons, ih]
        rfl

theorem nodup_set (k : κ) (v : ν) {l : List (κ × ν)} (h : (l.map Prod.fst).Nodup) :
    ((set k v l).map Prod.fst).Nodup := by
  rw [keys_set]
  split
  · exact h
  · rename_i hk
    rw [List.nodup_append]
    refine ⟨h, List.nodup_singleton k, ?_⟩
    rintro a ha b hb rfl
    rw [List.mem_singleton] at hb
    exact hk (hb ▸ ha)

theorem set_set (k : κ) (v v' : ν) :
    ∀ l : List (κ × ν), set k v' (set k v l) = set k v' l
  | [] => by simp [set]
  | (k', w) :: rest => by
    by_cases hk : k' = k
    · simp [set, hk]
    · simp only [set, if_neg hk, set_set k v v' rest]

/-- A fresh key is appended. -/
theorem set_of_fresh {k : κ} (v : ν) :
    ∀ {l : List (κ × ν)}, k ∉ l.map Prod.fst → set k v l = l ++ [(k, v)]
  | [], _ => rfl
  | (k', w) :: rest, h => by
    rw [List.map_cons, List.mem_cons, not_or] at h
    have hk : k' ≠ k := fun e => h.1 e.symm
    rw [set, if_neg hk, set_of_fresh v h.2]
    rfl

/-- The entries of some keys after an assignment. -/
theorem filter_set (p : κ → Bool) (k : κ) (v : ν) :
    ∀ l : List (κ × ν), (set k v l).filter (fun e => p e.1) =
      if p k then set k v (l.filter fun e => p e.1) else l.filter fun e => p e.1
  | [] => by by_cases hp : p k <;> simp [set, hp]
  | (k', w) :: rest => by
    by_cases hk : k' = k
    · subst hk
      by_cases hp : p k' <;> simp [set, hp]
    · have ih := filter_set p k v rest
      by_cases hp : p k <;> by_cases hp' : p k' <;> simp_all [set]

/-- An assignment replaces one summand of a sum over the entries. -/
theorem sum_set {M : Type w} [AddCommGroup M] (g : κ → ν → M) (k : κ) (v : ν) :
    ∀ l : List (κ × ν), (l.map Prod.fst).Nodup →
      ((set k v l).map fun e => g e.1 e.2).sum
        = (l.map fun e => g e.1 e.2).sum - (get k l).elim 0 (g k) + g k v
  | [], _ => by simp [set, get]
  | (k', v') :: rest, hnd => by
    rw [List.map_cons, List.nodup_cons] at hnd
    by_cases hk : k' = k
    · subst hk
      simp only [set, get, if_true, List.map_cons, List.sum_cons, Option.elim_some]
      abel
    · have ih := sum_set g k v rest hnd.2
      simp only [set, get, if_neg hk, List.map_cons, List.sum_cons, ih]
      abel

/-- An erasure takes one summand away. -/
theorem sum_erase {M : Type w} [AddCommGroup M] (g : κ → ν → M) (k : κ) :
    ∀ {l : List (κ × ν)}, (l.map Prod.fst).Nodup →
      ((l.filter fun e => e.1 ≠ k).map fun e => g e.1 e.2).sum =
        (l.map fun e => g e.1 e.2).sum - (get k l).elim 0 (g k)
  | [], _ => by simp [get]
  | e :: rest, hnd => by
    obtain ⟨hfresh, hrest⟩ := List.nodup_cons.mp hnd
    rw [get]
    by_cases h : e.1 = k
    · have hkeep : rest.filter (fun e => e.1 ≠ k) = rest := by
        refine List.filter_eq_self.mpr fun e' he' => ?_
        have hne : e'.1 ≠ k := fun hk => hfresh (by
          rw [h, ← hk]
          exact List.mem_map_of_mem he')
        simpa using hne
      rw [List.filter_cons_of_neg (by simpa using h), hkeep, if_pos h, List.map_cons, List.sum_cons,
        Option.elim_some, h]
      exact (add_sub_cancel_left _ _).symm
    · rw [List.filter_cons_of_pos (by simpa using h), if_neg h, List.map_cons, List.sum_cons,
        List.map_cons, List.sum_cons, sum_erase g k hrest, add_sub_assoc]

/-- Changing the summand at one key. -/
theorem sum_update {M : Type w} [AddCommGroup M] {g g' : κ → ν → M} {k : κ}
    (hg : ∀ j v, j ≠ k → g' j v = g j v) :
    ∀ {l : List (κ × ν)}, (l.map Prod.fst).Nodup →
      (l.map fun e => g' e.1 e.2).sum
        = (l.map fun e => g e.1 e.2).sum - (get k l).elim 0 (g k) + (get k l).elim 0 (g' k)
  | [], _ => by simp [get]
  | (k', v') :: rest, hnd => by
    rw [List.map_cons, List.nodup_cons] at hnd
    have ih := sum_update hg hnd.2
    by_cases hk : k' = k
    · subst hk
      have hrest : get k' rest = none := get_eq_none_iff.mpr hnd.1
      rw [hrest] at ih
      simp only [List.map_cons, List.sum_cons, ih, get, if_true, Option.elim_some,
        Option.elim_none]
      abel
    · simp only [List.map_cons, List.sum_cons, ih, get, if_neg hk, hg k' v' hk]
      abel

theorem set_of_get {k : κ} {v : ν} :
    ∀ {l : List (κ × ν)}, get k l = some v → set k v l = l
  | (k', v') :: rest, h => by
    by_cases hk : k' = k
    · simp only [get, hk, if_true, Option.some.injEq] at h
      simp [set, hk, h]
    · simp only [get, if_neg hk] at h
      simp only [set, if_neg hk, set_of_get h]

/-- An assignment the test `p` cannot see moves the first match only in its
value. -/
theorem find?_set {p : ν → Bool} {k : κ} {v v₀ : ν} (hp : p v = p v₀) :
    ∀ {l : List (κ × ν)}, (l.map Prod.fst).Nodup → get k l = some v₀ →
      (set k v l).find? (fun e => p e.2)
        = (l.find? fun e => p e.2).map fun e => if e.1 = k then (k, v) else e
  | (k', v') :: rest, hnd, h => by
    rw [List.map_cons, List.nodup_cons] at hnd
    by_cases hk : k' = k
    · subst hk
      simp only [get, if_true, Option.some.injEq] at h
      subst h
      simp only [set, if_true, List.find?_cons]
      by_cases hpv : p v' = true
      · simp [hp, hpv]
      · have hpf : p v' = false := by simpa using hpv
        simp only [hp, hpf]
        -- the remaining entries have other keys, so the map changes nothing
        cases hf : rest.find? fun e => p e.2 with
        | none => rfl
        | some e =>
          have he : e.1 ≠ k' := by
            rintro rfl
            exact hnd.1 (List.mem_map.mpr ⟨e, List.mem_of_find?_eq_some hf, rfl⟩)
          simp [he]
    · rw [get, if_neg hk] at h
      have ih := find?_set hp hnd.2 h
      simp only [set, if_neg hk, List.find?_cons]
      by_cases hpv : p v' = true
      · simp [hpv, hk]
      · have hpf : p v' = false := by simpa using hpv
        simp only [hpf]
        exact ih

/-- A fresh entry is the last one to match. -/
theorem find?_set_of_fresh (p : ν → Bool) {k : κ} (v : ν) {l : List (κ × ν)}
    (h : get k l = none) :
    (set k v l).find? (fun e => p e.2)
      = (l.find? fun e => p e.2).or (if p v then some (k, v) else none) := by
  rw [set_of_fresh v (get_eq_none_iff.mp h), List.find?_append]
  congr 1
  by_cases hp : p v = true <;> simp [hp]

end Assoc

/-! ## Dictionaries -/

/-- An insertion-ordered dictionary. -/
structure Dict (κ : Type u) (ν : Type v) where
  entries : List (κ × ν)
  nodup : (entries.map Prod.fst).Nodup
deriving DecidableEq

namespace Dict

/-- The empty dictionary. -/
def empty : Dict κ ν := ⟨[], List.nodup_nil⟩

/-- The keys, in insertion order. -/
def keys (d : Dict κ ν) : List κ := d.entries.map Prod.fst

/-- The values, in insertion order. -/
def values (d : Dict κ ν) : List ν := d.entries.map Prod.snd

/-- A dict comprehension `{k: f(k, v) for k, v in d.items()}`. -/
def map {ν' : Type w} (f : κ → ν → ν') (d : Dict κ ν) : Dict κ ν' where
  entries := d.entries.map fun e => (e.1, f e.1 e.2)
  nodup := by
    rw [List.map_map]
    exact d.nodup

/-- A dict comprehension with a condition on the value. -/
def filter (p : ν → Bool) (d : Dict κ ν) : Dict κ ν where
  entries := d.entries.filter fun e => p e.2
  nodup := d.nodup.sublist (List.filter_sublist.map _)

/-- The sum of `g key value` over the entries. -/
def sum {M : Type w} [AddCommMonoid M] (d : Dict κ ν) (g : κ → ν → M) : M :=
  (d.entries.map fun e => g e.1 e.2).sum

/-- The first entry, in insertion order, whose value passes the test. -/
def find? (d : Dict κ ν) (p : ν → Bool) : Option (κ × ν) :=
  d.entries.find? fun e => p e.2

@[simp] theorem sum_empty {M : Type w} [AddCommMonoid M] (g : κ → ν → M) :
    (empty : Dict κ ν).sum g = 0 := rfl

theorem sum_add {M : Type w} [AddCommMonoid M] (d : Dict κ ν) (g g' : κ → ν → M) :
    (d.sum fun k v => g k v + g' k v) = d.sum g + d.sum g' :=
  List.sum_map_add

theorem sum_map {ν' : Type w} {M : Type w} [AddCommMonoid M] (d : Dict κ ν)
    (f : κ → ν → ν') (g : κ → ν' → M) : (d.map f).sum g = d.sum fun k v => g k (f k v) := by
  simp [sum, map, Function.comp_def]

variable [DecidableEq κ]

/-- `d.get(k)`. -/
def get? (d : Dict κ ν) (k : κ) : Option ν := Assoc.get k d.entries

/-- `d[k] = v`. -/
def set (d : Dict κ ν) (k : κ) (v : ν) : Dict κ ν :=
  ⟨Assoc.set k v d.entries, Assoc.nodup_set k v d.nodup⟩

/-- `del d[k]`. -/
def erase (d : Dict κ ν) (k : κ) : Dict κ ν where
  entries := d.entries.filter fun e => e.1 ≠ k
  nodup := d.nodup.sublist (List.filter_sublist.map _)

/-- `d.setdefault(k, v)`: the dictionary afterwards. -/
def setDefault (d : Dict κ ν) (k : κ) (v : ν) : Dict κ ν :=
  match d.get? k with
  | some _ => d
  | none => d.set k v

/-- A dict display `{k: v for ...}`: later items win. -/
def ofList (l : List (κ × ν)) : Dict κ ν :=
  l.foldl (fun d e => d.set e.1 e.2) empty

/-- Assigning fresh keys one after the other appends their entries. -/
theorem foldl_set_entries {l : List (κ × ν)} :
    ∀ {d : Dict κ ν}, ((d.entries ++ l).map Prod.fst).Nodup →
      (l.foldl (fun d e => d.set e.1 e.2) d).entries = d.entries ++ l := by
  induction l with
  | nil => intro d _; simp
  | cons e rest ih =>
    intro d hnd
    have hfresh : e.1 ∉ d.entries.map Prod.fst := by
      rw [List.map_append, List.nodup_append] at hnd
      exact fun hmem => hnd.2.2 _ hmem _ (List.mem_cons_self) rfl
    have hset : (d.set e.1 e.2).entries = d.entries ++ [e] := Assoc.set_of_fresh e.2 hfresh
    rw [List.foldl_cons, ih (by rw [hset, List.append_assoc]; exact hnd), hset,
      List.append_assoc]
    rfl

/-- The entries of some keys of a dict display are the display of the items of these keys. -/
theorem filter_ofList (p : κ → Bool) (l : List (κ × ν)) :
    (ofList l).entries.filter (fun e => p e.1) = (ofList (l.filter fun e => p e.1)).entries := by
  induction l using List.reverseRecOn with
  | nil => rfl
  | append_singleton l e ih =>
    have hlast : ∀ l : List (κ × ν), (ofList (l ++ [e])).entries =
        Assoc.set e.1 e.2 (ofList l).entries := by
      intro l
      rw [ofList, List.foldl_append]
      rfl
    rw [hlast, Assoc.filter_set, ih, List.filter_append]
    by_cases hp : p e.1
    · have hone : [e].filter (fun e => p e.1) = [e] := by simp [hp]
      rw [if_pos hp, hone, hlast]
    · have hnone : [e].filter (fun e => p e.1) = [] := by simp [hp]
      rw [if_neg hp, hnone, List.append_nil]

@[simp] theorem get?_empty (k : κ) : (empty : Dict κ ν).get? k = none := rfl

@[simp] theorem get?_set_self (d : Dict κ ν) (k : κ) (v : ν) : (d.set k v).get? k = some v :=
  Assoc.get_set_self k v d.entries

theorem get?_set_of_ne (d : Dict κ ν) {k j : κ} (h : j ≠ k) (v : ν) :
    (d.set k v).get? j = d.get? j :=
  Assoc.get_set_of_ne h v d.entries

theorem get?_set (d : Dict κ ν) (k j : κ) (v : ν) :
    (d.set k v).get? j = if j = k then some v else d.get? j := by
  split
  · rename_i h
    subst h
    exact d.get?_set_self j v
  · rename_i h
    exact d.get?_set_of_ne h v

theorem mem_entries_iff {d : Dict κ ν} {k : κ} {v : ν} :
    (k, v) ∈ d.entries ↔ d.get? k = some v :=
  ⟨Assoc.get_of_mem d.nodup, Assoc.mem_of_get⟩

theorem mem_values_iff {d : Dict κ ν} {v : ν} : v ∈ d.values ↔ ∃ k, d.get? k = some v := by
  rw [values, List.mem_map]
  constructor
  · rintro ⟨⟨k, v'⟩, hmem, rfl⟩
    exact ⟨k, mem_entries_iff.mp hmem⟩
  · rintro ⟨k, hk⟩
    exact ⟨(k, v), mem_entries_iff.mpr hk, rfl⟩

theorem get?_eq_none_iff {d : Dict κ ν} {k : κ} : d.get? k = none ↔ k ∉ d.keys :=
  Assoc.get_eq_none_iff

/-- Assigning to a present key keeps the keys and their order. -/
theorem keys_set_of_get? {d : Dict κ ν} {k : κ} {v₀ : ν} (h : d.get? k = some v₀) (v : ν) :
    (d.set k v).keys = d.keys := by
  have hmem : k ∈ d.entries.map Prod.fst := by
    by_contra hn
    rw [show d.get? k = none from Assoc.get_eq_none_iff.mpr hn] at h
    cases h
  exact (Assoc.keys_set k v d.entries).trans (if_pos hmem)

theorem mem_keys_set {d : Dict κ ν} {k j : κ} {v : ν} :
    j ∈ (d.set k v).keys ↔ j = k ∨ j ∈ d.keys := by
  show j ∈ (Assoc.set k v d.entries).map Prod.fst ↔ _
  rw [Assoc.keys_set]
  split
  · rename_i h
    exact ⟨Or.inr, fun hj => hj.elim (fun e => e ▸ h) id⟩
  · rw [List.mem_append, List.mem_singleton, or_comm]
    exact Iff.rfl

@[simp] theorem get?_map {ν' : Type w} (f : κ → ν → ν') (d : Dict κ ν) (k : κ) :
    (d.map f).get? k = (d.get? k).map (f k) := by
  obtain ⟨l, hnd⟩ := d
  show Assoc.get k (l.map fun e => (e.1, f e.1 e.2)) = (Assoc.get k l).map (f k)
  clear hnd
  induction l with
  | nil => rfl
  | cons e rest ih =>
    rw [List.map_cons, Assoc.get, Assoc.get, ih]
    split
    · rename_i hk
      rw [← hk]
      rfl
    · rfl

theorem get?_filter {p : ν → Bool} {d : Dict κ ν} {k : κ} {v : ν} :
    (d.filter p).get? k = some v ↔ d.get? k = some v ∧ p v = true := by
  rw [← mem_entries_iff, ← mem_entries_iff]
  exact List.mem_filter

/-- What is left after an erasure was there before it. -/
theorem get?_of_erase {d : Dict κ ν} {k j : κ} {v : ν} (h : (d.erase k).get? j = some v) :
    d.get? j = some v :=
  mem_entries_iff.mp (List.mem_of_mem_filter (mem_entries_iff.mpr h))

theorem get?_erase (d : Dict κ ν) (k j : κ) :
    (d.erase k).get? j = if j = k then none else d.get? j := by
  refine Option.ext fun v => ?_
  rw [← mem_entries_iff, erase, List.mem_filter, mem_entries_iff]
  by_cases h : j = k <;> simp [h]

/-- Overwriting an overwritten key. -/
theorem set_set (d : Dict κ ν) (k : κ) (v v' : ν) : (d.set k v).set k v' = d.set k v' := by
  have h : Assoc.set k v' (Assoc.set k v d.entries) = Assoc.set k v' d.entries :=
    Assoc.set_set k v v' d.entries
  simp only [set, h]

/-- Assigning what is there changes nothing. -/
theorem set_of_get? {d : Dict κ ν} {k : κ} {v : ν} (h : d.get? k = some v) : d.set k v = d := by
  have hentries : Assoc.set k v d.entries = d.entries := Assoc.set_of_get h
  unfold set
  congr

/-- A default is lost under a later assignment to its key. -/
theorem set_setDefault (d : Dict κ ν) (k : κ) (v v' : ν) :
    (d.setDefault k v).set k v' = d.set k v' := by
  unfold setDefault
  split
  · rfl
  · exact d.set_set k v v'

theorem getD_setDefault (d : Dict κ ν) (k j : κ) (v : ν) :
    ((d.setDefault k v).get? j).getD v = (d.get? j).getD v := by
  unfold setDefault
  split
  · rfl
  · rename_i h
    rw [get?_set]
    split
    · rename_i hj
      rw [hj, h]
      rfl
    · rfl

theorem mem_of_get?_ofList {l : List (κ × ν)} {k : κ} {v : ν}
    (h : (ofList l).get? k = some v) : (k, v) ∈ l := by
  have haux : ∀ (l : List (κ × ν)) (d : Dict κ ν),
      (l.foldl (fun d e => d.set e.1 e.2) d).get? k = some v → (k, v) ∈ l ∨ d.get? k = some v := by
    intro l
    induction l with
    | nil => exact fun d h => .inr h
    | cons e rest ih =>
      intro d h
      rcases ih _ h with hmem | hd
      · exact .inl (List.mem_cons_of_mem _ hmem)
      · rw [get?_set] at hd
        split at hd
        · rename_i hk
          rw [hk, ← Option.some.inj hd]
          exact .inl List.mem_cons_self
        · exact .inr hd
  rcases haux l empty h with hmem | hnone
  · exact hmem
  · simp at hnone

/-- A dict display has the key of every item. -/
theorem exists_get?_ofList {l : List (κ × ν)} {e : κ × ν} (h : e ∈ l) :
    ∃ v, (ofList l).get? e.1 = some v := by
  have haux : ∀ (l : List (κ × ν)) (d : Dict κ ν), (∃ v, d.get? e.1 = some v) ∨ e ∈ l →
      ∃ v, (l.foldl (fun d e => d.set e.1 e.2) d).get? e.1 = some v := by
    intro l
    induction l with
    | nil =>
      rintro d (hd | hmem)
      · exact hd
      · cases hmem
    | cons f rest ih =>
      rintro d (⟨v, hd⟩ | hmem)
      · refine ih _ (.inl ?_)
        rw [get?_set]
        split
        · exact ⟨_, rfl⟩
        · exact ⟨v, hd⟩
      · rcases List.mem_cons.mp hmem with rfl | hrest
        · exact ih _ (.inl ⟨_, get?_set_self d _ _⟩)
        · exact ih _ (.inr hrest)
  exact haux l empty (.inr h)

/-- Rebuilding a dictionary from its own entries. -/
theorem ofList_entries (d : Dict κ ν) : ofList d.entries = d := by
  have h : (ofList d.entries).entries = d.entries :=
    foldl_set_entries (d := empty) d.nodup
  cases hd : ofList d.entries with
  | mk l hl =>
    rw [hd] at h
    cases d
    subst h
    rfl

/-- An assignment replaces one summand. -/
theorem sum_set {M : Type w} [AddCommGroup M] (d : Dict κ ν) (g : κ → ν → M) (k : κ) (v : ν) :
    (d.set k v).sum g = d.sum g - (d.get? k).elim 0 (g k) + g k v :=
  Assoc.sum_set g k v d.entries d.nodup

/-- An erasure takes one summand away. -/
theorem sum_erase {M : Type w} [AddCommGroup M] (d : Dict κ ν) (g : κ → ν → M) (k : κ) :
    (d.erase k).sum g = d.sum g - (d.get? k).elim 0 (g k) :=
  Assoc.sum_erase g k d.nodup

/-- A sum over the entries is a sum over any keys that contain those of the dictionary. -/
theorem sum_eq_sum_keys {M : Type w} [AddCommMonoid M] (d : Dict κ ν) (g : κ → ν → M)
    {names : List κ} (hnodup : names.Nodup) (hkeys : ∀ k ∈ d.keys, k ∈ names) :
    d.sum g = (names.map fun k => (d.get? k).elim 0 (g k)).sum := by
  have hperm : (names.filter fun k => k ∈ d.keys).Perm d.keys := by
    refine (List.perm_ext_iff_of_nodup (hnodup.filter _) d.nodup).mpr fun k => ?_
    rw [List.mem_filter, decide_eq_true_eq]
    exact ⟨And.right, fun hk => ⟨hkeys k hk, hk⟩⟩
  have hentries : d.keys.map (fun k => (d.get? k).elim 0 (g k)) =
      d.entries.map fun e => g e.1 e.2 := by
    rw [keys, List.map_map]
    refine List.map_congr_left fun e he => ?_
    simp [mem_entries_iff.mp (show (e.1, e.2) ∈ d.entries from he)]
  have hrest :
      ((names.filter fun k => k ∉ d.keys).map fun k => (d.get? k).elim 0 (g k)).sum = 0 := by
    refine List.sum_eq_zero fun v hv => ?_
    obtain ⟨k, hk, rfl⟩ := List.mem_map.mp hv
    have habsent : d.get? k = none :=
      get?_eq_none_iff.mpr (by simpa using (List.mem_filter.mp hk).2)
    rw [habsent, Option.elim_none]
  have hsplit := (List.filter_append_perm (fun k => decide (k ∈ d.keys)) names).map
    fun k => (d.get? k).elim 0 (g k)
  rw [← hsplit.sum_eq, List.map_append, List.sum_append, (hperm.map _).sum_eq, hentries]
  have hneg : (names.filter fun k => !decide (k ∈ d.keys)) = names.filter fun k => k ∉ d.keys := by
    simp
  rw [hneg, hrest, add_zero, sum]

/-- Changing the summand at one key. -/
theorem sum_update {M : Type w} [AddCommGroup M] (d : Dict κ ν) {g g' : κ → ν → M} {k : κ}
    (hg : ∀ j v, j ≠ k → g' j v = g j v) :
    d.sum g' = d.sum g - (d.get? k).elim 0 (g k) + (d.get? k).elim 0 (g' k) :=
  Assoc.sum_update hg d.nodup

/-- A default that contributes nothing leaves the sum. -/
theorem sum_setDefault {M : Type w} [AddCommGroup M] (d : Dict κ ν) {g : κ → ν → M} {k : κ}
    {v : ν} (h : g k v = 0) : (d.setDefault k v).sum g = d.sum g := by
  unfold setDefault
  split
  · rfl
  · rename_i hk
    rw [sum_set, hk, h]
    simp

/-- Two summands that agree on every entry have the same sum. -/
theorem sum_congr {M : Type w} [AddCommMonoid M] {d : Dict κ ν} {g g' : κ → ν → M}
    (h : ∀ k v, d.get? k = some v → g k v = g' k v) : d.sum g = d.sum g' := by
  unfold sum
  congr 1
  exact List.map_congr_left fun e he => h e.1 e.2 (mem_entries_iff.mp he)

theorem find?_set {d : Dict κ ν} {p : ν → Bool} {k : κ} {v v₀ : ν} (h : d.get? k = some v₀)
    (hp : p v = p v₀) :
    (d.set k v).find? p = (d.find? p).map fun e => if e.1 = k then (k, v) else e :=
  Assoc.find?_set hp d.nodup h

theorem find?_set_of_fresh {d : Dict κ ν} {k : κ} (h : d.get? k = none) (v : ν) (p : ν → Bool) :
    (d.set k v).find? p = (d.find? p).or (if p v then some (k, v) else none) :=
  Assoc.find?_set_of_fresh p v h

theorem get?_of_find? {d : Dict κ ν} {p : ν → Bool} {k : κ} {v : ν}
    (h : d.find? p = some (k, v)) : d.get? k = some v ∧ p v = true :=
  ⟨mem_entries_iff.mp (List.mem_of_find?_eq_some h), by simpa using List.find?_some h⟩

theorem find?_eq_none_iff {d : Dict κ ν} {p : ν → Bool} :
    d.find? p = none ↔ ∀ k v, d.get? k = some v → p v = false := by
  rw [find?, List.find?_eq_none]
  constructor
  · intro h k v hk
    simpa using h (k, v) (mem_entries_iff.mpr hk)
  · rintro h ⟨k, v⟩ hmem
    simpa using h k v (mem_entries_iff.mp hmem)

end Dict

end TraderStack.Lib
