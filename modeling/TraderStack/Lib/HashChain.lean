/-!
# Hash chains

A log whose every record is sealed: it carries the hash of its body, and the body
names its place in the log and the digest of the record before it. The format is
three functions of a body: its place, the predecessor's digest it names, and its
hash.

- `chained_append`: a chain grows by continuing from its head;
- `agree_of_digest`: where no two bodies in play have the same hash, two chains
  from the same start that share a digest at one place are equal up to that place.
-/

namespace TraderStack.Lib

universe u v

/-- A body with its digest. -/
structure Sealed (β : Type u) (η : Type v) where
  body : β
  digest : η
deriving DecidableEq

/-- How bodies are chained. -/
structure ChainFormat (β : Type u) (η : Type v) where
  index : β → Nat
  prev : β → η
  hash : β → η

namespace ChainFormat

variable {β : Type u} {η : Type v} (c : ChainFormat β η)

/-- The records follow place `k` and digest `g`, each sealed by its own hash. -/
def Chained : Nat → η → List (Sealed β η) → Prop
  | _, _, [] => True
  | k, g, r :: rs =>
    c.index r.body = k ∧ c.prev r.body = g ∧ c.hash r.body = r.digest ∧ Chained (k + 1) r.digest rs

/-- The digest the next record has to name. -/
def head (g : η) (rs : List (Sealed β η)) : η := (rs.getLast?.map Sealed.digest).getD g

variable {c} {k : Nat} {g : η}

@[simp] theorem head_nil : head g ([] : List (Sealed β η)) = g := rfl

@[simp] theorem head_cons (r : Sealed β η) (rs : List (Sealed β η)) :
    head g (r :: rs) = head r.digest rs := by
  unfold head
  cases rs with
  | nil => rfl
  | cons r' rs =>
    rw [List.getLast?_cons_cons]
    cases hlast : (r' :: rs).getLast? with
    | none => cases List.getLast?_eq_none_iff.mp hlast
    | some last => rfl

/-- A chain is extended by what continues from its head. -/
theorem chained_append {rs ts : List (Sealed β η)} :
    c.Chained k g (rs ++ ts) ↔ c.Chained k g rs ∧ c.Chained (k + rs.length) (head g rs) ts := by
  induction rs generalizing k g with
  | nil => exact ⟨fun h => ⟨trivial, h⟩, fun h => h.2⟩
  | cons r rs ih =>
    rw [List.cons_append, Chained, Chained, ih, head_cons, List.length_cons, and_assoc, and_assoc,
      and_assoc, Nat.add_right_comm k 1, Nat.add_assoc]

/-- Each record of a chain has its place. -/
theorem index_of_chained {rs : List (Sealed β η)} (h : c.Chained k g rs) {n : Nat}
    {r : Sealed β η} (hr : rs[n]? = some r) : c.index r.body = k + n := by
  induction rs generalizing k g n with
  | nil => cases hr
  | cons r₀ rs ih =>
    obtain ⟨hindex, -, -, hrest⟩ := h
    cases n with
    | zero =>
      rw [List.getElem?_cons_zero] at hr
      cases hr
      exact hindex
    | succ n =>
      rw [List.getElem?_cons_succ] at hr
      rw [ih hrest hr]
      omega

/-- Each record of a chain is sealed by its hash. -/
theorem hash_of_chained {rs : List (Sealed β η)} (h : c.Chained k g rs) {r : Sealed β η}
    (hr : r ∈ rs) : c.hash r.body = r.digest := by
  induction rs generalizing k g with
  | nil => cases hr
  | cons r₀ rs ih =>
    obtain ⟨-, -, hhash, hrest⟩ := h
    rcases List.mem_cons.mp hr with rfl | hr
    · exact hhash
    · exact ih hrest hr

/-- Each record after the first names its predecessor. -/
theorem prev_of_chained {rs : List (Sealed β η)} (h : c.Chained k g rs) {n : Nat}
    {r : Sealed β η} (hr : rs[n + 1]? = some r) :
    ∃ r', rs[n]? = some r' ∧ c.prev r.body = r'.digest := by
  induction rs generalizing k g n with
  | nil => cases hr
  | cons r₀ rs ih =>
    obtain ⟨-, -, -, hrest⟩ := h
    rw [List.getElem?_cons_succ] at hr
    cases n with
    | zero =>
      cases rs with
      | nil => cases hr
      | cons r₁ rs =>
        rw [List.getElem?_cons_zero] at hr
        cases hr
        exact ⟨r₀, rfl, hrest.2.1⟩
    | succ n =>
      rw [List.getElem?_cons_succ]
      exact ih hrest hr

/-- No two bodies of these records have one hash. -/
def CollisionFree (c : ChainFormat β η) (rs : List (Sealed β η)) : Prop :=
  ∀ r ∈ rs, ∀ r' ∈ rs, c.hash r.body = c.hash r'.body → r.body = r'.body

/-- **A digest fixes its history.** Two chains whose records at one place carry the
same digest are equal up to that place: the digest fixes the body, which names the
digest before it. -/
theorem agree_of_digest {xs ys : List (Sealed β η)} {j : Nat} {g' : η} (hx : c.Chained k g xs)
    (hy : c.Chained j g' ys) (hfree : c.CollisionFree (xs ++ ys)) {n : Nat} {x y : Sealed β η}
    (hxn : xs[n]? = some x) (hyn : ys[n]? = some y) (hdigest : x.digest = y.digest) :
    xs.take (n + 1) = ys.take (n + 1) := by
  -- induction on the place, from the shared digest back to the start
  induction n generalizing x y with
  | zero =>
    have hxy : x = y := eq_of_digest hx hy hfree hxn hyn hdigest
    rw [List.take_add_one, List.take_add_one, hxn, hyn, hxy, List.take_zero, List.take_zero]
  | succ n ih =>
    have hxy : x = y := eq_of_digest hx hy hfree hxn hyn hdigest
    obtain ⟨x', hx', hprev⟩ := prev_of_chained hx hxn
    obtain ⟨y', hy', hprev'⟩ := prev_of_chained hy hyn
    have hbefore : x'.digest = y'.digest := by rw [← hprev, ← hprev', hxy]
    rw [List.take_add_one, ih hx' hy' hbefore, hxn, hxy, ← hyn, ← List.take_add_one]
where
  eq_of_digest {xs ys : List (Sealed β η)} {k j : Nat} {g g' : η} (hx : c.Chained k g xs)
      (hy : c.Chained j g' ys) (hfree : c.CollisionFree (xs ++ ys)) {n : Nat} {x y : Sealed β η}
      (hxn : xs[n]? = some x) (hyn : ys[n]? = some y) (hdigest : x.digest = y.digest) : x = y := by
    have hxmem := List.mem_of_getElem? hxn
    have hymem := List.mem_of_getElem? hyn
    have hbody : x.body = y.body := by
      refine hfree x (List.mem_append_left _ hxmem) y (List.mem_append_right _ hymem) ?_
      rw [hash_of_chained hx hxmem, hash_of_chained hy hymem, hdigest]
    cases x
    cases y
    cases hbody
    cases hdigest
    rfl

end ChainFormat

end TraderStack.Lib
