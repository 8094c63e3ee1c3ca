import TraderStack.Lib.Dict
import Mathlib.Data.List.Pairwise
import Mathlib.Order.Lattice

/-!
# What later rows do not change

The rows of a tape have ascending times, and a function reads a tape at a moment. If one more row
after the moment never changes what is read, then no rows after it do: what is read at a moment
is decided by the rows up to it.

- `read_upTo`: **later rows do not show**, if the next one never does;
- `read_eq_of_upTo`: two tapes with the same rows up to a moment read the same there;
- `lookup_concat_of_ne`: a lookup passes over an item with another key;
- `ignoresNext_filterMap`, `ignoresNext_foldl`: items read off places, or reported by a loop;
- `ignoresNext_guarded`: a guard that stops only what is flat shows no later row.
-/

namespace TraderStack.Lib

variable {α T V : Type*} [LinearOrder T] {time : α → T} {read : List α → T → V}

/-- The rows up to a moment. -/
def upTo (time : α → T) (t : T) (rows : List α) : List α := rows.filter fun row => time row ≤ t

/-- One more row after a moment changes nothing that is read at the moment. -/
def IgnoresNext (time : α → T) (read : List α → T → V) : Prop :=
  ∀ rows row t, (rows ++ [row]).Pairwise (fun a b => time a < time b) → t < time row →
    read (rows ++ [row]) t = read rows t

/-- Ascending rows are those up to a moment, and then those after it. -/
theorem exists_later {rows : List α} (h : rows.Pairwise fun a b => time a < time b) (t : T) :
    ∃ later, rows = upTo time t rows ++ later ∧ ∀ row ∈ later, t < time row := by
  induction rows with
  | nil => exact ⟨[], rfl, fun _ hrow => absurd hrow List.not_mem_nil⟩
  | cons first rows ih =>
    obtain ⟨hfirst, hrest⟩ := List.pairwise_cons.mp h
    obtain ⟨later, hrows, hlater⟩ := ih hrest
    by_cases hle : time first ≤ t
    · refine ⟨later, ?_, hlater⟩
      rw [upTo, List.filter_cons_of_pos (by simpa using hle), List.cons_append]
      exact congrArg _ hrows
    · -- the first row is after the moment, and so are all the others
      have hall : ∀ row ∈ first :: rows, t < time row := by
        intro row hrow
        rcases List.mem_cons.mp hrow with rfl | hrow
        · exact not_le.mp hle
        · exact (not_le.mp hle).trans (hfirst row hrow)
      have hnone : upTo time t (first :: rows) = [] :=
        List.filter_eq_nil_iff.mpr fun row hrow => by simpa using hall row hrow
      exact ⟨first :: rows, by rw [hnone, List.nil_append], hall⟩

/-- **Later rows do not show**, if the next one never does. -/
theorem read_upTo (hread : IgnoresNext time read) {rows : List α}
    (h : rows.Pairwise fun a b => time a < time b) (t : T) :
    read rows t = read (upTo time t rows) t := by
  obtain ⟨later, hrows, hlater⟩ := exists_later h t
  rw [hrows] at h
  have hrun : ∀ later : List α, (upTo time t rows ++ later).Pairwise
      (fun a b => time a < time b) → (∀ row ∈ later, t < time row) →
      read (upTo time t rows ++ later) t = read (upTo time t rows) t := by
    intro later
    induction later using List.reverseRecOn with
    | nil => exact fun _ _ => by rw [List.append_nil]
    | append_singleton later row ih =>
      intro hsorted hafter
      rw [← List.append_assoc] at hsorted ⊢
      rw [hread _ _ _ hsorted (hafter row (by simp)), ih (List.pairwise_append.mp hsorted).1
        fun other hother => hafter other (List.mem_append_left _ hother)]
  have hall := hrun later h hlater
  rwa [← hrows] at hall

/-- **Two tapes with the same rows up to a moment** read the same there. -/
theorem read_eq_of_upTo (hread : IgnoresNext time read) {rows rows' : List α}
    (h : rows.Pairwise fun a b => time a < time b)
    (h' : rows'.Pairwise fun a b => time a < time b) {t : T}
    (heq : upTo time t rows = upTo time t rows') : read rows t = read rows' t := by
  rw [read_upTo hread h, heq, ← read_upTo hread h']

theorem mem_upTo {t : T} {rows : List α} {row : α} :
    row ∈ upTo time t rows ↔ row ∈ rows ∧ time row ≤ t := by
  rw [upTo, List.mem_filter, decide_eq_true_iff]

/-! ## Lookups -/

/-- What is looked up among items at a moment, or a default where there is none. -/
def lookup (default : V) (items : List (T × V)) (t : T) : V :=
  ((Dict.ofList items).get? t).getD default

theorem lookup_nil (default : V) (t : T) : lookup default [] t = default := rfl

/-- **A lookup passes over** an item with another key. -/
theorem lookup_concat_of_ne {default v : V} {items : List (T × V)} {t t' : T} (h : t ≠ t') :
    lookup default (items ++ [(t', v)]) t = lookup default items t := by
  have hlast : Dict.ofList (items ++ [(t', v)]) = (Dict.ofList items).set t' v := by
    rw [Dict.ofList, List.foldl_append]
    rfl
  rw [lookup, hlast, Dict.get?_set_of_ne _ h, lookup]

/-- Where every item up to a moment has the default, so has the lookup. -/
theorem lookup_of_forall {default : V} {items : List (T × V)} {t : T}
    (h : ∀ e ∈ items, e.1 ≤ t → e.2 = default) : lookup default items t = default := by
  unfold lookup
  cases hget : (Dict.ofList items).get? t with
  | none => rfl
  | some v => exact h (t, v) (Dict.mem_of_get?_ofList hget) le_rfl

/-- **Items read off places**: where a place is read alike on a longer tape, and the last one
gives an item of its own time, a lookup shows no later row. -/
theorem ignoresNext_filterMap {default : V} {item : List α → ℕ → Option (T × V)} (start : ℕ)
    (hbefore : ∀ rows row place, place < rows.length →
      item (rows ++ [row]) place = item rows place)
    (hlast : ∀ rows row e, item (rows ++ [row]) rows.length = some e → e.1 = time row) :
    IgnoresNext time fun rows t =>
      lookup default ((List.range' start (rows.length - start)).filterMap (item rows)) t := by
  intro rows row t _ hlater
  dsimp only
  rw [List.length_append, List.length_singleton]
  by_cases hstart : start ≤ rows.length
  · obtain ⟨turns, hturns⟩ := Nat.exists_eq_add_of_le hstart
    have hcount : rows.length + 1 - start = turns + 1 := by omega
    have hcount' : rows.length - start = turns := by omega
    have hsame : (List.range' start turns).filterMap (item (rows ++ [row]))
        = (List.range' start turns).filterMap (item rows) := by
      refine List.filterMap_congr fun place hplace => hbefore rows row place ?_
      have hrange := List.mem_range'_1.mp hplace
      omega
    rw [hcount, hcount', List.range'_concat, List.filterMap_append, hsame, Nat.one_mul, ← hturns,
      List.filterMap_cons, List.filterMap_nil]
    cases hnew : item (rows ++ [row]) rows.length with
    | none =>
      dsimp only
      rw [List.append_nil]
    | some e =>
      dsimp only
      exact lookup_concat_of_ne (v := e.2) (hlater.trans_eq (hlast rows row e hnew).symm).ne
  · have hnone : rows.length + 1 - start = 0 := by omega
    have hnone' : rows.length - start = 0 := by omega
    rw [hnone, hnone']
    rfl

/-- **Items reported by a loop**: where a turn is the same on a longer tape, and the last turn
reports at most one item, of its own time, a lookup shows no later row. -/
theorem ignoresNext_foldl {default : V} {σ : Type*} {turn : List α → σ → ℕ → σ}
    {out : σ → List (T × V)} (first : σ) (start : ℕ)
    (hbefore : ∀ rows row s place, place < rows.length →
      turn (rows ++ [row]) s place = turn rows s place)
    (hlast : ∀ rows row s, out (turn (rows ++ [row]) s rows.length) = out s ∨
      ∃ v, out (turn (rows ++ [row]) s rows.length) = out s ++ [(time row, v)]) :
    IgnoresNext time fun rows t =>
      lookup default (out ((List.range' start (rows.length - start)).foldl (turn rows) first))
        t := by
  intro rows row t _ hlater
  dsimp only
  rw [List.length_append, List.length_singleton]
  by_cases hstart : start ≤ rows.length
  · obtain ⟨turns, hturns⟩ := Nat.exists_eq_add_of_le hstart
    have hcount : rows.length + 1 - start = turns + 1 := by omega
    have hcount' : rows.length - start = turns := by omega
    have hsame : (List.range' start turns).foldl (turn (rows ++ [row])) first
        = (List.range' start turns).foldl (turn rows) first := by
      refine List.foldl_ext _ _ _ fun s place hplace => hbefore rows row s place ?_
      have hrange := List.mem_range'_1.mp hplace
      omega
    rw [hcount, hcount', List.range'_concat, List.foldl_append, hsame, Nat.one_mul, ← hturns]
    rcases hlast rows row ((List.range' start turns).foldl (turn rows) first) with hkept | ⟨v, hnew⟩
    · exact congrArg (fun items => lookup default items t) hkept
    · refine (congrArg (fun items => lookup default items t) hnew).trans ?_
      exact lookup_concat_of_ne hlater.ne
  · have hnone : rows.length + 1 - start = 0 := by omega
    have hnone' : rows.length - start = 0 := by omega
    rw [hnone, hnone']
    rfl

/-- **A guard** that lets longer tapes pass, and stops only tapes on which every lookup finds the
default, shows no later row either. -/
theorem ignoresNext_guarded {default : V} {ok : List α → Prop} [DecidablePred ok]
    {items : List α → List (T × V)}
    (hitems : IgnoresNext time fun rows t => lookup default (items rows) t)
    (hlonger : ∀ rows row, ok rows → ok (rows ++ [row]))
    (hstopped : ∀ rows t, ¬ok rows → lookup default (items rows) t = default) :
    IgnoresNext time fun rows t => lookup default (if ok rows then items rows else []) t := by
  intro rows row t hsorted hlater
  dsimp only
  by_cases hok : ok rows
  · rw [if_pos hok, if_pos (hlonger rows row hok)]
    exact hitems rows row t hsorted hlater
  · rw [if_neg hok, lookup_nil]
    by_cases hok' : ok (rows ++ [row])
    · rw [if_pos hok']
      exact (hitems rows row t hsorted hlater).trans (hstopped rows t hok)
    · rw [if_neg hok', lookup_nil]

end TraderStack.Lib
