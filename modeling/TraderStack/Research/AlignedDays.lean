import TraderStack.Research.Assignments

/-!
# Aligned days

A family that looks at several assets keeps the days on which all of them have a close. Which
days there are up to a moment, and the closes on them, is decided by the bars up to it.

- `upTo_alignedDays`: the aligned days up to a moment;
- `closesByTime_ignoresNext`: no later bar changes a close.
-/

namespace TraderStack

open Lib

/-- `{candle.opened_at: candle.close for candle in candles}`, of the bars that are kept. -/
def closesByTime (kept : Candle → Bool) (candles : List Candle) : Dict Time ℚ :=
  Dict.ofList ((candles.filter kept).map fun candle => (candle.openedAt, candle.close))

/-- The days on which there is a close of each asset, in order. -/
def alignedDays : List (Dict Time ℚ) → List Time
  | [] => []
  | first :: rest =>
    (first.keys.filter fun day => rest.all fun closes => (closes.get? day).isSome).insertionSort
      (· ≤ ·)

/-- **The closes agree** up to a moment, asset by asset. -/
def ClosesAgree (t : Time) (assets assets' : List (Dict Time ℚ)) : Prop :=
  List.Forall₂ (fun closes closes' : Dict Time ℚ => ∀ day ≤ t, closes.get? day = closes'.get? day)
    assets assets'

section

variable {assets assets' : List (Dict Time ℚ)} {t : Time}

theorem mem_alignedDays {day : Time} (hassets : assets ≠ []) :
    day ∈ alignedDays assets ↔ ∀ closes ∈ assets, (closes.get? day).isSome = true := by
  cases assets with
  | nil => exact absurd rfl hassets
  | cons first rest =>
    have hfirst : day ∈ first.keys ↔ (first.get? day).isSome = true := by
      rw [← not_iff_not, ← Dict.get?_eq_none_iff, Bool.not_eq_true, Option.isSome_eq_false_iff,
        Option.isNone_iff_eq_none]
    rw [alignedDays, List.mem_insertionSort, List.mem_filter, hfirst, List.all_eq_true,
      List.forall_mem_cons]

theorem ascending_alignedDays (assets : List (Dict Time ℚ)) :
    (alignedDays assets).Pairwise fun a b => a < b := by
  cases assets with
  | nil => exact List.Pairwise.nil
  | cons first rest =>
    have hsorted : (alignedDays (first :: rest)).Pairwise fun a b => a ≤ b :=
      List.pairwise_insertionSort _ _
    have hnodup : (alignedDays (first :: rest)).Nodup :=
      (List.perm_insertionSort _ _).nodup_iff.mpr (first.nodup.filter _)
    exact (hsorted.and hnodup).imp fun h => lt_of_le_of_ne h.1 h.2

/-- Where the closes agree, the same assets have one on a day. -/
theorem isSome_iff_of_agree (h : ClosesAgree t assets assets') {day : Time} (hday : day ≤ t) :
    (∀ closes ∈ assets, (closes.get? day).isSome = true) ↔
      ∀ closes ∈ assets', (closes.get? day).isSome = true := by
  induction h with
  | nil => exact Iff.rfl
  | cons hfirst _ ih => rw [List.forall_mem_cons, List.forall_mem_cons, hfirst day hday, ih]

/-- **The aligned days up to a moment** are decided by the closes up to it. -/
theorem upTo_alignedDays (h : ClosesAgree t assets assets') :
    upTo (fun day => day) t (alignedDays assets)
      = upTo (fun day => day) t (alignedDays assets') := by
  by_cases hassets : assets = []
  · subst hassets
    cases h
    rfl
  have hassets' : assets' ≠ [] := by
    rintro rfl
    cases h
    exact hassets rfl
  have hascending : ∀ assets : List (Dict Time ℚ),
      (upTo (fun day => day) t (alignedDays assets)).Pairwise fun a b => a < b :=
    fun assets => (ascending_alignedDays assets).sublist List.filter_sublist
  have hmem : ∀ day, day ∈ upTo (fun day => day) t (alignedDays assets) ↔
      day ∈ upTo (fun day => day) t (alignedDays assets') := by
    intro day
    rw [mem_upTo, mem_upTo, mem_alignedDays hassets, mem_alignedDays hassets']
    exact and_congr_left fun hday => isSome_iff_of_agree h hday
  have hperm := (List.perm_ext_iff_of_nodup ((hascending assets).imp fun h => h.ne)
    ((hascending assets').imp fun h => h.ne)).mpr hmem
  exact hperm.eq_of_pairwise (fun a b _ _ hab hba => absurd hba hab.not_gt) (hascending assets)
    (hascending assets')

end

/-- **No later bar changes a close.** -/
theorem closesByTime_ignoresNext (kept : Candle → Bool) :
    IgnoresNext Candle.openedAt fun candles t => (closesByTime kept candles).get? t := by
  intro candles candle t _ hlater
  dsimp only
  unfold closesByTime
  rw [List.filter_append]
  by_cases hkept : kept candle = true
  · have hlast : Dict.ofList (((candles.filter kept) ++ [candle]).map fun candle =>
        (candle.openedAt, candle.close))
          = (Dict.ofList ((candles.filter kept).map fun candle =>
            (candle.openedAt, candle.close))).set candle.openedAt candle.close := by
      rw [List.map_append, Dict.ofList, List.foldl_append]
      rfl
    rw [List.filter_cons_of_pos hkept, List.filter_nil, hlast, Dict.get?_set_of_ne _ hlater.ne]
  · rw [List.filter_cons_of_neg hkept, List.filter_nil, List.append_nil]

/-- The closes of an asset up to a moment are the same in two sets of histories that agree. -/
theorem closesByTime_eq {kept : Candle → Bool} {aliases : Dict String String}
    {histories histories' : Dict String (List Candle)} {t : Time}
    (hwf : WellFormed aliases histories) (hwf' : WellFormed aliases histories')
    (hagree : AgreeUpTo t histories histories') (asset : String) {day : Time} (hday : day ≤ t) :
    (closesByTime kept (barsOf aliases histories asset)).get? day
      = (closesByTime kept (barsOf aliases histories' asset)).get? day := by
  have hbars := barsOf_upTo hwf hwf' hagree asset
  have hupTo : ∀ rows : List Candle,
      upTo Candle.openedAt day (upTo Candle.openedAt t rows) = upTo Candle.openedAt day rows := by
    intro rows
    unfold upTo
    rw [List.filter_filter]
    refine List.filter_congr fun row _ => ?_
    by_cases hrow : row.openedAt ≤ day
    · simp [hrow, hrow.trans hday]
    · simp [hrow]
  refine read_eq_of_upTo (closesByTime_ignoresNext kept) (ascending_barsOf hwf asset)
    (ascending_barsOf hwf' asset) ?_
  rw [← hupTo, hbars, hupTo]

end TraderStack
