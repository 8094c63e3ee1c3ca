import TraderStack.Research.BollingerFade
import TraderStack.Research.CrossSectional
import TraderStack.Research.LeadLag
import TraderStack.Research.VolumeBreakout

/-!
# Precomputed signals are point in time

The families compute their assignments over whole histories, and their voters look them up by the
opening time of a bar. Whatever comes after the bar, the vote on it is the same.

- `assignments_point_in_time`: **two runs whose bars agree up to a moment** vote alike on it.
-/

namespace TraderStack

open Lib

/-- **The votes at a moment are the same** in two runs, for every parameter of each family. A run
that raises has no voter. -/
structure VotesAgree (t : Time) (histories histories' : Dict String (List Candle)) : Prop where
  volume : ∀ kind args, SameVotes volumeBreakoutWords t (volumeBreakoutSignals kind args histories)
    (volumeBreakoutSignals kind args histories')
  bollinger : ∀ args, SameVotes bollingerWords t (bollingerSignals args histories)
    (bollingerSignals args histories')
  crossSectional : ∀ args mapping mapping', xsMomentumSignals args histories = .ok mapping →
    xsMomentumSignals args histories' = .ok mapping' → SameVotes xsMomentumWords t mapping mapping'
  leadLag : ∀ args mapping mapping', leadlagSignals args histories = .ok mapping →
    leadlagSignals args histories' = .ok mapping' → SameVotes leadlagWords t mapping mapping'

/-- **Precomputed assignments are point in time.** -/
theorem assignments_point_in_time {histories histories' : Dict String (List Candle)} {t : Time}
    (hwf : WellFormed aliasToCanonical histories) (hwf' : WellFormed aliasToCanonical histories')
    (hagree : AgreeUpTo t histories histories') : VotesAgree t histories histories' where
  volume := by
    intro kind args
    unfold volumeBreakoutSignals
    split
    · exact sameVotes_signalsOf (volsurgePositionSeries_nil args) (volsurge_ignoresNext args)
        upper_aliasToCanonical hwf hwf' hagree
    · exact sameVotes_signalsOf (volbrkPositionSeries_nil args) (volbrk_ignoresNext args)
        upper_aliasToCanonical hwf hwf' hagree
  bollinger := fun args =>
    sameVotes_signalsOf (bollingerPositionSeries_nil args) (bollinger_ignoresNext args)
      upper_aliasToCanonical hwf hwf' hagree
  crossSectional := fun _ _ _ h h' => sameVotes_xsMomentumSignals hwf hwf' hagree h h'
  leadLag := fun _ _ _ h h' => sameVotes_leadlagSignals hwf hwf' hagree h h'

/-! ## A bar more -/

namespace Extended

/-- A daily bar that opens and closes at a price. -/
def bar (symbol : String) (day price : ℕ) : Candle where
  symbol := symbol
  interval := "1d"
  openedAt := 86400 * day
  openPrice := (price + 1 : ℕ)
  high := (price + 1 : ℕ)
  low := (price + 1 : ℕ)
  close := (price + 1 : ℕ)
  volume := 1
  open_pos := Nat.cast_pos.mpr price.succ_pos
  high_pos := Nat.cast_pos.mpr price.succ_pos
  low_pos := Nat.cast_pos.mpr price.succ_pos
  close_pos := Nat.cast_pos.mpr price.succ_pos
  volume_nonneg := unit_nonneg
  high_contains := (max_self _).le
  low_contains := (min_self _).ge

/-- Two days of three assets, and what comes after them. -/
def histories (later : String → List Candle) : Dict String (List Candle) :=
  Dict.ofList
    [("BTC/USD@1d", [bar "BTC/USD" 0 1, bar "BTC/USD" 1 3] ++ later "BTC/USD"),
      ("ETH/USD@1d", [bar "ETH/USD" 0 1, bar "ETH/USD" 1 2] ++ later "ETH/USD"),
      ("SOL/USD@1d", [bar "SOL/USD" 0 1, bar "SOL/USD" 1 0] ++ later "SOL/USD")]

/-- The two days alone. -/
def known : Dict String (List Candle) := histories fun _ => []

/-- The two days, and a third one. -/
def whole : Dict String (List Candle) := histories fun symbol => [bar symbol 2 9]

/-- What well-formed histories are, entry by entry. -/
theorem wellFormed_of_entries {histories : Dict String (List Candle)}
    (hsymbol : ∀ e ∈ histories.entries, ∀ c ∈ e.2, ∀ d ∈ e.2, c.symbol = d.symbol)
    (hascending : ∀ e ∈ histories.entries, e.2.Pairwise fun a b => a.openedAt < b.openedAt)
    (hone : ∀ e ∈ histories.entries, ∀ e' ∈ histories.entries,
      assetOf aliasToCanonical e.2 = assetOf aliasToCanonical e'.2 → e.1 = e'.1) :
    WellFormed aliasToCanonical histories where
  one_symbol := fun _ _ hkey => hsymbol _ (Dict.mem_entries_iff.mpr hkey)
  ascending := fun _ _ hkey => hascending _ (Dict.mem_entries_iff.mpr hkey)
  one_history := fun _ _ _ _ _ hkey hkey' hof hof' =>
    hone _ (Dict.mem_entries_iff.mpr hkey) _ (Dict.mem_entries_iff.mpr hkey')
      (hof.trans hof'.symm)

theorem wellFormed_known : WellFormed aliasToCanonical known :=
  wellFormed_of_entries (by decide +kernel) (by decide +kernel) (by decide +kernel)

theorem wellFormed_whole : WellFormed aliasToCanonical whole :=
  wellFormed_of_entries (by decide +kernel) (by decide +kernel) (by decide +kernel)

theorem agreeUpTo : AgreeUpTo 86400 known whole := by
  have hkeys : ∀ key ∈ known.keys, upTo Candle.openedAt 86400 ((known.get? key).getD [])
      = upTo Candle.openedAt 86400 ((whole.get? key).getD []) := by
    decide +kernel
  intro key
  by_cases hkey : key ∈ known.keys
  · exact hkeys key hkey
  · have hkey' : key ∉ whole.keys := hkey
    rw [Dict.get?_eq_none_iff.mpr hkey, Dict.get?_eq_none_iff.mpr hkey']

/-- The lead is up on the second day, so the other asset is bought on it. -/
def follow : LeadLagArgs := ⟨"ETH", "BTC", 1, "follow_lo"⟩

end Extended

/-- On the second day of the longer histories, the lagging asset is held. -/
theorem assignments_point_in_time_extended :
    VotesAgree 86400 Extended.known Extended.whole ∧
      (leadlagSignals Extended.follow Extended.whole).map
          (fun mapping => lookup 0 ((mapping.get? "ETH/USD").getD []) 86400) = .ok 1 :=
  ⟨assignments_point_in_time Extended.wellFormed_known Extended.wellFormed_whole Extended.agreeUpTo,
    by decide +kernel⟩

end TraderStack
