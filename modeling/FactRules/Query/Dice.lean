/-!
# Dice

The source of chance by which one of several equally good rules is chosen. Dice are loaded with
picks that are used in turn, over and over; a pick counts modulo the number of outcomes. Dice
without picks always give the first outcome.
-/

namespace FactRules

/-- Picks, and how many of them were used. -/
structure Dice where
  picks : List Int
  used : Nat
deriving DecidableEq

namespace Dice

/-- Dice with the given picks, none of them used. -/
def ofPicks (picks : List Int) : Dice := ⟨picks, 0⟩

/-- Draws one of `n` outcomes. -/
def roll (dice : Dice) (n : Nat) (hn : 0 < n) : Fin n × Dice :=
  let pick := (dice.picks[dice.used % dice.picks.length]?).getD 0
  (⟨(pick % n).toNat, by
      have := Int.emod_lt_of_pos pick (Int.natCast_pos.2 hn)
      have := Int.emod_nonneg pick (Int.natCast_ne_zero.2 (Nat.ne_of_gt hn))
      omega⟩,
    { dice with used := dice.used + 1 })

end Dice

end FactRules
