/-!
# Spans of code points

Character classes beyond ASCII are lists of spans of code points.
-/

namespace FactRules.Text

/-- The code points from `first` to `last`, both included. -/
structure Span where
  first : Nat
  last : Nat
deriving DecidableEq, Repr

/-- Whether a character lies in one of the spans. -/
def inSpans (spans : List Span) (c : Char) : Bool :=
  spans.any fun span => decide (span.first ≤ c.toNat ∧ c.toNat ≤ span.last)

end FactRules.Text
