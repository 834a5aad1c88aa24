import FactRules.Proofs.Rule.Criteria
import FactRules.Proofs.Text.Numerals
import FactRules.Reading.Criterion

/-!
# Bounds and facts are rounded alike

A fact is rounded to a single when it is written, and so is the bound of a criterion when it is
read. Rounding keeps the order, so a criterion accepts all that it says, and the values that it
accepts beyond that are those whose singles are the bound's: `Criterion.bounds_compare_rounded` says
this of all doubles and all numerals.
-/

namespace FactRules

/-- How a value compares with a bound if both are rounded to singles: whether it is at most, at
least and equal to the bound. What holds of the doubles holds of the singles. The value is equal to
the bound where it is at most and at least the bound, and one of both it is. Nothing holds where one
of them is no number. -/
structure ComparesRounded (value bound : Double) (atMost atLeast equal : Bool) : Prop where
  atMost_eq : atMost = value.toSingle.le bound.toSingle
  atLeast_eq : atLeast = bound.toSingle.le value.toSingle
  equal_eq : equal = value.toSingle.same bound.toSingle
  atMost_of_le : value.le bound = true → atMost = true
  atLeast_of_le : bound.le value = true → atLeast = true
  equal_of_same : value.same bound = true → equal = true
  equal_iff : equal = true ↔ atMost = true ∧ atLeast = true
  atMost_or_atLeast : value.isNan = false → bound.isNan = false → atMost = true ∨ atLeast = true
  undefined : value.isNan = true ∨ bound.isNan = true →
    atMost = false ∧ atLeast = false ∧ equal = false

namespace Double

/-- Rounding to a single keeps the order of doubles. -/
theorem toSingle_le_toSingle {x y : Double} (h : x.le y = true) : x.toSingle.le y.toSingle = true :=
  Binary.convert_le_convert (by decide) h

theorem isNan_toSingle (x : Double) : x.toSingle.isNan = x.isNan := Binary.isNan_convert x

/-- Singles that are nearest to doubles compare as roundings do. -/
theorem comparesRounded (value bound : Double) :
    ComparesRounded value bound (value.toSingle.le bound.toSingle)
      (bound.toSingle.le value.toSingle) (value.toSingle.same bound.toSingle) where
  atMost_eq := rfl
  atLeast_eq := rfl
  equal_eq := rfl
  atMost_of_le := toSingle_le_toSingle
  atLeast_of_le := toSingle_le_toSingle
  equal_of_same := by
    rw [Binary.same_eq, Binary.same_eq, Bool.and_eq_true, Bool.and_eq_true]
    exact And.imp toSingle_le_toSingle toSingle_le_toSingle
  equal_iff := by
    rw [Binary.same_eq, Bool.and_eq_true]
  atMost_or_atLeast := by
    intro hvalue hbound
    exact Binary.le_total (value.isNan_toSingle.trans hvalue) (bound.isNan_toSingle.trans hbound)
  undefined := by
    rw [← isNan_toSingle value, ← isNan_toSingle bound]
    intro h
    exact ⟨Binary.le_eq_false_of_isNan h, Binary.le_eq_false_of_isNan h.symm,
      Binary.same_eq_false_of_isNan h⟩

end Double

namespace Criterion

/-- A key, a relation and a numeral are read as the criterion of the relation and the rounded
number. -/
theorem ofText_bound {key literal : List Char} {mark : Char} {bound : Double}
    {criterion : Criterion} (hkey : key ≠ []) (hkeyToken : ∀ c ∈ key, Text.isBlank c = false)
    (hmark : Text.isBlank mark = false) (hliteral : Numeral.read? literal = some bound)
    (hrelation : ofRelation? (String.ofList key) [mark] bound.toSingle = some criterion) :
    ofText (key ++ [' ', mark, ' '] ++ literal) = .ok criterion := by
  obtain ⟨token, hwords, htoken⟩ := Numeral.words_of_read? hliteral
  rw [ofText, Text.words_around hmark, Text.words_of_no_blank hkey hkeyToken, hwords]
  simp only [List.singleton_append, htoken, hrelation]

/-- Facts and bounds are rounded alike. For every key and every numeral there are the three
criterions that a fact is at most, at least and equal to the number, and whatever double is written
to the key, they compare it with the number as two singles are compared. Doubles are rounded to
infinity from half a step above the greatest finite single on, and a single that is read from a
store and written again stays the same. There is one `nan` in each format, so nothing is said of the
bits of an undefined number that is stored: which of them it keeps is up to the hardware. -/
theorem bounds_compare_rounded {key literal : List Char} {bound : Double} (hkey : key ≠ [])
    (hkeyToken : ∀ c ∈ key, Text.isBlank c = false)
    (hliteral : Numeral.read? literal = some bound) :
    (∃ atMost atLeast equal : Criterion,
      ofText (key ++ [' ', '<', ' '] ++ literal) = .ok atMost ∧
      ofText (key ++ [' ', '>', ' '] ++ literal) = .ok atLeast ∧
      ofText (key ++ [' ', '=', ' '] ++ literal) = .ok equal ∧
      ∀ (value : Double) (store : FactStore) (chain : Chain),
        let written := store.add (String.ofList key) value :: chain
        ComparesRounded value bound (atMost.holds written) (atLeast.holds written)
          (equal.holds written)) ∧
      (∀ value : Double,
        (value.toSingle = .infinity false ↔
          (Binary.ofInt Double.overflowBound : Double).le value = true) ∧
        (value.toSingle = .infinity true ↔
          value.le (.ofInt (-Double.overflowBound)) = true)) ∧
      ∀ (source target : FactStore) (read written : String),
        (target.add written (source.get read).toDouble).lookup? written =
          some (source.get read) := by
  refine ⟨?_, Double.toSingle_eq_infinity_iff, fun source target read written => ?_⟩
  · refine ⟨_, _, _, ofText_bound hkey hkeyToken (by decide) hliteral rfl,
      ofText_bound hkey hkeyToken (by decide) hliteral rfl,
      ofText_bound hkey hkeyToken (by decide) hliteral rfl, fun value store chain => ?_⟩
    have hfound : (store.add (String.ofList key) value).lookup? (String.ofList key) =
        some value.toSingle := by
      rw [FactStore.lookup?_add, if_pos rfl]
    dsimp only
    rw [holds_front hfound, holds_front hfound, holds_front hfound, accepts_atMost,
      accepts_atLeast, accepts_equal]
    exact value.comparesRounded bound
  · rw [FactStore.lookup?_add, if_pos rfl, Single.toSingle_toDouble]

end Criterion

/-- The double after 0.1 is greater than 0.1, but as singles they are equal, so a fact with this
value is accepted as at most 0.1. -/
theorem hunger_atMost_bound :
    ("hunger".toList ≠ [] ∧ (∀ c ∈ "hunger".toList, Text.isBlank c = false) ∧
      Numeral.read? "0.1".toList = some (.ofBits 0x3fb999999999999a)) ∧
      (.ofBits 0x3fb999999999999a : Double).lt (.ofBits 0x3fb999999999999b) = true ∧
      ∃ criterion, Criterion.ofText "hunger < 0.1".toList = .ok criterion ∧
        criterion.holds [FactStore.add ∅ "hunger" (.ofBits 0x3fb999999999999b)] = true := by
  have hkeyToken : ∀ c ∈ "hunger".toList, Text.isBlank c = false :=
    Text.no_blank_of_any (by decide +kernel)
  have hnumeral : Numeral.read? "0.1".toList = some (.ofBits 0x3fb999999999999a) := by
    decide +kernel
  refine ⟨⟨by decide, hkeyToken, hnumeral⟩, by decide +kernel, ?_⟩
  obtain ⟨⟨atMost, _, _, hatMost, _, _, hcompares⟩, _⟩ :=
    Criterion.bounds_compare_rounded (by decide) hkeyToken hnumeral
  refine ⟨atMost, hatMost, (hcompares (.ofBits 0x3fb999999999999b) ∅ []).atMost_eq.trans ?_⟩
  decide +kernel

end FactRules
