import FactRules.Proofs.Binary.Order
import FactRules.Proofs.Binary.Rounding
import FactRules.Rule.Criteria

/-!
# What criterions accept

Facts are singles, so a criterion whose ends are singles, or infinite, compares singles
(`Criterion.accepts_atMost`, `Criterion.accepts_atLeast`, `Criterion.accepts_equal`). On a chain of
stores it is asked of the value in the first store that has its key
(`Criterion.holds_front`).
-/

namespace FactRules.Criterion

variable (key : String) (value bound : Single)

/-- Without a lower bound, a number is compared with the upper one only. -/
theorem accepts_atMost :
    (mk key (.infinity true) bound.toDouble).accepts value.toDouble = value.le bound := by
  rw [accepts, Single.toDouble_le_toDouble, Bool.eq_iff_iff, Bool.and_eq_true]
  refine and_iff_right_of_imp fun h => Binary.infinity_le ?_
  rw [Single.toDouble, Binary.isNan_convert]
  exact (Binary.isNan_of_le h).1

/-- Without an upper bound, it is compared with the lower one only. -/
theorem accepts_atLeast :
    (mk key bound.toDouble (.infinity false)).accepts value.toDouble = bound.le value := by
  rw [accepts, Single.toDouble_le_toDouble, Bool.eq_iff_iff, Bool.and_eq_true]
  refine and_iff_left_of_imp fun h => Binary.le_infinity ?_
  rw [Single.toDouble, Binary.isNan_convert]
  exact (Binary.isNan_of_le h).2

/-- Between two equal bounds there is one number, or the two zeros. -/
theorem accepts_equal :
    (mk key bound.toDouble bound.toDouble).accepts value.toDouble = value.same bound := by
  rw [accepts, Single.toDouble_le_toDouble, Single.toDouble_le_toDouble, Bool.and_comm,
    ← Binary.same_eq]

variable {key value}

/-- A criterion is asked of the value that is found first. -/
theorem holds_front {store : FactStore} {criterion : Criterion} {value : Single}
    (h : store.lookup? criterion.key = some value) (chain : Chain) :
    criterion.holds (store :: chain) = criterion.accepts value.toDouble := by
  have hget : Chain.get (store :: chain) criterion.key = value := by
    simp [Chain.get, Chain.lookup?, h]
  rw [holds, hget]

end FactRules.Criterion
