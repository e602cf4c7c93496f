import MacdTradingBot.Exception
import MacdTradingBot.Lib.UnorderedMap
import MacdTradingBot.Market.Bar
import Mathlib.Data.Rat.Defs

/-!
# Indicator configurations and readings

`IndicatorConfig.hpp` and `OHLCVIndicator.hpp`. A `double` is read as an exact rational, a `std::size_t`
is a `UInt64` and an `int` an `Int32`.
-/

namespace MacdTradingBot

/-- `IndicatorConfig`. -/
structure IndicatorConfig where
  name : String
  params : UnorderedMap String Int32 := .empty

/-- `OHLCVIndicator::Snapshot`: the readings of one indicator. -/
abbrev Snapshot : Type := UnorderedMap String ℚ

/-- `static_cast<std::size_t>` of an `int`: modulo `2 ^ 64`. -/
def staticCastSizeT (i : Int32) : UInt64 := UInt64.ofInt i.toInt

/-- A parameter that is not negative is cast to itself. -/
theorem toNat_staticCastSizeT {i : Int32} (h : 0 ≤ i.toInt) :
    (staticCastSizeT i).toNat = i.toInt.toNat := by
  have hlt := i.toInt_lt
  rw [staticCastSizeT, UInt64.ofInt, UInt64.toNat_ofNat']
  omega

/-- `snapshot.begin()->second`. -/
def Snapshot.beginSecond (snapshot : Snapshot) : Except Exception ℚ :=
  match snapshot.entries with
  | (_, value) :: _ => .ok value
  | [] => .error (.other "dereference of end()")

end MacdTradingBot
