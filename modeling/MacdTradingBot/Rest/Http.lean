import MacdTradingBot.Exception
import Mathlib.Data.Nat.Notation

/-!
# HTTP messages

The part of the HTTP library that the REST client uses: messages with their fields, in the order in which
the library iterates over them. Names keep their spelling, and the library compares them without regard to
case.
-/

namespace MacdTradingBot.Http

/-- `ascii_tolower`. -/
def asciiToLower (c : UInt8) : UInt8 := if 65 ≤ c ∧ c ≤ 90 then c + 32 else c

/-- What is compared of a name. -/
def foldCase (name : Bytes) : Bytes := name.map asciiToLower

/-- `iequals`. -/
def iequals (name name' : Bytes) : Bool := foldCase name = foldCase name'

/-- A field of a message. -/
structure Field where
  name : Bytes
  value : Bytes
deriving DecidableEq, Repr

/-- `http::fields`. -/
abbrev Fields := List Field

/-- `http::request`, with the text of its method. -/
structure Request (Body : Type) where
  methodString : Bytes
  target : Bytes
  version : ℕ
  fields : Fields
  body : Body

/-- `http::response<http::string_body>`. -/
structure Response where
  version : ℕ
  resultInt : ℕ
  reason : Bytes
  fields : Fields
  body : Bytes

end MacdTradingBot.Http
