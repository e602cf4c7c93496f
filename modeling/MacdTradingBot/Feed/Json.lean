import MacdTradingBot.Exception
import MacdTradingBot.WebSocket.Session
import Mathlib.Data.Rat.Floor

/-!
# JSON values

The part of `nlohmann::json` that reads the members of a message. A missing member is not an error that
the library reports: `operator[]` of a constant value has the presence of the key as its precondition. The
parser and the printer are parameters.
-/

namespace MacdTradingBot

/-- What keeps a function from returning: an exception, or a call of `operator[]` on a constant object
without the key, which fails an assertion or is undefined. No `catch` sees the latter. -/
inductive Fault
  | exception (e : Exception)
  | missingMember (key : String)
deriving DecidableEq, Repr

/-- `nlohmann::json`. A parsed double is finite and stands for a rational. -/
inductive Json
  | null
  | boolean (b : Bool)
  | numberUnsigned (n : UInt64)
  | numberInteger (n : Int64)
  | numberFloat (x : ℚ)
  | string (s : String)
  | array (elements : List Json)
  | object (members : List (String × Json))
deriving Repr

/-- The parser, which rejects some texts; the printer, which throws on a string that is not UTF-8; and
what a cast of a double to `uint64_t` gives outside of the range of the type. -/
structure Nlohmann where
  parse : Bytes → Option Json
  dump : Json → Option Bytes
  castOutOfRange : ℚ → UInt64

/-- The nearest integer with a significand of 53 bits, as a conversion to double finds it. -/
def roundSignificand (n : ℕ) : ℕ :=
  let unit := 2 ^ (n.log2 - 52)
  let quotient := n / unit
  let rest := n % unit
  if unit < 2 * rest ∨ (unit = 2 * rest ∧ quotient % 2 = 1) then (quotient + 1) * unit
  else quotient * unit

/-- Integers of up to 53 bits are doubles. -/
theorem roundSignificand_of_lt {n : ℕ} (h : n < 2 ^ 53) : roundSignificand n = n := by
  have hlog : n.log2 ≤ 52 := by
    by_cases hzero : n = 0
    · simp [hzero]
    · have hlt := (Nat.log2_lt hzero).mpr h
      omega
  have hunit : n.log2 - 52 = 0 := by omega
  simp [roundSignificand, hunit, Nat.mod_one]

namespace Json

/-- The member of an object. -/
def find? : Json → String → Option Json
  | object members, key => members.lookup key
  | _, _ => none

def contains (j : Json) (key : String) : Bool := (j.find? key).isSome

/-- `operator[]` of a constant value. -/
def subscript (j : Json) (key : String) : Except Fault Json :=
  match j with
  | object members =>
    match members.lookup key with
    | some value => .ok value
    | none => .error (.missingMember key)
  | _ => .error (.exception (.other "type_error.305"))

def typeMismatch {α : Type} : Except Fault α := .error (.exception (.other "type_error.302"))

/-- The conversion to `std::string`. -/
def getString : Json → Except Fault String
  | string s => .ok s
  | _ => typeMismatch

/-- The conversion to `double`. Booleans do not convert. -/
def getDouble : Json → Except Fault ℚ
  | numberUnsigned n => .ok (roundSignificand n.toNat)
  | numberInteger n => .ok (n.toInt.sign * roundSignificand n.toInt.natAbs)
  | numberFloat x => .ok x
  | _ => typeMismatch

/-- The conversion to `uint64_t`, a `static_cast` of the number. -/
def getUInt64 (json : Nlohmann) : Json → Except Fault UInt64
  | numberUnsigned n => .ok n
  | numberInteger n => .ok n.toUInt64
  | numberFloat x =>
    let whole := if 0 ≤ x then x.floor else x.ceil
    .ok (if 0 ≤ whole ∧ whole < 2 ^ 64 then UInt64.ofNat whole.toNat else json.castOutOfRange x)
  | _ => typeMismatch

def isString : Json → Bool
  | string _ => true
  | _ => false

def isNumber : Json → Bool
  | numberUnsigned _ | numberInteger _ | numberFloat _ => true
  | _ => false

end Json

end MacdTradingBot
