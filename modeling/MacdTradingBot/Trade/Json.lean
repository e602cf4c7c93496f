import MacdTradingBot.Exception
import MacdTradingBot.Lib.UnorderedMap
import Mathlib.Data.Rat.Floor

/-!
# Boost.JSON values

The part of `boost::json` that the codecs of the trade client use: values, the conversions of strings,
integers, Booleans and vectors, and objects, which keep their members in the order of insertion.
-/

namespace MacdTradingBot

/-- `boost::json::value`. A double that was parsed is finite and stands for a rational. -/
inductive JsonValue
  | null
  | bool (b : Bool)
  | int64 (n : Int64)
  | uint64 (n : UInt64)
  | double (x : ℚ)
  | string (s : Bytes)
  | array (elements : List JsonValue)
  | object (members : List (String × JsonValue))

/-- The exceptions of the codecs: `std::invalid_argument`, and the error codes of `boost::json`. -/
inductive JsonError
  | invalidArgument (what : Bytes)
  | notObject
  | notArray
  | notString
  | notBool
  | notNumber
  | notExact
  | outOfRange
deriving DecidableEq, Repr

/-- `json::value_from<T>`. -/
class ValueFrom (α : Type) where
  valueFrom : α → Except JsonError JsonValue

/-- `json::value_to<T>`. -/
class ValueTo (α : Type) where
  valueTo : JsonValue → Except JsonError α

export ValueFrom (valueFrom)

def valueTo (α : Type) [ValueTo α] (jv : JsonValue) : Except JsonError α := ValueTo.valueTo jv

@[simp]
theorem ok_bind {α β : Type} (a : α) (f : α → Except JsonError β) : (.ok a >>= f) = f a := rfl

def JsonValue.isNull : JsonValue → Bool
  | .null => true
  | _ => false

/-- The value is written, not as null, and what was written is read as that value. -/
def ReadBack {α : Type} (write : α → Except JsonError JsonValue)
    (read : JsonValue → Except JsonError α) (a : α) : Prop :=
  ∃ jv, write a = .ok jv ∧ jv.isNull = false ∧ read jv = .ok a

/-- Every value is read back. -/
class LawfulCodec (α : Type) [ValueFrom α] [ValueTo α] : Prop where
  roundTrip (a : α) : ReadBack valueFrom (valueTo α) a

namespace JsonValue

/-- The conversion to `std::string`. -/
instance : ValueTo Bytes where
  valueTo
    | .string s => .ok s
    | _ => .error .notString

instance : ValueTo Bool where
  valueTo
    | .bool b => .ok b
    | _ => .error .notBool

/-- The conversion to `int`, of any number that is one. -/
instance : ValueTo Int32 where
  valueTo
    | .int64 n =>
      if n.toInt32.toInt64 = n then .ok n.toInt32 else .error .notExact
    | .uint64 n =>
      if n.toNat < 2 ^ 31 then .ok (Int32.ofNat n.toNat) else .error .notExact
    | .double x =>
      if x.den = 1 ∧ -2 ^ 31 ≤ x ∧ x < 2 ^ 31 then .ok (Int32.ofInt x.num) else .error .notExact
    | _ => .error .notNumber

@[simp]
theorem valueTo_string (s : Bytes) : valueTo Bytes (.string s) = .ok s := rfl

@[simp]
theorem valueTo_bool (b : Bool) : valueTo Bool (.bool b) = .ok b := rfl

/-- `json::value_from` of a vector. -/
def vectorFrom {α : Type} (elements : List α)
    (elementFrom : (a : α) → a ∈ elements → Except JsonError JsonValue) : Except JsonError JsonValue :=
  .array <$> elements.attach.mapM fun a => elementFrom a.1 a.2

/-- `if (member.has_value())`: the value of a member that is written when it has one. -/
def writeOptional {α : Type} (member : Option α)
    (memberFrom : (a : α) → member = some a → Except JsonError JsonValue) :
    Except JsonError (Option JsonValue) :=
  match member with
  | none => .ok none
  | some a => some <$> memberFrom a rfl

/-- A `json::value` from an `int`. -/
def ofInt (n : Int32) : JsonValue := .int64 n.toInt64

@[simp]
theorem valueTo_ofInt (n : Int32) : valueTo Int32 (.ofInt n) = .ok n := by
  simp [valueTo, ValueTo.valueTo, ofInt]

/-- The conversion to `std::vector`, whose elements are parts of the array. -/
def toVector {α : Type} (jv : JsonValue)
    (elementTo : (element : JsonValue) → sizeOf element < sizeOf jv → Except JsonError α) :
    Except JsonError (List α) :=
  match jv with
  | .array elements => elements.attach.mapM fun element => elementTo element.1 (by
      have := List.sizeOf_lt_of_mem element.2
      simp only [array.sizeOf_spec]
      omega)
  | _ => .error .notArray

end JsonValue

/-- `boost::json::object`. -/
abbrev JsonObject := List (String × JsonValue)

/-- `as_object`. -/
def JsonValue.asObject : JsonValue → Except JsonError JsonObject
  | .object members => .ok members
  | _ => .error .notObject

/-- The same, for a reader that needs to know that the object is the value. -/
def JsonValue.withObject {α : Type} (jv : JsonValue)
    (objectTo : (obj : JsonObject) → jv = .object obj → Except JsonError α) : Except JsonError α :=
  match jv with
  | .object members => objectTo members rfl
  | _ => .error .notObject

namespace JsonObject

/-- `object::at`. -/
def «at» (obj : JsonObject) (key : String) : Except JsonError JsonValue :=
  match obj.lookup key with
  | some jv => .ok jv
  | none => .error .outOfRange

/-- A member is smaller than its object: the readers of legs terminate. -/
theorem sizeOf_lt_of_lookup {obj : JsonObject} {key : String} {jv : JsonValue}
    (h : obj.lookup key = some jv) : sizeOf jv < sizeOf (JsonValue.object obj) := by
  obtain ⟨l₁, l₂, rfl, -⟩ := List.lookup_eq_some_iff.mp h
  have hlt : sizeOf (key, jv) < sizeOf (l₁ ++ (key, jv) :: l₂) := List.sizeOf_lt_of_mem (by simp)
  simp only [Prod.mk.sizeOf_spec, JsonValue.object.sizeOf_spec] at hlt ⊢
  omega

/-- `if (obj.contains(key) && !obj.at(key).is_null())`: the conversion of a member that is there and is
not null. A member is a part of its object. -/
def optionalMember {α : Type} (obj : JsonObject) (key : String)
    (memberTo : (jv : JsonValue) → sizeOf jv < sizeOf (JsonValue.object obj) → Except JsonError α) :
    Except JsonError (Option α) :=
  match h : obj.lookup key with
  | none => .ok none
  | some jv => if jv.isNull then .ok none else some <$> memberTo jv (sizeOf_lt_of_lookup h)

def optional (α : Type) [ValueTo α] (obj : JsonObject) (key : String) : Except JsonError (Option α) :=
  obj.optionalMember key fun jv _ => valueTo α jv

/-- The members that have a value. -/
def present (members : List (String × Option JsonValue)) : List (String × JsonValue) :=
  members.filterMap fun m => m.2.map fun jv => (m.1, jv)

/-- What is not there is not written. -/
@[simp]
theorem present_cons_none (key : String) (members : List (String × Option JsonValue)) :
    present ((key, none) :: members) = present members := rfl

@[simp]
theorem present_cons_some (key : String) (jv : JsonValue) (members : List (String × Option JsonValue)) :
    present ((key, some jv) :: members) = (key, jv) :: present members := rfl

/-- `obj[key] = value` for the members that have a value, one after another. -/
def assign (members : List (String × Option JsonValue)) : JsonObject :=
  (UnorderedMap.empty.assignAll (present members)).entries

/-- What a sequence of assignments leaves under a key: the last value that the key was given. -/
def lastValue (key : String) : List (String × Option JsonValue) → Option JsonValue
  | [] => none
  | (k, value) :: members => (lastValue key members).or (if k = key then value else none)

/-- A key that is assigned more than once has its last value. -/
theorem lookup_assign (members : List (String × Option JsonValue)) (key : String) :
    (assign members).lookup key = lastValue key members := by
  -- from any object on, as the assignments continue one
  suffices hs : ∀ m : UnorderedMap String JsonValue,
      (m.assignAll (present members)).find? key = (lastValue key members).or (m.find? key) by
    have hempty : (UnorderedMap.empty : UnorderedMap String JsonValue).find? key = none := rfl
    exact (hs .empty).trans (by rw [hempty, Option.or_none])
  intro m
  induction members generalizing m with
  | nil => rfl
  | cons member members ih =>
    obtain ⟨k, value⟩ := member
    rw [lastValue, Option.or_assoc]
    cases value with
    | none => rw [present_cons_none, ih, ite_self, Option.none_or]
    | some jv =>
      rw [present_cons_some]
      refine (ih (m.insertOrAssign k jv)).trans ?_
      by_cases hkey : k = key
      · rw [if_pos hkey, ← hkey, UnorderedMap.find?_insertOrAssign_self, Option.some_or]
      · rw [if_neg hkey, UnorderedMap.find?_insertOrAssign_of_ne m (Ne.symm hkey), Option.none_or]

end JsonObject

end MacdTradingBot
