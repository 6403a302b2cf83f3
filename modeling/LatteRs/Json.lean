import LatteRs.Binary64
import Mathlib.Data.Finmap

/-!
# JSON values

The values the JSON parser hands over, and the accessors the token checks use.
A number is what the parser holds for it: an unsigned 64-bit integer, a
negative signed 64-bit integer, or a finite binary64 value.

* `Number`, `Value`, `Map`, with the accessors `get`, `asStr`, `asF64`,
  `asI64`, `asObject`;
* `Number.value`, the exact value of a number;
* `HashMap`, the finite maps a decoded claim becomes.
-/

namespace LatteRs

/-- A byte string. -/
abbrev Bytes := List UInt8

/-- The UTF-8 bytes of a string. -/
def asBytes (s : String) : Bytes := s.toUTF8.data.toList

/-- A finite map from strings. -/
abbrev HashMap (V : Type) := Finmap fun _ : String => V

/-- A JSON number as the parser holds it. -/
inductive Number
  | posInt (n : UInt64)
  | negInt (n : Int64)
  | float (f : Binary64.Finite)
  deriving DecidableEq

namespace Number

/-- `Number::as_f64`; an integer is rounded to the nearest binary64 value. -/
def asF64 : Number → Binary64.Finite
  | posInt n => Binary64.ofNat64 n.toNat n.toNat_lt
  | negInt n =>
    Binary64.ofInt64 n.toInt (by have := n.le_toInt; have := n.toInt_lt; omega)
  | float f => f

/-- `Number::as_i64`: an integer that fits an `i64`. -/
def asI64 : Number → Option ℤ
  | posInt n => if (n.toNat : ℤ) ≤ Binary64.i64Max then some n.toNat else none
  | negInt n => some n.toInt
  | float _ => none

/-- The exact value of a number. -/
def value : Number → ℚ
  | posInt n => n.toNat
  | negInt n => n.toInt
  | float f => f.value

/-- The binary64 value of an integer of at most 53 bits, or of `2 ^ 53` itself, is that
integer. -/
theorem toI64_asF64 {n : Number} {z : ℤ} (h : n.value = z) (hz : |z| ≤ 2 ^ 53) :
    n.asF64.toI64 = z := by
  have hb := abs_le.1 hz
  have htrunc : n.asF64.trunc = z := by
    cases n with
    | posInt n =>
      have hn : (n.toNat : ℤ) = z := by
        have hcast : ((n.toNat : ℕ) : ℚ) = z := h
        exact_mod_cast hcast
      show (Binary64.ofNat64 n.toNat n.toNat_lt).trunc = z
      rw [Binary64.trunc_ofNat64 n.toNat_lt (by omega), hn]
    | negInt n =>
      have hn : n.toInt = z := by
        have hcast : (n.toInt : ℚ) = z := h
        exact_mod_cast hcast
      show (Binary64.ofInt64 n.toInt _).trunc = z
      unfold Binary64.ofInt64
      split_ifs with hneg
      · rw [Binary64.Finite.trunc_negate, Binary64.trunc_ofNat64 _ (by omega)]
        omega
      · rw [Binary64.trunc_ofNat64 _ (by omega)]
        omega
    | float f => exact (f.value_eq_intCast.1 h).2
  have hmin : Binary64.i64Min = -2 ^ 63 := rfl
  have hmax : Binary64.i64Max = 2 ^ 63 - 1 := rfl
  rw [Binary64.Finite.toI64_of_trunc (by omega), htrunc]

end Number

/-- A JSON value.  An object lists its entries in the order of the parser's map, which
holds every key once. -/
inductive Value
  | null
  | bool (b : Bool)
  | number (n : Number)
  | string (s : String)
  | array (xs : List Value)
  | object (entries : List (String × Value))

/-- The entries of a JSON object. -/
abbrev Map := List (String × Value)

/-- `Map::get`. -/
def Map.get (m : Map) (key : String) : Option Value := m.lookup key

namespace Value

def asStr : Value → Option String
  | string s => some s
  | _ => none

def asF64 : Value → Option Binary64.Finite
  | number n => some n.asF64
  | _ => none

def asObject : Value → Option Map
  | object entries => some entries
  | _ => none

/-- `Value::get` with a string index: `none` on anything but an object. -/
def get (v : Value) (key : String) : Option Value := v.asObject.bind (Map.get · key)

end Value

end LatteRs
