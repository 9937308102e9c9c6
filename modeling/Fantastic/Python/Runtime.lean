import Fantastic.Foundation.Value
import Mathlib.Data.Finset.Basic

/-!
# The Python runtime under the kernel

What the modelled Python code takes from its interpreter: truth values, hashing
of dictionary keys, the exceptions that cross a call, and three functions of the
standard library (`import_module`, `repr`, `str`) that stay parameters.
-/

namespace Fantastic.Python

inductive PyError where
  | typeError
  | attributeError
  | valueError (text : String)
  | osError (text : String)
  | snapshotError (text : String)
  deriving DecidableEq

structure Runtime where
  /-- `importlib.import_module(name)` returns instead of raising. -/
  importable : Value → Bool
  repr : Value → String
  str : Value → String

/-- `bool(value)`. -/
def truthy : Value → Bool
  | .null => false
  | .bool value => value
  | .int value => value ≠ 0
  | .float value => value ≠ 0
  | .str text => text ≠ ""
  | .bytes data => data ≠ []
  | .list items => items ≠ []
  | .dict members => members ≠ []

/-- Dictionary keys up to Python equality: `True`, `1` and `1.0` are one key. -/
inductive DictKey where
  | none
  | num (value : Dyadic)
  | str (text : String)
  | bytes (data : List UInt8)
  deriving DecidableEq

def hashKey : Value → Except PyError DictKey
  | .null => .ok .none
  | .bool value => .ok (.num (if value then 1 else 0))
  | .int value => .ok (.num (Dyadic.ofInt value))
  | .float value => .ok (.num value)
  | .str text => .ok (.str text)
  | .bytes data => .ok (.bytes data)
  | .list _ => .error .typeError
  | .dict _ => .error .typeError

/-- `record.get(key)`: a missing key reads as `None`. -/
def getD (record : Dict) (key : String) : Value :=
  (record.get? key).getD .null

/-- A sequence of fallible steps succeeds when each of them does. -/
theorem bind_eq_ok_iff {Failure First Second : Type} {first : Except Failure First}
    {next : First → Except Failure Second} {result : Second} :
    first >>= next = .ok result ↔ ∃ value, first = .ok value ∧ next value = .ok result := by
  cases first with
  | error failure => simp [bind, Except.bind]
  | ok value => simp [bind, Except.bind]

end Fantastic.Python
