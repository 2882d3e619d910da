import Atoll.Expr.Fault
import Atoll.Value

/-!
# Arguments of methods and functions

The signature of every method and function.  Where any number of arguments may follow those that are
required, only a call with too few can be refused.
-/

set_option autoImplicit false

namespace Atoll

/-- The fault of a call with a number of arguments that a function does not take. -/
def Signature.refuse (s : Signature) (given : Nat) : Expr.Fault :=
  .trouble (.wrongCount s given)

namespace Signature

/-- The signature of a function that has no name of its own. -/
def unnamed (required : List String) (optional : Nat) : Signature :=
  ⟨"<lambda>", required, optional⟩

/-- The signature of taking a slice: what is known is its length. -/
def slice : Signature :=
  ⟨"_slice_bounds", ["length"], 2⟩

end Signature

open Signature (unnamed)

/-- The arguments of a method of strings. -/
def StringMethod.signature : StringMethod → Signature
  | .toUpperCase => unnamed ["s"] 0
  | .toLowerCase => unnamed ["s"] 0
  | .trim => unnamed ["s"] 0
  | .trimStart => unnamed ["s"] 0
  | .trimEnd => unnamed ["s"] 0
  | .includes => unnamed ["s", "sub"] 0
  | .startsWith => unnamed ["s", "sub"] 0
  | .endsWith => unnamed ["s", "sub"] 0
  | .indexOf => unnamed ["s", "sub"] 0
  | .lastIndexOf => unnamed ["s", "sub"] 0
  | .slice => .slice
  | .substring => ⟨"_substring", ["s"], 2⟩
  | .split => ⟨"_split", ["s"], 2⟩
  | .replace => unnamed ["s", "old", "new"] 0
  | .replaceAll => unnamed ["s", "old", "new"] 0
  | .repeat => unnamed ["s", "n"] 0
  | .padStart => unnamed ["s", "width"] 1
  | .padEnd => unnamed ["s", "width"] 1
  | .charAt => unnamed ["s"] 1
  | .at => unnamed ["s", "i"] 0
  | .concat => unnamed ["s"] 0
  | .toString => unnamed ["s"] 0

/-- The arguments of a method of lists. -/
def ArrayMethod.signature : ArrayMethod → Signature
  | .join => unnamed ["a"] 1
  | .includes => unnamed ["a", "x"] 0
  | .indexOf => ⟨"_index_of", ["seq", "target"], 1⟩
  | .slice => .slice
  | .concat => unnamed ["a"] 0
  | .at => unnamed ["a", "i"] 0
  | .flat => unnamed ["a"] 0
  | .map => unnamed ["a", "fn"] 0
  | .filter => unnamed ["a", "fn"] 0
  | .find => unnamed ["a", "fn"] 0
  | .findIndex => unnamed ["a", "fn"] 0
  | .some => unnamed ["a", "fn"] 0
  | .every => unnamed ["a", "fn"] 0
  | .reduce => ⟨"_reduce", ["seq", "fn"], 0⟩
  | .toReversed => unnamed ["a"] 0
  | .toString => unnamed ["a"] 0

/-- The arguments of a method of numbers and truth values. -/
def NumberMethod.signature : NumberMethod → Signature
  | .toFixed => ⟨"_to_fixed", ["n"], 1⟩
  | .toString => unnamed ["n"] 0

/-- The arguments of a function that every expression can name. -/
def Builtin.signature : Builtin → Signature
  | .floor => unnamed ["x"] 0
  | .ceil => unnamed ["x"] 0
  | .round => ⟨"_js_round", ["x"], 0⟩
  | .trunc => unnamed ["x"] 0
  | .abs => unnamed ["x"] 0
  | .sign => unnamed ["x"] 0
  | .sqrt => ⟨"_sqrt", ["x"], 0⟩
  | .pow => unnamed ["x", "y"] 0
  | .min => unnamed [] 0
  | .max => unnamed [] 0
  | .stringify => ⟨"_json_stringify", ["value"], 2⟩
  | .parse => ⟨"_json_parse", ["text"], 0⟩
  | .string => unnamed [] 1
  | .number => unnamed [] 1
  | .boolean => unnamed [] 1
  | .isArray => unnamed ["v"] 0
  | .keys => unnamed ["o"] 0
  | .values => unnamed ["o"] 0
  | .entries => unnamed ["o"] 0

end Atoll
