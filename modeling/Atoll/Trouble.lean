import Atoll.Text.Digit
import Atoll.Text.Quoted
import Atoll.Text.Search

/-!
# What an operation can run into

A `Trouble` is the reason why an operation on numbers or texts has no result, with one message for
each.  A `Signature` says which arguments a function takes.  Counts and lengths are limited by how
they are counted, and by nothing else: there is always room for a result.
-/

set_option autoImplicit false

namespace Atoll

/-- The arguments that a function takes, with the name under which it is reported: those that must
be there, and how many more there may be behind them.  For a method the first one is the value it
belongs to. -/
structure Signature where
  name : String
  required : List String
  optional : Nat
  deriving DecidableEq, Repr, Inhabited

namespace Signature

/-- Names in single quotes with commas between them and a word before the last one. -/
def listed : List String → String
  | [] => ""
  | [a] => Text.quoted a
  | [a, b] => Text.quoted a ++ " and " ++ Text.quoted b
  | a :: rest => Text.quoted a ++ ", " ++ listed rest

/-- What is wrong with a call with the given number of arguments, which is too small or too
large. -/
def complaint (s : Signature) (given : Nat) : String :=
  let missing := s.required.drop given
  let least := s.required.length
  let plural (one : Bool) (word : String) := if one then word else word ++ "s"
  let number := if s.optional == 0 then toString least
    else "from " ++ toString least ++ " to " ++ toString (least + s.optional)
  if !missing.isEmpty then
    s.name ++ "() missing " ++ toString missing.length ++ " required positional "
      ++ plural (missing.length == 1) "argument" ++ ": " ++ listed missing
  else
    s.name ++ "() takes " ++ number ++ " positional "
      ++ plural (s.optional == 0 && least == 1) "argument" ++ " but " ++ toString given
      ++ (if given == 1 then " was" else " were") ++ " given"

end Signature

/-- Why an operation has no result. -/
inductive Trouble where
  /-- An integer is outside the range of doubles. -/
  | largeInteger
  /-- A quotient of integers is outside the range of doubles. -/
  | largeQuotient
  /-- A power is outside the range of doubles. -/
  | largePower
  /-- A power has no value. -/
  | noPower
  /-- Not a number has no integer part. -/
  | notANumber
  /-- An infinity has no integer part. -/
  | infinite
  /-- A count is too large. -/
  | largeCount
  /-- A text would be too long to count its characters. -/
  | longText
  /-- Text cannot be cut at an empty separator. -/
  | emptySeparator
  /-- A count of places behind the point is negative. -/
  | negativePlaces
  /-- A count of places behind the point is too large. -/
  | manyPlaces
  /-- A count of places behind the point is too large to be read. -/
  | unreadPlaces
  /-- An integer has too many digits to be written. -/
  | longInteger
  /-- A text has so many digits that it is not read as an integer. -/
  | longDigits (count : Nat)
  /-- A text of digits does not spell an integer. -/
  | notDecimal (text : String)
  /-- There is no character with a code. -/
  | noCharacter
  /-- A code is far beyond those of characters. -/
  | largeCode
  /-- A value does not hold entries. -/
  | notEntries
  /-- A value does not hold a key and a value. -/
  | notAPair
  /-- A function is called with too few or too many arguments. -/
  | wrongCount (signature : Signature) (given : Nat)
  /-- Other data stands where a text is due. -/
  | notText
  /-- Something is asked for a part that it does not have. -/
  | noPart
  /-- An attribute stands where a node is due. -/
  | strayAttr
  /-- The entries of an object are asked for by their places. -/
  | noPlace
  deriving DecidableEq, Repr, Inhabited

namespace Trouble

/-- The kinds of trouble. -/
inductive Kind where
  /-- A number is out of range. -/
  | overflow
  /-- An operation is not defined for its arguments. -/
  | invalid
  /-- An operation got arguments that it does not take. -/
  | misuse
  /-- A part is missing. -/
  | partless
  /-- Something stands where it must not. -/
  | stray
  /-- A key is missing. -/
  | keyless
  deriving DecidableEq, Repr

/-- The kind of a trouble. -/
def kind : Trouble → Kind
  | .largeInteger => .overflow
  | .largeQuotient => .overflow
  | .largePower => .overflow
  | .noPower => .invalid
  | .notANumber => .invalid
  | .infinite => .overflow
  | .largeCount => .overflow
  | .longText => .overflow
  | .emptySeparator => .invalid
  | .negativePlaces => .invalid
  | .manyPlaces => .invalid
  | .unreadPlaces => .invalid
  | .longInteger => .invalid
  | .longDigits _ => .invalid
  | .notDecimal _ => .invalid
  | .noCharacter => .invalid
  | .largeCode => .overflow
  | .notEntries => .misuse
  | .notAPair => .invalid
  | .wrongCount _ _ => .misuse
  | .notText => .misuse
  | .noPart => .partless
  | .strayAttr => .stray
  | .noPlace => .keyless

/-- What is said about an integer with too many digits; `detail` says more about it. -/
def digitLimit (detail : String) : String :=
  "Exceeds the limit (" ++ toString Text.maxDigits ++ " digits) for integer string conversion" ++ detail
    ++ "; use sys.set_int_max_str_digits() to increase the limit"

/-- The message of a trouble. -/
def message : Trouble → String
  | .largeInteger => "int too large to convert to float"
  | .largeQuotient => "integer division result too large for a float"
  | .largePower => "math range error"
  | .noPower => "math domain error"
  | .notANumber => "cannot convert float NaN to integer"
  | .infinite => "cannot convert float infinity to integer"
  | .largeCount => "cannot fit 'int' into an index-sized integer"
  | .longText => "repeated string is too long"
  | .emptySeparator => "empty separator"
  | .negativePlaces => "Format specifier missing precision"
  | .manyPlaces => "precision too big"
  | .unreadPlaces => "Too many decimal digits in format string"
  | .longInteger => digitLimit ""
  | .longDigits n => digitLimit (": value has " ++ toString n ++ " digits")
  | .notDecimal text =>
    "invalid literal for int() with base 10: "
      ++ String.ofList ((Text.quoted text).toList.take 200)
  | .noCharacter => "no character has this code"
  | .largeCode => "the code is too large"
  | .notEntries => "the value holds no entries"
  | .notAPair => "the value is not a pair"
  | .wrongCount signature given => signature.complaint given
  | .notText => "a text is due"
  | .noPart => "the part is missing"
  | .strayAttr => "an attribute is no node"
  | .noPlace => "an object has no places"

end Trouble

/-! ## Counts -/

namespace Text

/-- Counts are below this number, and not below its negative. -/
def countLimit : Int :=
  Nat.pow 2 63

/-- A text a number of times, if that number and the length of the result can be counted. -/
def repeated (s : String) (n : Int) : Except Trouble String :=
  if n < -countLimit || countLimit ≤ n then .error .largeCount
  else if n ≤ 0 || s.isEmpty then .ok ""
  else if countLimit ≤ n * s.length then .error .longText
  else .ok (times n s)

end Text

end Atoll
