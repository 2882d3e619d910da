import Atoll.Text.Case
import Atoll.Text.Search
import Atoll.Value.Operator
import Atoll.Value.Signature

/-!
# Methods and functions

What the methods of texts, lists and numbers and the functions of the libraries do.  Each takes a
fixed number of arguments or a range of numbers; a call with any other number is trouble.  Methods
that call back get the caller as a parameter, which takes the number of the call besides the
function and its arguments.
-/

set_option autoImplicit false

namespace Atoll
namespace Value

open Atoll.Expr (Fault)

/-- Runs a function: the number of the call, the function and its arguments. -/
abbrev Caller := Nat → Value → List Value → Except Fault Value

/-! ## Arguments -/

/-- The integer that a value gives when the fraction is cut off. -/
def toInt (v : Value) : Except Fault Int := do
  liftNumber (← v.toNumber).truncate

/-- One end of a slice: undefined is the default, not a number is zero, and negative numbers count
from the end. -/
def clamp (length : Nat) (default : Nat) (v : Value) : Except Fault Nat :=
  match v with
  | .undefined => .ok default
  | _ => do
    let n ← v.toNumber
    let n ← if ← liftNumber n.isNaN then .ok 0 else liftNumber n.truncate
    .ok (min (if n < 0 then length + n else n).toNat length)

/-- Both ends of a slice. -/
def sliceBounds (length : Nat) (start stop : Value) : Except Fault (Nat × Nat) := do
  let lo ← clamp length 0 start
  let hi ← clamp length length stop
  .ok (lo, hi)

/-- The items from one place up to another one. -/
def between {α : Type} (lo hi : Nat) (items : List α) : List α :=
  (items.take hi).drop lo

/-- The item at a place, which counts from the end when it is negative. -/
def itemAt? {α : Type} (items : List α) (i : Int) : Option α :=
  if 0 ≤ i then items[i.toNat]?
  else if -items.length ≤ i then items[(items.length + i).toNat]?
  else none

/-! ## Texts -/

/-- An end of a part of a text: undefined is zero and so are negative numbers. -/
def substringEnd (v : Value) : Except Fault Value :=
  match v with
  | .undefined => .ok (.ofInt 0)
  | _ => do
    let n ← v.toNumber
    .ok (.number (if Number.lt n (.int 0) then .int 0 else n))

/-- A part of a text between two places in either order. -/
def substring (s : List Char) (start stop : Value) : Except Fault (List Char) := do
  let lo ← substringEnd start
  let hi ← substringEnd stop
  let (lo, hi) ← sliceBounds s.length lo (if stop.category == .undefined then .undefined else hi)
  .ok (between (min lo hi) (max lo hi) s)

/-- The pieces of a text between separators.  Undefined separates nothing, the empty text separates
the characters; any other value whose text is empty is refused. -/
def pieces (s : List Char) (separator : Value) : Except Fault (List (List Char)) :=
  match separator with
  | .undefined => .ok [s]
  | .string "" => .ok (s.map fun c => [c])
  | _ => do
    let mark ← separator.toText
    if mark.isEmpty then .error (.trouble .emptySeparator)
    else .ok (Text.splitOn mark.toList s)

/-- The first pieces, as many as asked; a negative number leaves out so many at the end. -/
def limited {α : Type} (items : List α) (limit : Value) : Except Fault (List α) :=
  match limit with
  | .undefined => .ok items
  | _ => do
    let n ← limit.toInt
    .ok (items.take (if n < 0 then items.length + n else n).toNat)

/-- What fills a text up to a width. -/
def padding (s : List Char) (width fill : Value) : Except Fault (List Char) := do
  let width ← width.toInt
  let fill ← if fill.category == .undefined then .ok " " else fill.toText
  let needed := width - s.length
  if needed ≤ 0 || fill.isEmpty then .ok []
  else do
    let filler ← liftNumber (Text.repeated fill (needed / fill.length + 1))
    .ok (filler.toList.take needed.toNat)

/-- The place of an occurrence as a value. -/
def placeOrMinus (i : Option Nat) : Value :=
  .ofInt (i.elim (-1) Int.ofNat)

/-- Texts as a list with the given label. -/
def stringArray (label : Label) (texts : List (List Char)) : Value :=
  .array label (texts.map fun cs => .string (String.ofList cs))

/-- A method of a text. -/
def callString (label : Label) (m : StringMethod) (text : String) (args : List Value) :
    Except Fault Value :=
  let s := text.toList
  let ofChars (cs : List Char) : Value := .string (String.ofList cs)
  match m, args with
  | .toUpperCase, [] => .ok (.string (Text.upper text))
  | .toLowerCase, [] => .ok (.string (Text.lower text))
  | .trim, [] => .ok (ofChars (Text.trim s))
  | .trimStart, [] => .ok (ofChars (Text.trimStart s))
  | .trimEnd, [] => .ok (ofChars (Text.trimEnd s))
  | .includes, sub :: _ => do .ok (.bool (Text.occursIn (← sub.toText).toList s))
  | .startsWith, sub :: _ => do .ok (.bool ((← sub.toText).toList.isPrefixOf s))
  | .endsWith, sub :: _ => do .ok (.bool ((← sub.toText).toList.isSuffixOf s))
  | .indexOf, sub :: _ => do .ok (placeOrMinus (Text.find? (← sub.toText).toList s))
  | .lastIndexOf, sub :: _ => do .ok (placeOrMinus (Text.findLast? (← sub.toText).toList s))
  | .slice, [] => .ok (.string text)
  | .slice, [start] => do
    let (lo, hi) ← sliceBounds s.length start .undefined
    .ok (ofChars (between lo hi s))
  | .slice, [start, stop] => do
    let (lo, hi) ← sliceBounds s.length start stop
    .ok (ofChars (between lo hi s))
  | .substring, [] => .ok (.string text)
  | .substring, [start] => (substring s start .undefined).map ofChars
  | .substring, [start, stop] => (substring s start stop).map ofChars
  | .split, [] => .ok (stringArray label [s])
  | .split, [mark] => (pieces s mark).map (stringArray label)
  | .split, [mark, limit] => do
    let parts ← pieces s mark
    .ok (stringArray label (← limited parts limit))
  | .replace, [old, new] => do
    let old ← old.toText
    let new ← new.toText
    .ok (ofChars (Text.replaceFirst old.toList new.toList s))
  | .replaceAll, [old, new] => do
    let old ← old.toText
    let new ← new.toText
    .ok (ofChars (Text.replaceAll old.toList new.toList s))
  | .repeat, [count] => do .ok (.string (← liftNumber (Text.repeated text (← count.toInt))))
  | .padStart, [width] => do .ok (ofChars ((← padding s width .undefined) ++ s))
  | .padStart, [width, fill] => do .ok (ofChars ((← padding s width fill) ++ s))
  | .padEnd, [width] => do .ok (ofChars (s ++ (← padding s width .undefined)))
  | .padEnd, [width, fill] => do .ok (ofChars (s ++ (← padding s width fill)))
  | .charAt, [] => .ok (ofChars (s.take 1))
  | .charAt, [i] => do
    let i ← i.toInt
    .ok (ofChars (if 0 ≤ i then (s[i.toNat]?).toList else []))
  | .at, [i] => do
    let i ← i.toInt
    .ok ((itemAt? s i).elim .undefined fun c => ofChars [c])
  | .concat, others => do
    let texts ← others.mapM toText
    .ok (.string (text ++ String.join texts))
  | .toString, [] => .ok (.string text)
  | _, _ => .error (m.signature.refuse (args.length + 1))

/-! ## Lists -/

/-- The items of the lists among the values, and the other values themselves. -/
def flatten (items : List Value) : List Value :=
  items.flatMap fun v =>
    match v with
    | .array _ inner => inner
    | _ => [v]

/-- The items with commas, or another text, between them. -/
def join (separator : Value) (items : List Value) : Except Fault Value := do
  let mark ← if separator.category == .undefined then .ok "," else separator.toText
  .ok (.string (mark.intercalate (← itemTexts items)))

/-- The place of the first item strictly equal to a value, from a place on. -/
def indexOf (items : List Value) (target start : Value) : Except Fault Value := do
  let lo ← clamp items.length 0 start
  .ok (placeOrMinus (((items.drop lo).findIdx? fun v => strictEq v target).map (· + lo)))

/-- Runs a function on each item and its place, from place `i` on. -/
def mapItems (call : Caller) (f : Value) (i : Nat) : List Value → Except Fault (List Value)
  | [] => .ok []
  | v :: vs => do
    let r ← call i f [v, .ofInt i]
    .ok (r :: (← mapItems call f (i + 1) vs))

/-- The items for which a function gives something that counts as true. -/
def filterItems (call : Caller) (f : Value) (i : Nat) : List Value → Except Fault (List Value)
  | [] => .ok []
  | v :: vs => do
    let keep ← (← call i f [v, .ofInt i]).truthy
    let rest ← filterItems call f (i + 1) vs
    .ok (if keep then v :: rest else rest)

/-- The first item for which a function's result counts as `wanted`, with its place. -/
def findItem (call : Caller) (f : Value) (wanted : Bool) (i : Nat) :
    List Value → Except Fault (Option (Nat × Value))
  | [] => .ok none
  | v :: vs => do
    if (← (← call i f [v, .ofInt i]).truthy) == wanted then .ok (some (i, v))
    else findItem call f wanted (i + 1) vs

/-- Combines the items from left to right, from place `i` on. -/
def reduceItems (call : Caller) (f : Value) (i : Nat) (acc : Value) :
    List Value → Except Fault Value
  | [] => .ok acc
  | v :: vs => do
    let acc ← call i f [acc, v, .ofInt i]
    reduceItems call f (i + 1) acc vs

/-- A method of a list. -/
def callArray (call : Caller) (label : Label) (m : ArrayMethod) (items : List Value)
    (args : List Value) : Except Fault Value :=
  match m, args with
  | .join, [] => join (.string ",") items
  | .join, [mark] => join mark items
  | .includes, x :: _ => .ok (.bool (items.any fun v => strictEq v x || bothNaN v x))
  | .indexOf, [x] => indexOf items x (.ofInt 0)
  | .indexOf, [x, start] => indexOf items x start
  | .slice, [] => .ok (.array label items)
  | .slice, [start] => do
    let (lo, hi) ← sliceBounds items.length start .undefined
    .ok (.array label (between lo hi items))
  | .slice, [start, stop] => do
    let (lo, hi) ← sliceBounds items.length start stop
    .ok (.array label (between lo hi items))
  | .concat, others => .ok (.array label (items ++ flatten others))
  | .at, [i] => do .ok ((itemAt? items (← i.toInt)).getD .undefined)
  | .flat, [] => .ok (.array label (flatten items))
  | .map, [f] => (mapItems call f 0 items).map (.array label)
  | .filter, [f] => (filterItems call f 0 items).map (.array label)
  | .find, [f] => (findItem call f true 0 items).map fun r => r.elim .undefined (·.2)
  | .findIndex, [f] => (findItem call f true 0 items).map fun r => placeOrMinus (r.map (·.1))
  | .some, [f] => (findItem call f true 0 items).map fun r => .bool r.isSome
  | .every, [f] => (findItem call f false 0 items).map fun r => .bool r.isNone
  | .reduce, f :: initial :: _ => reduceItems call f 0 initial items
  | .reduce, [f] =>
    match items with
    | first :: rest => reduceItems call f 1 first rest
    | [] => .error (.because .emptyReduce)
  | .toReversed, [] => .ok (.array label items.reverse)
  | .toString, [] => (toText (.array label items)).map .string
  | _, _ => .error (m.signature.refuse (args.length + 1))

/-! ## Numbers -/

/-- A number with a fixed count of places. -/
def toFixed (v places : Value) : Except Fault Value := do
  let n ← v.toNumber
  let places ← places.toInt
  .ok (.string (← liftNumber (n.fixed places)))

/-- A method of a number or a truth value. -/
def callNumber (m : NumberMethod) (v : Value) (args : List Value) : Except Fault Value :=
  match m, args with
  | .toFixed, [] => toFixed v (.ofInt 0)
  | .toFixed, [places] => toFixed v places
  | .toString, [] => v.toText.map .string
  | _, _ => .error (m.signature.refuse (args.length + 1))

/-- A method of a value. -/
def callMethod (call : Caller) (label : Label) (m : Method) (receiver : Value)
    (args : List Value) : Except Fault Value :=
  match m, receiver with
  | .string m, .string s => callString label m s args
  | .array m, .array _ items => callArray call label m items args
  | .number m, v => callNumber m v args
  | _, v => .error (.because (.notAFunction v.typeName))

/-! ## Functions -/

/-- The value as JSON, on one line or with an indent, which a text does without. -/
def stringify (v indent : Value) : Except Fault Value :=
  if v.category == .undefined then .ok .undefined
  else do
    let data ← v.exported
    if indent.isNothing then .ok (.string (Json.write .compact data))
    else
      let width ← indent.toInt
      let unit ← if v.isString then .ok "" else liftNumber (Json.indentUnit width)
      .ok (.string (Json.write (.indented unit) data))

/-- The value that a JSON text spells. -/
def parseJson (label : Label) (v : Value) : Except Fault Value := do
  match Json.read (← v.toText) with
  | .ok d => .ok (ofDatum label d)
  | .error (.malformed flaw) => .error (.because (.invalidJson flaw))
  | .error (.longInteger digits) => .error (.trouble (.longDigits digits))
  | .error .tooDeep => .error .tooDeep

/-- A function of one number with an integer result. -/
def onNumber (f : Number → Except Trouble Int) (v : Value) : Except Fault Value := do
  .ok (.ofInt (← liftNumber (f (← v.toNumber))))

/-- The number among the arguments that comes before all others. -/
def extreme (before : Number → Number → Bool) (ifNone : Float) (args : List Value) :
    Except Fault Value := do
  let numbers ← args.mapM toNumber
  match numbers with
  | [] => .ok (.number (.float ifNone))
  | first :: rest =>
    if ← numbers.anyM fun n => liftNumber n.isNaN then .ok (.number .nan)
    else .ok (.number (Number.pick before first rest))

/-- A list of a key and a value. -/
def pairArray (label : Label) (entry : Value × Value) : Value :=
  .array label [entry.1, entry.2]

/-- The entries of an object; other values have none. -/
def entriesOf : Value → Entries
  | .object _ entries => entries
  | _ => []

/-- A function that every expression can name. -/
def callBuiltin (label : Label) (f : Builtin) (args : List Value) : Except Fault Value :=
  match f, args with
  | .floor, [v] => onNumber Number.floor v
  | .ceil, [v] => onNumber Number.ceil v
  | .trunc, [v] => onNumber Number.truncate v
  | .round, [v] => do .ok (.number (← liftNumber (Number.round (← v.toNumber))))
  | .abs, [v] => do .ok (.number (Number.abs (← v.toNumber)))
  | .sign, [v] => do .ok (.number (Number.sign (← v.toNumber)))
  | .sqrt, [v] => do .ok (.number (← liftNumber (Number.sqrt (← v.toNumber))))
  | .pow, [a, b] => arithmetic Number.pow a b
  | .min, args => extreme Number.lt (Double.infinity false) args
  | .max, args => extreme (fun a b => Number.lt b a) (Double.infinity true) args
  | .stringify, [v] => stringify v .undefined
  | .stringify, [v, _] => stringify v .undefined
  | .stringify, [v, _, indent] => stringify v indent
  | .parse, [v] => parseJson label v
  | .string, [] => .ok (.string "")
  | .string, [v] => v.toText.map .string
  | .number, [] => .ok (.ofInt 0)
  | .number, [v] => v.toNumber.map .number
  | .boolean, [] => .ok (.bool false)
  | .boolean, [v] => v.truthy.map .bool
  | .isArray, [.array _ _] => .ok (.bool true)
  | .isArray, [_] => .ok (.bool false)
  | .keys, [v] => .ok (.array label ((entriesOf v).map fun (k, _) => k))
  | .values, [v] => .ok (.array label ((entriesOf v).map fun (_, x) => x))
  | .entries, [v] =>
    .ok (.array label ((entriesOf v).mapIdx fun i entry => pairArray (i :: label) entry))
  | _, _ => .error (f.signature.refuse args.length)

end Value
end Atoll
