import Atoll.Text.Digit
import Atoll.Value.Entries

/-!
# Members of values

Objects have their entries, libraries their functions, texts and lists their length, their items and
their methods, numbers and truth values their methods.  Nothing else has members, and null and
undefined cannot even be asked.
-/

set_option autoImplicit false

namespace Atoll
namespace Value

open Atoll.Expr (Fault)

/-- Why a text of digits is not read as an integer: it has too many digits, or digits without a
decimal value. -/
def unreadDigits (s : String) : Trouble :=
  let count := (s.toList.takeWhile Text.isDecimal).length
  if Text.maxDigits < count then .longDigits count else .notDecimal s

/-- The place in a text or list that a key stands for: a whole number that is not negative, or a
text of digits. -/
def index? : Value → Except Fault (Option Nat)
  | .number n => do
    let x ← liftNumber n.toFloat
    if (Double.toInt? x).isSome && Number.le (.int 0) n then
      .ok (some (← liftNumber n.truncate).toNat)
    else .ok none
  | .string s =>
    if !s.isEmpty && s.toList.all Text.isDigit then
      match Decimal.readInt? s.toList with
      | some n => .ok (some n.toNat)
      | none => .error (.trouble (unreadDigits s))
    else .ok none
  | _ => .ok none

/-- A member that is not an item: the length, a method, or undefined. -/
def named (label : Label) (receiver : Value) (length : Nat) (method? : String → Option Method)
    (key : String) : Value :=
  if key == "length" then .ofInt length
  else
    match method? key with
    | some m => .method label m receiver
    | none => .undefined

/-- The member of a value under a key.  A method that is taken out of it gets the given label. -/
def member (label : Label) (v key : Value) : Except Fault Value :=
  match v with
  | .undefined => do .error (.because (.noProperty (← key.toText) "undefined"))
  | .null => do .error (.because (.noProperty (← key.toText) "null"))
  | .library l => do .ok ((l.member? (← key.toText)).getD .undefined)
  | .object _ entries => do .ok ((Entries.get? entries (← key.toText)).getD .undefined)
  | .string s => do
    match ← key.index? with
    | some i => .ok ((s.toList[i]?).elim .undefined fun c => .string c.toString)
    | none =>
      let method? := fun k => (StringMethod.table.lookup k).map Method.string
      .ok (named label v s.length method? (← key.toText))
  | .array _ items => do
    match ← key.index? with
    | some i => .ok (items[i]?.getD .undefined)
    | none =>
      let method? := fun k => (ArrayMethod.table.lookup k).map Method.array
      .ok (named label v items.length method? (← key.toText))
  | .number _ => do
    .ok ((NumberMethod.table.lookup (← key.toText)).elim .undefined fun m =>
      .method label (.number m) v)
  | .bool _ => do
    .ok ((NumberMethod.table.lookup (← key.toText)).elim .undefined fun m =>
      .method label (.number m) v)
  | _ => .ok .undefined

end Value
end Atoll
