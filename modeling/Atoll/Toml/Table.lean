import Atoll.Toml.Scalar

/-!
# Tables under construction

A TOML document fills one nested table, from top to bottom.  What may still be added depends on how a
table came about:

* a table with a header of its own cannot have a second one, and dotted keys cannot reach into it
  from elsewhere;
* tables made by dotted keys are closed in this sense from the next header on;
* what is written inline is frozen: nothing can be added to it or to its parts.

A header of an array of tables starts a new table, and what was said about the old one is forgotten.
-/

set_option autoImplicit false

namespace Atoll
namespace Toml

/-- The names on the way from the top to a value. -/
abbrev Key := List String

/-- The entries of a table. -/
abbrev Entries := List (String × Datum)

namespace Entries

/-- Changes the table under a key.  Tables that are missing on the way are made, and of an array of
tables the last one counts. -/
def modifyAt (change : Entries → Except Error Entries) : Key → Entries → Except Error Entries
  | [], table => change table
  | name :: rest, table =>
    match table.lookup name with
    | none => do
      let inner ← modifyAt change rest []
      .ok (table ++ [(name, .object inner)])
    | some (.object inner) => do
      let inner ← modifyAt change rest inner
      .ok (setEntry name (.object inner) table)
    | some (.array items) =>
      match items.getLast? with
      | some (.object inner) => do
        let inner ← modifyAt change rest inner
        .ok (setEntry name (.array (items.dropLast ++ [.object inner])) table)
      | _ => .error .malformed
    | some _ => .error .malformed

/-- Adds an entry under a name that is still free. -/
def add (name : String) (value : Datum) (table : Entries) : Except Error Entries :=
  if (table.lookup name).isSome then .error .malformed else .ok (table ++ [(name, value)])

/-- Starts another table in the array of tables under a name. -/
def addTable (name : String) (table : Entries) : Except Error Entries :=
  match table.lookup name with
  | none => .ok (table ++ [(name, .array [.object []])])
  | some (.array items) => .ok (setEntry name (.array (items ++ [.object []])) table)
  | some _ => .error .malformed

/-- Changes the table in which the last name of a key stands, given that name. -/
def modifyLast (change : String → Entries → Except Error Entries) (key : Key) (table : Entries) :
    Except Error Entries :=
  match key.getLast? with
  | some name => modifyAt (change name) key.dropLast table
  | none => .error .malformed

end Entries

/-- A document as far as it has been read: its entries, the tables that cannot be opened again, those
that will be closed by the next header, and the keys of what was written inline. -/
structure Document where
  entries : Entries
  closed : List Key
  closing : List Key
  frozen : List Key
  deriving Repr, Inhabited

namespace Document

/-- The empty document. -/
def empty : Document :=
  ⟨[], [], [], []⟩

/-- Whether a key is, or lies below, the key of something written inline. -/
def isFrozen (d : Document) (key : Key) : Bool :=
  d.frozen.any fun k => k.isPrefixOf key

/-- Closes what the next header closes. -/
def settle (d : Document) : Document :=
  { d with closed := d.closing ++ d.closed, closing := [] }

/-- Opens the table of a header. -/
def openTable (d : Document) (key : Key) : Except Error Document := do
  let d := d.settle
  if d.closed.contains key || d.isFrozen key then .error .malformed
  else
    let entries ← d.entries.modifyAt .ok key
    .ok { d with entries := entries, closed := key :: d.closed }

/-- Starts another table of the array of a header. -/
def openArray (d : Document) (key : Key) : Except Error Document := do
  let d := d.settle
  if d.isFrozen key then .error .malformed
  else
    let entries ← Entries.modifyLast Entries.addTable key d.entries
    let keep := fun (k : Key) => !key.isPrefixOf k
    .ok { d with
      entries := entries, closed := key :: d.closed.filter keep, frozen := d.frozen.filter keep }

/-- Whether a value has parts. -/
def hasParts : Datum → Bool
  | .array _ => true
  | .object _ => true
  | _ => false

/-- Sets a value.  Its key counts from the last header. -/
def assign (d : Document) (header key : Key) (value : Datum) : Except Error Document := do
  let onTheWay := (List.range (key.length - 1)).map fun i => header ++ key.take (i + 1)
  if onTheWay.any d.closed.contains || d.isFrozen (header ++ key.dropLast) then .error .malformed
  else
    let entries ← Entries.modifyLast (fun name => Entries.add name value) (header ++ key) d.entries
    .ok { d with
      entries := entries, closing := onTheWay ++ d.closing,
      frozen := if hasParts value then (header ++ key) :: d.frozen else d.frozen }

end Document

end Toml
end Atoll
