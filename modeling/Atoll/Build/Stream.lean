import Atoll.Build.Cleanup
import Atoll.Build.Emission
import Atoll.Markup.Node.Parser

/-!
# Building and streaming

`markup` gives the whole output of a document.  `stream` writes it in chunks to a sink: pieces are
gathered until they are as long as the chunk size, and what is left is written at the end.  The sink
may refuse a chunk, which ends the stream.
-/

set_option autoImplicit false

namespace Atoll
namespace Build

open Atoll.Expr (Fault)
open Markup (Fragment)

/-- The output as a whole, tidied when it is pretty. -/
def finish (o : Options) (html : String) : String :=
  if o.pretty then tidy html else html

/-- The markup of a document. -/
def markup (f : Fragment) (o : Options) : Except Fault String :=
  (emission f o).toText.map (finish o)

/-- The markup of a source text. -/
def compile (source : String) (o : Options) : Except Fault String :=
  markup (Markup.parse source).tree o

/-! ## Streaming -/

/-- How a stream ended: with everything written, with a chunk that the sink refused, or with a
fault. -/
inductive Ending where
  | finished
  | refused
  | stopped (fault : Fault)
  deriving Repr

/-- The chunks that the sink took, all chunks that it was offered, and how the stream ended.  The
last chunk on offer is the one that a sink may have refused. -/
structure Streamed where
  chunks : List String
  offered : List String
  ending : Ending
  deriving Repr

/-- A sink says whether it takes a chunk when it has taken so many before. -/
abbrev Sink := Nat → Bool

/-- The cleanup of pretty output; other output is passed on as it is. -/
def filterPiece (cleanup : Option Cleanup) (piece : String) : Option Cleanup × String :=
  match cleanup with
  | some c => let (c, out) := c.feed piece; (some c, out)
  | none => (none, piece)

/-- What the cleanup still has to write at the end. -/
def filterEnd (cleanup : Option Cleanup) : String :=
  match cleanup with
  | some c => c.close.2
  | none => ""

/-- Streams pieces.  `buffer` is what has been gathered, `written` the chunks so far. -/
def streamFrom (sink : Sink) (size : Nat) (fault : Option Fault) (cleanup : Option Cleanup)
    (buffer : String) (written : List String) : List String → Streamed
  | [] =>
    match fault with
    | some fault => ⟨written, written, .stopped fault⟩
    | none =>
      let tail := buffer ++ filterEnd cleanup
      if tail.isEmpty then ⟨written, written, .finished⟩
      else if sink written.length then ⟨written ++ [tail], written ++ [tail], .finished⟩
      else ⟨written, written ++ [tail], .refused⟩
  | piece :: pieces =>
    let (cleanup, out) := filterPiece cleanup piece
    let buffer := buffer ++ out
    if out.isEmpty || buffer.length < size then
      streamFrom sink size fault cleanup buffer written pieces
    else if sink written.length then
      streamFrom sink size fault cleanup "" (written ++ [buffer]) pieces
    else ⟨written, written ++ [buffer], .refused⟩

/-- Streams pieces to a sink. -/
def streamPieces (e : Emission String) (o : Options) (sink : Sink) : Streamed :=
  let cleanup := if o.pretty then some Cleanup.start else none
  streamFrom sink o.chunkLength e.fault cleanup "" [] e.pieces

/-- Streams a document to a sink. -/
def stream (f : Fragment) (o : Options) (sink : Sink) : Streamed :=
  streamPieces (emission f o) o sink

end Build
end Atoll
