import Atoll.Build.Stream
import Atoll.Proofs.Cleanup
import Atoll.Proofs.Emission

/-!
# Streaming agrees with building

`Build.stream` cuts the output of a document into chunks and hands them to a sink as it goes along;
`Build.markup` gives the same output as one text.  This file takes the stream apart into the two
things that it does at once, and compares each with the plain build.

* `cut` — the chunks that an output is cut into, whatever becomes of them.  Put together they are
  the output (`join_cut`), and they are of the right size (`cut_chunked`).
* `deliver` — handing chunks to a sink up to the first one that it refuses (`deliver_taken`,
  `deliver_refused`).
* `streamFrom_eq_deliver` — **a stream delivers the chunks that its pieces are cut into.**
* `stream_of_markup` — the result: a stream writes what `markup` gives, in chunks of the right size,
  and a sink that refuses a chunk keeps exactly the chunks before it.

Pretty output goes through the cleanup piece by piece here and as a whole there, which
`Cleanup.feedAll_start` shows to be the same.
-/

set_option autoImplicit false

namespace Atoll
namespace Build

open Markup (Fragment)

/-! ## Cutting an output into chunks -/

/-- The chunks of the pieces to come, behind what has been gathered in `buffer`. -/
def cut (size : Nat) (cleanup : Option Cleanup) (buffer : String) : List String → List String
  | [] =>
    if (buffer ++ filterEnd cleanup).isEmpty then [] else [buffer ++ filterEnd cleanup]
  | piece :: pieces =>
    if (filterPiece cleanup piece).2.isEmpty
        || (buffer ++ (filterPiece cleanup piece).2).length < size then
      cut size (filterPiece cleanup piece).1 (buffer ++ (filterPiece cleanup piece).2) pieces
    else
      (buffer ++ (filterPiece cleanup piece).2)
        :: cut size (filterPiece cleanup piece).1 "" pieces

/-- Everything that is written for the pieces to come, the end included. -/
def filtered (cleanup : Option Cleanup) : List String → String
  | [] => filterEnd cleanup
  | piece :: pieces =>
    (filterPiece cleanup piece).2 ++ filtered (filterPiece cleanup piece).1 pieces

theorem filtered_none (pieces : List String) : filtered none pieces = String.join pieces := by
  induction pieces with
  | nil => rfl
  | cons piece pieces ih => simp [filtered, filterPiece, ih]

theorem filtered_some (c : Cleanup) (pieces : List String) :
    filtered (some c) pieces = (c.feedAll pieces).2 ++ (c.feedAll pieces).1.close.2 := by
  induction pieces generalizing c with
  | nil => simp [filtered, filterEnd, Cleanup.feedAll]
  | cons piece pieces ih =>
    simp [filtered, filterPiece, Cleanup.feedAll, ih, String.append_assoc]

/-- What a stream filters is the finished output, pretty or not. -/
theorem filtered_eq_finish (o : Options) (pieces : List String) :
    filtered (if o.pretty then some Cleanup.start else none) pieces =
      finish o (String.join pieces) := by
  cases h : o.pretty with
  | false => simp [finish, h, filtered_none]
  | true => simp [finish, h, filtered_some, tidy_join]

/-- **The chunks put together are the output.** -/
theorem join_cut (size : Nat) (cleanup : Option Cleanup) (buffer : String)
    (pieces : List String) :
    String.join (cut size cleanup buffer pieces) = buffer ++ filtered cleanup pieces := by
  induction pieces generalizing cleanup buffer with
  | nil =>
    rw [cut, filtered]
    split
    · rename_i h
      rw [String.isEmpty_iff] at h
      simp [h]
    · simp
  | cons piece pieces ih =>
    rw [cut, filtered]
    split
    · rw [ih, String.append_assoc]
    · simp [ih, String.append_assoc]

/-- Chunks of the right size: none is empty, and all but the last are as long as they have to
be. -/
structure Chunked (size : Nat) (chunks : List String) : Prop where
  /-- Something stands in every chunk. -/
  nonempty : ∀ c ∈ chunks, c ≠ ""
  /-- Only the last chunk may be short. -/
  long : ∀ c ∈ chunks.dropLast, size ≤ c.length

theorem Chunked.nil (size : Nat) : Chunked size [] :=
  ⟨by simp, by simp⟩

theorem Chunked.cons {size : Nat} {c : String} {chunks : List String} (hc : c ≠ "")
    (hlong : size ≤ c.length) (h : Chunked size chunks) : Chunked size (c :: chunks) := by
  refine ⟨?_, ?_⟩
  · intro d hd
    rcases List.mem_cons.mp hd with rfl | hd
    · exact hc
    · exact h.nonempty d hd
  · intro d hd
    cases chunks with
    | nil => simp at hd
    | cons e es =>
      rw [List.dropLast_cons_cons] at hd
      rcases List.mem_cons.mp hd with rfl | hd
      · exact hlong
      · exact h.long d hd

/-- **All chunks are of the right size.**  A chunk is cut off in the middle of an output only when
the piece that came last added something to it and it has become long enough. -/
theorem cut_chunked (size : Nat) (cleanup : Option Cleanup) (buffer : String)
    (pieces : List String) : Chunked size (cut size cleanup buffer pieces) := by
  induction pieces generalizing cleanup buffer with
  | nil =>
    rw [cut]
    split
    · exact .nil size
    · rename_i h
      refine ⟨?_, by simp⟩
      intro c hc
      rw [List.mem_singleton] at hc
      subst hc
      intro he
      exact h (String.isEmpty_iff.mpr he)
  | cons piece pieces ih =>
    rw [cut]
    split
    · exact ih _ _
    · rename_i h
      simp only [Bool.or_eq_true, decide_eq_true_eq, not_or, Nat.not_lt] at h
      refine Chunked.cons ?_ h.2 (ih _ _)
      intro he
      exact h.1 (String.isEmpty_iff.mpr (String.append_eq_empty_iff.mp he).2)

/-! ## Handing chunks to a sink -/

/-- Hands chunks to a sink that has taken `written` before, up to the first one it refuses. -/
def deliver (sink : Sink) (written : List String) : List String → Streamed
  | [] => ⟨written, written, .finished⟩
  | c :: cs =>
    if sink written.length then deliver sink (written ++ [c]) cs
    else ⟨written, written ++ [c], .refused⟩

/-- A sink that refuses none of the chunks takes them all. -/
theorem deliver_taken {sink : Sink} {written cs : List String}
    (h : ∀ k, k < written.length + cs.length → sink k = true) :
    deliver sink written cs = ⟨written ++ cs, written ++ cs, .finished⟩ := by
  induction cs generalizing written with
  | nil => simp [deliver]
  | cons c cs ih =>
    rw [deliver, if_pos (h _ (by simp)), ih]
    · simp
    · intro k hk
      refine h k ?_
      simp only [List.length_append, List.length_cons, List.length_nil] at hk ⊢
      omega

/-- A sink that first refuses when it has taken `n` chunks keeps the first `n`, and is offered none
behind the one it refused. -/
theorem deliver_refused {sink : Sink} {n : Nat} {written cs : List String}
    (hbefore : ∀ k, k < n → sink k = true) (hn : sink n = false) (hwritten : written.length ≤ n)
    (hcs : n < written.length + cs.length) :
    deliver sink written cs =
      ⟨(written ++ cs).take n, (written ++ cs).take (n + 1), .refused⟩ := by
  induction cs generalizing written with
  | nil =>
    simp only [List.length_nil] at hcs
    omega
  | cons c cs ih =>
    rw [deliver]
    rcases Nat.lt_or_eq_of_le hwritten with hlt | heq
    · have hlen : (written ++ [c]).length = written.length + 1 := by simp
      have hle : (written ++ [c]).length ≤ n := by omega
      have hrest : n < (written ++ [c]).length + cs.length := by
        rw [hlen]
        simp only [List.length_cons] at hcs
        omega
      rw [if_pos (hbefore _ hlt), ih hle hrest]
      simp
    · subst heq
      have htake : (written ++ c :: cs).take (written.length + 1) = written ++ [c] := by
        rw [show written ++ c :: cs = (written ++ [c]) ++ cs by simp]
        exact List.take_left' (by simp)
      rw [if_neg (by simp [hn]), htake, List.take_left]

/-- **A stream delivers the chunks that its pieces are cut into.**  The loop cuts and delivers at
once; the induction is on the pieces, whatever has been gathered and written so far. -/
theorem streamFrom_eq_deliver (sink : Sink) (size : Nat) (cleanup : Option Cleanup)
    (buffer : String) (written pieces : List String) :
    streamFrom sink size none cleanup buffer written pieces =
      deliver sink written (cut size cleanup buffer pieces) := by
  induction pieces generalizing cleanup buffer written with
  | nil =>
    rw [streamFrom, cut]
    by_cases h : (buffer ++ filterEnd cleanup).isEmpty
    · simp [h, deliver]
    · simp [h, deliver]
  | cons piece pieces ih =>
    rw [streamFrom, cut]
    obtain ⟨next, out⟩ := filterPiece cleanup piece
    simp only
    split
    · exact ih _ _ _
    · rw [deliver, ih]

/-! ## Streaming a document -/

/-- The chunks that the pieces of an output are cut into. -/
def chunksOf (e : Emission String) (o : Options) : List String :=
  cut o.chunkLength (if o.pretty then some .start else none) "" e.pieces

theorem join_chunksOf (e : Emission String) (o : Options) :
    String.join (chunksOf e o) = finish o (String.join e.pieces) := by
  rw [chunksOf, join_cut, filtered_eq_finish, String.empty_append]

/-- A stream without faults delivers the chunks of its pieces. -/
theorem streamPieces_eq_deliver {e : Emission String} (o : Options) (sink : Sink)
    (h : e.fault = none) : streamPieces e o sink = deliver sink [] (chunksOf e o) := by
  rw [streamPieces, h, streamFrom_eq_deliver, chunksOf]

/-- A document that can be built has no fault among its pieces. -/
theorem emission_of_markup {f : Fragment} {o : Options} {html : String}
    (h : markup f o = .ok html) :
    (emission f o).fault = none ∧ finish o (String.join (emission f o).pieces) = html := by
  rw [markup] at h
  cases htext : (emission f o).toText with
  | error fault =>
    rw [htext] at h
    cases h
  | ok text =>
    rw [htext] at h
    rw [Emission.toText_eq_ok] at htext
    rw [htext.2]
    exact ⟨htext.1, Except.ok.inj h⟩

theorem chunkLength_le_iff (o : Options) (n : Nat) :
    o.chunkLength ≤ n ↔ max o.chunkSize 1 ≤ (n : Int) := by
  rw [Options.chunkLength, Int.toNat_le]

/-- **Streaming agrees with building.**  A document that can be built is streamed completely: the
chunks put together are its markup, none of them is empty, and all but the last have at least the
asked length.  A sink that first refuses a chunk when it has taken `n` keeps exactly the first `n`
chunks of the complete stream; the refusal ends the stream, and nothing more is offered. -/
theorem stream_of_markup {f : Fragment} {o : Options} {html : String}
    (h : markup f o = .ok html) :
    ∃ chunks : List String,
      (∀ sink : Sink, (∀ k, sink k = true) → stream f o sink = ⟨chunks, chunks, .finished⟩) ∧
      String.join chunks = html ∧
      (∀ c ∈ chunks, c ≠ "") ∧
      (∀ c ∈ chunks.dropLast, max o.chunkSize 1 ≤ (c.length : Int)) ∧
      ∀ (n : Nat) (sink : Sink), (∀ k, k < n → sink k = true) → sink n = false →
        stream f o sink =
          if n < chunks.length then ⟨chunks.take n, chunks.take (n + 1), .refused⟩
          else ⟨chunks, chunks, .finished⟩ := by
  obtain ⟨hfault, hhtml⟩ := emission_of_markup h
  have hstream : ∀ sink, stream f o sink = deliver sink [] (chunksOf (emission f o) o) :=
    fun sink => streamPieces_eq_deliver o sink hfault
  have hchunked : Chunked o.chunkLength (chunksOf (emission f o) o) := cut_chunked _ _ _ _
  refine ⟨chunksOf (emission f o) o, ?_, ?_, hchunked.nonempty, ?_, ?_⟩
  · intro sink htaken
    rw [hstream, deliver_taken fun k _ => htaken k, List.nil_append]
  · rw [join_chunksOf, hhtml]
  · intro c hc
    exact (chunkLength_le_iff o c.length).mp (hchunked.long c hc)
  · intro n sink hbefore hn
    rw [hstream]
    split
    · rename_i hlt
      rw [deliver_refused hbefore hn (by simp) (by simpa using hlt), List.nil_append]
    · rename_i hge
      rw [deliver_taken, List.nil_append]
      intro k hk
      rw [List.length_nil, Nat.zero_add] at hk
      exact hbefore k (by omega)

/-- A list with one entry, to be built. -/
def oneEntry : Fragment :=
  ⟨[.element "UL" []
      [.text "\n " .empty, .element "li" [] [.text "<" .empty] false .empty] false .empty], .empty⟩

/-- Pretty output in chunks as short as can be. -/
def prettyShort : Options :=
  { Options.default with pretty := true, chunkSize := -3 }

set_option maxRecDepth 4096 in
/-- The stream of a small document that is built pretty, refused at its second chunk. -/
theorem stream_of_markup_oneEntry :
    markup oneEntry prettyShort = .ok "<ul>\n  <li>&lt;</li>\n</ul>\n" ∧
      ∃ chunks : List String, String.join chunks = "<ul>\n  <li>&lt;</li>\n</ul>\n" ∧
        stream oneEntry prettyShort (fun k => k != 1) =
          if 1 < chunks.length then ⟨chunks.take 1, chunks.take 2, .refused⟩
          else ⟨chunks, chunks, .finished⟩ := by
  have h : markup oneEntry prettyShort = .ok "<ul>\n  <li>&lt;</li>\n</ul>\n" := rfl
  obtain ⟨chunks, -, hjoin, -, -, hrefused⟩ := stream_of_markup h
  refine ⟨h, chunks, hjoin, hrefused 1 _ ?_ (by decide)⟩
  intro k hk
  have hk0 : k = 0 := by omega
  rw [hk0]
  rfl

end Build
end Atoll
