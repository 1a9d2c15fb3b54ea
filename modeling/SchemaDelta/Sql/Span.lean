import SchemaDelta.Text.Bytes

/-!
# Spans

A span is the half-open range of bytes that a token, a definition or a statement
occupies in its source.
-/

namespace SchemaDelta.Sql

structure Span where
  start : Nat
  stop : Nat
  deriving Repr, DecidableEq, Inhabited

namespace Span

def point (offset : Nat) : Span :=
  ⟨offset, offset⟩

/-- The number of bytes covered, unless the span ends before it starts. -/
def length? (span : Span) : Option Nat :=
  if span.start ≤ span.stop then some (span.stop - span.start) else none

def isEmpty (span : Span) : Bool :=
  span.start == span.stop

/-- The smallest span that covers both. -/
def merge (a b : Span) : Span :=
  ⟨min a.start b.start, max a.stop b.stop⟩

/-- The text covered by the span; empty when the span does not lie in the
source on character boundaries. -/
def text (span : Span) (source : List Char) : String :=
  String.ofList (Text.slice span.start span.stop source)

end Span

end SchemaDelta.Sql
