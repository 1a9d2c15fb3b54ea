import SchemaDelta.Proofs.Lexing.Piece
import SchemaDelta.Sql.Parser.Basic

/-!
# Running parsers

The outcome of a parser is a result and an input.  One equation for each
primitive says what it does to its input.
-/

namespace SchemaDelta.Sql.Parser

variable {α β : Type}

/-- What a parser makes of an input: a result, and the input that is left. -/
def parse (p : Parser α) (input : Input) : Except ParseError α × Input :=
  p.run input

/-! ## The monad -/

theorem parse_pure (a : α) (input : Input) : (pure a : Parser α).parse input = (.ok a, input) := rfl

theorem parse_bind (p : Parser α) (f : α → Parser β) (input : Input) :
    (p >>= f).parse input = match p.parse input with
      | (.ok a, after) => (f a).parse after
      | (.error error, after) => (.error error, after) := by
  simp only [parse, ExceptT.run, bind, ExceptT.bind, ExceptT.mk, StateT.bind]
  cases p input with
  | mk result after => cases result <;> rfl

/-- A successful sequence comes from two successful parsers. -/
theorem exists_of_parse_bind {p : Parser α} {f : α → Parser β} {input after : Input} {b : β}
    (h : (p >>= f).parse input = (.ok b, after)) :
    ∃ a middle, p.parse input = (.ok a, middle) ∧ (f a).parse middle = (.ok b, after) := by
  rw [parse_bind] at h
  split at h
  next a middle hp => exact ⟨a, middle, hp, h⟩
  next => simp at h

theorem parse_get (input : Input) : (get : Parser Input).parse input = (.ok input, input) := rfl

theorem parse_set (new input : Input) :
    (set new : Parser Unit).parse input = (.ok (), new) := rfl

theorem parse_modify (f : Input → Input) (input : Input) :
    (modify f : Parser Unit).parse input = (.ok (), f input) := rfl

theorem parse_throw (error : ParseError) (input : Input) :
    (throw error : Parser α).parse input = (.error error, input) := rfl

theorem parse_tryCatch (p : Parser α) (handler : ParseError → Parser α) (input : Input) :
    (tryCatch p handler).parse input = match p.parse input with
      | (.ok a, after) => (.ok a, after)
      | (.error error, after) => (handler error).parse after := by
  simp only [parse, ExceptT.run, tryCatch, tryCatchThe, ExceptT.tryCatch, MonadExceptOf.tryCatch,
    ExceptT.mk, bind, StateT.bind]
  cases p input with
  | mk result after => cases result <;> rfl

/-! ## Single tokens -/

theorem parse_current (input : Input) : current.parse input = (.ok input.current, input) := rfl

theorem parse_advance (input : Input) : advance.parse input = (.ok (), input.advance) := rfl

theorem parse_fail (span : Span) (problem : ParseProblem) (input : Input) :
    (fail span problem : Parser α).parse input = (.error (.ofProblem problem span), input) := rfl

theorem parse_eat (test : TokenKind → Bool) (input : Input) :
    (eat test).parse input =
      if test input.current.kind then (.ok true, input.advance) else (.ok false, input) := by
  simp only [eat, parse_bind, parse_current]
  split <;> rfl

theorem parse_atKind (kind : TokenKind) (input : Input) :
    (atKind kind).parse input = (.ok (input.current.kind == kind), input) := rfl

/-- Failing where something else is expected never succeeds. -/
theorem parse_unexpected_ne_ok (expected : String) (input after : Input) (a : α) :
    (unexpected expected : Parser α).parse input ≠ (.ok a, after) := by
  simp only [unexpected, parse_bind, parse_current]
  split <;> simp [parse_fail]

end SchemaDelta.Sql.Parser

namespace SchemaDelta.Sql.Input

@[simp] theorem current_cons (source : List Char) (token : Token) (tokens : List Token)
    (stop : Token) (last : Nat) :
    current ⟨source, token :: tokens, stop, last⟩ = token := rfl

@[simp] theorem advance_cons (source : List Char) (token : Token) (tokens : List Token)
    (stop : Token) (last : Nat) :
    advance ⟨source, token :: tokens, stop, last⟩ = ⟨source, tokens, stop, token.span.stop⟩ := rfl

theorem current_nil {input : Input} (htokens : input.tokens = []) : input.current = input.stop := by
  rw [current, htokens]
  rfl

/-- Where the last token ended does not tell what stands there next. -/
@[simp] theorem current_lastStop (input : Input) (last : Nat) :
    current ⟨input.source, input.tokens, input.stop, last⟩ = input.current := rfl

end SchemaDelta.Sql.Input
