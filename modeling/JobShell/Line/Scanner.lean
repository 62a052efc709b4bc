import JobShell.Line.Lexer

/-!
# Tokens by a single pass

A second account of the lexer: one pass over the line that looks at each
character once and remembers only the kind of text it is in, the word begun,
and the tokens finished. It has no notion of rest or lookahead, so it states
the quoting rules character by character.
-/

namespace JobShell.Line.Scanner

open Text (isBlank)

/-- The kind of text the next character belongs to. -/
inductive Mode
  | between
  | bare
  | single
  | double
  /-- Right behind a backslash outside quotes. -/
  | bareEscape
  /-- Right behind a backslash inside double quotes. -/
  | doubleEscape
  deriving DecidableEq, Repr

/-- What the scan knows after a prefix of the line. -/
structure State where
  mode : Mode := .between
  draft : Draft := {}
  /-- The finished tokens, last one first. -/
  done : List Token := []

namespace State

/-- Ends the word begun, if any. -/
def finish (s : State) : State :=
  match s.mode with
  | .between => s
  | _ => { mode := .between, draft := {}, done := s.draft.word :: s.done }

/-- Adds an operator behind the finished words. -/
def operator (s : State) (token : Token) : State :=
  { s.finish with done := token :: s.finish.done }

/-- A redirection operator takes the word begun for its descriptor if that
is a single bare digit. -/
def redirection (s : State) (direction : Direction) : State :=
  match s.draft.digit? with
  | some digit =>
    { mode := .between, draft := {}, done := .redirect (some digit) direction :: s.done }
  | none => s.operator (.redirect none direction)

/-- The state behind `c`, outside quotes and escapes. -/
def plain (s : State) (c : Char) : State :=
  if c = '\'' then { s with mode := .single, draft := s.draft.appendQuoted [] }
  else if c = '"' then { s with mode := .double, draft := s.draft.appendQuoted [] }
  else if c = '\\' then { s with mode := .bareEscape, draft := s.draft.appendQuoted [] }
  else if isBlank c then s.finish
  else if c = '|' then s.operator .pipe
  else if c = '&' then s.operator .background
  else if c = '<' then s.redirection .input
  else if c = '>' then s.redirection .output
  else { s with mode := .bare, draft := s.draft.append [c] }

/-- The state behind `c`. -/
def step (s : State) (c : Char) : State :=
  match s.mode with
  | .between | .bare => s.plain c
  | .single =>
    if c = '\'' then { s with mode := .bare } else { s with draft := s.draft.append [c] }
  | .double =>
    if c = '"' then { s with mode := .bare }
    else if c = '\\' then { s with mode := .doubleEscape }
    else { s with draft := s.draft.append [c] }
  | .bareEscape => { s with mode := .bare, draft := s.draft.append [c] }
  | .doubleEscape =>
    { s with mode := .double,
             draft := s.draft.append (if isEscapable c then [c] else ['\\', c]) }

/-- The tokens of a line that ends in this state. -/
def result (s : State) : Except SyntaxFault (List Token) :=
  match s.mode with
  | .single => .error (.unterminated '\'')
  | .double | .doubleEscape => .error (.unterminated '"')
  | .between | .bare | .bareEscape => .ok s.finish.done.reverse

end State

/-- All tokens of a line. -/
def scan (line : List Char) : Except SyntaxFault (List Token) :=
  (line.foldl State.step {}).result

end JobShell.Line.Scanner
