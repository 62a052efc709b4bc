import JobShell.Line.Lexer
import JobShell.Name

/-!
# Command lines

A line is empty, a list of assignments for the session, or a pipeline.
`Line.parse` reads one from its tokens in three passes, which fixes the
fault that is reported when there are several: first the background mark,
then the segments between pipes from left to right, then missing commands.
-/

namespace JobShell

open Line (Token SyntaxFault)

/-- What a line asks for. -/
inductive Line
  | empty
  /-- Names and values, in the order they are written. -/
  | assignments (pairs : List (String × String))
  | pipeline (p : Pipeline)

namespace Line

/-- The tokens in front of the background mark, and whether there is none.
The mark has to be the last token. -/
def splitBackground (tokens : List Token) : Except SyntaxFault (List Token × Bool) :=
  match tokens.span (· != .background) with
  | (all, []) => .ok (all, true)
  | (front, [_]) => .ok (front, false)
  | (_, _ :: _ :: _) => .error .misplacedBackground

/-- The stretches of tokens between pipes; there is always at least one. -/
def segments : List Token → List (List Token)
  | [] => [[]]
  | .pipe :: rest => [] :: segments rest
  | token :: rest =>
    match segments rest with
    | [] => [[token]]
    | first :: others => (token :: first) :: others

/-- A segment with its words sorted by the role they play. -/
structure Segment where
  /-- The leading words that are assignments, in order. -/
  assignments : List (String × String) := []
  argv : List String := []
  redirections : List Redirection := []

namespace Segment

/-- The segment with one more word. A bare assignment word in front of all
arguments is an assignment. -/
def addWord (s : Segment) (text : String) (quoted : Bool) : Segment :=
  match s.argv, quoted, assignment? text with
  | [], false, some pair => { s with assignments := s.assignments ++ [pair] }
  | _, _, _ => { s with argv := s.argv ++ [text] }

/-- The segment with one more redirection. -/
def addRedirection (s : Segment) (fd : Option Nat) (direction : Direction) (path : String) :
    Segment :=
  let fd : Int := match fd with | some n => n | none => direction.standard
  { s with redirections := s.redirections ++ [⟨fd, direction, .ofString path⟩] }

/-- Sorts the tokens of one segment. -/
def read (s : Segment) : List Token → Except SyntaxFault Segment
  | [] => .ok s
  | .word text quoted :: rest => read (s.addWord text quoted) rest
  | .redirect fd direction :: .word path _ :: rest => read (s.addRedirection fd direction path) rest
  | .redirect _ _ :: _ => .error .missingFileName
  | .pipe :: rest | .background :: rest => read s rest

/-- The stage a segment describes. Of two assignments to one name the later
one counts. -/
def stage (s : Segment) : Stage where
  command := s.argv.headD ""
  argv := s.argv
  redirections := s.redirections
  vars := s.assignments.foldl (fun vs (name, value) => vs.insert name value) ∅

end Segment

/-- What the segments of a line ask for. A lone segment of assignments is
for the session; any other segment needs a command. -/
def ofSegments (segments : List Segment) (foreground : Bool) : Except SyntaxFault Line :=
  match segments, foreground with
  | [⟨pairs, [], []⟩], true => .ok (.assignments pairs)
  | _, _ =>
    if segments.any (·.argv.isEmpty) then .error .missingCommand
    else .ok (.pipeline ⟨segments.map Segment.stage, foreground⟩)

/-- What a list of tokens asks for. -/
def ofTokens (tokens : List Token) : Except SyntaxFault Line :=
  if tokens = [] then .ok .empty
  else do
    let (tokens, foreground) ← splitBackground tokens
    let segments ← (segments tokens).mapM (Segment.read {})
    ofSegments segments foreground

/-- What a line asks for. -/
def parse (line : String) : Except SyntaxFault Line := do
  ofTokens (← lex line.toList)

end Line

end JobShell
