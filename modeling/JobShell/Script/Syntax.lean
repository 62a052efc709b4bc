import JobShell.Machine.Slots
import JobShell.Name

/-!
# The language of scripts

Commands and words of the command interpreter. A word is kept in parts,
because quoting decides what happens to the text of each part when the word
is expanded.
-/

namespace JobShell.Script

/-- What is done with the value of a parameter. -/
inductive ParameterUse
  | value
  | length
  /-- An operator such as `:-` or `%%` that takes a word. -/
  | operator (symbol : String)
  deriving DecidableEq, Repr

/-- What a redirection does. -/
inductive RedirectKind
  | input
  | output
  /-- Creates or empties the file even where that is protected. -/
  | overwrite
  | append
  | update
  /-- Makes the descriptor a duplicate of another one, or closes it. -/
  | duplicate
  /-- Gives the document with this number as input. -/
  | document (number : Nat)
  deriving DecidableEq, Repr

mutual

/-- A part of a word. `quoted` parts are neither split nor taken for
patterns. -/
inductive WordPart
  | text (s : String) (quoted : Bool)
  | parameter (name : String) (use : ParameterUse) (operand : List WordPart) (quoted : Bool)
  /-- A parameter that is written wrongly; that is noticed when it is used. -/
  | badParameter
  /-- The output of a command. -/
  | output (body : Command) (quoted : Bool)
  | arithmetic (expression : List WordPart) (quoted : Bool)
  /-- The home directory. -/
  | home

/-- A redirection of a command. -/
inductive Redirect
  | of (fd : Fd) (kind : RedirectKind) (target : List WordPart)

/-- A command, with the number of its line where messages need it. -/
inductive Command
  | nothing
  | simple (line : Nat) (assignments : List (String × List WordPart))
      (words : List (List WordPart)) (redirects : List Redirect)
  | pipeline (negated : Bool) (stages : List Command)
  | both (a b : Command)
  | either (a b : Command)
  | sequence (a b : Command)
  | background (a : Command)
  | subshell (line : Nat) (body : Command) (redirects : List Redirect)
  /-- A compound command with redirections. -/
  | redirected (line : Nat) (body : Command) (redirects : List Redirect)
  | choice (condition body otherwise : Command)
  /-- Repeats as long as the condition has the wanted outcome. -/
  | loop (wanted : Bool) (condition body : Command)
  /-- Without words the positional parameters are gone through. -/
  | forEach (line : Nat) (name : String) (words : Option (List (List WordPart)))
      (body : Command)
  | case_ (line : Nat) (subject : List WordPart)
      (clauses : List (List (List WordPart) × Command))
  | function (name : String) (body : Command)

end

/-- A word of a script, before it is expanded. -/
abbrev Word := List WordPart

namespace Word

/-- The text of a word that is not quoted anywhere. -/
def plainText? : Word → Option String
  | [.text s false] => some s
  | _ => none

/-- Puts text in front of the parts of a word. -/
def pushText (s : String) (quoted : Bool) (w : Word) : Word :=
  match w with
  | .text t q :: rest =>
    if q = quoted then .text (s ++ t) q :: rest else .text s quoted :: w
  | parts => .text s quoted :: parts

/-- Puts one part in front of the others. -/
def push (part : WordPart) (w : Word) : Word :=
  match part with
  | .text s quoted => w.pushText s quoted
  | part => part :: w

/-- The parts of a text in which a tilde stands for the home directory: at
the beginning if `start` holds, and with `colons` behind every colon. The
tilde has to be followed by a slash, by such a colon, or by the end of the
word, which the text reaches if `last` holds. -/
def textWithHomes (colons last : Bool) : (start : Bool) → List Char → Word
  | _, [] => []
  | start, c :: rest =>
    let ended := match rest with
      | [] => last
      | next :: _ => next = '/' || (colons && next = ':')
    if start && c = '~' && ended then .home :: textWithHomes colons last false rest
    else pushText c.toString false (textWithHomes colons last (colons && c = ':') rest)

/-- A word in which tildes stand for the home directory. -/
def withHomes (colons : Bool) : (start : Bool) → Word → Word
  | _, [] => []
  | start, .text s false :: rest =>
    textWithHomes colons rest.isEmpty start s.toList ++
      withHomes colons (colons && s.toList.getLast? = some ':') rest
  | _, part :: rest => part :: withHomes colons false rest

/-- The name and the value of a word that is an assignment. -/
def assignment? : Word → Option (String × Word)
  | .text s false :: rest =>
    match splitAtEquals s.toList with
    | some (name, value) =>
      if isName name then
        let parts := if value = [] then rest else .text (String.ofList value) false :: rest
        some (String.ofList name, withHomes true true parts)
      else none
    | none => none
  | _ => none

/-- The text of a word that delimits a document, and whether any of it is
quoted. -/
def delimiter (w : Word) : String × Bool :=
  (String.join (w.map fun part => match part with
    | .text s _ => s
    | _ => ""),
   w.any fun part => match part with
    | .text _ quoted => quoted
    | _ => false)

end Word

/-- The builtin commands whose wrong use ends the script, and in front of
which assignments stay. -/
def specialBuiltins : List String :=
  ["break", ":", "continue", ".", "eval", "exec", "exit", "export", "local", "readonly",
   "return", "set", "shift", "times", "trap", "unset"]

/-- The builtin commands whose arguments may be assignments. -/
def declaringBuiltins : List String := ["export", "local", "readonly"]

/-- What scripts are made of. -/
inductive Token
  | endOfFile
  | newline
  | semicolon
  | background
  | both
  | either
  | pipe
  | opening
  | closing
  /-- The end of a clause of `case`. -/
  | clauseEnd
  | redirection (fd : Fd) (kind : RedirectKind)
  /-- The request for a document, whose lines may lose their leading tabs. -/
  | document (fd : Fd) (strip : Bool)
  | word (w : Word)
  | reserved (name : String)

/-- A token as messages name it. -/
def Token.render : Token → String
  | endOfFile => "end of file"
  | newline => "newline"
  | semicolon => "\";\""
  | background => "\"&\""
  | both => "\"&&\""
  | either => "\"||\""
  | pipe => "\"|\""
  | opening => "\"(\""
  | closing => "\")\""
  | clauseEnd => "\";;\""
  | redirection _ _ | document _ _ => "redirection"
  | word _ => "word"
  | reserved name => "\"" ++ name ++ "\""

/-- Why a script is not accepted. -/
inductive Fault
  | unterminatedQuote
  | unterminatedOutput
  /-- The end of an expansion is missing. -/
  | missing (closer : String)
  | badLoopVariable
  | badFunctionName
  /-- A token that may not stand where it does, and what was expected. -/
  | unexpected (token : Token) (expected : Option Token)
  /-- Commands are nested too deeply. -/
  | tooDeep

/-- The wording of a fault. -/
def Fault.message (f : Fault) : String :=
  "Syntax error: " ++ match f with
    | unterminatedQuote => "Unterminated quoted string"
    | unterminatedOutput => "EOF in backquote substitution"
    | missing closer => "Missing '" ++ closer ++ "'"
    | badLoopVariable => "Bad for loop variable"
    | badFunctionName => "Bad function name"
    | unexpected token none => token.render ++ " unexpected"
    | unexpected token (some expected) =>
      token.render ++ " unexpected (expecting " ++ expected.render ++ ")"
    | tooDeep => "Too many nested commands"

end JobShell.Script
