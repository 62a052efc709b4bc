import JobShell.Pipeline

/-!
# Tokens of a command line

Words and operators, and the faults a line can have. `Token.render` writes a
token so that the lexer reads it back.
-/

namespace JobShell.Line

/-- What a command line is made of. -/
inductive Token
  /-- A word, and whether any part of it was quoted. -/
  | word (text : String) (quoted : Bool)
  | pipe
  | background
  /-- A redirection operator with the digit right in front of it, if any. -/
  | redirect (fd : Option Nat) (direction : Direction)
  deriving DecidableEq, Repr

/-- Why a line is not accepted. -/
inductive SyntaxFault
  /-- A quotation that is opened by `quote` and not closed. -/
  | unterminated (quote : Char)
  | misplacedBackground
  | missingFileName
  | missingCommand
  deriving DecidableEq, Repr

/-- The wording of a fault. -/
def SyntaxFault.message : SyntaxFault → String
  | unterminated quote => "syntax error: unterminated " ++ quote.toString
  | misplacedBackground => "syntax error: '&' is only allowed at the end of a line"
  | missingFileName => "syntax error: expected a file name after a redirection"
  | missingCommand => "syntax error: missing command in pipeline"

/-- Whether a backslash inside double quotes takes away the meaning of `c`. -/
def isEscapable (c : Char) : Bool := c = '"' || c = '\\' || c = '$' || c = '`'

/-- `text` between double quotes, with a backslash in front of every
character that needs one there. -/
def doubleQuoted (text : List Char) : List Char :=
  '"' :: text.flatMap (fun c => if isEscapable c then ['\\', c] else [c]) ++ ['"']

/-- A spelling of the token. -/
def Token.render : Token → List Char
  | word text quoted => if quoted then doubleQuoted text.toList else text.toList
  | pipe => ['|']
  | background => ['&']
  | redirect fd direction =>
    (match fd with | some n => (toString n).toList | none => []) ++ [direction.symbol]

/-- A spelling of a whole line: its tokens separated by single blanks. -/
def renderTokens (tokens : List Token) : List Char :=
  [' '].intercalate (tokens.map Token.render)

end JobShell.Line
