import JobShell.Numbers
import JobShell.Script.Source

/-!
# Reading scripts

A script is read one complete command at a time, because everything in front
of a fault is carried out before the fault is found. Words are read together
with the commands they contain: a substitution ends where the command inside
it does.

The readers call each other; `fuel` bounds how deep, and in proportion to
the length of the script it is always enough.
-/

namespace JobShell.Script

/-- The character that opens a group of parameters or commands. -/
def leftBrace : Char := Char.ofNat 123

/-- The character that closes such a group. -/
def rightBrace : Char := Char.ofNat 125

/-- The character that encloses a substitution in the old notation. -/
def backquote : Char := Char.ofNat 96

/-- Whether a character ends a word. -/
def endsScriptWord (c : Char) : Bool :=
  c ∈ [' ', '\t', '\n', ';', '&', '|', '<', '>', '(', ')']

/-- The words that have a meaning where a command may begin. -/
def reservedWords : List String :=
  ["!", leftBrace.toString, rightBrace.toString, "if", "then", "else", "elif", "fi", "while",
   "until", "do", "done", "for", "in", "case", "esac"]

/-- The reserved words that end a list of commands. -/
def closingWords : List String :=
  ["then", "else", "elif", "fi", "do", "done", "esac", rightBrace.toString]

/-- Whether a list of commands ends in front of a token. -/
def Token.endsList : Token → Bool
  | endOfFile | closing | clauseEnd => true
  | reserved name => closingWords.contains name
  | _ => false

/-- The token, taken for a reserved word if it can be one. -/
def Token.asReserved : Token → Token
  | word w =>
    match w.plainText? with
    | some text => if reservedWords.contains text then reserved text else word w
    | none => word w
  | token => token

/-- Whether a character alone is the name of a parameter. -/
def isSpecialParameter (c : Char) : Bool :=
  c ∈ ['@', '*', '#', '?', '-', '$', '!'] || c.isDigit

/-- The operators that take a word away from a value. -/
def trimOperators : List String := ["%", "%%", "#", "##"]

/-- Where a bare word ends. -/
inductive BareEnd
  /-- In front of a blank or an operator. -/
  | word
  /-- The same; nothing in the word is expanded. -/
  | delimiter
  /-- At the brace that closes a parameter. -/
  | brace
  deriving DecidableEq

/-- What encloses text that is not split. -/
inductive Enclosure
  | quotes
  /-- The braces of a parameter. Between quotes in them, as `inner` says, a
  brace is text. -/
  | braces (inDocument inner : Bool)
  /-- The parentheses of an arithmetic expression, with the number of those
  that are open inside. -/
  | parentheses (open_ : Nat)
  /-- The lines of a document; `atStart` holds at the beginning of each. -/
  | document (d : PendingDocument) (atStart : Bool)

namespace Enclosure

/-- Whether the text belongs to a document. -/
def inDocument : Enclosure → Bool
  | document _ _ | braces true _ => true
  | _ => false

/-- Whether a backslash takes away the meaning of a character. -/
def escapes (e : Enclosure) (c : Char) : Bool :=
  c = '\\' || c = '$' || c = backquote ||
    match e with
    | document _ _ => false
    | braces _ _ => c = '"' || c = rightBrace
    | _ => c = '"'

/-- The fault if the script ends inside; a document may end there. -/
def fault? : Enclosure → Option Fault
  | quotes | braces false _ => some .unterminatedQuote
  | braces true _ => some (.missing rightBrace.toString)
  | parentheses _ => some (.missing "))")
  | document _ _ => none

/-- The enclosure behind a character of its text. -/
def after (e : Enclosure) (c : Char) : Enclosure :=
  match e with
  | document d _ => document d (c = '\n')
  | parentheses n => parentheses (if c = '(' then n + 1 else if c = ')' then n - 1 else n)
  | e => e

end Enclosure

/-- What was read of a simple command. -/
structure SimpleDraft where
  assignments : List (String × Word) := []
  words : List Word := []
  redirects : List Redirect := []

namespace Read

/-- The operator that follows the name of a parameter in braces, with the
colon in front of it, and whether it takes a word away from the value; `none`
if there is no such operator. -/
def parameterOperator : Read (Option String) := do
  match ← look with
  | none => return none
  | some c =>
    if c = '%' ∨ c = '#' then
      skip
      return some (if ← accept c then String.ofList [c, c] else c.toString)
    else
      let colon ← accept ':'
      match ← look with
      | none => return none
      | some c =>
        if c ∈ ['-', '+', '?', '='] then
          skip
          return some (String.ofList (if colon then [':', c] else [c]))
        else return none

/-- The name of a parameter without braces, if there is one. -/
def parameterName : Read (Option String) := do
  match ← look with
  | none => return none
  | some c =>
    if isNameStart c then return some (String.ofList (← takeWhile isNameChar (← remaining)))
    else if isSpecialParameter c then
      skip
      return some c.toString
    else return none

/-- The name of a parameter in braces, if there is one. -/
def bracedName : Read (Option String) := do
  match ← takeWhile Char.isDigit (← remaining) with
  | [] => parameterName
  | digits => return some (String.ofList digits)

/-- What a number sign behind the opening brace begins: the length of a
parameter whose name is returned, or the parameter of that name. -/
def lengthOf : Read (Option String) := do
  let before ← get
  skip
  match ← bracedName with
  | none =>
    set before
    return none
  | some name =>
    let named := (name.toList.head?).any fun c => isNameChar c
    if (← look) = some rightBrace ∨ named then return some name
    else
      set before
      return none

/-- The token of an operator that does not redirect. -/
def controlToken (c : Char) : Read Token := do
  skip
  match c with
  | '\n' => return .newline
  | ';' => return if ← accept ';' then .clauseEnd else .semicolon
  | '&' => return if ← accept '&' then .both else .background
  | '|' => return if ← accept '|' then .either else .pipe
  | '(' => return .opening
  | _ => return .closing

/-- The token of a redirection, with the number of the descriptor if it is
written. -/
def redirectionToken (number : Option Fd) : Read Token := do
  if ← accept '>' then
    let kind : RedirectKind ←
      if ← accept '>' then pure .append
      else if ← accept '|' then pure .overwrite
      else if ← accept '&' then pure .duplicate
      else pure .output
    return .redirection (number.getD 1) kind
  else
    skip
    let fd := number.getD 0
    if ← accept '<' then return .document fd (← accept '-')
    else if ← accept '&' then return .redirection fd .duplicate
    else if ← accept '>' then return .redirection fd .update
    else return .redirection fd .input

/-- The digit that a word consists of. -/
def digit? (w : Word) : Option Fd :=
  match w.plainText?.map String.toList with
  | some [c] => if c.isDigit then some (c.toNat - '0'.toNat : Nat) else none
  | _ => none

mutual

/-- What follows a dollar sign. -/
def dollar : (fuel : Nat) → (quoted inDocument : Bool) → Read WordPart
  | 0, _, _ => fail .tooDeep
  | fuel + 1, quoted, inDocument => do
    if ← accept '(' then
      if ← accept '(' then return .arithmetic (← enclosed fuel (.parentheses 0)) quoted
      else
        let pending := (← get).pending
        modify fun s => { s with pending := [] }
        let body ← commandList fuel false false
        match ← token fuel false false with
        | .closing =>
          modify fun s => { s with pending }
          return .output body quoted
        | other => unexpected other (some .closing)
    else if ← accept leftBrace then braced fuel quoted inDocument
    else
      match ← parameterName with
      | some name => return .parameter name .value [] quoted
      | none => return .text "$" quoted

/-- What follows the brace that opens a parameter. -/
def braced : (fuel : Nat) → (quoted inDocument : Bool) → Read WordPart
  | 0, _, _ => fail .tooDeep
  | fuel + 1, quoted, inDocument => do
    let measured ← if (← look) = some '#' then lengthOf else pure none
    match measured with
    | some name =>
      if ← accept rightBrace then return .parameter name .length [] quoted
      else
        let _ ← operand fuel quoted inDocument false
        return .badParameter
    | none =>
      match ← bracedName with
      | none =>
        let _ ← operand fuel quoted inDocument false
        return .badParameter
      | some name =>
        if ← accept rightBrace then return .parameter name .value [] quoted
        else
          match ← parameterOperator with
          | some symbol =>
            let bare := trimOperators.contains symbol
            let parts ← operand fuel quoted inDocument bare
            return .parameter name (.operator symbol) parts quoted
          | none =>
            let _ ← operand fuel quoted inDocument false
            return .badParameter

/-- The word of an operator, up to the brace behind it. Between quotes it is
read as text between quotes, unless it is a pattern. -/
def operand : (fuel : Nat) → (quoted inDocument pattern : Bool) → Read Word
  | 0, _, _, _ => fail .tooDeep
  | fuel + 1, quoted, inDocument, pattern => do
    if quoted && !pattern then enclosed fuel (.braces inDocument false)
    else return (← bare fuel .brace).withHomes false true

/-- A substitution in the old notation, behind the mark that opens it. -/
def marked : (fuel : Nat) → (quoted : Bool) → Read WordPart
  | 0, _ => fail .tooDeep
  | fuel + 1, quoted => do
    let marks := ['\\', '$', backquote] ++ if quoted then ['"'] else []
    let script ← markedScript backquote marks ((← remaining) + 1)
    let outer ← get
    set { outer with rest := script, line := 1, given := none, pending := [] }
    let body ← commandList fuel false false
    modify fun s => { outer with asked := s.asked, documents := s.documents }
    return .output body quoted

/-- The parts of text that is not split, up to the end of what encloses
it. -/
def enclosed : (fuel : Nat) → Enclosure → Read Word
  | 0, _ => fail .tooDeep
  | fuel + 1, e => do
    let ended ← match e with
      | .document d true => do
        stripTabs d
        atDocumentEnd d
      | _ => pure false
    match ended, ← look with
    | true, _ => return []
    | false, none =>
      match e.fault? with
      | some fault => fail fault
      | none => return []
    | false, some c => do
      skip
      match e, c with
      | .quotes, '"' => return []
      | .braces inDocument inner, '"' => enclosed fuel (.braces inDocument !inner)
      | .parentheses 0, ')' =>
        if ← accept ')' then return []
        else return (← enclosed fuel e).pushText ")" true
      | e, c =>
        let closes := match e with
          | .braces _ inner => c = rightBrace && !inner
          | _ => false
        if closes then return []
        else if c = '$' then
          let part ← dollar fuel true e.inDocument
          return (← enclosed fuel (e.after c)).push part
        else if c = backquote then
          let part ← marked fuel true
          return (← enclosed fuel (e.after c)).push part
        else if c = '\\' then
          match ← peek with
          | none => return (← enclosed fuel e).pushText "\\" true
          | some next => do
            skip
            let text := if e.escapes next then [next] else ['\\', next]
            return (← enclosed fuel (e.after next)).pushText (String.ofList text) true
        else return (← enclosed fuel (e.after c)).pushText c.toString true

/-- The parts of a word that is not enclosed. -/
def bare : (fuel : Nat) → BareEnd → Read Word
  | 0, _ => fail .tooDeep
  | fuel + 1, ending => do
    match ← look with
    | none => if ending = .brace then fail (.missing rightBrace.toString) else return []
    | some c =>
      if ending ≠ .brace ∧ endsScriptWord c then return []
      else
        skip
        if ending = .brace ∧ c = rightBrace then return []
        else if c = '\'' then
          let text ← singleQuoted
          return (← bare fuel ending).pushText (String.ofList text) true
        else if c = '"' then
          match ← enclosed fuel .quotes with
          | [] => return (← bare fuel ending).pushText "" true
          | inner => return inner ++ (← bare fuel ending)
        else if c = '\\' then
          let text := match ← peek with
            | some next => next.toString
            | none => "\\"
          skip
          return (← bare fuel ending).pushText text true
        else if c = '$' ∧ ending ≠ .delimiter then
          let part ← dollar fuel false false
          return (← bare fuel ending).push part
        else if c = backquote ∧ ending ≠ .delimiter then
          let part ← marked fuel false
          return (← bare fuel ending).push part
        else return (← bare fuel ending).pushText c.toString false

/-- Reads the documents that were asked for on the line that has ended. -/
def readDocuments : (fuel : Nat) → Read Unit
  | 0 => fail .tooDeep
  | fuel + 1 => do
    match ← nextDocument with
    | none => return ()
    | some d => do
      let text ← if d.verbatim then
          pure [.text (String.ofList (← verbatimDocument d ((← remaining) + 1))) true]
        else enclosed fuel (.document d true)
      keepDocument d.number text
      readDocuments fuel

/-- The next token of the script itself. -/
def freshToken : (fuel : Nat) → (ending : BareEnd) → Read Token
  | 0, _ => fail .tooDeep
  | fuel + 1, ending => do
    skipBlanks ((← remaining) + 1)
    match ← look with
    | none => return .endOfFile
    | some c =>
      if c = '<' ∨ c = '>' then redirectionToken none
      else if endsScriptWord c then
        let token ← controlToken c
        if c = '\n' then readDocuments fuel
        return token
      else
        let w ← bare fuel ending
        let next ← look
        match digit? w with
        | some digit =>
          if next = some '<' ∨ next = some '>' then redirectionToken (some digit)
          else return .word w
        | none => return .word w

/-- The next token. With `lines` the ends of lines are left out, and with
`words` a word can be a reserved one. -/
def token : (fuel : Nat) → (lines words : Bool) → Read Token
  | 0, _, _ => fail .tooDeep
  | fuel + 1, lines, words => do
    let given? ← takeGiven
    let next ← match given? with
      | some given => pure given
      | none => freshToken fuel .word
    let next := if words then next.asReserved else next
    match next with
    | .newline => if lines then token fuel lines words else return .newline
    | .word w =>
      let isReplaced ← if words && given?.isNone then expandAlias w else pure false
      if isReplaced then token fuel lines words else return next
    | next => return next

/-- Reads the token that has to come next. -/
def expect : (fuel : Nat) → (lines words : Bool) → Token → Read Unit
  | 0, _, _, _ => fail .tooDeep
  | fuel + 1, lines, words, wanted => do
    let next ← token fuel lines words
    if next.render ≠ wanted.render then unexpected next (some wanted)

/-- The redirection that a token begins. -/
def redirection : (fuel : Nat) → Token → Read Redirect
  | 0, _ => fail .tooDeep
  | fuel + 1, .document fd strip => do
    match ← freshToken fuel .delimiter with
    | .word w =>
      let (delimiter, verbatim) := w.delimiter
      return .of fd (.document (← askDocument delimiter verbatim strip)) []
    | other => unexpected other
  | fuel + 1, .redirection fd kind => do
    match ← freshToken fuel .word with
    | .word w => return .of fd kind (w.withHomes false true)
    | other => unexpected other
  | _ + 1, other => unexpected other

/-- All redirections that follow. -/
def redirections : (fuel : Nat) → Read (List Redirect)
  | 0 => fail .tooDeep
  | fuel + 1 => do
    match ← token fuel false true with
    | .redirection fd kind =>
      let first ← redirection fuel (.redirection fd kind)
      return first :: (← redirections fuel)
    | .document fd strip =>
      let first ← redirection fuel (.document fd strip)
      return first :: (← redirections fuel)
    | other => do
      giveBack other
      return []

/-- A list of commands, up to something that ends it. With `oneLine` the end
of the line ends it; `needed` says that there has to be a command. -/
def commandList : (fuel : Nat) → (oneLine needed : Bool) → Read Command
  | 0, _, _ => fail .tooDeep
  | fuel + 1, oneLine, needed => do
    let next ← token fuel (!oneLine) true
    let isOver := match next with
      | .newline => true
      | .endOfFile => true
      | next => !oneLine && !needed && next.endsList
    if isOver then
      if next.render ≠ Token.newline.render then giveBack next
      return .nothing
    else
      giveBack next
      let first ← andOr fuel
      let next ← token fuel false false
      let join (first : Command) : Read Command := do
        match ← commandList fuel oneLine false with
        | .nothing => return first
        | more => return .sequence first more
      match next with
      | .background => join (.background first)
      | .semicolon => join first
      | .newline =>
        giveBack .newline
        join first
      | .endOfFile =>
        giveBack .endOfFile
        return first
      | other =>
        if oneLine then unexpected other
        else
          giveBack other
          return first

/-- Pipelines that depend on each other. -/
def andOr : (fuel : Nat) → Read Command
  | 0 => fail .tooDeep
  | fuel + 1 => do
    let first ← pipeline fuel false
    andOrRest fuel first

/-- The pipelines that follow another one. -/
def andOrRest : (fuel : Nat) → Command → Read Command
  | 0, _ => fail .tooDeep
  | fuel + 1, first => do
    match ← token fuel false false with
    | .both => do
      let second ← pipeline fuel true
      andOrRest fuel (.both first second)
    | .either => do
      let second ← pipeline fuel true
      andOrRest fuel (.either first second)
    | other => do
      giveBack other
      return first

/-- Commands connected by pipes. With `lines` they may begin on a later
line. -/
def pipeline : (fuel : Nat) → (lines : Bool) → Read Command
  | 0, _ => fail .tooDeep
  | fuel + 1, lines => do
    let next ← token fuel lines lines
    let negated := next.render == (Token.reserved "!").render
    if !negated then giveBack next
    let first ← command fuel false negated
    let stages ← pipelineRest fuel
    match negated, stages with
    | false, [] => return first
    | negated, stages => return .pipeline negated (first :: stages)

/-- The commands behind the first one of a pipeline. -/
def pipelineRest : (fuel : Nat) → Read (List Command)
  | 0 => fail .tooDeep
  | fuel + 1 => do
    match ← token fuel false false with
    | .pipe => do
      let next ← command fuel true true
      return next :: (← pipelineRest fuel)
    | other => do
      giveBack other
      return []

/-- A command with its redirections. With `lines` it may begin on a later
line, with `words` with a reserved word. -/
def command : (fuel : Nat) → (lines words : Bool) → Read Command
  | 0, _, _ => fail .tooDeep
  | fuel + 1, lines, words => do
    let line := (← get).line
    match ← token fuel lines words with
    | .opening => do
      let body ← commandList fuel false true
      expect fuel false false .closing
      return .subshell line body (← redirections fuel)
    | .reserved name => do
      let body ← compound fuel line name
      match ← redirections fuel with
      | [] => return body
      | redirects => return .redirected line body redirects
    | .word w => do
      giveBack (.word w)
      simple fuel (← get).line {}
    | .redirection fd kind => do
      giveBack (.redirection fd kind)
      simple fuel (← get).line {}
    | .document fd strip => do
      giveBack (.document fd strip)
      simple fuel (← get).line {}
    | other => unexpected other

/-- A compound command that a reserved word begins. -/
def compound : (fuel : Nat) → (line : Nat) → (name : String) → Read Command
  | 0, _, _ => fail .tooDeep
  | fuel + 1, line, name => do
    if name = "if" then choice fuel
    else if name = "while" ∨ name = "until" then
      let condition ← commandList fuel false true
      expect fuel false false (.reserved "do")
      let body ← commandList fuel false true
      expect fuel false false (.reserved "done")
      return .loop (name = "while") condition body
    else if name = "for" then forEach fuel line
    else if name = "case" then
      match ← token fuel false false with
      | .word subject => do
        expect fuel true true (.reserved "in")
        return .case_ line (subject.withHomes false true) (← clauses fuel)
      | other => unexpected other (some (.word []))
    else if name = leftBrace.toString then
      let body ← commandList fuel false true
      expect fuel false false (.reserved rightBrace.toString)
      return body
    else unexpected (.reserved name)

/-- What follows `if` or `elif`, up to the end of the whole command. -/
def choice : (fuel : Nat) → Read Command
  | 0 => fail .tooDeep
  | fuel + 1 => do
    let condition ← commandList fuel false true
    expect fuel false false (.reserved "then")
    let body ← commandList fuel false true
    match ← token fuel false false with
    | .reserved "elif" => return .choice condition body (← choice fuel)
    | .reserved "else" => do
      let other ← commandList fuel false true
      expect fuel false false (.reserved "fi")
      return .choice condition body other
    | .reserved "fi" => return .choice condition body .nothing
    | other => unexpected other (some (.reserved "fi"))

/-- What follows `for`. -/
def forEach : (fuel : Nat) → (line : Nat) → Read Command
  | 0, _ => fail .tooDeep
  | fuel + 1, line => do
    let name := match ← token fuel false false with
      | .word w => (w.plainText?.filter fun text => isName text.toList).getD ""
      | _ => ""
    if name = "" then fail .badLoopVariable
    else
      let words ← match ← token fuel true true with
        | .reserved "in" => do
          let words ← loopWords fuel
          pure (some words)
        | .semicolon => pure none
        | other => do
          giveBack other
          pure none
      expect fuel true true (.reserved "do")
      let body ← commandList fuel false true
      expect fuel false false (.reserved "done")
      return .forEach line name words body

/-- The words of a loop, up to the end of the line or a semicolon. -/
def loopWords : (fuel : Nat) → Read (List Word)
  | 0 => fail .tooDeep
  | fuel + 1 => do
    match ← token fuel false false with
    | .word w => return w.withHomes false true :: (← loopWords fuel)
    | .newline | .semicolon => return []
    | other => unexpected other

/-- The clauses of a `case` command, up to its end. -/
def clauses : (fuel : Nat) → Read (List (List Word × Command))
  | 0 => fail .tooDeep
  | fuel + 1 => do
    match ← token fuel true true with
    | .reserved "esac" => return []
    | first => do
      let first ← match first with
        | .opening => token fuel false false
        | first => pure first
      let alternatives ← patterns fuel first
      let body ← commandList fuel false false
      match ← token fuel true true with
      | .clauseEnd => return (alternatives, body) :: (← clauses fuel)
      | .reserved "esac" => return [(alternatives, body)]
      | other => unexpected other (some .clauseEnd)

/-- The patterns of a clause, of which the first token is read already, up
to the parenthesis behind them. -/
def patterns : (fuel : Nat) → (first : Token) → Read (List Word)
  | 0, _ => fail .tooDeep
  | fuel + 1, first => do
    let pattern : Word := match first with
      | .word w => w.withHomes false true
      | .reserved name => [.text name false]
      | _ => []
    match ← token fuel false false with
    | .pipe => do
      let next ← token fuel false false
      return pattern :: (← patterns fuel next)
    | .closing => return [pattern]
    | other => unexpected other (some .closing)

/-- The assignments, words and redirections of a simple command. A single
word in front of a parenthesis is the name of a function. -/
def simple : (fuel : Nat) → (line : Nat) → SimpleDraft → Read Command
  | 0, _, _ => fail .tooDeep
  | fuel + 1, line, d => do
    match ← token fuel false false with
    | .word w =>
      match d.words, w.assignment? with
      | [], some pair => simple fuel line { d with assignments := d.assignments ++ [pair] }
      | [], none =>
        let isReplaced ← if d.assignments.isEmpty then pure false else expandAlias w
        if isReplaced then simple fuel line d
        else simple fuel line { d with words := [w.withHomes false true] }
      | _, _ => simple fuel line { d with words := d.words ++ [w.withHomes false true] }
    | .redirection fd kind => do
      let redirect ← redirection fuel (.redirection fd kind)
      simple fuel line { d with redirects := d.redirects ++ [redirect] }
    | .document fd strip => do
      let redirect ← redirection fuel (.document fd strip)
      simple fuel line { d with redirects := d.redirects ++ [redirect] }
    | other =>
      match other, d with
      | .opening, ⟨[], [name], []⟩ => do
        expect fuel false false .closing
        let isFree (text : String) : Bool :=
          isName text.toList && !specialBuiltins.contains text
        match name.plainText?.filter isFree with
        | some name => return .function name (← command fuel true true)
        | none => fail .badFunctionName
      | other, d => do
        giveBack other
        return .simple line d.assignments d.words d.redirects

end

/-- The next complete command; `none` at the end of the script. -/
def completeCommand : Read (Option Command) := do
  let abbreviated := ((← get).aliases.map fun (_, text) => text.length).sum
  let fuel := 16 * ((← remaining) + abbreviated) + 64
  match ← token fuel true true with
  | .endOfFile => return none
  | first => do
    giveBack first
    let command ← commandList fuel true true
    let _ ← takeGiven
    return some command

end Read

end JobShell.Script
