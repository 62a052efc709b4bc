import JobShell.Script.Builtin.Arguments

/-!
# Variables, options and parameters

The builtin commands that change what a script remembers: its variables and
their marks, its functions and abbreviations, its options and its positional
parameters.
-/

namespace JobShell.Script

/-! ## Variables -/

/-- The name in front of the first `=`, and the value behind it. -/
def nameAndValue (word : String) : String × Option String :=
  match splitAtEquals word.toList with
  | some (name, value) => (String.ofList name, some (String.ofList value))
  | none => (word, none)

/-- Gives names a mark, and values to those that come with one. -/
def markAll (mark : Variable → Variable) : List String → Sh Nat
  | [] => return 0
  | word :: rest => do
    let (name, value?) := nameAndValue word
    if !isVariableName name then abandon (name ++ ": bad variable name")
    if let some value := value? then setVariable name value
    modify fun s => s.putVariable name (mark ((s.variableOf? name).getD { value := none }))
    markAll mark rest

/-- Gives names a mark, or prints all that have it. -/
def markBuiltin (command : String) (mark : Variable → Variable) (isMarked : Variable → Bool)
    (arguments : List String) : Sh Nat := do
  let (options, operands) ← readFlags "p" "" arguments
  if options ≠ [] ∨ operands = [] then
    let marked := (← get).vars.filter fun (_, v) => isMarked v
    let sorted := marked.mergeSort fun a b => decide (a.1 ≤ b.1)
    let lines := sorted.map fun (name, v) => command ++ " " ++ name ++
      match v.value with
      | some value => "=" ++ quote value
      | none => ""
    printed (Tool.joinLines lines)
  else markAll mark operands

/-- Makes variables part of the environment of commands. -/
def exportBuiltin : List String → Sh Nat :=
  markBuiltin "export" (fun v => { v with exported := true }) (·.exported)

/-- Protects variables from being changed. -/
def readonlyBuiltin : List String → Sh Nat :=
  markBuiltin "readonly" (fun v => { v with readOnly := true }) (·.readOnly)

/-- Makes variables belong to the current function. -/
def makeLocal : List String → Sh Nat
  | [] => return 0
  | word :: rest => do
    let (name, value?) := nameAndValue word
    if !isVariableName name then abandon (name ++ ": bad variable name")
    modify fun s =>
      { s with locals := s.locals.map fun saved => (name, s.variableOf? name) :: saved }
    if let some value := value? then setVariable name value
    makeLocal rest

/-- Makes variables belong to the current function, outside of which there
are none of its own. -/
def localBuiltin (arguments : List String) : Sh Nat := do
  if (← get).locals.isNone then abandon "not in a function" else makeLocal arguments

/-- Removes a variable. -/
def unsetVariable (name : String) : Sh Unit := do
  if !isVariableName name then abandon (name ++ ": bad variable name")
  match (← get).variableOf? name with
  | some { readOnly := true, .. } => abandon (name ++ ": is read only")
  | _ => modify (·.removeVariable name)

/-- Removes variables or functions. -/
def unsetBuiltin (arguments : List String) : Sh Nat := do
  let (options, operands) ← readFlags "vf" "" arguments
  if options.getLast?.map (·.1) = some 'f' then
    modify fun s => { s with functions := s.functions.filter fun (name, _) => name ∉ operands }
  else operands.forM unsetVariable
  return 0

/-! ## Abbreviations -/

/-- An abbreviation as it is shown. -/
def aliasLine (entry : String × String) : String :=
  entry.1 ++ "=" ++ quote entry.2 ++ "\n"

/-- Gives names a meaning, or shows the meaning they have. -/
def defineAliases (status : Nat) : List String → Sh Nat
  | [] => return status
  | word :: rest => do
    match word.toList with
    | c :: cs =>
      match splitAtEquals cs with
      | some (name, text) =>
        modify (·.putAlias (String.ofList (c :: name)) (String.ofList text))
        defineAliases status rest
      | none =>
        match (← get).aliases.lookup word with
        | some text =>
          let shown ← printed (aliasLine (word, text))
          defineAliases (max status shown) rest
        | none =>
          Tool.complain ("alias: " ++ word ++ " not found\n")
          defineAliases 1 rest
    | [] =>
      Tool.complain "alias:  not found\n"
      defineAliases 1 rest

/-- Defines or shows abbreviations. -/
def aliasBuiltin (arguments : List String) : Sh Nat := do
  if arguments = [] then printed (String.join ((← get).sortedAliases.map aliasLine))
  else defineAliases 0 arguments

/-- Removes abbreviations, one after the other. -/
def removeAliases (status : Nat) : List String → Sh Nat
  | [] => return status
  | name :: rest => do
    if (← get).aliases.any (·.1 = name) then
      modify fun s => { s with aliases := s.aliases.filter (·.1 ≠ name) }
      removeAliases status rest
    else
      Tool.complain ("unalias: " ++ name ++ " not found\n")
      removeAliases 1 rest

/-- Removes some abbreviations, or all. -/
def unaliasBuiltin (arguments : List String) : Sh Nat := do
  let (options, operands) ← readFlags "a" "" arguments
  if options ≠ [] then
    modify fun s => { s with aliases := [] }
    return 0
  else removeAliases 0 operands

/-! ## Options and parameters -/

/-- The options of scripts and their letters. Two have none that can be
written. -/
def optionNames : List (String × Char) :=
  [("errexit", 'e'), ("noglob", 'f'), ("ignoreeof", 'I'), ("interactive", 'i'),
   ("monitor", 'm'), ("noexec", 'n'), ("stdin", 's'), ("xtrace", 'x'), ("verbose", 'v'),
   ("vi", 'V'), ("emacs", 'E'), ("noclobber", 'C'), ("allexport", 'a'), ("notify", 'b'),
   ("nounset", 'u'), ("privileged", 'p'), ("nolog", '\x01'), ("debug", '\x02')]

/-- Switches an option. The options are kept in the order of their letters,
the last one first. -/
def switchOption (on : Bool) (options : List Char) (c : Char) : List Char :=
  (optionNames.reverse.map (·.2)).filter fun other =>
    if other = c then on else options.contains other

/-- The outcome of reading options: the options, and the arguments that are
left. -/
abbrev OptionsRead := Except String (List Char × List String)

/-- Reads the letters of an argument; `o` is followed by a name in the next
argument. -/
def readOptionLetters (on : Bool) (options : List Char) :
    List Char → List String → OptionsRead
  | [], rest => .ok (options, rest)
  | 'o' :: cs, name :: rest =>
    match optionNames.lookup name with
    | some c => readOptionLetters on (switchOption on options c) cs rest
    | none => .error ("Illegal option -o " ++ name)
  | 'o' :: cs, [] => readOptionLetters on options cs []
  | c :: cs, rest =>
    if optionNames.any fun (_, letter) => letter = c && letter.isAlpha then
      readOptionLetters on (switchOption on options c) cs rest
    else .error s!"Illegal option -{c}"

/-- Reads options of a script. The rest are its operands; `none` if there are
none and there was no `--` either. `count` bounds the number of arguments. -/
def readScriptOptions : (count : Nat) → (options : List Char) → List String →
    Except String (List Char × Option (List String))
  | 0, options, _ | _, options, [] => .ok (options, none)
  | count + 1, options, word :: rest =>
    match word.toList with
    | ['-', '-'] => .ok (options, some rest)
    | ['-'] =>
      let options := switchOption false (switchOption false options 'x') 'v'
      .ok (options, if rest = [] then none else some rest)
    | sign :: cs =>
      if sign = '-' ∨ sign = '+' then do
        let (options, rest) ← readOptionLetters (sign = '-') options cs rest
        readScriptOptions count options rest
      else .ok (options, some (word :: rest))
    | [] => .ok (options, some (word :: rest))

/-- The lines that show which options are switched on. -/
def optionLines (options : List Char) : List String :=
  "Current option settings" :: optionNames.map fun (name, c) =>
    name ++ "".pushn ' ' (16 - name.length) ++ if options.contains c then "on" else "off"

/-- The commands that switch the options to where they are. -/
def optionCommands (options : List Char) : List String :=
  optionNames.map fun (name, c) =>
    (if options.contains c then "set -o " else "set +o ") ++ name

/-- Prints the variables or the options, or sets options and positional
parameters. -/
def setBuiltin (arguments : List String) : Sh Nat := do
  match arguments with
  | [] =>
    let sorted := (← get).vars.mergeSort fun a b => decide (a.1 ≤ b.1)
    let lines := sorted.filterMap fun (name, v) => v.value.map fun value =>
      name ++ "=" ++ quote value
    printed (Tool.joinLines lines)
  | ["-o"] => printed (Tool.joinLines (optionLines (← get).options))
  | ["+o"] => printed (Tool.joinLines (optionCommands (← get).options))
  | arguments =>
    match readScriptOptions (arguments.length + 1) (← get).options arguments with
    | .error reason => abandon reason
    | .ok (options, operands?) =>
      modify fun s => { s with options }
      if let some operands := operands? then modify (·.setArguments operands)
      return 0

/-- Drops positional parameters. -/
def shiftBuiltin (arguments : List String) : Sh Nat := do
  let count ← readNumber (arguments.headD "1")
  let s ← get
  if s.arguments.length < count then abandon "can't shift that many"
  set (s.setArguments (s.arguments.drop count))
  return 0

/-! ## Options of scripts and functions -/

/-- What `getopts` found: the letter it stands for, the value if there is
one, where it goes on, and what it complains about. -/
structure FoundOption where
  letter : Char
  value : Option String
  /-- The number of the next argument, and how many characters of the one
  before it were read if more are left. -/
  index : Nat
  offset : Option Nat := none
  complaint : Option String := none
  /-- No option was left. -/
  isOver : Bool := false

/-- The next option among `arguments`. `index` and `offset` are where the last
one was found. In `letters` a colon follows those that take a value; one in
front of all says that complaints are up to the script. -/
def nextOption (letters : List Char) (arguments : List String) (index : Nat)
    (offset : Option Nat) : FoundOption :=
  let current := (arguments[index - 2]?).getD ""
  let left : List Char := match offset with
    | some k => if 2 ≤ index then current.toList.drop k else []
    | none => []
  match left with
  | c :: cs => found index c cs
  | [] =>
    match ((arguments[index - 1]?).getD "").toList with
    | ['-', '-'] => { letter := '?', value := none, index := index + 1, isOver := true }
    | '-' :: c :: cs => found (index + 1) c cs
    | _ => { letter := '?', value := none, index, isOver := true }
where
  silent : Bool := letters.head? = some ':'
  /-- The letter `c` was found in front of `cs` in the argument before
  `index`. -/
  found (index : Nat) (c : Char) (cs : List Char) : FoundOption :=
    let length := ((arguments[index - 2]?).getD "").length
    let offset : Option Nat := some (length - cs.length)
    match (known letters).lookup c with
    | none =>
      if silent then { letter := '?', value := some c.toString, index, offset }
      else { letter := '?', value := none, index, offset,
             complaint := some s!"Illegal option -{c}\n" }
    | some false => { letter := c, value := some "", index, offset }
    | some true =>
      match cs, arguments[index - 1]? with
      | [], some value => { letter := c, value := some value, index := index + 1 }
      | [], none =>
        if silent then { letter := ':', value := some c.toString, index, offset }
        else { letter := '?', value := none, index, offset,
               complaint := some s!"No arg for -{c} option\n" }
      | cs, _ => { letter := c, value := some (String.ofList cs), index }
  /-- The letters, and whether they take a value. -/
  known : List Char → List (Char × Bool)
    | ':' :: rest => known rest
    | c :: ':' :: rest => (c, true) :: known rest
    | c :: rest => (c, false) :: known rest
    | [] => []

/-- Finds the next option among the arguments of a script or a function. -/
def getoptsBuiltin (arguments : List String) : Sh Nat := do
  match arguments with
  | letters :: name :: rest => do
    let s ← get
    let arguments := if rest = [] then s.arguments else rest
    let isAstray := s.optionIndex < 1 ∨ arguments.length + 1 < s.optionIndex
    let (index, offset) := if isAstray then (1, none) else (s.optionIndex, s.optionOffset)
    let found := nextOption letters.toList arguments index offset
    if let some complaint := found.complaint then Tool.complain complaint
    if !found.isOver then
      match found.value with
      | some value => setVariable "OPTARG" value
      | none => modify (·.removeVariable "OPTARG")
    modify (·.assign "OPTIND" (toString found.index))
    if !isVariableName name then abandon (name ++ ": bad variable name")
    setVariable name found.letter.toString
    modify fun s => { s with optionIndex := found.index, optionOffset := found.offset }
    return if found.isOver then 1 else 0
  | _ => abandon "Usage: getopts optstring var [arg...]"

end JobShell.Script
