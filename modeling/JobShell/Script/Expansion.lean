import JobShell.Script.Arithmetic
import JobShell.Script.Pattern

/-!
# Expansion of words

A word is expanded to marks: its characters, each with what quoting says
about it, the borders between the positional parameters, and signs that a
field is there although it is empty. Splitting makes fields of the marks,
and a field that is a pattern is replaced by the names of the files it
matches.

The output of commands in words comes from `substitute`, a parameter here,
because whoever runs commands expands words.
-/

namespace JobShell.Script

open Machine (Action)

/-- A part of an expanded word. -/
inductive Mark
  /-- A character. One that is not `quoted` can be part of a pattern, one
  that is `split` can separate fields. -/
  | char (c : Char) (quoted split : Bool)
  /-- There is a field, even if it has no characters. -/
  | kept
  /-- The border between two fields. -/
  | border

namespace Mark

/-- The marks of a value that was put into a word. -/
def ofValue (quoted : Bool) (text : String) : List Mark :=
  if quoted then
    if text = "" then [.kept] else text.toList.map fun c => .char c true false
  else text.toList.map fun c => .char c false true

/-- The marks of several values, as fields of their own. -/
def ofValues (quoted : Bool) (texts : List String) : List Mark :=
  [Mark.border].intercalate (texts.map (ofValue quoted))

/-- The characters of an operand that is not quoted can separate fields. -/
def splittable : Mark → Mark
  | .char c false _ => .char c false true
  | mark => mark

/-- The marks as one text. -/
def text (marks : List Mark) : String :=
  String.ofList (marks.filterMap fun mark => match mark with
    | .char c _ _ => some c
    | .border => some ' '
    | .kept => none)

/-- The marks as one pattern. -/
def pattern (marks : List Mark) : Pattern :=
  marks.filterMap fun mark => match mark with
    | .char c quoted _ => some (c, !quoted)
    | .border => some (' ', false)
    | .kept => none

end Mark

/-! ## Fields -/

/-- The fields found so far and the one that is being read, both backwards. -/
structure FieldDraft where
  fields : List Pattern := []
  current : Pattern := []
  isField : Bool := false
  /-- Whether the last field was ended by a blank. -/
  afterBlank : Bool := false

namespace FieldDraft

/-- Ends the current field. -/
def close (d : FieldDraft) (afterBlank : Bool) : FieldDraft :=
  { fields := d.current.reverse :: d.fields, current := [], isField := false, afterBlank }

/-- Takes the next mark. A blank separator only ends a field that is there;
any other one does so too unless it belongs to a blank before it. -/
def take (separators : List Char) (d : FieldDraft) : Mark → FieldDraft
  | .border => if d.isField then d.close false else d
  | .kept => { d with isField := true }
  | .char c quoted split =>
    if split ∧ c ∈ separators then
      if c = ' ' ∨ c = '\t' ∨ c = '\n' then if d.isField then d.close true else d
      else if d.isField then d.close false
      else if d.afterBlank then { d with afterBlank := false }
      else d.close false
    else { d with current := (c, !quoted) :: d.current, isField := true }

end FieldDraft

/-- The fields of an expanded word. -/
def splitFields (separators : List Char) (marks : List Mark) : List Pattern :=
  let d := marks.foldl (FieldDraft.take separators) {}
  (if d.isField then d.close false else d).fields.reverse

/-! ## Names of files -/

/-- Cuts a pattern at its slashes. -/
def pathPatterns (p : Pattern) : List Pattern :=
  p.foldr (fun item parts =>
    if item.1 = '/' then [] :: parts
    else
      match parts with
      | part :: rest => (item :: part) :: rest
      | [] => [[item]]) [[]]

/-- The paths that begin with `base` and match the patterns. -/
def matchingPaths (base : String) : List Pattern → Action (List String)
  | [] => return [base]
  | p :: rest => do
    let more := if rest = [] then "" else "/"
    if !p.isProper then matchingPaths (base ++ p.text ++ more) rest
    else
      match ← Action.names (.ofOctets (if base = "" then "." else base)) with
      | .error _ => return []
      | .ok names =>
        let hidden := p.head?.any (·.1 = '.')
        let names := names.map Bytes.octets ++ if hidden then [".", ".."] else []
        let fitting := names.filter fun name =>
          (hidden || name.toList.head? ≠ some '.') && p.isMatch name.toList
        let rec each : List String → Action (List String)
          | [] => return []
          | name :: others => do
            let found ← matchingPaths (base ++ name ++ more) rest
            return found ++ (← each others)
        each fitting

/-- The paths that a field stands for; without any it stands for itself. -/
def filesOf (field : Pattern) : Action (List String) := do
  if !field.isProper then return [field.text]
  else
    let candidates ← matchingPaths "" (pathPatterns field)
    let rec existing : List String → Action (List String)
      | [] => return []
      | path :: rest => do
        match ← Action.facts (.ofOctets path) false with
        | .ok _ => return path :: (← existing rest)
        | .error _ => existing rest
    match ← existing candidates with
    | [] => return [field.text]
    | found => return found.mergeSort

/-! ## Parameters -/

/-- The value of a parameter that is one text. -/
def State.parameter? (s : State) (name : String) : Option String :=
  match name with
  | "#" => some (toString s.arguments.length)
  | "?" => some (toString s.status)
  | "$" => some (toString s.pid)
  | "!" => s.background.map fun pid => toString pid
  | "-" => some (String.ofList s.options)
  | "0" => some s.name
  | "LINENO" => some (toString s.line)
  | _ =>
    match Text.readNat? name with
    | some n => s.arguments[n - 1]?
    | none => s.value? name

/-- The values of a parameter: all positional parameters together, or the
one text. -/
def State.parameterValues? (s : State) (name : String) : Option (List String) :=
  if name = "@" ∨ name = "*" then if s.arguments = [] then none else some s.arguments
  else (s.parameter? name).map fun text => [text]

/-- The marks of the values of a parameter. -/
def State.parameterMarks (s : State) (name : String) (quoted : Bool) (values : List String) :
    List Mark :=
  if name = "*" ∧ quoted then
    let separator := match s.separators with
      | c :: _ => c.toString
      | [] => ""
    Mark.ofValue true (separator.intercalate values)
  else Mark.ofValues quoted values

/-! ## Words -/

mutual

/-- The marks of a part of a word. -/
def expandPart (substitute : Command → Sh String) : WordPart → Sh (List Mark)
  | .text text quoted =>
    return if text = "" ∧ quoted then [.kept] else text.toList.map fun c => .char c quoted false
  | .home => do
    let home := ((← get).value? "HOME").getD "~"
    return Mark.ofValue true home
  | .output body quoted => return Mark.ofValue quoted (← substitute body)
  | .badParameter => abandon "Bad substitution"
  | .arithmetic expression quoted => do
    let text := Mark.text (← expandParts substitute expression)
    return Mark.ofValue quoted (toString (← Arithmetic.value text))
  | .parameter name use operand quoted => do
    let s ← get
    let values? := s.parameterValues? name
    let present (values : List String) : List Mark := s.parameterMarks name quoted values
    let absent : Sh (List Mark) := do
      if s.options.contains 'u' && name ≠ "@" && name ≠ "*" then
        abandon (name ++ ": parameter not set")
      else return if quoted && name ≠ "@" then [.kept] else []
    match use with
    | .value =>
      match values? with
      | some values => return present values
      | none => absent
    | .length =>
      if values?.isNone && s.options.contains 'u' && name ≠ "@" && name ≠ "*" then
        abandon (name ++ ": parameter not set")
      let length := (" ".intercalate (values?.getD [])).length
      return Mark.ofValue quoted (toString length)
    | .operator symbol => do
      let strict := symbol.toList.head? = some ':'
      let isSet := match values? with
        | some values => !strict || values.any (· ≠ "")
        | none => false
      let operandMarks : Sh (List Mark) := do
        let marks ← expandParts substitute operand
        return if quoted then .kept :: marks else marks.map Mark.splittable
      match symbol.toList.getLast?.getD '-' with
      | '-' => if isSet then return present (values?.getD []) else operandMarks
      | '+' => if isSet then operandMarks else return if quoted then [.kept] else []
      | '=' =>
        if isSet then return present (values?.getD [])
        else do
          let text := Mark.text (← expandParts substitute operand)
          setVariable name text
          return Mark.ofValue quoted text
      | '?' =>
        if isSet then return present (values?.getD [])
        else do
          let text := Mark.text (← expandParts substitute operand)
          abandon (name ++ ": " ++
            if operand.isEmpty then
              if strict then "parameter not set or null" else "parameter not set"
            else text)
      | c => do
        match values? with
        | none => absent
        | some values =>
          let pattern := Mark.pattern (← expandParts substitute operand)
          let longest := symbol.length = 2
          let trim (text : String) : String :=
            if c = '%' then pattern.dropMatchingSuffix longest text
            else pattern.dropMatchingPrefix longest text
          return present (values.map trim)

/-- The marks of a word. -/
def expandParts (substitute : Command → Sh String) : List WordPart → Sh (List Mark)
  | [] => return []
  | part :: rest => do
    let marks ← expandPart substitute part
    return marks ++ (← expandParts substitute rest)

end

/-- A word as one text, as in assignments. -/
def expandText (substitute : Command → Sh String) (word : Word) : Sh String := do
  return Mark.text (← expandParts substitute word)

/-- A word as one pattern. -/
def expandPattern (substitute : Command → Sh String) (word : Word) : Sh Pattern := do
  return Mark.pattern (← expandParts substitute word)

/-- The texts that fields stand for. -/
def fieldTexts (plain : Bool) : List Pattern → Sh (List String)
  | [] => return []
  | field :: rest => do
    let texts ← if plain then pure [field.text] else filesOf field
    return texts ++ (← fieldTexts plain rest)

/-- The texts that a list of words stands for. With `declaring` a word that
is an assignment stands for that assignment alone. -/
def expandWords (substitute : Command → Sh String) (declaring : Bool) :
    List Word → Sh (List String)
  | [] => return []
  | word :: rest => do
    let texts ← match if declaring then word.assignment? else none with
      | some (name, value) => pure [name ++ "=" ++ (← expandText substitute value)]
      | none =>
        let fields := splitFields (← get).separators (← expandParts substitute word)
        fieldTexts ((← get).options.contains 'f') fields
    return texts ++ (← expandWords substitute declaring rest)

end JobShell.Script
