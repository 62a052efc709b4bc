/-!
# Variable names and assignment words

A name is a letter or underscore followed by letters, digits and
underscores, all ASCII. A word that spells `NAME=VALUE` is an assignment; it
is split at its first equals sign.
-/

namespace JobShell

/-- Whether a name may begin with `c`. -/
def isNameStart (c : Char) : Bool := c.isAlpha || c = '_'

/-- Whether `c` may stand inside a name. -/
def isNameChar (c : Char) : Bool := c.isAlphanum || c = '_'

/-- Whether `text` is the name of a variable. -/
def isName (text : List Char) : Bool :=
  match text with
  | [] => false
  | c :: cs => isNameStart c && cs.all isNameChar

/-- The parts of `text` before and after its first `=`. -/
def splitAtEquals : List Char → Option (List Char × List Char)
  | [] => none
  | c :: cs =>
    if c = '=' then some ([], cs)
    else (splitAtEquals cs).map fun (name, value) => (c :: name, value)

/-- Whether `word` is the name of a variable. -/
def isVariableName (word : String) : Bool := isName word.toList

/-- The name and the value that `word` assigns, if it is `NAME=VALUE` with a
valid name. -/
def assignment? (word : String) : Option (String × String) :=
  match splitAtEquals word.toList with
  | some (name, value) =>
    if isName name then some (String.ofList name, String.ofList value) else none
  | none => none

end JobShell
