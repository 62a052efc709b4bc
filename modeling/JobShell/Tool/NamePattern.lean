import JobShell.Text.Regex.Reader

/-!
# Patterns of file names

Programs take patterns with `*`, `?` and brackets for the names of files they
look for or leave out. Such a pattern is a regular expression for whole
names.
-/

namespace JobShell.Tool

/-- The pattern that a file name pattern stands for, for whole names. -/
def namePattern (text : String) : Text.Regex :=
  .cat (.boundary .textStart) (.cat (go (text.length + 1) text.toList) (.boundary .textEnd))
where
  go : (length : Nat) → List Char → Text.Regex
    | 0, _ | _, [] => .empty
    | length + 1, '*' :: rest => .cat (.repeated .any 0 none) (go length rest)
    | length + 1, '?' :: rest => .cat .any (go length rest)
    | length + 1, '\\' :: c :: rest => .cat (.char c) (go length rest)
    | length + 1, '[' :: rest =>
      match Text.Regex.readBracket (match rest with
        | '!' :: rest => '^' :: rest
        | rest => rest) with
      | .ok (r, rest) => .cat r (go length rest)
      | .error _ => .cat (.char '[') (go length rest)
    | length + 1, c :: rest => .cat (.char c) (go length rest)

/-- Whether a name fits a pattern. -/
def fitsName (pattern : Text.Regex) (name : String) : Bool :=
  pattern.isIn { text := name.toList.toArray }

end JobShell.Tool
