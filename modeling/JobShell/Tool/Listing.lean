import JobShell.Text.Version
import JobShell.Tool.Entries
import JobShell.Tool.NamePattern

/-!
# Listings of directories

`ls` lists files and directories. A `Listing.Setting` tells which names are
wanted, in which order they come, and how they are shown; `Layout` sets
texts in columns.
-/

namespace JobShell.Tool

open Machine (Action Facts FileKind)

namespace Listing

/-! ## Layout -/

/-- How texts are set. -/
inductive Layout
  | single
  /-- In columns, which are filled one after the other. -/
  | columns
  /-- In columns, line by line. -/
  | across
  /-- In lines, with commas in between. -/
  | commas
  deriving DecidableEq

/-- The least width of a column. -/
def leastWidth : Nat := 3

/-- The column that an item belongs to if `count` items are set in `columns`
columns. -/
def columnOf (layout : Layout) (count columns item : Nat) : Nat :=
  if layout = .across then item % columns
  else item / ((count + columns - 1) / columns)

/-- The widths of `columns` columns: two blanks stand between them. -/
def columnWidths (layout : Layout) (lengths : List Nat) (columns : Nat) : List Nat :=
  (List.range columns).map fun column =>
    let inside := lengths.zipIdx.filter fun (_, item) =>
      columnOf layout lengths.length columns item = column
    let gap := if column + 1 = columns then 0 else 2
    inside.foldl (fun width (length, _) => max width (length + gap)) leastWidth

/-- The widths of as many columns as fit into a line; columns that are all of
the least width count as fitting. -/
def bestWidths (layout : Layout) (width : Nat) (lengths : List Nat) : List Nat :=
  let most := if width = 0 then lengths.length
    else min lengths.length ((width + leastWidth - 1) / leastWidth)
  let candidates := (List.range most).reverse.map fun k => columnWidths layout lengths (k + 1)
  let fits (widths : List Nat) : Bool :=
    widths.length = 1 || width = 0 || widths.all (· = leastWidth) || widths.sum < width
  (candidates.find? fits).getD [0]

/-- The blanks that lead from one place on a line to another. `count` bounds
their number. -/
def indent (tab : Nat) : (count from_ to_ : Nat) → List Char
  | 0, _, _ => []
  | count + 1, from_, to_ =>
    if to_ ≤ from_ then []
    else if tab ≠ 0 ∧ (from_ + 1) / tab < to_ / tab then
      '\t' :: indent tab count (from_ + tab - from_ % tab) to_
    else ' ' :: indent tab count (from_ + 1) to_

/-- A line of texts in columns, the first of which begins at `start`. -/
def setLine (tab start : Nat) : List Nat → List String → String
  | width :: widths, text :: next :: texts =>
    text ++ String.ofList (indent tab width (start + text.length) (start + width)) ++
      setLine tab (start + width) widths (next :: texts)
  | _, texts => String.join texts

/-- Texts with commas in between, on lines of limited width; `used` characters
are on the line. -/
def setCommas (width used : Nat) : List String → String
  | [] => ""
  | [text] => text
  | text :: next :: texts =>
    let used := used + text.length
    if width = 0 ∨ used + next.length + 2 ≤ width then
      text ++ ", " ++ setCommas width (used + 2) (next :: texts)
    else text ++ ",\n" ++ setCommas width 0 (next :: texts)

/-- The lines that texts are set in. -/
def setTexts (layout : Layout) (width tab : Nat) (texts : List String) : List String :=
  match layout with
  | .single => texts
  | .commas => if texts = [] then [] else [setCommas width 0 texts]
  | layout =>
    let widths := bestWidths layout width (texts.map String.length)
    let rows := (texts.length + widths.length - 1) / widths.length
    (List.range rows).map fun row =>
      let line := texts.zipIdx.filter fun (_, item) =>
        if layout = .across then item / widths.length = row else item % rows = row
      setLine tab 0 widths (line.map (·.1))

/-! ## Settings -/

/-- Which names with a point at the beginning are wanted. -/
inductive Hidden
  | none
  /-- All but `.` and `..`. -/
  | most
  | all
  deriving DecidableEq

/-- What is shown behind names. -/
inductive Marks
  | none
  | slash
  /-- What kinds files are of. -/
  | kind
  /-- The same, and whether they can be executed. -/
  | all
  deriving DecidableEq

/-- What names are sorted by. -/
inductive Order
  | name
  | none
  | size
  | ending
  | version
  | width
  deriving DecidableEq

/-- How names are shown. -/
inductive Style
  | literal
  | shell
  | shellAlways
  | quoted
  | escaped
  deriving DecidableEq

/-- Which links are followed. -/
inductive Following
  | none
  /-- Operands that lead to directories. -/
  | directories
  | operands
  | all
  deriving DecidableEq

/-- What is listed, and how. -/
structure Setting where
  hidden : Hidden := .none
  /-- Names that match one of these are left out. -/
  ignored : List Text.Regex := []
  /-- The same, unless names with a point are wanted. -/
  ignoredUsually : List Text.Regex := []
  marks : Marks := .none
  order : Order := .name
  isReversed : Bool := false
  directoriesFirst : Bool := false
  layout : Layout := .single
  width : Nat := 80
  tab : Nat := 8
  style : Style := .literal
  /-- What can not be printed is shown as a question mark. -/
  masks : Bool := false
  following : Following := .directories
  /-- Directories are listed like files. -/
  asFiles : Bool := false
  recursive : Bool := false
  newline : String := "\n"

/-- A name with what is known about the file. -/
structure Item where
  name : String
  facts : Option Facts

/-- Whether a file is a directory. -/
def Item.isDirectory (item : Item) : Bool := item.facts.any (·.kind = .directory)

/-- The mark of a kind of file. -/
def mark (marks : Marks) (facts : Facts) : String :=
  match facts.kind with
  | .directory => if marks = .none then "" else "/"
  | .link => if marks = .kind ∨ marks = .all then "@" else ""
  | .pipe => if marks = .kind ∨ marks = .all then "|" else ""
  | .regular => if marks = .all ∧ facts.executable then "*" else ""
  | .device => ""

/-- A name in a style. -/
def Style.show (style : Style) (name : String) : String :=
  let escape (special : List Char) (c : Char) : List Char :=
    if special.contains c then ['\\', c] else (Quoted.escape? c).getD [c]
  match style with
  | .literal => name
  | .shell => Quoted.forShell name false
  | .shellAlways => Quoted.always name
  | .quoted => "\"" ++ String.ofList (name.toList.flatMap (escape ['"', '\\'])) ++ "\""
  | .escaped => String.ofList (name.toList.flatMap (escape [' ', '\\']))

/-- What is shown of a file. -/
def Setting.show (s : Setting) (item : Item) : String :=
  let name := s.style.show item.name
  let name := if s.masks then name.map fun c => if Quoted.isPrintable c then c else '?' else name
  name ++ (item.facts.map (mark s.marks)).getD ""

/-- The ending of a name, with the point in front of it. -/
def ending (name : String) : List Char :=
  let cs := name.toList
  let back := cs.reverse.takeWhile (· ≠ '.')
  if back.length = cs.length then [] else '.' :: back.reverse

/-- The order of two files. -/
def Setting.compare (s : Setting) (a b : Item) : Ordering :=
  let size (item : Item) : Nat := (item.facts.map (·.size)).getD 0
  let special : Ordering := match s.order with
    | .name | .none => .eq
    | .size => Ord.compare (size b) (size a)
    | .ending => List.compareLex Ord.compare (ending a.name) (ending b.name)
    | .version => Text.Version.compareNames a.name b.name
    | .width => Ord.compare (s.show a).length (s.show b).length
  let ordering := special.then (Ord.compare a.name b.name)
  let ordering := if s.isReversed then ordering.swap else ordering
  if s.directoriesFirst then
    (Ord.compare b.isDirectory a.isDirectory).then ordering
  else ordering

/-- Files in the wanted order. -/
def Setting.sort (s : Setting) (items : List Item) : List Item :=
  if s.order = .none then items else items.mergeSort fun a b => (s.compare a b).isLE

/-- Whether a name is wanted. -/
def Setting.wants (s : Setting) (name : String) : Bool :=
  let isIgnored (patterns : List Text.Regex) : Bool := patterns.any (fitsName · name)
  let isHidden := name.toList.head? = some '.'
  !isIgnored s.ignored &&
    (if s.hidden = .none then !isHidden && !isIgnored s.ignoredUsually
     else s.hidden = .all || (name ≠ "." && name ≠ ".."))

/-- Whether more has to be known about files than their names. -/
def Setting.asksForFacts (s : Setting) : Bool :=
  s.marks ≠ .none || s.order = .size || s.directoriesFirst || s.recursive

/-- What is printed of files. -/
def Setting.render (s : Setting) (items : List Item) : String :=
  joinLines (setTexts s.layout s.width s.tab (items.map s.show)) s.newline

/-! ## Listing -/

/-- Finds out what is known about names in a directory. -/
def itemsOf (s : Setting) (directory : String) : List String → Action (List Item)
  | [] => return []
  | name :: names => do
    let facts ←
      if s.asksForFacts then
        let path : Bytes := .ofOctets (entryPath directory name)
        match ← Action.facts path (s.following = .all) with
        | .ok facts => pure (some facts)
        | .error _ => pure (← Action.facts path false).toOption
      else pure none
    return { name, facts } :: (← itemsOf s directory names)

/-- Lists directories, each with those below it if that is wanted; `count`
bounds their number. Something was printed before unless it `isFirst`. -/
def listDirectories (i : Invocation) (s : Setting) (named : Bool) : (count : Nat) →
    (isFirst : Bool) → (status : Nat) → List String → Action Nat
  | 0, _, status, _ | _, _, status, [] => return status
  | count + 1, isFirst, status, directory :: rest => do
    match ← Action.names (.ofOctets directory) with
    | .error cause =>
      complainAs i.name s!"cannot open directory {Quoted.always directory}: {errorWords cause}"
      listDirectories i s named count isFirst 2 rest
    | .ok names =>
      let names := "." :: ".." :: names.map Bytes.octets
      let items ← itemsOf s directory (names.filter s.wants)
      let items := s.sort items
      let header :=
        if named then (if isFirst then "" else "\n") ++ s.style.show directory ++ ":\n" else ""
      say i.name (header ++ s.render items) 2
      let below := if !s.recursive then [] else
        (items.filter fun item => item.isDirectory && item.name ≠ "." && item.name ≠ "..").map
          fun item => entryPath directory item.name
      listDirectories i s named count false status (below ++ rest)

/-- Tells operands apart: files, and directories whose content is listed. -/
def sortOperands (i : Invocation) (s : Setting) (status : Nat) (items : List Item) :
    List String → Action (Nat × List Item × List Item)
  | [] =>
    let (directories, files) := (s.sort items).partition fun item =>
      item.isDirectory && !s.asFiles
    return (status, files, directories)
  | operand :: rest => do
    let path : Bytes := .ofOctets operand
    let own ← Action.facts path false
    let followed ← Action.facts path
    let facts : Except OsError Facts := match s.following, followed with
      | .none, _ => own
      | .directories, .ok facts => if facts.kind = .directory then .ok facts else own
      | .directories, .error _ => own
      | _, followed => followed
    match facts with
    | .ok facts =>
      sortOperands i s status (items ++ [{ name := operand, facts := some facts }]) rest
    | .error cause =>
      complainAs i.name s!"cannot access {Quoted.always operand}: {errorWords cause}"
      sortOperands i s 2 items rest

/-! ## Options -/

/-- The options of `ls`. -/
def options : OptionTable where
  flags := "aAbBcCdfFgGhHiklLmnNopqQrRsStuUvxXZ1"
  valued := "ITw"
  longValued := "%&$+!"
  attached := "^~"
  long := [("all", 'a'), ("almost-all", 'A'), ("directory", 'd'), ("recursive", 'R'),
    ("reverse", 'r'), ("escape", 'b'), ("quote-name", 'Q'), ("literal", 'N'),
    ("hide-control-chars", 'q'), ("show-control-chars", '='), ("ignore-backups", 'B'),
    ("ignore", 'I'), ("hide", '&'), ("dereference", 'L'),
    ("dereference-command-line", 'H'), ("dereference-command-line-symlink-to-dir", ';'),
    ("file-type", '/'), ("classify", '^'), ("indicator-style", '$'), ("sort", '%'),
    ("format", '+'), ("quoting-style", '!'), ("width", 'w'), ("tabsize", 'T'),
    ("group-directories-first", '>'), ("color", '~'), ("zero", '0'), ("no-group", 'G'),
    ("human-readable", 'h'), ("kibibytes", 'k'), ("author", '@'), ("size", 's'),
    ("inode", 'i'), ("numeric-uid-gid", 'n'), ("context", 'Z'), ("time", '?'),
    ("full-time", '*'), ("time-style", ':'), ("block-size", ':'), ("hyperlink", '~')]

/-- What the value of `--indicator-style` stands for. -/
def marksNames : List (String × Marks) :=
  [("none", .none), ("slash", .slash), ("file-type", .kind), ("classify", .all)]

/-- What the value of `--sort` stands for. -/
def orderNames : List (String × Order) :=
  [("none", .none), ("time", .name), ("size", .size), ("extension", .ending),
    ("version", .version), ("width", .width)]

/-- What the value of `--format` stands for. -/
def layoutNames : List (String × Layout) :=
  [("verbose", .single), ("long", .single), ("commas", .commas), ("horizontal", .across),
    ("across", .across), ("vertical", .columns), ("single-column", .single)]

/-- What the value of `--quoting-style` stands for. -/
def styleNames : List (String × Style) :=
  [("literal", .literal), ("shell", .shell), ("shell-always", .shellAlways),
    ("shell-escape", .shell), ("shell-escape-always", .shellAlways), ("c", .quoted),
    ("c-maybe", .quoted), ("escape", .escaped), ("locale", .shellAlways),
    ("clocale", .quoted)]

/-- What the value of `--color` stands for. -/
def colorNames : List (String × Nat) :=
  [("always", 0), ("yes", 0), ("force", 0), ("never", 1), ("no", 1), ("none", 1), ("auto", 2),
    ("tty", 2), ("if-tty", 2)]

/-- Takes up an option. -/
def take (i : Invocation) (s : Setting) (option : GivenOption) : Action Setting := do
  let text := option.2.getD ""
  match option.1 with
  | 'a' => return { s with hidden := .all }
  | 'A' => return { s with hidden := .most }
  | 'd' => return { s with asFiles := true }
  | 'R' => return { s with recursive := true }
  | 'r' => return { s with isReversed := true }
  | 'f' => return { s with hidden := .all, order := .none }
  | 'F' => return { s with marks := .all }
  | '^' => return { s with marks := .all }
  | 'p' => return { s with marks := .slash }
  | '/' => return { s with marks := .kind }
  | '$' => return { s with marks := ← chooseFrom i "indicator-style" text marksNames }
  | 'U' => return { s with order := .none }
  | 'S' => return { s with order := .size }
  | 'X' => return { s with order := .ending }
  | 'v' => return { s with order := .version }
  | '%' => return { s with order := ← chooseFrom i "sort" text orderNames }
  | '1' => return { s with layout := .single }
  | 'C' => return { s with layout := .columns }
  | 'x' => return { s with layout := .across }
  | 'm' => return { s with layout := .commas }
  | '+' => return { s with layout := ← chooseFrom i "format" text layoutNames }
  | 'Q' => return { s with style := .quoted }
  | 'b' => return { s with style := .escaped }
  | 'N' => return { s with style := .literal }
  | '!' => return { s with style := ← chooseFrom i "quoting-style" text styleNames }
  | 'q' => return { s with masks := true }
  | '=' => return { s with masks := false }
  | 'H' => return { s with following := .operands }
  | ';' => return { s with following := .directories }
  | 'L' => return { s with following := .all }
  | 'B' => return { s with ignored := namePattern "*~" :: namePattern ".*~" :: s.ignored }
  | 'I' => return { s with ignored := namePattern text :: s.ignored }
  | '&' => return { s with ignoredUsually := namePattern text :: s.ignoredUsually }
  | '>' => return { s with directoriesFirst := true }
  | '0' => return { s with newline := "\x00", layout := .single }
  | 'w' =>
    match Text.readNat? text with
    | some width => return { s with width }
    | none => die i.name s!"invalid line width: {Quoted.plain text}" 2
  | 'T' =>
    match Text.readNat? text with
    | some tab => return { s with tab }
    | none => die i.name s!"invalid tab size: {Quoted.plain text}" 2
  | '~' =>
    if let some text := option.2 then
      let _ ← chooseFrom i "color" text colorNames
    return s
  | _ => return s

end Listing

open Listing in
/-- Lists files and the content of directories. -/
def ls (i : Invocation) : Action Unit := do
  let (given, operands) ← i.options options 2
  let follows := given.any fun (c, _) => c = 'H' || c = 'L' || c = ';'
  let keepsLinks := !follows && given.any fun (c, _) => c = 'd' || c = 'F' || c = 'l' || c = '^'
  let start : Setting := { following := if keepsLinks then .none else .directories }
  let s ← given.foldlM (take i) start
  let operands := if operands = [] then ["."] else operands
  let (status, files, directories) ← sortOperands i s 0 [] operands
  if files ≠ [] then say i.name (s.render files) 2
  let named := s.recursive || operands.length > 1
  let status ← listDirectories i s named Action.manyTimes (files.isEmpty) status
    (directories.map (·.name))
  Action.exit status

end JobShell.Tool
