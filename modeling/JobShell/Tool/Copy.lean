import JobShell.Tool.Basic

/-!
# Programs that copy

`cat` copies its inputs to its output, and can number the lines and show
what can not be seen. `tee` copies its input to its output and to files.
Both work block by block.
-/

namespace JobShell.Tool

open Machine (Action OpenMode)

/-- Copies a descriptor to standard output block by block. -/
def copyBlocks (name : String) (fd : Fd) : Action (Except OsError Unit) :=
  Action.foldBlocks fd (fun _ block => do
    say name block.octets
    return ((), true)) ()

namespace Display

/-- How the copy differs from the original. -/
structure Style where
  numbers : Bool := false
  /-- Lines that are empty get no number. -/
  numbersText : Bool := false
  squeezes : Bool := false
  ends : Bool := false
  tabs : Bool := false
  visible : Bool := false

/-- Where in the output the copy is. -/
structure State where
  /-- The number of the last line that got one. -/
  number : Nat := 0
  /-- Between lines. -/
  fresh : Bool := true
  /-- How many empty lines were just copied, at most two. -/
  empties : Nat := 0
  /-- A carriage return that may be the end of a line. -/
  held : Bool := false

/-- A character that can be seen. -/
def show7 (c : Nat) : List Char :=
  if c < 32 then ['^', Char.ofNat (c + 64)]
  else if c = 127 then ['^', '?']
  else [Char.ofNat c]

/-- A character as a style shows it. -/
def Style.show (style : Style) (c : Char) : List Char :=
  if c = '\t' then if style.tabs then ['^', 'I'] else [c]
  else if !style.visible then [c]
  else if c.toNat < 128 then show7 c.toNat
  else 'M' :: '-' :: show7 (c.toNat - 128)

/-- The number in front of a line. -/
def label (number : Nat) : List Char :=
  let digits := Nat.toDigits 10 number
  List.replicate (6 - digits.length) ' ' ++ digits ++ ['\t']

/-- Copies the end of a line. -/
def Style.endLine (style : Style) (s : State) : State × List Char :=
  if s.fresh then
    let empties := s.empties + 1
    if style.squeezes && empties > 1 then ({ s with empties := 2, held := false }, [])
    else
      let number := if style.numbers && !style.numbersText then s.number + 1 else s.number
      let front := if number = s.number then [] else label number
      ({ s with number, empties, held := false },
        front ++ (if style.ends then ['$'] else []) ++ ['\n'])
  else
    let held := if s.held then (if style.ends then ['^', 'M'] else ['\r']) else []
    ({ s with fresh := true, empties := 0, held := false },
      held ++ (if style.ends then ['$'] else []) ++ ['\n'])

/-- Copies a character. -/
def Style.step (style : Style) (s : State) (c : Char) : State × List Char :=
  if c = '\n' then style.endLine s
  else
    let number := if s.fresh && (style.numbers || style.numbersText) then s.number + 1 else s.number
    let front := if number = s.number then [] else label number
    let front := front ++ if s.held then ['\r'] else []
    let holds := c = '\r' && style.ends && !style.visible
    ({ number, fresh := false, empties := 0, held := holds },
      front ++ if holds then [] else style.show c)

/-- Copies a block. -/
def Style.run (style : Style) (s : State) (block : Bytes) : State × String :=
  block.foldl (fun (s, text) b =>
    let (s, cs) := style.step s (Char.ofNat b.toNat)
    (s, cs.foldl String.push text)) (s, "")

/-- The style that options ask for. -/
def Style.ofOptions (options : List GivenOption) : Style where
  numbers := hasOption options 'n'
  numbersText := hasOption options 'b'
  squeezes := hasOption options 's'
  ends := ['e', 'E', 'A'].any (hasOption options)
  tabs := ['t', 'T', 'A'].any (hasOption options)
  visible := ['v', 'e', 't', 'A'].any (hasOption options)

end Display

/-- Whether an input is the file that is written: copying it would not end. -/
def isOwnOutput (fd : Fd) : Action Bool := do
  match ← Action.factsOf 1, ← Action.factsOf fd with
  | .ok output, .ok input =>
    if output.kind = .regular ∧ output.identity = input.identity then
      let position ← Action.askNumber (.seek fd 0)
      let written ← if output.appends then pure (.ok (output.size : Int)) else
        Action.askNumber (.seek 1 0)
      match position, written with
      | .ok position, .ok written => return position < written
      | _, _ => return false
    else return false
  | _, _ => return false

/-- Copies its inputs to its output. -/
def cat (i : Invocation) : Action Unit := do
  let (options, operands) ← i.options
    { flags := "AbeEnstTuv",
      long := [("number-nonblank", 'b'), ("number", 'n'), ("squeeze-blank", 's'),
        ("show-nonprinting", 'v'), ("show-ends", 'E'), ("show-tabs", 'T'), ("show-all", 'A')] }
  let plain := options.all (·.1 = 'u')
  let style := Display.Style.ofOptions options
  let copy (s : Display.State) (fd : Fd) : Action (Except OsError Display.State) := do
    if plain then return (← copyBlocks i.name fd).map fun _ => s
    else
      Action.foldBlocks fd (fun s block => do
        let (s, text) := style.run s block
        say i.name text
        return (s, true)) s
  let rec go (status : Nat) (s : Display.State) : List String → Action Unit
    | [] => do
      if s.held then say i.name "\r"
      Action.exit status
    | operand :: rest => do
      match ← openInput operand with
      | .error cause =>
        complainAbout i operand cause
        go 1 s rest
      | .ok fd =>
        if ← isOwnOutput fd then
          complainAs i.name (Quoted.forShell operand ++ ": input file is output file")
          go 1 s rest
        else
          match ← copy s fd with
          | .ok s =>
            closeInput fd
            go status s rest
          | .error cause =>
            complainAbout i operand cause
            closeInput fd
            go 1 s rest
  go 0 {} (if operands = [] then ["-"] else operands)

/-- Copies its input to its output and to files. An output that can not be
written is given up. If lost pipes are expected, nothing is said of them. -/
def tee (i : Invocation) : Action Unit := do
  let (options, operands) ← i.options
    { flags := "aip", attached := "o",
      long := [("append", 'a'), ("ignore-interrupts", 'i'), ("output-error", 'o')] }
  if hasOption options 'i' then
    let _ ← Action.ask (.handle Signal.interrupt .ignored)
  if let some text := optionValue? options 'o' then
    let _ ← chooseFrom i "output-error" text
      [("warn", 0), ("warn-nopipe", 1), ("exit", 2), ("exit-nopipe", 3)]
  let pipes := hasOption options 'p' || hasOption options 'o'
  if pipes then
    let _ ← Action.ask (.handle Signal.brokenPipe .ignored)
  let mode := if hasOption options 'a' then OpenMode.append else OpenMode.output
  let rec openAll (status : Nat) (outputs : List (String × Fd)) :
      List String → Action (Nat × List (String × Fd))
    | [] => return (status, outputs)
    | operand :: rest => do
      match ← Action.openFile (.ofOctets operand) mode with
      | .ok fd => openAll status (outputs ++ [(operand, fd)]) rest
      | .error cause => complainAbout i operand cause; openAll 1 outputs rest
  let rec writeEach (block : Bytes) (status : Nat) (kept : List (String × Fd)) :
      List (String × Fd) → Action (Nat × List (String × Fd))
    | [] => return (status, kept)
    | (operand, fd) :: rest => do
      match ← Action.writeAll fd block with
      | .ok () => writeEach block status (kept ++ [(operand, fd)]) rest
      | .error cause =>
        if pipes && cause = .brokenPipe then writeEach block status kept rest
        else
          complainAbout i operand cause
          writeEach block 1 kept rest
  let (status, outputs) ← openAll 0 [("standard output", 1)] operands
  let result ← Action.foldBlocks 0 (fun (status, outputs) block => do
    let (status, outputs) ← writeEach block status [] outputs
    return ((status, outputs), outputs ≠ [])) (status, outputs)
  match result with
  | .ok (status, _) => Action.exit status
  | .error cause => die i.name ("read error: " ++ errorWords cause)

end JobShell.Tool
