import JobShell.Script.Startup
import JobShell.Tool.Calculation
import JobShell.Tool.Columnar
import JobShell.Tool.Columns
import JobShell.Tool.Condition
import JobShell.Tool.Copy
import JobShell.Tool.Difference
import JobShell.Tool.Editing
import JobShell.Tool.Encoded
import JobShell.Tool.Entries
import JobShell.Tool.Feeding
import JobShell.Tool.Folding
import JobShell.Tool.Listing
import JobShell.Tool.Moving
import JobShell.Tool.Numbering
import JobShell.Tool.Order
import JobShell.Tool.Part
import JobShell.Tool.Print
import JobShell.Tool.Range
import JobShell.Tool.Removing
import JobShell.Tool.Reversed
import JobShell.Tool.Runs
import JobShell.Tool.Search
import JobShell.Tool.Tally
import JobShell.Tool.Timing
import JobShell.Tool.Translate

/-!
# The programs of a machine

Every program that processes can execute, with the name of its file.
-/

namespace JobShell.Tool

open Machine (Action Program)

/-- The programs that read their arguments as texts. -/
def commands : List (String × (Invocation → Action Unit)) :=
  [("true", constantly 0), ("false", constantly 1), ("echo", echo), ("printf", printf),
   ("yes", yes), ("seq", seq), ("cat", cat), ("tee", tee), ("head", head), ("tail", tail),
   ("tr", tr), ("cut", cut), ("rev", rev), ("wc", wc), ("grep", grep), ("sort", sort),
   ("uniq", uniq), ("tac", tac), ("nl", nl), ("sed", sed), ("ls", ls), ("pwd", pwd),
   ("readlink", readlink), ("basename", basename), ("dirname", dirname),
   ("realpath", realpath), ("link", link), ("unlink", unlink), ("mkdir", mkdir),
   ("touch", touch), ("chmod", chmod), ("cp", cp), ("mv", mv), ("ln", ln), ("rm", rm),
   ("rmdir", rmdir), ("sleep", sleep), ("test", test), ("[", bracket), ("env", env),
   ("printenv", printenv), ("nohup", nohup), ("xargs", xargs), ("timeout", timeout),
   ("kill", kill), ("expr", expr), ("paste", paste), ("comm", comm), ("fold", fold),
   ("cmp", cmp), ("base64", base64)]

/-- All programs, by name. -/
def table : List (String × (List Bytes → Environment → Program)) :=
  (commands.map fun (name, command) =>
    (name, fun arguments environment =>
      (command (.ofArguments arguments environment)).program)) ++
  [("sh", Script.interpreter), ("dash", Script.interpreter)]

end JobShell.Tool
