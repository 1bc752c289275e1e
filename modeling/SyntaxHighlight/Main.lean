import SyntaxHighlight.CommandLine.Run

/-! The program: it reads the files that its arguments name, and prints what comes of them. -/
namespace SyntaxHighlight.Program

/-- What is in a file, or why it cannot be read. -/
def readSource (path : String) : IO (Except String String) := do
  try
    pure (.ok (← IO.FS.readFile path))
  catch
    | .noFileOrDirectory .. => pure (.error noSuchFile)
    | e => pure (.error (toString e))

def readSources (paths : List String) : IO Files := do
  let contents ← paths.mapM fun path ↦ do pure (path, ← readSource path)
  pure fun path ↦ (contents.lookup path).getD (.error noSuchFile)

def execute (arguments : List String) : IO UInt32 := do
  let paths := ((Command.parse arguments).toOption.map Command.paths).getD []
  let outcome := Command.run (← readSources paths) arguments
  (← IO.getStdout).putStr outcome.output
  (← IO.getStderr).putStr outcome.complaint
  pure outcome.exitCode.toUInt32

end SyntaxHighlight.Program

def main (arguments : List String) : IO UInt32 := SyntaxHighlight.Program.execute arguments
