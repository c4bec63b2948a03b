import EntitySql.Request

/-!
# The command line

Reads a request from the file that is named, or else from the standard input, and prints the answer.
-/

namespace EntitySql

/-- The text of the request. -/
def readRequest : List String → IO String
  | path :: _ => IO.FS.readFile path
  | [] => do (← IO.getStdin).readToEnd

/-- Why the text of the request cannot be read. -/
def unreadableMessage : List String → String
  | path :: _ => s!"Failed to read request file '{path}'"
  | [] => "Failed to read request from stdin"

/-- Reports why there is no answer. -/
def refuse (message : String) : IO UInt32 := do
  IO.eprintln ("Error: " ++ message)
  return 1

/-- Prints the answer to the request. -/
def respond (args : List String) : IO UInt32 := do
  match ← (readRequest args).toBaseIO with
  | .error _ => refuse (unreadableMessage args)
  | .ok text =>
    match Request.run text with
    | .error error => refuse error.message
    | .ok output =>
      IO.println output
      return 0

end EntitySql

/-- Answers one request. -/
def main (args : List String) : IO UInt32 :=
  EntitySql.respond args
