import EntitySql.Sql.Fragment

/-!
# Output buffers

Output goes to the innermost of a stack of frames. The root frame is always there; others are opened
to catch a part of the output and closed to take it.
-/

namespace EntitySql.Sql

/-- A stack of output frames. -/
structure Buffer where
  root : Fragment
  /-- The open frames, the innermost first. -/
  frames : List Fragment

namespace Buffer

/-- The buffer without output. -/
def empty : Buffer :=
  ⟨.empty, []⟩

instance : Inhabited Buffer := ⟨empty⟩

/-- Adds output to the innermost frame. -/
def append (buffer : Buffer) (sql : Fragment) : Buffer :=
  match buffer.frames with
  | [] => { buffer with root := buffer.root ++ sql }
  | frame :: frames => { buffer with frames := (frame ++ sql) :: frames }

/-- Opens a frame. -/
def pushFrame (buffer : Buffer) : Buffer :=
  { buffer with frames := .empty :: buffer.frames }

/-- Closes the innermost frame and takes its output. The root frame stays open. -/
def popFrame (buffer : Buffer) : Fragment × Buffer :=
  match buffer.frames with
  | [] => (.empty, buffer)
  | frame :: frames => (frame, { buffer with frames })

/-- The number of frames above the root. -/
def depth (buffer : Buffer) : Nat :=
  buffer.frames.length

/-- Closes all frames and takes the output of the root frame. -/
def takeRoot (buffer : Buffer) : Fragment × Buffer :=
  (buffer.root, empty)

end Buffer

end EntitySql.Sql
