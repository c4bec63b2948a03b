/-!
# Paths

Names with dots between them.
-/

namespace EntitySql.Text

/-- The part of a path before its first dot. -/
def rootName (path : String) : String :=
  String.ofList (path.toList.takeWhile (· ≠ '.'))

end EntitySql.Text
