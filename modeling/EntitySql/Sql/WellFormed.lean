import EntitySql.Text.Blank

/-!
# Well-formed SQL

A text is well formed if it is not blank, shows no anchor, and its quotes, brackets and parentheses
close: parentheses and brackets inside a quoted text count as text, and so do quotes and parentheses
inside brackets. Brackets do not nest.
-/

namespace EntitySql.Sql

/-- Where the scanner is. -/
inductive Region where
  | plain
  | quoted
  | bracketed
deriving DecidableEq

/-- Scans the rest of a text with the given number of parentheses still open. -/
def closesFrom : Region → Nat → List Char → Bool
  | region, depth, [] => region = .plain && depth = 0
  | .plain, depth, c :: rest =>
    if c = '\'' then closesFrom .quoted depth rest
    else if c = '[' then closesFrom .bracketed depth rest
    else if c = ']' then false
    else if c = '(' then closesFrom .plain (depth + 1) rest
    else if c = ')' then 0 < depth && closesFrom .plain (depth - 1) rest
    else closesFrom .plain depth rest
  | .quoted, depth, c :: rest =>
    closesFrom (if c = '\'' then .plain else .quoted) depth rest
  | .bracketed, depth, c :: rest =>
    if c = '[' then false
    else closesFrom (if c = ']' then .plain else .bracketed) depth rest

/-- Whether a list occurs in another, without gaps. -/
def occursIn (part : List Char) : List Char → Bool
  | [] => part.isEmpty
  | c :: rest => part.isPrefixOf (c :: rest) || occursIn part rest

/-- Whether a text is well-formed SQL. -/
def isWellFormed (sql : String) : Bool :=
  !Text.isBlankText sql && !occursIn "<anchor".toList sql.toList && closesFrom .plain 0 sql.toList

end EntitySql.Sql
