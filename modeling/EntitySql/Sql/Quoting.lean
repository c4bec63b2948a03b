/-!
# Quoted names and texts

Names stand in brackets. A text stands in single quotes, and a quote inside it is written twice.
-/

namespace EntitySql.Sql

/-- A name in brackets. -/
def bracketed (name : String) : String :=
  "[" ++ name ++ "]"

/-- A column behind the alias of its table, each in brackets. -/
def qualified (aliasName column : String) : String :=
  bracketed aliasName ++ "." ++ bracketed column

/-- The characters of a text with every quote written twice. -/
def doubledQuotes (chars : List Char) : List Char :=
  chars.flatMap fun c => if c = '\'' then ['\'', '\''] else [c]

/-- A text in single quotes. -/
def quoted (text : String) : String :=
  "'" ++ String.ofList (doubledQuotes text.toList) ++ "'"

end EntitySql.Sql
