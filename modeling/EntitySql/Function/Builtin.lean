import EntitySql.Function.Basic

/-!
# Builtin functions

Functions that only the query language has, and functions of the database that calls are passed
through to.
-/

namespace EntitySql.Builtin

/-- Functions that only the query language has. -/
def queryFunctions : List FunctionDef :=
  [⟨"ANY", .aggregate, .aggregatePredicate "MAX", 1, some 1, some .boolean,
      "True if any value in the group is true"⟩,
    ⟨"SOME", .aggregate, .aggregatePredicate "MAX", 1, some 1, some .boolean,
      "True if some value in the group is true"⟩,
    ⟨"EVERY", .aggregate, .aggregatePredicate "MIN", 1, some 1, some .boolean,
      "True if every value in the group is true"⟩,
    ⟨"EC_CLASSNAME", .scalar, .plain, 1, some 2, some .string,
      "Formatted name of the class with the given id"⟩,
    ⟨"EC_CLASSID", .scalar, .plain, 1, some 2, some .long, "Id of the class with the given name"⟩,
    ⟨"EC_INSTANCEOF", .scalar, .plain, 2, none, some .boolean,
      "True if the class id derives from one of the named classes"⟩,
    ⟨"REGEXP", .scalar, .plain, 2, some 2, some .boolean, ""⟩,
    ⟨"REGEXP_EXTRACT", .scalar, .plain, 2, some 3, some .string, ""⟩,
    ⟨"STRTOID", .scalar, .plain, 1, some 1, some .long, ""⟩,
    ⟨"IDTOSTR", .scalar, .plain, 1, some 1, some .string, ""⟩,
    ⟨"IDTOHEX", .scalar, .plain, 1, some 1, some .string, ""⟩,
    ⟨"HEXTOID", .scalar, .plain, 1, some 1, some .long, ""⟩]

/-- The aggregate functions of the database. -/
def nativeAggregates : List FunctionDef :=
  [⟨"AVG", .aggregate, .plain, 1, some 1, some .double, "Average of non-NULL values"⟩,
    ⟨"COUNT", .aggregate, .plain, 0, some 1, some .long, "Count the number of rows"⟩,
    ⟨"GROUP_CONCAT", .aggregate, .plain, 1, some 2, some .string,
      "Concatenate values from multiple rows"⟩,
    ⟨"MAX", .aggregate, .plain, 1, none, none, "Maximum value"⟩,
    ⟨"MIN", .aggregate, .plain, 1, none, none, "Minimum value"⟩,
    ⟨"SUM", .aggregate, .plain, 1, some 1, none, "Sum of values"⟩,
    ⟨"TOTAL", .aggregate, .plain, 1, some 1, some .double, "Floating point sum of values"⟩]

/-- The functions of the database on single values. -/
def nativeScalars : List FunctionDef :=
  [⟨"ABS", .scalar, .plain, 1, some 1, none, ""⟩,
    ⟨"CHAR", .scalar, .plain, 0, none, some .string, ""⟩,
    ⟨"COALESCE", .scalar, .plain, 2, none, none, ""⟩,
    ⟨"GLOB", .scalar, .plain, 2, some 2, some .boolean, ""⟩,
    ⟨"HEX", .scalar, .plain, 1, some 1, some .string, ""⟩,
    ⟨"IFNULL", .scalar, .plain, 2, some 2, none, ""⟩,
    ⟨"INSTR", .scalar, .plain, 2, some 2, some .integer, ""⟩,
    ⟨"LENGTH", .scalar, .plain, 1, some 1, some .integer, ""⟩,
    ⟨"LOWER", .scalar, .plain, 1, some 1, some .string, ""⟩,
    ⟨"LTRIM", .scalar, .plain, 1, some 2, some .string, ""⟩,
    ⟨"NULLIF", .scalar, .plain, 2, some 2, none, ""⟩,
    ⟨"PRINTF", .scalar, .plain, 1, none, some .string, ""⟩,
    ⟨"QUOTE", .scalar, .plain, 1, some 1, some .string, ""⟩,
    ⟨"RANDOM", .scalar, .plain, 0, some 0, some .long, ""⟩,
    ⟨"RANDOMBLOB", .scalar, .plain, 1, some 1, some .binary, ""⟩,
    ⟨"REPLACE", .scalar, .plain, 3, some 3, some .string, ""⟩,
    ⟨"ROUND", .scalar, .plain, 1, some 2, some .double, ""⟩,
    ⟨"RTRIM", .scalar, .plain, 1, some 2, some .string, ""⟩,
    ⟨"SUBSTR", .scalar, .plain, 2, some 3, some .string, ""⟩,
    ⟨"TRIM", .scalar, .plain, 1, some 2, some .string, ""⟩,
    ⟨"TYPEOF", .scalar, .plain, 1, some 1, some .string, ""⟩,
    ⟨"UNICODE", .scalar, .plain, 1, some 1, some .integer, ""⟩,
    ⟨"UPPER", .scalar, .plain, 1, some 1, some .string, ""⟩,
    ⟨"ZEROBLOB", .scalar, .plain, 1, some 1, some .binary, ""⟩]

/-- Functions on dates and times. -/
def dateFunctions : List FunctionDef :=
  [⟨"DATE", .scalar, .plain, 1, none, some .string, ""⟩,
    ⟨"TIME", .scalar, .plain, 1, none, some .string, ""⟩,
    ⟨"DATETIME", .scalar, .plain, 1, none, some .string, ""⟩,
    ⟨"JULIANDAY", .scalar, .plain, 1, none, some .double, ""⟩,
    ⟨"STRFTIME", .scalar, .plain, 2, none, some .string, ""⟩,
    ⟨"CURRENT_DATE", .scalar, .julianDay, 0, some 0, some .dateTime, "Current UTC date"⟩,
    ⟨"CURRENT_TIME", .scalar, .julianDay, 0, some 0, some .dateTime, "Current UTC time"⟩,
    ⟨"CURRENT_TIMESTAMP", .scalar, .julianDay, 0, some 0, some .dateTime,
      "Current UTC date and time"⟩]

/-- Functions on JSON texts. -/
def jsonFunctions : List FunctionDef :=
  [⟨"JSON", .scalar, .plain, 1, some 1, some .string, ""⟩,
    ⟨"JSON_ARRAY", .scalar, .plain, 0, none, some .string, ""⟩,
    ⟨"JSON_EXTRACT", .scalar, .plain, 2, none, none, ""⟩,
    ⟨"JSON_OBJECT", .scalar, .plain, 0, none, some .string, ""⟩,
    ⟨"JSON_EACH", .tableValued, .plain, 1, some 2, none,
      "One row per element of a JSON array or object"⟩,
    ⟨"JSON_TREE", .tableValued, .plain, 1, some 2, none,
      "One row per element of a JSON value, recursively"⟩]

/-- Functions that need a window. -/
def windowFunctions : List FunctionDef :=
  [⟨"ROW_NUMBER", .window, .plain, 0, some 0, some .long, ""⟩,
    ⟨"RANK", .window, .plain, 0, some 0, some .long, ""⟩,
    ⟨"DENSE_RANK", .window, .plain, 0, some 0, some .long, ""⟩,
    ⟨"PERCENT_RANK", .window, .plain, 0, some 0, some .double, ""⟩,
    ⟨"CUME_DIST", .window, .plain, 0, some 0, some .double, ""⟩,
    ⟨"NTILE", .window, .plain, 1, some 1, some .long, ""⟩,
    ⟨"LAG", .window, .plain, 1, some 3, none, ""⟩,
    ⟨"LEAD", .window, .plain, 1, some 3, none, ""⟩,
    ⟨"FIRST_VALUE", .window, .plain, 1, some 1, none, ""⟩,
    ⟨"LAST_VALUE", .window, .plain, 1, some 1, none, ""⟩,
    ⟨"NTH_VALUE", .window, .plain, 2, some 2, none, ""⟩]

/-- All builtin functions. -/
def functions : List FunctionDef :=
  queryFunctions ++ nativeAggregates ++ nativeScalars ++ dateFunctions ++ jsonFunctions
    ++ windowFunctions

end EntitySql.Builtin
