import EntitySql.Schema.Table

/-!
# Definitions of a catalog

The tables and classes from which a catalog is made, in the order in which they were written.
-/

namespace EntitySql

/-- A class together with the table that stores it, if it is stored. -/
structure ClassEntry where
  definition : ClassDef
  table : Option String
  /-- Whether queries may ask for the class together with its subclasses. -/
  polymorphic : Bool

/-- All tables and classes of a catalog. -/
structure CatalogDefinition where
  tables : List Table
  classes : List ClassEntry

end EntitySql
