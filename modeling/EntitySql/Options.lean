import EntitySql.Text.Ascii
import EntitySql.Text.NameSet

/-!
# Options

What a caller can allow, forbid or switch on.
-/

namespace EntitySql

/-- The options of lowering. -/
structure Options where
  /-- Functions that may not be called, without regard to letter case. -/
  disabledFunctions : Text.NameSet
  /-- Whether experimental syntax is allowed. -/
  experimental : Bool
  /-- Whether nested selects read only the properties that they refer to. -/
  pruneNestedViews : Bool
  /-- How deep expressions may be nested. -/
  maxDepth : UInt64

namespace Options

/-- The options that hold if nothing else is said. -/
def default : Options :=
  ⟨.empty, false, false, 256⟩

instance : Inhabited Options := ⟨default⟩

/-- Whether calls of a function are forbidden. -/
def isDisabled (options : Options) (function : String) : Bool :=
  options.disabledFunctions.toList.any (Text.sameName · function)

/-- The options with one more function forbidden. -/
def disable (options : Options) (function : String) : Options :=
  { options with disabledFunctions := options.disabledFunctions.insert function }

end Options

end EntitySql
