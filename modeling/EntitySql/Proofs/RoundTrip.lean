import EntitySql.Proofs.Codec.Statement

/-!
# The JSON form loses nothing

Statements, definitions of catalogs, class maps and options are the same after they were written as
JSON values and read again. This is about values. A layer that carries them as text has to keep
whole numbers of 64 bits and finite doubles, and nothing else is asked of it: what is written holds
no other numbers. For statements this needs that their doubles are finite, as other doubles have no
text.

A value can be spelled in several ways: fields with defaults may be absent, records may be arrays.
What is written for the value that was read is one of these spellings, and it is read as the same
value.
-/

namespace EntitySql

/-- What is written is read back, and what is written for values with `P` is exact. What was read,
in whatever spelling, is the same if it is written and read once more. -/
structure Json.Lossless {α : Type} (P : α → Prop) (write : α → Json) (read : Json → Option α) :
    Prop where
  exact : ∀ a, P a → (write a).Exact
  readBack : ∀ a, read (write a) = some a
  normal : ∀ json a, read json = some a → read (write a) = some a

/-- What is exact and read back loses nothing on its way through text. -/
theorem Json.Lossless.of_readBack {α : Type} {P : α → Prop} {write : α → Json}
    {read : Json → Option α} (hexact : ∀ a, P a → (write a).Exact)
    (hread : ∀ a, read (write a) = some a) : Lossless P write read where
  exact := hexact
  readBack := hread
  normal _ a _ := hread a

/-- The JSON form of statements, definitions, class maps and options loses nothing. -/
theorem lossless_toJson (dialect : Json.Dialect) :
    Json.Lossless Statement.FiniteDoubles Statement.toJson (Statement.ofJson? dialect)
      ∧ Json.Lossless (fun _ => True) CatalogDefinition.toJson CatalogDefinition.ofJson?
      ∧ Json.Lossless (fun _ => True) ClassMap.toJson ClassMap.ofJson?
      ∧ Json.Lossless (fun _ => True) Options.toJson Options.ofJson? := by
  refine ⟨?_, ?_, ?_, ?_⟩
  · exact .of_readBack (fun _ => Statement.exact_toJson) (Statement.ofJson?_toJson dialect)
  · exact .of_readBack (fun definition _ => definition.exact_toJson)
      CatalogDefinition.ofJson?_toJson
  · exact .of_readBack (fun map _ => map.exact_toJson) ClassMap.ofJson?_toJson
  · exact .of_readBack (fun options _ => options.exact_toJson) Options.ofJson?_toJson

end EntitySql
