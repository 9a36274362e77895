/-!
# Field names of documents

The fields that items, settings and documents have, whatever format a document is written in. Some
formats match field names without regard to letter case.
-/

namespace DeclGen

/-- A field of an item. -/
inductive ItemField where
  | tag
  | name
  | type
  | value
  | qualifier
  | decoration
  | children
  deriving DecidableEq, Repr, Inhabited

namespace ItemField

/-- The field with exactly this name. -/
def ofName? : String → Option ItemField
  | "kind" => some tag
  | "name" => some name
  | "type" => some type
  | "value" => some value
  | "qualifier" => some qualifier
  | "attribute" => some decoration
  | "children" => some children
  | _ => none

end ItemField

/-- A field of settings. -/
inductive SettingsField where
  | types
  | names
  | options
  deriving DecidableEq, Repr, Inhabited

namespace SettingsField

/-- The field with exactly this name. -/
def ofName? : String → Option SettingsField
  | "types" => some types
  | "names" => some names
  | "global" => some options
  | _ => none

end SettingsField

/-- A field of a document. -/
inductive DocumentField where
  | items
  | settings
  deriving DecidableEq, Repr, Inhabited

namespace DocumentField

/-- The field with exactly this name. -/
def ofName? : String → Option DocumentField
  | "items" => some items
  | "configs" => some settings
  | _ => none

end DocumentField

end DeclGen
