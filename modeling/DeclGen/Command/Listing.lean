import DeclGen.Command.Failure
import DeclGen.Render.Dialect
import DeclGen.Schema.Text

/-!
# Listings

Commands that need no document: the list of targets, and the schema of documents.
-/

namespace DeclGen.Listing

/-- A string with spaces behind it, up to a width. -/
def padded (width : Nat) (s : String) : String :=
  s ++ String.ofList (List.replicate (width - s.length) ' ')

/-- The file name extension of a target. -/
def extension (l : Lang) : String := l.dialect.extension.toString

/-- The payload for a target. -/
def langJson (l : Lang) : Json :=
  .object [("tag", .ofString l.tag), ("name", .ofString l.displayName),
    ("ext", .ofString (extension l))]

/-- The line for a target. -/
def langLine (l : Lang) : String :=
  padded 6 l.tag ++ " " ++ padded 6 l.displayName ++ " " ++ extension l ++ "\n"

/-- The report on all targets. -/
def langs (r : Reporting) : Except CommandError Text :=
  match r.format with
  | .json => r.success (.array (Lang.all.map langJson))
  | .text => .ok (.ofString (String.join (Lang.all.map langLine)))

/-- The report on the schema. -/
def schema (r : Reporting) : Except CommandError Text :=
  match r.format with
  | .json => r.success Schema.json
  | .text => .ok Schema.text

end DeclGen.Listing
