import DeclGen.Document.Loading
import DeclGen.Proofs.Document.Reading
import DeclGen.Proofs.Json.ReadBack
import DeclGen.Tree.Json

/-!
# Nested documents

A document with one item, in which stands another one, and so on to any depth. It is loaded as long
as it keeps within the limit of levels, and its forest then has as many nodes inside each other.

## Implementation notes

The text has no white space, so a reader goes through the part in front of an inner item by
computation, whatever comes behind that part.
-/

namespace DeclGen

/-- An item with a name, and a number of items around it. -/
def Item.nested : Nat → Item
  | 0 => { tag := "var", name := "x" }
  | n + 1 => { tag := "var", children := [nested n] }

/-- A variable with a name, and a number of variables around it. -/
def Forest.nested : Nat → Forest
  | 0 => [.node .var [⟨.name, .ofString "x"⟩] []]
  | n + 1 => [.node .var [] (nested n)]

theorem Item.nodes_nested (n : Nat) : nodes [nested n] = Forest.nested n := by
  induction n with
  | zero => rfl
  | succ n ih => rw [nested, nodes, nodes, node, ih]; rfl

/-- Each item adds two levels, its object and the list in which it stands. -/
theorem Forest.depth_json_nested (n : Nat) : (nested n).json.depth = 2 * n + 4 := by
  induction n with
  | zero => decide +kernel
  | succ n ih =>
      obtain ⟨node, hnode⟩ : ∃ node, nested n = [node] := by cases n <;> exact ⟨_, rfl⟩
      rw [hnode] at ih
      have hchildren : (json (nested (n + 1))).depth = (json [node]).depth + 2 := by
        rw [nested, hnode]
        simp [json, Node.jsonList, Node.json, Json.depth, Json.depthOfElems, Json.depthOfFields,
          Json.ofString]
      rw [hchildren, ih]
      omega

namespace Json

/-- The text of a nested item. -/
def nestedItem : Nat → List Char
  | 0 =>
    ['\x7b', '"', 'k', 'i', 'n', 'd', '"', ':', '"', 'v', 'a', 'r', '"', ',',
      '"', 'n', 'a', 'm', 'e', '"', ':', '"', 'x', '"', '\x7d']
  | n + 1 =>
    ['\x7b', '"', 'k', 'i', 'n', 'd', '"', ':', '"', 'v', 'a', 'r', '"', ',',
      '"', 'c', 'h', 'i', 'l', 'd', 'r', 'e', 'n', '"', ':', '[']
      ++ nestedItem n ++ [']', '\x7d']

theorem length_nestedItem (n : Nat) : (nestedItem n).length = 28 * n + 25 := by
  induction n with
  | zero => rfl
  | succ n ih =>
      rw [nestedItem, List.length_append, List.length_append, ih]
      simp only [List.length_cons, List.length_nil]
      omega

theorem exists_nestedItem_eq_cons (n : Nat) : ∃ cs, nestedItem n = '\x7b' :: cs := by
  cases n with
  | zero => exact ⟨_, rfl⟩
  | succ n => exact ⟨_, rfl⟩

section Tight

variable {fuel : Nat} {name inside next rest : List Char} {c : Char} {v : Sourced}

/-- A list of one value, without white space. -/
theorem value?_singleton (hc : Begins c) (h : value? fuel (c :: inside) = some (v, ']' :: rest)) :
    ∃ source, value? (fuel + 2) ('[' :: c :: inside) = some (.array source [v], rest) := by
  have helems : elems? (fuel + 1) (c :: inside) = some ([v], rest) := by
    rw [elems?, h]
    rfl
  rw [value?_array hc.2 (skipSpace_cons hc.1 inside), helems]
  exact ⟨_, rfl⟩

/-- The last field of an object, without white space. -/
theorem fields?_last {k : List Char} (hk : stringRest name = some (k, ':' :: c :: inside))
    (hc : isSpace c = false) (h : value? fuel (c :: inside) = some (v, '\x7d' :: rest)) :
    fields? (fuel + 1) ('"' :: name) = some ([(String.ofList k, v)], rest) := by
  rw [fields?, hk]
  simp only [Option.bind_eq_bind, Option.bind_some, skipSpace_cons (c := ':') rfl,
    skipSpace_cons hc, h]
  rfl

/-- A field of an object before others, without white space. -/
theorem fields?_cons {k : List Char} {fs : List (String × Sourced)}
    (hk : stringRest name = some (k, ':' :: c :: inside)) (hc : isSpace c = false)
    (h : value? fuel (c :: inside) = some (v, ',' :: '"' :: next))
    (hfs : fields? fuel ('"' :: next) = some (fs, rest)) :
    fields? (fuel + 1) ('"' :: name) = some ((String.ofList k, v) :: fs, rest) := by
  rw [fields?, hk]
  simp only [Option.bind_eq_bind, Option.bind_some, skipSpace_cons (c := ':') rfl,
    skipSpace_cons hc, h, skipSpace_cons (c := ',') rfl, skipSpace_cons (c := '"') rfl, hfs]
  rfl

/-- An object with fields, without white space. -/
theorem value?_fields {fs : List (String × Sourced)}
    (h : fields? fuel ('"' :: inside) = some (fs, rest)) :
    ∃ source, value? (fuel + 1) ('\x7b' :: '"' :: inside) = some (.object source fs, rest) := by
  rw [value?, skipSpace_cons (c := '"') rfl]
  split
  · next heq => cases heq
  · rw [h]
    exact ⟨_, rfl⟩

end Tight

theorem value?_nestedItem_succ {n fuel : Nat} {rest : List Char} {s : Sourced}
    (h : value? fuel (nestedItem n ++ ']' :: '\x7d' :: rest) = some (s, ']' :: '\x7d' :: rest)) :
    ∃ outer inner, value? (fuel + 5) (nestedItem (n + 1) ++ rest) =
      some (.object outer [("kind", .string "var"), ("children", .array inner [s])], rest) := by
  obtain ⟨cs, hcs⟩ := exists_nestedItem_eq_cons n
  rw [nestedItem]
  simp only [hcs, List.cons_append, List.nil_append, List.append_assoc] at h ⊢
  obtain ⟨inner, harray⟩ := value?_singleton ⟨rfl, by decide⟩ h
  refine exists_comm.mp ⟨inner, value?_fields ?_⟩
  exact fields?_cons rfl rfl rfl (fields?_last rfl rfl harray)

/-- A nested item is read, whatever comes after it. -/
theorem value?_nestedItem (n : Nat) (rest : List Char) {fuel : Nat} (hfuel : 5 * n + 5 ≤ fuel) :
    ∃ s, value? fuel (nestedItem n ++ rest) = some (s, rest) ∧ s.value.depth = 2 * n + 1 ∧
      Item.overJson {} s = (Item.nested n, []) := by
  induction n generalizing fuel rest with
  | zero =>
      obtain ⟨fuel, rfl⟩ : ∃ k, fuel = k + 5 := ⟨fuel - 5, by omega⟩
      have hname : ItemField.ofName? (Text.fold "name") = some .name := by decide +kernel
      refine ⟨.object _ [("kind", .string "var"), ("name", .string "x")], rfl, rfl, ?_⟩
      simp [Item.overJson, Item.overFields, ItemField.ofName?_kind, hname, Sourced.stringOver,
        Sourced.attrText, Item.nested]
  | succ n ih =>
      obtain ⟨fuel, rfl⟩ : ∃ k, fuel = k + 5 := ⟨fuel - 5, by omega⟩
      have hless : 5 * n + 5 ≤ fuel := by omega
      obtain ⟨s, hs, hdepth, hitem⟩ := ih (']' :: '\x7d' :: rest) hless
      obtain ⟨outer, inner, hobject⟩ := value?_nestedItem_succ hs
      refine ⟨_, hobject, ?_, ?_⟩
      · simp [Sourced.value, valueFields, valueList, depth, depthOfFields, depthOfElems, hdepth]
        omega
      · simp [Item.overJson, Item.overFields, ItemField.ofName?_kind, ItemField.ofName?_children,
          Sourced.stringOver, Item.overList, Item.overElems, hitem, Item.nested]

end Json

namespace Document

/-- The text of a document with one nested item. -/
def nestedItemText (n : Nat) : Text :=
  .ofChars (['\x7b', '"', 'i', 't', 'e', 'm', 's', '"', ':', '['] ++ Json.nestedItem n
    ++ [']', '\x7d'])

theorem readFirst_nestedItemText {n : Nat} (h : 2 * n + 3 ≤ Json.maxDepth) :
    ∃ source inner s, Json.readFirst (nestedItemText n).chars =
        .ok (.object source [("items", .array inner [s])], []) ∧
      Item.overJson {} s = (Item.nested n, []) := by
  obtain ⟨cs, hcs⟩ := Json.exists_nestedItem_eq_cons n
  have hfuel : 5 * n + 5 ≤ 28 * n + 34 := by omega
  obtain ⟨s, hs, hdepth, hitem⟩ := Json.value?_nestedItem n [']', '\x7d'] hfuel
  have hlength : (Json.nestedItem n ++ [']', '\x7d']).length + 11 = 28 * n + 34 + 4 := by
    rw [List.length_append, Json.length_nestedItem]
    rfl
  rw [nestedItemText, Text.chars_ofChars]
  simp only [hcs, List.cons_append, List.nil_append] at hs hlength ⊢
  obtain ⟨inner, harray⟩ := Json.value?_singleton ⟨rfl, by decide⟩ hs
  have hfields : Json.fields? (28 * n + 34 + 3) ('"' :: 'i' :: 't' :: 'e' :: 'm' :: 's' :: '"'
      :: ':' :: '[' :: '\x7b' :: (cs ++ [']', '\x7d'])) =
        some ([("items", .array inner [s])], []) :=
    Json.fields?_last rfl rfl harray
  obtain ⟨source, hobject⟩ := Json.value?_fields hfields
  refine ⟨source, inner, s, Json.readFirst_of_value? rfl ?_ ?_, hitem⟩
  · exact (congrArg (Json.value? · _) hlength).trans hobject
  · simp [Json.Sourced.value, Json.valueFields, Json.valueList, Json.depth, Json.depthOfFields,
      Json.depthOfElems, hdepth]
    omega

theorem readJson_nestedItemText {n : Nat} (h : 2 * n + 3 ≤ Json.maxDepth) :
    readJson (nestedItemText n) = .ok { items := [.nested n] } := by
  obtain ⟨source, inner, s, hs, hitem⟩ := readFirst_nestedItemText h
  rw [readJson, hs]
  simp [ofJson, overFields, DocumentField.ofName?_items, Item.overList, Item.overElems, hitem,
    Fault.reported?]

/-- A store with a document with one nested item. -/
def nestedItemFiles (n : Nat) : Files := ⟨[(["d.json"], .file (nestedItemText n))]⟩

/-- A nested document within the limit is loaded. -/
theorem load_nestedItemFiles {n : Nat} (h : 2 * n + 3 ≤ Json.maxDepth) :
    (load (nestedItemFiles n) "d.json").2 =
      .ok { items := .nested n, config := fun _ => none } := by
  have hread : (nestedItemFiles n).read "d.json" = .ok (nestedItemText n) := by
    have hpieces : Path.pieces "d.json" = ["d.json"] := by decide +kernel
    have hlocate : (nestedItemFiles n).locate "d.json" = .ok ["d.json"] := by
      rw [Files.locate, hpieces]
      rfl
    rw [Files.read, Files.stat, hlocate]
    rfl
  have hcontent : Document.content { items := [.nested n] } =
      .ok { items := .nested n, config := fun _ => none } := by
    rw [content_eq_ok_iff, Item.nodes_nested]
    exact ⟨[], by simp [sortedSettings, configsOf], rfl⟩
  have hformat : DocumentFormat.ofPath? "d.json" = some .json := by decide +kernel
  rw [load, hformat]
  simp only [hread, decode, read, readJson_nestedItemText h, hcontent, Except.mapError]

end Document

end DeclGen
