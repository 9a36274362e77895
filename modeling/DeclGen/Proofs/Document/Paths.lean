import DeclGen.Proofs.Decimal.Digits
import DeclGen.Proofs.Document.Conversion
import DeclGen.Proofs.Render.Refusal
import DeclGen.Proofs.Text.Quoting
import DeclGen.Proofs.Tree.Positions
import DeclGen.Schema.Issue
import Mathlib.Algebra.Group.Nat.Defs

/-!
# Paths of nodes

A node is named by its path wherever something is said about it: in the record about its tag, in the
violation that the check of the forest or of a parameter reports, in the violation that stops
rendering, and in the issues of the schema. All of them write the same path for the same position,
and no two positions have the same path.

## Implementation notes

All but the last extend a path on their way down. The schema writes a path from a location, in which
positions are told from names by their digits; this works as long as they are signed 64-bit numbers,
and only then.
-/

namespace DeclGen

open Forest (indexPath)

section Spelling

/-- A position behind a name, as it is written in a path. -/
def stepChars (name : List Char) (n : Nat) : List Char :=
  name ++ '[' :: ((toString n).toList ++ [']'])

/-- A position can be told from the rest of the path behind it. -/
theorem decipherable_stepChars (name : List Char) :
    Decipherable (fun _ => True) (stepChars name) := by
  intro m n _ _ r s heq
  simp only [stepChars, List.append_assoc, List.cons_append, List.nil_append,
    List.append_cancel_left_eq, List.cons.injEq, true_and] at heq
  exact (Decimal.toString_append_inj (by decide)).mp heq

namespace Forest

theorem toList_indexPath_cons (i : Nat) (rest : List Nat) :
    (indexPath (i :: rest)).toList =
      stepChars "items".toList i ++ rest.flatMap (stepChars ".children".toList) := by
  have htop : ("items[" ++ toString i ++ "]").toList = stepChars "items".toList i := by
    simp [stepChars]
  have hstep (j : Nat) :
      (".children[" ++ toString j ++ "]").toList = stepChars ".children".toList j := by
    simp [stepChars]
  rw [indexPath, String.toList_append, String.toList_join, List.flatMap_map, htop]
  simp only [hstep]

/-- No two addresses have the same path. -/
theorem indexPath_injective : Function.Injective indexPath := by
  have hne (i : Nat) (rest : List Nat) : indexPath (i :: rest) ≠ "" := by
    intro h
    have hchars := congrArg String.toList h
    rw [toList_indexPath_cons] at hchars
    simp [stepChars] at hchars
  intro a b h
  cases a with
  | nil =>
      cases b with
      | nil => rfl
      | cons j b => exact absurd h.symm (hne j b)
  | cons i a =>
      cases b with
      | nil => exact absurd h (hne i a)
      | cons j b =>
          have hchars := congrArg String.toList h
          rw [toList_indexPath_cons, toList_indexPath_cons] at hchars
          obtain ⟨rfl, hrest⟩ := decipherable_stepChars _ trivial trivial hchars
          rw [(decipherable_stepChars _).eq_of_flatMap_eq (by simp [stepChars]) (by simp)
            (by simp) hrest]

/-- The path of a position below another one extends its path. -/
theorem placeBelow_indexPath {b : List Nat} (hb : b ≠ []) (c : List Nat) :
    Violation.placeBelow (indexPath b) c = indexPath (b ++ c) := by
  obtain ⟨i, b, rfl⟩ := List.exists_cons_of_ne_nil hb
  rw [placeBelow_eq, List.cons_append, indexPath, indexPath, List.map_append, String.join_append,
    String.append_assoc]

end Forest

end Spelling

namespace Schema

section Locations

/-- The location of the node at an address: the names and positions on the way to it. -/
def itemLocation : List Nat → Pointer
  | [] => []
  | i :: rest => "items" :: toString i :: rest.flatMap fun j => ["children", toString j]

/-- A position is told by its digits exactly when it is a signed 64-bit number. -/
theorem isIndex_toString (n : Nat) : isIndex (toString n) = decide (n < 2 ^ 63) := by
  have hdigits := Decimal.isDigits_toString n
  have hvalue := Decimal.ofDigits_toString n
  rw [isIndex]
  generalize (toString n).toList = ds at hdigits hvalue
  have hsign : Decimal.takeSign (ds ++ []) = (false, ds ++ []) := hdigits.takeSign
  rw [List.append_nil] at hsign
  simp [hsign, hdigits.1, List.all_eq_true.mpr hdigits.2, hvalue]

/-- A position on the way to a node, as the text of a location has it. -/
def positionText (n : Nat) : String :=
  if n < 2 ^ 63 then "[" ++ toString n ++ "]" else "." ++ toString n

theorem pathBelow_toString {p : String} (hp : p ≠ "") (n : Nat) :
    pathBelow p (toString n) = p ++ positionText n := by
  rw [pathBelow, isIndex_toString, positionText]
  by_cases hn : n < 2 ^ 63
  · rw [if_pos (decide_eq_true hn), if_pos hn]
    simp only [String.append_assoc]
  · rw [if_neg (by simpa using hn), if_neg (by simp [hp]), if_neg hn, String.append_assoc]

theorem pathBelow_children {p : String} (hp : p ≠ "") :
    pathBelow p "children" = p ++ ".children" := by
  have hname : isIndex "children" = false := by decide
  simp [pathBelow, hname, hp, String.append_assoc]

theorem foldl_pathBelow (rest : List Nat) :
    ∀ p : String, p ≠ "" →
      (rest.flatMap fun j => ["children", toString j]).foldl pathBelow p =
        p ++ String.join (rest.map fun j => ".children" ++ positionText j) := by
  induction rest with
  | nil =>
      intro p _
      simp
  | cons j rest ih =>
      intro p hp
      have hchildren : p ++ ".children" ≠ "" := by simp
      have hposition : p ++ ".children" ++ positionText j ≠ "" := by simp
      rw [List.flatMap_cons, List.foldl_append, List.foldl_cons, List.foldl_cons, List.foldl_nil,
        pathBelow_children hp, pathBelow_toString hchildren, ih _ hposition, List.map_cons,
        String.join_cons]
      simp only [String.append_assoc]

theorem path_itemLocation_cons (i : Nat) (rest : List Nat) :
    (itemLocation (i :: rest)).path =
      "items" ++ positionText i ++
        String.join (rest.map fun j => ".children" ++ positionText j) := by
  have hitems : pathBelow "" "items" = "items" := by decide
  rw [itemLocation, Pointer.path, List.foldl_cons, List.foldl_cons, hitems,
    pathBelow_toString (by decide), foldl_pathBelow rest _ (by simp)]

/-- The two spellings of a position differ as soon as it is no signed 64-bit number. -/
theorem append_positionText_eq_iff (name : List Char) (n : Nat) {s t : List Char} :
    name ++ (positionText n).toList ++ s = stepChars name n ++ t ↔ n < 2 ^ 63 ∧ s = t := by
  rw [positionText]
  by_cases hn : n < 2 ^ 63
  · rw [if_pos hn, and_iff_right hn]
    simp [stepChars]
  · rw [if_neg hn, iff_false_intro (not_and_of_not_left _ hn)]
    simp [stepChars]

theorem flatMap_positionText_eq_iff (rest : List Nat) :
    (rest.flatMap fun j => ".children".toList ++ (positionText j).toList) =
        rest.flatMap (stepChars ".children".toList) ↔ ∀ n ∈ rest, n < 2 ^ 63 := by
  induction rest with
  | nil => simp
  | cons j rest ih =>
      rw [List.flatMap_cons, List.flatMap_cons, append_positionText_eq_iff, ih,
        List.forall_mem_cons]

/-- A location has the path of its node exactly when the positions on the way are signed 64-bit
numbers. -/
theorem path_itemLocation_eq_iff (a : List Nat) :
    (itemLocation a).path = indexPath a ↔ ∀ n ∈ a, n < 2 ^ 63 := by
  cases a with
  | nil => simp [itemLocation, Pointer.path, indexPath]
  | cons i rest =>
      rw [path_itemLocation_cons, ← String.toList_inj, Forest.toList_indexPath_cons]
      simp only [String.toList_append, String.toList_join, List.flatMap_map]
      rw [append_positionText_eq_iff, flatMap_positionText_eq_iff, List.forall_mem_cons]

/-- A position that is too great is taken for a name. -/
example : (itemLocation [0, 2 ^ 63]).path = "items[0].children.9223372036854775808" := by
  decide +kernel

end Locations

end Schema

namespace Item

section Records

theorem unknownTagRecord_inj {s t p q : String} :
    unknownTagRecord s p = unknownTagRecord t q ↔ s = t ∧ p = q := by
  simp [unknownTagRecord]

/-- In a row of items that is recorded one after the other, the records about each item stand
together. -/
theorem warnings_infix_row {place : Nat → String} (row : Nat → List Item → List Record)
    (hrow : ∀ n c rest, row n (c :: rest) = warnings (place n) c ++ row (n + 1) rest)
    {items : List Item} {i : Item} {m : Nat} (h : items[m]? = some i) :
    ∀ n, i.warnings (place (n + m)) <:+: row n items := by
  induction items generalizing m with
  | nil => simp at h
  | cons c rest ih =>
      intro n
      rw [hrow]
      cases m with
      | zero =>
          cases h
          exact List.infix_append_left
      | succ m =>
          have hrest := ih h (n + 1)
          rw [Nat.add_right_comm, Nat.add_assoc] at hrest
          exact hrest.trans List.infix_append_right

/-- The records about an item and the items below it stand together. -/
theorem warnings_infix_of_below? {i j : Item} {a : List Nat} (h : i.below? a = some j) :
    ∀ place, j.warnings (Violation.placeBelow place a) <:+: i.warnings place := by
  induction a generalizing i with
  | nil =>
      cases h
      intro place
      exact List.infix_rfl
  | cons n a ih =>
      intro place
      obtain ⟨c, hc, hj⟩ := Option.bind_eq_some_iff.mp h
      have hchild := warnings_infix_row (childWarnings place)
        (fun n c rest => by rw [childWarnings]) hc 0
      rw [Nat.zero_add] at hchild
      rw [warnings_eq place i]
      exact ((ih hj _).trans hchild).trans List.infix_append_right

end Records

end Item

namespace Document

section Records

variable {d : Document} {a : List Nat}

/-- The records about an item and the items below it are those about an item at its path. -/
theorem warnings_infix_of_at? {i : Item} (h : Item.at? d.items a = some i) :
    i.warnings (indexPath a) <:+: d.warnings := by
  cases a with
  | nil => cases h
  | cons n a =>
      obtain ⟨c, hc, hi⟩ := Option.bind_eq_some_iff.mp h
      have htop := Item.warnings_infix_row Item.topWarnings
        (fun n c rest => by rw [Item.topWarnings]) hc 0
      rw [Nat.zero_add] at htop
      rw [← Forest.placeOf_eq_indexPath]
      exact (Item.warnings_infix_of_below? hi _).trans htop

/-- A record with the path of an address is about the item at this address. -/
theorem unknownTagRecord_mem_warnings_iff (d : Document) (a : List Nat) (tag : String) :
    Item.unknownTagRecord tag (indexPath a) ∈ d.warnings ↔
      ∃ i, Item.at? d.items a = some i ∧ i.tag = tag ∧ Kind.parse? tag = none := by
  have hrefused := (Item.refused_refusalsFrom d.items).complete
  simp only [warnings, Item.topWarnings_eq_map, List.mem_map, Forest.placeOf_eq_indexPath]
  constructor
  · rintro ⟨r, hr, heq⟩
    obtain ⟨htag, hpath⟩ := Item.unknownTagRecord_inj.mp heq
    obtain ⟨hfound, hnone⟩ := (hrefused r).mp hr
    rw [← htag, ← Forest.indexPath_injective hpath]
    exact ⟨r.2, hfound, rfl, hnone⟩
  · rintro ⟨i, hfound, rfl, hnone⟩
    exact ⟨(a, i), (hrefused (a, i)).mpr ⟨hfound, hnone⟩, rfl⟩

end Records

/-- All paths are written alike, and a path names one position. For every address, the records of a
document at this path are those about the item there; the checks of a forest and of a parameter and
the rendering of a forest report this path exactly when the first offence that they come to stands
there; the location of the node has this path exactly when its positions are signed 64-bit numbers;
and no other address has it. -/
theorem path_names_one_node (a : List Nat) :
    (∀ d : Document,
      (∀ i, Item.at? d.items a = some i → i.warnings (indexPath a) <:+: d.warnings) ∧
      ∀ tag, Item.unknownTagRecord tag (indexPath a) ∈ d.warnings ↔
        ∃ i, Item.at? d.items a = some i ∧ i.tag = tag ∧ Kind.parse? tag = none) ∧
    (∀ f : Forest, (∃ v, f.validate = some v ∧ v.place = indexPath a) ↔ f.FirstOffence [] a) ∧
    (∀ (f : Forest) (b : List Nat) (fn : Kind) (param : Node), f.IsParam b fn param →
      ((∃ v, param.checkParams fn = some v ∧
          Violation.placeBelow (indexPath b) v.address = indexPath a) ↔ f.FirstOffence b a)) ∧
    (∀ (style : Style) (f : Forest),
      ((∃ v, style.render f = .error v ∧ v.place = indexPath a) ↔ f.prune.FirstOffence [] a) ∧
      ∀ p k, f.prune.Offends a p k → f.Offends a p k) ∧
    ((Schema.itemLocation a).path = indexPath a ↔ ∀ n ∈ a, n < 2 ^ 63) ∧
    ∀ b, indexPath b = indexPath a → b = a := by
  have hplace (v : Violation) : v.place = indexPath a ↔ v.address = a := by
    rw [Violation.place, Forest.placeOf_eq_indexPath, Forest.indexPath_injective.eq_iff]
  refine ⟨fun d => ⟨fun i => warnings_infix_of_at?, unknownTagRecord_mem_warnings_iff d a⟩,
    ?_, ?_, ?_, Schema.path_itemLocation_eq_iff a, fun b h => Forest.indexPath_injective h⟩
  · intro f
    simp only [hplace]
    exact Forest.exists_validate_iff f a
  · intro f b fn param h
    simp only [Forest.placeBelow_indexPath h.ne_nil, Forest.indexPath_injective.eq_iff]
    exact Forest.exists_checkParams_iff h a
  · intro style f
    simp only [hplace, ← Style.fault?_eq_some_iff, fault?_render]
    exact ⟨Forest.exists_validate_iff f.prune a, fun p k => Forest.Offends.of_prune⟩

/-- A function with a parameter that holds an enumeration, and in it, three levels below the top, an
item with the given tag. -/
def deepItems (tag : String) : List Item :=
  [⟨"var", "x", "T", "", none, "", []⟩,
    ⟨"func", "f", "", "", none, "", [
      ⟨"fptr", "g", "", "", none, "", []⟩,
      ⟨"var", "p", "", "", none, "", [
        ⟨"fptr", "h", "", "", none, "", []⟩,
        ⟨"enum", "E", "", "", none, "", [⟨tag, "k", "", "", none, "", []⟩]⟩]⟩]⟩]

/-- With an unknown tag the item gives a record and with the tag of a function it breaks a rule; its
path is the same everywhere. -/
theorem deepItems_path :
    Item.unknownTagRecord "class" "items[1].children[1].children[1].children[0]" ∈
        ({ items := deepItems "class" } : Document).warnings ∧
      (∃ v, Forest.validate (Item.nodes (deepItems "func")) = some v ∧
        v.place = "items[1].children[1].children[1].children[0]") ∧
      (∃ param v, Forest.at? (Item.nodes (deepItems "func")) [1, 1] = some param ∧
        param.checkParams .function = some v ∧
        Violation.placeBelow "items[1].children[1]" v.address =
          "items[1].children[1].children[1].children[0]") ∧
      (∀ style : Style, ∃ v, style.render (Item.nodes (deepItems "func")) = .error v ∧
        v.place = "items[1].children[1].children[1].children[0]") ∧
      Schema.Pointer.path
          ["items", "1", "children", "1", "children", "1", "children", "0"] =
        "items[1].children[1].children[1].children[0]" := by
  obtain ⟨hrecords, hcheck, hparam, hrender, hlocation, -⟩ := path_names_one_node [1, 1, 1, 0]
  have hfirst : Forest.FirstOffence (Item.nodes (deepItems "func")) [] [1, 1, 1, 0] :=
    (hcheck _).mp ⟨⟨.between .function .function, [1, 1, 1, 0]⟩, by decide +kernel, rfl⟩
  have hinside : Forest.FirstOffence (Item.nodes (deepItems "func")) [1, 1] [1, 1, 1, 0] :=
    ⟨⟨[1, 0], rfl⟩, hfirst.offends, fun a' p k _ => hfirst.first a' p k List.nil_prefix⟩
  have hprune : Forest.prune (Item.nodes (deepItems "func")) = Item.nodes (deepItems "func") := rfl
  refine ⟨?_, (hcheck _).mpr hfirst, ?_, ?_, ?_⟩
  · exact ((hrecords _).2 "class").mpr ⟨_, rfl, rfl, by decide +kernel⟩
  · obtain ⟨v, hv, hplace⟩ :=
      (hparam _ [1, 1] .function _ ⟨rfl, rfl, ⟨[], rfl⟩⟩).mpr hinside
    exact ⟨_, v, rfl, hv, hplace⟩
  · intro style
    exact (hrender style _).1.mpr (hprune ▸ hfirst)
  · exact hlocation.mpr (by decide)

end Document

end DeclGen
