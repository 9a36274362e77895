import DeclGen.Proofs.Text.Quoting
import DeclGen.Proofs.Tree.Checking
import DeclGen.Tree.Dump

/-!
# A dump determines its forest

A dump is an outline: one line per node, and each line shows how deep the node stands. The lines can
be told apart, because tags and attribute names are plain words and quoted values hold no bare
quotation mark and no line end. From the depths of the lines the nesting of the nodes is read off.
So two forests without holes that have the same dump are the same.

## Implementation notes

Attribute names are the five that have a meaning. Other names are dumped as they are and may hold
anything, a line end included.
-/

namespace DeclGen

/-- Whether an attribute name is one of the five that have a meaning. -/
def AttrKey.isNamed : AttrKey → Bool
  | other _ => false
  | _ => true

/-- A node without its children, and the depth at which it stands. -/
structure OutlineLine where
  depth : Nat
  kind : Kind
  attrs : List Attr

namespace Forest

/-- Whether a forest has no holes and gives its attributes the five names only. -/
def isComplete : Forest → Bool
  | [] => true
  | .hole :: _ => false
  | .node _ as cs :: rest => as.all (·.key.isNamed) && isComplete cs && isComplete rest

/-- The outline of a forest whose trees stand at a given depth. -/
def outlineFrom (depth : Nat) : Forest → List OutlineLine
  | [] => []
  | .hole :: rest => outlineFrom depth rest
  | .node k as cs :: rest =>
    ⟨depth, k, as⟩ :: (outlineFrom (depth + 1) cs ++ outlineFrom depth rest)

theorem isComplete_node {k : Kind} {as : List Attr} {cs rest : Forest} :
    isComplete (.node k as cs :: rest) = true ↔
      (∀ a ∈ as, a.key.isNamed = true) ∧ isComplete cs = true ∧ isComplete rest = true := by
  rw [isComplete, Bool.and_eq_true, Bool.and_eq_true, List.all_eq_true, and_assoc]

end Forest

section Lines

/-- An attribute in a dump, as characters. -/
def Attr.dumpChars (a : Attr) : List Char :=
  ' ' :: (a.key.spelling.toList ++ '=' :: a.value.quotedChars)

theorem Attr.toList_dump (a : Attr) : a.dump.toList = a.dumpChars := by
  simp [Attr.dump, Attr.dumpChars, Text.quoted]

/-- A line of a dump, as characters. -/
def OutlineLine.chars (l : OutlineLine) : List Char :=
  List.replicate (2 * l.depth) ' ' ++
    (l.kind.tag.toList ++ (l.attrs.flatMap Attr.dumpChars ++ ['\n']))

theorem Node.toList_dumpLine (depth : Nat) (k : Kind) (as : List Attr) :
    (dumpLine depth k as).toList = OutlineLine.chars ⟨depth, k, as⟩ := by
  simp [dumpLine, OutlineLine.chars, List.flatMap_map, Attr.toList_dump]

/-- A dump is written line by line. -/
theorem Forest.toList_dump (f : Forest) :
    f.dump.toList = (f.outlineFrom 0).flatMap OutlineLine.chars := by
  have hfrom (depth : Nat) : (Node.dumpListFrom depth f).toList =
      (f.outlineFrom depth).flatMap OutlineLine.chars := by
    induction f using Forest.induction generalizing depth with
    | nil => simp [Node.dumpListFrom, outlineFrom]
    | hole rest ih =>
        rw [Node.dumpListFrom, Node.dumpFrom, String.empty_append, ih, outlineFrom]
    | node k as cs rest ihc ihr =>
        rw [Node.dumpListFrom, Node.dumpFrom, String.toList_append, String.toList_append,
          Node.toList_dumpLine, ihc, ihr, outlineFrom, List.flatMap_cons, List.flatMap_append,
          List.append_assoc]
  exact hfrom 0

/-- An attribute with one of the five names can be told from all that follows it. -/
theorem decipherable_dumpChars :
    Decipherable (fun a : Attr => a.key.isNamed = true) Attr.dumpChars := by
  have hkey {k k' : AttrKey} (h : k.isNamed = true) (h' : k'.isNamed = true) {r s : List Char}
      (heq : k.spelling.toList ++ '=' :: r = k'.spelling.toList ++ '=' :: s) : k = k' ∧ r = s := by
    cases k <;> cases k' <;> simp_all [AttrKey.isNamed, AttrKey.spelling]
  rintro ⟨k, v⟩ ⟨k', v'⟩ h h' r s heq
  simp only [Attr.dumpChars, List.cons_append, List.append_assoc, List.cons.injEq, true_and] at heq
  obtain ⟨rfl, hvalue⟩ := hkey h h' heq
  obtain ⟨rfl, hrest⟩ := Text.decipherable_quotedChars trivial trivial hvalue
  exact ⟨rfl, hrest⟩

/-- No tag is the beginning of another one. -/
theorem decipherable_tag : Decipherable (fun _ => True) fun k : Kind => k.tag.toList := by
  intro k k' _ _ r s heq
  cases k <;> cases k' <;> simp_all [Kind.tag]

/-- Before a character that is no space, the number of spaces can be told. -/
theorem replicate_space_inj {m n : Nat} {r s : List Char} (hr : r.head? ≠ some ' ')
    (hs : s.head? ≠ some ' ') (heq : List.replicate m ' ' ++ r = List.replicate n ' ' ++ s) :
    m = n ∧ r = s := by
  induction m generalizing n with
  | zero =>
      cases n with
      | zero => exact ⟨rfl, heq⟩
      | succ n =>
          rw [List.replicate_succ] at heq
          exact absurd (congrArg List.head? heq) hr
  | succ m ih =>
      cases n with
      | zero =>
          rw [List.replicate_succ] at heq
          exact absurd (congrArg List.head? heq.symm) hs
      | succ n =>
          obtain ⟨rfl, hrest⟩ := ih (List.cons.inj heq).2
          exact ⟨rfl, hrest⟩

theorem head?_tag_append (k : Kind) (r : List Char) : (k.tag.toList ++ r).head? ≠ some ' ' := by
  cases k <;> simp [Kind.tag]

/-- A line can be told from all that follows it. -/
theorem decipherable_line :
    Decipherable (fun l : OutlineLine => ∀ a ∈ l.attrs, a.key.isNamed = true)
      OutlineLine.chars := by
  have hattrs : Decipherable (fun as : List Attr => ∀ a ∈ as, a.key.isNamed = true)
      (fun as => as.flatMap Attr.dumpChars ++ ['\n']) :=
    decipherable_dumpChars.list fun a _ => ⟨' ', _, rfl, by decide⟩
  rintro ⟨m, k, as⟩ ⟨n, k', as'⟩ h h' r s heq
  simp only [OutlineLine.chars, List.append_assoc] at heq
  obtain ⟨hdepth, htags⟩ := replicate_space_inj (head?_tag_append k _) (head?_tag_append k' _) heq
  obtain ⟨rfl, hlists⟩ := decipherable_tag trivial trivial htags
  obtain ⟨rfl, hrest⟩ := hattrs h h' (by simpa using hlists)
  have hmn : m = n := by omega
  exact ⟨by rw [hmn], hrest⟩

end Lines

namespace Forest

theorem isNamed_of_mem_outlineFrom {f : Forest} (h : f.isComplete = true) {depth : Nat}
    {l : OutlineLine} (hl : l ∈ f.outlineFrom depth) : ∀ a ∈ l.attrs, a.key.isNamed = true := by
  induction f using Forest.induction generalizing depth with
  | nil => simp [outlineFrom] at hl
  | hole rest ih => simp [isComplete] at h
  | node k as cs rest ihc ihr =>
      obtain ⟨has, hcs, hrest⟩ := isComplete_node.mp h
      rw [outlineFrom, List.mem_cons, List.mem_append] at hl
      rcases hl with rfl | hl | hl
      · exact has
      · exact ihc hcs hl
      · exact ihr hrest hl

/-- Lines that do not belong to the trees at a depth: they begin further out, if there are any. -/
def BeginsAbove (depth : Nat) (ls : List OutlineLine) : Prop := ∀ l ∈ ls.head?, l.depth < depth

theorem beginsAbove_outlineFrom_append {depth : Nat} (f : Forest) {ls : List OutlineLine}
    (h : BeginsAbove depth ls) : BeginsAbove (depth + 1) (f.outlineFrom depth ++ ls) := by
  induction f using Forest.induction with
  | nil =>
      intro l hl
      exact Nat.lt_succ_of_lt (h l (by simpa [outlineFrom] using hl))
  | hole rest ih => simpa [outlineFrom] using ih
  | node k as cs rest _ _ =>
      intro l hl
      rw [outlineFrom, List.cons_append, List.head?_cons, Option.mem_some_iff] at hl
      rw [← hl]
      exact Nat.lt_succ_self depth

/-- The trees at a depth end where the lines get back to a smaller depth, so the outline determines
them. -/
theorem outlineFrom_append_inj {f g : Forest} (hf : f.isComplete = true)
    (hg : g.isComplete = true) {depth : Nat} {r s : List OutlineLine} (hr : BeginsAbove depth r)
    (hs : BeginsAbove depth s) (heq : f.outlineFrom depth ++ r = g.outlineFrom depth ++ s) :
    f = g ∧ r = s := by
  induction f using Forest.induction generalizing g depth r s with
  | nil =>
      cases g with
      | nil => exact ⟨rfl, by simpa [outlineFrom] using heq⟩
      | cons n more =>
          cases n with
          | hole => simp [isComplete] at hg
          | node k as cs =>
              rw [outlineFrom, outlineFrom, List.nil_append] at heq
              have hlt := hr ⟨depth, k, as⟩ (by simp [heq])
              exact absurd hlt (Nat.lt_irrefl depth)
  | hole rest _ => simp [isComplete] at hf
  | node k as cs rest ihc ihr =>
      cases g with
      | nil =>
          rw [outlineFrom, outlineFrom, List.nil_append] at heq
          have hlt := hs ⟨depth, k, as⟩ (by simp [← heq])
          exact absurd hlt (Nat.lt_irrefl depth)
      | cons n more =>
          cases n with
          | hole => simp [isComplete] at hg
          | node k' as' cs' =>
              obtain ⟨-, hcs, hrest⟩ := isComplete_node.mp hf
              obtain ⟨-, hcs', hmore⟩ := isComplete_node.mp hg
              simp only [outlineFrom, List.cons_append, List.append_assoc, List.cons.injEq,
                OutlineLine.mk.injEq, true_and] at heq
              obtain ⟨⟨hk, has⟩, hbelow⟩ := heq
              obtain ⟨hchildren, hafter⟩ := ihc hcs hcs' (beginsAbove_outlineFrom_append rest hr)
                (beginsAbove_outlineFrom_append more hs) hbelow
              obtain ⟨hsiblings, hrs⟩ := ihr hrest hmore hr hs hafter
              exact ⟨by rw [hk, has, hchildren, hsiblings], hrs⟩

/-- Forests without holes and with the five attribute names have the same dump only if they are the
same, whatever bytes their attribute values hold. -/
theorem dump_eq_dump_iff {f g : Forest} (hf : f.isComplete = true) (hg : g.isComplete = true) :
    f.dump = g.dump ↔ f = g := by
  constructor
  · intro h
    have hchars := congrArg String.toList h
    rw [toList_dump, toList_dump] at hchars
    have hlines := decipherable_line.eq_of_flatMap_eq (by simp [OutlineLine.chars])
      (fun l hl => isNamed_of_mem_outlineFrom hf hl) (fun l hl => isNamed_of_mem_outlineFrom hg hl)
      hchars
    have hends : BeginsAbove 0 [] := by simp [BeginsAbove]
    refine (outlineFrom_append_inj hf hg hends hends ?_).1
    rw [hlines]
  · intro h
    rw [h]

/-- A name that looks like the end of its line and a child below it, with a stray byte. -/
def imitatedChild : Forest :=
  [.node .struct [⟨.name, Text.ofString "A\"\n  var name=\"b" ++ [0xFF]⟩] []]

/-- The forest that is imitated. -/
def trueChild : Forest :=
  [.node .struct [⟨.name, .ofString "A"⟩] [.node .var [⟨.name, Text.ofString "b" ++ [0xFF]⟩] []]]

theorem imitatedChild_dump_ne :
    imitatedChild.isComplete = true ∧ trueChild.isComplete = true ∧
      imitatedChild.dump ≠ trueChild.dump := by
  have himitated : imitatedChild.isComplete = true := by
    simp [imitatedChild, isComplete, AttrKey.isNamed]
  have htrue : trueChild.isComplete = true := by
    simp [trueChild, isComplete, AttrKey.isNamed]
  refine ⟨himitated, htrue, fun h => ?_⟩
  have heq := (dump_eq_dump_iff himitated htrue).mp h
  simp [imitatedChild, trueChild] at heq

end Forest

end DeclGen
