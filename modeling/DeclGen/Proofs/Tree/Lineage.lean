import DeclGen.Proofs.Tree.Checking

/-!
# The rule of a lineage

A declaration is judged by its lineage, the kinds of the declarations around it. The table of its
parent decides, except inside a parameter of a function, where only functions are refused. The check
switches between these two rules on its way down: into the second at a parameter, back into the
first at a function pointer. Read with the lineage they are one rule, and `checkUnder_node` says how
the check applies it to one declaration.
-/

namespace DeclGen

namespace Kind

/-- The table of the child kinds that a kind allows. -/
def Admits : (parent child : Kind) → Prop
  | enumeration, c => c = var ∨ c = decoration
  | flagSet, c => c = var ∨ c = decoration
  | function, c => c = var ∨ c = functionPointer
  | functionPointer, c => c = var ∨ c = functionPointer
  | _, _ => True

/-- The table of a parent rules over its children: the parent is callable, or nothing above it
is. -/
def RuledByTable (parent : Kind) (above : List Kind) : Prop :=
  parent.isCallable = true ∨ ∀ k ∈ above, k.isCallable = false

/-- A child under a parent breaks a rule, and a kind is blamed for it; `above` are the kinds above
the parent, the nearest first. -/
inductive Breaks (parent : Kind) (above : List Kind) (child : Kind) : (blamed : Kind) → Prop
  | table (ruled : parent.RuledByTable above) (refused : ¬ parent.Admits child) :
      Breaks parent above child parent
  | parameter {fn : Kind} (inside : parent.isCallable = false)
      (nearest : above.find? isCallable = some fn) (refused : child = function) :
      Breaks parent above child fn

end Kind

/-- The mismatch that is reported when `blamed` does not allow `child`; a function in a function is
taken for a function pointer. -/
def Mismatch.between (blamed child : Kind) : Mismatch where
  parent := blamed
  child := child
  suggestion := if child = .function ∧ blamed.isCallable = true then some .functionPointer else none

namespace Kind

theorem checkChild_eq_some_iff (parent child : Kind) (m : Mismatch) :
    parent.checkChild child = some m ↔ ¬ parent.Admits child ∧ .between parent child = m := by
  cases parent <;> cases child <;> simp [checkChild, Admits, Mismatch.between, isCallable]

theorem checkParam_eq_some_iff {fn : Kind} (h : fn.isCallable = true) (child : Kind)
    (m : Mismatch) :
    fn.checkParam child = some m ↔ child = function ∧ .between fn child = m := by
  cases child <;> simp [checkParam, Mismatch.between, h]

/-- The judgement on a child by the kinds above it, the nearest first. -/
def verdict? (child : Kind) : (up : List Kind) → Option Mismatch
  | [] => none
  | parent :: above =>
    if parent.isCallable then parent.checkChild child
    else match above.find? isCallable with
      | some fn => fn.checkParam child
      | none => parent.checkChild child

/-- Either the table of the parent rules over its children, or the nearest function above it. -/
theorem table_or_parameter (parent : Kind) (above : List Kind) :
    parent.RuledByTable above ∨
      parent.isCallable = false ∧ ∃ fn, above.find? isCallable = some fn := by
  cases hp : parent.isCallable with
  | true => exact .inl (.inl hp)
  | false =>
      cases hn : above.find? isCallable with
      | none => exact .inl (.inr (by simpa using hn))
      | some fn => exact .inr ⟨rfl, fn, rfl⟩

theorem RuledByTable.find?_eq_none {parent : Kind} {above : List Kind}
    (ruled : parent.RuledByTable above) (hp : parent.isCallable = false) :
    above.find? isCallable = none := by
  rcases ruled with h | h
  · rw [hp] at h
    cases h
  · simpa using h

theorem verdict?_table {parent : Kind} {above : List Kind} (child : Kind)
    (ruled : parent.RuledByTable above) :
    verdict? child (parent :: above) = parent.checkChild child := by
  cases hp : parent.isCallable with
  | true => simp [verdict?, hp]
  | false => simp [verdict?, hp, ruled.find?_eq_none hp]

theorem verdict?_parameter {parent fn : Kind} {above : List Kind} (child : Kind)
    (inside : parent.isCallable = false) (nearest : above.find? isCallable = some fn) :
    verdict? child (parent :: above) = fn.checkParam child := by
  simp [verdict?, inside, nearest]

/-- The judgement refuses exactly what breaks a rule. -/
theorem verdict?_eq_some_iff (child : Kind) (up : List Kind) (m : Mismatch) :
    verdict? child up = some m ↔
      ∃ parent above blamed, up = parent :: above ∧ Breaks parent above child blamed ∧
        .between blamed child = m := by
  constructor
  · intro h
    cases up with
    | nil => simp [verdict?] at h
    | cons parent above =>
        rcases table_or_parameter parent above with ruled | ⟨inside, fn, nearest⟩
        · rw [verdict?_table child ruled, checkChild_eq_some_iff] at h
          exact ⟨parent, above, parent, rfl, .table ruled h.1, h.2⟩
        · have hfn : fn.isCallable = true := List.find?_some nearest
          rw [verdict?_parameter child inside nearest, checkParam_eq_some_iff hfn] at h
          exact ⟨parent, above, fn, rfl, .parameter inside nearest h.1, h.2⟩
  · rintro ⟨parent, above, blamed, rfl, hb, rfl⟩
    cases hb with
    | table ruled refused =>
        rw [verdict?_table child ruled]
        exact (checkChild_eq_some_iff parent child _).mpr ⟨refused, rfl⟩
    | parameter inside nearest refused =>
        have hfn : blamed.isCallable = true := List.find?_some nearest
        rw [verdict?_parameter child inside nearest]
        exact (checkParam_eq_some_iff hfn child _).mpr ⟨refused, rfl⟩

end Kind

/-- The first violation among trees that stand below declarations of the kinds `up`, the nearest
first: whichever of the checks applies there. -/
def checkUnder (up : List Kind) (i : Nat) (cs : List Node) : Option Violation :=
  match up with
  | [] => Forest.validateFrom i cs
  | parent :: above =>
    if parent.isCallable then checkChildren parent i cs
    else match above.find? Kind.isCallable with
      | some fn => checkParamsFrom fn i cs
      | none => checkChildren parent i cs

theorem checkUnder_table {parent : Kind} {above : List Kind} (i : Nat) (cs : List Node)
    (ruled : parent.RuledByTable above) :
    checkUnder (parent :: above) i cs = checkChildren parent i cs := by
  cases hp : parent.isCallable with
  | true => simp [checkUnder, hp]
  | false => simp [checkUnder, hp, ruled.find?_eq_none hp]

theorem checkUnder_parameter {parent fn : Kind} {above : List Kind} (i : Nat) (cs : List Node)
    (inside : parent.isCallable = false) (nearest : above.find? Kind.isCallable = some fn) :
    checkUnder (parent :: above) i cs = checkParamsFrom fn i cs := by
  simp [checkUnder, inside, nearest]

theorem checkUnder_nil (up : List Kind) (i : Nat) : checkUnder up i [] = none := by
  cases up with
  | nil => rfl
  | cons parent above =>
      rcases Kind.table_or_parameter parent above with ruled | ⟨inside, fn, nearest⟩
      · rw [checkUnder_table i [] ruled, checkChildren]
      · rw [checkUnder_parameter i [] inside nearest, checkParamsFrom]

theorem checkUnder_hole (up : List Kind) (i : Nat) (rest : List Node) :
    checkUnder up i (.hole :: rest) = checkUnder up (i + 1) rest := by
  cases up with
  | nil => exact validateFrom_hole i rest
  | cons parent above =>
      rcases Kind.table_or_parameter parent above with ruled | ⟨inside, fn, nearest⟩
      · rw [checkUnder_table _ _ ruled, checkUnder_table _ _ ruled, checkChildren]
      · rw [checkUnder_parameter _ _ inside nearest, checkUnder_parameter _ _ inside nearest,
          checkParamsFrom]

/-- Where a child is not refused itself, the check goes on below it by the rule of its lineage. -/
theorem checkBelow_eq_checkUnder {parent : Kind} {above : List Kind} {k : Kind} (cs : List Node)
    (ruled : parent.RuledByTable above) (hk : parent.checkChild k = none) :
    checkBelow parent k cs = checkUnder (k :: parent :: above) 0 cs := by
  rcases Bool.eq_false_or_eq_true parent.isCallable with hp | hp
  · rcases Kind.checkChild_eq_none_of_isCallable hp hk with rfl | rfl
    · rw [checkUnder_parameter 0 cs rfl (List.find?_cons_of_pos hp)]
      simp [checkBelow, hp]
    · rw [checkUnder_table 0 cs (.inl rfl)]
      simp [checkBelow]
  · have hall : ∀ a ∈ parent :: above, a.isCallable = false := by
      simpa [hp] using ruled.find?_eq_none hp
    rw [checkUnder_table 0 cs (.inr hall)]
    simp [checkBelow, hp]

/-- The same inside a parameter, where a function pointer returns to its own table. -/
theorem checkInside_eq_checkUnder {parent fn : Kind} {above : List Kind} {k : Kind}
    (cs : List Node) (inside : parent.isCallable = false)
    (nearest : above.find? Kind.isCallable = some fn) (hk : fn.checkParam k = none) :
    checkInside fn k cs = checkUnder (k :: parent :: above) 0 cs := by
  have hf : k ≠ .function := (Kind.checkParam_eq_none_iff fn k).mp hk
  by_cases hp : k = .functionPointer
  · subst hp
    rw [checkUnder_table 0 cs (.inl rfl)]
    simp [checkInside]
  · have hc : k.isCallable = false := by simp [Kind.isCallable, hf, hp]
    have hn : (parent :: above).find? Kind.isCallable = some fn := by simp [inside, nearest]
    rw [checkUnder_parameter 0 cs hc hn]
    simp [checkInside, hp]

/-- One child under any lineage: its own verdict, then what is below it, then its later siblings. -/
theorem checkUnder_node (up : List Kind) (i : Nat) (k : Kind) (as : List Attr)
    (cs rest : List Node) :
    checkUnder up i (.node k as cs :: rest) =
      ((k.verdict? up).map (Mismatch.atChild i)).or
        (((checkUnder (k :: up) 0 cs).map (Violation.under i)).or
          (checkUnder up (i + 1) rest)) := by
  cases up with
  | nil =>
      rw [checkUnder_table 0 cs (.inr (by simp))]
      exact validateFrom_node i k as cs rest
  | cons parent above =>
      rcases Kind.table_or_parameter parent above with ruled | ⟨inside, fn, nearest⟩
      · rw [checkUnder_table _ _ ruled, checkUnder_table _ _ ruled, checkChildren_node,
          Kind.verdict?_table k ruled]
        cases hk : parent.checkChild k with
        | some m => rfl
        | none => rw [checkBelow_eq_checkUnder cs ruled hk]
      · rw [checkUnder_parameter _ _ inside nearest, checkUnder_parameter _ _ inside nearest,
          checkParamsFrom_node, Kind.verdict?_parameter k inside nearest]
        cases hk : fn.checkParam k with
        | some m => rfl
        | none => rw [checkInside_eq_checkUnder cs inside nearest hk]

end DeclGen
