import DeclGen.Proofs.Tree.Lineage
import Mathlib.Data.List.Lex

/-!
# The violation that a check reports

The check reports the first declaration, in pre-order, that breaks the rule of its lineage, and a
forest passes the check when there is none.

## Implementation notes

A declaration is named by its address, the positions on the way to it. An address comes before the
addresses that continue it and before those that turn off to a later sibling, so pre-order is the
lexicographic order of addresses.
-/

namespace DeclGen

namespace Forest

/-- The kinds of the declarations on the way to an address, the one at the address first; there are
none where a hole or nothing stands on the way. -/
def lineage? : Forest → List Nat → Option (List Kind)
  | _, [] => some []
  | f, i :: rest =>
    match f[i]? with
    | some (.node k _ cs) => (lineage? cs rest).map (· ++ [k])
    | _ => none

@[simp]
theorem lineage?_empty (f : Forest) : f.lineage? [] = some [] := by
  rw [lineage?]

@[simp]
theorem lineage?_hole (rest : Forest) (b : List Nat) :
    lineage? (.hole :: rest) (0 :: b) = none := by
  rw [lineage?]
  rfl

@[simp]
theorem lineage?_zero (k : Kind) (as : List Attr) (cs : List Node) (rest : Forest)
    (b : List Nat) :
    lineage? (.node k as cs :: rest) (0 :: b) = (lineage? cs b).map (· ++ [k]) := by
  rw [lineage?]
  rfl

@[simp]
theorem lineage?_succ (n : Node) (rest : Forest) (j : Nat) (b : List Nat) :
    lineage? (n :: rest) ((j + 1) :: b) = lineage? rest (j :: b) := by
  rw [lineage?, lineage?, List.getElem?_cons_succ]

/-- Only the empty address leads past no declaration. -/
theorem eq_nil_of_lineage?_eq_nil {f : Forest} {a : List Nat} (h : f.lineage? a = some []) :
    a = [] := by
  cases a with
  | nil => rfl
  | cons i b =>
      rw [lineage?] at h
      split at h
      · simp at h
      · cases h

/-- The declaration at an address breaks a rule of nesting. -/
def Offends (f : Forest) (address : List Nat) (blamed child : Kind) : Prop :=
  ∃ parent above, f.lineage? address = some (child :: parent :: above) ∧
    parent.Breaks above child blamed

/-- The declaration at an address is refused with a mismatch when the forest stands below
declarations of the kinds `up`. -/
def Refused (up : List Kind) (f : Forest) (address : List Nat) (m : Mismatch) : Prop :=
  ∃ child own, f.lineage? address = some (child :: own) ∧ child.verdict? (own ++ up) = some m

theorem refused_nil (up : List Kind) (a : List Nat) (m : Mismatch) : ¬ Refused up [] a m := by
  rintro ⟨child, own, hl, _⟩
  cases a with
  | nil => simp at hl
  | cons i rest => simp [lineage?] at hl

theorem refused_succ_iff (up : List Kind) (n : Node) (rest : Forest) (j : Nat) (b : List Nat)
    (m : Mismatch) : Refused up (n :: rest) ((j + 1) :: b) m ↔ Refused up rest (j :: b) m := by
  simp only [Refused, lineage?_succ]

theorem refused_hole_iff (up : List Kind) (rest : Forest) (a : List Nat) (m : Mismatch) :
    Refused up (.hole :: rest) a m ↔ ∃ j b, a = (j + 1) :: b ∧ Refused up rest (j :: b) m := by
  match a with
  | [] => simp [Refused]
  | 0 :: b => simp [Refused]
  | (j + 1) :: b => simp [refused_succ_iff]

theorem refused_zero_iff (up : List Kind) (k : Kind) (as : List Attr) (cs : List Node)
    (rest : Forest) (b : List Nat) (m : Mismatch) :
    Refused up (.node k as cs :: rest) (0 :: b) m ↔
      b = [] ∧ k.verdict? up = some m ∨ Refused (k :: up) cs b m := by
  simp only [Refused, lineage?_zero, Option.map_eq_some_iff]
  constructor
  · rintro ⟨child, own, ⟨l, hl, happ⟩, hv⟩
    cases l with
    | nil =>
        obtain ⟨rfl, rfl⟩ := List.cons.inj happ
        exact .inl ⟨eq_nil_of_lineage?_eq_nil hl, hv⟩
    | cons c l =>
        obtain ⟨rfl, rfl⟩ := List.cons.inj happ
        exact .inr ⟨c, l, hl, by simpa using hv⟩
  · rintro (⟨rfl, hv⟩ | ⟨child, own, hl, hv⟩)
    · exact ⟨k, [], ⟨[], lineage?_empty cs, rfl⟩, hv⟩
    · exact ⟨child, own ++ [k], ⟨child :: own, hl, rfl⟩, by simpa using hv⟩

/-- A refused declaration of a forest is the first root, or stands below it, or in a later tree. -/
theorem refused_node_iff (up : List Kind) (k : Kind) (as : List Attr) (cs : List Node)
    (rest : Forest) (a : List Nat) (m : Mismatch) :
    Refused up (.node k as cs :: rest) a m ↔
      a = [0] ∧ k.verdict? up = some m ∨ (∃ b, a = 0 :: b ∧ Refused (k :: up) cs b m) ∨
        ∃ j b, a = (j + 1) :: b ∧ Refused up rest (j :: b) m := by
  match a with
  | [] => simp [Refused]
  | 0 :: b => simp [refused_zero_iff]
  | (j + 1) :: b => simp [refused_succ_iff]

/-- An address comes before one that turns off later, or at the same position goes on later. -/
theorem address_le_iff (i j : Nat) (a b : List Nat) :
    i :: a ≤ j :: b ↔ i < j ∨ i = j ∧ a ≤ b := by
  rw [← not_lt, List.cons_lt_cons_iff, ← not_lt]
  by_cases h : b < a
  · simp only [h, and_true, not_true, and_false, or_false]
    omega
  · simp only [h, and_false, or_false, not_false_eq_true, and_true]
    omega

theorem address_succ_le_succ {i j : Nat} {a b : List Nat} (h : i :: a ≤ j :: b) :
    (i + 1) :: a ≤ (j + 1) :: b := by
  rw [address_le_iff] at h ⊢
  rcases h with h | ⟨h, hab⟩
  · exact .inl (by omega)
  · exact .inr ⟨by omega, hab⟩

theorem empty_address_le (a : List Nat) : [] ≤ a := by
  rw [← not_lt]
  exact List.not_lt_nil a

/-- A check without a violation leaves no declaration refused. -/
theorem not_refused_of_checkUnder (f : Forest) :
    ∀ up i, checkUnder up i f = none → ∀ a m, ¬ Refused up f a m := by
  induction f using Forest.induction with
  | nil =>
      intro up i _ a m
      exact refused_nil up a m
  | hole rest ih =>
      intro up i h a m hr
      rw [checkUnder_hole] at h
      obtain ⟨j, b, -, hr⟩ := (refused_hole_iff up rest a m).mp hr
      exact ih up (i + 1) h _ m hr
  | node k as cs rest ihc ihr =>
      intro up i h a m hr
      simp only [checkUnder_node, Option.or_eq_none_iff, Option.map_eq_none_iff] at h
      obtain ⟨hv, hbelow, hrest⟩ := h
      rcases (refused_node_iff up k as cs rest a m).mp hr with
        ⟨-, hm⟩ | ⟨b, -, hr⟩ | ⟨j, b, -, hr⟩
      · rw [hv] at hm
        cases hm
      · exact ihc (k :: up) 0 hbelow b m hr
      · exact ihr up (i + 1) hrest _ m hr

/-- A reported violation is a refused declaration, and none stands before it. -/
theorem refused_first_of_checkUnder (f : Forest) :
    ∀ up i v, checkUnder up i f = some v →
      ∃ j b, v.address = (i + j) :: b ∧ Refused up f (j :: b) v.mismatch ∧
        ∀ a m, Refused up f a m → j :: b ≤ a := by
  induction f using Forest.induction with
  | nil =>
      intro up i v h
      rw [checkUnder_nil] at h
      cases h
  | hole rest ih =>
      intro up i v h
      rw [checkUnder_hole] at h
      obtain ⟨j, b, ha, hr, hfirst⟩ := ih up (i + 1) v h
      refine ⟨j + 1, b, by rw [ha]; congr 1; omega, (refused_succ_iff ..).mpr hr, ?_⟩
      intro a m ham
      obtain ⟨j', b', rfl, hr'⟩ := (refused_hole_iff up rest a m).mp ham
      exact address_succ_le_succ (hfirst _ m hr')
  | node k as cs rest ihc ihr =>
      intro up i v h
      simp only [checkUnder_node, Option.or_eq_some_iff, Option.map_eq_some_iff,
        Option.map_eq_none_iff] at h
      rcases h with ⟨m, hm, rfl⟩ | ⟨hv, ⟨w, hw, rfl⟩ | ⟨hbelow, hrest⟩⟩
      · refine ⟨0, [], rfl, (refused_zero_iff ..).mpr (.inl ⟨rfl, hm⟩), ?_⟩
        intro a m' ham
        rcases (refused_node_iff up k as cs rest a m').mp ham with
          ⟨rfl, -⟩ | ⟨b', rfl, -⟩ | ⟨j', b', rfl, -⟩
        · exact le_refl _
        · exact (address_le_iff ..).mpr (.inr ⟨rfl, empty_address_le b'⟩)
        · exact (address_le_iff ..).mpr (.inl (Nat.succ_pos j'))
      · obtain ⟨j, b, ha, hr, hfirst⟩ := ihc (k :: up) 0 w hw
        refine ⟨0, j :: b, by simp [Violation.under, ha], (refused_zero_iff ..).mpr (.inr hr), ?_⟩
        intro a m' ham
        rcases (refused_node_iff up k as cs rest a m').mp ham with
          ⟨-, hm⟩ | ⟨b', rfl, hr'⟩ | ⟨j', b', rfl, -⟩
        · rw [hv] at hm
          cases hm
        · exact (address_le_iff ..).mpr (.inr ⟨rfl, hfirst b' m' hr'⟩)
        · exact (address_le_iff ..).mpr (.inl (Nat.succ_pos j'))
      · obtain ⟨j, b, ha, hr, hfirst⟩ := ihr up (i + 1) v hrest
        refine ⟨j + 1, b, by rw [ha]; congr 1; omega, (refused_succ_iff ..).mpr hr, ?_⟩
        intro a m' ham
        rcases (refused_node_iff up k as cs rest a m').mp ham with
          ⟨-, hm⟩ | ⟨b', -, hr'⟩ | ⟨j', b', rfl, hr'⟩
        · rw [hv] at hm
          cases hm
        · exact absurd hr' (not_refused_of_checkUnder cs (k :: up) 0 hbelow b' m')
        · exact address_succ_le_succ (hfirst _ m' hr')

/-- A declaration is refused exactly when it offends, and the mismatch says whom to blame. -/
theorem refused_iff_offends (f : Forest) (a : List Nat) (m : Mismatch) :
    Refused [] f a m ↔ ∃ blamed child, f.Offends a blamed child ∧ .between blamed child = m := by
  constructor
  · rintro ⟨child, own, hl, hv⟩
    rw [List.append_nil] at hv
    obtain ⟨parent, above, blamed, rfl, hb, hm⟩ := (Kind.verdict?_eq_some_iff child own m).mp hv
    exact ⟨blamed, child, ⟨parent, above, hl, hb⟩, hm⟩
  · rintro ⟨blamed, child, ⟨parent, above, hl, hb⟩, hm⟩
    refine ⟨child, parent :: above, hl, ?_⟩
    rw [List.append_nil]
    exact (Kind.verdict?_eq_some_iff child _ m).mpr ⟨parent, above, blamed, rfl, hb, hm⟩

theorem refused_unique {up : List Kind} {f : Forest} {a : List Nat} {m m' : Mismatch}
    (h : Refused up f a m) (h' : Refused up f a m') : m = m' := by
  obtain ⟨child, own, hl, hv⟩ := h
  obtain ⟨child', own', hl', hv'⟩ := h'
  rw [hl] at hl'
  obtain ⟨rfl, rfl⟩ := List.cons.inj (Option.some.inj hl')
  exact Option.some.inj (hv.symm.trans hv')

/-- A forest passes the check exactly when no declaration in it offends. -/
theorem validate_eq_none_iff (f : Forest) :
    f.validate = none ↔ ∀ a p c, ¬ f.Offends a p c := by
  constructor
  · intro h a p c ho
    exact not_refused_of_checkUnder f [] 0 h a _
      ((refused_iff_offends f a _).mpr ⟨p, c, ho, rfl⟩)
  · intro hnone
    cases h : f.validate with
    | none => rfl
    | some v =>
        obtain ⟨j, b, -, hr, -⟩ := refused_first_of_checkUnder f [] 0 v h
        obtain ⟨p, c, ho, -⟩ := (refused_iff_offends f _ _).mp hr
        exact absurd ho (hnone _ p c)

/-- The reported violation is that of the first offending declaration. -/
theorem first_offence_of_validate {f : Forest} {v : Violation} (h : f.validate = some v) :
    ∃ p c, f.Offends v.address p c ∧ .between p c = v.mismatch ∧
      ∀ b q d, f.Offends b q d → v.address ≤ b := by
  obtain ⟨j, b, ha, hr, hfirst⟩ := refused_first_of_checkUnder f [] 0 v h
  rw [Nat.zero_add] at ha
  rw [ha]
  obtain ⟨p, c, ho, hm⟩ := (refused_iff_offends f _ _).mp hr
  refine ⟨p, c, ho, hm, ?_⟩
  intro b' q d ho'
  exact hfirst b' _ ((refused_iff_offends f b' _).mpr ⟨q, d, ho', rfl⟩)

/-- The lineage of an address begins with the kind of the declaration that stands there. -/
theorem kind?_at?_of_lineage? {f : Forest} {a : List Nat} {child : Kind} {own : List Kind}
    (h : f.lineage? a = some (child :: own)) : (f.at? a).bind Node.kind? = some child := by
  induction a generalizing f own with
  | nil => simp at h
  | cons i b ih =>
      rw [lineage?] at h
      split at h
      · next k as cs hi =>
          obtain ⟨l, hl, happ⟩ := Option.map_eq_some_iff.mp h
          cases l with
          | nil =>
              rw [eq_nil_of_lineage?_eq_nil hl, at?, hi]
              exact congrArg some (List.cons.inj happ).1
          | cons c l =>
              rw [List.cons_append] at happ
              obtain ⟨rfl, -⟩ := List.cons.inj happ
              cases b with
              | nil => simp at hl
              | cons j b =>
                  rw [at?, hi]
                  exact ih hl
      · cases h

/-- An address as it is written in messages. -/
def indexPath : List Nat → String
  | [] => ""
  | i :: rest =>
    "items[" ++ toString i ++ "]"
      ++ String.join (rest.map fun j => ".children[" ++ toString j ++ "]")

theorem placeBelow_eq (place : String) (a : List Nat) :
    Violation.placeBelow place a =
      place ++ String.join (a.map fun j => ".children[" ++ toString j ++ "]") := by
  induction a generalizing place with
  | nil => simp [Violation.placeBelow]
  | cons j b ih =>
      change Violation.placeBelow (place ++ ".children[" ++ toString j ++ "]") b = _
      rw [ih, List.map_cons, String.join_cons]
      simp only [String.append_assoc]

theorem placeOf_eq_indexPath (a : List Nat) : Violation.placeOf a = indexPath a := by
  cases a with
  | nil => rfl
  | cons i rest => exact placeBelow_eq _ rest

/-- A forest passes the check exactly when no declaration in it offends; otherwise the check reports
the offending declaration that comes first in pre-order, with its kind, its path and the kind to
blame. -/
theorem validate_reports_first_offence (f : Forest) :
    (f.validate = none ↔ ∀ a p c, ¬ f.Offends a p c) ∧
      ∀ v, f.validate = some v ↔
        ∃ a p c, f.Offends a p c ∧ (∀ b q d, f.Offends b q d → a ≤ b) ∧
          v = { mismatch := .between p c, address := a } ∧ v.place = indexPath a ∧
          (f.at? a).bind Node.kind? = some c := by
  refine ⟨validate_eq_none_iff f, fun v => ⟨fun h => ?_, ?_⟩⟩
  · obtain ⟨p, c, ho, hm, hfirst⟩ := first_offence_of_validate h
    obtain ⟨parent, above, hl, -⟩ := id ho
    exact ⟨v.address, p, c, ho, hfirst, by rw [hm], placeOf_eq_indexPath _,
      kind?_at?_of_lineage? hl⟩
  · rintro ⟨a, p, c, ho, hfirst, rfl, -, -⟩
    cases h : f.validate with
    | none => exact absurd ho ((validate_eq_none_iff f).mp h a p c)
    | some w =>
        obtain ⟨q, d, how, hmw, hfirstw⟩ := first_offence_of_validate h
        have ha : a = w.address := le_antisymm (hfirst _ q d how) (hfirstw a p c ho)
        subst ha
        have hm : Mismatch.between p c = w.mismatch :=
          refused_unique ((refused_iff_offends f _ _).mpr ⟨p, c, ho, rfl⟩)
            ((refused_iff_offends f _ _).mpr ⟨q, d, how, hmw⟩)
        rw [hm]

example :
    Forest.validate
        [.hole, .node .function []
          [.hole, .node .var []
            [.node .enumeration [] [.node .struct [] []],
              .node .functionPointer [] [.node .struct [] []]]]] =
      some { mismatch := .between .functionPointer .struct, address := [1, 1, 1, 0] } := by
  decide

end Forest

end DeclGen
