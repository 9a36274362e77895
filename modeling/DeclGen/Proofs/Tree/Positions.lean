import DeclGen.Proofs.Tree.FirstViolation
import DeclGen.Proofs.Tree.Pruning

/-!
# Where the first offence stands

The check of a forest and the check below a parameter report the first declaration that breaks a
rule, the one in the whole forest and the other at and below the parameter. Pruning moves no
declaration, so an offence in a pruned forest is an offence at the same address of the forest.

## Implementation notes

Both checks are `checkUnder` for the kinds above what is checked, and a declaration below an address
has the lineage of the address behind its own (`lineage?_append`).
-/

namespace DeclGen

namespace Forest

section Offences

variable {f : Forest} {a b c : List Nat}

/-- Of the declarations at an address `b` and below it, the one at `a` is the first that breaks a
rule of nesting. -/
structure FirstOffence (f : Forest) (b a : List Nat) : Prop where
  inside : b <+: a
  offends : ∃ p k, f.Offends a p k
  first : ∀ a' p k, b <+: a' → f.Offends a' p k → a ≤ a'

/-- A parameter of a function of kind `fn` stands at an address. -/
structure IsParam (f : Forest) (b : List Nat) (fn : Kind) (param : Node) : Prop where
  callable : fn.isCallable = true
  found : f.at? b = some param
  lineage : ∃ above, f.lineage? b = some (.var :: fn :: above)

theorem exists_offends_iff : (∃ p k, f.Offends a p k) ↔ ∃ m, Refused [] f a m := by
  constructor
  · rintro ⟨p, k, ho⟩
    exact ⟨_, (refused_iff_offends f a _).mpr ⟨p, k, ho, rfl⟩⟩
  · rintro ⟨m, hr⟩
    obtain ⟨p, k, ho, -⟩ := (refused_iff_offends f a m).mp hr
    exact ⟨p, k, ho⟩

/-- A check reports a violation at an address exactly when the first refused declaration stands
there. -/
theorem exists_checkUnder_iff (up : List Kind) (f : Forest) (a : List Nat) :
    (∃ v, checkUnder up 0 f = some v ∧ v.address = a) ↔
      (∃ m, Refused up f a m) ∧ ∀ a' m, Refused up f a' m → a ≤ a' := by
  constructor
  · rintro ⟨v, hv, rfl⟩
    obtain ⟨j, b, ha, hr, hfirst⟩ := refused_first_of_checkUnder f up 0 v hv
    rw [Nat.zero_add] at ha
    rw [ha]
    exact ⟨⟨_, hr⟩, hfirst⟩
  · rintro ⟨⟨m, hr⟩, hfirst⟩
    cases hv : checkUnder up 0 f with
    | none => exact absurd hr (not_refused_of_checkUnder f up 0 hv a m)
    | some v =>
        obtain ⟨j, b, ha, hr', hfirst'⟩ := refused_first_of_checkUnder f up 0 v hv
        rw [Nat.zero_add] at ha
        refine ⟨v, rfl, ?_⟩
        rw [ha]
        exact le_antisymm (hfirst' a m hr) (hfirst _ _ hr')

theorem exists_validate_iff (f : Forest) (a : List Nat) :
    (∃ v, f.validate = some v ∧ v.address = a) ↔ f.FirstOffence [] a := by
  have hcheck := exists_checkUnder_iff [] f a
  rw [← exists_offends_iff] at hcheck
  refine hcheck.trans ⟨fun ⟨hoffends, hfirst⟩ => ⟨List.nil_prefix, hoffends, ?_⟩,
    fun ⟨_, hoffends, hfirst⟩ => ⟨hoffends, ?_⟩⟩
  · intro a' p k _ ho
    exact hfirst a' _ ((refused_iff_offends f a' _).mpr ⟨p, k, ho, rfl⟩)
  · intro a' m hr
    obtain ⟨p, k, ho, -⟩ := (refused_iff_offends f a' m).mp hr
    exact hfirst a' p k List.nil_prefix ho

/-- The lineage of a declaration below an address is continued by that of the address. -/
theorem lineage?_append {n : Node} {up : List Kind} (hb : f.at? b = some n)
    (hup : f.lineage? b = some up) (c : List Nat) :
    f.lineage? (b ++ c) = (lineage? n.children c).map (· ++ up) := by
  induction b generalizing f up with
  | nil => simp [at?] at hb
  | cons i b ih =>
      rw [lineage?] at hup
      rw [List.cons_append, lineage?]
      cases hi : f[i]? with
      | none => simp [hi] at hup
      | some m =>
          cases m with
          | hole => simp [hi] at hup
          | node k as cs =>
              rw [hi] at hup
              obtain ⟨l, hl, rfl⟩ := Option.map_eq_some_iff.mp hup
              cases b with
              | nil =>
                  rw [at?, hi] at hb
                  cases hb
                  rw [lineage?_empty] at hl
                  cases hl
                  rfl
              | cons j b =>
                  rw [at?, hi] at hb
                  have hbelow : lineage? cs (j :: b ++ c) = _ := ih hb hl
                  simp only [hbelow, Option.map_map]
                  congr 1
                  funext x
                  simp

/-- An address below another one comes before a second one as it does seen from there. -/
theorem append_le_append_iff (b : List Nat) : b ++ a ≤ b ++ c ↔ a ≤ c := by
  induction b with
  | nil => rfl
  | cons i b ih =>
      rw [List.cons_append, List.cons_append, address_le_iff, ih]
      simp

theorem IsParam.ne_nil {fn : Kind} {param : Node} (h : f.IsParam b fn param) : b ≠ [] := by
  rintro rfl
  cases h.found

/-- A declaration below a parameter offends exactly when the rules of its lineage refuse it. -/
theorem IsParam.refused_iff {fn : Kind} {param : Node} {above : List Kind}
    (h : f.IsParam b fn param) (hup : f.lineage? b = some (.var :: fn :: above)) (c : List Nat)
    (m : Mismatch) :
    Refused [] f (b ++ c) m ↔ Refused (.var :: fn :: above) param.children c m := by
  have hbelow := lineage?_append h.found hup c
  cases c with
  | nil =>
      -- The parameter itself is admitted by the table of its function.
      have hv : Kind.verdict? .var (fn :: above) = none := by
        rw [Kind.verdict?_table .var (.inl h.callable)]
        rcases (Kind.isCallable_iff fn).mp h.callable with rfl | rfl <;> rfl
      simp [Refused, hup, hv]
  | cons j c =>
      simp only [Refused, hbelow, Option.map_eq_some_iff, List.append_nil]
      constructor
      · rintro ⟨child, own, ⟨l, hl, happ⟩, hm⟩
        cases l with
        | nil => cases eq_nil_of_lineage?_eq_nil hl
        | cons k l =>
            obtain ⟨rfl, rfl⟩ := List.cons.inj happ
            exact ⟨k, l, hl, hm⟩
      · rintro ⟨child, own, hl, hm⟩
        exact ⟨child, own ++ .var :: fn :: above, ⟨child :: own, hl, rfl⟩, hm⟩

/-- The check below a parameter reports the first offence at and below the parameter. -/
theorem exists_checkParams_iff {fn : Kind} {param : Node} (h : f.IsParam b fn param)
    (a : List Nat) :
    (∃ v, param.checkParams fn = some v ∧ b ++ v.address = a) ↔ f.FirstOffence b a := by
  obtain ⟨above, hup⟩ := h.lineage
  have hrefused := h.refused_iff hup
  have hcheck : param.checkParams fn = checkUnder (.var :: fn :: above) 0 param.children := by
    rw [checkUnder_parameter 0 _ rfl (List.find?_cons_of_pos h.callable)]
    rfl
  rw [hcheck]
  constructor
  · rintro ⟨v, hv, rfl⟩
    obtain ⟨⟨m, hr⟩, hfirst⟩ := (exists_checkUnder_iff _ _ v.address).mp ⟨v, hv, rfl⟩
    refine ⟨List.prefix_append b _, exists_offends_iff.mpr ⟨m, (hrefused _ m).mpr hr⟩, ?_⟩
    rintro a' p k ⟨c, rfl⟩ ho
    obtain ⟨m', hr'⟩ := exists_offends_iff.mp ⟨p, k, ho⟩
    exact (append_le_append_iff b).mpr (hfirst c m' ((hrefused c m').mp hr'))
  · rintro ⟨⟨c, rfl⟩, hoffends, hfirst⟩
    obtain ⟨m, hr⟩ := exists_offends_iff.mp hoffends
    obtain ⟨v, hv, hc⟩ := (exists_checkUnder_iff (.var :: fn :: above) param.children c).mpr
      ⟨⟨m, (hrefused c m).mp hr⟩, fun c' m' hr' => by
        obtain ⟨p, k, ho⟩ := exists_offends_iff.mpr ⟨m', (hrefused c' m').mpr hr'⟩
        exact (append_le_append_iff b).mp (hfirst _ p k (List.prefix_append b c') ho)⟩
    exact ⟨v, hv, by rw [hc]⟩

/-- Pruning moves no declaration and changes no kind. -/
theorem lineage?_of_pruneIn (f : Forest) :
    ∀ inside a l, lineage? (pruneIn inside f) a = some l → f.lineage? a = some l := by
  induction f using Forest.induction with
  | nil =>
      intro inside a l h
      exact h
  | hole rest ih =>
      intro inside a l h
      rw [pruneIn_hole] at h
      cases a with
      | nil => simpa using h
      | cons i a =>
          cases i with
          | zero => simp at h
          | succ j =>
              rw [lineage?_succ] at h ⊢
              exact ih inside _ l h
  | node k as cs rest ihc ihr =>
      intro inside a l h
      obtain ⟨kept, hprune, hkept⟩ : ∃ kept,
          pruneIn inside (.node k as cs :: rest) = .node k as kept :: pruneIn inside rest ∧
            ∀ b l, lineage? kept b = some l → lineage? cs b = some l := by
        cases hk : inside && k == .var with
        | true =>
            obtain ⟨rfl, hv⟩ := Bool.and_eq_true_iff.mp hk
            cases beq_iff_eq.mp hv
            exact ⟨cs, rfl, fun _ _ hl => hl⟩
        | false =>
            refine ⟨_, pruneIn_node as cs rest hk, fun b l hl => ?_⟩
            split at hl
            · cases b with
              | nil => simpa using hl
              | cons j b => simp [lineage?] at hl
            · exact ihc _ b l hl
      rw [hprune] at h
      cases a with
      | nil => simpa using h
      | cons i a =>
          cases i with
          | zero =>
              rw [lineage?_zero] at h ⊢
              obtain ⟨l', hl', rfl⟩ := Option.map_eq_some_iff.mp h
              rw [hkept a l' hl']
              rfl
          | succ j =>
              rw [lineage?_succ] at h ⊢
              exact ihr inside _ l h

theorem Offends.of_prune {p k : Kind} (h : f.prune.Offends a p k) : f.Offends a p k := by
  obtain ⟨parent, above, hl, hb⟩ := h
  exact ⟨parent, above, lineage?_of_pruneIn f false a _ hl, hb⟩

end Offences

end Forest

end DeclGen
