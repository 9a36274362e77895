import DeclGen.Decimal.Basic
import DeclGen.Json.Reader
import DeclGen.Proofs.Json.Levels
import Mathlib.Data.List.TakeWhile

/-!
# Values as they are read

An induction on values, the names and the number literals in a value, and what the reader says about
them. The reader of JSON texts and the reader of decimal numbers have a grammar of numbers each:
every literal that the first one takes up is a number of the second one.
-/

namespace DeclGen.Json

section Structure

/-- A property of values follows from what it says of the elements of a list and of the fields of an
object. -/
@[elab_as_elim]
theorem Sourced.induction {motive : Sourced → Prop} (null : motive .null)
    (bool : ∀ b, motive (.bool b)) (number : ∀ l, motive (.number l))
    (string : ∀ s, motive (.string s))
    (array : ∀ source es, (∀ e ∈ es, motive e) → motive (.array source es))
    (object : ∀ source fs, (∀ f ∈ fs, motive f.2) → motive (.object source fs)) (v : Sourced) :
    motive v :=
  @Sourced.rec motive (fun es => ∀ e ∈ es, motive e) (fun fs => ∀ f ∈ fs, motive f.2)
    (fun f => motive f.2) null bool number string array object nofun
    (fun _ _ he hes => List.forall_mem_cons.mpr ⟨he, hes⟩) nofun
    (fun _ _ hf hfs => List.forall_mem_cons.mpr ⟨hf, hfs⟩) (fun _ _ hv => hv) v

theorem valueList_eq_map (es : List Sourced) : valueList es = es.map (·.value) := by
  induction es with
  | nil => rfl
  | cons e es ih => rw [valueList, ih, List.map_cons]

theorem valueFields_eq_map (fs : List (String × Sourced)) :
    valueFields fs = fs.map fun f => (f.1, f.2.value) := by
  induction fs with
  | nil => rfl
  | cons f fs ih => rw [valueFields, ih, List.map_cons]

theorem names_valueFields (fs : List (String × Sourced)) :
    (valueFields fs).map (·.1) = fs.map (·.1) := by
  rw [valueFields_eq_map, List.map_map]
  rfl

mutual

/-- Whether no object in a value has two fields of one name. -/
def Sourced.hasDistinctNames : Sourced → Bool
  | .array _ es => elemsHaveDistinctNames es
  | .object _ fs => decide (fs.map (·.1)).Nodup && fieldsHaveDistinctNames fs
  | _ => true

/-- Whether no object in the elements of a list has two fields of one name. -/
def elemsHaveDistinctNames : List Sourced → Bool
  | [] => true
  | e :: es => e.hasDistinctNames && elemsHaveDistinctNames es

/-- Whether no object in the values of fields has two fields of one name. -/
def fieldsHaveDistinctNames : List (String × Sourced) → Bool
  | [] => true
  | (_, v) :: fs => v.hasDistinctNames && fieldsHaveDistinctNames fs

end

theorem hasDistinctNames_array_iff (source : Span) (es : List Sourced) :
    (Sourced.array source es).hasDistinctNames = true ↔ ∀ e ∈ es, e.hasDistinctNames = true := by
  rw [Sourced.hasDistinctNames]
  induction es with
  | nil => simp [elemsHaveDistinctNames]
  | cons e es ih => rw [elemsHaveDistinctNames, Bool.and_eq_true, ih, List.forall_mem_cons]

theorem hasDistinctNames_object_iff (source : Span) (fs : List (String × Sourced)) :
    (Sourced.object source fs).hasDistinctNames = true ↔
      (fs.map (·.1)).Nodup ∧ ∀ f ∈ fs, f.2.hasDistinctNames = true := by
  have hfields : fieldsHaveDistinctNames fs = true ↔ ∀ f ∈ fs, f.2.hasDistinctNames = true := by
    induction fs with
    | nil => simp [fieldsHaveDistinctNames]
    | cons f fs ih => rw [fieldsHaveDistinctNames, Bool.and_eq_true, ih, List.forall_mem_cons]
  rw [Sourced.hasDistinctNames, Bool.and_eq_true, decide_eq_true_eq, hfields]

end Structure

section Literals

mutual

/-- The number literals of a value, at any depth. -/
def Sourced.literals : Sourced → List String
  | .number l => [l]
  | .array _ es => elemLiterals es
  | .object _ fs => fieldLiterals fs
  | _ => []

/-- The number literals of the elements of a list. -/
def elemLiterals : List Sourced → List String
  | [] => []
  | e :: es => e.literals ++ elemLiterals es

/-- The number literals of the fields of an object. -/
def fieldLiterals : List (String × Sourced) → List String
  | [] => []
  | (_, v) :: fs => v.literals ++ fieldLiterals fs

end

theorem elemLiterals_eq_flatMap (es : List Sourced) :
    elemLiterals es = es.flatMap (·.literals) := by
  induction es with
  | nil => rfl
  | cons e es ih => rw [elemLiterals, ih, List.flatMap_cons]

theorem fieldLiterals_eq_flatMap (fs : List (String × Sourced)) :
    fieldLiterals fs = fs.flatMap (·.2.literals) := by
  induction fs with
  | nil => rfl
  | cons f fs ih => rw [fieldLiterals, ih, List.flatMap_cons]

end Literals

section Numerals

/-- One or more digits. -/
def IsDigits (ds : List Char) : Prop := ds ≠ [] ∧ ∀ d ∈ ds, d.isDigit = true

/-- Nothing, or a point and digits. -/
def IsFraction (cs : List Char) : Prop := cs = [] ∨ ∃ ds, IsDigits ds ∧ cs = '.' :: ds

/-- Nothing, or an exponent mark, a sign and digits. -/
def IsExponent (cs : List Char) : Prop :=
  cs = [] ∨ ∃ e sign ds, (e = 'e' ∨ e = 'E') ∧ (sign = [] ∨ sign = ['+'] ∨ sign = ['-']) ∧
    IsDigits ds ∧ cs = e :: (sign ++ ds)

variable {cs ds rest : List Char}

theorem digits1_eq_some (h : digits1 cs = some (ds, rest)) : IsDigits ds ∧ cs = ds ++ rest := by
  simp only [digits1, Option.ite_none_left_eq_some, Option.some.injEq, Prod.mk.injEq,
    List.isEmpty_iff] at h
  obtain ⟨hne, rfl, rfl⟩ := h
  exact ⟨⟨hne, fun d hd => List.mem_takeWhile_imp hd⟩, List.takeWhile_append_dropWhile.symm⟩

theorem fractionRest_eq_some (h : fractionRest cs = some rest) :
    ∃ f, IsFraction f ∧ cs = f ++ rest := by
  unfold fractionRest at h
  split at h
  · obtain ⟨⟨ds, r⟩, hd, rfl⟩ := Option.map_eq_some_iff.mp h
    obtain ⟨hds, rfl⟩ := digits1_eq_some hd
    exact ⟨'.' :: ds, .inr ⟨ds, hds, rfl⟩, rfl⟩
  · cases h
    exact ⟨[], .inl rfl, rfl⟩

theorem exponentRest_eq_some (h : exponentRest cs = some rest) :
    ∃ e, IsExponent e ∧ cs = e ++ rest := by
  have hmarked {e : Char} {sign more : List Char} (he : e = 'e' ∨ e = 'E')
      (hs : sign = [] ∨ sign = ['+'] ∨ sign = ['-'])
      (h : (digits1 more).map (·.2) = some rest) :
      ∃ x, IsExponent x ∧ e :: (sign ++ more) = x ++ rest := by
    obtain ⟨⟨ds, r⟩, hd, rfl⟩ := Option.map_eq_some_iff.mp h
    obtain ⟨hds, rfl⟩ := digits1_eq_some hd
    exact ⟨e :: (sign ++ ds), .inr ⟨e, sign, ds, he, hs, hds, rfl⟩, by simp⟩
  have hsigned {e : Char} {more : List Char} (he : e = 'e' ∨ e = 'E')
      (h : exponentRest ('e' :: more) = some rest) : ∃ x, IsExponent x ∧ e :: more = x ++ rest := by
    simp only [exponentRest] at h
    split at h
    · exact hmarked he (.inr (.inl rfl)) h
    · exact hmarked he (.inr (.inr rfl)) h
    · exact hmarked he (.inl rfl) h
  unfold exponentRest at h
  split at h
  · exact hsigned (.inl rfl) h
  · exact hsigned (.inr rfl) h
  · cases h
    exact ⟨[], .inl rfl, rfl⟩

/-- The literal of a number without its sign. -/
def IsUnsigned (cs : List Char) : Prop :=
  ∃ ds f e, IsDigits ds ∧ IsFraction f ∧ IsExponent e ∧ cs = ds ++ (f ++ e)

theorem numberRest_eq_some (h : numberRest cs = some rest) :
    ∃ used, IsUnsigned used ∧ cs = used ++ rest := by
  have hafter {ds more : List Char} (hds : IsDigits ds)
      (h : (fractionRest more).bind exponentRest = some rest) :
      ∃ used, IsUnsigned used ∧ ds ++ more = used ++ rest := by
    obtain ⟨r, hf, he⟩ := Option.bind_eq_some_iff.mp h
    obtain ⟨f, hfraction, rfl⟩ := fractionRest_eq_some hf
    obtain ⟨e, hexponent, rfl⟩ := exponentRest_eq_some he
    exact ⟨ds ++ (f ++ e), ⟨ds, f, e, hds, hfraction, hexponent, rfl⟩, by simp⟩
  unfold numberRest at h
  split at h
  · have hzero : IsDigits ['0'] := ⟨by simp, by simp⟩
    exact hafter hzero h
  · obtain ⟨⟨ds, more⟩, hd, hmore⟩ := Option.bind_eq_some_iff.mp h
    obtain ⟨hds, rfl⟩ := digits1_eq_some hd
    exact hafter hds hmore

theorem consumed_append (used rest : List Char) : consumed (used ++ rest) rest = used := by
  simp [consumed]

/-- Digits before something that does not start with one are taken as a whole. -/
theorem IsDigits.span (h : IsDigits ds) (hr : ∀ c ∈ rest.head?, c.isDigit = false) :
    (ds ++ rest).takeWhile Char.isDigit = ds ∧ (ds ++ rest).dropWhile Char.isDigit = rest := by
  rw [List.takeWhile_append_of_pos h.2, List.dropWhile_append_of_pos h.2]
  cases rest with
  | nil => simp
  | cons c rest =>
      have hc : c.isDigit = false := hr c rfl
      simp [hc]

theorem IsDigits.takeSign (h : IsDigits ds) :
    Decimal.takeSign (ds ++ rest) = (false, ds ++ rest) := by
  obtain ⟨hne, hall⟩ := h
  cases ds with
  | nil => exact absurd rfl hne
  | cons d ds =>
      have hd : d.isDigit = true := hall d List.mem_cons_self
      rw [List.cons_append]
      unfold Decimal.takeSign
      split
      · next heq =>
          cases heq
          cases hd
      · next heq =>
          cases heq
          cases hd
      · rfl

theorem IsExponent.head (h : IsExponent cs) : ∀ c ∈ cs.head?, c = 'e' ∨ c = 'E' := by
  rcases h with rfl | ⟨e, sign, ds, he, -, -, rfl⟩
  · simp
  · rintro c ⟨⟩
    exact he

theorem IsDigits.takeSign_snd {sign : List Char}
    (hs : sign = [] ∨ sign = ['+'] ∨ sign = ['-']) (h : IsDigits ds) :
    (Decimal.takeSign (sign ++ ds)).2 = ds := by
  rcases hs with rfl | rfl | rfl
  · have htake : Decimal.takeSign (ds ++ []) = (false, ds ++ []) := h.takeSign
    rw [List.append_nil] at htake
    rw [List.nil_append, htake]
  · rfl
  · rfl

/-- An unsigned literal after its sign is the literal of a decimal number. -/
theorem isSome_literal?_of_takeSign {n : Bool} (hs : Decimal.takeSign cs = (n, rest))
    (h : IsUnsigned rest) : (Decimal.literal? cs).isSome = true := by
  obtain ⟨ds, f, e, hds, hf, he, rfl⟩ := h
  have hexp (c : Char) (hc : c ∈ e.head?) : c.isDigit = false := by
    rcases he.head c hc with rfl | rfl <;> rfl
  have hhead (c : Char) (hc : c ∈ (f ++ e).head?) : c.isDigit = false := by
    rcases hf with rfl | ⟨fs, -, rfl⟩
    · exact hexp c hc
    · cases hc
      rfl
  have hwhole : ds.isEmpty = false := List.isEmpty_eq_false_iff.mpr hds.1
  unfold Decimal.literal?
  simp only [hs, (hds.span hhead).1, (hds.span hhead).2, hwhole, Bool.false_and]
  rcases hf with rfl | ⟨fs, hfs, rfl⟩
  · rcases he with rfl | ⟨e, sign, es, rfl | rfl, hsign, hes, rfl⟩
    · rfl
    · simpa [hes.takeSign_snd hsign, hes.1] using hes.2
    · simpa [hes.takeSign_snd hsign, hes.1] using hes.2
  · simp only [List.cons_append, (hfs.span hexp).1, (hfs.span hexp).2]
    rcases he with rfl | ⟨e, sign, es, rfl | rfl, hsign, hes, rfl⟩
    · rfl
    · simpa [hes.takeSign_snd hsign, hes.1] using hes.2
    · simpa [hes.takeSign_snd hsign, hes.1] using hes.2

/-- A number that is read spells a decimal number. -/
theorem number?_eq_some {v : Sourced} (h : number? cs = some (v, rest)) :
    ∃ l, v = .number l ∧ (Decimal.parse? l).isSome = true := by
  have hspells {used : List Char} {n : Bool} {us : List Char}
      (hs : Decimal.takeSign used = (n, us)) (hu : IsUnsigned us) :
      (Decimal.parse? (String.ofList used)).isSome = true := by
    rw [Decimal.parse?, Option.isSome_map, String.toList_ofList]
    exact isSome_literal?_of_takeSign hs hu
  obtain ⟨r, hr, hv⟩ := Option.bind_eq_some_iff.mp h
  cases hv
  refine ⟨_, rfl, ?_⟩
  split at hr
  · obtain ⟨used, hused, rfl⟩ := numberRest_eq_some hr
    rw [← List.cons_append, consumed_append]
    exact hspells rfl hused
  · obtain ⟨used, hused, rfl⟩ := numberRest_eq_some hr
    rw [consumed_append]
    obtain ⟨ds, f, e, hds, -, -, rfl⟩ := id hused
    exact hspells hds.takeSign hused

end Numerals

section Reading

/-- All literals of a list spell decimal numbers. -/
def Spelled (ls : List String) : Prop := ∀ l ∈ ls, (Decimal.parse? l).isSome = true

theorem Spelled.append {ls ms : List String} (hl : Spelled ls) (hm : Spelled ms) :
    Spelled (ls ++ ms) := by
  intro l h
  rcases List.mem_append.mp h with h | h
  · exact hl l h
  · exact hm l h

/-- The readers of values, of elements and of fields give literals that spell decimal numbers. -/
theorem readers_spelled (fuel : Nat) :
    (∀ {cs rest v}, value? fuel cs = some (v, rest) → Spelled v.literals) ∧
    (∀ {cs rest es}, elems? fuel cs = some (es, rest) → Spelled (elemLiterals es)) ∧
    ∀ {cs rest fs}, fields? fuel cs = some (fs, rest) → Spelled (fieldLiterals fs) := by
  induction fuel with
  | zero => exact ⟨nofun, nofun, nofun⟩
  | succ fuel ih =>
      obtain ⟨hvalue, helems, hfields⟩ := ih
      refine ⟨?_, ?_, ?_⟩
      · intro cs rest v h
        unfold value? at h
        split at h
        · cases h
          exact nofun
        · cases h
          exact nofun
        · cases h
          exact nofun
        · obtain ⟨⟨s, r⟩, -, hv⟩ := Option.map_eq_some_iff.mp h
          cases hv
          exact nofun
        · split at h
          · cases h
            exact nofun
          · obtain ⟨⟨es, r⟩, hes, hv⟩ := Option.bind_eq_some_iff.mp h
            cases hv
            exact helems hes
        · split at h
          · cases h
            exact nofun
          · obtain ⟨⟨fs, r⟩, hfs, hv⟩ := Option.bind_eq_some_iff.mp h
            cases hv
            exact hfields hfs
        · obtain ⟨l, rfl, hl⟩ := number?_eq_some h
          exact List.forall_mem_singleton.mpr hl
      · intro cs rest es h
        unfold elems? at h
        obtain ⟨⟨e, r⟩, he, h⟩ := Option.bind_eq_some_iff.mp h
        dsimp only at h
        split at h
        · obtain ⟨⟨es, r⟩, hes, hv⟩ := Option.bind_eq_some_iff.mp h
          cases hv
          exact (hvalue he).append (helems hes)
        · cases h
          exact (hvalue he).append nofun
        · cases h
      · intro cs rest fs h
        unfold fields? at h
        split at h
        · obtain ⟨⟨k, r⟩, -, h⟩ := Option.bind_eq_some_iff.mp h
          dsimp only at h
          split at h
          · obtain ⟨⟨v, r⟩, hv, h⟩ := Option.bind_eq_some_iff.mp h
            dsimp only at h
            split at h
            · obtain ⟨⟨fs, r⟩, hfs, hv'⟩ := Option.bind_eq_some_iff.mp h
              cases hv'
              exact (hvalue hv).append (hfields hfs)
            · cases h
              exact (hvalue hv).append nofun
            · cases h
          · cases h
        · cases h

/-- What is read as the first value of a text is a value that keeps within the number of levels. -/
theorem readFirst_eq_ok {cs rest : List Char} {v : Sourced} (h : readFirst cs = .ok (v, rest)) :
    value? ((skipSpace cs).length + 1) (skipSpace cs) = some (v, rest) ∧
      v.value.depth ≤ maxDepth := by
  unfold readFirst at h
  split at h
  · cases h
  · split at h
    · next hvalue =>
        split at h
        · cases h
        · next hdepth =>
            cases h
            exact ⟨hvalue, beyond?_eq_none_iff.mp hdepth⟩
    · cases h

/-- Every number literal of a text in JSON spells a decimal number. -/
theorem spelled_of_readFirst {cs rest : List Char} {v : Sourced}
    (h : readFirst cs = .ok (v, rest)) : Spelled v.literals :=
  (readers_spelled _).1 (readFirst_eq_ok h).1

/-- The only value of a text is its first value. -/
theorem exists_readFirst_of_readAll {cs : List Char} {v : Sourced} (h : readAll cs = .ok v) :
    ∃ rest, readFirst cs = .ok (v, rest) := by
  unfold readAll at h
  cases hfirst : readFirst cs with
  | error e =>
      rw [hfirst] at h
      cases h
  | ok r =>
      obtain ⟨w, rest⟩ := r
      simp only [hfirst, bind, Except.bind] at h
      split at h
      · cases h
        exact ⟨rest, rfl⟩
      · cases h

end Reading

end DeclGen.Json
