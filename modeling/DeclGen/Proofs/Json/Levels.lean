import DeclGen.Json.Basic

/-!
# The levels of a value

A list or an object has one level more than what stands in it. Whether a value keeps within a number
of levels is therefore told part by part, and a value that keeps within the limit has a text.
-/

namespace DeclGen.Json

mutual

/-- The number of levels of a value: of lists and objects that stand inside each other. -/
def depth : Json → Nat
  | array es => depthOfElems es + 1
  | object fs => depthOfFields fs + 1
  | _ => 0

/-- The greatest number of levels of the elements of a list. -/
def depthOfElems : List Json → Nat
  | [] => 0
  | e :: es => max e.depth (depthOfElems es)

/-- The greatest number of levels of the values of fields. -/
def depthOfFields : List (String × Json) → Nat
  | [] => 0
  | (_, v) :: fs => max v.depth (depthOfFields fs)

end

variable {n : Nat}

/-- A property of values follows from what it says of the elements of a list and of the fields of an
object. -/
@[elab_as_elim]
theorem induction {motive : Json → Prop} (null : motive .null) (bool : ∀ b, motive (.bool b))
    (number : ∀ l, motive (.number l)) (string : ∀ t, motive (.string t))
    (array : ∀ es, (∀ e ∈ es, motive e) → motive (.array es))
    (object : ∀ fs, (∀ f ∈ fs, motive f.2) → motive (.object fs)) (j : Json) : motive j :=
  @Json.rec motive (fun es => ∀ e ∈ es, motive e) (fun fs => ∀ f ∈ fs, motive f.2)
    (fun f => motive f.2) null bool number string array object nofun
    (fun _ _ he hes => List.forall_mem_cons.mpr ⟨he, hes⟩) nofun
    (fun _ _ hf hfs => List.forall_mem_cons.mpr ⟨hf, hfs⟩) (fun _ _ hv => hv) j

theorem depthOfElems_eq_foldr (es : List Json) :
    depthOfElems es = (es.map depth).foldr max 0 := by
  induction es with
  | nil => rfl
  | cons e es ih => rw [depthOfElems, ih, List.map_cons, List.foldr_cons]

theorem depthOfFields_eq_foldr (fs : List (String × Json)) :
    depthOfFields fs = (fs.map fun f => f.2.depth).foldr max 0 := by
  induction fs with
  | nil => rfl
  | cons f fs ih => rw [depthOfFields, ih, List.map_cons, List.foldr_cons]

theorem depthOfElems_le_iff {es : List Json} :
    depthOfElems es ≤ n ↔ ∀ e ∈ es, e.depth ≤ n := by
  induction es with
  | nil => simp [depthOfElems]
  | cons e es ih => rw [depthOfElems, Nat.max_le, ih, List.forall_mem_cons]

theorem depthOfFields_le_iff {fs : List (String × Json)} :
    depthOfFields fs ≤ n ↔ ∀ f ∈ fs, f.2.depth ≤ n := by
  induction fs with
  | nil => simp [depthOfFields]
  | cons f fs ih => rw [depthOfFields, Nat.max_le, ih, List.forall_mem_cons]

theorem depth_array_le_iff {es : List Json} :
    (array es).depth ≤ n + 1 ↔ ∀ e ∈ es, e.depth ≤ n := by
  rw [depth, Nat.add_le_add_iff_right, depthOfElems_le_iff]

theorem depth_object_le_iff {fs : List (String × Json)} :
    (object fs).depth ≤ n + 1 ↔ ∀ f ∈ fs, f.2.depth ≤ n := by
  rw [depth, Nat.add_le_add_iff_right, depthOfFields_le_iff]

/-- What stands in an object has fewer levels than the object. -/
theorem depth_lt_object {fs : List (String × Json)} {f : String × Json} (h : f ∈ fs) :
    f.2.depth < (object fs).depth :=
  Nat.lt_succ_of_le (depthOfFields_le_iff.mp (Nat.le_refl _) f h)

theorem beyondElems?_eq_none_iff {es : List Json} :
    beyondElems? n es = none ↔ ∀ e ∈ es, e.beyond? n = none := by
  induction es with
  | nil => simp [beyondElems?]
  | cons e es ih => rw [beyondElems?, Option.or_eq_none_iff, ih, List.forall_mem_cons]

theorem beyondFields?_eq_none_iff {fs : List (String × Json)} :
    beyondFields? n fs = none ↔ ∀ f ∈ fs, f.2.beyond? n = none := by
  induction fs with
  | nil => simp [beyondFields?]
  | cons f fs ih => rw [beyondFields?, Option.or_eq_none_iff, ih, List.forall_mem_cons]

/-- No bracket opens a level beyond a number of levels exactly if the value has no more levels. -/
theorem beyond?_eq_none_iff {j : Json} : j.beyond? n = none ↔ j.depth ≤ n := by
  induction j using Json.induction generalizing n with
  | null => cases n <;> simp [beyond?, depth]
  | bool b => cases n <;> simp [beyond?, depth]
  | number l => cases n <;> simp [beyond?, depth]
  | string t => cases n <;> simp [beyond?, depth]
  | array es ih =>
      cases n with
      | zero => simp [beyond?, depth]
      | succ n =>
          rw [beyond?, beyondElems?_eq_none_iff, depth_array_le_iff]
          exact forall₂_congr fun e he => ih e he
  | object fs ih =>
      cases n with
      | zero => simp [beyond?, depth]
      | succ n =>
          rw [beyond?, beyondFields?_eq_none_iff, depth_object_le_iff]
          exact forall₂_congr fun f hf => ih f hf

/-- A value with more levels has a bracket that opens one of them. -/
theorem exists_beyond? {j : Json} (h : n < j.depth) : ∃ bracket, j.beyond? n = some bracket :=
  Option.ne_none_iff_exists'.mp fun hnone => Nat.not_le_of_lt h (beyond?_eq_none_iff.mp hnone)

@[simp]
theorem depth_ofString (s : String) : (ofString s).depth = 0 := rfl

@[simp]
theorem depth_ofNat (k : Nat) : (ofNat k).depth = 0 := rfl

end DeclGen.Json
