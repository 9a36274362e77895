import DeclGen.Text.Basic

/-!
# Dictionaries of texts

A dictionary maps texts to texts. Each key occurs once, and keys stand in the order in which they
were first put in.
-/

namespace DeclGen

/-- A finite map between texts, with its keys in order of insertion. -/
structure Dict where
  entries : List (Text × Text)
  nodup_keys : (entries.map Prod.fst).Nodup

namespace Dict

/-- The entry list with the value of one key set. -/
def setEntry (key value : Text) : List (Text × Text) → List (Text × Text)
  | [] => [(key, value)]
  | (k, v) :: rest => if k = key then (k, value) :: rest else (k, v) :: setEntry key value rest

/-- Setting a value keeps the keys and adds the new one at the end where it was missing. -/
theorem map_fst_setEntry (key value : Text) (es : List (Text × Text)) :
    (setEntry key value es).map Prod.fst =
      if key ∈ es.map Prod.fst then es.map Prod.fst else es.map Prod.fst ++ [key] := by
  induction es with
  | nil => simp [setEntry]
  | cons e rest ih =>
      obtain ⟨k, v⟩ := e
      by_cases h : k = key
      · subst h; simp [setEntry]
      · by_cases hm : key ∈ rest.map Prod.fst
        · simp [setEntry, h, ih, hm, Ne.symm h]
        · simp [setEntry, h, ih, hm, Ne.symm h]

/-- The dictionary without entries. -/
def empty : Dict := ⟨[], by simp⟩

instance : Inhabited Dict := ⟨empty⟩

/-- The dictionary with the value of one key set. -/
def insert (d : Dict) (key value : Text) : Dict where
  entries := setEntry key value d.entries
  nodup_keys := by
    rw [map_fst_setEntry]
    split
    · exact d.nodup_keys
    · next h =>
        rw [List.nodup_append]
        refine ⟨d.nodup_keys, by simp, ?_⟩
        intro a ha b hb hab
        simp only [List.mem_singleton] at hb
        exact h (hb ▸ hab ▸ ha)

/-- The dictionary of a list of entries, in which later entries win. -/
def ofList (es : List (Text × Text)) : Dict := es.foldl (fun d e => d.insert e.1 e.2) empty

/-- The value of a key. -/
def get? (d : Dict) (key : Text) : Option Text := d.entries.lookup key

/-- The number of keys. -/
def size (d : Dict) : Nat := d.entries.length

/-- Whether there are no entries. -/
def isEmpty (d : Dict) : Bool := d.entries.isEmpty

end Dict

end DeclGen
