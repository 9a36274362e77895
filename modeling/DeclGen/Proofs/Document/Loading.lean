import DeclGen.Document.Loading
import DeclGen.Proofs.Store.Naming

/-!
# What loading a document looks at

A document is loaded from one file, and only if the name of the file ends like that of a document.
What stands elsewhere in the store makes no difference.
-/

namespace DeclGen

theorem eq_ok_of_toOption {ε α : Type} {x : Except ε α} {a : α} (h : x.toOption = some a) :
    x = .ok a := by
  cases x with
  | error e => cases h
  | ok b => exact congrArg Except.ok (Option.some.inj h)

namespace DocumentFormat

/-- All endings of documents are longer than a dot. -/
theorem length_of_ofPath? {path : String} {format : DocumentFormat}
    (h : ofPath? path = some format) : 1 < (Path.extension path).length := by
  have hlength : (Path.lowerExtension path).length = (Path.extension path).length :=
    String.length_map
  rw [← hlength]
  rw [ofPath?] at h
  generalize Path.lowerExtension path = e at h
  unfold ofExtension? at h
  split at h
  · decide
  · decide
  · decide
  · decide
  · decide
  · cases h

theorem extension_ne_of_ofPath? {path ending : String} {format : DocumentFormat}
    (h : ofPath? path = some format) (he : ofExtension? (ending.map Char.toLower) = none) :
    Path.extension path ≠ ending := by
  rintro rfl
  have hboth := h.symm.trans he
  cases hboth

end DocumentFormat

namespace Document

variable {fs gs : Files} {path : String}

/-- What comes of loading a document, with the records. -/
theorem load_eq {x : Except LoadError Content} (h : (load fs path).2 = x) :
    load fs path = ((load fs path).1, x) :=
  Prod.ext rfl h

theorem exists_format_of_load {c : Content} (h : (load fs path).2 = .ok c) :
    ∃ format, DocumentFormat.ofPath? path = some format := by
  rw [load] at h
  split at h
  · cases h
  · next format hformat => exact ⟨format, hformat⟩

theorem exists_read_of_load {c : Content} (h : (load fs path).2 = .ok c) :
    ∃ t, fs.read path = .ok t := by
  rw [load] at h
  split at h
  · cases h
  · split at h
    · cases h
    · next t ht => exact ⟨t, ht⟩

theorem load_congr (h : gs.read path = fs.read path) : load gs path = load fs path := by
  simp only [load, h]

end Document

end DeclGen
