import DeclGen.Proofs.Render.Arrangement

/-!
# Indentation follows the braces

Depth is handed down from block to block while rendering. The result is that each line of rendered
text is indented by the braces that are open before it: rendered without any indentation, the text
has the same lines, and the braces of the lines before a line say how far it is indented.
-/

namespace DeclGen

open Text Line

/-- Where bodies have neither line ends nor braces of their own, arranged lines are nested. -/
theorem Line.Arranged.nested {depth : Nat} {ls : List Line} (h : Arranged Plain depth ls) :
    Nested depth ls := by
  induction h with
  | nil => exact .nil
  | append _ _ hks hls => exact hks.append hls
  | blank => exact .plain plain_nil
  | line ht _ => exact .plain ht
  | block ho hc _ hls => exact .block ho hc hls

/-- A text of which the format only indents the lines, and these are nested. -/
def Spread (depth : Nat) (g : Format → Text) : Prop :=
  ∃ ls, Nested depth ls ∧ ∀ format, g format = write format ls

theorem orderly_dialect (l : Lang) : l.dialect.Keeps Plain := keeps_dialect wording_plain l

theorem uniform_render {style : Style} (hd : style.dialect.Keeps Plain) (f : Forest)
    (hf : AllPlain (style.substitution.values f)) :
    Uniform (Spread 0) fun format => (style.formatted format).render f := by
  rcases uniform_laid wording_plain hd f hf with ⟨g, ⟨ls, hls, -, hg⟩, hok⟩ | herr
  · exact .inl ⟨g, ⟨ls, hls.nested, hg⟩, hok⟩
  · exact .inr herr

/-- Rendered text is indented by its braces, in every language and format: it has the lines that
come without any indentation, an empty line stays empty, and any other line is indented by the
braces that are open before it, less the one that it begins by closing. -/
theorem render_indents_by_braces (l : Lang) (format : Format) (hfill : format.fill ≠ '\n')
    (s : Substitution) (f : Forest) (hf : AllPlain (s.values f)) {t : Text}
    (ht : ({ dialect := l.dialect, format, substitution := s } : Style).render f = .ok t) :
    ∃ bare, ({ dialect := l.dialect, format := { format with width := 0 }, substitution := s } :
        Style).render f = .ok bare ∧
      IsIndentation format bare t := by
  have huniform :=
    @uniform_render { dialect := l.dialect, format, substitution := s } (orderly_dialect l) f hf
  rcases huniform with ⟨g, ⟨ls, hls, hg⟩, hok⟩ | herr
  · have hrender (other : Format) :
        ({ dialect := l.dialect, format := other, substitution := s } : Style).render f =
          .ok (write other ls) := (hok other).trans (congrArg Except.ok (hg other))
    rw [hrender format] at ht
    cases ht
    exact ⟨_, hrender _, hls.isIndentation hfill⟩
  · obtain ⟨v, hv⟩ := herr format
    have hrefused := hv.symm.trans ht
    cases hrefused

/-- A flag set inside a struct, with a decoration. -/
def nestedFlags : Forest :=
  [.node .struct [⟨.name, ofString "S"⟩]
    [.node .decoration [⟨.other "doc", ofString "#[repr(C)]"⟩] [],
      .node .flagSet [⟨.name, ofString "F"⟩]
        [.node .var [⟨.name, ofString "a"⟩, ⟨.value, ofString "1"⟩] []]]]

theorem nestedFlags_indented :
    ∃ t bare, ({ dialect := .rust, format := { width := 2 } } : Style).render nestedFlags = .ok t ∧
      t.lines[6]? = some (ofString "      const A = 1,") ∧
      ({ dialect := .rust, format := { width := 0 } } : Style).render nestedFlags = .ok bare ∧
      IsIndentation { width := 2 } bare t := by
  have hline : (({ dialect := .rust, format := { width := 2 } } : Style).render
      nestedFlags).toOption.bind (·.lines[6]?) = some (ofString "      const A = 1,") := by
    decide +kernel
  cases hr : ({ dialect := .rust, format := { width := 2 } } : Style).render nestedFlags with
  | error v =>
      rw [hr] at hline
      cases hline
  | ok t =>
      rw [hr] at hline
      obtain ⟨bare, hbare, hindent⟩ := render_indents_by_braces .rust { width := 2 } (by decide) {}
        nestedFlags (by decide +kernel) hr
      exact ⟨t, bare, rfl, hline, hbare, hindent⟩

end DeclGen
