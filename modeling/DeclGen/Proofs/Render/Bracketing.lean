import DeclGen.Proofs.Render.Arrangement
import DeclGen.Proofs.Text.Brackets

/-!
# Rendered text is bracketed

Brackets are opened and closed in different places: the brace of a block at the end of its header
and at the start of its closer, parentheses in parameter lists and casts. If the values of a forest
have paired brackets, then so has the rendered text.
-/

namespace DeclGen

open Text Line

/-- Putting fragments together keeps brackets paired. -/
theorem wording_balanced : Wording Balanced where
  words {t} ht := by
    apply balanced_of_forall
    intro b hb
    rcases bracket?_cases b with ⟨p, rfl⟩ | ⟨p, rfl⟩ | ⟨hnone, -⟩
    · exact absurd (by cases p <;> decide) (ht _ hb)
    · exact absurd (by cases p <;> decide) (ht _ hb)
    · exact hnone
  append hs ht := hs.append ht
  parens ht := ht.enclosed .round
  upper ht := ht.upper

/-- The indentation holds no brackets, unless the fill character is one. -/
theorem Format.balanced_indent {format : Format} (hfill : format.fill ∉ "()[]\x7b\x7d".toList)
    (depth : Nat) : Balanced (format.indent depth) := by
  apply balanced_of_forall
  intro b hb
  rcases bracket?_cases b with ⟨p, rfl⟩ | ⟨p, rfl⟩ | ⟨hnone, -⟩
  · rw [format.fill_eq_of_mem_indent hb (by cases p <;> decide)] at hfill
    exact absurd (by cases p <;> decide) hfill
  · rw [format.fill_eq_of_mem_indent hb (by cases p <;> decide)] at hfill
    exact absurd (by cases p <;> decide) hfill
  · exact hnone

/-- Arranged lines have paired brackets together. A block is the one case where the lines do not
have them one by one: what it encloses begins and ends inside a line. -/
theorem Line.Arranged.balanced {format : Format} (hfill : format.fill ∉ "()[]\x7b\x7d".toList)
    {depth : Nat} {ls : List Line} (h : Arranged Balanced depth ls) :
    Balanced (write format ls) := by
  have hnewline : Balanced newline := by decide
  induction h with
  | nil => exact .nil
  | append _ _ hks hls =>
      rw [write_append]
      exact hks.append hls
  | blank =>
      rw [write_blank]
      exact hnewline
  | @line depth t ht hne =>
      rw [write_singleton format hne]
      exact ((Format.balanced_indent hfill depth).append ht).append hnewline
  | @block depth header closer ls ho hc _ hls =>
      have hindent := Format.balanced_indent hfill depth
      have hheader := write_singleton format ho.ne_nil depth
      have hcloser := write_singleton format hc.ne_nil depth
      obtain ⟨head, hhead, rfl⟩ := ho
      obtain ⟨rest, hrest, rfl⟩ := hc
      have hinside := ((hnewline.append hls).append hindent).enclosed .curly
      have hwhole := ((hindent.append hhead).append hinside).append (hrest.append hnewline)
      rw [← List.singleton_append, List.append_assoc, write_append, write_append, hheader, hcloser]
      simp only [Pair.opening, Pair.closing, openBrace, closeBrace, List.append_assoc,
        List.cons_append, List.nil_append] at hwhole ⊢
      exact hwhole

/-- Rendered text has paired brackets, in every language and format, if the replaced values of the
forest have them one by one. -/
theorem render_balanced (l : Lang) (format : Format)
    (hfill : format.fill ∉ "()[]\x7b\x7d".toList) (s : Substitution) (f : Forest)
    (hf : ∀ v ∈ s.values f, Balanced v) {t : Text}
    (ht : ({ dialect := l.dialect, format, substitution := s } : Style).render f = .ok t) :
    Balanced t := by
  have huniform := @uniform_laid _ wording_balanced
    { dialect := l.dialect, format, substitution := s } (keeps_dialect wording_balanced l) f hf
  rcases huniform with ⟨g, ⟨ls, hls, -, hg⟩, hok⟩ | herr
  · have htext : t = write format ls := by
      have hboth := ht.symm.trans (hok format)
      exact (Except.ok.inj hboth).trans (hg format)
    rw [htext]
    exact hls.balanced hfill
  · obtain ⟨v, hv⟩ := herr format
    have hrefused := hv.symm.trans ht
    cases hrefused

/-- A flag set with brackets in a value, and a function with a pointer among its parameters. -/
def pointedFlags : Forest :=
  [.node .flagSet [⟨.name, ofString "F"⟩]
      [.node .var [⟨.name, ofString "a"⟩, ⟨.value, ofString "bit[(1)]"⟩,
        ⟨.type, ofString "u8"⟩] []],
    .node .function [⟨.name, ofString "f"⟩]
      [.node .functionPointer [⟨.name, ofString "g"⟩]
        [.node .var [⟨.name, ofString "x"⟩, ⟨.type, ofString "[u8]"⟩] []]]]

theorem pointedFlags_balanced :
    ∃ t, ({ dialect := Lang.cpp.dialect, format := { width := 2 } } : Style).render pointedFlags =
        .ok t ∧
      t.lines[2]? = some (ofString "  A = static_cast<u8>(bit[(1)]),") ∧
      t.lines[5]? = some (ofString "auto f(auto (*g)([u8] x) -> void) -> void;") ∧
      Balanced t := by
  have hlines : (({ dialect := Lang.cpp.dialect, format := { width := 2 } } : Style).render
      pointedFlags).toOption.map (fun t => (t.lines[2]?, t.lines[5]?)) =
        some (some (ofString "  A = static_cast<u8>(bit[(1)]),"),
          some (ofString "auto f(auto (*g)([u8] x) -> void) -> void;")) := by
    decide +kernel
  cases hr : ({ dialect := Lang.cpp.dialect, format := { width := 2 } } : Style).render
      pointedFlags with
  | error v =>
      rw [hr] at hlines
      cases hlines
  | ok t =>
      rw [hr] at hlines
      obtain ⟨h2, h5⟩ := Prod.mk.inj (Option.some.inj hlines)
      have hbalanced := render_balanced .cpp { width := 2 } (by decide) {} pointedFlags
        (by decide +kernel) hr
      exact ⟨t, rfl, h2, h5, hbalanced⟩

end DeclGen
