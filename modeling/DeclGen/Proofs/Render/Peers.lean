import DeclGen.Proofs.Render.Arrangement
import DeclGen.Proofs.Render.Refusal

/-!
# Languages side by side

Two languages spell a forest differently, but line by line. Without flag sets, which one language
wraps and the other does not, the texts have the same number of lines, a line is empty in both or in
neither, and it stands at the same level in both.

The levels of a forest are the reason: they are computed without looking at the language.
-/

namespace DeclGen

open Text Line

section Levels

/-- Whether a node of some kind stands anywhere in a forest. -/
def Forest.HasKind (k : Kind) (f : Forest) : Prop :=
  ∃ p ∈ Node.preorderList (fun _ => false) f, p.1 = k

instance (k : Kind) (f : Forest) : Decidable (f.HasKind k) := List.decidableBEx _ _

theorem Forest.hasKind_hole {k : Kind} {rest : Forest} :
    Forest.HasKind k (.hole :: rest) ↔ rest.HasKind k := by
  simp [HasKind, Node.preorderList, Node.preorder]

theorem Forest.hasKind_node {k k' : Kind} {as : List Attr} {cs : List Node} {rest : Forest} :
    Forest.HasKind k (.node k' as cs :: rest) ↔
      k' = k ∨ Forest.HasKind k cs ∨ rest.HasKind k := by
  simp [HasKind, Node.preorderList, Node.preorder, or_and_right, exists_or]

namespace Substitution

variable {s : Substitution} (v w : Bool)

/-- One declaration, if the members of a struct have the same levels either way. -/
theorem nodeLevels_congr {k : Kind} (hk : k ≠ .flagSet) {cs : List Node}
    (hm : ∀ depth, s.memberLevels v depth cs = s.memberLevels w depth cs) (depth : Nat)
    (as : List Attr) :
    s.nodeLevels v depth (.node k as cs) = s.nodeLevels w depth (.node k as cs) := by
  cases k with
  | flagSet => exact absurd rfl hk
  | struct => rw [nodeLevels, nodeLevels, hm]
  | _ => rw [nodeLevels, nodeLevels]

/-- Without flag sets nothing is wrapped. -/
theorem memberLevels_congr {cs : List Node} (hcs : ¬ Forest.HasKind .flagSet cs) :
    ∀ depth, s.memberLevels v depth cs = s.memberLevels w depth cs := by
  induction cs using Forest.induction with
  | nil =>
      intro depth
      rw [memberLevels, memberLevels]
  | hole rest ih =>
      intro depth
      rw [memberLevels_hole, memberLevels_hole]
      exact ih (fun h => hcs (Forest.hasKind_hole.mpr h)) depth
  | node k as cs rest ihc ihr =>
      intro depth
      rw [Forest.hasKind_node, not_or, not_or] at hcs
      obtain ⟨hk, hbelow, hrest⟩ := hcs
      by_cases hd : k = .decoration
      · subst hd
        rw [memberLevels, memberLevels]
        exact ihr hrest depth
      · rw [memberLevels_node _ _ hd, memberLevels_node _ _ hd, ihr hrest,
          nodeLevels_congr v w hk (ihc hbelow)]

theorem levels_congr {f : Forest} (hf : ¬ f.HasKind .flagSet) : s.levels v f = s.levels w f := by
  have hitems : f.flatMap (s.nodeLevels v 0) = f.flatMap (s.nodeLevels w 0) := by
    induction f with
    | nil => rfl
    | cons n rest ih =>
        cases n with
        | hole =>
            rw [List.flatMap_cons, List.flatMap_cons, nodeLevels, nodeLevels]
            rw [ih fun h => hf (Forest.hasKind_hole.mpr h)]
        | node k as cs =>
            rw [Forest.hasKind_node, not_or, not_or] at hf
            rw [List.flatMap_cons, List.flatMap_cons, ih hf.2.2,
              nodeLevels_congr v w hf.1 (memberLevels_congr v w hf.2.1)]
  rw [levels, levels, hitems]

end Substitution

end Levels

section Sides

/-- Two texts side by side, each with the text it is without indentation: they have the same number
of lines, and two lines at the same position are both empty, or both are indented by the same number
of units. -/
structure Peers (format : Format) (bare bare' t t' : Text) : Prop where
  length : t.lines.length = t'.lines.length
  line : ∀ (i : Nat) x x', t.lines[i]? = some x → t'.lines[i]? = some x' →
    x = [] ∧ x' = [] ∨ ∃ units y y', bare.lines[i]? = some y ∧ bare'.lines[i]? = some y' ∧
      y ≠ [] ∧ y' ≠ [] ∧ x = copies units format.unit ++ y ∧ x' = copies units format.unit ++ y'

/-- No body of arranged lines holds a line end, if none of their fragments does. -/
theorem Line.Arranged.single {depth : Nat} {ls : List Line} (h : Arranged SingleLine depth ls) :
    ∀ l ∈ ls, lineEnd ∉ l.body := by
  induction h with
  | nil => simp
  | append _ _ hks hls => exact List.forall_mem_append.mpr ⟨hks, hls⟩
  | blank => simp
  | line ht _ =>
      intro l hl
      rw [List.mem_singleton.mp hl]
      exact ht
  | block ho hc _ hls =>
      obtain ⟨head, hhead, rfl⟩ := ho
      obtain ⟨rest, hrest, rfl⟩ := hc
      rw [List.cons_append, List.forall_mem_cons, List.forall_mem_append]
      refine ⟨?_, hls, ?_⟩
      · rw [List.mem_append, not_or]
        exact ⟨hhead, by decide⟩
      · intro l hl
        rw [List.mem_singleton.mp hl, List.mem_cons, not_or]
        exact ⟨by decide, hrest⟩

/-- The lines of written text, one by one. -/
theorem getElem?_lines_write {format : Format} (hfill : format.fill ≠ '\n') {ls : List Line}
    (hls : ∀ l ∈ ls, lineEnd ∉ l.body) {i : Nat} {x : Text} :
    (write format ls).lines[i]? = some x ↔
      (∃ l, ls[i]? = some l ∧ x = l.text format) ∨ i = ls.length ∧ x = [] := by
  rw [lines_write format hfill hls, List.getElem?_append, List.length_map]
  split
  · next hi =>
      rw [List.getElem?_map, Option.map_eq_some_iff]
      constructor
      · rintro ⟨l, hl, rfl⟩
        exact .inl ⟨l, hl, rfl⟩
      · rintro (⟨l, hl, rfl⟩ | ⟨rfl, -⟩)
        · exact ⟨l, hl, rfl⟩
        · exact absurd hi (Nat.lt_irrefl _)
  · next hi =>
      have hnone : ls[i]? = none := List.getElem?_eq_none (by omega)
      rw [List.getElem?_singleton, hnone]
      constructor
      · intro h
        split at h
        · next h0 =>
            cases h
            exact .inr ⟨by omega, rfl⟩
        · cases h
      · rintro (⟨l, hl, -⟩ | ⟨rfl, rfl⟩)
        · cases hl
        · simp

/-- A line that is written without indentation is its body. -/
theorem getElem?_lines_bare {format : Format} (hfill : format.fill ≠ '\n') {ls : List Line}
    (hls : ∀ l ∈ ls, lineEnd ∉ l.body) {i : Nat} {l : Line} (hl : ls[i]? = some l) :
    (write { format with width := 0 } ls).lines[i]? = some l.body := by
  apply (@getElem?_lines_write { format with width := 0 } hfill ls hls i l.body).mpr
  exact .inl ⟨l, hl, (text_width_zero format l).symm⟩

/-- Lines with the same levels are written side by side. -/
theorem peers_write {format : Format} (hfill : format.fill ≠ '\n') {ks ls : List Line}
    (hks : ∀ k ∈ ks, lineEnd ∉ k.body) (hls : ∀ l ∈ ls, lineEnd ∉ l.body)
    (h : ks.map level? = ls.map level?) :
    Peers format (write { format with width := 0 } ks) (write { format with width := 0 } ls)
      (write format ks) (write format ls) := by
  have hlength : ks.length = ls.length := by
    simpa using congrArg List.length h
  constructor
  · rw [lines_write format hfill hks, lines_write format hfill hls]
    simp [hlength]
  · intro i x x' hx hx'
    rcases (getElem?_lines_write hfill hks).mp hx with ⟨k, hk, rfl⟩ | ⟨hi, rfl⟩
    · rcases (getElem?_lines_write hfill hls).mp hx' with ⟨l, hl, rfl⟩ | ⟨hi, rfl⟩
      · have hlevel : k.level? = l.level? := by
          have hboth := congrArg (fun levels => levels[i]?) h
          simpa [hk, hl] using hboth
        by_cases hempty : k.body = []
        · left
          have hempty' : l.body = [] := by
            simpa [level?, hempty] using hlevel
          simp [text, hempty, hempty']
        · right
          have hsome : l.body ≠ [] ∧ k.depth = l.depth := by
            rw [level?, if_neg hempty, level?] at hlevel
            split at hlevel
            · cases hlevel
            · next hne => exact ⟨hne, Option.some.inj hlevel⟩
          refine ⟨k.depth, k.body, l.body, ?_, ?_, hempty, hsome.1, ?_, ?_⟩
          · exact getElem?_lines_bare hfill hks hk
          · exact getElem?_lines_bare hfill hls hl
          · rw [text, if_neg hempty]
            rfl
          · rw [text, if_neg hsome.1, hsome.2]
            rfl
      · have hlt := (List.getElem?_eq_some_iff.mp hk).1
        omega
    · rcases (getElem?_lines_write hfill hls).mp hx' with ⟨l, hl, rfl⟩ | ⟨-, rfl⟩
      · have hlt := (List.getElem?_eq_some_iff.mp hl).1
        omega
      · exact .inl ⟨rfl, rfl⟩

end Sides

/-- A forest that one style renders is rendered by every style. -/
theorem exists_render_of_render {style : Style} {f : Forest} {t : Text}
    (h : style.render f = .ok t) (other : Style) : ∃ u, other.render f = .ok u := by
  rw [← Style.fault?_eq_none_iff, fault?_render, ← fault?_render style, h]
  rfl

/-- A forest without line ends in its values, rendered in some language: its lines are the same for
all formats, and they have the levels of the forest. -/
theorem exists_lines_of_render (l : Lang) {format : Format} {s : Substitution} {f : Forest}
    (hs : s.Gives SingleLine f) {t : Text}
    (ht : ({ dialect := l.dialect, format, substitution := s } : Style).render f = .ok t) :
    ∃ ls, (∀ k ∈ ls, lineEnd ∉ k.body) ∧
      ls.map level? = s.levels l.dialect.flagsWrapper.isSome f ∧
      ∀ other, ({ dialect := l.dialect, format := other, substitution := s } : Style).render f =
        .ok (write other ls) := by
  have huniform := @uniform_laid _ wording_singleLine
    { dialect := l.dialect, format, substitution := s } (keeps_dialect wording_singleLine l) f hs
  rcases huniform with ⟨g, ⟨ls, hls, hlevels, hg⟩, hok⟩ | herr
  · refine ⟨ls, hls.single, hlevels, fun other => ?_⟩
    exact (hok other).trans (congrArg Except.ok (hg other))
  · obtain ⟨v, hv⟩ := herr format
    have hrefused := hv.symm.trans ht
    cases hrefused

/-- A forest without flag sets that is rendered in one language is rendered in any other, and the
texts stand side by side: they have the same number of lines, and two lines at the same position are
both empty, or both are indented by the same number of units. -/
theorem render_peers (l m : Lang) (format : Format) (hfill : format.fill ≠ '\n')
    (s : Substitution) (f : Forest) (hf : ¬ f.HasKind .flagSet)
    (hs : ∀ v ∈ s.values f, v.SingleLine) {t : Text}
    (ht : ({ dialect := l.dialect, format, substitution := s } : Style).render f = .ok t) :
    ∃ t' bare bare',
      ({ dialect := m.dialect, format, substitution := s } : Style).render f = .ok t' ∧
      ({ dialect := l.dialect, format := { format with width := 0 }, substitution := s } :
        Style).render f = .ok bare ∧
      ({ dialect := m.dialect, format := { format with width := 0 }, substitution := s } :
        Style).render f = .ok bare' ∧
      Peers format bare bare' t t' := by
  obtain ⟨u, hu⟩ := exists_render_of_render ht { dialect := m.dialect, format, substitution := s }
  obtain ⟨ks, hks, hlevels, hk⟩ := exists_lines_of_render l hs ht
  obtain ⟨ls, hls, hlevels', hl⟩ := exists_lines_of_render m hs hu
  have htext : t = write format ks := by
    have hboth := ht.symm.trans (hk format)
    exact Except.ok.inj hboth
  refine ⟨_, _, _, hl format, hk _, hl _, ?_⟩
  rw [htext]
  apply peers_write hfill hks hls
  calc
    ks.map level? = s.levels l.dialect.flagsWrapper.isSome f := hlevels
    _ = s.levels m.dialect.flagsWrapper.isSome f := s.levels_congr _ _ hf
    _ = ls.map level? := hlevels'.symm

/-- A struct with a decoration, a function pointer without a name or a type, an enumeration inside,
and members of which one has no type. -/
def nestedMembers : Forest :=
  [.node .struct [⟨.name, ofString "S"⟩, ⟨.decoration, ofString "packed"⟩]
    [.node .functionPointer [] [.hole, .node .var [⟨.type, ofString "T \x7b"⟩] []],
      .node .var [⟨.name, ofString "skipped"⟩] [],
      .node .enumeration [] [.node .var [⟨.name, ofString "A"⟩, ⟨.value, ofString "1"⟩,
        ⟨.type, ofString "u8"⟩] []]]]

theorem nestedMembers_peers :
    ∃ t t' bare bare',
      ({ dialect := Lang.rust.dialect, format := { width := 2 } } : Style).render nestedMembers =
        .ok t ∧
      ({ dialect := Lang.cpp.dialect, format := { width := 2 } } : Style).render nestedMembers =
        .ok t' ∧
      t.lines[7]? = some (ofString "    A = 1 as u8,") ∧ t'.lines.length = 14 ∧
      Peers { width := 2 } bare bare' t t' := by
  have hline : (({ dialect := Lang.rust.dialect, format := { width := 2 } } : Style).render
      nestedMembers).toOption.map (fun t => (t.lines[7]?, t.lines.length)) =
        some (some (ofString "    A = 1 as u8,"), 14) := by
    decide +kernel
  cases hr : ({ dialect := Lang.rust.dialect, format := { width := 2 } } : Style).render
      nestedMembers with
  | error v =>
      rw [hr] at hline
      cases hline
  | ok t =>
      rw [hr] at hline
      obtain ⟨h7, hlength⟩ := Prod.mk.inj (Option.some.inj hline)
      obtain ⟨t', bare, bare', hr', -, -, hpeers⟩ := render_peers .rust .cpp { width := 2 }
        (by decide) {} nestedMembers (by decide +kernel) (by decide +kernel) hr
      exact ⟨t, t', bare, bare', rfl, hr', h7, hpeers.length ▸ hlength, hpeers⟩

end DeclGen
