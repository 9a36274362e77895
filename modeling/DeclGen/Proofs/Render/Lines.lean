import DeclGen.Proofs.Text.Encoding
import DeclGen.Render.Layout
import Mathlib.Algebra.Ring.Int.Defs

/-!
# Lines and their depths

Rendered text is a list of lines, each a body at a depth, and the format only decides how much a
depth is worth. Lines are nested when the braces of the lines before give the depth of each line,
one less for a line that begins with a closing brace.

## Implementation notes

`Line.Follows` goes through the lines with the level that the braces have reached. `Line.Nested`
adds that the braces even out, so nested lines can stand one after the other, and that no body holds
a line end.
-/

namespace DeclGen

namespace Text

/-- The byte that ends a line. -/
def lineEnd : UInt8 := 10

/-- The byte of an opening brace. -/
def openBrace : UInt8 := 123

/-- The byte of a closing brace. -/
def closeBrace : UInt8 := 125

/-- The lines of a text; the last one is what stands after the last line end. -/
def lines (t : Text) : List Text := t.splitOn lineEnd

/-- A text without line ends and braces. -/
def Plain (t : Text) : Prop := ∀ b ∈ t, b ≠ lineEnd ∧ b ≠ openBrace ∧ b ≠ closeBrace

instance (t : Text) : Decidable t.Plain := List.decidableBAll _ t

@[simp]
theorem plain_nil : Plain [] := by
  simp [Plain]

/-- Texts without line ends and braces. -/
def AllPlain (ts : List Text) : Prop := ∀ t ∈ ts, t.Plain

instance (ts : List Text) : Decidable (AllPlain ts) := List.decidableBAll _ ts

/-- How many more braces a text opens than it closes. -/
def balance (t : Text) : Int := t.count openBrace - t.count closeBrace

@[simp]
theorem balance_append (s t : Text) : balance (s ++ t) = balance s + balance t := by
  simp only [balance, List.count_append]
  omega

theorem balance_of_plain {t : Text} (h : t.Plain) : t.balance = 0 := by
  have hopen : t.count openBrace = 0 := List.count_eq_zero.mpr fun hb => (h _ hb).2.1 rfl
  have hclose : t.count closeBrace = 0 := List.count_eq_zero.mpr fun hb => (h _ hb).2.2 rfl
  rw [balance, hopen, hclose]
  rfl

/-- Whether a text begins with a closing brace, as a number. -/
def closing (t : Text) : Nat := if t.head? = some closeBrace then 1 else 0

theorem closing_of_plain {t : Text} (h : t.Plain) : t.closing = 0 := by
  rw [closing, if_neg]
  intro hb
  exact (h _ (List.mem_of_head? hb)).2.2 rfl

/-- A text that opens a block: its only brace stands at the end. -/
def Opens (t : Text) : Prop := ∃ head, Plain head ∧ t = head ++ [openBrace]

/-- A text that closes a block: its only brace stands at the start. -/
def Closes (t : Text) : Prop := ∃ rest, Plain rest ∧ t = closeBrace :: rest

theorem Opens.laws {t : Text} (h : t.Opens) :
    t ≠ [] ∧ lineEnd ∉ t ∧ t.balance = 1 ∧ t.closing = 0 := by
  obtain ⟨head, hp, rfl⟩ := h
  refine ⟨by simp, ?_, ?_, ?_⟩
  · rw [List.mem_append]
    rintro (hb | hb)
    · exact (hp _ hb).1 rfl
    · revert hb
      decide
  · rw [balance_append, balance_of_plain hp]
    rfl
  · cases head with
    | nil => rfl
    | cons b rest => exact closing_of_plain (t := b :: rest) hp

theorem Closes.laws {t : Text} (h : t.Closes) :
    t ≠ [] ∧ lineEnd ∉ t ∧ t.balance = -1 ∧ t.closing = 1 := by
  obtain ⟨rest, hp, rfl⟩ := h
  refine ⟨by simp, ?_, ?_, by simp [closing]⟩
  · rw [List.mem_cons]
    rintro (hb | hb)
    · revert hb
      decide
    · exact (hp _ hb).1 rfl
  · have happ : balance ([closeBrace] ++ rest) = -1 := by
      rw [balance_append, balance_of_plain hp]
      rfl
    exact happ

theorem copies_succ (n : Nat) (t : Text) : copies (n + 1) t = t ++ copies n t := rfl

theorem copies_add (m n : Nat) (t : Text) : copies (m + n) t = copies m t ++ copies n t := by
  induction m with
  | zero => simp [copies]
  | succ m ih => rw [Nat.succ_add, copies_succ, copies_succ, ih, List.append_assoc]

end Text

open Text

namespace Format

variable (format : Format)

/-- The indentation counts the fill character, once per unit of the width and level of the depth. -/
theorem indent_eq (depth : Nat) :
    format.indent depth = copies (format.width.toNat * depth) (ofChar format.fill) := by
  rw [Format.indent, Format.unit]
  induction depth with
  | zero => rfl
  | succ depth ih => rw [copies_succ, ih, ← copies_add, Nat.mul_succ, Nat.add_comm]

/-- A byte below 128 in the indentation is the fill character. -/
theorem fill_eq_of_mem_indent {b : UInt8} {depth : Nat} (hb : b ∈ format.indent depth)
    (hlow : b.toNat < 0x80) : format.fill = Char.ofNat b.toNat := by
  rw [indent_eq, copies] at hb
  obtain ⟨t, ht, hmem⟩ := List.mem_flatten.mp hb
  rw [(List.mem_replicate.mp ht).2] at hmem
  rw [toNat_eq_of_mem_ofChar hmem hlow, Char.ofNat_toNat]

theorem lineEnd_not_mem_indent (h : format.fill ≠ '\n') (depth : Nat) :
    lineEnd ∉ format.indent depth := by
  intro hmem
  exact h (format.fill_eq_of_mem_indent hmem (by decide))

end Format

/-- A line of source text: what it says and its depth. A line that says nothing is left empty. -/
structure Line where
  depth : Nat
  body : Text
  deriving DecidableEq, Repr

namespace Line

/-- The text of a line, without its end. -/
def text (format : Format) (l : Line) : Text :=
  if l.body = [] then [] else format.indent l.depth ++ l.body

/-- The text of lines, one after the other. -/
def write (format : Format) (ls : List Line) : Text := ls.flatMap fun l => l.text format ++ newline

section Writing

variable (format : Format)

theorem write_append (ks ls : List Line) :
    write format (ks ++ ls) = write format ks ++ write format ls := List.flatMap_append

theorem write_singleton {t : Text} (h : t ≠ []) (depth : Nat) :
    write format [⟨depth, t⟩] = format.indent depth ++ t ++ newline := by
  simp [write, text, h]

theorem write_blank (depth : Nat) : write format [⟨depth, []⟩] = newline := by
  simp [write, text]

/-- The lines of written text are the texts of the lines, and nothing after the last line end. -/
theorem lines_write (h : format.fill ≠ '\n') {ls : List Line} (hls : ∀ l ∈ ls, lineEnd ∉ l.body) :
    (write format ls).lines = ls.map (·.text format) ++ [[]] := by
  induction ls with
  | nil => rfl
  | cons l rest ih =>
      have hl : lineEnd ∉ l.text format := by
        rw [text]
        split
        · simp
        · rw [List.mem_append]
          rintro (hb | hb)
          · exact format.lineEnd_not_mem_indent h l.depth hb
          · exact hls l (by simp) hb
      have hcons : write format (l :: rest) = l.text format ++ lineEnd :: write format rest := by
        rw [write, List.flatMap_cons, List.append_assoc]
        rfl
      rw [hcons, lines, List.splitOn_append_cons_self_of_not_mem hl]
      have hrest := ih fun k hk => hls k (by simp [hk])
      rw [lines] at hrest
      rw [hrest, List.map_cons, List.cons_append]

end Writing

section Nesting

/-- How many more braces lines open than they close. -/
def balance (ls : List Line) : Int := (ls.map (·.body.balance)).sum

/-- Each line that is not empty stands at the level that is reached before it, or one level above if
it begins with a closing brace. -/
def Follows (level : Int) : List Line → Prop
  | [] => True
  | l :: rest =>
    (l.body ≠ [] → (l.depth : Int) = level - l.body.closing) ∧
      Follows (level + l.body.balance) rest

theorem follows_append {level : Int} {ks ls : List Line} :
    Follows level (ks ++ ls) ↔ Follows level ks ∧ Follows (level + balance ks) ls := by
  induction ks generalizing level with
  | nil => simp [Follows, balance]
  | cons k rest ih =>
      rw [List.cons_append, Follows, Follows, ih, and_assoc]
      simp [balance, Int.add_assoc]

/-- The depth of a line is read off the lines before it. -/
theorem Follows.depth {level : Int} {ls : List Line} (h : Follows level ls) {i : Nat} {l : Line}
    (hl : ls[i]? = some l) (hb : l.body ≠ []) :
    (l.depth : Int) = level + balance (ls.take i) - l.body.closing := by
  induction ls generalizing level i with
  | nil => cases hl
  | cons k rest ih =>
      obtain ⟨hk, hrest⟩ := h
      cases i with
      | zero =>
          cases hl
          simpa [balance] using hk hb
      | succ i =>
          have hdepth := ih hrest hl
          rw [hdepth]
          simp [balance, Int.add_assoc]

/-- Lines that can stand at a depth: they follow their braces, which even out. -/
structure Nested (depth : Nat) (ls : List Line) : Prop where
  follows : Follows depth ls
  even : balance ls = 0
  single : ∀ l ∈ ls, lineEnd ∉ l.body

namespace Nested

variable {depth : Nat}

theorem nil : Nested depth [] := ⟨trivial, rfl, by simp⟩

theorem append {ks ls : List Line} (hk : Nested depth ks) (hl : Nested depth ls) :
    Nested depth (ks ++ ls) where
  follows := by
    rw [follows_append, hk.even, Int.add_zero]
    exact ⟨hk.follows, hl.follows⟩
  even := by
    have hsum : balance (ks ++ ls) = balance ks + balance ls := by simp [balance]
    rw [hsum, hk.even, hl.even]
    rfl
  single l h := by
    rcases List.mem_append.mp h with h | h
    · exact hk.single l h
    · exact hl.single l h

/-- A line without braces. -/
theorem plain {t : Text} (h : t.Plain) : Nested depth [⟨depth, t⟩] where
  follows := by simp [Follows, closing_of_plain h]
  even := by simp [balance, balance_of_plain h]
  single l hl := by
    rw [List.mem_singleton.mp hl]
    exact fun hb => (h _ hb).1 rfl

/-- A block: the lines between an opening and a closing line stand one level deeper. -/
theorem block {header closer : Text} {ls : List Line} (ho : header.Opens) (hc : closer.Closes)
    (h : Nested (depth + 1) ls) :
    Nested depth (⟨depth, header⟩ :: ls ++ [⟨depth, closer⟩]) := by
  obtain ⟨hone, hosingle, hobalance, hoclosing⟩ := ho.laws
  obtain ⟨hcne, hcsingle, hcbalance, hcclosing⟩ := hc.laws
  have hinside : balance (⟨depth, header⟩ :: ls) = 1 := by
    have heven := h.even
    simp only [balance] at heven
    simp [balance, hobalance, heven]
  refine ⟨?_, ?_, ?_⟩
  · rw [follows_append, hinside]
    refine ⟨⟨fun _ => by simp [hoclosing], ?_⟩, ⟨fun _ => ?_, trivial⟩⟩
    · simpa [hobalance] using h.follows
    · simp [hcclosing]
  · have hsum : balance (⟨depth, header⟩ :: ls ++ [⟨depth, closer⟩]) =
        balance (⟨depth, header⟩ :: ls) + closer.balance := by simp [balance, Int.add_assoc]
    rw [hsum, hinside, hcbalance]
    rfl
  · intro l hl
    simp only [List.cons_append, List.mem_cons, List.mem_append, List.not_mem_nil, or_false] at hl
    rcases hl with rfl | hl | rfl
    · exact hosingle
    · exact h.single l hl
    · exact hcsingle

end Nested

end Nesting

section Indentation

/-- A text is another one with its lines indented: each line that is not empty by the braces that
are open before it, less the one that it begins by closing. -/
structure IsIndentation (format : Format) (bare t : Text) : Prop where
  length : t.lines.length = bare.lines.length
  empty : ∀ i : Nat, bare.lines[i]? = some [] → t.lines[i]? = some []
  indented : ∀ (i : Nat) line, bare.lines[i]? = some line → line ≠ [] →
    ∃ d : Nat, (d : Int) = ((bare.lines.take i).map Text.balance).sum - line.closing ∧
      t.lines[i]? = some (copies (format.width.toNat * d) (ofChar format.fill) ++ line)

theorem text_width_zero (format : Format) (l : Line) :
    l.text { format with width := 0 } = l.body := by
  have hnone : Format.indent { format with width := 0 } l.depth = [] := by
    rw [Format.indent_eq]
    simp [copies]
  rw [text, hnone, List.nil_append]
  split
  · next h => exact h.symm
  · rfl

/-- The line at a position of written text, where it is not empty. -/
theorem exists_line_of_getElem? {format : Format} {ls : List Line} {i : Nat} {line : Text}
    (h : (ls.map (·.text format) ++ [[]])[i]? = some line) (hne : line ≠ []) :
    i < ls.length ∧ ∃ l, ls[i]? = some l ∧ l.text format = line := by
  rw [List.getElem?_append] at h
  split at h
  · next hi =>
      rw [List.length_map] at hi
      rw [List.getElem?_map] at h
      exact ⟨hi, Option.map_eq_some_iff.mp h⟩
  · have hnil := List.mem_of_getElem? h
    exact absurd (List.mem_singleton.mp hnil) hne

/-- Nested lines are indented by their braces. -/
theorem Nested.isIndentation {ls : List Line} (h : Nested 0 ls) {format : Format}
    (hfill : format.fill ≠ '\n') :
    IsIndentation format (write { format with width := 0 } ls) (write format ls) := by
  have hbare := lines_write { format with width := 0 } hfill h.single
  have hfull := lines_write format hfill h.single
  have hbody : ls.map (·.text { format with width := 0 }) = ls.map (·.body) := by
    simp only [text_width_zero]
  refine ⟨?_, fun i hi => ?_, fun i line hi hne => ?_⟩
  · rw [hbare, hfull]
    simp
  · rw [hbare, hbody, List.getElem?_append] at hi
    rw [hfull, List.getElem?_append]
    simp only [List.length_map] at hi ⊢
    split
    · next hlt =>
        rw [if_pos hlt, List.getElem?_map] at hi
        obtain ⟨l, hl, hempty⟩ := Option.map_eq_some_iff.mp hi
        rw [List.getElem?_map, hl]
        simp [text, hempty]
    · next hlt =>
        rw [if_neg hlt] at hi
        exact hi
  · rw [hbare] at hi
    obtain ⟨hlt, l, hl, hline⟩ := exists_line_of_getElem? hi hne
    rw [text_width_zero] at hline
    subst hline
    refine ⟨l.depth, ?_, ?_⟩
    · have hdepth := h.follows.depth hl hne
      rw [hdepth, hbare, hbody, List.take_append_of_le_length (by simp; omega), ← List.map_take,
        List.map_map]
      simp [balance, Function.comp_def]
    · rw [hfull, List.getElem?_append_left (by simpa using hlt), List.getElem?_map, hl]
      simp [text, hne, Format.indent_eq]

end Indentation

end Line

end DeclGen
