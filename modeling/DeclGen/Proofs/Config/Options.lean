import DeclGen.Config.Options
import DeclGen.Proofs.Text.Encoding
import Mathlib.Data.Nat.Digits.Defs

/-!
# Which options are accepted

Two options are understood. The width of the indentation has to be a row of digits whose value fits
into a byte, and the character of the indentation is the first one of the value, which has to be
well-formed. The format is then just what the values say; otherwise the option that is refused is
named, the width before the character.

## Implementation notes

What is asked of a value is stated without the readers: a number is read by `Nat.ofDigits`, and a
character is told by its encoding. Overlong and truncated sequences, surrogates and stray bytes are
refused because they are the encoding of no character.
-/

namespace DeclGen

open Text

namespace Format

section Width

/-- An ASCII digit. -/
def IsDigit (b : UInt8) : Prop := 48 ≤ b.toNat ∧ b.toNat ≤ 57

/-- The number that a row of digits spells, the first digit being the highest. -/
def decimalValue (t : Text) : Nat := Nat.ofDigits 10 (t.reverse.map fun b => b.toNat - 48)

/-- What is asked of a width: digits, at least one, whose value fits into a byte. -/
def IsWidth (v : Text) : Prop := v ≠ [] ∧ (∀ b ∈ v, IsDigit b) ∧ decimalValue v ≤ 255

theorem decimalValue_cons (b : UInt8) (t : Text) :
    decimalValue (b :: t) = (b.toNat - 48) * 10 ^ t.length + decimalValue t := by
  simp [decimalValue, Nat.ofDigits_append, Nat.add_comm, Nat.mul_comm]

theorem digit?_eq_some_iff {b : UInt8} {d : Nat} :
    digit? b = some d ↔ IsDigit b ∧ d = b.toNat - 48 := by
  have hrange : (48 ≤ b && b ≤ 57) = true ↔ IsDigit b := by
    simp [IsDigit, UInt8.le_iff_toNat_le]
  rw [digit?]
  split
  · next h => simp [hrange.mp h, eq_comm]
  · next h => simp [mt hrange.mpr h]

theorem decimalFrom?_eq_some_iff {t : Text} {acc n : Nat} :
    decimalFrom? acc t = some n ↔
      (∀ b ∈ t, IsDigit b) ∧ n = acc * 10 ^ t.length + decimalValue t := by
  induction t generalizing acc with
  | nil => simp [decimalFrom?, decimalValue, eq_comm]
  | cons b rest ih =>
      have hvalue : acc * 10 ^ (b :: rest).length + decimalValue (b :: rest) =
          (acc * 10 + (b.toNat - 48)) * 10 ^ rest.length + decimalValue rest := by
        rw [decimalValue_cons, List.length_cons, pow_succ]
        ring
      rw [hvalue, List.forall_mem_cons, decimalFrom?]
      constructor
      · intro h
        obtain ⟨d, hd, h⟩ := Option.bind_eq_some_iff.mp h
        obtain ⟨hb, rfl⟩ := digit?_eq_some_iff.mp hd
        obtain ⟨hrest, hn⟩ := ih.mp h
        exact ⟨⟨hb, hrest⟩, hn⟩
      · rintro ⟨⟨hb, hrest⟩, hn⟩
        exact Option.bind_eq_some_iff.mpr
          ⟨_, digit?_eq_some_iff.mpr ⟨hb, rfl⟩, ih.mpr ⟨hrest, hn⟩⟩

/-- The value of a width is taken as it is, and never reduced. -/
theorem byte?_eq_some_iff {v : Text} {n : UInt8} :
    byte? v = some n ↔ IsWidth v ∧ n.toNat = decimalValue v := by
  by_cases hnil : v = []
  · simp [hnil, byte?, IsWidth]
  · have hbyte : byte? v =
        (decimalFrom? 0 v).bind fun m => if m < 256 then some (UInt8.ofNat m) else none := by
      simp [byte?, hnil]
    rw [hbyte]
    constructor
    · intro h
      obtain ⟨m, hm, h⟩ := Option.bind_eq_some_iff.mp h
      obtain ⟨hdigits, hvalue⟩ := decimalFrom?_eq_some_iff.mp hm
      rw [Nat.zero_mul, Nat.zero_add] at hvalue
      split at h
      · next hlt =>
          cases h
          rw [toNat_ofNat_of_lt hlt]
          exact ⟨⟨hnil, hdigits, by omega⟩, hvalue⟩
      · cases h
    · rintro ⟨⟨-, hdigits, hle⟩, hn⟩
      refine Option.bind_eq_some_iff.mpr ⟨decimalValue v, ?_, ?_⟩
      · exact decimalFrom?_eq_some_iff.mpr ⟨hdigits, by rw [Nat.zero_mul, Nat.zero_add]⟩
      · rw [if_pos (by omega), ← hn, UInt8.ofNat_toNat]

/-- A width is read as its value, or refused. -/
theorem parseWidth_cases (v : Text) :
    (IsWidth v ∧ ∃ n, parseWidth v = .ok n ∧ n.toNat = decimalValue v) ∨
      ¬ IsWidth v ∧ parseWidth v = .error ⟨.indentWidth, v, .notByte⟩ := by
  rw [parseWidth]
  cases hv : byte? v with
  | some n =>
      obtain ⟨hw, hn⟩ := byte?_eq_some_iff.mp hv
      exact .inl ⟨hw, n, rfl, hn⟩
  | none =>
      refine .inr ⟨fun hw => ?_, rfl⟩
      have hlt : decimalValue v < 256 := Nat.lt_succ_of_le hw.2.2
      have hsome := byte?_eq_some_iff.mpr ⟨hw, toNat_ofNat_of_lt hlt⟩
      rw [hv] at hsome
      cases hsome

end Width

section Fill

/-- What is asked of an indentation character: the value begins with a character other than the
replacement character. -/
def IsFill (v : Text) : Prop := ∃ c, c ≠ '\uFFFD' ∧ ofChar c <+: v

theorem isFill_iff {v : Text} : IsFill v ↔ ∃ c n, c ≠ '\uFFFD' ∧ v.lead? = some (c, n) := by
  simp only [IsFill, ← exists_lead?_iff, exists_and_left]

/-- A value that is empty or begins with no character is no indentation character. -/
theorem not_isFill_of_lead? {v : Text} (hlead : v.lead? = none) : ¬ IsFill v := by
  rw [isFill_iff]
  rintro ⟨c, n, -, h⟩
  rw [hlead] at h
  cases h

/-- An indentation character is the first one of its value, or it is refused. -/
theorem parseFill_cases (v : Text) :
    (∃ c, c ≠ '\uFFFD' ∧ ofChar c <+: v ∧ parseFill v = .ok c) ∨
      ¬ IsFill v ∧
        parseFill v = .error ⟨.indentChar, v, if v = [] then .empty else .malformed⟩ := by
  by_cases hnil : v = []
  · subst hnil
    exact .inr ⟨not_isFill_of_lead? rfl, rfl⟩
  · rw [parseFill, if_neg (by simpa using hnil), if_neg hnil]
    cases hlead : v.lead? with
    | none => exact .inr ⟨not_isFill_of_lead? hlead, rfl⟩
    | some found =>
        obtain ⟨c, n⟩ := found
        by_cases hc : c = '\uFFFD'
        · refine .inr ⟨?_, if_pos (by simp [hc])⟩
          rw [isFill_iff]
          rintro ⟨d, m, hd, h⟩
          rw [hlead] at h
          cases h
          exact hd hc
        · exact .inl ⟨c, hc, exists_lead?_iff.mp ⟨n, hlead⟩, if_neg (by simpa using hc)⟩

end Fill

end Format

namespace Config

/-- The value that a configuration gives an option. -/
def option? (config : Option Config) (key : OptionKey) : Option Text :=
  config.bind fun c => c.options.get? (ofString key.spelling)

/-- A format is made of the values of the two options. -/
theorem format_eq (config : Option Config) :
    Config.format config =
      ((option? config .indentWidth).elim (.ok 4) Format.parseWidth).bind fun width =>
        ((option? config .indentChar).elim (.ok ' ') Format.parseFill).map fun fill =>
          { width, fill } := by
  cases config with
  | none => rfl
  | some c =>
      rw [Config.format, Format.ofOptions, option?, option?, Option.bind_some, Option.bind_some]
      cases c.options.get? (ofString OptionKey.indentWidth.spelling) <;>
        cases c.options.get? (ofString OptionKey.indentChar.spelling) <;> rfl

/-- The width that is asked for, if the option is well formed. -/
theorem width_cases (config : Option Config) :
    ((∀ v ∈ option? config .indentWidth, Format.IsWidth v) ∧
        ∃ n, (option? config .indentWidth).elim (.ok 4) Format.parseWidth = .ok n ∧
          n.toNat = (option? config .indentWidth).elim 4 Format.decimalValue) ∨
      ∃ v, option? config .indentWidth = some v ∧ ¬ Format.IsWidth v ∧
        Format.parseWidth v = .error ⟨.indentWidth, v, .notByte⟩ := by
  cases option? config .indentWidth with
  | none => exact .inl ⟨nofun, 4, rfl, rfl⟩
  | some v =>
      rcases Format.parseWidth_cases v with ⟨hv, n, hn, hvalue⟩ | ⟨hv, herror⟩
      · exact .inl ⟨by simpa using hv, n, hn, hvalue⟩
      · exact .inr ⟨v, rfl, hv, herror⟩

/-- The character that is asked for, if the option is well formed. -/
theorem fill_cases (config : Option Config) :
    ((∀ v ∈ option? config .indentChar, Format.IsFill v) ∧
        ∃ c, (option? config .indentChar).elim (.ok ' ') Format.parseFill = .ok c ∧
          (option? config .indentChar).elim (c = ' ') fun v => c ≠ '\uFFFD' ∧ ofChar c <+: v) ∨
      ∃ v, option? config .indentChar = some v ∧ ¬ Format.IsFill v ∧
        Format.parseFill v =
          .error ⟨.indentChar, v, if v = [] then .empty else .malformed⟩ := by
  cases option? config .indentChar with
  | none => exact .inl ⟨nofun, ' ', rfl, rfl⟩
  | some v =>
      rcases Format.parseFill_cases v with ⟨c, hc, hprefix, hok⟩ | ⟨hv, herror⟩
      · exact .inl ⟨by simpa using ⟨c, hc, hprefix⟩, c, hok, hc, hprefix⟩
      · exact .inr ⟨v, rfl, hv, herror⟩

/-- Options are accepted exactly when they are well formed. The width is then the value of its
digits, or four; the character is the first one of its value, or a space. Otherwise the width is
refused, if it is not well formed, or else the character, with the value as it stands. No other
option has an effect. -/
theorem options_accepted_iff_well_formed (config : Option Config) :
    ((∃ f, Config.format config = .ok f) ↔
      (∀ v ∈ option? config .indentWidth, Format.IsWidth v) ∧
        ∀ v ∈ option? config .indentChar, Format.IsFill v) ∧
    (∀ f, Config.format config = .ok f →
      f.width.toNat = (option? config .indentWidth).elim 4 Format.decimalValue ∧
        (option? config .indentChar).elim (f.fill = ' ')
          fun v => f.fill ≠ '\uFFFD' ∧ ofChar f.fill <+: v) ∧
    (∀ e, Config.format config = .error e →
      (∃ v, option? config .indentWidth = some v ∧ ¬ Format.IsWidth v ∧
          e = ⟨.indentWidth, v, .notByte⟩) ∨
        (∀ v ∈ option? config .indentWidth, Format.IsWidth v) ∧
          ∃ v, option? config .indentChar = some v ∧ ¬ Format.IsFill v ∧
            e = ⟨.indentChar, v, if v = [] then .empty else .malformed⟩) ∧
    ∀ other, (∀ key, option? other key = option? config key) →
      Config.format other = Config.format config := by
  have hother (other : Option Config) (h : ∀ key, option? other key = option? config key) :
      Config.format other = Config.format config := by
    rw [format_eq, format_eq, h, h]
  rcases width_cases config with ⟨hwidth, n, hn, hvalue⟩ | ⟨v, hv, hbad, herror⟩
  · rcases fill_cases config with ⟨hfill, c, hc, hfirst⟩ | ⟨v, hv, hbad, herror⟩
    · have hok : Config.format config = .ok { width := n, fill := c } := by
        rw [format_eq, hn, hc]
        rfl
      rw [hok]
      refine ⟨⟨fun _ => ⟨hwidth, hfill⟩, fun _ => ⟨_, rfl⟩⟩, ?_, nofun, hok ▸ hother⟩
      intro f hf
      cases hf
      exact ⟨hvalue, hfirst⟩
    · have hrefused : Config.format config =
          .error ⟨.indentChar, v, if v = [] then .empty else .malformed⟩ := by
        rw [format_eq, hn, hv, Option.elim_some, herror]
        rfl
      rw [hrefused]
      refine ⟨⟨nofun, fun h => absurd (h.2 v hv) hbad⟩, nofun, ?_, hrefused ▸ hother⟩
      intro e he
      cases he
      exact .inr ⟨hwidth, v, hv, hbad, rfl⟩
  · have hrefused : Config.format config = .error ⟨.indentWidth, v, .notByte⟩ := by
      rw [format_eq, hv, Option.elim_some, herror]
      rfl
    rw [hrefused]
    refine ⟨⟨nofun, fun h => absurd (h.1 v hv) hbad⟩, nofun, ?_, hrefused ▸ hother⟩
    intro e he
    cases he
    exact .inl ⟨v, hv, hbad, rfl⟩

/-- A width with zeros in front, a character with a stray byte behind it, and an option that is not
understood. -/
def paddedOptions : Config where
  options := .ofList [(ofString "num_tabs", ofString "000255"),
    (ofString "tab_char", ofString "é" ++ [0xFF]), (ofString "tabs", ofString "x")]

/-- A width that fits into a byte, and a surrogate as the character. -/
def surrogateOptions : Config where
  options := .ofList [(ofString "num_tabs", ofString "7"),
    (ofString "tab_char", [0xED, 0xA0, 0x80])]

/-- The first options once more, with another value of the option that is not understood. -/
def changedOptions : Config where
  options := paddedOptions.options.insert (ofString "tabs") []

theorem paddedOptions_accepted :
    (∃ f, Config.format (some paddedOptions) = .ok f ∧
      f.width.toNat = Format.decimalValue (ofString "000255") ∧
      ofChar f.fill <+: ofString "é" ++ [0xFF]) ∧
    (∃ e, Config.format (some surrogateOptions) = .error e ∧ e.key = .indentChar ∧
      ¬ Format.IsFill e.value) ∧
    (∀ key, option? (some changedOptions) key = option? (some paddedOptions) key) ∧
    Config.format (some changedOptions) = Config.format (some paddedOptions) := by
  have hpadded : Config.format (some paddedOptions) = .ok { width := 255, fill := 'é' } := rfl
  have hsurrogate : Config.format (some surrogateOptions) =
      .error ⟨.indentChar, [0xED, 0xA0, 0x80], .malformed⟩ := rfl
  have hsame (key : OptionKey) :
      option? (some changedOptions) key = option? (some paddedOptions) key := by
    cases key <;> rfl
  obtain ⟨-, hok, -, hother⟩ := options_accepted_iff_well_formed (some paddedOptions)
  obtain ⟨-, -, herror, -⟩ := options_accepted_iff_well_formed (some surrogateOptions)
  refine ⟨⟨_, hpadded, ?_⟩, ⟨_, hsurrogate, rfl, ?_⟩, hsame, hother _ hsame⟩
  · obtain ⟨hwidth, hfill⟩ := hok _ hpadded
    exact ⟨hwidth, hfill.2⟩
  · rcases herror _ hsurrogate with ⟨_, -, -, he⟩ | ⟨-, v, -, hbad, he⟩
    · cases he
    · rw [he]
      exact hbad

end Config

end DeclGen
