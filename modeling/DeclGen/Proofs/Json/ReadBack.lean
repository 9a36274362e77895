import DeclGen.Json.Reader
import DeclGen.Proofs.Json.Levels
import DeclGen.Proofs.Text.Encoding

/-!
# Reading a written JSON value

The text of a JSON value, which it has if it does not have too many levels, is read back as that
value. Strings come back as their characters, with the replacement character for each stray byte, so
a string of well-formed UTF-8 comes back unchanged. Numbers are written as they are spelled, and
whole numbers come back.

## Implementation notes

The readers are bounded by fuel, and the length of what was written is always enough. Each lemma
leaves the characters after the value open; that they begin with a comma or a line end is all that a
number needs to come to its end.
-/

namespace DeclGen

/-- The character that a glyph is shown as. -/
def Text.Glyph.shown : Text.Glyph → Char
  | .char c => c
  | .stray _ => '\uFFFD'

namespace Json

section Strings

theorem hexValue?_hexDigit (n : Nat) : hexValue? (Text.hexDigit n) = some (n % 16) := by
  have h (m : Fin 16) : hexValue? (Nat.digitChar m) = some m.val := by
    revert m
    decide
  exact h ⟨n % 16, Nat.mod_lt _ (by decide)⟩

/-- A code written with four digits is read as the code. -/
theorem stringUnits_unicodeEscape {c : Char} (h : c.toNat < 0x10000) (more : List Char) :
    stringUnits (unicodeEscape c ++ more) =
      (stringUnits more).map fun (us, r) => (.code c.toNat :: us, r) := by
  have hhex : hex4? (Text.hexDigit (c.toNat / 16 / 16 / 16)) (Text.hexDigit (c.toNat / 16 / 16))
      (Text.hexDigit (c.toNat / 16)) (Text.hexDigit c.toNat) = some c.toNat := by
    simp only [hex4?, hexValue?_hexDigit, Option.bind_eq_bind, Option.bind_some, Option.pure_def,
      Option.some.injEq]
    omega
  have hchars : unicodeEscape c ++ more = '\\' :: 'u' :: Text.hexDigit (c.toNat / 16 / 16 / 16)
      :: Text.hexDigit (c.toNat / 16 / 16) :: Text.hexDigit (c.toNat / 16)
      :: Text.hexDigit c.toNat :: more := rfl
  rw [hchars, stringUnits, hhex]
  cases stringUnits more <;> rfl

theorem stringUnits_letter {e c : Char} (hu : e ≠ 'u') (he : escape? e = some c)
    (more : List Char) :
    stringUnits ('\\' :: e :: more) =
      (stringUnits more).map fun (us, r) => (.char c :: us, r) := by
  rw [stringUnits, he]
  · cases stringUnits more <;> rfl
  · simp [hu]

theorem stringUnits_char {c : Char} (hq : c ≠ '"') (hb : c ≠ '\\') (hc : ¬ c.toNat < 0x20)
    (more : List Char) :
    stringUnits (c :: more) = (stringUnits more).map fun (us, r) => (.char c :: us, r) := by
  rw [stringUnits, if_neg (by simp [hb]; omega)]
  · cases stringUnits more <;> rfl
  · exact hq
  · simp [hb]
  · simp [hb]

theorem unitChar_toNat (c : Char) : unitChar c.toNat = c := by
  have hv : c.toNat < 0xD800 ∨ 0xDFFF < c.toNat := by
    rcases c.valid with h | h
    · exact .inl h
    · exact .inr h.1
  rw [unitChar, if_neg (by simp; omega), Char.ofNat_toNat]

/-- The code of a character is no half of a pair, so it stands for the character alone. -/
theorem joinUnits_code (c : Char) (us : List StringUnit) :
    joinUnits none (.code c.toNat :: us) = c :: joinUnits none us := by
  have hv : c.toNat < 0xD800 ∨ 0xDFFF < c.toNat := by
    rcases c.valid with h | h
    · exact .inl h
    · exact .inr h.1
  rw [joinUnits]
  cases us with
  | nil => rw [joinUnits, joinUnits, unitChar_toNat]
  | cons u rest =>
      cases u with
      | char d => rw [joinUnits, joinUnits, unitChar_toNat]
      | code v =>
          have hp : pair? c.toNat v = none := by
            rw [pair?, if_neg]
            simp
            omega
          simp only [joinUnits, hp, unitChar_toNat]

/-- One more unit in front of what was read. -/
theorem stringRest_of_stringUnits {start more : List Char} {u : StringUnit} {c : Char}
    (hu : stringUnits (start ++ more) = (stringUnits more).map fun (us, r) => (u :: us, r))
    (hc : ∀ us, joinUnits none (u :: us) = c :: joinUnits none us) :
    stringRest (start ++ more) = (stringRest more).map fun (cs, r) => (c :: cs, r) := by
  rw [stringRest, stringRest, hu]
  cases stringUnits more with
  | none => rfl
  | some read =>
      obtain ⟨us, r⟩ := read
      exact congrArg (fun cs => some (cs, r)) (hc us)

theorem stringRest_escapedChar (c : Char) (more : List Char) :
    stringRest (escapedChar c ++ more) = (stringRest more).map fun (cs, r) => (c :: cs, r) := by
  have hchar (d : Char) (us : List StringUnit) :
      joinUnits none (.char d :: us) = d :: joinUnits none us := by
    rw [joinUnits]
  have hcode {d : Char} (hd : d.toNat < 0x10000) :
      stringRest (unicodeEscape d ++ more) =
        (stringRest more).map fun (cs, r) => (d :: cs, r) :=
    stringRest_of_stringUnits (stringUnits_unicodeEscape hd more) (joinUnits_code d)
  have hletter {e d : Char} (hu : e ≠ 'u') (he : escape? e = some d) :
      stringRest (['\\', e] ++ more) = (stringRest more).map fun (cs, r) => (d :: cs, r) :=
    stringRest_of_stringUnits (stringUnits_letter hu he more) (hchar d)
  unfold escapedChar
  split
  · exact hletter (by decide) rfl
  · exact hletter (by decide) rfl
  · exact hletter (by decide) rfl
  · exact hletter (by decide) rfl
  · exact hletter (by decide) rfl
  · exact hletter (by decide) rfl
  · exact hletter (by decide) rfl
  · exact hcode (by decide)
  · exact hcode (by decide)
  · exact hcode (by decide)
  · exact hcode (by decide)
  · exact hcode (by decide)
  · next hq hb _ _ _ _ _ _ _ _ _ _ =>
      split
      · exact hcode (by omega)
      · next hc => exact stringRest_of_stringUnits (stringUnits_char hq hb hc more) (hchar c)

theorem stringRest_escapedGlyph (g : Text.Glyph) (more : List Char) :
    stringRest (escapedGlyph g ++ more) =
      (stringRest more).map fun (cs, r) => (g.shown :: cs, r) := by
  cases g with
  | char c => exact stringRest_escapedChar c more
  | stray b =>
      exact stringRest_of_stringUnits (stringUnits_unicodeEscape (by decide) more)
        (joinUnits_code '\uFFFD')

/-- The inside of a string is read up to its closing mark, as the characters of the text. -/
theorem stringRest_glyphs (t : Text) (rest : List Char) :
    stringRest (t.glyphs.flatMap escapedGlyph ++ '"' :: rest) = some (t.chars, rest) := by
  have hchars : t.chars = t.glyphs.map Text.Glyph.shown := rfl
  rw [hchars]
  induction t.glyphs with
  | nil => rfl
  | cons g gs ih =>
      rw [List.flatMap_cons, List.append_assoc, stringRest_escapedGlyph, ih]
      rfl

theorem stringChars_append (t : Text) (rest : List Char) :
    stringChars t ++ rest = '"' :: (t.glyphs.flatMap escapedGlyph ++ '"' :: rest) := by
  simp [stringChars]

end Strings

section Values

mutual

/-- The value as it is read back: each stray byte of its strings is replaced. -/
def repaired : Json → Json
  | .string t => .ofString t.toString
  | .array es => .array (repairedList es)
  | .object fs => .object (repairedFields fs)
  | j => j

/-- The elements of a list as they are read back. -/
def repairedList : List Json → List Json
  | [] => []
  | e :: es => e.repaired :: repairedList es

/-- The fields of an object as they are read back. -/
def repairedFields : List (String × Json) → List (String × Json)
  | [] => []
  | (k, v) :: fs => (k, v.repaired) :: repairedFields fs

end

theorem repairedList_eq_map (es : List Json) : repairedList es = es.map repaired := by
  induction es with
  | nil => rfl
  | cons e rest ih => rw [repairedList, ih, List.map_cons]

theorem repairedFields_eq_map (fs : List (String × Json)) :
    repairedFields fs = fs.map fun f => (f.1, f.2.repaired) := by
  induction fs with
  | nil => rfl
  | cons f rest ih => rw [repairedFields, ih, List.map_cons]

/-- A value as it is read back has as many levels. -/
theorem depth_repaired (j : Json) : j.repaired.depth = j.depth := by
  induction j using Json.induction with
  | null => rfl
  | bool b => rfl
  | number l => rfl
  | string t => rfl
  | array es ih =>
      rw [repaired, repairedList_eq_map, depth, depth, depthOfElems_eq_foldr,
        depthOfElems_eq_foldr, List.map_map]
      exact congrArg (·.foldr max 0 + 1) (List.map_congr_left ih)
  | object fs ih =>
      rw [repaired, repairedFields_eq_map, depth, depth, depthOfFields_eq_foldr,
        depthOfFields_eq_foldr, List.map_map]
      exact congrArg (·.foldr max 0 + 1) (List.map_congr_left ih)

/-- What may stand after a value: a comma or a line end. -/
def Ends (rest : List Char) : Prop := ∃ more, rest = ',' :: more ∨ rest = '\n' :: more

/-- A character that a value may begin with, inside a list too. -/
def Begins (c : Char) : Prop := isSpace c = false ∧ c ≠ ']'

/-- The spelling of a whole number: digits, with no zero in front of others. -/
structure IsWhole (ds : List Char) : Prop where
  digits : ∀ d ∈ ds, d.isDigit = true
  nonempty : ds ≠ []
  noZero : ∀ more, ds = '0' :: more → more = []

/-- The numbers of a value are whole numbers. -/
inductive Readable : Json → Prop
  | null : Readable .null
  | bool (b : Bool) : Readable (.bool b)
  | number {l : String} (h : IsWhole l.toList) : Readable (.number l)
  | string (t : Text) : Readable (.string t)
  | array {es : List Json} (h : ∀ e ∈ es, Readable e) : Readable (.array es)
  | object {fs : List (String × Json)} (h : ∀ f ∈ fs, Readable f.2) : Readable (.object fs)

/-- A value is read back wherever it is written, with enough fuel. -/
def ReadsBack (j : Json) : Prop :=
  ∀ depth fuel rest, Ends rest → (chars depth j).length < fuel →
    ∃ s, value? fuel (chars depth j ++ rest) = some (s, rest) ∧ s.value = j.repaired

theorem skipSpace_cons {c : Char} (h : isSpace c = false) (cs : List Char) :
    skipSpace (c :: cs) = c :: cs := by
  simp [skipSpace, h]

theorem skipSpace_lineStart {c : Char} (h : isSpace c = false) (depth : Nat) (cs : List Char) :
    skipSpace (lineStart depth ++ c :: cs) = c :: cs := by
  have hall : ∀ d ∈ lineStart depth, isSpace d = true := by
    intro d hd
    rcases List.mem_cons.mp hd with rfl | hd
    · rfl
    · rw [(List.mem_replicate.mp hd).2]
      rfl
  rw [skipSpace, List.dropWhile_append_of_pos hall]
  exact skipSpace_cons h cs

theorem chars_begins {j : Json} (h : Readable j) (depth : Nat) :
    ∃ c cs, chars depth j = c :: cs ∧ Begins c := by
  cases h with
  | null => exact ⟨_, _, rfl, by decide, by decide⟩
  | bool b => cases b <;> exact ⟨_, _, rfl, by decide, by decide⟩
  | @number l h =>
      obtain ⟨c, cs, hc⟩ := List.exists_cons_of_ne_nil h.nonempty
      have hdigit : c.isDigit = true := h.digits c (by simp [hc])
      refine ⟨c, cs, hc, ?_, ?_⟩
      · rw [Bool.eq_false_iff]
        intro hspace
        simp only [isSpace, Bool.or_eq_true, beq_iff_eq] at hspace
        rcases hspace with ((rfl | rfl) | rfl) | rfl <;> cases hdigit
      · rintro rfl
        cases hdigit
  | string t => exact ⟨_, _, rfl, by decide, by decide⟩
  | @array es _ => cases es <;> exact ⟨_, _, rfl, by decide, by decide⟩
  | @object fs _ => rcases fs with _ | ⟨⟨k, v⟩, fs⟩ <;> exact ⟨_, _, rfl, by decide, by decide⟩

theorem skipSpace_lineStart_chars {j : Json} (h : Readable j) (indent depth : Nat)
    (rest : List Char) :
    skipSpace (lineStart indent ++ (chars depth j ++ rest)) = chars depth j ++ rest := by
  obtain ⟨c, cs, hc, hb⟩ := chars_begins h depth
  rw [hc, List.cons_append]
  exact skipSpace_lineStart hb.1 indent _

theorem skipSpace_lineStart_string (indent : Nat) (t : Text) (rest : List Char) :
    skipSpace (lineStart indent ++ (stringChars t ++ rest)) = stringChars t ++ rest :=
  skipSpace_lineStart (c := '"') rfl indent _

/-- The elements of a list are read up to its closing bracket. -/
theorem elems?_chars {es : List Json} :
    ∀ {e : Json}, (∀ x ∈ e :: es, Readable x) → (∀ x ∈ e :: es, ReadsBack x) →
      ∀ depth outer fuel rest,
        (chars depth e).length + (moreElems depth es).length + 1 < fuel →
        ∃ ss, elems? fuel (chars depth e ++ (moreElems depth es ++
            (lineStart outer ++ ']' :: rest))) = some (ss, rest) ∧
          valueList ss = repairedList (e :: es) := by
  induction es with
  | nil =>
      intro e _ hback depth outer fuel rest hfuel
      obtain ⟨fuel, rfl⟩ : ∃ n, fuel = n + 1 := ⟨fuel - 1, by omega⟩
      have hends : Ends (lineStart outer ++ ']' :: rest) := ⟨_, .inr rfl⟩
      have hlen : (chars depth e).length < fuel := by
        rw [moreElems, List.length_nil] at hfuel
        omega
      obtain ⟨s, hs, hv⟩ := hback e (by simp) depth fuel _ hends hlen
      refine ⟨[s], ?_, ?_⟩
      · rw [moreElems, List.nil_append, elems?, hs]
        simp only [Option.bind_eq_bind, Option.bind_some, skipSpace_lineStart (c := ']') rfl]
        rfl
      · simp [valueList, repairedList, hv]
  | cons e' es ih =>
      intro e hread hback depth outer fuel rest hfuel
      obtain ⟨fuel, rfl⟩ : ∃ n, fuel = n + 1 := ⟨fuel - 1, by omega⟩
      have hmore : moreElems depth (e' :: es) ++ (lineStart outer ++ ']' :: rest) =
          ',' :: (lineStart depth ++ (chars depth e' ++ (moreElems depth es ++
            (lineStart outer ++ ']' :: rest)))) := by
        simp [moreElems]
      have hlen : (moreElems depth (e' :: es)).length =
          1 + (lineStart depth).length + (chars depth e').length + (moreElems depth es).length := by
        simp [moreElems]
        omega
      obtain ⟨s, hs, hv⟩ := hback e (by simp) depth fuel _ ⟨_, .inl hmore⟩ (by omega)
      obtain ⟨ss, hss, hvs⟩ := ih (e := e') (fun x hx => hread x (by simp [hx]))
        (fun x hx => hback x (by simp [hx])) depth outer fuel rest (by omega)
      refine ⟨s :: ss, ?_, ?_⟩
      · rw [elems?, hs, hmore]
        simp only [Option.bind_eq_bind, Option.bind_some, skipSpace_cons (c := ',') rfl,
          skipSpace_lineStart_chars (hread e' (by simp)), hss]
        rfl
      · simp [valueList, repairedList, hv, hvs]

/-- A key with its colon and its value are read, and what follows says whether more fields do. -/
theorem fields?_field {fuel depth : Nat} {k : String} {v : Json} (h : Readable v) {s : Sourced}
    {rest r : List Char} (hs : value? fuel (chars depth v ++ rest) = some (s, r)) :
    (∀ after, skipSpace r = '\x7d' :: after →
      fields? (fuel + 1) (stringChars (.ofString k) ++ ':' :: ' ' :: (chars depth v ++ rest)) =
        some ([(k, s)], after)) ∧
    (∀ next fs after, skipSpace r = ',' :: next → fields? fuel (skipSpace next) = some (fs, after) →
      fields? (fuel + 1) (stringChars (.ofString k) ++ ':' :: ' ' :: (chars depth v ++ rest)) =
        some ((k, s) :: fs, after)) := by
  obtain ⟨c, cs, hc, hb⟩ := chars_begins h depth
  have hkey : String.ofList (Text.ofString k).chars = k := Text.toString_ofString k
  have hskip : skipSpace (' ' :: (chars depth v ++ rest)) = chars depth v ++ rest := by
    have h := skipSpace_cons hb.1 (cs ++ rest)
    rwa [← List.cons_append, ← hc] at h
  rw [stringChars_append, fields?, stringRest_glyphs]
  simp only [Option.bind_eq_bind, Option.bind_some, skipSpace_cons (c := ':') rfl, hskip, hkey, hs]
  constructor
  · intro after hr
    rw [hr]
    rfl
  · intro next fs after hr hfs
    simp only [hr, hfs]
    rfl

/-- The fields of an object are read up to its closing brace. -/
theorem fields?_chars {fs : List (String × Json)} :
    ∀ {k : String} {v : Json}, (∀ x ∈ (k, v) :: fs, Readable x.2) →
      (∀ x ∈ (k, v) :: fs, ReadsBack x.2) →
      ∀ depth outer fuel rest,
        (chars depth v).length + (moreFields depth fs).length + 1 < fuel →
        ∃ ss, fields? fuel (stringChars (.ofString k) ++ ':' :: ' ' :: (chars depth v ++
            (moreFields depth fs ++ (lineStart outer ++ '\x7d' :: rest)))) = some (ss, rest) ∧
          valueFields ss = repairedFields ((k, v) :: fs) := by
  induction fs with
  | nil =>
      intro k v hread hback depth outer fuel rest hfuel
      obtain ⟨fuel, rfl⟩ : ∃ n, fuel = n + 1 := ⟨fuel - 1, by omega⟩
      have hends : Ends (lineStart outer ++ '\x7d' :: rest) := ⟨_, .inr rfl⟩
      have hv : ReadsBack v := hback (k, v) (by simp)
      have hlen : (chars depth v).length < fuel := by
        rw [moreFields, List.length_nil] at hfuel
        omega
      obtain ⟨s, hs, hv⟩ := hv depth fuel _ hends hlen
      refine ⟨[(k, s)], ?_, ?_⟩
      · rw [moreFields, List.nil_append]
        exact (fields?_field (hread (k, v) (by simp)) hs).1 rest
          (skipSpace_lineStart rfl outer rest)
      · simp [valueFields, repairedFields, hv]
  | cons f fs ih =>
      obtain ⟨k', v'⟩ := f
      intro k v hread hback depth outer fuel rest hfuel
      obtain ⟨fuel, rfl⟩ : ∃ n, fuel = n + 1 := ⟨fuel - 1, by omega⟩
      have hmore : moreFields depth ((k', v') :: fs) ++ (lineStart outer ++ '\x7d' :: rest) =
          ',' :: (lineStart depth ++ (stringChars (.ofString k') ++ ':' :: ' ' ::
            (chars depth v' ++ (moreFields depth fs ++ (lineStart outer ++ '\x7d' :: rest))))) := by
        simp [moreFields]
      have hlen : (chars depth v').length + (moreFields depth fs).length + 1 <
          (moreFields depth ((k', v') :: fs)).length := by
        simp [moreFields]
        omega
      have hv : ReadsBack v := hback (k, v) (by simp)
      obtain ⟨s, hs, hv⟩ := hv depth fuel _ ⟨_, .inl hmore⟩ (by omega)
      obtain ⟨ss, hss, hvs⟩ := ih (k := k') (v := v') (fun x hx => hread x (by simp [hx]))
        (fun x hx => hback x (by simp [hx])) depth outer fuel rest (by omega)
      refine ⟨(k, s) :: ss, ?_, ?_⟩
      · have hcomma := (congrArg skipSpace hmore).trans (skipSpace_cons rfl _)
        refine (fields?_field (hread (k, v) (by simp)) hs).2 _ ss rest hcomma ?_
        rw [skipSpace_lineStart_string, hss]
      · simp [valueFields, repairedFields, hv, hvs]

theorem value?_array {fuel : Nat} {inside cs : List Char} {c : Char} (hc : c ≠ ']')
    (hs : skipSpace inside = c :: cs) :
    value? (fuel + 1) ('[' :: inside) =
      (elems? fuel (c :: cs)).map fun (es, r) =>
        (.array ⟨'[' :: inside, r⟩ es, r) := by
  rw [value?, hs]
  split
  · next heq =>
      cases heq
      exact absurd rfl hc
  · cases elems? fuel (c :: cs) <;> rfl

theorem value?_object {fuel : Nat} {inside rest : List Char} {t : Text}
    (hs : skipSpace inside = stringChars t ++ rest) :
    value? (fuel + 1) ('\x7b' :: inside) =
      (fields? fuel (stringChars t ++ rest)).map fun (fs, r) =>
        (.object ⟨'\x7b' :: inside, r⟩ fs, r) := by
  rw [value?, hs]
  split
  · next heq => cases heq
  · cases fields? fuel (stringChars t ++ rest) <;> rfl

section Numbers

variable {ds rest : List Char}

theorem digits1_append (hd : ∀ d ∈ ds, d.isDigit = true) (hne : ds ≠ []) (hr : Ends rest) :
    digits1 (ds ++ rest) = some (ds, rest) := by
  have hstop : rest.takeWhile Char.isDigit = [] ∧ rest.dropWhile Char.isDigit = rest := by
    obtain ⟨more, rfl | rfl⟩ := hr
    · exact ⟨rfl, rfl⟩
    · exact ⟨rfl, rfl⟩
  rw [digits1, List.takeWhile_append_of_pos hd, List.dropWhile_append_of_pos hd, hstop.1, hstop.2,
    List.append_nil, if_neg (by simpa using hne)]

/-- A whole number has neither a fraction nor an exponent, so it ends where its digits do. -/
theorem numberRest_whole (h : IsWhole ds) (hr : Ends rest) :
    numberRest (ds ++ rest) = some rest := by
  have hf : fractionRest rest = some rest := by
    obtain ⟨more, rfl | rfl⟩ := hr <;> rfl
  have he : exponentRest rest = some rest := by
    obtain ⟨more, rfl | rfl⟩ := hr <;> rfl
  obtain ⟨d, more, rfl⟩ := List.exists_cons_of_ne_nil h.nonempty
  by_cases hzero : d = '0'
  · subst hzero
    rw [h.noZero more rfl, List.singleton_append, numberRest, hf]
    exact he
  · rw [List.cons_append, numberRest, ← List.cons_append, digits1_append h.digits h.nonempty hr]
    · simp only [Option.bind_eq_bind, Option.bind_some, hf, he]
    · simp [hzero]

theorem value?_whole {fuel : Nat} (h : IsWhole ds) (hr : Ends rest) :
    value? (fuel + 1) (ds ++ rest) = some (.number (String.ofList ds), rest) := by
  have hconsumed : consumed (ds ++ rest) rest = ds := by
    simp [consumed]
  have hrest := numberRest_whole h hr
  obtain ⟨d, more, rfl⟩ := List.exists_cons_of_ne_nil h.nonempty
  have hd : d.isDigit = true := h.digits d (by simp)
  rw [List.cons_append] at hrest hconsumed ⊢
  have hnumber : value? (fuel + 1) (d :: (more ++ rest)) = number? (d :: (more ++ rest)) := by
    rw [value?]
    -- No other value begins with a digit.
    all_goals
      intro after heq
      obtain ⟨rfl, -⟩ := List.cons.inj heq
      cases hd
  rw [hnumber, number?]
  · simp only [hrest, hconsumed, Option.bind_eq_bind, Option.bind_some, Option.pure_def]
  · intro after heq
    obtain ⟨rfl, -⟩ := List.cons.inj heq
    cases hd

end Numbers

/-- Every value with readable numbers is read back. -/
theorem readsBack_of_readable {j : Json} (h : Readable j) : ReadsBack j := by
  induction h with
  | null =>
      intro depth fuel rest _ hfuel
      obtain ⟨fuel, rfl⟩ : ∃ n, fuel = n + 1 := ⟨fuel - 1, by omega⟩
      exact ⟨.null, rfl, rfl⟩
  | bool b =>
      intro depth fuel rest _ hfuel
      obtain ⟨fuel, rfl⟩ : ∃ n, fuel = n + 1 := ⟨fuel - 1, by omega⟩
      cases b
      · exact ⟨.bool false, rfl, rfl⟩
      · exact ⟨.bool true, rfl, rfl⟩
  | @number l h =>
      intro depth fuel rest hrest hfuel
      obtain ⟨fuel, rfl⟩ : ∃ n, fuel = n + 1 := ⟨fuel - 1, by omega⟩
      refine ⟨.number l, ?_, rfl⟩
      rw [chars, value?_whole h hrest, String.ofList_toList]
  | string t =>
      intro depth fuel rest _ hfuel
      obtain ⟨fuel, rfl⟩ : ∃ n, fuel = n + 1 := ⟨fuel - 1, by omega⟩
      refine ⟨.string t.toString, ?_, rfl⟩
      rw [chars, stringChars_append, value?, stringRest_glyphs]
      rfl
  | @array es hread hback =>
      intro depth fuel rest _ hfuel
      obtain ⟨fuel, rfl⟩ : ∃ n, fuel = n + 1 := ⟨fuel - 1, by omega⟩
      cases es with
      | nil => exact ⟨.array _ [], rfl, rfl⟩
      | cons e es =>
          have hchars : chars depth (.array (e :: es)) ++ rest =
              '[' :: (lineStart (depth + 1) ++ (chars (depth + 1) e ++ (moreElems (depth + 1) es ++
                (lineStart depth ++ ']' :: rest)))) := by
            simp [chars]
          have hlen : (chars (depth + 1) e).length + (moreElems (depth + 1) es).length + 2 <
              (chars depth (.array (e :: es))).length := by
            simp [chars, lineStart]
            omega
          obtain ⟨ss, hss, hv⟩ :=
            elems?_chars hread hback (depth + 1) depth fuel rest (by omega)
          obtain ⟨c, cs, hc, hb⟩ := chars_begins (hread e (by simp)) (depth + 1)
          have hskip := skipSpace_lineStart_chars (hread e (by simp)) (depth + 1) (depth + 1)
            (moreElems (depth + 1) es ++ (lineStart depth ++ ']' :: rest))
          rw [hchars]
          rw [hc, List.cons_append] at hss hskip ⊢
          refine ⟨_, by rw [value?_array hb.2 hskip, hss]; rfl, ?_⟩
          rw [Sourced.value, hv, repaired]
  | @object fs hread hback =>
      intro depth fuel rest _ hfuel
      obtain ⟨fuel, rfl⟩ : ∃ n, fuel = n + 1 := ⟨fuel - 1, by omega⟩
      rcases fs with _ | ⟨⟨k, v⟩, fs⟩
      · exact ⟨.object _ [], rfl, rfl⟩
      · have hchars : chars depth (.object ((k, v) :: fs)) ++ rest =
            '\x7b' :: (lineStart (depth + 1) ++ (stringChars (.ofString k) ++ ':' :: ' ' ::
              (chars (depth + 1) v ++ (moreFields (depth + 1) fs ++
                (lineStart depth ++ '\x7d' :: rest))))) := by
          simp [chars]
        have hlen : (chars (depth + 1) v).length + (moreFields (depth + 1) fs).length + 2 <
            (chars depth (.object ((k, v) :: fs))).length := by
          simp [chars, lineStart]
          omega
        obtain ⟨ss, hss, hv⟩ :=
          fields?_chars hread hback (depth + 1) depth fuel rest (by omega)
        rw [hchars]
        refine ⟨_, by rw [value?_object (skipSpace_lineStart_string (depth + 1) _ _), hss]; rfl, ?_⟩
        rw [Sourced.value, hv, repaired]

/-- A text that begins with a value is read up to the end of this value. -/
theorem readFirst_of_value? {c : Char} {cs rest : List Char} {v : Sourced}
    (hc : isSpace c = false) (h : value? ((c :: cs).length + 1) (c :: cs) = some (v, rest))
    (hdepth : v.value.depth ≤ maxDepth) : readFirst (c :: cs) = .ok (v, rest) := by
  rw [readFirst, skipSpace_cons hc]
  simp only [h, beyond?_eq_none_iff.mpr hdepth]

theorem text_eq_ok_iff {j : Json} {t : Text} :
    j.text = .ok t ↔ j.depth ≤ maxDepth ∧ Text.ofChars (j.chars 0 ++ ['\n']) = t := by
  rw [text, ← beyond?_eq_none_iff]
  cases j.beyond? maxDepth <;> simp

/-- The text of a value is read back as one value. -/
theorem readAll_text {j : Json} (h : Readable j) {t : Text} (ht : j.text = .ok t) :
    ∃ s, readAll t.chars = .ok s ∧ s.value = j.repaired := by
  obtain ⟨hdepth, rfl⟩ := text_eq_ok_iff.mp ht
  obtain ⟨c, cs, hc, hb⟩ := chars_begins h 0
  obtain ⟨s, hs, hv⟩ := readsBack_of_readable h 0 ((chars 0 j ++ ['\n']).length + 1) ['\n']
    ⟨[], .inr rfl⟩ (by rw [List.length_append]; omega)
  refine ⟨s, ?_, hv⟩
  rw [hc, List.cons_append] at hs
  rw [Text.chars_ofChars, readAll, hc, List.cons_append,
    readFirst_of_value? hb.1 hs (by rwa [hv, depth_repaired])]
  rfl

end Values

end Json

end DeclGen
