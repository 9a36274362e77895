import DeclGen.Text.Basic

/-!
# Characters and their bytes

A text that encodes characters is read back as these characters. A byte below the range of
continuation bytes stands for a character of its own, so such bytes are found in a text exactly
where the characters are. Any text is what its glyphs were read from, so no two texts have the same
glyphs.
-/

namespace DeclGen.Text

section Bytes

theorem toNat_ofNat_of_lt {n : Nat} (h : n < 256) : (UInt8.ofNat n).toNat = n := by
  rw [UInt8.toNat_ofNat']
  exact Nat.mod_eq_of_lt h

theorem tail?_ofNat (n : Nat) : tail? (UInt8.ofNat (n % 64 + 128)) = some (n % 64) := by
  have hn : (UInt8.ofNat (n % 64 + 128)).toNat = n % 64 + 128 := toNat_ofNat_of_lt (by omega)
  have hlow : (0x80 : UInt8) ≤ UInt8.ofNat (n % 64 + 128) := by
    rw [UInt8.le_iff_toNat_le, hn]
    simp
  have hhigh : UInt8.ofNat (n % 64 + 128) ≤ 0xBF := by
    rw [UInt8.le_iff_toNat_le, hn]
    simp only [UInt8.reduceToNat]
    omega
  simp only [tail?, hlow, hhigh, hn, decide_true, Bool.and_self, if_true, Nat.add_sub_cancel]

theorem charFrom?_toNat {low : Nat} {c : Char} (h : low ≤ c.toNat) :
    charFrom? low c.toNat = some c := by
  have hv : c.toNat.isValidChar := c.valid
  calc charFrom? low c.toNat
      = if low ≤ c.toNat then some (Char.ofNatAux c.toNat hv) else none := dif_pos hv
    _ = some c := if_pos h

theorem charFrom?_eq_some {low v : Nat} {c : Char} (h : charFrom? low v = some c) :
    low ≤ v ∧ c.toNat = v := by
  by_cases hv : v.isValidChar
  · by_cases hl : low ≤ v
    · have hc : charFrom? low v = some (Char.ofNatAux v hv) := (dif_pos hv).trans (if_pos hl)
      rw [hc] at h
      cases h
      exact ⟨hl, rfl⟩
    · have hc : charFrom? low v = none := (dif_pos hv).trans (if_neg hl)
      rw [hc] at h
      cases h
  · have hc : charFrom? low v = none := dif_neg hv
    rw [hc] at h
    cases h

theorem le_toNat_of_charFrom? {low v : Nat} {c : Char} (h : charFrom? low v = some c) :
    low ≤ c.toNat := by
  obtain ⟨hl, rfl⟩ := charFrom?_eq_some h
  exact hl

/-- The bytes of a character, by the room that it needs. -/
theorem ofChar_cases (c : Char) :
    (c.toNat < 0x80 ∧ ofChar c = [UInt8.ofNat c.toNat]) ∨
    (0x80 ≤ c.toNat ∧ c.toNat < 0x800 ∧
      ofChar c = [UInt8.ofNat (c.toNat / 64 + 192), UInt8.ofNat (c.toNat % 64 + 128)]) ∨
    (0x800 ≤ c.toNat ∧ c.toNat < 0x10000 ∧
      ofChar c = [UInt8.ofNat (c.toNat / 4096 + 224), UInt8.ofNat (c.toNat / 64 % 64 + 128),
        UInt8.ofNat (c.toNat % 64 + 128)]) ∨
    (0x10000 ≤ c.toNat ∧ c.toNat < 0x110000 ∧
      ofChar c = [UInt8.ofNat (c.toNat / 262144 + 240), UInt8.ofNat (c.toNat / 4096 % 64 + 128),
        UInt8.ofNat (c.toNat / 64 % 64 + 128), UInt8.ofNat (c.toNat % 64 + 128)]) := by
  have hc : c.val.toNat = c.toNat := rfl
  have hmax : c.toNat < 0x110000 := by
    rcases c.valid with h | h <;> omega
  rw [ofChar, String.utf8EncodeChar, hc]
  by_cases h1 : c.toNat ≤ 0x7F
  · rw [if_pos h1]
    exact .inl ⟨by omega, rfl⟩
  · by_cases h2 : c.toNat ≤ 0x7FF
    · rw [if_neg h1, if_pos h2, Nat.mod_eq_of_lt (show c.toNat / 64 < 32 by omega)]
      exact .inr (.inl ⟨by omega, by omega, rfl⟩)
    · by_cases h3 : c.toNat ≤ 0xFFFF
      · rw [if_neg h1, if_neg h2, if_pos h3, Nat.mod_eq_of_lt (show c.toNat / 4096 < 16 by omega)]
        exact .inr (.inr (.inl ⟨by omega, by omega, rfl⟩))
      · rw [if_neg h1, if_neg h2, if_neg h3,
          Nat.mod_eq_of_lt (show c.toNat / 262144 < 8 by omega)]
        exact .inr (.inr (.inr ⟨by omega, hmax, rfl⟩))

end Bytes

section Reading

/-- Four bytes are read together when the first one announces them. -/
theorem lead?_four {a b₁ b₂ b₃ : UInt8} {x y z : Nat} (hlow : 0xF0 ≤ a.toNat)
    (hhigh : a.toNat < 0xF8) (h₁ : tail? b₁ = some x) (h₂ : tail? b₂ = some y)
    (h₃ : tail? b₃ = some z) (rest : Text) :
    lead? (a :: b₁ :: b₂ :: b₃ :: rest) =
      (charFrom? 0x10000 ((a.toNat - 0xF0) * 262144 + x * 4096 + y * 64 + z)).map (·, 3) := by
  -- Single rewrites keep the large factor away from the unifier.
  rw [lead?, if_neg (show ¬ a.toNat < 0x80 by omega), if_neg (show ¬ a.toNat < 0xC0 by omega)]
  rw [h₁, Option.bind_eq_bind, Option.bind_some, if_neg (show ¬ a.toNat < 0xE0 by omega)]
  dsimp only
  rw [h₂, Option.bind_eq_bind, Option.bind_some, if_neg (show ¬ a.toNat < 0xF0 by omega)]
  rw [h₃, Option.bind_some, if_pos hhigh]
  cases charFrom? 0x10000 ((a.toNat - 0xF0) * 262144 + x * 4096 + y * 64 + z) <;> rfl

/-- The bytes of a character are read as the character. -/
theorem lead?_ofChar_append (c : Char) (rest : Text) :
    lead? (ofChar c ++ rest) = some (c, (ofChar c).length - 1) := by
  rcases ofChar_cases c with ⟨h, hb⟩ | ⟨hl, hu, hb⟩ | ⟨hl, hu, hb⟩ | ⟨hl, hu, hb⟩
  · have hn : (UInt8.ofNat c.toNat).toNat = c.toNat := toNat_ofNat_of_lt (by omega)
    rw [hb]
    simp [lead?, hn, h, Char.ofNat_toNat]
  · have hn : (UInt8.ofNat (c.toNat / 64 + 192)).toNat = c.toNat / 64 + 192 :=
      toNat_ofNat_of_lt (by omega)
    have hv : (c.toNat / 64 + 192 - 0xC0) * 64 + c.toNat % 64 = c.toNat := by omega
    rw [hb]
    simp only [List.cons_append, List.nil_append, lead?, hn, tail?_ofNat, hv, charFrom?_toNat hl,
      Option.bind_eq_bind, Option.bind_some, if_neg (show ¬ c.toNat / 64 + 192 < 0x80 by omega),
      if_neg (show ¬ c.toNat / 64 + 192 < 0xC0 by omega),
      if_pos (show c.toNat / 64 + 192 < 0xE0 by omega)]
    rfl
  · have hn : (UInt8.ofNat (c.toNat / 4096 + 224)).toNat = c.toNat / 4096 + 224 :=
      toNat_ofNat_of_lt (by omega)
    have hv : (c.toNat / 4096 + 224 - 0xE0) * 4096 + c.toNat / 64 % 64 * 64 + c.toNat % 64 =
        c.toNat := by omega
    rw [hb]
    simp only [List.cons_append, List.nil_append, lead?, hn, tail?_ofNat, hv, charFrom?_toNat hl,
      Option.bind_eq_bind, Option.bind_some, if_neg (show ¬ c.toNat / 4096 + 224 < 0x80 by omega),
      if_neg (show ¬ c.toNat / 4096 + 224 < 0xC0 by omega),
      if_neg (show ¬ c.toNat / 4096 + 224 < 0xE0 by omega),
      if_pos (show c.toNat / 4096 + 224 < 0xF0 by omega)]
    rfl
  · have hn : (UInt8.ofNat (c.toNat / 262144 + 240)).toNat = c.toNat / 262144 + 240 :=
      toNat_ofNat_of_lt (by omega)
    have hv : (c.toNat / 262144 + 240 - 0xF0) * 262144 + c.toNat / 4096 % 64 * 4096
        + c.toNat / 64 % 64 * 64 + c.toNat % 64 = c.toNat := by omega
    rw [hb, List.cons_append, List.cons_append, List.cons_append, List.cons_append,
      lead?_four (by omega) (by omega) (tail?_ofNat _) (tail?_ofNat _) (tail?_ofNat _), hn, hv,
      charFrom?_toNat hl]
    rfl

theorem glyphsFrom_append (skipped rest : Text) :
    glyphsFrom skipped.length (skipped ++ rest) = glyphsFrom 0 rest := by
  induction skipped with
  | nil => rfl
  | cons b more ih =>
      rw [List.length_cons, List.cons_append, glyphsFrom, ih]

theorem glyphs_ofChar_append (c : Char) (rest : Text) :
    glyphs (ofChar c ++ rest) = .char c :: glyphs rest := by
  have hlead := lead?_ofChar_append c rest
  obtain ⟨b, more, hb⟩ : ∃ b more, ofChar c = b :: more := by
    rcases ofChar_cases c with ⟨_, hb⟩ | ⟨_, _, hb⟩ | ⟨_, _, hb⟩ | ⟨_, _, hb⟩ <;> exact ⟨_, _, hb⟩
  rw [hb, List.cons_append] at hlead
  rw [glyphs, hb, List.cons_append, glyphsFrom, hlead]
  simp only [List.length_cons, Nat.add_sub_cancel]
  rw [glyphsFrom_append, glyphs]

theorem glyphs_ofChars (cs : List Char) : glyphs (ofChars cs) = cs.map .char := by
  induction cs with
  | nil => rfl
  | cons c rest ih =>
      have hcons : ofChars (c :: rest) = ofChar c ++ ofChars rest := rfl
      rw [hcons, glyphs_ofChar_append, ih, List.map_cons]

@[simp]
theorem chars_ofChars (cs : List Char) : (ofChars cs).chars = cs := by
  rw [chars, glyphs_ofChars, List.map_map]
  exact List.map_id cs

@[simp]
theorem toString_ofString (s : String) : (ofString s).toString = s := by
  rw [toString, ofString, chars_ofChars, String.ofList_toList]

end Reading

section Inversion

variable {t : Text} {b : UInt8} {c : Char} {n : Nat}

theorem toNat_ofNat_ascii {n : Nat} (h : n < 0x80) : (Char.ofNat n).toNat = n := by
  have hv : n.isValidChar := .inl (by omega)
  rw [Char.ofNat, dif_pos hv]
  rfl

theorem lead?_ascii (hb : b.toNat < 0x80) (rest : Text) :
    lead? (b :: rest) = some (Char.ofNat b.toNat, 0) := by
  rcases rest with _ | ⟨b₁, _ | ⟨b₂, _ | ⟨b₃, more⟩⟩⟩ <;> rw [lead?, if_pos hb]

theorem toNat_of_tail? {x : Nat} (h : tail? b = some x) :
    b.toNat = x + 0x80 ∧ x < 0x40 := by
  rw [tail?] at h
  split at h
  · next hb =>
      have hx := Option.some.inj h
      simp only [Bool.and_eq_true, decide_eq_true_eq, UInt8.le_iff_toNat_le,
        UInt8.reduceToNat] at hb
      omega
  · cases h

theorem charFrom?_of_bind {low v m : Nat}
    (h : ((charFrom? low v).bind fun r => some (r, m)) = some (c, n)) :
    charFrom? low v = some c ∧ n = m := by
  obtain ⟨r, hr, hrc⟩ := Option.bind_eq_some_iff.mp h
  cases hrc
  exact ⟨hr, rfl⟩

/-- What was read at the start of a text, by the number of bytes. -/
theorem lead?_cases (h : lead? t = some (c, n)) :
    (∃ a r, t = a :: r ∧ n = 0 ∧ a.toNat < 0x80 ∧ c.toNat = a.toNat) ∨
    (∃ a b r x, t = a :: b :: r ∧ n = 1 ∧ 0xC0 ≤ a.toNat ∧ a.toNat < 0xE0 ∧ tail? b = some x ∧
      charFrom? 0x80 ((a.toNat - 0xC0) * 64 + x) = some c) ∨
    (∃ a b b' r x y, t = a :: b :: b' :: r ∧ n = 2 ∧ 0xE0 ≤ a.toNat ∧ a.toNat < 0xF0 ∧
      tail? b = some x ∧ tail? b' = some y ∧
      charFrom? 0x800 ((a.toNat - 0xE0) * 4096 + x * 64 + y) = some c) ∨
    ∃ a b b' b'' r x y z, t = a :: b :: b' :: b'' :: r ∧ n = 3 ∧ 0xF0 ≤ a.toNat ∧
      a.toNat < 0xF8 ∧ tail? b = some x ∧ tail? b' = some y ∧ tail? b'' = some z ∧
      charFrom? 0x10000 ((a.toNat - 0xF0) * 262144 + x * 4096 + y * 64 + z) = some c := by
  rcases t with _ | ⟨a, rest⟩
  · cases h
  · by_cases ha : a.toNat < 0x80
    · rw [lead?_ascii ha] at h
      cases h
      exact .inl ⟨a, rest, rfl, rfl, ha, toNat_ofNat_ascii ha⟩
    · right
      rcases rest with _ | ⟨b, rest⟩
      · rw [lead?, if_neg ha, ite_self] at h
        cases h
      · simp only [lead?, if_neg ha] at h
        split at h
        · cases h
        · obtain ⟨x, hx, h⟩ := Option.bind_eq_some_iff.mp h
          split at h
          · obtain ⟨hc, hn⟩ := charFrom?_of_bind h
            exact .inl ⟨a, b, rest, x, rfl, hn, by omega, by omega, hx, hc⟩
          · right
            rcases rest with _ | ⟨b', rest⟩
            · cases h
            · obtain ⟨y, hy, h⟩ := Option.bind_eq_some_iff.mp h
              split at h
              · obtain ⟨hc, hn⟩ := charFrom?_of_bind h
                exact .inl ⟨a, b, b', rest, x, y, rfl, hn, by omega, by omega, hx, hy, hc⟩
              · rcases rest with _ | ⟨b'', rest⟩
                · cases h
                · obtain ⟨z, hz, h⟩ := Option.bind_eq_some_iff.mp h
                  split at h
                  · obtain ⟨hc, hn⟩ := charFrom?_of_bind h
                    exact .inr ⟨a, b, b', b'', rest, x, y, z, rfl, hn, by omega, by omega, hx, hy,
                      hz, hc⟩
                  · cases h

/-- A byte from 128 on does not start a character below 128. -/
theorem le_toNat_of_lead? {rest : Text} (h : lead? (b :: rest) = some (c, n))
    (hb : ¬ b.toNat < 0x80) : 0x80 ≤ c.toNat := by
  rcases lead?_cases h with ⟨a, r, heq, -, ha, -⟩ | ⟨_, _, _, _, -, -, -, -, -, hc⟩ |
    ⟨_, _, _, _, _, _, -, -, -, -, -, -, hc⟩ |
    ⟨_, _, _, _, _, _, _, _, -, -, -, -, -, -, -, hc⟩
  · cases heq
    exact absurd ha hb
  · exact le_toNat_of_charFrom? hc
  · exact Nat.le_trans (by decide) (le_toNat_of_charFrom? hc)
  · exact Nat.le_trans (by decide) (le_toNat_of_charFrom? hc)

theorem ofNat_eq_of_toNat_eq {a : UInt8} {v : Nat} (h : a.toNat = v) : UInt8.ofNat v = a := by
  rw [← h, UInt8.ofNat_toNat]

/-- A character is read only from its own bytes. -/
theorem eq_ofChar_append_of_lead? (h : lead? t = some (c, n)) :
    ∃ rest, t = ofChar c ++ rest ∧ (ofChar c).length = n + 1 := by
  rcases lead?_cases h with ⟨a, r, rfl, rfl, ha, hc⟩ | ⟨a, b, r, x, rfl, rfl, hl, hu, hb, hc⟩ |
    ⟨a, b, b', r, x, y, rfl, rfl, hl, hu, hb, hb', hc⟩ |
    ⟨a, b, b', b'', r, x, y, z, rfl, rfl, hl, hu, hb, hb', hb'', hc⟩
  · have hbytes : ofChar c = [a] := by
      rcases ofChar_cases c with ⟨-, hb⟩ | ⟨hl, -⟩ | ⟨hl, -⟩ | ⟨hl, -⟩
      · rw [hb, ofNat_eq_of_toNat_eq hc.symm]
      · omega
      · omega
      · omega
    exact ⟨r, by rw [hbytes]; rfl, by rw [hbytes]; rfl⟩
  · have hv := (charFrom?_eq_some hc).2
    have hlow := le_toNat_of_charFrom? hc
    obtain ⟨hb, hx⟩ := toNat_of_tail? hb
    have hbytes : ofChar c = [a, b] := by
      rcases ofChar_cases c with ⟨h', -⟩ | ⟨-, -, h'⟩ | ⟨h', -⟩ | ⟨h', -⟩
      · omega
      · rw [h', ofNat_eq_of_toNat_eq (show a.toNat = _ by omega),
          ofNat_eq_of_toNat_eq (show b.toNat = _ by omega)]
      · omega
      · omega
    exact ⟨r, by rw [hbytes]; rfl, by rw [hbytes]; rfl⟩
  · have hv := (charFrom?_eq_some hc).2
    have hlow := le_toNat_of_charFrom? hc
    obtain ⟨hb, hx⟩ := toNat_of_tail? hb
    obtain ⟨hb', hy⟩ := toNat_of_tail? hb'
    have hbytes : ofChar c = [a, b, b'] := by
      rcases ofChar_cases c with ⟨h', -⟩ | ⟨-, h', -⟩ | ⟨-, -, h'⟩ | ⟨h', -⟩
      · omega
      · omega
      · rw [h', ofNat_eq_of_toNat_eq (show a.toNat = _ by omega),
          ofNat_eq_of_toNat_eq (show b.toNat = _ by omega),
          ofNat_eq_of_toNat_eq (show b'.toNat = _ by omega)]
      · omega
    exact ⟨r, by rw [hbytes]; rfl, by rw [hbytes]; rfl⟩
  · have hv := (charFrom?_eq_some hc).2
    have hlow := le_toNat_of_charFrom? hc
    obtain ⟨hb, hx⟩ := toNat_of_tail? hb
    obtain ⟨hb', hy⟩ := toNat_of_tail? hb'
    obtain ⟨hb'', hz⟩ := toNat_of_tail? hb''
    have hbytes : ofChar c = [a, b, b', b''] := by
      rcases ofChar_cases c with ⟨h', -⟩ | ⟨-, h', -⟩ | ⟨-, h', -⟩ | ⟨-, -, h'⟩
      · omega
      · omega
      · omega
      · rw [h', ofNat_eq_of_toNat_eq (show a.toNat = _ by omega),
          ofNat_eq_of_toNat_eq (show b.toNat = _ by omega),
          ofNat_eq_of_toNat_eq (show b'.toNat = _ by omega),
          ofNat_eq_of_toNat_eq (show b''.toNat = _ by omega)]
    exact ⟨r, by rw [hbytes]; rfl, by rw [hbytes]; rfl⟩

/-- The character at the start of a text is the one whose bytes are there. -/
theorem exists_lead?_iff : (∃ n, lead? t = some (c, n)) ↔ ofChar c <+: t := by
  constructor
  · rintro ⟨n, h⟩
    obtain ⟨rest, rfl, -⟩ := eq_ofChar_append_of_lead? h
    exact List.prefix_append _ _
  · rintro ⟨rest, rfl⟩
    exact ⟨_, lead?_ofChar_append c rest⟩

end Inversion

section SingleBytes

variable {b : UInt8} {c : Char}

/-- A byte below 128 is the whole of its character. -/
theorem toNat_eq_of_mem_ofChar (h : b ∈ ofChar c) (hb : b.toNat < 0x80) : b.toNat = c.toNat := by
  have high {n : Nat} (hn : 0x80 ≤ n) (hn' : n < 256) (hmem : b = UInt8.ofNat n) : False := by
    rw [hmem, toNat_ofNat_of_lt hn'] at hb
    omega
  rcases ofChar_cases c with ⟨hc, hbytes⟩ | ⟨_, _, hbytes⟩ | ⟨_, _, hbytes⟩ | ⟨_, _, hbytes⟩
  · rw [hbytes, List.mem_singleton] at h
    rw [h, toNat_ofNat_of_lt (by omega)]
  · simp only [hbytes, List.mem_cons, List.not_mem_nil, or_false] at h
    rcases h with h | h <;> exact (high (by omega) (by omega) h).elim
  · simp only [hbytes, List.mem_cons, List.not_mem_nil, or_false] at h
    rcases h with h | h | h <;> exact (high (by omega) (by omega) h).elim
  · simp only [hbytes, List.mem_cons, List.not_mem_nil, or_false] at h
    rcases h with h | h | h | h <;> exact (high (by omega) (by omega) h).elim

/-- The byte of a glyph that is a single byte: a character below 128, or a stray byte. -/
def Glyph.byte? : Glyph → Option UInt8
  | .char c => if c.toNat < 0x80 then some (UInt8.ofNat c.toNat) else none
  | .stray b => some b

/-- A glyph of a single byte is found where the byte is. -/
theorem mem_of_mem_glyphsFrom {g : Glyph} (hg : g.byte? = some b) (skip : Nat) (t : Text)
    (h : g ∈ glyphsFrom skip t) : b ∈ t := by
  induction t generalizing skip with
  | nil =>
      rw [glyphsFrom] at h
      cases h
  | cons a rest ih =>
      cases skip with
      | succ skip => exact List.mem_cons_of_mem a (ih skip h)
      | zero =>
          rw [glyphsFrom] at h
          cases hl : lead? (a :: rest) with
          | none =>
              rw [hl] at h
              rcases List.mem_cons.mp h with rfl | h
              · cases hg
                exact List.mem_cons_self
              · exact List.mem_cons_of_mem a (ih 0 h)
          | some found =>
              obtain ⟨c, n⟩ := found
              rw [hl] at h
              rcases List.mem_cons.mp h with rfl | h
              · rw [Glyph.byte?] at hg
                split at hg
                · next hc =>
                    have ha : a.toNat < 0x80 := by
                      refine Decidable.byContradiction fun hb => ?_
                      have hle := le_toNat_of_lead? hl hb
                      omega
                    rw [lead?_ascii ha] at hl
                    cases hl
                    rw [toNat_ofNat_ascii ha, UInt8.ofNat_toNat] at hg
                    cases hg
                    exact List.mem_cons_self
                · cases hg
              · exact List.mem_cons_of_mem a (ih n h)

end SingleBytes

section Glyphs

/-- The bytes of a glyph. -/
def Glyph.bytes : Glyph → Text
  | .char c => ofChar c
  | .stray b => [b]

/-- A text is what its glyphs were read from. -/
theorem flatMap_bytes_glyphs (t : Text) : t.glyphs.flatMap Glyph.bytes = t := by
  -- The induction is on the bytes, with any number of them skipped in front.
  have hskip (skip : Nat) (t : Text) : (glyphsFrom skip t).flatMap Glyph.bytes = t.drop skip := by
    induction t generalizing skip with
    | nil => simp [glyphsFrom]
    | cons a rest ih =>
        cases skip with
        | succ skip => rw [glyphsFrom, ih, List.drop_succ_cons]
        | zero =>
            rw [glyphsFrom]
            cases hl : lead? (a :: rest) with
            | none => simp [ih, Glyph.bytes]
            | some found =>
                obtain ⟨c, n⟩ := found
                obtain ⟨more, hmore, hlength⟩ := eq_ofChar_append_of_lead? hl
                have hdrop : rest.drop n = more := by
                  have hd := congrArg (List.drop (n + 1)) hmore
                  rwa [List.drop_succ_cons, ← hlength, List.drop_left] at hd
                simp only [List.flatMap_cons, ih, hdrop, Glyph.bytes, List.drop_zero]
                exact hmore.symm
  exact hskip 0 t

theorem glyphs_injective : Function.Injective glyphs := by
  intro s t h
  rw [← flatMap_bytes_glyphs s, h, flatMap_bytes_glyphs]

/-- A stray byte is not below 128. -/
theorem le_toNat_of_stray {t : Text} {b : UInt8} (h : .stray b ∈ t.glyphs) : 0x80 ≤ b.toNat := by
  have hskip (skip : Nat) (t : Text) (h : .stray b ∈ glyphsFrom skip t) : 0x80 ≤ b.toNat := by
    induction t generalizing skip with
    | nil => simp [glyphsFrom] at h
    | cons a rest ih =>
        cases skip with
        | succ skip => exact ih skip h
        | zero =>
            rw [glyphsFrom] at h
            cases hl : lead? (a :: rest) with
            | none =>
                rw [hl] at h
                rcases List.mem_cons.mp h with hb | h
                · cases hb
                  refine Decidable.byContradiction fun hb => ?_
                  rw [lead?_ascii (by omega)] at hl
                  cases hl
                · exact ih 0 h
            | some found =>
                rw [hl] at h
                exact ih found.2 (by simpa using h)
  exact hskip 0 t h

end Glyphs

end DeclGen.Text
