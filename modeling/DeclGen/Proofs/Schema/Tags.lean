import DeclGen.Schema.Rules
import Mathlib.Data.List.TakeWhile

/-!
# Tags in the schema and in documents

The schema and the reader of documents know the same words for kinds and languages, and both ignore
letter case and white space around a word. They differ in what letter case and white space are. In
the schema the long s stands for an s. In documents the capital I with a dot stands for an i, and
white space is that of the whole character database. Apart from strings with such characters the
same tags are accepted.

## Implementation notes

`trimmed` takes characters of any class off both ends. The two ways of trimming are compared by
`trimmed_congr`: what one leaves is what the other leaves, if the second class holds nothing of what
is left and all of what was taken off.
-/

namespace DeclGen

section Trimming

variable {p q : Char → Bool} {cs : List Char}

/-- The characters of a list without those of a class at both ends. -/
def trimmed (p : Char → Bool) (cs : List Char) : List Char :=
  ((cs.dropWhile p).reverse.dropWhile p).reverse

/-- What stands before and after a trimmed list is of the class. -/
theorem exists_eq_append_trimmed (p : Char → Bool) (cs : List Char) :
    ∃ before after, cs = before ++ (trimmed p cs ++ after) ∧ (∀ c ∈ before, p c = true) ∧
      ∀ c ∈ after, p c = true := by
  refine ⟨cs.takeWhile p, ((cs.dropWhile p).reverse.takeWhile p).reverse, ?_, ?_, ?_⟩
  · rw [trimmed, ← List.reverse_append, List.takeWhile_append_dropWhile, List.reverse_reverse,
      List.takeWhile_append_dropWhile]
  · exact fun c hc => List.mem_takeWhile_imp hc
  · exact fun c hc => List.mem_takeWhile_imp (List.mem_reverse.mp hc)

theorem trimmed_append {before core after : List Char} (hb : ∀ c ∈ before, p c = true)
    (hc : ∀ c ∈ core, p c = false) (ha : ∀ c ∈ after, p c = true) :
    trimmed p (before ++ (core ++ after)) = core := by
  have hkeep {l : List Char} (hl : ∀ c ∈ l, p c = false) : l.dropWhile p = l := by
    cases l with
    | nil => rfl
    | cons c rest => rw [List.dropWhile_cons_of_neg (by simp [hl c])]
  have ha' : ∀ c ∈ after.reverse, p c = true := fun c h => ha c (List.mem_reverse.mp h)
  have hc' : ∀ c ∈ core.reverse, p c = false := fun c h => hc c (List.mem_reverse.mp h)
  rw [trimmed, List.dropWhile_append_of_pos hb]
  cases core with
  | nil =>
      rw [List.nil_append, List.dropWhile_eq_nil_iff.mpr ha]
      rfl
  | cons c rest =>
      rw [List.cons_append, List.dropWhile_cons_of_neg (by simp [hc c]), ← List.cons_append,
        List.reverse_append, List.dropWhile_append_of_pos ha', hkeep hc', List.reverse_reverse]

/-- Two classes trim a list alike if what one leaves has nothing of the other, and what it takes off
is of the other. -/
theorem trimmed_congr (hcore : ∀ c ∈ trimmed p cs, q c = false)
    (hends : ∀ c ∈ cs, p c = true → q c = true) : trimmed q cs = trimmed p cs := by
  obtain ⟨before, after, hcs, hb, ha⟩ := exists_eq_append_trimmed p cs
  have hbefore : ∀ c ∈ before, q c = true := fun c hc =>
    hends c (by rw [hcs]; exact List.mem_append_left _ hc) (hb c hc)
  have hafter : ∀ c ∈ after, q c = true := fun c hc =>
    hends c (by rw [hcs]; exact List.mem_append_right _ (List.mem_append_right _ hc)) (ha c hc)
  have htrim := trimmed_append hbefore hcore hafter
  rwa [← hcs] at htrim

theorem mem_of_mem_trimmed {c : Char} (h : c ∈ trimmed p cs) : c ∈ cs := by
  obtain ⟨before, after, hcs, -, -⟩ := exists_eq_append_trimmed p cs
  rw [hcs]
  exact List.mem_append_right _ (List.mem_append_left _ h)

/-- A character of a list is left by trimming, or it is of the class. -/
theorem mem_trimmed_or {c : Char} (p : Char → Bool) (h : c ∈ cs) :
    c ∈ trimmed p cs ∨ p c = true := by
  obtain ⟨before, after, hcs, hb, ha⟩ := exists_eq_append_trimmed p cs
  rw [hcs, List.mem_append, List.mem_append] at h
  rcases h with h | h | h
  · exact .inr (hb c h)
  · exact .inl h
  · exact .inr (ha c h)

end Trimming

namespace Schema

section Characters

variable {c : Char}

/-- The long s, which the schema takes for an s. -/
def longS : Char := '\u017F'

/-- The capital I with a dot, which documents take for an i. -/
def dottedI : Char := '\u0130'

/-- A character that the words of tags are made of: no white space, no k, and none of the characters
that only one side folds. -/
def isWordChar (c : Char) : Bool :=
  !Text.isBlank c && c != 'k' && c != longS && c != dottedI

theorem isBlank_of_isSpace (h : Pattern.isSpace c = true) : Text.isBlank c = true := by
  simp only [Pattern.isSpace, Bool.or_eq_true, beq_iff_eq] at h
  rcases h with (((rfl | rfl) | rfl) | rfl) | rfl <;> rfl

/-- White space has no other letter case. -/
theorem toLower_of_isBlank (h : Text.isBlank c = true) : c.toLower = c := by
  apply dif_neg
  rintro ⟨hlow, hhigh⟩
  simp only [Text.isBlank, Bool.or_eq_true, Bool.and_eq_true, decide_eq_true_eq, beq_iff_eq] at h
  have hl : 65 ≤ c.toNat := hlow
  have hh : c.toNat ≤ 90 := hhigh
  omega

theorem isBlank_of_isWordChar_toLower (h : isWordChar c.toLower = true) :
    Text.isBlank c = false := by
  cases hb : Text.isBlank c with
  | false => rfl
  | true =>
      rw [toLower_of_isBlank hb] at h
      simp [isWordChar, hb] at h

/-- A character that the schema folds to one of a word, apart from the long s, is lowered to it. -/
theorem lowerChar_of_foldChar (hs : c ≠ longS) (h : isWordChar (Text.foldChar c) = true) :
    Text.lowerChar c = Text.foldChar c ∧ Text.isBlank c = false ∧ c ≠ dottedI := by
  have hk : c ≠ '\u212A' := by
    rintro rfl
    cases h
  have hi : c ≠ dottedI := by
    rintro rfl
    cases h
  have hfold : Text.foldChar c = c.toLower := by
    simp [Text.foldChar, hk, show c ≠ '\u017F' from hs]
  have hlower : Text.lowerChar c = c.toLower := by
    simp [Text.lowerChar, hk, show c ≠ '\u0130' from hi]
  rw [hfold] at h
  exact ⟨hlower.trans hfold.symm, isBlank_of_isWordChar_toLower h, hi⟩

/-- A character that is lowered to one of a word, apart from the capital I with a dot, is folded to
it by the schema. -/
theorem foldChar_of_lowerChar (hi : c ≠ dottedI) (h : isWordChar (Text.lowerChar c) = true) :
    Text.foldChar c = Text.lowerChar c ∧ Text.isBlank c = false ∧ c ≠ longS := by
  have hk : c ≠ '\u212A' := by
    rintro rfl
    cases h
  have hs : c ≠ longS := by
    rintro rfl
    cases h
  have hfold : Text.foldChar c = c.toLower := by
    simp [Text.foldChar, hk, show c ≠ '\u017F' from hs]
  have hlower : Text.lowerChar c = c.toLower := by
    simp [Text.lowerChar, hk, show c ≠ '\u0130' from hi]
  rw [hlower] at h
  exact ⟨hfold.trans hlower.symm, isBlank_of_isWordChar_toLower h, hs⟩

end Characters

section Words

variable {words : List String}

theorem holds_word_iff_trimmed (t : String) :
    (Pattern.word words).holds t.toList = true ↔
      ∃ w ∈ words, (trimmed Pattern.isSpace t.toList).map Text.foldChar = w.toList := by
  simp [Pattern.holds, Pattern.trimSpace, trimmed]

theorem tagKey_mem_iff_trimmed (t : String) :
    Text.tagKey t ∈ words ↔
      ∃ w ∈ words, (trimmed Text.isBlank t.toList).map Text.lowerChar = w.toList := by
  have heq (w : String) : Text.tagKey t = w ↔
      (trimmed Text.isBlank t.toList).map Text.lowerChar = w.toList := by
    rw [Text.tagKey, ← String.toList_inj, String.toList_ofList]
    rfl
  constructor
  · exact fun h => ⟨_, h, (heq _).mp rfl⟩
  · rintro ⟨w, hw, h⟩
    rwa [(heq w).mpr h]

/-- A word that one way of trimming and folding finds is found by another way, if the two agree on
the characters of the word and what was taken off is taken off by both. -/
theorem map_trimmed_congr {p q : Char → Bool} {m n : Char → Char} {cs w : List Char}
    (h : (trimmed p cs).map m = w) (hends : ∀ c ∈ cs, p c = true → q c = true)
    (hcore : ∀ c ∈ trimmed p cs, n c = m c ∧ q c = false) : (trimmed q cs).map n = w := by
  rw [trimmed_congr (fun c hc => (hcore c hc).2) hends, ← h]
  exact List.map_congr_left fun c hc => (hcore c hc).1

/-- A pattern of words accepts a string without a long s exactly if the string names one of the
words in a document, has no capital I with a dot, and has no white space unknown to patterns. -/
theorem holds_word_iff (hwords : ∀ w ∈ words, ∀ c ∈ w.toList, isWordChar c = true) (t : String) :
    ((Pattern.word words).holds t.toList = true ∧ longS ∉ t.toList) ↔
      Text.tagKey t ∈ words ∧ dottedI ∉ t.toList ∧
        ∀ c ∈ t.toList, Text.isBlank c = true → Pattern.isSpace c = true := by
  rw [holds_word_iff_trimmed, tagKey_mem_iff_trimmed]
  constructor
  · rintro ⟨⟨w, hw, hmap⟩, hs⟩
    have hcore (c : Char) (hc : c ∈ trimmed Pattern.isSpace t.toList) :
        Text.lowerChar c = Text.foldChar c ∧ Text.isBlank c = false ∧ c ≠ dottedI := by
      apply lowerChar_of_foldChar
      · rintro rfl
        exact hs (mem_of_mem_trimmed hc)
      · refine hwords w hw _ ?_
        rw [← hmap]
        exact List.mem_map_of_mem hc
    refine ⟨⟨w, hw, map_trimmed_congr hmap (fun c _ => isBlank_of_isSpace) ?_⟩, ?_, ?_⟩
    · exact fun c hc => ⟨(hcore c hc).1, (hcore c hc).2.1⟩
    · intro hi
      rcases mem_trimmed_or Pattern.isSpace hi with h | h
      · exact (hcore _ h).2.2 rfl
      · cases h
    · intro c hc hb
      rcases mem_trimmed_or Pattern.isSpace hc with h | h
      · rw [(hcore c h).2.1] at hb
        cases hb
      · exact h
  · rintro ⟨⟨w, hw, hmap⟩, hi, hblank⟩
    have hcore (c : Char) (hc : c ∈ trimmed Text.isBlank t.toList) :
        Text.foldChar c = Text.lowerChar c ∧ Text.isBlank c = false ∧ c ≠ longS := by
      apply foldChar_of_lowerChar
      · rintro rfl
        exact hi (mem_of_mem_trimmed hc)
      · refine hwords w hw _ ?_
        rw [← hmap]
        exact List.mem_map_of_mem hc
    refine ⟨⟨w, hw, map_trimmed_congr hmap hblank ?_⟩, ?_⟩
    · intro c hc
      refine ⟨(hcore c hc).1, ?_⟩
      cases hspace : Pattern.isSpace c with
      | false => rfl
      | true => rw [← isBlank_of_isSpace hspace, (hcore c hc).2.1]
    · intro hs
      rcases mem_trimmed_or Text.isBlank hs with h | h
      · exact (hcore _ h).2.2 rfl
      · cases h

end Words

section Tags

variable {words : List String}

/-- Whether the schema allows a string as the tag of an item. -/
def allowsTag (t : String) : Bool := Part.tag.rule.pattern.all (·.holds t.toList)

/-- Whether the schema allows a string as a key of settings. -/
def allowsKey (t : String) : Bool := Part.settings.rule.names.all (·.holds t.toList)

/-- A look-up in a table of spellings succeeds for the spellings. -/
theorem isSome_lookup_iff {α : Type} (table : List (String × α)) (key : String) :
    (table.lookup key).isSome = true ↔ key ∈ table.map (·.1) := by
  rw [List.lookup_isSome_iff, List.mem_map]
  simp only [beq_iff_eq]
  exact ⟨fun ⟨p, hp, h⟩ => ⟨p, hp, h.symm⟩, fun ⟨p, hp, h⟩ => ⟨p, hp, h.symm⟩⟩

theorem isWordChar_of_all (h : words.all (·.toList.all isWordChar) = true) :
    ∀ w ∈ words, ∀ c ∈ w.toList, isWordChar c = true := by
  intro w hw
  exact List.all_eq_true.mp (List.all_eq_true.mp h w hw)

theorem allowsTag_iff (t : String) :
    (allowsTag t = true ∧ longS ∉ t.toList) ↔
      (Kind.parse? t).isSome = true ∧ dottedI ∉ t.toList ∧
        ∀ c ∈ t.toList, Text.isBlank c = true → Pattern.isSpace c = true := by
  have hwords : kindWords.all (·.toList.all isWordChar) = true := by decide +kernel
  rw [Kind.parse?, isSome_lookup_iff]
  exact holds_word_iff (isWordChar_of_all hwords) t

theorem allowsKey_iff (t : String) :
    (allowsKey t = true ∧ longS ∉ t.toList) ↔
      (Lang.parse? t).isSome = true ∧ dottedI ∉ t.toList ∧
        ∀ c ∈ t.toList, Text.isBlank c = true → Pattern.isSpace c = true := by
  have hwords : langWords.all (·.toList.all isWordChar) = true := by decide +kernel
  rw [Lang.parse?, isSome_lookup_iff]
  exact holds_word_iff (isWordChar_of_all hwords) t

/-- Among the strings without a long s the schema allows as tags those that name a kind in a
document, but for those with a capital I with a dot or with white space unknown to patterns; and it
allows as keys of settings those that name a language, with the same exceptions. -/
theorem schema_allows_iff_document_names (t : String) :
    ((allowsTag t = true ∧ longS ∉ t.toList) ↔
      (Kind.parse? t).isSome = true ∧ dottedI ∉ t.toList ∧
        ∀ c ∈ t.toList, Text.isBlank c = true → Pattern.isSpace c = true) ∧
    ((allowsKey t = true ∧ longS ∉ t.toList) ↔
      (Lang.parse? t).isSome = true ∧ dottedI ∉ t.toList ∧
        ∀ c ∈ t.toList, Text.isBlank c = true → Pattern.isSpace c = true) :=
  ⟨allowsTag_iff t, allowsKey_iff t⟩

/-- The schema and documents do not accept the same tags: a kind with a long s is allowed and named
by no document, and a language after a vertical tab is named and not allowed. -/
theorem not_all_tags_accepted_alike :
    (¬ ∀ t, allowsTag t = true ↔ (Kind.parse? t).isSome = true) ∧
      ¬ ∀ t, allowsKey t = true ↔ (Lang.parse? t).isSome = true := by
  constructor
  · intro h
    have hnames := (h "\u017Ftruct").mp (by decide +kernel)
    exact absurd hnames (by decide +kernel)
  · intro h
    have hallowed := (h "\x0brust").mpr (by decide +kernel)
    exact absurd hallowed (by decide +kernel)

end Tags

end Schema

end DeclGen
