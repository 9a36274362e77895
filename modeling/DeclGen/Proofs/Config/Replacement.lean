import DeclGen.Config.Substitution
import DeclGen.Proofs.Tree.Checking

/-!
# Replacing entry by entry

A substitution looks every value up at once. The same replacement can be described as a process that
goes through the entries of a dictionary and replaces, over the whole forest, every value that
equals the key of the entry. The two agree in every order of the entries if no entry changes what
another one has put in, and only then.

## Implementation notes

A value moves at most once in a run through the entries: it stays until the entry with its own key
comes up, and afterwards every entry that has the replacement as its key leaves it as it is. Both
halves of the argument are the same lemma, `rewriteEach_eq_self`.
-/

namespace DeclGen

namespace Dict

/-- The entry of a key is the only one with this key. -/
theorem get?_eq_some_iff {d : Dict} {k r : Text} : d.get? k = some r ↔ (k, r) ∈ d.entries := by
  rw [get?, List.lookup_eq_some_iff]
  constructor
  · rintro ⟨before, after, hentries, -⟩
    rw [hentries]
    exact List.mem_append_right before List.mem_cons_self
  · intro hmem
    obtain ⟨before, after, hentries⟩ := List.append_of_mem hmem
    refine ⟨before, after, hentries, ?_⟩
    have hnodup := d.nodup_keys
    rw [hentries, List.map_append, List.map_cons, List.nodup_append] at hnodup
    intro e he
    have hne := hnodup.2.2 e.1 (List.mem_map_of_mem he) k List.mem_cons_self
    simpa using hne.symm

theorem get?_eq_none_iff {d : Dict} {k : Text} : d.get? k = none ↔ ∀ e ∈ d.entries, e.1 ≠ k := by
  rw [get?, List.lookup_eq_none_iff]
  constructor
  · intro h e he heq
    simpa [heq] using h e he
  · intro h e he
    simpa using (h e he).symm

/-- A replacement that is itself a key is replaced by itself. -/
def IsIdempotent (d : Dict) : Prop :=
  ∀ k r, d.get? k = some r → ∀ r', d.get? r = some r' → r' = r

theorem isIdempotent_iff (d : Dict) :
    d.IsIdempotent ↔ ∀ e ∈ d.entries, ∀ e' ∈ d.entries, e'.1 = e.2 → e'.2 = e.2 := by
  constructor
  · rintro h ⟨k, r⟩ he ⟨_, r'⟩ he' rfl
    exact h k _ (get?_eq_some_iff.mpr he) r' (get?_eq_some_iff.mpr he')
  · intro h k r hk r' hr
    exact h (k, r) (get?_eq_some_iff.mp hk) (r, r') (get?_eq_some_iff.mp hr) rfl

instance (d : Dict) : Decidable d.IsIdempotent := decidable_of_iff _ d.isIdempotent_iff.symm

end Dict

section Process

/-- A value after one entry was applied to it. -/
def Text.rewrite (e : Text × Text) (v : Text) : Text := if v = e.1 then e.2 else v

/-- A value after entries were applied to it, one after the other. -/
def Text.rewriteEach (es : List (Text × Text)) (v : Text) : Text :=
  es.foldl (fun v e => Text.rewrite e v) v

/-- An attribute after one entry was applied to its value. -/
def Attr.rewrite (e : Text × Text) (a : Attr) : Attr := { a with value := Text.rewrite e a.value }

mutual

/-- A tree in which every value that equals the key of an entry is replaced. -/
def Node.rewrite (e : Text × Text) : Node → Node
  | .hole => .hole
  | .node k as cs => .node k (as.map (Attr.rewrite e)) (Forest.rewrite e cs)

/-- Trees in which every value that equals the key of an entry is replaced. -/
def Forest.rewrite (e : Text × Text) : List Node → List Node
  | [] => []
  | n :: rest => Node.rewrite e n :: Forest.rewrite e rest

end

/-- A forest after entries were applied to the whole of it, one after the other. -/
def Forest.rewriteEach (es : List (Text × Text)) (f : Forest) : Forest :=
  es.foldl (fun f e => Forest.rewrite e f) f

end Process

namespace Text

variable {es : List (Text × Text)} {v r : Text}

theorem rewriteEach_append (es ds : List (Text × Text)) (v : Text) :
    rewriteEach (es ++ ds) v = rewriteEach ds (rewriteEach es v) :=
  List.foldl_append

/-- A value stays as it is when the entries that have it as their key put it back. -/
theorem rewriteEach_eq_self (h : ∀ e ∈ es, e.1 = v → e.2 = v) : rewriteEach es v = v := by
  induction es with
  | nil => rfl
  | cons e es ih =>
      have hhead : rewrite e v = v := by
        rw [rewrite]
        split
        · next heq => exact h e List.mem_cons_self heq.symm
        · rfl
      calc rewriteEach (e :: es) v
          = rewriteEach es (rewrite e v) := rfl
        _ = rewriteEach es v := by rw [hhead]
        _ = v := ih fun e he => h e (List.mem_cons_of_mem _ he)

/-- A value with an entry ends as its replacement if no entry changes that again. -/
theorem rewriteEach_eq_of_mem (hnodup : (es.map Prod.fst).Nodup) (hmem : (v, r) ∈ es)
    (hfixed : ∀ e ∈ es, e.1 = r → e.2 = r) : rewriteEach es v = r := by
  obtain ⟨before, after, rfl⟩ := List.append_of_mem hmem
  rw [List.map_append, List.map_cons, List.nodup_append] at hnodup
  have hbefore : rewriteEach before v = v := by
    apply rewriteEach_eq_self
    intro e he heq
    exact absurd heq (hnodup.2.2 e.1 (List.mem_map_of_mem he) v List.mem_cons_self)
  have hentry : rewrite (v, r) v = r := if_pos rfl
  have hafter : rewriteEach after r = r := by
    apply rewriteEach_eq_self
    intro e he
    exact hfixed e (List.mem_append_right before (List.mem_cons_of_mem _ he))
  calc rewriteEach (before ++ (v, r) :: after) v
      = rewriteEach after (rewrite (v, r) (rewriteEach before v)) := rewriteEach_append before _ v
    _ = r := by rw [hbefore, hentry, hafter]

end Text

namespace Dict

variable {d : Dict} {es : List (Text × Text)}

theorem nodup_keys_of_perm (h : es.Perm d.entries) : (es.map Prod.fst).Nodup :=
  (h.map Prod.fst).nodup_iff.mpr d.nodup_keys

/-- The entries of a dictionary with idempotent look-ups, in any order, replace a value by what its
look-up gives. -/
theorem IsIdempotent.rewriteEach_eq (hd : d.IsIdempotent) (h : es.Perm d.entries) (v : Text) :
    Text.rewriteEach es v = (d.get? v).getD v := by
  cases hv : d.get? v with
  | none =>
      apply Text.rewriteEach_eq_self
      intro e he heq
      exact absurd heq (get?_eq_none_iff.mp hv e (h.mem_iff.mp he))
  | some r =>
      apply Text.rewriteEach_eq_of_mem (nodup_keys_of_perm h)
      · exact h.mem_iff.mpr (get?_eq_some_iff.mp hv)
      · rintro ⟨k, r'⟩ he rfl
        exact hd v k hv r' (get?_eq_some_iff.mpr (h.mem_iff.mp he))

/-- Two entries can be taken first and last. -/
theorem exists_perm_between {a b : Text × Text} (ha : a ∈ es) (hb : b ∈ es) (hne : b ≠ a) :
    ∃ rest, (a :: (rest ++ [b])).Perm es := by
  have hb' : b ∈ es.erase a := (List.mem_erase_of_ne hne).mpr hb
  refine ⟨(es.erase a).erase b, ?_⟩
  apply List.Perm.trans (.cons a ?_) (List.perm_cons_erase ha).symm
  exact (List.perm_append_singleton _ _).trans (List.perm_cons_erase hb').symm

/-- Where a look-up is not idempotent, an order in which the entry of the replacement comes last
replaces it once more. -/
theorem exists_rewriteEach_ne (hd : ¬ d.IsIdempotent) :
    ∃ es v, es.Perm d.entries ∧ Text.rewriteEach es v ≠ (d.get? v).getD v := by
  simp only [IsIdempotent, Classical.not_forall] at hd
  obtain ⟨k, r, hk, r', hr, hne⟩ := hd
  have hdiffer : (r, r') ≠ (k, r) := by
    intro heq
    exact hne (Prod.mk.inj heq).2
  obtain ⟨rest, hperm⟩ := exists_perm_between (get?_eq_some_iff.mp hk) (get?_eq_some_iff.mp hr)
    hdiffer
  refine ⟨_, k, hperm, ?_⟩
  -- no entry in between has the replacement as its key, because the last one does
  have hrest : Text.rewriteEach rest r = r := by
    have hnodup := nodup_keys_of_perm hperm
    rw [List.map_cons, List.map_append, List.nodup_cons, List.nodup_append] at hnodup
    apply Text.rewriteEach_eq_self
    intro e he heq
    exact absurd heq (hnodup.2.2.2 e.1 (List.mem_map_of_mem he) r List.mem_cons_self)
  have hrun : Text.rewriteEach ((k, r) :: (rest ++ [(r, r')])) k = r' := by
    calc Text.rewriteEach ((k, r) :: (rest ++ [(r, r')])) k
        = Text.rewriteEach (rest ++ [(r, r')]) r :=
          congrArg (Text.rewriteEach (rest ++ [(r, r')])) (if_pos rfl)
      _ = Text.rewrite (r, r') (Text.rewriteEach rest r) := Text.rewriteEach_append rest _ r
      _ = Text.rewrite (r, r') r := by rw [hrest]
      _ = r' := if_pos rfl
  rw [hrun, hk]
  exact hne

end Dict

namespace Forest

variable (es ds : List (Text × Text))

theorem rewriteEach_append (f : Forest) :
    rewriteEach (es ++ ds) f = rewriteEach ds (rewriteEach es f) :=
  List.foldl_append

theorem rewriteEach_nil : rewriteEach es [] = [] := by
  induction es with
  | nil => rfl
  | cons e es ih => exact ih

theorem rewriteEach_hole (rest : Forest) :
    rewriteEach es (.hole :: rest) = .hole :: rewriteEach es rest := by
  induction es generalizing rest with
  | nil => rfl
  | cons e es ih => exact ih (rewrite e rest)

/-- Going through the entries over a whole forest is going through them at every value. -/
theorem rewriteEach_node (k : Kind) (as : List Attr) (cs : List Node) (rest : Forest) :
    rewriteEach es (.node k as cs :: rest) =
      .node k (as.map fun a => { a with value := Text.rewriteEach es a.value })
        (rewriteEach es cs) :: rewriteEach es rest := by
  induction es generalizing as cs rest with
  | nil => simp [Text.rewriteEach, rewriteEach]
  | cons e es ih =>
      refine (ih (as.map (Attr.rewrite e)) (rewrite e cs) (rewrite e rest)).trans ?_
      rw [List.map_map]
      rfl

/-- Entries that replace single values as a substitution does replace a forest as it does. -/
theorem rewriteEach_eq_apply {es : List (Text × Text)} {s : Substitution}
    (h : ∀ v, Text.rewriteEach es v = s.resolve v) (f : Forest) : rewriteEach es f = s.apply f := by
  induction f using Forest.induction with
  | nil => exact rewriteEach_nil es
  | hole rest ih =>
      rw [rewriteEach_hole, ih]
      rfl
  | node k as cs rest ihc ihr =>
      rw [rewriteEach_node, ihc, ihr]
      simp only [h]
      rfl

end Forest

namespace Substitution

/-- Replacing over the whole forest, entry by entry, first by all types and then by all names, is
applying the substitution, in every order of the entries, when look-ups are idempotent. For a
dictionary whose look-ups are not, some order of its entries gives another value. -/
theorem apply_eq_entry_by_entry :
    (∀ s : Substitution, s.types.IsIdempotent → s.names.IsIdempotent →
      ∀ (f : Forest) (types names : List (Text × Text)),
        types.Perm s.types.entries → names.Perm s.names.entries →
          (f.rewriteEach types).rewriteEach names = s.apply f) ∧
    ∀ d : Dict, ¬ d.IsIdempotent →
      ∃ es v, es.Perm d.entries ∧ Text.rewriteEach es v ≠ resolve { types := d } v ∧
        Text.rewriteEach es v ≠ resolve { names := d } v := by
  constructor
  · intro s htypes hnames f types names ht hn
    rw [← Forest.rewriteEach_append]
    apply Forest.rewriteEach_eq_apply
    intro v
    rw [Text.rewriteEach_append, htypes.rewriteEach_eq ht, hnames.rewriteEach_eq hn]
    rfl
  · intro d hd
    obtain ⟨es, v, hperm, hne⟩ := Dict.exists_rewriteEach_ne hd
    exact ⟨es, v, hperm, hne, hne⟩

/-- Types of which one replaces another and one the empty text, and names that replace both of these
again. -/
def cascade : Substitution where
  types := .ofList [(.ofString "Int32", .ofString "Number"),
    (.ofString "Number", .ofString "Number"), ([], .ofString "void")]
  names := .ofList [(.ofString "Number", .ofString "num"), (.ofString "void", [])]

/-- A dictionary in which one replacement is the key of another entry. -/
def chain : Dict := .ofList [(.ofString "A", .ofString "B"), (.ofString "B", .ofString "C")]

/-- A forest with values that `cascade` replaces once, twice and not at all. -/
def cascadeForest : Forest :=
  [.hole, .node .struct [⟨.name, .ofString "Int32"⟩, ⟨.decoration, []⟩]
    [.node .var [⟨.type, .ofString "Number"⟩, ⟨.name, .ofString "x"⟩] []]]

theorem cascade_entry_by_entry :
    cascade.types.IsIdempotent ∧ cascade.names.IsIdempotent ∧ ¬ chain.IsIdempotent ∧
      (cascadeForest.rewriteEach cascade.types.entries.reverse).rewriteEach
        cascade.names.entries.reverse = cascade.apply cascadeForest ∧
      ∃ es v, es.Perm chain.entries ∧ Text.rewriteEach es v ≠ resolve { types := chain } v ∧
        Text.rewriteEach es v ≠ resolve { names := chain } v := by
  have htypes : cascade.types.IsIdempotent := by decide
  have hnames : cascade.names.IsIdempotent := by decide
  have hchain : ¬ chain.IsIdempotent := by decide
  refine ⟨htypes, hnames, hchain, ?_, apply_eq_entry_by_entry.2 chain hchain⟩
  apply apply_eq_entry_by_entry.1 cascade htypes hnames
  · exact List.reverse_perm _
  · exact List.reverse_perm _

end Substitution

end DeclGen
