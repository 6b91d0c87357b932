import Scaffold.Proofs.Store.Names

/-!
# Stores in memory

A store that has been filled by some insertions, in any order, has the groups that were named and
lists for each tag the modes that were inserted. Under the name of a template it finds the template
that was inserted last for its tag and mode, if the tag holds no slash (`insertions_found`); for a tag
that holds one it looks under another tag and mode.
-/

namespace Scaffold.MemoryStore

/-- Something that is put into a store. -/
inductive Insertion
  | template (tag mode source : String)
  | group (tag : String)
  | macroFile (name source : String)

/-- The tag that an insertion makes a group for, if it does not have one. -/
def Insertion.tag? : Insertion → Option String
  | template tag _ _ => some tag
  | group tag => some tag
  | macroFile _ _ => none

def add (s : MemoryStore) : Insertion → MemoryStore
  | .template tag mode source => s.insert tag mode source
  | .group tag => s.insertGroup tag
  | .macroFile name source => s.insertMacro name source

/-- The store that insertions fill, one after the other. -/
def ofInsertions (is : List Insertion) : MemoryStore := is.foldl add empty

/-- The template for a tag and a mode. -/
def template? (s : MemoryStore) (tag mode : String) : Option String :=
  (s.groups.lookup tag).bind fun group => group.lookup mode

variable {s : MemoryStore} {tag mode source : String} {i : Insertion}

theorem mem_tags : tag ∈ s.tags ↔ tag ∈ Entries.keys s.groups := mem_distinctSorted

theorem mem_modes? : (∃ ms, s.modes? tag = some ms ∧ mode ∈ ms) ↔
    (s.template? tag mode).isSome := by
  rw [modes?, template?]
  cases s.groups.lookup tag with
  | none => simp
  | some group =>
    simp only [Option.map_some, Option.some.injEq, exists_eq_left', Option.bind_some,
      mem_distinctSorted, Entries.isSome_lookup]

/-- What is under a name: the template whose tag ends at the first slash, or else a macro. -/
theorem source?_append (h : '/' ∉ tag.toList) (rest : String) :
    s.source? (templateName tag rest) =
      (s.template? tag rest).or (s.macros.lookup (templateName tag rest)) := by
  rw [source?, splitTemplateName?_templateName h]
  rfl

/-! ### One insertion -/

theorem mem_keys_add : tag ∈ Entries.keys (s.add i).groups ↔
    i.tag? = some tag ∨ tag ∈ Entries.keys s.groups := by
  cases i with
  | template t m x => simp [add, insert, Entries.mem_keys_insert, Insertion.tag?, eq_comm]
  | group t =>
    rw [add, insertGroup]
    cases h : s.groups.lookup t with
    | none => simp [Insertion.tag?, eq_comm, or_comm]
    | some group =>
      have ht : t ∈ Entries.keys s.groups := Entries.isSome_lookup.1 (by simp [h])
      simp only [Insertion.tag?, Option.some.injEq]
      exact ⟨.inr, fun hk => hk.elim (fun hk => hk ▸ ht) id⟩
  | macroFile n x => simp [add, insertMacro, Insertion.tag?]

theorem template?_insert (t m : String) : (s.insert tag mode source).template? t m =
    if t = tag ∧ m = mode then some source else s.template? t m := by
  rw [template?, insert]
  by_cases ht : t = tag
  · subst ht
    rw [Entries.lookup_insert_self, Option.bind_some]
    by_cases hm : m = mode
    · subst hm
      simp [Entries.lookup_insert_self]
    · rw [Entries.lookup_insert_of_ne _ _ hm, template?]
      cases s.groups.lookup t <;> simp [hm]
  · rw [Entries.lookup_insert_of_ne _ _ ht, template?]
    simp [ht]

/-- **Only a template for the same tag and mode** takes the place of a template. -/
theorem template?_add (h : ∀ x, i ≠ .template tag mode x) :
    (s.add i).template? tag mode = s.template? tag mode := by
  cases i with
  | template t m x =>
    rw [add, template?_insert, if_neg]
    rintro ⟨rfl, rfl⟩
    exact h x rfl
  | group t =>
    rw [add, insertGroup]
    cases ht : s.groups.lookup t with
    | some group => rfl
    | none =>
      rw [template?, template?, List.lookup_append]
      cases hg : s.groups.lookup tag with
      | some group => rfl
      | none =>
        by_cases hk : tag = t
        · simp [hk]
        · have hb : (tag == t) = false := by simpa using hk
          simp [List.lookup_cons, hb]
  | macroFile n x => rfl

/-! ### All insertions -/

theorem mem_keys_foldl (is : List Insertion) (s : MemoryStore) :
    tag ∈ Entries.keys (is.foldl add s).groups ↔
      (∃ i ∈ is, i.tag? = some tag) ∨ tag ∈ Entries.keys s.groups := by
  induction is generalizing s with
  | nil => simp
  | cons i is ih =>
    rw [List.foldl_cons, ih, mem_keys_add]
    simp only [List.mem_cons, exists_eq_or_imp]
    rw [or_left_comm, or_assoc]

theorem isSome_template?_foldl (is : List Insertion) (s : MemoryStore) :
    ((is.foldl add s).template? tag mode).isSome ↔
      (∃ x, .template tag mode x ∈ is) ∨ (s.template? tag mode).isSome := by
  induction is generalizing s with
  | nil => simp
  | cons i is ih =>
    rw [List.foldl_cons, ih]
    -- only an insertion for this tag and mode makes the template be there
    by_cases hi : ∃ x, i = .template tag mode x
    · obtain ⟨x, rfl⟩ := hi
      simp [add, template?_insert]
    · rw [not_exists] at hi
      have hmem : ∀ x, Insertion.template tag mode x ∈ i :: is ↔ .template tag mode x ∈ is :=
        fun x => List.mem_cons.trans (or_iff_right (Ne.symm (hi x)))
      simp only [template?_add hi, hmem]

theorem template?_foldl {is : List Insertion} (h : ∀ x, .template tag mode x ∉ is)
    (s : MemoryStore) : (is.foldl add s).template? tag mode = s.template? tag mode := by
  induction is generalizing s with
  | nil => rfl
  | cons i is ih =>
    have hi : ∀ x, i ≠ .template tag mode x := fun x hx => h x (hx ▸ List.mem_cons_self)
    rw [List.foldl_cons, ih fun x hx => h x (List.mem_cons_of_mem i hx), template?_add hi]

/-- **What is found of insertions.** The tags are those that were inserted, and the modes of a tag
are those of its templates. The name of a template leads to the last one that was inserted for its tag
and mode, whatever else was inserted, unless the tag holds a slash: then it leads to a template for
what comes before the first slash, or to a macro. -/
theorem insertions_found (is : List Insertion) :
    (∀ tag, tag ∈ (ofInsertions is).tags ↔ ∃ i ∈ is, i.tag? = some tag) ∧
    (∀ tag mode, (∃ ms, (ofInsertions is).modes? tag = some ms ∧ mode ∈ ms) ↔
      ∃ source, .template tag mode source ∈ is) ∧
    (∀ before after tag mode source, is = before ++ .template tag mode source :: after →
      (∀ other, .template tag mode other ∉ after) → '/' ∉ tag.toList →
      (ofInsertions is).source? (templateName tag mode) = some source) ∧
    ∀ front back mode, '/' ∉ front.toList →
      (ofInsertions is).source? (templateName (front ++ "/" ++ back) mode) =
        ((ofInsertions is).template? front (back ++ "/" ++ mode)).or
          ((ofInsertions is).macros.lookup (templateName (front ++ "/" ++ back) mode)) := by
  refine ⟨fun tag => ?_, fun tag mode => ?_, ?_, ?_⟩
  · rw [mem_tags, ofInsertions, mem_keys_foldl]
    simp [empty]
  · rw [mem_modes?, ofInsertions, isSome_template?_foldl]
    simp [empty, template?]
  · rintro before after tag mode source rfl hlast htag
    -- what came before is replaced, and what comes after is for other tags and modes
    have hfound : (ofInsertions (before ++ .template tag mode source :: after)).template? tag mode =
        some source := by
      rw [ofInsertions, List.foldl_append, List.foldl_cons, template?_foldl hlast, add,
        template?_insert, if_pos ⟨rfl, rfl⟩]
    rw [source?_append htag, hfound, Option.some_or]
  · intro front back mode hfront
    have hname : templateName (front ++ "/" ++ back) mode =
        templateName front (back ++ "/" ++ mode) := by simp [templateName, String.append_assoc]
    rw [hname, source?_append hfront]

/-- A template that takes the place of another one, next to a macro of the same name. -/
theorem insertions_found_replaced :
    (ofInsertions [.template "a" "m" "old", .macroFile "a/m.jinja" "macro",
      .template "a" "m" "new", .group "a", .template "b" "m" "other"]).source?
        (templateName "a" "m") = some "new" :=
  (insertions_found _).2.2.1
    [.template "a" "m" "old", .macroFile "a/m.jinja" "macro"] [.group "a", .template "b" "m" "other"]
    "a" "m" "new" rfl (by simp) (by decide)

/-- A tag with a slash: its mode is listed, but its template is not found. -/
theorem insertion_slashed :
    (ofInsertions [.template "a/b" "m" "text"]).modes? "a/b" = some ["m"] ∧
      (ofInsertions [.template "a/b" "m" "text"]).source? (templateName "a/b" "m") = none := by
  decide +kernel

end Scaffold.MemoryStore
