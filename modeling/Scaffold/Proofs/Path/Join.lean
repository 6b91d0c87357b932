import Scaffold.Path
import Scaffold.Proofs.Text.Split

/-!
# Joining names to paths

A plain name is one piece of a path that stays where it is joined. Joining one adds exactly this
piece (`names_joinName`) and keeps where the path starts (`isAbsolute_joinName`), and it makes no
difference whether it is joined before or after the path is joined to a root (`join_joinName`).
Names joined to a name are written with slashes between them (`joinNames_eq_intercalate`).
-/

namespace Scaffold

/-- A name that is not empty, is neither of the names with a meaning of their own, and holds no
character that paths treat specially. -/
structure PlainName (s : String) : Prop where
  ne_empty : s ≠ ""
  ne_here : s ≠ "."
  ne_up : s ≠ ".."
  no_slash : '/' ∉ s.toList
  no_backslash : '\\' ∉ s.toList
  no_null : '\x00' ∉ s.toList

theorem isPlainSegment_iff {s : String} : isPlainSegment s = true ↔ PlainName s := by
  simp only [isPlainSegment, Bool.and_eq_true, bne_iff_ne, Bool.not_eq_true', List.any_eq_false,
    Bool.or_eq_true, beq_iff_eq, not_or]
  constructor
  · rintro ⟨⟨⟨h₁, h₂⟩, h₃⟩, h⟩
    exact ⟨h₁, h₂, h₃, fun hc => (h _ hc).1.1 rfl, fun hc => (h _ hc).1.2 rfl,
      fun hc => (h _ hc).2 rfl⟩
  · intro h
    refine ⟨⟨⟨h.ne_empty, h.ne_here⟩, h.ne_up⟩, fun c hc => ⟨⟨?_, ?_⟩, ?_⟩⟩
    · rintro rfl; exact h.no_slash hc
    · rintro rfl; exact h.no_backslash hc
    · rintro rfl; exact h.no_null hc

instance (s : String) : Decidable (PlainName s) := decidable_of_iff _ isPlainSegment_iff

namespace PlainName

variable {s : String}

theorem toList_ne_nil (h : PlainName s) : s.toList ≠ [] := fun hs =>
  h.ne_empty (String.toList_eq_nil_iff.1 hs)

theorem toList_ne_here (h : PlainName s) : s.toList ≠ ['.'] := fun hs =>
  h.ne_here (String.toList_injective hs)

theorem toList_ne_up (h : PlainName s) : s.toList ≠ ['.', '.'] := fun hs =>
  h.ne_up (String.toList_injective hs)

theorem isAbsolute_eq_false (h : PlainName s) : (Path.mk s).isAbsolute = false := by
  rw [Path.isAbsolute, beq_eq_false_iff_ne]
  intro hs
  exact h.no_slash (List.mem_of_head? hs)

end PlainName

namespace Path

variable {p q : Path} {n : String} {ns : List String}

/-- The path with names joined to it one after the other. -/
def joinNames (p : Path) (ns : List String) : Path := ns.foldl joinName p

@[simp] theorem joinNames_nil (p : Path) : p.joinNames [] = p := rfl

@[simp] theorem joinNames_append (p : Path) (ns ms : List String) :
    p.joinNames (ns ++ ms) = (p.joinNames ns).joinNames ms := List.foldl_append ..

@[simp] theorem joinNames_singleton (p : Path) (n : String) : p.joinNames [n] = p.joinName n := rfl

/-- The text of a path that another one is joined to, with a slash at its end unless it is empty. -/
def lead (p : Path) : List Char :=
  if p.text = "" ∨ p.text.toList.getLast? = some '/' then p.text.toList else p.text.toList ++ ['/']

theorem toList_join (h : q.isAbsolute = false) :
    (p.join q).text.toList = p.lead ++ q.text.toList := by
  simp only [join, h, lead]
  by_cases hp : p.text = "" ∨ p.text.toList.getLast? = some '/'
  · simp [hp]
  · simp [hp]

theorem toList_joinName (hn : PlainName n) : (p.joinName n).text.toList = p.lead ++ n.toList :=
  toList_join hn.isAbsolute_eq_false

theorem names_of_text {cs : List Char} (h : p.text.toList = cs) :
    p.names = (Text.splitAll '/' cs).filter (· != []) := by rw [names, pieces, h]

/-- **Joining a plain name adds exactly this name.** -/
theorem names_joinName (hn : PlainName n) : (p.joinName n).names = p.names ++ [n.toList] := by
  have hsplit : (Text.splitAll '/' n.toList).filter (· != []) = [n.toList] := by
    rw [Text.splitAll_of_not_mem hn.no_slash]
    simpa using hn.toList_ne_nil
  rw [names_of_text (toList_joinName hn), lead]
  -- the slash between is there already, or is put there, or is not needed
  split
  next h =>
    rcases h with h | h
    · rw [names_of_text (p := p) rfl, h]
      simpa [Text.splitAll] using hsplit
    · obtain ⟨a, ha⟩ := List.getLast?_eq_some_iff.1 h
      rw [names_of_text ha, ha, List.append_assoc, List.singleton_append, Text.splitAll_append,
        Text.splitAll_append, List.filter_append, List.filter_append, hsplit]
      simp [Text.splitAll]
  · rw [List.append_assoc, List.singleton_append, Text.splitAll_append, List.filter_append, hsplit,
      ← names_of_text rfl]

/-- A path with another end than a slash has names. -/
theorem names_ne_nil (hp : p.text ≠ "") (hlast : p.text.toList.getLast? ≠ some '/') :
    p.names ≠ [] := by
  obtain ⟨cs, c, hc⟩ := (List.eq_nil_or_concat p.text.toList).resolve_left
    (mt String.toList_eq_nil_iff.1 hp)
  rw [List.concat_eq_append] at hc
  have hne : c ≠ '/' := fun h => hlast (by rw [hc, h, List.getLast?_concat])
  have hmem : c ∈ p.text.toList := by simp [hc]
  obtain ⟨piece, hpiece, hmem⟩ := (Text.exists_mem_splitAll hne).2 hmem
  refine List.ne_nil_of_mem (a := piece) (List.mem_filter.2 ⟨hpiece, ?_⟩)
  simpa using List.ne_nil_of_mem hmem

theorem isAbsolute_join (hp : p.text ≠ "") (hq : q.isAbsolute = false) :
    (p.join q).isAbsolute = p.isAbsolute := by
  obtain ⟨c, r, hc⟩ := List.exists_cons_of_ne_nil (mt String.toList_eq_nil_iff.1 hp)
  rw [isAbsolute, toList_join hq, isAbsolute, lead]
  split <;> simp [hc]

theorem isAbsolute_joinName (hn : PlainName n) : (p.joinName n).isAbsolute = p.isAbsolute := by
  by_cases hp : p.text = ""
  · have hq := hn.isAbsolute_eq_false
    rw [isAbsolute, toList_joinName hn, lead, isAbsolute, hp]
    simpa [isAbsolute] using hq
  · exact isAbsolute_join hp hn.isAbsolute_eq_false

theorem getLast?_joinName (hn : PlainName n) : (p.joinName n).text.toList.getLast? ≠ some '/' := by
  rw [toList_joinName hn, List.getLast?_append, List.getLast?_eq_some_getLast hn.toList_ne_nil,
    Option.some_or]
  intro h
  exact hn.no_slash (Option.some.inj h ▸ List.getLast_mem hn.toList_ne_nil)

theorem text_joinName_ne_empty (hn : PlainName n) : (p.joinName n).text ≠ "" := by
  intro h
  have hl := toList_joinName (p := p) hn
  rw [h] at hl
  exact hn.toList_ne_nil (List.append_eq_nil_iff.1 hl.symm).2

theorem null_mem_joinName (hn : PlainName n) :
    '\x00' ∈ (p.joinName n).text.toList ↔ '\x00' ∈ p.text.toList := by
  rw [toList_joinName hn, lead]
  split <;> simp [hn.no_null]

theorem lead_of_ne_empty (hp : p.text ≠ "") : p.lead =
    if p.text.toList.getLast? = some '/' then p.text.toList else p.text.toList ++ ['/'] := by
  simp only [lead, hp, false_or]

theorem lead_join (hp : p.text ≠ "") (ha : p.isAbsolute = false) :
    (q.join p).lead = q.lead ++ p.lead := by
  have hne : p.text.toList ≠ [] := mt String.toList_eq_nil_iff.1 hp
  have hj : (q.join p).text ≠ "" := by
    intro h
    have hl := toList_join (p := q) ha
    rw [h] at hl
    exact hne (List.append_eq_nil_iff.1 hl.symm).2
  have hlast : (q.join p).text.toList.getLast? = p.text.toList.getLast? := by
    rw [toList_join ha, List.getLast?_append, List.getLast?_eq_some_getLast hne, Option.some_or]
  rw [lead_of_ne_empty hj, lead_of_ne_empty hp, hlast, toList_join ha]
  split
  · rfl
  · rw [List.append_assoc]

/-- **The text of names that are joined** one after the other. -/
theorem toList_joinNames (hn : ∀ n ∈ ns, PlainName n) (hne : ns ≠ []) :
    (p.joinNames ns).text.toList = p.lead ++ ['/'].intercalate (ns.map String.toList) := by
  induction ns generalizing p with
  | nil => exact absurd rfl hne
  | cons n r ih =>
    rw [List.forall_mem_cons] at hn
    have hjoin : (p.joinName n).text.toList = p.lead ++ n.toList := toList_joinName hn.1
    cases r with
    | nil => simpa using hjoin
    | cons k r =>
      have hlead : (p.joinName n).lead = p.lead ++ n.toList ++ ['/'] := by
        rw [lead_of_ne_empty (text_joinName_ne_empty hn.1), if_neg (getLast?_joinName hn.1), hjoin]
      have hrest : (p.joinNames (n :: k :: r)).text.toList =
          (p.joinName n).lead ++ ['/'].intercalate ((k :: r).map String.toList) :=
        ih hn.2 (List.cons_ne_nil _ _)
      rw [hrest, hlead, List.map_cons, List.map_cons, List.map_cons, List.intercalate_cons_cons]
      simp only [List.append_assoc]

/-- Plain names below one another are written with one slash between each two of them. -/
theorem joinNames_eq_intercalate (hn : PlainName n) (hns : ∀ m ∈ ns, PlainName m) :
    (Path.mk n).joinNames ns = ⟨"/".intercalate (n :: ns)⟩ := by
  have hlast : n.toList.getLast? ≠ some '/' := fun h => hn.no_slash (List.mem_of_getLast? h)
  have hlead : (Path.mk n).lead = n.toList ++ ['/'] := by
    rw [lead_of_ne_empty hn.ne_empty, if_neg hlast]
  cases ns with
  | nil => simp
  | cons m r =>
    have htext := toList_joinNames (p := Path.mk n) hns (List.cons_ne_nil m r)
    rw [hlead] at htext
    refine congrArg Path.mk (String.toList_injective (htext.trans ?_))
    simp

/-- **Joining a root and a name commute**: the name may be joined to the path first. -/
theorem join_joinName {root : Path} (hp : p.text ≠ "") (hn : PlainName n) :
    root.join (p.joinName n) = (root.join p).joinName n := by
  cases ha : p.isAbsolute with
  | true =>
    have haj : (p.joinName n).isAbsolute = true := by rw [isAbsolute_joinName hn, ha]
    simp only [join, haj, ha, if_true]
  | false =>
    have haj : (p.joinName n).isAbsolute = false := by rw [isAbsolute_joinName hn, ha]
    have ht : (root.join (p.joinName n)).text.toList = ((root.join p).joinName n).text.toList := by
      rw [toList_join haj, toList_joinName hn, toList_joinName hn, lead_join hp ha,
        List.append_assoc]
    exact congrArg Path.mk (String.toList_injective ht)

end Path

end Scaffold
