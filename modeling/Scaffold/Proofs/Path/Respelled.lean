import Mathlib.Data.List.Forall2
import Scaffold.Proofs.Path.Components
import Scaffold.Proofs.Path.Parent

/-!
# The same path in two spellings

The parent of a path has all of its components but the last (`components_of_parent?`), and its text
is a prefix (`parent?_begins`). So paths that are the same have parents that are, all the way up: the
paths that they lie in are the same one by one (`Respelled.forall₂_ancestors`). All of these but the
path itself end in a component (`trimmed_parent?`).
-/

namespace Scaffold.Path

variable {p q : Path} {b : Bool} {ps qs : List (List Char)} {x : List Char}

/-! ### The components of a relative path, from the end on -/

/-- The components that the pieces of a relative path stand for; the pieces are listed from the
end. -/
def readBack (qs : List (List Char)) : List PathComponent :=
  (if qs.getLast? = some ['.'] then [.here] else []) ++ (qs.filterMap component?).reverse

theorem components_of_relative (h : p.isAbsolute = false) :
    p.components = readBack p.pieces.reverse := by
  rw [components_eq, steps, names, ← filterMap_component?, start, readBack, List.getLast?_reverse,
    List.filterMap_reverse, List.reverse_reverse]
  simp [h]

theorem components_of_absolute (h : p.isAbsolute = true) :
    p.components = .root :: (p.pieces.reverse.filterMap component?).reverse := by
  rw [components, if_pos h, List.filterMap_reverse, List.reverse_reverse]

theorem component?_ne_root (x : List Char) : component? x ≠ some .root := by
  rw [component?]
  split
  · simp
  · split <;> simp

theorem filterMap_dropNone (b : Bool) (qs : List (List Char)) :
    (dropNone b qs).filterMap component? = qs.filterMap component? := by
  induction qs with
  | nil => rfl
  | cons y t ih =>
    simp only [dropNone]
    split
    · rfl
    next hy =>
      split
      next h =>
        simp only [Bool.and_eq_true, List.isEmpty_iff] at h
        rw [h.1.2]
      · rw [ih, List.filterMap_cons_none (Option.not_isSome_iff_eq_none.1 hy)]

theorem readBack_dropNone (qs : List (List Char)) : readBack (dropNone true qs) = readBack qs := by
  induction qs with
  | nil => rfl
  | cons y t ih =>
    simp only [dropNone]
    split
    · rfl
    next hy =>
      split
      next h =>
        simp only [Bool.and_eq_true, List.isEmpty_iff, beq_iff_eq] at h
        rw [h.1.2]
      next h =>
        rw [ih, readBack, readBack, List.filterMap_cons_none (Option.not_isSome_iff_eq_none.1 hy)]
        -- a piece that is passed over is not the leading dot
        congr 1
        cases t with
        | nil =>
          have hdot : y ≠ ['.'] := by simpa using h
          simp [hdot]
        | cons z t => rw [List.getLast?_cons_cons]

/-- What is left in front is a component, or the leading dot. -/
theorem head_of_dropNone (h : dropNone b qs = x :: ps) :
    (component? x).isSome ∨ b = true ∧ x = ['.'] ∧ ps = [] := by
  induction qs with
  | nil => cases h
  | cons y t ih =>
    simp only [dropNone] at h
    split at h
    next hy => exact .inl ((List.cons.inj h).1 ▸ hy)
    · split at h
      next hb =>
        simp only [Bool.and_eq_true, beq_iff_eq] at hb
        obtain ⟨rfl, rfl⟩ := List.cons.inj h
        exact .inr ⟨hb.1.1, hb.2, rfl⟩
      · exact ih h

theorem readBack_cons (h : (component? x).isSome ∨ b = true ∧ x = ['.'] ∧ ps = []) :
    ∃ c, c ≠ .root ∧ readBack (x :: ps) = readBack ps ++ [c] := by
  rcases h with h | ⟨-, rfl, rfl⟩
  · obtain ⟨c, hc⟩ := Option.isSome_iff_exists.1 h
    refine ⟨c, fun hroot => component?_ne_root x (hroot ▸ hc), ?_⟩
    rw [readBack, readBack, List.filterMap_cons_some hc, List.reverse_cons, ← List.append_assoc]
    congr 2
    cases ps with
    | nil =>
      have hdot : x ≠ ['.'] := by
        rintro rfl
        simp [component?] at hc
      simp [hdot]
    | cons y ps => rw [List.getLast?_cons_cons]
  · exact ⟨.here, by simp, rfl⟩

/-! ### Parents -/

/-- A relative path that is made of pieces of another one. -/
theorem components_ofReversed (ha : p.isAbsolute = false) (h : ps <:+ p.pieces.reverse) :
    (mk (ofReversed ps)).components = readBack ps := by
  by_cases hne : ps = []
  · subst hne
    rfl
  · have hrelative : (mk (ofReversed ps)).isAbsolute = false := by
      rw [Bool.eq_false_iff]
      intro hq
      rw [isAbsolute_of_ofReversed hne h hq] at ha
      cases ha
    rw [components_of_relative hrelative, pieces_ofReversed hne h, List.reverse_reverse]

/-- **How the parent of a path comes about**: from its last component on, the pieces that stand for
none are taken away, then this component, and then again. -/
theorem parent?_cases (h : p.parent? = some q) : ∃ x r,
    dropNone (!p.isAbsolute) p.pieces.reverse = x :: r ∧
      (q = ⟨ofReversed (dropNone (!p.isAbsolute) r)⟩ ∧
          (p.isAbsolute = true → dropNone false r ≠ []) ∨
        q = ⟨"/"⟩ ∧ p.isAbsolute = true ∧ dropNone false r = []) := by
  unfold parent? at h
  split at h
  next ha =>
    rw [ha]
    split at h
    · cases h
    next x r hd =>
      refine ⟨x, r, hd, ?_⟩
      split at h
      next hnil => exact .inr ⟨(Option.some.inj h).symm, rfl, hnil⟩
      next hne => exact .inl ⟨(Option.some.inj h).symm, fun _ => hne⟩
  next ha =>
    rw [Bool.eq_false_iff.2 ha]
    split at h
    · cases h
    next x r hd => exact ⟨x, r, hd, .inl ⟨(Option.some.inj h).symm, by simp⟩⟩

theorem suffix_of_dropNone (h : dropNone b p.pieces.reverse = x :: ps) :
    dropNone b ps <:+ p.pieces.reverse :=
  ((dropNone_suffix b ps).trans (List.suffix_cons x ps)).trans (h ▸ dropNone_suffix b _)

/-- **The parent of a path has all its components but the last**, which is not the root. -/
theorem components_of_parent? (h : p.parent? = some q) :
    ∃ c, c ≠ .root ∧ p.components = q.components ++ [c] := by
  have hstart := (parent?_eq_some h).2
  obtain ⟨x, r, hd, hq⟩ := parent?_cases h
  have hsuffix := suffix_of_dropNone hd
  have hhead := head_of_dropNone hd
  cases ha : p.isAbsolute with
  | true =>
    rw [ha, Bool.not_true] at hd hq hsuffix hhead
    obtain ⟨c, hc⟩ := Option.isSome_iff_exists.1 (hhead.resolve_right (by simp))
    have hback : p.pieces.reverse.filterMap component? = c :: r.filterMap component? := by
      rw [← filterMap_dropNone false, hd, List.filterMap_cons_some hc]
    have hqcomponents : q.components = .root :: (r.filterMap component?).reverse := by
      rw [components_of_absolute (hstart.trans ha), ← filterMap_dropNone false r]
      rcases hq with ⟨rfl, hne⟩ | ⟨rfl, -, hnil⟩
      · rw [pieces_ofReversed (hne rfl) hsuffix, List.reverse_reverse]
      · rw [hnil]
        rfl
    refine ⟨c, fun hroot => component?_ne_root x (hroot ▸ hc), ?_⟩
    rw [components_of_absolute ha, hback, hqcomponents, List.reverse_cons, List.cons_append]
  | false =>
    rw [ha, Bool.not_false] at hd hq hsuffix hhead
    obtain ⟨c, hc, hread⟩ := readBack_cons hhead
    rcases hq with ⟨rfl, -⟩ | ⟨-, htrue, -⟩
    · refine ⟨c, hc, ?_⟩
      rw [components_of_relative ha, ← readBack_dropNone, hd, hread, components_ofReversed ha hsuffix,
        readBack_dropNone]
    · cases htrue

/-- Only a root and the empty path have no parent. -/
theorem components_of_parent?_none (h : p.parent? = none) :
    p.components = [] ∨ p.components = [.root] := by
  cases ha : p.isAbsolute with
  | true =>
    rw [parent?, if_pos ha] at h
    have hnil : dropNone false p.pieces.reverse = [] := by
      cases hd : dropNone false p.pieces.reverse with
      | nil => rfl
      | cons x r =>
        simp only [hd] at h
        split at h <;> cases h
    rw [components_of_absolute ha, ← filterMap_dropNone false, hnil]
    exact .inr rfl
  | false =>
    rw [parent?, if_neg (by simp [ha])] at h
    have hnil : dropNone true p.pieces.reverse = [] := by
      cases hd : dropNone true p.pieces.reverse with
      | nil => rfl
      | cons x r =>
        simp only [hd] at h
        cases h
    rw [components_of_relative ha, ← readBack_dropNone, hnil]
    exact .inl rfl

theorem intercalate_prefix {sep : List Char} (h : ps <+: qs) :
    sep.intercalate ps <+: sep.intercalate qs := by
  induction ps generalizing qs with
  | nil => exact List.nil_prefix
  | cons x ps ih =>
    obtain ⟨qs, rfl, htail⟩ := List.cons_prefix_iff.1 h
    cases ps with
    | nil =>
      cases qs with
      | nil => exact List.prefix_rfl
      | cons y qs =>
        rw [List.intercalate_cons_cons, List.intercalate_singleton, List.append_assoc]
        exact List.prefix_append _ _
    | cons y ps =>
      have hrest := ih htail
      obtain ⟨qs, rfl, -⟩ := List.cons_prefix_iff.1 htail
      rw [List.intercalate_cons_cons, List.intercalate_cons_cons]
      exact (List.prefix_append_right_inj _).2 hrest

/-- **The parent of a path is written as a prefix of it.** -/
theorem parent?_begins (h : p.parent? = some q) : q.text.toList <+: p.text.toList := by
  obtain ⟨x, r, hd, ⟨rfl, -⟩ | ⟨rfl, ha, -⟩⟩ := parent?_cases h
  · have hpieces : (dropNone (!p.isAbsolute) r).reverse <+: p.pieces := by
      have hback := List.reverse_prefix.2 (suffix_of_dropNone hd)
      rwa [List.reverse_reverse] at hback
    have hprefix : ['/'].intercalate _ <+: ['/'].intercalate p.pieces := intercalate_prefix hpieces
    rwa [pieces, Text.intercalate_splitAll, ← toList_ofReversed] at hprefix
  · rw [isAbsolute, beq_iff_eq] at ha
    obtain ⟨cs, hcs⟩ := List.head?_eq_some_iff.1 ha
    rw [hcs]
    exact List.prefix_append ['/'] cs

theorem LiesIn.begins (h : p.LiesIn q) : q.text.toList <+: p.text.toList := by
  induction h with
  | refl => exact List.prefix_rfl
  | tail _ hparent ih => exact (parent?_begins hparent).trans ih

/-! ### Spellings -/

/-- **The path does not end in a dot**, unless it has no steps at all. -/
def Trimmed (p : Path) : Prop :=
  p.steps = [] ∨ ∃ ps last, p.names = ps ++ [last] ∧ last ≠ ['.']

theorem trimmed_joinName {n : String} (hn : PlainName n) : (p.joinName n).Trimmed :=
  .inr ⟨_, _, names_joinName hn, hn.toList_ne_here⟩

theorem trimmed_ofReversed (hh : (component? x).isSome ∨ b = true ∧ x = ['.'] ∧ ps = [])
    (hs : x :: ps <:+ p.pieces.reverse) : (mk (ofReversed (x :: ps))).Trimmed := by
  have hpieces := pieces_ofReversed (List.cons_ne_nil x ps) hs
  rcases hh with hx | ⟨-, rfl, rfl⟩
  · have hne : ¬ (x = [] ∨ x = ['.']) := by
      intro hnone
      rw [component?, if_pos hnone] at hx
      cases hx
    rw [not_or] at hne
    refine .inr ⟨ps.reverse.filter (· != []), x, ?_, hne.2⟩
    rw [names, hpieces, List.reverse_cons, List.filter_append]
    simp [hne.1]
  · exact .inl (by rw [steps, names, hpieces]; rfl)

theorem trimmed_parent? (h : p.parent? = some q) : q.Trimmed := by
  obtain ⟨x, r, hd, ⟨rfl, -⟩ | ⟨rfl, -, -⟩⟩ := parent?_cases h
  · have hs := suffix_of_dropNone hd
    cases hr : dropNone (!p.isAbsolute) r with
    | nil => exact .inl rfl
    | cons y ps =>
      rw [hr] at hs
      exact trimmed_ofReversed (head_of_dropNone hr) hs
  · exact .inl rfl

/-- **Two spellings of one path**, which both do not end in a dot. -/
structure Respelled (p q : Path) : Prop where
  same : p.same q = true
  left : p.Trimmed
  right : q.Trimmed

/-- **The parents of a path in two spellings** are one path in two spellings. -/
theorem parent?_of_same (h : p.same q = true) : p.parent? = none ∧ q.parent? = none ∨
    ∃ p' q', p.parent? = some p' ∧ q.parent? = some q' ∧ Respelled p' q' := by
  have hne : ∀ {p q p' : Path}, p.same q = true → p.parent? = some p' → q.parent? ≠ none := by
    intro p q p' h hp hq
    rw [same, beq_iff_eq] at h
    obtain ⟨c, hc, hcomponents⟩ := components_of_parent? hp
    rw [h] at hcomponents
    rcases components_of_parent?_none hq with hnil | hroot
    · rw [hnil] at hcomponents
      simp at hcomponents
    · rw [hroot] at hcomponents
      have hlast := congrArg List.getLast? hcomponents
      rw [List.getLast?_append] at hlast
      exact hc (Option.some.inj hlast).symm
  cases hp : p.parent? with
  | none =>
    cases hq : q.parent? with
    | none => exact .inl ⟨rfl, rfl⟩
    | some q' => exact absurd hp (hne (same_symm h) hq)
  | some p' =>
    cases hq : q.parent? with
    | none => exact absurd hq (hne h hp)
    | some q' =>
      refine .inr ⟨p', q', rfl, rfl, ?_, trimmed_parent? hp, trimmed_parent? hq⟩
      obtain ⟨c, -, hc⟩ := components_of_parent? hp
      obtain ⟨d, -, hd⟩ := components_of_parent? hq
      rw [same, beq_iff_eq] at h ⊢
      rw [hc, hd] at h
      exact (List.append_inj_left' h rfl)

theorem length_components_le (p : Path) : p.components.length ≤ p.text.length + 1 := by
  have hpieces : p.pieces.length ≤ p.text.length + 1 := by
    rw [← String.length_toList]
    exact Text.length_splitAll_le '/' _
  have hsome : ∀ qs : List (List Char), (qs.filterMap component?).length ≤ qs.length :=
    List.length_filterMap_le _
  rw [components]
  split
  next ha =>
    -- the piece before the first slash is no component
    obtain ⟨s, r, hr⟩ := isAbsolute_iff.1 ha
    have hrest := hsome (s :: r)
    rw [hr, List.filterMap_cons_none (by rfl), List.length_cons]
    rw [hr, List.length_cons] at hpieces
    omega
  · split
    next r hr =>
      have hrest := hsome r
      rw [hr, List.length_cons] at hpieces
      rw [List.length_cons]
      omega
    · exact Nat.le_trans (hsome _) hpieces

theorem ancestorsFrom_of_none {k : Nat} (h : p.parent? = none) : ancestorsFrom k p = [p] := by
  cases k with
  | zero => rfl
  | succ k => simp only [ancestorsFrom, h]

theorem ancestorsFrom_of_some {k : Nat} (h : p.parent? = some q) :
    ancestorsFrom (k + 1) p = p :: ancestorsFrom k q := by
  simp only [ancestorsFrom, h]

/-- All the paths that a path lies in are listed if there are as many as components, and then they
are the same in both spellings. -/
theorem Respelled.forall₂_ancestorsFrom {k l : Nat} (h : Respelled p q)
    (hk : p.components.length ≤ k) (hl : q.components.length ≤ l) :
    List.Forall₂ Respelled (ancestorsFrom k p) (ancestorsFrom l q) := by
  induction k generalizing p q l with
  | zero =>
    rcases parent?_of_same h.same with ⟨hp, hq⟩ | ⟨p', q', hp, -, -⟩
    · rw [ancestorsFrom_of_none hp, ancestorsFrom_of_none hq]
      exact .cons h .nil
    · obtain ⟨c, -, hc⟩ := components_of_parent? hp
      rw [hc, List.length_append, List.length_singleton] at hk
      omega
  | succ k ih =>
    rcases parent?_of_same h.same with ⟨hp, hq⟩ | ⟨p', q', hp, hq, h'⟩
    · rw [ancestorsFrom_of_none hp, ancestorsFrom_of_none hq]
      exact .cons h .nil
    · obtain ⟨c, -, hc⟩ := components_of_parent? hp
      obtain ⟨d, -, hd⟩ := components_of_parent? hq
      rw [hc, List.length_append, List.length_singleton] at hk
      rw [hd, List.length_append, List.length_singleton] at hl
      obtain ⟨l, rfl⟩ : ∃ m, l = m + 1 := ⟨l - 1, by omega⟩
      rw [ancestorsFrom_of_some hp, ancestorsFrom_of_some hq]
      exact .cons h (ih h' (by omega) (by omega))

/-- **The paths that a path lies in**, in two spellings of it, are one by one the same. -/
theorem Respelled.forall₂_ancestors (h : Respelled p q) :
    List.Forall₂ Respelled p.ancestors q.ancestors :=
  h.forall₂_ancestorsFrom (length_components_le p) (length_components_le q)

end Scaffold.Path
