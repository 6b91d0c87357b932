import Mathlib.Data.List.Infix
import Scaffold.Yaml.Draft

/-!
# The tokens that a reading leaves

Whatever is read, the tokens that are left are the last ones of those that were there. So a text
whose tokens do not come to the end of the stream is never whole (`Document.streamEnd_mem_of_whole`).
-/

namespace Scaffold.Yaml

variable {α β : Type} {s t : Supply}

/-- What is left after a reading is an end of the supply. -/
def Leaves (s : Supply) (r : Reading α) : Prop := ∀ u ∈ r.2, u.tokens <:+ s.tokens

theorem leaves_failed (a : α) : Leaves s (failed a) := fun _ h => by cases h

theorem leaves_some {a : α} (h : t.tokens <:+ s.tokens) : Leaves s (a, some t) := fun u hu => by
  obtain rfl := Option.some.inj hu
  exact h

theorem Leaves.mono {r : Reading α} (h : Leaves t r) (ht : t.tokens <:+ s.tokens) : Leaves s r :=
  fun u hu => (h u hu).trans ht

theorem leaves_consItem {first : Reading α} {rest : Supply → Reading (List α)}
    (hfirst : Leaves s first) (hrest : ∀ u, Leaves u (rest u)) :
    Leaves s (consItem first rest) := by
  obtain ⟨a, _ | u⟩ := first
  · exact leaves_failed _
  · exact (hrest u).mono (hfirst u rfl)

theorem leaves_pairWith {first : Reading Draft} {second : Supply → Reading Draft}
    (hfirst : Leaves s first) (hsecond : ∀ u, Leaves u (second u)) :
    Leaves s (pairWith first second) := by
  obtain ⟨a, _ | u⟩ := first
  · exact leaves_failed _
  · exact (hsecond u).mono (hfirst u rfl)

theorem leaves_unlessEnds {ends : Token → Bool} {node : Supply → Reading Draft}
    (hnode : Leaves s (node s)) : Leaves s (unlessEnds ends node s) := by
  rw [unlessEnds]
  split
  · exact leaves_failed _
  · split_ifs
    · exact leaves_some (List.suffix_refl _)
    · exact hnode

theorem labels_suffix (s : Supply) : s.labels.2.2.tokens <:+ s.tokens := by
  rw [Supply.labels]
  split
  next h => rw [h]; exact (List.suffix_cons _ _).trans (List.suffix_cons _ _)
  next h => rw [h]; exact (List.suffix_cons _ _).trans (List.suffix_cons _ _)
  next h => rw [h]; exact List.suffix_cons _ _
  next h => rw [h]; exact List.suffix_cons _ _
  next => exact List.suffix_refl _

theorem tokens_register (s : Supply) (a : Option String) : (s.register a).2.tokens = s.tokens := by
  cases a <;> rfl

theorem leaves_bare (anchor tag : Option String) (m : Mark) (h : t.tokens <:+ s.tokens) :
    Leaves s (bare anchor tag m t) := by
  rw [bare]
  split_ifs
  · exact leaves_some h
  · exact leaves_failed _

/-- One token less is left. -/
theorem suffix_of_cons {tok : Token} {r : List Token} (h : s.tokens = tok :: r) :
    (t.with_ r).tokens <:+ s.tokens := by
  rw [h]
  exact List.suffix_cons _ _

/-- A comma that has to be there is left out. -/
theorem suffix_of_comma {first : Bool} {ts r : List Token}
    (h : (if first = true then some ts else
      match ts with
      | .comma :: r => some r
      | _ => none) = some r) : r <:+ ts := by
  split_ifs at h
  · rw [Option.some.inj h]
  · split at h
    next =>
      rw [← Option.some.inj h]
      exact List.suffix_cons _ _
    next => cases h

mutual

theorem leaves_nodeFrom : (fuel : Nat) → ∀ (block loose : Bool) (s : Supply),
    Leaves s (nodeFrom fuel block loose s)
  | 0, _, _, _ => leaves_failed _
  | fuel + 1, block, loose, s => by
    unfold nodeFrom
    split
    next a r h =>
      split
      · exact leaves_some (suffix_of_cons h)
      · exact leaves_failed _
    next =>
      -- what is read after the anchor and the tag is an end of what comes after them
      have hlabels := labels_suffix s
      generalize s.labels = labels at hlabels ⊢
      obtain ⟨anchor, written, t⟩ := labels
      have hafter : (t.register anchor).2.tokens <:+ s.tokens := by
        rw [tokens_register]
        exact hlabels
      have hrest : ∀ {tok r}, t.tokens = tok :: r →
          ((t.register anchor).2.with_ r).tokens <:+ s.tokens := fun h =>
        List.IsSuffix.trans (suffix_of_cons h) hlabels
      have hbare : ∀ tag m, Leaves s (bare anchor tag m (t.register anchor).2) :=
        fun tag m => leaves_bare anchor tag m hafter
      simp only
      split
      next => exact leaves_failed _
      next =>
        split
        next h => exact leaves_some (hrest h)
        next h =>
          split_ifs
          · exact (leaves_looseItems fuel _).mono hafter
          · exact hbare _ _
        next h => exact (leaves_flowItems fuel _ _).mono (hrest h)
        next h => exact (leaves_flowPairs fuel _ _).mono (hrest h)
        next h =>
          split_ifs
          · exact (leaves_blockItems fuel _).mono (hrest h)
          · exact hbare _ _
        next h =>
          split_ifs
          · exact (leaves_blockPairs fuel _).mono (hrest h)
          · exact hbare _ _
        next => exact leaves_failed _
        next => exact hbare _ _

theorem leaves_blockItems : (fuel : Nat) → ∀ s : Supply, Leaves s (blockItems fuel s)
  | 0, _ => leaves_failed _
  | fuel + 1, s => by
    unfold blockItems
    split
    next h =>
      exact leaves_consItem
        ((leaves_unlessEnds (leaves_nodeFrom fuel _ _ _)).mono (suffix_of_cons h))
        (leaves_blockItems fuel)
    next h => exact leaves_some (suffix_of_cons h)
    next => exact leaves_failed _

theorem leaves_looseItems : (fuel : Nat) → ∀ s : Supply, Leaves s (looseItems fuel s)
  | 0, _ => leaves_failed _
  | fuel + 1, s => by
    unfold looseItems
    split
    next h =>
      exact leaves_consItem
        ((leaves_unlessEnds (leaves_nodeFrom fuel _ _ _)).mono (suffix_of_cons h))
        (leaves_looseItems fuel)
    next => exact leaves_failed _
    next => exact leaves_some (List.suffix_refl _)

theorem leaves_blockPairs : (fuel : Nat) → ∀ s : Supply, Leaves s (blockPairs fuel s)
  | 0, _ => leaves_failed _
  | fuel + 1, s => by
    unfold blockPairs
    split
    next r h =>
      refine leaves_consItem (Leaves.mono (t := s.with_ r) ?_ (suffix_of_cons h))
        (leaves_blockPairs fuel)
      exact leaves_pairWith (leaves_unlessEnds (leaves_nodeFrom fuel _ _ _))
        (leaves_blockValue fuel)
    next h => exact leaves_some (suffix_of_cons h)
    next => exact leaves_failed _

theorem leaves_blockValue : (fuel : Nat) → ∀ s : Supply, Leaves s (blockValue fuel s)
  | 0, _ => leaves_failed _
  | fuel + 1, s => by
    unfold blockValue
    split
    next h => exact (leaves_unlessEnds (leaves_nodeFrom fuel _ _ _)).mono (suffix_of_cons h)
    next => exact leaves_failed _
    next => exact leaves_some (List.suffix_refl _)

theorem leaves_flowItems : (fuel : Nat) → ∀ (first : Bool) (s : Supply),
    Leaves s (flowItems fuel first s)
  | 0, _, _ => leaves_failed _
  | fuel + 1, first, s => by
    unfold flowItems
    split
    next h => exact leaves_some (suffix_of_cons h)
    next =>
      -- a comma may have to be skipped
      generalize hts : ite (first = true) (some s.tokens) _ = ts
      have hcomma : ∀ r, ts = some r → r <:+ s.tokens := fun r hr =>
        suffix_of_comma (hts.trans hr)
      simp only
      split
      next => exact leaves_failed _
      next =>
        have hr := (List.suffix_cons _ _).trans (hcomma _ rfl)
        exact leaves_consItem (Leaves.mono (t := s.with_ _) (leaves_singlePair fuel _) hr)
          (leaves_flowItems fuel _)
      next => exact leaves_some ((List.suffix_cons _ _).trans (hcomma _ rfl))
      next =>
        exact leaves_consItem ((leaves_nodeFrom fuel _ _ _).mono (hcomma _ rfl))
          (leaves_flowItems fuel _)

theorem leaves_singlePair : (fuel : Nat) → ∀ s : Supply, Leaves s (singlePair fuel s)
  | 0, _ => leaves_failed _
  | fuel + 1, s => by
    unfold singlePair
    refine leaves_consItem (leaves_pairWith ?_ (leaves_singleValue fuel))
      fun u => leaves_some (List.suffix_refl _)
    split
    next => exact leaves_failed _
    next h =>
      split_ifs
      · exact leaves_some (suffix_of_cons h)
      · exact leaves_nodeFrom fuel _ _ _

theorem leaves_singleValue : (fuel : Nat) → ∀ s : Supply, Leaves s (singleValue fuel s)
  | 0, _ => leaves_failed _
  | fuel + 1, s => by
    unfold singleValue
    split
    next h => exact (leaves_unlessEnds (leaves_nodeFrom fuel _ _ _)).mono (suffix_of_cons h)
    next => exact leaves_failed _
    next => exact leaves_some (List.suffix_refl _)

theorem leaves_flowPairs : (fuel : Nat) → ∀ (first : Bool) (s : Supply),
    Leaves s (flowPairs fuel first s)
  | 0, _, _ => leaves_failed _
  | fuel + 1, first, s => by
    unfold flowPairs
    split
    next h => exact leaves_some (suffix_of_cons h)
    next =>
      -- a comma may have to be skipped
      generalize hts : ite (first = true) (some s.tokens) _ = ts
      have hcomma : ∀ r, ts = some r → r <:+ s.tokens := fun r hr =>
        suffix_of_comma (hts.trans hr)
      simp only
      split
      next => exact leaves_failed _
      next r =>
        have hr : r <:+ s.tokens := (List.suffix_cons _ _).trans (hcomma _ rfl)
        refine leaves_consItem (Leaves.mono (t := s.with_ r) ?_ hr) (leaves_flowPairs fuel _)
        exact leaves_pairWith (leaves_unlessEnds (leaves_nodeFrom fuel _ _ _))
          (leaves_flowValue fuel)
      next => exact leaves_some ((List.suffix_cons _ _).trans (hcomma _ rfl))
      next r _ _ =>
        refine leaves_consItem (Leaves.mono (t := s.with_ r) ?_ (hcomma _ rfl))
          (leaves_flowPairs fuel _)
        exact leaves_pairWith (leaves_nodeFrom fuel _ _ _) fun u => leaves_some (List.suffix_refl _)

theorem leaves_flowValue : (fuel : Nat) → ∀ s : Supply, Leaves s (flowValue fuel s)
  | 0, _ => leaves_failed _
  | fuel + 1, s => by
    unfold flowValue
    split
    next h => exact (leaves_unlessEnds (leaves_nodeFrom fuel _ _ _)).mono (suffix_of_cons h)
    next => exact leaves_failed _
    next => exact leaves_some (List.suffix_refl _)

end

namespace Document

variable {ts r : List Token}

theorem directives_suffix {version : Bool} {handles handles' : List (String × String)}
    (h : directives version handles ts = some (handles', r)) : r <:+ ts := by
  induction ts generalizing version handles with
  | nil =>
    obtain ⟨-, rfl⟩ := Prod.mk.inj (Option.some.inj h)
    exact List.suffix_refl _
  | cons tok ts ih =>
    unfold directives at h
    split at h
    next heq =>
      obtain ⟨-, rfl⟩ := List.cons.inj heq
      split_ifs at h
      exact (ih h).trans (List.suffix_cons _ _)
    next heq =>
      obtain ⟨-, rfl⟩ := List.cons.inj heq
      split_ifs at h
      exact (ih h).trans (List.suffix_cons _ _)
    next =>
      obtain ⟨-, rfl⟩ := Prod.mk.inj (Option.some.inj h)
      exact List.suffix_refl _

theorem streamEnd_mem_of_isOver (h : isOver ts = true) : .streamEnd ∈ ts := by
  have hover : ts.dropWhile (· == .documentEnd) = [.streamEnd] := by simpa [isOver] using h
  have hsuffix := List.dropWhile_suffix (l := ts) (· == .documentEnd)
  rw [hover] at hsuffix
  exact hsuffix.subset List.mem_cons_self

theorem streamEnd_mem_of_reading {s : Supply} {d : Reading Draft} (hd : Leaves s d)
    (h : (ofReading d).whole = true) : .streamEnd ∈ s.tokens := by
  obtain ⟨u, hu, hover⟩ := (Option.any_eq_true _ _).1 h
  exact (hd u hu).subset (streamEnd_mem_of_isOver hover)

theorem leaves_content (fuel : Nat) (s : Supply) : Leaves s (content fuel s) := by
  rw [content]
  split
  · exact leaves_some (List.suffix_refl _)
  · exact leaves_some (List.suffix_refl _)
  · exact leaves_some (List.suffix_refl _)
  · exact leaves_some (List.suffix_refl _)
  · exact leaves_nodeFrom _ _ _ _

/-- **A document is whole only if its tokens come to the end of the stream.** -/
theorem streamEnd_mem_of_whole (h : (ofTokens ts).whole = true) : .streamEnd ∈ ts := by
  have hstart : ∀ {ts' r : List Token} {handles : List (String × String)} {fuel : Nat},
      directives false [] ts' = some (handles, .documentStart :: r) →
      (ofReading (content fuel ⟨r, [], handles⟩)).whole = true → .streamEnd ∈ ts' := by
    intro ts' r handles fuel hdirectives h
    have hmem := streamEnd_mem_of_reading (leaves_content _ _) h
    exact (directives_suffix hdirectives).subset (List.mem_cons_of_mem _ hmem)
  rw [ofTokens.eq_def] at h
  simp only at h
  split at h
  next => exact List.mem_cons_self
  next =>
    split at h
    next hdirectives => exact hstart hdirectives h
    next => cases h
  next =>
    split at h
    next hdirectives => exact hstart hdirectives h
    next => cases h
  next => exact streamEnd_mem_of_reading (leaves_nodeFrom _ _ _ _) h

end Document

end Scaffold.Yaml
