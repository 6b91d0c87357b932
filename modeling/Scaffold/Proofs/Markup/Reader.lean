import Scaffold.Proofs.Markup.Item
import Scaffold.Proofs.Results

/-!
# Events of a text

The reader refuses a tag that repeats the name of an attribute, so the events of a text have
attributes of different names (`distinctKeys_events`).
-/

namespace Scaffold.Markup

variable {tag : String} {fuel position : Nat} {seen : List (String × Nat)} {cs : List Char}
  {as : List (String × String)}

/-! ### Tags -/

/-- **Attributes are read one by one**, each of a name that has not been seen in the tag. -/
theorem attributesFrom_cases (h : attributesFrom tag (fuel + 1) position seen cs = .ok as) :
    as = [] ∨ ∃ name value rest start next r, seen.lookup name = none ∧
      attributesFrom tag fuel next (seen ++ [(name, start)]) r = .ok rest ∧
      as = (name, value) :: rest := by
  rw [attributesFrom] at h
  simp only at h
  split at h
  next => exact .inl (Except.ok.inj h).symm
  split at h
  next =>
    split at h
    next => cases h
    next hseen =>
      split at h
      next => cases h
      split at h
      next =>
        split at h
        next => cases h
        split at h
        next => cases h
        next =>
          obtain ⟨rest, hrest, has⟩ := exists_of_bind_eq_ok h
          exact .inr ⟨_, _, rest, _, _, _, hseen, hrest, (Except.ok.inj has).symm⟩
      next => cases h
  next => cases h

/-- No name is read twice in a tag. -/
theorem nodup_attributesFrom (h : attributesFrom tag fuel position seen cs = .ok as) :
    (Entries.keys as).Nodup ∧ ∀ k ∈ Entries.keys as, seen.lookup k = none := by
  induction fuel generalizing position seen cs as with
  | zero =>
    cases h
    simp
  | succ fuel ih =>
    rcases attributesFrom_cases h with rfl | ⟨name, value, rest, start, next, r, hseen, hrest, rfl⟩
    · simp
    · obtain ⟨hnodup, hfree⟩ := ih hrest
      -- behind the attribute, its name has been seen
      have hboth : ∀ k ∈ Entries.keys rest, seen.lookup k = none ∧ k ≠ name := by
        intro k hk
        have hk := hfree k hk
        rw [List.lookup_append, Option.or_eq_none_iff] at hk
        refine ⟨hk.1, ?_⟩
        rintro rfl
        simp at hk
      rw [Entries.keys_cons, List.nodup_cons, List.forall_mem_cons]
      exact ⟨⟨fun hk => (hboth name hk).2 rfl, hnodup⟩, hseen, fun k hk => (hboth k hk).1⟩

theorem nodup_tagParts {t : String} (h : tagParts cs = .ok (t, as)) : (Entries.keys as).Nodup := by
  obtain ⟨bs, hbs, heq⟩ := exists_of_bind_eq_ok h
  cases heq
  exact (nodup_attributesFrom hbs).1

variable {c d : Cursor} {e : Event} {es : List Event}

theorem distinctKeys_startTag {content rest : List Char}
    (h : startTag c content rest = .ok (e, d)) : e.DistinctKeys := by
  rw [startTag] at h
  split_ifs at h
  all_goals
    obtain ⟨⟨t, bs⟩, hparts, heq⟩ := exists_of_bind_eq_ok h
    cases heq
    exact nodup_tagParts hparts

/-- An event without attributes. -/
theorem distinctKeys_of_attributes (h : e.attributes = []) : e.DistinctKeys := by
  rw [Event.DistinctKeys, h]
  exact List.nodup_nil

theorem attributes_endTag {content rest : List Char} (h : endTag c content rest = .ok (e, d)) :
    e.attributes = [] := by
  rw [endTag] at h
  split at h
  · cases h
  · split_ifs at h
    cases h
    rfl

theorem attributes_declaration (h : declaration c = .ok (e, d)) : e.attributes = [] := by
  rw [declaration] at h
  split at h
  next =>
    split at h
    next => cases h
    split at h
    next => cases h; rfl
    next => cases h
  next =>
    split at h
    next => cases h
    split at h
    next => cases h; rfl
    next => cases h
  next =>
    split_ifs at h
    next =>
      split at h
      next => cases h
      split at h
      next =>
        split_ifs at h
        cases h
        rfl
      next => cases h
    next => cases h
  next => cases h

theorem attributes_instruction (h : instruction c = .ok (e, d)) : e.attributes = [] := by
  rw [instruction] at h
  split at h
  · cases h
  · simp only at h
    split_ifs at h
    · cases h
    · cases h
      rfl

theorem distinctKeys_construct (h : construct c = .ok (e, d)) : e.DistinctKeys := by
  rw [construct] at h
  split at h
  · cases h
  · exact distinctKeys_of_attributes (attributes_declaration h)
  · exact distinctKeys_of_attributes (attributes_instruction h)
  · split at h
    · cases h
    · exact distinctKeys_of_attributes (attributes_endTag h)
  · split at h
    · cases h
    · exact distinctKeys_startTag h

/-- **The events of a text have attributes of different names.** -/
theorem distinctKeys_eventsFrom (fuel : Nat) (c : Cursor) :
    ∀ e ∈ (eventsFrom fuel c).1, e.DistinctKeys := by
  induction fuel generalizing c with
  | zero => simp [eventsFrom]
  | succ fuel ih =>
    rw [eventsFrom]
    split
    · simp
    · split
      · simp
      next e d hconstruct =>
        rw [List.forall_mem_cons]
        exact ⟨distinctKeys_construct hconstruct, ih d⟩
    · simp only
      split
      · simp
      · rw [List.forall_mem_cons]
        exact ⟨distinctKeys_of_attributes rfl, ih _⟩

theorem distinctKeys_events (cs : List Char) : ∀ e ∈ (events cs).1, e.DistinctKeys :=
  distinctKeys_eventsFrom _ _

end Scaffold.Markup
