import Scaffold.Proofs.Path.Join

/-!
# The components of paths

The components of a path are where it starts and its steps, the names in it other than single dots
(`components_eq`). Paths are the same if they start alike and have the same steps (`same_iff`).
Joining appends the steps, so a plain name that is joined is one more component
(`components_joinName`), and paths that are the same are so after joining, on either side
(`same_join`, `same_join_right`).
-/

namespace Scaffold.Path

variable {p q r : Path} {n : String} {ns : List String}

/-- Where a path starts: at the root, at a leading dot, or at neither. -/
def start (p : Path) : List PathComponent :=
  if p.isAbsolute then [.root] else if p.pieces.head? = some ['.'] then [.here] else []

/-- The names in a path that are not single dots. -/
def steps (p : Path) : List (List Char) := p.names.filter (· != ['.'])

def stepComponent (s : List Char) : PathComponent :=
  if s = ['.', '.'] then .up else .name (String.ofList s)

/-- The components that only stand first. -/
def isStart : PathComponent → Bool
  | .root | .here => true
  | .up | .name _ => false

theorem isStart_stepComponent (s : List Char) : isStart (stepComponent s) = false := by
  rw [stepComponent]
  split <;> rfl

theorem stepComponent_injective : Function.Injective stepComponent := by
  intro s t h
  rw [stepComponent, stepComponent] at h
  split at h <;> split at h
  next hs ht => rw [hs, ht]
  · cases h
  · cases h
  · exact String.ofList_injective (PathComponent.name.inj h)

theorem isStart_of_mem_start {c : PathComponent} (h : c ∈ p.start) : isStart c = true := by
  rw [start] at h
  split at h
  · obtain rfl := List.mem_singleton.1 h
    rfl
  · split at h
    · obtain rfl := List.mem_singleton.1 h
      rfl
    · cases h

theorem filterMap_component? (ps : List (List Char)) : ps.filterMap component? =
    ((ps.filter (· != [])).filter (· != ['.'])).map stepComponent := by
  induction ps with
  | nil => rfl
  | cons s r ih =>
    by_cases hs : s = [] ∨ s = ['.']
    · rw [List.filterMap_cons_none (by rw [component?, if_pos hs]), ih]
      rcases hs with rfl | rfl <;> simp
    · have hcomponent : component? s = some (stepComponent s) := by
        rw [component?, if_neg hs, stepComponent]
        split <;> rfl
      rw [List.filterMap_cons_some hcomponent, ih]
      rw [not_or] at hs
      simp [hs.1, hs.2]

/-- **The components of a path** are where it starts and its steps. -/
theorem components_eq (p : Path) : p.components = p.start ++ p.steps.map stepComponent := by
  rw [steps, names, ← filterMap_component?, components, start]
  split
  · rfl
  · split
    next r hr => rw [hr]; rfl
    next hne =>
      rw [if_neg, List.nil_append]
      intro hhead
      obtain ⟨r, hr⟩ := List.head?_eq_some_iff.1 hhead
      exact hne r hr

theorem components_inj : p.components = q.components ↔ p.start = q.start ∧ p.steps = q.steps := by
  have hfirst : ∀ p : Path, p.components.filter isStart = p.start := by
    intro p
    rw [components_eq, List.filter_append,
      List.filter_eq_self.2 fun c hc => isStart_of_mem_start hc, List.filter_eq_nil_iff.2,
      List.append_nil]
    intro c hc
    obtain ⟨s, -, rfl⟩ := List.mem_map.1 hc
    simp [isStart_stepComponent]
  constructor
  · intro h
    have hstart : p.start = q.start := by rw [← hfirst, h, hfirst]
    rw [components_eq, components_eq, hstart, List.append_cancel_left_eq] at h
    exact ⟨hstart, (List.map_inj_right fun _ _ hc => stepComponent_injective hc).1 h⟩
  · rintro ⟨hstart, hsteps⟩
    rw [components_eq, components_eq, hstart, hsteps]

/-- **Paths are the same** if they start alike and have the same steps. -/
theorem same_iff : p.same q = true ↔ p.start = q.start ∧ p.steps = q.steps := by
  rw [same, beq_iff_eq, components_inj]

theorem same_refl (p : Path) : p.same p = true := same_iff.2 ⟨rfl, rfl⟩

theorem same_symm (h : p.same q = true) : q.same p = true :=
  same_iff.2 ⟨(same_iff.1 h).1.symm, (same_iff.1 h).2.symm⟩

theorem start_eq_root_iff : p.start = [.root] ↔ p.isAbsolute = true := by
  rw [start]
  split
  next h => simp [h]
  next h =>
    split <;> simp [h]

theorem isAbsolute_eq_of_same (h : p.same q = true) : p.isAbsolute = q.isAbsolute := by
  rw [Bool.eq_iff_iff, ← start_eq_root_iff, ← start_eq_root_iff, (same_iff.1 h).1]

/-! ### Joining -/

/-- The pieces of a path to which another one is joined come before those of the other. If it ends
in a slash, or is empty, these are all but the last, which is empty. -/
theorem exists_pieces_join (p : Path) : ∃ ps, (p.text ≠ "" → ps ≠ []) ∧
    (p.pieces = ps ∨ p.pieces = ps ++ [[]]) ∧
      ∀ {q : Path}, q.isAbsolute = false → (p.join q).pieces = ps ++ q.pieces := by
  by_cases hempty : p.text = ""
  · refine ⟨[], fun h => absurd hempty h, .inr (by rw [pieces, hempty]; rfl), fun hq => ?_⟩
    rw [pieces, toList_join hq, lead, if_pos (.inl hempty), hempty]
    rfl
  · have hjoin : ∀ {a : List Char}, p.lead = a ++ ['/'] → ∀ {q : Path}, q.isAbsolute = false →
        (p.join q).pieces = Text.splitAll '/' a ++ q.pieces := by
      intro a ha q hq
      rw [pieces, toList_join hq, ha, List.append_assoc, List.singleton_append, Text.splitAll_append,
        pieces]
    by_cases hlast : p.text.toList.getLast? = some '/'
    · obtain ⟨a, ha⟩ := List.getLast?_eq_some_iff.1 hlast
      refine ⟨_, fun _ => Text.splitAll_ne_nil '/' a, .inr ?_,
        hjoin (by rw [lead, if_pos (.inr hlast), ha])⟩
      rw [pieces, ha, Text.splitAll_append]
      rfl
    · exact ⟨p.pieces, fun _ => Text.splitAll_ne_nil _ _, .inl rfl,
        hjoin (by rw [lead, if_neg (not_or.2 ⟨hempty, hlast⟩)])⟩

theorem names_join (hq : q.isAbsolute = false) : (p.join q).names = p.names ++ q.names := by
  obtain ⟨ps, -, hp, hjoin⟩ := exists_pieces_join p
  have hnames : p.names = ps.filter (· != []) := by
    rw [names]
    rcases hp with hp | hp <;> simp [hp]
  rw [names, hjoin hq, List.filter_append, ← hnames, names, names]

/-- **Joining appends the steps.** -/
theorem steps_join (hq : q.isAbsolute = false) : (p.join q).steps = p.steps ++ q.steps := by
  rw [steps, names_join hq, List.filter_append, steps, steps]

/-- A path that another is joined to decides where both start, unless it is empty. -/
theorem start_join (hq : q.isAbsolute = false) :
    (p.join q).start = if p.text = "" then q.start else p.start := by
  obtain ⟨ps, hne, hp, hjoin⟩ := exists_pieces_join p
  split
  next h =>
    have htext : (p.join q).text = q.text := by
      rw [← String.toList_inj, toList_join hq, lead, if_pos (.inl h), h]
      rfl
    rw [start, start, isAbsolute, pieces, htext, ← isAbsolute, ← pieces]
  next h =>
    have hhead : (p.join q).pieces.head? = p.pieces.head? := by
      obtain ⟨s, r, rfl⟩ := List.exists_cons_of_ne_nil (hne h)
      rcases hp with hp | hp <;> simp [hjoin hq, hp]
    rw [start, start, isAbsolute_join h hq, hhead]

theorem steps_joinName (hn : PlainName n) : (p.joinName n).steps = p.steps ++ [n.toList] := by
  rw [steps, names_joinName hn, List.filter_append, steps]
  simp [hn.toList_ne_here]

theorem start_joinName (hn : PlainName n) : (p.joinName n).start = p.start := by
  rw [joinName, start_join hn.isAbsolute_eq_false]
  split
  next h =>
    have hpieces : (mk n).pieces = [n.toList] := Text.splitAll_of_not_mem hn.no_slash
    have hempty : p.pieces = [[]] := by rw [pieces, h]; rfl
    have habsolute : p.isAbsolute = false := by rw [isAbsolute, h]; rfl
    simp [start, hn.isAbsolute_eq_false, habsolute, hpieces, hempty, hn.toList_ne_here]
  · rfl

/-- **A plain name that is joined is one more component.** -/
theorem components_joinName (hn : PlainName n) :
    (p.joinName n).components = p.components ++ [.name n] := by
  have hstep : stepComponent n.toList = .name n := by
    rw [stepComponent, if_neg hn.toList_ne_up, String.ofList_toList]
  rw [components_eq, components_eq, start_joinName hn, steps_joinName hn, List.map_append,
    List.map_singleton, hstep, List.append_assoc]

theorem components_joinNames (hn : ∀ n ∈ ns, PlainName n) :
    (p.joinNames ns).components = p.components ++ ns.map .name := by
  induction ns generalizing p with
  | nil => simp
  | cons n r ih =>
    rw [List.forall_mem_cons] at hn
    have hrest : (p.joinNames (n :: r)).components = ((p.joinName n).joinNames r).components := rfl
    rw [hrest, ih hn.2, components_joinName hn.1, List.append_assoc]
    rfl

/-- **Paths that are the same** are the same below any path. -/
theorem same_join (h : q.same r = true) : (p.join q).same (p.join r) = true := by
  have habsolute := isAbsolute_eq_of_same h
  cases hq : q.isAbsolute with
  | true =>
    rw [hq] at habsolute
    rwa [join, if_pos hq, join, if_pos habsolute.symm]
  | false =>
    rw [hq] at habsolute
    obtain ⟨hstart, hsteps⟩ := same_iff.1 h
    exact same_iff.2 ⟨by rw [start_join hq, start_join habsolute.symm, hstart],
      by rw [steps_join hq, steps_join habsolute.symm, hsteps]⟩

/-- Only the empty path has no components. -/
theorem text_eq_empty_iff : p.text = "" ↔ p.start = [] ∧ p.steps = [] := by
  constructor
  · intro h
    have hpieces : p.pieces = [[]] := by rw [pieces, h]; rfl
    have habsolute : p.isAbsolute = false := by rw [isAbsolute, h]; rfl
    exact ⟨by simp [start, habsolute, hpieces], by simp [steps, names, hpieces]⟩
  · rintro ⟨hstart, hsteps⟩
    refine Classical.byContradiction fun hne => ?_
    obtain ⟨c, cs, hc⟩ := List.exists_cons_of_ne_nil (mt String.toList_eq_nil_iff.1 hne)
    have hrelative : p.isAbsolute ≠ true := by
      rw [Ne, ← start_eq_root_iff, hstart]
      simp
    have hslash : c ≠ '/' := by
      rintro rfl
      exact hrelative (by rw [isAbsolute, hc]; rfl)
    obtain ⟨s, ss, hs⟩ := List.exists_cons_of_ne_nil (Text.splitAll_ne_nil '/' cs)
    have hpieces : p.pieces = (c :: s) :: ss := by
      rw [pieces, hc, Text.splitAll, if_neg hslash, hs]
    -- the first piece is not empty, so that it is a leading dot or a step
    by_cases hdot : c :: s = ['.']
    · simp [start, hrelative, hpieces, hdot] at hstart
    · have hmem : c :: s ∈ p.steps := by
        rw [steps, names, hpieces]
        simp only [List.mem_filter, List.mem_cons, true_or, true_and, bne_iff_ne]
        exact ⟨List.cons_ne_nil _ _, hdot⟩
      rw [hsteps] at hmem
      cases hmem

theorem text_eq_empty_of_same (h : p.same q = true) : p.text = "" ↔ q.text = "" := by
  obtain ⟨hstart, hsteps⟩ := same_iff.1 h
  rw [text_eq_empty_iff, text_eq_empty_iff, hstart, hsteps]

/-- **Below paths that are the same** any path is the same. -/
theorem same_join_right (h : p.same q = true) (r : Path) : (p.join r).same (q.join r) = true := by
  cases hr : r.isAbsolute with
  | true => simp [join, hr, same_refl]
  | false =>
    obtain ⟨hstart, hsteps⟩ := same_iff.1 h
    refine same_iff.2 ⟨?_, by rw [steps_join hr, steps_join hr, hsteps]⟩
    rw [start_join hr, start_join hr]
    simp only [text_eq_empty_of_same h, hstart]

theorem same_joinNames (h : p.same q = true) (ns : List String) :
    (p.joinNames ns).same (q.joinNames ns) = true := by
  induction ns generalizing p q with
  | nil => exact h
  | cons n r ih => exact ih (same_join_right h ⟨n⟩)

/-- A null character is in a step. -/
theorem null_mem_iff : '\x00' ∈ p.text.toList ↔ ∃ s ∈ p.steps, '\x00' ∈ s := by
  rw [← Text.exists_mem_splitAll (show '\x00' ≠ '/' by decide), ← pieces]
  constructor
  · rintro ⟨s, hs, hnull⟩
    refine ⟨s, ?_, hnull⟩
    have hempty : s ≠ [] := List.ne_nil_of_mem hnull
    have hdot : s ≠ ['.'] := by
      rintro rfl
      simp at hnull
    simp [steps, names, hs, hempty, hdot]
  · rintro ⟨s, hs, hnull⟩
    exact ⟨s, (List.mem_filter.1 (List.mem_filter.1 hs).1).1, hnull⟩

theorem null_mem_of_same (h : p.same q = true) :
    '\x00' ∈ p.text.toList ↔ '\x00' ∈ q.text.toList := by
  rw [null_mem_iff, null_mem_iff, (same_iff.1 h).2]

end Scaffold.Path
