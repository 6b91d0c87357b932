import Scaffold.Proofs.Disk.Paths
import Scaffold.Proofs.Path.Parent

/-!
# Making a directory and those above it

Whatever comes of it, the only new entries are directories that a prefix of the path names
(`growsTowards_makeDirectories`). Without a fault the path leads to a directory afterwards
(`isDirectory_makeDirectories`), and where it does so already nothing is done
(`makeDirectories_of_isDirectory`).
-/

namespace Scaffold.Disk

variable {d e f : Disk} {p q : Path} {l : Location}

/-- Some of the names of the path, from the first one on, lead to the place. -/
def NamedByPrefix (d : Disk) (p : Path) (l : Location) : Prop :=
  ∃ ps, ps <+: p.names ∧ d.walk (d.origin p) ps = .ok l

/-- **New entries are directories on the way of a path**, and all else is as it was. -/
structure GrowsTowards (p : Path) (d e : Disk) : Prop where
  home : e.home = d.home
  view : ∀ l, e.view l = d.view l ∨
    d.view l = none ∧ e.view l = some .directory ∧ e.NamedByPrefix p l

theorem GrowsTowards.refl (p : Path) (d : Disk) : GrowsTowards p d d := ⟨rfl, fun _ => .inl rfl⟩

theorem GrowsTowards.view_of_some {st : Standing} (h : GrowsTowards p d e)
    (hl : d.view l = some st) : e.view l = some st := by
  rcases h.view l with hv | ⟨hv, -, -⟩
  · rw [hv, hl]
  · rw [hv] at hl; cases hl

theorem GrowsTowards.keeps (h : GrowsTowards p d e) : d.view.Keeps e.view := by
  intro l s hs
  exact ⟨s, h.view_of_some hs, rfl⟩

theorem GrowsTowards.of_new (h : GrowsTowards p d e) (hl : d.view l = none)
    (hne : e.view l ≠ none) : e.view l = some .directory ∧ e.NamedByPrefix p l := by
  rcases h.view l with hv | ⟨-, hd, hn⟩
  · exact absurd (hv.trans hl) hne
  · exact ⟨hd, hn⟩

theorem NamedByPrefix.of_keeps (h : d.NamedByPrefix p l) (hh : e.home = d.home)
    (hk : d.view.Keeps e.view) : e.NamedByPrefix p l := by
  obtain ⟨ps, hps, hw⟩ := h
  have ho : e.origin p = d.origin p := by rw [origin, origin, hh]
  exact ⟨ps, hps, by rw [ho]; exact walk_of_keeps hk hw⟩

theorem GrowsTowards.trans (h : GrowsTowards p d e) (h' : GrowsTowards p e f) :
    GrowsTowards p d f := by
  refine ⟨h'.home.trans h.home, fun l => ?_⟩
  rcases h'.view l with hv' | ⟨hn', hd', hp'⟩
  · rw [hv']
    rcases h.view l with hv | ⟨hn, hd, hp⟩
    · exact .inl hv
    · exact .inr ⟨hn, hd, hp.of_keeps h'.home h'.keeps⟩
  · rcases h.view l with hv | ⟨-, hd, -⟩
    · exact .inr ⟨hv ▸ hn', hd', hp'⟩
    · rw [hd] at hn'; cases hn'

/-! ### One directory -/

theorem locateParent_eq_ok {last : List Char} (h : d.locateParent p = .ok (l, last)) :
    check p = .ok () ∧ (d.view l).isSome ∧
      (last = ['.'] ∨ ∃ ps, p.names = ps ++ [last] ∧ d.walk (d.origin p) ps = .ok l) := by
  rw [locateParent] at h
  obtain ⟨_, hc, h⟩ := exists_of_bind_eq_ok h
  refine ⟨hc, ?_⟩
  cases hr : p.names.reverse with
  | nil =>
    rw [hr] at h
    obtain ⟨k, hw, h⟩ := exists_of_bind_eq_ok h
    obtain ⟨rfl, rfl⟩ := Prod.mk.inj (Except.ok.inj h)
    exact ⟨isSome_view_of_walk hw, .inl rfl⟩
  | cons x r =>
    rw [hr] at h
    obtain ⟨k, hw, h⟩ := exists_of_bind_eq_ok h
    obtain ⟨rfl, rfl⟩ := Prod.mk.inj (Except.ok.inj h)
    refine ⟨isSome_view_of_walk hw, .inr ⟨r.reverse, ?_, hw⟩⟩
    rw [← List.reverse_reverse p.names, hr, List.reverse_cons]

/-- What it takes for a last name not to be found: it could be put there. -/
theorem step_eq_notFound {last : List Char} (hl : (d.view l).isSome)
    (h : d.step l last = .error .notFound) : d.view l = some .directory ∧ last ≠ ['.'] ∧
      last ≠ ['.', '.'] ∧ ¬ nameLimit < Text.byteLength last ∧
      d.view (l ++ [String.ofList last]) = none := by
  rw [step_eq] at h
  split at h
  next hd =>
    split_ifs at h with h₁ h₂ h₃ h₄
    · simp at h
    · exact ⟨hd, h₁, h₂, h₃, Option.not_isSome_iff_eq_none.1 h₄⟩
  · simp at h
  next hn => rw [hn] at hl; simp at hl

/-- **A directory is made** only where a step to its name finds nothing. -/
theorem exists_of_makeDirectory (h : d.makeDirectory p = .ok e) : ∃ l last,
    d.locateParent p = .ok (l, last) ∧ d.step l last = .error .notFound ∧
      e = d.put (.directory []) (l ++ [String.ofList last]) := by
  rw [Disk.makeDirectory] at h
  obtain ⟨⟨l, last⟩, hl, h⟩ := exists_of_bind_eq_ok h
  refine ⟨l, last, hl, ?_⟩
  simp only at h
  split at h
  · cases h
  next hstep => exact ⟨hstep, (Except.ok.inj h).symm⟩
  · cases h

/-- **A directory that has been made**: the path leads there now, and nothing else has changed. -/
theorem makeDirectory_eq_ok (h : d.makeDirectory p = .ok e) :
    ∃ m, e.Leads p m ∧ check p = .ok () ∧ d.view m = none ∧ e.home = d.home ∧
      e.view = Function.update d.view m (some .directory) := by
  obtain ⟨l, last, hl, hstep, he⟩ := exists_of_makeDirectory h
  obtain ⟨hc, hs, hlast⟩ := locateParent_eq_ok hl
  obtain ⟨hd, hhere, hup, hlong, hnone⟩ := step_eq_notFound hs hstep
  obtain ⟨ps, hps, hw⟩ := hlast.resolve_left hhere
  have hv : e.view = Function.update d.view (l ++ [String.ofList last]) (some .directory) := by
    rw [he, view_put_directory hd (by simp [hnone])]
  have hk : d.view.Keeps e.view := hv ▸ View.Keeps.update (by simp [hnone])
  have hnew : e.view (l ++ [String.ofList last]) = some .directory := by simp [hv]
  refine ⟨_, ⟨(check_eq_ok.1 hc).1, ?_, hnew⟩, hc, hnone, by rw [he]; rfl, hv⟩
  have ho : e.origin p = d.origin p := by rw [he]; rfl
  rw [hps, ho, walk_append_of_ok (walk_of_keeps hk hw), walk_cons, step_eq,
    hk.directory hd]
  simp [hhere, hup, hlong, hnew, bind, Except.bind]

theorem growsTowards_makeDirectory (h : d.makeDirectory q = .ok e) (hq : q.names <+: p.names)
    (ha : q.isAbsolute = p.isAbsolute) : GrowsTowards p d e := by
  obtain ⟨m, hm, -, hnone, hh, hv⟩ := makeDirectory_eq_ok h
  refine ⟨hh, fun l => ?_⟩
  by_cases hl : l = m
  · subst hl
    have ho : e.origin p = e.origin q := by rw [origin, origin, ha]
    exact .inr ⟨hnone, hm.directory, q.names, hq, by rw [ho]; exact hm.reached⟩
  · exact .inl (by rw [hv, Function.update_of_ne hl])

theorem isDirectory_makeDirectory (h : d.makeDirectory p = .ok e) : e.isDirectory p = true := by
  obtain ⟨m, hm, hc, -⟩ := makeDirectory_eq_ok h
  exact isDirectory_iff_leads.2 ⟨hc, m, hm⟩

/-- A directory that is there already is not made again. -/
theorem makeDirectory_of_isDirectory (h : d.isDirectory p = true) :
    d.makeDirectory p = .error .exists_ := by
  obtain ⟨hc, l, hl⟩ := isDirectory_iff_leads.1 h
  have hreached := hl.reached
  rw [Disk.makeDirectory, locateParent, hc]
  cases hr : p.names.reverse with
  | nil =>
    rw [List.reverse_eq_nil_iff.1 hr] at hreached
    simp [hreached, step_eq, hl.directory, bind, Except.bind]
  | cons x r =>
    have hn : p.names = r.reverse ++ [x] := by
      rw [← List.reverse_reverse p.names, hr, List.reverse_cons]
    rw [hn] at hreached
    obtain ⟨m, hm, hmx⟩ := walk_append_eq_ok hreached
    rw [walk_cons] at hmx
    obtain ⟨k, hs, -⟩ := exists_of_bind_eq_ok hmx
    simp [hm, hs, bind, Except.bind]

/-! ### All directories of a path -/

/-- **What making a chain of directories can do at its innermost one**: the directory is made, or
it is there, or there is a fault; before that those above it may have been made. -/
theorem makeChain_cons (hp : p.text ≠ "") (d : Disk) (above : List Path) :
    ∃ d', (d' = d ∨ d' = (d.makeChain above).1) ∧
      (d'.makeDirectory p = .ok (d.makeChain (p :: above)).1 ∨
        (d.makeChain (p :: above)).1 = d' ∧
          ((d.makeChain (p :: above)).2 = none → d'.isDirectory p = true)) := by
  rw [makeChain.eq_def d (p :: above)]
  simp only [if_neg hp]
  cases hm : d.makeDirectory p with
  | ok e => exact ⟨d, .inl rfl, .inl hm⟩
  | error f =>
    -- only a missing parent lets the directories above be made and this one be tried again
    by_cases hf : f = .notFound
    · subst hf
      cases above with
      | nil => exact ⟨d, .inl rfl, .inr ⟨rfl, by simp⟩⟩
      | cons q r =>
        simp only
        cases hc : d.makeChain (q :: r) with
        | mk d' fault =>
          cases fault with
          | some f => exact ⟨d', .inr rfl, .inr ⟨rfl, by simp⟩⟩
          | none =>
            refine ⟨d', .inr rfl, ?_⟩
            simp only
            cases hm' : d'.makeDirectory p with
            | ok e => exact .inl rfl
            | error f => by_cases hd : d'.isDirectory p <;> simp [hd]
    · refine ⟨d, .inl rfl, .inr ?_⟩
      cases hd : d.isDirectory p <;> cases f <;> simp_all

-- the chain shrinks from its innermost path on, and all of it grows towards the whole path
theorem growsTowards_makeChain {chain : List Path}
    (hq : ∀ q ∈ chain, q.names <+: p.names ∧ q.isAbsolute = p.isAbsolute) :
    GrowsTowards p d (d.makeChain chain).1 := by
  induction chain with
  | nil => exact GrowsTowards.refl p d
  | cons q above ih =>
    by_cases hne : q.text = ""
    · rw [makeChain.eq_def d (q :: above)]
      simp only [if_pos hne]
      exact GrowsTowards.refl p d
    · obtain ⟨d', hd', h⟩ := makeChain_cons hne d above
      have hg : GrowsTowards p d d' := by
        rcases hd' with rfl | rfl
        · exact GrowsTowards.refl p d'
        · exact ih fun x hx => hq x (List.mem_cons_of_mem q hx)
      obtain ⟨hn, ha⟩ := hq q (by simp)
      rcases h with h | ⟨h, -⟩
      · exact hg.trans (growsTowards_makeDirectory h hn ha)
      · rw [h]; exact hg

theorem isDirectory_makeChain {above : List Path} (hp : p.text ≠ "")
    (h : (d.makeChain (p :: above)).2 = none) :
    (d.makeChain (p :: above)).1.isDirectory p = true := by
  obtain ⟨d', -, hm | ⟨he, hd⟩⟩ := makeChain_cons hp d above
  · exact isDirectory_makeDirectory hm
  · rw [he]; exact hd h

/-- **Making directories adds directories on the way only**, also where it fails. -/
theorem growsTowards_makeDirectories (d : Disk) (p : Path) :
    GrowsTowards p d (d.makeDirectories p).1 :=
  growsTowards_makeChain fun _ hq => Path.mem_ancestors hq

theorem isDirectory_makeDirectories (hp : p.text ≠ "") (h : (d.makeDirectories p).2 = none) :
    (d.makeDirectories p).1.isDirectory p = true := by
  obtain ⟨r, hr⟩ := Path.ancestors_eq_cons p
  rw [makeDirectories, hr] at h ⊢
  exact isDirectory_makeChain hp h

theorem makeDirectories_of_isDirectory (h : d.isDirectory p = true) :
    d.makeDirectories p = (d, none) := by
  obtain ⟨r, hr⟩ := Path.ancestors_eq_cons p
  have hp : p.text ≠ "" := (check_eq_ok.1 (isDirectory_iff_leads.1 h).1).2.1
  rw [makeDirectories, hr, makeChain.eq_def]
  simp [hp, makeDirectory_of_isDirectory h, h]

/-- Below a directory there are no others to make. -/
theorem makeDirectories_joinName {n : String} (h : d.Leads p l) (hn : PlainName n) :
    d.makeDirectories (p.joinName n) = if TooLong p n then (d, some .nameTooLong)
      else match d.view (l ++ [n]) with
        | some (.file _) => (d, some .exists_)
        | some .directory => (d, none)
        | none => (d.put (.directory []) (l ++ [n]), none) := by
  obtain ⟨r, hr⟩ := Path.ancestors_eq_cons (p.joinName n)
  rw [makeDirectories, hr, makeChain.eq_def]
  simp only [if_neg (Path.text_joinName_ne_empty hn), makeDirectory_joinName h hn]
  by_cases hlong : TooLong p n
  · simp [hlong, isDirectory_of_tooLong h hn hlong]
  · have hd := isDirectory_joinName h hn hlong
    cases hv : d.view (l ++ [n]) with
    | none => simp [hlong]
    | some s =>
      cases s with
      | directory => simp [hlong, hd.2 hv]
      | file c =>
        have hf : ¬ d.isDirectory (p.joinName n) = true := by simp [hd, hv]
        simp [hlong, hf]

end Scaffold.Disk
