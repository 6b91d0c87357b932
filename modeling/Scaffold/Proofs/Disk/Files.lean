import Scaffold.Proofs.Disk.Ancestors

/-!
# Written files

A file that has been written is found under its path with its content, and nothing else has changed
(`writeFile_eq_ok`). So a text that has been written can be read again (`readText_writeFile`).
-/

namespace Scaffold.Disk

variable {d e : Disk} {p : Path} {l m : Location} {piece last : List Char}
variable {ps : List (List Char)} {c : Content}

/-- The path of a file leads to it once it stands there. -/
theorem locate_put_file (hc : check p = .ok ()) (hslash : p.text.toList.getLast? ≠ some '/')
    (hp : p.names = ps ++ [last]) (hw : d.walk (d.origin p) ps = .ok l)
    (hl : d.view l = some .directory) (hhere : last ≠ ['.']) (hup : last ≠ ['.', '.'])
    (hlong : ¬ nameLimit < Text.byteLength last)
    (hk : d.view (l ++ [String.ofList last]) ≠ some .directory) :
    (d.put (.file c) (l ++ [String.ofList last])).locate p =
      .ok (l ++ [String.ofList last]) := by
  generalize he : d.put (.file c) (l ++ [String.ofList last]) = e
  have hv : e.view = Function.update d.view (l ++ [String.ofList last]) (some (.file c)) := by
    rw [← he, view_put_file c hl hk]
  have hkeeps : d.view.Keeps e.view := by
    rw [hv]
    refine View.Keeps.update fun t ht => ?_
    cases t with
    | directory => exact absurd ht hk
    | file c' => rfl
  have hnew : (e.view (l ++ [String.ofList last])).isSome := by simp [hv]
  have ho : e.origin p = d.origin p := by rw [← he]; rfl
  have hf : followed p = ps ++ [last] := by rw [followed, if_neg fun h => hslash h.1, hp]
  refine locate_eq_ok.2 ⟨hc, ?_⟩
  rw [hf, ho, walk_append_of_ok (walk_of_keeps hkeeps hw), walk_cons, step_eq,
    hkeeps.directory hl]
  simp [hhere, hup, hlong, hnew, bind, Except.bind]

/-- **A file is written** in the place of a file to which its name leads, or where a step to the
name finds nothing. -/
theorem exists_of_writeFile (h : d.writeFile p c = .ok e) : ∃ l last,
    d.locateParent p = .ok (l, last) ∧ p.text.toList.getLast? ≠ some '/' ∧
      ((∃ target c', d.step l last = .ok target ∧ d.at? target = some (.file c') ∧
          e = d.put (.file c) target) ∨
        d.step l last = .error .notFound ∧ e = d.put (.file c) (l ++ [String.ofList last])) := by
  rw [writeFile_eq] at h
  obtain ⟨⟨l, last⟩, hl, h⟩ := exists_of_bind_eq_ok h
  simp only at h
  split_ifs at h with hslash
  refine ⟨l, last, hl, hslash, ?_⟩
  split at h
  next target hstep =>
    split at h
    next c' hfile => exact .inl ⟨target, c', hstep, hfile, (Except.ok.inj h).symm⟩
    · cases h
  next hstep => exact .inr ⟨hstep, (Except.ok.inj h).symm⟩
  · cases h

/-- **A file that has been written**: the path leads to it now, and nothing else has changed. -/
theorem writeFile_eq_ok (h : d.writeFile p c = .ok e) : ∃ m, e.locate p = .ok m ∧
    d.view m ≠ some .directory ∧ e.home = d.home ∧
    e.view = Function.update d.view m (some (.file c)) := by
  obtain ⟨l, last, hl, hslash, hwritten⟩ := exists_of_writeFile h
  obtain ⟨hc, hs, hlast⟩ := locateParent_eq_ok hl
  -- either way the file stands in its directory under the name that is written last
  obtain ⟨hd, hhere, hup, hlong, hnd, rfl⟩ : d.view l = some .directory ∧ last ≠ ['.'] ∧
      last ≠ ['.', '.'] ∧ ¬ nameLimit < Text.byteLength last ∧
      d.view (l ++ [String.ofList last]) ≠ some .directory ∧
      e = d.put (.file c) (l ++ [String.ofList last]) := by
    obtain ⟨target, c', hstep, hfile, rfl⟩ | ⟨hstep, rfl⟩ := hwritten
    · -- only a name that is there already can lead to a file
      have hd := view_of_step hstep
      have hnd : d.view target ≠ some .directory := by
        rw [view_eq_file.2 hfile]
        simp
      obtain ⟨-, rfl⟩ | ⟨-, rfl⟩ | ⟨hhere, hup, hlong, -, rfl⟩ := step_eq_ok hstep
      · exact absurd hd hnd
      · exact absurd (view_dropLast hd) hnd
      · exact ⟨hd, hhere, hup, hlong, hnd, rfl⟩
    · obtain ⟨hd, hhere, hup, hlong, hnone⟩ := step_eq_notFound hs hstep
      exact ⟨hd, hhere, hup, hlong, by simp [hnone], rfl⟩
  obtain ⟨ps, hps, hw⟩ := hlast.resolve_left hhere
  exact ⟨_, locate_put_file hc hslash hps hw hd hhere hup hlong hnd, hnd, rfl,
    view_put_file c hd hnd⟩

theorem readText_of_view {text : String} (hl : d.locate p = .ok l)
    (hv : d.view l = some (.file (.text text))) : d.readText p = .ok text := by
  rw [Disk.readText, hl]
  simp only [bind, Except.bind, view_eq_file.1 hv]

theorem isFile_of_readText {text : String} (h : d.readText p = .ok text) : d.isFile p = true := by
  rw [Disk.readText] at h
  obtain ⟨l, hl, h⟩ := exists_of_bind_eq_ok h
  rw [isFile, entry?, hl]
  simp only at h ⊢
  split at h <;> simp_all

/-- A text that has been written can be read. -/
theorem readText_writeFile {text : String} (h : d.writeFile p (.text text) = .ok e) :
    e.readText p = .ok text := by
  obtain ⟨m, hm, -, -, hv⟩ := writeFile_eq_ok h
  exact readText_of_view hm (by simp [hv])

end Scaffold.Disk
