import Scaffold.Proofs.Disk.View
import Scaffold.Proofs.Path.Join

/-!
# Paths that lead to directories

`Disk.Leads d p l` says that the path leads to the directory at `l`. Then a plain name joined to the
path is located right below (`locate_joinName`), unless something is too long, and making a
directory or writing a file there changes the view at this place alone or fails without effect
(`makeDirectory_joinName`, `writeFile_joinName`).
-/

namespace Scaffold.Disk

variable {d e : Disk} {p q : Path} {l m : Location} {n : String}

/-- The disk with another entry at a place. -/
def put (d : Disk) (new : DiskEntry) (l : Location) : Disk :=
  { d with root := DiskEntry.putAt new l d.root }

@[simp] theorem home_put (d : Disk) (new : DiskEntry) (l : Location) :
    (d.put new l).home = d.home := rfl

theorem view_put {new : DiskEntry} {k : String} (hnew : ∀ m, m ≠ [] → new.view m = none)
    (hl : d.view l = some .directory) (hk : d.view (l ++ [k]) ≠ some .directory) :
    (d.put new (l ++ [k])).view = Function.update d.view (l ++ [k]) (some new.standing) :=
  DiskEntry.view_putAt hnew hl hk

theorem view_put_directory {k : String} (hl : d.view l = some .directory)
    (hk : d.view (l ++ [k]) ≠ some .directory) : (d.put (.directory []) (l ++ [k])).view =
      Function.update d.view (l ++ [k]) (some .directory) := by
  refine view_put (fun m hm => ?_) hl hk
  obtain ⟨j, r, rfl⟩ := List.exists_cons_of_ne_nil hm
  simp [DiskEntry.view_directory_cons]

theorem view_put_file {k : String} (c : Content) (hl : d.view l = some .directory)
    (hk : d.view (l ++ [k]) ≠ some .directory) : (d.put (.file c) (l ++ [k])).view =
      Function.update d.view (l ++ [k]) (some (.file c)) := by
  refine view_put (fun m hm => ?_) hl hk
  obtain ⟨j, r, rfl⟩ := List.exists_cons_of_ne_nil hm
  simp

theorem view_eq_directory : d.view l = some .directory ↔ ∃ es, d.at? l = some (.directory es) := by
  rw [view, DiskEntry.view, at?]
  cases d.root.at? l with
  | none => simp
  | some e => cases e <;> simp [DiskEntry.standing]

theorem view_eq_file {c : Content} : d.view l = some (.file c) ↔ d.at? l = some (.file c) := by
  rw [view, DiskEntry.view, at?]
  cases d.root.at? l with
  | none => simp
  | some e => cases e <;> simp [DiskEntry.standing]

theorem at?_of_view_file (h : (d.view l).isSome) (hd : d.view l ≠ some .directory) :
    ∃ c, d.at? l = some (.file c) := by
  obtain ⟨s, hs⟩ := Option.isSome_iff_exists.1 h
  cases s with
  | directory => exact absurd hs hd
  | file c => exact ⟨c, view_eq_file.1 hs⟩

/-! ### Following a path -/

theorem check_eq_ok : check p = .ok () ↔
    '\x00' ∉ p.text.toList ∧ p.text ≠ "" ∧ Text.byteLength p.text.toList < pathLimit := by
  rw [check]
  split_ifs <;> simp_all

theorem locate_eq_ok : d.locate p = .ok l ↔
    check p = .ok () ∧ d.walk (d.origin p) (followed p) = .ok l := by
  rw [locate]
  cases hc : check p with
  | error f => simp [bind, Except.bind]
  | ok u => simp [bind, Except.bind]

/-- **A path that leads to a directory.** -/
structure Leads (d : Disk) (p : Path) (l : Location) : Prop where
  no_null : '\x00' ∉ p.text.toList
  reached : d.walk (d.origin p) p.names = .ok l
  directory : d.view l = some .directory

theorem walk_here (h : d.view l = some .directory) : d.walk l [['.']] = .ok l := by
  rw [walk_cons, step_eq, h]
  simp [bind, Except.bind, h]

theorem walk_followed (h : d.walk l p.names = .ok m) (hm : d.view m = some .directory) :
    d.walk l (followed p) = .ok m := by
  rw [followed]
  split
  · rw [walk_append_of_ok h, walk_here hm]
  · exact h

theorem walk_names_of_followed (h : d.walk l (followed p) = .ok m) : d.walk l p.names = .ok m := by
  rw [followed] at h
  split at h
  · obtain ⟨k, hk, hkm⟩ := walk_append_eq_ok h
    rw [walk_cons, step_eq] at hkm
    split at hkm
    next hd =>
      rw [if_pos rfl] at hkm
      have hkm' : d.walk k [] = .ok m := hkm
      rw [walk_nil, hd] at hkm'
      rw [hk, ← hkm']
      rfl
    · simp [bind, Except.bind] at hkm
    · simp [bind, Except.bind] at hkm
  · exact h

theorem isDirectory_iff : d.isDirectory p = true ↔
    ∃ l, d.locate p = .ok l ∧ d.view l = some .directory := by
  rw [isDirectory, entry?]
  cases h : d.locate p with
  | error f => simp
  | ok l =>
    simp only [Except.ok.injEq, exists_eq_left', view_eq_directory]
    cases d.at? l with
    | none => simp
    | some e => cases e <;> simp

theorem pathExists_iff : d.pathExists p = true ↔ ∃ l, d.locate p = .ok l := by
  rw [pathExists, entry?]
  cases h : d.locate p with
  | error f => simp
  | ok l => simpa [← isSome_view] using isSome_view_of_walk (locate_eq_ok.1 h).2

theorem Leads.locate (h : d.Leads p l) (hc : check p = .ok ()) : d.locate p = .ok l :=
  locate_eq_ok.2 ⟨hc, walk_followed h.reached h.directory⟩

theorem isDirectory_iff_leads : d.isDirectory p = true ↔ check p = .ok () ∧ ∃ l, d.Leads p l := by
  rw [isDirectory_iff]
  constructor
  · rintro ⟨l, hl, hd⟩
    obtain ⟨hc, hw⟩ := locate_eq_ok.1 hl
    exact ⟨hc, l, (check_eq_ok.1 hc).1, walk_names_of_followed hw, hd⟩
  · rintro ⟨hc, l, hl⟩
    exact ⟨l, hl.locate hc, hl.directory⟩

theorem Leads.of_keeps (h : d.Leads p l) (hh : e.home = d.home) (hk : d.view.Keeps e.view) :
    e.Leads p l := by
  refine ⟨h.no_null, ?_, hk.directory h.directory⟩
  have ho : e.origin p = d.origin p := by rw [origin, origin, hh]
  rw [ho]
  exact walk_of_keeps hk h.reached

/-- **Where a file is written**: below the directory to which the names before the last lead. -/
theorem writeFile_eq (d : Disk) (p : Path) (c : Content) :
    d.writeFile p c = d.locateParent p >>= fun (l, last) =>
      if p.text.toList.getLast? = some '/' then .error .isDirectory
      else match d.step l last with
        | .ok target =>
          match d.at? target with
          | some (.file _) => .ok (d.put (.file c) target)
          | _ => .error .isDirectory
        | .error .notFound => .ok (d.put (.file c) (l ++ [String.ofList last]))
        | .error f => .error f := by
  rw [Disk.writeFile]
  by_cases hslash : p.text.toList.getLast? = some '/'
  · simp only [if_pos hslash]
  rw [if_neg hslash, locateParent]
  cases hc : check p with
  | error f => rfl
  | ok u =>
    obtain ⟨ps, last, hnames⟩ := (List.eq_nil_or_concat p.names).resolve_left
      (Path.names_ne_nil (check_eq_ok.1 hc).2.1 hslash)
    -- without links the last piece is looked for where the pieces before it lead
    simp only [hnames, List.concat_eq_append, List.reverse_append, List.reverse_singleton,
      List.singleton_append, List.reverse_reverse, reach_concat, if_neg hslash]
    cases d.walk (d.origin p) ps with
    | error f => rfl
    | ok l =>
      simp only [bind, Except.bind]
      cases d.step l last with
      | ok target =>
        dsimp only
        cases d.at? target with
        | none => rfl
        | some x => cases x <;> rfl
      | error f => cases f <;> rfl

/-! ### Names below a directory -/

/-- A path with a name joined to it that no operation takes, since one of them is too long. -/
def TooLong (p : Path) (n : String) : Prop :=
  pathLimit ≤ Text.byteLength (p.joinName n).text.toList ∨ nameLimit < Text.byteLength n.toList

-- irreducible, since no proof should count the bytes of a text that it does not know
@[irreducible] instance (p : Path) (n : String) : Decidable (TooLong p n) :=
  inferInstanceAs (Decidable (_ ∨ _))

theorem origin_joinName (hn : PlainName n) : d.origin (p.joinName n) = d.origin p := by
  rw [origin, origin, Path.isAbsolute_joinName hn]

theorem followed_joinName (hn : PlainName n) : followed (p.joinName n) = p.names ++ [n.toList] := by
  rw [followed, if_neg fun h => Path.getLast?_joinName hn h.1, Path.names_joinName hn]

theorem step_name (hl : d.view l = some .directory) (hn : PlainName n) :
    d.step l n.toList = if nameLimit < Text.byteLength n.toList then .error .nameTooLong
      else if (d.view (l ++ [n])).isSome then .ok (l ++ [n]) else .error .notFound := by
  rw [step_eq, hl]
  simp only [if_neg hn.toList_ne_here, if_neg hn.toList_ne_up, String.ofList_toList]

theorem check_joinName (hp : '\x00' ∉ p.text.toList) (hn : PlainName n) :
    check (p.joinName n) = if pathLimit ≤ Text.byteLength (p.joinName n).text.toList then
      .error .nameTooLong else .ok () := by
  have hnull : ¬ (p.joinName n).text.toList.contains '\x00' = true := by
    rw [List.contains_iff_mem, Path.null_mem_joinName hn]
    exact hp
  rw [check, if_neg hnull, if_neg (Path.text_joinName_ne_empty hn)]

theorem locate_joinName (h : d.Leads p l) (hn : PlainName n) :
    d.locate (p.joinName n) = if TooLong p n then .error .nameTooLong
      else if (d.view (l ++ [n])).isSome then .ok (l ++ [n]) else .error .notFound := by
  rw [locate, check_joinName h.no_null hn, origin_joinName hn, followed_joinName hn,
    walk_append_of_ok h.reached, walk_cons, step_name h.directory hn]
  by_cases hp : pathLimit ≤ Text.byteLength (p.joinName n).text.toList
  · simp [TooLong, hp, bind, Except.bind]
  · simp only [TooLong, hp, false_or, if_false, bind, Except.bind]
    split_ifs <;> simp_all

theorem locateParent_joinName (h : d.Leads p l) (hn : PlainName n) :
    d.locateParent (p.joinName n) =
      if pathLimit ≤ Text.byteLength (p.joinName n).text.toList then .error .nameTooLong
      else .ok (l, n.toList) := by
  rw [locateParent, check_joinName h.no_null hn, origin_joinName hn, Path.names_joinName hn,
    List.reverse_append]
  simp only [List.reverse_singleton, List.singleton_append, List.reverse_reverse, h.reached]
  split_ifs <;> rfl

theorem Leads.joinName (h : d.Leads p l) (hn : PlainName n) (hlong : ¬ TooLong p n)
    (hd : d.view (l ++ [n]) = some .directory) : d.Leads (p.joinName n) (l ++ [n]) := by
  refine ⟨by rw [Path.null_mem_joinName hn]; exact h.no_null, ?_, hd⟩
  have hs : ¬ nameLimit < Text.byteLength n.toList := fun hs => hlong (Or.inr hs)
  rw [origin_joinName hn, Path.names_joinName hn, walk_append_of_ok h.reached, walk_cons,
    step_name h.directory hn, if_neg hs, hd]
  simp [bind, Except.bind, hd]

theorem isDirectory_joinName (h : d.Leads p l) (hn : PlainName n) (hlong : ¬ TooLong p n) :
    d.isDirectory (p.joinName n) = true ↔ d.view (l ++ [n]) = some .directory := by
  rw [isDirectory_iff, locate_joinName h hn, if_neg hlong]
  split_ifs <;> simp_all

theorem isDirectory_of_tooLong (h : d.Leads p l) (hn : PlainName n) (hlong : TooLong p n) :
    d.isDirectory (p.joinName n) = false := by
  rw [Bool.eq_false_iff, ne_eq, isDirectory_iff, locate_joinName h hn, if_pos hlong]
  simp

theorem pathExists_of_tooLong (h : d.Leads p l) (hn : PlainName n) (hlong : TooLong p n) :
    d.pathExists (p.joinName n) = false := by
  rw [Bool.eq_false_iff, ne_eq, pathExists_iff, locate_joinName h hn, if_pos hlong]
  simp

theorem pathExists_joinName (h : d.Leads p l) (hn : PlainName n) (hlong : ¬ TooLong p n) :
    d.pathExists (p.joinName n) = true ↔ (d.view (l ++ [n])).isSome := by
  rw [pathExists_iff, locate_joinName h hn, if_neg hlong]
  split_ifs <;> simp_all

/-- **Making a directory below a directory.** -/
theorem makeDirectory_joinName (h : d.Leads p l) (hn : PlainName n) :
    d.makeDirectory (p.joinName n) = if TooLong p n then .error .nameTooLong
      else if (d.view (l ++ [n])).isSome then .error .exists_
      else .ok (d.put (.directory []) (l ++ [n])) := by
  rw [Disk.makeDirectory, locateParent_joinName h hn]
  by_cases hp : pathLimit ≤ Text.byteLength (p.joinName n).text.toList
  · simp [TooLong, hp, bind, Except.bind]
  · simp only [TooLong, hp, false_or, if_false, bind, Except.bind, step_name h.directory hn]
    split_ifs <;> simp [put]

/-- **Writing a file below a directory.** -/
theorem writeFile_joinName (h : d.Leads p l) (hn : PlainName n) (c : Content) :
    d.writeFile (p.joinName n) c = if TooLong p n then .error .nameTooLong
      else if d.view (l ++ [n]) = some .directory then .error .isDirectory
      else .ok (d.put (.file c) (l ++ [n])) := by
  rw [writeFile_eq, locateParent_joinName h hn]
  by_cases hp : pathLimit ≤ Text.byteLength (p.joinName n).text.toList
  · simp [TooLong, hp, bind, Except.bind]
  · simp only [TooLong, hp, false_or, if_false, bind, Except.bind, step_name h.directory hn,
      if_neg (Path.getLast?_joinName hn)]
    split_ifs with hs hv hd hd
    · rfl
    · rw [view_eq_directory] at hd
      obtain ⟨es, hes⟩ := hd
      simp [hes]
    · obtain ⟨c', hc'⟩ := at?_of_view_file hv hd
      simp [hc', put]
    · simp_all
    · simp [put]

end Scaffold.Disk
