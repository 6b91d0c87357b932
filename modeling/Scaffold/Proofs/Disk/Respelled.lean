import Scaffold.Proofs.Disk.Ancestors
import Scaffold.Proofs.Disk.Reach
import Scaffold.Proofs.Path.Respelled

/-!
# Paths in two spellings on a disk

Single dots on the way of a path make no difference to where it leads (`walk_bind_filter`): a dot is
followed in a directory, and from anything else nothing can be followed. So a path in two spellings
leads to the same place (`Leads.of_same`), and making the directory and those above it comes to the
same (`makeDirectories_of_respelled`), as long as both spellings pass the check of paths or neither
does.
-/

namespace Scaffold.Disk

open Scaffold.Path (Respelled)

variable {d : Disk} {p q : Path} {l : Location} {ps qs : List (List Char)} {n : String}

/-! ### Dots on the way -/

theorem walk_of_none (h : d.view l = none) (ps : List (List Char)) :
    d.walk l ps = .error .notFound := by
  cases ps with
  | nil => simp [h]
  | cons x r =>
    rw [walk_cons, step_eq, h]
    rfl

section

variable {α : Type} {g : Location → Except IoFault α}
  (hg : ∀ m c, d.view m = some (.file c) → g m = .error .notDirectory)

include hg

theorem walk_bind_of_file {c : Content} (h : d.view l = some (.file c)) (ps : List (List Char)) :
    d.walk l ps >>= g = .error .notDirectory := by
  cases ps with
  | nil =>
    rw [walk_nil, h]
    exact hg l c h
  | cons x r =>
    rw [walk_cons, step_eq, h]
    rfl

/-- **Single dots on the way** make no difference to anything that can only be done at a
directory. -/
theorem walk_bind_filter (l : Location) (ps : List (List Char)) :
    d.walk l ps >>= g = d.walk l (ps.filter (· != ['.'])) >>= g := by
  induction ps generalizing l with
  | nil => rfl
  | cons x r ih =>
    by_cases hx : x = ['.']
    · subst hx
      rw [List.filter_cons_of_neg (by simp), walk_cons, step_eq]
      cases hv : d.view l with
      | none => rw [walk_of_none hv]; rfl
      | some st =>
        cases st with
        | directory => exact ih l
        | file c => rw [walk_bind_of_file hg hv]; rfl
    · rw [List.filter_cons_of_pos (by simpa using hx), walk_cons, walk_cons]
      cases d.step l x with
      | error f => rfl
      | ok m => exact ih m

end

theorem origin_of_same (h : p.same q = true) : d.origin p = d.origin q := by
  rw [origin, origin, Path.isAbsolute_eq_of_same h]

/-- A place, if it is a directory. -/
def directoryAt (d : Disk) (l : Location) : Except IoFault Location :=
  if d.view l = some .directory then .ok l else .error .notDirectory

theorem directoryAt_of_file (d : Disk) (l : Location) (c : Content)
    (h : d.view l = some (.file c)) : d.directoryAt l = .error .notDirectory := by
  simp [directoryAt, h]

/-- **A path in two spellings leads to the same directory.** -/
theorem Leads.of_same (h : p.same q = true) (hp : d.Leads p l) : d.Leads q l := by
  have hg := d.directoryAt_of_file
  have hstart : d.walk (d.origin p) p.names >>= d.directoryAt = .ok l := by
    rw [hp.reached]
    exact if_pos hp.directory
  have hsteps : p.names.filter (· != ['.']) = q.names.filter (· != ['.']) := (Path.same_iff.1 h).2
  rw [walk_bind_filter hg, hsteps, ← walk_bind_filter hg, origin_of_same h] at hstart
  obtain ⟨m, hm, hml⟩ := exists_of_bind_eq_ok hstart
  have hlm : m = l := by
    rw [directoryAt] at hml
    split at hml
    · exact Except.ok.inj hml
    · cases hml
  exact ⟨mt (Path.null_mem_of_same h).2 hp.no_null, hlm ▸ hm, hp.directory⟩

/-! ### The check of paths -/

theorem check_of_same (h : p.same q = true)
    (hlimit : pathLimit ≤ Text.byteLength p.text.toList ↔ pathLimit ≤ Text.byteLength q.text.toList) :
    check p = check q := by
  simp only [check, List.contains_iff_mem, Path.null_mem_of_same h, Path.text_eq_empty_of_same h,
    hlimit]

/-- What is written as a prefix of a path passes the check with it, unless it is empty. -/
theorem check_of_begins (h : p.text.toList <+: q.text.toList) (hq : check q = .ok ()) :
    check p = if p.text = "" then .error .notFound else .ok () := by
  obtain ⟨hnull, -, hlength⟩ := check_eq_ok.1 hq
  obtain ⟨cs, hcs⟩ := h
  rw [← hcs, Text.byteLength_append] at hlength
  have hp : '\x00' ∉ p.text.toList := fun hp => hnull (hcs ▸ List.mem_append_left cs hp)
  rw [check, if_neg (by simpa using hp)]
  split
  · rfl
  · rw [if_neg (by omega)]

theorem isDirectory_of_same (h : p.same q = true) (hc : check p = check q) :
    d.isDirectory p = d.isDirectory q := by
  rw [Bool.eq_iff_iff, isDirectory_iff_leads, isDirectory_iff_leads, hc]
  exact and_congr_right fun _ =>
    ⟨.imp fun _ hl => hl.of_same h, .imp fun _ hl => hl.of_same (Path.same_symm h)⟩

/-- A name below a path in two spellings is located alike. -/
theorem locate_joinName_of_same (h : p.same q = true) (hn : PlainName n)
    (hc : check (p.joinName n) = check (q.joinName n)) :
    d.locate (p.joinName n) = d.locate (q.joinName n) := by
  have hg : ∀ m c, d.view m = some (.file c) → d.walk m [n.toList] = .error .notDirectory := by
    intro m c hm
    rw [walk_cons, step_eq, hm]
    rfl
  have hsteps : p.names.filter (· != ['.']) = q.names.filter (· != ['.']) := (Path.same_iff.1 h).2
  rw [locate, locate, hc, origin_joinName hn, origin_joinName hn, followed_joinName hn,
    followed_joinName hn, walk_append, walk_append, walk_bind_filter hg, hsteps,
    ← walk_bind_filter hg, origin_of_same h]

/-! ### Making directories -/

/-- Makes the directory of a last name at a place. -/
def makeAt (d : Disk) (last : List Char) (l : Location) : Except IoFault Disk :=
  match d.step l last with
  | .ok _ => .error .exists_
  | .error .notFound =>
    .ok { d with root := DiskEntry.putAt (.directory []) (l ++ [String.ofList last]) d.root }
  | .error f => .error f

theorem makeAt_of_file (d : Disk) (last : List Char) (l : Location) (c : Content)
    (h : d.view l = some (.file c)) : d.makeAt last l = .error .notDirectory := by
  rw [makeAt, step_eq, h]

theorem makeDirectory_of_names {last : List Char} (h : p.names = ps ++ [last]) :
    d.makeDirectory p = check p >>= fun _ =>
      d.walk (d.origin p) (ps.filter (· != ['.'])) >>= d.makeAt last := by
  rw [Disk.makeDirectory, locateParent, h, List.reverse_append]
  cases check p with
  | error f => rfl
  | ok u =>
    simp only [List.reverse_singleton, List.singleton_append, List.reverse_reverse]
    have hfilter := walk_bind_filter (d.makeAt_of_file last) (d.origin p) ps
    change (d.walk (d.origin p) ps >>= fun l => Except.ok (l, last)) >>= _ = _
    refine Eq.trans ?_ hfilter
    cases d.walk (d.origin p) ps <;> rfl

/-- A path without steps is the place where it starts. -/
theorem makeDirectory_of_steps_nil (h : p.steps = []) : d.makeDirectory p =
    check p >>= fun _ => d.walk (d.origin p) [] >>= d.makeAt ['.'] := by
  rcases List.eq_nil_or_concat p.names with hnames | ⟨ps, last, hnames⟩
  · rw [Disk.makeDirectory, locateParent, hnames]
    cases check p with
    | error f => rfl
    | ok u =>
      change (d.walk (d.origin p) [] >>= fun l => Except.ok (l, ['.'])) >>= _ = _
      cases d.walk (d.origin p) [] <;> rfl
  · rw [List.concat_eq_append] at hnames
    rw [Path.steps, hnames, List.filter_append, List.append_eq_nil_iff] at h
    have hlast : last = ['.'] := by simpa using h.2
    rw [makeDirectory_of_names hnames, h.1, hlast]

/-- **Making a directory** comes to the same for both spellings. -/
theorem makeDirectory_of_respelled (h : Respelled p q) (hc : check p = check q) :
    d.makeDirectory p = d.makeDirectory q := by
  have hsteps := (Path.same_iff.1 h.same).2
  have hnames : ∀ {p : Path} {ps last}, p.names = ps ++ [last] → last ≠ ['.'] →
      p.steps = ps.filter (· != ['.']) ++ [last] := by
    intro p ps last hp hlast
    rw [Path.steps, hp, List.filter_append, List.filter_cons_of_pos (by simpa using hlast),
      List.filter_nil]
  rcases h.left with hp | ⟨ps, last, hp, hlast⟩
  · rw [makeDirectory_of_steps_nil hp, makeDirectory_of_steps_nil (hsteps ▸ hp), hc,
      origin_of_same h.same]
  · rcases h.right with hq | ⟨qs, last', hq, hlast'⟩
    · rw [hq, hnames hp hlast] at hsteps
      simp at hsteps
    · rw [hnames hp hlast, hnames hq hlast'] at hsteps
      obtain ⟨hfilter, heq⟩ := List.append_inj' hsteps rfl
      rw [makeDirectory_of_names hp, makeDirectory_of_names hq, hc, origin_of_same h.same, hfilter,
        (List.cons.inj heq).1]

/-- **Making a chain of directories** comes to the same for both spellings of all its paths. -/
theorem makeChain_of_respelled {xs ys : List Path}
    (h : List.Forall₂ (fun p q => Respelled p q ∧ check p = check q) xs ys) (d : Disk) :
    d.makeChain xs = d.makeChain ys := by
  induction h generalizing d with
  | nil => rfl
  | @cons p q xs ys hpq hrest ih =>
    obtain ⟨hsame, hc⟩ := hpq
    have hdirectory : ∀ d : Disk, d.isDirectory p = d.isDirectory q := fun d =>
      isDirectory_of_same hsame.same hc
    have hmake : ∀ d : Disk, d.makeDirectory p = d.makeDirectory q := fun d =>
      makeDirectory_of_respelled hsame hc
    rw [makeChain.eq_def d (p :: xs), makeChain.eq_def d (q :: ys)]
    simp only [Path.text_eq_empty_of_same hsame.same, hmake, hdirectory]
    cases hrest with
    | nil => rfl
    | cons hxy hxs => rw [ih d]

/-- A path that does not pass the check is not made, and nothing above it. -/
theorem makeChain_of_check {f : IoFault} {above : List Path} (hp : p.text ≠ "")
    (hc : check p = .error f) : d.makeChain (p :: above) = (d, some f) := by
  have hmake : d.makeDirectory p = .error f := by
    rw [Disk.makeDirectory, locateParent, hc]
    rfl
  have hdirectory : d.isDirectory p = false := by
    rw [isDirectory, entry?, locate, hc]
    rfl
  have hfound : f ≠ .notFound := by
    rintro rfl
    rw [check, if_neg hp] at hc
    split_ifs at hc <;> cases hc
  rw [makeChain.eq_def]
  simp only [if_neg hp, hmake, hdirectory]
  cases f <;> simp_all

/-- **Making a directory and those above it** comes to the same for both spellings. -/
theorem makeDirectories_of_respelled (h : Respelled p q) (hc : check p = check q) :
    d.makeDirectories p = d.makeDirectories q := by
  have hchain := h.forall₂_ancestors
  rw [makeDirectories, makeDirectories]
  cases hp : check p with
  | error f =>
    obtain ⟨ps, hps⟩ := Path.ancestors_eq_cons p
    obtain ⟨qs, hqs⟩ := Path.ancestors_eq_cons q
    rw [hps, hqs]
    by_cases hempty : p.text = ""
    · have hempty' := (Path.text_eq_empty_of_same h.same).1 hempty
      rw [makeChain.eq_def, makeChain.eq_def]
      simp only [if_pos hempty, if_pos hempty']
    · rw [makeChain_of_check hempty hp,
        makeChain_of_check (mt (Path.text_eq_empty_of_same h.same).2 hempty) (hc ▸ hp)]
  | ok u =>
    -- what the path lies in is written as a prefix of it, and passes the check as it does
    refine makeChain_of_respelled ?_ d
    rw [List.forall₂_iff_zip] at hchain ⊢
    refine ⟨hchain.1, fun {x y} hxy => ⟨hchain.2 hxy, ?_⟩⟩
    obtain ⟨hx, hy⟩ := List.of_mem_zip hxy
    rw [check_of_begins (Path.liesIn_of_mem_ancestors hx).begins hp,
      check_of_begins (Path.liesIn_of_mem_ancestors hy).begins (hc ▸ hp)]
    simp only [Path.text_eq_empty_of_same (hchain.2 hxy).same]

end Scaffold.Disk
